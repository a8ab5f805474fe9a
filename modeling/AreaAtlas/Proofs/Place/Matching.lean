import AreaAtlas.Proofs.Areas.Writing
import AreaAtlas.Proofs.NodeTable.Acceptance
import AreaAtlas.Proofs.Place.Lines

/-!
# Finding headers and entries in a text

Places are found by looking at the text, not at what is read from it.  Here the two are compared line by
line: a line that looks like a header holds a logical line that begins with the keyword, and if it is a
header it is found under its name; a line that looks like an entry holds a logical line, and every entry
looks like one.
-/

namespace AreaAtlas

open Areas (Line)

theorem isBlank_of_isGap {c : Char} (h : Place.isGap c = true) : isBlank c = true := by
  rcases Bool.or_eq_true_iff.mp h with hc | hc
  · rw [beq_iff_eq.mp hc]
    decide
  · rw [beq_iff_eq.mp hc]
    decide

theorem isGap_eq_false {c : Char} (h : isBlank c = false) : Place.isGap c = false := by
  refine Bool.eq_false_iff.mpr fun hgap => ?_
  rw [isBlank_of_isGap hgap] at h
  cases h

namespace Place

/-! ## Names behind gaps -/

theorem beginsWithName_iff {name text : List Char} :
    beginsWithName name text = true ↔ ∃ behind, text = name ++ behind ∧ StopsAt isNameChar behind := by
  unfold beginsWithName
  cases hp : name.isPrefixOf? text with
  | none =>
    have hnone : ∀ behind, text ≠ name ++ behind := by
      rintro behind rfl
      rw [List.isPrefixOf?_eq_some_iff_append_eq.mpr rfl] at hp
      cases hp
    simp only [Bool.false_eq_true, false_iff, not_exists, not_and]
    exact fun behind he => absurd he (hnone behind)
  | some rest =>
    have htext := List.isPrefixOf?_eq_some_iff_append_eq.mp hp
    have hstops : (!rest.head?.any isNameChar) = true ↔ StopsAt isNameChar rest := by
      cases rest with
      | nil => exact iff_of_true rfl stopsAt_nil
      | cons c rest => simp [stopsAt_cons_iff]
    rw [hstops, ← htext]
    constructor
    · exact fun h => ⟨rest, rfl, h⟩
    · rintro ⟨behind, he, h⟩
      rwa [List.append_cancel_left he]

/-- A gap and a name stand at the front of a text. -/
def GapAndName (name text : List Char) (gap behind : List Char) : Prop :=
  text = gap ++ (name ++ behind) ∧ IsRun isGap gap ∧ StopsAt isNameChar behind

theorem gapAndName?_sound {name text : List Char} {length : Nat}
    (h : gapAndName? name text = some length) :
    ∃ gap behind, GapAndName name text gap behind ∧ length = gap.length + name.length := by
  unfold gapAndName? at h
  obtain ⟨i, hi, rfl⟩ := Option.map_eq_some_iff.mp h
  obtain ⟨hname, hmem, -⟩ := List.find?_range_eq_some.mp hi
  have hlt := List.mem_range.mp hmem
  obtain ⟨behind, hdrop, hstops⟩ := beginsWithName_iff.mp hname
  obtain ⟨k, hk⟩ : ∃ k, k = (text.takeWhile isGap).length - i := ⟨_, rfl⟩
  rw [← hk] at hdrop ⊢
  -- what is in front of the name is a part of the longest gap
  have htake : text.take k = (text.takeWhile isGap).take k := by
    have hsplit : text.takeWhile isGap ++ text.dropWhile isGap = text := List.takeWhile_append_dropWhile
    conv => lhs; rw [← hsplit]
    exact List.take_append_of_le_length (by omega)
  have hlength : (text.take k).length = k := by
    rw [htake, List.length_take]
    omega
  refine ⟨text.take k, behind, ⟨?_, ⟨?_, ?_⟩, hstops⟩, by rw [hlength]⟩
  · rw [← hdrop, List.take_append_drop]
  · intro hnil
    rw [hnil, List.length_nil] at hlength
    omega
  · intro c hc
    rw [htake] at hc
    exact List.mem_takeWhile_imp (List.mem_of_mem_take hc)

/-- A gap and a name that does not begin with a gap are found. -/
theorem isSome_gapAndName? {name text gap behind : List Char} (h : GapAndName name text gap behind)
    (hname : IsRun isNameChar name) : (gapAndName? name text).isSome = true := by
  obtain ⟨rfl, hgap, hbehind⟩ := h
  have hstops : StopsAt isGap (name ++ behind) :=
    hname.stopsAt_append fun c hc => isGap_eq_false (isBlank_eq_false_of_isNameChar hc)
  unfold gapAndName?
  rw [takeWhile_append_of_stopsAt hgap.2 hstops, Option.isSome_map, List.find?_isSome]
  refine ⟨0, List.mem_range.mpr (List.length_pos_of_ne_nil hgap.1), ?_⟩
  rw [Nat.sub_zero, List.drop_left, beginsWithName_iff]
  exact ⟨behind, rfl, hbehind⟩

/-! ## Entries -/

/-- A line looks like an entry with one of these keywords and this target. -/
def LooksLikeEntry (keywords : List (List Char)) (target text : List Char) : Prop :=
  ∃ indent keyword gap behind, text = indent ++ (keyword ++ (gap ++ (target ++ behind))) ∧
    (∀ c ∈ indent, isGap c = true) ∧ keyword ∈ keywords ∧ IsRun isGap gap ∧ StopsAt isNameChar behind

theorem entryLength?_sound {keywords : List (List Char)} {target text : List Char} {length : Nat}
    (h : entryLength? keywords target text = some length) :
    ∃ indent keyword gap behind, text = indent ++ (keyword ++ (gap ++ (target ++ behind))) ∧
      (∀ c ∈ indent, isGap c = true) ∧ keyword ∈ keywords ∧ IsRun isGap gap ∧
      StopsAt isNameChar behind ∧
      length = indent.length + keyword.length + (gap.length + target.length) := by
  unfold entryLength? at h
  obtain ⟨keyword, hkeyword, h⟩ := List.exists_of_findSome?_eq_some h
  obtain ⟨rest, hrest, h⟩ := Option.bind_eq_some_iff.mp h
  obtain ⟨n, hn, h⟩ := Option.bind_eq_some_iff.mp h
  obtain ⟨gap, behind, ⟨rfl, hgap, hbehind⟩, rfl⟩ := gapAndName?_sound hn
  have hdrop := List.isPrefixOf?_eq_some_iff_append_eq.mp hrest
  have htext : text.takeWhile isGap ++ text.drop (text.takeWhile isGap).length = text := by
    have htake : text.take (text.takeWhile isGap).length = text.takeWhile isGap :=
      List.prefix_iff_eq_take.mp (List.takeWhile_prefix isGap) |>.symm
    conv => lhs; lhs; rw [← htake]
    exact List.take_append_drop _ _
  refine ⟨text.takeWhile isGap, keyword, gap, behind, ?_, fun c hc => List.mem_takeWhile_imp hc, hkeyword,
    hgap, hbehind, (Option.some.inj h).symm⟩
  rw [hdrop, htext]

/-- What looks like an entry is found. -/
theorem isSome_entryLength? {keywords : List (List Char)}
    (hkeywords : ∀ keyword ∈ keywords, IsRun isNameChar keyword) {target text : List Char}
    (htarget : IsRun isNameChar target) (h : LooksLikeEntry keywords target text) :
    (entryLength? keywords target text).isSome = true := by
  obtain ⟨indent, keyword, gap, behind, rfl, hindent, hkeyword, hgap, hbehind⟩ := h
  have hstops : StopsAt isGap (keyword ++ (gap ++ (target ++ behind))) :=
    (hkeywords keyword hkeyword).stopsAt_append
      fun c hc => isGap_eq_false (isBlank_eq_false_of_isNameChar hc)
  have hname : (gapAndName? target (gap ++ (target ++ behind))).isSome = true :=
    isSome_gapAndName? ⟨rfl, hgap, hbehind⟩ htarget
  obtain ⟨length, hlength⟩ := Option.isSome_iff_exists.mp hname
  have hprefix : keyword.isPrefixOf? (keyword ++ (gap ++ (target ++ behind)))
      = some (gap ++ (target ++ behind)) := List.isPrefixOf?_eq_some_iff_append_eq.mpr rfl
  unfold entryLength?
  rw [takeWhile_append_of_stopsAt hindent hstops, List.findSome?_isSome_iff]
  refine ⟨keyword, hkeyword, ?_⟩
  rw [List.drop_left, hprefix]
  simp only [Option.bind_eq_bind, Option.bind_some, hlength, Option.pure_def, Option.isSome_some]

/-! ## Headers -/

/-- A line looks like a header if a gap follows the keyword, and what it declares is the name behind. -/
theorem declaredName?_eq_some_iff {name text : List Char} :
    declaredName? text = some name ↔ ∃ gap rest, text = anchorKeyword ++ (gap ++ rest) ∧
      IsRun isGap gap ∧ StopsAt isGap rest ∧ name = rest.takeWhile isNameChar := by
  unfold declaredName?
  cases hp : anchorKeyword.isPrefixOf? text with
  | none =>
    constructor
    · intro h
      cases h
    · rintro ⟨gap, rest, rfl, -⟩
      rw [List.isPrefixOf?_eq_some_iff_append_eq.mpr rfl] at hp
      cases hp
  | some behind =>
    obtain rfl := List.isPrefixOf?_eq_some_iff_append_eq.mp hp
    dsimp only
    constructor
    · intro h
      split at h
      · next hgap =>
        refine ⟨behind.takeWhile isGap, behind.dropWhile isGap, ?_, isRun_takeWhile ?_,
          stopsAt_dropWhile, (Option.some.inj h).symm⟩
        · rw [List.takeWhile_append_dropWhile]
        · cases behind with
          | nil => cases hgap
          | cons c behind =>
            have hc : isGap c = true := hgap
            rw [List.takeWhile_cons_of_pos hc]
            exact List.cons_ne_nil _ _
      · cases h
    · rintro ⟨gap, rest, he, hgap, hrest, rfl⟩
      obtain rfl := List.append_cancel_left he
      have hhead : (gap ++ rest).head?.any isGap = true := by
        cases gap with
        | nil => exact absurd rfl hgap.1
        | cons c gap => exact hgap.2 c List.mem_cons_self
      rw [if_pos hhead, dropWhile_append_of_stopsAt hgap.2 hrest]

end Place

/-! ## What such lines hold -/

/-- A line that begins with text keeps it, if it holds no comment and does not end in white space. -/
theorem content_firstLine_append {front : List Char}
    (hinline : ∀ c ∈ front, c ≠ '#' ∧ c ≠ '\n') (hlast : ∀ c ∈ front.getLast?, isBlank c = false)
    (behind : List Char) :
    ∃ rest, rest <+: behind ∧ Line.content (firstLine (front ++ behind)) = front ++ rest := by
  have hline : firstLine (front ++ behind) = front ++ firstLine behind :=
    firstLine_append (fun hmem => (hinline _ hmem).2 rfl) behind
  have hcomment : (front ++ firstLine behind).takeWhile (· ≠ '#')
      = front ++ (firstLine behind).takeWhile (· ≠ '#') :=
    List.takeWhile_append_of_pos fun c hc => decide_eq_true (hinline c hc).1
  refine ⟨trimEnd ((firstLine behind).takeWhile (· ≠ '#')), ?_, ?_⟩
  · exact (trimEnd_isPrefix _).trans
      ((List.takeWhile_prefix _).trans (List.takeWhile_prefix _))
  · rw [hline, Line.content, hcomment, trimEnd_append hlast]

theorem ne_of_isNameChar {c : Char} (h : isNameChar c = true) : c ≠ '#' ∧ c ≠ '\n' := by
  constructor
  · rintro rfl
    revert h
    decide +kernel
  · rintro rfl
    revert h
    decide +kernel

theorem ne_of_isGap {c : Char} (h : Place.isGap c = true) : c ≠ '#' ∧ c ≠ '\n' := by
  constructor
  · rintro rfl
    cases h
  · rintro rfl
    cases h

/-- A logical line as it stands in the text. -/
theorem Areas.content_eq_written {number : Nat} {raw : List Char} {line : Line}
    (h : logicalLine? number raw = some line) :
    line.number = number ∧ Line.content raw = line.written := by
  unfold logicalLine? at h
  split at h
  · cases h
  · obtain rfl := Option.some.inj h
    refine ⟨rfl, ?_⟩
    show _ = List.replicate _ ' ' ++ (Line.content raw).dropWhile (· = ' ')
    rw [replicate_length_takeWhile, List.takeWhile_append_dropWhile]

/-- What a logical line holds begins with no space. -/
theorem Areas.exists_text_eq_cons {number : Nat} {raw : List Char} {line : Line}
    (h : logicalLine? number raw = some line) : ∃ c rest, line.text = c :: rest ∧ c ≠ ' ' := by
  unfold logicalLine? at h
  split at h
  · cases h
  · next hcontent =>
    obtain rfl := Option.some.inj h
    obtain ⟨c, hc, -⟩ := getLast?_dropSpaces hcontent
    have hstops : StopsAt (· = ' ') ((Line.content raw).dropWhile (· = ' ')) := stopsAt_dropWhile
    show ∃ c rest, (Line.content raw).dropWhile (· = ' ') = c :: rest ∧ c ≠ ' '
    cases htext : (Line.content raw).dropWhile (· = ' ') with
    | nil =>
      rw [htext] at hc
      cases hc
    | cons d rest =>
      rw [htext, stopsAt_cons_iff] at hstops
      exact ⟨d, rest, rfl, of_decide_eq_false hstops⟩

/-- The text begins with what a logical line is written as. -/
theorem Areas.exists_eq_written_append {number : Nat} {text : List Char} {line : Line}
    (h : logicalLine? number (firstLine text) = some line) : ∃ behind, text = line.written ++ behind := by
  rw [← (content_eq_written h).2]
  obtain ⟨behind, hbehind⟩ := (Line.content_isPrefix (firstLine text)).trans (List.takeWhile_prefix _)
  exact ⟨behind, hbehind.symm⟩

namespace Place

/-- A line that looks like a header holds one line at depth zero that begins with the keyword. -/
theorem exists_isAnchor_of_declaredName? {name text : List Char}
    (h : declaredName? text = some name) (number : Nat) :
    ∃ line, Areas.logicalLine? number (firstLine text) = some line ∧ line.isAnchor = true := by
  obtain ⟨gap, rest, rfl, hgap, -, -⟩ := declaredName?_eq_some_iff.mp h
  have hkeyword : IsRun isNameChar anchorKeyword := by decide
  have hinline : ∀ c ∈ anchorKeyword, c ≠ '#' ∧ c ≠ '\n' :=
    fun c hc => ne_of_isNameChar (hkeyword.2 c hc)
  have hwords : ∀ c ∈ anchorKeyword, isBlank c = false :=
    fun c hc => isBlank_eq_false_of_isNameChar (hkeyword.2 c hc)
  have hlast : ∀ c ∈ anchorKeyword.getLast?, isBlank c = false :=
    fun c hc => hwords c (List.mem_of_mem_getLast? hc)
  obtain ⟨behind, hbehind, hcontent⟩ :=
    content_firstLine_append hinline hlast (gap ++ rest)
  -- what is left of the gap is white space in front
  have hstops : StopsAt (fun c => !isBlank c) behind := by
    cases behind with
    | nil => exact stopsAt_nil
    | cons c behind =>
      cases gap with
      | nil => exact absurd rfl hgap.1
      | cons d gap =>
        obtain ⟨rfl, -⟩ := List.cons_prefix_cons.mp hbehind
        refine stopsAt_cons ?_
        rw [isBlank_of_isGap (hgap.2 c List.mem_cons_self)]
        rfl
  have hspaces : (anchorKeyword ++ behind).takeWhile (· = ' ') = [] := rfl
  have htext : (anchorKeyword ++ behind).dropWhile (· = ' ') = anchorKeyword ++ behind := rfl
  have hword : (anchorKeyword ++ behind).takeWhile (fun c => !isBlank c) = anchorKeyword :=
    takeWhile_append_of_stopsAt (fun c hc => by rw [hwords c hc]; rfl) hstops
  refine ⟨⟨number, 0, anchorKeyword ++ behind⟩, ?_, ?_⟩
  · unfold Areas.logicalLine?
    rw [hcontent, if_neg (List.append_ne_nil_of_left_ne_nil (by decide) _), hspaces, htext]
    rfl
  · show (decide (0 = 0) && decide (String.ofList _ = "anchor")) = true
    rw [hword]
    rfl

/-- A header is found under its name. -/
theorem declaredName?_of_declares {number : Nat} {name : String} {text : List Char} {line : Line}
    (hspaced : isPlainlySpaced text = true)
    (hline : Areas.logicalLine? number (firstLine text) = some line) (hindent : line.indent = 0)
    (h : line.Declares name) : declaredName? text = some name.toList := by
  obtain ⟨place, hform⟩ := h
  obtain ⟨gap, behind, htext, hgap, hname, hbehind, hne⟩ := hform.exists_eq_append
  have hwritten : line.written = line.text := by rw [Line.written, hindent]; rfl
  obtain ⟨rest, hrest⟩ := Areas.exists_eq_written_append hline
  -- white space behind the keyword is plain, as the line goes on behind it
  have hplain : IsRun isGap gap := by
    refine ⟨hgap.1, fun c hc => isGap_of_mem_content hspaced ?_ (hgap.2 c hc)⟩
    rw [(Areas.content_eq_written hline).2, hwritten, htext]
    exact List.mem_append_right _ (List.mem_append_left _ hc)
  have hstops : StopsAt isGap (name.toList ++ (behind ++ rest)) :=
    hname.stopsAt_append fun c hc => isGap_eq_false (isBlank_eq_false_of_isNameChar hc)
  refine declaredName?_eq_some_iff.mpr ⟨gap, name.toList ++ (behind ++ rest), ?_, hplain, hstops, ?_⟩
  · rw [hrest, hwritten, htext]
    simp only [List.append_assoc]
    rfl
  · exact (takeWhile_append_of_stopsAt hname.2 (hbehind.append_of_ne_nil hne)).symm

theorem isRun_of_mem_entryKeywords {kind : ConnectionKind} :
    ∀ keyword ∈ entryKeywords kind, IsRun isNameChar keyword := by
  cases kind <;> decide

/-- What looks like an entry holds a logical line. -/
theorem exists_logicalLine?_of_entryLength? {kind : ConnectionKind} {target text : List Char}
    (h : (entryLength? (entryKeywords kind) target text).isSome = true) (number : Nat) :
    ∃ line, Areas.logicalLine? number (firstLine text) = some line := by
  obtain ⟨length, hlength⟩ := Option.isSome_iff_exists.mp h
  obtain ⟨indent, keyword, gap, behind, rfl, hindent, hkeyword, -⟩ := entryLength?_sound hlength
  have hrun := isRun_of_mem_entryKeywords keyword hkeyword
  have hinline : ∀ c ∈ indent ++ keyword, c ≠ '#' ∧ c ≠ '\n' := by
    intro c hc
    rcases List.mem_append.mp hc with hc | hc
    · exact ne_of_isGap (hindent c hc)
    · exact ne_of_isNameChar (hrun.2 c hc)
  have hlast : ∀ c ∈ (indent ++ keyword).getLast?, isBlank c = false := by
    intro c hc
    rw [List.getLast?_append_of_ne_nil _ hrun.1] at hc
    exact isBlank_eq_false_of_isNameChar (hrun.2 c (List.mem_of_mem_getLast? hc))
  obtain ⟨rest, -, hcontent⟩ :=
    content_firstLine_append hinline hlast (gap ++ (target ++ behind))
  rw [List.append_assoc] at hcontent
  have hne : ¬indent ++ keyword ++ rest = [] :=
    List.append_ne_nil_of_left_ne_nil (List.append_ne_nil_of_right_ne_nil _ hrun.1) _
  unfold Areas.logicalLine?
  rw [hcontent, if_neg hne]
  exact ⟨_, rfl⟩

/-- A header does not look like an entry. -/
theorem entryLength?_eq_none_of_declaredName? {name text : List Char}
    (h : declaredName? text = some name) (kind : ConnectionKind) (target : List Char) :
    entryLength? (entryKeywords kind) target text = none := by
  obtain ⟨gap, rest, htext, -⟩ := declaredName?_eq_some_iff.mp h
  by_contra hsome
  obtain ⟨length, hlength⟩ := Option.ne_none_iff_exists'.mp hsome
  obtain ⟨indent, keyword, gap', behind, he, hindent, hkeyword, -⟩ := entryLength?_sound hlength
  -- the first character would have to be of the indentation or of another keyword
  have hkeywords : ∀ keyword ∈ entryKeywords kind, keyword.head?.any (· ≠ 'a') = true := by
    cases kind <;> decide
  have hfirst : ∃ c rest, indent ++ (keyword ++ (gap' ++ (target ++ behind))) = c :: rest ∧ c ≠ 'a' := by
    cases indent with
    | cons c indent =>
      refine ⟨c, _, rfl, ?_⟩
      rintro rfl
      cases hindent 'a' List.mem_cons_self
    | nil =>
      have hne := hkeywords keyword hkeyword
      cases keyword with
      | nil => cases hne
      | cons c keyword => exact ⟨c, _, rfl, of_decide_eq_true hne⟩
  obtain ⟨c, rest', hc, hne⟩ := hfirst
  rw [← he, htext] at hc
  exact hne (List.cons.inj hc).1.symm

/-! ## Lines that show an entry -/

/-- A line shows an entry of this kind of connection that leads to `target`: a keyword, a gap and the name
stand at its front.  Whether it is an entry, and one that survives, does not count. -/
def Shows (kind : ConnectionKind) (target : List Char) (line : Line) : Prop :=
  ∃ keyword gap behind, line.text = keyword ++ (gap ++ (target ++ behind)) ∧
    keyword ∈ entryKeywords kind ∧ IsRun isGap gap ∧ StopsAt isNameChar behind

theorem ne_of_mem_content {text : List Char} {c : Char} (h : c ∈ Line.content (firstLine text)) :
    c ≠ '#' ∧ c ≠ '\n' := by
  constructor
  · have hc := (trimEnd_isPrefix _).subset h
    exact of_decide_eq_true (List.mem_takeWhile_imp (p := fun d => decide (d ≠ '#')) hc)
  · have hc := (Line.content_isPrefix _).subset h
    exact of_decide_eq_true (List.mem_takeWhile_imp (p := fun d => decide (d ≠ '\n')) hc)

/-- A line ends where its text does: no name goes on behind it. -/
theorem stopsAt_of_eq_content_append {text behind : List Char}
    (h : text = Line.content (firstLine text) ++ behind) : StopsAt isNameChar behind := by
  cases behind with
  | nil => exact stopsAt_nil
  | cons c behind =>
    by_contra hstops
    rw [stopsAt_cons_iff, Bool.not_eq_false] at hstops
    -- then the character would be a part of the line
    have hinline : ∀ d ∈ Line.content (firstLine text) ++ [c], d ≠ '#' ∧ d ≠ '\n' := by
      intro d hd
      rcases List.mem_append.mp hd with hd | hd
      · exact ne_of_mem_content hd
      · rw [List.mem_singleton.mp hd]
        exact ne_of_isNameChar hstops
    have hlast : ∀ d ∈ (Line.content (firstLine text) ++ [c]).getLast?, isBlank d = false := by
      intro d hd
      rw [List.getLast?_concat] at hd
      rw [← Option.some.inj hd]
      exact isBlank_eq_false_of_isNameChar hstops
    obtain ⟨rest, -, hcontent⟩ := content_firstLine_append hinline hlast behind
    rw [← List.append_cons, ← h] at hcontent
    have hlength := congrArg List.length hcontent
    simp only [List.length_append, List.length_singleton] at hlength
    omega

/-- **A line looks like an entry exactly if its logical line shows one.** -/
theorem looksLikeEntry_iff_shows {kind : ConnectionKind} {number : Nat} {target text : List Char}
    {line : Line} (htarget : IsRun isNameChar target)
    (hline : Areas.logicalLine? number (firstLine text) = some line) (hplain : line.IsPlain) :
    LooksLikeEntry (entryKeywords kind) target text ↔ Shows kind target line := by
  have hcontent := (Areas.content_eq_written hline).2
  constructor
  · rintro ⟨indent, keyword, gap, behind, rfl, hindent, hkeyword, hgap, hbehind⟩
    have hrun := isRun_of_mem_entryKeywords keyword hkeyword
    have hinline : ∀ c ∈ indent ++ (keyword ++ (gap ++ target)), c ≠ '#' ∧ c ≠ '\n' := by
      intro c hc
      simp only [List.mem_append] at hc
      rcases hc with hc | hc | hc | hc
      · exact ne_of_isGap (hindent c hc)
      · exact ne_of_isNameChar (hrun.2 c hc)
      · exact ne_of_isGap (hgap.2 c hc)
      · exact ne_of_isNameChar (htarget.2 c hc)
    have hlast : ∀ c ∈ (indent ++ (keyword ++ (gap ++ target))).getLast?, isBlank c = false := by
      intro c hc
      rw [← List.append_assoc, ← List.append_assoc, List.getLast?_append_of_ne_nil _ htarget.1] at hc
      exact isBlank_eq_false_of_isNameChar (htarget.2 c (List.mem_of_mem_getLast? hc))
    obtain ⟨rest, hrest, hfront⟩ := content_firstLine_append hinline hlast behind
    simp only [List.append_assoc] at hfront
    have hstops : StopsAt isNameChar rest := by
      intro c hc
      refine hbehind c ?_
      obtain ⟨back, rfl⟩ := hrest
      rw [List.head?_append, hc]
      rfl
    refine ⟨keyword, gap, rest, ?_, hkeyword, hgap, hstops⟩
    -- the text of the line is what stands behind the white space at its front
    calc line.text
        = line.written.dropWhile isBlank := by
          refine (dropWhile_append_of_stopsAt ?_ hplain).symm
          intro c hc
          rw [List.eq_of_mem_replicate hc]
          decide
      _ = (indent ++ (keyword ++ (gap ++ (target ++ rest)))).dropWhile isBlank := by
          rw [← hcontent, hfront]
      _ = keyword ++ (gap ++ (target ++ rest)) :=
          dropWhile_append_of_stopsAt (fun c hc => isBlank_of_isGap (hindent c hc))
            (hrun.stopsAt_append fun c hc => isBlank_eq_false_of_isNameChar hc)
  · rintro ⟨keyword, gap, behind, htext, hkeyword, hgap, hbehind⟩
    obtain ⟨after, hafter⟩ := Areas.exists_eq_written_append hline
    have hindent : ∀ c ∈ List.replicate line.indent ' ', isGap c = true := by
      intro c hc
      rw [List.eq_of_mem_replicate hc]
      rfl
    have hstops : StopsAt isNameChar (behind ++ after) := by
      cases behind with
      | nil =>
        -- the line ends with the name
        have hsplit : text = Line.content (firstLine text) ++ after := by
          rw [hcontent]
          exact hafter
        exact stopsAt_of_eq_content_append hsplit
      | cons c behind => exact hbehind.append_of_ne_nil (List.cons_ne_nil c behind)
    refine ⟨_, keyword, gap, behind ++ after, ?_, hindent, hkeyword, hgap, hstops⟩
    rw [hafter, Line.written, htext]
    simp only [List.append_assoc]

/-- What looks like an entry is what the search takes for one. -/
theorem isSome_entryLength?_iff {kind : ConnectionKind} {target text : List Char}
    (htarget : IsRun isNameChar target) :
    (entryLength? (entryKeywords kind) target text).isSome = true ↔
      LooksLikeEntry (entryKeywords kind) target text := by
  constructor
  · intro h
    obtain ⟨length, hlength⟩ := Option.isSome_iff_exists.mp h
    obtain ⟨indent, keyword, gap, behind, htext, hindent, hkeyword, hgap, hbehind, -⟩ :=
      entryLength?_sound hlength
    exact ⟨indent, keyword, gap, behind, htext, hindent, hkeyword, hgap, hbehind⟩
  · exact isSome_entryLength? isRun_of_mem_entryKeywords htarget

/-- Every entry is shown. -/
theorem shows_of_entryAbove? {kind : ConnectionKind} {number : Nat} {text : List Char} {line : Line}
    {behind : List Line} {e : Areas.Entry} (hspaced : isPlainlySpaced text = true)
    (hline : Areas.logicalLine? number (firstLine text) = some line)
    (hform : Areas.EntryForm line.text behind) (he : line.entryAbove? behind = some e)
    (hkeyword : e.kind.keyword.toList ∈ entryKeywords kind) : Shows kind e.target.toList line := by
  obtain ⟨gap, after, htext, hgap, -, hafter, -⟩ := hform.exists_eq_append he
  refine ⟨_, gap, after, htext, hkeyword, ⟨hgap.1, fun c hc => ?_⟩, hafter⟩
  refine isGap_of_mem_content hspaced ?_ (hgap.2 c hc)
  rw [(Areas.content_eq_written hline).2, Line.written, htext]
  exact List.mem_append_right _ (List.mem_append_right _ (List.mem_append_left _ hc))

end Place

end AreaAtlas

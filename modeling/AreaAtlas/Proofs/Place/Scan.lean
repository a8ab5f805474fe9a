import AreaAtlas.Proofs.Place.Search

/-!
# The search as a scan of lines

The search for an entry works with offsets into a text and with what is left of the text behind them.  It
finds the same as a plain scan: the text is split at line feeds, each line is looked at by itself, and the
anchor that it belongs to is the one that was opened last.  `ofConnection?_eq_scan` says so of every text,
also of one that cannot be read.
-/

namespace AreaAtlas.Place

/-! ## The scan -/

namespace Scan

/-- The name of the anchor that a line opens, which may be empty. -/
def opened? (line : List Char) : Option (List Char) :=
  let behind := line.drop anchorKeyword.length
  if line.take anchorKeyword.length = anchorKeyword ∧ behind.head?.any isGap = true then
    some ((behind.dropWhile isGap).takeWhile isNameChar)
  else none

/-- The anchor that a line belongs to: the one opened last, up to this line. -/
def owner? (lines : List (List Char)) (number : Nat) : Option (List Char) :=
  ((lines.take (number + 1)).filterMap opened?).getLast?

/-- Whether a line has this keyword behind its indentation, then a gap, and then this target, which does
not go on behind it. -/
def leadsTo (keyword target line : List Char) : Bool :=
  let word := line.dropWhile isGap
  let gap := word.drop keyword.length
  let name := gap.dropWhile isGap
  word.take keyword.length = keyword && gap.head?.any isGap &&
    (name.take target.length = target && !(name.drop target.length).head?.any isNameChar)

/-- The place of the first line that belongs to the anchor `source` and leads to `target`. -/
def find? (kind : ConnectionKind) (source target text : List Char) : Option Place :=
  let lines := text.splitOn '\n'
  let found := lines.zipIdx.find? fun (line, number) =>
    owner? lines number = some source && (entryKeywords kind).any fun keyword =>
      leadsTo keyword target line
  found.map fun (line, number) => ⟨number, (line.takeWhile (· = ' ')).length⟩

/-- The place of a connection.  One that leads in one direction only is looked for in that direction, and
then in the other; of the other kind `inverse` asks for the way back. -/
def connection? (c : Connection) (text : List Char) (inverse : Bool) : Option Place :=
  let there := find? c.kind c.start.toList c.finish.toList text
  let back := find? c.kind c.finish.toList c.start.toList text
  if c.unidirectional then there.or back else if inverse then back else there

end Scan

/-! ## Lines and what is left of a text -/

section FirstLine

variable {p : Char → Bool}

theorem takeWhile_firstLine (h : p '\n' = false) (text : List Char) :
    (firstLine text).takeWhile p = text.takeWhile p := by
  induction text with
  | nil => rfl
  | cons c rest ih =>
    by_cases hc : c = '\n'
    · subst hc
      rw [List.takeWhile_cons_of_neg (by simp [h])]
      rfl
    · rw [firstLine_cons hc, List.takeWhile_cons, List.takeWhile_cons, ih]

theorem dropWhile_firstLine (h : p '\n' = false) (text : List Char) :
    (firstLine text).dropWhile p = firstLine (text.dropWhile p) := by
  induction text with
  | nil => rfl
  | cons c rest ih =>
    by_cases hc : c = '\n'
    · subst hc
      rw [List.dropWhile_cons_of_neg (by simp [h])]
      rfl
    · rw [firstLine_cons hc, List.dropWhile_cons, List.dropWhile_cons, ih]
      split
      · rfl
      · exact (firstLine_cons hc rest).symm

theorem any_head?_firstLine (h : p '\n' = false) (text : List Char) :
    (firstLine text).head?.any p = text.head?.any p := by
  cases text with
  | nil => rfl
  | cons c rest =>
    by_cases hc : c = '\n'
    · subst hc
      exact h.symm
    · rw [firstLine_cons hc]
      rfl

end FirstLine

theorem stopsAt_iff_any_head? {p : Char → Bool} {text : List Char} :
    StopsAt p text ↔ text.head?.any p = false := by
  cases text with
  | nil => exact iff_of_true stopsAt_nil rfl
  | cons c rest => exact stopsAt_cons_iff

theorem isGap_lineFeed : isGap '\n' = false := by decide

theorem isNameChar_lineFeed : isNameChar '\n' = false :=
  isNameChar_eq_false_of_isBlank (by decide)

/-- **The lines between line feeds** are what is left of the text where they begin, each up to its end. -/
theorem splitOn_eq (text : List Char) :
    text.splitOn '\n' = (lineStarts text).map fun start => firstLine start.2 := by
  have hlines : ∀ offset, text.splitOn '\n'
      = firstLine text :: (behindLineFeeds offset text).map fun start => firstLine start.2 := by
    induction text with
    | nil => exact fun _ => rfl
    | cons c rest ih =>
      intro offset
      have hsplit : (c :: rest).splitOn '\n' = if (c == '\n') = true then [] :: rest.splitOn '\n'
          else (rest.splitOn '\n').modifyHead (c :: ·) := List.splitOnP_cons_eq_if_modifyHead c rest
      rw [hsplit, ih (offset + 1)]
      by_cases hc : c = '\n'
      · subst hc
        rfl
      · have hstarts : behindLineFeeds offset (c :: rest) = behindLineFeeds (offset + 1) rest := if_neg hc
        rw [if_neg (by simpa using hc), hstarts, firstLine_cons hc]
        rfl
  exact hlines 0

/-! ## What a line is taken for -/

/-- A line opens the anchor that it declares. -/
theorem opened?_firstLine (text : List Char) : Scan.opened? (firstLine text) = declaredName? text := by
  unfold Scan.opened? declaredName?
  cases hp : anchorKeyword.isPrefixOf? text with
  | none =>
    refine if_neg fun h => ?_
    have hprefix : anchorKeyword <+: text :=
      (List.prefix_iff_eq_take.mpr h.1.symm).trans (List.takeWhile_prefix _)
    obtain ⟨rest, hrest⟩ := hprefix
    rw [List.isPrefixOf?_eq_some_iff_append_eq.mpr hrest] at hp
    cases hp
  | some rest =>
    obtain rfl := List.isPrefixOf?_eq_some_iff_append_eq.mp hp
    have hline : firstLine (anchorKeyword ++ rest) = anchorKeyword ++ firstLine rest :=
      firstLine_append (by decide) rest
    have hname : ((firstLine rest).dropWhile isGap).takeWhile isNameChar
        = (rest.dropWhile isGap).takeWhile isNameChar := by
      rw [dropWhile_firstLine isGap_lineFeed, takeWhile_firstLine isNameChar_lineFeed]
    rw [hline, List.take_left, List.drop_left]
    dsimp only
    rw [any_head?_firstLine isGap_lineFeed, hname]
    simp only [true_and]

/-- What a line that leads somewhere is made of. -/
theorem leadsTo_iff {keyword target line : List Char} (hkeyword : IsRun isNameChar keyword)
    (htarget : IsRun isNameChar target) :
    Scan.leadsTo keyword target line = true ↔ ∃ indent gap behind,
      line = indent ++ (keyword ++ (gap ++ (target ++ behind))) ∧ (∀ c ∈ indent, isGap c = true) ∧
        IsRun isGap gap ∧ StopsAt isNameChar behind := by
  have hnoGap : ∀ c, isNameChar c = true → isGap c = false :=
    fun c hc => isGap_eq_false (isBlank_eq_false_of_isNameChar hc)
  unfold Scan.leadsTo
  simp only [Bool.and_eq_true, decide_eq_true_eq, Bool.not_eq_true']
  constructor
  · rintro ⟨⟨hword, hgap⟩, hname, hbehind⟩
    -- each part of the line is what the one before it leaves over
    have hline : line.takeWhile isGap ++ line.dropWhile isGap = line := List.takeWhile_append_dropWhile
    generalize line.dropWhile isGap = word at hword hgap hname hbehind hline
    have hsplit : keyword ++ word.drop keyword.length = word := by
      conv => lhs; lhs; rw [← hword]
      exact List.take_append_drop _ _
    generalize word.drop keyword.length = rest at hgap hname hbehind hsplit
    have hrest : rest.takeWhile isGap ++ rest.dropWhile isGap = rest := List.takeWhile_append_dropWhile
    have hrun : rest.takeWhile isGap ≠ [] := by
      cases rest with
      | nil => cases hgap
      | cons c rest =>
        have hc : isGap c = true := hgap
        rw [List.takeWhile_cons_of_pos hc]
        exact List.cons_ne_nil _ _
    generalize rest.dropWhile isGap = name at hname hbehind hrest
    have hend : target ++ name.drop target.length = name := by
      conv => lhs; lhs; rw [← hname]
      exact List.take_append_drop _ _
    refine ⟨line.takeWhile isGap, rest.takeWhile isGap, name.drop target.length, ?_,
      fun c hc => List.mem_takeWhile_imp hc, isRun_takeWhile hrun, stopsAt_iff_any_head?.mpr hbehind⟩
    rw [hend, hrest, hsplit, hline]
  · rintro ⟨indent, gap, behind, rfl, hindent, hgap, hbehind⟩
    have hword : (indent ++ (keyword ++ (gap ++ (target ++ behind)))).dropWhile isGap
        = keyword ++ (gap ++ (target ++ behind)) :=
      dropWhile_append_of_stopsAt hindent (hkeyword.stopsAt_append hnoGap)
    have hname : (gap ++ (target ++ behind)).dropWhile isGap = target ++ behind :=
      dropWhile_append_of_stopsAt hgap.2 (htarget.stopsAt_append hnoGap)
    have hhead : (gap ++ (target ++ behind)).head?.any isGap = true := by
      cases gap with
      | nil => exact absurd rfl hgap.1
      | cons c gap => exact hgap.2 c List.mem_cons_self
    rw [hword, List.take_left, List.drop_left, hname, List.take_left, List.drop_left]
    exact ⟨⟨rfl, hhead⟩, rfl, stopsAt_iff_any_head?.mp hbehind⟩

/-- Whether a text begins with an entry is decided on its first line. -/
theorem looksLikeEntry_firstLine {kind : ConnectionKind} {target : List Char}
    (htarget : IsRun isNameChar target) (text : List Char) :
    LooksLikeEntry (entryKeywords kind) target (firstLine text)
      ↔ LooksLikeEntry (entryKeywords kind) target text := by
  have hstops : ∀ behind, StopsAt isNameChar (firstLine behind) ↔ StopsAt isNameChar behind := by
    intro behind
    rw [stopsAt_iff_any_head?, stopsAt_iff_any_head?, any_head?_firstLine isNameChar_lineFeed]
  constructor
  · rintro ⟨indent, keyword, gap, behind, hline, hindent, hkeyword, hgap, hbehind⟩
    have htext : firstLine text ++ text.dropWhile (· ≠ '\n') = text := List.takeWhile_append_dropWhile
    refine ⟨indent, keyword, gap, behind ++ text.dropWhile (· ≠ '\n'), ?_, hindent, hkeyword, hgap, ?_⟩
    · conv => lhs; rw [← htext, hline]
      simp only [List.append_assoc]
    · -- behind the line there is nothing, or a line feed
      have hrest : StopsAt isNameChar (text.dropWhile (· ≠ '\n')) := by
        intro c hc
        have hstop : StopsAt (· ≠ '\n') (text.dropWhile (· ≠ '\n')) := stopsAt_dropWhile
        have hlineFeed : c = '\n' := by simpa using hstop c hc
        rw [hlineFeed, isNameChar_lineFeed]
      cases behind with
      | nil => exact hrest
      | cons c behind => exact hbehind.append_of_ne_nil (List.cons_ne_nil c behind)
  · rintro ⟨indent, keyword, gap, behind, rfl, hindent, hkeyword, hgap, hbehind⟩
    have hrun := isRun_of_mem_entryKeywords keyword hkeyword
    have hline : '\n' ∉ indent ++ (keyword ++ (gap ++ target)) := by
      simp only [List.mem_append, not_or]
      exact ⟨fun hc => (ne_of_isGap (hindent _ hc)).2 rfl,
        fun hc => (ne_of_isNameChar (hrun.2 _ hc)).2 rfl, fun hc => (ne_of_isGap (hgap.2 _ hc)).2 rfl,
        fun hc => (ne_of_isNameChar (htarget.2 _ hc)).2 rfl⟩
    refine ⟨indent, keyword, gap, firstLine behind, ?_, hindent, hkeyword, hgap, (hstops behind).mpr hbehind⟩
    have hfirst := firstLine_append hline behind
    simpa only [List.append_assoc] using hfirst

/-- **A line leads to a target exactly if the search takes it for such an entry.** -/
theorem any_leadsTo_firstLine {kind : ConnectionKind} {target : List Char}
    (htarget : IsRun isNameChar target) (text : List Char) :
    ((entryKeywords kind).any fun keyword => Scan.leadsTo keyword target (firstLine text))
      = (entryLength? (entryKeywords kind) target text).isSome := by
  rw [Bool.eq_iff_iff, isSome_entryLength?_iff htarget, ← looksLikeEntry_firstLine htarget,
    List.any_eq_true]
  constructor
  · rintro ⟨keyword, hkeyword, h⟩
    obtain ⟨indent, gap, behind, hline, hindent, hgap, hbehind⟩ :=
      (leadsTo_iff (isRun_of_mem_entryKeywords keyword hkeyword) htarget).mp h
    exact ⟨indent, keyword, gap, behind, hline, hindent, hkeyword, hgap, hbehind⟩
  · rintro ⟨indent, keyword, gap, behind, hline, hindent, hkeyword, hgap, hbehind⟩
    exact ⟨keyword, hkeyword, (leadsTo_iff (isRun_of_mem_entryKeywords keyword hkeyword) htarget).mpr
      ⟨indent, gap, behind, hline, hindent, hgap, hbehind⟩⟩

/-! ## The anchors of lines -/

/-- The anchor declared last among lines. -/
def lastName (starts : List (Nat × List Char)) : Option (List Char) :=
  (starts.filterMap fun start => declaredName? start.2).getLast?

theorem lastName_cons (start : Nat × List Char) (rest : List (Nat × List Char)) :
    lastName (start :: rest) = (lastName rest).or (declaredName? start.2) := by
  unfold lastName
  rw [List.filterMap_cons]
  cases declaredName? start.2 with
  | none => rw [Option.or_none]
  | some name =>
    rw [List.getLast?_cons]
    cases (rest.filterMap fun start => declaredName? start.2).getLast? with
    | none => rfl
    | some last => rfl

/-- The anchor that a line belongs to depends on the lines up to it. -/
theorem owned_eq (owner : Option (List Char)) (starts : List (Nat × List Char)) :
    owned owner starts
      = starts.zipIdx.map fun p => ((lastName (starts.take (p.2 + 1))).or owner, p.1) := by
  induction starts generalizing owner with
  | nil => rfl
  | cons start rest ih =>
    have hrest : (start :: rest).zipIdx = (start, 0) :: rest.zipIdx.map (Prod.map id (· + 1)) := by
      rw [List.zipIdx_cons, Nat.zero_add, List.zipIdx_succ]
      rfl
    have hfirst : lastName [start] = declaredName? start.2 := lastName_cons start []
    rw [owned_cons, ih, hrest, List.map_cons, List.map_map]
    refine congrArg₂ List.cons ?_ (List.map_congr_left ?_)
    · exact congrArg (fun name => (name.or owner, start)) hfirst.symm
    · rintro ⟨s, number⟩ -
      rw [Function.comp_apply, Prod.map_apply, List.take_succ_cons, lastName_cons, Option.or_assoc]
      rfl

/-- The scan gives a line the same anchor. -/
theorem owner?_splitOn (text : List Char) (number : Nat) :
    Scan.owner? (text.splitOn '\n') number = lastName ((lineStarts text).take (number + 1)) := by
  unfold Scan.owner? lastName
  rw [splitOn_eq, ← List.map_take, List.filterMap_map]
  simp only [Function.comp_def, opened?_firstLine]

/-! ## Places -/

/-- The place of a line that looks like an entry: its number, and the number of spaces in front. -/
theorem ofOffset_of_looksLikeEntry {kind : ConnectionKind} {target text : List Char}
    {start : Nat × List Char} {number : Nat} (hstart : (lineStarts text)[number]? = some start)
    (h : LooksLikeEntry (entryKeywords kind) target start.2) :
    ofOffset text start.1 = ⟨number, ((firstLine start.2).takeWhile (· = ' ')).length⟩ := by
  obtain ⟨front, htext, hoffset, hcount⟩ := getElem?_lineStarts hstart
  have htake : text.take start.1 = front := by rw [htext, hoffset, List.take_left]
  have hdrop : text.drop start.1 = start.2 := by
    conv => lhs; rw [htext, hoffset]
    exact List.drop_left
  -- the keyword is no space
  have hne : start.2.dropWhile (· = ' ') ≠ [] := by
    obtain ⟨indent, keyword, gap, behind, he, -, hkeyword, -⟩ := h
    have hrun := isRun_of_mem_entryKeywords keyword hkeyword
    obtain ⟨c, hc⟩ := List.exists_mem_of_ne_nil keyword hrun.1
    intro hnil
    have hspace : c = ' ' := by
      have hall := List.dropWhile_eq_nil_iff.mp hnil c (by rw [he]; simp [hc])
      exact of_decide_eq_true hall
    have hname := hrun.2 c hc
    rw [hspace, isNameChar_eq_false_of_isBlank (by decide)] at hname
    cases hname
  have hlength := congrArg List.length
    (List.takeWhile_append_dropWhile (p := fun c => decide (c = ' ')) (l := start.2))
  rw [List.length_append] at hlength
  unfold ofOffset
  rw [htake, hdrop, hcount, takeWhile_firstLine (by decide)]
  simp only [List.isEmpty_iff, hne, if_false]
  refine congrArg (Place.mk number) ?_
  omega

/-- **The search finds what the scan finds**, for a target that is a name. -/
theorem map_findEntry_eq (kind : ConnectionKind) (source : List Char) {target : List Char}
    (htarget : IsRun isNameChar target) (text : List Char) :
    (findEntry (entryKeywords kind) source target none 0 (lineStarts text)).map (ofOffset text)
      = Scan.find? kind source target text := by
  have hnoLineFeed : '\n' ∉ target := fun hc => (ne_of_isNameChar (htarget.2 _ hc)).2 rfl
  have hfits : (fun p : List Char × Nat => Scan.owner? (text.splitOn '\n') p.2 = some source &&
        (entryKeywords kind).any fun keyword => Scan.leadsTo keyword target p.1)
      ∘ Prod.map (fun start : Nat × List Char => firstLine start.2) id
      = fits (entryKeywords kind) source target
        ∘ fun p => ((lastName ((lineStarts text).take (p.2 + 1))).or none, p.1) := by
    funext ⟨⟨offset, behind⟩, number⟩
    simp only [Function.comp_apply, Prod.map_apply, id, owner?_splitOn, any_leadsTo_firstLine htarget, fits,
      Option.or_none]
  unfold Scan.find?
  rw [findEntry_eq hnoLineFeed (spread_lineStarts text), owned_eq, List.find?_map]
  dsimp only
  conv => rhs; rw [splitOn_eq, List.zipIdx_map, List.find?_map, ← splitOn_eq, hfits]
  cases hfound : (lineStarts text).zipIdx.find? (fits (entryKeywords kind) source target
      ∘ fun p => ((lastName ((lineStarts text).take (p.2 + 1))).or none, p.1)) with
  | none => rfl
  | some p =>
    have hstart : (lineStarts text)[p.2]? = some p.1 :=
      List.mk_mem_zipIdx_iff_getElem?.mp (List.mem_of_find?_eq_some hfound)
    have hfit := List.find?_some hfound
    have hlooks : LooksLikeEntry (entryKeywords kind) target p.1.2 :=
      (isSome_entryLength?_iff htarget).mp (Bool.and_eq_true_iff.mp hfit).2
    exact congrArg some (ofOffset_of_looksLikeEntry hstart hlooks)

/-- **A connection is found where the scan finds it**, in every text. -/
theorem ofConnection?_eq_scan (areas : String) {c : Connection} (hstart : IsRun isNameChar c.start.toList)
    (hfinish : IsRun isNameChar c.finish.toList) (inverse : Bool) :
    ofConnection? c areas.toList inverse = Scan.connection? c areas.toList inverse := by
  have hthere := map_findEntry_eq c.kind c.start.toList hfinish areas.toList
  have hback := map_findEntry_eq c.kind c.finish.toList hstart areas.toList
  unfold ofConnection? directions Scan.connection?
  rw [← hthere, ← hback]
  cases c.unidirectional with
  | true =>
    simp only [if_true, List.findSome?_cons, List.findSome?_nil]
    cases findEntry (entryKeywords c.kind) c.start.toList c.finish.toList none 0
        (lineStarts areas.toList) with
    | some offset => rfl
    | none =>
      cases findEntry (entryKeywords c.kind) c.finish.toList c.start.toList none 0
          (lineStarts areas.toList) with
      | some offset => rfl
      | none => rfl
  | false =>
    cases inverse with
    | true => exact congrArg _ (List.findSome?_singleton ..)
    | false => exact congrArg _ (List.findSome?_singleton ..)

/-- An entry in front of all anchors, an anchor without a name, a target that is only the front of a longer
one, and an entry behind a tab, on a line that nothing ends. -/
def looseLines : String :=
  "conn B: free\nanchor \n  conn B: free\nanchor A.B at\n  conn B.C\n \tconn\tB"

theorem ofConnection?_eq_scan_looseLines :
    let c : Connection := ⟨"A.B", "B", false, .branch⟩
    IsRun isNameChar c.start.toList ∧ IsRun isNameChar c.finish.toList ∧
      Scan.connection? c looseLines.toList false = some ⟨5, 1⟩ ∧
      ofConnection? c looseLines.toList false = Scan.connection? c looseLines.toList false := by
  intro c
  have hstart : IsRun isNameChar c.start.toList := by decide
  have hfinish : IsRun isNameChar c.finish.toList := by decide
  exact ⟨hstart, hfinish, by decide +kernel, ofConnection?_eq_scan looseLines hstart hfinish false⟩

end AreaAtlas.Place

import AreaAtlas.Proofs.Place.Matching

/-!
# The search for an entry

The search goes through a text once and keeps the anchor declared last.  It skips what an entry already
looked at takes up, but an entry ends on the line that it begins on, so nothing is skipped: the search
finds the first line that belongs to the anchor and looks like the entry, `findEntry_eq`.  In a text that
is read this is the first line of the anchor's body that shows the entry, `findEntry_eq_some_of_lines`.
-/

namespace AreaAtlas.Place

open Areas (Line)

/-! ## Lines and their anchors -/

/-- Lines with the name of the anchor that each belongs to, the one declared last. -/
def owned (owner : Option (List Char)) :
    List (Nat × List Char) → List (Option (List Char) × Nat × List Char)
  | [] => []
  | start :: rest =>
    let owner := (declaredName? start.2).or owner
    (owner, start) :: owned owner rest

theorem owned_cons (owner : Option (List Char)) (start : Nat × List Char)
    (rest : List (Nat × List Char)) : owned owner (start :: rest)
      = ((declaredName? start.2).or owner, start) :: owned ((declaredName? start.2).or owner) rest := rfl

/-- Whether a line looks like an entry with this target. -/
def looksLike (keywords : List (List Char)) (target : List Char) (start : Nat × List Char) : Bool :=
  (entryLength? keywords target start.2).isSome

/-- Whether a line belongs to the anchor `source` and looks like an entry with this target. -/
def fits (keywords : List (List Char)) (source target : List Char)
    (p : Option (List Char) × Nat × List Char) : Bool :=
  p.1 = some source && (entryLength? keywords target p.2.2).isSome

/-- Every line begins behind the end of the one before it. -/
def Spread (bound : Nat) : List (Nat × List Char) → Prop
  | [] => True
  | start :: rest => bound ≤ start.1 ∧ Spread (start.1 + (firstLine start.2).length + 1) rest

theorem Spread.mono {bound bound' : Nat} (hle : bound' ≤ bound) {starts : List (Nat × List Char)}
    (h : Spread bound starts) : Spread bound' starts := by
  cases starts with
  | nil => exact h
  | cons start rest => exact ⟨hle.trans h.1, h.2⟩

theorem spread_behindLineFeeds (offset : Nat) (text : List Char) :
    Spread (offset + (firstLine text).length + 1) (behindLineFeeds offset text) := by
  induction text generalizing offset with
  | nil => exact trivial
  | cons c rest ih =>
    by_cases hc : c = '\n'
    · subst hc
      exact ⟨Nat.le_refl _, ih (offset + 1)⟩
    · have hstarts : behindLineFeeds offset (c :: rest) = behindLineFeeds (offset + 1) rest := if_neg hc
      rw [hstarts, firstLine_cons hc, List.length_cons]
      refine (ih (offset + 1)).mono ?_
      omega

theorem spread_lineStarts (text : List Char) : Spread 0 (lineStarts text) := by
  refine ⟨Nat.le_refl 0, ?_⟩
  exact spread_behindLineFeeds 0 text

/-- An entry ends on the line that it begins on. -/
theorem length_le_of_entryLength? {kind : ConnectionKind} {target text : List Char} {length : Nat}
    (htarget : '\n' ∉ target) (h : entryLength? (entryKeywords kind) target text = some length) :
    length ≤ (firstLine text).length := by
  obtain ⟨indent, keyword, gap, behind, rfl, hindent, hkeyword, hgap, -, rfl⟩ := entryLength?_sound h
  have hrun := isRun_of_mem_entryKeywords keyword hkeyword
  have hline : '\n' ∉ indent ++ (keyword ++ (gap ++ target)) := by
    simp only [List.mem_append, not_or]
    exact ⟨fun hc => (ne_of_isGap (hindent _ hc)).2 rfl, fun hc => (ne_of_isNameChar (hrun.2 _ hc)).2 rfl,
      fun hc => (ne_of_isGap (hgap.2 _ hc)).2 rfl, htarget⟩
  have hsplit : indent ++ (keyword ++ (gap ++ (target ++ behind)))
      = indent ++ (keyword ++ (gap ++ target)) ++ behind := by simp only [List.append_assoc]
  rw [hsplit, firstLine_append hline]
  simp only [List.length_append]
  omega

/-- **The search finds the first line that fits.** -/
theorem findEntry_eq {kind : ConnectionKind} {source target : List Char} (htarget : '\n' ∉ target)
    {owner : Option (List Char)} {free : Nat} {starts : List (Nat × List Char)}
    (h : Spread free starts) : findEntry (entryKeywords kind) source target owner free starts =
      ((owned owner starts).find? (fits (entryKeywords kind) source target)).map (·.2.1) := by
  induction starts generalizing owner free with
  | nil => rfl
  | cons start rest ih =>
    obtain ⟨offset, text⟩ := start
    obtain ⟨hfree, hrest⟩ := h
    dsimp only at hfree hrest
    rw [findEntry, owned_cons]
    dsimp only
    rw [if_neg (Nat.not_lt.mpr hfree)]
    cases hlength : entryLength? (entryKeywords kind) target text with
    | none =>
      have hfits : ¬fits (entryKeywords kind) source target
          ((declaredName? text).or owner, offset, text) = true := by
        simp [fits, hlength]
      rw [List.find?_cons_of_neg hfits]
      exact ih (hrest.mono (by omega))
    | some length =>
      dsimp only
      by_cases howner : (declaredName? text).or owner = some source
      · have hfits : fits (entryKeywords kind) source target
            ((declaredName? text).or owner, offset, text) = true := by
          simp [fits, hlength, howner]
        rw [if_pos howner, List.find?_cons_of_pos hfits]
        rfl
      · have hfits : ¬fits (entryKeywords kind) source target
            ((declaredName? text).or owner, offset, text) = true := by
          simp [fits, howner]
        rw [if_neg howner, List.find?_cons_of_neg hfits]
        have hle := length_le_of_entryLength? htarget hlength
        exact ih (hrest.mono (by omega))

/-! ## The part of an anchor -/

/-- In front of the anchor `source` no line belongs to it. -/
theorem find?_owned_append {keywords : List (List Char)} {source target : List Char}
    {owner : Option (List Char)} (howner : owner ≠ some source) {front rest : List (Nat × List Char)}
    (h : ∀ start ∈ front, declaredName? start.2 ≠ some source) :
    ∃ owner', (owned owner (front ++ rest)).find? (fits keywords source target)
      = (owned owner' rest).find? (fits keywords source target) := by
  induction front generalizing owner with
  | nil => exact ⟨owner, rfl⟩
  | cons start front ih =>
    have hstart := h start List.mem_cons_self
    have howner' : (declaredName? start.2).or owner ≠ some source := by
      cases hd : declaredName? start.2 with
      | none => exact howner
      | some name =>
        rw [hd] at hstart
        exact hstart
    obtain ⟨owner', hfind⟩ := ih howner' fun s hs => h s (List.mem_cons_of_mem _ hs)
    have hfits : ¬fits keywords source target ((declaredName? start.2).or owner, start) = true := by
      simp [fits, howner']
    refine ⟨owner', ?_⟩
    rw [List.cons_append, owned_cons, List.find?_cons_of_neg hfits, hfind]

/-- Behind the header of `source` the first line that looks like the entry is found, if no header is in
front of it. -/
theorem find?_owned_body {keywords : List (List Char)} {source target : List Char}
    {body rest : List (Nat × List Char)} (hbody : ∀ s ∈ body, declaredName? s.2 = none)
    {found : Nat × List Char}
    (hfound : body.find? (looksLike keywords target) = some found) :
    (owned (some source) (body ++ rest)).find? (fits keywords source target)
      = some (some source, found) := by
  induction body with
  | nil => cases hfound
  | cons first body ih =>
    have hnone := hbody first List.mem_cons_self
    rw [List.cons_append, owned_cons, hnone, Option.none_or]
    have hfits : fits keywords source target (some source, first) = looksLike keywords target first := by
      simp [fits, looksLike]
    by_cases hfirst : looksLike keywords target first = true
    · rw [List.find?_cons_of_pos hfirst] at hfound
      rw [List.find?_cons_of_pos (hfits.trans hfirst), Option.some.inj hfound]
    · rw [List.find?_cons_of_neg hfirst] at hfound
      rw [← hfits] at hfirst
      rw [List.find?_cons_of_neg hfirst]
      exact ih (fun s hs => hbody s (List.mem_cons_of_mem _ hs)) hfound

/-- **The search finds the first line behind the header of `source` that looks like the entry.** -/
theorem findEntry_eq_some {kind : ConnectionKind} {source target : List Char}
    (htarget : '\n' ∉ target) {front body rest : List (Nat × List Char)} {header : Nat × List Char}
    (hspread : Spread 0 (front ++ header :: (body ++ rest)))
    (hfront : ∀ s ∈ front, declaredName? s.2 ≠ some source)
    (hheader : declaredName? header.2 = some source)
    (hbody : ∀ s ∈ body, declaredName? s.2 = none) {found : Nat × List Char}
    (hfound : body.find? (looksLike (entryKeywords kind) target) = some found) :
    findEntry (entryKeywords kind) source target none 0 (front ++ header :: (body ++ rest))
      = some found.1 := by
  have hnone : (none : Option (List Char)) ≠ some source := by simp
  obtain ⟨owner, hfind⟩ : ∃ owner, (owned none (front ++ header :: (body ++ rest))).find?
      (fits (entryKeywords kind) source target) = _ := find?_owned_append hnone hfront
  have hfits : ¬fits (entryKeywords kind) source target (some source, header) = true := by
    simp [fits, entryLength?_eq_none_of_declaredName? hheader]
  rw [findEntry_eq htarget hspread, hfind, owned_cons, hheader, Option.some_or,
    List.find?_cons_of_neg hfits, find?_owned_body hbody hfound]
  rfl

/-! ## The body of an anchor -/

/-- The line that is read where a line of a text begins. -/
def lineAt? (p : (Nat × List Char) × Nat) : Option Line :=
  Areas.logicalLine? p.2 (firstLine p.1.2)

/-- A logical line begins somewhere in the text. -/
theorem exists_lineAt? {text : List Char} (hspaced : isPlainlySpaced text = true) {line : Line}
    (h : line ∈ Areas.logicalLines text) :
    ∃ p ∈ (lineStarts text).zipIdx 1, lineAt? p = some line := by
  rw [Areas.logicalLines_eq hspaced] at h
  exact List.mem_filterMap.mp h

/-- **The place of a line** is the number it is read with, counted from zero, and its indentation. -/
theorem ofOffset_eq {text : List Char} {p : (Nat × List Char) × Nat}
    (hp : p ∈ (lineStarts text).zipIdx 1) {line : Line} (hline : lineAt? p = some line) :
    ofOffset text p.1.1 = ⟨line.number - 1, line.indent⟩ ∧ 0 < line.number := by
  have hnumber := line_ofOffset hp
  rw [← (Areas.content_eq_written hline).1] at hnumber
  obtain ⟨front, htext, hoffset, -⟩ :=
    getElem?_lineStarts (List.mk_mem_zipIdx_iff_le_and_getElem?_sub.mp hp).2
  have hdrop : text.drop p.1.1 = p.1.2 := by
    rw [hoffset]
    conv => lhs; rw [htext]
    exact List.drop_left
  obtain ⟨c, rest, hc, hne⟩ := Areas.exists_text_eq_cons hline
  obtain ⟨behind, hwritten⟩ := Areas.exists_eq_written_append hline
  -- the spaces at the front of the line are those of its indentation
  have hcontent : p.1.2.dropWhile (· = ' ') = line.text ++ behind := by
    rw [hwritten, Line.written, List.append_assoc]
    refine dropWhile_append_of_stopsAt ?_ ?_
    · intro d hd
      exact decide_eq_true (List.eq_of_mem_replicate hd)
    · rw [hc]
      exact stopsAt_cons (decide_eq_false hne)
  have hlength : p.1.2.length = line.indent + (line.text ++ behind).length := by
    rw [hwritten, Line.written]
    simp only [List.length_append, List.length_replicate]
    omega
  have hfull : (line.text ++ behind).isEmpty = false := by rw [hc]; rfl
  have hcharacter : (ofOffset text p.1.1).character = line.indent := by
    show (if ((text.drop p.1.1).dropWhile (· = ' ')).isEmpty = true then 0
      else (text.drop p.1.1).length - ((text.drop p.1.1).dropWhile (· = ' ')).length) = line.indent
    rw [hdrop, hcontent, hfull, hlength]
    simp
  refine ⟨?_, by omega⟩
  rw [← hcharacter, ← hnumber]
  rfl

/-- A line that stands deeper than a header does not look like one. -/
theorem declaredName?_eq_none {p : (Nat × List Char) × Nat}
    (h : ∀ line, lineAt? p = some line → 0 < line.indent) : declaredName? p.1.2 = none := by
  cases hd : declaredName? p.1.2 with
  | none => rfl
  | some name =>
    obtain ⟨line, hline, hanchor⟩ := exists_isAnchor_of_declaredName? hd p.2
    have hpos := h line hline
    rw [Line.indent_of_isAnchor hanchor] at hpos
    exact absurd hpos (Nat.lt_irrefl 0)

/-- A line that declares another anchor, if any, does not look like a header of `source`. -/
theorem declaredName?_ne {p : (Nat × List Char) × Nat} (hspaced : isPlainlySpaced p.1.2 = true)
    {source : String} (h : ∀ line, lineAt? p = some line → line.isAnchor = true →
      ∃ name, line.Declares name ∧ name ≠ source) : declaredName? p.1.2 ≠ some source.toList := by
  intro hd
  obtain ⟨line, hline, hanchor⟩ := exists_isAnchor_of_declaredName? hd p.2
  obtain ⟨name, hname, hne⟩ := h line hline hanchor
  rw [declaredName?_of_declares hspaced hline (Line.indent_of_isAnchor hanchor) hname] at hd
  exact hne (String.toList_injective (Option.some.inj hd))

/-- A list from which values are taken is taken apart where one of the values stands. -/
theorem exists_of_filterMap_eq {α β : Type} {f : α → Option β} {l : List α} {front rest : List β}
    {b : β} (h : l.filterMap f = front ++ b :: rest) : ∃ as a behind, l = as ++ a :: behind ∧
      (∀ a' ∈ as, ∀ b', f a' = some b' → b' ∈ front) ∧ f a = some b ∧ behind.filterMap f = rest := by
  obtain ⟨as, l', rfl, rfl, hl'⟩ := List.filterMap_eq_append_iff.mp h
  obtain ⟨blanks, a, behind, rfl, hblanks, ha, hbehind⟩ := List.filterMap_eq_cons_iff.mp hl'
  refine ⟨as ++ blanks, a, behind, by rw [List.append_assoc], ?_, ha, hbehind⟩
  intro a' ha' b' hb'
  rcases List.mem_append.mp ha' with ha' | ha'
  · exact List.mem_filterMap.mpr ⟨a', ha', hb'⟩
  · rw [hblanks a' ha'] at hb'
    cases hb'

/-- The lines of a text are taken apart where its logical lines are. -/
theorem exists_lineStarts_eq {text : List Char} (hspaced : isPlainlySpaced text = true)
    {front body rest : List Line} {header : Line}
    (hlines : Areas.logicalLines text = front ++ header :: (body ++ rest)) :
    ∃ ps h bs ts, (lineStarts text).zipIdx 1 = ps ++ h :: (bs ++ ts) ∧
      (∀ p ∈ ps, ∀ l, lineAt? p = some l → l ∈ front) ∧ lineAt? h = some header ∧
      bs.filterMap lineAt? = body := by
  rw [Areas.logicalLines_eq hspaced] at hlines
  obtain ⟨ps, h, qs, hps, hfronts, hh, hqs⟩ := exists_of_filterMap_eq hlines
  obtain ⟨bs, ts, rfl, hbs, -⟩ := List.filterMap_eq_append_iff.mp hqs
  exact ⟨ps, h, bs, ts, hps, hfronts, hh, hbs⟩

/-- Among lines of a text the first that looks like an entry is that of the first logical line that shows
it. -/
theorem exists_find?_of_shows {kind : ConnectionKind} {target : List Char}
    (htarget : IsRun isNameChar target) {starts : List ((Nat × List Char) × Nat)}
    {before behind : List Line} {line : Line}
    (hlines : starts.filterMap lineAt? = before ++ line :: behind)
    (hplain : ∀ l ∈ before ++ line :: behind, l.IsPlain) (hshows : Shows kind target line)
    (hbefore : ∀ l ∈ before, ¬Shows kind target l) :
    ∃ p ∈ starts, lineAt? p = some line ∧
      (starts.map (·.1)).find? (looksLike (entryKeywords kind) target) = some p.1 := by
  have hlooks : ∀ p ∈ starts, ∀ l, lineAt? p = some l →
      (looksLike (entryKeywords kind) target p.1 = true ↔ Shows kind target l) := by
    intro p hp l hl
    have hmem : l ∈ starts.filterMap lineAt? := List.mem_filterMap.mpr ⟨p, hp, hl⟩
    rw [looksLike, isSome_entryLength?_iff htarget]
    exact looksLikeEntry_iff_shows htarget hl (hplain l (hlines ▸ hmem))
  obtain ⟨as, p, bs, rfl, has, hp, -⟩ := exists_of_filterMap_eq hlines
  refine ⟨p, by simp, hp, ?_⟩
  rw [List.find?_eq_some_iff_append]
  refine ⟨(hlooks p (by simp) line hp).mpr hshows, as.map (·.1), bs.map (·.1), by simp, ?_⟩
  intro s hs
  obtain ⟨q, hq, rfl⟩ := List.mem_map.mp hs
  rw [Bool.not_eq_true', Bool.eq_false_iff]
  intro hsome
  -- what looks like an entry is not blank, so it is one of the lines in front
  obtain ⟨l, hl⟩ := exists_logicalLine?_of_entryLength? hsome q.2
  exact hbefore l (has q hq l hl) ((hlooks q (by simp [hq]) l hl).mp hsome)

/-- **The search finds the first line of the body that shows the entry**, if there is one. -/
theorem findEntry_eq_some_of_lines {kind : ConnectionKind} {source : String} {target text : List Char}
    (htarget : IsRun isNameChar target) (hspaced : isPlainlySpaced text = true)
    {front before behind rest : List Line} {header line : Line}
    (hlines : Areas.logicalLines text = front ++ header :: (before ++ line :: behind ++ rest))
    (hfront : ∀ l ∈ front, l.isAnchor = true → ∃ name, l.Declares name ∧ name ≠ source)
    (hanchor : header.isAnchor = true) (hheader : header.Declares source)
    (hbody : ∀ l ∈ before ++ line :: behind, l.IsPlain ∧ 0 < l.indent)
    (hshows : Shows kind target line) (hbefore : ∀ l ∈ before, ¬Shows kind target l) :
    (findEntry (entryKeywords kind) source.toList target none 0 (lineStarts text)).map (ofOffset text)
      = some ⟨line.number - 1, line.indent⟩ := by
  obtain ⟨ps, h, bs, ts, hsplit, hps, hh, hbs⟩ := exists_lineStarts_eq hspaced hlines
  have hstarts : lineStarts text = ps.map (·.1) ++ h.1 :: (bs.map (·.1) ++ ts.map (·.1)) := by
    rw [← List.zipIdx_map_fst 1 (lineStarts text), hsplit]
    simp only [List.map_append, List.map_cons]
  have hmem : ∀ p, p ∈ ps ∨ p = h ∨ p ∈ bs → p ∈ (lineStarts text).zipIdx 1 := by
    intro p hp
    rw [hsplit]
    simp only [List.mem_append, List.mem_cons]
    tauto
  have hplain : ∀ p ∈ (lineStarts text).zipIdx 1, isPlainlySpaced p.1.2 = true :=
    fun p hp => isPlainlySpaced_of_mem_lineStarts hspaced (List.fst_mem_of_mem_zipIdx hp)
  -- the lines in front declare other names, the header declares this one, and the body none
  have hfrontName : ∀ s ∈ ps.map (·.1), declaredName? s.2 ≠ some source.toList := by
    rw [List.forall_mem_map]
    exact fun p hp => declaredName?_ne (hplain p (hmem p (Or.inl hp)))
      fun l hl hanchor => hfront l (hps p hp l hl) hanchor
  have hheaderName : declaredName? h.1.2 = some source.toList :=
    declaredName?_of_declares (hplain h (hmem h (Or.inr (Or.inl rfl)))) hh
      (Line.indent_of_isAnchor hanchor) hheader
  have hbodyName : ∀ s ∈ bs.map (·.1), declaredName? s.2 = none := by
    rw [List.forall_mem_map]
    intro p hp
    refine declaredName?_eq_none fun l hl => (hbody l ?_).2
    rw [← hbs]
    exact List.mem_filterMap.mpr ⟨p, hp, hl⟩
  obtain ⟨p, hp, hline, hfound⟩ :=
    exists_find?_of_shows htarget hbs (fun l hl => (hbody l hl).1) hshows hbefore
  have hnoLineFeed : '\n' ∉ target := fun hc => (ne_of_isNameChar (htarget.2 _ hc)).2 rfl
  have hspread := spread_lineStarts text
  rw [hstarts] at hspread
  have hfind := findEntry_eq_some hnoLineFeed hspread hfrontName hheaderName hbodyName hfound
  rw [← hstarts] at hfind
  rw [hfind, Option.map_some, (ofOffset_eq (hmem p (Or.inr (Or.inr hp))) hline).1]

end AreaAtlas.Place

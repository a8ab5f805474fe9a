import AreaAtlas.Proofs.Graph.Lookup
import AreaAtlas.Proofs.Place.Search

/-!
# Where a passage is declared

A passage comes from an entry in the body of the anchor that it starts at.  The text around the two is
taken apart, and the search is then seen to end at the first line of the body that shows the passage,
`ofPassage?_eq_some`: at that entry or at a line in front of it.
-/

namespace AreaAtlas

namespace Areas

/-! ## Anchors and their bodies -/

/-- An anchor line with the lines around it. -/
theorem exists_eq_of_mem_anchorLines {lines : List Line} {p : Line × List Line}
    (h : p ∈ anchorLines lines) : ∃ front behind, lines = front ++ p.1 :: behind ∧
      p.1.isAnchor = true ∧ p.2 = deeper 0 behind := by
  obtain ⟨q, hq, rfl⟩ := List.mem_map.mp h
  obtain ⟨hq, hanchor⟩ := List.mem_filter.mp hq
  obtain ⟨front, hfront⟩ : ∃ front, lines = front ++ q.1 :: q.2 := exists_eq_of_mem_suffixes hq
  exact ⟨front, q.2, hfront, hanchor, rfl⟩

/-- The body of an anchor line with the lines around the two. -/
theorem exists_eq_of_mem_anchorLines_body {lines : List Line} {p : Line × List Line}
    (h : p ∈ anchorLines lines) : ∃ front rest, lines = front ++ p.1 :: (p.2 ++ rest) ∧
      p.1.isAnchor = true ∧ ∀ l ∈ p.2, 0 < l.indent := by
  obtain ⟨front, behind, rfl, hanchor, hbody⟩ := exists_eq_of_mem_anchorLines h
  obtain ⟨rest, hrest⟩ : deeper 0 behind <+: behind := List.takeWhile_prefix _
  refine ⟨front, rest, ?_, hanchor, ?_⟩
  · rw [hbody, hrest]
  · intro l hl
    exact lt_indent_of_mem_deeper (hbody ▸ hl)

theorem map_fst_anchorLines (lines : List Line) :
    (anchorLines lines).map (·.1) = lines.filter Line.isAnchor := by
  rw [anchorLines, List.map_map, ← map_fst_filter_suffixes]
  rfl

/-- The anchors in front of a header declare other names. -/
theorem exists_declares_ne {lines front behind : List Line} {header : Line} {name : String}
    (hgrammar : Grammar lines) {locations : List Location} {setting : Difficulty}
    (hnames : NodeTable.Names lines locations setting)
    (hlines : lines = front ++ header :: behind) (hanchor : header.isAnchor = true)
    (hheader : header.Declares name) {line : Line} (hline : line ∈ front)
    (hfront : line.isAnchor = true) : ∃ other, line.Declares other ∧ other ≠ name := by
  obtain ⟨other, place, hform⟩ : line.IsHeader := by
    refine hgrammar.isHeader ?_ hfront
    rw [hlines]
    exact List.mem_append_left _ hline
  have hdeclares : line.Declares (.ofList other) := ⟨place, by rwa [String.toList_ofList]⟩
  refine ⟨.ofList other, hdeclares, ?_⟩
  rintro rfl
  have hpairs : ((anchorLines lines).map (·.1)).Pairwise
      fun l m => ∀ name, l.Declares name → ¬m.Declares name := List.pairwise_map.mpr hnames.distinct
  rw [map_fst_anchorLines, List.pairwise_filter, hlines, List.pairwise_append] at hpairs
  exact hpairs.2.2 line hline header List.mem_cons_self hfront hanchor _ hdeclares hheader

/-- A declaration comes from an anchor line and its body. -/
theorem exists_of_mem_declarationsIn {lines : List Line} {d : Declaration}
    (h : d ∈ declarationsIn lines) : ∃ p ∈ anchorLines lines, p.1.Declares d.name ∧
      d.line = p.1.number ∧ d.entries = entriesIn p.2 := by
  obtain ⟨p, hp, hread⟩ := List.mem_filterMap.mp h
  obtain ⟨header, hheader, rfl⟩ := Option.map_eq_some_iff.mp hread
  obtain ⟨place, hform, -⟩ := Header.read?_eq_some_iff.mp hheader
  exact ⟨p, hp, ⟨place, hform⟩, rfl, rfl⟩

/-- A passage comes from an entry line in the body of the anchor that it starts at. -/
theorem exists_of_mem_passages {lines : List Line} {setting : Difficulty} {a b : String}
    (h : (a, b) ∈ passages setting (declarationsIn lines)) :
    ∃ p ∈ anchorLines lines, p.1.Declares a ∧ ∃ q ∈ entryLines p.2, ∃ e,
      q.1.entryAbove? q.2 = some e ∧ e.isPermitted setting = true ∧ e.target = b := by
  obtain ⟨d, hd, hmem⟩ := List.mem_flatMap.mp h
  obtain ⟨e, he, hends⟩ := List.mem_map.mp hmem
  obtain ⟨rfl, rfl⟩ := Prod.mk.inj hends
  obtain ⟨p, hp, hdeclares, -, hentries⟩ := exists_of_mem_declarationsIn hd
  obtain ⟨hentry, hpermitted⟩ := List.mem_filter.mp he
  rw [hentries] at hentry
  obtain ⟨q, hq, habove⟩ := List.mem_filterMap.mp hentry
  exact ⟨p, hp, hdeclares, q, hq, e, habove, hpermitted, rfl⟩

/-- Entry lines are lines of the body. -/
theorem mem_of_mem_entryLines {body : List Line} {q : Line × List Line} (h : q ∈ entryLines body) :
    q.1 ∈ body := by
  obtain ⟨s, hs, rfl⟩ := List.mem_map.mp h
  have hmem : s.1 ∈ body := mem_of_mem_suffixes (List.mem_filter.mp hs).1
  exact hmem

end Areas

/-- The names of an areas text that is read fit together. -/
theorem names_of_readUnrestricted {areas locations : String} {logic : Logic}
    (h : Logic.readUnrestricted areas locations = .ok logic) :
    NodeTable.Names (Areas.logicalLines areas.toList) logic.locations .unrestricted := by
  obtain ⟨-, -, hgrammar, hds, hlink, -⟩ := Logic.read_eq_ok_iff.mp h
  rw [hds] at hlink
  exact (NodeTable.linkable_iff_names hgrammar).mp hlink

namespace Place

/-! ## The place of a passage -/

/-- The place of the first entry under the anchor `source` that has this target and a keyword of this
kind of connection. -/
def ofPassage? (kind : ConnectionKind) (source target : String) (areas : List Char) : Option Place :=
  (findEntry (entryKeywords kind) source.toList target.toList none 0 (lineStarts areas)).map
    (ofOffset areas)

/-- A place is on a line of the body of an anchor: behind its header, and in front of the next line at
depth zero.  Places count lines from zero, and lines are numbered from one. -/
def InBody (lines : List Areas.Line) (name : String) (place : Place) : Prop :=
  ∃ p ∈ Areas.anchorLines lines, p.1.Declares name ∧ ∃ line ∈ p.2, line.number = place.line + 1

/-- **The place of a passage** is that of the first line of the body that shows it, if there is one. -/
theorem ofPassage?_eq_some {text : List Char} (hspaced : isPlainlySpaced text = true)
    (hgrammar : Areas.Grammar (Areas.logicalLines text)) {locations : List Location}
    {setting : Difficulty} (hnames : NodeTable.Names (Areas.logicalLines text) locations setting)
    {kind : ConnectionKind} {a b : String} (hb : IsRun isNameChar b.toList)
    {p : Areas.Line × List Areas.Line} (hp : p ∈ Areas.anchorLines (Areas.logicalLines text))
    (hdeclares : p.1.Declares a) {before behind : List Areas.Line} {line : Areas.Line}
    (hbody : p.2 = before ++ line :: behind) (hshows : Shows kind b.toList line)
    (hbefore : ∀ l ∈ before, ¬Shows kind b.toList l) :
    ofPassage? kind a b text = some ⟨line.number - 1, line.indent⟩ ∧ 0 < line.number := by
  obtain ⟨front, rest, hlines, hanchor, hdeep⟩ := Areas.exists_eq_of_mem_anchorLines_body hp
  have hmem : ∀ l ∈ p.2, l ∈ Areas.logicalLines text := by
    intro l hl
    rw [hlines]
    simp [hl]
  have hinner : ∀ l ∈ before ++ line :: behind, l.IsPlain ∧ 0 < l.indent := by
    rw [← hbody]
    exact fun l hl => ⟨hgrammar.plain l (hmem l hl), hdeep l hl⟩
  refine ⟨?_, ?_⟩
  · rw [hbody] at hlines
    exact findEntry_eq_some_of_lines hb hspaced hlines
      (fun l hl hanchor' => Areas.exists_declares_ne hgrammar hnames hlines hanchor hdeclares hl hanchor')
      hanchor hdeclares hinner hshows hbefore
  · obtain ⟨s, hs, hline⟩ := exists_lineAt? hspaced (hmem line (by rw [hbody]; simp))
    exact (ofOffset_eq hs hline).2

/-- Of the elements with a property one is the first. -/
theorem exists_first {α : Type} {P : α → Prop} {l : List α} (h : ∃ a ∈ l, P a) :
    ∃ before a behind, l = before ++ a :: behind ∧ P a ∧ ∀ b ∈ before, ¬P b := by
  induction l with
  | nil =>
    obtain ⟨a, ha, -⟩ := h
    cases ha
  | cons first rest ih =>
    by_cases hfirst : P first
    · exact ⟨[], first, rest, rfl, hfirst, by simp⟩
    · have hrest : ∃ a ∈ rest, P a := by
        obtain ⟨a, ha, hP⟩ := h
        rcases List.mem_cons.mp ha with rfl | ha
        · exact absurd hP hfirst
        · exact ⟨a, ha, hP⟩
      obtain ⟨before, a, behind, rfl, hP, hbefore⟩ := ih hrest
      exact ⟨first :: before, a, behind, rfl, hP, List.forall_mem_cons.mpr ⟨hfirst, hbefore⟩⟩

/-- The entry line that a passage comes from shows it. -/
theorem shows_of_mem_entryLines {text : List Char} (hspaced : isPlainlySpaced text = true)
    (hgrammar : Areas.Grammar (Areas.logicalLines text)) {kind : ConnectionKind}
    {p : Areas.Line × List Areas.Line} (hp : p ∈ Areas.anchorLines (Areas.logicalLines text))
    {q : Areas.Line × List Areas.Line} (hq : q ∈ Areas.entryLines p.2) {e : Areas.Entry}
    (habove : q.1.entryAbove? q.2 = some e)
    (hkeyword : e.kind.keyword.toList ∈ entryKeywords kind) :
    q.1 ∈ p.2 ∧ Shows kind e.target.toList q.1 := by
  have hmem : q.1 ∈ p.2 := Areas.mem_of_mem_entryLines hq
  obtain ⟨front, rest, hlines, -⟩ := Areas.exists_eq_of_mem_anchorLines_body hp
  obtain ⟨s, hs, hline⟩ : ∃ s ∈ (lineStarts text).zipIdx 1, lineAt? s = some q.1 := by
    refine exists_lineAt? hspaced ?_
    rw [hlines]
    simp [hmem]
  have hplain : isPlainlySpaced s.1.2 = true :=
    isPlainlySpaced_of_mem_lineStarts hspaced (List.fst_mem_of_mem_zipIdx hs)
  exact ⟨hmem, shows_of_entryAbove? hplain hline ((hgrammar.bodies p hp).entries q hq) habove hkeyword⟩

/-- **A passage is found at the first line of the body that shows it**, the body being that of the anchor
that it starts at, if it is looked for as the kind of connection that its entries make. -/
theorem exists_ofPassage?_eq_some {text : List Char} (hspaced : isPlainlySpaced text = true)
    (hgrammar : Areas.Grammar (Areas.logicalLines text)) {locations : List Location}
    {setting : Difficulty} (hnames : NodeTable.Names (Areas.logicalLines text) locations setting)
    {kind : ConnectionKind} {a b : String}
    (hpassage : (a, b) ∈ Areas.passages setting (Areas.declarationsIn (Areas.logicalLines text)))
    (hkind : ∀ e ∈ Areas.survivorsIn setting (Areas.logicalLines text), e.target = b →
      e.kind.keyword.toList ∈ entryKeywords kind) :
    ∃ p ∈ Areas.anchorLines (Areas.logicalLines text), p.1.Declares a ∧
      ∃ before line behind, p.2 = before ++ line :: behind ∧ Shows kind b.toList line ∧
        (∀ l ∈ before, ¬Shows kind b.toList l) ∧
        ofPassage? kind a b text = some ⟨line.number - 1, line.indent⟩ ∧ 0 < line.number := by
  obtain ⟨p, hp, hdeclares, q, hq, e, habove, hpermitted, rfl⟩ := Areas.exists_of_mem_passages hpassage
  have hsurvivor : e ∈ Areas.survivorsIn setting (Areas.logicalLines text) := by
    have hentry : e ∈ Areas.entriesIn p.2 := List.mem_filterMap.mpr ⟨q, hq, habove⟩
    exact List.mem_flatMap.mpr ⟨p, hp, List.mem_filter.mpr ⟨hentry, hpermitted⟩⟩
  obtain ⟨gap, after, -, -, hname, -⟩ := ((hgrammar.bodies p hp).entries q hq).exists_eq_append habove
  have hshown := shows_of_mem_entryLines hspaced hgrammar hp hq habove (hkind e hsurvivor rfl)
  -- the entry may not be the first line that shows what it leads to
  obtain ⟨before, line, behind, hbody, hshows, hbefore⟩ :
      ∃ before line behind, p.2 = before ++ line :: behind ∧ Shows kind e.target.toList line ∧
        ∀ l ∈ before, ¬Shows kind e.target.toList l := exists_first ⟨q.1, hshown⟩
  exact ⟨p, hp, hdeclares, before, line, behind, hbody, hshows, hbefore,
    ofPassage?_eq_some hspaced hgrammar hnames hname hp hdeclares hbody hshows hbefore⟩

end Place

end AreaAtlas

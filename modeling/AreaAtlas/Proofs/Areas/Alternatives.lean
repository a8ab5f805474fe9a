import AreaAtlas.Proofs.Areas.Grammar

/-!
# The alternatives in a block

The requirements of an entry may stand on deeper lines, and of those only the lines at the depth of the
first are looked at.  In the body of an anchor a line that is less deep than the first is a fault.  In the
block of an entry it is none: the line is left out, and with it the lines nested under it.  `ReadsBlock`
says what is read and what is not, and `readsBlock_of_readDeclarations` that every block of a text that is
read comes to this.
-/

namespace AreaAtlas.Areas

/-! ## The lines of a block -/

/-- The alternatives of a block, each with the lines nested under it.  They stand in the block like the
entries in a body: at the depth of the first line, with the deeper lines directly behind. -/
def alternativeLines (block : List Line) : List (Line × List Line) :=
  entryLines block

/-- The lines of a block that are less deep than the first, each with the lines behind it that are nested
under it and not under an alternative. -/
def strayLines (block : List Line) : List (Line × List Line) :=
  ((suffixes block).filter fun p => p.1.indent < entryDepth block).map
    fun p => (p.1, deeper (entryDepth block) p.2)

/-- Lines, each followed by those nested under it. -/
def withNested (heads : List (Line × List Line)) : List Line :=
  heads.flatMap fun p => p.1 :: p.2

/-- The lines of a block that are alternatives or nested under one. -/
def covered (block : List Line) : List Line :=
  withNested (alternativeLines block)

/-- The lines of a block that are less deep than the first or nested under such a line. -/
def strays (block : List Line) : List Line :=
  withNested (strayLines block)

/-- A block is the blocks in it that begin at lines not deeper than the first. -/
theorem withNested_split (block : List Line) :
    withNested (((suffixes block).filter fun p => ¬entryDepth block < p.1.indent).map
      fun p => (p.1, deeper (entryDepth block) p.2)) = block := by
  have hfront : (split (entryDepth block) block).1 = [] := by
    rw [split_fst, deeper_eq_nil_iff]
    intro line hline
    rw [entryDepth, Option.mem_def.mp hline]
    exact Nat.lt_irrefl _
  have hlines := split_lines (entryDepth block) block
  rw [hfront, List.nil_append, split_snd, List.flatMap_map] at hlines
  rw [withNested, List.flatMap_map]
  exact hlines

/-- **Every line of a block is covered or stray**, and as often as it stands there. -/
theorem covered_append_strays (block : List Line) : (covered block ++ strays block).Perm block := by
  have hparts : (((suffixes block).filter fun p => p.1.indent = entryDepth block) ++
      (suffixes block).filter fun p => p.1.indent < entryDepth block).Perm
        ((suffixes block).filter fun p => ¬entryDepth block < p.1.indent) := by
    have hperm := List.filter_append_perm (fun p => decide (p.1.indent = entryDepth block))
      ((suffixes block).filter fun p => ¬entryDepth block < p.1.indent)
    rw [List.filter_filter, List.filter_filter] at hperm
    have hat : ∀ p : Line × List Line, (decide (p.1.indent = entryDepth block) &&
        decide ¬entryDepth block < p.1.indent) = decide (p.1.indent = entryDepth block) := by
      intro p
      rw [← Bool.decide_and, decide_eq_decide]
      omega
    have hbelow : ∀ p : Line × List Line, (!decide (p.1.indent = entryDepth block) &&
        decide ¬entryDepth block < p.1.indent) = decide (p.1.indent < entryDepth block) := by
      intro p
      rw [← decide_not, ← Bool.decide_and, decide_eq_decide]
      omega
    simpa only [hat, hbelow] using hperm
  have hlines := (hparts.map fun p => (p.1, deeper (entryDepth block) p.2)).flatMap_right
    fun p => p.1 :: p.2
  rw [List.map_append, List.flatMap_append] at hlines
  exact hlines.trans (List.Perm.of_eq (withNested_split block))

/-- No line is stray exactly if none is less deep than the first. -/
theorem strays_eq_nil_iff {block : List Line} :
    strays block = [] ↔ ∀ line ∈ block, entryDepth block ≤ line.indent := by
  have hnil : strays block = [] ↔ strayLines block = [] := by
    rw [strays, withNested, List.flatMap_eq_nil_iff, List.eq_nil_iff_forall_not_mem]
    simp only [reduceCtorEq, imp_false]
  rw [hnil, strayLines, List.map_eq_nil_iff, List.filter_eq_nil_iff]
  simp only [decide_eq_true_eq, Nat.not_lt]
  constructor
  · intro h line hline
    obtain ⟨behind, hp⟩ := exists_mem_suffixes hline
    exact h _ hp
  · intro h p hp
    exact h _ (mem_of_mem_suffixes hp)

/-! ## Alternatives -/

/-- The alternatives are read off the lines at the depth of the first. -/
theorem blockAlternatives_eq (block : List Line) :
    blockAlternatives block = (block.filter (·.indent = entryDepth block)).map (·.text) := by
  cases block with
  | nil => rfl
  | cons first rest => rfl

theorem map_fst_alternativeLines (block : List Line) :
    (alternativeLines block).map (·.1) = block.filter (·.indent = entryDepth block) := by
  rw [alternativeLines, entryLines, List.map_map, ← map_fst_filter_suffixes]
  rfl

/-- What is nested under an alternative is deeper than it. -/
theorem filter_covered (block : List Line) :
    (covered block).filter (·.indent = entryDepth block) = (alternativeLines block).map (·.1) := by
  have hone : ∀ a ∈ alternativeLines block,
      (a.1 :: a.2).filter (·.indent = entryDepth block) = [a.1] := by
    intro a ha
    obtain ⟨hdepth, hdeeper⟩ := indent_of_mem_entryLines ha
    rw [List.filter_cons_of_pos (by exact decide_eq_true hdepth)]
    refine congrArg (a.1 :: ·) (List.filter_eq_nil_iff.mpr ?_)
    intro line hline
    have hlt := hdeeper line hline
    rw [decide_eq_true_eq]
    omega
  rw [covered, withNested, List.filter_flatMap, List.map_eq_flatMap]
  exact List.flatMap_congr hone

/-- The first line of a block is the first that is covered. -/
theorem entryDepth_covered (block : List Line) : entryDepth (covered block) = entryDepth block := by
  cases block with
  | nil => rfl
  | cons first rest =>
    rw [covered, alternativeLines, entryLines, suffixes,
      List.filter_cons_of_pos (by exact decide_eq_true rfl)]
    rfl

/-- Stray lines make no difference to the alternatives. -/
theorem blockAlternatives_covered (block : List Line) :
    blockAlternatives (covered block) = blockAlternatives block := by
  rw [blockAlternatives_eq, blockAlternatives_eq, entryDepth_covered, filter_covered,
    map_fst_alternativeLines]

/-! ## Entries with a block -/

/-- The line of an entry of this kind: it begins with the keyword of the kind. -/
def Line.OpensEntry (line : Line) (kind : NodeKind) : Prop :=
  String.ofList (line.text.takeWhile isWord) = kind.keyword

instance (line : Line) (kind : NodeKind) : Decidable (line.OpensEntry kind) :=
  inferInstanceAs (Decidable (_ = _))

/-- **What is read of a block** below the line of an entry. -/
structure ReadsBlock (line : Line) (block : List Line) (e : Entry) : Prop where
  /-- The lines of the block are deeper than that of the entry. -/
  deeper : ∀ l ∈ block, line.indent < l.indent
  /-- The entry has the alternatives at the depth of the first line. -/
  alternatives : e.alternatives = (alternativeLines block).map (·.1.text)
  /-- The other lines are nested under these, or else they are stray. -/
  perm : (covered block ++ strays block).Perm block
  /-- There are stray lines exactly if one is less deep than the first. -/
  strays_eq_nil_iff : strays block = [] ↔ ∀ l ∈ block, entryDepth block ≤ l.indent
  /-- Without the stray lines the entry would be the same. -/
  without_strays : line.entryAbove? (covered block) = some e
  /-- The entry survives exactly if an alternative at the depth of the first line can be met. -/
  isPermitted_iff : ∀ setting, e.isPermitted setting = true ↔
    ∃ a ∈ alternativeLines block, Requirement.permits setting a.1.text = true

/-- An entry line with deeper lines behind it has its requirements there. -/
theorem Line.OpensEntry.exists_entryAbove? {line : Line} {block : List Line} {kind : NodeKind}
    (h : line.OpensEntry kind) (hform : EntryForm line.text block) (hblock : block ≠ []) :
    ∃ e, line.entryAbove? block = some e ∧ e.kind = kind ∧ e.line = line.number ∧
      e.alternatives = blockAlternatives block := by
  obtain ⟨t, ht, hentry⟩ := entryForm_iff.mp hform
  rw [Line.OpensEntry, EntryText.takeWhile_of_read? ht] at h
  rcases hentry with hflag | ⟨kind', target, hkind, htarget, -, hreq⟩
  · rw [h] at hflag
    exact absurd hflag (keyword_not_mem_flags kind)
  · obtain rfl : kind = kind' := by
      rw [h, NodeKind.ofKeyword?_keyword] at hkind
      exact Option.some.inj hkind
    refine ⟨⟨kind, .ofList target, line.number, blockAlternatives block⟩, ?_, rfl, rfl, rfl⟩
    simp only [Line.entryAbove?, ht, hkind, htarget, hreq.mpr hblock, Option.bind_eq_bind,
      Option.bind_some, if_true, pure]

/-- The entry on a line depends on its block by the alternatives only. -/
theorem Line.entryAbove?_congr (line : Line) {block block' : List Line}
    (h : blockAlternatives block = blockAlternatives block') :
    line.entryAbove? block = line.entryAbove? block' := by
  unfold Line.entryAbove?
  rw [h]

theorem readsBlock_of_entryAbove? {line : Line} {block : List Line} {e : Entry}
    (hdeeper : ∀ l ∈ block, line.indent < l.indent) (he : line.entryAbove? block = some e)
    (halternatives : e.alternatives = blockAlternatives block) : ReadsBlock line block e := by
  have hlines : e.alternatives = (alternativeLines block).map (·.1.text) := by
    rw [halternatives, blockAlternatives_eq, ← map_fst_alternativeLines, List.map_map]
    rfl
  refine ⟨hdeeper, hlines, covered_append_strays block, strays_eq_nil_iff, ?_, ?_⟩
  · rw [line.entryAbove?_congr (blockAlternatives_covered block), he]
  · intro setting
    simp only [Entry.isPermitted, hlines, List.any_map, List.any_eq_true, Function.comp_apply]

/-- **Of every block under an entry the lines at the depth of its first line are read**, each of them an
alternative; a line that is less deep is accepted and left out. -/
theorem readsBlock_of_readDeclarations {text : List Char} {ds : List Declaration}
    (h : readDeclarations text = .ok ds) :
    ∀ p ∈ anchorLines (logicalLines text), ∀ q ∈ entryLines p.2, ∀ kind, q.1.OpensEntry kind →
      q.2 ≠ [] → ∃ d ∈ ds, d.line = p.1.number ∧ ∃ e ∈ d.entries, e.kind = kind ∧
        e.line = q.1.number ∧ ReadsBlock q.1 q.2 e := by
  intro p hp q hq kind hopens hblock
  obtain ⟨hgrammar, rfl⟩ := (readDeclarations_readsAs _ _).mp h
  have hform := (hgrammar.bodies p hp).entries q hq
  obtain ⟨e, he, hkind, hline, halternatives⟩ := hopens.exists_entryAbove? hform hblock
  obtain ⟨d, hd, hnumber, hentries⟩ := hgrammar.exists_mem_declarationsIn hp
  refine ⟨d, hd, hnumber, e, ?_, hkind, hline, readsBlock_of_entryAbove? ?_ he halternatives⟩
  · rw [hentries]
    exact List.mem_filterMap.mpr ⟨q, hq, he⟩
  · intro l hl
    obtain ⟨hdepth, hlt⟩ := indent_of_mem_entryLines hq
    rw [hdepth]
    exact hlt l hl

/-- A block that goes up and down.  One line is less deep than the first; a line nested under it is left
out too, and the line behind that is an alternative again. -/
def unevenBlock : String :=
  "anchor A:\n  conn B:\n      impossible\n        moki\n    free\n       kii\n      gorlek: Dash\n" ++
    "anchor B:\n  nospawn\n"

theorem readsBlock_of_readDeclarations_unevenBlock :
    ∃ (ds : List Declaration) (q : Line × List Line) (d : Declaration) (e : Entry),
      readDeclarations unevenBlock.toList = .ok ds ∧ d ∈ ds ∧ e ∈ d.entries ∧ q.1.OpensEntry .anchor ∧
      (covered q.2).map (·.number) = [3, 4, 7] ∧ (strays q.2).map (·.number) = [5, 6] ∧
      ReadsBlock q.1 q.2 e := by
  have hread : (readDeclarations unevenBlock.toList).map (·.flatMap (·.entries))
      = .ok [⟨.anchor, "B", 2, ["impossible".toList, "gorlek: Dash".toList]⟩] := by decide +kernel
  obtain ⟨ds, hds, -⟩ := Except.map_eq_ok_iff.mp hread
  let block : List Line := [⟨3, 6, "impossible".toList⟩, ⟨4, 8, "moki".toList⟩, ⟨5, 4, "free".toList⟩,
    ⟨6, 7, "kii".toList⟩, ⟨7, 6, "gorlek: Dash".toList⟩]
  let line : Line := ⟨2, 2, "conn B:".toList⟩
  have hopens : line.OpensEntry .anchor := by decide +kernel
  have hp : (⟨1, 0, "anchor A:".toList⟩, line :: block)
      ∈ anchorLines (logicalLines unevenBlock.toList) := by decide +kernel
  have hq : (line, block) ∈ entryLines (line :: block) := by decide +kernel
  obtain ⟨d, hd, -, e, he, -, -, hreads⟩ :=
    readsBlock_of_readDeclarations hds _ hp _ hq .anchor hopens (List.cons_ne_nil _ _)
  exact ⟨ds, (line, block), d, e, hds, hd, he, hopens, by decide +kernel, by decide +kernel, hreads⟩

/-- A text may be read although a line in the block of an entry is less deep than the first, and the entry
may then be dropped although that line can be met. -/
theorem exists_readDeclarations_stray :
    ∃ (text : String) (ds : List Declaration) (p q : Line × List Line) (e : Entry) (line : Line),
      readDeclarations text.toList = .ok ds ∧ p ∈ anchorLines (logicalLines text.toList) ∧
      q ∈ entryLines p.2 ∧ q.1.entryAbove? q.2 = some e ∧ e ∈ ds.flatMap (·.entries) ∧
      line ∈ q.2 ∧ line.indent < entryDepth q.2 ∧ line ∉ covered q.2 ∧
      ∀ setting, Requirement.permits setting line.text = true ∧ e.isPermitted setting = false := by
  let text := "anchor A:\n  conn B:\n      impossible\n    free\nanchor B:\n  nospawn\n"
  let line : Line := ⟨4, 4, "free".toList⟩
  let block : List Line := [⟨3, 6, "impossible".toList⟩, line]
  let head : Line := ⟨2, 2, "conn B:".toList⟩
  let e : Entry := ⟨.anchor, "B", 2, ["impossible".toList]⟩
  have hread : (readDeclarations text.toList).map (·.flatMap (·.entries)) = .ok [e] := by
    decide +kernel
  obtain ⟨ds, hds, hentries⟩ := Except.map_eq_ok_iff.mp hread
  refine ⟨text, ds, (⟨1, 0, "anchor A:".toList⟩, head :: block), (head, block), e, line, hds,
    ?_, ?_, ?_, ?_, ?_, ?_, ?_, ?_⟩
  · decide +kernel
  · decide +kernel
  · decide +kernel
  · rw [hentries]
    exact List.mem_singleton_self e
  · decide +kernel
  · decide +kernel
  · decide +kernel
  · intro setting
    cases setting <;> decide +kernel

end AreaAtlas.Areas

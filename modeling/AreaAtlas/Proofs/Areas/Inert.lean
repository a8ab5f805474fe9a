import AreaAtlas.Proofs.Areas.Sections

/-!
# Parts of an areas text that are never looked at

Requirements and regions are skipped with all that is in them, flags lead nowhere, and an entry that does
not survive at a difficulty leaves no trace.  So such parts can be taken out: what is left keeps to the
grammar if the whole did, `Keeps`, and it declares the same anchors with the same surviving entries.  What
an entry may not take with it is the body of its anchor, or the depth of the other entries there.
-/

namespace AreaAtlas.Areas

variable {setting : Difficulty}

/-! ## Lines put behind one another -/

/-- Lines in front of a line that is not deeper are taken apart on their own. -/
theorem split_append {depth : Nat} (front : List Line) {behind : List Line}
    (h : (split depth behind).1 = []) :
    split depth (front ++ behind)
      = ((split depth front).1, (split depth front).2 ++ (split depth behind).2) := by
  induction front with
  | nil =>
    rw [List.nil_append, split_nil, List.nil_append, ← h]
  | cons line front ih =>
    rw [List.cons_append]
    by_cases hdeeper : depth < line.indent
    · rw [split_cons_of_deeper hdeeper, split_cons_of_deeper hdeeper, ih]
    · rw [split_cons_of_head hdeeper, split_cons_of_head hdeeper, ih]
      rfl

/-- A block among other lines; the deeper lines at the front of those behind belong to it. -/
theorem split_append_block {depth : Nat} (front behind : List Line) {inner : List Line} {head : Line}
    (hhead : ¬depth < head.indent) (hinner : ∀ line ∈ inner, depth < line.indent) :
    split depth (front ++ head :: (inner ++ behind))
      = ((split depth front).1, (split depth front).2 ++
          ⟨head, inner ++ (split depth behind).1⟩ :: (split depth behind).2) := by
  have hblock : split depth (head :: (inner ++ behind))
      = ([], ⟨head, inner ++ (split depth behind).1⟩ :: (split depth behind).2) := by
    rw [split_cons_of_head hhead, split_append_of_deeper hinner]
  rw [split_append front (by rw [hblock]), hblock]

/-! ## What is kept -/

/-- An anchor without the entries that do not survive. -/
def Declaration.pruned (setting : Difficulty) (d : Declaration) : Declaration :=
  { d with entries := d.survivors setting }

/-- **Other lines keep what lines say**: if these keep to the grammar, so do the others, and those declare
the same anchors with the same surviving entries. -/
def Keeps (setting : Difficulty) (lines lines' : List Line) : Prop :=
  Grammar lines → Grammar lines' ∧
    (declarationsIn lines').map (·.pruned setting) = (declarationsIn lines).map (·.pruned setting)

/-- Another block keeps what a block says. -/
def Block.Keeps (setting : Difficulty) (b b' : Block) : Prop :=
  b.IsAccepted → b'.IsAccepted ∧
    b'.declaration?.map (·.pruned setting) = b.declaration?.map (·.pruned setting)

theorem keeps_refl (lines : List Line) : Keeps setting lines lines := fun h => ⟨h, rfl⟩

theorem Keeps.trans {lines lines' lines'' : List Line} (h : Keeps setting lines lines')
    (h' : Keeps setting lines' lines'') : Keeps setting lines lines'' := by
  intro hgrammar
  obtain ⟨hgrammar', hsame⟩ := h hgrammar
  obtain ⟨hgrammar'', hsame'⟩ := h' hgrammar'
  exact ⟨hgrammar'', hsame'.trans hsame⟩

/-- Lines with blocks that keep what their blocks say. -/
theorem keeps_of_split {lines lines' : List Line} {front : List Line} {before after : List Block}
    {b b' : Block} (hlines : split 0 lines = (front, before ++ b :: after))
    (hlines' : split 0 lines' = (front, before ++ b' :: after)) (hkeeps : b.Keeps setting b') :
    Keeps setting lines lines' := by
  intro hgrammar
  obtain ⟨hfront, hblocks⟩ := grammar_iff_isAccepted.mp hgrammar
  rw [hlines] at hfront hblocks
  obtain ⟨haccepted, hsame⟩ := hkeeps (hblocks b (by simp))
  constructor
  · apply grammar_iff_isAccepted.mpr
    rw [hlines']
    refine ⟨hfront, fun c hc => ?_⟩
    rcases List.mem_append.mp hc with hc | hc
    · exact hblocks c (List.mem_append_left _ hc)
    · rcases List.mem_cons.mp hc with rfl | hc
      · exact haccepted
      · exact hblocks c (List.mem_append_right _ (List.mem_cons_of_mem _ hc))
  · rw [← filterMap_declaration?, ← filterMap_declaration?, hlines, hlines', List.map_filterMap,
      List.map_filterMap, List.filterMap_append, List.filterMap_append, List.filterMap_cons,
      List.filterMap_cons, hsame]

/-! ## Requirements and regions -/

/-- The line of a requirement or a region. -/
def Line.OpensSkipped (line : Line) : Prop :=
  line.indent = 0 ∧ line.firstWord ∈ skippedWords

theorem Line.OpensSkipped.firstWord_ne {head : Line} (h : head.OpensSkipped) :
    head.firstWord ≠ "anchor" := by
  intro hword
  have hmem := h.2
  rw [hword] at hmem
  revert hmem
  decide

/-- A block that is skipped declares nothing. -/
theorem Line.OpensSkipped.declaration?_eq_none {head : Line} (h : head.OpensSkipped)
    (inner : List Line) : (⟨head, inner⟩ : Block).declaration? = none :=
  if_neg h.firstWord_ne

/-- The lines in a block that is skipped do not matter. -/
theorem Line.OpensSkipped.keeps {head : Line} (h : head.OpensSkipped) {inner inner' : List Line}
    (hplain : ∀ line ∈ inner', line ∈ inner ∨ line.IsPlain) :
    Block.Keeps setting ⟨head, inner⟩ ⟨head, inner'⟩ := by
  rintro ⟨hlines, o, hread⟩
  refine ⟨⟨?_, ?_⟩, ?_⟩
  · intro line hline
    rcases List.mem_cons.mp hline with rfl | hline
    · exact hlines _ List.mem_cons_self
    · rcases hplain line hline with hmem | hline
      · exact hlines line (List.mem_cons_of_mem _ hmem)
      · exact hline
  · obtain ⟨⟨hhead, -⟩, -⟩ := (Block.readDeclaration_readsAs _ _).mp hread
    have hbody : head.firstWord = "anchor" → BodyForm inner' := fun hword => absurd hword h.firstWord_ne
    exact ⟨_, (Block.readDeclaration_readsAs _ _).mpr ⟨⟨hhead, hbody⟩, rfl⟩⟩
  · rw [h.declaration?_eq_none, h.declaration?_eq_none]

/-- The body of a requirement or a region may have any other lines. -/
theorem keeps_of_body {front inner inner' behind : List Line} {head : Line} (hhead : head.OpensSkipped)
    (hinner : ∀ line ∈ inner, 0 < line.indent)
    (hinner' : ∀ line ∈ inner', line ∈ inner ∨ 0 < line.indent ∧ line.IsPlain) :
    Keeps setting (front ++ head :: (inner ++ behind)) (front ++ head :: (inner' ++ behind)) := by
  have hzero : ¬0 < head.indent := hhead.1.not_gt
  have hdeeper : ∀ line ∈ inner', 0 < line.indent := by
    intro line hline
    rcases hinner' line hline with hmem | hnew
    · exact hinner line hmem
    · exact hnew.1
  refine keeps_of_split (split_append_block front behind hzero hinner)
    (split_append_block front behind hzero hdeeper) (hhead.keeps ?_)
  intro line hline
  rcases List.mem_append.mp hline with hline | hline
  · rcases hinner' line hline with hmem | hnew
    · exact Or.inl (List.mem_append_left _ hmem)
    · exact Or.inr hnew.2
  · exact Or.inl (List.mem_append_right _ hline)

/-- A requirement or a region may be left out with its body. -/
theorem keeps_of_block {front inner behind : List Line} {head : Line} (hhead : head.OpensSkipped)
    (hinner : ∀ line ∈ inner, 0 < line.indent) (hbehind : (split 0 behind).1 = []) :
    Keeps setting (front ++ head :: (inner ++ behind)) (front ++ behind) := by
  have hsplit := split_append_block front behind hhead.1.not_gt hinner
  intro hgrammar
  obtain ⟨hfront, hblocks⟩ := grammar_iff_isAccepted.mp hgrammar
  rw [hsplit] at hfront hblocks
  constructor
  · apply grammar_iff_isAccepted.mpr
    rw [split_append front hbehind]
    refine ⟨hfront, fun c hc => hblocks c ?_⟩
    rcases List.mem_append.mp hc with hc | hc
    · exact List.mem_append_left _ hc
    · exact List.mem_append_right _ (List.mem_cons_of_mem _ hc)
  · rw [← filterMap_declaration?, ← filterMap_declaration?, hsplit, split_append front hbehind,
      List.filterMap_append, List.filterMap_append,
      List.filterMap_cons_none (hhead.declaration?_eq_none _)]

/-! ## Flags and entries that do not survive -/

/-- No entry on a line with these deeper lines behind it survives. -/
def Line.IsDropped (setting : Difficulty) (line : Line) (inner : List Line) : Prop :=
  ∀ e, line.entryAbove? inner = some e → e.isPermitted setting = false

/-- A line that begins with the keyword of a flag gives no entry. -/
theorem Line.isDropped_of_flag {line : Line} (h : String.ofList (line.text.takeWhile isWord) ∈ flags)
    (inner : List Line) : line.IsDropped setting inner := by
  intro e he
  cases ht : EntryText.read? line.text with
  | none =>
    unfold Line.entryAbove? at he
    rw [ht] at he
    cases he
  | some t =>
    rw [EntryText.takeWhile_of_read? ht] at h
    rw [Line.entryAbove?_flag ht h] at he
    cases he

/-- An entry that is read and does not survive. -/
theorem Line.isDropped_of_readEntry {line : Line} {inner : List Line} {e : Entry}
    (h : Block.readEntry ⟨line, inner⟩ = .ok (some e)) (he : e.isPermitted setting = false) :
    line.IsDropped setting inner := by
  obtain ⟨-, hvalue⟩ := (Block.readEntry_readsAs _ _).mp h
  intro e' he'
  obtain rfl : e = e' := Option.some.inj (hvalue.trans he')
  exact he

/-- A body in terms of the blocks of its entries. -/
theorem bodyForm_iff {body : List Line} :
    BodyForm body ↔ body ≠ [] ∧ ∀ b ∈ (split (entryDepth body) body).2,
      b.head.indent = entryDepth body ∧ EntryForm b.head.text b.inner := by
  rw [forall_mem_split_entryDepth]
  exact ⟨fun h => ⟨h.ne_nil, h.depth_le, h.entries⟩, fun h => ⟨h.1, h.2.1, h.2.2⟩⟩

theorem BodyForm.entriesIn_eq {body : List Line} (h : BodyForm body) :
    entriesIn body
      = (split (entryDepth body) body).2.filterMap fun b => b.head.entryAbove? b.inner := by
  rw [split_entryDepth h.depth_le, List.filterMap_map]
  rfl

section Entry

variable {above inner rest : List Line} {line : Line}

/-- An entry line of a body: what stands above it begins at its depth, the deeper lines behind it are its
own, and the body has other lines. -/
structure IsEntryWithin (above : List Line) (line : Line) (inner rest : List Line) : Prop where
  depth_eq : ∀ first ∈ above.head?, first.indent = line.indent
  deeper : ∀ deep ∈ inner, line.indent < deep.indent
  not_deeper : ∀ next ∈ rest.head?, next.indent ≤ line.indent
  ne_nil : above ++ rest ≠ []

/-- An entry line in front of the rest of its body and what follows that. -/
theorem isEntryWithin_of_behind {behind : List Line}
    (habove : ∀ first ∈ above.head?, first.indent = line.indent)
    (hinner : ∀ deep ∈ inner, line.indent < deep.indent)
    (hbehind : ∀ next ∈ behind.head?, next.indent ≤ line.indent)
    (hothers : above ≠ [] ∨ ∃ next ∈ behind.head?, 0 < next.indent) :
    IsEntryWithin above line inner (split 0 behind).1 := by
  rw [split_fst]
  refine ⟨habove, hinner, ?_, ?_⟩
  · intro next hnext
    apply hbehind
    rw [deeper, List.head?_takeWhile] at hnext
    exact (Option.mem_filter_iff.mp hnext).1
  · intro hnil
    obtain ⟨rfl, hrest⟩ := List.append_eq_nil_iff.mp hnil
    rcases hothers with hne | ⟨next, hnext, hdepth⟩
    · exact hne rfl
    · exact deeper_eq_nil_iff.mp hrest next hnext hdepth

theorem IsEntryWithin.split_rest (h : IsEntryWithin above line inner rest) :
    (split line.indent rest).1 = [] := by
  rw [split_fst, deeper_eq_nil_iff]
  exact fun next hnext => Nat.not_lt.mpr (h.not_deeper next hnext)

theorem IsEntryWithin.entryDepth_eq (h : IsEntryWithin above line inner rest) :
    entryDepth (above ++ line :: (inner ++ rest)) = line.indent := by
  cases above with
  | nil => rfl
  | cons first above => exact h.depth_eq first rfl

/-- Without the entry the depth of the others is the same. -/
theorem IsEntryWithin.entryDepth_append (h : IsEntryWithin above line inner rest)
    (hbody : BodyForm (above ++ line :: (inner ++ rest))) : entryDepth (above ++ rest) = line.indent := by
  cases above with
  | cons first above => exact h.depth_eq first rfl
  | nil =>
    cases rest with
    | nil => exact absurd rfl h.ne_nil
    | cons next rest =>
      have hle : next.indent ≤ line.indent := h.not_deeper next rfl
      have hge := hbody.depth_le next (by simp)
      rw [h.entryDepth_eq] at hge
      exact Nat.le_antisymm hle hge

/-- **An entry that is dropped leaves no trace** in the body of its anchor. -/
theorem IsEntryWithin.bodyForm (h : IsEntryWithin above line inner rest)
    (hdropped : line.IsDropped setting inner) (hbody : BodyForm (above ++ line :: (inner ++ rest))) :
    BodyForm (above ++ rest) ∧ (entriesIn (above ++ rest)).filter (·.isPermitted setting)
      = (entriesIn (above ++ line :: (inner ++ rest))).filter (·.isPermitted setting) := by
  have hwith := split_append_block above rest (Nat.lt_irrefl line.indent) h.deeper
  rw [h.split_rest, List.append_nil] at hwith
  have hwithout := split_append above h.split_rest
  have hblocks := (bodyForm_iff.mp hbody).2
  rw [h.entryDepth_eq, hwith] at hblocks
  have hbody' : BodyForm (above ++ rest) := by
    apply bodyForm_iff.mpr
    rw [h.entryDepth_append hbody, hwithout]
    refine ⟨h.ne_nil, fun b hb => hblocks b ?_⟩
    rcases List.mem_append.mp hb with hb | hb
    · exact List.mem_append_left _ hb
    · exact List.mem_append_right _ (List.mem_cons_of_mem _ hb)
  refine ⟨hbody', ?_⟩
  rw [hbody.entriesIn_eq, hbody'.entriesIn_eq, h.entryDepth_eq, h.entryDepth_append hbody, hwith, hwithout,
    List.filterMap_append, List.filterMap_append, List.filter_append, List.filter_append]
  refine congrArg _ ?_
  rw [List.filterMap_cons]
  dsimp only
  cases hentry : line.entryAbove? inner with
  | none => rfl
  | some e =>
    refine (List.filter_cons_of_neg ?_).symm
    rw [hdropped e hentry]
    exact Bool.false_ne_true

/-- An anchor may be left without an entry that is dropped. -/
theorem IsEntryWithin.keeps (h : IsEntryWithin above line inner rest)
    (hdropped : line.IsDropped setting inner) (head : Line) :
    Block.Keeps setting ⟨head, above ++ line :: (inner ++ rest)⟩ ⟨head, above ++ rest⟩ := by
  rintro ⟨hlines, o, hread⟩
  obtain ⟨⟨hhead, hbody⟩, -⟩ := (Block.readDeclaration_readsAs _ _).mp hread
  refine ⟨⟨?_, ?_⟩, ?_⟩
  · intro l hl
    apply hlines
    rcases List.mem_cons.mp hl with rfl | hl
    · exact List.mem_cons_self
    · apply List.mem_cons_of_mem
      rcases List.mem_append.mp hl with hl | hl
      · exact List.mem_append_left _ hl
      · exact List.mem_append_right _ (List.mem_cons_of_mem _ (List.mem_append_right _ hl))
  · have hbody' : head.firstWord = "anchor" → BodyForm (above ++ rest) :=
      fun hword => (h.bodyForm hdropped (hbody hword)).1
    exact ⟨_, (Block.readDeclaration_readsAs _ _).mpr ⟨⟨hhead, hbody'⟩, rfl⟩⟩
  · unfold Block.declaration?
    dsimp only
    split
    · next hword =>
      have hsame := (h.bodyForm hdropped (hbody hword)).2
      cases Header.read? head.text with
      | none => rfl
      | some header =>
        show some (Declaration.mk header.name header.position head.number
            ((entriesIn (above ++ rest)).filter (·.isPermitted setting)))
          = some (Declaration.mk header.name header.position head.number
            ((entriesIn (above ++ line :: (inner ++ rest))).filter (·.isPermitted setting)))
        rw [hsame]
    · rfl

end Entry

/-- An entry that is dropped may be left out, if its anchor has others. -/
theorem keeps_of_entry {front above inner behind : List Line} {head line : Line}
    (hhead : head.indent = 0) (habove : ∀ l ∈ above, 0 < l.indent) (hdepth : 0 < line.indent)
    (hentry : IsEntryWithin above line inner (split 0 behind).1)
    (hdropped : line.IsDropped setting inner) :
    Keeps setting (front ++ head :: (above ++ line :: (inner ++ behind)))
      (front ++ head :: (above ++ behind)) := by
  have hzero : ¬0 < head.indent := hhead.not_gt
  have hinner : ∀ l ∈ above ++ line :: inner, 0 < l.indent := by
    intro l hl
    rcases List.mem_append.mp hl with hl | hl
    · exact habove l hl
    · rcases List.mem_cons.mp hl with rfl | hl
      · exact hdepth
      · exact hdepth.trans (hentry.deeper l hl)
  have hsplit := split_append_block front behind hzero hinner
  rw [List.append_assoc, List.append_assoc, List.cons_append, List.cons_append] at hsplit
  exact keeps_of_split hsplit (split_append_block front behind hzero habove) (hentry.keeps hdropped head)

end AreaAtlas.Areas

import AreaAtlas.Proofs.Areas.Form
import AreaAtlas.Proofs.Areas.Layout
import Mathlib.Data.List.Forall2

/-!
# The grammar of areas texts

What an areas text has to look like is said here line by line: where lines may be indented, what stands
at depth zero, and which lines of a body are entries.  `readDeclarations_readsAs` says that a text is read
exactly if its logical lines keep to this, and that what is read is then what those lines say,
`declarationsIn`.  Neither speaks of blocks or of the order in which a text is read.
-/

namespace AreaAtlas.Areas

/-! ## Bodies of anchors -/

/-- The depth of the entries of a body: that of its first line. -/
def entryDepth (body : List Line) : Nat :=
  (body.head?.map (·.indent)).getD 0

/-- The lines of a body at the depth of its entries, each with the deeper lines directly behind it. -/
def entryLines (body : List Line) : List (Line × List Line) :=
  ((suffixes body).filter fun p => p.1.indent = entryDepth body).map
    fun p => (p.1, deeper (entryDepth body) p.2)

/-- Entry lines stand at the depth of the first, and what is directly behind them is deeper. -/
theorem indent_of_mem_entryLines {body : List Line} {q : Line × List Line} (h : q ∈ entryLines body) :
    q.1.indent = entryDepth body ∧ ∀ line ∈ q.2, entryDepth body < line.indent := by
  obtain ⟨s, hs, rfl⟩ := List.mem_map.mp h
  exact ⟨of_decide_eq_true (List.mem_filter.mp hs).2, fun _ => lt_indent_of_mem_deeper⟩

/-- The entries of a body, flags left out. -/
def entriesIn (body : List Line) : List Entry :=
  (entryLines body).filterMap fun p => p.1.entryAbove? p.2

/-- A body has lines, none of them is less deep than the first, and those as deep are entries. -/
structure BodyForm (body : List Line) : Prop where
  ne_nil : body ≠ []
  depth_le : ∀ line ∈ body, entryDepth body ≤ line.indent
  entries : ∀ p ∈ entryLines body, EntryForm p.1.text p.2

theorem Block.readEntryAt_readsAs (depth : Nat) :
    ReadsAs (Block.readEntryAt depth)
      (fun b => b.head.indent = depth ∧ EntryForm b.head.text b.inner)
      (fun b => b.head.entryAbove? b.inner) := by
  intro b o
  unfold Block.readEntryAt
  by_cases h : b.head.indent = depth
  · rw [if_pos h, Block.readEntry_readsAs b o]
    simp only [h, true_and]
  · rw [if_neg h]
    simp only [h, false_and, reduceCtorEq]

/-- If no line of a body is less deep than the first, its blocks are its entry lines. -/
theorem split_entryDepth {body : List Line} (h : ∀ line ∈ body, entryDepth body ≤ line.indent) :
    (split (entryDepth body) body).2 = (entryLines body).map fun p => ⟨p.1, p.2⟩ := by
  have hfilter : (suffixes body).filter (fun p => ¬entryDepth body < p.1.indent)
      = (suffixes body).filter fun p => p.1.indent = entryDepth body := by
    refine List.filter_congr ?_
    intro p hp
    have := h p.1 (mem_of_mem_suffixes hp)
    rw [decide_eq_decide]
    omega
  rw [split_snd, hfilter, entryLines, List.map_map]
  rfl

/-- The blocks of a body can be read as entries at its depth exactly if no line is less deep and every
entry line has the form of an entry. -/
theorem forall_mem_split_entryDepth {body : List Line} :
    (∀ b ∈ (split (entryDepth body) body).2,
        b.head.indent = entryDepth body ∧ EntryForm b.head.text b.inner) ↔
      (∀ line ∈ body, entryDepth body ≤ line.indent) ∧
        ∀ p ∈ entryLines body, EntryForm p.1.text p.2 := by
  constructor
  · intro h
    have hdepth : ∀ line ∈ body, entryDepth body ≤ line.indent := by
      intro line hline
      by_cases hd : entryDepth body < line.indent
      · omega
      · -- a line that is not deeper is the head of a block, and heads are all at one depth
        obtain ⟨behind, hp⟩ := exists_mem_suffixes hline
        have hb : (⟨line, deeper (entryDepth body) behind⟩ : Block)
            ∈ (split (entryDepth body) body).2 := by
          rw [split_snd]
          exact List.mem_map.mpr ⟨_, List.mem_filter.mpr ⟨hp, by simpa using hd⟩, rfl⟩
        exact (h _ hb).1.ge
    refine ⟨hdepth, ?_⟩
    intro p hp
    rw [split_entryDepth hdepth] at h
    exact (h _ (List.mem_map_of_mem hp)).2
  · rintro ⟨hdepth, hentries⟩ b hb
    rw [split_entryDepth hdepth] at hb
    obtain ⟨p, hp, rfl⟩ := List.mem_map.mp hb
    exact ⟨(indent_of_mem_entryLines hp).1, hentries p hp⟩

theorem entryBlocks_eq {body : List Line} (h : body ≠ []) :
    entryBlocks body = (entryDepth body, (split (entryDepth body) body).2) := by
  cases body with
  | nil => exact absurd rfl h
  | cons first rest => rfl

/-- The block of an anchor is read exactly if its first line is a header and the others are a body. -/
theorem Block.readAnchor_eq_ok_iff {b : Block} {d : Declaration} :
    b.readAnchor = .ok d ↔ ∃ header, Header.read? b.head.text = some header ∧ BodyForm b.inner ∧
      d = ⟨header.name, header.position, b.head.number, entriesIn b.inner⟩ := by
  unfold Block.readAnchor
  cases hh : Header.read? b.head.text with
  | none => simp [throw, throwThe, MonadExceptOf.throw]
  | some header =>
    simp only [Option.some.injEq, exists_eq_left']
    by_cases hbody : b.inner = []
    · have hform : ¬BodyForm b.inner := fun h => h.ne_nil hbody
      simp [hbody, throw, throwThe, MonadExceptOf.throw, bind, Except.bind, hbody ▸ hform]
    · have hempty : ¬b.inner.isEmpty = true := fun h => hbody (List.isEmpty_iff.mp h)
      have hread := (Block.readEntryAt_readsAs (entryDepth b.inner)).mapM
        (split (entryDepth b.inner) b.inner).2
      have hvalue : BodyForm b.inner → (((split (entryDepth b.inner) b.inner).2.map
          fun b => b.head.entryAbove? b.inner).filterMap id) = entriesIn b.inner := by
        intro hform
        rw [split_entryDepth hform.depth_le, List.map_map, List.filterMap_map]
        rfl
      rw [if_neg hempty, entryBlocks_eq hbody]
      simp only [bind_pure_comp]
      show ((split (entryDepth b.inner) b.inner).2.mapM (Block.readEntryAt (entryDepth b.inner))).map
        (fun entries => Declaration.mk header.name header.position b.head.number
          (entries.filterMap id)) = .ok d ↔ _
      rw [Except.map_eq_ok_iff]
      simp only [hread, forall_mem_split_entryDepth]
      constructor
      · rintro ⟨entries, ⟨⟨hdepth, hentries⟩, rfl⟩, rfl⟩
        have hform : BodyForm b.inner := ⟨hbody, hdepth, hentries⟩
        exact ⟨hform, by rw [hvalue hform]⟩
      · rintro ⟨hform, rfl⟩
        exact ⟨_, ⟨⟨hform.depth_le, hform.entries⟩, rfl⟩, by rw [hvalue hform]⟩

/-! ## Lines at depth zero -/

/-- Whether a line is at depth zero and begins with the keyword of an anchor. -/
def Line.isAnchor (line : Line) : Bool :=
  line.indent = 0 && line.firstWord = "anchor"

theorem Line.indent_of_isAnchor {line : Line} (h : line.isAnchor = true) : line.indent = 0 :=
  of_decide_eq_true (Bool.and_eq_true_iff.mp h).1

/-- The lines that declare anchors, each with its body: the lines behind it up to the next one at depth
zero. -/
def anchorLines (lines : List Line) : List (Line × List Line) :=
  ((suffixes lines).filter fun p => p.1.isAnchor).map fun p => (p.1, deeper 0 p.2)

/-- The anchors that lines declare. -/
def declarationsIn (lines : List Line) : List Declaration :=
  (anchorLines lines).filterMap fun p => (Header.read? p.1.text).map
    fun header => ⟨header.name, header.position, p.1.number, entriesIn p.2⟩

/-- A requirement or a region: its word comes first, and a colon last. -/
def Line.IsSkipped (line : Line) : Prop :=
  line.firstWord ∈ skippedWords ∧ line.text.getLast? = some ':'

/-- The header of an anchor. -/
def Line.IsHeader (line : Line) : Prop :=
  ∃ name place, HeaderForm line.text name place

/-- The grammar of an areas text, given by its logical lines. -/
structure Grammar (lines : List Line) : Prop where
  /-- No line is indented by anything but spaces. -/
  plain : ∀ line ∈ lines, line.IsPlain
  /-- The first line is at depth zero. -/
  first : ∀ line ∈ lines.head?, line.indent = 0
  /-- Every line at depth zero is skipped or is the header of an anchor. -/
  heads : ∀ line ∈ lines, line.indent = 0 → line.IsSkipped ∨ line.IsHeader
  /-- Every anchor has a body. -/
  bodies : ∀ p ∈ anchorLines lines, BodyForm p.2

theorem isHeader_iff {line : Line} :
    line.IsHeader ↔ ∃ header, Header.read? line.text = some header := by
  constructor
  · rintro ⟨name, place, hform⟩
    exact ⟨_, Header.read?_of_headerForm hform⟩
  · rintro ⟨header, h⟩
    obtain ⟨place, hform, -⟩ := Header.read?_eq_some_iff.mp h
    exact ⟨_, place, hform⟩

/-- A header begins with the keyword of an anchor. -/
theorem firstWord_of_isHeader {line : Line} (h : line.IsHeader) : line.firstWord = "anchor" := by
  have hword : ∀ {gap rest : List Char}, IsRun isBlank gap →
      (Header.keyword ++ (gap ++ rest)).takeWhile (fun c => !isBlank c) = Header.keyword := by
    intro gap rest hgap
    have hkeyword : IsRun (fun c => !isBlank c) Header.keyword := by decide
    refine takeWhile_append_of_stopsAt hkeyword.2 (hgap.stopsAt_append ?_)
    intro c hc
    rw [hc]
    rfl
  obtain ⟨name, place, hform⟩ := h
  unfold Line.firstWord
  generalize line.text = text at hform ⊢
  cases hform with
  | bare hgap =>
    simp only [List.append_assoc, hword hgap]
    rfl
  | placed hgap =>
    simp only [List.append_assoc, hword hgap]
    rfl

/-- No line is both skipped and the header of an anchor. -/
theorem not_isSkipped_of_firstWord {line : Line} (h : line.firstWord = "anchor") :
    ¬line.IsSkipped := by
  rintro ⟨hmem, -⟩
  rw [h] at hmem
  revert hmem
  decide

/-- What a block at depth zero declares, if it is the block of an anchor. -/
def Block.declaration? (b : Block) : Option Declaration :=
  if b.head.firstWord = "anchor" then (Header.read? b.head.text).map
    fun header => ⟨header.name, header.position, b.head.number, entriesIn b.inner⟩
  else none

theorem Block.readDeclaration_readsAs :
    ReadsAs Block.readDeclaration
      (fun b => (b.head.IsSkipped ∨ b.head.IsHeader) ∧
        (b.head.firstWord = "anchor" → BodyForm b.inner))
      Block.declaration? := by
  intro b o
  unfold Block.readDeclaration Block.declaration?
  dsimp only
  by_cases hword : b.head.firstWord = "anchor"
  · -- a header can only be read as an anchor, and an anchor only by its header
    have hskip := not_isSkipped_of_firstWord hword
    simp only [hword, if_true, bind_pure_comp, true_implies, hskip, false_or]
    show b.readAnchor.map some = .ok o ↔ _
    rw [Except.map_eq_ok_iff, isHeader_iff]
    simp only [Block.readAnchor_eq_ok_iff]
    constructor
    · rintro ⟨d, ⟨header, hread, hbody, rfl⟩, rfl⟩
      exact ⟨⟨⟨header, hread⟩, hbody⟩, by rw [hread]; rfl⟩
    · rintro ⟨⟨⟨header, hread⟩, hbody⟩, rfl⟩
      exact ⟨_, ⟨header, hread, hbody, rfl⟩, by rw [hread]; rfl⟩
  · -- no header begins with another word, so the line has to be one that is skipped
    have hheader : ¬b.head.IsHeader := fun h => hword (firstWord_of_isHeader h)
    simp only [hword, if_false, false_implies, and_true, hheader, or_false, Line.IsSkipped]
    by_cases hmem : b.head.firstWord ∈ skippedWords
    · by_cases hcolon : b.head.text.getLast? = some ':'
      · simp only [hmem, hcolon, if_true, true_and, pure, Except.pure, Except.ok.injEq]
        exact eq_comm
      · simp [hmem, hcolon, throw, throwThe, MonadExceptOf.throw, bind, Except.bind]
    · simp [hmem, throw, throwThe, MonadExceptOf.throw]

/-! ## The whole text -/

/-- The blocks at depth zero are the lines there, each with the deeper lines behind it. -/
theorem split_zero (lines : List Line) :
    (split 0 lines).2 = ((suffixes lines).filter fun p => p.1.indent = 0).map
      fun p => ⟨p.1, deeper 0 p.2⟩ := by
  rw [split_snd]
  refine congrArg _ (List.filter_congr ?_)
  intro p _
  rw [decide_eq_decide]
  omega

theorem readBlocks_readsAs :
    ReadsAs readBlocks
      (fun text => (∀ line ∈ logicalLines text, line.IsPlain) ∧
        ∀ line ∈ (logicalLines text).head?, line.indent = 0)
      (fun text => (split 0 (logicalLines text)).2) := by
  intro text blocks
  have hfront : (split 0 (logicalLines text)).1 = [] ↔
      ∀ line ∈ (logicalLines text).head?, line.indent = 0 := by
    rw [split_fst, deeper_eq_nil_iff]
    simp only [Nat.not_lt, Nat.le_zero]
  unfold readBlocks
  rw [Except.bind_eq_ok_iff]
  simp only [readLines_readsAs text]
  cases hs : split 0 (logicalLines text) with
  | mk front behind =>
    rw [hs] at hfront
    cases front with
    | nil =>
      have hfirst := hfront.mp rfl
      constructor
      · rintro ⟨lines, ⟨hplain, rfl⟩, h⟩
        rw [hs] at h
        exact ⟨⟨hplain, hfirst⟩, (Except.ok.inj h).symm⟩
      · rintro ⟨⟨hplain, -⟩, rfl⟩
        exact ⟨_, ⟨hplain, rfl⟩, by rw [hs]; rfl⟩
    | cons line front =>
      constructor
      · rintro ⟨lines, ⟨-, rfl⟩, h⟩
        rw [hs] at h
        cases h
      · rintro ⟨⟨-, hfirst⟩, -⟩
        cases hfront.mpr hfirst

theorem filterMap_declaration? (lines : List Line) :
    (split 0 lines).2.filterMap Block.declaration? = declarationsIn lines := by
  rw [split_zero, declarationsIn, anchorLines, List.filterMap_map, List.filterMap_map,
    List.filterMap_filter, List.filterMap_filter]
  refine List.filterMap_congr ?_
  intro p _
  simp only [Function.comp_apply, Block.declaration?, Line.isAnchor, Bool.and_eq_true,
    decide_eq_true_eq]
  by_cases hz : p.1.indent = 0
  · by_cases hw : p.1.firstWord = "anchor"
    · simp only [hz, hw, if_true, and_self]
    · simp only [hz, hw, if_true, if_false, and_false]
  · simp only [hz, if_false, false_and]

/-- What the blocks at depth zero have to be, said of the lines. -/
theorem forall_mem_split_zero {lines : List Line} :
    (∀ b ∈ (split 0 lines).2, (b.head.IsSkipped ∨ b.head.IsHeader) ∧
        (b.head.firstWord = "anchor" → BodyForm b.inner)) ↔
      (∀ line ∈ lines, line.indent = 0 → line.IsSkipped ∨ line.IsHeader) ∧
        ∀ p ∈ anchorLines lines, BodyForm p.2 := by
  rw [split_zero]
  constructor
  · intro h
    constructor
    · intro line hline hzero
      obtain ⟨behind, hp⟩ := exists_mem_suffixes hline
      have hmem : (line, behind) ∈ (suffixes lines).filter fun p => p.1.indent = 0 :=
        List.mem_filter.mpr ⟨hp, decide_eq_true hzero⟩
      exact (h _ (List.mem_map_of_mem hmem)).1
    · intro q hq
      obtain ⟨p, hp, rfl⟩ := List.mem_map.mp hq
      obtain ⟨hp, hanchor⟩ := List.mem_filter.mp hp
      obtain ⟨hzero, hword⟩ := Bool.and_eq_true_iff.mp hanchor
      have hmem : p ∈ (suffixes lines).filter fun p => p.1.indent = 0 :=
        List.mem_filter.mpr ⟨hp, hzero⟩
      exact (h _ (List.mem_map_of_mem hmem)).2 (of_decide_eq_true hword)
  · rintro ⟨hheads, hbodies⟩ b hb
    obtain ⟨p, hp, rfl⟩ := List.mem_map.mp hb
    obtain ⟨hp, hzero⟩ := List.mem_filter.mp hp
    refine ⟨hheads p.1 (mem_of_mem_suffixes hp) (of_decide_eq_true hzero), ?_⟩
    intro hword
    have hanchor : p ∈ (suffixes lines).filter fun p => p.1.isAnchor :=
      List.mem_filter.mpr ⟨hp, Bool.and_eq_true_iff.mpr ⟨hzero, decide_eq_true hword⟩⟩
    exact hbodies _ (List.mem_map_of_mem hanchor)

/-- **A text is read exactly if it keeps to the grammar**, and what it declares is what its lines say. -/
theorem readDeclarations_readsAs :
    ReadsAs readDeclarations (fun text => Grammar (logicalLines text))
      (fun text => declarationsIn (logicalLines text)) := by
  intro text ds
  have hvalue : ((split 0 (logicalLines text)).2.map Block.declaration?).filterMap id
      = declarationsIn (logicalLines text) := by
    rw [List.filterMap_map]
    exact filterMap_declaration? _
  show (readBlocks text >>= fun blocks =>
    (blocks.mapM Block.readDeclaration).map (List.filterMap id)) = .ok ds ↔ _
  rw [Except.bind_eq_ok_iff]
  simp only [readBlocks_readsAs text, Except.map_eq_ok_iff, Block.readDeclaration_readsAs.mapM _]
  constructor
  · rintro ⟨blocks, ⟨⟨hplain, hfirst⟩, rfl⟩, os, ⟨hblocks, rfl⟩, rfl⟩
    obtain ⟨hheads, hbodies⟩ := forall_mem_split_zero.mp hblocks
    exact ⟨⟨hplain, hfirst, hheads, hbodies⟩, hvalue⟩
  · rintro ⟨⟨hplain, hfirst, hheads, hbodies⟩, rfl⟩
    have hblocks := forall_mem_split_zero.mpr ⟨hheads, hbodies⟩
    exact ⟨_, ⟨⟨hplain, hfirst⟩, rfl⟩, _, ⟨hblocks, rfl⟩, hvalue⟩

/-- A line that begins like the header of an anchor is one. -/
theorem Grammar.isHeader {lines : List Line} (h : Grammar lines) {line : Line} (hline : line ∈ lines)
    (hanchor : line.isAnchor = true) : line.IsHeader := by
  obtain ⟨hzero, hword⟩ := Bool.and_eq_true_iff.mp hanchor
  rcases h.heads line hline (of_decide_eq_true hzero) with hskip | hheader
  · exact absurd hskip (not_isSkipped_of_firstWord (of_decide_eq_true hword))
  · exact hheader

/-- The header of an anchor line is read. -/
theorem Grammar.exists_read?_header {lines : List Line} (h : Grammar lines) {p : Line × List Line}
    (hp : p ∈ anchorLines lines) : ∃ header, Header.read? p.1.text = some header := by
  obtain ⟨q, hq, rfl⟩ := List.mem_map.mp hp
  obtain ⟨hq, hanchor⟩ := List.mem_filter.mp hq
  have hheader : q.1.IsHeader := h.isHeader (mem_of_mem_suffixes hq) hanchor
  exact isHeader_iff.mp hheader

/-- An anchor line makes a declaration. -/
theorem Grammar.exists_mem_declarationsIn {lines : List Line} (h : Grammar lines)
    {p : Line × List Line} (hp : p ∈ anchorLines lines) :
    ∃ d ∈ declarationsIn lines, d.line = p.1.number ∧ d.entries = entriesIn p.2 := by
  obtain ⟨header, hheader⟩ := h.exists_read?_header hp
  exact ⟨_, List.mem_filterMap.mpr ⟨p, hp, by rw [hheader]; rfl⟩, rfl, rfl⟩

/-- Every anchor line of a text that keeps to the grammar makes a declaration of the same order. -/
theorem forall₂_declarationsIn {lines : List Line} (h : Grammar lines) :
    List.Forall₂ (fun p d => (∃ place, HeaderForm p.1.text d.name.toList place ∧
        d.position = place.bind positionOf?) ∧ d.line = p.1.number ∧ d.entries = entriesIn p.2)
      (anchorLines lines) (declarationsIn lines) := by
  have hread : ∀ p ∈ anchorLines lines, ∃ header, Header.read? p.1.text = some header :=
    fun p hp => h.exists_read?_header hp
  unfold declarationsIn
  generalize anchorLines lines = anchors at hread
  induction anchors with
  | nil => exact List.Forall₂.nil
  | cons p rest ih =>
    obtain ⟨header, hp⟩ := hread p List.mem_cons_self
    rw [List.filterMap_cons_some (by rw [hp]; rfl)]
    refine List.Forall₂.cons ⟨Header.read?_eq_some_iff.mp hp, rfl, rfl⟩ (ih ?_)
    exact fun q hq => hread q (List.mem_cons_of_mem _ hq)

/-! ## Entries that survive -/

/-- The entries of an anchor that survive at a difficulty. -/
def Declaration.survivors (setting : Difficulty) (d : Declaration) : List Entry :=
  d.entries.filter (·.isPermitted setting)

/-- The entries that survive at a difficulty, of all anchors in order. -/
def survivors (setting : Difficulty) (ds : List Declaration) : List Entry :=
  ds.flatMap (Declaration.survivors setting)

/-- The entries that survive at a difficulty, in the order of the lines they are on. -/
def survivorsIn (setting : Difficulty) (lines : List Line) : List Entry :=
  (anchorLines lines).flatMap fun p => (entriesIn p.2).filter (·.isPermitted setting)

theorem survivorsIn_eq {lines : List Line} (h : Grammar lines) (setting : Difficulty) :
    survivorsIn setting lines = survivors setting (declarationsIn lines) := by
  have hrel := forall₂_declarationsIn h
  unfold survivorsIn survivors
  generalize anchorLines lines = anchors at hrel
  generalize declarationsIn lines = ds at hrel
  induction hrel with
  | nil => rfl
  | cons hd _ ih => rw [List.flatMap_cons, List.flatMap_cons, ih, Declaration.survivors, hd.2.2]

end AreaAtlas.Areas

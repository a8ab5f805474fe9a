import AreaAtlas.Proofs.Areas.Grammar
import Mathlib.Order.Monotone.Basic

/-!
# Lines with other numbers and depths

Of the numbers of lines an areas text makes no use but to say where something stands, and of their depths
only which of two is the greater and which are zero.  So with other numbers, and with depths in the same
order, the same is read, and a fault is the same fault on another line.
-/

namespace AreaAtlas.Areas

/-- Other numbers for lines, and other depths in the same order. -/
structure Relabeling where
  number : Nat → Nat
  depth : Nat → Nat
  strictMono : StrictMono depth
  depth_zero : depth 0 = 0

namespace Relabeling

variable (r : Relabeling)

/-- A line with its other number and depth. -/
def line (l : Line) : Line :=
  ⟨r.number l.number, r.depth l.indent, l.text⟩

/-- A block of such lines. -/
def block (b : Block) : Block :=
  ⟨r.line b.head, b.inner.map r.line⟩

/-- An entry on its other line. -/
def entry (e : Entry) : Entry :=
  { e with line := r.number e.line }

/-- An anchor that is declared, with its entries, on the other lines. -/
def declaration (d : Declaration) : Declaration :=
  { d with line := r.number d.line, entries := d.entries.map r.entry }

/-- A fault on its other line. -/
def fault (f : DocumentFault) : DocumentFault :=
  { f with line := r.number f.line }

theorem depth_lt_iff {a b : Nat} : r.depth a < r.depth b ↔ a < b :=
  r.strictMono.lt_iff_lt

theorem depth_eq_iff {a b : Nat} : r.depth a = r.depth b ↔ a = b :=
  r.strictMono.injective.eq_iff

/-! ## Blocks -/

/-- Lines are taken apart in the same places. -/
theorem split_map (depth : Nat) (lines : List Line) :
    split (r.depth depth) (lines.map r.line)
      = ((split depth lines).1.map r.line, (split depth lines).2.map r.block) := by
  induction lines with
  | nil => rfl
  | cons l rest ih =>
    rw [List.map_cons]
    by_cases h : depth < l.indent
    · have hdeeper : r.depth depth < (r.line l).indent := r.depth_lt_iff.mpr h
      rw [split_cons_of_deeper hdeeper, split_cons_of_deeper h, ih]
      rfl
    · have hhead : ¬r.depth depth < (r.line l).indent := fun hlt => h (r.depth_lt_iff.mp hlt)
      rw [split_cons_of_head hhead, split_cons_of_head h, ih]
      rfl

theorem split_zero_map (lines : List Line) :
    split 0 (lines.map r.line)
      = ((split 0 lines).1.map r.line, (split 0 lines).2.map r.block) := by
  have h := r.split_map 0 lines
  rwa [r.depth_zero] at h

theorem blockAlternatives_map (lines : List Line) :
    blockAlternatives (lines.map r.line) = blockAlternatives lines := by
  cases lines with
  | nil => rfl
  | cons first rest =>
    show (((first :: rest).map r.line).filter (·.indent = r.depth first.indent)).map (·.text)
      = ((first :: rest).filter (·.indent = first.indent)).map (·.text)
    rw [List.filter_map, List.map_map]
    refine congrArg _ (List.filter_congr ?_)
    intro l _
    exact decide_eq_decide.mpr r.depth_eq_iff

/-! ## What is read of a block -/

theorem readAlternatives_map (number : Nat) (keyword target : String) (inline : List Char)
    (inner : List Line) :
    readAlternatives (r.number number) keyword target inline (inner.map r.line)
      = Except.bimap id r.fault (readAlternatives number keyword target inline inner) := by
  have halternatives := r.blockAlternatives_map inner
  unfold readAlternatives
  cases inline with
  | nil =>
    cases inner with
    | nil => rfl
    | cons first rest => exact congrArg Except.ok halternatives
  | cons c inline =>
    cases inner with
    | nil => rfl
    | cons first rest => rfl

theorem readEntry_block (b : Block) :
    (r.block b).readEntry = Except.bimap (Option.map r.entry) r.fault b.readEntry := by
  have htext : (r.block b).head.text = b.head.text := rfl
  unfold Block.readEntry
  rw [htext]
  cases EntryText.read? b.head.text with
  | none => rfl
  | some text =>
    dsimp only
    split
    · rfl
    · cases NodeKind.ofKeyword? (.ofList text.keyword) with
      | none => rfl
      | some kind =>
        cases text.target with
        | none => rfl
        | some target =>
          cases text.colon with
          | false => rfl
          | true =>
            have halternatives := r.readAlternatives_map b.head.number (.ofList text.keyword)
              (.ofList target) text.requirements b.inner
            show (readAlternatives (r.number b.head.number) _ _ _ (b.inner.map r.line) >>= _)
              = Except.bimap _ _ (readAlternatives b.head.number _ _ _ b.inner >>= _)
            rw [halternatives]
            cases readAlternatives b.head.number (.ofList text.keyword) (.ofList target)
              text.requirements b.inner with
            | error e => rfl
            | ok alternatives => rfl

theorem readEntryAt_block (depth : Nat) (b : Block) :
    Block.readEntryAt (r.depth depth) (r.block b)
      = Except.bimap (Option.map r.entry) r.fault (Block.readEntryAt depth b) := by
  unfold Block.readEntryAt
  have hdepth : (r.block b).head.indent = r.depth depth ↔ b.head.indent = depth := r.depth_eq_iff
  by_cases h : b.head.indent = depth
  · rw [if_pos (hdepth.mpr h), if_pos h, r.readEntry_block]
  · rw [if_neg fun h' => h (hdepth.mp h'), if_neg h]
    rfl

theorem entryBlocks_map {body : List Line} (h : body ≠ []) :
    entryBlocks (body.map r.line)
      = (r.depth (entryBlocks body).1, (entryBlocks body).2.map r.block) := by
  cases body with
  | nil => exact absurd rfl h
  | cons first rest =>
    have hsplit := r.split_map first.indent (first :: rest)
    exact congrArg (fun p => (r.depth first.indent, p.2)) hsplit

theorem filterMap_id_map_map {α β : Type} (f : α → β) (os : List (Option α)) :
    (os.map (Option.map f)).filterMap id = (os.filterMap id).map f := by
  rw [List.filterMap_map, List.map_filterMap]
  rfl

theorem readAnchor_block (b : Block) :
    (r.block b).readAnchor = Except.bimap r.declaration r.fault b.readAnchor := by
  have htext : (r.block b).head.text = b.head.text := rfl
  unfold Block.readAnchor
  rw [htext]
  cases Header.read? b.head.text with
  | none => rfl
  | some header =>
    by_cases hbody : b.inner = []
    · unfold block
      rw [hbody]
      rfl
    · have hempty : ¬b.inner.isEmpty = true := fun h => hbody (List.isEmpty_iff.mp h)
      have hempty' : ¬(b.inner.map r.line).isEmpty = true :=
        fun h => hbody (List.map_eq_nil_iff.mp (List.isEmpty_iff.mp h))
      have hread : ((entryBlocks b.inner).2.map r.block).mapM
            (Block.readEntryAt (r.depth (entryBlocks b.inner).1))
          = Except.bimap (List.map (Option.map r.entry)) r.fault
            ((entryBlocks b.inner).2.mapM (Block.readEntryAt (entryBlocks b.inner).1)) :=
        Except.mapM_map_eq_bimap fun b' _ => r.readEntryAt_block _ b'
      show (if (b.inner.map r.line).isEmpty = true then _ else _) = _
      dsimp only
      rw [if_neg hempty, if_neg hempty']
      show (entryBlocks (b.inner.map r.line)).2.mapM
          (Block.readEntryAt (entryBlocks (b.inner.map r.line)).1) >>= _ = _
      rw [r.entryBlocks_map hbody, hread]
      show _ = Except.bimap r.declaration r.fault
        ((entryBlocks b.inner).2.mapM (Block.readEntryAt (entryBlocks b.inner).1) >>= _)
      cases (entryBlocks b.inner).2.mapM (Block.readEntryAt (entryBlocks b.inner).1) with
      | error e => rfl
      | ok os =>
        show Except.ok (Declaration.mk _ _ _ ((os.map (Option.map r.entry)).filterMap id)) = _
        rw [filterMap_id_map_map]
        rfl

/-- **A block is read in the same way**, whatever the numbers of its lines are and however deep they
stand, as long as the order of the depths is the same. -/
theorem readDeclaration_block (b : Block) :
    (r.block b).readDeclaration
      = Except.bimap (Option.map r.declaration) r.fault b.readDeclaration := by
  unfold Block.readDeclaration
  show (if b.head.firstWord = "anchor" then _ else _) = _
  dsimp only
  by_cases hword : b.head.firstWord = "anchor"
  · rw [if_pos hword, if_pos hword, r.readAnchor_block]
    cases b.readAnchor with
    | error e => rfl
    | ok d => rfl
  · rw [if_neg hword, if_neg hword]
    by_cases hmem : b.head.firstWord ∈ skippedWords
    · show (if b.head.firstWord ∈ skippedWords then _ else _) = _
      rw [if_pos hmem, if_pos hmem]
      by_cases hcolon : b.head.text.getLast? = some ':'
      · show (if b.head.text.getLast? = some ':' then _ else _) = _
        rw [if_pos hcolon, if_pos hcolon]
        rfl
      · show (if b.head.text.getLast? = some ':' then _ else _) = _
        rw [if_neg hcolon, if_neg hcolon]
        rfl
    · show (if b.head.firstWord ∈ skippedWords then _ else _) = _
      rw [if_neg hmem, if_neg hmem]
      rfl

end Relabeling

end AreaAtlas.Areas

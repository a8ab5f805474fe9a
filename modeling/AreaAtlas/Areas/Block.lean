import AreaAtlas.Fault
import AreaAtlas.Text.Lines

/-!
# Blocks of an areas text

A `#` begins a comment, white space at the back of a line means nothing, and a line without text is
dropped.  What remains is indented by spaces only: another white space character behind them is a
fault, and it comes before every other fault of the text.

A line and the deeper lines behind it form a block.  Declarations are the blocks at depth zero, the
entries of an anchor are the blocks at the depth of its first line, and in both cases a block is read
without a look at its neighbours.
-/

namespace AreaAtlas.Areas

/-! ## Logical lines -/

/-- A line with text: its number, counted from one, the spaces in front of the text, and the text. -/
structure Line where
  number : Nat
  indent : Nat
  text : List Char
deriving DecidableEq, Repr

namespace Line

/-- A line without its comment and the white space behind. -/
def content (raw : List Char) : List Char :=
  trimEnd (raw.takeWhile (· ≠ '#'))

/-- Read the line of this number, if it has text. -/
def read (number : Nat) (raw : List Char) : Except DocumentFault (Option Line) :=
  let content := content raw
  match content.dropWhile (· = ' ') with
  | [] => .ok none
  | c :: rest =>
    if isBlank c then .error (.inAreas number .indentationNotSpaces)
    else .ok (some ⟨number, content.length - (rest.length + 1), c :: rest⟩)

/-- Read raw lines, the first of which has this number. -/
def readAll (number : Nat) (raw : List (List Char)) : Except DocumentFault (List Line) :=
  ((raw.zipIdx number).mapM fun (line, n) => read n line).map (List.filterMap id)

end Line

/-- The logical lines of an areas text. -/
def readLines (text : List Char) : Except DocumentFault (List Line) :=
  Line.readAll 1 (lines text)

/-! ## Blocks -/

/-- A line with the deeper lines behind it. -/
structure Block where
  head : Line
  inner : List Line
deriving DecidableEq, Repr

/-- Take lines apart into the lines deeper than `depth` in front, and blocks whose heads are not. -/
def split (depth : Nat) (lines : List Line) : List Line × List Block :=
  lines.foldr
    (fun line (deeper, blocks) =>
      if depth < line.indent then (line :: deeper, blocks) else ([], ⟨line, deeper⟩ :: blocks))
    ([], [])

/-- The lines of a block. -/
def Block.lines (b : Block) : List Line :=
  b.head :: b.inner

theorem split_nil (depth : Nat) : split depth [] = ([], []) := rfl

theorem split_cons_of_deeper {depth : Nat} {line : Line} {rest : List Line}
    (h : depth < line.indent) :
    split depth (line :: rest) = (line :: (split depth rest).1, (split depth rest).2) := by
  simp [split, h]

theorem split_cons_of_head {depth : Nat} {line : Line} {rest : List Line}
    (h : ¬ depth < line.indent) :
    split depth (line :: rest) = ([], ⟨line, (split depth rest).1⟩ :: (split depth rest).2) := by
  simp [split, h]

/-- Nothing is lost: the lines are those in front, then those of the blocks. -/
theorem split_lines (depth : Nat) (lines : List Line) :
    (split depth lines).1 ++ (split depth lines).2.flatMap Block.lines = lines := by
  induction lines with
  | nil => rfl
  | cons line rest ih =>
    by_cases h : depth < line.indent
    · simp [split_cons_of_deeper h, ih]
    · simp [split_cons_of_head h, Block.lines, ih]

end AreaAtlas.Areas

import AreaAtlas.Text.Character

/-!
# Lines of a text

Several notions of a line are in use.  An areas text is *read* by lines that may end in any of ten
characters, CR LF counting as one end.  Places in a file are *counted* by line feeds alone, as an
editor does, and a log is taken apart at them.  In a settings file CR and CR LF count as line feeds.
-/

namespace AreaAtlas

/-- Whether a character ends a line of an areas text. -/
def isLineEnd (c : Char) : Bool :=
  let n := c.toNat
  (0x0A ≤ n && n ≤ 0x0D) || (0x1C ≤ n && n ≤ 0x1E) || n == 0x85 || n == 0x2028 || n == 0x2029

theorem isBlank_of_isLineEnd {c : Char} (h : isLineEnd c = true) : isBlank c = true := by
  simp only [isLineEnd, isBlank, Bool.or_eq_true, Bool.and_eq_true, decide_eq_true_eq,
    beq_iff_eq] at h ⊢
  omega

/-- The lines of a text whose current line begins with `start`, read backwards.  A line end closes
the current line; after the last one there is a line only if something follows. -/
def linesFrom (start : List Char) : List Char → List (List Char)
  | [] => if start.isEmpty then [] else [start.reverse]
  | '\r' :: '\n' :: rest => start.reverse :: linesFrom [] rest
  | c :: rest =>
    if isLineEnd c then start.reverse :: linesFrom [] rest else linesFrom (c :: start) rest

/-- The lines of a text, without their ends. -/
def lines (text : List Char) : List (List Char) :=
  linesFrom [] text

/-- A text with a line feed for each CR and each CR LF. -/
def plainLineEnds : List Char → List Char
  | [] => []
  | '\r' :: '\n' :: rest => '\n' :: plainLineEnds rest
  | c :: rest => (if c = '\r' then '\n' else c) :: plainLineEnds rest

/-- The parts of a list that end in `stop`, the current part beginning with `start`, read backwards.  A
part holds its end; what follows the last end is a part too. -/
def partsFrom {α : Type} [DecidableEq α] (stop : α) (start : List α) : List α → List (List α)
  | [] => if start.isEmpty then [] else [start.reverse]
  | a :: rest =>
    if a = stop then (a :: start).reverse :: partsFrom stop [] rest
    else partsFrom stop (a :: start) rest

/-- The parts of a list that end in `stop`. -/
def partsEndingIn {α : Type} [DecidableEq α] (stop : α) (l : List α) : List (List α) :=
  partsFrom stop [] l

end AreaAtlas

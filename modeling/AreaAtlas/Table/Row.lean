import AreaAtlas.Text.Character

/-!
# Rows of a table

A table is a text of records, one a line, whose cells are parted by commas.  A cell may be put between
double quotes; there a comma is text, a double quote is written twice, and a line end is text, so a
record may take several lines.  Spaces in front of a cell are dropped.  The reader is lenient: a quote
inside a bare cell is text, text behind a closing quote is added to the cell, and a quoted cell may be
left open at the end.  Two things are refused: a carriage return that ends a record but not its line,
and a cell of more than `maxCellSize` characters.

Only a line feed ends a line.  The records before the first fault are kept, since a fault of the
reader comes after the faults that their contents may have.

A row is a record with the white space around its cells taken off.  Records without text and comments,
whose first cell begins with `#`, are no rows.
-/

namespace AreaAtlas.Table

/-! ## Records -/

/-- The greatest number of characters of a cell. -/
def maxCellSize : Nat := 131072

/-- Why a table cannot be taken apart into records. -/
inductive Fault where
  /-- A cell has more than `maxCellSize` characters. -/
  | cellTooLong
  /-- A carriage return ends a record within a line. -/
  | strayReturn
deriving DecidableEq, Repr

/-- The wording of a fault. -/
def Fault.message : Fault → String
  | .cellTooLong => s!"field larger than field limit ({maxCellSize})"
  | .strayReturn =>
    "new-line character seen in unquoted field - do you need to open the file in universal-newline mode?"

/-- A record: its cells, and the number of lines read up to its end. -/
structure Record where
  line : Nat
  cells : List (List Char)
deriving DecidableEq, Repr

/-- The records up to the first fault, and the fault. -/
structure Records where
  records : List Record
  fault : Option Fault
deriving DecidableEq, Repr

/-- What the characters read so far are part of. -/
inductive Phase where
  /-- Nothing of a record has been read. -/
  | recordStart
  /-- Nothing but spaces of a cell has been read. -/
  | cellStart
  /-- A cell that is not between quotes, or what follows a closing quote. -/
  | bare
  /-- A cell between quotes. -/
  | quoted
  /-- A quote within a quoted cell: it ends the cell or stands for itself if another follows. -/
  | quoteSeen
  /-- A carriage return has ended the record. -/
  | ended
deriving DecidableEq, Repr

/-- The reader within a record: the phase, the current cell backwards and its size, the cells before it
backwards, the lines begun, and whether the next character begins a line. -/
structure Scan where
  phase : Phase
  cell : List Char
  size : Nat
  cells : List (List Char)
  lines : Nat
  atLineStart : Bool
deriving DecidableEq, Repr

namespace Scan

/-- The reader at the start of a record, so many lines having been read. -/
def start (lines : Nat) : Scan :=
  ⟨.recordStart, [], 0, [], lines, true⟩

/-- Go over to another phase. -/
def enter (s : Scan) (phase : Phase) : Scan :=
  { s with phase }

/-- Add a character to the cell. -/
def add (s : Scan) (phase : Phase) (c : Char) : Except Fault Scan :=
  if s.size < maxCellSize then
    .ok { s with phase, cell := c :: s.cell, size := s.size + 1 }
  else .error .cellTooLong

/-- Close the cell. -/
def save (s : Scan) (phase : Phase) : Scan :=
  { s with phase, cell := [], size := 0, cells := s.cell.reverse :: s.cells }

/-- The finished record. -/
def record (s : Scan) : Record :=
  ⟨s.lines, s.cells.reverse⟩

/-- Read a character other than a line feed where a cell begins. -/
def beginCell (s : Scan) (c : Char) : Except Fault Scan :=
  if c = '\r' then .ok (s.save .ended)
  else if c = '"' then .ok (s.enter .quoted)
  else if c = ' ' then .ok (s.enter .cellStart)
  else if c = ',' then .ok (s.save .cellStart)
  else s.add .bare c

/-- Read a character other than a line feed. -/
def read (s : Scan) (c : Char) : Except Fault Scan :=
  match s.phase with
  | .recordStart => if c = '\r' then .ok (s.enter .ended) else s.beginCell c
  | .cellStart => s.beginCell c
  | .bare =>
    if c = '\r' then .ok (s.save .ended)
    else if c = ',' then .ok (s.save .cellStart)
    else s.add .bare c
  | .quoted => if c = '"' then .ok (s.enter .quoteSeen) else s.add .quoted c
  | .quoteSeen =>
    if c = '\r' then .ok (s.save .ended)
    else if c = '"' then s.add .quoted c
    else if c = ',' then .ok (s.save .cellStart)
    else s.add .bare c
  | .ended => if c = '\r' then .ok s else .error .strayReturn

/-- The record that ends here, if one does: at a line feed or at the end of the text. -/
def close (s : Scan) : Record :=
  match s.phase with
  | .recordStart | .ended => s.record
  | .cellStart | .bare | .quoted | .quoteSeen => (s.save .ended).record

/-- Count the line that the next character is on. -/
def countLine (s : Scan) (c : Char) : Scan :=
  { s with lines := if s.atLineStart then s.lines + 1 else s.lines, atLineStart := c = '\n' }

end Scan

/-- Read the rest of a table: `done` are the records before, backwards. -/
def scan (done : List Record) (s : Scan) : List Char → Records
  | [] => ⟨(if s.phase = .recordStart then done else s.close :: done).reverse, none⟩
  | c :: rest =>
    let s := s.countLine c
    if c = '\n' ∧ s.phase ≠ .quoted then scan (s.close :: done) (.start s.lines) rest
    else
      match s.read c with
      | .ok s => scan done s rest
      | .error fault => ⟨done.reverse, some fault⟩

/-- The records of a table. -/
def records (text : List Char) : Records :=
  scan [] (.start 0) text

/-! ## Rows -/

/-- Whether cells hold no text. -/
def isEmptyRow (cells : List (List Char)) : Bool :=
  cells.all List.isEmpty

/-- Whether cells are a comment. -/
def isComment (cells : List (List Char)) : Bool :=
  (cells.head?.bind List.head?) == some '#'

/-- The row that a record holds, if it is neither empty nor a comment. -/
def Record.row? (r : Record) : Option Record :=
  let cells := r.cells.map trim
  if isEmptyRow cells || isComment cells then none else some ⟨r.line, cells⟩

/-- The rows of a table up to its first fault. -/
def rows (text : List Char) : Records :=
  let read := records text
  ⟨read.records.filterMap Record.row?, read.fault⟩

end AreaAtlas.Table

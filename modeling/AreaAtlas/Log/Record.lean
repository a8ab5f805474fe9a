import AreaAtlas.Text.Lines
import AreaAtlas.Text.Utf8

/-!
# Log records

A record says who logs it, how important it is, and a message.  It is written as one line, unless the
message itself has several.

A log is a text, and a record is known in it by its line: a time, the logger, the level, a place in a
program, and the message, with a dash between each two.  Other lines say nothing about records: further
lines of a message, and what else has been written there.
-/

namespace AreaAtlas.Log

/-! ## Records -/

/-- How important a record is. -/
abbrev Level := Int

/-- For the development of the program. -/
def debug : Level := 10

/-- For the user. -/
def info : Level := 20

/-- For what may be wrong. -/
def warning : Level := 30

/-- The name of a level; one between the named levels is written as a number. -/
def levelName (level : Level) : String :=
  match level with
  | 0 => "NOTSET"
  | 10 => "DEBUG"
  | 20 => "INFO"
  | 30 => "WARNING"
  | 40 => "ERROR"
  | 50 => "CRITICAL"
  | n => "Level " ++ toString n

/-- The name of the root. -/
def root : String := "root"

/-- Whether a name is that of the root. -/
def isRoot (logger : String) : Bool :=
  logger.isEmpty || logger == root

/-- A record: who logs it, how important it is, and what it says. -/
structure Record where
  logger : String
  level : Level
  message : String
deriving DecidableEq, Repr

namespace Record

/-- What stands between the parts of a line. -/
def separator : String := " - "

/-- What stands in each line where the place in the program could be named that logs the record. -/
def origin : String := "log:1"

/-- A record as a line, written at this time. -/
def line (r : Record) (time : String) : String :=
  separator.intercalate
    [time, if isRoot r.logger then root else r.logger, levelName r.level, origin, r.message] ++ "\n"

end Record

/-! ## Lines of a log -/

/-- What a line of a log says, time and place in the program left out. -/
structure Entry where
  logger : String
  level : String
  message : String
deriving DecidableEq, Repr

namespace Entry

/-- The text of an entry. -/
def text (e : Entry) : String :=
  Record.separator.intercalate [e.logger, e.level, e.message]

/-! ### The parts of a line -/

/-- The text behind a separator. -/
def skipSeparator? (text : List Char) : Option (List Char) :=
  Record.separator.toList.isPrefixOf? text

/-- A time, zeros standing for all digits. -/
def timeForm : List Char := "0000-00-00 00:00:00".toList

/-- Whether a text is a time. -/
def isTime (text : List Char) : Bool :=
  text.map (fun c => if c.isDigit then '0' else c) == timeForm

/-- Read the name of a level. -/
def readLevel? (text : List Char) : Option (List Char × List Char) :=
  let name :=
    match "Level ".toList.isPrefixOf? text with
    | some ('-' :: rest) => "Level -".toList ++ rest.takeWhile Char.isDigit
    | some rest => "Level ".toList ++ rest.takeWhile Char.isDigit
    | none => text.takeWhile Char.isUpper
  if name.getLast?.any fun c => c.isDigit || c.isUpper then some (name, text.drop name.length)
  else none

/-- Whether a word is a place in a program: a name, a colon and a number. -/
def isOrigin (word : List Char) : Bool :=
  let number := word.reverse.takeWhile Char.isDigit
  match word.reverse.drop number.length with
  | ':' :: _ :: _ => !number.isEmpty
  | _ => false

/-- The text behind a place in a program. -/
def skipOrigin? (text : List Char) : Option (List Char) :=
  let word := text.takeWhile (!isBlank ·)
  if isOrigin word then some (text.drop word.length) else none

/-- Read the level and the message behind a logger. -/
def readBehindLogger? (text : List Char) : Option (List Char × List Char) := do
  let text ← skipSeparator? text
  let (level, text) ← readLevel? text
  let text ← skipSeparator? text
  let text ← skipOrigin? text
  let message ← skipSeparator? text
  return (level, message)

/-- Read an entry whose logger begins with `start`, read backwards.  The logger is as short as it can
be. -/
def readFrom? (start : List Char) : List Char → Option Entry
  | [] => none
  | c :: rest =>
    match if start.isEmpty then none else readBehindLogger? (c :: rest) with
    | some (level, message) => some ⟨.ofList start.reverse, .ofList level, .ofList message⟩
    | none => readFrom? (c :: start) rest

/-- The entry of a line, if it is the line of a record. -/
def ofLine? (line : List Char) : Option Entry := do
  let time := line.take timeForm.length
  if isTime time then readFrom? [] (← skipSeparator? (line.drop timeForm.length)) else none

/-- The entry of a part of a log that ends with its line. -/
def ofPart? (part : List Char) : Option Entry :=
  ofLine? (part.takeWhile (· ≠ '\n'))

end Entry

/-- The entries of a log. -/
def entries (text : String) : List Entry :=
  (partsEndingIn '\n' text.toList).filterMap Entry.ofPart?

/-- What a text holds besides entries. -/
def withoutEntries (text : String) : String :=
  .ofList ((partsEndingIn '\n' text.toList).filter fun part => (Entry.ofPart? part).isNone).flatten

/-- The entries of a log file.  A line that is not UTF-8 is none. -/
def entriesOfFile (bytes : List UInt8) : List Entry :=
  (partsEndingIn 0x0A bytes).flatMap fun line =>
    match Utf8.decode line with
    | .ok text => entries text
    | .error _ => []

end AreaAtlas.Log

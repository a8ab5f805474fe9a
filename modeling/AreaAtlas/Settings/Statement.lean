import AreaAtlas.Text.Lines

/-!
# Statements of a settings file

A settings file is read statement by statement.  A statement gives a variable a value, or only names
it, or is a comment; the word `export` may stand in front, and a comment behind.  White space between
statements says nothing, so a statement may begin some lines behind the end of the one before.

A value between quotes may go on over several lines.  It ends at the first quote that is not escaped,
and a backslash escapes any character behind it; if there is no such quote, the statement cannot be
read.  A value without quotes is what the line holds up to a comment, which begins behind white space.

A statement that cannot be read is dropped with the rest of the line on which reading failed, and is
known by the line on which the statement before it ended.
-/

namespace AreaAtlas.Settings

/-- A variable that a statement names, and the value that it gives to it, if it gives one. -/
structure Setting where
  name : String
  value : Option String
deriving DecidableEq, Repr

/-- What is read at the front of a text, and the text behind it; or the text from which on it cannot be
read. -/
abbrev Reading (α : Type) := Except (List Char) (α × List Char)

/-! ## Parts of a line -/

/-- Whether a character is white space within a line. -/
def isGap (c : Char) : Bool :=
  isBlank c && c != '\n'

/-- A text without the gap at its front. -/
def skipGap (text : List Char) : List Char :=
  text.dropWhile isGap

/-- What is left of the line. -/
def lineRest (text : List Char) : List Char :=
  text.takeWhile (· ≠ '\n')

/-- The text from the end of the line on. -/
def dropLineRest (text : List Char) : List Char :=
  text.dropWhile (· ≠ '\n')

/-- The text behind a comment, if there is one. -/
def skipComment (text : List Char) : List Char :=
  match skipGap text with
  | '#' :: rest => dropLineRest rest
  | _ => text

/-- The text behind the end of a line that holds nothing but a comment. -/
def endLine (text : List Char) : Except (List Char) (List Char) :=
  match skipGap (skipComment text) with
  | [] => .ok []
  | '\n' :: rest => .ok rest
  | rest => .error rest

/-! ## Names -/

/-- The text behind the word `export` and a gap, which may stand in front of a name. -/
def skipExport (text : List Char) : List Char :=
  match "export".toList.isPrefixOf? text with
  | some (c :: rest) => if isGap c then skipGap rest else text
  | _ => text

/-- Whether a character may stand in a name without quotes. -/
def isBareNameChar (c : Char) : Bool :=
  !isBlank c && c != '=' && c != '#'

/-- Read a name.  In front of a comment there is none. -/
def readName : List Char → Reading (Option String)
  | '#' :: rest => .ok (none, '#' :: rest)
  | '\'' :: rest =>
    match rest.takeWhile (· ≠ '\''), rest.dropWhile (· ≠ '\'') with
    | c :: name, _ :: behind => .ok (some (.ofList (c :: name)), behind)
    | _, _ => .error ('\'' :: rest)
  | text =>
    match text.takeWhile isBareNameChar with
    | [] => .error text
    | name => .ok (some (.ofList name), text.dropWhile isBareNameChar)

/-! ## Values -/

/-- The text in front of the closing quote, and the text behind it.  A backslash takes the character
behind it along, so that neither closes the value. -/
def splitAtQuote? (quote : Char) : List Char → Option (List Char × List Char)
  | [] => none
  | '\\' :: c :: rest =>
    (splitAtQuote? quote rest).map fun (value, behind) => ('\\' :: c :: value, behind)
  | c :: rest =>
    if c = quote then some ([], rest)
    else (splitAtQuote? quote rest).map fun (value, behind) => (c :: value, behind)

/-- The character that a backslash and another character stand for.  Between single quotes only the
backslash and the single quote are escaped. -/
def escaped? (quote c : Char) : Option Char :=
  if c = '\\' ∨ c = '\'' then some c
  else if quote = '\'' then none
  else
    match c with
    | '"' => some '"'
    | 'a' => some '\x07'
    | 'b' => some '\x08'
    | 'f' => some '\x0c'
    | 'n' => some '\n'
    | 'r' => some '\r'
    | 't' => some '\t'
    | 'v' => some '\x0b'
    | _ => none

/-- The value that is written between quotes.  A backslash that escapes nothing stands for itself. -/
def unescape (quote : Char) : List Char → List Char
  | [] => []
  | '\\' :: c :: rest =>
    match escaped? quote c with
    | some d => d :: unescape quote rest
    | none => '\\' :: unescape quote (c :: rest)
  | c :: rest => c :: unescape quote rest

/-- What a line holds in front of a comment behind white space. -/
def uncommented : List Char → List Char
  | [] => []
  | c :: rest =>
    if isBlank c && (trimStart rest).head? == some '#' then [] else c :: uncommented rest

/-- Read the value behind an equals sign. -/
def readValue (text : List Char) : Reading String :=
  let bare := (String.ofList (trim (uncommented (lineRest text))), dropLineRest text)
  match skipGap text with
  | [] => .ok bare
  | c :: rest =>
    if c = '\'' ∨ c = '"' then
      match splitAtQuote? c rest with
      | some (value, behind) => .ok (.ofList (unescape c value), behind)
      | none => .error (c :: rest)
    else .ok bare

/-! ## Statements -/

/-- Read a statement that begins with the text. -/
def readStatement (text : List Char) : Except (List Char) (Option Setting × List Char) := do
  let (name, rest) ← readName (skipExport text)
  let (value, rest) ←
    match skipGap rest with
    | '=' :: rest => (readValue rest).map fun (value, rest) => (some value, rest)
    | rest => .ok (none, rest)
  let rest ← endLine rest
  return (name.map (⟨·, value⟩), rest)

/-- A statement. -/
inductive Statement where
  | names (setting : Setting)
  | comment
  /-- It cannot be read; the statement before it ended on this line. -/
  | unreadable (line : Nat)
deriving DecidableEq, Repr

namespace Statement

/-- The number of the line that the rest of a text begins on, if the text begins on `line`. -/
def lineOfRest (line : Nat) (text rest : List Char) : Nat :=
  line + (text.count '\n' - rest.count '\n')

/-- Read at most `bound` statements of a text that begins on this line. -/
def readFrom (line : Nat) (text : List Char) : Nat → List Statement
  | 0 => []
  | bound + 1 =>
    if (trimStart text).isEmpty then []
    else
      match readStatement (trimStart text) with
      | .ok (setting?, rest) =>
        (setting?.map Statement.names).getD .comment
          :: readFrom (lineOfRest line text rest) rest bound
      | .error place =>
        let rest := (dropLineRest place).drop 1
        .unreadable line :: readFrom (lineOfRest line text rest) rest bound

/-- The statements of a settings file.  A mark in front of the text is dropped. -/
def ofText (text : String) : List Statement :=
  let text := plainLineEnds text.toList
  let text := if text.head? == some '\uFEFF' then text.drop 1 else text
  readFrom 1 text text.length

/-- The variable that a statement names. -/
def setting? : Statement → Option Setting
  | .names setting => some setting
  | _ => none

/-- The line by which a statement is known that cannot be read. -/
def unreadableLine? : Statement → Option Nat
  | .unreadable line => some line
  | _ => none

end Statement

end AreaAtlas.Settings

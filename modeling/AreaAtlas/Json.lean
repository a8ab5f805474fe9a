import AreaAtlas.Number.Text
import AreaAtlas.Text.Quoted

/-!
# JSON documents

A JSON value keeps the order of its fields.  `Json.render` writes it with two spaces a level and in
ASCII: other characters are escaped by their UTF-16 code units.  Numbers of double precision are
written with the fewest digits that read back; the three values that are not finite have names, which
is a liberty with the format.
-/

namespace AreaAtlas

/-- A JSON value. -/
inductive Json where
  | null
  | bool (value : Bool)
  | integer (value : Int)
  | number (value : Binary64)
  | text (value : String)
  | array (items : List Json)
  | object (fields : List (String × Json))

namespace Json

/-- The escape of a UTF-16 code unit. -/
def escapeUnit (n : Nat) : List Char :=
  '\\' :: 'u' :: hexDigits 4 n

/-- A character as it stands in a JSON text. -/
def escapeChar (c : Char) : List Char :=
  let n := c.toNat
  if c = '"' then ['\\', '"']
  else if c = '\\' then ['\\', '\\']
  else if c = '\n' then ['\\', 'n']
  else if c = '\r' then ['\\', 'r']
  else if c = '\t' then ['\\', 't']
  else if n = 0x08 then ['\\', 'b']
  else if n = 0x0C then ['\\', 'f']
  else if 0x20 ≤ n ∧ n < 0x7F then [c]
  else if n < 0x10000 then escapeUnit n
  else
    escapeUnit (0xD800 + (n - 0x10000) / 0x400) ++ escapeUnit (0xDC00 + (n - 0x10000) % 0x400)

/-- A text between quotation marks. -/
def quote (s : String) : String :=
  String.ofList ('"' :: s.toList.flatMap escapeChar ++ ['"'])

/-- A number. -/
def numberText (x : Binary64) : String :=
  match x.shortestText? with
  | some digits => digits
  | none =>
    match x with
    | .infinite false => "Infinity"
    | .infinite true => "-Infinity"
    | _ => "NaN"

/-- A new line at this level. -/
def newLine (level : Nat) : String :=
  String.ofList ('\n' :: List.replicate (2 * level) ' ')

/-- Written items between brackets, each on a line of its own. -/
def bracket (left right : String) (level : Nat) (items : List String) : String :=
  if items.isEmpty then left ++ right
  else
    left ++ newLine (level + 1) ++ ("," ++ newLine (level + 1)).intercalate items ++ newLine level
      ++ right

mutual
/-- The text of a value whose first line is at this level. -/
def renderAt (level : Nat) : Json → String
  | .null => "null"
  | .bool value => if value then "true" else "false"
  | .integer value => toString value
  | .number value => numberText value
  | .text value => quote value
  | .array items => bracket "[" "]" level (renderItems (level + 1) items)
  | .object fields => bracket "\x7b" "\x7d" level (renderFields (level + 1) fields)

/-- The texts of the items of an array. -/
def renderItems (level : Nat) : List Json → List String
  | [] => []
  | item :: rest => renderAt level item :: renderItems level rest

/-- The texts of the fields of an object. -/
def renderFields (level : Nat) : List (String × Json) → List String
  | [] => []
  | (key, value) :: rest => (quote key ++ ": " ++ renderAt level value) :: renderFields level rest
end

/-- The text of a value. -/
def render (value : Json) : String :=
  renderAt 0 value

end Json

end AreaAtlas

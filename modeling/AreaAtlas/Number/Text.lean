import AreaAtlas.Number.Decimal
import AreaAtlas.Text.Character

/-!
# Numbers as text

`Binary64.read?` reads a number as it stands in a table: an optional sign, then digits of any script
with an optional point and exponent, single underscores between digits, or a name of infinity or NaN.
`Binary64.shortestText?` writes the fewest digits that read back, positional for magnitudes from
`10 ^ -4` to below `10 ^ 16`.  `Binary64.oneDecimal` writes the exact value to one place.
-/

namespace AreaAtlas

namespace Decimal

/-- The number that digits before and after a point write, times a power of ten. -/
def ofParts (negative : Bool) (whole places : List Nat) (exponent : Int) : Decimal :=
  ⟨negative, ofDigits (whole ++ places), exponent - places.length⟩

/-- The digits in front of a text and the text behind them. -/
def takeDigits (cs : List Char) : List Nat × List Char :=
  ((cs.takeWhile isDecimalDigit).filterMap digitValue?, cs.dropWhile isDecimalDigit)

/-- Take off a sign: whether it is a minus, and the text behind it. -/
def takeSign : List Char → Bool × List Char
  | '-' :: rest => (true, rest)
  | '+' :: rest => (false, rest)
  | rest => (false, rest)

/-- Read an exponent, which ends the text. -/
def readExponent? : List Char → Option Int
  | [] => some 0
  | c :: rest =>
    if c = 'e' ∨ c = 'E' then
      let (negative, rest) := takeSign rest
      match takeDigits rest with
      | ([], _) => none
      | (digits, []) => some (if negative then -(ofDigits digits : Int) else ofDigits digits)
      | _ => none
    else none

/-- Read an unsigned decimal number without underscores. -/
def readUnsigned? (negative : Bool) (cs : List Char) : Option Decimal :=
  let (whole, rest) := takeDigits cs
  let (places, rest) :=
    match rest with
    | '.' :: rest => takeDigits rest
    | _ => ([], rest)
  if whole.isEmpty && places.isEmpty then none
  else (readExponent? rest).map (ofParts negative whole places)

/-- Whether each underscore stands between two digits, `last` being the character in front. -/
def wellSeparated (last : Option Char) : List Char → Bool
  | [] => last != some '_'
  | c :: rest =>
    (if c = '_' then last.any isDecimalDigit else last != some '_' || isDecimalDigit c) &&
      wellSeparated (some c) rest

/-- Take the underscores out of a number; each has to stand between two digits. -/
def joinDigits? (cs : List Char) : Option (List Char) :=
  if wellSeparated none cs then some (cs.filter (· ≠ '_')) else none

end Decimal

namespace Binary64

/-- The names of the values that are not finite, in lower case. -/
def ofName? (negative : Bool) (cs : List Char) : Option Binary64 :=
  let name := String.ofList (cs.map Char.toLower)
  if name = "inf" ∨ name = "infinity" then some (.infinite negative)
  else if name = "nan" then some .nan
  else none

/-- Read a number, white space around it allowed. -/
def read? (text : List Char) : Option Binary64 := do
  let (negative, rest) := Decimal.takeSign (← Decimal.joinDigits? (trim text))
  ofName? negative rest <|> (Decimal.readUnsigned? negative rest).map Decimal.toBinary64

/-- An exponent with its sign and at least two digits. -/
def exponentText (exponent : Int) : String :=
  let digits := toString exponent.natAbs
  (if exponent < 0 then "-" else "+") ++ (if digits.length < 2 then "0" else "") ++ digits

/-- So many zeros. -/
def zeros (n : Int) : String :=
  String.ofList (List.replicate n.toNat '0')

/-- Whether a number whose first digit stands at this power of ten is written without an exponent. -/
def isPositional (exponent : Int) : Bool :=
  -4 ≤ exponent && exponent < 16

/-- The text of a decimal number without zeros at its back.  A whole number written without an
exponent keeps the place `.0`. -/
def decimalText (x : Decimal) : String :=
  let digits := toString x.digits
  let point := x.exponent + digits.length
  let unsigned :=
    if x.digits = 0 then "0.0"
    else if isPositional (point - 1) then
      if point ≤ 0 then "0." ++ zeros (-point) ++ digits
      else if digits.length ≤ point then digits ++ zeros (point - digits.length) ++ ".0"
      else
        String.ofList (digits.toList.take point.toNat) ++ "."
          ++ String.ofList (digits.toList.drop point.toNat)
    else
      let places := String.ofList (digits.toList.drop 1)
      String.ofList (digits.toList.take 1) ++ (if places.isEmpty then "" else "." ++ places) ++ "e"
        ++ exponentText (point - 1)
  if x.negative then "-" ++ unsigned else unsigned

/-- The fewest digits that read back as the number, where it is finite. -/
def shortestText? : Binary64 → Option String
  | .finite negative exponent fraction => some (decimalText (Decimal.shortest negative exponent fraction))
  | _ => none

/-- A number to one decimal place, exactly rounded, the even digit of two that are equally near.  The
sign is kept even if only zeros are left. -/
def oneDecimal : Binary64 → String
  | .nan => "nan"
  | .infinite negative => if negative then "-inf" else "inf"
  | .finite negative exponent fraction =>
    let tenths := roundHalfEven
      (10 * (Binary.significand exponent fraction * Binary.unit exponent)) (Binary.resolution 11 52)
    (if negative then "-" else "") ++ toString (tenths / 10) ++ "." ++ toString (tenths % 10)

end Binary64

end AreaAtlas

import AreaAtlas.Number.Binary

/-!
# Decimal numbers

A decimal number is a sign, a whole number and a power of ten.  This module rounds one to a binary
number, and finds the shortest decimal number that rounds to a given binary one: of the decimal
numbers with the fewest digits, the nearest, and of two that are equally near the even one.
-/

namespace AreaAtlas

/-- The number `± digits · 10 ^ exponent`. -/
structure Decimal where
  negative : Bool
  digits : Nat
  exponent : Int
deriving DecidableEq, Repr

namespace Decimal

/-- How many digits a number is written with, zero with none. -/
def digitCount (n : Nat) : Nat :=
  if n = 0 then 0 else (Nat.toDigits 10 n).length

/-- A power of ten as a numerator and a denominator. -/
def tenPower (exponent : Int) : Nat × Nat :=
  if 0 ≤ exponent then (Nat.pow 10 exponent.toNat, 1) else (1, Nat.pow 10 (-exponent).toNat)

/-- The decimal exponents between which a number of double precision is neither zero nor infinite. -/
def leastScale : Int := -400

@[inherit_doc leastScale]
def greatestScale : Int := 400

/-- The number of double precision nearest to a decimal number.  Numbers of a size that is far out of
range are not computed: they round to zero and to infinity. -/
def toBinary64 (x : Decimal) : Binary64 :=
  let scale := x.exponent + digitCount x.digits
  if x.digits = 0 ∨ scale < leastScale then Binary.ofPlace x.negative 0
  else if greatestScale < scale then .infinite x.negative
  else
    let (numerator, denominator) := tenPower x.exponent
    Binary.ofRatio x.negative (x.digits * numerator) denominator

/-- The exponent of the power of ten not above a positive ratio, ten times which is above it. -/
def leadingExponent (n d : Nat) : Int :=
  if d ≤ n then (digitCount (n / d) : Int) - 1 else -(digitCount ((d - 1) / n) : Int)

/-- The numbers that round to a given one: an interval about it, all three with one denominator, and
whether its ends belong to it. -/
structure Rounding where
  low : Nat
  value : Nat
  high : Nat
  denominator : Nat
  closed : Bool

/-- The interval of the magnitudes that round to a finite number.  Below a power of two the next
smaller number is only half as far away as the next greater one. -/
def Rounding.of (exponent : Fin (Nat.pow 2 11 - 1)) (fraction : Fin (Nat.pow 2 52)) : Rounding :=
  let m := Binary.significand exponent fraction
  let u := Binary.unit exponent
  let below := if fraction.val = 0 ∧ 1 < exponent.val then 1 else 2
  ⟨(4 * m - below) * u, 4 * m * u, (4 * m + 2) * u, 4 * Binary.resolution 11 52, m % 2 == 0⟩

/-- Whether a ratio lies in the interval. -/
def Rounding.holds (r : Rounding) (n d : Nat) : Bool :=
  let x := n * r.denominator
  if r.closed then r.low * d ≤ x && x ≤ r.high * d else r.low * d < x && x < r.high * d

/-- Of the multiples of `10 ^ exponent` in the interval, the nearest to its value, if there is one.
Only the two multiples next to the value need a look. -/
def Rounding.nearest? (r : Rounding) (exponent : Int) : Option Nat :=
  let (numerator, denominator) := tenPower exponent
  let unit := numerator * r.denominator
  let scaled := r.value * denominator
  let c := scaled / unit
  match r.holds (c * numerator) denominator, r.holds ((c + 1) * numerator) denominator with
  | true, true => some (roundHalfEven scaled unit)
  | true, false => some c
  | false, true => some (c + 1)
  | false, false => none

/-- The whole number and exponent without the zeros at the back, at most `fuel` of them. -/
def dropZeros : Nat → Nat → Int → Nat × Int
  | 0, n, k => (n, k)
  | fuel + 1, n, k => if n % 10 = 0 then dropZeros fuel (n / 10) (k + 1) else (n, k)

/-- Seventeen digits tell any two numbers of double precision apart. -/
def maxDigits : Nat := 17

/-- The shortest decimal number that rounds to a finite number. -/
def shortest (negative : Bool) (exponent : Fin (Nat.pow 2 11 - 1)) (fraction : Fin (Nat.pow 2 52)) :
    Decimal :=
  if exponent.val = 0 ∧ fraction.val = 0 then ⟨negative, 0, 0⟩
  else
    let r := Rounding.of exponent fraction
    let lead := leadingExponent r.value r.denominator
    let found := (List.range maxDigits).findSome? fun (i : Nat) =>
      (r.nearest? (lead - i)).map fun c => dropZeros maxDigits c (lead - i)
    let (digits, k) := found.getD (0, 0)
    ⟨negative, digits, k⟩

end Decimal

end AreaAtlas

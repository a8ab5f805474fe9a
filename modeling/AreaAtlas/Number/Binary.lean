/-!
# Binary floating point numbers

Coordinates are binary floating point numbers of double precision; on the map they are kept in single
precision.  Both are the type `Binary e f`, with `e` exponent bits and `f` fraction bits.  The fields
are bounded, so each finite value has one representation; all NaNs are one value.

The magnitudes of a format form one increasing sequence, and the two fields of a finite number, read as
one number, are its place in that sequence.  Rounding therefore finds the place: a rounding up that
carries into the exponent, or beyond the largest number into infinity, needs no case of its own.
-/

namespace AreaAtlas

/-- A binary floating point number with `e` exponent bits and `f` fraction bits. -/
inductive Binary (e f : Nat) where
  | nan
  | infinite (negative : Bool)
  | finite (negative : Bool) (exponent : Fin (Nat.pow 2 e - 1)) (fraction : Fin (Nat.pow 2 f))
deriving DecidableEq

/-- Double precision. -/
abbrev Binary64 := Binary 11 52

/-- Single precision. -/
abbrev Binary32 := Binary 8 23

/-- The whole number nearest to `n / d`, the even one of two that are equally near. -/
def roundHalfEven (n d : Nat) : Nat :=
  let q := n / d
  let r := n % d
  if 2 * r < d then q else if d < 2 * r then q + 1 else q + q % 2

namespace Binary

variable {e f : Nat}

/-- The exponent field of the numbers from one up to two. -/
def bias (e : Nat) : Nat := Nat.pow 2 (e - 1) - 1

/-- The number at a place in the sequence of magnitudes; beyond the last one, infinity. -/
def ofPlace (negative : Bool) (place : Nat) : Binary e f :=
  if h : place / Nat.pow 2 f < Nat.pow 2 e - 1 then
    .finite negative ⟨place / Nat.pow 2 f, h⟩
      ⟨place % Nat.pow 2 f, Nat.mod_lt _ (Nat.two_pow_pos f)⟩
  else .infinite negative

/-- The number of units in the last place that a finite number has. -/
def significand (exponent : Fin (Nat.pow 2 e - 1)) (fraction : Fin (Nat.pow 2 f)) : Nat :=
  if exponent.val = 0 then fraction.val else Nat.pow 2 f + fraction.val

/-- The unit in the last place, as a multiple of the least positive number. -/
def unit (exponent : Fin (Nat.pow 2 e - 1)) : Nat := Nat.pow 2 (exponent.val - 1)

/-- The reciprocal of the least positive number of a format. -/
def resolution (e f : Nat) : Nat := Nat.pow 2 (bias e + f - 1)

/-- The exponent field of a positive ratio before rounding, at least one. -/
def ratioExponent (e n d : Nat) : Nat :=
  max 1 (if d ≤ n then bias e + Nat.log2 (n / d) else bias e - (Nat.log2 ((d - 1) / n) + 1))

/-- The number nearest to `n / d`, the even one of two that are equally near. -/
def ofRatio (negative : Bool) (n d : Nat) : Binary e f :=
  if n = 0 then ofPlace negative 0
  else
    let exponent := ratioExponent e n d
    ofPlace negative ((exponent - 1) * Nat.pow 2 f +
      roundHalfEven (n * resolution e f) (d * Nat.pow 2 (exponent - 1)))

/-- A number of one format in another, rounded. -/
def convert {e' f' : Nat} : Binary e f → Binary e' f'
  | .nan => .nan
  | .infinite negative => .infinite negative
  | .finite negative exponent fraction =>
    ofRatio negative (significand exponent fraction * unit exponent) (resolution e f)

/-- The number that a bit pattern stands for: sign, exponent and fraction, the sign foremost. -/
def ofBits (bits : Nat) : Binary e f :=
  let negative := bits / Nat.pow 2 (e + f) % 2 == 1
  let place := bits % Nat.pow 2 (e + f)
  if place / Nat.pow 2 f = Nat.pow 2 e - 1 ∧ place % Nat.pow 2 f ≠ 0 then .nan else ofPlace negative place

/-- The bit pattern of a number; of NaN the positive quiet one without further payload. -/
def toBits : Binary e f → Nat
  | .nan => (Nat.pow 2 e - 1) * Nat.pow 2 f + Nat.pow 2 (f - 1)
  | .infinite negative => negative.toNat * Nat.pow 2 (e + f) + (Nat.pow 2 e - 1) * Nat.pow 2 f
  | .finite negative exponent fraction =>
    negative.toNat * Nat.pow 2 (e + f) + exponent.val * Nat.pow 2 f + fraction.val

/-- Whether a number is neither NaN nor an infinity. -/
def isFinite : Binary e f → Bool
  | .finite .. => true
  | _ => false

end Binary

/-- A number of double precision rounded to single precision. -/
def Binary64.toSingle (x : Binary64) : Binary64 :=
  (x.convert : Binary32).convert

end AreaAtlas

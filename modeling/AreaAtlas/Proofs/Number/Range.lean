import AreaAtlas.Number.Text
import AreaAtlas.Proofs.Number.Narrowing
import Mathlib.Algebra.Order.Field.Rat
import Mathlib.Algebra.Order.Field.Power
import Mathlib.Data.Option.Basic
import Mathlib.Tactic.FieldSimp
import Mathlib.Tactic.NormNum

/-!
# Which texts are numbers of single precision

A text that is read as a number writes a decimal number or names a value that is not finite.
`Binary64.isFinite_toSingle_iff_of_read?` is the main statement: in single precision such a text is finite exactly
if it writes a decimal number of less than `Binary64.singleLimit`.
-/

namespace AreaAtlas

namespace Decimal

/-! ## Decimal numbers -/

/-- The size of a decimal number. -/
def magnitude (x : Decimal) : ℚ := x.digits * 10 ^ x.exponent

theorem tenPower_spec (exponent : Int) :
    0 < (tenPower exponent).2 ∧ (10 : ℚ) ^ exponent = (tenPower exponent).1 / (tenPower exponent).2 := by
  unfold tenPower
  split_ifs with h
  · obtain ⟨n, rfl⟩ := Int.eq_ofNat_of_zero_le h
    refine ⟨Nat.one_pos, ?_⟩
    show (10 : ℚ) ^ (n : ℤ) = ((10 ^ n : ℕ) : ℚ) / ((1 : ℕ) : ℚ)
    rw [zpow_natCast, Nat.cast_one, div_one, Nat.cast_pow]
    rfl
  · obtain ⟨n, rfl⟩ : ∃ n : ℕ, exponent = -n := ⟨(-exponent).toNat, by omega⟩
    rw [Int.neg_neg, Int.toNat_natCast]
    refine ⟨Nat.pow_pos (by omega), ?_⟩
    show (10 : ℚ) ^ (-(n : ℤ)) = ((1 : ℕ) : ℚ) / ((10 ^ n : ℕ) : ℚ)
    rw [zpow_neg, zpow_natCast, Nat.cast_one, one_div, Nat.cast_pow]
    rfl

theorem lt_pow_digitCount (n : Nat) : n < 10 ^ digitCount n := by
  unfold digitCount
  split_ifs with h
  · omega
  · exact (Nat.length_toDigits_le_iff (by omega) Nat.length_toDigits_pos).mp le_rfl

theorem pow_digitCount_le {n : Nat} (h : n ≠ 0) : 10 ^ (digitCount n - 1) ≤ n := by
  unfold digitCount
  rw [if_neg h]
  by_contra hlt
  rcases Nat.eq_zero_or_pos ((Nat.toDigits 10 n).length - 1) with hzero | hpos
  · rw [hzero] at hlt
    omega
  · have := (Nat.length_toDigits_le_iff (by omega) hpos).mpr (Nat.not_le.mp hlt)
    omega

theorem magnitude_lt_iff {x : Decimal} (bound : Nat) : x.magnitude < bound ↔
    x.digits * (tenPower x.exponent).1 < (tenPower x.exponent).2 * bound := by
  obtain ⟨hpos, hpow⟩ := tenPower_spec x.exponent
  have hden : (0 : ℚ) < (tenPower x.exponent).2 := Nat.cast_pos.mpr hpos
  unfold magnitude
  rw [hpow, ← mul_div_assoc, div_lt_iff₀ hden, mul_comm (bound : ℚ)]
  exact_mod_cast Iff.rfl

/-- A decimal number is below the power of ten that its digits stay below. -/
theorem magnitude_lt (x : Decimal) : x.magnitude < 10 ^ (x.exponent + digitCount x.digits) := by
  have hdigits : (x.digits : ℚ) < 10 ^ digitCount x.digits := by
    exact_mod_cast lt_pow_digitCount x.digits
  unfold magnitude
  rw [add_comm, zpow_add₀ (by norm_num), zpow_natCast]
  exact mul_lt_mul_of_pos_right hdigits (by positivity)

theorem le_magnitude {x : Decimal} (h : x.digits ≠ 0) :
    10 ^ (x.exponent + digitCount x.digits - 1) ≤ x.magnitude := by
  have hcount : 0 < digitCount x.digits := by
    unfold digitCount
    rw [if_neg h]
    exact Nat.length_toDigits_pos
  have hdigits : (10 : ℚ) ^ (digitCount x.digits - 1) ≤ x.digits := by
    exact_mod_cast pow_digitCount_le h
  have hexponent : x.exponent + digitCount x.digits - 1 = (digitCount x.digits - 1 : ℕ) + x.exponent := by
    omega
  unfold magnitude
  rw [hexponent, zpow_add₀ (by norm_num), zpow_natCast]
  exact mul_le_mul_of_nonneg_right hdigits (by positivity)

/-- **Which decimal numbers are finite in single precision.**  The numbers that are not computed are far to
either side of the limit. -/
theorem isFinite_toSingle_toBinary64_iff (x : Decimal) :
    x.toBinary64.toSingle.isFinite = true ↔ x.magnitude < Binary64.singleLimit := by
  unfold toBinary64
  dsimp only
  split_ifs with hsmall hlarge
  · refine iff_of_true ?_ ?_
    · exact (Binary64.isFinite_toSingle_ofRatio_iff Nat.one_pos (n := 0)).mpr (by decide)
    · have hone : (1 : ℚ) ≤ Binary64.singleLimit := by exact_mod_cast (by decide : 1 ≤ Binary64.singleLimit)
      refine lt_of_lt_of_le ?_ hone
      rcases hsmall with hzero | hscale
      · unfold magnitude
        rw [hzero, Nat.cast_zero, zero_mul]
        exact zero_lt_one
      · calc x.magnitude < 10 ^ (x.exponent + digitCount x.digits) := magnitude_lt x
          _ ≤ 10 ^ (0 : ℤ) := zpow_le_zpow_right₀ (by norm_num) (hscale.trans (by decide)).le
          _ = 1 := zpow_zero _
  · refine iff_of_false Bool.false_ne_true (not_lt.mpr ?_)
    have hdigits : x.digits ≠ 0 := fun hzero => hsmall (Or.inl hzero)
    have hscale : (39 : ℤ) ≤ x.exponent + digitCount x.digits - 1 := by
      unfold greatestScale at hlarge
      omega
    calc (Binary64.singleLimit : ℚ) ≤ 10 ^ (39 : ℤ) := by
          exact_mod_cast (by decide : Binary64.singleLimit ≤ 10 ^ 39)
      _ ≤ 10 ^ (x.exponent + digitCount x.digits - 1) := zpow_le_zpow_right₀ (by norm_num) hscale
      _ ≤ x.magnitude := le_magnitude hdigits
  · rw [magnitude_lt_iff]
    exact Binary64.isFinite_toSingle_ofRatio_iff (tenPower_spec x.exponent).1

/-! ## Texts -/

/-- The decimal number that a text writes, white space around it allowed. -/
def read? (text : List Char) : Option Decimal := do
  let (negative, rest) := takeSign (← joinDigits? (trim text))
  readUnsigned? negative rest

theorem readUnsigned?_cons_eq_none {negative : Bool} {c : Char} {rest : List Char}
    (hdigit : isDecimalDigit c = false) (hpoint : c ≠ '.') :
    readUnsigned? negative (c :: rest) = none := by
  have htake : takeDigits (c :: rest) = ([], c :: rest) := by
    simp [takeDigits, hdigit]
  unfold readUnsigned?
  rw [htake]
  dsimp only
  split
  · next h => exact absurd (List.cons.inj h).1 hpoint
  · rfl

end Decimal

/-- Capital letters are no digits. -/
theorem toLower_of_isDecimalDigit {c : Char} (h : isDecimalDigit c = true) : c.toLower = c := by
  obtain ⟨v, hv⟩ := Option.isSome_iff_exists.mp h
  obtain ⟨first, hfirst, -⟩ := Option.map_eq_some_iff.mp hv
  have hrange := List.find?_some hfirst
  have havoid : ∀ first ∈ digitZeros, first + 10 ≤ 'A'.toNat ∨ 'Z'.toNat < first := by decide
  have hcase := havoid first (List.mem_of_find?_eq_some hfirst)
  rw [Bool.and_eq_true, decide_eq_true_iff, decide_eq_true_iff] at hrange
  refine dif_neg ?_
  rintro ⟨hlow, hhigh⟩
  have hlow : 'A'.toNat ≤ c.toNat := UInt32.le_iff_toNat_le.mp hlow
  have hhigh : c.toNat ≤ 'Z'.toNat := UInt32.le_iff_toNat_le.mp hhigh
  omega

namespace Binary64

theorem exists_cons_of_lowered {cs : List Char} {name : String} (first : Char)
    (h : String.ofList (cs.map Char.toLower) = name) (hfirst : name.toList.head? = some first) :
    ∃ c rest, cs = c :: rest ∧ c.toLower = first := by
  rw [← h, String.toList_ofList, List.head?_map] at hfirst
  obtain ⟨c, hc, hlower⟩ := Option.map_eq_some_iff.mp hfirst
  obtain ⟨rest, rfl⟩ := List.head?_eq_some_iff.mp hc
  exact ⟨c, rest, rfl, hlower⟩

/-- A name of a value that is not finite does not begin as a decimal number does. -/
theorem of_ofName?_eq_some {negative : Bool} {cs : List Char} {x : Binary64}
    (h : ofName? negative cs = some x) :
    x.toSingle.isFinite = false ∧ Decimal.readUnsigned? negative cs = none := by
  have hfirst : x.toSingle.isFinite = false ∧
      ∃ c rest, cs = c :: rest ∧ (c.toLower = 'i' ∨ c.toLower = 'n') := by
    unfold ofName? at h
    dsimp only at h
    split_ifs at h with hinfinite hnan
    · cases h
      refine ⟨rfl, ?_⟩
      rcases hinfinite with hname | hname
      · obtain ⟨c, rest, hcs, hc⟩ := exists_cons_of_lowered 'i' hname rfl
        exact ⟨c, rest, hcs, Or.inl hc⟩
      · obtain ⟨c, rest, hcs, hc⟩ := exists_cons_of_lowered 'i' hname rfl
        exact ⟨c, rest, hcs, Or.inl hc⟩
    · cases h
      obtain ⟨c, rest, hcs, hc⟩ := exists_cons_of_lowered 'n' hnan rfl
      exact ⟨rfl, c, rest, hcs, Or.inr hc⟩
  obtain ⟨hx, c, rest, rfl, hc⟩ := hfirst
  refine ⟨hx, Decimal.readUnsigned?_cons_eq_none ?_ ?_⟩
  · refine Bool.eq_false_iff.mpr fun hdigit => ?_
    rw [toLower_of_isDecimalDigit hdigit] at hc
    rcases hc with rfl | rfl
    · exact absurd hdigit (by decide)
    · exact absurd hdigit (by decide)
  · rintro rfl
    revert hc
    decide

/-- The text writes a decimal number that is finite in single precision. -/
def WritesSingle (text : List Char) : Prop :=
  ∃ d, Decimal.read? text = some d ∧ d.magnitude < singleLimit

/-- **Which texts are finite in single precision**, of those that are read as numbers. -/
theorem isFinite_toSingle_iff_of_read? {text : List Char} {x : Binary64} (h : read? text = some x) :
    x.toSingle.isFinite = true ↔ WritesSingle text := by
  obtain ⟨joined, hjoined, h⟩ := Option.bind_eq_some_iff.mp h
  have hdecimal : Decimal.read? text
      = Decimal.readUnsigned? (Decimal.takeSign joined).1 (Decimal.takeSign joined).2 := by
    unfold Decimal.read?
    rw [hjoined]
    rfl
  unfold WritesSingle
  rw [hdecimal]
  generalize Decimal.takeSign joined = signed at h
  obtain ⟨negative, rest⟩ := signed
  dsimp only at h ⊢
  rcases (Option.orElse_eq_some _ _ _).mp h with hname | ⟨-, hnumber⟩
  · obtain ⟨hx, hnone⟩ := of_ofName?_eq_some hname
    rw [hx, hnone]
    simp
  · obtain ⟨d, hd, rfl⟩ := Option.map_eq_some_iff.mp hnumber
    rw [hd, Decimal.isFinite_toSingle_toBinary64_iff]
    simp

end Binary64

end AreaAtlas

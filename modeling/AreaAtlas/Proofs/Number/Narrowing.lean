import AreaAtlas.Proofs.Number.Rounding

/-!
# Rounding twice

A coordinate is rounded to double precision when it is read, and to single precision on the map.  What the first
rounding lifts to the midpoint behind the largest single is infinite after the second.
`Binary.isFinite_convert_ofRatio_iff` is the main statement, for any two formats: it says which ratios are finite
after both.  `Binary64.isFinite_toSingle_ofRatio_iff` says so of coordinates.
-/

namespace AreaAtlas

namespace Binary

variable {e f : Nat}

/-! ## Finite numbers -/

section Finite

variable {exponent : Fin (Nat.pow 2 e - 1)} {fraction : Fin (Nat.pow 2 f)}

theorem significand_lt : significand exponent fraction < 2 ^ (f + 1) := by
  have hfraction : fraction.val < 2 ^ f := fraction.isLt
  have hpow : Nat.pow 2 f = 2 ^ f := rfl
  rw [Nat.pow_succ]
  unfold significand
  split_ifs <;> omega

theorem le_significand : exponent.val - 1 = 0 ∨ 2 ^ f ≤ significand exponent fraction := by
  have hpow : Nat.pow 2 f = 2 ^ f := rfl
  unfold significand
  split_ifs <;> omega

/-- The two fields, read as one number, in terms of the significand. -/
theorem fields_eq : exponent.val * 2 ^ f + fraction.val
    = (exponent.val - 1) * 2 ^ f + significand exponent fraction := by
  unfold significand
  split_ifs with h
  · rw [h]
  · obtain ⟨j, hj⟩ : ∃ j, exponent.val = j + 1 := ⟨exponent.val - 1, by omega⟩
    rw [hj, Nat.add_sub_cancel, Nat.succ_mul]
    exact Nat.add_assoc _ _ _

/-- Magnitudes are ordered as their places are. -/
theorem magnitude_lt_iff {k q : Nat} (hlow : 2 ^ f < q) (hhigh : q ≤ 2 ^ (f + 1)) :
    significand exponent fraction * unit exponent < q * 2 ^ k ↔
      exponent.val * 2 ^ f + fraction.val < k * 2 ^ f + q := by
  have hlt : significand exponent fraction < 2 ^ (f + 1) := significand_lt
  have hle : exponent.val - 1 = 0 ∨ 2 ^ f ≤ significand exponent fraction := le_significand
  rw [fields_eq]
  show _ * 2 ^ (exponent.val - 1) < _ ↔ _
  generalize exponent.val - 1 = j at hle
  generalize significand exponent fraction = s at hlt hle
  rcases Nat.lt_trichotomy j k with hjk | rfl | hkj
  · refine iff_of_true ?_ (place_lt_of_lt hlt.le hlow hjk)
    calc s * 2 ^ j < 2 ^ (f + 1) * 2 ^ j := Nat.mul_lt_mul_of_pos_right hlt (Nat.two_pow_pos j)
      _ = 2 ^ f * 2 ^ (j + 1) := by ring
      _ ≤ q * 2 ^ k := Nat.mul_le_mul hlow.le (Nat.pow_le_pow_right (by omega) hjk)
  · rw [Nat.mul_lt_mul_right (Nat.two_pow_pos j), Nat.add_lt_add_iff_left]
  · have hs : 2 ^ f ≤ s := hle.resolve_left (by omega)
    refine iff_of_false (Nat.not_lt.mpr ?_) (Nat.not_lt.mpr (place_le_of_lt hs hhigh hkj))
    calc q * 2 ^ k ≤ 2 ^ (f + 1) * 2 ^ k := Nat.mul_le_mul_right _ hhigh
      _ = 2 ^ f * 2 ^ (k + 1) := by ring
      _ ≤ s * 2 ^ j := Nat.mul_le_mul hs (Nat.pow_le_pow_right (by omega) hkj)

/-- No finite number reaches the power of two behind the largest one. -/
theorem magnitude_lt (he : 2 ≤ e) : significand exponent fraction * unit exponent
    < 2 ^ (bias e + 1) * resolution e f := by
  obtain ⟨b, hb⟩ := exists_bias_eq he
  have hexponent : exponent.val - 1 ≤ 2 * b + 1 := by
    have hlt : exponent.val < 2 ^ e - 1 := exponent.isLt
    rw [two_pow_eq_of_bias he hb] at hlt
    omega
  have hunit : unit exponent ≤ 2 ^ (2 * b + 1) := Nat.pow_le_pow_right (by omega) hexponent
  calc significand exponent fraction * unit exponent < 2 ^ (f + 1) * 2 ^ (2 * b + 1) :=
        Nat.mul_lt_mul_of_lt_of_le significand_lt hunit (Nat.two_pow_pos _)
    _ = 2 ^ (bias e + 1) * resolution e f := by
      rw [resolution_eq_of_bias hb, hb]
      ring

end Finite

/-! ## Other formats -/

section Convert

variable {e' f' : Nat}

/-- A format with a wider range holds all finite numbers. -/
theorem isFinite_convert_of_bias_lt (he : 2 ≤ e) (he' : 2 ≤ e') (h : bias e < bias e') (x : Binary e f) :
    (x.convert : Binary e' f').isFinite = x.isFinite := by
  cases x with
  | nan => rfl
  | infinite negative => rfl
  | finite negative exponent fraction =>
    show (ofRatio negative _ _ : Binary e' f').isFinite = true
    have hpos : 0 < 2 ^ f' := Nat.two_pow_pos f'
    rw [isFinite_ofRatio_iff he' resolution_pos]
    calc significand exponent fraction * unit exponent * 2 ^ (f' + 1)
        < 2 ^ (bias e + 1) * resolution e f * 2 ^ (f' + 1) :=
          Nat.mul_lt_mul_of_pos_right (magnitude_lt he) (Nat.two_pow_pos _)
      _ = resolution e f * 2 ^ (bias e + 1) * 2 ^ (f' + 1) := by ring
      _ ≤ resolution e f * 2 ^ bias e' * (2 ^ (f' + 2) - 1) := by
        refine Nat.mul_le_mul (Nat.mul_le_mul_left _ (Nat.pow_le_pow_right (by omega) h)) ?_
        rw [Nat.pow_succ, Nat.pow_succ, Nat.pow_succ]
        omega

/-- The midpoint behind the largest significand of `f' + 1` bits, in units of which there are `2 ^ g` to a half
of the last place. -/
theorem midpoint_spec (f' g : Nat) : 2 ^ (f' + 1 + g) < (2 ^ (f' + 2) - 1) * 2 ^ g ∧
    (2 ^ (f' + 2) - 1) * 2 ^ g ≤ 2 ^ (f' + 1 + g + 1) := by
  have hpos : 0 < 2 ^ f' := Nat.two_pow_pos f'
  constructor
  · calc 2 ^ (f' + 1 + g) = 2 ^ (f' + 1) * 2 ^ g := Nat.pow_add _ _ _
      _ < (2 ^ (f' + 2) - 1) * 2 ^ g := by
        refine Nat.mul_lt_mul_of_pos_right ?_ (Nat.two_pow_pos g)
        rw [Nat.pow_succ, Nat.pow_succ, Nat.pow_succ]
        omega
  · calc (2 ^ (f' + 2) - 1) * 2 ^ g ≤ 2 ^ (f' + 2) * 2 ^ g := Nat.mul_le_mul_right _ (Nat.sub_le _ _)
      _ = 2 ^ (f' + 1 + g + 1) := by ring

/-- **Which places stay finite in a narrower format**: those in front of the midpoint between its largest
number and the power of two behind that, which is a number of the wider format and an even place. -/
theorem isFinite_convert_ofPlace_iff {negative : Bool} {place : Nat} (he : 2 ≤ e) (he' : 2 ≤ e')
    (hf : f' + 2 ≤ f) (h : bias e' < bias e) :
    ((ofPlace negative place : Binary e f).convert : Binary e' f').isFinite = true ↔
      place < (bias e + bias e' - 1) * 2 ^ f + (2 ^ (f' + 2) - 1) * 2 ^ (f - f' - 1) := by
  obtain ⟨b, hb⟩ := exists_bias_eq he
  obtain ⟨g, rfl⟩ : ∃ g, f = f' + 1 + g := ⟨f - f' - 1, by omega⟩
  obtain ⟨hlow, hhigh⟩ := midpoint_spec f' g
  have hk : bias e + bias e' - 1 = b + bias e' := by omega
  rw [show f' + 1 + g - f' - 1 = g by omega, hk]
  generalize hq : (2 ^ (f' + 2) - 1) * 2 ^ g = q at hlow hhigh
  by_cases hplace : place < (2 ^ e - 1) * 2 ^ (f' + 1 + g)
  · obtain ⟨exponent, fraction, hfinite, rfl⟩ := ofPlace_eq negative hplace
    rw [hfinite, ← magnitude_lt_iff hlow hhigh]
    show (ofRatio negative _ _ : Binary e' f').isFinite = true ↔ _
    have hscaled : resolution e (f' + 1 + g) * 2 ^ bias e' * (2 ^ (f' + 2) - 1)
        = q * 2 ^ (b + bias e') * 2 ^ (f' + 1) := by
      rw [resolution_eq_of_bias hb, ← hq]
      ring
    rw [isFinite_ofRatio_iff he' resolution_pos, hscaled, Nat.mul_lt_mul_right (Nat.two_pow_pos _)]
  · rw [ofPlace_of_le (Nat.not_lt.mp hplace)]
    refine iff_of_false Bool.false_ne_true (Nat.not_lt.mpr ?_)
    have hle : (b + bias e' + 2) * 2 ^ (f' + 1 + g) ≤ (2 ^ e - 1) * 2 ^ (f' + 1 + g) := by
      refine Nat.mul_le_mul_right _ ?_
      rw [two_pow_eq_of_bias he hb]
      omega
    rw [Nat.add_mul] at hle
    rw [Nat.pow_succ] at hhigh
    omega

/-- **Which ratios stay finite in a narrower format** after they were rounded to a wider one: those that are below
the midpoint between the largest number of the narrower format and the power of two behind it, by more than
half of a last place of the wider format. -/
theorem isFinite_convert_ofRatio_iff {negative : Bool} {n d : Nat} (he : 2 ≤ e) (he' : 2 ≤ e')
    (hf : f' + 2 ≤ f) (h : bias e' < bias e) (hd : 0 < d) :
    ((ofRatio negative n d : Binary e f).convert : Binary e' f').isFinite = true ↔
      n * 2 ^ (f + 1) < d * 2 ^ bias e' * ((2 ^ (f' + 2) - 1) * 2 ^ (f - f') - 1) := by
  obtain ⟨b, hb⟩ := exists_bias_eq he
  obtain ⟨g, rfl⟩ : ∃ g, f = f' + 1 + (g + 1) := ⟨f - f' - 2, by omega⟩
  obtain ⟨hlow, hhigh⟩ := midpoint_spec f' (g + 1)
  have heven : (2 ^ (f' + 2) - 1) * 2 ^ (g + 1) % 2 = 0 := by
    rw [Nat.pow_succ 2 g, ← Nat.mul_assoc, Nat.mul_mod_left]
  have hq : (2 ^ (f' + 2) - 1) * 2 ^ (f' + 1 + (g + 1) - f')
      = 2 * ((2 ^ (f' + 2) - 1) * 2 ^ (g + 1)) := by
    rw [show f' + 1 + (g + 1) - f' = g + 2 by omega]
    ring
  rw [hq]
  rcases Nat.eq_zero_or_pos n with rfl | hn
  · refine iff_of_true ?_ ?_
    · rw [ofRatio_zero, isFinite_convert_ofPlace_iff he he' hf h,
        show f' + 1 + (g + 1) - f' - 1 = g + 1 by omega]
      omega
    · rw [Nat.zero_mul]
      exact Nat.mul_pos (Nat.mul_pos hd (Nat.two_pow_pos _)) (by omega)
  · rw [ofRatio_of_pos hn, isFinite_convert_ofPlace_iff he he' hf h,
      show f' + 1 + (g + 1) - f' - 1 = g + 1 by omega, roundedPlace_lt_iff he hn hd hlow hhigh heven,
      resolution_eq_of_bias hb]
    generalize 2 * ((2 ^ (f' + 2) - 1) * 2 ^ (g + 1)) - 1 = q
    have hleft : 2 * (n * 2 ^ (b + (f' + 1 + (g + 1)))) = n * 2 ^ (f' + 1 + (g + 1) + 1) * 2 ^ b := by ring
    have hright : d * 2 ^ (bias e + bias e' - 1) * q = d * 2 ^ bias e' * q * 2 ^ b := by
      rw [show bias e + bias e' - 1 = b + bias e' by omega]
      ring
    rw [hleft, hright, Nat.mul_lt_mul_right (Nat.two_pow_pos b)]

end Convert

end Binary

namespace Binary64

open Binary

/-- The least ratio that is rounded to infinity if it is rounded to double precision first and to single
precision then. -/
def singleLimit : Nat := 2 ^ 128 - 2 ^ 103 - 2 ^ 74

theorem isFinite_toSingle (x : Binary64) : x.toSingle.isFinite = (x.convert : Binary32).isFinite :=
  isFinite_convert_of_bias_lt (by decide) (by decide) (by decide) _

theorem isFinite_toSingle_ofRatio_iff {negative : Bool} {n d : Nat} (hd : 0 < d) :
    (toSingle (ofRatio negative n d)).isFinite = true ↔ n < d * singleLimit := by
  have hbias : bias 8 = 127 := rfl
  rw [isFinite_toSingle,
    isFinite_convert_ofRatio_iff (by decide) (by decide) (by decide) (by decide) hd, hbias, singleLimit]
  omega

end Binary64

end AreaAtlas

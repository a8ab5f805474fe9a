import AreaAtlas.Number.Binary
import Mathlib.Tactic.Ring

/-!
# How far rounding reaches

A ratio is rounded to a place in the sequence of magnitudes, and behind the last of them there is infinity.
`Binary.roundedPlace_lt_iff` says which ratios stay in front of a place.  From it follows which stay finite, in
`Binary.isFinite_ofRatio_iff`.
-/

namespace AreaAtlas

/-! ## Whole numbers -/

section Whole

variable {n d q : Nat}

theorem roundHalfEven_le (h : n < d * q) : roundHalfEven n d ≤ q := by
  have hdiv : n / d < q := Nat.div_lt_of_lt_mul h
  unfold roundHalfEven
  dsimp only
  split_ifs <;> omega

theorem le_roundHalfEven (hd : 0 < d) (h : d * q ≤ n) : q ≤ roundHalfEven n d := by
  have hdiv : q ≤ n / d := (Nat.le_div_iff_mul_le hd).mpr (by rwa [Nat.mul_comm])
  unfold roundHalfEven
  dsimp only
  split_ifs <;> omega

/-- Rounding stays below an even number exactly as long as the ratio is below the midpoint in front of it: on
the midpoint itself the even one of the two neighbours is taken. -/
theorem roundHalfEven_lt_iff (hd : 0 < d) (hq : 0 < q) (heven : q % 2 = 0) :
    roundHalfEven n d < q ↔ 2 * n < d * (2 * q - 1) := by
  obtain ⟨p, rfl⟩ : ∃ p, q = p + 1 := ⟨q - 1, by omega⟩
  have hmidpoint : d * (2 * (p + 1) - 1) = 2 * (d * p) + d := by
    rw [show 2 * (p + 1) - 1 = 2 * p + 1 by omega]
    ring
  have hn : d * (n / d) + n % d = n := Nat.div_add_mod n d
  have hr : n % d < d := Nat.mod_lt n hd
  rw [hmidpoint]
  rcases Nat.lt_trichotomy (n / d) p with hlt | heq | hgt
  · have hle : d * (n / d + 1) ≤ d * p := Nat.mul_le_mul_left d hlt
    rw [Nat.mul_succ] at hle
    refine iff_of_true (Nat.lt_succ_of_le (roundHalfEven_le ?_)) ?_ <;> omega
  · -- the whole part is the odd number in front of `p + 1`
    rw [heq] at hn
    unfold roundHalfEven
    dsimp only
    rw [heq]
    split_ifs <;> omega
  · have hge : d * (p + 1) ≤ d * (n / d) := Nat.mul_le_mul_left d hgt
    have hround : p + 1 ≤ roundHalfEven n d := le_roundHalfEven hd (by omega)
    rw [Nat.mul_succ] at hge
    exact iff_of_false (by omega) (by omega)

end Whole

namespace Binary

variable {e f : Nat}

/-! ## The exponent of a ratio -/

section Exponent

variable {n d : Nat}

theorem exists_bias_eq (he : 2 ≤ e) : ∃ b, bias e = b + 1 := by
  have hpow : 2 ^ 1 ≤ 2 ^ (e - 1) := Nat.pow_le_pow_right (by omega) (by omega)
  have hbias : bias e = 2 ^ (e - 1) - 1 := rfl
  exact ⟨bias e - 1, by omega⟩

theorem two_pow_eq_of_bias {b : Nat} (he : 2 ≤ e) (hb : bias e = b + 1) : 2 ^ e = 2 * b + 4 := by
  obtain ⟨e, rfl⟩ : ∃ j, e = j + 1 := ⟨e - 1, by omega⟩
  have hbias : bias (e + 1) = 2 ^ e - 1 := rfl
  have hpos : 0 < 2 ^ e := Nat.two_pow_pos e
  rw [Nat.pow_succ]
  omega

theorem resolution_eq_of_bias {b : Nat} (hb : bias e = b + 1) : resolution e f = 2 ^ (b + f) := by
  show 2 ^ (bias e + f - 1) = 2 ^ (b + f)
  rw [hb, Nat.add_right_comm, Nat.add_sub_cancel]

theorem resolution_pos : 0 < resolution e f :=
  Nat.two_pow_pos _

theorem log2_div_spec (hd : 0 < d) (h : d ≤ n) :
    d * 2 ^ (n / d).log2 ≤ n ∧ n < d * 2 ^ ((n / d).log2 + 1) := by
  have hquotient : n / d ≠ 0 := (Nat.div_pos h hd).ne'
  constructor
  · exact (Nat.mul_le_mul_left d (Nat.log2_self_le hquotient)).trans (Nat.mul_div_le n d)
  · rw [Nat.mul_comm]
    exact (Nat.div_lt_iff_lt_mul hd).mp Nat.lt_log2_self

/-- The significand of a ratio is below `2 ^ (f + 1)`, and it is not below `2 ^ f` unless the exponent is the
least one. -/
theorem ratioExponent_spec (he : 2 ≤ e) (hn : 0 < n) (hd : 0 < d) :
    n * resolution e f < d * 2 ^ (ratioExponent e n d - 1) * 2 ^ (f + 1) ∧
      (ratioExponent e n d - 1 = 0 ∨ d * 2 ^ (ratioExponent e n d - 1) * 2 ^ f ≤ n * resolution e f) := by
  obtain ⟨b, hb⟩ := exists_bias_eq he
  rw [resolution_eq_of_bias hb]
  unfold ratioExponent
  rw [hb]
  split_ifs with hdn
  · obtain ⟨hlow, hhigh⟩ := log2_div_spec hd hdn
    generalize (n / d).log2 = l at hlow hhigh
    rw [show max 1 (b + 1 + l) - 1 = b + l by omega]
    constructor
    · calc n * 2 ^ (b + f) < d * 2 ^ (l + 1) * 2 ^ (b + f) :=
            Nat.mul_lt_mul_of_pos_right hhigh (Nat.two_pow_pos _)
        _ = d * 2 ^ (b + l) * 2 ^ (f + 1) := by ring
    · right
      calc d * 2 ^ (b + l) * 2 ^ f = d * 2 ^ l * 2 ^ (b + f) := by ring
        _ ≤ n * 2 ^ (b + f) := Nat.mul_le_mul_right _ hlow
  · -- the reciprocal is looked at, a little below its value
    obtain ⟨hlow, hhigh⟩ := log2_div_spec hn (show n ≤ d - 1 by omega)
    generalize ((d - 1) / n).log2 = l at hlow hhigh
    by_cases hl : l < b
    · obtain ⟨k, rfl⟩ : ∃ k, b = l + 1 + k := ⟨b - (l + 1), by omega⟩
      rw [show max 1 (l + 1 + k + 1 - (l + 1)) - 1 = k by omega]
      constructor
      · calc n * 2 ^ (l + 1 + k + f) = n * 2 ^ l * 2 ^ (k + (f + 1)) := by ring
          _ < d * 2 ^ (k + (f + 1)) := Nat.mul_lt_mul_of_pos_right (by omega) (Nat.two_pow_pos _)
          _ = d * 2 ^ k * 2 ^ (f + 1) := by ring
      · right
        calc d * 2 ^ k * 2 ^ f = d * 2 ^ (k + f) := by ring
          _ ≤ n * 2 ^ (l + 1) * 2 ^ (k + f) := Nat.mul_le_mul_right _ (by omega)
          _ = n * 2 ^ (l + 1 + k + f) := by ring
    · rw [show max 1 (b + 1 - (l + 1)) - 1 = 0 by omega]
      refine ⟨?_, Or.inl rfl⟩
      have hbl : n * 2 ^ b ≤ n * 2 ^ l :=
        Nat.mul_le_mul_left n (Nat.pow_le_pow_right (by omega) (by omega))
      calc n * 2 ^ (b + f) = n * 2 ^ b * 2 ^ f := by ring
        _ < d * 2 ^ f := Nat.mul_lt_mul_of_pos_right (by omega) (Nat.two_pow_pos _)
        _ ≤ d * 2 ^ 0 * 2 ^ (f + 1) := by
          rw [Nat.pow_zero, Nat.mul_one]
          exact Nat.mul_le_mul_left d (Nat.pow_le_pow_right (by omega) (by omega))

end Exponent

/-! ## Places -/

/-- The place that a positive ratio is rounded to. -/
def roundedPlace (e f n d : Nat) : Nat :=
  (ratioExponent e n d - 1) * 2 ^ f
    + roundHalfEven (n * resolution e f) (d * 2 ^ (ratioExponent e n d - 1))

theorem ofRatio_zero (negative : Bool) (d : Nat) :
    (ofRatio negative 0 d : Binary e f) = ofPlace negative 0 := rfl

theorem ofRatio_of_pos {negative : Bool} {n d : Nat} (hn : 0 < n) :
    (ofRatio negative n d : Binary e f) = ofPlace negative (roundedPlace e f n d) :=
  if_neg hn.ne'

theorem ofPlace_eq (negative : Bool) {place : Nat} (h : place < (2 ^ e - 1) * 2 ^ f) :
    ∃ (exponent : Fin (Nat.pow 2 e - 1)) (fraction : Fin (Nat.pow 2 f)),
      ofPlace negative place = .finite negative exponent fraction ∧
        exponent.val * 2 ^ f + fraction.val = place := by
  have hquotient : place / Nat.pow 2 f < Nat.pow 2 e - 1 :=
    (Nat.div_lt_iff_lt_mul (Nat.two_pow_pos f)).mpr h
  refine ⟨_, _, dif_pos hquotient, ?_⟩
  rw [Nat.mul_comm]
  exact Nat.div_add_mod place (2 ^ f)

theorem ofPlace_of_le {negative : Bool} {place : Nat} (h : (2 ^ e - 1) * 2 ^ f ≤ place) :
    (ofPlace negative place : Binary e f) = .infinite negative := by
  refine dif_neg (Nat.not_lt.mpr ?_)
  exact (Nat.le_div_iff_mul_le (Nat.two_pow_pos f)).mpr h

theorem isFinite_ofPlace_iff {negative : Bool} {place : Nat} :
    (ofPlace negative place : Binary e f).isFinite = true ↔ place < (2 ^ e - 1) * 2 ^ f := by
  rw [← Nat.div_lt_iff_lt_mul (Nat.two_pow_pos f)]
  show _ ↔ place / Nat.pow 2 f < Nat.pow 2 e - 1
  unfold ofPlace
  split
  · next h => exact iff_of_true rfl h
  · next h => exact iff_of_false Bool.false_ne_true h

/-- Two places with different exponents are ordered by these, whatever the significands are. -/
theorem place_lt_of_lt {j k s q : Nat} (hs : s ≤ 2 ^ (f + 1)) (hq : 2 ^ f < q) (h : j < k) :
    j * 2 ^ f + s < k * 2 ^ f + q := by
  have hjk : (j + 1) * 2 ^ f ≤ k * 2 ^ f := Nat.mul_le_mul_right _ h
  rw [Nat.succ_mul] at hjk
  rw [Nat.pow_succ] at hs
  omega

theorem place_le_of_lt {j k s q : Nat} (hs : 2 ^ f ≤ s) (hq : q ≤ 2 ^ (f + 1)) (h : k < j) :
    k * 2 ^ f + q ≤ j * 2 ^ f + s := by
  have hkj : (k + 1) * 2 ^ f ≤ j * 2 ^ f := Nat.mul_le_mul_right _ h
  rw [Nat.succ_mul] at hkj
  rw [Nat.pow_succ] at hq
  omega

/-- **Which ratios are rounded to a place in front of an even one**: those below the midpoint between that
place and the one before it. -/
theorem roundedPlace_lt_iff {n d k q : Nat} (he : 2 ≤ e) (hn : 0 < n) (hd : 0 < d) (hlow : 2 ^ f < q)
    (hhigh : q ≤ 2 ^ (f + 1)) (heven : q % 2 = 0) :
    roundedPlace e f n d < k * 2 ^ f + q ↔
      2 * (n * resolution e f) < d * 2 ^ k * (2 * q - 1) := by
  obtain ⟨hbelow, habove⟩ := ratioExponent_spec he hn hd (f := f)
  unfold roundedPlace
  generalize ratioExponent e n d - 1 = j at hbelow habove
  generalize n * resolution e f = m at hbelow habove
  have hpos : 0 < d * 2 ^ j := Nat.mul_pos hd (Nat.two_pow_pos j)
  have hsucc : 2 ^ (f + 1) = 2 * 2 ^ f := Nat.pow_succ'
  rcases Nat.lt_trichotomy j k with hlt | rfl | hgt
  · refine iff_of_true (place_lt_of_lt (roundHalfEven_le hbelow) hlow hlt) ?_
    calc 2 * m < 2 * (d * 2 ^ j * 2 ^ (f + 1)) := by omega
      _ = d * 2 ^ (j + 1) * 2 ^ (f + 1) := by ring
      _ ≤ d * 2 ^ k * (2 * q - 1) :=
        Nat.mul_le_mul (Nat.mul_le_mul_left d (Nat.pow_le_pow_right (by omega) hlt)) (by omega)
  · rw [Nat.add_lt_add_iff_left, roundHalfEven_lt_iff hpos (by omega) heven]
  · have habove : d * 2 ^ j * 2 ^ f ≤ m := habove.resolve_left (by omega)
    refine iff_of_false (Nat.not_lt.mpr (place_le_of_lt (le_roundHalfEven hpos habove) hhigh hgt)) ?_
    refine Nat.not_lt.mpr ?_
    calc d * 2 ^ k * (2 * q - 1) ≤ d * 2 ^ k * (2 * 2 ^ (f + 1)) := Nat.mul_le_mul_left _ (by omega)
      _ = 2 * (d * 2 ^ (k + 1) * 2 ^ f) := by ring
      _ ≤ 2 * (d * 2 ^ j * 2 ^ f) := by
        have hpow : d * 2 ^ (k + 1) ≤ d * 2 ^ j :=
          Nat.mul_le_mul_left d (Nat.pow_le_pow_right (by omega) hgt)
        exact Nat.mul_le_mul_left 2 (Nat.mul_le_mul_right _ hpow)
      _ ≤ 2 * m := Nat.mul_le_mul_left 2 habove

/-- **Which ratios stay finite**: those below the midpoint between the largest finite number and the power of
two behind it. -/
theorem isFinite_ofRatio_iff {negative : Bool} {n d : Nat} (he : 2 ≤ e) (hd : 0 < d) :
    (ofRatio negative n d : Binary e f).isFinite = true ↔
      n * 2 ^ (f + 1) < d * 2 ^ bias e * (2 ^ (f + 2) - 1) := by
  obtain ⟨b, hb⟩ := exists_bias_eq he
  have hpow : 2 ^ e = 2 * b + 4 := two_pow_eq_of_bias he hb
  have hpos : 0 < 2 ^ f := Nat.two_pow_pos f
  have hsucc : 2 ^ (f + 1) = 2 * 2 ^ f := Nat.pow_succ'
  have hsucc' : 2 ^ (f + 2) = 2 * 2 ^ (f + 1) := Nat.pow_succ'
  rcases Nat.eq_zero_or_pos n with rfl | hn
  · refine iff_of_true ?_ ?_
    · rw [ofRatio_zero, isFinite_ofPlace_iff]
      exact Nat.mul_pos (by omega) hpos
    · rw [Nat.zero_mul]
      exact Nat.mul_pos (Nat.mul_pos hd (Nat.two_pow_pos _)) (by omega)
  · have hlast : (2 ^ e - 1) * 2 ^ f = (2 * b + 1) * 2 ^ f + 2 ^ (f + 1) := by
      rw [show 2 ^ e - 1 = 2 * b + 1 + 2 by omega]
      ring
    have hleft : 2 * (n * 2 ^ (b + f)) = n * 2 ^ (f + 1) * 2 ^ b := by ring
    have hright : d * 2 ^ (2 * b + 1) * (2 * 2 ^ (f + 1) - 1)
        = d * 2 ^ bias e * (2 ^ (f + 2) - 1) * 2 ^ b := by
      rw [hb, hsucc']
      ring
    rw [ofRatio_of_pos hn, isFinite_ofPlace_iff, hlast,
      roundedPlace_lt_iff he hn hd (by omega) le_rfl (by omega), resolution_eq_of_bias hb, hleft, hright,
      Nat.mul_lt_mul_right (Nat.two_pow_pos b)]

end Binary

end AreaAtlas

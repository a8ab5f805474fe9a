import AreaAtlas.Areas.Document
import AreaAtlas.Proofs.Text.Trim

/-!
# Numerals

The coordinates in a header are written in a narrower notation than the cells of a table: an optional
minus, digits of any script, and an optional point with more digits.  Every numeral is a number, so a
header is never refused for the size or the length of its coordinates.
-/

namespace AreaAtlas

/-- An optional minus, digits, and an optional point with digits behind it. -/
structure IsNumeral (cs : List Char) : Prop where
  parts : ∃ sign whole fraction, cs = sign ++ whole ++ fraction ∧ (sign = [] ∨ sign = ['-']) ∧
    IsRun isDecimalDigit whole ∧
    (fraction = [] ∨ ∃ places, IsRun isDecimalDigit places ∧ fraction = '.' :: places)

namespace Decimal

theorem wellSeparated_of_not_mem {cs : List Char} (h : '_' ∉ cs) {last : Option Char}
    (hl : last ≠ some '_') : wellSeparated last cs = true := by
  induction cs generalizing last with
  | nil => simpa [wellSeparated] using hl
  | cons c cs ih =>
    rw [List.mem_cons, not_or] at h
    have hc : c ≠ '_' := fun e => h.1 e.symm
    have hrest : wellSeparated (some c) cs = true := ih h.2 (by simpa using hc)
    simp [wellSeparated, hc, hl, hrest]

/-- Digits without underscores are joined as they stand. -/
theorem joinDigits?_of_not_mem {cs : List Char} (h : '_' ∉ cs) : joinDigits? cs = some cs := by
  have hfilter : cs.filter (· ≠ '_') = cs := by
    rw [List.filter_eq_self]
    intro c hc
    refine decide_eq_true ?_
    rintro rfl
    exact h hc
  unfold joinDigits?
  rw [if_pos (wellSeparated_of_not_mem h (by simp)), hfilter]

theorem takeDigits_append {digits rest : List Char} (h : ∀ c ∈ digits, isDecimalDigit c = true)
    (hr : StopsAt isDecimalDigit rest) :
    takeDigits (digits ++ rest) = (digits.filterMap digitValue?, rest) := by
  unfold takeDigits
  rw [takeWhile_append_of_stopsAt h hr, dropWhile_append_of_stopsAt h hr]

theorem filterMap_digitValue?_ne_nil {digits : List Char} (h : IsRun isDecimalDigit digits) :
    (digits.filterMap digitValue?).isEmpty = false := by
  obtain ⟨hne, hd⟩ := h
  cases digits with
  | nil => exact absurd rfl hne
  | cons c digits =>
    obtain ⟨v, hv⟩ := Option.isSome_iff_exists.mp (hd c List.mem_cons_self)
    rw [List.filterMap_cons_some hv]
    rfl

/-- Digits with an optional point and more digits are read to their end. -/
theorem isSome_readUnsigned? {whole fraction : List Char} (negative : Bool)
    (hw : IsRun isDecimalDigit whole)
    (hf : fraction = [] ∨ ∃ places, IsRun isDecimalDigit places ∧ fraction = '.' :: places) :
    (readUnsigned? negative (whole ++ fraction)).isSome := by
  have hne := filterMap_digitValue?_ne_nil hw
  rcases hf with rfl | ⟨places, hp, rfl⟩
  · have ht : takeDigits (whole ++ []) = _ := takeDigits_append hw.2 stopsAt_nil
    rw [List.append_nil] at ht ⊢
    simp [readUnsigned?, ht, hne, readExponent?]
  · have ht : takeDigits (whole ++ '.' :: places) = _ :=
      takeDigits_append hw.2 (stopsAt_cons (by decide))
    have hp' : takeDigits (places ++ []) = _ := takeDigits_append hp.2 stopsAt_nil
    rw [List.append_nil] at hp'
    simp [readUnsigned?, ht, hne, hp', readExponent?]

end Decimal

theorem ne_of_isDecimalDigit {c d : Char} (h : isDecimalDigit c = true)
    (hd : isDecimalDigit d = false) : c ≠ d := by
  rintro rfl
  rw [h] at hd
  cases hd

namespace IsNumeral

variable {cs : List Char}

/-- A numeral is made of digits, minus and point. -/
theorem forall_mem (h : IsNumeral cs) {c : Char} (hc : c ∈ cs) :
    isDecimalDigit c = true ∨ c = '-' ∨ c = '.' := by
  obtain ⟨sign, whole, fraction, rfl, hs, hw, hf⟩ := h.parts
  rcases List.mem_append.mp hc with hc | hc
  · rcases List.mem_append.mp hc with hc | hc
    · rcases hs with rfl | rfl
      · cases hc
      · exact Or.inr (Or.inl (List.mem_singleton.mp hc))
    · exact Or.inl (hw.2 c hc)
  · rcases hf with rfl | ⟨places, hp, rfl⟩
    · cases hc
    · rcases List.mem_cons.mp hc with rfl | hc
      · exact Or.inr (Or.inr rfl)
      · exact Or.inl (hp.2 c hc)

theorem isBlank_eq_false (h : IsNumeral cs) {c : Char} (hc : c ∈ cs) : isBlank c = false := by
  rcases h.forall_mem hc with hd | rfl | rfl
  · exact isBlank_eq_false_of_isDecimalDigit hd
  · decide
  · decide

theorem not_mem (h : IsNumeral cs) {c : Char} (hd : isDecimalDigit c = false)
    (hm : c ≠ '-') (hp : c ≠ '.') : c ∉ cs := by
  intro hc
  rcases h.forall_mem hc with hc | hc | hc
  · rw [hc] at hd
    cases hd
  · exact hm hc
  · exact hp hc

theorem ne_nil (h : IsNumeral cs) : cs ≠ [] := by
  obtain ⟨sign, whole, fraction, rfl, -, hw, -⟩ := h.parts
  intro he
  rw [List.append_eq_nil_iff, List.append_eq_nil_iff] at he
  exact hw.1 he.1.2

theorem stopsAt_append (h : IsNumeral cs) {rest : List Char} : StopsAt isBlank (cs ++ rest) := by
  cases cs with
  | nil => exact absurd rfl h.ne_nil
  | cons c cs => exact stopsAt_cons (h.isBlank_eq_false List.mem_cons_self)

/-- Every numeral is a number. -/
theorem isSome_read? (h : IsNumeral cs) : (Binary64.read? cs).isSome := by
  have htrim : trim cs = cs :=
    trim_eq_self (fun c hc => h.isBlank_eq_false (List.mem_of_mem_head? hc))
      (fun c hc => h.isBlank_eq_false (List.mem_of_mem_getLast? hc))
  have hjoin : Decimal.joinDigits? cs = some cs :=
    Decimal.joinDigits?_of_not_mem (h.not_mem (by decide) (by decide) (by decide))
  obtain ⟨sign, whole, fraction, rfl, hs, hw, hf⟩ := h.parts
  -- the sign is taken off, and what is left are the digits
  have hsign : ∃ negative,
      Decimal.takeSign (sign ++ whole ++ fraction) = (negative, whole ++ fraction) := by
    rcases hs with rfl | rfl
    · obtain ⟨hne, hd⟩ := hw
      cases whole with
      | nil => exact absurd rfl hne
      | cons c whole =>
        have hc := hd c List.mem_cons_self
        have hminus : c ≠ '-' := ne_of_isDecimalDigit hc (by decide)
        have hplus : c ≠ '+' := ne_of_isDecimalDigit hc (by decide)
        exact ⟨false, by simp [Decimal.takeSign, hminus, hplus]⟩
    · exact ⟨true, rfl⟩
  obtain ⟨negative, hsign⟩ := hsign
  obtain ⟨d, hd⟩ := Option.isSome_iff_exists.mp (Decimal.isSome_readUnsigned? negative hw hf)
  unfold Binary64.read?
  rw [htrim, hjoin]
  simp only [Option.bind_eq_bind, Option.bind_some, hsign, hd, Option.map_some]
  cases Binary64.ofName? negative (whole ++ fraction) with
  | none => rfl
  | some x => rfl

end IsNumeral

/-! ## Numerals in front of a text -/

namespace Areas.Header

theorem takeMinus_sound (text : List Char) :
    text = (takeMinus text).1 ++ (takeMinus text).2 ∧
      ((takeMinus text).1 = [] ∨ (takeMinus text).1 = ['-']) := by
  unfold takeMinus
  split
  · exact ⟨rfl, Or.inr rfl⟩
  · exact ⟨rfl, Or.inl rfl⟩

theorem takeMinus_append {sign body : List Char} (hs : sign = [] ∨ sign = ['-'])
    (hb : StopsAt (· == '-') body) : takeMinus (sign ++ body) = (sign, body) := by
  rcases hs with rfl | rfl
  · rw [List.nil_append]
    unfold takeMinus
    split
    · cases hb '-' rfl
    · rfl
  · rfl

theorem takePlaces_sound (text : List Char) :
    text = (takePlaces text).1 ++ (takePlaces text).2 ∧ ((takePlaces text).1 = [] ∨
      ∃ places, IsRun isDecimalDigit places ∧ (takePlaces text).1 = '.' :: places) := by
  unfold takePlaces
  split
  · next rest =>
    split
    · exact ⟨rfl, Or.inl rfl⟩
    · next hne =>
      refine ⟨?_, Or.inr ⟨_, isRun_takeWhile hne, rfl⟩⟩
      rw [List.cons_append, List.takeWhile_append_dropWhile]
  · exact ⟨rfl, Or.inl rfl⟩

theorem takePlaces_of_stopsAt {text : List Char} (h : StopsAt (· == '.') text) :
    takePlaces text = ([], text) := by
  unfold takePlaces
  split
  · cases h '.' rfl
  · rfl

theorem takePlaces_append {places rest : List Char} (hp : IsRun isDecimalDigit places)
    (hr : StopsAt isDecimalDigit rest) :
    takePlaces ('.' :: places ++ rest) = ('.' :: places, rest) := by
  unfold takePlaces
  simp only [List.cons_append]
  rw [takeWhile_append_of_stopsAt hp.2 hr, dropWhile_append_of_stopsAt hp.2 hr]
  split
  · exact absurd rfl hp.1
  · rfl

/-- What `takeNumber?` takes off is a numeral, and it gives the value of that numeral. -/
theorem takeNumber?_sound {text rest : List Char} {x : Binary64}
    (h : takeNumber? text = some (x, rest)) :
    ∃ numeral, IsNumeral numeral ∧ text = numeral ++ rest ∧ Binary64.read? numeral = some x := by
  -- sign, digits and fraction are taken off one after the other
  obtain ⟨hminus, hsign⟩ := takeMinus_sound text
  obtain ⟨hplaces, hfraction⟩ := takePlaces_sound ((takeMinus text).2.dropWhile isDecimalDigit)
  unfold takeNumber? at h
  dsimp only at h
  by_cases hw : ((takeMinus text).2.takeWhile isDecimalDigit).isEmpty
  · rw [if_pos hw] at h
    cases h
  · rw [if_neg hw] at h
    obtain ⟨y, hy, hxy⟩ := Option.map_eq_some_iff.mp h
    cases hxy
    refine ⟨_, ⟨_, _, _, rfl, hsign, isRun_takeWhile ?_, hfraction⟩, ?_, hy⟩
    · intro hnil
      exact hw (List.isEmpty_iff.mpr hnil)
    · rw [List.append_assoc, List.append_assoc, ← hplaces, List.takeWhile_append_dropWhile]
      exact hminus

/-- A numeral is taken off whole if neither a digit nor a point follows. -/
theorem takeNumber?_append {numeral rest : List Char} (h : IsNumeral numeral)
    (hd : StopsAt isDecimalDigit rest) (hp : StopsAt (· == '.') rest) :
    takeNumber? (numeral ++ rest) = (Binary64.read? numeral).map (·, rest) := by
  obtain ⟨sign, whole, fraction, rfl, hs, hw, hf⟩ := h.parts
  have hminus : takeMinus (sign ++ (whole ++ (fraction ++ rest)))
      = (sign, whole ++ (fraction ++ rest)) := by
    refine takeMinus_append hs (hw.stopsAt_append ?_)
    intro c hc
    exact beq_eq_false_iff_ne.mpr (ne_of_isDecimalDigit hc (by decide))
  have hplaces : StopsAt isDecimalDigit (fraction ++ rest) ∧
      takePlaces (fraction ++ rest) = (fraction, rest) := by
    rcases hf with rfl | ⟨places, hplaces, rfl⟩
    · exact ⟨hd, takePlaces_of_stopsAt hp⟩
    · exact ⟨stopsAt_cons (by decide), takePlaces_append hplaces hd⟩
  -- there is a digit, so the reader goes on
  have hempty : ¬whole.isEmpty = true := fun he => hw.1 (List.isEmpty_iff.mp he)
  unfold takeNumber?
  rw [List.append_assoc, List.append_assoc, hminus]
  dsimp only
  rw [takeWhile_append_of_stopsAt hw.2 hplaces.1, dropWhile_append_of_stopsAt hw.2 hplaces.1,
    hplaces.2, if_neg hempty]

end Areas.Header

end AreaAtlas

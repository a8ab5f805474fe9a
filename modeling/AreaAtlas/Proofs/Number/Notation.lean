import AreaAtlas.Json
import AreaAtlas.Proofs.Text.Run

/-!
# Numbers in JSON documents

JSON writes a number with ASCII digits: there is no idle zero in front, digits stand on both sides of a point,
and an exponent may follow.  `Json.isNumberText_iff` is the main statement: the text that a document has for a
number of double precision is of this kind exactly if the number is finite.
-/

namespace AreaAtlas

namespace Json

/-- The digits in front of the point: no idle zero stands first. -/
def IsWhole (cs : List Char) : Prop :=
  cs = ['0'] ∨ IsRun Char.isDigit cs ∧ cs.head? ≠ some '0'

/-- A point with digits behind it, or nothing. -/
def IsFraction (cs : List Char) : Prop :=
  cs = [] ∨ ∃ places, IsRun Char.isDigit places ∧ cs = '.' :: places

/-- A mark, an optional sign and digits, or nothing. -/
def IsExponent (cs : List Char) : Prop :=
  cs = [] ∨ ∃ mark sign digits, (mark = 'e' ∨ mark = 'E') ∧ (sign = ['+'] ∨ sign = ['-'] ∨ sign = []) ∧
    IsRun Char.isDigit digits ∧ cs = mark :: (sign ++ digits)

/-- A number without a sign. -/
def IsUnsigned (cs : List Char) : Prop :=
  ∃ whole fraction exponent, cs = whole ++ (fraction ++ exponent) ∧
    IsWhole whole ∧ IsFraction fraction ∧ IsExponent exponent

/-- **A number as JSON writes it.** -/
def IsNumberText (cs : List Char) : Prop :=
  ∃ sign unsigned, cs = sign ++ unsigned ∧ (sign = ['-'] ∨ sign = []) ∧ IsUnsigned unsigned

theorem isUnsigned_of_places {w p : List Char} (hwhole : IsWhole w) (hplaces : IsRun Char.isDigit p) :
    IsUnsigned (w ++ '.' :: p) := by
  refine ⟨w, '.' :: p, [], ?_, hwhole, Or.inr ⟨p, hplaces, rfl⟩, Or.inl rfl⟩
  rw [List.append_nil]

end Json

/-! ## Digits -/

section Digits

variable {n : Nat}

theorem IsRun.append {p : Char → Bool} {front behind : List Char} (h : IsRun p front)
    (hbehind : ∀ c ∈ behind, p c = true) : IsRun p (front ++ behind) := by
  refine ⟨List.append_ne_nil_of_left_ne_nil h.1 _, ?_⟩
  intro c hc
  rcases List.mem_append.mp hc with hc | hc
  · exact h.2 c hc
  · exact hbehind c hc

theorem IsRun.append_of_forall {p : Char → Bool} {front behind : List Char}
    (hfront : ∀ c ∈ front, p c = true) (h : IsRun p behind) : IsRun p (front ++ behind) := by
  refine ⟨List.append_ne_nil_of_right_ne_nil _ h.1, ?_⟩
  intro c hc
  rcases List.mem_append.mp hc with hc | hc
  · exact hfront c hc
  · exact h.2 c hc

theorem IsRun.drop {p : Char → Bool} {cs : List Char} (h : IsRun p cs) {k : Nat} (hk : k < cs.length) :
    IsRun p (cs.drop k) := by
  refine ⟨fun hnil => ?_, fun c hc => h.2 c (List.mem_of_mem_drop hc)⟩
  rw [List.drop_eq_nil_iff] at hnil
  omega

/-- The first digits of a number without an idle zero are such a number. -/
theorem Json.isWhole_take {ds : List Char} (h : IsRun Char.isDigit ds) (hhead : ds.head? ≠ some '0')
    {k : Nat} (hk : 0 < k) : Json.IsWhole (ds.take k) := by
  obtain ⟨k, rfl⟩ : ∃ j, k = j + 1 := ⟨k - 1, by omega⟩
  cases ds with
  | nil => exact absurd rfl h.1
  | cons c ds =>
    refine Or.inr ⟨⟨List.cons_ne_nil _ _, fun d hd => h.2 d (List.mem_of_mem_take hd)⟩, hhead⟩

theorem IsRun.head?_append {p : Char → Bool} {front : List Char} (h : IsRun p front) (behind : List Char) :
    (front ++ behind).head? = front.head? := by
  cases front with
  | nil => exact absurd rfl h.1
  | cons c front => rfl

theorem isDigit_of_mem_replicate {k : Nat} {c : Char} (h : c ∈ List.replicate k '0') : c.isDigit = true := by
  rw [List.eq_of_mem_replicate h]
  rfl

theorem isRun_toDigits (n : Nat) : IsRun Char.isDigit (Nat.toDigits 10 n) :=
  ⟨Nat.toDigits_ne_nil, fun _ hc => Nat.isDigit_of_mem_toDigits (by omega) (by omega) hc⟩

/-- The first digit of a positive number is not zero. -/
theorem head?_toDigits (hn : 0 < n) : (Nat.toDigits 10 n).head? ≠ some '0' := by
  induction n using Nat.strongRecOn with
  | ind n ih =>
    rcases Nat.lt_or_ge n 10 with hlt | hge
    · rw [Nat.toDigits_of_lt_base hlt]
      have hdigit : ∀ n, n < 10 → 0 < n → some n.digitChar ≠ some '0' := by decide
      exact hdigit n hlt hn
    · rw [Nat.toDigits_of_base_le (by omega) hge, (isRun_toDigits _).head?_append]
      exact ih (n / 10) (Nat.div_lt_self hn (by omega)) (Nat.div_pos hge (by omega))

end Digits

namespace Binary64

open Json

theorem toList_zeros (n : Int) : (zeros n).toList = List.replicate n.toNat '0' :=
  String.toList_ofList

theorem isExponent_exponentText (exponent : Int) : IsExponent ('e' :: (exponentText exponent).toList) := by
  have hdigits : (toString exponent.natAbs).toList = Nat.toDigits 10 exponent.natAbs := Nat.toList_repr
  have hrun := isRun_toDigits exponent.natAbs
  unfold exponentText
  dsimp only
  refine Or.inr ⟨'e', (if exponent < 0 then "-" else "+").toList, _, Or.inl rfl, ?_, ?_,
    congrArg _ (by rw [String.toList_append, String.toList_append, List.append_assoc])⟩
  · split_ifs
    · exact Or.inr (Or.inl rfl)
    · exact Or.inl rfl
  · rw [hdigits]
    split_ifs
    · exact ⟨by simp, List.forall_mem_cons.mpr ⟨rfl, hrun.2⟩⟩
    · exact hrun

/-- The text of a decimal number without its sign. -/
def unsignedText (x : Decimal) : String :=
  decimalText { x with negative := false }

theorem decimalText_eq (x : Decimal) :
    decimalText x = if x.negative then "-" ++ unsignedText x else unsignedText x := by
  unfold unsignedText decimalText
  rfl

theorem isUnsigned_unsignedText (x : Decimal) : IsUnsigned (unsignedText x).toList := by
  have hdigits : (toString x.digits).toList = Nat.toDigits 10 x.digits := Nat.toList_repr
  have hlength : (toString x.digits).length = (Nat.toDigits 10 x.digits).length := by
    rw [← String.length_toList, hdigits]
  have hrun := isRun_toDigits x.digits
  unfold unsignedText decimalText
  dsimp only
  rw [if_neg Bool.false_ne_true, hlength]
  by_cases hzero : x.digits = 0
  · rw [if_pos hzero]
    exact isUnsigned_of_places (Or.inl rfl) (p := ['0']) (by decide)
  have hhead : (Nat.toDigits 10 x.digits).head? ≠ some '0' := head?_toDigits (Nat.pos_of_ne_zero hzero)
  rw [if_neg hzero]
  generalize Nat.toDigits 10 x.digits = ds at hdigits hrun hhead
  rw [hdigits]
  split_ifs with hpositional hpoint hlong hplaces
  · -- zeros stand between the point and the digits
    simp only [String.toList_append, toList_zeros, hdigits]
    have hplaces : IsRun Char.isDigit (List.replicate (-(x.exponent + ds.length)).toNat '0' ++ ds) :=
      IsRun.append_of_forall (fun _ => isDigit_of_mem_replicate) hrun
    exact isUnsigned_of_places (Or.inl rfl) hplaces
  · -- zeros stand between the digits and the point
    simp only [String.toList_append, toList_zeros, hdigits]
    refine isUnsigned_of_places (p := ['0']) (Or.inr ⟨hrun.append fun _ => isDigit_of_mem_replicate, ?_⟩)
      (by decide)
    rwa [hrun.head?_append]
  · -- the point stands between digits
    simp only [String.toList_append, String.toList_ofList, List.append_assoc]
    exact isUnsigned_of_places (isWhole_take hrun hhead (by omega)) (hrun.drop (by omega))
  · simp only [String.toList_append, String.toList_ofList, List.append_assoc]
    exact ⟨_, [], _, rfl, isWhole_take hrun hhead Nat.one_pos, Or.inl rfl, isExponent_exponentText _⟩
  · have hlength : 1 < ds.length := by
      rw [String.isEmpty_iff, String.ofList_eq_empty_iff, List.drop_eq_nil_iff] at hplaces
      omega
    simp only [String.toList_append, String.toList_ofList, List.append_assoc]
    exact ⟨_, '.' :: ds.drop 1, _, rfl, isWhole_take hrun hhead Nat.one_pos,
      Or.inr ⟨_, hrun.drop hlength, rfl⟩, isExponent_exponentText _⟩

/-- Every decimal number is written as JSON has it. -/
theorem isNumberText_decimalText (x : Decimal) : Json.IsNumberText (decimalText x).toList := by
  rw [decimalText_eq]
  split_ifs
  · refine ⟨['-'], _, ?_, Or.inl rfl, isUnsigned_unsignedText x⟩
    rw [String.toList_append]
    rfl
  · exact ⟨[], _, rfl, Or.inr rfl, isUnsigned_unsignedText x⟩

end Binary64

namespace Json

theorem IsUnsigned.exists_cons {cs : List Char} (h : IsUnsigned cs) :
    ∃ c rest, cs = c :: rest ∧ c.isDigit = true := by
  obtain ⟨whole, fraction, exponent, rfl, hwhole, -⟩ := h
  rcases hwhole with rfl | ⟨⟨hne, hdigits⟩, -⟩
  · exact ⟨'0', _, rfl, rfl⟩
  · obtain ⟨c, rest, rfl⟩ := List.exists_cons_of_ne_nil hne
    exact ⟨c, _, rfl, hdigits c List.mem_cons_self⟩

/-- A number begins with a digit, or with a minus and a digit. -/
theorem IsNumberText.cases {cs : List Char} (h : IsNumberText cs) :
    (∃ c rest, cs = c :: rest ∧ c.isDigit = true) ∨
      ∃ c rest, cs = '-' :: c :: rest ∧ c.isDigit = true := by
  obtain ⟨sign, unsigned, rfl, hsign, hunsigned⟩ := h
  obtain ⟨c, rest, rfl, hc⟩ := hunsigned.exists_cons
  rcases hsign with rfl | rfl
  · exact Or.inr ⟨c, rest, rfl, hc⟩
  · exact Or.inl ⟨c, rest, rfl, hc⟩

theorem not_isNumberText_of_all {cs : List Char} (h : cs.all (fun c => !c.isDigit) = true) :
    ¬IsNumberText cs := by
  intro htext
  have hdigit : ∀ c ∈ cs, c.isDigit ≠ true := fun c hc => by simpa using List.all_eq_true.mp h c hc
  rcases htext.cases with ⟨c, rest, rfl, hc⟩ | ⟨c, rest, rfl, hc⟩
  · exact hdigit c List.mem_cons_self hc
  · exact hdigit c (List.mem_cons_of_mem _ List.mem_cons_self) hc

/-- **A document has numbers for the finite values only**: the names of the others have no digits. -/
theorem isNumberText_iff (x : Binary64) : IsNumberText (numberText x).toList ↔ x.isFinite = true := by
  cases x with
  | nan => exact iff_of_false (not_isNumberText_of_all rfl) Bool.false_ne_true
  | infinite negative =>
    refine iff_of_false (not_isNumberText_of_all ?_) Bool.false_ne_true
    cases negative with
    | false => rfl
    | true => rfl
  | finite negative exponent fraction =>
    exact iff_of_true (Binary64.isNumberText_decimalText _) rfl

/-! ## Documents -/

/-- A value holds a number, at any depth. -/
inductive Holds (x : Binary64) : Json → Prop
  | number : Holds x (.number x)
  | item {items : List Json} {item : Json} : item ∈ items → Holds x item → Holds x (.array items)
  | field {fields : List (String × Json)} {field : String × Json} :
      field ∈ fields → Holds x field.2 → Holds x (.object fields)

/-- **A value that JSON can express**: each of its numbers is written as one. -/
def IsStandard (value : Json) : Prop :=
  ∀ x, value.Holds x → IsNumberText (numberText x).toList

@[simp] theorem holds_number_iff {x y : Binary64} : Holds x (.number y) ↔ x = y := by
  constructor
  · rintro ⟨⟩
    rfl
  · rintro rfl
    exact .number

@[simp] theorem holds_array_iff {x : Binary64} {items : List Json} :
    Holds x (.array items) ↔ ∃ item ∈ items, item.Holds x := by
  constructor
  · rintro (_ | ⟨hitem, hholds⟩)
    exact ⟨_, hitem, hholds⟩
  · rintro ⟨item, hitem, hholds⟩
    exact .item hitem hholds

@[simp] theorem holds_object_iff {x : Binary64} {fields : List (String × Json)} :
    Holds x (.object fields) ↔ ∃ field ∈ fields, field.2.Holds x := by
  constructor
  · rintro (_ | _ | ⟨hfield, hholds⟩)
    exact ⟨_, hfield, hholds⟩
  · rintro ⟨field, hfield, hholds⟩
    exact .field hfield hholds

@[simp] theorem not_holds_text {x : Binary64} {text : String} : ¬Holds x (.text text) := nofun

@[simp] theorem not_holds_bool {x : Binary64} {b : Bool} : ¬Holds x (.bool b) := nofun

/-- A value can be expressed exactly if its numbers are finite. -/
theorem isStandard_iff {value : Json} : value.IsStandard ↔ ∀ x, value.Holds x → x.isFinite = true :=
  forall_congr' fun x => imp_congr_right fun _ => isNumberText_iff x

end Json

end AreaAtlas

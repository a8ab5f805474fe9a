import AreaAtlas.Text.Character
import AreaAtlas.Text.Lines
import Mathlib.Data.List.TakeWhile

/-!
# Runs of characters

Texts are read in runs of one class of characters: white space, names, digits.  A run is read whole
where what follows it does not belong to the class, so the classes have to be disjoint.  No white space
is a name character or a digit; the tables of both classes are looked through once, here.
-/

namespace AreaAtlas

/-- A non-empty run of characters of one class. -/
def IsRun (p : Char → Bool) (cs : List Char) : Prop :=
  cs ≠ [] ∧ ∀ c ∈ cs, p c = true

instance (p : Char → Bool) (cs : List Char) : Decidable (IsRun p cs) :=
  decidable_of_iff (cs ≠ [] ∧ cs.all p = true) (and_congr_right fun _ => List.all_eq_true)

/-- A text that is empty or begins with a character outside a class. -/
def StopsAt (p : Char → Bool) (cs : List Char) : Prop :=
  ∀ c ∈ cs.head?, p c = false

instance (p : Char → Bool) : (cs : List Char) → Decidable (StopsAt p cs)
  | [] => isTrue fun _ h => nomatch h
  | c :: _ => decidable_of_iff (p c = false) ⟨fun h _ hd => Option.some.inj hd ▸ h, fun h => h c rfl⟩

section Runs

variable {p q : Char → Bool} {run rest cs : List Char} {c : Char}

theorem stopsAt_nil : StopsAt p [] := by
  intro c hc
  cases hc

theorem stopsAt_cons (h : p c = false) : StopsAt p (c :: rest) := by
  intro d hd
  cases hd
  exact h

theorem stopsAt_cons_iff : StopsAt p (c :: rest) ↔ p c = false :=
  ⟨fun h => h c rfl, stopsAt_cons⟩

theorem StopsAt.append (h : ∀ c ∈ run, p c = false) (hr : StopsAt p rest) :
    StopsAt p (run ++ rest) := by
  cases run with
  | nil => exact hr
  | cons c run => exact stopsAt_cons (h c List.mem_cons_self)

theorem StopsAt.append_of_ne_nil (h : StopsAt p cs) (hne : cs ≠ []) : StopsAt p (cs ++ rest) := by
  cases cs with
  | nil => exact absurd rfl hne
  | cons c cs => exact stopsAt_cons (h c rfl)

theorem IsRun.stopsAt_append (h : IsRun q run) (hd : ∀ c, q c = true → p c = false) :
    StopsAt p (run ++ rest) := by
  cases run with
  | nil => exact absurd rfl h.1
  | cons c run => exact stopsAt_cons (hd c (h.2 c List.mem_cons_self))

theorem stopsAt_dropWhile : StopsAt p (cs.dropWhile p) := by
  intro c hc
  have h := List.head?_dropWhile_not p cs
  rw [Option.mem_def.mp hc] at h
  exact h

theorem replicate_length_takeWhile (c : Char) (text : List Char) :
    List.replicate (text.takeWhile (· = c)).length c = text.takeWhile (· = c) :=
  (List.eq_replicate_of_mem fun _ hd =>
    of_decide_eq_true (List.mem_takeWhile_imp (p := fun d => decide (d = c)) hd)).symm

theorem dropWhile_of_stopsAt (h : StopsAt p cs) : cs.dropWhile p = cs := by
  cases cs with
  | nil => rfl
  | cons c cs => exact List.dropWhile_cons_of_neg (by rw [h c rfl]; exact Bool.false_ne_true)

theorem takeWhile_of_stopsAt (h : StopsAt p cs) : cs.takeWhile p = [] := by
  cases cs with
  | nil => rfl
  | cons c cs => exact List.takeWhile_cons_of_neg (by rw [h c rfl]; exact Bool.false_ne_true)

/-- A run is taken whole if the text behind it stops at its class. -/
theorem takeWhile_append_of_stopsAt (h : ∀ c ∈ run, p c = true) (hr : StopsAt p rest) :
    (run ++ rest).takeWhile p = run := by
  rw [List.takeWhile_append_of_pos h, takeWhile_of_stopsAt hr, List.append_nil]

theorem dropWhile_append_of_stopsAt (h : ∀ c ∈ run, p c = true) (hr : StopsAt p rest) :
    (run ++ rest).dropWhile p = rest := by
  rw [List.dropWhile_append_of_pos h, dropWhile_of_stopsAt hr]

theorem isRun_takeWhile (h : cs.takeWhile p ≠ []) : IsRun p (cs.takeWhile p) :=
  ⟨h, fun _ hc => List.mem_takeWhile_imp hc⟩

end Runs

/-! ## White space in front -/

section Blanks

variable {run rest text : List Char}

theorem trimStart_append (h : ∀ c ∈ run, isBlank c = true) (hr : StopsAt isBlank rest) :
    trimStart (run ++ rest) = rest :=
  dropWhile_append_of_stopsAt h hr

theorem trimStart_of_stopsAt (h : StopsAt isBlank text) : trimStart text = text :=
  dropWhile_of_stopsAt h

/-- A text is the white space in front of it and what is left without. -/
theorem exists_eq_append_trimStart (text : List Char) :
    ∃ blanks, (∀ c ∈ blanks, isBlank c = true) ∧ text = blanks ++ trimStart text := by
  refine ⟨text.takeWhile isBlank, fun c hc => List.mem_takeWhile_imp hc, ?_⟩
  exact List.takeWhile_append_dropWhile.symm

theorem skipBlanks?_eq_some_iff :
    skipBlanks? text = some rest ↔
      ∃ gap, IsRun isBlank gap ∧ text = gap ++ rest ∧ StopsAt isBlank rest := by
  constructor
  · intro h
    cases text with
    | nil => cases h
    | cons c text =>
      simp only [skipBlanks?] at h
      split at h
      · next hc =>
        cases h
        refine ⟨c :: text.takeWhile isBlank, ⟨List.cons_ne_nil _ _, ?_⟩, ?_, stopsAt_dropWhile⟩
        · intro d hd
          rcases List.mem_cons.mp hd with rfl | hd
          · exact hc
          · exact List.mem_takeWhile_imp hd
        · rw [List.cons_append]
          exact congrArg _ List.takeWhile_append_dropWhile.symm
      · cases h
  · rintro ⟨gap, ⟨hne, hg⟩, rfl, hr⟩
    cases gap with
    | nil => exact absurd rfl hne
    | cons c gap =>
      have hc : isBlank c = true := hg c List.mem_cons_self
      have ht : trimStart (gap ++ rest) = rest :=
        trimStart_append (fun d hd => hg d (List.mem_cons_of_mem c hd)) hr
      simp only [List.cons_append, skipBlanks?, hc, if_true, ht]

theorem skipBlanks?_append (h : IsRun isBlank run) (hr : StopsAt isBlank rest) :
    skipBlanks? (run ++ rest) = some rest :=
  skipBlanks?_eq_some_iff.mpr ⟨run, h, rfl, hr⟩

end Blanks

/-! ## Classes that have nothing in common -/

/-- The code points of the white space beyond ASCII. -/
def blankCodes : List Nat :=
  [0x85, 0xA0, 0x1680, 0x2000, 0x2001, 0x2002, 0x2003, 0x2004, 0x2005, 0x2006, 0x2007, 0x2008,
    0x2009, 0x200A, 0x2028, 0x2029, 0x202F, 0x205F, 0x3000]

theorem toNat_of_isBlank {c : Char} (h : isBlank c = true) :
    (0x09 ≤ c.toNat ∧ c.toNat ≤ 0x0D) ∨ (0x1C ≤ c.toNat ∧ c.toNat ≤ 0x20) ∨ c.toNat ∈ blankCodes := by
  simp only [isBlank, Bool.or_eq_true, Bool.and_eq_true, decide_eq_true_eq, beq_iff_eq] at h
  simp only [blankCodes, List.mem_cons, List.not_mem_nil, or_false]
  omega

theorem all_wordRanges_avoid_blankCodes :
    (wordRanges.all fun r => blankCodes.all fun n => Nat.blt n r.1 || Nat.blt r.2 n) = true := by
  decide +kernel

theorem not_mem_wordRanges_of_mem_blankCodes {n : Nat} (hn : n ∈ blankCodes) {r : Nat × Nat}
    (hr : r ∈ wordRanges) : ¬(r.1 ≤ n ∧ n ≤ r.2) := by
  have hrange := List.all_eq_true.mp all_wordRanges_avoid_blankCodes r hr
  have hcode := List.all_eq_true.mp hrange n hn
  rw [Bool.or_eq_true, Nat.blt_eq, Nat.blt_eq] at hcode
  omega

theorem not_digit_of_mem_blankCodes :
    ∀ n ∈ blankCodes, ∀ first ∈ digitZeros, ¬(first ≤ n ∧ n < first + 10) := by
  decide +kernel

theorem toNat_of_isAlphanum {c : Char} (h : c.isAlphanum = true) :
    0x30 ≤ c.toNat ∧ c.toNat ≤ 0x7A := by
  have hrange : ∀ {low high : Char}, low.val ≤ c.val → c.val ≤ high.val →
      low.toNat ≤ c.toNat ∧ c.toNat ≤ high.toNat :=
    fun hlow hhigh => ⟨UInt32.le_iff_toNat_le.mp hlow, UInt32.le_iff_toNat_le.mp hhigh⟩
  have hconst : 'A'.toNat = 0x41 ∧ 'Z'.toNat = 0x5A ∧ 'a'.toNat = 0x61 ∧ 'z'.toNat = 0x7A ∧
      '0'.toNat = 0x30 ∧ '9'.toNat = 0x39 := by decide
  rcases Bool.or_eq_true_iff.mp h with h | h
  · rcases Bool.or_eq_true_iff.mp h with h | h
    · have h := of_decide_eq_true h
      have := hrange h.1 h.2
      omega
    · have h := Bool.and_eq_true_iff.mp h
      have := hrange (of_decide_eq_true h.1) (of_decide_eq_true h.2)
      omega
  · have h := Bool.and_eq_true_iff.mp h
    have := hrange (of_decide_eq_true h.1) (of_decide_eq_true h.2)
    omega

theorem toNat_of_isNameChar {c : Char} (h : isNameChar c = true) :
    (0x21 ≤ c.toNat ∧ c.toNat < 0x80) ∨ ∃ r ∈ wordRanges, r.1 ≤ c.toNat ∧ c.toNat ≤ r.2 := by
  simp only [isNameChar, isWord, Bool.or_eq_true, Bool.and_eq_true, beq_iff_eq] at h
  rcases h with ((h | rfl) | h) | rfl
  · have := toNat_of_isAlphanum h
    omega
  · left
    decide
  · exact Or.inr (CharRange.mem_iff.mp h.2)
  · left
    decide

/-- No white space may stand in a name. -/
theorem isBlank_eq_false_of_isNameChar {c : Char} (h : isNameChar c = true) : isBlank c = false := by
  refine Bool.eq_false_iff.mpr ?_
  intro hb
  have hn := toNat_of_isBlank hb
  rcases toNat_of_isNameChar h with hc | ⟨r, hr, hc⟩
  · simp only [blankCodes, List.mem_cons, List.not_mem_nil, or_false] at hn
    omega
  · -- the ranges lie beyond ASCII, and the white space there is in none of them
    have hlarge : ∀ r ∈ wordRanges, 0x80 ≤ r.1 := by decide +kernel
    have := hlarge r hr
    rcases hn with hn | hn | hn
    · omega
    · omega
    · exact not_mem_wordRanges_of_mem_blankCodes hn hr hc

theorem isNameChar_eq_false_of_isBlank {c : Char} (h : isBlank c = true) : isNameChar c = false := by
  refine Bool.eq_false_iff.mpr ?_
  intro hc
  rw [isBlank_eq_false_of_isNameChar hc] at h
  cases h

/-- No white space is a digit. -/
theorem isBlank_eq_false_of_isDecimalDigit {c : Char} (h : isDecimalDigit c = true) :
    isBlank c = false := by
  refine Bool.eq_false_iff.mpr ?_
  intro hb
  simp only [isDecimalDigit, digitValue?, Option.isSome_map, List.find?_isSome, Bool.and_eq_true,
    decide_eq_true_eq] at h
  obtain ⟨first, hf, hd⟩ := h
  have hlarge : ∀ first ∈ digitZeros, 0x30 ≤ first := by decide
  have := hlarge first hf
  rcases toNat_of_isBlank hb with hn | hn | hn
  · omega
  · omega
  · exact not_digit_of_mem_blankCodes _ hn first hf hd

theorem isDecimalDigit_eq_false_of_isBlank {c : Char} (h : isBlank c = true) :
    isDecimalDigit c = false := by
  refine Bool.eq_false_iff.mpr ?_
  intro hc
  rw [isBlank_eq_false_of_isDecimalDigit hc] at h
  cases h

theorem beq_eq_false_of_isBlank {c d : Char} (h : isBlank c = true) (hd : isBlank d = false) :
    (c == d) = false := by
  refine beq_eq_false_iff_ne.mpr ?_
  rintro rfl
  rw [hd] at h
  cases h

end AreaAtlas

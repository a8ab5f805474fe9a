import AreaAtlas.Log.File
import AreaAtlas.Proofs.Files.Store

/-!
# Putting log files aside

The places of a log file and of those that are put aside differ in their last names alone, so none of them is
below another one, `not_prefix_numbered`.  What is under a number moves on by one, `item?_putAside_succ`, the
log file begins anew, `item?_putAside_self`, and all that is neither at nor below one of the places stays,
`item?_putAside_of_spares`.  Only a directory under the last number or a place that is too long is in the way:
`putAside_eq_none_iff`.
-/

namespace AreaAtlas

/-- Nothing with a name this long is there in every store. -/
theorem Files.Store.standing?_eq_none {place : Files.Location} {name : String}
    (hlast : place.getLast? = some name) (hlong : 4 < name.length) : standing? place = none := by
  have hname : ∀ short : String, short.length ≤ 4 → place.getLast? ≠ some short := by
    intro short hshort heq
    obtain rfl := Option.some.inj (hlast.symm.trans heq)
    omega
  have htop : place.isTop = false := by
    unfold Location.isTop
    rw [Bool.or_eq_false_iff, beq_eq_false_iff_ne, List.all_eq_false]
    refine ⟨?_, name, List.mem_of_getLast? hlast, ?_⟩
    · rintro rfl
      exact hname "/" (by decide) rfl
    · rintro hdots
      exact hname ".." (by decide) (hlast.trans (congrArg some (beq_iff_eq.mp hdots)))
  have hnull : place ≠ nullDevice := by
    rintro rfl
    exact hname "null" (by decide) rfl
  unfold standing?
  rw [htop, if_neg Bool.false_ne_true, if_neg hnull]
  split
  · next usual =>
    rw [if_neg]
    intro husual
    have hshort : ∀ usual ∈ usualDirectories, usual.length ≤ 4 := by decide
    exact hname usual (hshort usual (List.contains_iff_mem.mp husual)) rfl
  · rfl

namespace Log

/-- The name of the log file that is put aside under a number. -/
def numberedName : Nat → String
  | 0 => fileName
  | n + 1 => fileName ++ "." ++ toString (n + 1)

theorem numberedName_injective : Function.Injective numberedName := by
  have hlonger : ∀ n, fileName ≠ fileName ++ "." ++ toString (n + 1) := by
    intro n heq
    have hlength := congrArg String.length heq
    rw [String.length_append, String.length_append] at hlength
    have hdot : ".".length = 1 := by decide
    omega
  intro i j heq
  cases i with
  | zero =>
    cases j with
    | zero => rfl
    | succ j => exact absurd heq (hlonger j)
  | succ i =>
    cases j with
    | zero => exact absurd heq.symm (hlonger i)
    | succ j =>
      have hdigits : (toString (i + 1)).toList = (toString (j + 1)).toList := by
        simpa [numberedName, ← String.toList_inj] using heq
      have hdigits : Nat.toDigits 10 (i + 1) = Nat.toDigits 10 (j + 1) :=
        Nat.toList_repr.symm.trans (hdigits.trans Nat.toList_repr)
      have hnumber := congrArg (Nat.ofDigitChars 10 · 0) hdigits
      simpa only [Nat.ofDigitChars_ten_toDigits] using hnumber

theorem lt_length_numberedName (n : Nat) : 4 < (numberedName n).length := by
  have hname : fileName.length = 13 := by decide
  cases n with
  | zero => exact hname ▸ (by decide : 4 < 13)
  | succ n =>
    unfold numberedName
    rw [String.length_append, String.length_append, hname]
    omega

namespace File

open Files.Store (standing? isTooLong)

/-- Something that is under a number cannot move on: the place under the next number is too long, or that
number is the last one and a directory has it. -/
def IsStuck (log : File) (store : Files.Store) (n : Nat) : Prop :=
  ∃ k < n, (store.item? (log.numbered k)).isSome = true ∧
    (isTooLong (log.numbered (k + 1)) = true ∨
      k + 1 = n ∧ store.item? (log.numbered (k + 1)) = some .directory)

instance (log : File) (store : Files.Store) (n : Nat) : Decidable (log.IsStuck store n) :=
  inferInstanceAs (Decidable (∃ k < n, _))

/-- A place is neither at nor below one of those of a log file. -/
def Spares (log : File) (place : Files.Location) : Prop :=
  ∀ n ≤ log.backups, ¬log.numbered n <+: place

instance (log : File) (place : Files.Location) : Decidable (log.Spares place) :=
  inferInstanceAs (Decidable (∀ n ≤ log.backups, _))

variable {log : File} {store after : Files.Store} {place : Files.Location} {n k : Nat}

theorem Spares.place_ne (h : log.Spares place) : log.place ≠ place := by
  rintro rfl
  exact h 0 (Nat.zero_le _) List.prefix_rfl

section Places

variable (h : isLogFile log.place = true)

include h

theorem numbered_eq (n : Nat) : log.numbered n = log.place.dropLast ++ [numberedName n] := by
  have hlast : log.place.getLast? = some fileName := beq_iff_eq.mp h
  cases n with
  | zero => exact (List.dropLast_append_getLast? fileName hlast).symm
  | succ n =>
    unfold numbered
    rw [hlast]
    rfl

/-- **None of the places is below another one.** -/
theorem not_prefix_numbered {i j : Nat} (hne : i ≠ j) : ¬log.numbered i <+: log.numbered j := by
  intro hfront
  have heq := hfront.eq_of_length (by simp [numbered_eq h])
  rw [numbered_eq h, numbered_eq h] at heq
  exact hne (numberedName_injective (List.singleton_inj.mp (List.append_cancel_left heq)))

theorem standing?_numbered (n : Nat) : standing? (log.numbered n) = none := by
  refine Files.Store.standing?_eq_none ?_ (lt_length_numberedName n)
  rw [numbered_eq h]
  exact List.getLast?_concat ..

end Places

/-! ## Moving on -/

/-- What is neither at nor below one of the places stays. -/
theorem item?_shift_of_not_below (h : log.shift store n = some after)
    (hplace : ∀ k ≤ n, ¬log.numbered k <+: place) : after.item? place = store.item? place := by
  induction n generalizing store with
  | zero =>
    obtain rfl := Option.some.inj h
    rfl
  | succ n ih =>
    unfold shift at h
    split at h
    · next moved hmoved =>
      rw [ih h fun k hk => hplace k (Nat.le_succ_of_le hk)]
      exact Files.Store.item?_moveOver_of_not_below hmoved (hplace n (Nat.le_succ n)) (hplace (n + 1) le_rfl)
    · cases h

section Moves

variable (hlog : isLogFile log.place = true)

include hlog

/-- A move leaves the lower numbers alone. -/
theorem item?_moveOver_numbered (h : store.moveOver (log.numbered n) (log.numbered (n + 1)) = some after)
    (hk : k < n) : after.item? (log.numbered k) = store.item? (log.numbered k) :=
  Files.Store.item?_moveOver_of_not_below h (not_prefix_numbered hlog (by omega))
    (not_prefix_numbered hlog (by omega))

/-- **What is under a number moves on by one.** -/
theorem item?_shift_succ (h : log.shift store n = some after) (hk : k < n)
    (hsome : (store.item? (log.numbered k)).isSome = true) :
    after.item? (log.numbered (k + 1)) = store.item? (log.numbered k) := by
  induction n generalizing store with
  | zero => exact absurd hk (Nat.not_lt_zero k)
  | succ n ih =>
    unfold shift at h
    split at h
    · next moved hmoved =>
      obtain hlt | rfl := Nat.lt_succ_iff_lt_or_eq.mp hk
      · have hsame := item?_moveOver_numbered hlog hmoved hlt
        rw [ih h hlt (by rwa [hsame]), hsame]
      · rw [item?_shift_of_not_below h fun j hj => not_prefix_numbered hlog (by omega)]
        exact Files.Store.item?_moveOver_target hmoved hsome (standing?_numbered hlog k)
          (standing?_numbered hlog (k + 1)) fun heq =>
            not_prefix_numbered hlog (Nat.succ_ne_self k) (heq ▸ List.prefix_rfl)
    · cases h

/-- The place of the log file itself becomes free. -/
theorem item?_shift_self (h : log.shift store n = some after) (hpos : 0 < n) :
    after.item? log.place = none := by
  induction n generalizing store with
  | zero => exact absurd hpos (Nat.lt_irrefl 0)
  | succ n ih =>
    unfold shift at h
    split at h
    · next moved hmoved =>
      obtain rfl | hlt := Nat.eq_zero_or_pos n
      · obtain rfl := Option.some.inj h
        exact Files.Store.item?_moveOver_source hmoved (standing?_numbered hlog 0)
          (not_prefix_numbered hlog Nat.one_ne_zero)
      · exact ih h hlt
    · cases h

/-- A move that succeeds leaves the rest as stuck as before. -/
theorem isStuck_moveOver_numbered
    (h : store.moveOver (log.numbered n) (log.numbered (n + 1)) = some after) :
    log.IsStuck after n ↔ log.IsStuck store (n + 1) := by
  constructor
  · rintro ⟨k, hk, hsome, hway⟩
    rw [item?_moveOver_numbered hlog h hk] at hsome
    refine ⟨k, Nat.lt_succ_of_lt hk, hsome, Or.inl ?_⟩
    obtain hlong | ⟨rfl, hdirectory⟩ := hway
    · exact hlong
    · -- the directory with the next number has moved on itself
      have hnone := Files.Store.item?_moveOver_source h (standing?_numbered hlog (k + 1))
        (not_prefix_numbered hlog (Nat.succ_ne_self (k + 1)))
      rw [hdirectory] at hnone
      cases hnone
  · rintro ⟨k, hk, hsome, hway⟩
    obtain hlt | rfl := Nat.lt_succ_iff_lt_or_eq.mp hk
    · have hsame := item?_moveOver_numbered hlog h hlt
      exact ⟨k, hlt, hsame ▸ hsome, Or.inl (hway.resolve_right fun hlast => by omega)⟩
    · have hnone := Files.Store.moveOver_eq_none_iff.mpr ⟨hsome, hway.imp_right And.right⟩
      rw [h] at hnone
      cases hnone

/-- **What is in the way** of moving on. -/
theorem shift_eq_none_iff : log.shift store n = none ↔ log.IsStuck store n := by
  induction n generalizing store with
  | zero =>
    refine iff_of_false (fun h => by cases h) ?_
    rintro ⟨k, hk, -⟩
    exact Nat.not_lt_zero k hk
  | succ n ih =>
    unfold shift
    cases hmove : store.moveOver (log.numbered n) (log.numbered (n + 1)) with
    | some moved =>
      show log.shift moved n = none ↔ _
      rw [ih, isStuck_moveOver_numbered hlog hmove]
    | none =>
      obtain ⟨hsome, hway⟩ := Files.Store.moveOver_eq_none_iff.mp hmove
      exact iff_of_true rfl ⟨n, Nat.lt_succ_self n, hsome, hway.imp_right fun hdirectory => ⟨rfl, hdirectory⟩⟩

/-! ## Putting aside -/

theorem putAside_eq_none_iff : log.putAside store = none ↔ log.IsStuck store log.backups := by
  rw [putAside, Option.map_eq_none_iff, shift_eq_none_iff hlog]

/-- **The log file begins anew.** -/
theorem item?_putAside_self (h : log.putAside store = some after) (hpos : 0 < log.backups) :
    after.item? log.place = some (.file []) := by
  obtain ⟨moved, hmoved, rfl⟩ := Option.map_eq_some_iff.mp h
  exact Files.Store.item?_openFile_self (item?_shift_self hlog hmoved hpos)

/-- **What is under a number moves on by one.** -/
theorem item?_putAside_succ (h : log.putAside store = some after) (hk : k < log.backups)
    (hsome : (store.item? (log.numbered k)).isSome = true) :
    after.item? (log.numbered (k + 1)) = store.item? (log.numbered k) := by
  obtain ⟨moved, hmoved, rfl⟩ := Option.map_eq_some_iff.mp h
  rw [Files.Store.item?_openFile_of_ne]
  · exact item?_shift_succ hlog hmoved hk hsome
  · exact fun heq => not_prefix_numbered hlog (Nat.succ_ne_zero k).symm (heq ▸ List.prefix_rfl)

end Moves

/-- **All other places are spared.** -/
theorem item?_putAside_of_spares (h : log.putAside store = some after) (hplace : log.Spares place) :
    after.item? place = store.item? place := by
  obtain ⟨moved, hmoved, rfl⟩ := Option.map_eq_some_iff.mp h
  rw [Files.Store.item?_openFile_of_ne hplace.place_ne]
  exact item?_shift_of_not_below hmoved hplace

end File
end Log
end AreaAtlas

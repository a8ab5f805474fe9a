import AreaAtlas.Log.Logging
import Mathlib.Data.List.Infix

/-!
# Loggers above a logger

The loggers above a logger all have names in front of a dot in its name, `isBelow_of_mem_lineage`.  The
other way round a name in front of a dot is that of a logger above only if the dot counts.  If no second dot
follows, it does, whatever other loggers there are: `mem_lineage_iff`.
-/

namespace AreaAtlas.Log

/-- Whether a name is another one, or goes on behind it with a dot. -/
def IsBelow (outer name : String) : Prop :=
  name = outer ∨ outer.toList ++ ['.'] <+: name.toList

/-- Whether a name goes on behind another one with two dots. -/
def IsDoubled (outer name : String) : Prop :=
  outer.toList ++ ['.', '.'] <+: name.toList

instance (outer name : String) : Decidable (IsBelow outer name) :=
  inferInstanceAs (Decidable (_ ∨ _))

instance (outer name : String) : Decidable (IsDoubled outer name) :=
  inferInstanceAs (Decidable (_ <+: _))

/-! ## Names backwards -/

/-- An enclosing name is followed by a dot. -/
theorem exists_eq_of_mem_enclosingBackwards {name outer : List Char}
    (h : outer ∈ enclosingBackwards name) : ∃ rest, name = rest ++ '.' :: outer := by
  fun_induction enclosingBackwards name with
  | case1 => cases h
  | case2 => cases h
  | case3 c before ih =>
    rcases List.mem_cons.mp h with rfl | h
    · exact ⟨[], rfl⟩
    · obtain ⟨rest, rfl⟩ := ih h
      exact ⟨'.' :: c :: rest, rfl⟩
  | case4 d c before hdot ih =>
    obtain ⟨rest, he⟩ := ih h
    exact ⟨d :: rest, by rw [he]; rfl⟩

/-- A name, backwards, goes on behind another one with one dot. -/
def GoesOn (outer name : List Char) : Prop :=
  ∃ rest, name = rest ++ '.' :: outer ∧ rest.getLast? ≠ some '.'

/-- What is left of the continuation when its last characters are taken off. -/
theorem getLast?_ne_of_cons {c : Char} {rest : List Char} (h : (c :: rest).getLast? ≠ some '.') :
    rest.getLast? ≠ some '.' := by
  cases rest with
  | nil => simp
  | cons d rest => rwa [List.getLast?_cons_cons] at h

/-- **A dot without a second one counts**: of the names that enclose a name, the first that is among some
names goes on itself behind `outer`, or is `outer`, if `outer` is among those names. -/
theorem exists_find?_enclosingBackwards {p : List Char → Bool} {outer name : List Char}
    (houter : outer ≠ []) (hp : p outer = true) (hname : GoesOn outer name) :
    ∃ found, (enclosingBackwards name).find? p = some found ∧ found.length < name.length ∧
      (found = outer ∨ GoesOn outer found) := by
  fun_induction enclosingBackwards name with
  | case1 =>
    obtain ⟨rest, he, -⟩ := hname
    exact absurd he.symm (by simp)
  | case2 c =>
    obtain ⟨rest, he, -⟩ := hname
    have hpositive := List.length_pos_iff.mpr houter
    have hlength : 1 = (rest ++ '.' :: outer).length := congrArg List.length he
    rw [List.length_append, List.length_cons] at hlength
    omega
  | case3 c before ih =>
    obtain ⟨rest, he, hlast⟩ := hname
    cases rest with
    | nil =>
      obtain ⟨-, rfl⟩ := List.cons.inj he
      exact ⟨c :: before, List.find?_cons_of_pos hp, Nat.lt_succ_self _, Or.inl rfl⟩
    | cons d rest =>
      obtain ⟨hd, he⟩ := List.cons.inj he
      cases rest with
      | nil => exact absurd (congrArg some hd.symm) hlast
      | cons d rest =>
        obtain ⟨rfl, rfl⟩ := List.cons.inj he
        have hlast := getLast?_ne_of_cons hlast
        cases hfound : p (c :: (rest ++ '.' :: outer)) with
        | true =>
          refine ⟨_, List.find?_cons_of_pos hfound, Nat.lt_succ_self _, Or.inr ?_⟩
          exact ⟨c :: rest, rfl, hlast⟩
        | false =>
          obtain ⟨found, hfind, hlength, hform⟩ := ih ⟨rest, rfl, getLast?_ne_of_cons hlast⟩
          refine ⟨found, ?_, ?_, hform⟩
          · rw [List.find?_cons_of_neg (by simp [hfound]), hfind]
          · rw [List.length_cons, List.length_cons]
            omega
  | case4 d c before hdot ih =>
    obtain ⟨rest, he, hlast⟩ := hname
    cases rest with
    | nil => exact absurd (List.cons.inj he).1 hdot
    | cons e rest =>
      have he : c :: before = rest ++ '.' :: outer := (List.cons.inj he).2
      obtain ⟨found, hfind, hlength, hform⟩ := ih ⟨rest, he, getLast?_ne_of_cons hlast⟩
      refine ⟨found, hfind, ?_, hform⟩
      rw [List.length_cons]
      omega

/-! ## Loggers above -/

theorem exists_of_parent? {loggers : List String} {name outer : String}
    (h : parent? loggers name = some outer) :
    ∃ rest, name.toList = outer.toList ++ '.' :: rest := by
  obtain ⟨backwards, hmem, rfl⟩ := List.mem_map.mp (List.mem_of_find?_eq_some h)
  obtain ⟨rest, he⟩ := exists_eq_of_mem_enclosingBackwards hmem
  refine ⟨rest.reverse, ?_⟩
  have he := congrArg List.reverse he
  rw [List.reverse_reverse, List.reverse_append, List.reverse_cons, List.append_assoc,
    List.singleton_append] at he
  rw [he, String.toList_ofList]

/-- **The loggers above a logger have names in front of a dot in its name.** -/
theorem isBelow_of_mem_ascend {loggers : List String} {outer : String} {bound : Nat} {name : String}
    (h : outer ∈ ascend loggers name bound) : IsBelow outer name := by
  induction bound generalizing name with
  | zero => cases h
  | succ bound ih =>
    rcases List.mem_cons.mp h with rfl | h
    · exact Or.inl rfl
    · split at h
      · next parent hparent =>
        obtain ⟨rest, he⟩ := exists_of_parent? hparent
        right
        rw [he]
        rcases ih h with rfl | ⟨behind, hbehind⟩
        · exact ⟨rest, by simp⟩
        · exact ⟨behind ++ '.' :: rest, by rw [← hbehind]; simp⟩
      · cases h

theorem parent?_of_goesOn {loggers : List String} {name outer : String} (hmem : outer ∈ loggers)
    (houter : outer.toList ≠ []) (hname : GoesOn outer.toList.reverse name.toList.reverse) :
    ∃ parent, parent? loggers name = some parent ∧ parent.toList.length < name.toList.length ∧
      (parent = outer ∨ GoesOn outer.toList.reverse parent.toList.reverse) := by
  have hcontains : loggers.contains (String.ofList outer.toList.reverse.reverse) = true := by
    rw [List.reverse_reverse, String.ofList_toList]
    exact List.contains_iff_mem.mpr hmem
  obtain ⟨found, hfind, hlength, hform⟩ := exists_find?_enclosingBackwards
    (p := fun backwards => loggers.contains (String.ofList backwards.reverse)) (by simpa using houter)
    hcontains hname
  refine ⟨String.ofList found.reverse, ?_, ?_, ?_⟩
  · unfold parent? enclosing
    rw [List.find?_map]
    exact congrArg (Option.map _) hfind
  · rw [String.toList_ofList, List.length_reverse]
    rwa [List.length_reverse] at hlength
  · rcases hform with rfl | hform
    · left
      rw [List.reverse_reverse, String.ofList_toList]
    · right
      rwa [String.toList_ofList, List.reverse_reverse]

/-- Loggers are passed one by one, until the one that the name goes on behind. -/
theorem mem_ascend {loggers : List String} {outer name : String} {bound : Nat} (hmem : outer ∈ loggers)
    (houter : outer.toList ≠ [])
    (hname : name = outer ∨ GoesOn outer.toList.reverse name.toList.reverse)
    (hbound : name.toList.length ≤ bound) : outer ∈ ascend loggers name bound := by
  induction bound generalizing name with
  | zero =>
    have hnil : name.toList = [] := List.length_eq_zero_iff.mp (Nat.le_zero.mp hbound)
    rcases hname with rfl | ⟨rest, he, -⟩
    · exact absurd hnil houter
    · rw [hnil] at he
      exact absurd he.symm (by simp)
  | succ bound ih =>
    show outer ∈ name :: _
    rcases hname with rfl | hname
    · exact List.mem_cons_self
    · obtain ⟨parent, hparent, hlength, hform⟩ := parent?_of_goesOn hmem houter hname
      rw [hparent]
      refine List.mem_cons_of_mem _ (ih hform ?_)
      omega

/-- A name goes on behind another one if a dot follows that and no second dot. -/
theorem goesOn_of_not_isDoubled {outer name : String} (h : outer.toList ++ ['.'] <+: name.toList)
    (hdoubled : ¬IsDoubled outer name) : GoesOn outer.toList.reverse name.toList.reverse := by
  obtain ⟨rest, he⟩ := h
  refine ⟨rest.reverse, ?_, ?_⟩
  · rw [← he]
    simp
  · intro hlast
    rw [List.getLast?_reverse] at hlast
    obtain ⟨behind, rfl⟩ := List.head?_eq_some_iff.mp hlast
    exact hdoubled ⟨behind, by rw [← he]; simp⟩

theorem isBelow_of_mem_lineage {loggers : List String} {outer name : String}
    (h : outer ∈ lineage loggers name) : IsBelow outer name := by
  unfold lineage at h
  split at h
  · cases h
  · exact isBelow_of_mem_ascend h

theorem toList_ne_nil_of_isRoot {name : String} (h : isRoot name = false) : name.toList ≠ [] := by
  intro hnil
  rw [String.toList_eq_nil_iff.mp hnil] at h
  revert h
  decide

/-- What is below another logger than the root is not the root. -/
theorem IsBelow.isRoot_eq_false {outer name : String} (h : IsBelow outer name)
    (houter : isRoot outer = false) : isRoot name = false := by
  rcases h with rfl | ⟨rest, he⟩
  · exact houter
  · have hdot : '.' ∈ name.toList := by
      rw [← he]
      simp
    rw [← Bool.not_eq_true]
    intro hroot
    unfold isRoot at hroot
    rcases Bool.or_eq_true_iff.mp hroot with hempty | hroot
    · rw [String.isEmpty_iff.mp hempty] at hdot
      revert hdot
      decide
    · rw [beq_iff_eq.mp hroot] at hdot
      revert hdot
      decide

/-- **Which loggers are above a logger**, unless two dots follow: those whose name is followed by a dot. -/
theorem mem_lineage_iff {loggers : List String} {outer name : String} (hmem : outer ∈ loggers)
    (houter : isRoot outer = false) (hdoubled : ¬IsDoubled outer name) :
    outer ∈ lineage loggers name ↔ IsBelow outer name := by
  refine ⟨isBelow_of_mem_lineage, fun h => ?_⟩
  unfold lineage
  rw [h.isRoot_eq_false houter]
  refine mem_ascend hmem (toList_ne_nil_of_isRoot houter) ?_ (le_of_eq String.length_toList)
  rcases h with rfl | hprefix
  · exact Or.inl rfl
  · exact Or.inr (goesOn_of_not_isDoubled hprefix hdoubled)

end AreaAtlas.Log

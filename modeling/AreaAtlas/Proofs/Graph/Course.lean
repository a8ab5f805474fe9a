import AreaAtlas.Proofs.Graph.Edges
import AreaAtlas.Proofs.Graph.Pairing
import Mathlib.Data.Sym.Sym2

/-!
# The courses of connections

A connection for both directions has no direction of its own, although it is written with one.  Its course
leaves that out.  How many connections of each course pairing makes depends on nothing but the number of
edges between each two names: an edge is paired as long as one that leads back is left, and those left
over in the end all lead the same way.
-/

namespace AreaAtlas

/-- The course of a connection: from one end to the other, or between the two. -/
inductive Course where
  | oneWay (start finish : String)
  | twoWay (ends : Sym2 String)
deriving DecidableEq

/-- The course that a connection takes. -/
def Connection.course (c : Connection) : Course :=
  if c.unidirectional then .oneWay c.start c.finish else .twoWay s(c.start, c.finish)

theorem Edge.course_connection_true (e : Edge) :
    (e.connection true).course = .oneWay e.ends.1 e.ends.2 := rfl

theorem Edge.course_connection_false (e : Edge) :
    (e.connection false).course = .twoWay s(e.ends.1, e.ends.2) := rfl

namespace Pairing

/-- The number of edges from one name to another. -/
def countEnds (l : List Edge) (a b : String) : Nat :=
  (l.map Edge.ends).count (a, b)

/-- Whether leading back can be told by the names of the ends. -/
def MeetByName (l : List Edge) : Prop :=
  ∀ e ∈ l, ∀ f ∈ l, e.reverses f = true ↔ f.ends = e.ends.swap

theorem MeetByName.mono {l l' : List Edge} (h : MeetByName l) (hsub : ∀ e ∈ l', e ∈ l) :
    MeetByName l' :=
  fun e he f hf => h e (hsub e he) f (hsub f hf)

theorem MeetByName.of_cons {e : Edge} {l : List Edge} (h : MeetByName (e :: l)) : MeetByName l :=
  h.mono fun _ hf => List.mem_cons_of_mem _ hf

theorem MeetByName.eraseLast {e : Edge} {l : List Edge} {p : Edge → Bool}
    (h : MeetByName (e :: l)) : MeetByName (eraseLast p l) :=
  h.of_cons.mono fun _ hf => mem_of_mem_eraseLast hf

theorem countEnds_nil (a b : String) : countEnds [] a b = 0 := rfl

theorem countEnds_cons (e : Edge) (l : List Edge) (a b : String) :
    countEnds (e :: l) a b = countEnds l a b + if e.ends = (a, b) then 1 else 0 := by
  unfold countEnds
  rw [List.map_cons, List.count_cons]
  simp only [beq_iff_eq]

theorem countEnds_perm {l l' : List Edge} (h : l.Perm l') (a b : String) :
    countEnds l a b = countEnds l' a b :=
  (h.map _).count_eq _

/-- What is taken out of a list is one of its elements. -/
theorem exists_perm_cons_eraseLast {α : Type} {p : α → Bool} {l : List α} (h : l.any p = true) :
    ∃ a, p a = true ∧ l.Perm (a :: eraseLast p l) := by
  obtain ⟨a, ha, hp⟩ := List.any_eq_true.mp h
  obtain ⟨b, front, behind, -, hb, hl, herase⟩ :=
    List.exists_of_eraseP (List.mem_reverse.mpr ha) hp
  refine ⟨b, hb, ?_⟩
  unfold eraseLast
  rw [herase]
  have hperm : l.reverse.Perm (b :: (front ++ behind)) := hl ▸ List.perm_middle
  exact l.reverse_perm.symm.trans (hperm.trans ((front ++ behind).reverse_perm.symm.cons b))

section Step

variable {e : Edge} {earlier : List Edge} (h : MeetByName (e :: earlier))

include h

/-- Of two edges that are paired, one leads each way. -/
theorem countEnds_of_any (hany : earlier.any e.reverses = true) (a b : String) :
    countEnds (e :: earlier) a b = countEnds (eraseLast e.reverses earlier) a b +
      (if e.ends = (a, b) then 1 else 0) + if e.ends = (b, a) then 1 else 0 := by
  obtain ⟨f, hback, hperm⟩ := exists_perm_cons_eraseLast hany
  have hf : f ∈ e :: earlier := List.mem_cons_of_mem _ (hperm.mem_iff.mpr List.mem_cons_self)
  have hends : f.ends = e.ends.swap := (h e List.mem_cons_self f hf).mp hback
  have hswap : e.ends.swap = (a, b) ↔ e.ends = (b, a) := by
    rw [Prod.swap_eq_iff_eq_swap, Prod.swap_prod_mk]
  rw [countEnds_cons, countEnds_perm hperm, countEnds_cons, hends]
  simp only [hswap]
  omega

/-- Nothing leads back along an edge that finds no partner. -/
theorem countEnds_of_not_any (hany : ¬earlier.any e.reverses = true) {a b : String}
    (he : e.ends = (a, b)) : countEnds earlier b a = 0 := by
  refine List.count_eq_zero.mpr ?_
  intro hmem
  obtain ⟨f, hf, hends⟩ := List.mem_map.mp hmem
  refine hany (List.any_eq_true.mpr ⟨f, hf, ?_⟩)
  refine (h e List.mem_cons_self f (List.mem_cons_of_mem _ hf)).mpr ?_
  rw [hends, he]
  rfl

end Step

/-- **The connections for one direction only**: the edges that one way has more than the other, and from
a name to itself the one that is left of an odd number. -/
theorem count_oneWay {l : List Edge} (h : MeetByName l) (a b : String) :
    ((pair l).map Connection.course).count (.oneWay a b) =
      if a = b then countEnds l a a % 2 else countEnds l a b - countEnds l b a := by
  induction l using pair.induct with
  | case1 => simp [countEnds_nil]
  | case2 e earlier hany ih =>
    have hne : (e.connection false).course ≠ .oneWay a b := Course.noConfusion
    rw [pair_cons_of_any hany, List.map_cons, List.count_cons_of_ne hne, ih h.eraseLast]
    simp only [countEnds_of_any h hany]
    split
    · split <;> omega
    · omega
  | case3 e earlier hany ih =>
    have hcourse : (e.connection true).course = .oneWay a b ↔ e.ends = (a, b) := by
      rw [Edge.course_connection_true, Course.oneWay.injEq, Prod.ext_iff]
    -- if this edge leads one of the two ways, none is left that leads the other
    have hthere : e.ends = (a, b) → countEnds earlier b a = 0 := countEnds_of_not_any h hany
    have hback : e.ends = (b, a) → countEnds earlier a b = 0 := countEnds_of_not_any h hany
    rw [pair_cons_of_not_any hany, List.map_cons, List.count_cons, ih h.of_cons]
    simp only [beq_iff_eq, hcourse, countEnds_cons]
    by_cases hself : a = b
    · subst hself
      by_cases hloop : e.ends = (a, a)
      · simp only [hloop, hthere hloop, if_true]
      · simp only [hloop, if_true, if_false, Nat.add_zero]
    · grind

/-- **The connections for both directions**: each takes an edge of either way, and from a name to itself
two. -/
theorem count_twoWay {l : List Edge} (h : MeetByName l) (a b : String) :
    ((pair l).map Connection.course).count (.twoWay s(a, b)) =
      if a = b then countEnds l a a / 2 else min (countEnds l a b) (countEnds l b a) := by
  induction l using pair.induct with
  | case1 => simp [countEnds_nil]
  | case2 e earlier hany ih =>
    have hcourse : (e.connection false).course = .twoWay s(a, b) ↔
        e.ends = (a, b) ∨ e.ends = (b, a) := by
      rw [Edge.course_connection_false, Course.twoWay.injEq, Sym2.eq_iff, Prod.ext_iff, Prod.ext_iff]
    rw [pair_cons_of_any hany, List.map_cons, List.count_cons, ih h.eraseLast]
    simp only [beq_iff_eq, hcourse, countEnds_of_any h hany]
    by_cases hself : a = b
    · subst hself
      by_cases hloop : e.ends = (a, a)
      · simp only [hloop, or_self, if_true]
        omega
      · simp only [hloop, or_self, if_true, if_false, Nat.add_zero]
    · grind
  | case3 e earlier hany ih =>
    have hne : (e.connection true).course ≠ .twoWay s(a, b) := Course.noConfusion
    have hthere : e.ends = (a, b) → countEnds earlier b a = 0 := countEnds_of_not_any h hany
    have hback : e.ends = (b, a) → countEnds earlier a b = 0 := countEnds_of_not_any h hany
    rw [pair_cons_of_not_any hany, List.map_cons, List.count_cons_of_ne hne, ih h.of_cons]
    simp only [countEnds_cons]
    by_cases hself : a = b
    · subst hself
      by_cases hloop : e.ends = (a, a)
      · simp only [hloop, hthere hloop, if_true]
      · simp only [hloop, if_true, if_false, Nat.add_zero]
    · grind

/-- **Pairing makes connections of the same courses** of edges between the same names, whatever order
the edges are in. -/
theorem map_course_pair_perm {l l' : List Edge} (h : MeetByName l) (h' : MeetByName l')
    (hends : (l.map Edge.ends).Perm (l'.map Edge.ends)) :
    ((pair l).map Connection.course).Perm ((pair l').map Connection.course) := by
  have hcount : ∀ a b, countEnds l a b = countEnds l' a b := fun a b => hends.count_eq (a, b)
  rw [List.perm_iff_count]
  intro course
  cases course with
  | oneWay a b => rw [count_oneWay h, count_oneWay h', hcount, hcount, hcount]
  | twoWay ends =>
    induction ends using Sym2.ind with
    | _ a b => rw [count_twoWay h, count_twoWay h', hcount, hcount, hcount]

end Pairing

end AreaAtlas

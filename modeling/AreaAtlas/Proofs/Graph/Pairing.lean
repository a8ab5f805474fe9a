import AreaAtlas.Graph.Build

/-!
# What pairing does to a class of edges

Pairing goes through all edges of a table at once, but edges that lead neither along nor back along each
other do not meet.  So a class of edges that holds the partners of its members can be looked at by
itself: `filter_pair` says that its connections are those that pairing makes of its edges alone.  Of such
a class the first connection is easily told, `head?_pair`.  There are connections exactly if all targets are in
range, `derive_eq_ok_iff`.
-/

namespace AreaAtlas.Pairing

/-! ## Targets in range -/

/-- A target is in range: it leads to an entry of the list, counted from either end, and it is not beyond
all indices. -/
def InRange {α : Type} (l : List α) (target : Int) : Prop :=
  (-l.length ≤ target ∧ target < l.length) ∧ -indexBound ≤ target ∧ target < indexBound

instance {α : Type} (l : List α) (target : Int) : Decidable (InRange l target) :=
  inferInstanceAs (Decidable ((_ ∧ _) ∧ _ ∧ _))

theorem isNone_atIndex?_iff {α : Type} {l : List α} {target : Int} :
    (atIndex? l target).isNone = true ↔ ¬(-l.length ≤ target ∧ target < l.length) := by
  unfold atIndex?
  split
  · rw [Option.isNone_iff_eq_none, List.getElem?_eq_none_iff]
    omega
  · split
    · rw [Option.isNone_iff_eq_none, List.getElem?_eq_none_iff]
      omega
    · simp only [Option.isNone_none, true_iff]
      omega

theorem fault?_eq_none_iff {α : Type} {l : List α} {target : Int} :
    fault? l target = none ↔ InRange l target := by
  unfold fault? InRange
  by_cases hbound : target < -indexBound ∨ indexBound ≤ target
  · rw [if_pos hbound]
    simp only [reduceCtorEq, false_iff, not_and]
    omega
  · rw [if_neg hbound]
    by_cases hrange : -l.length ≤ target ∧ target < l.length
    · rw [if_neg (fun h => isNone_atIndex?_iff.mp h hrange)]
      simp only [true_iff]
      omega
    · rw [if_pos (isNone_atIndex?_iff.mpr hrange)]
      simp only [reduceCtorEq, false_iff]
      exact fun h => hrange h.1

/-- Connections are derived exactly if anchors only lead to targets in range. -/
theorem derive_eq_ok_iff {nodes entries : List Node} {connections' : List Connection} :
    derive nodes entries = .ok connections' ↔
      (∀ n ∈ entries, n.kind = .anchor → ∀ t ∈ n.targets, InRange nodes t) ∧
        connections' = connections nodes entries := by
  have hfault : firstFault? nodes entries = none ↔
      ∀ n ∈ entries, n.kind = .anchor → ∀ t ∈ n.targets, InRange nodes t := by
    unfold firstFault?
    rw [List.findSome?_eq_none_iff]
    refine forall₂_congr fun n _ => ?_
    by_cases hkind : n.kind = .anchor
    · simp only [hkind, if_true, true_imp_iff, List.findSome?_eq_none_iff, fault?_eq_none_iff]
    · simp only [hkind, if_false, false_imp_iff]
  unfold derive
  rw [← hfault]
  cases firstFault? nodes entries with
  | none => simp [eq_comm]
  | some fault => simp

/-! ## Pairing -/

section EraseLast

variable {α : Type} {p r : α → Bool} {l : List α}

theorem mem_of_mem_eraseLast {a : α} (h : a ∈ eraseLast r l) : a ∈ l :=
  List.mem_reverse.mp (List.mem_of_mem_eraseP (List.mem_reverse.mp h))

/-- What is taken out counts for a filter that lets all of its kind pass. -/
theorem filter_eraseP_of_pos (h : ∀ a ∈ l, r a = true → p a = true) :
    (l.eraseP r).filter p = (l.filter p).eraseP r := by
  induction l with
  | nil => rfl
  | cons a rest ih =>
    have hrest : ∀ b ∈ rest, r b = true → p b = true := fun b hb => h b (List.mem_cons_of_mem _ hb)
    by_cases hr : r a = true
    · have hp : p a = true := h a List.mem_cons_self hr
      rw [List.eraseP_cons_of_pos hr, List.filter_cons_of_pos hp, List.eraseP_cons_of_pos hr]
    · rw [List.eraseP_cons_of_neg hr]
      by_cases hp : p a = true
      · rw [List.filter_cons_of_pos hp, List.filter_cons_of_pos hp, List.eraseP_cons_of_neg hr,
          ih hrest]
      · rw [List.filter_cons_of_neg hp, List.filter_cons_of_neg hp, ih hrest]

/-- What is taken out does not count for a filter that lets none of its kind pass. -/
theorem filter_eraseP_of_neg (h : ∀ a ∈ l, r a = true → ¬p a = true) :
    (l.eraseP r).filter p = l.filter p := by
  induction l with
  | nil => rfl
  | cons a rest ih =>
    by_cases hr : r a = true
    · rw [List.eraseP_cons_of_pos hr, List.filter_cons_of_neg (h a List.mem_cons_self hr)]
    · have hrest := ih fun b hb => h b (List.mem_cons_of_mem _ hb)
      rw [List.eraseP_cons_of_neg hr, List.filter_cons, List.filter_cons, hrest]

theorem filter_eraseLast_of_pos (h : ∀ a ∈ l, r a = true → p a = true) :
    (eraseLast r l).filter p = eraseLast r (l.filter p) := by
  have hback : ∀ a ∈ l.reverse, r a = true → p a = true := fun a ha => h a (List.mem_reverse.mp ha)
  rw [eraseLast, List.filter_reverse, filter_eraseP_of_pos hback, eraseLast, List.filter_reverse]

theorem filter_eraseLast_of_neg (h : ∀ a ∈ l, r a = true → ¬p a = true) :
    (eraseLast r l).filter p = l.filter p := by
  have hback : ∀ a ∈ l.reverse, r a = true → ¬p a = true := fun a ha => h a (List.mem_reverse.mp ha)
  rw [eraseLast, List.filter_reverse, filter_eraseP_of_neg hback, List.filter_reverse,
    List.reverse_reverse]

end EraseLast

/-! ## Pairing -/

@[simp] theorem pair_nil : pair [] = [] := by
  rw [pair]

theorem pair_cons_of_any {e : Edge} {earlier : List Edge} (h : earlier.any e.reverses = true) :
    pair (e :: earlier) = e.connection false :: pair (eraseLast e.reverses earlier) := by
  rw [pair, if_pos h]

theorem pair_cons_of_not_any {e : Edge} {earlier : List Edge}
    (h : ¬earlier.any e.reverses = true) :
    pair (e :: earlier) = e.connection true :: pair earlier := by
  rw [pair, if_neg h]

/-- The latest edge makes the first connection, for both directions if an edge leads back. -/
theorem head?_pair (e : Edge) (earlier : List Edge) :
    (pair (e :: earlier)).head? = some (e.connection (!earlier.any e.reverses)) := by
  by_cases h : earlier.any e.reverses = true
  · rw [pair_cons_of_any h, h]
    rfl
  · rw [pair_cons_of_not_any h, Bool.eq_false_iff.mpr h]
    rfl

/-- A connection is made of an edge, and if it is for both directions, an edge leads back along that
one. -/
theorem exists_of_mem_pair {l : List Edge} {c : Connection} (h : c ∈ pair l) :
    ∃ e ∈ l, c = e.connection c.unidirectional ∧
      (c.unidirectional = false → ∃ f ∈ l, e.reverses f = true) := by
  induction l using pair.induct with
  | case1 =>
    rw [pair_nil] at h
    cases h
  | case2 e earlier hany ih =>
    rw [pair_cons_of_any hany] at h
    rcases List.mem_cons.mp h with rfl | h
    · obtain ⟨f, hf, hback⟩ := List.any_eq_true.mp hany
      exact ⟨e, List.mem_cons_self, rfl, fun _ => ⟨f, List.mem_cons_of_mem _ hf, hback⟩⟩
    · obtain ⟨e', he', hc, hback⟩ := ih h
      have hsub : ∀ f ∈ eraseLast e.reverses earlier, f ∈ e :: earlier :=
        fun f hf => List.mem_cons_of_mem _ (mem_of_mem_eraseLast hf)
      exact ⟨e', hsub e' he', hc, fun hu => (hback hu).imp fun f hf => ⟨hsub f hf.1, hf.2⟩⟩
  | case3 e earlier hany ih =>
    rw [pair_cons_of_not_any hany] at h
    rcases List.mem_cons.mp h with rfl | h
    · exact ⟨e, List.mem_cons_self, rfl, fun hu => absurd hu.symm Bool.false_ne_true⟩
    · obtain ⟨e', he', hc, hback⟩ := ih h
      exact ⟨e', List.mem_cons_of_mem _ he', hc,
        fun hu => (hback hu).imp fun f hf => ⟨List.mem_cons_of_mem _ hf.1, hf.2⟩⟩

/-- A class of edges: with an edge it holds those that lead back along it. -/
def IsClass (p : Edge → Bool) (l : List Edge) : Prop :=
  ∀ e ∈ l, ∀ f ∈ l, e.reverses f = true → p f = p e

theorem IsClass.mono {p : Edge → Bool} {l l' : List Edge} (h : IsClass p l)
    (hsub : ∀ e ∈ l', e ∈ l) : IsClass p l' :=
  fun e he f hf => h e (hsub e he) f (hsub f hf)

/-- **The connections of a class are made of its edges alone.** -/
theorem filter_pair {p : Edge → Bool} {q : Connection → Bool}
    (hq : ∀ e unidirectional, q (e.connection unidirectional) = p e) {l : List Edge}
    (h : IsClass p l) : (pair l).filter q = pair (l.filter p) := by
  induction l using pair.induct with
  | case1 => rw [List.filter_nil, pair_nil, List.filter_nil]
  | case2 e earlier hany ih =>
    have hbefore : IsClass p (eraseLast e.reverses earlier) :=
      h.mono fun f hf => List.mem_cons_of_mem _ (mem_of_mem_eraseLast hf)
    have hpartner : ∀ f ∈ earlier, e.reverses f = true → p f = p e := fun f hf =>
      h e List.mem_cons_self f (List.mem_cons_of_mem _ hf)
    rw [pair_cons_of_any hany]
    by_cases hp : p e = true
    · -- the partner is of the class, too
      have hany' : (earlier.filter p).any e.reverses = true := by
        obtain ⟨f, hf, hback⟩ := List.any_eq_true.mp hany
        refine List.any_eq_true.mpr ⟨f, List.mem_filter.mpr ⟨hf, ?_⟩, hback⟩
        rw [hpartner f hf hback, hp]
      rw [List.filter_cons_of_pos (by rw [hq]; exact hp), List.filter_cons_of_pos hp,
        pair_cons_of_any hany', ih hbefore, filter_eraseLast_of_pos]
      intro f hf hback
      rw [hpartner f hf hback, hp]
    · -- the partner is outside the class, too
      rw [List.filter_cons_of_neg (by rw [hq]; exact hp), List.filter_cons_of_neg hp, ih hbefore,
        filter_eraseLast_of_neg]
      intro f hf hback
      rw [hpartner f hf hback]
      exact hp
  | case3 e earlier hany ih =>
    have hbefore : IsClass p earlier := h.mono fun f hf => List.mem_cons_of_mem _ hf
    rw [pair_cons_of_not_any hany]
    by_cases hp : p e = true
    · have hany' : ¬(earlier.filter p).any e.reverses = true := by
        intro hsome
        obtain ⟨f, hf, hback⟩ := List.any_eq_true.mp hsome
        exact hany (List.any_eq_true.mpr ⟨f, (List.mem_filter.mp hf).1, hback⟩)
      rw [List.filter_cons_of_pos (by rw [hq]; exact hp), List.filter_cons_of_pos hp,
        pair_cons_of_not_any hany', ih hbefore]
    · rw [List.filter_cons_of_neg (by rw [hq]; exact hp), List.filter_cons_of_neg hp, ih hbefore]

end AreaAtlas.Pairing

import AreaAtlas.Proofs.Graph.Order

/-!
# How often two names are connected

Pairing takes one edge of each way at a time, so between two names it makes as many connections as edges
lead the way that more of them lead.  A name that is entered twice under one anchor is therefore connected
to it twice: `Graph.joinsAsOften_of_build` gives the number, and says when no two connections have the
same ends.
-/

namespace AreaAtlas

/-- The ends of a connection, without their order. -/
def Connection.ends (c : Connection) : Sym2 String :=
  s(c.start, c.finish)

/-- How many surviving entries lead from the one name to the other, if both have a place. -/
def leadCount (lines : List Areas.Line) (nodes : List Node) (a b : String) : Nat :=
  if a ∈ placedNames nodes ∧ b ∈ placedNames nodes then
    (Areas.passages .unrestricted (Areas.declarationsIn lines)).count (a, b)
  else 0

/-- **The number of connections between two names** in a graph, given by the lines of the areas text and
the node table. -/
structure Graph.JoinsAsOften (g : Graph) (lines : List Areas.Line) (nodes : List Node) : Prop where
  /-- There are as many as entries lead the way that more of them lead. -/
  count_of_ne : ∀ a b, a ≠ b → (g.connections.map Connection.ends).count s(a, b) =
    max (leadCount lines nodes a b) (leadCount lines nodes b a)
  /-- From a name to itself two entries share one. -/
  count_self : ∀ a, (g.connections.map Connection.ends).count s(a, a) =
    (leadCount lines nodes a a + 1) / 2
  /-- No two have the same ends exactly if no entry is repeated, and none from a name to itself stands
  there three times. -/
  nodup_iff : (g.connections.map Connection.ends).Nodup ↔
    ∀ a b, leadCount lines nodes a b ≤ if a = b then 2 else 1

/-! ## Ends and courses -/

/-- The ends of a course. -/
def Course.ends : Course → Sym2 String
  | .oneWay start finish => s(start, finish)
  | .twoWay ends => ends

theorem map_ends_eq (connections : List Connection) :
    connections.map Connection.ends = (connections.map Connection.course).map Course.ends := by
  rw [List.map_map]
  refine List.map_congr_left fun c _ => ?_
  rw [Function.comp_apply, Connection.course]
  split
  · rfl
  · rfl

/-- Between two different names three courses lead. -/
theorem count_ends_of_ne {a b : String} (h : a ≠ b) (courses : List Course) :
    (courses.map Course.ends).count s(a, b) =
      courses.count (.oneWay a b) + courses.count (.oneWay b a) + courses.count (.twoWay s(a, b)) := by
  induction courses with
  | nil => rfl
  | cons course rest ih =>
    rw [List.map_cons, List.count_cons, ih, List.count_cons, List.count_cons, List.count_cons]
    simp only [beq_iff_eq]
    cases course with
    | twoWay ends =>
      by_cases hends : ends = s(a, b)
      · simp [Course.ends, hends]
        omega
      · simp [Course.ends, hends]
    | oneWay start finish =>
      have hends : (Course.oneWay start finish).ends = s(a, b) ↔
          start = a ∧ finish = b ∨ start = b ∧ finish = a := Sym2.eq_iff
      simp only [hends, Course.oneWay.injEq, reduceCtorEq, if_false]
      -- a course in one direction leads there or back, not both
      by_cases hthere : start = a ∧ finish = b
      · have hback : ¬(start = b ∧ finish = a) := fun hback => h (hthere.1.symm.trans hback.1)
        rw [if_pos (Or.inl hthere), if_pos hthere, if_neg hback]
        omega
      · by_cases hback : start = b ∧ finish = a
        · rw [if_pos (Or.inr hback), if_neg hthere, if_pos hback]
          omega
        · rw [if_neg (not_or.mpr ⟨hthere, hback⟩), if_neg hthere, if_neg hback]
          simp only [Nat.add_zero]

/-- From a name to itself two courses lead. -/
theorem count_ends_self (a : String) (courses : List Course) :
    (courses.map Course.ends).count s(a, a) =
      courses.count (.oneWay a a) + courses.count (.twoWay s(a, a)) := by
  induction courses with
  | nil => rfl
  | cons course rest ih =>
    rw [List.map_cons, List.count_cons, ih, List.count_cons, List.count_cons]
    simp only [beq_iff_eq]
    cases course with
    | twoWay ends =>
      by_cases hends : ends = s(a, a)
      · simp [Course.ends, hends]
        omega
      · simp [Course.ends, hends]
    | oneWay start finish =>
      have hends : (Course.oneWay start finish).ends = s(a, a) ↔ start = a ∧ finish = a := by
        show s(start, finish) = s(a, a) ↔ _
        rw [Sym2.eq_iff, or_self]
      simp only [hends, Course.oneWay.injEq, reduceCtorEq, if_false]
      omega

open Pairing

/-! ## Counting connections -/

section Count

variable {l : List Edge} (h : MeetByName l)

include h

/-- Between two names there are as many connections as edges lead the way that more of them lead. -/
theorem count_ends_pair_of_ne {a b : String} (hne : a ≠ b) :
    ((pair l).map Connection.ends).count s(a, b) = max (countEnds l a b) (countEnds l b a) := by
  rw [map_ends_eq, count_ends_of_ne hne, count_oneWay h, count_oneWay h, count_twoWay h]
  rw [if_neg hne, if_neg hne.symm, if_neg hne]
  omega

/-- From a name to itself two edges make one. -/
theorem count_ends_pair_self (a : String) :
    ((pair l).map Connection.ends).count s(a, a) = (countEnds l a a + 1) / 2 := by
  rw [map_ends_eq, count_ends_self, count_oneWay h, count_twoWay h, if_pos rfl, if_pos rfl]
  omega

end Count

/-- The edges from one name to another are the surviving entries that lead there. -/
theorem countEnds_edges {lines : List Areas.Line} {register : NodeTable.Register}
    (hlink : NodeTable.Linkable register .unrestricted (Areas.declarationsIn lines))
    {nodes : List Node} (hnodes : nodes =
      NodeTable.tableOf register.locations .unrestricted (Areas.declarationsIn lines))
    (a b : String) : countEnds (edges nodes (placed nodes)).reverse a b = leadCount lines nodes a b := by
  unfold countEnds leadCount
  rw [List.map_reverse, List.count_reverse, map_ends_edges hlink hnodes]
  split
  · next hplaced =>
    rw [List.count_filter]
    exact decide_eq_true hplaced
  · next hplaced =>
    refine List.count_eq_zero.mpr fun hmem => hplaced ?_
    exact of_decide_eq_true (List.mem_filter.mp hmem).2

/-- **Two names are connected as often as more entries lead one way.** -/
theorem Graph.joinsAsOften_of_build {areas locations : String} {g : Graph}
    (h : Graph.build areas locations = .ok g) :
    ∃ logic, Logic.readUnrestricted areas locations = .ok logic ∧
      g.JoinsAsOften (Areas.logicalLines areas.toList) logic.nodes := by
  obtain ⟨logic, hlogic, rfl⟩ := Except.map_eq_ok_iff.mp h
  have hmeet := (isExact_of_readUnrestricted hlogic).meetByName
  obtain ⟨-, -, -, hds, hlink, hnodes⟩ := Logic.read_eq_ok_iff.mp hlogic
  rw [hds] at hlink hnodes
  have hlead := countEnds_edges hlink hnodes
  have hne : ∀ a b, a ≠ b → ((Graph.ofNodes logic.nodes).connections.map Connection.ends).count s(a, b)
      = max (leadCount (Areas.logicalLines areas.toList) logic.nodes a b)
        (leadCount (Areas.logicalLines areas.toList) logic.nodes b a) := by
    intro a b hab
    rw [← hlead, ← hlead]
    exact count_ends_pair_of_ne hmeet hab
  have hself : ∀ a, ((Graph.ofNodes logic.nodes).connections.map Connection.ends).count s(a, a)
      = (leadCount (Areas.logicalLines areas.toList) logic.nodes a a + 1) / 2 := by
    intro a
    rw [← hlead]
    exact count_ends_pair_self hmeet a
  refine ⟨logic, hlogic, { count_of_ne := hne, count_self := hself, nodup_iff := ?nodup_iff }⟩
  case nodup_iff =>
    rw [List.nodup_iff_count_le_one]
    constructor
    · intro honce a b
      have hcount := honce s(a, b)
      by_cases hab : a = b
      · subst hab
        rw [hself] at hcount
        rw [if_pos rfl]
        omega
      · rw [hne a b hab] at hcount
        rw [if_neg hab]
        omega
    · intro hlead ends
      induction ends using Sym2.ind with
      | _ a b =>
        have hthere := hlead a b
        by_cases hab : a = b
        · subst hab
          rw [if_pos rfl] at hthere
          rw [hself]
          omega
        · have hback := hlead b a
          rw [if_neg hab] at hthere
          rw [if_neg (Ne.symm hab)] at hback
          rw [hne a b hab]
          omega

/-- An entry that stands there three times and one that leads back once, and two from an anchor to
itself. -/
def Areas.repeatedEntries : String :=
  "anchor A at 1, 2:\n  conn B: free\n  conn B: free\n  conn B: free\n  conn A: free\n  conn A: free\n" ++
    "anchor B at 3, 4:\n  conn A: free\n"

theorem Graph.joinsAsOften_of_build_repeatedEntries :
    ∃ (g : Graph) (logic : Logic), Graph.build Areas.repeatedEntries "" = .ok g ∧
      Logic.readUnrestricted Areas.repeatedEntries "" = .ok logic ∧
      g.connections.map (fun c => (c.start, c.finish, c.unidirectional))
        = [("B", "A", false), ("A", "A", false), ("A", "B", true), ("A", "B", true)] ∧
      g.JoinsAsOften (Areas.logicalLines Areas.repeatedEntries.toList) logic.nodes := by
  have hbuild : (Graph.build Areas.repeatedEntries "").map
      (·.connections.map fun c => (c.start, c.finish, c.unidirectional))
      = .ok [("B", "A", false), ("A", "A", false), ("A", "B", true), ("A", "B", true)] := by
    decide +kernel
  obtain ⟨g, hg, hconnections⟩ := Except.map_eq_ok_iff.mp hbuild
  obtain ⟨logic, hlogic, hjoins⟩ := Graph.joinsAsOften_of_build hg
  exact ⟨g, logic, hg, hlogic, hconnections, hjoins⟩

/-- Two names may be connected more than once. -/
theorem Graph.exists_build_not_nodup :
    ∃ (areas locations : String) (g : Graph), Graph.build areas locations = .ok g ∧
      ¬(g.connections.map Connection.ends).Nodup := by
  have hbuild : (Graph.build
      "anchor A at 1, 2:\n  conn B: free\n  conn B: free\nanchor B at 3, 4:\n  nospawn\n" "").map
      (·.connections) = .ok [⟨"A", "B", true, .branch⟩, ⟨"A", "B", true, .branch⟩] := by
    decide +kernel
  obtain ⟨g, hg, hconnections⟩ := Except.map_eq_ok_iff.mp hbuild
  refine ⟨_, _, g, hg, ?_⟩
  rw [hconnections]
  simp

end AreaAtlas

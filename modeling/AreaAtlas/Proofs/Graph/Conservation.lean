import AreaAtlas.Proofs.Graph.Course

/-!
# No edge is lost in pairing

The edges that connections are made of can be counted without making them: they are the targets of anchors
among the entries, as far as these lead to placed nodes.  Pairing uses up every one of them, two for a
connection in both directions and one for any other.  `derive_conserves` says how many connections there
are then between two nodes, for any table in which nodes can be told apart by name and by index, and for
entries in any order and with any repetitions.
-/

namespace AreaAtlas.Pairing

/-! ## Counting edges -/

/-- How many targets of anchors among the entries lead to placed nodes, for the anchors and the nodes of
these kinds. -/
def countCandidates (nodes entries : List Node) (starts finishes : Node → Bool) : Nat :=
  ((entries.filter fun n => n.kind = .anchor && starts n).flatMap (·.targets)).countP fun t =>
    (atIndex? nodes t).any fun m => m.position.isSome && finishes m

section Candidates

variable {nodes entries : List Node} {starts finishes : Node → Bool}

theorem countP_edgesFrom {n : Node} (hkind : n.kind = .anchor) :
    (edgesFrom nodes n).countP (fun e => starts e.start && finishes e.finish) =
      if starts n then n.targets.countP fun t =>
        (atIndex? nodes t).any fun m => m.position.isSome && finishes m
      else 0 := by
  rw [edgesFrom, if_pos hkind]
  induction n.targets with
  | nil => simp
  | cons t rest ih =>
    cases hat : atIndex? nodes t with
    | none =>
      rw [List.filterMap_cons_none hat, ih, List.countP_cons_of_neg (by rw [hat]; exact Bool.false_ne_true)]
    | some m =>
      rw [List.filterMap_cons_some hat, List.filterMap_cons, List.countP_cons, hat]
      by_cases hp : m.position.isSome = true
      · rw [if_pos hp]
        simp only [List.countP_cons, ih, Option.any_some, hp, Bool.true_and]
        cases starts n with
        | true => simp
        | false => simp
      · rw [if_neg hp]
        simp only [ih, Option.any_some, hp, Bool.false_and, Bool.false_eq_true, if_false, Nat.add_zero]

/-- **The edges that are made are the candidates**, of whatever anchors and nodes. -/
theorem countP_edges :
    (edges nodes entries).countP (fun e => starts e.start && finishes e.finish)
      = countCandidates nodes entries starts finishes := by
  unfold edges countCandidates
  induction entries with
  | nil => rfl
  | cons n rest ih =>
    rw [List.flatMap_cons, List.countP_append, ih]
    by_cases hkind : n.kind = .anchor
    · rw [countP_edgesFrom hkind]
      by_cases hstart : starts n = true
      · rw [List.filter_cons_of_pos (by simp [hkind, hstart]), List.flatMap_cons, List.countP_append,
          if_pos hstart]
      · rw [List.filter_cons_of_neg (by simp [hstart]), if_neg hstart, Nat.zero_add]
    · rw [edgesFrom, if_neg hkind, List.filter_cons_of_neg (by simp [hkind]), List.countP_nil,
        Nat.zero_add]

/-- All edges together. -/
theorem length_edges :
    (edges nodes entries).length = countCandidates nodes entries (fun _ => true) fun _ => true := by
  rw [← countP_edges]
  exact (List.countP_eq_length.mpr fun _ _ => rfl).symm

/-- Edges that are counted by name are candidates that are counted by index. -/
theorem countEnds_edges_of_subset (hindex : (nodes.map (·.index)).Nodup)
    (hn : (nodes.map (·.identifier)).Nodup) (hentries : entries ⊆ nodes) {m n : Node} (hm : m ∈ nodes)
    (hn' : n ∈ nodes) : countEnds (edges nodes entries).reverse m.identifier n.identifier
      = countCandidates nodes entries (·.index = m.index) (·.index = n.index) := by
  unfold countEnds
  rw [List.map_reverse, List.count_reverse, List.count_eq_countP, List.countP_map, ← countP_edges]
  refine List.countP_congr ?_
  intro e he
  obtain ⟨hstart, -, hfinish⟩ := mem_edges he
  rw [Function.comp_apply, beq_iff_eq, Edge.ends, Prod.mk.injEq, Bool.and_eq_true, decide_eq_true_eq,
    decide_eq_true_eq, index_eq_iff hindex hn (hentries hstart) hm,
    index_eq_iff hindex hn (mem_of_mem_placed hfinish) hn']

end Candidates

/-! ## Using edges up -/

/-- A connection in both directions uses up two edges, any other one. -/
theorem countP_pair (l : List Edge) :
    (pair l).countP (·.unidirectional) + 2 * (pair l).countP (!·.unidirectional) = l.length := by
  induction l using pair.induct with
  | case1 => simp
  | case2 e earlier hany ih =>
    obtain ⟨f, -, hperm⟩ := exists_perm_cons_eraseLast hany
    have hlength := hperm.length_eq
    have htwo : (e.connection false).unidirectional = false := rfl
    rw [List.length_cons] at hlength
    rw [pair_cons_of_any hany, List.countP_cons, List.countP_cons, htwo, List.length_cons, hlength, ← ih]
    simp only [Bool.false_eq_true, if_false, Bool.not_false, if_true]
    omega
  | case3 e earlier hany ih =>
    have hone : (e.connection true).unidirectional = true := rfl
    rw [pair_cons_of_not_any hany, List.countP_cons, List.countP_cons, hone, List.length_cons, ← ih]
    simp only [if_true, Bool.not_true, Bool.false_eq_true, if_false]
    omega

/-- How many candidates lead from the node of one index to that of another. -/
def candidates (nodes entries : List Node) (start finish : Int) : Nat :=
  countCandidates nodes entries (·.index = start) (·.index = finish)

/-- **The balance of candidates and connections.** -/
structure Conserves (nodes entries : List Node) (connections : List Connection) : Prop where
  /-- Between two nodes as many connections go both ways as candidates lead each way. -/
  twoWay_of_ne : ∀ m ∈ nodes, ∀ n ∈ nodes, m.index ≠ n.index →
    (connections.map Connection.course).count (.twoWay s(m.identifier, n.identifier)) =
      min (candidates nodes entries m.index n.index) (candidates nodes entries n.index m.index)
  /-- The surplus of one way goes that way only; there is none the other way. -/
  oneWay_of_ne : ∀ m ∈ nodes, ∀ n ∈ nodes, m.index ≠ n.index →
    (connections.map Connection.course).count (.oneWay m.identifier n.identifier) =
      candidates nodes entries m.index n.index - candidates nodes entries n.index m.index
  /-- From a node to itself two candidates share one. -/
  twoWay_self : ∀ n ∈ nodes, (connections.map Connection.course).count
    (.twoWay s(n.identifier, n.identifier)) = candidates nodes entries n.index n.index / 2
  /-- The last of an odd number goes one way. -/
  oneWay_self : ∀ n ∈ nodes, (connections.map Connection.course).count
    (.oneWay n.identifier n.identifier) = candidates nodes entries n.index n.index % 2
  /-- There are no connections but between nodes of the table. -/
  ends_mem : ∀ c ∈ connections, c.start ∈ nodes.map (·.identifier) ∧ c.finish ∈ nodes.map (·.identifier)
  /-- All candidates are used up. -/
  total : connections.countP (·.unidirectional) + 2 * connections.countP (!·.unidirectional) =
    countCandidates nodes entries (fun _ => true) fun _ => true

/-- **Every edge goes into one connection**: the edges of entries from a table, whose nodes are told apart
by their names and by their indices, are all used up, as long as they only name targets in range. -/
theorem derive_conserves {nodes entries : List Node} (hn : (nodes.map (·.identifier)).Nodup)
    (hindex : (nodes.map (·.index)).Nodup) (hentries : entries ⊆ nodes)
    (hrange : ∀ n ∈ entries, n.kind = .anchor → ∀ t ∈ n.targets, InRange nodes t) :
    ∃ connections, derive nodes entries = .ok connections ∧ Conserves nodes entries connections := by
  have hmeet : MeetByName (edges nodes entries).reverse := fun _ he _ hf =>
    reverses_iff_of_subset hindex hn hentries (List.mem_reverse.mp he) (List.mem_reverse.mp hf)
  have hcount : ∀ m ∈ nodes, ∀ n ∈ nodes,
      countEnds (edges nodes entries).reverse m.identifier n.identifier
        = candidates nodes entries m.index n.index :=
    fun m hm n hn' => countEnds_edges_of_subset hindex hn hentries hm hn'
  have hname : ∀ m ∈ nodes, ∀ n ∈ nodes, m.index ≠ n.index → m.identifier ≠ n.identifier :=
    fun m hm n hn' hne he => hne ((index_eq_iff hindex hn hm hn').mpr he)
  refine ⟨_, derive_eq_ok_iff.mpr ⟨hrange, rfl⟩, ?_⟩
  constructor
  case twoWay_of_ne =>
    intro m hm n hn' hne
    rw [connections, count_twoWay hmeet, if_neg (hname m hm n hn' hne), hcount m hm n hn', hcount n hn' m hm]
  case oneWay_of_ne =>
    intro m hm n hn' hne
    rw [connections, count_oneWay hmeet, if_neg (hname m hm n hn' hne), hcount m hm n hn', hcount n hn' m hm]
  case twoWay_self =>
    intro n hn'
    rw [connections, count_twoWay hmeet, if_pos rfl, hcount n hn' n hn']
  case oneWay_self =>
    intro n hn'
    rw [connections, count_oneWay hmeet, if_pos rfl, hcount n hn' n hn']
  case ends_mem =>
    intro c hc
    obtain ⟨e, he, hce, -⟩ := exists_of_mem_pair hc
    obtain ⟨hstart, -, hfinish⟩ := mem_edges (List.mem_reverse.mp he)
    rw [hce]
    exact ⟨List.mem_map_of_mem (hentries hstart), List.mem_map_of_mem (mem_of_mem_placed hfinish)⟩
  case total =>
    rw [connections, countP_pair, List.length_reverse, length_edges]

/-- Two anchors, a pickup that is found from the end of the table, and a state without a place.  No index
is the node's place. -/
def shuffledTable : List Node :=
  let place : Position := ⟨.ofRatio false 1 1, .ofRatio true 3 2⟩
  [⟨.anchor, "A", 7, some place, [1, 0, -2, 3]⟩, ⟨.anchor, "B", 2, some place, [0]⟩,
    ⟨.pickup, "P", -1, some place, []⟩, ⟨.state, "S", 0, none, []⟩]

/-- The anchor `A` is entered three times behind `B`. -/
theorem derive_conserves_shuffledTable :
    let entries := [1, 0, 0, 0].filterMap (shuffledTable[·]?)
    (shuffledTable.map (·.identifier)).Nodup ∧ (shuffledTable.map (·.index)).Nodup ∧
      entries ⊆ shuffledTable ∧
      (∀ n ∈ entries, n.kind = .anchor → ∀ t ∈ n.targets, InRange shuffledTable t) ∧
      (derive shuffledTable entries).map (·.map fun c => (c.start, c.finish, c.unidirectional))
        = .ok [("A", "P", true), ("A", "A", false), ("A", "B", false), ("A", "P", true), ("A", "A", true),
          ("A", "B", true), ("A", "P", true), ("A", "B", true)] ∧
      ∃ connections, derive shuffledTable entries = .ok connections ∧
        Conserves shuffledTable entries connections := by
  intro entries
  have hn : (shuffledTable.map (·.identifier)).Nodup := by decide
  have hindex : (shuffledTable.map (·.index)).Nodup := by decide
  have hentries : entries ⊆ shuffledTable := by
    intro n hmem
    obtain ⟨i, -, hi⟩ := List.mem_filterMap.mp hmem
    exact List.mem_of_getElem? hi
  have hrange : ∀ n ∈ entries, n.kind = .anchor → ∀ t ∈ n.targets, InRange shuffledTable t := by
    decide +kernel
  exact ⟨hn, hindex, hentries, hrange, by decide +kernel, derive_conserves hn hindex hentries hrange⟩

end AreaAtlas.Pairing

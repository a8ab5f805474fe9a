import AreaAtlas.Proofs.Graph.Conservation

/-!
# Hiding nodes

A node is hidden by taking its place off.  It then has no edges, and those of the other nodes stay what they
were, in their order: `edges_hide`.  An edge and its partner have the same two ends, so hiding takes out both
or neither, and what is left is paired as before.  `derive_hide` is the main statement: the connections of
the table with hidden nodes are those of the whole table that do not touch a hidden node.
-/

namespace AreaAtlas

/-- A node without its place, if it is one of the hidden. -/
def Node.hide (hidden : Node → Bool) (n : Node) : Node :=
  if hidden n then { n with position := none } else n

/-- Whether an edge leads neither from nor to one of these names. -/
def Edge.avoids (names : List String) (e : Edge) : Bool :=
  e.start.identifier ∉ names ∧ e.finish.identifier ∉ names

/-- Whether a connection leads neither from nor to one of these names. -/
def Connection.avoids (names : List String) (c : Connection) : Bool :=
  c.start ∉ names ∧ c.finish ∉ names

namespace Pairing

/-- A table with some of its nodes hidden. -/
def hide (hidden : Node → Bool) (nodes : List Node) : List Node :=
  nodes.map (Node.hide hidden)

/-- The names of the hidden nodes. -/
def hiddenNames (hidden : Node → Bool) (nodes : List Node) : List String :=
  (nodes.filter hidden).map (·.identifier)

theorem atIndex?_map {α β : Type} (f : α → β) (l : List α) (index : Int) :
    atIndex? (l.map f) index = (atIndex? l index).map f := by
  unfold atIndex?
  rw [List.length_map]
  split
  · exact List.getElem?_map
  · split
    · exact List.getElem?_map
    · rfl

section Hidden

variable {nodes : List Node} {hidden : Node → Bool} {n : Node}

theorem hide_of_hidden (h : hidden n = true) : n.hide hidden = { n with position := none } :=
  if_pos h

theorem hide_of_visible (h : ¬hidden n = true) : n.hide hidden = n :=
  if_neg h

@[simp] theorem kind_hide : (n.hide hidden).kind = n.kind := by
  unfold Node.hide
  split
  · rfl
  · rfl

@[simp] theorem targets_hide : (n.hide hidden).targets = n.targets := by
  unfold Node.hide
  split
  · rfl
  · rfl

/-- A node is hidden exactly if its name is that of a hidden node. -/
theorem mem_hiddenNames_iff (hn : (nodes.map (·.identifier)).Nodup) (h : n ∈ nodes) :
    n.identifier ∈ hiddenNames hidden nodes ↔ hidden n = true := by
  constructor
  · intro hname
    obtain ⟨m, hm, he⟩ := List.mem_map.mp hname
    obtain ⟨hm, hhidden⟩ := List.mem_filter.mp hm
    rwa [List.inj_on_of_nodup_map hn hm h he] at hhidden
  · exact fun hhidden => List.mem_map_of_mem (List.mem_filter.mpr ⟨h, hhidden⟩)

/-! ## Edges -/

/-- The targets of a table with hidden nodes are the hidden targets. -/
theorem filterMap_atIndex?_hide (targets : List Int) :
    targets.filterMap (atIndex? (hide hidden nodes))
      = (targets.filterMap (atIndex? nodes)).map (Node.hide hidden) := by
  rw [List.map_filterMap]
  exact congrArg (targets.filterMap ·) (funext fun t => atIndex?_map (Node.hide hidden) nodes t)

/-- An edge from a node that stays is left if it leads to a node that stays. -/
theorem edge?_hide (hn : (nodes.map (·.identifier)).Nodup) (h : n ∈ nodes)
    (hvisible : ¬hidden n = true) {m : Node} (hm : m ∈ nodes) :
    (if (m.hide hidden).position.isSome then some (⟨n, m.hide hidden⟩ : Edge) else none)
      = (if m.position.isSome then some ⟨n, m⟩ else none).filter
          (Edge.avoids (hiddenNames hidden nodes)) := by
  have hstart : n.identifier ∉ hiddenNames hidden nodes :=
    fun hname => hvisible ((mem_hiddenNames_iff hn h).mp hname)
  have hfinish : m.identifier ∈ hiddenNames hidden nodes ↔ hidden m = true := mem_hiddenNames_iff hn hm
  by_cases hhidden : hidden m = true
  · -- the edge to a hidden node was there if the node had a place
    rw [hide_of_hidden hhidden]
    by_cases hp : m.position.isSome = true
    · simp [hp, Option.filter, Edge.avoids, hfinish.mpr hhidden]
    · simp [hp]
  · rw [hide_of_visible hhidden]
    by_cases hp : m.position.isSome = true
    · simp [hp, Option.filter, Edge.avoids, hstart, mt hfinish.mp hhidden]
    · simp [hp]

/-- From a node that stays the edges to nodes that stay are left. -/
theorem edgesFrom_hide (hn : (nodes.map (·.identifier)).Nodup) (h : n ∈ nodes)
    (hvisible : ¬hidden n = true) : edgesFrom (hide hidden nodes) n
      = (edgesFrom nodes n).filter (Edge.avoids (hiddenNames hidden nodes)) := by
  unfold edgesFrom
  split
  · rw [filterMap_atIndex?_hide, List.filterMap_map, List.filter_filterMap]
    refine List.filterMap_congr ?_
    intro m hm
    obtain ⟨t, -, ht⟩ := List.mem_filterMap.mp hm
    exact edge?_hide hn h hvisible (mem_of_atIndex?_eq_some ht)
  · rfl

/-- **The edges of a table with hidden nodes** are those between nodes that stay. -/
theorem edges_hide (hn : (nodes.map (·.identifier)).Nodup) :
    edges (hide hidden nodes) (placed (hide hidden nodes))
      = (edges nodes (placed nodes)).filter (Edge.avoids (hiddenNames hidden nodes)) := by
  rw [edges_eq_flatMap, edges_eq_flatMap, List.filter_flatMap]
  conv => lhs; rw [hide, List.flatMap_map]
  refine List.flatMap_congr fun n h => ?_
  by_cases hvisible : hidden n = true
  · -- a hidden node has no edges, and every edge that it had leads from it
    rw [hide_of_hidden hvisible]
    refine (if_neg Bool.false_ne_true).trans (Eq.symm (List.filter_eq_nil_iff.mpr ?_))
    intro e he
    have hstart : e.start = n := by
      split at he
      · exact (mem_edgesFrom he).1
      · cases he
    simp [Edge.avoids, hstart, (mem_hiddenNames_iff hn h).mpr hvisible]
  · rw [hide_of_visible hvisible]
    by_cases hp : n.position.isSome = true
    · rw [if_pos hp, if_pos hp]
      exact edgesFrom_hide hn h hvisible
    · rw [if_neg hp, if_neg hp, List.filter_nil]

/-! ## Connections -/

/-- Edges that avoid some names are a class: what leads back along an edge has the same two ends. -/
theorem isClass_avoids (hindex : (nodes.map (·.index)).Nodup)
    (hn : (nodes.map (·.identifier)).Nodup) (names : List String) :
    IsClass (Edge.avoids names) (edges nodes (placed nodes)).reverse := by
  intro e he f hf hback
  have hends := (reverses_iff_of_subset hindex hn (fun _ => mem_of_mem_placed)
    (List.mem_reverse.mp he) (List.mem_reverse.mp hf)).mp hback
  have hstart : f.start.identifier = e.finish.identifier := congrArg Prod.fst hends
  have hfinish : f.finish.identifier = e.start.identifier := congrArg Prod.snd hends
  unfold Edge.avoids
  rw [hstart, hfinish]
  simp only [and_comm]

theorem inRange_hide {target : Int} : InRange (hide hidden nodes) target ↔ InRange nodes target := by
  unfold InRange hide
  rw [List.length_map]

/-- **Hiding nodes leaves the connections between the others**, in the same order and direction, of any table
whose nodes are told apart by their names and by their indices and whose anchors lead to its nodes. -/
theorem derive_hide (hn : (nodes.map (·.identifier)).Nodup) (hindex : (nodes.map (·.index)).Nodup)
    (hrange : ∀ n ∈ nodes, n.kind = .anchor → ∀ t ∈ n.targets, InRange nodes t)
    (hidden : Node → Bool) :
    ∃ connections, derive nodes (placed nodes) = .ok connections ∧
      derive (hide hidden nodes) (placed (hide hidden nodes))
        = .ok (connections.filter (·.avoids (hiddenNames hidden nodes))) := by
  refine ⟨_, derive_eq_ok_iff.mpr ⟨fun n h => hrange n (mem_of_mem_placed h), rfl⟩, ?_⟩
  refine derive_eq_ok_iff.mpr ⟨?_, ?_⟩
  · intro m hm hkind t ht
    obtain ⟨n, hnodes, rfl⟩ := List.mem_map.mp (mem_of_mem_placed hm)
    rw [kind_hide] at hkind
    rw [targets_hide] at ht
    exact inRange_hide.mpr (hrange n hnodes hkind t ht)
  · unfold connections
    rw [filter_pair (fun _ _ => rfl) (isClass_avoids hindex hn _), List.filter_reverse, edges_hide hn]

end Hidden

/-- Three anchors and a pickup: two of the anchors lead to each other, one of them twice, and two lead to
themselves. -/
def knottedTable : List Node :=
  let place : Position := ⟨.ofRatio false 1 1, .ofRatio true 3 2⟩
  [⟨.anchor, "A", 0, some place, [1, 0, 2, 0, 1, 3]⟩, ⟨.anchor, "B", 1, some place, [2, 0, 2]⟩,
    ⟨.anchor, "C", 2, some place, [0, 2, 1, 2]⟩, ⟨.pickup, "P", 3, some place, []⟩]

/-- The anchor `B` is hidden. -/
theorem derive_hide_knottedTable :
    let hidden : Node → Bool := fun n => n.identifier = "B"
    (knottedTable.map (·.identifier)).Nodup ∧ (knottedTable.map (·.index)).Nodup ∧
      (∀ n ∈ knottedTable, n.kind = .anchor → ∀ t ∈ n.targets, InRange knottedTable t) ∧
      (derive (hide hidden knottedTable) (placed (hide hidden knottedTable))).map
          (·.map fun c => (c.start, c.finish, c.unidirectional))
        = .ok [("C", "C", false), ("C", "A", false), ("A", "P", true), ("A", "A", false)] ∧
      ∃ connections, derive knottedTable (placed knottedTable) = .ok connections ∧
        derive (hide hidden knottedTable) (placed (hide hidden knottedTable))
          = .ok (connections.filter (·.avoids (hiddenNames hidden knottedTable))) := by
  intro hidden
  have hn : (knottedTable.map (·.identifier)).Nodup := by decide
  have hindex : (knottedTable.map (·.index)).Nodup := by decide
  have hrange : ∀ n ∈ knottedTable, n.kind = .anchor → ∀ t ∈ n.targets, InRange knottedTable t := by
    decide +kernel
  exact ⟨hn, hindex, hrange, by decide +kernel, derive_hide hn hindex hrange hidden⟩

end Pairing

end AreaAtlas

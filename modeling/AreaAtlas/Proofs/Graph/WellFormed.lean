import AreaAtlas.Proofs.Figure.Drawing
import AreaAtlas.Proofs.Graph.Lookup

/-!
# Well-formed graphs

The vertices of a graph are found by name, its connections by index, and its leaves by kind.  That the
three agree rests on the node table: every name stands for one node, and only anchors lead anywhere.
`Graph.isWellFormed_of_build` is the main statement.  A graph of this kind can be drawn in every way.  No
target of such a table is out of range, so its connections can be derived: `Graph.derive_of_readUnrestricted`.
-/

namespace AreaAtlas

/-- **A well-formed graph** of a node table. -/
structure Graph.IsWellFormed (g : Graph) (nodes : List Node) : Prop where
  /-- The keys are the names of the nodes that have a place, in the order of the table. -/
  keys : g.vertices.keys = placedNames nodes
  /-- No key stands twice. -/
  nodup : g.vertices.keys.Nodup
  /-- Every vertex stands under its name. -/
  name_eq_key : ∀ entry ∈ g.vertices, entry.2.name = entry.1
  /-- The leaves are the pickups and quests that have a place. -/
  mem_leaves_iff : ∀ name, name ∈ g.leaves ↔ ∃ n ∈ nodes, n.identifier = name ∧
    n.position.isSome = true ∧ (n.kind = .pickup ∨ n.kind = .quest)
  /-- Leaves are keys. -/
  leaves_subset : ∀ name ∈ g.leaves, name ∈ g.vertices.keys
  /-- Connections begin and end at keys. -/
  ends : g.EndsAtKeys
  /-- No connection begins at a leaf. -/
  start_notMem_leaves : ∀ c ∈ g.connections, c.start ∉ g.leaves
  /-- A connection is of the kind of leaves exactly if it ends at one. -/
  kind_eq_leaf_iff : ∀ c ∈ g.connections, c.kind = .leaf ↔ c.finish ∈ g.leaves
  /-- Leaves do not lead back. -/
  unidirectional_of_leaf : ∀ c ∈ g.connections, c.kind = .leaf → c.unidirectional = true

/-! ## Kinds -/

/-- The kind of the connections that end at a name. -/
def Graph.kindTo (g : Graph) (name : String) : ConnectionKind :=
  if name ∈ g.leaves then .leaf else .branch

theorem Graph.eq_kindTo_iff {g : Graph} {name : String} {kind : ConnectionKind} :
    kind = g.kindTo name ↔ (kind = .leaf ↔ name ∈ g.leaves) := by
  unfold kindTo
  by_cases h : name ∈ g.leaves
  · rw [if_pos h]
    exact (iff_true_right h).symm
  · rw [if_neg h]
    cases kind with
    | branch => exact iff_of_true rfl (iff_of_false ConnectionKind.noConfusion h)
    | leaf => exact iff_of_false ConnectionKind.noConfusion fun hleaf => h (hleaf.mp rfl)

/-- Connections are of the kind of their end, and of that of their start too if they lead back. -/
theorem Graph.IsWellFormed.kind_eq_kindTo {g : Graph} {nodes : List Node} (h : g.IsWellFormed nodes)
    {c : Connection} (hc : c ∈ g.connections) :
    c.kind = g.kindTo c.finish ∧ (c.unidirectional = false → c.kind = g.kindTo c.start) := by
  refine ⟨Graph.eq_kindTo_iff.mpr (h.kind_eq_leaf_iff c hc), ?_⟩
  intro hboth
  have hbranch : c.kind ≠ .leaf := by
    intro hkind
    rw [h.unidirectional_of_leaf c hc hkind] at hboth
    cases hboth
  exact Graph.eq_kindTo_iff.mpr (iff_of_false hbranch (h.start_notMem_leaves c hc))

open Pairing

/-! ## Vertices -/

/-- The entry of a node's vertex, if the node has a place. -/
def Node.keyed? (n : Node) : Option (String × Vertex) :=
  (Vertex.ofNode? n).map fun v => (v.name, v)

theorem Node.keyed?_eq (n : Node) :
    n.keyed? = n.position.map fun p => (n.identifier, ⟨n.identifier, p.toSingle⟩) := by
  unfold Node.keyed? Vertex.ofNode?
  rw [Option.map_map]
  rfl

theorem map_fst_filterMap_keyed? (nodes : List Node) :
    (nodes.filterMap Node.keyed?).map (·.1) = placedNames nodes := by
  unfold placedNames placed
  induction nodes with
  | nil => rfl
  | cons n rest ih =>
    rw [List.filterMap_cons, List.filter_cons, Node.keyed?_eq]
    cases n.position with
    | none => exact ih
    | some p => exact congrArg (n.identifier :: ·) ih

theorem placedNames_nodup {nodes : List Node} (hn : (nodes.map (·.identifier)).Nodup) :
    (placedNames nodes).Nodup :=
  hn.sublist (List.filter_sublist.map _)

/-- The vertices of a table whose names are distinct: one for each node that has a place. -/
theorem vertices_ofNodes {nodes : List Node} (hn : (nodes.map (·.identifier)).Nodup) :
    (Graph.ofNodes nodes).vertices = nodes.filterMap Node.keyed? := by
  have hplaced : ((placed nodes).filterMap Vertex.ofNode?).map (fun v => (v.name, v))
      = nodes.filterMap Node.keyed? := by
    rw [placed, List.filterMap_filter, List.map_filterMap]
    refine List.filterMap_congr ?_
    intro n _
    unfold Node.keyed? Vertex.ofNode?
    cases n.position with
    | none => rfl
    | some p => rfl
  show Keyed.ofList (((placed nodes).filterMap Vertex.ofNode?).map fun v => (v.name, v)) = _
  rw [hplaced]
  refine Keyed.ofList_of_nodup ?_
  rw [map_fst_filterMap_keyed?]
  exact placedNames_nodup hn

/-! ## Leaves and connections -/

section Exact

variable {lines : List Areas.Line} {locations : List Location} {setting : Difficulty}
  {nodes : List Node}

/-- A leaf that has a place is a pickup or a quest. -/
theorem placed_of_isExact (h : NodeTable.IsExact lines locations setting nodes) {n : Node}
    (hn : n ∈ placed nodes) : n.kind ≠ .anchor ↔ n.kind = .pickup ∨ n.kind = .quest := by
  obtain ⟨hmem, hplaced⟩ := List.mem_filter.mp hn
  constructor
  · intro hkind
    cases hk : n.kind with
    | anchor => exact absurd hk hkind
    | pickup => exact Or.inl rfl
    | quest => exact Or.inr rfl
    | state =>
      rw [h.state_position n hmem hk] at hplaced
      cases hplaced
  · exact NodeTable.ne_anchor_of_placed

theorem mem_leaves_ofNodes {name : String} :
    name ∈ (Graph.ofNodes nodes).leaves ↔
      ∃ n ∈ placed nodes, n.identifier = name ∧ n.kind ≠ .anchor := by
  show name ∈ ((placed nodes).filter (·.kind ≠ .anchor)).map (·.identifier) ↔ _
  rw [List.mem_map]
  constructor
  · rintro ⟨n, hn, hname⟩
    obtain ⟨hn, hkind⟩ := List.mem_filter.mp hn
    exact ⟨n, hn, hname, of_decide_eq_true hkind⟩
  · rintro ⟨n, hn, hname, hkind⟩
    exact ⟨n, List.mem_filter.mpr ⟨hn, decide_eq_true hkind⟩, hname⟩

/-- A name is a leaf exactly if the node of that name is no anchor. -/
theorem identifier_mem_leaves_iff (hn : (nodes.map (·.identifier)).Nodup) {n : Node}
    (h : n ∈ placed nodes) : n.identifier ∈ (Graph.ofNodes nodes).leaves ↔ n.kind ≠ .anchor := by
  rw [mem_leaves_ofNodes]
  constructor
  · rintro ⟨m, hm, hname, hkind⟩
    rwa [List.inj_on_of_nodup_map hn (mem_of_mem_placed hm) (mem_of_mem_placed h) hname] at hkind
  · exact fun hkind => ⟨n, h, rfl, hkind⟩

/-- A connection is made of an edge of the table, and one for both directions ends at an anchor. -/
theorem exists_of_mem_connections (h : NodeTable.IsExact lines locations setting nodes)
    {c : Connection} (hc : c ∈ (Graph.ofNodes nodes).connections) :
    ∃ e ∈ edges nodes (placed nodes), c = e.connection c.unidirectional ∧
      (c.unidirectional = false → e.finish.kind = .anchor) := by
  obtain ⟨e, he, hconnection, hback⟩ := exists_of_mem_pair hc
  rw [List.mem_reverse] at he
  refine ⟨e, he, hconnection, ?_⟩
  intro hboth
  obtain ⟨f, hf, hreverses⟩ := hback hboth
  rw [List.mem_reverse] at hf
  obtain ⟨-, -, hfinish⟩ := mem_edges he
  obtain ⟨hstart, hkind, -⟩ := mem_edges hf
  -- the edge that leads back begins at an anchor, where this one ends
  have hends := (reverses_iff h.index_eq h.nodup he hf).mp hreverses
  have hname : f.start.identifier = e.finish.identifier := congrArg Prod.fst hends
  rw [← List.inj_on_of_nodup_map h.nodup (mem_of_mem_placed hstart) (mem_of_mem_placed hfinish) hname]
  exact hkind

/-- The graph of an exact table is well-formed. -/
theorem Graph.isWellFormed_ofNodes (h : NodeTable.IsExact lines locations setting nodes) :
    (Graph.ofNodes nodes).IsWellFormed nodes := by
  have hvertices := vertices_ofNodes h.nodup
  have hkeys : (Graph.ofNodes nodes).vertices.keys = placedNames nodes := by
    rw [hvertices, Keyed.keys, map_fst_filterMap_keyed?]
  refine
    { keys := hkeys
      nodup := hkeys ▸ placedNames_nodup h.nodup
      name_eq_key := ?name_eq_key
      mem_leaves_iff := ?mem_leaves_iff
      leaves_subset := ?leaves_subset
      ends := ?ends
      start_notMem_leaves := ?start_notMem_leaves
      kind_eq_leaf_iff := ?kind_eq_leaf_iff
      unidirectional_of_leaf := ?unidirectional_of_leaf }
  case name_eq_key =>
    intro entry hentry
    rw [hvertices] at hentry
    obtain ⟨n, -, hn⟩ := List.mem_filterMap.mp hentry
    obtain ⟨v, -, rfl⟩ := Option.map_eq_some_iff.mp hn
    rfl
  case mem_leaves_iff =>
    intro name
    rw [mem_leaves_ofNodes]
    constructor
    · rintro ⟨n, hn, hname, hkind⟩
      obtain ⟨hmem, hplaced⟩ := List.mem_filter.mp hn
      exact ⟨n, hmem, hname, hplaced, (placed_of_isExact h hn).mp hkind⟩
    · rintro ⟨n, hmem, hname, hplaced, hkind⟩
      exact ⟨n, List.mem_filter.mpr ⟨hmem, hplaced⟩, hname, NodeTable.ne_anchor_of_placed hkind⟩
  case leaves_subset =>
    intro name hname
    obtain ⟨n, hn, rfl, -⟩ := mem_leaves_ofNodes.mp hname
    rw [hkeys]
    exact List.mem_map_of_mem hn
  case ends =>
    intro c hc
    obtain ⟨e, he, hconnection, -⟩ := exists_of_mem_connections h hc
    obtain ⟨hstart, -, hfinish⟩ := mem_edges he
    rw [hkeys, hconnection]
    exact ⟨List.mem_map_of_mem hstart, List.mem_map_of_mem hfinish⟩
  case start_notMem_leaves =>
    intro c hc
    obtain ⟨e, he, hconnection, -⟩ := exists_of_mem_connections h hc
    obtain ⟨hstart, hkind, -⟩ := mem_edges he
    rw [hconnection]
    exact fun hleaf => (identifier_mem_leaves_iff h.nodup hstart).mp hleaf hkind
  case kind_eq_leaf_iff =>
    intro c hc
    obtain ⟨e, he, hconnection, -⟩ := exists_of_mem_connections h hc
    obtain ⟨-, -, hfinish⟩ := mem_edges he
    rw [hconnection]
    exact Edge.kind_eq_leaf_iff.trans (identifier_mem_leaves_iff h.nodup hfinish).symm
  case unidirectional_of_leaf =>
    intro c hc hkind
    obtain ⟨e, -, hconnection, hboth⟩ := exists_of_mem_connections h hc
    rw [hconnection] at hkind
    have hfinish : e.finish.kind ≠ .anchor := Edge.kind_eq_leaf_iff.mp hkind
    by_contra hu
    exact hfinish (hboth (Bool.eq_false_iff.mpr hu))

end Exact

theorem isExact_of_readUnrestricted {areas locations : String} {logic : Logic}
    (h : Logic.readUnrestricted areas locations = .ok logic) :
    NodeTable.IsExact (Areas.logicalLines areas.toList) logic.locations .unrestricted logic.nodes := by
  obtain ⟨hrows, -, hgrammar, hds, hlink, hnodes⟩ := Logic.read_eq_ok_iff.mp h
  rw [hds] at hlink hnodes
  rw [hnodes]
  exact NodeTable.tableOf_isExact hgrammar (readLocations_nodup hrows) hlink

/-- **No target of a table that was read is out of range**, unless the table has more entries than there are
indices.  So the connections of its graph are those that are derived. -/
theorem Graph.derive_of_readUnrestricted {areas locations : String} {logic : Logic}
    (h : Logic.readUnrestricted areas locations = .ok logic)
    (hlength : logic.nodes.length ≤ Pairing.indexBound) :
    Pairing.derive logic.nodes (Pairing.placed logic.nodes)
      = .ok (Graph.ofNodes logic.nodes).connections := by
  refine Pairing.derive_eq_ok_iff.mpr ⟨?_, rfl⟩
  intro n hn _ t ht
  have hexact := isExact_of_readUnrestricted h
  obtain ⟨hpos, hlt⟩ := hexact.targets_lt n (Pairing.mem_of_mem_placed hn) t ht
  have hbound : (0 : Int) ≤ Pairing.indexBound := by decide
  unfold Pairing.InRange
  omega

/-- **Every graph that is built is well-formed**, and so each vertex is described under its key and
drawing never looks up a key in vain. -/
theorem Graph.isWellFormed_of_build {areas locations : String} {g : Graph}
    (h : Graph.build areas locations = .ok g) :
    ∃ logic, Logic.readUnrestricted areas locations = .ok logic ∧ g.IsWellFormed logic.nodes ∧
      g.nodeInfos.map (·.name) = g.vertices.keys ∧
      ∀ options, ∃ figure, Figure.draw g options = .ok figure := by
  obtain ⟨logic, hlogic, rfl⟩ := Except.map_eq_ok_iff.mp h
  have hwell := Graph.isWellFormed_ofNodes (isExact_of_readUnrestricted hlogic)
  refine ⟨logic, hlogic, hwell, ?_, Figure.exists_draw_eq_ok hwell.ends⟩
  unfold Graph.nodeInfos
  rw [List.map_map]
  exact List.map_congr_left hwell.name_eq_key

/-- Two anchors that lead to each other, one without a place, and leaves with and without one. -/
def Areas.placedAndUnplaced : String :=
  "anchor A at 1, 2:\n  pickup Gem: free\n  state Open: free\n  conn B: free\n" ++
    "anchor B at 3, 4:\n  conn A: free\n  quest Far: free\nanchor C:\n  quest Near: free\n"

theorem Graph.isWellFormed_of_build_placedAndUnplaced :
    ∃ (g : Graph) (logic : Logic) (figure : Figure),
      Graph.build Areas.placedAndUnplaced "Gem,Zone,,,5,6\nFar,Zone,,,,\nNear,Zone,,,7,8\n" = .ok g ∧
      Logic.readUnrestricted Areas.placedAndUnplaced
        "Gem,Zone,,,5,6\nFar,Zone,,,,\nNear,Zone,,,7,8\n" = .ok logic ∧
      g.vertices.keys = ["A", "B", "Gem", "Near"] ∧ g.leaves = ["Gem", "Near"] ∧
      g.IsWellFormed logic.nodes ∧
      Figure.draw g ⟨"Areas", ["gem"], true, false, true⟩ = .ok figure := by
  have hbuild : (Graph.build Areas.placedAndUnplaced
      "Gem,Zone,,,5,6\nFar,Zone,,,,\nNear,Zone,,,7,8\n").map (fun g => (g.vertices.keys, g.leaves))
      = .ok (["A", "B", "Gem", "Near"], ["Gem", "Near"]) := by
    decide +kernel
  obtain ⟨g, hg, hnames⟩ := Except.map_eq_ok_iff.mp hbuild
  obtain ⟨logic, hlogic, hwell, -, hdraw⟩ := Graph.isWellFormed_of_build hg
  obtain ⟨figure, hfigure⟩ := hdraw ⟨"Areas", ["gem"], true, false, true⟩
  exact ⟨g, logic, figure, hg, hlogic, congrArg Prod.fst hnames, congrArg Prod.snd hnames, hwell,
    hfigure⟩

end AreaAtlas

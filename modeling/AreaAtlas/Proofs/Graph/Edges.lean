import AreaAtlas.Proofs.NodeTable.Exactness

/-!
# The edges of a table by name

The nodes of a table are found by index, and its edges are told apart by index, but as every name stands
for one node, edges can be looked at by the names of their ends.  `map_ends_edges` says which edges a
table has: those from the name of an anchor to the target of one of its surviving entries, as far as both
have a place.
-/

namespace AreaAtlas

/-- The names of the ends of an edge. -/
def Edge.ends (e : Edge) : String × String :=
  (e.start.identifier, e.finish.identifier)

/-- The names of the nodes that have a place, in the order of the table. -/
def placedNames (nodes : List Node) : List String :=
  (Pairing.placed nodes).map (·.identifier)

/-- Where the surviving entries of an anchor lead from and to. -/
def Areas.Declaration.passages (setting : Difficulty) (d : Areas.Declaration) :
    List (String × String) :=
  (d.survivors setting).map fun e => (d.name, e.target)

/-- Where surviving entries lead from and to, one by one in their order. -/
def Areas.passages (setting : Difficulty) (ds : List Areas.Declaration) : List (String × String) :=
  ds.flatMap (Areas.Declaration.passages setting)

namespace Pairing

theorem mem_of_atIndex?_eq_some {α : Type} {l : List α} {index : Int} {a : α}
    (h : atIndex? l index = some a) : a ∈ l := by
  unfold atIndex? at h
  split at h
  · exact List.mem_of_getElem? h
  · split at h
    · exact List.mem_of_getElem? h
    · cases h

theorem mem_edgesFrom {nodes : List Node} {anchor : Node} {e : Edge}
    (h : e ∈ edgesFrom nodes anchor) :
    e.start = anchor ∧ anchor.kind = .anchor ∧ e.finish ∈ placed nodes := by
  unfold edgesFrom at h
  split at h
  · next hkind =>
    obtain ⟨target, htarget, h⟩ := List.mem_filterMap.mp h
    obtain ⟨index, -, hindex⟩ := List.mem_filterMap.mp htarget
    by_cases hplaced : target.position.isSome = true
    · rw [if_pos hplaced] at h
      obtain rfl := Option.some.inj h
      exact ⟨rfl, hkind, List.mem_filter.mpr ⟨mem_of_atIndex?_eq_some hindex, hplaced⟩⟩
    · rw [if_neg hplaced] at h
      cases h
  · cases h

/-- Edges lead from anchors among the entries to placed nodes. -/
theorem mem_edges {nodes entries : List Node} {e : Edge} (h : e ∈ edges nodes entries) :
    e.start ∈ entries ∧ e.start.kind = .anchor ∧ e.finish ∈ placed nodes := by
  obtain ⟨anchor, hanchor, h⟩ := List.mem_flatMap.mp h
  obtain ⟨rfl, hkind, hfinish⟩ := mem_edgesFrom h
  exact ⟨hanchor, hkind, hfinish⟩

theorem mem_of_mem_placed {nodes : List Node} {n : Node} (h : n ∈ placed nodes) : n ∈ nodes :=
  (List.mem_filter.mp h).1

/-! ## Names and indices -/

section Table

variable {nodes : List Node}

/-- A node has a place exactly if its name is one of those that have. -/
theorem mem_placedNames_iff (hn : (nodes.map (·.identifier)).Nodup) {n : Node} (h : n ∈ nodes) :
    n.identifier ∈ placedNames nodes ↔ n.position.isSome = true := by
  constructor
  · intro hname
    obtain ⟨m, hm, he⟩ := List.mem_map.mp hname
    obtain ⟨hm, hplaced⟩ := List.mem_filter.mp hm
    rw [← List.inj_on_of_nodup_map hn hm h he]
    exact hplaced
  · intro hplaced
    exact List.mem_map_of_mem (List.mem_filter.mpr ⟨h, hplaced⟩)

/-- No two nodes of a table have the same index, as each has its place. -/
theorem nodup_map_index (hindex : ∀ i (h : i < nodes.length), nodes[i].index = i) :
    (nodes.map (·.index)).Nodup := by
  rw [List.nodup_iff_injective_get]
  intro i j he
  simp only [List.get_eq_getElem, List.getElem_map] at he
  rw [hindex, hindex] at he
  omega

/-- Nodes of a table have the same index exactly if they have the same name. -/
theorem index_eq_iff (hindex : (nodes.map (·.index)).Nodup)
    (hn : (nodes.map (·.identifier)).Nodup) {n m : Node} (h : n ∈ nodes) (h' : m ∈ nodes) :
    n.index = m.index ↔ n.identifier = m.identifier := by
  constructor
  · intro he
    rw [List.inj_on_of_nodup_map hindex h h' he]
  · intro he
    rw [List.inj_on_of_nodup_map hn h h' he]

/-- Between nodes of a table, leading back is told by the names of the ends, whichever entries the edges
begin at. -/
theorem reverses_iff_of_subset (hindex : (nodes.map (·.index)).Nodup)
    (hn : (nodes.map (·.identifier)).Nodup) {entries : List Node} (hentries : entries ⊆ nodes)
    {e f : Edge} (he : e ∈ edges nodes entries) (hf : f ∈ edges nodes entries) :
    e.reverses f = true ↔ f.ends = e.ends.swap := by
  obtain ⟨hstart, -, hfinish⟩ := mem_edges he
  obtain ⟨hstart', -, hfinish'⟩ := mem_edges hf
  unfold Edge.reverses Edge.ends
  rw [Bool.and_eq_true, beq_iff_eq, beq_iff_eq, Prod.swap_prod_mk, Prod.mk.injEq,
    index_eq_iff hindex hn (hentries hstart') (mem_of_mem_placed hfinish),
    index_eq_iff hindex hn (mem_of_mem_placed hfinish') (hentries hstart)]

/-- So it is if every node has its place as its index and edges begin at placed nodes. -/
theorem reverses_iff (hindex : ∀ i (h : i < nodes.length), nodes[i].index = i)
    (hn : (nodes.map (·.identifier)).Nodup) {e f : Edge} (he : e ∈ edges nodes (placed nodes))
    (hf : f ∈ edges nodes (placed nodes)) : e.reverses f = true ↔ f.ends = e.ends.swap :=
  reverses_iff_of_subset (nodup_map_index hindex) hn (fun _ => mem_of_mem_placed) he hf

/-! ## The edges of a table -/

/-- The edges from a node, if its targets by name are known. -/
theorem map_ends_edgesFrom (hn : (nodes.map (·.identifier)).Nodup) {anchor : Node}
    (hkind : anchor.kind = .anchor) {names : List String}
    (htargets : anchor.targets.map (nameAt? nodes) = names.map some) :
    (edgesFrom nodes anchor).map Edge.ends =
      (names.filter (· ∈ placedNames nodes)).map fun name => (anchor.identifier, name) := by
  rw [edgesFrom, if_pos hkind]
  generalize anchor.targets = targets at htargets
  induction targets generalizing names with
  | nil =>
    obtain rfl := List.map_eq_nil_iff.mp htargets.symm
    rfl
  | cons t rest ih =>
    cases names with
    | nil => cases htargets
    | cons name names =>
      obtain ⟨hname, hrest⟩ := List.cons.inj htargets
      obtain ⟨target, hat, hid⟩ := Option.map_eq_some_iff.mp hname
      have hplaced := mem_placedNames_iff hn (mem_of_atIndex?_eq_some hat)
      rw [hid] at hplaced
      rw [List.filterMap_cons_some hat, List.filterMap_cons, List.filter_cons]
      by_cases hp : target.position.isSome = true
      · rw [if_pos hp, if_pos (by simpa using hplaced.mpr hp), List.map_cons, List.map_cons,
          ih hrest, ← hid]
        rfl
      · rw [if_neg hp, if_neg (by simpa using fun h => hp (hplaced.mp h)), ih hrest]

/-- The edges from placed nodes are those from all nodes that have a place. -/
theorem edges_eq_flatMap (nodes : List Node) :
    edges nodes (placed nodes)
      = nodes.flatMap fun n => if n.position.isSome then edgesFrom nodes n else [] := by
  unfold edges placed
  generalize edgesFrom nodes = from'
  induction nodes with
  | nil => rfl
  | cons n rest ih =>
    rw [List.flatMap_cons, ← ih, List.filter_cons]
    by_cases hp : n.position.isSome = true
    · rw [if_pos hp, if_pos hp, List.flatMap_cons]
    · rw [if_neg hp, if_neg hp, List.nil_append]

theorem filter_passages {setting : Difficulty} {d : Areas.Declaration} {placed : List String} :
    (d.passages setting).filter (fun p => p.1 ∈ placed ∧ p.2 ∈ placed) =
      if d.name ∈ placed then
        (((d.survivors setting).map (·.target)).filter (· ∈ placed)).map fun name => (d.name, name)
      else [] := by
  unfold Areas.Declaration.passages
  rw [List.filter_map, List.filter_map]
  by_cases hp : d.name ∈ placed
  · rw [if_pos hp, List.map_map]
    refine congrArg _ (List.filter_congr ?_)
    intro e _
    simp [hp]
  · rw [if_neg hp, List.map_eq_nil_iff, List.filter_eq_nil_iff]
    intro e _
    simp [hp]

/-- The edges from anchors, if their targets by name are those of declarations. -/
theorem map_ends_flatMap (hn : (nodes.map (·.identifier)).Nodup) {setting : Difficulty}
    {ds : List Areas.Declaration} {anchors : List Node} (hmem : ∀ n ∈ anchors, n ∈ nodes)
    (h : List.Forall₂ (fun d n => (n.kind = .anchor ∧ n.identifier = d.name ∧ n.position = d.position) ∧
        n.targets.map (nameAt? nodes) = (d.survivors setting).map fun e => some e.target)
      ds anchors) :
    (anchors.flatMap fun n => if n.position.isSome then edgesFrom nodes n else []).map Edge.ends =
      (Areas.passages setting ds).filter
        fun p => p.1 ∈ placedNames nodes ∧ p.2 ∈ placedNames nodes := by
  unfold Areas.passages
  induction h with
  | nil => rfl
  | @cons d n ds anchors hd _ ih =>
    obtain ⟨⟨hkind, hname, -⟩, htargets⟩ := hd
    have hplaced := mem_placedNames_iff hn (hmem n List.mem_cons_self)
    have htargets' : n.targets.map (nameAt? nodes)
        = ((d.survivors setting).map (·.target)).map some := by
      rw [htargets, List.map_map]
      rfl
    rw [hname] at hplaced
    rw [List.flatMap_cons, List.map_append, List.flatMap_cons, List.filter_append, filter_passages,
      ih fun m hm => hmem m (List.mem_cons_of_mem _ hm)]
    refine congrArg (· ++ _) ?_
    -- an anchor without a place has no edges, and its passages do not count
    by_cases hp : n.position.isSome = true
    · rw [if_pos hp, if_pos (hplaced.mpr hp), map_ends_edgesFrom hn hkind htargets', hname]
    · rw [if_neg hp, if_neg fun h => hp (hplaced.mp h), List.map_nil]

end Table

end Pairing

open Pairing

/-- **The edges of the table of declarations by name**: the passages whose ends have a place. -/
theorem map_ends_edges {register : NodeTable.Register} {setting : Difficulty}
    {ds : List Areas.Declaration} (h : NodeTable.Linkable register setting ds) {nodes : List Node}
    (hnodes : nodes = NodeTable.tableOf register.locations setting ds) :
    (edges nodes (placed nodes)).map Edge.ends =
      (Areas.passages setting ds).filter
        fun p => p.1 ∈ placedNames nodes ∧ p.2 ∈ placedNames nodes := by
  have hn : (nodes.map (·.identifier)).Nodup := hnodes ▸ NodeTable.nodup_tableOf h
  have hanchors := NodeTable.forall₂_take_tableOf register setting ds
  rw [← hnodes] at hanchors
  have hleaves : ∀ n ∈ nodes.drop ds.length, n.kind ≠ .anchor := by
    rw [hnodes]
    exact fun n hn => NodeTable.kind_ne_anchor_of_mem_drop h hn
  -- no edge begins at a leaf, so the anchors in front give them all
  have hdrop : (nodes.drop ds.length).flatMap
      (fun n => if n.position.isSome then edgesFrom nodes n else []) = [] := by
    rw [List.flatMap_eq_nil_iff]
    intro n hmem
    rw [edgesFrom, if_neg (hleaves n hmem), ite_self]
  let from' : Node → List Edge := fun n => if n.position.isSome then edgesFrom nodes n else []
  have hsplit : edges nodes (placed nodes) = (nodes.take ds.length).flatMap from' := by
    calc edges nodes (placed nodes)
        = nodes.flatMap from' := edges_eq_flatMap nodes
      _ = (nodes.take ds.length ++ nodes.drop ds.length).flatMap from' := by
          rw [List.take_append_drop]
      _ = (nodes.take ds.length).flatMap from' := by
          rw [List.flatMap_append, hdrop, List.append_nil]
  rw [hsplit]
  exact map_ends_flatMap hn (fun n hmem => List.mem_of_mem_take hmem) hanchors

end AreaAtlas

import AreaAtlas.Proofs.Areas.Sections
import AreaAtlas.Proofs.Graph.Course
import AreaAtlas.Proofs.Graph.WellFormed
import AreaAtlas.Proofs.NodeTable.Order

/-!
# Sections in another order

An areas text may be put together from its sections in any order.  The nodes of its table change places
and indices with them, and so does the edge that a pair of edges is named after; but what the graph shows
stays.  `Graph.build_perm` is the main statement.
-/

namespace AreaAtlas

/-- The kind of a connection of this course in a graph with these leaves. -/
def Course.kindAmong (leaves : List String) : Course → ConnectionKind
  | .oneWay _ finish => if finish ∈ leaves then .leaf else .branch
  | .twoWay _ => .branch

/-- **Two graphs show the same**: the same vertices under the same keys, the same leaves, and as many
connections of each course and kind. -/
structure Graph.ShowsSame (g g' : Graph) : Prop where
  vertices : g.vertices.Perm g'.vertices
  leaves : g.leaves.Perm g'.leaves
  connections : (g.connections.map fun c => (c.course, c.kind)).Perm
    (g'.connections.map fun c => (c.course, c.kind))

/-- In a well-formed graph the course of a connection and the leaves decide its kind. -/
theorem Graph.IsWellFormed.kind_eq {g : Graph} {nodes : List Node} (h : g.IsWellFormed nodes)
    {c : Connection} (hc : c ∈ g.connections) : c.kind = c.course.kindAmong g.leaves := by
  unfold Connection.course
  by_cases hu : c.unidirectional = true
  · rw [if_pos hu]
    exact (h.kind_eq_kindTo hc).1
  · rw [if_neg hu]
    cases hk : c.kind with
    | branch => rfl
    | leaf => exact absurd (h.unidirectional_of_leaf c hc hk) hu

theorem Course.kindAmong_congr {leaves leaves' : List String}
    (h : ∀ name, name ∈ leaves ↔ name ∈ leaves') (course : Course) :
    course.kindAmong leaves = course.kindAmong leaves' := by
  cases course with
  | oneWay start finish => simp only [Course.kindAmong, h]
  | twoWay ends => rfl

open Pairing

/-! ## Tables with the same members -/

section Members

variable {nodes nodes' : List Node} (h : (nodes.map Node.toMember).Perm (nodes'.map Node.toMember))

include h

theorem filterMap_keyed?_perm :
    (nodes.filterMap Node.keyed?).Perm (nodes'.filterMap Node.keyed?) := by
  let keyed? : NodeTable.Member → Option (String × Vertex) :=
    fun m => m.position.map fun p => (m.identifier, ⟨m.identifier, p.toSingle⟩)
  have hmembers : ∀ nodes : List Node,
      nodes.filterMap Node.keyed? = (nodes.map Node.toMember).filterMap keyed? := by
    intro nodes
    rw [List.filterMap_map]
    exact List.filterMap_congr fun n _ => n.keyed?_eq
  rw [hmembers, hmembers]
  exact h.filterMap _

/-- The placed nodes of the two tables have the same members. -/
theorem map_toMember_placed_perm :
    ((placed nodes).map Node.toMember).Perm ((placed nodes').map Node.toMember) := by
  have hmembers : ∀ nodes : List Node, (placed nodes).map Node.toMember
      = (nodes.map Node.toMember).filter (·.position.isSome) := by
    intro nodes
    rw [List.filter_map]
    rfl
  rw [hmembers, hmembers]
  exact h.filter _

theorem placedNames_perm : (placedNames nodes).Perm (placedNames nodes') := by
  have hmembers : ∀ nodes : List Node,
      placedNames nodes = ((placed nodes).map Node.toMember).map (·.identifier) := by
    intro nodes
    rw [List.map_map]
    rfl
  rw [hmembers, hmembers]
  exact (map_toMember_placed_perm h).map _

theorem leaves_ofNodes_perm : (Graph.ofNodes nodes).leaves.Perm (Graph.ofNodes nodes').leaves := by
  have hmembers : ∀ nodes : List Node, (Graph.ofNodes nodes).leaves =
      (((placed nodes).map Node.toMember).filter (·.kind ≠ .anchor)).map (·.identifier) := by
    intro nodes
    rw [List.filter_map, List.map_map]
    rfl
  rw [hmembers, hmembers]
  exact ((map_toMember_placed_perm h).filter _).map _

end Members

/-! ## Graphs of declarations in another order -/

/-- The edges of an exact table meet by name. -/
theorem NodeTable.IsExact.meetByName {lines : List Areas.Line} {locations : List Location}
    {setting : Difficulty} {nodes : List Node}
    (h : NodeTable.IsExact lines locations setting nodes) :
    MeetByName (edges nodes (placed nodes)).reverse :=
  fun _ he _ hf =>
    reverses_iff h.index_eq h.nodup (List.mem_reverse.mp he) (List.mem_reverse.mp hf)

/-- Declarations in another order have edges between the same names. -/
theorem map_ends_edges_perm {register : NodeTable.Register} {setting : Difficulty}
    {ds ds' : List Areas.Declaration} (hlink : NodeTable.Linkable register setting ds)
    (h : ds.Perm ds') {nodes nodes' : List Node}
    (hnodes : nodes = NodeTable.tableOf register.locations setting ds)
    (hnodes' : nodes' = NodeTable.tableOf register.locations setting ds')
    (hnames : (placedNames nodes).Perm (placedNames nodes')) :
    ((edges nodes (placed nodes)).map Edge.ends).Perm
      ((edges nodes' (placed nodes')).map Edge.ends) := by
  rw [map_ends_edges hlink hnodes, map_ends_edges (hlink.perm h) hnodes']
  simp only [hnames.mem_iff]
  exact (h.flatMap_right _).filter _

/-- The graphs of declarations in two orders show the same. -/
theorem Graph.ofNodes_showsSame {lines lines' : List Areas.Line} {register : NodeTable.Register}
    (hrows : (register.locations.map (·.identifier)).Nodup) (hgrammar : Areas.Grammar lines)
    (hgrammar' : Areas.Grammar lines')
    (hlink : NodeTable.Linkable register .unrestricted (Areas.declarationsIn lines))
    (h : (Areas.declarationsIn lines).Perm (Areas.declarationsIn lines')) :
    (Graph.ofNodes (NodeTable.tableOf register.locations .unrestricted
      (Areas.declarationsIn lines))).ShowsSame
      (Graph.ofNodes (NodeTable.tableOf register.locations .unrestricted
        (Areas.declarationsIn lines'))) := by
  have hexact := NodeTable.tableOf_isExact hgrammar hrows hlink
  have hexact' := NodeTable.tableOf_isExact hgrammar' hrows (hlink.perm h)
  have hmembers := NodeTable.membersOf_perm hlink h
  obtain ⟨nodes, hnodes⟩ : ∃ nodes, nodes =
    NodeTable.tableOf register.locations .unrestricted (Areas.declarationsIn lines) := ⟨_, rfl⟩
  obtain ⟨nodes', hnodes'⟩ : ∃ nodes', nodes' =
    NodeTable.tableOf register.locations .unrestricted (Areas.declarationsIn lines') := ⟨_, rfl⟩
  have hsame : (nodes.map Node.toMember).Perm (nodes'.map Node.toMember) := by
    rw [hnodes, hnodes', NodeTable.tableOf, NodeTable.map_toMember_number, NodeTable.tableOf,
      NodeTable.map_toMember_number]
    exact hmembers
  have hedges := map_ends_edges_perm hlink h hnodes hnodes' (placedNames_perm hsame)
  rw [← hnodes] at hexact ⊢
  rw [← hnodes'] at hexact' ⊢
  have hleaves := leaves_ofNodes_perm hsame
  refine ⟨?vertices, hleaves, ?connections⟩
  case vertices =>
    rw [vertices_ofNodes hexact.nodup, vertices_ofNodes hexact'.nodup]
    exact filterMap_keyed?_perm hsame
  case connections =>
    -- the kinds are decided by the courses and the leaves, so the courses are all there is to compare
    have hkinds : ∀ {g : Graph} {nodes : List Node}, g.IsWellFormed nodes →
        (g.connections.map fun c => (c.course, c.kind))
          = (g.connections.map Connection.course).map fun course =>
            (course, course.kindAmong g.leaves) := by
      intro g nodes hwell
      rw [List.map_map]
      refine List.map_congr_left ?_
      intro c hc
      rw [hwell.kind_eq hc]
      rfl
    rw [hkinds (Graph.isWellFormed_ofNodes hexact), hkinds (Graph.isWellFormed_ofNodes hexact')]
    simp only [Course.kindAmong_congr fun name => hleaves.mem_iff (a := name)]
    refine List.Perm.map _ (map_course_pair_perm hexact.meetByName hexact'.meetByName ?_)
    rw [List.map_reverse, List.map_reverse]
    exact (List.reverse_perm _).trans (hedges.trans (List.reverse_perm _).symm)

/-! ## Texts -/

open Areas (IsSection bareLines bareBlocks)

/-- **Building a graph in closed form**, without a look at the numbers of lines. -/
theorem Graph.build_eq_ok_iff {areas locations : String} {g : Graph} :
    Graph.build areas locations = .ok g ↔ ∃ rows, readLocations locations.toList = .ok rows ∧
      Areas.Grammar (bareLines areas.toList) ∧
      NodeTable.Linkable ⟨rows, none⟩ .unrestricted
        (Areas.declarationsIn (bareLines areas.toList)) ∧
      g = Graph.ofNodes (NodeTable.tableOf rows .unrestricted
        (Areas.declarationsIn (bareLines areas.toList))) := by
  have hstates : readStates "".toList = .ok [] := by decide +kernel
  unfold Graph.build Logic.readUnrestricted
  rw [Except.map_eq_ok_iff]
  constructor
  · rintro ⟨logic, hlogic, rfl⟩
    obtain ⟨rows, known, hrows, -, hlines, hlink, hnodes⟩ :=
      Logic.exists_read_iff.mp ⟨logic, hlogic, rfl⟩
    exact ⟨rows, hrows, hlines, hlink, congrArg Graph.ofNodes hnodes⟩
  · rintro ⟨rows, hrows, hlines, hlink, rfl⟩
    have hread : ∃ logic, Logic.read areas locations "" .unrestricted false = .ok logic ∧
        logic.nodes = NodeTable.tableOf rows .unrestricted
          (Areas.declarationsIn (bareLines areas.toList)) :=
      Logic.exists_read_iff.mpr ⟨rows, [], hrows, hstates, hlines, hlink, rfl⟩
    obtain ⟨logic, hlogic, hnodes⟩ := hread
    exact ⟨logic, hlogic, congrArg Graph.ofNodes hnodes⟩

/-- If a graph is built of sections, one that shows the same is built of them in any order. -/
theorem Graph.exists_build_of_perm {sections sections' : List String} {locations : String} {g : Graph}
    (hsections : ∀ text ∈ sections, IsSection text.toList) (hperm : sections.Perm sections')
    (h : Graph.build (.join sections) locations = .ok g) :
    ∃ g', Graph.build (.join sections') locations = .ok g' ∧ g.ShowsSame g' := by
  obtain ⟨rows, hrows, hgrammar, hlink, rfl⟩ := Graph.build_eq_ok_iff.mp h
  have hsections' : ∀ text ∈ sections', IsSection text.toList :=
    fun text ht => hsections text (hperm.mem_iff.mpr ht)
  have htexts : ∀ text ∈ sections.map String.toList, IsSection text := List.forall_mem_map.mpr hsections
  have htexts' : ∀ text ∈ sections'.map String.toList, IsSection text :=
    List.forall_mem_map.mpr hsections'
  have hblocks := (hperm.map String.toList).flatMap_right bareBlocks
  have hjoin : ∀ texts : List String,
      (String.join texts).toList = (texts.map String.toList).flatten := by
    intro texts
    rw [String.toList_join, List.flatMap_def]
  rw [hjoin] at hgrammar hlink ⊢
  have hgrammar' : Areas.Grammar (bareLines (sections'.map String.toList).flatten) := by
    rw [Areas.grammar_flatten_iff htexts] at hgrammar
    rw [Areas.grammar_flatten_iff htexts']
    exact fun b hb => hgrammar b (hblocks.mem_iff.mpr hb)
  have hds : (Areas.declarationsIn (bareLines (sections.map String.toList).flatten)).Perm
      (Areas.declarationsIn (bareLines (sections'.map String.toList).flatten)) := by
    rw [Areas.declarationsIn_flatten htexts, Areas.declarationsIn_flatten htexts']
    exact hblocks.filterMap _
  have hnodup : ((⟨rows, none⟩ : NodeTable.Register).locations.map (·.identifier)).Nodup :=
    readLocations_nodup hrows
  have hsame := Graph.ofNodes_showsSame hnodup hgrammar hgrammar' hlink hds
  refine ⟨_, Graph.build_eq_ok_iff.mpr ⟨rows, hrows, ?_, ?_, rfl⟩, ?_⟩
  · rw [hjoin]
    exact hgrammar'
  · rw [hjoin]
    exact hlink.perm hds
  · rw [hjoin]
    exact hsame

/-- **The order of sections does not matter.**  Whatever order they are in, a graph is built or none is,
and all graphs that are built show the same. -/
theorem Graph.build_perm {sections sections' : List String} {locations : String}
    (hsections : ∀ text ∈ sections, IsSection text.toList) (hperm : sections.Perm sections') :
    ((∃ g, Graph.build (.join sections) locations = .ok g) ↔
        ∃ g', Graph.build (.join sections') locations = .ok g') ∧
      ∀ g g', Graph.build (.join sections) locations = .ok g →
        Graph.build (.join sections') locations = .ok g' → g.ShowsSame g' := by
  have hsections' : ∀ text ∈ sections', IsSection text.toList :=
    fun text ht => hsections text (hperm.mem_iff.mpr ht)
  refine ⟨⟨?_, ?_⟩, ?_⟩
  · rintro ⟨g, hg⟩
    obtain ⟨g', hg', -⟩ := Graph.exists_build_of_perm hsections hperm hg
    exact ⟨g', hg'⟩
  · rintro ⟨g', hg'⟩
    obtain ⟨g, hg, -⟩ := Graph.exists_build_of_perm hsections' hperm.symm hg'
    exact ⟨g, hg⟩
  · intro g g' hg hg'
    obtain ⟨g'', hg'', hsame⟩ := Graph.exists_build_of_perm hsections hperm hg
    rw [hg'] at hg''
    rwa [Except.ok.inj hg'']

/-- A region, two anchors that lead to each other, one of them twice, and a comment in between. -/
def Areas.threeSections : List String :=
  ["region Glades:\n  anything\n",
    "anchor A at 1, 2:\n  conn B: free\n  conn B: free\n  pickup Gem: free\n",
    "# on the way back\nanchor B at 3, 4:\r\n  conn A: free\n\n"]

theorem Graph.build_perm_threeSections :
    ∃ g g', (∀ text ∈ Areas.threeSections, IsSection text.toList) ∧
      Areas.threeSections.Perm Areas.threeSections.reverse ∧
      Graph.build (.join Areas.threeSections) "Gem,Zone,,,5,6\n" = .ok g ∧
      Graph.build (.join Areas.threeSections.reverse) "Gem,Zone,,,5,6\n" = .ok g' ∧
      g.connections.map (fun c => (c.start, c.finish, c.unidirectional))
        = [("B", "A", false), ("A", "Gem", true), ("A", "B", true)] ∧
      g'.connections.map (fun c => (c.start, c.finish, c.unidirectional))
        = [("A", "Gem", true), ("A", "B", false), ("A", "B", true)] ∧
      g.ShowsSame g' := by
  have hsections : ∀ text ∈ Areas.threeSections, IsSection text.toList := by
    have hall : ∀ text ∈ Areas.threeSections, text.toList.getLast? = some '\n' ∧
        ∀ line ∈ (Areas.logicalLines text.toList).head?, line.indent = 0 := by
      decide +kernel
    exact fun text ht => ⟨(hall text ht).1, (hall text ht).2⟩
  have hperm : Areas.threeSections.Perm Areas.threeSections.reverse := (List.reverse_perm _).symm
  have hbuild : (Graph.build (.join Areas.threeSections) "Gem,Zone,,,5,6\n").map
      (·.connections.map fun c => (c.start, c.finish, c.unidirectional))
      = .ok [("B", "A", false), ("A", "Gem", true), ("A", "B", true)] := by
    decide +kernel
  have hbuild' : (Graph.build (.join Areas.threeSections.reverse) "Gem,Zone,,,5,6\n").map
      (·.connections.map fun c => (c.start, c.finish, c.unidirectional))
      = .ok [("A", "Gem", true), ("A", "B", false), ("A", "B", true)] := by
    decide +kernel
  obtain ⟨g, hg, hconnections⟩ := Except.map_eq_ok_iff.mp hbuild
  obtain ⟨g', hg', hconnections'⟩ := Except.map_eq_ok_iff.mp hbuild'
  exact ⟨g, g', hsections, hperm, hg, hg', hconnections, hconnections',
    (Graph.build_perm hsections hperm).2 g g' hg hg'⟩

end AreaAtlas

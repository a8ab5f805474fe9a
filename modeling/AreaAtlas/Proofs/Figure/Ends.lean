import AreaAtlas.Proofs.Figure.Contents
import AreaAtlas.Proofs.Graph.WellFormed

/-!
# Where lines end

Which nodes a figure leaves out is decided by their names, and which connections by their kind.  The two
agree in a graph that is built: an anchor is never taken for a leaf, so its marker is always there, and a
connection to a leaf is left out together with the markers of leaves.
`Graph.endsAtMarkers_of_build` is the main statement.
-/

namespace AreaAtlas

namespace Figure

/-- A figure marks a node of this name at this place. -/
def Marks (figure : Figure) (g : Graph) (name : String) (place : Position) : Prop :=
  ∃ t ∈ figure.traces, t.layer = .nodes ∧ ∃ labelled vs, MarksVertices g labelled vs t.toJson ∧
    ∃ v ∈ vs, v.name = name ∧ v.position = place

/-- **Lines end at markers**: a trace of connections draws a segment for each of those that belong to it, and
the two nodes are marked where that segment begins and ends. -/
def EndsAtMarkers (g : Graph) (options : Options) (figure : Figure) : Prop :=
  ∀ t ∈ figure.traces, t.layer = .connections → ∃ segments, DrawsSegments segments t.toJson ∧
    List.Forall₂ (fun c s => figure.Marks g c.start s.1 ∧ figure.Marks g c.finish s.2)
      (drawnIn g options t.name) segments

section Visible

variable {g : Graph} {options : Options}

/-- A node is left out only if it is a leaf, and leaves are. -/
theorem exists_markerTrace?_of {name : String} (h : g.IsLeaf name → options.showLeaves = true) :
    ∃ trace, markerTrace? g options name = some trace := by
  unfold markerTrace?
  split
  · exact ⟨_, rfl⟩
  · split
    · next hleaf =>
      rw [if_pos (h hleaf)]
      exact ⟨_, rfl⟩
    · exact ⟨_, rfl⟩

/-- A connection to a leaf is drawn only if leaves are shown. -/
theorem showLeaves_of_lineTrace? {c : Connection} {trace : String}
    (h : lineTrace? options c = some trace) (hkind : c.kind = .leaf) : options.showLeaves = true := by
  by_contra hshow
  unfold lineTrace? at h
  simp only [hkind, if_neg hshow, ite_self, reduceCtorEq] at h

/-- A vertex that belongs to a trace is marked at its place. -/
theorem ShowsAll.marks_of_markerTrace? {figure : Figure} (hall : ShowsAll g options figure)
    (hname : ∀ entry ∈ g.vertices, entry.2.name = entry.1) {key : String} {place : Position}
    (hplace : (g.vertex? key).map (·.position) = some place)
    (hvisible : ∃ trace, markerTrace? g options key = some trace) : figure.Marks g key place := by
  obtain ⟨v, hv, rfl⟩ := Option.map_eq_some_iff.mp hplace
  have hentry : (key, v) ∈ g.vertices := Keyed.mem_of_get?_eq_some hv
  obtain rfl : v.name = key := hname _ hentry
  obtain ⟨trace, htrace⟩ := hvisible
  obtain ⟨t, ht, hlayer, rfl⟩ := hall.exists_marks _ hentry trace htrace
  refine ⟨t, ht, hlayer, _, _, hall.marks t ht hlayer, v, ?_, rfl, rfl⟩
  exact List.mem_filter.mpr ⟨List.mem_map_of_mem hentry, decide_eq_true htrace⟩

end Visible

end Figure

namespace Graph

open Figure

variable {g : Graph} {nodes : List Node}

/-- Names are names of leaves exactly if they are listed. -/
theorem IsWellFormed.isLeaf_iff (h : g.IsWellFormed nodes) {name : String} :
    g.IsLeaf name ↔ name ∈ g.leaves := by
  constructor
  · rintro (hleaf | ⟨c, hc, hkind, rfl⟩)
    · exact hleaf
    · exact (h.kind_eq_leaf_iff c hc).mp hkind
  · exact Or.inl

/-- In a well-formed graph the ends of the connections that are drawn are marked. -/
theorem IsWellFormed.exists_markerTrace? (h : g.IsWellFormed nodes) {options : Options}
    {c : Connection} (hc : c ∈ g.connections) {trace : String}
    (hdrawn : lineTrace? options c = some trace) :
    (∃ trace, markerTrace? g options c.start = some trace) ∧
      ∃ trace, markerTrace? g options c.finish = some trace := by
  constructor
  · -- no connection begins at a leaf
    refine exists_markerTrace?_of fun hleaf => ?_
    exact absurd (h.isLeaf_iff.mp hleaf) (h.start_notMem_leaves c hc)
  · refine exists_markerTrace?_of fun hleaf => ?_
    exact showLeaves_of_lineTrace? hdrawn ((h.kind_eq_leaf_iff c hc).mpr (h.isLeaf_iff.mp hleaf))

/-- **No line leads to a node that is not drawn**, in any figure of a graph that is built. -/
theorem endsAtMarkers_of_build {areas locations : String} (h : Graph.build areas locations = .ok g)
    (options : Options) :
    ∃ figure, Figure.draw g options = .ok figure ∧ figure.EndsAtMarkers g options := by
  obtain ⟨logic, hlogic, rfl⟩ := Except.map_eq_ok_iff.mp h
  have hwell := Graph.isWellFormed_ofNodes (isExact_of_readUnrestricted hlogic)
  obtain ⟨segments, hsegments, hdraw⟩ := exists_draw_eq hwell.ends options
  have hall := showsAll_of_draw hsegments hwell.nodup hwell.name_eq_key
  refine ⟨_, hdraw, ?_⟩
  intro t ht hlayer
  obtain ⟨segments, hdrawn, hdraws⟩ := hall.draws t ht hlayer
  refine ⟨segments, hdraws, ?_⟩
  -- the ends of a segment are places of vertices, and each of these belongs to a trace
  have hmem : List.Forall₂ (fun c s => c ∈ drawnIn (Graph.ofNodes logic.nodes) options t.name ∧
      IsSegment (Graph.ofNodes logic.nodes) c s) _ segments :=
    (List.forall₂_and_left _ _).mpr ⟨fun _ hc => hc, hdrawn⟩
  refine hmem.imp ?_
  rintro c s ⟨hc, hstart, hfinish⟩
  obtain ⟨hc, hbelongs⟩ := List.mem_filter.mp hc
  obtain ⟨hvisible, hvisible'⟩ := hwell.exists_markerTrace? hc (of_decide_eq_true hbelongs)
  exact ⟨hall.marks_of_markerTrace? hwell.name_eq_key hstart hvisible,
    hall.marks_of_markerTrace? hwell.name_eq_key hfinish hvisible'⟩

/-- A pickup that is highlighted while leaves are left out: its marker is there, its connection is not. -/
theorem endsAtMarkers_of_build_highlightedLeaf :
    ∃ (g : Graph) (figure : Figure),
      Graph.build Areas.placedAndUnplaced "Gem,Zone,,,5,6\nFar,Zone,,,,\nNear,Zone,,,7,8\n" = .ok g ∧
      Figure.draw g { highlight := ["gem"], showLeaves := false } = .ok figure ∧
      figure.traces.map Trace.name = ["Two-way connections", "Anchors", "Highlighted"] ∧
      figure.EndsAtMarkers g { highlight := ["gem"], showLeaves := false } := by
  have hbuild : (Graph.build Areas.placedAndUnplaced
      "Gem,Zone,,,5,6\nFar,Zone,,,,\nNear,Zone,,,7,8\n").map
      (fun g => (Figure.draw g { highlight := ["gem"], showLeaves := false }).map
        (·.traces.map Trace.name))
      = .ok (.ok ["Two-way connections", "Anchors", "Highlighted"]) := by
    decide +kernel
  obtain ⟨g, hg, hnames⟩ := Except.map_eq_ok_iff.mp hbuild
  obtain ⟨figure, hfigure, hends⟩ :=
    endsAtMarkers_of_build hg { highlight := ["gem"], showLeaves := false }
  rw [hfigure] at hnames
  exact ⟨g, figure, hg, hfigure, Except.ok.inj hnames, hends⟩

end Graph

end AreaAtlas

import AreaAtlas.Proofs.Figure.Contents
import Mathlib.Data.List.Basic

/-!
# What the menu shows

Leaves and connections can be left out in two ways: by drawing the figure without them, and by an entry of the
menu that hides traces of a figure which has them.  The first chooses nodes and connections before there are
traces, the second goes by the names and layers of traces.  `Figure.menuAgrees_of_endsAtKeys` is the main
statement: both show the same traces, for every graph that can be drawn.
-/

namespace AreaAtlas.Figure

/-- The entry of the menu with this label. -/
def button? (figure : Figure) (label : String) : Option MenuButton :=
  figure.menu.find? (·.label == label)

/-- The traces that an entry of the menu leaves visible, in their order. -/
def shownBy (figure : Figure) (b : MenuButton) : List Trace :=
  ((figure.traces.zip b.visible).filter (·.2)).map (·.1)

/-- The traces that the entry with this label leaves visible. -/
def tracesUnder? (figure : Figure) (label : String) : Option (List Trace) :=
  (figure.button? label).map figure.shownBy

/-- **The menu agrees with the ways to draw** a graph: what it leaves visible of a figure with leaves, or with
connections, is the figure without them. -/
structure MenuAgrees (g : Graph) (options : Options) : Prop where
  /-- The entry for leaves. -/
  withoutLeaves : ∃ all rest, draw g { options with showLeaves := true } = .ok all ∧
    draw g { options with showLeaves := false } = .ok rest ∧
    all.tracesUnder? "Without pickups" = some rest.traces
  /-- The entry for nodes. -/
  nodesOnly : ∃ all rest, draw g { options with showConnections := true } = .ok all ∧
    draw g { options with showConnections := false } = .ok rest ∧
    all.tracesUnder? "Nodes only" = some rest.traces

/-! ## Entries -/

theorem filter_zip_map {α : Type} (p : α → Bool) (l : List α) :
    ((l.zip (l.map p)).filter (·.2)).map (·.1) = l.filter p := by
  induction l with
  | nil => rfl
  | cons a l ih =>
    rw [List.map_cons, List.zip_cons_cons, List.filter_cons, List.filter_cons]
    cases p a with
    | false => exact ih
    | true => exact congrArg (a :: ·) ih

/-- An entry shows the traces that its selection is for. -/
theorem shownBy_map (figure : Figure) (label : String) (shows : Trace → Bool) :
    figure.shownBy ⟨label, figure.traces.map shows⟩ = figure.traces.filter shows :=
  filter_zip_map shows figure.traces

theorem button?_nodesOnly (figure : Figure) : figure.button? "Nodes only"
    = some ⟨"Nodes only", figure.traces.map fun t => t.layer == .nodes⟩ := by
  simp [button?, menu, selections]

theorem button?_connectionsOnly (figure : Figure) : figure.button? "Connections only"
    = some ⟨"Connections only", figure.traces.map fun t => t.layer == .connections⟩ := by
  simp [button?, menu, selections]

theorem button?_withoutPickups (figure : Figure) : figure.button? "Without pickups"
    = some ⟨"Without pickups", figure.traces.map fun t => !t.showsLeaves⟩ := by
  simp [button?, menu, selections]

theorem length_visible {figure : Figure} {b : MenuButton} (h : b ∈ figure.menu) :
    b.visible.length = figure.traces.length := by
  obtain ⟨⟨label, shows⟩, -, rfl⟩ := List.mem_map.mp h
  exact List.length_map _

/-- A trace is of one of the two layers. -/
theorem layer_beq_connections (t : Trace) : (t.layer == .connections) = !(t.layer == .nodes) := by
  cases t <;> rfl

/-! ## Traces -/

section Traces

variable {g : Graph} {options : Options}

theorem name_of_mem_lineTraces {style : LineStyle} {cs : List Connection} {traces : List Trace}
    (h : lineTraces g style cs = .ok traces) {t : Trace} (ht : t ∈ traces) : t.name = style.name := by
  unfold lineTraces at h
  split at h
  · cases h
    cases ht
  · obtain ⟨segments, -, rfl⟩ := Except.map_eq_ok_iff.mp h
    obtain rfl := List.mem_singleton.mp ht
    rfl

theorem name_of_mem_markerTraces {style : MarkerStyle} {labelled : Bool} {nodes : List NodeInfo} {t : Trace}
    (ht : t ∈ markerTraces style labelled nodes) : t.name = style.name := by
  obtain ⟨-, rfl⟩ := mem_markerTraces.mp ht
  rfl

theorem draw_eq_ok {traces : List Trace} (h : connectionTraces g options = .ok traces) :
    draw g options = .ok ⟨options.title, traces ++ nodeTraces g options⟩ := by
  unfold draw
  rw [h]
  rfl

/-- Traces that all show leaves, or all do not, are hidden or kept as one. -/
theorem filter_of_showsLeaves {traces : List Trace} {b : Bool} (h : ∀ t ∈ traces, t.showsLeaves = b) :
    traces.filter (fun t => !t.showsLeaves) = if b then [] else traces := by
  cases b with
  | true => exact List.filter_eq_nil_iff.mpr fun t ht => by simp [h t ht]
  | false => exact List.filter_eq_self.mpr fun t ht => by simp [h t ht]

/-- Whether a trace shows leaves is a matter of its style. -/
theorem filter_lineTraces {style : LineStyle} {cs : List Connection} {traces : List Trace}
    (h : lineTraces g style cs = .ok traces) : traces.filter (fun t => !t.showsLeaves)
      = if style.name == Trace.leafNodes || style.name == Trace.leafConnections then [] else traces := by
  refine filter_of_showsLeaves fun t ht => ?_
  rw [Trace.showsLeaves, name_of_mem_lineTraces h ht]

theorem filter_markerTraces (style : MarkerStyle) (labelled : Bool) (nodes : List NodeInfo) :
    (markerTraces style labelled nodes).filter (fun t => !t.showsLeaves)
      = if style.name == Trace.leafNodes || style.name == Trace.leafConnections then []
        else markerTraces style labelled nodes := by
  refine filter_of_showsLeaves fun t ht => ?_
  rw [Trace.showsLeaves, name_of_mem_markerTraces ht]

/-- Without the traces of leaves, the traces of connections are those that are drawn without leaves. -/
theorem exists_connectionTraces_withoutLeaves (h : g.EndsAtKeys) (options : Options) :
    ∃ all rest, connectionTraces g { options with showLeaves := true } = .ok all ∧
      connectionTraces g { options with showLeaves := false } = .ok rest ∧
      all.filter (fun t => !t.showsLeaves) = rest := by
  obtain ⟨twoWay, htwo⟩ := exists_lineTraces_eq_ok h twoWayStyle isTwoWay
  obtain ⟨oneWay, hone⟩ := exists_lineTraces_eq_ok h oneWayStyle isOneWay
  obtain ⟨leaves, hleaves⟩ := exists_lineTraces_eq_ok h leafLineStyle isLeafConnection
  unfold connectionTraces
  cases options.showConnections with
  | false => exact ⟨[], [], rfl, rfl, rfl⟩
  | true =>
    refine ⟨twoWay ++ oneWay ++ leaves, twoWay ++ oneWay, ?_, ?_, ?_⟩
    · rw [htwo, hone, hleaves]
      rfl
    · rw [htwo, hone]
      rfl
    · rw [List.filter_append, List.filter_append, filter_lineTraces htwo, filter_lineTraces hone,
        filter_lineTraces hleaves]
      exact List.append_nil _

/-- So it is with the traces of nodes. -/
theorem filter_nodeTraces (g : Graph) (options : Options) :
    (nodeTraces g { options with showLeaves := true }).filter (fun t => !t.showsLeaves)
      = nodeTraces g { options with showLeaves := false } := by
  unfold nodeTraces
  simp only [List.filter_append, filter_markerTraces, Bool.and_false, List.filter_false]
  rfl

theorem layer_of_mem_nodeTraces {t : Trace} (ht : t ∈ nodeTraces g options) : t.layer = .nodes := by
  rw [nodeTraces_eq] at ht
  obtain ⟨style, -, ht⟩ := List.mem_flatMap.mp ht
  obtain ⟨-, rfl⟩ := mem_markerTraces.mp ht
  rfl

/-- Without the traces of connections, those of nodes are left. -/
theorem exists_draw_nodesOnly (h : g.EndsAtKeys) (options : Options) :
    ∃ all, draw g options = .ok all ∧
      all.traces.filter (fun t => t.layer == .nodes) = nodeTraces g options := by
  obtain ⟨segments, -, hdraw⟩ := exists_draw_eq h options
  rw [← nodeTraces_eq] at hdraw
  refine ⟨_, hdraw, ?_⟩
  have hlines : (lineStyles.flatMap fun style => segmentTraces style (segments style)).filter
      (fun t => t.layer == .nodes) = [] := by
    refine List.filter_eq_nil_iff.mpr fun t ht => ?_
    obtain ⟨style, -, ht⟩ := List.mem_flatMap.mp ht
    obtain ⟨-, rfl⟩ := mem_segmentTraces.mp ht
    exact Bool.false_ne_true
  have hmarkers : (nodeTraces g options).filter (fun t => t.layer == .nodes) = nodeTraces g options :=
    List.filter_eq_self.mpr fun t ht => by simp [layer_of_mem_nodeTraces ht]
  rw [List.filter_append, hlines, hmarkers]
  rfl

end Traces

/-- **The menu agrees with the ways to draw a graph** whose connections end at its vertices.  In every figure
the entry for connections shows what the one for nodes hides, and each entry tells of every trace. -/
theorem menuAgrees_of_endsAtKeys {g : Graph} (h : g.EndsAtKeys) :
    (∀ options, MenuAgrees g options) ∧ ∀ figure : Figure,
      (∃ nodes connections, figure.button? "Nodes only" = some nodes ∧
        figure.button? "Connections only" = some connections ∧
        connections.visible = nodes.visible.map (!·)) ∧
      ∀ b ∈ figure.menu, b.visible.length = figure.traces.length := by
  refine ⟨fun options => ⟨?_, ?_⟩, fun figure => ⟨?_, fun b => length_visible⟩⟩
  · obtain ⟨all, rest, hall, hrest, hfilter⟩ := exists_connectionTraces_withoutLeaves h options
    refine ⟨_, _, draw_eq_ok hall, draw_eq_ok hrest, ?_⟩
    unfold tracesUnder?
    rw [button?_withoutPickups, Option.map_some, shownBy_map, List.filter_append, hfilter,
      filter_nodeTraces]
  · obtain ⟨all, hall, hfilter⟩ := exists_draw_nodesOnly h { options with showConnections := true }
    have hnone : connectionTraces g { options with showConnections := false } = .ok [] := rfl
    refine ⟨_, _, hall, draw_eq_ok hnone, ?_⟩
    unfold tracesUnder?
    rw [button?_nodesOnly, Option.map_some, shownBy_map, hfilter]
    -- which nodes are shown does not depend on connections
    rfl
  · refine ⟨_, _, button?_nodesOnly figure, button?_connectionsOnly figure, ?_⟩
    rw [List.map_map]
    exact List.map_congr_left fun t _ => layer_beq_connections t

theorem menuAgrees_of_endsAtKeys_crowdedGraph :
    crowdedGraph.EndsAtKeys ∧ MenuAgrees crowdedGraph { highlight := ["b"] } ∧
      ∃ figure, draw crowdedGraph { highlight := ["b"] } = .ok figure ∧
        figure.traces.map Trace.name = ["Two-way connections", "One-way connections",
          "Pickup connections", "Anchors", "Pickups", "Highlighted"] ∧
        (figure.tracesUnder? "Without pickups").map (·.map Trace.name)
          = some ["Two-way connections", "One-way connections", "Anchors", "Highlighted"] := by
  have hends : crowdedGraph.EndsAtKeys := by
    unfold Graph.EndsAtKeys
    decide
  have hnames : (draw crowdedGraph { highlight := ["b"] }).map (fun figure =>
      (figure.traces.map Trace.name, (figure.tracesUnder? "Without pickups").map (·.map Trace.name)))
      = .ok (["Two-way connections", "One-way connections", "Pickup connections", "Anchors",
          "Pickups", "Highlighted"],
        some ["Two-way connections", "One-way connections", "Anchors", "Highlighted"]) := by
    decide +kernel
  obtain ⟨figure, hfigure, hnames⟩ := Except.map_eq_ok_iff.mp hnames
  obtain ⟨hall, hshown⟩ := Prod.mk.inj hnames
  exact ⟨hends, (menuAgrees_of_endsAtKeys hends).1 _, figure, hfigure, hall, hshown⟩

end AreaAtlas.Figure

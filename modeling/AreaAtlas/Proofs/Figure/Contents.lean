import AreaAtlas.Figure.Json
import AreaAtlas.Proofs.Figure.Drawing
import Mathlib.Algebra.BigOperators.Group.Finset.Basic
import Mathlib.Data.Nat.Cast.Basic
import Mathlib.Data.List.Forall2

/-!
# What a figure shows

A figure is taken apart into traces, and some of these are left out.  This module says which trace a node or
a connection belongs to without a look at how the traces are made: `markerTrace?` goes by the name of a node,
`lineTrace?` by the kind and direction of a connection.  `Figure.showsAll_of_endsAtKeys` is the main statement:
the documents of the traces hold every node and every connection in the trace that it belongs to, once and in
the order of the graph, and nothing else.
-/

namespace AreaAtlas

/-- The value of a field of a document. -/
def Json.field? : Json → String → Option Json
  | .object fields, key => (fields.find? (·.1 == key)).map (·.2)
  | _, _ => none

/-- A name is one of a leaf: the graph lists it, or a connection to a leaf ends there. -/
def Graph.IsLeaf (g : Graph) (name : String) : Prop :=
  name ∈ g.leaves ∨ ∃ c ∈ g.connections, c.kind = .leaf ∧ c.finish = name

instance (g : Graph) (name : String) : Decidable (g.IsLeaf name) :=
  inferInstanceAs (Decidable (_ ∨ _))

theorem NodeInfo.isLeafOf_eq_true_iff {g : Graph} {name : String} :
    isLeafOf g name = true ↔ g.IsLeaf name := by
  simp [isLeafOf, Graph.IsLeaf]

namespace Figure

/-! ## Where nodes and connections belong -/

/-- The name of the trace that marks the nodes of a name, if one does. -/
def markerTrace? (g : Graph) (options : Options) (name : String) : Option String :=
  if ∃ wanted ∈ options.highlight, lower wanted = lower name then some "Highlighted"
  else if g.IsLeaf name then (if options.showLeaves then some "Pickups" else none)
  else some "Anchors"

/-- The name of the trace that draws a connection, if one does. -/
def lineTrace? (options : Options) (c : Connection) : Option String :=
  if options.showConnections then
    match c.kind, c.unidirectional with
    | .branch, false => some "Two-way connections"
    | .branch, true => some "One-way connections"
    | .leaf, _ => if options.showLeaves then some "Pickup connections" else none
  else none

/-- The vertices that a trace of this name marks, in the order of the graph. -/
def markedIn (g : Graph) (options : Options) (name : String) : List Vertex :=
  (g.vertices.map (·.2)).filter fun v => markerTrace? g options v.name = some name

/-- The connections that a trace of this name draws, in the order of the graph. -/
def drawnIn (g : Graph) (options : Options) (name : String) : List Connection :=
  g.connections.filter fun c => lineTrace? options c = some name

/-- A document marks these vertices, one behind the other: what its arrays hold at one place is about one
vertex. -/
structure MarksVertices (g : Graph) (labelled : Bool) (vs : List Vertex) (document : Json) : Prop where
  x : document.field? "x" = some (.array (vs.map fun v => .number v.position.x))
  y : document.field? "y" = some (.array (vs.map fun v => .number v.position.y))
  text : document.field? "text"
    = some (.array (vs.map fun v => .text (if labelled then v.name else "")))
  hovertext : document.field? "hovertext"
    = some (.array (vs.map fun v => .text (NodeInfo.ofVertex g v).hoverText))

/-- A document draws these segments, one behind the other: each of its arrays holds two coordinates and a gap
for every segment. -/
structure DrawsSegments (segments : List (Position × Position)) (document : Json) : Prop where
  x : document.field? "x"
    = some (.array (segments.flatMap fun s => [.number s.1.x, .number s.2.x, .null]))
  y : document.field? "y"
    = some (.array (segments.flatMap fun s => [.number s.1.y, .number s.2.y, .null]))

/-- A segment leads from the place of the vertex where a connection starts to that where it ends. -/
def IsSegment (g : Graph) (c : Connection) (s : Position × Position) : Prop :=
  (g.vertex? c.start).map (·.position) = some s.1 ∧ (g.vertex? c.finish).map (·.position) = some s.2

/-- **What a figure shows of a graph**: all that belongs to one of its traces, and nothing twice. -/
structure ShowsAll (g : Graph) (options : Options) (figure : Figure) : Prop where
  /-- No two traces have the same name. -/
  nodup : (figure.traces.map Trace.name).Nodup
  /-- A document bears the name of its trace. -/
  name : ∀ t ∈ figure.traces, t.toJson.field? "name" = some (.text t.name)
  /-- A trace of nodes marks the vertices that belong to it. -/
  marks : ∀ t ∈ figure.traces, t.layer = .nodes →
    MarksVertices g (options.showLabels || t.name == "Highlighted") (markedIn g options t.name) t.toJson
  /-- A trace that a vertex belongs to is there. -/
  exists_marks : ∀ entry ∈ g.vertices, ∀ name, markerTrace? g options entry.2.name = some name →
    ∃ t ∈ figure.traces, t.layer = .nodes ∧ t.name = name
  /-- A vertex stands once in the trace that it belongs to, and in no other. -/
  once : ∀ entry ∈ g.vertices, ∀ name, (markedIn g options name).count entry.2
    = if markerTrace? g options entry.2.name = some name then 1 else 0
  /-- A trace of connections draws a segment for each of those that belong to it. -/
  draws : ∀ t ∈ figure.traces, t.layer = .connections → ∃ segments,
    List.Forall₂ (IsSegment g) (drawnIn g options t.name) segments ∧ DrawsSegments segments t.toJson
  /-- A trace that a connection belongs to is there. -/
  exists_draws : ∀ c ∈ g.connections, ∀ name, lineTrace? options c = some name →
    ∃ t ∈ figure.traces, t.layer = .connections ∧ t.name = name

/-! ## Traces of nodes -/

/-- The styles of markers, in the order in which their traces stand. -/
def markerStyles : List MarkerStyle := [anchorStyle, leafStyle, highlightStyle]

/-- Whether the markers of a trace of this name bear labels. -/
def isLabelled (options : Options) (name : String) : Bool :=
  options.showLabels || name == "Highlighted"

theorem Options.highlights_eq_true_iff {options : Options} {name : String} :
    options.highlights name = true ↔ ∃ wanted ∈ options.highlight, lower wanted = lower name := by
  simp [highlights]

section Nodes

variable {g : Graph} {options : Options}

theorem nodeInfos_eq : g.nodeInfos = (g.vertices.map (·.2)).map (NodeInfo.ofVertex g) := by
  rw [List.map_map]
  rfl

/-- A selection of nodes that goes by the trace of their names. -/
theorem filter_nodeInfos {p : NodeInfo → Bool} {name : String}
    (h : ∀ v, p (NodeInfo.ofVertex g v) = true ↔ markerTrace? g options v.name = some name) :
    g.nodeInfos.filter p = (markedIn g options name).map (NodeInfo.ofVertex g) := by
  unfold markedIn
  rw [nodeInfos_eq, List.filter_map]
  refine congrArg (List.map _) (List.filter_congr ?_)
  intro v _
  rw [Bool.eq_iff_iff, decide_eq_true_iff]
  exact h v

theorem markerTrace?_eq_highlighted_iff {name : String} :
    markerTrace? g options name = some "Highlighted" ↔ options.highlights name = true := by
  rw [Options.highlights_eq_true_iff]
  unfold markerTrace?
  split
  · next h => exact iff_of_true rfl h
  · next h =>
    refine iff_of_false ?_ h
    split
    · split <;> simp
    · simp

theorem markerTrace?_eq_anchors_iff {name : String} :
    markerTrace? g options name = some "Anchors" ↔
      options.highlights name = false ∧ ¬g.IsLeaf name := by
  rw [← Bool.not_eq_true, Options.highlights_eq_true_iff]
  unfold markerTrace?
  split
  · next h => simp [h]
  · next h =>
    split
    · next hleaf => split <;> simp [hleaf]
    · next hleaf => simp [h, hleaf]

theorem markerTrace?_eq_pickups_iff {name : String} :
    markerTrace? g options name = some "Pickups" ↔
      options.highlights name = false ∧ g.IsLeaf name ∧ options.showLeaves = true := by
  rw [← Bool.not_eq_true, Options.highlights_eq_true_iff]
  unfold markerTrace?
  split
  · next h => simp [h]
  · next h =>
    split
    · next hleaf =>
      split
      · next hshow => simp [h, hleaf, hshow]
      · next hshow => simp [hshow]
    · next hleaf => simp [hleaf]

/-- The traces of nodes, one style behind the other. -/
theorem nodeTraces_eq : nodeTraces g options = markerStyles.flatMap fun style =>
    markerTraces style (isLabelled options style.name)
      ((markedIn g options style.name).map (NodeInfo.ofVertex g)) := by
  have hanchors : g.nodeInfos.filter (fun info => !info.isLeaf && !options.highlights info.name)
      = (markedIn g options "Anchors").map (NodeInfo.ofVertex g) := by
    refine filter_nodeInfos fun v => ?_
    rw [markerTrace?_eq_anchors_iff, ← NodeInfo.isLeafOf_eq_true_iff]
    simp [NodeInfo.ofVertex, and_comm]
  have hleaves : g.nodeInfos.filter
      (fun info => (info.isLeaf && options.showLeaves) && !options.highlights info.name)
      = (markedIn g options "Pickups").map (NodeInfo.ofVertex g) := by
    refine filter_nodeInfos fun v => ?_
    rw [markerTrace?_eq_pickups_iff, ← NodeInfo.isLeafOf_eq_true_iff]
    simp [NodeInfo.ofVertex, and_comm]
  have hhighlighted : g.nodeInfos.filter (fun info => options.highlights info.name)
      = (markedIn g options "Highlighted").map (NodeInfo.ofVertex g) :=
    filter_nodeInfos fun _ => markerTrace?_eq_highlighted_iff.symm
  unfold nodeTraces
  dsimp only
  rw [List.filter_filter, List.filter_filter, hanchors, hleaves, hhighlighted]
  simp [markerStyles, isLabelled, anchorStyle, leafStyle, highlightStyle, Trace.leafNodes]

end Nodes

/-! ## Traces of connections -/

/-- The styles of lines, in the order in which their traces stand. -/
def lineStyles : List LineStyle := [twoWayStyle, oneWayStyle, leafLineStyle]

/-- The trace of segments, if there are any. -/
def segmentTraces (style : LineStyle) (segments : List (Position × Position)) : List Trace :=
  if segments.isEmpty then [] else [.lines style segments]

section Connections

variable {g : Graph} {options : Options}

theorem locate_eq_ok_iff {key : String} {p : Position} :
    locate g key = .ok p ↔ (g.vertex? key).map (·.position) = some p := by
  unfold locate
  cases g.vertex? key with
  | none => simp
  | some v => simp

theorem segment_eq_ok_iff {c : Connection} {s : Position × Position} :
    segment g c = .ok s ↔ IsSegment g c s := by
  unfold segment IsSegment
  simp only [Except.bind_eq_ok_iff, locate_eq_ok_iff, pure, Except.pure, Except.ok.injEq]
  constructor
  · rintro ⟨start, hstart, finish, hfinish, rfl⟩
    exact ⟨hstart, hfinish⟩
  · rintro ⟨hstart, hfinish⟩
    exact ⟨_, hstart, _, hfinish, rfl⟩

/-- The segments of connections, one for each. -/
theorem forall₂_of_mapM {cs : List Connection} {segments : List (Position × Position)}
    (h : cs.mapM (segment g) = .ok segments) : List.Forall₂ (IsSegment g) cs segments := by
  induction cs generalizing segments with
  | nil =>
    cases h
    exact List.Forall₂.nil
  | cons c cs ih =>
    rw [List.mapM_cons, Except.bind_eq_ok_iff] at h
    obtain ⟨s, hs, h⟩ := h
    obtain ⟨rest, hrest, h⟩ := Except.bind_eq_ok_iff.mp h
    cases h
    exact List.Forall₂.cons (segment_eq_ok_iff.mp hs) (ih hrest)

theorem lineTraces_eq {style : LineStyle} {cs : List Connection} {segments : List (Position × Position)}
    (h : cs.mapM (segment g) = .ok segments) :
    lineTraces g style cs = .ok (segmentTraces style segments) := by
  have hempty : cs.isEmpty = segments.isEmpty := by
    cases forall₂_of_mapM h with
    | nil => rfl
    | cons _ _ => rfl
  unfold lineTraces segmentTraces
  rw [hempty, h]
  split
  · rfl
  · rfl

/-- A selection of connections that goes by their trace. -/
theorem filter_connections {p : Connection → Bool} {name : String}
    (h : ∀ c, p c = true ↔ lineTrace? options c = some name) :
    g.connections.filter p = drawnIn g options name := by
  refine List.filter_congr ?_
  intro c _
  rw [Bool.eq_iff_iff, decide_eq_true_iff]
  exact h c

theorem drawnIn_eq_nil {name : String} (h : ∀ c, lineTrace? options c ≠ some name) :
    drawnIn g options name = [] :=
  List.filter_eq_nil_iff.mpr fun c _ hc => h c (of_decide_eq_true hc)

theorem lineTrace?_eq_twoWay_iff (h : options.showConnections = true) (c : Connection) :
    isTwoWay c = true ↔ lineTrace? options c = some twoWayStyle.name := by
  unfold isTwoWay lineTrace?
  rw [if_pos h]
  cases c.kind <;> cases c.unidirectional <;> cases options.showLeaves <;> decide

theorem lineTrace?_eq_oneWay_iff (h : options.showConnections = true) (c : Connection) :
    isOneWay c = true ↔ lineTrace? options c = some oneWayStyle.name := by
  unfold isOneWay lineTrace?
  rw [if_pos h]
  cases c.kind <;> cases c.unidirectional <;> cases options.showLeaves <;> decide

theorem lineTrace?_eq_leaf_iff (h : options.showConnections = true) (hleaves : options.showLeaves = true)
    (c : Connection) : isLeafConnection c = true ↔ lineTrace? options c = some leafLineStyle.name := by
  unfold isLeafConnection lineTrace?
  rw [if_pos h, hleaves]
  cases c.kind <;> cases c.unidirectional <;> decide

theorem lineTrace?_ne_leaf (h : options.showLeaves = false) (c : Connection) :
    lineTrace? options c ≠ some leafLineStyle.name := by
  unfold lineTrace?
  rw [h]
  cases options.showConnections <;> cases c.kind <;> cases c.unidirectional <;> decide

/-- The traces of connections, one style behind the other, if the segments are there. -/
theorem connectionTraces_eq {segments : LineStyle → List (Position × Position)}
    (h : ∀ style, (drawnIn g options style.name).mapM (segment g) = .ok (segments style)) :
    connectionTraces g options
      = .ok (lineStyles.flatMap fun style => segmentTraces style (segments style)) := by
  have hlines : ∀ style, lineTraces g style (drawnIn g options style.name)
      = .ok (segmentTraces style (segments style)) := fun style => lineTraces_eq (h style)
  -- a trace to which no connection belongs is not there
  have hnone : ∀ style, (∀ c, lineTrace? options c ≠ some style.name) →
      segmentTraces style (segments style) = [] := by
    intro style hc
    have hline := hlines style
    rw [drawnIn_eq_nil hc] at hline
    exact (Except.ok.inj hline).symm
  unfold connectionTraces
  cases hshow : options.showConnections with
  | false =>
    have hall : ∀ style, segmentTraces style (segments style) = [] :=
      fun style => hnone style fun c => by simp [lineTrace?, hshow]
    simp [hall, pure, Except.pure]
  | true =>
    rw [filter_connections (lineTrace?_eq_twoWay_iff hshow), hlines,
      filter_connections (lineTrace?_eq_oneWay_iff hshow), hlines]
    cases hleaves : options.showLeaves with
    | false =>
      have hleaf := hnone leafLineStyle (lineTrace?_ne_leaf hleaves)
      simp [lineStyles, hleaf, bind, Except.bind, pure, Except.pure]
    | true =>
      rw [filter_connections (lineTrace?_eq_leaf_iff hshow hleaves), hlines]
      simp [lineStyles, bind, Except.bind, pure, Except.pure]

end Connections

/-! ## The figure -/

section Parts

/-- The names of traces that stand one behind the other in groups of one or none. -/
theorem map_name_flatMap_sublist {α : Type} {styles : List α} {traces : α → List Trace}
    {name : α → String} (h : ∀ style, ((traces style).map Trace.name).Sublist [name style]) :
    ((styles.flatMap traces).map Trace.name).Sublist (styles.map name) := by
  induction styles with
  | nil => exact List.Sublist.refl _
  | cons style styles ih =>
    rw [List.flatMap_cons, List.map_append, List.map_cons]
    exact (h style).append ih

theorem mem_segmentTraces {style : LineStyle} {segments : List (Position × Position)} {t : Trace} :
    t ∈ segmentTraces style segments ↔ segments ≠ [] ∧ t = .lines style segments := by
  unfold segmentTraces
  cases segments with
  | nil => simp
  | cons s segments => simp

theorem mem_markerTraces {style : MarkerStyle} {labelled : Bool} {nodes : List NodeInfo} {t : Trace} :
    t ∈ markerTraces style labelled nodes ↔ nodes ≠ [] ∧ t = .markers style labelled nodes := by
  unfold markerTraces
  cases nodes with
  | nil => simp
  | cons node nodes => simp

theorem map_name_segmentTraces_sublist (style : LineStyle) (segments : List (Position × Position)) :
    ((segmentTraces style segments).map Trace.name).Sublist [style.name] := by
  unfold segmentTraces
  split
  · exact List.nil_sublist _
  · exact List.Sublist.refl _

theorem map_name_markerTraces_sublist (style : MarkerStyle) (labelled : Bool) (nodes : List NodeInfo) :
    ((markerTraces style labelled nodes).map Trace.name).Sublist [style.name] := by
  unfold markerTraces
  split
  · exact List.nil_sublist _
  · exact List.Sublist.refl _

/-- The document of a trace of segments. -/
theorem drawsSegments_lines (style : LineStyle) (segments : List (Position × Position)) :
    DrawsSegments segments (Trace.lines style segments).toJson := by
  constructor
  · rfl
  · rfl

/-- The document of a trace of vertices. -/
theorem marksVertices_markers (g : Graph) (style : MarkerStyle) (labelled : Bool) (vs : List Vertex) :
    MarksVertices g labelled vs
      (Trace.markers style labelled (vs.map (NodeInfo.ofVertex g))).toJson := by
  constructor <;> simp [Trace.toJson, Json.field?, NodeInfo.ofVertex, Function.comp_def]

theorem field?_name (t : Trace) : t.toJson.field? "name" = some (.text t.name) := by
  cases t with
  | lines style segments => rfl
  | markers style labelled nodes => rfl

end Parts

section Figure

variable {g : Graph} {options : Options}

/-- A graph whose connections end at its vertices is drawn style by style. -/
theorem exists_draw_eq (h : g.EndsAtKeys) (options : Options) :
    ∃ segments : LineStyle → List (Position × Position),
      (∀ style, List.Forall₂ (IsSegment g) (drawnIn g options style.name) (segments style)) ∧
      draw g options = .ok ⟨options.title,
        (lineStyles.flatMap fun style => segmentTraces style (segments style)) ++
          markerStyles.flatMap fun style => markerTraces style (isLabelled options style.name)
            ((markedIn g options style.name).map (NodeInfo.ofVertex g))⟩ := by
  have hsegments : ∀ style : LineStyle, ∃ segments,
      (drawnIn g options style.name).mapM (segment g) = .ok segments := by
    intro style
    refine Except.exists_mapM_eq_ok ?_
    intro c hc
    obtain ⟨hstart, hfinish⟩ := h c (List.mem_filter.mp hc).1
    exact exists_segment_eq_ok hstart hfinish
  choose segments hsegments using hsegments
  refine ⟨segments, fun style => forall₂_of_mapM (hsegments style), ?_⟩
  unfold draw
  rw [connectionTraces_eq hsegments, nodeTraces_eq]
  rfl

/-- Every trace that marks a node is one of a style of markers. -/
theorem exists_markerStyle {name trace : String} (h : markerTrace? g options name = some trace) :
    ∃ style ∈ markerStyles, style.name = trace := by
  unfold markerTrace? at h
  split at h
  · exact ⟨highlightStyle, by simp [markerStyles], Option.some.inj h⟩
  · split at h
    · split at h
      · exact ⟨leafStyle, by simp [markerStyles], Option.some.inj h⟩
      · cases h
    · exact ⟨anchorStyle, by simp [markerStyles], Option.some.inj h⟩

/-- Every trace that draws a connection is one of a style of lines. -/
theorem exists_lineStyle {c : Connection} {trace : String} (h : lineTrace? options c = some trace) :
    ∃ style ∈ lineStyles, style.name = trace := by
  unfold lineTrace? at h
  split at h
  · split at h
    · exact ⟨twoWayStyle, by simp [lineStyles], Option.some.inj h⟩
    · exact ⟨oneWayStyle, by simp [lineStyles], Option.some.inj h⟩
    · split at h
      · exact ⟨leafLineStyle, by simp [lineStyles], Option.some.inj h⟩
      · cases h
  · cases h

theorem map_name_vertices (hname : ∀ entry ∈ g.vertices, entry.2.name = entry.1) :
    (g.vertices.map (·.2)).map (·.name) = g.vertices.keys := by
  rw [List.map_map]
  exact List.map_congr_left hname

/-- A vertex stands once in the trace that it belongs to, and in no other. -/
theorem count_markedIn (hnodup : g.vertices.keys.Nodup)
    (hname : ∀ entry ∈ g.vertices, entry.2.name = entry.1) {entry : String × Vertex}
    (h : entry ∈ g.vertices) (name : String) : (markedIn g options name).count entry.2
      = if markerTrace? g options entry.2.name = some name then 1 else 0 := by
  have hvertices : (g.vertices.map (·.2)).Nodup := by
    refine List.Nodup.of_map (·.name) ?_
    rw [map_name_vertices hname]
    exact hnodup
  unfold markedIn
  split
  · next hbelongs =>
    refine (List.count_filter ?_).trans (List.count_eq_one_of_mem hvertices (List.mem_map_of_mem h))
    exact decide_eq_true hbelongs
  · next hbelongs =>
    refine List.count_eq_zero_of_not_mem fun hmem => hbelongs ?_
    exact of_decide_eq_true (List.mem_filter.mp hmem).2

/-- Every end of a connection is counted at one vertex. -/
theorem sum_connectionCount (hnodup : g.vertices.keys.Nodup)
    (hname : ∀ entry ∈ g.vertices, entry.2.name = entry.1) (h : g.EndsAtKeys) :
    (g.nodeInfos.map (·.connectionCount)).sum = 2 * g.connections.length := by
  have hcounts : g.nodeInfos.map (·.connectionCount)
      = g.vertices.keys.map (NodeInfo.connectionEnds g) := by
    rw [nodeInfos_eq, ← map_name_vertices hname]
    simp only [List.map_map]
    rfl
  have hends : ∀ name ∈ (g.connections.flatMap fun c => [c.start, c.finish] : Multiset String),
      name ∈ g.vertices.keys.toFinset := by
    intro name hmem
    obtain ⟨c, hc, hend⟩ := List.mem_flatMap.mp (Multiset.mem_coe.mp hmem)
    obtain ⟨hstart, hfinish⟩ := h c hc
    rw [List.mem_toFinset]
    rcases List.mem_pair.mp hend with rfl | rfl
    · exact hstart
    · exact hfinish
  calc (g.nodeInfos.map (·.connectionCount)).sum
      = (g.vertices.keys.map (NodeInfo.connectionEnds g)).sum := by rw [hcounts]
    _ = ∑ name ∈ g.vertices.keys.toFinset, NodeInfo.connectionEnds g name :=
      (List.sum_toFinset _ hnodup).symm
    _ = (g.connections.flatMap fun c => [c.start, c.finish]).length :=
      by simpa [NodeInfo.connectionEnds] using Multiset.sum_count_eq_card hends
    _ = 2 * g.connections.length := by simp [List.length_flatMap, Nat.mul_comm]

/-- The traces of a drawing show all. -/
theorem showsAll_of_draw {segments : LineStyle → List (Position × Position)}
    (hsegments : ∀ style, List.Forall₂ (IsSegment g) (drawnIn g options style.name) (segments style))
    (hnodup : g.vertices.keys.Nodup) (hname : ∀ entry ∈ g.vertices, entry.2.name = entry.1) :
    ShowsAll g options ⟨options.title,
        (lineStyles.flatMap fun style => segmentTraces style (segments style)) ++
          markerStyles.flatMap fun style => markerTraces style (isLabelled options style.name)
            ((markedIn g options style.name).map (NodeInfo.ofVertex g))⟩ := by
  refine
    { nodup := ?nodup
      name := fun t _ => field?_name t
      marks := ?marks
      exists_marks := ?exists_marks
      once := fun entry h name => count_markedIn hnodup hname h name
      draws := ?draws
      exists_draws := ?exists_draws }
  case nodup =>
    rw [List.map_append]
    have hstyles : (lineStyles.map (·.name) ++ markerStyles.map (·.name)).Nodup := by decide
    refine hstyles.sublist (List.Sublist.append ?_ ?_)
    · exact map_name_flatMap_sublist fun style => map_name_segmentTraces_sublist style _
    · exact map_name_flatMap_sublist fun style => map_name_markerTraces_sublist style _ _
  case marks =>
    intro t ht hlayer
    rcases List.mem_append.mp ht with ht | ht
    · obtain ⟨style, -, ht⟩ := List.mem_flatMap.mp ht
      obtain ⟨-, rfl⟩ := mem_segmentTraces.mp ht
      cases hlayer
    · obtain ⟨style, -, ht⟩ := List.mem_flatMap.mp ht
      obtain ⟨-, rfl⟩ := mem_markerTraces.mp ht
      exact marksVertices_markers g style _ _
  case exists_marks =>
    intro entry hentry name hbelongs
    obtain ⟨style, hstyle, rfl⟩ := exists_markerStyle hbelongs
    have hmem : entry.2 ∈ markedIn g options style.name :=
      List.mem_filter.mpr ⟨List.mem_map_of_mem hentry, decide_eq_true hbelongs⟩
    refine ⟨_, List.mem_append_right _ (List.mem_flatMap.mpr ⟨style, hstyle,
      mem_markerTraces.mpr ⟨?_, rfl⟩⟩), rfl, rfl⟩
    exact List.ne_nil_of_mem (List.mem_map_of_mem hmem)
  case draws =>
    intro t ht hlayer
    rcases List.mem_append.mp ht with ht | ht
    · obtain ⟨style, -, ht⟩ := List.mem_flatMap.mp ht
      obtain ⟨-, rfl⟩ := mem_segmentTraces.mp ht
      exact ⟨segments style, hsegments style, drawsSegments_lines style _⟩
    · obtain ⟨style, -, ht⟩ := List.mem_flatMap.mp ht
      obtain ⟨-, rfl⟩ := mem_markerTraces.mp ht
      cases hlayer
  case exists_draws =>
    intro c hc name hbelongs
    obtain ⟨style, hstyle, rfl⟩ := exists_lineStyle hbelongs
    have hmem : c ∈ drawnIn g options style.name :=
      List.mem_filter.mpr ⟨hc, decide_eq_true hbelongs⟩
    refine ⟨_, List.mem_append_left _ (List.mem_flatMap.mpr ⟨style, hstyle,
      mem_segmentTraces.mpr ⟨?_, rfl⟩⟩), rfl, rfl⟩
    intro hnil
    have hnone := hsegments style
    rw [hnil, List.forall₂_nil_right_iff] at hnone
    rw [hnone] at hmem
    cases hmem

end Figure

/-- **A figure loses and duplicates nothing** of a graph whose vertices stand under their names and whose
connections end at them, whatever is highlighted or left out; and every end of a connection is counted. -/
theorem showsAll_of_endsAtKeys {g : Graph} (hnodup : g.vertices.keys.Nodup)
    (hname : ∀ entry ∈ g.vertices, entry.2.name = entry.1) (hends : g.EndsAtKeys) :
    (∀ options, ∃ figure, draw g options = .ok figure ∧ ShowsAll g options figure) ∧
      (g.nodeInfos.map (·.connectionCount)).sum = 2 * g.connections.length := by
  refine ⟨?_, sum_connectionCount hnodup hname hends⟩
  intro options
  obtain ⟨segments, hsegments, hdraw⟩ := exists_draw_eq hends options
  exact ⟨_, hdraw, showsAll_of_draw hsegments hnodup hname⟩

/-- An anchor with a connection to itself, two that are connected twice, a leaf that only a connection makes
one, and a leaf that no connection reaches. -/
def crowdedGraph : Graph where
  vertices := [("A", ⟨"A", ⟨.ofRatio false 1 1, .ofRatio true 3 2⟩⟩), ("B", ⟨"B", ⟨.nan, .infinite true⟩⟩),
    ("Gem", ⟨"Gem", ⟨.ofRatio false 1 3, .ofRatio false 0 1⟩⟩),
    ("ΟΔΟΣ", ⟨"ΟΔΟΣ", ⟨.ofRatio false 1 3, .ofRatio true 0 1⟩⟩)]
  connections := [⟨"A", "B", false, .branch⟩, ⟨"A", "B", false, .branch⟩, ⟨"B", "B", true, .branch⟩,
    ⟨"A", "Gem", true, .leaf⟩]
  leaves := ["ΟΔΟΣ"]

theorem showsAll_of_endsAtKeys_crowdedGraph :
    crowdedGraph.vertices.keys.Nodup ∧ (∀ entry ∈ crowdedGraph.vertices, entry.2.name = entry.1) ∧
      crowdedGraph.EndsAtKeys ∧
      crowdedGraph.nodeInfos.map (fun info => (info.name, info.isLeaf, info.connectionCount))
        = [("A", false, 3), ("B", false, 4), ("Gem", true, 1), ("ΟΔΟΣ", true, 0)] ∧
      (crowdedGraph.nodeInfos.map (·.connectionCount)).sum = 2 * crowdedGraph.connections.length ∧
      ∃ figure, draw crowdedGraph { highlight := ["b", "οδος"], showLeaves := false } = .ok figure ∧
        figure.traces.map Trace.name
          = ["Two-way connections", "One-way connections", "Anchors", "Highlighted"] ∧
        ShowsAll crowdedGraph { highlight := ["b", "οδος"], showLeaves := false } figure := by
  have hnodup : crowdedGraph.vertices.keys.Nodup := by decide
  have hname : ∀ entry ∈ crowdedGraph.vertices, entry.2.name = entry.1 := by decide
  have hends : crowdedGraph.EndsAtKeys := by
    unfold Graph.EndsAtKeys
    decide
  have hnames : (draw crowdedGraph { highlight := ["b", "οδος"], showLeaves := false }).map
      (·.traces.map Trace.name)
      = .ok ["Two-way connections", "One-way connections", "Anchors", "Highlighted"] := by
    decide +kernel
  obtain ⟨hshows, hsum⟩ := showsAll_of_endsAtKeys hnodup hname hends
  obtain ⟨figure, hfigure, hall⟩ := hshows { highlight := ["b", "οδος"], showLeaves := false }
  rw [hfigure] at hnames
  exact ⟨hnodup, hname, hends, by decide +kernel, hsum, figure, hfigure, Except.ok.inj hnames, hall⟩

end Figure

end AreaAtlas

import AreaAtlas.Figure.Basic

/-!
# Drawing a graph

Connections are drawn in three traces: two-way ones and one-way ones between anchors, and those to
leaves.  Nodes are drawn in three traces: anchors, leaves, and highlighted nodes of either kind, which
are always labelled.
-/

namespace AreaAtlas.Figure

/-- The style of connections in both directions. -/
def twoWayStyle : LineStyle := ⟨"Two-way connections", "rgb(150, 150, 150)", 2, "solid"⟩

/-- The style of connections in one direction. -/
def oneWayStyle : LineStyle := ⟨"One-way connections", "rgb(220, 20, 60)", 2, "dash"⟩

/-- The style of connections to leaves. -/
def leafLineStyle : LineStyle := ⟨Trace.leafConnections, "rgb(218, 165, 32)", 1, "solid"⟩

/-- The style of anchors. -/
def anchorStyle : MarkerStyle := ⟨"Anchors", "rgb(65, 105, 225)", 8, "circle"⟩

/-- The style of leaves. -/
def leafStyle : MarkerStyle := ⟨Trace.leafNodes, "rgb(255, 165, 0)", 6, "diamond"⟩

/-- The style of highlighted nodes. -/
def highlightStyle : MarkerStyle := ⟨"Highlighted", "rgb(50, 205, 50)", 14, "circle"⟩

/-- The place of a key. -/
def locate (g : Graph) (key : String) : Except Fault Position :=
  match g.vertex? key with
  | some v => .ok v.position
  | none => .error (.missingVertex key)

/-- The line of a connection. -/
def segment (g : Graph) (c : Connection) : Except Fault (Position × Position) := do
  let start ← locate g c.start
  let finish ← locate g c.finish
  return (start, finish)

/-- The trace of connections, if there are any. -/
def lineTraces (g : Graph) (style : LineStyle) (connections : List Connection) :
    Except Fault (List Trace) :=
  if connections.isEmpty then .ok []
  else (connections.mapM (segment g)).map fun segments => [.lines style segments]

/-- The trace of nodes, if there are any. -/
def markerTraces (style : MarkerStyle) (labelled : Bool) (nodes : List NodeInfo) : List Trace :=
  if nodes.isEmpty then [] else [.markers style labelled nodes]

/-- Whether a connection joins anchors in both directions. -/
def isTwoWay (c : Connection) : Bool := c.kind = .branch && !c.unidirectional

/-- Whether a connection leads from an anchor to an anchor in one direction. -/
def isOneWay (c : Connection) : Bool := c.kind = .branch && c.unidirectional

/-- Whether a connection leads to a leaf. -/
def isLeafConnection (c : Connection) : Bool := c.kind = .leaf

/-- The traces of the connections of a graph. -/
def connectionTraces (g : Graph) (options : Options) : Except Fault (List Trace) := do
  if !options.showConnections then return []
  let twoWay ← lineTraces g twoWayStyle (g.connections.filter isTwoWay)
  let oneWay ← lineTraces g oneWayStyle (g.connections.filter isOneWay)
  if !options.showLeaves then return twoWay ++ oneWay
  let leaves ← lineTraces g leafLineStyle (g.connections.filter isLeafConnection)
  return twoWay ++ oneWay ++ leaves

/-- The traces of the nodes of a graph. -/
def nodeTraces (g : Graph) (options : Options) : List Trace :=
  let infos := g.nodeInfos
  let plain := infos.filter fun info => !options.highlights info.name
  markerTraces anchorStyle options.showLabels (plain.filter fun info => !info.isLeaf)
    ++ markerTraces leafStyle options.showLabels
      (plain.filter fun info => info.isLeaf && options.showLeaves)
    ++ markerTraces highlightStyle true (infos.filter fun info => options.highlights info.name)

/-- The figure of a graph. -/
def draw (g : Graph) (options : Options) : Except Fault Figure := do
  return ⟨options.title, (← connectionTraces g options) ++ nodeTraces g options⟩

end AreaAtlas.Figure

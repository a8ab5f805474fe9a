import AreaAtlas.Graph.Basic
import AreaAtlas.Text.Casing
import AreaAtlas.Text.Quoted

/-!
# Figures of a graph

A figure is a list of traces: lines for connections, markers for nodes.  Lines come first, so that the
markers are drawn over them.  A trace that would be empty is left out.  A menu switches between the
traces; what it shows follows from the traces alone.
-/

namespace AreaAtlas

/-- What is shown of a node. -/
structure NodeInfo where
  name : String
  position : Position
  isLeaf : Bool
  connectionCount : Nat
deriving DecidableEq

namespace NodeInfo

/-- Whether a name is a leaf of a graph: it is listed as one, or a connection to a leaf ends there. -/
def isLeafOf (g : Graph) (name : String) : Bool :=
  g.leaves.contains name || g.connections.any fun c => c.kind = .leaf && c.finish = name

/-- The number of ends of connections at a name. -/
def connectionEnds (g : Graph) (name : String) : Nat :=
  (g.connections.flatMap fun c => [c.start, c.finish]).count name

/-- What is shown of a vertex. -/
def ofVertex (g : Graph) (v : Vertex) : NodeInfo :=
  ⟨v.name, v.position, isLeafOf g v.name, connectionEnds g v.name⟩

/-- The text that is shown over a node. -/
def hoverText (info : NodeInfo) : String :=
  "<b>" ++ info.name ++ "</b><br>Position: (" ++ info.position.x.oneDecimal ++ ", "
    ++ info.position.y.oneDecimal ++ ")<br>Connections: " ++ toString info.connectionCount

end NodeInfo

/-- What is shown of the vertices of a graph, in their order. -/
def Graph.nodeInfos (g : Graph) : List NodeInfo :=
  g.vertices.map fun (_, v) => NodeInfo.ofVertex g v

/-- The layers that the menu switches between. -/
inductive Layer where
  | connections
  | nodes
deriving DecidableEq, Repr

/-- The name of a layer. -/
def Layer.name : Layer → String
  | .connections => "connections"
  | .nodes => "nodes"

/-- How lines are drawn. -/
structure LineStyle where
  name : String
  color : String
  width : Nat
  dash : String
deriving DecidableEq, Repr

/-- How markers are drawn. -/
structure MarkerStyle where
  name : String
  color : String
  size : Nat
  symbol : String
deriving DecidableEq, Repr

/-- A trace of a figure. -/
inductive Trace where
  /-- Lines between two places each. -/
  | lines (style : LineStyle) (segments : List (Position × Position))
  /-- Markers of nodes, with or without their names beside them. -/
  | markers (style : MarkerStyle) (labelled : Bool) (nodes : List NodeInfo)
deriving DecidableEq

namespace Trace

/-- The name of a trace. -/
def name : Trace → String
  | .lines style _ => style.name
  | .markers style _ _ => style.name

/-- The layer of a trace. -/
def layer : Trace → Layer
  | .lines .. => .connections
  | .markers .. => .nodes

/-- The name of the trace of leaves. -/
def leafNodes : String := "Pickups"

/-- The name of the trace of connections to leaves. -/
def leafConnections : String := "Pickup connections"

/-- Whether a trace shows leaves or connections to leaves. -/
def showsLeaves (t : Trace) : Bool :=
  t.name == leafNodes || t.name == leafConnections

end Trace

/-- A figure. -/
structure Figure where
  title : String
  traces : List Trace
deriving DecidableEq

/-- An entry of the menu: its label, and for each trace whether it is shown or only listed. -/
structure MenuButton where
  label : String
  visible : List Bool
deriving DecidableEq, Repr

namespace Figure

/-- The selections of the menu: a label, and which traces are shown. -/
def selections : List (String × (Trace → Bool)) :=
  [("Everything", fun _ => true),
    ("Nodes only", fun t => t.layer == .nodes),
    ("Connections only", fun t => t.layer == .connections),
    ("Without pickups", fun t => !t.showsLeaves)]

/-- The menu of a figure. -/
def menu (figure : Figure) : List MenuButton :=
  selections.map fun (label, shows) => ⟨label, figure.traces.map shows⟩

/-- What is shown of a graph, and how. -/
structure Options where
  title : String := "Logic Map"
  highlight : List String := []
  showConnections : Bool := true
  showLeaves : Bool := true
  showLabels : Bool := false

/-- A figure cannot be drawn if a connection that it shows has an end without a vertex. -/
inductive Fault where
  | missingVertex (key : String)
deriving DecidableEq, Repr

/-- The wording of the fault: the key that is missing. -/
def Fault.message : Fault → String
  | .missingVertex key => quoted key

/-- Whether a name is among the highlighted ones, whatever the case of its letters. -/
def Options.highlights (options : Options) (name : String) : Bool :=
  (options.highlight.map lower).contains (lower name)

end Figure

end AreaAtlas

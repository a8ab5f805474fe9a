import AreaAtlas.Json
import AreaAtlas.Keyed
import AreaAtlas.Node

/-!
# Graphs

A graph holds placed vertices under distinct keys, in the order in which the keys were first given, and
the connections between them.  The leaves are the vertices that are no anchors, whether or not a
connection reaches them.
-/

namespace AreaAtlas

/-- A placed node. -/
structure Vertex where
  name : String
  position : Position
deriving DecidableEq

/-- What a connection leads to. -/
inductive ConnectionKind where
  /-- From an anchor to an anchor. -/
  | branch
  /-- From an anchor to a leaf. -/
  | leaf
deriving DecidableEq, Repr

/-- The name of a kind. -/
def ConnectionKind.name : ConnectionKind → String
  | .branch => "Branch"
  | .leaf => "Leaf"

/-- The kind with this name. -/
def ConnectionKind.ofName? (name : String) : Option ConnectionKind :=
  [ConnectionKind.branch, .leaf].find? (·.name == name)

/-- A connection.  One that is not unidirectional stands for a path in each direction. -/
structure Connection where
  start : String
  finish : String
  unidirectional : Bool
  kind : ConnectionKind
deriving DecidableEq, Repr

/-- Whether a connection has these two ends, in either order. -/
def Connection.joins (c : Connection) (first second : String) : Bool :=
  (c.start = first ∧ c.finish = second) || (c.start = second ∧ c.finish = first)

theorem Connection.joins_comm (c : Connection) (first second : String) :
    c.joins first second = c.joins second first := by
  simp only [joins, Bool.or_comm]

/-- A graph. -/
structure Graph where
  vertices : Keyed Vertex
  connections : List Connection
  leaves : List String
deriving DecidableEq

namespace Graph

/-- The vertex under a key. -/
def vertex? (g : Graph) (key : String) : Option Vertex :=
  g.vertices.get? key

/-- The first connection with these two ends, in either order. -/
def findConnection? (g : Graph) (first second : String) : Option Connection :=
  g.connections.find? (·.joins first second)

/-- The leaves, each once, in the order of their code points. -/
def sortedLeaves (g : Graph) : List String :=
  (g.leaves.mergeSort fun a b => decide (a ≤ b)).eraseDups

end Graph

/-! ## Graphs as JSON documents -/

/-- The fields of a vertex. -/
def Vertex.toJson (v : Vertex) : Json :=
  .object [("name", .text v.name),
    ("position", .object [("x", .number v.position.x), ("y", .number v.position.y)])]

/-- The fields of a connection. -/
def Connection.toJson (c : Connection) : Json :=
  .object [("start", .text c.start), ("end", .text c.finish),
    ("unidirectional", .bool c.unidirectional), ("type", .text c.kind.name)]

/-- The document of a graph: the vertices under their keys, and the connections.  The leaves can be
told from the connections and are left out. -/
def Graph.toJson (g : Graph) : Json :=
  .object [("nodes", .object (g.vertices.map fun (key, v) => (key, v.toJson))),
    ("connections", .array (g.connections.map Connection.toJson))]

end AreaAtlas

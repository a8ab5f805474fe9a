import AreaAtlas.Graph.Basic
import AreaAtlas.NodeTable

/-!
# The graph of documents

The graph shows the placed nodes of the least restricted logic, at their places in single precision.

The edges between placed nodes become connections.  They are taken from the last to the first; an edge
takes with it the earliest remaining edge in the opposite direction, and the two make one connection
for both directions, which starts where the later edge starts.  An edge that finds no partner makes a
connection for its own direction.
-/

namespace AreaAtlas

/-! ## Pairing of edges -/

/-- An edge from an anchor to a target, both placed. -/
structure Edge where
  start : Node
  finish : Node
deriving DecidableEq

namespace Edge

/-- Whether an edge leads back along another.  Nodes are told apart by their indices. -/
def reverses (e other : Edge) : Bool :=
  other.start.index == e.finish.index && other.finish.index == e.start.index

/-- The kind of connection that an edge makes. -/
def kind (e : Edge) : ConnectionKind :=
  if e.finish.kind = .anchor then .branch else .leaf

/-- The connection that an edge makes. -/
def connection (e : Edge) (unidirectional : Bool) : Connection :=
  ⟨e.start.identifier, e.finish.identifier, unidirectional, e.kind⟩

end Edge

namespace Pairing

/-- The nodes that have a place, in the order of the table. -/
def placed (nodes : List Node) : List Node :=
  nodes.filter (·.position.isSome)

/-- The entry of a list at an index.  A negative index counts from the end. -/
def atIndex? {α : Type} (l : List α) (index : Int) : Option α :=
  if 0 ≤ index then l[index.toNat]?
  else if -index ≤ l.length then l[(l.length + index).toNat]?
  else none

/-- The edges from an anchor to placed nodes of a table. -/
def edgesFrom (nodes : List Node) (anchor : Node) : List Edge :=
  if anchor.kind = .anchor then
    (anchor.targets.filterMap (atIndex? nodes)).filterMap fun target =>
      if target.position.isSome then some ⟨anchor, target⟩ else none
  else []

/-- The edges from placed nodes, in the order of the nodes and of the targets of each. -/
def edges (nodes placed : List Node) : List Edge :=
  placed.flatMap (edgesFrom nodes)

/-- A list without the last element that satisfies `p`. -/
def eraseLast {α : Type} (p : α → Bool) (l : List α) : List α :=
  (l.reverse.eraseP p).reverse

theorem length_eraseLast_le {α : Type} (p : α → Bool) (l : List α) :
    (eraseLast p l).length ≤ l.length := by
  have := (List.eraseP_sublist (p := p) (l := l.reverse)).length_le
  simpa [eraseLast] using this

/-- Make connections of edges, the last edge of the table being the first of the list. -/
def pair : List Edge → List Connection
  | [] => []
  | e :: earlier =>
    if earlier.any e.reverses then e.connection false :: pair (eraseLast e.reverses earlier)
    else e.connection true :: pair earlier
termination_by edges => edges.length
decreasing_by
  · exact Nat.lt_succ_of_le (length_eraseLast_le _ _)
  · exact Nat.lt_succ_self _

/-- The connections between placed nodes. -/
def connections (nodes placed : List Node) : List Connection :=
  pair (edges nodes placed).reverse

/-- Why an index leads to no entry. -/
inductive Fault where
  | outOfRange
  /-- It is beyond all indices. -/
  | notAnIndex
deriving DecidableEq, Repr

/-- The wording of a fault. -/
def Fault.message : Fault → String
  | .outOfRange => "list index out of range"
  | .notAnIndex => "cannot fit 'int' into an index-sized integer"

/-- What indices, counted from either end, stay below. -/
def indexBound : Int := 0x8000000000000000

/-- The fault of looking for an entry, if there is one. -/
def fault? {α : Type} (l : List α) (index : Int) : Option Fault :=
  if index < -indexBound ∨ indexBound ≤ index then some .notAnIndex
  else if (atIndex? l index).isNone then some .outOfRange
  else none

/-- The first fault that looking for the targets of these nodes meets, if there is one. -/
def firstFault? (nodes placed : List Node) : Option Fault :=
  placed.findSome? fun n => if n.kind = .anchor then n.targets.findSome? (fault? nodes) else none

/-- The connections between placed nodes of a table whose targets may be out of range. -/
def derive (nodes placed : List Node) : Except Fault (List Connection) :=
  match firstFault? nodes placed with
  | some fault => .error fault
  | none => .ok (connections nodes placed)

end Pairing

/-! ## Building -/

/-- The vertex of a placed node. -/
def Vertex.ofNode? (n : Node) : Option Vertex :=
  n.position.map fun p => ⟨n.identifier, p.toSingle⟩

/-- The graph of a node table. -/
def Graph.ofNodes (nodes : List Node) : Graph :=
  let placed := Pairing.placed nodes
  { vertices := Keyed.ofList ((placed.filterMap Vertex.ofNode?).map fun v => (v.name, v))
    connections := Pairing.connections nodes placed
    leaves := (placed.filter (·.kind ≠ .anchor)).map (·.identifier) }

/-- The logic that a graph is built from: at the least restrictive difficulty, without a state table. -/
def Logic.readUnrestricted (areas locations : String) : Except Fault Logic :=
  Logic.read areas locations "" .unrestricted false

/-- The graph of an areas text and a location table. -/
def Graph.build (areas locations : String) : Except Fault Graph :=
  (Logic.readUnrestricted areas locations).map fun logic => Graph.ofNodes logic.nodes

end AreaAtlas

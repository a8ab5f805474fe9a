import AreaAtlas.Areas.Document
import AreaAtlas.Location

/-!
# The node table

The nodes of the logic are the declared anchors, in their order, and behind them the leaves that
surviving entries lead to, in the order in which they are first led to.  A node's index is its place in
the table.  Each name stands for one node: an entry that leads to a known name has to agree with its
kind.  Leaves are placed by the location table, states not at all.
-/

namespace AreaAtlas

/-- A node of the table.  Only anchors have targets, the indices of the nodes they lead to. -/
structure Node where
  kind : NodeKind
  identifier : String
  index : Int
  position : Option Position
  targets : List Int
deriving DecidableEq

/-- What is read from the documents. -/
structure Logic where
  declarations : List Areas.Declaration
  locations : List Location
  states : List String
  nodes : List Node

namespace NodeTable

/-- A node whose targets are not known yet. -/
structure Member where
  kind : NodeKind
  identifier : String
  position : Option Position
deriving DecidableEq

/-- What leaves are looked up in: the locations, and the states if they have to be known. -/
structure Register where
  locations : List Location
  states : Option (List String)

/-- Find a member by its name, with its index. -/
def find? (members : List Member) (identifier : String) : Option (Nat × Member) :=
  (members.findIdx? (·.identifier == identifier)).bind fun i => members[i]?.map (i, ·)

/-- The member that an entry leads to for the first time. -/
def newMember (register : Register) (e : Areas.Entry) : Except Cause Member :=
  match e.kind with
  | .anchor => .error (.unknownAnchor e.target)
  | .state =>
    if register.states.all (e.target ∈ ·) then .ok ⟨.state, e.target, none⟩
    else .error (.unknownState e.target)
  | kind =>
    match register.locations.find? (·.identifier == e.target) with
    | some location => .ok ⟨kind, e.target, location.mapPosition⟩
    | none => .error (.unknownLocation e.target)

/-- Find the target of an entry among the members, or add it behind them. -/
def resolve (register : Register) (members : List Member) (e : Areas.Entry) :
    Except DocumentFault (List Member × Nat) :=
  match find? members e.target with
  | some (i, member) =>
    if member.kind = e.kind then .ok (members, i)
    else if e.kind = .anchor then .error (.inAreas e.line (.unknownAnchor e.target))
    else .error (.inAreas e.line (.conflictingKinds e.target member.kind e.kind))
  | none => do
    let member ← (newMember register e).mapError (DocumentFault.inAreas e.line)
    return (members ++ [member], members.length)

/-- Resolve entries in order. -/
def resolveAll (register : Register) (members : List Member) :
    List Areas.Entry → Except DocumentFault (List Member × List Nat)
  | [] => .ok (members, [])
  | e :: rest => do
    let (members, target) ← resolve register members e
    let (members, targets) ← resolveAll register members rest
    return (members, target :: targets)

/-- Resolve the surviving entries of declarations in order: the members, and the targets of each
declaration. -/
def link (register : Register) (setting : Difficulty) (members : List Member) :
    List Areas.Declaration → Except DocumentFault (List Member × List (List Nat))
  | [] => .ok (members, [])
  | d :: rest => do
    let (members, targets) ←
      resolveAll register members (d.entries.filter (·.isPermitted setting))
    let (members, others) ← link register setting members rest
    return (members, targets :: others)

/-- The first declaration whose name has been declared before. -/
def repeated? (known : List String) : List Areas.Declaration → Option Areas.Declaration
  | [] => none
  | d :: rest => if d.name ∈ known then some d else repeated? (d.name :: known) rest

/-- The member that a declaration makes. -/
def anchor (d : Areas.Declaration) : Member :=
  ⟨.anchor, d.name, d.position⟩

/-- Number the members, and give the first ones their targets. -/
def number (members : List Member) (targets : List (List Nat)) : List Node :=
  members.mapIdx fun i member =>
    ⟨member.kind, member.identifier, i, member.position, (targets[i]?.getD []).map Int.ofNat⟩

/-- The node table of declarations. -/
def build (register : Register) (setting : Difficulty) (declarations : List Areas.Declaration) :
    Except DocumentFault (List Node) := do
  if let some d := repeated? [] declarations then throw (.inAreas d.line (.repeatedAnchor d.name))
  let (members, targets) ← link register setting (declarations.map anchor) declarations
  return number members targets

end NodeTable

/-- Read documents.  The tables are looked at first, then the areas text, then the names in it.  With
`validate`, states have to be known to the state table. -/
def Logic.read (areas locations states : String) (setting : Difficulty) (validate : Bool) :
    Except Fault Logic := do
  let locations ← readLocations locations.toList
  let states ← readStates states.toList
  let declarations ← (Areas.readDeclarations areas.toList).mapError Fault.document
  let register := ⟨locations, if validate then some states else none⟩
  let nodes ← (NodeTable.build register setting declarations).mapError Fault.document
  return ⟨declarations, locations, states, nodes⟩

end AreaAtlas

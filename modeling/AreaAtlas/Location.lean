import AreaAtlas.Fault
import AreaAtlas.Table.Row

/-!
# The location table and the state table

A row of the location table names a location, its zone, its place in the world and its place on the
map.  Either place may be left out, by leaving both its coordinates blank.  A row of column titles is
allowed anywhere.  The state table is read for the first cell of each row only.
-/

namespace AreaAtlas

/-- A row of the location table. -/
structure Location where
  identifier : String
  zone : String
  position : Option Position
  mapPosition : Option Position
deriving DecidableEq

namespace Location

/-- The titles of the columns. -/
def columns : List String := ["identifier", "zone", "x", "y", "map_x", "map_y"]

/-- The place that two cells give, if they are not both blank. -/
def readPosition (x y : List Char) : Except Cause (Option Position) :=
  match x, y with
  | [], [] => .ok none
  | [], _ | _, [] => .error .unpairedCoordinates
  | _, _ =>
    match Binary64.read? x, Binary64.read? y with
    | some x, some y => .ok (some ⟨x, y⟩)
    | _, _ => .error (.invalidCoordinates (.ofList x) (.ofList y))

/-- Read a row, some locations being known.  The number of cells is looked at first, then the
identifier, then the two places. -/
def ofRow (known : List String) : List (List Char) → Except Cause Location
  | [identifier, zone, x, y, mapX, mapY] => do
    if String.ofList identifier ∈ known then throw (.repeatedLocation (.ofList identifier))
    return ⟨.ofList identifier, .ofList zone, ← readPosition x y, ← readPosition mapX mapY⟩
  | cells => .error (.columnCount columns.length cells.length)

/-- Read rows in order; `known` are the identifiers of the rows before. -/
def ofRows (known : List String) : List Table.Record → Except DocumentFault (List Location)
  | [] => .ok []
  | row :: rest =>
    if row.cells = columns.map String.toList then ofRows known rest
    else do
      let location ← (ofRow known row.cells).mapError (DocumentFault.inLocations row.line)
      return location :: (← ofRows (location.identifier :: known) rest)

end Location

/-- The locations of a location table, in its order.  A faulty row comes before a fault of the table
behind it. -/
def readLocations (text : List Char) : Except Fault (List Location) := do
  let rows := Table.rows text
  let locations ← (Location.ofRows [] rows.records).mapError Fault.document
  match rows.fault with
  | some fault => throw (.table fault)
  | none => return locations

/-- The states of a state table, each once, in the order of their code points. -/
def readStates (text : List Char) : Except Fault (List String) :=
  let rows := Table.rows text
  match rows.fault with
  | some fault => .error (.table fault)
  | none =>
    .ok ((rows.records.filterMap fun row => row.cells.head?.map String.ofList).mergeSort
      (fun a b => decide (a ≤ b))).eraseDups

end AreaAtlas

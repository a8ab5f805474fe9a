import AreaAtlas.Number.Text

/-!
# Positions and kinds of node
-/

namespace AreaAtlas

/-- A place on the map. -/
structure Position where
  x : Binary64
  y : Binary64
deriving DecidableEq

/-- Both coordinates rounded to single precision. -/
def Position.toSingle (p : Position) : Position :=
  ⟨p.x.toSingle, p.y.toSingle⟩

/-- What a node is: an anchor, which has connections, or a leaf, which an anchor leads to. -/
inductive NodeKind where
  | anchor
  | pickup
  | quest
  | state
deriving DecidableEq, Repr

namespace NodeKind

/-- All kinds. -/
def all : List NodeKind := [.anchor, .pickup, .quest, .state]

/-- The name of a kind. -/
def name : NodeKind → String
  | .anchor => "anchor"
  | .pickup => "pickup"
  | .quest => "quest"
  | .state => "state"

/-- The keyword of an entry that leads to a node of this kind. -/
def keyword : NodeKind → String
  | .anchor => "conn"
  | kind => kind.name

/-- The kind of node that an entry with this keyword leads to. -/
def ofKeyword? (keyword : String) : Option NodeKind :=
  all.find? fun kind => kind.keyword == keyword

theorem ofKeyword?_keyword (kind : NodeKind) : ofKeyword? kind.keyword = some kind := by
  cases kind <;> rfl

end NodeKind

end AreaAtlas

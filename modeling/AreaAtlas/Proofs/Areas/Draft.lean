import AreaAtlas.Proofs.Areas.Form
import AreaAtlas.Proofs.Areas.Writing

/-!
# Drafts of areas texts

A draft is what an areas text is about, apart from the layout: anchors with their entries, and the
alternatives of each.  Its parts carry what makes them fit to be written, so every draft can be.
`render` writes a draft, and `declarations` is what ought to be read from it.
-/

namespace AreaAtlas.Areas.Draft

/-- A name: characters of words, and points. -/
structure Name where
  chars : List Char
  isName : IsRun isNameChar chars

/-- The literal of a coordinate. -/
structure Literal where
  chars : List Char
  isNumeral : IsNumeral chars

/-- The number that a literal stands for. -/
def Literal.value (l : Literal) : Binary64 :=
  (Binary64.read? l.chars).get l.isNumeral.isSome_read?

/-- An alternative of an entry's requirements. -/
structure Alternative where
  chars : List Char
  isContent : IsContent chars

/-- Requirements, of which there is one at least.  One alone may stand behind the colon of its entry;
otherwise each has a line of its own. -/
inductive Requirements where
  | inline (alternative : Alternative)
  | block (first : Alternative) (rest : List Alternative)

namespace Requirements

/-- The alternatives in their order. -/
def alternatives : Requirements → List Alternative
  | inline a => [a]
  | block first rest => first :: rest

/-- What stands behind the colon. -/
def behindColon : Requirements → List Char
  | inline a => ' ' :: a.chars
  | block _ _ => []

/-- The alternatives that have lines of their own. -/
def onLines : Requirements → List Alternative
  | inline _ => []
  | block first rest => first :: rest

end Requirements

/-- An entry. -/
structure Entry where
  kind : NodeKind
  target : Name
  requirements : Requirements

/-- An anchor with a place, if it has one, and entries, of which there is one at least. -/
structure Anchor where
  name : Name
  place : Option (Literal × Literal)
  entries : List Entry
  entries_ne_nil : entries ≠ []

/-! ## Writing -/

/-- The line of an entry, without its indentation. -/
def Entry.text (e : Entry) : List Char :=
  e.kind.keyword.toList ++ [' '] ++ e.target.chars ++ [':'] ++ e.requirements.behindColon

/-- The lines of an entry, at these two indentations. -/
def Entry.lines (i j : Nat) (e : Entry) : List (List Char) :=
  (List.replicate i ' ' ++ e.text) :: e.requirements.onLines.map fun a => List.replicate j ' ' ++ a.chars

/-- The place in a header, if there is one. -/
def placeText : Option (Literal × Literal) → List Char
  | none => []
  | some (x, y) => " at ".toList ++ x.chars ++ ", ".toList ++ y.chars

theorem placeText_none : placeText none = [] := rfl

theorem placeText_some (x y : Literal) :
    placeText (some (x, y)) = " at ".toList ++ x.chars ++ ", ".toList ++ y.chars := rfl

/-- The header of an anchor. -/
def Anchor.text (a : Anchor) : List Char :=
  "anchor ".toList ++ a.name.chars ++ placeText a.place ++ [':']

/-- The lines of an anchor, its entries and their alternatives at these two indentations. -/
def Anchor.lines (i j : Nat) (a : Anchor) : List (List Char) :=
  a.text :: a.entries.flatMap (Entry.lines i j)

/-- The text of anchors, every line of it ended by a line feed. -/
def render (i j : Nat) (as : List Anchor) : List Char :=
  (as.flatMap (Anchor.lines i j)).flatMap (· ++ ['\n'])

/-! ## What ought to be read -/

/-- Make something of each element of a list and its number, where elements take up several numbers. -/
def numbered {α β : Type} (height : α → Nat) (make : Nat → α → β) (number : Nat) : List α → List β
  | [] => []
  | a :: rest => make number a :: numbered height make (number + height a) rest

/-- How many numbers elements take up together. -/
def total {α : Type} (height : α → Nat) : List α → Nat
  | [] => 0
  | a :: rest => height a + total height rest

/-- The number of lines of an entry. -/
def Entry.height (e : Entry) : Nat :=
  e.requirements.onLines.length + 1

/-- The number of lines of an anchor. -/
def Anchor.height (a : Anchor) : Nat :=
  total Entry.height a.entries + 1

/-- The entry on the line of this number. -/
def Entry.read (number : Nat) (e : Entry) : Areas.Entry :=
  ⟨e.kind, .ofList e.target.chars, number, e.requirements.alternatives.map (·.chars)⟩

/-- The anchor that is declared on the line of this number. -/
def Anchor.declaration (number : Nat) (a : Anchor) : Declaration :=
  ⟨.ofList a.name.chars, a.place.map fun (x, y) => ⟨x.value, y.value⟩, number,
    numbered Entry.height Entry.read (number + 1) a.entries⟩

/-- The anchors of a draft, the first of which is declared on the first line. -/
def declarations (as : List Anchor) : List Declaration :=
  numbered Anchor.height Anchor.declaration 1 as

end AreaAtlas.Areas.Draft

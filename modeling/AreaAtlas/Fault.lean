import AreaAtlas.Node
import AreaAtlas.Table.Row

/-!
# Faults of the input

A fault of a document names the document, the line and the cause.  The wording of a cause is given
once, here.  A table that cannot be taken apart into records has a fault of another kind: it has no
line, and a caller that reports faults of documents does not report it.
-/

namespace AreaAtlas

/-- A document that a node table is read from. -/
inductive Document where
  | areas
  | locations
deriving DecidableEq, Repr

/-- The name of a document in messages. -/
def Document.name : Document → String
  | .areas => "areas"
  | .locations => "locations"

/-- What is wrong with a line of a document. -/
inductive Cause where
  /-- White space other than a space follows the indentation. -/
  | indentationNotSpaces
  /-- The text begins with an indented line. -/
  | unexpectedIndentation
  | unknownDeclaration (word : String)
  /-- A requirement or region does not end in a colon. -/
  | openDeclaration (word : String)
  | malformedAnchor
  | emptyAnchor (name : String)
  /-- An entry is indented less than the first entry of its anchor. -/
  | inconsistentIndentation
  | malformedEntry (text : String)
  | unknownEntry (keyword : String)
  | missingTarget (keyword : String)
  | missingColon (keyword target : String)
  /-- An entry with its requirements on its own line is followed by deeper lines. -/
  | indentedAfterInline
  | missingRequirements (keyword target : String)
  | repeatedAnchor (name : String)
  | unknownAnchor (name : String)
  | conflictingKinds (name : String) (first second : NodeKind)
  | unknownState (name : String)
  | unknownLocation (name : String)
  | columnCount (expected found : Nat)
  | repeatedLocation (identifier : String)
  | unpairedCoordinates
  | invalidCoordinates (x y : String)
deriving DecidableEq, Repr

/-- The wording of a cause. -/
def Cause.message : Cause → String
  | .indentationNotSpaces => "indentation must use spaces"
  | .unexpectedIndentation => "unexpected indentation"
  | .unknownDeclaration word => "unknown declaration '" ++ word ++ "'"
  | .openDeclaration word => "expected ':' after " ++ word ++ " declaration"
  | .malformedAnchor => "malformed anchor declaration, expected 'anchor <name> [at <x>, <y>]:'"
  | .emptyAnchor name => "anchor " ++ name ++ " has no body"
  | .inconsistentIndentation => "inconsistent indentation"
  | .malformedEntry text => "malformed entry '" ++ text ++ "'"
  | .unknownEntry keyword => "unknown entry '" ++ keyword ++ "'"
  | .missingTarget keyword => keyword ++ " is missing its target"
  | .missingColon keyword target => "expected ':' after " ++ keyword ++ " " ++ target
  | .indentedAfterInline => "unexpected indentation after inline requirements"
  | .missingRequirements keyword target => keyword ++ " " ++ target ++ " is missing its requirements"
  | .repeatedAnchor name => "anchor " ++ name ++ " is declared twice"
  | .unknownAnchor name => "connection to unknown anchor " ++ name
  | .conflictingKinds name first second =>
    name ++ " is used as both " ++ first.name ++ " and " ++ second.name
  | .unknownState name => "unknown state " ++ name
  | .unknownLocation name => "unknown location " ++ name
  | .columnCount expected found =>
    "expected " ++ toString expected ++ " columns, found " ++ toString found
  | .repeatedLocation identifier => "duplicate location " ++ identifier
  | .unpairedCoordinates => "coordinates must be given in pairs"
  | .invalidCoordinates x y => "invalid coordinates '" ++ x ++ ", " ++ y ++ "'"

/-- A fault of a document: the line it is on, counted from one, and the cause. -/
structure DocumentFault where
  document : Document
  line : Nat
  cause : Cause
deriving DecidableEq, Repr

/-- The wording of a fault, with the place in front. -/
def DocumentFault.message (fault : DocumentFault) : String :=
  fault.document.name ++ " line " ++ toString fault.line ++ ": " ++ fault.cause.message

/-- Why documents give no node table. -/
inductive Fault where
  /-- A document has a fault. -/
  | document (fault : DocumentFault)
  /-- A table cannot be taken apart into records. -/
  | table (fault : Table.Fault)
deriving DecidableEq, Repr

/-- The wording of a fault. -/
def Fault.message : Fault → String
  | .document fault => fault.message
  | .table fault => fault.message

/-- The fault of a line of an areas text. -/
def DocumentFault.inAreas (line : Nat) (cause : Cause) : DocumentFault :=
  ⟨.areas, line, cause⟩

/-- The fault of a record of a location table. -/
def DocumentFault.inLocations (line : Nat) (cause : Cause) : DocumentFault :=
  ⟨.locations, line, cause⟩

end AreaAtlas

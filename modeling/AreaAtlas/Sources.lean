import AreaAtlas.Files.Store
import AreaAtlas.Text.Utf8

/-!
# The source texts

The two texts that a graph is built from are read from files.  A file has to be there, has to be
readable and has to be UTF-8; a mark in front is dropped, and nothing else of the text is changed.
-/

namespace AreaAtlas

/-- The texts of an areas file and a location file. -/
structure Sources where
  areas : String
  locations : String
  areasPath : String
  locationsPath : String
deriving DecidableEq, Repr

namespace Sources

/-- Why a file gives no text. -/
inductive Fault where
  | notFound (path : String)
  | unreadable (path : String) (fault : Files.Fault)
  | undecodable (path : String) (fault : Utf8.Fault)
deriving DecidableEq, Repr

/-- The wording of a fault. -/
def Fault.message : Fault → String
  | .notFound path => "Logic file not found: " ++ path
  | .unreadable path fault => "Failed to read " ++ path ++ ": " ++ fault.message
  | .undecodable path fault => "Failed to decode " ++ path ++ ": " ++ fault.message

/-- The text of a file. -/
def readText (store : Files.Store) (path : String) : Except Fault String :=
  match store.resolve path with
  | .found _ (.file bytes) => (Utf8.decode (Utf8.dropMark bytes)).mapError (.undecodable path)
  | .found _ .directory => .error (.unreadable path (.refused .isADirectory path))
  | _ => .error (.notFound path)

/-- Read both texts, the areas first. -/
def load (store : Files.Store) (areasPath locationsPath : String) : Except Fault Sources := do
  let areas ← readText store areasPath
  let locations ← readText store locationsPath
  return ⟨areas, locations, areasPath, locationsPath⟩

end Sources

end AreaAtlas

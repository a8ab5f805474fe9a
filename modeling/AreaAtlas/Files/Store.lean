import AreaAtlas.Text.Quoted

/-!
# A store of files

A store holds files and directories under their places.  A place is a list of names from the working
directory on; what is above the working directory or under the root has a place that begins with `..`
or `/`.  Of those the directories above, the root and the usual directories in it are always there, and
so is the null device, which takes everything and holds nothing.

A path is read as names between slashes.  Empty names and `.` say nothing and `..` leads to the
directory above, so it is kept: whether the name in front of it is a directory can only be told from
the files.  A path is followed name by name, and every name that is passed has to be a directory.
Following a path has one of five ends, and each operation on files decides by them alone.
-/

namespace AreaAtlas.Path

/-! ## Paths -/

/-- The names of a path, empty ones left out. -/
def names (path : String) : List String :=
  ((path.splitOn "/").filter (· ≠ ""))

/-- Whether a path begins at the root. -/
def isAbsolute (path : String) : Bool :=
  path.toList.head? == some '/'

/-- Whether a path ends in a slash. -/
def endsInSlash (path : String) : Bool :=
  path.toList.getLast? == some '/'

/-- The names of a path that lead somewhere. -/
def steps (path : String) : List String :=
  (names path).filter (· ≠ ".")

/-- What a path begins with: nothing, or the root.  Exactly two slashes are kept as they are, since
they may name another root. -/
def root (path : String) : String :=
  let slashes := (path.toList.takeWhile (· = '/')).length
  if slashes = 0 then "" else if slashes = 2 then "//" else "/"

/-- The text of a path from its root and its steps. -/
def ofSteps (root : String) (steps : List String) : String :=
  let text := root ++ "/".intercalate steps
  if text.isEmpty then "." else text

/-- A path without what says nothing. -/
def normalize (path : String) : String :=
  ofSteps (root path) (steps path)

end AreaAtlas.Path

namespace AreaAtlas.Files

/-! ## Stores -/

/-- A place in a store. -/
abbrev Location := List String

/-- What is at a place. -/
inductive Item where
  | file (bytes : List UInt8)
  | directory
deriving DecidableEq, Repr

/-- A store.  Of several items at a place the first one counts. -/
structure Store where
  items : List (Location × Item)
deriving DecidableEq, Repr

/-- Why an operation on a file is refused. -/
inductive Refusal where
  | noSuchFile
  | fileExists
  | notADirectory
  | isADirectory
  | nameTooLong
deriving DecidableEq, Repr

/-- The number of a refusal. -/
def Refusal.number : Refusal → Nat
  | .noSuchFile => 2
  | .fileExists => 17
  | .notADirectory => 20
  | .isADirectory => 21
  | .nameTooLong => 36

/-- The wording of a refusal. -/
def Refusal.description : Refusal → String
  | .noSuchFile => "No such file or directory"
  | .fileExists => "File exists"
  | .notADirectory => "Not a directory"
  | .isADirectory => "Is a directory"
  | .nameTooLong => "File name too long"

/-- A fault of an operation on a file. -/
inductive Fault where
  /-- The operation is refused for this path. -/
  | refused (refusal : Refusal) (path : String)
  /-- The path holds the character that ends a path. -/
  | nulInPath
deriving DecidableEq, Repr

/-- The wording of a fault. -/
def Fault.message : Fault → String
  | .refused refusal path =>
    "[Errno " ++ toString refusal.number ++ "] " ++ refusal.description ++ ": " ++ quoted path
  | .nulInPath => "embedded null byte"

/-- Where following a path ends. -/
inductive Target where
  /-- At an item. -/
  | found (place : Location) (item : Item)
  /-- At a place without an item in a directory. -/
  | free (place : Location)
  /-- Before its last name: a name on the way is missing. -/
  | missing
  /-- Before its last name: a name on the way is a file. -/
  | blocked
  /-- At a name that is too long for any item. -/
  | tooLong
deriving DecidableEq, Repr

namespace Location

/-- Whether a place is that of the working directory, of a directory above it, or of the root. -/
def isTop (place : Location) : Bool :=
  place == ["/"] || place.all (· == "..")

/-- The place of the directory above. -/
def above (place : Location) : Location :=
  if place = ["/"] then place
  else if place.all (· == "..") then ".." :: place
  else place.dropLast

/-- The place that a name leads to from a directory. -/
def step (place : Location) (name : String) : Location :=
  if name = ".." then place.above else place ++ [name]

/-- Whether a place is in the working directory or below. -/
def isInside (place : Location) : Bool :=
  match place with
  | [] => true
  | name :: _ => name != ".." && name != "/"

/-- The path of a place. -/
def path (place : Location) : String :=
  match place with
  | "/" :: names => "/" ++ "/".intercalate names
  | names => "/".intercalate names

/-- Where a place comes to be when another one is moved with all that is below it. -/
def moved (place source target : Location) : Location :=
  match source.isPrefixOf? place with
  | some below => target ++ below
  | none => place

end Location

namespace Store

/-- The null device. -/
def nullDevice : Location := ["/", "dev", "null"]

/-- The usual directories in the root. -/
def usualDirectories : List String := ["bin", "dev", "etc", "home", "lib", "root", "tmp", "usr", "var"]

/-- What is at a place in every store. -/
def standing? (place : Location) : Option Item :=
  if place.isTop then some .directory
  else if place = nullDevice then some (.file [])
  else
    match place with
    | ["/", name] => if usualDirectories.contains name then some .directory else none
    | _ => none

/-- What is at a place. -/
def item? (store : Store) (place : Location) : Option Item :=
  (standing? place).or ((store.items.find? (·.1 == place)).map (·.2))

/-- The greatest length of a name in bytes. -/
def maxNameLength : Nat := 255

/-- The greatest length of a path in bytes. -/
def maxPathLength : Nat := 4095

/-- Follow names from a place. -/
def follow (store : Store) (place : Location) : List String → Target
  | [] =>
    match store.item? place with
    | some item => .found place item
    | none => .missing
  | name :: rest =>
    match store.item? place with
    | some .directory =>
      if name = "." then follow store place rest
      else if name = ".." then follow store place.above rest
      else if maxNameLength < name.utf8ByteSize then .tooLong
      else
        let next := place ++ [name]
        if (store.item? next).isSome then follow store next rest
        else if rest.isEmpty then .free next
        else .missing
    | some (.file _) => .blocked
    | none => .missing

/-- The place that a path is followed from. -/
def origin (path : String) : Location :=
  if Path.isAbsolute path then ["/"] else []

/-- Where a path leads.  One that ends in a slash leads to a directory. -/
def resolve (store : Store) (path : String) : Target :=
  if path.isEmpty || path.contains '\x00' || maxPathLength < path.utf8ByteSize then .missing
  else
    store.follow (origin path) (Path.names path ++ if Path.endsInSlash path then ["."] else [])

/-- Put an item at a place. -/
def set (store : Store) (place : Location) (item : Item) : Store :=
  ⟨(place, item) :: store.items.filter (·.1 ≠ place)⟩

/-- Take away what is at a place. -/
def remove (store : Store) (place : Location) : Store :=
  ⟨store.items.filter (·.1 ≠ place)⟩

/-- Move what is at a place, with all that is below it, to a place where there is nothing. -/
def move (store : Store) (source target : Location) : Store :=
  ⟨store.items.map fun (place, item) => (place.moved source target, item)⟩

/-- Whether a place is too long for a path. -/
def isTooLong (place : Location) : Bool :=
  maxPathLength < place.path.utf8ByteSize || place.any fun name => maxNameLength < name.utf8ByteSize

/-- Move what is at a place, if anything is, to another place, over the file there.  Nothing is moved over a
directory. -/
def moveOver (store : Store) (source target : Location) : Option Store :=
  if (store.item? source).isNone then some store
  else if isTooLong target || store.item? target == some .directory then none
  else some ((store.remove target).move source target)

/-- Open a file to add to it: where there is nothing, it is empty. -/
def openFile (store : Store) (place : Location) : Store :=
  if (store.item? place).isSome then store else store.set place (.file [])

/-- Add bytes to the end of a file, if there is one. -/
def append (store : Store) (place : Location) (bytes : List UInt8) : Store :=
  match store.item? place with
  | some (.file before) => store.set place (.file (before ++ bytes))
  | _ => store

/-- Put a directory at a place where there is nothing. -/
def addDirectory (store : Store) (place : Location) : Store :=
  if (store.item? place).isSome then store else store.set place .directory

/-- Put an item at the end of steps from a place, and directories on the way where there is nothing. -/
def placeFrom (store : Store) (place : Location) (item : Item) : List String → Store
  | [] => store.set place item
  | name :: rest => (store.addDirectory place).placeFrom (place.step name) item rest

/-- Put an item at the end of a path, and directories on the way where there is nothing. -/
def place (store : Store) (path : String) (item : Item) : Store :=
  store.placeFrom (origin path) item (Path.steps path)

/-- Why nothing can be written to a path that ends in a slash, given where the names in front of the last
one lead.  Its last name is that of a directory, and is not looked at. -/
def directoryRefusal : Target → Refusal
  | .found _ .directory => .isADirectory
  | .found _ (.file _) | .blocked => .notADirectory
  | .free _ | .missing => .noSuchFile
  | .tooLong => .nameTooLong

/-- The place that a file may be written at, over what it held. -/
def writable (store : Store) (path : String) : Except Fault Location :=
  if path.contains '\x00' then .error .nulInPath
  else if path.isEmpty then .error (.refused .noSuchFile path)
  else if maxPathLength < path.utf8ByteSize then .error (.refused .nameTooLong path)
  else if Path.endsInSlash path then
    let refusal := directoryRefusal (store.follow (origin path) (Path.names path).dropLast)
    .error (.refused refusal path)
  else
    match store.follow (origin path) (Path.names path) with
    | .found place (.file _) | .free place => .ok place
    | .found _ .directory => .error (.refused .isADirectory path)
    | .missing => .error (.refused .noSuchFile path)
    | .blocked => .error (.refused .notADirectory path)
    | .tooLong => .error (.refused .nameTooLong path)

/-- Make a directory where following a path ends.  One that is there already stays. -/
def enterDirectory (store : Store) : Target → Except Refusal Store
  | .found _ .directory => .ok store
  | .found _ (.file _) => .error .fileExists
  | .free place => .ok (store.set place .directory)
  | .missing => .error .noSuchFile
  | .blocked => .error .notADirectory
  | .tooLong => .error .nameTooLong

/-- Make the directory at the end of these steps, given backwards, and those above it if one of them is
missing.  Those that are made before a fault stay. -/
def makeDirectory (store : Store) (root : String) (start : Location) :
    List String → Store × Option Fault
  | [] => (store, none)
  | name :: before =>
    let steps := (name :: before).reverse
    let path := Path.ofSteps root steps
    if path.contains '\x00' then (store, some .nulInPath)
    else if maxPathLength < path.utf8ByteSize then (store, some (.refused .nameTooLong path))
    else
      match store.enterDirectory (store.follow start steps) with
      | .ok store => (store, none)
      | .error .noSuchFile =>
        match store.makeDirectory root start before with
        | (store, some fault) => (store, some fault)
        | (store, none) =>
          match store.enterDirectory (store.follow start steps) with
          | .ok store => (store, none)
          | .error refusal => (store, some (.refused refusal path))
      | .error refusal => (store, some (.refused refusal path))

/-- The files of the working directory and below that another store has not, or has with other bytes. -/
def changedFrom (store before : Store) : List (Location × List UInt8) :=
  store.items.filterMap fun (place, item) =>
    match item with
    | .directory => none
    | .file bytes =>
      if place.isInside && before.item? place != some item then some (place, bytes) else none

end Store

end AreaAtlas.Files

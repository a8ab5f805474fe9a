/-!
# Options of the command

The command takes two paths and options.  An option is known by one or two names, and it takes a fixed
number of values or at least one.
-/

namespace AreaAtlas.Options

/-- The options. -/
inductive Key where
  | help
  | exportFile
  | json
  | locate
  | locateConnection
  | inverse
  | highlight
  | noConnections
  | noLeaves
  | showLabels
  | title
  | verbose
deriving DecidableEq, Repr

/-- How many values an option takes. -/
inductive Arity where
  | none
  | one
  | two
  | some
deriving DecidableEq, Repr

namespace Key

/-- All options, in the order in which they are looked through. -/
def all : List Key :=
  [.help, .exportFile, .json, .locate, .locateConnection, .inverse, .highlight, .noConnections,
    .noLeaves, .showLabels, .title, .verbose]

/-- The names of an option. -/
def names : Key → List String
  | .help => ["-h", "--help"]
  | .exportFile => ["--export"]
  | .json => ["--json"]
  | .locate => ["--locate"]
  | .locateConnection => ["--locate-connection"]
  | .inverse => ["--inverse"]
  | .highlight => ["--highlight"]
  | .noConnections => ["--no-connections"]
  | .noLeaves => ["--no-leaves"]
  | .showLabels => ["--show-labels"]
  | .title => ["--title"]
  | .verbose => ["-v", "--verbose"]

/-- How many values an option takes. -/
def arity : Key → Arity
  | .exportFile | .json | .locate | .title => .one
  | .locateConnection => .two
  | .highlight => .some
  | _ => .none

/-- The names of an option as they stand in messages. -/
def label (key : Key) : String :=
  "/".intercalate key.names

end Key

/-- All names of options with the option of each. -/
def allNames : List (String × Key) :=
  Key.all.flatMap fun key => key.names.map (·, key)

/-- The option of this name. -/
def ofName? (name : String) : Option Key :=
  (allNames.find? (·.1 == name)).map (·.2)

/-- Why the arguments do not tell what to do. -/
inductive Fault where
  | ambiguous (argument : String) (names : List String)
  | valueCount (key : Key)
  | unwantedValue (key : Key) (value : String)
  | unrecognized (arguments : List String)
  | missingPaths
deriving DecidableEq, Repr

/-- The wording of a number of values. -/
def Arity.description : Arity → String
  | .none => "expected 0 arguments"
  | .one => "expected one argument"
  | .two => "expected 2 arguments"
  | .some => "expected at least one argument"

end AreaAtlas.Options

import AreaAtlas.Keyed
import AreaAtlas.Options.Token
import AreaAtlas.Text.Quoted

/-!
# The arguments of the command

Tokens are taken from the front.  The first values that do not belong to an option are the two paths,
and both are taken at once: a second run of values is left over.  What is left over is reported when
all options have been taken.  Asking for help ends everything there and then.
-/

namespace AreaAtlas.Options

/-- What the arguments ask for.  An empty text stands for nothing. -/
structure Arguments where
  areas : String := ""
  locations : String := ""
  exportFile : String := ""
  json : String := ""
  locate : String := ""
  locateConnection : Option (String × String) := none
  inverse : Bool := false
  highlight : List String := []
  noConnections : Bool := false
  noLeaves : Bool := false
  showLabels : Bool := false
  title : String := ""
  verbose : Bool := false
deriving DecidableEq, Repr

/-- Why nothing is done. -/
inductive Stop where
  /-- Help is asked for. -/
  | help
  | fault (fault : Fault)
deriving DecidableEq, Repr

/-- The wording of a fault. -/
def Fault.message : Fault → String
  | .ambiguous argument names =>
    "ambiguous option: " ++ argument ++ " could match " ++ ", ".intercalate names
  | .valueCount key => "argument " ++ key.label ++ ": " ++ key.arity.description
  | .unwantedValue key value =>
    "argument " ++ key.label ++ ": ignored explicit argument " ++ quoted value
  | .unrecognized arguments => "unrecognized arguments: " ++ " ".intercalate arguments
  | .missingPaths =>
    "areas and locations paths are required (or set LOGIC_MAP_AREAS and LOGIC_MAP_LOCATIONS)"

/-- Note an option with its values. -/
def Arguments.set (a : Arguments) (key : Key) (values : List String) : Except Stop Arguments :=
  let first := values.headD ""
  match key with
  | .help => .error .help
  | .exportFile => .ok { a with exportFile := first }
  | .json => .ok { a with json := first }
  | .locate => .ok { a with locate := first }
  | .locateConnection => .ok { a with locateConnection := some (first, values[1]?.getD "") }
  | .inverse => .ok { a with inverse := true }
  | .highlight => .ok { a with highlight := values }
  | .noConnections => .ok { a with noConnections := true }
  | .noLeaves => .ok { a with noLeaves := true }
  | .showLabels => .ok { a with showLabels := true }
  | .title => .ok { a with title := first }
  | .verbose => .ok { a with verbose := true }

/-- The values that follow at once, up to an option or the two dashes. -/
def leadingValues : List Token → List String
  | .value text :: rest => text :: leadingValues rest
  | _ => []

/-- The values that an option takes of those that follow it. -/
def takeValues (key : Key) (rest : List Token) : Except Stop (List String) :=
  let values := leadingValues rest
  let fault : Except Stop (List String) := .error (.fault (.valueCount key))
  match key.arity with
  | .none => .ok []
  | .one => if values.length < 1 then fault else .ok (values.take 1)
  | .two => if values.length < 2 then fault else .ok (values.take 2)
  | .some => if values.length < 1 then fault else .ok values

/-- The options that an option with attached text stands for, with the values of each, and how many of
the values that follow they take.  Text attached to a one-letter option without values is read as
further letters, the last of which takes what follows. -/
def expand (short : Bool) (rest : List Token) (key : Key) :
    List Char → Except Stop (List (Key × List String) × Nat)
  | [] =>
    match key.arity with
    | .one | .some => .ok ([(key, [""])], 0)
    | .two => .error (.fault (.valueCount key))
    | .none => .error (.fault (.unwantedValue key ""))
  | letter :: others =>
    let value := String.ofList (letter :: others)
    match key.arity with
    | .one | .some => .ok ([(key, if value = "--" then [] else [value])], 0)
    | .two => .error (.fault (.valueCount key))
    | .none =>
      match if short then ofName? (.ofList ['-', letter]) else none with
      | none => .error (.fault (.unwantedValue key value))
      | some next =>
        if others.isEmpty then
          (takeValues next rest).map fun values => ([(key, []), (next, values)], values.length)
        else
          (expand short rest next others).map fun (settings, count) =>
            ((key, []) :: settings, count)

/-- Whether a name is a dash and one letter. -/
def isShort (name : String) : Bool :=
  name.toList[1]? != some '-'

/-- The options that an option token stands for, with the values of each, and how many of the values
that follow they take. -/
def readOption (key : Key) (name : String) (attached : Option String) (rest : List Token) :
    Except Stop (List (Key × List String) × Nat) :=
  match attached with
  | some text => expand (isShort name) rest key text.toList
  | none => (takeValues key rest).map fun values => ([(key, values)], values.length)

/-- Take the values of a path and the dashes around it: `dashes value? dashes`. -/
def takePath (tokens : List Token) : Option String × List Token :=
  let before := tokens.takeWhile (· == .dashes)
  match tokens.dropWhile (· == .dashes) with
  | .value text :: rest =>
    let behind := rest.takeWhile (· == .dashes)
    let texts := before.filterMap Token.valueText? ++ [text] ++ behind.filterMap Token.valueText?
    ((texts.erase "--").head?, rest.dropWhile (· == .dashes))
  | rest => (none, rest)

theorem length_takePath_le (tokens : List Token) : (takePath tokens).2.length ≤ tokens.length := by
  have drop (l : List Token) : (l.dropWhile (· == Token.dashes)).length ≤ l.length :=
    (List.dropWhile_sublist _).length_le
  unfold takePath
  split
  · next text rest h =>
    have front := drop tokens
    have back := drop rest
    rw [h, List.length_cons] at front
    exact Nat.le_trans back (Nat.le_of_succ_le front)
  · exact drop _

/-- Take tokens from the front: `paths` tells whether the paths are still to come, and `left` are the
arguments that are left over, backwards. -/
def takeTokens (a : Arguments) (paths : Bool) (left : List String) (tokens : List Token) :
    Except Stop (Arguments × List String) :=
  match tokens with
  | [] => .ok (a, left.reverse)
  | .option key name attached :: rest => do
    let (settings, count) ← readOption key name attached rest
    let a ← settings.foldlM (fun a (key, values) => a.set key values) a
    takeTokens a paths left (rest.drop count)
  | .unknown text :: rest => takeTokens a paths (text :: left) rest
  | token :: rest =>
    if paths then
      let areas := takePath (token :: rest)
      let locations := takePath areas.2
      let a := { a with areas := areas.1.getD a.areas, locations := locations.1.getD a.locations }
      takeTokens a false left locations.2
    else takeTokens a false (token.valueText?.toList ++ left) rest
termination_by tokens.length + paths.toNat
decreasing_by
  · simp only [List.length_cons, List.length_drop]; omega
  · simp
  · have h₁ := length_takePath_le (token :: rest)
    have h₂ := length_takePath_le (takePath (token :: rest)).2
    simp_all only [Bool.toNat_true, Bool.toNat_false]
    omega
  · simp_all

/-- Read the arguments of the command.  Paths that are not given are taken from the environment. -/
def readArguments (env : Environment) (arguments : List String) : Except Stop Arguments := do
  let tokens ← (readTokens arguments).mapError Stop.fault
  let start : Arguments :=
    { areas := (env.get? "LOGIC_MAP_AREAS").getD ""
      locations := (env.get? "LOGIC_MAP_LOCATIONS").getD "" }
  let (a, left) ← takeTokens start true [] tokens
  if !left.isEmpty then throw (.fault (.unrecognized left))
  if a.areas.isEmpty || a.locations.isEmpty then throw (.fault .missingPaths)
  return a

end AreaAtlas.Options

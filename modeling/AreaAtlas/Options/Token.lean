import AreaAtlas.Options.Grammar
import AreaAtlas.Text.Character

/-!
# Arguments as tokens

Before anything is done, each argument is told to be an option or a value.  An option may be
abbreviated as long as one name begins so, may be followed by an equals sign and its value, and an
option with a single dash may be followed by more letters at once.  Behind `--` there are values only.
-/

namespace AreaAtlas.Options

/-- What an argument is. -/
inductive Token where
  /-- A value. -/
  | value (text : String)
  /-- The two dashes behind which there are values only. -/
  | dashes
  /-- An option by its full name, with what was attached to it. -/
  | option (key : Key) (name : String) (attached : Option String)
  /-- What looks like an option and is none. -/
  | unknown (text : String)
deriving DecidableEq, Repr

namespace Token

/-- The argument that a token came from, where it is a value or the dashes. -/
def valueText? : Token → Option String
  | .value text => some text
  | .dashes => some "--"
  | _ => none

end Token

/-- Take a text apart at the first equals sign. -/
def splitAtEquals? (argument : String) : Option (String × String) :=
  let text := argument.toList
  match text.dropWhile (· ≠ '=') with
  | [] => none
  | _ :: value => some (.ofList (text.takeWhile (· ≠ '=')), .ofList value)

/-- The options that an argument may stand for: those with a name that begins so, or behind a single
dash the option of the first letter, the others being attached. -/
def candidates (argument : String) : List (Key × String × Option String) :=
  match argument.toList with
  | '-' :: '-' :: _ =>
    let (stem, attached) := match splitAtEquals? argument with
      | some (stem, value) => (stem, some value)
      | none => (argument, none)
    (allNames.filter fun (name, _) => stem.toList.isPrefixOf name.toList).map
      fun (name, key) => (key, name, attached)
  | '-' :: letter :: others =>
    allNames.filterMap fun (name, key) =>
      if name.toList = ['-', letter] then some (key, name, some (.ofList others))
      else if argument.toList.isPrefixOf name.toList then some (key, name, none)
      else none
  | _ => []

/-- A text without a line feed at its end. -/
def dropLineFeed (text : List Char) : List Char :=
  if text.getLast? = some '\n' then text.dropLast else text

/-- Whether an argument is a negative number: a minus, digits, and optionally a point before the last
of them.  A line feed may end it. -/
def isNegativeNumber (argument : String) : Bool :=
  match dropLineFeed argument.toList with
  | '-' :: rest =>
    match rest.dropWhile isDecimalDigit with
    | [] => !rest.isEmpty
    | '.' :: places => !places.isEmpty && places.all isDecimalDigit
    | _ => false
  | _ => false

/-- What an argument in front of the two dashes is. -/
def readToken (argument : String) : Except Fault Token :=
  if argument.toList.head? ≠ some '-' then .ok (.value argument)
  else
    match ofName? argument with
    | some key => .ok (.option key argument none)
    | none =>
      if argument = "-" then .ok (.value argument)
      else
        match (splitAtEquals? argument).bind fun (name, value) =>
            (ofName? name).map fun key => Token.option key name (some value) with
        | some token => .ok token
        | none =>
          match candidates argument with
          | [(key, name, attached)] => .ok (.option key name attached)
          | [] =>
            if isNegativeNumber argument || argument.contains ' ' then .ok (.value argument)
            else .ok (.unknown argument)
          | several => .error (.ambiguous argument (several.map (·.2.1)))

/-- What the arguments are. -/
def readTokens : List String → Except Fault (List Token)
  | [] => .ok []
  | argument :: rest =>
    if argument = "--" then .ok (.dashes :: rest.map .value)
    else do return (← readToken argument) :: (← readTokens rest)

end AreaAtlas.Options

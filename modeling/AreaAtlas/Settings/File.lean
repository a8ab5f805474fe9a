import AreaAtlas.Keyed
import AreaAtlas.Log.Record
import AreaAtlas.Settings.Statement
import AreaAtlas.Text.Casing
import AreaAtlas.Text.Utf8

/-!
# Settings files

A settings file is UTF-8.  Its settings are resolved and then added to the environment; each statement
that cannot be read is warned of.  A variable of the environment may turn settings files off; the file
is then not looked at.  A settings file may itself set that variable, for the next time.

A value may refer to variables, as `${name}` or as `${name:-fallback}`.  A reference stands for the value
of the variable, or for the fallback if there is no such variable; a variable that is only named has no
characters.  What is not such a reference, as `${name` without its end, stands for itself.

The settings of a file are resolved in their order: a reference sees the variables that are set already
and the settings before it, and of the two the former first.
-/

namespace AreaAtlas.Settings

/-! ## References in values -/

/-- A reference to a variable. -/
structure Reference where
  name : String
  fallback : String
deriving DecidableEq, Repr

/-- Read a reference behind its `${`. -/
def readReference? (text : List Char) : Option (Reference × List Char) :=
  let name := text.takeWhile fun c => c ≠ '}' ∧ c ≠ ':'
  match text.drop name.length with
  | '}' :: rest => some (⟨.ofList name, ""⟩, rest)
  | ':' :: '-' :: rest =>
    let fallback := rest.takeWhile (· ≠ '}')
    match rest.drop fallback.length with
    | _ :: behind => some (⟨.ofList name, .ofList fallback⟩, behind)
    | [] => none
  | _ => none

theorem length_lt_of_drop_eq {l rest : List Char} {n : Nat} {c : Char} (h : l.drop n = c :: rest) :
    rest.length < l.length := by
  have := congrArg List.length h
  rw [List.length_drop, List.length_cons] at this
  omega

theorem length_lt_of_readReference? {text behind : List Char} {r : Reference}
    (h : readReference? text = some (r, behind)) : behind.length < text.length := by
  simp only [readReference?] at h
  split at h
  · rename_i rest found
    cases h
    exact length_lt_of_drop_eq found
  · rename_i rest found
    split at h
    · rename_i closed
      cases h
      have hrest := length_lt_of_drop_eq found
      have hbehind := length_lt_of_drop_eq closed
      rw [List.length_cons] at hrest
      omega
    · cases h
  · cases h

/-- A part of a value. -/
inductive Part where
  | literal (c : Char)
  | reference (r : Reference)
deriving DecidableEq, Repr

/-- The parts of a value, in order. -/
def parts (text : List Char) : List Part :=
  match text with
  | [] => []
  | '$' :: '{' :: rest =>
    match _read : readReference? rest with
    | some (r, behind) => .reference r :: parts behind
    | none => .literal '$' :: parts ('{' :: rest)
  | c :: rest => .literal c :: parts rest
termination_by text.length
decreasing_by
  · have := length_lt_of_readReference? _read
    simp
    omega
  · simp
  · simp

/-- The reference that a part is, if it is one. -/
def Part.reference? : Part → Option Reference
  | .literal _ => none
  | .reference r => some r

/-- What a part stands for. -/
def Part.text (valueOf : Reference → String) : Part → List Char
  | .literal c => [c]
  | .reference r => (valueOf r).toList

/-- A value with what each reference stands for in its place. -/
def expand (valueOf : Reference → String) (value : String) : String :=
  .ofList ((parts value.toList).flatMap (Part.text valueOf))

/-- The names of the variables that a setting speaks of. -/
def Setting.variableNames (s : Setting) : List String :=
  s.name :: ((parts (s.value.getD "").toList).filterMap Part.reference?).map Reference.name

/-- What a reference stands for, among variables with and without values. -/
def Reference.value (r : Reference) (lookup : String → Option (Option String)) : String :=
  match lookup r.name with
  | some value => value.getD ""
  | none => r.fallback

/-- Resolve settings behind those that are resolved already, `outer` being the variables set before. -/
def resolveBehind (outer : String → Option String) (done : Keyed (Option String)) :
    List Setting → Keyed (Option String)
  | [] => done
  | s :: rest =>
    let lookup (name : String) := ((outer name).map some).or (done.get? name)
    resolveBehind outer (done.insert s.name (s.value.map (expand (·.value lookup)))) rest

/-- The variables that settings name, with their values. -/
def resolve (outer : String → Option String) (settings : List Setting) : Keyed (Option String) :=
  resolveBehind outer [] settings

/-! ## Files -/

/-- Why a settings file cannot be taken over. -/
inductive Fault where
  | undecodable (fault : Utf8.Fault)
  | unsettable (fault : Environment.Fault)
deriving DecidableEq, Repr

/-- The wording of a fault. -/
def Fault.message : Fault → String
  | .undecodable fault => fault.message
  | .unsettable fault => fault.message

/-- The name of the settings file. -/
def fileName : String := ".env"

/-- The variable that turns settings files off. -/
def switchVariable : String := "PYTHON_DOTENV_DISABLED"

/-- The values with which it does so. -/
def switchWords : List String := ["1", "TRUE", "T", "YES", "Y"]

/-- Whether an environment turns settings files off. -/
def isOff (env : Environment) : Bool :=
  (env.get? switchVariable).any fun value => switchWords.any (spells value)

/-- The statements of a settings file. -/
def readFile (bytes : List UInt8) : Except Utf8.Fault (List Statement) :=
  (Utf8.decode bytes).map Statement.ofText

/-- The warning of a statement that cannot be read. -/
def warningRecord (line : Nat) : Log.Record :=
  ⟨"dotenv.main", Log.warning, "python-dotenv could not parse statement starting at line "
    ++ toString line⟩

/-- The warnings of a settings file. -/
def warnings (statements : List Statement) : List Log.Record :=
  (statements.filterMap Statement.unreadableLine?).map warningRecord

/-- The environment with the settings of a file, up to the first that cannot be set. -/
def addTo (env : Environment) (statements : List Statement) :
    Environment × Option Environment.Fault :=
  env.extend (resolve env.get? (statements.filterMap Statement.setting?))

end AreaAtlas.Settings

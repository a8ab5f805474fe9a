/-!
# Values under keys

Values are kept under keys in the order in which the keys were first given.  A key that is given again
keeps its place and takes the new value.

The environment holds the values of variables in this way.
-/

namespace AreaAtlas

/-- Values under keys, in order. -/
abbrev Keyed (α : Type) := List (String × α)

namespace Keyed

variable {α : Type}

/-- The value under a key; of several the first. -/
def get? (entries : Keyed α) (key : String) : Option α :=
  (entries.find? (·.1 == key)).map (·.2)

/-- The keys, in order. -/
def keys (entries : Keyed α) : List String :=
  entries.map (·.1)

/-- Put a value under a key: a new key comes last, a known key keeps its place. -/
def insert : Keyed α → String → α → Keyed α
  | [], key, value => [(key, value)]
  | entry :: rest, key, value =>
    if entry.1 = key then (key, value) :: rest else entry :: insert rest key value

/-- The entries of a list that may repeat keys. -/
def ofList (entries : List (String × α)) : Keyed α :=
  entries.foldl (fun done entry => insert done entry.1 entry.2) []

theorem get?_cons (entry : String × α) (rest : Keyed α) (key : String) :
    get? (entry :: rest) key = if entry.1 = key then some entry.2 else get? rest key := by
  by_cases h : entry.1 = key <;> simp [get?, h]

end Keyed

/-! ## The environment

Settings add to the variables and override none, not even one whose value is empty.  A setting that cannot
be a variable is a fault; the settings before it stay.
-/

/-- Variables with their values. -/
structure Environment where
  bindings : Keyed String
deriving DecidableEq, Repr

namespace Environment

/-- The value of a variable. -/
def get? (env : Environment) (name : String) : Option String :=
  env.bindings.get? name

/-- Why a text cannot be the name or the value of a variable. -/
inductive Fault where
  /-- It holds the character that ends a text. -/
  | nul
  /-- The name holds the character that ends a name. -/
  | equalsSign
deriving DecidableEq, Repr

/-- The wording of a fault. -/
def Fault.message : Fault → String
  | .nul => "embedded null byte"
  | .equalsSign => "illegal environment variable name"

/-- Set a variable. -/
def set (env : Environment) (name value : String) : Except Fault Environment :=
  if name.contains '\x00' || value.contains '\x00' then .error .nul
  else if name.contains '=' then .error .equalsSign
  else .ok ⟨env.bindings.insert name value⟩

/-- Set the variables that are not set yet, in order, up to the first fault.  One without a value is
passed over. -/
def extend (env : Environment) : List (String × Option String) → Environment × Option Fault
  | [] => (env, none)
  | (name, value?) :: rest =>
    match env.get? name, value? with
    | none, some value =>
      match env.set name value with
      | .ok env => env.extend rest
      | .error fault => (env, some fault)
    | _, _ => env.extend rest

end Environment

end AreaAtlas

import AreaAtlas.Text.Casing
import AreaAtlas.Text.Character

/-!
# Difficulty

The four difficulties are ordered from the most to the least restrictive.  A requirement may begin
with the name of one, in any case; it then asks for at least that difficulty.

A requirement is a text that is not read further than its first word.  The word may rule the path out
altogether or ask for a difficulty; any other requirement is taken to be met.
-/

namespace AreaAtlas

/-- A difficulty, from the most restrictive to the least. -/
inductive Difficulty where
  | moki
  | gorlek
  | kii
  | extreme
deriving DecidableEq, Repr

namespace Difficulty

/-- All difficulties in their order. -/
def all : List Difficulty := [.moki, .gorlek, .kii, .extreme]

/-- The place of a difficulty in their order. -/
def rank : Difficulty → Nat
  | .moki => 0
  | .gorlek => 1
  | .kii => 2
  | .extreme => 3

/-- The name of a difficulty. -/
def name : Difficulty → String
  | .moki => "MOKI"
  | .gorlek => "GORLEK"
  | .kii => "KII"
  | .extreme => "UNSAFE"

instance : LE Difficulty := ⟨fun a b => a.rank ≤ b.rank⟩

instance (a b : Difficulty) : Decidable (a ≤ b) := inferInstanceAs (Decidable (a.rank ≤ b.rank))

/-- The difficulty that keeps every path that is possible at all. -/
def unrestricted : Difficulty := .extreme

/-- The difficulty of a logic for which none is given. -/
def standard : Difficulty := .moki

/-- The difficulty that a word names, whatever the case of its letters. -/
def ofWord? (word : String) : Option Difficulty :=
  all.find? fun d => spells word d.name

theorem le_unrestricted (d : Difficulty) : d ≤ unrestricted := by
  cases d <;> decide

end Difficulty

end AreaAtlas

namespace AreaAtlas.Requirement

/-! ## Requirements -/

/-- Whether a character ends the first word of a requirement. -/
def endsWord (c : Char) : Bool :=
  isBlank c || c == ',' || c == ':'

/-- The first word of a requirement, in lower case. -/
def firstWord (alternative : List Char) : String :=
  lower (String.ofList (alternative.takeWhile fun c => !endsWord c))

/-- The word that rules a path out. -/
def never : String := "impossible"

/-- Whether a requirement can be met at a difficulty. -/
def permits (setting : Difficulty) (alternative : List Char) : Bool :=
  let word := firstWord alternative
  if word = never then false
  else
    match Difficulty.ofWord? word with
    | none => true
    | some d => d ≤ setting

theorem permits_mono {a b : Difficulty} (h : a ≤ b) {alternative : List Char}
    (hp : permits a alternative = true) : permits b alternative = true := by
  unfold permits at hp ⊢
  dsimp only at hp ⊢
  split at hp
  · cases hp
  · split at hp
    · simp_all
    · next hd =>
      simp only [decide_eq_true_eq] at hp
      simp_all only [if_false, decide_eq_true_eq]
      exact Nat.le_trans hp h

end AreaAtlas.Requirement

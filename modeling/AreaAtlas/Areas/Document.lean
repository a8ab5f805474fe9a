import AreaAtlas.Areas.Block
import AreaAtlas.Difficulty
import AreaAtlas.Text.Character

/-!
# Areas texts

An areas text is a sequence of blocks at depth zero.  A block declares an anchor, or it declares a
requirement or a region and is skipped.  Blocks are read independently and in order, so the first
faulty block decides the fault.

An anchor is declared by a header, which gives its name and may give its place, and a body of entries.
The entries stand at the depth of the first line of the body.  An entry leads from its anchor to a target,
under requirements of which one has to be met.
-/

namespace AreaAtlas.Areas

/-! ## Entries of an anchor

The requirements stand behind the colon, or on deeper lines; of the deeper lines those at the depth of the
first one count.  A flag is an entry that leads nowhere, and nothing of it is read.
-/

/-- A path from an anchor: the kind and the name of its target, the line it is on, and the alternative
requirements. -/
structure Entry where
  kind : NodeKind
  target : String
  line : Nat
  alternatives : List (List Char)
deriving DecidableEq, Repr

/-- Whether an entry survives at a difficulty: one of its alternatives can be met. -/
def Entry.isPermitted (setting : Difficulty) (e : Entry) : Bool :=
  e.alternatives.any (Requirement.permits setting)

theorem Entry.isPermitted_mono {a b : Difficulty} (h : a ≤ b) {e : Entry}
    (hp : e.isPermitted a = true) : e.isPermitted b = true := by
  simp only [Entry.isPermitted, List.any_eq_true] at hp ⊢
  obtain ⟨alternative, hm, hp⟩ := hp
  exact ⟨alternative, hm, Requirement.permits_mono h hp⟩

/-- The keywords of flags. -/
def flags : List String := ["nospawn", "tprestriction", "refill"]

/-- An entry line taken apart: a word, a name behind white space, a colon, and the text behind. -/
structure EntryText where
  keyword : List Char
  target : Option (List Char)
  colon : Bool
  requirements : List Char
deriving DecidableEq, Repr

namespace EntryText

/-- Take a name off a text, if one stands behind white space. -/
def takeTarget (text : List Char) : Option (List Char) × List Char :=
  match skipBlanks? text with
  | none => (none, text)
  | some rest =>
    match rest.takeWhile isNameChar with
    | [] => (none, text)
    | name => (some name, rest.dropWhile isNameChar)

/-- Take an entry line apart; it has to begin with a word. -/
def read? (text : List Char) : Option EntryText :=
  match text.takeWhile isWord with
  | [] => none
  | keyword =>
    let (target, rest) := takeTarget (text.dropWhile isWord)
    match trimStart rest with
    | ':' :: rest => some ⟨keyword, target, true, trimStart rest⟩
    | rest => some ⟨keyword, target, false, rest⟩

end EntryText

/-- The alternatives on the lines of a block: those at the depth of its first line. -/
def blockAlternatives : List Line → List (List Char)
  | [] => []
  | first :: rest => ((first :: rest).filter (·.indent = first.indent)).map (·.text)

/-- The alternatives of an entry on this line, behind its colon or on the deeper lines. -/
def readAlternatives (line : Nat) (keyword target : String) (inline : List Char)
    (inner : List Line) : Except DocumentFault (List (List Char)) :=
  match inline, inner with
  | [], [] => .error (.inAreas line (.missingRequirements keyword target))
  | [], inner => .ok (blockAlternatives inner)
  | inline, [] => .ok [inline]
  | _, first :: _ => .error (.inAreas first.number .indentedAfterInline)

/-- Read the block of an entry; a flag gives none. -/
def Block.readEntry (b : Block) : Except DocumentFault (Option Entry) := do
  let fault {α : Type} (cause : Cause) : Except DocumentFault α :=
    throw (.inAreas b.head.number cause)
  match EntryText.read? b.head.text with
  | none => fault (.malformedEntry (.ofList b.head.text))
  | some text =>
    let keyword := String.ofList text.keyword
    if keyword ∈ flags then return none
    match NodeKind.ofKeyword? keyword with
    | none => fault (.unknownEntry keyword)
    | some kind =>
      match text.target with
      | none => fault (.missingTarget keyword)
      | some target =>
        let target := String.ofList target
        if !text.colon then fault (.missingColon keyword target)
        let alternatives ←
          readAlternatives b.head.number keyword target text.requirements b.inner
        return some ⟨kind, target, b.head.number, alternatives⟩

/-! ## Anchor declarations -/

/-- The header of an anchor: its name and place. -/
structure Header where
  name : String
  position : Option Position
deriving DecidableEq

namespace Header

/-- Take a minus off a text, if one stands in front. -/
def takeMinus : List Char → List Char × List Char
  | '-' :: rest => (['-'], rest)
  | rest => ([], rest)

/-- Take a point and the digits behind it off a text.  A point without digits stays. -/
def takePlaces : List Char → List Char × List Char
  | '.' :: rest =>
    match rest.takeWhile isDecimalDigit with
    | [] => ([], '.' :: rest)
    | digits => ('.' :: digits, rest.dropWhile isDecimalDigit)
  | rest => ([], rest)

/-- Take a number off a text: an optional minus, digits, and an optional point with more digits. -/
def takeNumber? (text : List Char) : Option (Binary64 × List Char) :=
  let (sign, rest) := takeMinus text
  let whole := rest.takeWhile isDecimalDigit
  let (places, behind) := takePlaces (rest.dropWhile isDecimalDigit)
  if whole.isEmpty then none
  else (Binary64.read? (sign ++ whole ++ places)).map (·, behind)

/-- Take a place off a text: ` at `, two numbers and a comma between them. -/
def takePosition? (text : List Char) : Option (Position × List Char) := do
  let rest ← skipBlanks? text
  let rest ← skipBlanks? (← ['a', 't'].isPrefixOf? rest)
  let (x, rest) ← takeNumber? rest
  match trimStart rest with
  | ',' :: rest =>
    let (y, rest) ← takeNumber? (trimStart rest)
    return (⟨x, y⟩, rest)
  | _ => none

/-- Whether a text is the colon that ends a header, white space in front allowed. -/
def isEnd (text : List Char) : Bool :=
  trimStart text == [':']

/-- The keyword of an anchor. -/
def keyword : List Char := "anchor".toList

/-- Read a header. -/
def read? (text : List Char) : Option Header := do
  let rest ← skipBlanks? (← keyword.isPrefixOf? text)
  let name := rest.takeWhile isNameChar
  let rest := rest.dropWhile isNameChar
  if name.isEmpty then none
  match takePosition? rest with
  | some (position, rest) => if isEnd rest then some ⟨.ofList name, some position⟩ else none
  | none => if isEnd rest then some ⟨.ofList name, none⟩ else none

end Header

/-- An anchor with its entries, and the line it is declared on. -/
structure Declaration where
  name : String
  position : Option Position
  line : Nat
  entries : List Entry
deriving DecidableEq

/-- The blocks of the entries in the body of an anchor, and their depth. -/
def entryBlocks : List Line → Nat × List Block
  | [] => (0, [])
  | first :: rest => (first.indent, (split first.indent (first :: rest)).2)

/-- Read a block as an entry at this depth. -/
def Block.readEntryAt (depth : Nat) (b : Block) : Except DocumentFault (Option Entry) :=
  if b.head.indent = depth then b.readEntry
  else .error (.inAreas b.head.number .inconsistentIndentation)

/-- Read the block of an anchor. -/
def Block.readAnchor (b : Block) : Except DocumentFault Declaration := do
  match Header.read? b.head.text with
  | none => throw (.inAreas b.head.number .malformedAnchor)
  | some header =>
    if b.inner.isEmpty then throw (.inAreas b.head.number (.emptyAnchor header.name))
    let (depth, blocks) := entryBlocks b.inner
    let entries ← blocks.mapM (Block.readEntryAt depth)
    return ⟨header.name, header.position, b.head.number, entries.filterMap id⟩

/-! ## Texts -/

/-- The first word of a line. -/
def Line.firstWord (line : Line) : String :=
  .ofList (line.text.takeWhile fun c => !isBlank c)

/-- The words that begin a block which is skipped. -/
def skippedWords : List String := ["requirement", "region"]

/-- Read a block at depth zero; a skipped one gives no declaration. -/
def Block.readDeclaration (b : Block) : Except DocumentFault (Option Declaration) := do
  let word := b.head.firstWord
  if word = "anchor" then return some (← b.readAnchor)
  if word ∈ skippedWords then
    if b.head.text.getLast? = some ':' then return none
    throw (.inAreas b.head.number (.openDeclaration word))
  throw (.inAreas b.head.number (.unknownDeclaration word))

/-- The blocks at depth zero of an areas text.  It must not begin with an indented line. -/
def readBlocks (text : List Char) : Except DocumentFault (List Block) := do
  match split 0 (← readLines text) with
  | (line :: _, _) => throw (.inAreas line.number .unexpectedIndentation)
  | ([], blocks) => return blocks

/-- The anchors that an areas text declares, in its order. -/
def readDeclarations (text : List Char) : Except DocumentFault (List Declaration) := do
  let declarations ← (← readBlocks text).mapM Block.readDeclaration
  return declarations.filterMap id

/-! ### What is read before a fault -/

/-- The values read before the first fault. -/
def valuesBeforeFault {α β ε : Type} (read : α → Except ε β) : List α → List β
  | [] => []
  | a :: rest =>
    match read a with
    | .ok value => value :: valuesBeforeFault read rest
    | .error _ => []

/-- The elements up to the first one whose reading has a fault, that one included. -/
def throughFault {α β ε : Type} (read : α → Except ε β) : List α → List α
  | [] => []
  | a :: rest =>
    match read a with
    | .ok _ => a :: throughFault read rest
    | .error _ => [a]

/-- The entries of an anchor's block that are read before its first fault. -/
def Block.entriesRead (b : Block) : List Entry :=
  if b.head.firstWord = "anchor" ∧ (Header.read? b.head.text).isSome then
    let (depth, blocks) := entryBlocks b.inner
    (valuesBeforeFault (Block.readEntryAt depth) blocks).filterMap id
  else []

/-- The entries of an areas text that are read before its first fault. -/
def entriesRead (text : List Char) : List Entry :=
  match readBlocks text with
  | .error _ => []
  | .ok blocks => (throughFault Block.readDeclaration blocks).flatMap Block.entriesRead

end AreaAtlas.Areas

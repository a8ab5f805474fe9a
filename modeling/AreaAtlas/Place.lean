import AreaAtlas.Graph.Basic
import AreaAtlas.Text.Character

/-!
# Places in an areas text

A node or a connection is found again in the text that it was read from.  The search looks at the text
as an editor shows it: lines end at line feeds only, and spaces and tabs stand between words.  It does
not read the text, so it also finds entries that did not survive.
-/

namespace AreaAtlas

/-- A place in a text: the line and the character in it, both counted from zero. -/
structure Place where
  line : Nat
  character : Nat
deriving DecidableEq, Repr

/-- The place of an offset, behind the spaces that follow it.  Where only spaces follow, the character
is zero. -/
def Place.ofOffset (text : List Char) (offset : Nat) : Place :=
  let behind := text.drop offset
  let content := behind.dropWhile (· = ' ')
  ⟨(text.take offset).count '\n', if content.isEmpty then 0 else behind.length - content.length⟩

namespace Place

/-- The place of an offset.  A negative offset counts from the end of the text. -/
def ofIndex (text : List Char) (offset : Int) : Place :=
  ofOffset text (if offset < 0 then text.length + offset else offset).toNat

/-! ## Lines and names -/

/-- Where lines begin behind the line feeds of a text that itself begins at this offset: the offset of
each line and the text from there on. -/
def behindLineFeeds (offset : Nat) : List Char → List (Nat × List Char)
  | [] => []
  | c :: rest =>
    if c = '\n' then (offset + 1, rest) :: behindLineFeeds (offset + 1) rest
    else behindLineFeeds (offset + 1) rest

/-- Where the lines of a text begin. -/
def lineStarts (text : List Char) : List (Nat × List Char) :=
  (0, text) :: behindLineFeeds 0 text

/-- Whether a character may stand between words. -/
def isGap (c : Char) : Bool :=
  c == ' ' || c == '\t'

/-- Whether a text begins with a name that does not go on behind it. -/
def beginsWithName (name text : List Char) : Bool :=
  match name.isPrefixOf? text with
  | some rest => !rest.head?.any isNameChar
  | none => false

/-- The length of a gap and a name at the front of a text.  The name may itself begin with spaces; the
gap is as long as possible, and at least one character. -/
def gapAndName? (name text : List Char) : Option Nat :=
  let longest := (text.takeWhile isGap).length
  ((List.range longest).find? fun i => beginsWithName name (text.drop (longest - i))).map
    fun i => longest - i + name.length

/-! ## Anchors -/

/-- The keyword of an anchor's declaration. -/
def anchorKeyword : List Char := "anchor".toList

/-- Whether a line declares the anchor of this name. -/
def declares (name line : List Char) : Bool :=
  match anchorKeyword.isPrefixOf? line with
  | some rest => (gapAndName? name rest).isSome
  | none => false

/-- The place where the anchor of this name is declared. -/
def ofAnchor? (name : String) (areas : List Char) : Option Place :=
  ((lineStarts areas).find? fun line => declares name.toList line.2).map
    fun line => Place.ofOffset areas line.1

/-- The name that a line declares as an anchor, which may be empty. -/
def declaredName? (line : List Char) : Option (List Char) :=
  match anchorKeyword.isPrefixOf? line with
  | some rest =>
    if rest.head?.any isGap then some ((rest.dropWhile isGap).takeWhile isNameChar) else none
  | none => none

/-! ## Entries -/

/-- The keywords of the entries that a connection can come from. -/
def entryKeywords : ConnectionKind → List (List Char)
  | .branch => ["conn".toList]
  | .leaf => ["pickup".toList, "quest".toList]

/-- The length of an entry with this target at the front of a line, up to the end of the target. -/
def entryLength? (keywords : List (List Char)) (target line : List Char) : Option Nat :=
  let indent := (line.takeWhile isGap).length
  keywords.findSome? fun keyword => do
    let rest ← keyword.isPrefixOf? (line.drop indent)
    return indent + keyword.length + (← gapAndName? target rest)

/-- Look through lines for an entry with this target under the anchor `source`.  `owner` is the anchor
declared last; lines that begin before `free` belong to an entry already looked at. -/
def findEntry (keywords : List (List Char)) (source target : List Char)
    (owner : Option (List Char)) (free : Nat) : List (Nat × List Char) → Option Nat
  | [] => none
  | (offset, line) :: rest =>
    let owner := (declaredName? line).or owner
    match if offset < free then none else entryLength? keywords target line with
    | some length =>
      if owner = some source then some offset
      else findEntry keywords source target owner (offset + length) rest
    | none => findEntry keywords source target owner free rest

/-- The directions in which a connection is looked for.  One that leads in one direction only may have
been written with its ends exchanged; of the other kind `inverse` asks for the way back. -/
def directions (c : Connection) (inverse : Bool) : List (String × String) :=
  if c.unidirectional then [(c.start, c.finish), (c.finish, c.start)]
  else if inverse then [(c.finish, c.start)]
  else [(c.start, c.finish)]

/-- The place of the entry that a connection comes from. -/
def ofConnection? (c : Connection) (areas : List Char) (inverse : Bool) : Option Place :=
  ((directions c inverse).findSome? fun (source, target) =>
    findEntry (entryKeywords c.kind) source.toList target.toList none 0 (lineStarts areas)).map
      (Place.ofOffset areas)

end Place

end AreaAtlas

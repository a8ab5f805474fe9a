import AreaAtlas.Text.Quoted

/-!
# UTF-8

A file is a text only if its bytes are the UTF-8 encoding of one.  `encode` writes a text as bytes;
`decode` reads bytes one at a time, remembering what the character begun so far still needs, and stops
at the first byte that no encoding could hold there.  The fault it reports names the bytes of the
character that was begun, so its position is the length of the part that was read without fault.
-/

namespace AreaAtlas.Utf8

/-- The bytes of a text. -/
def encode (s : String) : List UInt8 :=
  s.toList.flatMap String.utf8EncodeChar

/-- Why bytes are not the encoding of a text. -/
inductive Reason where
  /-- No character begins with this byte. -/
  | invalidStart
  /-- A byte that must continue a character does not. -/
  | invalidContinuation
  /-- The bytes end inside a character. -/
  | unexpectedEnd
deriving DecidableEq, Repr

/-- The first bytes that are not the encoding of a text: where they begin, the first of them, how many
they are, and why. -/
structure Fault where
  position : Nat
  first : UInt8
  count : Nat
  reason : Reason
deriving DecidableEq, Repr

/-- The wording of a reason. -/
def Reason.description : Reason → String
  | .invalidStart => "invalid start byte"
  | .invalidContinuation => "invalid continuation byte"
  | .unexpectedEnd => "unexpected end of data"

/-- The wording of a fault: the byte and its position, or the positions of several bytes. -/
def Fault.message (fault : Fault) : String :=
  let bytes :=
    if fault.count = 1 then
      "byte 0x" ++ String.ofList (hexDigits 2 fault.first.toNat) ++ " in position "
        ++ toString fault.position
    else
      "bytes in position " ++ toString fault.position ++ "-"
        ++ toString (fault.position + fault.count - 1)
  "'utf-8' codec can't decode " ++ bytes ++ ": " ++ fault.reason.description

/-- A character that was begun: its first byte, the bytes read of it, the bits they hold, the bytes
still owed, and the least and greatest value that the next one may have. -/
structure Pending where
  first : UInt8
  read : Nat
  bits : Nat
  owed : Nat
  least : Nat
  greatest : Nat
deriving DecidableEq, Repr

/-- What a first byte beyond ASCII begins.  The ranges leave out the longer spellings of a character,
the surrogates and what lies above the last code point. -/
def begin? (b : UInt8) : Option Pending :=
  let n := b.toNat
  if 0xC2 ≤ n ∧ n ≤ 0xDF then some ⟨b, 1, n - 0xC0, 1, 0x80, 0xBF⟩
  else if n = 0xE0 then some ⟨b, 1, 0, 2, 0xA0, 0xBF⟩
  else if n = 0xED then some ⟨b, 1, 0xD, 2, 0x80, 0x9F⟩
  else if 0xE1 ≤ n ∧ n ≤ 0xEF then some ⟨b, 1, n - 0xE0, 2, 0x80, 0xBF⟩
  else if n = 0xF0 then some ⟨b, 1, 0, 3, 0x90, 0xBF⟩
  else if 0xF1 ≤ n ∧ n ≤ 0xF3 then some ⟨b, 1, n - 0xF0, 3, 0x80, 0xBF⟩
  else if n = 0xF4 then some ⟨b, 1, 4, 3, 0x80, 0x8F⟩
  else none

/-- The fault of a character that was begun before `position` and not completed. -/
def Pending.fault (p : Pending) (position : Nat) (reason : Reason) : Fault :=
  ⟨position - p.read, p.first, p.read, reason⟩

/-- Read the bytes from `position` on: `done` are the characters before, backwards, and `pending` is
the character that was begun, if any. -/
def decodeFrom (done : List Char) (position : Nat) :
    Option Pending → List UInt8 → Except Fault (List Char)
  | none, [] => .ok done.reverse
  | some p, [] => .error (p.fault position .unexpectedEnd)
  | none, b :: rest =>
    if b.toNat < 0x80 then decodeFrom (Char.ofNat b.toNat :: done) (position + 1) none rest
    else
      match begin? b with
      | some p => decodeFrom done (position + 1) (some p) rest
      | none => .error ⟨position, b, 1, .invalidStart⟩
  | some p, b :: rest =>
    if p.least ≤ b.toNat ∧ b.toNat ≤ p.greatest then
      let bits := p.bits * 64 + (b.toNat - 0x80)
      if p.owed ≤ 1 then decodeFrom (Char.ofNat bits :: done) (position + 1) none rest
      else
        decodeFrom done (position + 1)
          (some ⟨p.first, p.read + 1, bits, p.owed - 1, 0x80, 0xBF⟩) rest
    else .error (p.fault position .invalidContinuation)

/-- The text that bytes encode, or the first fault. -/
def decode (bytes : List UInt8) : Except Fault String :=
  (decodeFrom [] 0 none bytes).map String.ofList

/-- Bytes without the mark that some editors put in front of a text. -/
def dropMark : List UInt8 → List UInt8
  | 0xEF :: 0xBB :: 0xBF :: rest => rest
  | bytes => bytes

end AreaAtlas.Utf8

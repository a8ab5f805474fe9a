import AreaAtlas.Proofs.Text.Utf8.Spelling
import Mathlib.Order.Bounds.Defs

/-!
# Reading UTF-8

Reading takes off one character after another, and stops where what follows begins with none, `IsFault`.
So bytes are read as a text exactly if they are its encoding, `decode_eq_ok_iff`, and of all other bytes
the fault behind the longest text in front of them is reported, `faultDescribes_of_decode_eq_error`.
-/

namespace AreaAtlas.Utf8

open String (utf8EncodeChar)

/-! ## Faults -/

/-- **The fault of bytes** that begin at a position, and that no character stands in front of. -/
inductive IsFault (position : Nat) : List UInt8 → Fault → Prop
  /-- No character has the first byte. -/
  | invalidStart {first : UInt8} {rest : List UInt8}
      (hfirst : ∀ c : Char, ¬[first] <+: utf8EncodeChar c) :
      IsFault position (first :: rest) ⟨position, first, 1, .invalidStart⟩
  /-- A character is begun, and none goes on with the next byte. -/
  | invalidContinuation {front rest : List UInt8} {first next : UInt8}
      (hfirst : front.head? = some first) (hfront : IsPart front)
      (hnext : ∀ c : Char, ¬front ++ [next] <+: utf8EncodeChar c) :
      IsFault position (front ++ next :: rest) ⟨position, first, front.length, .invalidContinuation⟩
  /-- A character is begun, and there is no more. -/
  | unexpectedEnd {front : List UInt8} {first : UInt8} (hfirst : front.head? = some first)
      (hfront : IsPart front) :
      IsFault position front ⟨position, first, front.length, .unexpectedEnd⟩

namespace IsFault

variable {position : Nat} {bytes : List UInt8} {fault : Fault}

theorem position_eq (h : IsFault position bytes fault) : fault.position = position := by
  cases h with
  | invalidStart _ => rfl
  | invalidContinuation _ _ _ => rfl
  | unexpectedEnd _ _ => rfl

/-- Faulty bytes begin with no character. -/
theorem not_isPrefix (h : IsFault position bytes fault) (c : Char) : ¬utf8EncodeChar c <+: bytes := by
  intro hc
  cases h with
  | invalidStart hfirst =>
    obtain ⟨b, others, hchar⟩ := List.exists_cons_of_ne_nil (utf8EncodeChar_ne_nil c)
    rw [hchar, List.cons_prefix_cons] at hc
    obtain ⟨rfl, -⟩ := hc
    exact hfirst c ⟨others, hchar.symm⟩
  | @invalidContinuation front rest first next _ hfront hnext =>
    rw [List.append_cons] at hc
    rcases List.prefix_or_prefix_of_prefix hc (List.prefix_append (front ++ [next]) rest) with hc | hc
    · -- the character ends with the next byte, or lies in front of it
      rcases List.prefix_concat_iff.mp hc with hall | hc
      · exact hnext c ⟨[], by rw [hall, List.append_nil]⟩
      · exact hfront.not_isPrefix c hc
    · exact hnext c hc
  | unexpectedEnd _ hfront => exact hfront.not_isPrefix c hc

end IsFault

/-! ## Reading -/

section Reading

variable (done : List Char) (start : Nat)

/-- What is read behind the first bytes of a character: the character, or a fault.  The induction is on the
bytes that follow, and `p` spells those before. -/
theorem decodeFrom_some {bytes front : List UInt8} {p : Pending} (hp : p.Spells front) :
    (∃ c rest, front ++ bytes = utf8EncodeChar c ++ rest ∧
      decodeFrom done (start + front.length) (some p) bytes =
        decodeFrom (c :: done) (start + c.utf8Size) none rest) ∨
    ∃ fault, decodeFrom done (start + front.length) (some p) bytes = .error fault ∧
      IsFault start (front ++ bytes) fault := by
  induction bytes generalizing p front with
  | nil =>
    refine Or.inr ⟨_, rfl, ?_⟩
    rw [hp.fault_eq, List.append_nil]
    exact .unexpectedEnd hp.head?_eq hp.isPart
  | cons b rest ih =>
    rw [decodeFrom]
    by_cases hb : p.Takes b
    · rw [if_pos hb]
      dsimp only
      have hlength : (front ++ [b]).length = front.length + 1 := by
        rw [List.length_append, List.length_singleton]
      by_cases howed : p.owed ≤ 1
      · rw [if_pos howed]
        have hchar := hp.utf8EncodeChar_eq_append (Nat.le_antisymm howed hp.owed_pos) hb
        refine Or.inl ⟨Char.ofNat (p.bits * 64 + (b.toNat - 0x80)), rest, ?_, ?_⟩
        · rw [hchar, ← List.append_cons]
        · rw [← String.length_utf8EncodeChar, hchar, hlength, Nat.add_assoc]
      · rw [if_neg howed]
        have hnext := hp.spells_next (Nat.lt_of_not_le howed) hb
        rw [List.append_cons, Nat.add_assoc, ← hlength]
        exact ih hnext
    · rw [if_neg hb]
      refine Or.inr ⟨_, rfl, ?_⟩
      rw [hp.fault_eq]
      exact .invalidContinuation hp.head?_eq hp.isPart (hp.not_isPrefix hb)

/-- What is read of bytes: the first character, or a fault. -/
theorem decodeFrom_none {bytes : List UInt8} (hbytes : bytes ≠ []) :
    (∃ c rest, bytes = utf8EncodeChar c ++ rest ∧
      decodeFrom done start none bytes = decodeFrom (c :: done) (start + c.utf8Size) none rest) ∨
    ∃ fault, decodeFrom done start none bytes = .error fault ∧ IsFault start bytes fault := by
  obtain ⟨b, rest, rfl⟩ := List.exists_cons_of_ne_nil hbytes
  rw [decodeFrom]
  by_cases hb : b.toNat < 0x80
  · have hc : (Char.ofNat b.toNat).toNat = b.toNat := toNat_ofNat (Or.inl (by omega))
    have hchar := utf8EncodeChar_of_hasLead (c := Char.ofNat b.toNat) (b := b) (n := 0)
      ⟨hc.symm ▸ hb, hc.symm⟩
    refine Or.inl ⟨Char.ofNat b.toNat, rest, ?_, ?_⟩
    · rw [hchar]
      rfl
    · rw [if_pos hb, ← String.length_utf8EncodeChar, hchar]
      rfl
  · rw [if_neg hb]
    cases hbegin : begin? b with
    | none =>
      refine Or.inr ⟨_, rfl, .invalidStart ?_⟩
      intro c hc
      obtain ⟨n, hlead⟩ := exists_hasLead_of_isPrefix hc
      have hrange := hlead.range
      rw [begin?_eq_none_iff] at hbegin
      omega
    | some p => exact decodeFrom_some done start (spells_of_begin? hbegin)

/-- A character in front is taken off. -/
theorem decodeFrom_utf8EncodeChar_append (c : Char) (rest : List UInt8) :
    decodeFrom done start none (utf8EncodeChar c ++ rest) =
      decodeFrom (c :: done) (start + c.utf8Size) none rest := by
  -- what is read first is some character or a fault, and both are settled by the bytes in front
  have hne : utf8EncodeChar c ++ rest ≠ [] :=
    fun h => utf8EncodeChar_ne_nil c (List.append_eq_nil_iff.mp h).1
  rcases decodeFrom_none done start hne with ⟨d, others, heq, hread⟩ | ⟨fault, -, hfault⟩
  · obtain rfl := eq_of_utf8EncodeChar_append heq
    obtain rfl := List.append_cancel_left heq
    exact hread
  · exact absurd (List.prefix_append _ rest) (hfault.not_isPrefix c)

/-- A text in front is taken off. -/
theorem decodeFrom_flatMap_append (cs : List Char) (rest : List UInt8) :
    decodeFrom done start none (cs.flatMap utf8EncodeChar ++ rest) =
      decodeFrom (cs.reverse ++ done) (start + (cs.flatMap utf8EncodeChar).length) none rest := by
  induction cs generalizing done start with
  | nil => rfl
  | cons c cs ih =>
    rw [List.flatMap_cons, List.append_assoc, decodeFrom_utf8EncodeChar_append, ih, List.length_append,
      String.length_utf8EncodeChar, List.reverse_cons, List.append_assoc, Nat.add_assoc]
    rfl

/-- What is read of bytes is a text in front, and what follows it is nothing or has a fault.  The induction
is on the number of bytes, since a character takes off several. -/
theorem exists_flatMap_append (bytes : List UInt8) : ∃ cs rest,
    bytes = cs.flatMap utf8EncodeChar ++ rest ∧
      (rest = [] ∧ decodeFrom done start none bytes = .ok (done.reverse ++ cs) ∨
        ∃ fault, decodeFrom done start none bytes = .error fault ∧
          IsFault (start + (cs.flatMap utf8EncodeChar).length) rest fault) := by
  induction hn : bytes.length using Nat.strongRecOn generalizing bytes done start with
  | ind n ih =>
    by_cases hbytes : bytes = []
    · refine ⟨[], [], hbytes, Or.inl ⟨rfl, ?_⟩⟩
      rw [hbytes, decodeFrom, List.append_nil]
    rcases decodeFrom_none done start hbytes with ⟨c, rest, rfl, hread⟩ | ⟨fault, hread, hfault⟩
    · have hlength := String.length_utf8EncodeChar c
      have hpos := c.utf8Size_pos
      rw [List.length_append] at hn
      obtain ⟨cs, others, rfl, hcases⟩ :=
        ih rest.length (by omega) (c :: done) (start + c.utf8Size) rest rfl
      refine ⟨c :: cs, others, ?_, ?_⟩
      · rw [List.flatMap_cons, List.append_assoc]
      · rw [List.flatMap_cons, List.length_append, hlength, ← Nat.add_assoc, hread]
        rwa [List.reverse_cons, List.append_assoc] at hcases
    · exact ⟨[], bytes, rfl, Or.inr ⟨fault, hread, hfault⟩⟩

end Reading

/-! ## Texts -/

/-- Bytes that are the encoding of a text. -/
def IsText (bytes : List UInt8) : Prop :=
  ∃ text, encode text = bytes

theorem encode_ofList (cs : List Char) : encode (String.ofList cs) = cs.flatMap utf8EncodeChar := by
  rw [encode, String.toList_ofList]

theorem decode_encode (text : String) : decode (encode text) = .ok text := by
  have hread := decodeFrom_flatMap_append [] 0 text.toList []
  rw [List.append_nil, decodeFrom, List.append_nil, List.reverse_reverse] at hread
  rw [decode, encode, hread]
  exact congrArg Except.ok String.ofList_toList

/-- Bytes as a whole are a text and read as one, or what follows a text in front of them has the fault that
is reported. -/
theorem decode_cases (bytes : List UInt8) :
    (∃ text, bytes = encode text ∧ decode bytes = .ok text) ∨
    ∃ text rest fault, bytes = encode text ++ rest ∧ decode bytes = .error fault ∧
      IsFault (encode text).length rest fault := by
  obtain ⟨cs, rest, hbytes, hcases⟩ := exists_flatMap_append [] 0 bytes
  rw [← encode_ofList] at hbytes hcases
  rcases hcases with ⟨rfl, hread⟩ | ⟨fault, hread, hfault⟩
  · refine Or.inl ⟨String.ofList cs, ?_, ?_⟩
    · rw [hbytes, List.append_nil]
    · rw [decode, hread]
      rfl
  · refine Or.inr ⟨String.ofList cs, rest, fault, hbytes, ?_, ?_⟩
    · rw [decode, hread]
      rfl
    · rwa [Nat.zero_add] at hfault

/-- **Bytes are read as a text** exactly if they are its encoding. -/
theorem decode_eq_ok_iff {bytes : List UInt8} {text : String} :
    decode bytes = .ok text ↔ encode text = bytes := by
  constructor
  · intro h
    rcases decode_cases bytes with ⟨other, rfl, hread⟩ | ⟨_, _, fault, -, hread, -⟩
    · rw [hread] at h
      cases h
      rfl
    · rw [hread] at h
      cases h
  · rintro rfl
    exact decode_encode text

/-- The lengths of the texts that stand in front of bytes. -/
def textLengths (bytes : List UInt8) : Set Nat :=
  {n | ∃ front, front <+: bytes ∧ IsText front ∧ front.length = n}

/-- No text in front is longer than one that no character follows. -/
theorem length_le_of_append_eq {text other : String} {rest others : List UInt8}
    (hrest : ∀ c : Char, ¬utf8EncodeChar c <+: rest)
    (h : encode other ++ others = encode text ++ rest) :
    (encode other).length ≤ (encode text).length := by
  unfold encode at h ⊢
  generalize text.toList = cs at h ⊢
  generalize other.toList = ds at h ⊢
  induction ds generalizing cs with
  | nil => exact Nat.zero_le _
  | cons d ds ih =>
    rw [List.flatMap_cons, List.append_assoc] at h
    cases cs with
    | nil => exact absurd ⟨_, h⟩ (hrest d)
    | cons c cs =>
      rw [List.flatMap_cons, List.append_assoc] at h
      obtain rfl := eq_of_utf8EncodeChar_append h
      rw [List.flatMap_cons, List.flatMap_cons, List.length_append, List.length_append]
      exact Nat.add_le_add_left (ih cs (List.append_cancel_left h)) _

/-- **What is reported of bytes that are no text**: the fault behind a text in front of them, which is the
longest one. -/
structure FaultDescribes (bytes : List UInt8) (fault : Fault) : Prop where
  exists_isFault : ∃ text rest, bytes = encode text ++ rest ∧ IsFault (encode text).length rest fault
  isGreatest : IsGreatest (textLengths bytes) fault.position

theorem faultDescribes_of_decode_eq_error {bytes : List UInt8} {fault : Fault}
    (h : decode bytes = .error fault) : FaultDescribes bytes fault := by
  rcases decode_cases bytes with ⟨text, -, hread⟩ | ⟨text, rest, other, hbytes, hread, hfault⟩
  · rw [hread] at h
    cases h
  rw [hread] at h
  cases h
  refine ⟨⟨text, rest, hbytes, hfault⟩, ?_, ?_⟩
  · exact ⟨encode text, ⟨rest, hbytes.symm⟩, ⟨text, rfl⟩, hfault.position_eq.symm⟩
  · rintro n ⟨_, ⟨others, hothers⟩, ⟨front, rfl⟩, rfl⟩
    rw [hfault.position_eq]
    rw [hbytes] at hothers
    exact length_le_of_append_eq hfault.not_isPrefix hothers

theorem not_isText_iff {bytes : List UInt8} : ¬IsText bytes ↔ ∃ fault, decode bytes = .error fault := by
  constructor
  · intro h
    rcases decode_cases bytes with ⟨text, hbytes, -⟩ | ⟨_, _, fault, -, hread, -⟩
    · exact absurd ⟨text, hbytes.symm⟩ h
    · exact ⟨fault, hread⟩
  · rintro ⟨fault, hread⟩ ⟨text, htext⟩
    rw [decode_eq_ok_iff.mpr htext] at hread
    cases hread

/-- A surrogate behind a letter: no character goes on with its second byte. -/
example : decode [0x61, 0xED, 0xA0, 0x80] = .error ⟨1, 0xED, 1, .invalidContinuation⟩ := by rfl

/-! ## The mark in front -/

/-- The encoding of the character that marks a text. -/
def mark : List UInt8 := [0xEF, 0xBB, 0xBF]

theorem utf8EncodeChar_mark : utf8EncodeChar '\uFEFF' = mark := by decide

/-- Bytes that a text is written as: its encoding behind a mark, or without one if the text does not itself
begin with the character of the mark. -/
inductive IsWritten (text : String) : List UInt8 → Prop
  | marked : IsWritten text (mark ++ encode text)
  | plain (h : text.toList.head? ≠ some '\uFEFF') : IsWritten text (encode text)

theorem mark_isPrefix_encode_iff {text : String} :
    mark <+: encode text ↔ text.toList.head? = some '\uFEFF' := by
  rw [encode, ← utf8EncodeChar_mark]
  cases text.toList with
  | nil =>
    rw [List.flatMap_nil, List.prefix_nil, List.head?_nil]
    exact ⟨fun h => absurd h (utf8EncodeChar_ne_nil _), fun h => nomatch h⟩
  | cons c cs =>
    rw [List.flatMap_cons, List.head?_cons, Option.some.injEq]
    constructor
    · rintro ⟨others, h⟩
      exact (eq_of_utf8EncodeChar_append h).symm
    · rintro rfl
      exact List.prefix_append _ _

theorem dropMark_cases (bytes : List UInt8) :
    bytes = mark ++ dropMark bytes ∨ ¬mark <+: bytes ∧ dropMark bytes = bytes := by
  unfold dropMark
  split
  · exact Or.inl rfl
  · next hmark =>
    refine Or.inr ⟨?_, rfl⟩
    rintro ⟨rest, h⟩
    exact hmark rest h.symm

/-- A mark is dropped once, so the bytes behind it are those of the text that was written. -/
theorem encode_eq_dropMark_iff {bytes : List UInt8} {text : String} :
    encode text = dropMark bytes ↔ IsWritten text bytes := by
  constructor
  · intro h
    rcases dropMark_cases bytes with hmark | ⟨hmark, hsame⟩
    · rw [hmark, ← h]
      exact .marked
    · rw [hsame] at h
      rw [← h] at hmark ⊢
      exact .plain (mark_isPrefix_encode_iff.not.mp hmark)
  · intro h
    cases h with
    | marked => rfl
    | plain hfirst =>
      rcases dropMark_cases (encode text) with hmark | ⟨-, hsame⟩
      · exact absurd ⟨_, hmark.symm⟩ (mark_isPrefix_encode_iff.not.mpr hfirst)
      · exact hsame.symm

end AreaAtlas.Utf8

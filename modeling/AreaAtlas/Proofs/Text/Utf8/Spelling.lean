import AreaAtlas.Text.Utf8
import Mathlib.Algebra.Group.Nat.Defs
import Mathlib.Data.List.Basic

/-!
# The bytes of a character

No encoding of a character is the beginning of another one's.  A character is written with a first byte,
which tells how many follow, and the places of its value in base 64.  While its bytes are read, what is
remembered of them admits exactly the characters whose encodings begin with them, `Pending.Spells`: a byte
within the bounds keeps it so, `Spells.spells_next`, and with any other byte no character is left,
`Spells.not_isPrefix`.  Longer spellings, surrogates and what lies above the last code point need no case of
their own, since the bounds of the second byte leave them out.
-/

namespace AreaAtlas.Utf8

open String (utf8EncodeChar)

theorem utf8EncodeChar_ne_nil (c : Char) : utf8EncodeChar c ≠ [] := by
  refine List.ne_nil_of_length_pos ?_
  rw [String.length_utf8EncodeChar]
  exact c.utf8Size_pos

/-- The encoding of a character is no beginning of another one's. -/
theorem eq_of_utf8EncodeChar_append {c d : Char} {rest others : List UInt8}
    (h : utf8EncodeChar c ++ rest = utf8EncodeChar d ++ others) : c = d := by
  have hc := ByteArray.utf8DecodeChar?_utf8EncodeChar_append (b := rest.toByteArray) (c := c)
  have hd := ByteArray.utf8DecodeChar?_utf8EncodeChar_append (b := others.toByteArray) (c := d)
  rw [← List.toByteArray_append, h, List.toByteArray_append, hd] at hc
  exact (Option.some.inj hc).symm

theorem eq_of_utf8EncodeChar_isPrefix {c d : Char} (h : utf8EncodeChar c <+: utf8EncodeChar d) :
    c = d := by
  obtain ⟨rest, hrest⟩ := h
  have hsame : utf8EncodeChar c ++ rest = utf8EncodeChar d ++ [] := by
    rw [hrest, List.append_nil]
  exact eq_of_utf8EncodeChar_append hsame

/-- Bytes that a character begins with, and that it has more of. -/
def IsPart (front : List UInt8) : Prop :=
  ∃ c : Char, front <+: utf8EncodeChar c ∧ front ≠ utf8EncodeChar c

/-- Part of a character begins with no character. -/
theorem IsPart.not_isPrefix {front : List UInt8} (h : IsPart front) (c : Char) :
    ¬utf8EncodeChar c <+: front := by
  intro hc
  obtain ⟨d, hd, hne⟩ := h
  obtain rfl := eq_of_utf8EncodeChar_isPrefix (hc.trans hd)
  exact hne (hd.eq_of_length_le hc.length_le)

/-- The character of value `v` has the first byte `b` and this number of bytes behind it. -/
def HasLead (v : Nat) (b : UInt8) : Nat → Prop
  | 0 => v < 0x80 ∧ b.toNat = v
  | 1 => 0x80 ≤ v ∧ v < 0x800 ∧ b.toNat = v / 64 + 0xC0
  | 2 => 0x800 ≤ v ∧ v < 0x10000 ∧ b.toNat = v / 4096 + 0xE0
  | 3 => 0x10000 ≤ v ∧ v < 0x110000 ∧ b.toNat = v / 262144 + 0xF0
  | _ => False

/-- The bytes that hold this many of the lowest places of a value, in base 64. -/
def continuation (v : Nat) : Nat → List UInt8
  | 0 => []
  | n + 1 => UInt8.ofNat (v / 64 ^ n % 64 + 0x80) :: continuation v n

theorem continuation_of_pos {v n : Nat} (h : 0 < n) :
    continuation v n = UInt8.ofNat (v / 64 ^ (n - 1) % 64 + 0x80) :: continuation v (n - 1) := by
  obtain ⟨m, rfl⟩ := Nat.exists_eq_succ_of_ne_zero (Nat.ne_of_gt h)
  rfl

theorem exists_hasLead {v : Nat} (hv : v < 0x110000) : ∃ b n, HasLead v b n := by
  have hofNat : ∀ {n : Nat}, n < 256 → (UInt8.ofNat n).toNat = n := UInt8.toNat_ofNat_of_lt'
  by_cases h₁ : v < 0x80
  · exact ⟨UInt8.ofNat v, 0, h₁, hofNat (by omega)⟩
  by_cases h₂ : v < 0x800
  · exact ⟨UInt8.ofNat (v / 64 + 0xC0), 1, by omega, h₂, hofNat (by omega)⟩
  by_cases h₃ : v < 0x10000
  · exact ⟨UInt8.ofNat (v / 4096 + 0xE0), 2, by omega, h₃, hofNat (by omega)⟩
  · exact ⟨UInt8.ofNat (v / 262144 + 0xF0), 3, by omega, hv, hofNat (by omega)⟩

/-- The first byte alone tells how many follow. -/
theorem HasLead.range {v n : Nat} {b : UInt8} (h : HasLead v b n) :
    n = 0 ∧ b.toNat < 0x80 ∨ n = 1 ∧ 0xC2 ≤ b.toNat ∧ b.toNat < 0xE0 ∨
      n = 2 ∧ 0xE0 ≤ b.toNat ∧ b.toNat < 0xF0 ∨ n = 3 ∧ 0xF0 ≤ b.toNat ∧ b.toNat ≤ 0xF4 := by
  match n, h with
  | 0, ⟨_, _⟩ => omega
  | 1, ⟨_, _, _⟩ => omega
  | 2, ⟨_, _, _⟩ => omega
  | 3, ⟨_, _, _⟩ => omega

theorem ofNat_eq {b : UInt8} {n : Nat} (h : b.toNat = n) : UInt8.ofNat n = b := by
  rw [← h, UInt8.ofNat_toNat]

theorem ofNat_place_eq_iff {b : UInt8} {n : Nat} :
    UInt8.ofNat (n % 64 + 0x80) = b ↔ n % 64 + 0x80 = b.toNat := by
  constructor
  · rintro rfl
    rw [UInt8.toNat_ofNat_of_lt' (show _ < 256 by omega)]
  · exact fun h => ofNat_eq h.symm

theorem toNat_ofNat {v : Nat} (h : v.isValidChar) : (Char.ofNat v).toNat = v := by
  rw [Char.ofNat, dif_pos h]
  rfl

/-- A character is written with its first byte and the places behind it. -/
theorem utf8EncodeChar_of_hasLead {c : Char} {b : UInt8} {n : Nat} (h : HasLead c.toNat b n) :
    utf8EncodeChar c = b :: continuation c.toNat n := by
  have hv : c.val.toNat = c.toNat := rfl
  unfold utf8EncodeChar
  dsimp only
  rw [hv]
  -- the remainder that is taken of the highest place cuts nothing off, since the value is small enough
  match n, h with
  | 0, ⟨h₁, hb⟩ =>
    rw [if_pos (by omega), ofNat_eq hb]
    rfl
  | 1, ⟨h₁, h₂, hb⟩ =>
    rw [if_neg (by omega), if_pos (by omega), ofNat_eq (b := b) (by omega)]
    simp [continuation]
  | 2, ⟨h₁, h₂, hb⟩ =>
    rw [if_neg (by omega), if_neg (by omega), if_pos (by omega), ofNat_eq (b := b) (by omega)]
    simp [continuation]
  | 3, ⟨h₁, h₂, hb⟩ =>
    rw [if_neg (by omega), if_neg (by omega), if_neg (by omega), ofNat_eq (b := b) (by omega)]
    simp [continuation]

theorem exists_hasLead_of_isPrefix {c : Char} {b : UInt8} (h : [b] <+: utf8EncodeChar c) :
    ∃ n, HasLead c.toNat b n := by
  have hvalid : c.toNat.isValidChar := c.valid
  obtain ⟨a, n, ha⟩ := exists_hasLead (v := c.toNat) (by unfold Nat.isValidChar at hvalid; omega)
  rw [utf8EncodeChar_of_hasLead ha, List.cons_prefix_cons] at h
  obtain ⟨rfl, -⟩ := h
  exact ⟨n, ha⟩

/-! ## A character that was begun -/

namespace Pending

/-- The values that a character that was begun can still have: those whose next place, in base 64, is in
the bounds. -/
structure Admits (p : Pending) (v : Nat) : Prop where
  bits_eq : v / 64 ^ (p.owed - 1) / 64 = p.bits
  least_le : p.least ≤ v / 64 ^ (p.owed - 1) % 64 + 0x80
  le_greatest : v / 64 ^ (p.owed - 1) % 64 + 0x80 ≤ p.greatest

/-- The next byte is in the bounds. -/
abbrev Takes (p : Pending) (b : UInt8) : Prop :=
  p.least ≤ b.toNat ∧ b.toNat ≤ p.greatest

/-- What is remembered of a character after these bytes of it.  It admits exactly the characters whose
encodings begin with them. -/
structure Spells (p : Pending) (front : List UInt8) : Prop where
  head?_eq : front.head? = some p.first
  length_eq : front.length = p.read
  owed_pos : 0 < p.owed
  le_least : 0x80 ≤ p.least
  least_le : p.least ≤ p.greatest
  le_greatest : p.greatest ≤ 0xBF
  admits : ∀ c : Char, front <+: utf8EncodeChar c → p.Admits c.toNat
  isChar : ∀ v, p.Admits v → ∃ c : Char, c.toNat = v ∧
    utf8EncodeChar c = front ++ continuation v p.owed

/-- What is remembered after one more byte. -/
def next (p : Pending) (b : UInt8) : Pending :=
  ⟨p.first, p.read + 1, p.bits * 64 + (b.toNat - 0x80), p.owed - 1, 0x80, 0xBF⟩

theorem admits_mk_iff {b : UInt8} {read bits owed least greatest v : Nat} :
    (Pending.mk b read bits (owed + 1) least greatest).Admits v ↔
      v / 64 ^ owed / 64 = bits ∧ least ≤ v / 64 ^ owed % 64 + 0x80 ∧
        v / 64 ^ owed % 64 + 0x80 ≤ greatest :=
  ⟨fun ⟨h₁, h₂, h₃⟩ => ⟨h₁, h₂, h₃⟩, fun ⟨h₁, h₂, h₃⟩ => ⟨h₁, h₂, h₃⟩⟩

end Pending

theorem admits_iff_of_begin? {b : UInt8} {p : Pending} (h : begin? b = some p) (v : Nat) :
    p.Admits v ↔ v.isValidChar ∧ HasLead v b p.owed := by
  unfold begin? at h
  dsimp only at h
  unfold Nat.isValidChar
  -- a case for each row of first bytes: its bounds leave out longer spellings, surrogates and no code points
  split_ifs at h <;> cases h <;> rw [Pending.admits_mk_iff] <;> simp only [HasLead] <;> omega

theorem begin?_eq_none_iff {b : UInt8} : begin? b = none ↔ b.toNat < 0xC2 ∨ 0xF4 < b.toNat := by
  unfold begin?
  dsimp only
  split_ifs <;> simp only [true_iff, false_iff] <;> omega

/-- A first byte that begins a character leaves those that have it as their first byte. -/
theorem spells_of_begin? {b : UInt8} {p : Pending} (h : begin? b = some p) : p.Spells [b] := by
  have hadmits := admits_iff_of_begin? h
  have hrow : p.first = b ∧ p.read = 1 ∧ 0x80 ≤ p.least ∧ p.least ≤ p.greatest ∧ p.greatest ≤ 0xBF ∧
      (p.owed = 1 ∧ 0xC0 ≤ b.toNat ∧ b.toNat < 0xE0 ∨ p.owed = 2 ∧ 0xE0 ≤ b.toNat ∧ b.toNat < 0xF0 ∨
        p.owed = 3 ∧ 0xF0 ≤ b.toNat) := by
    unfold begin? at h
    dsimp only at h
    split_ifs at h <;> cases h <;> refine ⟨rfl, rfl, ?_⟩ <;> dsimp only <;> omega
  obtain ⟨hfirst, hread, hlow, hle, hhigh, howed⟩ := hrow
  refine
    { head?_eq := by rw [hfirst, List.head?_cons]
      length_eq := by rw [hread, List.length_singleton]
      owed_pos := by omega
      le_least := hlow
      least_le := hle
      le_greatest := hhigh
      admits := ?admits
      isChar := ?isChar }
  case admits =>
    intro c hc
    obtain ⟨n, hlead⟩ := exists_hasLead_of_isPrefix hc
    have hrange := hlead.range
    have hn : p.owed = n := by omega
    exact (hadmits _).mpr ⟨c.valid, hn ▸ hlead⟩
  case isChar =>
    intro v hv
    obtain ⟨hvalid, hlead⟩ := (hadmits v).mp hv
    have hc := toNat_ofNat hvalid
    refine ⟨Char.ofNat v, hc, ?_⟩
    rw [← hc] at hlead
    rw [utf8EncodeChar_of_hasLead hlead, hc]
    rfl

namespace Pending

variable {p : Pending} {front : List UInt8} {b : UInt8}

theorem admits_next_iff {v : Nat} (howed : 1 < p.owed) (hlow : 0x80 ≤ p.least)
    (hhigh : p.greatest ≤ 0xBF) (hb : p.Takes b) :
    (p.next b).Admits v ↔ p.Admits v ∧ v / 64 ^ (p.owed - 1) % 64 + 0x80 = b.toNat := by
  obtain ⟨first, read, bits, owed, least, greatest⟩ := p
  obtain ⟨n, rfl⟩ : ∃ n, owed = n + 2 := ⟨owed - 2, by dsimp only at howed; omega⟩
  obtain ⟨hge, hle⟩ := hb
  dsimp only at hlow hhigh hge hle
  have hplace : v / 64 ^ (n + 1) = v / 64 ^ n / 64 := by
    rw [Nat.pow_succ, Nat.div_div_eq_div_mul]
  show (Pending.mk _ _ _ (n + 1) _ _).Admits v ↔ _
  rw [admits_mk_iff, admits_mk_iff]
  dsimp only
  rw [show n + 2 - 1 = n + 1 from rfl, hplace]
  omega

namespace Spells

variable (h : p.Spells front)

include h

theorem fault_eq (start : Nat) (reason : Reason) :
    p.fault (start + front.length) reason = ⟨start, p.first, front.length, reason⟩ := by
  rw [fault, ← h.length_eq, Nat.add_sub_cancel]

theorem utf8EncodeChar_eq {c : Char} (hc : front <+: utf8EncodeChar c) :
    utf8EncodeChar c = front ++
      UInt8.ofNat (c.toNat / 64 ^ (p.owed - 1) % 64 + 0x80) :: continuation c.toNat (p.owed - 1) := by
  obtain ⟨d, hd, hchar⟩ := h.isChar _ (h.admits c hc)
  obtain rfl : d = c := Char.toNat_inj.mp hd
  rw [hchar, continuation_of_pos h.owed_pos]

/-- A character that goes on with this byte is one of those that are admitted. -/
theorem place_eq {c : Char} (hc : front ++ [b] <+: utf8EncodeChar c) :
    p.Admits c.toNat ∧ c.toNat / 64 ^ (p.owed - 1) % 64 + 0x80 = b.toNat := by
  have hfront : front <+: utf8EncodeChar c := (List.prefix_append front [b]).trans hc
  rw [h.utf8EncodeChar_eq hfront, List.prefix_append_right_inj, List.cons_prefix_cons] at hc
  exact ⟨h.admits c hfront, ofNat_place_eq_iff.mp hc.1.symm⟩

/-- If the next byte is out of the bounds, no character is left. -/
theorem not_isPrefix (hb : ¬p.Takes b) (c : Char) : ¬front ++ [b] <+: utf8EncodeChar c := by
  intro hc
  obtain ⟨hadmits, hplace⟩ := h.place_eq hc
  exact hb ⟨hplace ▸ hadmits.least_le, hplace ▸ hadmits.le_greatest⟩

/-- A byte in the bounds that is the last one makes a character. -/
theorem utf8EncodeChar_eq_append (howed : p.owed = 1) (hb : p.Takes b) :
    utf8EncodeChar (Char.ofNat (p.bits * 64 + (b.toNat - 0x80))) = front ++ [b] := by
  have hlow := h.le_least
  have hhigh := h.le_greatest
  have hadmits : p.Admits (p.bits * 64 + (b.toNat - 0x80)) := by
    refine ⟨?_, ?_, ?_⟩ <;> rw [howed, Nat.sub_self, Nat.pow_zero, Nat.div_one] <;> omega
  obtain ⟨c, hc, hchar⟩ := h.isChar _ hadmits
  have hplace : (p.bits * 64 + (b.toNat - 0x80)) % 64 + 0x80 = b.toNat := by omega
  rw [← hc, Char.ofNat_toNat, hchar, howed, continuation, Nat.pow_zero, Nat.div_one,
    ofNat_place_eq_iff.mpr hplace]
  rfl

/-- A byte in the bounds that is not the last one leaves those that go on with it. -/
theorem spells_next (howed : 1 < p.owed) (hb : p.Takes b) :
    (p.next b).Spells (front ++ [b]) := by
  have hadmits := fun v => admits_next_iff (v := v) howed h.le_least h.le_greatest hb
  refine
    { head?_eq := ?head
      length_eq := by rw [List.length_append, h.length_eq]; rfl
      owed_pos := Nat.sub_pos_of_lt howed
      le_least := Nat.le_refl _
      least_le := (by decide : 0x80 ≤ 0xBF)
      le_greatest := Nat.le_refl _
      admits := ?admits
      isChar := ?isChar }
  case head =>
    rw [List.head?_append, h.head?_eq]
    rfl
  case admits =>
    intro c hc
    exact (hadmits _).mpr (h.place_eq hc)
  case isChar =>
    intro v hv
    obtain ⟨hp, hplace⟩ := (hadmits v).mp hv
    obtain ⟨c, rfl, hchar⟩ := h.isChar v hp
    refine ⟨c, rfl, ?_⟩
    rw [hchar, continuation_of_pos h.owed_pos, ofNat_place_eq_iff.mpr hplace, List.append_cons]
    rfl

/-- Some character is left, and it has more bytes. -/
theorem isPart : IsPart front := by
  have hlow := h.le_least
  have hhigh := h.le_greatest
  have hle := h.least_le
  have hadmits : p.Admits ((p.bits * 64 + (p.least - 0x80)) * 64 ^ (p.owed - 1)) := by
    refine ⟨?_, ?_, ?_⟩ <;> rw [Nat.mul_div_cancel _ (Nat.pow_pos (by decide))] <;> omega
  obtain ⟨c, -, hchar⟩ := h.isChar _ hadmits
  refine ⟨c, ⟨_, hchar.symm⟩, ?_⟩
  rw [hchar, continuation_of_pos h.owed_pos]
  simp

end Spells

end Pending

end AreaAtlas.Utf8

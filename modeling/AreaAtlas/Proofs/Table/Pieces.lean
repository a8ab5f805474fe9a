import AreaAtlas.Proofs.Table.Refusal

/-!
# Pieces of a table

A table can be read piece by piece: `Scan.pass` tells which records end in a piece and where the reader is
behind it.  Pieces that are put behind one another are read one after the other, `pass_append`, and a table
is what its front holds and then what the reader makes of the rest, `scan_append`.

Lines are only counted along, so behind more lines the same is read, `scan_below`.  What stands in front of
a piece of whole lines then matters to it only if it leaves a quoted cell open, `exists_pass_eq_start`.
-/

namespace AreaAtlas.Table

/-- A record behind so many more lines. -/
def Record.below (lines : Nat) (r : Record) : Record :=
  { r with line := r.line + lines }

namespace Scan

/-- The reader behind so many more lines. -/
def below (lines : Nat) (s : Scan) : Scan :=
  { s with lines := s.lines + lines }

/-- Read a character: the record that ends with it, if one does, and the reader behind it. -/
def next (s : Scan) (c : Char) : Except Fault (List Record × Scan) :=
  if c = '\n' ∧ s.phase ≠ .quoted then .ok ([(s.countLine c).close], .start (s.countLine c).lines)
  else ((s.countLine c).read c).map fun s => ([], s)

/-- Read a piece of a table: the records that end in it, and the reader behind it. -/
def pass (s : Scan) : List Char → Except Fault (List Record × Scan)
  | [] => .ok ([], s)
  | c :: rest => s.next c >>= fun p => (p.2.pass rest).map fun q => (p.1 ++ q.1, q.2)

variable {s s' t : Scan} {c : Char} {front behind text : List Char} {done rs rs' : List Record}
  {fault : Fault}

/-! ## One character -/

@[simp] theorem phase_countLine (s : Scan) (c : Char) : (s.countLine c).phase = s.phase := rfl

/-- A line feed that is not in a quoted cell ends the record. -/
theorem next_lineFeed (h : s.phase ≠ .quoted) :
    s.next '\n' = .ok ([(s.countLine '\n').close], .start (s.countLine '\n').lines) :=
  if_pos ⟨rfl, h⟩

theorem next_of_ne (h : c ≠ '\n') : s.next c = ((s.countLine c).read c).map fun s => ([], s) :=
  if_neg fun hc => h hc.1

theorem next_of_quoted (h : s.phase = .quoted) :
    s.next c = ((s.countLine c).read c).map fun s => ([], s) :=
  if_neg fun hc => hc.2 h

/-! ## Pieces behind one another -/

@[simp] theorem pass_nil (s : Scan) : s.pass [] = .ok ([], s) := rfl

theorem pass_cons_eq_ok_iff : s.pass (c :: text) = .ok (rs, s') ↔
    ∃ now t later, s.next c = .ok (now, t) ∧ t.pass text = .ok (later, s') ∧ rs = now ++ later := by
  show (s.next c >>= fun p => (p.2.pass text).map fun q => (p.1 ++ q.1, q.2)) = _ ↔ _
  simp only [Except.bind_eq_ok_iff, Except.map_eq_ok_iff, Prod.exists, Prod.mk.injEq]
  constructor
  · rintro ⟨now, t, hnext, later, _, hpass, rfl, rfl⟩
    exact ⟨now, t, later, hnext, hpass, rfl⟩
  · rintro ⟨now, t, later, hnext, hpass, rfl⟩
    exact ⟨now, t, hnext, later, _, hpass, rfl, rfl⟩

theorem pass_singleton (c : Char) : s.pass [c] = s.next c := by
  show (s.next c >>= fun p => (Except.ok ([], p.2)).map fun q => (p.1 ++ q.1, q.2)) = _
  cases s.next c with
  | error fault => rfl
  | ok p => simp [Except.map, bind, Except.bind]

/-- **Pieces are read one after the other.** -/
theorem pass_append : s.pass (front ++ behind) = .ok (rs, s') ↔
    ∃ now t later, s.pass front = .ok (now, t) ∧ t.pass behind = .ok (later, s') ∧
      rs = now ++ later := by
  induction front generalizing s rs with
  | nil => simp
  | cons c front ih =>
    rw [List.cons_append, pass_cons_eq_ok_iff]
    simp only [pass_cons_eq_ok_iff, ih]
    constructor
    · rintro ⟨now, t, _, hnext, ⟨later, u, last, hfront, hbehind, rfl⟩, rfl⟩
      exact ⟨_, u, last, ⟨now, t, later, hnext, hfront, rfl⟩, hbehind, (List.append_assoc ..).symm⟩
    · rintro ⟨_, u, last, ⟨now, t, later, hnext, hfront, rfl⟩, hbehind, rfl⟩
      exact ⟨now, t, _, hnext, ⟨later, u, last, hfront, hbehind, rfl⟩, List.append_assoc ..⟩

theorem scan_cons (done : List Record) (s : Scan) (c : Char) (rest : List Char) :
    scan done s (c :: rest) = match s.next c with
      | .ok p => scan (p.1.reverse ++ done) p.2 rest
      | .error fault => ⟨done.reverse, some fault⟩ := by
  by_cases h : c = '\n' ∧ s.phase ≠ .quoted
  · have hnext : s.next c = .ok ([(s.countLine c).close], .start (s.countLine c).lines) := if_pos h
    rw [hnext]
    exact if_pos h
  · have hnext : s.next c = ((s.countLine c).read c).map fun s => ([], s) := if_neg h
    rw [hnext]
    refine (if_neg h).trans ?_
    cases (s.countLine c).read c with
    | error fault => rfl
    | ok t => rfl

/-- **A table behind a piece that is read.** -/
theorem scan_append (h : s.pass front = .ok (rs, s')) (done : List Record) (behind : List Char) :
    scan done s (front ++ behind) = scan (rs.reverse ++ done) s' behind := by
  induction front generalizing s rs done with
  | nil =>
    cases h
    rfl
  | cons c front ih =>
    obtain ⟨now, t, later, hnext, hpass, rfl⟩ := pass_cons_eq_ok_iff.mp h
    rw [List.cons_append, scan_cons, hnext]
    dsimp only
    rw [ih hpass, List.reverse_append, List.append_assoc]

/-- A table is refused where a piece of it is. -/
theorem fault_scan_append (h : s.pass front = .error fault) (done : List Record)
    (behind : List Char) : (scan done s (front ++ behind)).fault = some fault := by
  induction front generalizing s done with
  | nil => cases h
  | cons c front ih =>
    rw [List.cons_append, scan_cons]
    have h : (s.next c >>= fun p => (p.2.pass front).map fun q => (p.1 ++ q.1, q.2)) = .error fault := h
    cases hnext : s.next c with
    | error other =>
      rw [hnext] at h
      cases h
      rfl
    | ok p =>
      rw [hnext] at h
      have h : (p.2.pass front).map (fun q => (p.1 ++ q.1, q.2)) = .error fault := h
      apply ih
      cases hpass : p.2.pass front with
      | error other =>
        rw [hpass] at h
        cases h
        rfl
      | ok q =>
        rw [hpass] at h
        cases h

/-- The records that have been read before stay in front. -/
theorem scan_done (done : List Record) (s : Scan) (text : List Char) :
    scan done s text = ⟨done.reverse ++ (scan [] s text).records, (scan [] s text).fault⟩ := by
  induction text generalizing done s with
  | nil =>
    unfold scan
    split
    · simp
    · simp
  | cons c rest ih =>
    rw [scan_cons, scan_cons]
    cases s.next c with
    | error fault => simp
    | ok p =>
      dsimp only
      rw [ih, ih (p.1.reverse ++ [])]
      simp

/-! ## Counted lines -/

theorem close_below (lines : Nat) (s : Scan) : (s.below lines).close = s.close.below lines := by
  obtain ⟨phase, cell, size, cells, counted, atLineStart⟩ := s
  cases phase with
  | recordStart => rfl
  | ended => rfl
  | _ => rfl

theorem countLine_below (lines : Nat) (s : Scan) (c : Char) :
    (s.below lines).countLine c = (s.countLine c).below lines := by
  unfold countLine below
  dsimp only
  split
  · rw [Nat.add_right_comm]
  · rfl

theorem add_below (lines : Nat) (s : Scan) (phase : Phase) (c : Char) :
    (s.below lines).add phase c = (s.add phase c).map (below lines) := by
  unfold add
  show (if s.size < maxCellSize then _ else _) = _
  split
  · rfl
  · rfl

theorem read_below (lines : Nat) (s : Scan) (c : Char) :
    (s.below lines).read c = (s.read c).map (below lines) := by
  have hbegin : (s.below lines).beginCell c = (s.beginCell c).map (below lines) := by
    unfold beginCell
    rw [add_below]
    repeat' split
    all_goals rfl
  have hphase : (s.below lines).phase = s.phase := rfl
  unfold read
  rw [hphase, hbegin]
  simp only [add_below]
  cases s.phase with
  | cellStart => rfl
  | _ =>
    dsimp only
    repeat' split
    all_goals rfl

theorem next_below (lines : Nat) (s : Scan) (c : Char) :
    (s.below lines).next c
      = (s.next c).map fun p => (p.1.map (Record.below lines), p.2.below lines) := by
  unfold next
  rw [countLine_below, close_below, read_below]
  show (if c = '\n' ∧ s.phase ≠ .quoted then _ else _) = _
  split
  · rfl
  · cases (s.countLine c).read c with
    | error fault => rfl
    | ok t => rfl

theorem pass_below (lines : Nat) (h : s.pass text = .ok (rs, s')) :
    (s.below lines).pass text = .ok (rs.map (Record.below lines), s'.below lines) := by
  induction text generalizing s rs with
  | nil =>
    cases h
    rfl
  | cons c rest ih =>
    obtain ⟨now, t, later, hnext, hpass, rfl⟩ := pass_cons_eq_ok_iff.mp h
    apply pass_cons_eq_ok_iff.mpr
    refine ⟨_, _, _, ?_, ih hpass, List.map_append⟩
    rw [next_below, hnext]
    rfl

/-- **Behind more lines the same is read**, with the lines counted along. -/
theorem scan_below (lines : Nat) (done : List Record) (s : Scan) (text : List Char) :
    scan (done.map (Record.below lines)) (s.below lines) text
      = ⟨(scan done s text).records.map (Record.below lines), (scan done s text).fault⟩ := by
  induction text generalizing done s with
  | nil =>
    unfold scan
    rw [close_below]
    show (⟨(if s.phase = .recordStart then _ else _ : List Record).reverse, none⟩ : Records) = _
    split
    · simp
    · simp
  | cons c rest ih =>
    rw [scan_cons, scan_cons, next_below]
    cases s.next c with
    | error fault => simp [Except.map]
    | ok p =>
      show scan ((p.1.map (Record.below lines)).reverse ++ done.map (Record.below lines))
        (p.2.below lines) rest = _
      rw [← List.map_reverse, ← List.map_append, ih]

end Scan

open Scan

/-! ## Whole lines -/

/-- Nothing, or a piece of a table that ends in a line feed. -/
def EndsLine (text : List Char) : Prop :=
  text = [] ∨ text.getLast? = some '\n'

/-- A quoted cell is open behind a piece of a table. -/
def LeavesOpen (text : List Char) : Prop :=
  ∃ records s, (Scan.start 0).pass text = .ok (records, s) ∧ s.phase = .quoted

/-- Behind a line feed a record begins, unless a quoted cell is open. -/
theorem exists_eq_start_of_next {s t : Scan} {rs : List Record} (h : s.next '\n' = .ok (rs, t)) :
    t.phase = .quoted ∨ ∃ lines, t = .start lines := by
  by_cases hphase : s.phase = .quoted
  · rw [next_of_quoted hphase] at h
    obtain ⟨u, hread, heq⟩ := Except.map_eq_ok_iff.mp h
    obtain ⟨-, rfl⟩ := Prod.mk.inj heq
    left
    -- within quotes a line feed is text
    have hadd : (s.countLine '\n').read '\n' = (s.countLine '\n').add .quoted '\n' := by
      unfold Scan.read
      rw [phase_countLine, hphase]
      rfl
    rw [hadd] at hread
    exact (add_eq_ok hread).1
  · rw [next_lineFeed hphase] at h
    cases h
    exact Or.inr ⟨_, rfl⟩

/-- **Behind whole lines a record begins**, unless a quoted cell is open. -/
theorem exists_pass_eq_start {text : List Char} {p : List Record × Scan}
    (hpass : (Scan.start 0).pass text = .ok p) (hends : EndsLine text) (hopen : ¬LeavesOpen text) :
    ∃ records lines, (Scan.start 0).pass text = .ok (records, .start lines) := by
  rcases hends with rfl | hlast
  · exact ⟨[], 0, rfl⟩
  · obtain ⟨front, rfl⟩ := List.getLast?_eq_some_iff.mp hlast
    obtain ⟨now, t, later, -, hlater, hrecords⟩ := pass_append.mp hpass
    rw [pass_singleton] at hlater
    rcases exists_eq_start_of_next hlater with hphase | ⟨lines, hstart⟩
    · exact absurd ⟨p.1, p.2, hpass, hphase⟩ hopen
    · exact ⟨p.1, lines, by rw [hpass, ← hstart]⟩

theorem start_below (lines more : Nat) : (Scan.start lines).below more = .start (lines + more) := rfl

end AreaAtlas.Table

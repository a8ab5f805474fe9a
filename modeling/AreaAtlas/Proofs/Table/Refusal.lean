import AreaAtlas.Graph.Build
import AreaAtlas.Proofs.Reading
import Mathlib.Data.List.Infix

/-!
# Tables that are refused

A table is refused at the first character that cannot be read.  The text then has a carriage return within
a line, or more characters than a cell may have: `cases_of_fault`.  The first is told by the character in
front of the one that is refused, the second by the characters since its cell began.  A refused location
table is the one thing that keeps documents from being read without being a fault of a document,
`Graph.build_eq_error_table_iff`.
-/

namespace AreaAtlas

namespace Table

/-- Something other than a line end stands behind a carriage return. -/
def HasStrayReturn (text : List Char) : Prop :=
  ∃ front c behind, text = front ++ '\r' :: c :: behind ∧ c ≠ '\r' ∧ c ≠ '\n'

/-- There are more characters than a cell may have, and if none is a quote so many stand in one cell. -/
def HasLongCell (text : List Char) : Prop :=
  maxCellSize < text.length ∧ ('"' ∉ text →
    ∃ part, part <:+: text ∧ maxCellSize < part.length ∧ ∀ c ∈ part, c ≠ ',' ∧ c ≠ '\n')

/-- A phase of a cell that is not between quotes. -/
def Phase.IsUnquoted (phase : Phase) : Prop :=
  phase ≠ .quoted ∧ phase ≠ .quoteSeen

instance (phase : Phase) : Decidable phase.IsUnquoted :=
  inferInstanceAs (Decidable (_ ∧ _))

namespace Scan

/-! ## Single characters -/

/-- What reading a character comes to. -/
inductive Step (s : Scan) (c : Char) : Except Fault Scan → Prop
  /-- The cell is closed; a carriage return also ends the record. -/
  | save {phase : Phase} : (phase = .ended → c = '\r') → phase.IsUnquoted →
      Step s c (.ok (s.save phase))
  /-- The character does not count; a quote may begin a cell between quotes. -/
  | enter {phase : Phase} : (phase = .ended → c = '\r') →
      (c ≠ '"' → s.phase.IsUnquoted → phase.IsUnquoted) → c ≠ ',' → Step s c (.ok (s.enter phase))
  /-- The character is added to the cell; a comma only between quotes. -/
  | add {phase : Phase} : phase ≠ .ended → (s.phase.IsUnquoted → phase.IsUnquoted) →
      (s.phase.IsUnquoted → c ≠ ',') → Step s c (s.add phase c)
  /-- The record has ended, but not its line. -/
  | stray : s.phase = .ended → c ≠ '\r' → Step s c (.error .strayReturn)

variable {s s' : Scan} {c : Char} {fault : Fault}

theorem step_beginCell (s : Scan) (c : Char) : s.Step c (s.beginCell c) := by
  unfold beginCell
  split
  · next hc => exact .save (fun _ => hc) (by decide)
  · split
    · next hc => exact .enter (by simp) (fun hne => absurd hc hne) (by rw [hc]; decide)
    · split
      · next hc => exact .enter (by simp) (fun _ _ => by decide) (by rw [hc]; decide)
      · split
        · exact .save (by simp) (by decide)
        · next hcomma => exact .add (by decide) (fun _ => by decide) (fun _ => hcomma)

/-- **Reading a character**, whatever it is part of. -/
theorem step_read (s : Scan) (c : Char) : s.Step c (s.read c) := by
  obtain ⟨phase, cell, size, cells, lines, atLineStart⟩ := s
  cases phase with
  | recordStart =>
    show Step _ c (if c = '\r' then _ else _)
    split
    · next hc => exact .enter (fun _ => hc) (fun _ _ => by decide) (by rw [hc]; decide)
    · exact step_beginCell _ c
  | cellStart => exact step_beginCell _ c
  | bare =>
    show Step _ c (if c = '\r' then _ else _)
    split
    · next hc => exact .save (fun _ => hc) (by decide)
    · split
      · exact .save (by simp) (by decide)
      · next hcomma => exact .add (by decide) (fun _ => by decide) (fun _ => hcomma)
  | quoted =>
    have hquoted : ¬Phase.quoted.IsUnquoted := by decide
    show Step _ c (if c = '"' then _ else _)
    split
    · next hc => exact .enter (by simp) (fun hne => absurd hc hne) (by rw [hc]; decide)
    · exact .add (by decide) (fun hs => absurd hs hquoted) (fun hs => absurd hs hquoted)
  | quoteSeen =>
    have hquoted : ¬Phase.quoteSeen.IsUnquoted := by decide
    show Step _ c (if c = '\r' then _ else _)
    split
    · next hc => exact .save (fun _ => hc) (by decide)
    · split
      · exact .add (by decide) (fun hs => absurd hs hquoted) (fun hs => absurd hs hquoted)
      · split
        · exact .save (by simp) (by decide)
        · exact .add (by decide) (fun _ => by decide) (fun hs => absurd hs hquoted)
  | ended =>
    show Step _ c (if c = '\r' then .ok (enter ⟨.ended, cell, size, cells, lines, atLineStart⟩ .ended)
      else .error .strayReturn)
    split
    · next hc => exact .enter (fun _ => hc) (fun _ hs => hs) (by rw [hc]; decide)
    · next hc => exact .stray rfl hc

/-- What a character that is read does. -/
structure Reads (s : Scan) (c : Char) (s' : Scan) : Prop where
  /-- Only a carriage return ends a record. -/
  ended : s'.phase = .ended → c = '\r'
  /-- The cell grows by one character at most. -/
  size_le : s'.size ≤ s.size + 1
  /-- Only a quote begins a cell between quotes. -/
  unquoted : c ≠ '"' → s.phase.IsUnquoted → s'.phase.IsUnquoted
  /-- Outside quotes a comma closes the cell. -/
  comma : s.phase.IsUnquoted → c = ',' → s'.size = 0

theorem add_eq_ok {phase : Phase} (h : s.add phase c = .ok s') :
    s'.phase = phase ∧ s'.size = s.size + 1 := by
  unfold add at h
  split at h
  · cases h
    exact ⟨rfl, rfl⟩
  · cases h

theorem add_eq_error {phase : Phase} (h : s.add phase c = .error fault) :
    fault = .cellTooLong ∧ maxCellSize ≤ s.size := by
  unfold add at h
  split at h
  · cases h
  · next hsize =>
    cases h
    exact ⟨rfl, Nat.not_lt.mp hsize⟩

theorem reads_of_read (h : s.read c = .ok s') : s.Reads c s' := by
  have hstep := step_read s c
  generalize s.read c = result at hstep h
  cases hstep with
  | save hended hphase =>
    cases h
    exact ⟨hended, Nat.zero_le _, fun _ _ => hphase, fun _ _ => rfl⟩
  | enter hended hphase hcomma =>
    cases h
    exact ⟨hended, Nat.le_succ _, hphase, fun _ hc => absurd hc hcomma⟩
  | add hended hphase hcomma =>
    obtain ⟨rfl, hsize⟩ := add_eq_ok h
    exact ⟨fun he => absurd he hended, hsize.le, fun _ hs => hphase hs,
      fun hs hc => absurd hc (hcomma hs)⟩
  | stray => cases h

/-- A character is refused behind the end of a record, or because its cell is full. -/
theorem cases_of_read_eq_error (h : s.read c = .error fault) :
    fault = .strayReturn ∧ s.phase = .ended ∧ c ≠ '\r' ∨
      fault = .cellTooLong ∧ maxCellSize ≤ s.size ∧ (s.phase.IsUnquoted → c ≠ ',') := by
  have hstep := step_read s c
  generalize s.read c = result at hstep h
  cases hstep with
  | save => cases h
  | enter => cases h
  | add _ _ hcomma =>
    obtain ⟨rfl, hsize⟩ := add_eq_error h
    exact Or.inr ⟨rfl, hsize, hcomma⟩
  | stray hphase hc =>
    cases h
    exact Or.inl ⟨rfl, hphase, hc⟩

end Scan

open Scan

/-! ## Whole texts -/

theorem HasStrayReturn.cons {text : List Char} (h : HasStrayReturn text) (c : Char) :
    HasStrayReturn (c :: text) := by
  obtain ⟨front, d, behind, rfl, hd⟩ := h
  exact ⟨c :: front, d, behind, rfl, hd⟩

/-- A stray carriage return is one of the text, or the record had ended before. -/
theorem hasStrayReturn_of_scan {done : List Record} {s : Scan} {text : List Char}
    (h : (scan done s text).fault = some .strayReturn) :
    HasStrayReturn text ∨
      s.phase = .ended ∧ ∃ c behind, text = c :: behind ∧ c ≠ '\r' ∧ c ≠ '\n' := by
  induction text generalizing done s with
  | nil => cases h
  | cons c rest ih =>
    unfold scan at h
    dsimp only at h
    split at h
    · rcases ih h with hrest | ⟨hphase, -⟩
      · exact Or.inl (hrest.cons c)
      · cases hphase
    · next hline =>
      split at h
      · next s' hread =>
        rcases ih h with hrest | ⟨hphase, d, behind, rfl, hd⟩
        · exact Or.inl (hrest.cons c)
        · -- the record ends with this character
          obtain rfl := (reads_of_read hread).ended hphase
          exact Or.inl ⟨[], d, behind, rfl, hd⟩
      · next fault hread =>
        obtain rfl := Option.some.inj h
        rcases cases_of_read_eq_error hread with ⟨-, hphase, hc⟩ | ⟨hfault, -⟩
        · have hphase : s.phase = .ended := hphase
          have hnewline : c ≠ '\n' := by
            intro hc
            refine hline ⟨hc, ?_⟩
            show s.phase ≠ .quoted
            rw [hphase]
            decide
          exact Or.inr ⟨hphase, c, rest, rfl, hc, hnewline⟩
        · cases hfault

/-- A cell that is too long takes up so many characters. -/
theorem lt_length_of_scan {done : List Record} {s : Scan} {text : List Char}
    (h : (scan done s text).fault = some .cellTooLong) : maxCellSize < s.size + text.length := by
  induction text generalizing done s with
  | nil => cases h
  | cons c rest ih =>
    unfold scan at h
    dsimp only at h
    rw [List.length_cons]
    split at h
    · have hrest := ih h
      have hstart : (start (s.countLine c).lines).size = 0 := rfl
      omega
    · split at h
      · next s' hread =>
        have hrest := ih h
        have hsize : s'.size ≤ s.size + 1 := (reads_of_read hread).size_le
        omega
      · next fault hread =>
        obtain rfl := Option.some.inj h
        rcases cases_of_read_eq_error hread with ⟨hfault, -⟩ | ⟨-, hsize, -⟩
        · cases hfault
        · have hsize : maxCellSize ≤ s.size := hsize
          omega

/-- Without quotes it takes up a part of the text without commas and line feeds; `run` is what of it has
been read. -/
theorem exists_part_of_scan {done : List Record} {s : Scan} {text : List Char} (run : List Char)
    (h : (scan done s text).fault = some .cellTooLong) (hquote : '"' ∉ text)
    (hphase : s.phase.IsUnquoted) (hsize : s.size ≤ run.length)
    (hrun : ∀ c ∈ run, c ≠ ',' ∧ c ≠ '\n') :
    ∃ part, part <:+: run ++ text ∧ maxCellSize < part.length ∧ ∀ c ∈ part, c ≠ ',' ∧ c ≠ '\n' := by
  induction text generalizing done s run with
  | nil => cases h
  | cons c rest ih =>
    obtain ⟨hc, hquote⟩ := not_or.mp (fun hmem => hquote (List.mem_cons.mpr hmem))
    have hbehind : ∀ {part}, part <:+: rest → part <:+: run ++ c :: rest := by
      intro part hpart
      obtain ⟨front, back, rfl⟩ := hpart
      exact ⟨run ++ c :: front, back, by simp⟩
    unfold scan at h
    dsimp only at h
    split at h
    · have hstart : Phase.recordStart.IsUnquoted := by decide
      obtain ⟨part, hpart, hlong⟩ :=
        ih [] h hquote hstart (Nat.le_refl 0) (List.forall_mem_nil _)
      exact ⟨part, hbehind hpart, hlong⟩
    · next hline =>
      have hnewline : c ≠ '\n' := fun hc => hline ⟨hc, hphase.1⟩
      split at h
      · next s' hread =>
        have hreads := reads_of_read hread
        have hphase' := hreads.unquoted (Ne.symm hc) hphase
        by_cases hcomma : c = ','
        · obtain ⟨part, hpart, hlong⟩ := ih [] h hquote hphase'
            (hreads.comma hphase hcomma).le (List.forall_mem_nil _)
          exact ⟨part, hbehind hpart, hlong⟩
        · have hsize' : s'.size ≤ (run ++ [c]).length := by
            have hle : s'.size ≤ s.size + 1 := hreads.size_le
            rw [List.length_append, List.length_singleton]
            omega
          have hrun' : ∀ d ∈ run ++ [c], d ≠ ',' ∧ d ≠ '\n' := by
            intro d hd
            rcases List.mem_append.mp hd with hd | hd
            · exact hrun d hd
            · rw [List.mem_singleton.mp hd]
              exact ⟨hcomma, hnewline⟩
          obtain ⟨part, hpart, hlong⟩ := ih (run ++ [c]) h hquote hphase' hsize' hrun'
          rw [← List.append_cons] at hpart
          exact ⟨part, hpart, hlong⟩
      · next fault hread =>
        obtain rfl := Option.some.inj h
        rcases cases_of_read_eq_error hread with ⟨hfault, -⟩ | ⟨-, hfull, hcomma⟩
        · cases hfault
        · have hfull : maxCellSize ≤ s.size := hfull
          refine ⟨run ++ [c], ?_, ?_, ?_⟩
          · exact ⟨[], rest, by simp⟩
          · rw [List.length_append, List.length_singleton]
            omega
          · intro d hd
            rcases List.mem_append.mp hd with hd | hd
            · exact hrun d hd
            · rw [List.mem_singleton.mp hd]
              exact ⟨hcomma hphase, hnewline⟩

/-- **Why a table is refused.** -/
theorem cases_of_fault {text : List Char} {fault : Fault} (h : (rows text).fault = some fault) :
    fault = .strayReturn ∧ HasStrayReturn text ∨ fault = .cellTooLong ∧ HasLongCell text := by
  have hscan : (scan [] (.start 0) text).fault = some fault := h
  cases fault with
  | strayReturn =>
    rcases hasStrayReturn_of_scan hscan with hstray | ⟨hphase, -⟩
    · exact Or.inl ⟨rfl, hstray⟩
    · cases hphase
  | cellTooLong =>
    refine Or.inr ⟨rfl, ?_, fun hquote => ?_⟩
    · have hlength := lt_length_of_scan hscan
      have hstart : (start 0).size = 0 := rfl
      omega
    · exact exists_part_of_scan [] hscan hquote (by decide) (Nat.le_refl 0)
        (List.forall_mem_nil _)

end Table

/-! ## Documents -/

/-- A location table is refused if its rows in front can be read. -/
theorem readLocations_eq_error_table_iff {text : List Char} {fault : Table.Fault} :
    readLocations text = .error (.table fault) ↔
      (∃ locations, Location.ofRows [] (Table.rows text).records = .ok locations) ∧
        (Table.rows text).fault = some fault := by
  unfold readLocations
  dsimp only
  cases Location.ofRows [] (Table.rows text).records with
  | error rowFault => simp [Except.mapError, bind, Except.bind]
  | ok locations =>
    cases (Table.rows text).fault with
    | none => simp [Except.mapError, bind, Except.bind, pure, Except.pure]
    | some tableFault => simp [Except.mapError, bind, Except.bind, throw, throwThe, MonadExceptOf.throw]

/-- **Building a graph fails because of a document or because the location table is refused.** -/
theorem Graph.build_eq_error_table_iff {areas locations : String} {fault : Table.Fault} :
    Graph.build areas locations = .error (.table fault) ↔
      readLocations locations.toList = .error (.table fault) := by
  have hstates : readStates "".toList = .ok [] := by decide +kernel
  unfold Graph.build Logic.readUnrestricted Logic.read
  cases hlocations : readLocations locations.toList with
  | error e => simp [bind, Except.bind, Except.map]
  | ok rows =>
    rw [hstates]
    cases hds : Areas.readDeclarations areas.toList with
    | error e => simp [Except.mapError, bind, Except.bind, Except.map]
    | ok ds =>
      cases hnodes : NodeTable.build ⟨rows, none⟩ .unrestricted ds with
      | error e => simp [hnodes, Except.mapError, bind, Except.bind, Except.map]
      | ok nodes => simp [hnodes, Except.mapError, bind, Except.bind, Except.map, pure, Except.pure]

end AreaAtlas

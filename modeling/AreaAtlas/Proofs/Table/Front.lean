import AreaAtlas.Proofs.Table.Pieces

/-!
# Fronts of a table

A record ends with a line or with the text, and what is read up to there is all that the reader has looked at:
`exists_cut` gives the front of the text that ends with a record.  The front taken for a table of its own holds
the records up to this one, `Cut.records`, and if it ends a line these are the first records whatever follows,
`Cut.exists_records_append`.  The line of a record is the number of lines of that front, `Cut.line_eq`, since
the reader counts a line when it meets its first character.
-/

namespace AreaAtlas.Table

instance (text : List Char) : Decidable (EndsLine text) :=
  inferInstanceAs (Decidable (_ ∨ _))

/-- The number of lines of a text; the last one may be without a line feed. -/
def countLines (text : List Char) : Nat :=
  text.count '\n' + if EndsLine text then 0 else 1

/-- A record ends with this front of a table, whatever follows. -/
def EndsRecord (front : List Char) : Prop :=
  front.getLast? = some '\n' ∧ ¬LeavesOpen front

theorem endsLine_append_singleton {front : List Char} {c : Char} : EndsLine (front ++ [c]) ↔ c = '\n' := by
  simp [EndsLine]

/-- A character begins a line behind a line feed, and at the front of the text. -/
theorem countLines_append_singleton (front : List Char) (c : Char) :
    countLines (front ++ [c]) = if EndsLine front then countLines front + 1 else countLines front := by
  unfold countLines
  rw [List.count_append, List.count_singleton]
  simp only [endsLine_append_singleton, beq_iff_eq]
  by_cases hfront : EndsLine front
  · by_cases hc : c = '\n'
    · simp [hfront, hc]
    · simp [hfront, hc]
  · by_cases hc : c = '\n'
    · simp [hfront, hc]
    · simp [hfront, hc]

namespace Scan

variable {s t : Scan} {c : Char} {front behind text : List Char} {rs earlier later : List Record}
  {record : Record}

/-! ## Lines counted along -/

/-- The reader has counted the lines of this text. -/
structure Counts (s : Scan) (front : List Char) : Prop where
  lines : s.lines = countLines front
  atLineStart : s.atLineStart = true ↔ EndsLine front

theorem counts_start : (start 0).Counts [] :=
  ⟨rfl, iff_of_true rfl (Or.inl rfl)⟩

theorem Counts.countLine (h : s.Counts front) (c : Char) : (s.countLine c).Counts (front ++ [c]) where
  lines := by
    rw [countLines_append_singleton, ← h.lines]
    show (if s.atLineStart then s.lines + 1 else s.lines) = _
    by_cases hstart : s.atLineStart = true
    · rw [if_pos hstart, if_pos (h.atLineStart.mp hstart)]
    · rw [if_neg hstart, if_neg (mt h.atLineStart.mpr hstart)]
  atLineStart := by
    rw [endsLine_append_singleton]
    exact decide_eq_true_iff

/-- Reading a character leaves the count as it is. -/
theorem Counts.read (h : s.Counts front) (hread : s.read c = .ok t) : t.Counts front := by
  have hstep := step_read s c
  generalize s.read c = result at hstep hread
  cases hstep with
  | save =>
    cases hread
    exact ⟨h.lines, h.atLineStart⟩
  | enter =>
    cases hread
    exact ⟨h.lines, h.atLineStart⟩
  | add =>
    unfold add at hread
    split at hread
    · cases hread
      exact ⟨h.lines, h.atLineStart⟩
    · cases hread
  | stray => cases hread

theorem Counts.next (h : s.Counts front) (hnext : s.next c = .ok (rs, t)) : t.Counts (front ++ [c]) := by
  have hcount := h.countLine c
  by_cases hc : c = '\n' ∧ s.phase ≠ .quoted
  · obtain ⟨rfl, hphase⟩ := hc
    rw [next_lineFeed hphase] at hnext
    cases hnext
    exact ⟨hcount.lines, iff_of_true rfl (endsLine_append_singleton.mpr rfl)⟩
  · have hstep : s.next c = ((s.countLine c).read c).map fun s => ([], s) := if_neg hc
    rw [hstep] at hnext
    obtain ⟨u, hread, heq⟩ := Except.map_eq_ok_iff.mp hnext
    cases heq
    exact hcount.read hread

/-- **Behind a piece the lines of it have been counted, too.** -/
theorem Counts.pass (h : s.Counts front) (hpass : s.pass text = .ok (rs, t)) :
    t.Counts (front ++ text) := by
  induction text generalizing s front rs with
  | nil =>
    cases hpass
    rwa [List.append_nil]
  | cons c rest ih =>
    obtain ⟨now, u, later, hnext, hlater, rfl⟩ := pass_cons_eq_ok_iff.mp hpass
    rw [List.append_cons]
    exact ih (h.next hnext) hlater

/-! ## Up to the end of a record -/

/-- A record ends with the front of a text, at a line feed or because nothing stands behind. -/
inductive Cut (s : Scan) (earlier : List Record) (record : Record) (front : List Char) :
    List Char → Prop
  | line {behind : List Char} : s.pass front = .ok (earlier ++ [record], .start record.line) →
      front.getLast? = some '\n' → Cut s earlier record front behind
  | text {t : Scan} : s.pass front = .ok (earlier, t) → t.phase ≠ .recordStart → record = t.close →
      Cut s earlier record front []

theorem line_close (s : Scan) : s.close.line = s.lines := by
  unfold close
  cases s.phase with
  | _ => rfl

/-- What ends behind a character ends behind the piece that it begins, too. -/
theorem Cut.cons (hnext : s.next c = .ok (rs, t)) (h : t.Cut earlier record front behind) :
    s.Cut (rs ++ earlier) record (c :: front) behind := by
  cases h with
  | line hpass hlast =>
    refine .line (pass_cons_eq_ok_iff.mpr ⟨_, _, _, hnext, hpass, List.append_assoc ..⟩) ?_
    obtain ⟨init, rfl⟩ := List.getLast?_eq_some_iff.mp hlast
    rw [← List.cons_append, List.getLast?_concat]
  | text hpass hphase hrecord =>
    exact .text (pass_cons_eq_ok_iff.mpr ⟨_, _, _, hnext, hpass, rfl⟩) hphase hrecord

/-- A character ends the record at most, and the reader is then where a record begins. -/
theorem cases_of_next (hnext : s.next c = .ok (rs, t)) :
    rs = [] ∨ ∃ record, rs = [record] ∧ c = '\n' ∧ t = .start record.line := by
  by_cases hc : c = '\n' ∧ s.phase ≠ .quoted
  · obtain ⟨rfl, hphase⟩ := hc
    rw [next_lineFeed hphase] at hnext
    cases hnext
    exact Or.inr ⟨_, rfl, rfl, by rw [line_close]⟩
  · have hstep : s.next c = ((s.countLine c).read c).map fun s => ([], s) := if_neg hc
    rw [hstep] at hnext
    obtain ⟨u, -, heq⟩ := Except.map_eq_ok_iff.mp hnext
    exact Or.inl (Prod.mk.inj heq).1.symm

/-- **Every record of a table ends with a front of it.** -/
theorem exists_cut (h : (scan [] s text).records = earlier ++ record :: later) :
    ∃ front behind, text = front ++ behind ∧ s.Cut earlier record front behind := by
  induction text generalizing s earlier with
  | nil =>
    unfold scan at h
    split at h
    · simp at h
    · next hphase =>
      have h : [s.close] = earlier ++ record :: later := h
      obtain ⟨rfl, hrecord⟩ : earlier = [] ∧ s.close = record := by
        cases earlier with
        | nil => exact ⟨rfl, (List.cons.inj h).1⟩
        | cons r rest => simp at h
      exact ⟨[], [], rfl, .text rfl hphase hrecord.symm⟩
  | cons c rest ih =>
    rw [scan_cons] at h
    cases hnext : s.next c with
    | error fault =>
      rw [hnext] at h
      simp at h
    | ok p =>
      obtain ⟨now, t⟩ := p
      rw [hnext] at h
      have h : (scan (now.reverse ++ []) t rest).records = earlier ++ record :: later := h
      rw [List.append_nil, scan_done, List.reverse_reverse] at h
      -- the record ends later, if it is not the one that ends with this character
      have hlater : ∀ others, earlier = now ++ others →
          (scan [] t rest).records = others ++ record :: later →
          ∃ front behind, c :: rest = front ++ behind ∧ s.Cut earlier record front behind := by
        rintro others rfl hothers
        obtain ⟨front, behind, rfl, hcut⟩ := ih hothers
        exact ⟨c :: front, behind, rfl, hcut.cons hnext⟩
      rcases cases_of_next hnext with rfl | ⟨first, rfl, rfl, rfl⟩
      · exact hlater earlier rfl h
      · cases earlier with
        | nil =>
          obtain ⟨rfl, -⟩ := List.cons.inj h
          refine ⟨['\n'], rest, rfl, .line ?_ rfl⟩
          rw [pass_singleton, hnext]
          rfl
        | cons r others =>
          obtain ⟨rfl, hothers⟩ := List.cons.inj h
          exact hlater others rfl hothers

end Scan

section Cut

open Scan

variable {front behind other : List Char} {earlier : List Record} {record : Record}
  (h : (start 0).Cut earlier record front behind)

include h

/-- The front taken for a table holds the records up to this one. -/
theorem Scan.Cut.records : Table.records front = ⟨earlier ++ [record], none⟩ := by
  unfold Table.records
  rw [← List.append_nil front]
  cases h with
  | line hpass _ =>
    rw [scan_append hpass, List.append_nil]
    exact congrArg (Records.mk · none) (List.reverse_reverse _)
  | text hpass hphase hrecord =>
    rw [scan_append hpass, List.append_nil, hrecord]
    unfold scan
    rw [if_neg hphase, List.reverse_cons, List.reverse_reverse]

/-- **The line of a record** is the number of lines up to its end. -/
theorem Scan.Cut.line_eq : record.line = countLines front := by
  cases h with
  | line hpass _ => exact (counts_start.pass hpass).lines
  | text hpass _ hrecord =>
    rw [hrecord, line_close]
    exact (counts_start.pass hpass).lines

/-- Something stands behind the front only if the front ends the record. -/
theorem Scan.Cut.endsRecord_or : EndsRecord front ∨ behind = [] := by
  cases h with
  | line hpass hlast =>
    refine Or.inl ⟨hlast, ?_⟩
    rintro ⟨rs, t, hopen, hphase⟩
    rw [hpass] at hopen
    cases hopen
    cases hphase
  | text => exact Or.inr rfl

/-- **These are the first records whatever follows**, if the front ends the record and not the text. -/
theorem Scan.Cut.exists_records_append (hother : EndsRecord front ∨ other = []) :
    ∃ more, (Table.records (front ++ other)).records = earlier ++ record :: more := by
  rcases hother with ⟨hlast, hopen⟩ | rfl
  · have hpass : ∃ lines, (start 0).pass front = .ok (earlier ++ [record], .start lines) := by
      cases h with
      | line hpass _ => exact ⟨_, hpass⟩
      | text hpass hphase _ =>
        obtain ⟨rs, lines, hstart⟩ := exists_pass_eq_start hpass (Or.inr hlast) hopen
        rw [hpass] at hstart
        cases hstart
        exact absurd rfl hphase
    obtain ⟨lines, hpass⟩ := hpass
    refine ⟨(scan [] (.start lines) other).records, ?_⟩
    unfold Table.records
    rw [scan_append hpass, scan_done, List.append_nil, List.reverse_reverse, List.append_assoc]
    rfl
  · exact ⟨[], by rw [List.append_nil, h.records]⟩

end Cut

end AreaAtlas.Table

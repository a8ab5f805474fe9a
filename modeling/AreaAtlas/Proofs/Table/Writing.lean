import AreaAtlas.Proofs.Table.Pieces

/-!
# Tables that are written

Whatever the characters of a cell are, it can be written: between quotes, with every quote in it doubled.
The reader then takes the cell over character by character, `pass_writtenCell`; the commas between cells and
the line feed behind them close the cells and the record, `pass_writtenRecord`.  So the records of a table
that is written are its rows, `exists_records_written`.
-/

namespace AreaAtlas.Table

/-- A text in which every quote is written twice. -/
def doubled (text : List Char) : List Char :=
  text.flatMap fun c => if c = '"' then ['"', '"'] else [c]

/-- A cell between quotes. -/
def writtenCell (cell : List Char) : List Char :=
  '"' :: doubled cell ++ ['"']

/-- Cells with commas between them, and a line feed behind. -/
def writtenRecord (cells : List (List Char)) : List Char :=
  [','].intercalate (cells.map writtenCell) ++ ['\n']

/-- A table with a record for each row. -/
def written (rows : List (List (List Char))) : List Char :=
  rows.flatMap writtenRecord

namespace Scan

variable {s : Scan}

/-! ## Characters that are read -/

theorem add_of_lt {phase : Phase} {c : Char} (h : s.size < maxCellSize) :
    s.add phase c = .ok { s with phase, cell := c :: s.cell, size := s.size + 1 } :=
  if_pos h

/-- Within quotes a character other than a quote is added to the cell. -/
theorem next_text {c : Char} (hphase : s.phase = .quoted) (hsize : s.size < maxCellSize) (hc : c ≠ '"') :
    ∃ lines atLineStart, s.next c
      = .ok ([], ⟨.quoted, c :: s.cell, s.size + 1, s.cells, lines, atLineStart⟩) := by
  have hread : (s.countLine c).read c = (s.countLine c).add .quoted c := by
    unfold Scan.read
    rw [phase_countLine, hphase]
    exact if_neg hc
  have hadd : (s.countLine c).size < maxCellSize := hsize
  rw [next_of_quoted hphase, hread, add_of_lt hadd]
  exact ⟨_, _, rfl⟩

/-- A quote within quotes is the first of two, or it ends the cell. -/
theorem next_quote (hphase : s.phase = .quoted) :
    s.next '"' = .ok ([], (s.countLine '"').enter .quoteSeen) := by
  have hread : (s.countLine '"').read '"' = .ok ((s.countLine '"').enter .quoteSeen) := by
    unfold Scan.read
    rw [phase_countLine, hphase]
    rfl
  rw [next_of_quoted hphase, hread]
  rfl

/-- The second of two quotes is added to the cell. -/
theorem next_secondQuote (hphase : s.phase = .quoteSeen) (hsize : s.size < maxCellSize) :
    ∃ lines atLineStart, s.next '"'
      = .ok ([], ⟨.quoted, '"' :: s.cell, s.size + 1, s.cells, lines, atLineStart⟩) := by
  have hread : (s.countLine '"').read '"' = (s.countLine '"').add .quoted '"' := by
    unfold Scan.read
    rw [phase_countLine, hphase]
    rfl
  have hadd : (s.countLine '"').size < maxCellSize := hsize
  rw [next_of_ne (by decide), hread, add_of_lt hadd]
  exact ⟨_, _, rfl⟩

/-- A comma behind a closing quote closes the cell. -/
theorem next_comma (hphase : s.phase = .quoteSeen) :
    s.next ',' = .ok ([], (s.countLine ',').save .cellStart) := by
  have hread : (s.countLine ',').read ',' = .ok ((s.countLine ',').save .cellStart) := by
    unfold Scan.read
    rw [phase_countLine, hphase]
    rfl
  rw [next_of_ne (by decide), hread]
  rfl

/-- A quote where a cell begins opens it. -/
theorem next_openingQuote (hphase : s.phase = .recordStart ∨ s.phase = .cellStart) :
    s.next '"' = .ok ([], (s.countLine '"').enter .quoted) := by
  have hread : (s.countLine '"').read '"' = .ok ((s.countLine '"').enter .quoted) := by
    unfold Scan.read
    rw [phase_countLine]
    rcases hphase with hphase | hphase
    · rw [hphase]
      rfl
    · rw [hphase]
      rfl
  rw [next_of_ne (by decide), hread]
  rfl

/-! ## Cells -/

/-- A text with its quotes doubled is added to a quoted cell as it is. -/
theorem pass_doubled {text : List Char} (hphase : s.phase = .quoted)
    (hsize : s.size + text.length ≤ maxCellSize) :
    ∃ lines atLineStart, s.pass (doubled text) = .ok ([],
      ⟨.quoted, text.reverse ++ s.cell, s.size + text.length, s.cells, lines, atLineStart⟩) := by
  induction text generalizing s with
  | nil =>
    obtain ⟨phase, cell, size, cells, lines, atLineStart⟩ := s
    obtain rfl : phase = .quoted := hphase
    exact ⟨lines, atLineStart, rfl⟩
  | cons c text ih =>
    rw [List.length_cons] at hsize
    have hlt : s.size < maxCellSize := by omega
    -- the character and then the rest of the text are added
    obtain ⟨lines, atLineStart, hfirst⟩ : ∃ lines atLineStart,
        s.pass (if c = '"' then ['"', '"'] else [c])
          = .ok ([], ⟨.quoted, c :: s.cell, s.size + 1, s.cells, lines, atLineStart⟩) := by
      split
      · next hc =>
        have hsecond : ((s.countLine '"').enter .quoteSeen).size < maxCellSize := hlt
        obtain ⟨lines, atLineStart, hnext⟩ := next_secondQuote rfl hsecond
        refine ⟨lines, atLineStart, pass_cons_eq_ok_iff.mpr ⟨_, _, _, next_quote hphase, ?_, rfl⟩⟩
        rw [pass_singleton, hnext, hc]
        rfl
      · next hc =>
        obtain ⟨lines, atLineStart, hnext⟩ := next_text hphase hlt hc
        exact ⟨lines, atLineStart, by rw [pass_singleton, hnext]⟩
    have hrest : (s.size + 1) + text.length ≤ maxCellSize := by omega
    obtain ⟨lines', atLineStart', hpass⟩ := @ih
      ⟨.quoted, c :: s.cell, s.size + 1, s.cells, lines, atLineStart⟩ rfl hrest
    have hcell : text.reverse ++ c :: s.cell = (c :: text).reverse ++ s.cell := by
      rw [List.reverse_cons, List.append_assoc, List.singleton_append]
    have hlength : s.size + 1 + text.length = s.size + (c :: text).length := by
      rw [List.length_cons]
      omega
    dsimp only at hpass
    rw [hcell, hlength] at hpass
    exact ⟨lines', atLineStart', pass_append.mpr ⟨_, _, _, hfirst, hpass, rfl⟩⟩

/-- **A cell that is written is read as it is**, up to its closing quote. -/
theorem pass_writtenCell {cell : List Char} (hphase : s.phase = .recordStart ∨ s.phase = .cellStart)
    (hcell : s.cell = []) (hempty : s.size = 0) (hsize : cell.length ≤ maxCellSize) :
    ∃ lines atLineStart, s.pass (writtenCell cell) = .ok ([],
      ⟨.quoteSeen, cell.reverse, cell.length, s.cells, lines, atLineStart⟩) := by
  have hopen : ((s.countLine '"').enter .quoted).size + cell.length ≤ maxCellSize := by
    show s.size + cell.length ≤ maxCellSize
    omega
  obtain ⟨lines, atLineStart, hpass⟩ := pass_doubled rfl hopen
  have hcell' : cell.reverse ++ ((s.countLine '"').enter .quoted).cell = cell.reverse := by
    show cell.reverse ++ s.cell = _
    rw [hcell, List.append_nil]
  have hsize' : ((s.countLine '"').enter .quoted).size + cell.length = cell.length := by
    show s.size + cell.length = _
    omega
  rw [hcell', hsize'] at hpass
  let text : Scan := ⟨.quoted, cell.reverse, cell.length, s.cells, lines, atLineStart⟩
  have hclose : text.pass ['"'] = .ok ([], (text.countLine '"').enter .quoteSeen) := by
    rw [pass_singleton]
    exact next_quote rfl
  have hinner := pass_append.mpr ⟨_, _, _, hpass, hclose, rfl⟩
  exact ⟨_, _, pass_cons_eq_ok_iff.mpr ⟨_, _, _, next_openingQuote hphase, hinner, rfl⟩⟩

/-- Cells with commas between them are all read; the last one is not closed yet. -/
theorem pass_writtenCells {cells : List (List Char)} (hne : cells ≠ [])
    (hsize : ∀ cell ∈ cells, cell.length ≤ maxCellSize)
    (hphase : s.phase = .recordStart ∨ s.phase = .cellStart) (hcell : s.cell = []) (hempty : s.size = 0) :
    ∃ t, s.pass ([','].intercalate (cells.map writtenCell)) = .ok ([], t) ∧ t.phase = .quoteSeen ∧
      t.cell.reverse :: t.cells = cells.reverse ++ s.cells := by
  induction cells generalizing s with
  | nil => exact absurd rfl hne
  | cons cell rest ih =>
    obtain ⟨hfirst, hothers⟩ := List.forall_mem_cons.mp hsize
    obtain ⟨lines, atLineStart, hpass⟩ := pass_writtenCell hphase hcell hempty hfirst
    cases rest with
    | nil =>
      refine ⟨⟨.quoteSeen, cell.reverse, cell.length, s.cells, lines, atLineStart⟩, ?_, rfl, ?_⟩
      · rw [List.map_singleton, List.intercalate_singleton]
        exact hpass
      · simp
    | cons second rest =>
      let closed : Scan := ⟨.quoteSeen, cell.reverse, cell.length, s.cells, lines, atLineStart⟩
      obtain ⟨t, hrest, hseen, hcells⟩ := @ih ((closed.countLine ',').save .cellStart)
        (List.cons_ne_nil second rest) hothers (Or.inr rfl) rfl rfl
      refine ⟨t, ?_, hseen, ?_⟩
      · rw [List.map_cons, List.map_cons, List.intercalate_cons_cons, ← List.map_cons, List.append_assoc]
        refine pass_append.mpr ⟨_, _, _, hpass, ?_, rfl⟩
        exact pass_cons_eq_ok_iff.mpr ⟨_, _, _, next_comma rfl, hrest, rfl⟩
      · rw [hcells]
        show _ ++ cell.reverse.reverse :: s.cells = _
        simp

/-! ## Records -/

/-- **A record that is written is read as it is**, and behind it the next one begins. -/
theorem pass_writtenRecord {cells : List (List Char)} (hne : cells ≠ [])
    (hsize : ∀ cell ∈ cells, cell.length ≤ maxCellSize) (lines : Nat) :
    ∃ record lines', (start lines).pass (writtenRecord cells) = .ok ([record], .start lines') ∧
      record.cells = cells := by
  obtain ⟨t, hpass, hphase, hcells⟩ := pass_writtenCells hne hsize (Or.inl rfl : (start lines).phase = _ ∨ _)
    rfl rfl
  have hquoted : t.phase ≠ .quoted := by
    rw [hphase]
    decide
  refine ⟨(t.countLine '\n').close, (t.countLine '\n').lines, ?_, ?_⟩
  · refine pass_append.mpr ⟨_, _, _, hpass, ?_, rfl⟩
    rw [pass_singleton, next_lineFeed hquoted]
  · have hclose : (t.countLine '\n').close.cells = (t.cell.reverse :: t.cells).reverse := by
      unfold close
      rw [phase_countLine, hphase]
      rfl
    rw [hclose, hcells]
    show (cells.reverse ++ []).reverse = cells
    simp

theorem pass_written {rows : List (List (List Char))}
    (hrows : ∀ cells ∈ rows, cells ≠ [] ∧ ∀ cell ∈ cells, cell.length ≤ maxCellSize) (lines : Nat) :
    ∃ records lines', (start lines).pass (written rows) = .ok (records, .start lines') ∧
      records.map (·.cells) = rows := by
  induction rows generalizing lines with
  | nil => exact ⟨[], lines, rfl, rfl⟩
  | cons cells rows ih =>
    obtain ⟨⟨hne, hsize⟩, hothers⟩ := List.forall_mem_cons.mp hrows
    obtain ⟨record, behind, hfirst, hcells⟩ := pass_writtenRecord hne hsize lines
    obtain ⟨records, lines', hrest, hmap⟩ := ih hothers behind
    refine ⟨record :: records, lines', pass_append.mpr ⟨_, _, _, hfirst, hrest, rfl⟩, ?_⟩
    rw [List.map_cons, hcells, hmap]

end Scan

/-- **The records of a table that is written are its rows**, and nothing is refused. -/
theorem exists_records_written {rows : List (List (List Char))}
    (hrows : ∀ cells ∈ rows, cells ≠ [] ∧ ∀ cell ∈ cells, cell.length ≤ maxCellSize) :
    ∃ rs, records (written rows) = ⟨rs, none⟩ ∧ rs.map (·.cells) = rows := by
  obtain ⟨rs, lines, hpass, hcells⟩ := Scan.pass_written hrows 0
  refine ⟨rs, ?_, hcells⟩
  have hscan := Scan.scan_append hpass [] []
  rw [List.append_nil, List.append_nil] at hscan
  show scan [] (.start 0) (written rows) = _
  rw [hscan]
  show (⟨rs.reverse.reverse, none⟩ : Records) = _
  rw [List.reverse_reverse]

end AreaAtlas.Table

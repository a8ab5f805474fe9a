import AreaAtlas.Proofs.Location
import AreaAtlas.Proofs.Table.Pieces
import AreaAtlas.Proofs.Text.Trim

/-!
# Lines without a row

A line of white space holds no row of a table, and neither does a line that begins with `#`.  But a comment
is told from a row only when its record is complete: a quote where a cell of the comment begins opens a cell
that goes on behind the line and takes the rows there with it.  So inserting such a line leaves the table as
it is if the line can be read on its own and no cell of it is left open, `isIgnored_iff_isClosed`, and
otherwise it does not.
-/

namespace AreaAtlas

open Table

namespace Table

/-- A line that is blank or begins with `#`. -/
def IsIdle (line : List Char) : Prop :=
  ∃ body, line = body ++ ['\n'] ∧ '\n' ∉ body ∧
    ((∀ c ∈ body, isBlank c = true) ∨ body.head? = some '#')

/-- A piece of a table can be read on its own, and no quoted cell is open behind it. -/
def IsClosed (text : List Char) : Prop :=
  (records text).fault = none ∧ ¬LeavesOpen text

variable {s s' t : Scan} {c : Char} {cells : List (List Char)} {text : List Char} {rs : List Record}

/-! ## Records without a row -/

theorem row?_eq_none {r : Record} (h : isEmptyRow (r.cells.map trim) = true ∨
    isComment (r.cells.map trim) = true) : r.row? = none := by
  unfold Record.row?
  apply if_pos
  rwa [Bool.or_eq_true]

/-- Cells of white space only are an empty row. -/
theorem isEmptyRow_map_trim (h : ∀ cell ∈ cells, ∀ c ∈ cell, isBlank c = true) :
    isEmptyRow (cells.map trim) = true := by
  apply List.all_eq_true.mpr
  intro cell hcell
  obtain ⟨untrimmed, hmem, rfl⟩ := List.mem_map.mp hcell
  rw [trim_eq_nil_iff.mpr (h untrimmed hmem)]
  rfl

/-- Cells whose first one begins with `#` are a comment. -/
theorem isComment_map_trim {first : List Char} (hcells : cells.head? = some first)
    (hfirst : first.head? = some '#') : isComment (cells.map trim) = true := by
  obtain ⟨text, rfl⟩ := List.head?_eq_some_iff.mp hfirst
  have hstart : trimStart ('#' :: text) = ['#'] ++ text :=
    trimStart_of_stopsAt (stopsAt_cons (by decide))
  have htrim : trim ('#' :: text) = ['#'] ++ trimEnd text := by
    unfold trim
    rw [hstart]
    apply trimEnd_append
    rintro c ⟨⟩
    rfl
  unfold isComment
  rw [List.head?_map, hcells, Option.map_some, htrim]
  rfl

theorem row?_below (lines : Nat) (r : Record) :
    (r.below lines).row? = r.row?.map (Record.below lines) := by
  unfold Record.row?
  dsimp only [Record.below]
  split
  · rfl
  · rfl

/-- Behind more lines the rows have the same cells. -/
theorem map_cells_filterMap_row?_below (lines : Nat) (rs : List Record) :
    ((rs.map (Record.below lines)).filterMap Record.row?).map (·.cells)
      = (rs.filterMap Record.row?).map (·.cells) := by
  have hrow : Record.row? ∘ Record.below lines = fun r => r.row?.map (Record.below lines) :=
    funext fun r => row?_below lines r
  rw [List.filterMap_map, hrow, ← List.map_filterMap, List.map_map]
  rfl

namespace Scan

/-! ## Reading within a line -/

/-- A piece of a table is refused unless the reader gets behind it. -/
theorem fault_scan_eq_none_iff {done : List Record} :
    (scan done s text).fault = none ↔ ∃ p, s.pass text = .ok p := by
  rw [← List.append_nil text]
  cases hpass : s.pass text with
  | error fault =>
    rw [fault_scan_append hpass, List.append_nil, hpass]
    simp
  | ok p =>
    rw [scan_append hpass, List.append_nil, hpass]
    exact iff_of_true rfl ⟨p, rfl⟩

/-- **What holds within a record** and is kept by each character holds at the end of its line. -/
theorem pass_of_noLineFeed {P : Scan → Prop} (htext : '\n' ∉ text)
    (hstep : ∀ s t c, c ∈ text → P s → (s.countLine c).read c = .ok t → P t) (hs : P s)
    (hpass : s.pass text = .ok (rs, s')) : rs = [] ∧ P s' := by
  induction text generalizing s rs with
  | nil =>
    cases hpass
    exact ⟨rfl, hs⟩
  | cons c rest ih =>
    obtain ⟨hc, hrest⟩ := not_or.mp fun h => htext (List.mem_cons.mpr h)
    obtain ⟨now, t, later, hnext, hlater, rfl⟩ := pass_cons_eq_ok_iff.mp hpass
    rw [next_of_ne (Ne.symm hc)] at hnext
    obtain ⟨u, hread, heq⟩ := Except.map_eq_ok_iff.mp hnext
    obtain ⟨rfl, rfl⟩ := Prod.mk.inj heq
    have hu : P u := hstep s u c List.mem_cons_self hs hread
    obtain ⟨rfl, hs'⟩ := ih hrest (fun s t c hc => hstep s t c (List.mem_cons_of_mem _ hc)) hu hlater
    exact ⟨rfl, hs'⟩

/-! ## Comments -/

/-- The first cell of the record begins with `#`: it is still read, or it is closed. -/
def InComment (s : Scan) : Prop :=
  s.phase = .bare ∧ s.cells = [] ∧ s.cell.getLast? = some '#' ∨
    ∃ first, s.cells.getLast? = some first ∧ first.head? = some '#'

/-- A comment goes on as long as its record does. -/
theorem InComment.read (h : s.InComment) (hread : s.read c = .ok t) : t.InComment := by
  rcases h with ⟨hphase, hcells, hcell⟩ | ⟨first, hfirst, hhead⟩
  · -- the first cell is read, and it ends with a carriage return or a comma
    have hclosed : ∀ phase, (s.save phase).InComment := by
      intro phase
      right
      refine ⟨s.cell.reverse, ?_, ?_⟩
      · show (s.cell.reverse :: s.cells).getLast? = _
        rw [hcells]
        rfl
      · rw [List.head?_reverse, hcell]
    unfold Scan.read at hread
    rw [hphase] at hread
    dsimp only at hread
    split at hread
    · cases hread
      exact hclosed .ended
    · split at hread
      · cases hread
        exact hclosed .cellStart
      · unfold Scan.add at hread
        split at hread
        · cases hread
          refine Or.inl ⟨rfl, hcells, ?_⟩
          show (c :: s.cell).getLast? = _
          rw [List.getLast?_cons, hcell]
          rfl
        · cases hread
  · -- the first cell stays where it is
    right
    refine ⟨first, ?_, hhead⟩
    have hstep := step_read s c
    generalize s.read c = result at hstep hread
    cases hstep with
    | save =>
      cases hread
      show (s.cell.reverse :: s.cells).getLast? = _
      rw [List.getLast?_cons, hfirst]
      rfl
    | enter =>
      cases hread
      exact hfirst
    | @add phase =>
      unfold Scan.add at hread
      split at hread
      · cases hread
        exact hfirst
      · cases hread
    | stray => cases hread

theorem InComment.countLine (h : s.InComment) (c : Char) : (s.countLine c).InComment := h

/-- A comment is no row. -/
theorem InComment.row?_close (h : s.InComment) : s.close.row? = none := by
  suffices ∃ first, s.close.cells.head? = some first ∧ first.head? = some '#' by
    obtain ⟨first, hcells, hfirst⟩ := this
    exact row?_eq_none (Or.inr (isComment_map_trim hcells hfirst))
  rcases h with ⟨hphase, hcells, hcell⟩ | ⟨first, hfirst, hhead⟩
  · refine ⟨s.cell.reverse, ?_, by rw [List.head?_reverse, hcell]⟩
    unfold Scan.close
    rw [hphase]
    show (s.cell.reverse :: s.cells).reverse.head? = _
    rw [hcells]
    rfl
  · refine ⟨first, ?_, hhead⟩
    have hopen : (s.cell.reverse :: s.cells).reverse.head? = some first := by
      rw [List.head?_reverse, List.getLast?_cons, hfirst]
      rfl
    have hended : s.cells.reverse.head? = some first := by rw [List.head?_reverse, hfirst]
    unfold Scan.close
    split
    · exact hended
    · exact hended
    · exact hopen
    · exact hopen
    · exact hopen
    · exact hopen

/-- A record that begins with `#` is a comment. -/
theorem inComment_of_next {lines : Nat} (h : (start lines).next '#' = .ok (rs, t)) :
    rs = [] ∧ t.InComment := by
  cases h
  exact ⟨rfl, Or.inl ⟨rfl, rfl, rfl⟩⟩

/-- As long as its lines are open, nothing else is read than the comment. -/
theorem InComment.filterMap_scan (h : s.InComment) (htext : '\n' ∉ text)
    (hfault : (scan [] s text).fault = none) : (scan [] s text).records.filterMap Record.row? = [] := by
  obtain ⟨⟨rs, t⟩, hpass⟩ := fault_scan_eq_none_iff.mp hfault
  obtain ⟨rfl, ht⟩ := pass_of_noLineFeed htext (fun _ _ c _ hs hread => (hs.countLine c).read hread) h hpass
  have hscan := scan_append hpass [] []
  rw [List.append_nil] at hscan
  rw [hscan]
  show (if t.phase = .recordStart then [] else [t.close] : List Record).reverse.filterMap _ = []
  split
  · rfl
  · rw [List.reverse_singleton, List.filterMap_cons_none ht.row?_close]
    rfl

/-! ## White space -/

/-- Nothing but white space has been read of the record, and no cell is between quotes. -/
structure IsBlankYet (s : Scan) : Prop where
  phase : s.phase.IsUnquoted
  cell : ∀ c ∈ s.cell, isBlank c = true
  cells : ∀ cell ∈ s.cells, ∀ c ∈ cell, isBlank c = true

theorem isBlankYet_start (lines : Nat) : (start lines).IsBlankYet :=
  ⟨(by decide : Phase.recordStart.IsUnquoted), List.forall_mem_nil _, List.forall_mem_nil _⟩

theorem IsBlankYet.countLine (h : s.IsBlankYet) (c : Char) : (s.countLine c).IsBlankYet :=
  ⟨h.phase, h.cell, h.cells⟩

/-- The cells stay blank when the current one is closed. -/
theorem IsBlankYet.forall_closed (h : s.IsBlankYet) :
    ∀ cell ∈ s.cell.reverse :: s.cells, ∀ c ∈ cell, isBlank c = true :=
  List.forall_mem_cons.mpr ⟨fun c hc => h.cell c (List.mem_reverse.mp hc), h.cells⟩

theorem IsBlankYet.read (h : s.IsBlankYet) (hc : isBlank c = true) (hread : s.read c = .ok t) :
    t.IsBlankYet := by
  have hquote : c ≠ '"' := by
    rintro rfl
    cases hc
  have hphase : t.phase.IsUnquoted := (reads_of_read hread).unquoted hquote h.phase
  have hstep := step_read s c
  generalize s.read c = result at hstep hread
  cases hstep with
  | save =>
    cases hread
    exact ⟨hphase, List.forall_mem_nil _, h.forall_closed⟩
  | enter =>
    cases hread
    exact ⟨hphase, h.cell, h.cells⟩
  | add =>
    unfold Scan.add at hread
    split at hread
    · cases hread
      exact ⟨hphase, List.forall_mem_cons.mpr ⟨hc, h.cell⟩, h.cells⟩
    · cases hread
  | stray => cases hread

/-- White space is no row. -/
theorem IsBlankYet.row?_close (h : s.IsBlankYet) : s.close.row? = none := by
  apply row?_eq_none
  left
  apply isEmptyRow_map_trim
  have hopen : ∀ cell ∈ (s.cell.reverse :: s.cells).reverse, ∀ c ∈ cell, isBlank c = true :=
    fun cell hcell => h.forall_closed cell (List.mem_reverse.mp hcell)
  have hended : ∀ cell ∈ s.cells.reverse, ∀ c ∈ cell, isBlank c = true :=
    fun cell hcell => h.cells cell (List.mem_reverse.mp hcell)
  unfold Scan.close
  split
  · exact hended
  · exact hended
  · exact hopen
  · exact hopen
  · exact hopen
  · exact hopen

/-! ## Idle lines -/

/-- Before the end of an idle line all that is read is a comment or white space. -/
theorem pass_body_of_idle {body : List Char} {lines : Nat} (hbody : '\n' ∉ body)
    (hidle : (∀ c ∈ body, isBlank c = true) ∨ body.head? = some '#')
    (hpass : (start lines).pass body = .ok (rs, t)) : rs = [] ∧ (t.IsBlankYet ∨ t.InComment) := by
  rcases hidle with hblank | hhead
  · obtain ⟨hrs, ht⟩ := pass_of_noLineFeed hbody
      (fun _ _ c hc hs hread => (hs.countLine c).read (hblank c hc) hread) (isBlankYet_start lines) hpass
    exact ⟨hrs, Or.inl ht⟩
  · obtain ⟨rest, rfl⟩ := List.head?_eq_some_iff.mp hhead
    obtain ⟨now, u, later, hnext, hlater, rfl⟩ := pass_cons_eq_ok_iff.mp hpass
    obtain ⟨rfl, hu⟩ := inComment_of_next hnext
    have hrest : '\n' ∉ rest := fun h => hbody (List.mem_cons_of_mem _ h)
    obtain ⟨rfl, ht⟩ := pass_of_noLineFeed hrest
      (fun _ _ c _ hs hread => (hs.countLine c).read hread) hu hlater
    exact ⟨rfl, Or.inr ht⟩

/-- Without quotes no cell between quotes is begun. -/
theorem isUnquoted_of_pass (htext : '"' ∉ text) (hs : s.phase.IsUnquoted)
    (hpass : s.pass text = .ok (rs, t)) : t.phase.IsUnquoted := by
  induction text generalizing s rs with
  | nil =>
    cases hpass
    exact hs
  | cons c rest ih =>
    obtain ⟨hc, hrest⟩ := not_or.mp fun h => htext (List.mem_cons.mpr h)
    obtain ⟨now, u, later, hnext, hlater, -⟩ := pass_cons_eq_ok_iff.mp hpass
    apply ih hrest _ hlater
    unfold next at hnext
    split at hnext
    · cases hnext
      exact (isBlankYet_start 0).phase
    · obtain ⟨v, hread, heq⟩ := Except.map_eq_ok_iff.mp hnext
      obtain ⟨-, rfl⟩ := Prod.mk.inj heq
      exact (reads_of_read hread).unquoted (Ne.symm hc) hs

end Scan

open Scan

theorem IsIdle.endsLine {line : List Char} (h : IsIdle line) : EndsLine line := by
  obtain ⟨body, rfl, -⟩ := h
  exact Or.inr List.getLast?_concat

/-- **What is read of an idle line**: no row if its record ends with it, and otherwise part of a comment. -/
theorem IsIdle.pass {line : List Char} (h : IsIdle line) {lines : Nat}
    (hpass : (start lines).pass line = .ok (rs, t)) :
    rs.filterMap Record.row? = [] ∧ (t.phase = .quoted → t.InComment) := by
  obtain ⟨body, rfl, hbody, hidle⟩ := h
  obtain ⟨now, u, later, hfront, hlast, rfl⟩ := pass_append.mp hpass
  obtain ⟨rfl, hu⟩ := pass_body_of_idle hbody hidle hfront
  rw [pass_singleton] at hlast
  by_cases hphase : u.phase = .quoted
  · rw [next_of_quoted hphase] at hlast
    obtain ⟨v, hread, heq⟩ := Except.map_eq_ok_iff.mp hlast
    obtain ⟨rfl, rfl⟩ := Prod.mk.inj heq
    refine ⟨rfl, fun _ => ?_⟩
    rcases hu with hblank | hcomment
    · exact absurd hphase hblank.phase.1
    · exact (hcomment.countLine '\n').read hread
  · rw [next_lineFeed hphase] at hlast
    cases hlast
    have hrow : (u.countLine '\n').close.row? = none := by
      rcases hu with hblank | hcomment
      · exact (hblank.countLine '\n').row?_close
      · exact (hcomment.countLine '\n').row?_close
    refine ⟨List.filterMap_cons_none hrow, fun h => ?_⟩
    cases h

/-- A line that can be read on its own is read to a point where a record begins, if no cell is open there. -/
theorem IsClosed.exists_pass {line : List Char} (h : IsClosed line) (hends : EndsLine line) :
    ∃ rs lines, (start 0).pass line = .ok (rs, start lines) := by
  obtain ⟨p, hpass⟩ := fault_scan_eq_none_iff.mp h.1
  exact exists_pass_eq_start hpass hends h.2

/-- A line without quotes can be read on its own if its carriage returns and the lengths of its cells are
in order. -/
theorem isClosed_of_notMem {line : List Char} (hquote : '"' ∉ line) (hreturn : ¬HasStrayReturn line)
    (hlong : ¬HasLongCell line) : IsClosed line := by
  constructor
  · by_contra hne
    obtain ⟨fault, hfault⟩ := Option.ne_none_iff_exists'.mp hne
    rcases cases_of_fault hfault with ⟨-, h⟩ | ⟨-, h⟩
    · exact hreturn h
    · exact hlong h
  · rintro ⟨rs, t, hpass, hphase⟩
    exact (isUnquoted_of_pass hquote (isBlankYet_start 0).phase hpass).1 hphase

/-! ## Inserted lines -/

/-- **Behind whole lines, an inserted line without rows leaves the rows as they are**, apart from the
counted lines. -/
theorem rows_insert {front line : List Char} {rs idle : List Record} {lines more : Nat}
    (hfront : (start 0).pass front = .ok (rs, start lines))
    (hline : (start 0).pass line = .ok (idle, start more)) (hidle : idle.filterMap Record.row? = [])
    (behind : List Char) :
    (rows (front ++ line ++ behind)).fault = (rows (front ++ behind)).fault ∧
      (rows (front ++ line ++ behind)).records.map (·.cells)
        = (rows (front ++ behind)).records.map (·.cells) := by
  have hboth : (start 0).pass (front ++ line)
      = .ok (rs ++ idle.map (Record.below lines), start (more + lines)) := by
    have hbelow := pass_below lines hline
    rw [start_below, Nat.zero_add] at hbelow
    exact pass_append.mpr ⟨_, _, _, hfront, hbelow, rfl⟩
  have hidle' : (idle.map (Record.below lines)).filterMap Record.row? = [] := by
    have h := map_cells_filterMap_row?_below lines idle
    rwa [hidle, List.map_nil, List.map_eq_nil_iff] at h
  have hwithout : records (front ++ behind) = _ := (scan_append hfront [] behind).trans (scan_done ..)
  have hwith : records (front ++ line ++ behind) = _ :=
    (scan_append hboth [] behind).trans (scan_done ..)
  -- what is behind the line is read from a point that is some lines further down
  have hshift := scan_below more [] (start lines) behind
  rw [List.map_nil, start_below, Nat.add_comm lines more] at hshift
  unfold rows
  rw [hwith, hwithout, hshift]
  refine ⟨rfl, ?_⟩
  simp only [List.append_nil, List.reverse_reverse, List.filterMap_append, List.map_append, hidle',
    map_cells_filterMap_row?_below]

/-- A line is ignored: where a line begins that is not within a quoted cell, it can be inserted into a table
that is read, and the same locations are read. -/
def IsIgnored (line : List Char) : Prop :=
  ∀ front behind locations, EndsLine front → ¬LeavesOpen front →
    readLocations (front ++ behind) = .ok locations →
    readLocations (front ++ line ++ behind) = .ok locations

/-- An idle line that can be read on its own is ignored. -/
theorem IsIdle.isIgnored {line : List Char} (hidle : IsIdle line) (hclosed : IsClosed line) :
    IsIgnored line := by
  intro front behind locations hends hopen h
  obtain ⟨hread, hfault⟩ := readLocations_eq_ok_iff.mp h
  -- the front is read, since what begins with it is
  obtain ⟨⟨all, s⟩, hall⟩ := fault_scan_eq_none_iff.mp hfault
  obtain ⟨now, t, later, hnow, -, -⟩ := pass_append.mp hall
  obtain ⟨rs, lines, hfront⟩ := exists_pass_eq_start hnow hends hopen
  obtain ⟨idle, more, hline⟩ := hclosed.exists_pass hidle.endsLine
  obtain ⟨hfault', hcells⟩ := rows_insert hfront hline (hidle.pass hline).1 behind
  apply readLocations_eq_ok_iff.mpr
  refine ⟨Location.ofRows_congr hcells hread, ?_⟩
  rw [hfault', hfault]

theorem not_leavesOpen_nil : ¬LeavesOpen [] := by
  rintro ⟨rs, s, hpass, hphase⟩
  cases hpass
  cases hphase

/-- A line that is ignored can be read on its own: otherwise the row behind it would be lost. -/
theorem IsIdle.isClosed {line : List Char} (hidle : IsIdle line) (hignored : IsIgnored line) :
    IsClosed line := by
  let row : List Char := ['A', ',', ',', ',', ',', ',']
  have hrow : readLocations row = .ok [⟨"A", "", none, none⟩] := by decide
  have h := hignored [] row _ (Or.inl rfl) not_leavesOpen_nil hrow
  obtain ⟨hread, hfault⟩ := readLocations_eq_ok_iff.mp h
  obtain ⟨⟨all, s⟩, hall⟩ := fault_scan_eq_none_iff.mp hfault
  obtain ⟨rs, t, later, hline, hrest, -⟩ := pass_append.mp hall
  refine ⟨fault_scan_eq_none_iff.mpr ⟨_, hline⟩, ?_⟩
  rintro ⟨rs', t', hline', hphase⟩
  obtain ⟨rfl, rfl⟩ := Prod.mk.inj (Except.ok.inj (hline.symm.trans hline'))
  obtain ⟨hrows, hcomment⟩ := hidle.pass hline
  have hscan : records (line ++ row) = _ := (scan_append hline [] row).trans (scan_done ..)
  have hrest : (scan [] t row).fault = none := fault_scan_eq_none_iff.mpr ⟨_, hrest⟩
  have hnone : (rows ([] ++ line ++ row)).records = [] := by
    show (records (line ++ row)).records.filterMap Record.row? = []
    rw [hscan, List.append_nil, List.reverse_reverse, List.filterMap_append, hrows,
      (hcomment hphase).filterMap_scan (by decide) hrest]
    rfl
  rw [hnone] at hread
  cases hread

/-- **When a line without a row is ignored**: if it can be read on its own and no quoted cell is open behind
it, and only then. -/
theorem isIgnored_iff_isClosed {line : List Char} (hidle : IsIdle line) :
    (IsIgnored line ↔ IsClosed line) ∧
      ('"' ∉ line → ¬HasStrayReturn line → ¬HasLongCell line → IsIgnored line) :=
  ⟨⟨hidle.isClosed, hidle.isIgnored⟩, fun hquote hreturn hlong =>
    hidle.isIgnored (isClosed_of_notMem hquote hreturn hlong)⟩

/-- A comment with commas, and with a quote inside a cell. -/
theorem isIgnored_iff_isClosed_bareQuote :
    let line := "# Marsh, 3 rows, 12\" wide\n".toList
    IsIdle line ∧ ((IsIgnored line ↔ IsClosed line) ∧
      ('"' ∉ line → ¬HasStrayReturn line → ¬HasLongCell line → IsIgnored line)) :=
  have hidle : IsIdle "# Marsh, 3 rows, 12\" wide\n".toList :=
    ⟨"# Marsh, 3 rows, 12\" wide".toList, by decide, by decide, Or.inr (by decide)⟩
  ⟨hidle, isIgnored_iff_isClosed hidle⟩

/-- A quote where a cell of a comment begins: the row behind the comment is lost. -/
theorem not_isIgnored_openCell :
    let line := "#,\"\n".toList
    let row := "A,Z,,,,\n".toList
    IsIdle line ∧ readLocations row = .ok [⟨"A", "Z", none, none⟩] ∧
      readLocations (line ++ row) = .ok [] ∧ ¬IsIgnored line := by
  intro line row
  have hidle : IsIdle line := ⟨"#,\"".toList, by decide, by decide, Or.inr (by decide)⟩
  have hread : readLocations row = .ok [⟨"A", "Z", none, none⟩] := by decide
  have hlost : readLocations (line ++ row) = .ok [] := by decide
  refine ⟨hidle, hread, hlost, fun hignored => ?_⟩
  have hkept := hignored [] row _ (Or.inl rfl) not_leavesOpen_nil hread
  have heq := hkept.symm.trans hlost
  cases heq

end Table

end AreaAtlas

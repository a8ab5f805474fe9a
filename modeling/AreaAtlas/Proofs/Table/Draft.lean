import AreaAtlas.Proofs.Areas.Form
import AreaAtlas.Proofs.Table.Writing

/-!
# Drafts of location tables

A draft is a row of a location table as somebody wants to have it: the texts of its six cells.  If a draft
can be told from a comment, from a blank row and from the row of titles, and if each of its places is left
out or consists of numbers, then writing it and reading it back gives its location, whatever characters its
cells hold: `readLocations_written`.
-/

namespace AreaAtlas

/-- A text neither begins nor ends with white space. -/
def IsTrimmed (text : List Char) : Prop :=
  StopsAt isBlank text ∧ ∀ c ∈ text.getLast?, isBlank c = false

/-- Two texts leave a place out, or they are its coordinates. -/
def IsPlace (x y : List Char) : Prop :=
  x = [] ∧ y = [] ∨ (Binary64.read? x).isSome ∧ (Binary64.read? y).isSome

instance (x y : List Char) : Decidable (IsPlace x y) :=
  inferInstanceAs (Decidable (_ ∨ _))

theorem IsTrimmed.trim_eq {text : List Char} (h : IsTrimmed text) : trim text = text :=
  trim_eq_self h.1 h.2

theorem isTrimmed_iff {text : List Char} : IsTrimmed text ↔ trim text = text := by
  refine ⟨IsTrimmed.trim_eq, fun h => ?_⟩
  rw [← h]
  exact ⟨stopsAt_trim, fun _ hc => trimEnd_getLast? hc⟩

instance (text : List Char) : Decidable (IsTrimmed text) :=
  decidable_of_iff _ isTrimmed_iff.symm

/-- White space around a number does not matter. -/
theorem Binary64.read?_trim (text : List Char) : read? (trim text) = read? text := by
  unfold read?
  rw [trim_trim]

theorem Binary64.read?_nil : read? [] = none := by decide

namespace Location

/-- What the six cells of a row are to hold. -/
structure Draft where
  identifier : List Char
  zone : List Char
  x : List Char
  y : List Char
  mapX : List Char
  mapY : List Char
deriving DecidableEq

/-! ## Places -/

theorem readPosition_eq_ok {x y : List Char} {vx vy : Binary64} (hx : Binary64.read? x = some vx)
    (hy : Binary64.read? y = some vy) : readPosition x y = .ok (some ⟨vx, vy⟩) := by
  unfold readPosition
  split
  · rw [Binary64.read?_nil] at hx
    cases hx
  · rw [Binary64.read?_nil] at hx
    cases hx
  · rw [Binary64.read?_nil] at hy
    cases hy
  · rw [hx, hy]

/-- A place that is left out or given by numbers is read as it stands. -/
theorem readPosition_trim {x y : List Char} (h : IsPlace x y) :
    readPosition (trim x) (trim y) = .ok (Areas.positionOf? (x, y)) := by
  rcases h with ⟨rfl, rfl⟩ | ⟨hx, hy⟩
  · rfl
  · obtain ⟨vx, hx⟩ := Option.isSome_iff_exists.mp hx
    obtain ⟨vy, hy⟩ := Option.isSome_iff_exists.mp hy
    have hplace : Areas.positionOf? (x, y) = some ⟨vx, vy⟩ := by
      simp only [Areas.positionOf?, hx, hy, Option.bind_some, Option.map_some]
    rw [hplace]
    apply readPosition_eq_ok
    · rw [Binary64.read?_trim, hx]
    · rw [Binary64.read?_trim, hy]

namespace Draft

variable {d : Draft}

/-- The cells of the row. -/
def cells (d : Draft) : List (List Char) :=
  [d.identifier, d.zone, d.x, d.y, d.mapX, d.mapY]

/-- The location that the row is about. -/
def location (d : Draft) : Location :=
  ⟨.ofList d.identifier, .ofList d.zone, Areas.positionOf? (d.x, d.y), Areas.positionOf? (d.mapX, d.mapY)⟩

/-- The row has a location of its own, and no cell of it is too long. -/
structure IsWritable (d : Draft) : Prop where
  identifier : IsTrimmed d.identifier
  zone : IsTrimmed d.zone
  /-- The row is no comment. -/
  head? : d.identifier.head? ≠ some '#'
  /-- The row is not blank. -/
  exists_text : ∃ cell ∈ d.cells, ∃ c ∈ cell, isBlank c = false
  position : IsPlace d.x d.y
  mapPosition : IsPlace d.mapX d.mapY
  length_le : ∀ cell ∈ d.cells, cell.length ≤ Table.maxCellSize

instance (d : Draft) : Decidable d.IsWritable :=
  decidable_of_iff (IsTrimmed d.identifier ∧ IsTrimmed d.zone ∧ d.identifier.head? ≠ some '#' ∧
      (d.cells.any (·.any fun c => isBlank c = false)) = true ∧ IsPlace d.x d.y ∧ IsPlace d.mapX d.mapY ∧
      ∀ cell ∈ d.cells, cell.length ≤ Table.maxCellSize) (by
    simp only [List.any_eq_true, decide_eq_true_eq]
    exact ⟨fun ⟨h₁, h₂, h₃, h₄, h₅, h₆, h₇⟩ => ⟨h₁, h₂, h₃, h₄, h₅, h₆, h₇⟩,
      fun ⟨h₁, h₂, h₃, h₄, h₅, h₆, h₇⟩ => ⟨h₁, h₂, h₃, h₄, h₅, h₆, h₇⟩⟩)

/-! ## Rows -/

theorem IsWritable.map_trim (h : d.IsWritable) :
    d.cells.map trim = [d.identifier, d.zone, trim d.x, trim d.y, trim d.mapX, trim d.mapY] := by
  show [trim d.identifier, trim d.zone, _, _, _, _] = _
  rw [h.identifier.trim_eq, h.zone.trim_eq]

/-- The record of a draft is a row. -/
theorem IsWritable.row? (h : d.IsWritable) (line : Nat) :
    Table.Record.row? ⟨line, d.cells⟩ = some ⟨line, d.cells.map trim⟩ := by
  have hempty : Table.isEmptyRow (d.cells.map trim) = false := by
    obtain ⟨cell, hcell, c, hc, hblank⟩ := h.exists_text
    apply List.all_eq_false.mpr
    refine ⟨trim cell, List.mem_map_of_mem hcell, ?_⟩
    intro hnil
    have hall := trim_eq_nil_iff.mp (List.isEmpty_iff.mp hnil)
    rw [hall c hc] at hblank
    cases hblank
  have hcomment : Table.isComment (d.cells.map trim) = false := by
    rw [h.map_trim]
    exact beq_false_of_ne h.head?
  show (if (Table.isEmptyRow (d.cells.map trim) || Table.isComment (d.cells.map trim)) = true
    then none else _) = _
  rw [hempty, hcomment]
  rfl

/-- The row is not the one of the titles, since no title is a coordinate. -/
theorem IsWritable.ne_columns (h : d.IsWritable) : d.cells.map trim ≠ columns.map String.toList := by
  intro heq
  rw [h.map_trim] at heq
  have hx : trim d.x = ['x'] := by
    injection heq with _ heq
    injection heq with _ heq
    injection heq with heq _
  rcases h.position with ⟨hempty, -⟩ | ⟨hnumber, -⟩
  · rw [hempty] at hx
    cases hx
  · rw [← Binary64.read?_trim, hx] at hnumber
    exact absurd hnumber (by decide)

/-- The location of a row is read, if its identifier is new. -/
theorem IsWritable.ofRow (h : d.IsWritable) {known : List String}
    (hnew : String.ofList d.identifier ∉ known) : ofRow known (d.cells.map trim) = .ok d.location := by
  rw [h.map_trim]
  unfold Location.ofRow
  dsimp only
  rw [if_neg hnew, readPosition_trim h.position, readPosition_trim h.mapPosition]
  rfl

/-- The locations of rows are read, if their identifiers differ. -/
theorem ofRows_filterMap {ds : List Draft} {rs : List Table.Record} {known : List String}
    (hcells : rs.map (·.cells) = ds.map cells) (hwritable : ∀ d ∈ ds, d.IsWritable)
    (hnodup : (ds.map (·.identifier)).Nodup) (hnew : ∀ d ∈ ds, String.ofList d.identifier ∉ known) :
    ofRows known (rs.filterMap Table.Record.row?) = .ok (ds.map location) := by
  induction ds generalizing rs known with
  | nil =>
    rw [List.map_nil, List.map_eq_nil_iff] at hcells
    rw [hcells]
    rfl
  | cons d ds ih =>
    obtain ⟨r, rs, rfl⟩ : ∃ r rest, rs = r :: rest := by
      cases rs with
      | nil => cases hcells
      | cons r rest => exact ⟨r, rest, rfl⟩
    rw [List.map_cons, List.map_cons] at hcells
    obtain ⟨hr, hrest⟩ := List.cons.inj hcells
    obtain ⟨line, cells⟩ := r
    obtain rfl : cells = d.cells := hr
    obtain ⟨hd, hothers⟩ := List.forall_mem_cons.mp hwritable
    obtain ⟨hdnew, hothersNew⟩ := List.forall_mem_cons.mp hnew
    rw [List.map_cons, List.nodup_cons] at hnodup
    -- the identifier of the first row is none of the others
    have hnew' : ∀ e ∈ ds, String.ofList e.identifier ∉ d.location.identifier :: known := by
      intro e he hmem
      rcases List.mem_cons.mp hmem with heq | hmem
      · apply hnodup.1
        rw [← String.ofList_injective heq]
        exact List.mem_map_of_mem he
      · exact hothersNew e he hmem
    rw [List.filterMap_cons_some (hd.row? line)]
    unfold ofRows
    dsimp only
    rw [if_neg hd.ne_columns, hd.ofRow hdnew]
    show (ofRows (d.location.identifier :: known) _ >>= fun others => .ok (d.location :: others)) = _
    rw [ih hrest hothers hnodup.2 hnew']
    rfl

end Draft

end Location

open Location

/-- **A location table that is written is read back**: every row gives its location, in order. -/
theorem readLocations_written {ds : List Draft} (hwritable : ∀ d ∈ ds, d.IsWritable)
    (hnodup : (ds.map (·.identifier)).Nodup) :
    readLocations (Table.written (ds.map Draft.cells)) = .ok (ds.map Draft.location) := by
  have hrows : ∀ cells ∈ ds.map Draft.cells,
      cells ≠ [] ∧ ∀ cell ∈ cells, cell.length ≤ Table.maxCellSize := by
    intro cells hcells
    obtain ⟨d, hd, rfl⟩ := List.mem_map.mp hcells
    exact ⟨List.cons_ne_nil _ _, (hwritable d hd).length_le⟩
  obtain ⟨rs, hrecords, hcells⟩ := Table.exists_records_written hrows
  have hread : ofRows [] (rs.filterMap Table.Record.row?) = .ok (ds.map Draft.location) :=
    Draft.ofRows_filterMap hcells hwritable hnodup fun _ _ => List.not_mem_nil
  unfold readLocations Table.rows
  rw [hrecords]
  dsimp only
  rw [hread]
  rfl

/-- A comma, quotes, line ends and a null character in an identifier, a zone that looks like a comment, and
an identifier that is empty. -/
theorem readLocations_written_hostile :
    let ds : List Draft :=
      [⟨"a, \"b\"\n\r\x00c".toList, "#Z".toList, " 1_0".toList, "nan\r\n".toList, [], []⟩,
        ⟨[], "\"".toList, [], [], "-0.5".toList, "1e999".toList⟩]
    (∀ d ∈ ds, d.IsWritable) ∧ (ds.map (·.identifier)).Nodup ∧
      readLocations (Table.written (ds.map Draft.cells)) = .ok (ds.map Draft.location) := by
  intro ds
  have hwritable : ∀ d ∈ ds, d.IsWritable := by decide
  have hnodup : (ds.map (·.identifier)).Nodup := by decide
  exact ⟨hwritable, hnodup, readLocations_written hwritable hnodup⟩

end AreaAtlas

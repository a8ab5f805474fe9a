import AreaAtlas.Proofs.Location
import AreaAtlas.Proofs.Table.Draft
import AreaAtlas.Proofs.Table.Front

/-!
# Which location tables are read

A location table is read record by record.  Those that count are its entries: they hold text, are no comment
and are not the titles.  A table is read exactly if no record of it is refused, every entry is a row of six
cells whose places are left out or numbers, and no identifier stands twice; `RowsAre` says so of the entries
without a look at the order in which they are read.  Otherwise the first entry at fault decides the outcome,
and of its faults the first one in the order of `RowFault`; what stands behind that record is not looked at.
`readLocations_isExact` is the main statement.
-/

namespace AreaAtlas

namespace Location

open Table (Record EndsRecord countLines)

/-! ## Places -/

/-- What is wrong with two texts that are no place. -/
inductive PlaceFault (x y : List Char) : Cause → Prop
  /-- One of them is left out. -/
  | unpaired : (x = [] ↔ y ≠ []) → PlaceFault x y .unpairedCoordinates
  /-- None is, and one is no number. -/
  | invalid : x ≠ [] → y ≠ [] → Binary64.read? x = none ∨ Binary64.read? y = none →
      PlaceFault x y (.invalidCoordinates (.ofList x) (.ofList y))

/-- Of a place no text is left out, or both are. -/
theorem IsPlace.eq_nil_iff {x y : List Char} (h : IsPlace x y) : x = [] ↔ y = [] := by
  have hnil : ¬(Binary64.read? []).isSome = true := by simp [Binary64.read?_nil]
  rcases h with ⟨rfl, rfl⟩ | ⟨hx, hy⟩
  · rfl
  · refine iff_of_false ?_ ?_
    · rintro rfl
      exact hnil hx
    · rintro rfl
      exact hnil hy

/-- With a fault two texts are no place. -/
theorem PlaceFault.not_isPlace {x y : List Char} {cause : Cause} (h : PlaceFault x y cause) :
    ¬IsPlace x y := by
  intro hplace
  cases h with
  | unpaired hne => exact iff_not_self ((IsPlace.eq_nil_iff hplace).symm.trans hne)
  | invalid hx hy hread =>
    rcases hplace with ⟨hnil, -⟩ | ⟨hsx, hsy⟩
    · exact hx hnil
    · rcases hread with hnone | hnone
      · simp [hnone] at hsx
      · simp [hnone] at hsy

/-- Two texts that are no place have a fault. -/
theorem readPosition_cases (x y : List Char) :
    IsPlace x y ∧ readPosition x y = .ok (Areas.positionOf? (x, y)) ∨
      ∃ cause, PlaceFault x y cause ∧ readPosition x y = .error cause := by
  unfold readPosition
  split
  · exact Or.inl ⟨Or.inl ⟨rfl, rfl⟩, rfl⟩
  · next hy => exact Or.inr ⟨_, .unpaired (iff_of_true rfl hy), rfl⟩
  · next hx => exact Or.inr ⟨_, .unpaired (iff_of_false hx fun h => h rfl), rfl⟩
  · next hx hy _ =>
    cases hvx : Binary64.read? x with
    | none => exact Or.inr ⟨_, .invalid hx hy (Or.inl hvx), rfl⟩
    | some vx =>
      cases hvy : Binary64.read? y with
      | none => exact Or.inr ⟨_, .invalid hx hy (Or.inr hvy), rfl⟩
      | some vy =>
        refine Or.inl ⟨Or.inr ⟨by simp [hvx], by simp [hvy]⟩, ?_⟩
        simp [Areas.positionOf?, hvx, hvy]

theorem readPosition_eq_ok_iff {x y : List Char} {position : Option Position} :
    readPosition x y = .ok position ↔ IsPlace x y ∧ position = Areas.positionOf? (x, y) := by
  rcases readPosition_cases x y with ⟨hplace, hread⟩ | ⟨cause, hfault, hread⟩
  · rw [hread]
    simp [hplace, eq_comm]
  · rw [hread]
    simp [hfault.not_isPlace]

theorem placeFault_of_readPosition {x y : List Char} {cause : Cause}
    (h : readPosition x y = .error cause) : PlaceFault x y cause := by
  rcases readPosition_cases x y with ⟨-, hread⟩ | ⟨cause', hfault, hread⟩
  · rw [hread] at h
    cases h
  · rw [hread] at h
    cases h
    exact hfault

/-! ## Rows -/

/-- The first thing that is wrong with the cells of a row, behind rows of these identifiers. -/
inductive RowFault (known : List (List Char)) : List (List Char) → Cause → Prop
  /-- There are not as many cells as columns. -/
  | columns {cells : List (List Char)} : cells.length ≠ columns.length →
      RowFault known cells (.columnCount columns.length cells.length)
  /-- A row before has this identifier. -/
  | repeated {d : Draft} : d.identifier ∈ known →
      RowFault known d.cells (.repeatedLocation (.ofList d.identifier))
  /-- The place in the world is none. -/
  | position {d : Draft} {cause : Cause} : d.identifier ∉ known → PlaceFault d.x d.y cause →
      RowFault known d.cells cause
  /-- The place on the map is none. -/
  | mapPosition {d : Draft} {cause : Cause} : d.identifier ∉ known → IsPlace d.x d.y →
      PlaceFault d.mapX d.mapY cause → RowFault known d.cells cause

/-- Cells make a row of six, or their number is wrong. -/
theorem exists_draft_or (cells : List (List Char)) :
    (∃ d : Draft, cells = d.cells) ∨ cells.length ≠ columns.length := by
  by_cases h : cells.length = columns.length
  · match cells, h with
    | [identifier, zone, x, y, mapX, mapY], _ => exact Or.inl ⟨⟨identifier, zone, x, y, mapX, mapY⟩, rfl⟩
  · exact Or.inr h

theorem ofRow_of_length_ne {known : List String} {cells : List (List Char)}
    (h : cells.length ≠ columns.length) :
    ofRow known cells = .error (.columnCount columns.length cells.length) := by
  unfold ofRow
  split
  · exact absurd rfl h
  · rfl

/-- What a row of six cells is read as. -/
theorem ofRow_cells (known : List String) (d : Draft) : ofRow known d.cells =
    if String.ofList d.identifier ∈ known then .error (.repeatedLocation (.ofList d.identifier))
    else readPosition d.x d.y >>= fun position => readPosition d.mapX d.mapY >>= fun mapPosition =>
      .ok ⟨.ofList d.identifier, .ofList d.zone, position, mapPosition⟩ := by
  show ofRow known [_, _, _, _, _, _] = _
  unfold ofRow
  dsimp only
  split
  · rfl
  · rfl

/-- A row that is read has six cells. -/
theorem exists_draft_of_ofRow {known : List String} {cells : List (List Char)} {location : Location}
    (h : ofRow known cells = .ok location) : ∃ d : Draft, cells = d.cells := by
  rcases exists_draft_or cells with hd | hlength
  · exact hd
  · rw [ofRow_of_length_ne hlength] at h
    cases h

theorem ofRow_cells_eq_ok_iff {known : List String} {d : Draft} {location : Location} :
    ofRow known d.cells = .ok location ↔ String.ofList d.identifier ∉ known ∧
      (IsPlace d.x d.y ∧ IsPlace d.mapX d.mapY) ∧ location = d.location := by
  rw [ofRow_cells]
  by_cases h : String.ofList d.identifier ∈ known
  · simp [h]
  · rw [if_neg h]
    simp only [Except.bind_eq_ok_iff, readPosition_eq_ok_iff, Except.ok.injEq, h, not_false_eq_true,
      true_and]
    constructor
    · rintro ⟨_, ⟨hplace, rfl⟩, _, ⟨hmap, rfl⟩, rfl⟩
      exact ⟨⟨hplace, hmap⟩, rfl⟩
    · rintro ⟨⟨hplace, hmap⟩, rfl⟩
      exact ⟨_, ⟨hplace, rfl⟩, _, ⟨hmap, rfl⟩, rfl⟩

/-- A row that is not read has a fault, and this is the first one. -/
theorem rowFault_of_ofRow {known : List String} {identifiers : List (List Char)}
    (hknown : ∀ identifier, String.ofList identifier ∈ known ↔ identifier ∈ identifiers)
    {cells : List (List Char)} {cause : Cause} (h : ofRow known cells = .error cause) :
    RowFault identifiers cells cause := by
  rcases exists_draft_or cells with ⟨d, rfl⟩ | hlength
  · rw [ofRow_cells] at h
    split at h
    · next hmem =>
      cases h
      exact .repeated ((hknown _).mp hmem)
    · next hmem =>
      have hnew : d.identifier ∉ identifiers := fun hd => hmem ((hknown _).mpr hd)
      rcases Except.bind_eq_error_iff.mp h with hposition | ⟨position, hposition, h⟩
      · exact .position hnew (placeFault_of_readPosition hposition)
      · rcases Except.bind_eq_error_iff.mp h with hmap | ⟨mapPosition, -, h⟩
        · exact .mapPosition hnew (readPosition_eq_ok_iff.mp hposition).1 (placeFault_of_readPosition hmap)
        · cases h
  · rw [ofRow_of_length_ne hlength] at h
    cases h
    exact .columns hlength

/-! ## Entries -/

/-- Whether cells hold a location: there is text in them, and they are neither a comment nor the titles. -/
def isEntry (cells : List (List Char)) : Bool :=
  !Table.isEmptyRow cells && !Table.isComment cells && cells ≠ columns.map String.toList

/-- The cells of the records that hold locations, without the white space around them. -/
def entries (records : List Record) : List (List (List Char)) :=
  (records.map fun r => r.cells.map trim).filter isEntry

/-- **Rows are these**: each has the six cells of a draft whose places can be read, and no two have the same
identifier. -/
structure RowsAre (rows : List (List (List Char))) (ds : List Draft) : Prop where
  cells : rows = ds.map Draft.cells
  places : ∀ d ∈ ds, IsPlace d.x d.y ∧ IsPlace d.mapX d.mapY
  nodup : (ds.map (·.identifier)).Nodup

/-- Read records in order; `known` are the identifiers of the records before. -/
def ofRecords (known : List String) (records : List Record) : Except DocumentFault (List Location) :=
  ofRows known (records.filterMap Record.row?)

/-- A row is a record with text that is no comment. -/
theorem row?_eq_some {r row : Record} (h : r.row? = some row) :
    (Table.isEmptyRow (r.cells.map trim) = false ∧ Table.isComment (r.cells.map trim) = false) ∧
      row = ⟨r.line, r.cells.map trim⟩ := by
  unfold Record.row? at h
  dsimp only at h
  split at h
  · cases h
  · next hkept =>
    cases h
    exact ⟨by simpa using hkept, rfl⟩

section Records

variable {known : List String} {records : List Record} {r : Record}

theorem ofRecords_cons_of_not_isEntry (h : ¬isEntry (r.cells.map trim) = true) :
    ofRecords known (r :: records) = ofRecords known records := by
  unfold ofRecords
  rw [List.filterMap_cons]
  cases hrow : r.row? with
  | none => rfl
  | some row =>
    obtain ⟨hkept, rfl⟩ := row?_eq_some hrow
    -- a row that is no entry is the one of the titles
    have htitles : r.cells.map trim = columns.map String.toList := by
      by_contra hne
      exact h (by simp [isEntry, hkept.1, hkept.2, hne])
    show ofRows known (⟨r.line, r.cells.map trim⟩ :: _) = _
    rw [ofRows, if_pos htitles]

theorem ofRecords_cons_of_isEntry (h : isEntry (r.cells.map trim) = true) :
    ofRecords known (r :: records) =
      (ofRow known (r.cells.map trim)).mapError (DocumentFault.inLocations r.line) >>= fun location =>
        (ofRecords (location.identifier :: known) records).map (location :: ·) := by
  obtain ⟨hkept, htitles⟩ := Bool.and_eq_true_iff.mp h
  have hrow : r.row? = some ⟨r.line, r.cells.map trim⟩ := by
    unfold Record.row?
    refine if_neg ?_
    simpa [Bool.and_eq_true] using hkept
  unfold ofRecords
  rw [List.filterMap_cons_some hrow, ofRows, if_neg (of_decide_eq_true htitles)]
  rfl

theorem entries_cons_of_isEntry (h : isEntry (r.cells.map trim) = true) :
    entries (r :: records) = r.cells.map trim :: entries records :=
  List.filter_cons_of_pos h

theorem entries_cons_of_not_isEntry (h : ¬isEntry (r.cells.map trim) = true) :
    entries (r :: records) = entries records :=
  List.filter_cons_of_neg h

/-- Which identifiers are known behind a row: its own, and those before. -/
theorem forall_notMem_cons_iff {d : Draft} {others : List Draft} {known : List String} :
    (∀ e ∈ others, String.ofList e.identifier ∉ d.location.identifier :: known) ↔
      d.identifier ∉ others.map (·.identifier) ∧ ∀ e ∈ others, String.ofList e.identifier ∉ known := by
  have hname : ∀ e : Draft, String.ofList e.identifier = d.location.identifier ↔
      e.identifier = d.identifier := fun e => String.ofList_inj
  simp only [List.mem_cons, not_or, hname, List.mem_map, not_exists, not_and]
  exact ⟨fun h => ⟨fun e he => (h e he).1, fun e he => (h e he).2⟩, fun h e he => ⟨h.1 e he, h.2 e he⟩⟩

theorem rowsAre_nil : RowsAre [] [] :=
  ⟨rfl, List.forall_mem_nil _, List.nodup_nil⟩

theorem rowsAre_cons_iff {cells : List (List Char)} {rows : List (List (List Char))} {ds : List Draft} :
    RowsAre (cells :: rows) ds ↔ ∃ d others, ds = d :: others ∧ cells = d.cells ∧
      (IsPlace d.x d.y ∧ IsPlace d.mapX d.mapY) ∧ d.identifier ∉ others.map (·.identifier) ∧
      RowsAre rows others := by
  constructor
  · rintro ⟨hcells, hplaces, hnodup⟩
    obtain ⟨d, others, rfl, rfl, rfl⟩ := List.map_eq_cons_iff.mp hcells.symm
    obtain ⟨hplace, hothers⟩ := List.forall_mem_cons.mp hplaces
    obtain ⟨hnew, hnodup⟩ := List.nodup_cons.mp hnodup
    exact ⟨d, others, rfl, rfl, hplace, hnew, rfl, hothers, hnodup⟩
  · rintro ⟨d, others, rfl, rfl, hplace, hnew, rfl, hothers, hnodup⟩
    exact ⟨rfl, List.forall_mem_cons.mpr ⟨hplace, hothers⟩, List.nodup_cons.mpr ⟨hnew, hnodup⟩⟩

/-- **Records are read exactly if their entries are rows of new locations**, and each of these gives its
location. -/
theorem ofRecords_eq_ok_iff {locations : List Location} :
    ofRecords known records = .ok locations ↔ ∃ ds, RowsAre (entries records) ds ∧
      (∀ d ∈ ds, String.ofList d.identifier ∉ known) ∧ locations = ds.map Draft.location := by
  induction records generalizing known locations with
  | nil =>
    constructor
    · intro h
      cases h
      exact ⟨[], rowsAre_nil, List.forall_mem_nil _, rfl⟩
    · rintro ⟨ds, hrows, -, rfl⟩
      obtain rfl := List.map_eq_nil_iff.mp hrows.cells.symm
      rfl
  | cons r rest ih =>
    by_cases hentry : isEntry (r.cells.map trim) = true
    · rw [ofRecords_cons_of_isEntry hentry, entries_cons_of_isEntry hentry, Except.bind_eq_ok_iff]
      simp only [Except.mapError_eq_ok_iff, Except.map_eq_ok_iff, ih, rowsAre_cons_iff]
      constructor
      · rintro ⟨location, hrow, _, ⟨others, hrows, hnew, rfl⟩, rfl⟩
        obtain ⟨d, hd⟩ := exists_draft_of_ofRow hrow
        rw [hd] at hrow
        obtain ⟨hdnew, hplaces, rfl⟩ := ofRow_cells_eq_ok_iff.mp hrow
        obtain ⟨hdistinct, hothers⟩ := forall_notMem_cons_iff.mp hnew
        exact ⟨d :: others, ⟨d, others, rfl, hd, hplaces, hdistinct, hrows⟩,
          List.forall_mem_cons.mpr ⟨hdnew, hothers⟩, rfl⟩
      · rintro ⟨_, ⟨d, others, rfl, hcells, hplaces, hdistinct, hrows⟩, hnew, rfl⟩
        obtain ⟨hdnew, hothers⟩ := List.forall_mem_cons.mp hnew
        refine ⟨d.location, ?_, _, ⟨others, hrows, forall_notMem_cons_iff.mpr ⟨hdistinct, hothers⟩, rfl⟩,
          rfl⟩
        rw [hcells]
        exact ofRow_cells_eq_ok_iff.mpr ⟨hdnew, hplaces, rfl⟩
    · rw [ofRecords_cons_of_not_isEntry hentry, entries_cons_of_not_isEntry hentry]
      exact ih

/-- Records behind records that are read. -/
theorem ofRecords_append {locations : List Location} (h : ofRecords known records = .ok locations)
    (behind : List Record) : ofRecords known (records ++ behind) =
      (ofRecords ((locations.map (·.identifier)).reverse ++ known) behind).map (locations ++ ·) := by
  induction records generalizing known locations with
  | nil =>
    cases h
    exact (congrFun Except.map_id _).symm
  | cons r rest ih =>
    rw [List.cons_append]
    by_cases hentry : isEntry (r.cells.map trim) = true
    · rw [ofRecords_cons_of_isEntry hentry] at h ⊢
      obtain ⟨location, hrow, h⟩ := Except.bind_eq_ok_iff.mp h
      obtain ⟨others, hrest, rfl⟩ := Except.map_eq_ok_iff.mp h
      rw [hrow]
      show (ofRecords (location.identifier :: known) (rest ++ behind)).map (location :: ·) = _
      rw [ih hrest, List.map_cons, List.reverse_cons, List.append_assoc, List.singleton_append]
      cases ofRecords ((others.map (·.identifier)).reverse ++ location.identifier :: known) behind with
      | error _ => rfl
      | ok _ => rfl
    · rw [ofRecords_cons_of_not_isEntry hentry] at h ⊢
      exact ih h

/-- **The first fault of records** is that of the first entry that is not read. -/
theorem exists_of_ofRecords_eq_error {fault : DocumentFault} (h : ofRecords known records = .error fault) :
    ∃ earlier record later locations cause, records = earlier ++ record :: later ∧
      ofRecords known earlier = .ok locations ∧ isEntry (record.cells.map trim) = true ∧
      ofRow ((locations.map (·.identifier)).reverse ++ known) (record.cells.map trim) = .error cause ∧
      fault = .inLocations record.line cause := by
  induction records generalizing known with
  | nil => cases h
  | cons r rest ih =>
    by_cases hentry : isEntry (r.cells.map trim) = true
    · rw [ofRecords_cons_of_isEntry hentry] at h
      cases hrow : ofRow known (r.cells.map trim) with
      | error cause =>
        rw [hrow] at h
        cases h
        exact ⟨[], r, rest, [], cause, rfl, rfl, hentry, hrow, rfl⟩
      | ok location =>
        rw [hrow] at h
        have h : (ofRecords (location.identifier :: known) rest).map (location :: ·) = .error fault := h
        cases hrest : ofRecords (location.identifier :: known) rest with
        | ok others =>
          rw [hrest] at h
          cases h
        | error fault' =>
          rw [hrest] at h
          cases h
          obtain ⟨earlier, record, later, locations, cause, rfl, hearlier, hrecord, hcause, hfault⟩ :=
            ih hrest
          refine ⟨r :: earlier, record, later, location :: locations, cause, rfl, ?_, hrecord, ?_, hfault⟩
          · rw [ofRecords_cons_of_isEntry hentry, hrow]
            show (ofRecords (location.identifier :: known) earlier).map (location :: ·) = _
            rw [hearlier]
            rfl
          · rw [List.map_cons, List.reverse_cons, List.append_assoc, List.singleton_append]
            exact hcause
    · rw [ofRecords_cons_of_not_isEntry hentry] at h
      obtain ⟨earlier, record, later, locations, cause, rfl, hearlier, hrest⟩ := ih h
      refine ⟨r :: earlier, record, later, locations, cause, rfl, ?_, hrest⟩
      rwa [ofRecords_cons_of_not_isEntry hentry]

end Records

/-- **A table is at fault**: it ends with an entry that is the first to be no row of a new location, and this
is what is wrong with it. -/
def EndsInFault (front : List Char) (cause : Cause) : Prop :=
  ∃ earlier record ds, Table.records front = ⟨earlier ++ [record], none⟩ ∧
    RowsAre (entries earlier) ds ∧ isEntry (record.cells.map trim) = true ∧
    RowFault (ds.map (·.identifier)) (record.cells.map trim) cause

end Location

open Location Table

/-- A fault of the records in front is a fault of the table. -/
theorem readLocations_eq_error {text : List Char} {fault : DocumentFault}
    (h : ofRecords [] (records text).records = .error fault) :
    readLocations text = .error (.document fault) := by
  unfold readLocations
  show ((ofRecords [] (records text).records).mapError Fault.document >>= _) = _
  rw [h]
  rfl

/-- **Which location tables are read, and what is told of the others.**  A table is read exactly if no record
of it is refused and its entries are rows of distinct identifiers, and each entry gives its location.
Otherwise, unless a record is refused first, the fault is that of the first entry which is not such a row, on
the last line of its record, and it is the same whatever stands behind that record. -/
theorem readLocations_isExact (text : List Char) :
    (∀ locations, readLocations text = .ok locations ↔ (records text).fault = none ∧
      ∃ ds, RowsAre (entries (records text).records) ds ∧ locations = ds.map Draft.location) ∧
    ((¬∃ ds, RowsAre (entries (records text).records) ds) →
      ∃ front behind cause, text = front ++ behind ∧ (EndsRecord front ∨ behind = []) ∧
        EndsInFault front cause ∧ ∀ other, EndsRecord front ∨ other = [] →
          readLocations (front ++ other)
            = .error (.document (.inLocations (countLines front) cause))) := by
  constructor
  · intro locations
    rw [readLocations_eq_ok_iff]
    show ofRecords [] (records text).records = .ok locations ∧ (records text).fault = none ↔ _
    rw [ofRecords_eq_ok_iff, and_comm]
    simp only [List.not_mem_nil, not_false_eq_true, implies_true, true_and]
  · intro hnone
    cases hread : ofRecords [] (records text).records with
    | ok locations =>
      obtain ⟨ds, hrows, -⟩ := ofRecords_eq_ok_iff.mp hread
      exact absurd ⟨ds, hrows⟩ hnone
    | error fault =>
      obtain ⟨earlier, record, later, locations, cause, hrecords, hearlier, hentry, hcause, -⟩ :=
        exists_of_ofRecords_eq_error hread
      obtain ⟨front, behind, rfl, hcut⟩ := Scan.exists_cut hrecords
      obtain ⟨ds, hrows, -, rfl⟩ := ofRecords_eq_ok_iff.mp hearlier
      have hfault : RowFault (ds.map (·.identifier)) (record.cells.map trim) cause := by
        refine rowFault_of_ofRow ?_ hcause
        intro identifier
        simp only [List.append_nil, List.mem_reverse, List.map_map, List.mem_map, Function.comp_apply]
        exact exists_congr fun d => and_congr_right fun _ => String.ofList_inj
      refine ⟨front, behind, cause, rfl, hcut.endsRecord_or,
        ⟨earlier, record, ds, hcut.records, hrows, hentry, hfault⟩, ?_⟩
      intro other hother
      obtain ⟨more, hmore⟩ := hcut.exists_records_append hother
      apply readLocations_eq_error
      rw [hmore, ofRecords_append hearlier, ofRecords_cons_of_isEntry hentry, hcause, hcut.line_eq]
      rfl

/-- A repeated identifier with half a place, on the sixth line: a comment, the titles, a row of two lines and
a blank line stand before it, and a row of a single cell behind. -/
theorem readLocations_isExact_faultyTwice :
    let text := "#\nidentifier,zone,x,y,map_x,map_y\na,\"\n\",,,1,2\n\na,,1,,,\nb".toList
    (¬∃ ds, RowsAre (entries (records text).records) ds) ∧
      ∃ front behind, text = front ++ behind ∧ countLines front = 6 ∧
        EndsInFault front (.repeatedLocation "a") := by
  intro text
  have hfault : (records text).fault = none := by decide
  have hread : readLocations text = .error (.document (.inLocations 6 (.repeatedLocation "a"))) := by
    decide
  have hnone : ¬∃ ds, RowsAre (entries (records text).records) ds := by
    rintro ⟨ds, hrows⟩
    have hok := ((readLocations_isExact text).1 _).mpr ⟨hfault, ds, hrows, rfl⟩
    rw [hread] at hok
    cases hok
  obtain ⟨front, behind, cause, htext, hends, hcause, hsame⟩ := (readLocations_isExact text).2 hnone
  have heq := hsame behind hends
  rw [← htext, hread] at heq
  obtain ⟨hlines, rfl⟩ : 6 = countLines front ∧ Cause.repeatedLocation "a" = cause := by
    simpa [DocumentFault.inLocations] using heq
  exact ⟨hnone, front, behind, htext, hlines.symm, hcause⟩

end AreaAtlas

import AreaAtlas.Location
import AreaAtlas.Proofs.Reading
import Mathlib.Data.List.Basic

/-!
# The location table

A row whose identifier is known is a fault, so every location of a table has a name of its own, and a
name leads to at most one row.
-/

namespace AreaAtlas

namespace Location

/-- A row that is read has an identifier that is not known. -/
theorem identifier_notMem_of_ofRow {known : List String} {cells : List (List Char)}
    {location : Location} (h : ofRow known cells = .ok location) : location.identifier ∉ known := by
  unfold ofRow at h
  split at h
  · next identifier zone x y mapX mapY =>
    by_cases hmem : String.ofList identifier ∈ known
    · rw [if_pos hmem] at h
      cases h
    · rw [if_neg hmem] at h
      change (readPosition x y >>= fun position => readPosition mapX mapY >>= fun mapPosition =>
        .ok ⟨.ofList identifier, .ofList zone, position, mapPosition⟩) = .ok location at h
      obtain ⟨position, -, h⟩ := Except.bind_eq_ok_iff.mp h
      obtain ⟨mapPosition, -, h⟩ := Except.bind_eq_ok_iff.mp h
      cases h
      exact hmem
  · cases h

theorem ofRows_distinct {known : List String} {rows : List Table.Record}
    {locations : List Location} (h : ofRows known rows = .ok locations) :
    (∀ location ∈ locations, location.identifier ∉ known) ∧
      (locations.map (·.identifier)).Nodup := by
  induction rows generalizing known locations with
  | nil =>
    cases h
    simp
  | cons row rest ih =>
    unfold ofRows at h
    split at h
    · exact ih h
    · obtain ⟨location, hrow, h⟩ := Except.bind_eq_ok_iff.mp h
      obtain ⟨others, hrest, h⟩ := Except.bind_eq_ok_iff.mp h
      cases h
      have hnew := identifier_notMem_of_ofRow (Except.mapError_eq_ok_iff.mp hrow)
      obtain ⟨hknown, hnodup⟩ := ih hrest
      constructor
      · intro l hl
        rcases List.mem_cons.mp hl with rfl | hl
        · exact hnew
        · exact fun hm => hknown l hl (List.mem_cons_of_mem _ hm)
      · rw [List.map_cons, List.nodup_cons]
        refine ⟨?_, hnodup⟩
        intro hm
        obtain ⟨l, hl, he⟩ := List.mem_map.mp hm
        exact hknown l hl (he ▸ List.mem_cons_self)

/-- Reading rows, it is their cells that count. -/
theorem ofRows_congr {known : List String} {rs rs' : List Table.Record} {locations : List Location}
    (hcells : rs'.map (·.cells) = rs.map (·.cells)) (h : ofRows known rs = .ok locations) :
    ofRows known rs' = .ok locations := by
  induction rs generalizing rs' known locations with
  | nil =>
    rw [List.map_nil, List.map_eq_nil_iff] at hcells
    rwa [hcells]
  | cons r rs ih =>
    obtain ⟨r', rs', rfl, hr, hrest⟩ := List.map_eq_cons_iff.mp hcells
    have hr : r'.cells = r.cells := hr
    unfold ofRows at h ⊢
    rw [hr]
    split at h
    · next hcolumns =>
      rw [if_pos hcolumns]
      exact ih hrest h
    · next hcolumns =>
      rw [if_neg hcolumns]
      obtain ⟨location, hrow, h⟩ := Except.bind_eq_ok_iff.mp h
      obtain ⟨others, hothers, h⟩ := Except.bind_eq_ok_iff.mp h
      rw [Except.mapError_eq_ok_iff.mp hrow]
      apply Except.bind_eq_ok_iff.mpr
      exact ⟨location, rfl, Except.bind_eq_ok_iff.mpr ⟨others, ih hrest hothers, h⟩⟩

end Location

/-- A location table is read if no row of it is faulty and nothing of it is refused. -/
theorem readLocations_eq_ok_iff {text : List Char} {locations : List Location} :
    readLocations text = .ok locations ↔
      Location.ofRows [] (Table.rows text).records = .ok locations ∧ (Table.rows text).fault = none := by
  unfold readLocations
  dsimp only
  cases Location.ofRows [] (Table.rows text).records with
  | error fault => simp [Except.mapError, bind, Except.bind]
  | ok read =>
    cases (Table.rows text).fault with
    | none => simp [Except.mapError, bind, Except.bind, pure, Except.pure]
    | some fault => simp [Except.mapError, bind, Except.bind, throw, throwThe, MonadExceptOf.throw]

/-- The locations of a table have distinct names. -/
theorem readLocations_nodup {text : List Char} {locations : List Location}
    (h : readLocations text = .ok locations) : (locations.map (·.identifier)).Nodup :=
  (Location.ofRows_distinct (readLocations_eq_ok_iff.mp h).1).2

end AreaAtlas

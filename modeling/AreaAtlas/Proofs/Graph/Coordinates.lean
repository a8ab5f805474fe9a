import AreaAtlas.Graph.Basic
import AreaAtlas.Proofs.Graph.WellFormed
import AreaAtlas.Proofs.Number.Notation
import AreaAtlas.Proofs.Number.Range
import AreaAtlas.Proofs.Table.Acceptance

/-!
# The coordinates of a graph

A coordinate is written in the header of an anchor or in a cell of the location table, and it is kept in single
precision.  Nothing is refused for its size, and a cell may name a value that is not finite; so may the document
of a graph then.  `Graph.isFinite_iff_of_build` is the main statement: it says which texts give finite coordinates,
and that JSON can express a graph exactly if all its coordinates are finite.
-/

namespace AreaAtlas

/-- A coordinate is read from a text: it is the number of that text in single precision, and it is finite exactly
if the text writes a decimal number that is not too large. -/
structure Binary64.IsReadFrom (coordinate : Binary64) (text : List Char) : Prop where
  value : (read? text).map toSingle = some coordinate
  isFinite_iff : coordinate.isFinite = true ↔ WritesSingle text

theorem Binary64.isReadFrom_toSingle {text : List Char} {x : Binary64} (h : read? text = some x) :
    x.toSingle.IsReadFrom text :=
  ⟨by rw [h, Option.map_some], isFinite_toSingle_iff_of_read? h⟩

namespace Graph

/-- **What places a node** of this name: two literals in the header that declares it, or the last two cells of
the row that describes it. -/
inductive PlacedBy (areas locations name : String) (x y : List Char) : Prop
  | header {p : Areas.Line × List Areas.Line} :
      p ∈ Areas.anchorLines (Areas.logicalLines areas.toList) →
      Areas.HeaderForm p.1.text name.toList (some (x, y)) → PlacedBy areas locations name x y
  | row {zone worldX worldY : List Char} :
      [name.toList, zone, worldX, worldY, x, y]
        ∈ Location.entries (Table.records locations.toList).records → PlacedBy areas locations name x y

/-- Both coordinates of a place are finite. -/
def IsFinite (place : Position) : Prop :=
  place.x.isFinite = true ∧ place.y.isFinite = true

/-! ## Texts of places -/

theorem exists_of_positionOf? {literals : List Char × List Char} {p : Position}
    (h : Areas.positionOf? literals = some p) :
    p.toSingle.x.IsReadFrom literals.1 ∧ p.toSingle.y.IsReadFrom literals.2 := by
  obtain ⟨x, hx, h⟩ := Option.bind_eq_some_iff.mp h
  obtain ⟨y, hy, rfl⟩ := Option.map_eq_some_iff.mp h
  exact ⟨Binary64.isReadFrom_toSingle hx, Binary64.isReadFrom_toSingle hy⟩

/-- Where an anchor stands is written in its header. -/
theorem placedBy_of_mem_declarationsIn {areas locations : String} {d : Areas.Declaration} {p : Position}
    (hd : d ∈ Areas.declarationsIn (Areas.logicalLines areas.toList)) (hp : d.position = some p) :
    ∃ x y, PlacedBy areas locations d.name x y ∧ Areas.positionOf? (x, y) = some p := by
  obtain ⟨lines, hlines, hread⟩ := List.mem_filterMap.mp hd
  obtain ⟨header, hheader, rfl⟩ := Option.map_eq_some_iff.mp hread
  obtain ⟨place, hform, hplace⟩ := Areas.Header.read?_eq_some_iff.mp hheader
  obtain ⟨⟨x, y⟩, rfl, hxy⟩ := Option.bind_eq_some_iff.mp (hplace.symm.trans hp)
  exact ⟨x, y, .header hlines hform, hxy⟩

/-- Where a location stands on the map is written in its row. -/
theorem placedBy_of_mem_locations {areas locations : String} {rows : List Location}
    (hrows : readLocations locations.toList = .ok rows) {row : Location} (hrow : row ∈ rows) {p : Position}
    (hp : row.mapPosition = some p) :
    ∃ x y, PlacedBy areas locations row.identifier x y ∧ Areas.positionOf? (x, y) = some p := by
  have hrecords : Location.ofRecords [] (Table.records locations.toList).records = .ok rows :=
    (readLocations_eq_ok_iff.mp hrows).1
  obtain ⟨ds, hare, -, rfl⟩ := Location.ofRecords_eq_ok_iff.mp hrecords
  obtain ⟨d, hd, rfl⟩ := List.mem_map.mp hrow
  have hcells : d.cells ∈ Location.entries (Table.records locations.toList).records := by
    rw [hare.cells]
    exact List.mem_map_of_mem hd
  have hname : d.location.identifier.toList = d.identifier := String.toList_ofList
  have hrow : [d.location.identifier.toList, d.zone, d.x, d.y, d.mapX, d.mapY]
      ∈ Location.entries (Table.records locations.toList).records := by
    rw [hname]
    exact hcells
  exact ⟨d.mapX, d.mapY, .row hrow, hp⟩

/-- A node that has a place stands where a text puts it. -/
theorem placedBy_of_mem_nodes {areas locations : String} {logic : Logic}
    (h : Logic.readUnrestricted areas locations = .ok logic) {n : Node} (hn : n ∈ logic.nodes) {p : Position}
    (hp : n.position = some p) :
    ∃ x y, PlacedBy areas locations n.identifier x y ∧ Areas.positionOf? (x, y) = some p := by
  have hexact := isExact_of_readUnrestricted h
  obtain ⟨hrows, -, -, hds, hlink, hnodes⟩ := Logic.read_eq_ok_iff.mp h
  have hleaf : n.kind = .pickup ∨ n.kind = .quest →
      ∃ x y, PlacedBy areas locations n.identifier x y ∧ Areas.positionOf? (x, y) = some p := by
    intro hkind
    obtain ⟨⟨row, hrow, hname⟩, hposition⟩ := hexact.leaf_position n hn hkind
    rw [← hname]
    exact placedBy_of_mem_locations hrows hrow ((hposition row hrow hname).symm.trans hp)
  cases hkind : n.kind with
  | anchor =>
    rw [hnodes] at hn
    obtain ⟨d, hd, hmember⟩ := NodeTable.exists_anchor_of_mem_tableOf hlink hn hkind
    have hname : n.identifier = d.name := congrArg NodeTable.Member.identifier hmember
    have hposition : n.position = d.position := congrArg NodeTable.Member.position hmember
    rw [hname]
    exact placedBy_of_mem_declarationsIn (hds ▸ hd) (hposition.symm.trans hp)
  | pickup => exact hleaf (Or.inl hkind)
  | quest => exact hleaf (Or.inr hkind)
  | state =>
    rw [hexact.state_position n hn hkind] at hp
    cases hp

/-! ## Documents -/

/-- The numbers of a graph's document are the coordinates of its vertices. -/
theorem holds_toJson_iff {g : Graph} {x : Binary64} : g.toJson.Holds x ↔
    ∃ entry ∈ g.vertices, x = entry.2.position.x ∨ x = entry.2.position.y := by
  have hvertex : ∀ v : Vertex, v.toJson.Holds x ↔ x = v.position.x ∨ x = v.position.y := by
    intro v
    simp [Vertex.toJson]
  have hconnection : ∀ c : Connection, ¬c.toJson.Holds x := by
    intro c
    simp [Connection.toJson]
  simp [toJson, hvertex, hconnection]

theorem isStandard_toJson_iff {g : Graph} :
    g.toJson.IsStandard ↔ ∀ entry ∈ g.vertices, IsFinite entry.2.position := by
  rw [Json.isStandard_iff]
  simp only [holds_toJson_iff]
  constructor
  · intro h entry hentry
    exact ⟨h _ ⟨entry, hentry, Or.inl rfl⟩, h _ ⟨entry, hentry, Or.inr rfl⟩⟩
  · rintro h x ⟨entry, hentry, rfl | rfl⟩
    · exact (h entry hentry).1
    · exact (h entry hentry).2

/-- **Which coordinates are finite**, and which graphs JSON can express. -/
theorem isFinite_iff_of_build {areas locations : String} {g : Graph}
    (h : Graph.build areas locations = .ok g) :
    (∀ entry ∈ g.vertices, ∃ x y, PlacedBy areas locations entry.2.name x y ∧
      entry.2.position.x.IsReadFrom x ∧ entry.2.position.y.IsReadFrom y) ∧
    (g.toJson.IsStandard ↔ ∀ entry ∈ g.vertices, IsFinite entry.2.position) := by
  refine ⟨?_, isStandard_toJson_iff⟩
  obtain ⟨logic, hlogic, rfl⟩ := Except.map_eq_ok_iff.mp h
  intro entry hentry
  rw [vertices_ofNodes (isExact_of_readUnrestricted hlogic).nodup] at hentry
  obtain ⟨n, hn, hkeyed⟩ := List.mem_filterMap.mp hentry
  rw [Node.keyed?_eq] at hkeyed
  obtain ⟨p, hp, rfl⟩ := Option.map_eq_some_iff.mp hkeyed
  obtain ⟨x, y, hplaced, hxy⟩ := placedBy_of_mem_nodes hlogic hn hp
  exact ⟨x, y, hplaced, exists_of_positionOf? hxy⟩

/-- The second literal is the least one that is too large, and the first is one less. -/
def aboutTheLimit : String :=
  "anchor A at 340282356779733642748073463979561713663, -340282356779733642748073463979561713664:\n" ++
    "  pickup P: free\n"

theorem isFinite_iff_of_build_aboutTheLimit :
    ∃ g, Graph.build aboutTheLimit "P,Zone,,,3_4.0e+37,-Infinity\n" = .ok g ∧
      g.vertices.map (fun entry =>
          (entry.2.name, entry.2.position.x.isFinite, entry.2.position.y.isFinite))
        = [("A", true, false), ("P", true, false)] ∧
      (∀ entry ∈ g.vertices, ∃ x y,
        PlacedBy aboutTheLimit "P,Zone,,,3_4.0e+37,-Infinity\n" entry.2.name x y ∧
          entry.2.position.x.IsReadFrom x ∧ entry.2.position.y.IsReadFrom y) ∧
      (g.toJson.IsStandard ↔ ∀ entry ∈ g.vertices, IsFinite entry.2.position) := by
  have hbuild : (Graph.build aboutTheLimit "P,Zone,,,3_4.0e+37,-Infinity\n").map
      (fun g => g.vertices.map fun entry =>
        (entry.2.name, entry.2.position.x.isFinite, entry.2.position.y.isFinite))
      = .ok [("A", true, false), ("P", true, false)] := by
    decide +kernel
  obtain ⟨g, hg, hfinite⟩ := Except.map_eq_ok_iff.mp hbuild
  obtain ⟨hplaced, hstandard⟩ := isFinite_iff_of_build hg
  exact ⟨g, hg, hfinite, hplaced, hstandard⟩

/-- A cell that names a NaN is accepted, and the document of the graph has no number for it. -/
theorem exists_build_not_isStandard :
    ∃ g, Graph.build "anchor A:\n  pickup P: free\n" "P,Z,,,nan,0\n" = .ok g ∧
      ¬(∀ entry ∈ g.vertices, IsFinite entry.2.position) ∧ ¬g.toJson.IsStandard := by
  have hbuild : (Graph.build "anchor A:\n  pickup P: free\n" "P,Z,,,nan,0\n").map (·.vertices)
      = .ok [("P", ⟨"P", ⟨.nan, .finite false ⟨0, by decide⟩ ⟨0, by decide⟩⟩⟩)] := by
    decide +kernel
  obtain ⟨g, hg, hvertices⟩ := Except.map_eq_ok_iff.mp hbuild
  have hnan : ¬∀ entry ∈ g.vertices, IsFinite entry.2.position := by
    intro hall
    have hfinite := (hall _ (hvertices ▸ List.mem_cons_self)).1
    cases hfinite
  exact ⟨g, hg, hnan, fun hstandard => hnan (isStandard_toJson_iff.mp hstandard)⟩

end Graph

end AreaAtlas

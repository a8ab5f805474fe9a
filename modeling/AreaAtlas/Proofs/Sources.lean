import AreaAtlas.Sources
import AreaAtlas.Proofs.Files.Store
import AreaAtlas.Proofs.Reading
import AreaAtlas.Proofs.Text.Utf8.Decoding

/-!
# Reading the source texts

A file gives the text whose encoding it holds, behind a mark if there is one, and nothing else of the text
is changed.  If it holds none, what is reported is the place at which the bytes behind the mark stop being
a text, and a fault of the areas file goes before one of the location file, `load_readsEncodings`.
-/

namespace AreaAtlas.Sources

variable {store : Files.Store} {path areasPath locationsPath : String}

/-- A path leads to a file of these bytes. -/
def LeadsTo (store : Files.Store) (path : String) (bytes : List UInt8) : Prop :=
  ∃ place, store.resolve path = .found place (.file bytes)

/-- A path leads to a file whose bytes, behind a mark if there is one, are the encoding of a text. -/
def Holds (store : Files.Store) (path text : String) : Prop :=
  ∃ bytes, LeadsTo store path bytes ∧ Utf8.encode text = Utf8.dropMark bytes

/-- **A report that a file cannot be decoded**: the fault describes its bytes behind the mark, and the
message names the position of the fault first. -/
structure ReportsUndecodable (path : String) (bytes : List UInt8) (fault : Utf8.Fault) : Prop where
  faultDescribes : Utf8.FaultDescribes (Utf8.dropMark bytes) fault
  message_of_one : fault.count = 1 → (Fault.undecodable path fault).message =
    "Failed to decode " ++ path ++ ": " ++ "'utf-8' codec can't decode " ++ "byte 0x"
      ++ String.ofList (hexDigits 2 fault.first.toNat) ++ " in position " ++ toString fault.position
      ++ ": " ++ fault.reason.description
  message_of_several : fault.count ≠ 1 → (Fault.undecodable path fault).message =
    "Failed to decode " ++ path ++ ": " ++ "'utf-8' codec can't decode " ++ "bytes in position "
      ++ toString fault.position ++ "-" ++ toString (fault.position + fault.count - 1)
      ++ ": " ++ fault.reason.description

/-- **What is read from two files.** -/
structure ReadsEncodings (store : Files.Store) (areasPath locationsPath : String)
    (result : Except Fault Sources) : Prop where
  /-- The texts are those whose encodings the files hold. -/
  eq_ok_iff : ∀ sources, result = .ok sources ↔
    Holds store areasPath sources.areas ∧ Holds store locationsPath sources.locations ∧
      sources.areasPath = areasPath ∧ sources.locationsPath = locationsPath
  /-- Texts that are written to the files are read back. -/
  eq_ok_of_isWritten : ∀ areas locations areasBytes locationsBytes,
    LeadsTo store areasPath areasBytes → Utf8.IsWritten areas areasBytes →
    LeadsTo store locationsPath locationsBytes → Utf8.IsWritten locations locationsBytes →
    result = .ok ⟨areas, locations, areasPath, locationsPath⟩
  /-- If the areas file holds no text, that is reported, whatever the location file is. -/
  areas_undecodable : ∀ bytes, LeadsTo store areasPath bytes → ¬Utf8.IsText (Utf8.dropMark bytes) →
    ∃ fault, result = .error (.undecodable areasPath fault) ∧ ReportsUndecodable areasPath bytes fault
  /-- If only the location file holds no text, that is. -/
  locations_undecodable : ∀ areas bytes, Holds store areasPath areas → LeadsTo store locationsPath bytes →
    ¬Utf8.IsText (Utf8.dropMark bytes) →
    ∃ fault, result = .error (.undecodable locationsPath fault) ∧
      ReportsUndecodable locationsPath bytes fault

/-! ## One file -/

theorem LeadsTo.readText_eq {bytes : List UInt8} (h : LeadsTo store path bytes) :
    readText store path = (Utf8.decode (Utf8.dropMark bytes)).mapError (.undecodable path) := by
  obtain ⟨place, hplace⟩ := h
  rw [readText, hplace]

theorem readText_eq_ok_iff {text : String} :
    readText store path = .ok text ↔ Holds store path text := by
  constructor
  · intro h
    unfold readText at h
    split at h
    · next place bytes hplace =>
      rw [Except.mapError_eq_ok_iff, Utf8.decode_eq_ok_iff] at h
      exact ⟨bytes, ⟨place, hplace⟩, h⟩
    · cases h
    · cases h
  · rintro ⟨bytes, hleads, htext⟩
    rw [hleads.readText_eq, Except.mapError_eq_ok_iff, Utf8.decode_eq_ok_iff]
    exact htext

theorem reportsUndecodable_of_decode_eq_error {bytes : List UInt8} {fault : Utf8.Fault}
    (h : Utf8.decode (Utf8.dropMark bytes) = .error fault) : ReportsUndecodable path bytes fault := by
  refine
    { faultDescribes := Utf8.faultDescribes_of_decode_eq_error h
      message_of_one := ?one
      message_of_several := ?several }
  case one =>
    intro hcount
    unfold Fault.message Utf8.Fault.message
    dsimp only
    rw [if_pos hcount]
    simp only [String.append_assoc]
  case several =>
    intro hcount
    unfold Fault.message Utf8.Fault.message
    dsimp only
    rw [if_neg hcount]
    simp only [String.append_assoc]

theorem exists_readText_eq_error {bytes : List UInt8} (hleads : LeadsTo store path bytes)
    (htext : ¬Utf8.IsText (Utf8.dropMark bytes)) :
    ∃ fault, readText store path = .error (.undecodable path fault) ∧
      ReportsUndecodable path bytes fault := by
  obtain ⟨fault, hread⟩ := Utf8.not_isText_iff.mp htext
  refine ⟨fault, ?_, reportsUndecodable_of_decode_eq_error hread⟩
  rw [hleads.readText_eq, hread]
  rfl

/-! ## Both files -/

theorem load_eq_bind : load store areasPath locationsPath =
    readText store areasPath >>= fun areas => readText store locationsPath >>= fun locations =>
      .ok ⟨areas, locations, areasPath, locationsPath⟩ :=
  rfl

theorem load_eq_ok_iff {sources : Sources} : load store areasPath locationsPath = .ok sources ↔
    Holds store areasPath sources.areas ∧ Holds store locationsPath sources.locations ∧
      sources.areasPath = areasPath ∧ sources.locationsPath = locationsPath := by
  obtain ⟨areas, locations, path₁, path₂⟩ := sources
  simp only [load_eq_bind, Except.bind_eq_ok_iff, readText_eq_ok_iff, Except.ok.injEq, Sources.mk.injEq]
  constructor
  · rintro ⟨_, hareas, _, hlocations, rfl, rfl, rfl, rfl⟩
    exact ⟨hareas, hlocations, rfl, rfl⟩
  · rintro ⟨hareas, hlocations, rfl, rfl⟩
    exact ⟨areas, hareas, locations, hlocations, rfl, rfl, rfl, rfl⟩

theorem load_of_areas_error {fault : Fault} (h : readText store areasPath = .error fault) :
    load store areasPath locationsPath = .error fault := by
  rw [load_eq_bind, h]
  rfl

theorem load_of_locations_error {areas : String} {fault : Fault} (hareas : Holds store areasPath areas)
    (h : readText store locationsPath = .error fault) :
    load store areasPath locationsPath = .error fault := by
  rw [load_eq_bind, readText_eq_ok_iff.mpr hareas, h]
  rfl

/-- **Loading decodes exactly UTF-8**: for all files and paths, what is read are the texts whose encodings
the files hold, and of bytes that are no text their first fault. -/
theorem load_readsEncodings (store : Files.Store) (areasPath locationsPath : String) :
    ReadsEncodings store areasPath locationsPath (load store areasPath locationsPath) := by
  refine
    { eq_ok_iff := fun sources => load_eq_ok_iff
      eq_ok_of_isWritten := ?written
      areas_undecodable := ?areas
      locations_undecodable := ?locations }
  case written =>
    intro areas locations areasBytes locationsBytes hareas hwritten hlocations hwritten'
    rw [← Utf8.encode_eq_dropMark_iff] at hwritten hwritten'
    exact load_eq_ok_iff.mpr ⟨⟨_, hareas, hwritten⟩, ⟨_, hlocations, hwritten'⟩, rfl, rfl⟩
  case areas =>
    intro bytes hleads htext
    obtain ⟨fault, hread, hreports⟩ := exists_readText_eq_error hleads htext
    exact ⟨fault, load_of_areas_error hread, hreports⟩
  case locations =>
    intro areas bytes hareas hleads htext
    obtain ⟨fault, hread, hreports⟩ := exists_readText_eq_error hleads htext
    exact ⟨fault, load_of_locations_error hareas hread, hreports⟩

/-! ### Four files -/

/-- Letters behind a mark, one character of three bytes, that character cut off behind a mark and a letter,
and a slash in its longer spelling. -/
def fourFiles : Files.Store :=
  ⟨[(["marked"], .file [0xEF, 0xBB, 0xBF, 0x61, 0x0D, 0x0A]), (["plain"], .file [0xE2, 0x82, 0xAC]),
    (["cut"], .file [0xEF, 0xBB, 0xBF, 0x61, 0xE2, 0x82]), (["overlong"], .file [0xC0, 0xAF])]⟩

theorem leadsTo_of_item? {name : String} {bytes : List UInt8} (hname : Files.IsPlain name)
    (hitem : store.item? [name] = some (.file bytes)) : LeadsTo store name bytes :=
  ⟨[name], Files.Store.resolve_eq_found hname hitem⟩

/-- Of the faults of `fourFiles`, that of the first file is reported; line ends are read as they are. -/
theorem load_readsEncodings_fourFiles :
    load fourFiles "marked" "plain" = .ok ⟨"a\r\n", "€", "marked", "plain"⟩ ∧
      (load fourFiles "cut" "overlong" = .error (.undecodable "cut" ⟨1, 0xE2, 2, .unexpectedEnd⟩) ∧
        ReportsUndecodable "cut" [0xEF, 0xBB, 0xBF, 0x61, 0xE2, 0x82] ⟨1, 0xE2, 2, .unexpectedEnd⟩) ∧
      load fourFiles "marked" "overlong" = .error (.undecodable "overlong" ⟨0, 0xC0, 1, .invalidStart⟩) ∧
        ReportsUndecodable "overlong" [0xC0, 0xAF] ⟨0, 0xC0, 1, .invalidStart⟩ := by
  have hmarked : LeadsTo fourFiles "marked" [0xEF, 0xBB, 0xBF, 0x61, 0x0D, 0x0A] :=
    leadsTo_of_item? (by decide +kernel) (by decide +kernel)
  have hplain : LeadsTo fourFiles "plain" [0xE2, 0x82, 0xAC] :=
    leadsTo_of_item? (by decide +kernel) (by decide +kernel)
  have hcut : LeadsTo fourFiles "cut" [0xEF, 0xBB, 0xBF, 0x61, 0xE2, 0x82] :=
    leadsTo_of_item? (by decide +kernel) (by decide +kernel)
  have hoverlong : LeadsTo fourFiles "overlong" [0xC0, 0xAF] :=
    leadsTo_of_item? (by decide +kernel) (by decide +kernel)
  have hletters : Holds fourFiles "marked" "a\r\n" := ⟨_, hmarked, by decide⟩
  have hcutRead : readText fourFiles "cut" = .error (.undecodable "cut" ⟨1, 0xE2, 2, .unexpectedEnd⟩) :=
    hcut.readText_eq
  have hoverlongRead : readText fourFiles "overlong" =
      .error (.undecodable "overlong" ⟨0, 0xC0, 1, .invalidStart⟩) :=
    hoverlong.readText_eq
  refine ⟨?_, ?_, ?_⟩
  · exact (load_readsEncodings fourFiles "marked" "plain").eq_ok_of_isWritten "a\r\n" "€" _ _ hmarked
      .marked hplain (.plain (by decide))
  · obtain ⟨fault, hload, hreports⟩ := (load_readsEncodings fourFiles "cut" "overlong").areas_undecodable
      _ hcut (Utf8.not_isText_iff.mpr ⟨⟨1, 0xE2, 2, .unexpectedEnd⟩, rfl⟩)
    rw [load_of_areas_error hcutRead] at hload ⊢
    cases hload
    exact ⟨rfl, hreports⟩
  · obtain ⟨fault, hload, hreports⟩ :=
      (load_readsEncodings fourFiles "marked" "overlong").locations_undecodable _ _ hletters hoverlong
        (Utf8.not_isText_iff.mpr ⟨⟨0, 0xC0, 1, .invalidStart⟩, rfl⟩)
    rw [load_of_locations_error hletters hoverlongRead] at hload ⊢
    cases hload
    exact ⟨rfl, hreports⟩

end AreaAtlas.Sources

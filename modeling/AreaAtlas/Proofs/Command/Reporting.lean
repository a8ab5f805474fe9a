import AreaAtlas.Command.Run
import AreaAtlas.Proofs.Command.Logging
import AreaAtlas.Proofs.Table.Refusal

/-!
# Reporting faults of the input

Once logging is set up, a run loads the two texts and builds the graph.  If either fails, the run reports
the message of the fault, after `Error: `, and ends; before that it does nothing but log.  The one fault that
it does not report is a location table that is refused, `LoadsOrReports`.
-/

namespace AreaAtlas.Command.World

/-- A run that logs these records and ends so, once logging is set up in the world `w`: `before` are the
effects before that, and `report` is all that it does besides logging. -/
structure EndsWith (w : World) (before : List Effect) (records : List Log.Record) (report : List Effect)
    (ending : Ending) (result : World × List Effect × Outcome) : Prop where
  /-- Nothing changes but what logging changes. -/
  world : result.1 = (w.logAll records).1
  item?_eq : ∀ place, w.SparesPlace place → result.1.store.item? place = w.store.item? place
  effects : result.2.1 = before ++ (w.logAll records).2 ++ report
  logged : ∀ effect ∈ (w.logAll records).2, effect.IsLogged records
  outcome : result.2.2 = .ran ending

/-- A run that reports a fault with this message, and fails in order. -/
abbrev Reports (w : World) (before : List Effect) (records : List Log.Record) (message : String)
    (result : World × List Effect × Outcome) : Prop :=
  w.EndsWith before records [.error ("Error: " ++ message ++ "\n")] (.exit 1) result

/-- The texts that a run with these arguments loads.  The first record is logged before. -/
def loadedSources (w : World) (a : Options.Arguments) : Except Sources.Fault Sources :=
  Sources.load (w.emit (loadingRecord a.areas a.locations)).1.store a.areas a.locations

/-- What a run with these arguments logs up to the graph or its fault, if these texts are loaded. -/
def stageRecords (a : Options.Arguments) (sources : Sources) : List Log.Record :=
  loadingRecord a.areas a.locations ::
    loadedRecord sources.areas sources.locations a.areas a.locations ::
      buildRecords sources.areas sources.locations

/-- **What becomes of faults of the input** in a run with these arguments, once logging is set up in the
world `w`. -/
structure LoadsOrReports (w : World) (before : List Effect) (a : Options.Arguments)
    (result : World × List Effect × Outcome) : Prop where
  /-- That a file gives no text is reported. -/
  unloaded : ∀ fault, w.loadedSources a = .error fault →
    w.Reports before [loadingRecord a.areas a.locations] fault.message result
  /-- So is a fault of a document. -/
  unread : ∀ sources fault, w.loadedSources a = .ok sources →
    Graph.build sources.areas sources.locations = .error (.document fault) →
    w.Reports before (stageRecords a sources) fault.message result
  /-- A fault of a table is not. -/
  escaped : ∀ sources fault, w.loadedSources a = .ok sources →
    Graph.build sources.areas sources.locations = .error (.table fault) →
    w.EndsWith before (stageRecords a sources) [] (.escaped (.table fault)) result
  /-- It escapes only where the location table is refused. -/
  exists_of_escaped : ∀ fault, result.2.2 = .ran (.escaped (.table fault)) →
    ∃ sources, w.loadedSources a = .ok sources ∧
      Graph.build sources.areas sources.locations = .error (.table fault)
  /-- A table that is refused has a stray carriage return or a cell that is too long. -/
  refused : ∀ areas locations fault, Graph.build areas locations = .error (.table fault) →
    fault = .strayReturn ∧ Table.HasStrayReturn locations.toList ∨
      fault = .cellTooLong ∧ Table.HasLongCell locations.toList

/-! ## What a run comes to -/

/-- Only building a graph ends with a fault of a table. -/
theorem useGraph_ending_ne (store : Files.Store) (g : Graph) (areas : String) (a : Options.Arguments)
    (fault : Table.Fault) : (useGraph store g areas a).ending ≠ .escaped (.table fault) := by
  have hplace : ∀ description place,
      (reportPlace description place).ending ≠ .escaped (.table fault) := by
    intro description place
    cases place with
    | none => simp [reportPlace]
    | some place => simp [reportPlace]
  unfold useGraph
  split
  · exact hplace _ _
  · split
    · exact hplace _ _
    · split
      · unfold writeGraph
        split
        · simp
        · simp
      · unfold drawGraph
        split
        · simp
        · split
          · simp
          · simp

/-- The response ends with a fault of a table only if the loaded location table is refused. -/
theorem exists_of_respond_escaped {store : Files.Store} {a : Options.Arguments} {fault : Table.Fault}
    (h : (respond store a).ending = .escaped (.table fault)) :
    ∃ sources, Sources.load store a.areas a.locations = .ok sources ∧
      Graph.build sources.areas sources.locations = .error (.table fault) := by
  unfold respond at h
  cases hload : Sources.load store a.areas a.locations with
  | error loadFault =>
    rw [hload] at h
    cases h
  | ok sources =>
    rw [hload] at h
    have h : (useSources store sources a).ending = .escaped (.table fault) := h
    refine ⟨sources, rfl, ?_⟩
    unfold useSources at h
    cases hbuild : Graph.build sources.areas sources.locations with
    | ok g =>
      rw [hbuild] at h
      exact absurd h (useGraph_ending_ne store g sources.areas a fault)
    | error buildFault =>
      rw [hbuild] at h
      cases buildFault with
      | document documentFault => cases h
      | table tableFault =>
        cases h
        rfl

section Respond

variable {store : Files.Store} {a : Options.Arguments} {sources : Sources}
  (hload : Sources.load store a.areas a.locations = .ok sources)

include hload

theorem respond_of_document {fault : DocumentFault}
    (hbuild : Graph.build sources.areas sources.locations = .error (.document fault)) :
    respond store a = (Response.error fault.message).after
      ((loadedRecord sources.areas sources.locations a.areas a.locations ::
        buildRecords sources.areas sources.locations).map Action.log) := by
  rw [respond, hload]
  show (useSources store sources a).after _ = _
  rw [useSources, hbuild]
  rfl

theorem respond_of_table {fault : Table.Fault}
    (hbuild : Graph.build sources.areas sources.locations = .error (.table fault)) :
    respond store a = Response.after
      ((loadedRecord sources.areas sources.locations a.areas a.locations ::
        buildRecords sources.areas sources.locations).map Action.log)
      ⟨[], .escaped (.table fault)⟩ := by
  rw [respond, hload]
  show (useSources store sources a).after _ = _
  rw [useSources, hbuild]
  rfl

end Respond

section Run

variable {w w₀ w₁ : World} {arguments : List String} {a : Options.Arguments} {read begun : List Effect}
  (hsettings : w.beginSession.readSettings = (w₀, read, none))
  (harguments : Options.readArguments w₀.environment arguments = .ok a)
  (hlogging : w₀.setUpLogging (if a.verbose then Log.debug else Log.info) Log.debug
    = (w₁, begun, none))

include hsettings harguments hlogging

/-- A run whose first three steps do not end it. -/
theorem run_eq : w.run arguments =
    ((w₁.performAll (.log (loadingRecord a.areas a.locations) ::
        (respond (w₁.emit (loadingRecord a.areas a.locations)).1.store a).actions)).1,
      read ++ begun ++ (w₁.performAll (.log (loadingRecord a.areas a.locations) ::
        (respond (w₁.emit (loadingRecord a.areas a.locations)).1.store a).actions)).2,
      .ran (respond (w₁.emit (loadingRecord a.areas a.locations)).1.store a).ending) := by
  unfold run
  rw [hsettings]
  dsimp only
  unfold obey
  rw [harguments]
  dsimp only
  unfold follow
  rw [hlogging]
  dsimp only
  rw [List.append_assoc read, List.append_assoc begun]
  rfl

/-- A response that logs first makes a run that does. -/
theorem endsWith_of_respond (records : List Log.Record) {r : Response} {report : List Effect}
    (hreport : ∀ v : World, v.performAll r.actions = (v, report))
    (h : respond (w₁.emit (loadingRecord a.areas a.locations)).1.store a
      = r.after (records.map Action.log)) :
    w₁.EndsWith (read ++ begun) (loadingRecord a.areas a.locations :: records) report r.ending
      (w.run arguments) := by
  have hactions : Action.log (loadingRecord a.areas a.locations) ::
      (r.after (records.map Action.log)).actions =
      (loadingRecord a.areas a.locations :: records).map Action.log ++ r.actions := rfl
  rw [run_eq hsettings harguments hlogging, h, hactions, performAll_append, hreport]
  refine
    { world := rfl
      item?_eq := fun place hplace => item?_logAll hplace _
      effects := ?effects
      logged := fun effect heffect => isLogged_of_mem_logAll heffect
      outcome := rfl }
  show read ++ begun ++ ((w₁.logAll _).2 ++ report) = _
  rw [List.append_assoc (read ++ begun)]

/-- **Faults of the input are reported**, in every run for which logging can be set up, unless the location
table is refused. -/
theorem run_loadsOrReports : w₁.LoadsOrReports (read ++ begun) a (w.run arguments) := by
  refine
    { unloaded := ?unloaded
      unread := ?unread
      escaped := ?escaped
      exists_of_escaped := ?exists_of_escaped
      refused := ?refused }
  case unloaded =>
    intro fault hload
    unfold loadedSources at hload
    refine endsWith_of_respond hsettings harguments hlogging []
      (r := .error fault.message) (fun _ => rfl) ?_
    rw [respond, hload]
    rfl
  case unread =>
    intro sources fault hload hbuild
    exact endsWith_of_respond hsettings harguments hlogging _ (fun _ => rfl)
      (respond_of_document hload hbuild)
  case escaped =>
    intro sources fault hload hbuild
    exact endsWith_of_respond hsettings harguments hlogging _ (r := ⟨[], .escaped (.table fault)⟩)
      (fun _ => rfl) (respond_of_table hload hbuild)
  case exists_of_escaped =>
    intro fault h
    rw [run_eq hsettings harguments hlogging] at h
    exact exists_of_respond_escaped (Outcome.ran.inj h)
  case refused =>
    intro areas locations fault hbuild
    rw [Graph.build_eq_error_table_iff, readLocations_eq_error_table_iff] at hbuild
    exact Table.cases_of_fault hbuild.2

end Run

/-! ### A refused table -/

/-- A settings file is not looked at where the environment turns it off. -/
theorem readSettings_of_isOff {w : World} (h : Settings.isOff w.environment = true) :
    w.readSettings = (w, [], none) := by
  have hfile : w.settingsFile? = none := if_pos h
  have hread : Settings.readFile [] = .ok [] := by rfl
  unfold readSettings
  rw [hfile, Option.getD_none, hread]
  rfl

/-- The text of a file with a plain name. -/
theorem readText_of_item? {store : Files.Store} {name text : String} {bytes : List UInt8}
    (hname : Files.IsPlain name) (hitem : store.item? [name] = some (.file bytes))
    (hdecode : Utf8.decode (Utf8.dropMark bytes) = .ok text) :
    Sources.readText store name = .ok text := by
  unfold Sources.readText
  rw [Files.Store.resolve_eq_found hname hitem]
  show (Utf8.decode (Utf8.dropMark bytes)).mapError _ = _
  rw [hdecode]
  rfl

/-- An empty areas file, and a location file of two letters with a carriage return between them. -/
def strayReturn : World where
  store := ⟨[(["areas"], .file []), (["locations"], .file [97, 13, 98])]⟩
  environment := ⟨[(Settings.switchVariable, "1"), (logDirectoryVariable, ".")]⟩
  logging := .initial
  session := 0
  time := ""
  home := ""

/-- The names of both files. -/
def twoPaths : Options.Arguments :=
  { areas := "areas", locations := "locations" }

theorem readSettings_strayReturn :
    strayReturn.beginSession.readSettings = (strayReturn.beginSession, [], none) :=
  readSettings_of_isOff (by decide +kernel)

theorem readArguments_twoPaths (environment : Environment) :
    Options.readArguments environment ["areas", "locations"] = .ok twoPaths := by
  have htokens : Options.readTokens ["areas", "locations"] =
      .ok [.value "areas", .value "locations"] := by
    simp [Options.readTokens, Options.readToken]
    rfl
  have hareas : Options.takePath [.value "areas", .value "locations"] =
      (some "areas", [.value "locations"]) := by decide
  have hlocations : Options.takePath [.value "locations"] = (some "locations", []) := by decide
  unfold Options.readArguments
  rw [htokens]
  simp only [Except.mapError, bind, Except.bind]
  rw [Options.takeTokens]
  · simp only [hareas, hlocations, if_true]
    rw [Options.takeTokens]
    rfl
  · simp
  · simp

theorem exists_setUpLogging_strayReturn : ∃ w₁ begun,
    strayReturn.beginSession.setUpLogging Log.info Log.debug = (w₁, begun, none) ∧
      w₁.loadedSources twoPaths = .ok ⟨"", "a\rb", "areas", "locations"⟩ := by
  obtain ⟨w₁, begun, hlogging, hkeeps⟩ :=
    exists_setUpLogging_eq (w := strayReturn.beginSession) (by decide +kernel) (by decide +kernel)
      Log.info Log.debug
  refine ⟨w₁, begun, hlogging, ?_⟩
  have hitem : ∀ place, (Log.File.ofPlace [Log.fileName]).Spares place →
      (w₁.emit (loadingRecord twoPaths.areas twoPaths.locations)).1.store.item? place =
        strayReturn.store.item? place := by
    intro place hplace
    obtain ⟨hspares, hsame⟩ := hkeeps place hplace
    rw [item?_emit hspares, hsame]
    rfl
  have hareas : strayReturn.store.item? ["areas"] = some (.file []) := by decide +kernel
  have hlocations : strayReturn.store.item? ["locations"] = some (.file [97, 13, 98]) := by
    decide +kernel
  rw [← hitem ["areas"] (by decide +kernel)] at hareas
  rw [← hitem ["locations"] (by decide +kernel)] at hlocations
  have hempty : Utf8.decode (Utf8.dropMark []) = .ok "" := by rfl
  have hletters : Utf8.decode (Utf8.dropMark [97, 13, 98]) = .ok "a\rb" := by rfl
  unfold loadedSources Sources.load
  show (Sources.readText _ "areas" >>= fun _ => Sources.readText _ "locations" >>= fun _ => _) = _
  rw [readText_of_item? (by decide +kernel) hareas hempty,
    readText_of_item? (by decide +kernel) hlocations hletters]
  rfl

theorem build_strayReturn : Graph.build "" "a\rb" = .error (.table .strayReturn) := by
  have hrows : Table.rows "a\rb".toList = ⟨[], some .strayReturn⟩ := by decide +kernel
  rw [Graph.build_eq_error_table_iff, readLocations_eq_error_table_iff, hrows]
  exact ⟨⟨[], rfl⟩, rfl⟩

/-- The location file of `strayReturn` is refused, so its run reports nothing. -/
theorem run_loadsOrReports_strayReturn : ∃ w₁ begun,
    strayReturn.beginSession.setUpLogging Log.info Log.debug = (w₁, begun, none) ∧
      w₁.LoadsOrReports begun twoPaths (strayReturn.run ["areas", "locations"]) := by
  obtain ⟨w₁, begun, hlogging, -⟩ := exists_setUpLogging_strayReturn
  refine ⟨w₁, begun, hlogging, ?_⟩
  exact run_loadsOrReports readSettings_strayReturn (readArguments_twoPaths _) hlogging

/-- **A refused location table is not reported**, though logging is set up and both files hold texts. -/
theorem exists_run_escaped : ∃ w₁ begun,
    strayReturn.beginSession.readSettings = (strayReturn.beginSession, [], none) ∧
      Options.readArguments strayReturn.environment ["areas", "locations"] = .ok twoPaths ∧
      strayReturn.beginSession.setUpLogging Log.info Log.debug = (w₁, begun, none) ∧
      w₁.loadedSources twoPaths = .ok ⟨"", "a\rb", "areas", "locations"⟩ ∧
      Graph.build "" "a\rb" = .error (.table .strayReturn) ∧
      (strayReturn.run ["areas", "locations"]).2.2 = .ran (.escaped (.table .strayReturn)) := by
  obtain ⟨w₁, begun, hlogging, hload⟩ := exists_setUpLogging_strayReturn
  refine ⟨w₁, begun, readSettings_strayReturn, readArguments_twoPaths _, hlogging, hload,
    build_strayReturn, ?_⟩
  rw [run_eq readSettings_strayReturn (readArguments_twoPaths _) hlogging]
  show Outcome.ran (respond _ twoPaths).ending = _
  rw [respond_of_table hload build_strayReturn]
  rfl

end AreaAtlas.Command.World

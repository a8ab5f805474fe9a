import AreaAtlas.Proofs.Command.Emission

/-!
# Delivery of records in a session

In a session logging may be set up any number of times, records are logged in between, and variables change.
Setting up gets further or less far: the log directory may not be made, and then the log file may not be
opened.  How far it got the last times is all that decides where a record goes: `World.delivers_runSteps`.  A
full log file is put aside before a line is added, and where that fails the line is lost.
-/

namespace AreaAtlas.Command

open Log (Level Record package info warning debug)

/-! ## Sessions -/

/-- How far setting up logging gets. -/
inductive Progress where
  /-- The log directory is not made. -/
  | noDirectory
  /-- The log directory is there, and the log file is not opened. -/
  | noFile
  /-- The log file is opened at this place. -/
  | completed (place : Files.Location)

/-- How far setting up logging has got: the level for the console given when the directory was there last,
and the log file with the level for it given when the file was opened last. -/
structure Reached where
  console : Option Level
  file : Option (Files.Location × Level)

/-- Logging has not been set up. -/
def Reached.nothing : Reached := ⟨none, none⟩

/-- What is done in a session. -/
inductive Step where
  | setUp (consoleLevel fileLevel : Level)
  | log (record : Record)
  /-- Variables and the time change. -/
  | elsewhere (environment : Environment) (time : String)

namespace World

/-- How far setting up logging gets in a world. -/
def progress (w : World) : Progress :=
  match w.store.makeDirectory (Path.root w.logDirectory) (Files.Store.origin w.logDirectory)
      (Path.steps w.logDirectory).reverse with
  | (_, some _) => .noDirectory
  | (store, none) =>
    match store.writable (Path.ofSteps (Path.root w.logDirectory)
        (Path.steps w.logDirectory ++ [Log.fileName])) with
    | .error _ => .noFile
    | .ok place => .completed place

/-- Do a step. -/
def step (w : World) : Step → World × List Effect
  | .setUp consoleLevel fileLevel =>
    let (w, effects, _) := w.setUpLogging consoleLevel fileLevel
    (w, effects)
  | .log record => w.emit record
  | .elsewhere environment time => ({ w with environment, time }, [])

/-- How far setting up has got behind a step. -/
def reached (w : World) (r : Reached) : Step → Reached
  | .setUp consoleLevel fileLevel =>
    match w.progress with
    | .noDirectory => r
    | .noFile => { r with console := some consoleLevel }
    | .completed place => ⟨some consoleLevel, some (place, fileLevel)⟩
  | .log _ | .elsewhere _ _ => r

/-- Do steps in order: the world behind them, and how far setting up has got. -/
def runSteps (w : World) (r : Reached) : List Step → World × Reached
  | [] => (w, r)
  | step :: rest => (w.step step).1.runSteps (w.reached r step) rest

/-- The lines of setting up logging: if it is completed it logs a record itself, which goes to the console. -/
def setUpLines (w : World) (consoleLevel fileLevel : Level) : List Effect :=
  match w.progress with
  | .noDirectory | .noFile => []
  | .completed _ =>
    if consoleLevel ≤ info then [.error ((Log.setupRecord consoleLevel fileLevel).line w.time)] else []

/-- **Records are delivered as setting up has said.** -/
structure Delivers (w : World) (r : Reached) : Prop where
  /-- Once the directory was there, the root has one handler. -/
  rootHandlers : ∀ consoleLevel, r.console = some consoleLevel →
    w.logging.rootHandlers = [.console consoleLevel w.session]
  /-- The program has one handler at most. -/
  length_packageHandlers_le : w.logging.packageHandlers.length ≤ 1
  /-- The console comes before the file. -/
  isSome_console : r.file.isSome → r.console.isSome
  /-- The log file is there. -/
  item?_file : ∀ place fileLevel, r.file = some (place, fileLevel) →
    w.store.item? place = some (.file (w.bytesAt place))
  /-- Once setting up was completed, a record is shown and added to the log file as the levels say. -/
  emit : ∀ consoleLevel place fileLevel, r.console = some consoleLevel → r.file = some (place, fileLevel) →
    ∀ record, Log.IsRegular record.logger → (w.emit record).2 =
      w.linesOf consoleLevel fileLevel place record (Log.leastLevel record.logger ≤ record.level)
        (Log.IsBelow package record.logger)
  /-- A record of any logger is added to the log file only within the program, and what is not settled yet is
  passed on from the level on that the loggers there are make effective. -/
  emit_any : ∀ consoleLevel place fileLevel, r.console = some consoleLevel →
    r.file = some (place, fileLevel) → ∀ record, ∃ passed : Bool,
      (w.emit record).2 = w.linesOf consoleLevel fileLevel place record (passed = true)
        ((w.logging.meet record.logger).isWithin package record.logger = true) ∧
      (w.logging.settled.lookup (record.logger, record.level) = none →
        (passed = true ↔ (w.logging.meet record.logger).effectiveLevel record.logger ≤ record.level)) ∧
      (warning ≤ record.level → passed = true) ∧ (passed = true → debug ≤ record.level) ∧
      ((w.logging.meet record.logger).isWithin package record.logger = true →
        Log.IsBelow package record.logger)
  /-- The files hold what is seen. -/
  stores : ∀ consoleLevel place fileLevel, r.console = some consoleLevel → r.file = some (place, fileLevel) →
    ∀ record, Stores w.store (w.bytesAt place) (.ofPlace place) (record.line w.time) (w.emit record).2
      (w.emit record).1.store
  /-- Setting up is completed if nothing goes wrong. -/
  setUp_iff : ∀ consoleLevel fileLevel, (w.setUpLogging consoleLevel fileLevel).2.2 = none ↔
    ∃ place, w.progress = .completed place
  /-- Setting up logs no record but its own. -/
  setUp : ∀ consoleLevel fileLevel,
    (w.setUpLogging consoleLevel fileLevel).2.1 = w.setUpLines consoleLevel fileLevel

/-! ## Setting up -/

variable {w : World} {r : Reached} {consoleLevel fileLevel : Level} {place : Files.Location}

/-- The log file of a set-up has the name of log files. -/
theorem isLogFile_of_writable {store : Files.Store} {directory : String}
    (h : store.writable (Path.ofSteps (Path.root directory) (Path.steps directory ++ [Log.fileName]))
      = .ok place) : Log.isLogFile place = true := by
  have hname : (Path.names (Path.ofSteps (Path.root directory)
      (Path.steps directory ++ [Log.fileName]))).getLast? = some Log.fileName :=
    Path.getLast?_names_ofSteps _ (by decide) (by decide)
  exact beq_iff_eq.mpr (Files.Store.getLast?_of_writable h hname (by decide) (by decide))

/-- **What setting up does**, by how far it gets: an early end is a fault and takes nothing away, and a
completed setting up ends with a record and with a log file. -/
theorem setUpLogging_cases (w : World) (consoleLevel fileLevel : Level) :
    (w.progress = .noDirectory ∧ ∃ store fault, w.store.IsKept store ∧
      w.setUpLogging consoleLevel fileLevel = ({ w with store }, [], some fault)) ∨
    (w.progress = .noFile ∧ ∃ store fault, w.store.IsKept store ∧ w.setUpLogging consoleLevel fileLevel =
      ({ w with store, logging := w.logging.attachConsole consoleLevel w.session }, [], some fault)) ∨
    ∃ place store, w.progress = .completed place ∧ Log.isLogFile place = true ∧
      (∃ bytes, (store.openFile place).item? place = some (.file bytes)) ∧
      w.setUpLogging consoleLevel fileLevel =
        (((attached { w with store } consoleLevel fileLevel place).emit
            (Log.setupRecord consoleLevel fileLevel)).1,
          ((attached { w with store } consoleLevel fileLevel place).emit
            (Log.setupRecord consoleLevel fileLevel)).2, none) := by
  unfold progress setUpLogging Log.setup
  obtain ⟨made, hmake⟩ : ∃ made, w.store.makeDirectory (Path.root w.logDirectory)
      (Files.Store.origin w.logDirectory) (Path.steps w.logDirectory).reverse = made := ⟨_, rfl⟩
  have hkept : w.store.IsKept made.1 := by
    rw [← hmake]
    exact Files.Store.isKept_makeDirectory _ _ _ _
  rw [hmake]
  rcases made with ⟨store, _ | fault⟩
  · obtain ⟨opened, hopen⟩ : ∃ opened, store.writable (Path.ofSteps (Path.root w.logDirectory)
        (Path.steps w.logDirectory ++ [Log.fileName])) = opened := ⟨_, rfl⟩
    dsimp only
    rw [hopen]
    cases opened with
    | error fault => exact Or.inr (Or.inl ⟨rfl, store, fault, hkept, rfl⟩)
    | ok place =>
      exact Or.inr (Or.inr ⟨place, store, rfl, isLogFile_of_writable hopen,
        Files.Store.item?_openFile_of_writable hopen, rfl⟩)
  · exact Or.inl ⟨rfl, store, fault, hkept, rfl⟩

/-- Setting up is completed if nothing goes wrong. -/
theorem setUpLogging_eq_none_iff (w : World) (consoleLevel fileLevel : Level) :
    (w.setUpLogging consoleLevel fileLevel).2.2 = none ↔ ∃ place, w.progress = .completed place := by
  obtain ⟨hprogress, store, fault, -, heq⟩ | ⟨hprogress, store, fault, -, heq⟩ |
    ⟨place, store, hprogress, -, -, heq⟩ := w.setUpLogging_cases consoleLevel fileLevel
  · simp [heq, hprogress]
  · simp [heq, hprogress]
  · simp [heq, hprogress]

/-! ## What holds throughout a session -/

/-- How far setting up has got can be seen from the handlers and levels, and the log file is there. -/
structure Tracks (w : World) (r : Reached) : Prop where
  rootHandlers : ∀ consoleLevel, r.console = some consoleLevel →
    w.logging.rootHandlers = [.console consoleLevel w.session]
  packageHandlers : w.logging.packageHandlers =
    (r.file.map fun p => Log.Handler.file (.ofPlace p.1) p.2).toList
  isSome_console : r.file.isSome → r.console.isSome
  isSetUp : r.file.isSome → w.logging.IsSetUp
  isLogFile : ∀ p, r.file = some p → Log.isLogFile p.1 = true
  item?_file : ∀ p, r.file = some p → w.store.item? p.1 = some (.file (w.bytesAt p.1))

theorem tracks_nothing (h : w.logging.packageHandlers = []) : w.Tracks .nothing := by
  refine ⟨?_, h, ?_, ?_, ?_, ?_⟩
  · intro consoleLevel hnone
    cases hnone
  · exact id
  · intro hsome
    cases hsome
  · intro p hnone
    cases hnone
  · intro p hnone
    cases hnone

section Tracks

variable (h : w.Tracks r)

include h

theorem Tracks.packageHandlers_eq (hfile : r.file = some (place, fileLevel)) :
    w.logging.packageHandlers = [.file (.ofPlace place) fileLevel] := by
  rw [h.packageHandlers, hfile]
  rfl

theorem Tracks.stores_emit (hconsole : r.console = some consoleLevel)
    (hfile : r.file = some (place, fileLevel)) (record : Record) :
    Stores w.store (w.bytesAt place) (.ofPlace place) (record.line w.time) (w.emit record).2
      (w.emit record).1.store :=
  World.stores_emit (h.rootHandlers consoleLevel hconsole) (h.packageHandlers_eq hfile)
    (h.isLogFile _ hfile) (h.item?_file _ hfile) record

theorem Tracks.effects_emit (hconsole : r.console = some consoleLevel)
    (hfile : r.file = some (place, fileLevel)) (record : Record) :
    (w.emit record).2 = w.linesOf consoleLevel fileLevel place record
      ((w.logging.meet record.logger).passesOn record.logger record.level = true)
      ((w.logging.meet record.logger).isWithin package record.logger = true) :=
  World.effects_emit (h.rootHandlers consoleLevel hconsole) (h.packageHandlers_eq hfile)
    (h.isLogFile _ hfile) (h.item?_file _ hfile) record

theorem Tracks.emit (record : Record) : (w.emit record).1.Tracks r := by
  obtain ⟨store, heq⟩ := w.exists_emit_eq record
  have hlogging : (w.emit record).1.logging = w.asked record := logging_emit w record
  have hsession : (w.emit record).1.session = w.session := by rw [heq]
  refine ⟨?_, ?_, h.isSome_console, ?_, h.isLogFile, ?_⟩
  · intro consoleLevel hconsole
    rw [hlogging, hsession, rootHandlers_asked]
    exact h.rootHandlers consoleLevel hconsole
  · rw [hlogging, packageHandlers_asked]
    exact h.packageHandlers
  · intro hfile
    rw [hlogging]
    exact isSetUp_asked (h.isSetUp hfile) record
  · rintro ⟨place, fileLevel⟩ hfile
    obtain ⟨consoleLevel, hconsole⟩ := Option.isSome_iff_exists.mp (h.isSome_console (hfile ▸ rfl))
    exact item?_eq_bytesAt ((h.stores_emit hconsole hfile record).exists_file (h.item?_file _ hfile))

/-- The lines of a record of a regular logger. -/
theorem Tracks.emit_of_isRegular (hconsole : r.console = some consoleLevel)
    (hfile : r.file = some (place, fileLevel)) {record : Record} (hregular : Log.IsRegular record.logger) :
    (w.emit record).2 = w.linesOf consoleLevel fileLevel place record
      (Log.leastLevel record.logger ≤ record.level) (Log.IsBelow package record.logger) := by
  have hmet := (h.isSetUp (hfile ▸ rfl)).meet record.logger
  rw [h.effects_emit hconsole hfile]
  apply linesOf_congr
  · exact (hmet.isRight_passesOn record.logger record.level).iff_of_isRegular hregular
  · exact Log.Logging.isWithin_iff hmet List.mem_cons_self (hregular package List.mem_cons_self)

/-- A record from outside the program leaves the files as they are. -/
theorem Tracks.store_emit (hconsole : r.console = some consoleLevel)
    (hfile : r.file = some (place, fileLevel)) {record : Record} (hregular : Log.IsRegular record.logger)
    (houtside : ¬Log.IsBelow package record.logger) : (w.emit record).1.store = w.store := by
  refine (h.stores_emit hconsole hfile record).unchanged ?_
  rw [h.emit_of_isRegular hconsole hfile hregular]
  unfold linesOf
  split
  · rw [if_neg fun hwithin => houtside hwithin.1]
    split <;> simp
  · simp

/-- What is only taken further stays as it is. -/
theorem Tracks.of_isKept {store : Files.Store} (hkept : w.store.IsKept store) :
    World.Tracks { w with store } r := by
  refine ⟨h.rootHandlers, h.packageHandlers, h.isSome_console, h.isSetUp, h.isLogFile, ?_⟩
  intro p hfile
  exact item?_eq_bytesAt ⟨_, hkept _ _ (h.item?_file p hfile)⟩

end Tracks

/-- With the file handler all is in place, whatever was before. -/
theorem tracks_attached (consoleLevel fileLevel : Level) (hlog : Log.isLogFile place = true)
    (hitem : ∃ bytes, (w.store.openFile place).item? place = some (.file bytes)) :
    (w.attached consoleLevel fileLevel place).Tracks ⟨some consoleLevel, some (place, fileLevel)⟩ := by
  obtain ⟨hsetUp, hroot, hpackage⟩ := Log.Logging.attachFile_eq
    (s := w.logging.attachConsole consoleLevel w.session) rfl (.ofPlace place) fileLevel
  refine ⟨?_, hpackage, fun _ => rfl, fun _ => hsetUp, ?_, ?_⟩
  · intro level hlevel
    obtain rfl := Option.some.inj hlevel
    exact hroot
  · intro p hfile
    obtain rfl := Option.some.inj hfile
    exact hlog
  · intro p hfile
    obtain rfl := Option.some.inj hfile
    exact item?_eq_bytesAt hitem

/-- **What a step keeps.** -/
theorem Tracks.step (h : w.Tracks r) (step : Step) : (w.step step).1.Tracks (w.reached r step) := by
  cases step with
  | log record => exact h.emit record
  | elsewhere environment time =>
    exact ⟨h.rootHandlers, h.packageHandlers, h.isSome_console, h.isSetUp, h.isLogFile, h.item?_file⟩
  | setUp consoleLevel fileLevel =>
    show (w.setUpLogging consoleLevel fileLevel).1.Tracks _
    unfold reached
    obtain ⟨hprogress, store, fault, hkept, heq⟩ | ⟨hprogress, store, fault, hkept, heq⟩ |
      ⟨place, store, hprogress, hlog, hitem, heq⟩ := w.setUpLogging_cases consoleLevel fileLevel
    · rw [hprogress, heq]
      exact h.of_isKept hkept
    · rw [hprogress, heq]
      have hkeeps := h.of_isKept hkept
      refine ⟨?_, hkeeps.packageHandlers, fun _ => rfl, ?_, hkeeps.isLogFile, hkeeps.item?_file⟩
      · intro level hlevel
        obtain rfl := Option.some.inj hlevel
        rfl
      · exact fun hfile => (h.isSetUp hfile).attachConsole consoleLevel w.session
    · rw [hprogress, heq]
      exact (tracks_attached (w := { w with store }) consoleLevel fileLevel hlog hitem).emit _

/-- **What a session keeps.** -/
theorem Tracks.runSteps (h : w.Tracks r) (steps : List Step) :
    (w.runSteps r steps).1.Tracks (w.runSteps r steps).2 := by
  induction steps generalizing w r with
  | nil => exact h
  | cons step rest ih => exact ih (h.step step)

/-- What is seen of setting up is its own record. -/
theorem effects_setUpLogging (w : World) (consoleLevel fileLevel : Level) :
    (w.setUpLogging consoleLevel fileLevel).2.1 = w.setUpLines consoleLevel fileLevel := by
  unfold setUpLines
  obtain ⟨hprogress, store, fault, -, heq⟩ | ⟨hprogress, store, fault, -, heq⟩ |
    ⟨place, store, hprogress, hlog, hitem, heq⟩ := w.setUpLogging_cases consoleLevel fileLevel
  · rw [hprogress, heq]
  · rw [hprogress, heq]
  · have htracks := tracks_attached (w := { w with store }) consoleLevel fileLevel hlog hitem
    have hregular : Log.IsRegular (Log.setupRecord consoleLevel fileLevel).logger :=
      (by decide : Log.IsRegular Log.root)
    have hpassed : Log.leastLevel Log.root ≤ info := by decide
    have hwithin : ¬(Log.IsBelow package Log.root ∧ fileLevel ≤ info) := fun hw => absurd hw.1 (by decide)
    rw [hprogress, heq]
    dsimp only
    rw [htracks.emit_of_isRegular rfl rfl hregular]
    exact (if_pos hpassed).trans (congrArg (· ++ _) (if_neg hwithin))

/-- Setting up is completed in the working directory unless a directory has the name of the log file. -/
theorem progress_dot (hitem : w.store.item? [Log.fileName] ≠ some .directory)
    (h : w.environment.get? logDirectoryVariable = some ".") : w.progress = .completed [Log.fileName] := by
  have hpath : Path.ofSteps (Path.root ".") ([] ++ [Log.fileName]) = Log.fileName := by decide
  have hplain : Files.IsPlain Log.fileName := by decide +kernel
  unfold progress
  rw [logDirectory_dot h, Path.steps_dot, hpath]
  dsimp only [List.reverse_nil, Files.Store.makeDirectory]
  rw [Files.Store.writable_eq_ok hplain hitem]

/-- It is not in the root if a directory has that name there. -/
theorem progress_root (hitem : w.store.item? ["/", Log.fileName] = some .directory)
    (h : w.environment.get? logDirectoryVariable = some "/") : w.progress = .noFile := by
  have hsteps : Path.steps "/" = [] := by
    rw [Path.steps, Path.names_eq]
    decide
  have hdirectory : w.logDirectory = "/" := by
    have hnormal : Path.normalize "/" = "/" := by
      rw [Path.normalize, hsteps]
      decide
    unfold logDirectory
    rw [h]
    exact hnormal
  have hpath : Path.ofSteps (Path.root "/") ([] ++ [Log.fileName]) = "/logic_map.log" := by decide
  have hwritable : w.store.writable "/logic_map.log" = .error (.refused .isADirectory "/logic_map.log") := by
    have hnul : "/logic_map.log".contains '\x00' = false := by
      rw [String.contains_char_eq]
      decide
    have hnames : Path.names "/logic_map.log" = [Log.fileName] := by
      rw [Path.names_eq]
      decide
    have hfollow : w.store.follow ["/"] [Log.fileName] = .found ["/", Log.fileName] .directory := by
      have hroot : w.store.item? ["/"] = some .directory := rfl
      unfold Files.Store.follow
      rw [hroot]
      dsimp only [List.cons_append, List.nil_append]
      rw [if_neg (by decide), if_neg (by decide), if_neg (by decide), hitem]
      show w.store.follow ["/", Log.fileName] [] = _
      rw [Files.Store.follow, hitem]
    unfold Files.Store.writable Files.Store.origin
    rw [hnul, hnames, if_neg Bool.false_ne_true, if_neg (by decide), if_neg (by decide), if_neg (by decide),
      if_pos (by decide), hfollow]
  unfold progress
  rw [hdirectory, hsteps, hpath]
  dsimp only [List.reverse_nil, Files.Store.makeDirectory]
  rw [hwritable]

/-- A session begins in a directory which is that for log files as well.  In the root directory a directory
has the name of the log file.  The root of the loggers has two handlers. -/
def outset : World where
  store := ⟨[(["/", Log.fileName], .directory)]⟩
  environment := ⟨[(logDirectoryVariable, ".")]⟩
  logging := { Log.Logging.initial with rootHandlers := [.console debug 0, .lastResort] }
  session := 0
  time := "2000-01-01 00:00:00"
  home := "/program"

/-- Logging is set up, and again once the root directory is that for log files. -/
def hampered : List Step :=
  [.setUp info debug, .elsewhere ⟨[(logDirectoryVariable, "/")]⟩ outset.time, .setUp warning warning]

/-- A record of a logger which another one comes to stand above later. -/
def overtaken : Record := ⟨"plotly..x", info, "m"⟩

/-- Logging is set up, and the record is logged before the other logger is there. -/
def overtaking : List Step :=
  [.setUp info debug, .log overtaken, .log ⟨"plotly.", info, "m"⟩]

/-- **What is settled may be out of date**: the other logger is held back, and so is what is below it, but
the record is shown once more. -/
theorem emit_overtaken : Log.IsBelow "plotly" overtaken.logger ∧
    (outset.runSteps .nothing overtaking).2 = ⟨some info, some ([Log.fileName], debug)⟩ ∧
    overtaken.level < (outset.runSteps .nothing overtaking).1.logging.effectiveLevel overtaken.logger ∧
    ((outset.runSteps .nothing overtaking).1.emit overtaken).2
      = [.error (overtaken.line (outset.runSteps .nothing overtaking).1.time)] := by
  have hfree : outset.store.item? [Log.fileName] ≠ some .directory := by decide +kernel
  have htracks := (tracks_nothing (w := outset) rfl).runSteps overtaking
  have hfirst : outset.progress = .completed [Log.fileName] := progress_dot hfree rfl
  have hreached : (outset.runSteps .nothing overtaking).2 = ⟨some info, some ([Log.fileName], debug)⟩ := by
    unfold overtaking
    simp only [runSteps, reached, hfirst]
  have hlogging : (outset.runSteps .nothing overtaking).1.logging =
      [Log.setupRecord info debug, overtaken, ⟨"plotly.", info, "m"⟩].foldl
        (fun s record => (s.meet record.logger).settle record.logger record.level)
        (outset.attached info debug [Log.fileName]).logging := by
    unfold overtaking
    simp only [runSteps, step, setUpLogging_dot hfree rfl info debug, logging_emit]
    rfl
  obtain ⟨⟨w, r⟩, hrun⟩ : ∃ p, outset.runSteps .nothing overtaking = p := ⟨_, rfl⟩
  rw [hrun] at htracks hreached hlogging ⊢
  obtain rfl : r = _ := hreached
  dsimp only at htracks hlogging ⊢
  have hpassed : (w.logging.meet overtaken.logger).passesOn overtaken.logger overtaken.level = true := by
    rw [hlogging]
    decide +kernel
  have hwithin : ¬((w.logging.meet overtaken.logger).isWithin package overtaken.logger = true
      ∧ debug ≤ overtaken.level) := by
    rw [hlogging]
    decide +kernel
  refine ⟨by decide, rfl, ?_, ?_⟩
  · rw [hlogging]
    decide +kernel
  · rw [htracks.effects_emit rfl rfl]
    unfold linesOf
    rw [if_pos hpassed, if_neg hwithin]
    rfl

/-- Opening a log file that is there changes no file. -/
theorem store_setUpLogging_dot {bytes : List UInt8}
    (hitem : w.store.item? [Log.fileName] = some (.file bytes))
    (h : w.environment.get? logDirectoryVariable = some ".") (consoleLevel fileLevel : Level) :
    (w.setUpLogging consoleLevel fileLevel).1.store = w.store ∧
      (w.setUpLogging consoleLevel fileLevel).1.time = w.time := by
  have hfile : w.store.item? [Log.fileName] ≠ some .directory := by
    rw [hitem]
    simp
  have hopened : w.store.openFile [Log.fileName] = w.store := Files.Store.openFile_eq_self hitem
  have htracks : (w.attached consoleLevel fileLevel [Log.fileName]).Tracks
      ⟨some consoleLevel, some ([Log.fileName], fileLevel)⟩ :=
    tracks_attached consoleLevel fileLevel (by decide) ⟨bytes, by rw [hopened, hitem]⟩
  obtain ⟨store, hemit⟩ := (w.attached consoleLevel fileLevel [Log.fileName]).exists_emit_eq
    (Log.setupRecord consoleLevel fileLevel)
  rw [setUpLogging_dot hfile h]
  constructor
  · have houtside : ¬Log.IsBelow package Log.root := by decide
    exact (htracks.store_emit rfl rfl (by decide : Log.IsRegular Log.root) houtside).trans hopened
  · dsimp only
    rw [hemit]
    rfl

/-- A session begins in a directory where the log file has these bytes, a file has the number 4, and a
directory has the number 5. -/
def crowded (bytes : List UInt8) : World :=
  { outset with
    store := Files.Store.set ⟨[((Log.File.ofPlace [Log.fileName]).numbered 4, .file []),
      ((Log.File.ofPlace [Log.fileName]).numbered 5, .directory)]⟩ [Log.fileName] (.file bytes) }

theorem item?_crowded (bytes : List UInt8) :
    (crowded bytes).store.item? [Log.fileName] = some (.file bytes) :=
  Files.Store.item?_set_self _ (by decide +kernel)

theorem isStuck_crowded (bytes : List UInt8) :
    (Log.File.ofPlace [Log.fileName]).IsStuck (crowded bytes).store Log.backupCount := by
  refine ⟨4, by decide, ?_, Or.inr ⟨rfl, ?_⟩⟩
  · unfold crowded
    dsimp only
    rw [Files.Store.item?_set_of_ne _ (by decide +kernel)]
    decide +kernel
  · unfold crowded
    dsimp only
    rw [Files.Store.item?_set_of_ne _ (by decide +kernel)]
    decide +kernel

/-- A record of the program. -/
def crowdedOut : Record := ⟨package, warning, "m"⟩

/-- **A line is lost** where the log file is full and cannot be put aside, though its record is passed on and
shown. -/
theorem emit_crowdedOut {bytes : List UInt8} (hlength : Log.maxFileSize ≤ bytes.length) :
    ((crowded bytes).runSteps .nothing [.setUp info debug]).2 = ⟨some info, some ([Log.fileName], debug)⟩ ∧
    (((crowded bytes).runSteps .nothing [.setUp info debug]).1.emit crowdedOut).2
      = [.lost (.ofPlace [Log.fileName]) (crowdedOut.line outset.time),
        .error (crowdedOut.line outset.time)] ∧
    (((crowded bytes).runSteps .nothing [.setUp info debug]).1.emit crowdedOut).1.store
      = (crowded bytes).store := by
  have hitem := item?_crowded bytes
  have hfile : (crowded bytes).store.item? [Log.fileName] ≠ some .directory := by
    rw [hitem]
    simp
  have hreached : ((crowded bytes).runSteps .nothing [.setUp info debug]).2
      = ⟨some info, some ([Log.fileName], debug)⟩ := by
    simp only [runSteps, reached, progress_dot hfile rfl]
  have htracks := (tracks_nothing (w := crowded bytes) rfl).runSteps [.setUp info debug]
  obtain ⟨hstore, htime⟩ : ((crowded bytes).runSteps .nothing [.setUp info debug]).1.store
        = (crowded bytes).store ∧
      ((crowded bytes).runSteps .nothing [.setUp info debug]).1.time = outset.time :=
    store_setUpLogging_dot hitem rfl info debug
  obtain ⟨⟨w, r⟩, hrun⟩ : ∃ p, (crowded bytes).runSteps .nothing [.setUp info debug] = p := ⟨_, rfl⟩
  rw [hrun] at htracks hreached hstore htime ⊢
  obtain rfl : r = _ := hreached
  dsimp only at htracks hstore htime ⊢
  have hlines : w.fileLines (.ofPlace [Log.fileName]) (crowdedOut.line w.time)
      = [.lost (.ofPlace [Log.fileName]) (crowdedOut.line w.time)] := by
    have hbytes : w.bytesAt [Log.fileName] = bytes := bytesAt_eq (hstore ▸ hitem)
    have hfull : Log.maxFileSize ≤ (w.bytesAt [Log.fileName]).length + (crowdedOut.line w.time).length := by
      rw [hbytes]
      omega
    exact (if_pos hfull).trans (if_pos (hstore ▸ isStuck_crowded bytes))
  have hemit : (w.emit crowdedOut).2 = [.lost (.ofPlace [Log.fileName]) (crowdedOut.line outset.time),
      .error (crowdedOut.line outset.time)] := by
    rw [htracks.emit_of_isRegular rfl rfl (by decide), ← htime]
    unfold linesOf
    rw [if_pos (by decide), if_pos (by decide), if_pos (by decide), hlines]
    rfl
  refine ⟨rfl, hemit, ?_⟩
  rw [← hstore]
  exact (htracks.stores_emit rfl rfl crowdedOut).unchanged (by rw [hemit]; simp)

end World

end AreaAtlas.Command

import AreaAtlas.Command.Run
import AreaAtlas.Proofs.Files.Store
import AreaAtlas.Proofs.Log.Delivery
import AreaAtlas.Proofs.Log.Rotation

/-!
# What logging does

A record goes to handlers, which show it or add it to a file.  So logging has no effect but its lines,
`isLogged_of_mem_logAll`, and changes no item but those of log files, `item?_logAll`.  Which files those are
is settled when logging is set up, `exists_setUpLogging_eq`.
-/

namespace AreaAtlas

/-! ## Handlers -/

namespace Log.Logging

/-- The handlers that can be reached. -/
def handlers (s : Logging) : List Handler :=
  s.packageHandlers ++ s.rootHandlers

theorem handlers_meet (s : Logging) (logger : String) : (s.meet logger).handlers = s.handlers := by
  obtain ⟨loggers, hmeet⟩ := exists_meet_eq s logger
  rw [hmeet]
  rfl

theorem handlers_settle (s : Logging) (logger : String) (level : Level) :
    (s.settle logger level).handlers = s.handlers := by
  obtain ⟨settled, hsettle⟩ := exists_settle_eq s logger level
  rw [hsettle]
  rfl

/-- The file handler takes the place of the program's handlers. -/
theorem handlers_attachFile (s : Logging) (log : File) (level : Level) :
    (s.attachFile log level).handlers = .file log level :: s.rootHandlers := by
  obtain ⟨loggers, heq, -⟩ := exists_attachFile_eq s log level
  rw [heq]
  rfl

/-- Records go to no file but those of the handlers. -/
theorem mem_handlers_of_mem_deliver {s : Logging} {record : Record} {log : File} {level : Level}
    (h : .file log level ∈ s.deliver record) : .file log level ∈ s.handlers := by
  unfold deliver at h
  split at h
  · have h := List.mem_of_mem_filter h
    unfold handlersOf at h
    split at h
    · cases List.mem_singleton.mp h
    · rcases List.mem_append.mp h with h | h
      · split at h
        · exact List.mem_append_left _ h
        · cases h
      · exact List.mem_append_right _ h
  · cases h

end Log.Logging

namespace Command

/-- An effect of logging one of these records: its line on the console or in a log file, which may be put
aside before, its message alone, or that its line is lost. -/
inductive Effect.IsLogged (records : List Log.Record) : Effect → Prop
  | line {record : Log.Record} {time : String} :
      record ∈ records → IsLogged records (.error (record.line time))
  | message {record : Log.Record} :
      record ∈ records → IsLogged records (.error (record.message ++ "\n"))
  | appended {record : Log.Record} {time : String} {place : Files.Location} :
      record ∈ records → IsLogged records (.appended place (record.line time))
  | putAside {record : Log.Record} {log : Log.File} :
      record ∈ records → IsLogged records (.putAside log)
  | lost {record : Log.Record} {time : String} {log : Log.File} :
      record ∈ records → IsLogged records (.lost log (record.line time))

theorem Effect.IsLogged.mono {records records' : List Log.Record} {effect : Effect}
    (h : effect.IsLogged records) (hsub : records ⊆ records') : effect.IsLogged records' := by
  cases h with
  | line hrecord => exact .line (hsub hrecord)
  | message hrecord => exact .message (hsub hrecord)
  | appended hrecord => exact .appended (hsub hrecord)
  | putAside hrecord => exact .putAside (hsub hrecord)
  | lost hrecord => exact .lost (hsub hrecord)

namespace World

/-- Log records in order. -/
def logAll (w : World) (records : List Log.Record) : World × List Effect :=
  w.performAll (records.map Action.log)

/-- The log files of all handlers spare this place. -/
def SparesPlace (w : World) (place : Files.Location) : Prop :=
  ∀ log level, .file log level ∈ w.logging.handlers → log.Spares place

theorem performAll_append (w : World) (actions others : List Action) :
    w.performAll (actions ++ others) =
      (((w.performAll actions).1.performAll others).1,
        (w.performAll actions).2 ++ ((w.performAll actions).1.performAll others).2) := by
  induction actions generalizing w with
  | nil => rfl
  | cons action rest ih =>
    show (((w.perform action).1.performAll (rest ++ others)).1,
      (w.perform action).2 ++ ((w.perform action).1.performAll (rest ++ others)).2) = _
    rw [ih, ← List.append_assoc]
    rfl

/-! ## Lines of a log file -/

section AddLine

variable (w : World) (log : Log.File) (line : String)

/-- **How a line is added**: to the file as it is, to a fresh one, or not at all. -/
theorem addLine_cases :
    ((∀ bytes, w.store.item? log.place ≠ some (.file bytes)) ∧ w.addLine log line = (w, [])) ∨
    (∃ bytes, w.store.item? log.place = some (.file bytes) ∧
      (log.isFull bytes line = false ∧ w.addLine log line =
          ({ w with store := w.store.append log.place (Utf8.encode line) }, [.appended log.place line]) ∨
        log.isFull bytes line = true ∧ log.putAside w.store = none ∧
          w.addLine log line = (w, [.lost log line]) ∨
        log.isFull bytes line = true ∧ ∃ store, log.putAside w.store = some store ∧ w.addLine log line =
          ({ w with store := store.append log.place (Utf8.encode line) },
            [.putAside log, .appended log.place line]))) := by
  unfold addLine
  split
  · next bytes hitem =>
    refine Or.inr ⟨bytes, hitem, ?_⟩
    split
    · next hfull =>
      split
      · next store haside => exact Or.inr (Or.inr ⟨hfull, store, haside, rfl⟩)
      · next haside => exact Or.inr (Or.inl ⟨hfull, haside, rfl⟩)
    · next hroom => exact Or.inl ⟨Bool.eq_false_iff.mpr hroom, rfl⟩
  · next hfree => exact Or.inl ⟨hfree, rfl⟩

/-- Adding a line changes nothing but the store. -/
theorem exists_addLine_eq : ∃ store, (w.addLine log line).1 = { w with store } := by
  obtain ⟨-, heq⟩ | ⟨bytes, -, ⟨-, heq⟩ | ⟨-, -, heq⟩ | ⟨-, store, -, heq⟩⟩ := w.addLine_cases log line
  · exact ⟨w.store, congrArg Prod.fst heq⟩
  · exact ⟨_, congrArg Prod.fst heq⟩
  · exact ⟨w.store, congrArg Prod.fst heq⟩
  · exact ⟨_, congrArg Prod.fst heq⟩

theorem item?_addLine {place : Files.Location} (h : log.Spares place) :
    (w.addLine log line).1.store.item? place = w.store.item? place := by
  obtain ⟨-, heq⟩ | ⟨bytes, -, ⟨-, heq⟩ | ⟨-, -, heq⟩ | ⟨-, store, haside, heq⟩⟩ := w.addLine_cases log line
  · rw [heq]
  · rw [heq]
    exact Files.Store.item?_append_of_ne _ h.place_ne
  · rw [heq]
  · rw [heq]
    exact (Files.Store.item?_append_of_ne _ h.place_ne).trans (Log.File.item?_putAside_of_spares haside h)

end AddLine

/-! ## Effects -/

theorem isLogged_of_mem_addLine {w : World} {record : Log.Record} {log : Log.File} {effect : Effect}
    (h : effect ∈ (w.addLine log (record.line w.time)).2) : effect.IsLogged [record] := by
  obtain ⟨-, heq⟩ | ⟨bytes, -, ⟨-, heq⟩ | ⟨-, -, heq⟩ | ⟨-, store, -, heq⟩⟩ :=
    w.addLine_cases log (record.line w.time)
  · rw [heq] at h
    cases h
  · rw [heq] at h
    rw [List.mem_singleton.mp h]
    exact .appended List.mem_cons_self
  · rw [heq] at h
    rw [List.mem_singleton.mp h]
    exact .lost List.mem_cons_self
  · rw [heq] at h
    rcases List.mem_cons.mp h with rfl | h
    · exact .putAside List.mem_cons_self
    · rw [List.mem_singleton.mp h]
      exact .appended List.mem_cons_self

/-- Handing a record to handlers shows it, and does nothing else. -/
theorem isLogged_of_mem_handOverAll {w : World} {record : Log.Record} {handlers : List Log.Handler}
    {effect : Effect} (h : effect ∈ (w.handOverAll record handlers).2) : effect.IsLogged [record] := by
  induction handlers generalizing w with
  | nil => cases h
  | cons handler rest ih =>
    rcases List.mem_append.mp h with h | h
    · cases handler with
      | console level session =>
        have h : effect ∈ if session = w.session then [Effect.error (record.line w.time)] else [] := h
        split at h
        · rw [List.mem_singleton.mp h]
          exact .line List.mem_cons_self
        · cases h
      | file log level => exact isLogged_of_mem_addLine h
      | lastResort =>
        rw [List.mem_singleton.mp h]
        exact .message List.mem_cons_self
    · exact ih h

/-- **Logging shows records and does nothing else.** -/
theorem isLogged_of_mem_logAll {w : World} {records : List Log.Record} {effect : Effect}
    (h : effect ∈ (w.logAll records).2) : effect.IsLogged records := by
  induction records generalizing w with
  | nil => cases h
  | cons record rest ih =>
    rcases List.mem_append.mp h with h | h
    · exact (isLogged_of_mem_handOverAll h).mono (by simp)
    · exact (ih h).mono (List.subset_cons_self record rest)

/-! ## Files -/

/-- Handing a record over changes nothing but the store. -/
theorem exists_handOverAll_eq (w : World) (record : Log.Record) (handlers : List Log.Handler) :
    ∃ store, (w.handOverAll record handlers).1 = { w with store } := by
  induction handlers generalizing w with
  | nil => exact ⟨w.store, rfl⟩
  | cons handler rest ih =>
    have hhanded : ∃ store, (w.handOver record handler).1 = { w with store } := by
      cases handler with
      | console level session => exact ⟨w.store, rfl⟩
      | lastResort => exact ⟨w.store, rfl⟩
      | file log level => exact w.exists_addLine_eq log (record.line w.time)
    obtain ⟨handed, hhanded⟩ := hhanded
    obtain ⟨store, heq⟩ := ih (w.handOver record handler).1
    refine ⟨store, ?_⟩
    show ((w.handOver record handler).1.handOverAll record rest).1 = _
    rw [heq, hhanded]

/-- Items stay where the log files of all handlers spare them. -/
theorem item?_handOverAll {w : World} {record : Log.Record} {handlers : List Log.Handler}
    {place : Files.Location} (h : ∀ log level, .file log level ∈ handlers → log.Spares place) :
    (w.handOverAll record handlers).1.store.item? place = w.store.item? place := by
  induction handlers generalizing w with
  | nil => rfl
  | cons handler rest ih =>
    show ((w.handOver record handler).1.handOverAll record rest).1.store.item? place = _
    rw [ih (fun log level hmem => h log level (List.mem_cons_of_mem handler hmem))]
    cases handler with
    | console level session => rfl
    | lastResort => rfl
    | file log level => exact w.item?_addLine log _ (h log level List.mem_cons_self)

/-- Logging a record changes nothing but the store and what is known of loggers. -/
theorem exists_emit_eq (w : World) (record : Log.Record) : ∃ store, (w.emit record).1 =
    { w with store, logging := (w.logging.meet record.logger).settle record.logger record.level } :=
  exists_handOverAll_eq _ record _

theorem logging_emit (w : World) (record : Log.Record) :
    (w.emit record).1.logging = (w.logging.meet record.logger).settle record.logger record.level := by
  obtain ⟨store, heq⟩ := w.exists_emit_eq record
  rw [heq]

theorem sparesPlace_emit {w : World} {place : Files.Location} (h : w.SparesPlace place)
    (record : Log.Record) : (w.emit record).1.SparesPlace place := by
  unfold SparesPlace
  rw [logging_emit, Log.Logging.handlers_settle, Log.Logging.handlers_meet]
  exact h

theorem item?_emit {w : World} {place : Files.Location} (h : w.SparesPlace place) (record : Log.Record) :
    (w.emit record).1.store.item? place = w.store.item? place := by
  unfold emit
  dsimp only
  rw [item?_handOverAll]
  intro log level hmem
  have hmem := Log.Logging.mem_handlers_of_mem_deliver hmem
  rw [Log.Logging.handlers_settle, Log.Logging.handlers_meet] at hmem
  exact h log level hmem

/-- **Logging changes nothing but log files.** -/
theorem item?_logAll {w : World} {place : Files.Location} (h : w.SparesPlace place)
    (records : List Log.Record) : (w.logAll records).1.store.item? place = w.store.item? place := by
  induction records generalizing w with
  | nil => rfl
  | cons record rest ih =>
    show ((w.emit record).1.logAll rest).1.store.item? place = _
    rw [ih (sparesPlace_emit h record), item?_emit h]

/-! ## Setting up -/

/-- The working directory takes a log file unless a directory has its name. -/
theorem setup_dot {store : Files.Store} (h : store.item? [Log.fileName] ≠ some .directory) (s : Log.Logging)
    (session : Nat) (consoleLevel fileLevel : Log.Level) :
    Log.setup store s session "." consoleLevel fileLevel =
      ⟨store.openFile [Log.fileName],
        (s.attachConsole consoleLevel session).attachFile (.ofPlace [Log.fileName]) fileLevel, none⟩ := by
  have hpath : Path.ofSteps (Path.root ".") ([] ++ [Log.fileName]) = Log.fileName := by decide
  have hplain : Files.IsPlain Log.fileName := by decide +kernel
  unfold Log.setup
  rw [Path.steps_dot, hpath]
  dsimp only [List.reverse_nil, Files.Store.makeDirectory]
  rw [Files.Store.writable_eq_ok hplain h]

theorem logDirectory_dot {w : World} (h : w.environment.get? logDirectoryVariable = some ".") :
    w.logDirectory = "." := by
  have hnormal : Path.normalize "." = "." := by
    rw [Path.normalize, Path.steps_dot]
    decide
  unfold logDirectory
  rw [h]
  exact hnormal

/-- The console and a log file at this place have taken the places of all handlers. -/
def attached (w : World) (consoleLevel fileLevel : Log.Level) (place : Files.Location) : World :=
  { w with
    store := w.store.openFile place
    logging := (w.logging.attachConsole consoleLevel w.session).attachFile (.ofPlace place) fileLevel }

/-- **Logging can be set up in the working directory** unless a directory has the name of the log file. -/
theorem setUpLogging_dot {w : World} (h : w.store.item? [Log.fileName] ≠ some .directory)
    (hdirectory : w.environment.get? logDirectoryVariable = some ".") (consoleLevel fileLevel : Log.Level) :
    w.setUpLogging consoleLevel fileLevel =
      (((w.attached consoleLevel fileLevel [Log.fileName]).emit (Log.setupRecord consoleLevel fileLevel)).1,
        ((w.attached consoleLevel fileLevel [Log.fileName]).emit (Log.setupRecord consoleLevel fileLevel)).2,
        none) := by
  unfold setUpLogging
  rw [logDirectory_dot hdirectory, setup_dot h]
  rfl

/-- Only the log file and those that are put aside change when logging has been set up so, also when records
are logged. -/
theorem exists_setUpLogging_eq {w : World} (h : w.store.item? [Log.fileName] ≠ some .directory)
    (hdirectory : w.environment.get? logDirectoryVariable = some ".")
    (consoleLevel fileLevel : Log.Level) :
    ∃ w₁ begun, w.setUpLogging consoleLevel fileLevel = (w₁, begun, none) ∧
      ∀ place, (Log.File.ofPlace [Log.fileName]).Spares place →
        w₁.SparesPlace place ∧ w₁.store.item? place = w.store.item? place := by
  refine ⟨_, _, setUpLogging_dot h hdirectory consoleLevel fileLevel, ?_⟩
  intro place hplace
  have hspares : (w.attached consoleLevel fileLevel [Log.fileName]).SparesPlace place := by
    intro log level hmem
    unfold attached at hmem
    rw [Log.Logging.handlers_attachFile] at hmem
    rcases List.mem_cons.mp hmem with heq | hmem
    · injection heq with heq
      exact heq ▸ hplace
    · cases List.mem_singleton.mp hmem
  refine ⟨sparesPlace_emit hspares _, ?_⟩
  rw [item?_emit hspares]
  exact Files.Store.item?_openFile_of_ne hplace.place_ne

end World

end Command

end AreaAtlas

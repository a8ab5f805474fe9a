import AreaAtlas.Command.View
import AreaAtlas.Proofs.Command.Logging

/-!
# What becomes of a record

With a console and a log file in place, a record that is passed on makes at most two lines, one for each of
them: `effects_emit`.  A log file that has no room for its line is put aside before, and where that fails the
line is lost, `effects_addLine`.  What files there are behind is `stores_emit`.
-/

namespace AreaAtlas.Command

open Log (Level Record package)

namespace World

variable {w : World} {consoleLevel fileLevel : Level} {place : Files.Location}

/-! ## Lines -/

/-- What is seen of a line for a log file: it is added, to a fresh file if there is no room for it.  It is
lost if the full file cannot be put aside. -/
def fileLines (w : World) (log : Log.File) (line : String) : List Effect :=
  if log.maxSize ≤ (w.bytesAt log.place).length + line.length then
    if log.IsStuck w.store log.backups then [.lost log line]
    else [.putAside log, .appended log.place line]
  else [.appended log.place line]

/-- The lines of a record that is passed on, or is not, by a logger that is within the program, or is not. -/
def linesOf (w : World) (consoleLevel fileLevel : Level) (place : Files.Location) (record : Record)
    (passed within : Prop) [Decidable passed] [Decidable within] : List Effect :=
  if passed then
    (if within ∧ fileLevel ≤ record.level then w.fileLines (.ofPlace place) (record.line w.time) else []) ++
      (if consoleLevel ≤ record.level then [.error (record.line w.time)] else [])
  else []

theorem linesOf_congr {w : World} {consoleLevel fileLevel : Level} {place : Files.Location} {record : Record}
    {passed passed' within within' : Prop} [Decidable passed] [Decidable passed'] [Decidable within]
    [Decidable within'] (hpassed : passed ↔ passed') (hwithin : within ↔ within') :
    w.linesOf consoleLevel fileLevel place record passed within
      = w.linesOf consoleLevel fileLevel place record passed' within' := by
  have hfile := if_congr (and_congr_left' (c := fileLevel ≤ record.level) hwithin)
    (rfl : w.fileLines (.ofPlace place) (record.line w.time) = _) (rfl : [] = _)
  unfold linesOf
  rw [hfile]
  exact if_congr hpassed rfl rfl

/-- **What the files hold behind a line** for a log file that has held these bytes: the line is at its end if
it was added, and if the file was put aside first, each file moved on to the next number. -/
structure Stores (before : Files.Store) (bytes : List UInt8) (log : Log.File) (line : String)
    (effects : List Effect) (after : Files.Store) : Prop where
  unchanged : .appended log.place line ∉ effects → after = before
  added : .appended log.place line ∈ effects → .putAside log ∉ effects →
    after.item? log.place = some (.file (bytes ++ Utf8.encode line)) ∧
      ∀ other, log.place ≠ other → after.item? other = before.item? other
  begun : .putAside log ∈ effects → after.item? log.place = some (.file (Utf8.encode line)) ∧
    ∀ k < log.backups, (before.item? (log.numbered k)).isSome = true →
      after.item? (log.numbered (k + 1)) = before.item? (log.numbered k)
  spared : ∀ other, log.Spares other → after.item? other = before.item? other

/-- A log file stays, whatever line becomes of it. -/
theorem Stores.exists_file {before after : Files.Store} {bytes : List UInt8} {log : Log.File} {line : String}
    {effects : List Effect} (h : Stores before bytes log line effects after)
    (hitem : before.item? log.place = some (.file bytes)) :
    ∃ bytes, after.item? log.place = some (.file bytes) := by
  by_cases hbegun : .putAside log ∈ effects
  · exact ⟨_, (h.begun hbegun).1⟩
  · by_cases hadded : .appended log.place line ∈ effects
    · exact ⟨_, (h.added hadded hbegun).1⟩
    · exact ⟨bytes, by rw [h.unchanged hadded, hitem]⟩

/-- All that is seen is shown on the console. -/
def AreShown (effects : List Effect) : Prop :=
  ∀ effect ∈ effects, ∃ text, effect = .error text

section AreShown

variable {effects : List Effect} (h : AreShown effects)

include h

theorem AreShown.appended_notMem (place : Files.Location) (text : String) :
    .appended place text ∉ effects := by
  intro hmem
  obtain ⟨shown, heq⟩ := h _ hmem
  cases heq

theorem AreShown.putAside_notMem (log : Log.File) : .putAside log ∉ effects := by
  intro hmem
  obtain ⟨shown, heq⟩ := h _ hmem
  cases heq

/-- What is shown on the console changes no file. -/
theorem AreShown.stores (store : Files.Store) (bytes : List UInt8) (log : Log.File) (line : String) :
    Stores store bytes log line effects store :=
  ⟨fun _ => rfl, fun hadded => absurd hadded (h.appended_notMem log.place line),
    fun hbegun => absurd hbegun (h.putAside_notMem log), fun _ _ => rfl⟩

end AreShown

/-- The console of a session shows one line of a record at most. -/
theorem areShown_console (w : World) (consoleLevel : Level) (record : Record) :
    AreShown (if consoleLevel ≤ record.level then [.error (record.line w.time)] else []) := by
  intro effect heffect
  split at heffect
  · exact ⟨_, List.mem_singleton.mp heffect⟩
  · cases heffect

/-! ## The log file -/

section LogFile

variable {log : Log.File} {bytes : List UInt8} {line : String}

theorem bytesAt_eq (h : w.store.item? place = some (.file bytes)) : w.bytesAt place = bytes := by
  rw [bytesAt, h]

/-- The file that was there is there with the bytes that it has. -/
theorem item?_eq_bytesAt (h : ∃ bytes, w.store.item? place = some (.file bytes)) :
    w.store.item? place = some (.file (w.bytesAt place)) := by
  obtain ⟨bytes, hitem⟩ := h
  rw [bytesAt_eq hitem, hitem]

/-- **What becomes of a line** for a log file that is there. -/
theorem addLine_cases_of_file (line : String) (hitem : w.store.item? log.place = some (.file bytes)) :
    (log.isFull bytes line = false ∧ w.addLine log line =
        ({ w with store := w.store.append log.place (Utf8.encode line) }, [.appended log.place line])) ∨
      (log.isFull bytes line = true ∧ log.putAside w.store = none ∧
        w.addLine log line = (w, [.lost log line])) ∨
      (log.isFull bytes line = true ∧ ∃ store, log.putAside w.store = some store ∧ w.addLine log line =
        ({ w with store := store.append log.place (Utf8.encode line) },
          [.putAside log, .appended log.place line])) := by
  obtain ⟨hfree, -⟩ | ⟨bytes', hitem', hcases⟩ := w.addLine_cases log line
  · exact absurd hitem (hfree bytes)
  · obtain rfl := Files.Item.file.inj (Option.some.inj (hitem'.symm.trans hitem))
    exact hcases

variable (hlog : Log.isLogFile log.place = true) (hitem : w.store.item? log.place = some (.file bytes))

include hlog hitem

theorem effects_addLine (hsize : 0 < log.maxSize) : (w.addLine log line).2 = w.fileLines log line := by
  have hfull : log.isFull bytes line = true ↔ log.maxSize ≤ bytes.length + line.length := by
    rw [Log.File.isFull, Bool.and_eq_true, decide_eq_true_eq, decide_eq_true_eq]
    exact and_iff_right hsize
  unfold fileLines
  rw [bytesAt_eq hitem]
  obtain ⟨hroom, heq⟩ | ⟨hnoRoom, haside, heq⟩ | ⟨hnoRoom, store, haside, heq⟩ :=
    addLine_cases_of_file line hitem
  · rw [heq, if_neg (mt hfull.mpr (Bool.eq_false_iff.mp hroom))]
  · rw [heq, if_pos (hfull.mp hnoRoom), if_pos ((Log.File.putAside_eq_none_iff hlog).mp haside)]
  · rw [heq, if_pos (hfull.mp hnoRoom), if_neg]
    rw [← Log.File.putAside_eq_none_iff hlog, haside]
    exact Option.some_ne_none store

/-- **What the files hold behind a line.**  On the console anything may be shown besides. -/
theorem stores_addLine (hbackups : 0 < log.backups) {shown : List Effect}
    (hshown : AreShown shown) :
    Stores w.store bytes log line ((w.addLine log line).2 ++ shown) (w.addLine log line).1.store := by
  have hstanding : Files.Store.standing? log.place = none := Log.File.standing?_numbered hlog 0
  have hspared : ∀ other, log.Spares other →
      (w.addLine log line).1.store.item? other = w.store.item? other :=
    fun other hother => w.item?_addLine log line hother
  obtain ⟨-, heq⟩ | ⟨-, -, heq⟩ | ⟨-, store, haside, heq⟩ := addLine_cases_of_file line hitem
  · rw [heq] at hspared ⊢
    refine ⟨fun h => ?_, fun _ _ => ⟨?_, ?_⟩, fun h => ?_, hspared⟩
    · exact absurd List.mem_cons_self h
    · exact Files.Store.item?_append_self hstanding hitem _
    · exact fun other hne => Files.Store.item?_append_of_ne _ hne
    · simp [hshown.putAside_notMem log] at h
  · rw [heq] at hspared ⊢
    refine ⟨fun _ => rfl, fun h => ?_, fun h => ?_, hspared⟩
    · simp [hshown.appended_notMem log.place line] at h
    · simp [hshown.putAside_notMem log] at h
  · rw [heq] at hspared ⊢
    refine ⟨fun h => ?_, fun _ h => ?_, fun _ => ⟨?_, ?_⟩, hspared⟩
    · simp at h
    · simp at h
    · exact Files.Store.item?_append_self hstanding (Log.File.item?_putAside_self hlog haside hbackups) _
    · intro k hk hsome
      have hne : log.place ≠ log.numbered (k + 1) := fun hplace =>
        Log.File.not_prefix_numbered hlog (Nat.succ_ne_zero k).symm (hplace ▸ List.prefix_rfl)
      exact (Files.Store.item?_append_of_ne _ hne).trans
        (Log.File.item?_putAside_succ hlog haside hk hsome)

end LogFile

/-! ## Records -/

/-- The logging that a record is delivered with. -/
def asked (w : World) (record : Record) : Log.Logging :=
  (w.logging.meet record.logger).settle record.logger record.level

theorem passesOn_asked (w : World) (record : Record) :
    (w.asked record).passesOn record.logger record.level
      = (w.logging.meet record.logger).passesOn record.logger record.level :=
  Log.Logging.passesOn_settle _ record.logger record.level

theorem isWithin_asked (w : World) (record : Record) (outer : String) :
    (w.asked record).isWithin outer record.logger
      = (w.logging.meet record.logger).isWithin outer record.logger := by
  obtain ⟨settled, hsettle⟩ := Log.Logging.exists_settle_eq (w.logging.meet record.logger) record.logger
    record.level
  unfold asked
  rw [hsettle]
  rfl

/-- A record leaves the handlers and levels as they are. -/
theorem exists_asked_eq (w : World) (record : Record) :
    ∃ loggers settled, w.asked record = { w.logging with loggers, settled } := by
  obtain ⟨loggers, hmeet⟩ := Log.Logging.exists_meet_eq w.logging record.logger
  obtain ⟨settled, hsettle⟩ := Log.Logging.exists_settle_eq (w.logging.meet record.logger) record.logger
    record.level
  refine ⟨loggers, settled, ?_⟩
  unfold asked
  rw [hsettle, hmeet]

theorem rootHandlers_asked (w : World) (record : Record) :
    (w.asked record).rootHandlers = w.logging.rootHandlers := by
  obtain ⟨loggers, settled, heq⟩ := w.exists_asked_eq record
  rw [heq]

theorem packageHandlers_asked (w : World) (record : Record) :
    (w.asked record).packageHandlers = w.logging.packageHandlers := by
  obtain ⟨loggers, settled, heq⟩ := w.exists_asked_eq record
  rw [heq]

theorem isSetUp_asked (h : w.logging.IsSetUp) (record : Record) : (w.asked record).IsSetUp :=
  (h.meet record.logger).settle record.logger record.level

/-- The console of the session that runs shows a record from its level on. -/
theorem handOverAll_console {session : Nat} (h : session = w.session) (record : Record) :
    w.handOverAll record (if consoleLevel ≤ record.level then [.console consoleLevel session] else [])
      = (w, if consoleLevel ≤ record.level then [.error (record.line w.time)] else []) := by
  split
  · show (w, (if session = w.session then [Effect.error (record.line w.time)] else []) ++ []) = _
    rw [if_pos h, List.append_nil]
  · rfl

/-- A record is handed to the log file, if it goes there. -/
def addRecord (w : World) (fileLevel : Level) (place : Files.Location) (record : Record) (within : Prop)
    [Decidable within] : World × List Effect :=
  if within ∧ fileLevel ≤ record.level then w.addLine (.ofPlace place) (record.line w.time) else (w, [])

/-- A record is handed to the log file first and then to the console. -/
theorem handOverAll_eq (within : Prop) [Decidable within] (record : Record) :
    w.handOverAll record
        ((if within ∧ fileLevel ≤ record.level then [.file (.ofPlace place) fileLevel] else []) ++
          if consoleLevel ≤ record.level then [.console consoleLevel w.session] else []) =
      ((w.addRecord fileLevel place record within).1, (w.addRecord fileLevel place record within).2 ++
        if consoleLevel ≤ record.level then [.error (record.line w.time)] else []) := by
  unfold addRecord
  split
  · obtain ⟨store, heq⟩ := w.exists_addLine_eq (.ofPlace place) (record.line w.time)
    let console : List Log.Handler :=
      if consoleLevel ≤ record.level then [.console consoleLevel w.session] else []
    show (((w.addLine (.ofPlace place) (record.line w.time)).1.handOverAll record console).1,
      (w.addLine (.ofPlace place) (record.line w.time)).2 ++
        ((w.addLine (.ofPlace place) (record.line w.time)).1.handOverAll record console).2) = _
    rw [heq, handOverAll_console rfl]
  · exact handOverAll_console rfl record

/-- **Where a record goes**, with the two handlers in place. -/
theorem emit_eq (hroot : w.logging.rootHandlers = [.console consoleLevel w.session])
    (hpackage : w.logging.packageHandlers = [.file (.ofPlace place) fileLevel]) (record : Record) :
    w.emit record = if (w.logging.meet record.logger).passesOn record.logger record.level = true then
        ((addRecord { w with logging := w.asked record } fileLevel place record
            ((w.logging.meet record.logger).isWithin package record.logger = true)).1,
          (addRecord { w with logging := w.asked record } fileLevel place record
            ((w.logging.meet record.logger).isWithin package record.logger = true)).2 ++
            if consoleLevel ≤ record.level then [.error (record.line w.time)] else [])
      else ({ w with logging := w.asked record }, []) := by
  have hdeliver := Log.Logging.deliver_eq ((rootHandlers_asked w record).trans hroot)
    ((packageHandlers_asked w record).trans hpackage) record
  show { w with logging := w.asked record }.handOverAll record ((w.asked record).deliver record) = _
  rw [hdeliver, passesOn_asked, isWithin_asked]
  split
  · exact handOverAll_eq _ record
  · rfl

section Emit

variable (hroot : w.logging.rootHandlers = [.console consoleLevel w.session])
  (hpackage : w.logging.packageHandlers = [.file (.ofPlace place) fileLevel])
  (hlog : Log.isLogFile place = true) (hitem : w.store.item? place = some (.file (w.bytesAt place)))

include hroot hpackage hlog hitem

/-- **The lines of a record.** -/
theorem effects_emit (record : Record) : (w.emit record).2 = w.linesOf consoleLevel fileLevel place record
    ((w.logging.meet record.logger).passesOn record.logger record.level = true)
    ((w.logging.meet record.logger).isWithin package record.logger = true) := by
  rw [emit_eq hroot hpackage]
  unfold linesOf
  split
  · unfold addRecord
    split
    · have hlines : (addLine { w with logging := w.asked record } (.ofPlace place) (record.line w.time)).2 =
          w.fileLines (.ofPlace place) (record.line w.time) :=
        effects_addLine hlog hitem (by decide : 0 < Log.maxFileSize)
      rw [← hlines]
    · rfl
  · rfl

/-- **What the files hold behind a record.** -/
theorem stores_emit (record : Record) : Stores w.store (w.bytesAt place) (.ofPlace place)
    (record.line w.time) (w.emit record).2 (w.emit record).1.store := by
  rw [emit_eq hroot hpackage]
  split
  · unfold addRecord
    split
    · exact stores_addLine (w := { w with logging := w.asked record }) hlog hitem
        (by decide : 0 < Log.backupCount) (w.areShown_console consoleLevel record)
    · exact (w.areShown_console consoleLevel record).stores _ _ _ _
  · exact AreShown.stores (List.forall_mem_nil _) _ _ _ _

end Emit

end World

end AreaAtlas.Command

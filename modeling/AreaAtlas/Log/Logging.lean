import AreaAtlas.Log.File
import AreaAtlas.Log.Record

/-!
# Delivery of log records

Loggers form a tree under one root by the dots in their names.  Records go to handlers.  The root has a
handler for the console, and the program's own logger has one for a file; a record passes the handlers of
its logger and of every logger above.  Where there are none at all, what may be wrong is still told.

Setting up takes several steps, each of which may be the last: the log directory is made, the console
handler takes the place of the root's handlers, and the file handler, once its file is open, takes the
place of the program's.

Whether a logger passes on records of a level is settled when it is first asked, and stays so until
levels are set, even if the logger gets another parent meanwhile.
-/

namespace AreaAtlas.Log

/-! ## The tree of loggers

What stands in front of a dot encloses the name.  Dots are looked for from the end on, and the character
in front of a dot that was found is passed over: of two dots in a row the first does not count, nor does
one at the front of the name.

The parent of a logger is the nearest enclosing name that belongs to a logger, so it can change when a
logger is used for the first time.  Loggers above are found parent by parent, not in the name itself.
-/

/-- The names that enclose a name, the nearest first, all of them backwards. -/
def enclosingBackwards : List Char → List (List Char)
  | [] => []
  | [_] => []
  | '.' :: c :: before => (c :: before) :: enclosingBackwards before
  | _ :: c :: before => enclosingBackwards (c :: before)

/-- The names that enclose a name, the nearest first. -/
def enclosing (name : String) : List String :=
  (enclosingBackwards name.toList.reverse).map fun outer => String.ofList outer.reverse

/-- The parent of a logger among these loggers; where there is none, it is the root. -/
def parent? (loggers : List String) (name : String) : Option String :=
  (enclosing name).find? (loggers.contains ·)

/-- A logger and the loggers above it, at most `bound` of them and without the root. -/
def ascend (loggers : List String) (name : String) : Nat → List String
  | 0 => []
  | bound + 1 =>
    name ::
      match parent? loggers name with
      | some outer => ascend loggers outer bound
      | none => []

/-- A logger and the loggers above it, without the root.  Each name is shorter than the one before. -/
def lineage (loggers : List String) (name : String) : List String :=
  if isRoot name then [] else ascend loggers name name.length

/-! ## Delivery -/

/-- Where records go, from a level on. -/
inductive Handler where
  /-- The console of a session.  What is written there after the session is lost. -/
  | console (level : Level) (session : Nat)
  /-- A log file, which was opened when the handler was made. -/
  | file (log : File) (level : Level)
  /-- The console of the session that runs, which is told the message alone. -/
  | lastResort
deriving DecidableEq, Repr

/-- The least level of the records that a handler takes. -/
def Handler.level : Handler → Level
  | .console level _ => level
  | .file _ level => level
  | .lastResort => warning

/-- The logger of the program. -/
def package : String := "src.logic_map"

/-- Loggers that are held back once logging is set up. -/
def noisy : List String := ["plotly", "kaleido"]

/-- The loggers, and their handlers and levels. -/
structure Logging where
  loggers : List String
  rootHandlers : List Handler
  packageHandlers : List Handler
  rootLevel : Level
  heldBack : Bool
  /-- Which loggers pass on records of which levels, as far as that has been settled. -/
  settled : List ((String × Level) × Bool)
deriving DecidableEq, Repr

namespace Logging

/-- Logging before it is set up. -/
def initial : Logging := ⟨[], [], [], warning, false, []⟩

/-- Take a name among the loggers. -/
def meet (s : Logging) (logger : String) : Logging :=
  if isRoot logger || s.loggers.contains logger then s else { s with loggers := logger :: s.loggers }

/-- Whether a logger is another one or below it. -/
def isWithin (s : Logging) (outer logger : String) : Bool :=
  (lineage s.loggers logger).contains outer

/-- The least level of the records that a logger passes on: its own, or that of the nearest logger
above that has one. -/
def effectiveLevel (s : Logging) (logger : String) : Level :=
  if s.heldBack && noisy.any (s.isWithin · logger) then warning else s.rootLevel

/-- Whether a logger passes on records of a level. -/
def passesOn (s : Logging) (logger : String) (level : Level) : Bool :=
  (s.settled.lookup (logger, level)).getD (s.effectiveLevel logger ≤ level)

/-- Settle whether a logger passes on records of a level. -/
def settle (s : Logging) (logger : String) (level : Level) : Logging :=
  match s.settled.lookup (logger, level) with
  | some _ => s
  | none => { s with settled := ((logger, level), s.passesOn logger level) :: s.settled }

/-- The handlers that a record of this logger passes. -/
def handlersOf (s : Logging) (logger : String) : List Handler :=
  match (if s.isWithin package logger then s.packageHandlers else []) ++ s.rootHandlers with
  | [] => [.lastResort]
  | handlers => handlers

/-- The handlers that take a record. -/
def deliver (s : Logging) (r : Record) : List Handler :=
  if s.passesOn r.logger r.level then
    (s.handlersOf r.logger).filter (·.level ≤ r.level)
  else []

/-- Put the console handler in the place of the root's handlers. -/
def attachConsole (s : Logging) (level : Level) (session : Nat) : Logging :=
  { s with rootLevel := debug, rootHandlers := [.console level session], settled := [] }

/-- Put the file handler in the place of the program's handlers. -/
def attachFile (s : Logging) (log : File) (level : Level) : Logging :=
  (package :: noisy).foldl meet
    { s with packageHandlers := [.file log level], heldBack := true, settled := [] }

end Logging

/-- The directory for log files where none is given. -/
def defaultDirectory : String := "logs"

/-- The log directory that is asked for; none stands for the default one. -/
def directory? (asked : Option String) : Option String :=
  match asked with
  | none | some "" => none
  | some path => some (Path.normalize path)

/-- The record that setting up ends with. -/
def setupRecord (consoleLevel fileLevel : Level) : Record :=
  ⟨root, info, "Logging initialized - console: " ++ levelName consoleLevel ++ ", file: "
    ++ levelName fileLevel⟩

/-- What setting up logging leaves behind: the store, the loggers, and the fault that ended it, if one
did. -/
structure Setup where
  store : Files.Store
  logging : Logging
  fault : Option Files.Fault
deriving DecidableEq, Repr

/-- Set up logging to this directory and to the console of this session. -/
def setup (store : Files.Store) (logging : Logging) (session : Nat) (directory : String)
    (consoleLevel fileLevel : Level) : Setup :=
  match store.makeDirectory (Path.root directory) (Files.Store.origin directory)
      (Path.steps directory).reverse with
  | (store, some fault) => ⟨store, logging, some fault⟩
  | (store, none) =>
    let logging := logging.attachConsole consoleLevel session
    let path := Path.ofSteps (Path.root directory) (Path.steps directory ++ [fileName])
    match store.writable path with
    | .error fault => ⟨store, logging, some fault⟩
    | .ok place => ⟨store.openFile place, logging.attachFile (.ofPlace place) fileLevel, none⟩

end AreaAtlas.Log

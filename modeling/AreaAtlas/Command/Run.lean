import AreaAtlas.Command.Response

/-!
# Running the command

What a run finds and changes is kept as a value, the world of the run: the files, the environment and the
loggers.  What others can see of a change is an effect; effects are listed in order.

A run of the command starts from the world that earlier runs have left.  It takes over the settings
file, reads its arguments, sets up logging, and then does what the arguments ask for.  Each of the first
three steps may end it.  Reading a file comes after the first record, so a run that reads its own log
file reads that record.
-/

namespace AreaAtlas.Command

/-! ## The world of a run -/

/-- What one run leaves for the next, and what it is told from outside. -/
structure World where
  store : Files.Store
  environment : Environment
  logging : Log.Logging
  /-- The number of the session that runs. -/
  session : Nat
  /-- The time that lines of a log bear. -/
  time : String
  /-- The directory of the program. -/
  home : String

/-- What can be seen of a run. -/
inductive Effect where
  | output (text : String)
  | error (text : String)
  /-- A text is added to the end of a file. -/
  | appended (place : Files.Location) (text : String)
  /-- A log file is put aside, and a fresh one is begun. -/
  | putAside (log : Log.File)
  /-- A full log file cannot be put aside.  This is told on the console, and its line is lost. -/
  | lost (log : Log.File) (line : String)
  /-- A file is written. -/
  | wrote (path text : String)
  | shown (figure : Figure)
  | exported (path : String) (figure : Figure)

namespace World

/-! ### Logging -/

/-- Add a line to a log file, a fresh one if the file is full.  What is added to a file that has no place any
more is not seen. -/
def addLine (w : World) (log : Log.File) (line : String) : World × List Effect :=
  match w.store.item? log.place with
  | some (.file bytes) =>
    if log.isFull bytes line then
      match log.putAside w.store with
      | some store =>
        ({ w with store := store.append log.place (Utf8.encode line) },
          [.putAside log, .appended log.place line])
      | none => (w, [.lost log line])
    else
      ({ w with store := w.store.append log.place (Utf8.encode line) }, [.appended log.place line])
  | _ => (w, [])

/-- Give a record to a handler. -/
def handOver (w : World) (record : Log.Record) : Log.Handler → World × List Effect
  | .console _ session =>
    (w, if session = w.session then [.error (record.line w.time)] else [])
  | .file log _ => w.addLine log (record.line w.time)
  | .lastResort => (w, [.error (record.message ++ "\n")])

/-- Give a record to handlers in order. -/
def handOverAll (w : World) (record : Log.Record) : List Log.Handler → World × List Effect
  | [] => (w, [])
  | handler :: rest =>
    let (w, effects) := w.handOver record handler
    let (w, others) := w.handOverAll record rest
    (w, effects ++ others)

/-- Log a record. -/
def emit (w : World) (record : Log.Record) : World × List Effect :=
  let w := { w with logging := (w.logging.meet record.logger).settle record.logger record.level }
  w.handOverAll record (w.logging.deliver record)

/-- The variable that names the log directory. -/
def logDirectoryVariable : String := "LOGIC_MAP_LOG_DIR"

/-- The log directory that the environment asks for, or the default one in the directory of the
program. -/
def logDirectory (w : World) : String :=
  (Log.directory? (w.environment.get? logDirectoryVariable)).getD
    (w.home ++ "/" ++ Log.defaultDirectory)

/-- Set up logging. -/
def setUpLogging (w : World) (consoleLevel fileLevel : Log.Level) :
    World × List Effect × Option Files.Fault :=
  let setup := Log.setup w.store w.logging w.session w.logDirectory consoleLevel fileLevel
  let w := { w with store := setup.store, logging := setup.logging }
  match setup.fault with
  | some fault => (w, [], some fault)
  | none =>
    let (w, effects) := w.emit (Log.setupRecord consoleLevel fileLevel)
    (w, effects, none)

/-! ### Actions -/

/-- Do an action. -/
def perform (w : World) : Action → World × List Effect
  | .log record => w.emit record
  | .print text => (w, [.output text])
  | .complain text => (w, [.error text])
  | .write path place text =>
    ({ w with store := w.store.set place (.file (Utf8.encode text)) }, [.wrote path text])
  | .display figure => (w, [.shown figure])
  | .exportTo path figure => (w, [.exported path figure])

/-- Do actions in order. -/
def performAll (w : World) : List Action → World × List Effect
  | [] => (w, [])
  | action :: rest =>
    let (w, effects) := w.perform action
    let (w, others) := w.performAll rest
    (w, effects ++ others)

/-! ### Settings -/

/-- What the settings file holds, if there is one and it is not turned off. -/
def settingsFile? (w : World) : Option (List UInt8) :=
  if Settings.isOff w.environment then none
  else
    match w.store.resolve Settings.fileName with
    | .found _ (.file bytes) => some bytes
    | _ => none

/-- Add the settings file to the environment. -/
def readSettings (w : World) : World × List Effect × Option Settings.Fault :=
  match Settings.readFile (w.settingsFile?.getD []) with
  | .error fault => (w, [], some (.undecodable fault))
  | .ok statements =>
    let (w, effects) := w.performAll ((Settings.warnings statements).map Action.log)
    let (environment, fault?) := Settings.addTo w.environment statements
    ({ w with environment }, effects, fault?.map Settings.Fault.unsettable)

end World

/-! ## Runs -/

/-- How a run ends. -/
inductive Outcome where
  /-- Help was asked for. -/
  | help
  /-- The arguments do not tell what to do. -/
  | usage (fault : Options.Fault)
  /-- The command has run. -/
  | ran (ending : Ending)
deriving DecidableEq, Repr

/-- The exit status of a run, if no fault has escaped. -/
def Outcome.status? : Outcome → Option Nat
  | .help => some 0
  | .usage _ => some 2
  | .ran (.exit status) => some status
  | .ran (.escaped _) => none

namespace World

/-- Begin a session. -/
def beginSession (w : World) : World :=
  { w with session := w.session + 1 }

/-- Do what arguments ask for. -/
def follow (w : World) (a : Options.Arguments) : World × List Effect × Ending :=
  match w.setUpLogging (if a.verbose then Log.debug else Log.info) Log.debug with
  | (w, effects, some fault) => (w, effects, .escaped (.file fault))
  | (w, effects, none) =>
    let (w, begun) := w.emit (loadingRecord a.areas a.locations)
    let response := respond w.store a
    let (w, others) := w.performAll response.actions
    (w, effects ++ begun ++ others, response.ending)

/-- Read the arguments and do what they ask for. -/
def obey (w : World) (arguments : List String) : World × List Effect × Outcome :=
  match Options.readArguments w.environment arguments with
  | .error .help => (w, [], .help)
  | .error (.fault fault) => (w, [], .usage fault)
  | .ok a =>
    let (w, effects, ending) := w.follow a
    (w, effects, .ran ending)

/-- Run the command. -/
def run (w : World) (arguments : List String) : World × List Effect × Outcome :=
  match w.beginSession.readSettings with
  | (w, effects, some fault) => (w, effects, .ran (.escaped (.settings fault)))
  | (w, effects, none) =>
    let (w, others, outcome) := w.obey arguments
    (w, effects ++ others, outcome)

end World

end AreaAtlas.Command

import AreaAtlas.Command.Run
import AreaAtlas.Figure.Json
import Std.Time

/-!
# The program

The program looks at the files that its arguments and the environment name, runs the command on what it
has seen, and then does what the run has done.  A figure is written as its document: to the file that it
is exported to, or to the standard output where it is shown.
-/

namespace AreaAtlas.Command

/-- The variables that the command looks at. -/
def variableNames : List String :=
  ["LOGIC_MAP_AREAS", "LOGIC_MAP_LOCATIONS", World.logDirectoryVariable, Settings.switchVariable]

/-- A path and the paths of the directories above it, the highest first. -/
def pathsTo (path : String) : List String :=
  let steps := Path.steps path
  ((List.range steps.length).map fun i => Path.ofSteps (Path.root path) (steps.take (i + 1)))

/-- The paths that a run of the command may look at once its settings are read. -/
def World.pathsOfInterest (w : World) (arguments : List String) : List String :=
  let named :=
    match Options.readArguments w.environment arguments with
    | .ok a => [a.areas, a.locations, a.json]
    | .error _ => []
  let log := w.logDirectory ++ "/" ++ Log.fileName
  let aside := (List.range Log.backupCount).map fun n => log ++ "." ++ toString (n + 1)
  (log :: aside ++ named).flatMap pathsTo

/-- How the arguments are given, in short. -/
def usageText : String :=
  "usage: area-atlas [areas] [locations] [options]\noptions: "
    ++ ", ".intercalate (Options.Key.all.map Options.Key.label) ++ "\n"

/-- What is at a path, if anything is. -/
def look (path : String) : IO (Option Files.Item) := do
  match ← (IO.FS.readBinFile path).toBaseIO with
  | .ok bytes => return some (.file bytes.toList)
  | .error (.inappropriateType ..) => return some .directory
  | .error _ => return none

/-- Note what is at a path. -/
def World.note (w : World) (path : String) : IO World := do
  let some item ← look path | return w
  return { w with store := w.store.place path item }

/-- The time, as the lines of a log bear it. -/
def readTime : IO String := do
  return (← Std.Time.PlainDateTime.now).format "uuuu-MM-dd HH:mm:ss"

/-- The variables that the settings file speaks of. -/
def World.settingsVariableNames (w : World) : List String :=
  match Settings.readFile (w.settingsFile?.getD []) with
  | .ok statements => (statements.filterMap Settings.Statement.setting?).flatMap (·.variableNames)
  | .error _ => []

/-- Note the variables with these names that are set. -/
def World.noteVariables (w : World) (names : List String) : IO World := do
  let values ← names.mapM fun name => return (name, ← IO.getEnv name)
  return { w with environment := ⟨.ofList (values.filterMap fun (name, value) => value.map (name, ·))⟩ }

/-- Write a text behind what a file holds. -/
def append (path text : String) : IO Unit := do
  let handle ← IO.FS.Handle.mk path .append
  handle.putStr text

/-- Move what is at a path, if anything is, to another path, over the file there. -/
def moveOver (source target : String) : IO Unit := do
  if (← look source).isSome then
    let _ ← (IO.FS.removeFile target).toBaseIO
    IO.FS.rename source target

/-- Move a log file, and those put aside before, on by one number. -/
def renumber (log : Log.File) : IO Unit :=
  (List.range log.backups).reverse.forM fun n =>
    moveOver (log.numbered n).path (log.numbered (n + 1)).path

/-- Do what a run has done. -/
def Effect.enact : Effect → IO Unit
  | .output text => do (← IO.getStdout).putStr text
  | .error text => do (← IO.getStderr).putStr text
  | .appended place text => append place.path text
  | .putAside log => renumber log
  | .lost log line => do
    (← IO.getStderr).putStr ("Logging error: " ++ log.place.path ++ " cannot be put aside\n" ++ line)
  | .wrote path text => IO.FS.writeFile path text
  | .shown figure => do (← IO.getStdout).putStr (figure.toJson.render ++ "\n")
  | .exported path figure => IO.FS.writeFile path figure.toJson.render

/-- Report how a run ends. -/
def Outcome.report (outcome : Outcome) : IO UInt32 := do
  match outcome with
  | .help => (← IO.getStdout).putStr usageText
  | .usage fault => (← IO.getStderr).putStr (usageText ++ "area-atlas: error: " ++ fault.message ++ "\n")
  | .ran (.escaped fault) => (← IO.getStderr).putStr ("Error: " ++ fault.message ++ "\n")
  | .ran (.exit _) => pure ()
  return (outcome.status?.getD 1).toUInt32

/-- Look at the files, run the command with these arguments, and do what it has done. -/
def runProgram (arguments : List String) : IO UInt32 := do
  let w : World :=
    { store := ⟨[]⟩
      environment := ⟨[]⟩
      logging := .initial
      session := 0
      time := ← readTime
      home := "." }
  let w ← w.note Settings.fileName
  let w ← w.noteVariables (variableNames ++ w.settingsVariableNames)
  let w ← (w.readSettings.1.pathsOfInterest arguments).foldlM World.note w
  let (after, effects, outcome) := w.run arguments
  if !after.logging.rootHandlers.isEmpty then IO.FS.createDirAll after.logDirectory
  effects.forM Effect.enact
  outcome.report

end AreaAtlas.Command

/-- The program. -/
def main (arguments : List String) : IO UInt32 :=
  AreaAtlas.Command.runProgram arguments

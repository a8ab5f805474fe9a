import AreaAtlas.Command.Run
import AreaAtlas.Log.Record

/-!
# Views of a run

What is written to the standard error output is a log with other lines between its entries, and so is a
log file, so both are taken apart as logs are.  Of the files those of the working directory are seen.
-/

namespace AreaAtlas.Command

/-! ## Effects -/

namespace Effect

/-- What is written to the standard output. -/
def outputText (effects : List Effect) : String :=
  String.join (effects.map fun
    | .output text => text
    | _ => "")

/-- What is written to the standard error output. -/
def errorText (effects : List Effect) : String :=
  String.join (effects.map fun
    | .error text => text
    | _ => "")

/-- The entries that appear on the console. -/
def consoleEntries (effects : List Effect) : List Log.Entry :=
  Log.entries (errorText effects)

/-- What appears on the console besides entries. -/
def complaints (effects : List Effect) : String :=
  Log.withoutEntries (errorText effects)

/-- The figure that is shown, if one is. -/
def shownFigure? (effects : List Effect) : Option Figure :=
  effects.findSome? fun
    | .shown figure => some figure
    | _ => none

/-- The figure that is exported and its path, if one is. -/
def exportedFigure? (effects : List Effect) : Option (String × Figure) :=
  effects.findSome? fun
    | .exported path figure => some (path, figure)
    | _ => none

end Effect

/-! ## Files -/

namespace World

/-- The files that are new or have other bytes since, log files apart. -/
def changedFiles (w before : World) : List (Files.Location × List UInt8) :=
  (w.store.changedFrom before.store).filter fun (place, _) => !Log.isLogFile place

/-- The log files that are new or have other bytes since, each with all its entries. -/
def changedLogs (w before : World) : List (Files.Location × List Log.Entry) :=
  ((w.store.changedFrom before.store).filter fun (place, _) => Log.isLogFile place).map
    fun (place, bytes) => (place, Log.entriesOfFile bytes)

/-- The bytes of a file. -/
def bytesAt (w : World) (place : Files.Location) : List UInt8 :=
  match w.store.item? place with
  | some (.file bytes) => bytes
  | _ => []

/-- The files that are new or have other bytes since, each with the entries behind what it held. -/
def grownLogs (w before : World) : List (Files.Location × List Log.Entry) :=
  (w.store.changedFrom before.store).map fun (place, bytes) =>
    (place, Log.entriesOfFile (bytes.drop (before.bytesAt place).length))

end World

end AreaAtlas.Command

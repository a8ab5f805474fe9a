import AreaAtlas.Areas.Document
import AreaAtlas.Figure.Drawing
import AreaAtlas.Graph.Basic
import AreaAtlas.Graph.Build
import AreaAtlas.Log.Logging
import AreaAtlas.Options.Arguments
import AreaAtlas.Place
import AreaAtlas.Settings.File
import AreaAtlas.Sources

/-!
# What the command does

Once its arguments are read, logging is set up and the first record is logged, the command loads the
two texts and builds the graph.  It then does the first of four things that is asked for: it tells where
a node is declared, it tells where a connection is declared, it writes the graph as a document, or it
draws it.  What it does is a list of actions and an end; nothing is done here.
-/

namespace AreaAtlas.Command

/-! ## What is logged

Reading and building log their progress.  An entry that does not survive is logged as it is read, so a
fault of the areas text comes after the entries before it; a fault of the tables comes before all of
them.
-/

/-- The logger of the command. -/
def commandLogger : String := "src.logic_map.cli"

/-- The logger of the files. -/
def fileLogger : String := "src.logic_map.loader"

/-- The logger of the reader. -/
def readerLogger : String := "src.logic_map.logic"

/-- The logger of the graph. -/
def graphLogger : String := "src.logic_map.graph"

/-- A record of the command itself. -/
def commandRecord (message : String) : Log.Record :=
  ⟨commandLogger, Log.info, message⟩

/-- That files are about to be read. -/
def loadingRecord (areasPath locationsPath : String) : Log.Record :=
  commandRecord ("Loading logic from " ++ areasPath ++ " and " ++ locationsPath)

/-- That an entry does not survive. -/
def prunedRecord (e : Areas.Entry) : Log.Record :=
  ⟨readerLogger, Log.debug, "Pruned " ++ e.kind.keyword ++ " " ++ e.target ++ " on line "
    ++ toString e.line⟩

/-- The records of the entries of an areas text that are read and do not survive. -/
def prunedRecords (setting : Difficulty) (areas : String) : List Log.Record :=
  ((Areas.entriesRead areas.toList).filter fun e => !e.isPermitted setting).map prunedRecord

/-- What has been read. -/
def readRecord (logic : Logic) : Log.Record :=
  ⟨readerLogger, Log.debug, "Parsed logic: " ++ toString logic.declarations.length ++ " anchors, "
    ++ toString logic.nodes.length ++ " nodes, " ++ toString logic.locations.length
    ++ " locations, " ++ toString logic.states.length ++ " states"⟩

/-- What has been built. -/
def builtRecord (logic : Logic) (g : Graph) : Log.Record :=
  ⟨graphLogger, Log.info, "Built graph: " ++ toString g.vertices.length ++ " of "
    ++ toString logic.nodes.length ++ " nodes positioned, " ++ toString g.connections.length
    ++ " connections"⟩

/-- What building a graph logs, up to the fault if there is one. -/
def buildRecords (areas locations : String) : List Log.Record :=
  match readLocations locations.toList with
  | .error _ => []
  | .ok _ =>
    prunedRecords .unrestricted areas ++
      match Logic.readUnrestricted areas locations with
      | .error _ => []
      | .ok logic => [readRecord logic, builtRecord logic (Graph.ofNodes logic.nodes)]

/-- What reading the files logs. -/
def loadedRecord (areas locations areasPath locationsPath : String) : Log.Record :=
  ⟨fileLogger, Log.info, "Loaded logic: " ++ toString (lines areas.toList).length
    ++ " areas lines from " ++ areasPath ++ ", " ++ toString (lines locations.toList).length
    ++ " location lines from " ++ locationsPath⟩

/-! ## Responses -/

/-- An action of the command. -/
inductive Action where
  | log (record : Log.Record)
  /-- Write to the standard output. -/
  | print (text : String)
  /-- Write to the standard error output. -/
  | complain (text : String)
  /-- Write a file at a place that the path leads to. -/
  | write (path : String) (place : Files.Location) (text : String)
  /-- Show a figure to the user. -/
  | display (figure : Figure)
  /-- Export a figure to a file. -/
  | exportTo (path : String) (figure : Figure)

/-- A fault that the command does not report itself. -/
inductive Escape where
  /-- The settings file cannot be taken over. -/
  | settings (fault : Settings.Fault)
  /-- A table cannot be taken apart into records. -/
  | table (fault : Table.Fault)
  /-- A file cannot be written. -/
  | file (fault : Files.Fault)
  /-- A figure cannot be drawn. -/
  | figure (fault : Figure.Fault)
deriving DecidableEq, Repr

/-- The wording of a fault. -/
def Escape.message : Escape → String
  | .settings fault => fault.message
  | .table fault => fault.message
  | .file fault => fault.message
  | .figure fault => fault.message

/-- How the command ends. -/
inductive Ending where
  | exit (status : Nat)
  | escaped (fault : Escape)
deriving DecidableEq, Repr

/-- What the command does, and how it ends. -/
structure Response where
  actions : List Action
  ending : Ending

namespace Response

/-- End without an action. -/
def exit (status : Nat) : Response := ⟨[], .exit status⟩

/-- Do something first. -/
def after (actions : List Action) (r : Response) : Response :=
  ⟨actions ++ r.actions, r.ending⟩

/-- Report an error and end. -/
def error (message : String) : Response :=
  ⟨[.complain ("Error: " ++ message ++ "\n")], .exit 1⟩

end Response

/-! ### Looking up -/

/-- Tell where something is declared.  Lines and characters are counted from one. -/
def reportPlace (description : String) : Option Place → Response
  | none => ⟨[.complain ("No declaration found for " ++ description ++ "\n")], .exit 1⟩
  | some place =>
    ⟨[.print (description ++ ": line " ++ toString (place.line + 1) ++ ", column "
      ++ toString (place.character + 1) ++ "\n")], .exit 0⟩

/-- The place where a node of a graph is declared. -/
def nodePlace? (g : Graph) (areas name : String) : Option Place :=
  (g.vertex? name).bind fun v => Place.ofAnchor? v.name areas.toList

/-- Whether a connection leads only the other way. -/
def isWrongWay (c : Connection) (start : String) : Bool :=
  c.unidirectional && c.start != start

/-- The place where the path from `start` to `finish` is declared, or with `inverse` the way back where
there is one. -/
def connectionPlace? (g : Graph) (areas start finish : String) (inverse : Bool) : Option Place :=
  (g.findConnection? start finish).bind fun c =>
    if isWrongWay c start then none
    else Place.ofConnection? c areas.toList (inverse != (c.start != start))

/-- What is logged about a connection that leads only the other way. -/
def wrongWayActions (g : Graph) (start finish : String) : List Action :=
  match g.findConnection? start finish with
  | none => []
  | some c =>
    if isWrongWay c start then
      [.log (commandRecord (start ++ " -> " ++ finish ++ " is only traversable as " ++ c.start
        ++ " -> " ++ c.finish))]
    else []

/-- Tell where a connection is declared. -/
def locateConnection (g : Graph) (areas start finish : String) (inverse : Bool) : Response :=
  (reportPlace (start ++ " -> " ++ finish) (connectionPlace? g areas start finish inverse)).after
    (wrongWayActions g start finish)

/-! ### Writing and drawing -/

/-- That something has been written. -/
def exportedText (path : String) : String := "Exported to " ++ path ++ "\n"

/-- Write a graph as a document. -/
def writeGraph (store : Files.Store) (g : Graph) (path : String) : Response :=
  let writing := Action.log (commandRecord ("Writing graph to " ++ path))
  match store.writable path with
  | .error fault => ⟨[writing], .escaped (.file fault)⟩
  | .ok place =>
    ⟨[writing, .write path place g.toJson.render, .print (exportedText path)], .exit 0⟩

/-- How the arguments ask for a figure. -/
def figureOptions (a : Options.Arguments) : Figure.Options where
  title := if a.title.isEmpty then "Logic Map: " ++ a.areas else a.title
  highlight := a.highlight
  showConnections := !a.noConnections
  showLeaves := !a.noLeaves
  showLabels := a.showLabels

/-- Draw a graph, for a file or for the user. -/
def drawGraph (g : Graph) (a : Options.Arguments) : Response :=
  match Figure.draw g (figureOptions a) with
  | .error fault => ⟨[], .escaped (.figure fault)⟩
  | .ok figure =>
    if a.exportFile.isEmpty then
      ⟨[.log (commandRecord "Opening in browser"), .display figure], .exit 0⟩
    else
      ⟨[.log (commandRecord ("Exporting to " ++ a.exportFile)), .exportTo a.exportFile figure,
        .print (exportedText a.exportFile)], .exit 0⟩

/-! ### The command -/

/-- Do the first thing that is asked for with a graph. -/
def useGraph (store : Files.Store) (g : Graph) (areas : String) (a : Options.Arguments) : Response :=
  if !a.locate.isEmpty then reportPlace a.locate (nodePlace? g areas a.locate)
  else
    match a.locateConnection with
    | some (start, finish) => locateConnection g areas start finish a.inverse
    | none => if !a.json.isEmpty then writeGraph store g a.json else drawGraph g a

/-- Build the graph of loaded texts, and go on with it. -/
def useSources (store : Files.Store) (sources : Sources) (a : Options.Arguments) : Response :=
  Response.after ((buildRecords sources.areas sources.locations).map Action.log) <|
    match Graph.build sources.areas sources.locations with
    | .ok g => useGraph store g sources.areas a
    | .error (.document fault) => .error fault.message
    | .error (.table fault) => ⟨[], .escaped (.table fault)⟩

/-- Load the texts, and go on with them. -/
def respond (store : Files.Store) (a : Options.Arguments) : Response :=
  match Sources.load store a.areas a.locations with
  | .error fault => .error fault.message
  | .ok sources =>
    (useSources store sources a).after
      [.log (loadedRecord sources.areas sources.locations a.areas a.locations)]

end AreaAtlas.Command

/-
What the program does for its arguments, in a file tree and a working directory.
-/
import Covenant.Command.Help
import Covenant.Settings.File

namespace Covenant.Command

open Covenant.Text

/-- How a command ends: with what it prints, or with a complaint. -/
inductive Report where
  | done (printed : String)
  | failed (complaint : String)
deriving DecidableEq, Repr

/-- How the program ends. -/
inductive Outcome where
  | finished (exitCode : Nat) (stdout stderr : String)
  | refused (error : UsageError)
  /-- An error that no command reports. -/
  | stopped (error : BuildError)
deriving DecidableEq, Repr

/-! ## Commands -/

def missingDirectory (directory : Path) : Report :=
  .failed s!"directory '{directory.text}' does not exist."

/-- Writes a settings file and makes the archives directory. -/
def runInit (directory : Path) : Job Report := do
  let path := directory.child settingsFileName
  let settings : Settings := {}
  let tree ← Job.tree
  if tree.hasEntry path then return .failed s!"workspace already exists at '{path.text}'."
  match tree.saveSettings settings path with
  | .error fault => return .failed fault.message
  | .ok saved =>
    Job.setTree saved
    Job.settle .os (saved.makeDirectories true (settings.archivesRoot directory))
    return .done (unlines [s!"Initialized ctogen workspace at '{path.text}'."])

/-- The settings with those that the arguments replace. -/
def Given.override (given : Given) (settings : Settings) : Settings :=
  { settings with
    archivesDirectory := given.archives?.getD settings.archivesDirectory
    outputDirectory := given.output?.getD settings.outputDirectory
    contractDirectory := given.contractOutput?.getD settings.contractDirectory
    contractName? := given.contractName?.or settings.contractName? }

/-- Loads the settings of a workspace and goes on with them. -/
def withSettings (directory : Path) (given : Given) (run : Settings → Job Report) : Job Report := do
  match (← Job.tree).findSettings directory with
  | .error (.fault fault) => return .failed fault.message
  | .error .undecodable => throw .undecodable
  | .ok settings => run (given.override settings)

/-- The names of declarations in a line. -/
def nameList (ds : List Classified) : String :=
  if ds.isEmpty then "-" else ", ".intercalate (ds.map (·.name))

def warningLines (diagnostics : List Diagnostic) : List String :=
  diagnostics.map fun d => "Warning: " ++ d.text

def checkLines (checked : Checked) : List String :=
  let c := checked.classification
  [s!"Loaded {checked.loaded.documents.length} document(s) from " ++
     s!"{checked.loaded.archives.length} archive(s).",
   "  Template models: " ++ nameList c.templateModels,
   "  Requests:        " ++ nameList c.requests,
   "  Responses:       " ++ nameList c.responses,
   s!"  Concepts:        {c.concepts.length}",
   s!"  Participants:    {c.participants.length}"]
    ++ warningLines checked.diagnostics
    ++ ["No errors found."]

/-- Checks a workspace and says what was found. -/
def runCheck (directory : Path) (settings : Settings) : Job Report := do
  return .done (unlines (checkLines (← settings.check directory)))

/-- A path as seen from the directory of the workspace, where that is above it. -/
def shownFrom (directory path : Path) : String :=
  ((path.relativeTo? directory).getD path).text

def generateLines (directory : Path) (built : Built) : List String :=
  warningLines built.diagnostics
    ++ built.written.map (fun path => "  " ++ shownFrom directory path)
    ++ [s!"Generated {built.written.length} file(s)."]

/-- Builds a workspace and says what was written. -/
def runGenerate (directory : Path) (target : BuildTarget) (settings : Settings) : Job Report := do
  return .done (unlines (generateLines directory (← settings.build directory target)))

/-- Runs a command in a directory. -/
def runVerb (verb : Verb) (given : Given) (directory : Path) : Job Report := do
  if !(← Job.tree).hasEntry directory then return missingDirectory directory
  match verb with
  | .init => runInit directory
  | .check => withSettings directory given (runCheck directory)
  | .generate => withSettings directory given (runGenerate directory given.target)

/-! ## The program -/

/-- The log of a run, as far as it is written. -/
def writtenLog (isVerbose : Bool) (log : List LogRecord) : String :=
  let level := if isVerbose then LogLevel.debug else LogLevel.warning
  let channel := LogChannel.configure {} level defaultLogFormat
  (log.foldl LogChannel.write channel).written

/-- The outcome of a command that has written a log. -/
def Outcome.ofReport (log : String) : Report → Outcome
  | .done printed => .finished 0 printed log
  | .failed complaint => .finished 1 "" (log ++ unlines ["Error: " ++ complaint])

/-- The outcome of a job; a fault of a stage is reported. -/
def Outcome.ofJob (log : String) : Except BuildError Report → Outcome
  | .ok report => .ofReport log report
  | .error (.fault fault) => .ofReport log (.failed fault.message)
  | .error e => .stopped e

/-- The directory that the arguments name, seen from the working directory. -/
def directoryOf (workingDirectory : Place) (given : Given) : Path :=
  .ofPlace (Path.resolveFrom workingDirectory (.ofText (given.directory?.getD ".")))

/-- Does what is asked; the outcome and the tree it leaves. -/
def Request.perform (workingDirectory : Place) (tree : FileTree) : Request → Outcome × FileTree
  | .help verb? => (.finished 0 (helpText verb?) "", tree)
  | .run isVerbose verb given =>
    let (outcome, left) := (runVerb verb given (directoryOf workingDirectory given)).start tree
    (.ofJob (writtenLog isVerbose left.log) outcome, left.tree)

/-- Runs the program. -/
def run (workingDirectory : Place) (tree : FileTree) (arguments : List String) :
    Outcome × FileTree :=
  match Request.ofArguments arguments with
  | .error e => (.refused e, tree)
  | .ok request => request.perform workingDirectory tree

end Covenant.Command

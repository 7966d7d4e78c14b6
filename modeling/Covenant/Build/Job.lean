/-
The steps of a run. A step works on a file tree and writes log records; what it
has changed and written stays when it fails.
-/
import Covenant.Build.Fault
import Covenant.Log
import Covenant.Step

namespace Covenant

/-- What the steps of a run share: the file tree and the log records, latest last. -/
structure Session where
  tree : FileTree
  log : List LogRecord := []

/-- A step of a run. -/
abbrev Job := Step BuildError Session

namespace Job

variable {α : Type}

/-- The outcome of a step and what it leaves. -/
def start (job : Job α) (tree : FileTree) : Except BuildError α × Session :=
  job.run { tree }

def note (level : Int) (logger message : String) : Job Unit :=
  modify fun s => { s with log := s.log ++ [⟨level, rootLogger ++ "." ++ logger, message⟩] }

def debug (logger message : String) : Job Unit :=
  note LogLevel.debug logger message

def info (logger message : String) : Job Unit :=
  note LogLevel.info logger message

def warning (logger message : String) : Job Unit :=
  note LogLevel.warning logger message

/-- The tree as it is. -/
def tree : Job FileTree :=
  (·.tree) <$> get

/-- Leaves the tree changed. -/
def setTree (tree : FileTree) : Job Unit :=
  modify fun s => { s with tree }

/-- Takes the outcome of a pure step. -/
def ofExcept {ε : Type} (toError : ε → BuildError) : Except ε α → Job α
  | .ok a => pure a
  | .error e => throw (toError e)

/-- Leaves a tree and fails if there was an error on the way to it. -/
def settle (toError : OsError → BuildError) (outcome : FileTree × Option OsError) : Job Unit := do
  setTree outcome.1
  match outcome.2 with
  | some e => throw (toError e)
  | none => pure ()

end Job

end Covenant

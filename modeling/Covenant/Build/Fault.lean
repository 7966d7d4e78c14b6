/-
What stops a run: a fault of one of its stages, or an error that no stage owns.
-/
import Covenant.Archive.Ordering
import Covenant.Crate.Scaffold
import Covenant.FileTree.Content
import Covenant.Registry.Store
import Covenant.Registry.Validation

namespace Covenant

open Covenant.Number

/-- A fault of a stage. -/
inductive BuildFault where
  | unreadable (path : Path) (error : OsError)
  | lexical (document : String) (error : LexicalError)
  | grammar (document : String) (error : GrammarError)
  | importCycle (documents : List String)
  | rejected (document : String) (reason : Rejection)
  | invalid (errors : List ValidationError)
  /-- Replacing the output directory would delete the directory that is to be kept. -/
  | wouldDelete (output kept : Path)
  | cannotPrepare (output : Path) (error : OsError)
  | cannotWrite (path : Path) (error : OsError)
deriving DecidableEq, Repr

namespace BuildFault

def stage : BuildFault → Stage
  | unreadable .. | lexical .. | grammar .. | importCycle .. => .load
  | rejected .. => .register
  | invalid .. => .validate
  | wouldDelete .. | cannotPrepare .. | cannotWrite .. => .emit

/-- The document or path that the fault is about. -/
def artifact? : BuildFault → Option String
  | unreadable path _ => some path.text
  | lexical document _ => some document
  | grammar document _ => some document
  | importCycle _ => none
  | rejected document _ => some document
  | invalid _ => none
  | wouldDelete output _ => some output.text
  | cannotPrepare output _ => some output.text
  | cannotWrite path _ => some path.text

/-- What is wrong, without the stage and the artifact. -/
def detail : BuildFault → String
  | unreadable _ e => "cannot read document: " ++ e.message
  | lexical _ e => e.message
  | grammar _ e => e.message
  | importCycle documents => "import cycle: " ++ " -> ".intercalate documents
  | rejected _ reason => reason.message
  | invalid errors => "; ".intercalate (errors.map (·.message))
  | wouldDelete _ kept => s!"refusing to replace a directory that contains '{kept.text}'"
  | cannotPrepare _ e => "cannot prepare output directory: " ++ e.message
  | cannotWrite _ e => "cannot write file: " ++ e.message

def message (fault : BuildFault) : String :=
  let artifact := match fault.artifact? with
    | some artifact => artifact ++ ": "
    | none => ""
  s!"[{fault.stage.text}] {artifact}{fault.detail}"

end BuildFault

/-- Why a run stops. -/
inductive BuildError where
  | fault (fault : BuildFault)
  | numeral (error : NumeralError)
  | unordered (cycle : List String)
  | noSource (key : String)
  | unregistered (error : Crate.UnregisteredError)
  | undecodable
  | os (error : OsError)
deriving DecidableEq, Repr

def BuildError.message : BuildError → String
  | fault f => f.message
  | numeral e => e.message
  | unordered cycle => Graph.cycleMessage cycle
  | noSource key => Text.quoted key
  | unregistered e => e.message
  | undecodable => "file does not hold text in UTF-8"
  | os e => e.message

/-- An ordering error as the reason why a run stops. -/
def OrderingError.toBuildError : OrderingError → BuildError
  | lexical document e => .fault (.lexical document e)
  | grammar document e => .fault (.grammar document e)
  | numeral e => .numeral e
  | importCycle documents => .fault (.importCycle documents)
  | unordered cycle => .unordered cycle

/-- A registration error as the reason why a run stops. -/
def RegistrationError.toBuildError : RegistrationError → BuildError
  | rejected document reason => .fault (.rejected document reason)
  | numeral e => .numeral e

/-- An error of the registry's store as the reason why a run stops. -/
def StoreError.toBuildError : StoreError → BuildError
  | registration e => e.toBuildError
  | noSource key => .noSource key

end Covenant

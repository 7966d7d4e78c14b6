/-
Findings of a run that do not stop it.
-/
namespace Covenant

/-- The stages of a run. -/
inductive Stage where
  | load | register | validate | classify | logic | synthesize | emit
deriving DecidableEq, Repr

def Stage.text : Stage → String
  | load => "load"
  | register => "register"
  | validate => "validate"
  | classify => "classify"
  | logic => "logic"
  | synthesize => "synthesize"
  | emit => "emit"

/-- A finding: the stage that made it, what it is about and what it says. -/
structure Diagnostic where
  stage : Stage
  subject : String
  message : String
deriving DecidableEq, Repr

def Diagnostic.text (d : Diagnostic) : String :=
  d.subject ++ ": " ++ d.message

end Covenant

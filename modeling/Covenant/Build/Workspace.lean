/-
The runs on a workspace: checking it loads and classifies its models, building it
writes the crates that are asked for as well.
-/
import Covenant.Build.Emit
import Covenant.Build.Load
import Covenant.Settings.Basic

namespace Covenant

/-- The crates that a build writes. -/
inductive BuildTarget where
  | models | contract | all
deriving DecidableEq, Repr

namespace BuildTarget

def text : BuildTarget → String
  | models => "models"
  | contract => "contract"
  | all => "all"

def ofText? : String → Option BuildTarget
  | "models" => some models
  | "contract" => some contract
  | "all" => some all
  | _ => none

def includesModels (target : BuildTarget) : Bool :=
  target ≠ contract

def includesContract (target : BuildTarget) : Bool :=
  target ≠ models

end BuildTarget

/-- What a check found. -/
structure Checked where
  loaded : Loaded
  classification : Classification
  diagnostics : List Diagnostic

/-- What a build did: the paths written, in order, and what it was made of. -/
structure Built where
  written : List Path
  diagnostics : List Diagnostic
  contract? : Option Contract
  scaffold? : Option Crate.Scaffold

/-- The directory that a setting names in the workspace at `root`. -/
def workspaceDirectory (root : Path) (setting : String) : Path :=
  root.join (.ofText setting)

namespace Settings

/-- The directory that holds the archives. -/
def archivesRoot (settings : Settings) (root : Path) : Path :=
  workspaceDirectory root settings.archivesDirectory

/-- Classifies the registered declarations. -/
def classifyRegistry (settings : Settings) (registry : Registry) : Job Classification := do
  let classification := registry.classify settings.classification
  Job.info "compiler.classifier" classification.summary
  return classification

/-- The finding that nothing was classified. -/
def emptyDiagnostics (c : Classification) : List Diagnostic :=
  if c.all.isEmpty then [⟨.classify, "archives", "no classifiable declarations found"⟩] else []

/-- What a check reports about what was loaded and classified. -/
def checkedOf (loaded : Loaded) (classification : Classification) : Checked where
  loaded
  classification
  diagnostics := loaded.diagnostics ++ classification.diagnostics
    ++ emptyDiagnostics classification

/-- Loads and classifies the models of a workspace. -/
def check (settings : Settings) (root : Path) : Job Checked := do
  let loaded ← load (settings.archivesRoot root) settings.modelExtension settings.ordering
  let classification ← settings.classifyRegistry loaded.registry
  return checkedOf loaded classification

/-- Plans the scaffold of the data crate; that there is none is a finding. -/
def planScaffold (settings : Settings) (checked : Checked) :
    Job (Option Crate.Scaffold × List Diagnostic) := do
  let planned ← Job.ofExcept .unregistered
    (Crate.scaffold? checked.loaded.registry checked.classification settings.packageName)
  match planned with
  | some scaffold => return (some scaffold, [])
  | none =>
    Job.warning "codegen.logic"
      s!"Logic scaffold skipped: {Crate.missingMessage checked.classification}"
    return (none, [Crate.missingDiagnostic checked.classification])

/-- Writes the data crate. -/
def buildModels (settings : Settings) (root : Path) (checked : Checked) : Job Built := do
  let (scaffold?, diagnostics) ← settings.planScaffold checked
  let written ← emit (workspaceDirectory root settings.outputDirectory)
    (some (settings.archivesRoot root))
    (Crate.dataFiles checked.loaded.registry scaffold? settings.packageName)
  return { written, diagnostics, contract? := none, scaffold? }

/-- The finding that a contract has no template model. -/
def minimalDiagnostics (contract : Contract) : List Diagnostic :=
  if contract.templateModel?.isNone then
    [⟨.synthesize, contract.name, "no template model found; generated a minimal contract"⟩]
  else []

/-- Writes the contract crate. -/
def buildContract (settings : Settings) (root : Path) (checked : Checked) : Job Built := do
  let contract := Contract.synthesize checked.classification settings.contractName?
  Job.info "codegen.contract" contract.summary
  let written ← emit (workspaceDirectory root settings.contractDirectory)
    (some (settings.archivesRoot root)) (Crate.contractFiles contract)
  return {
    written, diagnostics := minimalDiagnostics contract, contract? := some contract
    scaffold? := none }

/-- The part of a build that is not asked for. -/
def nothingBuilt : Built := ⟨[], [], none, none⟩

/-- The data crate, if it is asked for. -/
def modelsPart (settings : Settings) (root : Path) (target : BuildTarget) (checked : Checked) :
    Job Built :=
  if target.includesModels then settings.buildModels root checked else pure nothingBuilt

/-- The contract crate, if it is asked for. -/
def contractPart (settings : Settings) (root : Path) (target : BuildTarget) (checked : Checked) :
    Job Built :=
  if target.includesContract then settings.buildContract root checked else pure nothingBuilt

/-- What a build reports about its parts. -/
def builtOf (checked : Checked) (models contract : Built) : Built where
  written := models.written ++ contract.written
  diagnostics := checked.diagnostics ++ models.diagnostics ++ contract.diagnostics
  contract? := contract.contract?
  scaffold? := models.scaffold?

/-- Checks a workspace and writes the crates asked for. -/
def build (settings : Settings) (root : Path) (target : BuildTarget) : Job Built := do
  let checked ← settings.check root
  let models ← settings.modelsPart root target checked
  let contract ← settings.contractPart root target checked
  let built := builtOf checked models contract
  Job.info "compiler.build" s!"Build finished: {built.written.length} file(s) written"
  return built

end Settings

end Covenant

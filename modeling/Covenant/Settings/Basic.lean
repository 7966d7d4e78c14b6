/-
The settings of a workspace. Each has a name with hyphens, and those that differ
from it a second name with underscores, which counts only where the first is not
given.
-/
import Covenant.Archive.Ordering
import Covenant.Classification

namespace Covenant

/-- The settings of a workspace. Directories are below that of the workspace unless they are
absolute. -/
structure Settings where
  archivesDirectory : String := "archives"
  outputDirectory : String := "output"
  contractDirectory : String := "contract"
  modelExtension : String := ".cto"
  packageName : String := "concerto-models"
  contractName? : Option String := none
  ordering : DocumentOrder := .heuristic
  classification : Strategy := .substring
deriving DecidableEq, Repr

def DocumentOrder.text : DocumentOrder → String
  | heuristic => "heuristic"
  | topological => "topological"

def DocumentOrder.ofText? : String → Option DocumentOrder
  | "heuristic" => some heuristic
  | "topological" => some topological
  | _ => none

def Strategy.text : Strategy → String
  | substring => "substring"
  | exact => "exact"

def Strategy.ofText? : String → Option Strategy
  | "substring" => some substring
  | "exact" => some exact
  | _ => none

/-! ## Values -/

/-- A value given to a setting. -/
inductive SettingValue where
  | null
  | text (value : String)
  /-- Anything that is neither a text nor missing. -/
  | other
deriving DecidableEq, Repr

/-- The name that a value is given under; one that is no text is shown as one. -/
inductive SettingKey where
  | text (name : String)
  | other (shown : String)
deriving DecidableEq, Repr

/-- What is wrong with a setting. -/
inductive ProblemKind where
  | notString | notAllowed | unknown | invalidKey
deriving DecidableEq, Repr

structure Problem where
  key : String
  kind : ProblemKind
deriving DecidableEq, Repr

/-- Values under their names, in order; of values with the same name the last counts. -/
abbrev SettingEntries := List (SettingKey × SettingValue)

def SettingEntries.value? (entries : SettingEntries) (name : String) : Option SettingValue :=
  entries.reverse.lookup (.text name)

/-! ## Reading -/

namespace Settings

/-- The hyphenated names of the settings. -/
def names : List String :=
  ["archives-directory", "output-directory", "contract-directory", "model-extension",
   "package-name", "contract-name", "ordering", "classification"]

/-- The second name of a setting. -/
def secondName (name : String) : String :=
  String.ofList (name.toList.map fun c => if c = '-' then '_' else c)

/-- The value of a setting under its name or, where that is missing, under its second one. -/
def given? (entries : SettingEntries) (name : String) : Option SettingValue :=
  (entries.value? name).or (entries.value? (secondName name))

/-- A setting that is a text. -/
def textSetting (entries : SettingEntries) (name default : String) : Except Problem String :=
  match given? entries name with
  | none => .ok default
  | some (.text value) => .ok value
  | some _ => .error ⟨name, .notString⟩

/-- A setting that is a text or missing. -/
def optionalSetting (entries : SettingEntries) (name : String) : Except Problem (Option String) :=
  match given? entries name with
  | none | some .null => .ok none
  | some (.text value) => .ok (some value)
  | some .other => .error ⟨name, .notString⟩

/-- A setting with a fixed choice of values. -/
def choiceSetting {α : Type} (entries : SettingEntries) (name : String)
    (ofText? : String → Option α) (default : α) : Except Problem α :=
  match given? entries name with
  | none => .ok default
  | some (.text value) =>
    match ofText? value with
    | some choice => .ok choice
    | none => .error ⟨name, .notAllowed⟩
  | some _ => .error ⟨name, .notAllowed⟩

/-- What is wrong with the names themselves. -/
def keyProblem? (entries : SettingEntries) : SettingKey → Option Problem
  | .other shown => some ⟨shown, .invalidKey⟩
  | .text name =>
    if names.contains name then none
    else if names.any fun first => secondName first = name && (entries.value? first).isNone
      then none
    else some ⟨name, .unknown⟩

/-- The problem of an outcome. -/
def problem? {α : Type} : Except Problem α → Option Problem
  | .error p => some p
  | .ok _ => none

def distinctKeys (seen : List SettingKey) : SettingEntries → List SettingKey
  | [] => []
  | (key, _) :: rest =>
    if key ∈ seen then distinctKeys seen rest else key :: distinctKeys (key :: seen) rest

/-- Reads settings; the problems are those of all entries. -/
def ofEntries (entries : SettingEntries) : Except (List Problem) Settings :=
  let defaults : Settings := {}
  let archives := textSetting entries "archives-directory" defaults.archivesDirectory
  let output := textSetting entries "output-directory" defaults.outputDirectory
  let contract := textSetting entries "contract-directory" defaults.contractDirectory
  let extension := textSetting entries "model-extension" defaults.modelExtension
  let package := textSetting entries "package-name" defaults.packageName
  let contractName := optionalSetting entries "contract-name"
  let ordering := choiceSetting entries "ordering" DocumentOrder.ofText? defaults.ordering
  let classification :=
    choiceSetting entries "classification" Strategy.ofText? defaults.classification
  match archives, output, contract, extension, package, contractName, ordering, classification,
      (distinctKeys [] entries).filterMap (keyProblem? entries) with
  | .ok archivesDirectory, .ok outputDirectory, .ok contractDirectory, .ok modelExtension,
      .ok packageName, .ok contractName?, .ok ordering, .ok classification, [] =>
    .ok { archivesDirectory, outputDirectory, contractDirectory, modelExtension, packageName,
          contractName?, ordering, classification }
  | _, _, _, _, _, _, _, _, keyProblems =>
    .error ([problem? archives, problem? output, problem? contract, problem? extension,
      problem? package, problem? contractName, problem? ordering,
      problem? classification].filterMap id ++ keyProblems)

/-- The settings under their names, in order, without those that are not set. -/
def toEntries (s : Settings) : List (String × String) :=
  [("archives-directory", s.archivesDirectory), ("output-directory", s.outputDirectory),
   ("contract-directory", s.contractDirectory), ("model-extension", s.modelExtension),
   ("package-name", s.packageName)]
    ++ (s.contractName?.map fun name => ("contract-name", name)).toList
    ++ [("ordering", s.ordering.text), ("classification", s.classification.text)]

end Settings

end Covenant

/-
The file that holds the settings of a workspace. A workspace without one has the
default settings, and so has one whose file is empty.
-/
import Covenant.FileTree.Content
import Covenant.Settings.Basic
import Covenant.Yaml.Printer

namespace Covenant

/-- The name of the file that holds the settings of a workspace. -/
def settingsFileName : String := ".ctogen.yaml"

/-- What is wrong with a settings file. -/
inductive SettingsFault where
  | notFound (path : Path)
  | cannotRead (error : OsError)
  | malformed (path : Path)
  | notMapping (path : Path)
  | invalid (path : Path) (problems : List Problem)
  | cannotWrite (path : Path) (error : OsError)
deriving DecidableEq, Repr

def SettingsFault.message : SettingsFault → String
  | notFound path => "Workspace config file not found: " ++ path.text
  | cannotRead e => "Cannot read workspace config file: " ++ e.message
  | malformed path => "Invalid YAML in " ++ path.text
  | notMapping path => path.text ++ ": workspace config must be a YAML mapping"
  | invalid path _ => s!"Invalid workspace config '{path.text}'"
  | cannotWrite path e => s!"Cannot write workspace config file '{path.text}': {e.message}"

/-- Why settings cannot be loaded: the file is at fault, or it does not hold text. -/
inductive SettingsError where
  | fault (fault : SettingsFault)
  | undecodable
deriving DecidableEq, Repr

/-! ## Entries -/

/-- The value that a node gives to a setting. -/
def settingValue : Yaml.Node → SettingValue
  | .scalar s =>
    match s.kind with
    | .text => .text s.text
    | .null => .null
    | _ => .other
  | _ => .other

/-- How a key that is no text is shown. -/
def shownKey (s : Yaml.Scalar) : String :=
  match s.kind with
  | .null => "None"
  | .flag => if Yaml.trueWords.contains s.text then "1" else "0"
  | .integer => toString (Yaml.integerValue s.text.toList)
  | _ => s.text

/-- The setting that a key names. The mark of a default value is a text where it is a key. -/
def settingKey (s : Yaml.Scalar) : SettingKey :=
  match s.kind with
  | .text | .fallback => .text s.text
  | _ => .other (shownKey s)

/-- The entries of a document, if it is a mapping or empty. -/
def settingEntries? : Yaml.Node → Option SettingEntries
  | .mapping entries => some (entries.map fun (key, value) => (settingKey key, settingValue value))
  | .scalar s => if s.kind = .null then some [] else none
  | .sequence _ => none

/-! ## Files -/

/-- Reads the text of the settings file at a path. -/
def Settings.read (path : Path) (text : String) : Except SettingsFault Settings :=
  match Yaml.read? text with
  | none => .error (.malformed path)
  | some node =>
    match settingEntries? node with
    | none => .error (.notMapping path)
    | some entries => (Settings.ofEntries entries).mapError (.invalid path)

/-- The text of a settings file. -/
def Settings.render (settings : Settings) : String :=
  Yaml.writeMapping settings.toEntries

namespace FileTree

/-- Loads the settings file at a path. -/
def loadSettings (t : FileTree) (path : Path) : Except SettingsError Settings :=
  match t.readText path with
  | .error .undecodable => .error .undecodable
  | .error (.os e) => .error (.fault (if e.fault = .noEntry then .notFound path else .cannotRead e))
  | .ok text => (Settings.read path text).mapError .fault

/-- Loads the settings of the workspace in a directory. -/
def findSettings (t : FileTree) (root : Path) : Except SettingsError Settings :=
  let path := root.child settingsFileName
  if t.hasEntry path then t.loadSettings path else .ok {}

/-- Writes settings to the file at a path. -/
def saveSettings (t : FileTree) (settings : Settings) (path : Path) :
    Except SettingsFault FileTree :=
  (t.writeText path settings.render).mapError (.cannotWrite path)

end FileTree

end Covenant

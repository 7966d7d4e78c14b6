/-
The help texts of the program and its commands.
-/
import Covenant.Command.Arguments
import Covenant.Text.Lines

namespace Covenant.Command

open Covenant.Text

def programHelp : String :=
  unlines
    ["usage: ctogen [-h] [-v] COMMAND ...",
     "",
     "ctogen: compile Concerto models into Rust data types and ink! contracts",
     "",
     "positional arguments:",
     "  COMMAND",
     "    init         Initialize a new ctogen workspace",
     "    check        Load, validate, and classify the models",
     "    generate     Generate the Rust projects",
     "",
     "options:",
     "  -h, --help     show this help message and exit",
     "  -v, --verbose  Log pipeline progress to stderr"]

def initHelp : String :=
  unlines
    ["usage: ctogen init [-h] [directory]",
     "",
     "Write a default .ctogen.yaml and create the archives directory.",
     "",
     "positional arguments:",
     "  directory   Directory to initialize the workspace in (default: current",
     "              directory)",
     "",
     "options:",
     "  -h, --help  show this help message and exit"]

def checkHelp : String :=
  unlines
    ["usage: ctogen check [-h] [--archives ARCHIVES] [directory]",
     "",
     "Load every archive, validate the models, and report how declarations were",
     "classified.",
     "",
     "positional arguments:",
     "  directory            Directory containing the ctogen workspace (default:",
     "                       current directory)",
     "",
     "options:",
     "  -h, --help           show this help message and exit",
     "  --archives ARCHIVES  Archives directory (overrides the workspace config)"]

def generateHelp : String :=
  unlines
    ["usage: ctogen generate [-h] [--target \x7bmodels,contract,all\x7d]",
     "                       [--archives ARCHIVES] [--output OUTPUT]",
     "                       [--contract-output CONTRACT_OUTPUT]",
     "                       [--contract-name CONTRACT_NAME]",
     "                       [directory]",
     "",
     "Generate the serde data crate, the ink! contract crate, or both.",
     "",
     "positional arguments:",
     "  directory             Directory containing the ctogen workspace (default:",
     "                        current directory)",
     "",
     "options:",
     "  -h, --help            show this help message and exit",
     "  --target \x7bmodels,contract,all\x7d",
     "                        Which project to generate (default: all)",
     "  --archives ARCHIVES   Archives directory (overrides the workspace config)",
     "  --output OUTPUT       Data crate output directory (overrides the workspace",
     "                        config)",
     "  --contract-output CONTRACT_OUTPUT",
     "                        Contract crate output directory (overrides the",
     "                        workspace config)",
     "  --contract-name CONTRACT_NAME",
     "                        Contract name (overrides the derived name)"]

/-- The help of a command or of the program. -/
def helpText : Option Verb → String
  | none => programHelp
  | some .init => initHelp
  | some .check => checkHelp
  | some .generate => generateHelp

end Covenant.Command

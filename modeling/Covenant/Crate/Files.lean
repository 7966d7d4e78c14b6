/-
The files of the two generated crates, in the order in which they are written,
with their paths below the crate's directory.
-/
import Covenant.Contract.Render
import Covenant.Crate.Scaffold

namespace Covenant.Crate

open Covenant.Text

/-- A file of a crate: its path below the crate's directory and its text. -/
structure SourceFile where
  path : List String
  text : String
deriving DecidableEq, Repr

/-! ## The data crate -/

def manifestText (package : String) : String :=
  unlines
    ["[package]",
     s!"name = \"{package}\"",
     "version = \"0.1.0\"",
     "edition = \"2021\"",
     "description = \"Generated Rust models from Concerto schema files\"",
     "license = \"Apache-2.0\"",
     "",
     "[dependencies]",
     "serde = \x7b version = \"1.0\", features = [\"derive\"] \x7d",
     "chrono = \x7b version = \"0.4\", features = [\"serde\"] \x7d",
     "serde_json = \"1.0\"",
     "tokio = \x7b version = \"1.0\", features = [\"macros\", \"rt-multi-thread\"] \x7d"]

/-- Modules of the modelling system itself are not exported again. -/
def isSystemModule (module : String) : Bool :=
  module.startsWith "concerto"

def libraryText (modules : List String) (hasLogic : Bool) : String :=
  unlines
    (["//! Generated Concerto models.",
      "//!",
      "//! Rust structs and enums generated from Concerto model files by ctogen.",
      "//! All types implement Serialize and Deserialize for JSON compatibility.",
      ""]
      ++ modules.map (fun module => s!"pub mod {module};")
      ++ (if hasLogic then ["pub mod logic;"] else [])
      ++ ["pub mod utils;", ""]
      ++ (modules.filter fun module => !isSystemModule module).map
        (fun module => s!"pub use {module}::*;")
      ++ ["pub use utils::*;"]
      ++ match modules.filter isSystemModule with
        | [] => []
        | systemModules =>
          ["",
           "// Concerto system modules are not re-exported: " ++ ", ".intercalate systemModules])

def mainText (crate : String) (keys : List String) : String :=
  unlines
    (["//! Lists the namespaces compiled into this crate.",
      "",
      "#![allow(unused_imports)]",
      "",
      s!"use {crate}::*;",
      "",
      "fn main() \x7b",
      "    println!(\"Concerto models\");",
      "    println!(\"Available namespaces:\");"]
      ++ keys.map (fun key => s!"    println!(\"  - {key}\");")
      ++ ["\x7d"])

def utilitiesText : String :=
  unlines
    ["//! Helpers shared by the generated models.",
     "",
     "use chrono::\x7bDateTime, SecondsFormat, Utc\x7d;",
     "",
     "/// Formats a timestamp the way Concerto serializes DateTime values.",
     "pub fn format_datetime(value: &DateTime<Utc>) -> String \x7b",
     "    value.to_rfc3339_opts(SecondsFormat::Millis, true)",
     "\x7d",
     "",
     "/// Parses an RFC 3339 timestamp into UTC.",
     "pub fn parse_datetime(value: &str) -> Result<DateTime<Utc>, chrono::ParseError> \x7b",
     "    DateTime::parse_from_rfc3339(value).map(|dt| dt.with_timezone(&Utc))",
     "\x7d",
     "",
     "/// Serializes a value to pretty-printed JSON.",
     "pub fn to_json<T: serde::Serialize>(value: &T) -> serde_json::Result<String> \x7b",
     "    serde_json::to_string_pretty(value)",
     "\x7d",
     "",
     "/// Deserializes a value from JSON.",
     "pub fn from_json<'a, T: serde::Deserialize<'a>>(json: &'a str) -> serde_json::Result<T> \x7b",
     "    serde_json::from_str(json)",
     "\x7d"]

def readmeText (package : String) (keys : List String) : String :=
  unlines
    ([s!"# {package}",
      "",
      "Rust data types generated from Concerto model files by ctogen.",
      "",
      "## Namespaces",
      ""]
      ++ keys.map (fun key => s!"- `{key}`")
      ++ ["",
          "## Building",
          "",
          "```bash",
          "cargo build",
          "cargo test",
          "```",
          "",
          "## Project Structure",
          "",
          "- `src/lib.rs`: exports all namespace modules",
          "- `src/<namespace>.rs`: one module per Concerto namespace",
          "- `src/logic.rs`: business logic stub (regenerated on every run)",
          "- `src/utils.rs`: DateTime and JSON helpers",
          "- `tests/logic.rs`: smoke test for the business logic (regenerated on every run)",
          "",
          "Types keep the model's property names in JSON through `serde(rename)`,",
          "and DateTime fields use `chrono::DateTime<Utc>`."])

/-- A file in the source directory. -/
def inSource (name text : String) : SourceFile :=
  ⟨["src", name], text⟩

/-- The files of the scaffold. -/
def scaffoldFiles : Option Scaffold → List SourceFile
  | some s => [inSource "logic.rs" s.logicText, ⟨["tests", "logic.rs"], s.testText⟩]
  | none => []

/-- The module that a module file holds. -/
def moduleOfFile (file : String) : String :=
  String.ofList (file.toList.take (file.length - 3))

/-- The files of the data crate. A later file of the same path replaces an earlier one. -/
def dataFiles (r : Registry) (scaffold? : Option Scaffold) (package : String) : List SourceFile :=
  let modules := moduleFiles r
  [⟨["Cargo.toml"], manifestText package⟩]
    ++ modules.map (fun file => inSource file.1 file.2)
    ++ [inSource "lib.rs"
          (libraryText (modules.map fun file => moduleOfFile file.1) scaffold?.isSome),
        inSource "main.rs" (mainText (Target.crateName package) r.keys),
        inSource "utils.rs" utilitiesText]
    ++ scaffoldFiles scaffold?
    ++ [⟨["README.md"], readmeText package r.keys⟩]

/-! ## The contract crate -/

/-- The files of the contract crate. -/
def contractFiles (contract : Contract) : List SourceFile :=
  [⟨["Cargo.toml"], contract.manifestText⟩,
   inSource "lib.rs" contract.libraryText,
   ⟨["README.md"], contract.readmeText⟩]

end Covenant.Crate

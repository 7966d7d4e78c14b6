/-
The source files of a contract crate. The library file is put together from the
error type, the data structures, the storage, the events, the implementation and
its tests; the implementation is a list of methods with an empty line between
them.
-/
import Covenant.Contract.Basic
import Covenant.Text.Lines

namespace Covenant.Contract

open Covenant.Text

/-! ## Types -/

def errorLines (contract : Contract) : List String :=
  ["#[derive(Debug, PartialEq, Eq, scale::Encode, scale::Decode)]",
   "#[cfg_attr(feature = \"std\", derive(scale_info::TypeInfo))]",
   "pub enum ContractError \x7b"]
    ++ contract.errors.map (fun e => s!"    {e.text},")
    ++ ["\x7d", "", "pub type Result<T> = core::result::Result<T, ContractError>;"]

def structureLines (s : DataStructure) : List String :=
  let extra := if s.derivesDefault then ", Default" else ""
  [s!"#[derive(scale::Decode, scale::Encode, Clone, PartialEq, Eq, Debug{extra})]",
   "#[cfg_attr(feature = \"std\", derive(scale_info::TypeInfo, ink::storage::traits::StorageLayout))]",
   s!"pub struct {s.name} \x7b"]
    ++ s.fields.map (fun f => s!"    pub {f.name}: {f.type},")
    ++ ["\x7d"]

def storageLines (contract : Contract) : List String :=
  ["#[ink(storage)]", s!"pub struct {contract.name} \x7b"]
    ++ contract.storage.map (fun f => s!"    {f.name}: {f.type},")
    ++ ["\x7d"]

def eventLines (e : EventDef) : List String :=
  ["#[ink(event)]", s!"pub struct {e.name} \x7b"]
    ++ e.fields.flatMap (fun f =>
      (if f.isTopic then ["    #[ink(topic)]"] else []) ++ [s!"    pub {f.name}: {f.type},"])
    ++ ["\x7d"]

/-! ## Methods -/

/-- What a method is marked as. -/
inductive Marker where
  | constructor | message | helper
deriving DecidableEq, Repr

/-- A method of the implementation: its parameters as they are written, its result, and the
lines of its body. -/
structure Method where
  marker : Marker
  name : String
  params : List String
  returns : String
  body : List String
deriving DecidableEq, Repr

def Marker.lines : Marker → List String
  | constructor => ["#[ink(constructor)]"]
  | message => ["#[ink(message)]"]
  | helper => []

def Marker.visibility : Marker → String
  | constructor | message => "pub "
  | helper => ""

def Method.lines (m : Method) : List String :=
  let params := ", ".intercalate m.params
  m.marker.lines
    ++ [s!"{m.marker.visibility}fn {m.name}({params}) -> {m.returns} \x7b"]
    ++ indent m.body
    ++ ["\x7d"]

/-- A parameter or a field with its type. -/
def typed (name type : String) : String :=
  name ++ ": " ++ type

def newMethod (domain : List StorageField) : Method :=
  { marker := .constructor
    name := "new"
    params := domain.map fun f => typed f.name f.type
    returns := "Self"
    body :=
      ["let caller = Self::env().caller();",
       "Self::env().emit_event(ContractCreated \x7b owner: caller \x7d);",
       "",
       "Self \x7b",
       "    owner: caller,",
       "    paused: false,"]
        ++ domain.map (fun f => s!"    {f.name},")
        ++ ["\x7d"] }

def defaultMethod (domain : List StorageField) : Method :=
  let values := ", ".intercalate (domain.map fun f => Target.defaultValue f.type)
  { marker := .constructor
    name := "default"
    params := []
    returns := "Self"
    body := [s!"Self::new({values})"] }

def ownerMethod : Method :=
  { marker := .message, name := "get_owner", params := ["&self"], returns := "AccountId"
    body := ["self.owner"] }

def pausedMethod : Method :=
  { marker := .message, name := "is_paused", params := ["&self"], returns := "bool"
    body := ["self.paused"] }

/-- The method that sets whether the contract is paused and says so in an event. -/
def switchMethod (name value event : String) : Method :=
  { marker := .message
    name
    params := ["&mut self"]
    returns := "Result<()>"
    body :=
      ["let caller = self.env().caller();",
       "if caller != self.owner \x7b",
       "    return Err(ContractError::Unauthorized);",
       "\x7d",
       "",
       s!"self.paused = {value};",
       s!"self.env().emit_event({event} \x7b by: caller \x7d);",
       "Ok(())"] }

def processMethod (request response : Classified) : Method :=
  { marker := .message
    name := "process_request"
    params := ["&mut self", typed "request" request.name]
    returns := s!"Result<{response.name}>"
    body :=
      ["if self.paused \x7b",
       "    return Err(ContractError::ContractPaused);",
       "\x7d",
       "",
       "// Block height correlates the submitted and generated events.",
       "let request_id = self.env().block_number() as u64;",
       s!"self.env().emit_event({request.name}Submitted \x7b",
       "    submitter: self.env().caller(),",
       "    request_id,",
       "\x7d);",
       "",
       "let response = self.execute_contract_logic(request)?;",
       s!"self.env().emit_event({response.name}Generated \x7b",
       "    request_id,",
       "    success: true,",
       "\x7d);",
       "",
       "Ok(response)"] }

/-- The fields of a structure literal with neutral values. -/
def literalFields (d : Classified) : List String :=
  (d.properties.filter fun p => !transientProperties.contains p.name).map fun p =>
    s!"    {p.fieldName}: {Target.defaultValue p.targetType},"

def logicMethod (request response : Classified) : Method :=
  { marker := .helper
    name := "execute_contract_logic"
    params := ["&self", typed "_request" request.name]
    returns := s!"Result<{response.name}>"
    body :=
      ["// Placeholder values; the clause logic belongs here.",
       s!"Ok({response.name} \x7b"]
        ++ literalFields response
        ++ ["\x7d)"] }

def getterMethod (field : StorageField) : Method :=
  { marker := .message
    name := getterName field
    params := ["&self"]
    returns := field.type
    body := [s!"self.{field.name}.clone()"] }

/-- The methods of the messages that every contract answers. -/
def controlMethods : List Method :=
  [ownerMethod, pausedMethod, switchMethod "pause" "true" "ContractPaused",
   switchMethod "unpause" "false" "ContractUnpaused"]

/-- The methods of the implementation in order. -/
def methods (contract : Contract) : List Method :=
  newMethod contract.domain :: defaultMethod contract.domain :: controlMethods
    ++ (match contract.exchange? with
      | some (request, response) => [processMethod request response, logicMethod request response]
      | none => [])
    ++ contract.domain.map getterMethod

/-- Blocks of lines with an empty line between them. -/
def separated (blocks : List (List String)) : List String :=
  [""].intercalate blocks

def implLines (contract : Contract) : List String :=
  [s!"impl {contract.name} \x7b"]
    ++ indent (separated (contract.methods.map (·.lines)))
    ++ ["\x7d"]

/-! ## Tests -/

/-- A test function. -/
def testLines (name : String) (body : List String) : List String :=
  ["#[ink::test]", s!"fn {name}() \x7b"] ++ indent body ++ ["\x7d"]

def pausedRequestTest (contract : Contract) (request : Classified) : List String :=
  testLines "process_request_rejected_while_paused"
    ([s!"let mut contract = {contract.name}::default();",
      s!"let request = {request.name} \x7b"]
      ++ literalFields request
      ++ ["\x7d;",
          "assert_eq!(contract.pause(), Ok(()));",
          "assert_eq!(contract.process_request(request.clone()), Err(ContractError::ContractPaused));",
          "assert_eq!(contract.unpause(), Ok(()));",
          "assert!(contract.process_request(request).is_ok());"])

def tests (contract : Contract) : List (List String) :=
  [["use super::*;"],
   testLines "default_works"
    [s!"let contract = {contract.name}::default();",
     "assert_eq!(contract.is_paused(), false);"],
   testLines "pause_works"
    [s!"let mut contract = {contract.name}::default();",
     "assert_eq!(contract.pause(), Ok(()));",
     "assert_eq!(contract.is_paused(), true);"],
   testLines "unpause_works"
    [s!"let mut contract = {contract.name}::default();",
     "assert_eq!(contract.pause(), Ok(()));",
     "assert_eq!(contract.unpause(), Ok(()));",
     "assert_eq!(contract.is_paused(), false);"],
   testLines "pause_rejects_non_owner"
    ["let accounts = ink::env::test::default_accounts::<ink::env::DefaultEnvironment>();",
     s!"let mut contract = {contract.name}::default();",
     "ink::env::test::set_caller::<ink::env::DefaultEnvironment>(accounts.bob);",
     "assert_eq!(contract.pause(), Err(ContractError::Unauthorized));",
     "assert_eq!(contract.is_paused(), false);"]]
    ++ match contract.exchange? with
      | some (request, _) => [pausedRequestTest contract request]
      | none => []

def testModuleLines (contract : Contract) : List String :=
  ["#[cfg(test)]", "mod tests \x7b"] ++ indent (separated contract.tests) ++ ["\x7d"]

/-! ## Files -/

/-- The blocks of the library file. -/
def blocks (contract : Contract) : List (List String) :=
  [["use ink::prelude::string::String;", "use ink::prelude::vec::Vec;"], contract.errorLines]
    ++ contract.structures.map structureLines
    ++ [contract.storageLines]
    ++ contract.events.map eventLines
    ++ [contract.implLines, contract.testModuleLines]

def libraryText (contract : Contract) : String :=
  unlines
    (["#![cfg_attr(not(feature = \"std\"), no_std, no_main)]",
      "",
      "#[ink::contract]",
      s!"mod {contract.moduleName} \x7b"]
      ++ indent (separated contract.blocks)
      ++ ["\x7d"])

/-- The version of the contract framework. -/
def frameworkVersion : String := "5.1.1"

def manifestText (contract : Contract) : String :=
  unlines
    ["[package]",
     s!"name = \"{contract.packageName}\"",
     "version = \"0.1.0\"",
     "authors = [\"[your_name] <[your_email]>\"]",
     "edition = \"2021\"",
     "",
     "[dependencies]",
     s!"ink = \x7b version = \"{frameworkVersion}\", default-features = false \x7d",
     "scale = \x7b package = \"parity-scale-codec\", version = \"3\", " ++
       "default-features = false, features = [\"derive\"] \x7d",
     "scale-info = \x7b version = \"2.6\", default-features = false, features = [\"derive\"], " ++
       "optional = true \x7d",
     "",
     "[dev-dependencies]",
     s!"ink_e2e = \x7b version = \"{frameworkVersion}\" \x7d",
     "",
     "[lib]",
     "path = \"src/lib.rs\"",
     "",
     "[features]",
     "default = [\"std\"]",
     "std = [",
     "    \"ink/std\",",
     "    \"scale/std\",",
     "    \"scale-info/std\",",
     "]",
     "ink-as-dependency = []",
     "e2e-tests = []",
     "",
     "[profile.release]",
     "overflow-checks = false",
     "",
     "[profile.dev]",
     "overflow-checks = false"]

def overviewLines (contract : Contract) : List String :=
  match contract.templateModel? with
  | some template =>
    [s!"This contract implements the **{template.name}** template model with the following properties:",
     ""]
      ++ (template.properties.filter fun p => !metadataProperties.contains p.name).map
        (fun p => s!"- **{p.name}**: {p.declaredType}")
  | none =>
    ["No template model was found; the contract only carries ownership and pause state."]

def exchangeFeatures (contract : Contract) : List String :=
  match contract.exchange? with
  | some (request, response) =>
    [s!"- **Request Processing**: Handles {request.name} requests",
     s!"- **Response Generation**: Generates {response.name} responses"]
  | none => []

def messageLine (m : Message) : String :=
  let params := ", ".intercalate (m.params.map fun p => typed p.1 p.2)
  s!"- `{m.name}({params})`: {m.description}"

def readmeText (contract : Contract) : String :=
  unlines
    ([s!"# {contract.name} - ink! Smart Contract",
      "",
      "This ink! smart contract was generated from Concerto models by ctogen.",
      "",
      "## Overview",
      ""]
      ++ contract.overviewLines
      ++ ["",
          "## Contract Features",
          "",
          "- **Pausable**: Contract can be paused/unpaused by the owner",
          "- **Access Control**: Owner-based permissions",
          "- **Event Emission**: All important actions emit events"]
      ++ contract.exchangeFeatures
      ++ ["",
          "## Building and Testing",
          "",
          "```bash",
          "cargo install cargo-contract --force",
          "cargo contract build",
          "cargo test",
          "```",
          "",
          "## Contract API",
          "",
          "### Messages",
          ""]
      ++ contract.messages.map messageLine
      ++ ["", "### Events", ""]
      ++ contract.events.map (fun e => s!"- `{e.name}`: {e.description}")
      ++ ["", "### Errors", ""]
      ++ contract.errors.map (fun e => s!"- `{e.text}`")
      ++ match contract.templateModels with
        | [] => []
        | templates =>
          ["", "## Generated from Concerto Models", ""]
            ++ templates.map (fun t => s!"- {t.fullName}"))

end Covenant.Contract

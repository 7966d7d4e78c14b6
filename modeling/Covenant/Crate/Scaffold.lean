/-
The logic scaffold of the data crate: a `trigger` function that answers a request
with placeholder values, and a test that calls it with a template model and a
request made of recognisable values.
-/
import Covenant.Classification
import Covenant.Crate.Module
import Covenant.Text.Blank

namespace Covenant.Crate

open Covenant.Text

/-! ## Values -/

/-- A field of a struct literal with the expression it is given. -/
structure FieldValue where
  name : String
  type : String
  value : String
  property : String
  isOptional : Bool
deriving DecidableEq, Repr

/-- Words divided by white space. -/
def splitWords (current : List Char) : List Char → List (List Char)
  | [] => if current.isEmpty then [] else [current.reverse]
  | c :: cs =>
    if isBlank c then
      if current.isEmpty then splitWords [] cs else current.reverse :: splitWords [] cs
    else splitWords (c :: current) cs

/-- A word with its first character as a capital. -/
def capitalized : List Char → List Char
  | [] => []
  | c :: cs => upperChar c ++ cs

/-- The name of a property in words: `buyerName` becomes `Buyer Name`. -/
def words (name : String) : String :=
  let parts := splitWords [] (Target.splitCamelCase ' ' (Target.withoutDollars name))
  " ".intercalate (parts.map fun part => String.ofList (capitalized part))

/-- The expression for a text. -/
def textValue (s : String) : String :=
  "\"" ++ s ++ "\".to_string()"

/-- The last property of that name. -/
def lastNamed? (properties : List Property) (name : String) : Option Property :=
  properties.reverse.find? (·.name = name)

/-- A literal of one day, if the type is the concept `Duration` with an amount and a unit that
has days, and the modules that the literal needs. -/
def durationValue? (r : Registry) (key typeName : String) : Option (String × List String) := do
  let duration ← r.resolve? key typeName
  guard (duration.declaration.name = "Duration" && duration.declaration.kind = .classKind .concept)
  let properties := r.allProperties duration
  let amount ← lastNamed? properties "amount"
  let unit ← lastNamed? properties "unit"
  let unitType ← r.resolve? duration.key unit.typeName
  match unitType.declaration.body with
  | .enumeration values =>
    guard (values.contains "days")
    let amountValue := if (plainType amount).text = "i64" then "1" else "1.0"
    let unitName := unitType.declaration.name
    let value :=
      s!"Duration \x7b amount: {amountValue}, unit: {unitName}::days, ..Default::default() \x7d"
    return (value, [Target.namespaceModule duration.key, Target.namespaceModule unitType.key])
  | _ => none

/-- A recognisable value for a property, by its type, and the modules it needs. -/
def testValue (r : Registry) (key : String) (p : Property) : Target.TypeExpr → String × List String
  | .option value =>
    let (inner, modules) := testValue r key p value
    (s!"Some({inner})", modules)
  | .vec item =>
    let (inner, modules) := testValue r key p item
    (s!"vec![{inner}]", modules)
  | .named name =>
    if name = "bool" then ("true", [])
    else if name = "i64" then ("10", [])
    else if name = "f64" then ("10.5", [])
    else if name = "String" then (textValue ("Test " ++ words p.name), [])
    else if name = "DateTime<Utc>" then ("Utc::now()", [])
    else if p.isRelationship then ("Default::default()", [])
    else (durationValue? r key p.typeName).getD ("Default::default()", [])

/-- The value that a response gets for a field until the logic is written. -/
def placeholder (fullName : String) (f : StructField) : String :=
  if f.property.name = "$class" then textValue fullName
  else if f.type.text = "DateTime<Utc>" then "Utc::now()"
  else Target.defaultValue f.type.text

/-- The value that a test gives to a field, and the modules it needs. -/
def fixture (r : Registry) (d : Classified) (f : StructField) : String × List String :=
  if f.property.name = "$class" then (textValue d.fullName, [])
  else testValue r d.key f.property f.type

def fieldValue (f : StructField) (value : String) : FieldValue :=
  ⟨f.name, f.type.text, value, f.property.name, f.property.isOptional⟩

/-! ## Scaffolds -/

/-- A classified declaration that the registry does not hold. -/
structure UnregisteredError where
  fullName : String
deriving DecidableEq, Repr

def UnregisteredError.message (e : UnregisteredError) : String :=
  s!"Declaration '{e.fullName}' is not registered"

/-- The fields of the struct of a classified declaration. -/
def classifiedFields (r : Registry) (d : Classified) :
    Except UnregisteredError (List StructField) :=
  match r.resolve? d.key d.name with
  | some found => .ok (structFields r ⟨d.key, found.declaration⟩)
  | none => .error ⟨d.fullName⟩

/-- The scaffold of a crate, ready to be rendered. -/
structure Scaffold where
  crate : String
  template : Classified
  request : Classified
  response : Classified
  responseFields : List FieldValue
  templateFields : List FieldValue
  requestFields : List FieldValue
  testModules : List String
deriving DecidableEq, Repr

/-- The declarations that a scaffold needs and a classification may lack. -/
def missingParts (c : Classification) : List String :=
  (if c.primaryTemplateModel?.isNone then ["template model"] else [])
    ++ (if c.primaryRequest?.isNone then ["request"] else [])
    ++ (if c.primaryResponse?.isNone then ["response"] else [])

/-- The complaint about missing declarations. -/
def missingMessage (c : Classification) : String :=
  "no " ++ ", ".intercalate (missingParts c) ++ " found; logic scaffold not generated"

def missingDiagnostic (c : Classification) : Diagnostic :=
  ⟨.logic, "logic.rs", missingMessage c⟩

/-- Plans the scaffold for the declarations given. -/
def planScaffold (r : Registry) (package : String) (template request response : Classified) :
    Except UnregisteredError Scaffold := do
  let responseFields ← classifiedFields r response
  let templateFields ← classifiedFields r template
  let requestFields ← classifiedFields r request
  let templateValues := templateFields.map (fixture r template)
  let requestValues := requestFields.map (fixture r request)
  return {
    crate := Target.crateName package
    template, request, response
    responseFields := responseFields.map fun f => fieldValue f (placeholder response.fullName f)
    templateFields := List.zipWith (fun f v => fieldValue f v.1) templateFields templateValues
    requestFields := List.zipWith (fun f v => fieldValue f v.1) requestFields requestValues
    testModules := distinct [] (Target.namespaceModule template.key
      :: Target.namespaceModule request.key
      :: (templateValues ++ requestValues).flatMap (·.2)) }

/-- Plans the scaffold of a classification; one that lacks a template model, a request or a
response has none. -/
def scaffold? (r : Registry) (c : Classification) (package : String) :
    Except UnregisteredError (Option Scaffold) :=
  match c.primaryTemplateModel?, c.primaryRequest?, c.primaryResponse? with
  | some template, some request, some response =>
    (planScaffold r package template request response).map some
  | _, _, _ => .ok none

/-! ## Files -/

/-- The lines for a field of the response: what is left to do, and the placeholder. -/
def responseFieldLines (f : FieldValue) : List String :=
  let optional := if f.isOptional then " (optional)" else ""
  [s!"        // TODO: implement {f.name}: {f.type}{optional}",
   s!"        {f.name}: {f.value},"]

def fixtureLine (f : FieldValue) : String :=
  s!"        {f.name}: {f.value},"

namespace Scaffold

def importLines (s : Scaffold) : List String :=
  distinct [] ([s.template, s.request, s.response].map fun d =>
    s!"use crate::{Target.namespaceModule d.key}::{d.name};")

def logicText (s : Scaffold) : String :=
  unlines
    ([s!"//! Business logic for {s.template.name}.",
      "//!",
      "//! Generated by ctogen. This file is overwritten on every regeneration.",
      "",
      "#![allow(unused_imports)]",
      "",
      "use chrono::\x7bDateTime, Utc\x7d;",
      "use serde::\x7bDeserialize, Serialize\x7d;",
      ""]
      ++ s.importLines
      ++ ["",
          "#[derive(Debug, Clone, Serialize, Deserialize)]",
          "pub struct ResponseWrapper \x7b",
          s!"    pub result: {s.response.name},",
          "\x7d",
          "",
          "#[derive(Debug, Clone, PartialEq, Eq)]",
          "pub struct Error \x7b",
          "    pub message: String,",
          "\x7d",
          "",
          "impl std::fmt::Display for Error \x7b",
          "    fn fmt(&self, f: &mut std::fmt::Formatter<'_>) -> std::fmt::Result \x7b",
          "        write!(f, \"\x7b\x7d\", self.message)",
          "    \x7d",
          "\x7d",
          "",
          "impl std::error::Error for Error \x7b\x7d",
          "",
          s!"pub async fn trigger(template_data: &{s.template.name}, request: &{s.request.name})" ++
            " -> Result<ResponseWrapper, Error> \x7b",
          "    let _ = (template_data, request);",
          s!"    let result = {s.response.name} \x7b"]
      ++ s.responseFields.flatMap responseFieldLines
      ++ ["    \x7d;",
          "",
          "    Ok(ResponseWrapper \x7b result \x7d)",
          "\x7d"])

def testText (s : Scaffold) : String :=
  unlines
    (["//! Smoke test for the generated business logic.",
      "//!",
      "//! Generated by ctogen. This file is overwritten on every regeneration.",
      "",
      "#![allow(unused_imports)]",
      "",
      "use chrono::Utc;",
      s!"use {s.crate}::logic::trigger;"]
      ++ s.testModules.map (fun module => s!"use {s.crate}::{module}::*;")
      ++ ["",
          "#[tokio::test]",
          "async fn trigger_completes() \x7b",
          s!"    let template_data = {s.template.name} \x7b"]
      ++ s.templateFields.map fixtureLine
      ++ ["    \x7d;",
          s!"    let request = {s.request.name} \x7b"]
      ++ s.requestFields.map fixtureLine
      ++ ["    \x7d;",
          "",
          "    let result = trigger(&template_data, &request).await;",
          "    assert!(result.is_ok());",
          "\x7d"])

end Scaffold

end Covenant.Crate

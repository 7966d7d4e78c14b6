/-
The modules of the data crate, one per namespace: a struct for every class with
its implicit and inherited fields, an enum for every enumeration, and a type alias
for every scalar and map.
-/
import Covenant.Dictionary
import Covenant.Registry.Resolution
import Covenant.Target.TypeExpr
import Covenant.Text.Lines

namespace Covenant.Crate

open Covenant.Text

/-! ## Structs -/

/-- A field of a struct and the property it comes from. -/
structure StructField where
  name : String
  type : Target.TypeExpr
  property : Property
deriving DecidableEq, Repr

/-- The type of a property in the data crate; a relationship holds the identifier of what it
leads to. -/
def plainType (p : Property) : Target.TypeExpr :=
  Target.mapType .plainData (if p.isRelationship then "String" else p.typeName) p.isOptional
    p.isArray

def structField (p : Property) : StructField :=
  ⟨Target.fieldName p.name, plainType p, p⟩

/-- The fields of the struct of a declaration. -/
def structFields (r : Registry) (l : Located) : List StructField :=
  (r.allProperties l).map structField

/-- What the serializer is told about a field: the property's name if it is another one, and that
an optional value may be missing. -/
def StructField.attributes (f : StructField) : List String :=
  (if Target.unmarked f.name = f.property.name then []
    else ["rename = \"" ++ f.property.name ++ "\""])
    ++ (if f.property.isOptional then
        ["default, skip_serializing_if = \"Option::is_none\""] else [])

def StructField.lines (f : StructField) : List String :=
  (match f.attributes with
    | [] => []
    | attributes => ["    #[serde(" ++ ", ".intercalate attributes ++ ")]"])
    ++ [s!"    pub {f.name}: {f.type.text},"]

def structLines (name : String) (fields : List StructField) : List String :=
  ["#[derive(Debug, Clone, Default, Serialize, Deserialize)]", s!"pub struct {name} \x7b"]
    ++ fields.flatMap (·.lines)
    ++ ["\x7d"]

/-! ## Other declarations -/

/-- The values of an enumeration, of which the first is the default. -/
def enumValueLines : List String → List String
  | [] => []
  | first :: others => "    #[default]" :: (first :: others).map fun value => s!"    {value},"

/-- An enumeration; one without values has no default. -/
def enumLines (name : String) (values : List String) : List String :=
  let default := if values.isEmpty then "" else " Default,"
  [s!"#[derive(Debug, Clone, Copy,{default} PartialEq, Eq, Serialize, Deserialize)]",
   "#[allow(non_camel_case_types)]",
   s!"pub enum {name} \x7b"]
    ++ enumValueLines values
    ++ ["\x7d"]

/-- The name that a type has in the data crate. -/
def plainName (typeName : String) : String :=
  (Target.baseType .plainData typeName).text

def declarationLines (r : Registry) (l : Located) : List String :=
  let name := l.declaration.name
  match l.declaration.body with
  | .classBody _ => structLines name (structFields r l)
  | .enumeration values => enumLines name values
  | .scalar base => [s!"pub type {name} = {plainName base};"]
  | .map key value => [s!"pub type {name} = HashMap<{plainName key}, {plainName value}>;"]

/-! ## Modules -/

/-- The items in order, without repetitions. -/
def distinct (taken : List String) : List String → List String
  | [] => []
  | s :: rest => if s ∈ taken then distinct taken rest else s :: distinct (s :: taken) rest

/-- The namespaces that a document's imports find, itself apart, each once. -/
def importedKeys (r : Registry) (m : Model) : List String :=
  distinct [m.key] (m.imports.filterMap fun i => r.findKey? i.target)

/-- The line that brings in a namespace. -/
def useLine (key : String) : String :=
  s!"use crate::{Target.namespaceModule key}::*;"

def moduleLines (r : Registry) (m : Model) : List String :=
  [s!"// Generated by ctogen from namespace {m.key}.",
   "#![allow(unused_imports)]",
   "",
   "use chrono::\x7bDateTime, Utc\x7d;",
   "use serde::\x7bDeserialize, Serialize\x7d;",
   "use std::collections::HashMap;"]
    ++ (importedKeys r m).map useLine
    ++ m.declarations.flatMap fun d => "" :: declarationLines r ⟨m.key, d⟩

def moduleText (r : Registry) (m : Model) : String :=
  unlines (moduleLines r m)

/-- The file of a namespace. -/
def moduleFile (key : String) : String :=
  Target.namespaceModule key ++ ".rs"

/-- The module files of all registered namespaces, in order. Of namespaces with the same file
the first gives the place and the last the text. -/
def moduleFiles (r : Registry) : Dictionary String :=
  r.models.foldl (fun files m => files.put (moduleFile m.key) (moduleText r m)) []

end Covenant.Crate

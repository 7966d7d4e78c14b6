/-
Types in the generated crates. A property type is mapped by name, an array of it
becomes a vector and an optional value an option, the option outermost. The data
crate keeps numbers and times as such; contract storage has only what can be
encoded on chain, so well-known concepts collapse to a single value there.
-/
import Covenant.Target.Naming

namespace Covenant.Target

/-- A type of a generated crate. -/
inductive TypeExpr where
  | named (name : String)
  | vec (item : TypeExpr)
  | option (value : TypeExpr)
deriving DecidableEq, Repr

def TypeExpr.text : TypeExpr → String
  | named name => name
  | vec item => "Vec<" ++ item.text ++ ">"
  | option value => "Option<" ++ value.text ++ ">"

/-- Which crate a type is for. -/
inductive Profile where
  | plainData
  | contractStorage
deriving DecidableEq, Repr

/-- The primitive types in the data crate. -/
def plainDataTypes : List (String × String) :=
  [("String", "String"), ("Boolean", "bool"), ("Double", "f64"), ("Long", "f64"),
   ("Integer", "i64"), ("DateTime", "DateTime<Utc>")]

/-- The primitive types and the collapsed concepts in contract storage. -/
def contractStorageTypes : List (String × String) :=
  [("String", "String"), ("Boolean", "bool"), ("Double", "u128"), ("Long", "u128"),
   ("Integer", "u64"), ("DateTime", "u64"),
   ("MonetaryAmount", "u128"), ("Duration", "u64"), ("Period", "u64"), ("CurrencyCode", "String"),
   ("DigitalCurrencyCode", "String"), ("TemporalUnit", "String"), ("PeriodUnit", "String")]

def Profile.table : Profile → List (String × String)
  | plainData => plainDataTypes
  | contractStorage => contractStorageTypes

/-- The type that a type name maps to; a name not in the table stands for itself. -/
def baseType (profile : Profile) (typeName : String) : TypeExpr :=
  let short := shortName typeName
  .named ((profile.table.lookup short).getD short)

/-- The type of a property. -/
def mapType (profile : Profile) (typeName : String) (isOptional isArray : Bool) : TypeExpr :=
  let base := baseType profile typeName
  let items := if isArray then .vec base else base
  if isOptional then .option items else items

/-- The integer types. -/
def integerTypes : List String :=
  ["u8", "u16", "u32", "u64", "u128", "usize", "i8", "i16", "i32", "i64", "i128", "isize"]

/-- An expression for a neutral value of the type that a text spells. -/
def defaultValue (typeText : String) : String :=
  if typeText.startsWith "Option<" then "None"
  else if typeText.startsWith "Vec<" then "Vec::new()"
  else if typeText = "String" then "String::new()"
  else if typeText = "bool" then "false"
  else if integerTypes.contains typeText then "0"
  else if typeText = "f32" || typeText = "f64" then "0.0"
  else "Default::default()"

end Covenant.Target

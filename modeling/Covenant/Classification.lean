/-
The role that each registered declaration plays in a contract. The first rule
that fits decides: extending a request, extending a response, being an asset that
extends a clause or a contract, being a concept, being a participant. What fits
none is dropped with a finding.

Supertypes are recognised by a word in the name of the direct supertype, or
exactly, by comparing every supertype with the known base types.
-/
import Covenant.Diagnostic
import Covenant.Registry.Resolution
import Covenant.Target.TypeExpr

namespace Covenant

open Covenant.Text

/-! ## Roles -/

inductive Role where
  | request | response | templateModel | concept | participant
deriving DecidableEq, Repr

def Role.text : Role → String
  | request => "request"
  | response => "response"
  | templateModel => "template_model"
  | concept => "concept"
  | participant => "participant"

/-- How supertypes are recognised. -/
inductive Strategy where
  | substring | exact
deriving DecidableEq, Repr

/-- The words that mark a supertype of a role. -/
def Role.markers : Role → List String
  | request => ["Request"]
  | response => ["Response"]
  | templateModel => ["Clause", "Contract"]
  | concept | participant => []

/-- The known base types of a role: namespace, without version, and name. -/
def Role.baseTypes : Role → List (String × String)
  | request => [("org.accordproject.runtime", "Request")]
  | response => [("org.accordproject.runtime", "Response")]
  | templateModel =>
    [("org.accordproject.contract", "Clause"), ("org.accordproject.contract", "Contract")]
  | concept | participant => []

/-- Whether a full name is that of a base type of the role, in any version. -/
def Role.isBaseType (role : Role) (fullName : String) : Bool :=
  role.baseTypes.contains (beforeFirst '@' (beforeLast '.' fullName), afterLast '.' fullName)

/-- Whether supertypes, nearest first, make a declaration one of the role. -/
def Role.extendedBy (role : Role) (strategy : Strategy) (superTypes : List String) : Bool :=
  match strategy with
  | .substring =>
    superTypes.head?.any fun direct =>
      role.markers.any fun marker => occursIn marker.toList direct.toList
  | .exact => superTypes.any role.isBaseType

/-- Why a declaration plays no role. -/
inductive DropReason where
  | noSuperType (kind : DeclarationKind)
  | noRole (kind : DeclarationKind) (superType : String)
deriving DecidableEq, Repr

def DropReason.message : DropReason → String
  | noSuperType kind => s!"{kind.text} without a recognised supertype"
  | noRole kind superType => s!"{kind.text} extending '{superType}' has no contract role"

/-- The role of a declaration of a category with the supertypes given. -/
def assignRole (strategy : Strategy) (kind : DeclarationKind) (superTypes : List String) :
    Except DropReason Role :=
  if Role.request.extendedBy strategy superTypes then .ok .request
  else if Role.response.extendedBy strategy superTypes then .ok .response
  else if kind = .classKind .asset && Role.templateModel.extendedBy strategy superTypes then
    .ok .templateModel
  else if kind = .classKind .concept then .ok .concept
  else if kind = .classKind .participant then .ok .participant
  else
    match superTypes with
    | [] => .error (.noSuperType kind)
    | direct :: _ => .error (.noRole kind direct)

/-! ## Classified declarations -/

/-- A property with its field name and its type in contract storage. -/
structure DerivedProperty where
  name : String
  declaredType : String
  isOptional : Bool := false
  isArray : Bool := false
  isRelationship : Bool := false
  fieldName : String
  targetType : String
deriving DecidableEq, Repr

/-- A declaration and its role. -/
structure Classified where
  name : String
  fullName : String
  key : String
  role : Role
  properties : List DerivedProperty
deriving DecidableEq, Repr

/-- Scalars are replaced by what they stand for, and a relationship is stored as the identifier
of what it leads to. -/
def Registry.deriveProperty (r : Registry) (key : String) (p : Property) : DerivedProperty :=
  let declaredType :=
    if isPrimitive p.typeName then p.typeName
    else (r.scalarBase? key p.typeName).getD p.typeName
  let base := if p.isRelationship then "String" else declaredType
  { name := p.name
    declaredType
    isOptional := p.isOptional
    isArray := p.isArray
    isRelationship := p.isRelationship
    fieldName := Target.fieldName p.name
    targetType := (Target.mapType .contractStorage base p.isOptional p.isArray).text }

/-- The role of a registered declaration. -/
def Registry.roleOf (r : Registry) (strategy : Strategy) (l : Located) : Except DropReason Role :=
  assignRole strategy l.declaration.kind (r.superTypeNames l)

/-- A registered declaration in the role given. -/
def Registry.classified (r : Registry) (l : Located) (role : Role) : Classified :=
  { name := l.declaration.name
    fullName := l.fullName
    key := l.key
    role
    properties := l.declaration.properties.map (r.deriveProperty l.key) }

/-- The declarations of each role and the findings about those that were dropped, all in the
order of registration. -/
structure Classification where
  requests : List Classified := []
  responses : List Classified := []
  templateModels : List Classified := []
  concepts : List Classified := []
  participants : List Classified := []
  diagnostics : List Diagnostic := []
deriving DecidableEq, Repr

namespace Classification

def primaryRequest? (c : Classification) : Option Classified := c.requests.head?

def primaryResponse? (c : Classification) : Option Classified := c.responses.head?

def primaryTemplateModel? (c : Classification) : Option Classified := c.templateModels.head?

/-- All classified declarations, role by role. -/
def all (c : Classification) : List Classified :=
  c.requests ++ c.responses ++ c.templateModels ++ c.concepts ++ c.participants

/-- The list of a role. -/
def ofRole (c : Classification) : Role → List Classified
  | .request => c.requests
  | .response => c.responses
  | .templateModel => c.templateModels
  | .concept => c.concepts
  | .participant => c.participants

/-- Puts a declaration at the end of the list of its role. -/
def add (c : Classification) (d : Classified) : Classification :=
  match d.role with
  | .request => { c with requests := c.requests ++ [d] }
  | .response => { c with responses := c.responses ++ [d] }
  | .templateModel => { c with templateModels := c.templateModels ++ [d] }
  | .concept => { c with concepts := c.concepts ++ [d] }
  | .participant => { c with participants := c.participants ++ [d] }

/-- Puts a finding at the end of the findings. -/
def report (c : Classification) (finding : Diagnostic) : Classification :=
  { c with diagnostics := c.diagnostics ++ [finding] }

/-- What a log says about a classification. -/
def summary (c : Classification) : String :=
  s!"Classified {c.requests.length} request(s), {c.responses.length} response(s), "
    ++ s!"{c.templateModels.length} template model(s), {c.concepts.length} concept(s), "
    ++ s!"{c.participants.length} participant(s)"

theorem ofRole_add (c : Classification) (d : Classified) (role : Role) :
    (c.add d).ofRole role = c.ofRole role ++ if d.role = role then [d] else [] := by
  unfold add
  cases d.role <;> cases role <;> simp [ofRole]

theorem diagnostics_add (c : Classification) (d : Classified) :
    (c.add d).diagnostics = c.diagnostics := by
  unfold add
  cases d.role <;> rfl

theorem ofRole_report (c : Classification) (finding : Diagnostic) (role : Role) :
    (c.report finding).ofRole role = c.ofRole role := by
  cases role <;> rfl

end Classification

namespace Registry

variable (r : Registry) (strategy : Strategy)

/-- Classifies a declaration, behind those that have been classified. -/
def classifyDeclaration (c : Classification) (l : Located) : Classification :=
  match r.roleOf strategy l with
  | .ok role => c.add (r.classified l role)
  | .error reason => c.report ⟨.classify, l.fullName, reason.message⟩

/-- Classifies all registered declarations, namespace by namespace. -/
def classify : Classification :=
  r.models.foldl (fun c model =>
    model.declarations.foldl (fun c declaration =>
      r.classifyDeclaration strategy c ⟨model.key, declaration⟩) c) {}

/-! ## The lists -/

/-- The registered declarations that play the role. -/
def ofRole (role : Role) : List Classified :=
  (r.declarations.filter fun l => (r.roleOf strategy l).toOption = some role).map
    (r.classified · role)

/-- The findings about the declarations that play none. -/
def dropped : List Diagnostic :=
  r.declarations.filterMap fun l =>
    match r.roleOf strategy l with
    | .ok _ => none
    | .error reason => some ⟨.classify, l.fullName, reason.message⟩

/-- The namespaces are gone through as one list of declarations. -/
theorem classify_eq_foldl :
    r.classify strategy = r.declarations.foldl (r.classifyDeclaration strategy) {} := by
  simp only [classify, declarations, List.foldl_flatMap, List.foldl_map]

theorem ofRole_foldl (ls : List Located) (c : Classification) (role : Role) :
    (ls.foldl (r.classifyDeclaration strategy) c).ofRole role =
      c.ofRole role ++ (ls.filter fun l => (r.roleOf strategy l).toOption = some role).map
        (r.classified · role) := by
  induction ls generalizing c with
  | nil => simp
  | cons l ls ih =>
    rw [List.foldl_cons, ih, classifyDeclaration]
    cases hrole : r.roleOf strategy l with
    | error reason => simp [Classification.ofRole_report, hrole, Except.toOption]
    | ok assigned =>
      have hassigned : (r.classified l assigned).role = assigned := rfl
      rw [Classification.ofRole_add, hassigned]
      by_cases heq : assigned = role
      · simp [heq, hrole, Except.toOption]
      · simp [heq, hrole, Except.toOption]

theorem diagnostics_foldl (ls : List Located) (c : Classification) :
    (ls.foldl (r.classifyDeclaration strategy) c).diagnostics =
      c.diagnostics ++ ls.filterMap fun l =>
        match r.roleOf strategy l with
        | .ok _ => none
        | .error reason => some ⟨.classify, l.fullName, reason.message⟩ := by
  induction ls generalizing c with
  | nil => simp
  | cons l ls ih =>
    rw [List.foldl_cons, ih, classifyDeclaration]
    cases hrole : r.roleOf strategy l with
    | error reason => simp [Classification.report, hrole]
    | ok assigned => simp [Classification.diagnostics_add, hrole]

theorem ofRole_classify (role : Role) :
    (r.classify strategy).ofRole role = r.ofRole strategy role := by
  rw [classify_eq_foldl, ofRole_foldl]
  cases role <;> rfl

theorem diagnostics_classify : (r.classify strategy).diagnostics = r.dropped strategy := by
  rw [classify_eq_foldl, diagnostics_foldl]
  rfl

theorem classify_eq : r.classify strategy = {
    requests := r.ofRole strategy .request
    responses := r.ofRole strategy .response
    templateModels := r.ofRole strategy .templateModel
    concepts := r.ofRole strategy .concept
    participants := r.ofRole strategy .participant
    diagnostics := r.dropped strategy } := by
  simp only [← ofRole_classify, ← diagnostics_classify]
  rfl

end Registry

end Covenant

/-
What registries answer depends on little: on which document a namespace leads to
(`Registry.find?`), on the document of a key (`Registry.model?`), and, where all
documents are gone through, on which documents there are. Registries that agree on
these give every name the same meaning, every declaration the same ancestors,
properties and role, and pass validation together (`Registry.SameLookups`).
-/
import Covenant.Classification
import Covenant.Proofs.Validation

namespace Covenant

/-- The same lists up to order. -/
structure Classification.Similar (c c' : Classification) : Prop where
  requests : c.requests.Perm c'.requests
  responses : c.responses.Perm c'.responses
  templateModels : c.templateModels.Perm c'.templateModels
  concepts : c.concepts.Perm c'.concepts
  participants : c.participants.Perm c'.participants
  diagnostics : c.diagnostics.Perm c'.diagnostics

namespace Registry

/-- Registries of the same documents in which namespaces lead to the same ones. -/
structure SameLookups (r r' : Registry) : Prop where
  models : r.models.Perm r'.models
  model? : ∀ key, r.model? key = r'.model? key
  find? : ∀ id, r.find? id = r'.find? id

/-! ## One step up -/

theorem ancestorsFrom_none {r : Registry} {l : Located} (h : r.superType? l = none)
    (seen : List String) : r.ancestorsFrom seen l = [] := by
  rw [ancestorsFrom]
  split
  · rfl
  · simp_all

theorem ancestorsFrom_some {r : Registry} {l next : Located} (h : r.superType? l = some next)
    (seen : List String) : r.ancestorsFrom seen l =
      if next.fullName ∈ seen then []
        else next :: r.ancestorsFrom (next.fullName :: seen) next := by
  rw [ancestorsFrom]
  split
  · simp_all
  · rename_i next' hnext
    obtain rfl : next = next' := Option.some.inj (h.symm.trans hnext)
    rfl

theorem superTypeNamesFrom_none {r : Registry} {l : Located} (h : r.superType? l = none)
    (seen : List String) : r.superTypeNamesFrom seen l =
      match l.declaration.superType? with
      | some written => if written ∈ seen then [] else [written]
      | none => [] := by
  rw [superTypeNamesFrom]
  split
  · simp_all
  · rfl

theorem superTypeNamesFrom_some {r : Registry} {l next : Located} (h : r.superType? l = some next)
    (seen : List String) : r.superTypeNamesFrom seen l =
      if next.fullName ∈ seen then []
      else next.fullName :: r.superTypeNamesFrom (next.fullName :: seen) next := by
  rw [superTypeNamesFrom]
  split
  · rename_i next' hnext
    obtain rfl : next = next' := Option.some.inj (h.symm.trans hnext)
    rfl
  · simp_all

/-! ## Declarations with the same supertypes

Two registries may agree on some declarations only. If the supertypes of these are among them, the
registries agree on all their ancestors.
-/

section Agreement

variable {r r' : Registry} {p : Located → Prop}

theorem ancestorsFrom_congr (closed : ∀ {l next}, r.superType? l = some next → p next)
    (same : ∀ {l}, p l → r.superType? l = r'.superType? l) (seen : List String) {l : Located}
    (hl : p l) : r.ancestorsFrom seen l = r'.ancestorsFrom seen l := by
  fun_induction Registry.ancestorsFrom r seen l with
  | case1 seen l hnone =>
    rw [same hl] at hnone
    rw [ancestorsFrom_none hnone]
  | case2 seen l next hnext hseen =>
    rw [same hl] at hnext
    rw [ancestorsFrom_some hnext, if_pos hseen]
  | case3 seen l next hnext hseen ih =>
    rw [ih (closed hnext)]
    rw [same hl] at hnext
    rw [ancestorsFrom_some hnext, if_neg hseen]

theorem superTypeNamesFrom_congr (closed : ∀ {l next}, r.superType? l = some next → p next)
    (same : ∀ {l}, p l → r.superType? l = r'.superType? l) (seen : List String) {l : Located}
    (hl : p l) : r.superTypeNamesFrom seen l = r'.superTypeNamesFrom seen l := by
  fun_induction Registry.superTypeNamesFrom r seen l with
  | case1 seen l next hnext hseen =>
    rw [same hl] at hnext
    rw [superTypeNamesFrom_some hnext, if_pos hseen]
  | case2 seen l next hnext hseen ih =>
    rw [ih (closed hnext)]
    rw [same hl] at hnext
    rw [superTypeNamesFrom_some hnext, if_neg hseen]
  | case3 seen l hnone written hwritten hseen =>
    rw [same hl] at hnone
    simp only [superTypeNamesFrom_none hnone, hwritten, if_pos hseen]
  | case4 seen l hnone written hwritten hseen =>
    rw [same hl] at hnone
    simp only [superTypeNamesFrom_none hnone, hwritten, if_neg hseen]
  | case5 seen l hnone hwritten =>
    rw [same hl] at hnone
    simp only [superTypeNamesFrom_none hnone, hwritten]

end Agreement

/-- Registries that answer alike, except for the order of what they list. -/
structure SameAnswers (r r' : Registry) : Prop where
  findKey? : ∀ id, r.findKey? id = r'.findKey? id
  resolve? : ∀ key typeName, r.resolve? key typeName = r'.resolve? key typeName
  superTypeName? : ∀ l, r.superTypeName? l = r'.superTypeName? l
  scalarBase? : ∀ key typeName, r.scalarBase? key typeName = r'.scalarBase? key typeName
  allProperties : ∀ l, r.allProperties l = r'.allProperties l
  validate : r.validate = [] ↔ r'.validate = []
  roleOf : ∀ strategy l, r.roleOf strategy l = r'.roleOf strategy l
  classify : ∀ strategy, (r.classify strategy).Similar (r'.classify strategy)

namespace SameLookups

variable {r r' : Registry}

/-! ## Names -/

theorem resolve? (h : SameLookups r r') (key typeName : String) :
    r.resolve? key typeName = r'.resolve? key typeName := by
  have himported : r.resolveImported? = r'.resolveImported? := by
    funext name i
    simp only [resolveImported?, h.find?]
  simp only [Registry.resolve?, resolveQualified?, resolveShort?, himported, h.find?, h.model?]

theorem findKey? (h : SameLookups r r') (id : Namespace) : r.findKey? id = r'.findKey? id := by
  simp only [Registry.findKey?, h.find?]

theorem superType? (h : SameLookups r r') (l : Located) : r.superType? l = r'.superType? l := by
  unfold Registry.superType?
  exact congrArg l.declaration.superType?.bind (funext (h.resolve? l.key))

theorem superTypeName? (h : SameLookups r r') (l : Located) :
    r.superTypeName? l = r'.superTypeName? l := by
  simp only [Registry.superTypeName?, h.resolve?]

theorem scalarBase? (h : SameLookups r r') (key typeName : String) :
    r.scalarBase? key typeName = r'.scalarBase? key typeName := by
  simp only [Registry.scalarBase?, h.resolve?]

/-! ## Ancestors -/

theorem ancestorsFrom (h : SameLookups r r') (seen : List String) (l : Located) :
    r.ancestorsFrom seen l = r'.ancestorsFrom seen l :=
  ancestorsFrom_congr (p := fun _ => True) (fun _ => trivial) (fun _ => h.superType? _) seen trivial

theorem lineage (h : SameLookups r r') (l : Located) : r.lineage l = r'.lineage l := by
  simp only [Registry.lineage, h.ancestorsFrom]

theorem allProperties (h : SameLookups r r') (l : Located) :
    r.allProperties l = r'.allProperties l := by
  simp only [Registry.allProperties, implicitProperties, h.lineage]

theorem superTypeNamesFrom (h : SameLookups r r') (seen : List String) (l : Located) :
    r.superTypeNamesFrom seen l = r'.superTypeNamesFrom seen l :=
  superTypeNamesFrom_congr (p := fun _ => True) (fun _ => trivial)
    (fun _ => h.superType? _) seen trivial

/-! ## Roles -/

theorem roleOf (h : SameLookups r r') (strategy : Strategy) (l : Located) :
    r.roleOf strategy l = r'.roleOf strategy l := by
  simp only [Registry.roleOf, superTypeNames, h.superTypeNamesFrom]

theorem declarations (h : SameLookups r r') : r.declarations.Perm r'.declarations :=
  h.models.flatMap_right _

theorem ofRole (h : SameLookups r r') (strategy : Strategy) (role : Role) :
    (r.ofRole strategy role).Perm (r'.ofRole strategy role) := by
  have hderive : r.deriveProperty = r'.deriveProperty := by
    funext key p
    simp only [deriveProperty, h.scalarBase?]
  have hclassified (l : Located) : r.classified l role = r'.classified l role := by
    simp only [classified, hderive]
  simp only [Registry.ofRole, h.roleOf, hclassified]
  exact (h.declarations.filter _).map _

theorem dropped (h : SameLookups r r') (strategy : Strategy) :
    (r.dropped strategy).Perm (r'.dropped strategy) := by
  simp only [Registry.dropped, h.roleOf]
  exact h.declarations.filterMap _

theorem classify (h : SameLookups r r') (strategy : Strategy) :
    (r.classify strategy).Similar (r'.classify strategy) := by
  rw [classify_eq, classify_eq]
  exact {
    requests := h.ofRole strategy .request
    responses := h.ofRole strategy .response
    templateModels := h.ofRole strategy .templateModel
    concepts := h.ofRole strategy .concept
    participants := h.ofRole strategy .participant
    diagnostics := h.dropped strategy }

/-! ## Validation -/

theorem checkModels (h : SameLookups r r') :
    r.models.flatMap r.checkModel = [] ↔ r'.models.flatMap r'.checkModel = [] := by
  have hcheck (m : Model) : r.checkModel m = r'.checkModel m := by
    have himport : r.checkImport m.key = r'.checkImport m.key := by
      funext i
      simp only [checkImport, h.find?]
    simp only [checkModel, himport, checkReferences, checkSuperType, h.resolve?]
  simp only [List.flatMap_eq_nil_iff, hcheck, h.models.mem_iff]

theorem extends_iff (h : SameLookups r r') {a b : Located} : r.Extends a b ↔ r'.Extends a b := by
  simp only [Extends, h.declarations.mem_iff, h.resolve?]

theorem validate_eq_nil_iff (h : SameLookups r r') (hr : r.Sound) (hr' : r'.Sound) :
    r.validate = [] ↔ r'.validate = [] := by
  have hextends : r.Extends = r'.Extends := by
    funext a b
    exact propext h.extends_iff
  have hcycle : r.inheritance.cycle? = none ↔ r'.inheritance.cycle? = none := by
    rw [hr.cycle?_eq_none_iff, hr'.cycle?_eq_none_iff, hextends]
  simp only [validate, List.append_eq_nil_iff, h.checkModels, Option.toList_eq_nil_iff,
    Option.map_eq_none_iff, hcycle]

theorem sameAnswers (h : SameLookups r r') (hr : r.Sound) (hr' : r'.Sound) : SameAnswers r r' where
  findKey? := h.findKey?
  resolve? := h.resolve?
  superTypeName? := h.superTypeName?
  scalarBase? := h.scalarBase?
  allProperties := h.allProperties
  validate := h.validate_eq_nil_iff hr hr'
  roleOf := h.roleOf
  classify := h.classify

end SameLookups

end Registry

end Covenant

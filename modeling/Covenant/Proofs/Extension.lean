/-
A registry that passes validation is not disturbed by a document of a new name. What
its documents import, refer to and extend stands for the same declarations as before,
so these keep their properties and roles, and validation has nothing to report but
what the new document itself gets wrong (`Registry.register_undisturbed`).

A lookup that has found something goes on finding it, since the new document bears
none of the names that led there. Where all lookups have found something, nothing is
left that the new document could be found by. In the same way no inheritance leads
from an old declaration to a new one, and a cycle has to run among the new ones.
-/
import Covenant.Proofs.SameLookups

namespace Covenant.Registry

open Covenant.Text

/-! ## Fitting in -/

/-- A supertype of a declaration of the namespace that belongs to the namespace as well. -/
def ExtendsWithin (r : Registry) (key : String) (a b : Located) : Prop :=
  a.key = key ∧ b.key = key ∧ r.Extends a b

/-- A registered document with nothing amiss: what it imports is registered and declared, its types
and supertypes stand for something, its supertypes are of the same category, and none of its
declarations is its own ancestor within the document. -/
structure FitsIn (r : Registry) (m : Model) : Prop where
  imports : ∀ i ∈ m.imports, ∃ target, r.Finds i.target target ∧
    ∀ name ∈ i.listed, ∃ d ∈ target.declarations, d.name = name
  references : ∀ d ∈ m.declarations, ∀ typeName ∈ d.references,
    isPrimitive typeName = true ∨ ∃ found, r.resolve? m.key typeName = some found
  superTypes : ∀ d ∈ m.declarations, ∀ written, d.superType? = some written →
    ∃ found, r.resolve? m.key written = some found ∧ found.declaration.kind = d.kind
  acyclic : ∀ l, ¬ Relation.TransGen (r.ExtendsWithin m.key) l l

/-- What holds of the documents of a registry holds of them in a larger one. -/
structure Undisturbed (r r' : Registry) : Prop where
  models : ∀ m ∈ r.models, r'.model? m.key = some m
  imports : ∀ m ∈ r.models, ∀ i ∈ m.imports, r'.find? i.target = r.find? i.target
  references : ∀ l ∈ r.declarations, ∀ typeName ∈ l.declaration.references,
    r'.resolve? l.key typeName = r.resolve? l.key typeName
  superTypes : ∀ l ∈ r.declarations, r'.superType? l = r.superType? l
  allProperties : ∀ l ∈ r.declarations, r'.allProperties l = r.allProperties l
  derived : ∀ l ∈ r.declarations, ∀ p ∈ l.declaration.properties,
    r'.deriveProperty l.key p = r.deriveProperty l.key p
  roles : ∀ strategy, ∀ l ∈ r.declarations, r'.roleOf strategy l = r.roleOf strategy l

theorem checkModel_eq_nil_iff {r : Registry} {m : Model} :
    r.checkModel m = [] ↔ (∀ i ∈ m.imports, r.checkImport m.key i = []) ∧
      ∀ d ∈ m.declarations, r.checkReferences ⟨m.key, d⟩ = [] ∧
        r.checkSuperType ⟨m.key, d⟩ = [] := by
  simp only [checkModel, List.append_eq_nil_iff, List.flatMap_eq_nil_iff]

theorem Sound.fitsIn_iff {r : Registry} (h : r.Sound) {m : Model} (hm : m ∈ r.models) :
    r.FitsIn m ↔ r.checkModel m = [] ∧ ∀ l, ¬ Relation.TransGen (r.ExtendsWithin m.key) l l := by
  rw [checkModel_eq_nil_iff]
  constructor
  · intro hfits
    refine ⟨⟨fun i hi => ?_, fun d hd => ⟨?_, ?_⟩⟩, hfits.acyclic⟩
    · exact (h.checkImports_eq_nil_iff hm hi).mpr (hfits.imports i hi)
    · exact checkReferences_eq_nil_iff.mpr (hfits.references d hd)
    · exact checkSuperType_eq_nil_iff.mpr (hfits.superTypes d hd)
  · rintro ⟨⟨himports, hdeclarations⟩, hacyclic⟩
    exact {
      imports := fun i hi => (h.checkImports_eq_nil_iff hm hi).mp (himports i hi)
      references := fun d hd => checkReferences_eq_nil_iff.mp (hdeclarations d hd).1
      superTypes := fun d hd => checkSuperType_eq_nil_iff.mp (hdeclarations d hd).2
      acyclic := hacyclic }

/-! ## One more document -/

/-- `r'` is `r` with one more document, whose name is new. -/
structure Extension (r r' : Registry) (m : Model) : Prop where
  sound : r.Sound
  sound' : r'.Sound
  models : r'.models = r.models ++ [m]
  fresh : ∀ old ∈ r.models, old.id.name ≠ m.id.name

theorem Sound.extension {r r' : Registry} {text name : String} {m : Model} (h : r.Sound)
    (hregister : r.register text name = .ok (.added m, r'))
    (fresh : ∀ old ∈ r.models, old.id.name ≠ m.id.name) : Extension r r' m := by
  refine ⟨h, h.register hregister, ?_, fresh⟩
  obtain ⟨m', -, -, ⟨_, _, _, ⟨⟩, _⟩ | ⟨-, hadded, rfl⟩⟩ := register_cases hregister
  cases hadded
  simp [Registry.models]

namespace Extension

variable {r r' : Registry} {m : Model}

theorem mem_models (h : Extension r r' m) {other : Model} :
    other ∈ r'.models ↔ other ∈ r.models ∨ other = m := by
  rw [h.models, List.mem_append, List.mem_singleton]

theorem mem_declarations (h : Extension r r' m) {l : Located} :
    l ∈ r'.declarations ↔ l ∈ r.declarations ∨ l.key = m.key ∧ l.declaration ∈ m.declarations := by
  simp only [Registry.mem_declarations, h.mem_models, or_and_right, exists_or, exists_eq_left]

/-! ## Lookups -/

theorem model? (h : Extension r r' m) {old : Model} (hold : old ∈ r.models) :
    r'.model? old.key = some old :=
  h.sound'.model?_eq_some_iff.mpr ⟨h.mem_models.mpr (.inl hold), rfl⟩

theorem finds (h : Extension r r' m) {id : Namespace} {target : Model}
    (hfinds : r.Finds id target) :
    r'.Finds id target := by
  cases hfinds with
  | exact hm hversion he => exact .exact (h.mem_models.mpr (.inl hm)) hversion he
  | @first before after hnone hmodels hbefore hname =>
    have htarget : target ∈ r.models := by simp [hmodels]
    have hmodels' : r'.models = before ++ target :: (after ++ [m]) := by
      rw [h.models, hmodels, List.append_assoc, List.cons_append]
    refine .first (fun other hother hversion => ?_) hmodels' hbefore hname
    rcases h.mem_models.mp hother with hold | rfl
    · exact hnone other hold hversion
    · rintro rfl
      exact h.fresh target htarget hname

theorem find? (h : Extension r r' m) {id : Namespace} (hid : '@' ∉ id.name.toList) {target : Model}
    (hfound : r.find? id = some target) : r'.find? id = some target :=
  (h.sound'.find?_eq_some_iff hid).mpr (h.finds ((h.sound.find?_eq_some_iff hid).mp hfound))

theorem resolveQualified? (h : Extension r r' m) {typeName : String} {found : Located}
    (hfound : r.resolveQualified? typeName = some found) :
    r'.resolveQualified? typeName = some found := by
  obtain ⟨target, htarget, hlocated⟩ := Option.bind_eq_some_iff.mp hfound
  have hat : '@' ∉ (namespaceOf (beforeLast '.' typeName)).name.toList := by
    intro hmem
    simp only [namespaceOf, beforeFirst, String.toList_ofList] at hmem
    simpa using List.all_eq_true.mp List.all_takeWhile _ hmem
  exact Option.bind_eq_some_iff.mpr ⟨target, h.find? hat htarget, hlocated⟩

/-- A short name is looked up among the same declarations if all imports had been found. -/
theorem resolveShort? (h : Extension r r' m) {old : Model} (hold : old ∈ r.models)
    (himports : ∀ i ∈ old.imports, r'.find? i.target = r.find? i.target) (name : String) :
    r'.resolveShort? old.key name = r.resolveShort? old.key name := by
  have hhere : r.model? old.key = some old := h.sound.model?_eq_some_iff.mpr ⟨hold, rfl⟩
  have himported : old.imports.findSome? (r'.resolveImported? name) =
      old.imports.findSome? (r.resolveImported? name) := by
    rw [← List.head?_filterMap, ← List.head?_filterMap]
    refine congrArg List.head? (List.filterMap_congr fun i hi => ?_)
    rw [resolveImported?, resolveImported?, himports i hi]
  simp only [Registry.resolveShort?, h.model? hold, hhere, himported]

theorem resolve? (h : Extension r r' m) {old : Model} (hold : old ∈ r.models)
    (himports : ∀ i ∈ old.imports, r'.find? i.target = r.find? i.target) {typeName : String}
    (hfound : isPrimitive typeName = true ∨ ∃ found, r.resolve? old.key typeName = some found) :
    r'.resolve? old.key typeName = r.resolve? old.key typeName := by
  unfold Registry.resolve? at hfound ⊢
  split_ifs at hfound ⊢ with hprimitive hqualified
  · rfl
  · obtain hprimitive' | ⟨found, hfound⟩ := hfound
    · exact absurd hprimitive' hprimitive
    · rw [hfound, h.resolveQualified? hfound]
  · exact h.resolveShort? hold himports typeName

/-! ## Old documents -/

theorem imports (h : Extension r r' m) (hvalid : r.validate = []) {old : Model}
    (hold : old ∈ r.models) {i : Import} (hi : i ∈ old.imports) :
    r'.find? i.target = r.find? i.target := by
  have hcheck :=
    (checkModel_eq_nil_iff.mp ((h.sound.validate_eq_nil_iff.mp hvalid).1 old hold)).1 i hi
  obtain ⟨target, htarget, -⟩ := checkImport_eq_nil_iff.mp hcheck
  have hat : '@' ∉ i.target.name.toList :=
    ((h.sound.wellFormed hold).imports i hi).target.name.not_mem (by decide) (by decide) (by decide)
  rw [htarget, h.find? hat htarget]

theorem resolve?_of_mem (h : Extension r r' m) (hvalid : r.validate = []) {l : Located}
    (hl : l ∈ r.declarations) {typeName : String}
    (hfound : isPrimitive typeName = true ∨ ∃ found, r.resolve? l.key typeName = some found) :
    r'.resolve? l.key typeName = r.resolve? l.key typeName := by
  obtain ⟨old, hold, hkey, -⟩ := Registry.mem_declarations.mp hl
  rw [hkey] at hfound ⊢
  exact h.resolve? hold (fun i hi => h.imports hvalid hold hi) hfound

theorem references (h : Extension r r' m) (hvalid : r.validate = []) {l : Located}
    (hl : l ∈ r.declarations) {typeName : String} (ht : typeName ∈ l.declaration.references) :
    r'.resolve? l.key typeName = r.resolve? l.key typeName :=
  h.resolve?_of_mem hvalid hl (checkReferences_eq_nil_iff.mp (checks_eq_nil hvalid hl).1 _ ht)

theorem superTypes (h : Extension r r' m) (hvalid : r.validate = []) {l : Located}
    (hl : l ∈ r.declarations) : r'.superType? l = r.superType? l := by
  unfold superType?
  cases hwritten : l.declaration.superType? with
  | none => rw [Option.bind_none, Option.bind_none]
  | some written =>
    obtain ⟨found, hfound, -⟩ :=
      checkSuperType_eq_nil_iff.mp (checks_eq_nil hvalid hl).2 written hwritten
    rw [Option.bind_some, Option.bind_some]
    exact h.resolve?_of_mem hvalid hl (.inr ⟨found, hfound⟩)

theorem lineage (h : Extension r r' m) (hvalid : r.validate = []) {l : Located}
    (hl : l ∈ r.declarations) : r'.lineage l = r.lineage l := by
  have hsame := ancestorsFrom_congr (p := (· ∈ r.declarations)) superType?_mem
    (fun hl => (h.superTypes hvalid hl).symm) [l.fullName] hl
  rw [Registry.lineage, Registry.lineage, hsame]

theorem superTypeNames (h : Extension r r' m) (hvalid : r.validate = []) {l : Located}
    (hl : l ∈ r.declarations) : r'.superTypeNames l = r.superTypeNames l :=
  (superTypeNamesFrom_congr (p := (· ∈ r.declarations)) superType?_mem
    (fun hl => (h.superTypes hvalid hl).symm) [] hl).symm

theorem derived (h : Extension r r' m) (hvalid : r.validate = []) {l : Located}
    (hl : l ∈ r.declarations) {p : Property} (hp : p ∈ l.declaration.properties) :
    r'.deriveProperty l.key p = r.deriveProperty l.key p := by
  have hreference : p.typeName ∈ l.declaration.references := by
    unfold Declaration.properties at hp
    unfold Declaration.references
    cases hbody : l.declaration.body with
    | classBody body =>
      rw [hbody] at hp
      exact List.mem_map_of_mem hp
    | enumeration | scalar | map =>
      rw [hbody] at hp
      cases hp
  simp only [deriveProperty, scalarBase?, h.references hvalid hl hreference]

theorem undisturbed (h : Extension r r' m) (hvalid : r.validate = []) : Undisturbed r r' where
  models _ := h.model?
  imports _ hold _ := h.imports hvalid hold
  references _ hl _ := h.references hvalid hl
  superTypes _ := h.superTypes hvalid
  allProperties _ hl := by simp only [allProperties, implicitProperties, h.lineage hvalid hl]
  derived _ hl _ := h.derived hvalid hl
  roles _ _ hl := by simp only [roleOf, h.superTypeNames hvalid hl]

/-! ## Validation -/

/-- The checks of an old document find what they found before. -/
theorem checkModel_eq_nil (h : Extension r r' m) (hvalid : r.validate = []) {old : Model}
    (hold : old ∈ r.models) : r'.checkModel old = [] := by
  have hbefore := (h.sound.validate_eq_nil_iff.mp hvalid).1 old hold
  rw [checkModel_eq_nil_iff] at hbefore ⊢
  refine ⟨fun i hi => ?_, fun d hd => ?_⟩
  · rw [checkImport, h.imports hvalid hold hi]
    exact hbefore.1 i hi
  · have hl : (⟨old.key, d⟩ : Located) ∈ r.declarations :=
      Registry.mem_declarations.mpr ⟨old, hold, rfl, hd⟩
    obtain ⟨hreferences, hsuper⟩ := hbefore.2 d hd
    rw [checkReferences_eq_nil_iff] at hreferences ⊢
    rw [checkSuperType_eq_nil_iff] at hsuper ⊢
    constructor
    · intro typeName ht
      rw [h.references hvalid hl ht]
      exact hreferences typeName ht
    · intro written hwritten
      obtain ⟨found, hfound, hkind⟩ := hsuper written hwritten
      exact ⟨found, (h.resolve?_of_mem hvalid hl (.inr ⟨found, hfound⟩)).trans hfound, hkind⟩

theorem extends_iff (h : Extension r r' m) (hvalid : r.validate = []) {a b : Located}
    (ha : a ∈ r.declarations) : r'.Extends a b ↔ r.Extends a b := by
  have hsame := h.superTypes hvalid ha
  simp only [Extends, ← superType?_eq_some_iff, hsame, ha, h.mem_declarations, true_or]

/-- Ancestors of old declarations are old. -/
theorem transGen_old (h : Extension r r' m) (hvalid : r.validate = []) {a b : Located}
    (hab : Relation.TransGen r'.Extends a b) (ha : a ∈ r.declarations) :
    Relation.TransGen r.Extends a b ∧ b ∈ r.declarations := by
  induction hab with
  | single hstep =>
    have hold := (h.extends_iff hvalid ha).mp hstep
    exact ⟨.single hold, hold.mem.2⟩
  | tail _ hstep ih =>
    have hold := (h.extends_iff hvalid ih.2).mp hstep
    exact ⟨ih.1.tail hold, hold.mem.2⟩

/-- So a new declaration is an ancestor of new ones only, by way of new ones. -/
theorem transGen_new (h : Extension r r' m) (hvalid : r.validate = []) {a b : Located}
    (hab : Relation.TransGen r'.Extends a b) (hb : b ∉ r.declarations) :
    Relation.TransGen (r'.ExtendsWithin m.key) a b := by
  have hwithin {a b : Located} (hstep : r'.Extends a b) (hb : b ∉ r.declarations) :
      a ∉ r.declarations ∧ r'.ExtendsWithin m.key a b := by
    have ha : a ∉ r.declarations := fun ha => hb ((h.extends_iff hvalid ha).mp hstep).mem.2
    have hkey {l : Located} (hl : l ∈ r'.declarations) (hnew : l ∉ r.declarations) :
        l.key = m.key := ((h.mem_declarations.mp hl).resolve_left hnew).1
    exact ⟨ha, hkey hstep.mem.1 ha, hkey hstep.mem.2 hb, hstep⟩
  induction hab with
  | single hstep => exact .single (hwithin hstep hb).2
  | tail _ hstep ih =>
    obtain ⟨hnew, hlast⟩ := hwithin hstep hb
    exact (ih hnew).tail hlast

theorem acyclic_iff (h : Extension r r' m) (hvalid : r.validate = []) :
    (∀ l, ¬ Relation.TransGen r'.Extends l l) ↔
      ∀ l, ¬ Relation.TransGen (r'.ExtendsWithin m.key) l l := by
  constructor
  · intro hacyclic l hcycle
    exact hacyclic l (Relation.TransGen.mono (fun _ _ hstep => hstep.2.2) l l hcycle)
  · intro hacyclic l hcycle
    by_cases hl : l ∈ r.declarations
    · exact (h.sound.validate_eq_nil_iff.mp hvalid).2 l (h.transGen_old hvalid hcycle hl).1
    · exact hacyclic l (h.transGen_new hvalid hcycle hl)

theorem validate_eq_nil_iff (h : Extension r r' m) (hvalid : r.validate = []) :
    r'.validate = [] ↔ r'.FitsIn m := by
  have hm : m ∈ r'.models := h.mem_models.mpr (.inr rfl)
  rw [h.sound'.validate_eq_nil_iff, h.sound'.fitsIn_iff hm, h.acyclic_iff hvalid]
  refine and_congr_left fun _ => ⟨fun hchecks => hchecks m hm, fun hcheck other hother => ?_⟩
  rcases h.mem_models.mp hother with hold | rfl
  · exact h.checkModel_eq_nil hvalid hold
  · exact hcheck

end Extension

/-- If a document of a new name is registered beside documents that pass validation, these are not
disturbed, and all of them pass if and only if the new one fits in. -/
theorem register_undisturbed {r r' : Registry} {text name : String} {m : Model} (hr : r.Reachable)
    (hvalid : r.validate = []) (hregister : r.register text name = .ok (.added m, r'))
    (fresh : m.id.name ∉ r.models.map (·.id.name)) :
    Undisturbed r r' ∧ (r'.validate = [] ↔ r'.FitsIn m) := by
  have hextension : Extension r r' m :=
    hr.sound.extension hregister fun old hold hname => fresh (List.mem_map.mpr ⟨old, hold, hname⟩)
  exact ⟨hextension.undisturbed hvalid, hextension.validate_eq_nil_iff hvalid⟩

/-- Beside a document that falls back on another version of `a`, two more are tried: one that
extends what is there, and one whose declarations extend each other under names that `a` and `b` use
too. -/
theorem register_undisturbed_cycle :
    ∃ (r fitting cyclic : Registry) (c d : Model),
      r.Reachable ∧ r.keys = ["a@1.0.0", "b"] ∧ r.validate = [] ∧
      r.register "namespace c import b.* concept C extends B \x7b\x7d" "c.cto" =
        .ok (.added c, fitting) ∧
      Undisturbed r fitting ∧ fitting.validate = [] ∧ fitting.FitsIn c ∧
      r.register "namespace d concept A extends B \x7b\x7d concept B extends A \x7b\x7d" "d.cto"
        = .ok (.added d, cyclic) ∧
      Undisturbed r cyclic ∧ cyclic.validate ≠ [] ∧ ¬ cyclic.FitsIn d := by
  let a : Model := {
    id := ⟨"a", some "1.0.0"⟩
    declarations := [⟨"A", .classBody { kind := .concept }, []⟩] }
  let b : Model := {
    id := ⟨"b", none⟩
    imports := [⟨⟨"a", some "2.0"⟩, .types ["A"], none⟩]
    declarations := [⟨"B", .classBody { kind := .concept, superType? := some "A" }, []⟩] }
  let c : Model := {
    id := ⟨"c", none⟩
    imports := [⟨⟨"b", none⟩, .wildcard, none⟩]
    declarations := [⟨"C", .classBody { kind := .concept, superType? := some "B" }, []⟩] }
  let dA : Declaration := ⟨"A", .classBody { kind := .concept, superType? := some "B" }, []⟩
  let dB : Declaration := ⟨"B", .classBody { kind := .concept, superType? := some "A" }, []⟩
  let d : Model := { id := ⟨"d", none⟩, declarations := [dA, dB] }
  let textA := "namespace a@1.0.0 concept A \x7b\x7d"
  let textB := "namespace b import a@2.0.A concept B extends A \x7b\x7d"
  let textC := "namespace c import b.* concept C extends B \x7b\x7d"
  let textD := "namespace d concept A extends B \x7b\x7d concept B extends A \x7b\x7d"
  let r : Registry := ⟨[⟨a, "a.cto", textA⟩, ⟨b, "b.cto", textB⟩]⟩
  let fitting : Registry := ⟨r.entries ++ [⟨c, "c.cto", textC⟩]⟩
  let cyclic : Registry := ⟨r.entries ++ [⟨d, "d.cto", textD⟩]⟩
  have hfirst :
      Registry.empty.register textA "a.cto" = .ok (.added a, ⟨[⟨a, "a.cto", textA⟩]⟩) := by
    decide +kernel
  have hsecond :
      (⟨[⟨a, "a.cto", textA⟩]⟩ : Registry).register textB "b.cto" = .ok (.added b, r) := by
    decide +kernel
  have hreachable : r.Reachable := (Reachable.empty.register hfirst).register hsecond
  have hinheritance : r.inheritance.entries = [("b.B", ["a@1.0.0.A"])] := by decide +kernel
  have hvalid : r.validate = [] := by
    have hcycle : r.inheritance.cycle? = none := by
      simp [Graph.cycle?, Graph.nodes, Graph.neighbours, List.lookup_cons,
        hinheritance, Graph.explore]
    rw [validate, hcycle]
    decide +kernel
  have hfits : r.register textC "c.cto" = .ok (.added c, fitting) := by decide +kernel
  have hfitting := register_undisturbed hreachable hvalid hfits (by decide)
  have hvalid' : fitting.validate = [] := by
    have hinheritance' :
      fitting.inheritance.entries = [("b.B", ["a@1.0.0.A"]), ("c.C", ["b.B"])] := by
      decide +kernel
    have hcycle : fitting.inheritance.cycle? = none := by
      simp [Graph.cycle?, Graph.nodes, Graph.neighbours, List.lookup_cons,
        hinheritance', Graph.explore]
    rw [validate, hcycle]
    decide +kernel
  have hturns : r.register textD "d.cto" = .ok (.added d, cyclic) := by decide +kernel
  have hcyclic := register_undisturbed hreachable hvalid hturns (by decide)
  have hcycle : ¬ cyclic.FitsIn d := by
    intro hfits
    have hup : cyclic.ExtendsWithin "d" ⟨"d", dA⟩ ⟨"d", dB⟩ :=
      ⟨rfl, rfl, by decide +kernel, "B", rfl, by decide +kernel⟩
    have hdown : cyclic.ExtendsWithin "d" ⟨"d", dB⟩ ⟨"d", dA⟩ :=
      ⟨rfl, rfl, by decide +kernel, "A", rfl, by decide +kernel⟩
    exact hfits.acyclic ⟨"d", dA⟩ ((Relation.TransGen.single hup).tail hdown)
  exact ⟨r, fitting, cyclic, c, d, hreachable, by decide +kernel, hvalid, hfits,
    hfitting.1, hvalid', hfitting.2.mp hvalid', hturns, hcyclic.1,
      fun hnil => hcycle (hcyclic.2.mp hnil), hcycle⟩

end Covenant.Registry

/-
Whether a module can name the types of its fields. A module names what its own namespace
declares, and brings in the namespaces that its document imports, a line for each and no
other. Its structs have fields for inherited properties too, and types may be written with
their namespace, which needs no import. So the types of all fields can be named if and only
if the imports of the document lead to the namespaces of the types that it writes out in full
and of those that its structs inherit from other namespaces (`Crate.module_closed_iff`). A
short name that the document itself uses is never out of reach.
-/
import Covenant.Crate.Module
import Covenant.Proofs.Lineage

namespace Covenant

open Covenant.Text Relation

namespace Registry

/-! ## What a document leads to -/

/-- The namespace is the document's own or one that an import of it finds. -/
def Reaches (r : Registry) (m : Model) (key : String) : Prop :=
  key = m.key ∨ ∃ i ∈ m.imports, r.findKey? i.target = some key

instance (r : Registry) (m : Model) (key : String) : Decidable (r.Reaches m key) :=
  inferInstanceAs (Decidable (_ ∨ ∃ i ∈ m.imports, r.findKey? i.target = some key))

theorem located_mem {r : Registry} {m : Model} (hm : m ∈ r.models) {d : Declaration}
    (hd : d ∈ m.declarations) : ⟨m.key, d⟩ ∈ r.declarations :=
  mem_declarations.mpr ⟨m, hm, rfl, hd⟩

/-- A short name stands for a declaration of the document or of a namespace that it imports. -/
theorem Sound.reaches_of_resolve? {r : Registry} (h : r.Sound) {m : Model} (hm : m ∈ r.models)
    {typeName : String} (hshort : isQualified typeName = false) {found : Located}
    (hfound : r.resolve? m.key typeName = some found) : r.Reaches m found.key := by
  unfold resolve? at hfound
  split at hfound
  · cases hfound
  · rw [if_neg (by simp [hshort])] at hfound
    unfold resolveShort? at hfound
    rw [h.model?_eq_some_iff.mpr ⟨hm, rfl⟩] at hfound
    cases hlocal : m.find? typeName with
    | some declaration =>
      simp only [hlocal] at hfound
      cases hfound
      exact .inl rfl
    | none =>
      simp only [hlocal] at hfound
      obtain ⟨_, i, _, hi, himported, -⟩ := List.findSome?_eq_some_iff.mp hfound
      unfold resolveImported? at himported
      split at himported
      · obtain ⟨target, htarget, hlocated⟩ := Option.bind_eq_some_iff.mp himported
        refine .inr ⟨i, by simp [hi], ?_⟩
        rw [findKey?, htarget, key_of_locate? hlocated]
        rfl
      · cases himported

/-- In documents without faults every type of a property is primitive or stands for something. -/
theorem resolves_of_validate {r : Registry} (h : r.validate = []) {l : Located}
    (hl : l ∈ r.declarations) {p : Property} (hp : p ∈ l.declaration.properties) :
    isPrimitive p.typeName = true ∨ ∃ found, r.resolve? l.key p.typeName = some found := by
  refine checkReferences_eq_nil_iff.mp (checks_eq_nil h hl).1 p.typeName ?_
  unfold Declaration.properties at hp
  unfold Declaration.references
  cases hbody : l.declaration.body with
  | classBody body =>
    rw [hbody] at hp
    exact List.mem_map_of_mem hp
  | enumeration | scalar | map =>
    rw [hbody] at hp
    cases hp

theorem isPrimitive_eq_false_of_resolve? {r : Registry} {key typeName : String} {found : Located}
    (h : r.resolve? key typeName = some found) : isPrimitive typeName = false := by
  unfold resolve? at h
  split at h
  · cases h
  · rename_i hprimitive
    simpa using hprimitive

end Registry

namespace Crate

/-! ## What a module brings in -/

/-- The line brings in a namespace. -/
def isUseLine (line : String) : Bool :=
  line.startsWith "use crate::"

theorem mem_distinct_iff {taken keys : List String} {key : String} :
    key ∈ distinct taken keys ↔ key ∈ keys ∧ key ∉ taken := by
  induction keys generalizing taken with
  | nil => simp [distinct]
  | cons first keys ih =>
    unfold distinct
    split
    · rename_i hfirst
      rw [ih, List.mem_cons]
      constructor
      · rintro ⟨hkey, htaken⟩
        exact ⟨.inr hkey, htaken⟩
      · rintro ⟨rfl | hkey, htaken⟩
        · exact absurd hfirst htaken
        · exact ⟨hkey, htaken⟩
    · rename_i hfirst
      rw [List.mem_cons, ih, List.mem_cons, List.mem_cons]
      by_cases hkey : key = first
      · simp [hkey, hfirst]
      · simp [hkey]

/-- The namespaces whose types a module can name are those that the document leads to. -/
theorem mem_visible_iff {r : Registry} {m : Model} {key : String} :
    key ∈ m.key :: importedKeys r m ↔ r.Reaches m key := by
  unfold importedKeys Registry.Reaches
  rw [List.mem_cons, mem_distinct_iff, List.mem_filterMap, List.mem_singleton]
  by_cases hkey : key = m.key <;> simp [hkey]

theorem isUseLine_eq_false {line : String} (h : line.toList.head? ≠ some 'u') :
    isUseLine line = false := by
  rw [isUseLine, String.startsWith_string_eq_false_iff]
  rintro ⟨rest, hline⟩
  rw [← hline] at h
  simp at h

theorem isUseLine_useLine (key : String) : isUseLine (useLine key) = true := by
  rw [isUseLine, String.startsWith_string_iff]
  exact ⟨(Target.namespaceModule key ++ "::*;").toList, by simp [useLine, toString]⟩

/-- No line of a declaration looks like one that brings in a namespace. -/
theorem isUseLine_declarationLines {r : Registry} {l : Located} :
    ∀ line ∈ declarationLines r l, isUseLine line = false := by
  have hfield (f : StructField) : ∀ line ∈ f.lines, line.toList.head? ≠ some 'u' := by
    unfold StructField.lines
    split <;> simp [toString]
  have hvalues (values : List String) : ∀ line ∈ enumValueLines values,
    line.toList.head? ≠ some 'u' := by
    unfold enumValueLines
    split
    · simp
    · rw [List.forall_mem_cons, List.forall_mem_map]
      exact ⟨by simp, fun value _ => by simp [toString]⟩
  suffices h : ∀ line ∈ declarationLines r l, line.toList.head? ≠ some 'u' from
    fun line hline => isUseLine_eq_false (h line hline)
  unfold declarationLines
  split
  · simp only [structLines, List.forall_mem_append, List.forall_mem_flatMap]
    exact ⟨⟨by simp [toString], fun f _ => hfield f⟩, by simp⟩
  · simp only [enumLines, List.forall_mem_append]
    exact ⟨⟨by simp [toString], hvalues _⟩, by simp⟩
  · simp [toString]
  · simp [toString]

/-- A module has a line for every namespace that it brings in, and no other such line. -/
theorem filter_moduleLines (r : Registry) (m : Model) :
    (moduleLines r m).filter isUseLine = (importedKeys r m).map useLine := by
  have hnone {lines : List String} (h : ∀ line ∈ lines, isUseLine line = false) :
      lines.filter isUseLine = [] := List.filter_eq_nil_iff.mpr (by simpa using h)
  have hfirst : isUseLine s!"// Generated by ctogen from namespace {m.key}." = false :=
    isUseLine_eq_false (by simp [toString])
  have hheader : ∀ line ∈ ["#![allow(unused_imports)]", "", "use chrono::\x7bDateTime, Utc\x7d;",
      "use serde::\x7bDeserialize, Serialize\x7d;", "use std::collections::HashMap;"],
      isUseLine line = false := by
    simp only [isUseLine, String.startsWith_string_eq_false_iff]
    decide
  have huse : ∀ line ∈ (importedKeys r m).map useLine, isUseLine line = true := by
    rw [List.forall_mem_map]
    exact fun key _ => isUseLine_useLine key
  have hdeclarations : ∀ line ∈ m.declarations.flatMap
      (fun d => "" :: declarationLines r ⟨m.key, d⟩), isUseLine line = false := by
    simp only [List.forall_mem_flatMap, List.forall_mem_cons]
    exact fun d _ => ⟨isUseLine_eq_false (by simp), isUseLine_declarationLines⟩
  calc (moduleLines r m).filter isUseLine
      = [] ++ (importedKeys r m).map useLine ++ [] := by
        unfold moduleLines
        rw [List.filter_append, List.filter_append,
          hnone (List.forall_mem_cons.mpr ⟨hfirst, hheader⟩), hnone hdeclarations]
        exact congrArg ([] ++ · ++ []) (List.filter_eq_self.mpr huse)
    _ = (importedKeys r m).map useLine := by simp

/-! ## What a module needs -/

/-- The module can name the type of every field of its structs: the type is primitive or stands,
where its property is declared, for a declaration of the module's own namespace or of one that the
module brings in. Relationships are held as texts. -/
def Closed (r : Registry) (m : Model) : Prop :=
  ∀ d ∈ m.declarations, ∀ f ∈ structFields r ⟨m.key, d⟩, f.property.isRelationship = false →
    isPrimitive f.property.typeName = false →
    ∀ a, ReflTransGen r.Extends ⟨m.key, d⟩ a → f.property ∈ a.declaration.properties →
      ∃ found, r.resolve? a.key f.property.typeName = some found ∧
        found.key ∈ m.key :: importedKeys r m

/-- The document leads to the namespaces of the types that its structs need beyond the short names
of its own properties. -/
structure ImportsSuffice (r : Registry) (m : Model) : Prop where
  /-- The types that it writes with their namespaces. -/
  qualified : ∀ d ∈ m.declarations, ∀ p ∈ d.properties, p.isRelationship = false →
    isQualified p.typeName = true →
    ∀ found, r.resolve? m.key p.typeName = some found → r.Reaches m found.key
  /-- The types of properties that are inherited from other namespaces. -/
  inherited : ∀ d ∈ m.declarations, ∀ a, ReflTransGen r.Extends ⟨m.key, d⟩ a → a.key ≠ m.key →
    ∀ p ∈ a.declaration.properties, p.isRelationship = false →
    ∀ found, r.resolve? a.key p.typeName = some found → r.Reaches m found.key

section

variable {r : Registry} {m : Model}

theorem structField_mem (h : r.Sound) {l a : Located} (hl : l ∈ r.declarations)
    (ha : ReflTransGen r.Extends l a) {p : Property} (hp : p ∈ a.declaration.properties) :
    structField p ∈ structFields r l := by
  have hlineage : a ∈ (r.lineage l).reverse := List.mem_reverse.mpr ((h.mem_lineage_iff hl).mpr ha)
  unfold structFields Registry.allProperties
  exact List.mem_map_of_mem (List.mem_append_right _ (List.mem_flatMap.mpr ⟨a, hlineage, hp⟩))

theorem Closed.reaches (h : r.Sound) (hm : m ∈ r.models) (hclosed : Closed r m) {d : Declaration}
    (hd : d ∈ m.declarations) {a : Located}
    (ha : ReflTransGen r.Extends ⟨m.key, d⟩ a) {p : Property}
    (hp : p ∈ a.declaration.properties) (hvalue : p.isRelationship = false) {found : Located}
    (hfound : r.resolve? a.key p.typeName = some found) : r.Reaches m found.key := by
  have hl := Registry.located_mem hm hd
  obtain ⟨found', hfound', hvisible⟩ := hclosed d hd _ (structField_mem h hl ha hp) hvalue
    (Registry.isPrimitive_eq_false_of_resolve? hfound) a ha hp
  obtain rfl : found = found' := Option.some.inj (hfound.symm.trans hfound')
  exact mem_visible_iff.mp hvisible

theorem ImportsSuffice.reaches (h : r.Sound) (hm : m ∈ r.models) (hsuffice : ImportsSuffice r m)
    {d : Declaration} (hd : d ∈ m.declarations) {a : Located}
    (ha : ReflTransGen r.Extends ⟨m.key, d⟩ a) {p : Property} (hp : p ∈ a.declaration.properties)
    (hvalue : p.isRelationship = false) {found : Located}
    (hfound : r.resolve? a.key p.typeName = some found) : r.Reaches m found.key := by
  by_cases hkey : a.key = m.key
  · -- the ancestor is a declaration of the same document
    have hl := Registry.located_mem hm hd
    obtain ⟨m', hm', hkey', hd'⟩ :=
      Registry.mem_declarations.mp (Registry.mem_declarations_of_reflTransGen hl ha)
    obtain rfl : m' = m := h.eq_of_key hm' hm (hkey'.symm.trans hkey)
    rw [hkey] at hfound
    cases hshort : isQualified p.typeName with
    | true => exact hsuffice.qualified a.declaration hd' p hp hvalue hshort found hfound
    | false => exact h.reaches_of_resolve? hm hshort hfound
  · exact hsuffice.inherited d hd a ha hkey p hp hvalue found hfound

/-- A module brings in the namespaces that its document imports, with a line for each. It can name
the types of all fields of its structs if and only if these, and its own namespace, hold the types
that the document writes with their namespaces and those of properties inherited from other
namespaces. -/
theorem module_closed_iff (hr : r.Reachable) (hvalid : r.validate = []) (hm : m ∈ r.models) :
    (moduleLines r m).filter isUseLine = (importedKeys r m).map useLine ∧
      (Closed r m ↔ ImportsSuffice r m) := by
  have h := hr.sound
  refine ⟨filter_moduleLines r m, fun hclosed => ⟨?_, ?_⟩, fun hsuffice => ?_⟩
  · intro d hd p hp hvalue _ found hfound
    exact hclosed.reaches h hm hd .refl hp hvalue hfound
  · intro d hd a ha _ p hp hvalue found hfound
    exact hclosed.reaches h hm hd ha hp hvalue hfound
  · intro d hd f hf hvalue hprimitive a ha hp
    have hl := Registry.located_mem hm hd
    have hdeclared := Registry.mem_declarations_of_reflTransGen hl ha
    rcases Registry.resolves_of_validate hvalid hdeclared hp with hprimitive' | ⟨found, hfound⟩
    · rw [hprimitive] at hprimitive'
      cases hprimitive'
    · exact ⟨found, hfound, mem_visible_iff.mpr (hsuffice.reaches h hm hd ha hp hvalue hfound)⟩

end

/-- A document with one concept. -/
def conceptModel (name : String) (imports : List Import) (concept : String)
    (superType? : Option String) (properties : List Property) : Model where
  id := ⟨name, none⟩
  imports
  declarations := [⟨concept, .classBody { kind := .concept, superType?, properties }, []⟩]

def importOf (name typeName : String) : Import where
  target := ⟨name, none⟩
  scope := .types [typeName]

/-- `b` uses a type of `a` that it imports. -/
def importingModel : Model :=
  conceptModel "b" [importOf "a" "T"] "B" none [{ name := "t", typeName := "T" }]

/-- `c` inherits the property of that type, and imports only what it extends. -/
def inheritingModel : Model :=
  conceptModel "c" [importOf "b" "B"] "C" (some "B") []

/-- `d` writes the type with its namespace and imports nothing. -/
def qualifyingModel : Model :=
  conceptModel "d" [] "D" none [{ name := "t", typeName := "a.T" }]

def scopeRegistry : Registry where
  entries :=
    [⟨conceptModel "a" [] "T" none [], "a.cto", "namespace a concept T \x7b\x7d"⟩,
     ⟨importingModel, "b.cto", "namespace b import a.T concept B \x7bo T t\x7d"⟩,
     ⟨inheritingModel, "c.cto", "namespace c import b.B concept C extends B \x7b\x7d"⟩,
     ⟨qualifyingModel, "d.cto", "namespace d concept D \x7bo a.T t\x7d"⟩]

/-- All of them pass validation, but only the first can name the type of its field. -/
theorem module_closed_iff_scope :
    scopeRegistry.Reachable ∧ scopeRegistry.validate = [] ∧
      Closed scopeRegistry importingModel ∧
      (moduleLines scopeRegistry inheritingModel).filter isUseLine = ["use crate::b::*;"] ∧
      ¬ Closed scopeRegistry inheritingModel ∧ ¬ Closed scopeRegistry qualifyingModel := by
  let r := scopeRegistry
  have hfirst : Registry.empty.register "namespace a concept T \x7b\x7d" "a.cto" =
      .ok (.added (conceptModel "a" [] "T" none []), ⟨r.entries.take 1⟩) := by decide +kernel
  have hsecond : (⟨r.entries.take 1⟩ : Registry).register
      "namespace b import a.T concept B \x7bo T t\x7d" "b.cto" =
      .ok (.added importingModel, ⟨r.entries.take 2⟩) := by decide +kernel
  have hthird : (⟨r.entries.take 2⟩ : Registry).register
      "namespace c import b.B concept C extends B \x7b\x7d" "c.cto" =
      .ok (.added inheritingModel, ⟨r.entries.take 3⟩) := by decide +kernel
  have hfourth : (⟨r.entries.take 3⟩ : Registry).register
      "namespace d concept D \x7bo a.T t\x7d" "d.cto" = .ok (.added qualifyingModel, r) := by
    decide +kernel
  have hreachable : r.Reachable :=
    (((Registry.Reachable.empty.register hfirst).register hsecond).register hthird).register hfourth
  have hvalidate : r.validate = [] :=
    Registry.validate_eq_nil_of_flat (by decide +kernel) (by decide +kernel)
  let field : Property := { name := "t", typeName := "T" }
  let base : Located := ⟨"b", ⟨"B", .classBody { kind := .concept, properties := [field] }, []⟩⟩
  let target : Located := ⟨"a", ⟨"T", .classBody { kind := .concept }, []⟩⟩
  have hb : importingModel ∈ r.models := by decide +kernel
  have hc : inheritingModel ∈ r.models := by decide +kernel
  have hd : qualifyingModel ∈ r.models := by decide +kernel
  refine ⟨hreachable, hvalidate, (module_closed_iff hreachable hvalidate hb).2.mpr ⟨?_, ?_⟩, ?_,
    fun hclosed => ?_, fun hclosed => ?_⟩
  · intro d hd p hp _ hqualified
    obtain rfl := List.mem_singleton.mp hd
    obtain rfl := List.mem_singleton.mp hp
    exact absurd hqualified (by decide)
  · intro d hd a ha hkey
    obtain rfl := List.mem_singleton.mp hd
    have hroot : r.superType? base = none := by decide +kernel
    rcases ha.cases_head with rfl | ⟨next, hextends, -⟩
    · exact absurd rfl hkey
    · exact absurd (hroot.symm.trans hextends.superType?) (by simp)
  · rw [(module_closed_iff hreachable hvalidate hc).1]
    decide +kernel
  · have hsuffice := (module_closed_iff hreachable hvalidate hc).2.mp hclosed
    have hderived : _ ∈ inheritingModel.declarations := List.mem_singleton_self _
    have hextends : r.Extends ⟨"c", _⟩ base :=
      Registry.extends_of_superType? (Registry.located_mem hc hderived) (by decide +kernel)
    have hfound : r.resolve? "b" "T" = some target := by decide +kernel
    have hreaches := hsuffice.inherited _ hderived base (.single hextends) (by decide) field
      (List.mem_singleton_self _) rfl target hfound
    exact absurd hreaches (by decide +kernel)
  · have hsuffice := (module_closed_iff hreachable hvalidate hd).2.mp hclosed
    have hfound : r.resolve? "d" "a.T" = some target := by decide +kernel
    have hreaches :=
      hsuffice.qualified _ (List.mem_singleton_self _) _ (List.mem_singleton_self _) rfl
        (by decide) target hfound
    exact absurd hreaches (by decide +kernel)

end Crate

end Covenant

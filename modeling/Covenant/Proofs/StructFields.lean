/-
When the fields of a struct have different names. The struct of a class has a field for
every property that the class carries, declares or inherits, named in snake case. Checking a
document rules out only that one declaration gives a property twice under the very same name.
So a field comes up twice if a property has the field of one that the system adds, if a
property of a supertype is declared again, or if one declaration spells a field in two ways,
and in no other case (`Crate.nodup_structFields_iff`).
-/
import Covenant.Crate.Module
import Covenant.Proofs.FieldNames
import Covenant.Proofs.Lineage
import Mathlib.Data.List.Pairwise

namespace Covenant

open Covenant.Lexer Relation

namespace Crate

/-! ## The three ways of meeting -/

/-- The fields that the struct of a declaration has whatever is declared. -/
def IsSystemField (r : Registry) (l : Located) (field : String) : Prop :=
  field = "class" ∨
  field = "identifier" ∧ (Registry.hasIdentifier l.declaration.kind = true ∨
    ∃ a, ReflTransGen r.Extends l a ∧ a.declaration.isIdentified = true) ∨
  field = "timestamp" ∧ Registry.hasTimestamp l.declaration.kind = true

/-- No two properties of a declaration and its ancestors have the same field. -/
structure FieldsApart (r : Registry) (l : Located) : Prop where
  /-- No declared property has the field of one that the system adds. -/
  system : ∀ a, ReflTransGen r.Extends l a → ∀ p ∈ a.declaration.properties,
    ¬ IsSystemField r l (Target.snakeCase p.name)
  /-- No property is declared again further down. -/
  inherited : ∀ a b, ReflTransGen r.Extends l a → ReflTransGen r.Extends l b → a ≠ b →
    ∀ p ∈ a.declaration.properties, ∀ q ∈ b.declaration.properties,
      Target.snakeCase p.name ≠ Target.snakeCase q.name
  /-- No declaration spells a field in two ways. -/
  spelling : ∀ a, ReflTransGen r.Extends l a →
    Target.Apart (a.declaration.properties.map (·.name))

/-! ## The fields of a struct -/

section

variable {r : Registry} {l : Located}

/-- The fields of properties. -/
def fieldNames (properties : List Property) : List String :=
  properties.map (Target.fieldName ·.name)

theorem names_structFields (r : Registry) (l : Located) :
    (structFields r l).map (·.name) =
      fieldNames (r.implicitProperties l) ++
        (r.lineage l).reverse.flatMap fun a => fieldNames a.declaration.properties := by
  simp [structFields, Registry.allProperties, structField, fieldNames, List.map_flatMap,
    Function.comp_def]

theorem disjoint_fieldNames_iff {ps qs : List Property} (hps : ∀ p ∈ ps, IsName p.name.toList)
    (hqs : ∀ q ∈ qs, IsName q.name.toList) :
    (fieldNames ps).Disjoint (fieldNames qs) ↔
      ∀ p ∈ ps, ∀ q ∈ qs, Target.snakeCase p.name ≠ Target.snakeCase q.name := by
  unfold fieldNames
  rw [List.disjoint_left]
  refine List.forall_mem_map.trans (forall₂_congr fun p hp => ?_)
  simp only [List.mem_map, not_exists, not_and]
  refine forall₂_congr fun q hq => ?_
  rw [Target.fieldName_eq_iff (hqs q hq) (hps p hp), ne_comm]

theorem mem_implicitProperties_iff (h : r.Sound) (hl : l ∈ r.declarations) {q : Property} :
    q ∈ r.implicitProperties l ↔
      q = Registry.classProperty ∨
      q = Registry.identifierProperty ∧ (Registry.hasIdentifier l.declaration.kind = true ∨
        ∃ a, ReflTransGen r.Extends l a ∧ a.declaration.isIdentified = true) ∨
      q = Registry.timestampProperty ∧ Registry.hasTimestamp l.declaration.kind = true := by
  have hidentified : ((r.lineage l).any (·.declaration.isIdentified) ||
      Registry.hasIdentifier l.declaration.kind) = true ↔
      Registry.hasIdentifier l.declaration.kind = true ∨
        ∃ a, ReflTransGen r.Extends l a ∧ a.declaration.isIdentified = true := by
    simp only [Bool.or_eq_true, List.any_eq_true, h.mem_lineage_iff hl, or_comm]
  unfold Registry.implicitProperties
  rw [← hidentified]
  simp only [List.mem_append, List.mem_singleton, List.mem_ite_nil_right, or_assoc, and_comm]

theorem isName_of_implicit (h : r.Sound) (hl : l ∈ r.declarations) {q : Property}
    (hq : q ∈ r.implicitProperties l) : IsName q.name.toList := by
  rcases (mem_implicitProperties_iff h hl).mp hq with rfl | ⟨rfl, -⟩ | ⟨rfl, -⟩ <;> decide

theorem nodup_implicitFields (r : Registry) (l : Located) :
    (fieldNames (r.implicitProperties l)).Nodup := by
  unfold Registry.implicitProperties
  split <;> split <;> decide

theorem isSystemField_iff (h : r.Sound) (hl : l ∈ r.declarations) {field : String} :
    IsSystemField r l field ↔ ∃ q ∈ r.implicitProperties l, field = Target.snakeCase q.name := by
  have hclass : Target.snakeCase Registry.classProperty.name = "class" := by decide
  have hidentifier : Target.snakeCase Registry.identifierProperty.name = "identifier" := by
    decide
  have htimestamp : Target.snakeCase Registry.timestampProperty.name = "timestamp" := by
    decide
  unfold IsSystemField
  simp only [mem_implicitProperties_iff h hl]
  rw [← hclass, ← hidentifier, ← htimestamp]
  constructor
  · rintro (hfield | ⟨hfield, hidentified⟩ | ⟨hfield, hdated⟩)
    · exact ⟨_, .inl rfl, hfield⟩
    · exact ⟨_, .inr (.inl ⟨rfl, hidentified⟩), hfield⟩
    · exact ⟨_, .inr (.inr ⟨rfl, hdated⟩), hfield⟩
  · rintro ⟨q, rfl | ⟨rfl, hidentified⟩ | ⟨rfl, hdated⟩, hfield⟩
    · exact .inl hfield
    · exact .inr (.inl ⟨hfield, hidentified⟩)
    · exact .inr (.inr ⟨hfield, hdated⟩)

theorem nodup_fieldNames_iff (h : r.Sound) {a : Located} (ha : a ∈ r.declarations) :
    (fieldNames a.declaration.properties).Nodup ↔
      Target.Apart (a.declaration.properties.map (·.name)) := by
  have hnames : ∀ name ∈ a.declaration.properties.map (·.name), IsName name.toList := by
    rw [List.forall_mem_map]
    exact fun p hp => h.isName_property ha hp
  rw [← Target.nodup_fieldNames_iff (h.nodup_properties ha) hnames]
  simp only [fieldNames, List.map_map, Function.comp_def]

/-- The fields of a struct have different names if and only if no declared property has the field
of a system property, none is declared again further down, and no declaration spells a field in two
ways. -/
theorem nodup_structFields_iff (hr : r.Reachable) (hl : l ∈ r.declarations) :
    ((structFields r l).map (·.name)).Nodup ↔ FieldsApart r l := by
  have h := hr.sound
  have hmem {a : Located} : a ∈ (r.lineage l).reverse ↔ ReflTransGen r.Extends l a := by
    rw [List.mem_reverse, h.mem_lineage_iff hl]
  have hname {a : Located} (ha : ReflTransGen r.Extends l a) :
      ∀ p ∈ a.declaration.properties, IsName p.name.toList := fun p hp =>
    h.isName_property (Registry.mem_declarations_of_reflTransGen hl ha) hp
  have himplicit : ∀ q ∈ r.implicitProperties l, IsName q.name.toList := fun q hq =>
    isName_of_implicit h hl hq
  rw [names_structFields, List.nodup_append', List.nodup_flatMap]
  constructor
  · rintro ⟨-, ⟨hown, hothers⟩, hsystem⟩
    refine ⟨fun a ha p hp hfield => ?_, fun a b ha hb hne => ?_, fun a ha => ?_⟩
    · obtain ⟨q, hq, hsame⟩ := (isSystemField_iff h hl).mp hfield
      have hapart :
          (fieldNames (r.implicitProperties l)).Disjoint (fieldNames a.declaration.properties) :=
        fun field hfield hfield' => hsystem hfield (List.mem_flatMap.mpr ⟨a, hmem.mpr ha, hfield'⟩)
      exact (disjoint_fieldNames_iff himplicit (hname ha)).mp hapart q hq p hp hsame.symm
    · have : Std.Symm (Function.onFun List.Disjoint fun a : Located =>
          fieldNames a.declaration.properties) := ⟨fun _ _ h _ hb ha => h ha hb⟩
      rw [← disjoint_fieldNames_iff (hname ha) (hname hb)]
      exact hothers.forall (hmem.mpr ha) (hmem.mpr hb) hne
    · rw [← nodup_fieldNames_iff h (Registry.mem_declarations_of_reflTransGen hl ha)]
      exact hown a (hmem.mpr ha)
  · intro hapart
    refine ⟨nodup_implicitFields r l, ⟨fun a ha => ?_, ?_⟩, fun field hfield hfield' => ?_⟩
    · rw [hmem] at ha
      rw [nodup_fieldNames_iff h (Registry.mem_declarations_of_reflTransGen hl ha)]
      exact hapart.spelling a ha
    · refine (List.nodup_reverse.mpr (r.nodup_lineage l)).pairwise_of_forall_ne
        fun a ha b hb hne => ?_
      rw [hmem] at ha hb
      exact (disjoint_fieldNames_iff (hname ha) (hname hb)).mpr (hapart.inherited a b ha hb hne)
    · obtain ⟨a, ha, hfield'⟩ := List.mem_flatMap.mp hfield'
      rw [hmem] at ha
      refine (disjoint_fieldNames_iff himplicit (hname ha)).mpr ?_ hfield hfield'
      intro q hq p hp hsame
      exact hapart.system a ha p hp ((isSystemField_iff h hl).mpr ⟨q, hq, hsame.symm⟩)

end

/-- A concept with texts for properties. -/
def textConcept (name : String) (superType? : Option String) (properties : List String) :
    Declaration where
  name
  body := .classBody {
    kind := .concept
    superType?
    properties := properties.map fun property => { name := property, typeName := "String" } }

/-- A plain class, one that declares an inherited property again, one with two spellings of a field,
and one with a property that the system adds too. -/
def meetingRegistry : Registry where
  entries := [{
    model := {
      id := ⟨"a", none⟩
      declarations := [textConcept "A" none ["x"], textConcept "B" (some "A") ["x"],
        textConcept "C" none ["fooBar", "foo_bar"], textConcept "D" none ["class"]] }
    name := "a.cto"
    text := "namespace a concept A \x7bo String x\x7d concept B extends A \x7bo String x\x7d " ++
      "concept C \x7bo String fooBar o String foo_bar\x7d concept D \x7bo String class\x7d" }]

/-- All of them pass validation, and the fields of the first one alone have different names. -/
theorem nodup_structFields_iff_meeting :
    let r := meetingRegistry
    let a : Located := ⟨"a", textConcept "A" none ["x"]⟩
    let b : Located := ⟨"a", textConcept "B" (some "A") ["x"]⟩
    let c : Located := ⟨"a", textConcept "C" none ["fooBar", "foo_bar"]⟩
    let d : Located := ⟨"a", textConcept "D" none ["class"]⟩
    r.Reachable ∧ r.validate = [] ∧ r.declarations = [a, b, c, d] ∧
      (structFields r b).map (·.name) = ["class", "x", "x"] ∧
      FieldsApart r a ∧ ¬ FieldsApart r b ∧ ¬ FieldsApart r c ∧ ¬ FieldsApart r d := by
  intro r a b c d
  have hreachable : r.Reachable := by
    refine Registry.Reachable.empty.register (?_ : Registry.empty.register
      (r.entries.head (by decide)).text "a.cto" =
        .ok (.added (r.entries.head (by decide)).model, r))
    decide +kernel
  have hvalidate : r.validate = [] :=
    Registry.validate_eq_nil_of_flat (by decide +kernel) (by decide +kernel)
  have hdeclarations : r.declarations = [a, b, c, d] := by decide +kernel
  have hmem (l : Located) (hl : l ∈ [a, b, c, d]) : l ∈ r.declarations := by rwa [hdeclarations]
  have hroot (l : Located) (hl : r.superType? l = none) : r.lineage l = [l] := by
    rw [Registry.lineage, Registry.ancestorsFrom_none hl]
  have hlineage : r.lineage b = [b, a] := by
    rw [Registry.lineage, Registry.ancestorsFrom_some (by decide +kernel : r.superType? b = some a),
      if_neg (by decide +kernel), Registry.ancestorsFrom_none (by decide +kernel)]
  have hfields : (structFields r b).map (·.name) = ["class", "x", "x"] := by
    rw [names_structFields, Registry.implicitProperties, hlineage]
    decide +kernel
  refine ⟨hreachable, hvalidate, hdeclarations, hfields, ?_, ?_, ?_, ?_⟩
  · rw [← nodup_structFields_iff hreachable (hmem a (by simp)), names_structFields,
      Registry.implicitProperties, hroot a (by decide +kernel)]
    decide +kernel
  · rw [← nodup_structFields_iff hreachable (hmem b (by simp)), hfields]
    decide
  · rw [← nodup_structFields_iff hreachable (hmem c (by simp)), names_structFields,
      Registry.implicitProperties, hroot c (by decide +kernel)]
    decide +kernel
  · rw [← nodup_structFields_iff hreachable (hmem d (by simp)), names_structFields,
      Registry.implicitProperties, hroot d (by decide +kernel)]
    decide +kernel

end Crate

end Covenant

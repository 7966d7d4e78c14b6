/-
A subclass carries all that its superclass carries. What the module of a namespace says about
the fields of a struct is read off its lines: the property that each field stands for, its name,
its type, and whether it may be missing (`renderedFields`). Where validation has nothing to
report, what is said of a declaration is found again, in the same order, in what is said of every
declaration that extends it, whichever namespaces the two belong to (`Crate.rendered_sublist`).

Both structs are made by a walk of their own. They fit because the lineage of a declaration is
the declaration followed by the lineage of what it extends, and because the two are of the same
category, which decides what the system adds.
-/
import Covenant.Proofs.ScaffoldFields

namespace Covenant

open Covenant.Lexer Covenant.Text

namespace Registry

variable {r : Registry} {d e : Located}

/-! ## Properties -/

/-- Only classes extend something. -/
theorem Extends.exists_kind (hextends : r.Extends d e) :
    ∃ kind, d.declaration.kind = .classKind kind := by
  obtain ⟨-, written, hwritten, -⟩ := hextends
  unfold Declaration.superType? at hwritten
  cases hbody : d.declaration.body with
  | classBody body => exact ⟨body.kind, by simp [Declaration.kind, hbody]⟩
  | enumeration | scalar | map => simp [hbody] at hwritten

/-- A declaration is of the same category as what it extends. -/
theorem kind_of_extends (hvalid : r.validate = []) (hextends : r.Extends d e) :
    e.declaration.kind = d.declaration.kind := by
  obtain ⟨hd, written, hwritten, -⟩ := id hextends
  obtain ⟨next, hnext, hkind⟩ := exists_superType? hvalid hd hwritten
  obtain rfl : next = e := Option.some.inj (hnext.symm.trans hextends.superType?)
  exact hkind

theorem Sound.implicitProperties_sublist_of_extends (h : r.Sound) (hvalid : r.validate = [])
    (hextends : r.Extends d e) : (r.implicitProperties e).Sublist (r.implicitProperties d) := by
  have hkind := kind_of_extends hvalid hextends
  have hidentified : ((r.lineage e).any (·.declaration.isIdentified) ||
      hasIdentifier e.declaration.kind) = true →
      ((r.lineage d).any (·.declaration.isIdentified) || hasIdentifier d.declaration.kind) =
        true := by
    rw [h.lineage_of_extends hvalid hextends, List.any_cons, hkind]
    simp only [Bool.or_eq_true]
    rintro (hany | hhas)
    · exact .inl (.inr hany)
    · exact .inr hhas
  unfold implicitProperties
  rw [hkind]
  refine .append (.append (.refl _) ?_) (.refl _)
  by_cases he : ((r.lineage e).any (·.declaration.isIdentified) ||
      hasIdentifier d.declaration.kind) = true
  · rw [if_pos he, if_pos (hidentified (hkind ▸ he))]
  · rw [if_neg he]
    exact List.nil_sublist _

/-- A declaration has all properties of what it extends, in the same order. -/
theorem Sound.allProperties_sublist (h : r.Sound) (hvalid : r.validate = [])
    (hextends : r.Extends d e) : (r.allProperties e).Sublist (r.allProperties d) := by
  unfold allProperties
  refine .append (h.implicitProperties_sublist_of_extends hvalid hextends) ?_
  rw [h.lineage_of_extends hvalid hextends, List.reverse_cons, List.flatMap_append]
  exact List.sublist_append_left _ _

end Registry

namespace Crate

/-! ## What lines say about fields -/

/-- A field as it stands among the lines of a struct. -/
structure RenderedField where
  property : String
  name : String
  type : String
  isOptional : Bool
deriving DecidableEq, Repr

/-- How a line of attributes starts that names the property. -/
def renameStart : String := "    #[serde(rename = \""

/-- The property that a line of attributes names. -/
def renamed? (line : String) : Option String :=
  if renameStart.toList.isPrefixOf line.toList then
    some (String.ofList ((line.toList.drop renameStart.length).takeWhile (· ≠ '"')))
  else none

/-- How a line of attributes ends if the value may be missing. -/
def optionalEnd : String := "Option::is_none\")]"

def marksOptional (line : String) : Bool :=
  optionalEnd.toList.isSuffixOf line.toList

/-- The fields that the lines of a struct declare. A line that declares none holds the attributes
of the field that comes next; a field without such a line, or with one that names no property, has
the property of its own name. -/
def renderedFields (attributes : Option String) : List String → List RenderedField
  | [] => []
  | line :: lines =>
    match declaredField? line with
    | none => renderedFields (some line) lines
    | some (name, type) =>
      { property := (attributes.bind renamed?).getD (Target.unmarked name)
        name
        type
        isOptional := attributes.any marksOptional } :: renderedFields none lines

/-- What is said about the field of a property. -/
def renderedField (p : Property) : RenderedField where
  property := p.name
  name := Target.fieldName p.name
  type := (plainType p).text
  isOptional := p.isOptional

theorem renamed?_eq {name : String} (h : '"' ∉ name.toList) (rest : String) :
    renamed? (renameStart ++ name ++ "\"" ++ rest) = some name := by
  have hlength : renameStart.length = renameStart.toList.length := rfl
  have hline : (renameStart ++ name ++ "\"" ++ rest).toList =
      renameStart.toList ++ (name.toList ++ '"' :: rest.toList) := by
    simp
  simp only [renamed?, hline, hlength, List.drop_left, takeWhile_ne_append h]
  simp

theorem marksOptional_eq_false {line : String} (h : ':' ∉ line.toList) :
    marksOptional line = false := by
  rw [marksOptional, Bool.eq_false_iff]
  intro hends
  have hsuffix := List.isSuffixOf_iff_suffix.mp hends
  exact h (hsuffix.subset (by decide))

theorem marksOptional_append (text : String) : marksOptional (text ++ optionalEnd) = true := by
  simp [marksOptional]

/-- The line of attributes of a field, if it has one: it names the property where the field has
another name, and says whether the value may be missing. -/
theorem attributeLine_cases (f : StructField) (hquote : '"' ∉ f.property.name.toList)
    (hcolon : ':' ∉ f.property.name.toList) :
    ∃ attributes : Option String,
      f.lines = attributes.toList ++ [s!"    pub {f.name}: {f.type.text},"] ∧
      (∀ line ∈ attributes, declaredField? line = none) ∧
      (attributes.bind renamed?).getD (Target.unmarked f.name) = f.property.name ∧
      attributes.any marksOptional = f.property.isOptional := by
  unfold StructField.lines StructField.attributes
  by_cases hown : Target.unmarked f.name = f.property.name
  · cases hmissing : f.property.isOptional with
    | false => exact ⟨none, by simp [hown], nofun, hown, rfl⟩
    | true =>
      refine ⟨some ("    #[serde(default, skip_serializing_if = \"" ++ optionalEnd), ?_, ?_, ?_, ?_⟩
      · simp [hown, optionalEnd]
      · simp [declaredField?, fieldStart]
      · simpa [renamed?, renameStart] using hown
      · rw [Option.any_some, marksOptional_append]
  · cases hmissing : f.property.isOptional with
    | false =>
      refine ⟨some (renameStart ++ f.property.name ++ "\"" ++ ")]"), ?_, ?_, ?_, ?_⟩
      · simp [hown, renameStart, ← String.toList_inj]
      · simp [declaredField?, fieldStart, renameStart]
      · simp [renamed?_eq hquote]
      · rw [Option.any_some, marksOptional_eq_false (by simp [renameStart, hcolon])]
    | true =>
      refine ⟨some (renameStart ++ f.property.name ++ "\"" ++
        (", default, skip_serializing_if = \"" ++ optionalEnd)), ?_, ?_, ?_, ?_⟩
      · simp [hown, renameStart, optionalEnd, ← String.toList_inj]
      · simp [declaredField?, fieldStart, renameStart]
      · simp [renamed?_eq hquote]
      · rw [Option.any_some, ← String.append_assoc, marksOptional_append]

theorem renderedFields_lines {f : StructField} (hname : ':' ∉ f.name.toList)
    (hquote : '"' ∉ f.property.name.toList) (hcolon : ':' ∉ f.property.name.toList)
    (rest : List String) :
    renderedFields none (f.lines ++ rest) =
      ⟨f.property.name, f.name, f.type.text, f.property.isOptional⟩ ::
        renderedFields none rest := by
  obtain ⟨attributes, hlines, hsilent, hproperty, hoptional⟩ := attributeLine_cases f hquote hcolon
  have hfield : renderedFields attributes (s!"    pub {f.name}: {f.type.text}," :: rest) =
      ⟨f.property.name, f.name, f.type.text, f.property.isOptional⟩ ::
        renderedFields none rest := by
    rw [renderedFields, declaredField?_field hname]
    simp only [hproperty, hoptional]
  rw [hlines]
  cases attributes with
  | none => exact hfield
  | some line =>
    have hline : declaredField? line = none := hsilent line rfl
    rw [← hfield, Option.toList_some, List.singleton_append, List.cons_append,
      List.singleton_append, renderedFields, hline]

theorem renderedFields_flatMap {ps : List Property} (h : ∀ p ∈ ps, IsName p.name.toList) :
    renderedFields none ((ps.map structField).flatMap (·.lines)) = ps.map renderedField := by
  induction ps with
  | nil => rfl
  | cons p ps ih =>
    rw [List.forall_mem_cons] at h
    have hname : ':' ∉ (structField p).name.toList := by
      simp only [structField]
      exact Target.colon_not_mem_fieldName h.1
    have hquote : '"' ∉ (structField p).property.name.toList :=
      not_mem_of_isName h.1 (by decide) (by decide)
    have hcolon : ':' ∉ (structField p).property.name.toList :=
      not_mem_of_isName h.1 (by decide) (by decide)
    rw [List.map_cons, List.flatMap_cons, renderedFields_lines hname hquote hcolon, ih h.2,
      List.map_cons]
    simp only [structField, renderedField]

/-! ## Subclasses -/

/-- The module of the declaration's namespace holds one struct of its name, and says this of its
fields. -/
def RendersStruct (r : Registry) (l : Located) (fields : List RenderedField) : Prop :=
  ∃ m ∈ r.models, m.key = l.key ∧ (moduleLines r m).count (structHeader l.declaration.name) = 1 ∧
    renderedFields none (structBlock l.declaration.name (moduleLines r m)) = fields

variable {r : Registry} {d e : Located}

theorem rendersStruct_of_class (h : r.Sound) {l : Located} (hl : l ∈ r.declarations)
    {kind : ClassKind} (hkind : l.declaration.kind = .classKind kind) :
    RendersStruct r l ((r.allProperties l).map renderedField) := by
  obtain ⟨m, hm, hkey, hdeclared⟩ := Registry.mem_declarations.mp hl
  have hl' : (⟨m.key, l.declaration⟩ : Located) = l := by rw [← hkey]
  obtain ⟨body, hbody⟩ : ∃ body, l.declaration.body = .classBody body := by
    unfold Declaration.kind at hkind
    cases hbody : l.declaration.body with
    | classBody body => exact ⟨body, rfl⟩
    | enumeration | scalar | map => simp [hbody] at hkind
  refine ⟨m, hm, hkey.symm, count_structHeader (h.nodup_declared hm) hdeclared hbody, ?_⟩
  rw [structBlock_moduleLines (h.nodup_declared hm) hdeclared hbody, hl']
  exact renderedFields_flatMap fun p hp => isName_of_mem_allProperties h hl hp

/-- The modules say of the fields of a declaration, and of those of one that extends it, what their
properties are; and all that is said of the former is said, in the same order, of the latter. -/
theorem rendered_sublist (hr : r.Reachable) (hvalid : r.validate = []) (hextends : r.Extends d e) :
    RendersStruct r e ((r.allProperties e).map renderedField) ∧
      RendersStruct r d ((r.allProperties d).map renderedField) ∧
      ((r.allProperties e).map renderedField).Sublist ((r.allProperties d).map renderedField) := by
  have h := hr.sound
  obtain ⟨hd, he⟩ := hextends.mem
  obtain ⟨kind, hkind⟩ := hextends.exists_kind
  have hkind' := (Registry.kind_of_extends hvalid hextends).trans hkind
  exact ⟨rendersStruct_of_class h he hkind', rendersStruct_of_class h hd hkind,
    (h.allProperties_sublist hvalid hextends).map renderedField⟩

/-- An asset with a property that may be missing and one whose name is reserved. -/
def superAsset : Declaration where
  name := "A"
  body := .classBody {
    kind := .asset
    properties := [{ name := "fooBar", typeName := "String", isOptional := true },
      { name := "type", typeName := "Long" }] }

/-- An asset of another namespace that extends it. -/
def subAsset : Declaration where
  name := "B"
  body := .classBody {
    kind := .asset
    superType? := some "a.A"
    properties := [{ name := "x", typeName := "B", isRelationship := true }] }

def subclassRegistry : Registry where
  entries := [
    { model := { id := ⟨"a", none⟩, declarations := [superAsset] }
      name := "a.cto"
      text := "namespace a asset A\x7bo String fooBar optional o Long type\x7d" },
    { model := { id := ⟨"b", none⟩, declarations := [subAsset] }
      name := "b.cto"
      text := "namespace b asset B extends a.A\x7b--> B x\x7d" }]

theorem rendered_sublist_assets :
    let r := subclassRegistry
    let a : Located := ⟨"a", superAsset⟩
    let b : Located := ⟨"b", subAsset⟩
    let fields : List RenderedField :=
      [⟨"$class", "class", "String", false⟩, ⟨"$identifier", "identifier", "String", false⟩,
        ⟨"fooBar", "foo_bar", "Option<String>", true⟩, ⟨"type", "r#type", "f64", false⟩]
    r.Reachable ∧ r.validate = [] ∧ r.Extends b a ∧
      (r.allProperties b).map renderedField = fields ++ [⟨"x", "x", "String", false⟩] ∧
      RendersStruct r b (fields ++ [⟨"x", "x", "String", false⟩]) ∧
      ((r.allProperties a).map renderedField).Sublist
        (fields ++ [⟨"x", "x", "String", false⟩]) := by
  intro r a b fields
  have hr : r.Reachable := Registry.reachable_of_submissions (by decide +kernel)
  have hvalid : r.validate = [] := Registry.validate_eq_nil_of_flat (by decide) (by decide)
  have hextends : r.Extends b a := ⟨by decide, "a.A", rfl, by decide⟩
  have hfields : (r.allProperties b).map renderedField =
      fields ++ [⟨"x", "x", "String", false⟩] := by decide +kernel
  obtain ⟨-, hrenders, hsublist⟩ := rendered_sublist hr hvalid hextends
  rw [hfields] at hrenders hsublist
  exact ⟨hr, hvalid, hextends, hfields, hrenders, hsublist⟩

end Crate

end Covenant

/-
One question, two answers. Whether a type name may be used in a document is asked when the
document is checked on its own, by its lists of names, and again when names are resolved among all
documents, by a search through declarations and imports. Where the document imports nothing by a
star and its imports find what they list, both answer alike for every short name that is not
primitive (`Registry.checkType_eq_nil_iff_resolves`).

So what is left for the checks across documents to find in such a document, if it has no faults of
its own, is little: names written with their namespace that stand for nothing, supertypes that are
primitive or of another category, and what no single document shows, cycles (`Registry.Remains`).
-/
import Covenant.Proofs.FullNames

namespace Covenant

/-! ## The document alone -/

namespace Model

variable {m : Model} {typeName : String}

theorem checkType_eq_nil_iff {owner : Owner} {property? : Option String} :
    m.checkType owner property? typeName = [] ↔ m.accepts typeName = true := by
  unfold checkType
  split <;> simp_all

/-- The name is declared in the document or listed by one of its imports. -/
def Lists (m : Model) (name : String) : Prop :=
  (∃ d ∈ m.declarations, d.name = name) ∨ ∃ i ∈ m.imports, name ∈ i.listed

theorem accepts_iff (hlisted : ∀ i ∈ m.imports, i.isWildcard = false)
    (hshort : isQualified typeName = false) (hprimitive : isPrimitive typeName = false) :
    m.accepts typeName = true ↔ m.Lists typeName := by
  have hstar : m.imports.any (·.isWildcard) = false := by simpa using hlisted
  simp [accepts, Lists, hshort, hprimitive, hstar]

/-- All that a document without faults refers to is accepted. -/
theorem accepts_of_analyze (h : m.analyze = []) {d : Declaration} (hd : d ∈ m.declarations) :
    (∀ typeName ∈ d.references, m.accepts typeName = true) ∧
      ∀ written, d.superType? = some written → m.accepts written = true := by
  have hcheck := m.checkDeclaration_eq_nil h hd
  unfold checkDeclaration at hcheck
  unfold Declaration.references Declaration.superType?
  cases hbody : d.body with
  | classBody body =>
    simp only [hbody, checkClass, List.append_eq_nil_iff, List.flatMap_eq_nil_iff,
      checkType_eq_nil_iff] at hcheck
    obtain ⟨⟨-, hsuper⟩, hproperties⟩ := hcheck
    refine ⟨?_, fun written hwritten => hsuper written (by simpa using hwritten)⟩
    rw [List.forall_mem_map]
    exact hproperties
  | map key value =>
    simp only [hbody, List.flatMap_eq_nil_iff, checkType_eq_nil_iff] at hcheck
    exact ⟨hcheck, by simp⟩
  | enumeration | scalar => simp

end Model

namespace Registry

variable {r : Registry} {m : Model} {typeName : String}

/-! ## The document among others -/

/-- The document is registered, none of its imports is a star, and each finds a document that
declares all the types that it lists. -/
structure Supplied (r : Registry) (m : Model) : Prop where
  registered : r.model? m.key = some m
  listed : ∀ i ∈ m.imports, i.isWildcard = false
  found : ∀ i ∈ m.imports, ∃ target, r.find? i.target = some target ∧
    ∀ name ∈ i.listed, ∃ d ∈ target.declarations, d.name = name

theorem locate?_isSome_iff {name : String} :
    (m.locate? name).isSome = true ↔ ∃ d ∈ m.declarations, d.name = name := by
  simp [Model.locate?, Model.find?]

/-- An import that lists a name finds it, and no other import does. -/
theorem Supplied.resolveImported?_isSome_iff (h : r.Supplied m) {i : Import} (hi : i ∈ m.imports)
    {name : String} : (r.resolveImported? name i).isSome = true ↔ name ∈ i.listed := by
  obtain ⟨target, htarget, hdeclared⟩ := h.found i hi
  unfold resolveImported?
  by_cases hname : name ∈ i.listed
  · rw [if_pos (by simp [hname]), htarget, Option.bind_some, locate?_isSome_iff]
    exact iff_of_true (hdeclared name hname) hname
  · rw [if_neg (by simp [hname, h.listed i hi])]
    simp [hname]

theorem Supplied.resolves_iff (h : r.Supplied m) (hshort : isQualified typeName = false)
    (hprimitive : isPrimitive typeName = false) :
    (∃ found, r.resolve? m.key typeName = some found) ↔ m.Lists typeName := by
  rw [← Option.isSome_iff_exists, resolve?, hprimitive, hshort, if_neg Bool.false_ne_true,
    if_neg Bool.false_ne_true, resolveShort?]
  cases hlocal : m.find? typeName with
  | some d =>
    simp only [h.registered, hlocal]
    have hd : d ∈ m.declarations := List.mem_of_find?_eq_some hlocal
    have hname : d.name = typeName := by simpa using List.find?_some hlocal
    exact iff_of_true rfl (.inl ⟨d, hd, hname⟩)
  | none =>
    have hnone : ¬ ∃ d ∈ m.declarations, d.name = typeName := by
      simpa [Model.find?] using hlocal
    simp only [h.registered, hlocal]
    rw [List.findSome?_isSome_iff, Model.Lists, or_iff_right hnone]
    exact exists_congr fun i => and_congr_right fun hi => h.resolveImported?_isSome_iff hi

/-! ## What is left to find -/

/-- The faults that checks across documents can still find in a document that has none of its own
and whose imports are supplied. -/
inductive Remains (r : Registry) (m : Model) : ValidationError → Prop
  | reference {d : Declaration} {typeName : String} :
    d ∈ m.declarations → typeName ∈ d.references → isQualified typeName = true →
    r.resolve? m.key typeName = none →
    Remains r m (.undefinedType (qualifiedName m.key d.name) typeName)
  | superType {d : Declaration} {written : String} :
    d ∈ m.declarations → d.superType? = some written → isQualified written = true →
    r.resolve? m.key written = none →
    Remains r m (.undefinedSuperType (qualifiedName m.key d.name) written)
  | primitive {d : Declaration} {written : String} :
    d ∈ m.declarations → d.superType? = some written → isPrimitive written = true →
    Remains r m (.undefinedSuperType (qualifiedName m.key d.name) written)
  | kind {d : Declaration} {written : String} {found : Located} :
    d ∈ m.declarations → d.superType? = some written → r.resolve? m.key written = some found →
    found.declaration.kind ≠ d.kind →
    Remains r m (.superTypeKind (qualifiedName m.key d.name) d.kind found.declaration.kind written)

theorem isPrimitive_eq_false_of_isQualified (h : isQualified typeName = true) :
    isPrimitive typeName = false :=
  Bool.eq_false_iff.mpr fun hp => dot_not_mem_of_isPrimitive hp (by simpa [isQualified] using h)

/-- A name that the document accepts and that stands for nothing is primitive or qualified. -/
theorem Supplied.unresolved (h : r.Supplied m) (haccepts : m.accepts typeName = true)
    (hnone : r.resolve? m.key typeName = none) :
    isPrimitive typeName = true ∨ isQualified typeName = true := by
  refine or_iff_not_imp_left.mpr fun hprimitive => ?_
  have hprimitive : isPrimitive typeName = false := by simpa using hprimitive
  by_contra hshort
  have hshort : isQualified typeName = false := by simpa using hshort
  have hlists := (Model.accepts_iff h.listed hshort hprimitive).mp haccepts
  obtain ⟨found, hfound⟩ := (h.resolves_iff hshort hprimitive).mpr hlists
  simp [hnone] at hfound

theorem Supplied.mem_checkReferences_iff (h : r.Supplied m) (hanalyze : m.analyze = [])
    {d : Declaration} (hd : d ∈ m.declarations) {e : ValidationError} :
    e ∈ r.checkReferences ⟨m.key, d⟩ ↔ ∃ typeName ∈ d.references,
      isQualified typeName = true ∧ r.resolve? m.key typeName = none ∧
        e = .undefinedType (qualifiedName m.key d.name) typeName := by
  have haccepts := (Model.accepts_of_analyze hanalyze hd).1
  simp only [checkReferences, List.mem_map, List.mem_filter, Bool.and_eq_true, Bool.not_eq_true',
    Option.isNone_iff_eq_none]
  constructor
  · rintro ⟨typeName, ⟨hmem, hprimitive, hnone⟩, rfl⟩
    have hqualified : isQualified typeName = true :=
      (h.unresolved (haccepts typeName hmem) hnone).resolve_left (by simp [hprimitive])
    exact ⟨typeName, hmem, hqualified, hnone, rfl⟩
  · rintro ⟨typeName, hmem, hqualified, hnone, rfl⟩
    exact ⟨typeName, ⟨hmem, isPrimitive_eq_false_of_isQualified hqualified, hnone⟩, rfl⟩

theorem resolve?_eq_none_of_isPrimitive {key : String} (h : isPrimitive typeName = true) :
    r.resolve? key typeName = none := by
  rw [resolve?, if_pos h]

theorem mem_checkSuperType_iff {l : Located} {e : ValidationError} :
    e ∈ r.checkSuperType l ↔ ∃ written, l.declaration.superType? = some written ∧
      ((r.resolve? l.key written = none ∧ e = .undefinedSuperType l.fullName written) ∨
        ∃ found, r.resolve? l.key written = some found ∧
          found.declaration.kind ≠ l.declaration.kind ∧
          e = .superTypeKind l.fullName l.declaration.kind found.declaration.kind written) := by
  unfold checkSuperType
  cases l.declaration.superType? with
  | none => simp
  | some written =>
    cases hfound : r.resolve? l.key written with
    | none => simp [hfound]
    | some found =>
      by_cases hkind : found.declaration.kind = l.declaration.kind <;> simp [hfound, hkind]

/-- The checks of a document across others find what remains, and all of it. -/
theorem Supplied.mem_checkModel_iff (h : r.Supplied m) (hanalyze : m.analyze = [])
    {e : ValidationError} : e ∈ r.checkModel m ↔ r.Remains m e := by
  have himports : m.imports.flatMap (r.checkImport m.key) = [] :=
    List.flatMap_eq_nil_iff.mpr fun i hi => checkImport_eq_nil_iff.mpr (h.found i hi)
  rw [checkModel, himports, List.nil_append, List.mem_flatMap]
  constructor
  · rintro ⟨d, hd, he⟩
    rcases List.mem_append.mp he with hreference | hsuper
    · obtain ⟨typeName, hmem, hqualified, hnone, rfl⟩ :=
        (h.mem_checkReferences_iff hanalyze hd).mp hreference
      exact .reference hd hmem hqualified hnone
    · obtain ⟨written, hwritten, ⟨hnone, rfl⟩ | ⟨found, hfound, hkind, rfl⟩⟩ :=
        mem_checkSuperType_iff.mp hsuper
      · have haccepts := (Model.accepts_of_analyze hanalyze hd).2 written hwritten
        rcases h.unresolved haccepts hnone with hprimitive | hqualified
        · exact .primitive hd hwritten hprimitive
        · exact .superType hd hwritten hqualified hnone
      · exact .kind hd hwritten hfound hkind
  · intro hremains
    cases hremains with
    | @reference d _ hd hmem hqualified hnone =>
      refine ⟨d, hd, List.mem_append_left _ ?_⟩
      exact (h.mem_checkReferences_iff hanalyze hd).mpr ⟨_, hmem, hqualified, hnone, rfl⟩
    | @superType d _ hd hwritten _ hnone =>
      refine ⟨d, hd, List.mem_append_right _ ?_⟩
      exact mem_checkSuperType_iff.mpr ⟨_, hwritten, .inl ⟨hnone, rfl⟩⟩
    | @primitive d _ hd hwritten hprimitive =>
      refine ⟨d, hd, List.mem_append_right _ ?_⟩
      exact mem_checkSuperType_iff.mpr
        ⟨_, hwritten, .inl ⟨resolve?_eq_none_of_isPrimitive hprimitive, rfl⟩⟩
    | @kind d _ found hd hwritten hfound hkind =>
      refine ⟨d, hd, List.mem_append_right _ ?_⟩
      exact mem_checkSuperType_iff.mpr ⟨_, hwritten, .inr ⟨found, hfound, hkind, rfl⟩⟩

/-- A document that imports nothing by a star, in a registry where its imports find all they list:
the check of the document alone accepts a short name that is not primitive if and only if the name
stands for a declaration. If the document has no faults of its own, then what validation says of it
is that names written with their namespace stand for nothing, or that supertypes are primitive or of
another category; all else comes from other documents or is a cycle. -/
theorem checkType_eq_nil_iff_resolves (h : r.Supplied m) :
    (∀ typeName, isQualified typeName = false → isPrimitive typeName = false →
      ∀ owner property?, m.checkType owner property? typeName = [] ↔
        ∃ found, r.resolve? m.key typeName = some found) ∧
    (m.analyze = [] → (∀ e, e ∈ r.checkModel m ↔ r.Remains m e) ∧
      ∀ e ∈ r.validate, r.Remains m e ∨ (∃ other ∈ r.models, other ≠ m ∧ e ∈ r.checkModel other) ∨
        ∃ names, r.inheritance.cycle? = some names ∧ e = .inheritanceCycle names) := by
  refine ⟨fun typeName hshort hprimitive owner property? => ?_, fun hanalyze => ?_⟩
  · rw [Model.checkType_eq_nil_iff, Model.accepts_iff h.listed hshort hprimitive,
      h.resolves_iff hshort hprimitive]
  · have hremains (e : ValidationError) : e ∈ r.checkModel m ↔ r.Remains m e :=
      h.mem_checkModel_iff hanalyze
    refine ⟨hremains, fun e he => ?_⟩
    rcases List.mem_append.mp he with hcheck | hcycle
    · obtain ⟨other, hother, hcheck⟩ := List.mem_flatMap.mp hcheck
      by_cases hsame : other = m
      · exact .inl ((hremains e).mp (hsame ▸ hcheck))
      · exact .inr (.inl ⟨other, hother, hsame, hcheck⟩)
    · obtain ⟨names, hnames, rfl⟩ := Option.map_eq_some_iff.mp (Option.mem_toList.mp hcycle)
      exact .inr (.inr ⟨names, hnames, rfl⟩)

/-- A document that takes `A` from a version of `a`, and names `a.C`, which is declared nowhere. -/
def borrower : Model where
  id := ⟨"b", none⟩
  imports := [{ target := ⟨"a", none⟩, scope := .types ["A"] }]
  declarations := [
    { name := "B"
      body := .classBody
        { kind := .concept
          superType? := some "A"
          properties := [{ name := "x", typeName := "B" }, { name := "y", typeName := "a.C" }] } },
    { name := "D"
      body := .classBody { kind := .asset, superType? := some "A" } }]

def borrowerRegistry : Registry where
  entries := [
    { model := { id := ⟨"a", some "1.0.0"⟩, declarations := [emptyConcept "A"] }
      name := "a1.cto"
      text := "namespace a@1.0.0 concept A\x7b\x7d" },
    { model := borrower
      name := "b.cto"
      text := "namespace b import a.A concept B extends A\x7bo B x o a.C y\x7d" ++
        "asset D extends A\x7b\x7d" }]

/-- `A` is accepted and found, `C` neither; what is left to report is the name `a.C` and the asset
that extends a concept. -/
theorem checkType_eq_nil_iff_resolves_borrower :
    let r := borrowerRegistry
    let owner : Owner := ⟨.classKind .concept, "B"⟩
    r.Reachable ∧ r.Supplied borrower ∧ borrower.analyze = [] ∧
      (∃ found, r.resolve? "b" "A" = some found) ∧ borrower.checkType owner none "C" ≠ [] ∧
      r.checkModel borrower = [.undefinedType "b.B" "a.C",
        .superTypeKind "b.D" (.classKind .asset) (.classKind .concept) "A"] ∧
      r.Remains borrower (.undefinedType "b.B" "a.C") := by
  intro r owner
  have hr : r.Reachable := reachable_of_submissions (by decide +kernel)
  have hsupplied : r.Supplied borrower := by
    have hchecks : ∀ i ∈ borrower.imports, r.checkImport "b" i = [] := by decide
    exact ⟨by decide, by decide, fun i hi => checkImport_eq_nil_iff.mp (hchecks i hi)⟩
  have hanalyze : borrower.analyze = [] := by decide
  obtain ⟨hshort, hremains⟩ := checkType_eq_nil_iff_resolves hsupplied
  refine ⟨hr, hsupplied, hanalyze, ?_, ?_, by decide, ?_⟩
  · exact (hshort "A" (by decide) (by decide) owner none).mp (by decide)
  · intro hnil
    obtain ⟨found, hfound⟩ := (hshort "C" (by decide) (by decide) owner none).mp hnil
    have hnone : r.resolve? borrower.key "C" = none := by decide
    simp [hnone] at hfound
  · exact ((hremains hanalyze).1 _).mp (by decide)

end Registry

end Covenant

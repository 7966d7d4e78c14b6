/-
Validation is exact: it has nothing to report of registered documents if and only if
all that they import is registered and declared, all types and supertypes that they
name stand for something, supertypes are of the same category, and no declaration is
its own ancestor (`Registry.validate_eq_nil_iff_valid`).

The inheritance graph is made of full names, so what is said of declarations has to
be carried over to names and back. Both ways use that a registered declaration is
known by its full name.
-/
import Covenant.Proofs.Cycles
import Covenant.Proofs.Registered
import Covenant.Registry.Validation

namespace Covenant.Registry

open Covenant.Lexer

/-! ## What validation is about -/

/-- The document that an import of the namespace finds: the one of that very version, or else the
first one of that name. -/
inductive Finds (r : Registry) (id : Namespace) : Model → Prop
  | exact {m : Model} : m ∈ r.models → id.version?.isSome = true → m.id = id → Finds r id m
  | first {m : Model} {before after : List Model} :
    (∀ m' ∈ r.models, id.version?.isSome = true → m'.id ≠ id) →
    r.models = before ++ m :: after → (∀ m' ∈ before, m'.id.name ≠ id.name) → m.id.name = id.name →
    Finds r id m

/-- The supertype of the registered declaration `a` stands for `b`. -/
def Extends (r : Registry) (a b : Located) : Prop :=
  a ∈ r.declarations ∧
    ∃ written, a.declaration.superType? = some written ∧ r.resolve? a.key written = some b

/-- Registered documents that fit together. -/
structure Valid (r : Registry) : Prop where
  imports : ∀ m ∈ r.models, ∀ i ∈ m.imports, ∃ target, r.Finds i.target target ∧
    ∀ name ∈ i.listed, ∃ d ∈ target.declarations, d.name = name
  references : ∀ l ∈ r.declarations, ∀ typeName ∈ l.declaration.references,
    isPrimitive typeName = true ∨ ∃ found, r.resolve? l.key typeName = some found
  superTypes : ∀ l ∈ r.declarations, ∀ written, l.declaration.superType? = some written →
    ∃ found, r.resolve? l.key written = some found ∧ found.declaration.kind = l.declaration.kind
  acyclic : ∀ l, ¬ Relation.TransGen r.Extends l l

/-! ## Imports -/

theorem Sound.model?_eq_some_iff {r : Registry} (h : r.Sound) {key : String} {m : Model} :
    r.model? key = some m ↔ m ∈ r.models ∧ m.key = key := by
  simp only [model?, Option.map_eq_some_iff, h.entry?_eq_some_iff, models, List.mem_map]
  constructor
  · rintro ⟨e, ⟨he, hkey⟩, rfl⟩
    exact ⟨⟨e, he, rfl⟩, hkey⟩
  · rintro ⟨⟨e, he, rfl⟩, hkey⟩
    exact ⟨e, ⟨he, hkey⟩, rfl⟩

/-- A namespace with a version is known by its text. -/
theorem key_eq_iff {n : Namespace} {name version : String} (hn : '@' ∉ n.name.toList)
    (hname : '@' ∉ name.toList) : n.key = name ++ "@" ++ version ↔ n = ⟨name, some version⟩ := by
  obtain ⟨other, version?⟩ := n
  cases version? with
  | none =>
    have hne : other ≠ name ++ "@" ++ version := by
      rintro rfl
      simp at hn
    simpa [Namespace.key] using hne
  | some version' =>
    simp only [Namespace.key, Namespace.mk.injEq, Option.some.injEq]
    constructor
    · intro hkey
      have hchars :
          other.toList ++ '@' :: version'.toList = name.toList ++ '@' :: version.toList := by
        simpa using congrArg String.toList hkey
      obtain ⟨hsame, hrest⟩ := join_inj_left hn hname hchars
      exact ⟨String.toList_inj.mp hsame, String.toList_inj.mp hrest⟩
    · rintro ⟨rfl, rfl⟩
      rfl

theorem Sound.at_not_mem {r : Registry} (h : r.Sound) {m : Model} (hm : m ∈ r.models) :
    '@' ∉ m.id.name.toList :=
  (h.wellFormed hm).id.name.not_mem (by decide) (by decide) (by decide)

theorem Sound.find?_eq_some_iff {r : Registry} (h : r.Sound) {id : Namespace} {m : Model}
    (hid : '@' ∉ id.name.toList) : r.find? id = some m ↔ r.Finds id m := by
  obtain ⟨name, version?⟩ := id
  have hexact {m' : Model} {version : String} : r.model? (name ++ "@" ++ version) = some m' ↔
      m' ∈ r.models ∧ m'.id = ⟨name, some version⟩ := by
    rw [h.model?_eq_some_iff]
    exact and_congr_right fun hm' => key_eq_iff (h.at_not_mem hm') hid
  unfold find?
  rw [Option.or_eq_some_iff, List.find?_eq_some_iff_append]
  constructor
  · rintro (hfound | ⟨hnone, hname, before, after, hmodels, hbefore⟩)
    · obtain ⟨version, rfl, hmodel⟩ := Option.bind_eq_some_iff.mp hfound
      obtain ⟨hm, hm'⟩ := hexact.mp hmodel
      exact .exact hm rfl hm'
    · refine .first (fun m' hm' hversion he => ?_) hmodels (by simpa using hbefore)
        (by simpa using hname)
      obtain ⟨version, rfl⟩ := Option.isSome_iff_exists.mp hversion
      simp [hexact.mpr ⟨hm', he⟩] at hnone
  · intro hfinds
    cases hfinds with
    | exact hm hversion he =>
      obtain ⟨version, rfl⟩ := Option.isSome_iff_exists.mp hversion
      exact .inl (by simpa using hexact.mpr ⟨hm, he⟩)
    | @first before after hnone hmodels hbefore hname =>
      refine .inr ⟨?_, by simpa using hname, before, after, hmodels, by simpa using hbefore⟩
      cases version? with
      | none => rfl
      | some version =>
        refine Option.eq_none_iff_forall_ne_some.mpr fun m' hm' => ?_
        obtain ⟨hmem, he⟩ := hexact.mp hm'
        exact hnone m' hmem rfl he

/-! ## The checks -/

theorem find?_isSome_iff {m : Model} {name : String} :
    (m.find? name).isNone = false ↔ ∃ d ∈ m.declarations, d.name = name := by
  simp [Model.find?]

theorem checkImport_eq_nil_iff {r : Registry} {key : String} {i : Import} :
    r.checkImport key i = [] ↔ ∃ target, r.find? i.target = some target ∧
      ∀ name ∈ i.listed, ∃ d ∈ target.declarations, d.name = name := by
  unfold checkImport
  cases r.find? i.target with
  | none => simp
  | some target =>
    simp only [List.map_eq_nil_iff, List.filter_eq_nil_iff, Bool.not_eq_true, find?_isSome_iff,
      Option.some.injEq, exists_eq_left']

theorem checkReferences_eq_nil_iff {r : Registry} {l : Located} :
    r.checkReferences l = [] ↔ ∀ typeName ∈ l.declaration.references,
      isPrimitive typeName = true ∨ ∃ found, r.resolve? l.key typeName = some found := by
  unfold checkReferences
  rw [List.map_eq_nil_iff, List.filter_eq_nil_iff]
  refine forall_congr' fun typeName => imp_congr_right fun _ => ?_
  cases isPrimitive typeName with
  | true => simp
  | false => cases r.resolve? l.key typeName <;> simp

theorem checkSuperType_eq_nil_iff {r : Registry} {l : Located} :
    r.checkSuperType l = [] ↔ ∀ written, l.declaration.superType? = some written →
      ∃ found, r.resolve? l.key written = some found ∧
        found.declaration.kind = l.declaration.kind := by
  unfold checkSuperType
  cases l.declaration.superType? with
  | none => simp
  | some written =>
    cases hfound : r.resolve? l.key written with
    | none => simp [hfound]
    | some found =>
      by_cases hkind : found.declaration.kind = l.declaration.kind <;> simp [hfound, hkind]

theorem forall_declarations {r : Registry} {p : Located → Prop} :
    (∀ m ∈ r.models, ∀ d ∈ m.declarations, p ⟨m.key, d⟩) ↔ ∀ l ∈ r.declarations, p l := by
  constructor
  · intro h l hl
    obtain ⟨m, hm, hkey, hd⟩ := mem_declarations.mp hl
    have := h m hm l.declaration hd
    rwa [← hkey] at this
  · exact fun h m hm d hd => h _ (mem_declarations.mpr ⟨m, hm, rfl, hd⟩)

/-- The checks of single documents report nothing. -/
theorem checkModels_eq_nil_iff {r : Registry} :
    r.models.flatMap r.checkModel = [] ↔
      (∀ m ∈ r.models, ∀ i ∈ m.imports, r.checkImport m.key i = []) ∧
      ∀ l ∈ r.declarations, r.checkReferences l = [] ∧ r.checkSuperType l = [] := by
  rw [← forall_declarations, ← forall₂_and]
  simp only [List.flatMap_eq_nil_iff, checkModel, List.append_eq_nil_iff]

/-- Where no supertype has one itself, the checks of single documents are all there is. -/
theorem validate_eq_nil_of_flat {r : Registry}
    (hflat : ∀ a ∈ r.inheritance.nodes, ∀ b ∈ r.inheritance.neighbours a, b ∉ r.inheritance.nodes)
    (hchecks : r.models.flatMap r.checkModel = []) : r.validate = [] := by
  rw [validate, hchecks, Graph.cycle?_eq_none_of_flat hflat]
  rfl

/-! ## Inheritance -/

theorem superType?_eq_some_iff {r : Registry} {l found : Located} :
    r.superType? l = some found ↔
      ∃ written, l.declaration.superType? = some written ∧
        r.resolve? l.key written = some found := by
  simp [superType?, Option.bind_eq_some_iff]

theorem Extends.mem {r : Registry} {a b : Located} (h : r.Extends a b) :
    a ∈ r.declarations ∧ b ∈ r.declarations := by
  obtain ⟨ha, _, _, hb⟩ := h
  exact ⟨ha, resolve?_mem hb⟩

/-- The inheritance graph has an edge for every declaration that extends another. -/
theorem Sound.edge_inheritance_iff {r : Registry} (h : r.Sound) {a b : String} :
    r.inheritance.Edge a b ↔ ∃ l found, r.Extends l found ∧ l.fullName = a ∧
      found.fullName = b := by
  have hdistinct : ((r.declarations.filterMap fun l =>
      (r.superType? l).map fun found => (l.fullName, [found.fullName])).map Prod.fst).Nodup := by
    have hnames := h.nodup_names
    unfold names List.Nodup at hnames
    rw [List.pairwise_map] at hnames
    unfold List.Nodup
    rw [List.pairwise_map, List.pairwise_filterMap]
    refine hnames.imp fun hne entry hentry entry' hentry' => ?_
    obtain ⟨_, _, rfl⟩ := Option.map_eq_some_iff.mp hentry
    obtain ⟨_, _, rfl⟩ := Option.map_eq_some_iff.mp hentry'
    exact hne
  unfold inheritance
  rw [Graph.edge_ofEntries hdistinct]
  constructor
  · rintro ⟨edges, hmem, hb⟩
    obtain ⟨l, hl, hentry⟩ := List.mem_filterMap.mp hmem
    obtain ⟨found, hfound, he⟩ := Option.map_eq_some_iff.mp hentry
    cases he
    exact ⟨l, found, ⟨hl, superType?_eq_some_iff.mp hfound⟩, rfl, (List.mem_singleton.mp hb).symm⟩
  · rintro ⟨l, found, ⟨hl, hfound⟩, rfl, rfl⟩
    refine ⟨[found.fullName], List.mem_filterMap.mpr ⟨l, hl, ?_⟩, by simp⟩
    rw [superType?_eq_some_iff.mpr hfound, Option.map_some]

/-- A way along full names is one along declarations. -/
theorem Sound.transGen_extends {r : Registry} (h : r.Sound) {a b : String}
    (hab : Relation.TransGen r.inheritance.Edge a b) :
    ∃ l l', Relation.TransGen r.Extends l l' ∧ l.fullName = a ∧ l'.fullName = b ∧
      l ∈ r.declarations ∧ l' ∈ r.declarations := by
  induction hab with
  | single hedge =>
    obtain ⟨l, l', hextends, ha, hb⟩ := h.edge_inheritance_iff.mp hedge
    exact ⟨l, l', .single hextends, ha, hb, hextends.mem⟩
  | tail _ hedge ih =>
    obtain ⟨l, l', hway, ha, hb, hl, hl'⟩ := ih
    obtain ⟨k, k', hextends, hk, hc⟩ := h.edge_inheritance_iff.mp hedge
    obtain rfl : l' = k := h.eq_of_fullName hl' hextends.mem.1 (hb.trans hk.symm)
    exact ⟨l, k', hway.tail hextends, ha, hc, hl, hextends.mem.2⟩

theorem Sound.cycle?_eq_none_iff {r : Registry} (h : r.Sound) :
    r.inheritance.cycle? = none ↔ ∀ l, ¬ Relation.TransGen r.Extends l l := by
  rw [Graph.cycle?_eq_none_iff, ← not_exists, not_iff_not]
  constructor
  · rintro ⟨a, hcycle⟩
    obtain ⟨l, l', hway, hl, hl', hmem, hmem'⟩ := h.transGen_extends hcycle
    obtain rfl := h.eq_of_fullName hmem hmem' (hl.trans hl'.symm)
    exact ⟨l, hway⟩
  · rintro ⟨l, hcycle⟩
    refine ⟨l.fullName, hcycle.lift Located.fullName fun a b hextends => ?_⟩
    exact h.edge_inheritance_iff.mpr ⟨a, b, hextends, rfl, rfl⟩

/-! ## Exactness -/

theorem Sound.validate_eq_nil_iff {r : Registry} (h : r.Sound) :
    r.validate = [] ↔
      (∀ m ∈ r.models, r.checkModel m = []) ∧ ∀ l, ¬ Relation.TransGen r.Extends l l := by
  simp only [validate, List.append_eq_nil_iff, List.flatMap_eq_nil_iff, Option.toList_eq_nil_iff,
    Option.map_eq_none_iff, h.cycle?_eq_none_iff]

theorem checks_eq_nil {r : Registry} (hvalid : r.validate = []) {l : Located}
    (hl : l ∈ r.declarations) : r.checkReferences l = [] ∧ r.checkSuperType l = [] :=
  (checkModels_eq_nil_iff.mp (List.append_eq_nil_iff.mp hvalid).1).2 l hl

theorem Sound.checkImports_eq_nil_iff {r : Registry} (h : r.Sound) {m : Model} (hm : m ∈ r.models)
    {i : Import} (hi : i ∈ m.imports) : r.checkImport m.key i = [] ↔
      ∃ target, r.Finds i.target target ∧
        ∀ name ∈ i.listed, ∃ d ∈ target.declarations, d.name = name := by
  have htarget : '@' ∉ i.target.name.toList :=
    ((h.wellFormed hm).imports i hi).target.name.not_mem (by decide) (by decide) (by decide)
  rw [checkImport_eq_nil_iff]
  exact exists_congr fun _ => and_congr_left fun _ => h.find?_eq_some_iff htarget

/-- Validation of registered documents reports nothing if and only if they fit together. -/
theorem validate_eq_nil_iff_valid {r : Registry} (h : r.Reachable) : r.validate = [] ↔ r.Valid := by
  have hsound := h.sound
  have hcycle : (r.inheritance.cycle?.map ValidationError.inheritanceCycle).toList = [] ↔
      r.inheritance.cycle? = none := by
    simp
  unfold validate
  rw [List.append_eq_nil_iff, checkModels_eq_nil_iff, hcycle, hsound.cycle?_eq_none_iff]
  constructor
  · rintro ⟨⟨himports, hdeclarations⟩, hacyclic⟩
    exact {
      imports := fun m hm i hi => (hsound.checkImports_eq_nil_iff hm hi).mp (himports m hm i hi)
      references := fun l hl => checkReferences_eq_nil_iff.mp (hdeclarations l hl).1
      superTypes := fun l hl => checkSuperType_eq_nil_iff.mp (hdeclarations l hl).2
      acyclic := hacyclic }
  · intro hvalid
    refine ⟨⟨fun m hm i hi => ?_, fun l hl => ⟨?_, ?_⟩⟩, hvalid.acyclic⟩
    · exact (hsound.checkImports_eq_nil_iff hm hi).mpr (hvalid.imports m hm i hi)
    · exact checkReferences_eq_nil_iff.mpr (hvalid.references l hl)
    · exact checkSuperType_eq_nil_iff.mpr (hvalid.superTypes l hl)

/-- A document that imports a version of `a` that is not registered, and falls back on the one that
is. -/
theorem validate_eq_nil_iff_valid_fallback :
    ∃ r : Registry, r.Reachable ∧ r.keys = ["a@1.0.0", "b"] ∧ r.validate = [] ∧ r.Valid := by
  let a : Model := {
    id := ⟨"a", some "1.0.0"⟩
    declarations := [⟨"A", .classBody { kind := .concept }, []⟩] }
  let b : Model := {
    id := ⟨"b", none⟩
    imports := [⟨⟨"a", some "2.0"⟩, .types ["A"], none⟩]
    declarations := [⟨"B", .classBody {
      kind := .concept
      superType? := some "A"
      properties := [{ name := "x", typeName := "A" }] }, []⟩] }
  let textA := "namespace a@1.0.0 concept A \x7b\x7d"
  let textB := "namespace b import a@2.0.A concept B extends A \x7bo A x\x7d"
  let r : Registry := ⟨[⟨a, "a.cto", textA⟩, ⟨b, "b.cto", textB⟩]⟩
  have hfirst :
      Registry.empty.register textA "a.cto" = .ok (.added a, ⟨[⟨a, "a.cto", textA⟩]⟩) := by
    decide +kernel
  have hsecond :
      (⟨[⟨a, "a.cto", textA⟩]⟩ : Registry).register textB "b.cto" = .ok (.added b, r) := by
    decide +kernel
  have hreachable : r.Reachable := (Reachable.empty.register hfirst).register hsecond
  have hinheritance : r.inheritance.entries = [("b.B", ["a@1.0.0.A"])] := by decide +kernel
  have hcycle : r.inheritance.cycle? = none := by
    simp [Graph.cycle?, Graph.nodes, Graph.neighbours, List.lookup_cons,
      hinheritance, Graph.explore]
  have hvalidate : r.validate = [] := by
    rw [validate, hcycle]
    decide +kernel
  exact ⟨r, hreachable, by decide +kernel, hvalidate,
    (validate_eq_nil_iff_valid hreachable).mp hvalidate⟩

end Covenant.Registry

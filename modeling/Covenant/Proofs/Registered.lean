/-
What holds of every registry that documents were registered in: each entry was read
from its text and found without faults, and no namespace is registered twice
(`Registry.Sound`). From this follows what full names are used for: a registered
declaration is known by its full name, since no declared name holds a point
(`Registry.Sound.eq_of_fullName`).
-/
import Covenant.Proofs.WellFormed
import Covenant.Registry.Resolution
import Mathlib.Data.List.Nodup

namespace Covenant

open Covenant.Lexer

/-! ## Names without a separator -/

theorem not_mem_intercalate {d : Char} {sep : List Char} {parts : List (List Char)} (hsep : d ∉ sep)
    (hparts : ∀ part ∈ parts, d ∉ part) : d ∉ sep.intercalate parts := by
  induction parts with
  | nil => simp
  | cons part parts ih =>
    rw [List.forall_mem_cons] at hparts
    cases parts with
    | nil => simpa using hparts.1
    | cons next parts =>
      rw [List.intercalate_cons_cons]
      simp only [List.mem_append, not_or]
      exact ⟨⟨hparts.1, hsep⟩, ih hparts.2⟩

/-- The characters of a dotted name are points and characters of names. -/
theorem IsDotted.not_mem {name : String} {d : Char} (h : IsDotted name) (hdot : d ≠ '.')
    (hstart : isIdentifierStart d = false) (hchar : isIdentifierChar d = false) :
    d ∉ name.toList := by
  obtain ⟨first, others, rfl, hparts⟩ := h
  rw [String.toList_intercalate]
  refine not_mem_intercalate (by simpa using hdot) fun cs hcs => ?_
  obtain ⟨part, hpart, rfl⟩ := List.mem_map.mp hcs
  exact not_mem_of_isName (hparts part hpart) hstart hchar

/-- The characters of a namespace are those of a dotted name and of a version. -/
theorem Namespace.WellFormed.not_mem {n : Namespace} {d : Char} (h : n.WellFormed)
    (hmark : d ∉ ['.', '@']) (hstart : isIdentifierStart d = false)
    (hchar : isIdentifierChar d = false) (hversion : isVersionChar d = false) :
    d ∉ n.key.toList := by
  rw [List.mem_cons, List.mem_singleton, not_or] at hmark
  have hname : d ∉ n.name.toList := h.name.not_mem hmark.1 hstart hchar
  obtain ⟨name, version?⟩ := n
  cases version? with
  | none => exact hname
  | some version =>
    have hversion : d ∉ version.toList := fun hmem => by
      simp [(h.version version rfl).isVersionChar d hmem] at hversion
    simpa [Namespace.key] using ⟨hname, hmark.2, hversion⟩

/-- A namespace is written on one line. -/
theorem Namespace.WellFormed.newline_not_mem {n : Namespace} (h : n.WellFormed) :
    '\n' ∉ n.key.toList :=
  h.not_mem (by decide) (by decide) (by decide) (by decide)

theorem IsIdentifier.dot_not_mem {name : String} (h : IsIdentifier name) : '.' ∉ name.toList :=
  not_mem_of_isName h.1 (by decide) (by decide)

/-- Texts that end with a part free of the separator are joined in one way only. -/
theorem join_inj {sep : Char} {xs ys zs ws : List Char} (hys : sep ∉ ys) (hws : sep ∉ ws)
    (h : xs ++ sep :: ys = zs ++ sep :: ws) : xs = zs ∧ ys = ws := by
  rcases List.append_eq_append_iff.mp h with ⟨us, rfl, hu⟩ | ⟨us, rfl, hu⟩
  · cases us with
    | nil => simpa using hu
    | cons u us =>
      rw [List.cons_append, List.cons.injEq] at hu
      exact absurd (by simp [hu.2]) hys
  · cases us with
    | nil => simpa [eq_comm] using hu
    | cons u us =>
      rw [List.cons_append, List.cons.injEq] at hu
      exact absurd (by simp [hu.2]) hws

/-- So are texts that start with such a part. -/
theorem join_inj_left {sep : Char} {xs ys zs ws : List Char} (hxs : sep ∉ xs) (hzs : sep ∉ zs)
    (h : xs ++ sep :: ys = zs ++ sep :: ws) : xs = zs ∧ ys = ws := by
  have hback := congrArg List.reverse h
  simp only [List.reverse_append, List.reverse_cons, List.append_assoc, List.singleton_append]
    at hback
  obtain ⟨hys, hxs⟩ := join_inj (by simpa using hxs) (by simpa using hzs) hback
  exact ⟨List.reverse_inj.mp hxs, List.reverse_inj.mp hys⟩

theorem fullName_inj {l l' : Located} (hl : '.' ∉ l.declaration.name.toList)
    (hl' : '.' ∉ l'.declaration.name.toList) (h : l.fullName = l'.fullName) :
    l.key = l'.key ∧ l.declaration.name = l'.declaration.name := by
  have hchars := congrArg String.toList h
  simp only [Located.fullName, qualifiedName, String.toList_append, List.append_assoc] at hchars
  obtain ⟨hkey, hname⟩ := join_inj hl hl' hchars
  exact ⟨String.toList_inj.mp hkey, String.toList_inj.mp hname⟩

/-! ## Checked documents -/

theorem repetitions_eq_nil_iff {seen names : List String} :
    repetitions seen names = [] ↔ names.Nodup ∧ ∀ name ∈ names, name ∉ seen := by
  induction names generalizing seen with
  | nil => simp [repetitions]
  | cons name names ih =>
    unfold repetitions
    split
    · rename_i hseen
      simp [hseen]
    · rename_i hseen
      rw [ih, List.nodup_cons]
      simp only [List.mem_cons, not_or]
      grind

/-- A document without faults declares no name twice. -/
theorem Model.nodup_names {m : Model} (h : m.analyze = []) :
    (m.declarations.map (·.name)).Nodup := by
  have hnames := (List.append_eq_nil_iff.mp h).1
  rw [List.map_eq_nil_iff] at hnames
  exact (repetitions_eq_nil_iff.mp hnames).1

/-- What the checks of a single document promise about its declarations. -/
structure Model.Faultless (m : Model) : Prop where
  names : (m.declarations.map (·.name)).Nodup
  properties : ∀ d ∈ m.declarations, (d.properties.map (·.name)).Nodup
  values : ∀ d ∈ m.declarations, ∀ values, d.body = .enumeration values → values.Nodup
  scalars : ∀ d ∈ m.declarations, ∀ base, d.body = .scalar base → isPrimitive base = true

theorem nodup_of_no_findings {α : Type} {names : List String} {finding : String → α}
    (h : (repetitions [] names).map finding = []) : names.Nodup :=
  (repetitions_eq_nil_iff.mp (List.map_eq_nil_iff.mp h)).1

theorem Model.checkDeclaration_eq_nil {m : Model} (h : m.analyze = []) {d : Declaration}
    (hd : d ∈ m.declarations) : m.checkDeclaration d = [] :=
  List.flatMap_eq_nil_iff.mp (List.append_eq_nil_iff.mp h).2 d hd

theorem Model.faultless {m : Model} (h : m.analyze = []) : m.Faultless where
  names := m.nodup_names h
  properties d hd := by
    have hcheck := m.checkDeclaration_eq_nil h hd
    simp only [checkDeclaration, Declaration.properties] at hcheck ⊢
    cases hbody : d.body with
    | classBody body =>
      simp only [hbody, checkClass, List.append_eq_nil_iff] at hcheck
      exact nodup_of_no_findings hcheck.1.1
    | enumeration | scalar | map => simp
  values d hd values hbody := by
    have hcheck := m.checkDeclaration_eq_nil h hd
    rw [checkDeclaration, hbody] at hcheck
    exact nodup_of_no_findings hcheck
  scalars d hd base hbody := by
    have hcheck := m.checkDeclaration_eq_nil h hd
    simp only [checkDeclaration, hbody] at hcheck
    split at hcheck
    · assumption
    · cases hcheck

namespace Registry

/-! ## Registration -/

/-- What a registration does: the document is read and has no faults, and either its namespace is
registered from the same text or its model is added. -/
theorem register_cases {r r' : Registry} {text name : String} {outcome : Registration}
    (h : r.register text name = .ok (outcome, r')) :
    ∃ m, Model.read text = .ok m ∧ m.analyze = [] ∧
      ((∃ first, r.entry? m.key = some first ∧ first.text = text ∧
          outcome = .duplicate m.key first.name ∧ r' = r) ∨
        (r.entry? m.key = none ∧ outcome = .added m ∧
          r' = ⟨r.entries ++ [⟨m, name, text⟩]⟩)) := by
  unfold register at h
  split at h
  · cases h
  · rename_i m hread
    split at h
    · rename_i hanalyze
      refine ⟨m, hread, hanalyze, ?_⟩
      unfold add at h
      split at h
      · rename_i first hfirst
        split at h
        · rename_i htext
          cases h
          exact .inl ⟨first, hfirst, htext, rfl, rfl⟩
        · cases h
      · rename_i hnone
        cases h
        exact .inr ⟨hnone, rfl, rfl⟩
    · cases h

/-- The registries that registrations lead to. A registration that fails leaves the registry as it
is. -/
inductive Reachable : Registry → Prop
  | empty : Reachable .empty
  | register {r r' : Registry} {text name : String} {outcome : Registration} :
    Reachable r → r.register text name = .ok (outcome, r') → Reachable r'

/-- Each entry was read from its text and has no faults, and no namespace is registered twice. -/
structure Sound (r : Registry) : Prop where
  keys : r.keys.Nodup
  read : ∀ e ∈ r.entries, Model.read e.text = .ok e.model
  analyzed : ∀ e ∈ r.entries, e.model.analyze = []

theorem entry?_eq_none_iff {r : Registry} {key : String} : r.entry? key = none ↔ key ∉ r.keys := by
  simp [Registry.entry?, Registry.keys]

theorem Sound.empty : Sound .empty :=
  ⟨by simp [Registry.keys, Registry.empty], by simp [Registry.empty], by simp [Registry.empty]⟩

theorem Sound.register {r r' : Registry} {text name : String}
    {outcome : Registration} (hr : r.Sound)
    (h : r.register text name = .ok (outcome, r')) : r'.Sound := by
  obtain ⟨m, hread, hanalyze, ⟨_, _, _, _, rfl⟩ | ⟨hnone, _, rfl⟩⟩ := register_cases h
  · exact hr
  · have hfresh := entry?_eq_none_iff.mp hnone
    constructor
    · have hkeys : (⟨r.entries ++ [⟨m, name, text⟩]⟩ : Registry).keys = r.keys ++ [m.key] := by
        simp [Registry.keys]
      rw [hkeys, List.nodup_append]
      refine ⟨hr.keys, by simp, ?_⟩
      rintro key hkey _ hnew rfl
      rw [List.mem_singleton.mp hnew] at hkey
      exact hfresh hkey
    · simpa [or_imp, forall_and] using ⟨hr.read, hread⟩
    · simpa [or_imp, forall_and] using ⟨hr.analyzed, hanalyze⟩

theorem Reachable.sound {r : Registry} (h : r.Reachable) : r.Sound := by
  induction h with
  | empty => exact .empty
  | register _ h ih => exact ih.register h

/-! ## Registered models and declarations -/

theorem map_key_models (r : Registry) : r.models.map Model.key = r.keys := by
  simp [models, Registry.keys]

theorem Sound.newline_not_mem {r : Registry} (h : r.Sound) {m : Model} (hm : m ∈ r.models) :
    '\n' ∉ m.key.toList := by
  obtain ⟨e, he, rfl⟩ := List.mem_map.mp hm
  exact (Model.wellFormed_of_read (h.read e he)).id.newline_not_mem

/-- The namespace of an entry finds that entry. -/
theorem Sound.entry?_eq_some_iff {r : Registry} (h : r.Sound) {key : String} {e : RegistryEntry} :
    r.entry? key = some e ↔ e ∈ r.entries ∧ e.model.key = key := by
  constructor
  · intro hfound
    exact ⟨List.mem_of_find?_eq_some hfound, by simpa using List.find?_some hfound⟩
  · rintro ⟨he, rfl⟩
    cases hfound : r.entry? e.model.key with
    | none => exact absurd (List.mem_map_of_mem he) (entry?_eq_none_iff.mp hfound)
    | some first =>
      have hkey : first.model.key = e.model.key := by simpa using List.find?_some hfound
      rw [List.inj_on_of_nodup_map h.keys (List.mem_of_find?_eq_some hfound) he hkey]

theorem Sound.wellFormed {r : Registry} (h : r.Sound) {m : Model} (hm : m ∈ r.models) :
    m.WellFormed := by
  obtain ⟨e, he, rfl⟩ := List.mem_map.mp hm
  exact Model.wellFormed_of_read (h.read e he)

theorem Sound.nodup_declared {r : Registry} (h : r.Sound) {m : Model} (hm : m ∈ r.models) :
    (m.declarations.map (·.name)).Nodup := by
  obtain ⟨e, he, rfl⟩ := List.mem_map.mp hm
  exact Model.nodup_names (h.analyzed e he)

theorem Sound.faultless {r : Registry} (h : r.Sound) {m : Model} (hm : m ∈ r.models) :
    m.Faultless := by
  obtain ⟨e, he, rfl⟩ := List.mem_map.mp hm
  exact Model.faultless (h.analyzed e he)

theorem Sound.eq_of_key {r : Registry} (h : r.Sound) {m m' : Model} (hm : m ∈ r.models)
    (hm' : m' ∈ r.models) (hkey : m.key = m'.key) : m = m' :=
  List.inj_on_of_nodup_map (map_key_models r ▸ h.keys) hm hm' hkey

theorem key_of_locate? {m : Model} {name : String} {l : Located} (h : m.locate? name = some l) :
    l.key = m.key := by
  obtain ⟨declaration, -, rfl⟩ := Option.map_eq_some_iff.mp h
  rfl

theorem name_of_locate? {m : Model} {name : String} {l : Located} (h : m.locate? name = some l) :
    l.declaration.name = name := by
  obtain ⟨declaration, hfound, rfl⟩ := Option.map_eq_some_iff.mp h
  simpa using List.find?_some hfound

theorem mem_declarations {r : Registry} {l : Located} :
    l ∈ r.declarations ↔ ∃ m ∈ r.models, l.key = m.key ∧ l.declaration ∈ m.declarations := by
  unfold declarations
  rw [List.mem_flatMap]
  refine exists_congr fun m => and_congr_right fun _ => ?_
  rw [List.mem_map]
  constructor
  · rintro ⟨d, hd, rfl⟩
    exact ⟨rfl, hd⟩
  · rintro ⟨hkey, hd⟩
    exact ⟨l.declaration, hd, by rw [← hkey]⟩

theorem Sound.isName_declaration {r : Registry} (h : r.Sound) {l : Located}
    (hl : l ∈ r.declarations) : IsName l.declaration.name.toList := by
  obtain ⟨m, hm, -, hd⟩ := mem_declarations.mp hl
  exact ((h.wellFormed hm).declarations _ hd).name.1

theorem Sound.dot_not_mem {r : Registry} (h : r.Sound) {l : Located} (hl : l ∈ r.declarations) :
    '.' ∉ l.declaration.name.toList := by
  obtain ⟨m, hm, _, hd⟩ := mem_declarations.mp hl
  exact ((h.wellFormed hm).declarations _ hd).name.dot_not_mem

theorem Sound.nodup_properties {r : Registry} (h : r.Sound) {l : Located}
    (hl : l ∈ r.declarations) :
    (l.declaration.properties.map (·.name)).Nodup := by
  obtain ⟨m, hm, -, hd⟩ := mem_declarations.mp hl
  exact (h.faultless hm).properties _ hd

theorem Sound.property_wellFormed {r : Registry} (h : r.Sound) {l : Located}
    (hl : l ∈ r.declarations) {p : Property} (hp : p ∈ l.declaration.properties) :
    p.WellFormed := by
  obtain ⟨m, hm, -, hd⟩ := mem_declarations.mp hl
  exact ((h.wellFormed hm).declarations _ hd).property hp

theorem Sound.isName_property {r : Registry} (h : r.Sound) {l : Located} (hl : l ∈ r.declarations)
    {p : Property} (hp : p ∈ l.declaration.properties) : IsName p.name.toList :=
  (h.property_wellFormed hl hp).name

/-- A registered declaration is known by its full name. -/
theorem Sound.eq_of_fullName {r : Registry} (h : r.Sound) {l l' : Located} (hl : l ∈ r.declarations)
    (hl' : l' ∈ r.declarations) (hname : l.fullName = l'.fullName) : l = l' := by
  obtain ⟨hkey, hname⟩ := fullName_inj (h.dot_not_mem hl) (h.dot_not_mem hl') hname
  obtain ⟨m, hm, hmkey, hd⟩ := mem_declarations.mp hl
  obtain ⟨m', hm', hmkey', hd'⟩ := mem_declarations.mp hl'
  obtain rfl : m = m' := h.eq_of_key hm hm' (by rw [← hmkey, ← hmkey', hkey])
  have hdeclaration : l.declaration = l'.declaration :=
    List.inj_on_of_nodup_map (h.nodup_declared hm) hd hd' hname
  cases l
  cases l'
  simp_all

theorem Sound.nodup_declarations {r : Registry} (h : r.Sound) : r.declarations.Nodup := by
  unfold declarations
  rw [List.nodup_flatMap]
  constructor
  · intro m hm
    exact (List.Nodup.of_map _ (h.nodup_declared hm)).map fun _ _ he => (Located.mk.inj he).2
  · have hkeys : r.models.Pairwise fun m m' => m.key ≠ m'.key := by
      rw [← List.pairwise_map, map_key_models]
      exact h.keys
    refine hkeys.imp fun hne l hl hl' => hne ?_
    obtain ⟨_, _, rfl⟩ := List.mem_map.mp hl
    obtain ⟨_, _, he⟩ := List.mem_map.mp hl'
    exact (Located.mk.inj he).1.symm

theorem Sound.nodup_names {r : Registry} (h : r.Sound) : r.names.Nodup :=
  h.nodup_declarations.map_on fun _ hl _ hl' hname => h.eq_of_fullName hl hl' hname

end Registry

end Covenant

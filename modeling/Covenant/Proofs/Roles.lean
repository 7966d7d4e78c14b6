/-
Every registered declaration is classified once. It stands in the list of the role that the
rules assign to it or, if they assign none, it is the subject of one finding; no other names
come up, none comes up twice, and all lists keep the order of registration
(`Registry.classify_partition`).

That no name comes up twice rests on two facts: a declaration passes the test of at most one
list, and two declarations never share a full name, even though versions hold points as well.
-/
import Covenant.Classification
import Covenant.Proofs.RegistrationOrder
import Mathlib.Data.List.Forall2
import Mathlib.Data.List.Perm.Basic

namespace Covenant

namespace Registry

variable {r : Registry} {strategy : Strategy}

/-! ## What is said about a declaration -/

/-- A property as it is classified: the declared one, with what a scalar stands for in the place of
the scalar. -/
structure Derives (r : Registry) (key : String) (p : Property) (q : DerivedProperty) : Prop where
  name : q.name = p.name
  type : q.declaredType = (r.scalarBase? key p.typeName).getD p.typeName
  isOptional : q.isOptional = p.isOptional
  isArray : q.isArray = p.isArray
  isRelationship : q.isRelationship = p.isRelationship

/-- A registered declaration as it stands in the list of its role, with all its own properties. -/
structure ListedAs (r : Registry) (strategy : Strategy) (role : Role) (l : Located)
    (c : Classified) : Prop where
  assigned : r.roleOf strategy l = .ok role
  role : c.role = role
  name : c.name = l.declaration.name
  key : c.key = l.key
  fullName : c.fullName = l.fullName
  properties : List.Forall₂ (r.Derives l.key) l.declaration.properties c.properties

/-- A registered declaration without a role, and the finding about it. -/
structure DroppedWith (r : Registry) (strategy : Strategy) (l : Located) (d : Diagnostic) :
    Prop where
  stage : d.stage = .classify
  subject : d.subject = l.fullName
  unassigned : ∃ reason, r.roleOf strategy l = .error reason ∧ d.message = reason.message

theorem derives_deriveProperty (r : Registry) (key : String) (p : Property) :
    r.Derives key p (r.deriveProperty key p) where
  name := rfl
  type := by
    by_cases hprimitive : isPrimitive p.typeName = true
    · -- a primitive type stands for no declaration
      simp [deriveProperty, hprimitive, scalarBase?, resolve?]
    · simp [deriveProperty, hprimitive]
  isOptional := rfl
  isArray := rfl
  isRelationship := rfl

theorem listedAs_classified {role : Role} {l : Located} (h : r.roleOf strategy l = .ok role) :
    r.ListedAs strategy role l (r.classified l role) where
  assigned := h
  role := rfl
  name := rfl
  key := rfl
  fullName := rfl
  properties := List.forall₂_map_right_iff.mpr
    (List.forall₂_same.mpr fun p _ => derives_deriveProperty r l.key p)

/-! ## The lists -/

/-- The list of a role holds declarations in the order of registration. -/
theorem exists_listed (r : Registry) (strategy : Strategy) (role : Role) :
    ∃ ls, ls.Sublist r.declarations ∧
      List.Forall₂ (r.ListedAs strategy role) ls ((r.classify strategy).ofRole role) := by
  refine ⟨r.declarations.filter fun l => (r.roleOf strategy l).toOption = some role,
    List.filter_sublist, ?_⟩
  rw [ofRole_classify, Registry.ofRole, List.forall₂_map_right_iff, List.forall₂_same]
  intro l hl
  have hrole := (List.mem_filter.mp hl).2
  cases hassigned : r.roleOf strategy l with
  | error reason => simp [hassigned, Except.toOption] at hrole
  | ok assigned =>
    obtain rfl : assigned = role := by simpa [hassigned, Except.toOption] using hrole
    exact listedAs_classified hassigned

/-- So do the findings. -/
theorem exists_dropped (r : Registry) (strategy : Strategy) :
    ∃ ls, ls.Sublist r.declarations ∧
      List.Forall₂ (r.DroppedWith strategy) ls (r.classify strategy).diagnostics := by
  rw [diagnostics_classify, dropped]
  induction r.declarations with
  | nil => exact ⟨[], .slnil, .nil⟩
  | cons l rest ih =>
    obtain ⟨ls, hsublist, hdropped⟩ := ih
    cases hassigned : r.roleOf strategy l with
    | ok role => exact ⟨ls, hsublist.cons l, by simpa [hassigned] using hdropped⟩
    | error reason =>
      refine ⟨l :: ls, hsublist.cons_cons l, ?_⟩
      rw [List.filterMap_cons_some (by rw [hassigned])]
      exact .cons ⟨rfl, rfl, reason, hassigned, rfl⟩ hdropped

/-! ## Nothing is lost and nothing comes twice -/

/-- The declarations that pass each of the five tests, and those that pass none. -/
theorem perm_by_role (assigned : Located → Option Role) (ls : List Located) :
    (ls.filter (assigned · = some .request) ++ ls.filter (assigned · = some .response)
      ++ ls.filter (assigned · = some .templateModel) ++ ls.filter (assigned · = some .concept)
      ++ ls.filter (assigned · = some .participant) ++ ls.filter (assigned · = none)).Perm ls := by
  rw [List.perm_iff_count]
  intro l
  have hcount (role? : Option Role) : (ls.filter (assigned · = role?)).count l =
      if assigned l = role? then ls.count l else 0 := by
    split
    · rename_i hl
      exact List.count_filter (by simpa using hl)
    · rename_i hl
      exact List.count_eq_zero.mpr fun hmem => hl (by simpa using (List.mem_filter.mp hmem).2)
  simp only [List.count_append, hcount]
  rcases assigned l with - | role
  · simp
  · cases role <;> simp

theorem fullNames_ofRole (r : Registry) (strategy : Strategy) (role : Role) :
    (r.ofRole strategy role).map (·.fullName) =
      (r.declarations.filter fun l => (r.roleOf strategy l).toOption = some role).map
        (·.fullName) := by
  rw [Registry.ofRole, List.map_map]
  rfl

theorem subjects_dropped (r : Registry) (strategy : Strategy) :
    (r.dropped strategy).map (·.subject) =
      (r.declarations.filter fun l => (r.roleOf strategy l).toOption = none).map
        (·.fullName) := by
  unfold dropped
  induction r.declarations with
  | nil => rfl
  | cons l rest ih =>
    cases hassigned : r.roleOf strategy l with
    | ok role => simpa [hassigned, Except.toOption] using ih
    | error reason => simpa [hassigned, Except.toOption] using ih

theorem perm_names (r : Registry) (strategy : Strategy) :
    ((r.classify strategy).all.map (·.fullName)
      ++ (r.classify strategy).diagnostics.map (·.subject)).Perm r.names := by
  have hperm := (perm_by_role (fun l => (r.roleOf strategy l).toOption) r.declarations).map
    (·.fullName)
  simp only [List.map_append, ← fullNames_ofRole, ← subjects_dropped] at hperm
  simpa only [Classification.all, classify_eq, names, List.map_append] using hperm

end Registry

/-- The classification of a registry divides its declarations: the full names in the lists of the
five roles and the subjects of the findings are together those of all registered declarations, each
once; and the list of a role goes through declarations of that role in the order of registration and
gives all properties of each, as the findings go through the declarations without a role. -/
theorem Registry.classify_partition {r : Registry} (hr : r.Reachable) (strategy : Strategy) :
    let c := r.classify strategy
    (c.all.map (·.fullName) ++ c.diagnostics.map (·.subject)).Perm r.names ∧
      (c.all.map (·.fullName) ++ c.diagnostics.map (·.subject)).Nodup ∧
      (∀ role, ∃ ls, ls.Sublist r.declarations ∧
        List.Forall₂ (r.ListedAs strategy role) ls (c.ofRole role)) ∧
      ∃ ls, ls.Sublist r.declarations ∧ List.Forall₂ (r.DroppedWith strategy) ls c.diagnostics := by
  intro c
  have hperm := r.perm_names strategy
  exact ⟨hperm, hperm.nodup_iff.mpr hr.sound.nodup_names, r.exists_listed strategy,
    r.exists_dropped strategy⟩

/-- Two versions of a namespace that declare the same name, and declarations that play no role. -/
def rolesRegistry : Registry where
  entries := [
    { model := {
        id := ⟨"a", some "1.0.0"⟩
        declarations := [
          ⟨"C", .classBody
            { kind := .concept, properties := [{ name := "s", typeName := "S" }] }, []⟩,
          ⟨"S", .scalar "Long", []⟩] }
      name := "versioned"
      text := "namespace a@1.0.0 concept C\x7bo S s\x7dscalar S extends Long" },
    { model := {
        id := ⟨"a", none⟩
        declarations := [⟨"C", .classBody { kind := .concept }, []⟩,
          ⟨"Q", .classBody { kind := .event, superType? := some "b.Request" }, []⟩,
          ⟨"N", .classBody { kind := .asset, superType? := some "C" }, []⟩] }
      name := "plain"
      text := "namespace a concept C\x7b\x7devent Q extends b.Request\x7b\x7d" ++
        "asset N extends C\x7b\x7d" }]

theorem Registry.classify_partition_versions :
    let r := rolesRegistry
    let c := r.classify .substring
    r.Reachable ∧
      c.all.map (·.fullName) = ["a.Q", "a@1.0.0.C", "a.C"] ∧
      c.diagnostics.map (·.subject) = ["a@1.0.0.S", "a.N"] ∧
      (c.all.map (·.fullName) ++ c.diagnostics.map (·.subject)).Perm r.names ∧
      ∃ ls, ls.Sublist r.declarations ∧
        List.Forall₂ (r.ListedAs .substring .concept) ls c.concepts := by
  intro r c
  have hr : r.Reachable := reachable_of_submissions (by decide +kernel)
  obtain ⟨hperm, -, hlists, -⟩ := classify_partition hr .substring
  exact ⟨hr, by decide +kernel, by decide +kernel, hperm, hlists .concept⟩

end Covenant

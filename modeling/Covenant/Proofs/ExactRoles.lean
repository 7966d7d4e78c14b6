/-
Exact classification is about ancestors. The role of a declaration is computed from the full names
of its supertypes, each of which is taken apart again, at its last point and at the version. Where
validation has nothing to report, what comes out is what inheritance says: a declaration is a
request if and only if an ancestor is the base type of requests, in any version of its namespace,
and so on for the other roles (`Registry.classify_exact`). So whatever extends a request is one.

That names can be taken apart rests on how they are written: no declared name holds a point, and
no name of a namespace holds the sign that divides it from the version.
-/
import Covenant.Proofs.FullNames
import Covenant.Proofs.Lineage
import Covenant.Proofs.Roles

namespace Covenant

open Covenant.Text Relation

namespace Registry

variable {r : Registry} {l : Located}

/-! ## Base types -/

/-- The declaration has the name, in some version of the namespace. -/
def DeclaredAs (r : Registry) (space name : String) (l : Located) : Prop :=
  l.declaration.name = name ∧ ∃ m ∈ r.models, m.key = l.key ∧ m.id.name = space

/-- An ancestor of the declaration has the name, in some version of the namespace. -/
def Inherits (r : Registry) (l : Located) (space name : String) : Prop :=
  ∃ a, TransGen r.Extends l a ∧ r.DeclaredAs space name a

theorem Sound.isBaseType_iff (h : r.Sound) (hl : l ∈ r.declarations) {role : Role} :
    role.isBaseType l.fullName = true ↔ ∃ base ∈ role.baseTypes, r.DeclaredAs base.1 base.2 l := by
  obtain ⟨m, hm, hkey, -⟩ := mem_declarations.mp hl
  have hfull : l.fullName.toList = l.key.toList ++ '.' :: l.declaration.name.toList := by
    simp [Located.fullName, qualifiedName]
  have hspace : beforeFirst '@' (beforeLast '.' l.fullName) = m.id.name := by
    rw [beforeLast_eq hfull (h.dot_not_mem hl), hkey]
    exact Namespace.beforeFirst_key (h.at_not_mem hm)
  have hdeclared (space name : String) :
      r.DeclaredAs space name l ↔ (m.id.name, l.declaration.name) = (space, name) := by
    constructor
    · rintro ⟨rfl, m', hm', hkey', rfl⟩
      rw [h.eq_of_key hm hm' (hkey.symm.trans hkey'.symm)]
    · intro he
      cases he
      exact ⟨rfl, m, hm, hkey.symm, rfl⟩
  rw [Role.isBaseType, hspace, afterLast_eq hfull (h.dot_not_mem hl), List.contains_iff_mem]
  simp only [hdeclared, exists_eq_right']

theorem Sound.extendedBy_exact_iff (h : r.Sound) (hvalid : r.validate = [])
    (hl : l ∈ r.declarations) {role : Role} : role.extendedBy .exact (r.superTypeNames l) = true ↔
      ∃ base ∈ role.baseTypes, r.Inherits l base.1 base.2 := by
  rw [Role.extendedBy, h.superTypeNames_eq hvalid hl, List.any_map, List.any_eq_true]
  constructor
  · rintro ⟨a, ha, hbase⟩
    have hway := (h.mem_ancestorsFrom_iff hvalid hl).mp ha
    obtain ⟨base, hbase, hdeclared⟩ := (h.isBaseType_iff (mem_of_transGen hway).2).mp hbase
    exact ⟨base, hbase, a, hway, hdeclared⟩
  · rintro ⟨base, hbase, a, hway, hdeclared⟩
    exact ⟨a, (h.mem_ancestorsFrom_iff hvalid hl).mpr hway,
      (h.isBaseType_iff (mem_of_transGen hway).2).mpr ⟨base, hbase, hdeclared⟩⟩

/-- What an ancestor inherits is inherited. -/
theorem Inherits.of_transGen {a : Located} {space name : String} (h : r.Inherits a space name)
    (hway : TransGen r.Extends l a) : r.Inherits l space name := by
  obtain ⟨b, hab, hdeclared⟩ := h
  exact ⟨b, hway.trans hab, hdeclared⟩

/-! ## The rules -/

section Rules

variable {strategy : Strategy} {kind : DeclarationKind} {superTypes : List String}

theorem assignRole_eq_request_iff : assignRole strategy kind superTypes = .ok .request ↔
    Role.request.extendedBy strategy superTypes = true := by
  cases superTypes <;> grind [assignRole]

theorem assignRole_eq_response_iff : assignRole strategy kind superTypes = .ok .response ↔
    assignRole strategy kind superTypes ≠ .ok .request ∧
      Role.response.extendedBy strategy superTypes = true := by
  cases superTypes <;> grind [assignRole]

theorem assignRole_eq_templateModel_iff : assignRole strategy kind superTypes = .ok .templateModel ↔
    assignRole strategy kind superTypes ≠ .ok .request ∧
      assignRole strategy kind superTypes ≠ .ok .response ∧
      kind = .classKind .asset ∧ Role.templateModel.extendedBy strategy superTypes = true := by
  cases superTypes <;> grind [assignRole]

end Rules

/-- A declaration stands in the list of the role that it is assigned. -/
theorem Sound.mem_fullNames_iff (h : r.Sound) (hl : l ∈ r.declarations) (strategy : Strategy)
    (role : Role) : l.fullName ∈ ((r.classify strategy).ofRole role).map (·.fullName) ↔
      r.roleOf strategy l = .ok role := by
  have htoOption : (r.roleOf strategy l).toOption = some role ↔ r.roleOf strategy l = .ok role := by
    cases r.roleOf strategy l <;> simp [Except.toOption]
  rw [ofRole_classify, fullNames_ofRole, List.mem_map, ← htoOption]
  constructor
  · rintro ⟨d, hd, hname⟩
    obtain ⟨hd, hrole⟩ := List.mem_filter.mp hd
    obtain rfl := h.eq_of_fullName hd hl hname
    exact of_decide_eq_true hrole
  · intro hrole
    exact ⟨l, List.mem_filter.mpr ⟨hl, decide_eq_true hrole⟩, rfl⟩

/-- Exact classification is inheritance. If validation has nothing to report, a declaration is a
request if and only if an ancestor is declared as `Request` in some version of the runtime
namespace; a response if it is no request and an ancestor is declared as `Response` there; and a
template model if it is neither, an asset, and an ancestor is declared as `Clause` or `Contract` in
some version of the contract namespace. So all that extends a request, in any number of steps, is a
request. -/
theorem classify_exact (hr : r.Reachable) (hvalid : r.validate = []) :
    let c := r.classify .exact
    (∀ l ∈ r.declarations,
      (l.fullName ∈ c.requests.map (·.fullName) ↔
        r.Inherits l "org.accordproject.runtime" "Request") ∧
      (l.fullName ∈ c.responses.map (·.fullName) ↔
        l.fullName ∉ c.requests.map (·.fullName) ∧
          r.Inherits l "org.accordproject.runtime" "Response") ∧
      (l.fullName ∈ c.templateModels.map (·.fullName) ↔
        l.fullName ∉ c.requests.map (·.fullName) ∧ l.fullName ∉ c.responses.map (·.fullName) ∧
          l.declaration.kind = .classKind .asset ∧
          (r.Inherits l "org.accordproject.contract" "Clause" ∨
            r.Inherits l "org.accordproject.contract" "Contract"))) ∧
    ∀ d e, TransGen r.Extends d e → e.fullName ∈ c.requests.map (·.fullName) →
      d.fullName ∈ c.requests.map (·.fullName) := by
  intro c
  have hsound := hr.sound
  have hrequests (l : Located) (hl : l ∈ r.declarations) :
      l.fullName ∈ c.requests.map (·.fullName) ↔ r.roleOf .exact l = .ok .request :=
    hsound.mem_fullNames_iff hl .exact .request
  have hresponses (l : Located) (hl : l ∈ r.declarations) :
      l.fullName ∈ c.responses.map (·.fullName) ↔ r.roleOf .exact l = .ok .response :=
    hsound.mem_fullNames_iff hl .exact .response
  have htemplates (l : Located) (hl : l ∈ r.declarations) :
      l.fullName ∈ c.templateModels.map (·.fullName) ↔ r.roleOf .exact l = .ok .templateModel :=
    hsound.mem_fullNames_iff hl .exact .templateModel
  have hinherits (l : Located) (hl : l ∈ r.declarations) :
      l.fullName ∈ c.requests.map (·.fullName) ↔
        r.Inherits l "org.accordproject.runtime" "Request" := by
    rw [hrequests l hl, roleOf, assignRole_eq_request_iff, hsound.extendedBy_exact_iff hvalid hl]
    simp [Role.baseTypes]
  refine ⟨fun l hl => ⟨hinherits l hl, ?_, ?_⟩, fun d e hway he => ?_⟩
  · rw [hresponses l hl, hrequests l hl, roleOf, assignRole_eq_response_iff,
      hsound.extendedBy_exact_iff hvalid hl]
    simp [Role.baseTypes]
  · rw [htemplates l hl, hresponses l hl, hrequests l hl, roleOf, assignRole_eq_templateModel_iff,
      hsound.extendedBy_exact_iff hvalid hl]
    simp [Role.baseTypes]
  · obtain ⟨hd, hmem⟩ := mem_of_transGen hway
    exact (hinherits d hd).mpr (((hinherits e hmem).mp he).of_transGen hway)

/-- A transaction without properties. -/
def emptyTransaction (name : String) (superType? : Option String) : Declaration where
  name
  body := .classBody { kind := .transaction, superType? }

/-- A transaction two steps below the base type of requests, in a version with points. -/
def requestRegistry : Registry where
  entries := [
    { model := {
        id := ⟨"org.accordproject.runtime", some "0.2.0"⟩
        declarations := [emptyTransaction "Request" none] }
      name := "runtime.cto"
      text := "namespace org.accordproject.runtime@0.2.0 transaction Request\x7b\x7d" },
    { model := {
        id := ⟨"a", none⟩
        declarations := [emptyTransaction "R" (some "Q"),
          emptyTransaction "Q" (some "org.accordproject.runtime.Request")] }
      name := "a.cto"
      text := "namespace a transaction R extends Q\x7b\x7d" ++
        "transaction Q extends org.accordproject.runtime.Request\x7b\x7d" }]

/-- The base type of requests is none itself. -/
theorem classify_exact_requests :
    let registry := requestRegistry
    let c := registry.classify .exact
    let base : Located := ⟨"org.accordproject.runtime@0.2.0", emptyTransaction "Request" none⟩
    let q : Located := ⟨"a", emptyTransaction "Q" (some "org.accordproject.runtime.Request")⟩
    let top : Located := ⟨"a", emptyTransaction "R" (some "Q")⟩
    registry.Reachable ∧ registry.validate = [] ∧
      c.requests.map (·.fullName) = ["a.R", "a.Q"] ∧
      TransGen registry.Extends top q ∧ top.fullName ∈ c.requests.map (·.fullName) ∧
      registry.Inherits top "org.accordproject.runtime" "Request" ∧
      base ∈ registry.declarations ∧
        ¬ registry.Inherits base "org.accordproject.runtime" "Request" := by
  intro registry c base q top
  have hr : registry.Reachable := reachable_of_submissions (by decide +kernel)
  have hinheritance : registry.inheritance.entries =
      [("a.R", ["a.Q"]), ("a.Q", ["org.accordproject.runtime@0.2.0.Request"])] := by decide
  have hcycle : registry.inheritance.cycle? = none := by
    simp [Graph.cycle?, Graph.nodes, Graph.neighbours, List.lookup_cons,
      hinheritance, Graph.explore]
  have hvalid : registry.validate = [] := by
    rw [validate, hcycle]
    decide
  have hrequests : c.requests.map (·.fullName) = ["a.R", "a.Q"] := by decide +kernel
  have hextends : registry.Extends top q := ⟨by decide, "Q", rfl, by decide⟩
  have hbase : base ∈ registry.declarations := by decide
  obtain ⟨hroles, hbelow⟩ := classify_exact hr hvalid
  have htop : top.fullName ∈ c.requests.map (·.fullName) :=
    hbelow top q (.single hextends) (by rw [hrequests]; decide)
  refine ⟨hr, hvalid, hrequests, .single hextends, htop,
    (hroles top hextends.mem.1).1.mp htop, hbase, fun hinherits => ?_⟩
  have hmem := (hroles base hbase).1.mpr hinherits
  rw [hrequests] at hmem
  exact absurd hmem (by decide)

end Registry

end Covenant

/-
The two walks up from a declaration, the one that collects properties and the one that
collects the names of supertypes. Both go from a declaration to what it extends and stop at a
name that they have met before, but not at the same name: the first knows a declaration by
its own name, the second by that of its supertype, which may be a name that stands for
nothing. So they are one walk (`Registry.turn`), with the name that it looks at as a parameter.

Whatever is registered, both end after at most as many turns as there are declarations, since
no declaration is passed twice. Where validation has nothing to report, neither is ever stopped
by a name that came up before, and both pass the ancestors of the declaration, nearest first
(`Registry.walks_agree`).
-/
import Covenant.Proofs.Lineage
import Covenant.Proofs.RegistrationOrder
import Mathlib.Data.List.Perm.Subperm

namespace Covenant

/-- A way up: the declarations that it has passed, the latest first, and the one that it has come
to, if there is one. -/
structure Ascent where
  passed : List Located
  current : Option Located

/-- What comes of one turn of a walk. -/
inductive Turn where
  /-- Nothing is left to look at. -/
  | ends
  /-- The name came up before. -/
  | guarded
  | passes (next : Ascent)

/-- The names that a walk has met on its way. -/
def Ascent.names (label : Located → Option String) (a : Ascent) : List String :=
  a.passed.filterMap label

theorem Ascent.names_cons {label : Located → Option String} {l : Located} {name : String}
    (h : label l = some name) (a : Ascent) (next : Option Located) :
    (⟨l :: a.passed, next⟩ : Ascent).names label = name :: a.names label :=
  List.filterMap_cons_some h

namespace Registry

open Relation

/-! ## The walk -/

/-- One turn of the walk that knows a declaration by the name `label` gives it. The walk goes on to
the supertype, unless the name came up before. -/
def turn (r : Registry) (label : Located → Option String) (a : Ascent) : Turn :=
  match a.current with
  | none => .ends
  | some l =>
    match label l with
    | none => .ends
    | some name =>
      if name ∈ a.names label then .guarded else .passes ⟨l :: a.passed, r.superType? l⟩

/-- The walk from `l` comes to `a` after `n` turns. -/
inductive Climbs (r : Registry) (label : Located → Option String) (l : Located) :
    Nat → Ascent → Prop
  | start : Climbs r label l 0 ⟨[], some l⟩
  | turn {n : Nat} {a next : Ascent} : Climbs r label l n a → r.turn label a = .passes next →
    Climbs r label l (n + 1) next

/-- The walk goes no further. -/
def Halted (r : Registry) (label : Located → Option String) (a : Ascent) : Prop :=
  r.turn label a = .ends ∨ r.turn label a = .guarded

variable {r : Registry} {label : Located → Option String} {l : Located} {n : Nat} {a : Ascent}

theorem turn_eq_passes_iff {next : Ascent} :
    r.turn label a = .passes next ↔ ∃ l name, a.current = some l ∧ label l = some name ∧
      name ∉ a.names label ∧ next = ⟨l :: a.passed, r.superType? l⟩ := by
  grind [turn]

theorem turn_eq_guarded_iff :
    r.turn label a = .guarded ↔
      ∃ l name, a.current = some l ∧ label l = some name ∧ name ∈ a.names label := by
  grind [turn]

theorem turn_eq_ends_iff :
    r.turn label a = .ends ↔ ∀ l, a.current = some l → label l = none := by
  grind [turn]

theorem halted_or_passes (r : Registry) (label : Located → Option String) (a : Ascent) :
    r.Halted label a ∨ ∃ next, r.turn label a = .passes next := by
  unfold Halted
  cases r.turn label a with
  | ends => exact .inl (.inl rfl)
  | guarded => exact .inl (.inr rfl)
  | passes next => exact .inr ⟨next, rfl⟩

/-! ## Every walk ends -/

namespace Climbs

theorem length_passed (h : r.Climbs label l n a) : a.passed.length = n := by
  induction h with
  | start => rfl
  | turn _ hturn ih =>
    obtain ⟨_, _, -, -, -, rfl⟩ := turn_eq_passes_iff.mp hturn
    rw [List.length_cons, ih]

/-- No name is met twice. -/
theorem nodup_names (h : r.Climbs label l n a) : (a.names label).Nodup := by
  induction h with
  | start => exact List.nodup_nil
  | @turn n a next _ hturn ih =>
    obtain ⟨c, name, -, hname, hfresh, rfl⟩ := turn_eq_passes_iff.mp hturn
    rw [Ascent.names_cons hname]
    exact List.nodup_cons.mpr ⟨hfresh, ih⟩

/-- So no declaration is passed twice. -/
theorem nodup_passed (h : r.Climbs label l n a) : a.passed.Nodup := by
  induction h with
  | start => exact List.nodup_nil
  | @turn n a next _ hturn ih =>
    obtain ⟨c, name, -, hname, hfresh, rfl⟩ := turn_eq_passes_iff.mp hturn
    exact List.nodup_cons.mpr ⟨fun hc => hfresh (List.mem_filterMap.mpr ⟨c, hc, hname⟩), ih⟩

theorem mem_declarations (hl : l ∈ r.declarations) (h : r.Climbs label l n a) :
    (∀ p ∈ a.passed, p ∈ r.declarations) ∧ ∀ c, a.current = some c → c ∈ r.declarations := by
  induction h with
  | start => simpa using hl
  | @turn n a next _ hturn ih =>
    obtain ⟨c, _, hc, -, -, rfl⟩ := turn_eq_passes_iff.mp hturn
    exact ⟨List.forall_mem_cons.mpr ⟨ih.2 c hc, ih.1⟩, fun d hd => superType?_mem hd⟩

theorem le_length (hl : l ∈ r.declarations) (h : r.Climbs label l n a) :
    n ≤ r.declarations.length := by
  rw [← h.length_passed]
  exact (List.subperm_of_subset h.nodup_passed (h.mem_declarations hl).1).length_le

end Climbs

/-- Every walk ends after at most as many turns as there are declarations. -/
theorem exists_halted (hl : l ∈ r.declarations) (label : Located → Option String) :
    ∃ n a, n ≤ r.declarations.length ∧ r.Climbs label l n a ∧ r.Halted label a := by
  refine Classical.byContradiction fun hnone => ?_
  -- otherwise it would take any number of turns
  have hclimbs (n : Nat) : ∃ a, r.Climbs label l n a := by
    induction n with
    | zero => exact ⟨_, .start⟩
    | succ n ih =>
      obtain ⟨a, ha⟩ := ih
      rcases r.halted_or_passes label a with hhalted | ⟨next, hnext⟩
      · exact absurd ⟨n, a, ha.le_length hl, ha, hhalted⟩ hnone
      · exact ⟨next, ha.turn hnext⟩
  obtain ⟨a, ha⟩ := hclimbs (r.declarations.length + 1)
  exact absurd (ha.le_length hl) (by omega)

/-! ## The walk that collects properties -/

/-- A declaration is known by its own name. -/
def ownName (l : Located) : Option String :=
  some l.fullName

theorem names_ownName (a : Ascent) : a.names ownName = a.passed.map (·.fullName) :=
  congrFun (List.filterMap_eq_map (f := Located.fullName)) a.passed

/-- What the lineage still holds above the declarations passed. -/
def lineageAbove (r : Registry) (a : Ascent) : List Located :=
  a.current.elim [] fun c =>
    if c.fullName ∈ a.names ownName then []
      else c :: r.ancestorsFrom (c.fullName :: a.names ownName) c

theorem ancestorsFrom_eq_elim (r : Registry) (seen : List String) (l : Located) :
    r.ancestorsFrom seen l = (r.superType? l).elim [] fun next =>
      if next.fullName ∈ seen then []
        else next :: r.ancestorsFrom (next.fullName :: seen) next := by
  cases hnext : r.superType? l with
  | none => exact ancestorsFrom_none hnext seen
  | some next => exact ancestorsFrom_some hnext seen

theorem Climbs.lineage_eq (h : r.Climbs ownName l n a) :
    r.lineage l = a.passed.reverse ++ r.lineageAbove a := by
  induction h with
  | start => rfl
  | @turn n a next _ hturn ih =>
    obtain ⟨c, name, hc, hname, hfresh, rfl⟩ := turn_eq_passes_iff.mp hturn
    obtain rfl := Option.some.inj hname
    rw [ih, lineageAbove, hc, Option.elim_some, if_neg hfresh, ancestorsFrom_eq_elim,
      List.reverse_cons, List.append_assoc, List.singleton_append]
    rfl

theorem lineageAbove_of_halted (h : r.Halted ownName a) : r.lineageAbove a = [] := by
  unfold lineageAbove
  rcases h with hends | hguarded
  · cases hc : a.current with
    | none => rfl
    | some c => exact absurd (turn_eq_ends_iff.mp hends c hc) (by simp [ownName])
  · obtain ⟨c, name, hc, hname, hseen⟩ := turn_eq_guarded_iff.mp hguarded
    obtain rfl := Option.some.inj hname
    rw [hc, Option.elim_some, if_pos hseen]

/-! ## The walk that collects names -/

theorem superTypeName?_of_superType? {next : Located} (h : r.superType? l = some next) :
    r.superTypeName? l = some next.fullName := by
  obtain ⟨written, hwritten, hfound⟩ := superType?_eq_some_iff.mp h
  simp [superTypeName?, hwritten, hfound]

theorem superTypeName?_of_none (h : r.superType? l = none) :
    r.superTypeName? l = l.declaration.superType? := by
  unfold superType? at h
  unfold superTypeName?
  cases hwritten : l.declaration.superType? with
  | none => rfl
  | some written =>
    rw [hwritten, Option.bind_some] at h
    simp [h]

theorem superTypeNamesFrom_eq_elim (r : Registry) (seen : List String) (l : Located) :
    r.superTypeNamesFrom seen l = (r.superTypeName? l).elim [] fun name =>
      if name ∈ seen then []
      else name :: (r.superType? l).elim [] (r.superTypeNamesFrom (name :: seen)) := by
  cases hnext : r.superType? l with
  | some next => rw [superTypeNamesFrom_some hnext, superTypeName?_of_superType? hnext]; rfl
  | none =>
    rw [superTypeNamesFrom_none hnext, superTypeName?_of_none hnext]
    cases l.declaration.superType? <;> rfl

/-- The names that are still to come. -/
def namesAbove (r : Registry) (a : Ascent) : List String :=
  a.current.elim [] (r.superTypeNamesFrom (a.names r.superTypeName?))

theorem Climbs.superTypeNames_eq (h : r.Climbs r.superTypeName? l n a) :
    r.superTypeNames l = (a.names r.superTypeName?).reverse ++ r.namesAbove a := by
  induction h with
  | start => rfl
  | @turn n a next _ hturn ih =>
    obtain ⟨c, name, hc, hname, hfresh, rfl⟩ := turn_eq_passes_iff.mp hturn
    rw [ih, namesAbove, hc, Option.elim_some, superTypeNamesFrom_eq_elim, hname, Option.elim_some,
      if_neg hfresh, namesAbove, Ascent.names_cons hname, List.reverse_cons, List.append_assoc,
      List.singleton_append]

theorem namesAbove_of_halted (h : r.Halted r.superTypeName? a) : r.namesAbove a = [] := by
  unfold namesAbove
  cases hc : a.current with
  | none => rfl
  | some c =>
    rw [Option.elim_some, superTypeNamesFrom_eq_elim]
    rcases h with hends | hguarded
    · rw [turn_eq_ends_iff.mp hends c hc, Option.elim_none]
    · obtain ⟨c', name, hc', hname, hseen⟩ := turn_eq_guarded_iff.mp hguarded
      obtain rfl : c = c' := Option.some.inj (hc.symm.trans hc')
      rw [hname, Option.elim_some, if_pos hseen]

/-! ## Without cycles -/

/-- What has been passed leads up to where the walk has come. -/
theorem Climbs.transGen_extends (hl : l ∈ r.declarations) (h : r.Climbs label l n a) {c : Located}
    (hc : a.current = some c) : ∀ p ∈ a.passed, TransGen r.Extends p c := by
  induction h generalizing c with
  | start => simp
  | @turn n a next hclimbs hturn ih =>
    obtain ⟨d, _, hd, -, -, rfl⟩ := turn_eq_passes_iff.mp hturn
    have hextends : r.Extends d c := extends_of_superType? ((hclimbs.mem_declarations hl).2 d hd) hc
    exact List.forall_mem_cons.mpr ⟨.single hextends, fun p hp => (ih hd p hp).tail hextends⟩

/-- A walk is never stopped if the names of declarations differ from those of their ancestors. -/
theorem Climbs.turn_ne_guarded (hl : l ∈ r.declarations) (h : r.Climbs label l n a)
    (hapart : ∀ p c name, TransGen r.Extends p c → label p = some name → label c ≠ some name) :
    r.turn label a ≠ .guarded := by
  intro hguarded
  obtain ⟨c, name, hc, hname, hseen⟩ := turn_eq_guarded_iff.mp hguarded
  obtain ⟨p, hp, hpname⟩ := List.mem_filterMap.mp hseen
  exact hapart p c name (h.transGen_extends hl hc p hp) hpname hname

theorem Sound.ownName_apart (h : r.Sound) (hvalid : r.validate = []) (p c : Located) (name : String)
    (hway : TransGen r.Extends p c) (hp : ownName p = some name) : ownName c ≠ some name := by
  intro hc
  obtain ⟨hpmem, hcmem⟩ := mem_of_transGen hway
  obtain rfl : p = c := h.eq_of_fullName hpmem hcmem (Option.some.inj (hp.trans hc.symm))
  exact h.acyclic hvalid p hway

/-- Two declarations on one way up do not extend the same. -/
theorem Sound.superTypeName?_apart (h : r.Sound) (hvalid : r.validate = []) (p c : Located)
    (name : String) (hway : TransGen r.Extends p c) (hp : r.superTypeName? p = some name) :
    r.superTypeName? c ≠ some name := by
  intro hc
  have hcmem := (mem_of_transGen hway).2
  obtain ⟨q, hpq, hqc⟩ := TransGen.head'_iff.mp hway
  rw [superTypeName?_of_superType? hpq.superType?] at hp
  obtain ⟨written, hwritten, -⟩ := Option.map_eq_some_iff.mp hc
  obtain ⟨d, hd, -⟩ := exists_superType? hvalid hcmem hwritten
  rw [superTypeName?_of_superType? hd] at hc
  have hcd := extends_of_superType? hcmem hd
  obtain rfl : q = d := h.eq_of_fullName hpq.mem.2 hcd.mem.2 (Option.some.inj (hp.trans hc.symm))
  exact h.acyclic hvalid c (TransGen.head' hcd hqc)

theorem implicitProperties_sublist (r : Registry) (l : Located) :
    (r.implicitProperties l).Sublist [classProperty, identifierProperty, timestampProperty] := by
  unfold implicitProperties
  split <;> split <;> decide

/-- Whatever is registered, both walks end; the one uses the properties of no declaration twice, and
the other gives no name twice. If validation has nothing to report, neither is stopped by a name
that came up before: the names are those of the ancestors, nearest first, and the properties those
of the same ancestors from the root down, followed by the declaration's own. -/
theorem walks_agree (hr : r.Reachable) (hl : l ∈ r.declarations) :
    (r.implicitProperties l).Sublist [classProperty, identifierProperty, timestampProperty] ∧
    (∃ n a, n ≤ r.declarations.length ∧ r.Climbs ownName l n a ∧ r.Halted ownName a ∧
      (a.passed.map (·.fullName)).Nodup ∧
      r.allProperties l =
        r.implicitProperties l ++ a.passed.flatMap (·.declaration.properties)) ∧
    (∃ n a, n ≤ r.declarations.length ∧ r.Climbs r.superTypeName? l n a ∧
      r.Halted r.superTypeName? a ∧ (r.superTypeNames l).Nodup ∧
      r.superTypeNames l = a.passed.reverse.filterMap r.superTypeName?) ∧
    (r.validate = [] →
      (∀ n a, r.Climbs ownName l n a → r.turn ownName a ≠ .guarded) ∧
      (∀ n a, r.Climbs r.superTypeName? l n a → r.turn r.superTypeName? a ≠ .guarded) ∧
      ∃ ancestors, (∀ a, a ∈ ancestors ↔ TransGen r.Extends l a) ∧
        (l :: ancestors).IsChain r.Extends ∧
        r.superTypeNames l = ancestors.map (·.fullName) ∧
        r.allProperties l = r.implicitProperties l ++
          ancestors.reverse.flatMap (·.declaration.properties) ++ l.declaration.properties) := by
  have h := hr.sound
  refine ⟨r.implicitProperties_sublist l, ?_, ?_, fun hvalid => ⟨?_, ?_, ?_⟩⟩
  · obtain ⟨n, a, hn, hclimbs, hhalted⟩ := exists_halted hl ownName
    have hlineage := hclimbs.lineage_eq
    rw [lineageAbove_of_halted hhalted, List.append_nil] at hlineage
    refine ⟨n, a, hn, hclimbs, hhalted, names_ownName a ▸ hclimbs.nodup_names, ?_⟩
    rw [allProperties, hlineage, List.reverse_reverse]
  · obtain ⟨n, a, hn, hclimbs, hhalted⟩ := exists_halted hl r.superTypeName?
    have hnames := hclimbs.superTypeNames_eq
    rw [namesAbove_of_halted hhalted, List.append_nil] at hnames
    refine ⟨n, a, hn, hclimbs, hhalted, ?_, ?_⟩
    · rw [hnames]
      exact List.nodup_reverse.mpr hclimbs.nodup_names
    · rw [hnames, Ascent.names, List.filterMap_reverse]
  · exact fun n a hclimbs => hclimbs.turn_ne_guarded hl (h.ownName_apart hvalid)
  · exact fun n a hclimbs => hclimbs.turn_ne_guarded hl (h.superTypeName?_apart hvalid)
  · refine ⟨r.ancestorsFrom [l.fullName] l, fun a => h.mem_ancestorsFrom_iff hvalid hl,
      isChain_ancestorsFrom hl _, h.superTypeNames_eq hvalid hl, ?_⟩
    simp [allProperties, lineage]

/-- A concept with one text. -/
def ascentConcept (name : String) (superType? : Option String) : Declaration where
  name
  body := .classBody
    { kind := .concept, superType?, properties := [{ name := "x", typeName := "String" }] }

/-- Two concepts that extend each other, and one that extends them. -/
def loopRegistry : Registry where
  entries := [{
    model := {
      id := ⟨"a", none⟩
      declarations := [ascentConcept "A" (some "B"), ascentConcept "B" (some "A"),
        ascentConcept "C" (some "A")] }
    name := "a.cto"
    text := "namespace a concept A extends B\x7bo String x\x7d" ++
      "concept B extends A\x7bo String x\x7dconcept C extends A\x7bo String x\x7d" }]

/-- Three concepts in two namespaces, each of which extends the next. -/
def stairRegistry : Registry where
  entries := [
    { model := {
        id := ⟨"a", some "1.0"⟩
        declarations := [ascentConcept "A" (some "B"), ascentConcept "B" none] }
      name := "a.cto"
      text := "namespace a@1.0 concept A extends B\x7bo String x\x7dconcept B\x7bo String x\x7d" },
    { model := {
        id := ⟨"b", none⟩
        declarations := [ascentConcept "B" (some "a.A")] }
      name := "b.cto"
      text := "namespace b concept B extends a.A\x7bo String x\x7d" }]

/-- In the loop the walks meet names again: that of properties after `C`, `A` and `B`, and that of
names after both supertypes. On the stairs they go up to the end. -/
theorem walks_agree_loop :
    let c : Located := ⟨"a", ascentConcept "C" (some "A")⟩
    let b : Located := ⟨"b", ascentConcept "B" (some "a.A")⟩
    loopRegistry.Reachable ∧ c ∈ loopRegistry.declarations ∧
      loopRegistry.superTypeNames c = ["a.A", "a.B"] ∧
      (∃ n a, n ≤ 3 ∧ loopRegistry.Climbs ownName c n a ∧ loopRegistry.Halted ownName a ∧
        (a.passed.map (·.fullName)).Nodup) ∧
      (loopRegistry.superTypeNames c).Nodup ∧
    stairRegistry.Reachable ∧ b ∈ stairRegistry.declarations ∧ stairRegistry.validate = [] ∧
      stairRegistry.superTypeNames b = ["a@1.0.A", "a@1.0.B"] ∧
      (∀ n a, stairRegistry.Climbs ownName b n a → stairRegistry.turn ownName a ≠ .guarded) ∧
      ∃ ancestors : List Located, (∀ a, a ∈ ancestors ↔ TransGen stairRegistry.Extends b a) ∧
        stairRegistry.superTypeNames b = ancestors.map (·.fullName) := by
  intro c b
  have hloop : loopRegistry.Reachable := reachable_of_submissions (by decide +kernel)
  have hstair : stairRegistry.Reachable := reachable_of_submissions (by decide +kernel)
  have hc : c ∈ loopRegistry.declarations := by decide
  have hb : b ∈ stairRegistry.declarations := by decide
  have hinheritance : stairRegistry.inheritance.entries =
      [("a@1.0.A", ["a@1.0.B"]), ("b.B", ["a@1.0.A"])] := by decide
  have hcycle : stairRegistry.inheritance.cycle? = none := by
    simp [Graph.cycle?, Graph.nodes, Graph.neighbours, List.lookup_cons,
      hinheritance, Graph.explore]
  have hvalid : stairRegistry.validate = [] := by
    rw [validate, hcycle]
    decide
  obtain ⟨-, ⟨n, a, hn, hclimbs, hhalted, hnodup, -⟩, ⟨-, -, -, -, -, hnames, -⟩, -⟩ :=
    walks_agree hloop hc
  obtain ⟨hfree, -, ancestors, hmem, -, hancestors, -⟩ := (walks_agree hstair hb).2.2.2 hvalid
  exact ⟨hloop, hc, by decide +kernel, ⟨n, a, hn, hclimbs, hhalted, hnodup⟩, hnames,
    hstair, hb, hvalid, by decide +kernel, hfree, ancestors, hmem, hancestors⟩

end Registry

end Covenant

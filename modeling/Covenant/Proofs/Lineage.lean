/-
The walk from a declaration up to its supertypes finds all its ancestors, and each once
(`Registry.Sound.mem_lineage_iff`, `Registry.nodup_lineage`). It stops at a name that came
up before, which loses nothing: by then all declarations on the way have been seen with
what they extend. Where validation has nothing to report, it never stops there: the lineage
of a declaration is the declaration followed by the lineage of what it extends
(`Registry.Sound.lineage_of_extends`), and the names of the supertypes are those of its other
members (`Registry.Sound.superTypeNames_eq`).
-/
import Covenant.Proofs.SameLookups

namespace Covenant.Registry

open Relation

/-! ## Each once -/

theorem nodup_ancestorsFrom (r : Registry) (seen : List String) (l : Located) :
    ((r.ancestorsFrom seen l).map (·.fullName)).Nodup ∧
      ∀ a ∈ r.ancestorsFrom seen l, a.fullName ∉ seen := by
  fun_induction Registry.ancestorsFrom r seen l with
  | case1 => simp
  | case2 => simp
  | case3 seen l next hnext hfresh ih =>
    obtain ⟨hnodup, hunseen⟩ := ih
    constructor
    · rw [List.map_cons, List.nodup_cons]
      refine ⟨fun hmem => ?_, hnodup⟩
      obtain ⟨a, ha, hname⟩ := List.mem_map.mp hmem
      exact hunseen a ha (by simp [hname])
    · rw [List.forall_mem_cons]
      exact ⟨hfresh, fun a ha hseen => hunseen a ha (List.mem_cons_of_mem _ hseen)⟩

theorem nodup_lineage (r : Registry) (l : Located) : (r.lineage l).Nodup := by
  obtain ⟨hnodup, hunseen⟩ := r.nodup_ancestorsFrom [l.fullName] l
  exact List.nodup_cons.mpr ⟨fun hmem => hunseen l hmem (by simp), hnodup.of_map⟩

/-! ## All of them -/

theorem extends_of_superType? {r : Registry} {l next : Located} (hl : l ∈ r.declarations)
    (h : r.superType? l = some next) : r.Extends l next :=
  ⟨hl, superType?_eq_some_iff.mp h⟩

theorem Extends.superType? {r : Registry} {l next : Located} (h : r.Extends l next) :
    r.superType? l = some next :=
  superType?_eq_some_iff.mpr h.2

theorem mem_declarations_of_reflTransGen {r : Registry} {l a : Located} (hl : l ∈ r.declarations)
    (h : ReflTransGen r.Extends l a) : a ∈ r.declarations := by
  rcases h.cases_tail with rfl | ⟨_, -, hlast⟩
  · exact hl
  · exact hlast.mem.2

theorem mem_of_transGen {r : Registry} {p c : Located} (h : TransGen r.Extends p c) :
    p ∈ r.declarations ∧ c ∈ r.declarations := by
  obtain ⟨_, hfirst, -⟩ := TransGen.head'_iff.mp h
  obtain ⟨_, -, hlast⟩ := TransGen.tail'_iff.mp h
  exact ⟨hfirst.mem.1, hlast.mem.2⟩

theorem transGen_of_mem_ancestorsFrom {r : Registry} {seen : List String} {l a : Located}
    (hl : l ∈ r.declarations) (ha : a ∈ r.ancestorsFrom seen l) : TransGen r.Extends l a := by
  fun_induction Registry.ancestorsFrom r seen l with
  | case1 => cases ha
  | case2 => cases ha
  | case3 seen l next hnext hfresh ih =>
    have hextends := extends_of_superType? hl hnext
    rcases List.mem_cons.mp ha with rfl | ha
    · exact .single hextends
    · exact .head hextends (ih hextends.mem.2 ha)

/-- If all that was seen on the way to `l` is seen with what it extends, nothing above `l` is left
out. -/
theorem Sound.mem_of_reflTransGen {r : Registry} (h : r.Sound) {seen : List String} {l b : Located}
    (hl : l ∈ r.declarations) (hhere : l.fullName ∈ seen)
    (hclosed : ∀ s t, r.Extends s t → s.fullName ∈ seen → s ≠ l → t.fullName ∈ seen)
    (hb : ReflTransGen r.Extends l b) : b.fullName ∈ seen ∨ b ∈ r.ancestorsFrom seen l := by
  fun_induction Registry.ancestorsFrom r seen l with
  | case1 seen l hnone =>
    rcases hb.cases_head with rfl | ⟨next, hextends, -⟩
    · exact .inl hhere
    · rw [hextends.superType?] at hnone
      cases hnone
  | case2 seen l next hnext hseen =>
    left
    induction hb with
    | refl => exact hhere
    | @tail s t hs hextends ih =>
      by_cases hsl : s = l
      · subst hsl
        rw [hextends.superType?] at hnext
        cases hnext
        exact hseen
      · exact hclosed s t hextends ih hsl
  | case3 seen l next hnext hfresh ih =>
    have hextends := extends_of_superType? hl hnext
    rcases hb.cases_head with rfl | ⟨next', hfirst, hrest⟩
    · exact .inl hhere
    · obtain rfl : next = next' := Option.some.inj (hnext.symm.trans hfirst.superType?)
      have hclosed' : ∀ s t, r.Extends s t → s.fullName ∈ next.fullName :: seen → s ≠ next →
          t.fullName ∈ next.fullName :: seen := by
        intro s t hst hs hne
        rcases List.mem_cons.mp hs with hname | hs
        · exact absurd (h.eq_of_fullName hst.mem.1 hextends.mem.2 hname) hne
        · by_cases hsl : s = l
          · subst hsl
            rw [hst.superType?] at hnext
            cases hnext
            exact List.mem_cons_self
          · exact List.mem_cons_of_mem _ (hclosed s t hst hs hsl)
      rcases ih hextends.mem.2 List.mem_cons_self hclosed' hrest with hseen | hmem
      · rcases List.mem_cons.mp hseen with hname | hseen
        · have hmem := mem_declarations_of_reflTransGen hextends.mem.2 hrest
          exact .inr (List.mem_cons.mpr (.inl (h.eq_of_fullName hmem hextends.mem.2 hname)))
        · exact .inl hseen
      · exact .inr (List.mem_cons_of_mem _ hmem)

/-- The lineage of a declaration is the declaration and all its ancestors. -/
theorem Sound.mem_lineage_iff {r : Registry} (h : r.Sound) {l a : Located}
    (hl : l ∈ r.declarations) :
    a ∈ r.lineage l ↔ ReflTransGen r.Extends l a := by
  unfold lineage
  constructor
  · intro ha
    rcases List.mem_cons.mp ha with rfl | ha
    · exact .refl
    · exact (transGen_of_mem_ancestorsFrom hl ha).to_reflTransGen
  · intro ha
    have hclosed : ∀ s t, r.Extends s t → s.fullName ∈ [l.fullName] → s ≠ l →
        t.fullName ∈ [l.fullName] := fun s t hst hs hne =>
      absurd (h.eq_of_fullName hst.mem.1 hl (List.mem_singleton.mp hs)) hne
    rcases h.mem_of_reflTransGen hl (by simp) hclosed ha with hname | hmem
    · have hmem := mem_declarations_of_reflTransGen hl ha
      exact List.mem_cons.mpr (.inl (h.eq_of_fullName hmem hl (List.mem_singleton.mp hname)))
    · exact List.mem_cons_of_mem _ hmem

theorem isChain_ancestorsFrom {r : Registry} {l : Located} (hl : l ∈ r.declarations)
    (seen : List String) : (l :: r.ancestorsFrom seen l).IsChain r.Extends := by
  fun_induction Registry.ancestorsFrom r seen l with
  | case1 => exact List.isChain_singleton _
  | case2 => exact List.isChain_singleton _
  | case3 seen l next hnext hfresh ih =>
    have hextends := extends_of_superType? hl hnext
    exact List.isChain_cons_cons.mpr ⟨hextends, ih hextends.mem.2⟩

/-! ## Without cycles -/

theorem Sound.acyclic {r : Registry} (h : r.Sound) (hvalid : r.validate = []) (l : Located) :
    ¬ TransGen r.Extends l l :=
  (h.validate_eq_nil_iff.mp hvalid).2 l

/-- Every supertype that is written stands for something of the same category. -/
theorem exists_superType? {r : Registry} (hvalid : r.validate = []) {l : Located}
    (hl : l ∈ r.declarations) {written : String}
    (hwritten : l.declaration.superType? = some written) :
    ∃ next, r.superType? l = some next ∧ next.declaration.kind = l.declaration.kind := by
  obtain ⟨next, hnext, hkind⟩ :=
    checkSuperType_eq_nil_iff.mp (checks_eq_nil hvalid hl).2 written hwritten
  exact ⟨next, superType?_eq_some_iff.mpr ⟨written, hwritten, hnext⟩, hkind⟩

/-- The names are those of declarations that lead up to `l`. -/
def Below (r : Registry) (l : Located) (names : List String) : Prop :=
  ∀ name ∈ names, ∃ p ∈ r.declarations, p.fullName = name ∧ ReflTransGen r.Extends p l

theorem Below.cons {r : Registry} {l next : Located} {names : List String} (h : r.Below l names)
    (hextends : r.Extends l next) : r.Below next (next.fullName :: names) := by
  intro name hname
  rcases List.mem_cons.mp hname with rfl | hname
  · exact ⟨next, hextends.mem.2, rfl, .refl⟩
  · obtain ⟨p, hp, hpname, hway⟩ := h name hname
    exact ⟨p, hp, hpname, hway.tail hextends⟩

section

variable {r : Registry} {l next : Located}

/-- What a declaration extends has a name of its own. -/
theorem Sound.fresh_of_below (h : r.Sound) (hvalid : r.validate = []) {names : List String}
    (hbelow : r.Below l names) (hextends : r.Extends l next) : next.fullName ∉ names := by
  intro hname
  obtain ⟨p, hp, hpname, hway⟩ := hbelow _ hname
  obtain rfl : p = next := h.eq_of_fullName hp hextends.mem.2 hpname
  exact h.acyclic hvalid p (TransGen.tail' hway hextends)

/-- The names that the walk has seen do not matter. -/
theorem Sound.ancestorsFrom_eq (h : r.Sound) (hvalid : r.validate = []) (hl : l ∈ r.declarations)
    {seen seen' : List String} (hseen : r.Below l seen) (hseen' : r.Below l seen') :
    r.ancestorsFrom seen l = r.ancestorsFrom seen' l := by
  fun_induction Registry.ancestorsFrom r seen l generalizing seen' with
  | case1 seen l hnone => rw [ancestorsFrom_none hnone]
  | case2 seen l next hnext hstop =>
    exact absurd hstop (h.fresh_of_below hvalid hseen (extends_of_superType? hl hnext))
  | case3 seen l next hnext hfresh ih =>
    have hextends := extends_of_superType? hl hnext
    rw [ancestorsFrom_some hnext, if_neg (h.fresh_of_below hvalid hseen' hextends)]
    rw [ih hextends.mem.2 (hseen.cons hextends) (hseen'.cons hextends)]

/-- The walk that collects names passes what the walk that collects declarations passes. -/
theorem Sound.superTypeNamesFrom_eq (h : r.Sound) (hvalid : r.validate = [])
    (hl : l ∈ r.declarations) {seen seen' : List String} (hseen : r.Below l seen)
    (hseen' : r.Below l seen') :
    r.superTypeNamesFrom seen' l = (r.ancestorsFrom seen l).map (·.fullName) := by
  fun_induction Registry.ancestorsFrom r seen l generalizing seen' with
  | case1 seen l hnone =>
    have hwritten : l.declaration.superType? = none := by
      cases hwritten : l.declaration.superType? with
      | none => rfl
      | some written =>
        obtain ⟨next, hnext, -⟩ := exists_superType? hvalid hl hwritten
        rw [hnone] at hnext
        cases hnext
    simp [superTypeNamesFrom_none hnone, hwritten]
  | case2 seen l next hnext hstop =>
    exact absurd hstop (h.fresh_of_below hvalid hseen (extends_of_superType? hl hnext))
  | case3 seen l next hnext hfresh ih =>
    have hextends := extends_of_superType? hl hnext
    rw [superTypeNamesFrom_some hnext, if_neg (h.fresh_of_below hvalid hseen' hextends),
      ih hextends.mem.2 (hseen.cons hextends) (hseen'.cons hextends), List.map_cons]

theorem below_nil : r.Below l [] := nofun

theorem below_self (hl : l ∈ r.declarations) : r.Below l [l.fullName] := by
  intro name hname
  exact ⟨l, hl, (List.mem_singleton.mp hname).symm, .refl⟩

/-- The lineage of a declaration goes on with that of what it extends. -/
theorem Sound.lineage_of_extends (h : r.Sound) (hvalid : r.validate = [])
    (hextends : r.Extends l next) : r.lineage l = l :: r.lineage next := by
  obtain ⟨hl, hnext⟩ := hextends.mem
  have hbelow := below_self hl
  unfold lineage
  rw [ancestorsFrom_some hextends.superType?, if_neg (h.fresh_of_below hvalid hbelow hextends),
    h.ancestorsFrom_eq hvalid hnext (hbelow.cons hextends) (below_self hnext)]

theorem Sound.superTypeNames_eq (h : r.Sound) (hvalid : r.validate = []) (hl : l ∈ r.declarations) :
    r.superTypeNames l = (r.ancestorsFrom [l.fullName] l).map (·.fullName) :=
  h.superTypeNamesFrom_eq hvalid hl (below_self hl) below_nil

theorem Sound.mem_ancestorsFrom_iff (h : r.Sound) (hvalid : r.validate = [])
    (hl : l ∈ r.declarations)
    {a : Located} : a ∈ r.ancestorsFrom [l.fullName] l ↔ TransGen r.Extends l a := by
  constructor
  · exact transGen_of_mem_ancestorsFrom hl
  · intro ha
    rcases List.mem_cons.mp ((h.mem_lineage_iff hl).mpr ha.to_reflTransGen) with rfl | hmem
    · exact absurd ha (h.acyclic hvalid a)
    · exact hmem

end

end Covenant.Registry

/-
Whether a full name leads back to what it names. The full name of a declaration is put together
from its namespace, with the version if there is one, and its own name, and is taken apart again
when it is looked up: at the last point, since no declared name holds one, and at the sign before
the version, which no name of a namespace holds.

A namespace with a version is then looked up as it is. One without a version is looked up by name
alone, and the first document of that name answers, whatever its version. So a full name leads
back to its declaration unless the namespace has no version and a document of the same name was
registered before it, and the same holds of the namespace itself
(`Registry.resolve?_fullName_iff`).
-/
import Covenant.Proofs.RegistrationOrder
import Covenant.Proofs.Validation
import Mathlib.Data.List.TakeWhile

namespace Covenant

open Covenant.Text Covenant.Lexer

/-! ## Names taken apart -/

/-- A namespace without its version. -/
theorem Namespace.beforeFirst_key {n : Namespace} (h : '@' ∉ n.name.toList) :
    beforeFirst '@' n.key = n.name := by
  obtain ⟨name, version?⟩ := n
  cases version? with
  | none =>
    rw [beforeFirst, Namespace.key, List.takeWhile_eq_self_iff.mpr, String.ofList_toList]
    exact fun c hc => decide_eq_true fun he => h (he ▸ hc)
  | some version =>
    have hkey : (Namespace.key ⟨name, some version⟩).toList =
        name.toList ++ '@' :: version.toList := by
      simp [Namespace.key]
    exact beforeFirst_eq hkey h

/-- The version of a namespace, or nothing. -/
theorem Namespace.afterFirst_key {n : Namespace} (h : '@' ∉ n.name.toList) :
    afterFirst '@' n.key = n.version?.getD "" := by
  obtain ⟨name, version?⟩ := n
  cases version? with
  | none =>
    have hall : name.toList.dropWhile (· ≠ '@') = [] :=
      List.dropWhile_eq_nil_iff.mpr fun c hc => decide_eq_true fun he => h (he ▸ hc)
    rw [afterFirst, Namespace.key, hall]
    rfl
  | some version =>
    have hkey : (Namespace.key ⟨name, some version⟩).toList =
        name.toList ++ '@' :: version.toList := by
      simp [Namespace.key]
    rw [afterFirst, hkey, dropWhile_ne_append h]
    simp

/-- A version is not empty. -/
theorem Namespace.WellFormed.version_ne {n : Namespace} (h : n.WellFormed) :
    ∀ version ∈ n.version?, version ≠ "" := by
  rintro version hversion rfl
  obtain ⟨c, body, hspelling, -⟩ := h.version "" hversion
  cases hspelling

/-- A namespace is known by its text. -/
theorem Registry.namespaceOf_key {n : Namespace} (h : n.WellFormed) : namespaceOf n.key = n := by
  have hname : '@' ∉ n.name.toList := h.name.not_mem (by decide) (by decide) (by decide)
  have hversion := h.version_ne
  rw [namespaceOf, Namespace.beforeFirst_key hname, Namespace.afterFirst_key hname]
  obtain ⟨name, version?⟩ := n
  cases version? with
  | none => rfl
  | some version => simp [hversion version rfl]

theorem dot_not_mem_of_isPrimitive {name : String} (h : isPrimitive name = true) :
    '.' ∉ name.toList := by
  have hall : primitiveTypes.all fun name => !name.toList.contains '.' := by decide
  simpa using List.all_eq_true.mp hall name (by simpa [isPrimitive] using h)

namespace Registry

variable {r : Registry} {m : Model}

/-- A full name is looked up where its namespace leads. -/
theorem Sound.resolve?_qualifiedName (h : r.Sound) (hm : m ∈ r.models) {d : Declaration}
    (hd : d ∈ m.declarations) (key : String) :
    r.resolve? key (qualifiedName m.key d.name) = (r.find? m.id).bind (·.locate? d.name) := by
  have hfull : (qualifiedName m.key d.name).toList = m.key.toList ++ '.' :: d.name.toList := by
    simp [qualifiedName]
  have hname : '.' ∉ d.name.toList := ((h.wellFormed hm).declarations d hd).name.dot_not_mem
  have hqualified : isQualified (qualifiedName m.key d.name) = true := by
    simp [isQualified, hfull]
  have hprimitive : isPrimitive (qualifiedName m.key d.name) = false := by
    refine Bool.eq_false_iff.mpr fun hp => dot_not_mem_of_isPrimitive hp ?_
    simp [hfull]
  rw [resolve?, hprimitive, hqualified, if_neg Bool.false_ne_true, if_pos rfl, resolveQualified?,
    beforeLast_eq hfull hname, afterLast_eq hfull hname, Model.key,
    namespaceOf_key (h.wellFormed hm).id]

/-! ## Documents of one name -/

/-- The documents that were registered before this one. -/
def earlier (r : Registry) (m : Model) : List Model :=
  r.models.takeWhile (· ≠ m)

/-- The document has no version, and one of the same name was registered before it. -/
def Hides (r : Registry) (m : Model) : Prop :=
  m.id.version? = none ∧ ∃ other ∈ r.earlier m, other.id.name = m.id.name

instance (r : Registry) (m : Model) : Decidable (r.Hides m) :=
  inferInstanceAs (Decidable (_ ∧ ∃ other ∈ r.earlier m, _))

/-- An element is the first to pass a test if it passes and none before it does. -/
theorem find?_eq_some_iff_before {α : Type} [DecidableEq α] {as : List α} {a : α} {test : α → Bool}
    (ha : a ∈ as) :
    as.find? test = some a ↔ test a = true ∧ ∀ b ∈ as.takeWhile (· ≠ a), test b = false := by
  induction as with
  | nil => cases ha
  | cons first as ih =>
    by_cases he : first = a
    · subst he
      cases htest : test first with
      | true => simp [htest]
      | false =>
        have hother : as.find? test ≠ some first := fun h => by
          simp [List.find?_some h] at htest
        simp [htest, hother]
    · have hrest : a ∈ as := (List.mem_cons.mp ha).resolve_left (Ne.symm he)
      rw [List.takeWhile_cons_of_pos (by simpa using he), List.forall_mem_cons]
      cases htest : test first with
      | true => simp [htest, he]
      | false => simp [htest, ih hrest]

/-- The namespace of a document leads to it unless it is hidden. -/
theorem Sound.find?_id_iff (h : r.Sound) (hm : m ∈ r.models) :
    r.find? m.id = some m ↔ ¬ r.Hides m := by
  unfold find? Hides earlier
  cases hversion : m.id.version? with
  | none =>
    rw [Option.bind_none, Option.none_or, find?_eq_some_iff_before hm]
    simp
  | some version =>
    have hkey : m.id.name ++ "@" ++ version = m.key := by
      simp [Model.key, Namespace.key, hversion]
    rw [Option.bind_some, hkey, h.model?_eq_some_iff.mpr ⟨hm, rfl⟩]
    simp

/-- The namespace of a hidden document leads to the first one of its name, which has a version. -/
theorem Sound.find?_id_of_hides (h : r.Sound) (hm : m ∈ r.models) (hhides : r.Hides m) :
    ∃ first ∈ r.models, r.find? m.id = some first ∧ first.id.name = m.id.name ∧
      first.id.version?.isSome = true ∧ first.key ≠ m.key := by
  have hversion := hhides.1
  have hfind : r.find? m.id = r.models.find? (·.id.name = m.id.name) := by
    rw [find?, hversion, Option.bind_none, Option.none_or]
  have hsome : (r.models.find? (·.id.name = m.id.name)).isSome :=
    List.find?_isSome.mpr ⟨m, hm, by simp⟩
  obtain ⟨first, hfirst⟩ := Option.isSome_iff_exists.mp hsome
  have hmem := List.mem_of_find?_eq_some hfirst
  have hname : first.id.name = m.id.name := by simpa using List.find?_some hfirst
  rw [← hfind] at hfirst
  have hne : first ≠ m := fun he => (h.find?_id_iff hm).mp (he ▸ hfirst) hhides
  have hkey : first.key ≠ m.key := fun he => hne (h.eq_of_key hmem hm he)
  refine ⟨first, hmem, hfirst, hname, ?_, hkey⟩
  cases hfirstVersion : first.id.version? with
  | some => rfl
  | none =>
    -- two namespaces without a version and with one name have one key
    refine absurd ?_ hkey
    simp [Model.key, Namespace.key, hversion, hfirstVersion, hname]

theorem Sound.locate?_name (h : r.Sound) (hm : m ∈ r.models) {d : Declaration}
    (hd : d ∈ m.declarations) : m.locate? d.name = some ⟨m.key, d⟩ := by
  have hsome : (m.find? d.name).isSome := List.find?_isSome.mpr ⟨d, hd, by simp⟩
  obtain ⟨d', hfound⟩ := Option.isSome_iff_exists.mp hsome
  have hname : d'.name = d.name := by simpa using List.find?_some hfound
  obtain rfl : d' = d :=
    List.inj_on_of_nodup_map (h.nodup_declared hm) (List.mem_of_find?_eq_some hfound) hd hname
  rw [Model.locate?, hfound, Option.map_some]

/-! ## Full names -/

/-- A registered namespace is found by its name and version, and each of its declarations by its
full name, from wherever that is looked up, if and only if the document is not hidden. The name of
a hidden document leads to the first document of that name instead, which has a version, and so do
the full names of its declarations, whether or not that document declares something of the name. -/
theorem resolve?_fullName_iff {k : String} (hr : r.Reachable) (hk : r.model? k = some m) :
    (r.findKey? m.id = some k ↔ ¬ r.Hides m) ∧
    (∀ d ∈ m.declarations, ∀ n,
      r.resolve? n (qualifiedName k d.name) = some ⟨k, d⟩ ↔ ¬ r.Hides m) ∧
    (r.Hides m → ∃ first ∈ r.models,
      first.id.name = m.id.name ∧ first.id.version?.isSome = true ∧
      r.findKey? m.id = some first.key ∧
      ∀ d ∈ m.declarations, ∀ n, r.resolve? n (qualifiedName k d.name) = first.locate? d.name) := by
  have h := hr.sound
  obtain ⟨hm, rfl⟩ := h.model?_eq_some_iff.mp hk
  have hresolve := fun d hd n => h.resolve?_qualifiedName hm (d := d) hd n
  by_cases hhides : r.Hides m
  · obtain ⟨first, hfirst, hfind, hname, hversion, hkey⟩ := h.find?_id_of_hides hm hhides
    have hlocate (d : Declaration) (hd : d ∈ m.declarations) (n : String) :
        r.resolve? n (qualifiedName m.key d.name) = first.locate? d.name := by
      rw [hresolve d hd n, hfind, Option.bind_some]
    have hfindKey : r.findKey? m.id = some first.key := by rw [findKey?, hfind, Option.map_some]
    refine ⟨?_, fun d hd n => ?_, fun _ => ⟨first, hfirst, hname, hversion, hfindKey, hlocate⟩⟩
    · simp [hfindKey, hkey, hhides]
    · simp only [hlocate d hd n, hhides, not_true_eq_false, iff_false]
      exact fun hlocated => hkey (key_of_locate? hlocated).symm
  · have hfind := (h.find?_id_iff hm).mpr hhides
    refine ⟨?_, fun d hd n => ?_, fun hh => absurd hh hhides⟩
    · simp [findKey?, hfind, hhides]
    · rw [hresolve d hd n, hfind, Option.bind_some, h.locate?_name hm hd]
      simp [hhides]

/-- A concept without properties. -/
def emptyConcept (name : String) : Declaration where
  name
  body := .classBody { kind := .concept }

/-- A version of `a`, then `a` itself, then a pre-release of another version. -/
def versionsRegistry : Registry where
  entries := [
    { model := { id := ⟨"a", some "1.0.0"⟩, declarations := [emptyConcept "A"] }
      name := "a1.cto"
      text := "namespace a@1.0.0 concept A\x7b\x7d" },
    { model := { id := ⟨"a", none⟩, declarations := [emptyConcept "A", emptyConcept "B"] }
      name := "a.cto"
      text := "namespace a concept A\x7b\x7dconcept B\x7b\x7d" },
    { model := { id := ⟨"a", some "2.0.0-rc.1"⟩, declarations := [emptyConcept "B"] }
      name := "a2.cto"
      text := "namespace a@2.0.0-rc.1 concept B\x7b\x7d" }]

/-- The versions are found by their names; of those without a version, `a.A` is that of another
document and `a.B` nothing. -/
theorem resolve?_fullName_iff_versions :
    let r := versionsRegistry
    r.Reachable ∧ r.keys = ["a@1.0.0", "a", "a@2.0.0-rc.1"] ∧
      r.findKey? ⟨"a", some "2.0.0-rc.1"⟩ = some "a@2.0.0-rc.1" ∧
      (∀ n, r.resolve? n "a@2.0.0-rc.1.B" = some ⟨"a@2.0.0-rc.1", emptyConcept "B"⟩) ∧
      r.findKey? ⟨"a", none⟩ ≠ some "a" ∧
      (∀ n, r.resolve? n "a.A" ≠ some ⟨"a", emptyConcept "A"⟩) ∧
      ∀ n, r.resolve? n "a.B" ≠ some ⟨"a", emptyConcept "B"⟩ := by
  intro r
  have hr : r.Reachable := reachable_of_submissions (by decide +kernel)
  have hplain : r.model? "a" = some
      { id := ⟨"a", none⟩, declarations := [emptyConcept "A", emptyConcept "B"] } := by decide
  have hlater : r.model? "a@2.0.0-rc.1" = some
      { id := ⟨"a", some "2.0.0-rc.1"⟩, declarations := [emptyConcept "B"] } := by decide
  obtain ⟨hfind, hresolve, -⟩ := resolve?_fullName_iff hr hlater
  obtain ⟨hfind', hresolve', -⟩ := resolve?_fullName_iff hr hplain
  refine ⟨hr, by decide, hfind.mpr (by decide), ?_, fun h => hfind'.mp h (by decide), ?_, ?_⟩
  · exact fun n => (hresolve (emptyConcept "B") (by decide) n).mpr (by decide)
  · exact fun n h => (hresolve' (emptyConcept "A") (by decide) n).mp h (by decide)
  · exact fun n h => (hresolve' (emptyConcept "B") (by decide) n).mp h (by decide)

end Registry

end Covenant

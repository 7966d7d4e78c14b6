/-
Which structures a contract has. Requests and responses get one, so do participants and a few
well-known concepts that have content, and no two have the same name. But declarations of
different namespaces may share a name, and only the first of a name is looked at: a well-known
concept without content gets no structure and still keeps its name from the concepts and
participants behind it. So the structures have the names they should have, except those that are
withheld in this way (`Contract.mem_structures_iff`).
-/
import Covenant.Contract.Basic
import Mathlib.Data.List.Nodup

namespace Covenant

/-! ## The first of each name -/

/-- A declaration is kept if its name is not taken and no other of that name stands before it. -/
theorem mem_firstOfEachName_iff {taken : List String} {ds : List Classified} {d : Classified} :
    d ∈ firstOfEachName taken ds ↔ d.name ∉ taken ∧ ds.find? (·.name = d.name) = some d := by
  induction ds generalizing taken with
  | nil => simp [firstOfEachName]
  | cons first ds ih =>
    unfold firstOfEachName
    split
    · rename_i htaken
      rw [ih]
      refine and_congr_right fun hfree => ?_
      have hne : first.name ≠ d.name := fun he => hfree (he ▸ htaken)
      rw [List.find?_cons_of_neg (by simpa using hne)]
    · rename_i hfree
      rw [List.mem_cons, ih, List.mem_cons, not_or]
      by_cases he : first.name = d.name
      · rw [List.find?_cons_of_pos (by simpa using he)]
        constructor
        · rintro (rfl | ⟨⟨hne, -⟩, -⟩)
          · exact ⟨hfree, rfl⟩
          · exact absurd he.symm hne
        · rintro ⟨-, hfirst⟩
          exact .inl (Option.some.inj hfirst).symm
      · rw [List.find?_cons_of_neg (by simpa using he)]
        have hother : d ≠ first := fun h => he (h ▸ rfl)
        simp [hother, Ne.symm he]

theorem mem_names_firstOfEachName_iff {taken : List String} {ds : List Classified} {name : String} :
    name ∈ (firstOfEachName taken ds).map (·.name) ↔ name ∉ taken ∧ name ∈ ds.map (·.name) := by
  simp only [List.mem_map, mem_firstOfEachName_iff]
  constructor
  · rintro ⟨d, ⟨hfree, hfirst⟩, rfl⟩
    exact ⟨hfree, d, List.mem_of_find?_eq_some hfirst, rfl⟩
  · rintro ⟨hfree, d, hd, rfl⟩
    have hsome : (ds.find? (·.name = d.name)).isSome := List.find?_isSome.mpr ⟨d, hd, by simp⟩
    obtain ⟨first, hfirst⟩ := Option.isSome_iff_exists.mp hsome
    have hname : first.name = d.name := by simpa using List.find?_some hfirst
    exact ⟨first, ⟨hname ▸ hfree, hname ▸ hfirst⟩, hname⟩

theorem nodup_names_firstOfEachName (taken : List String) (ds : List Classified) :
    ((firstOfEachName taken ds).map (·.name)).Nodup := by
  induction ds generalizing taken with
  | nil => exact List.nodup_nil
  | cons first ds ih =>
    unfold firstOfEachName
    split
    · exact ih taken
    · rw [List.map_cons, List.nodup_cons]
      refine ⟨fun hmem => ?_, ih _⟩
      exact (mem_names_firstOfEachName_iff.mp hmem).1 List.mem_cons_self

/-! ## What should have a structure -/

/-- The properties that make up no content. -/
def systemProperties : List String := ["$class", "$timestamp", "$identifier"]

/-- The declaration has a property that is no system property. -/
def Classified.HasContent (d : Classified) : Prop :=
  ∃ p ∈ d.properties, p.name ∉ systemProperties

instance (d : Classified) : Decidable d.HasContent :=
  inferInstanceAs (Decidable (∃ p ∈ d.properties, p.name ∉ systemProperties))

namespace Classification

/-- A request or a response has the name. -/
def Exchanges (c : Classification) (name : String) : Prop :=
  name ∈ (c.requests ++ c.responses).map (·.name)

/-- The name is that of a request, a response, a participant or a well-known concept with
content. -/
def NeedsStructure (c : Classification) (name : String) : Prop :=
  c.Exchanges name ∨ name ∈ c.participants.map (·.name) ∨
    name ∈ contractConcepts ∧ ∃ d ∈ c.concepts, d.name = name ∧ d.HasContent

/-- The name is kept back for the first concept that has it, which has no content. -/
def Withholds (c : Classification) (name : String) : Prop :=
  ¬ c.Exchanges name ∧ name ∈ contractConcepts ∧
    ∃ d ∈ c.concepts.find? (·.name = name), ¬ d.HasContent

instance (c : Classification) (name : String) : Decidable (c.Exchanges name) :=
  inferInstanceAs (Decidable (name ∈ _))

instance (c : Classification) (name : String) : Decidable (c.NeedsStructure name) :=
  inferInstanceAs (Decidable (c.Exchanges name ∨ name ∈ c.participants.map (·.name) ∨
    name ∈ contractConcepts ∧ ∃ d ∈ c.concepts, d.name = name ∧ d.HasContent))

instance (c : Classification) (name : String) : Decidable (c.Withholds name) :=
  inferInstanceAs (Decidable (¬ c.Exchanges name ∧ name ∈ contractConcepts ∧
    ∃ d ∈ c.concepts.find? (·.name = name), ¬ d.HasContent))

variable {c : Classification} {name : String}

/-! ## The three groups of structures -/

theorem names_exchanged_iff :
    name ∈ (exchangedDeclarations c).map (·.name) ↔ c.Exchanges name := by
  rw [exchangedDeclarations, mem_names_firstOfEachName_iff, Exchanges]
  simp

theorem conceptStructure?_isSome_iff {d : Classified} :
    (conceptStructure? d).isSome = true ↔ d.HasContent := by
  have hfields :
      fieldsOf ("$identifier" :: transientProperties) d.properties ≠ [] ↔ d.HasContent := by
    simp only [fieldsOf, ne_eq, List.map_eq_nil_iff, List.filter_eq_nil_iff, not_forall,
      Classified.HasContent, systemProperties, transientProperties]
    grind
  rw [← hfields]
  unfold conceptStructure?
  split <;> simp_all

theorem name_of_conceptStructure? {d : Classified} {s : DataStructure}
    (h : conceptStructure? d = some s) : s.name = d.name := by
  unfold conceptStructure? at h
  split at h
  · cases h
  · cases h
    rfl

theorem find?_filter_known (hknown : name ∈ contractConcepts) (ds : List Classified) :
    (ds.filter fun d => contractConcepts.contains d.name).find? (·.name = name) =
      ds.find? (·.name = name) := by
  rw [List.find?_filter]
  congr 1
  funext d
  by_cases he : d.name = name <;> simp [he, hknown]

/-- The concepts that are looked at are the first of their names. -/
theorem mem_storedConcepts_iff {d : Classified} :
    d ∈ storedConcepts c ↔ ¬ c.Exchanges d.name ∧ d.name ∈ contractConcepts ∧
      c.concepts.find? (·.name = d.name) = some d := by
  rw [storedConcepts, mem_firstOfEachName_iff, names_exchanged_iff]
  refine and_congr_right fun _ => ?_
  constructor
  · intro hfirst
    have hknown : d.name ∈ contractConcepts := by
      simpa using (List.mem_filter.mp (List.mem_of_find?_eq_some hfirst)).2
    rw [find?_filter_known hknown] at hfirst
    exact ⟨hknown, hfirst⟩
  · rintro ⟨hknown, hfirst⟩
    rw [find?_filter_known hknown, hfirst]

theorem names_storedConcepts_iff : name ∈ (storedConcepts c).map (·.name) ↔
    ¬ c.Exchanges name ∧ name ∈ contractConcepts ∧ name ∈ c.concepts.map (·.name) := by
  rw [storedConcepts, mem_names_firstOfEachName_iff, names_exchanged_iff]
  simp only [List.mem_map, List.mem_filter, List.contains_iff_mem]
  grind

theorem names_storedParticipants_iff : name ∈ (storedParticipants c).map (·.name) ↔
    ¬ c.Exchanges name ∧ name ∉ (storedConcepts c).map (·.name) ∧
      name ∈ c.participants.map (·.name) := by
  rw [storedParticipants, mem_names_firstOfEachName_iff, List.map_append, List.mem_append,
    names_exchanged_iff, not_or, and_assoc]

/-- The names of the structures, group by group. -/
theorem names_dataStructures (c : Classification) : (dataStructures c).map (·.name) =
    (exchangedDeclarations c).map (·.name)
      ++ ((storedConcepts c).filter (·.HasContent)).map (·.name)
      ++ (storedParticipants c).map (·.name) := by
  have hconcepts (ds : List Classified) : (ds.filterMap conceptStructure?).map (·.name) =
      (ds.filter (·.HasContent)).map (·.name) := by
    induction ds with
    | nil => rfl
    | cons d ds ih =>
      have hsome := @conceptStructure?_isSome_iff d
      cases hd : conceptStructure? d with
      | none =>
        have hempty : ¬ d.HasContent := by simpa [hd] using hsome
        rw [List.filterMap_cons_none hd, List.filter_cons_of_neg (by simpa using hempty), ih]
      | some s =>
        have hcontent : d.HasContent := by simpa [hd] using hsome
        rw [List.filterMap_cons_some hd, List.filter_cons_of_pos (by simpa using hcontent),
          List.map_cons, List.map_cons, ih, name_of_conceptStructure? hd]
  rw [dataStructures, List.map_append, List.map_append, hconcepts, List.map_map, List.map_map]
  rfl

theorem nodup_names_dataStructures (c : Classification) :
    ((dataStructures c).map (·.name)).Nodup := by
  have hsub : List.Sublist (((storedConcepts c).filter (·.HasContent)).map (·.name))
      ((storedConcepts c).map (·.name)) := List.filter_sublist.map _
  rw [names_dataStructures, List.nodup_append', List.nodup_append']
  refine ⟨⟨nodup_names_firstOfEachName _ _, (nodup_names_firstOfEachName _ _).sublist hsub, ?_⟩,
    nodup_names_firstOfEachName _ _, ?_⟩
  · intro name hexchanged hconcept
    exact (names_storedConcepts_iff.mp (hsub.mem hconcept)).1 (names_exchanged_iff.mp hexchanged)
  · intro name hbefore hparticipant
    obtain ⟨hfree, hconcept, -⟩ := names_storedParticipants_iff.mp hparticipant
    rcases List.mem_append.mp hbefore with hmem | hmem
    · exact hfree (names_exchanged_iff.mp hmem)
    · exact hconcept (hsub.mem hmem)

/-- The concepts that have a structure, by name. -/
theorem names_conceptStructures_iff :
    name ∈ ((storedConcepts c).filter (·.HasContent)).map (·.name) ↔
      ¬ c.Exchanges name ∧ name ∈ contractConcepts ∧
        ∃ d, c.concepts.find? (·.name = name) = some d ∧ d.HasContent := by
  simp only [List.mem_map, List.mem_filter, mem_storedConcepts_iff, decide_eq_true_eq]
  constructor
  · rintro ⟨d, ⟨⟨hfree, hknown, hfirst⟩, hcontent⟩, rfl⟩
    exact ⟨hfree, hknown, d, hfirst, hcontent⟩
  · rintro ⟨hfree, hknown, d, hfirst, hcontent⟩
    have hname : d.name = name := by simpa using List.find?_some hfirst
    subst hname
    exact ⟨d, ⟨⟨hfree, hknown, hfirst⟩, hcontent⟩, rfl⟩

/-- The names of structures are those that should have one and are not withheld. -/
theorem names_dataStructures_iff :
    name ∈ (dataStructures c).map (·.name) ↔ c.NeedsStructure name ∧ ¬ c.Withholds name := by
  rw [names_dataStructures, List.mem_append, List.mem_append, names_exchanged_iff,
    names_conceptStructures_iff, names_storedParticipants_iff, names_storedConcepts_iff]
  by_cases hexchanged : c.Exchanges name
  · simp [NeedsStructure, Withholds, hexchanged]
  by_cases hknown : name ∈ contractConcepts
  swap
  · simp [NeedsStructure, Withholds, hexchanged, hknown]
  -- the first concept of the name decides for all that share it
  cases hfirst : c.concepts.find? (·.name = name) with
  | none =>
    have hnone : ∀ d ∈ c.concepts, d.name ≠ name := by simpa using hfirst
    have hmem : name ∉ c.concepts.map (·.name) := by simpa using hnone
    have hneeds : c.NeedsStructure name ↔ name ∈ c.participants.map (·.name) := by
      unfold NeedsStructure
      grind
    simp [Withholds, hexchanged, hfirst, hmem, hneeds]
  | some d =>
    have hd := List.mem_of_find?_eq_some hfirst
    have hname : d.name = name := by simpa using List.find?_some hfirst
    have hmem : name ∈ c.concepts.map (·.name) := List.mem_map.mpr ⟨d, hd, hname⟩
    by_cases hcontent : d.HasContent
    · have hneeds : c.NeedsStructure name := .inr (.inr ⟨hknown, d, hd, hname, hcontent⟩)
      simp [Withholds, hexchanged, hknown, hfirst, hcontent, hneeds]
    · simp [Withholds, hexchanged, hknown, hfirst, hcontent, hmem]

end Classification

namespace Contract

/-- The structures of a contract have different names. These are the names of all requests,
responses and participants and of the well-known concepts with content, without the names that are
withheld. So all of those have a structure if and only if no participant, and no concept with
content, has a name that is withheld. -/
theorem mem_structures_iff (c : Classification) (given? : Option String) :
    let names := (synthesize c given?).structures.map (·.name)
    names.Nodup ∧
      (∀ name, name ∈ names ↔ c.NeedsStructure name ∧ ¬ c.Withholds name) ∧
      ((∀ name, name ∈ names ↔ c.NeedsStructure name) ↔ ∀ name, c.Withholds name →
        (∀ d ∈ c.participants, d.name ≠ name) ∧
          ∀ d ∈ c.concepts, d.HasContent → d.name ≠ name) := by
  intro names
  have hnames (name : String) : name ∈ names ↔ c.NeedsStructure name ∧ ¬ c.Withholds name :=
    Classification.names_dataStructures_iff
  have hlost (name : String) (hwithheld : c.Withholds name) : ¬ c.NeedsStructure name ↔
      (∀ d ∈ c.participants, d.name ≠ name) ∧ ∀ d ∈ c.concepts, d.HasContent → d.name ≠ name := by
    obtain ⟨hfree, hknown, -⟩ := hwithheld
    simp only [Classification.NeedsStructure, hfree, hknown, List.mem_map]
    grind
  refine ⟨Classification.nodup_names_dataStructures c, hnames, ?_⟩
  simp only [hnames, and_iff_left_iff_imp]
  refine forall_congr' fun name => ?_
  constructor
  · exact fun h hwithheld => (hlost name hwithheld).mp fun hneeds => h hneeds hwithheld
  · exact fun h hneeds hwithheld => (hlost name hwithheld).mpr (h hwithheld) hneeds

/-- A concept `Period` without content gets no structure and leaves a participant of another
namespace without one. -/
example :
    let c : Classification := {
      concepts := [⟨"Period", "a.Period", "a", .concept, []⟩]
      participants := [⟨"Period", "b.Period", "b", .participant, []⟩] }
    c.NeedsStructure "Period" ∧ c.Withholds "Period" ∧ (synthesize c none).structures = [] := by
  decide

end Contract

end Covenant

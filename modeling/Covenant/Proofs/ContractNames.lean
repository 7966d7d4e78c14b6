/-
When the names in a contract are different. Beside its own fields and messages a contract has
one of each for every term of its template model, and its structures have fields for the
properties of what they are made from. All these are named in snake case, so they meet if two
of them are spellings of one field, if a term has the field `owner` or `paused`, or a
participant the field `party_id`, and in no other case (`Contract.nodup_names_iff`). A term
called `paused` is stored beside the contract's own field but has a message of its own, since
the contract says by `is_paused` whether it is paused.

Messages are looked up by name. None is lost in the lookup if and only if their names are
different, for the messages themselves always are.
-/
import Covenant.Proofs.ContractStructures
import Covenant.Proofs.FieldNames
import Covenant.Proofs.PauseSafety
import Covenant.Proofs.SameLookups

namespace Covenant

open Covenant.Lexer

/-! ## Classified declarations -/

/-- The properties have different names, and the fields that belong to these. -/
structure Classified.Derived (d : Classified) : Prop where
  names : (d.properties.map (·.name)).Nodup
  isName : ∀ p ∈ d.properties, IsName p.name.toList
  fields : ∀ p ∈ d.properties, p.fieldName = Target.fieldName p.name

theorem Registry.Sound.derived {r : Registry} (h : r.Sound) {strategy : Strategy} {role : Role}
    {d : Classified} (hd : d ∈ r.ofRole strategy role) : d.Derived := by
  obtain ⟨l, hl, rfl⟩ := List.mem_map.mp hd
  have hl := List.mem_of_mem_filter hl
  constructor
  · simp only [Registry.classified, Registry.deriveProperty, List.map_map, Function.comp_def]
    exact h.nodup_properties hl
  · simp only [Registry.classified, Registry.deriveProperty, List.forall_mem_map]
    exact fun p hp => h.isName_property hl hp
  · simp only [Registry.classified, Registry.deriveProperty, List.forall_mem_map, implies_true]

/-- The names of the properties that are not excluded. -/
def Classified.kept (excluded : List String) (d : Classified) : List String :=
  (d.properties.map (·.name)).filter fun name => !excluded.contains name

namespace Classified.Derived

variable {d : Classified}

theorem nodup_kept (h : d.Derived) (excluded : List String) : (d.kept excluded).Nodup :=
  h.names.filter _

theorem isName_kept (h : d.Derived) {excluded : List String} :
    ∀ name ∈ d.kept excluded, IsName name.toList := by
  intro name hname
  obtain ⟨p, hp, rfl⟩ := List.mem_map.mp (List.mem_of_mem_filter hname)
  exact h.isName p hp

theorem names_fieldsOf (h : d.Derived) (excluded : List String) :
    (fieldsOf excluded d.properties).map (·.name) = (d.kept excluded).map Target.fieldName := by
  unfold fieldsOf kept
  simp only [List.filter_map, List.map_map, Function.comp_def]
  refine List.map_congr_left fun p hp => ?_
  rw [h.fields p (List.mem_of_mem_filter hp)]

/-- The fields of a declaration beside fixed ones. -/
theorem nodup_fieldsOf_iff (h : d.Derived) (excluded : List String) {taken : List String}
    (htaken : taken.Nodup)
    (hwords : ∀ word ∈ taken, IsName word.toList ∧ Target.fieldName word = word) :
    (taken ++ (fieldsOf excluded d.properties).map (·.name)).Nodup ↔
      Target.Apart (d.kept excluded) ∧ Target.Avoids taken (d.kept excluded) := by
  rw [h.names_fieldsOf]
  exact Target.nodup_append_fieldNames_iff htaken hwords (h.nodup_kept excluded) h.isName_kept

end Classified.Derived

/-! ## Terms -/

/-- The names of the terms of the template model. -/
def Classification.terms (c : Classification) : List String :=
  match c.primaryTemplateModel? with
  | some template => template.kept metadataProperties
  | none => []

/-- All classified declarations have the fields that belong to their properties. -/
structure Classification.Derived (c : Classification) : Prop where
  requests : ∀ d ∈ c.requests, d.Derived
  responses : ∀ d ∈ c.responses, d.Derived
  templateModels : ∀ d ∈ c.templateModels, d.Derived
  concepts : ∀ d ∈ c.concepts, d.Derived
  participants : ∀ d ∈ c.participants, d.Derived

theorem Registry.Sound.classify_derived {r : Registry} (h : r.Sound) (strategy : Strategy) :
    (r.classify strategy).Derived := by
  rw [classify_eq]
  exact ⟨fun _ hd => h.derived hd, fun _ hd => h.derived hd, fun _ hd => h.derived hd,
    fun _ hd => h.derived hd, fun _ hd => h.derived hd⟩

namespace Classification.Derived

variable {c : Classification}

theorem nodup_terms (h : c.Derived) : c.terms.Nodup := by
  unfold terms
  split
  · rename_i template htemplate
    exact (h.templateModels template (List.mem_of_head? htemplate)).nodup_kept _
  · exact List.nodup_nil

theorem isName_terms (h : c.Derived) : ∀ name ∈ c.terms, IsName name.toList := by
  unfold terms
  split
  · rename_i template htemplate
    exact (h.templateModels template (List.mem_of_head? htemplate)).isName_kept
  · simp

theorem names_domainFields (h : c.Derived) :
    (domainFields c.primaryTemplateModel?).map (·.name) = c.terms.map Target.fieldName := by
  unfold terms domainFields
  cases htemplate : c.primaryTemplateModel? with
  | none => rfl
  | some template =>
    exact (h.templateModels template (List.mem_of_head? htemplate)).names_fieldsOf _

/-! ## Storage -/

theorem nodup_storage_iff (h : c.Derived) :
    ((storageFields c.primaryTemplateModel?).map (·.name)).Nodup ↔
      Target.Apart c.terms ∧ Target.Avoids ["owner", "paused"] c.terms := by
  have hnames : (storageFields c.primaryTemplateModel?).map (·.name) =
      ["owner", "paused"] ++ c.terms.map Target.fieldName := by
    simp only [storageFields, List.map_cons, h.names_domainFields, List.cons_append,
      List.nil_append]
  rw [hnames]
  exact Target.nodup_append_fieldNames_iff (by decide) (by decide) h.nodup_terms h.isName_terms

/-! ## Messages -/

/-- The messages that do not come from terms. -/
def ownMessages (c : Classification) : List Message :=
  contractMessages (exchange? c) []

/-- Their names. -/
def ownMessageNames (c : Classification) : List String :=
  ["get_owner", "is_paused", "pause", "unpause"] ++
    if (exchange? c).isSome then ["process_request"] else []

theorem names_ownMessages (c : Classification) :
    (ownMessages c).map (·.name) = ownMessageNames c := by
  unfold ownMessages contractMessages ownMessageNames
  cases exchange? c <;> rfl

theorem contractMessages_eq (c : Classification) (domain : List StorageField) :
    contractMessages (exchange? c) domain = ownMessages c ++ domain.map getterMessage := by
  simp [ownMessages, contractMessages]

theorem names_messages (h : c.Derived) :
    (contractMessages (exchange? c) (domainFields c.primaryTemplateModel?)).map (·.name) =
      ownMessageNames c ++ c.terms.map fun term => "get_" ++ Target.snakeCase term := by
  have hgetters : ((domainFields c.primaryTemplateModel?).map getterMessage).map (·.name) =
      c.terms.map fun term => "get_" ++ Target.snakeCase term := by
    calc ((domainFields c.primaryTemplateModel?).map getterMessage).map (·.name)
        = ((domainFields c.primaryTemplateModel?).map (·.name)).map
            fun name => "get_" ++ Target.unmarked name := by
          simp only [List.map_map, Function.comp_def, getterMessage]
          exact List.map_congr_left fun field _ => getterName.eq_def field
      _ = c.terms.map fun term => "get_" ++ Target.snakeCase term := by
          simp only [h.names_domainFields, List.map_map, Function.comp_def]
          refine List.map_congr_left fun term hterm => ?_
          rw [Target.unmarked_fieldName (h.isName_terms term hterm)]
  rw [contractMessages_eq, List.map_append, hgetters, names_ownMessages]

theorem nodup_ownMessageNames (c : Classification) : (ownMessageNames c).Nodup := by
  unfold ownMessageNames
  split <;> decide

/-- Of the messages that do not come from terms, only that for the owner is named like a getter. -/
theorem get_append_mem_iff {name : String} : "get_" ++ name ∈ ownMessageNames c ↔
    name = "owner" := by
  have howner : "get_" ++ name = "get_" ++ "owner" ↔ name = "owner" := String.append_right_inj _
  have hothers : "get_" ++ name ∉ ["is_paused", "pause", "unpause", "process_request"] := by
    simp only [List.mem_cons, List.not_mem_nil, or_false, not_or]
    refine ⟨?_, ?_, ?_, ?_⟩ <;> exact Text.append_ne_of_head (c := 'g') rfl (by decide)
  unfold ownMessageNames
  grind

theorem nodup_messages_iff (h : c.Derived) :
    ((contractMessages (exchange? c) (domainFields c.primaryTemplateModel?)).map (·.name)).Nodup ↔
      Target.Apart c.terms ∧ Target.Avoids ["owner"] c.terms := by
  have hapart : (c.terms.map fun term => "get_" ++ Target.snakeCase term).Nodup ↔
      Target.Apart c.terms := by
    rw [List.nodup_map_iff_inj_on h.nodup_terms]
    simp only [String.append_right_inj, Target.Apart, ne_eq, not_imp_not]
  have havoids :
      (ownMessageNames c).Disjoint (c.terms.map fun term => "get_" ++ Target.snakeCase term) ↔
        Target.Avoids ["owner"] c.terms := by
    rw [List.disjoint_comm, List.disjoint_left]
    simp only [List.mem_map, forall_exists_index, and_imp, forall_apply_eq_imp_iff₂,
      get_append_mem_iff, Target.Avoids, List.mem_singleton]
  rw [h.names_messages, List.nodup_append', hapart, havoids]
  simp [nodup_ownMessageNames]

end Classification.Derived

/-- If no message is given twice, the lookup keeps all if and only if their names are different. -/
theorem findMessage?_eq_self_iff {messages : List Message} (h : messages.Nodup) :
    (∀ m ∈ messages, findMessage? messages m.name = some m) ↔ (messages.map (·.name)).Nodup := by
  rw [List.nodup_map_iff_inj_on h]
  constructor
  · intro hfound m hm m' hm' hname
    have hsame := hfound m hm
    rw [hname, hfound m' hm'] at hsame
    exact (Option.some.inj hsame).symm
  · intro hinj m hm
    cases hfound : findMessage? messages m.name with
    | none => exact absurd (List.mem_map_of_mem hm) (findMessage?_eq_none_iff.mp hfound)
    | some m' =>
      obtain ⟨hm', hname⟩ := findMessage?_mem hfound
      rw [hinj m' hm' m hm hname]

namespace Classification.Derived

variable {c : Classification}

theorem sources_domainFields (c : Classification) :
    (domainFields c.primaryTemplateModel?).map (·.source?.getD "") = c.terms := by
  unfold terms domainFields
  cases c.primaryTemplateModel? with
  | none => rfl
  | some template =>
    simp only [fieldsOf, Classified.kept, List.filter_map, List.map_map, Function.comp_def,
      Option.getD_some]

/-- Messages are told apart by what they are described as. -/
theorem nodup_messages (h : c.Derived) :
    (contractMessages (exchange? c) (domainFields c.primaryTemplateModel?)).Nodup := by
  have hgetters : ((domainFields c.primaryTemplateModel?).map getterMessage).map (·.description) =
      c.terms.map ("Get " ++ ·) := by
    rw [← sources_domainFields]
    simp only [List.map_map, Function.comp_def, getterMessage]
  have hget (text : String) : ("Get " ++ text).toList.head? = some 'G' := by simp
  have hown : ∀ m ∈ ownMessages c, m.description.toList.head? ≠ some 'G' := by
    have hcontrol : ∀ m ∈ controlMessages, m.description.toList.head? ≠ some 'G' := by decide
    unfold ownMessages contractMessages
    cases exchange? c with
    | none => simpa using hcontrol
    | some exchange => simpa [processingMessage, or_imp, forall_and] using hcontrol
  rw [contractMessages_eq, List.nodup_append']
  refine ⟨?_, ?_, ?_⟩
  · have hnames := nodup_ownMessageNames c
    rw [← names_ownMessages] at hnames
    exact hnames.of_map
  · refine List.Nodup.of_map (·.description) ?_
    rw [hgetters]
    exact h.nodup_terms.map fun x y => (String.append_right_inj "Get ").mp
  · intro m hm hgetter
    obtain ⟨field, -, rfl⟩ := List.mem_map.mp hgetter
    exact hown _ hm (hget _)

/-! ## Structures -/

theorem mem_of_mem_firstOfEachName {taken : List String} {ds : List Classified} {d : Classified}
    (h : d ∈ firstOfEachName taken ds) : d ∈ ds :=
  List.mem_of_find?_eq_some (mem_firstOfEachName_iff.mp h).2

theorem of_exchanged (h : c.Derived) {d : Classified} (hd : d ∈ exchangedDeclarations c) :
    d.Derived := by
  rcases List.mem_append.mp (mem_of_mem_firstOfEachName hd) with hd | hd
  · exact h.requests d hd
  · exact h.responses d hd

theorem of_concept (h : c.Derived) {d : Classified} (hd : d ∈ storedConcepts c) : d.Derived :=
  h.concepts d (List.mem_of_mem_filter (mem_of_mem_firstOfEachName hd))

theorem of_participant (h : c.Derived) {d : Classified}
    (hd : d ∈ storedParticipants c) : d.Derived :=
  h.participants d (mem_of_mem_firstOfEachName hd)

theorem nodup_structures_iff (h : c.Derived) :
    (∀ s ∈ dataStructures c, (s.fields.map (·.name)).Nodup) ↔
      (∀ d ∈ exchangedDeclarations c, Target.Apart (d.kept transientProperties)) ∧
      (∀ d ∈ storedConcepts c, Target.Apart (d.kept ("$identifier" :: transientProperties))) ∧
      ∀ d ∈ storedParticipants c,
        Target.Apart (d.kept ("partyId" :: "$identifier" :: transientProperties)) ∧
        Target.Avoids ["party_id"]
          (d.kept ("partyId" :: "$identifier" :: transientProperties)) := by
  have hconcept (d : Classified) :
      (∀ s, conceptStructure? d = some s → (s.fields.map (·.name)).Nodup) ↔
        ((fieldsOf ("$identifier" :: transientProperties) d.properties).map (·.name)).Nodup := by
    unfold conceptStructure?
    split
    · rename_i hfields
      simp [hfields]
    · simp
  unfold dataStructures
  simp only [List.forall_mem_append, List.forall_mem_map, List.forall_mem_filterMap, and_assoc]
  refine and_congr ?_ (and_congr ?_ ?_)
  · refine forall₂_congr fun d hd => ?_
    have hfields :=
      (h.of_exchanged hd).nodup_fieldsOf_iff transientProperties List.nodup_nil (by simp)
    simpa [exchangedStructure, Target.Avoids] using hfields
  · refine forall₂_congr fun d hd => ?_
    rw [hconcept]
    have hfields := (h.of_concept hd).nodup_fieldsOf_iff ("$identifier" :: transientProperties)
      List.nodup_nil (by simp)
    simpa [Target.Avoids] using hfields
  · refine forall₂_congr fun d hd => ?_
    exact (h.of_participant hd).nodup_fieldsOf_iff _ (List.nodup_singleton "party_id") (by decide)

end Classification.Derived

namespace Contract

/-- What is stored has different names if and only if the terms keep apart and none has the field
`owner` or `paused`, and so have messages if the terms keep apart and none has the field `owner`;
if they have, and only then, the lookup keeps every message. The fields of structures have
different names if and only if the properties that they are made from keep apart and no other
property of a participant has the field `party_id`. -/
theorem nodup_names_iff {r : Registry} (hr : r.Reachable) (strategy : Strategy)
    (given? : Option String) :
    let c := r.classify strategy
    let contract := synthesize c given?
    ((contract.storage.map (·.name)).Nodup ↔
      Target.Apart c.terms ∧ Target.Avoids ["owner", "paused"] c.terms) ∧
    ((contract.messages.map (·.name)).Nodup ↔
      Target.Apart c.terms ∧ Target.Avoids ["owner"] c.terms) ∧
    ((∀ m ∈ contract.messages, findMessage? contract.messages m.name = some m) ↔
      (contract.messages.map (·.name)).Nodup) ∧
    ((∀ s ∈ contract.structures, (s.fields.map (·.name)).Nodup) ↔
      (∀ d ∈ exchangedDeclarations c, Target.Apart (d.kept transientProperties)) ∧
      (∀ d ∈ storedConcepts c, Target.Apart (d.kept ("$identifier" :: transientProperties))) ∧
      ∀ d ∈ storedParticipants c,
        Target.Apart (d.kept ("partyId" :: "$identifier" :: transientProperties)) ∧
        Target.Avoids ["party_id"]
          (d.kept ("partyId" :: "$identifier" :: transientProperties))) := by
  intro c contract
  have h : c.Derived := hr.sound.classify_derived strategy
  exact ⟨h.nodup_storage_iff, h.nodup_messages_iff, findMessage?_eq_self_iff h.nodup_messages,
    h.nodup_structures_iff⟩

/-- A class with one text for a property. -/
def textClass (kind : ClassKind) (name : String) (superType? : Option String) (property : String) :
    Declaration where
  name
  body := .classBody {
    kind
    superType?
    properties := [{ name := property, typeName := "String" }] }

/-- A template model with the term `owner`, and a participant with the property `party_id`. -/
def ownedTemplate : Registry where
  entries := [{
    model := {
      id := ⟨"a", none⟩
      declarations :=
        [textClass .asset "Clause" none "x", textClass .asset "T" (some "Clause") "owner",
          textClass .participant "P" none "party_id"] }
    name := "a.cto"
    text := "namespace a asset Clause \x7bo String x\x7d " ++
      "asset T extends Clause \x7bo String owner\x7d participant P \x7bo String party_id\x7d" }]

/-- It passes validation. As a template model, its owner and that of the contract have the same
name, stored and as a message; where `T` is none, as under exact recognition, all is kept. Either
way the structure of the participant has a field twice. -/
theorem nodup_names_iff_owned :
    let contract strategy := synthesize (ownedTemplate.classify strategy) none
    ownedTemplate.Reachable ∧ ownedTemplate.validate = [] ∧
    (¬ ((contract .substring).storage.map (·.name)).Nodup ∧
      ¬ ((contract .substring).messages.map (·.name)).Nodup ∧
      ¬ ∀ m ∈ (contract .substring).messages,
        findMessage? (contract .substring).messages m.name = some m) ∧
    (((contract .exact).storage.map (·.name)).Nodup ∧
      ∀ m ∈ (contract .exact).messages, findMessage? (contract .exact).messages m.name = some m) ∧
    ∀ strategy, ¬ ∀ s ∈ (contract strategy).structures, (s.fields.map (·.name)).Nodup := by
  intro contract
  let r := ownedTemplate
  let clause : Located := ⟨"a", textClass .asset "Clause" none "x"⟩
  let template : Located := ⟨"a", textClass .asset "T" (some "Clause") "owner"⟩
  let participant : Located := ⟨"a", textClass .participant "P" none "party_id"⟩
  have hreachable : r.Reachable := by
    refine Registry.Reachable.empty.register (?_ : Registry.empty.register
      (r.entries.head (by decide)).text "a.cto" =
        .ok (.added (r.entries.head (by decide)).model, r))
    decide +kernel
  have hvalidate : r.validate = [] :=
    Registry.validate_eq_nil_of_flat (by decide +kernel) (by decide +kernel)
  have hdeclarations : r.declarations = [clause, template, participant] := by decide +kernel
  have hclause : r.superTypeNames clause = [] :=
    Registry.superTypeNamesFrom_none (by decide +kernel) []
  have hparticipant : r.superTypeNames participant = [] :=
    Registry.superTypeNamesFrom_none (by decide +kernel) []
  have htemplate : r.superTypeNames template = ["a.Clause"] := by
    have hsuper : r.superType? template = some clause := by decide +kernel
    have hroot : r.superType? clause = none := by decide +kernel
    rw [Registry.superTypeNames, Registry.superTypeNamesFrom_some hsuper,
      Registry.superTypeNamesFrom_none hroot]
    decide +kernel
  have hterms (strategy : Strategy) : (r.classify strategy).terms =
      if strategy = .substring then ["owner"] else [] := by
    simp only [Classification.terms, Classification.primaryTemplateModel?, Registry.classify_eq,
      Registry.ofRole, Registry.roleOf, hdeclarations, List.filter_cons, List.filter_nil, hclause,
      htemplate, hparticipant]
    cases strategy <;> decide +kernel
  have hparticipants (strategy : Strategy) : storedParticipants (r.classify strategy) =
      [r.classified participant .participant] := by
    simp only [storedParticipants, storedConcepts, exchangedDeclarations, Registry.classify_eq,
      Registry.ofRole, Registry.roleOf, hdeclarations, List.filter_cons, List.filter_nil, hclause,
      htemplate, hparticipant]
    cases strategy <;> decide +kernel
  have hkept : (r.classified participant .participant).kept
      ("partyId" :: "$identifier" :: transientProperties) = ["party_id"] := by decide +kernel
  obtain ⟨hstorage, hmessages, hlookup, -⟩ := nodup_names_iff hreachable .substring none
  obtain ⟨hstorage', hmessages', hlookup', -⟩ := nodup_names_iff hreachable .exact none
  rw [hterms] at hstorage hmessages hstorage' hmessages'
  refine ⟨hreachable, hvalidate, ⟨?_, ?_, ?_⟩, ⟨?_, ?_⟩, fun strategy => ?_⟩
  · exact fun h => absurd (hstorage.mp h) (by decide +kernel)
  · exact fun h => absurd (hmessages.mp h) (by decide +kernel)
  · exact fun h => absurd (hmessages.mp (hlookup.mp h)) (by decide +kernel)
  · exact hstorage'.mpr (by decide +kernel)
  · exact hlookup'.mpr (hmessages'.mpr (by decide +kernel))
  · obtain ⟨-, -, -, hstructures⟩ := nodup_names_iff hreachable strategy none
    intro h
    have hmeets := (hstructures.mp h).2.2 (r.classified participant .participant)
      (by rw [hparticipants]; exact List.mem_singleton_self _)
    rw [hkept] at hmeets
    exact absurd hmeets.2 (by decide +kernel)

end Contract

end Covenant

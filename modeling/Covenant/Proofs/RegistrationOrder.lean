/-
The order in which documents are registered does not matter. Whether all of them can
be registered depends on their texts alone, and so do the models that are registered
in the end (`Registry.registerAll_perm`).

A registry is compared by the texts it holds: registering a document adds its text to
them and nothing else (`Registry.mem_texts_register`), whether or not it was there
before. If no two documents share the name of their namespace, the rest follows, since
no lookup then has a choice between documents.
-/
import Covenant.Proofs.SameLookups

namespace Covenant

/-- Texts that can be registered together: each can be read and has no faults, and no two of them
have the same namespace. -/
structure Compatible (texts : List String) : Prop where
  sound : ∀ text ∈ texts, ∃ m, Model.read text = .ok m ∧ m.analyze = []
  distinct : ∀ text ∈ texts, ∀ text' ∈ texts, ∀ m m', Model.read text = .ok m →
    Model.read text' = .ok m' → m.key = m'.key → text = text'

theorem Compatible.mono {texts fewer : List String} (h : Compatible texts) (hf : fewer ⊆ texts) :
    Compatible fewer :=
  ⟨fun text ht => h.sound text (hf ht),
    fun text ht text' ht' => h.distinct text (hf ht) text' (hf ht')⟩

theorem compatible_congr {texts texts' : List String} (h : ∀ text, text ∈ texts ↔ text ∈ texts') :
    Compatible texts ↔ Compatible texts' :=
  ⟨fun hc => hc.mono fun _ ht => (h _).mpr ht, fun hc => hc.mono fun _ ht => (h _).mp ht⟩

namespace Registry

/-- Registers documents one after the other, up to the first that is rejected. -/
def registerAll (r : Registry) : List Submission → Except RegistrationError Registry
  | [] => .ok r
  | d :: ds =>
    match r.register d.text d.name with
    | .error e => .error e
    | .ok (_, r) => r.registerAll ds

/-- The documents that were registered. -/
def submissions (r : Registry) : List Submission :=
  r.entries.map fun e => ⟨e.text, e.name⟩

/-- The texts that the registered models were read from. -/
def texts (r : Registry) : List String :=
  r.entries.map (·.text)

/-! ## One registration -/

theorem mem_texts_register {r r' : Registry} {text name : String} {outcome : Registration}
    (h : r.register text name = .ok (outcome, r')) (other : String) :
    other ∈ r'.texts ↔ other ∈ r.texts ∨ other = text := by
  obtain ⟨m, -, -, ⟨first, hfirst, rfl, -, rfl⟩ | ⟨-, -, rfl⟩⟩ := register_cases h
  · have hmem : first.text ∈ r'.texts := List.mem_map_of_mem (List.mem_of_find?_eq_some hfirst)
    constructor
    · exact .inl
    · rintro (hother | rfl)
      · exact hother
      · exact hmem
  · simp [texts]

theorem Sound.compatible {r : Registry} (h : r.Sound) : Compatible r.texts := by
  constructor
  · intro text ht
    obtain ⟨e, he, rfl⟩ := List.mem_map.mp ht
    exact ⟨e.model, h.read e he, h.analyzed e he⟩
  · intro text ht text' ht' m m' hm hm' hkey
    obtain ⟨e, he, rfl⟩ := List.mem_map.mp ht
    obtain ⟨e', he', rfl⟩ := List.mem_map.mp ht'
    obtain rfl : e.model = m := Except.ok.inj ((h.read e he).symm.trans hm)
    obtain rfl : e'.model = m' := Except.ok.inj ((h.read e' he').symm.trans hm')
    rw [List.inj_on_of_nodup_map h.keys he he' hkey]

/-- A document that is compatible with the registered ones can be registered. -/
theorem Sound.register_of_compatible {r : Registry} (h : r.Sound) {text : String} (name : String)
    (hc : Compatible (text :: r.texts)) : ∃ outcome r',
      r.register text name = .ok (outcome, r') := by
  obtain ⟨m, hread, hanalyze⟩ := hc.sound text List.mem_cons_self
  simp only [Registry.register, hread, hanalyze, Registry.add]
  cases hentry : r.entry? m.key with
  | none => exact ⟨_, _, rfl⟩
  | some first =>
    have hmem : first ∈ r.entries := List.mem_of_find?_eq_some hentry
    have hkey : first.model.key = m.key := by simpa using List.find?_some hentry
    have htext : first.text = text :=
      hc.distinct first.text (List.mem_cons_of_mem _ (List.mem_map_of_mem hmem)) text
        List.mem_cons_self first.model m (h.read first hmem) hread hkey
    exact ⟨_, _, by simp only [if_pos htext]; rfl⟩

/-! ## Many registrations -/

theorem registerAll_cons_eq_ok {r r' : Registry} {d : Submission} {ds : List Submission} :
    r.registerAll (d :: ds) = .ok r' ↔ ∃ outcome middle,
      r.register d.text d.name = .ok (outcome, middle) ∧ middle.registerAll ds = .ok r' := by
  rw [registerAll]
  cases r.register d.text d.name with
  | error e => simp
  | ok result =>
    obtain ⟨outcome, middle⟩ := result
    simp

theorem Reachable.registerAll {r r' : Registry} (h : r.Reachable) {ds : List Submission}
    (hall : r.registerAll ds = .ok r') : r'.Reachable := by
  induction ds generalizing r with
  | nil =>
    cases hall
    exact h
  | cons d ds ih =>
    obtain ⟨outcome, middle, hfirst, hothers⟩ := registerAll_cons_eq_ok.mp hall
    exact ih (h.register hfirst) hothers

theorem reachable_of_submissions {r : Registry}
    (h : Registry.empty.registerAll r.submissions = .ok r) : r.Reachable :=
  Reachable.empty.registerAll h

/-- A registered text may as well be counted among those to come. -/
theorem mem_texts_append {r middle : Registry} {d : Submission} {outcome : Registration}
    (h : r.register d.text d.name = .ok (outcome, middle)) (ds : List Submission) (text : String) :
    text ∈ middle.texts ++ ds.map (·.text) ↔ text ∈ r.texts ++ (d :: ds).map (·.text) := by
  rw [List.mem_append, mem_texts_register h, List.map_cons, List.mem_append, List.mem_cons]
  exact or_assoc

/-- Registering documents adds their texts to those of the registry. -/
theorem Sound.registerAll {r r' : Registry} (h : r.Sound) {ds : List Submission}
    (hall : r.registerAll ds = .ok r') :
    r'.Sound ∧ ∀ text, text ∈ r'.texts ↔ text ∈ r.texts ++ ds.map (·.text) := by
  induction ds generalizing r with
  | nil =>
    cases hall
    exact ⟨h, by simp⟩
  | cons d ds ih =>
    obtain ⟨outcome, middle, hfirst, hothers⟩ := registerAll_cons_eq_ok.mp hall
    obtain ⟨hsound, htexts⟩ := ih (h.register hfirst) hothers
    exact ⟨hsound, fun text => (htexts text).trans (mem_texts_append hfirst ds text)⟩

/-- Documents can be registered if and only if all texts are compatible. -/
theorem Sound.registerAll_isOk_iff {r : Registry} (h : r.Sound) {ds : List Submission} :
    (∃ r', r.registerAll ds = .ok r') ↔ Compatible (r.texts ++ ds.map (·.text)) := by
  constructor
  · rintro ⟨r', hall⟩
    obtain ⟨hsound, htexts⟩ := h.registerAll hall
    exact (compatible_congr htexts).mp hsound.compatible
  · intro hc
    induction ds generalizing r with
    | nil => exact ⟨r, rfl⟩
    | cons d ds ih =>
      have hfirst : Compatible (d.text :: r.texts) := hc.mono (by grind)
      obtain ⟨outcome, middle, hmiddle⟩ := h.register_of_compatible d.name hfirst
      have hrest := (compatible_congr (mem_texts_append hmiddle ds)).mpr hc
      obtain ⟨r', hothers⟩ := ih (h.register hmiddle) hrest
      exact ⟨r', registerAll_cons_eq_ok.mpr ⟨outcome, middle, hmiddle, hothers⟩⟩

/-! ## Registries of the same texts -/

theorem Sound.mem_models_iff {r : Registry} (h : r.Sound) {m : Model} :
    m ∈ r.models ↔ ∃ text ∈ r.texts, Model.read text = .ok m := by
  constructor
  · intro hm
    obtain ⟨e, he, rfl⟩ := List.mem_map.mp hm
    exact ⟨e.text, List.mem_map_of_mem he, h.read e he⟩
  · rintro ⟨text, ht, hread⟩
    obtain ⟨e, he, rfl⟩ := List.mem_map.mp ht
    obtain rfl : e.model = m := Except.ok.inj ((h.read e he).symm.trans hread)
    exact List.mem_map_of_mem he

theorem Sound.nodup_models {r : Registry} (h : r.Sound) : r.models.Nodup :=
  List.Nodup.of_map Model.key (map_key_models r ▸ h.keys)

theorem Sound.perm_models {r r' : Registry} (h : r.Sound) (h' : r'.Sound)
    (htexts : ∀ text, text ∈ r.texts ↔ text ∈ r'.texts) : r.models.Perm r'.models := by
  rw [List.perm_ext_iff_of_nodup h.nodup_models h'.nodup_models]
  intro m
  simp only [h.mem_models_iff, h'.mem_models_iff, htexts]

theorem Sound.model?_eq {r r' : Registry} (h : r.Sound) (h' : r'.Sound)
    (hperm : r.models.Perm r'.models) (key : String) : r.model? key = r'.model? key := by
  refine Option.ext fun m => ?_
  rw [h.model?_eq_some_iff, h'.model?_eq_some_iff, hperm.mem_iff]

/-- A search that only one item can pass finds the same in any order. -/
theorem find?_eq_of_perm {α : Type} {p : α → Bool} {as bs : List α} (h : as.Perm bs)
    (unique : ∀ a ∈ as, ∀ b ∈ as, p a = true → p b = true → a = b) : as.find? p = bs.find? p := by
  cases hfound : bs.find? p with
  | none =>
    rw [List.find?_eq_none] at hfound ⊢
    exact fun a ha => hfound a (h.mem_iff.mp ha)
  | some b =>
    have hb : b ∈ as := h.mem_iff.mpr (List.mem_of_find?_eq_some hfound)
    have hpb := List.find?_some hfound
    cases hfound' : as.find? p with
    | none => exact absurd hpb (List.find?_eq_none.mp hfound' b hb)
    | some a =>
      rw [unique a (List.mem_of_find?_eq_some hfound') b hb (List.find?_some hfound') hpb]

/-- If no two documents share the name of their namespace, lookups have no choice. -/
theorem Sound.sameLookups {r r' : Registry} (h : r.Sound) (h' : r'.Sound)
    (hperm : r.models.Perm r'.models) (hnames : (r.models.map (·.id.name)).Nodup) :
    SameLookups r r' where
  models := hperm
  model? := h.model?_eq h' hperm
  find? id := by
    have hfirst : r.models.find? (·.id.name = id.name) = r'.models.find? (·.id.name = id.name) := by
      refine find?_eq_of_perm hperm fun m hm m' hm' hname hname' => ?_
      exact List.inj_on_of_nodup_map hnames hm hm' (by simp_all)
    simp only [find?, h.model?_eq h' hperm, hfirst]

/-! ## Any order -/

/-- Documents can be registered in one order if and only if they can in another, namely if their
texts are compatible. Then the same models are registered, and if no two of them share the name of
their namespace, the registries answer alike. -/
theorem registerAll_perm {ds ds' : List Submission} (h : ds.Perm ds') :
    ((∃ r, Registry.empty.registerAll ds = .ok r) ↔ ∃ r', Registry.empty.registerAll ds' = .ok r') ∧
    ((∃ r, Registry.empty.registerAll ds = .ok r) ↔ Compatible (ds.map (·.text))) ∧
    ∀ r r', Registry.empty.registerAll ds = .ok r → Registry.empty.registerAll ds' = .ok r' →
      r.models.Perm r'.models ∧ (∀ key, r.model? key = r'.model? key) ∧
        ((r.models.map (·.id.name)).Nodup → SameAnswers r r') := by
  have hmem (text : String) : text ∈ ds.map (·.text) ↔ text ∈ ds'.map (·.text) :=
    (h.map _).mem_iff
  have hok (ds : List Submission) :
      (∃ r, Registry.empty.registerAll ds = .ok r) ↔ Compatible (ds.map (·.text)) :=
    Sound.empty.registerAll_isOk_iff
  refine ⟨?_, hok ds, fun r r' hr hr' => ?_⟩
  · rw [hok ds, hok ds']
    exact compatible_congr hmem
  · obtain ⟨hsound, htexts⟩ := Sound.empty.registerAll hr
    obtain ⟨hsound', htexts'⟩ := Sound.empty.registerAll hr'
    have hsame (text : String) : text ∈ r.texts ↔ text ∈ r'.texts := by
      rw [htexts, htexts', List.mem_append, List.mem_append, hmem]
    have hperm := hsound.perm_models hsound' hsame
    refine ⟨hperm, hsound.model?_eq hsound' hperm, fun hnames => ?_⟩
    exact (hsound.sameLookups hsound' hperm hnames).sameAnswers hsound hsound'

/-- Two documents, one of them twice, in two orders. -/
theorem registerAll_perm_imports :
    ∃ r r' : Registry,
      let a : Submission := ⟨"namespace a concept A \x7b\x7d", "a.cto"⟩
      let b : Submission := ⟨"namespace b import a.A concept B extends A \x7b\x7d", "b.cto"⟩
      Registry.empty.registerAll [b, a, b] = .ok r ∧ Registry.empty.registerAll [a, b, b] = .ok r' ∧
        r.keys = ["b", "a"] ∧ r'.keys = ["a", "b"] ∧ SameAnswers r r' := by
  let modelA : Model := {
    id := ⟨"a", none⟩
    declarations := [⟨"A", .classBody { kind := .concept }, []⟩] }
  let modelB : Model := {
    id := ⟨"b", none⟩
    imports := [⟨⟨"a", none⟩, .types ["A"], none⟩]
    declarations := [⟨"B", .classBody { kind := .concept, superType? := some "A" }, []⟩] }
  let a : Submission := ⟨"namespace a concept A \x7b\x7d", "a.cto"⟩
  let b : Submission := ⟨"namespace b import a.A concept B extends A \x7b\x7d", "b.cto"⟩
  let r : Registry := ⟨[⟨modelB, b.name, b.text⟩, ⟨modelA, a.name, a.text⟩]⟩
  let r' : Registry := ⟨[⟨modelA, a.name, a.text⟩, ⟨modelB, b.name, b.text⟩]⟩
  have hr : Registry.empty.registerAll [b, a, b] = .ok r := by decide +kernel
  have hr' : Registry.empty.registerAll [a, b, b] = .ok r' := by decide +kernel
  have hanswers : SameAnswers r r' :=
    ((registerAll_perm (List.Perm.swap a b [b])).2.2 r r' hr hr').2.2 (by decide)
  exact ⟨r, r', hr, hr', by decide, by decide, hanswers⟩

end Registry

end Covenant

/-
Sessions with one registry. Documents are submitted one after the other, and whatever
becomes of one of them, the next is submitted to the store that it leaves
(`RegistryStore.session`). At every moment the two dictionaries of the store have the same
keys, which are those of the models, and they hold what was accepted, in the order in which
it was (`RegistryStore.session_consistent`).

All that a submission can do is said once, by `RegistryStore.submit_exit`: a document is
rejected in one of five ways, known again, or kept, and only then does the store change. An
eighth way out would be taken if a namespace were registered and its document not known; it
is closed as long as the dictionaries have the same keys.

What a store holds is a registry, and submitting a document to the store is registering it
in that registry (`Registry.submit_store`).
-/
import Covenant.Proofs.Registered
import Covenant.Registry.Store

namespace Covenant

namespace RegistryStore

/-! ## One document -/

/-- The ways out of a registration: its answer, and the store that it leaves. -/
inductive Exit (s : RegistryStore) (d : Submission) :
    Except StoreError Registration × RegistryStore → Prop
  | lexical {e : LexicalError} : Model.read d.text = .error (.lexical e) →
    Exit s d (.error (.registration (.rejected d.name (.lexical e))), s)
  | grammar {e : GrammarError} : Model.read d.text = .error (.grammar e) →
    Exit s d (.error (.registration (.rejected d.name (.grammar e))), s)
  | numeral {e : Number.NumeralError} : Model.read d.text = .error (.numeral e) →
    Exit s d (.error (.registration (.numeral e)), s)
  | semantic {m : Model} : Model.read d.text = .ok m → m.analyze ≠ [] →
    Exit s d (.error (.registration (.rejected d.name (.semantic m.analyze))), s)
  | taken {m : Model} {first : Submission} : Model.read d.text = .ok m → m.analyze = [] →
    m.key ∈ s.files.keys → s.sources.get? m.key = some first → first.text ≠ d.text →
    Exit s d (.error (.registration (.rejected d.name (.taken m.key first.name))), s)
  | noSource {m : Model} : Model.read d.text = .ok m → m.analyze = [] →
    m.key ∈ s.files.keys → s.sources.get? m.key = none →
    Exit s d (.error (.noSource m.key), s)
  | duplicate {m : Model} {first : Submission} : Model.read d.text = .ok m → m.analyze = [] →
    m.key ∈ s.files.keys → s.sources.get? m.key = some first → first.text = d.text →
    Exit s d (.ok (.duplicate m.key first.name), s)
  | added {m : Model} : Model.read d.text = .ok m → m.analyze = [] → m.key ∉ s.files.keys →
    Exit s d (.ok (.added m), ⟨s.files.put m.key m, s.sources.put m.key d⟩)

section

variable {s : RegistryStore} {d first : Submission} {m : Model}

theorem run_sourceOf (s : RegistryStore) (key : String) :
    (sourceOf key).run s =
      match s.sources.get? key with
      | some source => (.ok source, s)
      | none => (.error (.noSource key), s) := by
  change (match s.sources.get? key with
    | some source => pure source
    | none => throw (.noSource key) : Registering Submission).run s = _
  cases s.sources.get? key <;> rfl

theorem submit_of_unread {e : ReadError} (hread : Model.read d.text = .error e) :
    s.submit d = (.error (.registration (.ofRead d.name e)), s) := by
  unfold submit register readDocument
  rw [hread]
  rfl

theorem submit_of_faults (hread : Model.read d.text = .ok m) (hfaults : m.analyze ≠ []) :
    s.submit d = (.error (.registration (.rejected d.name (.semantic m.analyze))), s) := by
  obtain ⟨e, es, he⟩ := List.exists_cons_of_ne_nil hfaults
  unfold submit register readDocument checkDocument
  rw [hread]
  simp only [pure_bind, he]
  rfl

theorem submit_of_new (hread : Model.read d.text = .ok m) (hchecked : m.analyze = [])
    (hkey : m.key ∉ s.files.keys) :
    s.submit d = (.ok (.added m), ⟨s.files.put m.key m, s.sources.put m.key d⟩) := by
  unfold submit register readDocument checkDocument
  rw [hread]
  simp only [pure_bind, hchecked]
  change (if m.key ∈ s.files.keys then _ else _ : Registering Registration).run s = _
  rw [if_neg hkey]
  rfl

/-- A document whose namespace is registered is compared with the one that is known. -/
theorem submit_of_known (hread : Model.read d.text = .ok m) (hchecked : m.analyze = [])
    (hkey : m.key ∈ s.files.keys) :
    s.submit d =
      match s.sources.get? m.key with
      | some first =>
        if first.text = d.text then (.ok (.duplicate m.key first.name), s)
        else (.error (.registration (.rejected d.name (.taken m.key first.name))), s)
      | none => (.error (.noSource m.key), s) := by
  unfold submit register readDocument checkDocument
  rw [hread]
  simp only [pure_bind, hchecked]
  change (if m.key ∈ s.files.keys then _ else _ : Registering Registration).run s = _
  rw [if_pos hkey, Step.run_bind, run_sourceOf]
  cases s.sources.get? m.key with
  | none => rfl
  | some first =>
    dsimp only
    split <;> rfl

end

theorem submit_exit (s : RegistryStore) (d : Submission) : s.Exit d (s.submit d) := by
  cases hread : Model.read d.text with
  | error e =>
    rw [submit_of_unread hread]
    cases e with
    | lexical e => exact .lexical hread
    | grammar e => exact .grammar hread
    | numeral e => exact .numeral hread
  | ok m =>
    by_cases hchecked : m.analyze = []
    · by_cases hkey : m.key ∈ s.files.keys
      · rw [submit_of_known hread hchecked hkey]
        cases hfirst : s.sources.get? m.key with
        | none => exact .noSource hread hchecked hkey hfirst
        | some first =>
          dsimp only
          split
          · exact .duplicate hread hchecked hkey hfirst ‹_›
          · exact .taken hread hchecked hkey hfirst ‹_›
      · rw [submit_of_new hread hchecked hkey]
        exact .added hread hchecked hkey
    · rw [submit_of_faults hread hchecked]
      exact .semantic hread hchecked

/-! ## Consistent stores -/

/-- The dictionaries have the same keys, each once, and these are the keys of the models. Every
model was read from the document under its key and has no faults. -/
structure Consistent (s : RegistryStore) : Prop where
  distinct : s.files.keys.Nodup
  sources : s.sources.keys = s.files.keys
  keyed : ∀ key m, (key, m) ∈ s.files → key = m.id.key
  read : ∀ key m source, (key, m) ∈ s.files → (key, source) ∈ s.sources →
    Model.read source.text = .ok m
  analyzed : ∀ key m, (key, m) ∈ s.files → m.analyze = []
  faultless : ∀ key m, (key, m) ∈ s.files → m.Faultless

theorem Consistent.exists_source {s : RegistryStore} (h : s.Consistent) {key : String}
    (hkey : key ∈ s.files.keys) : ∃ source, s.sources.get? key = some source := by
  rw [← Option.isSome_iff_exists, Option.isSome_iff_ne_none]
  intro hnone
  rw [Dictionary.get?_eq_none_iff, h.sources] at hnone
  exact hnone hkey

/-- What becomes of a document that is submitted to a consistent store: an answer that it cannot
take or has taken leaves the store as it was, and otherwise both dictionaries grow by one entry at
the end. -/
structure Answered (s : RegistryStore) (d : Submission) (answer : Except StoreError Registration)
    (s' : RegistryStore) : Prop where
  exit : s.Exit d (answer, s')
  known : ∀ key, answer ≠ .error (.noSource key)
  raised : ∀ e, answer = .error e → s' = s
  duplicate : ∀ key firstName, answer = .ok (.duplicate key firstName) → s' = s
  added : ∀ m, answer = .ok (.added m) → m.key ∉ s.files.keys ∧
    s'.files = s.files ++ [(m.key, m)] ∧ s'.sources = s.sources ++ [(m.key, d)]

theorem Consistent.answered {s : RegistryStore} (h : s.Consistent) (d : Submission) :
    s.Answered d (s.submit d).1 (s.submit d).2 where
  exit := s.submit_exit d
  known key hanswer := by
    have hexit := s.submit_exit d
    generalize s.submit d = answered at hexit hanswer
    cases hexit with
    | noSource _ _ hkey hnone =>
      obtain ⟨source, hsource⟩ := h.exists_source hkey
      simp [hnone] at hsource
    | _ => cases hanswer
  raised e hanswer := by
    have hexit := s.submit_exit d
    generalize s.submit d = answered at hexit hanswer
    cases hexit with
    | added | duplicate => cases hanswer
    | _ => rfl
  duplicate key firstName hanswer := by
    have hexit := s.submit_exit d
    generalize s.submit d = answered at hexit hanswer
    cases hexit with
    | duplicate => rfl
    | _ => cases hanswer
  added m hanswer := by
    have hexit := s.submit_exit d
    generalize s.submit d = answered at hexit hanswer
    cases hexit with
    | added _ _ hkey =>
      cases hanswer
      exact ⟨hkey, Dictionary.put_of_not_mem hkey _,
        Dictionary.put_of_not_mem (h.sources ▸ hkey) _⟩
    | _ => cases hanswer

/-- The text of a registered document is known again, whatever it is called. -/
theorem Consistent.submit_registered {s : RegistryStore} (h : s.Consistent) {key : String}
    {source : Submission} (hsource : (key, source) ∈ s.sources) (name : String) :
    s.submit ⟨source.text, name⟩ = (.ok (.duplicate key source.name), s) := by
  have hkey : key ∈ s.files.keys := h.sources ▸ List.mem_map_of_mem hsource
  obtain ⟨⟨_, m⟩, hm, rfl⟩ := List.mem_map.mp hkey
  obtain rfl := h.keyed _ _ hm
  have hfirst : s.sources.get? m.key = some source :=
    (Dictionary.get?_eq_some_iff (h.sources ▸ h.distinct)).mpr hsource
  have hread : Model.read (⟨source.text, name⟩ : Submission).text = .ok m :=
    h.read _ _ source hm hsource
  rw [submit_of_known hread (h.analyzed _ _ hm) hkey, hfirst]
  exact if_pos rfl

end RegistryStore

/-! ## Stores and registries -/

/-- The document that an entry came from. -/
def RegistryEntry.source (e : RegistryEntry) : Submission :=
  ⟨e.text, e.name⟩

namespace Registry

/-- The dictionaries that hold the documents of a registry. -/
def store (r : Registry) : RegistryStore where
  files := r.entries.map fun e => (e.model.key, e.model)
  sources := r.entries.map fun e => (e.model.key, e.source)

theorem keys_store_files (r : Registry) : r.store.files.keys = r.keys := by
  simp [store, Dictionary.keys, Registry.keys]

theorem keys_store_sources (r : Registry) : r.store.sources.keys = r.keys := by
  simp [store, Dictionary.keys, Registry.keys]

theorem lookup_map_entries {α : Type} (entries : List RegistryEntry) (value : RegistryEntry → α)
    (key : String) : (entries.map fun e => (e.model.key, value e)).lookup key =
      (entries.find? (·.model.key = key)).map value := by
  induction entries with
  | nil => rfl
  | cons e entries ih =>
    rw [List.map_cons, List.lookup_cons, List.find?_cons, ih]
    by_cases hkey : e.model.key = key
    · simp [hkey]
    · simp [hkey, beq_false_of_ne (Ne.symm hkey)]

theorem get?_store_files (r : Registry) (key : String) : r.store.files.get? key = r.model? key :=
  lookup_map_entries r.entries RegistryEntry.model key

theorem get?_store_sources (r : Registry) (key : String) :
    r.store.sources.get? key = (r.entry? key).map RegistryEntry.source :=
  lookup_map_entries r.entries RegistryEntry.source key

/-- What a registration comes to for the store: its answer, and the dictionaries of the registry
that it leads to. -/
def stored (r : Registry) : Except RegistrationError (Registration × Registry) →
    Except StoreError Registration × RegistryStore
  | .ok (outcome, r') => (.ok outcome, r'.store)
  | .error e => (.error (.registration e), r.store)

/-- Submitting a document to the store is registering it in the registry. -/
theorem submit_store (r : Registry) (d : Submission) :
    r.store.submit d = r.stored (r.register d.text d.name) := by
  have hexit := r.store.submit_exit d
  generalize r.store.submit d = answered at hexit
  cases hexit with
  | lexical hread | grammar hread | numeral hread =>
    simp [register, hread, RegistrationError.ofRead, stored]
  | semantic hread hfaults =>
    obtain ⟨e, es, he⟩ := List.exists_cons_of_ne_nil hfaults
    simp [register, hread, he, stored]
  | noSource _ _ hkey hnone =>
    rw [Dictionary.get?_eq_none_iff, keys_store_sources, ← keys_store_files] at hnone
    exact absurd hkey hnone
  | taken hread hchecked _ hfirst htext =>
    rw [get?_store_sources, Option.map_eq_some_iff] at hfirst
    obtain ⟨first, hfirst, rfl⟩ := hfirst
    have htext : first.text ≠ d.text := htext
    simp [register, hread, hchecked, add, hfirst, htext, stored, RegistryEntry.source]
  | duplicate hread hchecked _ hfirst htext =>
    rw [get?_store_sources, Option.map_eq_some_iff] at hfirst
    obtain ⟨first, hfirst, rfl⟩ := hfirst
    have htext : first.text = d.text := htext
    simp [register, hread, hchecked, add, hfirst, htext, stored, RegistryEntry.source]
  | added hread hchecked hkey =>
    rw [Dictionary.put_of_not_mem hkey, Dictionary.put_of_not_mem (by
      rwa [keys_store_sources, ← keys_store_files])]
    rw [keys_store_files, ← entry?_eq_none_iff] at hkey
    simp [register, hread, hchecked, add, hkey, stored, store, RegistryEntry.source]

/-- A store whose registry was reached by registrations is left in such a store. -/
theorem Reachable.submit {r : Registry} (h : r.Reachable) (d : Submission) :
    ∃ r' : Registry, r'.Reachable ∧ (r.store.submit d).2 = r'.store := by
  rw [submit_store]
  cases hregister : r.register d.text d.name with
  | ok result =>
    obtain ⟨outcome, r'⟩ := result
    exact ⟨r', h.register hregister, rfl⟩
  | error e => exact ⟨r, h, rfl⟩

theorem Sound.consistent {r : Registry} (h : r.Sound) : r.store.Consistent where
  distinct := keys_store_files r ▸ h.keys
  sources := by rw [keys_store_sources, keys_store_files]
  keyed key m hm := by
    obtain ⟨e, -, he⟩ := List.mem_map.mp hm
    cases he
    rfl
  read key m source hm hsource := by
    obtain ⟨e, he, hmodel⟩ := List.mem_map.mp hm
    cases hmodel
    obtain ⟨first, hfirst, hentry⟩ := List.mem_map.mp hsource
    rw [Prod.mk.injEq] at hentry
    obtain rfl := List.inj_on_of_nodup_map h.keys hfirst he hentry.1
    rw [← hentry.2]
    exact h.read first hfirst
  analyzed key m hm := by
    obtain ⟨e, he, hmodel⟩ := List.mem_map.mp hm
    cases hmodel
    exact h.analyzed e he
  faultless key m hm := by
    obtain ⟨e, he, hmodel⟩ := List.mem_map.mp hm
    cases hmodel
    exact Model.faultless (h.analyzed e he)

/-- The registry of a store is found again. -/
theorem Sound.registry_store {r : Registry} (h : r.Sound) : r.store.registry = r := by
  have hentries : r.store.registry.entries = r.entries := by
    change (r.entries.map fun e => (e.model.key, e.model)).filterMap _ = _
    rw [List.filterMap_map]
    refine (List.filterMap_congr fun e he => ?_).trans List.filterMap_some
    have hentry := h.entry?_eq_some_iff.mpr ⟨he, rfl⟩
    simp [get?_store_sources, hentry, RegistryEntry.source]
  exact congrArg Registry.mk hentries

end Registry

/-! ## Many documents -/

namespace RegistryStore

/-- What is answered to documents that are submitted one after the other, and the store that is
left in the end. -/
def session (s : RegistryStore) : List Submission →
    List (Except StoreError Registration) × RegistryStore
  | [] => ([], s)
  | d :: ds =>
    let (answer, next) := s.submit d
    let (answers, last) := next.session ds
    (answer :: answers, last)

/-- What stays of a document, given the answer to it. -/
def accepted : Submission × Except StoreError Registration → Option (Model × Submission)
  | (d, .ok (.added m)) => some (m, d)
  | _ => none

/-- Keeps models, with the documents that they were read from, one after the other. -/
def extend (s : RegistryStore) (kept : List (Model × Submission)) : RegistryStore where
  files := s.files ++ kept.map fun (m, _) => (m.key, m)
  sources := s.sources ++ kept.map fun (m, d) => (m.key, d)

theorem extend_nil (s : RegistryStore) : s.extend [] = s := by
  simp [extend]

theorem extend_append (s : RegistryStore) (kept others : List (Model × Submission)) :
    s.extend (kept ++ others) = (s.extend kept).extend others := by
  simp [extend]

theorem Consistent.submit_eq_extend {s : RegistryStore} (h : s.Consistent) (d : Submission) :
    (s.submit d).2 = s.extend (accepted (d, (s.submit d).1)).toList := by
  have hanswered := h.answered d
  generalize s.submit d = answered at hanswered
  obtain ⟨answer, s'⟩ := answered
  cases answer with
  | error e =>
    obtain rfl := hanswered.raised e rfl
    exact (extend_nil _).symm
  | ok outcome =>
    cases outcome with
    | duplicate key firstName =>
      obtain rfl := hanswered.duplicate key firstName rfl
      exact (extend_nil _).symm
    | added m =>
      obtain ⟨-, hfiles, hsources⟩ := hanswered.added m rfl
      change s' = ⟨s.files ++ [(m.key, m)], s.sources ++ [(m.key, d)]⟩
      rw [← hfiles, ← hsources]

theorem session_cons (s : RegistryStore) (d : Submission) (ds : List Submission) :
    s.session (d :: ds) =
      ((s.submit d).1 :: ((s.submit d).2.session ds).1, ((s.submit d).2.session ds).2) :=
  rfl

theorem exists_reachable_session {r : Registry} (h : r.Reachable) (ds : List Submission) :
    ∃ r' : Registry, r'.Reachable ∧ (r.store.session ds).2 = r'.store := by
  induction ds generalizing r with
  | nil => exact ⟨r, h, rfl⟩
  | cons d ds ih =>
    obtain ⟨next, hnext, hsubmit⟩ := h.submit d
    rw [session_cons, hsubmit]
    exact ih hnext

/-- The store holds what it held before and what it accepted. -/
theorem session_eq_extend {r : Registry} (h : r.Reachable) (ds : List Submission) :
    (r.store.session ds).2 =
      r.store.extend ((ds.zip (r.store.session ds).1).filterMap accepted) := by
  induction ds generalizing r with
  | nil => exact (extend_nil _).symm
  | cons d ds ih =>
    obtain ⟨next, hnext, hsubmit⟩ := h.submit d
    rw [session_cons, hsubmit, ih hnext, ← hsubmit, h.sound.consistent.submit_eq_extend d,
      ← extend_append, List.zip_cons_cons, List.filterMap_cons]
    cases accepted (d, (r.store.submit d).1) <;> rfl

/-- After any session the dictionaries are consistent and hold what was accepted, in order; what
they hold is a registry that registrations lead to, with the same namespaces and the same model for
each, and submitting a document is registering it there. A further document is appended to both
dictionaries if it is added, and leaves them as they were if it is a duplicate or is rejected for
any reason; the text of a registered document is a duplicate under any name. -/
theorem session_consistent (ds : List Submission) :
    ∃ answers s, session {} ds = (answers, s) ∧ s.Consistent ∧
      s = extend {} ((ds.zip answers).filterMap accepted) ∧
      (s.registry.Reachable ∧ s.registry.keys = s.files.keys ∧
        (∀ key, s.registry.model? key = s.files.get? key) ∧
        ∀ d, s.submit d = s.registry.stored (s.registry.register d.text d.name)) ∧
      (∀ d, s.Answered d (s.submit d).1 (s.submit d).2) ∧
      ∀ key source, (key, source) ∈ s.sources → ∀ name,
        s.submit ⟨source.text, name⟩ = (.ok (.duplicate key source.name), s) := by
  obtain ⟨r, hr, hlast⟩ := exists_reachable_session .empty ds
  have hconsistent := hr.sound.consistent
  have hkept := session_eq_extend .empty ds
  rw [hlast] at hkept
  refine ⟨_, r.store, Prod.ext rfl hlast, hconsistent, hkept, ?_, hconsistent.answered, ?_⟩
  · rw [hr.sound.registry_store]
    exact ⟨hr, r.keys_store_files.symm, fun key => (r.get?_store_files key).symm, r.submit_store⟩
  · intro key source hsource name
    exact hconsistent.submit_registered hsource name

/-- Documents that are added, known again and rejected in every way. -/
def mixedSubmissions : List Submission :=
  [⟨"namespace a@1.0.0 enum E \x7b o x o y \x7d", "first"⟩,
   ⟨"namespace a ^", "lexical"⟩,
   ⟨"namespace", "grammar"⟩,
   ⟨"@x(²) namespace a", "numeral"⟩,
   ⟨"namespace c enum E \x7b o x o x \x7d", "semantic"⟩,
   ⟨"namespace a@1.0.0 enum E \x7b o x o y \x7d", "again"⟩,
   ⟨"namespace a@1.0.0", "taken"⟩,
   ⟨"namespace b scalar S extends Long", "second"⟩]

theorem session_consistent_mixed :
    ∃ s : RegistryStore, (session {} mixedSubmissions).2 = s ∧
      s.files.keys = ["a@1.0.0", "b"] ∧ s.sources.map (·.2.name) = ["first", "second"] ∧
      s.Consistent ∧
      ∀ name, s.submit ⟨"namespace b scalar S extends Long", name⟩ =
        (.ok (.duplicate "b" "second"), s) := by
  let modelA : Model := {
    id := ⟨"a", some "1.0.0"⟩, declarations := [⟨"E", .enumeration ["x", "y"], []⟩] }
  let modelB : Model := { id := ⟨"b", none⟩, declarations := [⟨"S", .scalar "Long", []⟩] }
  let second : Submission := ⟨"namespace b scalar S extends Long", "second"⟩
  let s : RegistryStore := {
    files := [("a@1.0.0", modelA), ("b", modelB)]
    sources :=
      [("a@1.0.0", ⟨"namespace a@1.0.0 enum E \x7b o x o y \x7d", "first"⟩), ("b", second)] }
  have hlast : (session {} mixedSubmissions).2 = s := by decide +kernel
  obtain ⟨answers, last, hsession, hconsistent, -, -, -, hagain⟩ :=
    session_consistent mixedSubmissions
  obtain rfl : s = last := by rw [← hlast, hsession]
  exact ⟨s, hlast, by decide, by decide, hconsistent, hagain "b" second (by decide)⟩

end RegistryStore

end Covenant

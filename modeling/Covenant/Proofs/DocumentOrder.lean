/-
Ordering documents by what they import. Documents are told by the name of their namespace,
whatever its version: an import leads to the first document of the name, and that one comes
before the document that imports it. If the documents lead to each other in a cycle this is
reported, and otherwise they all come in such an order (`orderDocuments_topological`).

The documents are ordered by keys that start with their positions. No two of these are the
same, whatever the documents are called (`SchemaDocument.key_inj`), so that what is said of
keys can be said of positions.

So an import that asks for a version is honoured where the first document of the name is of
that version, and cycles are genuine where this holds of all imports. Where archives hold
several versions of a namespace neither need be so: a document can come before the version
that it asks for (`orderDocuments_topological_versions`).
-/
import Covenant.Archive.Ordering
import Covenant.Proofs.GraphOrder
import Covenant.Proofs.Registered
import Mathlib.Data.List.Forall2

namespace Covenant

/-! ## What documents ask for -/

/-- The models that the documents are read as. -/
abbrev ReadAs (documents : List SchemaDocument) (models : List Model) : Prop :=
  List.Forall₂ (fun d m => Model.read d.text = .ok m) documents models

/-- The first document whose namespace has the name, in whatever version, stands at `j`. -/
structure FirstNamed (models : List Model) (name : String) (j : Nat) : Prop where
  named : ∃ m, models[j]? = some m ∧ m.id.name = name
  first : ∀ k < j, ∀ m, models[k]? = some m → m.id.name ≠ name

/-- The document at `i` imports a namespace whose name the document at `j` is the first to
have. -/
def Requires (models : List Model) (i j : Nat) : Prop :=
  i ≠ j ∧ ∃ m, models[i]? = some m ∧ ∃ imported ∈ m.imports,
    FirstNamed models imported.target.name j

/-- The document at `i` imports the namespace that the one at `j` declares: that very version if
it gives one, and any otherwise. -/
def ImportsFrom (models : List Model) (i j : Nat) : Prop :=
  i ≠ j ∧ ∃ m m', models[i]? = some m ∧ models[j]? = some m' ∧ ∃ imported ∈ m.imports,
    imported.target.name = m'.id.name ∧
      (imported.target.version?.isSome = true → imported.target = m'.id)

/-- The first document, other than the one at `i`, that declares this very namespace stands at
`j`. -/
structure FirstDeclaring (models : List Model) (i : Nat) (id : Namespace) (j : Nat) : Prop where
  other : j ≠ i
  declares : ∃ m, models[j]? = some m ∧ m.id = id
  first : ∀ k < j, k ≠ i → ∀ m, models[k]? = some m → m.id ≠ id

/-- An import of the document at `i` asks for a version, and the first document of that name, at
`j`, is of another one. -/
def Mistakes (models : List Model) (i j : Nat) : Prop :=
  ∃ m m', models[i]? = some m ∧ models[j]? = some m' ∧ ∃ imported ∈ m.imports,
    FirstNamed models imported.target.name j ∧ imported.target.version?.isSome = true ∧
      imported.target ≠ m'.id

/-- The positions lead to each other in a cycle: each to the next, and back to the first one at the
end. No position comes twice before that. -/
structure Circuit (leads : Nat → Nat → Prop) (positions : List Nat) : Prop where
  long : 2 ≤ positions.length
  closed : positions.head? = positions.getLast?
  distinct : positions.dropLast.Nodup
  requires : positions.IsChain leads

/-- The documents at the positions lead to each other in a cycle. -/
abbrev ImportCycle (models : List Model) (positions : List Nat) : Prop :=
  Circuit (Requires models) positions

/-- The documents at the positions given. -/
def atPositions (documents : List SchemaDocument) (positions : List Nat) : List SchemaDocument :=
  positions.filterMap (documents[·]?)

/-! ## Keys -/

/-- Documents at different positions have different keys, whatever they are called. -/
theorem SchemaDocument.key_inj {d d' : SchemaDocument} {i j : Nat} (h : d.key i = d'.key j) :
    i = j := by
  have hcolon (n : Nat) : ':' ∉ Nat.toDigits 10 n := fun hmem =>
    absurd (Nat.isDigit_of_mem_toDigits (by decide) (by decide) hmem) (by decide)
  have hkey (d : SchemaDocument) (n : Nat) :
      (d.key n).toList = Nat.toDigits 10 n ++ ':' :: d.name.toList := by
    change (n.repr ++ ":" ++ d.name).toList = _
    simp
  have hdigits := congrArg String.toList h
  rw [hkey, hkey] at hdigits
  have hdigits := (join_inj_left (hcolon i) (hcolon j) hdigits).1
  simpa using congrArg (Nat.ofDigitChars 10 · 0) hdigits

theorem getElem?_keyedDocuments (documents : List SchemaDocument) (i : Nat) :
    (keyedDocuments documents)[i]? = documents[i]?.map fun d => (d.key i, d) := by
  simp [keyedDocuments, Function.comp_def]

theorem length_keys_keyedDocuments (documents : List SchemaDocument) :
    (keyedDocuments documents).keys.length = documents.length := by
  simp [keyedDocuments, Dictionary.keys]

theorem nodup_keys_keyedDocuments (documents : List SchemaDocument) :
    (keyedDocuments documents).keys.Nodup := by
  rw [List.Nodup, List.pairwise_iff_getElem]
  intro i j hi hj hij hkeys
  simp only [keyedDocuments, Dictionary.keys, List.getElem_map, List.getElem_zipIdx] at hkeys
  have := SchemaDocument.key_inj hkeys
  omega

/-- What is found under keys stands at their positions. -/
theorem getAll_keyedDocuments (documents : List SchemaDocument) (keys : List String) :
    (keyedDocuments documents).getAll keys =
      atPositions documents (keys.map (keyedDocuments documents).keys.idxOf) := by
  rw [Dictionary.getAll, atPositions, List.filterMap_map]
  congr 1
  funext key
  simp [Dictionary.get?_eq_getElem?, getElem?_keyedDocuments, Function.comp_def]

/-! ## The graph of imports -/

theorem ReadAs.mapM_dependencies {documents : List SchemaDocument} {models : List Model}
    (h : ReadAs documents models) :
    documents.mapM (·.dependencies) = .ok (models.map Model.dependencies) := by
  induction h with
  | nil => rfl
  | @cons d m documents models hread _ ih =>
    have hfirst : d.dependencies = .ok m.dependencies := by
      simp [SchemaDocument.dependencies, hread, Model.dependencies]
    rw [List.mapM_cons, hfirst, ih]
    rfl

/-- All that documents lead to is among them. -/
theorem Requires.lt_length {models : List Model} {i j : Nat} (h : Requires models i j) :
    j < models.length := by
  obtain ⟨-, _, _, _, _, ⟨⟨_, hm, _⟩, _⟩⟩ := h
  exact (List.getElem?_eq_some_iff.mp hm).1

theorem Requires.source_lt_length {models : List Model} {i j : Nat} (h : Requires models i j) :
    i < models.length := by
  obtain ⟨-, _, hm, -⟩ := h
  exact (List.getElem?_eq_some_iff.mp hm).1

section

variable {keys : List String} {models : List Model}

theorem provider?_eq_some_iff (hlength : keys.length = models.length) {name key : String} :
    provider? (keys.zip (models.map Model.dependencies)) name = some key ↔
      ∃ j, keys[j]? = some key ∧ FirstNamed models name j := by
  unfold provider?
  simp only [Option.map_eq_some_iff, List.find?_eq_some_iff_getElem]
  constructor
  · rintro ⟨_, ⟨hname, j, hj, rfl, hfirst⟩, rfl⟩
    have hj : j < models.length := by
      simp only [List.length_zip, List.length_map, Nat.lt_min] at hj
      exact hj.2
    refine ⟨j, by simp, ⟨⟨models[j], List.getElem?_eq_getElem hj, ?_⟩, ?_⟩⟩
    · simpa [Model.dependencies] using hname
    · intro k hk m hm
      obtain ⟨hlt, rfl⟩ := List.getElem?_eq_some_iff.mp hm
      simpa [Model.dependencies] using hfirst k hk
  · rintro ⟨j, hkey, ⟨m, hm, hname⟩, hfirst⟩
    obtain ⟨hj, rfl⟩ := List.getElem?_eq_some_iff.mp hkey
    obtain ⟨hj', rfl⟩ := List.getElem?_eq_some_iff.mp hm
    refine ⟨_, ⟨?_, j, by simpa [hlength] using hj', rfl, fun k hk => ?_⟩, by simp⟩
    · simpa [Model.dependencies] using hname
    · simpa [Model.dependencies] using hfirst k hk _
        (List.getElem?_eq_getElem (Nat.lt_trans hk hj'))

theorem keys_importEntries (hlength : keys.length = models.length) :
    (importEntries (keys.zip (models.map Model.dependencies))).map Prod.fst = keys := by
  have hkeys (all : Dictionary Dependencies) :
      (importEntries all).map Prod.fst = all.map Prod.fst := by
    simp [importEntries, Function.comp_def]
  rw [hkeys, List.map_fst_zip (by simp [hlength])]

theorem nodes_importGraph (hdistinct : keys.Nodup) (hlength : keys.length = models.length) :
    (importGraph (keys.zip (models.map Model.dependencies))).nodes = keys := by
  have hentries : (importGraph (keys.zip (models.map Model.dependencies))).entries = _ :=
    Graph.ofEntries_entries ((keys_importEntries hlength).symm ▸ hdistinct)
  rw [Graph.nodes, hentries, keys_importEntries hlength]

theorem edge_importGraph_iff (hdistinct : keys.Nodup) (hlength : keys.length = models.length)
    {a b : String} :
    (importGraph (keys.zip (models.map Model.dependencies))).Edge a b ↔
      ∃ i j, keys[i]? = some a ∧ keys[j]? = some b ∧ Requires models i j := by
  refine (Graph.edge_ofEntries ((keys_importEntries hlength).symm ▸ hdistinct)).trans ?_
  constructor
  · rintro ⟨edges, hmem, hb⟩
    obtain ⟨⟨_, dependencies⟩, hat, he⟩ := List.mem_map.mp hmem
    cases he
    obtain ⟨hb, hne⟩ := List.mem_filter.mp hb
    obtain ⟨name, hname, hprovider⟩ := List.mem_filterMap.mp hb
    obtain ⟨j, hj, hfirst⟩ := (provider?_eq_some_iff hlength).mp hprovider
    obtain ⟨i, hi⟩ := List.mem_iff_getElem?.mp hat
    obtain ⟨ha, hm⟩ := List.getElem?_zip_eq_some.mp hi
    rw [List.getElem?_map] at hm
    obtain ⟨m, hm', rfl⟩ := Option.map_eq_some_iff.mp hm
    obtain ⟨imported, himported, rfl⟩ := List.mem_map.mp hname
    refine ⟨i, j, ha, hj, ?_, m, hm', imported, himported, hfirst⟩
    rintro rfl
    exact of_decide_eq_true hne (Option.some.inj (hj.symm.trans ha))
  · rintro ⟨i, j, ha, hb, hne, m, hm, imported, himported, hfirst⟩
    refine ⟨_, List.mem_map.mpr ⟨(a, m.dependencies), ?_, rfl⟩, List.mem_filter.mpr ⟨?_, ?_⟩⟩
    · refine List.mem_iff_getElem?.mpr ⟨i, List.getElem?_zip_eq_some.mpr ⟨ha, ?_⟩⟩
      simp [hm]
    · exact List.mem_filterMap.mpr ⟨imported.target.name, List.mem_map_of_mem himported,
        (provider?_eq_some_iff hlength).mpr ⟨j, hb, hfirst⟩⟩
    · refine decide_eq_true fun hab => hne ?_
      rw [hab] at hb
      exact (List.getElem?_inj (List.getElem?_eq_some_iff.mp ha).1 hdistinct).mp (ha.trans hb.symm)

theorem requires_of_edge (hdistinct : keys.Nodup) (hlength : keys.length = models.length)
    {a b : String} (h : (importGraph (keys.zip (models.map Model.dependencies))).Edge a b) :
    Requires models (keys.idxOf a) (keys.idxOf b) := by
  obtain ⟨i, j, ha, hb, hrequires⟩ := (edge_importGraph_iff hdistinct hlength).mp h
  obtain ⟨hi, rfl⟩ := List.getElem?_eq_some_iff.mp ha
  obtain ⟨hj, rfl⟩ := List.getElem?_eq_some_iff.mp hb
  rwa [hdistinct.idxOf_getElem, hdistinct.idxOf_getElem]

theorem cyclic_importGraph_iff (hdistinct : keys.Nodup) (hlength : keys.length = models.length) :
    (importGraph (keys.zip (models.map Model.dependencies))).Cyclic ↔
      ∃ i, Relation.TransGen (Requires models) i i := by
  constructor
  · rintro ⟨a, ha⟩
    exact ⟨keys.idxOf a, ha.lift keys.idxOf fun _ _ => requires_of_edge hdistinct hlength⟩
  · rintro ⟨i, hi⟩
    refine ⟨(keys[i]?).getD "", hi.lift (fun i => (keys[i]?).getD "") fun i j hrequires => ?_⟩
    have hi : i < keys.length := hlength ▸ hrequires.source_lt_length
    have hj : j < keys.length := hlength ▸ hrequires.lt_length
    exact (edge_importGraph_iff hdistinct hlength).mpr ⟨i, j, by simp [hi], by simp [hj], hrequires⟩

theorem importCycle_of_isCycle (hdistinct : keys.Nodup) (hlength : keys.length = models.length)
    {cycle : List String}
    (h : (importGraph (keys.zip (models.map Model.dependencies))).IsCycle cycle) :
    ImportCycle models (cycle.map keys.idxOf) where
  long := by simpa using h.long
  closed := by simp [h.closed]
  distinct := by
    rw [← List.map_dropLast]
    refine h.distinct.map_on fun a ha b _ hab => (List.idxOf_inj ?_).mp hab
    rw [← nodes_importGraph hdistinct hlength]
    exact h.mem_nodes ha
  requires :=
    List.isChain_map_of_isChain keys.idxOf (fun _ _ => requires_of_edge hdistinct hlength) h.edges

end

theorem Circuit.cyclic {leads : Nat → Nat → Prop} {positions : List Nat}
    (h : Circuit leads positions) : ∃ i, Relation.TransGen leads i i :=
  Graph.exists_transGen_of_closed h.long h.closed h.requires

/-! ## Orders -/

theorem map_idxOf_self {keys : List String} (h : keys.Nodup) :
    keys.map keys.idxOf = List.range keys.length := by
  refine List.ext_getElem (by simp) fun i hi _ => ?_
  simp [h.idxOf_getElem]

/-- A renaming that takes no other member to the same name keeps the place of a member. -/
theorem idxOf_map {keys : List String} {rename : String → Nat} {b : String}
    (h : ∀ a ∈ keys, rename a = rename b → a = b) :
    (keys.map rename).idxOf (rename b) = keys.idxOf b := by
  induction keys with
  | nil => rfl
  | cons a keys ih =>
    rw [List.forall_mem_cons] at h
    by_cases hab : a = b
    · simp [hab]
    · rw [List.map_cons, List.idxOf_cons_ne _ fun heq => hab (h.1 heq),
        List.idxOf_cons_ne _ hab, ih h.2]

/-- A key stands among keys where its position stands among their positions. -/
theorem idxOf_map_idxOf {keys order : List String} (h : keys.Nodup) {i : Nat}
    (hi : i < keys.length) : (order.map keys.idxOf).idxOf i = order.idxOf keys[i] := by
  have hinj (a : String) (_ : a ∈ order) (ha : keys.idxOf a = keys.idxOf keys[i]) : a = keys[i] :=
    ((List.idxOf_inj (List.getElem_mem hi)).mp ha.symm).symm
  rw [← idxOf_map hinj, h.idxOf_getElem]

/-- Documents come behind those they lead to, or lead to each other in a cycle, which is
reported. -/
theorem orderByImports_cases {documents : List SchemaDocument} {models : List Model}
    (h : ReadAs documents models) :
    (∃ cycle, ImportCycle models cycle ∧
        orderByImports documents =
          .error (.importCycle ((atPositions documents cycle).map (·.name)))) ∨
      ((¬ ∃ i, Relation.TransGen (Requires models) i i) ∧
        ∃ positions, orderByImports documents = .ok (atPositions documents positions) ∧
          positions.Perm (List.range documents.length) ∧
          ∀ i j, Requires models i j → positions.idxOf j < positions.idxOf i) := by
  have hdistinct := nodup_keys_keyedDocuments documents
  have hlength : (keyedDocuments documents).keys.length = models.length := by
    rw [length_keys_keyedDocuments, h.length_eq]
  unfold orderByImports
  simp only [h.mapM_dependencies, bind, Except.bind, getAll_keyedDocuments]
  generalize hkeys : (keyedDocuments documents).keys = keys at hdistinct hlength
  cases hcycle : (importGraph (keys.zip (models.map Model.dependencies))).cycle? with
  | some cycle =>
    exact .inl
      ⟨_, importCycle_of_isCycle hdistinct hlength (Graph.isCycle_of_cycle?_eq_some hcycle), rfl⟩
  | none =>
    have hacyclic := Graph.cycle?_eq_none_iff.mp hcycle
    refine .inr ⟨mt (cyclic_importGraph_iff hdistinct hlength).mpr hacyclic, ?_⟩
    obtain ⟨_, -, hcycle'⟩ | ⟨-, order, horder, hisOrder⟩ :=
      (importGraph (keys.zip (models.map Model.dependencies))).order_cases
    · exact absurd (Graph.cyclic_restrict_iff.mp hcycle'.cyclic) hacyclic
    · refine ⟨order.map keys.idxOf, by simp only [horder], ?_, fun i j hrequires => ?_⟩
      · rw [← length_keys_keyedDocuments, hkeys, ← map_idxOf_self hdistinct]
        exact (nodes_importGraph hdistinct hlength ▸ hisOrder.perm).map keys.idxOf
      · have hi : i < keys.length := hlength ▸ hrequires.source_lt_length
        have hj : j < keys.length := hlength ▸ hrequires.lt_length
        have hbehind := hisOrder.behind keys[i] keys[j]
          ((edge_importGraph_iff hdistinct hlength).mpr ⟨i, j, by simp, by simp, hrequires⟩)
          (by rw [nodes_importGraph hdistinct hlength]; exact List.getElem_mem hj)
        rwa [idxOf_map_idxOf hdistinct hi, idxOf_map_idxOf hdistinct hj]

/-! ## Versions -/

theorem exists_firstNamed {models : List Model} {j : Nat} {m : Model} (hm : models[j]? = some m) :
    ∃ k ≤ j, FirstNamed models m.id.name k := by
  induction j using Nat.strongRecOn generalizing m with
  | ind j ih =>
    by_cases hearlier : ∃ k < j, ∃ m', models[k]? = some m' ∧ m'.id.name = m.id.name
    · obtain ⟨k, hk, m', hm', hname⟩ := hearlier
      obtain ⟨k', hk', hfirst⟩ := ih k hk hm'
      exact ⟨k', Nat.le_trans hk' (Nat.le_of_lt hk), hname ▸ hfirst⟩
    · exact ⟨j, Nat.le_refl j, ⟨m, hm, rfl⟩,
        fun k hk m' hm' hname => hearlier ⟨k, hk, m', hm', hname⟩⟩

/-- What a document leads to is what it imports from, unless it mistakes the version. -/
theorem Requires.importsFrom_or_mistakes {models : List Model} {i j : Nat}
    (h : Requires models i j) : ImportsFrom models i j ∨ Mistakes models i j := by
  obtain ⟨hne, m, hm, imported, himported, hfirst⟩ := h
  obtain ⟨m', hm', hname⟩ := hfirst.named
  by_cases hversion : imported.target.version?.isSome = true → imported.target = m'.id
  · exact .inl ⟨hne, m, m', hm, hm', imported, himported, hname.symm, hversion⟩
  · rw [Classical.not_imp] at hversion
    exact .inr ⟨m, m', hm, hm', imported, himported, hfirst, hversion⟩

theorem isChain_or_exists_adjacent {leads genuine mistaken : Nat → Nat → Prop}
    {positions : List Nat} (h : positions.IsChain leads)
    (hleads : ∀ i j, leads i j → genuine i j ∨ mistaken i j) :
    positions.IsChain genuine ∨ ∃ i j, [i, j] <:+: positions ∧ mistaken i j := by
  induction positions with
  | nil => exact .inl .nil
  | cons i positions ih =>
    cases positions with
    | nil => exact .inl (.singleton i)
    | cons j positions =>
      obtain ⟨hfirst, hothers⟩ := List.isChain_cons_cons.mp h
      obtain hgenuine | ⟨k, l, hinfix, hmistaken⟩ := ih hothers
      · refine (hleads i j hfirst).imp (.cons_cons · hgenuine) fun hmistaken => ?_
        exact ⟨i, j, ⟨[], positions, rfl⟩, hmistaken⟩
      · exact .inr ⟨k, l, hinfix.trans (List.suffix_cons i _).isInfix, hmistaken⟩

/-- The documents of a cycle import from each other, unless one of them mistakes the next one for
the version that it asks for. -/
theorem Circuit.importsFrom_or_mistakes {models : List Model} {cycle : List Nat}
    (h : ImportCycle models cycle) :
    Circuit (ImportsFrom models) cycle ∨ ∃ i j, [i, j] <:+: cycle ∧ Mistakes models i j := by
  obtain ⟨hlong, hclosed, hdistinct, hrequires⟩ := h
  obtain hgenuine | hmistaken :=
    isChain_or_exists_adjacent hrequires fun _ _ => Requires.importsFrom_or_mistakes
  · exact .inl ⟨hlong, hclosed, hdistinct, hgenuine⟩
  · exact .inr hmistaken

/-- Documents come behind the first document of each name that they import, or lead to each other in
a cycle by name, which is the one reported. In the first case a document also comes behind the first
one that declares the very version it asks for, unless the name comes first from itself or from
another version. In the second case the documents of the cycle import from each other, unless one of
them mistakes the next one on it for another version. -/
theorem orderDocuments_topological {documents : List SchemaDocument} {models : List Model}
    (h : ReadAs documents models) :
    (∃ cycle, orderDocuments .topological documents =
          .error (.importCycle ((atPositions documents cycle).map (·.name))) ∧
        ImportCycle models cycle ∧
        (Circuit (ImportsFrom models) cycle ∨ ∃ i j, [i, j] <:+: cycle ∧ Mistakes models i j)) ∨
      ∃ positions, orderDocuments .topological documents = .ok (atPositions documents positions) ∧
        positions.Perm (List.range documents.length) ∧
        (∀ i j, Requires models i j → positions.idxOf j < positions.idxOf i) ∧
        ∀ i m j, models[i]? = some m → ∀ imported ∈ m.imports,
          imported.target.version?.isSome = true → FirstDeclaring models i imported.target j →
          positions.idxOf j < positions.idxOf i ∨
            ∃ k < j, FirstNamed models imported.target.name k ∧ (k = i ∨ Mistakes models i k) := by
  obtain ⟨cycle, hcycle, herror⟩ | ⟨-, positions, hok, hperm, hfollows⟩ := orderByImports_cases h
  · exact .inl ⟨cycle, herror, hcycle, hcycle.importsFrom_or_mistakes⟩
  · refine .inr ⟨positions, hok, hperm, hfollows, ?_⟩
    intro i m j hm imported himported hversion hdeclaring
    obtain ⟨m', hm', hid⟩ := hdeclaring.declares
    obtain ⟨k, hk, hfirst⟩ := exists_firstNamed hm'
    rw [hid] at hfirst
    rcases Nat.lt_or_eq_of_le hk with hlt | rfl
    · refine .inr ⟨k, hlt, hfirst, Decidable.or_iff_not_imp_left.mpr fun hki => ?_⟩
      obtain ⟨m'', hm'', -⟩ := hfirst.named
      exact ⟨m, m'', hm, hm'', imported, himported, hfirst, hversion,
        (hdeclaring.first k hlt hki m'' hm'').symm⟩
    · exact .inl (hfollows i k ⟨hdeclaring.other.symm, m, hm, imported, himported, hfirst⟩)

/-- A document that asks for the second version of `a`, and two versions of `a`. -/
def versionedDocuments : List SchemaDocument :=
  [{ archive := "x", filename := "d.cto", text := "namespace d import a@2.0.0.T" },
   { archive := "x", filename := "a1.cto", text := "namespace a@1.0.0 concept T \x7b\x7d" },
   { archive := "x", filename := "a2.cto", text := "namespace a@2.0.0 concept T \x7b\x7d" }]

def versionedModels : List Model :=
  [{ id := ⟨"d", none⟩, imports := [⟨⟨"a", some "2.0.0"⟩, .types ["T"], none⟩] },
   { id := ⟨"a", some "1.0.0"⟩, declarations := [⟨"T", .classBody { kind := .concept }, []⟩] },
   { id := ⟨"a", some "2.0.0"⟩, declarations := [⟨"T", .classBody { kind := .concept }, []⟩] }]

theorem readAs_versionedModels : ReadAs versionedDocuments versionedModels := by
  refine .cons ?_ (.cons ?_ (.cons ?_ .nil)) <;> decide +kernel

/-- The document comes behind the first version and before the second, which it asks for. -/
theorem orderDocuments_topological_versions :
    orderDocuments .topological versionedDocuments =
        .ok (atPositions versionedDocuments [1, 0, 2]) ∧
      FirstDeclaring versionedModels 0 ⟨"a", some "2.0.0"⟩ 2 ∧
      ∃ positions, orderDocuments .topological versionedDocuments =
          .ok (atPositions versionedDocuments positions) ∧
        positions.Perm [0, 1, 2] ∧ positions.idxOf 1 < positions.idxOf 0 ∧
        (positions.idxOf 2 < positions.idxOf 0 ∨
          ∃ k < 2, FirstNamed versionedModels "a" k ∧ (k = 0 ∨ Mistakes versionedModels 0 k)) := by
  have hentries : (importGraph ((keyedDocuments versionedDocuments).keys.zip
      (versionedModels.map Model.dependencies))).entries =
      [("0:x/model/d.cto", ["1:x/model/a1.cto"]), ("1:x/model/a1.cto", []),
        ("2:x/model/a2.cto", [])] := by decide +kernel
  have horder : orderDocuments .topological versionedDocuments =
      .ok (atPositions versionedDocuments [1, 0, 2]) := by
    simp only [orderDocuments, orderByImports, readAs_versionedModels.mapM_dependencies, bind,
      Except.bind]
    have hfound : (keyedDocuments versionedDocuments).getAll
        ["1:x/model/a1.cto", "0:x/model/d.cto", "2:x/model/a2.cto"] =
          atPositions versionedDocuments [1, 0, 2] := by decide +kernel
    simp [Graph.cycle?, Graph.nodes, Graph.neighbours, List.lookup_cons, hentries, Graph.explore,
      Graph.order, Graph.restrict, Graph.place, Graph.pick, Graph.ready, hfound]
  have hdeclaring : FirstDeclaring versionedModels 0 ⟨"a", some "2.0.0"⟩ 2 := by
    refine ⟨by decide, ⟨_, rfl, rfl⟩, fun k hk hne m hm => ?_⟩
    obtain rfl : k = 1 := by omega
    cases hm
    decide
  have hfirst : FirstNamed versionedModels "a" 1 := by
    refine ⟨⟨_, rfl, rfl⟩, fun k hk m hm => ?_⟩
    obtain rfl : k = 0 := by omega
    cases hm
    decide
  obtain ⟨_, herror, -⟩ | ⟨positions, hok, hperm, hfollows, hversions⟩ :=
    orderDocuments_topological readAs_versionedModels
  · rw [horder] at herror
    cases herror
  · exact ⟨horder, hdeclaring, positions, hok, hperm,
      hfollows 0 1 ⟨by decide, _, rfl, _, List.mem_singleton_self _, hfirst⟩,
      hversions 0 _ 2 rfl _ (List.mem_singleton_self _) rfl hdeclaring⟩

end Covenant

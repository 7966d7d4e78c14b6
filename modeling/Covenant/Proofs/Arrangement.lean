/-
Ordering keeps every document. Whichever order is asked for, the result holds the documents
at positions that run through all of them, each once (`Arranges`), so that documents of the
same archive and file name stay apart. The documents without imports come first, each group
as it was given; or every document comes behind the first one of each name that it imports,
unless documents lead to each other in a cycle, which is then reported by the names of the
documents on it (`orderDocuments_arranges`).

The cycle is looked for twice, before the order is made and while it is made. The second
search never finds one: what it goes through is a part of what the first one has cleared.
-/
import Covenant.Build.Fault
import Covenant.Proofs.DocumentOrder

namespace Covenant

/-- The documents at the positions, one by one. -/
abbrev StandAt (documents : List SchemaDocument) (positions : List Nat)
    (result : List SchemaDocument) : Prop :=
  List.Forall₂ (fun i d => documents[i]? = some d) positions result

/-- The result holds the documents at the positions, and these are all positions, each once. -/
structure Arranges (documents : List SchemaDocument) (positions : List Nat)
    (result : List SchemaDocument) : Prop where
  all : positions.Perm (List.range documents.length)
  standAt : StandAt documents positions result

theorem standAt_atPositions {documents : List SchemaDocument} {positions : List Nat}
    (h : ∀ i ∈ positions, i < documents.length) :
    StandAt documents positions (atPositions documents positions) := by
  induction positions with
  | nil => exact .nil
  | cons i positions ih =>
    rw [List.forall_mem_cons] at h
    have hi : documents[i]? = some documents[i] := List.getElem?_eq_getElem h.1
    rw [atPositions, List.filterMap_cons_some hi]
    exact .cons hi (ih h.2)

theorem arranges_atPositions {documents : List SchemaDocument} {positions : List Nat}
    (h : positions.Perm (List.range documents.length)) :
    Arranges documents positions (atPositions documents positions) :=
  ⟨h, standAt_atPositions fun _ hi => List.mem_range.mp (h.mem_iff.mp hi)⟩

/-! ## Documents without imports first -/

/-- The positions of the documents that pass a test, in order. -/
def positionsWhere (test : SchemaDocument → Bool) (documents : List SchemaDocument) : List Nat :=
  (documents.zipIdx.filter fun entry => test entry.1).map Prod.snd

section

variable {test : SchemaDocument → Bool} {documents : List SchemaDocument}

theorem mem_positionsWhere_iff {i : Nat} :
    i ∈ positionsWhere test documents ↔ ∃ d, documents[i]? = some d ∧ test d = true := by
  simp [positionsWhere, List.mem_zipIdx_iff_getElem?]

theorem standAt_positionsWhere :
    StandAt documents (positionsWhere test documents) (documents.filter test) := by
  have hfilter : documents.filter test =
      (documents.zipIdx.filter fun entry => test entry.1).map Prod.fst := by
    conv_lhs => rw [← List.zipIdx_map_fst 0 documents, List.filter_map]
    rfl
  rw [hfilter, positionsWhere, StandAt, List.forall₂_map_left_iff, List.forall₂_map_right_iff,
    List.forall₂_same]
  intro entry hentry
  exact List.mem_zipIdx_iff_getElem?.mp (List.mem_of_mem_filter hentry)

theorem positionsWhere_sublist :
    (positionsWhere test documents).Sublist (List.range documents.length) := by
  have hsublist :=
    (List.filter_sublist (l := documents.zipIdx) (p := fun entry => test entry.1)).map Prod.snd
  rwa [List.zipIdx_map_snd, ← List.range_eq_range'] at hsublist

theorem pairwise_positionsWhere : (positionsWhere test documents).Pairwise (· < ·) :=
  List.Pairwise.sublist positionsWhere_sublist List.pairwise_lt_range

theorem positionsWhere_perm :
    (positionsWhere test documents ++ positionsWhere (fun d => !test d) documents).Perm
      (List.range documents.length) := by
  have hperm := (List.filter_append_perm (fun entry => test entry.1) documents.zipIdx).map Prod.snd
  rwa [List.map_append, List.zipIdx_map_snd, ← List.range_eq_range'] at hperm

end

/-- What is sorted by whether it has imports is what has none, and then what has some. -/
theorem eq_filter_append_filter {documents : List SchemaDocument}
    (h : documents.Pairwise fun d d' => d.hasImports ≤ d'.hasImports) :
    documents = documents.filter (!·.hasImports) ++ documents.filter (·.hasImports) := by
  induction documents with
  | nil => rfl
  | cons d documents ih =>
    obtain ⟨hd, hothers⟩ := List.pairwise_cons.mp h
    cases himports : d.hasImports with
    | false => simpa [himports] using ih hothers
    | true =>
      have hall : ∀ d' ∈ documents, d'.hasImports = true := fun d' hd' => hd d' hd' himports
      have hnone : documents.filter (!·.hasImports) = [] := by simpa using hall
      simpa [himports, hnone] using (List.filter_eq_self.mpr hall).symm

section

variable (d d' d'' : SchemaDocument)

theorem hasImports_trans (h : decide (d.hasImports ≤ d'.hasImports) = true)
    (h' : decide (d'.hasImports ≤ d''.hasImports) = true) :
    decide (d.hasImports ≤ d''.hasImports) = true :=
  decide_eq_true (Bool.le_trans (of_decide_eq_true h) (of_decide_eq_true h'))

theorem hasImports_total :
    (decide (d.hasImports ≤ d'.hasImports) || decide (d'.hasImports ≤ d.hasImports)) = true := by
  simpa using Bool.le_total d.hasImports d'.hasImports

end

/-- Sorting keeps the order of documents that it does not tell apart. -/
theorem filter_orderByImportLines {test : SchemaDocument → Bool} {documents : List SchemaDocument}
    (h : ∀ d d', test d → test d' → d.hasImports ≤ d'.hasImports) :
    (orderByImportLines documents).filter test = documents.filter test := by
  have hkept : (documents.filter test).Pairwise fun d d' =>
      decide (d.hasImports ≤ d'.hasImports) = true := by
    refine List.pairwise_of_forall_mem_list fun d hd d' hd' => decide_eq_true ?_
    exact h d d' (List.mem_filter.mp hd).2 (List.mem_filter.mp hd').2
  have hsublist := (List.sublist_mergeSort hasImports_trans hasImports_total hkept
    List.filter_sublist).filter test
  rw [List.filter_filter] at hsublist
  simp only [Bool.and_self] at hsublist
  exact (hsublist.eq_of_length ((List.mergeSort_perm _ _).filter test).length_eq.symm).symm

/-- Sorting is stable: the documents without imports come first, each group as it was given. -/
theorem orderByImportLines_eq (documents : List SchemaDocument) :
    orderByImportLines documents =
      documents.filter (!·.hasImports) ++ documents.filter (·.hasImports) := by
  have hsorted : (orderByImportLines documents).Pairwise fun d d' => d.hasImports ≤ d'.hasImports :=
    (List.pairwise_mergeSort hasImports_trans hasImports_total documents).imp of_decide_eq_true
  rw [eq_filter_append_filter hsorted, filter_orderByImportLines, filter_orderByImportLines]
  · exact fun _ _ _ hd' _ => hd'
  · intro d d' hd _ himports
    simp [himports] at hd

theorem arranges_orderByImportLines (documents : List SchemaDocument) :
    Arranges documents (positionsWhere (!·.hasImports) documents ++
      positionsWhere (·.hasImports) documents) (orderByImportLines documents) := by
  have hperm := @positionsWhere_perm (fun d => !d.hasImports) documents
  simp only [Bool.not_not] at hperm
  rw [orderByImportLines_eq]
  exact ⟨hperm, List.rel_append standAt_positionsWhere standAt_positionsWhere⟩

/-! ## Documents behind what they import -/

theorem SchemaDocument.read_of_dependencies {d : SchemaDocument} {dependencies : Dependencies}
    (h : d.dependencies = .ok dependencies) : ∃ m, Model.read d.text = .ok m := by
  unfold SchemaDocument.dependencies at h
  split at h
  · rename_i m hread
    exact ⟨m, hread⟩
  all_goals cases h

theorem SchemaDocument.dependencies_ne_unordered (d : SchemaDocument) (cycle : List String) :
    d.dependencies ≠ .error (.unordered cycle) := by
  unfold SchemaDocument.dependencies
  split <;> simp

/-- Documents are read one after the other, up to the first that cannot be read. -/
theorem readAs_cases (documents : List SchemaDocument) :
    (∃ models, ReadAs documents models) ∨
      ∃ before d after models error, documents = before ++ d :: after ∧ ReadAs before models ∧
        d.dependencies = .error error := by
  induction documents with
  | nil => exact .inl ⟨[], .nil⟩
  | cons d documents ih =>
    cases hd : d.dependencies with
    | error e => exact .inr ⟨[], d, documents, [], e, rfl, .nil, hd⟩
    | ok dependencies =>
      obtain ⟨m, hm⟩ := d.read_of_dependencies hd
      obtain ⟨models, hmodels⟩ | ⟨before, other, after, models, e, rfl, hbefore, he⟩ := ih
      · exact .inl ⟨m :: models, .cons hm hmodels⟩
      · exact .inr ⟨d :: before, other, after, m :: models, e, rfl, .cons hm hbefore, he⟩

theorem orderByImports_of_error {before after : List SchemaDocument} {models : List Model}
    {d : SchemaDocument} {error : OrderingError} (hbefore : ReadAs before models)
    (hd : d.dependencies = .error error) :
    orderByImports (before ++ d :: after) = .error error := by
  rw [orderByImports, List.mapM_append, hbefore.mapM_dependencies, List.mapM_cons, hd]
  rfl

theorem lt_length_of_isChain {models : List Model} {i j : Nat} {rest : List Nat}
    (h : (i :: j :: rest).IsChain (Requires models)) : ∀ k ∈ i :: j :: rest, k < models.length := by
  induction rest generalizing i j with
  | nil =>
    have hrequires := (List.isChain_cons_cons.mp h).1
    simpa using ⟨hrequires.source_lt_length, hrequires.lt_length⟩
  | cons k rest ih =>
    obtain ⟨hrequires, hrest⟩ := List.isChain_cons_cons.mp h
    exact List.forall_mem_cons.mpr ⟨hrequires.source_lt_length, ih hrest⟩

theorem Circuit.lt_length {models : List Model} {cycle : List Nat}
    (h : ImportCycle models cycle) : ∀ k ∈ cycle, k < models.length := by
  obtain ⟨hlong, -, -, hrequires⟩ := h
  rcases cycle with - | ⟨i, - | ⟨j, rest⟩⟩
  · simp at hlong
  · simp at hlong
  · exact lt_length_of_isChain hrequires

/-- The search that belongs to the order of the graph never finds a cycle. -/
theorem orderDocuments_ne_unordered (ordering : DocumentOrder) (documents : List SchemaDocument)
    (cycle : List String) : orderDocuments ordering documents ≠ .error (.unordered cycle) := by
  cases ordering with
  | heuristic => nofun
  | topological =>
    simp only [orderDocuments]
    obtain ⟨models, hmodels⟩ | ⟨_, d, _, _, error, rfl, hbefore, hd⟩ := readAs_cases documents
    · obtain ⟨_, -, hcycle⟩ | ⟨-, _, hok, -⟩ := orderByImports_cases hmodels
      · simp [hcycle]
      · simp [hok]
    · rw [orderByImports_of_error hbefore hd]
      intro he
      obtain rfl := Except.error.inj he
      exact d.dependencies_ne_unordered cycle hd

/-- Whatever is returned holds all documents, each once. -/
theorem exists_arranges {ordering : DocumentOrder} {documents result : List SchemaDocument}
    (h : orderDocuments ordering documents = .ok result) :
    ∃ positions, Arranges documents positions result := by
  cases ordering with
  | heuristic =>
    obtain rfl := Except.ok.inj h
    exact ⟨_, arranges_orderByImportLines documents⟩
  | topological =>
    simp only [orderDocuments] at h
    obtain ⟨models, hmodels⟩ | ⟨_, d, _, _, error, rfl, hbefore, hd⟩ := readAs_cases documents
    · obtain ⟨_, -, hcycle⟩ | ⟨-, positions, hok, hperm, -⟩ := orderByImports_cases hmodels
      · simp [hcycle] at h
      · obtain rfl := Except.ok.inj (hok.symm.trans h)
        exact ⟨positions, arranges_atPositions hperm⟩
    · simp [orderByImports_of_error hbefore hd] at h

theorem BuildFault.message_importCycle (names : List String) :
    (importCycle names).message = "[load] import cycle: " ++ " -> ".intercalate names := by
  have hopening : "[" ++ "load" ++ "] " ++ "" ++ "import cycle: " = "[load] import cycle: " := by
    decide
  rw [← hopening, message, String.append_assoc]
  rfl

/-- No document is lost and none comes twice. The documents without imports come first, each group
as it was given. Ordered by what they import, documents come behind the first one of each name that
they import; they are refused if and only if they lead to each other in a cycle, and the report
names the documents of such a cycle. The order of the graph itself never fails. -/
theorem orderDocuments_arranges (documents : List SchemaDocument) :
    (∀ ordering result, orderDocuments ordering documents = .ok result →
      ∃ positions, Arranges documents positions result) ∧
    (∃ free others result, orderDocuments .heuristic documents = .ok result ∧
      Arranges documents (free ++ others) result ∧
      free.Pairwise (· < ·) ∧ others.Pairwise (· < ·) ∧
      ∀ i d, documents[i]? = some d →
        (i ∈ free ↔ d.hasImports = false) ∧ (i ∈ others ↔ d.hasImports = true)) ∧
    (∀ models, ReadAs documents models →
      ((∃ result, orderDocuments .topological documents = .ok result) ↔
        ¬ ∃ i, Relation.TransGen (Requires models) i i) ∧
      (∀ result, orderDocuments .topological documents = .ok result →
        ∃ positions, Arranges documents positions result ∧
          ∀ i j, Requires models i j → positions.idxOf j < positions.idxOf i) ∧
      ((∃ error fault, orderDocuments .topological documents = .error error ∧
          error.toBuildError = .fault fault ∧ fault.stage = .load) ↔
        ∃ i, Relation.TransGen (Requires models) i i) ∧
      ∀ error, orderDocuments .topological documents = .error error →
        ∃ cycle named fault, ImportCycle models cycle ∧ StandAt documents cycle named ∧
          error.toBuildError = .fault fault ∧
          fault.message = "[load] import cycle: " ++ " -> ".intercalate (named.map (·.name))) ∧
    ∀ ordering cycle, orderDocuments ordering documents ≠ .error (.unordered cycle) := by
  refine ⟨fun ordering result => exists_arranges, ?_, fun models h => ?_,
    fun ordering => orderDocuments_ne_unordered ordering documents⟩
  · refine ⟨positionsWhere (!·.hasImports) documents, positionsWhere (·.hasImports) documents,
      orderByImportLines documents, rfl, arranges_orderByImportLines documents,
      pairwise_positionsWhere, pairwise_positionsWhere, fun i d hd => ?_⟩
    simp [mem_positionsWhere_iff, hd]
  · simp only [orderDocuments]
    obtain ⟨cycle, hcycle, herror⟩ | ⟨hacyclic, positions, hok, hperm, hbehind⟩ :=
      orderByImports_cases h
    · rw [herror]
      have hstand : StandAt documents cycle (atPositions documents cycle) :=
        standAt_atPositions fun i hi => h.length_eq ▸ hcycle.lt_length i hi
      generalize atPositions documents cycle = named at hstand
      refine ⟨⟨?_, fun hacyclic => absurd hcycle.cyclic hacyclic⟩, ?_,
        ⟨fun _ => hcycle.cyclic, fun _ => ⟨_, .importCycle _, rfl, rfl, rfl⟩⟩, ?_⟩
      · rintro ⟨_, hresult⟩
        cases hresult
      · intro _ hresult
        cases hresult
      · intro error he
        obtain rfl := Except.error.inj he
        exact ⟨cycle, named, .importCycle _, hcycle, hstand, rfl, BuildFault.message_importCycle _⟩
    · rw [hok]
      refine ⟨⟨fun _ => hacyclic, fun _ => ⟨_, rfl⟩⟩, ?_,
        ⟨?_, fun hcyclic => absurd hcyclic hacyclic⟩, ?_⟩
      · intro result hresult
        obtain rfl := Except.ok.inj hresult
        exact ⟨positions, arranges_atPositions hperm, hbehind⟩
      · rintro ⟨_, _, he, -⟩
        cases he
      · intro _ he
        cases he

/-- A document of a file that all documents here are of. -/
def sameFile (text : String) : SchemaDocument where
  archive := "x"
  filename := "d.cto"
  text
  hasImports := true

/-- A namespace without declarations that imports from the namespaces given. -/
def importing (name : String) (imported : List String) : Model where
  id := ⟨name, none⟩
  imports := imported.map fun other => ⟨⟨other, none⟩, .types ["T"], none⟩

/-- Documents of one name. The first comes behind the second, although it imports itself as well;
and if the second imports the first, they are refused. -/
theorem orderDocuments_arranges_names :
    let a := sameFile "namespace a import b.T import a.T"
    let b := sameFile "namespace b"
    let b' := sameFile "namespace b import a.T"
    (orderDocuments .topological [a, b] = .ok [b, a] ∧
      ∃ positions, Arranges [a, b] positions [b, a] ∧ positions.idxOf 1 < positions.idxOf 0) ∧
    ∃ error cycle named fault, orderDocuments .topological [a, b'] = .error error ∧
      ImportCycle [importing "a" ["b", "a"], importing "b" ["a"]] cycle ∧
      StandAt [a, b'] cycle named ∧ error.toBuildError = .fault fault ∧
      fault.message = "[load] import cycle: " ++ " -> ".intercalate (named.map (·.name)) := by
  intro a b b'
  have ha : Model.read a.text = .ok (importing "a" ["b", "a"]) := by decide +kernel
  have hb : Model.read b.text = .ok (importing "b" []) := by decide +kernel
  have hb' : Model.read b'.text = .ok (importing "b" ["a"]) := by decide +kernel
  have hrequires (imported : List String) :
      Requires [importing "a" ["b", "a"], importing "b" imported] 0 1 := by
    refine ⟨by decide, _, rfl, _, List.mem_cons_self, ⟨_, rfl, rfl⟩, fun k hk m hm => ?_⟩
    obtain rfl : k = 0 := by omega
    cases hm
    decide
  have hback : Requires [importing "a" ["b", "a"], importing "b" ["a"]] 1 0 :=
    ⟨by decide, _, rfl, _, List.mem_cons_self, ⟨_, rfl, rfl⟩, fun k hk => by omega⟩
  constructor
  · have hread : ReadAs [a, b] [importing "a" ["b", "a"], importing "b" []] :=
      .cons ha (.cons hb .nil)
    have hkeyed : keyedDocuments [a, b] = [("0:x/model/d.cto", a), ("1:x/model/d.cto", b)] := by
      decide +kernel
    have hentries : (importGraph ((keyedDocuments [a, b]).keys.zip
        ([importing "a" ["b", "a"], importing "b" []].map Model.dependencies))).entries =
          [("0:x/model/d.cto", ["1:x/model/d.cto"]), ("1:x/model/d.cto", [])] := by
      rw [hkeyed]
      decide +kernel
    have horder : orderDocuments .topological [a, b] = .ok [b, a] := by
      simp only [orderDocuments, orderByImports, hread.mapM_dependencies, bind, Except.bind]
      generalize importGraph _ = g at hentries
      simp [Graph.cycle?, Graph.nodes, Graph.neighbours, List.lookup_cons, hentries, Graph.explore,
        Graph.order, Graph.restrict, Graph.place, Graph.pick, Graph.ready, hkeyed,
          Dictionary.getAll,
        Dictionary.get?]
    obtain ⟨-, hordered, -⟩ := (orderDocuments_arranges [a, b]).2.2.1 _ hread
    obtain ⟨positions, harranges, hbehind⟩ := hordered _ horder
    exact ⟨horder, positions, harranges, hbehind 0 1 (hrequires [])⟩
  · obtain ⟨-, -, hstops, hreport⟩ := (orderDocuments_arranges [a, b']).2.2.1 _
      (.cons ha (.cons hb' .nil))
    obtain ⟨error, -, herror, -⟩ := hstops.mpr ⟨0, .tail (.single (hrequires ["a"])) hback⟩
    obtain ⟨cycle, named, fault, hcycle⟩ := hreport error herror
    exact ⟨error, cycle, named, fault, herror, hcycle⟩

end Covenant

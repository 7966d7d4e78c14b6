/-
What reading the archives depends on. Names come from a directory in the order in which
its entries were made, and are sorted. In a tree as a file system has it every name comes
once, so the sorted names of a directory follow from what stands at the places in it
(`FileTree.named_congr`). What is found below a directory is then a function of these
places (`discover_reads`), and the documents depend on the files alone: directories that
hold no documents do not matter (`FileTree.flatMap_documents_congr`).
-/
import Covenant.Proofs.Kept

namespace Covenant

/-! ## Sorted names -/

namespace Discovery

theorem perm_sorted (names : List String) : (sorted names).Perm names :=
  List.mergeSort_perm names _

theorem pairwise_sorted (names : List String) : (sorted names).Pairwise (· ≤ ·) := by
  have h : (sorted names).Pairwise fun a b => decide (a ≤ b) = true :=
    List.pairwise_mergeSort
      (fun a b c hab hbc => by
        simpa using String.le_trans (by simpa using hab) (by simpa using hbc))
      (fun a b => by simpa using String.le_total a b) names
  exact h.imp (by simp)

end Discovery

/-- Sorted lists of distinct names are equal if they have the same names. -/
theorem eq_of_sorted_of_mem_iff {names others : List String} (hnames : names.Pairwise (· ≤ ·))
    (hothers : others.Pairwise (· ≤ ·)) (hdistinct : names.Nodup) (hdistinct' : others.Nodup)
    (h : ∀ name, name ∈ names ↔ name ∈ others) : names = others := by
  have hperm : names.Perm others := (List.perm_ext_iff_of_nodup hdistinct hdistinct').mpr h
  exact hperm.eq_of_pairwise (fun a b _ _ hab hba => String.le_antisymm hab hba) hnames hothers

def FileNode.isDirectory : FileNode → Bool
  | directory => true
  | file _ => false

def FileNode.content? : FileNode → Option ByteArray
  | directory => none
  | file content => some content

namespace FileTree

variable {t u : FileTree} {place : Place} {path : Path} {name : String}

theorem child_eq_some_iff {q : Place} :
    (if q.dropLast = place then q.getLast? else none) = some name ↔ q = place ++ [name] := by
  rcases List.eq_nil_or_concat q with rfl | ⟨parent, last, rfl⟩
  · simp
  · by_cases hparent : parent = place <;> simp [hparent]

theorem mem_children : name ∈ t.children place ↔ t.node? (place ++ [name]) ≠ none := by
  simp only [children, List.mem_filterMap, child_eq_some_iff]
  rw [node?, if_neg (by simp), ne_eq, List.lookup_eq_none_iff]
  grind

theorem Proper.nodup_children (h : t.Proper) (place : Place) : (t.children place).Nodup := by
  have hchildren : t.children place = (t.nodes.map (·.1)).filterMap
      fun q => if q.dropLast = place then q.getLast? else none := by
    rw [List.filterMap_map]
    rfl
  rw [hchildren]
  refine h.distinct.filterMap fun q q' name hq hq' => ?_
  exact (child_eq_some_iff.mp hq).trans (child_eq_some_iff.mp hq').symm

/-- The names in a directory that pass a test of name and node, sorted. -/
def named (t : FileTree) (place : Place) (test : String → FileNode → Bool) : List String :=
  Discovery.sorted
    ((t.children place).filter fun name => (t.node? (place ++ [name])).any (test name))

variable {test : String → FileNode → Bool}

theorem mem_named : name ∈ t.named place test ↔
    (t.node? (place ++ [name])).any (test name) = true := by
  rw [named, (Discovery.perm_sorted _).mem_iff, List.mem_filter, mem_children]
  cases t.node? (place ++ [name]) <;> simp

theorem pairwise_named : (t.named place test).Pairwise (· ≤ ·) :=
  Discovery.pairwise_sorted _

theorem Proper.nodup_named (h : t.Proper) : (t.named place test).Nodup :=
  (Discovery.perm_sorted _).nodup_iff.mpr ((h.nodup_children place).filter _)

theorem named_congr (ht : t.Proper) (hu : u.Proper)
    (h : ∀ name, (t.node? (place ++ [name])).any (test name) =
      (u.node? (place ++ [name])).any (test name)) :
    t.named place test = u.named place test :=
  eq_of_sorted_of_mem_iff pairwise_named pairwise_named ht.nodup_named hu.nodup_named
    fun name => by rw [mem_named, mem_named, h]

/-! ## Documents in a tree -/

/-- The content of the file at a place. -/
def content? (t : FileTree) (place : Place) : Option ByteArray :=
  (t.node? place).bind (·.content?)

theorem content?_eq_some_iff {content : ByteArray} :
    t.content? place = some content ↔ t.node? place = some (.file content) := by
  unfold content?
  rcases t.node? place with - | ⟨- | other⟩ <;> simp [FileNode.content?]

/-- A file that is read as a document. -/
def document? (t : FileTree) (place : Place) (archive filename : String) : Option SchemaDocument :=
  ((t.content? (place ++ [filename])).bind decodeText?).map fun text =>
    { archive, filename, text, hasImports := hasImportLine true text.toList }

/-- The documents of an archive. -/
def documents (t : FileTree) (place : Place) (extension archive : String) : List SchemaDocument :=
  (t.named (place ++ [archive, modelDirectory])
    fun name node => node.content?.isSome && suffixOf name = extension).filterMap
      (t.document? (place ++ [archive, modelDirectory]) archive)

/-- The documents of an archive depend on its files. -/
theorem documents_congr (ht : t.Proper) (hu : u.Proper) {extension archive : String}
    (h : ∀ name, t.content? (place ++ [archive, modelDirectory, name]) =
      u.content? (place ++ [archive, modelDirectory, name])) :
    t.documents place extension archive = u.documents place extension archive := by
  have hbelow (name : String) : t.content? (place ++ [archive, modelDirectory] ++ [name]) =
      u.content? (place ++ [archive, modelDirectory] ++ [name]) := by
    simpa using h name
  have htest (t : FileTree) (name : String) :
      (t.node? (place ++ [archive, modelDirectory] ++ [name])).any
        (fun node => node.content?.isSome && suffixOf name = extension) =
      ((t.content? (place ++ [archive, modelDirectory] ++ [name])).isSome &&
        suffixOf name = extension) := by
    unfold content?
    cases t.node? (place ++ [archive, modelDirectory] ++ [name]) <;> rfl
  unfold documents
  rw [named_congr ht hu fun name => by rw [htest, htest, hbelow]]
  refine List.filterMap_congr fun name _ => ?_
  rw [document?, document?, hbelow]

/-- A directory as an archive, or the finding that it is none. -/
def archive (t : FileTree) (place : Place) (extension name : String) : Archive ⊕ Diagnostic :=
  if (t.node? (place ++ [name, modelDirectory])).any (·.isDirectory) then
    .inl ⟨name, t.documents place extension name⟩
  else .inr ⟨.load, name, s!"no '{modelDirectory}' directory; archive skipped"⟩

/-- What is found below a directory. -/
def discovery (t : FileTree) (root : Path) (extension : String) : Discovery :=
  .ofOutcomes root
    ((t.named root.place fun _ node => node.isDirectory).map (t.archive root.place extension))

/-- What is found depends on the places below the directory. -/
theorem discovery_congr (ht : t.Proper) (hu : u.Proper) {root : Path}
    (h : ∀ names ≠ [], t.node? (root.place ++ names) = u.node? (root.place ++ names))
    (extension : String) : t.discovery root extension = u.discovery root extension := by
  have hdocuments (archive : String) :
      t.documents root.place extension archive = u.documents root.place extension archive :=
    documents_congr ht hu fun name => by rw [content?, content?, h _ (by simp)]
  have harchive (name : String) : t.archive root.place extension name =
      u.archive root.place extension name := by
    rw [archive, archive, h [name, modelDirectory] (by simp), hdocuments]
  rw [discovery, discovery, named_congr ht hu fun name => by rw [h [name] (by simp)]]
  exact congrArg _ (List.map_congr_left fun name _ => harchive name)

/-- A document lies in the directory for documents of an archive. -/
theorem Rooted.of_mem_documents (ht : t.Rooted) {extension archive : String}
    {document : SchemaDocument} (h : document ∈ t.documents place extension archive) :
    t.node? (place ++ [archive, modelDirectory]) = some .directory := by
  obtain ⟨name, hname, -⟩ := List.mem_filterMap.mp h
  refine ht _ name fun hnone => ?_
  rw [mem_named, hnone] at hname
  cases hname

/-- The documents of all archives, in order. -/
theorem Rooted.flatMap_documents (ht : t.Rooted) (root : Path) (extension : String) :
    (t.discovery root extension).archives.flatMap (·.documents) =
      (t.named root.place fun _ node => node.isDirectory).flatMap
        (t.documents root.place extension) := by
  simp only [discovery, Discovery.ofOutcomes]
  induction t.named root.place fun _ node => node.isDirectory with
  | nil => rfl
  | cons name names ih =>
    rw [List.map_cons, List.flatMap_cons, ← ih, archive]
    split
    · simp
    · -- without a directory for documents there is none
      rename_i hmodel
      have hnone : t.documents root.place extension name = [] := by
        refine List.eq_nil_iff_forall_not_mem.mpr fun document hdocument => hmodel ?_
        rw [ht.of_mem_documents hdocument]
        rfl
      rw [hnone, List.filterMap_cons_none rfl, List.nil_append]

/-- Only the items that contribute matter. -/
theorem flatMap_filter_isEmpty {α β : Type} (f : α → List β) (items : List α) :
    (items.filter fun item => !(f item).isEmpty).flatMap f = items.flatMap f := by
  induction items with
  | nil => rfl
  | cons item items ih =>
    rw [List.filter_cons, List.flatMap_cons, ← ih]
    cases hitem : f item with
    | nil => rfl
    | cons first rest => simp [hitem]

/-- The documents of all archives depend on the files below the directory. -/
theorem flatMap_documents_congr (ht : t.Proper) (hu : u.Proper) {root : Path}
    (h : ∀ names, t.content? (root.place ++ names) = u.content? (root.place ++ names))
    (extension : String) :
    (t.discovery root extension).archives.flatMap (·.documents) =
      (u.discovery root extension).archives.flatMap (·.documents) := by
  have hdocuments (archive : String) :
      t.documents root.place extension archive = u.documents root.place extension archive :=
    documents_congr ht hu fun name => h _
  -- the archives need not be the same, but those with documents are
  have hmem {t : FileTree} (ht : t.Proper) (name : String) :
      name ∈ (t.named root.place fun _ node => node.isDirectory).filter
        (fun name => !(t.documents root.place extension name).isEmpty) ↔
      t.documents root.place extension name ≠ [] := by
    rw [List.mem_filter, mem_named]
    simp only [Bool.not_eq_true', List.isEmpty_eq_false_iff, and_iff_right_iff_imp]
    intro hname
    obtain ⟨document, hdocument⟩ := List.exists_mem_of_ne_nil _ hname
    have hmodel := ht.rooted.of_mem_documents hdocument
    have harchive : t.node? (root.place ++ [name]) = some .directory :=
      ht.rooted _ modelDirectory (by simp [hmodel])
    rw [harchive]
    rfl
  have hnames := eq_of_sorted_of_mem_iff (pairwise_named.filter _) (pairwise_named.filter _)
    (ht.nodup_named.filter _) (hu.nodup_named.filter _) fun name => by
      rw [hmem ht, hmem hu, hdocuments]
  rw [ht.rooted.flatMap_documents, hu.rooted.flatMap_documents, ← flatMap_filter_isEmpty,
    ← flatMap_filter_isEmpty (u.documents _ _), hnames]
  exact List.flatMap_congr fun name _ => hdocuments name

/-! ## Entries of a directory -/

theorem lookup_child (hpath : t.isDirectory path = true) (hname : Fits [name]) :
    t.lookup (path.child name) = match t.node? (path.place ++ [name]) with
      | some node => .ok (path.place ++ [name], node)
      | none => .error .noEntry := by
  obtain ⟨hlocated, hnode⟩ := isDirectory_iff.mp hpath
  obtain ⟨hstep, hsize⟩ := hname name (List.mem_singleton_self name)
  have hlocated : t.follow [] path.parts = .ok path.place := hlocated
  have hchild : t.locate (path.child name) = .ok (path.place ++ [name]) := by
    rw [locate, Path.child, follow_append, hlocated, Except.bind,
      follow_cons_of_fits hstep hsize hnode]
    rfl
  unfold lookup
  rw [hchild]
  rfl

theorem list_eq_ok {names : List String} :
    t.list path = .ok (place, names) ↔
      t.isDirectory path = true ∧ place = path.place ∧ names = t.children path.place := by
  rw [isDirectory_iff, ← lookup_eq_ok]
  unfold list
  constructor
  · intro h
    split at h
    · rename_i target hlookup
      obtain rfl := eq_place_of_locate (lookup_eq_ok.mp hlookup).1
      cases h
      exact ⟨hlookup, rfl, rfl⟩
    · cases h
    · cases h
  · rintro ⟨hlookup, rfl, rfl⟩
    rw [hlookup]

theorem isDirectory_child (hpath : t.isDirectory path = true) (hname : Fits [name]) :
    t.isDirectory (path.child name) = (t.node? (path.place ++ [name])).any (·.isDirectory) := by
  unfold isDirectory
  rw [lookup_child hpath hname]
  rcases t.node? (path.place ++ [name]) with - | ⟨- | content⟩ <;> rfl

theorem isDocument_eq (hpath : t.isDirectory path = true) (hname : Fits [name])
    (extension : String) :
    Discovery.isDocument path extension t name = (t.node? (path.place ++ [name])).any
      fun node => node.content?.isSome && suffixOf name = extension := by
  unfold Discovery.isDocument
  rw [lookup_child hpath hname]
  rcases t.node? (path.place ++ [name]) with - | ⟨- | content⟩ <;> simp [FileNode.content?]

theorem readText_child {text : String} (hpath : t.isDirectory path = true) (hname : Fits [name])
    (h : t.readText (path.child name) = .ok text) :
    (t.content? (path.place ++ [name])).bind decodeText? = some text := by
  unfold readText read at h
  rw [lookup_child hpath hname] at h
  unfold content?
  rcases hnode : t.node? (path.place ++ [name]) with - | ⟨- | content⟩ <;> simp only [hnode] at h
  · cases h
  · cases h
  · split at h
    · rename_i hdecoded
      cases h
      exact hdecoded
    · cases h

theorem Proper.fits_of_mem_children (h : t.Proper) (hname : name ∈ t.children place) :
    Fits [name] := by
  have hfits := h.fits _ (mem_children.mp hname)
  exact fun other hother => hfits other (List.mem_append_right place hother)

/-- The names that pass a test, if the test is about what stands at their places. -/
theorem sorted_filter_eq_named (ht : t.Proper) {holds : String → Bool}
    (h : ∀ name, Fits [name] → holds name = (t.node? (place ++ [name])).any (test name)) :
    Discovery.sorted ((t.children place).filter holds) = t.named place test := by
  rw [named, List.filter_congr fun name hname => h name (ht.fits_of_mem_children hname)]

end FileTree

/-! ## Reading the archives -/

namespace Discovery

variable {root directory : Path} {extension : String} {s s' : Session}

theorem entriesOf_yields {test : FileTree → String → Bool} {names : List String} :
    (entriesOf directory test).Yields s names s' ↔
      s.tree.isDirectory directory = true ∧
        names = sorted ((s.tree.children directory.place).filter (test s.tree)) ∧ s' = s := by
  unfold entriesOf
  simp only [Job.yields_bind, Job.yields_tree, Job.yields_ofExcept, Job.yields_pure]
  constructor
  · rintro ⟨_, _, ⟨rfl, rfl⟩, _, _, ⟨hlist, rfl⟩, rfl, rfl⟩
    obtain ⟨hdirectory, -, hchildren⟩ := FileTree.list_eq_ok.mp hlist
    exact ⟨hdirectory, by rw [hchildren], rfl⟩
  · rintro ⟨hdirectory, rfl, rfl⟩
    exact ⟨_, _, ⟨rfl, rfl⟩, (directory.place, _), _,
      ⟨FileTree.list_eq_ok.mpr ⟨hdirectory, rfl, rfl⟩, rfl⟩, rfl, rfl⟩

/-- Steps taken for each item that answer what a function says and leave the tree. -/
theorem yields_mapM {α β : Type} {step : α → Job β} {items : List α} {answers : List β}
    {f : α → Option β} {t : FileTree}
      (hstep : ∀ item ∈ items, ∀ s answer s', s.tree = t → (step item).Yields s answer s' →
      f item = some answer ∧ s'.tree = t)
    (hs : s.tree = t) (h : (items.mapM step).Yields s answers s') :
    answers = items.filterMap f ∧ s'.tree = t := by
  induction items generalizing s answers with
  | nil =>
    obtain ⟨rfl, rfl⟩ := Job.yields_pure.mp h
    exact ⟨rfl, hs⟩
  | cons item items ih =>
    rw [List.forall_mem_cons] at hstep
    obtain ⟨answer, u, others, hanswer, hrest, rfl⟩ := Job.yields_mapM_cons.mp h
    obtain ⟨hf, hu⟩ := hstep.1 s answer u hs hanswer
    obtain ⟨rfl, hs'⟩ := ih hstep.2 hu hrest
    exact ⟨by rw [List.filterMap_cons_some hf], hs'⟩

theorem readDocument_reads {archive filename : String} {document : SchemaDocument}
    (hdirectory : s.tree.isDirectory directory = true) (hname : FileTree.Fits [filename])
    (h : (readDocument archive directory filename).Yields s document s') :
    s.tree.document? directory.place archive filename = some document ∧ s'.tree = s.tree := by
  unfold readDocument at h
  simp only [Job.yields_bind, Job.yields_tree] at h
  obtain ⟨_, _, ⟨rfl, rfl⟩, h⟩ := h
  split at h
  · rename_i text htext
    obtain ⟨rfl, rfl⟩ := Job.yields_pure.mp h
    rw [FileTree.document?, FileTree.readText_child hdirectory hname htext]
    exact ⟨rfl, rfl⟩
  · exact absurd h Job.yields_throw
  · exact absurd h Job.yields_throw

theorem readArchive_reads {name : String} {outcome : Archive ⊕ Diagnostic} (hs : s.tree.Proper)
    (hname : FileTree.Fits [name]) (hroot : s.tree.isDirectory (root.child name) = true)
    (h : (readArchive root extension name).Yields s outcome s') :
    outcome = s.tree.archive root.place extension name ∧ s'.tree = s.tree := by
  have hmodel : FileTree.Fits [modelDirectory] := by
    unfold FileTree.Fits
    decide
  have hplace : (root.child name).place = root.place ++ [name] := root.place_child hname
  have hdirectory : ((root.child name).child modelDirectory).place =
      root.place ++ [name, modelDirectory] := by
    rw [Path.place_child _ hmodel, hplace, List.append_assoc]
    rfl
  have hmodels : s.tree.isDirectory ((root.child name).child modelDirectory) =
      (s.tree.node? (root.place ++ [name, modelDirectory])).any (·.isDirectory) := by
    rw [FileTree.isDirectory_child hroot hmodel, hplace, List.append_assoc]
    rfl
  unfold readArchive Job.debug at h
  simp only [Job.yields_bind, Job.yields_tree] at h
  obtain ⟨_, _, ⟨rfl, rfl⟩, h⟩ := h
  split at h
  · rename_i hisDirectory
    simp only [Job.yields_bind, entriesOf_yields, Job.yields_note, Job.yields_pure] at h
    obtain ⟨filenames, s, ⟨-, rfl, rfl⟩, documents, u, hdocuments, _, _, rfl, rfl, rfl⟩ := h
    obtain ⟨rfl, hu⟩ := yields_mapM
      (fun filename hfilename v document v' hv hread => by
        have hfits : FileTree.Fits [filename] :=
          hs.fits_of_mem_children (List.mem_filter.mp ((perm_sorted _).mem_iff.mp hfilename)).1
        rw [← hv] at hisDirectory
        have hreads := readDocument_reads hisDirectory hfits hread
        rwa [hv] at hreads)
      rfl hdocuments
    have hnames := FileTree.sorted_filter_eq_named hs fun filename hfits =>
      FileTree.isDocument_eq hisDirectory hfits extension
    refine ⟨?_, hu⟩
    rw [hmodels] at hisDirectory
    rw [FileTree.archive, if_pos hisDirectory, hnames, hdirectory]
    rfl
  · rename_i hnot
    obtain ⟨rfl, rfl⟩ := Job.yields_pure.mp h
    rw [hmodels] at hnot
    exact ⟨(if_neg hnot).symm, rfl⟩

/-- The directory has been made if nothing was there. -/
theorem ensureRoot_nodes {u : Unit} (h : (ensureRoot root).Yields s u s')
    (hdirectory : s'.tree.isDirectory root = true) (q : Place) :
    s'.tree.node? q = if q ∈ root.visits then some .directory else s.tree.node? q := by
  unfold ensureRoot Job.info at h
  simp only [Job.yields_bind, Job.yields_tree] at h
  obtain ⟨_, _, ⟨rfl, rfl⟩, h⟩ := h
  split at h
  · obtain ⟨-, rfl⟩ := Job.yields_pure.mp h
    exact (FileTree.isDirectory_nodes hdirectory).2 q
  · simp only [Job.yields_bind, Job.yields_note, Job.yields_settle] at h
    obtain ⟨_, _, rfl, hmade, rfl⟩ := h
    exact (FileTree.makeDirectories_nodes (Prod.ext rfl hmade)).2 q

end Discovery

/-- What is found is what the tree holds below the directory, which has been made if it was
missing. -/
theorem discover_reads {root : Path} {extension : String} {s s' : Session} {found : Discovery}
    (hs : s.tree.Proper) (h : (discover root extension).Yields s found s') :
    s'.tree.Proper ∧ found = s'.tree.discovery root extension ∧
      ∀ q, s'.tree.node? q = if q ∈ root.visits then some .directory else s.tree.node? q := by
  unfold discover at h
  simp only [Job.yields_bind, Discovery.entriesOf_yields, Job.yields_pure] at h
  obtain ⟨_, _, hmade, _, made, ⟨hdirectory, rfl, rfl⟩, outcomes, _, houtcomes, rfl, rfl⟩ := h
  have hkeeps : (Discovery.ensureRoot root).Keeps FileTree.Proper :=
    Discovery.ensureRoot_keeps fun _ path ht => ht.makeDirectories true path
  have hproper := hkeeps.of_yields hs hmade
  have hnames := FileTree.sorted_filter_eq_named hproper fun name hfits =>
    FileTree.isDirectory_child hdirectory hfits
  obtain ⟨rfl, htree⟩ := Discovery.yields_mapM (f := some ∘ made.tree.archive root.place extension)
    (fun name hname v outcome v' hv hread => by
      obtain ⟨hchild, hisDirectory⟩ :=
        List.mem_filter.mp ((Discovery.perm_sorted _).mem_iff.mp hname)
      rw [← hv] at hproper hisDirectory hchild ⊢
      obtain ⟨rfl, hv'⟩ := Discovery.readArchive_reads hproper (hproper.fits_of_mem_children hchild)
        hisDirectory hread
      exact ⟨rfl, hv'⟩)
    rfl houtcomes
  rw [htree, hnames, List.filterMap_eq_map]
  exact ⟨hproper, rfl, Discovery.ensureRoot_nodes hmade hdirectory⟩

end Covenant

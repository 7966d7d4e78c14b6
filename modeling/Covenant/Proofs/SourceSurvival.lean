/-
What becomes of the sources when a workspace is built. A directory that holds the archives
is not replaced, but one that lies inside them is. So a file of the archives is kept,
whatever the outcome of the build, unless it lies in a directory that is rebuilt inside the
archives. In such a directory nothing is kept: after a build the files there are those that
it wrote (`Settings.build_sources`).
-/
import Covenant.Proofs.Replacement
import Covenant.Proofs.Validation

namespace Covenant

namespace Settings

variable {settings : Settings} {root : Path} {target : BuildTarget} {q : Place}

/-- The place lies in a directory that is inside the archives and is rebuilt. -/
def Exposes (settings : Settings) (root : Path) (target : BuildTarget) (q : Place) : Prop :=
  ∃ d ∈ settings.rebuilt root target,
    FileTree.isWithin (settings.archivesRoot root).place d.place = true ∧
      d.place ≠ (settings.archivesRoot root).place ∧ FileTree.isWithin d.place q = true

/-- A directory that is not refused holds no other places of the archives. -/
theorem isWithin_of_not_exposes (hq : FileTree.isWithin (settings.archivesRoot root).place q = true)
    (hexposes : ¬ settings.Exposes root target q) {d : Path} (hd : d ∈ settings.rebuilt root target)
    (hspared : Emission.deletes d (settings.archivesRoot root) = false) :
    FileTree.isWithin d.place q = false := by
  have houtside : FileTree.isWithin d.place (settings.archivesRoot root).place = false := hspared
  cases hwithin : FileTree.isWithin d.place q with
  | false => rfl
  | true =>
    rcases FileTree.isWithin_or_isWithin hwithin hq with habove | hinside
    · rw [houtside] at habove
      cases habove
    · refine absurd ⟨d, hd, hinside, fun hsame => ?_, hwithin⟩ hexposes
      rw [hsame] at houtside hinside
      rw [houtside] at hinside
      cases hinside

/-- A file of the archives that is not exposed outlasts every step of a build. -/
theorem build_keeps_source {content : ByteArray}
    (hq : FileTree.isWithin (settings.archivesRoot root).place q = true)
    (hexposes : ¬ settings.Exposes root target q) :
    (settings.build root target).Keeps fun t => t.node? q = some (.file content) := by
  refine build_keeps (fun t orKeep path ht => ?_) (fun d hd hspared t ht => ?_)
    (fun d hd hspared names other t t' hnames ht hwrite => ?_)
  · exact t.makeDirectories_grows orKeep path q _ ht
  · rwa [FileTree.removeDirectory_frame (isWithin_of_not_exposes hq hexposes hd hspared)]
  · rwa [FileTree.node?_write_below hnames (isWithin_of_not_exposes hq hexposes hd hspared) hwrite]

/-- A file of the archives is kept whatever becomes of the build, if no rebuilt directory inside the
archives holds it. If one does and the build succeeds, it is gone unless the build wrote it. -/
theorem build_sources (settings : Settings) (root : Path) (target : BuildTarget) {t : FileTree}
    {content : ByteArray} (hq : FileTree.isWithin (settings.archivesRoot root).place q = true)
    (hfile : t.node? q = some (.file content)) :
    (¬ settings.Exposes root target q →
      ((settings.build root target).start t).2.tree.node? q = some (.file content)) ∧
    ∀ built, t.Rooted → settings.Exposes root target q →
      ((settings.build root target).start t).1 = .ok built → q ∉ built.written.map Path.place →
        ∀ left, ((settings.build root target).start t).2.tree.node? q ≠ some (.file left) := by
  unfold Job.start
  constructor
  · intro hexposes
    exact build_keeps_source hq hexposes { tree := t } hfile
  · rintro built ht ⟨d, hd, -, -, hwithin⟩ hbuilt hwritten left hleft
    exact hwritten (build_written ht (Job.yields_of_run hbuilt) hd hwithin hleft)

/-- An archive with a document that holds no more than its namespace, and other entries. -/
def bareArchive (others : List (Place × FileNode)) : FileTree :=
  ⟨[(["archives"], .directory), (["archives", "a"], .directory),
    (["archives", "a", "model"], .directory),
    (["archives", "a", "model", "a.cto"], .file "namespace a".toUTF8)] ++ others⟩

/-- What is found there. -/
def bareDiscovery : Discovery :=
  ⟨[⟨"a", [⟨"a", "a.cto", "namespace a", false⟩]⟩], []⟩

/-- What is kept of it. -/
def bareStore : RegistryStore where
  files := [("a", { id := ⟨"a", none⟩ })]
  sources := [("a", ⟨"namespace a", "a/model/a.cto"⟩)]

def bareRegistry : Registry :=
  ⟨[⟨{ id := ⟨"a", none⟩ }, "a/model/a.cto", "namespace a"⟩]⟩

/-- The check of this archive passes. -/
theorem check_bareArchive {settings : Settings} {s s' : Session}
    (hordering : settings.ordering = .heuristic)
    (hfound : (discover (settings.archivesRoot root) settings.modelExtension).Yields s
      bareDiscovery s') :
    ∃ documents t, (settings.check root).Yields s
      (settings.checkedFrom bareDiscovery documents bareRegistry) t ∧ t.tree = s'.tree := by
  have hordered : orderDocuments settings.ordering (bareDiscovery.archives.flatMap (·.documents)) =
      .ok [⟨"a", "a.cto", "namespace a", false⟩] := by
    rw [hordering]
    decide +kernel
  have hstore : ([⟨"a", "a.cto", "namespace a", false⟩].foldlM registerDocument {}).Yields
      ⟨.empty, []⟩ bareStore _ := Job.yields_of_run (by decide +kernel)
  have hregistry : bareStore.registry = bareRegistry := by decide
  have hvalidate : bareStore.registry.validate = [] := by
    rw [hregistry]
    exact Registry.validate_eq_nil_of_flat (by decide +kernel) (by decide +kernel)
  obtain ⟨_, hregistered⟩ := registerDocuments_succeeds hordered hstore hvalidate
  rw [hregistry] at hregistered
  obtain ⟨u, hregistered, -⟩ := (registerDocuments_blind _ _).yields hregistered s'
  exact ⟨_, check_yields.mpr ⟨bareDiscovery, s', _, bareRegistry, u, hfound, rfl, hregistered, rfl⟩⟩

/-- The contract crate of this archive can be built if its directory can be replaced. -/
theorem build_bareArchive {settings : Settings} {s s' : Session} (hs : s.tree.Rooted)
    (hordering : settings.ordering = .heuristic)
    (hfound : (discover (settings.archivesRoot root) settings.modelExtension).Yields s
      bareDiscovery s')
    (hreplaceable : Emission.Replaceable (workspaceDirectory root settings.contractDirectory)
      (some (settings.archivesRoot root)) s'.tree) :
    ∃ built after, (settings.build root .contract).Yields s built after := by
  obtain ⟨_, t, hcheck, htree⟩ := check_bareArchive hordering hfound
  rw [← htree] at hreplaceable
  exact build_contract_succeeds (check_rooted.of_yields hs hcheck) hcheck hreplaceable

/-- The contract crate is built in the directory of an archive: the document of the archive is lost,
and a file beside the archive is kept. -/
theorem build_sources_nested :
    let settings : Settings := { contractDirectory := "archives/a" }
    let tree := bareArchive [(["archives", "notes"], .file "kept".toUTF8)]
    let run := (settings.build (.ofText "/") .contract).start tree
    tree.node? ["archives", "a", "model", "a.cto"] = some (.file "namespace a".toUTF8) ∧
    (∃ built, run.1 = .ok built) ∧
    (∀ left, run.2.tree.node? ["archives", "a", "model", "a.cto"] ≠ some (.file left)) ∧
    run.2.tree.node? ["archives", "notes"] = some (.file "kept".toUTF8) := by
  intro settings tree run
  have hproper : tree.Proper :=
    .of_entries (by simp [tree, bareArchive, FileTree.node?, List.lookup_cons]) (by decide)
      (by unfold FileTree.Fits; decide)
  have hfound : (discover (settings.archivesRoot (.ofText "/")) settings.modelExtension).Yields
      { tree } bareDiscovery _ := Job.yields_of_run (by decide +kernel)
  obtain ⟨built, after, hbuilt⟩ := build_bareArchive hproper.rooted rfl hfound
    ⟨by decide +kernel, by decide +kernel, by decide +kernel⟩
  -- from here on the run stands for itself and is not unfolded
  have hrun : run = (settings.build (.ofText "/") .contract).start tree := rfl
  clear_value run
  have hok : ((settings.build (.ofText "/") .contract).start tree).1 = .ok built :=
    congrArg Prod.fst hbuilt
  have hdirectory : workspaceDirectory (.ofText "/") settings.contractDirectory =
      ⟨.root, ["archives", "a"]⟩ := by decide +kernel
  have harchives : (settings.archivesRoot (.ofText "/")).place = ["archives"] := by decide +kernel
  have hrebuilt : settings.rebuilt (.ofText "/") .contract = [⟨.root, ["archives", "a"]⟩] := by
    rw [← hdirectory]
    rfl
  have hlost : FileTree.isWithin (settings.archivesRoot (.ofText "/")).place
      ["archives", "a", "model", "a.cto"] = true := by
    rw [harchives]
    rfl
  have hkept : FileTree.isWithin (settings.archivesRoot (.ofText "/")).place
      ["archives", "notes"] = true := by
    rw [harchives]
    rfl
  have hdocument : tree.node? ["archives", "a", "model", "a.cto"] =
      some (.file "namespace a".toUTF8) := rfl
  have hnotes : tree.node? ["archives", "notes"] = some (.file "kept".toUTF8) := rfl
  rw [hrun]
  refine ⟨hdocument, ⟨built, hok⟩, ?_, ?_⟩
  · have hexposes :
      settings.Exposes (.ofText "/") .contract ["archives", "a", "model", "a.cto"] := by
      rw [Exposes, harchives, hrebuilt]
      exact ⟨_, List.mem_singleton_self _, by decide +kernel⟩
    have hwritten : ["archives", "a", "model", "a.cto"] ∉ built.written.map Path.place := by
      rw [build_contract_written hproper.rooted hbuilt, hdirectory]
      decide +kernel
    exact (build_sources settings (.ofText "/") .contract hlost hdocument).2 built
      hproper.rooted hexposes hok hwritten
  · have hexposes : ¬ settings.Exposes (.ofText "/") .contract ["archives", "notes"] := by
      rw [Exposes, harchives, hrebuilt]
      rintro ⟨d, hd, -, -, hwithin⟩
      obtain rfl := List.mem_singleton.mp hd
      exact absurd hwithin (by decide +kernel)
    exact (build_sources settings (.ofText "/") .contract hkept hnotes).1 hexposes

end Settings

end Covenant

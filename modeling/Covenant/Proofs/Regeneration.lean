/-
Building a workspace depends on its models alone. Two builds that find the same below the
directory of the archives report the same and leave the same in the directories that they
rebuild, whatever these held before; every file there was written by the build. A second
build that succeeds leaves the same again, if nothing among the archives is rebuilt
(`Settings.build_regenerates`).

The second build may find more directories among the archives than the first, since a path
such as `archives/x/../../out` makes those on its way. It finds the same files, and the
documents depend on nothing else (`FileTree.flatMap_documents_congr`).
-/
import Covenant.Proofs.ArchiveReading
import Covenant.Proofs.SourceSurvival

namespace Covenant.Settings

variable {settings : Settings} {root : Path} {target : BuildTarget} {checked checked' : Checked}
  {s s' u u' : Session}

/-! ## What a check depends on -/

/-- A check is about what the tree holds below the directory of the archives, which has been made if
it was missing. -/
theorem check_reads (hs : s.tree.Proper) (h : (settings.check root).Yields s checked s') :
    s'.tree.Proper ∧
    (∀ q, s'.tree.node? q =
      if q ∈ (settings.archivesRoot root).visits then some .directory else s.tree.node? q) ∧
    ∃ t documents registry t',
      (registerDocuments settings.ordering ((s'.tree.discovery (settings.archivesRoot root)
        settings.modelExtension).archives.flatMap (·.documents))).Yields t
          (documents, registry) t' ∧
      checked = settings.checkedFrom
        (s'.tree.discovery (settings.archivesRoot root) settings.modelExtension)
          documents registry := by
  obtain ⟨found, t, documents, registry, t', hfound, htree, hregistered, hchecked⟩ :=
    check_yields.mp ⟨s', h, rfl⟩
  obtain ⟨hproper, rfl, hnodes⟩ := discover_reads hs hfound
  rw [htree] at hproper hnodes hregistered hchecked
  exact ⟨hproper, hnodes, t, documents, registry, t', hregistered, hchecked⟩

/-- Checks that find the same places below the directory of the archives report the same. -/
theorem check_unique (hs : s.tree.Proper) (hu : u.tree.Proper)
    (hsame : ∀ names ≠ [], s.tree.node? ((settings.archivesRoot root).place ++ names) =
      u.tree.node? ((settings.archivesRoot root).place ++ names))
    (h : (settings.check root).Yields s checked s')
    (h' : (settings.check root).Yields u checked' u') :
    checked = checked' := by
  obtain ⟨hproper, hnodes, _, documents, registry, _, hregistered, rfl⟩ := check_reads hs h
  obtain ⟨hproper', hnodes', _, documents', registry', _, hregistered', rfl⟩ := check_reads hu h'
  have hfound := FileTree.discovery_congr hproper hproper'
    (fun names hnames => by rw [hnodes, hnodes', hsame names hnames]) settings.modelExtension
  rw [← hfound] at hregistered' ⊢
  obtain ⟨rfl, rfl⟩ := Prod.mk.inj ((registerDocuments_blind _ _).unique hregistered hregistered')
  rfl

/-- Checks that find the same files below the directory of the archives register the same. -/
theorem check_registers (hs : s.tree.Proper) (hu : u.tree.Proper)
    (hsame : ∀ q, FileTree.isWithin (settings.archivesRoot root).place q = true →
      s.tree.content? q = u.tree.content? q)
    (h : (settings.check root).Yields s checked s')
    (h' : (settings.check root).Yields u checked' u') :
    checked.loaded.registry = checked'.loaded.registry ∧
      checked.classification = checked'.classification := by
  obtain ⟨hproper, hnodes, _, documents, registry, _, hregistered, rfl⟩ := check_reads hs h
  obtain ⟨hproper', hnodes', _, documents', registry', _, hregistered', rfl⟩ := check_reads hu h'
  have hcontent (names : List String) :
      s'.tree.content? ((settings.archivesRoot root).place ++ names) =
        u'.tree.content? ((settings.archivesRoot root).place ++ names) := by
    have hcontent := hsame _ (FileTree.isWithin_below (settings.archivesRoot root).place names)
    unfold FileTree.content? at hcontent ⊢
    rw [hnodes, hnodes']
    split
    · rfl
    · exact hcontent
  have hdocuments :=
    FileTree.flatMap_documents_congr hproper hproper' hcontent settings.modelExtension
  rw [← hdocuments] at hregistered'
  obtain ⟨rfl, rfl⟩ := Prod.mk.inj ((registerDocuments_blind _ _).unique hregistered hregistered')
  simp only [checkedFrom, checkedOf, and_self]

/-! ## What the crates depend on -/

theorem modelsPart_congr (hregistry : checked.loaded.registry = checked'.loaded.registry)
    (hclassification : checked.classification = checked'.classification) :
    settings.modelsPart root target checked = settings.modelsPart root target checked' := by
  simp only [modelsPart, buildModels, planScaffold, hregistry, hclassification]

theorem contractPart_congr (hclassification : checked.classification = checked'.classification) :
    settings.contractPart root target checked = settings.contractPart root target checked' := by
  simp only [contractPart, buildContract, hclassification]

theorem modelsPart_unique {models models' : Built}
    (h : (settings.modelsPart root target checked).Yields s models s')
    (h' : (settings.modelsPart root target checked).Yields u models' u') : models = models' := by
  unfold modelsPart at h h'
  split at h
  · rw [if_pos ‹_›] at h'
    unfold buildModels at h h'
    simp only [Job.yields_bind, Job.yields_pure] at h h'
    obtain ⟨planned, _, hplanned, written, _, hemitted, rfl, -⟩ := h
    obtain ⟨planned', _, hplanned', written', _, hemitted', rfl, -⟩ := h'
    obtain rfl := (planScaffold_blind settings checked).unique hplanned hplanned'
    rw [(emit_wrote hemitted Crate.parentStep_not_mem_dataFiles).paths,
      (emit_wrote hemitted' Crate.parentStep_not_mem_dataFiles).paths]
  · rw [if_neg ‹_›] at h'
    rw [(Job.yields_pure.mp h).1, (Job.yields_pure.mp h').1]

theorem contractPart_unique {contract contract' : Built}
    (h : (settings.contractPart root target checked).Yields s contract s')
    (h' : (settings.contractPart root target checked).Yields u contract' u') :
    contract = contract' := by
  unfold contractPart at h h'
  split at h
  · rw [if_pos ‹_›] at h'
    unfold buildContract at h h'
    simp only [Job.yields_bind, Job.yields_pure] at h h'
    obtain ⟨_, _, -, written, _, hemitted, rfl, -⟩ := h
    obtain ⟨_, _, -, written', _, hemitted', rfl, -⟩ := h'
    rw [(emit_wrote hemitted Crate.parentStep_not_mem_contractFiles).paths,
      (emit_wrote hemitted' Crate.parentStep_not_mem_contractFiles).paths]
  · rw [if_neg ‹_›] at h'
    rw [(Job.yields_pure.mp h).1, (Job.yields_pure.mp h').1]

/-- Crates of the same models are the same, and so is what they leave in their directories. -/
theorem parts_alike {models models' contract contract' : Built} {t t' : Session}
    (hs : s.tree.Rooted)
    (hu : u.tree.Rooted) (hregistry : checked.loaded.registry = checked'.loaded.registry)
    (hclassification : checked.classification = checked'.classification)
    (hmodels : (settings.modelsPart root target checked).Yields s models t)
    (hcontract : (settings.contractPart root target checked).Yields t contract s')
    (hmodels' : (settings.modelsPart root target checked').Yields u models' t')
    (hcontract' : (settings.contractPart root target checked').Yields t' contract' u') :
    models = models' ∧ contract = contract' ∧
      ∀ d ∈ settings.rebuilt root target, ∀ q, FileTree.isWithin d.place q = true →
        s'.tree.node? q = u'.tree.node? q := by
  rw [← modelsPart_congr hregistry hclassification] at hmodels'
  rw [← contractPart_congr hclassification] at hcontract'
  obtain rfl := modelsPart_unique hmodels hmodels'
  obtain rfl := contractPart_unique hcontract hcontract'
  refine ⟨rfl, rfl, fun d hd q hq => ?_⟩
  rw [← map_crates settings root target checked models.scaffold?] at hd
  obtain ⟨crate, hcrate, rfl⟩ := List.mem_map.mp hd
  exact (parts_leave hs hmodels hcontract).agree (parts_leave hu hmodels' hcontract') hcrate hq

/-! ## Building again -/

/-- A build that rebuilds nothing inside the archives leaves their files as they are. -/
theorem build_content {built : Built} (hs : s.tree.Proper)
    (hapart : ∀ d ∈ settings.rebuilt root target,
      FileTree.isWithin (settings.archivesRoot root).place d.place = false)
    (h : (settings.build root target).Yields s built s') {q : Place}
    (hq : FileTree.isWithin (settings.archivesRoot root).place q = true) :
    s'.tree.content? q = s.tree.content? q := by
  have hexposes : ¬ settings.Exposes root target q := by
    rintro ⟨d, hd, hinside, -⟩
    rw [hapart d hd] at hinside
    cases hinside
  refine Option.ext fun content => ?_
  rw [FileTree.content?_eq_some_iff, FileTree.content?_eq_some_iff]
  refine ⟨fun hfile => ?_, fun hfile => (build_keeps_source hq hexposes).of_yields hfile h⟩
  obtain ⟨checked, t, hcheck, hleaves⟩ := build_leaves hs.rooted h
  rcases hleaves.of_file hfile with ⟨hwritten, -⟩ | ⟨-, hfound⟩
  · -- what is written lies in a directory that is rebuilt, and so outside the archives
    obtain ⟨crate, hcrate, hwithin⟩ := hleaves.within_of_written hwritten
    have hd : crate.1 ∈ settings.rebuilt root target := by
      rw [← map_crates settings root target checked built.scaffold?]
      exact List.mem_map_of_mem hcrate
    rw [isWithin_of_not_exposes hq hexposes hd (hleaves.spared crate hcrate)] at hwithin
    cases hwithin
  · rw [(check_reads hs hcheck).2.1] at hfound
    split at hfound
    · cases hfound
    · exact hfound

theorem build_unique {built built' : Built} (hs : s.tree.Proper) (hu : u.tree.Proper)
    (hsame : ∀ names ≠ [], s.tree.node? ((settings.archivesRoot root).place ++ names) =
      u.tree.node? ((settings.archivesRoot root).place ++ names))
    (h : (settings.build root target).Yields s built s')
    (h' : (settings.build root target).Yields u built' u') :
    built = built' ∧ ∀ d ∈ settings.rebuilt root target, ∀ q, FileTree.isWithin d.place q = true →
      s'.tree.node? q = u'.tree.node? q := by
  obtain ⟨checked, _, models, _, contract, left, hcheck, hmodels, hcontract, hleft, rfl⟩ :=
    build_cases h
  obtain ⟨checked', _, models', _, contract', left', hcheck', hmodels', hcontract', hleft', rfl⟩ :=
    build_cases h'
  obtain rfl := check_unique hs hu hsame hcheck hcheck'
  obtain ⟨rfl, rfl, hagree⟩ := parts_alike (check_reads hs hcheck).1.rooted
    (check_reads hu hcheck').1.rooted rfl rfl hmodels hcontract hmodels' hcontract'
  rw [hleft, hleft']
  exact ⟨rfl, hagree⟩

theorem build_again {built again : Built} (hs : s.tree.Proper)
    (hapart : ∀ d ∈ settings.rebuilt root target,
      FileTree.isWithin (settings.archivesRoot root).place d.place = false)
    (h : (settings.build root target).Yields s built s') (hu : u.tree = s'.tree)
    (h' : (settings.build root target).Yields u again u') :
    again.written = built.written ∧
      ∀ d ∈ settings.rebuilt root target, ∀ q, FileTree.isWithin d.place q = true →
        u'.tree.node? q = s'.tree.node? q := by
  have hproper : u.tree.Proper := by
    rw [hu]
    exact build_proper.of_yields hs h
  have hcontent (q : Place) (hq : FileTree.isWithin (settings.archivesRoot root).place q = true) :
      u.tree.content? q = s.tree.content? q := by
    rw [hu]
    exact build_content hs hapart h hq
  obtain ⟨checked, _, models, _, contract, left, hcheck, hmodels, hcontract, hleft, rfl⟩ :=
    build_cases h
  obtain ⟨checked', _, models', _, contract', left', hcheck', hmodels', hcontract', hleft', rfl⟩ :=
    build_cases h'
  obtain ⟨hregistry, hclassification⟩ := check_registers hproper hs hcontent hcheck' hcheck
  obtain ⟨rfl, rfl, hagree⟩ := parts_alike (check_reads hproper hcheck').1.rooted
    (check_reads hs hcheck).1.rooted hregistry hclassification hmodels' hcontract' hmodels hcontract
  rw [hleft, hleft']
  exact ⟨rfl, hagree⟩

/-- Whatever the tree holds outside the archives, a build reports the same and leaves the same in
the directories that it replaces, with no file there that it did not write. A second build that
succeeds leaves the same again if none of these directories lies in that of the archives. -/
theorem build_regenerates (settings : Settings) (root : Path) (target : BuildTarget)
    {t u : FileTree} {built built' : Built} {s s' : Session} (ht : t.Proper) (hu : u.Proper)
    (hsame : ∀ names ≠ [], t.node? ((settings.archivesRoot root).place ++ names) =
      u.node? ((settings.archivesRoot root).place ++ names))
    (h : (settings.build root target).start t = (.ok built, s))
    (h' : (settings.build root target).start u = (.ok built', s')) :
    built = built' ∧
    (∀ d ∈ settings.rebuilt root target, ∀ q, FileTree.isWithin d.place q = true →
      s.tree.node? q = s'.tree.node? q ∧
        ∀ content, s.tree.node? q = some (.file content) → q ∈ built.written.map Path.place) ∧
    ((∀ d ∈ settings.rebuilt root target,
        FileTree.isWithin (settings.archivesRoot root).place d.place = false) →
      ∀ again s'', (settings.build root target).start s.tree = (.ok again, s'') →
        again.written = built.written ∧
        ∀ d ∈ settings.rebuilt root target, ∀ q, FileTree.isWithin d.place q = true →
          s''.tree.node? q = s.tree.node? q) := by
  have hbuilt : (settings.build root target).Yields { tree := t } built s := h
  have hbuilt' : (settings.build root target).Yields { tree := u } built' s' := h'
  obtain ⟨hreport, hagree⟩ :=
    build_unique (s := { tree := t }) (u := { tree := u }) ht hu hsame hbuilt hbuilt'
  refine ⟨hreport, fun d hd q hq => ⟨hagree d hd q hq, fun content => ?_⟩,
    fun hapart again s'' => ?_⟩
  · exact build_written (s := { tree := t }) ht.rooted hbuilt hd hq
  · exact build_again (s := { tree := t }) ht hapart hbuilt rfl

/-- A file that was left in the directory of the contract crate is gone after a build, and the crate
is the same as without it. -/
theorem build_regenerates_leftover :
    let settings : Settings := {}
    let leftover :=
      bareArchive [(["contract"], .directory), (["contract", "old"], .file "old".toUTF8)]
    ∃ built s s', (settings.build (.ofText "/") .contract).start (bareArchive []) = (.ok built, s) ∧
      (settings.build (.ofText "/") .contract).start leftover = (.ok built, s') ∧
      leftover.node? ["contract", "old"] = some (.file "old".toUTF8) ∧
      (∀ content, s'.tree.node? ["contract", "old"] ≠ some (.file content)) ∧
      ∀ q, FileTree.isWithin ["contract"] q = true → s.tree.node? q = s'.tree.node? q := by
  intro settings leftover
  have ht : (bareArchive []).Proper :=
    .of_entries (by simp [bareArchive, FileTree.node?, List.lookup_cons]) (by decide)
      (by unfold FileTree.Fits; decide)
  have hu : leftover.Proper :=
    .of_entries (by simp [leftover, bareArchive, FileTree.node?, List.lookup_cons]) (by decide)
      (by unfold FileTree.Fits; decide)
  have hfound : (discover (settings.archivesRoot (.ofText "/")) settings.modelExtension).Yields
      { tree := bareArchive [] } bareDiscovery _ := Job.yields_of_run (by decide +kernel)
  have hfound' : (discover (settings.archivesRoot (.ofText "/")) settings.modelExtension).Yields
      { tree := leftover } bareDiscovery _ := Job.yields_of_run (by decide +kernel)
  obtain ⟨built, s, h⟩ := build_bareArchive ht.rooted rfl hfound
    ⟨by decide +kernel, by decide +kernel, by decide +kernel⟩
  obtain ⟨built', s', h'⟩ := build_bareArchive hu.rooted rfl hfound'
    ⟨by decide +kernel, by decide +kernel, by decide +kernel⟩
  have hdirectory : workspaceDirectory (.ofText "/") settings.contractDirectory =
      ⟨.root, ["contract"]⟩ := by decide +kernel
  have hrebuilt : settings.rebuilt (.ofText "/") .contract = [⟨.root, ["contract"]⟩] := by
    rw [← hdirectory]
    rfl
  have harchives : (settings.archivesRoot (.ofText "/")).place = ["archives"] := by decide +kernel
  have hsame : ∀ names ≠ [],
      (bareArchive []).node? ((settings.archivesRoot (.ofText "/")).place ++ names) =
        leftover.node? ((settings.archivesRoot (.ofText "/")).place ++ names) := by
    intro names _
    rw [harchives]
    simp [leftover, bareArchive, FileTree.node?, List.lookup_cons]
  obtain ⟨rfl, hagree, -⟩ := build_regenerates settings (.ofText "/") .contract ht hu hsame h h'
  rw [hrebuilt] at hagree
  have hleft := hagree _ (List.mem_singleton_self _)
  refine ⟨built, s, s', h, h', rfl, fun content hfile => ?_, fun q hq => (hleft q hq).1⟩
  obtain ⟨hold, hwritten⟩ := hleft ["contract", "old"] (by decide +kernel)
  rw [← hold] at hfile
  have hmem := hwritten content hfile
  rw [build_contract_written ht.rooted h, hdirectory] at hmem
  exact absurd hmem (by decide +kernel)

end Covenant.Settings

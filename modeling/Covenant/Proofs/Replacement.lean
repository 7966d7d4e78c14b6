/-
What a crate that is written leaves at each place. Its directory is replaced and then its
files are written, so below the directory nothing depends on what was there before
(`Emission.emitNodes_within`), and a file that stands there was written
(`Emission.file_of_emitNodes`). A build writes one crate or two, each into a directory of
its own, of which one may lie in the other (`Settings.build_leaves`). What it leaves in
these directories follows from the crates alone (`Emission.Leaves.agree`).
-/
import Covenant.Proofs.Kept

namespace Covenant

open Crate

namespace Emission

/-! ## Replacing a directory -/

/-- What stands at each place, if anything. -/
abbrev Nodes := Place → Option FileNode

/-- An empty directory instead of what stood there, and directories on the way to it. -/
def resetNodes (output : Path) (nodes : Nodes) : Nodes := fun q =>
  if q ∈ output.visits then some .directory
  else if FileTree.isWithin output.place q then none
  else nodes q

/-- A file below a directory, and directories on the way to it. -/
def writeNodes (output : Path) (nodes : Nodes) (file : SourceFile) : Nodes := fun q =>
  if q = output.place ++ file.path then some (.file file.text.toUTF8)
  else if q ∈ (output.below file.path).parent.visits then some .directory
  else nodes q

/-- A directory with the files of a crate, one written after the other. -/
def emitNodes (output : Path) (files : List SourceFile) (nodes : Nodes) : Nodes :=
  files.foldl (writeNodes output) (resetNodes output nodes)

/-- What is written where, in order. -/
abbrev Writes := List (Place × String)

/-- The text that is written last at a place, if any is. -/
def textAt? (writes : Writes) (q : Place) : Option String :=
  writes.reverse.lookup q

theorem textAt?_append (writes writes' : Writes) (q : Place) :
    textAt? (writes ++ writes') q = (textAt? writes' q).or (textAt? writes q) := by
  rw [textAt?, List.reverse_append, List.lookup_append]
  rfl

theorem mem_of_textAt? {writes : Writes} {q : Place} {text : String}
    (h : textAt? writes q = some text) :
    (q, text) ∈ writes := by
  obtain ⟨before, after, hwrites, -⟩ := List.lookup_eq_some_iff.mp h
  exact List.mem_reverse.mp (by simp [hwrites])

/-- What the files of a crate write. -/
def fileWrites (output : Path) (files : List SourceFile) : Writes :=
  files.map fun file => (output.place ++ file.path, file.text)

variable {output : Path} {file : SourceFile} {files : List SourceFile} {s s' : Session}
  {nodes nodes' : Nodes} {q : Place}

theorem resetDirectory_nodes {kept? : Option Path} {u : Unit} (hs : s.tree.Rooted)
    (h : (resetDirectory output kept?).Yields s u s') :
    s'.tree.node? = resetNodes output s.tree.node? := by
  obtain ⟨-, t, hremoved, hmade, -⟩ := resetDirectory_yields.mp h
  funext q
  obtain ⟨hlocated, hnodes⟩ := FileTree.makeDirectories_nodes hmade
  rw [hnodes, resetNodes]
  split
  · rfl
  · rename_i hq
    obtain ⟨-, hremoved⟩ | ⟨-, rfl⟩ := removePrevious_cases hremoved
    · have hroot : q ≠ [] := by
        rintro rfl
        exact hq output.root_mem_visits
      rw [FileTree.removeDirectory_nodes hremoved]
      simp [hroot]
    · -- nothing could be reached by the path, and the directory that was made is empty
      obtain ⟨place, hempty⟩ := hs.emptyAt_makeDirectories hmade
      obtain rfl := FileTree.eq_place_of_locate hempty.located
      split
      · rename_i hwithin
        obtain ⟨names, rfl⟩ := FileTree.isWithin_iff.mp hwithin
        have hnames : names ≠ [] := by
          rintro rfl
          exact hq (by simpa using output.place_mem_visits)
        rw [← hempty.empty names hnames, hnodes, if_neg hq]
      · rfl

theorem writeFile_nodes {path : Path} (hfile : Path.parentStep ∉ file.path)
    (h : (writeFile output file).Yields s path s') :
    s'.tree.node? = writeNodes output s.tree.node? file := by
  obtain ⟨-, t, hmade, hwrite, -⟩ := writeFile_yields.mp h
  obtain ⟨-, hnodes⟩ := FileTree.makeDirectories_nodes hmade
  obtain ⟨place, hlocated, -, hwritten⟩ := FileTree.write_cases hwrite
  obtain rfl := FileTree.eq_place_of_locate hlocated
  funext q
  rw [hwritten, hnodes, Path.place_below output hfile]
  rfl

theorem writeFiles_nodes {written : List Path}
    (hfiles : ∀ file ∈ files, Path.parentStep ∉ file.path)
    (h : (files.mapM (writeFile output)).Yields s written s') :
    s'.tree.node? = files.foldl (writeNodes output) s.tree.node? := by
  induction files generalizing s written with
  | nil =>
    obtain ⟨-, rfl⟩ := Job.yields_pure.mp h
    rfl
  | cons file files ih =>
    rw [List.forall_mem_cons] at hfiles
    obtain ⟨_, t, _, hfile, hrest, -⟩ := Job.yields_mapM_cons.mp h
    rw [ih hfiles.2 hrest, writeFile_nodes hfiles.1 hfile, List.foldl_cons]

/-! ## What is left in the directory -/

theorem foldl_writeNodes_congr (h : nodes q = nodes' q) :
    files.foldl (writeNodes output) nodes q = files.foldl (writeNodes output) nodes' q := by
  induction files generalizing nodes nodes' with
  | nil => exact h
  | cons file files ih =>
    refine ih ?_
    simp only [writeNodes, h]

/-- What a crate leaves at a place depends on what stood there, and on nothing else. -/
theorem emitNodes_congr (h : nodes q = nodes' q) :
    emitNodes output files nodes q = emitNodes output files nodes' q := by
  refine foldl_writeNodes_congr ?_
  simp only [resetNodes, h]

/-- In the directory of a crate it does not even depend on that. -/
theorem emitNodes_within (h : FileTree.isWithin output.place q = true) :
    emitNodes output files nodes q = emitNodes output files nodes' q := by
  refine foldl_writeNodes_congr ?_
  simp only [resetNodes, h, if_true]

theorem file_of_foldl_writeNodes {content : ByteArray}
    (h : files.foldl (writeNodes output) nodes q = some (.file content)) :
    (∃ text, textAt? (fileWrites output files) q = some text ∧ content = text.toUTF8) ∨
      textAt? (fileWrites output files) q = none ∧ nodes q = some (.file content) := by
  -- the last file decides, unless it lies elsewhere
  induction files using List.reverseRecOn with
  | nil => exact .inr ⟨rfl, h⟩
  | append_singleton files file ih =>
    have hwrites : fileWrites output (files ++ [file]) =
        fileWrites output files ++ [(output.place ++ file.path, file.text)] := by simp [fileWrites]
    rw [hwrites, textAt?_append]
    rw [List.foldl_append, List.foldl_cons, List.foldl_nil, writeNodes] at h
    split at h
    · rename_i hq
      cases h
      exact .inl ⟨file.text, by simp [textAt?, hq], rfl⟩
    · rename_i hq
      split at h
      · cases h
      · simpa [textAt?, List.lookup_cons, beq_false_of_ne hq] using ih h

/-- A file was written or stood there before, which is outside the directory. -/
theorem file_of_emitNodes {content : ByteArray}
    (h : emitNodes output files nodes q = some (.file content)) :
    (∃ text, textAt? (fileWrites output files) q = some text ∧ content = text.toUTF8) ∨
      textAt? (fileWrites output files) q = none ∧ FileTree.isWithin output.place q = false ∧
        nodes q = some (.file content) := by
  refine (file_of_foldl_writeNodes h).imp_right (.imp_right fun hnode => ?_)
  unfold resetNodes at hnode
  split at hnode
  · cases hnode
  · split at hnode
    · cases hnode
    · rename_i hwithin
      exact ⟨by simpa using hwithin, hnode⟩

/-! ## Crates written one after the other -/

/-- What is left when crates are written into their directories, one after the other. -/
def cratesNodes (crates : List (Path × List SourceFile)) (nodes : Nodes) : Nodes :=
  crates.foldl (fun nodes crate => emitNodes crate.1 crate.2 nodes) nodes

/-- The paths of crates, in the order in which they are written. -/
def cratesPaths (crates : List (Path × List SourceFile)) : List Path :=
  crates.flatMap fun crate => crate.2.map fun file => crate.1.below file.path

/-- What crates write. -/
def cratesWrites (crates : List (Path × List SourceFile)) : Writes :=
  crates.flatMap fun crate => fileWrites crate.1 crate.2

/-- Crates have been written. None of their directories holds the one to be kept. -/
structure Leaves (kept : Path) (crates : List (Path × List SourceFile)) (written : List Path)
    (t t' : FileTree) : Prop where
  spared : ∀ crate ∈ crates, deletes crate.1 kept = false
  down : ∀ crate ∈ crates, ∀ file ∈ crate.2, Path.parentStep ∉ file.path
  paths : written = cratesPaths crates
  nodes : t'.node? = cratesNodes crates t.node?
  rooted : t'.Rooted

variable {kept : Path} {crates crates' : List (Path × List SourceFile)}
  {written written' : List Path} {t t' u u' : FileTree}

theorem Leaves.none (ht : t.Rooted) : Leaves kept [] [] t t :=
  ⟨by simp, by simp, rfl, rfl, ht⟩

theorem Leaves.append (h : Leaves kept crates written t t')
    (h' : Leaves kept crates' written' t' u) :
    Leaves kept (crates ++ crates') (written ++ written') t u where
  spared := List.forall_mem_append.mpr ⟨h.spared, h'.spared⟩
  down := List.forall_mem_append.mpr ⟨h.down, h'.down⟩
  paths := by rw [h.paths, h'.paths, cratesPaths, cratesPaths, cratesPaths, List.flatMap_append]
  nodes := by rw [h'.nodes, h.nodes, cratesNodes, cratesNodes, cratesNodes, List.foldl_append]
  rooted := h'.rooted

theorem Leaves.of_emit (hs : s.tree.Rooted) (hfiles : ∀ file ∈ files, Path.parentStep ∉ file.path)
    (h : (emit output (some kept) files).Yields s written s') :
    Leaves kept [(output, files)] written s.tree s'.tree where
  spared := by
    obtain ⟨_, hreset⟩ := emit_prepared h
    simpa using (resetDirectory_yields.mp hreset).1
  down := by simpa using hfiles
  paths := by simpa [cratesPaths] using (emit_wrote h hfiles).paths
  nodes := by
    unfold emit Job.info at h
    simp only [Job.yields_bind, Job.yields_note, Job.yields_pure] at h
    obtain ⟨_, prepared, hreset, _, middle, hwritten, _, _, rfl, -, rfl⟩ := h
    have hnodes := writeFiles_nodes hfiles hwritten
    rw [resetDirectory_nodes hs hreset] at hnodes
    exact hnodes
  rooted := by
    have hkeeps : (emit output (some kept) files).Keeps FileTree.Rooted :=
      emit_keeps (fun _ orKeep path ht => ht.makeDirectories orKeep path)
        (fun _ _ ht => ht.removeDirectory output) (fun _ _ _ _ _ ht hwrite => ht.write hwrite)
    exact hkeeps.of_yields hs h

theorem Leaves.within_of_written (h : Leaves kept crates written t t')
    (hq : q ∈ written.map Path.place) :
    ∃ crate ∈ crates, FileTree.isWithin crate.1.place q = true := by
  rw [h.paths] at hq
  obtain ⟨path, hpath, rfl⟩ := List.mem_map.mp hq
  obtain ⟨crate, hcrate, hpath⟩ := List.mem_flatMap.mp hpath
  obtain ⟨file, hfile, rfl⟩ := List.mem_map.mp hpath
  refine ⟨crate, hcrate, ?_⟩
  rw [Path.place_below crate.1 (h.down crate hcrate file hfile)]
  exact FileTree.isWithin_below _ _

theorem cratesNodes_congr (h : nodes q = nodes' q) :
    cratesNodes crates nodes q = cratesNodes crates nodes' q := by
  induction crates generalizing nodes nodes' with
  | nil => exact h
  | cons crate crates ih => exact ih (emitNodes_congr h)

/-- In the directories of crates the same is left, whatever was there. -/
theorem Leaves.agree (h : Leaves kept crates written t t') (h' : Leaves kept crates written' u u')
    {crate : Path × List SourceFile} (hcrate : crate ∈ crates)
    (hq : FileTree.isWithin crate.1.place q = true) : t'.node? q = u'.node? q := by
  rw [h.nodes, h'.nodes]
  obtain ⟨before, after, rfl⟩ := List.append_of_mem hcrate
  simp only [cratesNodes, List.foldl_append, List.foldl_cons]
  exact cratesNodes_congr (emitNodes_within hq)

theorem file_of_cratesNodes {content : ByteArray}
    (h : cratesNodes crates nodes q = some (.file content)) :
    (∃ text, textAt? (cratesWrites crates) q = some text ∧ content = text.toUTF8) ∨
      (∀ crate ∈ crates, FileTree.isWithin crate.1.place q = false) ∧
        nodes q = some (.file content) := by
  induction crates using List.reverseRecOn with
  | nil => exact .inr ⟨by simp, h⟩
  | append_singleton crates crate ih =>
    have hwrites : cratesWrites (crates ++ [crate]) =
        cratesWrites crates ++ fileWrites crate.1 crate.2 := by simp [cratesWrites]
    have hnodes : cratesNodes (crates ++ [crate]) nodes =
        emitNodes crate.1 crate.2 (cratesNodes crates nodes) := by simp [cratesNodes]
    rw [hwrites, textAt?_append]
    rw [hnodes] at h
    rcases file_of_emitNodes h with ⟨text, htext, hcontent⟩ | ⟨hnone, hwithin, hnode⟩
    · exact .inl ⟨text, by rw [htext, Option.some_or], hcontent⟩
    · rw [hnone, Option.none_or]
      refine (ih hnode).imp_right (.imp_left fun houtside => ?_)
      exact List.forall_mem_append.mpr ⟨houtside, List.forall_mem_singleton.mpr hwithin⟩

theorem Leaves.mem_map_place_iff (h : Leaves kept crates written t t') :
    q ∈ written.map Path.place ↔ q ∈ (cratesWrites crates).map (·.1) := by
  have hplaces : written.map Path.place = (cratesWrites crates).map (·.1) := by
    rw [h.paths, cratesPaths, cratesWrites, List.map_flatMap, List.map_flatMap]
    refine List.flatMap_congr fun crate hcrate => ?_
    rw [fileWrites, List.map_map, List.map_map]
    exact List.map_congr_left fun file hfile =>
      Path.place_below crate.1 (h.down crate hcrate file hfile)
  rw [hplaces]

/-- A file was written, and holds what was written last at its place, or stood there before, which
is outside the directories. -/
theorem Leaves.of_file (h : Leaves kept crates written t t') {content : ByteArray}
    (hq : t'.node? q = some (.file content)) :
    q ∈ written.map Path.place ∧
        (∃ text, textAt? (cratesWrites crates) q = some text ∧ content = text.toUTF8) ∨
      (∀ crate ∈ crates, FileTree.isWithin crate.1.place q = false) ∧
        t.node? q = some (.file content) := by
  rw [h.nodes] at hq
  refine (file_of_cratesNodes hq).imp_left fun ⟨text, htext, hcontent⟩ => ?_
  exact ⟨h.mem_map_place_iff.mpr (List.mem_map_of_mem (mem_of_textAt? htext)), text,
    htext, hcontent⟩

end Emission

/-! ## Building -/

namespace Settings

variable {settings : Settings} {root : Path} {target : BuildTarget} {checked : Checked}
  {s s' : Session}

/-- The data crate in its directory, if it is asked for. -/
def modelsCrate (settings : Settings) (root : Path) (target : BuildTarget) (checked : Checked)
    (scaffold? : Option Scaffold) : List (Path × List SourceFile) :=
  if target.includesModels then
    [(workspaceDirectory root settings.outputDirectory,
      dataFiles checked.loaded.registry scaffold? settings.packageName)]
  else []

/-- The contract crate in its directory, if it is asked for. -/
def contractCrate (settings : Settings) (root : Path) (target : BuildTarget) (checked : Checked) :
    List (Path × List SourceFile) :=
  if target.includesContract then
    [(workspaceDirectory root settings.contractDirectory,
      contractFiles (Contract.synthesize checked.classification settings.contractName?))]
  else []

/-- The crates of a build. -/
def crates (settings : Settings) (root : Path) (target : BuildTarget) (checked : Checked)
    (scaffold? : Option Scaffold) : List (Path × List SourceFile) :=
  settings.modelsCrate root target checked scaffold? ++ settings.contractCrate root target checked

theorem map_crates (settings : Settings) (root : Path) (target : BuildTarget) (checked : Checked)
    (scaffold? : Option Scaffold) :
    (settings.crates root target checked scaffold?).map (·.1) = settings.rebuilt root target := by
  cases target <;> rfl

/-- The data crate is written, or nothing is done. -/
theorem modelsPart_cases {models : Built}
    (h : (settings.modelsPart root target checked).Yields s models s') :
    (target.includesModels = true ∧ ∃ u : Session, u.tree = s.tree ∧
        (emit (workspaceDirectory root settings.outputDirectory) (some (settings.archivesRoot root))
          (dataFiles checked.loaded.registry models.scaffold? settings.packageName)).Yields u
            models.written s') ∨
      target.includesModels = false ∧ models = nothingBuilt ∧ s' = s := by
  unfold modelsPart at h
  split at h
  · unfold buildModels at h
    simp only [Job.yields_bind, Job.yields_pure] at h
    obtain ⟨planned, u, hplanned, written, u', hemitted, rfl, rfl⟩ := h
    exact .inl ⟨‹_›, u, (planScaffold_blind settings checked).tree_eq hplanned, hemitted⟩
  · rename_i hexcludes
    exact .inr ⟨by simpa using hexcludes, Job.yields_pure.mp h⟩

/-- The contract crate is written, or nothing is done. -/
theorem contractPart_cases {contract : Built}
    (h : (settings.contractPart root target checked).Yields s contract s') :
    (target.includesContract = true ∧ ∃ u : Session, u.tree = s.tree ∧
        (emit (workspaceDirectory root settings.contractDirectory)
          (some (settings.archivesRoot root))
          (contractFiles
            (Contract.synthesize checked.classification settings.contractName?))).Yields u
              contract.written s') ∨
      target.includesContract = false ∧ contract = nothingBuilt ∧ s' = s := by
  unfold contractPart at h
  split at h
  · unfold buildContract Job.info at h
    simp only [Job.yields_bind, Job.yields_pure, Job.yields_note] at h
    obtain ⟨_, u, hu, written, u', hemitted, rfl, rfl⟩ := h
    exact .inl ⟨‹_›, u, by rw [hu], hemitted⟩
  · rename_i hexcludes
    exact .inr ⟨by simpa using hexcludes, Job.yields_pure.mp h⟩

theorem modelsPart_leaves {models : Built} (hs : s.tree.Rooted)
    (h : (settings.modelsPart root target checked).Yields s models s') :
    Emission.Leaves (settings.archivesRoot root)
      (settings.modelsCrate root target checked models.scaffold?) models.written
        s.tree s'.tree := by
  unfold modelsCrate
  obtain ⟨hincludes, u, htree, hemitted⟩ | ⟨hincludes, rfl, rfl⟩ := modelsPart_cases h
  · rw [hincludes, if_pos rfl]
    rw [← htree] at hs ⊢
    exact .of_emit hs parentStep_not_mem_dataFiles hemitted
  · rw [hincludes]
    exact .none hs

theorem contractPart_leaves {contract : Built} (hs : s.tree.Rooted)
    (h : (settings.contractPart root target checked).Yields s contract s') :
    Emission.Leaves (settings.archivesRoot root) (settings.contractCrate root target checked)
      contract.written s.tree s'.tree := by
  unfold contractCrate
  obtain ⟨hincludes, u, htree, hemitted⟩ | ⟨hincludes, rfl, rfl⟩ := contractPart_cases h
  · rw [hincludes, if_pos rfl]
    rw [← htree] at hs ⊢
    exact .of_emit hs parentStep_not_mem_contractFiles hemitted
  · rw [hincludes]
    exact .none hs

/-- A build checks the workspace, takes its two parts and sums up. -/
theorem build_cases {built : Built} (h : (settings.build root target).Yields s built s') :
    ∃ checked t models u contract u', (settings.check root).Yields s checked t ∧
      (settings.modelsPart root target checked).Yields t models u ∧
      (settings.contractPart root target checked).Yields u contract u' ∧
      s'.tree = u'.tree ∧ built = builtOf checked models contract := by
  unfold build Job.info at h
  simp only [Job.yields_bind, Job.yields_pure, Job.yields_note] at h
  obtain ⟨checked, t, hchecked, models, u, hmodels, contract, u', hcontract, _, _,
    rfl, rfl, rfl⟩ := h
  exact ⟨checked, t, models, u, contract, u', hchecked, hmodels, hcontract, rfl, rfl⟩

theorem parts_leave {models contract : Built} {u : Session} (hs : s.tree.Rooted)
    (hmodels : (settings.modelsPart root target checked).Yields s models u)
    (hcontract : (settings.contractPart root target checked).Yields u contract s') :
    Emission.Leaves (settings.archivesRoot root)
      (settings.crates root target checked models.scaffold?) (models.written ++ contract.written)
      s.tree s'.tree :=
  have hfirst := modelsPart_leaves hs hmodels
  hfirst.append (contractPart_leaves hfirst.rooted hcontract)

/-- A build checks the workspace and writes its crates. -/
theorem build_leaves {built : Built} (hs : s.tree.Rooted)
    (h : (settings.build root target).Yields s built s') :
    ∃ checked t, (settings.check root).Yields s checked t ∧
      Emission.Leaves (settings.archivesRoot root)
        (settings.crates root target checked built.scaffold?) built.written t.tree s'.tree := by
  obtain ⟨checked, t, models, u, contract, u', hchecked, hmodels, hcontract, htree, rfl⟩ :=
    build_cases h
  rw [htree]
  exact ⟨checked, t, hchecked, parts_leave (check_rooted.of_yields hs hchecked) hmodels hcontract⟩

/-- A file in a rebuilt directory was written by the build. -/
theorem build_written {built : Built} (hs : s.tree.Rooted)
    (h : (settings.build root target).Yields s built s') {d : Path}
    (hd : d ∈ settings.rebuilt root target) {q : Place} (hq : FileTree.isWithin d.place q = true)
    {content : ByteArray} (hfile : s'.tree.node? q = some (.file content)) :
    q ∈ built.written.map Path.place := by
  obtain ⟨checked, _, -, hleaves⟩ := build_leaves hs h
  rw [← map_crates settings root target checked built.scaffold?] at hd
  obtain ⟨crate, hcrate, rfl⟩ := List.mem_map.mp hd
  rcases hleaves.of_file hfile with ⟨hwritten, -⟩ | ⟨houtside, -⟩
  · exact hwritten
  · rw [houtside crate hcrate] at hq
    cases hq

/-- The contract crate has three files. -/
theorem build_contract_written {built : Built} (hs : s.tree.Rooted)
    (h : (settings.build root .contract).Yields s built s') :
    built.written = [["Cargo.toml"], ["src", "lib.rs"], ["README.md"]].map
      (workspaceDirectory root settings.contractDirectory).below := by
  obtain ⟨checked, _, -, hleaves⟩ := build_leaves hs h
  rw [hleaves.paths]
  rfl

/-- A build succeeds if the check and its two parts do. -/
theorem build_succeeds {models contract : Built} {t u u' : Session}
    (hcheck : (settings.check root).Yields s checked t)
    (hmodels : (settings.modelsPart root target checked).Yields t models u)
    (hcontract : (settings.contractPart root target checked).Yields u contract u') :
    ∃ built s', (settings.build root target).Yields s built s' := by
  unfold build Job.info
  simp only [Job.yields_bind, Job.yields_pure, Job.yields_note]
  exact ⟨_, _, checked, t, hcheck, models, u, hmodels, contract, u', hcontract, (),
    _, rfl, rfl, rfl⟩

theorem planScaffold_succeeds {scaffold? : Option Scaffold}
    (h : Crate.scaffold? checked.loaded.registry checked.classification settings.packageName =
      .ok scaffold?) : ∃ diagnostics s',
        (settings.planScaffold checked).Yields s (scaffold?, diagnostics) s' := by
  unfold planScaffold Job.warning
  simp only [Job.yields_bind, Job.yields_ofExcept, h]
  cases scaffold? with
  | some scaffold => exact ⟨_, s, _, s, ⟨rfl, rfl⟩, Job.yields_pure.mpr ⟨rfl, rfl⟩⟩
  | none =>
    exact ⟨_, _, _, s, ⟨rfl, rfl⟩, Job.yields_bind.mpr ⟨(), _, Job.yields_note.mpr rfl,
      Job.yields_pure.mpr ⟨rfl, rfl⟩⟩⟩

/-- The data crate is written if its scaffold can be planned, its directory can be replaced and the
names of its module files are not too long. -/
theorem modelsPart_succeeds {scaffold? : Option Scaffold} (hs : s.tree.Rooted)
    (htarget : target.includesModels = true)
    (hscaffold :
      Crate.scaffold? checked.loaded.registry checked.classification settings.packageName =
        .ok scaffold?)
    (hsizes : ∀ key ∈ checked.loaded.registry.keys,
      (moduleFile key).utf8ByteSize ≤ FileTree.maxNameBytes)
    (h : Emission.Replaceable (workspaceDirectory root settings.outputDirectory)
      (some (settings.archivesRoot root)) s.tree) :
    ∃ models s', (settings.modelsPart root target checked).Yields s models s' := by
  obtain ⟨diagnostics, planned, hplanned⟩ := planScaffold_succeeds hscaffold
  rw [← (planScaffold_blind settings checked).tree_eq hplanned] at hs h
  obtain ⟨prepared, hprepared⟩ := h.resetDirectory
  obtain ⟨written, u, hwritten⟩ := emit_succeeds hs hprepared (layable_dataFiles hsizes)
  unfold modelsPart
  rw [if_pos htarget]
  exact ⟨_, u, Job.yields_bind.mpr ⟨_, planned, hplanned,
    Job.yields_bind.mpr ⟨written, u, hwritten, Job.yields_pure.mpr ⟨rfl, rfl⟩⟩⟩⟩

/-- The contract crate is written if its directory can be replaced. -/
theorem contractPart_succeeds (hs : s.tree.Rooted) (htarget : target.includesContract = true)
    (h : Emission.Replaceable (workspaceDirectory root settings.contractDirectory)
      (some (settings.archivesRoot root)) s.tree) :
    ∃ contract s', (settings.contractPart root target checked).Yields s contract s' := by
  let contract := Contract.synthesize checked.classification settings.contractName?
  obtain ⟨noted, hnoted, htree⟩ : ∃ noted, (Job.note LogLevel.info "codegen.contract"
      contract.summary).Yields s () noted ∧ noted.tree = s.tree :=
    ⟨_, Job.yields_note.mpr rfl, rfl⟩
  rw [← htree] at hs h
  obtain ⟨prepared, hprepared⟩ := h.resetDirectory
  obtain ⟨written, u, hwritten⟩ := emit_succeeds hs hprepared (layable_contractFiles contract)
  unfold contractPart
  rw [if_pos htarget]
  exact ⟨_, u, Job.yields_bind.mpr ⟨(), noted, hnoted,
    Job.yields_bind.mpr ⟨written, u, hwritten, Job.yields_pure.mpr ⟨rfl, rfl⟩⟩⟩⟩

/-- The contract crate can be built if the check passes and the directory can be replaced. -/
theorem build_contract_succeeds {t : Session} (ht : t.tree.Rooted)
    (hcheck : (settings.check root).Yields s checked t)
    (h : Emission.Replaceable (workspaceDirectory root settings.contractDirectory)
      (some (settings.archivesRoot root)) t.tree) :
    ∃ built s', (settings.build root .contract).Yields s built s' := by
  have hmodels : (settings.modelsPart root .contract checked).Yields t nothingBuilt t :=
    Job.yields_pure.mpr ⟨rfl, rfl⟩
  obtain ⟨contract, u, hcontract⟩ :
      ∃ contract u, (settings.contractPart root .contract checked).Yields t contract u :=
    contractPart_succeeds ht rfl h
  exact build_succeeds hcheck hmodels hcontract

end Settings

end Covenant

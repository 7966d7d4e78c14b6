/-
What a run keeps, whatever its outcome. A property of the tree holds after a step if it
held before (`Job.Keeps`); this goes through steps taken one after the other. Most steps
do not look at the tree at all (`Job.Blind`). They leave it as it is, and their outcome is
the same wherever they are taken.

So a property is kept by a build if it is kept by the operations that a build uses: making
directories, and removing and writing in those directories that are rebuilt
(`Settings.build_keeps`).
-/
import Covenant.Build.Workspace
import Covenant.Proofs.DataCrate
import Covenant.Proofs.Ways

namespace Covenant

/-! ## Steps that do not look at the tree -/

namespace Job

variable {α β : Type} {s s' u u' : Session} {job : Job α} {next : α → Job β}
  {P : FileTree → Prop}

/-- The step has one outcome, wherever it is taken, and leaves the tree as it is. -/
def Blind (job : Job α) : Prop :=
  ∃ outcome, ∀ s, (job.run s).1 = outcome ∧ (job.run s).2.tree = s.tree

theorem Blind.pure (a : α) : (pure a : Job α).Blind :=
  ⟨.ok a, fun _ => ⟨rfl, rfl⟩⟩

theorem Blind.throw (e : BuildError) : (throw e : Job α).Blind :=
  ⟨.error e, fun _ => ⟨rfl, rfl⟩⟩

theorem Blind.note (level : Int) (logger message : String) : (note level logger message).Blind :=
  ⟨.ok (), fun _ => ⟨rfl, rfl⟩⟩

theorem Blind.ofExcept {ε : Type} (toError : ε → BuildError) (x : Except ε α) :
    (ofExcept toError x).Blind := by
  cases x with
  | error e => exact .throw (toError e)
  | ok a => exact .pure a

theorem Blind.bind (h : job.Blind) (hnext : ∀ a, (next a).Blind) : (job >>= next).Blind := by
  obtain ⟨outcome, hjob⟩ := h
  have hrun (s : Session) : ∃ t, job.run s = (outcome, t) ∧ t.tree = s.tree :=
    ⟨(job.run s).2, Prod.ext (hjob s).1 rfl, (hjob s).2⟩
  cases outcome with
  | error e =>
    refine ⟨.error e, fun s => ?_⟩
    obtain ⟨t, hfirst, htree⟩ := hrun s
    rw [Step.run_bind, hfirst]
    exact ⟨rfl, htree⟩
  | ok a =>
    obtain ⟨outcome, hrest⟩ := hnext a
    refine ⟨outcome, fun s => ?_⟩
    obtain ⟨t, hfirst, htree⟩ := hrun s
    rw [Step.run_bind, hfirst]
    exact ⟨(hrest t).1, (hrest t).2.trans htree⟩

theorem Blind.foldlM {step : β → α → Job β} (h : ∀ b a, (step b a).Blind) (b : β) (as : List α) :
    (as.foldlM step b).Blind := by
  induction as generalizing b with
  | nil => exact .pure b
  | cons a as ih =>
    rw [List.foldlM_cons]
    exact (h b a).bind ih

theorem Blind.tree_eq {a : α} (h : job.Blind) (hs : job.Yields s a s') : s'.tree = s.tree := by
  obtain ⟨_, hjob⟩ := h
  rw [← (hjob s).2, hs]

/-- What a step answers in one session it answers in every other. -/
theorem Blind.yields {a : α} (h : job.Blind) (hu : job.Yields u a u') (s : Session) :
    ∃ s', job.Yields s a s' ∧ s'.tree = s.tree := by
  obtain ⟨outcome, hjob⟩ := h
  have houtcome : outcome = .ok a := by rw [← (hjob u).1, hu]
  exact ⟨(job.run s).2, Prod.ext ((hjob s).1.trans houtcome) rfl, (hjob s).2⟩

theorem Blind.unique {a b : α} (h : job.Blind) (hs : job.Yields s a s') (hu : job.Yields u b u') :
    a = b := by
  obtain ⟨t, ht, -⟩ := h.yields hs u
  exact Except.ok.inj (congrArg Prod.fst (ht.symm.trans hu))

/-! ## Properties that steps keep -/

/-- If the tree has the property before the step, it has it afterwards, also when the step fails. -/
def Keeps (P : FileTree → Prop) (job : Job α) : Prop :=
  ∀ s, P s.tree → P (job.run s).2.tree

theorem Keeps.of_yields {a : α} (h : job.Keeps P) (hs : P s.tree) (hjob : job.Yields s a s') :
    P s'.tree := by
  have hrun := h s hs
  rwa [hjob] at hrun

theorem Blind.keeps (h : job.Blind) : job.Keeps P := by
  obtain ⟨_, hjob⟩ := h
  intro s hs
  rwa [(hjob s).2]

theorem Keeps.bind (h : job.Keeps P) (hnext : ∀ a, (next a).Keeps P) : (job >>= next).Keeps P := by
  intro s hs
  have hjob := h s hs
  rw [Step.run_bind]
  rcases hrun : job.run s with ⟨e | a, t⟩ <;> rw [hrun] at hjob
  · exact hjob
  · exact hnext a t hjob

/-- A step that looks at the tree finds the property. -/
theorem Keeps.tree_bind {next : FileTree → Job β} (h : ∀ t, P t → (next t).Keeps P) :
    (Job.tree >>= next).Keeps P := by
  intro s hs
  rw [Step.run_bind]
  exact h s.tree hs s hs

theorem Keeps.ofExcept_bind {ε : Type} {toError : ε → BuildError} {x : Except ε α}
    (h : ∀ a, x = .ok a → (next a).Keeps P) : (ofExcept toError x >>= next).Keeps P := by
  intro s hs
  rw [Step.run_bind]
  cases x with
  | error e => exact hs
  | ok a => exact h a rfl s hs

theorem Keeps.setTree {t : FileTree} (h : P t) : (setTree t).Keeps P :=
  fun _ _ => h

theorem Keeps.settle {toError : OsError → BuildError} {outcome : FileTree × Option OsError}
    (h : P outcome.1) : (settle toError outcome).Keeps P := by
  refine (Keeps.setTree h).bind fun _ => ?_
  cases outcome.2 with
  | none => exact (Blind.pure ()).keeps
  | some e => exact (Blind.throw (toError e)).keeps

theorem Keeps.mapM {step : α → Job β} {as : List α} (h : ∀ a ∈ as, (step a).Keeps P) :
    (as.mapM step).Keeps P := by
  induction as with
  | nil => exact (Blind.pure []).keeps
  | cons a as ih =>
    rw [List.forall_mem_cons] at h
    rw [List.mapM_cons]
    exact h.1.bind fun _ => (ih h.2).bind fun _ => (Blind.pure _).keeps

end Job

/-! ## Writing a crate -/

section

open Crate

variable {P : FileTree → Prop} {output : Path} {kept? : Option Path} {files : List SourceFile}

theorem Emission.writeFile_keeps {file : SourceFile}
    (hmake : ∀ t path, P t → P (t.makeDirectories true path).1)
    (hwrite : ∀ t t', P t → t.write (output.below file.path) file.text.toUTF8 = .ok t' → P t') :
    (writeFile output file).Keeps P := by
  refine .tree_bind fun t ht => ?_
  refine (Job.Keeps.settle (hmake t _ ht)).bind fun _ => .tree_bind fun t ht => ?_
  refine .ofExcept_bind fun t' ht' => ?_
  refine (Job.Keeps.setTree (hwrite t t' ht ht')).bind fun _ => ?_
  exact ((Job.Blind.note _ _ _).bind fun _ => .pure _).keeps

theorem Emission.removePrevious_keeps (hremove : ∀ t, P t → P (t.removeDirectory output).1) :
    (removePrevious output).Keeps P := by
  refine .tree_bind fun t ht => ?_
  split
  · exact (Job.Blind.note _ _ _).keeps.bind fun _ => .settle (hremove t ht)
  · exact (Job.Blind.pure ()).keeps

theorem Emission.resetDirectory_keeps
    (hmake : ∀ t path, P t → P (t.makeDirectories false path).1)
    (hremove : ∀ t, P t → P (t.removeDirectory output).1) :
    (resetDirectory output kept?).Keeps P := by
  have hrest : (do
      removePrevious output
      let tree ← Job.tree
      Job.settle (fun e => .fault (.cannotPrepare output e)) (tree.makeDirectories false output)
        : Job Unit).Keeps P :=
    (removePrevious_keeps hremove).bind fun _ =>
      .tree_bind fun t ht => .settle (hmake t output ht)
  unfold resetDirectory
  cases kept? with
  | none => exact hrest
  | some kept =>
    simp only
    split
    · exact (Job.Blind.throw _).keeps.bind fun _ => hrest
    · exact hrest

/-- A crate whose directory holds the one to be kept is refused before anything is done. -/
theorem emit_refused {kept : Path} (h : Emission.deletes output kept = true) (s : Session) :
    (emit output (some kept) files).run s = (.error (.fault (.wouldDelete output kept)), s) := by
  have hreset : (Emission.resetDirectory output (some kept)).run s =
      (.error (.fault (.wouldDelete output kept)), s) := by
    simp only [Emission.resetDirectory, h, if_true]
    rfl
  unfold emit
  rw [Step.run_bind, hreset]

/-- A property is kept if it is when the directory is not refused. -/
theorem emit_keeps {kept : Path}
    (hmake : ∀ t orKeep path, P t → P (t.makeDirectories orKeep path).1)
    (hremove : Emission.deletes output kept = false → ∀ t, P t → P (t.removeDirectory output).1)
    (hwrite : Emission.deletes output kept = false → ∀ file ∈ files, ∀ t t', P t →
      t.write (output.below file.path) file.text.toUTF8 = .ok t' → P t') :
    (emit output (some kept) files).Keeps P := by
  cases hdeletes : Emission.deletes output kept with
  | true =>
    intro s hs
    rwa [emit_refused hdeletes]
  | false =>
    refine (Emission.resetDirectory_keeps (hmake · false) (hremove hdeletes)).bind fun _ => ?_
    refine (Job.Keeps.mapM fun file hfile => ?_).bind fun _ => ?_
    · exact Emission.writeFile_keeps (hmake · true) (hwrite hdeletes file hfile)
    · exact ((Job.Blind.note _ _ _).bind fun _ => .pure _).keeps

end

/-! ## Reading the archives -/

namespace Discovery

variable {P : FileTree → Prop} {root directory : Path} {extension : String}

theorem entriesOf_keeps {test : FileTree → String → Bool} : (entriesOf directory test).Keeps P :=
  .tree_bind fun _ _ => .ofExcept_bind fun _ _ => (Job.Blind.pure _).keeps

theorem readDocument_keeps {archive filename : String} :
    (readDocument archive directory filename).Keeps P := by
  refine .tree_bind fun t _ => ?_
  split
  · exact (Job.Blind.pure _).keeps
  · exact (Job.Blind.throw _).keeps
  · exact (Job.Blind.throw _).keeps

theorem readArchive_keeps {name : String} : (readArchive root extension name).Keeps P := by
  refine .tree_bind fun t _ => ?_
  split
  · refine entriesOf_keeps.bind fun filenames => ?_
    refine (Job.Keeps.mapM fun _ _ => readDocument_keeps).bind fun documents => ?_
    exact ((Job.Blind.note _ _ _).bind fun _ => .pure _).keeps
  · exact (Job.Blind.pure _).keeps

theorem ensureRoot_keeps (hmake : ∀ t path, P t → P (t.makeDirectories true path).1) :
    (ensureRoot root).Keeps P := by
  refine .tree_bind fun t ht => ?_
  split
  · exact (Job.Blind.pure ()).keeps
  · exact (Job.Blind.note _ _ _).keeps.bind fun _ => .settle (hmake t root ht)

end Discovery

theorem discover_keeps {P : FileTree → Prop} {root : Path} {extension : String}
    (hmake : ∀ t path, P t → P (t.makeDirectories true path).1) :
    (discover root extension).Keeps P := by
  refine (Discovery.ensureRoot_keeps hmake).bind fun _ => ?_
  refine Discovery.entriesOf_keeps.bind fun names => ?_
  exact (Job.Keeps.mapM fun _ _ => Discovery.readArchive_keeps).bind fun _ =>
    (Job.Blind.pure _).keeps

/-! ## Building -/

theorem Crate.paths_contractFiles (contract : Contract) :
    (contractFiles contract).map (·.path) = [["Cargo.toml"], ["src", "lib.rs"], ["README.md"]] :=
  rfl

theorem Crate.parentStep_not_mem_contractFiles {contract : Contract} :
    ∀ file ∈ contractFiles contract, Path.parentStep ∉ file.path := by
  intro file hfile
  have hpath := List.mem_map_of_mem (f := SourceFile.path) hfile
  rw [paths_contractFiles] at hpath
  have hown : ∀ path ∈ [["Cargo.toml"], ["src", "lib.rs"], ["README.md"]],
      Path.parentStep ∉ path := by decide
  exact hown file.path hpath

theorem Crate.layable_contractFiles (contract : Contract) :
    Emission.Layable ((contractFiles contract).map (·.path)) := by
  rw [paths_contractFiles]
  refine ⟨by decide, ?_, by decide⟩
  unfold FileTree.Fits
  decide

theorem registerDocument_blind (store : RegistryStore) (document : SchemaDocument) :
    (registerDocument store document).Blind :=
  (Job.Blind.ofExcept _ _).bind fun _ => (Job.Blind.note _ _ _).bind fun _ => .pure _

theorem validateRegistry_blind (registry : Registry) : (validateRegistry registry).Blind := by
  unfold validateRegistry
  split
  · exact .note _ _ _
  · exact .throw _

namespace Settings

variable {P : FileTree → Prop} {settings : Settings} {root : Path} {target : BuildTarget}

theorem classifyRegistry_blind (settings : Settings) (registry : Registry) :
    (settings.classifyRegistry registry).Blind :=
  (Job.Blind.note _ _ _).bind fun _ => .pure _

theorem planScaffold_blind (settings : Settings) (checked : Checked) :
    (settings.planScaffold checked).Blind := by
  refine (Job.Blind.ofExcept _ _).bind fun planned => ?_
  cases planned with
  | some scaffold => exact .pure _
  | none => exact (Job.Blind.note _ _ _).bind fun _ => .pure _

/-- The directories that a build replaces. -/
def rebuilt (settings : Settings) (root : Path) (target : BuildTarget) : List Path :=
  (if target.includesModels then [workspaceDirectory root settings.outputDirectory] else []) ++
    if target.includesContract then [workspaceDirectory root settings.contractDirectory] else []

theorem registerDocuments_blind (ordering : DocumentOrder) (documents : List SchemaDocument) :
    (registerDocuments ordering documents).Blind := by
  refine (Job.Blind.ofExcept _ _).bind fun ordered => ?_
  refine (Job.Blind.foldlM registerDocument_blind _ _).bind fun store => ?_
  exact (validateRegistry_blind store.registry).bind fun _ => .pure _

theorem registerDocuments_succeeds {ordering : DocumentOrder}
    {documents ordered : List SchemaDocument} {store : RegistryStore} {s t : Session}
    (hordered : orderDocuments ordering documents = .ok ordered)
    (hstore : (ordered.foldlM registerDocument {}).Yields s store t)
    (hvalid : store.registry.validate = []) :
    ∃ u, (registerDocuments ordering documents).Yields s (ordered, store.registry) u := by
  obtain ⟨u, hu⟩ : ∃ u, (validateRegistry store.registry).Yields t () u := by
    unfold validateRegistry
    rw [hvalid]
    exact ⟨_, Job.yields_note.mpr rfl⟩
  refine ⟨u, ?_⟩
  unfold registerDocuments
  simp only [Job.yields_bind, Job.yields_ofExcept, Job.yields_pure]
  exact ⟨ordered, s, ⟨hordered, rfl⟩, store, t, hstore, (), u, hu, rfl, rfl⟩

/-- What a check reports about what was found and registered. -/
def checkedFrom (settings : Settings) (found : Discovery) (documents : List SchemaDocument)
    (registry : Registry) : Checked :=
  checkedOf ⟨registry, found.archives, documents, found.diagnostics⟩
    (registry.classify settings.classification)

/-- A check finds the archives and registers their documents. Only the first looks at the tree. -/
theorem check_yields {s : Session} {checked : Checked} {t : FileTree} :
    (∃ s', (settings.check root).Yields s checked s' ∧ s'.tree = t) ↔
      ∃ found u documents registry u',
        (discover (settings.archivesRoot root) settings.modelExtension).Yields s found u ∧
          u.tree = t ∧
        (registerDocuments settings.ordering (found.archives.flatMap (·.documents))).Yields u
          (documents, registry) u' ∧
        checked = settings.checkedFrom found documents registry := by
  unfold check load classifyRegistry Job.info
  simp only [Job.yields_bind, Job.yields_pure, Job.yields_note]
  constructor
  · rintro ⟨s', ⟨_, _, ⟨found, u, hfound, ⟨documents, registry⟩, u', hregistered, _, _, rfl, rfl,
      rfl⟩, _, _, ⟨_, _, rfl, rfl, rfl⟩, rfl, rfl⟩, rfl⟩
    have htree := (registerDocuments_blind _ _).tree_eq hregistered
    exact ⟨found, u, documents, registry, u', hfound, htree.symm, hregistered, rfl⟩
  · rintro ⟨found, u, documents, registry, u', hfound, rfl, hregistered, rfl⟩
    have htree := (registerDocuments_blind _ _).tree_eq hregistered
    exact ⟨_, ⟨_, _, ⟨found, u, hfound, (documents, registry), u', hregistered, (), _, rfl, rfl,
      rfl⟩, _, _, ⟨(), _, rfl, rfl, rfl⟩, rfl, rfl⟩, htree⟩

theorem check_keeps (hmake : ∀ t path, P t → P (t.makeDirectories true path).1) :
    (settings.check root).Keeps P := by
  have hload :
      (load (settings.archivesRoot root) settings.modelExtension settings.ordering).Keeps P := by
    refine (discover_keeps hmake).bind fun found => ?_
    exact ((registerDocuments_blind _ _).bind fun _ =>
      (Job.Blind.note _ _ _).bind fun _ => .pure _).keeps
  refine hload.bind fun loaded => ?_
  exact ((classifyRegistry_blind settings loaded.registry).bind fun _ => .pure _).keeps

theorem check_rooted : (settings.check root).Keeps FileTree.Rooted :=
  check_keeps fun _ path ht => ht.makeDirectories true path

/-- A build keeps what making directories keeps, and also removing and writing in those that it
replaces. -/
theorem build_keeps (hmake : ∀ t orKeep path, P t → P (t.makeDirectories orKeep path).1)
    (hremove : ∀ d ∈ settings.rebuilt root target,
      Emission.deletes d (settings.archivesRoot root) = false → ∀ t,
        P t → P (t.removeDirectory d).1)
    (hwrite : ∀ d ∈ settings.rebuilt root target,
      Emission.deletes d (settings.archivesRoot root) = false →
      ∀ names content t t', Path.parentStep ∉ names → P t →
        t.write (d.below names) content = .ok t' → P t') :
    (settings.build root target).Keeps P := by
  have hemit {d : Path} {files : List Crate.SourceFile} (hd : d ∈ settings.rebuilt root target)
      (hfiles : ∀ file ∈ files, Path.parentStep ∉ file.path) :
      (emit d (some (settings.archivesRoot root)) files).Keeps P :=
    emit_keeps hmake (hremove d hd) fun hdeletes file hfile t t' =>
      hwrite d hd hdeletes file.path file.text.toUTF8 t t' (hfiles file hfile)
  refine (check_keeps (hmake · true)).bind fun checked => ?_
  refine Job.Keeps.bind ?_ fun models => Job.Keeps.bind ?_ fun contract => ?_
  · unfold modelsPart
    split
    · rename_i hmodels
      refine (planScaffold_blind settings checked).keeps.bind fun planned => ?_
      refine (hemit ?_ Crate.parentStep_not_mem_dataFiles).bind fun _ => (Job.Blind.pure _).keeps
      simp [rebuilt, hmodels]
    · exact (Job.Blind.pure _).keeps
  · unfold contractPart
    split
    · rename_i hcontract
      refine (Job.Blind.note _ _ _).keeps.bind fun _ => ?_
      refine (hemit ?_ Crate.parentStep_not_mem_contractFiles).bind fun _ =>
        (Job.Blind.pure _).keeps
      simp [rebuilt, hcontract]
    · exact (Job.Blind.pure _).keeps
  · exact ((Job.Blind.note _ _ _).bind fun _ => .pure _).keeps

/-- A build leaves a tree as a file system has it. -/
theorem build_proper : (settings.build root target).Keeps FileTree.Proper :=
  build_keeps (fun _ orKeep path ht => ht.makeDirectories orKeep path)
    (fun d _ _ _ ht => ht.removeDirectory d)
    (fun _ _ _ _ _ _ _ _ ht hwrite => ht.write hwrite)

end Settings

end Covenant

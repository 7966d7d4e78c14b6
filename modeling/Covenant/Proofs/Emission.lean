/-
Writing a crate. When it succeeds, every path was written, in order, and each of these
files holds the text that was written to it last (`emit_wrote`). It does succeed once the
output directory is prepared, if the names of the files fit and no file is in the way of
another (`emit_succeeds`).

Both follow from one step, by induction on the files: a step makes directories and writes
one file (`Emission.writeFile_yields`); it leaves the other files as they are
(`Emission.writeFiles_keeps`) and is not in their way (`Emission.Ready.writeFile`).
-/
import Covenant.Build.Emit
import Covenant.Proofs.RootedTrees

namespace Covenant

/-! ## Steps of a run -/

namespace Job

variable {α β : Type} {s s' : Session}

/-- The step succeeds with a value and leaves a session. -/
def Yields (job : Job α) (s : Session) (a : α) (s' : Session) : Prop :=
  job.run s = (.ok a, s')

theorem yields_of_run {job : Job α} {a : α} (h : (job.run s).1 = .ok a) :
    job.Yields s a (job.run s).2 :=
  Prod.ext h rfl

theorem yields_bind {job : Job α} {next : α → Job β} {b : β} :
    (job >>= next).Yields s b s' ↔ ∃ a t, job.Yields s a t ∧ (next a).Yields t b s' := by
  unfold Yields
  rw [Step.run_bind]
  rcases job.run s with ⟨e | a, t⟩
  · constructor
    · intro h
      cases h
    · rintro ⟨_, _, h, -⟩
      cases h
  · constructor
    · intro h
      exact ⟨a, t, rfl, h⟩
    · rintro ⟨_, _, h, hnext⟩
      cases h
      exact hnext

@[simp] theorem yields_pure {a b : α} : (pure a : Job α).Yields s b s' ↔ b = a ∧ s' = s := by
  change ((Except.ok a, s) : Except BuildError α × Session) = (.ok b, s') ↔ _
  simp [eq_comm]

@[simp] theorem yields_throw {e : BuildError} {a : α} : ¬ (throw e : Job α).Yields s a s' := by
  change ¬ ((Except.error e, s) : Except BuildError α × Session) = (.ok a, s')
  simp

@[simp] theorem yields_tree {t : FileTree} : Job.tree.Yields s t s' ↔ t = s.tree ∧ s' = s := by
  change ((Except.ok s.tree, s) : Except BuildError FileTree × Session) = (.ok t, s') ↔ _
  simp [eq_comm]

@[simp] theorem yields_setTree {t : FileTree} {u : Unit} :
    (setTree t).Yields s u s' ↔ s' = { s with tree := t } := by
  change ((Except.ok (), { s with tree := t }) : Except BuildError Unit × Session) = (.ok u, s') ↔ _
  simp [eq_comm]

@[simp] theorem yields_note {level : Int} {logger message : String} {u : Unit} :
    (note level logger message).Yields s u s' ↔
      s' = { s with log := s.log ++ [⟨level, rootLogger ++ "." ++ logger, message⟩] } := by
  change ((Except.ok (), Session.mk s.tree
    (s.log ++ [⟨level, rootLogger ++ "." ++ logger, message⟩])) :
      Except BuildError Unit × Session) = (.ok u, s') ↔ _
  simp [eq_comm]

@[simp] theorem yields_ofExcept {ε : Type} {toError : ε → BuildError} {x : Except ε α} {a : α} :
    (ofExcept toError x).Yields s a s' ↔ x = .ok a ∧ s' = s := by
  cases x with
  | error e => simp [ofExcept]
  | ok b => simp [ofExcept, eq_comm]

@[simp] theorem yields_settle {toError : OsError → BuildError} {outcome : FileTree × Option OsError}
    {u : Unit} :
    (settle toError outcome).Yields s u s' ↔
      outcome.2 = none ∧ s' = { s with tree := outcome.1 } := by
  obtain ⟨t, e?⟩ := outcome
  cases e? <;> simp [settle, yields_bind]

/-- Steps taken for each item of a list, one after the other. -/
theorem yields_mapM_cons {step : α → Job β} {a : α} {as : List α} {bs : List β} :
    ((a :: as).mapM step).Yields s bs s' ↔
      ∃ b t others, (step a).Yields s b t ∧ (as.mapM step).Yields t others s' ∧
        bs = b :: others := by
  rw [List.mapM_cons]
  simp only [yields_bind, yields_pure]
  constructor
  · rintro ⟨b, t, hb, others, t', hothers, rfl, rfl⟩
    exact ⟨b, t, others, hb, hothers, rfl⟩
  · rintro ⟨b, t, others, hb, hothers, rfl⟩
    exact ⟨b, t, hb, others, s', hothers, rfl, rfl⟩

end Job

/-! ## Writing files -/

namespace Emission

open Crate

variable {output : Path} {file : SourceFile} {files : List SourceFile} {s s' : Session}
  {written : List Path}

/-- Writing a file makes its directories, writes it and leaves a log record. -/
theorem writeFile_yields {path : Path} :
    (writeFile output file).Yields s path s' ↔
      path = output.below file.path ∧
        ∃ t, s.tree.makeDirectories true (output.below file.path).parent = (t, none) ∧
          t.write (output.below file.path) file.text.toUTF8 = .ok s'.tree ∧
          s'.log = s.log ++ [⟨LogLevel.debug, rootLogger ++ "." ++ logger,
            s!"Wrote {(output.below file.path).text}"⟩] := by
  unfold writeFile Job.debug
  simp only [Job.yields_bind, Job.yields_tree, Job.yields_settle, Job.yields_ofExcept,
    Job.yields_setTree, Job.yields_note, Job.yields_pure]
  constructor
  · rintro ⟨_, _, ⟨rfl, rfl⟩, _, _, ⟨hmade, rfl⟩, _, _, ⟨rfl, rfl⟩, t, _, ⟨hwrite, rfl⟩, _, _, rfl,
      _, _, rfl, rfl, rfl⟩
    exact ⟨rfl, _, Prod.ext rfl hmade, hwrite, rfl⟩
  · rintro ⟨rfl, t, hmade, hwrite, hlog⟩
    obtain ⟨tree, log⟩ := s'
    obtain rfl : log = _ := hlog
    refine ⟨_, _, ⟨rfl, rfl⟩, (), _, ⟨by rw [hmade], rfl⟩, _, _, ⟨rfl, rfl⟩, tree, _, ⟨?_, rfl⟩,
      (), _, rfl, (), _, rfl, rfl, rfl⟩
    rw [hmade]
    exact hwrite

/-- A file that is not written stays as it is. -/
theorem writeFiles_keeps {names : List String} {content : ByteArray}
    (h : (files.mapM (writeFile output)).Yields s written s')
    (hfiles : ∀ file ∈ files, Path.parentStep ∉ file.path) (hnames : Path.parentStep ∉ names)
    (hother : ∀ file ∈ files, file.path ≠ names)
    (hread : s.tree.read (output.below names) = .ok content) :
    s'.tree.read (output.below names) = .ok content := by
  induction files generalizing s written with
  | nil =>
    obtain ⟨-, rfl⟩ := Job.yields_pure.mp h
    exact hread
  | cons file files ih =>
    rw [List.forall_mem_cons] at hfiles hother
    obtain ⟨_, _, _, hfile, hrest, rfl⟩ := Job.yields_mapM_cons.mp h
    obtain ⟨-, t, hmade, hwrite, -⟩ := writeFile_yields.mp hfile
    have hgrows := s.tree.makeDirectories_grows true (output.below file.path).parent
    rw [hmade] at hgrows
    exact ih hrest hfiles.2 hother.2
      (FileTree.read_write_other hwrite hother.1.symm hfiles.1 hnames (hgrows.read hread))

/-- The files have been written: the paths are theirs, their names can stand in a directory, and
each file holds what was written to it last. -/
structure Wrote (output : Path) (files : List SourceFile) (written : List Path) (tree : FileTree) :
    Prop where
  paths : written = files.map (fun file => output.below file.path)
  sizes : ∀ file ∈ files, ∀ name ∈ file.path, name.utf8ByteSize ≤ FileTree.maxNameBytes
  last : ∀ before file after, files = before ++ file :: after → (∀ g ∈ after, g.path ≠ file.path) →
    tree.read (output.below file.path) = .ok file.text.toUTF8

theorem writeFiles_wrote (h : (files.mapM (writeFile output)).Yields s written s')
    (hfiles : ∀ file ∈ files, Path.parentStep ∉ file.path) :
    Wrote output files written s'.tree := by
  induction files generalizing s written with
  | nil =>
    obtain ⟨rfl, -⟩ := Job.yields_pure.mp h
    exact ⟨rfl, by simp, by simp⟩
  | cons first files ih =>
    rw [List.forall_mem_cons] at hfiles
    obtain ⟨_, _, _, hfirst, hrest, rfl⟩ := Job.yields_mapM_cons.mp h
    obtain ⟨rfl, t, -, hwrite, -⟩ := writeFile_yields.mp hfirst
    obtain ⟨hpaths, hsizes, hlast⟩ := ih hrest hfiles.2
    refine ⟨by rw [hpaths, List.map_cons], ?_, fun before file after hsplit hafter => ?_⟩
    · obtain ⟨_, hlocated, -⟩ := FileTree.write_cases hwrite
      obtain ⟨_, -, -, hnames⟩ := FileTree.locate_below_cases hfiles.1 hlocated
      exact List.forall_mem_cons.mpr ⟨hnames, hsizes⟩
    · cases before with
      | nil =>
        obtain ⟨rfl, rfl⟩ := List.cons.inj hsplit
        exact writeFiles_keeps hrest hfiles.2 hfiles.1 hafter (FileTree.read_write hwrite)
      | cons _ before =>
        exact hlast before file after (List.cons.inj hsplit).2 hafter

/-! ## Files that can be written -/

/-- Paths of files that can stand in one directory: their names fit, and no file is in the way of
another. -/
structure Layable (paths : List (List String)) : Prop where
  nonempty : ∀ path ∈ paths, path ≠ []
  fits : ∀ path ∈ paths, FileTree.Fits path
  free : ∀ path ∈ paths, ∀ other ∈ paths, path <+: other → path = other

/-- The output directory is there, and what it holds is not in the way of the files. -/
structure Ready (output : Path) (place : Place) (paths : List (List String)) (t : FileTree) :
    Prop where
  rooted : t.Rooted
  located : t.locate output = .ok place
  directory : t.node? place = some .directory
  ways : ∀ path ∈ paths, ∀ part, part <+: path → part ≠ path → ∀ content,
    t.node? (place ++ part) ≠ some (.file content)
  ends : ∀ path ∈ paths, t.node? (place ++ path) ≠ some .directory

theorem Ready.of_emptyAt {place : Place} {paths : List (List String)} {t : FileTree} (ht : t.Rooted)
    (h : t.EmptyAt output place) (hpaths : ∀ path ∈ paths, path ≠ []) :
    Ready output place paths t where
  rooted := ht
  located := h.located
  directory := h.directory
  ways := fun path _ part _ _ content hnode => by
    by_cases hpart : part = []
    · rw [hpart, List.append_nil, h.directory] at hnode
      cases hnode
    · rw [h.empty part hpart] at hnode
      cases hnode
  ends := fun path hpath hnode => by
    rw [h.empty path (hpaths path hpath)] at hnode
    cases hnode

/-- What lies on the way to a path is shorter than the path. -/
theorem prefix_directory {names part : List String} (h : part <+: names) (name : String) :
    part <+: names ++ [name] ∧ part ≠ names ++ [name] := by
  refine ⟨h.trans (List.prefix_append names [name]), ?_⟩
  rintro rfl
  have hlength := h.length_le
  rw [List.length_append, List.length_singleton] at hlength
  omega

section

variable {place : Place} {paths : List (List String)} {names : List String} {name : String}
  {t : FileTree}

/-- The directories of a file can be made; they are not in the way of the files. -/
theorem Ready.makeDirectories (h : Ready output place paths t) (hpaths : Layable paths)
    (hpath : names ++ [name] ∈ paths) :
    ∃ t', t.makeDirectories true (output.below names) = (t', none) ∧
      t'.node? (place ++ names) = some .directory ∧ Ready output place paths t' := by
  obtain ⟨t', hmade, hnode, hadds⟩ := h.rooted.makeDirectories_below h.located h.directory
    (List.forall_mem_append.mp (hpaths.fits _ hpath)).1 fun part hpart =>
      h.ways _ hpath part (prefix_directory hpart name).1 (prefix_directory hpart name).2
  have hgrows := t.makeDirectories_grows true (output.below names)
  have hrooted := h.rooted.makeDirectories true (output.below names)
  rw [hmade] at hgrows hrooted
  refine ⟨t', hmade, hnode, hrooted, hgrows.keepsDirectories.follow h.located,
    hgrows place .directory h.directory, ?_, ?_⟩
  · intro path hmem part hpart hne content hfound
    rcases hadds (place ++ part) with hsame | ⟨hdirectory, -⟩
    · exact h.ways path hmem part hpart hne content (hsame ▸ hfound)
    · rw [hdirectory] at hfound
      cases hfound
  · intro path hmem hdirectory
    rcases hadds (place ++ path) with hsame | ⟨-, part, hpart, heq⟩
    · exact h.ends path hmem (hsame ▸ hdirectory)
    · -- a path of a file that is a directory of another
      obtain rfl := List.append_cancel_left heq
      obtain ⟨hshort, hne⟩ := prefix_directory hpart name
      exact hne (hpaths.free _ hmem _ hpath hshort)

/-- A file can be written into its directory; it is not in the way of the others. -/
theorem Ready.write (h : Ready output place paths t) (hpaths : Layable paths)
    (hpath : names ++ [name] ∈ paths) (hnode : t.node? (place ++ names) = some .directory)
    (content : ByteArray) :
    ∃ t', t.write (output.below (names ++ [name])) content = .ok t' ∧
      Ready output place paths t' := by
  have hlocated := h.rooted.locate_below h.located (hpaths.fits _ hpath) hnode
  obtain ⟨t', hwrite⟩ : ∃ t', t.write (output.below (names ++ [name])) content = .ok t' :=
    ⟨_, FileTree.write_eq_ok.mpr ⟨_, hlocated, h.ends _ hpath, rfl⟩⟩
  obtain ⟨target, htarget, hkeeps, hnodes⟩ := FileTree.write_cases hwrite
  obtain rfl : target = place ++ (names ++ [name]) := Except.ok.inj (htarget.symm.trans hlocated)
  refine ⟨t', hwrite, h.rooted.write hwrite, hkeeps.follow h.located,
    hkeeps place h.directory, ?_, ?_⟩
  · intro path hmem part hpart hne other hfound
    rw [hnodes] at hfound
    split at hfound
    · rename_i hsame
      obtain rfl := List.append_cancel_left hsame
      exact hne (hpaths.free _ hpath _ hmem hpart)
    · exact h.ways path hmem part hpart hne other hfound
  · intro path hmem hfound
    rw [hnodes] at hfound
    split at hfound
    · cases hfound
    · exact h.ends path hmem hfound

/-- A file can be written, and the others can be written still. -/
theorem Ready.writeFile (h : Ready output place paths s.tree) (hpaths : Layable paths)
    (hfile : file.path ∈ paths) :
    ∃ path s', (writeFile output file).Yields s path s' ∧ Ready output place paths s'.tree := by
  obtain ⟨names, name, hpath⟩ : ∃ names name, file.path = names ++ [name] := by
    rcases List.eq_nil_or_concat file.path with hnil | ⟨names, name, hpath⟩
    · exact absurd hnil (hpaths.nonempty _ hfile)
    · exact ⟨names, name, by rw [hpath, List.concat_eq_append]⟩
  have hparent : (output.below file.path).parent = output.below names := by
    simp [Path.parent, Path.below, hpath, ← List.append_assoc]
  rw [hpath] at hfile
  obtain ⟨t, hmade, hnode, hready⟩ := h.makeDirectories hpaths hfile
  obtain ⟨t', hwrite, hready⟩ := hready.write hpaths hfile hnode file.text.toUTF8
  rw [← hpath] at hwrite
  rw [← hparent] at hmade
  exact ⟨_, ⟨t', _⟩, writeFile_yields.mpr ⟨rfl, t, hmade, hwrite, rfl⟩, hready⟩

end

/-- Files that can stand in one directory can be written, one after the other. -/
theorem Ready.writeFiles {place : Place} {paths : List (List String)}
    (h : Ready output place paths s.tree) (hpaths : Layable paths)
    (hfiles : ∀ file ∈ files, file.path ∈ paths) :
    ∃ written s', (files.mapM (Emission.writeFile output)).Yields s written s' := by
  induction files generalizing s with
  | nil => exact ⟨[], s, Job.yields_pure.mpr ⟨rfl, rfl⟩⟩
  | cons file files ih =>
    rw [List.forall_mem_cons] at hfiles
    obtain ⟨path, t, hfile, hready⟩ := h.writeFile hpaths hfiles.1
    obtain ⟨written, s', hrest⟩ := ih hready hfiles.2
    exact ⟨path :: written, s', Job.yields_mapM_cons.mpr ⟨path, t, written, hfile, hrest, rfl⟩⟩

/-- What the path leads to is removed, or it leads to nothing. -/
theorem removePrevious_cases {u : Unit} (h : (removePrevious output).Yields s u s') :
    s.tree.hasEntry output = true ∧ s.tree.removeDirectory output = (s'.tree, none) ∨
      s.tree.hasEntry output = false ∧ s' = s := by
  unfold removePrevious Job.debug at h
  simp only [Job.yields_bind, Job.yields_tree] at h
  obtain ⟨_, _, ⟨rfl, rfl⟩, h⟩ := h
  split at h
  · rename_i hentry
    simp only [Job.yields_bind, Job.yields_note, Job.yields_settle] at h
    obtain ⟨_, _, rfl, hnone, rfl⟩ := h
    exact .inl ⟨hentry, Prod.ext rfl hnone⟩
  · rename_i hentry
    exact .inr ⟨by simpa using hentry, (Job.yields_pure.mp h).2⟩

theorem removePrevious_rooted {u : Unit} (hs : s.tree.Rooted)
    (h : (removePrevious output).Yields s u s') : s'.tree.Rooted := by
  obtain ⟨-, hremoved⟩ | ⟨-, rfl⟩ := removePrevious_cases h
  · have hrooted := hs.removeDirectory output
    rwa [hremoved] at hrooted
  · exact hs

/-- The directory to be kept is looked at first; then the output directory is removed and made. -/
theorem resetDirectory_yields {kept? : Option Path} {u : Unit} :
    (resetDirectory output kept?).Yields s u s' ↔
      (∀ kept ∈ kept?, deletes output kept = false) ∧
        ∃ t, (removePrevious output).Yields s () t ∧
          t.tree.makeDirectories false output = (s'.tree, none) ∧ s'.log = t.log := by
  have hrest : (do
      removePrevious output
      let tree ← Job.tree
      Job.settle (fun e => .fault (.cannotPrepare output e)) (tree.makeDirectories false output)
        : Job Unit).Yields s u s' ↔
      ∃ t, (removePrevious output).Yields s () t ∧
        t.tree.makeDirectories false output = (s'.tree, none) ∧ s'.log = t.log := by
    simp only [Job.yields_bind, Job.yields_tree, Job.yields_settle]
    constructor
    · rintro ⟨_, t, hremoved, _, _, ⟨rfl, rfl⟩, hmade, rfl⟩
      exact ⟨_, hremoved, Prod.ext rfl hmade, rfl⟩
    · rintro ⟨t, hremoved, hmade, hlog⟩
      obtain ⟨tree, log⟩ := s'
      obtain rfl : log = t.log := hlog
      exact ⟨(), t, hremoved, _, t, ⟨rfl, rfl⟩, by rw [hmade], by rw [hmade]⟩
  rw [← hrest]
  unfold resetDirectory
  cases kept? with
  | none => simp
  | some kept =>
    simp only
    split
    · rename_i hdeletes
      simp [Job.yields_bind, hdeletes]
    · rename_i hdeletes
      simp [hdeletes]

/-- The output directory can be replaced: that does not delete the directory to be kept, what stands
there can be removed, and then it can be made. -/
structure Replaceable (output : Path) (kept? : Option Path) (t : FileTree) : Prop where
  spared : ∀ kept ∈ kept?, deletes output kept = false
  removed : t.hasEntry output = true → (t.removeDirectory output).2 = none
  made : ((if t.hasEntry output then (t.removeDirectory output).1 else t).makeDirectories false
    output).2 = none

theorem Replaceable.resetDirectory {kept? : Option Path} (h : Replaceable output kept? s.tree) :
    ∃ prepared, (resetDirectory output kept?).Yields s () prepared := by
  obtain ⟨hspared, hremoved, hmade⟩ := h
  obtain ⟨t, ht, htree⟩ : ∃ t, (removePrevious output).Yields s () t ∧ t.tree =
      if s.tree.hasEntry output then (s.tree.removeDirectory output).1 else s.tree := by
    unfold removePrevious Job.debug
    simp only [Job.yields_bind, Job.yields_tree]
    cases hentry : s.tree.hasEntry output with
    | false => exact ⟨s, ⟨s.tree, s, ⟨rfl, rfl⟩, by simp [hentry]⟩, rfl⟩
    | true =>
      obtain ⟨t, ht, htree⟩ : ∃ t, (do
          Job.note LogLevel.debug logger s!"Removing previous output {output.text}"
          Job.settle (fun e => .fault (.cannotPrepare output e)) (s.tree.removeDirectory output)
            : Job Unit).Yields s () t ∧ t.tree = (s.tree.removeDirectory output).1 := by
        simp only [Job.yields_bind, Job.yields_note, Job.yields_settle]
        exact ⟨_, ⟨(), _, rfl, hremoved hentry, rfl⟩, rfl⟩
      exact ⟨t, ⟨s.tree, s, ⟨rfl, rfl⟩, by rwa [if_pos hentry]⟩, htree⟩
  rw [← htree] at hmade
  exact ⟨⟨(t.tree.makeDirectories false output).1, t.log⟩,
    resetDirectory_yields.mpr ⟨hspared, t, ht, Prod.ext rfl hmade, rfl⟩⟩

/-- The output directory has been replaced by an empty one. -/
theorem resetDirectory_emptyAt {kept? : Option Path} {u : Unit} (hs : s.tree.Rooted)
    (h : (resetDirectory output kept?).Yields s u s') :
    s'.tree.Rooted ∧ ∃ place, s'.tree.EmptyAt output place := by
  obtain ⟨-, t, hremoved, hmade, -⟩ := resetDirectory_yields.mp h
  have ht := removePrevious_rooted hs hremoved
  have hrooted := ht.makeDirectories false output
  rw [hmade] at hrooted
  exact ⟨hrooted, ht.emptyAt_makeDirectories hmade⟩

end Emission

/-! ## Writing a crate -/

section

variable {output : Path} {kept? : Option Path} {files : List Crate.SourceFile} {s s' : Session}

theorem emit_prepared {written : List Path} (h : (emit output kept? files).Yields s written s') :
    ∃ prepared, (Emission.resetDirectory output kept?).Yields s () prepared := by
  unfold emit at h
  simp only [Job.yields_bind] at h
  obtain ⟨_, prepared, hreset, -⟩ := h
  exact ⟨prepared, hreset⟩

theorem emit_wrote {written : List Path} (h : (emit output kept? files).Yields s written s')
    (hfiles : ∀ file ∈ files, Path.parentStep ∉ file.path) :
    Emission.Wrote output files written s'.tree := by
  unfold emit Job.info at h
  simp only [Job.yields_bind, Job.yields_note, Job.yields_pure] at h
  obtain ⟨_, _, -, _, t, hwritten, _, _, rfl, rfl, rfl⟩ := h
  have hwrote : Emission.Wrote output files written t.tree :=
    Emission.writeFiles_wrote hwritten hfiles
  exact hwrote

/-- Once the output directory is prepared, files that can stand in it are written. -/
theorem emit_succeeds {prepared : Session} (hs : s.tree.Rooted)
    (hreset : (Emission.resetDirectory output kept?).Yields s () prepared)
    (hfiles : Emission.Layable (files.map (·.path))) :
    ∃ written s', (emit output kept? files).Yields s written s' := by
  obtain ⟨hrooted, place, hempty⟩ := Emission.resetDirectory_emptyAt hs hreset
  have hready := Emission.Ready.of_emptyAt hrooted hempty hfiles.nonempty
  obtain ⟨written, t, hwritten⟩ :=
    hready.writeFiles hfiles fun file hfile => List.mem_map_of_mem hfile
  unfold emit Job.info
  simp only [Job.yields_bind, Job.yields_note, Job.yields_pure]
  exact ⟨written, _, (), prepared, hreset, written, t, hwritten, (), _, rfl, rfl, rfl⟩

end

end Covenant

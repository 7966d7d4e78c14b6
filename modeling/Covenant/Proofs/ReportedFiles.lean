/-
Whether the files that a build reports are there when it is done. The contract crate is
written after the data crate, and its directory is replaced as a whole. So a file of the data
crate can be gone: it may lie in that directory, and its path may pass through a place there
that is no longer a directory. All other files hold what was written to them last, which for
a path that both crates have is the text of the contract crate. Whether any path is lost is
known from the two directories (`Settings.build_reported`).

The argument is about one crate and one path by which a file could be read before. In the
directory of the crate there is then nothing but the crate, and elsewhere nothing is lost. So
the path leads to a file still if and only if all that it meets in the directory belongs to
the crate (`Emission.emit_read_iff`).
-/
import Covenant.Proofs.SourceSurvival

namespace Covenant

open Crate

namespace Emission

variable {output : Path} {files : List SourceFile} {paths : List (List String)} {path kept : Path}
  {names : List String} {q : Place} {s s' : Session} {written : List Path}

/-- The directories on the ways to the files of a crate. -/
def ways (output : Path) (paths : List (List String)) : List Place :=
  paths.flatMap fun names => (output.below names).parent.visits

/-- A crate spares a path: where the path passes through the directory of the crate, or ends there,
it meets a directory or a file of the crate. -/
structure Spares (output : Path) (paths : List (List String)) (path : Path) : Prop where
  way : ∀ q ∈ path.parent.visits, FileTree.isWithin output.place q = true → q ∈ ways output paths
  file : FileTree.isWithin output.place path.place = true →
    ∃ names ∈ paths, path.place = output.place ++ names

/-- A crate spares its own files. -/
theorem Spares.own (hnames : names ∈ paths) (hdown : Path.parentStep ∉ names) :
    Spares output paths (output.below names) where
  way := fun _ hq _ => List.mem_flatMap.mpr ⟨names, hnames, hq⟩
  file := fun _ => ⟨names, hnames, Path.place_below output hdown⟩

/-! ## What is left of a path -/

/-- Outside its directory a crate takes nothing away. -/
theorem emit_frame {node : FileNode} (hfiles : ∀ file ∈ files, Path.parentStep ∉ file.path)
    (hq : FileTree.isWithin output.place q = false) :
    (emit output (some kept) files).Keeps fun t => t.node? q = some node := by
  refine emit_keeps (fun t orKeep path ht => ?_) (fun _ t ht => ?_)
    (fun _ file hfile t t' ht hwrite => ?_)
  · exact t.makeDirectories_grows orKeep path q node ht
  · rwa [FileTree.removeDirectory_frame hq]
  · rwa [FileTree.node?_write_below (hfiles file hfile) hq hwrite]

/-- Every file that was written can be read. -/
theorem Wrote.read {tree : FileTree} (h : Wrote output files written tree) {file : SourceFile}
    (hfile : file ∈ files) : ∃ content, tree.read (output.below file.path) = .ok content := by
  -- the last file with this path
  obtain ⟨last, hlast⟩ : ∃ last, files.reverse.find? (·.path = file.path) = some last :=
    Option.isSome_iff_exists.mp (by simpa using ⟨file, hfile, rfl⟩)
  obtain ⟨hpath, after, before, hsplit, hafter⟩ := List.find?_eq_some_iff_append.mp hlast
  have hpath : last.path = file.path := by simpa using hpath
  have hfiles : files = before.reverse ++ last :: after.reverse := by
    simpa using congrArg List.reverse hsplit
  rw [← hpath]
  refine ⟨_, h.last _ _ _ hfiles fun other hother => ?_⟩
  simpa [hpath] using hafter other (List.mem_reverse.mp hother)

theorem Wrote.directory {tree : FileTree} (h : Wrote output files written tree)
    (hq : q ∈ ways output (files.map (·.path))) : tree.node? q = some .directory := by
  obtain ⟨names, hnames, hq⟩ := List.mem_flatMap.mp hq
  obtain ⟨file, hfile, rfl⟩ := List.mem_map.mp hnames
  obtain ⟨content, hread⟩ := h.read hfile
  exact (FileTree.read_eq_ok_iff.mp hread).2.1 q hq

theorem directory_of_foldl_writeNodes {nodes : Nodes}
    (h : files.foldl (writeNodes output) nodes q = some .directory) :
    q ∈ ways output (files.map (·.path)) ∨ nodes q = some .directory := by
  induction files generalizing nodes with
  | nil => exact .inr h
  | cons file files ih =>
    rw [List.map_cons, ways, List.flatMap_cons, List.mem_append]
    rcases ih h with hways | hnode
    · exact .inl (.inr hways)
    · unfold writeNodes at hnode
      split at hnode
      · cases hnode
      · split at hnode
        · rename_i hvisits
          exact .inl (.inl hvisits)
        · exact .inr hnode

/-- A directory leads to the crate or to one of its files, or stood there before, which is outside.
-/
theorem directory_of_emitNodes {nodes : Nodes}
    (h : emitNodes output files nodes q = some .directory) :
    q ∈ ways output (files.map (·.path)) ∨ q ∈ output.visits ∨
      FileTree.isWithin output.place q = false := by
  refine (directory_of_foldl_writeNodes h).imp_right fun hnode => ?_
  unfold resetNodes at hnode
  split at hnode
  · rename_i hvisits
    exact .inl hvisits
  · split at hnode
    · cases hnode
    · rename_i hwithin
      exact .inr (by simpa using hwithin)

/-- A path by which a file could be read leads to a file still if and only if the crate spares it.
-/
theorem emit_read_iff {content : ByteArray} (hs : s.tree.Rooted)
    (hfiles : ∀ file ∈ files, Path.parentStep ∉ file.path)
    (hopen : output.visits ⊆ ways output (files.map (·.path)))
    (h : (emit output (some kept) files).Yields s written s')
    (hread : s.tree.read path = .ok content) :
    (∃ left, s'.tree.read path = .ok left) ↔ Spares output (files.map (·.path)) path := by
  have hnodes : s'.tree.node? = emitNodes output files s.tree.node? :=
    (Leaves.of_emit hs hfiles h).nodes
  have hwrote := emit_wrote h hfiles
  simp only [FileTree.read_iff_of_read hread]
  constructor
  · rintro ⟨left, hway, hfile⟩
    refine ⟨fun q hq hwithin => ?_, fun hwithin => ?_⟩
    · have hnode := hway q hq
      rw [hnodes] at hnode
      rcases directory_of_emitNodes hnode with hways | hvisits | houtside
      · exact hways
      · exact hopen hvisits
      · rw [houtside] at hwithin
        cases hwithin
    · rw [hnodes] at hfile
      obtain ⟨text, htext, -⟩ | ⟨-, houtside, -⟩ := file_of_emitNodes hfile
      · obtain ⟨file, hmem, heq⟩ := List.mem_map.mp (mem_of_textAt? htext)
        exact ⟨file.path, List.mem_map_of_mem hmem, (Prod.mk.inj heq).1.symm⟩
      · rw [houtside] at hwithin
        cases hwithin
  · rintro ⟨hway, hfile⟩
    obtain ⟨-, hdirectories, hnode⟩ := FileTree.read_eq_ok_iff.mp hread
    obtain ⟨left, hleft⟩ : ∃ left, s'.tree.node? path.place = some (.file left) := by
      cases hwithin : FileTree.isWithin output.place path.place with
      | false => exact ⟨content, (emit_frame hfiles hwithin).of_yields hnode h⟩
      | true =>
        obtain ⟨names, hnames, hplace⟩ := hfile hwithin
        obtain ⟨file, hmem, rfl⟩ := List.mem_map.mp hnames
        obtain ⟨left, hleft⟩ := hwrote.read hmem
        rw [hplace, ← Path.place_below output (hfiles file hmem)]
        exact ⟨left, (FileTree.read_eq_ok_iff.mp hleft).2.2⟩
    refine ⟨left, fun q hq => ?_, hleft⟩
    cases hwithin : FileTree.isWithin output.place q with
    | false => exact (emit_frame hfiles hwithin).of_yields (hdirectories q hq) h
    | true => exact hwrote.directory (hway q hq hwithin)

/-- A crate is not written in the place of a file. -/
theorem emit_not_file {content : ByteArray}
    (h : (emit output (some kept) files).Yields s written s') :
    s.tree.node? output.place ≠ some (.file content) := by
  intro hfile
  obtain ⟨prepared, hreset⟩ := emit_prepared h
  obtain ⟨-, t, hremoved, hmade, -⟩ := resetDirectory_yields.mp hreset
  obtain ⟨hentry, hremoved⟩ | ⟨-, rfl⟩ := removePrevious_cases hremoved
  · -- a file that the path leads to is not removed
    unfold FileTree.hasEntry at hentry
    cases hlookup : s.tree.lookup output with
    | error fault =>
      rw [hlookup] at hentry
      cases hentry
    | ok found =>
      obtain ⟨place, node⟩ := found
      obtain ⟨hlocated, hnode⟩ := FileTree.lookup_eq_ok.mp hlookup
      obtain rfl := FileTree.eq_place_of_locate hlocated
      obtain rfl : node = .file content := Option.some.inj (hnode.symm.trans hfile)
      rw [FileTree.removeDirectory, hlookup] at hremoved
      cases (Prod.mk.inj hremoved).2
  · -- and one that it does not lead to is in the way
    have hgrows := t.tree.makeDirectories_grows false output output.place _ hfile
    rw [hmade, (FileTree.makeDirectories_nodes hmade).2, if_pos output.place_mem_visits] at hgrows
    cases hgrows

/-- A directory at the root can be replaced if no file stands there. -/
theorem replaceable_child {t : FileTree} {name : String} {kept? : Option Path}
    (hfits : FileTree.Fits [name]) (hspared : ∀ kept ∈ kept?, deletes ⟨.root, [name]⟩ kept = false)
    (hfree : ∀ content, t.node? [name] ≠ some (.file content)) :
    Replaceable ⟨.root, [name]⟩ kept? t := by
  obtain ⟨hname, hsize⟩ := hfits name List.mem_cons_self
  have hlocate (t : FileTree) : t.locate ⟨.root, [name]⟩ = .ok [name] :=
    FileTree.follow_cons_of_fits hname hsize rfl
  have hmade {t : FileTree} (hnone : t.node? [name] = none) :
      (t.makeDirectories false ⟨.root, [name]⟩).2 = none := by
    rw [FileTree.makeDirectories, FileTree.makeDirectory_eq_ok.mpr ⟨_, hlocate t, hnone, rfl⟩]
  cases hnode : t.node? [name] with
  | none =>
    have hentry : t.hasEntry ⟨.root, [name]⟩ = false := by
      simp [FileTree.hasEntry, FileTree.lookup, hlocate, hnode, bind, Except.bind, Except.toBool]
    refine ⟨hspared, fun h => ?_, ?_⟩
    · rw [hentry] at h
      cases h
    · rw [hentry]
      exact hmade hnode
  | some node =>
    cases node with
    | file content => exact absurd hnode (hfree content)
    | directory =>
      have hlookup : t.lookup ⟨.root, [name]⟩ = .ok ([name], .directory) :=
        FileTree.lookup_eq_ok.mpr ⟨hlocate t, hnode⟩
      have hcleared : (t.clear [name]).lookup ⟨.root, [name]⟩ = .ok ([name], .directory) :=
        FileTree.lookup_eq_ok.mpr ⟨hlocate _, by rw [FileTree.node?_clear, if_neg (by simp), hnode]⟩
      have hremoved :
          t.removeDirectory ⟨.root, [name]⟩ = ((t.clear [name]).remove [name], none) := by
        simp only [FileTree.removeDirectory, hlookup, hcleared]
      have hentry : t.hasEntry ⟨.root, [name]⟩ = true := by
        simp [FileTree.hasEntry, hlookup, Except.toBool]
      refine ⟨hspared, fun _ => by rw [hremoved], ?_⟩
      rw [hentry, if_pos rfl, hremoved]
      refine hmade ?_
      rw [FileTree.node?_remove, if_pos (by simp [FileTree.isWithin])]

end Emission

/-! ## The two crates -/

namespace Crate

open Emission

variable {output contract : Path} {r : Registry} {scaffold? : Option Scaffold} {package : String}
  {names : List String} {q : Place}

/-- The paths of the contract crate. -/
def contractPaths : List (List String) :=
  [["Cargo.toml"], ["src", "lib.rs"], ["README.md"]]

/-- The directory of the contract crate leaves that of the data crate alone: it neither holds it nor
takes one of its directories, and where the path of the data crate passes through it, there is a
directory again. -/
structure Apart (output contract : Path) (scaffolded : Bool) : Prop where
  outside : FileTree.isWithin contract.place output.place = false
  source : contract.place ≠ output.place ++ ["src"]
  tests : scaffolded = true → contract.place ≠ output.place ++ ["tests"]
  way : ∀ q ∈ output.visits, FileTree.isWithin contract.place q = true →
    q ∈ contract.visits ∨ q = contract.place ++ ["src"]

theorem mem_ways_contractPaths :
    q ∈ ways contract contractPaths ↔ q ∈ contract.visits ∨ q = contract.place ++ ["src"] := by
  have hsource :
      (contract.below ["src"]).visits = contract.visits ++ [contract.place ++ ["src"]] := by
    rw [Path.visits_eq_append (by simp [Path.below]), Path.parent_below contract (by simp),
      Path.place_below contract (by decide), List.dropLast_singleton, Path.below_nil]
  simp only [ways, contractPaths, List.flatMap_cons, List.flatMap_nil, List.append_nil,
    Path.parent_below contract (List.cons_ne_nil _ _), List.dropLast_cons_cons,
      List.dropLast_singleton,
    Path.below_nil, hsource, List.mem_append, List.mem_singleton]
  grind

theorem mem_paths_main : ["src", "main.rs"] ∈ (dataFiles r scaffold? package).map (·.path) := by
  rw [paths_dataFiles]
  cases scaffold? <;> simp [ownPaths, ownModules]

theorem mem_paths_tests_iff :
    ["tests", "logic.rs"] ∈ (dataFiles r scaffold? package).map (·.path) ↔
      scaffold?.isSome = true := by
  rw [paths_dataFiles]
  cases scaffold? <;> simp [ownPaths, ownModules]

theorem nonempty_of_mem_paths (h : names ∈ (dataFiles r scaffold? package).map (·.path)) :
    names ≠ [] := by
  rcases mem_paths_cases h with hnames | ⟨name, rfl, -⟩
  · rintro rfl
    simp at hnames
  · simp

/-- On the way to a file of the data crate there are no other directories. -/
theorem mem_paths_directory {part : List String}
    (h : names ∈ (dataFiles r scaffold? package).map (·.path)) (hpart : part <+: names) :
    part = [] ∨ part = names ∨ part = ["src"] ∨ scaffold?.isSome = true ∧ part = ["tests"] := by
  have htests : names = ["tests", "logic.rs"] → scaffold?.isSome = true := fun hnames =>
    mem_paths_tests_iff.mp (hnames ▸ h)
  rcases mem_paths_cases h with hnames | ⟨name, rfl, -⟩
  · simp only [List.mem_cons, List.not_mem_nil, or_false] at hnames
    obtain rfl | rfl | rfl := hnames <;> grind [List.prefix_cons_iff]
  · grind [List.prefix_cons_iff]

/-- A file whose name the contract crate has not is spared only if the crate takes neither the
directory that it lies in nor the one above. -/
theorem outside_of_spares {directory name : String} (hname : name ∈ ["main.rs", "logic.rs"])
    (hdown : Path.parentStep ∉ [directory, name])
    (h : Spares contract contractPaths (output.below [directory, name])) :
    FileTree.isWithin contract.place output.place = false ∧
      contract.place ≠ output.place ++ [directory] := by
  have houtside : ¬ contract.place <+: output.place ++ [directory, name] := by
    intro hwithin
    rw [← Path.place_below output hdown] at hwithin
    obtain ⟨own, hown, hplace⟩ := h.file (FileTree.isWithin_iff.mpr hwithin)
    rw [Path.place_below output hdown] at hplace
    have hlast := congrArg List.getLast? hplace
    simp only [contractPaths, List.mem_cons, List.not_mem_nil, or_false] at hown hname
    obtain rfl | rfl | rfl := hown <;> obtain rfl | rfl := hname <;> simp at hlast
  constructor
  · cases hwithin : FileTree.isWithin contract.place output.place with
    | false => rfl
    | true =>
      exact absurd ((FileTree.isWithin_iff.mp hwithin).trans (List.prefix_append _ _)) houtside
  · intro hplace
    exact houtside ⟨[name], by rw [hplace, List.append_assoc]; rfl⟩

/-- If the directories are apart, the contract crate takes nothing on the way to a file of the data
crate. -/
theorem Apart.outside_below (h : Apart output contract scaffold?.isSome)
    (hfree : ∀ names ∈ (dataFiles r scaffold? package).map (·.path),
      contract.place ≠ output.place ++ names)
    (hnames : names ∈ (dataFiles r scaffold? package).map (·.path)) {part : List String}
    (hpart : part <+: names) : FileTree.isWithin contract.place (output.place ++ part) = false := by
  cases hwithin : FileTree.isWithin contract.place (output.place ++ part) with
  | false => rfl
  | true =>
    rcases FileTree.isWithin_or_isWithin hwithin (FileTree.isWithin_below output.place part) with
      habove | hbelow
    · rw [h.outside] at habove
      cases habove
    · -- then its directory is one of the data crate's
      obtain ⟨rest, hrest⟩ := FileTree.isWithin_iff.mp hbelow
      rw [FileTree.isWithin_iff, ← hrest, List.prefix_append_right_inj] at hwithin
      obtain rfl | rfl | rfl | ⟨htests, rfl⟩ := mem_paths_directory hnames (hwithin.trans hpart)
      · have houtside := h.outside
        rw [← hrest, List.append_nil, FileTree.isWithin_iff.mpr List.prefix_rfl] at houtside
        cases houtside
      · exact absurd hrest.symm (hfree _ hnames)
      · exact absurd hrest.symm h.source
      · exact absurd hrest.symm (h.tests htests)

/-- The contract crate spares all files of the data crate if and only if the directories are apart.
-/
theorem forall_spares_iff
    (hfree : ∀ names ∈ (dataFiles r scaffold? package).map (·.path),
      contract.place ≠ output.place ++ names) :
    (∀ names ∈ (dataFiles r scaffold? package).map (·.path),
      Spares contract contractPaths (output.below names)) ↔
        Apart output contract scaffold?.isSome := by
  constructor
  · intro h
    obtain ⟨houtside, hsource⟩ := outside_of_spares (by decide) (by decide) (h _ mem_paths_main)
    refine ⟨houtside, hsource, fun htests => ?_, fun q hq hwithin => ?_⟩
    · exact (outside_of_spares (by decide) (by decide) (h _ (mem_paths_tests_iff.mpr htests))).2
    · refine mem_ways_contractPaths.mp ((h _ mem_paths_main).way q ?_ hwithin)
      rw [Path.parent_below output (by simp), Path.mem_visits_below (by decide)]
      exact .inl hq
  · intro h names hnames
    obtain ⟨file, hfile, rfl⟩ := List.mem_map.mp hnames
    have hdown := parentStep_not_mem_dataFiles file hfile
    refine ⟨fun q hq hwithin => mem_ways_contractPaths.mpr ?_, fun hwithin => ?_⟩
    · have hshort := List.dropLast_prefix file.path
      rw [Path.parent_below output (nonempty_of_mem_paths hnames),
        Path.mem_visits_below fun hmem => hdown (hshort.subset hmem)] at hq
      obtain hq | ⟨part, hpart, rfl⟩ := hq
      · exact h.way q hq hwithin
      · rw [h.outside_below hfree hnames (hpart.trans hshort)] at hwithin
        cases hwithin
    · rw [Path.place_below output hdown, h.outside_below hfree hnames List.prefix_rfl] at hwithin
      cases hwithin

/-- Directories of different names in the same directory are apart. -/
theorem Apart.siblings (directory : Path) {name name' : String} (hname : name ≠ Path.parentStep)
    (hname' : name' ≠ Path.parentStep) (hne : name ≠ name') (scaffolded : Bool) :
    Apart (directory.below [name]) (directory.below [name']) scaffolded := by
  have hplace : (directory.below [name]).place = directory.place ++ [name] :=
    Path.place_below directory (by simpa using hname.symm)
  have hplace' : (directory.below [name']).place = directory.place ++ [name'] :=
    Path.place_below directory (by simpa using hname'.symm)
  have houtside :
      FileTree.isWithin (directory.place ++ [name']) (directory.place ++ [name]) = false := by
    simp [FileTree.isWithin, List.isPrefixOf_iff_prefix, ← Bool.not_eq_true, hne.symm]
  refine ⟨?_, ?_, fun _ => ?_, fun q hq hwithin => .inl ?_⟩
  · rwa [hplace, hplace']
  · simp [hplace, hplace']
  · simp [hplace, hplace']
  · rw [Path.mem_visits_below (by simpa using hname.symm)] at hq
    rw [Path.mem_visits_below (by simpa using hname'.symm)]
    obtain hq | ⟨part, hpart, rfl⟩ := hq
    · exact .inl hq
    · rcases List.prefix_cons_iff.mp hpart with rfl | ⟨rest, rfl, hrest⟩
      · exact .inl (by simpa using directory.place_mem_visits)
      · rw [List.prefix_nil.mp hrest, hplace', houtside] at hwithin
        cases hwithin

end Crate

/-! ## Building -/

namespace Settings

open Emission

variable {settings : Settings} {root : Path} {target : BuildTarget} {s s' : Session} {built : Built}
  {path : Path}

/-- The contract crate, if it is built, spares the path. -/
def Spares (settings : Settings) (root : Path) (target : BuildTarget) (path : Path) : Prop :=
  target.includesContract = true →
    Emission.Spares (workspaceDirectory root settings.contractDirectory) contractPaths path

/-- What the models part reports are files of the data crate, and they can be read. -/
theorem modelsPart_written {checked : Checked} {models : Built}
    (h : (settings.modelsPart root target checked).Yields s models s')
    (hpath : path ∈ models.written) :
    (∃ content, s'.tree.read path = .ok content) ∧
      ∃ file ∈ dataFiles checked.loaded.registry models.scaffold? settings.packageName,
        (workspaceDirectory root settings.outputDirectory).below file.path = path := by
  obtain ⟨-, u, -, hemitted⟩ | ⟨-, rfl, -⟩ := modelsPart_cases h
  · have hwrote := emit_wrote hemitted parentStep_not_mem_dataFiles
    rw [hwrote.paths] at hpath
    obtain ⟨file, hfile, rfl⟩ := List.mem_map.mp hpath
    exact ⟨hwrote.read hfile, file, hfile, rfl⟩
  · cases hpath

/-- What could be read before the contract part can be read afterwards if it is spared. -/
theorem contractPart_read_iff {checked : Checked} {contract : Built} {content : ByteArray}
    (hs : s.tree.Rooted) (h : (settings.contractPart root target checked).Yields s contract s')
    (hread : s.tree.read path = .ok content) :
    (∃ left, s'.tree.read path = .ok left) ↔ settings.Spares root target path := by
  unfold Spares
  obtain ⟨hincludes, u, htree, hemitted⟩ | ⟨hincludes, rfl, rfl⟩ := contractPart_cases h
  · rw [← htree] at hs hread
    have hiff := emit_read_iff hs parentStep_not_mem_contractFiles
      (fun q hq => mem_ways_contractPaths.mpr (.inl hq)) hemitted hread
    exact hiff.trans ⟨fun hspares _ => hspares, fun hspares => hspares hincludes⟩
  · simp [hincludes, hread]

/-- What the contract part reports can be read, and the crate spares it. -/
theorem contractPart_written {checked : Checked} {contract : Built}
    (h : (settings.contractPart root target checked).Yields s contract s')
    (hpath : path ∈ contract.written) :
    (∃ content, s'.tree.read path = .ok content) ∧ settings.Spares root target path := by
  obtain ⟨-, u, -, hemitted⟩ | ⟨-, rfl, -⟩ := contractPart_cases h
  · have hwrote := emit_wrote hemitted parentStep_not_mem_contractFiles
    rw [hwrote.paths] at hpath
    obtain ⟨file, hfile, rfl⟩ := List.mem_map.mp hpath
    refine ⟨hwrote.read hfile, fun _ => .own ?_ (parentStep_not_mem_contractFiles file hfile)⟩
    exact List.mem_map_of_mem (f := SourceFile.path) hfile
  · cases hpath

/-- A reported path leads to a file if and only if the contract crate spares it. -/
theorem build_read_iff (hs : s.tree.Rooted) (h : (settings.build root target).Yields s built s')
    (hpath : path ∈ built.written) :
    (∃ content, s'.tree.read path = .ok content) ↔ settings.Spares root target path := by
  obtain ⟨checked, t, models, u, contract, u', hchecked, hmodels, hcontract, htree, rfl⟩ :=
    build_cases h
  have ht : t.tree.Rooted := check_rooted.of_yields hs hchecked
  rw [htree]
  rcases List.mem_append.mp hpath with hpath | hpath
  · obtain ⟨⟨content, hread⟩, -⟩ := modelsPart_written hmodels hpath
    exact contractPart_read_iff (modelsPart_leaves ht hmodels).rooted hcontract hread
  · obtain ⟨hread, hspares⟩ := contractPart_written hcontract hpath
    exact iff_of_true hread hspares

/-- The data crate is spared if and only if the directories are apart. -/
theorem parts_spare_iff {checked : Checked} {models contract : Built} {u : Session}
    (hmodels : (settings.modelsPart root .all checked).Yields s models u)
    (hcontract : (settings.contractPart root .all checked).Yields u contract s') :
    (∀ path ∈ models.written, settings.Spares root .all path) ↔
      Apart (workspaceDirectory root settings.outputDirectory)
        (workspaceDirectory root settings.contractDirectory) models.scaffold?.isSome := by
  obtain ⟨-, t, -, hemitted⟩ | ⟨hincludes, -, -⟩ := modelsPart_cases hmodels
  · obtain ⟨-, t', htree, hemitted'⟩ | ⟨hincludes, -, -⟩ := contractPart_cases hcontract
    · have hwrote := emit_wrote hemitted parentStep_not_mem_dataFiles
      have hfree : ∀ names ∈ (dataFiles checked.loaded.registry models.scaffold?
            settings.packageName).map (·.path),
          (workspaceDirectory root settings.contractDirectory).place ≠
            (workspaceDirectory root settings.outputDirectory).place ++ names := by
        intro names hnames hplace
        obtain ⟨file, hfile, rfl⟩ := List.mem_map.mp hnames
        obtain ⟨content, hread⟩ := hwrote.read hfile
        have hnode := (FileTree.read_eq_ok_iff.mp hread).2.2
        rw [Path.place_below _ (parentStep_not_mem_dataFiles file hfile), ← hplace, ← htree]
          at hnode
        exact emit_not_file hemitted' hnode
      rw [hwrote.paths, ← forall_spares_iff hfree]
      simp [Spares, BuildTarget.includesContract]
    · cases hincludes
  · cases hincludes

theorem build_spares_iff (h : (settings.build root target).Yields s built s') :
    (∀ path ∈ built.written, settings.Spares root target path) ↔
      (target = .all → Apart (workspaceDirectory root settings.outputDirectory)
        (workspaceDirectory root settings.contractDirectory) built.scaffold?.isSome) := by
  obtain ⟨checked, t, models, u, contract, u', -, hmodels, hcontract, -, rfl⟩ := build_cases h
  have hown : ∀ path ∈ contract.written, settings.Spares root target path := fun path hpath =>
    (contractPart_written hcontract hpath).2
  simp only [builtOf, List.forall_mem_append, and_iff_left hown]
  cases target with
  | all => exact (parts_spare_iff hmodels hcontract).trans (by simp)
  | models => simp [Spares, BuildTarget.includesContract]
  | contract =>
    obtain ⟨rfl, -⟩ := Job.yields_pure.mp hmodels
    simp [nothingBuilt]

/-- The program of the data crate is reported. -/
theorem mem_cratesPaths_main (settings : Settings) (root : Path) (checked : Checked)
    (scaffold? : Option Scaffold) :
    (workspaceDirectory root settings.outputDirectory).below ["src", "main.rs"] ∈
      cratesPaths (settings.crates root .all checked scaffold?) := by
  have hmain : ["src", "main.rs"] ∈
      (dataFiles checked.loaded.registry scaffold? settings.packageName).map (·.path) :=
    mem_paths_main
  obtain ⟨file, hfile, hpath⟩ := List.mem_map.mp hmain
  exact List.mem_flatMap.mpr ⟨_, List.mem_cons_self, List.mem_map.mpr ⟨file, hfile, by rw [hpath]⟩⟩

/-- The data crate of a directory at the root has no file at the root: its files stand deeper. -/
theorem modelsPart_free {checked : Checked} {models : Built} {output name : String}
    (hs : s.tree.Rooted) (h : (settings.modelsPart root target checked).Yields s models s')
    (houtput : (workspaceDirectory root settings.outputDirectory).place = [output])
    (hfree : ∀ content, s.tree.node? [name] ≠ some (.file content)) (content : ByteArray) :
    s'.tree.node? [name] ≠ some (.file content) := by
  intro hfile
  obtain ⟨hwritten, -⟩ | ⟨-, hbefore⟩ := (modelsPart_leaves hs h).of_file hfile
  · obtain ⟨path, hpath, hplace⟩ := List.mem_map.mp hwritten
    obtain ⟨-, file, hmem, rfl⟩ := modelsPart_written h hpath
    have hnames : file.path ≠ [] := nonempty_of_mem_paths (List.mem_map_of_mem hmem)
    rw [Path.place_below _ (parentStep_not_mem_dataFiles file hmem), houtput] at hplace
    exact hnames (List.cons.inj hplace).2
  · exact hfree content hbefore

/-- Both crates of the bare archive can be built in directories at the root, if no files stand
there. -/
theorem build_bareArchive_all {output contract : String} (hs : s.tree.Rooted)
    (hordering : settings.ordering = .heuristic)
    (hfound : (discover (settings.archivesRoot root) settings.modelExtension).Yields s
      bareDiscovery s')
    (houtput : workspaceDirectory root settings.outputDirectory = ⟨.root, [output]⟩)
    (hcontract : workspaceDirectory root settings.contractDirectory = ⟨.root, [contract]⟩)
    (hfits : FileTree.Fits [output, contract])
    (hspared : ∀ name ∈ [output, contract],
      deletes ⟨.root, [name]⟩ (settings.archivesRoot root) = false)
    (hfree : ∀ name ∈ [output, contract], ∀ content, s'.tree.node? [name] ≠ some (.file content)) :
    ∃ built after, (settings.build root .all).Yields s built after := by
  obtain ⟨documents, t, hcheck, htree⟩ := check_bareArchive hordering hfound
  rw [← htree] at hfree
  have ht : t.tree.Rooted := check_rooted.of_yields hs hcheck
  have hscaffold : Crate.scaffold? bareRegistry (bareRegistry.classify settings.classification)
      settings.packageName = .ok none := by
    cases settings.classification <;> rfl
  have houtput' : (workspaceDirectory root settings.outputDirectory).place = [output] := by
    simp [houtput, Path.place_eq_foldl, Path.step, (hfits output (by simp)).1]
  have hreplaceable {name : String} (hname : name ∈ [output, contract]) {t : FileTree}
      (hfree : ∀ content, t.node? [name] ≠ some (.file content)) :
      Replaceable ⟨.root, [name]⟩ (some (settings.archivesRoot root)) t :=
    replaceable_child (by simpa [FileTree.Fits] using hfits name hname)
      (by simpa using hspared name hname) hfree
  have hsizes : ∀ key ∈ bareRegistry.keys,
    (moduleFile key).utf8ByteSize ≤ FileTree.maxNameBytes := by
    decide +kernel
  obtain ⟨models, u, hmodels⟩ : ∃ models u, (settings.modelsPart root .all
      (settings.checkedFrom bareDiscovery documents bareRegistry)).Yields t models u := by
    refine modelsPart_succeeds ht rfl hscaffold hsizes ?_
    rw [houtput]
    exact hreplaceable (by simp) (hfree output (by simp))
  obtain ⟨built, u', hbuilt⟩ : ∃ built u', (settings.contractPart root .all
      (settings.checkedFrom bareDiscovery documents bareRegistry)).Yields u built u' := by
    refine contractPart_succeeds (modelsPart_leaves ht hmodels).rooted rfl ?_
    rw [hcontract]
    exact hreplaceable (by simp) (modelsPart_free ht hmodels houtput' (hfree contract (by simp)))
  exact build_succeeds hcheck hmodels hbuilt

/-- The path leads to a file with the text that was written last at its place. If two files were
written there this is the second: the path is on disk, and the text of the first file is not. -/
def OnDisk (crates : List (Path × List SourceFile)) (tree : FileTree) (path : Path) : Prop :=
  ∃ text, textAt? (cratesWrites crates) path.place = some text ∧ tree.read path = .ok text.toUTF8

theorem onDisk_of_read {kept : Path} {crates : List (Path × List SourceFile)} {written : List Path}
    {t t' : FileTree} (h : Leaves kept crates written t t') (hpath : path ∈ written)
    {content : ByteArray} (hread : t'.read path = .ok content) : OnDisk crates t' path := by
  obtain ⟨-, -, hfile⟩ := FileTree.read_eq_ok_iff.mp hread
  obtain ⟨-, text, htext, rfl⟩ | ⟨houtside, -⟩ := h.of_file hfile
  · exact ⟨text, htext, hread⟩
  · obtain ⟨crate, hcrate, hwithin⟩ := h.within_of_written (List.mem_map_of_mem hpath)
    rw [houtside crate hcrate] at hwithin
    cases hwithin

/-- Every reported path that the contract crate spares leads to a file with the text that was
written there last, and all others lead to no file. None is lost if and only if the directories of
the two crates are apart, or only one of them was asked for. This is about paths: one that is
reported for both crates counts as there, with the text of the contract crate. -/
theorem build_reported (settings : Settings) (root : Path) (target : BuildTarget) {t : FileTree}
    {built : Built} {s : Session} (ht : t.Rooted)
    (h : (settings.build root target).start t = (.ok built, s)) :
    ∃ checked u, (settings.check root).start t = (.ok checked, u) ∧
      let crates := settings.crates root target checked built.scaffold?
      built.written = cratesPaths crates ∧
      (∀ path ∈ built.written,
        (settings.Spares root target path → OnDisk crates s.tree path) ∧
        (¬ settings.Spares root target path → ∀ content, s.tree.read path ≠ .ok content)) ∧
      ((∀ path ∈ built.written, OnDisk crates s.tree path) ↔
        (target = .all → Apart (workspaceDirectory root settings.outputDirectory)
          (workspaceDirectory root settings.contractDirectory) built.scaffold?.isSome)) := by
  have hbuilt : (settings.build root target).Yields { tree := t } built s := h
  obtain ⟨checked, u, hcheck, hleaves⟩ := build_leaves ht hbuilt
  refine ⟨checked, u, hcheck, ?_⟩
  intro crates
  have hdisk {path : Path} (hpath : path ∈ built.written) :
      OnDisk crates s.tree path ↔ settings.Spares root target path := by
    rw [← build_read_iff ht hbuilt hpath]
    exact ⟨fun ⟨text, _, hread⟩ => ⟨_, hread⟩, fun ⟨_, hread⟩ => onDisk_of_read hleaves hpath hread⟩
  refine ⟨hleaves.paths, fun path hpath => ⟨(hdisk hpath).mpr, fun hspares content hread => ?_⟩, ?_⟩
  · exact hspares ((build_read_iff ht hbuilt hpath).mp ⟨content, hread⟩)
  · rw [← build_spares_iff hbuilt]
    exact forall₂_congr fun path hpath => hdisk hpath

/-- In a shared directory the program of the data crate is reported and lost. In the directories
that are the default nothing is lost. -/
theorem build_reported_shared :
    let shared : Settings := { outputDirectory := "out", contractDirectory := "out" }
    let run (settings : Settings) := (settings.build (.ofText "/") .all).start (bareArchive [])
    (∃ built, (run shared).1 = .ok built ∧ ⟨.root, ["out", "src", "main.rs"]⟩ ∈ built.written ∧
      ∀ content, (run shared).2.tree.read ⟨.root, ["out", "src", "main.rs"]⟩ ≠ .ok content) ∧
    ∃ built, (run {}).1 = .ok built ∧ ⟨.root, ["output", "src", "main.rs"]⟩ ∈ built.written ∧
      ∀ path ∈ built.written, ∃ content, (run {}).2.tree.read path = .ok content := by
  intro shared run
  have hproper : (bareArchive []).Proper :=
    .of_entries (by simp [bareArchive, FileTree.node?, List.lookup_cons]) (by decide)
      (by unfold FileTree.Fits; decide)
  have hfound : (discover (workspaceDirectory (.ofText "/") "archives") ".cto").Yields
      { tree := bareArchive [] } bareDiscovery _ := Job.yields_of_run (by decide +kernel)
  have hnone : ∀ name ∈ ["out", "output", "contract"], (Prod.snd ((discover (workspaceDirectory
      (.ofText "/") "archives") ".cto").run { tree := bareArchive [] })).tree.node?
        [name] = none := by
    decide +kernel
  have hdirectory (name : String) (hname : Path.ofText name = ⟨.relative, [name]⟩) :
      workspaceDirectory (.ofText "/") name = ⟨.root, [name]⟩ := by
    rw [workspaceDirectory, hname]
    rfl
  have hout := hdirectory "out" (by decide +kernel)
  have houtput := hdirectory "output" (by decide +kernel)
  have hcontract := hdirectory "contract" (by decide +kernel)
  constructor
  · obtain ⟨built, after, hbuilt⟩ : ∃ built after, (shared.build (.ofText "/") .all).Yields
        { tree := bareArchive [] } built after :=
      build_bareArchive_all hproper.rooted rfl hfound hout hout (by unfold FileTree.Fits; decide)
        (by decide +kernel) (by simp [hnone])
    have hrun : run shared = (.ok built, after) := hbuilt
    obtain ⟨checked, u, -, hwritten, hfiles, -⟩ :=
      build_reported shared (.ofText "/") .all hproper.rooted hbuilt
    have hmain := mem_cratesPaths_main shared (.ofText "/") checked built.scaffold?
    rw [← hwritten, hout] at hmain
    rw [hrun]
    refine ⟨built, rfl, hmain, (hfiles _ hmain).2 fun hspares => ?_⟩
    have hspares := hspares rfl
    rw [hout] at hspares
    have houtside : FileTree.isWithin (⟨.root, ["out"]⟩ : Path).place ["out"] = false :=
      (outside_of_spares (by decide) (by decide) hspares).1
    exact absurd houtside (by decide)
  · obtain ⟨built, after, hbuilt⟩ : ∃ built after, (Settings.build {} (.ofText "/") .all).Yields
        { tree := bareArchive [] } built after :=
      build_bareArchive_all hproper.rooted rfl hfound houtput hcontract
        (by unfold FileTree.Fits; decide) (by decide +kernel) (by simp [hnone])
    have hrun : run {} = (.ok built, after) := hbuilt
    obtain ⟨checked, u, -, hwritten, -, hiff⟩ :=
      build_reported {} (.ofText "/") .all hproper.rooted hbuilt
    have hmain := mem_cratesPaths_main {} (.ofText "/") checked built.scaffold?
    rw [← hwritten, houtput] at hmain
    rw [hrun]
    refine ⟨built, rfl, hmain, fun path hpath => ?_⟩
    have hapart : Apart ⟨.root, ["output"]⟩ ⟨.root, ["contract"]⟩ built.scaffold?.isSome :=
      .siblings ⟨.root, []⟩ (by decide) (by decide) (by decide) _
    rw [houtput, hcontract] at hiff
    obtain ⟨text, -, hread⟩ := hiff.mpr (fun _ => hapart) path hpath
    exact ⟨_, hread⟩

end Settings

end Covenant

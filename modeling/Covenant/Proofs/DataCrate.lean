/-
When nothing of a registry is lost in the data crate. The file of a namespace's module has
a name made from the namespace's, in small letters and with underscores. So two namespaces
can share a file, and then the later one takes it, and a module can have the name of one of
the crate's own files, which are written over it. If neither happens the crate holds the
rendering of every namespace, and only then. Whether it can be written at all depends on
its directory and on the length of the file names (`Crate.emit_complete_iff`).

If nothing is written twice, the files of the crate hold what was rendered for them. What
is rendered names its namespace in the first line, so two namespaces of one file cannot
both be there.
-/
import Covenant.Proofs.Emission
import Covenant.Proofs.Registered

namespace Covenant.Crate

open Covenant.Text

/-! ## Modules -/

/-- Each module file is listed once. -/
theorem nodup_moduleFiles (r : Registry) : ((moduleFiles r).map (·.1)).Nodup := by
  unfold moduleFiles
  induction r.models using List.reverseRecOn with
  | nil => exact List.nodup_nil
  | append_singleton ms m ih =>
    rw [List.foldl_append]
    exact Dictionary.nodup_put ih _ _

/-- A module file holds the rendering of the last namespace that it is the file of. -/
theorem mem_moduleFiles {r : Registry} {file : String × String} :
    file ∈ moduleFiles r ↔
      ∃ m, r.models.reverse.find? (moduleFile ·.key = file.1) = some m ∧
        moduleText r m = file.2 := by
  unfold moduleFiles
  induction r.models using List.reverseRecOn with
  | nil => simp
  | append_singleton ms m ih =>
    rw [List.foldl_append, List.foldl_cons, List.foldl_nil, Dictionary.mem_put, ih,
      List.reverse_append]
    by_cases hm : file.1 = moduleFile m.key
    · simp [hm, eq_comm]
    · simp [hm, Ne.symm hm]

theorem mem_moduleFiles_names {r : Registry} {name : String} :
    name ∈ (moduleFiles r).map (·.1) ↔ ∃ key ∈ r.keys, moduleFile key = name := by
  rw [← r.map_key_models]
  constructor
  · intro hname
    obtain ⟨file, hfile, rfl⟩ := List.mem_map.mp hname
    obtain ⟨m, hm, -⟩ := mem_moduleFiles.mp hfile
    have hmem := List.mem_reverse.mp (List.mem_of_find?_eq_some hm)
    exact ⟨m.key, List.mem_map_of_mem hmem, by simpa using List.find?_some hm⟩
  · rintro ⟨key, hkey, rfl⟩
    obtain ⟨m, hm, rfl⟩ := List.mem_map.mp hkey
    cases hlast : r.models.reverse.find? (moduleFile ·.key = moduleFile m.key) with
    | none =>
      have hnone := List.find?_eq_none.mp hlast m (List.mem_reverse.mpr hm)
      simp at hnone
    | some m' => exact List.mem_map.mpr ⟨(_, _), mem_moduleFiles.mpr ⟨m', hlast, rfl⟩, rfl⟩

/-- Lines are told apart by the first one. -/
theorem head_unlines_inj {line line' : String} {lines lines' : List String}
    (hline : '\n' ∉ line.toList) (hline' : '\n' ∉ line'.toList)
    (h : unlines (line :: lines) = unlines (line' :: lines')) : line = line' := by
  have hcut (first : String) (others : List String) :
      ∃ rest, (unlines (first :: others)).toList = first.toList ++ '\n' :: rest := by
    cases others with
    | nil => exact ⟨[], by simp [unlines]⟩
    | cons second others =>
      exact ⟨(unlines (second :: others)).toList, by simp [unlines, String.intercalate_cons_cons]⟩
  obtain ⟨rest, hrest⟩ := hcut line lines
  obtain ⟨rest', hrest'⟩ := hcut line' lines'
  rw [h, hrest'] at hrest
  exact String.toList_inj.mp (join_inj_left hline' hline hrest).1.symm

/-- The first line of a module names its namespace. -/
theorem moduleText_inj {r : Registry} {m m' : Model} (hm : '\n' ∉ m.key.toList)
    (hm' : '\n' ∉ m'.key.toList) (h : moduleText r m = moduleText r m') : m.key = m'.key := by
  have hfirst := head_unlines_inj (by simpa [toString] using hm) (by simpa [toString] using hm') h
  simpa [toString] using hfirst

/-! ## Paths -/

/-- The modules of the crate that no namespace gives rise to. -/
def ownModules (scaffold? : Option Scaffold) : List String :=
  ["lib", "main", "utils"] ++ if scaffold?.isSome then ["logic"] else []

/-- No two namespaces have the same module, and none has one of the crate's own. -/
structure Separate (r : Registry) (scaffold? : Option Scaffold) : Prop where
  modules : (r.keys.map Target.namespaceModule).Nodup
  own : ∀ key ∈ r.keys, Target.namespaceModule key ∉ ownModules scaffold?

instance (r : Registry) (scaffold? : Option Scaffold) : Decidable (Separate r scaffold?) :=
  decidable_of_iff ((r.keys.map Target.namespaceModule).Nodup ∧
      ∀ key ∈ r.keys, Target.namespaceModule key ∉ ownModules scaffold?)
    ⟨fun h => ⟨h.1, h.2⟩, fun h => ⟨h.modules, h.own⟩⟩

/-- The paths of the files behind the modules. -/
def ownPaths (scaffold? : Option Scaffold) : List (List String) :=
  (ownModules scaffold?).map (fun module => ["src", module ++ ".rs"])
    ++ (if scaffold?.isSome then [["tests", "logic.rs"]] else [])
    ++ [["README.md"]]

theorem nodup_ownPaths (scaffold? : Option Scaffold) : (ownPaths scaffold?).Nodup := by
  cases scaffold? <;> simp [ownPaths, ownModules]

theorem paths_dataFiles (r : Registry) (scaffold? : Option Scaffold) (package : String) :
    (dataFiles r scaffold? package).map (·.path) =
      ["Cargo.toml"] :: (((moduleFiles r).map (·.1)).map (fun name => ["src", name])
        ++ ownPaths scaffold?) := by
  cases scaffold? <;> simp [dataFiles, inSource, scaffoldFiles, ownPaths, ownModules]

theorem mem_ownPaths_iff {scaffold? : Option Scaffold} {key : String} :
    ["src", moduleFile key] ∈ ownPaths scaffold? ↔
      Target.namespaceModule key ∈ ownModules scaffold? := by
  cases scaffold? <;> simp [ownPaths, moduleFile, eq_comm]

/-- A path of the crate leads to a file of its own or to a module. -/
theorem mem_paths_cases {r : Registry} {scaffold? : Option Scaffold} {package : String}
    {path : List String} (h : path ∈ (dataFiles r scaffold? package).map (·.path)) :
    path ∈ [["Cargo.toml"], ["README.md"], ["tests", "logic.rs"]] ∨
      ∃ name, path = ["src", name] ∧
        (name ∈ ["lib.rs", "main.rs", "utils.rs", "logic.rs"] ∨
          ∃ key ∈ r.keys, moduleFile key = name) := by
  have hown : path ∈ ownPaths scaffold? →
      path ∈ [["README.md"], ["tests", "logic.rs"]] ∨
        ∃ name ∈ ["lib.rs", "main.rs", "utils.rs", "logic.rs"], path = ["src", name] := by
    cases scaffold? <;> simp [ownPaths, ownModules] <;> grind
  rw [paths_dataFiles, List.mem_cons, List.mem_append] at h
  rcases h with rfl | hmodule | h
  · exact .inl (by simp)
  · obtain ⟨name, hname, rfl⟩ := List.mem_map.mp hmodule
    exact .inr ⟨name, rfl, .inr (mem_moduleFiles_names.mp hname)⟩
  · rcases hown h with h | ⟨name, hname, rfl⟩
    · exact .inl (List.mem_cons_of_mem _ h)
    · exact .inr ⟨name, rfl, .inl hname⟩

theorem moduleFile_ne_parentStep (key : String) : moduleFile key ≠ Path.parentStep := by
  intro h
  have hlength := congrArg String.length h
  rw [moduleFile, String.length_append] at hlength
  change _ + 3 = 2 at hlength
  omega

/-- The paths lead down from the crate's directory. -/
theorem parentStep_not_mem_dataFiles {r : Registry} {scaffold? : Option Scaffold}
    {package : String} :
    ∀ file ∈ dataFiles r scaffold? package, Path.parentStep ∉ file.path := by
  intro file hfile
  have hown : ∀ path ∈ [["Cargo.toml"], ["README.md"], ["tests", "logic.rs"]],
      Path.parentStep ∉ path := by decide
  have hnames : Path.parentStep ∉ ["src", "lib.rs", "main.rs", "utils.rs", "logic.rs"] := by decide
  rcases mem_paths_cases (List.mem_map_of_mem hfile) with hpath | ⟨name, hpath, hname⟩
  · exact hown file.path hpath
  · rw [hpath]
    rcases hname with hname | ⟨key, -, rfl⟩
    · grind
    · have := moduleFile_ne_parentStep key
      grind

/-- Apart from the names of modules, the names of the files fit. -/
theorem layable_dataFiles {r : Registry} {scaffold? : Option Scaffold} {package : String}
    (h : ∀ key ∈ r.keys, (moduleFile key).utf8ByteSize ≤ FileTree.maxNameBytes) :
    Emission.Layable ((dataFiles r scaffold? package).map (·.path)) := by
  refine ⟨fun path hpath => ?_, fun path hpath name hname => ⟨?_, ?_⟩,
    fun path hpath other hother hprefix => ?_⟩
  · rcases mem_paths_cases hpath with hpath | ⟨name, rfl, -⟩
    · rintro rfl
      simp at hpath
    · simp
  · obtain ⟨file, hfile, rfl⟩ := List.mem_map.mp hpath
    rintro rfl
    exact parentStep_not_mem_dataFiles file hfile hname
  · have hsizes : ∀ name ∈ ["Cargo.toml", "README.md", "tests", "src", "lib.rs", "main.rs",
        "utils.rs", "logic.rs"], name.utf8ByteSize ≤ FileTree.maxNameBytes := by decide
    rcases mem_paths_cases hpath with hpath | ⟨module, rfl, hmodule⟩
    · refine hsizes name ?_
      grind
    · grind
  · rcases mem_paths_cases hpath with hpath | ⟨name, rfl, -⟩ <;>
      rcases mem_paths_cases hother with hother | ⟨name', rfl, -⟩ <;>
      grind

/-- Nothing is written twice if no module has a name of the crate's own. -/
theorem nodup_paths_iff {r : Registry} {scaffold? : Option Scaffold} (package : String) :
    ((dataFiles r scaffold? package).map (·.path)).Nodup ↔
      ∀ key ∈ r.keys, Target.namespaceModule key ∉ ownModules scaffold? := by
  have hmodules : (((moduleFiles r).map (·.1)).map (fun name => ["src", name])).Nodup :=
    (nodup_moduleFiles r).map (fun _ _ h => by simpa using h)
  have hfirst : ["Cargo.toml"] ∉ ((moduleFiles r).map (·.1)).map (fun name => ["src", name])
      ++ ownPaths scaffold? := by
    cases scaffold? <;> simp [ownPaths, ownModules]
  rw [paths_dataFiles, List.nodup_cons, List.nodup_append']
  simp only [hfirst, hmodules, nodup_ownPaths, not_false_eq_true, true_and]
  constructor
  · intro h key hkey hown
    refine h (List.mem_map_of_mem (mem_moduleFiles_names.mpr ⟨key, hkey, rfl⟩)) ?_
    exact mem_ownPaths_iff.mpr hown
  · intro h path hpath hown
    obtain ⟨name, hname, rfl⟩ := List.mem_map.mp hpath
    obtain ⟨key, hkey, rfl⟩ := mem_moduleFiles_names.mp hname
    exact h key hkey (mem_ownPaths_iff.mp hown)

/-! ## The crate -/

/-- The path of a namespace's module in the crate at `output`. -/
def modulePath (output : Path) (m : Model) : Path :=
  output.below ["src", moduleFile m.key]

/-- Nothing was written twice, and the module of each namespace was written and holds its
rendering. -/
structure Complete (r : Registry) (output : Path) (written : List Path)
    (tree : FileTree) : Prop where
  distinct : written.Nodup
  once : ∀ m ∈ r.models, written.count (modulePath output m) = 1
  rendered : ∀ m ∈ r.models, tree.read (modulePath output m) = .ok (moduleText r m).toUTF8

/-- If the namespaces have modules of their own, each is listed with its rendering. -/
theorem Separate.mem_moduleFiles {r : Registry} {scaffold? : Option Scaffold}
    (h : Separate r scaffold?) {m : Model} (hm : m ∈ r.models) :
    (moduleFile m.key, moduleText r m) ∈ moduleFiles r := by
  obtain ⟨file, hfile, hname⟩ := List.mem_map.mp
    (mem_moduleFiles_names.mpr ⟨m.key, r.map_key_models ▸ List.mem_map_of_mem hm, rfl⟩)
  obtain ⟨m', hfind, htext⟩ := Crate.mem_moduleFiles.mp hfile
  have hmodules : (r.models.map fun m => Target.namespaceModule m.key).Nodup := by
    have := h.modules
    rwa [← r.map_key_models, List.map_map] at this
  have hsame : moduleFile m'.key = moduleFile m.key := by
    simpa [hname] using List.find?_some hfind
  obtain rfl : m' = m := List.inj_on_of_nodup_map hmodules
    (List.mem_reverse.mp (List.mem_of_find?_eq_some hfind)) hm (by simpa [moduleFile] using hsame)
  rw [← hname, htext]
  exact hfile

section

variable {r : Registry} {scaffold? : Option Scaffold} {package : String} {output : Path}
  {kept? : Option Path} {s s' : Session} {written : List Path}

theorem nodup_written_iff
    (h : (emit output kept? (dataFiles r scaffold? package)).Yields s written s') :
    written.Nodup ↔ ∀ key ∈ r.keys, Target.namespaceModule key ∉ ownModules scaffold? := by
  have hbelow : Function.Injective output.below := fun names names' hnames => by
    simpa [Path.below] using hnames
  obtain rfl := (emit_wrote h parentStep_not_mem_dataFiles).paths
  rw [← nodup_paths_iff package, ← List.nodup_map_iff hbelow, List.map_map]
  rfl

theorem inSource_mem_dataFiles {name text : String} (h : (name, text) ∈ moduleFiles r) :
    inSource name text ∈ dataFiles r scaffold? package := by
  simp only [dataFiles, List.mem_append, List.mem_map]
  grind

/-- If nothing is written twice, a module file is left with what was rendered for it. -/
theorem read_module (h : (emit output kept? (dataFiles r scaffold? package)).Yields s written s')
    (hwritten : written.Nodup) {name text : String} (hfile : (name, text) ∈ moduleFiles r) :
    s'.tree.read (output.below ["src", name]) = .ok text.toUTF8 := by
  obtain ⟨before, after, hsplit⟩ := List.append_of_mem (inSource_mem_dataFiles hfile)
  refine (emit_wrote h parentStep_not_mem_dataFiles).last before _ after hsplit fun g hg hpath => ?_
  have hpaths := (nodup_paths_iff package).mpr ((nodup_written_iff h).mp hwritten)
  rw [hsplit, List.map_append, List.map_cons, List.nodup_append, List.nodup_cons] at hpaths
  exact hpaths.2.1.1 (hpath ▸ List.mem_map_of_mem hg)

theorem Complete.separate (hr : r.Reachable)
    (h : (emit output kept? (dataFiles r scaffold? package)).Yields s written s')
    (hcomplete : Complete r output written s'.tree) : Separate r scaffold? := by
  refine ⟨?_, (nodup_written_iff h).mp hcomplete.distinct⟩
  rw [List.nodup_map_iff_inj_on hr.sound.keys, ← r.map_key_models]
  simp only [List.forall_mem_map]
  intro m hm m' hm' hmodule
  -- the two modules are the same file, which cannot hold two renderings
  have hpath : modulePath output m = modulePath output m' := by
    simp [modulePath, moduleFile, hmodule]
  have htext : moduleText r m = moduleText r m' := by
    have hread := hcomplete.rendered m hm
    rw [hpath, hcomplete.rendered m' hm'] at hread
    exact (String.toByteArray_inj.mp (Except.ok.inj hread)).symm
  exact moduleText_inj (hr.sound.newline_not_mem hm) (hr.sound.newline_not_mem hm') htext

theorem Separate.complete
    (h : (emit output kept? (dataFiles r scaffold? package)).Yields s written s')
    (hseparate : Separate r scaffold?) : Complete r output written s'.tree := by
  have hwritten := (nodup_written_iff h).mpr hseparate.own
  refine ⟨hwritten, fun m hm => ?_, fun m hm => ?_⟩
  · refine List.count_eq_one_of_mem hwritten ?_
    rw [(emit_wrote h parentStep_not_mem_dataFiles).paths]
    exact List.mem_map.mpr ⟨_, inSource_mem_dataFiles (hseparate.mem_moduleFiles hm), rfl⟩
  · exact read_module h hwritten (hseparate.mem_moduleFiles hm)

end

/-- The data crate is written if its directory can be prepared and the names of the module files are
not too long, and only then. It loses nothing if and only if no two namespaces have the same module
and none has one of the crate's own. -/
theorem emit_complete_iff {r : Registry} (hr : r.Reachable) (scaffold? : Option Scaffold)
    (package : String) (output : Path) (kept? : Option Path) {s : Session} (hs : s.tree.Rooted) :
    let crate := emit output kept? (dataFiles r scaffold? package)
    ((∃ written s', crate.Yields s written s') ↔
      (∃ prepared, (Emission.resetDirectory output kept?).Yields s () prepared) ∧
        ∀ key ∈ r.keys, (moduleFile key).utf8ByteSize ≤ FileTree.maxNameBytes) ∧
    ∀ written s', crate.Yields s written s' →
      (Complete r output written s'.tree ↔ Separate r scaffold?) := by
  intro crate
  refine ⟨⟨?_, ?_⟩, fun written s' h => ⟨Complete.separate hr h, Separate.complete h⟩⟩
  · rintro ⟨written, s', h⟩
    refine ⟨emit_prepared h, fun key hkey => ?_⟩
    obtain ⟨file, hfile, hname⟩ := List.mem_map.mp (mem_moduleFiles_names.mpr ⟨key, hkey, rfl⟩)
    refine (emit_wrote h parentStep_not_mem_dataFiles).sizes _ (inSource_mem_dataFiles hfile) _ ?_
    simp [inSource, hname]
  · rintro ⟨⟨prepared, hreset⟩, hsizes⟩
    exact emit_succeeds hs hreset (layable_dataFiles hsizes)

/-- A registry of documents that hold no more than their namespaces. -/
def bareRegistry (names : List String) : Registry :=
  ⟨names.map fun name => ⟨{ id := ⟨name, none⟩ }, name ++ ".cto", "namespace " ++ name⟩⟩

/-- Alone, `a.b` is kept; of the valid namespaces `a.b` and `A.B` one is lost, and so is `lib`. -/
theorem emit_complete_iff_bare :
    let crate (names : List String) := emit (.ofText "out") none
      (dataFiles (bareRegistry names) none "models")
    (∃ written s, (crate ["a.b"]).Yields ⟨.empty, []⟩ written s ∧
      Complete (bareRegistry ["a.b"]) (.ofText "out") written s.tree) ∧
    (bareRegistry ["a.b", "A.B"]).validate = [] ∧
    (∃ written s, (crate ["a.b", "A.B"]).Yields ⟨.empty, []⟩ written s ∧
      ¬ Complete (bareRegistry ["a.b", "A.B"]) (.ofText "out") written s.tree) ∧
    (∃ written s, (crate ["lib"]).Yields ⟨.empty, []⟩ written s ∧
      ¬ Complete (bareRegistry ["lib"]) (.ofText "out") written s.tree) := by
  intro crate
  have hfirst : Registry.empty.register "namespace a.b" "a.b.cto" =
      .ok (.added { id := ⟨"a.b", none⟩ }, bareRegistry ["a.b"]) := by decide +kernel
  have hsecond : (bareRegistry ["a.b"]).register "namespace A.B" "A.B.cto" =
      .ok (.added { id := ⟨"A.B", none⟩ }, bareRegistry ["a.b", "A.B"]) := by decide +kernel
  have hlibrary : Registry.empty.register "namespace lib" "lib.cto" =
      .ok (.added { id := ⟨"lib", none⟩ }, bareRegistry ["lib"]) := by decide +kernel
  have hone : (bareRegistry ["a.b"]).Reachable := Registry.Reachable.empty.register hfirst
  have hreset : (Emission.resetDirectory (.ofText "out") none).Yields ⟨.empty, []⟩ () _ :=
    Job.yields_of_run (by decide +kernel)
  have hcrate {names : List String} (hr : (bareRegistry names).Reachable)
      (hsizes : ∀ key ∈ (bareRegistry names).keys,
        (moduleFile key).utf8ByteSize ≤ FileTree.maxNameBytes) :
      ∃ written s, (crate names).Yields ⟨.empty, []⟩ written s ∧
        (Complete (bareRegistry names) (.ofText "out") written s.tree ↔
          Separate (bareRegistry names) none) := by
    have hrooted : (⟨.empty, []⟩ : Session).tree.Rooted := FileTree.Rooted.empty
    obtain ⟨hwritten, hcomplete⟩ :=
      emit_complete_iff hr none "models" (.ofText "out") none hrooted
    obtain ⟨written, s, h⟩ := hwritten.mpr ⟨⟨_, hreset⟩, hsizes⟩
    exact ⟨written, s, h, hcomplete written s h⟩
  have hcycle : (bareRegistry ["a.b", "A.B"]).inheritance.cycle? = none := by
    have hedges : (bareRegistry ["a.b", "A.B"]).inheritance.entries = [] := by decide +kernel
    simp [Graph.cycle?, Graph.nodes, hedges, Graph.explore]
  refine ⟨?_, ?_, ?_, ?_⟩
  · obtain ⟨written, s, h, hiff⟩ := hcrate hone (by decide +kernel)
    exact ⟨written, s, h, hiff.mpr (by decide +kernel)⟩
  · rw [Registry.validate, hcycle]
    decide +kernel
  · obtain ⟨written, s, h, hiff⟩ := hcrate (hone.register hsecond) (by decide +kernel)
    exact ⟨written, s, h, fun hcomplete => absurd (hiff.mp hcomplete) (by decide +kernel)⟩
  · obtain ⟨written, s, h, hiff⟩ :=
      hcrate (Registry.Reachable.empty.register hlibrary) (by decide +kernel)
    exact ⟨written, s, h, fun hcomplete => absurd (hiff.mp hcomplete) (by decide +kernel)⟩

end Covenant.Crate

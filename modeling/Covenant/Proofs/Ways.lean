/-
The way of a path: the places that it passes, from the root to its end. Steps to the parent
undo the step before, so the end is known without a tree, and where a path can be followed
it leads there (`FileTree.eq_place_of_locate`). The way matters because making a directory
makes whatever is missing on it. When that succeeds, all places on the way are directories
and everything else is as it was (`FileTree.makeDirectories_nodes`).

A tree as a file system has it also has every place once and names that can be followed
(`FileTree.Proper`). The operations keep this, whether they succeed or not.
-/
import Covenant.Proofs.RootedTrees

namespace Covenant

namespace Path

/-- The place that a part leads to from a place. -/
def step (place : Place) (part : String) : Place :=
  if part = parentStep then place.dropLast else place ++ [part]

/-- The places that parts lead through, the first one and the end included. -/
def way (place : Place) : List String → List Place
  | [] => [place]
  | part :: parts => place :: way (step place part) parts

/-- The place that a path leads to. -/
def place (p : Path) : Place :=
  p.resolveFrom []

/-- The places that a path passes, from the root to its end. -/
def visits (p : Path) : List Place :=
  way [] p.parts

theorem place_eq_foldl (p : Path) : p.place = p.parts.foldl step [] := by
  unfold place resolveFrom
  split <;> rfl

theorem place_mem_visits (p : Path) : p.place ∈ p.visits := by
  have hend (place : Place) (parts : List String) : parts.foldl step place ∈ way place parts := by
    induction parts generalizing place with
    | nil => exact List.mem_singleton_self place
    | cons part parts ih => exact List.mem_cons_of_mem _ (ih (step place part))
  rw [place_eq_foldl]
  exact hend [] p.parts

theorem root_mem_visits (p : Path) : [] ∈ p.visits := by
  unfold visits
  cases p.parts <;> exact List.mem_cons_self

theorem foldl_step_names {place : Place} {names : List String} (h : parentStep ∉ names) :
    names.foldl step place = place ++ names := by
  induction names generalizing place with
  | nil => simp
  | cons name names ih =>
    rw [List.mem_cons, not_or] at h
    rw [List.foldl_cons, ih h.2, step, if_neg (Ne.symm h.1), List.append_assoc]
    rfl

theorem place_below {names : List String} (p : Path) (h : parentStep ∉ names) :
    (p.below names).place = p.place ++ names := by
  rw [place_eq_foldl, below, List.foldl_append, foldl_step_names h, ← place_eq_foldl]

theorem place_child {name : String} (p : Path) (h : FileTree.Fits [name]) :
    (p.child name).place = p.place ++ [name] :=
  place_below p fun hstep => (h _ hstep).1 rfl

/-- The way of a path is that of its parent and its end. -/
theorem visits_eq_append {p : Path} (h : p.parts ≠ []) :
    p.visits = p.parent.visits ++ [p.place] := by
  have hway (place : Place) (parts : List String) (part : String) :
      way place (parts ++ [part]) = way place parts ++ [(parts ++ [part]).foldl step place] := by
    induction parts generalizing place with
    | nil => rfl
    | cons first parts ih => simp only [List.cons_append, way, ih, List.foldl_cons]
  obtain ⟨parts, part, hparts⟩ : ∃ parts part, p.parts = parts ++ [part] := by
    rcases List.eq_nil_or_concat p.parts with hnil | ⟨parts, part, hparts⟩
    · exact absurd hnil h
    · exact ⟨parts, part, by rw [hparts, List.concat_eq_append]⟩
  rw [place_eq_foldl, visits, visits, parent, hparts, hway, List.dropLast_concat]

theorem below_nil (p : Path) : p.below [] = p := by
  simp [below]

theorem parent_below {names : List String} (p : Path) (h : names ≠ []) :
    (p.below names).parent = p.below names.dropLast := by
  rw [parent, below, below, List.dropLast_append_of_ne_nil h]

/-- The way into a directory is the way to it and then leads down. -/
theorem mem_visits_below {p : Path} {names : List String} {q : Place} (h : parentStep ∉ names) :
    q ∈ (p.below names).visits ↔ q ∈ p.visits ∨ ∃ part, part <+: names ∧ q = p.place ++ part := by
  induction names using List.reverseRecOn with
  | nil =>
    rw [below_nil]
    constructor
    · exact .inl
    · rintro (hq | ⟨part, hpart, rfl⟩)
      · exact hq
      · rw [List.prefix_nil.mp hpart, List.append_nil]
        exact p.place_mem_visits
  | append_singleton names name ih =>
    have hparts : (p.below (names ++ [name])).parts ≠ [] := by simp [below]
    rw [visits_eq_append hparts, parent_below p (by simp), List.dropLast_concat, List.mem_append,
      ih fun hmem => h (List.mem_append_left _ hmem), List.mem_singleton, place_below p h, or_assoc]
    simp only [List.prefix_concat_iff]
    grind

end Path

namespace FileTree

variable {t t' : FileTree} {place target : Place} {path : Path} {parts names : List String}

/-! ## Places in a directory -/

theorem isWithin_iff {q : Place} : isWithin place q = true ↔ place <+: q :=
  List.isPrefixOf_iff_prefix

theorem isWithin_below (place : Place) (names : List String) :
    isWithin place (place ++ names) = true :=
  isWithin_iff.mpr (List.prefix_append place names)

/-- Of two directories that hold a place one holds the other. -/
theorem isWithin_or_isWithin {q : Place} (h : isWithin place q = true)
    (h' : isWithin target q = true) :
    isWithin place target = true ∨ isWithin target place = true := by
  rw [isWithin_iff] at h h' ⊢
  rw [isWithin_iff]
  exact List.prefix_or_prefix_of_prefix h h'

/-! ## Following the way -/

/-- Parts lead where the way ends, and all that they pass is a directory. -/
theorem follow_way (h : t.follow place parts = .ok target) :
    target = parts.foldl Path.step place ∧
      ∀ q ∈ Path.way place parts, q ≠ target → t.node? q = some .directory := by
  induction parts generalizing place with
  | nil =>
    cases h
    exact ⟨rfl, fun q hq hne => absurd (List.mem_singleton.mp hq) hne⟩
  | cons part parts ih =>
    obtain ⟨hnode, hrest⟩ := follow_cons_eq_ok.mp h
    have hstep : t.follow (Path.step place part) parts = .ok target := by
      rcases hrest with ⟨hpart, hrest⟩ | ⟨hpart, -, hrest⟩
      · rwa [Path.step, if_pos hpart]
      · rwa [Path.step, if_neg hpart]
    obtain ⟨rfl, hway⟩ := ih hstep
    refine ⟨rfl, fun q hq hne => ?_⟩
    rcases List.mem_cons.mp hq with rfl | hq
    · exact hnode
    · exact hway q hq hne

theorem eq_place_of_locate (h : t.locate path = .ok target) : target = path.place := by
  rw [Path.place_eq_foldl]
  exact (follow_way h).1

/-- On the way to a directory there are directories. -/
theorem directory_of_mem_visits (h : t.locate path = .ok target)
    (htarget : t.node? target = some .directory) {q : Place} (hq : q ∈ path.visits) :
    t.node? q = some .directory := by
  by_cases hne : q = target
  · rwa [hne]
  · exact (follow_way h).2 q hq hne

theorem lookup_eq_ok {node : FileNode} :
    t.lookup path = .ok (target, node) ↔ t.locate path = .ok target ∧
      t.node? target = some node := by
  unfold lookup
  cases hplace : t.locate path with
  | error fault => simp [bind, Except.bind]
  | ok place =>
    simp only [bind, Except.bind, Except.ok.injEq]
    cases hnode : t.node? place with
    | none => simp; rintro rfl; simp [hnode]
    | some found => simp; rintro rfl; simp [hnode]

theorem isDirectory_iff :
    t.isDirectory path = true ↔
      t.locate path = .ok path.place ∧ t.node? path.place = some .directory := by
  unfold isDirectory
  constructor
  · intro h
    split at h
    · rename_i target hlookup
      obtain ⟨hlocated, hnode⟩ := lookup_eq_ok.mp hlookup
      obtain rfl := eq_place_of_locate hlocated
      exact ⟨hlocated, hnode⟩
    · cases h
  · intro h
    rw [lookup_eq_ok.mpr h]

/-- A path leads to what stands at its place if every place before is a directory and every name can
be followed. -/
theorem follow_concat_eq_ok {part : String} :
    t.follow place (parts ++ [part]) = .ok target ↔
      (∀ name ∈ parts ++ [part], name = Path.parentStep ∨ name.utf8ByteSize ≤ maxNameBytes) ∧
        (∀ q ∈ Path.way place parts, t.node? q = some .directory) ∧
        target = (parts ++ [part]).foldl Path.step place := by
  induction parts generalizing place with
  | nil =>
    rw [List.nil_append, follow_cons_eq_ok]
    simp only [follow, Path.way, Path.step, List.foldl_cons, List.foldl_nil]
    grind
  | cons first parts ih =>
    simp only [List.cons_append, follow_cons_eq_ok, ih, Path.way, Path.step, List.foldl_cons]
    grind

/-- A file is read by a path if every place before is a directory and every name can be followed. -/
theorem read_eq_ok_iff {content : ByteArray} :
    t.read path = .ok content ↔
      (∀ name ∈ path.parts, name = Path.parentStep ∨ name.utf8ByteSize ≤ maxNameBytes) ∧
        (∀ q ∈ path.parent.visits, t.node? q = some .directory) ∧
        t.node? path.place = some (.file content) := by
  rw [read_eq_ok, locate, Path.place_eq_foldl]
  rcases List.eq_nil_or_concat path.parts with hnil | ⟨parts, part, hparts⟩
  · -- the root is no file
    simp [hnil, follow, node?]
  · rw [List.concat_eq_append] at hparts
    simp only [hparts, follow_concat_eq_ok, Path.visits, Path.parent, List.dropLast_concat]
    grind

/-- A path by which a file was read leads to one again if the places before it are directories. -/
theorem read_iff_of_read {content content' : ByteArray} (h : t.read path = .ok content) :
    t'.read path = .ok content' ↔
      (∀ q ∈ path.parent.visits, t'.node? q = some .directory) ∧
        t'.node? path.place = some (.file content') := by
  rw [read_eq_ok_iff, and_iff_right (read_eq_ok_iff.mp h).1]

/-! ## Making the way -/

/-- A directory that is made joins the way that was there. -/
theorem makeDirectory_nodes (h : t.makeDirectory path = .ok t') :
    t'.locate path = .ok path.place ∧
      ∀ q, t'.node? q = if q ∈ path.visits then some .directory else t.node? q := by
  have hgrows := makeDirectory_grows h
  obtain ⟨target, hlocated, hnone, rfl⟩ := makeDirectory_eq_ok.mp h
  obtain rfl := eq_place_of_locate hlocated
  have hroot : path.place ≠ [] := by
    intro hroot
    rw [hroot] at hnone
    cases hnone
  refine ⟨hgrows.keepsDirectories.follow hlocated, fun q => ?_⟩
  rw [node?_put .directory hroot]
  by_cases hplace : q = path.place
  · rw [if_pos hplace, if_pos (hplace ▸ path.place_mem_visits)]
  · rw [if_neg hplace]
    split
    · rename_i hq
      exact (follow_way hlocated).2 q hq hplace
    · rfl

/-- If the way leads to a directory, there is nothing to make. -/
theorem isDirectory_nodes (h : t.isDirectory path = true) :
    t.locate path = .ok path.place ∧
      ∀ q, t.node? q = if q ∈ path.visits then some .directory else t.node? q := by
  obtain ⟨hlocated, hnode⟩ := isDirectory_iff.mp h
  refine ⟨hlocated, fun q => ?_⟩
  split
  · rename_i hq
    exact directory_of_mem_visits hlocated hnode hq
  · rfl

/-- What is made on the way to the parent lies on the way of the path. -/
theorem nodes_of_parent {made : FileTree} (hparts : path.parts ≠ [])
    (hparent : ∀ q, t'.node? q = if q ∈ path.parent.visits then some .directory else t.node? q)
    (hmade : ∀ q, made.node? q = if q ∈ path.visits then some .directory else t'.node? q)
    (q : Place) : made.node? q = if q ∈ path.visits then some .directory else t.node? q := by
  rw [hmade, hparent]
  split
  · rfl
  · rename_i hq
    rw [Path.visits_eq_append hparts, List.mem_append, not_or] at hq
    rw [if_neg hq.1]

/-- Once a directory is made, the places on its way are directories and all others are what they
were. -/
theorem makeDirectories_nodes {orKeep : Bool} (h : t.makeDirectories orKeep path = (t', none)) :
    t'.locate path = .ok path.place ∧
      ∀ q, t'.node? q = if q ∈ path.visits then some .directory else t.node? q := by
  fun_induction makeDirectories t orKeep path generalizing t' with
  | case1 _ _ _ hmade =>
    obtain ⟨rfl, -⟩ := Prod.mk.inj h
    exact makeDirectory_nodes hmade
  | case2 | case3 | case6 | case8 => cases (Prod.mk.inj h).2
  | case4 _ _ _ _ _ hparts _ heq _ hmade ih =>
    obtain ⟨rfl, -⟩ := Prod.mk.inj h
    obtain ⟨hlocated, hnodes⟩ := makeDirectory_nodes hmade
    exact ⟨hlocated, nodes_of_parent hparts (ih heq).2 hnodes⟩
  | case5 _ _ _ _ _ hparts _ heq _ _ hkept ih =>
    obtain ⟨rfl, -⟩ := Prod.mk.inj h
    obtain ⟨hlocated, hnodes⟩ := isDirectory_nodes (Bool.and_eq_true_iff.mp hkept).2
    exact ⟨hlocated, nodes_of_parent hparts (ih heq).2 hnodes⟩
  | case7 _ _ _ _ _ hkept =>
    obtain ⟨rfl, -⟩ := Prod.mk.inj h
    exact isDirectory_nodes (Bool.and_eq_true_iff.mp hkept).2

/-- A place outside a directory is not touched when something is written below the directory. -/
theorem node?_write_below {content : ByteArray} {q : Place} (hnames : Path.parentStep ∉ names)
    (hq : isWithin path.place q = false) (h : t.write (path.below names) content = .ok t') :
    t'.node? q = t.node? q := by
  obtain ⟨target, htarget, -, hnodes⟩ := write_cases h
  obtain rfl := eq_place_of_locate htarget
  rw [hnodes, if_neg]
  rintro rfl
  rw [Path.place_below path hnames, isWithin_below] at hq
  cases hq

/-! ## Removing what a path leads to -/

theorem node?_remove (t : FileTree) (place q : Place) :
    (t.remove place).node? q = if q ≠ [] ∧ isWithin place q = true then none else t.node? q := by
  by_cases hroot : q = []
  · subst hroot
    simp [node?]
  · rw [remove, node?_filter t (fun other => !isWithin place other) hroot]
    by_cases hwithin : isWithin place q = true <;> simp [hroot, hwithin]

theorem node?_clear (t : FileTree) (place q : Place) :
    (t.clear place).node? q =
      if q ≠ [] ∧ q ≠ place ∧ isWithin place q = true then none else t.node? q := by
  by_cases hroot : q = []
  · subst hroot
    simp [node?]
  · rw [clear, node?_filter t (fun other => other = place || !isWithin place other) hroot]
    by_cases hplace : q = place <;> by_cases hwithin : isWithin place q = true <;>
      simp [hroot, hplace, hwithin]

/-- A directory that is removed takes with it what lies below. -/
theorem removeDirectory_nodes (h : t.removeDirectory path = (t', none)) (q : Place) :
    t'.node? q = if q ≠ [] ∧ isWithin path.place q = true then none else t.node? q := by
  unfold removeDirectory at h
  split at h
  · cases (Prod.mk.inj h).2
  · cases (Prod.mk.inj h).2
  · rename_i target hlookup
    obtain rfl := eq_place_of_locate (lookup_eq_ok.mp hlookup).1
    simp only at h
    split at h
    · cases (Prod.mk.inj h).2
    · obtain ⟨rfl, -⟩ := Prod.mk.inj h
      rw [node?_remove, node?_clear]
      grind

/-- Whatever becomes of it, only what the path leads to is touched. -/
theorem removeDirectory_frame {q : Place} (hq : isWithin path.place q = false) :
    (t.removeDirectory path).1.node? q = t.node? q := by
  have hclear : (t.clear path.place).node? q = t.node? q := by
    rw [node?_clear, if_neg (by simp [hq])]
  unfold removeDirectory
  split
  · rfl
  · rfl
  · rename_i target hlookup
    obtain rfl := eq_place_of_locate (lookup_eq_ok.mp hlookup).1
    simp only
    split
    · exact hclear
    · rw [node?_remove, if_neg (by simp [hq]), hclear]

/-! ## Trees as a file system has them -/

/-- Every entry lies in a directory, has a place of its own and a name that can be followed. -/
structure Proper (t : FileTree) : Prop where
  rooted : t.Rooted
  distinct : (t.nodes.map (·.1)).Nodup
  fits : ∀ q, t.node? q ≠ none → Fits q

/-- It is enough to look at the entries. -/
theorem Proper.of_entries (hparents : ∀ entry ∈ t.nodes, t.node? entry.1.dropLast = some .directory)
    (hdistinct : (t.nodes.map (·.1)).Nodup)
    (hfits : ∀ entry ∈ t.nodes, Fits entry.1) : t.Proper := by
  have hentry {q : Place} (hroot : q ≠ []) (hq : t.node? q ≠ none) : ∃ node,
    (q, node) ∈ t.nodes := by
    rw [node?, if_neg (by simpa using hroot)] at hq
    obtain ⟨node, hnode⟩ := Option.ne_none_iff_exists'.mp hq
    obtain ⟨before, after, hnodes, -⟩ := List.lookup_eq_some_iff.mp hnode
    exact ⟨node, by simp [hnodes]⟩
  refine ⟨fun place name hq => ?_, hdistinct, fun q hq => ?_⟩
  · obtain ⟨node, hmem⟩ := hentry (by simp) hq
    simpa using hparents _ hmem
  · by_cases hroot : q = []
    · simp [hroot, Fits]
    · obtain ⟨node, hmem⟩ := hentry hroot hq
      exact hfits _ hmem

theorem follow_fits (hplace : Fits place) (h : t.follow place parts = .ok target) :
    Fits target := by
  induction parts generalizing place with
  | nil =>
    cases h
    exact hplace
  | cons part parts ih =>
    obtain ⟨-, ⟨-, hrest⟩ | ⟨hpart, hsize, hrest⟩⟩ := follow_cons_eq_ok.mp h
    · exact ih (fun name hname => hplace name (List.dropLast_subset place hname)) hrest
    · refine ih (List.forall_mem_append.mpr ⟨hplace, ?_⟩) hrest
      simpa using ⟨hpart, hsize⟩

theorem Proper.put (h : t.Proper) (hlocated : t.locate path = .ok place)
    (hnode : t.node? place ≠ some .directory) (node : FileNode) : (t.put place node).Proper where
  rooted := h.rooted.put (h.rooted.follow_parent rfl hlocated) hnode node
  distinct := by
    have hfilter : ((t.nodes.filter (·.1 ≠ place)).map (·.1)).Nodup :=
      h.distinct.sublist (List.filter_sublist.map _)
    simp only [FileTree.put, List.map_append, List.map_cons, List.map_nil]
    exact List.nodup_append.mpr ⟨hfilter, by simp, by simp⟩
  fits := fun q hq => by
    have hroot : place ≠ [] := by
      rintro rfl
      exact hnode rfl
    rw [node?_put node hroot] at hq
    split at hq
    · rename_i hplace
      rw [hplace]
      exact follow_fits (by simp [Fits]) hlocated
    · exact h.fits q hq

theorem Proper.makeDirectories (h : t.Proper) (orKeep : Bool) (path : Path) :
    (t.makeDirectories orKeep path).1.Proper := by
  refine makeDirectories_induct (fun hmade ht => ?_) h orKeep path
  obtain ⟨place, hplace, hnone, rfl⟩ := makeDirectory_eq_ok.mp hmade
  exact ht.put hplace (by simp [hnone]) .directory

theorem Proper.write (h : t.Proper) {content : ByteArray} (hwrite : t.write path content = .ok t') :
    t'.Proper := by
  obtain ⟨place, hplace, hnode, rfl⟩ := write_eq_ok.mp hwrite
  exact h.put hplace hnode (.file content)

theorem Proper.filter (h : t.Proper) (keep : Place → Bool)
    (hrooted : Rooted ⟨t.nodes.filter (keep ·.1)⟩) : Proper ⟨t.nodes.filter (keep ·.1)⟩ where
  rooted := hrooted
  distinct := h.distinct.sublist (List.filter_sublist.map _)
  fits := fun q hq => by
    by_cases hroot : q = []
    · simp [hroot, Fits]
    · rw [node?_filter t keep hroot] at hq
      split at hq
      · exact h.fits q hq
      · exact absurd rfl hq

theorem Proper.removeDirectory (h : t.Proper) (path : Path) :
    (t.removeDirectory path).1.Proper := by
  have hclear (place : Place) : (t.clear place).Proper :=
    h.filter (fun other => other = place || !isWithin place other) (h.rooted.clear place)
  unfold FileTree.removeDirectory
  split
  · exact h
  · exact h
  · rename_i place _
    simp only
    split
    · exact hclear place
    · exact (hclear place).filter (fun other => !isWithin place other)
        ((hclear place).rooted.remove place)

end FileTree

end Covenant

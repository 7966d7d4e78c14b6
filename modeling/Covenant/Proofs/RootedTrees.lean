/-
Trees as a file system has them: every entry lies in a directory (`FileTree.Rooted`).
The operations keep this. In such a tree a directory that was just made is empty
(`FileTree.Rooted.emptyAt_makeDirectories`), and below a directory further ones can be
made wherever no file is in the way (`FileTree.Rooted.makeDirectories_below`).
-/
import Covenant.Proofs.FileTrees
import Mathlib.Data.List.Induction

namespace Covenant.FileTree

/-- Every entry lies in a directory. -/
def Rooted (t : FileTree) : Prop :=
  ∀ place name, t.node? (place ++ [name]) ≠ none → t.node? place = some .directory

variable {t t' : FileTree} {place target : Place} {path : Path} {names : List String}

theorem Rooted.empty : Rooted .empty := by
  intro place name hnode
  simp [node?, FileTree.empty] at hnode

/-! ## Entries above and below -/

theorem Rooted.above (h : t.Rooted) (hnames : names ≠ [])
    (hnode : t.node? (place ++ names) ≠ none) :
    t.node? place = some .directory := by
  induction names generalizing place with
  | nil => exact absurd rfl hnames
  | cons name names ih =>
    rw [← List.singleton_append, ← List.append_assoc] at hnode
    refine h place name fun hnone => ?_
    cases names with
    | nil => exact hnode (by rwa [List.append_nil])
    | cons next names =>
      rw [ih (by simp) hnode] at hnone
      cases hnone

theorem Rooted.below (h : t.Rooted) (hnone : t.node? place = none) (names : List String) :
    t.node? (place ++ names) = none := by
  by_cases hnames : names = []
  · rwa [hnames, List.append_nil]
  · refine Decidable.byContradiction fun hnode => ?_
    rw [h.above hnames hnode] at hnone
    cases hnone

theorem Rooted.parent (h : t.Rooted) (hnode : t.node? place ≠ none) :
    t.node? place.dropLast = some .directory := by
  rcases List.eq_nil_or_concat place with rfl | ⟨parent, name, rfl⟩
  · rfl
  · rw [List.concat_eq_append] at hnode ⊢
    rw [List.dropLast_concat]
    exact h parent name hnode

/-- A path leads into a directory, whether there is something or not. -/
theorem Rooted.follow_parent (h : t.Rooted) {parts : List String}
    (hplace : t.node? place.dropLast = some .directory)
    (hfollow : t.follow place parts = .ok target) :
    t.node? target.dropLast = some .directory := by
  induction parts generalizing place with
  | nil =>
    cases hfollow
    exact hplace
  | cons part parts ih =>
    obtain ⟨hnode, ⟨-, hfollow⟩ | ⟨-, -, hfollow⟩⟩ := follow_cons_eq_ok.mp hfollow
    · exact ih (h.parent (by simp [hplace])) hfollow
    · exact ih (by rwa [List.dropLast_concat]) hfollow

/-! ## Rooted trees stay rooted -/

theorem Rooted.put (h : t.Rooted) (hparent : t.node? place.dropLast = some .directory)
    (hnode : t.node? place ≠ some .directory) (node : FileNode) : (t.put place node).Rooted := by
  have hplace : place ≠ [] := by
    rintro rfl
    exact hnode rfl
  have hkeeps (other : Place) (hother : t.node? other = some .directory) :
      (t.put place node).node? other = some .directory := by
    have hne : other ≠ place := by
      rintro rfl
      exact hnode hother
    rw [node?_put node hplace, if_neg hne, hother]
  intro other name hentry
  rw [node?_put node hplace] at hentry
  split at hentry
  · rename_i hsame
    rw [← hsame, List.dropLast_concat] at hparent
    exact hkeeps other hparent
  · exact hkeeps other (h other name hentry)

theorem Rooted.makeDirectory (h : t.Rooted) (hmade : t.makeDirectory path = .ok t') :
    t'.Rooted := by
  obtain ⟨place, hplace, hnone, rfl⟩ := makeDirectory_eq_ok.mp hmade
  exact h.put (h.follow_parent rfl hplace) (by simp [hnone]) .directory

theorem Rooted.makeDirectories (h : t.Rooted) (orKeep : Bool) (path : Path) :
    (t.makeDirectories orKeep path).1.Rooted :=
  makeDirectories_induct (fun hmade ht => ht.makeDirectory hmade) h orKeep path

theorem Rooted.write (h : t.Rooted) {content : ByteArray} (hwrite : t.write path content = .ok t') :
    t'.Rooted := by
  obtain ⟨place, hplace, hnode, rfl⟩ := write_eq_ok.mp hwrite
  exact h.put (h.follow_parent rfl hplace) hnode (.file content)

/-- Places may be emptied if what lies below an emptied place is emptied too. -/
theorem Rooted.filter (h : t.Rooted) (keep : Place → Bool)
    (hkeep : ∀ place name, place ≠ [] → keep (place ++ [name]) = true → keep place = true) :
    Rooted ⟨t.nodes.filter (keep ·.1)⟩ := by
  intro place name hnode
  rw [node?_filter t keep (by simp)] at hnode
  by_cases hroot : place = []
  · rw [hroot]
    rfl
  · split at hnode
    · rename_i hname
      rw [node?_filter t keep hroot, if_pos (hkeep place name hroot hname)]
      exact h place name hnode
    · exact absurd rfl hnode

theorem isWithin_append {directory : Place} (h : isWithin directory place = true) (name : String) :
    isWithin directory (place ++ [name]) = true := by
  rw [isWithin, List.isPrefixOf_iff_prefix] at h ⊢
  exact h.trans (List.prefix_append place [name])

theorem Rooted.remove (h : t.Rooted) (place : Place) : (t.remove place).Rooted := by
  refine h.filter (fun other => !isWithin place other) fun other name _ hname => ?_
  cases hother : isWithin place other with
  | false => rfl
  | true => simp [isWithin_append hother name] at hname

theorem Rooted.clear (h : t.Rooted) (place : Place) : (t.clear place).Rooted := by
  refine h.filter (fun other => other = place || !isWithin place other) fun other name _ hname => ?_
  cases hother : isWithin place other with
  | false => simp
  | true =>
    -- what lies below the place is not the place itself
    have hlength := (List.isPrefixOf_iff_prefix.mp hother).length_le
    have hne : other ++ [name] ≠ place := by
      rintro rfl
      rw [List.length_append, List.length_singleton] at hlength
      omega
    simp [hne, isWithin_append hother name] at hname

theorem Rooted.removeDirectory (h : t.Rooted) (path : Path) :
    (t.removeDirectory path).1.Rooted := by
  unfold FileTree.removeDirectory
  split
  · exact h
  · exact h
  · simp only
    split
    · exact h.clear _
    · exact (h.clear _).remove _

/-! ## New directories -/

/-- The path leads to a directory in which there is nothing. -/
structure EmptyAt (t : FileTree) (path : Path) (place : Place) : Prop where
  located : t.locate path = .ok place
  directory : t.node? place = some .directory
  empty : ∀ names ≠ [], t.node? (place ++ names) = none

theorem Rooted.emptyAt_makeDirectory (h : t.Rooted) (hmade : t.makeDirectory path = .ok t') :
    ∃ place, EmptyAt t' path place := by
  have hgrows := makeDirectory_grows hmade
  obtain ⟨place, hplace, hnone, rfl⟩ := makeDirectory_eq_ok.mp hmade
  have hroot : place ≠ [] := by
    rintro rfl
    cases hnone
  refine ⟨place, hgrows.keepsDirectories.follow hplace, ?_, fun names hnames => ?_⟩
  · rw [node?_put .directory hroot, if_pos rfl]
  · rw [node?_put .directory hroot, if_neg (by simpa using hnames), h.below hnone]

/-- A directory that did not exist is empty when it is made. -/
theorem Rooted.emptyAt_makeDirectories (h : t.Rooted)
    (hmade : t.makeDirectories false path = (t', none)) : ∃ place, EmptyAt t' path place := by
  rw [FileTree.makeDirectories] at hmade
  split at hmade
  · rename_i made hfirst
    cases hmade
    exact h.emptyAt_makeDirectory hfirst
  · split at hmade
    · split at hmade
      · cases hmade
      · have habove := h.makeDirectories true path.parent
        split at hmade
        · cases hmade
        · rename_i middle heq
          rw [heq] at habove
          split at hmade
          · rename_i made hsecond
            cases hmade
            exact habove.emptyAt_makeDirectory hsecond
          · simp at hmade
    · simp at hmade

/-! ## Directories below a directory -/

/-- The names can stand in a directory. -/
def Fits (names : List String) : Prop :=
  ∀ name ∈ names, name ≠ Path.parentStep ∧ name.utf8ByteSize ≤ maxNameBytes

theorem follow_cons_of_fits {name : String} (hname : name ≠ Path.parentStep)
    (hsize : name.utf8ByteSize ≤ maxNameBytes) (hnode : t.node? place = some .directory) :
    t.follow place (name :: names) = t.follow (place ++ [name]) names := by
  rw [follow, hnode]
  simp [hname, Nat.not_lt.mpr hsize]

/-- Names lead down to a directory that exists. -/
theorem Rooted.follow_directory (h : t.Rooted) (hfits : Fits names)
    (hnode : t.node? (place ++ names) = some .directory) :
    t.follow place names = .ok (place ++ names) := by
  induction names generalizing place with
  | nil => simp [follow]
  | cons name names ih =>
    obtain ⟨⟨hname, hsize⟩, hfits⟩ := List.forall_mem_cons.mp hfits
    have hplace : t.node? place = some .directory :=
      h.above (List.cons_ne_nil name names) (by simp [hnode])
    rw [← List.singleton_append, ← List.append_assoc] at hnode ⊢
    rw [List.singleton_append, follow_cons_of_fits hname hsize hplace, ih hfits hnode]

/-- Names do not lead through a place where nothing stands, if no file is met before. -/
theorem follow_missing {last : String} (hfits : Fits names)
    (hnone : t.node? (place ++ names) = none)
    (hopen : ∀ part, part <+: names → ∀ content, t.node? (place ++ part) ≠ some (.file content)) :
    t.follow place (names ++ [last]) = .error .noEntry := by
  induction names generalizing place with
  | nil =>
    rw [List.append_nil] at hnone
    rw [List.nil_append, follow, hnone]
  | cons name names ih =>
    obtain ⟨⟨hname, hsize⟩, hfits⟩ := List.forall_mem_cons.mp hfits
    rw [List.cons_append]
    cases hnode : t.node? place with
    | none => rw [follow, hnode]
    | some node =>
      cases node with
      | file content => exact absurd (by rwa [List.append_nil]) (hopen [] List.nil_prefix content)
      | directory =>
        rw [follow_cons_of_fits hname hsize hnode]
        refine ih hfits (by simpa using hnone) fun part hpart content => ?_
        simpa using hopen (name :: part) (by simpa using hpart) content

/-- A name in a directory that exists can be reached. -/
theorem Rooted.locate_below (h : t.Rooted) {directory : Path} {name : String}
    (hlocated : t.locate directory = .ok place) (hfits : Fits (names ++ [name]))
    (hnode : t.node? (place ++ names) = some .directory) :
    t.locate (directory.below (names ++ [name])) = .ok (place ++ (names ++ [name])) := by
  obtain ⟨hnames, hname⟩ := List.forall_mem_append.mp hfits
  obtain ⟨hstep, hsize⟩ := hname name (List.mem_singleton_self name)
  have hplace : t.follow [] directory.parts = .ok place := hlocated
  rw [locate, Path.below, follow_append, hplace, Except.bind, follow_append,
    h.follow_directory hnames hnode, Except.bind, follow_cons_of_fits hstep hsize hnode,
    List.append_assoc]
  rfl

theorem makeDirectories_existing (hlocated : t.locate path = .ok place)
    (hnode : t.node? place = some .directory) : t.makeDirectories true path = (t, none) := by
  have hmade : t.makeDirectory path = .error (OsFault.alreadyExists.about path) := by
    simp [FileTree.makeDirectory, hlocated, hnode]
  have hdirectory : t.isDirectory path = true := by
    simp [isDirectory, lookup, hlocated, hnode, bind, Except.bind]
  rw [FileTree.makeDirectories, hmade]
  simp [OsFault.about, hdirectory]

/-- A directory whose parent is missing is made after its parent. -/
theorem makeDirectories_missing {made : FileTree} {orKeep : Bool}
    (hlocated : t.locate path = .error .noEntry) (hparts : path.parts ≠ [])
    (hparent : t.makeDirectories true path.parent = (t', none))
    (hmade : t'.makeDirectory path = .ok made) : t.makeDirectories orKeep path = (made, none) := by
  have hfirst : t.makeDirectory path = .error (OsFault.noEntry.about path) := by
    rw [FileTree.makeDirectory, hlocated]
  rw [FileTree.makeDirectories, hfirst]
  simp only [OsFault.about, ↓reduceIte, hparts, ↓reduceDIte, hparent, hmade]

/-- The second tree has new directories on the way that the names lead from a place. -/
def Adds (t t' : FileTree) (place : Place) (names : List String) : Prop :=
  ∀ other, t'.node? other = t.node? other ∨
    t'.node? other = some .directory ∧ ∃ part, part <+: names ∧ other = place ++ part

/-- The last directory on the way is made in the one before it. -/
theorem Rooted.makeDirectory_below (h : t'.Rooted) {directory : Path} {name : String}
    (hlocated : t'.locate directory = .ok place) (hfits : Fits (names ++ [name]))
    (hnode : t'.node? (place ++ names) = some .directory) (hadds : t.Adds t' place names)
    (hnone : t.node? (place ++ (names ++ [name])) = none) :
    ∃ made, t'.makeDirectory (directory.below (names ++ [name])) = .ok made ∧
      made.node? (place ++ (names ++ [name])) = some .directory ∧
      t.Adds made place (names ++ [name]) := by
  have hroot : place ++ (names ++ [name]) ≠ [] := by simp
  have hnone' : t'.node? (place ++ (names ++ [name])) = none := by
    rcases hadds (place ++ (names ++ [name])) with hsame | ⟨-, part, hpart, heq⟩
    · rw [hsame, hnone]
    · have hlength := hpart.length_le
      rw [← List.append_cancel_left heq, List.length_append, List.length_singleton] at hlength
      omega
  refine ⟨t'.put (place ++ (names ++ [name])) .directory, ?_, ?_, fun other => ?_⟩
  · exact makeDirectory_eq_ok.mpr ⟨_, h.locate_below hlocated hfits hnode, hnone', rfl⟩
  · rw [node?_put .directory hroot, if_pos rfl]
  · rw [node?_put .directory hroot]
    split
    · rename_i hother
      exact .inr ⟨rfl, names ++ [name], List.prefix_rfl, hother⟩
    · refine (hadds other).imp_right fun ⟨hother, part, hpart, heq⟩ => ⟨hother, part, ?_, heq⟩
      exact hpart.trans (List.prefix_append names [name])

/-- Directories can be made below a directory if no file is in the way. -/
theorem Rooted.makeDirectories_below (h : t.Rooted) {directory : Path}
    (hlocated : t.locate directory = .ok place) (hplace : t.node? place = some .directory)
    (hfits : Fits names)
    (hopen : ∀ part, part <+: names → ∀ content, t.node? (place ++ part) ≠ some (.file content)) :
    ∃ t', t.makeDirectories true (directory.below names) = (t', none) ∧
      t'.node? (place ++ names) = some .directory ∧ t.Adds t' place names := by
  induction names using List.reverseRecOn with
  | nil =>
    refine ⟨t, ?_, by rwa [List.append_nil], fun other => .inl rfl⟩
    exact makeDirectories_existing (by rwa [Path.below, List.append_nil]) hplace
  | append_singleton names name ih =>
    have hprefix : names <+: names ++ [name] := List.prefix_append names [name]
    obtain ⟨hnames, -⟩ := List.forall_mem_append.mp hfits
    rcases hend : t.node? (place ++ (names ++ [name])) with - | ⟨- | content⟩
    · rcases hway : t.node? (place ++ names) with - | ⟨- | content⟩
      · -- the directory before it is missing too and is made first
        obtain ⟨t', hmade, hnode, hadds⟩ :=
          ih hnames fun part hpart => hopen part (hpart.trans hprefix)
        have hgrows := t.makeDirectories_grows true (directory.below names)
        have hrooted := h.makeDirectories true (directory.below names)
        rw [hmade] at hgrows hrooted
        obtain ⟨made, hlast, hdirectory, hadds⟩ := hrooted.makeDirectory_below
          (hgrows.keepsDirectories.follow hlocated) hfits hnode hadds hend
        refine ⟨made, ?_, hdirectory, hadds⟩
        have hmissing : t.locate (directory.below (names ++ [name])) = .error .noEntry := by
          have hlocated : t.follow [] directory.parts = .ok place := hlocated
          rw [locate, Path.below, follow_append, hlocated]
          exact follow_missing hnames hway fun part hpart => hopen part (hpart.trans hprefix)
        have hparent : (directory.below (names ++ [name])).parent = directory.below names := by
          simp [Path.parent, Path.below, ← List.append_assoc]
        exact makeDirectories_missing hmissing (by simp [Path.below]) (hparent ▸ hmade) hlast
      · obtain ⟨made, hlast, hdirectory, hadds⟩ :=
          h.makeDirectory_below hlocated hfits hway (fun other => .inl rfl) hend
        refine ⟨made, ?_, hdirectory, hadds⟩
        rw [FileTree.makeDirectories, hlast]
      · exact absurd hway (hopen names hprefix content)
    · have hway : t.node? (place ++ names) = some .directory := by
        refine h (place ++ names) name ?_
        rw [List.append_assoc, hend]
        simp
      exact ⟨t, makeDirectories_existing (h.locate_below hlocated hfits hway) hend, hend,
        fun other => .inl rfl⟩
    · exact absurd hend (hopen _ List.prefix_rfl content)

end Covenant.FileTree

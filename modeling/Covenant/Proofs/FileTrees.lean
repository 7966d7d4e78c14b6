/-
What the operations on file trees change and what they leave. Making directories only
adds to a tree (`FileTree.makeDirectories_grows`), and writing a file replaces what
stands at one place, which is no directory (`FileTree.write_eq_ok`). So paths that lead
somewhere lead there still, what was written can be read back (`FileTree.read_write`),
and files with other names below the same directory stay as they are
(`FileTree.read_write_other`).
-/
import Covenant.FileTree.Basic

namespace Covenant.FileTree

/-! ## Places -/

theorem lookup_filter {α β : Type} [BEq α] [LawfulBEq α] (keep : α → Bool) (a : α)
    (entries : List (α × β)) :
    (entries.filter (keep ·.1)).lookup a = if keep a then entries.lookup a else none := by
  induction entries with
  | nil => simp
  | cons entry entries ih =>
    obtain ⟨b, node⟩ := entry
    rw [List.filter_cons, List.lookup_cons]
    by_cases ha : (a == b) = true
    · obtain rfl := eq_of_beq ha
      by_cases hkeep : keep a = true <;> simp [hkeep, ih]
    · by_cases hkeep : keep b = true <;> simp [hkeep, ha, ih, List.lookup_cons]

/-- What is left if some places are emptied. -/
theorem node?_filter (t : FileTree) (keep : Place → Bool) {place : Place} (hplace : place ≠ []) :
    (⟨t.nodes.filter (keep ·.1)⟩ : FileTree).node? place =
      if keep place then t.node? place else none := by
  have hroot : place.isEmpty = false := by simpa using hplace
  simp [node?, hroot, lookup_filter]

theorem node?_put {t : FileTree} {place : Place} (node : FileNode) (hplace : place ≠ [])
    (other : Place) :
    (t.put place node).node? other = if other = place then some node else t.node? other := by
  by_cases hother : other = []
  · subst hother
    rw [if_neg hplace.symm]
    rfl
  · have hroot : other.isEmpty = false := by simpa using hother
    have hfilter := lookup_filter (fun q : Place => decide (q ≠ place)) other t.nodes
    simp only [node?, hroot, put, List.lookup_append, hfilter]
    by_cases h : other = place
    · simp [h]
    · simp [h, List.lookup_cons, beq_false_of_ne h]

/-- The directories of the first tree are directories of the second. -/
def KeepsDirectories (t t' : FileTree) : Prop :=
  ∀ place, t.node? place = some .directory → t'.node? place = some .directory

/-- What stands in the first tree stands in the second. -/
def Grows (t t' : FileTree) : Prop :=
  ∀ place node, t.node? place = some node → t'.node? place = some node

theorem Grows.refl (t : FileTree) : t.Grows t := fun _ _ h => h

theorem Grows.trans {t t' t'' : FileTree} (h : t.Grows t') (h' : t'.Grows t'') : t.Grows t'' :=
  fun place node hnode => h' place node (h place node hnode)

theorem Grows.keepsDirectories {t t' : FileTree} (h : t.Grows t') : t.KeepsDirectories t' :=
  fun place hnode => h place .directory hnode

/-! ## Paths -/

theorem follow_cons_eq_ok {t : FileTree} {place target : Place} {part : String}
    {parts : List String} :
    t.follow place (part :: parts) = .ok target ↔
      t.node? place = some .directory ∧
        (part = Path.parentStep ∧ t.follow place.dropLast parts = .ok target ∨
          part ≠ Path.parentStep ∧ part.utf8ByteSize ≤ maxNameBytes ∧
            t.follow (place ++ [part]) parts = .ok target) := by
  rw [follow]
  split <;> grind

/-- A path that leads somewhere leads there still if no directory is lost. -/
theorem KeepsDirectories.follow {t t' : FileTree} (h : t.KeepsDirectories t') {place target : Place}
    {parts : List String} (hfollow : t.follow place parts = .ok target) :
    t'.follow place parts = .ok target := by
  induction parts generalizing place with
  | nil => exact hfollow
  | cons part parts ih =>
    rw [follow_cons_eq_ok] at hfollow ⊢
    exact ⟨h place hfollow.1, hfollow.2.imp (.imp_right ih) (.imp_right (.imp_right ih))⟩

theorem follow_append (t : FileTree) (place : Place) (parts more : List String) :
    t.follow place (parts ++ more) = (t.follow place parts).bind (t.follow · more) := by
  induction parts generalizing place with
  | nil => rfl
  | cons part parts ih =>
    rw [List.cons_append, follow, follow]
    rcases t.node? place with - | ⟨- | content⟩
    · rfl
    · simp only [ih]
      split
      · rfl
      · split <;> rfl
    · rfl

/-- Names lead down, and each has to fit. -/
theorem follow_names {t : FileTree} {place target : Place} {names : List String}
    (hnames : Path.parentStep ∉ names) (h : t.follow place names = .ok target) :
    target = place ++ names ∧ ∀ name ∈ names, name.utf8ByteSize ≤ maxNameBytes := by
  induction names generalizing place with
  | nil =>
    cases h
    simp
  | cons name names ih =>
    rw [List.mem_cons, not_or] at hnames
    obtain ⟨-, ⟨rfl, -⟩ | ⟨-, hsize, h⟩⟩ := follow_cons_eq_ok.mp h
    · exact absurd rfl hnames.1
    · obtain ⟨rfl, hfits⟩ := ih hnames.2 h
      simpa using ⟨hsize, hfits⟩

/-- A path into a directory leads there first, and then to the names in order. -/
theorem locate_below_cases {t : FileTree} {directory : Path} {names : List String} {target : Place}
    (hnames : Path.parentStep ∉ names) (h : t.locate (directory.below names) = .ok target) :
    ∃ place, t.locate directory = .ok place ∧ target = place ++ names ∧
      ∀ name ∈ names, name.utf8ByteSize ≤ maxNameBytes := by
  rw [locate, Path.below, follow_append] at h
  cases hplace : t.follow [] directory.parts with
  | error fault =>
    rw [hplace] at h
    cases h
  | ok place =>
    rw [hplace] at h
    exact ⟨place, hplace, follow_names hnames h⟩

/-- Different names below a directory lead to different places. -/
theorem locate_below_ne {t : FileTree} {directory : Path} {names names' : List String}
    {place place' : Place} (hne : names ≠ names') (hnames : Path.parentStep ∉ names)
    (hnames' : Path.parentStep ∉ names') (h : t.locate (directory.below names) = .ok place)
    (h' : t.locate (directory.below names') = .ok place') : place ≠ place' := by
  obtain ⟨base, hbase, rfl, -⟩ := locate_below_cases hnames h
  obtain ⟨base', hbase', rfl, -⟩ := locate_below_cases hnames' h'
  obtain rfl : base = base' := Except.ok.inj (hbase.symm.trans hbase')
  simpa using hne

/-! ## Reading -/

theorem read_eq_ok {t : FileTree} {path : Path} {content : ByteArray} :
    t.read path = .ok content ↔
      ∃ place, t.locate path = .ok place ∧ t.node? place = some (.file content) := by
  unfold read lookup
  cases hplace : t.locate path with
  | error fault => simp [bind, Except.bind]
  | ok place =>
    simp only [bind, Except.bind, Except.ok.injEq, exists_eq_left']
    cases hnode : t.node? place with
    | none => simp
    | some node => cases node <;> simp

theorem Grows.read {t t' : FileTree} (h : t.Grows t') {path : Path} {content : ByteArray}
    (hread : t.read path = .ok content) : t'.read path = .ok content := by
  obtain ⟨place, hplace, hnode⟩ := read_eq_ok.mp hread
  exact read_eq_ok.mpr ⟨place, h.keepsDirectories.follow hplace, h place _ hnode⟩

/-! ## Making directories -/

theorem makeDirectory_eq_ok {t t' : FileTree} {path : Path} :
    t.makeDirectory path = .ok t' ↔
      ∃ place, t.locate path = .ok place ∧ t.node? place = none ∧ t' = t.put place .directory := by
  unfold makeDirectory
  split <;> grind

theorem makeDirectory_grows {t t' : FileTree} {path : Path} (h : t.makeDirectory path = .ok t') :
    t.Grows t' := by
  obtain ⟨place, -, hnone, rfl⟩ := makeDirectory_eq_ok.mp h
  intro other node hnode
  have hplace : place ≠ [] := by
    rintro rfl
    cases hnone
  have hother : other ≠ place := by
    rintro rfl
    rw [hnone] at hnode
    cases hnode
  rw [node?_put .directory hplace, if_neg hother, hnode]

/-- What each new directory preserves is preserved, whether all can be made or not. -/
theorem makeDirectories_induct {P : FileTree → Prop}
    (hstep : ∀ {t t' : FileTree} {path : Path}, t.makeDirectory path = .ok t' → P t → P t')
    {t : FileTree} (h : P t) (orKeep : Bool) (path : Path) :
    P (t.makeDirectories orKeep path).1 := by
  fun_induction makeDirectories t orKeep path with
  | case1 _ _ made hmade => exact hstep hmade h
  | case2 => exact h
  | case3 _ _ _ _ _ _ _ _ heq ih =>
    rw [heq] at ih
    exact ih
  | case4 _ _ _ _ _ _ _ heq made hmade ih =>
    rw [heq] at ih
    exact hstep hmade ih
  | case5 _ _ _ _ _ _ _ heq _ _ _ ih =>
    rw [heq] at ih
    exact ih
  | case6 _ _ _ _ _ _ _ heq _ _ _ ih =>
    rw [heq] at ih
    exact ih
  | case7 => exact h
  | case8 => exact h

theorem makeDirectories_grows (t : FileTree) (orKeep : Bool) (path : Path) :
    t.Grows (t.makeDirectories orKeep path).1 :=
  makeDirectories_induct (fun hmade h => h.trans (makeDirectory_grows hmade)) (.refl t) orKeep path

/-! ## Writing -/

theorem write_eq_ok {t t' : FileTree} {path : Path} {content : ByteArray} :
    t.write path content = .ok t' ↔
      ∃ place, t.locate path = .ok place ∧ t.node? place ≠ some .directory ∧
        t' = t.put place (.file content) := by
  unfold write
  split <;> grind

/-- Writing a file changes its own place only, which is no directory. -/
theorem write_cases {t t' : FileTree} {path : Path} {content : ByteArray}
    (h : t.write path content = .ok t') :
    ∃ place, t.locate path = .ok place ∧ t.KeepsDirectories t' ∧
      ∀ other, t'.node? other = if other = place then some (.file content) else t.node? other := by
  obtain ⟨place, hplace, hnode, rfl⟩ := write_eq_ok.mp h
  have hne : place ≠ [] := by
    rintro rfl
    exact hnode rfl
  refine ⟨place, hplace, fun other hother => ?_, node?_put _ hne⟩
  have hother' : other ≠ place := by
    rintro rfl
    exact hnode hother
  rw [node?_put _ hne, if_neg hother', hother]

theorem read_write {t t' : FileTree} {path : Path} {content : ByteArray}
    (h : t.write path content = .ok t') : t'.read path = .ok content := by
  obtain ⟨place, hplace, hkeeps, hnode⟩ := write_cases h
  exact read_eq_ok.mpr ⟨place, hkeeps.follow hplace, by rw [hnode, if_pos rfl]⟩

/-- A file with other names below the same directory is left alone. -/
theorem read_write_other {t t' : FileTree} {directory : Path} {names names' : List String}
    {content content' : ByteArray} (h : t.write (directory.below names) content = .ok t')
    (hne : names' ≠ names) (hnames : Path.parentStep ∉ names) (hnames' : Path.parentStep ∉ names')
    (hread : t.read (directory.below names') = .ok content') :
    t'.read (directory.below names') = .ok content' := by
  obtain ⟨place, hplace, hkeeps, hnode⟩ := write_cases h
  obtain ⟨place', hplace', hnode'⟩ := read_eq_ok.mp hread
  refine read_eq_ok.mpr ⟨place', hkeeps.follow hplace', ?_⟩
  rw [hnode, if_neg (locate_below_ne hne hnames' hnames hplace' hplace), hnode']

end Covenant.FileTree

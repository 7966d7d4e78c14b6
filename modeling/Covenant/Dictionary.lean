/-
Dictionaries: values under keys, in the order in which the keys came first.
-/
namespace Covenant

/-- Values under keys, in the order in which the keys came first. -/
abbrev Dictionary (α : Type) := List (String × α)

namespace Dictionary

variable {α : Type}

def keys (d : Dictionary α) : List String :=
  d.map (·.1)

/-- The value under a key. -/
def get? (d : Dictionary α) (key : String) : Option α :=
  d.lookup key

/-- The values under the keys, one by one. -/
def getAll (d : Dictionary α) (keys : List String) : List α :=
  keys.filterMap d.get?

/-- Gives a key its value. A key that has one already keeps its place. -/
def put (d : Dictionary α) (key : String) (value : α) : Dictionary α :=
  if key ∈ d.keys then d.map fun entry => if entry.1 = key then (key, value) else entry
  else d ++ [(key, value)]

theorem put_of_not_mem {d : Dictionary α} {key : String} (h : key ∉ d.keys) (value : α) :
    d.put key value = d ++ [(key, value)] :=
  if_neg h

theorem keys_put (d : Dictionary α) (key : String) (value : α) :
    (d.put key value).keys = if key ∈ d.keys then d.keys else d.keys ++ [key] := by
  unfold put
  split
  · simp only [keys, List.map_map, List.map_inj_left, Function.comp_apply]
    grind
  · simp [keys]

theorem nodup_put {d : Dictionary α} (h : d.keys.Nodup) (key : String) (value : α) :
    (d.put key value).keys.Nodup := by
  rw [keys_put]
  split
  · exact h
  · rw [List.nodup_append]
    grind

theorem mem_put {d : Dictionary α} {key : String} {value : α} {entry : String × α} :
    entry ∈ d.put key value ↔ if entry.1 = key then entry.2 = value else entry ∈ d := by
  unfold put keys
  grind

theorem get?_eq_none_iff {d : Dictionary α} {key : String} : d.get? key = none ↔ key ∉ d.keys := by
  simp only [get?, List.lookup_eq_none_iff, keys, List.mem_map]
  grind

theorem mem_of_get? {d : Dictionary α} {key : String} {value : α} (h : d.get? key = some value) :
    (key, value) ∈ d := by
  obtain ⟨before, after, rfl, -⟩ := List.lookup_eq_some_iff.mp h
  simp

/-- If no key comes twice, a key finds every entry that has it. -/
theorem get?_eq_some_iff {d : Dictionary α} (h : d.keys.Nodup) {key : String} {value : α} :
    d.get? key = some value ↔ (key, value) ∈ d := by
  refine ⟨mem_of_get?, fun hmem => ?_⟩
  obtain ⟨before, after, rfl⟩ := List.append_of_mem hmem
  rw [get?, List.lookup_eq_some_iff]
  refine ⟨before, after, rfl, fun entry hentry => ?_⟩
  rw [keys, List.map_append, List.map_cons, List.nodup_append] at h
  have hne := h.2.2 entry.1 (List.mem_map_of_mem hentry) key List.mem_cons_self
  simpa using hne.symm

theorem get?_eq_getElem? (d : Dictionary α) (key : String) :
    d.get? key = d[d.keys.idxOf key]?.map (·.2) := by
  induction d with
  | nil => rfl
  | cons entry d ih =>
    obtain ⟨other, value⟩ := entry
    change ((other, value) :: d).lookup key =
      ((other, value) :: d)[(other :: keys d).idxOf key]?.map (·.2)
    by_cases hkey : key = other
    · simp [hkey]
    · rw [List.lookup_cons, beq_false_of_ne hkey, List.idxOf_cons, beq_false_of_ne (Ne.symm hkey)]
      exact ih

end Dictionary

end Covenant

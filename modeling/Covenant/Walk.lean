/-
Walks that enter nothing twice. Over a finite list of places such a walk ends,
since every step leaves fewer places unvisited.
-/
namespace Covenant

variable {α : Type} [DecidableEq α]

/-- How many of the places have not been visited. -/
def unvisited (places visited : List α) : Nat :=
  (places.filter (· ∉ visited)).length

theorem unvisited_cons_le (places visited : List α) (place : α) :
    unvisited places (place :: visited) ≤ unvisited places visited := by
  unfold unvisited
  rw [← List.countP_eq_length_filter, ← List.countP_eq_length_filter]
  apply List.countP_mono_left
  intro x _ hx
  simp only [decide_eq_true_eq, List.mem_cons, not_or] at hx ⊢
  exact hx.2

/-- Visiting one of the places for the first time leaves fewer unvisited. -/
theorem unvisited_cons_lt {places visited : List α} {place : α} (listed : place ∈ places)
    (fresh : place ∉ visited) : unvisited places (place :: visited) < unvisited places visited := by
  induction places with
  | nil => simp at listed
  | cons a rest ih =>
    by_cases same : a = place
    · subst same
      have le := unvisited_cons_le rest visited a
      simp only [unvisited, List.filter_cons] at le ⊢
      simpa [fresh] using Nat.lt_succ_of_le le
    · have less := ih ((List.mem_cons.mp listed).resolve_left (Ne.symm same))
      simp only [unvisited, List.filter_cons] at less ⊢
      by_cases seen : a ∈ visited
      · simpa [seen, same] using less
      · simpa [seen, same] using less

/-- Visiting something else leaves the same places unvisited. -/
theorem unvisited_cons_of_not_mem {places visited : List α} {place : α} (h : place ∉ places) :
    unvisited places (place :: visited) = unvisited places visited := by
  unfold unvisited
  congr 1
  apply List.filter_congr
  intro x hx
  have : x ≠ place := fun eq => h (eq ▸ hx)
  simp [this]

end Covenant

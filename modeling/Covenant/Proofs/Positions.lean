/-
Places in a text. The scanner keeps line and column in step with the characters it
passes; the place it has then is that of the number of characters passed, counted from
the text (`Position.start_after_take`). A place belongs to one offset only
(`Position.split_unique`).
-/
import Covenant.Token.Basic
import Mathlib.Data.List.Induction

namespace Covenant.Position

/-! ## Passing characters -/

theorem after_append (p : Position) (cs ds : List Char) :
    p.after (cs ++ ds) = (p.after cs).after ds :=
  List.foldl_append

/-- Each character leads to a later line or to a later column of the same line. -/
theorem after_grows (p : Position) (cs : List Char) :
    p.line < (p.after cs).line ∨
      (p.after cs).line = p.line ∧ p.column + cs.length ≤ (p.after cs).column := by
  induction cs generalizing p with
  | nil => simp [after]
  | cons c cs ih =>
    have := ih (p.next c)
    rw [show p.after (c :: cs) = (p.next c).after cs from rfl]
    unfold next at this ⊢
    grind

/-- A place is left behind for good. -/
theorem after_ne {cs : List Char} (hne : cs ≠ []) (p : Position) : p.after cs ≠ p := by
  intro h
  have := p.after_grows cs
  have := List.length_pos_iff.mpr hne
  grind

/-- A text is split at a place in one way only. -/
theorem split_unique {p : Position} {before after before' after' : List Char}
    (h : before ++ after = before' ++ after') (hplace : p.after before = p.after before') :
    before = before' ∧ after = after' := by
  have hnil {cs ds : List Char} (he : p.after cs = p.after (cs ++ ds)) : ds = [] := by
    refine Decidable.byContradiction fun hne => after_ne hne (p.after cs) ?_
    rw [← after_append, he]
  rcases List.append_eq_append_iff.mp h with ⟨ds, rfl, rfl⟩ | ⟨ds, rfl, rfl⟩
  · obtain rfl := hnil hplace
    simp
  · obtain rfl := hnil hplace.symm
    simp

/-! ## Offsets -/

/-- The place of an offset: one more than the line ends before it, and one more than the characters
since the last of these. -/
def ofOffset (text : List Char) (offset : Nat) : Position :=
  ⟨1 + (text.take offset).count '\n',
    1 + ((text.take offset).reverse.takeWhile (· ≠ '\n')).length⟩

/-- The scanner's place after the first characters of a text is that of their number. -/
theorem start_after_take (text : List Char) (offset : Nat) :
    start.after (text.take offset) = ofOffset text offset := by
  unfold ofOffset
  induction text.take offset using List.reverseRecOn with
  | nil => rfl
  | append_singleton cs c ih =>
    rw [after_append, ih]
    by_cases hc : c = '\n'
    · simp [after, next, hc, Nat.add_assoc]
    · simp [after, next, hc, Nat.add_comm]

end Covenant.Position

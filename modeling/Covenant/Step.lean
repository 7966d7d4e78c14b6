/-
Steps that can fail. A step works on a state, and what it has changed stays changed when
it fails.
-/
namespace Covenant

/-- A step that works on a state and can fail, with or without having changed it. -/
abbrev Step (ε σ : Type) := ExceptT ε (StateM σ)

variable {ε σ α β : Type}

/-- A step that fails leaves the state to nothing that comes behind it. -/
theorem Step.run_bind (step : Step ε σ α) (next : α → Step ε σ β) (s : σ) :
    (step >>= next).run s =
      match step.run s with
      | (.ok a, t) => (next a).run t
      | (.error e, t) => (.error e, t) := by
  change StateT.bind step.run (ExceptT.bindCont next) s = _
  unfold StateT.bind
  rcases step.run s with ⟨a | e, t⟩ <;> rfl

end Covenant

/-
When a contract is paused. Whatever its template model is called and whatever terms it has,
a contract is paused after a sequence of calls if and only if its owner paused it and did
not resume it later; the owner alone can do either, and requests are refused while it is
paused, and only then (`Contract.pause_safety`).

The messages of a contract are looked up by name, and of several with one name the last one
answers. Terms give rise to messages too, so the argument rests on one fact about all
messages together: what a message is guarded by follows from its name
(`GuardedByName`). Then it does not matter which of several answers.
-/
import Covenant.Contract.Machine
import Covenant.Text.Split
import Mathlib.Data.List.Induction

namespace Covenant

open Covenant.Text

/-! ## Guards -/

/-- `pause` and `unpause` are there, they alone are for the owner, and only `process_request`
needs the active state. -/
structure GuardedByName (messages : List Message) : Prop where
  pause : "pause" ∈ messages.map (·.name)
  unpause : "unpause" ∈ messages.map (·.name)
  ownerOnly : ∀ m ∈ messages, m.ownerOnly = true ↔ m.name = "pause" ∨ m.name = "unpause"
  requiresActive : ∀ m ∈ messages, m.requiresActive = true ↔ m.name = "process_request"

theorem guardedByName_contractMessages (exchange? : Option (Classified × Classified))
    (domain : List StorageField) : GuardedByName (contractMessages exchange? domain) := by
  have hcases : ∀ m ∈ contractMessages exchange? domain,
      m ∈ controlMessages ∨ (∃ request response, m = processingMessage request response) ∨
        ∃ field, m = getterMessage field := by
    intro m hm
    unfold contractMessages at hm
    rw [List.mem_append, List.mem_append, List.mem_map] at hm
    rcases hm with (hm | hm) | ⟨field, _, rfl⟩
    · exact .inl hm
    · split at hm
      · exact .inr (.inl ⟨_, _, List.mem_singleton.mp hm⟩)
      · cases hm
    · exact .inr (.inr ⟨field, rfl⟩)
  have hcontrol : ∀ m ∈ controlMessages,
      (m.ownerOnly = true ↔ m.name = "pause" ∨ m.name = "unpause") ∧
        (m.requiresActive = true ↔ m.name = "process_request") := by
    decide
  constructor
  · simp [contractMessages, controlMessages]
  · simp [contractMessages, controlMessages]
  · intro m hm
    obtain hm | ⟨request, response, rfl⟩ | ⟨field, rfl⟩ := hcases m hm
    · exact (hcontrol m hm).1
    · simp [processingMessage]
    · have hpause : getterName field ≠ "pause" := append_ne_of_head (c := 'g') rfl (by decide)
      have hunpause : getterName field ≠ "unpause" := append_ne_of_head (c := 'g') rfl (by decide)
      simp [getterMessage, hpause, hunpause]
  · intro m hm
    obtain hm | ⟨request, response, rfl⟩ | ⟨field, rfl⟩ := hcases m hm
    · exact (hcontrol m hm).2
    · simp [processingMessage]
    · have hrequest : getterName field ≠ "process_request" :=
        append_ne_of_head (c := 'g') rfl (by decide)
      simp [getterMessage, hrequest]

/-! ## One call -/

theorem findMessage?_eq_none_iff {messages : List Message} {name : String} :
    findMessage? messages name = none ↔ name ∉ messages.map (·.name) := by
  simp [findMessage?]

theorem findMessage?_mem {messages : List Message} {name : String} {m : Message}
    (h : findMessage? messages name = some m) : m ∈ messages ∧ m.name = name :=
  ⟨List.mem_reverse.mp (List.mem_of_find?_eq_some h), by simpa using List.find?_some h⟩

namespace GuardedByName

variable {messages : List Message}

/-- All that can become of a call. -/
theorem transition_eq (h : GuardedByName messages) (state : ContractState) (call : Call) :
    transition messages state call =
      if call.message ∉ messages.map (·.name) then .error (.unknown call.message)
      else if (call.message = "pause" ∨ call.message = "unpause") ∧ call.isOwner = false then
        .error (.unauthorized call.message)
      else if call.message = "process_request" ∧ state = .paused then .error (.paused call.message)
      else .ok (state.after call.message) := by
  unfold transition
  cases hfound : findMessage? messages call.message with
  | none => rw [if_pos (findMessage?_eq_none_iff.mp hfound)]
  | some m =>
    obtain ⟨hm, hname⟩ := findMessage?_mem hfound
    have hknown : ¬ call.message ∉ messages.map (·.name) :=
      fun hunknown => hunknown (hname ▸ List.mem_map_of_mem hm)
    have howner := h.ownerOnly m hm
    have hactive := h.requiresActive m hm
    rw [hname] at howner hactive
    simp only [if_neg hknown, Bool.and_eq_true, Bool.not_eq_true', decide_eq_true_eq,
      howner, hactive]

theorem transition_eq_unknown_iff (h : GuardedByName messages) {state : ContractState}
    {call : Call} :
    transition messages state call = .error (.unknown call.message) ↔
      call.message ∉ messages.map (·.name) := by
  rw [h.transition_eq]
  split
  · rename_i hunknown
    simp [hunknown]
  · rename_i hknown
    refine iff_of_false (fun he => ?_) hknown
    split at he
    · cases he
    · split at he <;> cases he

theorem transition_eq_unauthorized_iff (h : GuardedByName messages) {state : ContractState}
    {call : Call} : transition messages state call = .error (.unauthorized call.message) ↔
      (call.message = "pause" ∨ call.message = "unpause") ∧ call.isOwner = false := by
  rw [h.transition_eq]
  split
  · rename_i hunknown
    refine iff_of_false (fun he => by cases he) fun hcontrol => hunknown ?_
    rcases hcontrol.1 with hname | hname <;> rw [hname]
    · exact h.pause
    · exact h.unpause
  · split
    · rename_i hcontrol
      simp [hcontrol]
    · rename_i hcontrol
      refine iff_of_false (fun he => ?_) hcontrol
      split at he <;> cases he

theorem transition_eq_paused_iff (h : GuardedByName messages) {state : ContractState}
    {call : Call} :
    transition messages state call = .error (.paused call.message) ↔
      call.message = "process_request" ∧ "process_request" ∈ messages.map (·.name) ∧
        state = .paused := by
  rw [h.transition_eq]
  split
  · rename_i hunknown
    refine iff_of_false (fun he => by cases he) fun hrequest => hunknown ?_
    rw [hrequest.1]
    exact hrequest.2.1
  · rename_i hknown
    rw [Decidable.not_not] at hknown
    split
    · rename_i hcontrol
      refine iff_of_false (fun he => by cases he) fun hrequest => ?_
      simp [hrequest.1] at hcontrol
    · split
      · rename_i hrequest
        rw [hrequest.1] at hknown
        simp [hrequest, hknown]
      · rename_i hrequest
        exact iff_of_false (fun he => by cases he) fun hpaused => hrequest ⟨hpaused.1, hpaused.2.2⟩

/-- A call changes the state only if it is the owner's `pause` or `unpause`. -/
theorem stateAfter_eq (h : GuardedByName messages) (state : ContractState) (call : Call) :
    stateAfter messages state call =
      if call = ⟨"pause", true⟩ then .paused else if call = ⟨"unpause", true⟩ then .active
        else state := by
  obtain ⟨message, isOwner⟩ := call
  have hpause := h.pause
  have hunpause := h.unpause
  by_cases hcontrol : message = "pause" ∨ message = "unpause"
  · unfold stateAfter
    rw [h.transition_eq]
    rcases hcontrol with rfl | rfl <;> cases isOwner <;>
      simp [hpause, hunpause, ContractState.after]
  · have hafter : state.after message = state := by
      simp only [not_or] at hcontrol
      simp [ContractState.after, hcontrol]
    have hstate : stateAfter messages state ⟨message, isOwner⟩ = state := by
      unfold stateAfter
      rw [h.transition_eq, hafter]
      grind
    grind

end GuardedByName

/-! ## Sequences of calls -/

/-- The state that a sequence of calls leads to. -/
def stateAfterAll (messages : List Message) (state : ContractState) (calls : List Call) :
    ContractState :=
  calls.foldl (stateAfter messages) state

/-- The owner paused the contract and did not resume it later. -/
def EndsPaused (calls : List Call) : Prop :=
  ∃ before after, calls = before ++ ⟨"pause", true⟩ :: after ∧ ⟨"unpause", true⟩ ∉ after

theorem stateAfterAll_append_singleton (messages : List Message) (state : ContractState)
    (calls : List Call) (call : Call) :
    stateAfterAll messages state (calls ++ [call]) =
      stateAfter messages (stateAfterAll messages state calls) call := by
  simp [stateAfterAll]

/-- A run goes on from the state that it led to. -/
theorem runCalls_append_singleton (messages : List Message) (state : ContractState)
    (calls : List Call) (call : Call) :
    runCalls messages state (calls ++ [call]) =
      runCalls messages state calls ++
        [((transition messages (stateAfterAll messages state calls) call).map fun _ => (),
          stateAfterAll messages state (calls ++ [call]))] := by
  induction calls generalizing state with
  | nil => rfl
  | cons first calls ih =>
    rw [List.cons_append, runCalls, runCalls, ih]
    rfl

theorem endsPaused_append_singleton {calls : List Call} {call : Call} :
    EndsPaused (calls ++ [call]) ↔
      call = ⟨"pause", true⟩ ∨ EndsPaused calls ∧ call ≠ ⟨"unpause", true⟩ := by
  constructor
  · rintro ⟨before, after, hcalls, hafter⟩
    induction after using List.reverseRecOn with
    | nil => exact .inl (List.singleton_inj.mp (List.append_inj' hcalls rfl).2)
    | append_singleton after last _ =>
      rw [← List.cons_append, ← List.append_assoc] at hcalls
      obtain ⟨rfl, hlast⟩ := List.append_inj' hcalls rfl
      cases hlast
      simp only [List.mem_append, List.mem_singleton, not_or] at hafter
      exact .inr ⟨⟨before, after, rfl, hafter.1⟩, Ne.symm hafter.2⟩
  · rintro (rfl | ⟨⟨before, after, rfl, hafter⟩, hcall⟩)
    · exact ⟨calls, [], rfl, by simp⟩
    · refine ⟨before, after ++ [call], by simp, ?_⟩
      simpa [hafter] using Ne.symm hcall

theorem GuardedByName.stateAfterAll_eq_paused_iff {messages : List Message}
    (h : GuardedByName messages) (calls : List Call) :
    stateAfterAll messages .active calls = .paused ↔ EndsPaused calls := by
  induction calls using List.reverseRecOn with
  | nil => simp [stateAfterAll, EndsPaused]
  | append_singleton calls call ih =>
    rw [stateAfterAll_append_singleton, h.stateAfter_eq, endsPaused_append_singleton, ← ih]
    split
    · rename_i hpause
      simp [hpause]
    · rename_i hpause
      by_cases hunpause : call = ⟨"unpause", true⟩
      · simp [hunpause]
      · simp [hpause, hunpause]

namespace Contract

/-- After any sequence of calls a contract is paused if and only if the owner paused it and did not
resume it later. The next call fails if and only if there is no such message, or it is `pause` or
`unpause` and not from the owner, or it is a request and the contract is paused; a call that fails
leaves the state. -/
theorem pause_safety (c : Classification) (given? : Option String) (calls : List Call) :
    let messages := (synthesize c given?).messages
    let state := stateAfterAll messages .active calls
    (state = .paused ↔
      ∃ before after, calls = before ++ ⟨"pause", true⟩ :: after ∧ ⟨"unpause", true⟩ ∉ after) ∧
    ∀ call : Call,
      let outcome := transition messages state call
      let next := stateAfterAll messages .active (calls ++ [call])
      runCalls messages .active (calls ++ [call]) =
        runCalls messages .active calls ++ [(outcome.map fun _ => (), next)] ∧
      (outcome = .error (.unknown call.message) ↔ call.message ∉ messages.map (·.name)) ∧
      (outcome = .error (.unauthorized call.message) ↔
        (call.message = "pause" ∨ call.message = "unpause") ∧ call.isOwner = false) ∧
      (outcome = .error (.paused call.message) ↔
        call.message = "process_request" ∧ "process_request" ∈ messages.map (·.name) ∧
          state = .paused) ∧
      (∀ e, outcome = .error e →
        e ∈ [.unknown call.message, .unauthorized call.message, .paused call.message] ∧
          next = state) := by
  intro messages state
  have h : GuardedByName messages := guardedByName_contractMessages _ _
  refine ⟨h.stateAfterAll_eq_paused_iff calls, fun call => ?_⟩
  intro outcome next
  refine ⟨runCalls_append_singleton messages .active calls call, h.transition_eq_unknown_iff,
    h.transition_eq_unauthorized_iff, h.transition_eq_paused_iff, fun e he => ⟨?_, ?_⟩⟩
  · have houtcome : outcome = _ := h.transition_eq state call
    grind
  · have hnext : next = stateAfter messages state call := stateAfterAll_append_singleton ..
    rw [hnext, stateAfter]
    rw [show transition messages state call = .error e from he]

end Contract

end Covenant

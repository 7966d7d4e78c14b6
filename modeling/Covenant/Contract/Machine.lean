/-
The states of a contract. `pause` and `unpause` are for the owner and lead to the
paused and to the active state, whatever the state is; a message that needs the
active state is refused in the paused one; no other message changes the state.
-/
import Covenant.Contract.Basic
import Covenant.Text.Quoted

namespace Covenant

inductive ContractState where
  | active | paused
deriving DecidableEq, Repr

def ContractState.text : ContractState → String
  | active => "Active"
  | paused => "Paused"

/-- Why a call is refused. -/
inductive CallError where
  | unknown (message : String)
  | unauthorized (message : String)
  | paused (message : String)
deriving DecidableEq, Repr

/-- The error that the refused message returns. -/
def CallError.kind? : CallError → Option ContractError
  | unknown _ => none
  | unauthorized _ => some .unauthorized
  | paused _ => some .contractPaused

def CallError.message : CallError → String
  | unknown message => Text.quoted message
  | unauthorized message =>
    s!"{ContractError.unauthorized.text}: '{message}' may only be called by the owner"
  | paused message => s!"{ContractError.contractPaused.text}: '{message}' is rejected while paused"

/-- A call: the message and whether the owner sends it. -/
structure Call where
  message : String
  isOwner : Bool := true
deriving DecidableEq, Repr

/-- The message of that name; of several the last one. -/
def findMessage? (messages : List Message) (name : String) : Option Message :=
  messages.reverse.find? (·.name = name)

/-- The state that a message leads to when it is accepted. -/
def ContractState.after (state : ContractState) (message : String) : ContractState :=
  if message = "pause" then .paused else if message = "unpause" then .active else state

/-- The state after a call in the state given. -/
def transition (messages : List Message) (state : ContractState) (call : Call) :
    Except CallError ContractState :=
  match findMessage? messages call.message with
  | none => .error (.unknown call.message)
  | some definition =>
    if definition.ownerOnly && !call.isOwner then .error (.unauthorized call.message)
    else if definition.requiresActive && state = .paused then .error (.paused call.message)
    else .ok (state.after call.message)

/-- The state after a call; one that is refused leaves it as it is. -/
def stateAfter (messages : List Message) (state : ContractState) (call : Call) : ContractState :=
  match transition messages state call with
  | .ok next => next
  | .error _ => state

/-- What becomes of each call of a sequence, with the state after it. -/
def runCalls (messages : List Message) (state : ContractState) :
    List Call → List (Except CallError Unit × ContractState)
  | [] => []
  | call :: calls =>
    let next := stateAfter messages state call
    ((transition messages state call).map fun _ => (), next) :: runCalls messages next calls

end Covenant

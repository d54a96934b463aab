import Awiki.InteractionPrograms
import Awiki.LocalStateSchema
import Awiki.TransitionRuns

/-!
# Join management provisioning

`identity_join_management.rs`: after an approved join the authorizing device sends the root
key to the new device.  The task of doing so is kept with the approval and worked on by
`advance_task` and `retry_task`, one call at a time under the worker lock.  Everything
outside is behind the six methods of `TaskIo`; a process can die between any two of them and
the next call starts from the task last stored.
-/

namespace Awiki
namespace JoinManagement

open LocalState

def maxAttempts : Nat := 4

def retryDelayMs : Int := 5000

inductive ManagementPhase
  | awaitingJoin
  | scheduled
  | attempting
  | waitingForRecipient
  | managementRegistered
  | failed
  deriving DecidableEq, Repr

/-- `RootKeyTransferErrorCode`. -/
inductive TransferError
  | unsupported
  | invalidRequest
  | senderNotEligible
  | recipientNotEligible
  | prekeyUnavailable
  | prekeyInvalid
  | rootVaultUnavailable
  | authorizationInvalid
  | authorizationExpired
  | authorizationAlreadyConsumed
  | userPresenceDenied
  | stateChanged
  | deliveryInvalidated
  | transportPending
  | transportRejected
  | temporarilyUnavailable
  deriving DecidableEq, Repr

namespace TransferError

/-- `Display`: the serialised name. -/
def text : TransferError → String
  | unsupported => "root_transfer.unsupported"
  | invalidRequest => "root_transfer.invalid_request"
  | senderNotEligible => "root_transfer.sender_not_eligible"
  | recipientNotEligible => "root_transfer.recipient_not_eligible"
  | prekeyUnavailable => "root_transfer.prekey_unavailable"
  | prekeyInvalid => "root_transfer.prekey_invalid"
  | rootVaultUnavailable => "root_transfer.root_vault_unavailable"
  | authorizationInvalid => "root_transfer.authorization_invalid"
  | authorizationExpired => "root_transfer.authorization_expired"
  | authorizationAlreadyConsumed => "root_transfer.authorization_already_consumed"
  | userPresenceDenied => "root_transfer.user_presence_denied"
  | stateChanged => "root_transfer.state_changed"
  | deliveryInvalidated => "root_transfer.delivery_invalidated"
  | transportPending => "root_transfer.transport_pending"
  | transportRejected => "root_transfer.transport_rejected"
  | temporarilyUnavailable => "root_transfer.temporarily_unavailable"

/-- `retryable` of the module, which differs from the flag the error itself carries. -/
def retryable : TransferError → Bool
  | prekeyUnavailable | rootVaultUnavailable | authorizationExpired
  | transportPending | temporarilyUnavailable => true
  | _ => false

end TransferError

structure ManagementTask where
  phase : ManagementPhase
  attempts : Nat
  maxAttempts : Nat
  nextAttemptAtMs : Int
  failureCode : Option String
  deriving DecidableEq, Repr

namespace ManagementTask

def authorized : ManagementTask where
  phase := .awaitingJoin
  attempts := 0
  maxAttempts := JoinManagement.maxAttempts
  nextAttemptAtMs := 0
  failureCode := none

def activate (task : ManagementTask) : ManagementTask :=
  if task.phase = .awaitingJoin then { task with phase := .scheduled } else task

def failedAttempt (task : ManagementTask) (nowMs : Int) (code : String) (retryable : Bool) :
    ManagementTask :=
  { task with
    failureCode := some code
    phase := if retryable ∧ task.attempts < task.maxAttempts then .scheduled else .failed
    nextAttemptAtMs := saturatingAdd nowMs retryDelayMs }

def recoverInterrupted (task : ManagementTask) (nowMs : Int) : ManagementTask :=
  if task.phase = .attempting then task.failedAttempt nowMs "interrupted" true else task

/-- The charged task, or `none` where `claim` answers `false`. -/
def claim (task : ManagementTask) (nowMs : Int) : Option ManagementTask :=
  if task.phase ≠ .scheduled ∨ task.maxAttempts ≤ task.attempts ∨ nowMs < task.nextAttemptAtMs
  then none
  else some { task with
    attempts := task.attempts + 1
    phase := .attempting
    failureCode := none }

def accepted (task : ManagementTask) : ManagementTask :=
  { task with phase := .waitingForRecipient, failureCode := none }

def registered (task : ManagementTask) : ManagementTask :=
  { task with phase := .managementRegistered, failureCode := none }

/-- The test for a proven invalidation at the head of `advance_task`. -/
def invalidated (task : ManagementTask) : Bool :=
  task.phase = .failed ∧ task.failureCode = some "root_transfer.delivery_invalidated"

def handedOver (task : ManagementTask) : Bool :=
  task.phase = .waitingForRecipient ∨ task.phase = .managementRegistered

/-- The sender ledger says whether the delivery was accepted, and `advance_task` takes its
word except against a registration or an invalidation. -/
def reconcileAccepted (task : ManagementTask) (acceptedLocally : Bool) : ManagementTask :=
  if acceptedLocally ∧ task.phase ≠ .managementRegistered ∧ ¬ task.invalidated
  then task.accepted else task

end ManagementTask

/-! ## The two entry points -/

/-- The methods of `TaskIo`. -/
inductive TaskIo
  | nowMs
  | acceptedLocally
  | deliveryExpired
  | persist (task : ManagementTask)
  | registered
  | send

def TaskIo.Answer : TaskIo → Type
  | .nowMs => Int
  | .acceptedLocally => Except ImError Bool
  | .deliveryExpired => Except ImError Bool
  | .persist _ => Except ImError Unit
  | .registered => Except TransferError Bool
  | .send => Except TransferError Unit

abbrev TaskProgram := ExceptT ImError (Prog TaskIo TaskIo.Answer)

def nowMs : TaskProgram Int := ExceptT.lift (Prog.call TaskIo.nowMs)

def acceptedLocally : TaskProgram Bool := ExceptT.mk (Prog.call TaskIo.acceptedLocally)

def deliveryExpired : TaskProgram Bool := ExceptT.mk (Prog.call TaskIo.deliveryExpired)

def persist (task : ManagementTask) : TaskProgram Unit :=
  ExceptT.mk (Prog.call (TaskIo.persist task))

def registered : TaskProgram (Except TransferError Bool) :=
  ExceptT.lift (Prog.call TaskIo.registered)

def send : TaskProgram (Except TransferError Unit) := ExceptT.lift (Prog.call TaskIo.send)

/-- `advance_task` from the question about expiry on. -/
def advanceDelivery (task : ManagementTask) : TaskProgram Unit := do
  if ← deliveryExpired then
    let now ← nowMs
    persist (task.failedAttempt now "root_transfer.delivery_expired" false)
  else if task.handedOver then
    persist task
  else
    let found ← nowMs
    let task := task.recoverInterrupted found
    let now ← nowMs
    match task.claim now with
    | none => persist task
    | some charged =>
      persist charged
      match ← send with
      | .ok () => persist charged.accepted
      | .error error =>
        let failed ← nowMs
        persist (charged.failedAttempt failed error.text error.retryable)

def advanceTask (stored : ManagementTask) : TaskProgram Unit := do
  let active := stored.activate
  let invalidated := active.invalidated
  let accepted ← acceptedLocally
  let task := active.reconcileAccepted accepted
  if 0 < task.attempts ∨ task.handedOver then
    match ← registered with
    | .ok true => persist task.registered
    | .ok false => if invalidated then persist task else advanceDelivery task
    | .error error =>
      if invalidated then persist task
      else if error.retryable then advanceDelivery task
      else
        let now ← nowMs
        persist (task.failedAttempt now error.text false)
  else advanceDelivery task

def retryTask (task : ManagementTask) : TaskProgram Unit := do
  match ← registered with
  | .error .deliveryInvalidated =>
    let now ← nowMs
    persist (task.failedAttempt now TransferError.deliveryInvalidated.text false)
    throw .permissionDenied
  | .error _ => throw .permissionDenied
  | .ok true => persist task.registered
  | .ok false =>
    if task.failureCode = some "root_transfer.delivery_invalidated" then
      throw .permissionDenied
    else if ← deliveryExpired then
      let now ← nowMs
      persist (task.failedAttempt now "root_transfer.delivery_expired" false)
      throw .permissionDenied
    else if ← acceptedLocally then
      persist task.accepted
    else if task.phase = .failed then
      persist { ManagementTask.authorized with maxAttempts := task.maxAttempts }.activate
    else
      throw .permissionDenied

/-! ## What the calls leave behind -/

inductive Call
  | advance
  | retry
  deriving DecidableEq, Repr

def Call.program : Call → ManagementTask → TaskProgram Unit
  | advance => advanceTask
  | retry => retryTask

/-- What is observed: a task given to `persist`, with the task stored before it, whether it
was stored and whether the caller was told so; an answer of `registered`; a call of `send`. -/
inductive Event
  | persist (call : Call) (before after : ManagementTask) (stored reported : Bool)
  | registered (yes : Bool)
  | send (atMs : Int)
  deriving DecidableEq, Repr

structure World where
  stored : ManagementTask
  clock : Int
  caller : Call
  history : List Event
  deriving DecidableEq, Repr

namespace World

def observe (w : World) (e : Event) : World :=
  { w with history := w.history ++ [e] }

def after (w : World) (elapsed : Nat) : World :=
  { w with clock := w.clock + elapsed }

def save (w : World) (task : ManagementTask) (stored reported : Bool) : World :=
  { w.observe (.persist w.caller w.stored task stored reported) with
    stored := if stored then task else w.stored }

end World

/-- The answers of the environment.  Time passes at every question, and a write that is
reported as failed may still have been made. -/
def answers (w : World) : (q : TaskIo) → q.Answer → World → Prop
  | .nowMs, now, w' => ∃ elapsed : Nat, w' = w.after elapsed ∧ now = w'.clock
  | .acceptedLocally, _, w' => ∃ elapsed : Nat, w' = w.after elapsed
  | .deliveryExpired, _, w' => ∃ elapsed : Nat, w' = w.after elapsed
  | .persist task, result, w' => ∃ (elapsed : Nat) (stored : Bool),
      (result.toBool = true → stored = true) ∧
        w' = (w.after elapsed).save task stored result.toBool
  | .registered, result, w' => ∃ elapsed : Nat,
      w' = (w.after elapsed).observe (.registered (result.toOption = some true))
  | .send, _, w' => ∃ waited elapsed : Nat,
      w' = ((w.after waited).observe (.send (w.clock + waited))).after elapsed

def invoke (step : World → (q : TaskIo) → q.Answer → World → Prop)
    (w : World) (call : Call) (w' : World) : Prop :=
  ∃ rest, Prog.Steps step (call.program w.stored).run { w with caller := call } rest w'

def authorizedAt (clock : Int) (maxAttempts : Nat) : World where
  stored := { ManagementTask.authorized with maxAttempts }
  clock
  caller := .advance
  history := []

end JoinManagement
end Awiki

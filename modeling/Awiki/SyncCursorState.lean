import Awiki.LocalStateSchema

/-!
# Account bindings, the message cursor and sync runs

The functions of `sync_v2.rs` that read and write the account binding of an owner,
the ordinary cursor `message_sync_state`, the generation of the current sync run
and the negotiated lanes.  They run inside a transaction of their caller unless
they open one themselves.

A write that violates a `CHECK` or a unique index of its table fails with
`local_state_unavailable`.
-/

namespace Awiki
namespace LocalState

open Tx

variable {δ : Type}

def constraintError : ImError := .localStateUnavailable "constraint failed"

/-- `IdentityBindingConflict { detail }`. -/
def bindingConflict (detail : String) : ImError := .identityBindingConflict detail

def validateAll (checks : List (Except ImError Unit)) : Except ImError Unit :=
  checks.foldlM (fun _ check => check) ()

theorem validateAll_ok {checks : List (Except ImError Unit)} (h : validateAll checks = .ok ()) :
    ∀ check ∈ checks, check = .ok () := by
  induction checks with
  | nil => simp
  | cons check rest ih =>
    unfold validateAll at h
    rw [List.foldlM_cons] at h
    obtain ⟨_, hcheck, hrest⟩ := except_bind_ok.mp h
    exact List.forall_mem_cons.mpr ⟨hcheck, ih hrest⟩

/-! ## Account bindings -/

/-- `load_identity_account_binding`. -/
def Db.identityAccountBinding (db : Db δ) (owner : String) : Option IdentityAccountBinding :=
  db.identityAccountBindings.find? fun binding => binding.ownerIdentityId == owner

def validateBinding (binding : IdentityAccountBinding) : Except ImError Unit :=
  validateAll
    [ validateRequired "owner_identity_id" binding.ownerIdentityId,
      validateRequired "account_id" binding.accountId,
      validateRequired "current_did" binding.currentDid,
      validateRequired "protocol_device_id" binding.protocolDeviceId,
      validatePositiveDecimal "identity_generation" binding.identityGeneration,
      validatePositiveDecimal "device_auth_generation" binding.deviceAuthGeneration,
      (match binding.handleScope with
        | some handleScope => validateRequired "handle_scope" handleScope
        | none => .ok ()) ]

def P5DidCutover.isPair (cutover row : P5DidCutover) : Bool :=
  row.ownerIdentityId == cutover.ownerIdentityId && row.oldDid == cutover.oldDid &&
    row.newDid == cutover.newDid

def P5DidCutover.renew (cutover row : P5DidCutover) : P5DidCutover :=
  { row with drainDeadline := cutover.drainDeadline, updatedAt := cutover.cutoverAt }

/-- The upsert of `register_p5_did_cutover`. -/
def Db.cutOver (db : Db δ) (cutover : P5DidCutover) : Db δ :=
  { db with
    syncP5DidCutovers := Rows.upsertWhere cutover.isPair
      { cutover with status := "draining", updatedAt := cutover.cutoverAt } cutover.renew
      db.syncP5DidCutovers }

def registerP5DidCutover (cutover : P5DidCutover) : LocalM δ Unit := do
  attempt (validateAll
    [ validateRequired "owner_identity_id" cutover.ownerIdentityId,
      validateRequired "old_did" cutover.oldDid,
      validateRequired "new_did" cutover.newDid ])
  refuseIf (cutover.oldDid == cutover.newDid || cutover.status != "draining" ||
      cutover.drainDeadline < cutover.cutoverAt)
    (syncError "P5_CUTOVER_INVALID" "P5 DID cutover must be a bounded old-to-new drain")
  let current ← query fun db => db.identityAccountBinding cutover.ownerIdentityId
  let binding ← orError current (bindingConflict "P5 DID cutover requires an active binding")
  refuseIf (binding.currentDid != cutover.newDid)
    (bindingConflict "P5 DID cutover successor is not the current authoritative DID")
  let early ← query fun db => db.syncP5DidCutovers.any fun row =>
    cutover.isPair row && cutover.drainDeadline < row.cutoverAt
  refuseIf early (.localStateUnavailable "CHECK constraint failed: drain_deadline >= cutover_at")
  execute (·.cutOver cutover)

/-- The checks of `upsert_identity_account_binding` against the stored binding. -/
def checkBindingSuccessor (stored next : IdentityAccountBinding) : Except ImError Unit := do
  if stored.accountId ≠ next.accountId then
    .error (bindingConflict "owner identity is already bound to a different account")
  else if stored.protocolDeviceId ≠ next.protocolDeviceId then
    .error (bindingConflict "owner identity is already bound to a different protocol device")
  else
    let generation ← compareDecimal next.identityGeneration stored.identityGeneration
    if generation = .lt then
      .error (bindingConflict "identity generation cannot move backwards")
    else if generation = .eq ∧ stored.currentDid ≠ next.currentDid then
      .error (bindingConflict "current DID cannot change without a newer identity generation")
    else
      let auth ← compareDecimal next.deviceAuthGeneration stored.deviceAuthGeneration
      if auth = .lt then
        .error (bindingConflict "device authorization generation cannot move backwards")
      else
        .ok ()

/-- `SYNC_LANE_CLOSED_RETENTION_SECONDS`. -/
def syncLaneClosedRetentionSeconds : Int := 7 * 24 * 60 * 60

def IdentityAccountBinding.rebound (stored binding : IdentityAccountBinding) : IdentityAccountBinding :=
  { stored with
    handleScope := binding.handleScope
    currentDid := binding.currentDid
    identityGeneration := binding.identityGeneration
    deviceAuthGeneration := binding.deviceAuthGeneration
    updatedAt := binding.updatedAt }

def Db.rebind (db : Db δ) (binding : IdentityAccountBinding) : Db δ :=
  { db with
    identityAccountBindings := Rows.upsertWhere
      (fun row => row.ownerIdentityId == binding.ownerIdentityId) binding
      (fun row => row.rebound binding) db.identityAccountBindings }

def successorCutover (oldDid : String) (binding : IdentityAccountBinding) : P5DidCutover where
  ownerIdentityId := binding.ownerIdentityId
  oldDid := oldDid
  newDid := binding.currentDid
  cutoverAt := binding.updatedAt
  drainDeadline := saturatingAdd binding.updatedAt syncLaneClosedRetentionSeconds
  status := "draining"
  updatedAt := binding.updatedAt

/-- The cutover of a changed DID. -/
def registerSuccessor (stored : Option IdentityAccountBinding) (binding : IdentityAccountBinding) :
    LocalM δ Unit :=
  match stored with
  | some stored =>
    if stored.currentDid ≠ binding.currentDid then
      registerP5DidCutover (successorCutover stored.currentDid binding)
    else pure ()
  | none => pure ()

def upsertIdentityAccountBinding (binding : IdentityAccountBinding) : LocalM δ Unit := do
  attempt (validateBinding binding)
  let stored ← query fun db => db.identityAccountBinding binding.ownerIdentityId
  attempt (match stored with
    | some stored => checkBindingSuccessor stored binding
    | none => .ok ())
  let holder ← query fun db => db.identityAccountBindings.find? fun row =>
    row.accountId == binding.accountId && row.protocolDeviceId == binding.protocolDeviceId
  refuseIf (match holder with
      | some holder => holder.ownerIdentityId != binding.ownerIdentityId
      | none => false)
    (bindingConflict "account device is already bound to a different local owner")
  execute (·.rebind binding)
  registerSuccessor stored binding

/-! ## The message cursor -/

/-- `load_message_sync_state_row`. -/
def Db.messageSyncStateRow (db : Db δ) (owner : String) : Option MessageSyncState :=
  db.messageSyncState.find? fun state => state.ownerIdentityId == owner

/-- `MessageSyncBootstrapReason`. -/
inductive BootstrapReason where
  | missingState
  | deviceAuthGenerationChanged
  | streamEpochChanged
  deriving DecidableEq

/-- `MessageSyncBootstrapFence`. -/
structure BootstrapFence where
  ownerIdentityId : String
  accountId : String
  protocolDeviceId : String
  activeDeviceAuthGeneration : String
  storedDeviceAuthGeneration : Option String
  storedStreamEpoch : Option String
  requestedStreamEpoch : Option String
  reason : BootstrapReason
  deriving DecidableEq

inductive MessageSyncStateAccess where
  | ready (state : MessageSyncState)
  | bootstrapRequired (fence : BootstrapFence)
  deriving DecidableEq

def messageSyncBootstrapFence (binding : IdentityAccountBinding)
    (stored : Option MessageSyncState) (requestedStreamEpoch : Option String)
    (reason : BootstrapReason) : BootstrapFence where
  ownerIdentityId := binding.ownerIdentityId
  accountId := binding.accountId
  protocolDeviceId := binding.protocolDeviceId
  activeDeviceAuthGeneration := binding.deviceAuthGeneration
  storedDeviceAuthGeneration := stored.map (·.deviceAuthGeneration)
  storedStreamEpoch := stored.map (·.streamEpoch)
  requestedStreamEpoch := requestedStreamEpoch
  reason := reason

def loadMessageSyncState (owner : String) : LocalM δ MessageSyncStateAccess := do
  let current ← query fun db => db.identityAccountBinding owner
  let binding ← orError current
    (bindingConflict "message sync state requires an active account binding")
  let row ← query fun db => db.messageSyncStateRow owner
  match row with
  | none =>
    pure (.bootstrapRequired (messageSyncBootstrapFence binding none none .missingState))
  | some state => do
      refuseIf (state.accountId != binding.accountId ||
          state.protocolDeviceId != binding.protocolDeviceId)
        (bindingConflict "stored message sync state belongs to a different account device")
      if state.deviceAuthGeneration ≠ binding.deviceAuthGeneration then
        pure (.bootstrapRequired
          (messageSyncBootstrapFence binding (some state) none .deviceAuthGenerationChanged))
      else
        pure (.ready state)

/-- The values that `bootstrap_state` may take. -/
def bootstrapStates : List String :=
  ["uninitialized", "tail_bootstrapped", "active", "recovering", "blocked"]

def validateMessageSyncState (state : MessageSyncState) : Except ImError Unit :=
  validateAll
    [ validateRequired "owner_identity_id" state.ownerIdentityId,
      validateRequired "account_id" state.accountId,
      validateRequired "protocol_device_id" state.protocolDeviceId,
      validatePositiveDecimal "device_auth_generation" state.deviceAuthGeneration,
      validatePositiveDecimal "stream_epoch" state.streamEpoch,
      validateDecimal "scan_seq" state.scanSeq,
      (if state.bootstrapState ∈ bootstrapStates then .ok ()
        else .error (invalidInput "bootstrap_state" "bootstrap_state is not supported")) ]

/-- The `CHECK`s, the foreign key and the unique account device of `message_sync_state`. -/
def messageSyncStateRefused (db : Db δ) (state : MessageSyncState) : Bool :=
  !isPositiveDecimalColumn state.deviceAuthGeneration ||
    !isPositiveDecimalColumn state.streamEpoch || !Decimal.isCanonical state.scanSeq ||
    !(state.bootstrapState ∈ bootstrapStates) ||
    (db.identityAccountBinding state.ownerIdentityId).isNone ||
    db.messageSyncState.any fun other =>
      other.ownerIdentityId != state.ownerIdentityId && other.accountId == state.accountId &&
        other.protocolDeviceId == state.protocolDeviceId

def upsertBootstrapState (state : MessageSyncState) : LocalM δ Unit := do
  let refused ← query fun db => messageSyncStateRefused db state
  refuseIf refused constraintError
  execute fun db => { db with
    messageSyncState := Rows.upsertWhere
      (fun row => row.ownerIdentityId == state.ownerIdentityId) state (fun _ => state)
      db.messageSyncState }

def completeActiveRecovery (state : MessageSyncState) : LocalM δ Unit :=
  execute fun db => { db with
    syncRecoveryState := Rows.updateWhere
      (fun row => row.ownerIdentityId == state.ownerIdentityId &&
        decide (row.status ∈ ["recovering", "downloading", "applying", "retryable"]))
      (fun row => { row with
        status := "completed", snapshotScanSeq := some state.scanSeq, lastErrorCode := none,
        updatedAt := state.updatedAt })
      db.syncRecoveryState }

def advanceMessageSyncState (next : MessageSyncState) : LocalM δ MessageSyncStateAccess := do
  attempt (validateMessageSyncState next)
  let stored ← query fun db => db.identityAccountBinding next.ownerIdentityId
  let binding ← orError stored
    (bindingConflict "message sync state requires an active account binding")
  refuseIf (binding.accountId != next.accountId ||
      binding.protocolDeviceId != next.protocolDeviceId)
    (bindingConflict "message sync advance targets a different account device")
  let access ← loadMessageSyncState next.ownerIdentityId
  match access with
  | .bootstrapRequired fence => pure (.bootstrapRequired fence)
  | .ready current => do
      refuseIf (binding.deviceAuthGeneration != next.deviceAuthGeneration)
        (bindingConflict
          "message sync advance uses a non-active device authorization generation")
      if current.streamEpoch ≠ next.streamEpoch then
        pure (.bootstrapRequired (messageSyncBootstrapFence binding (some current)
          (some next.streamEpoch) .streamEpochChanged))
      else do
        let order ← attempt (compareDecimal next.scanSeq current.scanSeq)
        refuseIf (order == .lt)
          (bindingConflict "message sync scan sequence cannot move backwards")
        let target (row : MessageSyncState) : Bool :=
          row.ownerIdentityId == next.ownerIdentityId && row.accountId == next.accountId &&
            row.protocolDeviceId == next.protocolDeviceId &&
            row.deviceAuthGeneration == next.deviceAuthGeneration &&
            row.streamEpoch == next.streamEpoch
        let found ← query fun db => db.messageSyncState.any target
        refuseIf (!found)
          (bindingConflict "message sync cursor changed while it was being advanced")
        execute fun db => { db with
          messageSyncState := Rows.updateWhere target
            (fun row => { row with
              scanSeq := next.scanSeq
              bootstrapState := next.bootstrapState
              lastServerTime := next.lastServerTime
              lastSuccessAt := next.lastSuccessAt
              lastErrorCode := next.lastErrorCode
              metadataJson := next.metadataJson
              updatedAt := next.updatedAt })
            db.messageSyncState }
        pure (.ready next)

/-! ## Sync runs -/

def Db.runGeneration (db : Db δ) (owner : String) : Option Int :=
  (db.messageSyncRunState.find? fun state => state.ownerIdentityId == owner).map (·.runGeneration)

def validateExpectedRunGeneration (expected : Option Int) : Except ImError Unit :=
  match expected with
  | some generation =>
    if generation ≤ 0 then
      .error (invalidInput "expected_run_generation"
        "expected sync run generation must be positive")
    else
      .ok ()
  | none => .ok ()

def requireMessageSyncRunGeneration (owner : String) (expected : Option Int) :
    LocalM δ Unit := do
  match expected with
  | none => pure ()
  | some expected => do
      let current ← query fun db => db.runGeneration owner
      refuseIf (current != some expected)
        (syncError "SYNC_RUN_SUPERSEDED" "a newer sync run superseded this apply transaction")

def beginMessageSyncRun (owner : String) (now : Int) : LocalM δ MessageSyncRunState := do
  attempt (validateRequired "owner_identity_id" owner)
  immediate do
    let binding ← query fun db => db.identityAccountBinding owner
    refuseIf binding.isNone
      (bindingConflict "message sync run requires an active account binding")
    let stored ← query fun db => db.runGeneration owner
    let current := stored.getD 0
    refuseIf (current + 1 ≥ 2 ^ 63)
      (syncError "SYNC_RUN_GENERATION_EXHAUSTED" "sync run generation overflow")
    let state : MessageSyncRunState :=
      { ownerIdentityId := owner, syncPending := true, runGeneration := current + 1,
        nextRetryAt := none, lastResultJson := none, updatedAt := now }
    execute fun db => { db with
      messageSyncRunState := Rows.upsertWhere
        (fun row => row.ownerIdentityId == owner) state (fun _ => state)
        db.messageSyncRunState }
    pure (.commit state)

def finishMessageSyncRun (state : MessageSyncRunState) : LocalM δ Bool := do
  attempt (validateRequired "owner_identity_id" state.ownerIdentityId)
  refuseIf (state.runGeneration ≤ 0)
    (invalidInput "run_generation" "sync run generation must be positive")
  let current (row : MessageSyncRunState) : Bool :=
    row.ownerIdentityId == state.ownerIdentityId && row.runGeneration == state.runGeneration
  let found ← query fun db => db.messageSyncRunState.any current
  execute fun db => { db with
    messageSyncRunState := Rows.updateWhere current
      (fun row => { row with
        syncPending := state.syncPending
        nextRetryAt := state.nextRetryAt
        lastResultJson := state.lastResultJson
        updatedAt := state.updatedAt })
      db.messageSyncRunState }
  pure found

/-! ## Frames -/

/-- The part `f` of the database does not look at the tables of bindings and lanes. -/
structure OffLanes {γ : Type} (f : Db δ → γ) : Prop where
  bindings : ∀ db rows, f { db with identityAccountBindings := rows } = f db
  cutovers : ∀ db rows, f { db with syncP5DidCutovers := rows } = f db
  recovery : ∀ db rows, f { db with syncRecoveryState := rows } = f db
  history : ∀ db rows, f { db with syncHistoryScope := rows } = f db
  lanes : ∀ db rows, f { db with laneSyncState := rows } = f db
  capabilities : ∀ db rows, f { db with syncLaneCapabilityState := rows } = f db
  transport : ∀ db rows, f { db with syncLaneTransportState := rows } = f db

/-- Nor does it look at the cursor. -/
structure OffCursor {γ : Type} (f : Db δ → γ) : Prop extends OffLanes f where
  cursor : ∀ db rows, f { db with messageSyncState := rows } = f db

section Frames

variable {γ : Type} {f : Db δ → γ}

theorem registerP5DidCutover_keeps
    (hf : ∀ db rows, f { db with syncP5DidCutovers := rows } = f db) (cutover : P5DidCutover) :
    Keeps (registerP5DidCutover cutover) f :=
  .bind .attempt fun _ => .bind .refuseIf fun _ => .bind (.query _) fun _ =>
    .bind .orError fun _ => .bind .refuseIf fun _ => .bind (.query _) fun _ =>
    .bind .refuseIf fun _ => .execute fun db => hf db _

theorem upsertIdentityAccountBinding_keeps
    (hb : ∀ db rows, f { db with identityAccountBindings := rows } = f db)
    (hc : ∀ db rows, f { db with syncP5DidCutovers := rows } = f db)
    (binding : IdentityAccountBinding) : Keeps (upsertIdentityAccountBinding binding) f := by
  refine .bind .attempt fun _ => .bind (.query _) fun stored => .bind .attempt fun _ =>
    .bind (.query _) fun _ => .bind .refuseIf fun _ =>
    .bind (.execute fun db => hb db _) fun _ => ?_
  cases stored with
  | none => exact .pure ()
  | some stored => exact .ite (registerP5DidCutover_keeps hc _) (.pure ())

theorem loadMessageSyncState_keeps (owner : String) :
    Keeps (loadMessageSyncState owner : LocalM δ _) f := by
  refine .bind (.query _) fun _ => .bind .orError fun _ => .bind (.query _) fun row => ?_
  cases row with
  | none => exact .pure _
  | some state => exact .bind .refuseIf fun _ => .ite (.pure _) (.pure _)

theorem upsertBootstrapState_keeps (hf : OffCursor f) (state : MessageSyncState) :
    Keeps (upsertBootstrapState state) f :=
  .bind (.query _) fun _ => .bind .refuseIf fun _ => .execute fun db => hf.cursor db _

theorem completeActiveRecovery_keeps (hf : OffLanes f) (state : MessageSyncState) :
    Keeps (completeActiveRecovery state) f :=
  .execute fun db => hf.recovery db _

theorem advanceMessageSyncState_keeps (hf : OffCursor f) (next : MessageSyncState) :
    Keeps (advanceMessageSyncState next) f := by
  refine .bind .attempt fun _ => .bind (.query _) fun _ => .bind .orError fun _ =>
    .bind .refuseIf fun _ => .bind (loadMessageSyncState_keeps _) fun access => ?_
  cases access with
  | bootstrapRequired fence => exact .pure _
  | ready current =>
    exact .bind .refuseIf fun _ => .ite (.pure _) (.bind .attempt fun _ =>
      .bind .refuseIf fun _ => .bind (.query _) fun _ => .bind .refuseIf fun _ =>
      .reply (.execute fun db => hf.cursor db _))

theorem requireMessageSyncRunGeneration_keeps (owner : String) (expected : Option Int) :
    Keeps (requireMessageSyncRunGeneration owner expected : LocalM δ _) f := by
  cases expected with
  | none => exact .pure ()
  | some expected => exact .bind (.query _) fun _ => .refuseIf

end Frames
end LocalState
end Awiki

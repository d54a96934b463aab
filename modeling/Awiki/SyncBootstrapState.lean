import Awiki.SyncCursorState

/-!
# Lanes, bootstrap and snapshot state

The functions of `sync_v2.rs` that replace the cursor of an owner at a boundary the
server authorises: a bootstrap, which also installs the account binding and the
negotiated lanes, and a snapshot, which is accepted only against the cursor and the
recovery it was requested for.
-/

namespace Awiki
namespace LocalState

open Tx

variable {δ : Type}

/-! ## Lanes -/

def validateLaneSyncState (state : LaneSyncState) : Except ImError Unit := do
  validateAll
    [ validateRequired "owner_identity_id" state.ownerIdentityId,
      validatePositiveDecimal "stream_epoch" state.streamEpoch,
      validateDecimal "scan_seq" state.scanSeq,
      validateDecimal "committed_seq" state.committedSeq ]
  let order ← compareDecimal state.committedSeq state.scanSeq
  if order = .gt then
    .error (syncError "SYNC_INVALID_PAGE"
      "lane committed watermark cannot exceed its scan cursor")
  else
    .ok ()

def Db.laneSyncStates (db : Db δ) (owner : String) : List LaneSyncState :=
  let states := db.laneSyncState.filter fun state => state.ownerIdentityId == owner
  (states.filter fun state => state.lane == .p5Device) ++
    states.filter fun state => state.lane != .p5Device

def loadAllLaneSyncStates (owner : String) : LocalM δ (List LaneSyncState) := do
  attempt (validateRequired "owner_identity_id" owner)
  let binding ← query fun db => db.identityAccountBinding owner
  refuseIf binding.isNone (bindingConflict "lane sync state requires an active account binding")
  let states ← query fun db => db.laneSyncStates owner
  attempt (validateAll (states.map validateLaneSyncState))
  pure states

def laneOfCapability : String → Option SyncLane
  | "lanes.p5_device.v1" => some .p5Device
  | "lanes.p6_group.v1" => some .p6Group
  | _ => none

/-- The loop of `load_negotiated_lanes_v1a` over the stored capabilities. -/
def negotiatedLanes (seen : List SyncLane) : List Json → Except ImError (List SyncLane)
  | [] => .ok seen
  | value :: rest =>
    match value.asStr with
    | none => .error (syncError "SYNC_NEGOTIATION_STATE_INVALID"
        "stored negotiated lane capability is not a string")
    | some capability =>
      match laneOfCapability capability with
      | none => .error (syncError "SYNC_NEGOTIATION_STATE_INVALID"
          "stored negotiated lane capability is unknown")
      | some lane =>
        if lane ∈ seen then
          .error (syncError "SYNC_NEGOTIATION_STATE_INVALID"
            "stored negotiated lane capability is duplicated")
        else
          negotiatedLanes (seen ++ [lane]) rest

/-- `load_negotiated_lanes_v1a`. -/
def loadNegotiatedLanes (binding : IdentityAccountBinding) : LocalM δ (Option (List SyncLane)) := do
  let row ← query fun db => db.syncLaneCapabilityState.find? fun row =>
    row.ownerIdentityId == binding.ownerIdentityId
  match row with
  | none => pure none
  | some row =>
    match row.clientInstanceId, row.negotiatedCapabilities with
    | none, none => pure none
    | some clientInstanceId, some capabilities => do
        let installed ← query fun db => db.syncInstallationState.find? fun state =>
          state.ownerIdentityId == binding.ownerIdentityId
        if row.negotiatedDeviceAuthGeneration ≠ binding.deviceAuthGeneration ∨
            installed.map (·.clientInstanceId) ≠ some clientInstanceId then
          pure (some [])
        else do
          let value ← orError capabilities.value? (syncError "SYNC_NEGOTIATION_STATE_INVALID"
            "stored negotiated lane capabilities are invalid JSON")
          match value with
          | .arr values => do
              let lanes ← attempt (negotiatedLanes [] values)
              pure (some lanes)
          | _ => throw (syncError "SYNC_NEGOTIATION_STATE_INVALID"
              "stored negotiated lane capabilities are not an array")
    | _, _ => throw (syncError "SYNC_NEGOTIATION_STATE_INVALID"
        "stored negotiated lane capability state is incomplete")

def loadLaneSyncStates (owner : String) : LocalM δ (List LaneSyncState) := do
  attempt (validateRequired "owner_identity_id" owner)
  let stored ← query fun db => db.identityAccountBinding owner
  let binding ← orError stored
    (bindingConflict "lane sync state requires an active account binding")
  let negotiated ← loadNegotiatedLanes binding
  let states ← loadAllLaneSyncStates owner
  match negotiated with
  | none => pure states
  | some negotiated => pure (states.filter fun state => state.lane ∈ negotiated)

/-- The checks of `replace_lane_sync_states_in_transaction` on the new states. -/
def checkLaneSyncStates (owner : String) (seen : List SyncLane) :
    List LaneSyncState → Except ImError Unit
  | [] => .ok ()
  | state :: rest => do
      validateLaneSyncState state
      if state.ownerIdentityId ≠ owner then
        .error (bindingConflict "lane sync state belongs to another owner")
      else if state.lane ∈ seen then
        .error (syncError "SYNC_INVALID_PAGE" "lane bootstrap contains a duplicate lane")
      else
        checkLaneSyncStates owner (state.lane :: seen) rest

/-- `replace_lane_sync_states_in_transaction`. -/
def replaceLaneSyncStates (owner : String) (states : List LaneSyncState) : LocalM δ Unit := do
  attempt (validateRequired "owner_identity_id" owner)
  let stored ← query fun db => db.identityAccountBinding owner
  let binding ← orError stored
    (bindingConflict "lane sync state requires an active account binding")
  attempt (checkLaneSyncStates owner [] states)
  forEach states fun state => execute fun db => { db with
    laneSyncState := Rows.upsertWhere
      (fun row => row.ownerIdentityId == state.ownerIdentityId && row.lane == state.lane)
      state (fun _ => state) db.laneSyncState }
  execute fun db => { db with
    syncLaneCapabilityState := Rows.upsertWhere
      (fun row => row.ownerIdentityId == owner)
      { ownerIdentityId := owner
        negotiatedDeviceAuthGeneration := binding.deviceAuthGeneration
        clientInstanceId := none
        negotiatedCapabilities := none }
      (fun row => { row with negotiatedDeviceAuthGeneration := binding.deviceAuthGeneration })
      db.syncLaneCapabilityState }

/-- The loop of `record_sync_lane_capability_negotiation_v1a`. -/
def checkCapabilities (seen : List String) : List Json → Except ImError Unit
  | [] => .ok ()
  | value :: rest =>
    match value.asStr with
    | none => .error (invalidInput "negotiated_capabilities_json"
        "negotiated capabilities must contain strings")
    | some capability =>
      if laneOfCapability capability = none ∨ capability ∈ seen then
        .error (invalidInput "negotiated_capabilities_json"
          "negotiated capabilities contain an unknown or duplicate lane")
      else
        checkCapabilities (capability :: seen) rest

/-- `record_sync_lane_capability_negotiation_v1a`. -/
def recordSyncLaneCapabilityNegotiation (owner deviceAuthGeneration clientInstanceId : String)
    (negotiatedCapabilities : JsonText) : LocalM δ Unit := do
  attempt (validateAll
    [ validateRequired "owner_identity_id" owner,
      validatePositiveDecimal "device_auth_generation" deviceAuthGeneration,
      validateRequired "client_instance_id" clientInstanceId ])
  let value ← orError negotiatedCapabilities.value?
    (invalidInput "negotiated_capabilities_json" "negotiated capabilities must be valid JSON")
  match value with
  | .arr capabilities => do
      attempt (checkCapabilities [] capabilities)
      let row : LaneCapabilityState :=
        { ownerIdentityId := owner
          negotiatedDeviceAuthGeneration := deviceAuthGeneration
          clientInstanceId := some clientInstanceId
          negotiatedCapabilities := some negotiatedCapabilities }
      execute fun db => { db with
        syncLaneCapabilityState := Rows.upsertWhere
          (fun row => row.ownerIdentityId == owner) row (fun _ => row)
          db.syncLaneCapabilityState }
  | _ => throw (invalidInput "negotiated_capabilities_json"
      "negotiated capabilities must be an array")

/-- `advance_lane_sync_state_in_transaction`. -/
def advanceLaneSyncState (next : LaneSyncState) : LocalM δ Unit := do
  attempt (validateLaneSyncState next)
  let states ← loadAllLaneSyncStates next.ownerIdentityId
  let current ← orError (states.find? fun state => state.lane == next.lane)
    (syncError "SYNC_LANE_BOOTSTRAP_REQUIRED" "lane state is missing")
  refuseIf (current.streamEpoch != next.streamEpoch)
    (syncError "SYNC_LANE_EPOCH_MISMATCH"
      "lane stream epoch does not match the bootstrapped cursor")
  let scan ← attempt (compareDecimal next.scanSeq current.scanSeq)
  let committed ← attempt (compareDecimal next.committedSeq current.committedSeq)
  refuseIf (scan == .lt || committed == .lt)
    (syncError "SYNC_CURSOR_REGRESSION"
      "lane cursor and committed watermark cannot move backwards")
  execute fun db => { db with
    laneSyncState := Rows.updateWhere
      (fun row => row.ownerIdentityId == next.ownerIdentityId && row.lane == next.lane &&
        row.streamEpoch == next.streamEpoch)
      (fun row => { row with scanSeq := next.scanSeq, committedSeq := next.committedSeq })
      db.laneSyncState }

/-- `clear_lane_transport_error_in_transaction`. -/
def clearLaneTransportError (owner : String) (lane : SyncLane) (unixTime : Int) : LocalM δ Unit :=
  execute fun db => { db with
    syncLaneTransportState := Rows.upsertWhere
      (fun row => row.ownerIdentityId == owner && row.lane == lane)
      { ownerIdentityId := owner, lane := lane, lastTransportError := none, updatedAt := unixTime }
      (fun row => { row with lastTransportError := none, updatedAt := unixTime })
      db.syncLaneTransportState }

/-! ## Bootstrap -/

/--
`BootstrapApplyInputV2`.  The received header carries no groups and no read states:
`receive_bootstrap` refuses it otherwise, so only their numbers are kept.
-/
structure BootstrapApplyInput where
  binding : IdentityAccountBinding
  state : MessageSyncState
  clientInstanceId : String
  negotiatedCapabilities : JsonText
  groupCount : Nat
  readStateCount : Nat
  laneStates : List LaneSyncState

def retainLanePositions (received : List LaneSyncState) :
    List LaneSyncState → Except ImError (List LaneSyncState)
  | [] => .ok []
  | lane :: rest => do
      let kept ←
        match received.find? fun current =>
          current.lane == lane.lane && current.streamEpoch == lane.streamEpoch with
        | none => .ok lane
        | some current => do
            let order ← compareDecimal current.scanSeq lane.scanSeq
            if order = .gt then .ok current else .ok lane
      let rest ← retainLanePositions received rest
      .ok (kept :: rest)

/-- The stored binding or cursor is of another account, device or identity. -/
abbrev BootstrapApplyInput.IsForeign (input : BootstrapApplyInput)
    (binding : IdentityAccountBinding) (previous : MessageSyncState) : Prop :=
  binding.accountId ≠ input.binding.accountId ∨
    binding.protocolDeviceId ≠ input.binding.protocolDeviceId ∨
    binding.currentDid ≠ input.binding.currentDid ∨
    binding.identityGeneration ≠ input.binding.identityGeneration ∨
    previous.accountId ≠ input.binding.accountId ∨
    previous.protocolDeviceId ≠ input.binding.protocolDeviceId

def retainBootstrapReceivePosition (input : BootstrapApplyInput) :
    LocalM δ BootstrapApplyInput := do
  let owner := input.binding.ownerIdentityId
  let binding ← query fun db => db.identityAccountBinding owner
  let previous ← query fun db => db.messageSyncStateRow owner
  match binding, previous with
  | some binding, some previous =>
    if input.IsForeign binding previous then
      pure input
    else do
      let order ← attempt
        (compareDecimal previous.deviceAuthGeneration input.binding.deviceAuthGeneration)
      if order ≠ .lt then
        pure input
      else do
        let state :=
          if previous.streamEpoch = input.state.streamEpoch then
            { input.state with scanSeq := previous.scanSeq }
          else
            input.state
        let received ← loadLaneSyncStates owner
        let laneStates ← attempt (retainLanePositions received input.laneStates)
        pure { input with state := state, laneStates := laneStates }
  | _, _ => pure input

/-- `apply_bootstrap_in_transaction` for a header without groups and read states. -/
def applyBootstrap (input : BootstrapApplyInput) : LocalM δ Unit := do
  upsertIdentityAccountBinding input.binding
  replaceLaneSyncStates input.binding.ownerIdentityId input.laneStates
  recordSyncLaneCapabilityNegotiation input.binding.ownerIdentityId
    input.binding.deviceAuthGeneration input.clientInstanceId input.negotiatedCapabilities
  upsertBootstrapState input.state
  completeActiveRecovery input.state

/-! ## Snapshots -/

def upsertRecoveryState (state : RecoveryState) : LocalM δ Unit := do
  attempt (validateAll
    [ validateRequired "owner_identity_id" state.ownerIdentityId,
      (if state.mode = "compact_recovery" then .ok ()
        else .error (invalidInput "mode" "recovery mode is not supported")),
      (if state.status ∈ ["recovering", "downloading", "applying", "retryable", "completed",
          "permanent_failure"] then .ok ()
        else .error (invalidInput "status" "recovery status is not supported")),
      validatePositiveDecimal "requested_from_epoch" state.requestedFromEpoch,
      validateDecimal "requested_from_seq" state.requestedFromSeq,
      (match state.snapshotScanSeq with
        | some snapshotScanSeq => validateDecimal "snapshot_scan_seq" snapshotScanSeq
        | none => .ok ()),
      (if state.retryCount < 0 then
        .error (invalidInput "retry_count" "retry_count must not be negative")
        else .ok ()) ])
  execute fun db => { db with
    syncRecoveryState := Rows.upsertWhere
      (fun row => row.ownerIdentityId == state.ownerIdentityId) state (fun _ => state)
      db.syncRecoveryState }

/-- `LaneCapabilityReconcileInputV1a`. -/
structure LaneCapabilityReconcile where
  clientInstanceId : String
  negotiatedCapabilities : JsonText
  laneStates : List LaneSyncState

/--
`SnapshotApplyInputV2` as `receive_snapshot` reads it: its events, groups and read
states travel in the baseline and the inbox events.
-/
structure SnapshotApplyInput where
  ownerIdentityId : String
  expectedRunGeneration : Option Int
  ownerDid : String
  accountId : String
  protocolDeviceId : String
  deviceAuthGeneration : String
  expectedStreamEpoch : String
  expectedScanSeq : String
  allowMissingPrevious : Bool
  recoveryIdHash : String
  streamEpoch : String
  snapshotScanSeq : String
  serverTime : String
  serverCutoff : String
  olderHistoryExcluded : Bool
  laneCapabilityReconcile : Option LaneCapabilityReconcile

def validateSnapshotReceive (input : SnapshotApplyInput) : LocalM δ Unit := do
  attempt (validateAll
    [ validateRequired "owner_identity_id" input.ownerIdentityId,
      validateRequired "owner_did" input.ownerDid,
      validateRequired "account_id" input.accountId,
      validateRequired "protocol_device_id" input.protocolDeviceId,
      validatePositiveDecimal "device_auth_generation" input.deviceAuthGeneration,
      validatePositiveDecimal "expected_stream_epoch" input.expectedStreamEpoch,
      validateDecimal "expected_scan_seq" input.expectedScanSeq,
      validateRequired "recovery_id_hash" input.recoveryIdHash,
      validatePositiveDecimal "stream_epoch" input.streamEpoch,
      validateDecimal "snapshot_scan_seq" input.snapshotScanSeq,
      validateRequired "server_time" input.serverTime,
      validateRequired "server_cutoff" input.serverCutoff,
      validateExpectedRunGeneration input.expectedRunGeneration ])
  requireMessageSyncRunGeneration input.ownerIdentityId input.expectedRunGeneration
  let stored ← query fun db => db.identityAccountBinding input.ownerIdentityId
  let binding ← orError stored (bindingConflict "snapshot requires an active account binding")
  refuseIf (binding.currentDid != input.ownerDid || binding.accountId != input.accountId ||
      binding.protocolDeviceId != input.protocolDeviceId ||
      binding.deviceAuthGeneration != input.deviceAuthGeneration)
    (bindingConflict "snapshot binding does not match the active account device")
  let row ← query fun db => db.messageSyncStateRow input.ownerIdentityId
  refuseIf (match row with
      | some current => current.streamEpoch != input.expectedStreamEpoch ||
          current.scanSeq != input.expectedScanSeq
      | none => !(input.allowMissingPrevious && input.expectedScanSeq == "0"))
    (syncError "SYNC_SNAPSHOT_CAS_FAILED" "snapshot cursor changed while recovery was in flight")
  let stored ← query fun db => db.syncRecoveryState.find? fun state =>
    state.ownerIdentityId == input.ownerIdentityId
  let recovery ← orError stored
    (syncError "SYNC_SNAPSHOT_CAS_FAILED" "snapshot recovery is missing")
  refuseIf (recovery.recoveryIdHash != some input.recoveryIdHash ||
      recovery.snapshotScanSeq != some input.snapshotScanSeq ||
      recovery.requestedFromEpoch != input.expectedStreamEpoch ||
      recovery.requestedFromSeq != input.expectedScanSeq || recovery.status != "applying")
    (syncError "SYNC_SNAPSHOT_CAS_FAILED"
      "snapshot recovery authorization changed before commit")

def compactRecoveryMetadata (olderHistoryExcluded : Bool) : Json :=
  .obj [("mode", .str "compact_recovery"), ("older_history_excluded", .bool olderHistoryExcluded)]

def snapshotSyncState (platform : Platform) (input : SnapshotApplyInput) (unixTime : Int) :
    MessageSyncState where
  ownerIdentityId := input.ownerIdentityId
  accountId := input.accountId
  protocolDeviceId := input.protocolDeviceId
  deviceAuthGeneration := input.deviceAuthGeneration
  streamEpoch := input.streamEpoch
  scanSeq := input.snapshotScanSeq
  bootstrapState := "active"
  lastServerTime := some input.serverTime
  lastSuccessAt := some unixTime
  lastErrorCode := none
  metadataJson := some (platform.jsonText (compactRecoveryMetadata input.olderHistoryExcluded))
  updatedAt := unixTime

def commitSnapshotReceiveState (platform : Platform) (input : SnapshotApplyInput)
    (unixTime : Int) : LocalM δ Unit := do
  (match input.laneCapabilityReconcile with
    | some reconcile => do
        replaceLaneSyncStates input.ownerIdentityId reconcile.laneStates
        recordSyncLaneCapabilityNegotiation input.ownerIdentityId input.deviceAuthGeneration
          reconcile.clientInstanceId reconcile.negotiatedCapabilities
    | none => pure ())
  let scope : HistoryScope :=
    { ownerIdentityId := input.ownerIdentityId
      olderHistoryExcluded := input.olderHistoryExcluded
      updatedAt := unixTime }
  execute fun db => { db with
    syncHistoryScope := Rows.upsertWhere
      (fun row => row.ownerIdentityId == input.ownerIdentityId) scope (fun _ => scope)
      db.syncHistoryScope }
  upsertBootstrapState (snapshotSyncState platform input unixTime)
  completeActiveRecovery (snapshotSyncState platform input unixTime)

/-! ## Frames -/

section Frames

variable {γ : Type} {f : Db δ → γ}

theorem loadAllLaneSyncStates_keeps (owner : String) :
    Keeps (loadAllLaneSyncStates owner : LocalM δ _) f :=
  .bind .attempt fun _ => .bind (.query _) fun _ => .bind .refuseIf fun _ =>
    .bind (.query _) fun _ => .reply .attempt

theorem loadNegotiatedLanes_keeps (binding : IdentityAccountBinding) :
    Keeps (loadNegotiatedLanes binding : LocalM δ _) f := by
  refine .bind (.query _) fun row => ?_
  match row with
  | none => exact .pure _
  | some row =>
    dsimp only
    split
    · exact .pure _
    · refine .bind (.query _) fun _ => .ite (.pure _) (.bind .orError fun value => ?_)
      cases value <;> first
        | exact .throw
        | exact .reply .attempt
    · exact .throw

theorem loadLaneSyncStates_keeps (owner : String) :
    Keeps (loadLaneSyncStates owner : LocalM δ _) f := by
  refine .bind .attempt fun _ => .bind (.query _) fun _ => .bind .orError fun _ =>
    .bind (loadNegotiatedLanes_keeps _) fun negotiated =>
    .bind (loadAllLaneSyncStates_keeps _) fun _ => ?_
  cases negotiated <;> exact .pure _

theorem replaceLaneSyncStates_keeps (hf : OffLanes f) (owner : String)
    (states : List LaneSyncState) : Keeps (replaceLaneSyncStates owner states) f :=
  .bind .attempt fun _ => .bind (.query _) fun _ => .bind .orError fun _ =>
    .bind .attempt fun _ => .bind (.forEach fun _ _ => .execute fun db => hf.lanes db _) fun _ =>
    .execute fun db => hf.capabilities db _

theorem recordSyncLaneCapabilityNegotiation_keeps
    (hf : ∀ db rows, f { db with syncLaneCapabilityState := rows } = f db)
    (owner deviceAuthGeneration clientInstanceId : String) (capabilities : JsonText) :
    Keeps (recordSyncLaneCapabilityNegotiation owner deviceAuthGeneration clientInstanceId
      capabilities) f := by
  refine .bind .attempt fun _ => .bind .orError fun value => ?_
  cases value <;> first
    | exact .throw
    | exact .bind .attempt fun _ => .execute fun db => hf db _

theorem advanceLaneSyncState_keeps (hf : OffLanes f) (next : LaneSyncState) :
    Keeps (advanceLaneSyncState next) f :=
  .bind .attempt fun _ => .bind (loadAllLaneSyncStates_keeps _) fun _ => .bind .orError fun _ =>
    .bind .refuseIf fun _ => .bind .attempt fun _ => .bind .attempt fun _ =>
    .bind .refuseIf fun _ => .execute fun db => hf.lanes db _

theorem clearLaneTransportError_keeps (hf : OffLanes f) (owner : String) (lane : SyncLane)
    (unixTime : Int) : Keeps (clearLaneTransportError owner lane unixTime) f :=
  .execute fun db => hf.transport db _

theorem retainBootstrapReceivePosition_keeps (input : BootstrapApplyInput) :
    Keeps (retainBootstrapReceivePosition input : LocalM δ _) f := by
  refine .bind (.query _) fun binding => .bind (.query _) fun previous => ?_
  match binding, previous with
  | none, _ => exact .pure _
  | some _, none => exact .pure _
  | some binding, some previous =>
    exact .ite (.pure _) (.bind .attempt fun _ => .ite (.pure _)
      (.bind (loadLaneSyncStates_keeps _) fun _ => .reply .attempt))

theorem applyBootstrap_keeps (hf : OffLanes f) {input : BootstrapApplyInput}
    (hcursor : Keeps (upsertBootstrapState input.state) f) : Keeps (applyBootstrap input) f :=
  .bind (upsertIdentityAccountBinding_keeps hf.bindings hf.cutovers _) fun _ =>
    .bind (replaceLaneSyncStates_keeps hf _ _) fun _ =>
    .bind (recordSyncLaneCapabilityNegotiation_keeps hf.capabilities _ _ _ _) fun _ =>
    .bind hcursor fun _ => completeActiveRecovery_keeps hf _

theorem upsertRecoveryState_keeps (hf : OffLanes f) (state : RecoveryState) :
    Keeps (upsertRecoveryState state) f :=
  .bind .attempt fun _ => .execute fun db => hf.recovery db _

theorem validateSnapshotReceive_keeps (input : SnapshotApplyInput) :
    Keeps (validateSnapshotReceive input : LocalM δ _) f :=
  .bind .attempt fun _ => .bind (requireMessageSyncRunGeneration_keeps _ _) fun _ =>
    .bind (.query _) fun _ => .bind .orError fun _ => .bind .refuseIf fun _ =>
    .bind (.query _) fun _ => .bind .refuseIf fun _ => .bind (.query _) fun _ =>
    .bind .orError fun _ => .refuseIf

theorem commitSnapshotReceiveState_keeps (hf : OffLanes f) {platform : Platform}
    {input : SnapshotApplyInput} {unixTime : Int}
    (hcursor : Keeps (upsertBootstrapState (snapshotSyncState platform input unixTime)) f) :
    Keeps (commitSnapshotReceiveState platform input unixTime) f := by
  refine .bind ?_ fun _ => .bind (.execute fun db => hf.history db _) fun _ =>
    .bind hcursor fun _ => completeActiveRecovery_keeps hf _
  cases input.laneCapabilityReconcile with
  | none => exact .pure ()
  | some reconcile =>
    exact .bind (replaceLaneSyncStates_keeps hf _ _) fun _ =>
      recordSyncLaneCapabilityNegotiation_keeps hf.capabilities _ _ _ _

end Frames
end LocalState
end Awiki

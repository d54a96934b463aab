import Awiki.ReceiveInbox

/-!
# Receiving snapshots, bootstraps and secure-lane inputs

`sync_baseline.rs` queues a snapshot or a bootstrap as one baseline input followed
by its events, and moves the cursor in the same transaction.  A secure-lane input
is handed to the same inbox by `commit_sync_lane_handoff`, which makes room for it
but does not report what it evicted.
-/

namespace Awiki
namespace LocalState

open Tx

variable {δ : Type}

/-- `Baseline`; the two identifier sets are in order. -/
structure Baseline where
  serverTime : String
  serverCutoff : Option String
  groups : List Json
  readStates : List Json
  messageIds : List String
  notificationIds : List String

namespace Baseline

/-- `serde_json::to_value`. -/
def toJson (baseline : Baseline) : Json :=
  .obj
    [ ("groups", .arr baseline.groups),
      ("message_ids", .arr (baseline.messageIds.map .str)),
      ("notification_ids", .arr (baseline.notificationIds.map .str)),
      ("read_states", .arr baseline.readStates),
      ("server_cutoff", Json.ofOption (baseline.serverCutoff.map .str)),
      ("server_time", .str baseline.serverTime) ]

end Baseline

/-- The marker input of a baseline; `draw` is the random number it is named after. -/
def baselineMarker (baseline : Baseline) (anchor : String) (draw : Nat) : InboxEvent :=
  let position := toString (max draw 1)
  { eventId := "local-sync-baseline:" ++ position
    position := position
    eventType := "sync.baseline"
    payload := baseline.toJson.set "snapshot_scan_seq" (.str anchor)
    processingScope := "baseline"
    groupDid := none }

def pendingInputs (platform : Platform) (owner epoch : String) :
    List (Lane × InboxEvent) → LocalM δ (List (Lane × InboxEvent) × Nat)
  | [] => pure ([], 0)
  | input :: rest => do
      let duplicate ← inputIsDuplicate platform owner input.1 epoch input.2
      let tail ← pendingInputs platform owner epoch rest
      pure (if duplicate then (tail.1, tail.2 + if input.1 = .ordinary then 1 else 0)
        else (input :: tail.1, tail.2))

def insertBaselineAndEvents (platform : Platform) (binding : IdentityAccountBinding)
    (installation epoch anchor : String) (baseline : Baseline) (events : List InboxEvent)
    (draw : Nat) (now : Int) : LocalM δ ReceiveOutcome := do
  let stored ← query fun db => db.clientInstanceId binding.ownerIdentityId
  let installed ← orError stored (.localStateUnavailable "Query returned no rows")
  refuseIf (installed != installation)
    (syncError "SYNC_INSTALLATION_CHANGED" "baseline receive installation is no longer current")
  let inputs := (.baseline, baselineMarker baseline anchor draw) :: events.map (Lane.ordinary, ·)
  let pending ← pendingInputs platform binding.ownerIdentityId epoch inputs
  let removed ← makeRoom pending.1.length now
  forEach pending.1 fun input =>
    insertInput platform binding installation input.1 epoch input.2 now
  pure
    { received := (pending.1.filter fun input => input.1 == .ordinary).length
      duplicates := pending.2
      removed := removed }

def receiveSnapshot (platform : Platform) (checkpoint : SnapshotApplyInput)
    (binding : IdentityAccountBinding) (installation : String) (baseline : Baseline)
    (events : List InboxEvent) (draw : Nat) (now unixTime : Int) : LocalM δ ReceiveOutcome :=
  immediate do
    validateSnapshotReceive checkpoint
    refuseIf (binding.ownerIdentityId != checkpoint.ownerIdentityId ||
        binding.currentDid != checkpoint.ownerDid)
      (syncError "SYNC_ACCOUNT_BINDING_MISMATCH"
        "snapshot queue binding does not match checkpoint")
    let outcome ← insertBaselineAndEvents platform binding installation checkpoint.streamEpoch
      checkpoint.snapshotScanSeq baseline events draw now
    commitSnapshotReceiveState platform checkpoint unixTime
    pure (.commit outcome)

def receiveBootstrap (platform : Platform) (input : BootstrapApplyInput) (baseline : Baseline)
    (expectedRunGeneration : Int) (draw : Nat) (now : Int) :
    LocalM δ (ReceiveOutcome × MessageSyncState) :=
  immediate do
    requireMessageSyncRunGeneration input.binding.ownerIdentityId (some expectedRunGeneration)
    refuseIf (input.groupCount != 0 || input.readStateCount != 0)
      (syncError "SYNC_INPUT_INVALID" "bootstrap receive header contains business projections")
    let retained ← retainBootstrapReceivePosition input
    applyBootstrap retained
    -- epoch and anchor are those of the header, not of the retained position
    let outcome ← insertBaselineAndEvents platform input.binding input.clientInstanceId
      input.state.streamEpoch input.state.scanSeq baseline [] draw now
    pure (.commit (outcome, retained.state))

/-! ## Secure-lane inputs -/

structure SyncLaneHandoffInput where
  ownerIdentityId : String
  accountIdSnapshot : String
  deviceIdSnapshot : String
  authGenerationSnapshot : String
  clientInstanceIdSnapshot : String
  lane : SyncLane
  laneEpoch : String
  position : String
  eventId : String
  eventType : String
  rawPayload : Json
  groupDid : Option String
  receivedAt : String
  sourceCreatedAt : Option String
  sourceExpiresAt : Option String

inductive SyncLaneHandoffOutcome where
  | inserted
  | duplicate
  deriving DecidableEq

/-- `SYNC_LANE_INPUT_MAX_BYTES`. -/
def syncLaneInputMaxBytes : Nat := 1024 * 1024

def validateSyncLaneHandoffInput (input : SyncLaneHandoffInput) : Except ImError Unit :=
  validateAll
    [ validateRequired "owner_identity_id" input.ownerIdentityId,
      validateRequired "account_id_snapshot" input.accountIdSnapshot,
      validateRequired "device_id_snapshot" input.deviceIdSnapshot,
      validatePositiveDecimal "auth_generation_snapshot" input.authGenerationSnapshot,
      validateRequired "client_instance_id_snapshot" input.clientInstanceIdSnapshot,
      validatePositiveDecimal "lane_epoch" input.laneEpoch,
      validatePositiveDecimal "position" input.position,
      validateRequired "event_id" input.eventId,
      validateRequired "received_at" input.receivedAt,
      (if input.rawPayload.isObject then .ok ()
        else .error (syncError "LANE_INPUT_INVALID"
          "lane raw payload must be a complete JSON object")),
      (if (match input.lane with
          | .p5Device => input.eventType == "p5.delivery.created" && input.groupDid.isNone
          | .p6Group =>
            (input.eventType == "p6.delivery.created" ||
              input.eventType == "p6.control.notice") &&
            match input.groupDid with
            | some group => !Text.isBlank group
            | none => false)
        then .ok ()
        else .error (syncError "LANE_INPUT_INVALID"
          "lane input does not match its production event discriminator")) ]

def validateSyncLaneHandoffBinding (input : SyncLaneHandoffInput) : LocalM δ Unit := do
  let stored ← query fun db => db.identityAccountBinding input.ownerIdentityId
  let binding ← orError stored
    (bindingConflict "lane handoff requires an active account binding")
  refuseIf (binding.accountId != input.accountIdSnapshot ||
      binding.protocolDeviceId != input.deviceIdSnapshot ||
      binding.deviceAuthGeneration != input.authGenerationSnapshot)
    (bindingConflict "lane handoff binding snapshot does not match the active replica")
  let installed ← query fun db => db.clientInstanceId input.ownerIdentityId
  refuseIf (installed != some input.clientInstanceIdSnapshot)
    (bindingConflict "lane handoff client installation snapshot is stale")

def handoffScope (input : SyncLaneHandoffInput) : String :=
  (input.groupDid.or
    ((input.rawPayload.pointer ["meta", "sender_did"]).bind Json.asStr)).getD input.eventId

def handoffRow (platform : Platform) (input : SyncLaneHandoffInput) (unixTime : Int) :
    InboxInput where
  rowid := 0
  inputId := stableInputId platform input.ownerIdentityId (.secure input.lane) input.laneEpoch
    input.eventId
  ownerIdentityId := input.ownerIdentityId
  lane := .secure input.lane
  laneEpoch := input.laneEpoch
  position := input.position
  eventId := input.eventId
  eventType := input.eventType
  rawPayload := input.rawPayload
  payloadBytes := (platform.jsonText input.rawPayload).utf8ByteSize
  accountIdSnapshot := input.accountIdSnapshot
  deviceIdSnapshot := input.deviceIdSnapshot
  authGenerationSnapshot := input.authGenerationSnapshot
  clientInstanceIdSnapshot := input.clientInstanceIdSnapshot
  groupDid := input.groupDid
  logicalEventSeq := none
  receivedAt := input.receivedAt
  sourceCreatedAt := input.sourceCreatedAt
  sourceExpiresAt := input.sourceExpiresAt
  createdAt := unixTime
  processingScope := handoffScope input

def commitSyncLaneHandoff (platform : Platform) (input : SyncLaneHandoffInput)
    (unixTime : Int) : LocalM δ SyncLaneHandoffOutcome := do
  attempt (validateSyncLaneHandoffInput input)
  refuseIf ((platform.jsonText input.rawPayload).utf8ByteSize > syncLaneInputMaxBytes)
    (syncError "LANE_INPUT_TOO_LARGE" "lane payload exceeds the fixed 1 MiB limit")
  let next : LaneSyncState :=
    { ownerIdentityId := input.ownerIdentityId
      lane := input.lane
      streamEpoch := input.laneEpoch
      scanSeq := input.position
      committedSeq := input.position }
  immediate do
    validateSyncLaneHandoffBinding input
    let existing ← query fun db => db.syncLaneInbox.find? fun row =>
      row.isEvent input.ownerIdentityId (.secure input.lane) input.laneEpoch input.eventId
    match existing with
    | some row => do
        refuseIf (row.position != input.position || row.eventType != input.eventType ||
            row.rawPayload != input.rawPayload)
          (syncError "LANE_INPUT_CONFLICT"
            "lane event identity is already bound to another position or payload")
        advanceLaneSyncState next
        clearLaneTransportError input.ownerIdentityId input.lane unixTime
        pure (.commit .duplicate)
    | none => do
        let taken ← query fun db => db.syncLaneInbox.any fun row =>
          row.isAt input.ownerIdentityId (.secure input.lane) input.laneEpoch input.position
        refuseIf taken
          (syncError "LANE_INPUT_CONFLICT" "lane position is already bound to another event")
        -- the removed rows are not reported to anyone
        let _removed ← makeRoom 1 unixTime
        insertInboxRow (handoffRow platform input unixTime)
        advanceLaneSyncState next
        clearLaneTransportError input.ownerIdentityId input.lane unixTime
        pure (.commit .inserted)

end LocalState
end Awiki

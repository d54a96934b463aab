import Awiki.SyncBootstrapState

/-!
# The durable receive inbox

The receiving half of `sync_inbox.rs`: one page of ordinary events is checked,
its duplicates are found, room is made, the new events are queued and the cursor is
advanced, all in one transaction.
-/

namespace Awiki
namespace LocalState

open Tx

variable {δ : Type}

/-- `MAX_INBOX_RECORDS`. -/
def maxInboxRecords : Nat := 16384

/-- `RETENTION_SECONDS`. -/
def retentionSeconds : Int := 48 * 60 * 60

/-- `SYNC_CLEANUP_BATCH_SIZE`. -/
def syncCleanupBatchSize : Nat := 256

def retentionCutoff (now : Int) : Int := saturatingSub now retentionSeconds

/-! ## The event envelope -/

/-- `SyncEventV2`. -/
structure SyncEvent where
  eventId : String
  streamEpoch : String
  eventSeq : String
  eventType : String
  schemaVersion : Nat
  ignoreSafe : Bool
  accountId : String
  recipientDeviceId : Option String
  originDid : Option String
  originDeviceId : Option String
  aggregateKind : String
  aggregateId : String
  stateVersion : Option String
  threadKey : Option String
  occurredAt : String
  payload : Json
  source : Option Json

namespace SyncEvent

def fieldNames : List String :=
  ["event_id", "stream_epoch", "event_seq", "event_type", "schema_version", "ignore_safe",
    "account_id", "recipient_device_id", "origin_did", "origin_device_id", "aggregate_kind",
    "aggregate_id", "state_version", "thread_key", "occurred_at", "payload", "source"]

def textField (value : Json) (key : String) : Option String :=
  (value.get key).bind Json.asStr

/-- An optional text field: absent or null is `None`. -/
def optionalTextField (value : Json) (key : String) : Option (Option String) :=
  match value.get key with
  | none | some .null => some none
  | some (.str text) => some (some text)
  | some _ => none

/-- A `u32` field. -/
def u32Field (value : Json) (key : String) : Option Nat :=
  match value.get key with
  | some (.num n) => if 0 ≤ n ∧ n < 2 ^ 32 then some n.toNat else none
  | _ => none

def boolField (value : Json) (key : String) : Option Bool :=
  match value.get key with
  | some (.bool b) => some b
  | _ => none

def decodeFields (value : Json) : Option SyncEvent := do
  let eventId ← textField value "event_id"
  let streamEpoch ← textField value "stream_epoch"
  let eventSeq ← textField value "event_seq"
  let eventType ← textField value "event_type"
  let schemaVersion ← u32Field value "schema_version"
  let ignoreSafe ← boolField value "ignore_safe"
  let accountId ← textField value "account_id"
  let recipientDeviceId ← optionalTextField value "recipient_device_id"
  let originDid ← optionalTextField value "origin_did"
  let originDeviceId ← optionalTextField value "origin_device_id"
  let aggregateKind ← textField value "aggregate_kind"
  let aggregateId ← textField value "aggregate_id"
  let stateVersion ← optionalTextField value "state_version"
  let threadKey ← optionalTextField value "thread_key"
  let occurredAt ← textField value "occurred_at"
  let payload ← value.get "payload"
  return { eventId, streamEpoch, eventSeq, eventType, schemaVersion, ignoreSafe, accountId,
           recipientDeviceId, originDid, originDeviceId, aggregateKind, aggregateId,
           stateVersion, threadKey, occurredAt, payload,
           source := (value.get "source").filter fun source => source != .null }

/-- `serde_json::from_value`: a map, or a sequence with every field in order. -/
def decode (value : Json) : Option SyncEvent :=
  match value with
  | .obj _ => decodeFields value
  | .arr items =>
    if items.length = fieldNames.length then
      decodeFields (.obj (fieldNames.zip items))
    else
      none
  | _ => none

end SyncEvent

/-! ## Inputs and outcomes -/

structure InboxEvent where
  eventId : String
  position : String
  eventType : String
  payload : Json
  processingScope : String
  groupDid : Option String
  deriving DecidableEq

structure OrdinaryReceiveBatch where
  binding : IdentityAccountBinding
  clientInstanceId : String
  expectedRunGeneration : Option Int
  streamEpoch : String
  expectedScanSeq : String
  nextScanSeq : String
  serverTime : String
  events : List InboxEvent

structure RemovedInput where
  inputId : String
  ownerIdentityId : String
  eventId : String
  deriving DecidableEq

structure ReceiveOutcome where
  received : Nat := 0
  duplicates : Nat := 0
  removed : List RemovedInput := []
  deriving DecidableEq

def RemovedInput.ofRow (row : InboxRow) : RemovedInput where
  inputId := row.inputId
  ownerIdentityId := row.ownerIdentityId
  eventId := row.eventId

/-! ## Duplicates -/

/-- `payload_hash`: server time and replay source are not part of an ordinary event. -/
def payloadHash (platform : Platform) (lane : Lane) (payload : Json) : String :=
  if lane = .ordinary ∧ (payload.get "event").isSome then
    platform.digest
      (.arr [Json.ofOption (payload.get "event"), Json.ofOption (payload.get "hydrated")])
  else
    platform.digest payload

def InboxInput.isEvent (row : InboxInput) (owner : String) (lane : Lane)
    (epoch eventId : String) : Bool :=
  row.ownerIdentityId == owner && row.lane == lane && row.laneEpoch == epoch &&
    row.eventId == eventId

def InboxInput.isAt (row : InboxInput) (owner : String) (lane : Lane)
    (epoch position : String) : Bool :=
  row.ownerIdentityId == owner && row.lane == lane && row.laneEpoch == epoch &&
    row.position == position

def Db.receiptHash (db : Db δ) (owner : String) (lane : Lane) (epoch eventId : String) :
    Option String :=
  match lane with
  | .ordinary | .baseline =>
    (db.syncAppliedEvents.find? fun receipt =>
      receipt.ownerIdentityId == owner && receipt.eventId == eventId &&
        receipt.streamEpoch == epoch).bind (·.payloadHash)
  | .secure lane =>
    (db.syncLaneAppliedEvents.find? fun receipt =>
      receipt.ownerIdentityId == owner && receipt.lane == lane && receipt.eventId == eventId &&
        receipt.streamEpoch == epoch).bind (·.payloadHash)

def inputIsDuplicate (platform : Platform) (owner : String) (lane : Lane) (epoch : String)
    (event : InboxEvent) : LocalM δ Bool := do
  let existing ← query fun db => db.syncLaneInbox.find? fun row =>
    row.isEvent owner lane epoch event.eventId
  match existing with
  | some row => do
      refuseIf (row.position != event.position || row.eventType != event.eventType ||
          payloadHash platform lane row.rawPayload != payloadHash platform lane event.payload)
        (syncError "SYNC_INPUT_CONFLICT"
          "event identity conflicts with an existing receive payload")
      pure true
  | none => do
      let taken ← query fun db => db.syncLaneInbox.any fun row =>
        row.isAt owner lane epoch event.position
      refuseIf taken
        (syncError "SYNC_INPUT_CONFLICT" "receive position belongs to another event")
      let stored ← query fun db => db.receiptHash owner lane epoch event.eventId
      match stored with
      | some hash => do
          refuseIf (hash != payloadHash platform lane event.payload)
            (syncError "SYNC_INPUT_CONFLICT"
              "completed event was redelivered with a different payload")
          pure true
      -- an older receipt has no digest: the idempotent reducer decides
      | none => pure false

/-! ## Queueing -/

def Db.nextRowid (db : Db δ) : Nat :=
  (db.syncLaneInbox.map (·.rowid)).foldl max 0 + 1

/-- `trim(text)` of SQL is empty. -/
def sqlBlank (text : String) : Bool :=
  text.toList.all fun c => c == ' '

/-- `payload_bytes` that the table admits. -/
def payloadBytesLimit : Lane → Nat
  | .baseline => 67108864
  | _ => 16777216

/-- The lane's `CHECK` on event type and group. -/
def laneShape (row : InboxInput) : Bool :=
  match row.lane with
  | .ordinary | .baseline => true
  | .secure .p5Device => row.eventType == "p5.delivery.created" && row.groupDid.isNone
  | .secure .p6Group =>
    (row.eventType == "p6.delivery.created" || row.eventType == "p6.control.notice") &&
      match row.groupDid with
      | some group => !sqlBlank group
      | none => false

/-- The constraints of `sync_lane_inbox` on a new row. -/
def inboxRowRefused (db : Db δ) (row : InboxInput) : Bool :=
  (db.syncLaneInbox.any fun other =>
    other.inputId == row.inputId ||
      other.isEvent row.ownerIdentityId row.lane row.laneEpoch row.eventId ||
      other.isAt row.ownerIdentityId row.lane row.laneEpoch row.position) ||
    sqlBlank row.eventType || !row.rawPayload.isObject || row.payloadBytes == 0 ||
    row.payloadBytes > payloadBytesLimit row.lane || sqlBlank row.inputId ||
    sqlBlank row.eventId || sqlBlank row.receivedAt || !isPositiveDecimalColumn row.laneEpoch ||
    !isPositiveDecimalColumn row.position || !laneShape row ||
    (db.identityAccountBinding row.ownerIdentityId).isNone

/-- `INSERT INTO sync_lane_inbox`: the rowid is SQLite's, the attempt columns default. -/
def insertInboxRow (input : InboxInput) : LocalM δ Unit := do
  let rowid ← query fun db => db.nextRowid
  let row : InboxInput := { input with rowid := rowid }
  let refused ← query fun db => inboxRowRefused db row
  refuseIf refused constraintError
  execute fun db => { db with syncLaneInbox := db.syncLaneInbox ++ [.queued row] }

def stableInputId (platform : Platform) (owner : String) (lane : Lane) (epoch eventId : String) :
    String :=
  platform.jsonText (.arr [.str owner, .str lane.name, .str epoch, .str eventId])

def insertInput (platform : Platform) (binding : IdentityAccountBinding)
    (installation : String) (lane : Lane) (epoch : String) (event : InboxEvent) (now : Int) :
    LocalM δ Unit := do
  let receivedAt ← orError (platform.rfc3339 now)
    (syncError "SYNC_INPUT_INVALID" "receive time is invalid")
  insertInboxRow
    { rowid := 0
      inputId := stableInputId platform binding.ownerIdentityId lane epoch event.eventId
      ownerIdentityId := binding.ownerIdentityId
      lane := lane
      laneEpoch := epoch
      position := event.position
      eventId := event.eventId
      eventType := event.eventType
      rawPayload := event.payload
      payloadBytes := (platform.jsonText event.payload).utf8ByteSize
      accountIdSnapshot := binding.accountId
      deviceIdSnapshot := binding.protocolDeviceId
      authGenerationSnapshot := binding.deviceAuthGeneration
      clientInstanceIdSnapshot := installation
      groupDid := event.groupDid
      logicalEventSeq := none
      receivedAt := receivedAt
      sourceCreatedAt := none
      sourceExpiresAt := none
      createdAt := now
      processingScope := event.processingScope }

/-! ## Retention and capacity -/

/-- `ORDER BY created_at, input_id`. -/
def olderOrSame (a b : InboxRow) : Prop :=
  a.createdAt < b.createdAt ∨ (a.createdAt = b.createdAt ∧ a.inputId ≤ b.inputId)

instance : DecidableRel olderOrSame := fun a b =>
  inferInstanceAs (Decidable (a.createdAt < b.createdAt ∨
    (a.createdAt = b.createdAt ∧ a.inputId ≤ b.inputId)))

/-- The rows that `delete_oldest` selects. -/
def Db.oldestRows (db : Db δ) (cutoff : Option Int) (limit : Nat) : List InboxRow :=
  ((db.syncLaneInbox.filter fun row =>
      match cutoff with
      | some cutoff => decide (row.createdAt ≤ cutoff)
      | none => true).insertionSort olderOrSame).take limit

def RemovedInput.isOf (item : RemovedInput) (row : InboxRow) : Bool :=
  row.inputId == item.inputId && row.ownerIdentityId == item.ownerIdentityId

/-- `DELETE FROM sync_lane_inbox` for one input. -/
def deleteInput (item : RemovedInput) : LocalM δ Unit :=
  execute fun db => { db with syncLaneInbox := Rows.deleteWhere item.isOf db.syncLaneInbox }

def deleteOldest (cutoff : Option Int) (limit : Nat) : LocalM δ (List RemovedInput) := do
  let removed ← query fun db => (db.oldestRows cutoff limit).map RemovedInput.ofRow
  forEach removed deleteInput
  pure removed

def makeRoomWithLimit (additional : Nat) (now : Int) (maxRecords : Nat) :
    LocalM δ (List RemovedInput) := do
  refuseIf (additional > maxRecords || maxRecords == 0)
    (syncError "SYNC_INBOX_BATCH_TOO_LARGE" "receive batch exceeds inbox capacity")
  let expired ← deleteOldest (some (retentionCutoff now)) syncCleanupBatchSize
  let count ← query fun db => db.syncLaneInbox.length
  let excess := count + additional - maxRecords
  -- a page of duplicates evicts no live row
  if additional > 0 ∧ excess > 0 then do
    let evicted ← deleteOldest none excess
    pure (expired ++ evicted)
  else
    pure expired

def makeRoom (additional : Nat) (now : Int) : LocalM δ (List RemovedInput) :=
  makeRoomWithLimit additional now maxInboxRecords

def purgeExpired (now : Int) (limit : Nat) : LocalM δ (List RemovedInput) := do
  refuseIf (limit == 0 || limit > 4096)
    (invalidInput "limit" "inbox cleanup limit must be between 1 and 4096")
  immediate do
    let removed ← deleteOldest (some (retentionCutoff now)) limit
    pure (.commit removed)

/-! ## Receiving an ordinary page -/

def requireBinding (binding : IdentityAccountBinding) : LocalM δ Unit := do
  let current ← query fun db => db.identityAccountBinding binding.ownerIdentityId
  refuseIf (match current with
      | some current => current.accountId != binding.accountId ||
          current.protocolDeviceId != binding.protocolDeviceId ||
          current.currentDid != binding.currentDid ||
          current.deviceAuthGeneration != binding.deviceAuthGeneration
      | none => true)
    (syncError "SYNC_ACCOUNT_BINDING_MISMATCH"
      "processing or receive binding is no longer current")

def Db.clientInstanceId (db : Db δ) (owner : String) : Option String :=
  (db.syncInstallationState.find? fun state => state.ownerIdentityId == owner).map
    (·.clientInstanceId)

def envelopeMismatch (input : OrdinaryReceiveBatch) (event : InboxEvent)
    (envelope : SyncEvent) : Bool :=
  envelope.eventId != event.eventId || envelope.eventSeq != event.position ||
    envelope.eventType != event.eventType || envelope.streamEpoch != input.streamEpoch ||
    envelope.accountId != input.binding.accountId ||
    (match envelope.recipientDeviceId with
      | some device => device != input.binding.protocolDeviceId
      | none => false) ||
    ((event.eventType == "message.created" || event.eventType == "system.notification") &&
      match event.payload.get "hydrated" with
      | some hydrated => !hydrated.isObject
      | none => true)

/--
The loop of `receive_ordinary` over the events of a page: the events to queue, and
the number of duplicates.  `ids` and `positions` are those of the events before.
-/
def examineEvents (platform : Platform) (input : OrdinaryReceiveBatch)
    (ids positions : List String) :
    List InboxEvent → LocalM δ (List InboxEvent × Nat)
  | [] => pure ([], 0)
  | event :: rest => do
      refuseIf (Text.isBlank event.eventId || Text.trim event.eventId != event.eventId ||
          Text.isBlank event.eventType || !event.payload.isObject || ids.contains event.eventId ||
          positions.contains event.position)
        (syncError "SYNC_INVALID_PAGE" "receive events have invalid or duplicate identities")
      attempt (validatePositiveDecimal "event_seq" event.position)
      let order ← attempt (compareDecimal event.position input.nextScanSeq)
      refuseIf (order == .gt)
        (syncError "SYNC_INVALID_PAGE" "received event is ahead of the page cursor")
      let value ← orError (event.payload.get "event")
        (syncError "SYNC_INPUT_INCOMPLETE" "ordinary receive envelope is missing")
      let envelope ← orError (SyncEvent.decode value)
        (syncError "SYNC_INPUT_INCOMPLETE" "ordinary receive envelope is incomplete")
      refuseIf (envelopeMismatch input event envelope)
        (syncError "SYNC_INPUT_INCOMPLETE"
          "ordinary receive data does not match its exact envelope")
      let duplicate ← inputIsDuplicate platform input.binding.ownerIdentityId .ordinary
        input.streamEpoch event
      let tail ← examineEvents platform input (event.eventId :: ids)
        (event.position :: positions) rest
      pure (if duplicate then (tail.1, tail.2 + 1) else (event :: tail.1, tail.2))

def receiveOrdinary (platform : Platform) (input : OrdinaryReceiveBatch) (now : Int) :
    LocalM δ ReceiveOutcome :=
  immediate do
    let owner := input.binding.ownerIdentityId
    requireBinding input.binding
    requireMessageSyncRunGeneration owner input.expectedRunGeneration
    let installed ← query fun db => db.clientInstanceId owner
    refuseIf (installed != some input.clientInstanceId)
      (syncError "SYNC_INSTALLATION_CHANGED" "receive installation is no longer current")
    let access ← loadMessageSyncState owner
    match access with
    | .bootstrapRequired _ =>
      throw (syncError "SYNC_BOOTSTRAP_REQUIRED" "receive requires a bootstrapped cursor")
    | .ready current => do
        refuseIf (current.streamEpoch != input.streamEpoch ||
            current.scanSeq != input.expectedScanSeq)
          (syncError "SYNC_RECEIVE_SUPERSEDED" "receive cursor changed before commit")
        let order ← attempt (compareDecimal input.nextScanSeq current.scanSeq)
        refuseIf (order == .lt)
          (syncError "SYNC_CURSOR_REGRESSION" "receive cursor cannot move backwards")
        let examined ← examineEvents platform input [] [] input.events
        let removed ← makeRoom examined.1.length now
        forEach examined.1 fun event => insertInput platform input.binding
          input.clientInstanceId .ordinary input.streamEpoch event now
        let advanced ← advanceMessageSyncState
          { current with
            scanSeq := input.nextScanSeq
            lastServerTime := some input.serverTime
            lastSuccessAt := some now
            lastErrorCode := none
            updatedAt := now }
        match advanced with
        | .bootstrapRequired _ =>
          throw (syncError "SYNC_RECEIVE_SUPERSEDED" "receive binding changed before commit")
        | .ready _ =>
          pure (.commit
            { received := examined.1.length, duplicates := examined.2, removed := removed })

end LocalState
end Awiki

import Awiki.ReadMarks
import Awiki.TransitionRuns

/-!
# The outbox of local reads

A local mark that the server has to learn is a row of `local_mutation_outbox`: pending,
claimed for a request, retryable after a failed one, and at last committed or failed for
good.  A mark joins the row of its remote thread that no request has carried yet.  The
invariant is that a remote thread has at most one row in flight and at most one row to
join, and that a row leaves the live ones only by an acknowledgement of its watermark or by
its own failure.
-/

namespace Awiki
namespace LocalState

open Rows Paging

variable {κ : Type}

/-! ## Rows of the outbox -/

namespace LocalMutation

def isLive (row : LocalMutation) : Bool :=
  row.status != .committed && row.status != .permanentFailure

def isQueued (row : LocalMutation) : Bool :=
  row.status == .pending || row.status == .retryable

def isCoalescible (row : LocalMutation) : Bool :=
  row.status == .pending && row.attemptCount == 0

def isRow (row : LocalMutation) (owner mutationId : String) : Bool :=
  row.ownerIdentityId == owner && row.mutationId == mutationId

def isOf (row : LocalMutation) (owner aggregateId : String) : Bool :=
  row.ownerIdentityId == owner && row.aggregateId == aggregateId

def watermark (row : LocalMutation) : Option String :=
  (row.payload.value?.bind (·.get "read_watermark_seq")).bind Json.asStr

/-- `json_extract(payload_json, '$.thread_id')`. -/
def threadId (row : LocalMutation) : Option String :=
  row.payload.text "thread_id"

end LocalMutation

def ReadTables.setOutbox (tables : ReadTables κ) (p : LocalMutation → Bool)
    (f : LocalMutation → LocalMutation) (h : ∀ row, (f row).key = row.key) : ReadTables κ :=
  { tables with
    outbox := updateWhere p f tables.outbox
    distinctMutations := tables.distinctMutations.updateWhere h }

def corruptOutbox (detail : String) : ImError :=
  syncError "SYNC_LOCAL_OUTBOX_CORRUPT" detail

/-! ## Queueing -/

/-- The `INSERT` of `enqueue_local_mutation`; the two unique keys of the table refuse a row. -/
def insertMutation (tables : ReadTables κ) (record : LocalMutation) :
    Except ImError (ReadTables κ) :=
  if h : record.key ∈ tables.outbox.map LocalMutation.key then
    .error (.localStateUnavailable "UNIQUE constraint failed")
  else if tables.outbox.any fun row =>
      row.ownerIdentityId == record.ownerIdentityId && row.operationId == record.operationId then
    .error (.localStateUnavailable "UNIQUE constraint failed")
  else
    .ok { tables with
      outbox := tables.outbox ++ [record]
      distinctMutations := tables.distinctMutations.append_singleton fun _ hrow hkey =>
        h (hkey ▸ List.mem_map_of_mem hrow) }

def enqueueLocalMutation (tables : ReadTables κ) (record : LocalMutation) :
    Except ImError (ReadTables κ) := do
  validateRequired "owner_identity_id" record.ownerIdentityId
  validateRequired "mutation_id" record.mutationId
  validateRequired "operation_id" record.operationId
  validateRequired "aggregate_id" record.aggregateId
  refuse (decide (record.attemptCount < 0))
    (invalidInput "attempt_count" "attempt_count must not be negative")
  refuse (record.mutationType != "read_state_mark_read")
    (invalidInput "mutation_type"
      "only read_state_mark_read is supported by the v2 local mutation outbox")
  insertMutation tables record

theorem enqueueLocalMutation_ok {tables tables' : ReadTables κ} {record : LocalMutation}
    (h : enqueueLocalMutation tables record = .ok tables') :
    tables'.outbox = tables.outbox ++ [record] ∧ tables'.readStates = tables.readStates ∧
      tables'.bindings = tables.bindings := by
  unfold enqueueLocalMutation at h
  replace h := Tx.except_then (Tx.except_then (Tx.except_then (Tx.except_then h)))
  replace h := Tx.except_then (Tx.except_then h)
  unfold insertMutation at h
  split at h
  · cases h
  · split at h
    · cases h
    · cases h
      exact ⟨rfl, rfl, rfl⟩

def readPayload (threadKind threadId remoteThreadKey seq : String) (messageId at_ : Option String) :
    JsonText :=
  .parsed (.obj
    [("read_watermark_at", Json.ofOption (at_.map .str)),
      ("read_watermark_message_id", Json.ofOption (messageId.map .str)),
      ("read_watermark_seq", .str seq),
      ("remote_thread_key", .str remoteThreadKey),
      ("thread_id", .str threadId),
      ("thread_kind", .str threadKind)])

structure OutboxDraw where
  mutationId : String
  operationId : String
  now : Int

/-- The row that `upsert_read_outbox` joins. -/
def coalescibleRow (outbox : List LocalMutation) (owner aggregateId : String) :
    Option LocalMutation :=
  (sortDescending (fun row : LocalMutation => toLex (row.createdAt, row.mutationId))
    (outbox.filter fun row => row.isOf owner aggregateId && row.isCoalescible)).head?

/-- `upsert_read_outbox`, with the operation of the mutation. -/
def upsertReadOutbox (tables : ReadTables κ) (draw : OutboxDraw)
    (owner threadKind threadId remoteThreadKey seq : String) (messageId at_ : Option String) :
    Except ImError (String × ReadTables κ) := do
  validateDecimal "read_watermark_seq" seq
  let payload := readPayload threadKind threadId remoteThreadKey seq messageId at_
  match coalescibleRow tables.outbox owner remoteThreadKey with
  | some row =>
    let current ← row.payload.value?.elim
      (.error (corruptOutbox "read outbox payload is invalid")) .ok
    let order ← compareDecimal seq (((current.get "read_watermark_seq").bind Json.asStr).getD "0")
    if order = .gt then
      return (row.operationId, tables.setOutbox (·.isRow owner row.mutationId)
        (fun row => { row with payload := payload, updatedAt := draw.now }) fun _ => rfl)
    else return (row.operationId, tables)
  | none =>
    let queued ← enqueueLocalMutation tables
      { ownerIdentityId := owner
        mutationId := draw.mutationId
        operationId := draw.operationId
        mutationType := "read_state_mark_read"
        aggregateId := remoteThreadKey
        payload := payload
        status := .pending
        attemptCount := 0
        retryAt := none
        inFlightSince := none
        lastErrorCode := none
        createdAt := draw.now
        updatedAt := draw.now }
    return (draw.operationId, queued)

/-! ## Acknowledgements -/

/-- The rows that `acknowledge_read_outbox` reads. -/
def LocalMutation.isAddressed (row : LocalMutation) (owner aggregateId : String)
    (conversationId : Option String) : Bool :=
  row.ownerIdentityId == owner && row.isLive &&
    (row.aggregateId == aggregateId ||
      conversationId.any fun conversation => row.threadId == some conversation)

def LocalMutation.isReachedBy (row : LocalMutation) (seq : String) : Except ImError Bool := do
  let payload ← row.payload.value?.elim
    (.error (corruptOutbox "read outbox payload is invalid")) .ok
  let watermark ← ((payload.get "read_watermark_seq").bind Json.asStr).elim
    (.error (corruptOutbox "read outbox payload has no watermark")) .ok
  let order ← compareDecimal watermark seq
  return order != .gt

def LocalMutation.commit (row : LocalMutation) (now : Int) : LocalMutation :=
  { row with
    status := .committed
    inFlightSince := none
    retryAt := none
    lastErrorCode := none
    updatedAt := now }

/-- The loop of `acknowledge_read_outbox` over the rows that it reads. -/
def reachedIds (seq : String) : List LocalMutation → Except ImError (List String)
  | [] => .ok []
  | row :: rows => do
      let reached ← row.isReachedBy seq
      let ids ← reachedIds seq rows
      return if reached then row.mutationId :: ids else ids

def LocalMutation.IsReadable (row : LocalMutation) : Prop :=
  ∃ seq, row.watermark = some seq ∧ Decimal.isCanonical seq = true

theorem isReachedBy_total {row : LocalMutation} {seq : String} (h : row.IsReadable)
    (hseq : Decimal.isCanonical seq = true) : ∃ reached, row.isReachedBy seq = .ok reached := by
  obtain ⟨watermark, hrow, hwatermark⟩ := h
  obtain ⟨text, htext, hwatermark'⟩ := Option.bind_eq_some_iff.mp hrow
  obtain ⟨payload, hpayload, hget⟩ := Option.bind_eq_some_iff.mp htext
  unfold LocalMutation.isReachedBy
  simp only [hpayload, Option.elim_some, Tx.except_ok_bind, hget, Option.bind_some, hwatermark',
    compareDecimal_canonical hwatermark hseq]
  exact ⟨_, rfl⟩

theorem reachedIds_total {seq : String} {rows : List LocalMutation}
    (hseq : Decimal.isCanonical seq = true) (hrows : ∀ row ∈ rows, row.IsReadable) :
    ∃ ids, reachedIds seq rows = .ok ids := by
  induction rows with
  | nil => exact ⟨[], rfl⟩
  | cons row rows ih =>
    exact Tx.except_bind_total (isReachedBy_total (hrows row List.mem_cons_self) hseq)
      fun _ _ => Tx.except_bind_total (ih fun row hrow => hrows row (List.mem_cons_of_mem _ hrow))
        fun _ _ => ⟨_, rfl⟩

def acknowledgeReadOutbox (tables : ReadTables κ) (owner aggregateId : String)
    (conversationId : Option String) (seq : String) (now : Int) :
    Except ImError (ReadTables κ) := do
  let committed ← reachedIds seq
    (tables.outbox.filter (·.isAddressed owner aggregateId conversationId))
  return tables.setOutbox (fun row => row.ownerIdentityId == owner &&
    committed.contains row.mutationId) (·.commit now) fun _ => rfl

/-! ## Requests -/

/-- A text of the metadata, as `NULLIF(TRIM(json_extract(..)), '')` reads it. -/
def metadataName (row : StoredMessage) (key : String) : Option String :=
  ((row.metadata.text key).map Text.sqlTrim).filter (· != "")

/-- The row that a failed request named a message which the group does not know, as far as
the stored messages say: `failed_group_read_message_id_is_untrusted`. -/
def failedGroupReadMessageIdIsUntrusted (db : ReadDb κ) (owner : String) (payload : Json) :
    Except ImError Bool :=
  let text (key : String) : Option String := ((payload.get key).bind Json.asStr).bind nonEmpty
  match text "read_watermark_message_id", text "thread_id", text "read_watermark_seq" with
  | some messageId, some threadId, some seq => do
      validateDecimal "read_watermark_seq" seq
      let target := (sortDescending
        (fun row : StoredMessage => toLex (row.storedAt, row.msgId))
        (db.messages.filter fun row =>
          row.isListable owner [threadId] && row.wireThreadKind == "group" && !row.isE2ee &&
            row.serverSeq == some (castInteger seq) &&
            ((row.metadata.text "message_role").map Text.sqlTrim).getD "" !=
              "group_system_event")).head?
      return target.any fun row =>
        metadataName row "raw_message_id" != some messageId &&
          ((metadataName row "raw_message_id").isSome || row.msgId == messageId ||
            metadataName row "operation_id" == some messageId)
  | _, _, _ => .ok false

/-- `object.remove(key)`. -/
def removeField (payload : Json) (key : String) : Json :=
  match payload with
  | .obj fields => .obj (fields.filter fun field => field.1 != key)
  | other => other

/-- `normalize_claimed_group_read_mutation`: the change of the claimed row. -/
def normalizeClaimedGroupRead (db : ReadDb κ) (row : LocalMutation) :
    Except ImError LocalMutation :=
  if row.lastErrorCode != some "anp.target_not_found" then .ok row
  else do
    let payload ← row.payload.value?.elim
      (.error (corruptOutbox "read outbox payload is invalid")) .ok
    refuse (!payload.isObject) (corruptOutbox "read outbox payload must be an object")
    let text (key : String) : Option String := (payload.get key).bind Json.asStr
    if text "thread_kind" != some "group" ||
        ((text "read_watermark_message_id").bind nonEmpty).isNone then return row
    else
      let untrusted ← failedGroupReadMessageIdIsUntrusted db row.ownerIdentityId payload
      if untrusted then
        return { row with
          payload := .parsed (removeField payload "read_watermark_message_id")
          attemptCount := 1
          updatedAt := max row.updatedAt (row.inFlightSince.getD row.updatedAt) }
      else return row

def hasNoneInFlight (outbox : List LocalMutation) (row : LocalMutation) : Bool :=
  !outbox.any fun other =>
    other.isOf row.ownerIdentityId row.aggregateId && other.status == .inFlight

def claimRow (db : ReadDb κ) (row : LocalMutation)
    (claimed : LocalMutation → LocalMutation) : Except ImError (LocalMutation × ReadDb κ) := do
  let next ← normalizeClaimedGroupRead db (claimed row)
  return (next, withReads db (db.others.setOutbox (·.isRow row.ownerIdentityId row.mutationId)
    (fun old => { old with
      payload := next.payload
      status := next.status
      attemptCount := next.attemptCount
      retryAt := next.retryAt
      inFlightSince := next.inFlightSince
      updatedAt := next.updatedAt }) fun _ => rfl))

def claimNextReadMutation (db : ReadDb κ) (owner : String) (now : Int) :
    Except ImError (Option LocalMutation × ReadDb κ) :=
  let outbox := db.others.outbox
  let next := ((outbox.filter fun row => row.ownerIdentityId == owner && row.isQueued &&
    row.retryAt.all (fun at_ => decide (at_ ≤ now)) &&
      hasNoneInFlight outbox row).insertionSort fun a b =>
        toLex (a.createdAt, a.mutationId) ≤ toLex (b.createdAt, b.mutationId)).head?
  match next with
  | none => .ok (none, db)
  | some row => do
      let (claimed, db) ← claimRow db row fun row =>
        { row with
          status := .inFlight
          attemptCount := row.attemptCount + 1
          inFlightSince := some now
          updatedAt := now }
      return (some claimed, db)

def claimReadMutationByOperationId (db : ReadDb κ) (owner operationId : String) (now : Int) :
    Except ImError (Option LocalMutation × ReadDb κ) := do
  validateRequired "owner_identity_id" owner
  validateRequired "operation_id" operationId
  let outbox := db.others.outbox
  let found := outbox.find? fun row => row.ownerIdentityId == owner &&
    row.operationId == operationId && row.isQueued &&
      row.retryAt.all (fun at_ => decide (at_ ≤ now)) &&
        !outbox.any fun other => other.isOf row.ownerIdentityId row.aggregateId &&
          other.status == .inFlight && other.mutationId != row.mutationId
  match found with
  | none => return (none, db)
  | some row => do
      let (claimed, db) ← claimRow db row fun row =>
        { row with
          status := .inFlight
          attemptCount := row.attemptCount + 1
          retryAt := none
          inFlightSince := some now
          updatedAt := now }
      return (some claimed, db)

def retryLocalMutation (tables : ReadTables κ) (owner mutationId errorCode : String)
    (retryAt : Int) : ReadTables κ :=
  tables.setOutbox (fun row => row.isRow owner mutationId && row.status == .inFlight)
    (fun row => { row with
      status := .retryable
      inFlightSince := none
      retryAt := some retryAt
      lastErrorCode := some errorCode
      updatedAt := retryAt }) fun _ => rfl

def permanentlyFailLocalMutation (tables : ReadTables κ)
    (owner mutationId errorCode : String) (failedAt : Int) : Except ImError (ReadTables κ) := do
  validateRequired "owner_identity_id" owner
  validateRequired "mutation_id" mutationId
  validateRequired "error_code" errorCode
  let failed := tables.outbox.find? fun row => row.isRow owner mutationId && row.status == .inFlight
  refuse failed.isNone (syncError "SYNC_LOCAL_OUTBOX_CONFLICT"
    "read outbox permanent failure lost its in-flight mutation")
  let tables := tables.setOutbox (fun row => row.isRow owner mutationId && row.status == .inFlight)
    (fun row => { row with
      status := .permanentFailure
      retryAt := none
      inFlightSince := none
      lastErrorCode := some errorCode
      updatedAt := failedAt }) fun _ => rfl
  return tables.setStates (updateWhere
    (fun state => state.ownerIdentityId == owner && state.threadScope == "group" &&
      failed.any fun row =>
        row.threadId == some state.threadId && state.readWatermarkSeq.isSome &&
          row.payload.text "read_watermark_seq" == state.readWatermarkSeq &&
          !tables.outbox.any fun other => other.isOf owner row.aggregateId && other.isLive)
    fun state => { state with pendingRemoteAck := false, remoteAckAt := none })

/-- `recover_interrupted_work`, on the outbox. -/
def recoverInterruptedWork (tables : ReadTables κ) (recoveredAt : Int) : ReadTables κ :=
  tables.setOutbox (·.status == .inFlight)
    (fun row => { row with
      status := .retryable
      inFlightSince := none
      updatedAt := recoveredAt }) fun _ => rfl

/-! ## Local marks -/

def newestCovered (db : ReadDb κ) (owner conversationId kind seq : String)
    (p : StoredMessage → Bool) : Option StoredMessage :=
  (sortDescending (fun row : StoredMessage => row.serverSeq.getD 0)
    (db.messages.filter fun row =>
      row.isListable owner [conversationId] && row.wireThreadKind == kind && !row.isE2ee &&
        (row.serverSeq.any fun number => decide (number ≤ castInteger seq)) && p row)).head?

/-- What a local mark asks the server to mark: `ordinary_read_outbox_target`. -/
structure ReadTarget where
  seq : String
  messageId : Option String
  remoteThreadKey : Option String

def ordinaryReadOutboxTarget (db : ReadDb κ) (owner threadKind conversationId seq : String)
    (messageId : Option String) : Except ImError (Option ReadTarget) := do
  validateDecimal "read_watermark_seq" seq
  if threadKind = "group" then
    return (newestCovered db owner conversationId "group" seq fun row =>
      ((row.metadata.text "message_role").map Text.sqlTrim).getD "" != "group_system_event").map
        fun row =>
          { seq := toString (row.serverSeq.getD 0)
            messageId := metadataName row "raw_message_id"
            remoteThreadKey := none }
  else
    return some (((newestCovered db owner conversationId "direct" seq fun _ => true).map fun row =>
      ({ seq := toString (row.serverSeq.getD 0)
         messageId := some row.msgId
         remoteThreadKey := metadataName row "remote_thread_key" } : ReadTarget)).getD
      { seq := seq, messageId := messageId, remoteThreadKey := none })

def remoteThreadKeyOf (tables : ReadTables κ) (owner : String) (result : MarkThreadReadResult) :
    Option String :=
  ((sortDescending (fun row : SyncThreadBinding => toLex (row.updatedAt, row.remoteThreadKey))
    (tables.bindings.filter fun row => row.ownerIdentityId == owner &&
      row.conversationId == result.conversationId)).head?.map (·.remoteThreadKey)).or
    (if result.threadScope = "group" then some (dropGroupTag result.threadId) else none)

def setPendingAck (tables : ReadTables κ) (owner conversationId : String) (pending : Bool) :
    ReadTables κ :=
  tables.setStates (updateWhere
    (fun row => row.ownerIdentityId == owner && row.conversationId == conversationId)
    fun row => { row with pendingRemoteAck := pending, remoteAckAt := none })

def queueMark (db : ReadDb κ) (draw : OutboxDraw) (owner seq remoteThreadKey : String)
    (result : MarkThreadReadResult) : Except ImError (MarkThreadReadResult × ReadDb κ) := do
  let target ← ordinaryReadOutboxTarget db owner result.threadScope result.conversationId seq
    result.readWatermarkMessageId
  match target with
  | none =>
    if result.threadScope = "group" then
      return ({ result with remoteAckApplicable := false },
        withReads db (setPendingAck db.others owner result.conversationId false))
    else .error (corruptOutbox "ordinary Direct read watermark has no remote target")
  | some target => do
      let key := target.remoteThreadKey.getD remoteThreadKey
      let queued ← upsertReadOutbox db.others draw owner result.threadScope result.threadId key
        target.seq target.messageId result.readWatermarkAt
      return ({ result with
        remoteThreadKey := some key
        outboxOperationId := some queued.1 }, withReads db queued.2)

def acknowledgeMark (db : ReadDb κ) (now : Int) (owner seq remoteThreadKey : String)
    (result : MarkThreadReadResult) : Except ImError (MarkThreadReadResult × ReadDb κ) := do
  let tables ← acknowledgeReadOutbox db.others owner remoteThreadKey
    (some result.conversationId) seq now
  let stillPending := tables.outbox.any
    (·.isAddressed owner remoteThreadKey (some result.conversationId))
  if stillPending then
    return (result, withReads db (setPendingAck tables owner result.conversationId true))
  else return (result, withReads db tables)

def markThreadReadAndUpdateOutbox (context : ReadContext κ) (db : ReadDb κ) (draw : OutboxDraw)
    (owner ownerDid : String) (input : MarkThreadReadInput) :
    Except ImError (MarkThreadReadResult × ReadDb κ) := do
  let (result, db) ← markThreadReadWatermark context db owner ownerDid input
  match result.readWatermarkSeq with
  | none => return (result, db)
  | some seq =>
    let remoteThreadKey := remoteThreadKeyOf db.others owner result
    let result := { result with remoteThreadKey := remoteThreadKey }
    if context.isBound db.others.others owner then
      match remoteThreadKey with
      | none => return (result, db)
      | some key =>
        if input.pendingRemoteAck then queueMark db draw owner seq key result
        else acknowledgeMark db draw.now owner (input.readWatermarkSeq.getD seq) key result
    else return (result, db)

end LocalState
end Awiki

import Awiki.PeerProjection
import Awiki.ReadOutbox

/-!
# Read states of other devices

The server sends the read state of a remote thread.  It is kept in `sync_remote_read_states`
until the thread is bound to a conversation, and projected into `thread_read_state` then.
A binding projects the state that was waiting for it and queues the local mark that could
not be sent before.

The context `RemoteContext` adds what these calls read of other modules: the DID of the
account and the parameters of message upserts.
-/

namespace Awiki
namespace LocalState

open Rows Paging

variable {κ : Type}

deriving instance DecidableEq for ReadStateApply

structure RemoteContext (κ : Type) extends ReadContext κ where
  /-- `current_did` of `identity_account_bindings`. -/
  currentDid : κ → String → Option String
  base : MessageContext κ
  mentionsOwner : String → Json → Bool
  peerScope_trimmed : ∀ others owner id target,
    base.peerScopeConversation others owner id = some target →
      Text.trim target = target ∧ target ≠ ""

def ReadTables.setOthers (tables : ReadTables κ) (others : κ) : ReadTables κ :=
  { tables with others := others }

/-- The functions of message upserts on the tables of read states: they use those of other
modules alone. -/
def readMessageContext (base : MessageContext κ) : MessageContext (ReadTables κ) where
  isDid := base.isDid
  resolveByDid := fun tables => base.resolveByDid tables.others
  peerScopeConversation := fun tables => base.peerScopeConversation tables.others
  derivedConversation := base.derivedConversation
  succeeds := fun tables => base.succeeds tables.others
  legacyConversations := fun tables messages owner conversationId record =>
    (base.legacyConversations tables.others messages owner conversationId record).map fun result =>
      (result.1, tables.setOthers result.2)
  settle := fun tables record touched =>
    (base.settle tables.others record touched).map tables.setOthers
  nowText := base.nowText

def RemoteContext.upserts (context : RemoteContext κ) : UpsertContext (ReadTables κ) where
  toSummaryContext := context.summaries
  base := readMessageContext context.base
  mentionsOwner := context.mentionsOwner
  readWatermark := fun tables owner scope conversationId =>
    ((tables.stateOf owner scope conversationId).bind (·.readWatermarkSeq)).map castInteger
  peerScope_trimmed := fun tables => context.peerScope_trimmed tables.others
  legacy_watermark := by
    intro tables messages owner conversationId record merged h
    obtain ⟨result, -, rfl⟩ := Tx.except_map_ok.mp h
    rfl

/-! ## Waiting states -/

def loadRemoteReadState (tables : ReadTables κ) (owner remoteThreadKey : String) :
    Option ReadStateApply :=
  (tables.remoteStates.find? fun row =>
    row.1 == owner && row.2.remoteThreadKey == remoteThreadKey).map (·.2)

/-- `DELETE FROM sync_remote_read_states`. -/
def dropRemoteReadState (tables : ReadTables κ) (owner remoteThreadKey : String) :
    ReadTables κ :=
  { tables with
    remoteStates := deleteWhere (fun row =>
      row.1 == owner && row.2.remoteThreadKey == remoteThreadKey) tables.remoteStates }

/-- `INSERT INTO sync_remote_read_states`, with the constraints of the table. -/
def storeRemoteReadState (context : RemoteContext κ) (tables : ReadTables κ) (owner : String)
    (state : ReadStateApply) : Except ImError (ReadTables κ) := do
  refuse (!(["direct", "group"].contains state.threadKind))
    (.localStateUnavailable "CHECK constraint failed")
  refuse (!context.isBound tables.others owner)
    (.localStateUnavailable "FOREIGN KEY constraint failed")
  return { tables with
    remoteStates := upsertWhere
      (fun row => row.1 == owner && row.2.remoteThreadKey == state.remoteThreadKey)
      (owner, state) (fun _ => (owner, state)) tables.remoteStates }

/-! ## Projection -/

def localWatermark (current : Option ThreadReadState) : String :=
  (current.bind (·.readWatermarkSeq)).getD "0"

/-- A Direct key can rotate, and its versions start again; another thread takes only states of
a later version. -/
def isStaleProjection (kind : String) (current : Option ThreadReadState)
    (state : ReadStateApply) : Except ImError Bool :=
  if kind = "direct" then .ok false
  else
    match current.bind (·.remoteStateVersion) with
    | none => .ok false
    | some version => do
        let order ← compareDecimal state.stateVersion version
        match order with
        | .lt => return true
        | .eq => do
            let order ← compareDecimal state.readWatermarkSeq (localWatermark current)
            refuse (order == .gt) (syncError "SYNC_READ_STATE_CONFLICT"
              "equal remote read versions carry a higher conflicting watermark")
            return true
        | .gt => return false

def isOvertaken (kind : String) (current : Option ThreadReadState) (state : ReadStateApply) :
    Except ImError Bool :=
  if kind = "direct" then do
    let order ← compareDecimal state.readWatermarkSeq (localWatermark current)
    return order == .lt
  else .ok false

/-- `GroupRef::parse` and `ThreadId::parse` of a bound conversation. -/
def projectedThread (kind conversationId : String) : Except ImError ThreadRef :=
  if kind = "group" then (requiredText "group" conversationId).map .group
  else (requiredText "thread_id" conversationId).map .thread

def projectedMark (thread : ThreadRef) (state : ReadStateApply) (pendingRemoteAck : Bool) :
    MarkThreadReadInput where
  thread := thread
  readWatermarkMessageId := state.readWatermarkMessageId
  readWatermarkSeq := some state.readWatermarkSeq
  readWatermarkAt := some state.occurredAt
  pendingRemoteAck := pendingRemoteAck

def projectedState (owner ownerDid kind conversationId : String)
    (current : Option ThreadReadState) (state : ReadStateApply)
    (advances pendingRemoteAck : Bool) : ThreadReadState where
  ownerIdentityId := owner
  ownerDid := ownerDid
  threadScope := kind
  threadId := conversationId
  conversationId := conversationId
  readWatermarkMessageId :=
    if advances then state.readWatermarkMessageId else current.bind (·.readWatermarkMessageId)
  readWatermarkSeq := some (if advances then state.readWatermarkSeq else localWatermark current)
  readWatermarkAt := some state.occurredAt
  pendingRemoteAck := pendingRemoteAck
  remoteAckAt := if pendingRemoteAck then none else some state.occurredAt
  remoteStateVersion := some state.stateVersion
  updatedAt := state.occurredAt

/-- The part of `project_remote_read_state` that writes the state. -/
def projectWatermark (context : ReadContext κ) (db : ReadDb κ) (owner ownerDid : String)
    (state : ReadStateApply) (kind conversationId : String) (current : Option ThreadReadState)
    (now : Int) : Except ImError (ReadDb κ) := do
  let pending ← compareDecimal (localWatermark current) state.readWatermarkSeq
  let thread ← projectedThread kind conversationId
  let marked ← markThreadReadWatermark context db owner ownerDid
    (projectedMark thread state (pending == .gt))
  let order ← compareDecimal state.readWatermarkSeq (localWatermark current)
  let tables ← replaceThreadReadState marked.2.others
    (projectedState owner ownerDid kind conversationId current state (order == .gt)
      (pending == .gt))
  let tables ← acknowledgeReadOutbox tables owner state.remoteThreadKey (some conversationId)
    state.readWatermarkSeq now
  return withReads marked.2 (dropRemoteReadState tables owner state.remoteThreadKey)

def projectRemoteReadState (context : ReadContext κ) (db : ReadDb κ) (owner ownerDid : String)
    (state : ReadStateApply) (kind conversationId : String) (now : Int) :
    Except ImError (ReadDb κ) := do
  refuse (kind != state.threadKind) (syncError "SYNC_THREAD_BINDING_CONFLICT"
    "read state thread kind conflicts with the local binding")
  let current ← getThreadReadState db.others owner kind conversationId
  let stale ← isStaleProjection kind current state
  if stale then
    return withReads db (dropRemoteReadState db.others owner state.remoteThreadKey)
  else
    let overtaken ← isOvertaken kind current state
    if overtaken then
      let tables ← acknowledgeReadOutbox db.others owner state.remoteThreadKey
        (some conversationId) state.readWatermarkSeq now
      return withReads db (dropRemoteReadState tables owner state.remoteThreadKey)
    else projectWatermark context db owner ownerDid state kind conversationId current now

def remoteBinding (tables : ReadTables κ) (owner : String) (state : ReadStateApply) :
    Option (String × String) :=
  ((tables.bindings.find? fun row =>
    row.ownerIdentityId == owner && row.remoteThreadKey == state.remoteThreadKey).map
      fun row => (row.threadKind, row.conversationId)).or
    (if state.threadKind = "group" then
      some ("group", groupConversationId state.remoteThreadKey)
    else none)

def isNewerState (waiting : Option ReadStateApply) (state : ReadStateApply) :
    Except ImError Bool :=
  match waiting with
  | none => .ok true
  | some current => do
      let order ← compareDecimal state.stateVersion current.stateVersion
      refuse (order == .eq && decide (current ≠ state)) (syncError "SYNC_READ_STATE_CONFLICT"
        "equal read state versions carry conflicting content")
      return order == .gt

def applyRemoteReadState (context : RemoteContext κ) (db : ReadDb κ) (owner ownerDid : String)
    (state : ReadStateApply) (now : Int) : Except ImError (ReadDb κ) := do
  validateRequired "remote_thread_key" state.remoteThreadKey
  validateDecimal "read_watermark_seq" state.readWatermarkSeq
  validatePositiveDecimal "state_version" state.stateVersion
  let newer ← isNewerState (loadRemoteReadState db.others owner state.remoteThreadKey) state
  if newer then
    let tables ← storeRemoteReadState context db.others owner state
    match remoteBinding tables owner state with
    | none => return withReads db tables
    | some binding =>
      projectRemoteReadState context.toReadContext (withReads db tables) owner ownerDid state
        binding.1 binding.2 now
  else return db

/-! ## Bindings -/

/-- The statements of `upsert_sync_thread_binding` on the table of bindings; the owner of a
row is an account. -/
def bindRemoteThread (context : RemoteContext κ) (tables : ReadTables κ)
    (binding : SyncThreadBinding) : Except ImError (ReadTables κ) := do
  let bindings ← bindThread tables.bindings binding
  refuse (!context.isBound tables.others binding.ownerIdentityId)
    (.localStateUnavailable "FOREIGN KEY constraint failed")
  return { tables with bindings := bindings }

def projectWaiting (context : RemoteContext κ) (db : ReadDb κ) (binding : SyncThreadBinding)
    (now : Int) : Except ImError (ReadDb κ) :=
  match loadRemoteReadState db.others binding.ownerIdentityId binding.remoteThreadKey with
  | none => .ok db
  | some state => do
      let ownerDid ← (context.currentDid db.others.others binding.ownerIdentityId).elim
        (.error (.localStateUnavailable "Query returned no rows")) .ok
      projectRemoteReadState context.toReadContext db binding.ownerIdentityId ownerDid state
        binding.threadKind binding.conversationId now

def queueWaiting (db : ReadDb κ) (draw : OutboxDraw) (binding : SyncThreadBinding) :
    Except ImError (ReadDb κ) :=
  let pending := (sortDescending (fun row : ThreadReadState => row.updatedAt)
    (db.others.readStates.filter fun row =>
      row.ownerIdentityId == binding.ownerIdentityId &&
        row.conversationId == binding.conversationId &&
        row.threadScope == binding.threadKind && row.pendingRemoteAck &&
        row.readWatermarkSeq.isSome)).head?
  match pending with
  | none => .ok db
  | some row => do
      let target ← ordinaryReadOutboxTarget db binding.ownerIdentityId row.threadScope
        binding.conversationId (row.readWatermarkSeq.getD "") row.readWatermarkMessageId
      match target with
      | some target => do
          let queued ← upsertReadOutbox db.others draw binding.ownerIdentityId row.threadScope
            row.threadId (target.remoteThreadKey.getD binding.remoteThreadKey) target.seq
            target.messageId row.readWatermarkAt
          return withReads db queued.2
      | none =>
        if row.threadScope = "group" then
          return withReads db
            (setPendingAck db.others binding.ownerIdentityId binding.conversationId false)
        else return db

def upsertSyncThreadBinding (context : RemoteContext κ) (db : ReadDb κ) (draw : OutboxDraw)
    (binding : SyncThreadBinding) : Except ImError (ReadDb κ) := do
  checkThreadBinding binding
  let tables ← bindRemoteThread context db.others binding
  let projected ← projectWaiting context (withReads db tables) binding draw.now
  queueWaiting projected draw binding

end LocalState
end Awiki

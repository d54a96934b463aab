import Awiki.HistoryPages
import Awiki.MarkReadSummaries
import Awiki.SummaryUpserts

/-!
# Marking a thread as read

The read state of a thread is a watermark: a message and its sequence.  A local mark and a
state that another device has sent both raise it; the messages below it are marked as read.
A local mark of an account is also queued for the server, as a mutation of the remote
thread.

Texts of sequences are compared as SQLite casts them in the statements and as decimal
texts elsewhere.
-/

namespace Awiki
namespace LocalState

open Rows Paging

variable {κ : Type} {conversationIds : List String} {conversationId : String}

/-! ## Tables -/

/-- A row of `thread_read_state`. -/
structure ThreadReadState where
  ownerIdentityId : String
  ownerDid : String
  threadScope : String
  threadId : String
  conversationId : String
  readWatermarkMessageId : Option String
  readWatermarkSeq : Option String
  readWatermarkAt : Option String
  pendingRemoteAck : Bool
  remoteAckAt : Option String
  remoteStateVersion : Option String
  updatedAt : String

def ThreadReadState.isOf (row : ThreadReadState) (owner scope threadId : String) : Bool :=
  row.ownerIdentityId == owner && row.threadScope == scope && row.threadId == threadId

inductive MutationStatus where
  | pending
  | inFlight
  | retryable
  | committed
  | permanentFailure
  deriving DecidableEq

/-- A row of `local_mutation_outbox`. -/
structure LocalMutation where
  ownerIdentityId : String
  mutationId : String
  operationId : String
  mutationType : String
  aggregateId : String
  payload : JsonText
  status : MutationStatus
  attemptCount : Int
  retryAt : Option Int
  inFlightSince : Option Int
  lastErrorCode : Option String
  createdAt : Int
  updatedAt : Int

def LocalMutation.key (row : LocalMutation) : String × String :=
  (row.ownerIdentityId, row.mutationId)

/-- The tables of read states; `others` belongs to other modules. -/
structure ReadTables (κ : Type) where
  readStates : List ThreadReadState
  bindings : List SyncThreadBinding
  /-- `sync_remote_read_states`, with the owner of each row. -/
  remoteStates : List (String × ReadStateApply)
  outbox : List LocalMutation
  others : κ
  distinctMutations : UniqueKey LocalMutation.key outbox

theorem distinctMutations_nil : UniqueKey LocalMutation.key [] := .nil _

abbrev ReadDb (κ : Type) := SummaryTables (ReadTables κ)

structure ReadContext (κ : Type) where
  /-- `DateTime::parse_from_rfc3339`, as an instant. -/
  instant : String → Option Int
  /-- `now_utc_like`. -/
  nowText : String
  /-- `conversation_registry::ensure`. -/
  ensure : κ → ConversationRegistryRecord → Except ImError κ
  /-- `conversation_aliases::resolve` for verified foreign personas. -/
  resolveConversation : κ → String → String → Option String
  conversationIdsForThreadRef : κ → List StoredMessage → String → String → ThreadRef →
    Except ImError (List String)
  /-- `load_identity_account_binding` finds a row. -/
  isBound : κ → String → Bool
  /-- The text of `{value:?}`. -/
  debugText : String → String

def ReadContext.summaries (context : ReadContext κ) : SummaryContext (ReadTables κ) where
  instant := context.instant
  nowText := context.nowText
  ensure := fun tables record =>
    (context.ensure tables.others record).map fun others => { tables with others := others }

def ReadTables.setStates (tables : ReadTables κ) (f : List ThreadReadState → List ThreadReadState) :
    ReadTables κ :=
  { tables with readStates := f tables.readStates }

/-! ## Sequences -/

/-- `CAST(text AS INTEGER)`, which stops at the bounds of the column type. -/
def castInteger (text : String) : Int :=
  let digits (cs : List Char) : Int := (Decimal.ofDigits (cs.takeWhile Char.isDigit) : Nat)
  match text.toList.dropWhile Text.isWhiteSpace with
  | '-' :: cs => max (-(2 ^ 63)) (-(digits cs))
  | '+' :: cs => min (2 ^ 63 - 1) (digits cs)
  | cs => min (2 ^ 63 - 1) (digits cs)

def normalizeReadWatermarkSeq (context : ReadContext κ) (value : String) :
    Except ImError String :=
  let text := Text.trim value
  if Decimal.isCanonical text && decide (Decimal.value text < 2 ^ 64) then .ok text
  else
    .error (invalidInput "read_watermark_seq"
      ("read_watermark_seq must be a non-negative decimal string, got " ++ context.debugText value))

/-- `parse_read_watermark_seq(..).unwrap_or(0)`. -/
def parsedWatermark (context : ReadContext κ) (value : String) : Int :=
  match normalizeReadWatermarkSeq context value with
  | .ok text => if Decimal.value text < 2 ^ 63 then (Decimal.value text : Int) else 0
  | .error _ => 0

def watermarkSeqGt (context : ReadContext κ) (left right : Option String) : Bool :=
  match left, right with
  | some left, some right => decide (parsedWatermark context right < parsedWatermark context left)
  | some _, none => true
  | none, _ => false

/-! ## The watermark of a thread -/

def directConversationIdForPeerRef (peer : String) : String :=
  let peer := Text.trim peer
  directConversationId ((Text.afterStart "dm:" peer).getD peer)

def groupConversationIdForRef (group : String) : String :=
  let group := Text.trim group
  if Text.startsWith group "group:" then group else groupConversationId group

/-- `thread_read_state_key`: the scope and the id of a thread. -/
def threadReadStateKey (thread : ThreadRef) : Except ImError (String × String) :=
  match thread with
  | .direct peer => do
      let peer ← requiredText "thread.peer" peer
      return ("direct", directConversationIdForPeerRef peer)
  | .group group => do
      let group ← requiredText "thread.group" group
      return ("group", groupConversationIdForRef group)
  | .thread thread => do
      let thread ← requiredText "thread.thread_id" thread
      if Text.startsWith thread "group:" then return ("group", groupConversationIdForRef thread)
      else if Text.startsWith thread "dm:" then return ("direct", thread)
      else return ("thread", thread)

structure EffectiveReadWatermark where
  messageId : Option String
  seq : Option String
  invalidMessageId : Bool

def EffectiveReadWatermark.none : EffectiveReadWatermark where
  messageId := Option.none
  seq := Option.none
  invalidMessageId := false

def canonicalMessageIdForRequest (db : ReadDb κ) (owner requested : String) : String :=
  (canonicalMessageId db owner requested).getD (Text.trim requested)

def readWatermarkForMessageId (db : ReadDb κ) (owner : String) (conversationIds : List String)
    (messageId : String) : Except ImError (Option EffectiveReadWatermark) := do
  let messageId ← requiredText "read_watermark_message_id" messageId
  let id := canonicalMessageIdForRequest db owner messageId
  return (db.messages.find? fun row => row.isListable owner conversationIds && row.msgId == id).map
    fun row =>
      { messageId := nonEmpty row.msgId
        seq := row.serverSeq.map toString
        invalidMessageId := false }

/-- The order of `read_watermark_message_id_for_seq`. -/
def StoredMessage.sequenceKey (row : StoredMessage) : Int ×ₗ String ×ₗ String :=
  toLex (row.serverSeq.getD 0, row.historyPosition)

def readWatermarkMessageIdForSeq (db : ReadDb κ) (owner : String) (conversationIds : List String)
    (seq : String) : Option String :=
  ((sortDescending StoredMessage.sequenceKey (db.messages.filter fun row =>
    row.isListable owner conversationIds &&
      row.serverSeq.any fun number => decide (number ≤ castInteger seq))).head?.bind
    fun row => nonEmpty row.msgId)

def effectiveReadWatermarkForThread (context : ReadContext κ) (db : ReadDb κ) (owner : String)
    (conversationIds : List String) (messageId seq : Option String) :
    Except ImError EffectiveReadWatermark := do
  let seq ← seq.mapM (normalizeReadWatermarkSeq context)
  if conversationIds.isEmpty then return .none
  else
    match messageId.bind nonEmpty, seq with
    | some messageId, _ => do
        let found ← readWatermarkForMessageId db owner conversationIds messageId
        return found.getD { EffectiveReadWatermark.none with invalidMessageId := true }
    | none, some seq =>
      return {
        messageId := readWatermarkMessageIdForSeq db owner conversationIds seq
        seq := some seq
        invalidMessageId := false }
    | none, none => return .none

def maxEffectiveReadWatermark (context : ReadContext κ) (left right : EffectiveReadWatermark) :
    EffectiveReadWatermark :=
  if watermarkSeqGt context right.seq left.seq then right
  else if watermarkSeqGt context left.seq right.seq then left
  else if right.messageId.isSome then right
  else left

/-! ## Messages below the watermark -/

def StoredMessage.isUnreadIn (row : StoredMessage) (owner : String) (conversationIds : List String) :
    Bool :=
  row.isListable owner conversationIds && row.direction == 0 && !row.isRead

/-- `UPDATE messages SET is_read = 1`, followed by a rebuild if a row was changed. -/
def markRowsRead (context : ReadContext κ) (db : ReadDb κ) (owner : String)
    (conversationIds : List String) (p : StoredMessage → Bool) :
    Except ImError (Int × ReadDb κ) := do
  let marked : ReadDb κ :=
    { db with
      messages := updateWhere p (fun row => { row with isRead := true }) db.messages
      distinctMessages := db.distinctMessages.updateWhere fun _ => rfl }
  let count : Int := db.messages.countP p
  if 0 < count then
    let rebuilt ← rebuildTouched context.summaries marked owner
      (conversationIds.filterMap nonEmpty)
    return (count, rebuilt)
  else return (count, marked)

def withReads (db : ReadDb κ) (tables : ReadTables κ) : ReadDb κ :=
  { db with others := tables }

def markThreadMessagesReadUpToSeq (context : ReadContext κ) (db : ReadDb κ) (owner : String)
    (conversationIds : List String) (seq : String) : Except ImError (Int × ReadDb κ) := do
  let seq ← normalizeReadWatermarkSeq context seq
  if conversationIds.isEmpty then return (0, db)
  else
    markRowsRead context db owner conversationIds fun row =>
      row.isUnreadIn owner conversationIds && !isAuthenticatedP5 row.metadata &&
        row.serverSeq.any fun number => decide (number ≤ castInteger seq)

def markThreadMessagesReadUpToMessage (context : ReadContext κ) (db : ReadDb κ) (owner : String)
    (conversationIds : List String) (messageId : String) : Except ImError (Int × ReadDb κ) := do
  let messageId ← requiredText "read_watermark_message_id" messageId
  if conversationIds.isEmpty then return (0, db)
  else
    let id := canonicalMessageIdForRequest db owner messageId
    let sequenced := db.messages.find? fun row =>
      row.isListable owner conversationIds && row.msgId == id && row.serverSeq.isSome
    match sequenced.bind (·.serverSeq) with
    | some seq => markThreadMessagesReadUpToSeq context db owner conversationIds (toString seq)
    | none =>
      markRowsRead context db owner conversationIds fun row =>
        row.isUnreadIn owner conversationIds && row.msgId == id

/-! ## The stored state -/

def ReadTables.stateOf (tables : ReadTables κ) (owner scope threadId : String) :
    Option ThreadReadState :=
  tables.readStates.find? (·.isOf owner scope threadId)

def getThreadReadState (tables : ReadTables κ) (owner scope threadId : String) :
    Except ImError (Option ThreadReadState) := do
  let owner ← requiredField "owner_identity_id" owner
  let scope ← requiredField "thread_scope" scope
  let threadId ← requiredField "thread_id" threadId
  return tables.stateOf owner scope threadId

def ThreadReadState.columns (record : ThreadReadState) : Except ImError ThreadReadState := do
  let owner ← requiredField "owner_identity_id" record.ownerIdentityId
  let scope ← requiredField "thread_scope" record.threadScope
  let threadId ← requiredField "thread_id" record.threadId
  let updatedAt ← requiredField "updated_at" record.updatedAt
  return {
    ownerIdentityId := owner
    ownerDid := Text.trim record.ownerDid
    threadScope := scope
    threadId := threadId
    conversationId := Text.trim record.conversationId
    readWatermarkMessageId := record.readWatermarkMessageId.bind nonEmpty
    readWatermarkSeq := record.readWatermarkSeq.bind nonEmpty
    readWatermarkAt := record.readWatermarkAt.bind nonEmpty
    pendingRemoteAck := record.pendingRemoteAck
    remoteAckAt := record.remoteAckAt.bind nonEmpty
    remoteStateVersion := record.remoteStateVersion.bind nonEmpty
    updatedAt := updatedAt }

/-- The assignments of `upsert_thread_read_state`. -/
def ThreadReadState.merge (new old : ThreadReadState) : ThreadReadState :=
  let reaches := new.readWatermarkSeq.any fun seq =>
    old.readWatermarkSeq.any fun current => decide (castInteger current ≤ castInteger seq)
  let exceeds := new.readWatermarkSeq.any fun seq =>
    old.readWatermarkSeq.any fun current => decide (castInteger current < castInteger seq)
  let follows := old.readWatermarkSeq.isNone || reaches
  { old with
    ownerDid := new.ownerDid
    conversationId :=
      if Text.sqlTrim new.conversationId = "" then old.conversationId else new.conversationId
    readWatermarkMessageId :=
      if follows then new.readWatermarkMessageId else old.readWatermarkMessageId
    readWatermarkSeq :=
      if old.readWatermarkSeq.isNone || exceeds then new.readWatermarkSeq
      else old.readWatermarkSeq
    readWatermarkAt := if follows then new.readWatermarkAt else old.readWatermarkAt
    pendingRemoteAck := if follows then new.pendingRemoteAck else old.pendingRemoteAck
    remoteAckAt := if follows then new.remoteAckAt else old.remoteAckAt
    remoteStateVersion :=
      match old.remoteStateVersion, new.remoteStateVersion with
      | none, version => version
      | some version, none => some version
      | some current, some version =>
        if current.toList.length < version.toList.length ∨
            current.toList.length = version.toList.length ∧ current ≤ version then some version
        else some current
    updatedAt := if follows then new.updatedAt else old.updatedAt }

def upsertThreadReadState (tables : ReadTables κ) (record : ThreadReadState) :
    Except ImError (ReadTables κ) := do
  let row ← record.columns
  return tables.setStates (upsertWhere (·.isOf row.ownerIdentityId row.threadScope row.threadId)
    row row.merge)

def replaceThreadReadState (tables : ReadTables κ) (record : ThreadReadState) :
    Except ImError (ReadTables κ) := do
  let row ← record.columns
  return tables.setStates (upsertWhere (·.isOf row.ownerIdentityId row.threadScope row.threadId)
    row fun _ => row)

/-! ## The mark -/

/-- `MarkThreadReadWatermarkInput`. -/
structure MarkThreadReadInput where
  thread : ThreadRef
  readWatermarkMessageId : Option String
  readWatermarkSeq : Option String
  readWatermarkAt : Option String
  pendingRemoteAck : Bool

variable {input : MarkThreadReadInput}

/-- `MarkThreadReadWatermarkResult`. -/
structure MarkThreadReadResult where
  threadScope : String
  threadId : String
  conversationId : String
  updatedCount : Int
  previousReadWatermarkSeq : Option String
  readWatermarkSeq : Option String
  readWatermarkMessageId : Option String
  readWatermarkAt : Option String
  advanced : Bool
  outboxOperationId : Option String
  remoteThreadKey : Option String
  remoteAckApplicable : Bool

def markUpToWatermark (context : ReadContext κ) (db : ReadDb κ) (owner : String)
    (conversationIds : List String) (effective : EffectiveReadWatermark) :
    Except ImError (Int × ReadDb κ) :=
  match effective.seq, effective.messageId with
  | some seq, _ => markThreadMessagesReadUpToSeq context db owner conversationIds seq
  | none, some messageId =>
    markThreadMessagesReadUpToMessage context db owner conversationIds messageId
  | none, none => .ok (0, db)

def writeReadState (tables : ReadTables κ) (record : ThreadReadState) (replaces : Bool) :
    Except ImError (ReadTables κ) :=
  if replaces then replaceThreadReadState tables record else upsertThreadReadState tables record

/-- `mark_thread_read_watermark_for_owner_identity`. -/
def markThreadReadWatermark (context : ReadContext κ) (db : ReadDb κ)
    (ownerIdentityId ownerDid : String) (input : MarkThreadReadInput) :
    Except ImError (MarkThreadReadResult × ReadDb κ) := do
  let owner ← requiredText "owner_identity_id" ownerIdentityId
  let ownerDid := Text.trim ownerDid
  let key ← threadReadStateKey input.thread
  let threadId := (context.resolveConversation db.others.others owner key.2).getD key.2
  let conversationIds ← context.conversationIdsForThreadRef db.others.others db.messages owner
    ownerDid input.thread
  let conversationId := conversationIds.head?.getD ""
  let current ← getThreadReadState db.others owner key.1 threadId
  let previous ← effectiveReadWatermarkForThread context db owner conversationIds
    (current.bind fun row => row.readWatermarkMessageId.bind nonEmpty)
    (current.bind fun row => row.readWatermarkSeq.bind nonEmpty)
  let requested ← effectiveReadWatermarkForThread context db owner conversationIds
    (input.readWatermarkMessageId.bind nonEmpty) (input.readWatermarkSeq.bind nonEmpty)
  let effective := maxEffectiveReadWatermark context previous requested
  let readAt := (input.readWatermarkAt.bind nonEmpty).getD context.nowText
  let marked ← markUpToWatermark context db owner conversationIds effective
  let record : ThreadReadState :=
    { ownerIdentityId := owner
      ownerDid := ownerDid
      threadScope := key.1
      threadId := threadId
      conversationId := conversationId
      readWatermarkMessageId := if requested.invalidMessageId then none else requested.messageId
      readWatermarkSeq := if requested.invalidMessageId then none else requested.seq
      readWatermarkAt := some readAt
      pendingRemoteAck := input.pendingRemoteAck
      remoteAckAt := if input.pendingRemoteAck then none else some readAt
      remoteStateVersion := current.bind (·.remoteStateVersion)
      updatedAt := readAt }
  let others ← writeReadState marked.2.others record previous.invalidMessageId
  return ({
    threadScope := key.1
    threadId := threadId
    conversationId := conversationId
    updatedCount := marked.1
    previousReadWatermarkSeq := previous.seq
    readWatermarkSeq := effective.seq
    readWatermarkMessageId := effective.messageId
    readWatermarkAt := some readAt
    advanced := watermarkSeqGt context effective.seq previous.seq
    outboxOperationId := none
    remoteThreadKey := none
    remoteAckApplicable := true }, { marked.2 with others := others })

/-! ## What a mark leaves alone -/

structure ReadTables.Same (first second : ReadTables κ) : Prop where
  readStates : second.readStates = first.readStates
  bindings : second.bindings = first.bindings
  remoteStates : second.remoteStates = first.remoteStates
  outbox : second.outbox = first.outbox

theorem ReadTables.Same.rfl {tables : ReadTables κ} : tables.Same tables :=
  ⟨Eq.refl _, Eq.refl _, Eq.refl _, Eq.refl _⟩

theorem ReadTables.Same.trans {first second third : ReadTables κ} (h : first.Same second)
    (h' : second.Same third) : first.Same third :=
  ⟨h'.readStates.trans h.readStates, h'.bindings.trans h.bindings,
    h'.remoteStates.trans h.remoteStates, h'.outbox.trans h.outbox⟩

variable {result : Int × ReadDb κ}

section Frames

variable {context : ReadContext κ} {db db' : ReadDb κ} {owner : String}

theorem ReadTables.framed : Framed context.summaries ReadTables.Same where
  refl := fun _ => .rfl
  trans := .trans
  ensure := by
    intro others record others' h
    obtain ⟨inner, -, rfl⟩ := Tx.except_map_ok.mp h
    exact ⟨rfl, rfl, rfl, rfl⟩

structure MarkedFrom (p : StoredMessage → Bool) (db db' : ReadDb κ) : Prop where
  messages : db'.messages = updateWhere p (fun row => { row with isRead := true }) db.messages
  aliases : db'.aliases = db.aliases
  reads : db.others.Same db'.others

theorem markRowsRead_ok {p : StoredMessage → Bool}
    (h : markRowsRead context db owner conversationIds p = .ok result) :
    MarkedFrom p db result.2 := by
  unfold markRowsRead at h
  dsimp only at h
  split at h
  · obtain ⟨rebuilt, hrebuilt, h⟩ := Tx.except_bind_ok.mp h
    cases h
    have hkeeps := ReadTables.framed.rebuildTouched hrebuilt
    exact ⟨hkeeps.messages, hkeeps.aliases, hkeeps.others⟩
  · cases h
    exact ⟨rfl, rfl, .rfl⟩

theorem MarkedFrom.none (db : ReadDb κ) : MarkedFrom (fun _ => false) db db :=
  ⟨by simp [updateWhere], rfl, .rfl⟩

theorem markThreadMessagesReadUpToSeq_ok {seq : String}
    (h : markThreadMessagesReadUpToSeq context db owner conversationIds seq = .ok result) :
    ∃ p, MarkedFrom p db result.2 := by
  unfold markThreadMessagesReadUpToSeq at h
  obtain ⟨_, -, h⟩ := Tx.except_bind_ok.mp h
  split at h
  · cases h
    exact ⟨_, .none db⟩
  · exact ⟨_, markRowsRead_ok h⟩

theorem markThreadMessagesReadUpToMessage_ok {messageId : String}
    (h : markThreadMessagesReadUpToMessage context db owner conversationIds messageId =
      .ok result) : ∃ p, MarkedFrom p db result.2 := by
  unfold markThreadMessagesReadUpToMessage at h
  obtain ⟨_, -, h⟩ := Tx.except_bind_ok.mp h
  split at h
  · cases h
    exact ⟨_, .none db⟩
  · dsimp only at h
    split at h
    · exact markThreadMessagesReadUpToSeq_ok h
    · exact ⟨_, markRowsRead_ok h⟩

theorem writeReadState_ok {tables tables' : ReadTables κ} {record : ThreadReadState}
    {replaces : Bool} (h : writeReadState tables record replaces = .ok tables') :
    ∃ row, record.columns = .ok row ∧
      tables' = tables.setStates (upsertWhere
        (·.isOf row.ownerIdentityId row.threadScope row.threadId) row
        fun old => if replaces then row else row.merge old) := by
  unfold writeReadState at h
  cases replaces with
  | true =>
    obtain ⟨row, hrow, h⟩ := Tx.except_bind_ok.mp h
    cases h
    exact ⟨row, hrow, rfl⟩
  | false =>
    obtain ⟨row, hrow, h⟩ := Tx.except_bind_ok.mp h
    cases h
    exact ⟨row, hrow, rfl⟩

structure MarkTrace (context : ReadContext κ) (db : ReadDb κ) (ownerIdentityId ownerDid : String)
    (input : MarkThreadReadInput) (result : MarkThreadReadResult) (db' : ReadDb κ) where
  owner : String
  key : String × String
  conversationIds : List String
  current : Option ThreadReadState
  previous : EffectiveReadWatermark
  requested : EffectiveReadWatermark
  record : ThreadReadState
  marked : ReadDb κ
  owner_ok : requiredText "owner_identity_id" ownerIdentityId = .ok owner
  key_ok : threadReadStateKey input.thread = .ok key
  scope_eq : result.threadScope = key.1
  thread_eq : result.threadId =
    (context.resolveConversation db.others.others owner key.2).getD key.2
  ids_ok : context.conversationIdsForThreadRef db.others.others db.messages owner
    (Text.trim ownerDid) input.thread = .ok conversationIds
  current_ok : getThreadReadState db.others owner result.threadScope result.threadId = .ok current
  previous_ok : effectiveReadWatermarkForThread context db owner conversationIds
    (current.bind fun row => row.readWatermarkMessageId.bind nonEmpty)
    (current.bind fun row => row.readWatermarkSeq.bind nonEmpty) = .ok previous
  requested_ok : effectiveReadWatermarkForThread context db owner conversationIds
    (input.readWatermarkMessageId.bind nonEmpty) (input.readWatermarkSeq.bind nonEmpty) =
    .ok requested
  marked_ok : ∃ p, MarkedFrom p db marked
  record_key : record.ownerIdentityId = owner ∧ record.threadScope = result.threadScope ∧
    record.threadId = result.threadId
  record_seq : record.readWatermarkSeq =
    if requested.invalidMessageId then none else requested.seq
  written : ∃ others, writeReadState marked.others record previous.invalidMessageId = .ok others ∧
    db' = { marked with others := others }

variable {result : MarkThreadReadResult}

theorem markThreadReadWatermark_ok {ownerIdentityId ownerDid : String}
    (h : markThreadReadWatermark context db ownerIdentityId ownerDid input = .ok (result, db')) :
    Nonempty (MarkTrace context db ownerIdentityId ownerDid input result db') := by
  unfold markThreadReadWatermark at h
  simp only [Tx.except_bind_ok] at h
  obtain ⟨owner, howner, key, hkey, conversationIds, hids, current, hcurrent, previous, hprevious,
    requested, hrequested, marked, hmarked, others, hothers, h⟩ := h
  cases h
  refine ⟨{
    owner := owner
    key := key
    conversationIds := conversationIds
    current := current
    previous := previous
    requested := requested
    record := _
    marked := marked.2
    owner_ok := howner
    key_ok := hkey
    scope_eq := rfl
    thread_eq := rfl
    ids_ok := hids
    current_ok := hcurrent
    previous_ok := hprevious
    requested_ok := hrequested
    marked_ok := ?_
    record_key := ⟨rfl, rfl, rfl⟩
    record_seq := rfl
    written := ⟨others, hothers, rfl⟩ }⟩
  unfold markUpToWatermark at hmarked
  split at hmarked
  · exact markThreadMessagesReadUpToSeq_ok hmarked
  · exact markThreadMessagesReadUpToMessage_ok hmarked
  · cases hmarked
    exact ⟨_, .none db⟩

theorem markThreadReadWatermark_frame {ownerIdentityId ownerDid : String}
    (h : markThreadReadWatermark context db ownerIdentityId ownerDid input = .ok (result, db')) :
    db'.others.outbox = db.others.outbox ∧ db'.others.bindings = db.others.bindings := by
  obtain ⟨trace⟩ := markThreadReadWatermark_ok h
  obtain ⟨others, hwritten, hdb⟩ := trace.written
  obtain ⟨p, hmarked⟩ := trace.marked_ok
  obtain ⟨row, -, hothers⟩ := writeReadState_ok hwritten
  rw [hdb, hothers]
  exact ⟨hmarked.reads.outbox, hmarked.reads.bindings⟩

end Frames

end LocalState
end Awiki

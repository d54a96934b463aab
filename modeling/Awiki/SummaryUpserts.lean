import Awiki.ConversationSummaries

/-!
# Summaries after a message is written

`upsert_message_record` once more, with the columns and the writers of the summaries: group
duplicates are folded into the written row, legacy direct conversations may be merged into
the conversation of the record, and then the summaries are rebuilt or changed by a delta.
-/

namespace Awiki
namespace LocalState

open Rows

variable {ρ : Type}

structure UpsertContext (ρ : Type) extends SummaryContext ρ where
  base : MessageContext ρ
  /-- The payload parses as one with mentions, and one of them is of the user. -/
  mentionsOwner : String → Json → Bool
  /-- The sequence of `thread_read_state` for an owner, a scope and a conversation. -/
  readWatermark : ρ → String → String → String → Option Int
  /-- The targets of conversation aliases are stored trimmed and not empty. -/
  peerScope_trimmed : ∀ others owner id target,
    base.peerScopeConversation others owner id = some target →
      Text.trim target = target ∧ target ≠ ""
  /-- The merge of legacy conversations writes no read state. -/
  legacy_watermark : ∀ others messages owner conversationId record merged,
    base.legacyConversations others messages owner conversationId record = .ok merged →
      readWatermark merged.2 = readWatermark others

/-! ## The written row -/

def attachmentManifestContentType : String := "application/anp-attachment-manifest+json"

def mentionsCurrentUserForProjection (context : UpsertContext ρ) (record : MessageRecord)
    (contentType : String) (content : JsonText) : Bool :=
  record.direction == 0 &&
    (!Text.isBlank record.groupId || !Text.isBlank record.groupDid ||
      Text.startsWith (Text.trim record.threadId) "group:") &&
    ["application/json", attachmentManifestContentType].contains (Text.trim contentType) &&
    !Text.isBlank record.ownerDid &&
    content.value?.any (context.mentionsOwner (Text.trim record.ownerDid))

abbrev MessageKeys := UpsertKeys StoredMessage

def MessageKeys.inserted (keys : MessageKeys) (context : UpsertContext ρ)
    (messages : List StoredMessage) (record : MessageRecord) : StoredMessage :=
  let row := keys.insertedRow (·.toMessageRow) context.base messages record
  { row with
    isRead := record.isRead ||
      (row.hydrationState == .hydrated &&
        isControlPayloadForProjection row.contentType row.content record.senderDid)
    senderName := ((nonEmpty record.senderName).or
      (keys.duplicates.filterMap fun row => nonEmpty row.senderName).head?).getD ""
    mentionsCurrentUser :=
      mentionsCurrentUserForProjection context record row.contentType row.content ||
        keys.duplicates.any (·.mentionsCurrentUser) }

/-- `ON CONFLICT(owner_identity_id, msg_id) DO UPDATE`. -/
def updatedStored (confirmTarget : Bool) (new old : StoredMessage) : StoredMessage :=
  let keeps := old.hydrationState == .hydrated && new.hydrationState != .hydrated
  { updatedRow confirmTarget new.toMessageRow old.toMessageRow with
    isRead := if keeps then old.isRead else new.isRead || old.isRead
    senderName := if keeps then orText old.senderName new.senderName else new.senderName
    mentionsCurrentUser := if keeps || new.content.isBlank then old.mentionsCurrentUser
      else new.mentionsCurrentUser }

/-! ## Legacy conversations and read state -/

/-- The statement of `merge_legacy_direct_did_conversation`. -/
def mergeLegacyRows (owner conversationId : String) (legacy : List String)
    (messages : List StoredMessage) : List StoredMessage :=
  updateWhere (·.isLegacy owner legacy) (fun row => { row with conversationId := conversationId })
    messages

/-- `AUTHENTICATED_P5_READ_SQL`. -/
def isAuthenticatedP5 (metadata : JsonText) : Bool :=
  (metadata.text "p5_cache_profile").any (fun text => Text.sqlTrim text == "anp.direct.e2ee.v2") &&
    ["p5_cache_sender_did", "p5_cache_sender_device_id", "p5_cache_recipient_did",
      "p5_cache_recipient_device_id", "p5_cache_binding_digest", "raw_message_id"].all fun key =>
      (metadata.text key).any fun text => !sqlBlank text

/-- The condition of `inherit_committed_read_watermark`. -/
def inheritsRead (context : UpsertContext ρ) (others : ρ) (owner msgId : String)
    (row : StoredMessage) : Bool :=
  row.isMessage owner msgId && row.direction == 0 && !row.isRead &&
    row.hydrationState == .hydrated && row.wireResolved &&
    !isAuthenticatedP5 row.metadata &&
    (row.serverSeq.any fun seq => decide (0 < seq) &&
      (context.readWatermark others owner row.wireThreadKind row.conversationId).any fun watermark =>
        decide (seq ≤ watermark))

def inheritCommittedReadWatermark (context : UpsertContext ρ) (others : ρ) (owner msgId : String)
    (messages : List StoredMessage) : List StoredMessage :=
  updateWhere (inheritsRead context others owner msgId) (fun row => { row with isRead := true })
    messages

/-! ## The delta of a written message -/

section Delta

variable (context : SummaryContext ρ)

/-- `summary_state`: the summary with the row of its last message. -/
def summaryState (tables : SummaryTables ρ) (owner conversationId : String) :
    Option (Summary × Option StoredMessage) :=
  (tables.find owner conversationId).map fun row =>
    (row.summary, tables.messages.find? (·.isMessage owner row.summary.lastMessageId))

def summaryOrderKey (instant : String → Option Int) (state : Summary × Option StoredMessage) :
    OrderKey :=
  orderKey instant state.1.lastMessageAt (state.2.any (·.isE2ee)) (state.2.elim "" (·.groupDid))
    (state.2.bind (·.serverSeq)) state.1.lastMessageId

def upsertSummaryFromLast (tables : SummaryTables ρ) (owner conversationId : String)
    (messageCount unreadCount unreadMentionCount : Int) (firstUnreadMentionMessageId : String)
    (last : StoredMessage) : SummaryTables ρ :=
  tables.put
    { ownerIdentityId := owner
      conversationId := conversationId
      summary := .fromLast conversationId messageCount unreadCount unreadMentionCount
        firstUnreadMentionMessageId last
      updatedAt := context.nowText }

/-- `apply_insert_delta`; a count of rows stays far below the bound of the additions. -/
def applyInsertDelta (tables : SummaryTables ρ) (owner : String)
    (state : Summary × Option StoredMessage) (next : StoredMessage) :
    Except ImError (SummaryTables ρ) :=
  if next.isSelfDirect then rebuildSingle context tables owner next.conversation
  else
    let stored := state.1.firstUnreadMentionMessageId.getD ""
    let first := if stored = "" && next.isUnreadMention then next.msgId else stored
    if summaryOrderKey context.instant state < next.orderKey context.instant then
      .ok (upsertSummaryFromLast context tables owner next.conversation (state.1.messageCount + 1)
        (state.1.unreadCount + next.unreadCountDelta)
        (state.1.unreadMentionCount + next.unreadMentionCountDelta) first next)
    else
      .ok (tables.update owner next.conversation (Summary.addCounts 1 next.unreadCountDelta
        next.unreadMentionCountDelta first) context.nowText)

def applyUpdateDelta (tables : SummaryTables ρ) (owner : String)
    (state : Summary × Option StoredMessage) (previous next : StoredMessage) :
    Except ImError (SummaryTables ρ) :=
  if state.1.lastMessageId = previous.msgId ∨
      summaryOrderKey context.instant state < next.orderKey context.instant then
    rebuildSingle context tables owner next.conversation
  else
    .ok (tables.update owner next.conversation (Summary.addCounts 0
      (next.unreadCountDelta - previous.unreadCountDelta)
      (next.unreadMentionCountDelta - previous.unreadMentionCountDelta)
      (state.1.firstUnreadMentionMessageId.getD "")) context.nowText)

/-- `apply_message_delta_or_rebuild`; both rows are of one owner. -/
def applyMessageDeltaOrRebuild (tables : SummaryTables ρ) (owner : String)
    (previous : Option StoredMessage) (next : StoredMessage) : Except ImError (SummaryTables ρ) :=
  if !next.contributesToSummary || previous.any (fun row => !row.contributesToSummary) then
    rebuildSingle context tables owner next.conversation
  else if previous.any fun row => row.conversation != next.conversation then
    rebuildTouched context tables owner
      ((previous.map (·.conversation)).toList ++ [next.conversation])
  else if previous.any fun row => row.isUnreadMention || next.isUnreadMention then
    rebuildSingle context tables owner next.conversation
  else
    match summaryState tables owner next.conversation with
    | none =>
      if previous.isNone && tables.messages.countP (·.isIn owner next.conversation) == 1 then
        .ok (upsertSummaryFromLast context tables owner next.conversation 1
          next.unreadCountDelta next.unreadMentionCountDelta
          (if next.isUnreadMention then next.msgId else "") next)
      else rebuildSingle context tables owner next.conversation
    | some state =>
      match previous with
      | none =>
        if next.isUnreadMention then rebuildSingle context tables owner next.conversation
        else applyInsertDelta context tables owner state next
      | some previous => applyUpdateDelta context tables owner state previous next

end Delta

/-! ## The upsert -/

def messageKeys (context : UpsertContext ρ) (tables : SummaryTables ρ) (record : MessageRecord) :
    Except ImError MessageKeys :=
  upsertKeys (·.toMessageRow) context.base tables.messages tables.others record

namespace MessageKeys

variable (keys : MessageKeys)

def isFolded (row : StoredMessage) : Bool :=
  keys.folds (·.toMessageRow) row

def isWritten (row : StoredMessage) : Bool :=
  row.isMessage keys.owner keys.msgId

/-- The deletions and the insertion of `upsert_message_record`. -/
def write (context : UpsertContext ρ) (messages : List StoredMessage) (record : MessageRecord) :
    List StoredMessage :=
  let new := keys.inserted context messages record
  upsertWhere keys.isWritten new (updatedStored keys.confirmTarget new)
    (deleteWhere keys.isFolded messages)

end MessageKeys

theorem MessageKeys.write_distinct (keys : MessageKeys) (context : UpsertContext ρ)
    {messages : List StoredMessage} (record : MessageRecord)
    (h : UniqueKey StoredMessage.key messages) :
    UniqueKey StoredMessage.key (keys.write context messages record) := by
  apply (h.deleteWhere _).upsertWhere
  · intro old _
    simp [MessageKeys.isWritten, MessageRow.isMessage, StoredMessage.key, MessageKeys.inserted,
      UpsertKeys.insertedRow, insertedRow]
  · intro old
    rfl

/-- The messages once they are written: the upsert, the merge of legacy conversations and
the inherited read state. -/
def MessageKeys.settle (keys : MessageKeys) (context : UpsertContext ρ) (others : ρ)
    (messages : List StoredMessage) (record : MessageRecord) (legacy : List String) :
    List StoredMessage :=
  inheritCommittedReadWatermark context others keys.owner keys.msgId
    (mergeLegacyRows keys.owner keys.conversationId legacy (keys.write context messages record))

theorem MessageKeys.settle_distinct (keys : MessageKeys) (context : UpsertContext ρ) (others : ρ)
    {messages : List StoredMessage} (record : MessageRecord) (legacy : List String)
    (h : UniqueKey StoredMessage.key messages) :
    UniqueKey StoredMessage.key (keys.settle context others messages record legacy) := by
  have hwrite := keys.write_distinct context record h
  have hmerge : UniqueKey StoredMessage.key (mergeLegacyRows keys.owner keys.conversationId legacy
      (keys.write context messages record)) := by
    apply hwrite.updateWhere
    intro row
    rfl
  apply hmerge.updateWhere
  intro row
  rfl

def MessageKeys.legacy (keys : MessageKeys) (context : UpsertContext ρ) (tables : SummaryTables ρ)
    (record : MessageRecord) : Except ImError (List String × ρ) :=
  mergeLegacy context.base tables.others
    ((keys.write context tables.messages record).map (·.toMessageRow)) keys.owner
    keys.conversationId record

/-- `upsert_message_record`, with the conversations that it touched. -/
def upsertStoredMessage (context : UpsertContext ρ) (tables : SummaryTables ρ)
    (record : MessageRecord) : Except ImError (List String × SummaryTables ρ) := do
  let keys ← messageKeys context tables record
  let legacy ← keys.legacy context tables record
  let written : SummaryTables ρ :=
    { tables with
      messages := keys.settle context legacy.2 tables.messages record legacy.1
      aliases := upsertMessageAliases tables.aliases keys.owner keys.msgId
        (keys.names (·.toMessageRow) record)
      others := legacy.2
      distinctMessages := keys.settle_distinct context legacy.2 record legacy.1
        tables.distinctMessages }
  let previous := tables.messages.find? keys.isWritten
  let next := written.messages.find? keys.isWritten
  let touched := (previous.map (·.conversation)).toList ++
    keys.duplicates.map (stableConversationId context.base ·.toRecord) ++ legacy.1 ++
    (next.map (·.conversation)).toList
  let settled ←
    match next with
    | some next =>
      if legacy.1.isEmpty && keys.duplicates.isEmpty then
        applyMessageDeltaOrRebuild context.toSummaryContext written keys.owner previous next
      else rebuildTouched context.toSummaryContext written keys.owner touched
    | none => rebuildTouched context.toSummaryContext written keys.owner touched
  let committed := (next.map (·.conversation)).getD keys.conversationId
  let settled ← ensureFromSummary context.toSummaryContext settled keys.owner committed
  return (touched ++ [committed], settled)

end LocalState
end Awiki

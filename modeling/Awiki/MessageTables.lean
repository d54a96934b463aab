import Awiki.InboxClaims

/-!
# The message tables

Ordinary events are projected into `messages`; a message whose identity cannot be
resolved waits in the inbound resolution backlog.  A row is found again by owner and
message id, group messages under the id that their group and sequence give, so an
upsert may fold several rows into one.

Columns that no function here reads are left out, and the tables of other modules
(personas, summaries, groups, read states, notifications) are one component `ρ`.
-/

namespace Awiki
namespace Text

/-- `str::trim_start_matches` for a character. -/
def trimStartMatches (c : Char) (s : String) : String :=
  String.ofList (s.toList.dropWhile (· == c))

/-- `str::trim_end_matches` for a character. -/
def trimEndMatches (c : Char) (s : String) : String :=
  String.ofList (s.toList.reverse.dropWhile (· == c)).reverse

/-- `TRIM` of SQLite, which removes spaces only. -/
def sqlTrim (s : String) : String :=
  trimEndMatches ' ' (trimStartMatches ' ' s)

end Text

namespace JsonText

def isBlank : JsonText → Bool
  | .malformed text => Text.isBlank text
  | .parsed _ => false

def fields (text : JsonText) : List (String × Json) :=
  match text.value? with
  | some (.obj fields) => fields
  | _ => []

/-- `json_extract` of a field. -/
def field (text : JsonText) (key : String) : Option Json :=
  (text.value?.bind fun value => value.get key).filter (· != .null)

/-- `json_extract` of a field that holds a text. -/
def text (metadata : JsonText) (key : String) : Option String :=
  (metadata.field key).bind Json.asStr

/-- `COALESCE(NULLIF(metadata, ''), '{}')`. -/
def orObject (text : JsonText) : JsonText :=
  if text.isBlank then .parsed (.obj []) else text

end JsonText

namespace LocalState

variable {ρ : Type}

/-! ## Texts -/

def nonEmpty (text : String) : Option String :=
  if Text.isBlank text then none else some (Text.trim text)

def defaultString (text fallback : String) : String :=
  (nonEmpty text).getD fallback

/-- `COALESCE(NULLIF(a, ''), b)`. -/
def orText (a b : String) : String :=
  if a = "" then b else a

/-- `nullable_text` of a text that is also read as JSON. -/
def nullableContent (content : JsonText) : Option JsonText :=
  if content.isBlank then none
  else
    match content with
    | .malformed text => some (.malformed (Text.trim text))
    | .parsed value => some (.parsed value)

/-- `str::strip_prefix("group:")`, where the text has that start. -/
def dropGroupTag (text : String) : String :=
  if Text.startsWith text "group:" then String.ofList (text.toList.drop 6) else text

def normalizeGroupRef (text : String) : Option String :=
  (nonEmpty text).bind fun value => nonEmpty (dropGroupTag value)

/-- `LIKE 'group:%'`, which does not distinguish case. -/
def likeGroup (text : String) : Bool :=
  (text.toList.take 6).map Char.toLower == "group:".toList

/-! ## Rows -/

/-- A row of `messages`, NULL as the empty text. -/
structure MessageRow where
  msgId : String
  ownerIdentityId : String
  ownerDid : String := ""
  conversationId : String := ""
  threadId : String := ""
  wireThreadKind : String := ""
  wireThreadRef : String := ""
  /-- `wire_identity_resolution_state = 'resolved'`. -/
  wireResolved : Bool := true
  direction : Int := 0
  senderDid : String := ""
  receiverDid : String := ""
  groupId : String := ""
  groupDid : String := ""
  contentType : String := ""
  content : JsonText := .malformed ""
  serverSeq : Option Int := none
  hydrationState : HydrationState := .hydrated
  sentAt : String := ""
  storedAt : String := ""
  isE2ee : Bool := false
  metadata : JsonText := .malformed ""

namespace MessageRow

/-- `COALESCE(NULLIF(conversation_id, ''), thread_id)`. -/
def conversation (row : MessageRow) : String :=
  orText row.conversationId row.threadId

/-- `COALESCE(NULLIF(sent_at, ''), stored_at)`. -/
def sortAt (row : MessageRow) : String :=
  orText row.sentAt row.storedAt

def isGroup (row : MessageRow) : Bool :=
  !sqlBlank row.groupId || !sqlBlank row.groupDid || likeGroup row.conversation

def isMessage (row : MessageRow) (owner msgId : String) : Bool :=
  row.ownerIdentityId == owner && row.msgId == msgId

end MessageRow

/-- A row of `message_identity_aliases`. -/
structure MessageIdentityAlias where
  ownerIdentityId : String
  aliasMsgId : String
  canonicalMsgId : String

/-- The column `resolution_state` of the backlog. -/
inductive ResolutionState where
  | pending
  | blockedConflict
  deriving DecidableEq

/-- The column `error_code` of the backlog. -/
inductive BacklogError where
  | identityBindingConflict
  | conversationAliasConflict
  | messageWireIdentityConflict
  | canonicalGroupIdentityMissing
  | identityUnresolved
  deriving DecidableEq

/--
A row of `inbound_resolution_backlog`; the column `peer_did` is a function of the record,
which no update of the row changes.
-/
structure BacklogRow where
  ownerIdentityId : String
  eventId : String
  eventSeq : String
  eventType : String
  messageId : String
  record : MessageRecord
  resolutionState : ResolutionState
  errorCode : BacklogError
  attemptCount : Nat

def BacklogRow.isEntry (row : BacklogRow) (owner eventId messageId : String) : Bool :=
  row.ownerIdentityId == owner && row.eventId == eventId && row.messageId == messageId

/-- A row of `inbound_resolution_thread_bindings`. -/
structure BacklogBinding where
  ownerIdentityId : String
  eventId : String
  messageId : String
  remoteThreadKey : String
  threadKind : String
  updatedAt : Int

def BacklogBinding.isFor (row : BacklogBinding) (owner eventId messageId : String) : Bool :=
  row.ownerIdentityId == owner && row.eventId == eventId && row.messageId == messageId

/-- The tables that messages are projected into; `others` belongs to other modules. -/
structure MessageTables (ρ : Type) where
  messages : List MessageRow := []
  aliases : List MessageIdentityAlias := []
  backlog : List BacklogRow := []
  backlogBindings : List BacklogBinding := []
  others : ρ

structure WireThreadIdentity where
  kind : String
  reference : String
  /-- The resolution state is `resolved`. -/
  resolved : Bool

/-- `ResolvedPeerPersona`. -/
structure ResolvedPersona where
  peerPersonaId : String
  conversationId : String

/-- The functions of other modules that canonicalise and store a message. -/
structure MessageContext (ρ : Type) where
  /-- `Did::parse` succeeds. -/
  isDid : String → Bool
  /-- `peer_personas::resolve_by_did` for an owner and a DID. -/
  resolveByDid : ρ → String → String → Except ImError (Option ResolvedPersona)
  /-- `cached_peer_scope_conversation_id_for_legacy_direct`. -/
  peerScopeConversation : ρ → String → String → Option String
  /-- The conversation of a record that names neither a conversation nor a group. -/
  derivedConversation : MessageRecord → String
  /-- The query of `can_confirm_target` over routes, registry and identifiers of peers: for an
  owner and a conversation, whether the second DID succeeds the first one; the last argument
  is set where a former successor is enough. -/
  succeeds : ρ → String → String → String → String → Bool → Bool
  /-- The legacy conversations that `merge_legacy_direct_did_conversation` folds into a
  peer-scope conversation, with what it writes to registry and aliases. -/
  legacyConversations : ρ → List MessageRow → String → String → MessageRecord →
    Except ImError (List String × ρ)
  /-- Read state, summaries, registry and manifest cache after an upsert touched
  conversations. -/
  settle : ρ → MessageRecord → List String → Except ImError ρ
  /-- `now_utc_like`. -/
  nowText : String

/-! ## Canonical identities -/

def setMetadataString (metadata : JsonText) (key value : String) : JsonText :=
  if metadata.isBlank then .parsed (.obj [(key, .str value)])
  else
    match metadata.value? with
    | some (.obj fields) => .parsed ((Json.obj fields).set key (.str value))
    | _ => metadata

namespace MessageRecord

def isGroup (record : MessageRecord) : Bool :=
  !Text.isBlank record.groupId || !Text.isBlank record.groupDid ||
    Text.trim record.wireThreadKind == "group"

def isMail (record : MessageRecord) : Bool :=
  Text.trim record.wireThreadKind == "mail" ||
    Text.startsWith (Text.trim record.threadId) "mail:"

def isIncoming (record : MessageRecord) : Bool :=
  Text.trim record.senderDid != Text.trim record.ownerDid

def directPeerDid (record : MessageRecord) : Option String :=
  let peer := Text.trim (if record.isIncoming then record.senderDid else record.receiverDid)
  if !record.isGroup && Text.startsWith peer "did:" then some peer else none

end MessageRecord

def canonicalizeInboundMessage (context : MessageContext ρ) (others : ρ)
    (record : MessageRecord) : Except ImError MessageRecord :=
  if record.isGroup then
    let groupDid := Text.trim record.groupDid
    let conversationId := groupConversationId groupDid
    if context.isDid groupDid then
      .ok { record with conversationId := conversationId, threadId := conversationId }
    else
      .error (.canonicalGroupIdentityMissing
        (if groupDid = "" then record.groupId else groupDid))
  else if record.isMail then .ok record
  else do
    let peer ← (record.directPeerDid).elim
      (.error (.identityUnresolved "inbound Direct message has no peer DID snapshot")) .ok
    let resolved ← context.resolveByDid others record.ownerIdentityId peer
    let persona ← resolved.elim
      (.error (.identityUnresolved
        "inbound Direct peer DID is not bound to a verified Persona")) .ok
    .ok { record with
      metadata := if record.isIncoming then
          setMetadataString record.metadata "sender_peer_persona_id" persona.peerPersonaId
        else record.metadata
      conversationId := persona.conversationId
      threadId := persona.conversationId }

def validatedWireIdentity (kind reference state : String) : Except ImError WireThreadIdentity :=
  let kind := String.ofList ((Text.trim kind).toList.map Char.toLower)
  if kind ∉ ["direct", "group", "thread", "mail"] then
    .error (invalidInput "wire_thread_kind"
      "wire thread kind must be direct, group, thread, or mail")
  else if Text.isBlank reference then
    .error (invalidInput "wire_thread_ref" "wire thread reference must not be empty")
  else if Text.trim state ∉ ["", "resolved", "legacy_unresolved"] then
    .error (invalidInput "wire_identity_resolution_state"
      "wire identity resolution state must be resolved or legacy_unresolved")
  else
    .ok { kind := kind
          reference := Text.trim reference
          resolved := Text.trim state != "legacy_unresolved" }

def impliedWireIdentity (record : MessageRecord) : Except ImError WireThreadIdentity :=
  let thread := Text.trim record.threadId
  let rest (n : Nat) : String := String.ofList (thread.toList.drop n)
  match (nonEmpty record.groupDid).or (nonEmpty record.groupId) with
  | some group => validatedWireIdentity "group" group "resolved"
  | none =>
    match [record.senderDid, record.receiverDid].map Text.trim |>.find? fun did =>
      Text.startsWith did "did:" && did != Text.trim record.ownerDid with
    | some did => validatedWireIdentity "direct" did "resolved"
    | none =>
      if thread = "" then .ok { kind := "", reference := "", resolved := false }
      else if Text.startsWith thread "group:" then
        validatedWireIdentity "group" (rest 6) "legacy_unresolved"
      else if Text.startsWith thread "mail:" then validatedWireIdentity "mail" (rest 5) "resolved"
      else if Text.startsWith thread "dm:" then
        validatedWireIdentity "direct" (rest 3)
          (if Text.startsWith (rest 3) "peer-scope:" then "legacy_unresolved" else "resolved")
      else validatedWireIdentity "thread" thread "resolved"

def wireIdentityForRecord (record : MessageRecord) : Except ImError WireThreadIdentity :=
  if Text.isBlank record.wireThreadKind != Text.isBlank record.wireThreadRef then
    .error (invalidInput "wire_thread_ref"
      "wire thread kind and reference must be provided together")
  else if Text.isBlank record.wireThreadKind then impliedWireIdentity record
  else
    validatedWireIdentity record.wireThreadKind record.wireThreadRef
      record.wireIdentityResolutionState

def textsConflict (existing incoming : String) : Bool :=
  !Text.isBlank existing && !Text.isBlank incoming && Text.trim existing != Text.trim incoming

/-- The stored row and the record disagree in a text of their wire identity. -/
def wireTextsConflict (row : MessageRow) (record : MessageRecord) (wire : WireThreadIdentity) :
    Bool :=
  textsConflict row.wireThreadKind wire.kind || textsConflict row.wireThreadRef wire.reference ||
    textsConflict row.senderDid record.senderDid ||
    textsConflict row.receiverDid record.receiverDid ||
    textsConflict row.groupId record.groupId || textsConflict row.groupDid record.groupDid

/-- The row that `can_confirm_target` looks for: the same outgoing direct message, hydrated and
without a sequence, for another receiver. -/
def isProvisionalDirect (row : MessageRow) (record : MessageRecord) (conversationId : String) :
    Bool :=
  row.ownerDid == record.ownerDid && row.conversationId == conversationId && row.direction == 1 &&
    row.senderDid == record.ownerDid && row.wireThreadKind == "direct" && row.wireResolved &&
    row.wireThreadRef == row.receiverDid && row.receiverDid != "" &&
    row.receiverDid != record.receiverDid && row.serverSeq.isNone && !row.isE2ee &&
    row.hydrationState == .hydrated && row.groupId == "" && row.groupDid == "" &&
    row.contentType == record.contentType && row.content == record.content

def canConfirmTarget (context : MessageContext ρ) (others : ρ) (owner msgId conversationId : String)
    (record : MessageRecord) (wire : WireThreadIdentity) (row : MessageRow) : Bool :=
  let previous := row.metadata.value?
  let next := record.metadata.value?
  let operation := fieldText previous "operation_id"
  let state := fieldText previous "delivery_state"
  let remote := record.serverSeq.any fun seq => decide (0 < seq)
  let accepted (value : Option Json) : Bool :=
    ["accepted", "sent"].any (fun state => fieldText value "delivery_state" == some state) &&
      fieldText value "resolved_target_did" == some record.receiverDid &&
      fieldText value "peer_current_did" == some record.receiverDid
  let legacy := remote && accepted previous
  let fresh :=
    (state == some "pending" || state == some "stored_locally") &&
      (remote || (record.serverSeq.isNone && accepted next)) ||
    state == some "failed" && remote
  wire.kind == "direct" && wire.resolved && record.direction == 1 && !record.isE2ee &&
    record.hydrationState == .hydrated && record.senderDid == record.ownerDid &&
    record.receiverDid == wire.reference && record.groupId == "" && record.groupDid == "" &&
    isProvisionalDirect row record conversationId && next.isSome &&
    operation.any (!Text.isBlank ·) &&
    (operation == fieldText next "operation_id" ||
      remote && fieldText next "operation_id" == some msgId &&
        (fieldText previous "wire_created_at").any (!Text.isBlank ·)) &&
    (legacy || fresh) &&
    context.succeeds others owner conversationId row.receiverDid record.receiverDid legacy

def assertExistingWireIdentityCompatible (context : MessageContext ρ) (messages : List MessageRow)
    (others : ρ) (owner msgId : String) (record : MessageRecord) (wire : WireThreadIdentity)
    (conversationId : String) : Except ImError Bool :=
  match messages.find? (·.isMessage owner msgId) with
  | none => .ok false
  | some row =>
    let sequenceConflict :=
      row.serverSeq.isSome && record.serverSeq.isSome && row.serverSeq != record.serverSeq
    if !wireTextsConflict row record wire && !sequenceConflict then .ok false
    else if !sequenceConflict &&
        canConfirmTarget context others owner msgId conversationId record wire row then .ok true
    else .error (.messageWireIdentityConflict msgId)

def stableConversationId (context : MessageContext ρ) (record : MessageRecord) : String :=
  ((nonEmpty record.conversationId).or
    (((nonEmpty record.groupId).or (nonEmpty record.groupDid)).map groupConversationId)).getD
    (context.derivedConversation record)

def canonicalGroupRef (record : MessageRecord) (conversationId : String) : Option String :=
  ((normalizeGroupRef record.groupDid).or (normalizeGroupRef record.groupId)).or
    (if Text.startsWith (Text.trim conversationId) "group:" then
      normalizeGroupRef conversationId
    else if Text.startsWith (Text.trim record.threadId) "group:" then
      normalizeGroupRef record.threadId
    else none)

def canonicalGroupMessageId (record : MessageRecord) (conversationId : String) : Option String :=
  (record.serverSeq.filter (0 ≤ ·)).bind fun seq =>
    (canonicalGroupRef record conversationId).map fun group => group ++ ":" ++ toString seq

/-! ## Folding group duplicates -/

def groupMessageAliases (record : MessageRecord) (canonicalId : String) : List String :=
  let named := ["raw_message_id", "client_message_id", "operation_id"].filterMap fun key =>
    (record.metadata.text key).bind nonEmpty
  ((nonEmpty record.msgId).toList ++ named).eraseDups.filter (· != canonicalId)

/-- `message_record_from_row`; a row has no title and no credential here. -/
def MessageRow.toRecord (row : MessageRow) : MessageRecord where
  msgId := row.msgId
  ownerIdentityId := row.ownerIdentityId
  ownerDid := row.ownerDid
  conversationId := row.conversationId
  threadId := row.threadId
  direction := row.direction
  senderDid := row.senderDid
  receiverDid := row.receiverDid
  groupId := row.groupId
  groupDid := row.groupDid
  contentType := row.contentType
  content := row.content
  serverSeq := row.serverSeq
  hydrationState := row.hydrationState
  sentAt := row.sentAt
  storedAt := row.storedAt
  isE2ee := row.isE2ee
  metadata := row.metadata

/-- `merged_group_message_aliases`. -/
def mergedGroupMessageAliases (record : MessageRecord) (duplicates : List MessageRow)
    (canonicalId : String) : List String :=
  (groupMessageAliases record canonicalId ++
    duplicates.flatMap fun row => groupMessageAliases row.toRecord canonicalId).eraseDups

/-- `upsert_message_identity_aliases`; the names are trimmed. -/
def upsertMessageAliases (aliases : List MessageIdentityAlias) (owner canonicalId : String)
    (names : List String) : List MessageIdentityAlias :=
  names.foldl
    (fun rows name => Rows.upsertWhere
      (fun row => row.ownerIdentityId == owner && row.aliasMsgId == name)
      { ownerIdentityId := owner, aliasMsgId := name, canonicalMsgId := canonicalId }
      (fun row => { row with canonicalMsgId := canonicalId }) rows) aliases

/-- The row that `message_identity_aliases` has for a name. -/
def resolveAlias (aliases : List MessageIdentityAlias) (owner name : String) : Option String :=
  (aliases.find? fun row => row.ownerIdentityId == owner && row.aliasMsgId == name).map
    (·.canonicalMsgId)

theorem resolveAlias_upsert {aliases : List MessageIdentityAlias} {owner name canonicalId : String}
    (other otherName : String) :
    resolveAlias (Rows.upsertWhere
      (fun row => row.ownerIdentityId == owner && row.aliasMsgId == name)
      { ownerIdentityId := owner, aliasMsgId := name, canonicalMsgId := canonicalId }
      (fun row => { row with canonicalMsgId := canonicalId }) aliases) other otherName =
      if other = owner ∧ otherName = name then some canonicalId
      else resolveAlias aliases other otherName := by
  unfold resolveAlias
  split
  · rename_i hsame
    obtain ⟨rfl, rfl⟩ := hsame
    rw [Rows.find?_upsertWhere_key]
    · cases aliases.find? _ <;> rfl
    · simp
    · intro row hrow
      exact hrow
  · rename_i hother
    have hne : (owner == other && name == otherName) = false := by
      rw [← Bool.not_eq_true]
      intro h
      simp only [Bool.and_eq_true, beq_iff_eq] at h
      exact hother ⟨h.1.symm, h.2.symm⟩
    have hrow : ∀ row : MessageIdentityAlias,
        (row.ownerIdentityId == owner && row.aliasMsgId == name) = true →
        (row.ownerIdentityId == other && row.aliasMsgId == otherName) = false := by
      intro row h
      simp only [Bool.and_eq_true, beq_iff_eq] at h
      rw [h.1, h.2]
      exact hne
    rw [Rows.find?_upsertWhere_of_ne hrow (by exact hne) (by exact hrow)]

theorem resolveAlias_upsertMessageAliases (names : List String)
    (aliases : List MessageIdentityAlias) (owner canonicalId other otherName : String) :
    resolveAlias (upsertMessageAliases aliases owner canonicalId names) other otherName =
      if other = owner ∧ otherName ∈ names then some canonicalId
      else resolveAlias aliases other otherName := by
  unfold upsertMessageAliases
  induction names generalizing aliases with
  | nil => simp
  | cons name names ih =>
    rw [List.foldl_cons, ih, resolveAlias_upsert]
    by_cases howner : other = owner
    · by_cases hname : otherName = name
      · simp [howner, hname]
      · simp [howner, hname]
    · simp [howner]

/-- `existing_group_duplicate_rows`, for one row. -/
def isGroupDuplicate (owner conversationId canonicalId : String) (serverSeq : Option Int)
    (aliases : List String) (row : MessageRow) : Bool :=
  row.ownerIdentityId == owner && row.msgId != canonicalId &&
    (serverSeq.isSome && row.serverSeq == serverSeq || aliases.contains row.msgId) &&
    row.conversation == conversationId && row.isGroup

/-- The keys that `remove_group_duplicate_rows` deletes. -/
def foldedIds (canonicalId : String) (duplicates : List MessageRow) : List String :=
  (duplicates.map fun row => Text.trim row.msgId).filter fun id => id != "" && id != canonicalId

def mergedGroupProjectionValue (incoming : String) (duplicates : List MessageRow)
    (column : MessageRow → String) : String :=
  ((nonEmpty incoming).or (duplicates.filterMap fun row => nonEmpty (column row)).head?).getD ""

def mergedGroupMetadata (incoming : JsonText) (duplicates : List MessageRow) : JsonText :=
  let texts := duplicates.map (·.metadata) ++ [incoming]
  let merged := (texts.flatMap (·.fields)).foldl (fun object field => object.set field.1 field.2)
    (Json.obj [])
  if merged != .obj [] then .parsed merged
  else ((incoming :: duplicates.map (·.metadata)).find? fun text => !text.isBlank).getD
    (.malformed "")

/-- `merged_group_projection_value` for the content. -/
def mergedContent (incoming : JsonText) (duplicates : List MessageRow) : JsonText :=
  ((nullableContent incoming).or
    (duplicates.filterMap fun row => nullableContent row.content).head?).getD (.malformed "")

def inheritNotifyLevel (messages : List MessageRow) (owner msgId : String)
    (record : MessageRecord) (contentType : String) (metadata : JsonText) : JsonText :=
  let previous := messages.find? fun row => row.isMessage owner msgId &&
    row.wireThreadKind == "direct" && !row.isE2ee && row.contentType == "text/plain"
  match metadata.value?, previous.bind fun row => row.metadata.text "notify_level" with
  | some (.obj fields), some level =>
    if record.groupDid = "" && !record.isE2ee && contentType == "text/plain" &&
        ((Json.obj fields).get "notify_level").isNone &&
        ["normal", "urgent", "invalid"].contains level then
      .parsed ((Json.obj fields).set "notify_level" (.str level))
    else metadata
  | _, _ => metadata

def mergedHydration (states : List HydrationState) : HydrationState :=
  if states.contains .hydrated then .hydrated
  else if states.contains .discovered then .discovered
  else .legacyProbe

/-! ## Upserts -/

/-- The row that an upsert inserts. -/
def insertedRow (context : MessageContext ρ) (messages : List MessageRow)
    (owner msgId conversationId : String) (record : MessageRecord) (wire : WireThreadIdentity)
    (duplicates : List MessageRow) : MessageRow :=
  let contentType := defaultString
    (mergedGroupProjectionValue record.contentType duplicates (·.contentType)) "text/plain"
  { msgId := msgId
    ownerIdentityId := owner
    ownerDid := Text.trim record.ownerDid
    conversationId := conversationId
    threadId := conversationId
    wireThreadKind := wire.kind
    wireThreadRef := wire.reference
    wireResolved := wire.resolved
    direction := record.direction
    senderDid := Text.trim record.senderDid
    receiverDid := Text.trim record.receiverDid
    groupId := Text.trim record.groupId
    groupDid := Text.trim record.groupDid
    contentType := contentType
    content := mergedContent record.content duplicates
    serverSeq := record.serverSeq
    hydrationState := mergedHydration (record.hydrationState :: duplicates.map (·.hydrationState))
    sentAt := mergedGroupProjectionValue record.sentAt duplicates (·.sentAt)
    storedAt := defaultString (mergedGroupProjectionValue record.storedAt duplicates (·.storedAt))
      context.nowText
    isE2ee := record.isE2ee || duplicates.any (·.isE2ee)
    metadata := inheritNotifyLevel messages owner msgId record contentType
      (mergedGroupMetadata record.metadata duplicates) }

def updatedMetadata (old new : MessageRow) : JsonText :=
  let outgoing (row : MessageRow) : Bool :=
    row.wireThreadKind == "direct" && !row.isE2ee && row.direction == 1
  let state (row : MessageRow) (key : String) (states : List String) : Bool :=
    (row.metadata.text key).any states.contains
  if outgoing old && state old "delivery_state" ["accepted", "sent"] &&
      state new "delivery_state" ["stored_locally", "pending", "failed"] then old.metadata
  else if old.hydrationState == .hydrated && new.hydrationState != .hydrated then
    if old.metadata == .malformed "" then new.metadata else old.metadata
  else
    match new.metadata.orObject.value?, (old.metadata.text "wire_created_at").filter (· != "") with
    | some value, some createdAt =>
      if outgoing old && outgoing new then
        .parsed ((value.set "wire_created_at" (.str createdAt)).set "operation_id"
          (Json.ofOption (((old.metadata.field "operation_id").filter (· != .str "")).or
            (new.metadata.field "operation_id"))))
      else updatedSecure old new
    | _, _ => updatedSecure old new
where
  /-- A failed decryption does not overwrite a decrypted message. -/
  updatedSecure (old new : MessageRow) : JsonText :=
    if new.content.isBlank && old.isE2ee &&
        old.metadata.text "decryption_state" == some "decrypted" &&
        new.metadata.text "decryption_state" == some "failed" then old.metadata
    else new.metadata

/-- `ON CONFLICT(owner_identity_id, msg_id) DO UPDATE`. -/
def updatedRow (confirmTarget : Bool) (new old : MessageRow) : MessageRow :=
  let keeps := old.hydrationState == .hydrated && new.hydrationState != .hydrated
  { old with
    ownerDid := new.ownerDid
    conversationId := if keeps then old.conversationId else new.conversationId
    wireThreadKind := if sqlBlank old.wireThreadKind then new.wireThreadKind
      else old.wireThreadKind
    wireThreadRef := if confirmTarget || sqlBlank old.wireThreadRef then new.wireThreadRef
      else old.wireThreadRef
    wireResolved := old.wireResolved || new.wireResolved
    direction := if keeps && old.direction != -1 then old.direction else new.direction
    senderDid := orText old.senderDid new.senderDid
    receiverDid := if confirmTarget then new.receiverDid
      else orText old.receiverDid new.receiverDid
    groupId := orText old.groupId new.groupId
    groupDid := orText old.groupDid new.groupDid
    contentType := if keeps || new.content.isBlank then old.contentType else new.contentType
    content := if keeps || new.content.isBlank then old.content else new.content
    serverSeq := old.serverSeq.or new.serverSeq
    hydrationState := mergedHydration [old.hydrationState, new.hydrationState]
    sentAt := if keeps then orText old.sentAt new.sentAt else new.sentAt
    storedAt := if keeps then old.storedAt else new.storedAt
    isE2ee := new.isE2ee || old.isE2ee
    metadata := updatedMetadata old new }

/-- `required`. -/
def requiredText (field value : String) : Except ImError String :=
  (nonEmpty value).elim (.error (invalidInput field (field ++ " must not be empty"))) .ok

theorem requiredText_ok {field value text : String}
    (h : requiredText field value = .ok text) :
    text = Text.trim value ∧ Text.isBlank value = false := by
  unfold requiredText nonEmpty at h
  split at h
  · cases h
  · rename_i hblank
    cases h
    exact ⟨rfl, by simpa using hblank⟩

/-- What an upsert knows of its message before it writes; the rows of the table are of
type `R`. -/
structure UpsertKeys (R : Type) where
  owner : String
  msgId : String
  conversationId : String
  /-- The id is the canonical one of a group message. -/
  grouped : Bool
  wire : WireThreadIdentity
  confirmTarget : Bool
  duplicates : List R

section Keys

variable {R : Type} (row : R → MessageRow)

/-- `upsert_message_record` up to its first write. -/
def upsertKeys (context : MessageContext ρ) (messages : List R) (others : ρ)
    (record : MessageRecord) : Except ImError (UpsertKeys R) := do
  let inputId ← requiredText "msg_id" record.msgId
  let owner ← requiredText "owner_identity_id" record.ownerIdentityId
  let _ownerDid ← requiredText "owner_did" record.ownerDid
  let stable ← requiredText "conversation_id" (stableConversationId context record)
  let conversationId :=
    if Text.isBlank record.groupId && Text.isBlank record.groupDid then
      (context.peerScopeConversation others owner stable).getD stable
    else stable
  let canonicalGroupId := canonicalGroupMessageId record conversationId
  let msgId := canonicalGroupId.getD inputId
  let wire ← wireIdentityForRecord record
  let confirmTarget ← assertExistingWireIdentityCompatible context (messages.map row) others owner
    msgId record wire conversationId
  return {
    owner := owner
    msgId := msgId
    conversationId := conversationId
    grouped := canonicalGroupId.isSome
    wire := wire
    confirmTarget := confirmTarget
    duplicates := (messages.filter fun stored => isGroupDuplicate owner conversationId msgId
      record.serverSeq (groupMessageAliases record msgId) (row stored)).insertionSort
      fun a b => (row a).msgId ≤ (row b).msgId }

namespace UpsertKeys

variable (keys : UpsertKeys R)

def rows : List MessageRow :=
  keys.duplicates.map row

/-- A row that `remove_group_duplicate_rows` deletes. -/
def folds (stored : R) : Bool :=
  (row stored).ownerIdentityId == keys.owner &&
    (foldedIds keys.msgId (keys.rows row)).contains (row stored).msgId

/-- The ids that become aliases of the message. -/
def names (record : MessageRecord) : List String :=
  if keys.grouped then mergedGroupMessageAliases record (keys.rows row) keys.msgId else []

/-- The row that is inserted, as far as the projection of events knows it. -/
def insertedRow (context : MessageContext ρ) (messages : List R) (record : MessageRecord) :
    MessageRow :=
  LocalState.insertedRow context (messages.map row) keys.owner keys.msgId keys.conversationId
    record keys.wire (keys.rows row)

end UpsertKeys

end Keys

/-- The deletions and the insertion of `upsert_message_record`. -/
def UpsertKeys.write (keys : UpsertKeys MessageRow) (context : MessageContext ρ)
    (messages : List MessageRow) (record : MessageRecord) : List MessageRow :=
  let new := keys.insertedRow id context messages record
  Rows.upsertWhere (·.isMessage keys.owner keys.msgId) new (updatedRow keys.confirmTarget new)
    (Rows.deleteWhere (keys.folds id) messages)

/-- `merge_legacy_direct_did_conversation` but for its statement on `messages`. -/
def mergeLegacy (context : MessageContext ρ) (others : ρ) (messages : List MessageRow)
    (owner conversationId : String) (record : MessageRecord) : Except ImError (List String × ρ) :=
  if Text.startsWith conversationId "dm:peer-scope:" && Text.isBlank record.groupId &&
      Text.isBlank record.groupDid then
    context.legacyConversations others messages owner conversationId record
  else .ok ([], others)

/-- A row that `merge_legacy_direct_did_conversation` moves. -/
def MessageRow.isLegacy (row : MessageRow) (owner : String) (legacy : List String) : Bool :=
  row.ownerIdentityId == owner && sqlBlank row.groupId && sqlBlank row.groupDid &&
    legacy.contains row.conversation

/-- `upsert_message_record`, with the conversations that it touched. -/
def upsertMessageRecord (context : MessageContext ρ) (tables : MessageTables ρ)
    (record : MessageRecord) : Except ImError (List String × MessageTables ρ) := do
  let keys ← upsertKeys id context tables.messages tables.others record
  let written := keys.write context tables.messages record
  let legacy ← mergeLegacy context tables.others written keys.owner keys.conversationId record
  let messages := Rows.updateWhere (·.isLegacy keys.owner legacy.1)
    (fun row => { row with conversationId := keys.conversationId }) written
  let find (messages : List MessageRow) : Option String :=
    (messages.find? (·.isMessage keys.owner keys.msgId)).map (·.conversation)
  let touched := (find tables.messages).toList ++
    keys.duplicates.map (stableConversationId context ·.toRecord) ++ legacy.1 ++
    (find messages).toList ++ [(find messages).getD keys.conversationId]
  let others ← context.settle legacy.2 record touched
  .ok (touched,
    { tables with
      messages := messages
      aliases := upsertMessageAliases tables.aliases keys.owner keys.msgId (keys.names id record)
      others := others })

/-! ## The backlog -/

def ResolutionState.ofError : ImError → ResolutionState
  | .identityBindingConflict _ | .conversationAliasConflict _ _ _
  | .messageWireIdentityConflict _ => .blockedConflict
  | _ => .pending

def BacklogError.ofError : ImError → BacklogError
  | .identityBindingConflict _ => .identityBindingConflict
  | .conversationAliasConflict _ _ _ => .conversationAliasConflict
  | .messageWireIdentityConflict _ => .messageWireIdentityConflict
  | .canonicalGroupIdentityMissing _ => .canonicalGroupIdentityMissing
  | _ => .identityUnresolved

/-- The checks of `store_with_thread_binding` on the binding. -/
def checkBacklogBinding (record : MessageRecord) (binding : Option SyncThreadBinding) :
    Except ImError Unit :=
  match binding with
  | none => .ok ()
  | some binding =>
    if binding.ownerIdentityId ≠ record.ownerIdentityId then
      .error (.identityBindingConflict
        "backlogged thread binding belongs to a different local owner")
    else if Text.isBlank binding.remoteThreadKey ∨
        binding.threadKind ∉ ["direct", "group"] then
      .error (invalidInput "thread_binding"
        "backlogged thread binding must have a canonical key and kind")
    else .ok ()

/-- The binding that `store_with_thread_binding` saves. -/
def saveBacklogBinding (owner eventId messageId : String) (binding : Option SyncThreadBinding)
    (bindings : List BacklogBinding) : List BacklogBinding :=
  match binding with
  | none => bindings
  | some binding =>
    let row : BacklogBinding :=
      { ownerIdentityId := owner
        eventId := eventId
        messageId := messageId
        remoteThreadKey := Text.trim binding.remoteThreadKey
        threadKind := Text.trim binding.threadKind
        updatedAt := binding.updatedAt }
    Rows.upsertWhere (·.isFor owner eventId messageId) row (fun _ => row) bindings

def storeWithThreadBinding (tables : MessageTables ρ) (source : BacklogSource)
    (record : MessageRecord) (error : ImError) (binding : Option SyncThreadBinding) :
    Except ImError (MessageTables ρ) := do
  checkBacklogBinding record binding
  let owner := Text.trim record.ownerIdentityId
  let eventId := Text.trim source.eventId
  let messageId := Text.trim record.msgId
  let row : BacklogRow :=
    { ownerIdentityId := owner
      eventId := eventId
      eventSeq := Text.trim source.eventSeq
      eventType := Text.trim source.eventType
      messageId := messageId
      record := record
      resolutionState := .ofError error
      errorCode := .ofError error
      attemptCount := 1 }
  .ok { tables with
    backlog := Rows.upsertWhere (·.isEntry owner eventId messageId) row
      (fun row => { row with
        resolutionState := .ofError error
        errorCode := .ofError error
        attemptCount := row.attemptCount + 1 }) tables.backlog
    backlogBindings := saveBacklogBinding owner eventId messageId binding
      tables.backlogBindings }

end LocalState
end Awiki

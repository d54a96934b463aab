import Awiki.ReceiveInbox

/-!
# Applying events to the domain tables

`apply_delta_events_in_transaction` records a receipt for every event and hands the
new ones to the domain reducers.  The reducers of other modules (personas, groups,
notifications, read states, the message table) are the fields of `DomainReducers`;
the results that need no more than this hold for every behaviour they may have.
-/

namespace Awiki
namespace LocalState

open Tx

variable {δ : Type}

/-! ## Records -/

/-- `MessageHydrationState`. -/
inductive HydrationState where
  | hydrated
  | discovered
  | legacyProbe
  deriving DecidableEq, Inhabited

/-- `MessageRecord` with its `Default`; content and metadata are texts that are also read as
JSON. -/
structure MessageRecord where
  msgId : String := ""
  ownerIdentityId : String := ""
  ownerDid : String := ""
  conversationId : String := ""
  wireThreadKind : String := ""
  wireThreadRef : String := ""
  wireIdentityResolutionState : String := ""
  threadId : String := ""
  direction : Int := 0
  senderDid : String := ""
  receiverDid : String := ""
  groupId : String := ""
  groupDid : String := ""
  contentType : String := ""
  content : JsonText := .malformed ""
  title : String := ""
  serverSeq : Option Int := none
  hydrationState : HydrationState := .hydrated
  sentAt : String := ""
  storedAt : String := ""
  isE2ee : Bool := false
  isRead : Bool := false
  senderName : String := ""
  metadata : JsonText := .malformed ""
  mentionsCurrentUser : Bool := false
  credentialName : String := ""

/-- `GroupRecord`; the columns that only its reducer reads are in `profile`. -/
structure GroupRecord where
  ownerIdentityId : String
  groupId : String
  groupDid : String
  profile : Json

structure SyncThreadBinding where
  ownerIdentityId : String
  remoteThreadKey : String
  threadKind : String
  conversationId : String
  updatedAt : Int

/-- `ReadStateApplyV2`. -/
structure ReadStateApply where
  remoteThreadKey : String
  threadKind : String
  readWatermarkSeq : String
  readWatermarkMessageId : Option String
  stateVersion : String
  occurredAt : String

/-- `SystemNotificationApplyInput`; what only its reducer reads is in `verified`. -/
structure SystemNotificationApply where
  ownerIdentityId : String
  ownerDid : String
  protocolDeviceId : String
  verified : Json

/-- `DeltaApplyEventV2`. -/
structure DeltaApplyEvent where
  eventId : String
  eventSeq : String
  eventType : String
  messages : List MessageRecord
  groups : List GroupRecord
  threadBindings : List SyncThreadBinding
  readStates : List ReadStateApply
  systemNotification : Option SystemNotificationApply

/-- `DeltaApplyInputV2`. -/
structure DeltaApplyInput where
  ownerIdentityId : String
  expectedRunGeneration : Option Int
  ownerDid : String
  accountId : String
  protocolDeviceId : String
  deviceAuthGeneration : String
  streamEpoch : String
  nextScanSeq : String
  serverTime : String
  events : List DeltaApplyEvent

structure SyncDeltaInvalidation where
  ownerIdentityId : String
  ownerDid : String
  reason : String
  checkpointEventSeq : String
  conversationIds : List String
  threadIds : List String
  groupIds : List String
  groupDids : List String

/-- `DeltaApplyOutcomeV2`. -/
structure DeltaApplyOutcome where
  appliedEventIds : List String
  projectedMessageEventIds : List String
  duplicateEvents : Nat
  backloggedMessages : Nat
  committedSystemNotifications : List Json
  invalidation : SyncDeltaInvalidation

structure SnapshotReplacement where
  ownerIdentityId : String
  protocolDeviceId : String
  serverTime : String
  serverCutoff : String
  messageIds : List String
  groupIds : List String
  notificationIds : List String

structure BacklogSource where
  eventId : String
  eventSeq : String
  eventType : String

structure DomainReducers (δ : Type) where
  /-- `message_has_sync_event_id` for an owner, a message and an event. -/
  messageHasSyncEventId : δ → String → String → String → Bool
  /-- `system_notification::store::apply_transaction`, with the committed snapshot. -/
  applyNotification : δ → SystemNotificationApply → Except ImError (Option Json × δ)
  /-- `canonicalize_inbound_message`. -/
  canonicalizeInboundMessage : δ → MessageRecord → Except ImError MessageRecord
  /-- `store_with_thread_binding`. -/
  storeBacklog : δ → BacklogSource → MessageRecord → ImError → Option SyncThreadBinding →
    Except ImError δ
  /-- `group_state_is_stale`. -/
  groupStateIsStale : δ → GroupRecord → Except ImError Bool
  /-- `upsert_sync_thread_binding`. -/
  upsertSyncThreadBinding : δ → SyncThreadBinding → Except ImError δ
  /-- The conversation that a remote thread key is bound to. -/
  boundConversation : δ → String → String → Option String
  /-- `upsert_messages_with_touched`, with the conversations it touched. -/
  upsertMessages : δ → List MessageRecord → Except ImError (List String × δ)
  /-- `upsert_group`. -/
  upsertGroup : δ → GroupRecord → Except ImError δ
  /-- `apply_remote_read_state` for an owner and its DID. -/
  applyRemoteReadState : δ → String → String → ReadStateApply → Except ImError δ
  /-- `replace_snapshot_ordinary_projection`, with the conversations it removed from. -/
  replaceSnapshotProjection : δ → SnapshotReplacement → Except ImError (List String × δ)
  /-- The messages row that an own accepted group send has left for its echo. -/
  acceptedOwnEcho : δ → IdentityAccountBinding → InboxInput → Bool

def domainUpdate {α : Type} (f : δ → Except ImError (α × δ)) : LocalM δ α := fun db =>
  match f db.domain with
  | .ok (a, domain) => .ok a { db with domain := domain }
  | .error e => .error e db

def domainWrite (f : δ → Except ImError δ) : LocalM δ Unit :=
  domainUpdate fun domain => (f domain).map fun domain => ((), domain)

/-! ## Receipts -/

def AppliedEvent.isOf (receipt : AppliedEvent) (owner eventId : String) : Bool :=
  receipt.ownerIdentityId == owner && receipt.eventId == eventId

def recordAppliedEvent (receipt : AppliedEvent) : LocalM δ Bool := do
  attempt (validateAll
    [ validateRequired "owner_identity_id" receipt.ownerIdentityId,
      validateRequired "event_id" receipt.eventId,
      validatePositiveDecimal "stream_epoch" receipt.streamEpoch,
      validatePositiveDecimal "event_seq" receipt.eventSeq ])
  let stored ← query fun db => db.syncAppliedEvents.find?
    (·.isOf receipt.ownerIdentityId receipt.eventId)
  match stored with
  | some row => do
      refuseIf (row.streamEpoch != receipt.streamEpoch || row.eventSeq != receipt.eventSeq)
        (bindingConflict "sync event id was already applied at a different stream position")
      pure false
  | none => do
      execute fun db => { db with
        syncAppliedEvents := db.syncAppliedEvents ++ [{ receipt with payloadHash := none }] }
      pure true

/-! ## Checks on the records of an event -/

/-- `str::parse::<i64>`. -/
def parseI64 (text : String) : Option Int :=
  let digits (cs : List Char) : Option Int :=
    if cs.isEmpty || !cs.all Char.isDigit then none else some (Decimal.ofDigits cs)
  let value :=
    match text.toList with
    | '-' :: cs => (digits cs).map fun n => -n
    | '+' :: cs => digits cs
    | cs => digits cs
  value.filter fun n => -2 ^ 63 ≤ n && n < 2 ^ 63

def validateMessageOwner (message : MessageRecord) (owner : String) : Except ImError Unit :=
  if message.ownerIdentityId = owner then .ok ()
  else .error (bindingConflict "message sync fact belongs to a different local owner")

def validateGroupOwner (group : GroupRecord) (owner : String) : Except ImError Unit :=
  if group.ownerIdentityId = owner then .ok ()
  else .error (bindingConflict "group sync fact belongs to a different local owner")

def JsonText.object? (text : JsonText) : Option Json :=
  text.value?.filter Json.isObject

def fieldText (object : Option Json) (key : String) : Option String :=
  (object.bind fun value => value.get key).bind Json.asStr

/-- `validate_group_system_message_projection`. -/
def groupSystemMessageValid (event : DeltaApplyEvent) (message : MessageRecord) : Bool :=
  let payload := JsonText.object? message.content
  let metadata := JsonText.object? message.metadata
  let groupDid := Text.trim ((fieldText payload "group_did").getD "")
  message.contentType == "application/json" && message.isRead &&
    fieldText payload "schema" == some "awiki.group.system_event.v1" &&
    groupDid != "" &&
    (Text.trim message.groupDid == groupDid || Text.trim message.groupId == groupDid) &&
    (match (fieldText payload "group_event_seq").bind parseI64 with
      | some sequence => message.serverSeq == some sequence &&
          message.msgId == groupDid ++ ":" ++ toString sequence
      | none => false) &&
    fieldText payload "sync_event_type" == some event.eventType &&
    fieldText metadata "message_role" == some "group_system_event"

def messageEventThreadBinding (event : DeltaApplyEvent) (owner : String) :
    Except ImError (Option SyncThreadBinding) :=
  if event.threadBindings.any fun binding => binding.ownerIdentityId != owner then
    .error (bindingConflict "sync thread binding belongs to a different local owner")
  else if event.messages.isEmpty then
    .ok none
  else if event.eventType = "message.created" then
    match event.messages, event.threadBindings with
    | [message], [binding] =>
      if binding.threadKind ≠ message.wireThreadKind then
        .error (syncError "SYNC_INVALID_PAGE"
          "hydrated message thread binding kind conflicts with its wire identity")
      else
        .ok (some binding)
    | _, _ => .error (syncError "SYNC_INVALID_PAGE"
        "hydrated message.created requires exactly one message and one thread binding")
  else if event.eventType = "group.member_changed" ∨ event.eventType = "group.profile_updated" then
    match event.messages, event.threadBindings with
    | [message], [] =>
      if groupSystemMessageValid event message then
        .ok none
      else
        .error (syncError "SYNC_INVALID_PAGE"
          "Group state event contains an invalid local system message projection")
    | _, _ => .error (syncError "SYNC_INVALID_PAGE"
        "Group state event requires exactly one local system message and no thread binding")
  else
    .error (syncError "SYNC_INVALID_PAGE"
      "sync event type is not allowed to carry a message projection")

/-- `canonicalize_message_event_thread_bindings`. -/
def canonicalizeThreadBindings (event : DeltaApplyEvent) (owner : String)
    (conversationIds : List String) : Except ImError (List SyncThreadBinding) :=
  if event.threadBindings.any fun binding => binding.ownerIdentityId != owner then
    .error (bindingConflict "sync thread binding belongs to a different local owner")
  else if event.eventType ≠ "message.created" ∨ event.threadBindings.isEmpty then
    .ok event.threadBindings
  else
    match conversationIds.dedup with
    | [] => .ok event.threadBindings
    | [conversationId] =>
      .ok (event.threadBindings.map fun binding => { binding with conversationId })
    | _ => .error (syncError "SYNC_INVALID_PAGE"
        "hydrated message.created thread binding requires one canonical conversation")

def isResolutionError : ImError → Bool
  | .identityUnresolved _ | .identityBindingConflict _ | .conversationAliasConflict _ _ _
  | .canonicalGroupIdentityMissing _ => true
  | _ => false

/-! ## The reduction of the events -/

/-- The local variables of `apply_delta_events_in_transaction`. -/
structure DeltaProgress where
  appliedEventIds : List String := []
  projectedMessageEventIds : List String := []
  duplicateEvents : Nat := 0
  backloggedMessages : Nat := 0
  committedSystemNotifications : List Json := []
  messages : List MessageRecord := []
  groups : List GroupRecord := []
  threadBindings : List SyncThreadBinding := []
  readStates : List ReadStateApply := []

def alreadyProjected (reducers : DomainReducers δ) (owner : String) (event : DeltaApplyEvent) :
    LocalM δ Bool :=
  match event.messages, event.threadBindings with
  | [message], [_] =>
    if event.eventType = "message.created" then do
      attempt (validateMessageOwner message owner)
      let _binding ← attempt (messageEventThreadBinding event owner)
      query fun db =>
        reducers.messageHasSyncEventId db.domain owner message.msgId event.eventId
    else
      pure false
  | _, _ => pure false

def applyEventNotification (reducers : DomainReducers δ) (input : DeltaApplyInput)
    (event : DeltaApplyEvent) : LocalM δ (List Json) :=
  match event.systemNotification with
  | none => pure []
  | some notification => do
      refuseIf (notification.ownerIdentityId != input.ownerIdentityId ||
          notification.ownerDid != input.ownerDid ||
          notification.protocolDeviceId != input.protocolDeviceId)
        (bindingConflict
          "system notification projection does not match the active account device")
      let snapshot ← domainUpdate fun domain => reducers.applyNotification domain notification
      pure snapshot.toList

def projectMessages (reducers : DomainReducers δ) (owner : String) (event : DeltaApplyEvent)
    (binding : Option SyncThreadBinding) :
    List MessageRecord → LocalM δ (List MessageRecord × Nat)
  | [] => pure ([], 0)
  | message :: rest => do
      attempt (validateMessageOwner message owner)
      let canonical ← query fun db => reducers.canonicalizeInboundMessage db.domain message
      match canonical with
      | .ok record => do
          let tail ← projectMessages reducers owner event binding rest
          pure (record :: tail.1, tail.2)
      | .error error =>
        if isResolutionError error then do
          domainWrite fun domain => reducers.storeBacklog domain
            { eventId := event.eventId, eventSeq := event.eventSeq, eventType := event.eventType }
            message error binding
          let tail ← projectMessages reducers owner event binding rest
          pure (tail.1, tail.2 + 1)
        else
          throw error

def freshGroups (reducers : DomainReducers δ) (owner : String) :
    List GroupRecord → LocalM δ (List GroupRecord)
  | [] => pure []
  | group :: rest => do
      attempt (validateGroupOwner group owner)
      let verdict ← query fun db => reducers.groupStateIsStale db.domain group
      let stale ← attempt verdict
      let tail ← freshGroups reducers owner rest
      pure (if stale then tail else group :: tail)

def projectDeltaEvent (reducers : DomainReducers δ) (input : DeltaApplyInput)
    (progress : DeltaProgress) (event : DeltaApplyEvent) : LocalM δ DeltaProgress := do
  let owner := input.ownerIdentityId
  let known ← alreadyProjected reducers owner event
  if known then
    pure { progress with
      appliedEventIds := progress.appliedEventIds ++ [event.eventId]
      duplicateEvents := progress.duplicateEvents + 1 }
  else do
    let notifications ← applyEventNotification reducers input event
    let binding ← attempt (messageEventThreadBinding event owner)
    let projected ← projectMessages reducers owner event binding event.messages
    let bindings ← attempt
      (canonicalizeThreadBindings event owner (projected.1.map (·.conversationId)))
    let groups ← freshGroups reducers owner event.groups
    pure
      { appliedEventIds := progress.appliedEventIds ++ [event.eventId]
        projectedMessageEventIds := progress.projectedMessageEventIds ++
          if projected.1.isEmpty then [] else [event.eventId]
        duplicateEvents := progress.duplicateEvents
        backloggedMessages := progress.backloggedMessages + projected.2
        committedSystemNotifications :=
          progress.committedSystemNotifications ++ notifications
        messages := progress.messages ++ projected.1
        groups := progress.groups ++ groups
        -- a message that only reached the backlog brings no thread binding
        threadBindings := progress.threadBindings ++
          if projected.1.isEmpty && !event.messages.isEmpty then [] else bindings
        readStates := progress.readStates ++ event.readStates }

def reduceDeltaEvent (reducers : DomainReducers δ) (input : DeltaApplyInput) (unixTime : Int)
    (progress : DeltaProgress) (event : DeltaApplyEvent) : LocalM δ DeltaProgress := do
  let inserted ← recordAppliedEvent
    { ownerIdentityId := input.ownerIdentityId
      eventId := event.eventId
      streamEpoch := input.streamEpoch
      eventSeq := event.eventSeq
      appliedAt := unixTime }
  if !inserted then
    pure { progress with duplicateEvents := progress.duplicateEvents + 1 }
  else
    projectDeltaEvent reducers input progress event

def reduceDeltaEvents (reducers : DomainReducers δ) (input : DeltaApplyInput) (unixTime : Int)
    (progress : DeltaProgress) : List DeltaApplyEvent → LocalM δ DeltaProgress
  | [] => pure progress
  | event :: rest => do
      let progress ← reduceDeltaEvent reducers input unixTime progress event
      reduceDeltaEvents reducers input unixTime progress rest

def inStreamOrder (a b : DeltaApplyEvent) : Prop :=
  Decimal.order a.eventSeq b.eventSeq = .lt ∨
    (Decimal.order a.eventSeq b.eventSeq = .eq ∧ a.eventId ≤ b.eventId)

instance : DecidableRel inStreamOrder := fun a b =>
  inferInstanceAs (Decidable (Decimal.order a.eventSeq b.eventSeq = .lt ∨
    (Decimal.order a.eventSeq b.eventSeq = .eq ∧ a.eventId ≤ b.eventId)))

/-- A `BTreeSet` of texts as the list it iterates over. -/
def sortedSet (texts : List String) : List String :=
  (texts.insertionSort (· ≤ ·)).dedup

def groupConversationId (groupDid : String) : String :=
  if Text.isBlank groupDid then "group:unknown" else "group:" ++ Text.trim groupDid

/-- `v2_invalidation`. -/
def deltaInvalidation (reducers : DomainReducers δ) (owner ownerDid scanSeq : String)
    (messages : List MessageRecord) (groups : List GroupRecord)
    (readStates : List ReadStateApply) (domain : δ) : SyncDeltaInvalidation :=
  let groupConversations := groups.filterMap fun group =>
    if Text.isBlank group.groupDid then none else some (groupConversationId group.groupDid)
  let readConversations := readStates.filterMap fun state =>
    ((reducers.boundConversation domain owner state.remoteThreadKey).or
      (if state.threadKind = "group" then some (groupConversationId state.remoteThreadKey)
        else none)).filter fun id => !Text.isBlank id
  { ownerIdentityId := owner
    ownerDid := ownerDid
    reason := "sync_v2_delta"
    checkpointEventSeq := scanSeq
    conversationIds := sortedSet
      ((messages.map (·.conversationId)).filter (!Text.isBlank ·) ++ groupConversations ++
        readConversations)
    threadIds := sortedSet
      ((messages.map (·.threadId)).filter (!Text.isBlank ·) ++ groupConversations ++
        readConversations)
    groupIds := sortedSet ((groups.map (·.groupId)).filter (!Text.isBlank ·))
    groupDids := sortedSet ((groups.map (·.groupDid)).filter (!Text.isBlank ·)) }

def upsertProjected (reducers : DomainReducers δ) (messages : List MessageRecord) :
    LocalM δ (List String) :=
  if messages.isEmpty then pure []
  else domainUpdate fun domain => reducers.upsertMessages domain messages

def commitDeltaProgress (reducers : DomainReducers δ) (input : DeltaApplyInput)
    (progress : DeltaProgress) : LocalM δ DeltaApplyOutcome := do
  forEach progress.threadBindings fun binding =>
    domainWrite fun domain => reducers.upsertSyncThreadBinding domain binding
  let invalidation ← query fun db => deltaInvalidation reducers input.ownerIdentityId
    input.ownerDid input.nextScanSeq progress.messages progress.groups progress.readStates
    db.domain
  let touched ← upsertProjected reducers progress.messages
  forEach progress.groups fun group =>
    domainWrite fun domain => reducers.upsertGroup domain group
  forEach progress.readStates fun state => domainWrite fun domain =>
    reducers.applyRemoteReadState domain input.ownerIdentityId input.ownerDid state
  let visible := touched.filter (!Text.isBlank ·)
  pure
    { appliedEventIds := progress.appliedEventIds
      projectedMessageEventIds := progress.projectedMessageEventIds
      duplicateEvents := progress.duplicateEvents
      backloggedMessages := progress.backloggedMessages
      committedSystemNotifications := progress.committedSystemNotifications
      invalidation := { invalidation with
        conversationIds := sortedSet (invalidation.conversationIds ++ visible)
        threadIds := sortedSet (invalidation.threadIds ++ visible) } }

/-- `apply_delta_events_in_transaction`. -/
def applyDeltaEvents (reducers : DomainReducers δ) (input : DeltaApplyInput) (unixTime : Int) :
    LocalM δ DeltaApplyOutcome := do
  let progress ← reduceDeltaEvents reducers input unixTime {}
    (input.events.insertionSort inStreamOrder)
  commitDeltaProgress reducers input progress

end LocalState
end Awiki

import Awiki.BaselineReceive
import Awiki.DeltaProjection

/-!
# Claims on inbox rows

The processing half of `sync_inbox.rs`.  A claim gives a row a fresh attempt token
and a lease on that token; renewing, parking, failing and completing the attempt
are all decided by the token that the row has now.  Every function that ends a
claim checks it again, in its own transaction, with `require_claim`.
-/

namespace Awiki
namespace LocalState

open Tx

variable {δ : Type}

/-- `CLAIM_SECONDS`. -/
def claimSeconds : Int := 60

/-- `MAX_ACTIVE_INPUTS`. -/
def maxActiveInputs : Nat := 8

def processingTimeout : String := "sync.processing_timeout"

structure InputClaim where
  inputId : String
  ownerIdentityId : String
  ownerDid : String
  accountId : String
  deviceId : String
  authGeneration : String
  lane : Lane
  laneEpoch : String
  position : String
  eventId : String
  eventType : String
  payload : Json
  groupDid : Option String
  logicalEventSeq : Option String
  receivedAt : String
  sourceCreatedAt : Option String
  sourceExpiresAt : Option String
  token : String
  attemptCount : Int
  deriving DecidableEq

/-- The deadline that a claim or a renewal at `now` sets. -/
def claimDeadline (now : Int) : Int := saturatingAdd now claimSeconds

/-! ## Claiming -/

def InboxRow.isOpen (row : InboxRow) (now : Int) : Bool :=
  row.closedAt.isNone && decide (row.createdAt > retentionCutoff now)

def Db.hasLease (db : Db δ) (token : String) : Bool :=
  db.syncInputLeases.any fun lease => lease.attemptToken == token

def Db.unleased (db : Db δ) (row : InboxRow) : Bool :=
  match row.attempt with
  | some attempt => !db.hasLease attempt.token
  | none => true

def Db.baselineBefore (db : Db δ) (candidate : InboxRow) (now : Int) : Bool :=
  db.syncLaneInbox.any fun row =>
    row.ownerIdentityId == candidate.ownerIdentityId && row.lane == .baseline &&
      row.isOpen now && (candidate.lane == .ordinary || decide (row.rowid < candidate.rowid))

/-- The condition of the `due` query of `claim_inputs`. -/
def Db.isDue (db : Db δ) (binding : IdentityAccountBinding) (now : Int) (row : InboxRow) : Bool :=
  row.ownerIdentityId == binding.ownerIdentityId && row.accountIdSnapshot == binding.accountId &&
    row.deviceIdSnapshot == binding.protocolDeviceId && row.isOpen now &&
    ((match row.nextAttemptAt with
      | some next => decide (next ≤ now)
      | none => false) ||
      (row.processingErrorCode == some processingTimeout && row.attempt.isSome &&
        db.unleased row)) &&
    (match row.attempt with
      | some attempt => decide (attempt.deadline ≤ now) || db.unleased row
      | none => true) &&
    (!row.lane.isLocal || !db.baselineBefore row now)

/-- `attempt_count, COALESCE(last_attempt_at,0), created_at, input_id`. -/
def attemptedBefore (a b : InboxRow) : Bool :=
  let ka := (a.attemptCount, a.lastAttemptAt.getD 0, a.createdAt)
  let kb := (b.attemptCount, b.lastAttemptAt.getD 0, b.createdAt)
  decide (ka.1 < kb.1) || (ka.1 == kb.1 && (decide (ka.2.1 < kb.2.1) || (ka.2.1 == kb.2.1 &&
    (decide (ka.2.2 < kb.2.2) || (ka.2.2 == kb.2.2 && decide (a.inputId < b.inputId))))))

def scopeRank (due : List InboxRow) (row : InboxRow) : Nat :=
  Rows.rowNumber (fun a b => a.lane == b.lane && a.processingScope == b.processingScope)
    attemptedBefore due row

def laneRank (due : List InboxRow) (row : InboxRow) : Nat :=
  Rows.rowNumber (fun a b => a.lane == b.lane)
    (fun a b => decide (scopeRank due a < scopeRank due b) ||
      (scopeRank due a == scopeRank due b && attemptedBefore a b)) due row

/-- `ORDER BY lane_rank, lane`. -/
def servedBefore (due : List InboxRow) (a b : InboxRow) : Prop :=
  laneRank due a < laneRank due b ∨
    (laneRank due a = laneRank due b ∧ a.lane.name ≤ b.lane.name)

instance (due : List InboxRow) : DecidableRel (servedBefore due) := fun a b =>
  inferInstanceAs (Decidable (laneRank due a < laneRank due b ∨
    (laneRank due a = laneRank due b ∧ a.lane.name ≤ b.lane.name)))

/-- The rows that one call of `claim_inputs` takes. -/
def Db.candidates (db : Db δ) (binding : IdentityAccountBinding) (now : Int) (limit : Nat) :
    List InboxRow :=
  let due := db.syncLaneInbox.filter (db.isDue binding now)
  (due.insertionSort (servedBefore due)).take limit

def isBlockedOwnEcho (reducers : DomainReducers δ) (binding : IdentityAccountBinding)
    (domain : δ) (row : InboxRow) : Bool :=
  let owned (path : List String) (text : String) : Bool :=
    (row.rawPayload.pointer path).bind Json.asStr == some text
  row.ownerIdentityId == binding.ownerIdentityId &&
    row.deviceIdSnapshot == binding.protocolDeviceId && row.lane == .secure .p6Group &&
    row.eventType == "p6.delivery.created" &&
    row.processingErrorCode == some "sync.processing_blocked" && row.closedAt.isNone &&
    row.attempt.isNone && row.nextAttemptAt.isNone &&
    owned ["meta", "sender_did"] binding.currentDid &&
    owned ["meta", "sender_device_id"] binding.protocolDeviceId &&
    owned ["meta", "target", "did"] binding.currentDid &&
    owned ["meta", "recipient_device_id"] binding.protocolDeviceId &&
    reducers.acceptedOwnEcho domain binding row.toInboxInput

def InboxRow.reclaimed (row : InboxRow) (now : Int) : InboxRow :=
  { row with
    nextAttemptAt := some now
    processingErrorCode := some "sync.group_sent_projection_pending" }

def reclaimOwnEchoes (reducers : DomainReducers δ) (binding : IdentityAccountBinding)
    (now : Int) : LocalM δ Unit := do
  let blocked ← query fun db =>
    ((db.syncLaneInbox.filter (isBlockedOwnEcho reducers binding db.domain)).take 64).map
      (·.inputId)
  execute fun db => { db with
    syncLaneInbox := Rows.updateWhere (fun row => blocked.contains row.inputId)
      (·.reclaimed now) db.syncLaneInbox }

def dropExpiredLeases (now : Int) : LocalM δ Unit :=
  execute fun db => { db with
    syncInputLeases := Rows.deleteWhere (fun lease => decide (lease.deadline ≤ now))
      db.syncInputLeases }

/-- `INSERT INTO sync_input_leases`; the token is the primary key. -/
def insertLease (token : String) (now : Int) : LocalM δ Unit := do
  let taken ← query fun db => db.hasLease token
  refuseIf taken constraintError
  execute fun db => { db with
    syncInputLeases := db.syncInputLeases ++
      [{ attemptToken := token, deadline := claimDeadline now }] }

def InputClaim.ofRow (binding : IdentityAccountBinding) (row : InboxRow) (token : String) :
    InputClaim where
  inputId := row.inputId
  ownerIdentityId := binding.ownerIdentityId
  ownerDid := binding.currentDid
  accountId := binding.accountId
  deviceId := binding.protocolDeviceId
  authGeneration := binding.deviceAuthGeneration
  lane := row.lane
  laneEpoch := row.laneEpoch
  position := row.position
  eventId := row.eventId
  eventType := row.eventType
  payload := row.rawPayload
  groupDid := row.groupDid
  logicalEventSeq := row.logicalEventSeq
  receivedAt := row.receivedAt
  sourceCreatedAt := row.sourceCreatedAt
  sourceExpiresAt := row.sourceExpiresAt
  token := token
  attemptCount := saturatingAdd row.attemptCount 1

structure InputClaim.Describes (claim : InputClaim) (input : InboxInput) : Prop where
  inputId : input.inputId = claim.inputId
  owner : input.ownerIdentityId = claim.ownerIdentityId
  lane : input.lane = claim.lane
  laneEpoch : input.laneEpoch = claim.laneEpoch
  position : input.position = claim.position
  eventId : input.eventId = claim.eventId
  eventType : input.eventType = claim.eventType
  payload : input.rawPayload = claim.payload

def InboxRow.claimed (row : InboxRow) (token : String) (now : Int) : InboxRow :=
  { row with
    attempt := some { token := token, deadline := claimDeadline now }
    attemptCount := row.attemptCount + 1
    lastAttemptAt := some now
    nextAttemptAt := some (row.nextAttemptAt.getD now)
    processingErrorCode := none }

/-- The loop of `claim_inputs` over its candidates; `tokens` are the ids it generates. -/
def claimRows (binding : IdentityAccountBinding) (now : Int) :
    List InboxRow → List String → LocalM δ (List InputClaim)
  | row :: rows, token :: tokens => do
      insertLease token now
      execute fun db => { db with
        syncLaneInbox := Rows.updateWhere (fun other => other.inputId == row.inputId)
          (fun other => other.claimed token now) db.syncLaneInbox }
      let claims ← claimRows binding now rows tokens
      pure (.ofRow binding row token :: claims)
  | _, _ => pure []

/-- The transaction of `claim_inputs`; with no free slot it returns before its commit. -/
def claimDueInputs (reducers : DomainReducers δ) (binding : IdentityAccountBinding) (now : Int)
    (limit : Nat) (tokens : List String) : LocalM δ (Ending (List InputClaim)) := do
  requireBinding binding
  reclaimOwnEchoes reducers binding now
  dropExpiredLeases now
  let leased ← query fun db =>
    (db.syncInputLeases.filter fun lease => decide (lease.deadline > now)).length
  let limit := min limit (maxActiveInputs - leased)
  if limit = 0 then
    pure (.rollback [])
  else do
    let rows ← query fun db => db.candidates binding now limit
    let claims ← claimRows binding now rows tokens
    pure (.commit claims)

/-- `claim_inputs`; `tokens` supplies the generated attempt tokens. -/
def claimInputs (reducers : DomainReducers δ) (binding : IdentityAccountBinding) (now : Int)
    (limit : Nat) (tokens : List String) : LocalM δ (List InputClaim) := do
  refuseIf (limit == 0 || limit > 64)
    (invalidInput "limit" "claim limit must be between 1 and 64")
  immediate (claimDueInputs reducers binding now limit tokens)

/-! ## Checking a claim -/

/-- The row, the lease and the binding that `require_claim` joins. -/
def Db.claimIsLive (db : Db δ) (claim : InputClaim) (now : Int) : Bool :=
  db.syncLaneInbox.any fun row =>
    row.inputId == claim.inputId && row.ownerIdentityId == claim.ownerIdentityId &&
      (match row.attempt with
        | some attempt => attempt.token == claim.token && decide (attempt.deadline > now)
        | none => false) &&
      row.processingErrorCode != some processingTimeout &&
      (db.syncInputLeases.any fun lease =>
        lease.attemptToken == claim.token && decide (lease.deadline > now)) &&
      db.identityAccountBindings.any fun binding =>
        binding.ownerIdentityId == row.ownerIdentityId && binding.accountId == claim.accountId &&
          binding.protocolDeviceId == claim.deviceId &&
          binding.deviceAuthGeneration == claim.authGeneration &&
          binding.currentDid == claim.ownerDid

def supersededError : ImError :=
  syncError "SYNC_INPUT_SUPERSEDED" "receive input was removed or its processing attempt is stale"

def requireClaim (claim : InputClaim) (now : Int) : LocalM δ Unit := do
  let live ← query fun db => db.claimIsLive claim now
  refuseIf (!live) supersededError

/-! ## Ending, parking and renewing an attempt -/

def releaseProcessingSlot (token : String) : LocalM δ Unit :=
  execute fun db => { db with
    syncInputLeases := Rows.deleteWhere (fun lease => lease.attemptToken == token)
      db.syncInputLeases }

def releaseClaimLease (claim : InputClaim) : LocalM δ Unit :=
  releaseProcessingSlot claim.token

def InboxRow.holds (row : InboxRow) (claim : InputClaim) : Bool :=
  row.inputId == claim.inputId && row.ownerIdentityId == claim.ownerIdentityId &&
    row.attemptToken == some claim.token

def InboxRow.failed (row : InboxRow) (code : String) (retryAt : Option Int) : InboxRow :=
  { row with
    attempt := none, closedAt := none, nextAttemptAt := retryAt
    processingErrorCode := some code }

/-- The attempt runs out `claimSeconds` from now. -/
def InboxRow.renewed (row : InboxRow) (now : Int) : InboxRow :=
  { row with
    attempt := row.attempt.map fun attempt => { attempt with deadline := claimDeadline now } }

def InboxRow.parked (row : InboxRow) (now : Int) : InboxRow :=
  { row.renewed now with
    nextAttemptAt := none, processingErrorCode := some processingTimeout, closedAt := none }

def InboxRow.isParked (row : InboxRow) (claim : InputClaim) : Bool :=
  row.holds claim && row.processingErrorCode == some processingTimeout

def InboxRow.unparked (row : InboxRow) (retryAt : Int) : InboxRow :=
  { row with attempt := none, nextAttemptAt := some retryAt }

def InboxRow.isIdle (row : InboxRow) (owner eventId : String) (now : Int) : Bool :=
  row.ownerIdentityId == owner && row.eventId == eventId && row.isOpen now && row.attempt.isNone

def InboxRow.retried (row : InboxRow) (now : Int) : InboxRow :=
  { row with nextAttemptAt := some now, processingErrorCode := none }

def failClaim (claim : InputClaim) (code : String) (retryAt : Option Int) (now : Int) :
    LocalM δ Unit :=
  immediate do
    requireClaim claim now
    execute fun db => { db with
      syncLaneInbox := Rows.updateWhere (fun row => row.inputId == claim.inputId)
        (·.failed code retryAt) db.syncLaneInbox }
    releaseClaimLease claim
    pure (.commit ())

def parkTimeout (claim : InputClaim) (now : Int) : LocalM δ Bool := do
  let changed ← query fun db => (db.syncLaneInbox.filter (·.holds claim)).length
  execute fun db => { db with
    syncLaneInbox := Rows.updateWhere (·.holds claim) (·.parked now) db.syncLaneInbox }
  pure (changed == 1)

def releaseTimeout (claim : InputClaim) (retryAt : Int) : LocalM δ Bool := do
  let changed ← query fun db => (db.syncLaneInbox.filter (·.isParked claim)).length
  execute fun db => { db with
    syncLaneInbox := Rows.updateWhere (·.isParked claim) (·.unparked retryAt)
      db.syncLaneInbox }
  pure (changed == 1)

/-- One statement of `renew_claims` and `renew_processing_slots`. -/
def renewLease (token : String) (now : Int) : LocalM δ Unit :=
  execute fun db => { db with
    syncInputLeases := Rows.updateWhere (fun lease => lease.attemptToken == token)
      (fun lease => { lease with deadline := claimDeadline now }) db.syncInputLeases }

def renewClaims (claims : List InputClaim) (now : Int) : LocalM δ Unit :=
  immediate do
    forEach claims fun claim => do
      renewLease claim.token now
      execute fun db => { db with
        syncLaneInbox := Rows.updateWhere (·.holds claim) (·.renewed now) db.syncLaneInbox }
    pure (.commit ())

/-- `reserve_processing_slot`; `token` is the id it generates. -/
def reserveProcessingSlot (now : Int) (token : String) : LocalM δ (Option String) :=
  immediate do
    dropExpiredLeases now
    let count ← query fun db => db.syncInputLeases.length
    if count ≥ maxActiveInputs then
      pure (.rollback none)
    else do
      insertLease token now
      pure (.commit (some token))

def renewProcessingSlots (tokens : List String) (now : Int) : LocalM δ Unit :=
  forEach tokens fun token => renewLease token now

def retryEvent (owner eventId : String) (now : Int) : LocalM δ Nat := do
  refuseIf (eventId == "" || Text.trim eventId != eventId)
    (invalidInput "event_id" "processing event id must be a non-empty canonical string")
  let changed ← query fun db => (db.syncLaneInbox.filter (·.isIdle owner eventId now)).length
  execute fun db => { db with
    syncLaneInbox := Rows.updateWhere (·.isIdle owner eventId now) (·.retried now)
      db.syncLaneInbox }
  pure changed

/-! ## Completing a claim -/

def scopeWaitCodes : List String :=
  ["p5.session_pending", "anp.direct.e2ee.max_skip_exceeded", "group.e2ee.epoch_conflict",
    "group.e2ee.state_not_ready"]

def logicalSequence (claim : InputClaim) : Option String :=
  ((claim.payload.pointer ["body", "group_event_seq"]).bind fun value =>
    value.asStr.or (value.asU64.map fun n => toString n)).or claim.logicalEventSeq

def laneReceipt (platform : Platform) (claim : InputClaim) (lane : SyncLane) (now : Int) :
    LaneAppliedEvent where
  ownerIdentityId := claim.ownerIdentityId
  lane := lane
  eventId := claim.eventId
  streamEpoch := claim.laneEpoch
  eventSeq := claim.position
  groupDid := claim.groupDid
  groupEventSeq := logicalSequence claim
  appliedAt := now
  payloadHash := some (payloadHash platform claim.lane claim.payload)

def LaneAppliedEvent.sameEvent (a b : LaneAppliedEvent) : Bool :=
  a.ownerIdentityId == b.ownerIdentityId && a.lane == b.lane && a.eventId == b.eventId

/-- The checks of `sync_lane_applied_events`.  SQLite evaluates them before it looks for a
conflict, so they apply to the receipt of a known event as well. -/
def laneReceiptMalformed (receipt : LaneAppliedEvent) : Bool :=
  sqlBlank receipt.eventId || !isPositiveDecimalColumn receipt.streamEpoch ||
    !isPositiveDecimalColumn receipt.eventSeq ||
    !(match receipt.groupDid, receipt.groupEventSeq with
      | none, none => true
      | none, some _ => false
      | some group, sequence => receipt.lane == .p6Group && !sqlBlank group &&
          (match sequence with
            | some sequence => isPositiveDecimalColumn sequence
            | none => true))

/-- The two unique keys of `sync_lane_applied_events` beside the primary one. -/
def lanePlaceTaken (db : Db δ) (receipt : LaneAppliedEvent) : Bool :=
  db.syncLaneAppliedEvents.any fun other =>
    !other.sameEvent receipt && other.ownerIdentityId == receipt.ownerIdentityId &&
      other.lane == receipt.lane &&
      ((other.streamEpoch == receipt.streamEpoch && other.eventSeq == receipt.eventSeq) ||
        (receipt.lane == .p6Group && other.groupEventSeq.isSome &&
          other.groupDid == receipt.groupDid && other.groupEventSeq == receipt.groupEventSeq))

/-- The receipt statement of `complete_claim`. -/
def writeReceiptHash (platform : Platform) (claim : InputClaim) (now : Int) : LocalM δ Unit :=
  match claim.lane with
  | .ordinary | .baseline =>
    execute fun db => { db with
      syncAppliedEvents := Rows.updateWhere
        (·.isOf claim.ownerIdentityId claim.eventId)
        (fun receipt => { receipt with
          payloadHash := some (payloadHash platform claim.lane claim.payload) })
        db.syncAppliedEvents }
  | .secure lane => do
      let receipt := laneReceipt platform claim lane now
      let known ← query fun db => db.syncLaneAppliedEvents.any (·.sameEvent receipt)
      let taken ← query fun db => lanePlaceTaken db receipt
      refuseIf (laneReceiptMalformed receipt || (!known && taken)) constraintError
      execute fun db => { db with
        syncLaneAppliedEvents := Rows.upsertWhere (·.sameEvent receipt) receipt
          (fun stored => { stored with payloadHash := receipt.payloadHash })
          db.syncLaneAppliedEvents }

def InboxRow.waitsFor (row : InboxRow) (claim : InputClaim) (scope : Option String) : Bool :=
  row.ownerIdentityId == claim.ownerIdentityId && row.inputId != claim.inputId &&
    row.closedAt.isNone && row.attempt.isNone && some row.processingScope == scope &&
    (match row.processingErrorCode with
      | some code => scopeWaitCodes.contains code
      | none => false)

def wakeScope (claim : InputClaim) (now : Int) : LocalM δ Unit :=
  match claim.lane with
  | .ordinary | .baseline => pure ()
  | .secure _ => do
      let scope ← query fun db =>
        (db.syncLaneInbox.find? fun row => row.inputId == claim.inputId).map (·.processingScope)
      execute fun db => { db with
        syncLaneInbox := Rows.updateWhere (·.waitsFor claim scope)
          (fun row => { row with nextAttemptAt := some now }) db.syncLaneInbox }

def completeClaim (platform : Platform) (claim : InputClaim) (now : Int) : LocalM δ Unit := do
  requireClaim claim now
  writeReceiptHash platform claim now
  wakeScope claim now
  execute fun db => { db with
    syncLaneInbox := Rows.deleteWhere (·.holds claim) db.syncLaneInbox }

/-! ## Applying claimed inputs -/

def resultMismatch (claim : InputClaim) (input : DeltaApplyInput) : Bool :=
  match input.events with
  | [event] =>
    claim.lane != .ordinary || input.ownerIdentityId != claim.ownerIdentityId ||
      event.eventId != claim.eventId || event.eventSeq != claim.position ||
      event.eventType != claim.eventType || input.streamEpoch != claim.laneEpoch ||
      input.ownerDid != claim.ownerDid || input.accountId != claim.accountId ||
      input.protocolDeviceId != claim.deviceId ||
      input.deviceAuthGeneration != claim.authGeneration
  | _ => true

def Db.baselinePending (db : Db δ) (owner : String) (now : Int) : Bool :=
  db.syncLaneInbox.any fun row =>
    row.ownerIdentityId == owner && row.lane == .baseline && row.isOpen now

/-- `apply_ordinary_claim_with`; `commitDomain` is the caller's last write. -/
def applyOrdinaryClaimWith (platform : Platform) (reducers : DomainReducers δ)
    (claim : InputClaim) (input : DeltaApplyInput) (now unixTime : Int)
    (commitDomain : δ → Except ImError δ) : LocalM δ DeltaApplyOutcome := do
  refuseIf (resultMismatch claim input)
    (syncError "SYNC_INPUT_CONFLICT" "business result does not match its claimed input")
  immediate do
    requireClaim claim now
    let pending ← query fun db => db.baselinePending claim.ownerIdentityId now
    refuseIf pending
      (syncError "sync.baseline_pending" "ordinary projection awaits local baseline replacement")
    let outcome ← applyDeltaEvents reducers input unixTime
    domainWrite commitDomain
    completeClaim platform claim now
    pure (.commit outcome)

/-- `SyncLaneDomainState`: the row it is about, and what its own table is written with. -/
structure LaneDomainState (δ : Type) where
  inputId : String
  lane : SyncLane
  isClosed : Bool
  store : δ → Except ImError δ

/-- `write_sync_lane_domain_state_in_transaction`. -/
def writeLaneDomainState (state : LaneDomainState δ) (now : Int) : LocalM δ Unit := do
  let stored ← query fun db => db.syncLaneInbox.find? fun row => row.inputId == state.inputId
  let row ← orError stored
    (syncError "LANE_INPUT_MISSING" "domain outcome references a missing lane input")
  refuseIf (row.lane != .secure state.lane)
    (syncError "LANE_INPUT_CONFLICT" "domain outcome lane does not match its input")
  domainWrite state.store
  execute fun db => { db with
    syncLaneInbox := Rows.updateWhere (fun row => row.inputId == state.inputId)
      (fun row => { row with closedAt := if state.isClosed then some now else none })
      db.syncLaneInbox }

def recordLaneOutcome (outcome : Option (LaneDomainState δ)) (now : Int) : LocalM δ Unit :=
  match outcome with
  | some state => writeLaneDomainState state now
  | none => pure ()

/--
The transactions that complete a secure-lane claim together with its business
writes: `project` writes the domain tables.
-/
def applySecureClaim (platform : Platform) (claim : InputClaim) (now : Int)
    (project : δ → Except ImError δ) (outcome : Option (LaneDomainState δ)) : LocalM δ Unit :=
  immediate do
    requireClaim claim now
    domainWrite project
    recordLaneOutcome outcome now
    completeClaim platform claim now
    pure (.commit ())

def snapshotReplacement (claim : InputClaim) (baseline : Baseline) (groups : List GroupRecord)
    (cutoff : String) : SnapshotReplacement where
  ownerIdentityId := claim.ownerIdentityId
  protocolDeviceId := claim.deviceId
  serverTime := baseline.serverTime
  serverCutoff := cutoff
  messageIds := baseline.messageIds
  groupIds := groups.map (·.groupId)
  notificationIds := baseline.notificationIds

def replaceProjection (reducers : DomainReducers δ) (claim : InputClaim) (baseline : Baseline)
    (groups : List GroupRecord) : LocalM δ (List String) :=
  match baseline.serverCutoff with
  | none => pure []
  | some cutoff => domainUpdate fun domain =>
    reducers.replaceSnapshotProjection domain (snapshotReplacement claim baseline groups cutoff)

def applyBaselineGroup (reducers : DomainReducers δ) (group : GroupRecord) : LocalM δ Unit := do
  let verdict ← query fun db => reducers.groupStateIsStale db.domain group
  let stale ← attempt verdict
  if stale then pure () else domainWrite fun domain => reducers.upsertGroup domain group

/-- `sync_baseline::apply_claim`. -/
def applyBaselineClaim (platform : Platform) (reducers : DomainReducers δ) (claim : InputClaim)
    (baseline : Baseline) (groups : List GroupRecord) (readStates : List ReadStateApply)
    (now : Int) : LocalM δ SyncDeltaInvalidation :=
  immediate do
    requireClaim claim now
    let removed ← replaceProjection reducers claim baseline groups
    let anchor := ((claim.payload.get "snapshot_scan_seq").bind Json.asStr).getD claim.position
    let invalidation ← query fun db => deltaInvalidation reducers claim.ownerIdentityId
      claim.ownerDid anchor [] groups readStates db.domain
    forEach groups (applyBaselineGroup reducers)
    forEach readStates fun state => domainWrite fun domain =>
      reducers.applyRemoteReadState domain claim.ownerIdentityId claim.ownerDid state
    let _inserted ← recordAppliedEvent
      { ownerIdentityId := claim.ownerIdentityId
        eventId := claim.eventId
        streamEpoch := claim.laneEpoch
        eventSeq := claim.position
        appliedAt := now }
    completeClaim platform claim now
    pure (.commit { invalidation with
      conversationIds := sortedSet (invalidation.conversationIds ++ removed)
      threadIds := sortedSet (invalidation.threadIds ++ removed) })

/-! ## Pruning receipts -/

/-- `APPLIED_EVENT_MIN_RECEIPTS_PER_OWNER`. -/
def appliedEventMinReceipts : Nat := 10000

/-- `APPLIED_EVENT_SAFETY_WINDOW`. -/
def appliedEventSafetyWindow : Nat := 1000

/-- The digit loop of `subtract_small_decimal`, the least significant digit first. -/
def subtractDigits : List Nat → List Nat → Nat → List Nat
  | [], _, _ => []
  | digit :: digits, amount, borrow =>
    let subtrahend := amount.headD 0 + borrow
    if digit < subtrahend then
      (digit + 10 - subtrahend) :: subtractDigits digits amount.tail 1
    else
      (digit - subtrahend) :: subtractDigits digits amount.tail 0

def subtractSmallDecimal (value : String) (amount : Nat) : Except ImError (Option String) := do
  validateDecimal "decimal" value
  let order ← compareDecimal value (toString amount)
  if order ≠ .gt then
    return none
  let digitsOf (text : String) : List Nat := text.toList.reverse.map Decimal.digit
  let digits := (subtractDigits (digitsOf value) (digitsOf (toString amount)) 0).reverse
  let significant := digits.dropWhile (· == 0)
  let kept := if significant.isEmpty then [0] else significant
  return some (String.join (kept.map toString))

def compareStreamPosition (leftEpoch leftSeq rightEpoch rightSeq : String) :
    Except ImError Ordering := do
  let epochs ← compareDecimal leftEpoch rightEpoch
  if epochs = .eq then compareDecimal leftSeq rightSeq else return epochs

def Db.safePosition (db : Db δ) (owner epoch safeSeq : String) :
    Except ImError (String × String) :=
  match db.syncRecoveryState.find? fun state => state.ownerIdentityId == owner with
  | some recovery =>
    if recovery.status = "completed" ∨ recovery.status = "permanent_failure" then
      .ok (epoch, safeSeq)
    else do
      let order ← compareStreamPosition recovery.requestedFromEpoch recovery.requestedFromSeq
        epoch safeSeq
      return if order = .lt then (recovery.requestedFromEpoch, recovery.requestedFromSeq)
        else (epoch, safeSeq)
  | none => .ok (epoch, safeSeq)

def AppliedEvent.upTo (a b : AppliedEvent) : Prop :=
  Decimal.order a.streamEpoch b.streamEpoch = .lt ∨
    (a.streamEpoch = b.streamEpoch ∧ Decimal.order a.eventSeq b.eventSeq ≠ .gt)

instance : DecidableRel AppliedEvent.upTo := fun a b =>
  inferInstanceAs (Decidable (Decimal.order a.streamEpoch b.streamEpoch = .lt ∨
    (a.streamEpoch = b.streamEpoch ∧ Decimal.order a.eventSeq b.eventSeq ≠ .gt)))

/-- The receipts that `prune_applied_events` deletes. -/
def Db.prunableReceipts (db : Db δ) (owner safeEpoch safeSeq : String) (limit : Nat) :
    List String :=
  let owned := db.syncAppliedEvents.filter fun receipt => receipt.ownerIdentityId == owner
  let newest := ((owned.insertionSort AppliedEvent.upTo).reverse.take
    appliedEventMinReceipts).map (·.eventId)
  let old := owned.filter fun receipt =>
    (Decimal.order receipt.streamEpoch safeEpoch == .lt ||
      (receipt.streamEpoch == safeEpoch && Decimal.order receipt.eventSeq safeSeq == .lt)) &&
      !newest.contains receipt.eventId
  ((old.insertionSort AppliedEvent.upTo).take limit).map (·.eventId)

def deleteReceipts (owner : String) (eventIds : List String) : LocalM δ Unit :=
  forEach eventIds fun eventId => execute fun db => { db with
    syncAppliedEvents := Rows.deleteWhere (·.isOf owner eventId) db.syncAppliedEvents }

def pruneAppliedEvents (owner epoch scanSeq : String) (maxDelete : Nat) : LocalM δ Nat := do
  attempt (validateAll
    [ validateRequired "owner_identity_id" owner,
      validatePositiveDecimal "stream_epoch" epoch,
      validateDecimal "scan_seq" scanSeq ])
  let count ← query fun db =>
    (db.syncAppliedEvents.filter fun receipt => receipt.ownerIdentityId == owner).length
  if maxDelete = 0 ∨ count ≤ appliedEventMinReceipts then
    pure 0
  else do
    let safeSeq ← attempt (subtractSmallDecimal scanSeq appliedEventSafetyWindow)
    match safeSeq with
    | none => pure 0
    | some safeSeq => do
        let position ← query fun db => db.safePosition owner epoch safeSeq
        let safe ← attempt position
        let eventIds ← query fun db => db.prunableReceipts owner safe.1 safe.2
          (min maxDelete (count - appliedEventMinReceipts))
        deleteReceipts owner eventIds
        pure eventIds.length

end LocalState
end Awiki

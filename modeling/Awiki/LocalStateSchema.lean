import Awiki.DecimalText
import Awiki.JsonValues
import Awiki.RowTables
import Awiki.Transactions

/-!
# The local synchronisation database

The tables of the local state that the receive inbox, the message cursor and the
lanes are kept in, with the records that the code reads from them.  The tables
that the domain reducers own (messages, groups, read states, notifications) are
one component `δ` here; the reducers are modelled where a result depends on them.

Times are `i64` seconds and are integers here, with the saturating arithmetic of
the source.  The columns of an inbox row that no statement updates are a structure
of their own, `InboxInput`, and the attempt token and its deadline are one optional
value, as the table's `CHECK` requires.
-/

namespace Awiki

/-- The errors of `crate::ImError` that the modelled functions return. -/
inductive ImError where
  | service (code message : String)
  | invalidInput (field message : String)
  | identityBindingConflict (detail : String)
  | identityUnresolved (detail : String)
  | canonicalGroupIdentityMissing (group : String)
  | conversationAliasConflict (aliasId existingTarget requestedTarget : String)
  | messageWireIdentityConflict (messageId : String)
  | localStateUnavailable (detail : String)
  | permissionDenied
  | unsupportedCapability (capability : String)
  | internal (message : String)
  deriving DecidableEq, Inhabited

namespace LocalState

/-- `if bad { return Err(e) }`. -/
def refuse (bad : Bool) (e : ImError) : Except ImError Unit :=
  if bad then .error e else .ok ()

@[simp] theorem refuse_ok {bad : Bool} {e : ImError} {v : Unit} :
    refuse bad e = .ok v ↔ bad = false := by
  cases bad <;> simp [refuse]

/-! ## Times -/

def saturatingAdd (a b : Int) : Int :=
  max (-2 ^ 63) (min (2 ^ 63 - 1) (a + b))

def saturatingSub (a b : Int) : Int :=
  max (-2 ^ 63) (min (2 ^ 63 - 1) (a - b))

theorem saturatingAdd_mono {a b : Int} (h : a ≤ b) (c : Int) :
    saturatingAdd a c ≤ saturatingAdd b c := by
  unfold saturatingAdd
  omega

theorem saturatingSub_mono {a b : Int} (h : a ≤ b) (c : Int) :
    saturatingSub a c ≤ saturatingSub b c := by
  unfold saturatingSub
  omega

/-! ## Bindings, cursors and runs -/

/-- A row of `identity_account_bindings`. -/
structure IdentityAccountBinding where
  ownerIdentityId : String
  accountId : String
  handleScope : Option String
  currentDid : String
  protocolDeviceId : String
  identityGeneration : String
  deviceAuthGeneration : String
  createdAt : Int
  updatedAt : Int
  deriving DecidableEq, Inhabited

/-- A row of `sync_installation_state`. -/
structure SyncInstallation where
  ownerIdentityId : String
  clientInstanceId : String
  deriving DecidableEq, Inhabited

/-- A row of `message_sync_state`: the ordinary cursor of an owner. -/
structure MessageSyncState where
  ownerIdentityId : String
  accountId : String
  protocolDeviceId : String
  deviceAuthGeneration : String
  streamEpoch : String
  scanSeq : String
  bootstrapState : String
  lastServerTime : Option String
  lastSuccessAt : Option Int
  lastErrorCode : Option String
  metadataJson : Option String
  updatedAt : Int
  deriving DecidableEq, Inhabited

/-- A row of `message_sync_run_state`. -/
structure MessageSyncRunState where
  ownerIdentityId : String
  syncPending : Bool
  runGeneration : Int
  nextRetryAt : Option Int
  lastResultJson : Option String
  updatedAt : Int
  deriving DecidableEq, Inhabited

/-- A row of `sync_recovery_state`. -/
structure RecoveryState where
  ownerIdentityId : String
  mode : String
  requestedFromEpoch : String
  requestedFromSeq : String
  recoveryIdHash : Option String
  snapshotScanSeq : Option String
  status : String
  retryCount : Int
  lastErrorCode : Option String
  startedAt : Int
  updatedAt : Int
  deriving DecidableEq, Inhabited

/-- A row of `sync_history_scope`. -/
structure HistoryScope where
  ownerIdentityId : String
  olderHistoryExcluded : Bool
  updatedAt : Int
  deriving DecidableEq, Inhabited

/-! ## Lanes -/

/-- `SyncLaneV3`: the secure lanes of the server. -/
inductive SyncLane where
  | p5Device
  | p6Group
  deriving DecidableEq, Inhabited

def SyncLane.asStr : SyncLane → String
  | p5Device => "p5_device"
  | p6Group => "p6_group"

inductive Lane where
  | ordinary
  | baseline
  | secure (lane : SyncLane)
  deriving DecidableEq, Inhabited

namespace Lane

def name : Lane → String
  | ordinary => "ordinary"
  | baseline => "baseline"
  | secure lane => lane.asStr

/-- Lanes whose receipts are rows of `sync_applied_events`. -/
def isLocal : Lane → Bool
  | ordinary | baseline => true
  | secure _ => false

end Lane

/-- A row of `lane_sync_state`. -/
structure LaneSyncState where
  ownerIdentityId : String
  lane : SyncLane
  streamEpoch : String
  scanSeq : String
  committedSeq : String
  deriving DecidableEq, Inhabited

/-- A row of `sync_lane_capability_state`. -/
structure LaneCapabilityState where
  ownerIdentityId : String
  negotiatedDeviceAuthGeneration : String
  clientInstanceId : Option String
  negotiatedCapabilities : Option JsonText
  deriving Inhabited

/-- A row of `sync_lane_transport_state`. -/
structure LaneTransportState where
  ownerIdentityId : String
  lane : SyncLane
  lastTransportError : Option String
  updatedAt : Int
  deriving DecidableEq, Inhabited

/-- A row of `sync_p5_did_cutovers`. -/
structure P5DidCutover where
  ownerIdentityId : String
  oldDid : String
  newDid : String
  cutoverAt : Int
  drainDeadline : Int
  status : String
  updatedAt : Int
  deriving DecidableEq, Inhabited

/-! ## The receive inbox -/

/-- The columns of `sync_lane_inbox` that are written once, with SQLite's rowid. -/
structure InboxInput where
  rowid : Nat
  inputId : String
  ownerIdentityId : String
  lane : Lane
  laneEpoch : String
  position : String
  eventId : String
  eventType : String
  rawPayload : Json
  payloadBytes : Nat
  accountIdSnapshot : String
  deviceIdSnapshot : String
  authGenerationSnapshot : String
  clientInstanceIdSnapshot : String
  groupDid : Option String
  logicalEventSeq : Option String
  receivedAt : String
  sourceCreatedAt : Option String
  sourceExpiresAt : Option String
  createdAt : Int
  processingScope : String
  deriving Inhabited

structure Attempt where
  token : String
  deadline : Int
  deriving DecidableEq, Inhabited

/-- A row of `sync_lane_inbox`, with the defaults of an insertion. -/
structure InboxRow extends InboxInput where
  closedAt : Option Int := none
  attemptCount : Int := 0
  attempt : Option Attempt := none
  lastAttemptAt : Option Int := none
  nextAttemptAt : Option Int := some 0
  processingErrorCode : Option String := none
  deriving Inhabited

def InboxRow.queued (input : InboxInput) : InboxRow := { toInboxInput := input }

/-- The column `attempt_token`. -/
def InboxRow.attemptToken (row : InboxRow) : Option String :=
  row.attempt.map (·.token)

/-- A row of `sync_input_leases`. -/
structure InputLease where
  attemptToken : String
  deadline : Int
  deriving DecidableEq, Inhabited

/-- A row of `sync_applied_events`. -/
structure AppliedEvent where
  ownerIdentityId : String
  eventId : String
  streamEpoch : String
  eventSeq : String
  appliedAt : Int
  payloadHash : Option String := none
  deriving DecidableEq, Inhabited

/-- A row of `sync_lane_applied_events`. -/
structure LaneAppliedEvent where
  ownerIdentityId : String
  lane : SyncLane
  eventId : String
  streamEpoch : String
  eventSeq : String
  groupDid : Option String
  groupEventSeq : Option String
  appliedAt : Int
  payloadHash : Option String
  deriving DecidableEq, Inhabited

/-- The database; `domain` holds the tables of the domain reducers. -/
structure Db (δ : Type) where
  identityAccountBindings : List IdentityAccountBinding := []
  syncInstallationState : List SyncInstallation := []
  messageSyncState : List MessageSyncState := []
  messageSyncRunState : List MessageSyncRunState := []
  syncRecoveryState : List RecoveryState := []
  syncHistoryScope : List HistoryScope := []
  laneSyncState : List LaneSyncState := []
  syncLaneCapabilityState : List LaneCapabilityState := []
  syncLaneTransportState : List LaneTransportState := []
  syncP5DidCutovers : List P5DidCutover := []
  syncLaneInbox : List InboxRow := []
  syncInputLeases : List InputLease := []
  syncAppliedEvents : List AppliedEvent := []
  syncLaneAppliedEvents : List LaneAppliedEvent := []
  domain : δ

abbrev LocalM (δ α : Type) : Type := Tx ImError (Db δ) α

/-- Code outside the repository: SHA-256 over canonical JSON, and two formatters. -/
structure Platform where
  /-- Lower-case hex of SHA-256 of the canonical form of a value. -/
  digest : Json → String
  /-- `serde_json::to_string`. -/
  jsonText : Json → String
  /-- `DateTime::from_timestamp(now, 0)` in RFC 3339, where the time is representable. -/
  rfc3339 : Int → Option String

/-! ## Checks on texts -/

/-- `sync_inbox::error` and `sync_v2::sync_error`. -/
def syncError (code detail : String) : ImError := .service code detail

def invalidInput (field message : String) : ImError := .invalidInput field message

def validateRequired (field value : String) : Except ImError Unit :=
  if Text.isBlank value || Text.trim value != value then
    .error (invalidInput field (field ++ " must be a non-empty canonical string"))
  else
    .ok ()

def validateDecimal (field value : String) : Except ImError Unit :=
  if Decimal.isCanonical value then
    .ok ()
  else
    .error (invalidInput field (field ++ " must be a canonical non-negative decimal string"))

def validatePositiveDecimal (field value : String) : Except ImError Unit := do
  validateDecimal field value
  if value = "0" then
    .error (invalidInput field (field ++ " must be a canonical positive decimal string"))
  else
    .ok ()

def compareDecimal (left right : String) : Except ImError Ordering := do
  validateDecimal "left_decimal" left
  validateDecimal "right_decimal" right
  return Decimal.order left right

/-- The `CHECK` of a positive decimal column. -/
def isPositiveDecimalColumn (value : String) : Bool :=
  Decimal.isCanonical value && value != "0"

theorem validateDecimal_ok {field value : String} :
    validateDecimal field value = .ok () ↔ Decimal.isCanonical value = true := by
  unfold validateDecimal
  split <;> simp_all

theorem compareDecimal_ok {left right : String} {o : Ordering} :
    compareDecimal left right = .ok o ↔
      Decimal.isCanonical left = true ∧ Decimal.isCanonical right = true ∧
        Decimal.order left right = o := by
  unfold compareDecimal validateDecimal
  by_cases hl : Decimal.isCanonical left = true <;>
    by_cases hr : Decimal.isCanonical right = true <;>
    simp [hl, hr, bind, Except.bind, pure, Except.pure]

theorem compareDecimal_canonical {left right : String} (hleft : Decimal.isCanonical left = true)
    (hright : Decimal.isCanonical right = true) :
    compareDecimal left right = .ok (Decimal.order left right) :=
  compareDecimal_ok.mpr ⟨hleft, hright, rfl⟩

end LocalState
end Awiki

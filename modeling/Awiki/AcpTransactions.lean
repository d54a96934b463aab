import Awiki.AcpSessions
import Awiki.DecimalText
import Awiki.RowTables
import Awiki.StatementLogs

/-!
# The tables of one session

The transactions of `acp/store.rs`, `acp/task_records.rs` and of the reply outbox in
`state/runtime_tasks.rs`, for one session: its row, the records of its tasks, the events that
are queued for the app, accepted commands, replies that are to be sent, and the runs.
-/

namespace Awiki
namespace Acp

open Tx

/-! ## Rows -/

structure SnapshotItem where
  runId : String
  taskId : String
  sourceMessageId : String
  requesterDid : String
  deriving DecidableEq

/-- What `snapshot` shows of a session. -/
structure SessionSnapshot where
  sessionKey : String
  agentDid : String
  conversationId : Option String
  revision : Nat
  group : Bool
  active : Option SnapshotItem
  waiting : Option SnapshotItem
  waitingPaused : Bool
  stopping : Bool
  restoring : Bool
  contextLost : Bool
  lastTask : Option TaskSummary
  history : List TaskSummary
  outputRunId : Option String
  text : String
  tools : List Tool
  omittedToolCount : Nat
  errorCode : Option String
  errorDetails : Option Json
  questions : List QuestionRecord
  capabilities : Json
  modelId : Option String
  modelCatalogUpdatedAtMs : Option Int

def Work.item (work : Work) : SnapshotItem where
  runId := work.runId
  taskId := work.task.taskId
  sourceMessageId := work.task.sourceMessageId
  requesterDid := work.task.requesterDid

def Session.snapshot (s : Session) : SessionSnapshot where
  sessionKey := s.key
  agentDid := s.agentDid
  conversationId := s.conversationId
  revision := s.revision
  group := s.group
  active := s.active.map Work.item
  waiting := s.waiting.map Work.item
  waitingPaused := s.waitingPaused
  stopping := s.stopping
  restoring := s.restoring
  contextLost := s.contextLost
  lastTask := s.lastTask
  history := s.history
  outputRunId := s.lastRunId
  text := s.text
  tools := s.tools
  omittedToolCount := s.omittedToolCount
  errorCode := s.interactionError
  errorDetails := s.errorDetails
  questions := s.questions.map (questionRecord · s.active.isNone)
  capabilities := s.capabilities
  modelId := s.model
  modelCatalogUpdatedAtMs := s.modelCatalogUpdatedAtMs

inductive EventPayload where
  | session (snapshot : SessionSnapshot)
  | task (record : TaskRecord)

inductive EventKind where
  | snapshot
  | task
  deriving DecidableEq

/-- A row of `acp_events`. -/
structure AcpEvent where
  eventId : String
  sessionKey : String
  runId : String
  payload : EventPayload
  kind : EventKind
  sent : Bool := false

/-- The arguments of `control`. -/
structure ControlArgs where
  sessionKey : Option String
  action : Option Session.Action
  revision : Option Nat
  deriving DecidableEq

/-- A row of `acp_commands`. -/
structure AcpCommand where
  commandId : String
  agentDid : String
  sender : String
  args : ControlArgs
  result : SessionSnapshot

inductive FinalOutboxStatus where
  | pending
  | sending
  | sent
  | failedTerminal
  deriving DecidableEq

/-- A row of `runtime_final_outbox`. -/
structure RuntimeFinalOutboxRecord where
  idempotencyKey : String
  runId : String
  agentDid : String
  runtimeProfileId : String
  controllerScopeKey : String
  controllerDid : String
  recipientDid : String
  conversationId : Option String
  finalText : String
  finalSource : String
  finalBodyHash : String
  security : RuntimeMessageSecurity
  status : FinalOutboxStatus := .pending
  attemptCount : Int := 0
  nextAttemptAtMs : Int
  lastErrorCode : Option String := none
  lastErrorSummary : Option String := none
  messageId : Option String := none
  createdAtMs : Int
  updatedAtMs : Int
  sentAtMs : Option Int := none
  deriving DecidableEq

inductive RuntimeRunStatus where
  | pending
  | running
  | finished
  | failed
  deriving DecidableEq

/-- A row of `runtime_run`. -/
structure RuntimeRun where
  runId : String
  taskId : String
  agentDid : String
  status : RuntimeRunStatus := .pending
  updatedAtMs : Int
  deriving DecidableEq

structure AcpDb where
  session : Option Session := none
  records : List TaskRecord := []
  events : List AcpEvent := []
  commands : List AcpCommand := []
  outbox : List RuntimeFinalOutboxRecord := []
  runs : List RuntimeRun := []

/-! ## Task records -/

/-- `task_records::load`. -/
def AcpDb.record? (db : AcpDb) (runId : String) : Option TaskRecord :=
  db.records.find? (·.runId == runId)

def terminalEventId (runId : String) : String := "acp-task:" ++ runId ++ ":terminal"

def questionEventId (runId questionId : String) : String :=
  "acp-question:" ++ runId ++ ":" ++ questionId ++ ":terminal"

def DeliveryState.name : DeliveryState → String
  | .none => "none"
  | .pending => "pending"
  | .sent => "sent"
  | .failed => "failed"

def deliveryEventId (runId : String) (state : DeliveryState) : String :=
  "acp-task:" ++ runId ++ ":delivery:" ++ state.name

def snapshotEventId (key : String) (revision : Nat) : String :=
  "acp:" ++ key ++ ":" ++ toString revision

/-- `INSERT OR IGNORE INTO acp_events`. -/
def insertOrIgnoreEvent (event : AcpEvent) (events : List AcpEvent) : List AcpEvent :=
  if events.any (·.eventId == event.eventId) then events else events ++ [event]

def queue (record : TaskRecord) (id : String) : Tx String AcpDb Unit :=
  if record.background then pure ()
  else
    execute fun db =>
      { db with
        events := insertOrIgnoreEvent
          { eventId := id
            sessionKey := record.sessionKey
            runId := record.runId
            payload := .task record
            kind := .task } db.events }

/-- The events that `persist` queues for a record. -/
def recordEvents (prior : Option TaskRecord) (record : TaskRecord) : List String :=
  if record.state.terminal then [terminalEventId record.runId]
  else
    let ended := record.questions.filter fun q => q.status != .pending
    let fresh := ended.filter fun q =>
      !prior.any fun prior => prior.questions.any fun old =>
        old.question.id == q.question.id && old.status != .pending
    fresh.map fun q => questionEventId record.runId q.question.id

/-- The row that `persist` writes. -/
def writeRecord (prior : Option TaskRecord) (record : TaskRecord) : Tx String AcpDb Unit := do
  execute fun db =>
    { db with
      records := Rows.upsertWhere (·.runId == record.runId) record (fun _ => record) db.records }
  forEach (recordEvents prior record) (queue record)

/-- `persist`: a record that is terminal is not written again. -/
def persist (record : TaskRecord) : Tx String AcpDb Unit := do
  let prior ← query (·.record? record.runId)
  match prior with
  | some prior =>
    if prior.sessionKey ≠ record.sessionKey then throw "task_record_scope_mismatch"
    else if prior.state.terminal then pure ()
    else writeRecord (some prior) record
  | none => writeRecord none record

/-! ## Sessions -/

def Session.recorded (s : Session) (record : TaskRecord) : Session :=
  let refresh := fun summary : TaskSummary =>
    if summary.runId = record.runId then record.summary else summary
  { s with lastTask := s.lastTask.map refresh, history := s.history.map refresh }

/-- The session that `save` writes. -/
def Session.saved (s : Session) : Session :=
  let revision := s.revision + 1
  let records := s.pendingRecords.map ({ · with revision := revision })
  records.foldl Session.recorded { s with revision := revision, pendingRecords := [] }

/-- The records that `save` writes: those of tasks that ended, then those of the slots. -/
def Session.savedRecords (s : Session) : List TaskRecord :=
  let saved := s.saved
  s.pendingRecords.map ({ · with revision := s.revision + 1 }) ++
    (saved.active.map fun active =>
      saved.capture active (if saved.stopping then .stopping else .running) true).toList ++
    (saved.waiting.map fun waiting =>
      saved.capture waiting (if saved.waitingPaused then .paused else .waiting) false).toList

def publishSnapshot (s : Session) (runId : String) : Tx String AcpDb Unit := do
  execute fun db =>
    { db with
      events := Rows.deleteWhere
        (fun event => event.sessionKey == s.key && !event.sent && event.kind == .snapshot)
        db.events }
  let taken ← query fun db => db.events.any (·.eventId == snapshotEventId s.key s.revision)
  refuseIf taken "UNIQUE constraint failed: acp_events.event_id"
  execute fun db =>
    { db with
      events := db.events ++
        [{ eventId := snapshotEventId s.key s.revision
           sessionKey := s.key
           runId := runId
           payload := .session s.snapshot
           kind := .snapshot }] }

def save (s : Session) : Tx String AcpDb Session := do
  forEach s.savedRecords persist
  let s := s.saved
  execute fun db => { db with session := some s }
  match s.isBackground, s.lastRunId with
  | false, some runId => do
      publishSnapshot s runId
      pure s
  | _, _ => pure s

/-- `mutate`: the session is only written if its serialization changed. -/
def mutate {α : Type} (seed : Option Session) (f : Session → Except String (Session × α)) :
    Tx String AcpDb α :=
  immediate do
    let row ← query (·.session)
    let session ← orError (row.or seed) "acp_session_not_found"
    let (session, result) ← attempt (f session)
    if row = some { session with pendingRecords := [] } then
      return .commit result
    else do
      let _ ← save session
      return .commit result

/-! ## Replies -/

def isLowerHex64 (digits : List Char) : Bool :=
  digits.length == 64 && digits.all fun c => c.isDigit || ('a' ≤ c && c ≤ 'f')

def RuntimeFinalOutboxRecord.requiredFields (record : RuntimeFinalOutboxRecord) :
    List (String × String) :=
  [("idempotency_key", record.idempotencyKey), ("run_id", record.runId),
    ("agent_did", record.agentDid), ("runtime_profile_id", record.runtimeProfileId),
    ("controller_scope_key", record.controllerScopeKey),
    ("controller_did", record.controllerDid), ("recipient_did", record.recipientDid),
    ("final_text", record.finalText), ("final_source", record.finalSource)]

/-- `validate`; the status and the security are never blank. -/
def RuntimeFinalOutboxRecord.validate (record : RuntimeFinalOutboxRecord) :
    Except String Unit :=
  match record.requiredFields.find? fun field => Text.isBlank field.2 with
  | some field => .error (field.1 ++ " must not be empty")
  | none =>
    let hash := record.finalBodyHash
    if hash = "" ∨
        (Text.startsWith hash "sha256:" ∧
          isLowerHex64 (hash.toList.drop "sha256:".toList.length)) then
      .ok ()
    else .error "final_body_hash must use sha256:<64 lowercase hex> format"

def FinalOutboxStatus.closed : FinalOutboxStatus → Bool
  | .sent | .failedTerminal => true
  | _ => false

/-- The `DO UPDATE` of the upsert. -/
def RuntimeFinalOutboxRecord.replaced (old new : RuntimeFinalOutboxRecord) (now : Int) :
    RuntimeFinalOutboxRecord :=
  if old.status.closed then { old with updatedAtMs := now }
  else
    { old with
      finalText := new.finalText
      finalSource := new.finalSource
      finalBodyHash := new.finalBodyHash
      security := new.security
      recipientDid := new.recipientDid
      conversationId := new.conversationId
      status := .pending
      nextAttemptAtMs := new.nextAttemptAtMs
      lastErrorCode := none
      lastErrorSummary := none
      updatedAtMs := now }

def RuntimeFinalOutboxRecord.inserted (record : RuntimeFinalOutboxRecord) (now : Int) :
    RuntimeFinalOutboxRecord :=
  { record with
    status := .pending
    attemptCount := 0
    lastErrorCode := none
    lastErrorSummary := none
    messageId := none
    createdAtMs := now
    updatedAtMs := now
    sentAtMs := none }

/-- `upsert_runtime_final_outbox_pending_in`. -/
def upsertRuntimeFinalOutboxPending (record : RuntimeFinalOutboxRecord) (now : Int) :
    Tx String AcpDb Unit := do
  attempt record.validate
  refuseIf (record.status != .pending) "runtime final outbox upsert requires pending status"
  refuseIf (record.finalBodyHash == "") "runtime final outbox upsert requires final_body_hash"
  let rows ← query (·.outbox)
  let known := rows.any (·.idempotencyKey == record.idempotencyKey)
  refuseIf (!known && rows.any (·.runId == record.runId))
    "UNIQUE constraint failed: runtime_final_outbox.run_id"
  execute fun db =>
    { db with
      outbox := Rows.upsertWhere (·.idempotencyKey == record.idempotencyKey)
        (record.inserted now) (·.replaced record now) db.outbox }

/-- `finish_with_final`: the reply is queued and the task ends in one transaction. -/
def finishWithFinal (record : RuntimeFinalOutboxRecord) (now : Int) :
    Tx String AcpDb (Bool × Option Work) :=
  immediate do
    let row ← query (·.session)
    let session ← orError row "Query returned no rows"
    refuseIf (!session.activeRun record.runId) "stale_task"
    let active ← orError session.active "missing_task"
    let task := active.task
    refuseIf
      (session.agentDid != record.agentDid ||
        session.controllerScopeKey != record.controllerScopeKey ||
        task.agentDid != record.agentDid ||
        task.controllerScopeKey != record.controllerScopeKey ||
        taskScope task != session.scope ||
        task.conversationId != record.conversationId ||
        task.replyRecipientDid != record.recipientDid ||
        task.controllerDid != record.controllerDid)
      "conversation_mismatch"
    let cancelled := session.stopping
    if cancelled then pure () else upsertRuntimeFinalOutboxPending record now
    let (session, next) ←
      attempt (session.complete record.runId (if cancelled then .cancelled else .finished))
    let _ ← save session
    return .commit (cancelled, next)

/-! ## Commands -/

variable (validate : Question → Json → Except String Json)

/-- The checks of `control` before the command: the action and the revision that was seen. -/
def checkRevision (session : Session) (args : ControlArgs) : Except String Session.Action :=
  match args.action with
  | none => .error "action_required"
  | some action =>
    match action with
    | .resetContext _ =>
      if args.revision ≠ some session.revision then .error "stale_revision" else .ok action
    | _ =>
      match args.revision with
      | none => .error "stale_revision"
      | some revision =>
        if revision > session.revision then .error "stale_revision" else .ok action

def failPendingRun (runId : Option String) (runs : List RuntimeRun) : List RuntimeRun :=
  Rows.updateWhere (fun run => some run.runId == runId && run.status == .pending)
    ({ · with status := .failed }) runs

/-- `control`; `scope` is the controller scope of the profile of the agent. -/
def control (agent sender commandId : String) (args : ControlArgs) (scope : Except String String)
    (now : Int) : Tx String AcpDb (SessionSnapshot × Option Work) :=
  immediate do
    let key ← orError args.sessionKey "session_key_required"
    let prior ← query fun db => db.commands.find? fun command =>
      command.agentDid == agent && command.commandId == commandId
    match prior with
    | some prior =>
      if prior.sender ≠ sender ∨ prior.args ≠ args then throw "command_id_conflict"
      else return .rollback (prior.result, none)
    | none => do
        let row ← query (·.session)
        let session ← orError (row.filter fun s => s.key == key && s.agentDid == agent)
          "acp_session_not_found"
        let scope ← attempt scope
        refuseIf (session.controllerScopeKey != scope) "controller_scope_changed"
        let action ← attempt (checkRevision session args)
        let (session, work) ← attempt (session.command validate action sender now)
        match action with
        | .cancelWaiting runId =>
          execute fun db => { db with runs := failPendingRun runId db.runs }
        | _ => pure ()
        let session ← save session
        let result := session.snapshot
        execute fun db =>
          { db with
            commands := db.commands ++ [{ commandId, agentDid := agent, sender, args, result }] }
        return .commit (result, work)

/-! ## Delivery -/

def deliveryIn (idempotencyKey : String) (state : DeliveryState) (messageId : Option String) :
    Tx String AcpDb Unit := do
  let row ← query fun db => db.outbox.find? (·.idempotencyKey == idempotencyKey)
  let row ← orError row "Query returned no rows"
  let record ← query (·.record? row.runId)
  match record with
  | none => pure ()
  | some record =>
    if record.delivery.state = state then pure ()
    else if record.state ≠ .finished then throw "task_delivery_state_mismatch"
    else do
      let record :=
        { record with
          delivery := { state := state, messageId := messageId }
          revision := record.revision + 1 }
      execute fun db =>
        { db with
          records := Rows.updateWhere (·.runId == row.runId) (fun _ => record) db.records }
      queue record (deliveryEventId row.runId state)

/-- An `UPDATE` of the row with a key while its status allows it. -/
def updateOutbox (idempotencyKey : String) (allowed : FinalOutboxStatus → Bool)
    (f : RuntimeFinalOutboxRecord → RuntimeFinalOutboxRecord) : Tx String AcpDb Bool := do
  let matching := fun row : RuntimeFinalOutboxRecord =>
    row.idempotencyKey == idempotencyKey && allowed row.status
  let updated ← query fun db => db.outbox.any matching
  execute fun db => { db with outbox := Rows.updateWhere matching f db.outbox }
  pure updated

/-- `ensure_runtime_final_outbox_exists`. -/
def ensureOutboxExists (idempotencyKey : String) : Tx String AcpDb Unit := do
  let known ← query fun db => db.outbox.any (·.idempotencyKey == idempotencyKey)
  refuseIf (!known) ("runtime final outbox does not exist: " ++ idempotencyKey)

def RuntimeFinalOutboxRecord.sending (row : RuntimeFinalOutboxRecord) (now : Int) :
    RuntimeFinalOutboxRecord :=
  { row with status := .sending, attemptCount := row.attemptCount + 1, updatedAtMs := now }

def RuntimeFinalOutboxRecord.sent (row : RuntimeFinalOutboxRecord) (messageId : Option String)
    (now : Int) : RuntimeFinalOutboxRecord :=
  { row with
    status := .sent
    messageId := messageId
    sentAtMs := some now
    updatedAtMs := now
    lastErrorCode := none
    lastErrorSummary := none }

def RuntimeFinalOutboxRecord.failed (row : RuntimeFinalOutboxRecord)
    (errorCode errorSummary : String) (now : Int) : RuntimeFinalOutboxRecord :=
  { row with
    status := .failedTerminal
    lastErrorCode := some errorCode
    lastErrorSummary := some errorSummary
    updatedAtMs := now }

def RuntimeFinalOutboxRecord.retried (row : RuntimeFinalOutboxRecord) (nextAttemptAtMs : Int)
    (errorCode errorSummary : String) (now : Int) : RuntimeFinalOutboxRecord :=
  { row with
    status := .pending
    nextAttemptAtMs := nextAttemptAtMs
    lastErrorCode := some errorCode
    lastErrorSummary := some errorSummary
    updatedAtMs := now }

def RuntimeFinalOutboxRecord.recovered (row : RuntimeFinalOutboxRecord) (nextAttemptAtMs now : Int) :
    RuntimeFinalOutboxRecord :=
  { row with
    status := .pending
    nextAttemptAtMs := nextAttemptAtMs
    lastErrorCode := row.lastErrorCode.or (some "final_delivery_recovered")
    lastErrorSummary := row.lastErrorSummary.or (some "Recovered stale final delivery attempt")
    updatedAtMs := now }

def RuntimeFinalOutboxRecord.stale (row : RuntimeFinalOutboxRecord) (staleBeforeMs : Int) : Bool :=
  row.status == .sending && decide (row.updatedAtMs ≤ staleBeforeMs)

def markSending (idempotencyKey : String) (now : Int) : Tx String AcpDb Bool :=
  updateOutbox idempotencyKey (· == .pending) (·.sending now)

def closeOutbox (idempotencyKey : String) (allowed : FinalOutboxStatus → Bool)
    (f : RuntimeFinalOutboxRecord → RuntimeFinalOutboxRecord) (state : DeliveryState)
    (messageId : Option String) : Tx String AcpDb Bool :=
  immediate do
    let updated ← updateOutbox idempotencyKey allowed f
    if updated then do
      deliveryIn idempotencyKey state messageId
      return .commit true
    else do
      ensureOutboxExists idempotencyKey
      return .commit false

def markSent (idempotencyKey : String) (messageId : Option String) (now : Int) :
    Tx String AcpDb Bool :=
  closeOutbox idempotencyKey (· == .sending) (·.sent messageId now) .sent messageId

def FinalOutboxStatus.isOpen : FinalOutboxStatus → Bool
  | .pending | .sending => true
  | _ => false

def markFailedTerminal (idempotencyKey errorCode errorSummary : String) (now : Int) :
    Tx String AcpDb Bool :=
  closeOutbox idempotencyKey FinalOutboxStatus.isOpen (·.failed errorCode errorSummary now) .failed
    none

def markRetry (idempotencyKey : String) (nextAttemptAtMs : Int) (errorCode errorSummary : String)
    (now : Int) : Tx String AcpDb Unit := do
  let updated ← updateOutbox idempotencyKey (· == .sending)
    (·.retried nextAttemptAtMs errorCode errorSummary now)
  refuseIf (!updated) ("runtime final outbox is not sending: " ++ idempotencyKey)

/-- `recover_stale_runtime_final_outbox_sending`. -/
def recoverStaleSending (staleBeforeMs nextAttemptAtMs now : Int) : Tx String AcpDb Unit :=
  execute fun db =>
    { db with
      outbox := Rows.updateWhere (·.stale staleBeforeMs) (·.recovered nextAttemptAtMs now)
        db.outbox }

/-! ## Runs -/

/-- `try_insert_runtime_run`. -/
def tryInsertRun (run : RuntimeRun) : Tx String AcpDb Bool := do
  let known ← query fun db => db.runs.any (·.runId == run.runId)
  if known then pure false
  else do
    execute fun db => { db with runs := db.runs ++ [run] }
    pure true

/-- `update_runtime_run_status_if_status_in`. -/
def updateRunStatus (runId : String) (allowed : RuntimeRunStatus → Bool)
    (status : RuntimeRunStatus) (now : Int) : Tx String AcpDb Bool := do
  let matching := fun run : RuntimeRun => run.runId == runId && allowed run.status
  let known ← query fun db => db.runs.any (·.runId == runId)
  refuseIf (!known) ("runtime run does not exist: " ++ runId)
  let updated ← query fun db => db.runs.any matching
  execute fun db =>
    { db with
      runs := Rows.updateWhere matching ({ · with status := status, updatedAtMs := now }) db.runs }
  pure updated

def RuntimeRunStatus.isActive : RuntimeRunStatus → Bool
  | .pending | .running => true
  | _ => false

/-- `update_runtime_run_status` to `running`. -/
def markRunning (runId : String) (now : Int) : Tx String AcpDb Bool :=
  updateRunStatus runId (fun _ => true) .running now

/-- `finish_active_runtime_run`. -/
def finishActiveRun (runId : String) (now : Int) : Tx String AcpDb Bool :=
  updateRunStatus runId RuntimeRunStatus.isActive .finished now

/-- `fail_active_runtime_run`. -/
def failActiveRun (runId : String) (now : Int) : Tx String AcpDb Bool :=
  updateRunStatus runId RuntimeRunStatus.isActive .failed now

/-- `recover_stale_active_runtime_runs`. -/
def recoverStaleRuns (staleBeforeMs now : Int) : Tx String AcpDb Unit :=
  execute fun db =>
    { db with
      runs := Rows.updateWhere
        (fun run => run.status.isActive && decide (run.updatedAtMs ≤ staleBeforeMs))
        ({ · with status := .failed, updatedAtMs := now }) db.runs }

end Acp
end Awiki

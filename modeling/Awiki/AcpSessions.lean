import Awiki.JsonValues
import Awiki.Transactions

/-!
# Sessions of agent tasks

`acp/store.rs` keeps, for one agent and one conversation scope, the task that is executed
and at most one that waits for it.  Commands, the executor and the recovery after a restart
move tasks through these two slots; a task that leaves them for good leaves a record.
`Session.Moves` lists the moves, and every function of a session is one of them.
-/

namespace Awiki
namespace Acp

/-! ## Tasks -/

inductive RuntimeTaskTriggerKind where
  | controllerDirect
  | externalDirect
  | groupMention
  | delegatedDirect
  deriving DecidableEq

inductive RuntimeConversationScope where
  | controllerPrivate (controllerScopeKey : String)
  | direct (requesterUserId requesterFullHandle : String)
  | groupVisible (groupKey : String)
  deriving DecidableEq

def RuntimeConversationScope.scopeKey : RuntimeConversationScope → String
  | .controllerPrivate controllerScopeKey => "controller:" ++ controllerScopeKey
  | .direct requesterUserId requesterFullHandle =>
    "user:" ++ requesterUserId ++ ":handle:" ++ requesterFullHandle
  | .groupVisible groupKey => "group:" ++ groupKey

inductive RuntimeMessageSecurity where
  | defaultPlain
  | e2eeRequired
  deriving DecidableEq

structure RuntimeTask where
  security : RuntimeMessageSecurity
  taskId : String
  agentDid : String
  controllerScopeKey : String
  controllerDid : String
  requesterDid : String
  triggerKind : RuntimeTaskTriggerKind
  conversationScope : RuntimeConversationScope
  replyRecipientDid : String
  conversationId : Option String
  /-- `correlation().source_message_id`. -/
  sourceMessageId : String
  deriving DecidableEq

def taskScope (task : RuntimeTask) : String :=
  let scope := task.conversationScope.scopeKey
  if task.triggerKind = .delegatedDirect then "delegated:" ++ scope else scope

structure Work where
  task : RuntimeTask
  runId : String
  deriving DecidableEq

/-! ## Records -/

inductive TaskState where
  | running
  | stopping
  | waiting
  | paused
  | finished
  | cancelled
  | failed
  | interrupted
  deriving DecidableEq

def TaskState.terminal : TaskState → Bool
  | .finished | .cancelled | .failed | .interrupted => true
  | _ => false

structure Question where
  id : String
  runId : String
  expiresAtMs : Int
  request : Json
  response : Option Json := none
  endReason : Option String := none
  deriving DecidableEq

def Question.pending (question : Question) : Bool :=
  question.response.isNone && question.endReason.isNone

inductive QuestionStatus where
  | answered
  | skipped
  | closed
  | expired
  | pending
  deriving DecidableEq

structure QuestionRecord where
  question : Question
  status : QuestionStatus
  deriving DecidableEq

def questionRecord (question : Question) (closed : Bool) : QuestionRecord where
  question := question
  status :=
    match question.response.bind (·.get "action") with
    | some (.str "accept") => .answered
    | some (.str "decline") => .skipped
    | some (.str "cancel") => .closed
    | _ =>
      if question.endReason = some "expired" then .expired
      else if question.endReason.isSome then .closed
      else if closed then .closed
      else .pending

inductive DeliveryState where
  | none
  | pending
  | sent
  | failed
  deriving DecidableEq

structure Delivery where
  state : DeliveryState
  messageId : Option String
  deriving DecidableEq

/-- A summary of a tool call, with its `id`. -/
structure Tool where
  id : String
  summary : Json
  deriving DecidableEq

structure TaskRecord where
  sessionKey : String
  agentDid : String
  conversationId : Option String
  group : Bool
  background : Bool
  runId : String
  taskId : String
  sourceMessageId : String
  requesterDid : String
  revision : Nat
  state : TaskState
  modelId : Option String
  text : String
  tools : List Tool
  omittedToolCount : Nat
  questions : List QuestionRecord
  errorCode : Option String
  errorDetails : Option Json
  delivery : Delivery
  deriving DecidableEq

structure TaskSummary where
  runId : String
  taskId : String
  sourceMessageId : String
  requesterDid : String
  state : TaskState
  revision : Nat
  modelId : Option String
  errorCode : Option String
  errorDetails : Option Json
  delivery : Delivery
  deriving DecidableEq

def TaskRecord.summary (record : TaskRecord) : TaskSummary where
  runId := record.runId
  taskId := record.taskId
  sourceMessageId := record.sourceMessageId
  requesterDid := record.requesterDid
  state := record.state
  revision := record.revision
  modelId := record.modelId
  errorCode := record.errorCode
  errorDetails := record.errorDetails
  delivery := record.delivery

/-! ## Sessions -/

/-- `Session`, without what only the choice of a model reads. -/
structure Session where
  key : String
  agentDid : String
  controllerScopeKey : String
  scope : String
  conversationId : Option String
  revision : Nat := 0
  nativeSessionId : Option String := none
  nativeCreatedAtMs : Option Int := none
  restoring : Bool := false
  model : Option String := none
  modelCatalogUpdatedAtMs : Option Int := none
  capabilities : Json := .obj []
  options : Json := .arr []
  group : Bool
  active : Option Work := none
  waiting : Option Work := none
  waitingPaused : Bool := false
  stopping : Bool := false
  executeAfterStop : Bool := false
  contextLost : Bool := false
  lastTask : Option TaskSummary := none
  history : List TaskSummary := []
  text : String := ""
  tools : List Tool := []
  omittedToolCount : Nat := 0
  questions : List Question := []
  interactionError : Option String := none
  errorDetails : Option Json := none
  lastRunId : Option String := none
  /-- Not serialized: records that the next `save` writes. -/
  pendingRecords : List TaskRecord := []
  deriving DecidableEq

namespace Session

def isBackground (s : Session) : Bool := "delegated:".isPrefixOf s.scope

/-- `Session::new`, for the key that the scope hashes to. -/
def new (key : String) (task : RuntimeTask) : Session where
  key := key
  agentDid := task.agentDid
  controllerScopeKey := task.controllerScopeKey
  scope := taskScope task
  conversationId := task.conversationId
  group :=
    match task.conversationScope with
    | .groupVisible _ => true
    | _ => false

def capture (s : Session) (work : Work) (state : TaskState) (includeOutput : Bool) :
    TaskRecord where
  sessionKey := s.key
  agentDid := s.agentDid
  conversationId := work.task.conversationId
  group := s.group
  background := s.isBackground
  runId := work.runId
  taskId := work.task.taskId
  sourceMessageId := work.task.sourceMessageId
  requesterDid := work.task.requesterDid
  revision := s.revision
  state := state
  modelId := s.model
  text := if includeOutput then s.text else ""
  tools := if includeOutput then s.tools else []
  omittedToolCount := if includeOutput then s.omittedToolCount else 0
  questions :=
    if includeOutput then s.questions.map (questionRecord · state.terminal) else []
  errorCode := if includeOutput then s.interactionError else none
  errorDetails := if includeOutput then s.errorDetails else none
  delivery := { state := if state = .finished then .pending else .none, messageId := none }

def start (s : Session) (work : Work) : Session :=
  { s with
    lastRunId := some work.runId
    active := some work
    stopping := false
    restoring := false
    executeAfterStop := false
    waitingPaused := false
    text := ""
    tools := []
    omittedToolCount := 0
    questions := []
    interactionError := none
    errorDetails := none }

def submit (s : Session) (work : Work) : Except String (Session × Bool) :=
  if work.task.agentDid ≠ s.agentDid ∨ work.task.controllerScopeKey ≠ s.controllerScopeKey ∨
      taskScope work.task ≠ s.scope then
    .error "conversation_mismatch"
  else if s.contextLost then
    .error "context_reset_required"
  else
    let s := { s with conversationId := work.task.conversationId }
    if s.active.isSome || s.waiting.isSome then
      if s.isBackground then .error "background_busy"
      else if s.group then .error "group_busy"
      else if s.waiting.isSome then .error "waiting_slot_full"
      else .ok ({ s with waiting := some work }, false)
    else
      .ok (s.start work, true)

def activeRun (s : Session) (runId : String) : Bool :=
  s.active.any (·.runId == runId)

def closeQuestions (s : Session) (reason : String) : Session :=
  { s with
    questions := s.questions.map fun question =>
      if question.pending then { question with endReason := some reason } else question }

/-- A record is kept for `save`, and `record_last_task` puts it into the history. -/
def leave (s : Session) (record : TaskRecord) : Session :=
  let history := if s.history.length = 200 then s.history.tail else s.history
  { s with
    lastTask := some record.summary
    pendingRecords := s.pendingRecords ++ [record]
    history := history ++ [record.summary] }

/-- The reason that `complete` closes questions with. -/
def endReason : TaskState → String
  | .cancelled => "task_stopped"
  | .interrupted => "task_interrupted"
  | .failed => "task_failed"
  | _ => "task_ended"

def proceeds (s : Session) (outcome : TaskState) : Bool :=
  (outcome == .finished && !s.stopping) ||
    ((outcome == .cancelled || outcome == .finished) && s.executeAfterStop)

def complete (s : Session) (runId : String) (outcome : TaskState) :
    Except String (Session × Option Work) :=
  if s.activeRun runId then
    match s.active with
    | none => .error "missing_task"
    | some work =>
      let s := { s with active := none }.closeQuestions (endReason outcome)
      let s := s.leave (s.capture work outcome true)
      let proceed := s.proceeds outcome
      let s :=
        { s with
          questions := []
          restoring := false
          stopping := false
          executeAfterStop := false
          waitingPaused := !proceed && s.waiting.isSome }
      match proceed && !s.contextLost, s.waiting with
      | true, some next => .ok ({ s with waiting := none }.start next, some next)
      | _, _ => .ok (s, none)
  else
    .error "stale_task"

/-! ## Commands -/

inductive Action where
  | stop (runId : Option String)
  | executeWaiting (runId : Option String)
  | cancelWaiting (runId : Option String)
  | resetContext (confirmed : Bool)
  | answer (runId questionId : Option String) (args : Json)
  | unknown (name : String)
  deriving DecidableEq

/-- A question is answered; `validate` is `validate_response`. -/
def answer (validate : Question → Json → Except String Json) (s : Session)
    (runId questionId : Option String) (args : Json) (sender : String) (now : Int) :
    Except String Session :=
  match s.active with
  | none => .error "stale_task"
  | some work =>
    if work.task.requesterDid ≠ sender then .error "not_task_requester"
    else if s.stopping then .error "stale_question"
    else
      match runId, questionId with
      | none, _ => .error "run_id_required"
      | _, none => .error "question_id_required"
      | some runId, some id =>
        match s.questions.find? fun q => q.id == id && q.runId == runId with
        | none => .error "stale_question"
        | some question =>
          if question.expiresAtMs ≤ now ∨ question.pending = false ∨
              work.runId ≠ runId then .error "stale_question"
          else do
            let response ← validate question args
            let endReason :=
              match response.get "action" with
              | some (.str "decline") => some "user_skipped"
              | some (.str "cancel") => some "user_dismissed"
              | _ => none
            let answered :=
              { question with endReason := endReason, response := some response }
            .ok { s with questions := s.questions.replace question answered }

/-- The part of `command` for a task that waits. -/
def executeWaiting (s : Session) (waiting : Work) : Except String (Session × Option Work) :=
  if s.active.isSome then
    .ok ({ { s with stopping := true }.closeQuestions "task_stopped" with
      executeAfterStop := true }, none)
  else if s.contextLost then .error "context_reset_required"
  else .ok ({ s with waiting := none, waitingPaused := false }.start waiting, some waiting)

def cancelWaiting (s : Session) (waiting : Work) : Session :=
  let s := { s with waiting := none }
  { s.leave (s.capture waiting .cancelled false) with
    waitingPaused := false, executeAfterStop := false }

def command (validate : Question → Json → Except String Json) (s : Session) (action : Action)
    (sender : String) (now : Int) : Except String (Session × Option Work) :=
  match action with
  | .answer runId questionId args => do
      let s ← s.answer validate runId questionId args sender now
      .ok (s, none)
  | .stop runId =>
    if s.group then .error "unsupported_in_group"
    else if s.active.any fun work => some work.runId == runId then
      let s := { s with stopping := true }.closeQuestions "task_stopped"
      .ok ({ s with waitingPaused := s.waiting.isSome }, none)
    else .error "stale_task"
  | .executeWaiting runId =>
    if s.group then .error "unsupported_in_group"
    else
      match s.waiting.filter fun work => some work.runId == runId with
      | some waiting => s.executeWaiting waiting
      | none => .error "stale_waiting_task"
  | .cancelWaiting runId =>
    if s.group then .error "unsupported_in_group"
    else
      match s.waiting.filter fun work => some work.runId == runId with
      | some waiting => .ok (s.cancelWaiting waiting, none)
      | none => .error "stale_waiting_task"
  | .resetContext confirmed =>
    if s.active.isSome then .error "session_busy"
    else if !s.contextLost || !confirmed then .error "context_reset_confirmation_required"
    else
      .ok ({ s with nativeSessionId := none, nativeCreatedAtMs := none, contextLost := false },
        none)
  | .unknown _ => .error "unknown_acp_command"

/-! ## Recovery and shutdown -/

/-- What `recover` does to a session that is not idle. -/
def recover (s : Session) : Session :=
  let s := s.closeQuestions "task_interrupted"
  let s :=
    match s.active with
    | some active =>
      let s := { s with active := none }
      s.leave (s.capture active .interrupted true)
    | none => s
  { s with
    waitingPaused := s.waiting.isSome
    stopping := false
    restoring := false
    executeAfterStop := false
    questions := [] }

/-- What `request_shutdown` does to a session. -/
def requestShutdown (s : Session) : Session :=
  if s.active.isSome then
    { { s with stopping := true }.closeQuestions "task_interrupted" with
      executeAfterStop := false
      waitingPaused := s.waiting.isSome }
  else s

/-! ## The executor -/

inductive Streaming where
  | restore
  | text (runId chunk : String)
  | tool (runId : String) (tool : Tool)
  | configuration (runId : String) (model : Option String) (options : Json) (now : Option Int)
  | currentModel (runId model : String) (options : Json)
  | opened (native : String) (capabilities options : Json) (now : Int)
  | configured (model : Option String) (options : Json) (now : Option Int)
  | error (code : String)
  | turnError (code : String) (details : Option Json)
  | runError (runId code : String)
  | questionError (runId code : String)
  | ask (runId : String) (sessionId : Option String) (question : Question)
  | cancelQuestion (runId questionId : String)
  | expire (questionId : String) (now : Int)
  | contextLost (runId native : String)
  | configurationLost
  | fence

def updateConfiguration (s : Session) (model : Option String) (options : Json)
    (now : Option Int) : Session :=
  { s with model := model, modelCatalogUpdatedAtMs := now, options := options }

def updateTool (s : Session) (tool : Tool) : Session :=
  if s.tools.any (·.id == tool.id) then
    { s with tools := s.tools.map fun old => if old.id = tool.id then tool else old }
  else if s.tools.length = 64 then
    { s with tools := s.tools.tail ++ [tool], omittedToolCount := s.omittedToolCount + 1 }
  else { s with tools := s.tools ++ [tool] }

/-- The mutation of `await_answer_id`. -/
def ask (s : Session) (runId : String) (sessionId : Option String) (question : Question) :
    Except String Session :=
  if !s.activeRun runId || s.stopping || sessionId != s.nativeSessionId then
    .error "stale_question"
  else
    match s.questions.find? (·.id == question.id) with
    | some prior =>
      if prior.request = question.request then .ok s else .error "question_id_conflict"
    | none =>
      if s.questions.countP (·.pending) ≥ 8 ∨ s.questions.length ≥ 100 then
        .error "too_many_questions"
      else .ok { s with questions := s.questions ++ [question] }

/-- `expire_or_answer` on the question. -/
def expire (s : Session) (questionId : String) (now : Int) : Except String Session :=
  match s.questions.find? (·.id == questionId) with
  | none => .error "stale_question"
  | some question =>
    if question.response.isSome then .ok s
    else if question.endReason.isSome then .error "question_closed"
    else if question.expiresAtMs ≤ now then
      let expired := { question with endReason := some "expired" }
      .ok { s with questions := s.questions.replace question expired }
    else .ok s

def streamed (s : Session) (runId : String) (f : Session → Except String Session) :
    Except String Session :=
  if s.activeRun runId && !s.stopping then f s else .ok s

def stream (s : Session) : Streaming → Except String Session
  | .restore => .ok { s with restoring := true }
  | .text runId chunk =>
    s.streamed runId fun s =>
      if s.text.utf8ByteSize + chunk.utf8ByteSize > 1024 * 1024 then .error "acp_output_limit"
      else .ok { s with text := s.text ++ chunk }
  | .tool runId tool => s.streamed runId fun s => .ok (s.updateTool tool)
  | .configuration runId model options now =>
    s.streamed runId fun s => .ok (s.updateConfiguration model options now)
  | .currentModel runId model options =>
    s.streamed runId fun s => .ok { s with model := some model, options := options }
  | .opened native capabilities options now =>
    let created := if s.nativeSessionId.isNone then some now else s.nativeCreatedAtMs
    .ok
      { s with
        nativeCreatedAtMs := created
        restoring := false
        nativeSessionId := some native
        capabilities := capabilities
        modelCatalogUpdatedAtMs := some now
        options := options }
  | .configured model options now => .ok (s.updateConfiguration model options now)
  | .error code => .ok { s with interactionError := some code }
  | .turnError code details =>
    if s.interactionError.isNone then
      .ok { s with interactionError := some code, errorDetails := details }
    else .ok s
  | .runError runId code =>
    if s.activeRun runId then .ok { s with interactionError := some code } else .ok s
  | .questionError runId code =>
    s.streamed runId fun s => .ok { s with interactionError := some code }
  | .ask runId sessionId question => s.ask runId sessionId question
  | .cancelQuestion runId questionId =>
    s.streamed runId fun s =>
      match s.questions.find? fun q => q.id == questionId && q.pending with
      | none => .ok s
      | some question =>
        let cancelled := { question with endReason := some "client_cancelled" }
        .ok
          { s with
            questions := s.questions.replace question cancelled
            interactionError := some "question_cancelled_by_client" }
  | .expire questionId now => s.expire questionId now
  | .contextLost runId native =>
    if s.activeRun runId && !s.stopping && s.nativeSessionId == some native then
      .ok { s with contextLost := true }
    else .ok s
  | .configurationLost => .ok { s with contextLost := true }
  | .fence => .ok { s with stopping := true, executeAfterStop := false }

/-! ## Moves -/

structure Same (s s' : Session) : Prop where
  key : s'.key = s.key
  agentDid : s'.agentDid = s.agentDid
  controllerScopeKey : s'.controllerScopeKey = s.controllerScopeKey
  scope : s'.scope = s.scope
  group : s'.group = s.group
  revision : s'.revision = s.revision

structure Leaves (s : Session) (work : Work) (record : TaskRecord) : Prop where
  runId : record.runId = work.runId
  sessionKey : record.sessionKey = s.key
  background : record.background = s.isBackground
  terminal : record.state.terminal = true

/-- How tasks move through the slots of a session; `admitted` is a task that is submitted. -/
inductive Moves (s s' : Session) : Option Work → Prop
  | stay (hactive : s'.active = s.active) (hwaiting : s'.waiting = s.waiting)
      (hrecords : s'.pendingRecords = s.pendingRecords) : Moves s s' none
  | enter (work : Work) (hidle : s.active = none) (hnone : s.waiting = none)
      (hactive : s'.active = some work) (hwaiting : s'.waiting = none)
      (hrecords : s'.pendingRecords = s.pendingRecords) : Moves s s' (some work)
  | queue (work : Work) (hbusy : s.active.isSome = true) (hnone : s.waiting = none)
      (hactive : s'.active = s.active) (hwaiting : s'.waiting = some work)
      (hrecords : s'.pendingRecords = s.pendingRecords) : Moves s s' (some work)
  | leave (work : Work) (record : TaskRecord) (hwork : s.active = some work)
      (hleaves : s.Leaves work record) (hactive : s'.active = none)
      (hwaiting : s'.waiting = s.waiting)
      (hrecords : s'.pendingRecords = s.pendingRecords ++ [record]) : Moves s s' none
  | follow (work next : Work) (record : TaskRecord) (hwork : s.active = some work)
      (hnext : s.waiting = some next) (hleaves : s.Leaves work record)
      (hactive : s'.active = some next) (hwaiting : s'.waiting = none)
      (hrecords : s'.pendingRecords = s.pendingRecords ++ [record]) : Moves s s' none
  | cancel (work : Work) (record : TaskRecord) (hwork : s.waiting = some work)
      (hleaves : s.Leaves work record) (hactive : s'.active = s.active)
      (hwaiting : s'.waiting = none)
      (hrecords : s'.pendingRecords = s.pendingRecords ++ [record]) : Moves s s' none
  | resume (work : Work) (hidle : s.active = none) (hwork : s.waiting = some work)
      (hactive : s'.active = some work) (hwaiting : s'.waiting = none)
      (hrecords : s'.pendingRecords = s.pendingRecords) : Moves s s' none

theorem Same.refl (s : Session) : s.Same s := ⟨rfl, rfl, rfl, rfl, rfl, rfl⟩

theorem Moves.refl (s : Session) : s.Moves s none := .stay rfl rfl rfl

theorem leaves_capture (s : Session) (work : Work) (state : TaskState) (includeOutput : Bool)
    (h : state.terminal = true) : s.Leaves work (s.capture work state includeOutput) :=
  ⟨rfl, rfl, rfl, h⟩

variable {s s' : Session} {runId : String} {outcome : TaskState} {next : Option Work} {now : Int}

theorem submit_moves {work : Work} {leads : Bool} (h : s.submit work = .ok (s', leads)) :
    s.Same s' ∧ s.Moves s' (some work) := by
  unfold submit at h
  obtain ⟨-, h⟩ := Tx.except_unless.mp h
  obtain ⟨-, h⟩ := Tx.except_unless.mp h
  dsimp only at h
  split at h
  · rename_i hbusy
    obtain ⟨-, h⟩ := Tx.except_unless.mp h
    obtain ⟨-, h⟩ := Tx.except_unless.mp h
    obtain ⟨hfree, h⟩ := Tx.except_unless.mp h
    cases h
    have hnone : s.waiting = none := by simpa using hfree
    refine ⟨⟨rfl, rfl, rfl, rfl, rfl, rfl⟩, .queue work ?_ hnone rfl rfl rfl⟩
    simpa [hnone] using hbusy
  · rename_i hfree
    cases h
    rw [Bool.or_eq_true, not_or, Bool.not_eq_true, Bool.not_eq_true, Option.isSome_eq_false_iff,
      Option.isSome_eq_false_iff, Option.isNone_iff_eq_none, Option.isNone_iff_eq_none] at hfree
    exact ⟨⟨rfl, rfl, rfl, rfl, rfl, rfl⟩, .enter work hfree.1 hfree.2 rfl hfree.2 rfl⟩

/-- The session of `complete` before the waiting task is looked at. -/
def ended (s : Session) (work : Work) (outcome : TaskState) : Session :=
  let s := { s with active := none }.closeQuestions (endReason outcome)
  let s := s.leave (s.capture work outcome true)
  { s with
    questions := []
    restoring := false
    stopping := false
    executeAfterStop := false
    waitingPaused := !s.proceeds outcome && s.waiting.isSome }

theorem complete_cases (h : s.complete runId outcome = .ok (s', next)) :
    ∃ work, s.active = some work ∧ work.runId = runId ∧
      ((s.proceeds outcome = true ∧ s.contextLost = false ∧ ∃ waiting, s.waiting = some waiting ∧
          next = some waiting ∧ s' = { s.ended work outcome with waiting := none }.start waiting) ∨
        ((s.proceeds outcome = true → s.contextLost = false → s.waiting = none) ∧
          next = none ∧ s' = s.ended work outcome)) := by
  unfold complete at h
  obtain ⟨hrun, h⟩ := Tx.except_when.mp h
  cases hactive : s.active with
  | none =>
    rw [hactive] at h
    cases h
  | some work =>
    rw [hactive] at h
    dsimp only at h
    refine ⟨work, rfl, by simpa [activeRun, hactive] using hrun, ?_⟩
    split at h
    · rename_i waiting hproceed hwaiting
      cases h
      have hboth : s.proceeds outcome = true ∧ s.contextLost = false := by
        simpa [proceeds, leave, closeQuestions] using hproceed
      exact .inl ⟨hboth.1, hboth.2, waiting, hwaiting, rfl, rfl⟩
    · rename_i hstays
      cases h
      refine .inr ⟨?_, rfl, rfl⟩
      intro hproceeds hkept
      cases hwaiting : s.waiting with
      | none => rfl
      | some waiting =>
        refine absurd ?_ (hstays waiting · hwaiting)
        simpa [proceeds, leave, closeQuestions, hkept] using hproceeds

/-- The record that `complete` leaves. -/
def endedRecord (s : Session) (work : Work) (outcome : TaskState) : TaskRecord :=
  ({ s with active := none }.closeQuestions (endReason outcome)).capture work outcome true

theorem ended_leaves (s : Session) (work : Work) (h : outcome.terminal = true) :
    s.Leaves work (s.endedRecord work outcome) :=
  ⟨rfl, rfl, rfl, h⟩

theorem ended_records (s : Session) (work : Work) (outcome : TaskState) :
    (s.ended work outcome).pendingRecords = s.pendingRecords ++ [s.endedRecord work outcome] :=
  rfl

theorem ended_same (s : Session) (work : Work) (outcome : TaskState) :
    s.Same (s.ended work outcome) :=
  ⟨rfl, rfl, rfl, rfl, rfl, rfl⟩

theorem complete_moves (houtcome : outcome.terminal = true)
    (h : s.complete runId outcome = .ok (s', next)) : s.Same s' ∧ s.Moves s' none := by
  obtain ⟨work, hactive, -, hcases⟩ := complete_cases h
  have hleaves := s.ended_leaves work houtcome
  have hsame := s.ended_same work outcome
  have hrecords := s.ended_records work outcome
  rcases hcases with ⟨-, -, waiting, hwaiting, -, rfl⟩ | ⟨-, -, rfl⟩
  · generalize s.ended work outcome = done at hsame hrecords
    exact ⟨⟨hsame.1, hsame.2, hsame.3, hsame.4, hsame.5, hsame.6⟩,
      .follow work waiting _ hactive hwaiting hleaves rfl rfl hrecords⟩
  · exact ⟨hsame, .leave work _ hactive hleaves rfl rfl hrecords⟩

theorem answer_moves {validate : Question → Json → Except String Json}
    {runId questionId : Option String} {args : Json} {sender : String}
    (h : s.answer validate runId questionId args sender now = .ok s') :
    ∃ questions, s' = { s with questions := questions } := by
  unfold answer at h
  split at h
  · cases h
  · split at h
    · cases h
    · split at h
      · cases h
      · split at h
        · cases h
        · cases h
        · split at h
          · cases h
          · split at h
            · cases h
            · obtain ⟨response, -, heq⟩ := Tx.except_bind_ok.mp h
              cases heq
              exact ⟨_, rfl⟩

inductive Accepts (s : Session) : Action → Session → Option Work → Prop
  | answer (runId questionId : Option String) (args : Json) (questions : List Question) :
      Accepts s (.answer runId questionId args) { s with questions := questions } none
  | stop (work : Work) (hwork : s.active = some work) (hgroup : s.group = false) :
      Accepts s (.stop (some work.runId))
        { { s with stopping := true }.closeQuestions "task_stopped" with
          waitingPaused := s.waiting.isSome } none
  | executeAfter (work : Work) (hwork : s.waiting = some work) (hbusy : s.active.isSome = true)
      (hgroup : s.group = false) :
      Accepts s (.executeWaiting (some work.runId))
        { { s with stopping := true }.closeQuestions "task_stopped" with
          executeAfterStop := true } none
  | execute (work : Work) (hwork : s.waiting = some work) (hidle : s.active = none)
      (hcontext : s.contextLost = false) :
      Accepts s (.executeWaiting (some work.runId))
        ({ s with waiting := none, waitingPaused := false }.start work) (some work)
  | cancel (work : Work) (hwork : s.waiting = some work) :
      Accepts s (.cancelWaiting (some work.runId)) (s.cancelWaiting work) none
  | reset (hidle : s.active = none) (hlost : s.contextLost = true) :
      Accepts s (.resetContext true)
        { s with nativeSessionId := none, nativeCreatedAtMs := none, contextLost := false } none

theorem filter_waiting {runId : Option String} {work : Work}
    (h : (s.waiting.filter fun work => some work.runId == runId) = some work) :
    s.waiting = some work ∧ runId = some work.runId := by
  obtain ⟨hwaiting, hrun⟩ := Option.filter_eq_some_iff.mp h
  exact ⟨hwaiting, (beq_iff_eq.mp hrun).symm⟩

theorem command_accepts {validate : Question → Json → Except String Json} {action : Action}
    {sender : String} (h : s.command validate action sender now = .ok (s', next)) :
    s.Accepts action s' next := by
  unfold command at h
  cases action with
  | answer runId questionId args =>
    obtain ⟨answered, hanswer, heq⟩ := Tx.except_bind_ok.mp h
    obtain ⟨questions, rfl⟩ := answer_moves hanswer
    cases heq
    exact .answer runId questionId args questions
  | stop runId =>
    dsimp only at h
    split at h
    · cases h
    · rename_i hgroup
      split at h
      · rename_i hnamed
        cases hactive : s.active with
        | none => simp [hactive] at hnamed
        | some work =>
          obtain rfl : some work.runId = runId := by simpa [hactive] using hnamed
          cases h
          exact .stop work hactive (by simpa using hgroup)
      · cases h
  | executeWaiting runId =>
    dsimp only at h
    split at h
    · cases h
    · rename_i hgroup
      split at h
      · rename_i work hwork
        obtain ⟨hwaiting, rfl⟩ := filter_waiting hwork
        unfold executeWaiting at h
        split at h
        · rename_i hbusy
          cases h
          exact .executeAfter work hwaiting hbusy (by simpa using hgroup)
        · rename_i hidle
          split at h
          · cases h
          · rename_i hcontext
            cases h
            exact .execute work hwaiting (by simpa using hidle) (by simpa using hcontext)
      · cases h
  | cancelWaiting runId =>
    dsimp only at h
    split at h
    · cases h
    · split at h
      · rename_i work hwork
        obtain ⟨hwaiting, rfl⟩ := filter_waiting hwork
        cases h
        exact .cancel work hwaiting
      · cases h
  | resetContext confirmed =>
    dsimp only at h
    split at h
    · cases h
    · rename_i hidle
      split at h
      · cases h
      · rename_i hreset
        cases h
        have hboth : s.contextLost = true ∧ confirmed = true := by simpa using hreset
        obtain ⟨hlost, rfl⟩ := hboth
        exact .reset (by simpa using hidle) hlost
  | unknown name => cases h

theorem Accepts.moves {action : Action} (h : s.Accepts action s' next) :
    s.Same s' ∧ s.Moves s' none := by
  cases h with
  | answer | stop | executeAfter => exact ⟨⟨rfl, rfl, rfl, rfl, rfl, rfl⟩, .stay rfl rfl rfl⟩
  | execute work hwork hidle =>
    exact ⟨⟨rfl, rfl, rfl, rfl, rfl, rfl⟩, .resume work hidle hwork rfl rfl rfl⟩
  | cancel work hwork =>
    have hleaves := leaves_capture { s with waiting := none } work .cancelled false rfl
    exact ⟨⟨rfl, rfl, rfl, rfl, rfl, rfl⟩, .cancel work _ hwork
      ⟨hleaves.1, hleaves.2, hleaves.3, hleaves.4⟩ rfl rfl rfl⟩
  | reset => exact ⟨⟨rfl, rfl, rfl, rfl, rfl, rfl⟩, .stay rfl rfl rfl⟩

theorem recover_moves (s : Session) : s.Same s.recover ∧ s.Moves s.recover none := by
  unfold recover
  cases hactive : s.active with
  | none =>
    have hclosed : (s.closeQuestions "task_interrupted").active = none := hactive
    simp only [hclosed]
    exact ⟨⟨rfl, rfl, rfl, rfl, rfl, rfl⟩, .stay hactive.symm rfl rfl⟩
  | some work =>
    have hclosed : (s.closeQuestions "task_interrupted").active = some work := hactive
    simp only [hclosed]
    have hleaves := leaves_capture { s.closeQuestions "task_interrupted" with active := none }
      work .interrupted true rfl
    exact ⟨⟨rfl, rfl, rfl, rfl, rfl, rfl⟩, .leave work _ hactive
      ⟨hleaves.1, hleaves.2, hleaves.3, hleaves.4⟩ rfl rfl rfl⟩

theorem requestShutdown_moves (s : Session) :
    s.Same s.requestShutdown ∧ s.Moves s.requestShutdown none := by
  unfold requestShutdown
  split
  · exact ⟨⟨rfl, rfl, rfl, rfl, rfl, rfl⟩, .stay rfl rfl rfl⟩
  · exact ⟨.refl s, .refl s⟩

structure Stays (s s' : Session) : Prop extends Same s s' where
  active : s'.active = s.active
  waiting : s'.waiting = s.waiting
  waitingPaused : s'.waitingPaused = s.waitingPaused
  pendingRecords : s'.pendingRecords = s.pendingRecords

structure Streams (s s' : Session) : Prop extends Stays s s' where
  stops : (s'.stopping = s.stopping ∧ s'.executeAfterStop = s.executeAfterStop) ∨
    (s'.stopping = true ∧ s'.executeAfterStop = false)
  loses : s'.contextLost = s.contextLost ∨ s'.contextLost = true

theorem Streams.of_output (h : Stays s s') (hstopping : s'.stopping = s.stopping)
    (hafter : s'.executeAfterStop = s.executeAfterStop) (hlost : s'.contextLost = s.contextLost) :
    s.Streams s' :=
  ⟨h, .inl ⟨hstopping, hafter⟩, .inl hlost⟩

theorem Streams.refl (s : Session) : s.Streams s :=
  .of_output ⟨.refl s, rfl, rfl, rfl, rfl⟩ rfl rfl rfl

theorem streamed_streams {f : Session → Except String Session} (h : s.streamed runId f = .ok s')
    (hf : ∀ s', f s = .ok s' → s.Streams s') :
    s.Streams s' := by
  unfold streamed at h
  split at h
  · exact hf s' h
  · cases h
    exact .refl s

theorem updateTool_streams (s : Session) (tool : Tool) : s.Streams (s.updateTool tool) := by
  unfold updateTool
  split
  · exact .of_output ⟨⟨rfl, rfl, rfl, rfl, rfl, rfl⟩, rfl, rfl, rfl, rfl⟩ rfl rfl rfl
  · split <;> exact .of_output ⟨⟨rfl, rfl, rfl, rfl, rfl, rfl⟩, rfl, rfl, rfl, rfl⟩ rfl rfl rfl

theorem ask_streams {sessionId : Option String} {question : Question}
    (h : s.ask runId sessionId question = .ok s') : s.Streams s' := by
  unfold ask at h
  split at h
  · cases h
  · split at h
    · split at h
      · cases h
        exact .refl s
      · cases h
    · split at h
      · cases h
      · cases h
        exact .of_output ⟨⟨rfl, rfl, rfl, rfl, rfl, rfl⟩, rfl, rfl, rfl, rfl⟩ rfl rfl rfl

theorem expire_streams {questionId : String} (h : s.expire questionId now = .ok s') :
    s.Streams s' := by
  unfold expire at h
  split at h
  · cases h
  · split at h
    · cases h
      exact .refl s
    · split at h
      · cases h
      · split at h
        · cases h
          exact .of_output ⟨⟨rfl, rfl, rfl, rfl, rfl, rfl⟩, rfl, rfl, rfl, rfl⟩ rfl rfl rfl
        · cases h
          exact .refl s

theorem stream_streams {change : Streaming} (h : s.stream change = .ok s') :
    s.Streams s' := by
  cases change with
  | restore | opened | configured | error =>
    cases h
    exact .of_output ⟨⟨rfl, rfl, rfl, rfl, rfl, rfl⟩, rfl, rfl, rfl, rfl⟩ rfl rfl rfl
  | text runId chunk =>
    rw [stream] at h
    refine streamed_streams h fun s' h => ?_
    split at h
    · cases h
    · cases h
      exact .of_output ⟨⟨rfl, rfl, rfl, rfl, rfl, rfl⟩, rfl, rfl, rfl, rfl⟩ rfl rfl rfl
  | tool runId tool =>
    rw [stream] at h
    refine streamed_streams h fun s' h => ?_
    cases h
    exact updateTool_streams s tool
  | configuration | currentModel | questionError =>
    rw [stream] at h
    refine streamed_streams h fun s' h => ?_
    cases h
    exact .of_output ⟨⟨rfl, rfl, rfl, rfl, rfl, rfl⟩, rfl, rfl, rfl, rfl⟩ rfl rfl rfl
  | turnError | runError =>
    simp only [stream] at h
    split at h
    · cases h
      exact .of_output ⟨⟨rfl, rfl, rfl, rfl, rfl, rfl⟩, rfl, rfl, rfl, rfl⟩ rfl rfl rfl
    · cases h
      exact .refl s
  | ask => exact ask_streams h
  | cancelQuestion =>
    rw [stream] at h
    refine streamed_streams h fun s' h => ?_
    split at h
    · cases h
      exact .refl s
    · cases h
      exact .of_output ⟨⟨rfl, rfl, rfl, rfl, rfl, rfl⟩, rfl, rfl, rfl, rfl⟩ rfl rfl rfl
  | expire => exact expire_streams h
  | contextLost =>
    simp only [stream] at h
    split at h
    · cases h
      exact ⟨⟨⟨rfl, rfl, rfl, rfl, rfl, rfl⟩, rfl, rfl, rfl, rfl⟩, .inl ⟨rfl, rfl⟩, .inr rfl⟩
    · cases h
      exact .refl s
  | configurationLost =>
    cases h
    exact ⟨⟨⟨rfl, rfl, rfl, rfl, rfl, rfl⟩, rfl, rfl, rfl, rfl⟩, .inl ⟨rfl, rfl⟩, .inr rfl⟩
  | fence =>
    cases h
    exact ⟨⟨⟨rfl, rfl, rfl, rfl, rfl, rfl⟩, rfl, rfl, rfl, rfl⟩, .inr ⟨rfl, rfl⟩, .inl rfl⟩

theorem Stays.moves (h : Stays s s') : s.Moves s' none :=
  .stay h.active h.waiting h.pendingRecords

end Session
end Acp
end Awiki

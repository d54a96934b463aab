import Awiki.AcpOperations

/-!
# Runs of the daemon on one session

The daemon works on a session from many threads: the control endpoint, the executor of a
task, the watchdogs of that executor, the flushes of the reply outbox, and the recovery after
a restart.  Each of their transactions is an `Operation`, and they interleave in any order.
-/

namespace Awiki
namespace Acp

open Tx

inductive Operation where
  | submit (work : Work)
  | complete (runId : String) (outcome : TaskState)
  | finishWithFinal (record : RuntimeFinalOutboxRecord) (now : Int)
  | control (agent sender commandId : String) (args : ControlArgs) (scope : Except String String)
      (now : Int)
  | recover
  | requestShutdown
  | stream (change : Session.Streaming)
  | markSending (idempotencyKey : String) (now : Int)
  | markSent (idempotencyKey : String) (messageId : Option String) (now : Int)
  | markRetry (idempotencyKey : String) (nextAttemptAtMs : Int) (errorCode errorSummary : String)
      (now : Int)
  | markFailedTerminal (idempotencyKey errorCode errorSummary : String) (now : Int)
  | recoverStaleSending (staleBeforeMs nextAttemptAtMs now : Int)
  | insertRun (run : RuntimeRun)
  | markRunning (runId : String) (now : Int)
  | finishRun (runId : String) (now : Int)
  | failRun (runId : String) (now : Int)
  | recoverRuns (staleBeforeMs now : Int)

inductive Reply where
  | admitted (leads : Bool)
  | completed (next : Option Work)
  | finished (cancelled : Bool) (next : Option Work)
  | controlled (snapshot : SessionSnapshot) (work : Option Work)
  | updated (changed : Bool)
  | done

def Operation.admitted : Operation → Option Work
  | .submit work => some work
  | _ => none

section Performing

variable (key : String) (validate : Question → Json → Except String Json)

def Operation.perform : Operation → Tx String AcpDb Reply
  | .submit work => do
      let leads ← mutate (some (Session.new key work.task)) (·.submit work)
      return .admitted leads
  | .complete runId outcome => do
      let next ← mutate none (·.complete runId outcome)
      return .completed next
  | .finishWithFinal record now => do
      let (cancelled, next) ← Acp.finishWithFinal record now
      return .finished cancelled next
  | .control agent sender commandId args scope now => do
      let (snapshot, work) ← Acp.control validate agent sender commandId args scope now
      return .controlled snapshot work
  | .recover => do
      mutate none fun s => .ok (s.recover, ())
      return .done
  | .requestShutdown => do
      mutate none fun s => .ok (s.requestShutdown, ())
      return .done
  | .stream change => do
      mutate none fun s => do
        let s ← s.stream change
        return (s, ())
      return .done
  | .markSending idempotencyKey now => return .updated (← Acp.markSending idempotencyKey now)
  | .markSent idempotencyKey messageId now =>
    return .updated (← Acp.markSent idempotencyKey messageId now)
  | .markRetry idempotencyKey nextAttemptAtMs errorCode errorSummary now => do
      Acp.markRetry idempotencyKey nextAttemptAtMs errorCode errorSummary now
      return .done
  | .markFailedTerminal idempotencyKey errorCode errorSummary now =>
    return .updated (← Acp.markFailedTerminal idempotencyKey errorCode errorSummary now)
  | .recoverStaleSending staleBeforeMs nextAttemptAtMs now => do
      Acp.recoverStaleSending staleBeforeMs nextAttemptAtMs now
      return .done
  | .insertRun run => return .updated (← tryInsertRun run)
  | .markRunning runId now => return .updated (← Acp.markRunning runId now)
  | .finishRun runId now => return .updated (← finishActiveRun runId now)
  | .failRun runId now => return .updated (← failActiveRun runId now)
  | .recoverRuns staleBeforeMs now => do
      recoverStaleRuns staleBeforeMs now
      return .done

end Performing

/-! ## Effects -/

/-- Two records of one task that differ at most in the delivery of its reply. -/
def SameTasks (old new : Option TaskRecord) : Prop :=
  ∃ f : TaskRecord → Delivery × Nat,
    new = old.map fun record => { record with delivery := (f record).1, revision := (f record).2 }

theorem SameTasks.refl (old : Option TaskRecord) : SameTasks old old :=
  ⟨fun record => (record.delivery, record.revision), by cases old <;> rfl⟩

theorem SameTasks.ended {old new : Option TaskRecord} (h : SameTasks old new) :
    Acp.ended new = Acp.ended old := by
  obtain ⟨f, rfl⟩ := h
  cases old <;> rfl

theorem SameTasks.map {g : TaskRecord → TaskRecord} {old : Option TaskRecord}
    (hg : ∀ record, g record =
      { record with delivery := (g record).delivery, revision := (g record).revision }) :
    SameTasks old (old.map g) := by
  refine ⟨fun record => ((g record).delivery, (g record).revision), ?_⟩
  exact congrArg (Option.map · old) (funext hg)

/-- The task and the reply that `finish_with_final` compares. -/
structure Replying (s : Session) (work : Work) (record : RuntimeFinalOutboxRecord) : Prop where
  active : s.active = some work
  runId : work.runId = record.runId
  sessionAgent : s.agentDid = record.agentDid
  sessionScope : s.controllerScopeKey = record.controllerScopeKey
  agentDid : work.task.agentDid = record.agentDid
  controllerScopeKey : work.task.controllerScopeKey = record.controllerScopeKey
  conversationId : work.task.conversationId = record.conversationId
  recipientDid : work.task.replyRecipientDid = record.recipientDid
  controllerDid : work.task.controllerDid = record.controllerDid

inductive Operation.Changes : Operation → Session → Session → Prop
  | submit {work : Work} {s s' : Session} {leads : Bool}
      (h : s.submit work = .ok (s', leads)) : Changes (.submit work) s s'
  | complete {runId : String} {outcome : TaskState} {s s' : Session} {next : Option Work}
      (houtcome : outcome.terminal = true) (h : s.complete runId outcome = .ok (s', next)) :
      Changes (.complete runId outcome) s s'
  | finish {record : RuntimeFinalOutboxRecord} {now : Int} {s s' : Session} {work : Work}
      {next : Option Work} (hreplying : Replying s work record)
      (h : s.complete record.runId (if s.stopping then .cancelled else .finished) =
        .ok (s', next)) : Changes (.finishWithFinal record now) s s'
  | control {agent sender commandId : String} {args : ControlArgs} {scope : Except String String}
      {now : Int} {s s' : Session} {action : Session.Action} {work : Option Work}
      (haction : args.action = some action) (h : s.Accepts action s' work) :
      Changes (.control agent sender commandId args scope now) s s'
  | recover (s : Session) : Changes .recover s s.recover
  | requestShutdown (s : Session) : Changes .requestShutdown s s.requestShutdown
  | stream {change : Session.Streaming} {s s' : Session} (h : s.stream change = .ok s') :
      Changes (.stream change) s s'

variable {op : Operation} {α : Type} {db db' : AcpDb} {γ : Type} {f : AcpDb → γ} {now : Int}
  {idempotencyKey : String} {allowed : FinalOutboxStatus → Bool} {updated : Bool}

theorem Operation.Changes.moves {s s' : Session} (h : op.Changes s s') :
    s.Same s' ∧ s.Moves s' op.admitted := by
  cases h with
  | submit h => exact Session.submit_moves h
  | complete houtcome h => exact Session.complete_moves houtcome h
  | finish hreplying h => exact Session.complete_moves (by split <;> rfl) h
  | control haction h => exact h.moves
  | recover => exact s.recover_moves
  | requestShutdown => exact s.requestShutdown_moves
  | stream h =>
    have hstays := (Session.stream_streams h).toStays
    exact ⟨hstays.toSame, hstays.moves⟩

structure ReplyBinding where
  idempotencyKey : String
  runId : String
  agentDid : String
  controllerScopeKey : String
  controllerDid : String
  recipientDid : String
  conversationId : Option String
  security : RuntimeMessageSecurity

def RuntimeFinalOutboxRecord.binding (row : RuntimeFinalOutboxRecord) : ReplyBinding where
  idempotencyKey := row.idempotencyKey
  runId := row.runId
  agentDid := row.agentDid
  controllerScopeKey := row.controllerScopeKey
  controllerDid := row.controllerDid
  recipientDid := row.recipientDid
  conversationId := row.conversationId
  security := row.security

def Operation.replies (op : Operation) (s : Session) (rows : List RuntimeFinalOutboxRecord) :
    List RuntimeFinalOutboxRecord :=
  match op with
  | .finishWithFinal record now =>
    if s.stopping then rows
    else
      Rows.upsertWhere (·.idempotencyKey == record.idempotencyKey) (record.inserted now)
        (·.replaced record now) rows
  | _ => rows

def Operation.closes : Operation → Bool
  | .markSent .. | .markFailedTerminal .. => true
  | _ => false

def Operation.delivered (op : Operation) (rows : List RuntimeFinalOutboxRecord) :
    List RuntimeFinalOutboxRecord :=
  match op with
  | .markSending key now =>
    Rows.updateWhere (fun row => row.idempotencyKey == key && row.status == .pending)
      (·.sending now) rows
  | .markSent key messageId now =>
    Rows.updateWhere (fun row => row.idempotencyKey == key && row.status == .sending)
      (·.sent messageId now) rows
  | .markRetry key nextAttemptAtMs errorCode errorSummary now =>
    Rows.updateWhere (fun row => row.idempotencyKey == key && row.status == .sending)
      (·.retried nextAttemptAtMs errorCode errorSummary now) rows
  | .markFailedTerminal key errorCode errorSummary now =>
    Rows.updateWhere (fun row => row.idempotencyKey == key && row.status.isOpen)
      (·.failed errorCode errorSummary now) rows
  | .recoverStaleSending staleBeforeMs nextAttemptAtMs now =>
    Rows.updateWhere (·.stale staleBeforeMs) (·.recovered nextAttemptAtMs now) rows
  | _ => rows

theorem Operation.delivered_binding (op : Operation) (rows : List RuntimeFinalOutboxRecord) :
    (op.delivered rows).map (·.binding) = rows.map (·.binding) := by
  unfold Operation.delivered
  split
  iterate 5
    · apply Rows.map_updateWhere
      exact fun _ => rfl
  · rfl

inductive Effect (db db' : AcpDb) (op : Operation) : Prop
  | still (hnone : op.admitted = none) (hsession : db'.session = db.session)
      (hrecords : ∀ runId, SameTasks (db.record? runId) (db'.record? runId))
      (hrows : db'.outbox = op.delivered db.outbox)
      (hkept : op.closes = false → ∀ runId, db'.record? runId = db.record? runId) :
      Effect db db' op
  | moved (s s' : Session)
      (hrow : db.session = some s ∨ (db.session = none ∧ s.active = none ∧ s.waiting = none))
      (hpending : s.pendingRecords = []) (hchange : op.Changes s s')
      (hsession : db'.session = some s'.saved)
      (hrecords : ∀ runId, db'.record? runId = writes s'.savedRecords runId (db.record? runId))
      (hrows : db'.outbox = op.replies s db.outbox) : Effect db db' op

theorem Effect.refl (db : AcpDb) (h : op.admitted = none)
    (hrows : op.delivered db.outbox = db.outbox) : Effect db db op :=
  .still h rfl (fun _ => .refl _) hrows.symm fun _ _ => rfl

def Clean (db : AcpDb) : Prop := ∀ s, db.session = some s → s.pendingRecords = []

theorem mutate_effect {seed : Option Session} {f : Session → Except String (Session × α)} {a : α}
    (hclean : Clean db)
    (hseed : ∀ s, seed = some s → s.active = none ∧ s.waiting = none ∧ s.pendingRecords = [])
    (hf : ∀ s s' a, f s = .ok (s', a) → op.Changes s s')
    (hrows : ∀ s rows, op.replies s rows = rows) (hdelivered : ∀ rows, op.delivered rows = rows)
    (h : (mutate seed f).run db = .ok a db') : Effect db db' op := by
  obtain ⟨s, s', hs, hresult, hcases⟩ := mutate_ok h
  have hchange := hf s s' a hresult
  have hrow : (db.session = some s ∨ (db.session = none ∧ s.active = none ∧ s.waiting = none)) ∧
      s.pendingRecords = [] := by
    cases hsession : db.session with
    | some row =>
      rw [hsession] at hs
      cases hs
      exact ⟨.inl rfl, hclean _ hsession⟩
    | none =>
      rw [hsession] at hs
      obtain ⟨hactive, hwaiting, hpending⟩ := hseed s hs
      exact ⟨.inr ⟨rfl, hactive, hwaiting⟩, hpending⟩
  rcases hcases with ⟨hunchanged, rfl⟩ | hsaves
  · -- the session is serialized as before, so no task moved
    have hslots : s.active = s'.active ∧ s.waiting = s'.waiting := by
      rw [hunchanged] at hs
      cases hs
      exact ⟨rfl, rfl⟩
    have hmoves := hchange.moves.2
    generalize hadmitted : op.admitted = admitted at hmoves
    cases hmoves with
    | stay => exact .refl _ hadmitted (hdelivered _)
    | enter work hidle _ hactive => simp [hidle, hactive] at hslots
    | queue work _ hnone _ hwaiting => simp [hnone, hwaiting] at hslots
    | leave work record hwork _ hactive => simp [hwork, hactive] at hslots
    | follow work next record _ hnext _ _ hwaiting => simp [hnext, hwaiting] at hslots
    | cancel work record hwork _ _ hwaiting => simp [hwork, hwaiting] at hslots
    | resume work hidle _ hactive => simp [hidle, hactive] at hslots
  · exact .moved s s' hrow.1 hrow.2 hchange hsaves.session hsaves.records
      (hsaves.outbox.trans (hrows s _).symm)

theorem upsert_keeps (hf : ∀ db outbox, f { db with outbox } = f db)
    (record : RuntimeFinalOutboxRecord) (now : Int) :
    Keeps (upsertRuntimeFinalOutboxPending record now) f := by
  unfold upsertRuntimeFinalOutboxPending
  refine .bind .attempt fun _ => .bind .refuseIf fun _ => .bind .refuseIf fun _ => ?_
  refine .bind (.query _) fun _ => ?_
  dsimp only
  exact .bind .refuseIf fun _ => .execute fun db => hf db _

theorem upsert_ok {record : RuntimeFinalOutboxRecord}
    (h : (upsertRuntimeFinalOutboxPending record now).run db = .ok () db') :
    db'.outbox = Rows.upsertWhere (·.idempotencyKey == record.idempotencyKey)
      (record.inserted now) (·.replaced record now) db.outbox := by
  have hensures : Ensures (upsertRuntimeFinalOutboxPending record now) db fun _ db' =>
      db'.outbox = Rows.upsertWhere (·.idempotencyKey == record.idempotencyKey)
        (record.inserted now) (·.replaced record now) db.outbox := by
    unfold upsertRuntimeFinalOutboxPending
    refine Ensures.bind_attempt fun _ _ => Ensures.bind_refuseIf fun _ => ?_
    refine Ensures.bind_refuseIf fun _ => Ensures.bind_query ?_
    dsimp only
    refine Ensures.bind_refuseIf fun _ _ db' hrun => ?_
    obtain rfl := execute_ok.mp hrun
    rfl
  exact hensures () db' h

/-- What `finish_with_final` does. -/
structure Finishes (record : RuntimeFinalOutboxRecord) (now : Int) (db db' : AcpDb)
    (cancelled : Bool) (next : Option Work) (s s' : Session) (work : Work) : Prop where
  session : db.session = some s
  replying : Replying s work record
  cancelled : cancelled = s.stopping
  complete : s.complete record.runId (if s.stopping then .cancelled else .finished) =
    .ok (s', next)
  session' : db'.session = some s'.saved
  records : ∀ runId, db'.record? runId = writes s'.savedRecords runId (db.record? runId)
  outbox : db'.outbox = (Operation.finishWithFinal record now).replies s db.outbox
  runs : db'.runs = db.runs

theorem finishWithFinal_ok {record : RuntimeFinalOutboxRecord} {cancelled : Bool}
    {next : Option Work} (h : (finishWithFinal record now).run db = .ok (cancelled, next) db') :
    ∃ s s' work, Finishes record now db db' cancelled next s s' work := by
  have hensures : Ensures (finishWithFinal record now) db fun reply db' =>
      ∃ s s' work, Finishes record now db db' reply.1 reply.2 s s' work := by
    apply Ensures.immediate
    refine Ensures.bind_query (Ensures.bind_orError fun s hs => ?_)
    refine Ensures.bind_refuseIf fun hrun => Ensures.bind_orError fun work hwork => ?_
    dsimp only
    refine Ensures.bind_refuseIf fun hmatch => ?_
    simp only [Bool.or_eq_false_iff, bne_eq_false_iff_eq] at hmatch
    obtain ⟨⟨⟨⟨⟨⟨⟨hagent', hscope'⟩, hagent⟩, hscope⟩, -⟩, hconversation⟩, hrecipient⟩,
      hcontroller⟩ := hmatch
    have hrunId : work.runId = record.runId := by simpa [Session.activeRun, hwork] using hrun
    have hreplying : Replying s work record := ⟨hwork, hrunId, hagent', hscope', hagent, hscope,
      hconversation, hrecipient, hcontroller⟩
    -- what follows is the same whether a reply was queued or not
    have hends : ∀ (t : AcpDb) (outcome : TaskState),
        outcome = (if s.stopping then .cancelled else .finished) → t.records = db.records →
        t.outbox = (Operation.finishWithFinal record now).replies s db.outbox → t.runs = db.runs →
        Ensures (do
          let result ← attempt (s.complete record.runId outcome)
          let _ ← save result.1
          return Ending.commit (s.stopping, result.2)) t fun ending db' =>
            ∃ reply, ending = .commit reply ∧
              ∃ s s' work, Finishes record now db db' reply.1 reply.2 s s' work := by
      intro t outcome houtcome hrecords houtbox hruns
      subst houtcome
      refine Ensures.bind_attempt fun result hresult => ?_
      obtain ⟨s', next'⟩ := result
      refine Ensures.bind fun _ u hsave => Ensures.pure ⟨(s.stopping, next'), rfl, s, s', work, ?_⟩
      obtain ⟨-, hsaves⟩ := save_ensures s' t _ u hsave
      refine ⟨hs, hreplying, rfl, hresult, hsaves.session, fun runId => ?_,
        hsaves.outbox.trans houtbox, hsaves.runs.trans hruns⟩
      rw [hsaves.records runId]
      unfold AcpDb.record?
      rw [hrecords]
    split
    · rename_i hstopping
      exact hends db _ (if_pos hstopping).symm rfl (if_pos hstopping).symm rfl
    · rename_i hstopping
      refine Ensures.bind fun _ t hupsert => ?_
      exact hends t _ (if_neg hstopping).symm
        (upsert_keeps (fun _ _ => rfl) record now _ _ _ hupsert)
        ((upsert_ok hupsert).trans (if_neg hstopping).symm)
        (upsert_keeps (f := AcpDb.runs) (fun _ _ => rfl) record now _ _ _ hupsert)
  exact hensures _ db' h

def Session.Action.runs (action : Session.Action) (runs : List RuntimeRun) : List RuntimeRun :=
  match action with
  | .cancelWaiting runId => failPendingRun runId runs
  | _ => runs

/-- What an accepted `control` command does. -/
structure Controls (args : ControlArgs) (db db' : AcpDb) (work : Option Work) (s s' : Session)
    (action : Session.Action) : Prop where
  session : db.session = some s
  accepts : s.Accepts action s' work
  named : args.action = some action
  session' : db'.session = some s'.saved
  records : ∀ runId, db'.record? runId = writes s'.savedRecords runId (db.record? runId)
  outbox : db'.outbox = db.outbox
  commands : db'.commands.length = db.commands.length + 1
  runs : db'.runs = action.runs db.runs

theorem checkRevision_action {s : Session} {args : ControlArgs} {action : Session.Action}
    (h : checkRevision s args = .ok action) : args.action = some action := by
  unfold checkRevision at h
  split at h
  · cases h
  · rename_i seen hseen
    split at h
    · split at h
      · cases h
      · cases h
        exact hseen
    · split at h
      · cases h
      · split at h
        · cases h
        · cases h
          exact hseen

theorem control_ok {validate : Question → Json → Except String Json}
    {agent sender commandId : String} {args : ControlArgs} {scope : Except String String}
    {snapshot : SessionSnapshot} {work : Option Work}
    (h : (control validate agent sender commandId args scope now).run db =
      .ok (snapshot, work) db') :
    (db' = db ∧ work = none) ∨ ∃ s s' action, Controls args db db' work s s' action := by
  have hensures : Ensures (control validate agent sender commandId args scope now) db
      fun reply db' => (db' = db ∧ reply.2 = none) ∨
        ∃ s s' action, Controls args db db' reply.2 s s' action := by
    unfold control
    apply Ensures.immediate_or_rollback
    refine Ensures.bind_orError fun key _ => Ensures.bind_query ?_
    split
    · refine Ensures.ite .throw ?_
      exact Ensures.pure ⟨_, .inr ⟨rfl, .inl ⟨rfl, rfl⟩⟩⟩
    · refine Ensures.bind_query (Ensures.bind_orError fun s hs => Ensures.bind_attempt fun _ _ => ?_)
      obtain ⟨hsession, -⟩ := Option.filter_eq_some_iff.mp hs
      refine Ensures.bind_refuseIf fun _ => Ensures.bind_attempt fun action haction => ?_
      refine Ensures.bind_attempt fun result hresult => ?_
      obtain ⟨s', next⟩ := result
      have haccepts := Session.command_accepts hresult
      -- the end is the same for every action, from a store where only runs may have changed
      have hends : ∀ runs, runs = action.runs db.runs → Ensures (do
          let saved ← save s'
          execute fun db =>
            { db with
              commands := db.commands ++
                [{ commandId, agentDid := agent, sender, args, result := saved.snapshot }] }
          return Ending.commit (saved.snapshot, next)) { db with runs := runs } fun ending t =>
            ∃ reply, (ending = .commit reply ∧ ((t = db ∧ reply.2 = none) ∨
                ∃ s s' action, Controls args db t reply.2 s s' action)) ∨
              (ending = .rollback reply ∧ ((db = db ∧ reply.2 = none) ∨
                ∃ s s' action, Controls args db db reply.2 s s' action)) := by
        intro runs hruns
        refine Ensures.bind fun saved t hsave => Ensures.bind_execute (Ensures.pure ?_)
        obtain ⟨rfl, hsaves⟩ := save_ensures s' _ _ t hsave
        refine ⟨_, .inl ⟨rfl, .inr ⟨s, s', action, hsession, haccepts, ?_, ?_, ?_, ?_, ?_,
          hsaves.runs.trans hruns⟩⟩⟩
        · exact checkRevision_action haction
        · exact hsaves.session
        · exact hsaves.records
        · exact hsaves.outbox
        · simp [hsaves.commands]
      dsimp only
      split
      · exact Ensures.bind_execute (hends _ rfl)
      · rename_i hother
        refine hends _ ?_
        unfold Session.Action.runs
        split
        · exact absurd rfl (hother _)
        · rfl
  exact hensures _ db' h

/-! ## Delivery -/

def TaskRecord.delivered (record : TaskRecord) (state : DeliveryState)
    (messageId : Option String) : TaskRecord :=
  if record.delivery.state = state then record
  else
    { record with
      delivery := { state := state, messageId := messageId }
      revision := record.revision + 1 }

theorem TaskRecord.delivered_eq (record : TaskRecord) (state : DeliveryState)
    (messageId : Option String) :
    record.delivered state messageId =
      { record with
        delivery := (record.delivered state messageId).delivery
        revision := (record.delivered state messageId).revision } := by
  by_cases hsame : record.delivery.state = state <;> simp [TaskRecord.delivered, hsame]

/-- What `delivery_in` does. -/
structure Delivers (idempotencyKey : String) (state : DeliveryState) (messageId : Option String)
    (db db' : AcpDb) (row : RuntimeFinalOutboxRecord) : Prop where
  rest : db'.rest = db.rest
  finished : ∀ record, db.record? row.runId = some record →
    record.delivery.state = state ∨ record.state = .finished
  records : ∀ runId, db'.record? runId =
    (db.record? runId).map fun record =>
      if runId = row.runId then record.delivered state messageId else record
  listed : db.outbox.find? (·.idempotencyKey == idempotencyKey) = some row

theorem record?_update (db : AcpDb) {old new : TaskRecord} {run : String}
    (hold : db.record? run = some old) (hnew : new.runId = run) (runId : String) :
    { db with
      records := Rows.updateWhere (·.runId == run) (fun _ => new) db.records }.record? runId =
      (db.record? runId).map fun record => if runId = run then new else record := by
  unfold AcpDb.record? at hold ⊢
  by_cases hrun : runId = run
  · subst hrun
    rw [Rows.find?_updateWhere_self (by simpa using hnew)]
    simp [hold]
  · rw [Rows.find?_updateWhere_of_ne]
    · simp [hrun]
    · intro row hrow
      rw [beq_iff_eq.mp hrow]
      simpa using Ne.symm hrun
    · intro row _
      simpa [hnew] using Ne.symm hrun

theorem deliveryIn_ensures (idempotencyKey : String) (state : DeliveryState)
    (messageId : Option String) (db : AcpDb) :
    Ensures (deliveryIn idempotencyKey state messageId) db fun _ db' =>
      ∃ row, Delivers idempotencyKey state messageId db db' row := by
  unfold deliveryIn
  refine Ensures.bind_query (Ensures.bind_orError fun row hrow => Ensures.bind_query ?_)
  split
  · rename_i hnone
    refine Ensures.pure ⟨row, rfl, by simp [hnone], fun runId => ?_, hrow⟩
    by_cases hrun : runId = row.runId
    · simp [hrun, hnone]
    · simp [hrun]
  · rename_i record hrecord
    split
    · rename_i hsame
      refine Ensures.pure ⟨row, rfl, by simp [hrecord, hsame], fun runId => ?_, hrow⟩
      by_cases hrun : runId = row.runId
      · simp [hrun, hrecord, TaskRecord.delivered, hsame]
      · simp [hrun]
    · rename_i hother
      split
      · exact .throw
      · rename_i hfinished
        refine Ensures.bind_execute fun _ db' hqueue => ?_
        have hrest := queue_keeps (f := AcpDb.rest) (fun _ _ => rfl) _ _ _ _ _ hqueue
        have hrecords := queue_keeps (f := AcpDb.record?) (fun _ _ => rfl) _ _ _ _ _ hqueue
        refine ⟨row, hrest, ?_, fun runId => ?_, hrow⟩
        · intro record' hrecord'
          cases hrecord.symm.trans hrecord'
          exact .inr (not_not.mp hfinished)
        · rw [hrecords, record?_update db hrecord ?_ runId]
          · by_cases hrun : runId = row.runId
            · simp [hrun, hrecord, TaskRecord.delivered, hother]
            · simp [hrun]
          · simpa using List.find?_some hrecord

theorem deliveryIn_agrees (idempotencyKey : String) (state : DeliveryState)
    (messageId : Option String) :
    Preserves EventsAgree (deliveryIn idempotencyKey state messageId) := by
  intro db a db' h hrun
  have hensures : Ensures (deliveryIn idempotencyKey state messageId) db
      fun _ db' => EventsAgree db' := by
    unfold deliveryIn
    refine Ensures.bind_query (Ensures.bind_orError fun row _ => Ensures.bind_query ?_)
    split
    · exact Ensures.pure h
    · rename_i record hrecord
      refine Ensures.ite (Ensures.pure h) (Ensures.ite .throw ?_)
      refine Ensures.bind_execute fun a db' hqueue => ?_
      refine queue_agrees (fun runId => deliveryEventId_ne _ runId _) _ _ a db' ?_ hqueue
      refine ⟨fun runId => ?_, h.kinds⟩
      rw [record?_update db hrecord (by simpa using List.find?_some hrecord) runId]
      refine (h.counted runId).trans ?_
      by_cases hrunId : runId = row.runId
      · simp [hrunId, hrecord, announced]
      · simp [hrunId]
  exact hensures a db' hrun

/-! ## The operations -/

theorem updateOutbox_keeps (hf : ∀ db outbox, f { db with outbox } = f db) (idempotencyKey : String)
    (allowed : FinalOutboxStatus → Bool) (g : RuntimeFinalOutboxRecord → RuntimeFinalOutboxRecord) :
    Keeps (updateOutbox idempotencyKey allowed g) f := by
  unfold updateOutbox
  dsimp only
  exact .bind (.query _) fun _ => .reply (.execute fun db => hf db _)

theorem updateRunStatus_keeps (hf : ∀ db runs, f { db with runs } = f db) (runId : String)
    (allowed : RuntimeRunStatus → Bool) (status : RuntimeRunStatus) (now : Int) :
    Keeps (updateRunStatus runId allowed status now) f := by
  unfold updateRunStatus
  dsimp only
  refine .bind (.query _) fun _ => .bind .refuseIf fun _ => .bind (.query _) fun _ => ?_
  exact .reply (.execute fun db => hf db _)

theorem updateOutbox_ok {g : RuntimeFinalOutboxRecord → RuntimeFinalOutboxRecord}
    (h : (updateOutbox idempotencyKey allowed g).run db = .ok updated db') :
    updated = (db.outbox.any fun row =>
        row.idempotencyKey == idempotencyKey && allowed row.status) ∧
      db' = { db with
        outbox := Rows.updateWhere
          (fun row => row.idempotencyKey == idempotencyKey && allowed row.status) g db.outbox } := by
  obtain ⟨_, rfl, hrest⟩ := query_bind_ok.mp h
  have hreply := execute_bind_ok.mp hrest
  obtain ⟨rfl, rfl⟩ := pure_ok.mp hreply
  exact ⟨rfl, rfl⟩

theorem Effect.of_same (hnone : op.admitted = none)
    (hsame : (db'.session, db'.records) = (db.session, db.records))
    (hrows : db'.outbox = op.delivered db.outbox) : Effect db db' op := by
  obtain ⟨hsession, hrecords⟩ := Prod.mk.injEq .. |>.mp hsame
  have hlookup : ∀ runId, db'.record? runId = db.record? runId := by
    intro runId
    unfold AcpDb.record?
    rw [hrecords]
  refine .still hnone hsession (fun runId => ?_) hrows fun _ => hlookup
  rw [hlookup]
  exact .refl _

section

variable {f : RuntimeFinalOutboxRecord → RuntimeFinalOutboxRecord}

theorem closeOutbox_ok {state : DeliveryState} {messageId : Option String}
    (h : (closeOutbox idempotencyKey allowed f state messageId).run db = .ok updated db') :
    db'.session = db.session ∧
      db'.outbox = Rows.updateWhere
        (fun row => row.idempotencyKey == idempotencyKey && allowed row.status) f db.outbox ∧
      ((updated = false ∧ db'.records = db.records ∧ db'.outbox = db.outbox) ∨
        (updated = true ∧
          (db.outbox.any fun row => row.idempotencyKey == idempotencyKey && allowed row.status) ∧
          ∃ row, db'.outbox.find? (·.idempotencyKey == idempotencyKey) = some row ∧
            ∀ runId, db'.record? runId = (db.record? runId).map fun record =>
              if runId = row.runId then record.delivered state messageId else record)) := by
  revert h
  apply Ensures.immediate
  refine Ensures.bind fun updated t hupdate => ?_
  obtain ⟨hupdated, rfl⟩ := updateOutbox_ok hupdate
  split
  · rename_i hsome
    refine Ensures.bind fun _ u hdelivery => Ensures.pure ⟨true, rfl, ?_⟩
    obtain ⟨row, hrest, -, hdelivered, hlisted⟩ := deliveryIn_ensures _ _ _ _ _ u hdelivery
    simp only [AcpDb.rest, Prod.mk.injEq] at hrest
    refine ⟨hrest.1, hrest.2.2.1, .inr ⟨rfl, hupdated.symm.trans hsome, row, ?_, hdelivered⟩⟩
    rw [hrest.2.2.1]
    exact hlisted
  · rename_i hnone
    unfold ensureOutboxExists
    refine Ensures.bind fun _ u hexists => Ensures.pure ⟨false, rfl, ?_⟩
    obtain ⟨_, -, hrefuse⟩ := query_bind_ok.mp hexists
    obtain ⟨-, rfl⟩ := refuseIf_ok.mp hrefuse
    refine ⟨rfl, rfl, .inl ⟨rfl, rfl, ?_⟩⟩
    rw [Bool.not_eq_true] at hnone
    exact Rows.updateWhere_of_none (hupdated.symm.trans hnone) _

theorem closeOutbox_effect {state : DeliveryState} {messageId : Option String}
    (hnone : op.admitted = none) (hcloses : op.closes = true)
    (h : (closeOutbox idempotencyKey allowed f state messageId).run db = .ok updated db')
    (hrows : Rows.updateWhere
      (fun row => row.idempotencyKey == idempotencyKey && allowed row.status) f db.outbox =
        op.delivered db.outbox) : Effect db db' op := by
  obtain ⟨hsession, houtbox, hrecords⟩ := closeOutbox_ok h
  refine .still hnone hsession (fun runId => ?_) (houtbox.trans hrows) fun hfalse => ?_
  · rcases hrecords with ⟨-, hsame, -⟩ | ⟨-, -, row, -, hdelivered⟩
    · unfold AcpDb.record?
      rw [hsame]
      exact .refl _
    · rw [hdelivered runId]
      refine .map fun record => ?_
      split
      · exact record.delivered_eq state messageId
      · rfl
  · rw [hcloses] at hfalse
    cases hfalse

end

theorem updateRunStatus_effect {runId : String} {allowed : RuntimeRunStatus → Bool}
    {status : RuntimeRunStatus} (hnone : op.admitted = none)
    (hrows : ∀ rows, op.delivered rows = rows)
    (h : (updateRunStatus runId allowed status now).run db = .ok updated db') : Effect db db' op :=
  .of_same hnone
    (updateRunStatus_keeps (f := fun db => (db.session, db.records)) (fun _ _ => rfl)
      _ _ _ _ _ _ _ h)
    ((updateRunStatus_keeps (f := AcpDb.outbox) (fun _ _ => rfl) _ _ _ _ _ _ _ h).trans
      (hrows _).symm)

def Operation.wellFormed : Operation → Bool
  | .complete _ outcome => outcome.terminal
  | _ => true

section Performing

variable {key : String} {validate : Question → Json → Except String Json}

theorem Operation.perform_effect {op : Operation} {db db' : AcpDb} {reply : Reply}
    (hop : op.wellFormed = true) (hclean : Clean db)
    (h : (op.perform key validate).run db = .ok reply db') : Effect db db' op := by
  cases op with
  | submit work =>
    obtain ⟨leads, hmutate, -⟩ := bind_pure_ok.mp h
    refine mutate_effect hclean ?_ (fun s s' a hf => .submit hf) (fun _ _ => rfl)
      (fun _ => rfl) hmutate
    rintro s ⟨⟩
    exact ⟨rfl, rfl, rfl⟩
  | complete runId outcome =>
    obtain ⟨next, hmutate, -⟩ := bind_pure_ok.mp h
    exact mutate_effect hclean (fun _ hs => by cases hs) (fun s s' a hf => .complete hop hf)
      (fun _ _ => rfl) (fun _ => rfl) hmutate
  | finishWithFinal record now =>
    obtain ⟨⟨cancelled, next⟩, t, hfinish, hreply⟩ := bind_ok.mp h
    obtain ⟨-, rfl⟩ := pure_ok.mp hreply
    obtain ⟨s, s', work, hfinishes⟩ := finishWithFinal_ok hfinish
    exact .moved s s' (.inl hfinishes.session) (hclean s hfinishes.session)
      (.finish hfinishes.replying hfinishes.complete) hfinishes.session' hfinishes.records
      hfinishes.outbox
  | control agent sender commandId args scope now =>
    obtain ⟨⟨snapshot, work⟩, t, hcontrol, hreply⟩ := bind_ok.mp h
    obtain ⟨-, rfl⟩ := pure_ok.mp hreply
    rcases control_ok hcontrol with ⟨rfl, -⟩ | ⟨s, s', action, hcontrols⟩
    · exact .refl _ rfl rfl
    · exact .moved s s' (.inl hcontrols.session) (hclean s hcontrols.session)
        (.control hcontrols.named hcontrols.accepts) hcontrols.session' hcontrols.records
        hcontrols.outbox
  | recover =>
    obtain ⟨_, hmutate, -⟩ := bind_pure_ok.mp h
    refine mutate_effect hclean (fun _ hs => by cases hs) ?_ (fun _ _ => rfl) (fun _ => rfl) hmutate
    rintro s s' a ⟨⟩
    exact .recover s
  | requestShutdown =>
    obtain ⟨_, hmutate, -⟩ := bind_pure_ok.mp h
    refine mutate_effect hclean (fun _ hs => by cases hs) ?_ (fun _ _ => rfl) (fun _ => rfl) hmutate
    rintro s s' a ⟨⟩
    exact .requestShutdown s
  | stream change =>
    obtain ⟨_, hmutate, -⟩ := bind_pure_ok.mp h
    refine mutate_effect hclean (fun _ hs => by cases hs) ?_ (fun _ _ => rfl) (fun _ => rfl) hmutate
    intro s s' a hf
    obtain ⟨streamed, hstream, heq⟩ := except_bind_ok.mp hf
    cases heq
    exact .stream hstream
  | markSending idempotencyKey now =>
    obtain ⟨_, hmark, -⟩ := bind_pure_ok.mp h
    obtain ⟨-, rfl⟩ := updateOutbox_ok hmark
    exact .of_same rfl rfl rfl
  | markSent | markFailedTerminal =>
    obtain ⟨_, hmark, -⟩ := bind_pure_ok.mp h
    exact closeOutbox_effect rfl rfl hmark rfl
  | markRetry idempotencyKey nextAttemptAtMs errorCode errorSummary now =>
    obtain ⟨_, hmark, -⟩ := bind_pure_ok.mp h
    obtain ⟨_, u, hupdate, hrefuse⟩ := bind_ok.mp hmark
    obtain ⟨-, rfl⟩ := refuseIf_ok.mp hrefuse
    obtain ⟨-, rfl⟩ := updateOutbox_ok hupdate
    exact .of_same rfl rfl rfl
  | recoverStaleSending | recoverRuns =>
    obtain ⟨_, hexecute, -⟩ := bind_pure_ok.mp h
    obtain rfl := execute_ok.mp hexecute
    exact .of_same rfl rfl rfl
  | insertRun run =>
    obtain ⟨_, hinsert, -⟩ := bind_pure_ok.mp h
    have hkeeps : ∀ {γ : Type} {f : AcpDb → γ}, (∀ db runs, f { db with runs } = f db) →
        Keeps (tryInsertRun run) f := by
      intro γ f hf
      refine .bind (.query _) fun _ => .ite (.pure _) ?_
      exact .reply (.execute fun db => hf db _)
    exact .of_same rfl
      (hkeeps (f := fun db => (db.session, db.records)) (fun _ _ => rfl) _ _ _ hinsert)
      (hkeeps (f := AcpDb.outbox) (fun _ _ => rfl) _ _ _ hinsert)
  | markRunning | finishRun | failRun =>
    obtain ⟨_, hmark, -⟩ := bind_pure_ok.mp h
    exact updateRunStatus_effect rfl (fun _ => rfl) hmark

end Performing

/-! ## Events and failures -/

theorem keeps_agrees {x : Tx String AcpDb α} (hx : Keeps x fun db => (db.events, db.records)) :
    Preserves EventsAgree x := by
  intro db a db' h hrun
  obtain ⟨hevents, hrecords⟩ := Prod.mk.injEq .. |>.mp (hx db a db' hrun)
  exact h.of_same hevents hrecords

theorem mutate_agrees (seed : Option Session) (f : Session → Except String (Session × α)) :
    Preserves EventsAgree (mutate seed f) := by
  refine .immediate (.bind (keeps_agrees (.query _)) fun _ => ?_)
  refine .bind (keeps_agrees .orError) fun _ => .bind (keeps_agrees .attempt) fun _ => ?_
  exact .ite (keeps_agrees (.pure _)) (.bind (save_agrees _) fun _ => keeps_agrees (.pure _))

theorem finishWithFinal_agrees (record : RuntimeFinalOutboxRecord) (now : Int) :
    Preserves EventsAgree (finishWithFinal record now) := by
  refine .immediate (.bind (keeps_agrees (.query _)) fun _ => ?_)
  refine .bind (keeps_agrees .orError) fun s => .bind (keeps_agrees .refuseIf) fun _ => ?_
  refine .bind (keeps_agrees .orError) fun work => ?_
  dsimp only
  refine .bind (keeps_agrees .refuseIf) fun _ => ?_
  have hends : ∀ outcome, Preserves EventsAgree (do
      let result ← attempt (s.complete record.runId outcome)
      let _ ← save result.1
      return Ending.commit (s.stopping, result.2)) := fun outcome =>
    .bind (keeps_agrees .attempt) fun _ => .bind (save_agrees _) fun _ => keeps_agrees (.pure _)
  split
  · exact hends _
  · exact .bind (keeps_agrees (upsert_keeps (fun _ _ => rfl) record now)) fun _ => hends _

theorem control_agrees (validate : Question → Json → Except String Json)
    (agent sender commandId : String) (args : ControlArgs) (scope : Except String String)
    (now : Int) :
    Preserves EventsAgree (control validate agent sender commandId args scope now) := by
  refine .immediate (.bind (keeps_agrees .orError) fun _ => .bind (keeps_agrees (.query _)) fun _ => ?_)
  split
  · exact .ite (keeps_agrees .throw) (keeps_agrees (.pure _))
  · refine .bind (keeps_agrees (.query _)) fun _ => .bind (keeps_agrees .orError) fun _ => ?_
    refine .bind (keeps_agrees .attempt) fun _ => .bind (keeps_agrees .refuseIf) fun _ => ?_
    refine .bind (keeps_agrees .attempt) fun _ => .bind (keeps_agrees .attempt) fun _ => ?_
    dsimp only
    split
    · refine .bind (keeps_agrees (.execute fun _ => rfl)) fun _ => .bind (save_agrees _) fun _ => ?_
      exact .bind (keeps_agrees (.execute fun _ => rfl)) fun _ => keeps_agrees (.pure _)
    · refine .bind (save_agrees _) fun _ => ?_
      exact .bind (keeps_agrees (.execute fun _ => rfl)) fun _ => keeps_agrees (.pure _)

theorem closeOutbox_agrees (idempotencyKey : String) (allowed : FinalOutboxStatus → Bool)
    (f : RuntimeFinalOutboxRecord → RuntimeFinalOutboxRecord) (state : DeliveryState)
    (messageId : Option String) :
    Preserves EventsAgree (closeOutbox idempotencyKey allowed f state messageId) := by
  refine .immediate (.bind (keeps_agrees (updateOutbox_keeps (fun _ _ => rfl) _ _ _)) fun _ => ?_)
  refine .ite (.bind (deliveryIn_agrees _ _ _) fun _ => keeps_agrees (.pure _)) ?_
  exact .bind (keeps_agrees (.bind (.query _) fun _ => .refuseIf)) fun _ => keeps_agrees (.pure _)

theorem Operation.perform_agrees (key : String)
    (validate : Question → Json → Except String Json) (op : Operation) :
    Preserves EventsAgree (op.perform key validate) := by
  cases op with
  | submit | complete | recover | requestShutdown | stream =>
    exact .bind (mutate_agrees _ _) fun _ => keeps_agrees (.pure _)
  | finishWithFinal => exact .bind (finishWithFinal_agrees _ _) fun _ => keeps_agrees (.pure _)
  | control => exact .bind (control_agrees _ _ _ _ _ _ _) fun _ => keeps_agrees (.pure _)
  | markSending =>
    exact .bind (keeps_agrees (updateOutbox_keeps (fun _ _ => rfl) _ _ _)) fun _ =>
      keeps_agrees (.pure _)
  | markSent | markFailedTerminal =>
    exact .bind (closeOutbox_agrees _ _ _ _ _) fun _ => keeps_agrees (.pure _)
  | markRetry =>
    refine .bind (.bind ?_ fun _ => keeps_agrees .refuseIf) fun _ => keeps_agrees (.pure _)
    exact keeps_agrees (updateOutbox_keeps (fun _ _ => rfl) _ _ _)
  | recoverStaleSending | recoverRuns =>
    exact .bind (keeps_agrees (.execute fun _ => rfl)) fun _ => keeps_agrees (.pure _)
  | insertRun =>
    refine .bind (.bind (keeps_agrees (.query _)) fun _ => ?_) fun _ => keeps_agrees (.pure _)
    refine .ite (keeps_agrees (.pure _)) ?_
    exact .bind (keeps_agrees (.execute fun _ => rfl)) fun _ => keeps_agrees (.pure _)
  | markRunning | finishRun | failRun =>
    exact .bind (keeps_agrees (updateRunStatus_keeps (fun _ _ => rfl) _ _ _ _)) fun _ =>
      keeps_agrees (.pure _)

theorem Operation.perform_failsClean (key : String)
    (validate : Question → Json → Except String Json) (op : Operation) :
    FailsClean (op.perform key validate) := by
  cases op with
  | submit | complete | recover | requestShutdown | stream | finishWithFinal | control | markSent
    | markFailedTerminal =>
      exact (immediate_failsClean _).bind_neverFails fun _ => .pure _
  | markSending =>
    refine (NeverFails.bind ?_ fun _ => .pure _).failsClean
    exact .bind (.query _) fun _ => .bind (.execute _) fun _ => .pure _
  | markRetry idempotencyKey nextAttemptAtMs errorCode errorSummary now =>
    refine FailsClean.bind_neverFails ?_ fun _ => .pure _
    intro db e db' herror
    rcases bind_error.mp herror with hupdate | ⟨updated, t, hupdate, hrefuse⟩
    · cases hupdate
    · -- it only fails when no row was updated
      unfold updateOutbox at hupdate
      obtain ⟨_, rfl, hrest⟩ := query_bind_ok.mp hupdate
      have hreply := execute_bind_ok.mp hrest
      obtain ⟨rfl, rfl⟩ := pure_ok.mp hreply
      cases hfound : db.outbox.any fun row =>
          row.idempotencyKey == idempotencyKey && row.status == .sending with
      | true =>
        rw [hfound] at hrefuse
        cases hrefuse
      | false =>
        rw [hfound] at hrefuse
        cases hrefuse
        rw [Rows.updateWhere_of_none hfound]
  | recoverStaleSending | recoverRuns =>
    exact (NeverFails.bind (.execute _) fun _ => .pure _).failsClean
  | insertRun run =>
    refine (NeverFails.bind (.bind (.query _) fun known => ?_) fun _ => .pure _).failsClean
    split
    · exact .pure _
    · exact .bind (.execute _) fun _ => .pure _
  | markRunning | finishRun | failRun =>
    refine FailsClean.bind_neverFails ?_ fun _ => .pure _
    refine (ReadOnly.query _).bind_failsClean fun _ => ?_
    refine (ReadOnly.refuseIf _ _).bind_failsClean fun _ => ?_
    exact (NeverFails.bind (.query _) fun _ => .bind (.execute _) fun _ => .pure _).failsClean

end Acp
end Awiki

import Awiki.AcpTaskLifecycle

/-!
# Stop and the final reply

A task that finishes queues its reply in the transaction that ends it, and a task that was
told to stop before that has no reply.  The reply is bound to the task it answers: rows of the
outbox are followed through their `ReplyBinding`, which no delivery changes.
-/

namespace Awiki
namespace Acp

open Tx

variable {ops : List Operation}

/-! ## Replies of the executor -/

structure RuntimeAgentProfile where
  agentDid : String
  runtimeProfileId : String
  controllerScopeKey : String

def runtimeFinalIdempotencyKey (agentDid runId controllerScopeKey : String) : String :=
  "runtime-final:" ++ agentDid ++ ":" ++ runId ++ ":" ++ controllerScopeKey

/-- `runtime_final_outbox_record` with the security of the task; `hash` is `final_body_hash`. -/
def runtimeFinalOutboxRecord (hash : String → String) (profile : RuntimeAgentProfile)
    (work : Work) (text : String) (now : Int) : Except String RuntimeFinalOutboxRecord :=
  let finalText := Text.trim text
  if finalText = "" then .error "runtime final text is empty"
  else
    .ok
      { idempotencyKey :=
          runtimeFinalIdempotencyKey profile.agentDid work.runId profile.controllerScopeKey
        runId := work.runId
        agentDid := profile.agentDid
        runtimeProfileId := profile.runtimeProfileId
        controllerScopeKey := profile.controllerScopeKey
        controllerDid := work.task.controllerDid
        recipientDid := work.task.replyRecipientDid
        conversationId := work.task.conversationId
        finalText := finalText
        finalSource := "acp"
        finalBodyHash := hash finalText
        security := work.task.security
        nextAttemptAtMs := now
        createdAtMs := now
        updatedAtMs := now }

/--
The operations that `acp/host.rs` performs: a reply is made from a submitted task, and a task
without a reply is cancelled or failed.
-/
def Operation.Hosted (hash : String → String) (w : World) : Operation → Prop
  | .finishWithFinal record _ => ∃ profile, ∃ work ∈ w.submitted, ∃ text now,
      runtimeFinalOutboxRecord hash profile work text now = .ok record
  | .complete _ outcome => outcome = .cancelled ∨ outcome = .failed
  | _ => True

/-- Runs of the daemon whose executors are those of `acp/host.rs`. -/
abbrev HostedRuns (key : String) (validate : Question → Json → Except String Json)
    (hash : String → String) : World → List Operation → World → Prop :=
  Run fun w op w' => op.Hosted hash w ∧ w.step key validate op = some w'

def Work.binding (work : Work) : ReplyBinding where
  idempotencyKey :=
    runtimeFinalIdempotencyKey work.task.agentDid work.runId work.task.controllerScopeKey
  runId := work.runId
  agentDid := work.task.agentDid
  controllerScopeKey := work.task.controllerScopeKey
  controllerDid := work.task.controllerDid
  recipientDid := work.task.replyRecipientDid
  conversationId := work.task.conversationId
  security := work.task.security

theorem runtimeFinalIdempotencyKey_inj {agentDid scope run run' : String}
    (h : runtimeFinalIdempotencyKey agentDid run scope =
      runtimeFinalIdempotencyKey agentDid run' scope) : run = run' := by
  unfold runtimeFinalIdempotencyKey at h
  simpa using h

variable {hash : String → String} {s : Session} {work : Work} {record : RuntimeFinalOutboxRecord}
  {old : Option TaskRecord} {runId : String} {s' : Session} {next : Option Work} {op : Operation}
  {w : World} {key : String} {w' : World}

theorem Replying.binding {active : Work} {profile : RuntimeAgentProfile} {text : String} {now : Int}
    (h : Replying s active record)
    (hrecord : runtimeFinalOutboxRecord hash profile work text now = .ok record)
    (hwork : work.runId = active.runId → work = active) : record.binding = active.binding := by
  unfold runtimeFinalOutboxRecord at hrecord
  dsimp only at hrecord
  obtain ⟨-, hrecord⟩ := except_unless.mp hrecord
  cases hrecord
  obtain rfl := hwork h.runId.symm
  have hagent : work.task.agentDid = profile.agentDid := h.agentDid
  have hscope : work.task.controllerScopeKey = profile.controllerScopeKey :=
    h.controllerScopeKey
  unfold Work.binding
  rw [hagent, hscope]
  rfl

/-! ## Finished tasks -/

def finished (record : Option TaskRecord) : Bool := record.any (·.state == .finished)

theorem ended_of_finished {record : Option TaskRecord} (h : finished record = true) :
    ended record = true := by
  cases record with
  | none => cases h
  | some record =>
    have hstate : record.state = .finished := by simpa [finished] using h
    simp [ended, hstate, TaskState.terminal]

theorem SameTasks.finished {new : Option TaskRecord} (h : SameTasks old new) :
    Acp.finished new = Acp.finished old := by
  obtain ⟨f, rfl⟩ := h
  cases old <;> rfl

theorem finished_writes {records : List TaskRecord}
    (h : ∀ record ∈ records, record.runId = runId → record.state ≠ .finished)
    (old : Option TaskRecord) : finished (writes records runId old) = finished old := by
  cases hold : finished old with
  | true =>
    rw [writes_of_ended (ended_of_finished hold)]
    exact hold
  | false =>
    cases hnew : writes records runId old with
    | none => rfl
    | some record =>
      rcases mem_of_writes hnew with hsame | ⟨hmem, hrun⟩
      · rw [← hsame]
        exact hold
      · simpa [finished] using h record hmem hrun

theorem savedRecords_unfinished
    (h : ∀ record ∈ s.pendingRecords, record.runId = runId → record.state ≠ .finished) :
    ∀ record ∈ s.savedRecords, record.runId = runId → record.state ≠ .finished := by
  intro record hmem
  unfold Session.savedRecords at hmem
  simp only [List.mem_append, List.mem_map, Option.mem_toList, Option.map_eq_some_iff] at hmem
  rcases hmem with (⟨record, hrecord, rfl⟩ | ⟨work, -, rfl⟩) | ⟨work, -, rfl⟩
  · exact h record hrecord
  · intro _
    unfold Session.capture
    dsimp only
    split <;> simp
  · intro _
    unfold Session.capture
    dsimp only
    split <;> simp

/-! ## Changes of a session -/

theorem Session.endedRecord_state (s : Session) (work : Work) (outcome : TaskState) :
    (s.endedRecord work outcome).state = outcome := rfl

theorem Session.complete_records {outcome : TaskState}
    (h : s.complete runId outcome = .ok (s', next)) :
    ∃ work, s.active = some work ∧ work.runId = runId ∧
      s'.pendingRecords = s.pendingRecords ++ [s.endedRecord work outcome] := by
  obtain ⟨work, hactive, hrun, hcases⟩ := complete_cases h
  refine ⟨work, hactive, hrun, ?_⟩
  rcases hcases with ⟨-, -, waiting, -, -, rfl⟩ | ⟨-, -, rfl⟩
  · exact s.ended_records work outcome
  · exact s.ended_records work outcome

theorem record_of_complete (h : s.complete runId .finished = .ok (s', next))
    (hpending : s.pendingRecords = []) (hlive : ended old = false) :
    ∃ record, writes s'.savedRecords runId old = some record ∧ record.state = .finished ∧
      record.delivery.state = .pending := by
  obtain ⟨work, -, rfl, hrecords⟩ := Session.complete_records h
  rw [hpending, List.nil_append] at hrecords
  have hfirst : ∃ records, s'.savedRecords =
      { s.endedRecord work .finished with revision := s'.revision + 1 } :: records := by
    unfold Session.savedRecords
    rw [hrecords]
    exact ⟨_, rfl⟩
  obtain ⟨records, hfirst⟩ := hfirst
  have hterminal : { s.endedRecord work .finished with
      revision := s'.revision + 1 }.state.terminal = true := rfl
  have hwrites := writes_cons_terminal hterminal records _ hlive
  rw [hfirst]
  exact ⟨_, hwrites, rfl, rfl⟩

theorem finished_of_complete (h : s.complete runId .finished = .ok (s', next))
    (hpending : s.pendingRecords = []) (hlive : ended old = false) :
    finished (writes s'.savedRecords runId old) = true := by
  obtain ⟨record, hrecord, hstate, -⟩ := record_of_complete h hpending hlive
  simp [hrecord, finished, hstate]

theorem Operation.Changes.unfinished (h : op.Changes s s') (hpending : s.pendingRecords = [])
    (hreply : ∀ record now, op = .finishWithFinal record now → s.stopping = true)
    (hcomplete : ∀ runId outcome, op = .complete runId outcome → outcome ≠ .finished) :
    ∀ record ∈ s'.pendingRecords, record.state ≠ .finished := by
  cases h with
  | submit h =>
    have hmoves := (Session.submit_moves h).2
    have hrecords : s'.pendingRecords = s.pendingRecords := by
      cases hmoves with
      | enter _ _ _ _ _ hrecords => exact hrecords
      | queue _ _ _ _ _ hrecords => exact hrecords
    rw [hrecords, hpending]
    simp
  | complete houtcome h =>
    obtain ⟨work, -, -, hrecords⟩ := Session.complete_records h
    rw [hrecords, hpending]
    simpa [Session.endedRecord_state] using hcomplete _ _ rfl
  | finish hreplying h =>
    obtain ⟨work, -, -, hrecords⟩ := Session.complete_records h
    rw [hrecords, hpending, hreply _ _ rfl]
    simp [Session.endedRecord_state]
  | control haction h =>
    cases h with
    | cancel work hwork =>
      have hrecords : (s.cancelWaiting work).pendingRecords =
          s.pendingRecords ++ [{ s with waiting := none }.capture work .cancelled false] := rfl
      rw [hrecords, hpending]
      simp [Session.capture]
    | _ =>
      intro record hmem
      have hnone : record ∈ s.pendingRecords := hmem
      rw [hpending] at hnone
      cases hnone
  | recover =>
    cases hactive : s.active with
    | none =>
      have hrecords : s.recover.pendingRecords = s.pendingRecords := by
        simp [Session.recover, Session.closeQuestions, hactive]
      rw [hrecords, hpending]
      simp
    | some work =>
      have hrecords : s.recover.pendingRecords = s.pendingRecords ++
          [{ s.closeQuestions "task_interrupted" with active := none }.capture work
            .interrupted true] := by
        simp [Session.recover, Session.closeQuestions, Session.leave, hactive]
      rw [hrecords, hpending]
      simp [Session.capture]
  | requestShutdown =>
    have hrecords : s.requestShutdown.pendingRecords = s.pendingRecords := by
      unfold Session.requestShutdown
      split <;> rfl
    rw [hrecords, hpending]
    simp
  | stream h =>
    rw [(Session.stream_streams h).pendingRecords, hpending]
    simp

theorem Operation.Changes.stopping (h : op.Changes s s') (hactive : s.active = some work)
    (hstopping : s.stopping = true)
    (hdistinct : ∀ waiting, s.waiting = some waiting → waiting.runId ≠ work.runId)
    (hstays : s'.active.map (·.runId) = some work.runId) : s'.stopping = true := by
  cases h with
  | submit h =>
    unfold Session.submit at h
    obtain ⟨-, h⟩ := except_unless.mp h
    obtain ⟨-, h⟩ := except_unless.mp h
    simp only [hactive, Option.isSome_some, Bool.true_or, if_true] at h
    obtain ⟨-, h⟩ := except_unless.mp h
    obtain ⟨-, h⟩ := except_unless.mp h
    split at h
    · cases h
    · cases h
      exact hstopping
  | complete houtcome h | finish hreplying h =>
    obtain ⟨active, -, -, ⟨-, -, waiting, hwaiting, -, rfl⟩ | ⟨-, -, rfl⟩⟩ :=
      Session.complete_cases h
    · exact absurd (Option.some.inj hstays) (hdistinct waiting hwaiting)
    · cases hstays
  | control haction h =>
    cases h with
    | answer => exact hstopping
    | stop => rfl
    | executeAfter => rfl
    | execute waiting hwaiting hidle =>
      rw [hidle] at hactive
      cases hactive
    | cancel => exact hstopping
    | reset hidle =>
      rw [hidle] at hactive
      cases hactive
  | recover =>
    have hgone : s.recover.active = none := by
      simp [Session.recover, Session.closeQuestions, Session.leave, hactive]
    rw [hgone] at hstays
    cases hstays
  | requestShutdown =>
    unfold Session.requestShutdown
    rw [hactive]
    rfl
  | stream h =>
    rcases (Session.stream_streams h).stops with ⟨hsame, -⟩ | ⟨hset, -⟩
    · rw [hsame]
      exact hstopping
    · exact hset

/-! ## The rows of the outbox -/

def AcpDb.bindings (db : AcpDb) : List ReplyBinding := db.outbox.map (·.binding)

structure World.Replies (w : World) : Prop where
  works : ∀ s work, w.db.session = some s → s.active = some work ∨ s.waiting = some work →
    work ∈ w.submitted
  unique : (w.submitted.map (·.runId)).Nodup
  agents : ∀ work ∈ w.submitted, ∃ s, w.db.session = some s ∧
    work.task.agentDid = s.agentDid ∧ work.task.controllerScopeKey = s.controllerScopeKey
  counted : ∀ run, w.db.bindings.countP (·.runId == run) =
    if finished (w.db.record? run) then 1 else 0
  bound : ∀ binding ∈ w.db.bindings, ∃ work ∈ w.submitted, binding = work.binding

theorem World.replies_empty : World.Replies {} := by
  constructor
  · intro s work hs
    cases hs
  · exact List.nodup_nil
  · intro work hwork
    cases hwork
  · intro run
    rfl
  · intro binding hbinding
    cases hbinding

theorem eq_of_runId_eq {works : List Work} (h : (works.map (·.runId)).Nodup) {work' : Work}
    (hwork : work ∈ works) (hwork' : work' ∈ works) (heq : work.runId = work'.runId) :
    work = work' :=
  List.inj_on_of_nodup_map h hwork hwork' heq

inductive RepliesStep (w w' : World) : Prop
  | quiet (hbindings : w'.db.bindings = w.db.bindings)
      (hfinished : ∀ run, finished (w'.db.record? run) = finished (w.db.record? run)) :
      RepliesStep w w'
  | replied (work : Work) (hwork : work ∈ w.submitted) (hactive : w.db.activeRun = some work.runId)
      (hgoing : ∃ s, w.db.session = some s ∧ s.stopping = false)
      (hbindings : w'.db.bindings = w.db.bindings ++ [work.binding])
      (hfinished : ∀ run, finished (w'.db.record? run) =
        (finished (w.db.record? run) || run == work.runId)) : RepliesStep w w'

section

variable (h : w.Replies)

include h

theorem World.Replies.unreplied {run : String} (hlive : ended (w.db.record? run) = false) :
    ∀ binding ∈ w.db.bindings, binding.runId ≠ run := by
  have hunfinished : finished (w.db.record? run) = false := by
    rw [Bool.eq_false_iff]
    intro hfinished
    rw [ended_of_finished hfinished] at hlive
    cases hlive
  have hcount := h.counted run
  rw [hunfinished] at hcount
  intro binding hmem hrun
  have hnone := List.countP_eq_zero.mp hcount binding hmem
  simp [hrun] at hnone

theorem World.Replies.runId_of_key {other : Work} (hwork : work ∈ w.submitted)
    (hother : other ∈ w.submitted)
    (hkeys : work.binding.idempotencyKey = other.binding.idempotencyKey) :
    work.runId = other.runId := by
  obtain ⟨s₁, hs₁, hagent, hscope⟩ := h.agents work hwork
  obtain ⟨s₂, hs₂, hagent', hscope'⟩ := h.agents other hother
  cases hs₁.symm.trans hs₂
  unfold Work.binding at hkeys
  dsimp only at hkeys
  rw [hagent, hagent', hscope, hscope'] at hkeys
  exact runtimeFinalIdempotencyKey_inj hkeys

theorem World.Replies.binding_of_hosted {now : Int}
    (hhosted : (Operation.finishWithFinal record now).Hosted hash w) (hs : w.db.session = some s)
    (hreplying : Replying s work record) : record.binding = work.binding := by
  obtain ⟨profile, other, hother, text, clock, hrecord⟩ := hhosted
  refine hreplying.binding hrecord fun heq => ?_
  exact eq_of_runId_eq h.unique hother (h.works s work hs (.inl hreplying.active)) heq

theorem World.Replies.fresh (hvalid : w.Valid) (hs : w.db.session = some s)
    (hactive : s.active = some work) (hbinding : record.binding = work.binding) :
    w.db.outbox.any (·.idempotencyKey == record.idempotencyKey) = false := by
  have hlive : ended (w.db.record? work.runId) = false := by
    have hslot : w.slots.active = some work.runId := by
      simp [World.slots, AcpDb.activeRun, hs, hactive]
    simpa [World.slots, AcpDb.endedRuns] using (hvalid.slots.active _ hslot).2.2
  have hmem : work ∈ w.submitted := h.works s work hs (.inl hactive)
  rw [List.any_eq_false]
  intro row hrow hkey
  have hrow' : row.binding ∈ w.db.bindings := List.mem_map_of_mem hrow
  obtain ⟨other, hother, heq⟩ := h.bound _ hrow'
  have hkeys : other.binding.idempotencyKey = work.binding.idempotencyKey := by
    rw [← heq, ← hbinding]
    exact beq_iff_eq.mp hkey
  have hrun : row.binding.runId = work.runId := by
    rw [heq]
    exact h.runId_of_key hother hmem hkeys
  exact h.unreplied hlive _ hrow' hrun

theorem World.Replies.upsert (hvalid : w.Valid) (hs : w.db.session = some s)
    (hactive : s.active = some work) (hbinding : record.binding = work.binding) (now : Int) :
    (Rows.upsertWhere (·.idempotencyKey == record.idempotencyKey) (record.inserted now)
        (·.replaced record now) w.db.outbox).map (·.binding) =
      w.db.bindings ++ [work.binding] := by
  unfold Rows.upsertWhere
  rw [h.fresh hvalid hs hactive hbinding]
  simp only [Bool.false_eq_true, if_false, List.map_append, List.map_cons, List.map_nil]
  have hinserted : (record.inserted now).binding = record.binding := rfl
  rw [hinserted, hbinding]
  rfl

theorem World.Replies.step_cases {validate : Question → Json → Except String Json}
    (hvalid : w.Valid) (hhosted : op.Hosted hash w) (hstep : w.step key validate op = some w') :
    RepliesStep w w' := by
  obtain ⟨hop, -, -, hcases⟩ := World.step_cases hstep
  rcases hcases with ⟨reply, hperform, -, -⟩ | ⟨hdb, -, -⟩
  · cases Operation.perform_effect hop hvalid.clean hperform with
    | still _ hsession hrecords hrows =>
      refine .quiet ?_ fun run => (hrecords run).finished
      unfold AcpDb.bindings
      rw [hrows]
      exact op.delivered_binding _
    | moved s s' hrow hpending hchange hsession hrecords hrows =>
      have hquiet : (∀ record now, op = .finishWithFinal record now → s.stopping = true) →
          RepliesStep w w' := by
        intro hreply
        refine .quiet ?_ fun run => ?_
        · unfold AcpDb.bindings
          rw [hrows]
          unfold Operation.replies
          split
          · rw [hreply _ _ rfl]
            rfl
          · rfl
        · rw [hrecords run]
          refine finished_writes (savedRecords_unfinished ?_) _
          intro record hmem _
          refine hchange.unfinished hpending hreply ?_ record hmem
          rintro runId outcome rfl rfl
          rcases hhosted with hcancelled | hfailed
          · cases hcancelled
          · cases hfailed
      cases hchange with
      | finish hreplying hcomplete =>
        rename_i record now work next
        cases hstopping : s.stopping with
        | true => exact hquiet fun _ _ _ => hstopping
        | false =>
          have hs : w.db.session = some s := by
            rcases hrow with hs | ⟨-, hidle, -⟩
            · exact hs
            · cases hidle.symm.trans hreplying.active
          have hwork := h.works s work hs (.inl hreplying.active)
          have hslot : w.slots.active = some work.runId := by
            simp [World.slots, AcpDb.activeRun, hs, hreplying.active]
          have hlive : ended (w.db.record? work.runId) = false := by
            simpa [World.slots, AcpDb.endedRuns] using (hvalid.slots.active _ hslot).2.2
          have hbinding := h.binding_of_hosted hhosted hs hreplying
          refine .replied work hwork hslot ⟨s, hs, hstopping⟩ ?_ fun run => ?_
          · unfold AcpDb.bindings
            rw [hrows]
            unfold Operation.replies
            rw [hstopping]
            exact h.upsert hvalid hs hreplying.active hbinding now
          · rw [hstopping] at hcomplete
            rw [hrecords run]
            by_cases hrun : run = work.runId
            · subst hrun
              rw [hreplying.runId] at hlive ⊢
              rw [finished_of_complete hcomplete hpending hlive]
              simp
            · obtain ⟨active, hactive, -, hrecords'⟩ := Session.complete_records hcomplete
              cases hactive.symm.trans hreplying.active
              rw [finished_writes]
              · simp [hrun]
              · refine savedRecords_unfinished ?_
                intro record hmem hrunId
                rw [hrecords', hpending, List.nil_append, List.mem_singleton] at hmem
                rw [hmem] at hrunId
                exact absurd hrunId.symm hrun
      | _ => exact hquiet fun _ _ hfalse => by cases hfalse
  · refine .quiet ?_ fun run => ?_
    · unfold AcpDb.bindings
      rw [hdb]
    · rw [hdb]

end

theorem Session.Moves.slots {admitted : Option Work} (h : s.Moves s' admitted)
    (hwork : s'.active = some work ∨ s'.waiting = some work) :
    s.active = some work ∨ s.waiting = some work ∨ admitted = some work := by
  cases h with
  | stay hactive hwaiting =>
    rw [hactive, hwaiting] at hwork
    exact hwork.imp_right .inl
  | enter new hidle hnone hactive hwaiting =>
    rw [hactive, hwaiting] at hwork
    exact .inr (.inr (by simpa using hwork))
  | queue new hbusy hnone hactive hwaiting =>
    rw [hactive, hwaiting] at hwork
    exact hwork.imp_right .inr
  | leave old record hold hleaves hactive hwaiting =>
    rw [hactive, hwaiting] at hwork
    exact .inr (.inl (by simpa using hwork))
  | follow old next record hold hnext hleaves hactive hwaiting =>
    rw [hactive, hwaiting] at hwork
    exact .inr (.inl (hnext.trans (by simpa using hwork)))
  | cancel old record hold hleaves hactive hwaiting =>
    rw [hactive, hwaiting] at hwork
    exact .inl (by simpa using hwork)
  | resume next hidle hnext hactive hwaiting =>
    rw [hactive, hwaiting] at hwork
    exact .inr (.inl (hnext.trans (by simpa using hwork)))

theorem Session.submit_agent {leads : Bool} (h : s.submit work = .ok (s', leads)) :
    work.task.agentDid = s.agentDid ∧ work.task.controllerScopeKey = s.controllerScopeKey := by
  unfold submit at h
  obtain ⟨hmatch, h⟩ := except_unless.mp h
  simp only [ne_eq, not_or, not_not] at hmatch
  exact ⟨hmatch.1, hmatch.2.1⟩

theorem Operation.Changes.agent (h : op.Changes s s') (hwork : op.admitted = some work) :
    work.task.agentDid = s.agentDid ∧ work.task.controllerScopeKey = s.controllerScopeKey := by
  cases h with
  | submit h =>
    cases hwork
    exact Session.submit_agent h
  | _ => cases hwork

theorem World.Replies.step {validate : Question → Json → Except String Json} (h : w.Replies)
    (hvalid : w.Valid) (hhosted : op.Hosted hash w) (hstep : w.step key validate op = some w') :
    w'.Replies := by
  have hreplies := h.step_cases hvalid hhosted hstep
  obtain ⟨hop, hfresh, -, hcases⟩ := World.step_cases hstep
  have hkept : ∀ work ∈ w.submitted, work ∈ w'.submitted := by
    intro work hwork
    rcases hcases with ⟨-, -, hsubmitted, -⟩ | ⟨-, hsubmitted, -⟩
    · rw [hsubmitted]
      exact List.mem_append_left _ hwork
    · rw [hsubmitted]
      exact hwork
  have hcounted : ∀ run, w'.db.bindings.countP (·.runId == run) =
      if finished (w'.db.record? run) then 1 else 0 := by
    intro run
    cases hreplies with
    | quiet hbindings hfinished =>
      rw [hbindings, hfinished run]
      exact h.counted run
    | replied work hwork hactive _ hbindings hfinished =>
      have hlive : ended (w.db.record? work.runId) = false := by
        simpa [World.slots, AcpDb.endedRuns] using (hvalid.slots.active _ hactive).2.2
      rw [hbindings, hfinished run, List.countP_append, h.counted run]
      by_cases hrun : run = work.runId
      · subst hrun
        have hunfinished : finished (w.db.record? work.runId) = false := by
          rw [Bool.eq_false_iff]
          intro hdone
          rw [ended_of_finished hdone] at hlive
          cases hlive
        simp [hunfinished, Work.binding]
      · have hother : ¬ work.runId = run := fun heq => hrun heq.symm
        simp [hrun, hother, Work.binding]
  have hbound : ∀ binding ∈ w'.db.bindings, ∃ work ∈ w'.submitted, binding = work.binding := by
    intro binding hmem
    cases hreplies with
    | quiet hbindings =>
      rw [hbindings] at hmem
      obtain ⟨work, hwork, heq⟩ := h.bound binding hmem
      exact ⟨work, hkept work hwork, heq⟩
    | replied work hwork _ _ hbindings =>
      rw [hbindings] at hmem
      rcases List.mem_append.mp hmem with hold | hnew
      · obtain ⟨other, hother, heq⟩ := h.bound binding hold
        exact ⟨other, hkept other hother, heq⟩
      · exact ⟨work, hkept work hwork, List.mem_singleton.mp hnew⟩
  rcases hcases with ⟨reply, hperform, hsubmitted, -⟩ | ⟨hdb, hsubmitted, -⟩
  · have hunique : (w'.submitted.map (·.runId)).Nodup := by
      rw [hsubmitted]
      cases hadmitted : op.admitted with
      | none => simpa using h.unique
      | some work =>
        rw [List.map_append]
        have hnew : work.runId ∉ w.submitted.map (·.runId) := fun hmem =>
          hfresh work hadmitted (hvalid.mem_attempted hmem)
        simpa using List.Nodup.concat hnew h.unique
    cases Operation.perform_effect hop hvalid.clean hperform with
    | still hnone hsession =>
      refine ⟨?_, hunique, ?_, hcounted, hbound⟩
      · intro s work hs hslot
        exact hkept work (h.works s work (hsession.symm.trans hs) hslot)
      · intro work hwork
        rw [hsubmitted, hnone] at hwork
        rw [hsession]
        exact h.agents work (by simpa using hwork)
    | moved s s' hrow hpending hchange hsession =>
      obtain ⟨hsame, hmoves⟩ := hchange.moves
      refine ⟨?_, hunique, ?_, hcounted, hbound⟩
      · intro saved work hs hslot
        cases hsession.symm.trans hs
        rw [saved_active, saved_waiting] at hslot
        rw [hsubmitted]
        have hold : ∀ {work}, s.active = some work ∨ s.waiting = some work →
            work ∈ w.submitted := by
          intro work hslot
          rcases hrow with hs | ⟨-, hidle, hnone⟩
          · exact h.works s work hs hslot
          · rw [hidle, hnone] at hslot
            simp at hslot
        rcases hmoves.slots hslot with hactive | hwaiting | hadmitted
        · exact List.mem_append_left _ (hold (.inl hactive))
        · exact List.mem_append_left _ (hold (.inr hwaiting))
        · exact List.mem_append_right _ (by simp [hadmitted])
      · intro work hwork
        refine ⟨s'.saved, hsession, ?_⟩
        have hagent : s'.saved.agentDid = s.agentDid :=
          (saved_keeps (fun _ _ => rfl) s').trans hsame.agentDid
        have hscope : s'.saved.controllerScopeKey = s.controllerScopeKey :=
          (saved_keeps (fun _ _ => rfl) s').trans hsame.controllerScopeKey
        rw [hagent, hscope]
        rw [hsubmitted] at hwork
        rcases List.mem_append.mp hwork with hold | hnew
        · obtain ⟨s₀, hs₀, hmatch⟩ := h.agents work hold
          rcases hrow with hs | ⟨hs, -⟩
          · cases hs₀.symm.trans hs
            exact hmatch
          · cases hs₀.symm.trans hs
        · exact hchange.agent (by simpa using hnew)
  · refine ⟨?_, hsubmitted ▸ h.unique, ?_, hcounted, hbound⟩
    · intro s work hs hslot
      exact hkept work (h.works s work (hdb ▸ hs) hslot)
    · intro work hwork
      rw [hdb]
      exact h.agents work (hsubmitted ▸ hwork)

theorem World.Replies.run {validate : Question → Json → Except String Json} (h : w.Replies)
    (hvalid : w.Valid) (hrun : HostedRuns key validate hash w ops w') : w'.Valid ∧ w'.Replies := by
  refine hrun.invariant (P := fun v => v.Valid ∧ v.Replies) ?_ ⟨hvalid, h⟩
  rintro v op v' ⟨hvalid, hreplies⟩ ⟨hhosted, hstep⟩
  exact ⟨hvalid.step hstep, hreplies.step hvalid hhosted hstep⟩

/-! ## Tasks that are told to stop -/

def Operation.Accepted (key : String) (validate : Question → Json → Except String Json)
    (op : Operation) (w : World) : Prop :=
  ∃ reply db, (op.perform key validate).run w.db = .ok reply db ∧
    match op with
    | .control _ _ _ args _ _ =>
      (∃ runId, args.action = some (.stop runId) ∨
        args.action = some (.executeWaiting runId)) ∧ db.commands ≠ w.db.commands
    | .requestShutdown => True
    | _ => False

def AcpDb.Stopping (db : AcpDb) (run : String) : Prop :=
  db.activeRun = some run ∧ ∃ s, db.session = some s ∧ s.stopping = true

theorem activeRun_eq_some {db : AcpDb} {run : String} :
    db.activeRun = some run ↔
      ∃ s work, db.session = some s ∧ s.active = some work ∧ work.runId = run := by
  simp only [AcpDb.activeRun, Option.bind_eq_some_iff, Option.map_eq_some_iff]
  constructor
  · rintro ⟨s, hs, work, hwork, hrun⟩
    exact ⟨s, work, hs, hwork, hrun⟩
  · rintro ⟨s, work, hs, hwork, hrun⟩
    exact ⟨s, hs, work, hwork, hrun⟩

theorem stopping_saved {db : AcpDb} (hsession : db.session = some s.saved)
    (hactive : s.active = some work) (hstopping : s.stopping = true) : db.Stopping work.runId := by
  refine ⟨?_, s.saved, hsession, ?_⟩
  · rw [activeRun_saved hsession, hactive]
    rfl
  · exact (saved_keeps (fun _ _ => rfl) s).trans hstopping

theorem Operation.Accepted.stopping {validate : Question → Json → Except String Json} {run : String}
    (h : op.Accepted key validate w) (hstep : w.step key validate op = some w')
    (hactive : w.db.activeRun = some run) : w'.db.Stopping run := by
  obtain ⟨s, work, hs, hwork, rfl⟩ := activeRun_eq_some.mp hactive
  obtain ⟨reply, db, hperform, hop⟩ := h
  have hdb : w'.db = db := by
    unfold World.step at hstep
    rw [hperform] at hstep
    dsimp only at hstep
    split at hstep
    · cases hstep
      rfl
    · cases hstep
  rw [hdb]
  cases op with
  | control agent sender commandId args scope now =>
    obtain ⟨⟨runId, haction⟩, hcommands⟩ := hop
    obtain ⟨⟨snapshot, next⟩, t, hcontrol, hreply⟩ := bind_ok.mp hperform
    obtain ⟨-, rfl⟩ := pure_ok.mp hreply
    rcases control_ok hcontrol with ⟨hsame, -⟩ | ⟨s₀, s', action, hcontrols⟩
    · exact absurd (congrArg AcpDb.commands hsame) hcommands
    · cases hs.symm.trans hcontrols.session
      have hnamed : action = .stop runId ∨ action = .executeWaiting runId := by
        rw [hcontrols.named] at haction
        simpa using haction
      have haccepts := hcontrols.accepts
      have hsession := hcontrols.session'
      cases haccepts with
      | stop => exact stopping_saved hsession hwork rfl
      | executeAfter => exact stopping_saved hsession hwork rfl
      | execute _ _ hidle =>
        rw [hidle] at hwork
        cases hwork
      | _ => rcases hnamed with hnamed | hnamed <;> cases hnamed
  | requestShutdown =>
    have hset : s.requestShutdown.stopping = true ∧ s.requestShutdown.active = some work := by
      simp [Session.requestShutdown, Session.closeQuestions, hwork]
    obtain ⟨_, hmutate, -⟩ := bind_pure_ok.mp hperform
    obtain ⟨s₀, s', hs₀, hresult, hcases⟩ := mutate_ok hmutate
    rw [hs] at hs₀
    cases hs₀
    cases hresult
    rcases hcases with ⟨hunchanged, rfl⟩ | hsaves
    · exact ⟨hactive, _, hunchanged, hset.1⟩
    · exact stopping_saved hsaves.session hset.2 hset.1
  | _ => exact hop.elim

def World.Unanswered (w : World) (run : String) : Prop :=
  w.db.Stopping run ∨ (ended (w.db.record? run) = true ∧ finished (w.db.record? run) = false)

theorem World.Valid.active_live (h : w.Valid) {run : String} (hactive : w.db.activeRun = some run) :
    ended (w.db.record? run) = false ∧ finished (w.db.record? run) = false := by
  have hlive : ended (w.db.record? run) = false := by
    simpa [World.slots, AcpDb.endedRuns] using (h.slots.active run hactive).2.2
  refine ⟨hlive, ?_⟩
  rw [Bool.eq_false_iff]
  intro hfinished
  rw [ended_of_finished hfinished] at hlive
  cases hlive

section

variable {validate : Question → Json → Except String Json}

theorem World.Valid.ended_of_left (h : w.Valid) (hstep : w.step key validate op = some w')
    {run : String} (hactive : w.db.activeRun = some run) (hleft : w'.db.activeRun ≠ some run) :
    ended (w'.db.record? run) = true := by
  have hvalid' := h.step hstep
  obtain ⟨hsubmitted, hstarted, -⟩ := h.slots.active run hactive
  obtain ⟨-, -, -, hcases⟩ := World.step_cases hstep
  have hmem : run ∈ w'.slots.submitted ∧ run ∈ w'.slots.started := by
    rcases hcases with ⟨-, -, hsubmitted', hstarted'⟩ | ⟨-, hsubmitted', hstarted'⟩
    · constructor
      · have hold : run ∈ w.submitted.map (·.runId) := hsubmitted
        show run ∈ w'.submitted.map (·.runId)
        rw [hsubmitted', List.map_append]
        exact List.mem_append_left _ hold
      · have hold : run ∈ w.started := hstarted
        show run ∈ w'.started
        rw [hstarted']
        split
        · exact hold
        · exact List.mem_append_left _ hold
    · simpa [World.slots, hsubmitted', hstarted'] using And.intro hsubmitted hstarted
  rcases hvalid'.slots.placed run hmem.1 with hstill | hwaiting | hended
  · exact absurd hstill hleft
  · exact absurd hmem.2 (hvalid'.slots.waiting run hwaiting).2.1
  · exact hended

theorem World.Unanswered.step {run : String} (h : w.Unanswered run) (hvalid : w.Valid)
    (hreplies : w.Replies) (hhosted : op.Hosted hash w) (hstep : w.step key validate op = some w') :
    w'.Unanswered run := by
  rcases h with ⟨hactive, s, hs, hstopping⟩ | ⟨hended, hunfinished⟩
  · obtain ⟨hlive, hunfinished⟩ := hvalid.active_live hactive
    have hunfinished' : finished (w'.db.record? run) = false := by
      cases hreplies.step_cases hvalid hhosted hstep with
      | quiet _ hfinished =>
        rw [hfinished run]
        exact hunfinished
      | replied _ _ _ hgoing =>
        obtain ⟨s₀, hs₀, hgoing⟩ := hgoing
        cases hs.symm.trans hs₀
        rw [hgoing] at hstopping
        cases hstopping
    by_cases hstays : w'.db.activeRun = some run
    · refine .inl ⟨hstays, ?_⟩
      obtain ⟨hop, -, -, hcases⟩ := World.step_cases hstep
      rcases hcases with ⟨reply, hperform, -, -⟩ | ⟨hdb, -, -⟩
      · cases Operation.perform_effect hop hvalid.clean hperform with
        | still _ hsession => exact ⟨s, hsession.trans hs, hstopping⟩
        | moved s₀ s' hrow _ hchange hsession =>
          rcases hrow with hrow | ⟨hrow, -⟩
          · cases hs.symm.trans hrow
            obtain ⟨_, work, hs₁, hwork, rfl⟩ := activeRun_eq_some.mp hactive
            cases hs.symm.trans hs₁
            refine ⟨s'.saved, hsession, ?_⟩
            refine (saved_keeps (fun _ _ => rfl) s').trans ?_
            refine hchange.stopping hwork hstopping ?_ ((activeRun_saved hsession).symm.trans hstays)
            intro waiting hwaiting heq
            have hslot : w.slots.waiting = some waiting.runId := by
              simp [World.slots, AcpDb.waitingRun, hs, hwaiting]
            exact hvalid.slots.distinct hactive hslot heq.symm
          · cases hs.symm.trans hrow
      · rw [hdb]
        exact ⟨s, hs, hstopping⟩
    · exact .inr ⟨hvalid.ended_of_left hstep hactive hstays, hunfinished'⟩
  · right
    cases hrecord : w.db.record? run with
    | none =>
      rw [hrecord] at hended
      cases hended
    | some record =>
      rw [hrecord] at hended hunfinished
      obtain ⟨delivery, revision, hkept⟩ := hvalid.record_step hstep hrecord hended
      rw [hkept]
      exact ⟨hended, hunfinished⟩

theorem World.Unanswered.run {run : String} (h : w.Unanswered run) (hvalid : w.Valid)
    (hreplies : w.Replies) (hrun : HostedRuns key validate hash w ops w') :
    ∀ row ∈ w'.db.outbox, row.runId ≠ run := by
  have hboth := hrun.invariant
    (P := fun v => v.Valid ∧ v.Replies ∧ v.Unanswered run) ?_ ⟨hvalid, hreplies, h⟩
  · obtain ⟨hvalid', hreplies', hunanswered⟩ := hboth
    have hunfinished : finished (w'.db.record? run) = false := by
      rcases hunanswered with ⟨hactive, -⟩ | ⟨-, hunfinished⟩
      · exact (hvalid'.active_live hactive).2
      · exact hunfinished
    have hcount := hreplies'.counted run
    rw [hunfinished] at hcount
    intro row hrow heq
    have hnone := List.countP_eq_zero.mp hcount row.binding (List.mem_map_of_mem hrow)
    have hrun' : row.binding.runId = run := heq
    simp [hrun'] at hnone
  · rintro v op v' ⟨hvalid, hreplies, hunanswered⟩ ⟨hhosted, hstep⟩
    exact ⟨hvalid.step hstep, hreplies.step hvalid hhosted hstep,
      hunanswered.step hvalid hreplies hhosted hstep⟩

end

/-! ## Stops that come too late -/

section Late

variable {validate : Question → Json → Except String Json} {agent sender commandId : String}
  {args : ControlArgs} {scope : Except String String} {now : Int} {db : AcpDb} {run : String}

theorem control_stop_unchanged (haction : args.action = some (.stop (some run)))
    (hinactive : db.activeRun ≠ some run) :
    match (control validate agent sender commandId args scope now).run db with
    | .ok reply db' => db' = db ∧ reply.2 = none
    | .error _ db' => db' = db := by
  split
  · rename_i reply db' hcontrol
    obtain ⟨snapshot, work⟩ := reply
    rcases control_ok hcontrol with hreplayed | ⟨s, s', action, hcontrols⟩
    · exact hreplayed
    · have hstop : action = .stop (some run) := by
        rw [hcontrols.named] at haction
        exact Option.some.inj haction
      have haccepts := hcontrols.accepts
      rw [hstop] at haccepts
      cases haccepts with
      | stop work hwork =>
        exact absurd (activeRun_eq_some.mpr ⟨s, _, hcontrols.session, hwork, rfl⟩) hinactive
  · rename_i e db' hcontrol
    exact immediate_error hcontrol

structure Reaches (db : AcpDb) (agent commandId : String) (args : ControlArgs)
    (scope : Except String String) (s : Session) : Prop where
  session : db.session = some s
  sessionKey : args.sessionKey = some s.key
  agentDid : s.agentDid = agent
  fresh : (db.commands.find? fun command =>
    command.agentDid == agent && command.commandId == commandId) = none
  scope : scope = .ok s.controllerScopeKey
  revision : ∃ revision, args.revision = some revision ∧ revision ≤ s.revision

theorem control_stop_stale {s : Session} (hreaches : Reaches db agent commandId args scope s)
    (haction : args.action = some (.stop (some run))) (hinactive : db.activeRun ≠ some run) :
    (control validate agent sender commandId args scope now).run db =
      .error (if s.group then "unsupported_in_group" else "stale_task") db := by
  obtain ⟨revision, hrevision, hseen⟩ := hreaches.revision
  have hcheck : checkRevision s args = .ok (.stop (some run)) := by
    simp [checkRevision, haction, hrevision, hseen]
  have hnamed : (s.active.any fun work => some work.runId == some run) = false := by
    cases hactive : s.active with
    | none => rfl
    | some work =>
      have hother : work.runId ≠ run := fun heq =>
        hinactive (activeRun_eq_some.mpr ⟨s, work, hreaches.session, hactive, heq⟩)
      simpa using hother
  have hcommand : s.command validate (.stop (some run)) sender now =
      .error (if s.group then "unsupported_in_group" else "stale_task") := by
    unfold Session.command
    dsimp only
    rw [hnamed]
    split <;> rfl
  have hfound : (db.session.filter fun row => row.key == s.key && row.agentDid == agent) =
      some s := by
    simp [hreaches.session, hreaches.agentDid]
  have hprior : (query (ε := String) fun db : AcpDb => db.commands.find? fun command =>
      command.agentDid == agent && command.commandId == commandId).run db = .ok none db :=
    query_ok.mpr ⟨hreaches.fresh, rfl⟩
  apply immediate_of_error (t := db)
  rw [run_bind_of_ok (orError_ok.mpr ⟨hreaches.sessionKey, rfl⟩), run_bind_of_ok hprior]
  dsimp only
  rw [run_bind_of_ok (query_ok.mpr ⟨rfl, rfl⟩), run_bind_of_ok (orError_ok.mpr ⟨hfound, rfl⟩),
    run_bind_of_ok (attempt_ok.mpr ⟨hreaches.scope, rfl⟩),
    run_bind_of_ok (a := ()) (refuseIf_ok.mpr ⟨by simp, rfl⟩), run_bind_of_ok (attempt_ok.mpr ⟨hcheck, rfl⟩),
    hcommand]
  rfl

end Late

/-! ## Stop or reply -/

/--
In every run on a session: a run has a reply in the outbox exactly if its task finished, one
row from then on, bound to the task that was submitted under that run.  A task for which a
stop, an execution of the waiting task or a shutdown was accepted while it was active is never
answered.  A stop of a task that ended changes nothing; one that reaches the session is refused
as stale, or as unsupported in a group.
-/
theorem stop_and_reply_exclude {key : String} {validate : Question → Json → Except String Json}
    {hash : String → String} {ops : List Operation} {w : World}
    (hrun : HostedRuns key validate hash {} ops w) :
    (∀ run, (∃ row ∈ w.db.outbox, row.runId = run) ↔ finished (w.db.record? run) = true) ∧
      (∀ run later w', HostedRuns key validate hash w later w' →
        finished (w.db.record? run) = true → w'.db.outbox.countP (·.runId == run) = 1) ∧
      (∀ row ∈ w.db.outbox, ∃ work ∈ w.submitted, row.binding = work.binding ∧
        ∀ other ∈ w.submitted, other.runId = row.runId → other = work) ∧
      (∀ run op next later w', w.db.activeRun = some run → op.Accepted key validate w →
        w.step key validate op = some next → HostedRuns key validate hash next later w' →
        (∀ row ∈ w'.db.outbox, row.runId ≠ run) ∧
          ∀ idempotencyKey now db, (markSending idempotencyKey now).run w'.db = .ok true db →
            ∃ row ∈ w'.db.outbox, row.idempotencyKey = idempotencyKey ∧ row.runId ≠ run) ∧
      ∀ run agent sender commandId args scope now, ended (w.db.record? run) = true →
        args.action = some (.stop (some run)) →
        (match (control validate agent sender commandId args scope now).run w.db with
          | .ok reply db => db = w.db ∧ reply.2 = none
          | .error _ db => db = w.db) ∧
          ∀ s, Reaches w.db agent commandId args scope s →
            (control validate agent sender commandId args scope now).run w.db =
              .error (if s.group then "unsupported_in_group" else "stale_task") w.db := by
  obtain ⟨hvalid, hreplies⟩ := World.replies_empty.run World.valid_empty hrun
  have hrows : ∀ {v : World}, v.Replies → ∀ run, v.db.outbox.countP (·.runId == run) =
      if finished (v.db.record? run) then 1 else 0 := by
    intro v hv run
    have hcount := hv.counted run
    unfold AcpDb.bindings at hcount
    rw [List.countP_map] at hcount
    exact hcount
  refine ⟨fun run => ?_, ?_, ?_, ?_, ?_⟩
  · have hcount := hrows hreplies run
    constructor
    · rintro ⟨row, hrow, hrun⟩
      by_contra hunfinished
      rw [if_neg hunfinished] at hcount
      exact List.countP_eq_zero.mp hcount row hrow (by simpa using hrun)
    · intro hfinished
      rw [if_pos hfinished] at hcount
      have hpos : 0 < w.db.outbox.countP (·.runId == run) := by omega
      obtain ⟨row, hrow, hrun⟩ := List.countP_pos_iff.mp hpos
      exact ⟨row, hrow, by simpa using hrun⟩
  · intro run later w' hlater hfinished
    obtain ⟨hvalid', hreplies'⟩ := hreplies.run hvalid hlater
    have hfinished' : finished (w'.db.record? run) = true := by
      cases hrecord : w.db.record? run with
      | none =>
        rw [hrecord] at hfinished
        cases hfinished
      | some record =>
        have hterminal := ended_of_finished hfinished
        rw [hrecord] at hterminal hfinished
        obtain ⟨delivery, revision, hkept⟩ :=
          hvalid.record_run (hlater.weaken fun _ _ _ h => h.2) hrecord hterminal
        rw [hkept]
        exact hfinished
    rw [hrows hreplies' run, hfinished']
    rfl
  · intro row hrow
    obtain ⟨work, hwork, hbinding⟩ := hreplies.bound row.binding (List.mem_map_of_mem hrow)
    refine ⟨work, hwork, hbinding, fun other hother heq => ?_⟩
    have hrun : row.runId = work.runId := congrArg ReplyBinding.runId hbinding
    exact eq_of_runId_eq hreplies.unique hother hwork (heq.trans hrun)
  · intro run op next later w' hactive haccepted hstep hlater
    have hunanswered : next.Unanswered run := .inl (haccepted.stopping hstep hactive)
    have hhosted : op.Hosted hash w := by
      obtain ⟨_, _, _, hop⟩ := haccepted
      cases op with
      | control | requestShutdown => trivial
      | _ => exact hop.elim
    have hnone := hunanswered.run (hvalid.step hstep) (hreplies.step hvalid hhosted hstep) hlater
    refine ⟨hnone, fun idempotencyKey now db hmark => ?_⟩
    obtain ⟨_, hany, hrest⟩ := query_bind_ok.mp hmark
    obtain ⟨_, _, hexecute, hreply⟩ := bind_ok.mp hrest
    obtain ⟨rfl, -⟩ := pure_ok.mp hreply
    obtain ⟨row, hrow, hmatch⟩ := List.any_eq_true.mp hany
    simp only [Bool.and_eq_true, beq_iff_eq] at hmatch
    exact ⟨row, hrow, hmatch.1, hnone row hrow⟩
  · intro run agent sender commandId args scope now hended haction
    have hinactive : w.db.activeRun ≠ some run := by
      intro hactive
      rw [(hvalid.active_live hactive).1] at hended
      cases hended
    exact ⟨control_stop_unchanged haction hinactive, fun s hreaches =>
      control_stop_stale hreaches haction hinactive⟩

namespace Sample

def groupWork : Work where
  task := { task with conversationScope := .groupVisible "group", triggerKind := .groupMention }
  runId := "run-a"

def profile : RuntimeAgentProfile where
  agentDid := "did:agent"
  runtimeProfileId := "profile"
  controllerScopeKey := "scope"

def bodyHash : String → String := fun _ =>
  "sha256:0000000000000000000000000000000000000000000000000000000000000000"

def reply (work : Work) : RuntimeFinalOutboxRecord :=
  (runtimeFinalOutboxRecord bodyHash profile work "done" 0).toOption.getD
    { idempotencyKey := "", runId := "", agentDid := "", runtimeProfileId := "",
      controllerScopeKey := "", controllerDid := "", recipientDid := "", conversationId := none,
      finalText := "", finalSource := "", finalBodyHash := "", security := .defaultPlain,
      nextAttemptAtMs := 0, createdAtMs := 0, updatedAtMs := 0 }

def submittedIn (work : Work) : World :=
  (World.step "key" validate {} (.submit work)).getD {}

def repliedIn (work : Work) : World :=
  (World.step "key" validate (submittedIn work) (.finishWithFinal (reply work) 0)).getD {}

def lateStop : ControlArgs where
  sessionKey := some "key"
  action := some (.stop (some "run-a"))
  revision := some 0

theorem repliedIn_run (work : Work)
    (hsubmit : (World.step "key" validate {} (.submit work)).isSome = true)
    (hfinish : (World.step "key" validate (submittedIn work)
      (.finishWithFinal (reply work) 0)).isSome = true)
    (hwork : work ∈ (submittedIn work).submitted) :
    HostedRuns "key" validate bodyHash {}
      [.submit work, .finishWithFinal (reply work) 0] (repliedIn work) := by
  refine .cons (t := submittedIn work) ⟨trivial, ?_⟩ (.cons (t := repliedIn work) ⟨?_, ?_⟩ (.nil _))
  · exact (Option.getD_of_ne_none (Option.ne_none_iff_isSome.mpr hsubmit) _).symm
  · exact ⟨profile, work, hwork, "done", 0, rfl⟩
  · exact (Option.getD_of_ne_none (Option.ne_none_iff_isSome.mpr hfinish) _).symm

def sessionOf (w : World) : Session := w.db.session.getD (Session.new "key" task)

theorem first_reached :
    Reaches (repliedIn first).db "did:agent" "command" lateStop (.ok "scope")
      (sessionOf (repliedIn first)) := by
  refine ⟨by decide +kernel, by decide +kernel, by decide +kernel, ?_, ?_, 0, rfl, Nat.zero_le _⟩
  · exact Option.isNone_iff_eq_none.mp (by decide +kernel)
  · exact congrArg Except.ok (by decide +kernel)

theorem group_reached :
    Reaches (repliedIn groupWork).db "did:agent" "command" lateStop (.ok "scope")
      (sessionOf (repliedIn groupWork)) := by
  refine ⟨by decide +kernel, by decide +kernel, by decide +kernel, ?_, ?_, 0, rfl, Nat.zero_le _⟩
  · exact Option.isNone_iff_eq_none.mp (by decide +kernel)
  · exact congrArg Except.ok (by decide +kernel)

/-- A stop that comes after the reply is stale. -/
theorem late_stop_stale : finished ((repliedIn first).db.record? "run-a") = true ∧
    (control validate "did:agent" "did:controller" "command" lateStop (.ok "scope") 0).run
      (repliedIn first).db = .error "stale_task" (repliedIn first).db := by
  have hrun := repliedIn_run first (by decide +kernel) (by decide +kernel)
    (by decide +kernel)
  have hlate := (stop_and_reply_exclude hrun).2.2.2.2 "run-a" "did:agent" "did:controller" "command"
    lateStop (.ok "scope") 0 (by decide +kernel) rfl
  have hgroup : (sessionOf (repliedIn first)).group = false := by decide +kernel
  have hanswer := hlate.2 _ first_reached
  rw [hgroup] at hanswer
  exact ⟨by decide +kernel, hanswer⟩

/-- In a group, a stop that comes after the reply is not told that the task is stale. -/
theorem group_stop_unsupported :
    HostedRuns "key" validate bodyHash {}
        [.submit groupWork, .finishWithFinal (reply groupWork) 0] (repliedIn groupWork) ∧
      finished ((repliedIn groupWork).db.record? "run-a") = true ∧
      (control validate "did:agent" "did:controller" "command" lateStop (.ok "scope") 0).run
        (repliedIn groupWork).db = .error "unsupported_in_group" (repliedIn groupWork).db := by
  have hrun := repliedIn_run groupWork (by decide +kernel) (by decide +kernel)
    (by decide +kernel)
  have hinactive : (repliedIn groupWork).db.activeRun ≠ some "run-a" := by decide +kernel
  have hgroup : (sessionOf (repliedIn groupWork)).group = true := by decide +kernel
  have hanswer :
      (control validate "did:agent" "did:controller" "command" lateStop (.ok "scope") 0).run
        (repliedIn groupWork).db = _ := control_stop_stale group_reached rfl hinactive
  rw [hgroup] at hanswer
  exact ⟨hrun, by decide +kernel, hanswer⟩

end Sample

end Acp
end Awiki

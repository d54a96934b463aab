import Awiki.AcpReplies

/-!
# Waiting tasks start on demand

A task that waits is started by the end of the task before it, or by a command that names it.
The requests that were accepted since the active task started are followed next to the flags
`stopping`, `execute_after_stop`, `waiting_paused` and `context_lost` of the session.

`stop` leaves `execute_after_stop` set, and a completion that should start the waiting task
clears `waiting_paused` although a lost context keeps it from starting; runs in which neither
happens are the orderly ones.
-/

namespace Awiki
namespace Acp

open Tx

/-! ## Requests -/

inductive Request where
  | stop
  | execute (runId : String)
  | cancel
  | shutdown
  deriving DecidableEq

def Operation.asks : Operation → List Request
  | .control _ _ _ args _ _ =>
    match args.action with
    | some (.stop _) => [.stop]
    | some (.executeWaiting (some runId)) => [.execute runId]
    | some (.cancelWaiting _) => [.cancel]
    | _ => []
  | .requestShutdown => [.shutdown]
  | _ => []

section Stepping

variable (key : String) (validate : Question → Json → Except String Json)

def World.accepted (w : World) (op : Operation) : List Request :=
  match (op.perform key validate).run w.db with
  | .ok _ db =>
    match op with
    | .control .. => if db.commands.length = w.db.commands.length then [] else op.asks
    | _ => op.asks
  | .error _ _ => []

structure Watched where
  world : World := {}
  requests : List Request := []

def Watched.step (v : Watched) (op : Operation) : Option Watched := do
  let world ← v.world.step key validate op
  return {
    world := world
    requests :=
      if world.db.activeRun ≠ v.world.db.activeRun ∧ world.db.activeRun.isSome then []
      else v.requests ++ v.world.accepted key validate op }

def Operation.outcome (s : Session) : Operation → Option TaskState
  | .complete _ outcome => some outcome
  | .finishWithFinal _ _ => some (if s.stopping then .cancelled else .finished)
  | _ => none

/--
No stop is accepted while the waiting task is to follow, and no completion lets a task follow
whose context is lost.
-/
def Orderly (v : Watched) (op : Operation) : Prop :=
  ∀ s ∈ v.world.db.session,
    (.stop ∈ v.world.accepted key validate op → s.executeAfterStop = false) ∧
      ∀ outcome ∈ op.outcome s, s.contextLost = true → s.waiting.isSome = true →
        s.proceeds outcome = false

instance (v : Watched) (op : Operation) : Decidable (Orderly key validate v op) :=
  inferInstanceAs (Decidable (∀ s ∈ v.world.db.session, _ ∧ _))

abbrev OrderlyRuns : Watched → List Operation → Watched → Prop :=
  Run fun v op v' => Orderly key validate v op ∧ v.step key validate op = some v'

end Stepping

/-! ## Flags -/

structure Paused (s : Session) (requests : List Request) : Prop where
  paused : s.active = none → s.waiting.isSome = true → s.waitingPaused = true
  after : s.active.isSome = true → s.executeAfterStop = true →
    ∃ work, s.waiting = some work ∧ requests.getLast? = some (.execute work.runId)
  going : s.active.isSome = true → s.stopping = false → ∀ request ∈ requests, request = .cancel

def requestsAfter (s s' : Session) (requests asked : List Request) : List Request :=
  if s'.active.map (·.runId) ≠ s.active.map (·.runId) ∧ (s'.active.map (·.runId)).isSome then []
  else requests ++ asked

variable {s s' : Session} {requests asked : List Request} {work : Work} {key : String}
  {v v' : Watched} {op : Operation} {outcome : TaskState}

theorem Paused.stay (h : s'.active = s.active) (hpaused : Paused s' (requests ++ asked)) :
    Paused s' (requestsAfter s s' requests asked) := by
  have hsame : requestsAfter s s' requests asked = requests ++ asked := by
    simp [requestsAfter, h]
  rw [hsame]
  exact hpaused

theorem Paused.start (hother : s.active.map (·.runId) ≠ some work.runId)
    (hactive : s'.active = some work) (hafter : s'.executeAfterStop = false) :
    Paused s' (requestsAfter s s' requests asked) := by
  have hnone : requestsAfter s s' requests asked = [] := by
    unfold requestsAfter
    rw [hactive]
    exact if_pos ⟨Ne.symm hother, rfl⟩
  rw [hnone]
  constructor
  · intro hidle
    rw [hactive] at hidle
    cases hidle
  · intro _ htrue
    rw [hafter] at htrue
    cases htrue
  · simp

theorem Paused.idle (requests : List Request) (hidle : s.active = none)
    (hpaused : s.waiting.isSome = true → s.waitingPaused = true) : Paused s requests := by
  refine ⟨fun _ => hpaused, ?_, ?_⟩
  · intro hactive
    simp [hidle] at hactive
  · intro hactive
    simp [hidle] at hactive

theorem Paused.ended (requests : List Request)
    (h : s.contextLost = true → s.waiting.isSome = true → s.proceeds outcome = false)
    (hfollow : s.proceeds outcome = true → s.contextLost = false → s.waiting = none) :
    Paused (s.ended work outcome) requests := by
  refine .idle requests rfl ?_
  intro hwaiting
  have hwaiting' : s.waiting.isSome = true := hwaiting
  have hproceeds : s.proceeds outcome = false := by
    rw [Bool.eq_false_iff]
    intro hproceeds
    cases hlost : s.contextLost with
    | true =>
      rw [h hlost hwaiting'] at hproceeds
      cases hproceeds
    | false =>
      rw [hfollow hproceeds hlost] at hwaiting'
      cases hwaiting'
  have hpaused : (s.ended work outcome).waitingPaused =
      (!s.proceeds outcome && s.waiting.isSome) := rfl
  rw [hpaused, hproceeds, hwaiting']
  rfl

section Changes

variable {s s' : Session} {requests : List Request}

def Session.Distinct (s : Session) : Prop :=
  ∀ work waiting, s.active = some work → s.waiting = some waiting → work.runId ≠ waiting.runId

theorem Session.Distinct.active_ne (h : s.Distinct) {waiting : Work}
    (hwaiting : s.waiting = some waiting) : s.active.map (·.runId) ≠ some waiting.runId := by
  intro heq
  obtain ⟨work, hwork, hrun⟩ := Option.map_eq_some_iff.mp heq
  exact h work waiting hwork hwaiting hrun

theorem Paused.complete {runId : String} {next : Option Work} {asked : List Request}
    (h : s.complete runId outcome = .ok (s', next)) (hdistinct : s.Distinct)
    (horderly : s.contextLost = true → s.waiting.isSome = true → s.proceeds outcome = false) :
    Paused s' (requestsAfter s s' requests asked) := by
  obtain ⟨work, hactive, -, hcases⟩ := Session.complete_cases h
  rcases hcases with ⟨-, -, waiting, hwaiting, -, rfl⟩ | ⟨hfollow, -, rfl⟩
  · exact .start (hdistinct.active_ne hwaiting) rfl rfl
  · exact .ended _ horderly hfollow

theorem Paused.submit {work : Work} {leads : Bool} (hpaused : Paused s requests)
    (h : s.submit work = .ok (s', leads)) : Paused s' (requestsAfter s s' requests []) := by
  unfold Session.submit at h
  obtain ⟨-, h⟩ := except_unless.mp h
  obtain ⟨-, h⟩ := except_unless.mp h
  dsimp only at h
  split at h
  · rename_i hbusy
    obtain ⟨-, h⟩ := except_unless.mp h
    obtain ⟨-, h⟩ := except_unless.mp h
    obtain ⟨hfree, h⟩ := except_unless.mp h
    cases h
    have hnone : s.waiting = none := by simpa using hfree
    have hactive : s.active.isSome = true := by simpa [hnone] using hbusy
    refine .stay rfl ?_
    rw [List.append_nil]
    refine ⟨fun hidle => ?_, fun _ hafter => ?_, fun _ => hpaused.going hactive⟩
    · have hidle' : s.active = none := hidle
      rw [hidle'] at hactive
      cases hactive
    · obtain ⟨waiting, hwaiting, -⟩ := hpaused.after hactive hafter
      rw [hnone] at hwaiting
      cases hwaiting
  · rename_i hfree
    cases h
    have hidle : s.active = none := by
      cases hactive : s.active with
      | none => rfl
      | some work => simp [hactive] at hfree
    refine .start ?_ rfl rfl
    rw [hidle]
    simp

theorem Paused.accepts {action : Session.Action} {work : Option Work} {agent sender commandId : String}
    {args : ControlArgs} {scope : Except String String} {now : Int} (hpaused : Paused s requests)
    (h : s.Accepts action s' work) (haction : args.action = some action)
    (horderly : .stop ∈ (Operation.control agent sender commandId args scope now).asks →
      s.executeAfterStop = false) :
    Paused s' (requestsAfter s s' requests
      (Operation.control agent sender commandId args scope now).asks) := by
  unfold Operation.asks at horderly ⊢
  dsimp only at horderly ⊢
  rw [haction] at horderly ⊢
  cases h with
  | answer =>
    refine .stay rfl ?_
    rw [List.append_nil]
    exact ⟨hpaused.paused, hpaused.after, hpaused.going⟩
  | stop active hactive =>
    have hafter : s.executeAfterStop = false := horderly (by simp)
    refine .stay rfl ?_
    refine ⟨fun hidle => ?_, fun _ htrue => ?_, fun _ hfalse => by cases hfalse⟩
    · have hidle' : s.active = none := hidle
      rw [hidle'] at hactive
      cases hactive
    · have htrue' : s.executeAfterStop = true := htrue
      rw [hafter] at htrue'
      cases htrue'
  | executeAfter waiting hwaiting hbusy =>
    refine .stay rfl ?_
    refine ⟨fun hidle => ?_, fun _ _ => ⟨waiting, hwaiting, by simp⟩, fun _ hfalse => by cases hfalse⟩
    have hidle' : s.active = none := hidle
    rw [hidle'] at hbusy
    cases hbusy
  | execute waiting hwaiting hidle =>
    refine .start ?_ rfl rfl
    rw [hidle]
    simp
  | cancel waiting hwaiting =>
    refine .stay rfl ?_
    refine ⟨fun _ hsome => ?_, fun _ htrue => ?_, fun hactive hgoing request hmem => ?_⟩
    · cases hsome
    · cases htrue
    · rcases List.mem_append.mp hmem with hold | hnew
      · exact hpaused.going hactive hgoing request hold
      · exact List.mem_singleton.mp hnew
  | reset hidle =>
    exact .idle _ hidle fun hwaiting => hpaused.paused hidle hwaiting

variable {op : Operation}

theorem Operation.Changes.paused (h : op.Changes s s')
    (hpaused : Paused s requests) (hdistinct : s.Distinct)
    (hstop : .stop ∈ op.asks → s.executeAfterStop = false)
    (hcomplete : ∀ outcome, op.outcome s = some outcome → s.contextLost = true →
      s.waiting.isSome = true → s.proceeds outcome = false) :
    Paused s' (requestsAfter s s' requests op.asks) := by
  cases h with
  | submit h => exact hpaused.submit h
  | complete houtcome h => exact .complete h hdistinct (hcomplete _ rfl)
  | finish hreplying h => exact .complete h hdistinct (hcomplete _ rfl)
  | control haction h => exact hpaused.accepts h haction hstop
  | recover =>
    refine .idle _ ?_ ?_
    · cases hactive : s.active <;>
        simp [Session.recover, Session.closeQuestions, Session.leave, hactive]
    · cases hactive : s.active <;>
        simp [Session.recover, Session.closeQuestions, Session.leave, hactive]
  | requestShutdown =>
    cases hactive : s.active with
    | none =>
      have hsame : s.requestShutdown = s := by simp [Session.requestShutdown, hactive]
      rw [hsame]
      exact .idle _ hactive (hpaused.paused hactive)
    | some work =>
      have hbusy : s.active.isSome = true := by rw [hactive]; rfl
      have hactive' : s.requestShutdown.active = s.active := by
        simp [Session.requestShutdown, Session.closeQuestions, hbusy]
      have hflags : s.requestShutdown.stopping = true ∧
          s.requestShutdown.executeAfterStop = false := by
        simp [Session.requestShutdown, Session.closeQuestions, hbusy]
      refine ⟨fun hidle => ?_, fun _ htrue => ?_, fun _ hfalse => ?_⟩
      · rw [hactive', hactive] at hidle
        cases hidle
      · rw [hflags.2] at htrue
        cases htrue
      · rw [hflags.1] at hfalse
        cases hfalse
  | stream h =>
    have hstreams := Session.stream_streams h
    refine .stay hstreams.active ?_
    refine ⟨fun hidle hwaiting => ?_, fun hactive htrue => ?_, fun hactive hfalse => ?_⟩
    · rw [hstreams.waitingPaused]
      rw [hstreams.active] at hidle
      rw [hstreams.waiting] at hwaiting
      exact hpaused.paused hidle hwaiting
    · rw [hstreams.active] at hactive
      rcases hstreams.stops with ⟨-, hsame⟩ | ⟨-, hcleared⟩
      · rw [hsame] at htrue
        obtain ⟨work, hwork, hlast⟩ := hpaused.after hactive htrue
        exact ⟨work, hstreams.waiting.trans hwork, by simpa [Operation.asks] using hlast⟩
      · rw [hcleared] at htrue
        cases htrue
    · rw [hstreams.active] at hactive
      rcases hstreams.stops with ⟨hsame, -⟩ | ⟨hset, -⟩
      · rw [hsame] at hfalse
        simpa [Operation.asks] using hpaused.going hactive hfalse
      · rw [hset] at hfalse
        cases hfalse

theorem Operation.Changes.stop_active (h : op.Changes s s') (hstop : .stop ∈ op.asks) :
    s.active.isSome = true := by
  cases h with
  | control haction h =>
    unfold Operation.asks at hstop
    dsimp only at hstop
    rw [haction] at hstop
    cases h with
    | stop work hwork => simp [hwork]
    | _ => simp at hstop
  | _ => simp [Operation.asks] at hstop

theorem Operation.Changes.starts (h : op.Changes s s') (hpaused : Paused s requests)
    (hdistinct : s.Distinct) {work : Work} (hwork : s.waiting = some work)
    (hstarts : s'.active.map (·.runId) = some work.runId) :
    (op.outcome s = some .finished ∧ s.active.isSome = true ∧
        ∀ request ∈ requests, request = .cancel) ∨
      (requests ++ op.asks).getLast? = some (.execute work.runId) := by
  have hother := hdistinct.active_ne hwork
  have hstayed : s'.active ≠ s.active := by
    intro heq
    rw [heq] at hstarts
    exact hother hstarts
  have hcompleted : ∀ {runId outcome next}, s.complete runId outcome = .ok (s', next) →
      op.outcome s = some outcome → op.asks = [] →
      (op.outcome s = some .finished ∧ s.active.isSome = true ∧
          ∀ request ∈ requests, request = .cancel) ∨
        (requests ++ op.asks).getLast? = some (.execute work.runId) := by
    intro runId outcome next hcomplete houtcome hasks
    obtain ⟨active, hactive, -, ⟨hproceeds, -⟩ | ⟨-, -, rfl⟩⟩ := Session.complete_cases hcomplete
    · have hbusy : s.active.isSome = true := by rw [hactive]; rfl
      unfold Session.proceeds at hproceeds
      simp only [Bool.or_eq_true, Bool.and_eq_true, beq_iff_eq, Bool.not_eq_true'] at hproceeds
      rcases hproceeds with ⟨hfinished, hgoing⟩ | ⟨-, hafter⟩
      · exact .inl ⟨houtcome.trans (congrArg some hfinished), hbusy, hpaused.going hbusy hgoing⟩
      · obtain ⟨waiting, hwaiting, hlast⟩ := hpaused.after hbusy hafter
        cases hwork.symm.trans hwaiting
        rw [hasks, List.append_nil]
        exact .inr hlast
    · cases hstarts
  cases h with
  | submit h =>
    cases (Session.submit_moves h).2 with
    | enter _ _ hnone => cases hwork.symm.trans hnone
    | queue _ _ hnone => cases hwork.symm.trans hnone
  | complete houtcome h => exact hcompleted h rfl rfl
  | finish hreplying h => exact hcompleted h rfl rfl
  | control haction h =>
    cases h with
    | execute waiting hwaiting =>
      cases hwork.symm.trans hwaiting
      right
      unfold Operation.asks
      simp [haction]
    | _ => exact absurd rfl hstayed
  | recover =>
    have hgone : s.recover.active = none := by
      cases hactive : s.active <;>
        simp [Session.recover, Session.closeQuestions, Session.leave, hactive]
    rw [hgone] at hstarts
    cases hstarts
  | requestShutdown =>
    refine absurd ?_ hstayed
    unfold Session.requestShutdown
    split <;> rfl
  | stream h => exact absurd (Session.stream_streams h).active hstayed

end Changes

/-! ## Runs -/

theorem Paused.saved (h : Paused s requests) :
    Paused s.saved requests := by
  have hactive : s.saved.active = s.active := saved_active s
  have hwaiting : s.saved.waiting = s.waiting := saved_waiting s
  refine ⟨?_, ?_, ?_⟩
  · rw [hactive, hwaiting, saved_keeps (f := Session.waitingPaused) (fun _ _ => rfl) s]
    exact h.paused
  · rw [hactive, hwaiting, saved_keeps (f := Session.executeAfterStop) (fun _ _ => rfl) s]
    exact h.after
  · rw [hactive, saved_keeps (f := Session.stopping) (fun _ _ => rfl) s]
    exact h.going

theorem requestsAfter_saved {db db' : AcpDb} (hactive : db.activeRun = s.active.map (·.runId))
    (hsession : db'.session = some s'.saved) :
    (if db'.activeRun ≠ db.activeRun ∧ db'.activeRun.isSome then [] else requests ++ asked) =
      requestsAfter s s' requests asked := by
  rw [hactive, activeRun_saved hsession]
  rfl

structure Watched.Valid (v : Watched) : Prop where
  world : v.world.Valid
  paused : ∀ s, v.world.db.session = some s → Paused s v.requests

theorem Session.distinct_of_inv {w : World} (h : w.Valid) (hs : w.db.session = some s) :
    s.Distinct := by
  intro work waiting hwork hwaiting
  refine h.slots.distinct ?_ ?_
  · simp [World.slots, AcpDb.activeRun, hs, hwork]
  · simp [World.slots, AcpDb.waitingRun, hs, hwaiting]

section

variable {validate : Question → Json → Except String Json}

theorem Watched.step_cases (h : v.step key validate op = some v') :
    v.world.step key validate op = some v'.world ∧ v'.requests =
      if v'.world.db.activeRun ≠ v.world.db.activeRun ∧ v'.world.db.activeRun.isSome then []
      else v.requests ++ v.world.accepted key validate op := by
  unfold Watched.step at h
  obtain ⟨world, hworld, heq⟩ := Option.bind_eq_some_iff.mp h
  cases heq
  exact ⟨hworld, rfl⟩

inductive Served (v v' : Watched) (asked : List Request) (op : Operation) : Prop
  | unchanged (hsession : v'.world.db.session = v.world.db.session) (hasked : asked = []) :
      Served v v' asked op
  | repeated (s s' : Session) (hs : v.world.db.session = some s) (hchange : op.Changes s s')
      (hsame : s = { s' with pendingRecords := [] }) (hdb : v'.world.db = v.world.db)
      (hasked : asked = op.asks) : Served v v' asked op
  | changed (s s' : Session)
      (hrow : v.world.db.session = some s ∨
        (v.world.db.session = none ∧ s.active = none ∧ s.waiting = none))
      (hchange : op.Changes s s') (hsession : v'.world.db.session = some s'.saved)
      (hasked : asked = op.asks) : Served v v' asked op

theorem Watched.served (hvalid : v.world.Valid) (h : v.world.step key validate op = some v'.world) :
    Served v v' (v.world.accepted key validate op) op := by
  obtain ⟨hop, -, -, hcases⟩ := World.step_cases h
  unfold World.accepted
  rcases hcases with ⟨reply, hperform, -, -⟩ | ⟨hdb, -, -, e, hperform⟩
  · rw [hperform]
    dsimp only
    have hplain : op.asks = [] → Served v v' op.asks op := by
      intro hnone
      cases Operation.perform_effect hop hvalid.clean hperform with
      | still _ hsession => exact .unchanged hsession hnone
      | moved s s' hrow _ hchange hsession => exact .changed s s' hrow hchange hsession rfl
    cases op with
    | control agent sender commandId args scope now =>
      obtain ⟨⟨snapshot, work⟩, t, hcontrol, hreply⟩ := bind_ok.mp hperform
      obtain ⟨-, rfl⟩ := pure_ok.mp hreply
      rcases control_ok hcontrol with ⟨hsame, -⟩ | ⟨s, s', action, hcontrols⟩
      · rw [hsame]
        exact .unchanged (congrArg AcpDb.session hsame) (if_pos rfl)
      · refine .changed s s' (.inl hcontrols.session) (.control hcontrols.named hcontrols.accepts)
          hcontrols.session' (if_neg ?_)
        rw [hcontrols.commands]
        omega
    | requestShutdown =>
      obtain ⟨_, hmutate, -⟩ := bind_pure_ok.mp hperform
      obtain ⟨s, s', hs, hresult, hcases⟩ := mutate_ok hmutate
      rw [Option.or_none] at hs
      cases hresult
      rcases hcases with ⟨hunchanged, hdb⟩ | hsaves
      · exact .repeated s _ hs (.requestShutdown s) (Option.some.inj (hs.symm.trans hunchanged))
          hdb rfl
      · exact .changed s _ (.inl hs) (.requestShutdown s) hsaves.session rfl
    | _ => exact hplain rfl
  · rw [hperform]
    exact .unchanged (congrArg AcpDb.session hdb) rfl

theorem Watched.Valid.step (h : v.Valid) (horderly : Orderly key validate v op)
    (hstep : v.step key validate op = some v') : v'.Valid := by
  obtain ⟨hworld, hrequests⟩ := Watched.step_cases hstep
  refine ⟨h.world.step hworld, ?_⟩
  intro saved hsaved
  cases Watched.served h.world hworld with
  | unchanged hsession hasked =>
    have hactive : v'.world.db.activeRun = v.world.db.activeRun := by
      unfold AcpDb.activeRun
      rw [hsession]
    rw [hrequests, hasked, List.append_nil, if_neg (by simp [hactive])]
    exact h.paused saved (hsession.symm.trans hsaved)
  | repeated s s' hs hchange hsame hdb hasked =>
    obtain ⟨hstop, hcomplete⟩ := horderly s hs
    rw [hasked] at hstop
    have hpaused := hchange.paused (h.paused s hs) (Session.distinct_of_inv h.world hs) hstop
      hcomplete
    have hslot : s'.active = s.active := by rw [hsame]
    have hactive : v'.world.db.activeRun = v.world.db.activeRun := by rw [hdb]
    have hrequests' : v'.requests = requestsAfter s s' v.requests op.asks := by
      rw [hrequests, hasked, if_neg (by simp [hactive])]
      simp [requestsAfter, hslot]
    rw [hdb] at hsaved
    cases hs.symm.trans hsaved
    rw [hrequests', hsame]
    rw [hsame] at hpaused
    exact ⟨hpaused.paused, hpaused.after, hpaused.going⟩
  | changed s s' hrow hchange hsession hasked =>
    cases hsession.symm.trans hsaved
    have hactive : v.world.db.activeRun = s.active.map (·.runId) := by
      rcases hrow with hs | ⟨hs, hidle, -⟩
      · simp [AcpDb.activeRun, hs]
      · simp [AcpDb.activeRun, hs, hidle]
    rw [hrequests, hasked, requestsAfter_saved hactive hsession]
    refine Paused.saved ?_
    rcases hrow with hs | ⟨-, hidle, hnone⟩
    · obtain ⟨hstop, hcomplete⟩ := horderly s hs
      rw [hasked] at hstop
      exact hchange.paused (h.paused s hs) (Session.distinct_of_inv h.world hs) hstop hcomplete
    · -- a session that does not exist yet has no tasks
      refine hchange.paused (.idle _ hidle (by simp [hnone])) ?_ ?_ ?_
      · intro work waiting hwork
        cases hidle.symm.trans hwork
      · intro hstop
        have hbusy := hchange.stop_active hstop
        simp [hidle] at hbusy
      · intro outcome _ _ hwaiting
        simp [hnone] at hwaiting

end

theorem Watched.valid_empty : Watched.Valid {} := by
  refine ⟨World.valid_empty, ?_⟩
  intro s hs
  cases hs

theorem finished_of_outcome {old : Option TaskRecord} (h : op.Changes s s')
    (hpending : s.pendingRecords = []) (hwork : s.active = some work)
    (houtcome : op.outcome s = some .finished) (hlive : ended old = false) :
    finished (writes s'.savedRecords work.runId old) = true := by
  cases h with
  | complete _ h =>
    cases houtcome
    obtain ⟨active, hactive, rfl, -⟩ := Session.complete_records h
    cases hwork.symm.trans hactive
    exact finished_of_complete h hpending hlive
  | finish hreplying h =>
    rw [Option.some.inj houtcome, ← hreplying.runId] at h
    cases hwork.symm.trans hreplying.active
    exact finished_of_complete h hpending hlive
  | _ => cases houtcome

/--
In every orderly run: a task that waits while none is active is paused, and a waiting task
becomes active only when the active task completes as finished with no stop, execution or
shutdown accepted since it started, or when the last request accepted since then, this
operation included, is to execute that task.
-/
theorem waiting_task_starts_on_demand {key : String}
    {validate : Question → Json → Except String Json} {ops : List Operation} {v : Watched}
    (hrun : OrderlyRuns key validate {} ops v) :
    (∀ s, v.world.db.session = some s → s.active = none → s.waiting.isSome = true →
        s.waitingPaused = true) ∧
      ∀ op v' run, Orderly key validate v op → v.step key validate op = some v' →
        v.world.db.waitingRun = some run → v'.world.db.activeRun = some run →
        (∃ active, v.world.db.activeRun = some active ∧
            finished (v'.world.db.record? active) = true ∧
            ∀ request ∈ v.requests ++ v.world.accepted key validate op, request = .cancel) ∨
          (v.requests ++ v.world.accepted key validate op).getLast? = some (.execute run) := by
  have hvalid : v.Valid :=
    hrun.invariant (fun _ _ _ hv hstep => hv.step hstep.1 hstep.2) Watched.valid_empty
  refine ⟨fun s hs => (hvalid.paused s hs).paused, ?_⟩
  intro op v' run horderly hstep hwaiting hstarts
  obtain ⟨hworld, -⟩ := Watched.step_cases hstep
  have hother : v.world.db.activeRun ≠ some run := fun hactive =>
    hvalid.world.slots.distinct hactive hwaiting rfl
  have hchanged : v'.world.db.session ≠ v.world.db.session := by
    intro hsame
    unfold AcpDb.activeRun at hother hstarts
    rw [hsame] at hstarts
    exact hother hstarts
  have hasked : v.world.accepted key validate op = op.asks := by
    cases Watched.served hvalid.world hworld with
    | unchanged hsession => exact absurd hsession hchanged
    | repeated _ _ _ _ _ hdb => exact absurd (congrArg AcpDb.session hdb) hchanged
    | changed _ _ _ _ _ hasked => exact hasked
  rw [hasked]
  obtain ⟨hop, -, -, hcases⟩ := World.step_cases hworld
  rcases hcases with ⟨reply, hperform, -, -⟩ | ⟨hdb, -⟩
  · cases Operation.perform_effect hop hvalid.world.clean hperform with
    | still _ hsession => exact absurd hsession hchanged
    | moved s s' hrow hpending hchange hsession hrecords =>
      rcases hrow with hs | ⟨hs, -⟩
      · have hslot : ∃ work, s.waiting = some work ∧ work.runId = run := by
          simpa [AcpDb.waitingRun, hs] using hwaiting
        obtain ⟨work, hwork, rfl⟩ := hslot
        rw [activeRun_saved hsession] at hstarts
        rcases hchange.starts (hvalid.paused s hs) (Session.distinct_of_inv hvalid.world hs) hwork
          hstarts with ⟨houtcome, hbusy, honly⟩ | hlast
        · obtain ⟨active, hactive⟩ := Option.isSome_iff_exists.mp hbusy
          have hslot : v.world.db.activeRun = some active.runId :=
            activeRun_eq_some.mpr ⟨s, active, hs, hactive, rfl⟩
          have hnone : op.asks = [] := by
            cases op with
            | complete | finishWithFinal => rfl
            | _ => cases houtcome
          refine .inl ⟨active.runId, hslot, ?_, ?_⟩
          · rw [hrecords]
            exact finished_of_outcome hchange hpending hactive houtcome
              (hvalid.world.active_live hslot).1
          · rw [hnone, List.append_nil]
            exact honly
        · exact .inr hlast
      · simp [AcpDb.waitingRun, hs] at hwaiting
  · exact absurd (congrArg AcpDb.session hdb) hchanged

namespace Sample

def command (action : Session.Action) (commandId : String) : Operation :=
  .control "did:agent" "did:controller" commandId
    { sessionKey := some "key", action := some action, revision := some 0 } (.ok "scope") 0

def watch (ops : List Operation) : Watched :=
  (ops.foldlM (Watched.step "key" validate) {}).getD {}

def stopAfterExecute : List Operation :=
  [.submit first, .submit second, command (.executeWaiting (some "run-b")) "c1",
    command (.stop (some "run-a")) "c2", .complete "run-a" .cancelled]

def executeAfterLoss : List Operation :=
  [.submit first, .submit second, .stream (.opened "native" (.obj []) (.arr []) 0),
    .stream (.contextLost "run-a" "native"), command (.executeWaiting (some "run-b")) "c1",
    .complete "run-a" .cancelled]

def executeWaiting : List Operation :=
  [.submit first, .submit second, command (.executeWaiting (some "run-b")) "c1"]

theorem executed_task_was_requested :
    (watch executeWaiting).world.db.waitingRun = some "run-b" ∧
      (watch executeWaiting).requests.getLast? = some (.execute "run-b") := by
  have hrun : OrderlyRuns "key" validate {} executeWaiting (watch executeWaiting) :=
    Run.of_checked (by decide +kernel)
  have hstep : (watch executeWaiting).step "key" validate (.complete "run-a" .cancelled) =
      some (((watch executeWaiting).step "key" validate (.complete "run-a" .cancelled)).getD {}) :=
    (Option.getD_of_ne_none (Option.ne_none_iff_isSome.mpr (by decide +kernel)) _).symm
  refine ⟨by decide +kernel, ?_⟩
  rcases (waiting_task_starts_on_demand hrun).2 _ _ "run-b" (by decide +kernel) hstep
    (by decide +kernel) (by decide +kernel) with ⟨active, hactive, hfinished, -⟩ | hlast
  · have hrunA : active = "run-a" :=
      Option.some.inj (hactive.symm.trans (by decide +kernel))
    rw [hrunA] at hfinished
    revert hfinished
    decide +kernel
  · have hnone : (watch executeWaiting).world.accepted "key" validate
        (.complete "run-a" .cancelled) = [] := by
      decide +kernel
    rw [hnone, List.append_nil] at hlast
    exact hlast

/--
A waiting task starts although the last request was a stop, and a waiting task is left that is
neither started nor paused.
-/
theorem stopped_session_starts_waiting :
    (Run (fun v op v' => Watched.step "key" validate v op = some v') {} stopAfterExecute
        (watch stopAfterExecute) ∧
      (watch (stopAfterExecute.take 4)).requests = [.execute "run-b", .stop] ∧
      (watch stopAfterExecute).world.db.activeRun = some "run-b") ∧
    Run (fun v op v' => Watched.step "key" validate v op = some v') {} executeAfterLoss
        (watch executeAfterLoss) ∧
      (watch executeAfterLoss).world.db.activeRun = none ∧
      (watch executeAfterLoss).world.db.waitingRun = some "run-b" ∧
      (watch executeAfterLoss).world.db.session.all (·.waitingPaused) = false := by
  refine ⟨⟨Run.of_isSome (by decide +kernel), by decide +kernel, by decide +kernel⟩,
    Run.of_isSome (by decide +kernel), by decide +kernel, by decide +kernel, by decide +kernel⟩

end Sample

end Acp
end Awiki

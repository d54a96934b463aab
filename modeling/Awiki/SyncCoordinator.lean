import Awiki.LocalStateSchema
import Awiki.Transactions
import Awiki.TransitionRuns

/-!
# The coordinator of message sync runs

`sync_coordinator.rs` lets any number of callers share the runs of one owner.  A caller
that finds no run active becomes the leader and drives runs until no more is pending; the
others wait for the active run or for the one after it.  Every waiter is answered when
its run is complete, when a run fails, or when the leader is dropped.
-/

namespace Awiki
namespace SyncCoordinator

open Tx

variable {runIds : List Nat}

inductive MessageSyncRequestKind where
  | ensureCurrent
  | dirtyAfterCurrent
  deriving DecidableEq

variable {kind : MessageSyncRequestKind}

inductive MessageSyncStatus where
  | idle
  | changed
  | recoveryRequired
  | retryableFailure
  | authRevoked
  | blocked
  deriving DecidableEq

/-- `MessageReceiveOutcome`; the coordinator only reads the status. -/
structure MessageReceiveOutcome (ω : Type) where
  status : MessageSyncStatus
  report : ω

structure MessageSyncRequest where
  reason : String
  limit : Option Nat
  deriving DecidableEq

variable {χ ω : Type}

abbrev RunResult (ω : Type) := Except ImError (MessageReceiveOutcome ω)

/-- `PendingSyncRun`, over the type of executors. -/
structure PendingSyncRun (χ : Type) where
  request : MessageSyncRequest
  executor : χ

/-- `SyncWaiter`; the sender is the name of its channel. -/
structure SyncWaiter where
  targetRunId : Nat
  sender : Nat
  deriving DecidableEq

/-- `MessageSyncCoordinatorState`. -/
structure CoordinatorState (χ : Type) where
  lastStartedRunId : Nat := 0
  activeRunId : Option Nat := none
  pending : Option (PendingSyncRun χ) := none
  waiters : List SyncWaiter := []

/-- `MessageSyncLeaderRun`. -/
structure LeaderRun (χ : Type) where
  runId : Nat
  request : MessageSyncRequest
  executor : χ

/-- `next_run_id`, of 64 bits. -/
def nextRunId (current : Nat) : Except ImError Nat :=
  if current + 1 < 2 ^ 64 then .ok (current + 1)
  else .error (.internal "message sync coordinator run id exhausted")

def mergePendingRequest (pending : PendingSyncRun χ) (request : MessageSyncRequest)
    (executor : χ) : PendingSyncRun χ where
  request :=
    { reason := request.reason
      limit :=
        match pending.request.limit, request.limit with
        | some left, some right => some (max left right)
        | left, right => left.or right }
  executor := executor

def sharedResultSucceeded (result : RunResult ω) : Bool :=
  match result with
  | .ok outcome => outcome.status == .idle || outcome.status == .changed
  | .error _ => false

variable {state' : CoordinatorState χ} {leader : Option (LeaderRun χ)} {executor : χ}

namespace CoordinatorState

def assign (state : CoordinatorState χ) (request : MessageSyncRequest)
    (kind : MessageSyncRequestKind) (executor : χ) :
    Except ImError (Nat × CoordinatorState χ × Option (LeaderRun χ)) :=
  match state.activeRunId with
  | none => do
      let runId ← nextRunId state.lastStartedRunId
      .ok (runId, { state with lastStartedRunId := runId, activeRunId := some runId },
        some { runId := runId, request := request, executor := executor })
  | some activeRunId =>
    match kind with
    | .ensureCurrent =>
      if state.pending.isSome then do
        let runId ← nextRunId activeRunId
        .ok (runId, state, none)
      else
        .ok (activeRunId, state, none)
    | .dirtyAfterCurrent => do
        let runId ← nextRunId activeRunId
        let pending :=
          match state.pending with
          | some pending => mergePendingRequest pending request executor
          | none => { request := request, executor := executor }
        .ok (runId, { state with pending := some pending }, none)

/-- `register`, with the channel that is opened for the waiter. -/
def register (state : CoordinatorState χ) (sender : Nat) (request : MessageSyncRequest)
    (kind : MessageSyncRequestKind) (executor : χ) :
    Except ImError (CoordinatorState χ × Option (LeaderRun χ)) := do
  let (targetRunId, state, leader) ← state.assign request kind executor
  let waiter : SyncWaiter := { targetRunId := targetRunId, sender := sender }
  .ok ({ state with waiters := state.waiters ++ [waiter] }, leader)

/-- `publish_waiters_through`: the state and the results that are sent. -/
def publishWaitersThrough (state : CoordinatorState χ) (runId : Nat) (result : RunResult ω) :
    CoordinatorState χ × List (Nat × RunResult ω) :=
  let covered := state.waiters.filter fun waiter => decide (waiter.targetRunId ≤ runId)
  let rest := state.waiters.filter fun waiter => !decide (waiter.targetRunId ≤ runId)
  ({ state with waiters := rest }, covered.map fun waiter => (waiter.sender, result))

def publishAllWaiters (state : CoordinatorState χ) (result : RunResult ω) :
    CoordinatorState χ × List (Nat × RunResult ω) :=
  ({ state with waiters := [] }, state.waiters.map fun waiter => (waiter.sender, result))

def failAllWaiters (state : CoordinatorState χ) (error : ImError) :
    CoordinatorState χ × List (Nat × RunResult ω) :=
  publishAllWaiters { state with pending := none, activeRunId := none } (.error error)

/-- The way out of `complete_run` that was taken. -/
inductive Exit where
  | activeRunChanged
  | runIdExhausted
  | nextRun
  | uncoveredWaiters
  | idle
  | failed
  deriving DecidableEq

/-- What `complete_run` did. -/
structure Completion (χ ω : Type) where
  state : CoordinatorState χ
  sent : List (Nat × RunResult ω)
  next : Option (LeaderRun χ)
  exit : Exit

def completeRun (state : CoordinatorState χ) (runId : Nat) (result : RunResult ω) :
    Completion χ ω :=
  if state.activeRunId ≠ some runId then
    let (state, sent) := state.failAllWaiters
      (.internal "message sync coordinator active run changed unexpectedly")
    { state, sent, next := none, exit := .activeRunChanged }
  else
    let (state, sent) := state.publishWaitersThrough runId result
    if sharedResultSucceeded result then
      match state.pending with
      | some pending =>
        let state := { state with pending := none }
        match nextRunId runId with
        | .ok nextRunId =>
          { state := { state with lastStartedRunId := nextRunId, activeRunId := some nextRunId }
            sent := sent
            next := some
              { runId := nextRunId, request := pending.request, executor := pending.executor }
            exit := .nextRun }
        | .error error =>
          let (state, failed) := state.failAllWaiters error
          { state, sent := sent ++ failed, next := none, exit := .runIdExhausted }
      | none =>
        let state := { state with activeRunId := none }
        if state.waiters.isEmpty then { state, sent, next := none, exit := .idle }
        else
          let (state, failed) := state.failAllWaiters
            (.internal "message sync coordinator left uncovered waiters")
          { state, sent := sent ++ failed, next := none, exit := .uncoveredWaiters }
    else
      let (state, rest) := { state with pending := none }.publishAllWaiters result
      { state := { state with activeRunId := none }, sent := sent ++ rest, next := none
        exit := .failed }

def failUnfinishedRun (state : CoordinatorState χ) :
    CoordinatorState χ × List (Nat × RunResult ω) :=
  if state.activeRunId.isNone && state.waiters.isEmpty then (state, [])
  else state.failAllWaiters
    (.localStateUnavailable "message sync coordinator task stopped before completion")

/-! ## The state -/

/-- Waiters wait for the active run or for a pending one after it. -/
structure Invariant (state : CoordinatorState χ) : Prop where
  idle : state.activeRunId = none → state.pending = none ∧ state.waiters = []
  active : ∀ runId, state.activeRunId = some runId → runId = state.lastStartedRunId ∧
    ∀ waiter ∈ state.waiters, waiter.targetRunId = runId ∨
      (waiter.targetRunId = runId + 1 ∧ state.pending.isSome = true)

variable {runId : Nat} {state : CoordinatorState χ} {sender : Nat} {request : MessageSyncRequest}

theorem nextRunId_ok {current : Nat} (h : nextRunId current = .ok runId) :
    runId = current + 1 := by
  unfold nextRunId at h
  split at h
  · cases h
    rfl
  · cases h

theorem register_cases (h : state.register sender request kind executor = .ok (state', leader)) :
    ∃ target, state'.waiters = state.waiters ++ [⟨target, sender⟩] ∧
      ((state.activeRunId = none ∧ target = state.lastStartedRunId + 1 ∧
          leader = some ⟨target, request, executor⟩ ∧ state'.activeRunId = some target ∧
          state'.lastStartedRunId = target ∧ state'.pending = state.pending) ∨
        ∃ runId, state.activeRunId = some runId ∧ leader = none ∧
          state'.activeRunId = some runId ∧
          state'.lastStartedRunId = state.lastStartedRunId ∧
          (state.pending.isSome = true → state'.pending.isSome = true) ∧
          ((target = runId ∧ kind = .ensureCurrent) ∨
            (target = runId + 1 ∧ state'.pending.isSome = true))) := by
  unfold register at h
  obtain ⟨⟨target, assigned, leader'⟩, hassign, hpush⟩ := except_bind_ok.mp h
  cases hpush
  refine ⟨target, ?_⟩
  unfold assign at hassign
  cases hactive : state.activeRunId with
  | none =>
    simp only [hactive] at hassign
    obtain ⟨runId, hnext, hassign⟩ := except_bind_ok.mp hassign
    cases hassign
    exact ⟨rfl, .inl ⟨rfl, nextRunId_ok hnext, rfl, rfl, rfl, rfl⟩⟩
  | some runId =>
    simp only [hactive] at hassign
    cases kind with
    | ensureCurrent =>
      simp only at hassign
      split at hassign
      · rename_i hpending
        obtain ⟨runId', hnext, hassign⟩ := except_bind_ok.mp hassign
        cases hassign
        exact ⟨rfl, .inr ⟨runId, rfl, rfl, hactive, rfl, id,
          .inr ⟨nextRunId_ok hnext, hpending⟩⟩⟩
      · cases hassign
        exact ⟨rfl, .inr ⟨target, rfl, rfl, hactive, rfl, id, .inl ⟨rfl, rfl⟩⟩⟩
    | dirtyAfterCurrent =>
      obtain ⟨runId', hnext, hassign⟩ := except_bind_ok.mp hassign
      cases hassign
      exact ⟨rfl, .inr ⟨runId, rfl, rfl, rfl, rfl, fun _ => rfl,
        .inr ⟨nextRunId_ok hnext, rfl⟩⟩⟩

theorem Invariant.register (hstate : state.Invariant)
    (h : state.register sender request kind executor = .ok (state', leader)) :
    state'.Invariant := by
  obtain ⟨target, hwaiters, hcases⟩ := register_cases h
  rcases hcases with ⟨hidle, -, -, hactive, hlast, -⟩ |
      ⟨runId, hrunId, -, hactive, hlast, hpending, htarget⟩
  · refine ⟨by simp [hactive], ?_⟩
    intro runId hrunId
    obtain rfl : target = runId := Option.some.inj (hactive.symm.trans hrunId)
    refine ⟨hlast.symm, ?_⟩
    simp [hwaiters, (hstate.idle hidle).2]
  · refine ⟨by simp [hactive], ?_⟩
    intro runId' hrunId'
    obtain rfl : runId = runId' := Option.some.inj (hactive.symm.trans hrunId')
    obtain ⟨hstarted, htargets⟩ := hstate.active runId hrunId
    refine ⟨hstarted.trans hlast.symm, ?_⟩
    intro waiter hwaiter
    rw [hwaiters, List.mem_append, List.mem_singleton] at hwaiter
    rcases hwaiter with hold | rfl
    · exact (htargets waiter hold).imp_right fun hnext => ⟨hnext.1, hpending hnext.2⟩
    · exact htarget.imp_left And.left

theorem invariant_of_idle (hactive : state.activeRunId = none) (hpending : state.pending = none)
    (hwaiters : state.waiters = []) : state.Invariant := by
  refine ⟨fun _ => ⟨hpending, hwaiters⟩, ?_⟩
  intro runId h
  rw [hactive] at h
  cases h

theorem mem_rest (hstate : state.Invariant) (hactive : state.activeRunId = some runId)
    (result : RunResult ω) {waiter : SyncWaiter}
    (hwaiter : waiter ∈ (state.publishWaitersThrough runId result).1.waiters) :
    waiter.targetRunId = runId + 1 ∧ state.pending.isSome = true := by
  obtain ⟨hmem, huncovered⟩ := List.mem_filter.mp hwaiter
  have hlater : runId < waiter.targetRunId := by simpa using huncovered
  rcases (hstate.active runId hactive).2 waiter hmem with hcurrent | hnext
  · omega
  · exact hnext

structure Completes (state : CoordinatorState χ) (runId : Nat) (completion : Completion χ ω) :
    Prop where
  invariant : completion.state.Invariant
  unchanged : completion.exit ≠ .activeRunChanged
  covered : completion.exit ≠ .uncoveredWaiters
  next : ∀ leader, completion.next = some leader → leader.runId = runId + 1 ∧
    completion.state.activeRunId = some leader.runId ∧
    completion.state.lastStartedRunId = leader.runId
  ended : completion.next = none → completion.state.activeRunId = none ∧
    completion.state.lastStartedRunId = state.lastStartedRunId

theorem completeRun_completes (hstate : state.Invariant) (hactive : state.activeRunId = some runId)
    (result : RunResult ω) :
    Completes state runId (state.completeRun runId result) := by
  have hrest : ∀ waiter ∈ (state.publishWaitersThrough runId result).1.waiters,
      waiter.targetRunId = runId + 1 ∧ state.pending.isSome = true :=
    fun _ hwaiter => mem_rest hstate hactive result hwaiter
  unfold completeRun
  rw [if_neg (not_not.mpr hactive)]
  dsimp only
  split
  · cases hpending : (state.publishWaitersThrough runId result).1.pending with
    | some pending =>
      dsimp only
      cases hnext : nextRunId runId with
      | ok runId' =>
        obtain rfl := nextRunId_ok hnext
        refine ⟨⟨by simp, ?_⟩, by simp, by simp, by simp, by simp⟩
        intro active hsame
        cases hsame
        exact ⟨rfl, fun waiter hwaiter => .inl (hrest waiter hwaiter).1⟩
      | error error =>
        exact ⟨invariant_of_idle rfl rfl rfl, by simp, by simp, by simp, by simp [failAllWaiters,
          publishAllWaiters, publishWaitersThrough]⟩
    | none =>
      have hempty : (state.publishWaitersThrough runId result).1.waiters = [] := by
        refine List.eq_nil_iff_forall_not_mem.mpr fun waiter hwaiter => ?_
        have hsome := (hrest waiter hwaiter).2
        change state.pending = none at hpending
        rw [hpending] at hsome
        cases hsome
      dsimp only
      rw [if_pos (by simp [hempty])]
      exact ⟨invariant_of_idle rfl rfl hempty, by simp, by simp, by simp,
        by simp [publishWaitersThrough]⟩
  · exact ⟨invariant_of_idle rfl rfl rfl, by simp, by simp, by simp,
      by simp [publishAllWaiters, publishWaitersThrough]⟩

structure Answers (runId : Nat) (waiters : List SyncWaiter) (sent : List (Nat × RunResult ω))
    (left : List SyncWaiter) : Prop where
  channels : (sent.map Prod.fst ++ left.map (·.sender)).Perm (waiters.map (·.sender))
  left : left ⊆ waiters
  succeeded : ∀ sender answer, (sender, answer) ∈ sent → sharedResultSucceeded answer = true →
    ∃ waiter ∈ waiters, waiter.sender = sender ∧ waiter.targetRunId ≤ runId

theorem Answers.trans {waiters left left' : List SyncWaiter} {sent sent' : List (Nat × RunResult ω)}
    (h : Answers runId waiters sent left) (h' : Answers runId left sent' left') :
    Answers runId waiters (sent ++ sent') left' := by
  refine ⟨?_, List.Subset.trans h'.left h.left, ?_⟩
  · rw [List.map_append, List.append_assoc]
    exact (h'.channels.append_left _).trans h.channels
  · intro sender answer hsent hsuccess
    rcases List.mem_append.mp hsent with hfirst | hsecond
    · exact h.succeeded sender answer hfirst hsuccess
    · obtain ⟨waiter, hwaiter, htarget⟩ := h'.succeeded sender answer hsecond hsuccess
      exact ⟨waiter, h.left hwaiter, htarget⟩

variable (state : CoordinatorState χ)

theorem publishWaitersThrough_answers (runId : Nat) (result : RunResult ω) :
    Answers runId state.waiters (state.publishWaitersThrough runId result).2
      (state.publishWaitersThrough runId result).1.waiters := by
  refine ⟨?_, fun _ hwaiter => (List.mem_filter.mp hwaiter).1, ?_⟩
  · simp only [publishWaitersThrough, List.map_map, Function.comp_def]
    rw [← List.map_append]
    exact (List.filter_append_perm _ _).map _
  · intro sender answer hsent _
    obtain ⟨waiter, hwaiter, heq⟩ := List.mem_map.mp hsent
    obtain ⟨hmem, hcovered⟩ := List.mem_filter.mp hwaiter
    cases heq
    exact ⟨waiter, hmem, rfl, by simpa using hcovered⟩

theorem publishAllWaiters_answers (runId : Nat) {result : RunResult ω}
    (hfailed : sharedResultSucceeded result = false) :
    Answers runId state.waiters (state.publishAllWaiters result).2 [] := by
  refine ⟨?_, List.nil_subset _, ?_⟩
  · simp only [publishAllWaiters, List.map_map, Function.comp_def, List.map_nil, List.append_nil]
    exact List.Perm.refl _
  · intro sender answer hsent hsuccess
    obtain ⟨waiter, -, heq⟩ := List.mem_map.mp hsent
    cases heq
    rw [hfailed] at hsuccess
    cases hsuccess

theorem completeRun_answers (runId : Nat) (result : RunResult ω) :
    Answers runId state.waiters (state.completeRun runId result).sent
      (state.completeRun runId result).state.waiters := by
  have hthrough := publishWaitersThrough_answers state runId result
  unfold completeRun
  split
  · exact publishAllWaiters_answers _ runId rfl
  · dsimp only
    split
    · cases (state.publishWaitersThrough runId result).1.pending with
      | some pending =>
        dsimp only
        cases nextRunId runId with
        | ok runId' => exact hthrough
        | error error => exact hthrough.trans (publishAllWaiters_answers _ runId rfl)
      | none =>
        dsimp only
        split
        · exact hthrough
        · exact hthrough.trans (publishAllWaiters_answers _ runId rfl)
    · rename_i hfailed
      exact hthrough.trans (publishAllWaiters_answers _ runId (by simpa using hfailed))

theorem failUnfinishedRun_answers (runId : Nat) :
    Answers runId state.waiters (state.failUnfinishedRun (ω := ω)).2
      (state.failUnfinishedRun (ω := ω)).1.waiters := by
  unfold failUnfinishedRun
  split
  · exact ⟨by simp, List.Subset.refl _, by simp⟩
  · exact publishAllWaiters_answers _ runId rfl

theorem failUnfinishedRun_failed {answer : RunResult ω}
    (hsent : (sender, answer) ∈ state.failUnfinishedRun.2) :
    sharedResultSucceeded answer = false := by
  unfold failUnfinishedRun at hsent
  split at hsent
  · cases hsent
  · obtain ⟨waiter, -, heq⟩ := List.mem_map.mp hsent
    cases heq
    rfl

theorem failUnfinishedRun_idle (hstate : state.Invariant) :
    (state.failUnfinishedRun (ω := ω)).1.Invariant ∧
      (state.failUnfinishedRun (ω := ω)).1.activeRunId = none ∧
      (state.failUnfinishedRun (ω := ω)).1.lastStartedRunId = state.lastStartedRunId := by
  unfold failUnfinishedRun
  split
  · rename_i hidle
    rw [Bool.and_eq_true, Option.isNone_iff_eq_none] at hidle
    exact ⟨hstate, hidle.1, rfl⟩
  · exact ⟨invariant_of_idle rfl rfl rfl, rfl, rfl⟩

end CoordinatorState

/-! ## Callers and leaders -/

structure Registration where
  sender : Nat
  kind : MessageSyncRequestKind
  during : Option Nat
  deriving DecidableEq

structure Sent (ω : Type) where
  sender : Nat
  runId : Option Nat
  result : RunResult ω

structure Coordinator (χ ω : Type) where
  state : CoordinatorState χ := {}
  leaders : List (LeaderRun χ) := []
  started : List Nat := []
  registered : List Registration := []
  sent : List (Sent ω) := []

inductive Event (χ ω : Type) where
  | register (sender : Nat) (request : MessageSyncRequest) (kind : MessageSyncRequestKind)
      (executor : χ)
  | complete (runId : Nat) (result : RunResult ω)
  | drop (runId : Nat)

namespace Coordinator

def replaceLeader (leaders : List (LeaderRun χ)) (runId : Nat) (next : Option (LeaderRun χ)) :
    List (LeaderRun χ) :=
  next.toList ++ leaders.eraseP fun leader => leader.runId == runId

def step (w : Coordinator χ ω) : Event χ ω → Option (Coordinator χ ω)
  | .register sender request kind executor =>
    if sender ∈ w.registered.map (·.sender) then none
    else
      match w.state.register sender request kind executor with
      | .error _ => some w
      | .ok (state, leader) => some
          { w with
            state := state
            leaders := leader.toList ++ w.leaders
            started := w.started ++ (leader.map (·.runId)).toList
            registered := w.registered ++ [⟨sender, kind, w.state.activeRunId⟩] }
  | .complete runId result =>
    if w.leaders.any fun leader => leader.runId == runId then
      let completion := w.state.completeRun runId result
      some
        { w with
          state := completion.state
          leaders := replaceLeader w.leaders runId completion.next
          started := w.started ++ (completion.next.map (·.runId)).toList
          sent := w.sent ++ completion.sent.map fun send => ⟨send.1, some runId, send.2⟩ }
    else none
  | .drop runId =>
    if w.leaders.any fun leader => leader.runId == runId then
      let failed := w.state.failUnfinishedRun
      some
        { w with
          state := failed.1
          leaders := replaceLeader w.leaders runId none
          sent := w.sent ++ failed.2.map fun send => ⟨send.1, none, send.2⟩ }
    else none

def Step (w : Coordinator χ ω) (e : Event χ ω) (w' : Coordinator χ ω) : Prop :=
  w.step e = some w'

/-- The leader is that of the active run, and each waiter has one answer at most. -/
structure Invariant (w : Coordinator χ ω) : Prop where
  state : w.state.Invariant
  leaders : w.leaders.map (·.runId) = w.state.activeRunId.toList
  started : w.started.Pairwise (· < ·)
  bound : ∀ runId ∈ w.started, runId ≤ w.state.lastStartedRunId
  channels : (w.sent.map (·.sender) ++ w.state.waiters.map (·.sender)).Perm
    (w.registered.map (·.sender))
  distinct : (w.registered.map (·.sender)).Nodup
  waiting : ∀ registration ∈ w.registered, registration.kind = .dirtyAfterCurrent →
    ∀ runId, registration.during = some runId → ∀ waiter ∈ w.state.waiters,
      waiter.sender = registration.sender → runId < waiter.targetRunId
  answered : ∀ registration ∈ w.registered, registration.kind = .dirtyAfterCurrent →
    ∀ runId, registration.during = some runId → ∀ sent ∈ w.sent,
      sent.sender = registration.sender → sharedResultSucceeded sent.result = true →
      ∃ runId', sent.runId = some runId' ∧ runId < runId'

theorem Invariant.initial : Invariant ({} : Coordinator χ ω) :=
  ⟨CoordinatorState.invariant_of_idle rfl rfl rfl, rfl, .nil, by simp, by simp, by simp, by simp,
    by simp⟩

variable {w : Coordinator χ ω} {sender runId : Nat}

section

variable (h : w.Invariant)

include h

theorem started_append {last : Nat} (hlast : w.state.lastStartedRunId ≤ last)
    (hnew : runIds = [] ∨ runIds = [last] ∧ w.state.lastStartedRunId < last) :
    (w.started ++ runIds).Pairwise (· < ·) ∧ ∀ runId ∈ w.started ++ runIds, runId ≤ last := by
  rcases hnew with rfl | ⟨rfl, hlt⟩
  · rw [List.append_nil]
    exact ⟨h.started, fun runId hrunId => (h.bound runId hrunId).trans hlast⟩
  · refine ⟨?_, ?_⟩
    · rw [List.pairwise_append]
      refine ⟨h.started, List.pairwise_singleton _ _, ?_⟩
      intro runId hrunId new hnew
      rw [List.mem_singleton.mp hnew]
      exact (h.bound runId hrunId).trans_lt hlt
    · intro runId hrunId
      rcases List.mem_append.mp hrunId with hold | hnew
      · exact (h.bound runId hold).trans hlast
      · rw [List.mem_singleton.mp hnew]

theorem Invariant.register {request : MessageSyncRequest}
    (hfresh : sender ∉ w.registered.map (·.sender))
    (hregister : w.state.register sender request kind executor = .ok (state', leader)) :
    Invariant
      { w with
        state := state'
        leaders := leader.toList ++ w.leaders
        started := w.started ++ (leader.map (·.runId)).toList
        registered := w.registered ++ [⟨sender, kind, w.state.activeRunId⟩] } := by
  obtain ⟨target, hwaiters, hcases⟩ := CoordinatorState.register_cases hregister
  have hwaiting : ∀ waiter ∈ w.state.waiters, waiter.sender ≠ sender := by
    rintro waiter hwaiter rfl
    exact hfresh (h.channels.subset (List.mem_append_right _ (List.mem_map_of_mem hwaiter)))
  have hsentBefore : ∀ sent ∈ w.sent, sent.sender ≠ sender := by
    rintro sent hsent rfl
    exact hfresh (h.channels.subset (List.mem_append_left _ (List.mem_map_of_mem hsent)))
  have hnew : ∀ registration ∈ w.registered, registration.sender ≠ sender := by
    rintro registration hregistration rfl
    exact hfresh (List.mem_map_of_mem hregistration)
  have hstarted : (w.started ++ (leader.map (·.runId)).toList).Pairwise (· < ·) ∧
      ∀ runId ∈ w.started ++ (leader.map (·.runId)).toList, runId ≤ state'.lastStartedRunId := by
    rcases hcases with ⟨-, htarget, hleader, -, hlast, -⟩ | ⟨_, -, hleader, -, hlast, -⟩
    · refine started_append h (by omega) (.inr ⟨?_, by omega⟩)
      simp [hleader, hlast]
    · exact started_append h (by omega) (.inl (by simp [hleader]))
  refine ⟨h.state.register hregister, ?_, hstarted.1, hstarted.2, ?_, ?_, ?_, ?_⟩
  · rcases hcases with ⟨hidle, -, hleader, hactive, -⟩ | ⟨runId, hrunId, hleader, hactive, -⟩
    · have hleaders := h.leaders
      rw [hidle] at hleaders
      simp [hleader, hactive, List.map_eq_nil_iff.mp hleaders]
    · simpa [hleader, hactive, hrunId] using h.leaders
  · rw [hwaiters, List.map_append, List.map_append, ← List.append_assoc]
    exact h.channels.append_right _
  · rw [List.map_append, List.map_singleton]
    refine List.Nodup.append h.distinct (List.nodup_singleton _) ?_
    simpa using hfresh
  · intro registration hmem hkind runId hduring waiter hwaiter hsender
    rw [hwaiters, List.mem_append, List.mem_singleton] at hwaiter
    rw [List.mem_append, List.mem_singleton] at hmem
    rcases hmem with hold | rfl
    · rcases hwaiter with hbefore | rfl
      · exact h.waiting registration hold hkind runId hduring waiter hbefore hsender
      · exact absurd hsender.symm (hnew registration hold)
    · rcases hwaiter with hbefore | rfl
      · exact absurd hsender (hwaiting waiter hbefore)
      · simp only at hduring hkind
        rcases hcases with ⟨hidle, -⟩ | ⟨active, hactive, -, -, -, -, htarget⟩
        · rw [hidle] at hduring
          cases hduring
        · rw [hactive] at hduring
          cases hduring
          rcases htarget with ⟨-, hensure⟩ | ⟨hnext, -⟩
          · rw [hensure] at hkind
            cases hkind
          · exact hnext ▸ Nat.lt_succ_self _
  · intro registration hmem hkind runId hduring sent hsent hsender
    rw [List.mem_append, List.mem_singleton] at hmem
    rcases hmem with hold | rfl
    · exact h.answered registration hold hkind runId hduring sent hsent hsender
    · exact absurd hsender (hsentBefore sent hsent)

theorem replaceLeader_runId (hleader : (w.leaders.any fun leader => leader.runId == runId) = true)
    (next : Option (LeaderRun χ)) :
    w.state.activeRunId = some runId ∧
      (replaceLeader w.leaders runId next).map (·.runId) = (next.map (·.runId)).toList := by
  have hleaders := h.leaders
  obtain ⟨leader, hmem, hrunId⟩ := List.any_eq_true.mp hleader
  cases hactive : w.state.activeRunId with
  | none =>
    rw [hactive] at hleaders
    rw [List.map_eq_nil_iff.mp hleaders] at hmem
    cases hmem
  | some active =>
    rw [hactive, Option.toList_some] at hleaders
    obtain ⟨only, honly, rfl⟩ := List.map_eq_singleton_iff.mp hleaders
    rw [honly, List.mem_singleton] at hmem
    cases hmem
    have hsame : leader.runId = runId := beq_iff_eq.mp hrunId
    refine ⟨congrArg some hsame, ?_⟩
    cases next <;> simp [replaceLeader, honly, hsame]

theorem Invariant.send {leaders : List (LeaderRun χ)} {sent : List (Nat × RunResult ω)}
    {endOf : Option Nat} (hstate : state'.Invariant)
    (hlast : w.state.lastStartedRunId ≤ state'.lastStartedRunId)
    (hrunIds : runIds = [] ∨ runIds = [state'.lastStartedRunId] ∧
      w.state.lastStartedRunId < state'.lastStartedRunId)
    (hleaders : leaders.map (·.runId) = state'.activeRunId.toList)
    (hanswers : CoordinatorState.Answers runId w.state.waiters sent state'.waiters)
    (hat : ∀ sender answer, (sender, answer) ∈ sent → sharedResultSucceeded answer = true →
      endOf = some runId) :
    Invariant
      { w with
        state := state'
        leaders := leaders
        started := w.started ++ runIds
        sent := w.sent ++ sent.map fun send => ⟨send.1, endOf, send.2⟩ } := by
  have hstarted := started_append h hlast hrunIds
  refine ⟨hstate, hleaders, hstarted.1, hstarted.2, ?_, h.distinct, ?_, ?_⟩
  · have hsent : (sent.map fun send => (⟨send.1, endOf, send.2⟩ : Sent ω)).map (·.sender) =
        sent.map Prod.fst := by
      simp
    rw [List.map_append, hsent, List.append_assoc]
    exact (hanswers.channels.append_left _).trans h.channels
  · intro registration hmem hkind active hduring waiter hwaiter hsender
    exact h.waiting registration hmem hkind active hduring waiter (hanswers.left hwaiter) hsender
  · intro registration hmem hkind active hduring answer hanswer hsender hsuccess
    rcases List.mem_append.mp hanswer with hold | hnew
    · exact h.answered registration hmem hkind active hduring answer hold hsender hsuccess
    · obtain ⟨⟨sender, result⟩, hsend, rfl⟩ := List.mem_map.mp hnew
      obtain ⟨waiter, hwaiter, hsame, htarget⟩ :=
        hanswers.succeeded sender result hsend hsuccess
      have hlater := h.waiting registration hmem hkind active hduring waiter hwaiter
        (hsame.trans hsender)
      exact ⟨runId, hat sender result hsend hsuccess, by omega⟩

theorem Invariant.complete (result : RunResult ω)
    (hleader : (w.leaders.any fun leader => leader.runId == runId) = true) :
    Invariant
      { w with
        state := (w.state.completeRun runId result).state
        leaders := replaceLeader w.leaders runId (w.state.completeRun runId result).next
        started := w.started ++ ((w.state.completeRun runId result).next.map (·.runId)).toList
        sent := w.sent ++ (w.state.completeRun runId result).sent.map
          fun send => ⟨send.1, some runId, send.2⟩ } := by
  obtain ⟨hactive, hleaders⟩ :=
    replaceLeader_runId h hleader (w.state.completeRun runId result).next
  have hcompletes := CoordinatorState.completeRun_completes h.state hactive result
  have hanswers := CoordinatorState.completeRun_answers w.state runId result
  have hlast := (h.state.active runId hactive).1
  cases hnext : (w.state.completeRun runId result).next with
  | none =>
    obtain ⟨hidle, hsame⟩ := hcompletes.ended hnext
    rw [hnext] at hleaders
    refine h.send hcompletes.invariant hsame.ge (.inl rfl) ?_ hanswers fun _ _ _ _ => rfl
    rw [hleaders, hidle]
    rfl
  | some leader =>
    obtain ⟨hrunId, hactive', hstarted⟩ := hcompletes.next leader hnext
    rw [hnext] at hleaders
    refine h.send hcompletes.invariant (by omega) (.inr ⟨?_, by omega⟩) ?_ hanswers
      fun _ _ _ _ => rfl
    · simp [hstarted]
    · rw [hleaders, hactive']
      rfl

theorem Invariant.drop (hleader : (w.leaders.any fun leader => leader.runId == runId) = true) :
    Invariant
      { w with
        state := (w.state.failUnfinishedRun (ω := ω)).1
        leaders := replaceLeader w.leaders runId none
        sent := w.sent ++ w.state.failUnfinishedRun.2.map fun send => ⟨send.1, none, send.2⟩ } := by
  obtain ⟨-, hleaders⟩ := replaceLeader_runId h hleader none
  obtain ⟨hinvariant, hidle, hlast⟩ := CoordinatorState.failUnfinishedRun_idle (ω := ω) w.state h.state
  have hanswers := CoordinatorState.failUnfinishedRun_answers (ω := ω) w.state runId
  have hnone : (replaceLeader w.leaders runId none).map (·.runId) =
      (w.state.failUnfinishedRun (ω := ω)).1.activeRunId.toList := by
    rw [hleaders, hidle]
    rfl
  have hat : ∀ sender answer, (sender, answer) ∈ (w.state.failUnfinishedRun (ω := ω)).2 →
      sharedResultSucceeded answer = true → (none : Option Nat) = some runId := by
    intro sender answer hsent hsuccess
    rw [CoordinatorState.failUnfinishedRun_failed w.state hsent] at hsuccess
    cases hsuccess
  have hsend := h.send hinvariant hlast.ge (.inl rfl) hnone hanswers hat
  rwa [List.append_nil] at hsend

theorem Invariant.step {w' : Coordinator χ ω} {event : Event χ ω} (hstep : Step w event w') :
    w'.Invariant := by
  cases event with
  | register sender request kind executor =>
    simp only [Step, Coordinator.step] at hstep
    split at hstep
    · cases hstep
    · rename_i hfresh
      cases hregister : w.state.register sender request kind executor with
      | error error =>
        rw [hregister] at hstep
        cases hstep
        exact h
      | ok registered =>
        rw [hregister] at hstep
        cases hstep
        exact h.register hfresh hregister
  | complete runId result =>
    simp only [Step, Coordinator.step] at hstep
    split at hstep
    · rename_i hleader
      cases hstep
      exact h.complete result hleader
    · cases hstep
  | drop runId =>
    simp only [Step, Coordinator.step] at hstep
    split at hstep
    · rename_i hleader
      cases hstep
      exact h.drop hleader
    · cases hstep

end

theorem Invariant.run {events : List (Event χ ω)} (hrun : Run Step {} events w) : w.Invariant :=
  hrun.invariant (fun _ _ _ h hstep => h.step hstep) Invariant.initial

theorem count_sent_le (h : w.Invariant) (hregistered : sender ∈ w.registered.map (·.sender)) :
    (w.sent.map (·.sender)).count sender ≤ 1 := by
  have hcount := h.channels.count_eq sender
  rw [List.count_append, List.count_eq_one_of_mem h.distinct hregistered] at hcount
  omega

theorem count_sent_of_idle (h : w.Invariant) (hleaders : w.leaders = [])
    (hregistered : sender ∈ w.registered.map (·.sender)) :
    (w.sent.map (·.sender)).count sender = 1 := by
  have hidle : w.state.activeRunId = none := by
    have hnone := h.leaders
    rw [hleaders] at hnone
    simpa using hnone.symm
  have hcount := h.channels.count_eq sender
  rw [(h.state.idle hidle).2, List.map_nil, List.append_nil] at hcount
  rw [hcount, List.count_eq_one_of_mem h.distinct hregistered]

/--
In every run there is one leader at most, run ids increase, waiters wait for the active run
or for a pending one, each is answered once and no later than the leader ends, and one that
asked for a run after the active one is not answered with the success of an earlier run.
The two branches of `complete_run` for an inconsistent state are not taken.
-/
theorem coordinator_answers_waiters {w : Coordinator χ ω} {events : List (Event χ ω)}
    (hrun : Run Step {} events w) :
    (w.leaders.length ≤ 1 ∧ w.started.Pairwise (· < ·)) ∧
    ((w.state.activeRunId = none → w.state.pending.isNone = true ∧ w.state.waiters = []) ∧
      ∀ runId, w.state.activeRunId = some runId → ∀ waiter ∈ w.state.waiters,
        waiter.targetRunId = runId ∨
          (waiter.targetRunId = runId + 1 ∧ w.state.pending.isSome = true)) ∧
    (∀ registration ∈ w.registered,
      (w.sent.map (·.sender)).count registration.sender ≤ 1 ∧
      (w.leaders = [] → (w.sent.map (·.sender)).count registration.sender = 1)) ∧
    (∀ registration ∈ w.registered, registration.kind = .dirtyAfterCurrent →
      ∀ runId, registration.during = some runId → ∀ sent ∈ w.sent,
        sent.sender = registration.sender → sharedResultSucceeded sent.result = true →
        ∃ runId', sent.runId = some runId' ∧ runId < runId') ∧
    (∀ leader ∈ w.leaders, ∀ result : RunResult ω,
      (w.state.completeRun leader.runId result).exit ≠ .activeRunChanged ∧
      (w.state.completeRun leader.runId result).exit ≠ .uncoveredWaiters) := by
  have h := Invariant.run hrun
  refine ⟨⟨?_, h.started⟩, ⟨?_, ?_⟩, ?_, h.answered, ?_⟩
  · rw [← List.length_map (·.runId), h.leaders]
    cases w.state.activeRunId <;> simp
  · intro hidle
    simp [h.state.idle hidle]
  · intro runId hactive
    exact (h.state.active runId hactive).2
  · intro registration hmem
    have hregistered := List.mem_map_of_mem (f := (·.sender)) hmem
    exact ⟨count_sent_le h hregistered, fun hleaders => count_sent_of_idle h hleaders hregistered⟩
  · intro leader hleader result
    have hany : (w.leaders.any fun other => other.runId == leader.runId) = true :=
      List.any_eq_true.mpr ⟨leader, hleader, beq_self_eq_true _⟩
    have hactive := (replaceLeader_runId h hany none).1
    have hcompletes := CoordinatorState.completeRun_completes h.state hactive result
    exact ⟨hcompletes.unchanged, hcompletes.covered⟩

end Coordinator

namespace Sample

def request : MessageSyncRequest := { reason := "manual", limit := none }

def succeeded : RunResult Unit := .ok { status := .changed, report := () }

def events : List (Event Unit Unit) :=
  [.register 0 request .ensureCurrent (),
    .register 1 request .ensureCurrent (),
    .register 2 request .dirtyAfterCurrent (),
    .complete 1 succeeded,
    .complete 2 succeeded]

def answered : Coordinator Unit Unit :=
  (events.foldlM Coordinator.step {}).getD {}

theorem late_waiter_answered :
    answered.leaders = [] ∧ (answered.sent.map (·.sender)).count 2 = 1 ∧
      ∀ sent ∈ answered.sent, sent.sender = 2 → sharedResultSucceeded sent.result = true →
        ∃ runId, sent.runId = some runId ∧ 1 < runId := by
  have hrun : Run Coordinator.Step {} events answered := Run.of_foldlM rfl
  have hmem : (⟨2, .dirtyAfterCurrent, some 1⟩ : Registration) ∈ answered.registered := by
    decide +kernel
  have h := Coordinator.coordinator_answers_waiters hrun
  exact ⟨rfl, (h.2.2.1 _ hmem).2 rfl, h.2.2.2.1 _ hmem rfl 1 rfl⟩

end Sample
end SyncCoordinator
end Awiki

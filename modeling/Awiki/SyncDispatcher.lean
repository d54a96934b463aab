import Awiki.InboxClaims
import Awiki.TransitionRuns
import Mathlib.Data.List.Basic

/-!
# The dispatcher of the receive queue

`sync_dispatcher.rs` has one background run for a local database.  `wake_client` registers
the client, counts the wake-up and starts a run if there is none; the run looks at the
clients, starts jobs for what it claims, and stops when there is nothing left and nobody
woke it since it looked.  The exit, the count and the drop of the run's guard are separate
critical sections, so a wake-up can fall between any two of them.
-/

namespace Awiki
namespace SyncDispatcher

open LocalState (validateDecimal validatePositiveDecimal maxActiveInputs)

variable {call : Nat}

/-! ## Clients -/

structure SyncAccountSeed where
  accountId : String
  protocolDeviceId : String
  deviceAuthGeneration : String
  deriving DecidableEq

structure SyncAccountContext where
  accountId : String
  protocolDeviceId : String
  deviceAuthGeneration : String

structure ImClient where
  identityId : String
  syncAccount : Option SyncAccountSeed
  deriving DecidableEq

variable {client : ImClient}

def ImClient.syncAccountContext (client : ImClient) : Except ImError SyncAccountContext :=
  match client.syncAccount with
  | none => .error (.unsupportedCapability "active-sync-account-binding")
  | some seed =>
    if Text.isBlank seed.accountId || Text.trim seed.accountId != seed.accountId then
      .error (.identityBindingConflict "active identity account id is not canonical")
    else
      match validatePositiveDecimal "device_auth_generation" seed.deviceAuthGeneration with
      | .error _ =>
        .error (.identityBindingConflict "active device auth generation is not canonical")
      | .ok () => .ok
          { accountId := seed.accountId
            protocolDeviceId := seed.protocolDeviceId
            deviceAuthGeneration := seed.deviceAuthGeneration }

theorem isCanonical_of_syncAccountContext {context : SyncAccountContext}
    (h : client.syncAccountContext = .ok context) :
    Decimal.isCanonical context.deviceAuthGeneration = true := by
  unfold ImClient.syncAccountContext at h
  split at h
  · cases h
  · rename_i seed _
    split at h
    · cases h
    · split at h
      · cases h
      · rename_i hpositive
        cases h
        by_contra hcanonical
        simp [validatePositiveDecimal, validateDecimal, hcanonical, bind, Except.bind] at hpositive

def keepsCurrent (current client : ImClient) : Bool :=
  match current.syncAccountContext, client.syncAccountContext with
  | .ok current, .ok incoming =>
    Decimal.order current.deviceAuthGeneration incoming.deviceAuthGeneration == .gt
  | _, _ => false

/-! ## The critical sections -/

/-- `DispatchState`; the maps are lists of pairs. -/
structure DispatchState where
  running : Bool := false
  runEpoch : Nat := 0
  wakeGeneration : Nat := 0
  nextOwner : Nat := 0
  clients : List (String × ImClient) := []
  activeByOwner : List (String × Nat) := []

variable {state : DispatchState}

namespace DispatchState

def client? (state : DispatchState) (owner : String) : Option ImClient :=
  (state.clients.find? (·.1 == owner)).map (·.2)

/-- The critical section of `wake_client`, with the epoch of the run that is to be started. -/
def wakeClient (state : DispatchState) (client : ImClient) : DispatchState × Option Nat :=
  let owner := client.identityId
  let clients :=
    if (state.client? owner).any (keepsCurrent · client) then state.clients
    else
      Rows.upsertWhere (·.1 == owner) (owner, client) (fun _ => (owner, client)) state.clients
  let state := { state with clients := clients, wakeGeneration := state.wakeGeneration + 1 }
  if state.running then (state, none)
  else
    let runEpoch := state.runEpoch + 1
    ({ state with running := true, runEpoch := runEpoch }, some runEpoch)

/-- The head of the loop of `run`: the clients, beginning with another owner each time. -/
def snapshot (state : DispatchState) : DispatchState × List ImClient :=
  let clients := state.clients.map (·.2)
  if clients.isEmpty then (state, clients)
  else
    ({ state with nextOwner := state.nextOwner + 1 },
      clients.rotateLeft (state.nextOwner % clients.length))

def inputStarted (state : DispatchState) (owner : String) : DispatchState :=
  { state with
    activeByOwner := Rows.upsertWhere (·.1 == owner) (owner, 1)
      (fun entry => (entry.1, entry.2 + 1)) state.activeByOwner }

def inputFinished (state : DispatchState) (owner : String) : DispatchState :=
  { state with
    activeByOwner := Rows.updateWhere (·.1 == owner)
      (fun entry => (entry.1, entry.2 - 1)) state.activeByOwner }

/-- The exit of `run`, unless it was woken after it took its snapshot. -/
def exit (state : DispatchState) (generation : Nat) : Option DispatchState :=
  if state.wakeGeneration = generation then some { state with running := false, clients := [] }
  else none

/-- `RunGuard::drop`. -/
def dropGuard (state : DispatchState) (epoch : Nat) : DispatchState :=
  if state.runEpoch = epoch then { state with running := false, activeByOwner := [] }
  else state

end DispatchState

/-! ## Runs -/

inductive Phase where
  | starting
  | spawned
  | top
  | round (rest : List ImClient)
  | selecting
  | exited

/-- A task of the `JoinSet`, with the owner of its claim; maintenance has none. -/
structure Job where
  token : String
  owner : Option String

/-- `run` and its variables. -/
structure SyncRun where
  epoch : Nat
  phase : Phase := .starting
  generation : Nat := 0
  jobs : List Job := []

variable {run' : Option SyncRun}

inductive RunAction where
  | poll
  | snapshot
  | startJob (job : Job)
  | nextClient
  | exitCheck
  | select
  | notified
  | finished (token : String)
  | tick
  | dropGuard
  | abort
  | lose

def Phase.guarded : Phase → Bool
  | .top | .round _ | .selecting => true
  | _ => false

/--
One action of a run on the shared state and the permit of `Notify`.  `abort` ends the task
while its guard exists, `lose` drops the task before its first poll.
-/
def SyncRun.step (run : SyncRun) (state : DispatchState) (permit : Bool) (action : RunAction) :
    Option (DispatchState × Bool × Option SyncRun) :=
  match action, run.phase with
  | .poll, .spawned => some (state, permit, some { run with phase := .top })
  | .snapshot, .top =>
    let (state, clients) := state.snapshot
    some (state, permit,
      some { run with phase := .round clients, generation := state.wakeGeneration })
  | .startJob job, .round (_ :: _) =>
    if run.jobs.length < maxActiveInputs then
      let state := match job.owner with
        | some owner => state.inputStarted owner
        | none => state
      some (state, permit, some { run with jobs := run.jobs ++ [job] })
    else none
  | .nextClient, .round (_ :: rest) =>
    some (state, permit, some { run with phase := .round rest })
  | .exitCheck, .round [] =>
    if run.jobs.isEmpty then
      match state.exit run.generation with
      | some state => some (state, permit, some { run with phase := .exited })
      | none => some (state, permit, some { run with phase := .top })
    else none
  | .select, .round [] => some (state, permit, some { run with phase := .selecting })
  | .notified, .selecting =>
    if permit then some (state, false, some { run with phase := .top }) else none
  | .finished token, .selecting =>
    match run.jobs.find? (·.token == token) with
    | some job =>
      let state := match job.owner with
        | some owner => state.inputFinished owner
        | none => state
      let jobs := run.jobs.eraseP (·.token == token)
      some (state, permit, some { run with phase := .top, jobs := jobs })
    | none => none
  | .tick, .selecting => some (state, permit, some { run with phase := .top })
  | .dropGuard, .exited => some (state.dropGuard run.epoch, permit, none)
  | .abort, phase =>
    if phase.guarded then some (state.dropGuard run.epoch, permit, none) else none
  | .lose, .spawned => some (state, permit, none)
  | _, _ => none

structure DispatchState.Same (state state' : DispatchState) : Prop where
  running : state'.running = state.running
  runEpoch : state'.runEpoch = state.runEpoch
  wakeGeneration : state'.wakeGeneration = state.wakeGeneration
  clients : state'.clients = state.clients

theorem DispatchState.Same.refl (state : DispatchState) : state.Same state :=
  ⟨rfl, rfl, rfl, rfl⟩

theorem DispatchState.same_snapshot (state : DispatchState) : state.Same state.snapshot.1 := by
  unfold DispatchState.snapshot
  dsimp only
  split <;> exact ⟨rfl, rfl, rfl, rfl⟩

def Phase.looked : Phase → Bool
  | .round _ | .selecting => true
  | _ => false

def SyncRun.rank (run : SyncRun) : Nat :=
  match run.phase with
  | .starting => 2
  | .spawned => 1
  | .top => 0
  | .round rest => 2 + rest.length + (maxActiveInputs - run.jobs.length)
  | .selecting => 1
  | .exited => 0

def RunAction.ends : RunAction → Bool
  | .dropGuard | .abort | .lose => true
  | _ => false

inductive SyncRun.Does (run : SyncRun) (state : DispatchState) (permit : Bool) :
    RunAction → DispatchState → Bool → Option SyncRun → Prop
  | returned (hphase : run.phase = .exited) :
      Does run state permit .dropGuard (state.dropGuard run.epoch) permit none
  | aborted (hphase : run.phase.guarded = true) :
      Does run state permit .abort (state.dropGuard run.epoch) permit none
  | lost (hphase : run.phase = .spawned) : Does run state permit .lose state permit none
  | exits (hphase : run.phase = .round []) (hseen : state.wakeGeneration = run.generation) :
      Does run state permit .exitCheck { state with running := false, clients := [] } permit
        (some { run with phase := .exited })
  | looks (hphase : run.phase = .top) (clients : List ImClient) {state' : DispatchState}
      (hsame : state.Same state') :
      Does run state permit .snapshot state' permit
        (some { run with phase := .round clients, generation := state.wakeGeneration })
  | proceeds {action : RunAction} {state' : DispatchState} {permit' : Bool} {next : SyncRun}
      (hphase : run.phase ≠ .exited) (hphase' : next.phase ≠ .exited)
      (hsame : state.Same state') (hepoch : next.epoch = run.epoch)
      (hgeneration : next.generation = run.generation)
      (hlooked : next.phase.looked = true → run.phase.looked = true ∧ permit' = permit)
      (hrank : next.rank < run.rank) (hends : action.ends = false) :
      Does run state permit action state' permit' (some next)

variable {state state' : DispatchState} {permit permit' : Bool} {action : RunAction}

theorem SyncRun.step_does {run : SyncRun}
    (h : run.step state permit action = some (state', permit', run')) :
    run.Does state permit action state' permit' run' := by
  unfold SyncRun.step at h
  split at h
  · rename_i hphase
    cases h
    exact .proceeds (by simp [hphase]) (by simp) (.refl _) rfl rfl (by simp [Phase.looked])
      (by simp [rank, hphase]) rfl
  · rename_i hphase
    simp only [Option.some.injEq, Prod.mk.injEq] at h
    obtain ⟨rfl, rfl, rfl⟩ := h
    have hsame := state.same_snapshot
    rw [hsame.wakeGeneration]
    exact .looks hphase _ hsame
  · rename_i job _ _ hphase
    split at h
    · rename_i hfree
      cases h
      refine .proceeds (by simp [hphase]) (by simp [hphase]) ?_ rfl rfl
        (by simp [Phase.looked, hphase]) ?_ rfl
      · cases job.owner <;> exact ⟨rfl, rfl, rfl, rfl⟩
      · simp only [rank, hphase, List.length_append, List.length_singleton]
        omega
    · cases h
  · rename_i hphase
    cases h
    refine .proceeds (by simp [hphase]) (by simp) (.refl _) rfl rfl
      (by simp [Phase.looked, hphase]) ?_ rfl
    simp only [rank, hphase, List.length_cons]
    omega
  · rename_i hphase
    split at h
    · unfold DispatchState.exit at h
      split at h
      · rename_i hexit
        cases h
        split at hexit
        · rename_i hseen
          cases hexit
          exact .exits hphase hseen
        · cases hexit
      · cases h
        refine .proceeds (by simp [hphase]) (by simp) (.refl _) rfl rfl
          (by simp [Phase.looked]) ?_ rfl
        simp only [rank, hphase]
        omega
    · cases h
  · rename_i hphase
    cases h
    refine .proceeds (by simp [hphase]) (by simp) (.refl _) rfl rfl
      (by simp [Phase.looked, hphase]) ?_ rfl
    simp only [rank, hphase]
    omega
  · rename_i hphase
    split at h
    · cases h
      exact .proceeds (by simp [hphase]) (by simp) (.refl _) rfl rfl (by simp [Phase.looked])
        (by simp [rank, hphase]) rfl
    · cases h
  · rename_i hphase
    split at h
    · rename_i job _
      cases h
      refine .proceeds (by simp [hphase]) (by simp) ?_ rfl rfl (by simp [Phase.looked])
        (by simp [rank, hphase]) rfl
      cases job.owner <;> exact ⟨rfl, rfl, rfl, rfl⟩
    · cases h
  · rename_i hphase
    cases h
    exact .proceeds (by simp [hphase]) (by simp) (.refl _) rfl rfl (by simp [Phase.looked])
      (by simp [rank, hphase]) rfl
  · rename_i hphase
    cases h
    exact .returned hphase
  · split at h
    · rename_i hphase
      cases h
      exact .aborted hphase
    · cases h
  · rename_i hphase
    cases h
    exact .lost hphase
  · cases h

theorem DispatchState.dropGuard_cases (state : DispatchState) (epoch : Nat) :
    (state.dropGuard epoch).runEpoch = state.runEpoch ∧
      (state.dropGuard epoch).wakeGeneration = state.wakeGeneration ∧
      ((state.dropGuard epoch).running = state.running ∨
        ((state.dropGuard epoch).running = false ∧ state.runEpoch = epoch)) := by
  unfold DispatchState.dropGuard
  split
  · rename_i hepoch
    exact ⟨rfl, rfl, .inr ⟨rfl, hepoch⟩⟩
  · exact ⟨rfl, rfl, .inl rfl⟩

theorem SyncRun.Does.counters {run : SyncRun}
    (h : run.Does state permit action state' permit' run') :
    state'.runEpoch = state.runEpoch ∧ state'.wakeGeneration = state.wakeGeneration := by
  cases h with
  | returned | aborted =>
    obtain ⟨hrunEpoch, hwake, -⟩ := state.dropGuard_cases run.epoch
    exact ⟨hrunEpoch, hwake⟩
  | lost | exits => exact ⟨rfl, rfl⟩
  | looks _ _ hsame | proceeds _ _ hsame => exact ⟨hsame.runEpoch, hsame.wakeGeneration⟩

theorem SyncRun.Does.epoch {run next : SyncRun}
    (h : run.Does state permit action state' permit' (some next)) : next.epoch = run.epoch := by
  cases h with
  | exits | looks => rfl
  | proceeds _ _ _ hepoch => exact hepoch

/-! ## The dispatcher -/

/-- A call of `wake_client` after its critical section. -/
structure WakeCall where
  call : Nat
  startEpoch : Option Nat
  notified : Bool := false

/-- The shared state, the permit of `Notify`, the calls and the runs. -/
structure Dispatcher where
  state : DispatchState := {}
  permit : Bool := false
  calls : List WakeCall := []
  runs : List SyncRun := []

inductive Event where
  | wake (call : Nat) (client : ImClient)
  | notifyOne (call : Nat)
  | spawn (call : Nat)
  | run (epoch : Nat) (action : RunAction)

variable {events : List Event}

def replaceRun (runs : List SyncRun) (epoch : Nat) (run' : Option SyncRun) : List SyncRun :=
  runs.filterMap fun run => if run.epoch = epoch then run' else some run

variable {epoch : Nat}

namespace Dispatcher

/-- The dispatcher after the critical section of a call of `wake_client`. -/
def woken (w : Dispatcher) (call : Nat) (client : ImClient) : Dispatcher :=
  let (state, startEpoch) := w.state.wakeClient client
  { w with
    state := state
    calls := w.calls ++ [{ call := call, startEpoch := startEpoch }]
    runs := w.runs ++ startEpoch.toList.map fun epoch => { epoch := epoch } }

def step (w : Dispatcher) : Event → Option Dispatcher
  | .wake call client =>
    if w.calls.any (·.call == call) then none else some (w.woken call client)
  | .notifyOne call =>
    if w.calls.any fun wake => wake.call == call && !wake.notified then
      let calls := Rows.updateWhere (·.call == call) ({ · with notified := true }) w.calls
      some { w with permit := true, calls := calls }
    else none
  | .spawn call =>
    match w.calls.find? fun wake => wake.call == call && wake.notified with
    | some { startEpoch := some epoch, .. } =>
      match w.runs.find? (·.epoch == epoch) with
      | some run =>
        match run.phase with
        | .starting =>
          let spawned := { run with phase := .spawned }
          some { w with runs := replaceRun w.runs epoch (some spawned) }
        | _ => none
      | none => none
    | _ => none
  | .run epoch action =>
    match w.runs.find? (·.epoch == epoch) with
    | some run =>
      match run.step w.state w.permit action with
      | some (state, permit, run') =>
        some { w with state, permit, runs := replaceRun w.runs epoch run' }
      | none => none
    | none => none

def Step (w : Dispatcher) (e : Event) (w' : Dispatcher) : Prop := w.step e = some w'

variable {w w' : Dispatcher} {action : RunAction} {runs : List SyncRun} {run' : Option SyncRun}
  {next : SyncRun} {state' : DispatchState} {permit' : Bool} {event : Event} {current : ImClient}

theorem run_cases (h : Step w (.run epoch action) w') :
    ∃ run ∈ w.runs, run.epoch = epoch ∧ ∃ state' permit' run',
      run.Does w.state w.permit action state' permit' run' ∧
      w' = { w with
        state := state', permit := permit', runs := replaceRun w.runs run.epoch run' } := by
  simp only [Step, step] at h
  split at h
  · rename_i run hfind
    split at h
    · rename_i state' permit' run' hstep
      cases h
      have hepoch : run.epoch = epoch := by simpa using List.find?_some hfind
      exact ⟨run, List.mem_of_find?_eq_some hfind, hepoch, state', permit', run',
        SyncRun.step_does hstep, by rw [hepoch]⟩
    · cases h
  · cases h

theorem wake_cases (h : Step w (.wake call client) w') : w' = w.woken call client := by
  simp only [Step, step] at h
  split at h
  · cases h
  · cases h
    rfl

theorem notifyOne_cases (h : Step w (.notifyOne call) w') :
    ∃ calls, w' = { w with permit := true, calls := calls } := by
  simp only [Step, step] at h
  split at h
  · cases h
    exact ⟨_, rfl⟩
  · cases h

theorem spawn_cases (h : Step w (.spawn call) w') :
    ∃ run ∈ w.runs, run.phase = .starting ∧
      w' = { w with
        runs := replaceRun w.runs run.epoch (some { run with phase := .spawned }) } := by
  simp only [Step, step] at h
  split at h
  · rename_i epoch _ _
    split at h
    · rename_i run hfind
      have hepoch : run.epoch = epoch := by simpa using List.find?_some hfind
      split at h
      · rename_i hphase
        cases h
        exact ⟨run, List.mem_of_find?_eq_some hfind, hphase, by rw [hepoch]⟩
      · cases h
    · cases h
  · cases h

/-! ## One live run -/

theorem mem_replaceRun {run : SyncRun} (h : run ∈ replaceRun runs epoch run') :
    (run ∈ runs ∧ run.epoch ≠ epoch) ∨ run' = some run := by
  obtain ⟨old, hmem, heq⟩ := List.mem_filterMap.mp h
  by_cases hepoch : old.epoch = epoch
  · exact .inr (by simpa [hepoch] using heq)
  · obtain rfl : old = run := by simpa [hepoch] using heq
    exact .inl ⟨hmem, hepoch⟩

theorem mem_replaceRun_of_ne (run' : Option SyncRun) {run : SyncRun} (hmem : run ∈ runs)
    (hepoch : run.epoch ≠ epoch) : run ∈ replaceRun runs epoch run' :=
  List.mem_filterMap.mpr ⟨run, hmem, by simp [hepoch]⟩

theorem mem_replaceRun_self {run : SyncRun} (hmem : run ∈ runs) :
    next ∈ replaceRun runs run.epoch (some next) :=
  List.mem_filterMap.mpr ⟨run, hmem, by simp⟩

theorem nodup_replaceRun (hdistinct : (runs.map (·.epoch)).Nodup)
    (hepoch : ∀ next, run' = some next → next.epoch = epoch) :
    ((replaceRun runs epoch run').map (·.epoch)).Nodup := by
  refine hdistinct.sublist ?_
  induction runs with
  | nil => exact List.nil_sublist _
  | cons run runs ih =>
    have hrest := ih (List.nodup_cons.mp hdistinct).2
    by_cases hrun : run.epoch = epoch
    · cases run' with
      | none => simpa [replaceRun, hrun] using hrest.cons epoch
      | some next => simpa [replaceRun, hrun, hepoch next rfl] using hrest
    · simpa [replaceRun, hrun] using hrest

/-- There is one run at most that has not exited, and what it has not seen will wake it. -/
structure Invariant (w : Dispatcher) : Prop where
  distinct : (w.runs.map (·.epoch)).Nodup
  bound : ∀ run ∈ w.runs, run.epoch ≤ w.state.runEpoch
  live : ∀ run ∈ w.runs, run.phase ≠ .exited →
    run.epoch = w.state.runEpoch ∧ w.state.running = true
  exited : ∀ run ∈ w.runs, run.phase = .exited → run.epoch = w.state.runEpoch →
    w.state.running = false
  generation : ∀ run ∈ w.runs, run.generation ≤ w.state.wakeGeneration
  awake : ∀ run ∈ w.runs, run.phase.looked = true → run.generation < w.state.wakeGeneration →
    w.permit = true ∨ ∃ call ∈ w.calls, call.notified = false

theorem Invariant.initial : Invariant {} := by
  constructor <;> simp

theorem Invariant.eq_of_epoch (h : w.Invariant) {run other : SyncRun} (hrun : run ∈ w.runs)
    (hother : other ∈ w.runs) (hepoch : run.epoch = other.epoch) :
    run = other :=
  List.inj_on_of_nodup_map h.distinct hrun hother hepoch

theorem Invariant.replace (h : w.Invariant) {run : SyncRun}
    (hrun : run ∈ w.runs) (hphase : run.phase ≠ .exited)
    (hepoch : next.epoch = run.epoch) (hrunEpoch : state'.runEpoch = w.state.runEpoch)
    (hwake : state'.wakeGeneration = w.state.wakeGeneration)
    (hrunning : (next.phase ≠ .exited ∧ state'.running = w.state.running) ∨
      (next.phase = .exited ∧ state'.running = false))
    (hgeneration : next.generation ≤ w.state.wakeGeneration)
    (hawake : next.phase.looked = true → next.generation < w.state.wakeGeneration →
      permit' = true ∨ ∃ call ∈ w.calls, call.notified = false) :
    Invariant
      { w with state := state', permit := permit', runs := replaceRun w.runs run.epoch (some next) } := by
  have hcurrent := h.live run hrun hphase
  -- all other runs have exited
  have hothers : ∀ other ∈ w.runs, other.epoch ≠ run.epoch →
      other.phase = .exited ∧ other.epoch ≠ w.state.runEpoch := by
    intro other hother hne
    rw [← hcurrent.1]
    refine ⟨?_, hne⟩
    by_contra hlive
    exact hne ((h.live other hother hlive).1.trans hcurrent.1.symm)
  refine ⟨?_, ?_, ?_, ?_, ?_, ?_⟩
  · apply nodup_replaceRun h.distinct
    rintro _ ⟨⟩
    exact hepoch
  · intro other hother
    rcases mem_replaceRun hother with ⟨hold, -⟩ | heq
    · exact hrunEpoch ▸ h.bound other hold
    · cases heq
      exact (hepoch.trans (hcurrent.1.trans hrunEpoch.symm)).le
  · intro other hother hlive
    rcases mem_replaceRun hother with ⟨hold, hne⟩ | heq
    · exact absurd (hothers other hold hne).1 hlive
    · cases heq
      rcases hrunning with ⟨-, hsame⟩ | ⟨hexited, -⟩
      · exact ⟨hepoch.trans (hcurrent.1.trans hrunEpoch.symm), hsame.trans hcurrent.2⟩
      · exact absurd hexited hlive
  · intro other hother hexited hother'
    rcases mem_replaceRun hother with ⟨hold, hne⟩ | heq
    · exact absurd (hother'.trans hrunEpoch) (hothers other hold hne).2
    · cases heq
      rcases hrunning with ⟨hlive, -⟩ | ⟨-, hstopped⟩
      · exact absurd hexited hlive
      · exact hstopped
  · intro other hother
    rw [hwake]
    rcases mem_replaceRun hother with ⟨hold, -⟩ | heq
    · exact h.generation other hold
    · cases heq
      exact hgeneration
  · intro other hother hlooked
    rw [hwake]
    rcases mem_replaceRun hother with ⟨hold, hne⟩ | heq
    · rw [(hothers other hold hne).1] at hlooked
      cases hlooked
    · cases heq
      exact hawake hlooked

theorem Invariant.remove (h : w.Invariant) (hrunEpoch : state'.runEpoch = w.state.runEpoch)
    (hwake : state'.wakeGeneration = w.state.wakeGeneration)
    (hrunning : state'.running = w.state.running ∨
      (state'.running = false ∧ w.state.runEpoch = epoch)) :
    Invariant { w with state := state', runs := replaceRun w.runs epoch none } := by
  have hkept : ∀ run ∈ replaceRun w.runs epoch none, run ∈ w.runs ∧ run.epoch ≠ epoch := by
    intro run hmem
    rcases mem_replaceRun hmem with hold | heq
    · exact hold
    · cases heq
  refine ⟨?_, ?_, ?_, ?_, ?_, ?_⟩
  · apply nodup_replaceRun h.distinct
    rintro _ ⟨⟩
  · intro run hmem
    exact hrunEpoch ▸ h.bound run (hkept run hmem).1
  · intro run hmem hlive
    obtain ⟨hold, hne⟩ := hkept run hmem
    have hcurrent := h.live run hold hlive
    rcases hrunning with hsame | ⟨-, hepoch⟩
    · exact ⟨hcurrent.1.trans hrunEpoch.symm, hsame.trans hcurrent.2⟩
    · exact absurd (hcurrent.1.trans hepoch) hne
  · intro run hmem hexited hcurrent
    rcases hrunning with hsame | ⟨hstopped, -⟩
    · exact hsame.trans
        (h.exited run (hkept run hmem).1 hexited (hcurrent.trans hrunEpoch))
    · exact hstopped
  · intro run hmem
    exact hwake ▸ h.generation run (hkept run hmem).1
  · intro run hmem hlooked
    rw [hwake]
    exact h.awake run (hkept run hmem).1 hlooked

theorem Invariant.does (h : w.Invariant) {run : SyncRun} (hrun : run ∈ w.runs)
    (hdoes : run.Does w.state w.permit action state' permit' run') :
    Invariant
      { w with state := state', permit := permit', runs := replaceRun w.runs run.epoch run' } := by
  cases hdoes with
  | returned | aborted =>
    obtain ⟨hrunEpoch, hwake, hrunning⟩ := w.state.dropGuard_cases run.epoch
    exact h.remove hrunEpoch hwake hrunning
  | lost => exact h.remove rfl rfl (.inl rfl)
  | exits hphase =>
    exact h.replace hrun (by simp [hphase]) rfl rfl rfl (.inr ⟨rfl, rfl⟩)
      (h.generation run hrun) (by simp [Phase.looked])
  | looks hphase clients hsame =>
    exact h.replace hrun (by simp [hphase]) rfl hsame.runEpoch hsame.wakeGeneration
      (.inl ⟨by simp, hsame.running⟩) le_rfl (by simp)
  | proceeds hphase hphase' hsame hepoch hgeneration hlooked =>
    refine h.replace hrun hphase hepoch hsame.runEpoch hsame.wakeGeneration
      (.inl ⟨hphase', hsame.running⟩) (hgeneration ▸ h.generation run hrun) ?_
    intro hnext hbehind
    obtain ⟨hbefore, rfl⟩ := hlooked hnext
    exact h.awake run hrun hbefore (hgeneration ▸ hbehind)

theorem wakeClient_cases (state : DispatchState) (client : ImClient) :
    (state.wakeClient client).1.running = true ∧
      (state.wakeClient client).1.wakeGeneration = state.wakeGeneration + 1 ∧
      ((state.running = true ∧ (state.wakeClient client).2 = none ∧
          (state.wakeClient client).1.runEpoch = state.runEpoch) ∨
        (state.running = false ∧ (state.wakeClient client).2 = some (state.runEpoch + 1) ∧
          (state.wakeClient client).1.runEpoch = state.runEpoch + 1)) := by
  unfold DispatchState.wakeClient
  dsimp only
  split
  · rename_i hrunning
    exact ⟨hrunning, rfl, .inl ⟨hrunning, rfl, rfl⟩⟩
  · rename_i hstopped
    exact ⟨rfl, rfl, .inr ⟨by simpa using hstopped, rfl, rfl⟩⟩

theorem Invariant.wake (h : w.Invariant) (call : Nat) (client : ImClient) :
    (w.woken call client).Invariant := by
  obtain ⟨hrunning, hwake, hcases⟩ := wakeClient_cases w.state client
  unfold woken
  dsimp only
  have hcall : ∃ wake ∈ w.calls ++ [{ call := call, startEpoch := (w.state.wakeClient client).2 }],
      wake.notified = false :=
    ⟨_, List.mem_append_right _ List.mem_cons_self, rfl⟩
  rcases hcases with ⟨hbefore, hnone, hepoch⟩ | ⟨hbefore, hsome, hepoch⟩
  · rw [hnone] at hcall ⊢
    simp only [Option.toList_none, List.map_nil, List.append_nil]
    refine ⟨h.distinct, ?_, ?_, ?_, ?_, fun _ _ _ _ => .inr hcall⟩
    · simpa [hepoch] using h.bound
    · intro run hrun hlive
      exact ⟨(h.live run hrun hlive).1.trans hepoch.symm, hrunning⟩
    · intro run hrun hexited hcurrent
      exact absurd hbefore (by simp [h.exited run hrun hexited (hcurrent.trans hepoch)])
    · intro run hrun
      exact (h.generation run hrun).trans (by simp [hwake])
  · have hold : ∀ run ∈ w.runs, run.phase = .exited := by
      intro run hrun
      by_contra hlive
      exact absurd (h.live run hrun hlive).2 (by simp [hbefore])
    have hbound : ∀ run ∈ w.runs, run.epoch < w.state.runEpoch + 1 :=
      fun run hrun => Nat.lt_succ_of_le (h.bound run hrun)
    rw [hsome] at hcall ⊢
    simp only [Option.toList_some, List.map_cons, List.map_nil]
    refine ⟨?_, ?_, ?_, ?_, ?_, fun _ _ _ _ => .inr hcall⟩
    · rw [List.map_append, List.nodup_append]
      refine ⟨h.distinct, by simp, ?_⟩
      intro epoch hmem new hnew
      obtain ⟨run, hrun, rfl⟩ := List.mem_map.mp hmem
      have hlt := hbound run hrun
      simp only [List.map_cons, List.map_nil, List.mem_singleton] at hnew
      omega
    all_goals
      intro run hrun
      rcases List.mem_append.mp hrun with hmem | hnew
    · exact (hbound run hmem).le.trans hepoch.ge
    · rw [List.mem_singleton.mp hnew]
      exact hepoch.ge
    · intro hlive
      exact absurd (hold run hmem) hlive
    · rw [List.mem_singleton.mp hnew]
      exact fun _ => ⟨hepoch.symm, hrunning⟩
    · intro _ hcurrent
      have hlt := hbound run hmem
      simp only at hcurrent
      omega
    · rw [List.mem_singleton.mp hnew]
      exact fun hexited => nomatch hexited
    · exact (h.generation run hmem).trans (by simp [hwake])
    · rw [List.mem_singleton.mp hnew]
      exact Nat.zero_le _

theorem Invariant.step (h : w.Invariant) (hstep : Step w event w') : w'.Invariant := by
  cases event with
  | wake call client =>
    obtain rfl := wake_cases hstep
    exact h.wake call client
  | notifyOne call =>
    obtain ⟨calls, rfl⟩ := notifyOne_cases hstep
    exact ⟨h.distinct, h.bound, h.live, h.exited, h.generation, fun _ _ _ _ => .inl rfl⟩
  | spawn call =>
    obtain ⟨run, hrun, hphase, rfl⟩ := spawn_cases hstep
    exact h.replace hrun (by simp [hphase]) rfl rfl rfl (.inl ⟨by simp, rfl⟩)
      (h.generation run hrun) (by simp [Phase.looked])
  | run epoch action =>
    obtain ⟨run, hrun, rfl, state', permit', run', hdoes, rfl⟩ := run_cases hstep
    exact h.does hrun hdoes

theorem Invariant.run (hrun : Run Step {} events w) : w.Invariant :=
  hrun.invariant (fun _ _ _ h hstep => h.step hstep) Invariant.initial

/-! ## Wake-ups -/

def Live (w : Dispatcher) : Prop :=
  w.state.running = true →
    ∃ run ∈ w.runs, run.epoch = w.state.runEpoch ∧ run.phase ≠ .exited

structure Owes (w : Dispatcher) (run : SyncRun) : Prop where
  mem : run ∈ w.runs
  current : run.epoch = w.state.runEpoch
  live : run.phase ≠ .exited
  unseen : run.phase.looked = true → run.generation < w.state.wakeGeneration

def Unseen (w : Dispatcher) : Prop :=
  ∀ run ∈ w.runs, run.epoch = w.state.runEpoch → w.Owes run

theorem dropGuard_running (h : (state.dropGuard epoch).running = true) :
    state.dropGuard epoch = state ∧ state.runEpoch ≠ epoch := by
  unfold DispatchState.dropGuard at h ⊢
  split at h
  · cases h
  · rename_i hepoch
    exact ⟨if_neg hepoch, hepoch⟩

theorem Live.step (h : w.Invariant) (hlive : w.Live) (hstep : Step w event w')
    (hlost : ∀ epoch, event ≠ .run epoch .lose) : w'.Live := by
  cases event with
  | wake call client =>
    obtain rfl := wake_cases hstep
    intro _
    obtain ⟨-, -, hcases⟩ := wakeClient_cases w.state client
    rcases hcases with ⟨hbefore, hnone, hepoch⟩ | ⟨-, hsome, hepoch⟩
    · obtain ⟨run, hrun, hcurrent, hphase⟩ := hlive hbefore
      exact ⟨run, List.mem_append_left _ hrun, hcurrent.trans hepoch.symm, hphase⟩
    · refine ⟨{ epoch := w.state.runEpoch + 1 }, ?_, hepoch.symm, by simp⟩
      apply List.mem_append_right
      exact List.mem_map.mpr ⟨_, Option.mem_toList.mpr hsome, rfl⟩
  | notifyOne call =>
    obtain ⟨calls, rfl⟩ := notifyOne_cases hstep
    exact hlive
  | spawn call =>
    obtain ⟨run, hrun, hphase, rfl⟩ := spawn_cases hstep
    intro _
    have hcurrent := h.live run hrun (by simp [hphase])
    exact ⟨_, mem_replaceRun_self hrun, hcurrent.1, by simp⟩
  | run epoch action =>
    obtain ⟨run, hrun, rfl, state', permit', run', hdoes, rfl⟩ := run_cases hstep
    intro hrunning
    cases hdoes with
    | returned | aborted =>
      obtain ⟨hsame, hother⟩ := dropGuard_running hrunning
      simp only [hsame] at hrunning ⊢
      obtain ⟨live, hmem, hcurrent, hphase⟩ := hlive hrunning
      exact ⟨live, mem_replaceRun_of_ne _ hmem (hcurrent ▸ hother), hcurrent, hphase⟩
    | lost => exact absurd rfl (hlost run.epoch)
    | exits => cases hrunning
    | looks hphase clients hsame =>
      have hcurrent := h.live run hrun (by simp [hphase])
      exact ⟨_, mem_replaceRun_self hrun, hcurrent.1.trans hsame.runEpoch.symm, by simp⟩
    | proceeds hphase hphase' hsame hepoch =>
      have hcurrent := h.live run hrun hphase
      exact ⟨_, mem_replaceRun_self hrun,
        hepoch.trans (hcurrent.1.trans hsame.runEpoch.symm), hphase'⟩

theorem Invariant.unseen_wake (h : w.Invariant) (call : Nat) (client : ImClient) :
    (w.woken call client).Unseen := by
  obtain ⟨hrunning, hwake, -⟩ := wakeClient_cases w.state client
  intro run hrun hcurrent
  refine ⟨hrun, hcurrent, ?_, ?_⟩
  · intro hexited
    have hstopped := (h.wake call client).exited run hrun hexited hcurrent
    exact Bool.false_ne_true (hstopped.symm.trans hrunning)
  · intro hlooked
    apply lt_of_lt_of_eq _ hwake.symm
    rcases List.mem_append.mp hrun with hold | hnew
    · exact Nat.lt_succ_of_le (h.generation run hold)
    · obtain ⟨epoch, -, rfl⟩ := List.mem_map.mp hnew
      cases hlooked

theorem Owes.does {run : SyncRun} (howes : w.Owes run)
    (hdoes : run.Does w.state w.permit action state' permit' (some next))
    (hlook : action ≠ .snapshot) :
    Owes { w with
      state := state', permit := permit', runs := replaceRun w.runs run.epoch (some next) } next ∧
    next.epoch = run.epoch ∧ next.rank < run.rank := by
  cases hdoes with
  | exits hphase hseen =>
    have hbehind := howes.unseen (by simp [hphase, Phase.looked])
    omega
  | looks => exact absurd rfl hlook
  | proceeds hphase hphase' hsame hepoch hgeneration hlooked hrank =>
    refine ⟨⟨mem_replaceRun_self howes.mem, ?_, hphase', ?_⟩, hepoch, hrank⟩
    · exact hepoch.trans (howes.current.trans hsame.runEpoch.symm)
    · intro hnext
      have hbehind := howes.unseen (hlooked hnext).1
      exact hgeneration ▸ hbehind.trans_eq hsame.wakeGeneration.symm

theorem Unseen.step (h : w.Invariant) (hunseen : w.Unseen) (hstep : Step w event w')
    (hlook : ∀ epoch, event ≠ .run epoch .snapshot) : w'.Unseen := by
  cases event with
  | wake call client =>
    obtain rfl := wake_cases hstep
    exact h.unseen_wake call client
  | notifyOne call =>
    obtain ⟨calls, rfl⟩ := notifyOne_cases hstep
    intro run hrun hcurrent
    have howes := hunseen run hrun hcurrent
    exact ⟨hrun, hcurrent, howes.live, howes.unseen⟩
  | spawn call =>
    obtain ⟨run, hrun, hphase, rfl⟩ := spawn_cases hstep
    intro other hother hcurrent
    rcases mem_replaceRun hother with ⟨hold, -⟩ | heq
    · have howes := hunseen other hold hcurrent
      exact ⟨hother, hcurrent, howes.live, howes.unseen⟩
    · cases heq
      exact ⟨hother, hcurrent, by simp, by simp [Phase.looked]⟩
  | run epoch action =>
    obtain ⟨run, hrun, rfl, state', permit', run', hdoes, rfl⟩ := run_cases hstep
    obtain ⟨hrunEpoch, hwake⟩ := hdoes.counters
    intro other hother hcurrent
    have hcurrent' : other.epoch = w.state.runEpoch := hcurrent.trans hrunEpoch
    rcases mem_replaceRun hother with ⟨hold, -⟩ | rfl
    · have howes := hunseen other hold hcurrent'
      exact ⟨hother, hcurrent, howes.live, fun hlooked => hwake ▸ howes.unseen hlooked⟩
    · have howes := hunseen run hrun (hdoes.epoch.symm.trans hcurrent')
      exact (howes.does hdoes fun hsame => hlook run.epoch (hsame ▸ rfl)).1

theorem Unseen.running_step (h : w.Invariant) (hunseen : w.Unseen)
    (hrunning : w.state.running = true) (hstep : Step w event w')
    (habort : ∀ epoch, event ≠ .run epoch .abort) : w'.state.running = true := by
  cases event with
  | wake call client =>
    obtain rfl := wake_cases hstep
    exact (wakeClient_cases w.state client).1
  | notifyOne call =>
    obtain ⟨calls, rfl⟩ := notifyOne_cases hstep
    exact hrunning
  | spawn call =>
    obtain ⟨run, -, -, rfl⟩ := spawn_cases hstep
    exact hrunning
  | run epoch action =>
    obtain ⟨run, hrun, rfl, state', permit', run', hdoes, rfl⟩ := run_cases hstep
    cases hdoes with
    | returned hphase =>
      have hother : w.state.runEpoch ≠ run.epoch := by
        intro hcurrent
        exact (hunseen run hrun hcurrent.symm).live hphase
      simpa [DispatchState.dropGuard, hother] using hrunning
    | aborted => exact absurd rfl (habort run.epoch)
    | lost => exact hrunning
    | exits hphase hseen =>
      have hcurrent := h.live run hrun (by simp [hphase])
      have hbehind := (hunseen run hrun hcurrent.1).unseen (by simp [hphase, Phase.looked])
      omega
    | looks _ _ hsame | proceeds _ _ hsame => exact hsame.running.trans hrunning

theorem wake_seen {before after : List Event}
    (hrun : Run Step {} (before ++ .wake call client :: after) w)
    (hlost : ∀ epoch, .run epoch .lose ∉ before ++ .wake call client :: after) :
    (∃ epoch, .run epoch .snapshot ∈ after) ∨
      (w.state.running = false ∧ ∃ epoch, .run epoch .abort ∈ after) ∨
      ∃ run, w.Owes run := by
  have hlive : w.Invariant ∧ w.Live := by
    refine hrun.invariant_of_mem (P := fun w => w.Invariant ∧ w.Live)
      ⟨Invariant.initial, nofun⟩ ?_
    intro v v' event hevent h hstep
    exact ⟨h.1.step hstep, h.2.step h.1 hstep fun epoch heq => hlost epoch (heq ▸ hevent)⟩
  obtain ⟨v, v', hbefore, hwake, hafter⟩ := hrun.around
  have hv := Invariant.run hbefore
  obtain rfl := wake_cases hwake
  by_cases hlook : ∃ epoch, .run epoch .snapshot ∈ after
  · exact .inl hlook
  · right
    have hunseen : w.Invariant ∧ w.Unseen := by
      refine hafter.invariant_of_mem (P := fun w => w.Invariant ∧ w.Unseen)
        ⟨hv.wake call client, hv.unseen_wake call client⟩ ?_
      intro u u' event hevent h hstep
      exact ⟨h.1.step hstep, h.2.step h.1 hstep fun epoch heq => hlook ⟨epoch, heq ▸ hevent⟩⟩
    cases hrunning : w.state.running with
    | true =>
      obtain ⟨run, hmem, hcurrent, -⟩ := hlive.2 hrunning
      exact .inr ⟨run, hunseen.2 run hmem hcurrent⟩
    | false =>
      refine .inl ⟨rfl, ?_⟩
      by_contra habort
      have hkept : w.Invariant ∧ w.Unseen ∧ w.state.running = true := by
        refine hafter.invariant_of_mem
          (P := fun w => w.Invariant ∧ w.Unseen ∧ w.state.running = true)
          ⟨hv.wake call client, hv.unseen_wake call client, (wakeClient_cases v.state client).1⟩ ?_
        intro u u' event hevent h hstep
        refine ⟨h.1.step hstep, ?_, ?_⟩
        · exact h.2.1.step h.1 hstep fun epoch heq => hlook ⟨epoch, heq ▸ hevent⟩
        · exact h.2.1.running_step h.1 h.2.2 hstep fun epoch heq => habort ⟨epoch, heq ▸ hevent⟩
      exact Bool.false_ne_true (hrunning.symm.trans hkept.2.2)

theorem Owes.enabled {run : SyncRun} (h : w.Invariant) (howes : w.Owes run)
    (hspawned : run.phase ≠ .starting) :
    ∃ action w', action.ends = false ∧ Step w (.run run.epoch action) w' := by
  have hfind : w.runs.find? (·.epoch == run.epoch) = some run := by
    cases hsearch : w.runs.find? (·.epoch == run.epoch) with
    | none =>
      have hnone := List.find?_eq_none.mp hsearch run howes.mem
      simp at hnone
    | some other =>
      have hepoch : other.epoch = run.epoch := by simpa using List.find?_some hsearch
      rw [h.eq_of_epoch (List.mem_of_find?_eq_some hsearch) howes.mem hepoch]
  have hact : ∃ action, action.ends = false ∧
      (run.step w.state w.permit action).isSome = true := by
    cases hphase : run.phase with
    | starting => exact absurd hphase hspawned
    | spawned => exact ⟨.poll, rfl, by simp [SyncRun.step, hphase]⟩
    | top => exact ⟨.snapshot, rfl, by simp [SyncRun.step, hphase]⟩
    | round rest =>
      cases rest with
      | nil => exact ⟨.select, rfl, by simp [SyncRun.step, hphase]⟩
      | cons client rest => exact ⟨.nextClient, rfl, by simp [SyncRun.step, hphase]⟩
    | selecting => exact ⟨.tick, rfl, by simp [SyncRun.step, hphase]⟩
    | exited => exact absurd hphase howes.live
  obtain ⟨action, hends, hsome⟩ := hact
  obtain ⟨⟨state', permit', run'⟩, hstep⟩ := Option.isSome_iff_exists.mp hsome
  refine ⟨action, { w with
    state := state', permit := permit', runs := replaceRun w.runs run.epoch run' }, hends, ?_⟩
  simp only [Step, Dispatcher.step, hfind, hstep]

theorem Owes.proceed {run : SyncRun} (h : w.Invariant) (howes : w.Owes run)
    (hstep : Step w (.run run.epoch action) w') :
    action = .snapshot ∨ action = .abort ∨ action = .lose ∨
      ∃ next, w'.Owes next ∧ next.epoch = run.epoch ∧ next.rank < run.rank := by
  obtain ⟨found, hfound, hepoch, state', permit', run', hdoes, rfl⟩ := run_cases hstep
  obtain rfl := h.eq_of_epoch hfound howes.mem hepoch
  by_cases hlook : action = .snapshot
  · exact .inl hlook
  · cases run' with
    | some next => exact .inr (.inr (.inr ⟨next, howes.does hdoes hlook⟩))
    | none =>
      cases hdoes with
      | returned hphase => exact absurd hphase howes.live
      | aborted => exact .inr (.inl rfl)
      | lost => exact .inr (.inr (.inl rfl))

/-! ## Registered clients -/

theorem client?_wakeClient {owner : String} (h : state.client? owner = some current)
    (client : ImClient) :
    ∃ registered, (state.wakeClient client).1.client? owner = some registered ∧
      (registered = current ∨ keepsCurrent current registered = false) := by
  have hclients : (state.wakeClient client).1.clients =
      if (state.client? client.identityId).any (keepsCurrent · client) then state.clients
      else Rows.upsertWhere (·.1 == client.identityId) (client.identityId, client)
        (fun _ => (client.identityId, client)) state.clients := by
    unfold DispatchState.wakeClient
    dsimp only
    split <;> rfl
  unfold DispatchState.client?
  rw [hclients]
  split
  · exact ⟨current, h, .inl rfl⟩
  · rename_i hreplaced
    by_cases howner : client.identityId = owner
    · subst howner
      refine ⟨client, ?_, .inr ?_⟩
      · rw [Rows.find?_upsertWhere_self (by simp)]
        rfl
      · simpa [h] using hreplaced
    · refine ⟨current, ?_, .inl rfl⟩
      have hother : (client.identityId == owner) = false := by simpa using howner
      have hsearch : (Rows.upsertWhere (·.1 == client.identityId) (client.identityId, client)
          (fun _ => (client.identityId, client)) state.clients).find? (·.1 == owner) =
          state.clients.find? (·.1 == owner) := by
        apply Rows.find?_upsertWhere_of_ne
        · intro entry hentry
          rw [beq_iff_eq.mp hentry]
          exact hother
        · exact hother
        · exact fun _ _ => hother
      rw [hsearch]
      exact h

theorem keepsCurrent_false {context context' : SyncAccountContext}
    (h : keepsCurrent current client = false)
    (hcurrent : current.syncAccountContext = .ok context)
    (hclient : client.syncAccountContext = .ok context') :
    Decimal.value context.deviceAuthGeneration ≤ Decimal.value context'.deviceAuthGeneration := by
  have hcanonical := isCanonical_of_syncAccountContext hcurrent
  have hcanonical' := isCanonical_of_syncAccountContext hclient
  simp only [keepsCurrent, hcurrent, hclient] at h
  by_contra hless
  have hlt := (Decimal.order_lt_iff hcanonical' hcanonical).mpr (Nat.lt_of_not_le hless)
  rw [Decimal.order_swap, hlt] at h
  cases h

theorem clients_step (hstep : Step w event w')
    (hexit : ∀ epoch, event = .run epoch .exitCheck → w'.state.clients ≠ [])
    {owner : String} (hclient : w.state.client? owner = some current) :
    ∃ registered, w'.state.client? owner = some registered ∧
      (registered = current ∨ keepsCurrent current registered = false) := by
  cases event with
  | wake call client =>
    obtain rfl := wake_cases hstep
    exact client?_wakeClient hclient client
  | notifyOne call =>
    obtain ⟨calls, rfl⟩ := notifyOne_cases hstep
    exact ⟨current, hclient, .inl rfl⟩
  | spawn call =>
    obtain ⟨run, -, -, rfl⟩ := spawn_cases hstep
    exact ⟨current, hclient, .inl rfl⟩
  | run epoch action =>
    obtain ⟨run, -, rfl, state', permit', run', hdoes, rfl⟩ := run_cases hstep
    have hclients : state'.clients = w.state.clients := by
      cases hdoes with
      | returned | aborted =>
        unfold DispatchState.dropGuard
        split <;> rfl
      | lost => rfl
      | exits => exact absurd rfl (hexit run.epoch rfl)
      | looks _ _ hsame | proceeds _ _ hsame => exact hsame.clients
    refine ⟨current, ?_, .inl rfl⟩
    unfold DispatchState.client? at hclient ⊢
    rw [hclients]
    exact hclient

/--
One run is live, and the flag is set while it has not decided to exit.  If no task is dropped
before its first poll, a wake-up is followed by a look at the clients, or the task ended and
the flag is clear, or the current run owes the look: it cannot exit, waits only with a permit
or a call that is about to give one, and every step brings it nearer to the look.  The guard
of an older run changes nothing.  Unless an exit clears the clients, the client of an owner is
not replaced by one of a smaller device authorization.
-/
theorem dispatcher_keeps_wakeups {w : Dispatcher} {events : List Event}
    (hrun : Run Step {} events w) :
    ((∀ run ∈ w.runs, ∀ other ∈ w.runs, run.epoch = w.state.runEpoch →
        other.epoch = w.state.runEpoch → run = other) ∧
      ∀ run ∈ w.runs, run.epoch = w.state.runEpoch → run.phase ≠ .exited →
        w.state.running = true) ∧
    ((∀ epoch, .run epoch .lose ∉ events) → ∀ before call client after,
      events = before ++ .wake call client :: after →
        (∃ epoch, .run epoch .snapshot ∈ after) ∨
        (w.state.running = false ∧ ∃ epoch, .run epoch .abort ∈ after) ∨
        ∃ run, w.Owes run) ∧
    (∀ run, w.Owes run →
      (run.phase.looked = true → w.permit = true ∨ ∃ call ∈ w.calls, call.notified = false) ∧
      (run.phase ≠ .starting → ∃ action w', action.ends = false ∧
        Step w (.run run.epoch action) w') ∧
      ∀ action w', Step w (.run run.epoch action) w' →
        action = .snapshot ∨ action = .abort ∨ action = .lose ∨
        ∃ next, w'.Owes next ∧ next.epoch = run.epoch ∧ next.rank < run.rank) ∧
    (∀ epoch action w', action = .dropGuard ∨ action = .abort →
      Step w (.run epoch action) w' → epoch ≠ w.state.runEpoch → w'.state = w.state) ∧
    (∀ event w', Step w event w' →
      (∀ epoch, event = .run epoch .exitCheck → w'.state.clients ≠ []) →
      ∀ owner current, w.state.client? owner = some current →
      ∃ registered, w'.state.client? owner = some registered ∧
        ∀ context context', current.syncAccountContext = .ok context →
          registered.syncAccountContext = .ok context' →
          Decimal.value context.deviceAuthGeneration ≤
            Decimal.value context'.deviceAuthGeneration) := by
  have h := Invariant.run hrun
  refine ⟨⟨?_, ?_⟩, ?_, ?_, ?_, ?_⟩
  · intro run hmem other hother hcurrent hcurrent'
    exact h.eq_of_epoch hmem hother (hcurrent.trans hcurrent'.symm)
  · intro run hmem _ hphase
    exact (h.live run hmem hphase).2
  · rintro hlost before call client after rfl
    exact wake_seen hrun hlost
  · intro run howes
    refine ⟨?_, howes.enabled h, fun action w' => howes.proceed h⟩
    intro hlooked
    exact h.awake run howes.mem hlooked (howes.unseen hlooked)
  · intro epoch action w' haction hstep hother
    obtain ⟨run, -, rfl, state', permit', run', hdoes, rfl⟩ := run_cases hstep
    cases hdoes with
    | returned | aborted => exact if_neg (Ne.symm hother)
    | lost => rfl
    | exits | looks => simp at haction
    | proceeds _ _ _ _ _ _ _ hends =>
      rcases haction with rfl | rfl <;> cases hends
  · intro event w' hstep hexit owner current hclient
    obtain ⟨registered, hregistered, hcases⟩ := clients_step hstep hexit hclient
    refine ⟨registered, hregistered, ?_⟩
    intro context context' hcontext hcontext'
    rcases hcases with rfl | hreplaced
    · rw [hcontext] at hcontext'
      cases hcontext'
      exact le_rfl
    · exact keepsCurrent_false hreplaced hcontext hcontext'

theorem stuck (hrun : Run Step w events w') (hruns : w.runs = [])
    (hrunning : w.state.running = true) : w'.runs = [] ∧ w'.state.running = true := by
  refine hrun.invariant (P := fun w => w.runs = [] ∧ w.state.running = true) ?_ ⟨hruns, hrunning⟩
  rintro v event v' ⟨hnone, hset⟩ hstep
  cases event with
  | wake call client =>
    obtain rfl := wake_cases hstep
    obtain ⟨hset', -, hcases⟩ := wakeClient_cases v.state client
    refine ⟨?_, hset'⟩
    rcases hcases with ⟨-, hstart, -⟩ | ⟨hclear, -⟩
    · simp only [woken, hnone, hstart, Option.toList_none, List.map_nil, List.append_nil]
    · rw [hset] at hclear
      cases hclear
  | notifyOne call =>
    obtain ⟨calls, rfl⟩ := notifyOne_cases hstep
    exact ⟨hnone, hset⟩
  | spawn call =>
    obtain ⟨run, hrun, -⟩ := spawn_cases hstep
    rw [hnone] at hrun
    cases hrun
  | run epoch action =>
    obtain ⟨run, hrun, -⟩ := run_cases hstep
    rw [hnone] at hrun
    cases hrun

end Dispatcher

namespace Sample

def seed (accountId generation : String) : SyncAccountSeed :=
  { accountId := accountId, protocolDeviceId := "device", deviceAuthGeneration := generation }

def alice (accountId generation : String) : ImClient :=
  { identityId := "alice", syncAccount := some (seed accountId generation) }

def begun : List Event :=
  [.wake 0 (alice "account" "5"), .notifyOne 0, .spawn 0, .run 1 .poll, .run 1 .snapshot]

def unseen : List Event := [.run 1 .nextClient, .run 1 .exitCheck]

def woken : Dispatcher :=
  ((begun ++ .wake 1 (alice "account" "6") :: unseen).foldlM Dispatcher.step {}).getD {}

theorem woken_run_stays :
    woken.state.running = true ∧ (∃ run, woken.Owes run) ∧
      woken.state.client? "alice" = some (alice "account" "6") := by
  have hrun : Run Dispatcher.Step {} (begun ++ .wake 1 (alice "account" "6") :: unseen) woken :=
    Run.of_foldlM rfl
  have hrunning : woken.state.running = true := rfl
  refine ⟨hrunning, ?_, by decide +kernel⟩
  have hlost : ∀ epoch, .run epoch .lose ∉ begun ++ .wake 1 (alice "account" "6") :: unseen := by
    simp [begun, unseen]
  have hseen := (Dispatcher.dispatcher_keeps_wakeups hrun).2.1 hlost begun 1
    (alice "account" "6") unseen rfl
  simpa [unseen, hrunning] using hseen

def lost : List Event :=
  [.wake 0 (alice "account" "5"), .notifyOne 0, .spawn 0, .run 1 .lose]

def later : List Event :=
  [.wake 1 (alice " account" "3"), .notifyOne 1]

def blocked : Dispatcher := (lost.foldlM Dispatcher.step {}).getD {}

def replaced : Dispatcher := (later.foldlM Dispatcher.step blocked).getD {}

/--
Once a task was dropped before its first poll the flag stays set and no run ever looks at the
clients again.  A client without a sync account context replaces one of a larger generation.
-/
theorem dropped_task_blocks_dispatcher :
    Run Dispatcher.Step {} (lost ++ later) replaced ∧
    (∀ events w, Run Dispatcher.Step replaced events w →
      w.state.running = true ∧ w.runs = [] ∧ ∀ epoch, .run epoch .snapshot ∉ events) ∧
    blocked.state.client? "alice" = some (alice "account" "5") ∧
    replaced.state.client? "alice" = some (alice " account" "3") := by
  have hlost : Run Dispatcher.Step {} lost blocked := Run.of_foldlM rfl
  have hlater : Run Dispatcher.Step blocked later replaced := Run.of_foldlM rfl
  refine ⟨Run.append_iff.mpr ⟨blocked, hlost, hlater⟩, ?_, by decide +kernel, by decide +kernel⟩
  intro events w hrun
  obtain ⟨hnone, hset⟩ := Dispatcher.stuck hrun rfl rfl
  refine ⟨hset, hnone, ?_⟩
  intro epoch hmem
  obtain ⟨before, after, rfl⟩ := List.append_of_mem hmem
  obtain ⟨v, v', hbefore, hstep, -⟩ := hrun.around
  obtain ⟨run, hruns, -⟩ := Dispatcher.run_cases hstep
  rw [(Dispatcher.stuck hbefore rfl rfl).1] at hruns
  cases hruns

end Sample
end SyncDispatcher
end Awiki

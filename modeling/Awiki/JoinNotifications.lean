import Awiki.Transactions
import Mathlib.Data.List.Chain
import Mathlib.Logic.Function.Basic

/-!
# Notifications of a device join

Every notification of a join session carries a revision.  `apply` keeps a receipt for each event
and one row for the session; a newer revision replaces the row if its state can be reached, an
older one is only received.  The join request comes with the pending notification, which may be
the last to arrive, and is kept in a column of its own.

Both tables are given by what is stored under a primary key.  Columns that `apply` writes and
never reads are left out; the state and the revision stand for the texts and numbers that `apply`,
their only writer, stores for them.
-/

namespace Awiki
namespace SystemNotification

open Tx Function

inductive SystemNotificationState where
  | pending | challengeSent | responseVerified | consumed | cancelled | rejected | expired
  deriving DecidableEq, Repr

inductive ImError where
  | revisionConflict (message : String)
  | invalidNotification (message : String)
  deriving DecidableEq, Repr

def SystemNotificationState.isTerminal : SystemNotificationState → Bool
  | .consumed | .cancelled | .rejected | .expired => true
  | _ => false

/-- The join request is the text that `serde_json` writes for it. -/
structure JoinNotification where
  eventId : String
  did : String
  joinSessionId : String
  state : SystemNotificationState
  sessionRevision : Nat
  initialJoinRequest : Option String
  deriving DecidableEq

structure VerifiedSystemNotification extends JoinNotification where
  payloadHash : String
  proofHash : String
  deriving DecidableEq

structure SystemNotificationApplyInput where
  ownerIdentityId : String
  verified : VerifiedSystemNotification
  receivedAt : Int

/-- A snapshot is the notification with the time of the first sighting. -/
inductive SystemNotificationApplyOutcome where
  | applied (notification : JoinNotification) (firstSeenAt : String)
  | duplicate
  | ignoredOlderRevision
  | noopSameRevision

structure JoinStateRow where
  state : SystemNotificationState
  sessionRevision : Nat
  payloadHash : String
  initialJoinRequestJson : Option String
  firstSeenAt : String
  terminal : Bool

/-- The receipts have the payload and the proof hash of an event of an owner, the join states
stand under owner, DID and session. -/
structure Store where
  receipts : String × String → Option (String × String)
  joinState : String × String × String → Option JoinStateRow

inductive ReducerOutcome where
  | apply | ignoreOlder | noop
  deriving DecidableEq

def invalidRevision : ImError :=
  .invalidNotification "system notification state/revision pair is invalid"

def validateStateRevision (state : SystemNotificationState) (revision : Nat) : Bool :=
  match state with
  | .pending => revision = 1
  | .challengeSent => revision = 2
  | .responseVerified => revision = 3
  | .consumed => revision = 4
  | .cancelled | .rejected | .expired => 2 ≤ revision && revision ≤ 4

def reachable (current next : SystemNotificationState) (nextRevision : Nat) : Bool :=
  match current with
  | .pending =>
    next ∈ [.challengeSent, .responseVerified, .consumed, .cancelled, .rejected, .expired]
  | .challengeSent =>
    next ∈ [.responseVerified, .consumed, .cancelled, .rejected, .expired] && 3 ≤ nextRevision
  | .responseVerified => next ∈ [.consumed, .cancelled, .rejected, .expired] && nextRevision = 4
  | .consumed | .cancelled | .rejected | .expired => false

def reducerOutcome (current : Option JoinStateRow) (next : VerifiedSystemNotification) :
    Except ImError ReducerOutcome :=
  if !validateStateRevision next.state next.sessionRevision then .error invalidRevision
  else
    match current with
    | none => .ok .apply
    | some current =>
      if next.sessionRevision < current.sessionRevision then .ok .ignoreOlder
      else if next.sessionRevision = current.sessionRevision then
        if next.state = current.state ∧ next.payloadHash = current.payloadHash then .ok .noop
        else .error (.revisionConflict
          "same session revision has different state or canonical payload")
      else if current.terminal || current.state.isTerminal then
        .error (.revisionConflict "terminal notification state cannot reopen")
      else if !reachable current.state next.state next.sessionRevision then
        .error (.revisionConflict
          "higher revision is not reachable from current notification state")
      else .ok .apply

namespace SystemNotificationApplyInput

variable (input : SystemNotificationApplyInput)

def event : String × String := (input.ownerIdentityId, input.verified.eventId)

def session : String × String × String :=
  (input.ownerIdentityId, input.verified.did, input.verified.joinSessionId)

end SystemNotificationApplyInput

def VerifiedSystemNotification.row (verified : VerifiedSystemNotification) (firstSeenAt : String) :
    JoinStateRow where
  state := verified.state
  sessionRevision := verified.sessionRevision
  payloadHash := verified.payloadHash
  initialJoinRequestJson := verified.initialJoinRequest
  firstSeenAt := firstSeenAt
  terminal := verified.state.isTerminal

/-- `COALESCE(initial_join_request_json, ..)`. -/
def JoinStateRow.withRequest (request : Option String) (row : JoinStateRow) : JoinStateRow :=
  { row with initialJoinRequestJson := row.initialJoinRequestJson <|> request }

/-- `ON CONFLICT DO UPDATE`: the first sighting stays, and so does a request that is there. -/
def JoinStateRow.merge (row old : JoinStateRow) : JoinStateRow :=
  { row with
    firstSeenAt := old.firstSeenAt
    initialJoinRequestJson := old.initialJoinRequestJson <|> row.initialJoinRequestJson }

section Apply

variable (formatTime : Int → String) (input : SystemNotificationApplyInput)

def insertReceipt : Tx ImError Store Unit :=
  execute fun store => { store with
    receipts := update store.receipts input.event
      (some (input.verified.payloadHash, input.verified.proofHash)) }

def persistInitialJoinRequest : Tx ImError Store Unit :=
  match input.verified.initialJoinRequest with
  | none => pure ()
  | some joinRequest =>
    execute fun store => { store with
      joinState := update store.joinState input.session
        ((store.joinState input.session).map (·.withRequest (some joinRequest))) }

def applyTransaction : Tx ImError Store SystemNotificationApplyOutcome := do
  match ← query fun store => store.receipts input.event with
  | some hashes =>
    if hashes = (input.verified.payloadHash, input.verified.proofHash) then
      return .duplicate
    throw (.revisionConflict "event_id was already consumed with different canonical content")
  | none =>
    let current ← query fun store => store.joinState input.session
    let outcome ← attempt (reducerOutcome current input.verified)
    insertReceipt input
    persistInitialJoinRequest input
    match outcome with
    | .ignoreOlder => return .ignoredOlderRevision
    | .noop => return .noopSameRevision
    | .apply =>
      let firstSeenAt := (current.map (·.firstSeenAt)).getD (formatTime input.receivedAt)
      let row := input.verified.row firstSeenAt
      execute fun store => { store with
        joinState := update store.joinState input.session
          (some ((store.joinState input.session).elim row row.merge)) }
      return .applied input.verified.toJoinNotification firstSeenAt

def apply : Tx ImError Store SystemNotificationApplyOutcome :=
  immediate do
    let outcome ← applyTransaction formatTime input
    return .commit outcome

end Apply

/-! ## What one notification does -/

variable {formatTime : Int → String} {input : SystemNotificationApplyInput} {s t : Store}
  {reduced : ReducerOutcome} {outcome : SystemNotificationApplyOutcome}

/-- The row of the session after a notification that the reducer lets in. -/
def SystemNotificationApplyInput.settled (formatTime : Int → String)
    (input : SystemNotificationApplyInput) (current : Option JoinStateRow)
    (reduced : ReducerOutcome) : Option JoinStateRow :=
  let old := current.map (·.withRequest input.verified.initialJoinRequest)
  let row := input.verified.row
    ((current.map (·.firstSeenAt)).getD (formatTime input.receivedAt))
  if reduced = .apply then some (old.elim row row.merge) else old

def Store.receive (formatTime : Int → String) (input : SystemNotificationApplyInput)
    (reduced : ReducerOutcome) (store : Store) : Store where
  receipts := update store.receipts input.event
    (some (input.verified.payloadHash, input.verified.proofHash))
  joinState := update store.joinState input.session
    (input.settled formatTime (store.joinState input.session) reduced)

theorem persistInitialJoinRequest_run : (persistInitialJoinRequest input).run s = .ok () { s with
    joinState := update s.joinState input.session ((s.joinState input.session).map
      (·.withRequest input.verified.initialJoinRequest)) } := by
  unfold persistInitialJoinRequest
  cases input.verified.initialJoinRequest with
  | none => simp [JoinStateRow.withRequest]
  | some joinRequest => rfl

/-- A notification without a receipt is received as the reducer says. -/
theorem applyTransaction_run (hnone : s.receipts input.event = none)
    (hreduced : reducerOutcome (s.joinState input.session) input.verified = .ok reduced) :
    ∃ outcome, outcome ≠ .duplicate ∧ (applyTransaction formatTime input).run s =
      .ok outcome (s.receive formatTime input reduced) := by
  unfold applyTransaction insertReceipt
  rw [run_bind_of_ok (query_ok.mpr ⟨rfl, rfl⟩), hnone]
  dsimp only
  rw [run_bind_of_ok (query_ok.mpr ⟨rfl, rfl⟩),
    run_bind_of_ok (attempt_ok.mpr ⟨hreduced, rfl⟩),
    run_bind_of_ok ((execute_ok (v := ())).mpr rfl), run_bind_of_ok persistInitialJoinRequest_run]
  cases reduced with
  | apply =>
    refine ⟨_, ?_, execute_bind_ok.mpr (pure_ok.mpr ⟨rfl, ?_⟩)⟩
    · simp
    · simp [Store.receive, SystemNotificationApplyInput.settled]
  | ignoreOlder => exact ⟨_, by simp, rfl⟩
  | noop => exact ⟨_, by simp, rfl⟩

theorem apply_ok : (apply formatTime input).run s = .ok outcome t ↔
    (applyTransaction formatTime input).run s = .ok outcome t := by
  unfold apply
  rw [immediate_ok]
  simp only [bind_pure_ok, Ending.commit.injEq, exists_eq_right, reduceCtorEq, and_false,
    exists_false, or_false]

theorem apply_cases (h : (apply formatTime input).run s = .ok outcome t) :
    outcome = .duplicate ∧ t = s ∨ outcome ≠ .duplicate ∧ ∃ reduced,
      reducerOutcome (s.joinState input.session) input.verified = .ok reduced ∧
        t = s.receive formatTime input reduced := by
  have hrun := apply_ok.mp h
  have hrun' := hrun
  obtain ⟨hashes, hhashes, hrun⟩ := query_bind_ok.mp hrun
  cases hashes with
  | some hashes =>
    dsimp only at hrun
    split at hrun
    · obtain ⟨rfl, rfl⟩ := pure_ok.mp hrun
      exact .inl ⟨rfl, rfl⟩
    · exact (throw_ok.mp hrun).elim
  | none =>
    obtain ⟨current, rfl, hrun⟩ := query_bind_ok.mp hrun
    obtain ⟨reduced, hreduced, -⟩ := attempt_bind_ok.mp hrun
    obtain ⟨outcome', hne, hreceive⟩ := applyTransaction_run hhashes hreduced
    cases hrun'.symm.trans hreceive
    exact .inr ⟨hne, reduced, hreduced, rfl⟩

/-! ## Rows only move forward -/

structure JoinStateRow.Advances (old new : JoinStateRow) : Prop where
  revision : old.sessionRevision ≤ new.sessionRevision
  terminal : old.terminal = true → new.terminal = true

theorem settled_advances {row : JoinStateRow}
    (hreduced : reducerOutcome (some row) input.verified = .ok reduced) :
    ∃ next, input.settled formatTime (some row) reduced = some next ∧ row.Advances next := by
  by_cases happly : reduced = .apply
  · subst happly
    have hopen : row.sessionRevision < input.verified.sessionRevision ∧ row.terminal = false := by
      simp only [reducerOutcome] at hreduced
      grind
    exact ⟨_, rfl, hopen.1.le, by simp [hopen.2]⟩
  · exact ⟨_, if_neg happly, Nat.le_refl _, id⟩

theorem apply_advances {key : String × String × String} {row : JoinStateRow}
    (hrow : s.joinState key = some row) (h : (apply formatTime input).run s = .ok outcome t) :
    ∃ next, t.joinState key = some next ∧ row.Advances next := by
  rcases apply_cases h with ⟨-, rfl⟩ | ⟨-, reduced, hreduced, rfl⟩
  · exact ⟨row, hrow, Nat.le_refl _, id⟩
  · by_cases hkey : key = input.session
    · subst hkey
      rw [hrow] at hreduced
      simpa [Store.receive, hrow] using settled_advances hreduced
    · exact ⟨row, by simpa [Store.receive, hkey] using hrow, Nat.le_refl _, id⟩

/-! ## One server path -/

/-- Along increasing revisions a state can be reached from every state that is not terminal. -/
theorem reachable_iff {state state' : SystemNotificationState} {revision revision' : Nat}
    (hvalid : validateStateRevision state revision = true)
    (hvalid' : validateStateRevision state' revision' = true) (hlt : revision < revision') :
    reachable state state' revision' = true ↔ state.isTerminal = false := by
  cases state <;> cases state' <;>
    simp [reachable, validateStateRevision, SystemNotificationState.isTerminal] at * <;> omega

/-- The notifications of one join session in the order in which the server issues them.  Events
have ids of their own; verification has checked the pair of state and revision, and only the
pending notification carries the request. -/
structure ServerPath (session : String × String) (path : List VerifiedSystemNotification) :
    Prop where
  session_eq : ∀ n ∈ path, (n.did, n.joinSessionId) = session
  valid : ∀ n ∈ path, validateStateRevision n.state n.sessionRevision = true
  request : ∀ n ∈ path, n.initialJoinRequest.isSome = true ↔ n.state = .pending
  events : ∀ a ∈ path, ∀ b ∈ path, a.eventId = b.eventId → a = b
  chain : path.IsChain fun a b =>
    a.sessionRevision < b.sessionRevision ∧ reachable a.state b.state b.sessionRevision = true

/-- `a` comes before `b`, so it is not terminal. -/
def Precedes (a b : VerifiedSystemNotification) : Prop :=
  a.sessionRevision < b.sessionRevision ∧ a.state.isTerminal = false

instance : Trans Precedes Precedes Precedes :=
  ⟨fun hab hbc => ⟨hab.1.trans hbc.1, hab.2⟩⟩

section Path

variable {owner : String} {session : String × String}
  {path done : List VerifiedSystemNotification} {a b : VerifiedSystemNotification}

theorem ServerPath.precedes (h : ServerPath session path) (ha : a ∈ path) (hb : b ∈ path)
    (hne : a ≠ b) : Precedes a b ∨ Precedes b a := by
  have hchain : path.IsChain Precedes := by
    refine h.chain.imp_of_mem_imp fun a b ha hb hab => ⟨hab.1, ?_⟩
    exact (reachable_iff (h.valid a ha) (h.valid b hb) hab.1).mp hab.2
  have hpairs : path.Pairwise fun a b => Precedes a b ∨ Precedes b a :=
    (List.isChain_iff_pairwise.mp hchain).imp Or.inl
  have : Std.Symm fun a b => Precedes a b ∨ Precedes b a := ⟨fun _ _ => Or.symm⟩
  exact hpairs.forall ha hb hne

/-- The row of `top`, with the request of the pending notification once it is delivered. -/
structure JoinStateRow.Shows (path done : List VerifiedSystemNotification)
    (top : VerifiedSystemNotification) (row : JoinStateRow) : Prop where
  mem : top ∈ done
  highest : ∀ n ∈ done, n.sessionRevision ≤ top.sessionRevision
  state : row.state = top.state
  revision : row.sessionRevision = top.sessionRevision
  payloadHash : row.payloadHash = top.payloadHash
  terminal : row.terminal = top.state.isTerminal
  request : ∀ n ∈ path, n.state = .pending →
    row.initialJoinRequestJson = if n ∈ done then n.initialJoinRequest else none

/-- What has been delivered of a path is received. -/
structure Received (owner : String) (session : String × String)
    (path done : List VerifiedSystemNotification) (s : Store) : Prop where
  delivered : ∀ n ∈ done, n ∈ path
  receipt : ∀ n ∈ path, s.receipts (owner, n.eventId) =
    if n ∈ done then some (n.payloadHash, n.proofHash) else none
  unseen : s.joinState (owner, session) = none → done = []
  shows : ∀ row, s.joinState (owner, session) = some row →
    ∃ top, row.Shows path done top

theorem Received.congr {done' : List VerifiedSystemNotification}
    (h : Received owner session path done s)
    (hiff : ∀ n, n ∈ done' ↔ n ∈ done) :
    Received owner session path done' s where
  delivered := by simpa only [hiff] using h.delivered
  receipt := by simpa only [hiff] using h.receipt
  unseen := by
    intro hnone
    rw [List.eq_nil_iff_forall_not_mem]
    simp [hiff, h.unseen hnone]
  shows := by
    intro row hrow
    obtain ⟨top, hshows⟩ := h.shows row hrow
    exact ⟨top, (hiff top).mpr hshows.mem, by simpa only [hiff] using hshows.highest, hshows.state,
      hshows.revision, hshows.payloadHash, hshows.terminal,
      by simpa only [hiff] using hshows.request⟩

/-- There is one pending notification at most. -/
theorem ServerPath.request_eq (h : ServerPath session path) (ha : a ∈ path) (hb : b ∈ path)
    (hpending : b.state = .pending) :
    a.initialJoinRequest = if b = a then b.initialJoinRequest else none := by
  split
  · rename_i heq
    rw [heq]
  · rename_i hne
    have hother : a.state ≠ .pending := by
      intro hstate
      have hvalid := h.valid a ha
      have hvalid' := h.valid b hb
      simp only [hstate, hpending, validateStateRevision, decide_eq_true_eq] at hvalid hvalid'
      rcases h.precedes ha hb (Ne.symm hne) with hlt | hlt
      · have := hlt.1
        omega
      · have := hlt.1
        omega
    simpa using mt (h.request a ha).mp hother

theorem Received.new_row (formatTime : Int → String) (hpath : ServerPath session path)
    (h : Received owner session path done s) (ha : a ∈ path) (hnew : a ∉ done)
    (hverified : input.verified = a) :
    ∃ reduced top row, reducerOutcome (s.joinState (owner, session)) a = .ok reduced ∧
      input.settled formatTime (s.joinState (owner, session)) reduced = some row ∧
      row.Shows path (a :: done) top := by
  subst hverified
  have hvalid := hpath.valid _ ha
  cases hrow : s.joinState (owner, session) with
  | none =>
    have hdone := h.unseen hrow
    subst hdone
    refine ⟨.apply, input.verified, _, by simp [reducerOutcome, hvalid], rfl, ?_⟩
    refine ⟨List.mem_singleton_self _, by simp, rfl, rfl, rfl, rfl, fun n hn hpending => ?_⟩
    simpa [VerifiedSystemNotification.row] using hpath.request_eq ha hn hpending
  | some row =>
    obtain ⟨top, hshows⟩ := h.shows row hrow
    have htop := h.delivered top hshows.mem
    have hne : input.verified ≠ top := by
      rintro heq
      exact hnew (heq ▸ hshows.mem)
    have hrequest : ∀ n ∈ path, n.state = .pending →
        (row.initialJoinRequestJson <|> input.verified.initialJoinRequest) =
          if n ∈ input.verified :: done then n.initialJoinRequest else none := by
      intro n hn hpending
      rw [hshows.request n hn hpending, hpath.request_eq ha hn hpending]
      by_cases heq : n = input.verified
      · simp [heq, hnew]
      · by_cases hmem : n ∈ done <;> simp [heq, hmem]
    rcases hpath.precedes ha htop hne with hlt | hlt
    · refine ⟨.ignoreOlder, top, _, ?_, rfl, ?_⟩
      · simp [reducerOutcome, hvalid, hshows.revision, hlt.1]
      refine ⟨List.mem_cons_of_mem _ hshows.mem, ?_, hshows.state, hshows.revision,
        hshows.payloadHash, hshows.terminal, hrequest⟩
      rintro n (_ | ⟨_, hn⟩)
      · exact hlt.1.le
      · exact hshows.highest n hn
    · have hreach := (reachable_iff (hpath.valid top htop) hvalid hlt.1).mpr hlt.2
      refine ⟨.apply, input.verified, _, ?_, rfl, ?_⟩
      · simp [reducerOutcome, hvalid, hshows.state, hshows.revision, hshows.terminal,
          hlt.1.asymm, hlt.1.ne', hlt.2, hreach]
      refine ⟨List.mem_cons_self, ?_, rfl, rfl, rfl, rfl, fun n hn hpending => ?_⟩
      · rintro n (_ | ⟨_, hn⟩)
        · exact Nat.le_refl _
        · exact (hshows.highest n hn).trans hlt.1.le
      · rw [← hrequest n hn hpending]
        change ((row.initialJoinRequestJson <|> _) <|> input.verified.initialJoinRequest) = _
        cases row.initialJoinRequestJson <;> simp

theorem Received.step (hpath : ServerPath session path)
    (h : Received owner session path done s)
    (hmem : input.verified ∈ path) (howner : input.ownerIdentityId = owner) :
    ∃ outcome t, (apply formatTime input).run s = .ok outcome t ∧
      Received owner session path (input.verified :: done) t := by
  have hevent : input.event = (owner, input.verified.eventId) := by
    rw [SystemNotificationApplyInput.event, howner]
  have hsession : input.session = (owner, session) := by
    rw [SystemNotificationApplyInput.session, howner, hpath.session_eq _ hmem]
  have hdelivered : ∀ n ∈ input.verified :: done, n ∈ path :=
    List.forall_mem_cons.mpr ⟨hmem, h.delivered⟩
  have hreceipt := h.receipt _ hmem
  rw [← hevent] at hreceipt
  by_cases hold : input.verified ∈ done
  · rw [if_pos hold] at hreceipt
    refine ⟨.duplicate, s, apply_ok.mpr (query_bind_ok.mpr ⟨_, hreceipt, by simp⟩), h.congr ?_⟩
    intro n
    rw [List.mem_cons, or_iff_right_of_imp]
    rintro rfl
    exact hold
  · rw [if_neg hold] at hreceipt
    obtain ⟨reduced, top, row, hreduced, hsettled, hshows⟩ :=
      h.new_row formatTime hpath hmem hold rfl
    rw [← hsession] at hreduced
    obtain ⟨outcome, -, hrun⟩ := applyTransaction_run hreceipt hreduced
    refine ⟨outcome, _, apply_ok.mpr hrun, hdelivered, ?_, ?_, ?_⟩
    · intro n hn
      by_cases heq : n = input.verified
      · simp [Store.receive, heq, hevent]
      · have hkey : (owner, n.eventId) ≠ input.event := by
          rw [hevent]
          intro hsame
          exact heq (hpath.events n hn _ hmem (Prod.mk.inj hsame).2)
        simp [Store.receive, hkey, heq, h.receipt n hn]
    · simp [Store.receive, hsession, hsettled]
    · intro row' hrow'
      simp only [Store.receive, hsession, update_self, hsettled, Option.some.injEq] at hrow'
      exact ⟨top, hrow' ▸ hshows⟩

theorem Received.run (hpath : ServerPath session path)
    (h : Received owner session path done s)
    {inputs : List SystemNotificationApplyInput}
    (hinputs : ∀ input ∈ inputs,
      input.ownerIdentityId = owner ∧ input.verified ∈ path) :
    ∃ outcomes t, (inputs.mapM (apply formatTime)).run s = .ok outcomes t ∧
      Received owner session path
        ((inputs.map (·.verified)).reverse ++ done) t := by
  induction inputs generalizing s done with
  | nil => exact ⟨[], s, rfl, h⟩
  | cons input inputs ih =>
    obtain ⟨⟨howner, hmem⟩, hinputs⟩ := List.forall_mem_cons.mp hinputs
    obtain ⟨outcome, u, hrun, hu⟩ := h.step hpath hmem howner
    obtain ⟨outcomes, t, hruns, ht⟩ := ih hu hinputs
    refine ⟨outcome :: outcomes, t, ?_, by simpa using ht⟩
    rw [List.mapM_cons, run_bind_of_ok hrun, run_bind_of_ok hruns]
    rfl

/-- In whatever order the notifications of a path are delivered, and however often, every `apply`
succeeds and the row shows the highest revision.  Whatever else is applied, rows only move forward,
and an error or a duplicate changes nothing. -/
theorem notifications_converge (formatTime : Int → String)
    {inputs : List SystemNotificationApplyInput} (hpath : ServerPath session path)
    (hfresh : s.joinState (owner, session) = none)
    (hreceipts : ∀ n ∈ path, s.receipts (owner, n.eventId) = none)
    (hinputs : ∀ input ∈ inputs, input.ownerIdentityId = owner ∧ input.verified ∈ path)
    (hall : ∀ n ∈ path, ∃ input ∈ inputs, input.verified = n) :
    (∃ outcomes t, (inputs.mapM (apply formatTime)).run s = .ok outcomes t ∧
      (path ≠ [] → ∃ row top, t.joinState (owner, session) = some row ∧
        row.Shows path path top)) ∧
    (∀ input s, (∀ e t, (apply formatTime input).run s = .error e t → t = s) ∧
      ∀ outcome t, (apply formatTime input).run s = .ok outcome t →
        (outcome = .duplicate → t = s) ∧ ∀ key row, s.joinState key = some row →
          ∃ next, t.joinState key = some next ∧ row.Advances next) := by
  refine ⟨?_, fun input s => ⟨fun e t => immediate_error, fun outcome t hrun => ⟨?_, ?_⟩⟩⟩
  · have hstart : Received owner session path [] s := by
      refine ⟨by simp, by simpa using hreceipts, by simp, ?_⟩
      intro row hrow
      rw [hfresh] at hrow
      cases hrow
    obtain ⟨outcomes, t, hrun, hreceived⟩ := hstart.run hpath hinputs
    have hdone : Received owner session path path t := by
      refine hreceived.congr fun n => ?_
      simp only [List.append_nil, List.mem_reverse, List.mem_map]
      refine ⟨fun hn => hall n hn, ?_⟩
      rintro ⟨input, hinput, rfl⟩
      exact (hinputs input hinput).2
    refine ⟨outcomes, t, hrun, fun hne => ?_⟩
    cases hrow : t.joinState (owner, session) with
    | none => exact absurd (hdone.unseen hrow) hne
    | some row =>
      obtain ⟨top, hshows⟩ := hdone.shows row hrow
      exact ⟨row, top, rfl, hshows⟩
  · rintro rfl
    rcases apply_cases hrun with ⟨-, hsame⟩ | ⟨hne, -⟩
    · exact hsame
    · exact absurd rfl hne
  · exact fun key row hrow => apply_advances hrow hrun

namespace JoinSample

def issued (eventId : String) (state : SystemNotificationState) (revision : Nat)
    (request : Option String) : VerifiedSystemNotification where
  eventId := eventId
  did := "did:a"
  joinSessionId := "join-a"
  state := state
  sessionRevision := revision
  initialJoinRequest := request
  payloadHash := eventId
  proofHash := eventId

def delivery (verified : VerifiedSystemNotification) : SystemNotificationApplyInput where
  ownerIdentityId := "alice"
  verified := verified
  receivedAt := 0

def requested : VerifiedSystemNotification := issued "evt-1" .pending 1 (some "request")

def expired : VerifiedSystemNotification := issued "evt-2" .expired 3 none

def empty : Store where
  receipts := fun _ => none
  joinState := fun _ => none

def deliveries : List SystemNotificationApplyInput := [expired, requested, expired].map delivery

/-- The end of the session arrives first, and twice. -/
theorem late_request_converges :
    ∃ outcomes t, (deliveries.mapM (apply fun _ => "")).run empty = .ok outcomes t ∧
      ∃ row top, t.joinState ("alice", "did:a", "join-a") = some row ∧
        row.Shows [requested, expired] [requested, expired] top := by
  have hpath : ServerPath ("did:a", "join-a") [requested, expired] :=
    ⟨by decide, by decide, by decide, by decide, by simp; decide⟩
  have hfresh : empty.joinState ("alice", "did:a", "join-a") = none := rfl
  have hinputs : ∀ input ∈ deliveries, input.ownerIdentityId = "alice" ∧
      input.verified ∈ [requested, expired] := by decide
  obtain ⟨outcomes, t, hrun, hshows⟩ := (notifications_converge (fun _ => "") hpath hfresh
    (fun _ _ => rfl) hinputs (by decide)).1
  exact ⟨outcomes, t, hrun, hshows (by simp)⟩

end JoinSample

end Path

end SystemNotification
end Awiki

import Awiki.ClaimActions

/-!
# Runs of the receive loop, the dispatchers and the reducers

Any number of callers share the database; each of their calls is one operation, and
a run is any interleaving of them.  The world of a run is the database together with
what the callers hold: the time of the last call, the tokens that were generated, the
claims and the processing slots that were handed out.  Callers use only claims and
slots that they were given, tokens are never generated twice, and the clock does not
go back; nothing else is assumed about them.
-/

namespace Awiki
namespace LocalState

open Tx

variable {δ α : Type} {x : LocalM δ α} {claim : InputClaim}

def inTransaction {α : Type} (x : LocalM δ α) : LocalM δ α :=
  immediate do
    let a ← x
    pure (.commit a)

theorem inTransaction_ok {s t : Db δ} {a : α} (h : (inTransaction x).run s = .ok a t) :
    x.run s = .ok a t := by
  rcases immediate_ok.mp h with hcommit | ⟨-, v, hrollback⟩
  · obtain ⟨b, hx, hb⟩ := bind_pure_ok.mp hcommit
    cases hb
    exact hx
  · obtain ⟨b, u, -, hpure⟩ := bind_ok.mp hrollback
    cases (pure_ok.mp hpure).1

inductive Operation (δ : Type) where
  | receiveOrdinary (input : OrdinaryReceiveBatch)
  | receiveSnapshot (checkpoint : SnapshotApplyInput) (binding : IdentityAccountBinding)
      (installation : String) (baseline : Baseline) (events : List InboxEvent) (draw : Nat)
      (unixTime : Int)
  | receiveBootstrap (input : BootstrapApplyInput) (baseline : Baseline)
      (expectedRunGeneration : Int) (draw : Nat)
  | commitSyncLaneHandoff (input : SyncLaneHandoffInput)
  | upsertIdentityAccountBinding (binding : IdentityAccountBinding)
  | upsertRecoveryState (state : RecoveryState)
  | beginMessageSyncRun (owner : String)
  | finishMessageSyncRun (state : MessageSyncRunState)
  | claimInputs (binding : IdentityAccountBinding) (limit : Nat) (tokens : List String)
  | failClaim (claim : InputClaim) (code : String) (retryAt : Option Int)
  | parkTimeout (claim : InputClaim)
  | releaseTimeout (claim : InputClaim) (retryAt : Int)
  | renewClaims (claims : List InputClaim)
  | releaseClaimLease (claim : InputClaim)
  | reserveProcessingSlot (token : String)
  | renewProcessingSlots (slots : List String)
  | releaseProcessingSlot (slot : String)
  | completeClaim (claim : InputClaim)
  | applyOrdinaryClaimWith (claim : InputClaim) (input : DeltaApplyInput) (unixTime : Int)
      (commitDomain : δ → Except ImError δ)
  | applySecureClaim (claim : InputClaim) (project : δ → Except ImError δ)
      (outcome : Option (LaneDomainState δ))
  | applyBaselineClaim (claim : InputClaim) (baseline : Baseline) (groups : List GroupRecord)
      (readStates : List ReadStateApply)
  | writeLaneDomainState (state : LaneDomainState δ)
  | retryEvent (owner eventId : String)
  | purgeExpired (limit : Nat)
  | makeRoom (additional : Nat)
  | pruneAppliedEvents (owner epoch scanSeq : String) (maxDelete : Nat)
  | writeDomain (write : δ → Except ImError δ)

structure Reply where
  claims : List InputClaim := []
  removed : List RemovedInput := []
  slot : Option String := none
  confirmed : Bool := false
  generation : Option Int := none

namespace Operation

/-- The call at time `now`. -/
def run (platform : Platform) (reducers : DomainReducers δ) (now : Int) :
    Operation δ → LocalM δ Reply
  | receiveOrdinary input => do
      let outcome ← LocalState.receiveOrdinary platform input now
      pure { removed := outcome.removed }
  | receiveSnapshot checkpoint binding installation baseline events draw unixTime => do
      let outcome ← LocalState.receiveSnapshot platform checkpoint binding installation baseline
        events draw now unixTime
      pure { removed := outcome.removed }
  | receiveBootstrap input baseline expectedRunGeneration draw => do
      let outcome ← LocalState.receiveBootstrap platform input baseline expectedRunGeneration
        draw now
      pure { removed := outcome.1.removed }
  | commitSyncLaneHandoff input => do
      let _outcome ← LocalState.commitSyncLaneHandoff platform input now
      pure {}
  | upsertIdentityAccountBinding binding => do
      inTransaction (LocalState.upsertIdentityAccountBinding binding)
      pure {}
  | upsertRecoveryState state => do
      LocalState.upsertRecoveryState state
      pure {}
  | beginMessageSyncRun owner => do
      let state ← LocalState.beginMessageSyncRun owner now
      pure { generation := some state.runGeneration }
  | finishMessageSyncRun state => do
      let found ← LocalState.finishMessageSyncRun state
      pure { confirmed := found }
  | claimInputs binding limit tokens => do
      let claims ← LocalState.claimInputs reducers binding now limit tokens
      pure { claims := claims }
  | failClaim claim code retryAt => do
      LocalState.failClaim claim code retryAt now
      pure {}
  | parkTimeout claim => do
      let changed ← LocalState.parkTimeout claim now
      pure { confirmed := changed }
  | releaseTimeout claim retryAt => do
      let changed ← LocalState.releaseTimeout claim retryAt
      pure { confirmed := changed }
  | renewClaims claims => do
      LocalState.renewClaims claims now
      pure {}
  | releaseClaimLease claim => do
      LocalState.releaseClaimLease claim
      pure {}
  | reserveProcessingSlot token => do
      let slot ← LocalState.reserveProcessingSlot now token
      pure { slot := slot }
  | renewProcessingSlots slots => do
      LocalState.renewProcessingSlots slots now
      pure {}
  | releaseProcessingSlot slot => do
      LocalState.releaseProcessingSlot slot
      pure {}
  | completeClaim claim => do
      LocalState.completeClaim platform claim now
      pure {}
  | applyOrdinaryClaimWith claim input unixTime commitDomain => do
      let _outcome ← LocalState.applyOrdinaryClaimWith platform reducers claim input now unixTime
        commitDomain
      pure {}
  | applySecureClaim claim project outcome => do
      LocalState.applySecureClaim platform claim now project outcome
      pure {}
  | applyBaselineClaim claim baseline groups readStates => do
      let _invalidation ← LocalState.applyBaselineClaim platform reducers claim baseline groups
        readStates now
      pure {}
  | writeLaneDomainState state => do
      inTransaction (LocalState.writeLaneDomainState state now)
      pure {}
  | retryEvent owner eventId => do
      let _changed ← LocalState.retryEvent owner eventId now
      pure {}
  | purgeExpired limit => do
      let removed ← LocalState.purgeExpired now limit
      pure { removed := removed }
  | makeRoom additional => do
      let removed ← inTransaction (LocalState.makeRoom additional now)
      pure { removed := removed }
  | pruneAppliedEvents owner epoch scanSeq maxDelete => do
      let _count ← LocalState.pruneAppliedEvents owner epoch scanSeq maxDelete
      pure {}
  | writeDomain write => do
      domainWrite write
      pure {}

def claims : Operation δ → List InputClaim
  | failClaim claim _ _ | parkTimeout claim | releaseTimeout claim _ | releaseClaimLease claim
  | completeClaim claim | applyOrdinaryClaimWith claim _ _ _ | applySecureClaim claim _ _
  | applyBaselineClaim claim _ _ _ => [claim]
  | renewClaims claims => claims
  | _ => []

def slots : Operation δ → List String
  | renewProcessingSlots slots => slots
  | releaseProcessingSlot slot => [slot]
  | _ => []

def tokens : Operation δ → List String
  | claimInputs _ _ tokens => tokens
  | reserveProcessingSlot token => [token]
  | _ => []

def supplied : Operation δ → Prop
  | claimInputs _ limit tokens => limit ≤ tokens.length
  | _ => True

def completes : Operation δ → Option InputClaim
  | completeClaim claim | applyOrdinaryClaimWith claim _ _ _ | applySecureClaim claim _ _
  | applyBaselineClaim claim _ _ _ => some claim
  | _ => none

/-! ## Failed calls -/

theorem requireClaim_readOnly (claim : InputClaim) (now : Int) :
    ReadOnly (requireClaim claim now : LocalM δ Unit) :=
  .bind (.query _) fun _ => .refuseIf _ _

theorem writeReceiptHash_failsClean (platform : Platform) (claim : InputClaim) (now : Int) :
    FailsClean (writeReceiptHash platform claim now : LocalM δ Unit) := by
  unfold writeReceiptHash
  split
  case h_1 | h_2 => exact (NeverFails.execute _).failsClean
  case h_3 =>
    exact ReadOnly.bind_failsClean (.query _) fun _ => ReadOnly.bind_failsClean (.query _) fun _ =>
      ReadOnly.bind_failsClean (.refuseIf _ _) fun _ => (NeverFails.execute _).failsClean

theorem wakeScope_neverFails (claim : InputClaim) (now : Int) :
    NeverFails (wakeScope claim now : LocalM δ Unit) := by
  unfold wakeScope
  split
  case h_1 | h_2 => exact .pure ()
  case h_3 => exact .bind (.query _) fun _ => .execute _

theorem completeClaim_failsClean (platform : Platform) (claim : InputClaim) (now : Int) :
    FailsClean (LocalState.completeClaim platform claim now : LocalM δ Unit) :=
  ReadOnly.bind_failsClean (requireClaim_readOnly _ _) fun _ =>
    (writeReceiptHash_failsClean _ _ _).bind_neverFails fun _ =>
      .bind (wakeScope_neverFails _ _) fun _ => .execute _

theorem pruneAppliedEvents_failsClean (owner epoch scanSeq : String) (maxDelete : Nat) :
    FailsClean (LocalState.pruneAppliedEvents owner epoch scanSeq maxDelete : LocalM δ Nat) := by
  refine ReadOnly.bind_failsClean (.attempt _) fun _ => ReadOnly.bind_failsClean (.query _)
    fun count => ?_
  split
  · exact (NeverFails.pure _).failsClean
  · refine ReadOnly.bind_failsClean (.attempt _) fun safeSeq => ?_
    cases safeSeq with
    | none => exact (NeverFails.pure _).failsClean
    | some safeSeq =>
      exact ReadOnly.bind_failsClean (.query _) fun _ => ReadOnly.bind_failsClean (.attempt _)
        fun _ => ReadOnly.bind_failsClean (.query _) fun _ =>
        (NeverFails.bind (.forEach fun _ => .execute _) fun _ => .pure _).failsClean

theorem domainUpdate_failsClean (g : δ → Except ImError (α × δ)) : FailsClean (domainUpdate g) := by
  intro s e t hrun
  change domainUpdate g s = .error e t at hrun
  unfold domainUpdate at hrun
  split at hrun
  · cases hrun
  · cases hrun
    rfl

theorem run_failsClean (platform : Platform) (reducers : DomainReducers δ) (now : Int)
    (op : Operation δ) : FailsClean (op.run platform reducers now) := by
  cases op with
  | receiveOrdinary | receiveSnapshot | receiveBootstrap | failClaim | renewClaims
  | reserveProcessingSlot | applySecureClaim | applyBaselineClaim
  | upsertIdentityAccountBinding | writeLaneDomainState | makeRoom =>
    exact .reply (immediate_failsClean _)
  | commitSyncLaneHandoff input =>
    exact .reply (ReadOnly.bind_failsClean (.attempt _) fun _ =>
      ReadOnly.bind_failsClean (.refuseIf _ _) fun _ => immediate_failsClean _)
  | beginMessageSyncRun owner =>
    exact .reply (ReadOnly.bind_failsClean (.attempt _) fun _ => immediate_failsClean _)
  | claimInputs | applyOrdinaryClaimWith | purgeExpired =>
    exact .reply (ReadOnly.bind_failsClean (.refuseIf _ _) fun _ => immediate_failsClean _)
  | upsertRecoveryState state =>
    exact .reply (ReadOnly.bind_failsClean (.attempt _) fun _ =>
      (NeverFails.execute _).failsClean)
  | finishMessageSyncRun state =>
    exact .reply (ReadOnly.bind_failsClean (.attempt _) fun _ =>
      ReadOnly.bind_failsClean (.refuseIf _ _) fun _ =>
      (NeverFails.bind (.query _) fun _ => .bind (.execute _) fun _ => .pure _).failsClean)
  | parkTimeout | releaseTimeout =>
    exact .reply (NeverFails.bind (.query _) fun _ =>
      .bind (.execute _) fun _ => .pure _).failsClean
  | retryEvent owner eventId =>
    exact .reply (ReadOnly.bind_failsClean (.refuseIf _ _) fun _ =>
      (NeverFails.bind (.query _) fun _ => .bind (.execute _) fun _ => .pure _).failsClean)
  | releaseClaimLease | releaseProcessingSlot =>
    exact .reply (NeverFails.execute _).failsClean
  | renewProcessingSlots slots =>
    exact .reply (NeverFails.forEach fun _ => .execute _).failsClean
  | completeClaim claim => exact .reply (completeClaim_failsClean _ _ _)
  | pruneAppliedEvents owner epoch scanSeq maxDelete =>
    exact .reply (pruneAppliedEvents_failsClean _ _ _ _)
  | writeDomain write => exact .reply (domainUpdate_failsClean _)

end Operation

/-! ## The statements of a call -/

def Action.token? : Action → Option String
  | take _ token | reserve token => some token
  | _ => none

namespace Operation

def silent (op : Operation δ) (db : Db δ) (now : Int) : List RemovedInput :=
  match op with
  | commitSyncLaneHandoff input => (db.handoffRoom input now).map RemovedInput.ofRow
  | _ => []

def deliveries : Operation δ → List Delivery
  | receiveOrdinary page => page.deliveries
  | receiveSnapshot checkpoint binding _ baseline events draw _ =>
    snapshotDeliveries binding.ownerIdentityId checkpoint.streamEpoch checkpoint.snapshotScanSeq
      baseline events draw
  | receiveBootstrap header baseline _ draw =>
    snapshotDeliveries header.binding.ownerIdentityId header.state.streamEpoch
      header.state.scanSeq baseline [] draw
  | _ => []

def queues (op : Operation δ) (input : InboxInput) : Prop :=
  (∃ delivery ∈ op.deliveries, input.Carries delivery) ∨
    ∃ handoff, op = commitSyncLaneHandoff handoff ∧ input.lane = .secure handoff.lane

/-- The actions that a call may be made of; `removed` is what it removes. -/
def Admits (platform : Platform) (op : Operation δ) (removed : List RemovedInput) :
    Action → Prop
  | .queue input => op.queues input
  | .evict item => item ∈ removed
  | .take _ token | .reserve token => token ∈ op.tokens
  | .fail claim _ _ | .park claim | .unpark claim _ | .renew claim => claim ∈ op.claims
  | .wake claim _ | .finish claim => op.completes = some claim
  | .digest claim hash =>
    op.completes = some claim ∧ claim.lane.isLocal = true ∧
      hash = payloadHash platform claim.lane claim.payload
  | .release token => token ∈ op.slots ∨ ∃ claim ∈ op.claims, claim.token = token
  | .renewSlot token => token ∈ op.slots
  | .forget owner _ => ∃ epoch scanSeq maxDelete,
      op = pruneAppliedEvents owner epoch scanSeq maxDelete
  | .reclaim _ | .dropLeases | .retry _ _ | .close _ _ | .receipt _
  | .laneReceipt _ | .other => True

variable {platform : Platform} {reducers : DomainReducers δ} {now : Int}

variable {op : Operation δ} {removed : List RemovedInput} {action : Action}

theorem Admits.of_receive {queues : InboxInput → Prop} (h : ReceiveAction queues removed action)
    (hqueues : ∀ input, queues input → op.queues input) : op.Admits platform removed action := by
  cases action with
  | queue input => exact hqueues input h
  | evict item => exact h
  | other => exact trivial
  | _ => exact h.elim

theorem Admits.of_completion (hop : op.completes = some claim)
    (h : CompletionAction platform claim action) : op.Admits platform removed action := by
  cases action with
  | digest c hash =>
    obtain ⟨rfl, hlocal, rfl⟩ := h
    exact ⟨hop, hlocal, rfl⟩
  | wake c scope =>
    obtain rfl := h
    exact hop
  | finish c =>
    obtain rfl := h
    exact hop
  | _ => first
    | exact trivial
    | exact h.elim

theorem tokens_of_admits (hop : op.tokens = []) {log : List Action}
    (hall : ∀ action ∈ log, op.Admits platform removed action) :
    (log.filterMap Action.token?).Sublist op.tokens := by
  have hnone : log.filterMap Action.token? = [] := by
    refine List.filterMap_eq_nil_iff.mpr fun action haction => ?_
    have hadmits := hall action haction
    cases action with
    | take input token => simp [Admits, hop] at hadmits
    | reserve token => simp [Admits, hop] at hadmits
    | _ => rfl
  rw [hnone]
  exact List.nil_sublist _

theorem inTransaction_logs {admits : α → Action → Prop} (hx : Logs (Action.Step now) x admits) :
    Logs (Action.Step now) (inTransaction x) admits :=
  .immediate (.map_pure hx fun _ _ h _ heq => Ending.commit.inj heq ▸ h)

def isPlain : Operation δ → Bool
  | claimInputs _ _ _ | reserveProcessingSlot _ | commitSyncLaneHandoff _ => false
  | _ => true

theorem completion_logs (hop : op.completes = some claim) :
    Logs (Action.Step now) (op.run platform reducers now)
      fun _ => CompletionAction platform claim := by
  cases op with
  | completeClaim c =>
    cases hop
    exact (completeClaim_logs _ _).map_pure fun _ _ h => h
  | applyOrdinaryClaimWith c =>
    cases hop
    exact (applyOrdinaryClaimWith_logs _ _ _ _ _ _).map_pure fun _ _ h => h
  | applySecureClaim c =>
    cases hop
    exact (applySecureClaim_logs _ _ _ _).map_pure fun _ _ h => h
  | applyBaselineClaim c =>
    cases hop
    exact (applyBaselineClaim_logs _ _ _ _ _ _).map_pure fun _ _ h => h
  | _ => cases hop

theorem run_logs (op : Operation δ) (hop : op.isPlain = true) :
    Logs (Action.Step now) (op.run platform reducers now) fun reply =>
      op.Admits platform reply.removed := by
  have other : ∀ {α : Type} {x : LocalM δ α} {f : α → Reply}, Keeps x Db.receiveTables →
      Logs (Action.Step now) (x >>= fun a => pure (f a)) fun reply =>
        op.Admits platform reply.removed := by
    intro α x f hx
    refine (logs_of_keeps hx).map_pure ?_
    rintro _ _ rfl
    trivial
  cases op with
  | receiveOrdinary input =>
    exact (receiveOrdinary_logs _ _).map_pure fun _ _ h => .of_receive h fun _ => .inl
  | receiveSnapshot =>
    exact (receiveSnapshot_logs _ _ _ _ _ _ _ _).map_pure fun _ _ h =>
      .of_receive h fun _ => .inl
  | receiveBootstrap =>
    exact (receiveBootstrap_logs _ _ _ _ _).map_pure fun _ _ h => .of_receive h fun _ => .inl
  | commitSyncLaneHandoff | claimInputs | reserveProcessingSlot => cases hop
  | upsertIdentityAccountBinding binding =>
    exact other (.immediate (.bind
      (upsertIdentityAccountBinding_keeps offCursor_receiveTables.bindings
        offCursor_receiveTables.cutovers _) fun _ => .pure _))
  | upsertRecoveryState state =>
    exact other (upsertRecoveryState_keeps offCursor_receiveTables.toOffLanes _)
  | beginMessageSyncRun owner =>
    exact other (.bind .attempt fun _ => .immediate (.bind (.query _) fun _ =>
      .bind .refuseIf fun _ => .bind (.query _) fun _ => .bind .refuseIf fun _ =>
      .reply (.execute fun _ => rfl)))
  | finishMessageSyncRun state =>
    exact other (.bind .attempt fun _ => .bind .refuseIf fun _ => .bind (.query _) fun _ =>
      .reply (.execute fun _ => rfl))
  | failClaim claim code retryAt =>
    refine (failClaim_logs _ _ _).map_pure ?_
    rintro _ _ (rfl | rfl)
    · exact List.mem_cons_self
    · exact .inr ⟨claim, List.mem_cons_self, rfl⟩
  | parkTimeout claim =>
    refine (parkTimeout_logs _).map_pure ?_
    rintro _ _ rfl
    exact List.mem_cons_self
  | releaseTimeout claim retryAt =>
    refine (releaseTimeout_logs _ _).map_pure ?_
    rintro _ _ rfl
    exact List.mem_cons_self
  | renewClaims claims =>
    refine (renewClaims_logs _).map_pure ?_
    rintro _ _ ⟨claim, hclaim, rfl⟩
    exact hclaim
  | releaseClaimLease claim =>
    refine (releaseProcessingSlot_logs _).map_pure ?_
    rintro _ _ rfl
    exact .inr ⟨claim, List.mem_cons_self, rfl⟩
  | renewProcessingSlots slots =>
    refine (renewProcessingSlots_logs _).map_pure ?_
    rintro _ _ ⟨slot, hslot, rfl⟩
    exact hslot
  | releaseProcessingSlot slot =>
    refine (releaseProcessingSlot_logs _).map_pure ?_
    rintro _ _ rfl
    exact .inl List.mem_cons_self
  | completeClaim | applyOrdinaryClaimWith | applySecureClaim | applyBaselineClaim =>
    exact (completion_logs rfl).mono fun _ _ => .of_completion rfl
  | writeLaneDomainState state =>
    refine (inTransaction_logs (writeLaneDomainState_logs state)).map_pure ?_
    rintro _ _ (rfl | ⟨inputId, closedAt, rfl⟩) <;> trivial
  | retryEvent owner eventId =>
    refine (retryEvent_logs _ _).map_pure ?_
    rintro _ _ rfl
    trivial
  | purgeExpired limit =>
    exact (purgeExpired_logs (fun _ => False) _).map_pure fun _ _ h =>
      .of_receive h fun _ h => h.elim
  | makeRoom additional =>
    exact (inTransaction_logs (makeRoom_logs (fun _ => False) _)).map_pure fun _ _ h =>
      .of_receive h fun _ h => h.elim
  | pruneAppliedEvents owner epoch scanSeq maxDelete =>
    refine (pruneAppliedEvents_logs _ _ _ _).map_pure ?_
    rintro _ _ ⟨eventId, rfl⟩
    exact ⟨epoch, scanSeq, maxDelete, rfl⟩
  | writeDomain write => exact other (domainWrite_keeps receiveTables_domain _)

theorem Admits.mono {removed' : List RemovedInput} (h : op.Admits platform removed action)
    (hsub : removed ⊆ removed') :
    op.Admits platform removed' action := by
  cases action with
  | evict item => exact hsub h
  | _ => exact h

theorem takeActions_tokens (rows : List InboxRow) (tokens : List String) :
    ((takeActions rows tokens).filterMap Action.token?).Sublist tokens := by
  induction rows generalizing tokens with
  | nil => exact List.nil_sublist _
  | cons row rows ih =>
    cases tokens with
    | nil => exact List.nil_sublist _
    | cons token tokens => exact (ih tokens).cons_cons token

theorem mem_takeActions {rows : List InboxRow} {tokens : List String}
    (h : action ∈ takeActions rows tokens) :
    ∃ row ∈ rows, ∃ token ∈ tokens, action = .take row.toInboxInput token := by
  obtain ⟨pair, hpair, rfl⟩ := List.mem_map.mp h
  obtain ⟨hrow, htoken⟩ := List.of_mem_zip hpair
  exact ⟨pair.1, hrow, pair.2, htoken, rfl⟩

structure Log (platform : Platform) (now : Int) (op : Operation δ) (s : Db δ) (reply : Reply)
    (t : Db δ) (log : List Action) : Prop where
  run : Run (Action.Step now) s log t
  admits : ∀ action ∈ log, op.Admits platform (reply.removed ++ op.silent s now) action
  tokens : (log.filterMap Action.token?).Sublist op.tokens
  claims : ∀ claim ∈ reply.claims, ∃ input, .take input claim.token ∈ log ∧ claim.Describes input
  slot : ∀ slot, reply.slot = some slot → .reserve slot ∈ log

theorem reply_of_plain (hop : op.isPlain = true) {s t : Db δ} {reply : Reply}
    (h : (op.run platform reducers now).run s = .ok reply t) :
    reply.claims = [] ∧ reply.slot = none := by
  cases op with
  | commitSyncLaneHandoff | claimInputs | reserveProcessingSlot => cases hop
  | _ =>
    obtain ⟨_, _, -, hpure⟩ := bind_ok.mp h
    obtain ⟨rfl, -⟩ := pure_ok.mp hpure
    exact ⟨rfl, rfl⟩

theorem log_of_run {s t : Db δ} {reply : Reply}
    (h : (op.run platform reducers now).run s = .ok reply t) :
    ∃ log, op.Log platform now s reply t log := by
  have plain (hop : op.isPlain = true) (htokens : op.tokens = []) :
      ∃ log, op.Log platform now s reply t log := by
    obtain ⟨log, hlog, hall⟩ := run_logs op hop s reply t h
    obtain ⟨hclaims, hslot⟩ := reply_of_plain hop h
    exact ⟨log, hlog, fun action haction =>
      (hall action haction).mono (List.subset_append_left _ _), tokens_of_admits htokens hall,
      by simp [hclaims], by simp [hslot]⟩
  cases op with
  | commitSyncLaneHandoff input =>
    obtain ⟨outcome, hrun, rfl⟩ := bind_pure_ok.mp h
    obtain ⟨log, hlog, hall⟩ := commitSyncLaneHandoff_log hrun
    have hadmits : ∀ action ∈ log, (commitSyncLaneHandoff input : Operation δ).Admits platform
        ((commitSyncLaneHandoff input : Operation δ).silent s now) action :=
      fun action haction => .of_receive (hall action haction) fun _ h => .inr ⟨input, rfl, h⟩
    exact ⟨log, hlog, fun action haction =>
      (hadmits action haction).mono (List.subset_append_right _ _),
      tokens_of_admits rfl hadmits, by simp, by simp⟩
  | claimInputs binding limit tokens =>
    obtain ⟨claims, hrun, rfl⟩ := bind_pure_ok.mp h
    rcases claimInputs_log hrun with
      ⟨rfl, rfl⟩ | ⟨inputIds, mid, rows, hfirst, ⟨free, -, hrows⟩, htake, rfl⟩
    · exact ⟨[], .nil _, by simp, by simp, by simp, by simp⟩
    · have htokens := takeActions_tokens rows tokens
      refine ⟨.reclaim inputIds :: .dropLeases :: takeActions rows tokens,
        Run.append_iff.mpr ⟨mid, hfirst, htake⟩, ?_, htokens, ?_, by simp⟩
      · intro action haction
        simp only [List.mem_cons] at haction
        rcases haction with rfl | rfl | haction
        · trivial
        · trivial
        · obtain ⟨row, -, token, htoken, rfl⟩ := mem_takeActions haction
          exact htoken
      · intro claim hclaim
        obtain ⟨pair, hpair, rfl⟩ := List.mem_map.mp hclaim
        refine ⟨pair.1.toInboxInput, ?_, rfl, ?_, rfl, rfl, rfl, rfl, rfl, rfl⟩
        · exact List.mem_cons_of_mem _ (List.mem_cons_of_mem _ (List.mem_map_of_mem hpair))
        · exact (due_of_mem_candidates (hrows ▸ (List.of_mem_zip hpair).1)).owner
  | reserveProcessingSlot token =>
    obtain ⟨slot, hrun, rfl⟩ := bind_pure_ok.mp h
    rcases reserveProcessingSlot_log hrun with ⟨rfl, rfl⟩ | ⟨mid, hdrop, -, hreserve, rfl⟩
    · exact ⟨[], .nil _, by simp, by simp, by simp, by simp⟩
    · refine ⟨_, .cons hdrop (.single hreserve), ?_, List.Sublist.refl _, by simp, by simp⟩
      intro action haction
      simp only [List.mem_cons, List.not_mem_nil, or_false] at haction
      rcases haction with rfl | rfl
      · trivial
      · exact List.mem_cons_self
  | _ => exact plain rfl rfl

end Operation

/-! ## Worlds and steps -/

structure World (δ : Type) where
  db : Db δ
  clock : Int
  issued : List String
  handed : List InputClaim
  slots : List String

structure Event (δ : Type) where
  now : Int
  op : Operation δ
  outcome : Except ImError Reply

/-- The result of a call that leaves the database `db`. -/
def Event.result (e : Event δ) (db : Db δ) : EStateM.Result ImError (Db δ) Reply :=
  match e.outcome with
  | .ok reply => .ok reply db
  | .error error => .error error db

def Event.reply (e : Event δ) : Reply :=
  match e.outcome with
  | .ok reply => reply
  | .error _ => {}

structure Step (platform : Platform) (reducers : DomainReducers δ) (w : World δ) (e : Event δ)
    (w' : World δ) : Prop where
  clock : w.clock ≤ e.now
  claims : ∀ claim ∈ e.op.claims, claim ∈ w.handed
  slots : ∀ slot ∈ e.op.slots, slot ∈ w.slots
  fresh : ∀ token ∈ e.op.tokens, token ∉ w.issued
  distinct : e.op.tokens.Nodup
  supplied : e.op.supplied
  ran : (e.op.run platform reducers e.now).run w.db = e.result w'.db
  clock' : w'.clock = e.now
  issued' : w'.issued = e.op.tokens ++ w.issued
  handed' : w'.handed = e.reply.claims ++ w.handed
  slots' : w'.slots = e.reply.slot.toList ++ w.slots

namespace Step

variable {platform : Platform} {reducers : DomainReducers δ} {w w' : World δ} {e : Event δ}

theorem ran_ok (h : Step platform reducers w e w') {reply : Reply} (he : e.outcome = .ok reply) :
    (e.op.run platform reducers e.now).run w.db = .ok reply w'.db := by
  rw [h.ran, Event.result, he]

theorem db_of_error (h : Step platform reducers w e w') {error : ImError}
    (he : e.outcome = .error error) : w'.db = w.db := by
  refine Operation.run_failsClean platform reducers e.now e.op w.db error w'.db ?_
  rw [h.ran, Event.result, he]

theorem log (h : Step platform reducers w e w') :
    ∃ log, e.op.Log platform e.now w.db e.reply w'.db log := by
  cases he : e.outcome with
  | ok reply =>
    have hreply : e.reply = reply := by rw [Event.reply, he]
    rw [hreply]
    exact Operation.log_of_run (h.ran_ok he)
  | error error =>
    have hreply : e.reply = {} := by rw [Event.reply, he]
    rw [h.db_of_error he, hreply]
    exact ⟨[], .nil _, by simp, by simp, by simp, by simp⟩

end Step

/-! ## Making a call -/

def Event.ofCall (platform : Platform) (reducers : DomainReducers δ) (w : World δ) (now : Int)
    (op : Operation δ) : Event δ where
  now := now
  op := op
  outcome :=
    match (op.run platform reducers now).run w.db with
    | .ok reply _ => .ok reply
    | .error error _ => .error error

def World.call (platform : Platform) (reducers : DomainReducers δ) (w : World δ) (now : Int)
    (op : Operation δ) : World δ where
  db :=
    match (op.run platform reducers now).run w.db with
    | .ok _ db => db
    | .error _ db => db
  clock := now
  issued := op.tokens ++ w.issued
  handed := (Event.ofCall platform reducers w now op).reply.claims ++ w.handed
  slots := (Event.ofCall platform reducers w now op).reply.slot.toList ++ w.slots

variable {w : World δ} {op : Operation δ}

theorem Step.of_call {platform : Platform} {reducers : DomainReducers δ} {now : Int}
    (hclock : w.clock ≤ now) (hclaims : op.claims ⊆ w.handed) (hslots : op.slots ⊆ w.slots)
    (hfresh : op.tokens.Disjoint w.issued) (hdistinct : op.tokens.Nodup) (hsupplied : op.supplied) :
    Step platform reducers w (Event.ofCall platform reducers w now op)
      (w.call platform reducers now op) where
  clock := hclock
  claims := fun _ hclaim => hclaims hclaim
  slots := fun _ hslot => hslots hslot
  fresh := fun _ htoken => hfresh htoken
  distinct := hdistinct
  supplied := hsupplied
  ran := by
    unfold Event.result Event.ofCall World.call
    cases (op.run platform reducers now).run w.db <;> rfl
  clock' := rfl
  issued' := rfl
  handed' := rfl
  slots' := rfl

instance (op : Operation δ) : Decidable op.supplied := by
  unfold Operation.supplied
  split <;> infer_instance

def World.permits (w : World δ) (now : Int) (op : Operation δ) : Bool :=
  decide (w.clock ≤ now ∧ (∀ claim ∈ op.claims, claim ∈ w.handed) ∧
    (∀ slot ∈ op.slots, slot ∈ w.slots) ∧ (∀ token ∈ op.tokens, token ∉ w.issued) ∧
    op.tokens.Nodup ∧ op.supplied)

theorem Step.of_permits {platform : Platform} {reducers : DomainReducers δ} {now : Int}
    (h : w.permits now op = true) :
    Step platform reducers w (Event.ofCall platform reducers w now op)
      (w.call platform reducers now op) := by
  simp only [World.permits, decide_eq_true_eq] at h
  obtain ⟨hclock, hclaims, hslots, hfresh, hdistinct, hsupplied⟩ := h
  exact .of_call hclock hclaims hslots hfresh hdistinct hsupplied

def Event.ofCalls (platform : Platform) (reducers : DomainReducers δ) :
    World δ → List (Int × Operation δ) → List (Event δ)
  | _, [] => []
  | w, (now, op) :: calls => .ofCall platform reducers w now op ::
      ofCalls platform reducers (w.call platform reducers now op) calls

def World.calls (platform : Platform) (reducers : DomainReducers δ) :
    World δ → List (Int × Operation δ) → World δ
  | w, [] => w
  | w, (now, op) :: calls => World.calls platform reducers (w.call platform reducers now op) calls

def World.permitsAll (platform : Platform) (reducers : DomainReducers δ) :
    World δ → List (Int × Operation δ) → Bool
  | _, [] => true
  | w, (now, op) :: calls => w.permits now op &&
      World.permitsAll platform reducers (w.call platform reducers now op) calls

theorem run_of_calls {platform : Platform} {reducers : DomainReducers δ}
    {calls : List (Int × Operation δ)} (h : w.permitsAll platform reducers calls = true) :
    Run (Step platform reducers) w (Event.ofCalls platform reducers w calls)
      (w.calls platform reducers calls) := by
  induction calls generalizing w with
  | nil => exact .nil w
  | cons first rest ih =>
    simp only [World.permitsAll, Bool.and_eq_true] at h
    exact .cons (.of_permits h.1) (ih h.2)

theorem ofCalls_op (platform : Platform) (reducers : DomainReducers δ) (w : World δ)
    (calls : List (Int × Operation δ)) :
    (Event.ofCalls platform reducers w calls).map (·.op) = calls.map (·.2) := by
  induction calls generalizing w with
  | nil => rfl
  | cons first rest ih => exact congrArg (first.2 :: ·) (ih _)

/-- A world in which no call has been made: the inbox and its leases are empty. -/
structure World.Initial (w : World δ) : Prop where
  inbox : w.db.syncLaneInbox = []
  leases : w.db.syncInputLeases = []
  receiptKey : Rows.UniqueKey (fun receipt : AppliedEvent =>
    (receipt.ownerIdentityId, receipt.eventId)) w.db.syncAppliedEvents
  issued : w.issued = []
  handed : w.handed = []
  slots : w.slots = []

/-! ## A small account -/

mutual

def renderJson : Json → String
  | .null => "null"
  | .bool value => if value then "true" else "false"
  | .num value => (if value < 0 then "-" else "") ++ toString value.natAbs
  | .real literal => literal
  | .str value => "'" ++ value ++ "'"
  | .arr items => "[" ++ renderItems items ++ "]"
  | .obj fields => "(" ++ renderFields fields ++ ")"

def renderItems : List Json → String
  | [] => ""
  | item :: items => renderJson item ++ "," ++ renderItems items

def renderFields : List (String × Json) → String
  | [] => ""
  | (key, value) :: fields => key ++ "=" ++ renderJson value ++ "," ++ renderFields fields

end

namespace Sample

def platform : Platform where
  digest := renderJson
  jsonText := renderJson
  rfc3339 := fun _ => some "2026-01-01T00:00:00Z"

def reducers : DomainReducers Unit where
  messageHasSyncEventId := fun _ _ _ _ => false
  applyNotification := fun domain _ => .ok (none, domain)
  canonicalizeInboundMessage := fun _ message => .ok message
  storeBacklog := fun domain _ _ _ _ => .ok domain
  groupStateIsStale := fun _ _ => .ok false
  upsertSyncThreadBinding := fun domain _ => .ok domain
  boundConversation := fun _ _ _ => none
  upsertMessages := fun domain _ => .ok ([], domain)
  upsertGroup := fun domain _ => .ok domain
  applyRemoteReadState := fun domain _ _ _ => .ok domain
  replaceSnapshotProjection := fun domain _ => .ok ([], domain)
  acceptedOwnEcho := fun _ _ _ => false

def binding : IdentityAccountBinding where
  ownerIdentityId := "alice"
  accountId := "account"
  handleScope := none
  currentDid := "did:alice"
  protocolDeviceId := "phone"
  identityGeneration := "1"
  deviceAuthGeneration := "1"
  createdAt := 0
  updatedAt := 0

def cursor : MessageSyncState where
  ownerIdentityId := "alice"
  accountId := "account"
  protocolDeviceId := "phone"
  deviceAuthGeneration := "1"
  streamEpoch := "1"
  scanSeq := "0"
  bootstrapState := "active"
  lastServerTime := none
  lastSuccessAt := none
  lastErrorCode := none
  metadataJson := none
  updatedAt := 0

def database {δ : Type} (domain : δ) : Db δ where
  identityAccountBindings := [binding]
  syncInstallationState := [{ ownerIdentityId := "alice", clientInstanceId := "client" }]
  messageSyncState := [cursor]
  laneSyncState := [{ ownerIdentityId := "alice", lane := .p5Device, streamEpoch := "1",
                      scanSeq := "0", committedSeq := "0" }]
  domain := domain

def world {δ : Type} (domain : δ) : World δ where
  db := database domain
  clock := 0
  issued := []
  handed := []
  slots := []

theorem world_initial {δ : Type} (domain : δ) : (world domain).Initial :=
  ⟨rfl, rfl, List.nodup_nil, rfl, rfl, rfl⟩

def event (eventId position : String) : InboxEvent where
  eventId := eventId
  position := position
  eventType := "group.profile_updated"
  payload := .obj [("event", .obj
    [ ("account_id", .str "account"), ("aggregate_id", .str "did:group"),
      ("aggregate_kind", .str "group"), ("event_id", .str eventId),
      ("event_seq", .str position), ("event_type", .str "group.profile_updated"),
      ("ignore_safe", .bool true), ("occurred_at", .str "2026-01-01T00:00:00Z"),
      ("payload", .obj []), ("schema_version", .num 1), ("stream_epoch", .str "1") ])]
  processingScope := "did:group"
  groupDid := some "did:group"

def page (expected next : String) (events : List InboxEvent) : OrdinaryReceiveBatch where
  binding := binding
  clientInstanceId := "client"
  expectedRunGeneration := none
  streamEpoch := "1"
  expectedScanSeq := expected
  nextScanSeq := next
  serverTime := "2026-01-01T00:00:00Z"
  events := events

end Sample

/-! ## Failed calls -/

/-- A run without its failed calls is a run to the same state: the calls that are left return
what they returned before. -/
theorem failed_calls_leave_no_trace {platform : Platform} {reducers : DomainReducers δ}
    {w' : World δ} {events : List (Event δ)} (hrun : Run (Step platform reducers) w events w') :
    ∃ clock issued, Run (Step platform reducers) w (events.filter (·.outcome.isOk))
      { w' with clock := clock, issued := issued } := by
  -- Without the failed calls the clock may be behind and fewer tokens are issued.
  suffices hlags : ∀ clock ≤ w.clock, ∀ issued ⊆ w.issued, ∃ clock' issued',
      Run (Step platform reducers) { w with clock := clock, issued := issued }
        (events.filter (·.outcome.isOk)) { w' with clock := clock', issued := issued' } from
    hlags w.clock le_rfl w.issued (List.Subset.refl _)
  induction hrun with
  | nil w => exact fun clock _ issued _ => ⟨clock, issued, .nil _⟩
  | @cons w u w' e events hstep _ ih =>
    intro clock hclock issued hissued
    cases he : e.outcome with
    | error error =>
      have hsame : ({ u with clock := clock, issued := issued } : World δ) =
          { w with clock := clock, issued := issued } := by
        simp [hstep.db_of_error he, hstep.handed', hstep.slots', Event.reply, he]
      have hrest := ih clock ((hclock.trans hstep.clock).trans hstep.clock'.ge) issued
        (hstep.issued' ▸ List.subset_append_of_subset_right _ hissued)
      simpa [he, Except.isOk, Except.toBool, hsame] using hrest
    | ok reply =>
      have hnext : Step platform reducers { w with clock := clock, issued := issued } e
          { u with clock := e.now, issued := e.op.tokens ++ issued } :=
        { hstep with
          clock := hclock.trans hstep.clock
          fresh := fun token htoken hmem => hstep.fresh token htoken (hissued hmem)
          clock' := rfl
          issued' := rfl }
      obtain ⟨clock', issued', hrest⟩ := ih e.now hstep.clock'.ge (e.op.tokens ++ issued)
        (hstep.issued' ▸ List.append_subset.mpr ⟨List.subset_append_left _ _,
          List.subset_append_of_subset_right _ hissued⟩)
      exact ⟨clock', issued', by simpa [he, Except.isOk, Except.toBool] using .cons hnext hrest⟩

namespace Sample

def refusedPage : List (Int × Operation Unit) :=
  [(1, .receiveOrdinary (page "5" "6" [])), (2, .receiveOrdinary (page "0" "1" [event "e" "1"]))]

theorem refused_page_leaves_no_trace :
    ∃ clock issued, Run (Step platform reducers) (world ())
      ((Event.ofCalls platform reducers (world ()) refusedPage).filter (·.outcome.isOk))
      { (world ()).calls platform reducers refusedPage with clock := clock, issued := issued } :=
  failed_calls_leave_no_trace (run_of_calls (by decide +kernel))

end Sample

end LocalState
end Awiki

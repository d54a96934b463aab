import Awiki.InboxActions

/-!
# The statements of processing

Which actions the functions on claims are made of.  The loop of `claim_inputs` is the
one place where several rows change in one call; its log is given exactly, so that
the claims it hands out can be matched with the rows it has taken.
-/

namespace Awiki
namespace LocalState

open Tx

variable {δ : Type} {now : Int}

/-! ## Renewing, parking and releasing -/

theorem releaseProcessingSlot_logs (token : String) :
    Logs (Action.Step now) (releaseProcessingSlot token : LocalM δ _) fun _ action =>
      action = .release token :=
  .execute (.release token) rfl fun _ =>
    ⟨trivial, (Action.updateInbox_id now (.release token) (fun _ => rfl) (fun _ => rfl) rfl
      _).symm, rfl, rfl, rfl⟩

theorem parkTimeout_logs (claim : InputClaim) :
    Logs (Action.Step now) (parkTimeout claim now : LocalM δ _) fun _ action =>
      action = .park claim := by
  refine .bind_read (.query _) fun _ => .bind ?_ fun _ => .pure _
  exact .execute (.park claim) rfl fun s =>
    ⟨trivial, (Action.updateInbox_of_update now (.park claim) (fun _ => rfl) rfl _).symm,
      rfl, rfl, rfl⟩

theorem releaseTimeout_logs (claim : InputClaim) (retryAt : Int) :
    Logs (Action.Step now) (releaseTimeout claim retryAt : LocalM δ _) fun _ action =>
      action = .unpark claim retryAt := by
  refine .bind_read (.query _) fun _ => .bind ?_ fun _ => .pure _
  exact .execute (.unpark claim retryAt) rfl fun s =>
    ⟨trivial, (Action.updateInbox_of_update now (.unpark claim retryAt) (fun _ => rfl) rfl
      _).symm, rfl, rfl, rfl⟩

theorem renewClaims_logs (claims : List InputClaim) :
    Logs (Action.Step now) (renewClaims claims now : LocalM δ _) fun _ action =>
      ∃ claim ∈ claims, action = .renew claim := by
  refine .immediate (.bind_fixed (P := fun action => ∃ claim ∈ claims, action = .renew claim)
    (.forEach fun claim hclaim => ?_) (fun _ _ h _ _ => h) fun _ => .pure _)
  refine .single (.renew claim) (fun _ => ⟨claim, hclaim, rfl⟩) fun s a t hrun => ?_
  have hrow := execute_bind_ok.mp hrun
  obtain rfl := execute_ok.mp hrow
  exact ⟨trivial, (Action.updateInbox_of_update now (.renew claim) (fun _ => rfl) rfl _).symm,
    rfl, rfl, rfl⟩

theorem renewProcessingSlots_logs (tokens : List String) :
    Logs (Action.Step now) (renewProcessingSlots tokens now : LocalM δ _) fun _ action =>
      ∃ token ∈ tokens, action = .renewSlot token :=
  .forEach fun token htoken => .execute (.renewSlot token) ⟨token, htoken, rfl⟩ fun _ =>
    ⟨trivial, (Action.updateInbox_id now (.renewSlot token) (fun _ => rfl) (fun _ => rfl) rfl
      _).symm, rfl, rfl, rfl⟩

variable {s t : Db δ} {v : Unit} {token : String} {binding : IdentityAccountBinding}

theorem dropExpiredLeases_step (h : (dropExpiredLeases now).run s = .ok v t) :
    Action.Step now s .dropLeases t := by
  obtain rfl := execute_ok.mp h
  exact ⟨trivial, (Action.updateInbox_id now .dropLeases (fun _ => rfl) (fun _ => rfl) rfl
    _).symm, rfl, rfl, rfl⟩

theorem leases_of_drop (h : Action.Step now s .dropLeases t) :
    t.syncInputLeases.filter (fun lease => decide (lease.deadline > now)) = t.syncInputLeases := by
  rw [h.leases, List.filter_eq_self]
  intro lease hlease
  simpa using (Rows.mem_deleteWhere.mp hlease).2

theorem insertLease_ok (h : (insertLease token now).run s = .ok v t) :
    s.hasLease token = false ∧ t = { s with
      syncInputLeases := s.syncInputLeases ++
        [{ attemptToken := token, deadline := claimDeadline now }] } := by
  obtain ⟨taken, rfl, hrest⟩ := query_bind_ok.mp h
  obtain ⟨hfree, hinsert⟩ := refuseIf_bind_ok.mp hrest
  exact ⟨hfree, (execute_ok.mp hinsert).symm⟩

theorem reserveProcessingSlot_log {slot : Option String}
    (h : (reserveProcessingSlot now token).run s = .ok slot t) :
    (t = s ∧ slot = none) ∨ (∃ mid, Action.Step now s .dropLeases mid ∧
      mid.syncInputLeases.length < maxActiveInputs ∧ Action.Step now mid (.reserve token) t ∧
        slot = some token) := by
  have hbody : ∀ ending t, (do
      dropExpiredLeases now
      let count ← query fun db => db.syncInputLeases.length
      if count ≥ maxActiveInputs then
        pure (.rollback none)
      else do
        insertLease token now
        pure (.commit (some token)) : LocalM δ (Ending (Option String))).run s = .ok ending t →
      ending = .rollback none ∨ (ending = .commit (some token) ∧ ∃ mid,
        Action.Step now s .dropLeases mid ∧ mid.syncInputLeases.length < maxActiveInputs ∧
          Action.Step now mid (.reserve token) t) := by
    intro ending t hrun
    obtain ⟨_, u, hdrop, hcount⟩ := bind_ok.mp hrun
    obtain ⟨count, rfl, hfull⟩ := query_bind_ok.mp hcount
    split at hfull
    · exact .inl (pure_ok.mp hfull).1.symm
    · rename_i hroom
      obtain ⟨_, hlease, rfl⟩ := bind_pure_ok.mp hfull
      obtain ⟨hfree, rfl⟩ := insertLease_ok hlease
      refine .inr ⟨rfl, u, dropExpiredLeases_step hdrop, Nat.not_le.mp hroom,
        ⟨hfree, ?_, rfl, rfl, rfl⟩⟩
      exact (Action.updateInbox_id now (.reserve token) (fun _ => rfl) (fun _ => rfl) rfl _).symm
  rcases immediate_ok.mp h with hcommit | ⟨rfl, v, hrollback⟩
  · rcases hbody _ _ hcommit with hending | ⟨hending, mid, hdrop, hroom, hreserve⟩
    · cases hending
    · cases hending
      exact .inr ⟨mid, hdrop, hroom, hreserve, rfl⟩
  · rcases hbody _ _ hrollback with hending | ⟨hending, -⟩
    · cases hending
      exact .inl ⟨rfl, rfl⟩
    · cases hending

theorem retryEvent_logs (owner eventId : String) :
    Logs (Action.Step now) (retryEvent owner eventId now : LocalM δ _) fun _ action =>
      action = .retry owner eventId := by
  refine .bind_read .refuseIf fun _ => .bind_read (.query _) fun _ => .bind ?_ fun _ => .pure _
  exact .execute (.retry owner eventId) rfl fun s =>
    ⟨trivial, (Action.updateInbox_of_update now (.retry owner eventId) (fun _ => rfl) rfl
      _).symm, rfl, rfl, rfl⟩

/-! ## Checking and failing a claim -/

theorem requireClaim_ok {claim : InputClaim} :
    (requireClaim claim now).run s = .ok v t ↔ s.claimIsLive claim now = true ∧ s = t := by
  simp only [requireClaim, bind_ok, query_ok, refuseIf_ok]
  constructor
  · rintro ⟨live, u, ⟨rfl, rfl⟩, hlive, rfl⟩
    exact ⟨by simpa using hlive, rfl⟩
  · rintro ⟨hlive, rfl⟩
    exact ⟨_, _, ⟨rfl, rfl⟩, by simpa using hlive, rfl⟩

/-- The facts that `require_claim` joins. -/
structure LiveClaim (db : Db δ) (claim : InputClaim) (now : Int) (row : InboxRow) : Prop where
  queued : row ∈ db.syncLaneInbox
  input : row.inputId = claim.inputId
  owner : row.ownerIdentityId = claim.ownerIdentityId
  attempt : ∃ deadline, row.attempt = some ⟨claim.token, deadline⟩ ∧ now < deadline
  notParked : row.processingErrorCode ≠ some processingTimeout
  leased : ∃ lease ∈ db.syncInputLeases, lease.attemptToken = claim.token ∧ now < lease.deadline
  bound : ∃ binding ∈ db.identityAccountBindings,
    binding.ownerIdentityId = claim.ownerIdentityId ∧ binding.accountId = claim.accountId ∧
      binding.protocolDeviceId = claim.deviceId ∧
      binding.deviceAuthGeneration = claim.authGeneration ∧ binding.currentDid = claim.ownerDid

theorem claimIsLive_iff {db : Db δ} {claim : InputClaim} :
    db.claimIsLive claim now = true ↔ ∃ row, LiveClaim db claim now row := by
  simp only [Db.claimIsLive, List.any_eq_true, Bool.and_eq_true, beq_iff_eq, bne_iff_ne,
    decide_eq_true_eq]
  constructor
  · rintro ⟨row, hrow, ⟨⟨⟨⟨hinput, howner⟩, hattempt⟩, hcode⟩, hlease⟩, hbinding⟩
    refine ⟨row, hrow, hinput, howner, ?_, hcode, ?_, ?_⟩
    · cases hrowAttempt : row.attempt with
      | none => simp [hrowAttempt] at hattempt
      | some attempt =>
        simp only [hrowAttempt, Bool.and_eq_true, beq_iff_eq, decide_eq_true_eq] at hattempt
        exact ⟨attempt.deadline, by rw [← hattempt.1], hattempt.2⟩
    · obtain ⟨lease, hmem, htoken, hdeadline⟩ := hlease
      exact ⟨lease, hmem, htoken, hdeadline⟩
    · obtain ⟨binding, hmem, ⟨⟨⟨howner', haccount⟩, hdevice⟩, hauth⟩, hdid⟩ := hbinding
      exact ⟨binding, hmem, howner'.trans howner, haccount, hdevice, hauth, hdid⟩
  · rintro ⟨row, hlive⟩
    obtain ⟨deadline, hattempt, hdeadline⟩ := hlive.attempt
    obtain ⟨binding, hmem, howner, haccount, hdevice, hauth, hdid⟩ := hlive.bound
    refine ⟨row, hlive.queued, ⟨⟨⟨⟨hlive.input, hlive.owner⟩, ?_⟩, hlive.notParked⟩,
      hlive.leased⟩, binding, hmem, ⟨⟨⟨howner.trans hlive.owner.symm, haccount⟩, hdevice⟩, hauth⟩,
      hdid⟩
    simpa [hattempt] using hdeadline

theorem failClaim_logs (claim : InputClaim) (code : String) (retryAt : Option Int) :
    Logs (Action.Step now) (failClaim claim code retryAt now : LocalM δ _) fun _ action =>
      action = .fail claim code retryAt ∨ action = .release claim.token := by
  refine .immediate fun s a t hrun => ?_
  obtain ⟨_, u, hcheck, hupdate⟩ := bind_ok.mp hrun
  obtain ⟨hlive, rfl⟩ := requireClaim_ok.mp hcheck
  obtain ⟨_, u, hupdated, hrelease⟩ := bind_ok.mp hupdate
  have hfail : Action.Step now s (.fail claim code retryAt) u := by
    rw [← execute_ok.mp hupdated]
    exact ⟨hlive, (Action.updateInbox_of_update now (.fail claim code retryAt) (fun _ => rfl) rfl
      _).symm, rfl, rfl, rfl⟩
  have hrest : Logs (Action.Step now) (do
      releaseClaimLease claim
      pure (.commit ()) : LocalM δ (Ending Unit)) fun _ action => action = .release claim.token :=
    .bind (releaseProcessingSlot_logs claim.token) fun _ => .pure _
  obtain ⟨log, hlog, hall⟩ := hrest _ _ _ hrelease
  refine ⟨.fail claim code retryAt :: log, .cons hfail hlog, ?_⟩
  intro action haction _ _
  rcases List.mem_cons.mp haction with rfl | haction
  · exact .inl rfl
  · exact .inr (hall action haction)

/-! ## Completing a claim -/

/-- The actions of a transaction that completes `claim`. -/
def CompletionAction (platform : Platform) (claim : InputClaim) : Action → Prop
  | .other | .receipt _ | .laneReceipt _ | .close _ _ => True
  | .digest c hash => c = claim ∧ claim.lane.isLocal = true ∧
      hash = payloadHash platform claim.lane claim.payload
  | .wake c _ | .finish c => c = claim
  | _ => False

section

variable (platform : Platform)

variable (claim : InputClaim)

theorem writeReceiptHash_logs :
    Logs (Action.Step now) (writeReceiptHash platform claim now : LocalM δ _)
      fun _ => CompletionAction platform claim := by
  unfold writeReceiptHash
  split
  case h_1 hlane | h_2 hlane =>
    exact .execute (.digest claim (payloadHash platform claim.lane claim.payload))
      ⟨rfl, by rw [hlane]; rfl, rfl⟩ fun _ => ⟨trivial, (Action.updateInbox_id now (.digest claim _) (fun _ => rfl)
        (fun _ => rfl) rfl _).symm, rfl, rfl, rfl⟩
  case h_3 lane _ =>
    refine .bind_read (.query _) fun _ => .bind_read (.query _) fun _ =>
      .bind_read .refuseIf fun _ => ?_
    exact .execute (.laneReceipt (laneReceipt platform claim lane now)) trivial
      fun _ => ⟨trivial, (Action.updateInbox_id now (.laneReceipt _) (fun _ => rfl)
        (fun _ => rfl) rfl _).symm, rfl, rfl, rfl⟩

theorem wakeScope_logs :
    Logs (Action.Step now) (wakeScope claim now : LocalM δ _)
      fun _ => CompletionAction platform claim := by
  unfold wakeScope
  split
  case h_1 | h_2 => exact .pure ()
  case h_3 =>
    refine .bind_read (.query _) fun scope => .execute (.wake claim scope) rfl fun _ => ?_
    exact ⟨trivial, (Action.updateInbox_of_update now (.wake claim scope) (fun _ => rfl) rfl
      _).symm, rfl, rfl, rfl⟩

theorem completeClaim_logs :
    Logs (Action.Step now) (completeClaim platform claim now : LocalM δ _)
      fun _ => CompletionAction platform claim :=
  .bind_read (requireClaim_keeps _ _) fun _ => .bind (writeReceiptHash_logs _ _) fun _ =>
    .bind (wakeScope_logs _ _) fun _ => .execute (.finish claim) rfl fun _ =>
      ⟨trivial, (Action.updateInbox_of_delete now (.finish claim) (fun _ => rfl) rfl _).symm,
        rfl, rfl, rfl⟩

theorem recordAppliedEvent_logs (receipt : AppliedEvent) :
    Logs (Action.Step now) (recordAppliedEvent receipt : LocalM δ _)
      fun _ => CompletionAction platform claim := by
  refine .bind_read .attempt fun _ s a t hrun => ?_
  obtain ⟨stored, hstored, hcases⟩ := query_bind_ok.mp hrun
  cases stored with
  | some row =>
    have hread : Keeps (do
        refuseIf (row.streamEpoch != receipt.streamEpoch || row.eventSeq != receipt.eventSeq)
          (bindingConflict "sync event id was already applied at a different stream position")
        pure false : LocalM δ Bool) id := .reply .refuseIf
    obtain rfl : t = s := hread _ _ _ hcases
    exact ⟨[], .nil _, by simp⟩
  | none =>
    have hpure := execute_bind_ok.mp hcases
    obtain ⟨-, rfl⟩ := pure_ok.mp hpure
    refine ⟨[.receipt { receipt with payloadHash := none }], Run.single ?_, by
      simp [CompletionAction]⟩
    refine ⟨⟨rfl, fun row hrow => ?_⟩, (Action.updateInbox_id now (.receipt _) (fun _ => rfl)
      (fun _ => rfl) rfl _).symm, rfl, rfl, rfl⟩
    simpa using List.find?_eq_none.mp hstored row hrow

theorem completion_of_keeps {α : Type} {x : LocalM δ α} (h : Keeps x Db.receiveTables) :
    Logs (Action.Step now) x fun _ => CompletionAction platform claim := by
  refine (logs_of_keeps h).mono ?_
  rintro _ _ rfl
  trivial

end

/-! ## Applying a claim -/

section Frames

variable {γ : Type} {f : Db δ → γ}

theorem domainWrite_keeps (hf : ∀ db domain, f { db with domain := domain } = f db)
    (g : δ → Except ImError δ) : Keeps (domainWrite g) f :=
  domainUpdate_keeps hf _

theorem alreadyProjected_keeps (reducers : DomainReducers δ) (owner : String)
    (event : DeltaApplyEvent) : Keeps (alreadyProjected reducers owner event) f := by
  unfold alreadyProjected
  split
  · exact .ite (.bind .attempt fun _ => .bind .attempt fun _ => .query _) (.pure _)
  · exact .pure _

theorem applyEventNotification_keeps (hf : ∀ db domain, f { db with domain := domain } = f db)
    (reducers : DomainReducers δ) (input : DeltaApplyInput) (event : DeltaApplyEvent) :
    Keeps (applyEventNotification reducers input event) f := by
  unfold applyEventNotification
  split
  · exact .pure _
  · exact .bind .refuseIf fun _ => .reply (domainUpdate_keeps hf _)

theorem projectMessages_keeps (hf : ∀ db domain, f { db with domain := domain } = f db)
    (reducers : DomainReducers δ) (owner : String) (event : DeltaApplyEvent)
    (binding : Option SyncThreadBinding) (messages : List MessageRecord) :
    Keeps (projectMessages reducers owner event binding messages) f := by
  induction messages with
  | nil => exact .pure _
  | cons message rest ih =>
    refine .bind .attempt fun _ => .bind (.query _) fun canonical => ?_
    cases canonical with
    | ok record => exact .reply ih
    | error error =>
      exact .ite (.bind (domainWrite_keeps hf _) fun _ => .reply ih) .throw

theorem freshGroups_keeps (reducers : DomainReducers δ) (owner : String)
    (groups : List GroupRecord) : Keeps (freshGroups reducers owner groups) f := by
  induction groups with
  | nil => exact .pure _
  | cons group rest ih =>
    exact .bind .attempt fun _ => .bind (.query _) fun _ => .bind .attempt fun _ =>
      .reply ih

variable (hf : ∀ db domain, f { db with domain := domain } = f db)

include hf

variable (reducers : DomainReducers δ)

theorem projectDeltaEvent_keeps (input : DeltaApplyInput) (progress : DeltaProgress)
    (event : DeltaApplyEvent) : Keeps (projectDeltaEvent reducers input progress event) f :=
  .bind (alreadyProjected_keeps _ _ _) fun _ => .ite (.pure _)
    (.bind (applyEventNotification_keeps hf _ _ _) fun _ => .bind .attempt fun _ =>
      .bind (projectMessages_keeps hf _ _ _ _ _) fun _ => .bind .attempt fun _ =>
      .reply (freshGroups_keeps _ _ _))

theorem upsertProjected_keeps (messages : List MessageRecord) :
    Keeps (upsertProjected reducers messages) f :=
  .ite (.pure _) (domainUpdate_keeps hf _)

theorem commitDeltaProgress_keeps (input : DeltaApplyInput) (progress : DeltaProgress) :
    Keeps (commitDeltaProgress reducers input progress) f :=
  .bind (.forEach fun _ _ => domainWrite_keeps hf _) fun _ => .bind (.query _) fun _ =>
    .bind (upsertProjected_keeps hf _ _) fun _ =>
    .bind (.forEach fun _ _ => domainWrite_keeps hf _) fun _ =>
    .reply (.forEach fun _ _ => domainWrite_keeps hf _)

theorem replaceProjection_keeps (claim : InputClaim) (baseline : Baseline)
    (groups : List GroupRecord) : Keeps (replaceProjection reducers claim baseline groups) f := by
  unfold replaceProjection
  split
  · exact .pure _
  · exact domainUpdate_keeps hf _

theorem applyBaselineGroup_keeps (group : GroupRecord) :
    Keeps (applyBaselineGroup reducers group) f :=
  .bind (.query _) fun _ => .bind .attempt fun _ => .ite (.pure _) (domainWrite_keeps hf _)

end Frames

theorem receiveTables_domain (db : Db δ) (domain : δ) :
    ({ db with domain := domain } : Db δ).receiveTables = db.receiveTables := rfl

section

variable (platform : Platform)

theorem reduceDeltaEvent_logs (claim : InputClaim) (reducers : DomainReducers δ)
    (input : DeltaApplyInput) (unixTime : Int) (progress : DeltaProgress)
    (event : DeltaApplyEvent) :
    Logs (Action.Step now) (reduceDeltaEvent reducers input unixTime progress event)
      fun _ => CompletionAction platform claim :=
  .bind (recordAppliedEvent_logs _ _ _) fun _ => .ite (.pure _)
    (completion_of_keeps _ _ (projectDeltaEvent_keeps receiveTables_domain _ _ _ _))

theorem reduceDeltaEvents_logs (claim : InputClaim) (reducers : DomainReducers δ)
    (input : DeltaApplyInput) (unixTime : Int) (events : List DeltaApplyEvent)
    (progress : DeltaProgress) :
    Logs (Action.Step now) (reduceDeltaEvents reducers input unixTime progress events)
      fun _ => CompletionAction platform claim := by
  induction events generalizing progress with
  | nil => exact .pure _
  | cons event rest ih => exact .bind (reduceDeltaEvent_logs _ _ _ _ _ _ _) fun _ => ih _

theorem applyDeltaEvents_logs (claim : InputClaim) (reducers : DomainReducers δ)
    (input : DeltaApplyInput) (unixTime : Int) :
    Logs (Action.Step now) (applyDeltaEvents reducers input unixTime)
      fun _ => CompletionAction platform claim :=
  .bind (reduceDeltaEvents_logs _ _ _ _ _ _ _) fun _ =>
    completion_of_keeps _ _ (commitDeltaProgress_keeps receiveTables_domain _ _ _)

theorem applyOrdinaryClaimWith_logs (reducers : DomainReducers δ) (claim : InputClaim)
    (input : DeltaApplyInput) (unixTime : Int) (commitDomain : δ → Except ImError δ) :
    Logs (Action.Step now)
      (applyOrdinaryClaimWith platform reducers claim input now unixTime commitDomain)
      fun _ => CompletionAction platform claim :=
  .bind_read .refuseIf fun _ => .immediate (.mono (.bind_read (requireClaim_keeps _ _) fun _ =>
    .bind_read (.query _) fun _ => .bind_read .refuseIf fun _ =>
    .bind (applyDeltaEvents_logs platform claim _ _ _) fun _ =>
    .bind (completion_of_keeps _ _ (domainWrite_keeps receiveTables_domain _)) fun _ =>
    .bind (completeClaim_logs _ _) fun _ => .pure _) fun _ _ h _ _ => h)

theorem applyBaselineClaim_logs (reducers : DomainReducers δ) (claim : InputClaim)
    (baseline : Baseline) (groups : List GroupRecord) (readStates : List ReadStateApply) :
    Logs (Action.Step now)
      (applyBaselineClaim platform reducers claim baseline groups readStates now)
      fun _ => CompletionAction platform claim :=
  .immediate (.mono (.bind_read (requireClaim_keeps _ _) fun _ =>
    .bind (completion_of_keeps platform claim
      (replaceProjection_keeps receiveTables_domain _ _ _ _)) fun _ =>
    .bind_read (.query _) fun _ =>
    .bind (completion_of_keeps _ _ (.forEach fun _ _ =>
      applyBaselineGroup_keeps receiveTables_domain _ _)) fun _ =>
    .bind (completion_of_keeps _ _ (.forEach fun _ _ =>
      domainWrite_keeps receiveTables_domain _)) fun _ =>
    .bind (recordAppliedEvent_logs _ _ _) fun _ =>
    .bind (completeClaim_logs _ _) fun _ => .pure _) fun _ _ h _ _ => h)

end

theorem writeLaneDomainState_logs (state : LaneDomainState δ) :
    Logs (Action.Step now) (writeLaneDomainState state now) fun _ action =>
      action = .other ∨ ∃ inputId closedAt, action = .close inputId closedAt := by
  intro s a t hrun
  obtain ⟨stored, rfl, hfound⟩ := query_bind_ok.mp hrun
  obtain ⟨row, hrow, hlane⟩ := orError_bind_ok.mp hfound
  obtain ⟨hsecure, hwrite⟩ := refuseIf_bind_ok.mp hlane
  obtain ⟨_, u, hstore, hupdate⟩ := bind_ok.mp hwrite
  obtain ⟨log, hlog, hall⟩ := logs_of_keeps (domainWrite_keeps receiveTables_domain _) _ _ _ hstore
  have hinbox : u.syncLaneInbox = s.syncLaneInbox :=
    domainWrite_keeps (f := Db.syncLaneInbox) (fun _ _ => rfl) _ _ _ _ hstore
  obtain rfl := execute_ok.mp hupdate
  refine ⟨log ++ [.close state.inputId (if state.isClosed then some now else none)],
    Run.append_iff.mpr ⟨u, hlog, Run.single ?_⟩, ?_⟩
  · refine ⟨⟨row, ?_, ?_, state.lane, by simpa using hsecure⟩,
      (Action.updateInbox_of_update now (.close state.inputId _) (fun _ => rfl) rfl _).symm,
      rfl, rfl, rfl⟩
    · rw [hinbox]
      exact List.mem_of_find?_eq_some hrow
    · simpa using List.find?_some hrow
  · intro action haction
    rcases List.mem_append.mp haction with haction | haction
    · exact .inl (hall action haction)
    · exact .inr ⟨_, _, List.mem_singleton.mp haction⟩

theorem applySecureClaim_logs (platform : Platform) (claim : InputClaim)
    (project : δ → Except ImError δ) (outcome : Option (LaneDomainState δ)) :
    Logs (Action.Step now) (applySecureClaim platform claim now project outcome)
      fun _ => CompletionAction platform claim := by
  refine .immediate (.mono (.bind_read (requireClaim_keeps _ _) fun _ =>
    .bind (completion_of_keeps platform claim (domainWrite_keeps receiveTables_domain _)) fun _ =>
    .bind ?_ fun _ => .bind (completeClaim_logs _ _) fun _ => .pure _) fun _ _ h _ _ => h)
  cases outcome with
  | none => exact .pure ()
  | some state =>
    refine (writeLaneDomainState_logs state).mono ?_
    rintro _ _ (rfl | ⟨inputId, closedAt, rfl⟩) <;> trivial

/-! ## Pruning -/

theorem deleteReceipts_logs (owner : String) (eventIds : List String) :
    Logs (Action.Step now) (deleteReceipts owner eventIds : LocalM δ _) fun _ action =>
      ∃ eventId, action = .forget owner eventId :=
  .forEach fun eventId _ => .execute (.forget owner eventId) ⟨eventId, rfl⟩ fun _ =>
    ⟨trivial, (Action.updateInbox_id now (.forget owner eventId) (fun _ => rfl) (fun _ => rfl) rfl
      _).symm, rfl, rfl, rfl⟩

theorem pruneAppliedEvents_logs (owner epoch scanSeq : String) (maxDelete : Nat) :
    Logs (Action.Step now) (pruneAppliedEvents owner epoch scanSeq maxDelete : LocalM δ _)
      fun _ action => ∃ eventId, action = .forget owner eventId := by
  refine .bind_read .attempt fun _ => .bind_read (.query _) fun count => .ite (.pure _)
    (.bind_read .attempt fun safeSeq => ?_)
  cases safeSeq with
  | none => exact .pure _
  | some safeSeq =>
    exact .bind_read (.query _) fun _ => .bind_read .attempt fun _ => .bind_read (.query _)
      fun _ => .bind (deleteReceipts_logs _ _) fun _ => .pure _

/-! ## Claiming -/

structure Due (db : Db δ) (binding : IdentityAccountBinding) (now : Int) (row : InboxRow) :
    Prop where
  queued : row ∈ db.syncLaneInbox
  owner : row.ownerIdentityId = binding.ownerIdentityId
  isOpen : row.isOpen now = true
  idle : ∀ attempt, row.attempt = some attempt →
    attempt.deadline ≤ now ∨ db.hasLease attempt.token = false
  unfenced : row.lane.isLocal = true → db.baselineBefore row now = false

theorem due_of_mem_candidates {db : Db δ} {limit : Nat} {row : InboxRow}
    (h : row ∈ db.candidates binding now limit) : Due db binding now row := by
  have hmem := List.mem_of_mem_take h
  rw [List.mem_insertionSort, List.mem_filter] at hmem
  obtain ⟨hrow, hdue⟩ := hmem
  simp only [Db.isDue, Bool.and_eq_true, beq_iff_eq] at hdue
  obtain ⟨⟨⟨⟨⟨⟨howner, -⟩, -⟩, hopen⟩, -⟩, hidle⟩, hfence⟩ := hdue
  refine ⟨hrow, howner, hopen, ?_, ?_⟩
  · intro attempt hattempt
    simpa [hattempt, Db.unleased] using hidle
  · intro hlocal
    simpa [hlocal] using hfence

def Claimable (db : Db δ) (now : Int) (row : InboxRow) : Prop :=
  ∃ current ∈ db.syncLaneInbox, current.toInboxInput = row.toInboxInput ∧
    current.isOpen now = true ∧ (current.lane.isLocal = true → db.baselineBefore current now = false)

theorem baselineBefore_map {g : InboxRow → InboxRow}
    (hinbox : t.syncLaneInbox = s.syncLaneInbox.map g)
    (hinput : ∀ row, (g row).toInboxInput = row.toInboxInput)
    (hclosed : ∀ row, (g row).closedAt = row.closedAt) (row : InboxRow) :
    t.baselineBefore (g row) now = s.baselineBefore row now := by
  unfold Db.baselineBefore InboxRow.isOpen
  rw [hinbox, List.any_map]
  congr 1
  funext other
  simp only [Function.comp, hinput, hclosed]

theorem closedAt_take (input : InboxInput) (token : String) (row : InboxRow) :
    (Action.updateRow now (.take input token) row).closedAt = row.closedAt := by
  simp only [Action.updateRow]
  split <;> rfl

theorem Claimable.of_take {row : InboxRow} {input : InboxInput}
    (h : Claimable s now row)
    (hinbox : t.syncLaneInbox =
      s.syncLaneInbox.map (Action.updateRow now (.take input token))) : Claimable t now row := by
  obtain ⟨current, hcurrent, hinput, hopen, hfence⟩ := h
  have hsame := Action.updateRow_toInboxInput now (.take input token) current
  refine ⟨Action.updateRow now (.take input token) current, ?_, hsame.trans hinput, ?_, ?_⟩
  · rw [hinbox]
    exact List.mem_map_of_mem hcurrent
  · simpa [InboxRow.isOpen, hsame, closedAt_take] using hopen
  · intro hlocal
    rw [baselineBefore_map hinbox (Action.updateRow_toInboxInput now _) (closedAt_take _ _)]
    exact hfence (by simpa only [hsame] using hlocal)

def takeActions (rows : List InboxRow) (tokens : List String) : List Action :=
  (rows.zip tokens).map fun pair => .take pair.1.toInboxInput pair.2

theorem claimRows_log {rows : List InboxRow} {tokens : List String} {claims : List InputClaim}
    (h : (claimRows binding now rows tokens).run s = .ok claims t)
    (hrows : ∀ row ∈ rows, Claimable s now row) :
    Run (Action.Step now) s (takeActions rows tokens) t ∧
      claims = (rows.zip tokens).map fun pair => .ofRow binding pair.1 pair.2 := by
  induction rows generalizing tokens s claims with
  | nil =>
    obtain ⟨rfl, rfl⟩ := pure_ok.mp h
    exact ⟨.nil _, rfl⟩
  | cons row rows ih =>
    cases tokens with
    | nil =>
      obtain ⟨rfl, rfl⟩ := pure_ok.mp h
      exact ⟨.nil _, rfl⟩
    | cons token tokens =>
      obtain ⟨_, u, hlease, hupdate⟩ := bind_ok.mp h
      obtain ⟨hfree, rfl⟩ := insertLease_ok hlease
      obtain ⟨_, u, hrow, hloop⟩ := bind_ok.mp hupdate
      have hupdated := Action.updateInbox_of_update now (.take row.toInboxInput token)
        (fun _ => rfl) rfl s.syncLaneInbox
      have hstep : Action.Step now s (.take row.toInboxInput token) u := by
        rw [← execute_ok.mp hrow]
        exact ⟨⟨hfree, hrows row List.mem_cons_self⟩, hupdated.symm, rfl, rfl, rfl⟩
      obtain ⟨rest, hrest, rfl⟩ := bind_pure_ok.mp hloop
      obtain ⟨hrun, rfl⟩ := ih hrest fun other hother =>
        (hrows other (List.mem_cons_of_mem _ hother)).of_take (hstep.inbox.trans hupdated)
      exact ⟨.cons hstep hrun, rfl⟩

theorem reclaimOwnEchoes_log {reducers : DomainReducers δ}
    (h : (reclaimOwnEchoes reducers binding now).run s = .ok v t) :
    ∃ inputIds, Action.Step now s (.reclaim inputIds) t := by
  obtain ⟨blocked, hids, hupdate⟩ := query_bind_ok.mp h
  obtain rfl := execute_ok.mp hupdate
  refine ⟨blocked, ?_, (Action.updateInbox_of_update now (.reclaim blocked) (fun _ => rfl) rfl
    _).symm, rfl, rfl, rfl⟩
  intro inputId hid
  rw [← hids] at hid
  obtain ⟨row, hrow, rfl⟩ := List.mem_map.mp hid
  obtain ⟨hmem, hblocked⟩ := List.mem_filter.mp (List.mem_of_mem_take hrow)
  simp only [isBlockedOwnEcho, Bool.and_eq_true, Option.isNone_iff_eq_none] at hblocked
  exact ⟨row, hmem, rfl, hblocked.1.1.1.1.1.1.2⟩

theorem claimInputs_log {reducers : DomainReducers δ} {limit : Nat} {tokens : List String}
    {claims : List InputClaim}
    (h : (claimInputs reducers binding now limit tokens).run s = .ok claims t) :
    (t = s ∧ claims = []) ∨ ∃ inputIds mid rows,
      Run (Action.Step now) s [.reclaim inputIds, .dropLeases] mid ∧
        (∃ free, mid.syncInputLeases.length + free ≤ maxActiveInputs ∧
          rows = mid.candidates binding now free) ∧
        Run (Action.Step now) mid (takeActions rows tokens) t ∧
        claims = (rows.zip tokens).map fun pair => .ofRow binding pair.1 pair.2 := by
  obtain ⟨-, htx⟩ := refuseIf_bind_ok.mp h
  have hbody : ∀ ending t, (claimDueInputs reducers binding now limit tokens).run s =
      .ok ending t → ending = .rollback [] ∨ ∃ inputIds mid rows,
        Run (Action.Step now) s [.reclaim inputIds, .dropLeases] mid ∧
          (∃ free, mid.syncInputLeases.length + free ≤ maxActiveInputs ∧
            rows = mid.candidates binding now free) ∧
          Run (Action.Step now) mid (takeActions rows tokens) t ∧
          ending = .commit ((rows.zip tokens).map fun pair => .ofRow binding pair.1 pair.2) := by
    intro ending t hrun
    obtain ⟨_, u, hbinding, hecho⟩ := bind_ok.mp hrun
    obtain rfl : u = s := requireBinding_keeps (f := id) binding _ _ _ hbinding
    obtain ⟨_, v, hreclaim, hdrop⟩ := bind_ok.mp hecho
    obtain ⟨inputIds, hids⟩ := reclaimOwnEchoes_log hreclaim
    obtain ⟨_, w, hexpired, hcount⟩ := bind_ok.mp hdrop
    have hfirst : Run (Action.Step now) u [.reclaim inputIds, .dropLeases] w :=
      .cons hids (.single (dropExpiredLeases_step hexpired))
    obtain ⟨leased, hleased, hlimited⟩ := query_bind_ok.mp hcount
    rw [leases_of_drop (dropExpiredLeases_step hexpired)] at hleased
    by_cases hzero : min limit (maxActiveInputs - leased) = 0
    · simp only [if_pos hzero] at hlimited
      exact .inl (pure_ok.mp hlimited).1.symm
    · simp only [if_neg hzero] at hlimited
      obtain ⟨rows, hrows, hloop⟩ := query_bind_ok.mp hlimited
      have hdue : ∀ row ∈ rows, Due w binding now row := by
        intro row hrow
        exact due_of_mem_candidates (hrows ▸ hrow)
      obtain ⟨claims, hclaims, rfl⟩ := bind_pure_ok.mp hloop
      obtain ⟨htake, rfl⟩ := claimRows_log hclaims fun row hrow =>
        ⟨row, (hdue row hrow).queued, rfl, (hdue row hrow).isOpen, (hdue row hrow).unfenced⟩
      exact .inr ⟨inputIds, w, rows, hfirst, ⟨_, by omega, hrows.symm⟩, htake, rfl⟩
  rcases immediate_ok.mp htx with hcommit | ⟨rfl, v, hrollback⟩
  · rcases hbody _ _ hcommit with hending | ⟨inputIds, mid, rows, hfirst, hfree, hrun, hending⟩
    · cases hending
    · cases hending
      exact .inr ⟨inputIds, mid, rows, hfirst, hfree, hrun, rfl⟩
  · rcases hbody _ _ hrollback with hending | ⟨_, _, _, -, -, -, hending⟩
    · cases hending
      exact .inl ⟨rfl, rfl⟩
    · cases hending

end LocalState
end Awiki

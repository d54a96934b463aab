import Awiki.SyncRuns

/-!
# What the calls leave alone

The functions of the inbox write its rows and leases and the two tables of receipts;
those of the cursor write the tables of `OffCursor`.  What a call leaves alone follows
from the kinds of functions that it is made of.
-/

namespace Awiki
namespace LocalState

open Tx

variable {δ γ : Type} {f : Db δ → γ} {platform : Platform} {reducers : DomainReducers δ} {now : Int}

structure OffInbox (f : Db δ → γ) : Prop where
  inbox : ∀ db rows, f { db with syncLaneInbox := rows } = f db
  leases : ∀ db rows, f { db with syncInputLeases := rows } = f db
  laneReceipts : ∀ db rows, f { db with syncLaneAppliedEvents := rows } = f db
  digests : ∀ db p hash, f { db with
    syncAppliedEvents := Rows.updateWhere p
      (fun receipt => { receipt with payloadHash := some hash }) db.syncAppliedEvents } = f db

def OffReceipts (f : Db δ → γ) : Prop :=
  ∀ db rows, f { db with syncAppliedEvents := rows } = f db

/-! ## Receiving -/

section Inbox

variable (hf : OffInbox f)
include hf

theorem deleteOldest_keeps (cutoff : Option Int) (limit : Nat) :
    Keeps (deleteOldest cutoff limit) f :=
  .bind (.query _) fun _ => .reply (.forEach fun _ _ => .execute fun db => hf.inbox db _)

theorem makeRoom_keeps (additional : Nat) (now : Int) : Keeps (makeRoom additional now) f :=
  .bind .refuseIf fun _ => .bind (deleteOldest_keeps hf _ _) fun _ => .bind (.query _) fun _ =>
    .ite (.reply (deleteOldest_keeps hf _ _)) (.pure _)

theorem insertInboxRow_keeps (input : InboxInput) : Keeps (insertInboxRow input) f :=
  .bind (.query _) fun _ => .bind (.query _) fun _ => .bind .refuseIf fun _ =>
    .execute fun db => hf.inbox db _

theorem insertInput_keeps (binding : IdentityAccountBinding) (installation : String) (lane : Lane)
    (epoch : String) (event : InboxEvent) :
    Keeps (insertInput platform binding installation lane epoch event now) f :=
  .bind .orError fun _ => insertInboxRow_keeps hf _

theorem insertBaselineAndEvents_keeps (binding : IdentityAccountBinding)
    (installation epoch anchor : String) (baseline : Baseline) (events : List InboxEvent)
    (draw : Nat) :
    Keeps (insertBaselineAndEvents platform binding installation epoch anchor baseline events
      draw now) f :=
  .bind (.query _) fun _ => .bind .orError fun _ => .bind .refuseIf fun _ =>
    .bind (pendingInputs_keeps _ _ _ _) fun _ => .bind (makeRoom_keeps hf _ _) fun _ =>
    .reply (.forEach fun _ _ => insertInput_keeps hf _ _ _ _ _)

/-! ## Claims -/

theorem dropExpiredLeases_keeps : Keeps (dropExpiredLeases now) f :=
  .execute fun db => hf.leases db _

theorem insertLease_keeps (token : String) : Keeps (insertLease token now) f :=
  .bind (.query _) fun _ => .bind .refuseIf fun _ => .execute fun db => hf.leases db _

theorem releaseProcessingSlot_keeps (token : String) : Keeps (releaseProcessingSlot token) f :=
  .execute fun db => hf.leases db _

theorem renewLease_keeps (token : String) : Keeps (renewLease token now) f :=
  .execute fun db => hf.leases db _

theorem claimRows_keeps (binding : IdentityAccountBinding) (rows : List InboxRow)
    (tokens : List String) : Keeps (claimRows binding now rows tokens) f := by
  induction rows generalizing tokens with
  | nil => exact .pure _
  | cons row rows ih =>
    cases tokens with
    | nil => exact .pure _
    | cons token tokens =>
      exact .bind (insertLease_keeps hf _) fun _ => .bind (.execute fun db => hf.inbox db _)
        fun _ => .reply (ih tokens)

theorem claimInputs_keeps (binding : IdentityAccountBinding) (limit : Nat)
    (tokens : List String) : Keeps (claimInputs reducers binding now limit tokens) f :=
  .bind .refuseIf fun _ => .immediate (.bind (requireBinding_keeps _) fun _ =>
    .bind (.bind (.query _) fun _ => .execute fun db => hf.inbox db _) fun _ =>
    .bind (dropExpiredLeases_keeps hf) fun _ => .bind (.query _) fun _ => .ite (.pure _)
    (.bind (.query _) fun _ => .reply (claimRows_keeps hf _ _ _)))

theorem writeReceiptHash_keeps (claim : InputClaim) :
    Keeps (writeReceiptHash platform claim now) f := by
  unfold writeReceiptHash
  split
  · exact .execute fun db => hf.digests db _ _
  · exact .execute fun db => hf.digests db _ _
  · exact .bind (.query _) fun _ => .bind (.query _) fun _ => .bind .refuseIf fun _ =>
      .execute fun db => hf.laneReceipts db _

theorem completeClaim_keeps (claim : InputClaim) : Keeps (completeClaim platform claim now) f := by
  refine .bind (requireClaim_keeps _ _) fun _ => .bind (writeReceiptHash_keeps hf _) fun _ =>
    .bind ?_ fun _ => .execute fun db => hf.inbox db _
  unfold wakeScope
  split
  · exact .pure _
  · exact .pure _
  · exact .bind (.query _) fun _ => .execute fun db => hf.inbox db _

end Inbox

theorem recordAppliedEvent_keeps (hf : OffReceipts f) (receipt : AppliedEvent) :
    Keeps (recordAppliedEvent receipt) f := by
  refine .bind .attempt fun _ => .bind (.query _) fun stored => ?_
  cases stored with
  | some row => exact .reply .refuseIf
  | none => exact .reply (.execute fun db => hf db _)

theorem pruneAppliedEvents_keeps (hf : OffReceipts f) (owner epoch scanSeq : String) (maxDelete : Nat) :
    Keeps (pruneAppliedEvents owner epoch scanSeq maxDelete) f := by
  refine .bind .attempt fun _ => .bind (.query _) fun _ => .ite (.pure _)
    (.bind .attempt fun safeSeq => ?_)
  cases safeSeq with
  | none => exact .pure _
  | some safeSeq =>
    exact .bind (.query _) fun _ => .bind .attempt fun _ => .bind (.query _) fun _ =>
      .reply (.forEach fun _ _ => .execute fun db => hf db _)

/-! ## Calls -/

namespace Operation

def isInboxCall : Operation δ → Bool
  | claimInputs _ _ _ | failClaim _ _ _ | parkTimeout _ | releaseTimeout _ _ | renewClaims _
  | releaseClaimLease _ | reserveProcessingSlot _ | renewProcessingSlots _
  | releaseProcessingSlot _ | completeClaim _ | retryEvent _ _ | purgeExpired _
  | makeRoom _ => true
  | _ => false

theorem inbox_keeps (hf : OffInbox f) (op : Operation δ) (hop : op.isInboxCall = true) :
    Keeps (op.run platform reducers now) f := by
  cases op with
  | claimInputs binding limit tokens => exact .reply (claimInputs_keeps hf _ _ _)
  | failClaim claim code retryAt =>
    exact .reply (.immediate (.bind (requireClaim_keeps _ _) fun _ =>
      .bind (.execute fun db => hf.inbox db _) fun _ =>
      .reply (releaseProcessingSlot_keeps hf _)))
  | parkTimeout | releaseTimeout =>
    exact .reply (.bind (.query _) fun _ => .reply (.execute fun db => hf.inbox db _))
  | renewClaims claims =>
    exact .reply (.immediate (.reply (.forEach fun _ _ => .bind (renewLease_keeps hf _) fun _ =>
      .execute fun db => hf.inbox db _)))
  | releaseClaimLease | releaseProcessingSlot => exact .reply (releaseProcessingSlot_keeps hf _)
  | reserveProcessingSlot token =>
    exact .reply (.immediate (.bind (dropExpiredLeases_keeps hf) fun _ => .bind (.query _)
      fun _ => .ite (.pure _) (.reply (insertLease_keeps hf _))))
  | renewProcessingSlots slots => exact .reply (.forEach fun _ _ => renewLease_keeps hf _)
  | completeClaim claim => exact .reply (completeClaim_keeps hf _)
  | retryEvent owner eventId =>
    exact .reply (.bind .refuseIf fun _ => .bind (.query _) fun _ =>
      .reply (.execute fun db => hf.inbox db _))
  | purgeExpired limit =>
    exact .reply (.bind .refuseIf fun _ => .immediate (.reply (deleteOldest_keeps hf _ _)))
  | makeRoom additional =>
    exact .reply (.immediate (.reply (makeRoom_keeps hf _ _)))
  | _ => cases hop

end Operation

theorem retainBootstrapReceivePosition_owner (input : BootstrapApplyInput) :
    Returns (retainBootstrapReceivePosition input : LocalM δ _) fun retained _ =>
      retained.state.ownerIdentityId = input.state.ownerIdentityId := by
  refine .bind fun binding => .bind fun previous => ?_
  match binding, previous with
  | none, _ => exact .pure fun _ => rfl
  | some _, none => exact .pure fun _ => rfl
  | some binding, some previous =>
    refine .ite (.pure fun _ => rfl) (.bind fun _ => .ite (.pure fun _ => rfl)
      (.bind fun _ => .bind fun _ => .pure fun _ => ?_))
    dsimp only
    split <;> rfl

section Receive

variable (hf : OffInbox f)
include hf

theorem receiveOrdinary_keeps (hc : OffCursor f) (page : OrdinaryReceiveBatch) :
    Keeps (receiveOrdinary platform page now) f := by
  refine .immediate (.bind (requireBinding_keeps _) fun _ =>
    .bind (requireMessageSyncRunGeneration_keeps _ _) fun _ => .bind (.query _) fun _ =>
    .bind .refuseIf fun _ => .bind (loadMessageSyncState_keeps _) fun access => ?_)
  cases access with
  | bootstrapRequired fence => exact .throw
  | ready current =>
    refine .bind .refuseIf fun _ => .bind .attempt fun _ => .bind .refuseIf fun _ =>
      .bind (examineEvents_keeps _ _ _ _ _) fun _ => .bind (makeRoom_keeps hf _ _) fun _ =>
      .bind (.forEach fun _ _ => insertInput_keeps hf _ _ _ _ _) fun _ =>
      .bind (advanceMessageSyncState_keeps hc _) fun advanced => ?_
    cases advanced with
    | bootstrapRequired fence => exact .throw
    | ready state => exact .pure _

theorem receiveSnapshot_keeps (hc : OffLanes f) {checkpoint : SnapshotApplyInput} {unixTime : Int}
    (hcursor : Keeps (upsertBootstrapState (snapshotSyncState platform checkpoint unixTime)) f)
    (binding : IdentityAccountBinding) (installation : String) (baseline : Baseline)
    (events : List InboxEvent) (draw : Nat) :
    Keeps (receiveSnapshot platform checkpoint binding installation baseline events draw now
      unixTime) f :=
  .immediate (.bind (validateSnapshotReceive_keeps _) fun _ => .bind .refuseIf fun _ =>
    .bind (insertBaselineAndEvents_keeps hf _ _ _ _ _ _ _) fun _ =>
    .reply (commitSnapshotReceiveState_keeps hc hcursor))

theorem receiveBootstrap_keeps (hc : OffLanes f) {input : BootstrapApplyInput}
    (hcursor : ∀ state : MessageSyncState, state.ownerIdentityId = input.state.ownerIdentityId →
      Keeps (upsertBootstrapState state) f) (baseline : Baseline) (expectedRunGeneration : Int)
    (draw : Nat) :
    Keeps (receiveBootstrap platform input baseline expectedRunGeneration draw now) f :=
  .immediate (.bind (requireMessageSyncRunGeneration_keeps _ _) fun _ => .bind .refuseIf fun _ =>
    (retainBootstrapReceivePosition_owner input).bind_keeps
      (retainBootstrapReceivePosition_keeps _) fun retained howner =>
    .bind (applyBootstrap_keeps hc (hcursor retained.state howner)) fun _ =>
    .reply (insertBaselineAndEvents_keeps hf _ _ _ _ _ _ _))

theorem commitSyncLaneHandoff_keeps (hc : OffLanes f) (input : SyncLaneHandoffInput) :
    Keeps (commitSyncLaneHandoff platform input now) f := by
  refine .bind .attempt fun _ => .bind .refuseIf fun _ => .immediate
    (.bind (validateSyncLaneHandoffBinding_keeps _) fun _ => .bind (.query _) fun existing => ?_)
  cases existing with
  | some row =>
    exact .bind .refuseIf fun _ => .bind (advanceLaneSyncState_keeps hc _) fun _ =>
      .reply (clearLaneTransportError_keeps hc _ _ _)
  | none =>
    exact .bind (.query _) fun _ => .bind .refuseIf fun _ => .bind (makeRoom_keeps hf _ _)
      fun _ => .bind (insertInboxRow_keeps hf _) fun _ =>
      .bind (advanceLaneSyncState_keeps hc _) fun _ =>
      .reply (clearLaneTransportError_keeps hc _ _ _)

end Receive

/-! ## Projections -/

section Projections

variable (hr : OffReceipts f) (hd : ∀ db domain, f { db with domain := domain } = f db)
include hr hd

theorem reduceDeltaEvents_keeps (input : DeltaApplyInput) (unixTime : Int)
    (progress : DeltaProgress) (events : List DeltaApplyEvent) :
    Keeps (reduceDeltaEvents reducers input unixTime progress events) f := by
  induction events generalizing progress with
  | nil => exact .pure _
  | cons event rest ih =>
    exact .bind (.bind (recordAppliedEvent_keeps hr _) fun _ =>
      .ite (.pure _) (projectDeltaEvent_keeps hd _ _ _ _)) fun _ => ih _

variable (hf : OffInbox f)
include hf

theorem applyOrdinaryClaimWith_keeps (claim : InputClaim) (input : DeltaApplyInput)
    (unixTime : Int) (commitDomain : δ → Except ImError δ) :
    Keeps (applyOrdinaryClaimWith platform reducers claim input now unixTime commitDomain) f :=
  .bind .refuseIf fun _ => .immediate (.bind (requireClaim_keeps _ _) fun _ =>
    .bind (.query _) fun _ => .bind .refuseIf fun _ =>
    .bind (.bind (reduceDeltaEvents_keeps hr hd _ _ _ _) fun _ =>
      commitDeltaProgress_keeps hd _ _ _) fun _ =>
    .bind (domainWrite_keeps hd _) fun _ => .reply (completeClaim_keeps hf _))

theorem applyBaselineClaim_keeps (claim : InputClaim) (baseline : Baseline)
    (groups : List GroupRecord) (readStates : List ReadStateApply) :
    Keeps (applyBaselineClaim platform reducers claim baseline groups readStates now) f :=
  .immediate (.bind (requireClaim_keeps _ _) fun _ =>
    .bind (replaceProjection_keeps hd _ _ _ _) fun _ => .bind (.query _) fun _ =>
    .bind (.forEach fun _ _ => applyBaselineGroup_keeps hd _ _) fun _ =>
    .bind (.forEach fun _ _ => domainWrite_keeps hd _) fun _ =>
    .bind (recordAppliedEvent_keeps hr _) fun _ => .reply (completeClaim_keeps hf _))

end Projections

namespace Operation

def isDomainCall : Operation δ → Bool
  | applyOrdinaryClaimWith _ _ _ _ | applySecureClaim _ _ _ | applyBaselineClaim _ _ _ _
  | writeLaneDomainState _ | writeDomain _ => true
  | _ => false

def isProjection : Operation δ → Bool
  | applyOrdinaryClaimWith _ _ _ _ | applyBaselineClaim _ _ _ _ => true
  | _ => false

def isCursorCall : Operation δ → Bool
  | receiveOrdinary _ | receiveSnapshot _ _ _ _ _ _ _ | receiveBootstrap _ _ _ _
  | commitSyncLaneHandoff _ | upsertIdentityAccountBinding _ | upsertRecoveryState _ => true
  | _ => false

theorem cursor_keeps (hf : OffInbox f) (hc : OffCursor f) (op : Operation δ)
    (hop : op.isCursorCall = true) : Keeps (op.run platform reducers now) f := by
  cases op with
  | receiveOrdinary => exact .reply (receiveOrdinary_keeps hf hc _)
  | receiveSnapshot =>
    exact .reply (receiveSnapshot_keeps hf hc.toOffLanes (upsertBootstrapState_keeps hc _) _ _ _ _ _)
  | receiveBootstrap =>
    exact .reply (receiveBootstrap_keeps hf hc.toOffLanes
      (fun _ _ => upsertBootstrapState_keeps hc _) _ _ _)
  | commitSyncLaneHandoff => exact .reply (commitSyncLaneHandoff_keeps hf hc.toOffLanes _)
  | upsertIdentityAccountBinding binding =>
    exact .reply (.immediate (.reply (upsertIdentityAccountBinding_keeps hc.bindings hc.cutovers _)))
  | upsertRecoveryState state => exact .reply (upsertRecoveryState_keeps hc.toOffLanes _)
  | _ => cases hop

theorem keeps_of_domainCall (hf : OffInbox f)
    (hd : ∀ db domain, f { db with domain := domain } = f db) (op : Operation δ)
    (hop : op.isDomainCall = true) (hprojection : op.isProjection = false) :
    Keeps (op.run platform reducers now) f := by
  have state (domainState : LaneDomainState δ) :
      Keeps (LocalState.writeLaneDomainState domainState now) f :=
    .bind (.query _) fun _ => .bind .orError fun _ => .bind .refuseIf fun _ =>
      .bind (domainWrite_keeps hd _) fun _ => .execute fun db => hf.inbox db _
  cases op with
  | applySecureClaim claim project outcome =>
    refine .reply (.immediate (.bind (requireClaim_keeps _ _) fun _ =>
      .bind (domainWrite_keeps hd _) fun _ => .bind ?_ fun _ =>
      .reply (completeClaim_keeps hf _)))
    cases outcome with
    | none => exact .pure _
    | some domainState => exact state domainState
  | writeLaneDomainState domainState =>
    exact .reply (.immediate (.reply (state domainState)))
  | writeDomain write => exact .reply (domainWrite_keeps hd _)
  | applyOrdinaryClaimWith | applyBaselineClaim => cases hprojection
  | _ => cases hop

def isRunCall : Operation δ → Bool
  | beginMessageSyncRun _ | finishMessageSyncRun _ => true
  | _ => false

theorem keeps_of_not_cursorCall (hf : OffInbox f) (hr : OffReceipts f)
    (hd : ∀ db domain, f { db with domain := domain } = f db) (op : Operation δ)
    (hcursor : op.isCursorCall = false) (hrun : op.isRunCall = false) :
    Keeps (op.run platform reducers now) f := by
  cases op with
  | receiveOrdinary | receiveSnapshot | receiveBootstrap | commitSyncLaneHandoff
  | upsertIdentityAccountBinding | upsertRecoveryState => cases hcursor
  | beginMessageSyncRun | finishMessageSyncRun => cases hrun
  | applyOrdinaryClaimWith => exact .reply (applyOrdinaryClaimWith_keeps hr hd hf _ _ _ _)
  | applyBaselineClaim => exact .reply (applyBaselineClaim_keeps hr hd hf _ _ _ _)
  | applySecureClaim | writeLaneDomainState | writeDomain =>
    exact keeps_of_domainCall hf hd _ rfl rfl
  | pruneAppliedEvents => exact .reply (pruneAppliedEvents_keeps hr _ _ _ _)
  | _ => exact inbox_keeps hf _ rfl

end Operation

end LocalState
end Awiki

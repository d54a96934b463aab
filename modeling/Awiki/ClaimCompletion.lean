import Awiki.SyncRuns

/-!
# What a completed claim leaves behind

A call that ends an attempt starts with the check of its claim, so it succeeds only
for a live one.  A call that completes a claim ends with the deletion of its row, after
the digest of its payload was written to the receipt.
-/

namespace Awiki
namespace LocalState

open Tx

variable {δ : Type} {platform : Platform} {reducers : DomainReducers δ} {now : Int}

/-! ## The check of the claim -/

def Operation.fenced : Operation δ → Option InputClaim
  | failClaim claim _ _ => some claim
  | op => op.completes

variable {op : Operation δ} {claim : InputClaim} {α : Type} {s t : Db δ}
  {owner eventId epoch : String}

theorem Operation.fenced_of_completes (h : op.completes = some claim) : op.fenced = some claim := by
  cases op with
  | failClaim => cases h
  | _ => exact h

theorem live_of_bind {f : Unit → LocalM δ α} {a : α}
    (h : (requireClaim claim now >>= f).run s = .ok a t) : ∃ row, LiveClaim s claim now row := by
  obtain ⟨_, u, hcheck, -⟩ := bind_ok.mp h
  exact claimIsLive_iff.mp (requireClaim_ok.mp hcheck).1

theorem live_of_immediate {f : Unit → LocalM δ (Ending α)} {a : α}
    (h : (immediate (requireClaim claim now >>= f)).run s = .ok a t) :
    ∃ row, LiveClaim s claim now row := by
  rcases immediate_ok.mp h with hcommit | ⟨-, v, hrollback⟩
  · exact live_of_bind hcommit
  · exact live_of_bind hrollback

theorem Operation.live_of_ok (hop : op.fenced = some claim) {reply : Reply}
    (h : (op.run platform reducers now).run s = .ok reply t) :
    ∃ row, LiveClaim s claim now row := by
  cases op with
  | failClaim c code retryAt =>
    cases hop
    obtain ⟨_, u, hrun, -⟩ := bind_ok.mp h
    exact live_of_immediate hrun
  | completeClaim c =>
    cases hop
    obtain ⟨_, u, hrun, -⟩ := bind_ok.mp h
    exact live_of_bind hrun
  | applySecureClaim c project outcome =>
    cases hop
    obtain ⟨_, u, hrun, -⟩ := bind_ok.mp h
    exact live_of_immediate hrun
  | applyBaselineClaim c baseline groups readStates =>
    cases hop
    obtain ⟨_, u, hrun, -⟩ := bind_ok.mp h
    exact live_of_immediate hrun
  | applyOrdinaryClaimWith c input unixTime commitDomain =>
    cases hop
    obtain ⟨_, u, hrun, -⟩ := bind_ok.mp h
    obtain ⟨-, htx⟩ := refuseIf_bind_ok.mp hrun
    exact live_of_immediate htx
  | _ => cases hop

/-! ## The last statements -/

/-- The tables after `complete_claim`. -/
structure Finished (platform : Platform) (claim : InputClaim) (db : Db δ) : Prop where
  removed : ∀ row ∈ db.syncLaneInbox, row.holds claim = false
  digest : claim.lane.isLocal = true → ∀ receipt ∈ db.syncAppliedEvents,
    receipt.isOf claim.ownerIdentityId claim.eventId = true →
      receipt.payloadHash = some (payloadHash platform claim.lane claim.payload)
  laneReceipt : ∀ lane, claim.lane = .secure lane → ∃ receipt ∈ db.syncLaneAppliedEvents,
    receipt.ownerIdentityId = claim.ownerIdentityId ∧ receipt.lane = lane ∧
      receipt.eventId = claim.eventId ∧
      receipt.payloadHash = some (payloadHash platform claim.lane claim.payload)

theorem writeReceiptHash_local (hlocal : claim.lane.isLocal = true) {v : Unit}
    (h : (writeReceiptHash platform claim now).run s = .ok v t) :
    ∀ receipt ∈ t.syncAppliedEvents, receipt.isOf claim.ownerIdentityId claim.eventId = true →
      receipt.payloadHash = some (payloadHash platform claim.lane claim.payload) := by
  intro receipt hreceipt hkey
  unfold writeReceiptHash at h
  split at h
  case h_3 lane hlane => simp [hlane, Lane.isLocal] at hlocal
  case h_1 | h_2 =>
    rw [← execute_ok.mp h] at hreceipt
    obtain ⟨old, -, heq⟩ := Rows.mem_updateWhere.mp hreceipt
    by_cases hold : old.isOf claim.ownerIdentityId claim.eventId = true
    · rw [← heq, if_pos hold]
    · rw [if_neg hold] at heq
      exact absurd (heq ▸ hkey) hold

theorem writeReceiptHash_secure {lane : SyncLane} (hlane : claim.lane = .secure lane) {v : Unit}
    (h : (writeReceiptHash platform claim now).run s = .ok v t) :
    ∃ receipt ∈ t.syncLaneAppliedEvents, receipt.ownerIdentityId = claim.ownerIdentityId ∧
      receipt.lane = lane ∧ receipt.eventId = claim.eventId ∧
      receipt.payloadHash = some (payloadHash platform claim.lane claim.payload) := by
  unfold writeReceiptHash at h
  split at h
  case h_1 hother => rw [hother] at hlane; cases hlane
  case h_2 hother => rw [hother] at hlane; cases hlane
  case h_3 lane' hother =>
    obtain rfl : lane' = lane := by
      rw [hother] at hlane
      exact Lane.secure.inj hlane
    obtain ⟨known, -, hrest⟩ := query_bind_ok.mp h
    obtain ⟨refused, -, hcheck⟩ := query_bind_ok.mp hrest
    obtain ⟨-, hwrite⟩ := refuseIf_bind_ok.mp hcheck
    rw [← execute_ok.mp hwrite]
    simp only [Rows.upsertWhere]
    split
    · rename_i hknown
      obtain ⟨old, hold, hsame⟩ := List.any_eq_true.mp hknown
      refine ⟨{ old with payloadHash := (laneReceipt platform claim lane' now).payloadHash },
        Rows.mem_updateWhere_of_pos (f := fun stored => { stored with
          payloadHash := (laneReceipt platform claim lane' now).payloadHash }) hold hsame, ?_⟩
      simpa [LaneAppliedEvent.sameEvent, laneReceipt, and_assoc] using hsame
    · exact ⟨laneReceipt platform claim lane' now, List.mem_append_right _ List.mem_cons_self,
        rfl, rfl, rfl, rfl⟩

theorem wakeScope_keeps {γ : Type} {f : Db δ → γ}
    (hf : ∀ db rows, f { db with syncLaneInbox := rows } = f db) (claim : InputClaim) :
    Keeps (wakeScope claim now) f := by
  unfold wakeScope
  split
  case h_1 | h_2 => exact .pure ()
  case h_3 => exact .bind (.query _) fun _ => .execute fun db => hf db _

theorem completeClaim_finished (claim : InputClaim) :
    Returns (completeClaim platform claim now : LocalM δ _) fun _ => Finished platform claim := by
  intro s v t h
  obtain ⟨_, s₁, -, hrest⟩ := bind_ok.mp h
  obtain ⟨_, s₂, hwrite, hrest⟩ := bind_ok.mp hrest
  obtain ⟨_, s₃, hwake, hdelete⟩ := bind_ok.mp hrest
  obtain rfl := execute_ok.mp hdelete
  have hreceipts : s₃.syncAppliedEvents = s₂.syncAppliedEvents :=
    wakeScope_keeps (f := Db.syncAppliedEvents) (fun _ _ => rfl) claim _ _ _ hwake
  have hlane : s₃.syncLaneAppliedEvents = s₂.syncLaneAppliedEvents :=
    wakeScope_keeps (f := Db.syncLaneAppliedEvents) (fun _ _ => rfl) claim _ _ _ hwake
  refine ⟨fun row hrow => (Rows.mem_deleteWhere.mp hrow).2, ?_, ?_⟩
  · intro hlocal receipt hreceipt
    exact writeReceiptHash_local hlocal hwrite receipt (hreceipts ▸ hreceipt)
  · intro lane hsecure
    obtain ⟨receipt, hreceipt, hfacts⟩ := writeReceiptHash_secure hsecure hwrite
    exact ⟨receipt, hlane ▸ hreceipt, hfacts⟩

theorem Operation.finished_of_ok (hop : op.completes = some claim) :
    Returns (op.run platform reducers now) fun _ => Finished platform claim := by
  have last : ∀ {α : Type} (a : α), Returns (do
      LocalState.completeClaim platform claim now
      pure (.commit a) : LocalM δ (Ending α)) fun ending t =>
        ∃ a, ending = .commit a ∧ Finished platform claim t :=
    fun a => .map_pure ((completeClaim_finished claim).mono fun _ _ h => ⟨a, rfl, h⟩)
  cases op with
  | completeClaim c =>
    cases hop
    exact .map_pure (completeClaim_finished claim)
  | applySecureClaim c project outcome =>
    cases hop
    exact .map_pure (.immediate (.bind fun _ => .bind fun _ => .bind fun _ => last ()))
  | applyBaselineClaim c baseline groups readStates =>
    cases hop
    exact .map_pure (.immediate (.bind fun _ => .bind fun _ => .bind fun _ => .bind fun _ =>
      .bind fun _ => .bind fun _ => last _))
  | applyOrdinaryClaimWith c input unixTime commitDomain =>
    cases hop
    exact .map_pure (.bind fun _ => .immediate (.bind fun _ => .bind fun _ => .bind fun _ =>
      .bind fun _ => .bind fun _ => last _))
  | _ => cases hop

/-! ## Receipts -/

def Db.HasReceipt (db : Db δ) (owner eventId epoch : String) : Prop :=
  ∃ receipt ∈ db.syncAppliedEvents,
    receipt.isOf owner eventId = true ∧ receipt.streamEpoch = epoch

theorem recordAppliedEvent_hasReceipt (receipt : AppliedEvent) :
    Returns (recordAppliedEvent receipt : LocalM δ _) fun _ db =>
      db.HasReceipt receipt.ownerIdentityId receipt.eventId receipt.streamEpoch := by
  refine .bind fun _ s inserted t h => ?_
  obtain ⟨stored, hstored, hcases⟩ := query_bind_ok.mp h
  cases stored with
  | some row =>
    obtain ⟨hsame, hpure⟩ := refuseIf_bind_ok.mp hcases
    obtain ⟨-, rfl⟩ := pure_ok.mp hpure
    rw [Bool.or_eq_false_iff] at hsame
    have hkey := List.find?_some hstored
    exact ⟨row, List.mem_of_find?_eq_some hstored, hkey, by simpa using hsame.1⟩
  | none =>
    have hpure := execute_bind_ok.mp hcases
    obtain ⟨-, rfl⟩ := pure_ok.mp hpure
    exact ⟨_, List.mem_append_right _ List.mem_cons_self, by simp [AppliedEvent.isOf], rfl⟩

theorem hasReceipt_step {action : Action} (haction : CompletionAction platform claim action)
    (h : s.HasReceipt owner eventId epoch) (hstep : Action.Step now s action t) :
    t.HasReceipt owner eventId epoch := by
  obtain ⟨receipt, hreceipt, hkey, hepoch⟩ := h
  unfold Db.HasReceipt
  rw [hstep.receipts]
  cases action with
  | receipt row => exact ⟨receipt, List.mem_append_left _ hreceipt, hkey, hepoch⟩
  | digest c hash =>
    by_cases hmine : receipt.isOf c.ownerIdentityId c.eventId = true
    · exact ⟨{ receipt with payloadHash := some hash },
        Rows.mem_updateWhere_of_pos (f := fun receipt => { receipt with
          payloadHash := some hash }) hreceipt hmine, hkey, hepoch⟩
    · exact ⟨receipt, Rows.mem_updateWhere_of_not hreceipt (by simpa using hmine), hkey, hepoch⟩
  | forget owner eventId => exact haction.elim
  | _ => exact ⟨receipt, hreceipt, hkey, hepoch⟩

theorem hasReceipt_preserves (platform : Platform) (claim : InputClaim) (now : Int) {x : LocalM δ α}
    (hx : Logs (Action.Step now) x fun _ => CompletionAction platform claim) :
    Preserves (fun db => db.HasReceipt owner eventId epoch) x :=
  hx.preserves fun _ _ _ _ => hasReceipt_step

theorem reduceDeltaEvents_hasReceipt (platform : Platform) (claim : InputClaim)
    (input : DeltaApplyInput) (unixTime : Int) (events : List DeltaApplyEvent)
    (progress : DeltaProgress) :
    Returns (reduceDeltaEvents reducers input unixTime progress events) fun _ db =>
      ∀ event ∈ events, db.HasReceipt input.ownerIdentityId event.eventId input.streamEpoch := by
  induction events generalizing progress with
  | nil => exact .pure (by simp)
  | cons event rest ih =>
    intro s a t h
    obtain ⟨progress', u, hhead, htail⟩ := bind_ok.mp h
    have hfirst : u.HasReceipt input.ownerIdentityId event.eventId input.streamEpoch := by
      refine Returns.bind_preserves (recordAppliedEvent_hasReceipt _) (fun inserted => ?_)
        s progress' u hhead
      exact hasReceipt_preserves platform claim unixTime (.ite (.pure _)
        (completion_of_keeps platform claim
          (projectDeltaEvent_keeps receiveTables_domain _ _ _ _)))
    intro event' hevent'
    rcases List.mem_cons.mp hevent' with rfl | hevent'
    · exact hasReceipt_preserves platform claim unixTime
        (reduceDeltaEvents_logs platform claim _ _ _ _ _) u a t hfirst htail
    · exact ih progress' u a t htail event' hevent'

theorem applyDeltaEvents_hasReceipt (reducers : DomainReducers δ) (platform : Platform)
    (claim : InputClaim) (input : DeltaApplyInput) (unixTime : Int) {event : DeltaApplyEvent}
    (hevent : event ∈ input.events) :
    Returns (applyDeltaEvents reducers input unixTime) fun _ db =>
      db.HasReceipt input.ownerIdentityId event.eventId input.streamEpoch := by
  refine Returns.bind_preserves ((reduceDeltaEvents_hasReceipt platform claim input unixTime
    _ {}).mono ?_) fun progress => ?_
  · intro progress db h
    exact h event ((List.mem_insertionSort _).mpr hevent)
  · exact hasReceipt_preserves platform claim unixTime (completion_of_keeps platform claim
      (commitDeltaProgress_keeps receiveTables_domain _ _ _))

theorem applyOrdinaryClaimWith_hasReceipt (claim : InputClaim) (input : DeltaApplyInput)
    (unixTime : Int) (commitDomain : δ → Except ImError δ) :
    Returns (applyOrdinaryClaimWith platform reducers claim input now unixTime commitDomain)
      fun _ db => db.HasReceipt claim.ownerIdentityId claim.eventId claim.laneEpoch := by
  refine Returns.bind_refuseIf fun hsame => ?_
  have hmatch : ∃ event ∈ input.events, input.ownerIdentityId = claim.ownerIdentityId ∧
      event.eventId = claim.eventId ∧ input.streamEpoch = claim.laneEpoch := by
    unfold resultMismatch at hsame
    split at hsame
    · rename_i event hevents
      simp only [Bool.or_eq_false_iff, bne_eq_false_iff_eq] at hsame
      exact ⟨event, by simp [hevents], hsame.1.1.1.1.1.1.1.1.2, hsame.1.1.1.1.1.1.1.2,
        hsame.1.1.1.1.2⟩
    · cases hsame
  obtain ⟨event, hevent, howner, hid, hepoch⟩ := hmatch
  have hbody := applyDeltaEvents_hasReceipt reducers platform claim input unixTime hevent
  rw [howner, hid, hepoch] at hbody
  refine .immediate (.bind fun _ => .bind fun _ => .bind fun _ => ?_)
  intro s ending t hrun
  obtain ⟨outcome, u, hdelta, hrest⟩ := bind_ok.mp hrun
  have hreceipt : t.HasReceipt claim.ownerIdentityId claim.eventId claim.laneEpoch := by
    refine hasReceipt_preserves platform claim now ?_
      u ending t (hbody s outcome u hdelta) hrest
    exact .bind (completion_of_keeps _ _ (domainWrite_keeps receiveTables_domain _)) fun _ =>
      .bind (completeClaim_logs _ _) fun _ => .pure _
  obtain ⟨_, v, -, hrest⟩ := bind_ok.mp hrest
  obtain ⟨_, v, -, hpure⟩ := bind_ok.mp hrest
  exact ⟨outcome, (pure_ok.mp hpure).1.symm, hreceipt⟩

theorem applyBaselineClaim_hasReceipt (claim : InputClaim) (baseline : Baseline)
    (groups : List GroupRecord) (readStates : List ReadStateApply) :
    Returns (applyBaselineClaim platform reducers claim baseline groups readStates now)
      fun _ db => db.HasReceipt claim.ownerIdentityId claim.eventId claim.laneEpoch := by
  refine .immediate (.bind fun _ => .bind fun removed => .bind fun invalidation => .bind fun _ =>
    .bind fun _ => ?_)
  intro s ending t hrun
  obtain ⟨inserted, u, hrecord, hrest⟩ := bind_ok.mp hrun
  have hreceipt : t.HasReceipt claim.ownerIdentityId claim.eventId claim.laneEpoch := by
    refine hasReceipt_preserves platform claim now ?_
      u ending t (recordAppliedEvent_hasReceipt _ s inserted u hrecord) hrest
    exact .bind (completeClaim_logs _ _) fun _ => .pure _
  obtain ⟨_, v, -, hpure⟩ := bind_ok.mp hrest
  exact ⟨_, (pure_ok.mp hpure).1.symm, hreceipt⟩

theorem receiptHash_eq {db : Db δ} {hash : String} {lane : Lane}
    (hlane : lane.isLocal = true) (hreceipt : db.HasReceipt owner eventId epoch)
    (hdigest : ∀ receipt ∈ db.syncAppliedEvents, receipt.isOf owner eventId = true →
      receipt.payloadHash = some hash) :
    db.receiptHash owner lane epoch eventId = some hash := by
  obtain ⟨receipt, hmem, hkey, hepoch⟩ := hreceipt
  have hfind : (db.syncAppliedEvents.find? fun receipt => receipt.ownerIdentityId == owner &&
      receipt.eventId == eventId && receipt.streamEpoch == epoch).bind (·.payloadHash) =
      some hash := by
    cases hfound : db.syncAppliedEvents.find? fun receipt => receipt.ownerIdentityId == owner &&
        receipt.eventId == eventId && receipt.streamEpoch == epoch with
    | none =>
      have hnone := List.find?_eq_none.mp hfound receipt hmem
      rw [AppliedEvent.isOf] at hkey
      simp [hkey, hepoch] at hnone
    | some found =>
      have hprop := List.find?_some hfound
      rw [Bool.and_eq_true] at hprop
      exact hdigest found (List.mem_of_find?_eq_some hfound) hprop.1
  cases lane with
  | ordinary => exact hfind
  | baseline => exact hfind
  | secure lane => cases hlane

end LocalState
end Awiki

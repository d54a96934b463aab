import Awiki.ClaimSafety
import Awiki.ReceivedEvents

/-!
# Received events are accounted for

An accepted event stays a row of the inbox until it is completed or removed, and a
completed one stays on record with its digest until the record is pruned.  The
removals of a receive call and of `purge_expired` are returned to the caller.  Those
of `make_room` on behalf of a secure-lane input are not: an ordinary event may be
dropped without anyone being told.
-/

namespace Awiki
namespace LocalState

open Tx

variable {row' : InboxRow} {log : List Action} {action : Action}

section Runs

variable {δ : Type} {platform : Platform} {reducers : DomainReducers δ} {now : Int}

/-! ## What becomes of a row -/

variable {row : InboxRow} {s t db : Db δ} {op : Operation δ} {w : World δ}

theorem RemovedInput.ofRow_congr (h : row'.toInboxInput = row.toInboxInput) :
    ofRow row' = ofRow row := by
  unfold ofRow
  rw [h]

theorem row_fate (hrun : Run (Action.Step now) s log t)
    (hkey : Rows.UniqueKey (fun row : InboxRow => row.inputId) s.syncLaneInbox)
    (hrow : row ∈ s.syncLaneInbox) :
    (∃ row' ∈ t.syncLaneInbox, row'.toInboxInput = row.toInboxInput) ∨
      .evict (RemovedInput.ofRow row) ∈ log ∨
      ∃ claim, .finish claim ∈ log ∧ row.inputId = claim.inputId := by
  induction hrun generalizing row with
  | nil s => exact .inl ⟨row, hrow, rfl⟩
  | @cons s u t action log hstep hrest ih =>
    cases hkeeps : action.keepsRow row with
    | true =>
      have hsame := Action.updateRow_toInboxInput now action row
      have hmem : action.updateRow now row ∈ u.syncLaneInbox := by
        rw [hstep.inbox, Action.mem_updateInbox]
        exact .inl ⟨row, hrow, hkeeps, rfl⟩
      rcases ih (ClaimInvariant.inputKey_step hkey hstep) hmem with
        ⟨row', hrow', hinput⟩ | hevict | ⟨claim, hfinish, hid⟩
      · exact .inl ⟨row', hrow', hinput.trans hsame⟩
      · rw [RemovedInput.ofRow_congr hsame] at hevict
        exact .inr (.inl (List.mem_cons_of_mem _ hevict))
      · rw [hsame] at hid
        exact .inr (.inr ⟨claim, List.mem_cons_of_mem _ hfinish, hid⟩)
    | false =>
      cases action with
      | evict item =>
        have hof : item.isOf row = true := by simpa [Action.keepsRow] using hkeeps
        obtain ⟨source, hsource, rfl⟩ := hstep.guard row hrow hof
        simp only [RemovedInput.isOf, Bool.and_eq_true, beq_iff_eq] at hof
        have hrowEq : row = source := hkey.eq_of_key_eq hrow hsource hof.1
        exact .inr (.inl (hrowEq ▸ List.mem_cons_self))
      | finish claim =>
        have hholds : row.holds claim = true := by simpa [Action.keepsRow] using hkeeps
        simp only [InboxRow.holds, Bool.and_eq_true, beq_iff_eq] at hholds
        exact .inr (.inr ⟨claim, List.mem_cons_self, hholds.1.1⟩)
      | _ => cases hkeeps

theorem row_source (hrun : Run (Action.Step now) s log t) (hrow' : row' ∈ t.syncLaneInbox) :
    (∃ row ∈ s.syncLaneInbox, row'.toInboxInput = row.toInboxInput) ∨
      .queue row'.toInboxInput ∈ log := by
  induction hrun with
  | nil s => exact .inl ⟨row', hrow', rfl⟩
  | @cons s u t action log hstep hrest ih =>
    rcases ih hrow' with ⟨mid, hmid, hinput⟩ | hqueue
    · rcases hstep.mem_inbox hmid with ⟨row, hrow, rfl⟩ | ⟨_, rfl, rfl⟩
      · exact .inl ⟨row, hrow, hinput.trans (Action.updateRow_toInboxInput _ _ _)⟩
      · exact .inr (hinput ▸ List.mem_cons_self)
    · exact .inr (List.mem_cons_of_mem _ hqueue)

/-! ## What becomes of a receipt -/

def digestOf (receipts : List AppliedEvent) (owner epoch eventId : String) : Option String :=
  (receipts.find? fun receipt => receipt.isOf owner eventId && receipt.streamEpoch == epoch).bind
    (·.payloadHash)

theorem receiptHash_ordinary (db : Db δ) (owner epoch eventId : String) :
    db.receiptHash owner .ordinary epoch eventId =
      digestOf db.syncAppliedEvents owner epoch eventId :=
  rfl

section Receipts

variable {owner epoch eventId : String} {receipts : List AppliedEvent}

theorem isOf_other {receipt : AppliedEvent} {owner' eventId' : String}
    (h : receipt.isOf owner' eventId' = true) (hother : ¬ (owner' = owner ∧ eventId' = eventId)) :
    receipt.isOf owner eventId = false := by
  simp only [AppliedEvent.isOf, Bool.and_eq_true, beq_iff_eq] at h
  rw [Bool.eq_false_iff]
  intro hown
  simp only [AppliedEvent.isOf, Bool.and_eq_true, beq_iff_eq] at hown
  exact hother ⟨h.1.symm.trans hown.1, h.2.symm.trans hown.2⟩

theorem digestOf_append {row : AppliedEvent} (hnew : row.payloadHash = none) :
    digestOf (receipts ++ [row]) owner epoch eventId = digestOf receipts owner epoch eventId := by
  unfold digestOf
  rw [List.find?_append]
  cases hfound : receipts.find? fun receipt => receipt.isOf owner eventId &&
      receipt.streamEpoch == epoch with
  | some found => rfl
  | none =>
    by_cases hrow : (row.isOf owner eventId && row.streamEpoch == epoch) = true
    · simp [hrow, hnew]
    · simp [hrow]

theorem digestOf_updateWhere {owner' eventId' hash : String}
    (hother : ¬ (owner' = owner ∧ eventId' = eventId)) :
    digestOf (Rows.updateWhere (·.isOf owner' eventId')
      (fun receipt => { receipt with payloadHash := some hash }) receipts) owner epoch eventId =
        digestOf receipts owner epoch eventId := by
  unfold digestOf
  induction receipts with
  | nil => rfl
  | cons receipt receipts ih =>
    by_cases hmine : receipt.isOf owner' eventId' = true
    · have hskip := isOf_other hmine hother
      have hskip' : ({ receipt with payloadHash := some hash } : AppliedEvent).isOf owner
          eventId = false := hskip
      simpa [Rows.updateWhere, hmine, hskip, hskip'] using ih
    · by_cases hfound : (receipt.isOf owner eventId && receipt.streamEpoch == epoch) = true
      · simp [Rows.updateWhere, hmine, hfound]
      · simpa [Rows.updateWhere, hmine, hfound] using ih

theorem digestOf_deleteWhere (receipts : List AppliedEvent)
    (owner epoch eventId owner' eventId' : String) :
    digestOf (Rows.deleteWhere (·.isOf owner' eventId') receipts) owner epoch eventId =
      if owner' = owner ∧ eventId' = eventId then none
      else digestOf receipts owner epoch eventId := by
  unfold digestOf
  split
  · rename_i hsame
    obtain ⟨rfl, rfl⟩ := hsame
    have hnone : (Rows.deleteWhere (fun receipt : AppliedEvent => receipt.isOf owner' eventId')
        receipts).find? (fun receipt => receipt.isOf owner' eventId' &&
          receipt.streamEpoch == epoch) = none := by
      rw [List.find?_eq_none]
      intro receipt hreceipt
      have hkept := (Rows.mem_deleteWhere.mp hreceipt).2
      simp [hkept]
    rw [hnone]
    rfl
  · rename_i hother
    induction receipts with
    | nil => rfl
    | cons receipt receipts ih =>
      by_cases hmine : receipt.isOf owner' eventId' = true
      · have hskip := isOf_other hmine hother
        simpa [Rows.deleteWhere, hmine, hskip] using ih
      · by_cases hfound : (receipt.isOf owner eventId && receipt.streamEpoch == epoch) = true
        · simp [Rows.deleteWhere, hmine, hfound]
        · simpa [Rows.deleteWhere, hmine, hfound] using ih

theorem digestOf_step (owner epoch eventId : String) {s t : Db δ}
    (hstep : Action.Step now s action t) :
    digestOf t.syncAppliedEvents owner epoch eventId =
        digestOf s.syncAppliedEvents owner epoch eventId ∨
      (action = .forget owner eventId ∧ digestOf t.syncAppliedEvents owner epoch eventId = none) ∨
      ∃ claim hash, action = .digest claim hash ∧ claim.ownerIdentityId = owner ∧
        claim.eventId = eventId := by
  rw [hstep.receipts]
  cases action with
  | receipt row => exact .inl (digestOf_append hstep.guard.1)
  | digest claim hash =>
    by_cases hmine : claim.ownerIdentityId = owner ∧ claim.eventId = eventId
    · exact .inr (.inr ⟨claim, hash, rfl, hmine⟩)
    · exact .inl (digestOf_updateWhere hmine)
  | forget owner' eventId' =>
    have hdeleted := digestOf_deleteWhere s.syncAppliedEvents owner epoch eventId owner' eventId'
    by_cases hmine : owner' = owner ∧ eventId' = eventId
    · rw [if_pos hmine] at hdeleted
      obtain ⟨rfl, rfl⟩ := hmine
      exact .inr (.inl ⟨rfl, hdeleted⟩)
    · rw [if_neg hmine] at hdeleted
      exact .inl hdeleted
  | _ => exact .inl rfl

theorem digest_fate (owner epoch eventId : String) {s t : Db δ}
    (hrun : Run (Action.Step now) s log t) :
    digestOf t.syncAppliedEvents owner epoch eventId =
        digestOf s.syncAppliedEvents owner epoch eventId ∨
      (.forget owner eventId ∈ log ∧ digestOf t.syncAppliedEvents owner epoch eventId = none) ∨
      ∃ claim hash, .digest claim hash ∈ log ∧ claim.ownerIdentityId = owner ∧
        claim.eventId = eventId := by
  induction hrun with
  | nil s => exact .inl rfl
  | @cons s u t action log hstep hrest ih =>
    rcases ih with hsame | ⟨hforget, hnone⟩ | ⟨claim, hash, hdigest, hkey⟩
    · rcases digestOf_step owner epoch eventId hstep with hfirst | ⟨rfl, hnone⟩ | ⟨claim, hash, rfl, hkey⟩
      · exact .inl (hsame.trans hfirst)
      · exact .inr (.inl ⟨List.mem_cons_self, hsame.trans hnone⟩)
      · exact .inr (.inr ⟨claim, hash, List.mem_cons_self, hkey⟩)
    · exact .inr (.inl ⟨List.mem_cons_of_mem _ hforget, hnone⟩)
    · exact .inr (.inr ⟨claim, hash, List.mem_cons_of_mem _ hdigest, hkey⟩)

end Receipts

/-! ## The invariant of rows and receipts -/

def IsMarkerId (eventId : String) : Prop :=
  ∃ position, eventId = "local-sync-baseline:" ++ position

structure ReceiptInvariant (db : Db δ) : Prop where
  eventKey : Rows.UniqueKey (fun row : InboxRow =>
    (row.ownerIdentityId, row.lane, row.laneEpoch, row.eventId)) db.syncLaneInbox
  receiptKey : Rows.UniqueKey (fun receipt : AppliedEvent =>
    (receipt.ownerIdentityId, receipt.eventId)) db.syncAppliedEvents
  fresh : ∀ row ∈ db.syncLaneInbox, row.lane = .ordinary →
    digestOf db.syncAppliedEvents row.ownerIdentityId row.laneEpoch row.eventId = none
  markerId : ∀ row ∈ db.syncLaneInbox, row.lane = .baseline → IsMarkerId row.eventId
  ordinaryId : ∀ row ∈ db.syncLaneInbox, row.lane = .ordinary → ¬ IsMarkerId row.eventId

theorem eventKey_step (h : Rows.UniqueKey (fun row : InboxRow =>
      (row.ownerIdentityId, row.lane, row.laneEpoch, row.eventId)) s.syncLaneInbox)
    (hstep : Action.Step now s action t) :
    Rows.UniqueKey (fun row : InboxRow =>
      (row.ownerIdentityId, row.lane, row.laneEpoch, row.eventId)) t.syncLaneInbox := by
  rw [hstep.inbox]
  refine Action.uniqueKey_updateInbox
    (f := fun input => (input.ownerIdentityId, input.lane, input.laneEpoch, input.eventId)) h ?_
  rintro input rfl row hrow heq
  have hrefused := hstep.guard.1
  simp only [inboxRowRefused, Bool.or_eq_false_iff, List.any_eq_false] at hrefused
  have hother := hrefused.1.1.1.1.1.1.1.1.1.1.1 row hrow
  simp only [Prod.mk.injEq] at heq
  simp [InboxInput.isEvent, heq.1, heq.2.1, heq.2.2.1, heq.2.2.2] at hother

theorem receiptKey_step (h : Rows.UniqueKey (fun receipt : AppliedEvent =>
      (receipt.ownerIdentityId, receipt.eventId)) s.syncAppliedEvents)
    (hstep : Action.Step now s action t) :
    Rows.UniqueKey (fun receipt : AppliedEvent =>
      (receipt.ownerIdentityId, receipt.eventId)) t.syncAppliedEvents := by
  rw [hstep.receipts]
  cases action with
  | receipt row =>
    refine h.append_singleton fun stored hstored heq => ?_
    have hfree := hstep.guard.2 stored hstored
    simp only [Prod.mk.injEq] at heq
    simp [AppliedEvent.isOf, heq.1, heq.2] at hfree
  | digest claim hash => exact h.updateWhere fun _ => rfl
  | forget owner eventId => exact h.deleteWhere _
  | _ => exact h

theorem hasReceipt_of_digest {owner epoch eventId hash : String}
    (h : digestOf db.syncAppliedEvents owner epoch eventId = some hash) :
    db.HasReceipt owner eventId epoch := by
  obtain ⟨receipt, hfound, -⟩ := Option.bind_eq_some_iff.mp h
  have hkey := List.find?_some hfound
  rw [Bool.and_eq_true, beq_iff_eq] at hkey
  exact ⟨receipt, List.mem_of_find?_eq_some hfound, hkey.1, hkey.2⟩

theorem hasReceipt_unique {owner eventId epoch epoch' : String}
    (hkey : Rows.UniqueKey (fun receipt : AppliedEvent =>
      (receipt.ownerIdentityId, receipt.eventId)) db.syncAppliedEvents)
    (h : db.HasReceipt owner eventId epoch) (h' : db.HasReceipt owner eventId epoch') :
    epoch = epoch' := by
  obtain ⟨receipt, hmem, hof, rfl⟩ := h
  obtain ⟨receipt', hmem', hof', rfl⟩ := h'
  simp only [AppliedEvent.isOf, Bool.and_eq_true, beq_iff_eq] at hof hof'
  have hsame : receipt = receipt' := hkey.eq_of_key_eq hmem hmem' (by
    simp only [Prod.mk.injEq]
    exact ⟨hof.1.trans hof'.1.symm, hof.2.trans hof'.2.symm⟩)
  rw [hsame]

/-! ## Removals -/

def Operation.reports : Operation δ → Bool
  | receiveOrdinary _ | receiveSnapshot _ _ _ _ _ _ _ | receiveBootstrap _ _ _ _
  | purgeExpired _ => true
  | _ => false

def Operation.discarded (op : Operation δ) (db : Db δ) (now : Int) : List InboxRow :=
  match op with
  | commitSyncLaneHandoff input => db.handoffRoom input now
  | makeRoom additional => db.roomRows additional now
  | _ => []

theorem Operation.removed_cases {reply : Reply}
    (h : (op.run platform reducers now).run s = .ok reply t) {item : RemovedInput}
    (hitem : item ∈ reply.removed ++ op.silent s now) :
    (op.reports = true ∧ item ∈ reply.removed) ∨
      ∃ row ∈ op.discarded s now, RemovedInput.ofRow row = item := by
  cases op with
  | receiveOrdinary | receiveSnapshot | receiveBootstrap | purgeExpired =>
    exact .inl ⟨rfl, by simpa [silent] using hitem⟩
  | commitSyncLaneHandoff input =>
    obtain ⟨_, _, -, hpure⟩ := bind_ok.mp h
    obtain ⟨rfl, -⟩ := pure_ok.mp hpure
    exact .inr (by simpa [silent, discarded] using hitem)
  | makeRoom additional =>
    obtain ⟨removed, u, hroom, hpure⟩ := bind_ok.mp h
    obtain ⟨rfl, -⟩ := pure_ok.mp hpure
    rw [(makeRoom_ok (inTransaction_ok hroom)).1] at hitem
    exact .inr (by simpa [silent, discarded] using hitem)
  | _ =>
    obtain ⟨_, _, -, hpure⟩ := bind_ok.mp h
    obtain ⟨rfl, -⟩ := pure_ok.mp hpure
    simp [silent] at hitem

theorem mem_oldestRows {cutoff : Option Int} {limit : Nat} (h : row ∈ db.oldestRows cutoff limit) :
    row ∈ db.syncLaneInbox := by
  have hmem := List.mem_of_mem_take h
  rw [List.mem_insertionSort] at hmem
  exact (List.mem_filter.mp hmem).1

theorem mem_roomRows {additional : Nat} (h : row ∈ db.roomRows additional now) :
    row ∈ db.syncLaneInbox := by
  unfold Db.roomRows at h
  simp only at h
  split at h
  · rcases List.mem_append.mp h with h | h
    · exact mem_oldestRows h
    · exact (Db.mem_without.mp (mem_oldestRows h)).1
  · exact mem_oldestRows h

theorem mem_discarded (h : row ∈ op.discarded db now) : row ∈ db.syncLaneInbox := by
  cases op with
  | commitSyncLaneHandoff input =>
    simp only [Operation.discarded, Db.handoffRoom] at h
    split at h
    · cases h
    · exact mem_roomRows h
  | makeRoom additional => exact mem_roomRows h
  | _ => cases h

/-! ## Steps -/

/--
When a call loses no event: what it discards is not ordinary, it brings in no ordinary
event under the name of a marker, and the reducers of the secure lanes are given claims
of their own lanes.
-/
structure Event.Accountable (e : Event δ) (w : World δ) : Prop where
  discards : ∀ row ∈ e.op.discarded w.db e.now, row.lane ≠ .ordinary
  names : ∀ delivery ∈ e.op.deliveries, delivery.lane = .ordinary →
    ¬ IsMarkerId delivery.event.eventId
  lanes : ∀ claim, e.op.completes = some claim → e.op.isSecureReducer = true →
    claim.lane.isLocal = false

theorem Event.Accountable.of_names {e : Event δ}
    (hdiscards : e.op.discarded w.db e.now = []) (hsecure : e.op.isSecureReducer = false)
    (hnames : ∀ delivery ∈ e.op.deliveries, delivery.lane = .ordinary →
      ¬ IsMarkerId delivery.event.eventId) : e.Accountable w := by
  refine ⟨?_, hnames, ?_⟩
  · simp [hdiscards]
  · simp [hsecure]

theorem Operation.mem_claims_of_completes {claim : InputClaim} (h : op.completes = some claim) :
    claim ∈ op.claims := by
  cases op with
  | completeClaim | applyOrdinaryClaimWith | applySecureClaim | applyBaselineClaim =>
    cases h
    exact List.mem_cons_self
  | _ => cases h

section Steps

variable {w w' : World δ} {e : Event δ} {taken : List (InboxInput × String)}
  {slots : List String} {reply : Reply} {claim : InputClaim}

theorem completed_row (hinv : WorldInvariant w taken slots)
    (hstep : Step platform reducers w e w') (hok : e.outcome = .ok reply)
    (hcompletes : e.op.completes = some claim) :
    ∃ row ∈ w.db.syncLaneInbox, claim.Describes row.toInboxInput ∧
      ¬ w'.db.Queued row.inputId := by
  have hran := hstep.ran_ok hok
  obtain ⟨row, hlive⟩ := Operation.live_of_ok (Operation.fenced_of_completes hcompletes) hran
  obtain ⟨input, htaken, hdescribes⟩ :=
    hinv.handed claim (hstep.claims claim (Operation.mem_claims_of_completes hcompletes))
  obtain ⟨deadline, hattempt, -⟩ := hlive.attempt
  have hinput : row.toInboxInput = input :=
    hinv.claims.takenInput _ htaken row hlive.queued (by
      rw [InboxRow.attemptToken, hattempt]
      rfl)
  refine ⟨row, hlive.queued, hinput ▸ hdescribes, ?_⟩
  rw [hlive.input]
  exact (Operation.removes_of_completes hcompletes hran hinv.claims.inputKey).2

theorem rewritten_row (hinv : WorldInvariant w taken slots) (hrows : ReceiptInvariant w.db)
    (hstep : Step platform reducers w e w') (hcond : e.Accountable w)
    (hok : e.outcome = .ok reply) (hcompletes : e.op.completes = some claim)
    (hlocal : claim.lane.isLocal = true) (hname : ¬ IsMarkerId claim.eventId) :
    (∃ row ∈ w.db.syncLaneInbox, row.lane = .ordinary ∧ claim.Describes row.toInboxInput ∧
      ¬ w'.db.Queued row.inputId) ∧
      w'.db.HasReceipt claim.ownerIdentityId claim.eventId claim.laneEpoch := by
  obtain ⟨row, hrow, hdescribes, hgone⟩ := completed_row hinv hstep hok hcompletes
  have hreceipted : w'.db.Receipted platform claim := by
    refine Operation.receipted_of_completes hcompletes (fun hsecure => ?_) (hstep.ran_ok hok)
    exact hcond.lanes claim hcompletes hsecure
  have hordinary : row.lane = .ordinary := by
    cases hlane : row.lane with
    | ordinary => rfl
    | baseline =>
      have hmarker := hrows.markerId row hrow hlane
      rw [hdescribes.eventId] at hmarker
      exact absurd hmarker hname
    | secure lane =>
      rw [← hdescribes.lane, hlane] at hlocal
      cases hlocal
  refine ⟨⟨row, hrow, hordinary, hdescribes, hgone⟩, ?_⟩
  have hdigest := hreceipted.ofLocal hlocal
  rw [← hdescribes.lane, hordinary, receiptHash_ordinary] at hdigest
  exact hasReceipt_of_digest hdigest

theorem receiptKey_of_step (hrows : ReceiptInvariant w.db)
    (hstep : Step platform reducers w e w') :
    Rows.UniqueKey (fun receipt : AppliedEvent => (receipt.ownerIdentityId, receipt.eventId))
      w'.db.syncAppliedEvents := by
  obtain ⟨log, hlog⟩ := hstep.log
  exact hlog.run.invariant (P := fun db : Db δ => Rows.UniqueKey (fun receipt : AppliedEvent =>
    (receipt.ownerIdentityId, receipt.eventId)) db.syncAppliedEvents)
    (fun _ _ _ => receiptKey_step) hrows.receiptKey

variable {delivery : Delivery}

theorem Operation.isMarkerId_of_delivery {op : Operation δ} (h : delivery ∈ op.deliveries)
    (hlane : delivery.lane = .baseline) :
    IsMarkerId delivery.event.eventId := by
  have hsnapshot : ∀ owner epoch anchor baseline events draw,
      delivery ∈ snapshotDeliveries owner epoch anchor baseline events draw →
        IsMarkerId delivery.event.eventId := by
    intro owner epoch anchor baseline events draw hmem
    obtain ⟨input, hinput, rfl⟩ := List.mem_map.mp hmem
    rcases List.mem_cons.mp hinput with rfl | hinput
    · exact ⟨_, rfl⟩
    · obtain ⟨event, -, rfl⟩ := List.mem_map.mp hinput
      cases hlane
  cases op with
  | receiveOrdinary page =>
    obtain ⟨event, -, rfl⟩ := List.mem_map.mp h
    cases hlane
  | receiveSnapshot => exact hsnapshot _ _ _ _ _ _ h
  | receiveBootstrap => exact hsnapshot _ _ _ _ _ _ h
  | _ => cases h

theorem local_row_source (hstep : Step platform reducers w e w')
    (hrow' : row' ∈ w'.db.syncLaneInbox) (hlocal : row'.lane.isLocal = true) :
    (∃ row ∈ w.db.syncLaneInbox, row'.toInboxInput = row.toInboxInput) ∨
      ∃ delivery ∈ e.op.deliveries, row'.Carries delivery := by
  obtain ⟨log, hlog⟩ := hstep.log
  rcases row_source hlog.run hrow' with hold | hqueue
  · exact .inl hold
  · rcases hlog.admits _ hqueue with hcarries | ⟨handoff, -, hlane⟩
    · exact .inr hcarries
    · rw [hlane] at hlocal
      cases hlocal

variable (hinv : WorldInvariant w taken slots)

include hinv

theorem fresh_step (hrows : ReceiptInvariant w.db) (hstep : Step platform reducers w e w')
    (hcond : e.Accountable w) (hok : e.outcome = .ok reply) {row : InboxRow}
    (hrow : row ∈ w.db.syncLaneInbox) (hrow' : row' ∈ w'.db.syncLaneInbox)
    (hsame : row'.toInboxInput = row.toInboxInput) (hlane : row.lane = .ordinary) :
    digestOf w'.db.syncAppliedEvents row.ownerIdentityId row.laneEpoch row.eventId = none := by
  have hnone := hrows.fresh row hrow hlane
  obtain ⟨log, hlog⟩ := hstep.log
  rcases digest_fate row.ownerIdentityId row.laneEpoch row.eventId hlog.run with
    hkept | ⟨-, hforgotten⟩ | ⟨claim, hash, hdigest, howner, heventId⟩
  · exact hkept.trans hnone
  · exact hforgotten
  · obtain ⟨hcompletes, hlocal, -⟩ := hlog.admits _ hdigest
    obtain ⟨⟨live, hlive, hordinary, hdescribes, hgone⟩, hreceipt⟩ :=
      rewritten_row hinv hrows hstep hcond hok hcompletes hlocal
        (heventId ▸ hrows.ordinaryId row hrow hlane)
    cases hdigestOf : digestOf w'.db.syncAppliedEvents row.ownerIdentityId row.laneEpoch
        row.eventId with
    | none => rfl
    | some hash' =>
      -- the receipt is in the epoch of the row, so the completed row is this one
      rw [howner, heventId] at hreceipt
      have hepoch := hasReceipt_unique (receiptKey_of_step hrows hstep) hreceipt
        (hasReceipt_of_digest hdigestOf)
      have hrowEq : row = live := hrows.eventKey.eq_of_key_eq hrow hlive (by
        simp only [Prod.mk.injEq]
        exact ⟨(hdescribes.owner.trans howner).symm, hlane.trans hordinary.symm,
          (hdescribes.laneEpoch.trans hepoch).symm, (hdescribes.eventId.trans heventId).symm⟩)
      exact absurd ⟨row', hrow', by rw [hsame, hrowEq]⟩ hgone

theorem ReceiptInvariant.step (hrows : ReceiptInvariant w.db)
    (hstep : Step platform reducers w e w') (hcond : e.Accountable w) : ReceiptInvariant w'.db := by
  cases hok : e.outcome with
  | error error => exact hstep.db_of_error hok ▸ hrows
  | ok reply =>
    obtain ⟨log, hlog⟩ := hstep.log
    refine ⟨?_, receiptKey_of_step hrows hstep, ?_, ?_, ?_⟩
    · exact hlog.run.invariant (P := fun db : Db δ => Rows.UniqueKey (fun row : InboxRow =>
        (row.ownerIdentityId, row.lane, row.laneEpoch, row.eventId)) db.syncLaneInbox)
        (fun _ _ _ => eventKey_step) hrows.eventKey
    · intro row' hrow' hlane
      by_cases hreceives : e.op.deliveries = []
      · rcases local_row_source hstep hrow' (by rw [hlane]; rfl) with
          ⟨row, hrow, hsame⟩ | ⟨delivery, hdelivery, -⟩
        · rw [hsame] at hlane ⊢
          exact fresh_step hinv hrows hstep hcond hok hrow hrow' hsame hlane
        · rw [hreceives] at hdelivery
          cases hdelivery
      · have hreceived := Operation.received_of_ok (hstep.ran_ok hok) hreceives
        rw [hreceived.receipts]
        rcases hreceived.origin row' hrow' with hold | ⟨delivery, -, hcarries, hfresh⟩
        · exact hrows.fresh row' hold hlane
        · rw [Db.Fresh, ← hcarries.lane, hlane, receiptHash_ordinary] at hfresh
          rw [hcarries.owner, hcarries.epoch, hcarries.eventId]
          exact hfresh
    · intro row' hrow' hlane
      rcases local_row_source hstep hrow' (by rw [hlane]; rfl) with
        ⟨row, hrow, hsame⟩ | ⟨delivery, hdelivery, hcarries⟩
      · rw [hsame] at hlane ⊢
        exact hrows.markerId row hrow hlane
      · rw [hcarries.eventId]
        exact Operation.isMarkerId_of_delivery hdelivery (hcarries.lane.symm.trans hlane)
    · intro row' hrow' hlane
      rcases local_row_source hstep hrow' (by rw [hlane]; rfl) with
        ⟨row, hrow, hsame⟩ | ⟨delivery, hdelivery, hcarries⟩
      · rw [hsame] at hlane ⊢
        exact hrows.ordinaryId row hrow hlane
      · rw [hcarries.eventId]
        exact hcond.names delivery hdelivery (hcarries.lane.symm.trans hlane)

/-! ## Events that are known -/

def Event.reportsRemoval (e : Event δ) (db : Db δ) (delivery : Delivery) : Prop :=
  e.op.reports = true ∧ ∃ row ∈ db.syncLaneInbox,
    row.isEvent delivery.owner delivery.lane delivery.epoch delivery.event.eventId = true ∧
      RemovedInput.ofRow row ∈ e.reply.removed

/-- The call is `prune_applied_events`, and the receipt of the event goes with it. -/
def Event.prunesReceipt (e : Event δ) (db db' : Db δ) (delivery : Delivery) : Prop :=
  (∃ owner epoch scanSeq maxDelete,
    e.op = .pruneAppliedEvents owner epoch scanSeq maxDelete) ∧
    db.receiptHash delivery.owner delivery.lane delivery.epoch delivery.event.eventId ≠ none ∧
    db'.receiptHash delivery.owner delivery.lane delivery.epoch delivery.event.eventId = none

theorem queued_step (hstep : Step platform reducers w e w') (hcond : e.Accountable w)
    (hok : e.outcome = .ok reply) (hlane : delivery.lane = .ordinary) {row : InboxRow}
    (hrow : row ∈ w.db.syncLaneInbox)
    (hevent : row.isEvent delivery.owner delivery.lane delivery.epoch delivery.event.eventId = true)
    (hhash : payloadHash platform delivery.lane row.rawPayload =
      payloadHash platform delivery.lane delivery.event.payload) :
    w'.db.Knows platform delivery ∨ e.reportsRemoval w.db delivery := by
  have hfields := hevent
  simp only [InboxInput.isEvent, Bool.and_eq_true, beq_iff_eq] at hfields
  obtain ⟨⟨⟨howner, hrowLane⟩, hepoch⟩, heventId⟩ := hfields
  have hkey := hinv.claims.inputKey
  obtain ⟨log, hlog⟩ := hstep.log
  rcases row_fate hlog.run hkey hrow with ⟨row', hrow', hsame⟩ | hevict | ⟨claim, hfinish, hid⟩
  · exact .inl (.inl ⟨row', hrow', by rwa [hsame], by rwa [hsame]⟩)
  · have hreply : e.reply = reply := by rw [Event.reply, hok]
    have hitem := hlog.admits _ hevict
    rw [Operation.Admits, hreply] at hitem
    rcases Operation.removed_cases (hstep.ran_ok hok) hitem with
      ⟨hreports, hremoved⟩ | ⟨source, hsource, heq⟩
    · exact .inr ⟨hreports, row, hrow, hevent, hreply ▸ hremoved⟩
    · -- a discarded row is not ordinary
      have hsourceEq : source = row := hkey.eq_of_key_eq (mem_discarded hsource) hrow
        (congrArg RemovedInput.inputId heq)
      exact absurd (hrowLane.trans hlane) (hcond.discards row (hsourceEq ▸ hsource))
  · have hcompletes : e.op.completes = some claim := hlog.admits _ hfinish
    obtain ⟨live, hlive, hdescribes, -⟩ := completed_row hinv hstep hok hcompletes
    have hliveEq : live = row :=
      hkey.eq_of_key_eq hlive hrow (hdescribes.inputId.trans hid.symm)
    subst hliveEq
    have hclaimLane : claim.lane = delivery.lane := hdescribes.lane.symm.trans hrowLane
    have hlocal : claim.lane.isLocal = true := by
      rw [hclaimLane, hlane]
      rfl
    have hreceipted : w'.db.Receipted platform claim := by
      refine Operation.receipted_of_completes hcompletes (fun hsecure => ?_) (hstep.ran_ok hok)
      exact hcond.lanes claim hcompletes hsecure
    have hdigest := hreceipted.ofLocal hlocal
    rw [hclaimLane, ← hdescribes.owner, ← hdescribes.laneEpoch, ← hdescribes.eventId,
      ← hdescribes.payload, howner, hepoch, heventId, hhash] at hdigest
    exact .inl (.inr hdigest)

theorem receipted_step (hrows : ReceiptInvariant w.db) (hstep : Step platform reducers w e w')
    (hcond : e.Accountable w) (hok : e.outcome = .ok reply) (hlane : delivery.lane = .ordinary)
    (hname : ¬ IsMarkerId delivery.event.eventId)
    (hdigest : w.db.receiptHash delivery.owner delivery.lane delivery.epoch
      delivery.event.eventId = some (payloadHash platform delivery.lane delivery.event.payload)) :
    w'.db.Knows platform delivery ∨ e.prunesReceipt w.db w'.db delivery := by
  obtain ⟨log, hlog⟩ := hstep.log
  have hbefore := hdigest
  rw [hlane, receiptHash_ordinary] at hbefore
  rcases digest_fate delivery.owner delivery.epoch delivery.event.eventId hlog.run with
    hkept | ⟨hforget, hnone⟩ | ⟨claim, hash, hwritten, howner, heventId⟩
  · rw [Db.Knows, hlane, receiptHash_ordinary]
    exact .inl (.inr (hkept.trans hbefore))
  · obtain ⟨epoch, scanSeq, maxDelete, hop⟩ := hlog.admits _ hforget
    refine .inr ⟨⟨_, epoch, scanSeq, maxDelete, hop⟩, by simp [hdigest], ?_⟩
    rw [hlane, receiptHash_ordinary]
    exact hnone
  · -- the digest would be rewritten for a queued row of the event, which has none
    obtain ⟨hcompletes, hlocal, -⟩ := hlog.admits _ hwritten
    obtain ⟨⟨live, hlive, hordinary, hdescribes, -⟩, hreceipt⟩ :=
      rewritten_row hinv hrows hstep hcond hok hcompletes hlocal (heventId ▸ hname)
    have hkept : w'.db.HasReceipt delivery.owner delivery.event.eventId delivery.epoch :=
      hasReceipt_preserves platform claim e.now (Operation.completion_logs hcompletes) w.db reply
        w'.db (hasReceipt_of_digest hbefore) (hstep.ran_ok hok)
    rw [howner, heventId] at hreceipt
    have hepoch := hasReceipt_unique (receiptKey_of_step hrows hstep) hreceipt hkept
    have hfresh := hrows.fresh live hlive hordinary
    rw [hdescribes.owner, hdescribes.laneEpoch, hdescribes.eventId, howner, hepoch, heventId,
      hbefore] at hfresh
    cases hfresh

theorem knows_step (hrows : ReceiptInvariant w.db) (hstep : Step platform reducers w e w')
    (hcond : e.Accountable w) (hlane : delivery.lane = .ordinary)
    (hname : ¬ IsMarkerId delivery.event.eventId) (hknows : w.db.Knows platform delivery) :
    w'.db.Knows platform delivery ∨ e.reportsRemoval w.db delivery ∨
      e.prunesReceipt w.db w'.db delivery := by
  cases hok : e.outcome with
  | error error => exact .inl (hstep.db_of_error hok ▸ hknows)
  | ok reply =>
    rcases hknows with ⟨row, hrow, hevent, hhash⟩ | hdigest
    · exact (queued_step hinv hstep hcond hok hlane hrow hevent hhash).imp_right .inl
    · exact (receipted_step hinv hrows hstep hcond hok hlane hname hdigest).imp_right .inr

end Steps

/-! ## Runs -/

def AccountableStep (platform : Platform) (reducers : DomainReducers δ) (w : World δ)
    (e : Event δ) (w' : World δ) : Prop :=
  Step platform reducers w e w' ∧ e.Accountable w

theorem ReceiptInvariant.initial (h : w.Initial) : ReceiptInvariant w.db := by
  refine ⟨?_, h.receiptKey, ?_, ?_, ?_⟩
  · rw [h.inbox]
    exact Rows.UniqueKey.nil _
  · simp [h.inbox]
  · simp [h.inbox]
  · simp [h.inbox]

theorem ReceiptInvariant.of_run {w₀ : World δ} {history : List (Event δ)} (hstart : w₀.Initial)
    (hrun : Run (AccountableStep platform reducers) w₀ history w) :
    (∃ taken slots, WorldInvariant w taken slots) ∧ ReceiptInvariant w.db := by
  refine hrun.invariant (P := fun w : World δ =>
    (∃ taken slots, WorldInvariant w taken slots) ∧ ReceiptInvariant w.db) ?_
    ⟨⟨[], [], .initial hstart⟩, .initial hstart⟩
  rintro v e v' ⟨⟨taken, slots, hinv⟩, hrows⟩ ⟨hstep, hcond⟩
  exact ⟨hinv.step hstep, hrows.step hinv hstep hcond⟩

theorem knows_run {w₀ v : World δ} {before after : List (Event δ)} (hstart : w₀.Initial)
    (hbefore : Run (AccountableStep platform reducers) w₀ before v)
    (hafter : Run (AccountableStep platform reducers) v after w) {delivery : Delivery}
    (hlane : delivery.lane = .ordinary) (hname : ¬ IsMarkerId delivery.event.eventId)
    (hknows : v.db.Knows platform delivery) :
    w.db.Knows platform delivery ∨ ∃ earlier e later u u', after = earlier ++ e :: later ∧
      Run (Step platform reducers) w₀ (before ++ earlier) u ∧ Step platform reducers u e u' ∧
      (e.reportsRemoval u.db delivery ∨ e.prunesReceipt u.db u'.db delivery) := by
  by_cases hend : w.db.Knows platform delivery
  · exact .inl hend
  · obtain ⟨earlier, e, later, u, u', rfl, hearlier, hu, ⟨hstep, hcond⟩, hu', -⟩ :=
      hafter.exists_gain (P := fun w : World δ => ¬ w.db.Knows platform delivery)
        (not_not.mpr hknows) hend
    have hprefix := Run.append_iff.mpr ⟨v, hbefore, hearlier⟩
    obtain ⟨⟨taken, slots, hinv⟩, hrows⟩ := ReceiptInvariant.of_run hstart hprefix
    refine .inr ⟨earlier, e, later, u, u', rfl, hprefix.weaken fun _ _ _ h => h.1, hstep, ?_⟩
    exact (knows_step hinv hrows hstep hcond hlane hname (not_not.mp hu)).resolve_left hu'

/--
Every event of an accepted page or snapshot is, at any later time, a row of the inbox
or on record with its digest, unless its removal was returned to the application or
its receipt was pruned.  A refused page leaves no trace, and an accepted one moves the
cursor past no event that is neither known nor queued.
-/
theorem received_events_accounted {w₀ w : World δ} {history : List (Event δ)}
    (hstart : w₀.Initial) (hrun : Run (AccountableStep platform reducers) w₀ history w) :
    (∀ before e after reply, history = before ++ e :: after → e.outcome = .ok reply →
      ∀ delivery ∈ e.op.deliveries, delivery.lane = .ordinary →
        w.db.Knows platform delivery ∨
          ∃ earlier f later u u', e :: after = earlier ++ f :: later ∧
            Run (Step platform reducers) w₀ (before ++ earlier) u ∧
            Step platform reducers u f u' ∧
            (f.reportsRemoval u.db delivery ∨ f.prunesReceipt u.db u'.db delivery)) ∧
    ∀ before e after page, history = before ++ e :: after → e.op = .receiveOrdinary page →
      ∃ v v', Run (Step platform reducers) w₀ before v ∧ Step platform reducers v e v' ∧
        (∀ error, e.outcome = .error error → v'.db = v.db) ∧
        ∀ reply, e.outcome = .ok reply → ∀ delivery ∈ page.deliveries,
          v.db.Knows platform delivery ∨ ∃ row ∈ v'.db.syncLaneInbox, row.Carries delivery := by
  constructor
  · rintro before e after reply rfl hok delivery hdelivery hlane
    obtain ⟨v, v', hbefore, ⟨hstep, hcond⟩, hafter⟩ := hrun.around
    have hname := hcond.names delivery hdelivery hlane
    have hreceived := Operation.received_of_ok (hstep.ran_ok hok) (List.ne_nil_of_mem hdelivery)
    rcases hreceived.accepted delivery hdelivery with hknown | ⟨row, hrow, hcarries⟩
    · exact knows_run hstart hbefore (.cons ⟨hstep, hcond⟩ hafter) hlane hname hknown
    · have hknows : v'.db.Knows platform delivery := by
        refine .inl ⟨row, hrow, ?_, by rw [hcarries.payload]⟩
        simp [InboxInput.isEvent, hcarries.owner, hcarries.lane, hcarries.epoch,
          hcarries.eventId]
      have hthrough : Run (AccountableStep platform reducers) w₀ (before ++ [e]) v' :=
        Run.append_iff.mpr ⟨v, hbefore, .single ⟨hstep, hcond⟩⟩
      rcases knows_run hstart hthrough hafter hlane hname hknows with
        hend | ⟨earlier, f, later, u, u', rfl, hu, hf, haccount⟩
      · exact .inl hend
      · rw [List.append_assoc] at hu
        exact .inr ⟨e :: earlier, f, later, u, u', rfl, hu, hf, haccount⟩
  · rintro before e after page rfl hop
    obtain ⟨v, v', hbefore, ⟨hstep, -⟩, -⟩ := hrun.around
    refine ⟨v, v', hbefore.weaken fun _ _ _ h => h.1, hstep, fun _ => hstep.db_of_error, ?_⟩
    intro reply hok delivery hdelivery
    have hdeliveries : delivery ∈ e.op.deliveries := by
      rw [hop]
      exact hdelivery
    exact (Operation.received_of_ok (hstep.ran_ok hok)
      (List.ne_nil_of_mem hdeliveries)).accepted delivery hdeliveries

end Runs

/-! The page with one event, again: it is applied, or dropped for a secure-lane input. -/

namespace Sample

def delivery : Delivery where
  owner := "alice"
  lane := .ordinary
  epoch := "1"
  event := event "e1" "1"

theorem not_isMarkerId : ¬ IsMarkerId "e1" := by
  rintro ⟨position, h⟩
  have hlength := congrArg String.length h
  rw [String.length_append] at hlength
  have : "local-sync-baseline:".length = 20 := by decide
  have : "e1".length = 2 := by decide
  omega

theorem receiving_accountable : receiving.Accountable (world ()) := by
  refine .of_names rfl rfl fun received hreceived _ => ?_
  rw [List.mem_singleton.mp hreceived]
  exact not_isMarkerId

/-- After its application the event is on record. -/
theorem received_event_applied :
    (claimed.call platform reducers 102 application).db.Knows platform delivery := by
  have hrun : Run (AccountableStep platform reducers) (world ())
      [receiving, claiming, applying] (claimed.call platform reducers 102 application) :=
    .cons ⟨received_step, receiving_accountable⟩
      (.cons ⟨claimed_step, .of_names rfl rfl (List.forall_mem_nil _)⟩
        (.single ⟨applied_step, .of_names rfl rfl (List.forall_mem_nil _)⟩))
  have hdone : ∃ reply, receiving.outcome = .ok reply := by
    cases houtcome : receiving.outcome with
    | ok reply => exact ⟨reply, rfl⟩
    | error error =>
      have hok : receiving.outcome.isOk = true := by decide +kernel
      rw [houtcome] at hok
      cases hok
  obtain ⟨reply, hok⟩ := hdone
  obtain ⟨haccounted, -⟩ := received_events_accounted (world_initial ()) hrun
  rcases haccounted [] receiving [claiming, applying] reply rfl hok delivery List.mem_cons_self
    rfl with hknows | ⟨earlier, f, later, u, u', hsplit, -, -, hlost⟩
  · exact hknows
  · have hf : f ∈ [receiving, claiming, applying] := by
      rw [hsplit]
      exact List.mem_append_right _ List.mem_cons_self
    have hremoved : receiving.reply.removed = [] := by decide +kernel
    simp only [List.mem_cons, List.not_mem_nil, or_false] at hf
    rcases hlost with ⟨hreports, row, -, -, hrow⟩ | ⟨⟨_, _, _, _, hop⟩, -⟩
    · rcases hf with rfl | rfl | rfl
      · rw [hremoved] at hrow
        cases hrow
      · cases hreports
      · cases hreports
    · rcases hf with rfl | rfl | rfl <;> cases hop

def handoff : SyncLaneHandoffInput where
  ownerIdentityId := "alice"
  accountIdSnapshot := "account"
  deviceIdSnapshot := "phone"
  authGenerationSnapshot := "1"
  clientInstanceIdSnapshot := "client"
  lane := .p5Device
  laneEpoch := "1"
  position := "1"
  eventId := "d1"
  eventType := "p5.delivery.created"
  rawPayload := .obj []
  groupDid := none
  receivedAt := "2026-01-03T00:00:00Z"
  sourceCreatedAt := none
  sourceExpiresAt := none

def handing : Event Unit :=
  .ofCall platform reducers received 200000 (.commitSyncLaneHandoff handoff)

def dropped : World Unit :=
  received.call platform reducers 200000 (.commitSyncLaneHandoff handoff)

theorem dropped_step : Step platform reducers received handing dropped :=
  .of_call (by decide) (List.nil_subset _) (List.nil_subset _) (List.disjoint_nil_left _)
    List.nodup_nil trivial

/--
An accepted event is lost: room is made for a secure-lane input, the event's row goes
with it, no call reports it and nothing was pruned.
-/
theorem handoff_drops_event :
    (world ()).Initial ∧ Run (Step platform reducers) (world ()) [receiving, handing] dropped ∧
      receiving.outcome.isOk = true ∧ delivery ∈ receiving.op.deliveries ∧
      ¬ dropped.db.Knows platform delivery ∧
      ∀ e ∈ [receiving, handing], e.reply.removed = [] ∧
        ∀ owner epoch scanSeq maxDelete,
          e.op ≠ .pruneAppliedEvents owner epoch scanSeq maxDelete := by
  refine ⟨world_initial (), .cons received_step (.single dropped_step), by decide +kernel,
    List.mem_cons_self, ?_, ?_⟩
  · have hinbox : dropped.db.syncLaneInbox.map (·.eventId) = ["d1"] := by decide +kernel
    have hreceipts : dropped.db.syncAppliedEvents = [] := by decide +kernel
    rintro (⟨row, hrow, hevent, -⟩ | hdigest)
    · have hname : row.eventId ∈ ["d1"] := hinbox ▸ List.mem_map_of_mem hrow
      simp only [InboxInput.isEvent, Bool.and_eq_true, beq_iff_eq] at hevent
      rw [hevent.2] at hname
      revert hname
      decide
    · rw [delivery, receiptHash_ordinary, hreceipts] at hdigest
      cases hdigest
  · have hreceiving : receiving.reply.removed = [] := by decide +kernel
    have hhanding : handing.reply.removed = [] := by decide +kernel
    intro e he
    simp only [List.mem_cons, List.not_mem_nil, or_false] at he
    rcases he with rfl | rfl
    · exact ⟨hreceiving, fun _ _ _ _ hop => by cases hop⟩
    · exact ⟨hhanding, fun _ _ _ _ hop => by cases hop⟩

end Sample

end LocalState
end Awiki

import Awiki.SyncRuns

/-!
# What a receive call does with its events

A receive call looks every event up before it makes room and queues the rest.  An
event that it does not queue is one that was known before: a row of the inbox, or a
receipt, with the same digest.  An event that it does queue had no digest on record.
-/

namespace Awiki
namespace LocalState

open Tx

variable {δ : Type} {platform : Platform} {now : Int} {deliveries : List Delivery}

def Db.Knows (db : Db δ) (platform : Platform) (delivery : Delivery) : Prop :=
  (∃ row ∈ db.syncLaneInbox,
    row.isEvent delivery.owner delivery.lane delivery.epoch delivery.event.eventId = true ∧
      payloadHash platform delivery.lane row.rawPayload =
        payloadHash platform delivery.lane delivery.event.payload) ∨
    db.receiptHash delivery.owner delivery.lane delivery.epoch delivery.event.eventId =
      some (payloadHash platform delivery.lane delivery.event.payload)

def Db.Fresh (db : Db δ) (delivery : Delivery) : Prop :=
  db.receiptHash delivery.owner delivery.lane delivery.epoch delivery.event.eventId = none

theorem inputIsDuplicate_ensures (platform : Platform) (delivery : Delivery) (s : Db δ) :
    Ensures (inputIsDuplicate platform delivery.owner delivery.lane delivery.epoch
      delivery.event) s fun duplicate _ =>
        if duplicate = true then s.Knows platform delivery else s.Fresh delivery := by
  refine .bind_query ?_
  split
  · rename_i row hfound
    have hrow := List.find?_some hfound
    refine .bind_refuseIf fun hsame => .pure (.inl ⟨row, List.mem_of_find?_eq_some hfound,
      hrow, ?_⟩)
    rw [Bool.or_eq_false_iff] at hsame
    simpa using hsame.2
  · refine .bind_query (.bind_refuseIf fun _ => .bind_query ?_)
    split
    · rename_i hash hstored
      refine .bind_refuseIf fun hsame => .pure (.inr ?_)
      rw [hstored]
      simpa using hsame
    · rename_i hstored
      exact .pure hstored

structure Examined (platform : Platform) (db : Db δ) (deliveries pending : List Delivery) :
    Prop where
  known : ∀ delivery ∈ deliveries, delivery ∈ pending ∨ db.Knows platform delivery
  fresh : ∀ delivery ∈ pending, delivery ∈ deliveries ∧ db.Fresh delivery

theorem Examined.cons {db : Db δ} {delivery : Delivery} {pending : List Delivery}
    {duplicate : Bool} (h : Examined platform db deliveries pending)
    (hfirst : if duplicate = true then db.Knows platform delivery else db.Fresh delivery) :
    Examined platform db (delivery :: deliveries)
      (if duplicate = true then pending else delivery :: pending) := by
  cases duplicate with
  | true =>
    refine ⟨?_, fun d hd => ⟨List.mem_cons_of_mem _ (h.fresh d hd).1, (h.fresh d hd).2⟩⟩
    intro d hd
    rcases List.mem_cons.mp hd with rfl | hd
    · exact .inr hfirst
    · exact h.known d hd
  | false =>
    constructor
    · intro d hd
      rcases List.mem_cons.mp hd with rfl | hd
      · exact .inl List.mem_cons_self
      · exact (h.known d hd).imp_left (List.mem_cons_of_mem _)
    · intro d hd
      rcases List.mem_cons.mp hd with rfl | hd
      · exact ⟨List.mem_cons_self, hfirst⟩
      · exact ⟨List.mem_cons_of_mem _ (h.fresh d hd).1, (h.fresh d hd).2⟩

theorem examineEvents_ensures (platform : Platform) (page : OrdinaryReceiveBatch)
    (events : List InboxEvent) (ids positions : List String) (s : Db δ) :
    Ensures (examineEvents platform page ids positions events) s fun examined _ =>
      Examined platform s
        (events.map (⟨page.binding.ownerIdentityId, .ordinary, page.streamEpoch, ·⟩))
        (examined.1.map (⟨page.binding.ownerIdentityId, .ordinary, page.streamEpoch, ·⟩)) := by
  induction events generalizing ids positions with
  | nil => exact .pure ⟨by simp, by simp⟩
  | cons event rest ih =>
    refine .bind_refuseIf fun _ => .bind_attempt fun _ _ => .bind_attempt fun _ _ =>
      .bind_refuseIf fun _ => .bind_orError fun _ _ => .bind_orError fun _ _ =>
      .bind_refuseIf fun _ => .bind_read (inputIsDuplicate_keeps _ _ _ _ _)
      fun duplicate hduplicate => .bind_read (examineEvents_keeps _ _ _ _ _)
      fun tail htail => .pure ?_
    have hfirst := inputIsDuplicate_ensures platform
      ⟨page.binding.ownerIdentityId, .ordinary, page.streamEpoch, event⟩ s duplicate s hduplicate
    have hrest := (ih _ _ tail s htail).cons hfirst
    cases duplicate <;> exact hrest

theorem pendingInputs_ensures (platform : Platform) (owner epoch : String)
    (inputs : List (Lane × InboxEvent)) (s : Db δ) :
    Ensures (pendingInputs platform owner epoch inputs) s fun pending _ =>
      Examined platform s (inputs.map fun input => ⟨owner, input.1, epoch, input.2⟩)
        (pending.1.map fun input => ⟨owner, input.1, epoch, input.2⟩) := by
  induction inputs with
  | nil => exact .pure ⟨by simp, by simp⟩
  | cons input rest ih =>
    refine .bind_read (inputIsDuplicate_keeps _ _ _ _ _) fun duplicate hduplicate =>
      .bind_read (pendingInputs_keeps _ _ _ _) fun tail htail => .pure ?_
    have hfirst := inputIsDuplicate_ensures platform ⟨owner, input.1, epoch, input.2⟩ s
      duplicate s hduplicate
    have hrest := (ih tail s htail).cons hfirst
    cases duplicate <;> exact hrest

/-! ## Queueing -/

theorem deleteOldest_receipts (cutoff : Option Int) (limit : Nat) :
    Keeps (deleteOldest cutoff limit : LocalM δ _) (·.syncAppliedEvents) :=
  .bind (.query _) fun _ => .reply (.forEach fun _ _ => .execute fun _ => rfl)

theorem makeRoom_receipts (additional : Nat) (now : Int) :
    Keeps (makeRoom additional now : LocalM δ _) (·.syncAppliedEvents) :=
  .bind .refuseIf fun _ => .bind (deleteOldest_receipts _ _) fun _ => .bind (.query _) fun _ =>
    .ite (.reply (deleteOldest_receipts _ _)) (.pure _)

theorem insertInput_receipts (platform : Platform) (binding : IdentityAccountBinding)
    (installation : String) (lane : Lane) (epoch : String) (event : InboxEvent) (now : Int) :
    Keeps (insertInput platform binding installation lane epoch event now : LocalM δ _)
      (·.syncAppliedEvents) :=
  .bind .orError fun _ => .bind (.query _) fun _ => .bind (.query _) fun _ =>
    .bind .refuseIf fun _ => .execute fun _ => rfl

theorem makeRoom_ensures (additional : Nat) (now : Int) (s : Db δ) :
    Ensures (makeRoom additional now) s fun _ t => t.syncLaneInbox ⊆ s.syncLaneInbox := by
  intro removed t hrun
  refine (makeRoom_logs (fun _ => False) additional).preserves
    (P := fun t => t.syncLaneInbox ⊆ s.syncLaneInbox) ?_ s removed t (List.Subset.refl _) hrun
  intro u removed action v haction hsub hstep row hrow
  rcases hstep.mem_inbox hrow with ⟨old, hold, rfl⟩ | ⟨_, rfl, -⟩
  · cases action with
    | evict | other => exact hsub hold
    | _ => exact haction.elim
  · exact haction.elim

theorem insertInput_ensures (platform : Platform) (binding : IdentityAccountBinding)
    (installation : String) (lane : Lane) (epoch : String) (event : InboxEvent) (now : Int)
    (s : Db δ) :
    Ensures (insertInput platform binding installation lane epoch event now) s fun _ t =>
      ∃ input, t.syncLaneInbox = s.syncLaneInbox ++ [.queued input] ∧
        input.Carries ⟨binding.ownerIdentityId, lane, epoch, event⟩ := by
  refine .bind_orError fun receivedAt _ => .bind_query (.bind_query (.bind_refuseIf fun _ => ?_))
  intro v t hrun
  rw [← execute_ok.mp hrun]
  exact ⟨_, rfl, ⟨rfl, rfl, rfl, rfl, rfl⟩⟩

theorem insertInputs_ensures (platform : Platform) (binding : IdentityAccountBinding)
    (installation epoch : String) (inputs : List (Lane × InboxEvent)) (now : Int) (s : Db δ) :
    Ensures (forEach inputs fun input =>
      insertInput platform binding installation input.1 epoch input.2 now) s fun _ t =>
        s.syncLaneInbox ⊆ t.syncLaneInbox ∧
        (∀ row ∈ t.syncLaneInbox, row ∈ s.syncLaneInbox ∨ ∃ input ∈ inputs,
          row.Carries ⟨binding.ownerIdentityId, input.1, epoch, input.2⟩) ∧
        ∀ input ∈ inputs, ∃ row ∈ t.syncLaneInbox,
          row.Carries ⟨binding.ownerIdentityId, input.1, epoch, input.2⟩ := by
  induction inputs generalizing s with
  | nil => exact .pure ⟨List.Subset.refl _, fun _ hrow => .inl hrow, by simp⟩
  | cons first rest ih =>
    refine .bind fun _ u hfirst v t hrest => ?_
    obtain ⟨input, hinbox, hcarries⟩ :=
      insertInput_ensures platform binding installation first.1 epoch first.2 now s _ u hfirst
    obtain ⟨hkept, horigin, hqueued⟩ := ih u v t hrest
    rw [hinbox] at hkept horigin
    refine ⟨fun row hrow => hkept (List.mem_append_left _ hrow), ?_, ?_⟩
    · intro row hrow
      rcases horigin row hrow with hold | ⟨other, hother, hrow⟩
      · rcases List.mem_append.mp hold with hold | hnew
        · exact .inl hold
        · rw [List.mem_singleton.mp hnew]
          exact .inr ⟨first, List.mem_cons_self, hcarries⟩
      · exact .inr ⟨other, List.mem_cons_of_mem _ hother, hrow⟩
    · intro other hother
      rcases List.mem_cons.mp hother with rfl | hother
      · exact ⟨.queued input, hkept (List.mem_append_right _ List.mem_cons_self), hcarries⟩
      · exact hqueued other hother

/-- What a receive call leaves: no row but those it found and those of fresh events. -/
structure Received (platform : Platform) (deliveries : List Delivery) (s t : Db δ) : Prop where
  receipts : t.syncAppliedEvents = s.syncAppliedEvents
  origin : ∀ row ∈ t.syncLaneInbox, row ∈ s.syncLaneInbox ∨
    ∃ delivery ∈ deliveries, row.Carries delivery ∧ s.Fresh delivery
  accepted : ∀ delivery ∈ deliveries, s.Knows platform delivery ∨
    ∃ row ∈ t.syncLaneInbox, row.Carries delivery

theorem queuePending_ensures (platform : Platform) (binding : IdentityAccountBinding)
    (installation epoch : String) (inputs : List (Lane × InboxEvent)) (now : Int) {s : Db δ}
    (h : Examined platform s deliveries
      (inputs.map fun input => ⟨binding.ownerIdentityId, input.1, epoch, input.2⟩))
    {removed : List RemovedInput} {u t : Db δ} {v : Unit}
    (hroom : (makeRoom inputs.length now).run s = .ok removed u)
    (hloop : (forEach inputs fun input =>
      insertInput platform binding installation input.1 epoch input.2 now).run u = .ok v t) :
    Received platform deliveries s t := by
  have hsub := makeRoom_ensures _ _ s removed u hroom
  obtain ⟨-, horigin, hqueued⟩ := insertInputs_ensures _ _ _ _ _ _ u v t hloop
  have hinsert : t.syncAppliedEvents = u.syncAppliedEvents :=
    Keeps.forEach (fun _ _ => insertInput_receipts _ _ _ _ _ _ _) u v t hloop
  refine ⟨hinsert.trans (makeRoom_receipts _ _ s removed u hroom), ?_, ?_⟩
  · intro row hrow
    rcases horigin row hrow with hold | ⟨input, hinput, hcarries⟩
    · exact .inl (hsub hold)
    · obtain ⟨hmem, hfresh⟩ := h.fresh _ (List.mem_map_of_mem hinput)
      exact .inr ⟨_, hmem, hcarries, hfresh⟩
  · intro delivery hdelivery
    rcases h.known delivery hdelivery with hpending | hknown
    · obtain ⟨input, hinput, rfl⟩ := List.mem_map.mp hpending
      exact .inr (hqueued input hinput)
    · exact .inl hknown

theorem Received.congr {s s' t t' : Db δ} (h : Received platform deliveries s t)
    (hs : s.receiveTables = s'.receiveTables) (ht : t'.receiveTables = t.receiveTables) :
    Received platform deliveries s' t' := by
  simp only [Db.receiveTables, Prod.mk.injEq] at hs ht
  obtain ⟨hinbox, -, hreceipts, hlane⟩ := hs
  have hhash : ∀ owner lane epoch eventId,
      s.receiptHash owner lane epoch eventId = s'.receiptHash owner lane epoch eventId := by
    intro owner lane epoch eventId
    simp only [Db.receiptHash, hreceipts, hlane]
  refine ⟨ht.2.2.1.trans (h.receipts.trans hreceipts), ?_, ?_⟩
  · intro row hrow
    rw [ht.1] at hrow
    simpa only [hinbox, Db.Fresh, hhash] using h.origin row hrow
  · intro delivery hdelivery
    have haccepted := h.accepted delivery hdelivery
    simpa only [ht.1, hinbox, Db.Knows, hhash] using haccepted

section

variable (platform : Platform)

theorem receiveOrdinary_ensures (page : OrdinaryReceiveBatch) (now : Int) (s : Db δ) :
    Ensures (receiveOrdinary platform page now) s fun _ t =>
      Received platform page.deliveries s t := by
  refine .immediate (.bind_read (requireBinding_keeps _) fun _ _ =>
    .bind_read (requireMessageSyncRunGeneration_keeps _ _) fun _ _ => .bind_query
    (.bind_refuseIf fun _ => .bind_read (loadMessageSyncState_keeps _) fun access _ => ?_))
  cases access with
  | bootstrapRequired fence => exact .throw
  | ready current =>
    refine .bind_refuseIf fun _ => .bind_attempt fun _ _ => .bind_refuseIf fun _ =>
      .bind_read (examineEvents_keeps _ _ _ _ _) fun examined hexamined =>
      .bind fun removed u hroom => .bind fun v t hloop => .bind fun advanced x hadvance => ?_
    have hpending := examineEvents_ensures platform page page.events [] [] s examined s hexamined
    have hreceived : Received platform page.deliveries s t := by
      refine queuePending_ensures platform page.binding page.clientInstanceId page.streamEpoch
        (examined.1.map (Lane.ordinary, ·)) now ?_ (by rwa [List.length_map])
        (by rwa [forEach_map])
      rw [List.map_map]
      exact hpending
    have htables := advanceMessageSyncState_keeps offCursor_receiveTables _ t advanced x hadvance
    cases advanced with
    | bootstrapRequired fence => exact .throw
    | ready state => exact .pure ⟨_, rfl, hreceived.congr rfl htables⟩

theorem insertBaselineAndEvents_ensures (binding : IdentityAccountBinding)
    (installation epoch anchor : String) (baseline : Baseline) (events : List InboxEvent)
    (draw : Nat) (now : Int) (s : Db δ) :
    Ensures (insertBaselineAndEvents platform binding installation epoch anchor baseline events
      draw now) s fun _ t => Received platform
        (snapshotDeliveries binding.ownerIdentityId epoch anchor baseline events draw) s t := by
  refine .bind_query (.bind_orError fun _ _ => .bind_refuseIf fun _ =>
    .bind_read (pendingInputs_keeps _ _ _ _) fun pending hpending =>
    .bind fun removed u hroom => .bind fun v t hloop => .pure ?_)
  exact queuePending_ensures platform binding installation epoch pending.1 now
    (pendingInputs_ensures platform _ _ _ s pending s hpending) hroom hloop

theorem receiveSnapshot_ensures (checkpoint : SnapshotApplyInput)
    (binding : IdentityAccountBinding) (installation : String) (baseline : Baseline)
    (events : List InboxEvent) (draw : Nat) (now unixTime : Int) (s : Db δ) :
    Ensures (receiveSnapshot platform checkpoint binding installation baseline events draw now
      unixTime) s fun _ t => Received platform (snapshotDeliveries binding.ownerIdentityId
        checkpoint.streamEpoch checkpoint.snapshotScanSeq baseline events draw) s t := by
  refine .immediate (.bind_read (validateSnapshotReceive_keeps _) fun _ _ =>
    .bind_refuseIf fun _ => .bind fun outcome t hqueue => .bind fun _ x hcommit =>
    .pure ⟨outcome, rfl, ?_⟩)
  have hreceived := insertBaselineAndEvents_ensures _ _ _ _ _ _ _ _ _ s outcome t hqueue
  exact hreceived.congr rfl
    (commitSnapshotReceiveState_keeps offCursor_receiveTables.toOffLanes
      (upsertBootstrapState_keeps offCursor_receiveTables _) t _ x hcommit)

theorem receiveBootstrap_ensures (input : BootstrapApplyInput) (baseline : Baseline)
    (expectedRunGeneration : Int) (draw : Nat) (now : Int) (s : Db δ) :
    Ensures (receiveBootstrap platform input baseline expectedRunGeneration draw now) s
      fun _ t => Received platform (snapshotDeliveries input.binding.ownerIdentityId
        input.state.streamEpoch input.state.scanSeq baseline [] draw) s t := by
  refine .immediate (.bind_read (requireMessageSyncRunGeneration_keeps _ _) fun _ _ =>
    .bind_refuseIf fun _ => .bind_read (retainBootstrapReceivePosition_keeps _) fun retained _ =>
    .bind fun _ u hbootstrap => .bind fun outcome t hqueue => .pure ⟨_, rfl, ?_⟩)
  have hreceived := insertBaselineAndEvents_ensures _ _ _ _ _ _ _ _ _ u outcome t hqueue
  exact hreceived.congr (applyBootstrap_keeps offCursor_receiveTables.toOffLanes
    (upsertBootstrapState_keeps offCursor_receiveTables _) s _ u hbootstrap) rfl

end

theorem Operation.received_of_ok {reducers : DomainReducers δ} {op : Operation δ} {s t : Db δ}
    {reply : Reply} (h : (op.run platform reducers now).run s = .ok reply t)
    (hop : op.deliveries ≠ []) : Received platform op.deliveries s t := by
  cases op with
  | receiveOrdinary page =>
    obtain ⟨outcome, hrun, -⟩ := bind_pure_ok.mp h
    exact receiveOrdinary_ensures _ _ _ s outcome _ hrun
  | receiveSnapshot checkpoint binding installation baseline events draw unixTime =>
    obtain ⟨outcome, hrun, -⟩ := bind_pure_ok.mp h
    exact receiveSnapshot_ensures _ _ _ _ _ _ _ _ _ s outcome _ hrun
  | receiveBootstrap input baseline expectedRunGeneration draw =>
    obtain ⟨outcome, hrun, -⟩ := bind_pure_ok.mp h
    exact receiveBootstrap_ensures _ _ _ _ _ _ s outcome _ hrun
  | _ => exact absurd rfl hop

end LocalState
end Awiki

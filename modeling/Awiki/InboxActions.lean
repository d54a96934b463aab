import Awiki.InboxClaims
import Awiki.StatementLogs

/-!
# The statements on the receive tables

Every function on the local state changes the inbox, its leases and its receipts by
a few kinds of statements.  `Action` lists them, with what each does to a row and the
conditions under which the code issues it, and the theorems below say which actions
each function is made of.  What holds of a run of actions then holds of every
function, and of every interleaving of them.
-/

namespace Awiki
namespace LocalState

open Tx

variable {δ : Type} {α : Type} {rows : List InboxRow}

inductive Action where
  | queue (input : InboxInput)
  | evict (item : RemovedInput)
  | reclaim (inputIds : List String)
  | dropLeases
  | reserve (token : String)
  | take (input : InboxInput) (token : String)
  | release (token : String)
  | fail (claim : InputClaim) (code : String) (retryAt : Option Int)
  | park (claim : InputClaim)
  | unpark (claim : InputClaim) (retryAt : Int)
  | renew (claim : InputClaim)
  | renewSlot (token : String)
  | retry (owner eventId : String)
  | wake (claim : InputClaim) (scope : Option String)
  | close (inputId : String) (closedAt : Option Int)
  | finish (claim : InputClaim)
  | receipt (row : AppliedEvent)
  | digest (claim : InputClaim) (hash : String)
  | laneReceipt (row : LaneAppliedEvent)
  | forget (owner eventId : String)
  | other

variable {action : Action}

namespace Action

def keepsRow : Action → InboxRow → Bool
  | evict item, row => !item.isOf row
  | finish claim, row => !row.holds claim
  | _, _ => true

def updateRow (now : Int) : Action → InboxRow → InboxRow
  | reclaim inputIds, row => if inputIds.contains row.inputId then row.reclaimed now else row
  | take input token, row =>
    if row.inputId == input.inputId then row.claimed token now else row
  | fail claim code retryAt, row =>
    if row.inputId == claim.inputId then row.failed code retryAt else row
  | park claim, row => if row.holds claim then row.parked now else row
  | unpark claim retryAt, row => if row.isParked claim then row.unparked retryAt else row
  | renew claim, row => if row.holds claim then row.renewed now else row
  | retry owner eventId, row => if row.isIdle owner eventId now then row.retried now else row
  | wake claim scope, row =>
    if row.waitsFor claim scope then { row with nextAttemptAt := some now } else row
  | close inputId closedAt, row =>
    if row.inputId == inputId then { row with closedAt := closedAt } else row
  | _, row => row

def newRows : Action → List InboxRow
  | queue input => [.queued input]
  | _ => []

def updateInbox (now : Int) (action : Action) (rows : List InboxRow) : List InboxRow :=
  (rows.filter action.keepsRow).map (action.updateRow now) ++ action.newRows

def updateLeases (now : Int) (action : Action) (leases : List InputLease) : List InputLease :=
  match action with
  | dropLeases => Rows.deleteWhere (fun lease => decide (lease.deadline ≤ now)) leases
  | reserve token | take _ token =>
    leases ++ [{ attemptToken := token, deadline := claimDeadline now }]
  | release token => Rows.deleteWhere (fun lease => lease.attemptToken == token) leases
  | renew claim => Rows.updateWhere (fun lease => lease.attemptToken == claim.token)
      (fun lease => { lease with deadline := claimDeadline now }) leases
  | renewSlot token => Rows.updateWhere (fun lease => lease.attemptToken == token)
      (fun lease => { lease with deadline := claimDeadline now }) leases
  | _ => leases

def updateReceipts (action : Action) (receipts : List AppliedEvent) : List AppliedEvent :=
  match action with
  | receipt row => receipts ++ [row]
  | digest claim hash => Rows.updateWhere (·.isOf claim.ownerIdentityId claim.eventId)
      (fun receipt => { receipt with payloadHash := some hash }) receipts
  | forget owner eventId => Rows.deleteWhere (·.isOf owner eventId) receipts
  | _ => receipts

def updateLaneReceipts (action : Action) (receipts : List LaneAppliedEvent) :
    List LaneAppliedEvent :=
  match action with
  | laneReceipt row => Rows.upsertWhere (·.sameEvent row) row
      (fun stored => { stored with payloadHash := row.payloadHash }) receipts
  | _ => receipts

def Guard (now : Int) (db : Db δ) : Action → Prop
  | queue input =>
    inboxRowRefused db input = false ∧ input.rowid = db.nextRowid ∧ input.createdAt = now
  | evict item => ∀ row ∈ db.syncLaneInbox, item.isOf row = true →
      ∃ source ∈ db.syncLaneInbox, RemovedInput.ofRow source = item
  | reclaim inputIds => ∀ inputId ∈ inputIds, ∃ row ∈ db.syncLaneInbox,
      row.inputId = inputId ∧ row.attempt = none
  | reserve token => db.hasLease token = false
  | take input token => db.hasLease token = false ∧
      ∃ row ∈ db.syncLaneInbox, row.toInboxInput = input ∧ row.isOpen now = true ∧
        (row.lane.isLocal = true → db.baselineBefore row now = false)
  | fail claim _ _ => db.claimIsLive claim now = true
  | close inputId _ => ∃ row ∈ db.syncLaneInbox,
      row.inputId = inputId ∧ ∃ lane, row.lane = .secure lane
  | receipt row => row.payloadHash = none ∧
      ∀ stored ∈ db.syncAppliedEvents, stored.isOf row.ownerIdentityId row.eventId = false
  | _ => True

/-- One statement; the other tables of the database may change with it. -/
structure Step (now : Int) (s : Db δ) (action : Action) (t : Db δ) : Prop where
  guard : action.Guard now s
  inbox : t.syncLaneInbox = action.updateInbox now s.syncLaneInbox
  leases : t.syncInputLeases = action.updateLeases now s.syncInputLeases
  receipts : t.syncAppliedEvents = action.updateReceipts s.syncAppliedEvents
  laneReceipts : t.syncLaneAppliedEvents = action.updateLaneReceipts s.syncLaneAppliedEvents

@[simp] theorem updateRow_toInboxInput (now : Int) (action : Action) (row : InboxRow) :
    (action.updateRow now row).toInboxInput = row.toInboxInput := by
  cases action with
  | reclaim | take | fail | park | unpark | renew | retry | wake | close =>
    simp only [updateRow]
    split <;> rfl
  | _ => rfl

theorem updateInbox_of_update (now : Int) (action : Action)
    (hkeeps : ∀ row, action.keepsRow row = true) (hnew : action.newRows = [])
    (rows : List InboxRow) :
    action.updateInbox now rows = rows.map (action.updateRow now) := by
  unfold updateInbox
  rw [hnew, List.append_nil, List.filter_eq_self.mpr fun row _ => hkeeps row]

theorem updateInbox_of_delete (now : Int) (action : Action)
    (hupdate : ∀ row, action.updateRow now row = row) (hnew : action.newRows = [])
    (rows : List InboxRow) :
    action.updateInbox now rows = rows.filter action.keepsRow := by
  unfold updateInbox
  rw [hnew, List.append_nil, List.map_congr_left fun row _ => hupdate row, List.map_id']

theorem updateInbox_id (now : Int) (action : Action)
    (hkeeps : ∀ row, action.keepsRow row = true)
    (hupdate : ∀ row, action.updateRow now row = row) (hnew : action.newRows = [])
    (rows : List InboxRow) : action.updateInbox now rows = rows := by
  rw [updateInbox_of_delete now action hupdate hnew]
  exact List.filter_eq_self.mpr fun row _ => hkeeps row

theorem updateInbox_queue (now : Int) (input : InboxInput) (rows : List InboxRow) :
    (queue input).updateInbox now rows = rows ++ [.queued input] := by
  have hkeeps : rows.filter (queue input).keepsRow = rows :=
    List.filter_eq_self.mpr fun row _ => rfl
  unfold updateInbox
  rw [hkeeps]
  exact congrArg (· ++ _) (List.map_id _)

theorem mem_updateInbox {now : Int} {row : InboxRow} :
    row ∈ action.updateInbox now rows ↔
      (∃ old ∈ rows, action.keepsRow old = true ∧ action.updateRow now old = row) ∨
        row ∈ action.newRows := by
  simp [updateInbox, and_assoc]

theorem Step.mem_inbox {now : Int} {s t : Db δ} (h : Step now s action t) {row : InboxRow}
    (hrow : row ∈ t.syncLaneInbox) : (∃ old ∈ s.syncLaneInbox, action.updateRow now old = row) ∨
      ∃ input, action = .queue input ∧ .queued input = row := by
  rw [h.inbox, mem_updateInbox] at hrow
  rcases hrow with ⟨old, hold, -, hnew⟩ | hnew
  · exact .inl ⟨old, hold, hnew⟩
  · cases action with
    | queue input => exact .inr ⟨input, rfl, (List.mem_singleton.mp hnew).symm⟩
    | _ => cases hnew

theorem uniqueKey_updateInbox {κ : Type} {f : InboxInput → κ} {now : Int}
    (h : Rows.UniqueKey (fun row : InboxRow => f row.toInboxInput) rows)
    (hnew : ∀ input, action = .queue input → ∀ row ∈ rows, f row.toInboxInput ≠ f input) :
    Rows.UniqueKey (fun row : InboxRow => f row.toInboxInput) (action.updateInbox now rows) := by
  by_cases hqueue : ∃ input, action = .queue input
  · obtain ⟨input, rfl⟩ := hqueue
    rw [updateInbox_queue]
    exact h.append_singleton (hnew input rfl)
  · have hnone : action.newRows = [] := by
      cases action with
      | queue input => exact absurd ⟨input, rfl⟩ hqueue
      | _ => rfl
    unfold updateInbox Rows.UniqueKey
    rw [hnone, List.append_nil, List.map_map]
    simp only [Function.comp_def, updateRow_toInboxInput]
    exact List.Nodup.sublist (List.filter_sublist.map _) h

end Action

/-! ## Functions that leave the receive tables alone -/

def Db.receiveTables (db : Db δ) :
    List InboxRow × List InputLease × List AppliedEvent × List LaneAppliedEvent :=
  (db.syncLaneInbox, db.syncInputLeases, db.syncAppliedEvents, db.syncLaneAppliedEvents)

theorem offCursor_receiveTables : OffCursor (Db.receiveTables (δ := δ)) := by
  refine ⟨?_, ?_⟩
  constructor
  all_goals intros; rfl

section Frames

variable {γ : Type} {f : Db δ → γ}

theorem requireBinding_keeps (binding : IdentityAccountBinding) :
    Keeps (requireBinding binding : LocalM δ _) f :=
  .bind (.query _) fun _ => .refuseIf

theorem inputIsDuplicate_keeps (platform : Platform) (owner : String) (lane : Lane)
    (epoch : String) (event : InboxEvent) :
    Keeps (inputIsDuplicate platform owner lane epoch event : LocalM δ _) f := by
  refine .bind (.query _) fun existing => ?_
  cases existing with
  | some row => exact .bind .refuseIf fun _ => .pure true
  | none =>
    refine .bind (.query _) fun _ => .bind .refuseIf fun _ => .bind (.query _) fun stored => ?_
    cases stored with
    | some hash => exact .bind .refuseIf fun _ => .pure true
    | none => exact .pure false

theorem examineEvents_keeps (platform : Platform) (input : OrdinaryReceiveBatch)
    (events : List InboxEvent) (ids positions : List String) :
    Keeps (examineEvents platform input ids positions events : LocalM δ _) f := by
  induction events generalizing ids positions with
  | nil => exact .pure _
  | cons event rest ih =>
    exact .bind .refuseIf fun _ => .bind .attempt fun _ => .bind .attempt fun _ =>
      .bind .refuseIf fun _ => .bind .orError fun _ => .bind .orError fun _ =>
      .bind .refuseIf fun _ => .bind (inputIsDuplicate_keeps _ _ _ _ _) fun _ =>
      .reply (ih _ _)

theorem pendingInputs_keeps (platform : Platform) (owner epoch : String)
    (inputs : List (Lane × InboxEvent)) :
    Keeps (pendingInputs platform owner epoch inputs : LocalM δ _) f := by
  induction inputs with
  | nil => exact .pure _
  | cons input rest ih =>
    exact .bind (inputIsDuplicate_keeps _ _ _ _ _) fun _ => .reply ih

theorem requireClaim_keeps (claim : InputClaim) (now : Int) :
    Keeps (requireClaim claim now : LocalM δ _) f :=
  .bind (.query _) fun _ => .refuseIf

theorem domainUpdate_keeps (hf : ∀ db domain, f { db with domain := domain } = f db)
    (g : δ → Except ImError (α × δ)) : Keeps (domainUpdate g) f := by
  intro s a t hrun
  change domainUpdate g s = .ok a t at hrun
  unfold domainUpdate at hrun
  split at hrun
  · cases hrun
    exact hf s _
  · cases hrun

end Frames

variable {now : Int}

theorem logs_of_keeps {x : LocalM δ α} (h : Keeps x Db.receiveTables) :
    Logs (Action.Step now) x fun _ action => action = .other := by
  refine .single .other (fun _ => rfl) fun s a t hrun => ?_
  have htables := h s a t hrun
  simp only [Db.receiveTables, Prod.mk.injEq] at htables
  obtain ⟨hinbox, hleases, hreceipts, hlane⟩ := htables
  refine ⟨trivial, ?_, hleases, hreceipts, hlane⟩
  rw [hinbox, Action.updateInbox_id now .other (fun _ => rfl) (fun _ => rfl) rfl]

/-! ## Receiving -/

def ReceiveAction (queues : InboxInput → Prop) (removed : List RemovedInput) : Action → Prop
  | .other => True
  | .queue input => queues input
  | .evict item => item ∈ removed
  | _ => False

variable {removed items : List RemovedInput} {s t : Db δ}

theorem ReceiveAction.mono {queues queues' : InboxInput → Prop} {removed' : List RemovedInput}
    (h : ReceiveAction queues removed action) (hqueues : ∀ input, queues input → queues' input)
    (hsub : removed ⊆ removed') : ReceiveAction queues' removed' action := by
  cases action with
  | queue input => exact hqueues input h
  | evict item => exact hsub h
  | _ => exact h

structure Delivery where
  owner : String
  lane : Lane
  epoch : String
  event : InboxEvent

structure InboxInput.Carries (input : InboxInput) (delivery : Delivery) : Prop where
  owner : input.ownerIdentityId = delivery.owner
  lane : input.lane = delivery.lane
  epoch : input.laneEpoch = delivery.epoch
  eventId : input.eventId = delivery.event.eventId
  payload : input.rawPayload = delivery.event.payload

def OrdinaryReceiveBatch.deliveries (page : OrdinaryReceiveBatch) : List Delivery :=
  page.events.map fun event => ⟨page.binding.ownerIdentityId, .ordinary, page.streamEpoch, event⟩

def snapshotDeliveries (owner epoch anchor : String) (baseline : Baseline)
    (events : List InboxEvent) (draw : Nat) : List Delivery :=
  ((Lane.baseline, baselineMarker baseline anchor draw) :: events.map (Lane.ordinary, ·)).map
    fun input => ⟨owner, input.1, epoch, input.2⟩

theorem insertInboxRow_logs {input : InboxInput} (hnow : input.createdAt = now) :
    Logs (Action.Step now) (insertInboxRow input : LocalM δ _) fun _ action =>
      ∃ rowid, action = .queue { input with rowid := rowid } := by
  intro s a t hrun
  simp only [insertInboxRow, bind_ok, query_ok, refuseIf_ok, execute_ok] at hrun
  obtain ⟨_, _, ⟨rfl, rfl⟩, _, _, ⟨rfl, rfl⟩, _, _, ⟨hok, rfl⟩, rfl⟩ := hrun
  refine ⟨[.queue { input with rowid := s.nextRowid }], Run.single ?_, by simp⟩
  exact ⟨⟨hok, rfl, hnow⟩, (Action.updateInbox_queue _ _ _).symm, rfl, rfl, rfl⟩

theorem insertInput_logs (platform : Platform) (binding : IdentityAccountBinding)
    (installation : String) (lane : Lane) (epoch : String) (event : InboxEvent) :
    Logs (Action.Step now)
      (insertInput platform binding installation lane epoch event now : LocalM δ _)
      fun _ => ReceiveAction
        (fun input => input.Carries ⟨binding.ownerIdentityId, lane, epoch, event⟩) [] := by
  refine .bind .orError fun _ => (insertInboxRow_logs rfl).mono ?_
  rintro _ _ ⟨rowid, rfl⟩
  exact ⟨rfl, rfl, rfl, rfl, rfl⟩

theorem deleteInputs_log {queues : InboxInput → Prop} (hsub : items ⊆ removed)
    {v : Unit} (h : (forEach items deleteInput).run s = .ok v t)
    (hsource : ∀ item ∈ items, ∀ row ∈ s.syncLaneInbox, item.isOf row = true →
      ∃ source ∈ s.syncLaneInbox, RemovedInput.ofRow source = item) :
    ∃ log, Run (Action.Step now) s log t ∧ ∀ action ∈ log,
      ReceiveAction queues removed action := by
  induction items generalizing s with
  | nil =>
    obtain ⟨-, rfl⟩ := pure_ok.mp h
    exact ⟨[], .nil _, by simp⟩
  | cons item items ih =>
    obtain ⟨_, u, hfirst, hrest⟩ := bind_ok.mp h
    have hinbox : u.syncLaneInbox = Rows.deleteWhere item.isOf s.syncLaneInbox := by
      rw [← execute_ok.mp hfirst]
    have hstep : Action.Step now s (.evict item) u := by
      rw [← execute_ok.mp hfirst]
      exact ⟨hsource item List.mem_cons_self, (Action.updateInbox_of_delete now (.evict item)
        (fun _ => rfl) rfl _).symm, rfl, rfl, rfl⟩
    have hkept : ∀ other ∈ items, ∀ row ∈ u.syncLaneInbox, other.isOf row = true →
        ∃ source ∈ u.syncLaneInbox, RemovedInput.ofRow source = other := by
      intro other hother row hrow hof
      rw [hinbox] at hrow ⊢
      obtain ⟨hrow, hkeep⟩ := Rows.mem_deleteWhere.mp hrow
      obtain ⟨source, hmem, rfl⟩ := hsource other (List.mem_cons_of_mem _ hother) row hrow hof
      refine ⟨source, Rows.mem_deleteWhere.mpr ⟨hmem, ?_⟩, rfl⟩
      -- a row with the same input and owner would have been removed with its source
      simp only [RemovedInput.isOf, RemovedInput.ofRow, Bool.and_eq_true, beq_iff_eq] at hof
      simpa only [RemovedInput.isOf, hof.1, hof.2] using hkeep
    obtain ⟨log, hlog, hall⟩ := ih (fun other hother => hsub (List.mem_cons_of_mem _ hother))
      hrest hkept
    refine ⟨.evict item :: log, .cons hstep hlog, ?_⟩
    intro action haction
    rcases List.mem_cons.mp haction with rfl | haction
    · exact hsub List.mem_cons_self
    · exact hall action haction

section

variable (queues : InboxInput → Prop)

theorem deleteOldest_logs (cutoff : Option Int) (limit : Nat) :
    Logs (Action.Step now) (deleteOldest cutoff limit : LocalM δ _) (ReceiveAction queues) := by
  intro s removed t h
  obtain ⟨items, hitems, hrest⟩ := query_bind_ok.mp h
  obtain ⟨_, hloop, rfl⟩ := bind_pure_ok.mp hrest
  refine deleteInputs_log (List.Subset.refl _) hloop ?_
  intro item hitem row hrow hof
  rw [← hitems] at hitem
  obtain ⟨source, hsource, rfl⟩ := List.mem_map.mp hitem
  have hmem := List.mem_of_mem_take hsource
  rw [List.mem_insertionSort] at hmem
  exact ⟨source, (List.mem_filter.mp hmem).1, rfl⟩

theorem makeRoom_logs (additional : Nat) :
    Logs (Action.Step now) (makeRoom additional now : LocalM δ _) (ReceiveAction queues) := by
  refine .bind_read .refuseIf fun _ => .bind_reply (deleteOldest_logs queues _ _) (fun expired => ?_)
    fun expired => .bind fun count => .ite (.bind fun evicted => .pure ?_) (.pure ?_)
  · refine .bind_read (.query _) fun count => .ite (.bind_reply (deleteOldest_logs queues _ _)
      (fun evicted => .pure _) fun evicted => .pure ?_) (.pure _)
    exact fun _ action h => h.mono (fun _ h => h) (List.subset_append_right _ _)
  · exact fun _ action h => h.mono (fun _ h => h) (List.subset_append_left _ _)
  · exact fun _ action h => h

theorem purgeExpired_logs (limit : Nat) :
    Logs (Action.Step now) (purgeExpired now limit : LocalM δ _) (ReceiveAction queues) := by
  refine .bind_read .refuseIf fun _ => .immediate
    (.bind_reply (deleteOldest_logs queues _ _) (fun removed => .pure _) fun removed => .pure ?_)
  rintro _ action h _ ⟨⟩
  exact h

end

section

variable (platform : Platform)

theorem examineEvents_subset (input : OrdinaryReceiveBatch) (events : List InboxEvent)
    (ids positions : List String) :
    Returns (examineEvents platform input ids positions events : LocalM δ _)
      fun examined _ => examined.1 ⊆ events := by
  induction events generalizing ids positions with
  | nil => exact .pure fun _ => List.Subset.refl _
  | cons event rest ih =>
    refine .bind fun _ => .bind fun _ => .bind fun _ => .bind fun _ => .bind fun _ =>
      .bind fun _ => .bind fun _ => .bind fun duplicate => .map_pure ((ih _ _).mono ?_)
    intro tail _ htail
    cases duplicate with
    | true => exact List.subset_cons_of_subset _ htail
    | false => exact List.cons_subset_cons _ htail

theorem receiveOrdinary_logs (input : OrdinaryReceiveBatch) :
    Logs (Action.Step now) (receiveOrdinary platform input now : LocalM δ _)
      fun outcome => ReceiveAction (fun row => ∃ delivery ∈ input.deliveries, row.Carries delivery)
        outcome.removed := by
  refine .immediate (.bind_read (requireBinding_keeps _) fun _ =>
    .bind_read (requireMessageSyncRunGeneration_keeps _ _) fun _ => .bind_read (.query _) fun _ =>
    .bind_read .refuseIf fun _ => .bind_read (loadMessageSyncState_keeps _) fun access => ?_)
  cases access with
  | bootstrapRequired fence => exact .throw
  | ready current =>
    refine .bind_read .refuseIf fun _ => .bind_read .attempt fun _ => .bind_read .refuseIf
      fun _ => .bind_returns (examineEvents_keeps _ _ _ _ _) (examineEvents_subset _ _ _ _ _)
      fun examined hsub => .bind_reply (makeRoom_logs (fun _ => False) _) (fun removed => ?_)
      fun removed => .bind fun _ => .bind ?_
    · refine .bind_fixed (.forEach fun event hevent => (insertInput_logs _ _ _ _ _ _).mono
        fun _ action h => h.mono (fun row hrow => ⟨_, List.mem_map_of_mem (hsub hevent), hrow⟩)
          (List.Subset.refl _))
        (fun _ _ h _ _ => h.mono (fun _ h => h) (List.nil_subset _)) fun _ =>
        .bind_fixed (logs_of_keeps
        (advanceMessageSyncState_keeps offCursor_receiveTables _)) ?_ fun advanced => ?_
      · rintro _ _ rfl _ _
        trivial
      · cases advanced with
        | bootstrapRequired fence => exact .throw
        | ready state => exact .pure _
    · intro advanced
      cases advanced with
      | bootstrapRequired fence => exact .throw
      | ready state =>
        refine .pure ?_
        rintro _ action h _ ⟨⟩
        exact h.mono (fun _ h => h.elim) (List.Subset.refl _)

theorem pendingInputs_subset (owner epoch : String) (inputs : List (Lane × InboxEvent)) :
    Returns (pendingInputs platform owner epoch inputs : LocalM δ _)
      fun pending _ => pending.1 ⊆ inputs := by
  induction inputs with
  | nil => exact .pure fun _ => List.Subset.refl _
  | cons input rest ih =>
    refine .bind fun duplicate => .map_pure (ih.mono ?_)
    intro tail _ htail
    cases duplicate with
    | true => exact List.subset_cons_of_subset _ htail
    | false => exact List.cons_subset_cons _ htail

theorem insertBaselineAndEvents_logs (binding : IdentityAccountBinding)
    (installation epoch anchor : String) (baseline : Baseline) (events : List InboxEvent)
    (draw : Nat) :
    Logs (Action.Step now) (insertBaselineAndEvents platform binding installation epoch anchor
      baseline events draw now : LocalM δ _) fun outcome => ReceiveAction
        (fun row => ∃ delivery ∈ snapshotDeliveries binding.ownerIdentityId epoch anchor baseline
          events draw, row.Carries delivery) outcome.removed := by
  refine .bind_read (.query _) fun _ => .bind_read .orError fun _ => .bind_read .refuseIf fun _ =>
    .bind_returns (pendingInputs_keeps _ _ _ _) (pendingInputs_subset _ _ _ _) fun pending hsub =>
    .bind_reply (makeRoom_logs (fun _ => False) _) (fun removed => ?_) fun removed => .bind fun _ => .pure ?_
  · exact .bind_fixed (.forEach fun input hinput => (insertInput_logs _ _ _ _ _ _).mono
      fun _ action h => h.mono (fun row hrow => ⟨_, List.mem_map_of_mem (hsub hinput), hrow⟩)
        (List.Subset.refl _))
      (fun _ _ h => h.mono (fun _ h => h) (List.nil_subset _)) fun _ => .pure _
  · exact fun _ action h => h.mono (fun _ h => h.elim) (List.Subset.refl _)

theorem receiveSnapshot_logs (checkpoint : SnapshotApplyInput) (binding : IdentityAccountBinding)
    (installation : String) (baseline : Baseline) (events : List InboxEvent) (draw : Nat)
    (unixTime : Int) :
    Logs (Action.Step now) (receiveSnapshot platform checkpoint binding installation baseline
      events draw now unixTime : LocalM δ _) fun outcome => ReceiveAction
        (fun row => ∃ delivery ∈ snapshotDeliveries binding.ownerIdentityId checkpoint.streamEpoch
          checkpoint.snapshotScanSeq baseline events draw, row.Carries delivery)
        outcome.removed := by
  refine .immediate (.bind_read (validateSnapshotReceive_keeps _) fun _ =>
    .bind_read .refuseIf fun _ => .bind_reply (insertBaselineAndEvents_logs _ _ _ _ _ _ _ _)
    (fun outcome => ?_) fun outcome => .bind fun _ => .pure ?_)
  · refine .bind_fixed (logs_of_keeps
      (commitSnapshotReceiveState_keeps offCursor_receiveTables.toOffLanes
        (upsertBootstrapState_keeps offCursor_receiveTables _))) ?_ fun _ => .pure _
    rintro _ _ rfl _ _
    trivial
  · rintro _ action h _ ⟨⟩
    exact h

theorem receiveBootstrap_logs (input : BootstrapApplyInput) (baseline : Baseline)
    (expectedRunGeneration : Int) (draw : Nat) :
    Logs (Action.Step now) (receiveBootstrap platform input baseline expectedRunGeneration
      draw now : LocalM δ _) fun outcome => ReceiveAction
        (fun row => ∃ delivery ∈ snapshotDeliveries input.binding.ownerIdentityId
          input.state.streamEpoch input.state.scanSeq baseline [] draw, row.Carries delivery)
        outcome.1.removed := by
  refine .immediate (.bind_read (requireMessageSyncRunGeneration_keeps _ _) fun _ =>
    .bind_read .refuseIf fun _ => .bind_read (retainBootstrapReceivePosition_keeps _)
    fun retained => .bind_fixed (logs_of_keeps
      (applyBootstrap_keeps offCursor_receiveTables.toOffLanes
        (upsertBootstrapState_keeps offCursor_receiveTables _)))
    ?_ fun _ => .bind_reply (insertBaselineAndEvents_logs _ _ _ _ _ _ _ _)
    (fun outcome => .pure _) fun outcome => .pure ?_)
  · rintro _ _ rfl _ _
    trivial
  · rintro _ action h _ ⟨⟩
    exact h

end

/-! ## The rows that making room removes -/

def Db.without (db : Db δ) (items : List RemovedInput) : Db δ :=
  { db with
    syncLaneInbox := items.foldl (fun rows item => Rows.deleteWhere item.isOf rows)
      db.syncLaneInbox }

/-- The rows that `make_room` removes: expired ones, and the oldest when the inbox is full. -/
def Db.roomRows (db : Db δ) (additional : Nat) (now : Int) : List InboxRow :=
  let expired := db.oldestRows (some (retentionCutoff now)) syncCleanupBatchSize
  let rest := db.without (expired.map RemovedInput.ofRow)
  let excess := rest.syncLaneInbox.length + additional - maxInboxRecords
  if additional > 0 ∧ excess > 0 then expired ++ rest.oldestRows none excess else expired

theorem deleteInputs_ok {v : Unit} (h : (forEach items deleteInput).run s = .ok v t) :
    t = s.without items := by
  induction items generalizing s with
  | nil => exact (pure_ok.mp h).2.symm
  | cons item items ih =>
    obtain ⟨_, u, hfirst, hrest⟩ := bind_ok.mp h
    rw [ih hrest, ← execute_ok.mp hfirst]
    rfl

theorem deleteOldest_ok {cutoff : Option Int} {limit : Nat}
    (h : (deleteOldest cutoff limit).run s = .ok removed t) :
    removed = (s.oldestRows cutoff limit).map RemovedInput.ofRow ∧ t = s.without removed := by
  obtain ⟨items, rfl, hrest⟩ := query_bind_ok.mp h
  obtain ⟨v, hloop, rfl⟩ := bind_pure_ok.mp hrest
  exact ⟨rfl, deleteInputs_ok hloop⟩

theorem Db.without_append (db : Db δ) (items items' : List RemovedInput) :
    (db.without items).without items' = db.without (items ++ items') := by
  simp [Db.without, List.foldl_append]

theorem Db.mem_without {row : InboxRow} {db : Db δ} :
    row ∈ (db.without items).syncLaneInbox ↔
      row ∈ db.syncLaneInbox ∧ ∀ item ∈ items, item.isOf row = false := by
  induction items generalizing db with
  | nil => simp [Db.without]
  | cons item items ih =>
    rw [List.forall_mem_cons, ← and_assoc, ← Rows.mem_deleteWhere]
    exact @ih { db with syncLaneInbox := Rows.deleteWhere item.isOf db.syncLaneInbox }

theorem makeRoom_ok {additional : Nat} (h : (makeRoom additional now).run s = .ok removed t) :
    removed = (s.roomRows additional now).map RemovedInput.ofRow ∧ t = s.without removed := by
  unfold makeRoom makeRoomWithLimit at h
  obtain ⟨-, hrest⟩ := refuseIf_bind_ok.mp h
  obtain ⟨expired, u, hexpired, hrest⟩ := bind_ok.mp hrest
  obtain ⟨rfl, rfl⟩ := deleteOldest_ok hexpired
  obtain ⟨count, rfl, hrest⟩ := query_bind_ok.mp hrest
  simp only [Db.roomRows]
  by_cases hfull : additional > 0 ∧ (s.without ((s.oldestRows (some (retentionCutoff now))
      syncCleanupBatchSize).map RemovedInput.ofRow)).syncLaneInbox.length + additional -
      maxInboxRecords > 0
  · simp only [if_pos hfull] at hrest ⊢
    obtain ⟨evicted, v, hevicted, hpure⟩ := bind_ok.mp hrest
    obtain ⟨hitems, hstate⟩ := deleteOldest_ok hevicted
    rw [← (pure_ok.mp hpure).1, ← (pure_ok.mp hpure).2, hstate, Db.without_append, hitems,
      List.map_append]
    exact ⟨rfl, rfl⟩
  · simp only [if_neg hfull] at hrest ⊢
    obtain ⟨rfl, rfl⟩ := pure_ok.mp hrest
    exact ⟨rfl, rfl⟩

/-! ## Secure-lane inputs -/

theorem validateSyncLaneHandoffBinding_keeps {γ : Type} {f : Db δ → γ}
    (input : SyncLaneHandoffInput) :
    Keeps (validateSyncLaneHandoffBinding input : LocalM δ _) f :=
  .bind (.query _) fun _ => .bind .orError fun _ => .bind .refuseIf fun _ =>
    .bind (.query _) fun _ => .refuseIf

theorem advanceLane_logs (next : LaneSyncState) (owner : String) (lane : SyncLane)
    (unixTime : Int) (value : α) :
    Logs (Action.Step now) (do
        advanceLaneSyncState next
        clearLaneTransportError owner lane unixTime
        pure value : LocalM δ α) fun _ action => action = .other :=
  logs_of_keeps (.bind (advanceLaneSyncState_keeps offCursor_receiveTables.toOffLanes _) fun _ =>
    .reply (clearLaneTransportError_keeps offCursor_receiveTables.toOffLanes _ _ _))

def Db.handoffRoom (db : Db δ) (input : SyncLaneHandoffInput) (now : Int) : List InboxRow :=
  match db.syncLaneInbox.find? fun row =>
    row.isEvent input.ownerIdentityId (.secure input.lane) input.laneEpoch input.eventId with
  | some _ => []
  | none => db.roomRows 1 now

theorem commitSyncLaneHandoff_log {platform : Platform} {input : SyncLaneHandoffInput}
    {outcome : SyncLaneHandoffOutcome}
    (h : (commitSyncLaneHandoff platform input now).run s = .ok outcome t) :
    ∃ log, Run (Action.Step now) s log t ∧ ∀ action ∈ log,
      ReceiveAction (fun row => row.lane = .secure input.lane)
        ((s.handoffRoom input now).map RemovedInput.ofRow) action := by
  obtain ⟨_, -, hsized⟩ := attempt_bind_ok.mp h
  obtain ⟨-, htx⟩ := refuseIf_bind_ok.mp hsized
  rcases immediate_ok.mp htx with hbody | ⟨rfl, -⟩
  swap
  · exact ⟨[], .nil _, by simp⟩
  obtain ⟨_, u, hbinding, hlookup⟩ := bind_ok.mp hbody
  obtain rfl : u = s := validateSyncLaneHandoffBinding_keeps (f := id) input _ _ _ hbinding
  obtain ⟨existing, hexisting, hcases⟩ := query_bind_ok.mp hlookup
  cases existing with
  | some row =>
    obtain ⟨-, hadvance⟩ := refuseIf_bind_ok.mp hcases
    obtain ⟨log, hlog, hall⟩ := advanceLane_logs _ _ _ _ _ _ _ _ hadvance
    refine ⟨log, hlog, fun action haction => ?_⟩
    rw [hall action haction]
    trivial
  | none =>
    obtain ⟨_, -, hfree⟩ := query_bind_ok.mp hcases
    obtain ⟨-, hmake⟩ := refuseIf_bind_ok.mp hfree
    obtain ⟨removed, v, hroom, hqueued⟩ := bind_ok.mp hmake
    obtain ⟨first, hfirst, hadmits⟩ := makeRoom_logs (fun row => row.lane = .secure input.lane) _ _ _ _ hroom
    rw [(makeRoom_ok hroom).1] at hadmits
    rw [Db.handoffRoom, hexisting]
    obtain ⟨_, w, hinsert, hadvance⟩ := bind_ok.mp hqueued
    obtain ⟨second, hsecond, hqueue⟩ := insertInboxRow_logs rfl _ _ _ hinsert
    obtain ⟨third, hthird, hother⟩ := advanceLane_logs _ _ _ _ _ _ _ _ hadvance
    refine ⟨first ++ (second ++ third), Run.append_iff.mpr ⟨_, hfirst,
      Run.append_iff.mpr ⟨_, hsecond, hthird⟩⟩, fun action haction => ?_⟩
    simp only [List.mem_append] at haction
    rcases haction with haction | haction | haction
    · exact hadmits action haction
    · obtain ⟨rowid, rfl⟩ := hqueue action haction
      exact rfl
    · rw [hother action haction]
      trivial

end LocalState
end Awiki

import Awiki.ClaimSafety

/-!
# Completing claims of the secure lanes

`complete_claim` stores the receipt of a secure-lane input before it deletes the row.  The
receipts are unique by event, by position in the lane and by position in the group, and the
statement resolves a conflict of the first kind only.  So a live claim is completed if its
group sequence passes the check of the table and, in addition, its event has a receipt already
or both of its positions are free, and fails otherwise.
-/

namespace Awiki
namespace LocalState

open Tx

variable {δ : Type} {platform : Platform} {reducers : DomainReducers δ} {now : Int}

/-! ## Rows and claims as the table admits them -/

/-- The checks of `sync_lane_inbox` on the columns that a receipt is made of. -/
structure InboxInput.Stored (input : InboxInput) : Prop where
  eventId : sqlBlank input.eventId = false
  epoch : isPositiveDecimalColumn input.laneEpoch = true
  position : isPositiveDecimalColumn input.position = true
  shape : laneShape input = true

variable {input : InboxInput} {s t : Db δ} {lane : SyncLane}

theorem stored_of_not_refused {db : Db δ} (h : inboxRowRefused db input = false) :
    input.Stored := by
  simp only [inboxRowRefused, Bool.or_eq_false_iff, Bool.not_eq_false'] at h
  obtain ⟨⟨⟨⟨⟨⟨-, heventId⟩, -⟩, hepoch⟩, hposition⟩, hshape⟩, -⟩ := h
  exact ⟨heventId, hepoch, hposition, hshape⟩

structure InputClaim.Copies (claim : InputClaim) (input : InboxInput) : Prop extends
    claim.Describes input where
  groupDid : input.groupDid = claim.groupDid
  logicalEventSeq : input.logicalEventSeq = claim.logicalEventSeq

structure World.Checked (w : World δ) : Prop where
  rows : ∀ row ∈ w.db.syncLaneInbox, row.toInboxInput.Stored
  claims : ∀ claim ∈ w.handed, ∃ input : InboxInput, input.Stored ∧ claim.Copies input

theorem rowsStored_step {action : Action} (h : ∀ row ∈ s.syncLaneInbox, row.toInboxInput.Stored)
    (hstep : Action.Step now s action t) :
    ∀ row ∈ t.syncLaneInbox, row.toInboxInput.Stored := by
  intro row hrow
  rcases hstep.mem_inbox hrow with ⟨old, hold, rfl⟩ | ⟨input, rfl, rfl⟩
  · rw [Action.updateRow_toInboxInput]
    exact h old hold
  · exact stored_of_not_refused hstep.guard.1

theorem rowsStored_run {log : List Action} (hrun : Run (Action.Step now) s log t)
    (h : ∀ row ∈ s.syncLaneInbox, row.toInboxInput.Stored) :
    ∀ row ∈ t.syncLaneInbox, row.toInboxInput.Stored :=
  hrun.invariant (P := fun db : Db δ => ∀ row ∈ db.syncLaneInbox, row.toInboxInput.Stored)
    (fun _ _ _ h hstep => rowsStored_step h hstep) h

theorem claims_of_run {op : Operation δ} {reply : Reply}
    (h : (op.run platform reducers now).run s = .ok reply t)
    (hrows : ∀ row ∈ s.syncLaneInbox, row.toInboxInput.Stored) :
    ∀ claim ∈ reply.claims, ∃ input : InboxInput, input.Stored ∧ claim.Copies input := by
  intro claim hclaim
  cases op with
  | claimInputs binding limit tokens =>
    obtain ⟨claims, hrun, rfl⟩ := bind_pure_ok.mp h
    rcases claimInputs_log hrun with ⟨rfl, rfl⟩ | ⟨inputIds, mid, rows, hfirst, ⟨free, -, hcandidates⟩,
      -, rfl⟩
    · cases hclaim
    · obtain ⟨pair, hpair, rfl⟩ := List.mem_map.mp hclaim
      have hdue := due_of_mem_candidates (hcandidates ▸ (List.of_mem_zip hpair).1)
      refine ⟨pair.1.toInboxInput, rowsStored_run hfirst hrows _ hdue.queued, ?_⟩
      exact ⟨⟨rfl, hdue.owner, rfl, rfl, rfl, rfl, rfl, rfl⟩, rfl, rfl⟩
  | commitSyncLaneHandoff input =>
    obtain ⟨outcome, u, -, hpure⟩ := bind_ok.mp h
    obtain ⟨rfl, -⟩ := pure_ok.mp hpure
    cases hclaim
  | reserveProcessingSlot token =>
    obtain ⟨slot, u, -, hpure⟩ := bind_ok.mp h
    obtain ⟨rfl, -⟩ := pure_ok.mp hpure
    cases hclaim
  | _ =>
    rw [(Operation.reply_of_plain rfl h).1] at hclaim
    cases hclaim

theorem World.Checked.step {w w' : World δ} {e : Event δ} (h : w.Checked)
    (hstep : Step platform reducers w e w') : w'.Checked := by
  obtain ⟨log, hlog⟩ := hstep.log
  refine ⟨rowsStored_run hlog.run h.rows, ?_⟩
  intro claim hclaim
  rw [hstep.handed', List.mem_append] at hclaim
  rcases hclaim with hnew | hold
  · cases houtcome : e.outcome with
    | ok reply =>
      have hreply : e.reply = reply := by rw [Event.reply, houtcome]
      rw [hreply] at hnew
      exact claims_of_run (hstep.ran_ok houtcome) h.rows claim hnew
    | error error =>
      have hreply : e.reply = {} := by rw [Event.reply, houtcome]
      rw [hreply] at hnew
      cases hnew
  · exact h.claims claim hold

theorem World.Checked.of_run {w₀ w : World δ} {events : List (Event δ)} (hstart : w₀.Initial)
    (hrun : Run (Step platform reducers) w₀ events w) : w.Checked :=
  hrun.invariant (P := World.Checked) (fun _ _ _ h hstep => h.step hstep)
    ⟨by simp [hstart.inbox], by simp [hstart.handed]⟩

/-! ## The place of a receipt -/

def Db.HasLaneReceipt (db : Db δ) (claim : InputClaim) (lane : SyncLane) : Prop :=
  ∃ receipt ∈ db.syncLaneAppliedEvents, receipt.ownerIdentityId = claim.ownerIdentityId ∧
    receipt.lane = lane ∧ receipt.eventId = claim.eventId

/-- The sequence that is stored for the claim, if any, is the one of a group and passes the
check on the column. -/
def InputClaim.GroupSequenceStored (claim : InputClaim) (lane : SyncLane) : Prop :=
  ∀ sequence, logicalSequence claim = some sequence →
    lane = .p6Group ∧ isPositiveDecimalColumn sequence = true

/-- No event was completed at the position of the claim in the lane or in the group. -/
structure Db.LanePositionsFree (db : Db δ) (claim : InputClaim) (lane : SyncLane) : Prop where
  position : ∀ receipt ∈ db.syncLaneAppliedEvents,
    receipt.ownerIdentityId = claim.ownerIdentityId → receipt.lane = lane →
      ¬ (receipt.streamEpoch = claim.laneEpoch ∧ receipt.eventSeq = claim.position)
  groupPosition : ∀ receipt ∈ db.syncLaneAppliedEvents,
    receipt.ownerIdentityId = claim.ownerIdentityId → receipt.lane = lane →
      receipt.groupDid = claim.groupDid → receipt.groupEventSeq.isSome = true →
        receipt.groupEventSeq ≠ logicalSequence claim

section

variable {claim : InputClaim}

theorem sameEvent_laneReceipt {receipt : LaneAppliedEvent} :
    receipt.sameEvent (laneReceipt platform claim lane now) = true ↔
      receipt.ownerIdentityId = claim.ownerIdentityId ∧ receipt.lane = lane ∧
        receipt.eventId = claim.eventId := by
  simp [LaneAppliedEvent.sameEvent, laneReceipt, and_assoc]

theorem laneGroupCheck (hstored : input.Stored) (hcopies : claim.Copies input)
    (hlane : claim.lane = .secure lane) :
    (match claim.groupDid, logicalSequence claim with
      | none, none => true
      | none, some _ => false
      | some group, sequence => lane == .p6Group && !sqlBlank group &&
          (match sequence with
            | some sequence => isPositiveDecimalColumn sequence
            | none => true)) = true ↔ claim.GroupSequenceStored lane := by
  unfold InputClaim.GroupSequenceStored
  have hshape := hstored.shape
  simp only [laneShape, hcopies.lane, hlane, hcopies.groupDid] at hshape
  cases lane with
  | p5Device =>
    simp only [Bool.and_eq_true, Option.isNone_iff_eq_none] at hshape
    rw [hshape.2]
    cases hsequence : logicalSequence claim with
    | none => simp
    | some sequence => simp
  | p6Group =>
    cases hgroup : claim.groupDid with
    | none =>
      rw [hgroup] at hshape
      simp at hshape
    | some group =>
      rw [hgroup] at hshape
      simp only [Bool.and_eq_true] at hshape
      cases hsequence : logicalSequence claim with
      | none => simpa using hshape.2
      | some sequence =>
        have hblank : sqlBlank group = false := by simpa using hshape.2
        simp [hblank]

theorem laneReceiptMalformed_iff (hstored : input.Stored) (hcopies : claim.Copies input)
    (hlane : claim.lane = .secure lane) :
    laneReceiptMalformed (laneReceipt platform claim lane now) = false ↔
      claim.GroupSequenceStored lane := by
  have heventId : sqlBlank claim.eventId = false := hcopies.eventId ▸ hstored.eventId
  have hepoch : isPositiveDecimalColumn claim.laneEpoch = true := hcopies.laneEpoch ▸ hstored.epoch
  have hposition : isPositiveDecimalColumn claim.position = true :=
    hcopies.position ▸ hstored.position
  unfold laneReceiptMalformed
  simp only [laneReceipt, heventId, hepoch, hposition, Bool.not_true, Bool.or_false,
    Bool.false_or, Bool.not_eq_false']
  exact laneGroupCheck hstored hcopies hlane

theorem lanePlaceTaken_iff {db : Db δ} (hsequence : claim.GroupSequenceStored lane)
    (hnew : ¬ db.HasLaneReceipt claim lane) :
    lanePlaceTaken db (laneReceipt platform claim lane now) = false ↔
      db.LanePositionsFree claim lane := by
  have hother : ∀ receipt ∈ db.syncLaneAppliedEvents,
      receipt.sameEvent (laneReceipt platform claim lane now) = false := by
    intro receipt hreceipt
    rw [← Bool.not_eq_true, sameEvent_laneReceipt]
    intro hsame
    exact hnew ⟨receipt, hreceipt, hsame⟩
  unfold lanePlaceTaken
  simp only [laneReceipt, List.any_eq_false]
  constructor
  · intro hfree
    refine ⟨?_, ?_⟩
    · rintro receipt hreceipt howner rfl ⟨hsame, hseq⟩
      apply hfree receipt hreceipt
      simp only [Bool.and_eq_true, Bool.or_eq_true, beq_iff_eq, Bool.not_eq_true']
      exact ⟨⟨⟨hother receipt hreceipt, howner⟩, trivial⟩, .inl ⟨hsame, hseq⟩⟩
    · rintro receipt hreceipt howner rfl hdid hsome hseq
      apply hfree receipt hreceipt
      obtain ⟨sequence, hsequence'⟩ := Option.isSome_iff_exists.mp hsome
      have hp6 := (hsequence sequence (hseq ▸ hsequence')).1
      simp only [Bool.and_eq_true, Bool.or_eq_true, beq_iff_eq, Bool.not_eq_true']
      exact ⟨⟨⟨hother receipt hreceipt, howner⟩, trivial⟩, .inr ⟨⟨⟨hp6, hsome⟩, hdid⟩, hseq⟩⟩
  · rintro ⟨hfree, hgroups⟩ receipt hreceipt htaken
    simp only [Bool.and_eq_true, Bool.or_eq_true, beq_iff_eq] at htaken
    obtain ⟨⟨⟨-, howner⟩, hlane'⟩, hplace | ⟨⟨⟨-, hsome⟩, hdid⟩, hseq⟩⟩ := htaken
    · exact hfree receipt hreceipt howner hlane' hplace
    · exact hgroups receipt hreceipt howner hlane' hdid hsome hseq

theorem writeReceiptHash_ok_iff (hstored : input.Stored) (hcopies : claim.Copies input)
    (hlane : claim.lane = .secure lane) :
    (∃ t, (writeReceiptHash platform claim now).run s = .ok () t) ↔
      claim.GroupSequenceStored lane ∧
        (s.HasLaneReceipt claim lane ∨ s.LanePositionsFree claim lane) := by
  have hknown : (s.syncLaneAppliedEvents.any
      (·.sameEvent (laneReceipt platform claim lane now))) = true ↔
      s.HasLaneReceipt claim lane := by
    simp only [List.any_eq_true, sameEvent_laneReceipt, Db.HasLaneReceipt]
  have hchecks : laneReceiptMalformed (laneReceipt platform claim lane now) = false ↔ _ :=
    laneReceiptMalformed_iff hstored hcopies hlane
  unfold writeReceiptHash
  rw [hlane]
  simp only [bind_ok, query_ok, refuseIf_ok, execute_ok]
  constructor
  · rintro ⟨t, known, _, ⟨rfl, rfl⟩, taken, _, ⟨rfl, rfl⟩, _, _, ⟨haccept, rfl⟩, -⟩
    obtain ⟨hformed, hplace⟩ := Bool.or_eq_false_iff.mp haccept
    have hsequence := hchecks.mp hformed
    refine ⟨hsequence, ?_⟩
    by_cases hhas : s.HasLaneReceipt claim lane
    · exact .inl hhas
    · right
      apply (lanePlaceTaken_iff hsequence hhas).mp
      rw [← hknown] at hhas
      simpa [hhas] using hplace
  · rintro ⟨hsequence, h⟩
    refine ⟨_, _, s, ⟨rfl, rfl⟩, _, s, ⟨rfl, rfl⟩, (), s, ⟨?_, rfl⟩, rfl⟩
    rw [hchecks.mpr hsequence, Bool.false_or]
    by_cases hhas : s.HasLaneReceipt claim lane
    · rw [hknown.mpr hhas]
      rfl
    · have hfree := h.resolve_left hhas
      rw [(lanePlaceTaken_iff hsequence hhas).mpr hfree]
      exact Bool.and_false _

end

/-! ## Completion -/

def Db.inputs (db : Db δ) : List InboxInput :=
  db.syncLaneInbox.map (·.toInboxInput)

theorem wakeScope_ok (s : Db δ) (claim : InputClaim) :
    ∃ t, (wakeScope claim now).run s = .ok () t := by
  cases hrun : (wakeScope claim now).run s with
  | ok v t => exact ⟨t, rfl⟩
  | error e t => exact absurd hrun (Operation.wakeScope_neverFails claim now s e t)

theorem completeClaim_ok_iff {claim : InputClaim} {row : InboxRow}
    (hlive : LiveClaim s claim now row) :
    (∃ t, (completeClaim platform claim now).run s = .ok () t) ↔
      ∃ t, (writeReceiptHash platform claim now).run s = .ok () t := by
  have hrequire : (requireClaim claim now).run s = .ok () s :=
    requireClaim_ok.mpr ⟨claimIsLive_iff.mpr ⟨row, hlive⟩, rfl⟩
  unfold completeClaim
  simp only [run_bind_of_ok hrequire]
  constructor
  · rintro ⟨t, h⟩
    obtain ⟨_, u, hwrite, -⟩ := bind_ok.mp h
    exact ⟨u, hwrite⟩
  · rintro ⟨u, hwrite⟩
    obtain ⟨v, hwake⟩ : ∃ v, (wakeScope claim now).run u = .ok () v := wakeScope_ok u claim
    rw [run_bind_of_ok hwrite, run_bind_of_ok hwake]
    exact ⟨_, execute_ok.mpr rfl⟩

theorem writeReceiptHash_inbox (claim : InputClaim) :
    Keeps (writeReceiptHash platform claim now : LocalM δ _) Db.syncLaneInbox := by
  unfold writeReceiptHash
  split
  · exact .execute fun _ => rfl
  · exact .execute fun _ => rfl
  · exact .bind (.query _) fun _ => .bind (.query _) fun _ => .bind .refuseIf fun _ =>
      .execute fun _ => rfl

theorem wakeScope_rows {claim : InputClaim} (h : (wakeScope claim now).run s = .ok () t) :
    ∃ wake : InboxRow → InboxRow, t.syncLaneInbox = s.syncLaneInbox.map wake ∧
      (∀ row, (wake row).toInboxInput = row.toInboxInput) ∧
      ∀ row, (wake row).attempt = row.attempt := by
  unfold wakeScope at h
  split at h
  case h_3 lane hlane =>
    obtain ⟨scope, -, hupdate⟩ := query_bind_ok.mp h
    rw [← execute_ok.mp hupdate]
    refine ⟨_, rfl, ?_, ?_⟩
    · intro row
      split <;> rfl
    · intro row
      split <;> rfl
  case h_1 | h_2 =>
    obtain ⟨-, rfl⟩ := pure_ok.mp h
    exact ⟨id, (List.map_id _).symm, fun _ => rfl, fun _ => rfl⟩

theorem completeClaim_inputs {claim : InputClaim} {row : InboxRow}
    (hkey : Rows.UniqueKey (fun row : InboxRow => row.inputId) s.syncLaneInbox)
    (hlive : LiveClaim s claim now row) (h : (completeClaim platform claim now).run s = .ok () t) :
    t.inputs = s.inputs.filter (·.inputId != claim.inputId) := by
  obtain ⟨_, s₁, hrequire, h⟩ := bind_ok.mp h
  obtain ⟨-, rfl⟩ := requireClaim_ok.mp hrequire
  obtain ⟨_, s₂, hwrite, h⟩ := bind_ok.mp h
  obtain ⟨_, s₃, hwake, hdelete⟩ := bind_ok.mp h
  rw [← execute_ok.mp hdelete]
  have hkept : s₂.syncLaneInbox = s.syncLaneInbox := writeReceiptHash_inbox claim _ _ _ hwrite
  obtain ⟨wake, hwoken, hinput, hattempt⟩ := wakeScope_rows hwake
  have hholds : ∀ row' ∈ s.syncLaneInbox,
      (!(wake row').holds claim) = (row'.inputId != claim.inputId) := by
    intro row' hrow'
    by_cases hid : row'.inputId = claim.inputId
    · have hsame : row' = row := hkey.eq_of_key_eq hrow' hlive.queued (hid.trans hlive.input.symm)
      obtain ⟨deadline, htoken, -⟩ := hlive.attempt
      simp [InboxRow.holds, hinput, InboxRow.attemptToken, hattempt, hsame, hlive.input,
        hlive.owner, htoken]
    · rw [bne_iff_ne.mpr hid]
      simp [InboxRow.holds, hinput, hid]
  calc (Rows.deleteWhere (·.holds claim) s₃.syncLaneInbox).map (·.toInboxInput)
      = ((s.syncLaneInbox.map wake).filter fun row => !row.holds claim).map (·.toInboxInput) := by
        rw [hwoken, hkept]
        rfl
    _ = (s.syncLaneInbox.filter fun row => !(wake row).holds claim).map (·.toInboxInput) := by
        rw [List.filter_map, List.map_map]
        apply List.map_congr_left
        intro row' _
        exact hinput row'
    _ = (s.syncLaneInbox.filter fun row => row.inputId != claim.inputId).map (·.toInboxInput) := by
        rw [List.filter_congr hholds]
    _ = s.inputs.filter (·.inputId != claim.inputId) := by
        rw [Db.inputs, List.filter_map]
        rfl

section Runs

variable {w₀ w : World δ} {history : List (Event δ)}

/-- A live claim of a secure lane is completed exactly if its group sequence passes the check
and its event has a receipt or both of its positions are free; then its row is deleted, no other
one, and the event has a receipt. -/
theorem secure_claim_completes_iff (hstart : w₀.Initial)
    (hrun : Run (Step platform reducers) w₀ history w) {claim : InputClaim} {lane : SyncLane}
    {row : InboxRow} (hhanded : claim ∈ w.handed) (hlane : claim.lane = .secure lane)
    (hlive : LiveClaim w.db claim now row) :
    ((∃ t, (completeClaim platform claim now).run w.db = .ok () t) ↔
      claim.GroupSequenceStored lane ∧
        (w.db.HasLaneReceipt claim lane ∨ w.db.LanePositionsFree claim lane)) ∧
    ∀ t, (completeClaim platform claim now).run w.db = .ok () t →
      t.inputs = w.db.inputs.filter (·.inputId != claim.inputId) ∧
        t.HasLaneReceipt claim lane := by
  obtain ⟨taken, slots, hinv⟩ := WorldInvariant.of_run hstart hrun
  obtain ⟨input, hstored, hcopies⟩ := (World.Checked.of_run hstart hrun).claims claim hhanded
  constructor
  · rw [completeClaim_ok_iff hlive]
    exact writeReceiptHash_ok_iff hstored hcopies hlane
  · intro t h
    refine ⟨completeClaim_inputs hinv.claims.inputKey hlive h, ?_⟩
    obtain ⟨receipt, hreceipt, howner, hsame, hevent, -⟩ :=
      (completeClaim_finished claim _ _ _ h).laneReceipt lane hlane
    exact ⟨receipt, hreceipt, howner, hsame, hevent⟩

end Runs

/-! Two inputs of one group position are handed over under two event ids. -/

namespace LaneSample

open Sample

def start : World Unit :=
  { world () with
    db := { database () with
      laneSyncState := [{ ownerIdentityId := "alice", lane := .p6Group, streamEpoch := "1",
                          scanSeq := "0", committedSeq := "0" }] } }

theorem start_initial : start.Initial :=
  ⟨rfl, rfl, List.nodup_nil, rfl, rfl, rfl⟩

def delivery (eventId position sequence : String) : SyncLaneHandoffInput where
  ownerIdentityId := "alice"
  accountIdSnapshot := "account"
  deviceIdSnapshot := "phone"
  authGenerationSnapshot := "1"
  clientInstanceIdSnapshot := "client"
  lane := .p6Group
  laneEpoch := "1"
  position := position
  eventId := eventId
  eventType := "p6.delivery.created"
  rawPayload := .obj [("body", .obj [("group_event_seq", .str sequence)])]
  groupDid := some "did:group"
  receivedAt := "2026-01-01T00:00:00Z"
  sourceCreatedAt := none
  sourceExpiresAt := none

def claim (eventId position sequence token : String) : InputClaim where
  inputId := "['alice','p6_group','1','" ++ eventId ++ "',]"
  ownerIdentityId := "alice"
  ownerDid := "did:alice"
  accountId := "account"
  deviceId := "phone"
  authGeneration := "1"
  lane := .secure .p6Group
  laneEpoch := "1"
  position := position
  eventId := eventId
  eventType := "p6.delivery.created"
  payload := (delivery eventId position sequence).rawPayload
  groupDid := some "did:group"
  logicalEventSeq := none
  receivedAt := "2026-01-01T00:00:00Z"
  sourceCreatedAt := none
  sourceExpiresAt := none
  token := token
  attemptCount := 1

def claiming : List (Int × Operation Unit) :=
  [ (1, .commitSyncLaneHandoff (delivery "a" "1" "7")),
    (1, .commitSyncLaneHandoff (delivery "b" "2" "7")),
    (2, .claimInputs binding 2 ["t", "u"]) ]

def claimed : World Unit :=
  start.calls Sample.platform Sample.reducers claiming

def completing : List (Int × Operation Unit) :=
  claiming ++ [(3, .completeClaim (claim "a" "1" "7" "t"))]

def completed : World Unit :=
  start.calls Sample.platform Sample.reducers completing

theorem live_completed : completed.db.claimIsLive (claim "b" "2" "7" "u") 3 = true := by
  decide +kernel

/-- The second message of the position can not be completed: its receipt is refused. -/
theorem second_event_of_position_fails :
    start.Initial ∧
    Run (Step Sample.platform Sample.reducers) start
      (Event.ofCalls Sample.platform Sample.reducers start completing) completed ∧
    claim "b" "2" "7" "u" ∈ completed.handed ∧
    (∃ row, LiveClaim completed.db (claim "b" "2" "7" "u") 3 row) ∧
    (Event.ofCall Sample.platform Sample.reducers completed 3
      (.completeClaim (claim "b" "2" "7" "u"))).outcome.isOk = false := by
  refine ⟨start_initial, run_of_calls ?_, ?_, claimIsLive_iff.mp live_completed, ?_⟩
  · decide +kernel
  · decide +kernel
  · decide +kernel

/-- The first one is completed. -/
theorem first_event_of_position_completes :
    ∃ t, (completeClaim Sample.platform (claim "a" "1" "7" "t") 3).run claimed.db = .ok () t ∧
      t.inputs = claimed.db.inputs.filter (·.inputId != "['alice','p6_group','1','a',]") ∧
      t.HasLaneReceipt (claim "a" "1" "7" "t") .p6Group := by
  have hlive : claimed.db.claimIsLive (claim "a" "1" "7" "t") 3 = true := by decide +kernel
  obtain ⟨row, hrow⟩ := claimIsLive_iff.mp hlive
  have hpermits : start.permitsAll Sample.platform Sample.reducers claiming = true := by
    decide +kernel
  have hhanded : claim "a" "1" "7" "t" ∈ claimed.handed := by decide +kernel
  have hreceipts : claimed.db.syncLaneAppliedEvents = [] := by decide +kernel
  have hsequence : logicalSequence (claim "a" "1" "7" "t") = some "7" := by decide +kernel
  have hfree : claimed.db.LanePositionsFree (claim "a" "1" "7" "t") .p6Group :=
    ⟨by simp [hreceipts], by simp [hreceipts]⟩
  have hstored : (claim "a" "1" "7" "t").GroupSequenceStored .p6Group := by
    intro sequence h
    rw [hsequence, Option.some_inj] at h
    subst h
    exact ⟨rfl, by decide +kernel⟩
  obtain ⟨hiff, hdone⟩ := secure_claim_completes_iff start_initial (run_of_calls hpermits) hhanded
    rfl hrow
  obtain ⟨t, ht⟩ := hiff.mpr ⟨hstored, .inr hfree⟩
  exact ⟨t, ht, hdone t ht⟩

end LaneSample

end LocalState
end Awiki

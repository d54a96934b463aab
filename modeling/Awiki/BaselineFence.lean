import Awiki.ClaimCompletion
import Awiki.OperationFrames
import Awiki.ReceiveDurability

/-!
# The fence of a baseline

While an open baseline of an owner is queued, no ordinary event of the owner is
projected, and the baselines of an owner are applied in the order in which they were
queued.  The first is checked again when an event is applied.  For the second, a baseline
is claimed only when every earlier one is out of retention: a later one is queued behind
it, and one that is out of retention stays so.
-/

namespace Awiki
namespace LocalState

open Tx

section Fence

variable {δ : Type} {platform : Platform} {reducers : DomainReducers δ} {now : Int}

structure BaselineInvariant (clock : Int) (db : Db δ) : Prop where
  inputKey : Rows.UniqueKey (fun row : InboxRow => row.inputId) db.syncLaneInbox
  ordered : (db.syncLaneInbox.map (·.toInboxInput)).Pairwise (·.rowid < ·.rowid)
  unclosed : ∀ row ∈ db.syncLaneInbox, row.lane = .baseline → row.closedAt = none
  first : ∀ row ∈ db.syncLaneInbox, row.lane = .baseline → row.attempt.isSome = true →
    ∀ other ∈ db.syncLaneInbox, other.ownerIdentityId = row.ownerIdentityId →
      other.lane = .baseline → other.rowid < row.rowid → other.createdAt ≤ retentionCutoff clock

theorem retentionCutoff_mono {clock clock' : Int} (h : clock ≤ clock') :
    retentionCutoff clock ≤ retentionCutoff clock' :=
  saturatingSub_mono h _

theorem BaselineInvariant.later {clock clock' : Int} {db : Db δ} (h : BaselineInvariant clock db)
    (hclock : clock ≤ clock') : BaselineInvariant clock' db := by
  refine ⟨h.inputKey, h.ordered, h.unclosed, ?_⟩
  intro row hrow hlane hattempt other hother howner hbaseline hbefore
  have hexpired := h.first row hrow hlane hattempt other hother howner hbaseline hbefore
  exact hexpired.trans (retentionCutoff_mono hclock)

/-! ## The order of the rows -/

variable {row : InboxRow} {s t : Db δ} {w : World δ}

theorem rowid_lt_nextRowid {db : Db δ} (hrow : row ∈ db.syncLaneInbox) :
    row.rowid < db.nextRowid := by
  have hmax : ∀ (rowids : List Nat) (n : Nat), n ≤ rowids.foldl max n ∧
      ∀ rowid ∈ rowids, rowid ≤ rowids.foldl max n := by
    intro rowids
    induction rowids with
    | nil => simp
    | cons rowid rowids ih =>
      intro n
      obtain ⟨hstart, hrest⟩ := ih (max n rowid)
      rw [List.foldl_cons]
      refine ⟨(le_max_left _ _).trans hstart, ?_⟩
      intro other hother
      rcases List.mem_cons.mp hother with rfl | hmem
      · exact (le_max_right _ _).trans hstart
      · exact hrest other hmem
  have hle := (hmax (db.syncLaneInbox.map (·.rowid)) 0).2 row.rowid (List.mem_map_of_mem hrow)
  unfold Db.nextRowid
  omega

theorem Action.inputs_updateInbox (action : Action) (now : Int) (rows : List InboxRow) :
    (action.updateInbox now rows).map (·.toInboxInput) =
      (rows.filter action.keepsRow).map (·.toInboxInput) ++
        action.newRows.map (·.toInboxInput) := by
  unfold updateInbox
  rw [List.map_append, List.map_map]
  simp only [Function.comp_def, updateRow_toInboxInput]

theorem inputs_run {log : List Action} (hrun : Run (Action.Step now) s log t) :
    ∃ kept new, t.syncLaneInbox.map (·.toInboxInput) = kept ++ new ∧
      kept.Sublist (s.syncLaneInbox.map (·.toInboxInput)) := by
  induction hrun with
  | nil s => exact ⟨_, [], (List.append_nil _).symm, List.Sublist.refl _⟩
  | @cons s u t action log hstep hrest ih =>
    obtain ⟨kept, new, hend, hkept⟩ := ih
    rw [hstep.inbox, Action.inputs_updateInbox, List.sublist_append_iff] at hkept
    obtain ⟨old, queued, rfl, hold, -⟩ := hkept
    refine ⟨old, queued ++ new, by rw [hend, List.append_assoc], ?_⟩
    exact hold.trans (List.filter_sublist.map _)

theorem ordered_step {action : Action}
    (h : (s.syncLaneInbox.map (·.toInboxInput)).Pairwise (·.rowid < ·.rowid))
    (hstep : Action.Step now s action t) :
    (t.syncLaneInbox.map (·.toInboxInput)).Pairwise (·.rowid < ·.rowid) := by
  have hkept : ((s.syncLaneInbox.filter action.keepsRow).map (·.toInboxInput)).Pairwise
      (·.rowid < ·.rowid) := h.sublist (List.filter_sublist.map _)
  rw [hstep.inbox, Action.inputs_updateInbox, List.pairwise_append]
  refine ⟨hkept, ?_, ?_⟩
  · cases action <;> simp [Action.newRows]
  · intro input hinput new hnew
    cases action <;> simp only [Action.newRows, List.map_nil, List.not_mem_nil] at hnew
    rename_i queued
    obtain ⟨row, hrow, rfl⟩ := List.mem_map.mp hinput
    have hguard := hstep.guard.2.1
    rw [List.map_singleton, List.mem_singleton] at hnew
    rw [hnew]
    show row.rowid < queued.rowid
    rw [hguard]
    exact rowid_lt_nextRowid (List.mem_filter.mp hrow).1

/-! ## Actions -/

theorem Action.closedAt_updateRow (action : Action) (now : Int) (row : InboxRow) :
    (action.updateRow now row).closedAt = row.closedAt ∨
      (action.updateRow now row).closedAt = none ∨
      ∃ closedAt, action = .close row.inputId closedAt := by
  cases action with
  | close inputId closedAt =>
    by_cases hid : row.inputId = inputId
    · exact .inr (.inr ⟨closedAt, by rw [hid]⟩)
    · exact .inl (by simp [updateRow, hid])
  | fail | park =>
    simp only [updateRow]
    split
    · exact .inr (.inl rfl)
    · exact .inl rfl
  | reclaim | take | unpark | renew | retry | wake =>
    left
    simp only [updateRow]
    split <;> rfl
  | _ => exact .inl rfl

theorem unclosed_step {action : Action} (h : BaselineInvariant now s)
    (hstep : Action.Step now s action t) :
    ∀ row ∈ t.syncLaneInbox, row.lane = .baseline → row.closedAt = none := by
  intro row hrow hlane
  rcases hstep.mem_inbox hrow with ⟨old, hold, rfl⟩ | ⟨queued, -, rfl⟩
  · rw [Action.updateRow_toInboxInput] at hlane
    rcases action.closedAt_updateRow now old with hsame | hnone | ⟨closedAt, rfl⟩
    · rw [hsame]
      exact h.unclosed old hold hlane
    · exact hnone
    · -- only rows of the secure lanes are closed
      obtain ⟨secure, hsecure, hid, lane, hsecureLane⟩ := hstep.guard
      have hsame : secure = old := h.inputKey.eq_of_key_eq hsecure hold hid
      rw [hsame, hlane] at hsecureLane
      cases hsecureLane
  · rfl

theorem Action.attempt_isSome {action : Action}
    (h : (action.updateRow now row).attempt.isSome = true) :
    row.attempt.isSome = true ∨
      ∃ input token, action = .take input token ∧ row.inputId = input.inputId := by
  rcases action.attempt_updateRow now row with hsame | hnone |
      ⟨input, token, haction, hid, -⟩ | ⟨attempt, hattempt, -⟩
  · exact .inl (hsame ▸ h)
  · simp [hnone] at h
  · exact .inr ⟨input, token, haction, hid⟩
  · exact .inl (by simp [hattempt])

theorem first_of_take {input : InboxInput} {token : String} {other : InboxRow}
    (h : BaselineInvariant now s) (hguard : (Action.take input token).Guard now s)
    (hrow : row ∈ s.syncLaneInbox) (hid : row.inputId = input.inputId)
    (hlane : row.lane = .baseline) (hother : other ∈ s.syncLaneInbox)
    (howner : other.ownerIdentityId = row.ownerIdentityId) (hbaseline : other.lane = .baseline)
    (hbefore : other.rowid < row.rowid) : other.createdAt ≤ retentionCutoff now := by
  obtain ⟨-, taken, htaken, rfl, -, hfence⟩ := hguard
  obtain rfl : taken = row := h.inputKey.eq_of_key_eq htaken hrow hid.symm
  have hclear : s.baselineBefore taken now = false := hfence (by rw [hlane]; rfl)
  rw [Db.baselineBefore, List.any_eq_false] at hclear
  have hopen := hclear other hother
  simpa [howner, hbaseline, hbefore, InboxRow.isOpen, h.unclosed other hother hbaseline]
    using hopen

theorem first_step {action : Action} (h : BaselineInvariant now s)
    (hstep : Action.Step now s action t) :
    ∀ row ∈ t.syncLaneInbox, row.lane = .baseline → row.attempt.isSome = true →
      ∀ other ∈ t.syncLaneInbox, other.ownerIdentityId = row.ownerIdentityId →
        other.lane = .baseline → other.rowid < row.rowid →
        other.createdAt ≤ retentionCutoff now := by
  intro row hrow hlane hattempt other hother howner hbaseline hbefore
  rcases hstep.mem_inbox hrow with ⟨old, hold, rfl⟩ | ⟨queued, -, rfl⟩
  · rcases hstep.mem_inbox hother with ⟨old', hold', rfl⟩ | ⟨queued, rfl, rfl⟩
    · simp only [Action.updateRow_toInboxInput] at hlane howner hbaseline hbefore ⊢
      rcases Action.attempt_isSome hattempt with hheld | ⟨input, token, rfl, hid⟩
      · exact h.first old hold hlane hheld old' hold' howner hbaseline hbefore
      · exact first_of_take h hstep.guard hold hid hlane hold' howner hbaseline hbefore
    · -- a new row comes after all others
      have hguard := hstep.guard.2.1
      have hlt := rowid_lt_nextRowid hold
      rw [Action.updateRow_toInboxInput] at hbefore
      change queued.rowid < old.rowid at hbefore
      omega
  · -- a new row has no attempt
    cases hattempt

theorem BaselineInvariant.action {action : Action} (h : BaselineInvariant now s)
    (hstep : Action.Step now s action t) : BaselineInvariant now t :=
  ⟨ClaimInvariant.inputKey_step h.inputKey hstep, ordered_step h.ordered hstep,
    unclosed_step h hstep, first_step h hstep⟩

/-! ## Runs -/

theorem BaselineInvariant.initial (h : w.Initial) :
    BaselineInvariant w.clock w.db := by
  refine ⟨?_, ?_, ?_, ?_⟩
  · rw [h.inbox]
    exact Rows.UniqueKey.nil _
  · simp [h.inbox]
  · simp [h.inbox]
  · simp [h.inbox]

theorem BaselineInvariant.step {w' : World δ} {e : Event δ} (h : BaselineInvariant w.clock w.db)
    (hstep : Step platform reducers w e w') :
    BaselineInvariant w'.clock w'.db := by
  obtain ⟨log, hlog⟩ := hstep.log
  rw [hstep.clock']
  exact hlog.run.invariant (P := BaselineInvariant e.now) (fun _ _ _ hs => hs.action)
    (h.later hstep.clock)

theorem BaselineInvariant.of_run {w₀ : World δ} {history : List (Event δ)} (hstart : w₀.Initial)
    (hrun : Run (Step platform reducers) w₀ history w) :
    BaselineInvariant w.clock w.db :=
  hrun.invariant (P := fun w : World δ => BaselineInvariant w.clock w.db)
    (fun _ _ _ h hstep => h.step hstep) (.initial hstart)

theorem applyOrdinaryClaimWith_unfenced {claim : InputClaim} {input : DeltaApplyInput}
    {unixTime : Int} {commitDomain : δ → Except ImError δ}
    {outcome : DeltaApplyOutcome}
    (h : (applyOrdinaryClaimWith platform reducers claim input now unixTime commitDomain).run s =
      .ok outcome t) : s.baselinePending claim.ownerIdentityId now = false := by
  obtain ⟨-, hrun⟩ := refuseIf_bind_ok.mp h
  obtain ⟨_, _, hbody⟩ := immediate_body hrun
  obtain ⟨_, u, hclaim, hrest⟩ := bind_ok.mp hbody
  obtain rfl : u = s := requireClaim_keeps (f := id) _ _ s _ u hclaim
  obtain ⟨_, rfl, hrest⟩ := query_bind_ok.mp hrest
  obtain ⟨_, _, hcheck, -⟩ := bind_ok.mp hrest
  exact (refuseIf_ok.mp hcheck).1

/--
No ordinary event is applied while an open baseline of its owner is queued.  When a
baseline is applied, every baseline of the owner that was queued before it is gone or out
of retention: rows stand in the order in which they were queued, which is also that of their rowids.
-/
theorem baseline_fence {w₀ v v' : World δ} {history : List (Event δ)} {e : Event δ}
    (hstart : w₀.Initial) (hrun : Run (Step platform reducers) w₀ history v)
    (hstep : Step platform reducers v e v') :
    (∀ claim input unixTime commitDomain reply,
      e.op = .applyOrdinaryClaimWith claim input unixTime commitDomain → e.outcome = .ok reply →
      ∀ row ∈ v.db.syncLaneInbox, row.ownerIdentityId = claim.ownerIdentityId →
        row.lane = .baseline → row.isOpen e.now = false) ∧
    (∀ claim baseline groups readStates reply,
      e.op = .applyBaselineClaim claim baseline groups readStates → e.outcome = .ok reply →
      claim.lane = .baseline →
      ∃ earlier row later, v.db.syncLaneInbox = earlier ++ row :: later ∧
        row.inputId = claim.inputId ∧ row.lane = .baseline ∧
        ∀ other ∈ earlier, other.ownerIdentityId = claim.ownerIdentityId →
          other.lane = .baseline → other.createdAt ≤ retentionCutoff e.now) ∧
    (∃ kept new, v'.db.syncLaneInbox.map (·.toInboxInput) = kept ++ new ∧
      kept.Sublist (v.db.syncLaneInbox.map (·.toInboxInput))) ∧
    (v.db.syncLaneInbox.map (·.toInboxInput)).Pairwise (·.rowid < ·.rowid) := by
  obtain ⟨taken, slots, hinv⟩ := WorldInvariant.of_run hstart hrun
  have hfence := BaselineInvariant.of_run hstart hrun
  obtain ⟨log, hlog⟩ := hstep.log
  refine ⟨?_, ?_, inputs_run hlog.run, hfence.ordered⟩
  · intro claim input unixTime commitDomain reply hop hok row hrow howner hlane
    have hran := hstep.ran_ok hok
    rw [hop] at hran
    obtain ⟨outcome, u, happly, -⟩ := bind_ok.mp hran
    have hclear := applyOrdinaryClaimWith_unfenced happly
    rw [Db.baselinePending, List.any_eq_false] at hclear
    simpa [howner, hlane] using hclear row hrow
  · intro claim baseline groups readStates reply hop hok hlane
    have hcompletes : e.op.completes = some claim := by
      rw [hop]
      rfl
    obtain ⟨row, hlive⟩ := Operation.live_of_ok (Operation.fenced_of_completes hcompletes)
      (hstep.ran_ok hok)
    obtain ⟨described, hdescribed, hdescribes, -⟩ := completed_row hinv hstep hok hcompletes
    obtain rfl : described = row := hfence.inputKey.eq_of_key_eq hdescribed hlive.queued
      (hdescribes.inputId.trans hlive.input.symm)
    have hrowLane : described.lane = .baseline := hdescribes.lane.trans hlane
    obtain ⟨earlier, later, hsplit⟩ := List.append_of_mem hlive.queued
    refine ⟨earlier, described, later, hsplit, hlive.input, hrowLane, ?_⟩
    intro other hother howner hbaseline
    have hmem : other ∈ v.db.syncLaneInbox := by
      rw [hsplit]
      exact List.mem_append_left _ hother
    have hbefore : other.rowid < described.rowid := by
      have hordered := hfence.ordered
      rw [hsplit, List.map_append, List.map_cons, List.pairwise_append] at hordered
      exact hordered.2.2 _ (List.mem_map_of_mem hother) _ List.mem_cons_self
    obtain ⟨deadline, hattempt, -⟩ := hlive.attempt
    have hexpired := hfence.first described hlive.queued hrowLane (by simp [hattempt]) other hmem
      (howner.trans hlive.owner.symm) hbaseline hbefore
    exact hexpired.trans (retentionCutoff_mono hstep.clock)

end Fence

/-! An event is claimed, and a snapshot is queued before it is applied. -/

namespace Sample

/-- The owner recovers from its cursor by a snapshot without messages. -/
def recovery : Operation Unit :=
  .upsertRecoveryState
    { ownerIdentityId := "alice", mode := "compact_recovery", requestedFromEpoch := "1"
      requestedFromSeq := "1", recoveryIdHash := some "recovery"
      snapshotScanSeq := some "1", status := "applying", retryCount := 0
      lastErrorCode := none, startedAt := 0, updatedAt := 0 }

def snapshot : Operation Unit :=
  .receiveSnapshot
    { ownerIdentityId := "alice", expectedRunGeneration := none, ownerDid := "did:alice"
      accountId := "account", protocolDeviceId := "phone", deviceAuthGeneration := "1"
      expectedStreamEpoch := "1", expectedScanSeq := "1", allowMissingPrevious := false
      recoveryIdHash := "recovery", streamEpoch := "1", snapshotScanSeq := "1"
      serverTime := "2026-01-02T00:00:00Z", serverCutoff := "2026-01-01T00:00:00Z"
      olderHistoryExcluded := false, laneCapabilityReconcile := none }
    binding "client"
    { serverTime := "2026-01-02T00:00:00Z", serverCutoff := some "2026-01-01T00:00:00Z"
      groups := [], readStates := [], messageIds := [], notificationIds := [] }
    [] 7 0

def overtaken : List (Int × Operation Unit) :=
  [ (100, .receiveOrdinary (page "0" "1" [event "e1" "1"])),
    (101, .claimInputs binding 1 ["t1"]),
    (102, recovery),
    (103, snapshot) ]

def fenced : World Unit :=
  (world ()).calls platform reducers overtaken

/-- The claimed event is not applied before the baseline. -/
theorem claimed_event_fenced :
    (Event.ofCall platform reducers fenced 104
      application).outcome.toOption = none := by
  have hpermits : (world ()).permitsAll platform reducers overtaken = true ∧
      fenced.permits 104 application = true := by decide +kernel
  have hqueued : fenced.db.syncLaneInbox.any (fun row => row.ownerIdentityId == "alice" &&
      row.lane == .baseline && row.isOpen 104) = true := by decide +kernel
  have hrun : Run (Step platform reducers) (world ())
      (Event.ofCalls platform reducers (world ()) overtaken) fenced :=
    run_of_calls hpermits.1
  cases hcall : (Event.ofCall platform reducers fenced 104
      application).outcome with
  | error => rfl
  | ok reply =>
    obtain ⟨hordinary, -⟩ := baseline_fence (world_initial ()) hrun (.of_permits hpermits.2)
    obtain ⟨row, hrow, hfields⟩ := List.any_eq_true.mp hqueued
    simp only [Bool.and_eq_true, beq_iff_eq] at hfields
    have hclosed : row.isOpen 104 = false :=
      hordinary claim _ _ _ reply rfl hcall row hrow
        hfields.1.1 hfields.1.2
    rw [Bool.eq_false_iff] at hclosed
    exact absurd hfields.2 hclosed

end Sample

end LocalState
end Awiki

import Awiki.ClaimCompletion
import Awiki.ClaimFencing

/-!
# Safety of claims

The results about whole runs: a call on a claim succeeds only while its attempt is
current, a parked attempt stays out, an inserted input is completed at most once, and
an input is not given out while the lease of its attempt runs.
-/

namespace Awiki
namespace LocalState

open Tx

section Runs

variable {δ : Type} {platform : Platform} {reducers : DomainReducers δ} {now : Int}

/-! ## Parked attempts -/

def Db.ParkedOut (db : Db δ) (token : String) : Prop :=
  ∀ row ∈ db.syncLaneInbox, row.attemptToken = some token →
    row.processingErrorCode = some processingTimeout

theorem Action.code_updateRow (action : Action) (row : InboxRow) :
    (action.updateRow now row).processingErrorCode = row.processingErrorCode ∨
      (action.updateRow now row).processingErrorCode = some processingTimeout ∨
      (action.updateRow now row).attempt = none ∨
      (∃ inputIds, action = .reclaim inputIds ∧ row.inputId ∈ inputIds) ∨
      ∃ input token, action = .take input token ∧
        (action.updateRow now row).attemptToken = some token := by
  cases action with
  | reclaim inputIds =>
    simp only [updateRow]
    split
    next hid => exact .inr (.inr (.inr (.inl ⟨inputIds, rfl, by simpa using hid⟩)))
    next => exact .inl rfl
  | take input token =>
    simp only [updateRow]
    split
    · exact .inr (.inr (.inr (.inr ⟨input, token, rfl, rfl⟩)))
    · exact .inl rfl
  | fail | unpark =>
    simp only [updateRow]
    split
    · exact .inr (.inr (.inl rfl))
    · exact .inl rfl
  | park claim =>
    simp only [updateRow]
    split
    · exact .inr (.inl rfl)
    · exact .inl rfl
  | retry owner eventId =>
    simp only [updateRow]
    split
    next hidle =>
      simp only [InboxRow.isIdle, Bool.and_eq_true, Option.isNone_iff_eq_none] at hidle
      exact .inr (.inr (.inl hidle.2))
    next => exact .inl rfl
  | renew | wake | close =>
    left
    simp only [updateRow]
    split <;> rfl
  | _ => exact .inl rfl

variable {s t : Db δ} {claim : InputClaim}

theorem parkedOut_step {token : String} {action : Action}
    (hkey : Rows.UniqueKey (fun row : InboxRow => row.inputId) s.syncLaneInbox)
    (h : s.ParkedOut token) (hstep : Action.Step now s action t)
    (hother : action.token? ≠ some token) : t.ParkedOut token := by
  intro row' hrow' htoken
  rcases hstep.mem_inbox hrow' with ⟨row, hrow, rfl⟩ | ⟨_, -, rfl⟩
  · have hold : row.attemptToken = some token := by
      rcases Action.attemptToken_updateRow htoken with hold | ⟨input, rfl, -⟩
      · exact hold
      · exact absurd rfl hother
    rcases action.code_updateRow row with hsame | hparked | hnone | ⟨inputIds, rfl, hid⟩ |
        ⟨input, token', rfl, htoken'⟩
    · exact hsame.trans (h row hrow hold)
    · exact hparked
    · simp [InboxRow.attemptToken, hnone] at htoken
    · -- the row would be one without an attempt
      obtain ⟨blocked, hblocked, hid', hnone⟩ := hstep.guard row.inputId hid
      rw [hkey.eq_of_key_eq hblocked hrow hid'] at hnone
      simp [InboxRow.attemptToken, hnone] at hold
    · rw [htoken'] at htoken
      cases htoken
      exact absurd rfl hother
  · cases htoken

theorem parkedOut_run {token : String} {log : List Action} (hrun : Run (Action.Step now) s log t)
    (hkey : Rows.UniqueKey (fun row : InboxRow => row.inputId) s.syncLaneInbox)
    (h : s.ParkedOut token) (hother : token ∉ log.filterMap Action.token?) :
    t.ParkedOut token := by
  refine (hrun.invariant_of_mem (P := fun db =>
    Rows.UniqueKey (fun row : InboxRow => row.inputId) db.syncLaneInbox ∧ db.ParkedOut token)
    ⟨hkey, h⟩ ?_).2
  rintro s t action haction ⟨hkey, h⟩ hstep
  refine ⟨ClaimInvariant.inputKey_step hkey hstep, parkedOut_step hkey h hstep fun htoken => ?_⟩
  exact hother (List.mem_filterMap.mpr ⟨action, haction, htoken⟩)

def Event.parks (e : Event δ) (token : String) : Prop :=
  ∃ claim reply, e.op = .parkTimeout claim ∧ claim.token = token ∧ e.outcome = .ok reply

section Worlds

variable {w w' : World δ} {e : Event δ}

structure AttemptOver (token : String) (w : World δ) : Prop where
  invariant : ∃ taken slots, WorldInvariant w taken slots
  issued : token ∈ w.issued
  parked : w.db.ParkedOut token

variable {token : String}

theorem AttemptOver.step (h : AttemptOver token w) (hstep : Step platform reducers w e w') :
    AttemptOver token w' := by
  obtain ⟨taken, slots, hinv⟩ := h.invariant
  obtain ⟨log, hlog⟩ := hstep.log
  refine ⟨hinv.step hstep, ?_, ?_⟩
  · rw [hstep.issued']
    exact List.mem_append_right _ h.issued
  · exact parkedOut_run hlog.run hinv.claims.inputKey h.parked fun htoken =>
      hstep.fresh token (hlog.tokens.subset htoken) h.issued

theorem AttemptOver.of_parks {taken : List (InboxInput × String)} {slots : List String}
    (hinv : WorldInvariant w taken slots) (hstep : Step platform reducers w e w')
    (hparks : e.parks token) : AttemptOver token w' := by
  obtain ⟨claim, reply, hop, rfl, hok⟩ := hparks
  have hhanded : claim ∈ w.handed := hstep.claims claim (by rw [hop]; exact List.mem_cons_self)
  obtain ⟨input, htaken, hdescribes⟩ := hinv.handed claim hhanded
  have hran := hstep.ran_ok hok
  rw [hop] at hran
  obtain ⟨changed, hpark, -⟩ := bind_pure_ok.mp hran
  obtain ⟨_, -, hrest⟩ := query_bind_ok.mp hpark
  obtain ⟨_, hupdate, -⟩ := bind_pure_ok.mp hrest
  refine ⟨hinv.step hstep, ?_, ?_⟩
  · rw [hstep.issued']
    exact List.mem_append_right _ (hinv.takenIssued _ htaken)
  · intro row' hrow' htoken
    rw [← execute_ok.mp hupdate] at hrow'
    obtain ⟨row, hrow, heq⟩ := Rows.mem_updateWhere.mp hrow'
    by_cases hholds : row.holds claim = true
    · rw [← heq, if_pos hholds]
      rfl
    · -- the token identifies the row that the claim is on
      rw [if_neg hholds] at heq
      subst heq
      have hinput := hinv.claims.takenInput _ htaken row hrow htoken
      simp [InboxRow.holds, hinput, hdescribes.inputId, hdescribes.owner, htoken] at hholds

theorem AttemptOver.not_live (h : AttemptOver token w) {claim : InputClaim}
    (hclaim : claim.token = token) {row : InboxRow} : ¬ LiveClaim w.db claim now row := by
  intro hlive
  obtain ⟨deadline, hattempt, -⟩ := hlive.attempt
  exact hlive.notParked (h.parked row hlive.queued (by
    rw [InboxRow.attemptToken, hattempt, ← hclaim]
    rfl))

theorem not_parks_of_live {w₀ : World δ} {history : List (Event δ)} (hstart : w₀.Initial)
    (hrun : Run (Step platform reducers) w₀ history w) {claim : InputClaim} {row : InboxRow}
    (hlive : LiveClaim w.db claim now row) : ∀ e ∈ history, ¬ e.parks claim.token := by
  intro e he hparks
  obtain ⟨before, after, rfl⟩ := List.append_of_mem he
  obtain ⟨u, u', hbefore, hstep, hafter⟩ := hrun.around
  obtain ⟨taken, slots, hinv⟩ := WorldInvariant.of_run hstart hbefore
  have hover : AttemptOver claim.token w :=
    hafter.invariant (fun _ _ _ h hstep => AttemptOver.step h hstep) (.of_parks hinv hstep hparks)
  exact hover.not_live rfl hlive

end Worlds

/-! ## Completed inputs -/

def Db.Queued (db : Db δ) (inputId : String) : Prop :=
  ∃ row ∈ db.syncLaneInbox, row.inputId = inputId

theorem row_of_completion {action : Action} (haction : CompletionAction platform claim action)
    (hstep : Action.Step now s action t) {row' : InboxRow} (hrow' : row' ∈ t.syncLaneInbox) :
    ∃ row ∈ s.syncLaneInbox, row'.toInboxInput = row.toInboxInput ∧
      row'.attempt = row.attempt := by
  rcases hstep.mem_inbox hrow' with ⟨row, hrow, rfl⟩ | ⟨_, rfl, -⟩
  · refine ⟨row, hrow, Action.updateRow_toInboxInput _ _ _, ?_⟩
    cases action with
    | wake | close =>
      simp only [Action.updateRow]
      split <;> rfl
    | other | receipt | laneReceipt | digest | finish => rfl
    | _ => exact haction.elim
  · exact haction.elim

theorem Operation.removes_of_completes {op : Operation δ} (hop : op.completes = some claim)
    {reply : Reply} (h : (op.run platform reducers now).run s = .ok reply t)
    (hkey : Rows.UniqueKey (fun row : InboxRow => row.inputId) s.syncLaneInbox) :
    s.Queued claim.inputId ∧ ¬ t.Queued claim.inputId := by
  obtain ⟨live, hlive⟩ := live_of_ok (fenced_of_completes hop) h
  refine ⟨⟨live, hlive.queued, hlive.input⟩, ?_⟩
  rintro ⟨row', hrow', hid⟩
  obtain ⟨log, hrun, hall⟩ := completion_logs hop s reply t h
  have horigin : ∃ row ∈ s.syncLaneInbox, row'.toInboxInput = row.toInboxInput ∧
      row'.attempt = row.attempt := by
    refine (hrun.invariant_of_mem (P := fun db => ∀ row' ∈ db.syncLaneInbox,
      ∃ row ∈ s.syncLaneInbox, row'.toInboxInput = row.toInboxInput ∧
        row'.attempt = row.attempt) (fun row hrow => ⟨row, hrow, rfl, rfl⟩) ?_) row' hrow'
    intro u v action haction horigin hstep row' hrow'
    obtain ⟨mid, hmid, hinput, hattempt⟩ := row_of_completion (hall action haction) hstep hrow'
    obtain ⟨row, hrow, hinput', hattempt'⟩ := horigin mid hmid
    exact ⟨row, hrow, hinput.trans hinput', hattempt.trans hattempt'⟩
  obtain ⟨row, hrow, hinput, hattempt⟩ := horigin
  have hsame : row = live := hkey.eq_of_key_eq hrow hlive.queued (by
    rw [← hinput, hid, hlive.input])
  subst hsame
  obtain ⟨deadline, hlease, -⟩ := hlive.attempt
  have hholds := (finished_of_ok hop s reply t h).removed row' hrow'
  simp [InboxRow.holds, hinput, hlive.input, hlive.owner, InboxRow.attemptToken, hattempt,
    hlease] at hholds

structure Db.Receipted (db : Db δ) (platform : Platform) (claim : InputClaim) : Prop where
  ofLocal : claim.lane.isLocal = true →
    db.receiptHash claim.ownerIdentityId claim.lane claim.laneEpoch claim.eventId =
      some (payloadHash platform claim.lane claim.payload)
  ofSecure : ∀ lane, claim.lane = .secure lane → ∃ receipt ∈ db.syncLaneAppliedEvents,
    receipt.ownerIdentityId = claim.ownerIdentityId ∧ receipt.lane = lane ∧
      receipt.eventId = claim.eventId ∧
      receipt.payloadHash = some (payloadHash platform claim.lane claim.payload)

theorem Finished.receipted {db : Db δ} (h : Finished platform claim db)
    (hreceipt : claim.lane.isLocal = true →
      db.HasReceipt claim.ownerIdentityId claim.eventId claim.laneEpoch) :
    db.Receipted platform claim :=
  ⟨fun hlocal => receiptHash_eq hlocal (hreceipt hlocal) (h.digest hlocal), h.laneReceipt⟩

def Operation.isSecureReducer : Operation δ → Bool
  | completeClaim _ | applySecureClaim _ _ _ => true
  | _ => false

theorem Operation.receipted_of_completes {op : Operation δ} (hop : op.completes = some claim)
    (hlane : op.isSecureReducer = true → claim.lane.isLocal = false) {reply : Reply}
    (h : (op.run platform reducers now).run s = .ok reply t) : t.Receipted platform claim := by
  refine (finished_of_ok hop s reply t h).receipted fun hlocal => ?_
  cases op with
  | completeClaim | applySecureClaim =>
    rw [hlane rfl] at hlocal
    cases hlocal
  | applyOrdinaryClaimWith c input unixTime commitDomain =>
    cases hop
    obtain ⟨outcome, hrun, -⟩ := bind_pure_ok.mp h
    exact applyOrdinaryClaimWith_hasReceipt _ _ _ _ s outcome _ hrun
  | applyBaselineClaim c baseline groups readStates =>
    cases hop
    obtain ⟨outcome, hrun, -⟩ := bind_pure_ok.mp h
    exact applyBaselineClaim_hasReceipt _ _ _ _ s outcome _ hrun
  | _ => cases hop

/-! ## Inputs that are given out -/

theorem row_before_claiming {inputIds : List String}
    (hrun : Run (Action.Step now) s [.reclaim inputIds, .dropLeases] t) {row' : InboxRow}
    (hrow' : row' ∈ t.syncLaneInbox) :
    ∃ row ∈ s.syncLaneInbox, row'.toInboxInput = row.toInboxInput ∧
      row'.attempt = row.attempt := by
  obtain ⟨u, hreclaim, hlast⟩ := Run.cons_iff.mp hrun
  have hdrop := Run.single_iff.mp hlast
  rw [hdrop.inbox, Action.updateInbox_id now .dropLeases (fun _ => rfl) (fun _ => rfl) rfl,
    hreclaim.inbox, Action.updateInbox_of_update now (.reclaim inputIds) (fun _ => rfl) rfl] at hrow'
  obtain ⟨row, hrow, rfl⟩ := List.mem_map.mp hrow'
  refine ⟨row, hrow, Action.updateRow_toInboxInput _ _ _, ?_⟩
  simp only [Action.updateRow]
  split <;> rfl

theorem lease_before_claiming {inputIds : List String}
    (hrun : Run (Action.Step now) s [.reclaim inputIds, .dropLeases] t) {lease : InputLease}
    (hlease : lease ∈ s.syncInputLeases) (hlive : now < lease.deadline) :
    lease ∈ t.syncInputLeases := by
  obtain ⟨u, hreclaim, hlast⟩ := Run.cons_iff.mp hrun
  have hdrop := Run.single_iff.mp hlast
  rw [hdrop.leases, hreclaim.leases]
  exact Rows.mem_deleteWhere.mpr ⟨hlease, by simpa using hlive⟩

theorem claimInputs_unleased {binding : IdentityAccountBinding} {limit : Nat} {tokens : List String}
    {claims : List InputClaim} {taken : List (InboxInput × String)} {slots : List String}
    (hinv : ClaimInvariant now taken slots s)
    (h : (claimInputs reducers binding now limit tokens).run s = .ok claims t) :
    ∀ claim ∈ claims, ∃ row ∈ s.syncLaneInbox, row.inputId = claim.inputId ∧
      ∀ lease ∈ s.syncInputLeases, row.attemptToken = some lease.attemptToken →
        lease.deadline ≤ now := by
  intro claim hclaim
  rcases claimInputs_log h with ⟨rfl, rfl⟩ | ⟨inputIds, mid, rows, hfirst, ⟨free, -, hrows⟩, -, rfl⟩
  · cases hclaim
  obtain ⟨⟨row', token⟩, hpair, rfl⟩ := List.mem_map.mp hclaim
  have hdue : Due mid binding now row' :=
    due_of_mem_candidates (hrows ▸ (List.of_mem_zip hpair).1)
  obtain ⟨row, hrow, hinput, hattempt⟩ := row_before_claiming hfirst hdue.queued
  refine ⟨row, hrow, by rw [InputClaim.ofRow, hinput], fun lease hlease htoken => ?_⟩
  obtain ⟨attempt, hrowAttempt, hname⟩ := Option.map_eq_some_iff.mp htoken
  by_contra hlate
  have hlive : now < lease.deadline := by omega
  rcases hdue.idle attempt (hattempt.trans hrowAttempt) with hexpired | hfree
  · have := hinv.leaseBehind row hrow attempt hrowAttempt lease hlease hname.symm
    omega
  · have hmid := lease_before_claiming hfirst hlease hlive
    rw [Db.hasLease, List.any_eq_false] at hfree
    exact hfree lease hmid (by simp [hname])

theorem zip_fst_sublist {α β : Type} (rows : List α) (tokens : List β) :
    ((rows.zip tokens).map Prod.fst).Sublist rows := by
  induction rows generalizing tokens with
  | nil => exact List.nil_sublist _
  | cons row rows ih =>
    cases tokens with
    | nil => exact List.nil_sublist _
    | cons token tokens => exact (ih tokens).cons_cons row

theorem claimInputs_distinct {binding : IdentityAccountBinding} {limit : Nat} {tokens : List String}
    {claims : List InputClaim}
    (hkey : Rows.UniqueKey (fun row : InboxRow => row.inputId) s.syncLaneInbox)
    (h : (claimInputs reducers binding now limit tokens).run s = .ok claims t) :
    (claims.map (·.inputId)).Nodup := by
  rcases claimInputs_log h with ⟨rfl, rfl⟩ | ⟨inputIds, mid, rows, hfirst, ⟨free, -, hrows⟩, -, rfl⟩
  · exact List.nodup_nil
  have hmid : Rows.UniqueKey (fun row : InboxRow => row.inputId) mid.syncLaneInbox :=
    hfirst.invariant (P := fun db : Db δ => Rows.UniqueKey (fun row => row.inputId)
      db.syncLaneInbox) (fun _ _ _ => ClaimInvariant.inputKey_step) hkey
  have hids : (rows.map (·.inputId)).Nodup := by
    have hdue := (List.filter_sublist (p := mid.isDue binding now)
      (l := mid.syncLaneInbox)).map (·.inputId)
    have hsorted := (List.perm_insertionSort (servedBefore (mid.syncLaneInbox.filter
      (mid.isDue binding now))) (mid.syncLaneInbox.filter (mid.isDue binding now))).map (·.inputId)
    rw [hrows]
    exact (hsorted.nodup_iff.mpr (hmid.sublist hdue)).sublist
      ((List.take_sublist free _).map _)
  rw [List.map_map]
  have hsub := (zip_fst_sublist rows tokens).map (·.inputId)
  rw [List.map_map] at hsub
  exact hids.sublist hsub

/-! ## The fence -/

def Event.completed (e : Event δ) (inputId : String) : Prop :=
  ∃ claim reply, e.op.completes = some claim ∧ claim.inputId = inputId ∧ e.outcome = .ok reply

/--
The fence over any interleaving of calls.  `e` is the last call of a run from an empty
inbox.  A call that ends an attempt changes nothing unless it succeeds, and succeeds
only for a live claim that was never parked.  A completing call takes its input out of
the inbox with the receipt written, and between two completions of one input it was
inserted again.  An input is not given out while its attempt has a running lease.
-/
theorem claim_fencing {w₀ v v' : World δ} {history : List (Event δ)} {e : Event δ}
    (hstart : w₀.Initial) (hrun : Run (Step platform reducers) w₀ history v)
    (hstep : Step platform reducers v e v') :
    (∀ claim, e.op.fenced = some claim →
      (∀ error, e.outcome = .error error → v'.db = v.db) ∧
      ∀ reply, e.outcome = .ok reply →
        (∃ row, LiveClaim v.db claim e.now row) ∧
          ∀ earlier ∈ history, ¬ earlier.parks claim.token) ∧
    (∀ claim reply, e.op.completes = some claim → e.outcome = .ok reply →
      v.db.Queued claim.inputId ∧ ¬ v'.db.Queued claim.inputId ∧
        ((e.op.isSecureReducer = true → claim.lane.isLocal = false) →
          v'.db.Receipted platform claim) ∧
        ∀ before first between, history = before ++ first :: between →
          first.completed claim.inputId →
          ∃ earlier insertion later u u', between = earlier ++ insertion :: later ∧
            Run (Step platform reducers) w₀ (before ++ first :: earlier) u ∧
            Step platform reducers u insertion u' ∧
            ¬ u.db.Queued claim.inputId ∧ u'.db.Queued claim.inputId) ∧
    (∀ binding limit tokens reply, e.op = .claimInputs binding limit tokens →
      e.outcome = .ok reply →
      (reply.claims.map (·.inputId)).Nodup ∧
        ∀ claim ∈ reply.claims, ∀ row ∈ v.db.syncLaneInbox, row.inputId = claim.inputId →
          ∀ lease ∈ v.db.syncInputLeases, row.attemptToken = some lease.attemptToken →
            lease.deadline ≤ e.now) := by
  obtain ⟨taken, slots, hinv⟩ := WorldInvariant.of_run hstart hrun
  have hkey := hinv.claims.inputKey
  refine ⟨fun claim hfenced => ⟨fun error herror => hstep.db_of_error herror,
    fun reply hok => ?_⟩, fun claim reply hcompletes hok => ?_,
    fun binding limit tokens reply hop hok => ?_⟩
  · obtain ⟨row, hlive⟩ := Operation.live_of_ok hfenced (hstep.ran_ok hok)
    exact ⟨⟨row, hlive⟩, not_parks_of_live hstart hrun hlive⟩
  · have hran := hstep.ran_ok hok
    obtain ⟨hbefore, hafter⟩ := Operation.removes_of_completes hcompletes hran hkey
    refine ⟨hbefore, hafter, fun hlane => Operation.receipted_of_completes hcompletes hlane hran,
      ?_⟩
    rintro before first between rfl ⟨claim', reply', hcompletes', hid, hok'⟩
    obtain ⟨u, u', hprefix, hfirst, hbetween⟩ := hrun.around
    obtain ⟨_, _, hinv'⟩ := WorldInvariant.of_run hstart hprefix
    have hgone := (Operation.removes_of_completes hcompletes' (hfirst.ran_ok hok')
      hinv'.claims.inputKey).2
    rw [hid] at hgone
    obtain ⟨earlier, insertion, later, x, x', rfl, hearlier, hx, hinsert, hx', -⟩ :=
      hbetween.exists_gain (P := fun w : World δ => w.db.Queued claim.inputId) hgone hbefore
    exact ⟨earlier, insertion, later, x, x', rfl,
      Run.append_iff.mpr ⟨u, hprefix, .cons hfirst hearlier⟩, hinsert, hx, hx'⟩
  · have hran := hstep.ran_ok hok
    rw [hop] at hran
    obtain ⟨claims, u, hclaims, hpure⟩ := bind_ok.mp hran
    obtain ⟨rfl, -⟩ := pure_ok.mp hpure
    refine ⟨claimInputs_distinct hkey hclaims, fun claim hclaim row hrow hid => ?_⟩
    obtain ⟨row', hrow', hid', hexpired⟩ :=
      claimInputs_unleased (hinv.claims.later hstep.clock) hclaims claim hclaim
    rw [hkey.eq_of_key_eq hrow hrow' (hid.trans hid'.symm)]
    exact hexpired

end Runs

/-! A page of one event is received, claimed and applied. -/

namespace Sample

def received : World Unit :=
  (world ()).call platform reducers 100 (.receiveOrdinary (page "0" "1" [event "e1" "1"]))

def claimed : World Unit :=
  received.call platform reducers 101 (.claimInputs binding 1 ["t1"])

def claim : InputClaim where
  inputId := "['alice','ordinary','1','e1',]"
  ownerIdentityId := "alice"
  ownerDid := "did:alice"
  accountId := "account"
  deviceId := "phone"
  authGeneration := "1"
  lane := .ordinary
  laneEpoch := "1"
  position := "1"
  eventId := "e1"
  eventType := "group.profile_updated"
  payload := (event "e1" "1").payload
  groupDid := some "did:group"
  logicalEventSeq := none
  receivedAt := "2026-01-01T00:00:00Z"
  sourceCreatedAt := none
  sourceExpiresAt := none
  token := "t1"
  attemptCount := 1

def application : Operation Unit :=
  .applyOrdinaryClaimWith claim
    { ownerIdentityId := "alice", expectedRunGeneration := none, ownerDid := "did:alice"
      accountId := "account", protocolDeviceId := "phone", deviceAuthGeneration := "1"
      streamEpoch := "1", nextScanSeq := "1", serverTime := "2026-01-01T00:00:00Z"
      events := [{ eventId := "e1", eventSeq := "1", eventType := "group.profile_updated"
                   messages := [], groups := [], threadBindings := [], readStates := []
                   systemNotification := none }] }
    102 .ok

theorem handed_claimed : claimed.handed = [claim] := by decide +kernel

def receiving : Event Unit :=
  .ofCall platform reducers (world ()) 100 (.receiveOrdinary (page "0" "1" [event "e1" "1"]))

def claiming : Event Unit :=
  .ofCall platform reducers received 101 (.claimInputs binding 1 ["t1"])

def applying : Event Unit :=
  .ofCall platform reducers claimed 102 application

theorem received_step : Step platform reducers (world ()) receiving received :=
  .of_call (by decide) (List.nil_subset _) (List.nil_subset _) (List.disjoint_nil_left _)
    List.nodup_nil trivial

theorem claimed_step : Step platform reducers received claiming claimed :=
  .of_call (by decide) (List.nil_subset _) (List.nil_subset _) (List.disjoint_nil_right _)
    (List.nodup_singleton _) (Nat.le_refl 1)

theorem applied_step : Step platform reducers claimed applying
    (claimed.call platform reducers 102 application) :=
  .of_call (by decide) (by
    rw [handed_claimed]
    exact List.Subset.refl _) (List.nil_subset _) (List.disjoint_nil_left _) List.nodup_nil
    trivial

/-- The event of a page is completed: it leaves the inbox with its receipt. -/
theorem claim_fencing_of_page :
    ¬ (claimed.call platform reducers 102 application).db.Queued claim.inputId ∧
      (claimed.call platform reducers 102 application).db.Receipted platform claim := by
  have hdone : ∃ reply, applying.outcome = .ok reply := by
    cases houtcome : applying.outcome with
    | ok reply => exact ⟨reply, rfl⟩
    | error error =>
      have hok : applying.outcome.isOk = true := by decide +kernel
      rw [houtcome] at hok
      cases hok
  obtain ⟨reply, hok⟩ := hdone
  obtain ⟨-, hcompleted, -⟩ := claim_fencing (world_initial ())
    (.cons received_step (.single claimed_step)) applied_step
  obtain ⟨-, hgone, hreceipt, -⟩ := hcompleted claim reply rfl hok
  exact ⟨hgone, hreceipt nofun⟩

end Sample

end LocalState
end Awiki

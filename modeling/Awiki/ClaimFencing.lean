import Awiki.SyncRuns

/-!
# The fence of the receive inbox

An attempt on an input lives in two tables: the row holds a token and a deadline, the
lease holds the token and a deadline of its own, and seven calls update them one by
one.  The invariant that ties them together is that a lease never runs out later than
the attempt of the row that has its token.  It needs that tokens identify their rows,
which holds because a token is given out once.
-/

namespace Awiki
namespace LocalState

open Tx

variable {δ : Type} {now : Int}

/-! ## What an action does to an attempt -/

def Action.taken? : Action → Option (InboxInput × String)
  | take input token => some (input, token)
  | _ => none

def Action.reserved? : Action → Option String
  | reserve token => some token
  | _ => none

theorem Action.attempt_updateRow (action : Action) (now : Int) (row : InboxRow) :
    (action.updateRow now row).attempt = row.attempt ∨
      (action.updateRow now row).attempt = none ∨
      (∃ input token, action = .take input token ∧ row.inputId = input.inputId ∧
        (action.updateRow now row).attempt = some ⟨token, claimDeadline now⟩) ∨
      (∃ attempt, row.attempt = some attempt ∧
        (action.updateRow now row).attempt = some ⟨attempt.token, claimDeadline now⟩) := by
  have hrenewed : (row.renewed now).attempt = row.attempt ∨ ∃ attempt, row.attempt = some attempt ∧
      (row.renewed now).attempt = some ⟨attempt.token, claimDeadline now⟩ := by
    cases hattempt : row.attempt with
    | none => exact .inl (by simp [InboxRow.renewed, hattempt])
    | some attempt => exact .inr ⟨attempt, rfl, by simp [InboxRow.renewed, hattempt]⟩
  cases action with
  | take input token =>
    simp only [updateRow]
    split
    next hid => exact .inr (.inr (.inl ⟨input, token, rfl, by simpa using hid, rfl⟩))
    next => exact .inl rfl
  | fail | unpark =>
    simp only [updateRow]
    split
    · exact .inr (.inl rfl)
    · exact .inl rfl
  | park | renew =>
    simp only [updateRow]
    split
    · rcases hrenewed with hsame | ⟨attempt, hattempt, hnew⟩
      · exact .inl hsame
      · exact .inr (.inr (.inr ⟨attempt, hattempt, hnew⟩))
    · exact .inl rfl
  | reclaim | retry | wake | close =>
    left
    simp only [updateRow]
    split <;> rfl
  | _ => exact .inl rfl

theorem Action.attemptToken_updateRow {action : Action} {row : InboxRow} {token : String}
    (h : (action.updateRow now row).attemptToken = some token) :
    row.attemptToken = some token ∨
      ∃ input, action = .take input token ∧ row.inputId = input.inputId := by
  unfold InboxRow.attemptToken at h ⊢
  rcases action.attempt_updateRow now row with hsame | hnone | ⟨input, token', haction, hid, hnew⟩ |
      ⟨attempt, hattempt, hnew⟩
  · exact .inl (hsame ▸ h)
  · simp [hnone] at h
  · rw [hnew] at h
    cases h
    exact .inr ⟨input, haction, hid⟩
  · rw [hnew] at h
    cases h
    exact .inl (by rw [hattempt]; rfl)

theorem Action.mem_updateLeases {action : Action} {leases : List InputLease} {lease : InputLease}
    (h : lease ∈ action.updateLeases now leases) :
    lease ∈ leases ∨ (lease.deadline = claimDeadline now ∧
      (action.token? = some lease.attemptToken ∨
        (∃ claim, action = .renew claim ∧ claim.token = lease.attemptToken) ∨
        action = .renewSlot lease.attemptToken)) := by
  have hrenew : ∀ token, lease ∈ Rows.updateWhere (fun lease => lease.attemptToken == token)
      (fun lease => { lease with deadline := claimDeadline now }) leases →
      lease ∈ leases ∨ (lease.deadline = claimDeadline now ∧ token = lease.attemptToken) := by
    intro token hmem
    obtain ⟨old, hold, heq⟩ := Rows.mem_updateWhere.mp hmem
    by_cases htoken : old.attemptToken = token
    · rw [if_pos (by simpa using htoken)] at heq
      rw [← heq]
      exact .inr ⟨rfl, htoken.symm⟩
    · rw [if_neg (by simpa using htoken)] at heq
      exact .inl (heq ▸ hold)
  cases action with
  | dropLeases => exact .inl (Rows.mem_deleteWhere.mp h).1
  | release token => exact .inl (Rows.mem_deleteWhere.mp h).1
  | reserve token | take input token =>
    rcases List.mem_append.mp h with h | h
    · exact .inl h
    · rw [List.mem_singleton.mp h]
      exact .inr ⟨rfl, .inl rfl⟩
  | renew claim =>
    rcases hrenew claim.token h with h | ⟨hdeadline, htoken⟩
    · exact .inl h
    · exact .inr ⟨hdeadline, .inr (.inl ⟨claim, rfl, htoken⟩)⟩
  | renewSlot token =>
    rcases hrenew token h with h | ⟨hdeadline, htoken⟩
    · exact .inl h
    · exact .inr ⟨hdeadline, .inr (.inr (by rw [htoken]))⟩
  | _ => exact .inl h

/-! ## The invariant of rows and leases -/

/--
Rows and leases fit together: `taken` lists the inputs with the tokens that they were
taken with, `slots` the tokens that were reserved without an input.
-/
structure ClaimInvariant (clock : Int) (taken : List (InboxInput × String))
    (slots : List String) (db : Db δ) : Prop where
  inputKey : Rows.UniqueKey (fun row : InboxRow => row.inputId) db.syncLaneInbox
  tokenTaken : ∀ row ∈ db.syncLaneInbox, ∀ token, row.attemptToken = some token →
    ∃ input, (input, token) ∈ taken
  takenInput : ∀ pair ∈ taken, ∀ row ∈ db.syncLaneInbox, row.attemptToken = some pair.2 →
    row.toInboxInput = pair.1
  slotFree : ∀ slot ∈ slots, ∀ pair ∈ taken, pair.2 ≠ slot
  leaseBound : ∀ lease ∈ db.syncInputLeases, lease.deadline ≤ claimDeadline clock
  leaseBehind : ∀ row ∈ db.syncLaneInbox, ∀ attempt, row.attempt = some attempt →
    ∀ lease ∈ db.syncInputLeases, lease.attemptToken = attempt.token →
      lease.deadline ≤ attempt.deadline

structure Action.Lawful (taken : List (InboxInput × String)) (slots : List String)
    (action : Action) : Prop where
  fresh : ∀ token, action.token? = some token → (∀ pair ∈ taken, pair.2 ≠ token) ∧ token ∉ slots
  renewed : ∀ claim, action = .renew claim →
    ∃ input, (input, claim.token) ∈ taken ∧ claim.Describes input
  renewedSlot : ∀ token, action = .renewSlot token → token ∈ slots

theorem claimDeadline_mono {a b : Int} (h : a ≤ b) : claimDeadline a ≤ claimDeadline b :=
  saturatingAdd_mono h _

namespace ClaimInvariant

variable {clock : Int} {taken : List (InboxInput × String)} {slots : List String} {s t : Db δ}
  {action : Action}

theorem later (h : ClaimInvariant clock taken slots s) (hle : clock ≤ now) :
    ClaimInvariant now taken slots s :=
  { h with leaseBound := fun lease hlease =>
      (h.leaseBound lease hlease).trans (claimDeadline_mono hle) }

section

variable (h : ClaimInvariant now taken slots s)

include h

variable (hstep : Action.Step now s action t)

include hstep

theorem leaseBound_step : ∀ lease ∈ t.syncInputLeases, lease.deadline ≤ claimDeadline now := by
  intro lease hlease
  rw [hstep.leases] at hlease
  rcases Action.mem_updateLeases hlease with hold | ⟨hnew, -⟩
  · exact h.leaseBound lease hold
  · exact hnew.le

theorem leaseBehind_of_same (hlawful : action.Lawful taken slots) {row : InboxRow}
    (hrow : row ∈ s.syncLaneInbox) {attempt : Attempt} (hattempt : row.attempt = some attempt)
    (hsame : (action.updateRow now row).attempt = some attempt) {lease : InputLease}
    (hlease : lease ∈ t.syncInputLeases) (htoken : lease.attemptToken = attempt.token) :
    lease.deadline ≤ attempt.deadline := by
  have hrowToken : row.attemptToken = some attempt.token := by
    rw [InboxRow.attemptToken, hattempt]
    rfl
  obtain ⟨input, hinput⟩ := h.tokenTaken row hrow attempt.token hrowToken
  rw [hstep.leases] at hlease
  rcases Action.mem_updateLeases hlease with hold | ⟨hdeadline, hnew | ⟨claim, rfl, hclaim⟩ | rfl⟩
  · exact h.leaseBehind row hrow attempt hattempt lease hold htoken
  · rw [htoken] at hnew
    exact absurd rfl ((hlawful.fresh _ hnew).1 _ hinput)
  · -- the row has the token of the renewed claim, so its deadline was renewed too
    obtain ⟨input', htaken, hdescribes⟩ := hlawful.renewed claim rfl
    rw [htoken] at hclaim
    rw [hclaim] at htaken
    have hrowInput := h.takenInput _ htaken row hrow hrowToken
    have hholds : row.holds claim = true := by
      simp [InboxRow.holds, hrowInput, hdescribes.inputId, hdescribes.owner, hrowToken, hclaim]
    have hattempt' : attempt = ⟨attempt.token, claimDeadline now⟩ := by
      simpa [Action.updateRow, hholds, InboxRow.renewed, hattempt] using hsame.symm
    rw [hdeadline, hattempt']
  · exact absurd htoken.symm (h.slotFree _ (hlawful.renewedSlot _ rfl) _ hinput)

theorem leaseBehind_step (hlawful : action.Lawful taken slots) :
    ∀ row ∈ t.syncLaneInbox, ∀ attempt, row.attempt = some attempt →
      ∀ lease ∈ t.syncInputLeases, lease.attemptToken = attempt.token →
        lease.deadline ≤ attempt.deadline := by
  intro row' hrow' attempt hattempt lease hlease htoken
  rcases hstep.mem_inbox hrow' with ⟨row, hrow, rfl⟩ | ⟨_, -, rfl⟩
  · rcases action.attempt_updateRow now row with hsame | hnone |
        ⟨input, token, -, -, hset⟩ | ⟨old, -, hset⟩
    · exact h.leaseBehind_of_same hstep hlawful hrow (hsame ▸ hattempt) hattempt hlease htoken
    · rw [hnone] at hattempt
      cases hattempt
    · rw [hset] at hattempt
      cases hattempt
      exact h.leaseBound_step hstep lease hlease
    · rw [hset] at hattempt
      cases hattempt
      exact h.leaseBound_step hstep lease hlease
  · cases hattempt

end

theorem row_origin (hstep : Action.Step now s action t) {row' : InboxRow}
    (hrow' : row' ∈ t.syncLaneInbox) {token : String} (htoken : row'.attemptToken = some token) :
    ∃ row ∈ s.syncLaneInbox, row'.toInboxInput = row.toInboxInput ∧
      (row.attemptToken = some token ∨
        ∃ input, action = .take input token ∧ row.inputId = input.inputId) := by
  rcases hstep.mem_inbox hrow' with ⟨row, hrow, rfl⟩ | ⟨_, -, rfl⟩
  · exact ⟨row, hrow, Action.updateRow_toInboxInput _ _ _, Action.attemptToken_updateRow htoken⟩
  · cases htoken

theorem inputKey_step (h : Rows.UniqueKey (fun row : InboxRow => row.inputId) s.syncLaneInbox)
    (hstep : Action.Step now s action t) :
    Rows.UniqueKey (fun row : InboxRow => row.inputId) t.syncLaneInbox := by
  rw [hstep.inbox]
  refine Action.uniqueKey_updateInbox (f := fun input => input.inputId) h ?_
  rintro input rfl row hrow heq
  have hrefused := hstep.guard.1
  simp only [inboxRowRefused, Bool.or_eq_false_iff, List.any_eq_false] at hrefused
  have hother := hrefused.1.1.1.1.1.1.1.1.1.1.1 row hrow
  simp [heq] at hother

theorem step (h : ClaimInvariant now taken slots s) (hstep : Action.Step now s action t)
    (hlawful : action.Lawful taken slots) :
    ClaimInvariant now (action.taken?.toList ++ taken) (action.reserved?.toList ++ slots) t where
  inputKey := inputKey_step h.inputKey hstep
  tokenTaken := by
    intro row' hrow' token htoken
    obtain ⟨row, hrow, -, hold | ⟨input, rfl, -⟩⟩ := row_origin hstep hrow' htoken
    · obtain ⟨input, hinput⟩ := h.tokenTaken row hrow token hold
      exact ⟨input, List.mem_append_right _ hinput⟩
    · exact ⟨input, List.mem_cons_self⟩
  takenInput := by
    intro pair hpair row' hrow' htoken
    obtain ⟨row, hrow, hinput, hold | ⟨input, rfl, hid⟩⟩ := row_origin hstep hrow' htoken
    · obtain ⟨input, htaken⟩ := h.tokenTaken row hrow _ hold
      rcases List.mem_append.mp hpair with hnew | hpair
      · -- a token that a row already has is not given out again
        have haction : action.token? = some pair.2 := by
          cases action <;> simp only [Action.taken?, Option.toList, List.mem_singleton,
            List.not_mem_nil] at hnew
          rw [hnew]
          rfl
        exact absurd rfl ((hlawful.fresh _ haction).1 (input, pair.2) htaken)
      · exact hinput.trans (h.takenInput pair hpair row hrow hold)
    · rcases List.mem_append.mp hpair with hnew | hpair
      · obtain ⟨-, current, hcurrent, hguard, -⟩ := hstep.guard
        have hpairEq : pair = (input, pair.2) := List.mem_singleton.mp hnew
        have hrowEq : row = current := h.inputKey.eq_of_key_eq hrow hcurrent
          (show row.inputId = current.inputId by rw [hid, hguard])
        rw [hinput, hrowEq, hguard, hpairEq]
      · exact absurd rfl ((hlawful.fresh _ rfl).1 _ hpair)
  slotFree := by
    intro slot hslot pair hpair heq
    rcases List.mem_append.mp hslot with hslot | hslot
    · cases action <;> simp only [Action.reserved?, Option.toList, List.mem_singleton,
        List.not_mem_nil] at hslot
      subst hslot
      exact (hlawful.fresh _ rfl).1 pair hpair heq
    · rcases List.mem_append.mp hpair with hpair | hpair
      · cases action <;> simp only [Action.taken?, Option.toList, List.mem_singleton,
          List.not_mem_nil] at hpair
        subst hpair heq
        exact (hlawful.fresh _ rfl).2 hslot
      · exact h.slotFree slot hslot pair hpair heq
  leaseBound := h.leaseBound_step hstep
  leaseBehind := h.leaseBehind_step hstep hlawful

structure Extends (log : List Action) (taken taken' : List (InboxInput × String))
    (slots slots' : List String) : Prop where
  taken_iff : ∀ pair, pair ∈ taken' ↔ pair ∈ taken ∨ Action.take pair.1 pair.2 ∈ log
  slots_iff : ∀ slot, slot ∈ slots' ↔ slot ∈ slots ∨ Action.reserve slot ∈ log

theorem Extends.cons {log : List Action} {taken' : List (InboxInput × String)}
    {slots' : List String} (h : Extends log (action.taken?.toList ++ taken) taken'
      (action.reserved?.toList ++ slots) slots') :
    Extends (action :: log) taken taken' slots slots' where
  taken_iff := by
    intro pair
    rw [h.taken_iff, List.mem_append, List.mem_cons]
    have hnew : pair ∈ action.taken?.toList ↔ Action.take pair.1 pair.2 = action := by
      cases action <;> simp [Action.taken?, Prod.ext_iff]
    tauto
  slots_iff := by
    intro slot
    rw [h.slots_iff, List.mem_append, List.mem_cons]
    have hnew : slot ∈ action.reserved?.toList ↔ Action.reserve slot = action := by
      cases action <;> simp [Action.reserved?]
    tauto

theorem run {log : List Action} (hrun : Run (Action.Step now) s log t)
    (h : ClaimInvariant now taken slots s) (hdistinct : (log.filterMap Action.token?).Nodup)
    (hfresh : ∀ token ∈ log.filterMap Action.token?,
      (∀ pair ∈ taken, pair.2 ≠ token) ∧ token ∉ slots)
    (hrenewed : ∀ claim, .renew claim ∈ log →
      ∃ input, (input, claim.token) ∈ taken ∧ claim.Describes input)
    (hslot : ∀ token, .renewSlot token ∈ log → token ∈ slots) :
    ∃ taken' slots', ClaimInvariant now taken' slots' t ∧
      Extends log taken taken' slots slots' := by
  induction hrun generalizing taken slots with
  | nil s => exact ⟨taken, slots, h, by simp, by simp⟩
  | @cons s u t action log hstep hrest ih =>
    have hlawful : action.Lawful taken slots := by
      refine ⟨fun token htoken => hfresh token ?_, fun claim haction => hrenewed claim ?_,
        fun token haction => hslot token ?_⟩
      · exact List.mem_filterMap.mpr ⟨action, List.mem_cons_self, htoken⟩
      · exact haction ▸ List.mem_cons_self
      · exact haction ▸ List.mem_cons_self
    have htail : ∀ token ∈ log.filterMap Action.token?, action.token? ≠ some token := by
      intro token htoken haction
      rw [List.filterMap_cons_some haction, List.nodup_cons] at hdistinct
      exact hdistinct.1 htoken
    have hsub : ∀ token ∈ log.filterMap Action.token?,
        token ∈ (action :: log).filterMap Action.token? := by
      intro token htoken
      obtain ⟨later, hlater, heq⟩ := List.mem_filterMap.mp htoken
      exact List.mem_filterMap.mpr ⟨later, List.mem_cons_of_mem _ hlater, heq⟩
    have hdistinct' : (log.filterMap Action.token?).Nodup :=
      hdistinct.sublist ((List.sublist_cons_self action log).filterMap _)
    have hfresh' : ∀ token ∈ log.filterMap Action.token?,
        (∀ pair ∈ action.taken?.toList ++ taken, pair.2 ≠ token) ∧
          token ∉ action.reserved?.toList ++ slots := by
      intro token htoken
      obtain ⟨htaken, hslots⟩ := hfresh token (hsub token htoken)
      have hother := htail token htoken
      constructor
      · intro pair hpair
        rcases List.mem_append.mp hpair with hpair | hpair
        · cases action <;> simp only [Action.taken?, Option.toList, List.mem_singleton,
            List.not_mem_nil] at hpair
          subst hpair
          exact fun heq => hother (congrArg some heq)
        · exact htaken pair hpair
      · intro hmem
        rcases List.mem_append.mp hmem with hmem | hmem
        · cases action <;> simp only [Action.reserved?, Option.toList, List.mem_singleton,
            List.not_mem_nil] at hmem
          exact hother (congrArg some hmem.symm)
        · exact hslots hmem
    obtain ⟨taken', slots', hinv, hextends⟩ := ih (h.step hstep hlawful) hdistinct' hfresh'
      (fun claim hclaim => by
        obtain ⟨input, htaken, hdescribes⟩ := hrenewed claim (List.mem_cons_of_mem _ hclaim)
        exact ⟨input, List.mem_append_right _ htaken, hdescribes⟩)
      (fun token htoken => List.mem_append_right _ (hslot token (List.mem_cons_of_mem _ htoken)))
    exact ⟨taken', slots', hinv, hextends.cons⟩

end ClaimInvariant

/-! ## The invariant of a world -/

structure WorldInvariant (w : World δ) (taken : List (InboxInput × String))
    (slots : List String) : Prop where
  claims : ClaimInvariant w.clock taken slots w.db
  takenIssued : ∀ pair ∈ taken, pair.2 ∈ w.issued
  slotsIssued : ∀ slot ∈ slots, slot ∈ w.issued
  handed : ∀ claim ∈ w.handed, ∃ input, (input, claim.token) ∈ taken ∧ claim.Describes input
  slots : ∀ slot ∈ w.slots, slot ∈ slots

section Worlds

variable {platform : Platform} {reducers : DomainReducers δ} {w w' : World δ} {e : Event δ}
  {taken : List (InboxInput × String)} {slots : List String}

theorem WorldInvariant.initial (h : w.Initial) : WorldInvariant w [] [] := by
  refine ⟨⟨?_, ?_, by simp, by simp, ?_, ?_⟩, by simp, by simp, ?_, ?_⟩
  · rw [h.inbox]
    exact Rows.UniqueKey.nil _
  · simp [h.inbox]
  · simp [h.leases]
  · simp [h.inbox]
  · simp [h.handed]
  · simp [h.slots]

theorem WorldInvariant.step (h : WorldInvariant w taken slots)
    (hstep : Step platform reducers w e w') :
    ∃ taken' slots', WorldInvariant w' taken' slots' := by
  obtain ⟨log, hlog⟩ := hstep.log
  have htokens : ∀ token ∈ log.filterMap Action.token?, token ∈ e.op.tokens :=
    fun token htoken => hlog.tokens.subset htoken
  have hfresh : ∀ token ∈ log.filterMap Action.token?,
      (∀ pair ∈ taken, pair.2 ≠ token) ∧ token ∉ slots := by
    intro token htoken
    have hnew := hstep.fresh token (htokens token htoken)
    exact ⟨fun pair hpair heq => hnew (heq ▸ h.takenIssued pair hpair),
      fun hslot => hnew (h.slotsIssued token hslot)⟩
  obtain ⟨taken', slots', hinv, hextends⟩ := ClaimInvariant.run hlog.run
    (h.claims.later hstep.clock) (hstep.distinct.sublist hlog.tokens) hfresh
    (fun claim hclaim => h.handed claim (hstep.claims claim (hlog.admits _ hclaim)))
    (fun token htoken => h.slots token (hstep.slots token (hlog.admits _ htoken)))
  refine ⟨taken', slots', ⟨hstep.clock' ▸ hinv, ?_, ?_, ?_, ?_⟩⟩
  · intro pair hpair
    rw [hstep.issued', List.mem_append]
    rcases (hextends.taken_iff pair).mp hpair with hold | hnew
    · exact .inr (h.takenIssued pair hold)
    · exact .inl (htokens _ (List.mem_filterMap.mpr ⟨_, hnew, rfl⟩))
  · intro slot hslot
    rw [hstep.issued', List.mem_append]
    rcases (hextends.slots_iff slot).mp hslot with hold | hnew
    · exact .inr (h.slotsIssued slot hold)
    · exact .inl (htokens _ (List.mem_filterMap.mpr ⟨_, hnew, rfl⟩))
  · intro claim hclaim
    rw [hstep.handed', List.mem_append] at hclaim
    rcases hclaim with hnew | hold
    · obtain ⟨input, htake, hdescribes⟩ := hlog.claims claim hnew
      exact ⟨input, (hextends.taken_iff (input, claim.token)).mpr (.inr htake), hdescribes⟩
    · obtain ⟨input, htaken, hdescribes⟩ := h.handed claim hold
      exact ⟨input, (hextends.taken_iff _).mpr (.inl htaken), hdescribes⟩
  · intro slot hslot
    rw [hstep.slots', List.mem_append] at hslot
    rcases hslot with hnew | hold
    · exact (hextends.slots_iff slot).mpr (.inr (hlog.slot slot (by simpa using hnew)))
    · exact (hextends.slots_iff slot).mpr (.inl (h.slots slot hold))

theorem WorldInvariant.of_run {w₀ : World δ} {events : List (Event δ)} (hstart : w₀.Initial)
    (hrun : Run (Step platform reducers) w₀ events w) :
    ∃ taken slots, WorldInvariant w taken slots :=
  hrun.invariant (P := fun w => ∃ taken slots, WorldInvariant w taken slots)
    (fun _ _ _ h hstep => by
      obtain ⟨taken, slots, h⟩ := h
      exact h.step hstep)
    ⟨[], [], .initial hstart⟩

end Worlds
end LocalState
end Awiki

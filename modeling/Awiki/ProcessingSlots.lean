import Awiki.ClaimFencing

/-!
# The number of inputs in processing

Claims of inputs and slots of other work share the lease table.  Both count its rows in the
transaction that adds to it, after they have dropped the expired ones; a renewal can bring an
expired lease back only while its row is still there.  So the table never has more than
`MAX_ACTIVE_INPUTS` rows, and a lease belongs to at most one input.
-/

namespace Awiki
namespace LocalState

open Rows

section Slots

variable {δ : Type} {now : Int} {action : Action} {log : List Action} {s t : Db δ}
  {platform : Platform} {reducers : DomainReducers δ} {w₀ w w' : World δ} {e : Event δ}

def Db.LeaseKey (db : Db δ) : Prop :=
  UniqueKey (fun lease : InputLease => lease.attemptToken) db.syncInputLeases

/-- Only a new token adds a lease. -/
theorem Action.Step.leaseKey (h : Action.Step now s action t) (hs : s.LeaseKey) :
    t.LeaseKey ∧
      t.syncInputLeases.length ≤ s.syncInputLeases.length + action.token?.toList.length := by
  have hnew : ∀ token, s.hasLease token = false →
      UniqueKey (fun lease : InputLease => lease.attemptToken) (s.syncInputLeases ++
        [{ attemptToken := token, deadline := claimDeadline now }]) := by
    intro token hfree
    refine UniqueKey.append_singleton hs fun lease hlease heq => ?_
    have := List.any_eq_false.mp hfree lease hlease
    simp [heq] at this
  have hdelete : ∀ p : InputLease → Bool, (deleteWhere p s.syncInputLeases).length ≤
      s.syncInputLeases.length := fun p => List.length_filter_le _ _
  unfold Db.LeaseKey
  rw [h.leases]
  have hguard := h.guard
  cases action with
  | dropLeases => exact ⟨UniqueKey.deleteWhere hs _, hdelete _⟩
  | release token => exact ⟨UniqueKey.deleteWhere hs _, hdelete _⟩
  | reserve token => exact ⟨hnew token hguard, by simp [Action.updateLeases, Action.token?]⟩
  | take input token => exact ⟨hnew token hguard.1, by simp [Action.updateLeases, Action.token?]⟩
  | renew claim =>
    exact ⟨UniqueKey.updateWhere hs fun _ => rfl, by simp [Action.updateLeases, updateWhere]⟩
  | renewSlot token =>
    exact ⟨UniqueKey.updateWhere hs fun _ => rfl, by simp [Action.updateLeases, updateWhere]⟩
  | _ => exact ⟨hs, Nat.le_add_right _ _⟩

theorem leaseKey_run (h : Run (Action.Step now) s log t) (hs : s.LeaseKey) :
    t.LeaseKey ∧
      t.syncInputLeases.length ≤ s.syncInputLeases.length + (log.filterMap Action.token?).length := by
  induction h with
  | nil => exact ⟨hs, Nat.le_add_right _ _⟩
  | @cons s u t action log hstep hrest ih =>
    obtain ⟨hu, hfirst⟩ := hstep.leaseKey hs
    obtain ⟨ht, hlast⟩ := ih hu
    have hlength : ((action :: log).filterMap Action.token?).length =
        action.token?.toList.length + (log.filterMap Action.token?).length := by
      cases htoken : action.token? <;> simp [htoken, Nat.add_comm]
    exact ⟨ht, by omega⟩

/-- One call, whichever it is, leaves the lease table within its bound. -/
theorem Step.leases_le (h : Step platform reducers w e w') (hkey : w.db.LeaseKey)
    (hbound : w.db.syncInputLeases.length ≤ maxActiveInputs) :
    w'.db.LeaseKey ∧ w'.db.syncInputLeases.length ≤ maxActiveInputs := by
  obtain ⟨log, hlog⟩ := h.log
  obtain ⟨hkey', hlength⟩ := leaseKey_run hlog.run hkey
  refine ⟨hkey', ?_⟩
  by_cases htokens : e.op.tokens = []
  · have hnone : log.filterMap Action.token? = [] := List.sublist_nil.mp (htokens ▸ hlog.tokens)
    rw [hnone] at hlength
    exact hlength.trans hbound
  cases he : e.outcome with
  | error error =>
    rw [h.db_of_error he]
    exact hbound
  | ok reply =>
    have hran := h.ran_ok he
    cases hop : e.op with
    | claimInputs binding limit tokens =>
      rw [hop] at hran
      obtain ⟨claims, hrun, -⟩ := Tx.bind_pure_ok.mp hran
      rcases claimInputs_log hrun with
        ⟨hsame, -⟩ | ⟨inputIds, mid, rows, hfirst, ⟨free, hfree, hrows⟩, htake, -⟩
      · rw [hsame]
        exact hbound
      · have htaken := (leaseKey_run htake (leaseKey_run hfirst hkey).1).2
        have hcount : ((takeActions rows tokens).filterMap Action.token?).length ≤ free :=
          calc ((takeActions rows tokens).filterMap Action.token?).length
              ≤ (takeActions rows tokens).length := List.length_filterMap_le _ _
            _ ≤ rows.length := by simp [takeActions]
            _ ≤ free := hrows ▸ List.length_take_le _ _
        omega
    | reserveProcessingSlot token =>
      rw [hop] at hran
      obtain ⟨slot, hrun, -⟩ := Tx.bind_pure_ok.mp hran
      rcases reserveProcessingSlot_log hrun with ⟨hsame, -⟩ | ⟨mid, hdrop, hroom, hreserve, -⟩
      · rw [hsame]
        exact hbound
      · have hreserved := (hreserve.leaseKey (hdrop.leaseKey hkey).1).2
        exact hreserved.trans hroom
    | _ => exact absurd (by rw [hop]; rfl) htokens

/-- In every run the lease table is within its bound, and an input whose token has a lease has
that lease to itself: it is one row, and no other input carries the token. -/
theorem processing_bounded {events : List (Event δ)} (hstart : w₀.Initial)
    (hrun : Run (Step platform reducers) w₀ events w) :
    w.db.syncInputLeases.length ≤ maxActiveInputs ∧
      ∀ row ∈ w.db.syncLaneInbox, ∀ token, row.attemptToken = some token →
        w.db.hasLease token = true →
          (w.db.syncInputLeases.filter fun lease => lease.attemptToken == token).length = 1 ∧
            ∀ other ∈ w.db.syncLaneInbox, other.attemptToken = some token → other = row := by
  have hempty : w₀.db.LeaseKey ∧ w₀.db.syncInputLeases.length ≤ maxActiveInputs := by
    rw [Db.LeaseKey, hstart.leases]
    exact ⟨.nil _, Nat.zero_le _⟩
  obtain ⟨hkey, hbound⟩ := hrun.invariant
    (P := fun w => w.db.LeaseKey ∧ w.db.syncInputLeases.length ≤ maxActiveInputs)
    (fun _ _ _ h hstep => hstep.leases_le h.1 h.2) hempty
  obtain ⟨taken, slots, hinv⟩ := WorldInvariant.of_run hstart hrun
  refine ⟨hbound, fun row hrow token htoken hlease => ⟨?_, fun other hother hsame => ?_⟩⟩
  · obtain ⟨lease, hmem, hheld⟩ := List.any_eq_true.mp hlease
    rw [UniqueKey.filter_eq_singleton hkey hmem hheld]
    · rfl
    · intro another _ hanother
      rw [beq_iff_eq.mp hanother, beq_iff_eq.mp hheld]
  · obtain ⟨input, htaken⟩ := hinv.claims.tokenTaken row hrow token htoken
    have hinput := hinv.claims.takenInput _ htaken
    apply hinv.claims.inputKey.eq_of_key_eq hother hrow
    rw [hinput other hother hsame, hinput row hrow htoken]

end Slots

namespace Sample

def claimBesideSlot : List (Int × Operation Unit) :=
  [ (100, .receiveOrdinary (page "0" "1" [event "e1" "1"])),
    (101, .claimInputs binding 1 ["t1"]), (102, .reserveProcessingSlot "slot") ]

def processing : World Unit :=
  (world ()).calls platform reducers claimBesideSlot

/-- An input that was received is claimed beside a reserved slot: of the two leases one is its
own. -/
theorem reserved_slot_bounded :
    processing.db.syncInputLeases.map (·.attemptToken) = ["t1", "slot"] ∧
      processing.db.syncInputLeases.length ≤ maxActiveInputs ∧
      ∃ row ∈ processing.db.syncLaneInbox, row.attemptToken = some "t1" ∧
        (processing.db.syncInputLeases.filter fun lease =>
          lease.attemptToken == "t1").length = 1 := by
  have hpermits : (world ()).permitsAll platform reducers claimBesideSlot = true := by
    decide +kernel
  have hrun : Run (Step platform reducers) (world ()) _ processing := run_of_calls hpermits
  obtain ⟨hbound, hrows⟩ := processing_bounded (world_initial ()) hrun
  have hclaimed : processing.db.syncLaneInbox.map (·.attemptToken) = [some "t1"] := by
    decide +kernel
  have hmem : some "t1" ∈ processing.db.syncLaneInbox.map (·.attemptToken) := by
    rw [hclaimed]
    exact List.mem_singleton_self _
  obtain ⟨row, hrow, htoken⟩ := List.mem_map.mp hmem
  have hlease : processing.db.hasLease "t1" = true := by decide +kernel
  exact ⟨by decide +kernel, hbound, row, hrow, htoken, (hrows row hrow "t1" htoken hlease).1⟩

end Sample

end LocalState
end Awiki

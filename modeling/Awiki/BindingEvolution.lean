import Awiki.SyncCursorState
import Awiki.TransitionRuns

/-!
# The evolution of an account binding

A binding keeps its account and its device, its generations only rise, and its DID changes
with its identity generation only.  A changed DID leaves a cutover behind.  Cutovers are keyed
by both DIDs and keep their status when they are registered again, and
`load_p5_did_cutover` asks for the old DID alone, so after a return to an earlier DID it can
find a cutover that is drained or that leads elsewhere.
-/

namespace Awiki
namespace LocalState

open Tx Rows

variable {δ : Type} {s t u : Db δ} {binding stored old : IdentityAccountBinding}

/-- The rows of which `load_p5_did_cutover` returns one: its query has no order. -/
def loadP5DidCutover (db : Db δ) (owner oldDid : String) : List P5DidCutover :=
  db.syncP5DidCutovers.filter fun row => row.ownerIdentityId == owner && row.oldDid == oldDid

def completeP5DidCutoverIfDrained (owner oldDid : String) (now : Int) : LocalM δ Bool := do
  let pending ← query fun db => db.syncLaneInbox.any fun row =>
    row.ownerIdentityId == owner && row.lane == .secure .p5Device && row.closedAt.isNone &&
      row.rawPayload.pointer ["meta", "target", "did"] == some (.str oldDid)
  if pending then pure false
  else do
    let draining (row : P5DidCutover) : Bool :=
      row.ownerIdentityId == owner && row.oldDid == oldDid && row.status == "draining"
    let changed ← query fun db => db.syncP5DidCutovers.countP draining
    execute fun db => { db with
      syncP5DidCutovers := updateWhere draining
        (fun row => { row with status := "drained", updatedAt := now }) db.syncP5DidCutovers }
    pure (changed == 1)

inductive BindingCall where
  | upsert (binding : IdentityAccountBinding)
  | complete (owner oldDid : String) (now : Int)

def BindingCall.call : BindingCall → LocalM δ Unit
  | upsert binding => upsertIdentityAccountBinding binding
  | complete owner oldDid now => do
      let _drained ← completeP5DidCutoverIfDrained owner oldDid now
      pure ()

def BindingStep (s : Db δ) (call : BindingCall) (t : Db δ) : Prop :=
  call.call.run s = .ok () t ∨ ∃ e, call.call.run s = .error e t

/-! ## One call -/

structure IdentityAccountBinding.Evolves (old new : IdentityAccountBinding) : Prop where
  account : new.accountId = old.accountId
  device : new.protocolDeviceId = old.protocolDeviceId
  identity : (Decimal.order old.identityGeneration new.identityGeneration).isLE = true
  auth : (Decimal.order old.deviceAuthGeneration new.deviceAuthGeneration).isLE = true
  did : new.identityGeneration = old.identityGeneration → new.currentDid = old.currentDid

namespace IdentityAccountBinding

theorem Evolves.refl (binding : IdentityAccountBinding) : binding.Evolves binding :=
  ⟨rfl, rfl, by simp [Decimal.order_self], by simp [Decimal.order_self], fun _ => rfl⟩

theorem Evolves.trans {new : IdentityAccountBinding} (h : old.Evolves stored)
    (h' : stored.Evolves new) : old.Evolves new := by
  refine ⟨h'.account.trans h.account, h'.device.trans h.device,
    Decimal.order_le_trans h.identity h'.identity, Decimal.order_le_trans h.auth h'.auth, ?_⟩
  intro hsame
  have hback := h'.identity
  rw [hsame, Decimal.order_swap] at hback
  -- the generation in between is squeezed by the two equal ones
  have hmiddle : stored.identityGeneration = old.identityGeneration := by
    have hforth := h.identity
    cases horder : Decimal.order old.identityGeneration stored.identityGeneration with
    | eq => exact (Decimal.order_eq_iff.mp horder).symm
    | lt => simp [horder] at hback
    | gt => simp [horder] at hforth
  exact (h'.did (hsame.trans hmiddle.symm)).trans (h.did hmiddle)

end IdentityAccountBinding

theorem checkBindingSuccessor_ok (h : checkBindingSuccessor stored binding = .ok ()) :
    stored.Evolves (stored.rebound binding) := by
  unfold checkBindingSuccessor at h
  split at h
  · cases h
  split at h
  · cases h
  obtain ⟨generation, hgeneration, h⟩ := except_bind_ok.mp h
  have hgeneration := (compareDecimal_ok.mp hgeneration).2.2
  split at h
  · cases h
  split at h
  · cases h
  obtain ⟨auth, hauth, h⟩ := except_bind_ok.mp h
  have hauth := (compareDecimal_ok.mp hauth).2.2
  split at h
  · cases h
  rename_i haccount hdevice _ hlt hdid _ _ hauthlt
  refine ⟨rfl, rfl, ?_, ?_, ?_⟩
  · rw [IdentityAccountBinding.rebound, Decimal.order_swap, hgeneration]
    cases generation <;> simp_all
  · rw [IdentityAccountBinding.rebound, Decimal.order_swap, hauth]
    cases auth <;> simp_all
  · intro hsame
    have heq : generation = .eq := hgeneration.symm.trans (Decimal.order_eq_iff.mpr hsame)
    simpa [IdentityAccountBinding.rebound, heq, eq_comm] using hdid

theorem registerP5DidCutover_ok {cutover : P5DidCutover}
    (h : (registerP5DidCutover cutover).run s = .ok () t) : t = s.cutOver cutover := by
  simp only [registerP5DidCutover, bind_ok, attempt_ok, refuseIf_ok, query_ok, orError_ok,
    execute_ok] at h
  obtain ⟨_, _, ⟨-, rfl⟩, _, _, ⟨-, rfl⟩, _, _, ⟨-, rfl⟩, _, _, ⟨-, rfl⟩, _, _, ⟨-, rfl⟩, _, _,
    ⟨-, rfl⟩, _, _, ⟨-, rfl⟩, rfl⟩ := h
  rfl

theorem registerP5DidCutover_failsClean (cutover : P5DidCutover) :
    FailsClean (registerP5DidCutover cutover : LocalM δ _) :=
  (ReadOnly.attempt _).bind_failsClean fun _ => (ReadOnly.refuseIf _ _).bind_failsClean fun _ =>
    (ReadOnly.query _).bind_failsClean fun _ => (ReadOnly.orError _ _).bind_failsClean fun _ =>
    (ReadOnly.refuseIf _ _).bind_failsClean fun _ => (ReadOnly.query _).bind_failsClean fun _ =>
    (ReadOnly.refuseIf _ _).bind_failsClean fun _ => (NeverFails.execute _).failsClean

theorem registerSuccessor_failsClean (stored : Option IdentityAccountBinding) :
    FailsClean (registerSuccessor stored binding : LocalM δ _) := by
  unfold registerSuccessor
  split
  · split
    · exact registerP5DidCutover_failsClean _
    · exact (NeverFails.pure ()).failsClean
  · exact (NeverFails.pure ()).failsClean

theorem upsertIdentityAccountBinding_ok
    (h : (upsertIdentityAccountBinding binding).run s = .ok () t) :
    (∀ stored, s.identityAccountBinding binding.ownerIdentityId = some stored →
      checkBindingSuccessor stored binding = .ok ()) ∧
    (registerSuccessor (s.identityAccountBinding binding.ownerIdentityId) binding).run
      (s.rebind binding) = .ok () t := by
  obtain ⟨_, -, h⟩ := attempt_bind_ok.mp h
  obtain ⟨_, rfl, h⟩ := query_bind_ok.mp h
  obtain ⟨_, hcheck, h⟩ := attempt_bind_ok.mp h
  obtain ⟨_, rfl, h⟩ := query_bind_ok.mp h
  obtain ⟨-, h⟩ := refuseIf_bind_ok.mp h
  replace h := execute_bind_ok.mp h
  refine ⟨?_, h⟩
  intro stored hstored
  simpa [hstored] using hcheck

/-- A failing upsert stops at its checks, or at the cutover with the binding written. -/
theorem upsertIdentityAccountBinding_error {e : ImError}
    (h : (upsertIdentityAccountBinding binding).run s = .error e t) :
    t = s ∨ (∀ stored, s.identityAccountBinding binding.ownerIdentityId = some stored →
      checkBindingSuccessor stored binding = .ok ()) ∧ t = s.rebind binding := by
  rcases bind_error.mp h with h | ⟨_, _, hvalid, h⟩
  · exact .inl ((ReadOnly.attempt _).2 _ _ _ h)
  obtain ⟨-, rfl⟩ := attempt_ok.mp hvalid
  obtain h | ⟨_, _, hstored, h⟩ := bind_error.mp h
  · cases h
  obtain ⟨rfl, rfl⟩ := query_ok.mp hstored
  rcases bind_error.mp h with h | ⟨_, _, hcheck, h⟩
  · exact .inl ((ReadOnly.attempt _).2 _ _ _ h)
  obtain ⟨hcheck, rfl⟩ := attempt_ok.mp hcheck
  obtain h | ⟨_, _, hholder, h⟩ := bind_error.mp h
  · cases h
  obtain ⟨rfl, rfl⟩ := query_ok.mp hholder
  rcases bind_error.mp h with h | ⟨_, _, hfree, h⟩
  · exact .inl ((ReadOnly.refuseIf _ _).2 _ _ _ h)
  obtain ⟨-, rfl⟩ := refuseIf_ok.mp hfree
  obtain h | ⟨_, _, hwrite, h⟩ := bind_error.mp h
  · cases h
  obtain rfl := execute_ok.mp hwrite
  refine .inr ⟨?_, registerSuccessor_failsClean _ _ _ _ h⟩
  intro stored hstored
  simpa [hstored] using hcheck

theorem registerSuccessor_bindings {stored : Option IdentityAccountBinding}
    (h : (registerSuccessor stored binding).run s = .ok () t) :
    t.identityAccountBindings = s.identityAccountBindings := by
  unfold registerSuccessor at h
  split at h
  · split at h
    · rw [registerP5DidCutover_ok h]
      rfl
    · rw [(pure_ok.mp h).2]
  · rw [(pure_ok.mp h).2]

/-! ## Histories -/

theorem rebind_evolves {owner : String}
    (hold : s.identityAccountBinding owner = some old)
    (hcheck : ∀ stored, s.identityAccountBinding binding.ownerIdentityId = some stored →
      checkBindingSuccessor stored binding = .ok ()) :
    ∃ new, (s.rebind binding).identityAccountBinding owner = some new ∧ old.Evolves new := by
  by_cases howner : owner = binding.ownerIdentityId
  · subst howner
    have hfound : s.identityAccountBindings.find?
        (fun row => row.ownerIdentityId == binding.ownerIdentityId) = some old := hold
    have hnew : (s.rebind binding).identityAccountBinding binding.ownerIdentityId =
        some ((s.identityAccountBindings.find? fun row =>
          row.ownerIdentityId == binding.ownerIdentityId).elim binding (·.rebound binding)) :=
      find?_upsertWhere_key (by exact beq_self_eq_true _) (by exact fun _ hrow => hrow) _
    rw [hfound] at hnew
    exact ⟨_, hnew, checkBindingSuccessor_ok (hcheck old hold)⟩
  · refine ⟨old, ?_, .refl old⟩
    rw [← hold]
    apply find?_upsertWhere_of_ne
    · intro row hrow
      have hrow : row.ownerIdentityId = binding.ownerIdentityId := by simpa using hrow
      simpa [hrow] using Ne.symm howner
    · simpa using Ne.symm howner
    · intro row hrow
      have hrow : row.ownerIdentityId = binding.ownerIdentityId := by simpa using hrow
      simpa [IdentityAccountBinding.rebound, hrow] using Ne.symm howner

theorem completeP5DidCutover_bindings {owner oldDid : String} {now : Int}
    (h : BindingStep s (.complete owner oldDid now) t) :
    t.identityAccountBindings = s.identityAccountBindings := by
  have hnever : NeverFails (completeP5DidCutoverIfDrained owner oldDid now : LocalM δ _) := by
    refine .bind (.query _) fun pending => ?_
    cases pending
    · exact .bind (.query _) fun _ => .bind (.execute _) fun _ => .pure _
    · exact .pure _
  have hkeeps : Keeps (completeP5DidCutoverIfDrained owner oldDid now : LocalM δ _)
      (·.identityAccountBindings) :=
    .bind (.query _) fun _ => .ite (.pure _) (.bind (.query _) fun _ =>
      .bind (.execute fun _ => rfl) fun _ => .pure _)
  rcases h with h | ⟨e, h⟩
  · exact Keeps.bind hkeeps (fun _ => .pure ()) _ _ _ h
  · exact absurd h (NeverFails.bind hnever (fun _ => .pure ()) _ _ _)

theorem BindingStep.evolves {call : BindingCall} {owner : String} (h : BindingStep s call t)
    (hold : s.identityAccountBinding owner = some old) :
    ∃ new, t.identityAccountBinding owner = some new ∧ old.Evolves new := by
  have hsame : t.identityAccountBindings = s.identityAccountBindings →
      ∃ new, t.identityAccountBinding owner = some new ∧ old.Evolves new := by
    intro htables
    exact ⟨old, by rw [Db.identityAccountBinding, htables]; exact hold, .refl old⟩
  cases call with
  | complete => exact hsame (completeP5DidCutover_bindings h)
  | upsert binding =>
    rcases h with h | ⟨e, h⟩
    · obtain ⟨hcheck, hregister⟩ := upsertIdentityAccountBinding_ok h
      rw [Db.identityAccountBinding, registerSuccessor_bindings hregister]
      exact rebind_evolves hold hcheck
    · rcases upsertIdentityAccountBinding_error h with rfl | ⟨hcheck, rfl⟩
      · exact hsame rfl
      · exact rebind_evolves hold hcheck

def Db.Drains (db : Db δ) (cutover : P5DidCutover) : Prop :=
  loadP5DidCutover db cutover.ownerIdentityId cutover.oldDid ≠ [] ∧
    ∀ row ∈ loadP5DidCutover db cutover.ownerIdentityId cutover.oldDid,
      row.newDid = cutover.newDid ∧ row.status = "draining" ∧
        row.drainDeadline = cutover.drainDeadline

theorem mem_loadP5DidCutover {owner oldDid : String} {row : P5DidCutover} :
    row ∈ loadP5DidCutover s owner oldDid ↔
      row ∈ s.syncP5DidCutovers ∧ row.ownerIdentityId = owner ∧ row.oldDid = oldDid := by
  simp [loadP5DidCutover]

theorem drains_iff {cutover : P5DidCutover} :
    (s.cutOver cutover).Drains cutover ↔
      ∀ row ∈ loadP5DidCutover s cutover.ownerIdentityId cutover.oldDid,
        row.newDid = cutover.newDid ∧ row.status = "draining" := by
  constructor
  · rintro ⟨-, hdrains⟩ row hrow
    obtain ⟨hmem, hpair⟩ := mem_loadP5DidCutover.mp hrow
    rcases mem_upsertWhere_of_mem cutover.isPair _ cutover.renew hmem with hkept | hmerged
    · obtain ⟨hnew, hdraining, -⟩ := hdrains row (mem_loadP5DidCutover.mpr ⟨hkept, hpair⟩)
      exact ⟨hnew, hdraining⟩
    · obtain ⟨hnew, hdraining, -⟩ := hdrains _ (mem_loadP5DidCutover.mpr ⟨hmerged, hpair⟩)
      exact ⟨hnew, hdraining⟩
  · intro hbefore
    constructor
    · obtain ⟨row, hrow, hpair⟩ : ∃ row ∈ (s.cutOver cutover).syncP5DidCutovers,
          row.ownerIdentityId = cutover.ownerIdentityId ∧ row.oldDid = cutover.oldDid := by
        apply exists_upsertWhere ⟨rfl, rfl⟩
        intro row hrow
        simp only [P5DidCutover.isPair, Bool.and_eq_true, beq_iff_eq] at hrow
        exact hrow.1
      exact List.ne_nil_of_mem (mem_loadP5DidCutover.mpr ⟨hrow, hpair⟩)
    · intro row hrow
      obtain ⟨hload, hold⟩ := mem_loadP5DidCutover.mp hrow
      rcases mem_upsertWhere hload with rfl | ⟨hmem, hpair⟩ | ⟨row, hmem, hpair, rfl⟩
      · exact ⟨rfl, rfl, rfl⟩
      · obtain ⟨hnew, -⟩ := hbefore row (mem_loadP5DidCutover.mpr ⟨hmem, hold⟩)
        simp [P5DidCutover.isPair, hold, hnew] at hpair
      · obtain ⟨hnew, hdraining⟩ := hbefore row (mem_loadP5DidCutover.mpr ⟨hmem, hold⟩)
        exact ⟨hnew, hdraining, rfl⟩

/-- Over every history a binding evolves; the cutover of a changed DID is found exactly when
no cutover of the old DID is drained or leads to another DID. -/
theorem binding_history {calls : List BindingCall} (hrun : Run BindingStep s calls t) :
    (∀ owner old, s.identityAccountBinding owner = some old →
      ∃ new, t.identityAccountBinding owner = some new ∧ old.Evolves new) ∧
    ∀ binding stored u, (upsertIdentityAccountBinding binding).run t = .ok () u →
      t.identityAccountBinding binding.ownerIdentityId = some stored →
      stored.currentDid ≠ binding.currentDid →
      (u.Drains (successorCutover stored.currentDid binding) ↔
        ∀ row ∈ loadP5DidCutover t binding.ownerIdentityId stored.currentDid,
          row.newDid = binding.currentDid ∧ row.status = "draining") := by
  constructor
  · intro owner old hold
    refine hrun.invariant (P := fun u => ∃ new, u.identityAccountBinding owner = some new ∧
      old.Evolves new) ?_ ⟨old, hold, .refl old⟩
    rintro v call w ⟨middle, hmiddle, hevolves⟩ hstep
    obtain ⟨new, hnew, hevolves'⟩ := hstep.evolves hmiddle
    exact ⟨new, hnew, hevolves.trans hevolves'⟩
  · intro binding stored u h hstored hchanged
    obtain ⟨-, hregister⟩ := upsertIdentityAccountBinding_ok h
    simp only [hstored, registerSuccessor, ne_eq, hchanged, not_false_eq_true, if_true] at hregister
    rw [registerP5DidCutover_ok hregister]
    exact drains_iff

/-! ## A DID that is returned to -/

namespace RotationSample

def account (did generation : String) (updatedAt : Int) : IdentityAccountBinding where
  ownerIdentityId := "alice"
  accountId := "account"
  handleScope := none
  currentDid := did
  protocolDeviceId := "phone"
  identityGeneration := generation
  deviceAuthGeneration := "1"
  createdAt := 0
  updatedAt := updatedAt

def next (db : Db Unit) (call : BindingCall) : Db Unit :=
  match call.call.run db with
  | .ok _ t => t
  | .error _ t => t

theorem run_foldl (calls : List BindingCall) (db : Db Unit) :
    Run BindingStep db calls (calls.foldl next db) := by
  induction calls generalizing db with
  | nil => exact .nil db
  | cons call calls ih =>
    refine .cons ?_ (ih _)
    unfold BindingStep next
    cases hrun : call.call.run db with
    | ok v t => exact .inl rfl
    | error e t => exact .inr ⟨e, rfl⟩

def away : List BindingCall :=
  [.upsert (account "did:x" "1" 10), .upsert (account "did:y" "2" 20)]

def back : List BindingCall :=
  away ++ [.complete "alice" "did:x" 30, .upsert (account "did:x" "3" 40)]

/-- The cutover of a first change is found. -/
theorem first_cutover_drains :
    ((next (away.foldl next { domain := () }) (.upsert (account "did:x" "3" 40))).Drains
      (successorCutover "did:y" (account "did:x" "3" 40))) :=
  ((binding_history (run_foldl away { domain := () })).2 (account "did:x" "3" 40)
    (account "did:y" "2" 20) _ rfl (by decide) (by decide)).mpr (by decide)

/-- The second change away from a DID finds the drained cutover of the first one. -/
theorem returned_cutover_drained :
    ∃ t u : Db Unit, Run BindingStep { domain := () } back t ∧
      (upsertIdentityAccountBinding (account "did:y" "4" 50)).run t = .ok () u ∧
      (t.identityAccountBinding "alice").map (·.currentDid) = some "did:x" ∧
      (loadP5DidCutover u "alice" "did:x").map (fun row => (row.newDid, row.status)) =
        [("did:y", "drained")] :=
  ⟨_, next (back.foldl next { domain := () }) (.upsert (account "did:y" "4" 50)),
    run_foldl back { domain := () }, rfl, by decide, by decide⟩

end RotationSample

end LocalState
end Awiki

import Awiki.OperationFrames

/-!
# The receive cursor

The position of an owner is the epoch and the sequence that it has received up to.  A
page moves it from the sequence that the page was requested from, and only while the
run of the page is the newest of its owner.  Snapshots and bootstraps write the position
anew.
-/

namespace Awiki
namespace LocalState

open Tx

variable {generation : Int} {pages : List OrdinaryReceiveBatch}

section Cursor

variable {δ : Type} {platform : Platform} {reducers : DomainReducers δ} {now : Int}
  {owner : String} {op : Operation δ}

def Db.position (db : Db δ) (owner : String) : Option (String × String) :=
  (db.messageSyncStateRow owner).map fun state => (state.streamEpoch, state.scanSeq)

structure CursorStep (position : Option (String × String)) (page : OrdinaryReceiveBatch)
    (position' : Option (String × String)) : Prop where
  expected : position = some (page.streamEpoch, page.expectedScanSeq)
  next : position' = some (page.streamEpoch, page.nextScanSeq)
  forward : Decimal.value page.expectedScanSeq ≤ Decimal.value page.nextScanSeq

/-! ## The table of cursors -/

theorem offInbox_position (owner : String) : OffInbox fun db : Db δ => db.position owner := by
  constructor <;> intros <;> rfl

theorem offLanes_position (owner : String) : OffLanes fun db : Db δ => db.position owner := by
  constructor <;> intros <;> rfl

theorem upsertBootstrapState_position {state : MessageSyncState}
    (howner : state.ownerIdentityId ≠ owner) :
    Keeps (upsertBootstrapState state) fun db : Db δ => db.position owner := by
  refine .bind (.query _) fun _ => .bind .refuseIf fun _ => .execute fun db => ?_
  unfold Db.position Db.messageSyncStateRow
  rw [Rows.find?_upsertWhere_of_ne]
  · intro row hrow
    have hrow' : row.ownerIdentityId = state.ownerIdentityId := by simpa using hrow
    simpa [hrow'] using howner
  · simpa using howner
  · intro _ _
    simpa using howner

theorem loadMessageSyncState_ready (owner : String) (s : Db δ) :
    Ensures (loadMessageSyncState owner) s fun access _ => ∀ state, access = .ready state →
      s.messageSyncStateRow owner = some state ∧
        ∃ binding, s.identityAccountBinding owner = some binding ∧
          state.accountId = binding.accountId ∧
          state.protocolDeviceId = binding.protocolDeviceId ∧
          state.deviceAuthGeneration = binding.deviceAuthGeneration := by
  refine .bind_query (.bind_orError fun binding hbinding => .bind_query ?_)
  cases hrow : s.messageSyncStateRow owner with
  | none => exact .pure fun _ h => by cases h
  | some row =>
    refine .bind_refuseIf fun hsame => ?_
    simp only [Bool.or_eq_false_iff, bne_eq_false_iff_eq] at hsame
    split
    · exact .pure fun _ h => by cases h
    · rename_i hgeneration
      refine .pure fun _ h => ?_
      cases h
      exact ⟨rfl, binding, hbinding, hsame.1, hsame.2, not_not.mp hgeneration⟩

theorem advanceMessageSyncState_position (next : MessageSyncState) (s : Db δ) :
    Ensures (advanceMessageSyncState next) s fun access t => ∀ state, access = .ready state →
      (∃ seq, s.position next.ownerIdentityId = some (next.streamEpoch, seq) ∧
        t.position next.ownerIdentityId = some (next.streamEpoch, next.scanSeq) ∧
        Decimal.value seq ≤ Decimal.value next.scanSeq) ∧
      ∀ owner ≠ next.ownerIdentityId, t.position owner = s.position owner := by
  refine .bind_attempt fun _ _ => .bind_query (.bind_orError fun binding hbinding =>
    .bind_refuseIf fun haccount => .bind_read (loadMessageSyncState_keeps _) fun access hload => ?_)
  cases access with
  | bootstrapRequired fence => exact .pure fun _ h => by cases h
  | ready current =>
    obtain ⟨hrow, binding', hbinding', hcurrent⟩ :=
      loadMessageSyncState_ready _ s _ s hload current rfl
    obtain rfl : binding = binding' := Option.some.inj (hbinding.symm.trans hbinding')
    refine .bind_refuseIf fun hgeneration => ?_
    dsimp only
    split
    · exact .pure fun _ h => by cases h
    · rename_i hepoch
      refine .bind_attempt fun order hcompare => .bind_refuseIf fun horder =>
        .bind_query (.bind_refuseIf fun _ => .bind_execute (.pure fun _ _ => ?_))
      simp only [Bool.or_eq_false_iff, bne_eq_false_iff_eq] at haccount hgeneration
      obtain ⟨hnext, hold, rfl⟩ := compareDecimal_ok.mp hcompare
      have howner : current.ownerIdentityId = next.ownerIdentityId := by
        simpa using List.find?_some hrow
      constructor
      · refine ⟨current.scanSeq, ?_, ?_, ?_⟩
        · simp [Db.position, hrow, not_not.mp hepoch]
        · unfold Db.position Db.messageSyncStateRow at *
          dsimp only
          rw [Rows.find?_updateWhere, hrow]
          · simp [howner, hcurrent, haccount, hgeneration, not_not.mp hepoch]
          · intro _
            rfl
        · by_contra hlt
          have := (Decimal.order_lt_iff hnext hold).mpr (not_le.mp hlt)
          simp [this] at horder
      · intro other hother
        unfold Db.position Db.messageSyncStateRow
        dsimp only
        have htarget {row : MessageSyncState} (h : (row.ownerIdentityId == next.ownerIdentityId &&
            row.accountId == next.accountId && row.protocolDeviceId == next.protocolDeviceId &&
            row.deviceAuthGeneration == next.deviceAuthGeneration &&
            row.streamEpoch == next.streamEpoch) = true) :
            (row.ownerIdentityId == other) = false := by
          simp only [Bool.and_eq_true, beq_iff_eq] at h
          simpa [h.1.1.1.1] using hother.symm
        rw [Rows.find?_updateWhere_of_ne]
        · exact fun _ h => htarget h
        · exact fun _ h => htarget h

theorem receiveOrdinary_position (page : OrdinaryReceiveBatch) (s : Db δ) :
    Ensures (receiveOrdinary platform page now) s fun _ t =>
      CursorStep (s.position page.binding.ownerIdentityId) page
        (t.position page.binding.ownerIdentityId) ∧
      ∀ owner ≠ page.binding.ownerIdentityId, t.position owner = s.position owner := by
  refine .immediate (.bind_read (requireBinding_keeps _) fun _ _ =>
    .bind_read (requireMessageSyncRunGeneration_keeps _ _) fun _ _ => .bind_query
    (.bind_refuseIf fun _ => .bind_read (loadMessageSyncState_keeps _) fun access hload => ?_))
  cases access with
  | bootstrapRequired fence => exact .throw
  | ready current =>
    refine .bind_refuseIf fun hcurrent => .bind_attempt fun _ _ => .bind_refuseIf fun _ =>
      .bind_read (examineEvents_keeps _ _ _ _ _) fun examined _ => .bind fun removed u hroom =>
      .bind fun _ v hqueue => .bind fun advanced x hadvance => ?_
    cases advanced with
    | bootstrapRequired fence => exact .throw
    | ready state =>
      refine .pure ⟨_, rfl, ?_⟩
      have hkept (owner : String) : v.position owner = s.position owner := by
        have hroom' := makeRoom_keeps (offInbox_position owner) _ _ s _ u hroom
        have hqueue' : v.position owner = u.position owner :=
          Keeps.forEach (fun _ _ => insertInput_keeps (offInbox_position owner) _ _ _ _ _)
            u _ v hqueue
        exact hqueue'.trans hroom'
      obtain ⟨hrow, -⟩ := loadMessageSyncState_ready _ s _ s hload current rfl
      have howner : current.ownerIdentityId = page.binding.ownerIdentityId := by
        simpa using List.find?_some hrow
      simp only [Bool.or_eq_false_iff, bne_eq_false_iff_eq] at hcurrent
      have hposition : s.position page.binding.ownerIdentityId =
          some (page.streamEpoch, page.expectedScanSeq) := by
        simp [Db.position, hrow, hcurrent]
      obtain ⟨⟨seq, hbefore, hafter, hforward⟩, hothers⟩ :=
        advanceMessageSyncState_position _ v _ x hadvance state rfl
      simp only [howner, hkept, hposition, hcurrent.1] at hbefore hafter hothers hforward
      cases hbefore
      exact ⟨⟨hposition, hafter, hforward⟩, hothers⟩

/-! ## Calls -/

namespace Operation

def resets (owner : String) : Operation δ → Bool
  | receiveSnapshot checkpoint _ _ _ _ _ _ => checkpoint.ownerIdentityId == owner
  | receiveBootstrap input _ _ _ => input.state.ownerIdentityId == owner
  | _ => false

def page (owner : String) : Operation δ → Option OrdinaryReceiveBatch
  | receiveOrdinary page => if page.binding.ownerIdentityId = owner then some page else none
  | _ => none

def expectedGeneration : Operation δ → Option (String × Option Int)
  | receiveOrdinary page => some (page.binding.ownerIdentityId, page.expectedRunGeneration)
  | receiveSnapshot checkpoint _ _ _ _ _ _ =>
    some (checkpoint.ownerIdentityId, checkpoint.expectedRunGeneration)
  | receiveBootstrap input _ expectedRunGeneration _ =>
    some (input.binding.ownerIdentityId, some expectedRunGeneration)
  | _ => none

theorem position_of_ok {s t : Db δ} {reply : Reply}
    (h : (op.run platform reducers now).run s = .ok reply t) (hresets : op.resets owner = false) :
    Run CursorStep (s.position owner) (op.page owner).toList (t.position owner) := by
  have kept (hpage : op.page owner = none)
      (hkeeps : Keeps (op.run platform reducers now) fun db => db.position owner) :
      Run CursorStep (s.position owner) (op.page owner).toList (t.position owner) := by
    have hsame : t.position owner = s.position owner := hkeeps s reply t h
    rw [hpage, hsame]
    exact .nil _
  cases op with
  | receiveOrdinary page =>
    obtain ⟨outcome, hrun, -⟩ := bind_pure_ok.mp h
    obtain ⟨hstep, hothers⟩ := receiveOrdinary_position page s outcome _ hrun
    by_cases howner : page.binding.ownerIdentityId = owner
    · subst howner
      simpa [Operation.page, Run.single_iff] using hstep
    · simpa [Operation.page, howner] using (hothers owner (Ne.symm howner)).symm
  | receiveSnapshot checkpoint =>
    refine kept rfl (.reply (receiveSnapshot_keeps (offInbox_position owner)
      (offLanes_position owner) (upsertBootstrapState_position ?_) _ _ _ _ _))
    simpa [resets, snapshotSyncState] using hresets
  | receiveBootstrap input =>
    refine kept rfl (.reply (receiveBootstrap_keeps (offInbox_position owner)
      (offLanes_position owner) (fun state howner => upsertBootstrapState_position ?_) _ _ _))
    rw [howner]
    simpa [resets] using hresets
  | commitSyncLaneHandoff =>
    exact kept rfl (.reply (commitSyncLaneHandoff_keeps (offInbox_position owner)
      (offLanes_position owner) _))
  | upsertIdentityAccountBinding =>
    exact kept rfl (.reply (.immediate (.bind
      (upsertIdentityAccountBinding_keeps (offLanes_position owner).bindings
        (offLanes_position owner).cutovers _) fun _ => .pure _)))
  | upsertRecoveryState =>
    exact kept rfl (.reply (upsertRecoveryState_keeps (offLanes_position owner) _))
  | beginMessageSyncRun =>
    exact kept rfl (.reply (.bind .attempt fun _ => .immediate (.bind (.query _) fun _ =>
      .bind .refuseIf fun _ => .bind (.query _) fun _ => .bind .refuseIf fun _ =>
      .reply (.execute fun _ => rfl))))
  | finishMessageSyncRun =>
    exact kept rfl (.reply (.bind .attempt fun _ => .bind .refuseIf fun _ => .bind (.query _)
      fun _ => .reply (.execute fun _ => rfl)))
  | _ =>
    exact kept rfl (keeps_of_not_cursorCall (offInbox_position owner) (fun _ _ => rfl)
      (fun _ _ => rfl) _ rfl rfl)

end Operation

/-! ## Generations -/

theorem requireMessageSyncRunGeneration_current {expected : Int} {s t : Db δ} {u : Unit}
    (h : (requireMessageSyncRunGeneration owner (some expected)).run s = .ok u t) :
    s.runGeneration owner = some expected := by
  obtain ⟨current, rfl, hcheck⟩ := query_bind_ok.mp h
  have hcurrent := (refuseIf_ok.mp hcheck).1
  simpa using hcurrent

theorem Operation.runGeneration_of_receive {s t : Db δ} {reply : Reply}
    (h : (op.run platform reducers now).run s = .ok reply t)
    (hreceives : op.expectedGeneration = some (owner, some generation)) :
    s.runGeneration owner = some generation := by
  cases op with
  | receiveOrdinary page =>
    simp only [expectedGeneration, Option.some.injEq, Prod.mk.injEq] at hreceives
    obtain ⟨rfl, hexpected⟩ := hreceives
    obtain ⟨_, _, hrun, -⟩ := bind_ok.mp h
    obtain ⟨_, _, hbody⟩ := immediate_body hrun
    obtain ⟨_, u, hbinding, hrest⟩ := bind_ok.mp hbody
    obtain rfl : u = s := requireBinding_keeps (f := id) _ s _ u hbinding
    obtain ⟨_, _, hcheck, -⟩ := bind_ok.mp hrest
    rw [hexpected] at hcheck
    exact requireMessageSyncRunGeneration_current hcheck
  | receiveSnapshot checkpoint =>
    simp only [expectedGeneration, Option.some.injEq, Prod.mk.injEq] at hreceives
    obtain ⟨rfl, hexpected⟩ := hreceives
    obtain ⟨_, _, hrun, -⟩ := bind_ok.mp h
    obtain ⟨_, _, hbody⟩ := immediate_body hrun
    obtain ⟨_, _, hvalid, -⟩ := bind_ok.mp hbody
    obtain ⟨_, -, hrest⟩ := attempt_bind_ok.mp hvalid
    obtain ⟨_, _, hcheck, -⟩ := bind_ok.mp hrest
    rw [hexpected] at hcheck
    exact requireMessageSyncRunGeneration_current hcheck
  | receiveBootstrap input =>
    simp only [expectedGeneration, Option.some.injEq, Prod.mk.injEq] at hreceives
    obtain ⟨rfl, rfl⟩ := hreceives
    obtain ⟨_, _, hrun, -⟩ := bind_ok.mp h
    obtain ⟨_, _, hbody⟩ := immediate_body hrun
    obtain ⟨_, _, hcheck, -⟩ := bind_ok.mp hbody
    exact requireMessageSyncRunGeneration_current hcheck
  | _ => cases hreceives

theorem beginMessageSyncRun_generation (owner : String) (s : Db δ) :
    Ensures (beginMessageSyncRun owner now) s fun state t =>
      state.runGeneration = (s.runGeneration owner).getD 0 + 1 ∧
        t.runGeneration owner = some state.runGeneration ∧
        ∀ other ≠ owner, t.runGeneration other = s.runGeneration other := by
  refine .bind_attempt fun _ _ => .immediate (.bind_query (.bind_refuseIf fun _ =>
    .bind_query (.bind_refuseIf fun _ => .bind_execute (.pure ⟨_, rfl, rfl, ?_, ?_⟩))))
  · unfold Db.runGeneration
    dsimp only
    rw [Rows.find?_upsertWhere_self]
    · rfl
    · simp
  · intro other hother
    unfold Db.runGeneration
    dsimp only
    rw [Rows.find?_upsertWhere_of_ne]
    · intro row hrow
      simp only [beq_iff_eq] at hrow
      simpa [hrow] using hother.symm
    · simpa using hother.symm
    · intro _ _
      simpa using hother.symm

theorem finishMessageSyncRun_generation (state : MessageSyncRunState) :
    Keeps (finishMessageSyncRun state) fun db : Db δ => db.runGeneration owner := by
  refine .bind .attempt fun _ => .bind .refuseIf fun _ => .bind (.query _) fun _ =>
    .reply (.execute fun db => ?_)
  unfold Db.runGeneration
  dsimp only
  rw [Rows.find?_updateWhere]
  · rw [Option.map_map]
    congr 1
    funext row
    simp only [Function.comp_apply]
    split <;> rfl
  · intro _
    rfl

theorem Operation.runGeneration_keeps (op : Operation δ)
    (hop : op ≠ .beginMessageSyncRun owner) :
    Keeps (op.run platform reducers now) fun db => db.runGeneration owner := by
  have hinbox : OffInbox fun db : Db δ => db.runGeneration owner := by
    constructor <;> intros <;> rfl
  have hcursor : OffCursor fun db : Db δ => db.runGeneration owner := by
    refine ⟨?_, ?_⟩
    constructor
    all_goals intros; rfl
  cases op with
  | receiveOrdinary | receiveSnapshot | receiveBootstrap | commitSyncLaneHandoff
  | upsertIdentityAccountBinding | upsertRecoveryState => exact cursor_keeps hinbox hcursor _ rfl
  | beginMessageSyncRun other =>
    refine .reply fun s state t hrun => ?_
    refine (beginMessageSyncRun_generation other s state t hrun).2.2 owner ?_
    rintro rfl
    exact hop rfl
  | finishMessageSyncRun state => exact .reply (finishMessageSyncRun_generation state)
  | _ =>
    exact keeps_of_not_cursorCall hinbox (fun _ _ => rfl) (fun _ _ => rfl) _ rfl rfl

/-! ## Runs -/

variable {w w' : World δ} {e : Event δ} {events : List (Event δ)}

def Event.page (owner : String) (e : Event δ) : Option OrdinaryReceiveBatch :=
  if e.outcome.isOk = true then e.op.page owner else none

def Event.resets (owner : String) (e : Event δ) : Prop :=
  e.outcome.isOk = true ∧ e.op.resets owner = true

def Event.begins (owner : String) (generation : Int) (e : Event δ) : Prop :=
  e.op = .beginMessageSyncRun owner ∧
    ∃ reply, e.outcome = .ok reply ∧ reply.generation = some generation

theorem Event.begins_of_reply (hop : e.op = .beginMessageSyncRun owner)
    (hreply : e.reply.generation = some generation) : e.begins owner generation := by
  cases hok : e.outcome with
  | error error =>
    rw [Event.reply, hok] at hreply
    cases hreply
  | ok reply =>
    rw [Event.reply, hok] at hreply
    exact ⟨hop, reply, hok, hreply⟩

theorem position_step (hstep : Step platform reducers w e w') (hresets : ¬ e.resets owner) :
    Run CursorStep (w.db.position owner) (e.page owner).toList (w'.db.position owner) := by
  cases hok : e.outcome with
  | error error =>
    rw [hstep.db_of_error hok, Event.page, hok]
    exact .nil _
  | ok reply =>
    have hpage : e.page owner = e.op.page owner := by simp [Event.page, hok, Except.isOk,
      Except.toBool]
    rw [hpage]
    refine Operation.position_of_ok (hstep.ran_ok hok) ?_
    simpa [Event.resets, hok, Except.isOk, Except.toBool] using hresets

theorem position_run (hrun : Run (Step platform reducers) w events w')
    (hresets : ∀ e ∈ events, ¬ e.resets owner) :
    Run CursorStep (w.db.position owner) (events.filterMap (·.page owner))
      (w'.db.position owner) := by
  induction hrun with
  | nil w => exact .nil _
  | @cons w v w' e events hstep hrest ih =>
    have hfirst := position_step hstep (hresets e List.mem_cons_self)
    have htail := ih fun f hf => hresets f (List.mem_cons_of_mem _ hf)
    have hall := Run.append_iff.mpr ⟨_, hfirst, htail⟩
    cases hpage : e.page owner with
    | none => simpa [hpage] using hall
    | some page => simpa [hpage] using hall

theorem pages_chained {position position' : Option (String × String)}
    (hrun : Run CursorStep position pages position') :
    pages.IsChain fun page next =>
      next.streamEpoch = page.streamEpoch ∧ next.expectedScanSeq = page.nextScanSeq := by
  induction hrun with
  | nil position => exact .nil
  | @cons _ _ _ page pages hstep hrest ih =>
    cases hrest with
    | nil => exact .singleton _
    | cons hnext _ =>
      have hmiddle := hstep.next.symm.trans hnext.expected
      simp only [Option.some.injEq, Prod.mk.injEq] at hmiddle
      exact .cons_cons ⟨hmiddle.1.symm, hmiddle.2.symm⟩ ih

theorem position_monotone {position position' : Option (String × String)}
    (hrun : Run CursorStep position pages position') {epoch seq : String}
    (hposition : position = some (epoch, seq)) :
    ∃ seq', position' = some (epoch, seq') ∧ Decimal.value seq ≤ Decimal.value seq' := by
  induction hrun generalizing seq with
  | nil position => exact ⟨seq, hposition, le_refl _⟩
  | @cons _ _ _ page pages hstep hrest ih =>
    have hexpected := hstep.expected.symm.trans hposition
    simp only [Option.some.injEq, Prod.mk.injEq] at hexpected
    obtain ⟨rfl, rfl⟩ := hexpected
    obtain ⟨seq', hend, hle⟩ := ih hstep.next
    exact ⟨seq', hend, hstep.forward.trans hle⟩

theorem runGeneration_step (hstep : Step platform reducers w e w') :
    (w.db.runGeneration owner).getD 0 ≤ (w'.db.runGeneration owner).getD 0 := by
  cases hok : e.outcome with
  | error error => rw [hstep.db_of_error hok]
  | ok reply =>
    have hran := hstep.ran_ok hok
    by_cases hop : e.op = .beginMessageSyncRun owner
    · rw [hop] at hran
      obtain ⟨state, hrun, -⟩ := bind_pure_ok.mp hran
      obtain ⟨hnew, hstored, -⟩ := beginMessageSyncRun_generation owner w.db state _ hrun
      rw [hstored, Option.getD_some]
      omega
    · have hsame : w'.db.runGeneration owner = w.db.runGeneration owner :=
        e.op.runGeneration_keeps hop w.db reply w'.db hran
      rw [hsame]

theorem runGeneration_run (owner : String) (hrun : Run (Step platform reducers) w events w') :
    (w.db.runGeneration owner).getD 0 ≤ (w'.db.runGeneration owner).getD 0 :=
  hrun.invariant (P := fun v : World δ =>
    (w.db.runGeneration owner).getD 0 ≤ (v.db.runGeneration owner).getD 0)
    (fun _ _ _ hle hstep => hle.trans (runGeneration_step hstep)) le_rfl

theorem runGeneration_begins (hstep : Step platform reducers w e w')
    (hbegins : e.begins owner generation) :
    (w.db.runGeneration owner).getD 0 < generation ∧
      w'.db.runGeneration owner = some generation := by
  obtain ⟨hop, reply, hok, hgeneration⟩ := hbegins
  have hran := hstep.ran_ok hok
  rw [hop] at hran
  obtain ⟨state, hrun, rfl⟩ := bind_pure_ok.mp hran
  obtain ⟨hnew, hstored, -⟩ := beginMessageSyncRun_generation owner w.db state _ hrun
  obtain rfl : state.runGeneration = generation := Option.some.inj hgeneration
  exact ⟨by omega, hstored⟩

/--
Once a newer run of the owner has begun, no receive call of an older one is accepted.
Between two resets the accepted pages of an owner form a chain in one epoch, along which
the stored sequence does not decrease.  The stored position changes only by a page that
continues the chain or by a reset.
-/
theorem receive_cursor_chain {w₀ v v' : World δ} {history : List (Event δ)}
    (hrun : Run (Step platform reducers) w₀ history v) (hstep : Step platform reducers v e v')
    (owner : String) :
    (∀ before begun middle newer after generation generation',
      history = before ++ begun :: (middle ++ newer :: after) → begun.begins owner generation →
      newer.begins owner generation' →
      e.op.expectedGeneration = some (owner, some generation) →
      ∀ reply, e.outcome ≠ .ok reply) ∧
    (∀ before between, history = before ++ between → (∀ f ∈ between, ¬ f.resets owner) →
      ∃ u, Run (Step platform reducers) w₀ before u ∧
        ((between.filterMap (·.page owner)).IsChain fun page next =>
          next.streamEpoch = page.streamEpoch ∧ next.expectedScanSeq = page.nextScanSeq) ∧
        ∀ epoch seq, u.db.position owner = some (epoch, seq) →
          ∃ seq', v.db.position owner = some (epoch, seq') ∧
            Decimal.value seq ≤ Decimal.value seq') ∧
    (v'.db.position owner ≠ v.db.position owner → ¬ e.resets owner →
      ∃ page, e.page owner = some page ∧
        CursorStep (v.db.position owner) page (v'.db.position owner)) := by
  refine ⟨?_, ?_, ?_⟩
  · rintro before begun middle newer after generation generation' rfl hbegun hnewer hreceives
      reply hok
    obtain ⟨x, x', -, hfirst, hrest⟩ := hrun.around
    obtain ⟨y, y', hmiddle, hsecond, hafter⟩ := hrest.around
    have hstored := (runGeneration_begins hfirst hbegun).2
    obtain ⟨hbelow, hlater⟩ := runGeneration_begins hsecond hnewer
    have hle := runGeneration_run owner hmiddle
    have hle' := runGeneration_run owner hafter
    have hcurrent := Operation.runGeneration_of_receive (hstep.ran_ok hok) hreceives
    rw [hstored, Option.getD_some] at hle
    rw [hlater, hcurrent, Option.getD_some, Option.getD_some] at hle'
    omega
  · rintro before between rfl hresets
    obtain ⟨u, hbefore, hbetween⟩ := Run.append_iff.mp hrun
    have hpages := position_run hbetween hresets
    exact ⟨u, hbefore, pages_chained hpages,
      fun epoch seq hposition => position_monotone hpages hposition⟩
  · intro hchanged hresets
    have hpages := position_step hstep hresets
    cases hpage : e.page owner with
    | none =>
      rw [hpage] at hpages
      exact absurd (Run.nil_iff.mp hpages).symm hchanged
    | some page =>
      rw [hpage] at hpages
      exact ⟨page, rfl, Run.single_iff.mp hpages⟩

end Cursor

/-! Two runs of one owner, and a page of the first of them. -/

namespace Sample

def pageOf (generation : Int) (expected next : String) : Operation Unit :=
  .receiveOrdinary { page expected next [] with expectedRunGeneration := some generation }

def twoRuns : List (Int × Operation Unit) :=
  [ (100, .beginMessageSyncRun "alice"), (101, pageOf 1 "0" "1"),
    (102, .beginMessageSyncRun "alice"), (103, pageOf 2 "1" "2") ]

def superseded : World Unit :=
  (world ()).calls platform reducers twoRuns

def stalePage : Event Unit :=
  .ofCall platform reducers superseded 104 (pageOf 1 "2" "3")

/-- The page of the first run is refused, and the pages before it are chained. -/
theorem stale_page_refused : (∀ reply, stalePage.outcome ≠ .ok reply) ∧
    superseded.db.position "alice" = some ("1", "2") := by
  have hpermits : (world ()).permitsAll platform reducers twoRuns = true ∧
      superseded.permits 104 (pageOf 1 "2" "3") = true := by decide +kernel
  have hend : superseded.db.position "alice" = some ("1", "2") := by decide +kernel
  refine ⟨?_, hend⟩
  obtain ⟨hstale, -, -⟩ := receive_cursor_chain (run_of_calls hpermits.1)
    (.of_permits hpermits.2) "alice"
  refine hstale [] _ [_] _ [_] 1 2 rfl (Event.begins_of_reply rfl ?_)
    (Event.begins_of_reply rfl ?_) rfl
  · decide +kernel
  · decide +kernel

end Sample

end LocalState
end Awiki

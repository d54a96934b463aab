import Awiki.OperationFrames

/-!
# The receive position across a bootstrap

A bootstrap installs the cursor and the lanes of the server.  `retain_bootstrap_receive_position`
puts the received position in their place, but only for a newer device authorization of an
otherwise unchanged binding, and only for the lanes that were negotiated under the stored
authorization.  In every other case the position of the header is installed, even in an
unchanged epoch.
-/

namespace Awiki
namespace LocalState

open Tx Rows

variable {δ : Type} {s t : Db δ} {input retained : BootstrapApplyInput} {owner : String}
  {received : List LaneSyncState} {row : LaneSyncState}

structure BootstrapApplyInput.Renews (input : BootstrapApplyInput) (db : Db δ)
    (binding : IdentityAccountBinding) (previous : MessageSyncState) : Prop where
  binding_eq : db.identityAccountBinding input.binding.ownerIdentityId = some binding
  previous_eq : db.messageSyncStateRow input.binding.ownerIdentityId = some previous
  same : ¬ input.IsForeign binding previous
  newer : Decimal.order previous.deviceAuthGeneration input.binding.deviceAuthGeneration = .lt

def keptLane (received : List LaneSyncState) (lane : LaneSyncState) : LaneSyncState :=
  match received.find? fun current =>
    current.lane == lane.lane && current.streamEpoch == lane.streamEpoch with
  | none => lane
  | some current => if Decimal.order current.scanSeq lane.scanSeq = .gt then current else lane

theorem retainLanePositions_ok {lanes kept : List LaneSyncState}
    (h : retainLanePositions received lanes = .ok kept) : kept = lanes.map (keptLane received) := by
  induction lanes generalizing kept with
  | nil =>
    cases h
    rfl
  | cons lane lanes ih =>
    have hcons : ∀ {first : LaneSyncState}, (do
        let kept ← Except.ok first
        let rest ← retainLanePositions received lanes
        Except.ok (kept :: rest)) = Except.ok kept →
        kept = first :: lanes.map (keptLane received) := by
      intro first h
      obtain ⟨_, ⟨⟩, h⟩ := except_bind_ok.mp h
      obtain ⟨rest, hrest, h⟩ := except_bind_ok.mp h
      cases h
      rw [ih hrest]
    rw [retainLanePositions] at h
    rw [List.map_cons, keptLane]
    cases hfind : received.find? fun current =>
        current.lane == lane.lane && current.streamEpoch == lane.streamEpoch with
    | none =>
      rw [hfind] at h
      exact hcons h
    | some current =>
      rw [hfind] at h
      obtain ⟨order, horder, h⟩ := except_bind_ok.mp h
      dsimp only
      rw [(compareDecimal_ok.mp horder).2.2]
      by_cases hgt : order = .gt
      · rw [if_pos hgt] at h ⊢
        exact hcons h
      · rw [if_neg hgt] at h ⊢
        exact hcons h

/-- What `retain_bootstrap_receive_position` makes of the header. -/
inductive Retains (input : BootstrapApplyInput) (db : Db δ) : BootstrapApplyInput → Prop where
  | header (h : ∀ binding previous, ¬ input.Renews db binding previous) : Retains input db input
  | received {binding : IdentityAccountBinding} {previous : MessageSyncState}
      {received : List LaneSyncState} (h : input.Renews db binding previous)
      (hload : (loadLaneSyncStates input.binding.ownerIdentityId).run db = .ok received db) :
      Retains input db { input with
        state := if previous.streamEpoch = input.state.streamEpoch then
          { input.state with scanSeq := previous.scanSeq } else input.state
        laneStates := input.laneStates.map (keptLane received) }

theorem retainBootstrapReceivePosition_ok
    (h : (retainBootstrapReceivePosition input).run s = .ok retained t) :
    Retains input s retained := by
  obtain ⟨binding, hbinding, h⟩ := query_bind_ok.mp h
  obtain ⟨previous, hprevious, h⟩ := query_bind_ok.mp h
  have hother : ∀ b p, input.Renews s b p → binding = some b ∧ previous = some p := by
    intro b p hrenews
    exact ⟨hbinding.symm.trans hrenews.binding_eq, hprevious.symm.trans hrenews.previous_eq⟩
  match binding, previous with
  | none, _ =>
    obtain ⟨rfl, rfl⟩ := pure_ok.mp h
    exact .header fun b p hrenews => by cases (hother b p hrenews).1
  | some _, none =>
    obtain ⟨rfl, rfl⟩ := pure_ok.mp h
    exact .header fun b p hrenews => by cases (hother b p hrenews).2
  | some binding, some previous =>
    dsimp only at h
    split at h
    · rename_i hchanged
      obtain ⟨rfl, rfl⟩ := pure_ok.mp h
      refine .header fun b p hrenews => ?_
      obtain ⟨⟨⟩, ⟨⟩⟩ := hother b p hrenews
      exact hrenews.same hchanged
    rename_i hsame
    obtain ⟨order, hcompare, h⟩ := attempt_bind_ok.mp h
    have horder := (compareDecimal_ok.mp hcompare).2.2
    split at h
    · rename_i hnewer
      obtain ⟨rfl, rfl⟩ := pure_ok.mp h
      refine .header fun b p hrenews => ?_
      obtain ⟨⟨⟩, ⟨⟩⟩ := hother b p hrenews
      exact hnewer (horder.symm.trans hrenews.newer)
    rename_i hnewer
    obtain ⟨received, u, hload, hlast⟩ := bind_ok.mp h
    obtain rfl : u = s := loadLaneSyncStates_keeps (f := id) _ _ _ _ hload
    obtain ⟨lanes, hlanes, hpure⟩ := attempt_bind_ok.mp hlast
    obtain ⟨rfl, rfl⟩ := pure_ok.mp hpure
    rw [retainLanePositions_ok hlanes]
    exact .received ⟨hbinding, hprevious, hsame, horder.trans (not_not.mp hnewer)⟩ hload

/-! ## The tables after a bootstrap -/

def LaneSyncState.isLane (owner : String) (lane : SyncLane) (row : LaneSyncState) : Bool :=
  row.ownerIdentityId == owner && row.lane == lane

def Db.laneRow (db : Db δ) (owner : String) (lane : SyncLane) : Option LaneSyncState :=
  db.laneSyncState.find? (LaneSyncState.isLane owner lane)

def putLane (rows : List LaneSyncState) (state : LaneSyncState) : List LaneSyncState :=
  upsertWhere (LaneSyncState.isLane state.ownerIdentityId state.lane) state (fun _ => state) rows

section

variable {states : List LaneSyncState}

theorem checkLaneSyncStates_ok {seen : List SyncLane}
    (h : checkLaneSyncStates owner seen states = .ok ()) :
    (∀ state ∈ states, state.ownerIdentityId = owner ∧ state.lane ∉ seen ∧
      Decimal.order state.committedSeq state.scanSeq ≠ .gt) ∧
    (states.map (·.lane)).Nodup := by
  induction states generalizing seen with
  | nil => simp
  | cons state states ih =>
    obtain ⟨_, hvalid, h⟩ := except_bind_ok.mp h
    split at h
    · cases h
    split at h
    · cases h
    rename_i howner hfresh
    obtain ⟨hall, hnodup⟩ := ih h
    replace hvalid := except_then hvalid
    obtain ⟨order, horder, hvalid⟩ := except_bind_ok.mp hvalid
    have horder := (compareDecimal_ok.mp horder).2.2
    split at hvalid
    · cases hvalid
    rename_i hgt
    constructor
    · rw [List.forall_mem_cons]
      refine ⟨⟨not_not.mp howner, hfresh, horder ▸ hgt⟩, fun other hother => ?_⟩
      obtain ⟨hown, hseen, hle⟩ := hall other hother
      exact ⟨hown, fun hmem => hseen (List.mem_cons_of_mem _ hmem), hle⟩
    · rw [List.map_cons, List.nodup_cons]
      refine ⟨fun hmem => ?_, hnodup⟩
      obtain ⟨other, hother, heq⟩ := List.mem_map.mp hmem
      exact (hall other hother).2.1 (heq ▸ List.mem_cons_self)

theorem replaceLaneSyncStates_ok (h : (replaceLaneSyncStates owner states).run s = .ok () t) :
    checkLaneSyncStates owner [] states = .ok () ∧
      t.laneSyncState = states.foldl putLane s.laneSyncState := by
  obtain ⟨_, -, h⟩ := attempt_bind_ok.mp h
  obtain ⟨_, -, h⟩ := query_bind_ok.mp h
  obtain ⟨_, -, h⟩ := orError_bind_ok.mp h
  obtain ⟨_, hcheck, h⟩ := attempt_bind_ok.mp h
  obtain ⟨_, u, hloop, h⟩ := bind_ok.mp h
  obtain rfl := execute_ok.mp h
  refine ⟨hcheck, ?_⟩
  rw [forEach_execute_ok.mp hloop]
  exact (List.foldl_hom (fun db : Db δ => db.laneSyncState) (by exact fun _ _ => rfl)).symm

theorem find?_putLane
    (hunique : UniqueKey (fun state => (state.ownerIdentityId, state.lane)) states)
    (owner : String) (lane : SyncLane) (rows : List LaneSyncState) :
    (states.foldl putLane rows).find? (LaneSyncState.isLane owner lane) =
      (states.find? (LaneSyncState.isLane owner lane)).or
        (rows.find? (LaneSyncState.isLane owner lane)) := by
  induction states generalizing rows with
  | nil => simp
  | cons state states ih =>
    obtain ⟨hfresh, hunique⟩ := List.nodup_cons.mp hunique
    rw [List.foldl_cons, ih hunique]
    by_cases hstate : LaneSyncState.isLane owner lane state = true
    · obtain ⟨rfl, rfl⟩ : state.ownerIdentityId = owner ∧ state.lane = lane := by
        simpa [LaneSyncState.isLane] using hstate
      have hnone :
          states.find? (LaneSyncState.isLane state.ownerIdentityId state.lane) = none := by
        rw [List.find?_eq_none]
        intro other hother heq
        refine hfresh (List.mem_map.mpr ⟨other, hother, ?_⟩)
        simpa [LaneSyncState.isLane] using heq
      have hput : (putLane rows state).find?
          (LaneSyncState.isLane state.ownerIdentityId state.lane) =
            some ((rows.find? (LaneSyncState.isLane state.ownerIdentityId state.lane)).elim state
              fun _ => state) :=
        find?_upsertWhere_key hstate (fun _ _ => hstate) rows
      rw [hnone, hput, List.find?_cons_of_pos hstate]
      cases rows.find? (LaneSyncState.isLane state.ownerIdentityId state.lane) <;> rfl
    · have hother : ∀ row : LaneSyncState,
          LaneSyncState.isLane state.ownerIdentityId state.lane row = true →
            LaneSyncState.isLane owner lane row = false := by
        intro row hrow
        obtain ⟨howner, hlane⟩ : row.ownerIdentityId = state.ownerIdentityId ∧
          row.lane = state.lane := by simpa [LaneSyncState.isLane] using hrow
        simpa [LaneSyncState.isLane, howner, hlane] using hstate
      have hput : (putLane rows state).find? (LaneSyncState.isLane owner lane) =
          rows.find? (LaneSyncState.isLane owner lane) :=
        find?_upsertWhere_of_ne hother (by simpa using hstate)
          (fun _ _ => by simpa using hstate) rows
      rw [hput, List.find?_cons_of_neg hstate]

end

theorem applyBootstrap_tables (h : (applyBootstrap input).run s = .ok () t) :
    checkLaneSyncStates input.binding.ownerIdentityId [] input.laneStates = .ok () ∧
      t.laneSyncState = input.laneStates.foldl putLane s.laneSyncState ∧
      t.messageSyncState = upsertWhere
        (fun row => row.ownerIdentityId == input.state.ownerIdentityId) input.state
        (fun _ => input.state) s.messageSyncState := by
  obtain ⟨_, u, hbinding, h⟩ := bind_ok.mp h
  have hfirst : (u.laneSyncState, u.messageSyncState) = (s.laneSyncState, s.messageSyncState) :=
    upsertIdentityAccountBinding_keeps (f := fun db => (db.laneSyncState, db.messageSyncState))
      (fun _ _ => rfl) (fun _ _ => rfl) _ _ _ _ hbinding
  obtain ⟨hfirstLanes, hfirstCursor⟩ := Prod.mk.inj hfirst
  obtain ⟨_, v, hreplace, h⟩ := bind_ok.mp h
  obtain ⟨hcheck, hlanes⟩ := replaceLaneSyncStates_ok hreplace
  have hcursor : v.messageSyncState = u.messageSyncState :=
    replaceLaneSyncStates_keeps (f := fun db => db.messageSyncState)
      ⟨fun _ _ => rfl, fun _ _ => rfl, fun _ _ => rfl, fun _ _ => rfl, fun _ _ => rfl,
        fun _ _ => rfl, fun _ _ => rfl⟩ _ _ _ _ _ hreplace
  obtain ⟨_, w, hrecord, h⟩ := bind_ok.mp h
  have hsecond : (w.laneSyncState, w.messageSyncState) = (v.laneSyncState, v.messageSyncState) :=
    recordSyncLaneCapabilityNegotiation_keeps
      (f := fun db => (db.laneSyncState, db.messageSyncState)) (fun _ _ => rfl) _ _ _ _ _ _ _
      hrecord
  obtain ⟨hsecondLanes, hsecondCursor⟩ := Prod.mk.inj hsecond
  obtain ⟨_, x, hupsert, h⟩ := bind_ok.mp h
  obtain ⟨_, -, hupsert⟩ := query_bind_ok.mp hupsert
  obtain ⟨-, hupsert⟩ := refuseIf_bind_ok.mp hupsert
  obtain rfl := execute_ok.mp hupsert
  obtain rfl := execute_ok.mp h
  refine ⟨hcheck, ?_, ?_⟩
  · rw [← hfirstLanes]
    exact hsecondLanes.trans hlanes
  · rw [← hfirstCursor, ← hcursor, ← hsecondCursor]

theorem receiveBootstrap_tables {platform : Platform} {baseline : Baseline} {generation now : Int}
    {draw : Nat} {result : ReceiveOutcome × MessageSyncState}
    (h : (receiveBootstrap platform input baseline generation draw now).run s = .ok result t) :
    ∃ retained, Retains input s retained ∧
      checkLaneSyncStates retained.binding.ownerIdentityId [] retained.laneStates = .ok () ∧
      t.laneSyncState = retained.laneStates.foldl putLane s.laneSyncState ∧
      t.messageSyncState = upsertWhere
        (fun row => row.ownerIdentityId == retained.state.ownerIdentityId) retained.state
        (fun _ => retained.state) s.messageSyncState := by
  rcases immediate_ok.mp h with hcommit | ⟨-, _, hrollback⟩
  · obtain ⟨_, u, hfence, hchecked⟩ := bind_ok.mp hcommit
    obtain rfl : u = s := requireMessageSyncRunGeneration_keeps (f := id) _ _ _ _ _ hfence
    obtain ⟨-, hbody⟩ := refuseIf_bind_ok.mp hchecked
    obtain ⟨retained, v, hretain, hbody⟩ := bind_ok.mp hbody
    have hv : v = u := retainBootstrapReceivePosition_keeps (f := id) _ _ _ _ hretain
    obtain ⟨_, w, happly, hbody⟩ := bind_ok.mp hbody
    obtain ⟨_, hbaseline, -⟩ := bind_pure_ok.mp hbody
    have hframe : (t.laneSyncState, t.messageSyncState) = (w.laneSyncState, w.messageSyncState) :=
      insertBaselineAndEvents_keeps (f := fun db => (db.laneSyncState, db.messageSyncState))
        ⟨fun _ _ => rfl, fun _ _ => rfl, fun _ _ => rfl, fun _ _ _ => rfl⟩ _ _ _ _ _ _ _ _ _ _
        hbaseline
    obtain ⟨hframeLanes, hframeCursor⟩ := Prod.mk.inj hframe
    obtain ⟨hcheck, hlanes, hcursor⟩ := applyBootstrap_tables happly
    rw [hv] at hlanes hcursor
    exact ⟨retained, retainBootstrapReceivePosition_ok hretain, hcheck,
      hframeLanes.trans hlanes, hframeCursor.trans hcursor⟩
  · simp only [bind_ok, pure_ok, reduceCtorEq, false_and, and_false, exists_false] at hrollback

/-! ## Positions that do not move back -/

/-- In an unchanged stream the stored cursor stands in relation `R` to the new one. -/
def KeepsCursor (R : String → String → Prop) (s t : Db δ) : Prop :=
  ∀ owner previous next, s.messageSyncStateRow owner = some previous →
    t.messageSyncStateRow owner = some next → next.streamEpoch = previous.streamEpoch →
      R previous.scanSeq next.scanSeq

def KeepsLanes (s t : Db δ) : Prop :=
  ∀ owner lane previous next, s.laneRow owner lane = some previous →
    t.laneRow owner lane = some next → next.streamEpoch = previous.streamEpoch →
      (Decimal.order previous.scanSeq next.scanSeq).isLE = true

/-- The retained cursor of the header's stream, or else that of the header, fits the stored one. -/
def BootstrapApplyInput.CursorFits (R : String → String → Prop) (input : BootstrapApplyInput)
    (db : Db δ) : Prop :=
  ∀ previous, db.messageSyncStateRow input.state.ownerIdentityId = some previous →
    input.state.streamEpoch = previous.streamEpoch →
      (∃ binding received, input.Renews db binding received ∧
        received.streamEpoch = input.state.streamEpoch ∧
        R previous.scanSeq received.scanSeq) ∨
      (∀ binding received, input.Renews db binding received →
        received.streamEpoch ≠ input.state.streamEpoch) ∧ R previous.scanSeq input.state.scanSeq

/-- The bootstrap renews, and `load_lane_sync_states` returns the row. -/
def BootstrapApplyInput.Receives (input : BootstrapApplyInput) (db : Db δ) (row : LaneSyncState) :
    Prop :=
  (∃ binding previous, input.Renews db binding previous) ∧
    ∃ received, (loadLaneSyncStates input.binding.ownerIdentityId).run db = .ok received db ∧
      row ∈ received

def BootstrapApplyInput.LanesFit (input : BootstrapApplyInput) (db : Db δ) : Prop :=
  ∀ lane ∈ input.laneStates, ∀ previous,
    db.laneRow input.binding.ownerIdentityId lane.lane = some previous →
      lane.streamEpoch = previous.streamEpoch →
        input.Receives db previous ∨ (Decimal.order previous.scanSeq lane.scanSeq).isLE = true

theorem keptLane_key (received : List LaneSyncState) (lane : LaneSyncState) :
    (keptLane received lane).lane = lane.lane ∧
      (keptLane received lane).streamEpoch = lane.streamEpoch := by
  unfold keptLane
  split
  · exact ⟨rfl, rfl⟩
  · rename_i current hsome
    split
    · simpa using List.find?_some hsome
    · exact ⟨rfl, rfl⟩

theorem loadLaneSyncStates_mem (h : (loadLaneSyncStates owner).run s = .ok received t)
    (hrow : row ∈ received) : row ∈ s.laneSyncState ∧ row.ownerIdentityId = owner := by
  obtain ⟨_, -, h⟩ := attempt_bind_ok.mp h
  obtain ⟨_, -, h⟩ := query_bind_ok.mp h
  obtain ⟨binding, -, h⟩ := orError_bind_ok.mp h
  obtain ⟨negotiated, u, hnegotiated, hload⟩ := bind_ok.mp h
  obtain rfl : u = s := loadNegotiatedLanes_keeps (f := id) _ _ _ _ hnegotiated
  obtain ⟨states, v, hstates, hlast⟩ := bind_ok.mp hload
  obtain ⟨_, -, hstates⟩ := attempt_bind_ok.mp hstates
  obtain ⟨_, -, hstates⟩ := query_bind_ok.mp hstates
  obtain ⟨-, hstates⟩ := refuseIf_bind_ok.mp hstates
  obtain ⟨_, hrows, hstates⟩ := query_bind_ok.mp hstates
  obtain ⟨_, -, hstates⟩ := attempt_bind_ok.mp hstates
  obtain ⟨hpure, -⟩ := pure_ok.mp hstates
  have hin : row ∈ states := by
    cases negotiated with
    | none => exact (pure_ok.mp hlast).1 ▸ hrow
    | some lanes => exact List.mem_of_mem_filter ((pure_ok.mp hlast).1 ▸ hrow)
  rw [← hpure, ← hrows, Db.laneSyncStates, List.mem_append] at hin
  rcases hin with hin | hin
  · exact by simpa using List.mem_of_mem_filter hin
  · exact by simpa using List.mem_of_mem_filter hin

/-- The position kept for a lane is not behind its stored row exactly when that row was received
or the header is not behind it. -/
theorem keptLane_le {lane previous : LaneSyncState}
    (hunique : UniqueKey (fun state => (state.ownerIdentityId, state.lane)) s.laneSyncState)
    (hreceived : ∀ row ∈ received, row ∈ s.laneSyncState ∧ row.ownerIdentityId = owner)
    (hprevious : s.laneRow owner lane.lane = some previous)
    (hepoch : lane.streamEpoch = previous.streamEpoch) :
    (Decimal.order previous.scanSeq (keptLane received lane).scanSeq).isLE = true ↔
      previous ∈ received ∨ (Decimal.order previous.scanSeq lane.scanSeq).isLE = true := by
  have hmem := List.mem_of_find?_eq_some hprevious
  obtain ⟨howner, hlane⟩ : previous.ownerIdentityId = owner ∧ previous.lane = lane.lane := by
    simpa [LaneSyncState.isLane] using List.find?_some hprevious
  unfold keptLane
  split
  · rename_i hnone
    have habsent : previous ∉ received := by
      intro hin
      have := List.find?_eq_none.mp hnone previous hin
      simp [hlane, hepoch] at this
    simp [habsent]
  · rename_i current hsome
    have hin := List.mem_of_find?_eq_some hsome
    obtain ⟨hcurrentLane, -⟩ : current.lane = lane.lane ∧ _ := by
      simpa using List.find?_some hsome
    obtain rfl : current = previous := by
      obtain ⟨hcurrent, hcurrentOwner⟩ := hreceived current hin
      apply hunique.eq_of_key_eq hcurrent hmem
      rw [hcurrentOwner, howner, hcurrentLane, hlane]
    refine iff_of_true ?_ (.inl hin)
    split
    · rw [Decimal.order_self]
      rfl
    · rename_i hgt
      rwa [Ordering.isLE_iff_ne_gt]

section

variable (h : Retains input s retained)

include h

theorem Retains.binding_eq : retained.binding = input.binding := by
  cases h with
  | header h => rfl
  | received h hload => rfl

theorem Retains.lanes :
    ∃ received, retained.laneStates = input.laneStates.map (keptLane received) ∧
      (∀ row ∈ received, row ∈ s.laneSyncState ∧
        row.ownerIdentityId = input.binding.ownerIdentityId) ∧
      ∀ row, row ∈ received ↔ input.Receives s row := by
  cases h with
  | header h =>
    refine ⟨[], (List.map_id _).symm, List.forall_mem_nil _, fun row => ?_⟩
    refine iff_of_false List.not_mem_nil ?_
    rintro ⟨⟨binding, previous, hrenews⟩, -⟩
    exact h binding previous hrenews
  | @received binding previous received h hload =>
    refine ⟨received, rfl, fun row hrow => loadLaneSyncStates_mem hload hrow, fun row => ?_⟩
    constructor
    · exact fun hrow => ⟨⟨binding, previous, h⟩, received, hload, hrow⟩
    · rintro ⟨-, others, hothers, hrow⟩
      cases hload.symm.trans hothers
      exact hrow

theorem Retains.cursor_key :
    retained.state.ownerIdentityId = input.state.ownerIdentityId ∧
      retained.state.streamEpoch = input.state.streamEpoch := by
  cases h with
  | header h => exact ⟨rfl, rfl⟩
  | received h hload =>
    dsimp only
    split
    · exact ⟨rfl, rfl⟩
    · exact ⟨rfl, rfl⟩

theorem Retains.cursor (P : String → Prop) :
    P retained.state.scanSeq ↔
      (∃ binding received, input.Renews s binding received ∧
        received.streamEpoch = input.state.streamEpoch ∧ P received.scanSeq) ∨
      (∀ binding received, input.Renews s binding received →
        received.streamEpoch ≠ input.state.streamEpoch) ∧ P input.state.scanSeq := by
  cases h with
  | header h => simp [h]
  | @received binding previous received h hload =>
    have hother : ∀ b p, input.Renews s b p → b = binding ∧ p = previous := by
      intro b p hrenews
      cases h.binding_eq.symm.trans hrenews.binding_eq
      cases h.previous_eq.symm.trans hrenews.previous_eq
      exact ⟨rfl, rfl⟩
    dsimp only
    split
    · rename_i hepoch
      constructor
      · exact fun hP => .inl ⟨binding, previous, h, hepoch, hP⟩
      · rintro (⟨b, p, hrenews, -, hP⟩ | ⟨hnone, -⟩)
        · obtain ⟨-, rfl⟩ := hother b p hrenews
          exact hP
        · exact absurd hepoch (hnone binding previous h)
    · rename_i hepoch
      constructor
      · refine fun hP => .inr ⟨fun b p hrenews => ?_, hP⟩
        obtain ⟨-, rfl⟩ := hother b p hrenews
        exact hepoch
      · rintro (⟨b, p, hrenews, hsame, -⟩ | ⟨-, hP⟩)
        · obtain ⟨-, rfl⟩ := hother b p hrenews
          exact absurd hsame hepoch
        · exact hP

theorem Retains.cursor_fits {R : String → String → Prop} (hR : ∀ scanSeq, R scanSeq scanSeq)
    (ht : t.messageSyncState = upsertWhere
      (fun row => row.ownerIdentityId == retained.state.ownerIdentityId) retained.state
      (fun _ => retained.state) s.messageSyncState) : KeepsCursor R s t ↔ input.CursorFits R s := by
  obtain ⟨hkey, hepoch⟩ := h.cursor_key
  rw [hkey] at ht
  have hnext : t.messageSyncStateRow input.state.ownerIdentityId = some retained.state := by
    unfold Db.messageSyncStateRow
    rw [ht, find?_upsertWhere_key (by exact beq_iff_eq.mpr hkey)
      (by exact fun _ _ => beq_iff_eq.mpr hkey)]
    cases s.messageSyncState.find? _ <;> rfl
  constructor
  · intro hkeeps previous hprevious hsame
    have hfits := hkeeps _ previous retained.state hprevious hnext (hepoch.trans hsame)
    exact (h.cursor (R previous.scanSeq)).mp hfits
  · intro hfits owner previous next hprevious hstored hsame
    by_cases hown : owner = input.state.ownerIdentityId
    · subst hown
      cases hnext.symm.trans hstored
      exact (h.cursor (R previous.scanSeq)).mpr
        (hfits previous hprevious (hepoch.symm.trans hsame))
    · have hframe : t.messageSyncStateRow owner = s.messageSyncStateRow owner := by
        unfold Db.messageSyncStateRow
        rw [ht]
        have hne : (retained.state.ownerIdentityId == owner) = false := by
          rw [hkey]
          simpa using Ne.symm hown
        apply find?_upsertWhere_of_ne
        · intro row hrow
          rw [beq_iff_eq.mp hrow, ← hkey]
          exact hne
        · exact hne
        · exact fun _ _ => hne
      rw [hframe, hprevious] at hstored
      cases hstored
      exact hR _

theorem Retains.lanes_fit
    (hunique : UniqueKey (fun state => (state.ownerIdentityId, state.lane)) s.laneSyncState)
    (hcheck : checkLaneSyncStates retained.binding.ownerIdentityId [] retained.laneStates = .ok ())
    (ht : t.laneSyncState = retained.laneStates.foldl putLane s.laneSyncState) :
    KeepsLanes s t ↔ input.LanesFit s := by
  obtain ⟨received, hlanes, hreceived, hmem⟩ := h.lanes
  obtain ⟨hall, hnodup⟩ := checkLaneSyncStates_ok hcheck
  rw [h.binding_eq] at hall
  have hkeys :
      UniqueKey (fun state => (state.ownerIdentityId, state.lane)) retained.laneStates := by
    apply List.Nodup.of_map Prod.snd
    rw [List.map_map]
    exact hnodup
  have hrow : ∀ owner lane, t.laneRow owner lane =
      (retained.laneStates.find? (LaneSyncState.isLane owner lane)).or (s.laneRow owner lane) := by
    intro owner lane
    rw [Db.laneRow, ht]
    exact find?_putLane hkeys owner lane _
  constructor
  · intro hkeeps lane hlane previous hprevious hepoch
    have hkept : keptLane received lane ∈ retained.laneStates :=
      hlanes ▸ List.mem_map_of_mem hlane
    obtain ⟨hkeptLane, hkeptEpoch⟩ := keptLane_key received lane
    have hfind : retained.laneStates.find?
        (LaneSyncState.isLane input.binding.ownerIdentityId lane.lane) =
          some (keptLane received lane) := by
      apply hkeys.find?_eq_some hkept
      · simp [LaneSyncState.isLane, hkeptLane, (hall _ hkept).1]
      · intro other hother hsame
        simp [LaneSyncState.isLane] at hsame
        rw [hsame.1, hsame.2, hkeptLane, (hall _ hkept).1]
    have hle := hkeeps _ lane.lane previous _ hprevious ((hrow _ _).trans (by rw [hfind]; rfl))
      (hkeptEpoch.trans hepoch)
    rw [keptLane_le hunique hreceived hprevious hepoch, hmem] at hle
    exact hle
  · intro hfit owner lane previous next hprevious hnext hepoch
    rw [hrow] at hnext
    cases hfind : retained.laneStates.find? (LaneSyncState.isLane owner lane) with
    | none =>
      rw [hfind, Option.none_or, hprevious] at hnext
      cases hnext
      rw [Decimal.order_self]
      rfl
    | some kept =>
      rw [hfind, Option.some_or] at hnext
      cases hnext
      have hin := List.mem_of_find?_eq_some hfind
      obtain ⟨rfl, rfl⟩ : next.ownerIdentityId = owner ∧ next.lane = lane := by
        simpa [LaneSyncState.isLane] using List.find?_some hfind
      have howner := (hall _ hin).1
      rw [hlanes] at hin
      obtain ⟨lane, hlane, rfl⟩ := List.mem_map.mp hin
      obtain ⟨hkeptLane, hkeptEpoch⟩ := keptLane_key received lane
      rw [howner, hkeptLane] at hprevious
      rw [hkeptEpoch] at hepoch
      rw [keptLane_le hunique hreceived hprevious hepoch, hmem]
      exact hfit lane hlane previous hprevious hepoch

end

theorem mem_foldl_putLane {states rows : List LaneSyncState} (h : row ∈ states.foldl putLane rows) :
    row ∈ states ∨ row ∈ rows := by
  induction states generalizing rows with
  | nil => exact .inr h
  | cons state states ih =>
    rcases ih h with hrow | hrow
    · exact .inl (List.mem_cons_of_mem _ hrow)
    · rcases mem_upsertWhere hrow with rfl | ⟨hold, -⟩ | ⟨-, -, -, rfl⟩
      · exact .inl List.mem_cons_self
      · exact .inr hold
      · exact .inl List.mem_cons_self

/-- A bootstrap moves no position of an unchanged stream back, and installs the cursor of the
server in a changed stream only, exactly when the header fits; committed watermarks stay below the
scan positions in every case. -/
theorem receiveBootstrap_keeps_positions {platform : Platform} {baseline : Baseline}
    {generation now : Int} {draw : Nat} {result : ReceiveOutcome × MessageSyncState}
    (hunique : UniqueKey (fun state => (state.ownerIdentityId, state.lane)) s.laneSyncState)
    (hcommitted : ∀ row ∈ s.laneSyncState, Decimal.order row.committedSeq row.scanSeq ≠ .gt)
    (hrun : (receiveBootstrap platform input baseline generation draw now).run s = .ok result t) :
    (KeepsCursor (fun a b => (Decimal.order a b).isLE = true) s t ↔
      input.CursorFits (fun a b => (Decimal.order a b).isLE = true) s) ∧
    (KeepsCursor Eq s t ↔ input.CursorFits Eq s) ∧
    (KeepsLanes s t ↔ input.LanesFit s) ∧
    ∀ row ∈ t.laneSyncState, Decimal.order row.committedSeq row.scanSeq ≠ .gt := by
  obtain ⟨retained, hretains, hcheck, hlanes, hcursor⟩ := receiveBootstrap_tables hrun
  refine ⟨hretains.cursor_fits (fun scanSeq => ?_) hcursor,
    hretains.cursor_fits (fun _ => rfl) hcursor,
    hretains.lanes_fit hunique hcheck hlanes, fun row hrow => ?_⟩
  · rw [Decimal.order_self]
    rfl
  · rw [hlanes] at hrow
    rcases mem_foldl_putLane hrow with hrow | hrow
    · exact ((checkLaneSyncStates_ok hcheck).1 row hrow).2.2
    · exact hcommitted row hrow

namespace RenewalSample

open Sample

def lane (scanSeq : String) : LaneSyncState where
  ownerIdentityId := "alice"
  lane := .p5Device
  streamEpoch := "1"
  scanSeq := scanSeq
  committedSeq := "0"

def capabilities : JsonText := .parsed (.arr [.str "lanes.p5_device.v1"])

/-- The binding has the new authorization already, the lanes were negotiated under the old one. -/
def stored : Db Unit := { database () with
  identityAccountBindings := [{ binding with deviceAuthGeneration := "2" }]
  messageSyncRunState := [{ ownerIdentityId := "alice", syncPending := false, runGeneration := 1,
                            nextRetryAt := none, lastResultJson := none, updatedAt := 0 }]
  messageSyncState := [{ cursor with scanSeq := "9" }]
  laneSyncState := [lane "9"]
  syncLaneCapabilityState := [{ ownerIdentityId := "alice", negotiatedDeviceAuthGeneration := "1",
                                clientInstanceId := some "client",
                                negotiatedCapabilities := some capabilities }] }

def header (scanSeq : String) : BootstrapApplyInput where
  binding := { binding with deviceAuthGeneration := "2" }
  state := { cursor with deviceAuthGeneration := "2", scanSeq := scanSeq }
  clientInstanceId := "client"
  negotiatedCapabilities := capabilities
  groupCount := 0
  readStateCount := 0
  laneStates := [lane scanSeq]

def baseline : Baseline where
  serverTime := "2026-01-01T00:00:00Z"
  serverCutoff := none
  groups := []
  readStates := []
  messageIds := []
  notificationIds := []

def bootstrap (scanSeq : String) : LocalM Unit (ReceiveOutcome × MessageSyncState) :=
  receiveBootstrap platform (header scanSeq) baseline 1 0 0

def laneAfter (scanSeq : String) : Option (String × String) :=
  match (bootstrap scanSeq).run stored with
  | .ok _ t => (t.laneRow "alice" .p5Device).map fun row => (row.streamEpoch, row.scanSeq)
  | .error _ _ => none

theorem exists_run {scanSeq : String} {position : String × String}
    (h : laneAfter scanSeq = some position) :
    ∃ result t, (bootstrap scanSeq).run stored = .ok result t ∧
      (t.laneRow "alice" .p5Device).map (fun row => (row.streamEpoch, row.scanSeq)) =
        some position := by
  unfold laneAfter at h
  split at h
  · exact ⟨_, _, by assumption, h⟩
  · cases h

theorem later_header_keeps_lanes :
    ∃ result t, (bootstrap "12").run stored = .ok result t ∧ KeepsLanes stored t := by
  obtain ⟨result, t, hrun, -⟩ :=
    exists_run (show laneAfter "12" = some ("1", "12") by decide +kernel)
  have hunique : UniqueKey (fun state => (state.ownerIdentityId, state.lane))
    stored.laneSyncState := List.nodup_singleton _
  have hfits : (header "12").LanesFit stored := by
    intro row hrow previous hprevious _
    cases List.mem_singleton.mp hrow
    cases hprevious
    exact .inr (by decide)
  exact ⟨result, t, hrun,
    (receiveBootstrap_keeps_positions hunique (by decide) hrun).2.2.1.mpr hfits⟩

/-- The lane of an unchanged epoch goes back from nine to five. -/
theorem lane_moved_back :
    (stored.laneRow "alice" .p5Device).map (fun row => (row.streamEpoch, row.scanSeq)) =
      some ("1", "9") ∧
    ∃ result t, (bootstrap "5").run stored = .ok result t ∧
      (t.laneRow "alice" .p5Device).map (fun row => (row.streamEpoch, row.scanSeq)) =
        some ("1", "5") :=
  ⟨by decide, exists_run (by decide +kernel)⟩

end RenewalSample

end LocalState
end Awiki

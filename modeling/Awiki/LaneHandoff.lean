import Awiki.LaneCompletion
import Awiki.OperationFrames
import Awiki.ReceivedEvents

/-!
# Redelivery on the secure lanes

`commit_sync_lane_handoff` recognises an input that was delivered before by its row in the
inbox.  The row is gone once the input is completed, and the cursor check comes after the
lookup, so a redelivery is a duplicate only while the row is queued and the cursor has not
moved past it.
-/

namespace Awiki
namespace LocalState

open Tx

variable {δ : Type} {platform : Platform} {reducers : DomainReducers δ} {now : Int}

/-! ## Deliveries -/

namespace SyncLaneHandoffInput

def cursor (input : SyncLaneHandoffInput) : LaneSyncState where
  ownerIdentityId := input.ownerIdentityId
  lane := input.lane
  streamEpoch := input.laneEpoch
  scanSeq := input.position
  committedSeq := input.position

structure SameLane (first input : SyncLaneHandoffInput) : Prop where
  owner : first.ownerIdentityId = input.ownerIdentityId
  lane : first.lane = input.lane
  epoch : first.laneEpoch = input.laneEpoch

structure SameInput (first input : SyncLaneHandoffInput) : Prop extends first.SameLane input where
  eventId : first.eventId = input.eventId
  position : first.position = input.position
  eventType : first.eventType = input.eventType
  rawPayload : first.rawPayload = input.rawPayload

/-- The event comes with another payload or position, or the position with another event. -/
structure Contradicts (first input : SyncLaneHandoffInput) : Prop extends
    first.SameLane input where
  differs : first.eventId = input.eventId ∧
      (first.rawPayload ≠ input.rawPayload ∨ first.position ≠ input.position) ∨
    first.position = input.position ∧ first.eventId ≠ input.eventId

end SyncLaneHandoffInput

def HandedOver (history : List (Event δ)) (input : SyncLaneHandoffInput) : Prop :=
  ∃ event ∈ history, event.op = .commitSyncLaneHandoff input ∧ event.outcome.isOk = true

/-! ## What a hand-over depends on -/

structure Db.Authorizes (platform : Platform) (db : Db δ) (input : SyncLaneHandoffInput) :
    Prop where
  valid : validateSyncLaneHandoffInput input = .ok ()
  size : (platform.jsonText input.rawPayload).utf8ByteSize ≤ syncLaneInputMaxBytes
  bound : (validateSyncLaneHandoffBinding input).run db = .ok () db

def Db.laneState (db : Db δ) (owner : String) (lane : SyncLane) : Option LaneSyncState :=
  (db.laneSyncStates owner).find? fun state => state.lane == lane

def Db.queuedEvent (db : Db δ) (input : SyncLaneHandoffInput) : Option InboxRow :=
  db.syncLaneInbox.find? fun row =>
    row.isEvent input.ownerIdentityId (.secure input.lane) input.laneEpoch input.eventId

def Db.positionTaken (db : Db δ) (input : SyncLaneHandoffInput) : Bool :=
  db.syncLaneInbox.any fun row =>
    row.isAt input.ownerIdentityId (.secure input.lane) input.laneEpoch input.position

def InboxRow.Repeats (row : InboxRow) (input : SyncLaneHandoffInput) : Prop :=
  row.position = input.position ∧ row.eventType = input.eventType ∧
    row.rawPayload = input.rawPayload

structure Db.LaneIn (db : Db δ) (input : SyncLaneHandoffInput) (state : LaneSyncState) : Prop where
  valid : validateAll ((db.laneSyncStates input.ownerIdentityId).map validateLaneSyncState) = .ok ()
  found : db.laneState input.ownerIdentityId input.lane = some state
  epoch : state.streamEpoch = input.laneEpoch

def Db.CursorAdmits (db : Db δ) (input : SyncLaneHandoffInput) : Prop :=
  ∃ state, db.LaneIn input state ∧ Decimal.order input.position state.scanSeq ≠ .lt ∧
    Decimal.order input.position state.committedSeq ≠ .lt

def Db.CursorAt (db : Db δ) (input : SyncLaneHandoffInput) : Prop :=
  ∃ state, db.LaneIn input state ∧ state.scanSeq = input.position ∧
    state.committedSeq = input.position

def Db.QueueAdmits (db : Db δ) (input : SyncLaneHandoffInput) : Prop :=
  (∃ row, db.queuedEvent input = some row ∧ row.Repeats input) ∨
    db.queuedEvent input = none ∧ db.positionTaken input = false

structure Db.TextsStorable (platform : Platform) (db : Db δ) (input : SyncLaneHandoffInput) :
    Prop where
  payload : platform.jsonText input.rawPayload ≠ ""
  id : sqlBlank (stableInputId platform input.ownerIdentityId (.secure input.lane) input.laneEpoch
    input.eventId) = false
  unused : ∀ row ∈ db.syncLaneInbox,
    row.inputId = stableInputId platform input.ownerIdentityId (.secure input.lane)
      input.laneEpoch input.eventId →
    row.isEvent input.ownerIdentityId (.secure input.lane) input.laneEpoch input.eventId = true

/-! ## The cursor -/

/-- The states of the lanes after `advance_lane_sync_state_in_transaction`. -/
def LaneSyncState.advancedTo (next row : LaneSyncState) : LaneSyncState :=
  if row.ownerIdentityId == next.ownerIdentityId && row.lane == next.lane &&
      row.streamEpoch == next.streamEpoch then
    { row with scanSeq := next.scanSeq, committedSeq := next.committedSeq }
  else row

theorem advancedTo_owner (next row : LaneSyncState) :
    (next.advancedTo row).ownerIdentityId = row.ownerIdentityId := by
  unfold LaneSyncState.advancedTo
  split <;> rfl

theorem advancedTo_lane (next row : LaneSyncState) : (next.advancedTo row).lane = row.lane := by
  unfold LaneSyncState.advancedTo
  split <;> rfl

variable {s t : Db δ} {state : LaneSyncState} {input : SyncLaneHandoffInput} {value : String}
  {α : Type} {a : α} {u : Db δ} {outcome : SyncLaneHandoffOutcome}

theorem laneState_advanced {next : LaneSyncState}
    (h : t.laneSyncState = s.laneSyncState.map next.advancedTo) (owner : String) (lane : SyncLane) :
    t.laneState owner lane = (s.laneState owner lane).map next.advancedTo := by
  have hstates : t.laneSyncStates owner = (s.laneSyncStates owner).map next.advancedTo := by
    simp only [Db.laneSyncStates, h, List.filter_map, List.map_append, Function.comp_def,
      advancedTo_owner, advancedTo_lane]
  rw [Db.laneState, hstates, List.find?_map, Db.laneState]
  simp only [Function.comp_def, advancedTo_lane]

theorem laneState_keys {owner : String} {lane : SyncLane}
    (h : s.laneState owner lane = some state) :
    state.ownerIdentityId = owner ∧ state.lane = lane := by
  have hlane := List.find?_some h
  have hmem := List.mem_of_find?_eq_some h
  simp only [Db.laneSyncStates, List.mem_append, List.mem_filter, beq_iff_eq] at hmem
  constructor
  · rcases hmem with hmem | hmem
    · exact hmem.1.2
    · exact hmem.1.2
  · exact eq_of_beq hlane

theorem advancedTo_cursor (h : s.LaneIn input state) :
    input.cursor.advancedTo state = input.cursor := by
  obtain ⟨howner, hlane⟩ := laneState_keys h.found
  have hepoch := h.epoch
  obtain ⟨owner, lane, epoch, scan, committed⟩ := state
  dsimp only at howner hlane hepoch
  subst howner hlane hepoch
  simp [LaneSyncState.advancedTo, SyncLaneHandoffInput.cursor]

theorem advancedTo_cursor_eq_self_iff (h : s.LaneIn input state) :
    input.cursor.advancedTo state = state ↔
      state.scanSeq = input.position ∧ state.committedSeq = input.position := by
  rw [advancedTo_cursor h]
  obtain ⟨howner, hlane⟩ := laneState_keys h.found
  have hepoch := h.epoch
  obtain ⟨owner, lane, epoch, scan, committed⟩ := state
  dsimp only at howner hlane hepoch
  subst howner hlane hepoch
  simp [SyncLaneHandoffInput.cursor, eq_comm]

/-! ## Valid inputs -/

theorem sqlBlank_of_not_isBlank {text : String} (h : Text.isBlank text = false) :
    sqlBlank text = false := by
  rw [← Bool.not_eq_true] at h ⊢
  intro hspaces
  apply h
  simp only [sqlBlank, Text.isBlank, List.all_eq_true, beq_iff_eq] at hspaces ⊢
  intro c hc
  rw [hspaces c hc]
  decide

theorem sqlBlank_of_required {field : String} (h : validateRequired field value = .ok ()) :
    sqlBlank value = false := by
  unfold validateRequired at h
  split at h
  · cases h
  · rename_i hcheck
    simp only [Bool.or_eq_true, not_or, Bool.not_eq_true] at hcheck
    exact sqlBlank_of_not_isBlank hcheck.1

theorem validates_iff {condition : Prop} [Decidable condition] {error : ImError} :
    (if condition then Except.ok () else .error error) = .ok () ↔ condition := by
  split <;> simp_all

theorem validatePositiveDecimal_ok {field : String} :
    validatePositiveDecimal field value = .ok () ↔ isPositiveDecimalColumn value = true := by
  unfold validatePositiveDecimal
  simp only [except_bind_ok, isPositiveDecimalColumn, Bool.and_eq_true, bne_iff_ne]
  constructor
  · rintro ⟨_, hdecimal, hzero⟩
    exact ⟨validateDecimal_ok.mp hdecimal, by simpa using hzero⟩
  · rintro ⟨hdecimal, hzero⟩
    exact ⟨(), validateDecimal_ok.mpr hdecimal, if_neg hzero⟩

structure SyncLaneHandoffInput.Valid (input : SyncLaneHandoffInput) : Prop where
  owner : validateRequired "owner_identity_id" input.ownerIdentityId = .ok ()
  eventId : sqlBlank input.eventId = false
  receivedAt : sqlBlank input.receivedAt = false
  epoch : isPositiveDecimalColumn input.laneEpoch = true
  position : isPositiveDecimalColumn input.position = true
  payload : input.rawPayload.isObject = true

theorem valid_of_validate (h : validateSyncLaneHandoffInput input = .ok ()) : input.Valid := by
  have hchecks := validateAll_ok h
  simp only [List.forall_mem_cons] at hchecks
  obtain ⟨howner, -, -, -, -, hepoch, hposition, heventId, hreceivedAt, hpayload, -⟩ := hchecks
  refine ⟨howner, sqlBlank_of_required heventId, sqlBlank_of_required hreceivedAt,
    validatePositiveDecimal_ok.mp hepoch, validatePositiveDecimal_ok.mp hposition, ?_⟩
  exact validates_iff.mp hpayload

theorem laneShape_of_validate (h : validateSyncLaneHandoffInput input = .ok ()) {row : InboxInput}
    (hlane : row.lane = .secure input.lane) (htype : row.eventType = input.eventType)
    (hgroup : row.groupDid = input.groupDid) :
    laneShape row = true ∧ sqlBlank row.eventType = false := by
  have hchecks := validateAll_ok h
  simp only [List.forall_mem_cons] at hchecks
  obtain ⟨-, -, -, -, -, -, -, -, -, -, hshape, -⟩ := hchecks
  have hcheck := validates_iff.mp hshape
  rw [laneShape, hlane, htype, hgroup]
  cases hsync : input.lane with
  | p5Device =>
    rw [hsync] at hcheck
    simp only [Bool.and_eq_true, beq_iff_eq] at hcheck
    rw [hcheck.1]
    exact ⟨by simpa using hcheck.2, by decide⟩
  | p6Group =>
    rw [hsync] at hcheck
    simp only [Bool.and_eq_true, Bool.or_eq_true, beq_iff_eq] at hcheck
    obtain ⟨hname, hdid⟩ := hcheck
    cases hsome : input.groupDid with
    | none =>
      rw [hsome] at hdid
      cases hdid
    | some group =>
      rw [hsome] at hdid
      have hblank : sqlBlank group = false :=
        sqlBlank_of_not_isBlank (by simpa using hdid)
      rcases hname with hname | hname
      · rw [hname]
        exact ⟨by simp [hblank], by decide⟩
      · rw [hname]
        exact ⟨by simp [hblank], by decide⟩

theorem canonical_of_column (h : isPositiveDecimalColumn value = true) :
    Decimal.isCanonical value = true := by
  simp only [isPositiveDecimalColumn, Bool.and_eq_true] at h
  exact h.1

theorem validate_cursor (h : input.Valid) :
    validateLaneSyncState input.cursor = .ok () := by
  have hposition := canonical_of_column h.position
  have hscan : validateDecimal "scan_seq" input.position = .ok () := validateDecimal_ok.mpr hposition
  have hcommitted : validateDecimal "committed_seq" input.position = .ok () :=
    validateDecimal_ok.mpr hposition
  have hepoch : validatePositiveDecimal "stream_epoch" input.laneEpoch = .ok () :=
    validatePositiveDecimal_ok.mpr h.epoch
  have horder : compareDecimal input.position input.position = .ok .eq :=
    compareDecimal_ok.mpr ⟨hposition, hposition, Decimal.order_self _⟩
  simp only [validateLaneSyncState, SyncLaneHandoffInput.cursor, validateAll, h.owner, hepoch,
    hscan, hcommitted, horder]
  rfl

theorem canonical_of_validate (h : validateLaneSyncState state = .ok ()) :
    Decimal.isCanonical state.scanSeq = true ∧ Decimal.isCanonical state.committedSeq = true := by
  obtain ⟨_, hchecks, -⟩ := except_bind_ok.mp h
  have hchecks := validateAll_ok hchecks
  simp only [List.forall_mem_cons] at hchecks
  obtain ⟨-, -, hscan, hcommitted, -⟩ := hchecks
  exact ⟨validateDecimal_ok.mp hscan, validateDecimal_ok.mp hcommitted⟩

theorem Db.LaneIn.canonical (h : s.LaneIn input state) :
    Decimal.isCanonical state.scanSeq = true ∧ Decimal.isCanonical state.committedSeq = true := by
  apply canonical_of_validate
  apply validateAll_ok h.valid
  exact List.mem_map_of_mem (List.mem_of_find?_eq_some h.found)

/-! ## The steps of a hand-over -/

inductive Ends {α σ : Type} (s : σ) (a : α) (t : σ) : Ending α → σ → Prop where
  | commit : Ends s a t (.commit a) t
  | rollback {u : σ} : s = t → Ends s a t (.rollback a) u

theorem ending_of_immediate {body : LocalM δ (Ending α)} (h : (immediate body).run s = .ok a t) :
    ∃ ending u, body.run s = .ok ending u ∧ Ends s a t ending u := by
  rcases immediate_ok.mp h with hcommit | ⟨hsame, u, hrollback⟩
  · exact ⟨_, _, hcommit, .commit⟩
  · exact ⟨_, _, hrollback, .rollback hsame⟩

theorem Ends.of_commit {σ : Type} {s t u : σ} {b : α} (h : Ends s a t (.commit b) u) :
    a = b ∧ t = u := by
  cases h
  exact ⟨rfl, rfl⟩

def Db.advanced (db : Db δ) (next : LaneSyncState) : Db δ :=
  { db with laneSyncState := db.laneSyncState.map next.advancedTo }

theorem advanceLaneSyncState_ok_iff (hvalid : input.Valid)
    (hbound : (s.identityAccountBinding input.ownerIdentityId).isNone = false) :
    (advanceLaneSyncState input.cursor).run s = .ok () t ↔
      s.CursorAdmits input ∧ s.advanced input.cursor = t := by
  unfold advanceLaneSyncState loadAllLaneSyncStates
  simp only [bind_ok, attempt_ok, query_ok, refuseIf_ok, orError_ok, execute_ok, pure_ok]
  constructor
  · rintro ⟨_, _, ⟨-, rfl⟩, _, _, ⟨_, _, ⟨-, rfl⟩, _, _, ⟨rfl, rfl⟩, _, _, ⟨-, rfl⟩, _, _,
      ⟨rfl, rfl⟩, _, _, ⟨hstates, rfl⟩, rfl, rfl⟩, state, _, ⟨hfound, rfl⟩, _, _,
      ⟨hepoch, rfl⟩, scan, _, ⟨hscan, rfl⟩, committed, _, ⟨hcommitted, rfl⟩, _, _,
      ⟨horder, rfl⟩, rfl⟩
    obtain ⟨-, -, rfl⟩ := compareDecimal_ok.mp hscan
    obtain ⟨-, -, rfl⟩ := compareDecimal_ok.mp hcommitted
    simp only [Bool.or_eq_false_iff, beq_eq_false_iff_ne] at horder
    exact ⟨⟨state, ⟨hstates, hfound, by simpa [SyncLaneHandoffInput.cursor] using hepoch⟩, horder⟩, rfl⟩
  · rintro ⟨⟨state, hlane, hscan, hcommitted⟩, rfl⟩
    have hposition := canonical_of_column hvalid.position
    obtain ⟨hscanSeq, hcommittedSeq⟩ := hlane.canonical
    refine ⟨(), s, ⟨validate_cursor hvalid, rfl⟩, _, s, ⟨(), s, ⟨hvalid.owner, rfl⟩, _, s,
      ⟨rfl, rfl⟩, (), s, ⟨hbound, rfl⟩, _, s, ⟨rfl, rfl⟩, (), s, ⟨hlane.valid, rfl⟩, rfl, rfl⟩,
      state, s, ⟨hlane.found, rfl⟩, (), s, ⟨by simp [hlane.epoch, SyncLaneHandoffInput.cursor], rfl⟩,
      _, s, ⟨compareDecimal_ok.mpr ⟨hposition, hscanSeq, rfl⟩, rfl⟩,
      _, s, ⟨compareDecimal_ok.mpr ⟨hposition, hcommittedSeq, rfl⟩, rfl⟩, (), s, ⟨?_, rfl⟩, rfl⟩
    simp [SyncLaneHandoffInput.cursor, hscan, hcommitted]

def Db.handedOver (db : Db δ) (input : SyncLaneHandoffInput) (now : Int) : Db δ :=
  { db.advanced input.cursor with
    syncLaneTransportState := Rows.upsertWhere
      (fun row => row.ownerIdentityId == input.ownerIdentityId && row.lane == input.lane)
      { ownerIdentityId := input.ownerIdentityId, lane := input.lane, lastTransportError := none,
        updatedAt := now }
      (fun row => { row with lastTransportError := none, updatedAt := now })
      db.syncLaneTransportState }

theorem handOver_ok_iff (hvalid : input.Valid)
    (hbound : (s.identityAccountBinding input.ownerIdentityId).isNone = false) {b : α} :
    (do
      advanceLaneSyncState input.cursor
      clearLaneTransportError input.ownerIdentityId input.lane now
      pure a : LocalM δ α).run s = .ok b t ↔
      s.CursorAdmits input ∧ a = b ∧ s.handedOver input now = t := by
  simp only [bind_ok, clearLaneTransportError, execute_ok, pure_ok]
  constructor
  · rintro ⟨_, _, hadvance, _, _, rfl, rfl, rfl⟩
    obtain ⟨hadmits, rfl⟩ := (advanceLaneSyncState_ok_iff hvalid hbound).mp hadvance
    exact ⟨hadmits, rfl, rfl⟩
  · rintro ⟨hadmits, rfl, rfl⟩
    exact ⟨(), _, (advanceLaneSyncState_ok_iff hvalid hbound).mpr ⟨hadmits, rfl⟩, (), _, rfl, rfl, rfl⟩

theorem bound_of_authorizes (h : s.Authorizes platform input) :
    (s.identityAccountBinding input.ownerIdentityId).isNone = false := by
  obtain ⟨stored, rfl, h⟩ := query_bind_ok.mp h.bound
  obtain ⟨binding, _, hbinding, -⟩ := bind_ok.mp h
  rw [(orError_ok.mp hbinding).1]
  rfl

def Db.withRow (db : Db δ) (input : InboxInput) : Db δ :=
  { db with
    syncLaneInbox := db.syncLaneInbox ++ [.queued { input with rowid := db.nextRowid }] }

theorem insertInboxRow_ok_iff {input : InboxInput} :
    (insertInboxRow input).run s = .ok () t ↔
      inboxRowRefused s { input with rowid := s.nextRowid } = false ∧ s.withRow input = t := by
  simp only [insertInboxRow, bind_ok, query_ok, refuseIf_ok, execute_ok]
  constructor
  · rintro ⟨_, _, ⟨rfl, rfl⟩, _, _, ⟨rfl, rfl⟩, _, _, ⟨hok, rfl⟩, rfl⟩
    exact ⟨hok, rfl⟩
  · rintro ⟨hok, rfl⟩
    exact ⟨_, s, ⟨rfl, rfl⟩, _, s, ⟨rfl, rfl⟩, (), s, ⟨hok, rfl⟩, rfl⟩

theorem makeRoom_lanes (additional : Nat) :
    Keeps (makeRoom additional now : LocalM δ _) fun db =>
      (db.laneSyncState, db.identityAccountBindings) :=
  makeRoom_keeps ⟨fun _ _ => rfl, fun _ _ => rfl, fun _ _ => rfl, fun _ _ _ => rfl⟩ _ _

theorem cursorAdmits_congr (h : u.laneSyncState = s.laneSyncState) :
    u.CursorAdmits input ↔ s.CursorAdmits input := by
  have hstates : u.laneSyncStates input.ownerIdentityId = s.laneSyncStates input.ownerIdentityId := by
    rw [Db.laneSyncStates, h]
    rfl
  have hfound : u.laneState input.ownerIdentityId input.lane =
      s.laneState input.ownerIdentityId input.lane := by
    rw [Db.laneState, hstates]
    rfl
  constructor
  · rintro ⟨state, ⟨hvalid, hstate, hepoch⟩, horder⟩
    exact ⟨state, ⟨hstates ▸ hvalid, hfound ▸ hstate, hepoch⟩, horder⟩
  · rintro ⟨state, ⟨hvalid, hstate, hepoch⟩, horder⟩
    exact ⟨state, ⟨hstates ▸ hvalid, hfound ▸ hstate, hepoch⟩, horder⟩

theorem identityAccountBinding_congr (h : u.identityAccountBindings = s.identityAccountBindings)
    (owner : String) :
    u.identityAccountBinding owner = s.identityAccountBinding owner := by
  rw [Db.identityAccountBinding, h]
  rfl

structure Db.Enqueues (platform : Platform) (s : Db δ) (input : SyncLaneHandoffInput) (now : Int)
    (t : Db δ) : Prop where
  event : s.queuedEvent input = none
  position : s.positionTaken input = false
  stored : ∃ removed u, (makeRoom 1 now).run s = .ok removed u ∧
    inboxRowRefused u { handoffRow platform input now with rowid := u.nextRowid } = false ∧
    (u.withRow (handoffRow platform input now)).handedOver input now = t

theorem commitSyncLaneHandoff_ok_iff :
    (commitSyncLaneHandoff platform input now).run s = .ok outcome t ↔
      s.Authorizes platform input ∧ s.CursorAdmits input ∧
        (outcome = .duplicate ∧ (∃ row, s.queuedEvent input = some row ∧ row.Repeats input) ∧
            s.handedOver input now = t ∨
          outcome = .inserted ∧ s.Enqueues platform input now t) := by
  constructor
  · intro h
    obtain ⟨_, hvalid, hsized⟩ := attempt_bind_ok.mp h
    obtain ⟨hsize, htx⟩ := refuseIf_bind_ok.mp hsized
    obtain ⟨ending, u, hbody, hended⟩ := ending_of_immediate htx
    obtain ⟨_, v, hbinding, hlookup⟩ := bind_ok.mp hbody
    obtain rfl : v = s := validateSyncLaneHandoffBinding_keeps (f := id) input _ _ _ hbinding
    have hauthorized : v.Authorizes platform input := ⟨hvalid, by simpa using hsize, hbinding⟩
    have hbound := bound_of_authorizes hauthorized
    have hcolumns := valid_of_validate hvalid
    obtain ⟨existing, hexisting, hcases⟩ := query_bind_ok.mp hlookup
    cases existing with
    | some row =>
      obtain ⟨hsame, hfinish⟩ := refuseIf_bind_ok.mp hcases
      obtain ⟨hadmits, rfl, rfl⟩ := (handOver_ok_iff hcolumns hbound).mp hfinish
      obtain ⟨rfl, rfl⟩ := hended.of_commit
      refine ⟨hauthorized, hadmits, .inl ⟨rfl, ⟨row, hexisting, ?_⟩, rfl⟩⟩
      simpa [InboxRow.Repeats, and_assoc] using hsame
    | none =>
      obtain ⟨taken, _, hquery', hfree⟩ := bind_ok.mp hcases
      obtain ⟨htaken, rfl⟩ := query_ok.mp hquery'
      obtain ⟨huntaken, hmake⟩ := refuseIf_bind_ok.mp hfree
      obtain ⟨removed, w, hroom, hqueued⟩ := bind_ok.mp hmake
      obtain ⟨_, _, hinsert, hfinish⟩ := bind_ok.mp hqueued
      obtain ⟨haccepted, rfl⟩ := insertInboxRow_ok_iff.mp hinsert
      obtain ⟨hlanes, hbindings⟩ := Prod.ext_iff.mp (makeRoom_lanes _ _ _ _ hroom)
      have hbound' : (w.identityAccountBinding input.ownerIdentityId).isNone = false := by
        rw [identityAccountBinding_congr hbindings]
        exact hbound
      obtain ⟨hadmits, rfl, rfl⟩ := (handOver_ok_iff hcolumns (by exact hbound')).mp hfinish
      obtain ⟨rfl, rfl⟩ := hended.of_commit
      exact ⟨hauthorized, (cursorAdmits_congr (by exact hlanes)).mp hadmits,
        .inr ⟨rfl, hexisting, htaken.trans huntaken, removed, w, hroom, haccepted, rfl⟩⟩
  · rintro ⟨hauthorized, hadmits, hcases⟩
    have hbound := bound_of_authorizes hauthorized
    have hcolumns := valid_of_validate hauthorized.valid
    have hsize : decide ((platform.jsonText input.rawPayload).utf8ByteSize >
        syncLaneInputMaxBytes) = false := by simpa using hauthorized.size
    refine bind_ok.mpr ⟨(), s, attempt_ok.mpr ⟨hauthorized.valid, rfl⟩, bind_ok.mpr ⟨(), s,
      refuseIf_ok.mpr ⟨hsize, rfl⟩, immediate_ok.mpr (.inl (bind_ok.mpr ⟨(), s,
      hauthorized.bound, ?_⟩))⟩⟩
    rcases hcases with ⟨rfl, ⟨row, hrow, hsame⟩, rfl⟩ | ⟨rfl, hnew, htaken, removed, v, hroom,
      haccepted, rfl⟩
    · refine bind_ok.mpr ⟨some row, s, query_ok.mpr ⟨hrow, rfl⟩, bind_ok.mpr ⟨(), s,
        refuseIf_ok.mpr ⟨?_, rfl⟩, (handOver_ok_iff hcolumns hbound).mpr ⟨hadmits, rfl, rfl⟩⟩⟩
      obtain ⟨hposition, htype, hpayload⟩ := hsame
      simp [hposition, htype, hpayload]
    · obtain ⟨hlanes, hbindings⟩ := Prod.ext_iff.mp (makeRoom_lanes _ _ _ _ hroom)
      have hbound' : (v.identityAccountBinding input.ownerIdentityId).isNone = false := by
        rw [identityAccountBinding_congr hbindings]
        exact hbound
      exact bind_ok.mpr ⟨none, s, query_ok.mpr ⟨hnew, rfl⟩, bind_ok.mpr ⟨false, s,
        query_ok.mpr ⟨htaken, rfl⟩, bind_ok.mpr ⟨(), s, refuseIf_ok.mpr ⟨rfl, rfl⟩,
        bind_ok.mpr ⟨removed, v, hroom, bind_ok.mpr ⟨(), _,
        insertInboxRow_ok_iff.mpr ⟨haccepted, rfl⟩, (handOver_ok_iff hcolumns (by exact hbound')).mpr
          ⟨(cursorAdmits_congr (by exact hlanes)).mpr hadmits, rfl, rfl⟩⟩⟩⟩⟩⟩

/-! ## Outcomes -/

theorem deleteOldest_neverFails (cutoff : Option Int) (limit : Nat) :
    NeverFails (deleteOldest cutoff limit : LocalM δ _) :=
  .bind (.query _) fun _ => .bind (.forEach fun _ => .execute _) fun _ => .pure _

theorem makeRoom_one_ok (s : Db δ) : ∃ removed u, (makeRoom 1 now).run s = .ok removed u := by
  have hnever : NeverFails (makeRoom 1 now : LocalM δ _) := by
    refine .bind (NeverFails.pure ()) fun _ => .bind (deleteOldest_neverFails _ _) fun _ =>
      .bind (.query _) fun _ => ?_
    dsimp only
    split
    · exact .bind (deleteOldest_neverFails _ _) fun _ => .pure _
    · exact .pure _
  cases hrun : (makeRoom 1 now).run s with
  | ok removed u => exact ⟨removed, u, rfl⟩
  | error e u => exact absurd hrun (hnever s e u)

theorem inboxRow_accepted (hauthorized : s.Authorizes platform input)
    (htexts : s.TextsStorable platform input) (hevent : s.queuedEvent input = none)
    (hposition : s.positionTaken input = false) (hsub : u.syncLaneInbox ⊆ s.syncLaneInbox)
    (hbindings : u.identityAccountBindings = s.identityAccountBindings) :
    inboxRowRefused u { handoffRow platform input now with rowid := u.nextRowid } = false := by
  have hvalid := valid_of_validate hauthorized.valid
  obtain ⟨hshape, htype⟩ :
      laneShape { handoffRow platform input now with rowid := u.nextRowid } = true ∧
        sqlBlank (handoffRow platform input now).eventType = false :=
    laneShape_of_validate hauthorized.valid rfl rfl rfl
  have hbound : (u.identityAccountBinding input.ownerIdentityId).isNone = false := by
    rw [identityAccountBinding_congr hbindings]
    exact bound_of_authorizes hauthorized
  have hbytes : (platform.jsonText input.rawPayload).utf8ByteSize ≠ 0 := by
    simpa using htexts.payload
  have hlimit : (platform.jsonText input.rawPayload).utf8ByteSize ≤ 16777216 :=
    le_trans hauthorized.size (by decide)
  have hunused : ∀ row ∈ u.syncLaneInbox,
      row.inputId ≠ stableInputId platform input.ownerIdentityId (.secure input.lane)
        input.laneEpoch input.eventId ∧
      row.isEvent input.ownerIdentityId (.secure input.lane) input.laneEpoch input.eventId = false ∧
      row.isAt input.ownerIdentityId (.secure input.lane) input.laneEpoch input.position = false := by
    intro row hrow
    have hnew := List.find?_eq_none.mp hevent row (hsub hrow)
    refine ⟨?_, by simpa using hnew, ?_⟩
    · intro hid
      exact hnew (htexts.unused row (hsub hrow) hid)
    · simpa using List.any_eq_false.mp hposition row (hsub hrow)
  have hkeys : (u.syncLaneInbox.any fun other =>
      other.inputId == stableInputId platform input.ownerIdentityId (.secure input.lane)
          input.laneEpoch input.eventId ||
        other.isEvent input.ownerIdentityId (.secure input.lane) input.laneEpoch input.eventId ||
        other.isAt input.ownerIdentityId (.secure input.lane) input.laneEpoch input.position) =
      false := by
    rw [List.any_eq_false]
    intro row hrow
    obtain ⟨hid, hisEvent, hisAt⟩ := hunused row hrow
    simp [hid, hisEvent, hisAt]
  unfold inboxRowRefused
  simp only [Bool.or_eq_false_iff, Bool.not_eq_false', beq_eq_false_iff_ne, decide_eq_false_iff_not,
    Nat.not_lt]
  exact ⟨⟨⟨⟨⟨⟨⟨⟨⟨⟨⟨hkeys, htype⟩, hvalid.payload⟩, hbytes⟩, hlimit⟩, htexts.id⟩, hvalid.eventId⟩,
    hvalid.receivedAt⟩, hvalid.epoch⟩, hvalid.position⟩, hshape⟩, hbound⟩

/-! ## Whole runs -/

def Db.CursorPast (db : Db δ) (input : SyncLaneHandoffInput) : Prop :=
  ∀ state, db.laneState input.ownerIdentityId input.lane = some state →
    state.streamEpoch = input.laneEpoch →
    Decimal.value input.position ≤ Decimal.value state.scanSeq ∧
      Decimal.value input.position ≤ Decimal.value state.committedSeq

section

variable (h : (commitSyncLaneHandoff platform input now).run s = .ok outcome t)

include h

theorem handedOver_lanes : t.laneSyncState = s.laneSyncState.map input.cursor.advancedTo := by
  obtain ⟨-, -, ⟨-, -, rfl⟩ | ⟨-, -, -, removed, u, hroom, -, rfl⟩⟩ :=
    commitSyncLaneHandoff_ok_iff.mp h
  · rfl
  · have hlanes : u.laneSyncState = s.laneSyncState :=
      (Prod.ext_iff.mp (makeRoom_lanes _ _ _ _ hroom)).1
    rw [← hlanes]
    rfl

theorem laneState_handedOver :
    t.laneState input.ownerIdentityId input.lane = some input.cursor := by
  obtain ⟨-, ⟨state, hlane, -⟩, -⟩ := commitSyncLaneHandoff_ok_iff.mp h
  rw [laneState_advanced (handedOver_lanes h), hlane.found, Option.map_some,
    advancedTo_cursor hlane]

end

theorem value_le_of_admits {position current : String}
    (hposition : Decimal.isCanonical position = true) (hcurrent : Decimal.isCanonical current = true)
    (h : Decimal.order position current ≠ .lt) :
    Decimal.value current ≤ Decimal.value position := by
  rw [Ne, Decimal.order_lt_iff hposition hcurrent] at h
  omega

theorem cursorPast_handOver {next : SyncLaneHandoffInput} (hpast : s.CursorPast input)
    (h : (commitSyncLaneHandoff platform next now).run s = .ok outcome t) :
    t.CursorPast input := by
  intro state hstate hepoch
  obtain ⟨hauthorized, ⟨current, hlane, hscan, hcommitted⟩, -⟩ := commitSyncLaneHandoff_ok_iff.mp h
  have hposition := canonical_of_column (valid_of_validate hauthorized.valid).position
  rw [laneState_advanced (handedOver_lanes h)] at hstate
  obtain ⟨old, hold, rfl⟩ := Option.map_eq_some_iff.mp hstate
  unfold LaneSyncState.advancedTo at hepoch ⊢
  split at hepoch
  · rename_i hmoved
    rw [if_pos hmoved]
    simp only [SyncLaneHandoffInput.cursor, Bool.and_eq_true, beq_iff_eq] at hmoved
    obtain ⟨howner, hsame⟩ := laneState_keys hold
    -- the lane that moves is the one of the input
    obtain rfl : old = current := by
      have hfound := hlane.found
      rw [← hmoved.1.1, ← hmoved.1.2, howner, hsame, hold] at hfound
      exact Option.some_inj.mp hfound
    obtain ⟨hscanSeq, hcommittedSeq⟩ := hlane.canonical
    obtain ⟨hle, hle'⟩ := hpast old hold hepoch
    exact ⟨le_trans hle (value_le_of_admits hposition hscanSeq hscan),
      le_trans hle' (value_le_of_admits hposition hcommittedSeq hcommitted)⟩
  · rename_i hstays
    rw [if_neg hstays]
    exact hpast old hold hepoch

def Operation.isLaneTraffic : Operation δ → Bool
  | .commitSyncLaneHandoff _ => true
  | op => !op.isCursorCall && !op.isRunCall

theorem cursorPast_step {w w' : World δ} {event : Event δ}
    (htraffic : event.op.isLaneTraffic = true) (hpast : w.db.CursorPast input)
    (hstep : Step platform reducers w event w') : w'.db.CursorPast input := by
  cases houtcome : event.outcome with
  | error error =>
    rw [hstep.db_of_error houtcome]
    exact hpast
  | ok reply =>
    have hran := hstep.ran_ok houtcome
    by_cases hop : ∃ next, event.op = .commitSyncLaneHandoff next
    · obtain ⟨next, hnext⟩ := hop
      rw [hnext] at hran
      obtain ⟨outcome, hcommit, -⟩ := bind_pure_ok.mp hran
      exact cursorPast_handOver hpast hcommit
    · have hother : event.op.isCursorCall = false ∧ event.op.isRunCall = false := by
        unfold Operation.isLaneTraffic at htraffic
        split at htraffic
        · exact absurd ⟨_, by assumption⟩ hop
        · simpa using htraffic
      have hkeeps := Operation.keeps_of_not_cursorCall (f := fun db : Db δ => db.laneSyncState)
        ⟨fun _ _ => rfl, fun _ _ => rfl, fun _ _ => rfl, fun _ _ _ => rfl⟩ (fun _ _ => rfl)
        (fun _ _ => rfl) event.op hother.1 hother.2 _ _ _ hran
      have hlanes : ∀ owner lane, w'.db.laneState owner lane = w.db.laneState owner lane := by
        intro owner lane
        rw [Db.laneState, Db.laneSyncStates, show w'.db.laneSyncState = _ from hkeeps]
        rfl
      intro state hstate hepoch
      rw [hlanes] at hstate
      exact hpast state hstate hepoch

theorem cursorPast_of_handedOver {w₀ w : World δ} {history : List (Event δ)}
    (hrun : Run (Step platform reducers) w₀ history w)
    (htraffic : ∀ event ∈ history, event.op.isLaneTraffic = true) (h : HandedOver history input) :
    w.db.CursorPast input := by
  obtain ⟨event, hmem, hop, hok⟩ := h
  obtain ⟨before, after, rfl⟩ := List.append_of_mem hmem
  obtain ⟨v, v', -, hstep, hafter⟩ := Run.around hrun
  have hfirst : v'.db.CursorPast input := by
    cases houtcome : event.outcome with
    | error error =>
      rw [houtcome] at hok
      cases hok
    | ok reply =>
      have hran := hstep.ran_ok houtcome
      rw [hop] at hran
      obtain ⟨outcome, hcommit, -⟩ := bind_pure_ok.mp hran
      intro state hstate hepoch
      rw [laneState_handedOver hcommit, Option.some_inj] at hstate
      rw [← hstate]
      exact ⟨le_refl _, le_refl _⟩
  refine Run.invariant_of_mem (P := fun w : World δ => w.db.CursorPast input) hafter hfirst ?_
  intro s t e he hs hstep
  exact cursorPast_step (htraffic e (by simp [he])) hs hstep

/-! ## Redelivery -/

section Redelivery

variable {w₀ w : World δ} {history : List (Event δ)}

/-- The call does not change the lanes or the inbox and returns `Duplicate`. -/
def Redelivers (platform : Platform) (input : SyncLaneHandoffInput) (now : Int) (db : Db δ) : Prop :=
  ∃ t, (commitSyncLaneHandoff platform input now).run db = .ok .duplicate t ∧
    t.syncLaneInbox = db.syncLaneInbox ∧
    ∀ owner lane, t.laneState owner lane = db.laneState owner lane

variable {s : Db δ} {input : SyncLaneHandoffInput}

theorem cursorAt_of_past (hvalid : input.Valid) (hpast : s.CursorPast input)
    (hadmits : s.CursorAdmits input) : s.CursorAt input := by
  obtain ⟨state, hlane, hscan, hcommitted⟩ := hadmits
  obtain ⟨hscanSeq, hcommittedSeq⟩ := hlane.canonical
  obtain ⟨hle, hle'⟩ := hpast state hlane.found hlane.epoch
  have hposition := canonical_of_column hvalid.position
  have heq : ∀ current, Decimal.isCanonical current = true →
      Decimal.order input.position current ≠ .lt →
      Decimal.value input.position ≤ Decimal.value current → current = input.position := by
    intro current hcurrent hnot hbehind
    have hswap : Decimal.order current input.position ≠ .lt := by
      rw [Ne, Decimal.order_lt_iff hcurrent hposition]
      omega
    apply Eq.symm
    apply Decimal.order_eq_iff.mp
    rw [Decimal.order_swap] at hswap
    cases horder : Decimal.order input.position current with
    | lt => exact absurd horder hnot
    | eq => rfl
    | gt =>
      rw [horder] at hswap
      exact absurd rfl hswap
  exact ⟨state, hlane, heq _ hscanSeq hscan hle, heq _ hcommittedSeq hcommitted hle'⟩

theorem redelivers_of_cursorAt (hauthorized : s.Authorizes platform input)
    (hqueued : ∃ row, s.queuedEvent input = some row ∧ row.Repeats input)
    (hadmits : s.CursorAdmits input) (hat : s.CursorAt input) :
    Redelivers platform input now s := by
  have hrun : (commitSyncLaneHandoff platform input now).run s =
      .ok .duplicate (s.handedOver input now) :=
    commitSyncLaneHandoff_ok_iff.mpr ⟨hauthorized, hadmits, .inl ⟨rfl, hqueued, rfl⟩⟩
  refine ⟨_, hrun, rfl, ?_⟩
  intro owner lane
  obtain ⟨state, hlane, hscan, hcommitted⟩ := hat
  rw [laneState_advanced (handedOver_lanes hrun)]
  cases hfound : s.laneState owner lane with
  | none => rfl
  | some other =>
    rw [Option.map_some, Option.some_inj]
    by_cases hmoved : other.ownerIdentityId = input.ownerIdentityId ∧ other.lane = input.lane
    · obtain ⟨rfl, rfl⟩ := laneState_keys hfound
      rw [hmoved.1, hmoved.2, hlane.found, Option.some_inj] at hfound
      rw [← hfound]
      exact (advancedTo_cursor_eq_self_iff hlane).mpr ⟨hscan, hcommitted⟩
    · unfold LaneSyncState.advancedTo
      rw [if_neg]
      simp only [SyncLaneHandoffInput.cursor, Bool.and_eq_true, beq_iff_eq]
      intro h
      exact hmoved h.1

theorem cursorPast_of_same {first : SyncLaneHandoffInput} (hsame : first.SameInput input)
    (hpast : s.CursorPast first) : s.CursorPast input := by
  intro state hstate hepoch
  rw [← hsame.position]
  rw [← hsame.owner, ← hsame.lane] at hstate
  rw [← hsame.epoch] at hepoch
  exact hpast state hstate hepoch

theorem queueAdmits_of_ok {t : Db δ} {outcome : SyncLaneHandoffOutcome}
    (h : (commitSyncLaneHandoff platform input now).run s = .ok outcome t) :
    s.Authorizes platform input ∧ s.CursorAdmits input ∧ s.QueueAdmits input := by
  obtain ⟨hauthorized, hadmits, ⟨-, hqueued, -⟩ | ⟨-, henqueues⟩⟩ :=
    commitSyncLaneHandoff_ok_iff.mp h
  · exact ⟨hauthorized, hadmits, .inl hqueued⟩
  · exact ⟨hauthorized, hadmits, .inr ⟨henqueues.event, henqueues.position⟩⟩

theorem ok_of_queueAdmits (htexts : s.TextsStorable platform input)
    (hauthorized : s.Authorizes platform input) (hadmits : s.CursorAdmits input)
    (hqueue : s.QueueAdmits input) :
    ∃ outcome t, (commitSyncLaneHandoff platform input now).run s = .ok outcome t := by
  rcases hqueue with hqueued | ⟨hevent, hposition⟩
  · exact ⟨_, _, commitSyncLaneHandoff_ok_iff.mpr ⟨hauthorized, hadmits, .inl ⟨rfl, hqueued, rfl⟩⟩⟩
  · obtain ⟨removed, u, hroom⟩ : ∃ removed u, (makeRoom 1 now).run s = .ok removed u :=
      makeRoom_one_ok s
    have haccepted :
        inboxRowRefused u { handoffRow platform input now with rowid := u.nextRowid } = false :=
      inboxRow_accepted hauthorized htexts hevent hposition (makeRoom_ensures _ _ s removed u hroom)
        (Prod.ext_iff.mp (makeRoom_lanes _ _ _ _ hroom)).2
    exact ⟨_, _, commitSyncLaneHandoff_ok_iff.mpr ⟨hauthorized, hadmits,
      .inr ⟨rfl, hevent, hposition, removed, u, hroom, haccepted, rfl⟩⟩⟩

theorem commitSyncLaneHandoff_failsClean (input : SyncLaneHandoffInput) :
    FailsClean (commitSyncLaneHandoff platform input now : LocalM δ _) :=
  (ReadOnly.attempt _).bind_failsClean fun _ =>
    (ReadOnly.refuseIf _ _).bind_failsClean fun _ => immediate_failsClean _

/--
A hand-over moves the row and the cursor together or changes nothing.  An input that was
handed over before is redelivered as a duplicate exactly if its row is still queued and the
cursor has not moved past it; one that contradicts an earlier delivery is rejected exactly if
the call is not authorized, the cursor is past it or a queued row contradicts it.
-/
theorem lane_handoff_outcomes (hrun : Run (Step platform reducers) w₀ history w)
    (htraffic : ∀ event ∈ history, event.op.isLaneTraffic = true) (input : SyncLaneHandoffInput) :
    ((∀ error t, (commitSyncLaneHandoff platform input now).run w.db = .error error t →
        t = w.db) ∧
      (∀ t, (commitSyncLaneHandoff platform input now).run w.db = .ok .inserted t →
        w.db.queuedEvent input = none ∧
          t.laneState input.ownerIdentityId input.lane = some input.cursor ∧
          ∃ rowid, InboxRow.queued { handoffRow platform input now with rowid := rowid } ∈
            t.syncLaneInbox) ∧
      ∀ t, (commitSyncLaneHandoff platform input now).run w.db = .ok .duplicate t →
        (∃ row, w.db.queuedEvent input = some row ∧ row.Repeats input) ∧
          t.laneState input.ownerIdentityId input.lane = some input.cursor ∧
          t.syncLaneInbox = w.db.syncLaneInbox) ∧
    (∀ first, HandedOver history first → first.SameInput input →
      (Redelivers platform input now w.db ↔
        w.db.Authorizes platform input ∧ w.db.CursorAdmits input ∧
          ∃ row, w.db.queuedEvent input = some row ∧ row.Repeats input)) ∧
    ∀ first, HandedOver history first → first.Contradicts input →
      w.db.TextsStorable platform input →
      ((∃ error, (commitSyncLaneHandoff platform input now).run w.db = .error error w.db) ↔
        ¬ (w.db.Authorizes platform input ∧ w.db.CursorAdmits input ∧
          w.db.QueueAdmits input)) := by
  refine ⟨⟨?_, ?_, ?_⟩, ?_, ?_⟩
  · intro error t h
    exact commitSyncLaneHandoff_failsClean input _ _ _ h
  · intro t h
    have hlane := laneState_handedOver h
    obtain ⟨-, -, ⟨houtcome, -⟩ | ⟨-, henqueues⟩⟩ := commitSyncLaneHandoff_ok_iff.mp h
    · cases houtcome
    · obtain ⟨removed, u, -, -, rfl⟩ := henqueues.stored
      refine ⟨henqueues.event, hlane, u.nextRowid, ?_⟩
      exact List.mem_append_right _ (List.mem_singleton_self _)
  · intro t h
    have hlane := laneState_handedOver h
    obtain ⟨-, -, ⟨-, hqueued, rfl⟩ | ⟨houtcome, -⟩⟩ := commitSyncLaneHandoff_ok_iff.mp h
    · exact ⟨hqueued, hlane, rfl⟩
    · cases houtcome
  · intro first hfirst hsame
    constructor
    · rintro ⟨t, h, -⟩
      obtain ⟨hauthorized, hadmits, ⟨-, hqueued, -⟩ | ⟨houtcome, -⟩⟩ :=
        commitSyncLaneHandoff_ok_iff.mp h
      · exact ⟨hauthorized, hadmits, hqueued⟩
      · cases houtcome
    · rintro ⟨hauthorized, hadmits, hqueued⟩
      have hpast := cursorPast_of_same hsame (cursorPast_of_handedOver hrun htraffic hfirst)
      exact redelivers_of_cursorAt hauthorized hqueued hadmits
        (cursorAt_of_past (valid_of_validate hauthorized.valid) hpast hadmits)
  · intro first _ _ htexts
    constructor
    · rintro ⟨error, h⟩ ⟨hauthorized, hadmits, hqueue⟩
      obtain ⟨outcome, t, hok⟩ := ok_of_queueAdmits htexts hauthorized hadmits hqueue
      rw [hok] at h
      cases h
    · intro hnot
      cases hresult : (commitSyncLaneHandoff platform input now).run w.db with
      | ok outcome t => exact absurd (queueAdmits_of_ok hresult) hnot
      | error error t =>
        rw [commitSyncLaneHandoff_failsClean input _ _ _ hresult]
        exact ⟨error, rfl⟩

end Redelivery

namespace LaneSample

def handoffOutcome (db : Db Unit) (input : SyncLaneHandoffInput) : Option SyncLaneHandoffOutcome :=
  match (commitSyncLaneHandoff Sample.platform input 4).run db with
  | .ok outcome _ => some outcome
  | .error _ _ => none

theorem ok_of_handoffOutcome {db : Db Unit} {input : SyncLaneHandoffInput}
    {outcome : SyncLaneHandoffOutcome} (h : handoffOutcome db input = some outcome) :
    ∃ t, (commitSyncLaneHandoff Sample.platform input 4).run db = .ok outcome t := by
  unfold handoffOutcome at h
  split at h
  · cases h
    exact ⟨_, by assumption⟩
  · cases h

def handsOver (calls : List (Int × Operation Unit)) : Bool :=
  start.permitsAll Sample.platform Sample.reducers calls &&
    calls.all (fun call => call.2.isLaneTraffic) &&
    (Event.ofCall Sample.platform Sample.reducers start 1
      (.commitSyncLaneHandoff (delivery "a" "1" "7"))).outcome.isOk

def after (calls : List (Int × Operation Unit)) : List (Int × Operation Unit) :=
  (1, .commitSyncLaneHandoff (delivery "a" "1" "7")) :: calls

structure HandsOver (history : List (Event Unit)) (w : World Unit) : Prop where
  run : Run (Step Sample.platform Sample.reducers) start history w
  traffic : ∀ event ∈ history, event.op.isLaneTraffic = true
  handed : HandedOver history (delivery "a" "1" "7")

theorem handsOver_run {calls : List (Int × Operation Unit)} (h : handsOver (after calls) = true) :
    HandsOver (Event.ofCalls Sample.platform Sample.reducers start (after calls))
      (start.calls Sample.platform Sample.reducers (after calls)) := by
  simp only [handsOver, Bool.and_eq_true, List.all_eq_true] at h
  obtain ⟨⟨hpermits, htraffic⟩, hok⟩ := h
  refine ⟨run_of_calls hpermits, ?_, _, List.mem_cons_self, rfl, hok⟩
  intro event hevent
  have hop := List.mem_map_of_mem (f := fun event : Event Unit => event.op) hevent
  rw [ofCalls_op] at hop
  obtain ⟨call, hcall, hsame⟩ := List.mem_map.mp hop
  rw [← hsame]
  exact htraffic call hcall

def queueing : List (Int × Operation Unit) :=
  [(2, .commitSyncLaneHandoff (delivery "b" "2" "8"))]

def finishing : List (Int × Operation Unit) :=
  [ (2, .claimInputs Sample.binding 1 ["t"]), (3, .completeClaim (claim "a" "1" "7" "t")) ]

/-- Redelivered once the cursor is past it, the message is an error; redelivered once it is
completed, it is queued again, and so is the event with another payload. -/
theorem redelivery_not_recognised :
    (∃ history w, HandsOver history w ∧ w.db.syncLaneInbox.length = 2 ∧
      handoffOutcome w.db (delivery "a" "1" "7") = none) ∧
    ∃ history w, HandsOver history w ∧
      handoffOutcome w.db (delivery "a" "1" "7") = some .inserted ∧
      (delivery "a" "1" "7").Contradicts (delivery "a" "1" "8") ∧
      handoffOutcome w.db (delivery "a" "1" "8") = some .inserted := by
  have hqueueing : handsOver (after queueing) = true := by decide +kernel
  have hfinishing : handsOver (after finishing) = true := by decide +kernel
  refine ⟨⟨_, _, handsOver_run hqueueing, by decide +kernel, by decide +kernel⟩, _, _,
    handsOver_run hfinishing, by decide +kernel, ⟨⟨rfl, rfl, rfl⟩, .inl ⟨rfl, .inl ?_⟩⟩,
    by decide +kernel⟩
  decide +kernel

/-- Redelivered at once, it is a duplicate. -/
theorem redelivered_at_once :
    Redelivers Sample.platform (delivery "a" "1" "7") 4
      (start.calls Sample.platform Sample.reducers (after [])).db := by
  have hafter : handsOver (after []) = true := by decide +kernel
  obtain ⟨hrun, htraffic, hhanded⟩ := handsOver_run hafter
  have hduplicate : handoffOutcome (start.calls Sample.platform Sample.reducers (after [])).db
      (delivery "a" "1" "7") = some .duplicate := by decide +kernel
  obtain ⟨t, ht⟩ := ok_of_handoffOutcome hduplicate
  apply ((lane_handoff_outcomes hrun htraffic (delivery "a" "1" "7")).2.1 _ hhanded
    ⟨⟨rfl, rfl, rfl⟩, rfl, rfl, rfl, rfl⟩).mpr
  obtain ⟨hauthorized, hadmits, ⟨-, hqueued, -⟩ | ⟨houtcome, -⟩⟩ :=
    commitSyncLaneHandoff_ok_iff.mp ht
  · exact ⟨hauthorized, hadmits, hqueued⟩
  · cases houtcome

end LaneSample

end LocalState
end Awiki

import Awiki.ReadOutbox

/-!
# Interleavings of reads and their requests

Every call changes the outbox in one of a few ways: a mark joins or appends a row, a request
claims one, its end releases or fails it, and an acknowledgement commits the rows that it
reaches.  The laws of the outbox follow from this list of changes.
-/

namespace Awiki

namespace LocalState

open Rows Paging

variable {κ : Type} {f : LocalMutation → LocalMutation} {rows : List LocalMutation}
  {draw : OutboxDraw} {row : LocalMutation} {conversationId : Option String}
  {claimed : Option LocalMutation} {result' : MarkThreadReadResult} {p : LocalMutation → Bool}
  {status : MutationStatus} {aggregateId operationId : String} {next : LocalMutation}
  {watermark : String}

/-! ## Calls -/

inductive ReadEvent where
  | mark (draw : OutboxDraw) (owner ownerDid : String) (input : MarkThreadReadInput)
  | claimNext (owner : String) (now : Int)
  | claimOperation (owner operationId : String) (now : Int)
  | retry (owner mutationId errorCode : String) (retryAt : Int)
  | fail (owner mutationId errorCode : String) (failedAt : Int)
  | acknowledge (owner aggregateId : String) (conversationId : Option String) (seq : String)
      (now : Int)
  | recover (recoveredAt : Int)
  /-- Any call that leaves the outbox alone. -/
  | elsewhere

variable {history : List ReadEvent}

def ReadEvent.run (context : ReadContext κ) (db : ReadDb κ) :
    ReadEvent → Except ImError (ReadDb κ)
  | .mark draw owner ownerDid input =>
    (markThreadReadAndUpdateOutbox context db draw owner ownerDid input).map (·.2)
  | .claimNext owner now => (claimNextReadMutation db owner now).map (·.2)
  | .claimOperation owner operationId now =>
    (claimReadMutationByOperationId db owner operationId now).map (·.2)
  | .retry owner mutationId errorCode retryAt =>
    .ok (withReads db (retryLocalMutation db.others owner mutationId errorCode retryAt))
  | .fail owner mutationId errorCode failedAt =>
    (permanentlyFailLocalMutation db.others owner mutationId errorCode failedAt).map
      (withReads db)
  | .acknowledge owner aggregateId conversationId seq now =>
    (acknowledgeReadOutbox db.others owner aggregateId conversationId seq now).map
      (withReads db)
  | .recover recoveredAt => .ok (withReads db (recoverInterruptedWork db.others recoveredAt))
  | .elsewhere => .ok db

inductive ReadStep (context : ReadContext κ) (db : ReadDb κ) : ReadEvent → ReadDb κ → Prop
  | returned {event : ReadEvent} {db' : ReadDb κ} :
      event.run context db = .ok db' → ReadStep context db event db'
  | failed {event : ReadEvent} {error : ImError} :
      event.run context db = .error error → ReadStep context db event db
  | elsewhere {db' : ReadDb κ} :
      db'.others.outbox = db.others.outbox → ReadStep context db .elsewhere db'

structure Acknowledgement where
  owner : String
  aggregateId : String
  conversationId : Option String
  seq : String

def Acknowledgement.covers (acknowledged : Acknowledgement) (row : LocalMutation) : Bool :=
  row.isAddressed acknowledged.owner acknowledged.aggregateId acknowledged.conversationId &&
    row.watermark.any fun watermark => Decimal.order watermark acknowledged.seq != .gt

def ReadEvent.acknowledgement (context : ReadContext κ) (db : ReadDb κ) :
    ReadEvent → Option Acknowledgement
  | .acknowledge owner aggregateId conversationId seq _ =>
    some ⟨owner, aggregateId, conversationId, seq⟩
  | .mark _ owner ownerDid input =>
    match markThreadReadWatermark context db owner ownerDid input with
    | .error _ => none
    | .ok (result, marked) =>
      if input.pendingRemoteAck || !context.isBound marked.others.others owner then none
      else
        result.readWatermarkSeq.bind fun seq =>
          (remoteThreadKeyOf marked.others owner result).map fun key =>
            ⟨owner, key, some result.conversationId, input.readWatermarkSeq.getD seq⟩
  | _ => none

def ReadEvent.failure : ReadEvent → Option (String × String)
  | .fail owner mutationId _ _ => some (owner, mutationId)
  | _ => none

/-! ## Changes of the outbox -/

structure SameMutation (row row' : LocalMutation) : Prop where
  owner : row'.ownerIdentityId = row.ownerIdentityId
  mutation : row'.mutationId = row.mutationId
  operation : row'.operationId = row.operationId
  aggregate : row'.aggregateId = row.aggregateId
  watermark : row'.watermark = row.watermark

inductive OutboxChange (acknowledged : Option Acknowledgement)
    (failure : Option (String × String)) (rows : List LocalMutation) :
    List LocalMutation → Prop
  | keep : OutboxChange acknowledged failure rows rows
  | join (row : LocalMutation) (payload : JsonText) (seq : String) (now : Int) :
      row ∈ rows → row.isCoalescible = true →
      LocalMutation.watermark { row with payload := payload } = some seq →
      Decimal.isCanonical seq = true → Decimal.order seq (row.watermark.getD "0") = .gt →
      OutboxChange acknowledged failure rows
        (updateWhere (·.isRow row.ownerIdentityId row.mutationId)
          (fun old => { old with payload := payload, updatedAt := now }) rows)
  | queue (row : LocalMutation) (seq : String) :
      (∀ other ∈ rows, other.isOf row.ownerIdentityId row.aggregateId = true →
        other.isCoalescible = false) →
      row.status = .pending → row.watermark = some seq → Decimal.isCanonical seq = true →
      OutboxChange acknowledged failure rows (rows ++ [row])
  | claim (row : LocalMutation) (f : LocalMutation → LocalMutation) :
      row ∈ rows → row.isQueued = true → hasNoneInFlight rows row = true →
      (∀ old, (f old).key = old.key ∧ (f old).aggregateId = old.aggregateId) →
      (f row).status = .inFlight → SameMutation row (f row) →
      OutboxChange acknowledged failure rows
        (updateWhere (·.isRow row.ownerIdentityId row.mutationId) f rows)
  | release (p : LocalMutation → Bool) (f : LocalMutation → LocalMutation) :
      (∀ row, p row = true → row.status = .inFlight) →
      (∀ row, (f row).status = .retryable ∧ SameMutation row (f row)) →
      OutboxChange acknowledged failure rows (updateWhere p f rows)
  | fail (owner mutationId : String) (f : LocalMutation → LocalMutation) :
      failure = some (owner, mutationId) →
      (∀ row, (f row).status = .permanentFailure ∧ SameMutation row (f row)) →
      OutboxChange acknowledged failure rows
        (updateWhere (fun row => row.isRow owner mutationId && row.status == .inFlight) f rows)
  | commit (brought : Acknowledgement) (now : Int) :
      acknowledged = some brought →
      OutboxChange acknowledged failure rows (updateWhere brought.covers (·.commit now) rows)

theorem sameMutation_refl (row : LocalMutation) : SameMutation row row :=
  ⟨rfl, rfl, rfl, rfl, rfl⟩

/-! ### Acknowledgements -/

variable {row : LocalMutation} {seq : String}

theorem isReachedBy_ok {reached : Bool} (h : row.isReachedBy seq = .ok reached) :
    ∃ watermark, row.watermark = some watermark ∧
      reached = (Decimal.order watermark seq != .gt) := by
  unfold LocalMutation.isReachedBy at h
  simp only [Tx.except_bind_ok] at h
  obtain ⟨payload, hpayload, watermark, hwatermark, order, horder, h⟩ := h
  cases h
  obtain ⟨-, -, rfl⟩ := compareDecimal_ok.mp horder
  refine ⟨watermark, ?_, rfl⟩
  rw [LocalMutation.watermark, Tx.except_elim_ok.mp hpayload]
  exact Tx.except_elim_ok.mp hwatermark

theorem mem_reachedIds {ids : List String} (h : reachedIds seq rows = .ok ids) (id : String) :
    id ∈ ids ↔ ∃ row ∈ rows, row.mutationId = id ∧
      row.watermark.any (fun watermark => Decimal.order watermark seq != .gt) = true := by
  induction rows generalizing ids with
  | nil =>
    cases h
    simp
  | cons row rows ih =>
    unfold reachedIds at h
    obtain ⟨reached, hreached, h⟩ := Tx.except_bind_ok.mp h
    obtain ⟨rest, hrest, h⟩ := Tx.except_bind_ok.mp h
    cases h
    obtain ⟨watermark, hwatermark, rfl⟩ := isReachedBy_ok hreached
    have htail := ih hrest
    by_cases hcovered : (Decimal.order watermark seq != .gt) = true
    · have hfirst : (row.mutationId = id ∧
          row.watermark.any (fun watermark => Decimal.order watermark seq != .gt) = true) ↔
          id = row.mutationId := by
        rw [hwatermark]
        exact ⟨fun h => h.1.symm, fun h => ⟨h.symm, hcovered⟩⟩
      rw [if_pos hcovered, List.mem_cons, htail, List.exists_mem_cons_iff, hfirst]
    · have hfirst : ¬ (row.mutationId = id ∧
          row.watermark.any (fun watermark => Decimal.order watermark seq != .gt) = true) := by
        rw [hwatermark]
        exact fun h => hcovered h.2
      rw [if_neg hcovered, htail, List.exists_mem_cons_iff, or_iff_right hfirst]

theorem isAddressed_owner {owner : String}
    (h : row.isAddressed owner aggregateId conversationId = true) :
    row.ownerIdentityId = owner := by
  simp only [LocalMutation.isAddressed, Bool.and_eq_true, beq_iff_eq] at h
  exact h.1.1

theorem acknowledgeReadOutbox_ok {tables tables' : ReadTables κ} {owner : String} {now : Int}
    (h : acknowledgeReadOutbox tables owner aggregateId conversationId seq now = .ok tables') :
    tables' = tables.setOutbox (Acknowledgement.covers ⟨owner, aggregateId, conversationId, seq⟩)
      (·.commit now) fun _ => rfl := by
  unfold acknowledgeReadOutbox at h
  obtain ⟨ids, hids, h⟩ := Tx.except_bind_ok.mp h
  cases h
  have hrows : updateWhere (fun row => row.ownerIdentityId == owner &&
        ids.contains row.mutationId) (·.commit now) tables.outbox =
      updateWhere (Acknowledgement.covers ⟨owner, aggregateId, conversationId, seq⟩)
        (·.commit now) tables.outbox := by
    apply updateWhere_congr
    intro row hrow
    rw [Bool.eq_iff_iff, Bool.and_eq_true, beq_iff_eq, List.contains_iff_mem,
      mem_reachedIds hids, Acknowledgement.covers, Bool.and_eq_true]
    constructor
    · rintro ⟨howner, other, hother, hid, hreached⟩
      obtain ⟨hmem, haddressed⟩ := List.mem_filter.mp hother
      have hsame : other = row := tables.distinctMutations.eq_of_key_eq hmem hrow
        (by rw [LocalMutation.key, LocalMutation.key, isAddressed_owner haddressed, howner, hid])
      subst hsame
      exact ⟨haddressed, hreached⟩
    · rintro ⟨haddressed, hreached⟩
      exact ⟨isAddressed_owner haddressed, row, List.mem_filter.mpr ⟨hrow, haddressed⟩, rfl,
        hreached⟩
  unfold ReadTables.setOutbox
  congr 1

/-! ### Queued marks -/

section Queue

variable {acknowledged : Option Acknowledgement} {failure : Option (String × String)}
  {tables tables' : ReadTables κ}

variable {owner aggregateId : String}

theorem coalescibleRow_eq_some (h : coalescibleRow rows owner aggregateId = some row) :
    row ∈ rows ∧ row.isOf owner aggregateId = true ∧ row.isCoalescible = true := by
  have hmem := (sortDescending_perm _).mem_iff.mp (List.mem_of_head? h)
  obtain ⟨hrow, hcondition⟩ := List.mem_filter.mp hmem
  exact ⟨hrow, Bool.and_eq_true_iff.mp hcondition⟩

theorem coalescibleRow_eq_none (h : coalescibleRow rows owner aggregateId = none) :
    ∀ row ∈ rows, row.isOf owner aggregateId = true → row.isCoalescible = false := by
  intro row hrow hof
  rw [← Bool.not_eq_true]
  intro hcoalescible
  have hmem : row ∈ sortDescending (fun row : LocalMutation => toLex (row.createdAt, row.mutationId))
      (rows.filter fun row => row.isOf owner aggregateId && row.isCoalescible) :=
    (sortDescending_perm _).mem_iff.mpr
      (List.mem_filter.mpr ⟨hrow, by rw [hof, hcoalescible]; rfl⟩)
  rw [coalescibleRow, List.head?_eq_none_iff] at h
  rw [h] at hmem
  cases hmem

theorem isOf_iff :
    row.isOf owner aggregateId = true ↔
      row.ownerIdentityId = owner ∧ row.aggregateId = aggregateId := by
  simp [LocalMutation.isOf]

theorem upsertReadOutbox_ok {threadKind threadId remoteThreadKey seq : String}
    {messageId at_ : Option String}
    (h : upsertReadOutbox tables draw owner threadKind threadId remoteThreadKey seq messageId at_ =
      .ok (operationId, tables')) :
    OutboxChange acknowledged failure tables.outbox tables'.outbox ∧
      ∃ row ∈ tables'.outbox, row.isOf owner remoteThreadKey = true ∧
        row.operationId = operationId ∧ row.isLive = true ∧
        (Decimal.order seq (row.watermark.getD "0")).isLE = true := by
  unfold upsertReadOutbox at h
  obtain ⟨_, hvalid, h⟩ := Tx.except_bind_ok.mp h
  have hcanonical := validateDecimal_ok.mp hvalid
  dsimp only at h
  split at h
  · rename_i row hfound
    obtain ⟨hrow, hof, hcoalescible⟩ := coalescibleRow_eq_some hfound
    obtain ⟨howner, haggregate⟩ := isOf_iff.mp hof
    obtain ⟨current, hcurrent, h⟩ := Tx.except_bind_ok.mp h
    obtain ⟨order, horder, h⟩ := Tx.except_bind_ok.mp h
    have hwatermark : row.watermark = (current.get "read_watermark_seq").bind Json.asStr := by
      rw [LocalMutation.watermark, Tx.except_elim_ok.mp hcurrent]
      rfl
    rw [← hwatermark] at horder
    obtain ⟨-, -, horder⟩ := compareDecimal_ok.mp horder
    have hlive : row.isLive = true := by
      simp only [LocalMutation.isCoalescible, Bool.and_eq_true, beq_iff_eq] at hcoalescible
      simp [LocalMutation.isLive, hcoalescible.1]
    split at h
    · rename_i hgreater
      cases h
      subst howner haggregate
      refine ⟨.join row _ seq draw.now hrow hcoalescible rfl hcanonical
        (horder.trans hgreater), _,
        mem_updateWhere_of_pos hrow (by simp [LocalMutation.isRow]), isOf_iff.mpr ⟨rfl, rfl⟩, rfl,
        hlive, ?_⟩
      change (Decimal.order seq seq).isLE = true
      rw [Decimal.order_self]
      rfl
    · rename_i hnot
      cases h
      refine ⟨.keep, row, hrow, hof, rfl, hlive, ?_⟩
      rw [horder, Ordering.isLE_iff_ne_gt]
      exact hnot
  · rename_i hfound
    obtain ⟨queued, hqueued, h⟩ := Tx.except_bind_ok.mp h
    cases h
    rw [(enqueueLocalMutation_ok hqueued).1]
    refine ⟨.queue _ seq (coalescibleRow_eq_none hfound) rfl rfl hcanonical, _,
      List.mem_append_right _ (List.mem_singleton_self _), ?_, rfl, rfl, ?_⟩
    · exact isOf_iff.mpr ⟨rfl, rfl⟩
    · change (Decimal.order seq seq).isLE = true
      rw [Decimal.order_self]
      rfl

end Queue

/-! ### Requests -/

theorem get_removeField {payload : Json} {removed key : String} (hne : key ≠ removed) :
    (removeField payload removed).get key = payload.get key := by
  unfold removeField
  split
  · rename_i fields
    simp only [Json.get, List.find?_filter]
    congr 2
    funext field
    by_cases hkey : field.1 = key
    · simp [hkey, hne]
    · simp [hkey]
  · rfl

theorem normalizeClaimedGroupRead_ok {db : ReadDb κ}
    (h : normalizeClaimedGroupRead db row = .ok next) :
    next.status = row.status ∧ next.watermark = row.watermark := by
  unfold normalizeClaimedGroupRead at h
  split at h
  · cases h
    exact ⟨rfl, rfl⟩
  · obtain ⟨payload, hpayload, h⟩ := Tx.except_bind_ok.mp h
    replace h := Tx.except_then h
    dsimp only at h
    split at h
    · cases h
      exact ⟨rfl, rfl⟩
    · obtain ⟨untrusted, -, h⟩ := Tx.except_bind_ok.mp h
      split at h
      · cases h
        refine ⟨rfl, ?_⟩
        rw [LocalMutation.watermark, LocalMutation.watermark, Tx.except_elim_ok.mp hpayload]
        change ((removeField payload _).get _).bind _ = (payload.get _).bind _
        rw [get_removeField (by decide)]
      · cases h
        exact ⟨rfl, rfl⟩

section Changes

variable {acknowledged : Option Acknowledgement} {failure : Option (String × String)}
  {context : ReadContext κ} {db db' : ReadDb κ}

theorem claimRow_change {claimed : LocalMutation → LocalMutation}
    (h : claimRow db row claimed = .ok (next, db')) (hrow : row ∈ db.others.outbox)
    (hqueued : row.isQueued = true) (hnone : hasNoneInFlight db.others.outbox row = true)
    (hstatus : (claimed row).status = .inFlight) (hpayload : (claimed row).payload = row.payload) :
    OutboxChange acknowledged failure db.others.outbox db'.others.outbox := by
  unfold claimRow at h
  obtain ⟨normalized, hnormalized, h⟩ := Tx.except_bind_ok.mp h
  cases h
  obtain ⟨hkept, hwatermark⟩ := normalizeClaimedGroupRead_ok hnormalized
  refine .claim row _ hrow hqueued hnone (fun old => ⟨rfl, rfl⟩) (hkept.trans hstatus)
    ⟨rfl, rfl, rfl, rfl, ?_⟩
  change next.watermark = row.watermark
  rw [hwatermark, LocalMutation.watermark, hpayload, LocalMutation.watermark]

variable {owner : String} {now : Int} {result : MarkThreadReadResult}

theorem claimNextReadMutation_change (h : claimNextReadMutation db owner now = .ok (claimed, db')) :
    OutboxChange acknowledged failure db.others.outbox db'.others.outbox := by
  unfold claimNextReadMutation at h
  dsimp only at h
  split at h
  · cases h
    exact .keep
  · rename_i row hfound
    obtain ⟨⟨next, claimedDb⟩, hclaim, h⟩ := Tx.except_bind_ok.mp h
    cases h
    have hmem := (List.perm_insertionSort _ _).mem_iff.mp (List.mem_of_head? hfound)
    obtain ⟨hrow, hcondition⟩ := List.mem_filter.mp hmem
    simp only [Bool.and_eq_true] at hcondition
    exact claimRow_change hclaim hrow hcondition.1.1.2 hcondition.2 rfl rfl

theorem not_isQueued_of_inFlight (h : row.status = .inFlight) : row.isQueued = false := by
  simp [LocalMutation.isQueued, h]

theorem claimReadMutationByOperationId_change
    (h : claimReadMutationByOperationId db owner operationId now = .ok (claimed, db')) :
    OutboxChange acknowledged failure db.others.outbox db'.others.outbox := by
  unfold claimReadMutationByOperationId at h
  replace h := Tx.except_then (Tx.except_then h)
  dsimp only at h
  split at h
  · cases h
    exact .keep
  · rename_i row hfound
    obtain ⟨⟨next, claimedDb⟩, hclaim, h⟩ := Tx.except_bind_ok.mp h
    cases h
    have hrow := List.mem_of_find?_eq_some hfound
    have hcondition := List.find?_some hfound
    simp only [Bool.and_eq_true] at hcondition
    have hqueued := hcondition.1.1.2
    refine claimRow_change hclaim hrow hqueued ?_ rfl rfl
    -- The search leaves the row itself out, and a queued row is not in flight.
    have hothers := hcondition.2
    unfold hasNoneInFlight
    rw [Bool.not_eq_true', List.any_eq_false] at hothers ⊢
    intro other hother hflying
    apply hothers other hother
    rw [Bool.and_eq_true, bne_iff_ne]
    refine ⟨hflying, ?_⟩
    intro hid
    obtain ⟨hof, hstatus⟩ := Bool.and_eq_true_iff.mp hflying
    have hsame : other = row := db.others.distinctMutations.eq_of_key_eq hother hrow
      (by rw [LocalMutation.key, LocalMutation.key, (isOf_iff.mp hof).1, hid])
    subst hsame
    rw [not_isQueued_of_inFlight (beq_iff_eq.mp hstatus)] at hqueued
    cases hqueued

theorem queueMark_change {seq key : String}
    (h : queueMark db draw owner seq key result = .ok (result', db')) :
    OutboxChange acknowledged failure db.others.outbox db'.others.outbox := by
  unfold queueMark at h
  obtain ⟨target, -, h⟩ := Tx.except_bind_ok.mp h
  cases target with
  | none =>
    dsimp only at h
    split at h
    · cases h
      exact .keep
    · cases h
  | some target =>
    obtain ⟨⟨operationId, tables⟩, hqueued, h⟩ := Tx.except_bind_ok.mp h
    cases h
    exact (upsertReadOutbox_ok hqueued).1

theorem acknowledgeMark_outbox {seq key : String}
    (h : acknowledgeMark db now owner seq key result = .ok (result', db')) :
    db'.others.outbox = updateWhere
      (Acknowledgement.covers ⟨owner, key, some result.conversationId, seq⟩) (·.commit now)
      db.others.outbox := by
  unfold acknowledgeMark at h
  obtain ⟨tables, htables, h⟩ := Tx.except_bind_ok.mp h
  have houtbox := congrArg ReadTables.outbox (acknowledgeReadOutbox_ok htables)
  dsimp only at h
  split at h
  · cases h
    exact houtbox
  · cases h
    exact houtbox

theorem markThreadReadAndUpdateOutbox_change {ownerDid : String} {input : MarkThreadReadInput}
    (h : markThreadReadAndUpdateOutbox context db draw owner ownerDid input = .ok (result, db')) :
    OutboxChange ((ReadEvent.mark draw owner ownerDid input).acknowledgement context db) failure
      db.others.outbox db'.others.outbox := by
  unfold markThreadReadAndUpdateOutbox at h
  obtain ⟨⟨marked, markedDb⟩, hmarked, h⟩ := Tx.except_bind_ok.mp h
  rw [← (markThreadReadWatermark_frame hmarked).1]
  dsimp only at h
  split at h
  · cases h
    exact .keep
  · rename_i seq hseq
    split at h
    · rename_i hbound
      split at h
      · cases h
        exact .keep
      · rename_i key hkey
        split at h
        · exact queueMark_change h
        · rename_i hpending
          rw [acknowledgeMark_outbox h]
          refine .commit ⟨owner, key, some marked.conversationId,
            input.readWatermarkSeq.getD seq⟩ draw.now ?_
          simp [ReadEvent.acknowledgement, hmarked, hpending, hbound, hseq, hkey]
    · cases h
      exact .keep

theorem permanentlyFailLocalMutation_change {mutationId errorCode : String}
    {failedAt : Int} {tables' : ReadTables κ}
    (h : permanentlyFailLocalMutation db.others owner mutationId errorCode failedAt =
      .ok tables') :
    OutboxChange acknowledged (some (owner, mutationId)) db.others.outbox tables'.outbox := by
  unfold permanentlyFailLocalMutation at h
  replace h := Tx.except_then (Tx.except_then (Tx.except_then (Tx.except_then h)))
  cases h
  exact .fail owner mutationId _ rfl fun row => ⟨rfl, rfl, rfl, rfl, rfl, rfl⟩

theorem ReadEvent.change {event : ReadEvent} (h : event.run context db = .ok db') :
    OutboxChange (event.acknowledgement context db) event.failure db.others.outbox
      db'.others.outbox := by
  cases event with
  | mark draw owner ownerDid input =>
    obtain ⟨⟨result, next⟩, hmark, rfl⟩ := Tx.except_map_ok.mp h
    exact markThreadReadAndUpdateOutbox_change hmark
  | claimNext owner now =>
    obtain ⟨⟨claimed, next⟩, hclaim, rfl⟩ := Tx.except_map_ok.mp h
    exact claimNextReadMutation_change hclaim
  | claimOperation owner operationId now =>
    obtain ⟨⟨claimed, next⟩, hclaim, rfl⟩ := Tx.except_map_ok.mp h
    exact claimReadMutationByOperationId_change hclaim
  | retry owner mutationId errorCode retryAt =>
    cases h
    refine .release _ _ ?_ fun row => ⟨rfl, rfl, rfl, rfl, rfl, rfl⟩
    intro row hrow
    exact beq_iff_eq.mp (Bool.and_eq_true_iff.mp hrow).2
  | fail owner mutationId errorCode failedAt =>
    obtain ⟨tables, hfail, rfl⟩ := Tx.except_map_ok.mp h
    exact permanentlyFailLocalMutation_change hfail
  | acknowledge owner aggregateId conversationId seq now =>
    obtain ⟨tables, hacknowledge, rfl⟩ := Tx.except_map_ok.mp h
    rw [acknowledgeReadOutbox_ok hacknowledge]
    exact .commit _ now rfl
  | recover recoveredAt =>
    cases h
    refine .release _ _ ?_ fun row => ⟨rfl, rfl, rfl, rfl, rfl, rfl⟩
    intro row hrow
    exact beq_iff_eq.mp hrow
  | elsewhere =>
    cases h
    exact .keep

end Changes

/-! ## At most one row -/

def AtMostOne (p : LocalMutation → Bool) (rows : List LocalMutation) : Prop :=
  ∀ row ∈ rows, ∀ other ∈ rows, row.isOf other.ownerIdentityId other.aggregateId = true →
    p row = true → p other = true → row = other

section AtMostOne

variable {p : LocalMutation → Bool} {rows rows' : List LocalMutation}

theorem AtMostOne.updateWhere (h : AtMostOne p rows) {q : LocalMutation → Bool}
    (hof : ∀ row ∈ rows, (f row).ownerIdentityId = row.ownerIdentityId ∧
      (f row).aggregateId = row.aggregateId)
    (hp : ∀ row ∈ rows, q row = true → p (f row) = true → p row = true) :
    AtMostOne p (updateWhere q f rows) := by
  have hback : ∀ row ∈ rows, p (if q row then f row else row) = true → p row = true := by
    intro row hrow hnew
    by_cases hq : q row = true
    · rw [if_pos hq] at hnew
      exact hp row hrow hq hnew
    · rwa [if_neg hq] at hnew
  have hsame : ∀ row ∈ rows, (if q row then f row else row).ownerIdentityId =
        row.ownerIdentityId ∧ (if q row then f row else row).aggregateId = row.aggregateId := by
    intro row hrow
    by_cases hq : q row = true
    · rw [if_pos hq]
      exact hof row hrow
    · rw [if_neg hq]
      exact ⟨rfl, rfl⟩
  intro row hrow other hother haggregate hrowP hotherP
  obtain ⟨old, hold, rfl⟩ := mem_updateWhere.mp hrow
  obtain ⟨oldOther, holdOther, rfl⟩ := mem_updateWhere.mp hother
  rw [isOf_iff, (hsame old hold).1, (hsame old hold).2, (hsame oldOther holdOther).1,
    (hsame oldOther holdOther).2, ← isOf_iff] at haggregate
  have heq := h old hold oldOther holdOther haggregate (hback old hold hrowP)
    (hback oldOther holdOther hotherP)
  rw [heq]

variable {row : LocalMutation}

theorem AtMostOne.append_singleton (h : AtMostOne p rows)
    (hnew : p row = true → ∀ other ∈ rows,
      other.isOf row.ownerIdentityId row.aggregateId = true → p other = false) :
    AtMostOne p (rows ++ [row]) := by
  have hapart : ∀ other ∈ rows, other.isOf row.ownerIdentityId row.aggregateId = true →
      p row = true → p other = true → False := by
    intro other hother hof hrow hp
    rw [hnew hrow other hother hof] at hp
    cases hp
  intro first hfirst second hsecond hof hpFirst hpSecond
  rw [List.mem_append, List.mem_singleton] at hfirst hsecond
  obtain ⟨howner, haggregate⟩ := isOf_iff.mp hof
  rcases hfirst with hfirst | rfl
  · rcases hsecond with hsecond | rfl
    · exact h first hfirst second hsecond hof hpFirst hpSecond
    · exact (hapart first hfirst hof hpSecond hpFirst).elim
  · rcases hsecond with hsecond | rfl
    · exact (hapart second hsecond (isOf_iff.mpr ⟨howner.symm, haggregate.symm⟩) hpFirst
        hpSecond).elim
    · rfl

theorem eq_of_isRow (hunique : UniqueKey LocalMutation.key rows) {old : LocalMutation}
    (hrow : row ∈ rows) (hold : old ∈ rows)
    (h : old.isRow row.ownerIdentityId row.mutationId = true) : old = row := by
  simp only [LocalMutation.isRow, Bool.and_eq_true, beq_iff_eq] at h
  exact hunique.eq_of_key_eq hold hrow (Prod.ext h.1 h.2)

theorem AtMostOne.claim (h : AtMostOne (·.status == .inFlight) rows)
    (hunique : UniqueKey LocalMutation.key rows) (hrow : row ∈ rows)
    (hnone : hasNoneInFlight rows row = true) (hf : SameMutation row (f row)) :
    AtMostOne (·.status == .inFlight)
      (Rows.updateWhere (·.isRow row.ownerIdentityId row.mutationId) f rows) := by
  have hmem : ∀ new ∈ Rows.updateWhere (·.isRow row.ownerIdentityId row.mutationId) f rows,
      new = f row ∨ new ∈ rows := by
    intro new hnew
    obtain ⟨old, hold, rfl⟩ := mem_updateWhere.mp hnew
    split
    · rename_i hchosen
      rw [eq_of_isRow hunique hrow hold hchosen]
      exact .inl rfl
    · exact .inr hold
  have hapart : ∀ other ∈ rows, other.isOf row.ownerIdentityId row.aggregateId = true →
      (other.status == .inFlight) = true → False := by
    intro other hother hof hstatus
    rw [hasNoneInFlight, Bool.not_eq_true', List.any_eq_false] at hnone
    exact hnone other hother (Bool.and_eq_true_iff.mpr ⟨hof, hstatus⟩)
  intro first hfirst second hsecond hof hpFirst hpSecond
  obtain ⟨howner, haggregate⟩ := isOf_iff.mp hof
  rcases hmem first hfirst with rfl | hfirst
  · rcases hmem second hsecond with rfl | hsecond
    · rfl
    · rw [hf.owner] at howner
      rw [hf.aggregate] at haggregate
      exact (hapart second hsecond (isOf_iff.mpr ⟨howner.symm, haggregate.symm⟩)
        hpSecond).elim
  · rcases hmem second hsecond with rfl | hsecond
    · rw [hf.owner, hf.aggregate] at hof
      exact (hapart first hfirst hof hpFirst).elim
    · exact h first hfirst second hsecond hof hpFirst hpSecond

end AtMostOne

/-! ## The laws of the outbox -/

theorem isCoalescible_of_status (h : row.status ≠ .pending) :
    row.isCoalescible = false := by
  simp [LocalMutation.isCoalescible, h]

structure OutboxLaws (rows : List LocalMutation) : Prop where
  oneInFlight : AtMostOne (·.status == .inFlight) rows
  oneCoalescible : AtMostOne (·.isCoalescible) rows
  carried : ∀ row ∈ rows, ∃ watermark, row.watermark = some watermark ∧
    Decimal.isCanonical watermark = true

theorem outboxLaws_nil : OutboxLaws [] :=
  ⟨by simp [AtMostOne], by simp [AtMostOne], by simp⟩

theorem OutboxLaws.settle (h : OutboxLaws rows) (hflight : status ≠ .inFlight)
    (hpending : status ≠ .pending)
    (hf : ∀ row, (f row).status = status ∧ SameMutation row (f row)) :
    OutboxLaws (updateWhere p f rows) := by
  have hof : ∀ row ∈ rows, (f row).ownerIdentityId = row.ownerIdentityId ∧
      (f row).aggregateId = row.aggregateId :=
    fun row _ => ⟨(hf row).2.owner, (hf row).2.aggregate⟩
  refine ⟨h.oneInFlight.updateWhere hof ?_, h.oneCoalescible.updateWhere hof ?_, ?_⟩
  · intro row _ _ hnew
    rw [beq_iff_eq, (hf row).1] at hnew
    exact absurd hnew hflight
  · intro row _ _ hnew
    rw [isCoalescible_of_status (by rw [(hf row).1]; exact hpending)] at hnew
    cases hnew
  · intro row hrow
    obtain ⟨old, hold, rfl⟩ := mem_updateWhere.mp hrow
    split
    · rw [(hf old).2.watermark]
      exact h.carried old hold
    · exact h.carried old hold

section Laws

variable {acknowledged : Option Acknowledgement} {failure : Option (String × String)}
  {rows rows' : List LocalMutation}

theorem OutboxChange.laws (hchange : OutboxChange acknowledged failure rows rows')
    (hunique : UniqueKey LocalMutation.key rows) (h : OutboxLaws rows) : OutboxLaws rows' := by
  cases hchange with
  | keep => exact h
  | join row payload seq now hrow hcoalescible hwatermark hcanonical hgreater =>
    refine ⟨h.oneInFlight.updateWhere (fun _ _ => ⟨rfl, rfl⟩) fun _ _ _ hnew => hnew,
      h.oneCoalescible.updateWhere (fun _ _ => ⟨rfl, rfl⟩) fun _ _ _ hnew => hnew, ?_⟩
    intro new hnew
    obtain ⟨old, hold, rfl⟩ := mem_updateWhere.mp hnew
    split
    · exact ⟨seq, hwatermark, hcanonical⟩
    · exact h.carried old hold
  | queue row seq hnone hstatus hwatermark hcanonical =>
    refine ⟨h.oneInFlight.append_singleton ?_, h.oneCoalescible.append_singleton fun _ => hnone,
      ?_⟩
    · intro hnew
      rw [hstatus] at hnew
      cases hnew
    · intro new hnew
      rcases List.mem_append.mp hnew with hnew | hnew
      · exact h.carried new hnew
      · rw [List.mem_singleton.mp hnew]
        exact ⟨seq, hwatermark, hcanonical⟩
  | claim row f hrow hqueued hnone hf hstatus hsame =>
    refine ⟨h.oneInFlight.claim hunique hrow hnone hsame,
      h.oneCoalescible.updateWhere
        (fun old _ => ⟨(Prod.ext_iff.mp (hf old).1).1, (hf old).2⟩) ?_, ?_⟩
    · intro old hold hchosen hnew
      rw [eq_of_isRow hunique hrow hold hchosen,
        isCoalescible_of_status (by rw [hstatus]; decide)] at hnew
      cases hnew
    · intro new hnew
      obtain ⟨old, hold, rfl⟩ := mem_updateWhere.mp hnew
      split
      · rename_i hchosen
        rw [eq_of_isRow hunique hrow hold hchosen, hsame.watermark]
        exact h.carried row hrow
      · exact h.carried old hold
  | release p f hp hf => exact h.settle (by decide) (by decide) hf
  | fail owner mutationId f hfailure hf => exact h.settle (by decide) (by decide) hf
  | commit brought now hbrought =>
    have hcommit : ∀ row : LocalMutation,
        (row.commit now).status = .committed ∧ SameMutation row (row.commit now) :=
      fun row => ⟨rfl, rfl, rfl, rfl, rfl, rfl⟩
    exact h.settle (by decide) (by decide) hcommit

def Carries (rows : List LocalMutation) (owner aggregateId watermark : String) : Prop :=
  ∃ row ∈ rows, row.isOf owner aggregateId = true ∧ row.isLive = true ∧
    ∃ reached, row.watermark = some reached ∧ (Decimal.order watermark reached).isLE = true

variable {row : LocalMutation} {watermark : String}

theorem SameMutation.carries {row' : LocalMutation} (hsame : SameMutation row row')
    (hmem : row' ∈ rows') (hlive : row'.isLive = true)
    (hwatermark : row.watermark = some watermark) :
    Carries rows' row.ownerIdentityId row.aggregateId watermark := by
  refine ⟨row', hmem, isOf_iff.mpr ⟨hsame.owner, hsame.aggregate⟩, hlive, watermark,
    hsame.watermark.trans hwatermark, ?_⟩
  rw [Decimal.order_self]
  rfl

theorem carries_of_not (hrow : row ∈ rows) (hp : ¬ p row = true) (hlive : row.isLive = true)
    (hwatermark : row.watermark = some watermark) :
    Carries (updateWhere p f rows) row.ownerIdentityId row.aggregateId watermark :=
  (sameMutation_refl row).carries (mem_updateWhere_of_not hrow (Bool.eq_false_iff.mpr hp)) hlive
    hwatermark

theorem isLive_of_status (h : row.status = status)
    (hlive : status ≠ .committed ∧ status ≠ .permanentFailure) : row.isLive = true := by
  simp [LocalMutation.isLive, h, hlive]

/-- A live mutation is followed by one that carries its watermark, unless it is acknowledged or
fails. -/
theorem OutboxChange.carries (hchange : OutboxChange acknowledged failure rows rows')
    (hunique : UniqueKey LocalMutation.key rows) (hrow : row ∈ rows) (hlive : row.isLive = true)
    (hwatermark : row.watermark = some watermark) :
    Carries rows' row.ownerIdentityId row.aggregateId watermark ∨
      acknowledged.any (·.covers row) = true ∨ failure = some row.key := by
  cases hchange with
  | keep => exact .inl ((sameMutation_refl row).carries hrow hlive hwatermark)
  | join joined payload seq now hjoined hcoalescible hseq hcanonical hgreater =>
    left
    by_cases hchosen : row.isRow joined.ownerIdentityId joined.mutationId = true
    · have heq := eq_of_isRow hunique hjoined hrow hchosen
      subst heq
      rw [hwatermark, Option.getD_some] at hgreater
      refine ⟨_, mem_updateWhere_of_pos hrow hchosen, isOf_iff.mpr ⟨rfl, rfl⟩, hlive, seq, hseq,
        ?_⟩
      rw [Decimal.order_swap, hgreater]
      rfl
    · exact carries_of_not hrow hchosen hlive hwatermark
  | queue queued seq hnone hstatus hqueued hcanonical =>
    exact .inl ((sameMutation_refl row).carries (List.mem_append_left _ hrow) hlive hwatermark)
  | claim claimed f hclaimed hqueued hnone hf hstatus hsame =>
    left
    by_cases hchosen : row.isRow claimed.ownerIdentityId claimed.mutationId = true
    · have heq := eq_of_isRow hunique hclaimed hrow hchosen
      subst heq
      exact hsame.carries (mem_updateWhere_of_pos hrow hchosen)
        (isLive_of_status hstatus (by decide)) hwatermark
    · exact carries_of_not hrow hchosen hlive hwatermark
  | release p f hp hf =>
    left
    by_cases hchosen : p row = true
    · exact (hf row).2.carries (mem_updateWhere_of_pos hrow hchosen)
        (isLive_of_status (hf row).1 (by decide)) hwatermark
    · exact carries_of_not hrow hchosen hlive hwatermark
  | fail owner mutationId f hfailure hf =>
    by_cases hchosen : (row.isRow owner mutationId && row.status == .inFlight) = true
    · right
      right
      have hkey := (Bool.and_eq_true_iff.mp hchosen).1
      simp only [LocalMutation.isRow, Bool.and_eq_true, beq_iff_eq] at hkey
      rw [hfailure, LocalMutation.key, hkey.1, hkey.2]
    · exact .inl (carries_of_not hrow hchosen hlive hwatermark)
  | commit brought now hbrought =>
    by_cases hchosen : brought.covers row = true
    · right
      left
      rw [hbrought]
      exact hchosen
    · exact .inl (carries_of_not hrow hchosen hlive hwatermark)

end Laws

section Runs

variable {context : ReadContext κ} {db db' : ReadDb κ} {event : ReadEvent}

theorem ReadStep.change (h : ReadStep context db event db') :
    OutboxChange (event.acknowledgement context db) event.failure db.others.outbox
      db'.others.outbox := by
  cases h with
  | returned h => exact event.change h
  | failed h => exact .keep
  | elsewhere h =>
    rw [h]
    exact .keep

theorem outboxLaws_of_run {db₀ : ReadDb κ} (hempty : db₀.others.outbox = [])
    (hrun : Run (ReadStep context) db₀ history db) : OutboxLaws db.others.outbox := by
  refine hrun.invariant (P := fun db => OutboxLaws db.others.outbox) ?_ ?_
  · intro db event db' hlaws hstep
    exact hstep.change.laws db.others.distinctMutations hlaws
  · rw [hempty]
    exact outboxLaws_nil

/-- The call acknowledges or fails a live mutation of the aggregate that carries the
watermark. -/
def Settles (context : ReadContext κ) (db : ReadDb κ) (event : ReadEvent)
    (owner aggregateId watermark : String) : Prop :=
  ∃ row ∈ db.others.outbox, row.isOf owner aggregateId = true ∧ row.isLive = true ∧
    (∃ reached, row.watermark = some reached ∧
      (Decimal.order watermark reached).isLE = true) ∧
    ((event.acknowledgement context db).any (·.covers row) = true ∨
      event.failure = some row.key)

variable {owner seq : String}

theorem ReadStep.carries (h : ReadStep context db event db')
    (hcarries : Carries db.others.outbox owner aggregateId watermark) :
    Carries db'.others.outbox owner aggregateId watermark ∨
      Settles context db event owner aggregateId watermark := by
  obtain ⟨row, hrow, hof, hlive, reached, hreached, hle⟩ := hcarries
  rcases h.change.carries db.others.distinctMutations hrow hlive hreached with hkept | hsettled
  · left
    obtain ⟨howner, haggregate⟩ := isOf_iff.mp hof
    rw [howner, haggregate] at hkept
    obtain ⟨next, hnext, hnextOf, hnextLive, further, hfurther, hle'⟩ := hkept
    exact ⟨next, hnext, hnextOf, hnextLive, further, hfurther, Decimal.order_le_trans hle hle'⟩
  · exact .inr ⟨row, hrow, hof, hlive, ⟨reached, hreached, hle⟩, hsettled⟩

theorem carries_of_run (hrun : Run (ReadStep context) db history db')
    (hcarries : Carries db.others.outbox owner aggregateId watermark) :
    Carries db'.others.outbox owner aggregateId watermark ∨
      ∃ before event after between, history = before ++ event :: after ∧
        Run (ReadStep context) db before between ∧
        Settles context between event owner aggregateId watermark := by
  by_cases hend : Carries db'.others.outbox owner aggregateId watermark
  · exact .inl hend
  · right
    obtain ⟨before, event, after, between, next, hhistory, hbefore, hkept, hstep, hlost, -⟩ :=
      hrun.exists_gain (P := fun db => ¬ Carries db.others.outbox owner aggregateId watermark)
        (not_not_intro hcarries) hend
    refine ⟨before, event, after, between, hhistory, hbefore, ?_⟩
    exact (hstep.carries (not_not.mp hkept)).resolve_left hlost

theorem acknowledgeReadOutbox_isOk (hlaws : OutboxLaws db.others.outbox)
    (owner aggregateId : String) (conversationId : Option String) (now : Int)
    (hseq : Decimal.isCanonical seq = true) :
    ∃ tables, acknowledgeReadOutbox db.others owner aggregateId conversationId seq now =
      .ok tables := by
  obtain ⟨ids, hids⟩ := reachedIds_total hseq fun row hrow =>
    hlaws.carried row (List.mem_of_mem_filter hrow)
  unfold acknowledgeReadOutbox
  rw [hids]
  exact ⟨_, rfl⟩

theorem carries_of_upsertReadOutbox {tables : ReadTables κ}
    {threadKind threadId remoteThreadKey : String} {messageId at_ : Option String}
    (hlaws : OutboxLaws db.others.outbox)
    (h : upsertReadOutbox db.others draw owner threadKind threadId remoteThreadKey seq messageId
      at_ = .ok (operationId, tables)) : Carries tables.outbox owner remoteThreadKey seq := by
  have hupsert : OutboxChange none none db.others.outbox tables.outbox ∧ _ :=
    upsertReadOutbox_ok h
  obtain ⟨hchange, row, hrow, hof, -, hlive, hle⟩ := hupsert
  obtain ⟨watermark, hwatermark, -⟩ :=
    (hchange.laws db.others.distinctMutations hlaws).carried row hrow
  rw [hwatermark, Option.getD_some] at hle
  exact ⟨row, hrow, hof, hlive, watermark, hwatermark, hle⟩

/-- In every run from an empty outbox a remote thread has at most one mutation in flight and
at most one to join.  An acknowledgement commits exactly the live mutations of the remote
thread or of the conversation whose watermark it reaches.  A queued mark is carried by the
live mutations of its remote thread until it is acknowledged or fails. -/
theorem read_outbox_laws (context : ReadContext κ) {db₀ db : ReadDb κ}
    {history : List ReadEvent} (hempty : db₀.others.outbox = [])
    (hrun : Run (ReadStep context) db₀ history db) :
    AtMostOne (·.status == .inFlight) db.others.outbox ∧
      AtMostOne (·.isCoalescible) db.others.outbox ∧
      (∀ owner aggregateId conversationId seq now,
        (∀ tables, acknowledgeReadOutbox db.others owner aggregateId conversationId seq now =
            .ok tables →
          tables.outbox = updateWhere (fun row => row.ownerIdentityId == owner && row.isLive &&
              (row.aggregateId == aggregateId ||
                conversationId.any fun conversation => row.threadId == some conversation) &&
              row.watermark.any fun watermark => Decimal.order watermark seq != .gt)
            (·.commit now) db.others.outbox) ∧
        (Decimal.isCanonical seq = true → ∃ tables,
          acknowledgeReadOutbox db.others owner aggregateId conversationId seq now =
            .ok tables)) ∧
      (∀ event db', ReadStep context db event db' →
        ∀ row ∈ db.others.outbox, row.isLive = true → ∃ watermark,
          row.watermark = some watermark ∧
            (Carries db'.others.outbox row.ownerIdentityId row.aggregateId watermark ∨
              (event.acknowledgement context db).any (·.covers row) = true ∨
              event.failure = some row.key)) ∧
      (∀ draw owner threadKind threadId remoteThreadKey seq messageId at_ operationId tables,
        upsertReadOutbox db.others draw owner threadKind threadId remoteThreadKey seq messageId
            at_ = .ok (operationId, tables) →
          Carries tables.outbox owner remoteThreadKey seq) ∧
      (∀ later db' owner aggregateId watermark, Run (ReadStep context) db later db' →
        Carries db.others.outbox owner aggregateId watermark →
        Carries db'.others.outbox owner aggregateId watermark ∨
          ∃ before event after between, later = before ++ event :: after ∧
            Run (ReadStep context) db before between ∧
            Settles context between event owner aggregateId watermark) := by
  have hlaws := outboxLaws_of_run hempty hrun
  refine ⟨hlaws.oneInFlight, hlaws.oneCoalescible, ?_, ?_, ?_, ?_⟩
  · intro owner aggregateId conversationId seq now
    refine ⟨?_, acknowledgeReadOutbox_isOk hlaws owner aggregateId conversationId now⟩
    intro tables h
    rw [acknowledgeReadOutbox_ok h]
    rfl
  · intro event db' hstep row hrow hlive
    obtain ⟨watermark, hwatermark, -⟩ := hlaws.carried row hrow
    exact ⟨watermark, hwatermark,
      hstep.change.carries db.others.distinctMutations hrow hlive hwatermark⟩
  · intro draw owner threadKind threadId remoteThreadKey seq messageId at_ operationId tables h
    exact carries_of_upsertReadOutbox hlaws h
  · intro later db' owner aggregateId watermark hlater hcarries
    exact carries_of_run hlater hcarries

end Runs

namespace OutboxSample

def context : ReadContext Unit where
  instant := fun _ => none
  nowText := "1"
  ensure := fun _ _ => .ok ()
  resolveConversation := fun _ _ _ => none
  conversationIdsForThreadRef := fun _ _ _ _ _ => .ok ["dm:x"]
  isBound := fun _ _ => true
  debugText := id

/-- The conversation `dm:x` was bound to the remote thread `k1`. -/
def bound : ReadDb Unit where
  messages := []
  aliases := []
  summaries := []
  others :=
    { readStates := []
      bindings := [⟨"o", "k1", "direct", "dm:x", 1⟩]
      remoteStates := []
      outbox := []
      others := ()
      distinctMutations := .nil _ }
  distinct := .nil _
  distinctMessages := .nil _

def mark : ReadEvent :=
  .mark ⟨"m", "p", 1⟩ "o" "d"
    { thread := .thread "dm:x"
      readWatermarkMessageId := none
      readWatermarkSeq := some "5"
      readWatermarkAt := none
      pendingRemoteAck := true }

def view (tables : ReadTables Unit) : List (String × Option String × Bool) :=
  tables.outbox.map fun row => (row.aggregateId, row.watermark, row.isLive)

/-- The acknowledgement of the remote thread `k2` of the conversation commits the mutation of
`k1`. -/
theorem acknowledgement_of_other_key_commits :
    ∃ db tables, Run (ReadStep context) bound [mark] db ∧
      view db.others = [("k1", some "5", true)] ∧
      acknowledgeReadOutbox db.others "o" "k2" (some "dm:x") "5" 2 = .ok tables ∧
      view tables = [("k1", some "5", false)] := by
  have hrun : ((mark.run context bound).toOption.bind fun db =>
      (acknowledgeReadOutbox db.others "o" "k2" (some "dm:x") "5" 2).toOption.map fun tables =>
        (view db.others, view tables)) =
      some ([("k1", some "5", true)], [("k1", some "5", false)]) := by
    decide +kernel
  obtain ⟨db, hmark, hrun⟩ := Option.bind_eq_some_iff.mp hrun
  obtain ⟨tables, hacknowledge, hview⟩ := Option.map_eq_some_iff.mp hrun
  obtain ⟨hbefore, hafter⟩ := Prod.ext_iff.mp hview
  rw [Tx.except_toOption_ok] at hmark hacknowledge
  exact ⟨db, tables, .single (.returned hmark), hbefore, hacknowledge, hafter⟩

/-- Between its claim and its acknowledgement a queued mark is the one mutation in flight. -/
theorem marked_laws :
    ∃ claimed db, Run (ReadStep context) bound [mark, .claimNext "o" 2] claimed ∧
      claimed.others.outbox.map (·.status) = [.inFlight] ∧
      AtMostOne (·.status == .inFlight) claimed.others.outbox ∧
      Run (ReadStep context) bound
        [mark, .claimNext "o" 2, .acknowledge "o" "k1" none "5" 3] db ∧
      view db.others = [("k1", some "5", false)] ∧ AtMostOne (·.isCoalescible) db.others.outbox := by
  have hrun : ((mark.run context bound).toOption.bind fun marked =>
      ((ReadEvent.claimNext "o" 2).run context marked).toOption.bind fun claimed =>
        ((ReadEvent.acknowledge "o" "k1" none "5" 3).run context claimed).toOption.map fun db =>
          (claimed.others.outbox.map (·.status), view db.others)) =
      some ([.inFlight], [("k1", some "5", false)]) := by
    decide +kernel
  obtain ⟨marked, hmark, hrun⟩ := Option.bind_eq_some_iff.mp hrun
  obtain ⟨claimed, hclaim, hrun⟩ := Option.bind_eq_some_iff.mp hrun
  obtain ⟨db, hacknowledge, hview⟩ := Option.map_eq_some_iff.mp hrun
  rw [Tx.except_toOption_ok] at hmark hclaim hacknowledge
  obtain ⟨hstatus, hview⟩ := Prod.ext_iff.mp hview
  have hclaimed : Run (ReadStep context) bound _ claimed :=
    .cons (.returned hmark) (.single (.returned hclaim))
  have hdone : Run (ReadStep context) bound _ db :=
    .cons (.returned hmark) (.cons (.returned hclaim) (.single (.returned hacknowledge)))
  exact ⟨claimed, db, hclaimed, hstatus, (read_outbox_laws context rfl hclaimed).1, hdone, hview,
    (read_outbox_laws context rfl hdone).2.1⟩

end OutboxSample

end LocalState
end Awiki

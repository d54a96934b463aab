import Awiki.DecimalArithmetic
import Awiki.ReadWatermarks

/-!
# Waiting read states settle

A binding projects the read state that was waiting for its thread and queues the local mark
that could not be sent before.  Both read what other calls have stored, and both can fail on
it.  The conditions here are on the stored rows: watermarks, sequences and payloads that can
be read, and a waiting state that agrees with the binding and with the version that the
thread has.  Under them both parts succeed.
-/

namespace Awiki
namespace LocalState

open Rows Paging

variable {κ : Type}

def IsWatermark (seq : String) : Prop :=
  Decimal.isCanonical seq = true ∧ Decimal.value seq < 2 ^ 64

/-- A text that the columns keep as it is. -/
abbrev IsName (text : String) : Prop :=
  Text.isBlank text = false ∧ Text.trim text = text

/-- The stored rows can be read back. -/
structure Readable (db : ReadDb κ) : Prop where
  watermarks : db.others.AllWatermarks IsWatermark
  outbox : ∀ row ∈ db.others.outbox, row.isLive = true → row.IsReadable
  sequences : ∀ row ∈ db.messages, ∀ number, row.serverSeq = some number →
    0 ≤ number ∧ number < 2 ^ 63
  threadKeys : ∀ row ∈ db.messages, ∀ key, metadataName row "remote_thread_key" = some key →
    IsName key

/-- The functions of other modules answer for the owner. -/
structure Answering (context : ReadContext κ) (db : ReadDb κ) (owner : String) : Prop where
  ids : ∀ ownerDid thread, ∃ ids, context.conversationIdsForThreadRef db.others.others db.messages
    owner ownerDid thread = .ok ids
  registry : ∀ others record, record.ownerIdentityId = owner →
    ∃ others', context.ensure others record = .ok others'
  resolved : ∀ id target, context.resolveConversation db.others.others owner id = some target →
    Text.isBlank target = false

/-- The columns of an effective watermark that a mark reads. -/
def EffectiveReadWatermark.IsReadable (effective : EffectiveReadWatermark) : Prop :=
  (∀ seq, effective.seq = some seq → IsWatermark seq) ∧
    ∀ id, effective.messageId = some id → Text.isBlank id = false

variable {context : ReadContext κ} {db db' : ReadDb κ} {owner seq : String}
  {ids : List String} {tables tables' : ReadTables κ} {number : Int}

theorem isWatermark_toString (h : 0 ≤ number ∧ number < 2 ^ 63) : IsWatermark (toString number) := by
  obtain ⟨n, rfl⟩ := Int.eq_ofNat_of_zero_le h.1
  refine ⟨Decimal.isCanonical_toString n, ?_⟩
  change Decimal.value (toString n) < _
  rw [Decimal.value_toString]
  omega

theorem isWatermark_localWatermark {current : Option ThreadReadState}
    (h : ∀ row ∈ current, ∀ seq, row.readWatermarkSeq = some seq → IsWatermark seq) :
    IsWatermark (localWatermark current) := by
  unfold localWatermark
  cases hseq : current.bind (·.readWatermarkSeq) with
  | none => exact ⟨by decide, by decide⟩
  | some seq =>
    obtain ⟨row, hrow, hseq⟩ := Option.bind_eq_some_iff.mp hseq
    exact h row hrow seq hseq

theorem normalizeReadWatermarkSeq_eq (h : IsWatermark seq) :
    normalizeReadWatermarkSeq context seq = .ok seq := by
  unfold normalizeReadWatermarkSeq
  rw [Decimal.trim_of_isCanonical h.1]
  simp only [h.1, decide_eq_true h.2, Bool.and_self, if_true]

theorem isBlank_nonEmpty {text value : String} (h : nonEmpty text = some value) :
    Text.isBlank value = false :=
  (nonEmpty_eq_some.mp (nonEmpty_idem h)).1

theorem requiredText_eq {field text : String} (hblank : Text.isBlank text = false) :
    requiredText field text = .ok (Text.trim text) := by
  unfold requiredText nonEmpty
  rw [hblank]
  rfl

/-! ## The mark -/

theorem effective_total (context : ReadContext κ) (owner : String) (ids : List String)
    (messageId : Option String) {seq : Option String} (hdb : Readable db)
    (hseq : ∀ value, seq = some value → IsWatermark value) :
    ∃ effective, effectiveReadWatermarkForThread context db owner ids messageId seq =
      .ok effective ∧ effective.IsReadable := by
  have hnormalized : seq.mapM (normalizeReadWatermarkSeq context) = .ok seq := by
    cases seq with
    | none => rfl
    | some value =>
      change (normalizeReadWatermarkSeq context value).map some = _
      rw [normalizeReadWatermarkSeq_eq (hseq value rfl)]
      rfl
  have hnone : EffectiveReadWatermark.none.IsReadable :=
    ⟨fun _ h => (nomatch h), fun _ h => (nomatch h)⟩
  unfold effectiveReadWatermarkForThread
  rw [hnormalized]
  change ∃ effective, (ite _ _ _) = _ ∧ _
  split
  · exact ⟨_, rfl, hnone⟩
  · split
    · rename_i id hid
      obtain ⟨raw, -, hraw⟩ := Option.bind_eq_some_iff.mp hid
      obtain ⟨hblank, htrim⟩ := nonEmpty_eq_some.mp (nonEmpty_idem hraw)
      unfold readWatermarkForMessageId
      rw [requiredText_eq hblank, htrim]
      refine ⟨_, rfl, ?_⟩
      cases hfind : db.messages.find? fun row => row.isListable owner ids &&
          row.msgId == canonicalMessageIdForRequest db owner id with
      | none => exact hnone
      | some row =>
        refine ⟨fun value hvalue => ?_, fun id' hid' => isBlank_nonEmpty hid'⟩
        obtain ⟨number, hnumber, rfl⟩ := Option.map_eq_some_iff.mp hvalue
        exact isWatermark_toString (hdb.sequences row (List.mem_of_find?_eq_some hfind) number
          hnumber)
    · refine ⟨_, rfl, hseq, fun id hid => ?_⟩
      obtain ⟨row, -, hrow⟩ := Option.bind_eq_some_iff.mp hid
      exact isBlank_nonEmpty hrow
    · exact ⟨_, rfl, hnone⟩

section Registry

variable (hanswers : Answering context db owner) (howner : Text.isBlank owner = false)

include hanswers

theorem ensureFromSummary_total (current : ReadDb κ) (conversationId : String) :
    ∃ db', ensureFromSummary context.summaries current owner conversationId = .ok db' := by
  unfold ensureFromSummary
  split
  · exact ⟨_, rfl⟩
  · exact Tx.except_bind_total (Tx.except_map_total (hanswers.registry _ _ rfl)) fun _ _ => ⟨_, rfl⟩

include howner

theorem rebuildTouched_total (current : ReadDb κ) (touched : List String) :
    ∃ db', rebuildTouched context.summaries current owner touched = .ok db' := by
  unfold rebuildTouched
  generalize sortedSet touched = names
  induction names generalizing current with
  | nil => exact ⟨current, rfl⟩
  | cons name names ih =>
    have hfirst : ∃ middle, (if Text.isBlank owner || Text.isBlank name then .ok current
        else rebuildSingle context.summaries current owner name) = .ok middle := by
      rw [howner, Bool.false_or]
      split
      · exact ⟨current, rfl⟩
      · rename_i hname
        have hrebuild : ∃ rebuilt, rebuildConversation context.summaries current owner name =
            .ok rebuilt := by
          unfold rebuildConversation
          rw [requiredField_ok.mpr ⟨howner, rfl⟩, requiredField_ok.mpr ⟨by simpa using hname, rfl⟩]
          cases hsummary : summarize context.summaries.instant current.messages (Text.trim owner)
            (Text.trim name) with
          | none => exact ⟨_, by simp only [bind, Except.bind, hsummary]; rfl⟩
          | some summary => exact ⟨_, by simp only [bind, Except.bind, hsummary]; rfl⟩
        obtain ⟨rebuilt, hrebuilt⟩ := hrebuild
        unfold rebuildSingle
        rw [hrebuilt]
        change ∃ middle, (ite _ _ _) = _
        split
        · exact ensureFromSummary_total hanswers _ name
        · exact ⟨_, rfl⟩
    obtain ⟨middle, hmiddle⟩ := hfirst
    obtain ⟨last, hlast⟩ := ih middle
    exact ⟨last, by rw [List.foldlM_cons, hmiddle]; exact hlast⟩

theorem markRowsRead_total (p : StoredMessage → Bool) :
    ∃ result, markRowsRead context db owner ids p = .ok result := by
  unfold markRowsRead
  dsimp only
  split
  · obtain ⟨rebuilt, hrebuilt⟩ := rebuildTouched_total hanswers howner
      { db with
        messages := updateWhere p (fun row => { row with isRead := true }) db.messages
        distinctMessages := db.distinctMessages.updateWhere fun _ => rfl }
      (ids.filterMap nonEmpty)
    exact ⟨_, by rw [hrebuilt]; rfl⟩
  · exact ⟨_, rfl⟩

theorem markThreadMessagesReadUpToSeq_total (hseq : IsWatermark seq) :
    ∃ result, markThreadMessagesReadUpToSeq context db owner ids seq = .ok result := by
  unfold markThreadMessagesReadUpToSeq
  rw [normalizeReadWatermarkSeq_eq hseq]
  change ∃ result, (ite _ _ _) = _
  split
  · exact ⟨_, rfl⟩
  · exact markRowsRead_total hanswers howner _

theorem markUpToWatermark_total (ids : List String) {effective : EffectiveReadWatermark} (hdb : Readable db)
    (heffective : effective.IsReadable) :
    ∃ result, markUpToWatermark context db owner ids effective = .ok result := by
  unfold markUpToWatermark
  split
  · rename_i seq hseq
    exact markThreadMessagesReadUpToSeq_total hanswers howner (heffective.1 seq hseq)
  · rename_i id _ hid
    unfold markThreadMessagesReadUpToMessage
    rw [requiredText_eq (heffective.2 id hid)]
    change ∃ result, (ite _ _ _) = _
    split
    · exact ⟨_, rfl⟩
    · split
      · rename_i number hnumber
        obtain ⟨row, hrow, hnumber⟩ := Option.bind_eq_some_iff.mp hnumber
        exact markThreadMessagesReadUpToSeq_total hanswers howner (isWatermark_toString
          (hdb.sequences row (List.mem_of_find?_eq_some hrow) number hnumber))
      · exact markRowsRead_total hanswers howner _
  · exact ⟨_, rfl⟩

end Registry

theorem writeReadState_total (tables : ReadTables κ) (replaces : Bool) (record : ThreadReadState)
    (howner : Text.isBlank record.ownerIdentityId = false)
    (hscope : Text.isBlank record.threadScope = false)
    (hid : Text.isBlank record.threadId = false) (hat : Text.isBlank record.updatedAt = false) :
    ∃ tables', writeReadState tables record replaces = .ok tables' := by
  have hrow : ∃ row, record.columns = .ok row := by
    unfold ThreadReadState.columns
    simp only [Tx.except_bind_ok, requiredField_ok]
    exact ⟨_, _, ⟨howner, rfl⟩, _, ⟨hscope, rfl⟩, _, ⟨hid, rfl⟩, _, ⟨hat, rfl⟩, rfl⟩
  cases replaces with
  | true => exact Tx.except_bind_total hrow fun _ _ => ⟨_, rfl⟩
  | false => exact Tx.except_bind_total hrow fun _ _ => ⟨_, rfl⟩

theorem isWatermark_nonEmpty {current : Option String} {value : String}
    (h : ∀ seq, current = some seq → IsWatermark seq) (hvalue : current.bind nonEmpty = some value) :
    IsWatermark value := by
  obtain ⟨seq, hseq, hnonEmpty⟩ := Option.bind_eq_some_iff.mp hvalue
  have hseq := h seq hseq
  rw [← (nonEmpty_eq_some.mp hnonEmpty).2, Decimal.trim_of_isCanonical hseq.1]
  exact hseq

theorem maxEffectiveReadWatermark_readable (context : ReadContext κ)
    {left right : EffectiveReadWatermark} (hleft : left.IsReadable) (hright : right.IsReadable) :
    (maxEffectiveReadWatermark context left right).IsReadable := by
  unfold maxEffectiveReadWatermark
  split
  · exact hright
  · split
    · exact hleft
    · split
      · exact hright
      · exact hleft

section Mark

variable (ownerDid : String) (input : MarkThreadReadInput) {key : String × String}

theorem markThreadReadWatermark_total (hdb : Readable db) (hanswers : Answering context db owner)
    (howner : IsName owner) (hkey : threadReadStateKey input.thread = .ok key)
    (hscope : Text.isBlank key.1 = false) (hid : Text.isBlank key.2 = false)
    (hseq : ∀ seq, input.readWatermarkSeq = some seq → IsWatermark seq)
    (hat : Text.isBlank ((input.readWatermarkAt.bind nonEmpty).getD context.nowText) = false) :
    ∃ result, markThreadReadWatermark context db owner ownerDid input = .ok result := by
  have hthread : Text.isBlank ((context.resolveConversation db.others.others owner key.2).getD
      key.2) = false := by
    cases hresolved : context.resolveConversation db.others.others owner key.2 with
    | none => exact hid
    | some target => exact hanswers.resolved key.2 target hresolved
  obtain ⟨ids, hids⟩ := hanswers.ids (Text.trim ownerDid) input.thread
  have hcurrent : ∃ current, getThreadReadState db.others owner key.1
      ((context.resolveConversation db.others.others owner key.2).getD key.2) = .ok current := by
    unfold getThreadReadState
    simp only [Tx.except_bind_ok, requiredField_ok]
    exact ⟨_, _, ⟨howner.1, rfl⟩, _, ⟨hscope, rfl⟩, _, ⟨hthread, rfl⟩, rfl⟩
  obtain ⟨current, hcurrent⟩ := hcurrent
  have hstored : ∀ seq, (current.bind (·.readWatermarkSeq)) = some seq → IsWatermark seq := by
    intro seq hseq
    obtain ⟨row, hrow, hseq⟩ := Option.bind_eq_some_iff.mp hseq
    rw [getThreadReadState_ok hcurrent] at hrow
    exact hdb.watermarks row (List.mem_of_find?_eq_some hrow) seq hseq
  have hstored' : ∀ seq, (current.bind fun row => row.readWatermarkSeq.bind nonEmpty) = some seq →
      IsWatermark seq := fun seq hvalue =>
    isWatermark_nonEmpty hstored (by rw [Option.bind_assoc]; exact hvalue)
  obtain ⟨previous, hprevious, hreadable⟩ := effective_total context owner ids
    (current.bind fun row => row.readWatermarkMessageId.bind nonEmpty) hdb hstored'
  obtain ⟨requested, hrequested, hreadable'⟩ := effective_total context owner ids
    (input.readWatermarkMessageId.bind nonEmpty) hdb fun _ => isWatermark_nonEmpty hseq
  obtain ⟨marked, hmarked⟩ := markUpToWatermark_total hanswers howner.1 ids hdb
    (maxEffectiveReadWatermark_readable context hreadable hreadable')
  have howner' : requiredText "owner_identity_id" owner = .ok owner := by
    rw [requiredText_eq howner.1, howner.2]
  unfold markThreadReadWatermark
  simp only [howner', hkey, hids, hcurrent, hprevious, hrequested, hmarked, Tx.except_ok_bind]
  exact Tx.except_bind_total (writeReadState_total _ _ _ howner.1 hscope hthread hat) fun _ _ => ⟨_, rfl⟩

end Mark

/-! ## The projection -/

theorem isBlank_groupConversationIdForRef {group : String} (h : Text.isBlank group = false) :
    Text.isBlank (groupConversationIdForRef group) = false := by
  unfold groupConversationIdForRef groupConversationId
  dsimp only
  split
  · rw [Text.isBlank_trim, h]
  · rw [Text.isBlank_trim, h, Text.trim_trim]
    change (("group:" ++ Text.trim group).toList.all Text.isWhiteSpace) = false
    rw [String.toList_append, List.all_append]
    exact Bool.and_eq_false_imp.mpr fun hprefix => absurd hprefix (by decide)

theorem projectedThread_key {conversationId : String} (kind : String)
    (h : Text.isBlank conversationId = false) :
    ∃ thread scope id, projectedThread kind conversationId = .ok thread ∧
      threadReadStateKey thread = .ok (scope, id) ∧ Text.isBlank scope = false ∧
        Text.isBlank id = false := by
  have htrim : Text.isBlank (Text.trim conversationId) = false := by rw [Text.isBlank_trim, h]
  have hgroup := isBlank_groupConversationIdForRef htrim
  have hscope : ∀ scope ∈ ["group", "direct", "thread"], Text.isBlank scope = false := by decide
  unfold projectedThread
  rw [requiredText_eq h, requiredText_eq h]
  split
  · refine ⟨.group (Text.trim conversationId), "group",
      groupConversationIdForRef (Text.trim conversationId), rfl, ?_, hscope "group" (by simp),
      hgroup⟩
    simp only [threadReadStateKey, requiredText_eq htrim, Tx.except_ok_bind, Text.trim_trim]
    rfl
  · refine ⟨.thread (Text.trim conversationId), ?_⟩
    simp only [threadReadStateKey, requiredText_eq htrim, Tx.except_ok_bind, Text.trim_trim]
    split
    · exact ⟨_, _, rfl, rfl, hscope "group" (by simp), hgroup⟩
    · split
      · exact ⟨_, _, rfl, rfl, hscope "direct" (by simp), htrim⟩
      · exact ⟨_, _, rfl, rfl, hscope "thread" (by simp), htrim⟩

/-- Rows of the outbox are at most committed. -/
def OutboxKept (tables tables' : ReadTables κ) : Prop :=
  ∀ row ∈ tables'.outbox, ∃ old ∈ tables.outbox, old.key = row.key ∧
    old.operationId = row.operationId ∧ (row.isLive = true → row = old)

theorem OutboxKept.of_eq (h : tables'.outbox = tables.outbox) : OutboxKept tables tables' := by
  intro row hrow
  rw [h] at hrow
  exact ⟨row, hrow, rfl, rfl, fun _ => rfl⟩

theorem acknowledgeReadOutbox_total (owner aggregateId : String) (conversation : Option String)
    (now : Int) (houtbox : ∀ row ∈ tables.outbox, row.isLive = true → row.IsReadable)
    (hseq : Decimal.isCanonical seq = true) :
    ∃ tables', acknowledgeReadOutbox tables owner aggregateId conversation seq now = .ok tables' ∧
      OutboxKept tables tables' := by
  obtain ⟨ids, hids⟩ := reachedIds_total hseq
    (show ∀ row ∈ tables.outbox.filter (·.isAddressed owner aggregateId conversation),
      row.IsReadable by
      intro row hrow
      obtain ⟨hrow, haddressed⟩ := List.mem_filter.mp hrow
      simp only [LocalMutation.isAddressed, Bool.and_eq_true] at haddressed
      exact houtbox row hrow haddressed.1.2)
  refine ⟨_, Tx.except_bind_ok.mpr ⟨ids, hids, rfl⟩, ?_⟩
  intro row hrow
  obtain ⟨old, hold, rfl⟩ := mem_updateWhere.mp hrow
  refine ⟨old, hold, ?_⟩
  split
  · refine ⟨rfl, rfl, fun hlive => ?_⟩
    simp [LocalMutation.isLive, LocalMutation.commit] at hlive
  · exact ⟨rfl, rfl, fun _ => rfl⟩

theorem Readable.of_flagged (h : Readable db) (hflagged : ∃ p, db'.messages =
      updateWhere p (fun row => { row with isRead := true }) db.messages)
    (hwatermarks : db'.others.AllWatermarks IsWatermark)
    (houtbox : OutboxKept db.others db'.others) : Readable db' := by
  obtain ⟨p, hmessages⟩ := hflagged
  have hmessage : ∀ row ∈ db'.messages, ∃ old ∈ db.messages, row.serverSeq = old.serverSeq ∧
      row.metadata = old.metadata := by
    intro row hrow
    rw [hmessages] at hrow
    obtain ⟨old, hold, rfl⟩ := mem_updateWhere.mp hrow
    refine ⟨old, hold, ?_⟩
    split
    · exact ⟨rfl, rfl⟩
    · exact ⟨rfl, rfl⟩
  refine ⟨hwatermarks, ?_, ?_, ?_⟩
  · intro row hrow hlive
    obtain ⟨old, hold, -, -, hsame⟩ := houtbox row hrow
    obtain rfl := hsame hlive
    exact h.outbox row hold hlive
  · intro row hrow
    obtain ⟨old, hold, hseq, -⟩ := hmessage row hrow
    rw [hseq]
    exact h.sequences old hold
  · intro row hrow
    obtain ⟨old, hold, -, hmetadata⟩ := hmessage row hrow
    rw [metadataName, hmetadata]
    exact h.threadKeys old hold

section Projection

variable {ownerDid kind conversationId : String} {state : ReadStateApply} {now : Int}

/-- The waiting state agrees with the binding, its columns can be read, and its version is not
the stored one of another watermark. -/
structure Projectable (db : ReadDb κ) (owner : String) (state : ReadStateApply)
    (kind conversationId : String) : Prop where
  agrees : kind = state.threadKind
  watermark : IsWatermark state.readWatermarkSeq
  version : Decimal.isCanonical state.stateVersion = true
  occurredAt : Text.isBlank state.occurredAt = false
  newer : kind ≠ "direct" → ∀ row version, db.others.stateOf owner kind conversationId = some row →
    row.remoteStateVersion = some version → Decimal.isCanonical version = true ∧
      (Decimal.order state.stateVersion version = .eq →
        Decimal.order state.readWatermarkSeq (localWatermark (some row)) ≠ .gt)

section Order

variable (hstate : Projectable db owner state kind conversationId)
  (hlocal : IsWatermark (localWatermark (db.others.stateOf owner kind conversationId)))

include hstate hlocal

theorem isStaleProjection_total :
    ∃ stale, isStaleProjection kind (db.others.stateOf owner kind conversationId) state =
      .ok stale := by
  unfold isStaleProjection
  split
  · exact ⟨false, rfl⟩
  · rename_i hdirect
    split
    · exact ⟨false, rfl⟩
    · rename_i version hversion
      obtain ⟨row, hrow, hversion⟩ := Option.bind_eq_some_iff.mp hversion
      obtain ⟨hcanonical, hnewer⟩ := hstate.newer hdirect row version hrow hversion
      rw [compareDecimal_canonical hstate.version hcanonical, Tx.except_ok_bind]
      cases horder : Decimal.order state.stateVersion version with
      | lt => exact ⟨true, rfl⟩
      | gt => exact ⟨false, rfl⟩
      | eq =>
        dsimp only
        rw [compareDecimal_canonical hstate.watermark.1 hlocal.1, Tx.except_ok_bind, hrow]
        refine ⟨true, ?_⟩
        have hnot : (Decimal.order state.readWatermarkSeq (localWatermark (some row)) == .gt) =
            false := by simpa using hnewer horder
        rw [hnot]
        rfl

theorem isOvertaken_total :
    ∃ overtaken, isOvertaken kind (db.others.stateOf owner kind conversationId) state =
      .ok overtaken := by
  unfold isOvertaken
  split
  · rw [compareDecimal_canonical hstate.watermark.1 hlocal.1]
    exact ⟨_, rfl⟩
  · exact ⟨false, rfl⟩

end Order

theorem MarkTrace.watermarks {input : MarkThreadReadInput} {result : MarkThreadReadResult}
    (trace : MarkTrace context db owner ownerDid input result db') (hdb : Readable db)
    (hseq : ∀ seq, input.readWatermarkSeq = some seq → IsWatermark seq) :
    db'.others.AllWatermarks IsWatermark := by
  obtain ⟨requested, hrequested, hreadable⟩ := effective_total context trace.owner
    trace.conversationIds (input.readWatermarkMessageId.bind nonEmpty) hdb fun _ =>
      isWatermark_nonEmpty hseq
  have hsame : requested = trace.requested :=
    Except.ok.inj (hrequested.symm.trans trace.requested_ok)
  apply trace.all hdb.watermarks
  intro row hrow seq hrowSeq
  rw [(columns_ok hrow).2, trace.record_seq] at hrowSeq
  refine isWatermark_nonEmpty (fun seq hseq => ?_) hrowSeq
  split at hseq
  · cases hseq
  · exact hreadable.1 seq (hsame ▸ hseq)

section Total

variable (hdb : Readable db) (hanswers : Answering context db owner)
  (howner : IsName owner) (hkind : IsName kind) (hconversation : IsName conversationId)
  (hstate : Projectable db owner state kind conversationId)

include hdb hanswers howner hkind hconversation hstate

theorem projectWatermark_total {current : Option ThreadReadState}
    (hcurrent : IsWatermark (localWatermark current)) :
    ∃ db', projectWatermark context db owner ownerDid state kind conversationId current now =
      .ok db' ∧ Readable db' ∧ OutboxKept db.others db'.others := by
  obtain ⟨thread, scope, id, hthread, hkey, hscope, hid⟩ :=
    projectedThread_key kind hconversation.1
  have hpending := compareDecimal_canonical hcurrent.1 hstate.watermark.1
  have horder := compareDecimal_canonical hstate.watermark.1 hcurrent.1
  generalize Decimal.order (localWatermark current) state.readWatermarkSeq = pending at hpending
  generalize Decimal.order state.readWatermarkSeq (localWatermark current) = order at horder
  have hseq : ∀ seq, (projectedMark thread state (pending == .gt)).readWatermarkSeq = some seq →
      IsWatermark seq := fun seq hseq => Option.some.inj hseq ▸ hstate.watermark
  obtain ⟨⟨result, marked⟩, hmarked⟩ := markThreadReadWatermark_total ownerDid
    (projectedMark thread state (pending == .gt)) hdb hanswers howner hkey
    hscope hid hseq (by
      change Text.isBlank ((nonEmpty state.occurredAt).getD context.nowText) = false
      rw [nonEmpty_eq_some.mpr ⟨hstate.occurredAt, rfl⟩]
      simpa using hstate.occurredAt)
  obtain ⟨trace⟩ := markThreadReadWatermark_ok hmarked
  obtain ⟨replaced, hreplaced⟩ := writeReadState_total marked.others true
    (projectedState owner ownerDid kind conversationId current state (order == .gt)
      (pending == .gt)) howner.1 hkind.1 hconversation.1 hstate.occurredAt
  change replaceThreadReadState _ _ = _ at hreplaced
  obtain ⟨row, hrow, hwritten⟩ := Tx.except_bind_ok.mp hreplaced
  have htables : replaced = marked.others.write row fun _ => row := (Except.ok.inj hwritten).symm
  have houtbox : replaced.outbox = db.others.outbox := by
    rw [htables]
    exact (markThreadReadWatermark_frame hmarked).1
  obtain ⟨acknowledged, hacknowledged, hkept⟩ := acknowledgeReadOutbox_total owner
    state.remoteThreadKey (some conversationId) now (houtbox ▸ hdb.outbox) hstate.watermark.1
  have hkept' : OutboxKept db.others acknowledged := by
    intro row hrow
    obtain ⟨old, hold, hsame⟩ := hkept row hrow
    exact ⟨old, houtbox ▸ hold, hsame⟩
  have hwatermarks : acknowledged.AllWatermarks IsWatermark := by
    refine AllWatermarks.of_eq (acknowledgeReadOutbox_frame hacknowledged).1 ?_
    rw [htables]
    refine write_all (trace.watermarks hdb hseq) (fun seq hrowSeq => ?_) fun _ => .inl rfl
    rw [(columns_ok hrow).2] at hrowSeq
    refine isWatermark_nonEmpty (fun seq hseq => ?_) hrowSeq
    obtain rfl := Option.some.inj hseq
    split
    · exact hstate.watermark
    · exact hcurrent
  obtain ⟨p, hmarkedFrom⟩ := trace.marked_ok
  obtain ⟨-, -, -, hmessages, -⟩ := trace.write
  unfold projectWatermark
  simp only [hpending, hthread, hmarked, horder, hreplaced, hacknowledged, Tx.except_ok_bind]
  exact ⟨_, rfl, hdb.of_flagged ⟨p, hmessages.trans hmarkedFrom.messages⟩ hwatermarks hkept',
    hkept'⟩

theorem projectRemoteReadState_total :
    ∃ db', projectRemoteReadState context db owner ownerDid state kind conversationId now =
      .ok db' ∧ Readable db' ∧ OutboxKept db.others db'.others := by
  have hcurrent : getThreadReadState db.others owner kind conversationId =
      .ok (db.others.stateOf owner kind conversationId) := by
    unfold getThreadReadState
    rw [requiredField_ok.mpr howner, requiredField_ok.mpr hkind, requiredField_ok.mpr hconversation]
    rfl
  have hlocal : IsWatermark (localWatermark (db.others.stateOf owner kind conversationId)) :=
    isWatermark_localWatermark fun row hrow =>
      hdb.watermarks row (List.mem_of_find?_eq_some hrow)
  have hsame : (kind != state.threadKind) = false := by simp [hstate.agrees]
  obtain ⟨stale, hstale⟩ := isStaleProjection_total hstate hlocal
  obtain ⟨overtaken, hovertaken⟩ := isOvertaken_total hstate hlocal
  unfold projectRemoteReadState
  rw [hsame]
  change ∃ db', (getThreadReadState _ _ _ _ >>= _) = _ ∧ _
  simp only [hcurrent, hstale, hovertaken, Tx.except_ok_bind]
  cases stale with
  | true =>
    exact ⟨_, rfl, hdb.of_flagged ⟨fun _ => false, by simp [updateWhere, withReads]⟩
      hdb.watermarks (.of_eq rfl), .of_eq rfl⟩
  | false =>
    cases overtaken with
    | true =>
      obtain ⟨acknowledged, hacknowledged, hkept⟩ := acknowledgeReadOutbox_total owner
        state.remoteThreadKey (some conversationId) now hdb.outbox hstate.watermark.1
      simp only [hacknowledged, Tx.except_ok_bind]
      exact ⟨_, rfl, hdb.of_flagged ⟨fun _ => false, by simp [updateWhere, withReads]⟩
        (AllWatermarks.of_eq (acknowledgeReadOutbox_frame hacknowledged).1 hdb.watermarks) hkept,
        hkept⟩
    | false =>
      exact projectWatermark_total hdb hanswers howner hkind hconversation hstate hlocal

end Total

end Projection

/-! ## The local mark -/

/-- The drawn ids are canonical texts, and no mutation of the owner has them. -/
structure FreshDraw (tables : ReadTables κ) (draw : OutboxDraw) (owner : String) : Prop where
  texts : ∀ text ∈ [draw.mutationId, draw.operationId], IsName text
  unused : ∀ row ∈ tables.outbox, row.ownerIdentityId = owner →
    row.mutationId ≠ draw.mutationId ∧ row.operationId ≠ draw.operationId

theorem FreshDraw.kept {draw : OutboxDraw} (h : FreshDraw tables draw owner)
    (hkept : OutboxKept tables tables') : FreshDraw tables' draw owner := by
  refine ⟨h.texts, fun row hrow howner => ?_⟩
  obtain ⟨old, hold, hkey, hoperation, -⟩ := hkept row hrow
  simp only [LocalMutation.key, Prod.mk.injEq] at hkey
  rw [← hkey.2, ← hoperation]
  exact h.unused old hold (hkey.1.trans howner)

theorem validateRequired_eq {field text : String} (h : IsName text) :
    validateRequired field text = .ok () := by
  simp [validateRequired, h]

section Queue

variable {draw : OutboxDraw} {binding : SyncThreadBinding}

theorem upsertReadOutbox_total {threadKind threadId remoteThreadKey : String}
    {messageId at_ : Option String}
    (houtbox : ∀ row ∈ tables.outbox, row.isLive = true → row.IsReadable)
    (hdraw : FreshDraw tables draw owner) (hseq : Decimal.isCanonical seq = true)
    (howner : IsName owner) (hkey : IsName remoteThreadKey) :
    ∃ queued, upsertReadOutbox tables draw owner threadKind threadId remoteThreadKey seq messageId
      at_ = .ok queued := by
  have hvalid : validateDecimal "read_watermark_seq" seq = .ok () := by simp [validateDecimal, hseq]
  unfold upsertReadOutbox
  rw [hvalid, Tx.except_ok_bind]
  dsimp only
  cases hjoined : coalescibleRow tables.outbox owner remoteThreadKey with
  | some row =>
    have hmem : row ∈ tables.outbox.filter fun row =>
        row.isOf owner remoteThreadKey && row.isCoalescible :=
      (sortDescending_perm _).mem_iff.mp (List.mem_of_mem_head? hjoined)
    obtain ⟨hrow, hpending⟩ := List.mem_filter.mp hmem
    have hlive : row.isLive = true := by
      simp only [LocalMutation.isCoalescible, Bool.and_eq_true, beq_iff_eq] at hpending
      simp [LocalMutation.isLive, hpending.2.1]
    obtain ⟨watermark, hwatermark, hcanonical⟩ := houtbox row hrow hlive
    obtain ⟨text, htext, hstring⟩ := Option.bind_eq_some_iff.mp hwatermark
    obtain ⟨payload, hpayload, hget⟩ := Option.bind_eq_some_iff.mp htext
    simp only [hpayload, Option.elim_some, Tx.except_ok_bind, hget, Option.bind_some, hstring,
      Option.getD_some, compareDecimal_canonical hseq hcanonical]
    split
    · exact ⟨_, rfl⟩
    · exact ⟨_, rfl⟩
  | none =>
    refine Tx.except_bind_total ?_ fun _ _ => ⟨_, rfl⟩
    unfold enqueueLocalMutation
    rw [validateRequired_eq howner, validateRequired_eq (hdraw.texts _ (by simp)),
      validateRequired_eq (hdraw.texts _ (by simp)), validateRequired_eq hkey]
    change ∃ queued, insertMutation _ _ = .ok queued
    unfold insertMutation
    rw [dif_neg, if_neg]
    · exact ⟨_, rfl⟩
    · rw [List.any_eq_true]
      rintro ⟨row, hrow, htaken⟩
      simp only [Bool.and_eq_true, beq_iff_eq] at htaken
      exact (hdraw.unused row hrow htaken.1).2 htaken.2
    · intro hmem
      obtain ⟨row, hrow, hkey⟩ := List.mem_map.mp hmem
      obtain ⟨howner, hid⟩ := Prod.ext_iff.mp hkey
      exact (hdraw.unused row hrow howner).1 hid

theorem newestCovered_readable {conversationId kind : String} {p : StoredMessage → Bool}
    {row : StoredMessage} (hdb : Readable db)
    (h : newestCovered db owner conversationId kind seq p = some row) :
    Decimal.isCanonical (toString (row.serverSeq.getD 0)) = true ∧
      ∀ key, metadataName row "remote_thread_key" = some key → IsName key := by
  have hmem : row ∈ db.messages := by
    have hsorted := (sortDescending_perm _).mem_iff.mp (List.mem_of_mem_head? h)
    exact (List.mem_filter.mp hsorted).1
  refine ⟨?_, hdb.threadKeys row hmem⟩
  cases hseq : row.serverSeq with
  | none => decide
  | some number => exact (isWatermark_toString (hdb.sequences row hmem number hseq)).1

theorem ordinaryReadOutboxTarget_total (owner threadKind conversationId : String)
    (messageId : Option String) (hdb : Readable db) (hseq : Decimal.isCanonical seq = true) :
    ∃ target, ordinaryReadOutboxTarget db owner threadKind conversationId seq messageId =
        .ok target ∧
      ∀ found ∈ target, Decimal.isCanonical found.seq = true ∧
        ∀ key ∈ found.remoteThreadKey, IsName key := by
  have hvalid : validateDecimal "read_watermark_seq" seq = .ok () := by simp [validateDecimal, hseq]
  unfold ordinaryReadOutboxTarget
  rw [hvalid, Tx.except_ok_bind]
  split
  · refine ⟨_, rfl, fun found hfound => ?_⟩
    obtain ⟨row, hrow, rfl⟩ := Option.map_eq_some_iff.mp hfound
    exact ⟨(newestCovered_readable hdb hrow).1, fun _ h => (nomatch h)⟩
  · refine ⟨_, rfl, fun found hfound => ?_⟩
    obtain rfl := Option.some.inj hfound
    cases hrow : newestCovered db owner conversationId "direct" seq fun _ => true with
    | none => exact ⟨hseq, fun _ h => (nomatch h)⟩
    | some row => exact newestCovered_readable hdb hrow

theorem queueWaiting_total (hdb : Readable db)
    (hdraw : FreshDraw db.others draw binding.ownerIdentityId)
    (howner : IsName binding.ownerIdentityId) (hkey : IsName binding.remoteThreadKey) :
    ∃ db', queueWaiting db draw binding = .ok db' := by
  unfold queueWaiting
  dsimp only
  split
  · exact ⟨db, rfl⟩
  · rename_i row hpending
    obtain ⟨hrow, hwaits⟩ := List.mem_filter.mp
      ((sortDescending_perm _).mem_iff.mp (List.mem_of_mem_head? hpending))
    simp only [Bool.and_eq_true] at hwaits
    obtain ⟨seq, hseq⟩ := Option.isSome_iff_exists.mp hwaits.2
    have hcanonical : Decimal.isCanonical (row.readWatermarkSeq.getD "") = true := by
      rw [hseq]
      exact (hdb.watermarks row hrow seq hseq).1
    obtain ⟨target, htarget, hfound⟩ := ordinaryReadOutboxTarget_total
      binding.ownerIdentityId row.threadScope binding.conversationId row.readWatermarkMessageId hdb
      hcanonical
    rw [htarget, Tx.except_ok_bind]
    cases target with
    | none =>
      dsimp only
      split
      · exact ⟨_, rfl⟩
      · exact ⟨_, rfl⟩
    | some target =>
      obtain ⟨htargetSeq, htargetKey⟩ := hfound target rfl
      refine Tx.except_bind_total (upsertReadOutbox_total hdb.outbox hdraw htargetSeq howner ?_)
        fun _ _ => ⟨_, rfl⟩
      cases hname : target.remoteThreadKey with
      | none => exact hkey
      | some name => exact htargetKey name hname

end Queue

end LocalState
end Awiki

import Awiki.SummaryUpserts
import Mathlib.Data.List.MinMax
import Mathlib.Data.List.Sort

/-!
# The deltas against the rebuild

A rebuild reads the contributing rows of a conversation only, and it reads them up to their
order in the table.  A written message changes one of these rows; the others, the rest of the
conversation, stay.  The deltas are compared with the rebuild over that rest.
-/

namespace Awiki
namespace LocalState

open Rows

/-! ## The rows that a summary counts -/

section Live

variable {instant : String → Option Int} {messages messages' : List StoredMessage}
  {owner conversationId : String}

def liveRows (messages : List StoredMessage) (owner conversationId : String) :
    List StoredMessage :=
  (conversationRows messages owner conversationId).filter (·.contributesToSummary)

variable {row : StoredMessage} {rows : List StoredMessage} {last row' : StoredMessage}

theorem liveRows_perm_filter : (liveRows messages owner conversationId).Perm
    (messages.filter fun row => row.isIn owner conversationId && row.contributesToSummary) := by
  have hsorted := List.perm_insertionSort (fun a b : StoredMessage => a.sqlKey ≤ b.sqlKey)
    (messages.filter (·.isIn owner conversationId))
  refine (hsorted.filter _).trans (.of_eq ?_)
  simp only [List.filter_filter, Bool.and_comm]

theorem mem_liveRows :
    row ∈ liveRows messages owner conversationId ↔
      row ∈ messages ∧ row.isIn owner conversationId = true ∧ row.contributesToSummary = true := by
  simp [liveRows_perm_filter.mem_iff]

theorem lastOf_eq_argmax (rows : List StoredMessage) :
    lastOf instant none rows =
      (rows.filter (·.contributesToSummary)).argmax (·.orderKey instant) := by
  unfold lastOf List.argmax
  congr 1
  funext start row
  cases start with
  | none => rfl
  | some current => simp [List.argAux]

theorem lastOf_liveRows_eq : lastOf instant none (liveRows messages owner conversationId) =
    (liveRows messages owner conversationId).argmax (·.orderKey instant) := by
  rw [lastOf_eq_argmax, liveRows, List.filter_filter]
  simp

theorem mem_of_lastOf
    (h : lastOf instant none (liveRows messages owner conversationId) = some last) :
    last ∈ liveRows messages owner conversationId :=
  List.argmax_mem (lastOf_liveRows_eq.symm.trans h)

theorem le_of_lastOf (h : lastOf instant none (liveRows messages owner conversationId) = some last)
    (hrow : row ∈ liveRows messages owner conversationId) :
    row.orderKey instant ≤ last.orderKey instant :=
  List.le_of_mem_argmax hrow (lastOf_liveRows_eq.symm.trans h)

theorem firstMention_filter (rows : List StoredMessage) :
    firstMention (rows.filter (·.contributesToSummary)) = firstMention rows := by
  unfold firstMention
  rw [List.filter_filter]
  congr 4
  funext row
  cases row.contributesToSummary <;> simp

def summaryOf (instant : String → Option Int) (conversationId : String)
    (rows : List StoredMessage) : Option Summary :=
  (lastOf instant none rows).map (Summary.fromLast conversationId rows.length
    (rows.countP (·.isUnreadIncoming)) (rows.countP (·.isUnreadMention)) (firstMention rows))

theorem summarize_eq_summaryOf :
    summarize instant messages owner conversationId =
      summaryOf instant conversationId (liveRows messages owner conversationId) := by
  rw [summarize_eq, summaryOf, lastOf_liveRows_eq, liveRows, firstMention_filter, lastOf_eq_argmax]
  simp only [← countP_conversationRows, List.countP_eq_length_filter, List.filter_filter,
    Bool.and_comm]

theorem nodup_of_uniqueKey (h : UniqueKey StoredMessage.key messages) : messages.Nodup :=
  List.Nodup.of_map _ h

theorem liveRows_nodup (h : UniqueKey StoredMessage.key messages) :
    (liveRows messages owner conversationId).Nodup :=
  liveRows_perm_filter.nodup_iff.mpr ((nodup_of_uniqueKey h).filter _)

theorem liveRows_sorted :
    (liveRows messages owner conversationId).Pairwise fun a b => a.sqlKey ≤ b.sqlKey := by
  have htotal : Std.Total fun a b : StoredMessage => a.sqlKey ≤ b.sqlKey :=
    ⟨fun a b => le_total a.sqlKey b.sqlKey⟩
  have htrans : IsTrans StoredMessage fun a b => a.sqlKey ≤ b.sqlKey :=
    ⟨fun a b c => le_trans⟩
  exact (List.pairwise_insertionSort _ _).filter _

theorem eq_of_msgId (h : UniqueKey StoredMessage.key messages)
    (hrow : row ∈ liveRows messages owner conversationId)
    (hrow' : row' ∈ liveRows messages owner conversationId) (hid : row.msgId = row'.msgId) :
    row = row' := by
  obtain ⟨hmem, hin, -⟩ := mem_liveRows.mp hrow
  obtain ⟨hmem', hin', -⟩ := mem_liveRows.mp hrow'
  apply h.eq_of_key_eq hmem hmem'
  rw [StoredMessage.key, StoredMessage.key, owner_of_isIn hin, owner_of_isIn hin', hid]

theorem filter_liveRows_congr {p : StoredMessage → Bool} (h : UniqueKey StoredMessage.key messages)
    (h' : UniqueKey StoredMessage.key messages')
    (hmem : ∀ row, p row = true → (row ∈ liveRows messages owner conversationId ↔
      row ∈ liveRows messages' owner conversationId)) :
    (liveRows messages owner conversationId).filter p =
      (liveRows messages' owner conversationId).filter p := by
  have hiff : ∀ row, row ∈ (liveRows messages owner conversationId).filter p ↔
      row ∈ (liveRows messages' owner conversationId).filter p := by
    intro row
    rw [List.mem_filter, List.mem_filter, and_congr_left (hmem row)]
  apply List.Perm.eq_of_pairwise _ (liveRows_sorted.filter p) (liveRows_sorted.filter p)
  · exact (List.perm_ext_iff_of_nodup ((liveRows_nodup h).filter p)
      ((liveRows_nodup h').filter p)).mpr hiff
  · intro a b ha hb hab hba
    apply eq_of_msgId h (List.mem_of_mem_filter ha) (List.mem_of_mem_filter ((hiff b).mpr hb))
    exact congrArg (fun key => (ofLex (ofLex key).2).2) (le_antisymm hab hba)

theorem liveRows_congr (h : UniqueKey StoredMessage.key messages)
    (h' : UniqueKey StoredMessage.key messages')
    (hmem : ∀ row, row ∈ liveRows messages owner conversationId ↔
      row ∈ liveRows messages' owner conversationId) :
    liveRows messages owner conversationId = liveRows messages' owner conversationId := by
  simpa using filter_liveRows_congr (p := fun _ => true) h h' fun row _ => hmem row

/-! ### One changed row -/

def counted (owner conversationId : String) (row : StoredMessage) : List StoredMessage :=
  if row.isIn owner conversationId && row.contributesToSummary then [row] else []

theorem mem_counted :
    row' ∈ counted owner conversationId row ↔
      row' = row ∧ row.isIn owner conversationId = true ∧ row.contributesToSummary = true := by
  unfold counted
  by_cases h : (row.isIn owner conversationId && row.contributesToSummary) = true
  · simpa [h] using fun _ => by simpa using h
  · have hnot : ¬ (row.isIn owner conversationId = true ∧ row.contributesToSummary = true) := by
      simpa using h
    simp [h, hnot]

theorem counted_eq (h : row.isIn owner conversationId = true)
    (hcontributes : row.contributesToSummary = true) :
    counted owner conversationId row = [row] := by
  simp [counted, h, hcontributes]

/-- The rows of a conversation but for one message. -/
def restRows (messages : List StoredMessage) (owner msgId conversationId : String) :
    List StoredMessage :=
  liveRows (deleteWhere (·.isMessage owner msgId) messages) owner conversationId

variable {msgId : String}

theorem mem_restRows :
    row ∈ restRows messages owner msgId conversationId ↔
      row ∈ liveRows messages owner conversationId ∧ row.isMessage owner msgId = false := by
  rw [restRows, mem_liveRows, mem_liveRows, mem_deleteWhere]
  tauto

theorem find?_isMessage (h : UniqueKey StoredMessage.key messages) (hmem : row ∈ messages)
    (hrow : row.isMessage owner msgId = true) :
    messages.find? (·.isMessage owner msgId) = some row := by
  apply h.find?_eq_some hmem hrow
  intro other _ hother
  simp only [MessageRow.isMessage, Bool.and_eq_true, beq_iff_eq] at hother hrow
  rw [StoredMessage.key, StoredMessage.key, hother.1, hother.2, hrow.1, hrow.2]

theorem liveRows_perm (h : UniqueKey StoredMessage.key messages)
    (hrow : messages.find? (·.isMessage owner msgId) = some row) (conversationId : String) :
    (liveRows messages owner conversationId).Perm (counted owner conversationId row ++
      restRows messages owner msgId conversationId) := by
  have hperm : messages.Perm (row :: deleteWhere (·.isMessage owner msgId) messages) := by
    apply h.perm_deleteWhere (List.mem_of_find?_eq_some hrow) (List.find?_some hrow)
    intro other hother hkey
    rw [Option.some.inj ((find?_isMessage h hother hkey).symm.trans hrow)]
  refine liveRows_perm_filter.trans ((hperm.filter _).trans ?_)
  rw [List.filter_cons]
  unfold counted
  split
  · exact liveRows_perm_filter.symm.cons row
  · exact liveRows_perm_filter.symm

theorem restRows_of_none (hrow : messages.find? (·.isMessage owner msgId) = none) :
    restRows messages owner msgId conversationId = liveRows messages owner conversationId := by
  rw [List.find?_eq_none] at hrow
  rw [restRows, deleteWhere, List.filter_eq_self.mpr]
  intro row hmem
  simpa using hrow row hmem

/-! ### The last message and the first mention -/

theorem msgId_of_orderKey_eq (h : row.orderKey instant = row'.orderKey instant) :
    row.msgId = row'.msgId :=
  congrArg (fun key => (ofLex (ofLex (ofLex key).2).2).2) h

theorem lastOf_liveRows (h : UniqueKey StoredMessage.key messages)
    (hlast : last ∈ liveRows messages owner conversationId)
    (hmax : ∀ row ∈ liveRows messages owner conversationId,
      row.orderKey instant ≤ last.orderKey instant) :
    lastOf instant none (liveRows messages owner conversationId) = some last := by
  cases hfound : lastOf instant none (liveRows messages owner conversationId) with
  | none =>
    rw [List.argmax_eq_none.mp (lastOf_liveRows_eq.symm.trans hfound)] at hlast
    cases hlast
  | some other =>
    have hother := mem_of_lastOf hfound
    have hid := msgId_of_orderKey_eq (le_antisymm (hmax other hother) (le_of_lastOf hfound hlast))
    rw [eq_of_msgId h hother hlast hid]

theorem firstMention_congr (h : UniqueKey StoredMessage.key messages)
    (h' : UniqueKey StoredMessage.key messages')
    (hmem : ∀ row, row.isUnreadMention = true → (row ∈ liveRows messages owner conversationId ↔
      row ∈ liveRows messages' owner conversationId)) :
    firstMention (liveRows messages owner conversationId) =
      firstMention (liveRows messages' owner conversationId) := by
  unfold firstMention
  rw [filter_liveRows_congr h h']
  intro row hmention
  rw [Bool.and_eq_true] at hmention
  exact hmem row hmention.2

end Live

/-! ## A delta is a rebuild -/

variable {ρ : Type} {context : SummaryContext ρ} {owner conversationId : String}

structure RowWritten (owner msgId : String) (messages messages' : List StoredMessage)
    (previous : Option StoredMessage) (next : StoredMessage) : Prop where
  distinct : UniqueKey StoredMessage.key messages
  distinct' : UniqueKey StoredMessage.key messages'
  previous_eq : messages.find? (·.isMessage owner msgId) = previous
  next_eq : messages'.find? (·.isMessage owner msgId) = some next
  rest : ∀ row, row.isMessage owner msgId = false → (row ∈ messages' ↔ row ∈ messages)

namespace RowWritten

variable {instant : String → Option Int} {msgId : String}
  {messages messages' : List StoredMessage} {previous : Option StoredMessage}
  {next : StoredMessage}

variable (h : RowWritten owner msgId messages messages' previous next)

include h

theorem rest_eq (conversationId : String) :
    restRows messages' owner msgId conversationId =
      restRows messages owner msgId conversationId := by
  apply liveRows_congr (h.distinct'.deleteWhere _) (h.distinct.deleteWhere _)
  intro row
  rw [mem_liveRows, mem_liveRows, mem_deleteWhere, mem_deleteWhere]
  by_cases hrow : row.isMessage owner msgId = true
  · simp [hrow]
  · have hiff := h.rest row (by simpa using hrow)
    simp [hrow, hiff]

theorem perm_next (conversationId : String) :
    (liveRows messages' owner conversationId).Perm
      (counted owner conversationId next ++ restRows messages owner msgId conversationId) := by
  rw [← h.rest_eq]
  exact liveRows_perm h.distinct' h.next_eq conversationId

theorem perm_previous (conversationId : String) :
    (liveRows messages owner conversationId).Perm
      (previous.elim [] (counted owner conversationId) ++
        restRows messages owner msgId conversationId) := by
  cases hprevious : previous with
  | none =>
    rw [restRows_of_none (h.previous_eq.trans hprevious)]
    exact List.Perm.refl _
  | some row => exact liveRows_perm h.distinct (h.previous_eq.trans hprevious) conversationId

theorem next_isMessage : next.ownerIdentityId = owner ∧ next.msgId = msgId := by
  simpa [MessageRow.isMessage] using List.find?_some h.next_eq

theorem next_isIn : next.isIn owner next.conversation = true := by
  simp [StoredMessage.isIn, h.next_isMessage.1]

theorem liveRows_eq
    (hprevious : ∀ row, previous = some row → counted owner conversationId row = [])
    (hnext : counted owner conversationId next = []) :
    liveRows messages' owner conversationId = liveRows messages owner conversationId := by
  have hnone : previous.elim [] (counted owner conversationId) = [] := by
    cases hrow : previous with
    | none => rfl
    | some row => exact hprevious row hrow
  apply liveRows_congr h.distinct' h.distinct
  intro row
  rw [(h.perm_next conversationId).mem_iff, (h.perm_previous conversationId).mem_iff, hnext, hnone]

theorem firstMention_eq (hprevious : ∀ row, previous = some row → row.isUnreadMention = false)
    (hnext : next.isUnreadMention = false) (conversationId : String) :
    firstMention (liveRows messages' owner conversationId) =
      firstMention (liveRows messages owner conversationId) := by
  apply firstMention_congr h.distinct' h.distinct
  intro row hmention
  rw [(h.perm_next conversationId).mem_iff, (h.perm_previous conversationId).mem_iff,
    List.mem_append, List.mem_append, mem_counted]
  have hne : row ≠ next := by
    rintro rfl
    simp [hmention] at hnext
  cases hrow : previous with
  | none => simp [hne]
  | some old =>
    have hne' : row ≠ old := by
      rintro rfl
      simp [hprevious row hrow] at hmention
    simp [hne, hne', mem_counted]

theorem countP_next (hnext : counted owner conversationId next = [next])
    (p : StoredMessage → Bool) :
    (liveRows messages' owner conversationId).countP p =
      (restRows messages owner msgId conversationId).countP p + if p next then 1 else 0 := by
  rw [(h.perm_next conversationId).countP_eq, hnext, List.singleton_append, List.countP_cons]

theorem length_next (hnext : counted owner conversationId next = [next]) :
    (liveRows messages' owner conversationId).length =
      (restRows messages owner msgId conversationId).length + 1 := by
  rw [(h.perm_next conversationId).length_eq, hnext, List.singleton_append, List.length_cons]

end RowWritten

variable {summary : Summary}

theorem summaryOf_eq_some {instant : String → Option Int} {rows : List StoredMessage} :
    summaryOf instant conversationId rows = some summary ↔
      ∃ last, lastOf instant none rows = some last ∧
        summary = .fromLast conversationId rows.length (rows.countP (·.isUnreadIncoming))
          (rows.countP (·.isUnreadMention)) (firstMention rows) last := by
  unfold summaryOf
  rw [Option.map_eq_some_iff]
  simp only [@eq_comm _ summary]

namespace RowWritten

variable {instant : String → Option Int} {msgId : String}
  {messages messages' : List StoredMessage} {previous : Option StoredMessage}
  {next last : StoredMessage} {summary : Summary}

theorem summaryOf_next (h : RowWritten owner msgId messages messages' previous next)
    (hprevious : ∀ row, previous = some row → row.isUnreadMention = false)
    (hnext : counted owner conversationId next = [next]) (hmention : next.isUnreadMention = false)
    (hmax : lastOf instant none (liveRows messages' owner conversationId) = some last) :
    let rest := restRows messages owner msgId conversationId
    summaryOf instant conversationId (liveRows messages' owner conversationId) =
      some (.fromLast conversationId (rest.length + 1)
        (rest.countP (·.isUnreadIncoming) + next.unreadCountDelta)
        (rest.countP (·.isUnreadMention))
        (firstMention (liveRows messages owner conversationId)) last) := by
  rw [summaryOf_eq_some]
  refine ⟨last, hmax, ?_⟩
  rw [h.length_next hnext, h.countP_next hnext, h.countP_next hnext,
    h.firstMention_eq hprevious hmention, hmention]
  by_cases hunread : next.isUnreadIncoming = true <;>
    simp [StoredMessage.unreadCountDelta, hunread]

/-- Where the written message was not the last one, the later of the two is the last one now. -/
theorem lastOf_next (h : RowWritten owner msgId messages messages' previous next)
    (hnext : counted owner conversationId next = [next])
    (hlast : lastOf instant none (liveRows messages owner conversationId) = some last)
    (hne : last.msgId ≠ msgId) :
    lastOf instant none (liveRows messages' owner conversationId) =
      some (if last.orderKey instant < next.orderKey instant then next else last) := by
  have hmem : ∀ row, row ∈ liveRows messages' owner conversationId ↔
      row = next ∨ row ∈ restRows messages owner msgId conversationId := by
    intro row
    rw [(h.perm_next conversationId).mem_iff, hnext, List.singleton_append, List.mem_cons]
  have hrest : last ∈ restRows messages owner msgId conversationId := by
    rw [mem_restRows]
    exact ⟨mem_of_lastOf hlast, by simp [MessageRow.isMessage, hne]⟩
  have hle : ∀ row ∈ restRows messages owner msgId conversationId,
      row.orderKey instant ≤ last.orderKey instant := by
    intro row hrow
    exact le_of_lastOf hlast (mem_restRows.mp hrow).1
  split
  next hlater =>
    apply lastOf_liveRows h.distinct' ((hmem next).mpr (.inl rfl))
    intro row hrow
    rcases (hmem row).mp hrow with rfl | hrow
    · exact le_refl _
    · exact (hle row hrow).trans hlater.le
  next hearlier =>
    apply lastOf_liveRows h.distinct' ((hmem last).mpr (.inr hrest))
    intro row hrow
    rcases (hmem row).mp hrow with rfl | hrow
    · exact not_lt.mp hearlier
    · exact hle row hrow

section Delta

variable (hnext : counted owner conversationId next = [next])
  (hmention : next.isUnreadMention = false)
  (hlast : lastOf instant none (liveRows messages owner conversationId) = some last)
  (hsummary : summaryOf instant conversationId (liveRows messages owner conversationId) =
    some summary)
  (hne : last.msgId ≠ msgId)

include hnext hmention hlast hsummary hne

theorem summaryOf_insert_later (h : RowWritten owner msgId messages messages' none next)
    (hlater : last.orderKey instant < next.orderKey instant) :
    summaryOf instant conversationId (liveRows messages' owner conversationId) =
      some (.fromLast conversationId (summary.messageCount + 1)
        (summary.unreadCount + next.unreadCountDelta)
        (summary.unreadMentionCount + next.unreadMentionCountDelta)
        (summary.firstUnreadMentionMessageId.getD "") next) := by
  have hmax := h.lastOf_next hnext hlast hne
  rw [if_pos hlater] at hmax
  obtain ⟨last', hlast', rfl⟩ := summaryOf_eq_some.mp hsummary
  rw [h.summaryOf_next (by simp) hnext hmention hmax, restRows_of_none h.previous_eq]
  simp [Summary.fromLast, StoredMessage.unreadMentionCountDelta, hmention, nonEmpty_getD_nonEmpty]

/-- A row that is written to its conversation, where it is not the last one and does not become
the last one. -/
theorem summaryOf_earlier (h : RowWritten owner msgId messages messages' previous next)
    (hprevious : ∀ old, previous = some old →
      counted owner conversationId old = [old] ∧ old.isUnreadMention = false)
    (hearlier : ¬ last.orderKey instant < next.orderKey instant) :
    summaryOf instant conversationId (liveRows messages' owner conversationId) =
      some (summary.addCounts (previous.elim 1 fun _ => 0)
        (next.unreadCountDelta - previous.elim 0 (·.unreadCountDelta))
        (next.unreadMentionCountDelta - previous.elim 0 (·.unreadMentionCountDelta))
        (summary.firstUnreadMentionMessageId.getD "")) := by
  have hmax := h.lastOf_next hnext hlast hne
  rw [if_neg hearlier] at hmax
  obtain ⟨last', hlast', rfl⟩ := summaryOf_eq_some.mp hsummary
  obtain rfl : last = last' := Option.some.inj (hlast.symm.trans hlast')
  have hperm := h.perm_previous conversationId
  have hunread := hperm.countP_eq (·.isUnreadIncoming)
  have hmentions := hperm.countP_eq (·.isUnreadMention)
  have hlength := hperm.length_eq
  have hdelta : 0 ≤ next.unreadCountDelta := by
    unfold StoredMessage.unreadCountDelta
    split <;> omega
  rw [h.summaryOf_next (fun old hold => (hprevious old hold).2) hnext hmention hmax]
  cases previous with
  | none =>
    simp only [Option.elim_none, List.nil_append] at hunread hmentions hlength
    simp only [Summary.addCounts, Summary.fromLast, StoredMessage.unreadMentionCountDelta,
      hmention, nonEmpty_getD_nonEmpty, Option.some.injEq, Summary.mk.injEq, true_and, and_true,
      hunread, hmentions, hlength]
    simp
    omega
  | some old =>
    obtain ⟨hold, hmentionOld⟩ := hprevious old rfl
    simp only [Option.elim_some, hold, List.singleton_append, List.countP_cons, hmentionOld,
      List.length_cons] at hunread hmentions hlength
    simp only [Summary.addCounts, Summary.fromLast, StoredMessage.unreadMentionCountDelta,
      hmention, hmentionOld, nonEmpty_getD_nonEmpty, Option.some.injEq, Summary.mk.injEq,
      true_and, and_true, hunread, hmentions, hlength, Option.elim_some]
    unfold StoredMessage.unreadCountDelta at hdelta ⊢
    refine ⟨?_, ?_, ?_⟩
    · push_cast
      omega
    · push_cast
      omega
    · simp

end Delta

theorem summaryOf_first (h : RowWritten owner msgId messages messages' previous next)
    (hnext : counted owner conversationId next = [next])
    (hcount : messages'.countP (·.isIn owner conversationId) = 1) :
    summaryOf instant conversationId (liveRows messages' owner conversationId) =
      some (.fromLast conversationId 1 next.unreadCountDelta next.unreadMentionCountDelta
        (if next.isUnreadMention then next.msgId else "") next) := by
  have hlength : (liveRows messages' owner conversationId).length ≤ 1 := by
    rw [liveRows_perm_filter.length_eq, ← List.countP_eq_length_filter, ← hcount]
    exact List.countP_mono_left fun row _ hlive => (Bool.and_eq_true_iff.mp hlive).1
  have hperm := h.perm_next conversationId
  rw [hnext, List.singleton_append] at hperm
  have hrest : restRows messages owner msgId conversationId = [] := by
    rw [hperm.length_eq, List.length_cons] at hlength
    exact List.length_eq_zero_iff.mp (by omega)
  rw [hrest, List.perm_singleton] at hperm
  have hcontributes : next.contributesToSummary = true :=
    (mem_counted.mp (hnext ▸ List.mem_singleton_self next)).2.2
  rw [hperm, summaryOf_eq_some]
  refine ⟨next, by simp [lastOf, hcontributes], ?_⟩
  by_cases hunread : next.isUnreadIncoming = true
  · by_cases hmention : next.isUnreadMention = true
    · by_cases hid : next.msgId = "" <;>
        simp [StoredMessage.unreadCountDelta, StoredMessage.unreadMentionCountDelta, hunread,
          hmention, firstMention, hcontributes, hid]
    · simp [StoredMessage.unreadCountDelta, StoredMessage.unreadMentionCountDelta, hunread,
        hmention, firstMention]
  · have hmention : next.isUnreadMention = false := by
      simp [StoredMessage.isUnreadMention, hunread]
    simp [StoredMessage.unreadCountDelta, StoredMessage.unreadMentionCountDelta, hunread,
      hmention, firstMention]

end RowWritten

/-! ### The stored state of a summary -/

variable {tables written settled : SummaryTables ρ} {msgId : String}
  {previous : Option StoredMessage} {next : StoredMessage}

theorem last_of_view (hconsistent : tables.Consistent context.instant owner)
    (hview : tables.view owner conversationId = some summary) :
    Text.isBlank conversationId = false ∧ Text.trim conversationId = conversationId ∧
      summaryOf context.instant conversationId (liveRows tables.messages owner conversationId) =
        some summary ∧
      ∃ last, lastOf context.instant none (liveRows tables.messages owner conversationId) =
          some last ∧ summary.lastMessageId = last.msgId ∧ summary.lastMessageAt = last.sortAt := by
  have hrebuilt := SummaryTables.consistent_iff.mp hconsistent _ _ hview
  obtain ⟨hblank, htrim, hsummary⟩ := rebuilt_eq_some.mp hrebuilt
  rw [summarize_eq_summaryOf] at hsummary
  refine ⟨hblank, htrim, hsummary, ?_⟩
  obtain ⟨last, hlast, rfl⟩ := summaryOf_eq_some.mp hsummary
  exact ⟨last, hlast, rfl, rfl⟩

theorem summaryOrderKey_eq {last : StoredMessage}
    (hwritten : RowWritten owner msgId tables.messages written.messages previous next)
    (hlast : last ∈ liveRows tables.messages owner conversationId)
    (hid : summary.lastMessageId = last.msgId) (hat : summary.lastMessageAt = last.sortAt)
    (hne : last.msgId ≠ msgId) :
    summaryOrderKey context.instant (summary,
        written.messages.find? (·.isMessage owner summary.lastMessageId)) =
      last.orderKey context.instant := by
  obtain ⟨hmem, hin, -⟩ := mem_liveRows.mp hlast
  have howner := owner_of_isIn hin
  have hother : last.isMessage owner msgId = false := by
    simp [MessageRow.isMessage, hne]
  have hfind : written.messages.find? (·.isMessage owner last.msgId) = some last := by
    apply find?_isMessage hwritten.distinct' ((hwritten.rest last hother).mpr hmem)
    simp [MessageRow.isMessage, howner]
  unfold summaryOrderKey StoredMessage.orderKey
  rw [hid, hat, hfind]
  rfl


/-! ### The writers -/

theorem Rebuilds.put {row : SummaryRow} (hsummary : summarize context.instant tables.messages
    row.ownerIdentityId row.conversationId = some row.summary) :
    Rebuilds context tables (tables.put row) row.ownerIdentityId (· = row.conversationId) where
  same := ⟨rfl, rfl⟩
  view_of := by simp [SummaryTables.view_put, SummaryRow.key, hsummary]
  view_of_not c hc := by simp [SummaryTables.view_put, SummaryRow.key, hc]

theorem Rebuilds.update {f : Summary → Summary} {now : String}
    (hview : tables.view owner conversationId = some summary)
    (hsummary : summarize context.instant tables.messages owner conversationId =
      some (f summary)) :
    Rebuilds context tables (tables.update owner conversationId f now) owner
      (· = conversationId) where
  same := ⟨rfl, rfl⟩
  view_of := by simp [SummaryTables.view_update, hview, hsummary]
  view_of_not c hc := by simp [SummaryTables.view_update, hc]

theorem rebuildSingle_blank (h : rebuildSingle context tables owner conversationId = .ok settled) :
    Text.isBlank conversationId = false := by
  obtain ⟨result, hrebuild, -⟩ := Tx.except_bind_ok.mp h
  obtain ⟨o, -, hrebuild⟩ := Tx.except_bind_ok.mp hrebuild
  obtain ⟨c, hc, -⟩ := Tx.except_bind_ok.mp hrebuild
  exact (requiredField_ok.mp hc).1

/-- The conversations that the delta path brings up to date.  A message that stops
contributing leaves its former conversation out. -/
def DeltaRebuilds (previous : Option StoredMessage) (next : StoredMessage)
    (conversationId : String) : Prop :=
  Text.isBlank conversationId = false ∧
    (conversationId = Text.trim next.conversation ∨
      ∃ old, previous = some old ∧ old.contributesToSummary = true ∧
        next.contributesToSummary = true ∧ conversationId = Text.trim old.conversation)

theorem Rebuilds.delta (hsame : ∀ old, previous = some old → old.contributesToSummary = true →
      next.contributesToSummary = true → old.conversation = next.conversation)
    (hblank : Text.isBlank next.conversation = false)
    (h : Rebuilds context written settled owner (· = Text.trim next.conversation)) :
    Rebuilds context written settled owner (DeltaRebuilds previous next) := by
  have heq : DeltaRebuilds previous next = (· = Text.trim next.conversation) := by
    funext c
    refine propext ⟨?_, ?_⟩
    · rintro ⟨-, rfl | ⟨old, hold, hcontributes, hnext, rfl⟩⟩
      · rfl
      · rw [hsame old hold hcontributes hnext]
    · rintro rfl
      refine ⟨?_, .inl rfl⟩
      rwa [Text.isBlank_trim]
  rwa [heq]

section Delta

variable (hviews : ∀ conversationId, written.view owner conversationId =
    tables.view owner conversationId)
  (hconsistent : tables.Consistent context.instant owner)

include hviews hconsistent

theorem applyInsertDelta_ok {summary : Summary}
    (hwritten : RowWritten owner msgId tables.messages written.messages none next)
    (hview : tables.view owner next.conversation = some summary)
    (hcontributes : next.contributesToSummary = true) (hmention : next.isUnreadMention = false)
    (h : applyInsertDelta context written owner (summary,
      written.messages.find? (·.isMessage owner summary.lastMessageId)) next = .ok settled) :
    Rebuilds context written settled owner (· = Text.trim next.conversation) := by
  obtain ⟨hblank, htrim, hsummary, last, hlast, hid, hat⟩ := last_of_view hconsistent hview
  have hnext := counted_eq hwritten.next_isIn hcontributes
  have hmem := mem_of_lastOf hlast
  have hne : last.msgId ≠ msgId := by
    intro heq
    obtain ⟨hmem, hinLast, -⟩ := mem_liveRows.mp hmem
    have hnone := List.find?_eq_none.mp hwritten.previous_eq last hmem
    simp [MessageRow.isMessage, heq, owner_of_isIn hinLast] at hnone
  have hself : next.isSelfDirect = false := by
    simp only [StoredMessage.contributesToSummary, Bool.and_eq_true, Bool.not_eq_true']
      at hcontributes
    exact hcontributes.1
  unfold applyInsertDelta at h
  simp only [hself, Bool.false_eq_true, if_false, hmention, Bool.and_false,
    summaryOrderKey_eq hwritten hmem hid hat hne] at h
  rw [htrim]
  by_cases hlater : last.orderKey context.instant < next.orderKey context.instant
  · rw [if_pos hlater] at h
    cases h
    apply Rebuilds.put
    rw [summarize_eq_summaryOf]
    exact hwritten.summaryOf_insert_later hnext hmention hlast hsummary hne hlater
  · rw [if_neg hlater] at h
    cases h
    apply Rebuilds.update ((hviews _).trans hview)
    rw [summarize_eq_summaryOf]
    simpa using hwritten.summaryOf_earlier hnext hmention hlast hsummary hne (by simp) hlater

theorem applyUpdateDelta_ok {summary : Summary} {old : StoredMessage}
    (howner : Text.trim owner = owner)
    (hwritten : RowWritten owner msgId tables.messages written.messages (some old) next)
    (hview : tables.view owner next.conversation = some summary)
    (hconversation : old.conversation = next.conversation)
    (hold : old.contributesToSummary = true) (hmentionOld : old.isUnreadMention = false)
    (hcontributes : next.contributesToSummary = true) (hmention : next.isUnreadMention = false)
    (h : applyUpdateDelta context written owner (summary,
      written.messages.find? (·.isMessage owner summary.lastMessageId)) old next = .ok settled) :
    Rebuilds context written settled owner (· = Text.trim next.conversation) := by
  obtain ⟨hblank, htrim, hsummary, last, hlast, hid, hat⟩ := last_of_view hconsistent hview
  have hnext := counted_eq hwritten.next_isIn hcontributes
  have hkeyOld := List.find?_some hwritten.previous_eq
  simp only [MessageRow.isMessage, Bool.and_eq_true, beq_iff_eq] at hkeyOld
  have hinOld : old.isIn owner next.conversation = true := by
    simp [StoredMessage.isIn, hkeyOld.1, hconversation]
  unfold applyUpdateDelta at h
  split at h
  next => exact rebuildSingle_ok howner h
  next hstays =>
    rw [not_or] at hstays
    have hne : last.msgId ≠ msgId := by
      rw [← hid, ← hkeyOld.2]
      exact hstays.1
    have hearlier := hstays.2
    rw [summaryOrderKey_eq hwritten (mem_of_lastOf hlast) hid hat hne] at hearlier
    cases h
    rw [htrim]
    apply Rebuilds.update ((hviews _).trans hview)
    rw [summarize_eq_summaryOf]
    refine hwritten.summaryOf_earlier hnext hmention hlast hsummary hne ?_ hearlier
    rintro _ ⟨⟩
    exact ⟨counted_eq hinOld hold, hmentionOld⟩

theorem applyMessageDeltaOrRebuild_ok (howner : Text.trim owner = owner)
    (hblankOwner : Text.isBlank owner = false)
    (hwritten : RowWritten owner msgId tables.messages written.messages previous next)
    (hinserted : previous = none → Text.isBlank next.conversation = false ∧
      Text.trim next.conversation = next.conversation)
    (h : applyMessageDeltaOrRebuild context written owner previous next = .ok settled) :
    Rebuilds context written settled owner (DeltaRebuilds previous next) := by
  unfold applyMessageDeltaOrRebuild at h
  split at h
  next hsilent =>
    apply Rebuilds.delta _ (rebuildSingle_blank h) (rebuildSingle_ok howner h)
    rintro old rfl hold hnext
    simp [hold, hnext] at hsilent
  next hcontribute =>
    simp only [Bool.or_eq_true, Bool.not_eq_true', not_or, Bool.not_eq_false] at hcontribute
    obtain ⟨hcontributes, hcontributesOld⟩ := hcontribute
    split at h
    next hmoved =>
      cases previous with
      | none => simp at hmoved
      | some old =>
        have hold : old.contributesToSummary = true := by simpa using hcontributesOld
        have hrebuilds := rebuildTouched_ok howner hblankOwner h
        have heq : DeltaRebuilds (some old) next = fun c =>
            ∃ raw ∈ (Option.map (·.conversation) (some old)).toList ++ [next.conversation],
              Text.isBlank raw = false ∧ Text.trim raw = c := by
          funext c
          apply propext
          unfold DeltaRebuilds
          constructor
          · rintro ⟨hblank, rfl | ⟨_, ⟨⟩, -, -, rfl⟩⟩
            · exact ⟨next.conversation, by simp, by rwa [Text.isBlank_trim] at hblank, rfl⟩
            · exact ⟨old.conversation, by simp, by rwa [Text.isBlank_trim] at hblank, rfl⟩
          · rintro ⟨raw, hraw, hblank, rfl⟩
            rw [Text.isBlank_trim]
            refine ⟨hblank, ?_⟩
            rcases (by simpa using hraw : raw = old.conversation ∨ raw = next.conversation)
              with rfl | rfl
            · exact .inr ⟨old, rfl, hold, hcontributes, rfl⟩
            · exact .inl rfl
        rwa [heq]
    next hstays =>
      have hsame : ∀ old, previous = some old → old.contributesToSummary = true →
          next.contributesToSummary = true → old.conversation = next.conversation := by
        rintro old rfl - -
        simpa using hstays
      split at h
      next => exact Rebuilds.delta hsame (rebuildSingle_blank h) (rebuildSingle_ok howner h)
      next hmentions =>
        cases hfind : written.find owner next.conversation with
        | none =>
          simp only [summaryState, hfind, Option.map_none] at h
          split at h
          next hfirst =>
            simp only [Bool.and_eq_true, Option.isNone_iff_eq_none, beq_iff_eq] at hfirst
            obtain ⟨hblank, htrim⟩ := hinserted hfirst.1
            cases h
            apply Rebuilds.delta hsame hblank
            rw [htrim]
            apply Rebuilds.put
            rw [summarize_eq_summaryOf]
            exact hwritten.summaryOf_first (counted_eq hwritten.next_isIn hcontributes) hfirst.2
          next => exact Rebuilds.delta hsame (rebuildSingle_blank h) (rebuildSingle_ok howner h)
        | some row =>
          have hview : tables.view owner next.conversation = some row.summary := by
            rw [← hviews]
            simp [SummaryTables.view, hfind]
          have hblank := (last_of_view hconsistent hview).1
          apply Rebuilds.delta hsame hblank
          simp only [summaryState, hfind, Option.map_some] at h
          cases previous with
          | none =>
            simp only at h
            split at h
            next => exact rebuildSingle_ok howner h
            next hmention =>
              exact applyInsertDelta_ok hviews hconsistent hwritten hview hcontributes
                (by simpa using hmention) h
          | some old =>
            have hmentions : old.isUnreadMention = false ∧ next.isUnreadMention = false := by
              simpa using hmentions
            exact applyUpdateDelta_ok hviews hconsistent howner hwritten hview
              (by simpa using hstays) (by simpa using hcontributesOld) hmentions.1
              hcontributes hmentions.2 h

end Delta

/-! ## The messages after an upsert -/

theorem mergedHydration_eq_hydrated {states : List HydrationState} :
    mergedHydration states = .hydrated ↔ .hydrated ∈ states := by
  unfold mergedHydration
  by_cases h : HydrationState.hydrated ∈ states
  · simp [h]
  · by_cases hdiscovered : HydrationState.discovered ∈ states
    · simp [h, hdiscovered]
    · simp [h, hdiscovered]

namespace MessageKeys

variable (keys : MessageKeys) (context : UpsertContext ρ) (others : ρ)
  (messages : List StoredMessage) (record : MessageRecord) (legacy : List String)

def stored : StoredMessage :=
  (messages.find? keys.isWritten).elim (keys.inserted context messages record)
    (updatedStored keys.confirmTarget (keys.inserted context messages record))

def merged (row : StoredMessage) : StoredMessage :=
  if row.isLegacy keys.owner legacy then { row with conversationId := keys.conversationId }
  else row

/-- A row after `inherit_committed_read_watermark`. -/
def inherited (row : StoredMessage) : StoredMessage :=
  if inheritsRead context others keys.owner keys.msgId row then { row with isRead := true } else row

/-- The row of the message after the upsert. -/
def settledRow : StoredMessage :=
  keys.inherited context others (keys.merged legacy (keys.stored context messages record))

variable {keys context others messages record legacy} {row : StoredMessage}

theorem isWritten_inserted : keys.isWritten (keys.inserted context messages record) = true := by
  simp [isWritten, MessageRow.isMessage, inserted, UpsertKeys.insertedRow, insertedRow]

theorem isWritten_updated (confirmTarget : Bool) (new old : StoredMessage) :
    keys.isWritten (updatedStored confirmTarget new old) = keys.isWritten old := rfl

@[simp] theorem isWritten_merged (row : StoredMessage) :
    keys.isWritten (keys.merged legacy row) = keys.isWritten row := by
  unfold merged
  split <;> rfl

@[simp] theorem isWritten_inherited (row : StoredMessage) :
    keys.isWritten (keys.inherited context others row) = keys.isWritten row := by
  unfold inherited
  split <;> rfl

theorem isFolded_of_isWritten (h : keys.isWritten row = true) : keys.isFolded row = false := by
  simp only [isWritten, MessageRow.isMessage, Bool.and_eq_true, beq_iff_eq] at h
  simp [isFolded, UpsertKeys.folds, foldedIds, h.2]

theorem find?_write :
    (keys.write context messages record).find? keys.isWritten =
      some (keys.stored context messages record) := by
  have hfind : (deleteWhere keys.isFolded messages).find? keys.isWritten =
      messages.find? keys.isWritten := by
    unfold deleteWhere
    rw [List.find?_filter]
    congr 1
    funext row
    by_cases hrow : keys.isWritten row = true
    · simp [hrow, isFolded_of_isWritten hrow]
    · simp [hrow]
  unfold write
  dsimp only
  rw [find?_upsertWhere_key, hfind]
  · rfl
  · exact isWritten_inserted
  · intro row hrow
    exact hrow

theorem find?_settle :
    (keys.settle context others messages record legacy).find? keys.isWritten =
      some (keys.inherited context others (keys.merged legacy
        (keys.stored context messages record))) := by
  unfold settle inheritCommittedReadWatermark mergeLegacyRows
  rw [find?_updateWhere (fun _ => by rfl), find?_updateWhere (fun _ => by rfl), find?_write]
  rfl

theorem mem_write (hrow : keys.isWritten row = false) :
    row ∈ keys.write context messages record ↔ row ∈ messages ∧ keys.isFolded row = false := by
  unfold write
  constructor
  · intro hmem
    rcases mem_upsertWhere hmem with rfl | ⟨hmem, -⟩ | ⟨old, -, hold, rfl⟩
    · rw [isWritten_inserted] at hrow
      cases hrow
    · simpa using hmem
    · rw [isWritten_updated, hold] at hrow
      cases hrow
  · rintro ⟨hmem, hfolded⟩
    have hmem' : row ∈ deleteWhere keys.isFolded messages := by
      simpa using ⟨hmem, hfolded⟩
    unfold upsertWhere
    split
    · exact mem_updateWhere_of_not hmem' hrow
    · exact List.mem_append_left _ hmem'

theorem mem_settle (hrow : keys.isWritten row = false) :
    row ∈ keys.settle context others messages record legacy ↔
      ∃ old ∈ messages, keys.isFolded old = false ∧ keys.isWritten old = false ∧
        keys.merged legacy old = row := by
  have hnot : ∀ row', keys.isWritten row' = false →
      inheritsRead context others keys.owner keys.msgId row' = false := by
    intro row' hrow'
    simp only [isWritten] at hrow'
    simp [inheritsRead, hrow']
  unfold settle inheritCommittedReadWatermark mergeLegacyRows
  rw [mem_updateWhere]
  constructor
  · rintro ⟨old, hmem, heq⟩
    obtain ⟨first, hfirst, hmerged⟩ := mem_updateWhere.mp hmem
    have hold : keys.inherited context others old = row := heq
    have hwritten : keys.isWritten old = false := by
      rw [← hold, isWritten_inherited] at hrow
      exact hrow
    have hsame : old = row := by
      rw [← hold, inherited, hnot old hwritten]
      rfl
    have hfirstWritten : keys.isWritten first = false := by
      have hkey : keys.isWritten (keys.merged legacy first) = false := by
        rw [merged, hmerged]
        exact hwritten
      rwa [isWritten_merged] at hkey
    obtain ⟨hmem', hfolded⟩ := (mem_write hfirstWritten).mp hfirst
    exact ⟨first, hmem', hfolded, hfirstWritten, hmerged.trans hsame⟩
  · rintro ⟨old, hmem, hfolded, hwritten, rfl⟩
    refine ⟨keys.merged legacy old, ?_, ?_⟩
    · rw [mem_updateWhere]
      exact ⟨old, (mem_write hwritten).mpr ⟨hmem, hfolded⟩, rfl⟩
    · rw [hnot _ hrow]
      rfl

/-! ### Conversations of the written rows -/

theorem conversation_inherited (row : StoredMessage) :
    (keys.inherited context others row).conversation = row.conversation := by
  unfold inherited
  split <;> rfl

theorem contributes_inherited (row : StoredMessage) :
    (keys.inherited context others row).contributesToSummary = row.contributesToSummary := by
  unfold inherited
  split <;> rfl

theorem merged_of_not (h : row.isLegacy keys.owner legacy = false) :
    keys.merged legacy row = row := by
  simp [merged, h]

theorem merged_nil (row : StoredMessage) : keys.merged [] row = row := by
  apply merged_of_not
  simp [MessageRow.isLegacy]

/-! ### The stored row is kept -/

/-- The stored row is hydrated, and neither the record nor a duplicate is. -/
def keepsOld (keys : MessageKeys) (record : MessageRecord) (old : StoredMessage) : Bool :=
  old.hydrationState == .hydrated && record.hydrationState != .hydrated &&
    keys.duplicates.all (·.hydrationState != .hydrated)

theorem inserted_hydrated :
    (keys.inserted context messages record).hydrationState = .hydrated ↔
      record.hydrationState = .hydrated ∨
        ∃ row ∈ keys.duplicates, row.hydrationState = .hydrated := by
  change mergedHydration (_ :: (keys.duplicates.map _).map _) = .hydrated ↔ _
  rw [mergedHydration_eq_hydrated]
  simp [eq_comm]

theorem keepsOld_eq (context : UpsertContext ρ) (messages : List StoredMessage)
    (record : MessageRecord) (old : StoredMessage) :
    (old.hydrationState == .hydrated &&
      (keys.inserted context messages record).hydrationState != .hydrated) =
      keys.keepsOld record old := by
  rw [Bool.eq_iff_iff]
  simp [keepsOld, inserted_hydrated, and_assoc]

section Columns

variable (keys messages record legacy)

/-- A column of the stored row where it stays, else what the record brings. -/
def column {α : Type} (stays : StoredMessage → Bool) (ofRow : StoredMessage → α) (new : α) : α :=
  match messages.find? keys.isWritten with
  | some old => if stays old then ofRow old else new
  | none => new

/-- The row is kept, and its conversation is not merged. -/
def stays (old : StoredMessage) : Bool :=
  keys.keepsOld record old && !old.isLegacy keys.owner legacy

/-- The conversation of the message after the upsert. -/
def target : String :=
  keys.column messages (keys.stays record legacy) (·.conversation) keys.conversationId

end Columns

theorem stored_of_none (h : messages.find? keys.isWritten = none) :
    keys.stored context messages record = keys.inserted context messages record := by
  rw [stored, h]
  rfl

theorem stored_of_some {old : StoredMessage} (h : messages.find? keys.isWritten = some old) :
    keys.stored context messages record =
      updatedStored keys.confirmTarget (keys.inserted context messages record) old := by
  rw [stored, h]
  rfl

/-- Legacy conversations are merged for direct records only, so a kept row has its groups. -/
theorem isLegacy_stored {old : StoredMessage} (context : UpsertContext ρ)
    (hdirect : legacy ≠ [] → Text.isBlank record.groupId = true ∧
      Text.isBlank record.groupDid = true)
    (hfind : messages.find? keys.isWritten = some old) (hkeeps : keys.keepsOld record old = true) :
    (keys.stored context messages record).isLegacy keys.owner legacy =
      old.isLegacy keys.owner legacy := by
  by_cases hnil : legacy = []
  · simp [MessageRow.isLegacy, hnil]
  · obtain ⟨hgroup, hdid⟩ := hdirect hnil
    have hempty : ∀ text : String, orText text "" = text := by
      intro text
      unfold orText
      split
      next h => exact h.symm
      next => rfl
    rw [stored_of_some hfind]
    simp only [MessageRow.isLegacy, MessageRow.conversation, updatedStored, updatedRow,
      keepsOld_eq, hkeeps, if_true]
    simp only [inserted, UpsertKeys.insertedRow, insertedRow, Text.isBlank_iff.mp hgroup,
      Text.isBlank_iff.mp hdid, hempty]

theorem conversationId_merged (context : UpsertContext ρ)
    (hdirect : legacy ≠ [] → Text.isBlank record.groupId = true ∧
      Text.isBlank record.groupDid = true) :
    (keys.merged legacy (keys.stored context messages record)).conversationId =
      keys.column messages (keys.stays record legacy) (·.conversationId) keys.conversationId := by
  have hmerged : ∀ row : StoredMessage, (keys.merged legacy row).conversationId =
      if row.isLegacy keys.owner legacy then keys.conversationId else row.conversationId := by
    intro row
    unfold merged
    split <;> rfl
  rw [hmerged, column]
  cases hfind : messages.find? keys.isWritten with
  | none =>
    rw [stored_of_none hfind]
    exact ite_id _
  | some old =>
    by_cases hkeeps : keys.keepsOld record old = true
    · rw [isLegacy_stored context hdirect hfind hkeeps, stored_of_some hfind]
      simp only [updatedStored, updatedRow, keepsOld_eq, hkeeps, if_true, stays, Bool.true_and]
      cases old.isLegacy keys.owner legacy <;> rfl
    · have hwrites : (keys.stored context messages record).conversationId =
          keys.conversationId := by
        rw [stored_of_some hfind]
        simp only [updatedStored, updatedRow, keepsOld_eq, hkeeps]
        rfl
      simp [hwrites, stays, hkeeps]

theorem conversation_target (hconversation : keys.conversationId ≠ "")
    (context : UpsertContext ρ) (hdirect : legacy ≠ [] → Text.isBlank record.groupId = true ∧
      Text.isBlank record.groupDid = true) :
    (keys.merged legacy (keys.stored context messages record)).conversation =
      keys.target messages record legacy := by
  have hthread : (keys.merged legacy (keys.stored context messages record)).threadId =
      (keys.stored context messages record).threadId := by
    unfold merged
    split <;> rfl
  rw [MessageRow.conversation, conversationId_merged context hdirect, hthread, target, column,
    column]
  cases hfind : messages.find? keys.isWritten with
  | none => simp [orText, hconversation]
  | some old =>
    rw [stored_of_some hfind]
    by_cases hstays : keys.stays record legacy old = true
    · simp only [hstays, if_true]
      rfl
    · simp [hstays, orText, hconversation]

theorem conversation_stored (hconversation : keys.conversationId ≠ "")
    (context : UpsertContext ρ) (messages : List StoredMessage) (record : MessageRecord) :
    (keys.stored context messages record).conversation =
      keys.column messages (keys.keepsOld record) (·.conversation) keys.conversationId := by
  have htarget : (keys.merged [] (keys.stored context messages record)).conversation = _ :=
    conversation_target hconversation context (fun h => absurd rfl h)
  have hstays : keys.stays record [] = keys.keepsOld record := by
    funext old
    simp [stays, MessageRow.isLegacy]
  rwa [merged_nil, target, hstays] at htarget

end MessageKeys

structure MessageKeys.Lawful (keys : MessageKeys) (messages : List StoredMessage) : Prop where
  owner_trim : Text.trim keys.owner = keys.owner
  owner_blank : Text.isBlank keys.owner = false
  conversation_trim : Text.trim keys.conversationId = keys.conversationId
  conversation_blank : Text.isBlank keys.conversationId = false
  duplicates : ∀ row ∈ keys.duplicates, row ∈ messages ∧ row.ownerIdentityId = keys.owner ∧
    row.conversation = keys.conversationId

theorem MessageKeys.Lawful.conversation_ne {keys : MessageKeys} {messages : List StoredMessage}
    (h : keys.Lawful messages) : keys.conversationId ≠ "" := by
  intro hempty
  have hblank := h.conversation_blank
  rw [hempty] at hblank
  cases hblank

theorem of_isGroupDuplicate {canonicalId : String} {serverSeq : Option Int} {aliases : List String}
    {row : MessageRow}
    (h : isGroupDuplicate owner conversationId canonicalId serverSeq aliases row = true) :
    row.ownerIdentityId = owner ∧ row.conversation = conversationId := by
  simp only [isGroupDuplicate, Bool.and_eq_true, beq_iff_eq] at h
  exact ⟨h.1.1.1.1, h.1.2⟩

theorem messageKeys_lawful {context : UpsertContext ρ} {record : MessageRecord} {keys : MessageKeys}
    (h : messageKeys context tables record = .ok keys) : keys.Lawful tables.messages := by
  unfold messageKeys upsertKeys at h
  simp only [Tx.except_bind_ok] at h
  obtain ⟨inputId, -, owner, howner, ownerDid, -, stable, hstable, wire, -, confirmTarget, -, h⟩
    := h
  obtain ⟨rfl, hblank⟩ := requiredText_ok howner
  obtain ⟨rfl, hblank'⟩ := requiredText_ok hstable
  cases h
  have hconversation : ∀ id, id = (if (Text.isBlank record.groupId &&
      Text.isBlank record.groupDid) = true then
      (context.base.peerScopeConversation tables.others (Text.trim record.ownerIdentityId)
        (Text.trim (stableConversationId context.base record))).getD
        (Text.trim (stableConversationId context.base record))
      else Text.trim (stableConversationId context.base record)) →
      Text.trim id = id ∧ Text.isBlank id = false := by
    rintro id rfl
    split
    · cases hscope : context.base.peerScopeConversation tables.others
        (Text.trim record.ownerIdentityId)
        (Text.trim (stableConversationId context.base record)) with
      | none => simp [hblank']
      | some target =>
        obtain ⟨htrim, hne⟩ := context.peerScope_trimmed _ _ _ _ hscope
        refine ⟨htrim, ?_⟩
        rw [Option.getD_some, ← Bool.not_eq_true, Text.isBlank_iff, htrim]
        exact hne
    · simp [hblank']
  refine ⟨Text.trim_trim _, ?_, (hconversation _ rfl).1, (hconversation _ rfl).2, ?_⟩
  · rwa [Text.isBlank_trim]
  · intro row hrow
    simp only [List.mem_insertionSort, List.mem_filter] at hrow
    exact ⟨hrow.1, of_isGroupDuplicate hrow.2⟩

/-! ## The refinement -/

theorem Rebuilds.consistent_iff {rebuilds : String → Prop}
    (hconsistent : tables.Consistent context.instant owner)
    (hviews : ∀ conversationId, written.view owner conversationId =
      tables.view owner conversationId)
    (hrebuilds : Rebuilds context written settled owner rebuilds)
    (hkey : ∀ conversationId, rebuilds conversationId →
      Text.isBlank conversationId = false ∧ Text.trim conversationId = conversationId) :
    settled.Consistent context.instant owner ↔
      ∀ conversationId, ¬ rebuilds conversationId →
        (tables.view owner conversationId).isSome = true →
        summaryOf context.instant conversationId
            (liveRows written.messages owner conversationId) =
          summaryOf context.instant conversationId
            (liveRows tables.messages owner conversationId) := by
  rw [SummaryTables.consistent_iff]
  constructor
  · intro h c hc hstored
    obtain ⟨summary, hview⟩ := Option.isSome_iff_exists.mp hstored
    obtain ⟨-, -, hsummary, -⟩ := last_of_view hconsistent hview
    have hview' : settled.view owner c = some summary := by
      rw [hrebuilds.view_of_not c hc, hviews, hview]
    obtain ⟨-, -, hafter⟩ := rebuilt_eq_some.mp (h c summary hview')
    rw [hrebuilds.same.messages, summarize_eq_summaryOf] at hafter
    rw [hafter, hsummary]
  · intro h c summary hview
    rw [rebuilt_eq_some, hrebuilds.same.messages]
    by_cases hc : rebuilds c
    · obtain ⟨hblank, htrim⟩ := hkey c hc
      rw [hrebuilds.view_of c hc] at hview
      exact ⟨hblank, htrim, hview⟩
    · rw [hrebuilds.view_of_not c hc, hviews] at hview
      obtain ⟨hblank, htrim, hsummary, -⟩ := last_of_view hconsistent hview
      refine ⟨hblank, htrim, ?_⟩
      rw [summarize_eq_summaryOf, h c hc (by simp [hview]), hsummary]

theorem length_eq_of_summaryOf_eq {instant : String → Option Int} {rows rows' : List StoredMessage}
    (h : summaryOf instant conversationId rows = some summary)
    (h' : summaryOf instant conversationId rows' = some summary) : rows.length = rows'.length := by
  obtain ⟨last, -, rfl⟩ := summaryOf_eq_some.mp h
  obtain ⟨last', -, heq⟩ := summaryOf_eq_some.mp h'
  exact Int.ofNat.inj (congrArg Summary.messageCount heq)

namespace MessageKeys

variable {keys : MessageKeys} {context : UpsertContext ρ} {others : ρ} {record : MessageRecord}
  {legacy : List String}

/-- The stored row with what the record lays over it, as far as summaries ask whether the row
contributes. -/
def overlaid (keys : MessageKeys) (record : MessageRecord) (old : StoredMessage) :
    StoredMessage :=
  { old with
    ownerDid := Text.trim record.ownerDid
    senderDid := orText old.senderDid (Text.trim record.senderDid)
    receiverDid := if keys.confirmTarget then Text.trim record.receiverDid
      else orText old.receiverDid (Text.trim record.receiverDid)
    groupId := orText old.groupId (Text.trim record.groupId)
    groupDid := orText old.groupDid (Text.trim record.groupDid)
    contentType := if record.content.isBlank then old.contentType
      else defaultString record.contentType "text/plain"
    content := if record.content.isBlank then old.content else record.content }

/-- A stored message that contributes moves to the conversation of the record and stops
contributing; its former conversation has a summary. -/
def SilencesMoved (keys : MessageKeys) (tables : SummaryTables ρ) (record : MessageRecord)
    (legacy : List String) : Prop :=
  keys.duplicates = [] ∧ legacy = [] ∧
    ∃ old, tables.messages.find? keys.isWritten = some old ∧
      old.contributesToSummary = true ∧ keys.keepsOld record old = false ∧
      keys.conversationId ≠ old.conversation ∧
      (keys.overlaid record old).contributesToSummary = false ∧
      (tables.view keys.owner old.conversation).isSome = true

/-- The other rows: folded ones are deleted, those of legacy conversations move. -/
def bystanders (keys : MessageKeys) (messages : List StoredMessage) (legacy : List String) :
    List StoredMessage :=
  (messages.filter fun row => !keys.isFolded row && !keys.isWritten row).map (keys.merged legacy)

/-- The names that the upsert reports as touched. -/
def touched (keys : MessageKeys) (context : UpsertContext ρ) (messages : List StoredMessage)
    (record : MessageRecord) (legacy : List String) : List String :=
  ((messages.find? keys.isWritten).map (·.conversation)).toList ++
    keys.duplicates.map (stableConversationId context.base ·.toRecord) ++ legacy ++
    [keys.target messages record legacy]

/-- The conversation is one that `rebuild_touched` rebuilds. -/
def Rebuilt (touched : List String) (conversationId : String) : Prop :=
  ∃ raw ∈ touched, Text.isBlank raw = false ∧ Text.trim raw = conversationId

/-- Duplicates are folded or legacy conversations merged, and a conversation with a summary,
which no touched name stands for, loses or gains other rows. -/
def LeavesStale (keys : MessageKeys) (context : UpsertContext ρ) (tables : SummaryTables ρ)
    (record : MessageRecord) (legacy : List String) : Prop :=
  ¬ (keys.duplicates = [] ∧ legacy = []) ∧
    ∃ conversationId, (tables.view keys.owner conversationId).isSome = true ∧
      ¬ Rebuilt (keys.touched context tables.messages record legacy) conversationId ∧
      summaryOf context.instant conversationId
          (liveRows (keys.bystanders tables.messages legacy) keys.owner conversationId) ≠
        summaryOf context.instant conversationId
          (liveRows tables.messages keys.owner conversationId)

theorem isBlank_mergedContent (content : JsonText) :
    (mergedContent content []).isBlank = content.isBlank := by
  cases content with
  | parsed value => rfl
  | malformed text =>
    by_cases hblank : Text.isBlank text = true
    · simpa [mergedContent, nullableContent, JsonText.isBlank, hblank] using by decide
    · simp [mergedContent, nullableContent, JsonText.isBlank, hblank]

theorem value?_mergedContent (content : JsonText) :
    (mergedContent content []).value? = content.value? := by
  cases content with
  | parsed value => rfl
  | malformed text =>
    by_cases hblank : Text.isBlank text = true
    · simp [mergedContent, nullableContent, JsonText.isBlank, JsonText.value?, hblank]
    · simp [mergedContent, nullableContent, JsonText.isBlank, JsonText.value?, hblank]

theorem contributes_stored {old : StoredMessage} (hduplicates : keys.duplicates = [])
    (hfind : tables.messages.find? keys.isWritten = some old)
    (hkeeps : keys.keepsOld record old = false) :
    (keys.stored context tables.messages record).contributesToSummary =
      (keys.overlaid record old).contributesToSummary := by
  have hcontent : ∀ contentType sender, isControlPayloadForProjection contentType
      (mergedContent record.content []) sender =
        isControlPayloadForProjection contentType record.content sender := by
    intro contentType sender
    simp only [isControlPayloadForProjection, isBlank_mergedContent, value?_mergedContent]
  have hstored : keys.stored context tables.messages record = _ := stored_of_some hfind
  have hself : (keys.stored context tables.messages record).isSelfDirect =
      (keys.overlaid record old).isSelfDirect := by
    rw [hstored]
    rfl
  have hcontrol : (keys.stored context tables.messages record).isControlPayload =
      (keys.overlaid record old).isControlPayload := by
    rw [hstored]
    simp only [StoredMessage.isControlPayload, updatedStored, updatedRow, keepsOld_eq, hkeeps,
      Bool.false_or, overlaid]
    simp only [inserted, UpsertKeys.insertedRow, insertedRow, UpsertKeys.rows, hduplicates,
      List.map_nil, isBlank_mergedContent]
    split
    · rfl
    · rw [hcontent]
      simp [defaultString, mergedGroupProjectionValue, nonEmpty_getD_nonEmpty]
  simp only [StoredMessage.contributesToSummary, hself, hcontrol]

theorem rowWritten (hduplicates : keys.duplicates = []) :
    RowWritten keys.owner keys.msgId tables.messages
      (keys.settle context others tables.messages record [])
      (tables.messages.find? keys.isWritten)
      (keys.settledRow context others tables.messages record []) where
  distinct := tables.distinctMessages
  distinct' := keys.settle_distinct context others record [] tables.distinctMessages
  previous_eq := rfl
  next_eq := find?_settle
  rest := by
    intro row hrow
    have hfolded : ∀ old, keys.isFolded old = false := by
      intro old
      simp [isFolded, UpsertKeys.folds, UpsertKeys.rows, foldedIds, hduplicates]
    rw [mem_settle hrow]
    constructor
    · rintro ⟨old, hold, -, -, rfl⟩
      rwa [merged_nil]
    · intro hmem
      exact ⟨row, hmem, hfolded row, hrow, merged_nil row⟩

variable {row : StoredMessage}

theorem counted_of_ne (h : row.conversation ≠ conversationId) :
    counted owner conversationId row = [] := by
  simp [counted, StoredMessage.isIn, h]

theorem counted_of_silent (h : row.contributesToSummary = false) :
    counted owner conversationId row = [] := by
  simp [counted, h]

/-- The row moves and falls silent, told on the stored row and the record. -/
theorem silencesMoved_iff (context : UpsertContext ρ) (hlawful : keys.Lawful tables.messages)
    (hduplicates : keys.duplicates = []) :
    keys.SilencesMoved tables record [] ↔
      ∃ old, tables.messages.find? keys.isWritten = some old ∧
        old.contributesToSummary = true ∧
        (keys.stored context tables.messages record).contributesToSummary = false ∧
        (keys.stored context tables.messages record).conversation ≠ old.conversation ∧
        (tables.view keys.owner old.conversation).isSome = true := by
  unfold SilencesMoved
  simp only [hduplicates, true_and]
  apply exists_congr
  intro old
  rw [and_congr_right_iff, conversation_stored hlawful.conversation_ne]
  intro hfind
  simp only [column, hfind]
  by_cases hkeeps : keys.keepsOld record old = true
  · simp only [hkeeps, if_true, ne_eq, not_true_eq_false, Bool.true_eq_false, false_and, and_false]
  · rw [contributes_stored hduplicates hfind (by simpa using hkeeps)]
    simp only [hkeeps, Bool.false_eq_true, if_false, true_and]
    exact and_congr_right fun _ => and_left_comm

theorem delta_consistent_iff (hlawful : keys.Lawful tables.messages)
    (hconsistent : tables.Consistent context.instant keys.owner)
    (hviews : ∀ conversationId, written.view keys.owner conversationId =
      tables.view keys.owner conversationId)
    (hmessages : written.messages = keys.settle context others tables.messages record [])
    (hduplicates : keys.duplicates = [])
    (h : applyMessageDeltaOrRebuild context.toSummaryContext written keys.owner
      (tables.messages.find? keys.isWritten)
      (keys.settledRow context others tables.messages record []) = .ok settled) :
    settled.Consistent context.instant keys.owner ↔ ¬ keys.SilencesMoved tables record [] := by
  have hwritten : RowWritten keys.owner keys.msgId tables.messages written.messages
      (tables.messages.find? keys.isWritten)
      (keys.settledRow context others tables.messages record []) := by
    rw [hmessages]
    exact rowWritten hduplicates
  have hnext : (keys.settledRow context others tables.messages record []).conversation =
      (keys.stored context tables.messages record).conversation := by
    rw [settledRow, conversation_inherited, merged_nil]
  have hcontributes :
      (keys.settledRow context others tables.messages record []).contributesToSummary =
        (keys.stored context tables.messages record).contributesToSummary := by
    rw [settledRow, contributes_inherited, merged_nil]
  rw [silencesMoved_iff context hlawful hduplicates]
  generalize keys.settledRow context others tables.messages record [] = next
    at h hwritten hnext hcontributes
  have hconversation := conversation_stored hlawful.conversation_ne context tables.messages record
  unfold column at hconversation
  rw [← hnext, ← hcontributes]
  rw [← hnext] at hconversation
  have hinserted : tables.messages.find? keys.isWritten = none →
      Text.isBlank next.conversation = false ∧
        Text.trim next.conversation = next.conversation := by
    intro hnone
    rw [hconversation, hnone]
    exact ⟨hlawful.conversation_blank, hlawful.conversation_trim⟩
  have hrebuilds := applyMessageDeltaOrRebuild_ok hviews hconsistent hlawful.owner_trim
    hlawful.owner_blank hwritten hinserted h
  rw [hrebuilds.consistent_iff hconsistent hviews]
  · constructor
    · rintro hall ⟨old, hfind, hold, hsilent, hmoved, hstored⟩
      have hnot : ¬ DeltaRebuilds (tables.messages.find? keys.isWritten) next
          old.conversation := by
        rintro ⟨-, heq | ⟨-, -, -, hnext', -⟩⟩
        · simp only [hfind] at hconversation
          split at hconversation
          · exact hmoved hconversation
          · rw [hconversation, hlawful.conversation_trim] at heq
            exact hmoved (hconversation.trans heq.symm)
        · rw [hsilent] at hnext'
          cases hnext'
      obtain ⟨summary, hview⟩ := Option.isSome_iff_exists.mp hstored
      obtain ⟨-, -, hsummary, -⟩ := last_of_view hconsistent hview
      have hlength := length_eq_of_summaryOf_eq ((hall _ hnot hstored).trans hsummary) hsummary
      have hkey : keys.isWritten old = true := by simpa using List.find?_some hfind
      have hin : old.isIn keys.owner old.conversation = true := by
        simp only [isWritten, MessageRow.isMessage, Bool.and_eq_true, beq_iff_eq] at hkey
        simp [StoredMessage.isIn, hkey.1]
      rw [(hwritten.perm_next _).length_eq, (hwritten.perm_previous _).length_eq,
        counted_of_silent hsilent, hfind, Option.elim_some, counted_eq hin hold] at hlength
      simp at hlength
    · intro hnot c hc hstored
      obtain ⟨summary, hview⟩ := Option.isSome_iff_exists.mp hstored
      obtain ⟨hblank, htrim, -⟩ := last_of_view hconsistent hview
      have hne : next.conversation ≠ c := by
        rintro rfl
        exact hc ⟨hblank, .inl htrim.symm⟩
      congr 1
      apply hwritten.liveRows_eq _ (counted_of_ne hne)
      intro old hfind
      by_cases hold : old.contributesToSummary = true
      · apply counted_of_ne
        rintro rfl
        apply hnot
        refine ⟨old, hfind, hold, ?_, hne, hstored⟩
        rw [← Bool.not_eq_true]
        intro hboth
        exact hc ⟨hblank, .inr ⟨old, hfind, hold, hboth, htrim.symm⟩⟩
      · exact counted_of_silent (by simpa using hold)
  · rintro c ⟨hblank, rfl | ⟨_, -, -, -, rfl⟩⟩
    · exact ⟨hblank, Text.trim_trim _⟩
    · exact ⟨hblank, Text.trim_trim _⟩

/-! ### Duplicates and legacy conversations -/

theorem bystanders_distinct (h : UniqueKey StoredMessage.key tables.messages) :
    UniqueKey StoredMessage.key (keys.bystanders tables.messages legacy) := by
  have hkeys : StoredMessage.key ∘ keys.merged legacy = StoredMessage.key := by
    funext row
    dsimp only [Function.comp_apply, merged]
    split <;> rfl
  unfold bystanders UniqueKey
  rw [List.map_map, hkeys]
  exact List.Nodup.sublist (List.filter_sublist.map _) h

/-- The written row is the only one that the other rows do not account for. -/
theorem liveRows_settle (hnext : (keys.settledRow context others tables.messages record
      legacy).conversation ≠ conversationId) :
    liveRows (keys.settle context others tables.messages record legacy) keys.owner
      conversationId = liveRows (keys.bystanders tables.messages legacy) keys.owner
        conversationId := by
  have hdistinct := keys.settle_distinct context others record legacy tables.distinctMessages
  apply liveRows_congr hdistinct (bystanders_distinct tables.distinctMessages)
  intro row
  rw [mem_liveRows, mem_liveRows, and_congr_left_iff]
  rintro ⟨hin, -⟩
  simp only [StoredMessage.isIn, Bool.and_eq_true, beq_iff_eq] at hin
  by_cases hwritten : keys.isWritten row = true
  · constructor
    · intro hmem
      cases find?_settle.symm.trans (find?_isMessage hdistinct hmem hwritten)
      exact absurd hin.2 hnext
    · intro hmem
      obtain ⟨old, hold, rfl⟩ := List.mem_map.mp hmem
      rw [isWritten_merged] at hwritten
      simp [hwritten] at hold
  · rw [mem_settle (by simpa using hwritten)]
    simp [bystanders, and_assoc]

theorem touched_consistent_iff (hlawful : keys.Lawful tables.messages)
    (hconsistent : tables.Consistent context.instant keys.owner)
    (hdirect : legacy ≠ [] → Text.isBlank record.groupId = true ∧
      Text.isBlank record.groupDid = true)
    (hviews : ∀ conversationId, written.view keys.owner conversationId =
      tables.view keys.owner conversationId)
    (hmessages : written.messages = keys.settle context others tables.messages record legacy)
    (hplain : ¬ (keys.duplicates = [] ∧ legacy = []))
    (h : rebuildTouched context.toSummaryContext written keys.owner
      (keys.touched context tables.messages record legacy) = .ok settled) :
    settled.Consistent context.instant keys.owner ↔
      ¬ keys.LeavesStale context tables record legacy := by
  have hrebuilds := rebuildTouched_ok hlawful.owner_trim hlawful.owner_blank h
  have hnext : (keys.settledRow context others tables.messages record legacy).conversation =
      keys.target tables.messages record legacy := by
    rw [settledRow, conversation_inherited,
      conversation_target hlawful.conversation_ne context hdirect]
  rw [hrebuilds.consistent_iff hconsistent hviews, hmessages]
  · have hstale : ¬ keys.LeavesStale context tables record legacy ↔ ∀ c,
        (tables.view keys.owner c).isSome = true →
        ¬ Rebuilt (keys.touched context tables.messages record legacy) c →
        summaryOf context.instant c (liveRows (keys.bystanders tables.messages legacy) keys.owner
          c) = summaryOf context.instant c (liveRows tables.messages keys.owner c) := by
      simp only [LeavesStale, hplain, not_false_iff, true_and, not_exists, not_and, ne_eq, not_not]
    rw [hstale]
    apply forall_congr'
    intro c
    have hrows : (tables.view keys.owner c).isSome = true →
        ¬ Rebuilt (keys.touched context tables.messages record legacy) c →
        liveRows (keys.settle context others tables.messages record legacy) keys.owner c =
          liveRows (keys.bystanders tables.messages legacy) keys.owner c := by
      intro hview hnot
      obtain ⟨summary, hsummary⟩ := Option.isSome_iff_exists.mp hview
      obtain ⟨hblank, htrim, -⟩ := last_of_view hconsistent hsummary
      apply liveRows_settle
      rintro rfl
      exact hnot ⟨_, by simp [touched, hnext], hblank, htrim⟩
    constructor
    · intro hall hview hnot
      rw [← hrows hview hnot]
      exact hall hnot hview
    · intro hall hnot hview
      rw [hrows hview hnot]
      exact hall hview hnot
  · rintro c ⟨raw, -, hblank, rfl⟩
    exact ⟨by rwa [Text.isBlank_trim], Text.trim_trim _⟩

end MessageKeys

theorem mergeLegacy_direct {context : MessageContext ρ} {others : ρ} {rows : List MessageRow}
    {record : MessageRecord} {legacy : List String × ρ}
    (h : mergeLegacy context others rows owner conversationId record = .ok legacy)
    (hmerged : legacy.1 ≠ []) :
    Text.isBlank record.groupId = true ∧ Text.isBlank record.groupDid = true := by
  unfold mergeLegacy at h
  split at h
  · rename_i hdirect
    simp only [Bool.and_eq_true] at hdirect
    exact ⟨hdirect.1.2, hdirect.2⟩
  · cases h
    exact absurd rfl hmerged

namespace UpsertSample

def plain : UpsertContext Unit where
  instant := fun _ => none
  nowText := "2"
  ensure := fun _ _ => .ok ()
  base :=
    { isDid := fun _ => true
      resolveByDid := fun _ _ _ => .ok none
      peerScopeConversation := fun _ _ _ => none
      derivedConversation := fun _ => ""
      succeeds := fun _ _ _ _ _ _ => false
      legacyConversations := fun _ _ _ _ _ => .ok ([], ())
      settle := fun _ _ _ => .ok ()
      nowText := "2" }
  mentionsOwner := fun _ _ => false
  readWatermark := fun _ _ _ _ => none
  peerScope_trimmed := by simp
  legacy_watermark := by simp

/-- A message of the conversation `c` whose content has not arrived yet. -/
def discovered : StoredMessage where
  msgId := "a"
  ownerIdentityId := "o"
  ownerDid := "d"
  conversationId := "c"
  threadId := "c"
  wireThreadKind := "direct"
  wireThreadRef := "p"
  senderDid := "p"
  receiverDid := "d"
  contentType := "text/plain"
  hydrationState := .discovered
  sentAt := "1"
  storedAt := "1"

def stored : SummaryTables Unit where
  messages := [discovered]
  aliases := []
  summaries :=
    [{ ownerIdentityId := "o"
       conversationId := "c"
       summary := .fromLast "c" 1 1 0 "" discovered
       updatedAt := "1" }]
  others := ()
  distinct := by simp [UniqueKey]
  distinctMessages := by simp [UniqueKey]

def hydrated (conversationId contentType : String) (content : JsonText) : MessageRecord where
  msgId := "a"
  ownerIdentityId := "o"
  ownerDid := "d"
  conversationId := conversationId
  wireThreadKind := "direct"
  wireThreadRef := "p"
  threadId := conversationId
  senderDid := "p"
  receiverDid := "d"
  contentType := contentType
  content := content
  sentAt := "1"
  storedAt := "1"

theorem stored_consistent : stored.Consistent plain.instant "o" :=
  SummaryTables.consistent_of_all (by decide +kernel)

end UpsertSample

end LocalState
end Awiki

import Awiki.ConversationSummaries

/-!
# Marking messages as read

`mark_messages_read_for_owner` sets `is_read` for the requested messages and subtracts from
each summary the number of rows that were unread before.  The rows it counts are chosen by
direction and read flag alone, while a rebuild counts only rows that contribute to the
summary; the theorem says for which rows the two agree.
-/

namespace Awiki
namespace LocalState

open Rows

variable {ρ : Type} {row : StoredMessage} {summary : Summary}

/-! ## The function -/

/-- `resolve_message_identity_rows` for one request: the message itself, or the message that
it is an alias of. -/
def canonicalMessageId (tables : SummaryTables ρ) (owner requested : String) : Option String :=
  if tables.messages.any (·.isMessage owner requested) then some requested
  else
    (tables.aliases.find? fun row =>
      row.ownerIdentityId == owner && row.aliasMsgId == requested &&
        tables.messages.any (·.isMessage owner row.canonicalMsgId)).bind
      fun row => nonEmpty row.canonicalMsgId

def requestedIds (messageIds : List String) : List String :=
  messageIds.filterMap nonEmpty

/-- `canonical_message_ids_for_requests`. -/
def canonicalMessageIds (tables : SummaryTables ρ) (owner : String) (messageIds : List String) :
    List String :=
  ((requestedIds messageIds).filterMap (canonicalMessageId tables owner)).eraseDups

/-- The statement of `mark_read_summary_rows_for_message_ids`. -/
def isMarkedRow (owner : String) (ids : List String) (row : StoredMessage) : Bool :=
  row.ownerIdentityId == owner && row.direction == 0 && !row.isRead && ids.contains row.msgId

/-- `mark_read_summary_rows_for_message_ids`: the rows with a conversation. -/
def markReadSummaryRows (messages : List StoredMessage) (owner : String) (ids : List String) :
    List StoredMessage :=
  (messages.filter (isMarkedRow owner ids)).filter fun row => !Text.isBlank row.conversation

/-- `UPDATE messages SET is_read = 1`. -/
def setRead (owner : String) (ids : List String) (messages : List StoredMessage) :
    List StoredMessage :=
  updateWhere (fun row => row.ownerIdentityId == owner && ids.contains row.msgId)
    (fun row => { row with isRead := true }) messages

def SummaryTables.setRead (tables : SummaryTables ρ) (owner : String) (ids : List String) :
    SummaryTables ρ :=
  { tables with
    messages := LocalState.setRead owner ids tables.messages
    distinctMessages := tables.distinctMessages.updateWhere fun _ => rfl }

section

variable (context : SummaryContext ρ)

/-- The loop of `apply_mark_read_delta_or_rebuild` over the conversations of the rows, with
the conversations that are left to be rebuilt. -/
def markReadStep (owner : String) (rows : List StoredMessage)
    (state : SummaryTables ρ × List String) (conversationId : String) :
    SummaryTables ρ × List String :=
  let marked := rows.filter fun row => row.conversation == conversationId
  if marked.any (·.mentionsCurrentUser) then (state.1, state.2 ++ [conversationId])
  else
    match state.1.find owner conversationId with
    | none => (state.1, state.2 ++ [conversationId])
    | some row =>
      (state.1.update owner conversationId
        (Summary.addCounts 0 (-(marked.length : Int)) 0
          (row.summary.firstUnreadMentionMessageId.getD "")) context.nowText, state.2)

def applyMarkReadDeltaOrRebuild (tables : SummaryTables ρ) (owner : String)
    (rows : List StoredMessage) : Except ImError (SummaryTables ρ) :=
  let (tables, rebuild) :=
    (sortedSet (rows.map (·.conversation))).foldl (markReadStep context owner rows) (tables, [])
  rebuildTouched context tables owner rebuild

/-- `mark_messages_read_for_owner`, with the number of updated rows. -/
def markMessagesReadForOwner (tables : SummaryTables ρ) (ownerIdentityId : String)
    (messageIds : List String) : Except ImError (Nat × SummaryTables ρ) :=
  if requestedIds messageIds = [] then .ok (0, tables)
  else do
    let owner ← requiredText "owner_identity_id" ownerIdentityId
    let ids := canonicalMessageIds tables owner messageIds
    if ids = [] then return (0, tables)
    else
      let rows := markReadSummaryRows tables.messages owner ids
      let tables' ← applyMarkReadDeltaOrRebuild context (tables.setRead owner ids) owner rows
      return ((tables.messages.filter fun row =>
        row.ownerIdentityId == owner && ids.contains row.msgId).length, tables')

end

/-! ## The summary of the messages that were read -/

variable {instant : String → Option Int} {messages : List StoredMessage}
  {owner conversationId : String} {ids : List String}

def readRow (owner : String) (ids : List String) (row : StoredMessage) : StoredMessage :=
  if row.ownerIdentityId == owner && ids.contains row.msgId then { row with isRead := true }
  else row

theorem setRead_eq_map : setRead owner ids messages = messages.map (readRow owner ids) := rfl

theorem apply_readRow {β : Type} (f : StoredMessage → β)
    (hf : f { row with isRead := true } = f row) : f (readRow owner ids row) = f row := by
  unfold readRow
  split
  · exact hf
  · rfl

section

variable (row : StoredMessage)

theorem isIn_readRow :
    (readRow owner ids row).isIn owner conversationId = row.isIn owner conversationId :=
  apply_readRow (·.isIn owner conversationId) rfl

theorem sqlKey_readRow : (readRow owner ids row).sqlKey = row.sqlKey :=
  apply_readRow (·.sqlKey) rfl

theorem orderKey_readRow : (readRow owner ids row).orderKey instant = row.orderKey instant :=
  apply_readRow (·.orderKey instant) rfl

theorem contributes_readRow :
    (readRow owner ids row).contributesToSummary = row.contributesToSummary :=
  apply_readRow (·.contributesToSummary) rfl

end

theorem fromLast_readRow (count unread mentions : Int) (first : String) (row : StoredMessage) :
    Summary.fromLast conversationId count unread mentions first (readRow owner ids row) =
      Summary.fromLast conversationId count unread mentions first row :=
  apply_readRow (Summary.fromLast conversationId count unread mentions first) rfl

theorem unread_readRow (howner : row.ownerIdentityId = owner) :
    ((readRow owner ids row).contributesToSummary && (readRow owner ids row).isUnreadIncoming) =
      ((row.contributesToSummary && row.isUnreadIncoming) && !isMarkedRow owner ids row) := by
  rw [contributes_readRow]
  by_cases hid : row.msgId ∈ ids
  · have hread : readRow owner ids row = { row with isRead := true } := by
      simp [readRow, howner, hid]
    have hfalse : (readRow owner ids row).isUnreadIncoming = false := by
      rw [hread]
      simp [StoredMessage.isUnreadIncoming]
    rw [hfalse]
    cases hunread : row.isUnreadIncoming with
    | false => simp
    | true =>
      simp only [StoredMessage.isUnreadIncoming, Bool.and_eq_true, beq_iff_eq] at hunread
      have hmarked : isMarkedRow owner ids row = true := by
        simpa [isMarkedRow, howner, hid] using hunread.1
      simp [hmarked]
  · have hread : readRow owner ids row = row := by
      simp [readRow, hid]
    have hmarked : isMarkedRow owner ids row = false := by
      simp [isMarkedRow, hid]
    simp [hread, hmarked]

theorem unread_of_marked (hcontributes : row.contributesToSummary = true)
    (hmarked : isMarkedRow owner ids row = true) : row.isUnreadIncoming = true := by
  simp only [isMarkedRow, Bool.and_eq_true] at hmarked
  simp only [StoredMessage.contributesToSummary, Bool.and_eq_true] at hcontributes
  simp [StoredMessage.isUnreadIncoming, hmarked.1.1.2, hmarked.1.2, hcontributes.2]

theorem mention_readRow (howner : row.ownerIdentityId = owner)
    (hmention : isMarkedRow owner ids row = true → row.mentionsCurrentUser = false) :
    ((readRow owner ids row).contributesToSummary && (readRow owner ids row).isUnreadMention) =
      (row.contributesToSummary && row.isUnreadMention) := by
  have hmentions : (readRow owner ids row).mentionsCurrentUser = row.mentionsCurrentUser :=
    apply_readRow (·.mentionsCurrentUser) rfl
  unfold StoredMessage.isUnreadMention
  rw [← Bool.and_assoc, ← Bool.and_assoc, unread_readRow howner, hmentions]
  cases hmarked : isMarkedRow owner ids row with
  | false => simp
  | true => simp [hmention hmarked]

theorem countIn_setRead (p : StoredMessage → Bool) :
    countIn (setRead owner ids messages) owner conversationId p =
      countIn messages owner conversationId fun row => p (readRow owner ids row) := by
  unfold countIn
  rw [setRead_eq_map, List.countP_map]
  congr 2
  funext row
  simp [isIn_readRow]

def countedMarks (messages : List StoredMessage) (owner conversationId : String)
    (ids : List String) : Int :=
  countIn messages owner conversationId fun row =>
    row.contributesToSummary && isMarkedRow owner ids row

theorem countedMarks_eq (messages : List StoredMessage) (owner conversationId : String)
    (ids : List String) :
    countedMarks messages owner conversationId ids =
      countIn messages owner conversationId fun row =>
        (row.contributesToSummary && row.isUnreadIncoming) && isMarkedRow owner ids row := by
  apply countIn_congr
  intro row _ _
  cases hcontributes : row.contributesToSummary with
  | false => simp
  | true =>
    cases hmarked : isMarkedRow owner ids row with
    | false => simp
    | true => simp [unread_of_marked hcontributes hmarked]

theorem unreadCount_setRead :
    (countIn (setRead owner ids messages) owner conversationId fun row =>
      row.contributesToSummary && row.isUnreadIncoming) =
      (countIn messages owner conversationId fun row =>
        row.contributesToSummary && row.isUnreadIncoming) -
          countedMarks messages owner conversationId ids := by
  have hsplit := countIn_and_not messages owner conversationId
    (fun row => row.contributesToSummary && row.isUnreadIncoming) (isMarkedRow owner ids)
  have hmarks := countedMarks_eq messages owner conversationId ids
  have hread : (countIn (setRead owner ids messages) owner conversationId fun row =>
      row.contributesToSummary && row.isUnreadIncoming) =
      countIn messages owner conversationId fun row =>
        (row.contributesToSummary && row.isUnreadIncoming) && !isMarkedRow owner ids row := by
    rw [countIn_setRead]
    apply countIn_congr
    intro row _ hin
    exact unread_readRow (owner_of_isIn hin)
  omega

theorem summarize_setRead
    (hmention : ∀ row ∈ messages, row.isIn owner conversationId = true →
      isMarkedRow owner ids row = true → row.mentionsCurrentUser = false) :
    summarize instant (setRead owner ids messages) owner conversationId =
      (summarize instant messages owner conversationId).map fun summary =>
        { summary with
          unreadCount := summary.unreadCount - countedMarks messages owner conversationId ids } := by
  have hrows : conversationRows (setRead owner ids messages) owner conversationId =
      (conversationRows messages owner conversationId).map (readRow owner ids) := by
    rw [setRead_eq_map]
    exact conversationRows_map isIn_readRow sqlKey_readRow
  have hlast : lastOf instant none ((conversationRows messages owner conversationId).map
      (readRow owner ids)) =
      (lastOf instant none (conversationRows messages owner conversationId)).map
        (readRow owner ids) :=
    lastOf_map contributes_readRow orderKey_readRow none _
  have hcount : countIn (setRead owner ids messages) owner conversationId
      (·.contributesToSummary) = countIn messages owner conversationId (·.contributesToSummary) := by
    rw [countIn_setRead]
    apply countIn_congr
    intro row _ _
    exact contributes_readRow row
  have hsame : ∀ row ∈ messages, row.isIn owner conversationId = true →
      ((readRow owner ids row).contributesToSummary && (readRow owner ids row).isUnreadMention) =
        (row.contributesToSummary && row.isUnreadMention) := by
    intro row hrow hin
    exact mention_readRow (owner_of_isIn hin) (hmention row hrow hin)
  have hmentions : (countIn (setRead owner ids messages) owner conversationId fun row =>
      row.contributesToSummary && row.isUnreadMention) =
      countIn messages owner conversationId fun row =>
        row.contributesToSummary && row.isUnreadMention := by
    rw [countIn_setRead]
    exact countIn_congr hsame
  have hfirst : firstMention ((conversationRows messages owner conversationId).map
      (readRow owner ids)) = firstMention (conversationRows messages owner conversationId) := by
    apply firstMention_map
    · intro row
      exact apply_readRow (·.msgId) rfl
    · intro row hrow
      obtain ⟨hmem, hin⟩ := mem_conversationRows.mp hrow
      exact hsame row hmem hin
  rw [summarize_eq, summarize_eq, hrows, hcount, unreadCount_setRead, hmentions, hfirst, hlast]
  simp only [Option.map_map]
  congr 1
  funext row
  exact fromLast_readRow _ _ _ _ row

/-! ## The delta -/

variable {context : SummaryContext ρ} {tables tables' : SummaryTables ρ}
  {rows : List StoredMessage}

def needsRebuild (tables : SummaryTables ρ) (owner : String) (rows : List StoredMessage)
    (conversationId : String) : Bool :=
  (rows.filter fun row => row.conversation == conversationId).any (·.mentionsCurrentUser) ||
    (tables.view owner conversationId).isNone

def subtractMarked (rows : List StoredMessage) (conversationId : String) (summary : Summary) :
    Summary :=
  summary.addCounts 0 (-((rows.filter fun row => row.conversation == conversationId).length : Int))
    0 (summary.firstUnreadMentionMessageId.getD "")

theorem markReadStep_eq (context : SummaryContext ρ) (owner : String) (rows : List StoredMessage)
    (state : SummaryTables ρ × List String) (conversationId : String) :
    (markReadStep context owner rows state conversationId).2 =
        state.2 ++ (if needsRebuild state.1 owner rows conversationId then [conversationId] else []) ∧
      SameMessageRows state.1 (markReadStep context owner rows state conversationId).1 ∧
      ∀ other, (markReadStep context owner rows state conversationId).1.view owner other =
        if other = conversationId ∧ needsRebuild state.1 owner rows conversationId = false then
          (state.1.view owner other).map (subtractMarked rows other)
        else state.1.view owner other := by
  cases hmention : (rows.filter fun row => row.conversation == conversationId).any
      (·.mentionsCurrentUser) with
  | true =>
    have hneeds : needsRebuild state.1 owner rows conversationId = true := by
      rw [needsRebuild, hmention, Bool.true_or]
    have hstep : markReadStep context owner rows state conversationId =
        (state.1, state.2 ++ [conversationId]) := by
      simp only [markReadStep, hmention, if_true]
    rw [hstep, hneeds]
    exact ⟨rfl, ⟨rfl, rfl⟩, by simp⟩
  | false =>
    cases hfind : state.1.find owner conversationId with
    | none =>
      have hneeds : needsRebuild state.1 owner rows conversationId = true := by
        rw [needsRebuild, hmention, SummaryTables.view, hfind]
        rfl
      have hstep : markReadStep context owner rows state conversationId =
          (state.1, state.2 ++ [conversationId]) := by
        simp only [markReadStep, hmention, hfind, Bool.false_eq_true, if_false]
      rw [hstep, hneeds]
      exact ⟨rfl, ⟨rfl, rfl⟩, by simp⟩
    | some row =>
      have hneeds : needsRebuild state.1 owner rows conversationId = false := by
        rw [needsRebuild, hmention, SummaryTables.view, hfind]
        rfl
      have hstep : markReadStep context owner rows state conversationId =
          (state.1.update owner conversationId (Summary.addCounts 0
            (-((rows.filter fun row => row.conversation == conversationId).length : Int)) 0
            (row.summary.firstUnreadMentionMessageId.getD "")) context.nowText, state.2) := by
        simp only [markReadStep, hmention, hfind, Bool.false_eq_true, if_false]
      rw [hstep, hneeds]
      refine ⟨by simp, ⟨rfl, rfl⟩, ?_⟩
      intro other
      by_cases hother : other = conversationId
      · subst hother
        rw [SummaryTables.view_update]
        simp [SummaryTables.view, hfind, subtractMarked]
      · simp [SummaryTables.view_update, hother]

theorem foldl_markReadStep (context : SummaryContext ρ) (owner : String)
    (rows : List StoredMessage) (conversations : List String) (hnodup : conversations.Nodup)
    (state : SummaryTables ρ × List String) :
    (conversations.foldl (markReadStep context owner rows) state).2 =
        state.2 ++ conversations.filter (needsRebuild state.1 owner rows) ∧
      SameMessageRows state.1 (conversations.foldl (markReadStep context owner rows) state).1 ∧
      ∀ other, (conversations.foldl (markReadStep context owner rows) state).1.view owner other =
        if other ∈ conversations ∧ needsRebuild state.1 owner rows other = false then
          (state.1.view owner other).map (subtractMarked rows other)
        else state.1.view owner other := by
  induction conversations generalizing state with
  | nil => exact ⟨by simp, ⟨rfl, rfl⟩, by simp⟩
  | cons first rest ih =>
    obtain ⟨hfresh, hrest⟩ := List.nodup_cons.mp hnodup
    obtain ⟨hlist, hsame, hview⟩ := markReadStep_eq context owner rows state first
    obtain ⟨hlist', hsame', hview'⟩ := ih hrest (markReadStep context owner rows state first)
    -- the first step leaves the summaries of the other conversations alone
    have hkeep : ∀ other, other ≠ first →
        (markReadStep context owner rows state first).1.view owner other =
          state.1.view owner other := by
      intro other hother
      rw [hview other]
      simp [hother]
    have hneeds : ∀ other, other ≠ first →
        needsRebuild (markReadStep context owner rows state first).1 owner rows other =
          needsRebuild state.1 owner rows other := by
      intro other hother
      simp [needsRebuild, hkeep other hother]
    refine ⟨?_, hsame.trans hsame', ?_⟩
    · rw [List.foldl_cons, hlist', hlist, List.append_assoc]
      have hfilter : rest.filter (needsRebuild (markReadStep context owner rows state first).1
          owner rows) = rest.filter (needsRebuild state.1 owner rows) := by
        apply List.filter_congr
        intro other hother
        apply hneeds
        rintro rfl
        exact hfresh hother
      rw [hfilter, List.filter_cons]
      split <;> simp
    · intro other
      rw [List.foldl_cons, hview' other]
      by_cases hother : other = first
      · subst hother
        simp only [hfresh, false_and, if_false, List.mem_cons, true_or, true_and]
        rw [hview other]
        simp
      · rw [hneeds other hother, hkeep other hother]
        simp [hother]

/-! ## When the delta agrees with a rebuild -/

theorem countIn_and_eq_iff (p q : StoredMessage → Bool) :
    (countIn messages owner conversationId fun row => p row && q row) =
        countIn messages owner conversationId p ↔
      ∀ row ∈ messages, row.isIn owner conversationId = true → p row = true → q row = true := by
  have hzero : (countIn messages owner conversationId fun row => p row && !q row) = 0 ↔
      ∀ row ∈ messages, row.isIn owner conversationId = true → p row = true → q row = true := by
    unfold countIn
    rw [Int.natCast_eq_zero, List.countP_eq_zero]
    simp
  have hsplit := countIn_and_not messages owner conversationId p q
  rw [← hzero]
  omega

theorem length_marked (hblank : Text.isBlank conversationId = false) :
    (((markReadSummaryRows messages owner ids).filter fun row =>
      row.conversation == conversationId).length : Int) =
      countIn messages owner conversationId (isMarkedRow owner ids) := by
  unfold markReadSummaryRows countIn
  rw [List.filter_filter, List.filter_filter, ← List.countP_eq_length_filter]
  congr 1
  apply List.countP_congr
  intro row _
  by_cases hconversation : row.conversation = conversationId
  · cases hmarked : isMarkedRow owner ids row with
    | false => simp
    | true =>
      have howner : row.ownerIdentityId = owner := by
        simp only [isMarkedRow, Bool.and_eq_true, beq_iff_eq] at hmarked
        exact hmarked.1.1.1
      simp [StoredMessage.isIn, hconversation, howner, hblank]
  · simp [StoredMessage.isIn, hconversation]

/-- The subtraction agrees with the rebuild exactly if all marked rows of the conversation
contribute, or if all rows that it counts as unread are marked. -/
theorem subtractMarked_eq_iff (hblank : Text.isBlank conversationId = false)
    (hsummary : summarize instant messages owner conversationId = some summary) :
    subtractMarked (markReadSummaryRows messages owner ids) conversationId summary =
        { summary with
          unreadCount := summary.unreadCount - countedMarks messages owner conversationId ids } ↔
      (∀ row ∈ messages, row.isIn owner conversationId = true →
        isMarkedRow owner ids row = true → row.contributesToSummary = true) ∨
      (∀ row ∈ messages, row.isIn owner conversationId = true →
        (row.contributesToSummary && row.isUnreadIncoming) = true →
          isMarkedRow owner ids row = true) := by
  rw [← countIn_and_eq_iff, ← countIn_and_eq_iff, ← countedMarks_eq]
  have hcomm : (countIn messages owner conversationId fun row =>
      isMarkedRow owner ids row && row.contributesToSummary) =
      countedMarks messages owner conversationId ids := by
    apply countIn_congr
    intro row _ _
    exact Bool.and_comm _ _
  have hle := countIn_and_not messages owner conversationId (isMarkedRow owner ids)
    (·.contributesToSummary)
  have hle' := countIn_and_not messages owner conversationId
    (fun row => row.contributesToSummary && row.isUnreadIncoming) (isMarkedRow owner ids)
  rw [← countedMarks_eq] at hle'
  rw [hcomm] at hle ⊢
  have hnonneg : ∀ p, 0 ≤ countIn messages owner conversationId p := by
    intro p
    exact Int.natCast_nonneg _
  rw [summarize_eq] at hsummary
  obtain ⟨last, -, rfl⟩ := Option.map_eq_some_iff.mp hsummary
  have hrest₁ := hnonneg fun row => isMarkedRow owner ids row && !row.contributesToSummary
  have hrest₂ := hnonneg fun row =>
    (row.contributesToSummary && row.isUnreadIncoming) && !isMarkedRow owner ids row
  have hcount := hnonneg (·.contributesToSummary)
  have hmention := hnonneg fun row => row.contributesToSummary && row.isUnreadMention
  simp only [subtractMarked, Summary.addCounts, Summary.fromLast, length_marked hblank,
    Summary.mk.injEq, nonEmpty_getD_nonEmpty, add_zero, max_eq_right hcount,
    max_eq_right hmention, true_and, and_true]
  omega

/-- A marked row makes the conversation be rebuilt: one that mentions the user, or one whose
conversation id is not trimmed. -/
def RebuiltByMark (messages : List StoredMessage) (owner : String) (ids : List String)
    (conversationId : String) : Prop :=
  ∃ row ∈ markReadSummaryRows messages owner ids, Text.trim row.conversation = conversationId ∧
    (row.conversation = conversationId → ∃ other ∈ markReadSummaryRows messages owner ids,
      other.conversation = conversationId ∧ other.mentionsCurrentUser = true)

/-- For every stored summary that is not rebuilt, the marked rows of its conversation all
contribute to it, or the rows that it counts as unread are all marked. -/
def MarksAgree (tables : SummaryTables ρ) (owner : String) (ids : List String) : Prop :=
  ∀ conversationId, (tables.view owner conversationId).isSome = true →
    ¬ RebuiltByMark tables.messages owner ids conversationId →
      (∀ row ∈ tables.messages, row.isIn owner conversationId = true →
        isMarkedRow owner ids row = true → row.contributesToSummary = true) ∨
      (∀ row ∈ tables.messages, row.isIn owner conversationId = true →
        (row.contributesToSummary && row.isUnreadIncoming) = true →
          isMarkedRow owner ids row = true)

theorem isBlank_of_trim_eq {text : String} (h : Text.trim text = conversationId)
    (hblank : Text.isBlank conversationId = false) : Text.isBlank text = false := by
  rw [← h, Text.isBlank_trim] at hblank
  exact hblank

theorem rebuiltByMark_iff (hconsistent : tables.Consistent instant owner)
    (hstored : (tables.view owner conversationId).isSome = true) :
    (∃ raw ∈ (sortedSet ((markReadSummaryRows tables.messages owner ids).map
        (·.conversation))).filter
        (needsRebuild tables owner (markReadSummaryRows tables.messages owner ids)),
      Text.isBlank raw = false ∧ Text.trim raw = conversationId) ↔
      RebuiltByMark tables.messages owner ids conversationId := by
  have hconsistent := SummaryTables.consistent_iff.mp hconsistent
  obtain ⟨summary, hsummary⟩ := Option.isSome_iff_exists.mp hstored
  have hblank := (rebuilt_eq_some.mp (hconsistent _ _ hsummary)).1
  have hmem : ∀ raw, raw ∈ sortedSet ((markReadSummaryRows tables.messages owner ids).map
      (·.conversation)) ↔
      ∃ row ∈ markReadSummaryRows tables.messages owner ids, row.conversation = raw := by
    intro raw
    rw [sortedSet, List.mem_dedup, List.mem_insertionSort, List.mem_map]
  have hmention : ∀ raw, needsRebuild tables owner
      (markReadSummaryRows tables.messages owner ids) raw = true ↔
      (∃ other ∈ markReadSummaryRows tables.messages owner ids, other.conversation = raw ∧
        other.mentionsCurrentUser = true) ∨ tables.view owner raw = none := by
    intro raw
    simp [needsRebuild]
  constructor
  · rintro ⟨raw, hraw, -, htrim⟩
    obtain ⟨hraw, hneeds⟩ := List.mem_filter.mp hraw
    obtain ⟨row, hrow, rfl⟩ := (hmem raw).mp hraw
    refine ⟨row, hrow, htrim, ?_⟩
    intro heq
    rcases (hmention _).mp hneeds with h | h
    · rw [heq] at h
      exact h
    · rw [heq, hsummary] at h
      cases h
  · rintro ⟨row, hrow, htrim, hother⟩
    refine ⟨row.conversation, List.mem_filter.mpr ⟨(hmem _).mpr ⟨row, hrow, rfl⟩, ?_⟩,
      isBlank_of_trim_eq htrim hblank, htrim⟩
    rw [hmention]
    by_cases heq : row.conversation = conversationId
    · rw [heq]
      exact .inl (hother heq)
    · -- a summary is stored under a trimmed id only
      right
      cases hview : tables.view owner row.conversation with
      | none => rfl
      | some other =>
        have hid := (rebuilt_eq_some.mp (hconsistent _ _ hview)).2.1
        exact absurd (hid.symm.trans htrim) heq

def LeftToRebuild (tables : SummaryTables ρ) (owner : String) (rows : List StoredMessage)
    (conversationId : String) : Prop :=
  ∃ raw ∈ (sortedSet (rows.map (·.conversation))).filter (needsRebuild tables owner rows),
    Text.isBlank raw = false ∧ Text.trim raw = conversationId

structure Marked (context : SummaryContext ρ) (tables tables' : SummaryTables ρ) (owner : String)
    (rows : List StoredMessage) : Prop where
  messages : tables'.messages = tables.messages
  view_of : ∀ other, LeftToRebuild tables owner rows other →
    tables'.view owner other = summarize context.instant tables.messages owner other
  view_of_not : ∀ other, ¬ LeftToRebuild tables owner rows other →
    tables'.view owner other =
      if other ∈ rows.map (·.conversation) ∧ needsRebuild tables owner rows other = false then
        (tables.view owner other).map (subtractMarked rows other)
      else tables.view owner other

theorem applyMarkRead_ok (howner : Text.trim owner = owner) (hblank : Text.isBlank owner = false)
    (hrun : applyMarkReadDeltaOrRebuild context tables owner rows = .ok tables') :
    Marked context tables tables' owner rows := by
  unfold applyMarkReadDeltaOrRebuild at hrun
  obtain ⟨hlist, hsame, hview⟩ := foldl_markReadStep context owner rows
    (sortedSet (rows.map (·.conversation))) (List.nodup_dedup _) (tables, [])
  have hrebuilds := rebuildTouched_ok howner hblank hrun
  rw [hlist, List.nil_append] at hrebuilds
  refine ⟨(hsame.trans hrebuilds.same).messages, ?_, ?_⟩
  · intro other hother
    rw [hrebuilds.view_of other hother, hsame.messages]
  · intro other hother
    rw [hrebuilds.view_of_not other hother, hview other]
    have hmem : other ∈ sortedSet (rows.map (·.conversation)) ↔
        other ∈ rows.map (·.conversation) := by
      rw [sortedSet, List.mem_dedup, List.mem_insertionSort]
    simp only [hmem]

theorem subtractMarked_of_not_mem
    (hsummary : summarize instant messages owner conversationId = some summary)
    (hmem : conversationId ∉ rows.map (·.conversation)) :
    subtractMarked rows conversationId summary = summary := by
  have hnone : (rows.filter fun row => row.conversation == conversationId) = [] := by
    rw [List.filter_eq_nil_iff]
    intro row hrow hconversation
    exact hmem (List.mem_map.mpr ⟨row, hrow, by simpa using hconversation⟩)
  rw [summarize_eq] at hsummary
  obtain ⟨last, -, rfl⟩ := Option.map_eq_some_iff.mp hsummary
  simp [subtractMarked, hnone, Summary.addCounts, Summary.fromLast, nonEmpty_getD_nonEmpty,
    countIn]

theorem not_mention_of_not_rebuilt (hblank : Text.isBlank conversationId = false)
    (htrim : Text.trim conversationId = conversationId)
    (hnot : ¬ RebuiltByMark messages owner ids conversationId) :
    ∀ row ∈ messages, row.isIn owner conversationId = true →
      isMarkedRow owner ids row = true → row.mentionsCurrentUser = false := by
  intro row hrow hin hmarked
  by_contra hmention
  have hconversation : row.conversation = conversationId := by
    simp only [StoredMessage.isIn, Bool.and_eq_true, beq_iff_eq] at hin
    exact hin.2
  have hmem : row ∈ markReadSummaryRows messages owner ids := by
    simp [markReadSummaryRows, hrow, hmarked, hconversation, hblank]
  exact hnot ⟨row, hmem, by rw [hconversation, htrim], fun _ =>
    ⟨row, hmem, hconversation, by simpa using hmention⟩⟩

theorem applyMarkRead_consistent_iff (howner : Text.trim owner = owner)
    (hblank : Text.isBlank owner = false)
    (hconsistent : tables.Consistent context.instant owner)
    (hrun : applyMarkReadDeltaOrRebuild context (tables.setRead owner ids) owner
      (markReadSummaryRows tables.messages owner ids) = .ok tables') :
    tables'.Consistent context.instant owner ↔ MarksAgree tables owner ids := by
  have hmarked := applyMarkRead_ok howner hblank hrun
  have hstored := SummaryTables.consistent_iff.mp hconsistent
  have hmessages : tables'.messages = setRead owner ids tables.messages := hmarked.messages
  -- a stored summary that is not rebuilt: what a rebuild computes and what the loop leaves
  have hkept : ∀ conversationId summary, tables.view owner conversationId = some summary →
      ¬ RebuiltByMark tables.messages owner ids conversationId →
      rebuilt context.instant tables'.messages owner conversationId = some (conversationId,
          { summary with unreadCount := summary.unreadCount -
              countedMarks tables.messages owner conversationId ids }) ∧
        tables'.view owner conversationId = some (subtractMarked
          (markReadSummaryRows tables.messages owner ids) conversationId summary) := by
    intro c summary hsummary hnot
    obtain ⟨hc, htrim, hsum⟩ := rebuilt_eq_some.mp (hstored c summary hsummary)
    constructor
    · refine rebuilt_eq_some.mpr ⟨hc, htrim, ?_⟩
      rw [hmessages, summarize_setRead (not_mention_of_not_rebuilt hc htrim hnot), hsum]
      rfl
    · have hleft : ¬ LeftToRebuild (tables.setRead owner ids) owner
          (markReadSummaryRows tables.messages owner ids) c := by
        intro hleft
        exact hnot ((rebuiltByMark_iff hconsistent (by simp [hsummary])).mp hleft)
      rw [hmarked.view_of_not c hleft]
      have hview : (tables.setRead owner ids).view owner c = some summary := hsummary
      rw [hview]
      split
      next => rfl
      next hmem =>
        have hnotMem : c ∉ (markReadSummaryRows tables.messages owner ids).map
            (·.conversation) := by
          intro hin
          apply hmem
          refine ⟨hin, ?_⟩
          rw [Bool.eq_false_iff]
          intro hneeds
          apply hleft
          refine ⟨c, List.mem_filter.mpr ⟨?_, hneeds⟩, hc, htrim⟩
          rw [sortedSet, List.mem_dedup, List.mem_insertionSort]
          exact hin
        rw [subtractMarked_of_not_mem hsum hnotMem]
  rw [SummaryTables.consistent_iff]
  constructor
  · intro hall c hsome hnot
    obtain ⟨summary, hsummary⟩ := Option.isSome_iff_exists.mp hsome
    obtain ⟨hrebuilt, hview⟩ := hkept c summary hsummary hnot
    have heq := hall c _ hview
    rw [hrebuilt] at heq
    obtain ⟨hc, -, hsum⟩ := rebuilt_eq_some.mp (hstored c summary hsummary)
    simp only [Option.some.injEq, Prod.mk.injEq, true_and] at heq
    exact (subtractMarked_eq_iff hc hsum).mp heq.symm
  · intro hagree c summary' hview'
    by_cases hleft : LeftToRebuild (tables.setRead owner ids) owner
        (markReadSummaryRows tables.messages owner ids) c
    · rw [hmarked.view_of c hleft] at hview'
      obtain ⟨raw, -, hraw, rfl⟩ := hleft
      refine rebuilt_eq_some.mpr ⟨by simpa using hraw, Text.trim_trim raw, ?_⟩
      rw [hmessages]
      exact hview'
    · rw [hmarked.view_of_not c hleft] at hview'
      cases hsummary : tables.view owner c with
      | none =>
        have hview : (tables.setRead owner ids).view owner c = none := hsummary
        simp [hview] at hview'
      | some summary =>
        have hnot : ¬ RebuiltByMark tables.messages owner ids c := by
          intro hrebuilt
          exact hleft ((rebuiltByMark_iff hconsistent (by simp [hsummary])).mpr hrebuilt)
        obtain ⟨hrebuilt, hview⟩ := hkept c summary hsummary hnot
        obtain ⟨hc, -, hsum⟩ := rebuilt_eq_some.mp (hstored c summary hsummary)
        have hagree := (subtractMarked_eq_iff hc hsum).mpr
          (hagree c (by simp [hsummary]) hnot)
        rw [hrebuilt, ← hagree]
        rw [hmarked.view_of_not c hleft] at hview
        rw [hview] at hview'
        simpa using hview'

theorem marksAgree_of_nil (tables : SummaryTables ρ) (owner : String) :
    MarksAgree tables owner [] := by
  intro c _ _
  left
  intro row _ _ hmarked
  simp [isMarkedRow] at hmarked

/-- After messages have been marked as read, the summaries are again what a rebuild computes
exactly if the marked rows agree with the rows that the summaries count. -/
theorem markMessagesRead_consistent_iff {ownerIdentityId : String} {messageIds : List String}
    {updated : Nat}
    (hconsistent : tables.Consistent context.instant (Text.trim ownerIdentityId))
    (hrun : markMessagesReadForOwner context tables ownerIdentityId messageIds =
      .ok (updated, tables')) :
    tables'.Consistent context.instant (Text.trim ownerIdentityId) ↔
      MarksAgree tables (Text.trim ownerIdentityId)
        (canonicalMessageIds tables (Text.trim ownerIdentityId) messageIds) := by
  unfold markMessagesReadForOwner at hrun
  split at hrun
  next hnone =>
    cases hrun
    have hids : canonicalMessageIds tables (Text.trim ownerIdentityId) messageIds = [] := by
      simp [canonicalMessageIds, hnone]
    rw [hids]
    exact ⟨fun _ => marksAgree_of_nil _ _, fun _ => hconsistent⟩
  next =>
    obtain ⟨owner, howner, hrun⟩ := Tx.except_bind_ok.mp hrun
    obtain ⟨rfl, hblank⟩ := requiredText_ok howner
    dsimp only at hrun
    split at hrun
    next hids =>
      cases hrun
      rw [hids]
      exact ⟨fun _ => marksAgree_of_nil _ _, fun _ => hconsistent⟩
    next =>
      obtain ⟨result, happly, hrun⟩ := Tx.except_bind_ok.mp hrun
      cases hrun
      exact applyMarkRead_consistent_iff (Text.trim_trim _) (by simpa using hblank) hconsistent
        happly

/-! ## Samples -/

namespace MarkReadSample

/-- An incoming message of the conversation `c` of the owner `o`. -/
def message (id contentType : String) (content : JsonText) : StoredMessage where
  msgId := id
  ownerIdentityId := "o"
  ownerDid := "d"
  conversationId := "c"
  threadId := "c"
  wireThreadKind := "direct"
  wireThreadRef := "p"
  senderDid := "p"
  receiverDid := "d"
  contentType := contentType
  content := content
  hydrationState := .discovered
  sentAt := "1"
  storedAt := "1"

/-- The tables after a rebuild: an unread text, and a JSON message whose content has not
arrived yet. -/
def stored : SummaryTables Unit where
  messages :=
    [message "a" "text/plain" (.malformed "hi"), message "b" "application/json" (.malformed "")]
  aliases := []
  summaries :=
    [{ ownerIdentityId := "o"
       conversationId := "c"
       summary := .fromLast "c" 1 1 0 "" (message "a" "text/plain" (.malformed "hi"))
       updatedAt := "1" }]
  others := ()
  distinct := by simp [UniqueKey]
  distinctMessages := by simp [UniqueKey, StoredMessage.key, message]

def plain : SummaryContext Unit where
  instant := fun _ => none
  nowText := "2"
  ensure := fun _ _ => .ok ()

theorem stored_consistent : stored.Consistent plain.instant "o" :=
  SummaryTables.consistent_of_all (by decide +kernel)

/-- Reading the message without content takes the text from the unread count. -/
theorem reading_discovered_miscounts :
    stored.Consistent plain.instant "o" ∧
      ∃ updated tables', markMessagesReadForOwner plain stored "o" ["b"] = .ok (updated, tables') ∧
        ¬ tables'.Consistent plain.instant "o" := by
  exact ⟨stored_consistent, SummaryTables.inconsistent_of_view "c" (by decide +kernel)⟩

/-- Reading the text is counted right. -/
theorem reading_text_counts :
    ∃ updated tables', markMessagesReadForOwner plain stored "o" ["a"] = .ok (updated, tables') ∧
      tables'.Consistent plain.instant "o" := by
  obtain ⟨result, hrun⟩ : ∃ result, markMessagesReadForOwner plain stored "o" ["a"] = .ok result :=
    Tx.except_of_isSome (by decide +kernel)
  have hids : canonicalMessageIds stored (Text.trim "o") ["a"] = ["a"] := by
    decide +kernel
  have hmarked : ∀ row ∈ stored.messages, isMarkedRow (Text.trim "o") ["a"] row = true →
      row.contributesToSummary = true := by
    decide +kernel
  have hiff := markMessagesRead_consistent_iff stored_consistent hrun
  refine ⟨result.1, result.2, hrun, hiff.mpr ?_⟩
  rw [hids]
  intro conversationId _ _
  exact .inl fun row hrow _ => hmarked row hrow

end MarkReadSample

end LocalState
end Awiki

import Awiki.MessageTables
import Mathlib

/-!
# Conversation summaries

Every conversation has a row in `conversation_summaries` with its number of messages, its
unread counts and its last message.  `rebuild_conversation` computes the row from the
messages; the other writers change the stored row by a delta and rebuild where they do not
know one.

The summaries read columns of `messages` that the projection of events leaves out, so a
`StoredMessage` has them in addition.  The conversation registry belongs to another module.
-/

namespace Awiki
namespace LocalState

open Rows

/-! ## Messages as the summaries read them -/

/-- A row of `messages` with the columns of the summaries. -/
structure StoredMessage extends MessageRow where
  isRead : Bool := false
  senderName : String := ""
  mentionsCurrentUser : Bool := false

def isControlPayloadValue (value : Json) : Bool :=
  ((value.get "schema").bind Json.asStr).any fun schema =>
    Text.startsWith (Text.trim schema) "awiki."

def isDaemonControlSender (senderDid : String) : Bool :=
  Text.containsText (Text.trim senderDid) ":agent:daemon:"

def isDaemonControlPayloadValue (value : Json) : Bool :=
  (value.get "daemon").isSome || (value.get "runtimes").isSome ||
    (value.get "command_id").isSome || (value.get "events").isSome ||
    ((value.get "command").bind Json.asStr).any fun command =>
      Text.startsWith (Text.trim command) "agent."

def eqIgnoreAsciiCase (a b : String) : Bool :=
  a.toList.map Char.toLower == b.toList.map Char.toLower

def isControlPayloadForProjection (contentType : String) (content : JsonText)
    (senderDid : String) : Bool :=
  eqIgnoreAsciiCase (Text.trim contentType) "application/json" &&
    (content.isBlank ||
      content.value?.any fun value =>
        isControlPayloadValue value ||
          (isDaemonControlSender senderDid && isDaemonControlPayloadValue value))

namespace StoredMessage

def isControlPayload (row : StoredMessage) : Bool :=
  isControlPayloadForProjection row.contentType row.content row.senderDid

def isUnreadIncoming (row : StoredMessage) : Bool :=
  row.direction == 0 && !row.isRead && !row.isControlPayload

def isUnreadMention (row : StoredMessage) : Bool :=
  row.isUnreadIncoming && row.mentionsCurrentUser

def isSelfDirect (row : StoredMessage) : Bool :=
  let owner := Text.trim row.ownerDid
  owner != "" && Text.isBlank row.groupId && Text.isBlank row.groupDid &&
    Text.trim row.senderDid == owner && Text.trim row.receiverDid == owner

def contributesToSummary (row : StoredMessage) : Bool :=
  !row.isSelfDirect && !row.isControlPayload

def unreadCountDelta (row : StoredMessage) : Int :=
  if row.isUnreadIncoming then 1 else 0

def unreadMentionCountDelta (row : StoredMessage) : Int :=
  if row.isUnreadMention then 1 else 0

def key (row : StoredMessage) : String × String :=
  (row.ownerIdentityId, row.msgId)

def isIn (row : StoredMessage) (owner conversationId : String) : Bool :=
  row.ownerIdentityId == owner && row.conversation == conversationId

end StoredMessage

/-! ## Order of messages -/

abbrev OrderKey := WithBot Int ×ₗ Bool ×ₗ Int ×ₗ String

/-- `order_key`; the sequence of an encrypted direct message is no order. -/
def orderKey (instant : String → Option Int) (timestamp : String) (encrypted : Bool)
    (group : String) (sequence : Option Int) (id : String) : OrderKey :=
  toLex (instant timestamp, toLex (encrypted,
    toLex (if encrypted && group = "" then 0 else sequence.getD 0, id)))

def StoredMessage.orderKey (instant : String → Option Int) (row : StoredMessage) : OrderKey :=
  LocalState.orderKey instant row.sortAt row.isE2ee row.groupDid row.serverSeq row.msgId

/-- The `ORDER BY` of `rebuild_conversation`: NULL comes before every sequence. -/
def StoredMessage.sqlKey (row : StoredMessage) : String ×ₗ WithBot Int ×ₗ String :=
  toLex (row.sortAt, toLex (row.serverSeq, row.msgId))

/-! ## Summaries -/

structure Summary where
  ownerDid : String
  threadId : String
  messageCount : Int
  unreadCount : Int
  unreadMentionCount : Int
  firstUnreadMentionMessageId : Option String
  lastMessageId : String
  lastMessageAt : String
  lastContent : Option JsonText
  lastContentType : Option String
  lastSenderDid : Option String
  lastSenderName : Option String
  lastPayloadJson : Option JsonText
  groupId : Option String
  groupDid : Option String
  deriving DecidableEq

/-- A row of `conversation_summaries`. -/
structure SummaryRow where
  ownerIdentityId : String
  conversationId : String
  summary : Summary
  updatedAt : String

namespace SummaryRow

def key (row : SummaryRow) : String × String :=
  (row.ownerIdentityId, row.conversationId)

def isOf (row : SummaryRow) (owner conversationId : String) : Bool :=
  row.key == (owner, conversationId)

end SummaryRow

def Summary.fromLast (conversationId : String) (messageCount unreadCount unreadMentionCount : Int)
    (firstUnreadMentionMessageId : String) (last : StoredMessage) : Summary where
  ownerDid := Text.trim last.ownerDid
  threadId := conversationId
  messageCount := messageCount
  unreadCount := unreadCount
  unreadMentionCount := unreadMentionCount
  firstUnreadMentionMessageId := nonEmpty firstUnreadMentionMessageId
  lastMessageId := last.msgId
  lastMessageAt := last.sortAt
  lastContent := nullableContent last.content
  lastContentType := nonEmpty last.contentType
  lastSenderDid := nonEmpty last.senderDid
  lastSenderName := nonEmpty last.senderName
  lastPayloadJson :=
    if Text.trim last.contentType == "application/json" then nullableContent last.content else none
  groupId := nonEmpty last.groupId
  groupDid := nonEmpty last.groupDid

/-- The variables of the loop of `rebuild_conversation`. -/
structure SummaryScan where
  messageCount : Int := 0
  unreadCount : Int := 0
  unreadMentionCount : Int := 0
  firstUnreadMentionMessageId : String := ""
  last : Option StoredMessage := none

section

variable (instant : String → Option Int)

def SummaryScan.visit (scan : SummaryScan) (row : StoredMessage) : SummaryScan :=
  if row.contributesToSummary then
    { messageCount := scan.messageCount + 1
      unreadCount := if row.isUnreadIncoming then scan.unreadCount + 1 else scan.unreadCount
      unreadMentionCount :=
        if row.isUnreadMention then scan.unreadMentionCount + 1 else scan.unreadMentionCount
      firstUnreadMentionMessageId :=
        if row.isUnreadMention && scan.firstUnreadMentionMessageId = "" then row.msgId
        else scan.firstUnreadMentionMessageId
      last :=
        if scan.last.all fun current => current.orderKey instant < row.orderKey instant
        then some row else scan.last }
  else scan

/-- The rows that `rebuild_conversation` reads, in its order. -/
def conversationRows (messages : List StoredMessage) (owner conversationId : String) :
    List StoredMessage :=
  (messages.filter (·.isIn owner conversationId)).insertionSort fun a b => a.sqlKey ≤ b.sqlKey

def summarize (messages : List StoredMessage) (owner conversationId : String) : Option Summary :=
  let scan := (conversationRows messages owner conversationId).foldl (SummaryScan.visit instant) {}
  scan.last.map fun last => .fromLast conversationId scan.messageCount scan.unreadCount
    scan.unreadMentionCount scan.firstUnreadMentionMessageId last

end

/-! ## Tables and statements -/

/-- The tables of the summaries; `others` belongs to other modules. -/
structure SummaryTables (ρ : Type) where
  messages : List StoredMessage
  aliases : List MessageIdentityAlias
  summaries : List SummaryRow
  others : ρ
  distinct : UniqueKey SummaryRow.key summaries
  distinctMessages : UniqueKey StoredMessage.key messages

theorem distinct_nil : UniqueKey SummaryRow.key [] := .nil _

theorem distinctMessages_nil : UniqueKey StoredMessage.key [] := .nil _

structure ConversationRegistryRecord where
  ownerIdentityId : String
  ownerDid : String
  conversationId : String
  threadKind : String
  threadId : String
  activityAt : String

structure SummaryContext (ρ : Type) where
  /-- `DateTime::parse_from_rfc3339`, as an instant. -/
  instant : String → Option Int
  /-- `now_utc_like`. -/
  nowText : String
  /-- `conversation_registry::ensure`. -/
  ensure : ρ → ConversationRegistryRecord → Except ImError ρ

variable {ρ : Type}

namespace SummaryTables

def find (tables : SummaryTables ρ) (owner conversationId : String) : Option SummaryRow :=
  tables.summaries.find? (·.isOf owner conversationId)

/-- `INSERT INTO conversation_summaries .. ON CONFLICT DO UPDATE` of all columns. -/
def put (tables : SummaryTables ρ) (row : SummaryRow) : SummaryTables ρ :=
  { tables with
    summaries := upsertWhere (·.isOf row.ownerIdentityId row.conversationId) row
      (fun old => { old with summary := row.summary, updatedAt := row.updatedAt }) tables.summaries
    distinct := by
      apply tables.distinct.upsertWhere
      · intro old _
        simp [SummaryRow.isOf, SummaryRow.key]
      · intro old
        rfl }

def delete (tables : SummaryTables ρ) (owner conversationId : String) : SummaryTables ρ :=
  { tables with
    summaries := deleteWhere (·.isOf owner conversationId) tables.summaries
    distinct := tables.distinct.deleteWhere _ }

/-- An `UPDATE` of one summary. -/
def update (tables : SummaryTables ρ) (owner conversationId : String)
    (f : Summary → Summary) (now : String) : SummaryTables ρ :=
  { tables with
    summaries := updateWhere (·.isOf owner conversationId)
      (fun row => { row with summary := f row.summary, updatedAt := now }) tables.summaries
    distinct := tables.distinct.updateWhere fun _ => rfl }

end SummaryTables

/-- The assignments of `update_summary_counts`. -/
def Summary.addCounts (messageDelta unreadDelta unreadMentionDelta : Int)
    (firstUnreadMentionMessageId : String) (summary : Summary) : Summary :=
  { summary with
    messageCount := max 0 (summary.messageCount + messageDelta)
    unreadCount := max 0 (summary.unreadCount + unreadDelta)
    unreadMentionCount := max 0 (summary.unreadMentionCount + unreadMentionDelta)
    firstUnreadMentionMessageId := nonEmpty firstUnreadMentionMessageId }

/-- `required` of the summaries. -/
def requiredField (field value : String) : Except ImError String :=
  (nonEmpty value).elim (.error (invalidInput field (field ++ " is required"))) .ok

section Writers

variable (context : SummaryContext ρ)

/-- `rebuild_conversation`, with whether a summary remains. -/
def rebuildConversation (tables : SummaryTables ρ) (owner conversationId : String) :
    Except ImError (Bool × SummaryTables ρ) := do
  let owner ← requiredField "owner_identity_id" owner
  let conversationId ← requiredField "conversation_id" conversationId
  match summarize context.instant tables.messages owner conversationId with
  | none => return (false, tables.delete owner conversationId)
  | some summary =>
    return (true, tables.put
      { ownerIdentityId := owner
        conversationId := conversationId
        summary := summary
        updatedAt := context.nowText })

def ensureFromSummary (tables : SummaryTables ρ) (owner conversationId : String) :
    Except ImError (SummaryTables ρ) :=
  match tables.find owner conversationId with
  | none => .ok tables
  | some row => do
      let group := Text.startsWith conversationId "group:"
      let others ← context.ensure tables.others
        { ownerIdentityId := owner
          ownerDid := row.summary.ownerDid
          conversationId := conversationId
          threadKind :=
            if group then "group"
            else if Text.startsWith conversationId "dm:peer-scope:v1:" then "direct"
            else "thread"
          threadId := if group then dropGroupTag conversationId else row.summary.threadId
          activityAt :=
            if Text.isBlank row.summary.lastMessageAt then row.updatedAt
            else row.summary.lastMessageAt }
      return { tables with others := others }

/-- `rebuild_single`, and the body of the loop of `rebuild_touched`. -/
def rebuildSingle (tables : SummaryTables ρ) (owner conversationId : String) :
    Except ImError (SummaryTables ρ) := do
  let rebuilt ← rebuildConversation context tables owner conversationId
  if rebuilt.1 then ensureFromSummary context rebuilt.2 owner conversationId
  else return rebuilt.2

/-- `rebuild_touched` for the conversations of one owner. -/
def rebuildTouched (tables : SummaryTables ρ) (owner : String) (touched : List String) :
    Except ImError (SummaryTables ρ) :=
  (sortedSet touched).foldlM (fun tables conversationId =>
    if Text.isBlank owner || Text.isBlank conversationId then .ok tables
    else rebuildSingle context tables owner conversationId) tables

end Writers

/-! ## What a rebuild computes -/

section Rebuild

variable (instant : String → Option Int)

/-- The key and the columns of the row that `rebuild_conversation` writes. -/
def rebuilt (messages : List StoredMessage) (owner conversationId : String) :
    Option (String × Summary) :=
  (nonEmpty conversationId).bind fun id =>
    (summarize instant messages owner id).map fun summary => (id, summary)

/-- Every summary of the owner is the one that a rebuild computes. -/
def SummaryTables.Consistent (tables : SummaryTables ρ) (owner : String) : Prop :=
  ∀ row ∈ tables.summaries, row.ownerIdentityId = owner →
    rebuilt instant tables.messages owner row.conversationId =
      some (row.conversationId, row.summary)

variable {instant} {owner conversationId : String} {messages : List StoredMessage}

/-! ### The loop -/

section

variable (rows : List StoredMessage)

variable (scan : SummaryScan)

theorem foldl_visit_count (count : SummaryScan → Int) {counts : StoredMessage → Bool}
    (hvisit : ∀ scan row, count (SummaryScan.visit instant scan row) =
      count scan + if counts row then 1 else 0) :
    count (rows.foldl (SummaryScan.visit instant) scan) = count scan + rows.countP counts := by
  induction rows generalizing scan with
  | nil => simp
  | cons row rows ih =>
    rw [List.foldl_cons, ih, List.countP_cons, hvisit]
    split
    · push_cast
      ring
    · simp

theorem foldl_visit_messageCount :
    (rows.foldl (SummaryScan.visit instant) scan).messageCount =
      scan.messageCount + rows.countP (·.contributesToSummary) :=
  foldl_visit_count rows scan (·.messageCount) fun _ row => by
    cases hrow : row.contributesToSummary <;> simp [SummaryScan.visit, hrow]

theorem foldl_visit_unreadCount :
    (rows.foldl (SummaryScan.visit instant) scan).unreadCount =
      scan.unreadCount +
        rows.countP (fun row => row.contributesToSummary && row.isUnreadIncoming) :=
  foldl_visit_count rows scan (·.unreadCount) fun _ row => by
    cases hrow : row.contributesToSummary <;> cases hunread : row.isUnreadIncoming <;>
      simp [SummaryScan.visit, hrow, hunread]

theorem foldl_visit_unreadMentionCount :
    (rows.foldl (SummaryScan.visit instant) scan).unreadMentionCount =
      scan.unreadMentionCount +
        rows.countP (fun row => row.contributesToSummary && row.isUnreadMention) :=
  foldl_visit_count rows scan (·.unreadMentionCount) fun _ row => by
    cases hrow : row.contributesToSummary <;> cases hmention : row.isUnreadMention <;>
      simp [SummaryScan.visit, hrow, hmention]

def firstMention (rows : List StoredMessage) : String :=
  (((rows.filter fun row => row.contributesToSummary && row.isUnreadMention).map (·.msgId)).find?
    (· != "")).getD ""

theorem foldl_visit_firstMention :
    (rows.foldl (SummaryScan.visit instant) scan).firstUnreadMentionMessageId =
      if scan.firstUnreadMentionMessageId = "" then firstMention rows
      else scan.firstUnreadMentionMessageId := by
  induction rows generalizing scan with
  | nil => by_cases h : scan.firstUnreadMentionMessageId = "" <;> simp [firstMention, h]
  | cons row rows ih =>
    rw [List.foldl_cons, ih]
    by_cases hrow : row.contributesToSummary = true
    · by_cases hmention : row.isUnreadMention = true
      · by_cases hfirst : scan.firstUnreadMentionMessageId = ""
        · by_cases hid : row.msgId = ""
          · simp [SummaryScan.visit, firstMention, hrow, hmention, hfirst, hid]
          · simp [SummaryScan.visit, firstMention, hrow, hmention, hfirst, hid]
        · simp [SummaryScan.visit, hrow, hfirst]
      · simp [SummaryScan.visit, firstMention, hrow, hmention]
    · simp [SummaryScan.visit, firstMention, hrow]

def lastOf (instant : String → Option Int) (last : Option StoredMessage)
    (rows : List StoredMessage) : Option StoredMessage :=
  (rows.filter (·.contributesToSummary)).foldl (fun last row =>
    if last.all fun current => current.orderKey instant < row.orderKey instant then some row
    else last) last

theorem foldl_visit_last :
    (rows.foldl (SummaryScan.visit instant) scan).last = lastOf instant scan.last rows := by
  induction rows generalizing scan with
  | nil => rfl
  | cons row rows ih =>
    rw [List.foldl_cons, ih]
    by_cases hrow : row.contributesToSummary = true
    · simp [SummaryScan.visit, lastOf, hrow]
    · simp [SummaryScan.visit, lastOf, hrow]

end

def countIn (messages : List StoredMessage) (owner conversationId : String)
    (p : StoredMessage → Bool) : Int :=
  messages.countP fun row => row.isIn owner conversationId && p row

theorem countP_conversationRows (p : StoredMessage → Bool) :
    ((conversationRows messages owner conversationId).countP p : Int) =
      countIn messages owner conversationId p := by
  have hperm := List.perm_insertionSort (fun a b : StoredMessage => a.sqlKey ≤ b.sqlKey)
    (messages.filter (·.isIn owner conversationId))
  rw [conversationRows, hperm.countP_eq, List.countP_filter]
  simp [countIn, Bool.and_comm]

theorem mem_conversationRows {row : StoredMessage} :
    row ∈ conversationRows messages owner conversationId ↔
      row ∈ messages ∧ row.isIn owner conversationId = true := by
  simp [conversationRows]

theorem countIn_congr {p q : StoredMessage → Bool}
    (h : ∀ row ∈ messages, row.isIn owner conversationId = true → p row = q row) :
    countIn messages owner conversationId p = countIn messages owner conversationId q := by
  unfold countIn
  congr 1
  apply List.countP_congr
  intro row hrow
  cases hin : row.isIn owner conversationId with
  | false => simp
  | true => simp [h row hrow hin]

theorem countIn_and_not (messages : List StoredMessage) (owner conversationId : String)
    (p q : StoredMessage → Bool) :
    countIn messages owner conversationId p =
      countIn messages owner conversationId (fun row => p row && q row) +
        countIn messages owner conversationId fun row => p row && !q row := by
  unfold countIn
  induction messages with
  | nil => simp
  | cons row rows ih =>
    simp only [List.countP_cons, Nat.cast_add]
    have hrow : ∀ a b c : Bool, (if (a && b) = true then 1 else 0 : Nat) =
        (if (a && (b && c)) = true then 1 else 0) + if (a && (b && !c)) = true then 1 else 0 := by
      decide
    rw [hrow _ _ (q row)]
    push_cast
    dsimp only at ih ⊢
    omega

theorem owner_of_isIn {row : StoredMessage} (h : row.isIn owner conversationId = true) :
    row.ownerIdentityId = owner := by
  simp only [StoredMessage.isIn, Bool.and_eq_true, beq_iff_eq] at h
  exact h.1

theorem summarize_eq :
    summarize instant messages owner conversationId =
      (lastOf instant none (conversationRows messages owner conversationId)).map
        (Summary.fromLast conversationId
          (countIn messages owner conversationId (·.contributesToSummary))
          (countIn messages owner conversationId fun row =>
            row.contributesToSummary && row.isUnreadIncoming)
          (countIn messages owner conversationId fun row =>
            row.contributesToSummary && row.isUnreadMention)
          (firstMention (conversationRows messages owner conversationId))) := by
  simp [summarize, foldl_visit_messageCount, foldl_visit_unreadCount,
    foldl_visit_unreadMentionCount, foldl_visit_firstMention, foldl_visit_last,
    countP_conversationRows]

/-! ### Messages that change in place -/

section Map

variable {f : StoredMessage → StoredMessage}

theorem conversationRows_map (hin : ∀ row, (f row).isIn owner conversationId =
    row.isIn owner conversationId) (hkey : ∀ row, (f row).sqlKey = row.sqlKey) :
    conversationRows (messages.map f) owner conversationId =
      (conversationRows messages owner conversationId).map f := by
  have hfilter : (messages.map f).filter (·.isIn owner conversationId) =
      (messages.filter (·.isIn owner conversationId)).map f := by
    rw [List.filter_map]
    congr 1
    apply List.filter_congr
    intro row _
    exact hin row
  rw [conversationRows, conversationRows, hfilter]
  apply Eq.symm
  apply List.map_insertionSort
  intro a _ b _
  rw [hkey, hkey]

theorem lastOf_map (hcontributes : ∀ row, (f row).contributesToSummary = row.contributesToSummary)
    (hkey : ∀ row, (f row).orderKey instant = row.orderKey instant)
    (last : Option StoredMessage) (rows : List StoredMessage) :
    lastOf instant (last.map f) (rows.map f) = (lastOf instant last rows).map f := by
  induction rows generalizing last with
  | nil => rfl
  | cons row rows ih =>
    by_cases hrow : row.contributesToSummary = true
    · have hstep : ∀ last' : Option StoredMessage, lastOf instant last' (f row :: rows.map f) =
          lastOf instant (if last'.all fun current => current.orderKey instant <
            row.orderKey instant then some (f row) else last') (rows.map f) := by
        intro last'
        simp [lastOf, hcontributes, hrow, hkey]
      have hall : (last.map f).all (fun current => current.orderKey instant <
          row.orderKey instant) = last.all fun current => current.orderKey instant <
          row.orderKey instant := by
        cases last <;> simp [hkey]
      rw [List.map_cons, hstep, hall]
      by_cases hlater : (last.all fun current => current.orderKey instant <
          row.orderKey instant) = true
      · rw [if_pos hlater]
        simpa [lastOf, hrow, hlater] using ih (some row)
      · rw [if_neg hlater]
        simpa [lastOf, hrow, hlater] using ih last
    · simpa [lastOf, hcontributes, hrow] using ih last

theorem firstMention_map {rows : List StoredMessage} (hid : ∀ row, (f row).msgId = row.msgId)
    (hmention : ∀ row ∈ rows, ((f row).contributesToSummary && (f row).isUnreadMention) =
      (row.contributesToSummary && row.isUnreadMention)) :
    firstMention (rows.map f) = firstMention rows := by
  unfold firstMention
  rw [List.filter_map, List.map_map]
  have hfilter : rows.filter ((fun row => row.contributesToSummary && row.isUnreadMention) ∘ f) =
      rows.filter fun row => row.contributesToSummary && row.isUnreadMention :=
    List.filter_congr hmention
  have hmap : ((·.msgId) ∘ f : StoredMessage → String) = (·.msgId) := by
    funext row
    exact hid row
  rw [hfilter, hmap]

end Map

end Rebuild

/-! ## The stored summary of a conversation -/

theorem nonEmpty_eq_some {value text : String} :
    nonEmpty value = some text ↔ Text.isBlank value = false ∧ Text.trim value = text := by
  unfold nonEmpty
  by_cases h : Text.isBlank value = true <;> simp [h]

theorem nonEmpty_getD_nonEmpty (text : String) :
    nonEmpty ((nonEmpty text).getD "") = nonEmpty text := by
  by_cases h : Text.isBlank text = true
  · have hempty : Text.isBlank "" = true := rfl
    simp [nonEmpty, h, hempty]
  · simp [nonEmpty, h]

theorem requiredField_ok {field value text : String} :
    requiredField field value = .ok text ↔
      Text.isBlank value = false ∧ Text.trim value = text := by
  unfold requiredField nonEmpty
  by_cases h : Text.isBlank value = true <;> simp [h]

theorem rebuilt_eq_some {instant : String → Option Int} {messages : List StoredMessage}
    {owner conversationId id : String} {summary : Summary} :
    rebuilt instant messages owner conversationId = some (id, summary) ↔
      Text.isBlank conversationId = false ∧ Text.trim conversationId = id ∧
        summarize instant messages owner id = some summary := by
  unfold rebuilt
  constructor
  · intro h
    obtain ⟨text, htext, h⟩ := Option.bind_eq_some_iff.mp h
    obtain ⟨found, hfound, h⟩ := Option.map_eq_some_iff.mp h
    obtain ⟨rfl, rfl⟩ := Prod.mk.inj h
    obtain ⟨hblank, htrim⟩ := nonEmpty_eq_some.mp htext
    exact ⟨hblank, htrim, hfound⟩
  · rintro ⟨hblank, rfl, hsummary⟩
    simp [nonEmpty, hblank, hsummary]

namespace SummaryTables

variable {tables tables' : SummaryTables ρ} {owner conversationId : String}

def view (tables : SummaryTables ρ) (owner conversationId : String) : Option Summary :=
  (tables.find owner conversationId).map (·.summary)

theorem find_eq_some {row : SummaryRow} :
    tables.find owner conversationId = some row ↔
      row ∈ tables.summaries ∧ row.ownerIdentityId = owner ∧
        row.conversationId = conversationId := by
  have hkey : ∀ other : SummaryRow, other.isOf owner conversationId = true ↔
      other.key = (owner, conversationId) := by
    simp [SummaryRow.isOf]
  constructor
  · intro h
    unfold find at h
    have hrow := (hkey row).mp (by simpa using List.find?_some h)
    exact ⟨List.mem_of_find?_eq_some h, congrArg Prod.fst hrow, congrArg Prod.snd hrow⟩
  · rintro ⟨hmem, rfl, rfl⟩
    apply tables.distinct.find?_eq_some hmem
    · exact (hkey row).mpr rfl
    · intro other _ hother
      exact (hkey other).mp hother

theorem consistent_of_all {instant : String → Option Int}
    (h : (tables.summaries.all fun row => rebuilt instant tables.messages owner row.conversationId =
      some (row.conversationId, row.summary)) = true) : tables.Consistent instant owner := by
  intro row hrow _
  simpa using List.all_eq_true.mp h row hrow

theorem consistent_iff {instant : String → Option Int} :
    tables.Consistent instant owner ↔
      ∀ conversationId summary, tables.view owner conversationId = some summary →
        rebuilt instant tables.messages owner conversationId = some (conversationId, summary) := by
  constructor
  · intro h conversationId summary hview
    obtain ⟨row, hrow, rfl⟩ := Option.map_eq_some_iff.mp hview
    obtain ⟨hmem, howner, rfl⟩ := find_eq_some.mp hrow
    exact h row hmem howner
  · intro h row hmem howner
    apply h
    have hrow := find_eq_some.mpr ⟨hmem, howner, rfl⟩
    simp [view, hrow]

theorem inconsistent_of_view {ε β : Type} {instant : String → Option Int} (conversationId : String)
    {result : Except ε (β × SummaryTables ρ)}
    (h : (result.toOption.bind fun r => (r.2.view owner conversationId).map fun summary =>
      decide (rebuilt instant r.2.messages owner conversationId =
        some (conversationId, summary))) = some false) :
    ∃ value tables', result = .ok (value, tables') ∧ ¬ tables'.Consistent instant owner := by
  obtain ⟨r, hr, hview⟩ := Option.bind_eq_some_iff.mp h
  obtain ⟨summary, hsummary, hne⟩ := Option.map_eq_some_iff.mp hview
  refine ⟨r.1, r.2, Tx.except_toOption_ok.mp hr, fun hconsistent => ?_⟩
  exact of_decide_eq_false hne (consistent_iff.mp hconsistent _ summary hsummary)

theorem isOf_of_ne {row : SummaryRow} {owner' conversationId' : String}
    (h : row.isOf owner conversationId = true)
    (hne : (owner', conversationId') ≠ (owner, conversationId)) :
    row.isOf owner' conversationId' = false := by
  simp only [SummaryRow.isOf, beq_iff_eq] at h ⊢
  rw [h]
  simpa using hne.symm

theorem view_put (row : SummaryRow) (owner conversationId : String) :
    (tables.put row).view owner conversationId =
      if (owner, conversationId) = row.key then some row.summary
      else tables.view owner conversationId := by
  by_cases hkey : (owner, conversationId) = row.key
  · rw [if_pos hkey]
    obtain ⟨rfl, rfl⟩ := Prod.mk.inj hkey
    have hrow : row ∈ (tables.put row).summaries := by
      rcases exists_mem_upsertWhere (·.isOf row.ownerIdentityId row.conversationId) row
        (fun old => { old with summary := row.summary, updatedAt := row.updatedAt })
        tables.summaries with h | ⟨old, -, hold, h⟩
      · exact h
      · simp only [SummaryRow.isOf, SummaryRow.key, beq_iff_eq, Prod.mk.injEq] at hold
        rw [hold.1, hold.2] at h
        exact h
    simp [view, find_eq_some.mpr ⟨hrow, rfl, rfl⟩]
  · rw [if_neg hkey]
    have hfind : (tables.put row).find owner conversationId = tables.find owner conversationId := by
      apply find?_upsertWhere_of_ne
      · intro old hold
        exact isOf_of_ne hold hkey
      · simp only [SummaryRow.isOf, beq_eq_false_iff_ne]
        exact fun h => hkey h.symm
      · intro old hold
        exact isOf_of_ne hold hkey
    rw [view, hfind, view]

variable (owner conversationId owner' conversationId' : String)

theorem view_delete :
    (tables.delete owner conversationId).view owner' conversationId' =
      if (owner', conversationId') = (owner, conversationId) then none
      else tables.view owner' conversationId' := by
  by_cases hkey : (owner', conversationId') = (owner, conversationId)
  · obtain ⟨rfl, rfl⟩ := Prod.mk.inj hkey
    have hfind : (tables.delete owner' conversationId').find owner' conversationId' = none := by
      apply List.find?_eq_none.mpr
      intro row hrow
      simpa using (mem_deleteWhere.mp hrow).2
    simp [view, hfind]
  · rw [if_neg hkey]
    have hfind : (tables.delete owner conversationId).find owner' conversationId' =
        tables.find owner' conversationId' := by
      ext row
      rw [find_eq_some, find_eq_some]
      constructor
      · rintro ⟨hrow, hrest⟩
        exact ⟨(mem_deleteWhere.mp hrow).1, hrest⟩
      · rintro ⟨hrow, rfl, rfl⟩
        refine ⟨mem_deleteWhere.mpr ⟨hrow, ?_⟩, rfl, rfl⟩
        simpa [SummaryRow.isOf, SummaryRow.key] using hkey
    rw [view, hfind, view]

theorem view_update (f : Summary → Summary) (now : String) :
    (tables.update owner conversationId f now).view owner' conversationId' =
      if (owner', conversationId') = (owner, conversationId) then
        (tables.view owner conversationId).map f
      else tables.view owner' conversationId' := by
  have hfind : (tables.update owner conversationId f now).find owner' conversationId' =
      (tables.find owner' conversationId').map fun row =>
        if row.isOf owner conversationId then { row with summary := f row.summary, updatedAt := now }
        else row := by
    apply find?_updateWhere
    intro row
    rfl
  rw [view, hfind]
  cases hold : tables.find owner' conversationId' with
  | none =>
    by_cases hkey : (owner', conversationId') = (owner, conversationId)
    · obtain ⟨rfl, rfl⟩ := Prod.mk.inj hkey
      simp [view, hold]
    · simp [view, hold, hkey]
  | some row =>
    obtain ⟨-, rfl, rfl⟩ := find_eq_some.mp hold
    by_cases hkey : (row.ownerIdentityId, row.conversationId) = (owner, conversationId)
    · obtain ⟨rfl, rfl⟩ := Prod.mk.inj hkey
      simp [view, hold, SummaryRow.isOf, SummaryRow.key]
    · have hother : row.isOf owner conversationId = false := by
        simpa [SummaryRow.isOf, SummaryRow.key] using hkey
      simp [view, hold, hkey, hother]

end SummaryTables

/-! ## What the writers leave -/

variable {context : SummaryContext ρ} {tables tables' : SummaryTables ρ}
  {owner conversationId : String}

structure SameMessageRows (tables tables' : SummaryTables ρ) : Prop where
  messages : tables'.messages = tables.messages
  aliases : tables'.aliases = tables.aliases

theorem SameMessageRows.trans {tables'' : SummaryTables ρ} (h : SameMessageRows tables tables')
    (h' : SameMessageRows tables' tables'') : SameMessageRows tables tables'' :=
  ⟨h'.messages.trans h.messages, h'.aliases.trans h.aliases⟩

structure Rebuilds (context : SummaryContext ρ) (tables tables' : SummaryTables ρ)
    (owner : String) (rebuilds : String → Prop) : Prop where
  same : SameMessageRows tables tables'
  view_of : ∀ conversationId, rebuilds conversationId →
    tables'.view owner conversationId =
      summarize context.instant tables.messages owner conversationId
  view_of_not : ∀ conversationId, ¬ rebuilds conversationId →
    tables'.view owner conversationId = tables.view owner conversationId

theorem rebuildConversation_ok {result : Bool × SummaryTables ρ} (howner : Text.trim owner = owner)
    (h : rebuildConversation context tables owner conversationId = .ok result) :
    Rebuilds context tables result.2 owner (· = Text.trim conversationId) := by
  unfold rebuildConversation at h
  obtain ⟨o, ho, hwrite⟩ := Tx.except_bind_ok.mp h
  obtain ⟨c, hc, hwrite⟩ := Tx.except_bind_ok.mp hwrite
  have ho := (requiredField_ok.mp ho).2
  have hc := (requiredField_ok.mp hc).2
  rw [howner] at ho
  subst o c
  clear h
  split at hwrite
  next hnone =>
    cases hwrite
    refine ⟨⟨rfl, rfl⟩, ?_, ?_⟩
    · rintro _ rfl
      simp [SummaryTables.view_delete, hnone]
    · intro c hc
      simp [SummaryTables.view_delete, hc]
  next summary hsome =>
    cases hwrite
    refine ⟨⟨rfl, rfl⟩, ?_, ?_⟩
    · rintro _ rfl
      simp [SummaryTables.view_put, SummaryRow.key, hsome]
    · intro c hc
      simp [SummaryTables.view_put, SummaryRow.key, hc]

theorem ensureFromSummary_ok (h : ensureFromSummary context tables owner conversationId =
    .ok tables') : SameMessageRows tables tables' ∧ tables'.summaries = tables.summaries := by
  unfold ensureFromSummary at h
  split at h
  · cases h
    exact ⟨⟨rfl, rfl⟩, rfl⟩
  · obtain ⟨others, -, h⟩ := Tx.except_bind_ok.mp h
    cases h
    exact ⟨⟨rfl, rfl⟩, rfl⟩

theorem rebuildSingle_ok (howner : Text.trim owner = owner)
    (h : rebuildSingle context tables owner conversationId = .ok tables') :
    Rebuilds context tables tables' owner (· = Text.trim conversationId) := by
  unfold rebuildSingle at h
  obtain ⟨result, hrebuild, h⟩ := Tx.except_bind_ok.mp h
  have hresult := rebuildConversation_ok howner hrebuild
  split at h
  · obtain ⟨hsame, hsummaries⟩ := ensureFromSummary_ok h
    refine ⟨hresult.same.trans hsame, ?_, ?_⟩
    · intro c hc
      rw [← hresult.view_of c hc]
      simp [SummaryTables.view, SummaryTables.find, hsummaries]
    · intro c hc
      rw [← hresult.view_of_not c hc]
      simp [SummaryTables.view, SummaryTables.find, hsummaries]
  · cases h
    exact hresult

theorem Rebuilds.trans {tables'' : SummaryTables ρ} {first second : String → Prop}
    (h : Rebuilds context tables tables' owner first)
    (h' : Rebuilds context tables' tables'' owner second) :
    Rebuilds context tables tables'' owner fun c => first c ∨ second c := by
  refine ⟨h.same.trans h'.same, ?_, ?_⟩
  · intro c hc
    by_cases hsecond : second c
    · rw [h'.view_of c hsecond, h.same.messages]
    · rw [h'.view_of_not c hsecond, h.view_of c (hc.resolve_right hsecond)]
  · intro c hc
    rw [h'.view_of_not c fun hs => hc (.inr hs), h.view_of_not c fun hf => hc (.inl hf)]

theorem rebuildTouched_ok {touched : List String} (howner : Text.trim owner = owner)
    (hblank : Text.isBlank owner = false)
    (h : rebuildTouched context tables owner touched = .ok tables') :
    Rebuilds context tables tables' owner fun c =>
      ∃ raw ∈ touched, Text.isBlank raw = false ∧ Text.trim raw = c := by
  have hmem : ∀ raw, raw ∈ touched ↔ raw ∈ sortedSet touched := by
    intro raw
    rw [sortedSet, List.mem_dedup, List.mem_insertionSort]
  simp only [hmem]
  unfold rebuildTouched at h
  generalize sortedSet touched = ids at h
  clear hmem
  induction ids generalizing tables with
  | nil =>
    cases h
    exact ⟨⟨rfl, rfl⟩, by simp, fun _ _ => rfl⟩
  | cons raw ids ih =>
    rw [List.foldlM_cons] at h
    obtain ⟨mid, hfirst, h⟩ := Tx.except_bind_ok.mp h
    have hrest := ih h
    by_cases hraw : Text.isBlank raw = true
    · simp only [hblank, hraw, Bool.false_or, if_true] at hfirst
      cases hfirst
      simpa [hraw] using hrest
    · simp only [hblank, hraw, Bool.or_self, Bool.false_eq_true, if_false] at hfirst
      have hiff : ∀ c, (c = Text.trim raw ∨ ∃ raw' ∈ ids, Text.isBlank raw' = false ∧
          Text.trim raw' = c) ↔
          ∃ raw' ∈ raw :: ids, Text.isBlank raw' = false ∧ Text.trim raw' = c := by
        intro c
        rw [List.exists_mem_cons_iff]
        simp [hraw, @eq_comm _ c]
      have htrans := (rebuildSingle_ok howner hfirst).trans hrest
      simpa only [hiff] using htrans

/-! ## Other tables -/

/-- A relation of the tables of other modules that holds across `conversation_registry::ensure`. -/
structure Framed (context : SummaryContext ρ) (R : ρ → ρ → Prop) : Prop where
  refl : ∀ others, R others others
  trans : ∀ {first second third}, R first second → R second third → R first third
  ensure : ∀ {others record others'}, context.ensure others record = .ok others' →
    R others others'

structure KeepsRows (R : ρ → ρ → Prop) (tables tables' : SummaryTables ρ) : Prop
    extends SameMessageRows tables tables' where
  others : R tables.others tables'.others

namespace Framed

variable {R : ρ → ρ → Prop} (hR : Framed context R)

include hR

theorem of_eq (h : SameMessageRows tables tables') (hothers : tables'.others = tables.others) :
    KeepsRows R tables tables' :=
  ⟨h, hothers ▸ hR.refl _⟩

theorem compose {tables'' : SummaryTables ρ} (h : KeepsRows R tables tables')
    (h' : KeepsRows R tables' tables'') : KeepsRows R tables tables'' :=
  ⟨h.toSameMessageRows.trans h'.toSameMessageRows, hR.trans h.others h'.others⟩

theorem ensureFromSummary
    (h : LocalState.ensureFromSummary context tables owner conversationId = .ok tables') :
    KeepsRows R tables tables' := by
  unfold LocalState.ensureFromSummary at h
  split at h
  · cases h
    exact hR.of_eq ⟨rfl, rfl⟩ rfl
  · obtain ⟨others, hothers, h⟩ := Tx.except_bind_ok.mp h
    cases h
    exact ⟨⟨rfl, rfl⟩, hR.ensure hothers⟩

theorem rebuildSingle
    (h : LocalState.rebuildSingle context tables owner conversationId = .ok tables') :
    KeepsRows R tables tables' := by
  unfold LocalState.rebuildSingle rebuildConversation at h
  simp only [Tx.except_bind_ok] at h
  obtain ⟨result, ⟨_, -, _, -, hwrite⟩, h⟩ := h
  have hresult : KeepsRows R tables result.2 := by
    split at hwrite
    · cases hwrite
      exact hR.of_eq ⟨rfl, rfl⟩ rfl
    · cases hwrite
      exact hR.of_eq ⟨rfl, rfl⟩ rfl
  split at h
  · exact hR.compose hresult (hR.ensureFromSummary h)
  · cases h
    exact hresult

theorem rebuildTouched {touched : List String}
    (h : LocalState.rebuildTouched context tables owner touched = .ok tables') :
    KeepsRows R tables tables' := by
  unfold LocalState.rebuildTouched at h
  generalize sortedSet touched = ids at h
  induction ids generalizing tables with
  | nil =>
    cases h
    exact hR.of_eq ⟨rfl, rfl⟩ rfl
  | cons id ids ih =>
    rw [List.foldlM_cons] at h
    obtain ⟨middle, hmiddle, hrest⟩ := Tx.except_bind_ok.mp h
    refine hR.compose ?_ (ih hrest)
    split at hmiddle
    · cases hmiddle
      exact hR.of_eq ⟨rfl, rfl⟩ rfl
    · exact hR.rebuildSingle hmiddle

end Framed

end LocalState
end Awiki

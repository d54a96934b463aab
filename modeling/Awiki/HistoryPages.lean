import Awiki.Base64Url
import Awiki.ConversationSummaries
import Awiki.KeysetPages
import Awiki.PeerTables

/-!
# Pages of the history of a thread

The local history of a thread is read in pages, newest message first.  A page is selected
by the columns as they are stored; its cursor is written from the trimmed columns of its
last row.  The pages list the thread exactly if the two agree at every border of pages.
-/

namespace Awiki
namespace LocalState

open Rows Paging

variable {ρ : Type}

/-! ## Reading a page -/

inductive ThreadRef where
  | direct (peer : String)
  | group (group : String)
  | thread (thread : String)
  deriving DecidableEq

/-- What the history is read with: the conversations of a thread, and the text of an error of
the decoder. -/
structure HistoryContext (ρ : Type) where
  conversationIdsForThreadRef : SummaryTables ρ → String → String → ThreadRef →
    Except ImError (List String)
  decodeError : String → String

structure ThreadLocalHistoryRecords where
  records : List StoredMessage
  nextCursor : Option String
  hasMore : Bool

def peerScopeProjectionIdForThreadRef : ThreadRef → Option String
  | .thread thread =>
    let raw := Text.trim thread
    if Text.startsWith raw "dm:peer-scope:" then some raw else none
  | .direct _ => none
  | .group _ => none

/-- A record in `project_direct_records_to_thread`. -/
def projectDirectRecord (threadId : String) (record : StoredMessage) : StoredMessage :=
  if !Text.isBlank record.groupId || !Text.isBlank record.groupDid then record
  else { record with conversationId := Text.trim threadId, threadId := Text.trim threadId }

def projectDirectRecordsToThread (records : List StoredMessage) (threadId : String) :
    List StoredMessage :=
  if Text.isBlank threadId then records else records.map (projectDirectRecord threadId)

def normalizeLocalHistoryLimit (limit : Int) : Int :=
  max 1 (min limit 100)

def encodeLocalHistoryCursor (record : StoredMessage) : Option String :=
  (nonEmpty record.msgId).map fun msgId =>
    let timestamp := ((nonEmpty record.sentAt).or (nonEmpty record.storedAt)).getD ""
    "local-history:v1:" ++ Base64Url.encode timestamp ++ ":" ++ Base64Url.encode msgId

def base64UrlDecode (context : HistoryContext ρ) (value field : String) :
    Except ImError String :=
  (Base64Url.decode value).elim (.error (invalidInput field (context.decodeError value))) .ok

def decodeLocalHistoryCursor (context : HistoryContext ρ) (cursor : Option String) :
    Except ImError (Option (String × String)) :=
  match cursor.bind nonEmpty with
  | none => .ok none
  | some cursor => do
      let rest ← (Text.afterStart "local-history:v1:" cursor).elim
        (.error (invalidInput "cursor" "local history cursor must be produced by local_history"))
        .ok
      let parts ← (Text.splitOnce ':' rest).elim
        (.error (invalidInput "cursor" "local history cursor is malformed")) .ok
      let timestamp ← base64UrlDecode context parts.1 "cursor"
      let msgId ← base64UrlDecode context parts.2 "cursor"
      let _required ← requiredText "cursor.message_id" msgId
      return some (timestamp, msgId)

def StoredMessage.historyPosition (row : StoredMessage) : String ×ₗ String :=
  toLex (row.sortAt, row.msgId)

def StoredMessage.isListable (row : StoredMessage) (owner : String) (conversationIds : List String) :
    Bool :=
  row.ownerIdentityId == owner && row.hydrationState == .hydrated &&
    conversationIds.contains row.conversation

def StoredMessage.isBelow (row : StoredMessage) (cursor : Option (String × String)) : Bool :=
  match cursor with
  | none => true
  | some (timestamp, msgId) =>
    decide (row.sortAt < timestamp) || (row.sortAt == timestamp && decide (row.msgId < msgId))

/-- `list_messages_for_thread_ref_for_owner_identity`. -/
def listMessagesForThreadRef (context : HistoryContext ρ) (tables : SummaryTables ρ)
    (ownerIdentityId ownerDid : String) (thread : ThreadRef) (limit : Int)
    (cursor : Option String) : Except ImError ThreadLocalHistoryRecords := do
  let owner ← requiredText "owner_identity_id" ownerIdentityId
  let limit := normalizeLocalHistoryLimit limit
  let cursor ← decodeLocalHistoryCursor context cursor
  let conversationIds ← context.conversationIdsForThreadRef tables owner ownerDid thread
  if conversationIds.isEmpty then
    return { records := [], nextCursor := none, hasMore := false }
  else
    let selected := tables.messages.filter fun row =>
      row.isListable owner conversationIds && row.isBelow cursor
    let fetched := (sortDescending StoredMessage.historyPosition selected).take (limit.toNat + 1)
    let records := (peerScopeProjectionIdForThreadRef thread).elim fetched
      (projectDirectRecordsToThread fetched)
    let hasMore := decide (limit < records.length)
    let records := if hasMore then records.take limit.toNat else records
    return {
      records := records
      nextCursor := if hasMore then records.getLast?.bind encodeLocalHistoryCursor else none
      hasMore := hasMore }

/-! ## Cursors -/

theorem trim_encode (text : String) :
    Text.trim (Base64Url.encode text) = Base64Url.encode text := by
  have hall : (Base64Url.alphabet.all fun c => !Text.isWhiteSpace c) = true := by
    decide +kernel
  have hspace : ∀ c ∈ Base64Url.alphabet, Text.isWhiteSpace c = false := by
    intro c hc
    simpa using List.all_eq_true.mp hall c hc
  apply Text.trim_eq_self
  · intro c hc
    exact hspace c (Base64Url.mem_encode (List.mem_of_mem_head? hc))
  · intro c hc
    exact hspace c (Base64Url.mem_encode (List.mem_of_mem_getLast? hc))

theorem splitOnce_append {separator : Char} {front back : String}
    (h : separator ∉ front.toList) :
    Text.splitOnce separator (front ++ String.singleton separator ++ back) =
      some (front, back) := by
  have hne : ∀ c ∈ front.toList, (c != separator) = true := by
    intro c hc
    rw [bne_iff_ne]
    rintro rfl
    exact h hc
  have hlist : (front ++ String.singleton separator ++ back).toList =
      front.toList ++ separator :: back.toList := by
    simp
  unfold Text.splitOnce
  rw [hlist, List.dropWhile_append_of_pos hne, List.takeWhile_append_of_pos hne]
  simp

theorem decodeLocalHistoryCursor_encoded (context : HistoryContext ρ) {timestamp msgId : String}
    (h : Text.isBlank msgId = false) :
    decodeLocalHistoryCursor context (some ("local-history:v1:" ++ Base64Url.encode timestamp ++
      ":" ++ Base64Url.encode msgId)) = .ok (some (timestamp, msgId)) := by
  have hne : Base64Url.encode msgId ≠ "" := by
    apply Base64Url.encode_ne_empty
    rintro rfl
    exact absurd h (by decide)
  generalize htext : "local-history:v1:" ++ Base64Url.encode timestamp ++ ":" ++
    Base64Url.encode msgId = text
  have hnonEmpty : nonEmpty text = some text := by
    have htrim : Text.trim text = text := by
      rw [← htext]
      apply Text.trim_append (trim_encode msgId) hne
      simp [Text.isWhiteSpace]
    refine nonEmpty_eq_some.mpr ⟨?_, htrim⟩
    rw [← Bool.not_eq_true, Text.isBlank_iff, htrim, ← htext]
    simp
  have hstart : Text.afterStart "local-history:v1:" text =
      some (Base64Url.encode timestamp ++ ":" ++ Base64Url.encode msgId) := by
    rw [← htext, Text.afterStart, if_pos]
    · simp [String.append_assoc]
    · simp [Text.startsWith]
  have hcolon : ':' ∉ (Base64Url.encode timestamp).toList := by
    intro hmem
    exact absurd (Base64Url.mem_encode hmem) (by decide +kernel)
  have hsplit : Text.splitOnce ':' (Base64Url.encode timestamp ++ ":" ++ Base64Url.encode msgId) =
      some (Base64Url.encode timestamp, Base64Url.encode msgId) :=
    splitOnce_append hcolon
  have hrequired : requiredText "cursor.message_id" msgId = .ok (Text.trim msgId) := by
    simp [requiredText, nonEmpty, h]
  have hdecode : ∀ value, base64UrlDecode context (Base64Url.encode value) "cursor" = .ok value := by
    intro value
    simp [base64UrlDecode, Base64Url.decode_encode]
  unfold decodeLocalHistoryCursor
  rw [Option.bind_some, hnonEmpty]
  dsimp only
  rw [hstart]
  refine Tx.except_bind_ok.mpr ⟨_, rfl, Tx.except_bind_ok.mpr
    ⟨(Base64Url.encode timestamp, Base64Url.encode msgId), ?_, ?_⟩⟩
  · rw [hsplit]
    rfl
  · exact Tx.except_bind_ok.mpr ⟨_, hdecode timestamp, Tx.except_bind_ok.mpr ⟨_, hdecode msgId,
      Tx.except_bind_ok.mpr ⟨_, hrequired, rfl⟩⟩⟩

def cursorPosition (context : HistoryContext ρ) (cursor : String) : Option (String ×ₗ String) :=
  match decodeLocalHistoryCursor context (some cursor) with
  | .ok (some position) => some (toLex position)
  | _ => none

theorem cursorPosition_eq_some {context : HistoryContext ρ} {cursor : String}
    {position : String ×ₗ String} :
    cursorPosition context cursor = some position ↔
      decodeLocalHistoryCursor context (some cursor) = .ok (some (ofLex position)) := by
  unfold cursorPosition
  split
  · rename_i found hfound
    rw [hfound]
    constructor
    · intro h
      cases h
      rfl
    · intro h
      cases h
      rfl
  · rename_i hnone
    constructor
    · intro h
      cases h
    · intro h
      exact absurd h (hnone _)

structure StoredMessage.CursorSafe (row : StoredMessage) : Prop where
  id_ne : row.msgId ≠ ""
  id_trimmed : Text.trim row.msgId = row.msgId
  time_trimmed : Text.trim row.sortAt = row.sortAt

theorem nonEmpty_getD (text : String) : (nonEmpty text).getD "" = Text.trim text := by
  by_cases h : Text.isBlank text = true
  · rw [nonEmpty, if_pos h, Text.isBlank_iff.mp h]
    rfl
  · rw [nonEmpty, if_neg h]
    rfl

theorem encodedTime_eq_iff (row : StoredMessage) :
    ((nonEmpty row.sentAt).or (nonEmpty row.storedAt)).getD "" = row.sortAt ↔
      Text.trim row.sortAt = row.sortAt := by
  by_cases hempty : row.sentAt = ""
  · have hsort : row.sortAt = row.storedAt := if_pos hempty
    have hnone : nonEmpty row.sentAt = none := by
      rw [hempty]
      rfl
    rw [hnone, Option.none_or, nonEmpty_getD, hsort]
  · have hsort : row.sortAt = row.sentAt := if_neg hempty
    rw [hsort]
    by_cases hblank : Text.isBlank row.sentAt = true
    · -- A blank time is ordered as it is, but written as the time of storage.
      have hnone : nonEmpty row.sentAt = none := if_pos hblank
      have htrim := Text.isBlank_iff.mp hblank
      rw [hnone, Option.none_or, nonEmpty_getD]
      constructor
      · intro h
        rw [← h, Text.trim_trim]
      · intro h
        exact absurd (h.symm.trans htrim) hempty
    · have hsome : nonEmpty row.sentAt = some (Text.trim row.sentAt) := if_neg hblank
      rw [hsome]
      rfl

theorem emitted_position_iff (context : HistoryContext ρ) (row : StoredMessage) :
    (encodeLocalHistoryCursor row).bind (cursorPosition context) = some row.historyPosition ↔
      row.CursorSafe := by
  by_cases hblank : Text.isBlank row.msgId = true
  · have hid : nonEmpty row.msgId = none := if_pos hblank
    have hnone : encodeLocalHistoryCursor row = none := by
      rw [encodeLocalHistoryCursor, hid]
      rfl
    constructor
    · intro h
      rw [hnone] at h
      cases h
    · intro h
      exact absurd (h.id_trimmed.symm.trans (Text.isBlank_iff.mp hblank)) h.id_ne
  · have hsome : nonEmpty row.msgId = some (Text.trim row.msgId) := if_neg hblank
    have htrimmed : Text.isBlank (Text.trim row.msgId) = false := by
      rw [Text.isBlank_trim]
      exact Bool.not_eq_true _ ▸ hblank
    have hposition : (encodeLocalHistoryCursor row).bind (cursorPosition context) =
        some (toLex (((nonEmpty row.sentAt).or (nonEmpty row.storedAt)).getD "",
          Text.trim row.msgId)) := by
      rw [encodeLocalHistoryCursor, hsome, Option.map_some, Option.bind_some,
        cursorPosition_eq_some]
      exact decodeLocalHistoryCursor_encoded context htrimmed
    rw [hposition, StoredMessage.historyPosition, Option.some.injEq, toLex_inj, Prod.mk.injEq,
      encodedTime_eq_iff]
    constructor
    · rintro ⟨htime, hid⟩
      refine ⟨?_, hid, htime⟩
      intro hempty
      rw [hempty] at hblank
      exact hblank rfl
    · intro h
      exact ⟨h.time_trimmed, h.id_trimmed⟩

/-! ## The pages of a thread -/

def shownIn (thread : ThreadRef) (record : StoredMessage) : StoredMessage :=
  match peerScopeProjectionIdForThreadRef thread with
  | none => record
  | some threadId => if Text.isBlank threadId then record else projectDirectRecord threadId record

theorem historyPosition_shownIn (thread : ThreadRef) (record : StoredMessage) :
    (shownIn thread record).historyPosition = record.historyPosition := by
  unfold shownIn
  split
  · rfl
  · split
    · rfl
    · unfold projectDirectRecord
      split <;> rfl

def threadHistory (tables : SummaryTables ρ) (owner : String) (conversationIds : List String)
    (thread : ThreadRef) : List StoredMessage :=
  (sortDescending StoredMessage.historyPosition
    (tables.messages.filter (·.isListable owner conversationIds))).map (shownIn thread)

def pageSize (limit : Int) : Nat :=
  (normalizeLocalHistoryLimit limit).toNat

def historyPage (context : HistoryContext ρ) (tables : SummaryTables ρ)
    (ownerIdentityId ownerDid : String) (thread : ThreadRef) (limit : Int)
    (cursor : Option String) : Option (Page StoredMessage String) :=
  match listMessagesForThreadRef context tables ownerIdentityId ownerDid thread limit cursor with
  | .ok page => some { items := page.records, next := page.nextCursor }
  | .error _ => none

section History

variable {context : HistoryContext ρ} {tables : SummaryTables ρ}
  {ownerIdentityId ownerDid : String} {thread : ThreadRef} {limit : Int}
  {conversationIds : List String}

theorem pageSize_pos : 0 < pageSize limit := by
  unfold pageSize normalizeLocalHistoryLimit
  omega

theorem listable_distinct (owner : String) :
    (tables.messages.filter (·.isListable owner conversationIds)).Pairwise
      fun a b => a.historyPosition ≠ b.historyPosition := by
  have hkeys : tables.messages.Pairwise fun a b => a.key ≠ b.key :=
    List.pairwise_map.mp tables.distinctMessages
  refine (hkeys.filter _).imp_of_mem ?_
  intro a b ha hb hne hposition
  have howner : ∀ row ∈ tables.messages.filter (·.isListable owner conversationIds),
      row.ownerIdentityId = owner := by
    intro row hrow
    have hlistable := (List.mem_filter.mp hrow).2
    simp only [StoredMessage.isListable, Bool.and_eq_true, beq_iff_eq] at hlistable
    exact hlistable.1.1
  have hid := (Prod.mk.inj (toLex_inj.mp hposition)).2
  apply hne
  rw [StoredMessage.key, StoredMessage.key, howner a ha, howner b hb, hid]

theorem threadHistory_descending (owner : String) :
    Descending StoredMessage.historyPosition
      (threadHistory tables owner conversationIds thread) := by
  have hdistinct : (tables.messages.filter (·.isListable owner conversationIds)).Pairwise
      fun a b => a.historyPosition ≠ b.historyPosition := listable_distinct owner
  unfold Descending threadHistory
  rw [List.pairwise_map]
  refine (sortDescending_descending hdistinct).imp ?_
  intro a b hlt
  rw [historyPosition_shownIn, historyPosition_shownIn]
  exact hlt

theorem isBelow_some (row : StoredMessage) (position : String × String) :
    row.isBelow (some position) = decide (row.historyPosition < toLex position) := by
  rw [Bool.eq_iff_iff]
  simp [StoredMessage.isBelow, StoredMessage.historyPosition, Prod.Lex.toLex_lt_toLex]

theorem isBelow_shownIn (row : StoredMessage) (cursor : Option (String × String)) :
    (shownIn thread row).isBelow cursor = row.isBelow cursor := by
  cases cursor with
  | none => rfl
  | some position => rw [isBelow_some, isBelow_some, historyPosition_shownIn]

theorem page_of_lookAhead (limit : Int) (rows : List StoredMessage) :
    let records := rows.take (pageSize limit + 1)
    let hasMore := decide (normalizeLocalHistoryLimit limit < (records.length : Int))
    let shown := if hasMore then records.take (pageSize limit) else records
    ({ items := shown
       next := if hasMore then shown.getLast?.bind encodeLocalHistoryCursor else none } :
      Page StoredMessage String) = firstPage (pageSize limit) encodeLocalHistoryCursor rows := by
  intro records hasMore shown
  have hmore : hasMore = decide (pageSize limit < rows.length) := by
    have hlength : records.length = min (pageSize limit + 1) rows.length := List.length_take
    unfold hasMore
    rw [decide_eq_decide, hlength]
    unfold pageSize normalizeLocalHistoryLimit
    omega
  have hshown : shown = rows.take (pageSize limit) := by
    unfold shown records
    rw [hmore]
    by_cases h : pageSize limit < rows.length
    · rw [decide_eq_true h, if_pos rfl, List.take_take, Nat.min_eq_left (Nat.le_succ _)]
    · rw [decide_eq_false h, if_neg (by simp), List.take_of_length_le (by omega),
        List.take_of_length_le (by omega)]
  rw [hshown, hmore]
  unfold firstPage
  by_cases h : pageSize limit < rows.length
  · simp [h]
  · simp [h]

theorem projected_eq_map (thread : ThreadRef) (records : List StoredMessage) :
    (peerScopeProjectionIdForThreadRef thread).elim records
      (projectDirectRecordsToThread records) = records.map (shownIn thread) := by
  unfold shownIn
  cases peerScopeProjectionIdForThreadRef thread with
  | none => simp
  | some threadId =>
    unfold projectDirectRecordsToThread
    by_cases hblank : Text.isBlank threadId = true
    · simp [hblank]
    · simp [hblank]

theorem selected_eq (owner : String) (position : Option (String × String)) :
    (sortDescending StoredMessage.historyPosition (tables.messages.filter fun row =>
      row.isListable owner conversationIds && row.isBelow position)).map (shownIn thread) =
      (threadHistory tables owner conversationIds thread).filter (·.isBelow position) := by
  have hdistinct : (tables.messages.filter (·.isListable owner conversationIds)).Pairwise
      fun a b => a.historyPosition ≠ b.historyPosition := listable_distinct owner
  have hbelow : (fun row : StoredMessage => row.isBelow position) ∘ shownIn thread =
      fun row => row.isBelow position := by
    funext row
    exact isBelow_shownIn row position
  rw [threadHistory, List.filter_map, hbelow, ← sortDescending_filter _ hdistinct,
    List.filter_filter]
  congr 3
  funext row
  exact Bool.and_comm _ _

theorem historyPage_eq (howner : Text.isBlank ownerIdentityId = false)
    (hids : context.conversationIdsForThreadRef tables (Text.trim ownerIdentityId) ownerDid
      thread = .ok conversationIds) {cursor : Option String}
    {position : Option (String × String)}
    (hcursor : decodeLocalHistoryCursor context cursor = .ok position) :
    historyPage context tables ownerIdentityId ownerDid thread limit cursor =
      some (firstPage (pageSize limit) encodeLocalHistoryCursor
        ((threadHistory tables (Text.trim ownerIdentityId) conversationIds thread).filter
          (·.isBelow position))) := by
  have hrequired : requiredText "owner_identity_id" ownerIdentityId =
      .ok (Text.trim ownerIdentityId) := by
    simp [requiredText, nonEmpty, howner]
  unfold historyPage listMessagesForThreadRef
  rw [hrequired]
  dsimp only [bind, Except.bind]
  rw [hcursor, hids]
  dsimp only
  by_cases hempty : conversationIds.isEmpty = true
  · rw [if_pos hempty]
    obtain rfl := List.isEmpty_iff.mp hempty
    have hnone : (tables.messages.filter fun row =>
        row.isListable (Text.trim ownerIdentityId) [] && row.isBelow position) = [] := by
      rw [List.filter_eq_nil_iff]
      intro row _
      simp [StoredMessage.isListable]
    rw [← selected_eq, hnone]
    simp [firstPage, sortDescending, pure, Except.pure]
  · rw [if_neg hempty, projected_eq_map, List.map_take, selected_eq]
    exact congrArg some (page_of_lookAhead limit _)

theorem historyPage_fetches (howner : Text.isBlank ownerIdentityId = false)
    (hids : context.conversationIdsForThreadRef tables (Text.trim ownerIdentityId) ownerDid
      thread = .ok conversationIds) :
    Fetches StoredMessage.historyPosition (pageSize limit) (cursorPosition context)
      encodeLocalHistoryCursor
      (historyPage context tables ownerIdentityId ownerDid thread limit)
      (threadHistory tables (Text.trim ownerIdentityId) conversationIds thread) where
  first := by
    have hnone : decodeLocalHistoryCursor context none = .ok none := rfl
    rw [historyPage_eq howner hids hnone, List.filter_eq_self.mpr]
    intro row _
    rfl
  next := by
    intro cursor position hposition
    rw [historyPage_eq howner hids (cursorPosition_eq_some.mp hposition)]
    congr 3
    funext row
    exact isBelow_some row (ofLex position)

/-- Following the cursors lists the thread exactly if the rows at the borders of pages are
stored as a cursor writes them. -/
theorem history_pages_exact_iff (howner : Text.isBlank ownerIdentityId = false)
    (hids : context.conversationIdsForThreadRef tables (Text.trim ownerIdentityId) ownerDid
      thread = .ok conversationIds) :
    let rows := threadHistory tables (Text.trim ownerIdentityId) conversationIds thread
    rows.Perm ((tables.messages.filter
      (·.isListable (Text.trim ownerIdentityId) conversationIds)).map (shownIn thread)) ∧
    Descending StoredMessage.historyPosition rows ∧
    ((∃ fuel pages,
      follow (historyPage context tables ownerIdentityId ownerDid thread limit) fuel none =
        some pages ∧ Exact StoredMessage.historyPosition (cursorPosition context) pages rows) ↔
      ∀ row, IsBorder (pageSize limit) rows row → row.CursorSafe) := by
  intro rows
  have hdescending : Descending StoredMessage.historyPosition rows := threadHistory_descending _
  refine ⟨(sortDescending_perm _).map _, hdescending, ?_⟩
  rw [(historyPage_fetches howner hids).exact_iff hdescending pageSize_pos]
  simp only [emitted_position_iff]
  exact Iff.rfl

end History

namespace HistorySample

def context : HistoryContext Unit where
  conversationIdsForThreadRef := fun _ _ _ _ => .ok ["c"]
  decodeError := fun _ => ""

def message (msgId : String) : StoredMessage where
  msgId := msgId
  ownerIdentityId := "o"
  ownerDid := "d"
  conversationId := "c"
  threadId := "c"
  senderDid := "p"
  receiverDid := "d"
  contentType := "text"
  content := .malformed "hi"
  sentAt := "1"
  storedAt := "2"

def tables (first second : String) (h : first ≠ second) : SummaryTables Unit where
  messages := [message first, message second]
  aliases := []
  summaries := []
  others := ()
  distinct := distinct_nil
  distinctMessages := by simpa [UniqueKey, message, StoredMessage.key] using h

def imported : SummaryTables Unit :=
  tables " a" " b" (by decide)

def page (tables : SummaryTables Unit) : Option String → Option (Page StoredMessage String) :=
  historyPage context tables "o" "d" (.direct "p") 1

theorem follow_of_same_cursor {fetch : Option String → Option (Page StoredMessage String)}
    {cursor : String} (h : (fetch (some cursor)).map (·.next) = some (some cursor)) (fuel : Nat) :
    follow fetch fuel (some cursor) = none := by
  induction fuel with
  | zero => rfl
  | succ fuel ih =>
    obtain ⟨found, hfetch, hnext⟩ := Option.map_eq_some_iff.mp h
    rw [follow_next hfetch hnext, ih]
    rfl

/-- The cursor of the first page leads to the first page again. -/
theorem imported_pages_never_end :
    (page imported none).map (fun page => (page.items.map (·.msgId), page.next)) =
        some ([" b"], some "local-history:v1:MQ:Yg") ∧
      (page imported (some "local-history:v1:MQ:Yg")).map
          (fun page => (page.items.map (·.msgId), page.next)) =
        some ([" b"], some "local-history:v1:MQ:Yg") ∧
      ∀ fuel, follow (page imported) fuel none = none := by
  have hfirst : (page imported none).map (·.next) = some (some "local-history:v1:MQ:Yg") := by
    decide +kernel
  have hagain : (page imported (some "local-history:v1:MQ:Yg")).map (·.next) =
      some (some "local-history:v1:MQ:Yg") := by
    decide +kernel
  refine ⟨by decide +kernel, by decide +kernel, ?_⟩
  intro fuel
  cases fuel with
  | zero => rfl
  | succ fuel =>
    obtain ⟨found, hfetch, hnext⟩ := Option.map_eq_some_iff.mp hfirst
    rw [follow_next hfetch hnext, follow_of_same_cursor hagain fuel]
    rfl

def stored : SummaryTables Unit :=
  tables "a" "b" (by decide)

theorem cursorSafe_message {msgId : String} (hne : msgId ≠ "") (htrim : Text.trim msgId = msgId) :
    (message msgId).CursorSafe := by
  have htime : Text.trim "1" = "1" := by
    decide +kernel
  exact ⟨hne, htrim, htime⟩

theorem stored_pages_end :
    ∃ fuel pages, follow (page stored) fuel none = some pages ∧
      Exact StoredMessage.historyPosition (cursorPosition context) pages
        (threadHistory stored (Text.trim "o") ["c"] (.direct "p")) := by
  have howner : Text.isBlank "o" = false := by
    decide
  have hids : context.conversationIdsForThreadRef stored (Text.trim "o") "d" (.direct "p") =
      .ok ["c"] := rfl
  refine (history_pages_exact_iff howner hids).2.2.mpr ?_
  rintro row ⟨k, -, hrow⟩
  obtain ⟨shown, hshown, rfl⟩ := List.mem_map.mp (List.mem_of_getElem? hrow)
  have hstored : shown ∈ [message "a", message "b"] :=
    List.mem_of_mem_filter ((sortDescending_perm _).mem_iff.mp hshown)
  simp only [List.mem_cons, List.not_mem_nil, or_false] at hstored
  rcases hstored with rfl | rfl
  · exact cursorSafe_message (by decide) (by decide +kernel)
  · exact cursorSafe_message (by decide) (by decide +kernel)

end HistorySample

end LocalState
end Awiki

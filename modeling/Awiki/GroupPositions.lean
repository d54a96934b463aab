import Awiki.MessageMerge
import Awiki.TransitionRuns

/-!
# Positions of a group

A group message with a sequence is stored under `group:sequence`, and the ids that it had
before are aliases of that id.  As long as a record neither moves a stored row to another
conversation nor folds a row that has a sequence, a position of a group has one row, and
what is claimed as an alias of it stays one.
-/

namespace Awiki
namespace LocalState

open Rows

variable {ρ : Type} {keys : MessageKeys} {row old : StoredMessage} {text : String}

/-! ## Group references -/

/-- A group as `normalize_group_ref` returns it. -/
structure GroupRef (group : String) : Prop where
  trimmed : Text.trim group = group
  notBlank : Text.isBlank group = false

variable {group : String} {record : MessageRecord} {context : UpsertContext ρ}
  {tables : SummaryTables ρ}

theorem GroupRef.ne_empty (h : GroupRef group) : group ≠ "" := by
  rintro rfl
  have := h.notBlank
  simp [Text.isBlank] at this

theorem GroupRef.of_nonEmpty (h : nonEmpty text = some group) : GroupRef group := by
  obtain ⟨hblank, rfl⟩ := nonEmpty_eq_some.mp h
  exact ⟨Text.trim_trim _, by rw [Text.isBlank_trim]; exact hblank⟩

theorem GroupRef.of_normalize (h : normalizeGroupRef text = some group) : GroupRef group := by
  obtain ⟨value, -, hvalue⟩ := Option.bind_eq_some_iff.mp h
  exact .of_nonEmpty hvalue

theorem GroupRef.of_canonical {conversationId : String}
    (h : canonicalGroupRef record conversationId = some group) : GroupRef group := by
  unfold canonicalGroupRef at h
  rcases Option.or_eq_some_iff.mp h with h | ⟨-, h⟩
  · rcases Option.or_eq_some_iff.mp h with h | ⟨-, h⟩
    · exact .of_normalize h
    · exact .of_normalize h
  · split at h
    · exact .of_normalize h
    · split at h
      · exact .of_normalize h
      · cases h

theorem groupConversationId_eq (h : GroupRef group) :
    groupConversationId group = "group:" ++ group := by
  simp [groupConversationId, h.notBlank, h.trimmed]

theorem groupConversationId_injective {first second : String} (hfirst : GroupRef first)
    (hsecond : GroupRef second)
    (h : groupConversationId first = groupConversationId second) : first = second := by
  rw [groupConversationId_eq hfirst, groupConversationId_eq hsecond] at h
  apply String.toList_injective
  have hlist := congrArg String.toList h
  simpa using hlist

theorem trim_groupConversationId (h : GroupRef group) :
    Text.trim (groupConversationId group) = groupConversationId group := by
  rw [groupConversationId_eq h]
  exact Text.trim_append h.trimmed h.ne_empty (by decide)

theorem normalize_groupConversationId (h : GroupRef group) :
    normalizeGroupRef (groupConversationId group) = some group := by
  have htrim := trim_groupConversationId h
  have hdrop : dropGroupTag (groupConversationId group) = group := by
    rw [groupConversationId_eq h, dropGroupTag, if_pos]
    · simp
    · simp [Text.startsWith]
  have hblank : Text.isBlank (groupConversationId group) = false := by
    rw [← Bool.not_eq_true, Text.isBlank_iff, htrim, groupConversationId_eq h]
    simp
  have hfirst : nonEmpty (groupConversationId group) = some (groupConversationId group) :=
    nonEmpty_eq_some.mpr ⟨hblank, htrim⟩
  have hsecond : nonEmpty group = some group := nonEmpty_eq_some.mpr ⟨h.notBlank, h.trimmed⟩
  rw [normalizeGroupRef, hfirst, Option.bind_some, hdrop, hsecond]

theorem canonicalGroupRef_isSome (h : GroupRef group) :
    (canonicalGroupRef record (groupConversationId group)).isSome = true := by
  have hstarts : Text.startsWith (Text.trim (groupConversationId group)) "group:" = true := by
    rw [trim_groupConversationId h, groupConversationId_eq h]
    simp [Text.startsWith]
  unfold canonicalGroupRef
  rw [if_pos hstarts, normalize_groupConversationId h]
  cases (normalizeGroupRef record.groupDid).or (normalizeGroupRef record.groupId) <;> rfl

/-! ## Upserts that keep to positions -/

def groupMessageId (group : String) (sequence : Int) : String :=
  group ++ ":" ++ toString sequence

theorem canonicalGroupMessageId_eq_some {conversationId id : String} :
    canonicalGroupMessageId record conversationId = some id ↔
      ∃ sequence group, record.serverSeq = some sequence ∧ 0 ≤ sequence ∧
        canonicalGroupRef record conversationId = some group ∧
        groupMessageId group sequence = id := by
  unfold canonicalGroupMessageId groupMessageId
  cases hsequence : record.serverSeq with
  | none => simp
  | some sequence =>
    by_cases hnonneg : 0 ≤ sequence
    · simp [hnonneg, Option.filter]
    · simp [hnonneg, Option.filter]

structure AtPosition (row : StoredMessage) (group : String) (sequence : Int) : Prop where
  conversation : row.conversation = groupConversationId group
  sequence : row.serverSeq = some sequence

/-- An upsert of a record whose conversation is given by its group; it neither moves the row
of its id to another conversation nor folds a row that has a sequence. -/
structure MessageKeys.Orderly (keys : MessageKeys) (messages : List StoredMessage)
    (record : MessageRecord) : Prop where
  group : ∀ group, canonicalGroupRef record keys.conversationId = some group →
    keys.conversationId = groupConversationId group
  stays : ∀ old, messages.find? keys.isWritten = some old →
    old.conversation = keys.conversationId
  folds : ∀ row ∈ messages, keys.isFolded row = true → ∀ sequence, row.serverSeq = some sequence →
    sequence < 0

def UpsertContext.MergesDirect (context : UpsertContext ρ) : Prop :=
  ∀ others messages owner conversationId record legacy,
    mergeLegacy context.base others messages owner conversationId record = .ok legacy →
    legacy.1 ≠ [] →
    (∀ group, conversationId ≠ groupConversationId group) ∧
      ∀ id ∈ legacy.1, ∀ group, id ≠ groupConversationId group

theorem messageKeys_msgId (h : messageKeys context tables record = .ok keys) :
    keys.msgId =
      (canonicalGroupMessageId record keys.conversationId).getD (Text.trim record.msgId) := by
  unfold messageKeys upsertKeys at h
  simp only [Tx.except_bind_ok] at h
  obtain ⟨inputId, hinput, owner, -, ownerDid, -, stable, -, wire, -, confirmTarget, -, h⟩ := h
  obtain ⟨rfl, -⟩ := requiredText_ok hinput
  cases h
  rfl

theorem messageKeys_sequence_eq (h : messageKeys context tables record = .ok keys)
    (hold : tables.messages.find? keys.isWritten = some old) {first second : Int}
    (hfirst : old.serverSeq = some first) (hsecond : record.serverSeq = some second) :
    first = second := by
  have hfound : (tables.messages.map (·.toMessageRow)).find?
      (·.isMessage keys.owner keys.msgId) = some old.toMessageRow := by
    rw [List.find?_map]
    exact congrArg (Option.map (·.toMessageRow)) hold
  have hcompatible := MessageKeys.messageKeys_confirm h
  unfold assertExistingWireIdentityCompatible at hcompatible
  dsimp only at hcompatible
  rw [hfound] at hcompatible
  by_contra hne
  simp [hfirst, hsecond, hne] at hcompatible

section Step

variable {context : UpsertContext ρ} {tables : SummaryTables ρ} {record : MessageRecord}
  {keys : MessageKeys} {messages : List StoredMessage} {legacy : List String} {others : ρ}

theorem stored_serverSeq_of_none (h : messages.find? keys.isWritten = none) :
    (keys.stored context messages record).serverSeq = record.serverSeq := by
  rw [MessageKeys.stored_of_none h]
  rfl

theorem stored_serverSeq_of_some (h : messages.find? keys.isWritten = some old) :
    (keys.stored context messages record).serverSeq = old.serverSeq.or record.serverSeq := by
  rw [MessageKeys.stored_of_some h]
  rfl

theorem stored_conversation (hconversation : keys.conversationId ≠ "")
    (horderly : keys.Orderly messages record) :
    (keys.stored context messages record).conversation = keys.conversationId := by
  rw [MessageKeys.conversation_stored hconversation, MessageKeys.column]
  cases hfind : messages.find? keys.isWritten with
  | none => rfl
  | some old => simp [horderly.stays old hfind]

theorem merged_conversation_iff (hconversation : keys.conversationId ≠ "")
    (hdirect : legacy ≠ [] → (∀ group, keys.conversationId ≠ groupConversationId group) ∧
      ∀ id ∈ legacy, ∀ group, id ≠ groupConversationId group) {group : String} :
    (keys.merged legacy row).conversation = groupConversationId group ↔
      row.conversation = groupConversationId group := by
  unfold MessageKeys.merged
  split
  · rename_i hlegacy
    simp only [MessageRow.isLegacy, Bool.and_eq_true, List.contains_iff_mem] at hlegacy
    obtain ⟨htarget, hsources⟩ := hdirect (List.ne_nil_of_mem hlegacy.2)
    rw [show ({ row with conversationId := keys.conversationId } : StoredMessage).conversation =
      keys.conversationId by simp [MessageRow.conversation, orText, hconversation]]
    constructor
    · intro h
      exact absurd h (htarget group)
    · intro h
      exact absurd h (hsources _ hlegacy.2 group)
  · rfl

theorem settled_serverSeq (row : StoredMessage) :
    (keys.inherited context others (keys.merged legacy row)).serverSeq = row.serverSeq := by
  obtain ⟨conversationId, isRead, h⟩ :
      ∃ conversationId isRead, keys.inherited context others (keys.merged legacy row) = _ :=
    MessageKeys.settled_eq row
  rw [h]

end Step

/-! ## One row for a position -/

def Placed (messages : List StoredMessage) : Prop :=
  ∀ row ∈ messages, ∀ group sequence, GroupRef group → 0 ≤ sequence →
    AtPosition row group sequence → row.msgId = groupMessageId group sequence

/-- A call of `upsert_message_record`. -/
structure Upserted where
  record : MessageRecord
  keys : MessageKeys

structure UpsertStep (context : UpsertContext ρ) (tables : SummaryTables ρ) (event : Upserted)
    (tables' : SummaryTables ρ) : Prop where
  keys : messageKeys context tables event.record = .ok event.keys
  orderly : event.keys.Orderly tables.messages event.record
  ran : ∃ touched, upsertStoredMessage context tables event.record = .ok (touched, tables')

section Rows

variable {context : UpsertContext ρ} {tables tables' : SummaryTables ρ} {event : Upserted}

theorem UpsertStep.rows (hdirect : context.MergesDirect)
    (h : UpsertStep context tables event tables') :
    ∃ legacy others, tables'.messages =
        event.keys.settle context others tables.messages event.record legacy ∧
      (legacy ≠ [] → (∀ group, event.keys.conversationId ≠ groupConversationId group) ∧
        ∀ id ∈ legacy, ∀ group, id ≠ groupConversationId group) ∧
      tables'.aliases = upsertMessageAliases tables.aliases event.keys.owner event.keys.msgId
        (event.keys.names (·.toMessageRow) event.record) := by
  obtain ⟨touched, hran⟩ := h.ran
  obtain ⟨keys, legacy, hkeys, hlegacy⟩ := upsertStoredMessage_keys hran
  obtain rfl := Except.ok.inj (h.keys.symm.trans hkeys)
  obtain ⟨hmessages, haliases, -⟩ := upsertStoredMessage_rows h.keys hlegacy hran
  exact ⟨legacy.1, legacy.2, hmessages, hdirect _ _ _ _ _ _ hlegacy, haliases⟩

variable {group : String} {sequence : Int} {owner canonicalId name : String}
  {history : List Upserted}

theorem UpsertStep.msgId_eq (h : UpsertStep context tables event tables') (hgroup : GroupRef group)
    (hnonneg : 0 ≤ sequence) (hconversation : event.keys.conversationId = groupConversationId group)
    (hsequence : event.record.serverSeq = some sequence) :
    event.keys.msgId = groupMessageId group sequence := by
  have hisSome : (canonicalGroupRef event.record (groupConversationId group)).isSome = true :=
    canonicalGroupRef_isSome hgroup
  obtain ⟨found, hfound⟩ := Option.isSome_iff_exists.mp hisSome
  rw [← hconversation] at hfound
  have hsame : found = group := by
    apply groupConversationId_injective (.of_canonical hfound) hgroup
    rw [← hconversation]
    exact (h.orderly.group found hfound).symm
  have hid : canonicalGroupMessageId event.record event.keys.conversationId =
      some (groupMessageId group sequence) :=
    canonicalGroupMessageId_eq_some.mpr ⟨sequence, found, hsequence, hnonneg, hfound, by rw [hsame]⟩
  rw [messageKeys_msgId h.keys, hid]
  rfl

theorem eq_settled {messages : List StoredMessage} {record : MessageRecord} {others : ρ}
    {legacy : List String} (hdistinct : UniqueKey StoredMessage.key messages)
    (hrow : row ∈ keys.settle context others messages record legacy)
    (hwritten : keys.isWritten row = true) :
    row = keys.inherited context others (keys.merged legacy
      (keys.stored context messages record)) := by
  have hdistinct' := keys.settle_distinct context others record legacy hdistinct
  exact Option.some.inj
    ((find?_isMessage hdistinct' hrow hwritten).symm.trans MessageKeys.find?_settle)

theorem UpsertStep.placed (hdirect : context.MergesDirect)
    (h : UpsertStep context tables event tables') (hplaced : Placed tables.messages) :
    Placed tables'.messages := by
  have hconversation := (messageKeys_lawful h.keys).conversation_ne
  obtain ⟨legacy, others, hmessages, hlegacy, -⟩ := h.rows hdirect
  intro row hrow group sequence hgroup hnonneg hat
  rw [hmessages] at hrow
  cases hwritten : event.keys.isWritten row with
  | false =>
    obtain ⟨old, hold, -, -, rfl⟩ := (MessageKeys.mem_settle hwritten).mp hrow
    have hold' : AtPosition old group sequence := by
      refine ⟨(merged_conversation_iff hconversation hlegacy).mp hat.conversation, ?_⟩
      have := hat.sequence
      unfold MessageKeys.merged at this
      split at this <;> exact this
    have hid := hplaced old hold group sequence hgroup hnonneg hold'
    unfold MessageKeys.merged
    split <;> exact hid
  | true =>
    have hid : row.msgId = event.keys.msgId := by
      simp only [MessageKeys.isWritten, MessageRow.isMessage, Bool.and_eq_true, beq_iff_eq]
        at hwritten
      exact hwritten.2
    rw [hid]
    rw [eq_settled tables.distinctMessages hrow hwritten] at hat
    have hplace : event.keys.conversationId = groupConversationId group := by
      rw [← stored_conversation hconversation h.orderly,
        ← merged_conversation_iff hconversation hlegacy,
        ← MessageKeys.conversation_inherited]
      exact hat.conversation
    have hsequence := hat.sequence
    rw [settled_serverSeq] at hsequence
    cases hfind : tables.messages.find? event.keys.isWritten with
    | none =>
      rw [stored_serverSeq_of_none hfind] at hsequence
      exact h.msgId_eq hgroup hnonneg hplace hsequence
    | some old =>
      rw [stored_serverSeq_of_some hfind] at hsequence
      rcases Option.or_eq_some_iff.mp hsequence with hold | ⟨-, hrecord⟩
      · have hkey := List.find?_some hfind
        simp only [MessageKeys.isWritten, MessageRow.isMessage, Bool.and_eq_true, beq_iff_eq]
          at hkey
        rw [← hkey.2]
        exact hplaced old (List.mem_of_find?_eq_some hfind) group sequence hgroup hnonneg
          ⟨(h.orderly.stays old hfind).trans hplace, hold⟩
      · exact h.msgId_eq hgroup hnonneg hplace hrecord

def Present (messages : List StoredMessage) (owner group : String) (sequence : Int) : Prop :=
  ∃ row ∈ messages, row.ownerIdentityId = owner ∧ row.msgId = groupMessageId group sequence ∧
    AtPosition row group sequence

theorem isWritten_iff :
    keys.isWritten row = true ↔ row.ownerIdentityId = keys.owner ∧ row.msgId = keys.msgId := by
  simp [MessageKeys.isWritten, MessageRow.isMessage]

theorem UpsertStep.present (hdirect : context.MergesDirect)
    (h : UpsertStep context tables event tables') (hnonneg : 0 ≤ sequence)
    (hpresent : Present tables.messages owner group sequence) :
    Present tables'.messages owner group sequence := by
  have hconversation := (messageKeys_lawful h.keys).conversation_ne
  obtain ⟨legacy, others, hmessages, hlegacy, -⟩ := h.rows hdirect
  obtain ⟨row, hrow, howner, hid, hat⟩ := hpresent
  rw [hmessages]
  cases hwritten : event.keys.isWritten row with
  | true =>
    have hkey := isWritten_iff.mp hwritten
    have hfind : tables.messages.find? event.keys.isWritten = some row :=
      find?_isMessage tables.distinctMessages hrow hwritten
    have hsettled : (event.keys.settle context others tables.messages event.record
        legacy).find? event.keys.isWritten = _ := MessageKeys.find?_settle
    have hkey' := isWritten_iff.mp (List.find?_some hsettled)
    refine ⟨_, List.mem_of_find?_eq_some hsettled, ?_, ?_, ?_, ?_⟩
    · rw [hkey'.1, ← hkey.1, howner]
    · rw [hkey'.2, ← hkey.2, hid]
    · rw [MessageKeys.conversation_inherited, merged_conversation_iff hconversation hlegacy,
        stored_conversation hconversation h.orderly, ← h.orderly.stays row hfind]
      exact hat.conversation
    · rw [settled_serverSeq, stored_serverSeq_of_some hfind, hat.sequence]
      rfl
  | false =>
    have hfolded : event.keys.isFolded row = false := by
      rw [← Bool.not_eq_true]
      intro hfolded
      have hnegative := h.orderly.folds row hrow hfolded sequence hat.sequence
      omega
    have hmerged : event.keys.isWritten (event.keys.merged legacy row) = false := by
      rw [MessageKeys.isWritten_merged]
      exact hwritten
    refine ⟨event.keys.merged legacy row,
      (MessageKeys.mem_settle hmerged).mpr ⟨row, hrow, hfolded, hwritten, rfl⟩, ?_, ?_, ?_, ?_⟩
    · unfold MessageKeys.merged
      split <;> exact howner
    · unfold MessageKeys.merged
      split <;> exact hid
    · exact (merged_conversation_iff hconversation hlegacy).mpr hat.conversation
    · unfold MessageKeys.merged
      split <;> exact hat.sequence

theorem UpsertStep.present_self (hdirect : context.MergesDirect)
    (h : UpsertStep context tables event tables')
    (hsequence : event.record.serverSeq = some sequence) (hnonneg : 0 ≤ sequence)
    (hgroup : canonicalGroupRef event.record event.keys.conversationId = some group) :
    event.keys.msgId = groupMessageId group sequence ∧
      Present tables'.messages event.keys.owner group sequence := by
  have hconversation := (messageKeys_lawful h.keys).conversation_ne
  obtain ⟨legacy, others, hmessages, hlegacy, -⟩ := h.rows hdirect
  have hid : event.keys.msgId = groupMessageId group sequence :=
    h.msgId_eq (.of_canonical hgroup) hnonneg (h.orderly.group group hgroup) hsequence
  refine ⟨hid, ?_⟩
  have hsettled : (event.keys.settle context others tables.messages event.record
      legacy).find? event.keys.isWritten = _ := MessageKeys.find?_settle
  have hkey := isWritten_iff.mp (List.find?_some hsettled)
  rw [hmessages]
  refine ⟨_, List.mem_of_find?_eq_some hsettled, hkey.1, hkey.2.trans hid, ?_, ?_⟩
  · rw [MessageKeys.conversation_inherited, merged_conversation_iff hconversation hlegacy,
      stored_conversation hconversation h.orderly]
    exact h.orderly.group group hgroup
  · rw [settled_serverSeq]
    cases hfind : tables.messages.find? event.keys.isWritten with
    | none =>
      rw [stored_serverSeq_of_none hfind]
      exact hsequence
    | some old =>
      rw [stored_serverSeq_of_some hfind]
      cases hold : old.serverSeq with
      | none => exact hsequence
      | some first =>
        rw [messageKeys_sequence_eq h.keys hfind hold hsequence]
        rfl

/-! ## Aliases -/

/-- The upsert writes the name as an alias of its message. -/
structure Upserted.Claims (event : Upserted) (owner name : String) : Prop where
  owner : event.keys.owner = owner
  named : name ∈ event.keys.names (·.toMessageRow) event.record

section

variable (hdirect : context.MergesDirect)

include hdirect

theorem UpsertStep.resolveAlias (h : UpsertStep context tables event tables')
    (owner name : String) :
    (event.Claims owner name ∧ resolveAlias tables'.aliases owner name = some event.keys.msgId) ∨
      (¬ event.Claims owner name ∧
        resolveAlias tables'.aliases owner name = resolveAlias tables.aliases owner name) := by
  obtain ⟨-, -, -, -, haliases⟩ := h.rows hdirect
  rw [haliases, resolveAlias_upsertMessageAliases]
  by_cases hclaims : event.Claims owner name
  · exact .inl ⟨hclaims, if_pos ⟨hclaims.owner.symm, hclaims.named⟩⟩
  · refine .inr ⟨hclaims, if_neg ?_⟩
    rintro ⟨howner, hnamed⟩
    exact hclaims ⟨howner.symm, hnamed⟩

/-! ## Runs -/

def Unclaimed (history : List Upserted) (owner name id : String) : Prop :=
  ∀ event ∈ history, event.Claims owner name → event.keys.msgId = id

variable (hrun : Run (UpsertStep context) tables history tables')

include hrun

theorem resolveAlias_run {id : String} (hunclaimed : Unclaimed history owner name id)
    (hresolves : resolveAlias tables.aliases owner name = some id) :
    resolveAlias tables'.aliases owner name = some id := by
  refine hrun.invariant_of_mem
    (P := fun tables => resolveAlias tables.aliases owner name = some id) hresolves ?_
  intro tables tables' event hevent hresolves hstep
  rcases hstep.resolveAlias hdirect owner name with ⟨hclaims, hid⟩ | ⟨-, hsame⟩
  · rw [hid, hunclaimed event hevent hclaims]
  · rw [hsame, hresolves]

theorem present_run (hnonneg : 0 ≤ sequence)
    (hpresent : Present tables.messages owner group sequence) :
    Present tables'.messages owner group sequence := by
  refine hrun.invariant (P := fun tables => Present tables.messages owner group sequence)
    ?_ hpresent
  intro tables event tables' hpresent hstep
  exact hstep.present hdirect hnonneg hpresent

theorem placed_run (hempty : tables.messages = []) : Placed tables'.messages := by
  refine hrun.invariant (P := fun tables => Placed tables.messages) ?_ ?_
  · intro tables event tables' hplaced hstep
    exact hstep.placed hdirect hplaced
  · intro row hrow
    rw [hempty] at hrow
    cases hrow

end

end Rows

namespace PositionSample

def empty : SummaryTables Unit where
  messages := []
  aliases := []
  summaries := []
  others := ()
  distinct := distinct_nil
  distinctMessages := distinctMessages_nil

/-- A message of the group without a sequence, whose sender calls it by the id of the
position 5. -/
def borrowing : MessageRecord :=
  { MergeSample.sequenced false with
    msgId := "x"
    serverSeq := none
    metadata := .parsed (.obj [("client_message_id", .str "g:5")]) }

def upsertAll (records : List MessageRecord) : Option (SummaryTables Unit) :=
  records.foldlM (fun tables record =>
    (upsertStoredMessage UpsertSample.plain tables record).toOption.map (·.2)) empty

theorem plain_mergesDirect : UpsertSample.plain.MergesDirect := by
  intro others messages owner conversationId record legacy h hne
  unfold mergeLegacy at h
  split at h <;> cases h <;> exact absurd rfl hne

/-- A local echo of the message, not yet in the sequence of the group. -/
def unsequenced : MessageRecord :=
  { MergeSample.sequenced false with
    msgId := "m"
    serverSeq := none
    metadata := .malformed "" }

end PositionSample

end LocalState
end Awiki

import Awiki.SummaryRefinement

/-!
# What a merged message keeps

`upsert_message_record` merges the record with the group duplicates in code and with the row
of its id in the conflict clause.  Hydration, encryption and the identity of the row survive
both merges.  The read flag of a duplicate survives neither, that of the record is dropped
when the stored row is kept, and a hydrated duplicate lets the text of an unhydrated record
through.
-/

namespace Awiki
namespace LocalState

open Rows

variable {ρ : Type} {old : StoredMessage} {confirmTarget : Bool} {new : StoredMessage}

theorem text_inheritNotifyLevel {messages : List MessageRow} {owner msgId contentType key : String}
    {record : MessageRecord} {metadata : JsonText} (h : key ≠ "notify_level") :
    (inheritNotifyLevel messages owner msgId record contentType metadata).text key =
      metadata.text key := by
  unfold inheritNotifyLevel
  dsimp only
  split
  · rename_i fields _ hvalue _
    split
    · rw [JsonText.text, JsonText.text, JsonText.field, JsonText.field, hvalue]
      simp only [JsonText.value?, Option.bind_some, Json.get_set_ne _ _ h]
    · rfl
  · rfl

theorem isAuthenticatedP5_congr {metadata metadata' : JsonText}
    (h : ∀ key, key ≠ "notify_level" → metadata.text key = metadata'.text key) :
    isAuthenticatedP5 metadata = isAuthenticatedP5 metadata' := by
  simp only [isAuthenticatedP5, List.all_cons, List.all_nil]
  rw [h "p5_cache_profile" (by decide), h "p5_cache_sender_did" (by decide),
    h "p5_cache_sender_device_id" (by decide), h "p5_cache_recipient_did" (by decide),
    h "p5_cache_recipient_device_id" (by decide), h "p5_cache_binding_digest" (by decide),
    h "raw_message_id" (by decide)]

namespace MessageKeys

section Merge

variable (keys : MessageKeys) (messages : List StoredMessage) (record : MessageRecord)

def Known (ofRow : StoredMessage → Prop) (ofRecord : Prop) : Prop :=
  ofRecord ∨ (∃ row ∈ keys.duplicates, ofRow row) ∨
    ∃ old, messages.find? keys.isWritten = some old ∧ ofRow old

/-- The merged metadata of record and duplicates. -/
def mergedMetadata : JsonText :=
  mergedGroupMetadata record.metadata (keys.rows (·.toMessageRow))

def mergedText : JsonText :=
  mergedContent record.content (keys.rows (·.toMessageRow))

/-- The metadata of the stored row stays: the row was delivered, is kept, or was decrypted. -/
def keepsMetadata (old : StoredMessage) : Bool :=
  (old.wireThreadKind == "direct" && !old.isE2ee && old.direction == 1 &&
    (old.metadata.text "delivery_state").any ["accepted", "sent"].contains &&
    ((keys.mergedMetadata record).text "delivery_state").any
      ["stored_locally", "pending", "failed"].contains) ||
  (keys.keepsOld record old && old.metadata != .malformed "") ||
  ((keys.mergedText record).isBlank && old.isE2ee &&
    old.metadata.text "decryption_state" == some "decrypted" &&
    (keys.mergedMetadata record).text "decryption_state" == some "failed")

/--
The committed read state of the thread covers the message: it is incoming, hydrated and of a
resolved thread, no authenticated P5 message, and its sequence is not past the watermark.
-/
structure Covered (legacy : List String) (watermark : String → String → Option Int) : Prop where
  incoming : keys.column messages (fun old => keys.keepsOld record old && old.direction != -1)
    (·.direction) record.direction = 0
  hydrated : keys.Known messages (fun row => row.hydrationState = .hydrated)
    (record.hydrationState = .hydrated)
  resolved : keys.wire.resolved = true ∨
    ∃ old, messages.find? keys.isWritten = some old ∧ old.wireResolved = true
  plain : isAuthenticatedP5 (keys.column messages (keys.keepsMetadata record) (·.metadata)
    (keys.mergedMetadata record)) = false
  sequence : ∃ seq, keys.column messages (·.serverSeq.isSome) (·.serverSeq) record.serverSeq =
      some seq ∧ 0 < seq ∧
    ∃ mark, watermark (keys.column messages (fun old => !sqlBlank old.wireThreadKind)
      (·.wireThreadKind) keys.wire.kind) (keys.column messages (keys.stays record legacy)
      (·.conversationId) keys.conversationId) = some mark ∧ seq ≤ mark

/-- The record writes the read flag: it is read, or a control payload. -/
def writesRead : Bool :=
  record.isRead ||
    ((record.hydrationState == .hydrated ||
        keys.duplicates.any (·.hydrationState == .hydrated)) &&
      isControlPayloadForProjection (defaultString (mergedGroupProjectionValue record.contentType
        (keys.rows (·.toMessageRow)) (·.contentType)) "text/plain") (keys.mergedText record)
        record.senderDid)

/--
The written row stays unread: the stored row is not read, the flag of the record is dropped
with the stored row kept or the record does not write it, and the read state of the thread
does not cover the message.
-/
structure StaysUnread (legacy : List String) (watermark : String → String → Option Int) :
    Prop where
  old : ∀ old, messages.find? keys.isWritten = some old → old.isRead = false
  dropped : keys.writesRead record = true →
    ∃ old, messages.find? keys.isWritten = some old ∧ keys.keepsOld record old = true
  uncovered : ¬ keys.Covered messages record legacy watermark

/-- The read flag is lost: a source was read, and the written row stays unread. -/
def LosesRead (legacy : List String) (watermark : String → String → Option Int) : Prop :=
  keys.Known messages (fun row => row.isRead = true) (record.isRead = true) ∧
    keys.StaysUnread messages record legacy watermark

/-- The text of an unhydrated record replaces that of a hydrated row: a folded duplicate is
hydrated, and the text is neither the stored one nor one of a duplicate. -/
structure ReplacesText (old : StoredMessage) : Prop where
  hydrated : old.hydrationState = .hydrated
  unhydrated : record.hydrationState ≠ .hydrated
  duplicate : ∃ row ∈ keys.duplicates, row.hydrationState = .hydrated
  text : ∃ text, nullableContent record.content = some text ∧ text ≠ old.content ∧
    ∀ row ∈ keys.duplicates, nullableContent row.content ≠ some text

variable {context : UpsertContext ρ} {others : ρ} {legacy : List String}
  {watermark : String → String → Option Int}
variable {keys messages record}

theorem inserted_isE2ee :
    (keys.inserted context messages record).isE2ee = true ↔
      record.isE2ee = true ∨ ∃ row ∈ keys.duplicates, row.isE2ee = true := by
  change (record.isE2ee || (keys.duplicates.map (·.toMessageRow)).any (·.isE2ee)) = true ↔ _
  simp

theorem inserted_isRead :
    (keys.inserted context messages record).isRead = keys.writesRead record := by
  have hhydrated : ((keys.inserted context messages record).hydrationState == .hydrated) =
      (record.hydrationState == .hydrated ||
        keys.duplicates.any (·.hydrationState == .hydrated)) := by
    rw [Bool.eq_iff_iff, beq_iff_eq, inserted_hydrated]
    simp
  rw [writesRead, ← hhydrated]
  rfl

theorem settled_eq (row : StoredMessage) :
    ∃ conversationId isRead, keys.inherited context others (keys.merged legacy row) =
      { row with conversationId := conversationId, isRead := isRead } := by
  unfold inherited merged
  split
  · split
    · exact ⟨_, _, rfl⟩
    · exact ⟨_, _, rfl⟩
  · split
    · exact ⟨_, _, rfl⟩
    · exact ⟨_, _, rfl⟩

theorem stored_of_known {p : StoredMessage → Prop} {q : Prop}
    (hinserted : (q ∨ ∃ row ∈ keys.duplicates, p row) →
      p (keys.inserted context messages record))
    (hupdated : ∀ new old, p new ∨ p old →
      p (updatedStored keys.confirmTarget new old))
    (h : keys.Known messages p q) : p (keys.stored context messages record) := by
  cases hold : messages.find? keys.isWritten with
  | none =>
    rw [stored_of_none hold]
    apply hinserted
    rcases h with hrecord | hduplicate | ⟨old, hfound, -⟩
    · exact .inl hrecord
    · exact .inr hduplicate
    · rw [hold] at hfound
      cases hfound
  | some old =>
    rw [stored_of_some hold]
    apply hupdated
    rcases h with hrecord | hduplicate | ⟨old', hfound, hrow⟩
    · exact .inl (hinserted (.inl hrecord))
    · exact .inl (hinserted (.inr hduplicate))
    · rw [hold, Option.some_inj] at hfound
      exact .inr (hfound ▸ hrow)

theorem stored_hydrated (h : keys.Known messages (fun row => row.hydrationState = .hydrated)
    (record.hydrationState = .hydrated)) :
    (keys.stored context messages record).hydrationState = .hydrated := by
  refine stored_of_known (p := fun row => row.hydrationState = .hydrated)
    inserted_hydrated.mpr ?_ h
  intro new old hsource
  change mergedHydration [old.hydrationState, new.hydrationState] = .hydrated
  rw [mergedHydration_eq_hydrated]
  rcases hsource with hnew | hold
  · simp [hnew]
  · simp [hold]

theorem stored_isE2ee (h : keys.Known messages (fun row => row.isE2ee = true)
    (record.isE2ee = true)) : (keys.stored context messages record).isE2ee = true := by
  refine stored_of_known (p := fun row => row.isE2ee = true) inserted_isE2ee.mpr ?_ h
  intro new old hsource
  change (new.isE2ee || old.isE2ee) = true
  simpa using hsource

theorem stored_isRead :
    (keys.stored context messages record).isRead = true ↔
      (∃ old, messages.find? keys.isWritten = some old ∧ old.isRead = true) ∨
        keys.writesRead record = true ∧
          ∀ old, messages.find? keys.isWritten = some old → keys.keepsOld record old = false := by
  cases hold : messages.find? keys.isWritten with
  | none =>
    rw [stored_of_none hold, inserted_isRead]
    simp
  | some old =>
    have hinserted : (keys.inserted context messages record).isRead = _ := inserted_isRead
    rw [stored_of_some hold, ← hinserted]
    simp only [updatedStored, keepsOld_eq]
    cases hkeeps : keys.keepsOld record old with
    | true => simp [hkeeps]
    | false => simp [hkeeps, or_comm]

/-! ### The committed read state -/

theorem metadata_inserted {key : String} (h : key ≠ "notify_level") :
    (keys.inserted context messages record).metadata.text key =
      (keys.mergedMetadata record).text key :=
  text_inheritNotifyLevel h

theorem authenticated_inserted :
    isAuthenticatedP5 (keys.inserted context messages record).metadata =
      isAuthenticatedP5 (keys.mergedMetadata record) :=
  isAuthenticatedP5_congr fun _ => metadata_inserted

/-- Of the cases of the conflict clause, the one that composes the metadata is of outgoing
messages only. -/
theorem authenticated_updated
    (hincoming : (updatedStored keys.confirmTarget (keys.inserted context messages record)
      old).direction = 0) :
    isAuthenticatedP5 (updatedStored keys.confirmTarget (keys.inserted context messages record)
        old).metadata =
      isAuthenticatedP5 (if keys.keepsMetadata record old then old.metadata
        else keys.mergedMetadata record) := by
  have hdelivery : (keys.inserted context messages record).metadata.text "delivery_state" = _ :=
    metadata_inserted (by decide)
  have hdecryption :
      (keys.inserted context messages record).metadata.text "decryption_state" = _ :=
    metadata_inserted (by decide)
  have hcontent : (keys.inserted context messages record).content = keys.mergedText record := rfl
  have hkeeps : (old.hydrationState == .hydrated &&
      (keys.inserted context messages record).hydrationState != .hydrated) = _ :=
    keepsOld_eq context messages record old
  have hauthenticated : isAuthenticatedP5 (keys.inserted context messages record).metadata = _ :=
    authenticated_inserted
  simp only [updatedStored, updatedRow, hkeeps] at hincoming ⊢
  generalize hnew : keys.inserted context messages record = new at *
  unfold updatedMetadata keepsMetadata
  simp only [hkeeps, ← hdelivery]
  split
  · rename_i hdelivered
    simp [hdelivered]
  rename_i hundelivered
  simp only [hundelivered, Bool.false_or]
  split
  · rename_i hkept
    simp only [hkept, Bool.true_and]
    by_cases hblank : old.metadata = .malformed ""
    · have hnone : old.metadata.text "decryption_state" = none := by
        rw [hblank]
        rfl
      simp [hblank ▸ hnone, hblank, hauthenticated]
    · simp [hblank]
  rename_i hwrites
  have hsecure : isAuthenticatedP5 (updatedMetadata.updatedSecure old.toMessageRow
      new.toMessageRow) = isAuthenticatedP5 (if keys.keepsOld record old &&
        old.metadata != .malformed "" || (keys.mergedText record).isBlank && old.isE2ee &&
        old.metadata.text "decryption_state" == some "decrypted" &&
        (keys.mergedMetadata record).text "decryption_state" == some "failed" then old.metadata
        else keys.mergedMetadata record) := by
    unfold updatedMetadata.updatedSecure
    simp only [hcontent, hdecryption, hwrites, Bool.false_and, Bool.false_or]
    split
    · rfl
    · exact hauthenticated
  split
  · split
    · rename_i houtgoing
      simp only [Bool.and_eq_true, beq_iff_eq] at houtgoing
      simp [hwrites, houtgoing.2.2] at hincoming
    · exact hsecure
  · exact hsecure

theorem stored_isWritten : keys.isWritten (keys.stored context messages record) = true := by
  have hfind : (keys.write context messages record).find? keys.isWritten = _ := find?_write
  exact List.find?_some hfind

theorem merged_eq (row : StoredMessage) :
    ∃ conversationId, keys.merged legacy row = { row with conversationId := conversationId } := by
  unfold merged
  split
  · exact ⟨_, rfl⟩
  · exact ⟨_, rfl⟩

theorem stored_hydrated_iff :
    (keys.stored context messages record).hydrationState = .hydrated ↔
      keys.Known messages (fun row => row.hydrationState = .hydrated)
        (record.hydrationState = .hydrated) := by
  refine ⟨?_, stored_hydrated⟩
  intro hstored
  cases hfind : messages.find? keys.isWritten with
  | none =>
    rw [stored_of_none hfind, inserted_hydrated] at hstored
    exact hstored.imp_right .inl
  | some old =>
    rw [stored_of_some hfind] at hstored
    change mergedHydration [_, _] = .hydrated at hstored
    rw [mergedHydration_eq_hydrated] at hstored
    simp only [List.mem_cons, List.not_mem_nil, or_false] at hstored
    rcases hstored with hold | hnew
    · exact .inr (.inr ⟨old, hfind, hold.symm⟩)
    · exact (inserted_hydrated.mp hnew.symm).imp_right .inl

theorem stored_columns :
    (keys.stored context messages record).direction =
      keys.column messages (fun old => keys.keepsOld record old && old.direction != -1)
        (·.direction) record.direction ∧
    ((keys.stored context messages record).wireResolved = true ↔ keys.wire.resolved = true ∨
      ∃ old, messages.find? keys.isWritten = some old ∧ old.wireResolved = true) ∧
    (keys.stored context messages record).serverSeq =
      keys.column messages (·.serverSeq.isSome) (·.serverSeq) record.serverSeq ∧
    (keys.stored context messages record).wireThreadKind =
      keys.column messages (fun old => !sqlBlank old.wireThreadKind) (·.wireThreadKind)
        keys.wire.kind := by
  unfold column
  cases hfind : messages.find? keys.isWritten with
  | none =>
    rw [stored_of_none hfind]
    simp [inserted, UpsertKeys.insertedRow, insertedRow]
  | some old =>
    rw [stored_of_some hfind]
    simp only [updatedStored, updatedRow, keepsOld_eq]
    refine ⟨rfl, ?_, ?_, ?_⟩
    · simp [inserted, UpsertKeys.insertedRow, insertedRow, or_comm]
    · cases hseq : old.serverSeq <;> simp [inserted, UpsertKeys.insertedRow, insertedRow]
    · cases hkind : sqlBlank old.wireThreadKind <;>
        simp [inserted, UpsertKeys.insertedRow, insertedRow]

theorem authenticated_stored
    (hincoming : (keys.stored context messages record).direction = 0) :
    isAuthenticatedP5 (keys.stored context messages record).metadata =
      isAuthenticatedP5 (keys.column messages (keys.keepsMetadata record) (·.metadata)
        (keys.mergedMetadata record)) := by
  unfold column
  cases hfind : messages.find? keys.isWritten with
  | none =>
    rw [stored_of_none hfind]
    exact authenticated_inserted
  | some old =>
    rw [stored_of_some hfind] at hincoming ⊢
    exact authenticated_updated hincoming

theorem inheritsRead_iff
    (hdirect : legacy ≠ [] → Text.isBlank record.groupId = true ∧
      Text.isBlank record.groupDid = true) :
    inheritsRead context others keys.owner keys.msgId
        (keys.merged legacy (keys.stored context messages record)) = true ↔
      (keys.stored context messages record).isRead = false ∧
        keys.Covered messages record legacy (context.readWatermark others keys.owner) := by
  have hconversation : (keys.merged legacy (keys.stored context messages record)).conversationId =
    _ := conversationId_merged context hdirect
  have hwritten : (keys.stored context messages record).isMessage keys.owner keys.msgId = true :=
    stored_isWritten
  obtain ⟨conversationId, hmerged⟩ : ∃ conversationId,
    keys.merged legacy (keys.stored context messages record) = _ := merged_eq _
  obtain ⟨hdirection, hresolved, hsequence, hkind⟩ :
    (keys.stored context messages record).direction = _ ∧ _ := stored_columns
  rw [hmerged] at hconversation ⊢
  dsimp only at hconversation
  subst hconversation
  unfold inheritsRead
  simp only [MessageRow.isMessage] at hwritten ⊢
  simp only [hwritten, Bool.true_and, Bool.and_eq_true, beq_iff_eq, Bool.not_eq_true',
    Option.any_eq_true, decide_eq_true_eq, hkind, hsequence]
  constructor
  · rintro ⟨⟨⟨⟨⟨hincoming, hread⟩, hstate⟩, hwire⟩, hplain⟩, seq, hseq, hpositive, hmark⟩
    refine ⟨hread, hdirection ▸ hincoming, stored_hydrated_iff.mp hstate, hresolved.mp hwire, ?_, seq, hseq,
      hpositive, hmark⟩
    rw [← authenticated_stored hincoming]
    exact hplain
  · rintro ⟨hread, hcovered⟩
    have hincoming := hdirection.trans hcovered.incoming
    refine ⟨⟨⟨⟨⟨hincoming, hread⟩, stored_hydrated_iff.mpr hcovered.hydrated⟩,
      hresolved.mpr hcovered.resolved⟩, ?_⟩, hcovered.sequence⟩
    rw [authenticated_stored hincoming]
    exact hcovered.plain

theorem settled_isRead {row : StoredMessage} :
    (keys.inherited context others (keys.merged legacy row)).isRead = true ↔
      row.isRead = true ∨
        inheritsRead context others keys.owner keys.msgId (keys.merged legacy row) = true := by
  have hmerged : (keys.merged legacy row).isRead = row.isRead := by
    unfold merged
    split <;> rfl
  unfold inherited
  split
  · rename_i hinherits
    simp [hinherits]
  · rename_i hinherits
    simp [hinherits, hmerged]

theorem settled_isRead_iff
    (hdirect : legacy ≠ [] → Text.isBlank record.groupId = true ∧
      Text.isBlank record.groupDid = true) :
    (keys.inherited context others (keys.merged legacy
        (keys.stored context messages record))).isRead = true ↔
      ¬ keys.StaysUnread messages record legacy (context.readWatermark others keys.owner) := by
  rw [settled_isRead, inheritsRead_iff hdirect]
  have hread : (keys.stored context messages record).isRead = true ↔ _ := stored_isRead
  constructor
  · rintro hread' hunread
    have hstored : (keys.stored context messages record).isRead ≠ true := by
      rw [Ne, hread]
      rintro (⟨old, hfound, hold⟩ | ⟨hwrites, hkeeps⟩)
      · rw [hunread.old old hfound] at hold
        cases hold
      · obtain ⟨old, hfound, hkept⟩ := hunread.dropped hwrites
        rw [hkeeps old hfound] at hkept
        cases hkept
    exact hunread.uncovered (hread'.resolve_left hstored).2
  · intro hnot
    by_contra hlost
    rw [not_or, Bool.not_eq_true] at hlost
    obtain ⟨hunread, huncovered⟩ := hlost
    apply hnot
    refine ⟨?_, ?_, fun hcovered => huncovered ⟨hunread, hcovered⟩⟩
    · intro old hfound
      rw [← Bool.not_eq_true]
      intro hold
      rw [hread.mpr (.inl ⟨old, hfound, hold⟩)] at hunread
      cases hunread
    · intro hwrites
      by_contra hkept
      simp only [not_exists, not_and, Bool.not_eq_true] at hkept
      rw [hread.mpr (.inr ⟨hwrites, hkept⟩)] at hunread
      cases hunread

theorem updated_identity :
    let row := updatedStored confirmTarget new old
    (old.serverSeq.isSome = true → row.serverSeq = old.serverSeq) ∧
      (old.senderDid ≠ "" → row.senderDid = old.senderDid) ∧
      (old.groupDid ≠ "" → row.groupDid = old.groupDid) := by
  intro row
  refine ⟨?_, ?_, ?_⟩
  · intro hsome
    obtain ⟨sequence, hsequence⟩ := Option.isSome_iff_exists.mp hsome
    change old.serverSeq.or new.serverSeq = old.serverSeq
    rw [hsequence]
    rfl
  · intro hne
    exact if_neg hne
  · intro hne
    exact if_neg hne

theorem updated_wire_iff (hresolved : old.wireResolved = true)
    (hkind : sqlBlank old.wireThreadKind = false) (href : sqlBlank old.wireThreadRef = false) :
    let row := updatedStored confirmTarget new old
    row.wireResolved = true ∧ row.wireThreadKind = old.wireThreadKind ∧
        row.wireThreadRef = old.wireThreadRef ↔
      confirmTarget = false ∨ new.wireThreadRef = old.wireThreadRef := by
  simp only [updatedStored, updatedRow, hresolved, hkind, href]
  cases confirmTarget with
  | false => simp
  | true => simp

/-- A confirmed target is another one than the stored. -/
theorem reference_ne_of_canConfirmTarget {context : MessageContext ρ} {others : ρ}
    {owner msgId conversationId : String} {wire : WireThreadIdentity} {row : MessageRow}
    (h : canConfirmTarget context others owner msgId conversationId record wire row = true) :
    wire.reference ≠ row.wireThreadRef := by
  simp only [canConfirmTarget, isProvisionalDirect, Bool.and_eq_true, beq_iff_eq, bne_iff_ne]
    at h
  grind

theorem messageKeys_confirm {context : UpsertContext ρ} {tables : SummaryTables ρ}
    (h : messageKeys context tables record = .ok keys) :
    assertExistingWireIdentityCompatible context.base (tables.messages.map (·.toMessageRow))
      tables.others keys.owner keys.msgId record keys.wire keys.conversationId =
        .ok keys.confirmTarget := by
  unfold messageKeys upsertKeys at h
  simp only [Tx.except_bind_ok] at h
  obtain ⟨inputId, -, owner, -, ownerDid, -, stable, -, wire, -, confirmTarget, hconfirm, h⟩ := h
  cases h
  exact hconfirm

theorem confirmTarget_eq {context : UpsertContext ρ} {tables : SummaryTables ρ}
    (hkeys : messageKeys context tables record = .ok keys)
    (hfind : tables.messages.find? keys.isWritten = some old) :
    keys.confirmTarget = (wireTextsConflict old.toMessageRow record keys.wire &&
      canConfirmTarget context.base tables.others keys.owner keys.msgId keys.conversationId record
        keys.wire old.toMessageRow) := by
  have hconfirm := messageKeys_confirm hkeys
  have hfind' : (tables.messages.map (·.toMessageRow)).find? (·.isMessage keys.owner keys.msgId) =
      some old.toMessageRow := by
    rw [List.find?_map]
    exact congrArg _ hfind
  unfold assertExistingWireIdentityCompatible at hconfirm
  rw [hfind'] at hconfirm
  dsimp only at hconfirm
  generalize wireTextsConflict old.toMessageRow record keys.wire = conflict at hconfirm ⊢
  generalize canConfirmTarget context.base tables.others keys.owner keys.msgId keys.conversationId
    record keys.wire old.toMessageRow = confirms at hconfirm ⊢
  generalize (old.serverSeq.isSome && record.serverSeq.isSome &&
    old.serverSeq != record.serverSeq) = sequences at hconfirm
  cases conflict <;> cases confirms <;> cases sequences <;> simp_all

theorem mergedText_eq : keys.mergedText record = ((nullableContent record.content).or
    (keys.duplicates.filterMap fun row => nullableContent row.content).head?).getD
      (.malformed "") := by
  simp only [mergedText, mergedContent, UpsertKeys.rows, List.filterMap_map]
  rfl

theorem isBlank_nullableContent {content text : JsonText} (h : nullableContent content = some text) :
    text.isBlank = false := by
  unfold nullableContent at h
  split at h
  · cases h
  · rename_i hblank
    cases content with
    | malformed raw =>
      cases h
      simpa [JsonText.isBlank, Text.isBlank_trim] using hblank
    | parsed value =>
      cases h
      rfl

theorem text_kept_iff (context : UpsertContext ρ) (record : MessageRecord)
    (h : messages.find? keys.isWritten = some old) :
    (old.hydrationState = .hydrated → record.hydrationState ≠ .hydrated →
      (keys.stored context messages record).content = old.content ∨
        ∃ row ∈ keys.duplicates, nullableContent row.content =
          some (keys.stored context messages record).content) ↔
      ¬ keys.ReplacesText record old := by
  rw [stored_of_some h]
  have hcontent : (updatedStored keys.confirmTarget (keys.inserted context messages record)
      old).content = if (old.hydrationState == .hydrated &&
        (keys.inserted context messages record).hydrationState != .hydrated) ||
        (keys.mergedText record).isBlank then old.content else keys.mergedText record := rfl
  rw [hcontent]
  constructor
  · intro hkept hreplaces
    obtain ⟨text, htext, hother, hduplicates⟩ := hreplaces.text
    have hwrites : (keys.inserted context messages record).hydrationState = .hydrated :=
      inserted_hydrated.mpr (.inr hreplaces.duplicate)
    have hmerged : keys.mergedText record = text := by
      simp [mergedText_eq, htext]
    have hshown := hkept hreplaces.hydrated hreplaces.unhydrated
    rw [hwrites, hmerged, isBlank_nullableContent htext] at hshown
    simp only [bne_self_eq_false, Bool.and_false, Bool.or_self, Bool.false_eq_true,
      if_false] at hshown
    rcases hshown with hsame | ⟨row, hrow, hsame⟩
    · exact hother hsame
    · exact hduplicates row hrow hsame
  · intro hnot hhydrated hunhydrated
    by_cases hduplicate : ∃ row ∈ keys.duplicates, row.hydrationState = .hydrated
    · have hwrites : (keys.inserted context messages record).hydrationState = .hydrated :=
        inserted_hydrated.mpr (.inr hduplicate)
      rw [hwrites]
      simp only [bne_self_eq_false, Bool.and_false, Bool.false_or]
      split
      · exact .inl rfl
      · rename_i hblank
        cases hrecord : nullableContent record.content with
        | some text =>
          have hmerged : keys.mergedText record = text := by
            simp [mergedText_eq, hrecord]
          rw [hmerged]
          by_contra hshown
          simp only [not_or, not_exists, not_and] at hshown
          exact hnot ⟨hhydrated, hunhydrated, hduplicate, text, hrecord, hshown.1, hshown.2⟩
        | none =>
          -- the text is the first one of the duplicates
          right
          cases hhead : (keys.duplicates.filterMap fun row => nullableContent row.content).head?
            with
          | none =>
            have hempty : keys.mergedText record = .malformed "" := by
              simp [mergedText_eq, hrecord, hhead]
            rw [hempty] at hblank
            exact absurd (by decide) hblank
          | some text =>
            have hmerged : keys.mergedText record = text := by
              simp [mergedText_eq, hrecord, hhead]
            obtain ⟨row, hrow, htext⟩ := List.mem_filterMap.mp (List.mem_of_mem_head? hhead)
            exact ⟨row, hrow, by rw [hmerged, htext]⟩
    · have hkeeps : (keys.inserted context messages record).hydrationState ≠ .hydrated := by
        rw [Ne, inserted_hydrated]
        rintro (hrecord | hsome)
        · exact hunhydrated hrecord
        · exact hduplicate hsome
      left
      rw [if_pos]
      simp [hhydrated, hkeeps]

end Merge

end MessageKeys

/-! ## The upsert -/

section Upsert

variable {context : UpsertContext ρ} {tables tables' : SummaryTables ρ} {owner : String}

theorem Framed.applyMessageDeltaOrRebuild {context : SummaryContext ρ} {R : ρ → ρ → Prop}
    (hR : Framed context R) {previous : Option StoredMessage} {next : StoredMessage}
    (h : LocalState.applyMessageDeltaOrRebuild context tables owner previous next = .ok tables') :
    KeepsRows R tables tables' := by
  unfold LocalState.applyMessageDeltaOrRebuild at h
  split at h
  · exact hR.rebuildSingle h
  split at h
  · exact hR.rebuildTouched h
  split at h
  · exact hR.rebuildSingle h
  split at h
  · split at h
    · cases h
      exact hR.of_eq ⟨rfl, rfl⟩ rfl
    · exact hR.rebuildSingle h
  · split at h
    · split at h
      · exact hR.rebuildSingle h
      · unfold applyInsertDelta at h
        split at h
        · exact hR.rebuildSingle h
        · dsimp only at h
          split at h
          · cases h
            exact hR.of_eq ⟨rfl, rfl⟩ rfl
          · cases h
            exact hR.of_eq ⟨rfl, rfl⟩ rfl
    · unfold applyUpdateDelta at h
      split at h
      · exact hR.rebuildSingle h
      · cases h
        exact hR.of_eq ⟨rfl, rfl⟩ rfl

theorem upsertStoredMessage_keys {record : MessageRecord} {result : List String × SummaryTables ρ}
    (h : upsertStoredMessage context tables record = .ok result) :
    ∃ keys legacy, messageKeys context tables record = .ok keys ∧
      keys.legacy context tables record = .ok legacy := by
  unfold upsertStoredMessage at h
  obtain ⟨keys, hkeys, h⟩ := Tx.except_bind_ok.mp h
  obtain ⟨legacy, hlegacy, -⟩ := Tx.except_bind_ok.mp h
  exact ⟨keys, legacy, hkeys, hlegacy⟩

/-- The rows of a successful upsert, what it keeps of the tables of other modules and the
conversations that it touched. -/
theorem upsertStoredMessage_rows {record : MessageRecord} {keys : MessageKeys}
    {legacy : List String × ρ} {result : List String × SummaryTables ρ}
    (hkeys : messageKeys context tables record = .ok keys)
    (hlegacy : keys.legacy context tables record = .ok legacy)
    (h : upsertStoredMessage context tables record = .ok result) :
    result.2.messages = keys.settle context legacy.2 tables.messages record legacy.1 ∧
      result.2.aliases = upsertMessageAliases tables.aliases keys.owner keys.msgId
        (keys.names (·.toMessageRow) record) ∧
      (∀ R, Framed context.toSummaryContext R → R legacy.2 result.2.others) ∧
      let find (messages : List StoredMessage) : Option String :=
        (messages.find? keys.isWritten).map (·.conversation)
      result.1 = (find tables.messages).toList ++
        keys.duplicates.map (stableConversationId context.base ·.toRecord) ++ legacy.1 ++
        (find result.2.messages).toList ++
        [(find result.2.messages).getD keys.conversationId] := by
  unfold upsertStoredMessage at h
  rw [hkeys] at h
  have hany : Framed context.toSummaryContext fun _ _ => True :=
    ⟨fun _ => trivial, fun _ _ => trivial, fun _ => trivial⟩
  simp only [Tx.except_ok_bind, hlegacy, MessageKeys.find?_settle] at h
  split at h
  · obtain ⟨settled, hsettled, h⟩ := Tx.except_bind_ok.mp h
    obtain ⟨final, hensure, h⟩ := Tx.except_bind_ok.mp h
    cases h
    have hkeeps := hany.compose (hany.applyMessageDeltaOrRebuild hsettled)
      (hany.ensureFromSummary hensure)
    exact ⟨hkeeps.messages, hkeeps.aliases, fun R hR => (hR.compose
      (hR.applyMessageDeltaOrRebuild hsettled) (hR.ensureFromSummary hensure)).others,
      by simp only [hkeeps.messages, MessageKeys.find?_settle]⟩
  · obtain ⟨settled, hsettled, h⟩ := Tx.except_bind_ok.mp h
    obtain ⟨final, hensure, h⟩ := Tx.except_bind_ok.mp h
    cases h
    have hkeeps := hany.compose (hany.rebuildTouched hsettled) (hany.ensureFromSummary hensure)
    exact ⟨hkeeps.messages, hkeeps.aliases, fun R hR => (hR.compose
      (hR.rebuildTouched hsettled) (hR.ensureFromSummary hensure)).others,
      by simp only [hkeeps.messages, MessageKeys.find?_settle]⟩

theorem legacy_readWatermark {record : MessageRecord} {keys : MessageKeys}
    {legacy : List String × ρ} (h : keys.legacy context tables record = .ok legacy) :
    context.readWatermark legacy.2 = context.readWatermark tables.others := by
  unfold MessageKeys.legacy mergeLegacy at h
  split at h
  · exact context.legacy_watermark _ _ _ _ _ _ h
  · cases h
    rfl

/-- The rows as the projection of events knows them. -/
def SummaryTables.toMessages (tables : SummaryTables ρ) : MessageTables ρ where
  messages := tables.messages.map (·.toMessageRow)
  aliases := tables.aliases
  others := tables.others

def MessageKeys.projected (keys : MessageKeys) : UpsertKeys MessageRow :=
  { keys with duplicates := keys.rows (·.toMessageRow) }

variable {record : MessageRecord} {keys : MessageKeys}

theorem upsertKeys_projected (h : messageKeys context tables record = .ok keys) :
    upsertKeys id context.base tables.toMessages.messages tables.toMessages.others record =
      .ok keys.projected := by
  have hsort (p : MessageRow → Bool) :
      (tables.toMessages.messages.filter p).insertionSort (fun a b => a.msgId ≤ b.msgId) =
        ((tables.messages.filter fun row => p row.toMessageRow).insertionSort
          fun a b => a.msgId ≤ b.msgId).map (·.toMessageRow) := by
    rw [SummaryTables.toMessages, List.filter_map]
    exact (List.map_insertionSort (fun a b : StoredMessage => a.msgId ≤ b.msgId)
      (fun a b : MessageRow => a.msgId ≤ b.msgId) (·.toMessageRow) _ fun _ _ _ _ => Iff.rfl).symm
  unfold messageKeys upsertKeys at h
  unfold upsertKeys
  simp only [Tx.except_bind_ok, List.map_id] at h ⊢
  obtain ⟨inputId, hinput, owner, howner, ownerDid, hdid, stable, hstable, wire, hwire,
    confirmTarget, hconfirm, h⟩ := h
  refine ⟨inputId, hinput, owner, howner, ownerDid, hdid, stable, hstable, wire, hwire,
    confirmTarget, hconfirm, ?_⟩
  rw [← Except.ok.inj h]
  simp only [MessageKeys.projected, UpsertKeys.rows, ← hsort]
  rfl

theorem map_write :
    (keys.write context tables.messages record).map (·.toMessageRow) =
      keys.projected.write context.base tables.toMessages.messages record := by
  have hinserted : (keys.inserted context tables.messages record).toMessageRow =
      keys.projected.insertedRow id context.base tables.toMessages.messages record := by
    simp only [UpsertKeys.insertedRow, MessageKeys.projected, UpsertKeys.rows, List.map_id]
    rfl
  have hkept : (deleteWhere keys.isFolded tables.messages).map (·.toMessageRow) =
      deleteWhere (keys.projected.folds id) tables.toMessages.messages := by
    simp only [deleteWhere, SummaryTables.toMessages, List.filter_map]
    simp only [Function.comp_def, MessageKeys.isFolded, UpsertKeys.folds, UpsertKeys.rows,
      MessageKeys.projected, List.map_id, id]
  unfold MessageKeys.write UpsertKeys.write
  dsimp only
  rw [← hinserted, ← hkept]
  exact map_upsertWhere_comm (g := fun row : StoredMessage => row.toMessageRow)
    (q := fun row => row.isMessage keys.owner keys.msgId)
    (f := updatedStored keys.confirmTarget _) (r := updatedRow keys.confirmTarget _)
    (fun _ => rfl) (fun _ => rfl) _ _

theorem map_settle {others : ρ} {legacy : List String} :
    (keys.settle context others tables.messages record legacy).map (·.toMessageRow) =
      updateWhere (·.isLegacy keys.owner legacy)
        (fun row => { row with conversationId := keys.conversationId })
        (keys.projected.write context.base tables.toMessages.messages record) := by
  unfold MessageKeys.settle inheritCommittedReadWatermark
  rw [map_updateWhere (k := fun row : StoredMessage => row.toMessageRow)
    (f := fun row => { row with isRead := true }) (fun _ => rfl), ← map_write]
  exact map_updateWhere_comm (g := fun row : StoredMessage => row.toMessageRow)
    (q := fun row => row.isLegacy keys.owner legacy)
    (f := fun row => { row with conversationId := keys.conversationId })
    (r := fun row => { row with conversationId := keys.conversationId })
    (fun _ => rfl) (fun _ => rfl) _

/-- A successful upsert is one of the projection of events on the rows that it knows, when
the other tables are settled as the writers of the summaries leave them. -/
theorem upsertMessageRecord_of_stored {legacy : List String × ρ}
    {result : List String × SummaryTables ρ}
    (hkeys : messageKeys context tables record = .ok keys)
    (hlegacy : keys.legacy context tables record = .ok legacy)
    (h : upsertStoredMessage context tables record = .ok result)
    (hsettle : context.base.settle legacy.2 record result.1 = .ok result.2.others) :
    upsertMessageRecord context.base tables.toMessages record =
      .ok (result.1, result.2.toMessages) := by
  obtain ⟨hmessages, haliases, -, htouched⟩ := upsertStoredMessage_rows hkeys hlegacy h
  have hlegacy' : mergeLegacy context.base tables.toMessages.others
      (keys.projected.write context.base tables.toMessages.messages record) keys.projected.owner
      keys.projected.conversationId record = .ok legacy := by
    rw [← map_write]
    exact hlegacy
  have hfind (messages : List StoredMessage) :
      ((messages.map (·.toMessageRow)).find? (·.isMessage keys.owner keys.msgId)).map
        (·.conversation) = (messages.find? keys.isWritten).map (·.conversation) := by
    rw [List.find?_map, Option.map_map]
    rfl
  have hrows : result.2.toMessages.messages = updateWhere (·.isLegacy keys.owner legacy.1)
      (fun row => { row with conversationId := keys.conversationId })
      (keys.projected.write context.base tables.toMessages.messages record) := by
    rw [← map_settle, ← hmessages]
    rfl
  have hwritten : keys.projected.names id record = keys.names (·.toMessageRow) record := by
    simp only [UpsertKeys.names, UpsertKeys.rows, MessageKeys.projected, List.map_id]
  have hduplicates : keys.projected.duplicates.map (stableConversationId context.base ·.toRecord) =
      keys.duplicates.map (stableConversationId context.base ·.toRecord) := by
    simp [MessageKeys.projected, UpsertKeys.rows, Function.comp_def]
  unfold upsertMessageRecord
  rw [upsertKeys_projected hkeys]
  simp only [Tx.except_ok_bind, hlegacy', hwritten, hduplicates]
  rw [show keys.projected.owner = keys.owner from rfl,
    show keys.projected.conversationId = keys.conversationId from rfl,
    show keys.projected.msgId = keys.msgId from rfl, ← hrows]
  simp only [SummaryTables.toMessages, hfind, ← htouched, hsettle, Tx.except_ok_bind, haliases]
end Upsert

namespace MergeSample

def echo : StoredMessage where
  msgId := "m"
  ownerIdentityId := "o"
  ownerDid := "d"
  conversationId := "group:g"
  threadId := "group:g"
  wireThreadKind := "group"
  wireThreadRef := "g"
  senderDid := "p"
  groupId := "g"
  groupDid := "g"
  contentType := "text/plain"
  content := .malformed "hi"
  sentAt := "1"
  storedAt := "1"
  isRead := true

def tables : SummaryTables Unit where
  messages := [echo]
  aliases := []
  summaries := []
  others := ()
  distinct := by simp [UniqueKey]
  distinctMessages := by simp [UniqueKey]

def sequenced (isRead : Bool) : MessageRecord where
  msgId := "g:5"
  ownerIdentityId := "o"
  ownerDid := "d"
  conversationId := "group:g"
  wireThreadKind := "group"
  wireThreadRef := "g"
  threadId := "group:g"
  senderDid := "p"
  groupId := "g"
  groupDid := "g"
  contentType := "text/plain"
  content := .malformed "hi"
  serverSeq := some 5
  sentAt := "1"
  storedAt := "1"
  isRead := isRead
  metadata := .parsed (.obj [("raw_message_id", .str "m")])

def flags (isRead : Bool) : Option (List (String × Bool)) :=
  (upsertStoredMessage UpsertSample.plain tables (sequenced isRead)).toOption.map fun result =>
    result.2.messages.map fun row => (row.msgId, row.isRead)

end MergeSample

end LocalState
end Awiki

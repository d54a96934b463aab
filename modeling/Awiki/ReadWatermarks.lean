import Awiki.GroupPositions
import Awiki.ReadProjection

/-!
# Read watermarks over whole runs

Local marks, states of other devices, bindings and messages write the read state of a thread
in turn.  A mark merges its watermark with the stored one, and a projection takes the larger
of the two.  The exception is a stored watermark whose message the thread does not have: the
next mark replaces it.  A state of another device can name such a message, since it may
arrive before the message does.
-/

namespace Awiki

namespace LocalState

open Rows Paging

variable {κ : Type} {current : Option ThreadReadState} {row old : ThreadReadState} {seq : String}
  {record : ThreadReadState} {threadId : String}

variable {text : String} {row : ThreadReadState} {owner scope threadId : String}
  {tables tables' : ReadTables κ} {result : List String × ReadDb κ}

theorem nonEmpty_eq_self (htrim : Text.trim text = text) (hne : text ≠ "") :
    nonEmpty text = some text := by
  rw [nonEmpty_eq_some]
  refine ⟨?_, htrim⟩
  rw [← Bool.not_eq_true, Text.isBlank_iff, htrim]
  exact hne

theorem nonEmpty_of_isCanonical (h : Decimal.isCanonical text = true) :
    nonEmpty text = some text :=
  nonEmpty_eq_self (Decimal.trim_of_isCanonical h) (Decimal.ne_empty_of_isCanonical h)

/-! ## Sequences as SQLite casts them -/

theorem castInteger_of_isCanonical (h : Decimal.isCanonical text = true) :
    castInteger text = min (2 ^ 63 - 1) (Decimal.value text : Int) := by
  have hdigits := Decimal.isCanonical_digits h
  have hall := List.all_eq_true.mp hdigits
  have htake : text.toList.takeWhile Char.isDigit = text.toList :=
    List.takeWhile_eq_self_iff.mpr hall
  have hdrop : text.toList.dropWhile Text.isWhiteSpace = text.toList := by
    apply List.dropWhile_eq_self_iff.mpr
    intro hpos
    rw [Bool.not_eq_true]
    exact Decimal.not_isWhiteSpace_of_isDigit (hall _ (List.getElem_mem hpos))
  unfold castInteger
  rw [hdrop]
  dsimp only
  split
  · rename_i cs heq
    have hsign := hall '-' (by rw [heq]; exact List.mem_cons_self)
    exact absurd hsign (by decide)
  · rename_i cs heq
    have hsign := hall '+' (by rw [heq]; exact List.mem_cons_self)
    exact absurd hsign (by decide)
  · rw [htake]
    rfl

theorem toList_negSucc (n : Nat) :
    (toString (Int.negSucc n)).toList = '-' :: (toString (n + 1)).toList := by
  change ("-" ++ toString (n + 1)).toList = _
  rw [String.toList_append]
  rfl

theorem castInteger_neg (n : Nat) : castInteger (toString (Int.negSucc n)) ≤ 0 := by
  unfold castInteger
  rw [toList_negSucc]
  have hdrop : ('-' :: (toString (n + 1)).toList).dropWhile Text.isWhiteSpace =
      '-' :: (toString (n + 1)).toList := by
    apply List.dropWhile_cons_of_neg
    decide
  rw [hdrop]
  change max (-(2 ^ 63)) (-((Decimal.ofDigits _ : Nat) : Int)) ≤ 0
  omega

def IsSequence (seq : String) : Prop :=
  Decimal.isCanonical seq = true ∨ ∃ n : Int, seq = toString n

theorem trim_toString (n : Int) : Text.trim (toString n) = toString n := by
  cases n with
  | ofNat n => exact Decimal.trim_of_isCanonical (Decimal.isCanonical_toString n)
  | negSucc n =>
    have hblank : ∀ c ∈ (toString (Int.negSucc n)).toList, Text.isWhiteSpace c = false := by
      intro c hc
      rw [toList_negSucc, List.mem_cons] at hc
      rcases hc with rfl | hc
      · decide
      · have hdigits := Decimal.isCanonical_digits (Decimal.isCanonical_toString (n + 1))
        exact Decimal.not_isWhiteSpace_of_isDigit (List.all_eq_true.mp hdigits c hc)
    apply Text.trim_eq_self
    · intro c hc
      exact hblank c (List.mem_of_mem_head? hc)
    · intro c hc
      exact hblank c (List.mem_of_mem_getLast? hc)

theorem IsSequence.of_nonEmpty (h : IsSequence text) (hseq : nonEmpty text = some seq) :
    IsSequence seq := by
  obtain ⟨-, rfl⟩ := nonEmpty_eq_some.mp hseq
  rcases h with hcanonical | ⟨n, rfl⟩
  · rw [Decimal.trim_of_isCanonical hcanonical]
    exact .inl hcanonical
  · rw [trim_toString]
    exact .inr ⟨n, rfl⟩

theorem compareDecimal_of_castInteger_lt {current : String}
    (hcurrent : Decimal.isCanonical current = true) (hseq : IsSequence seq)
    (h : castInteger current < castInteger seq) : compareDecimal current seq = .ok .lt := by
  rw [castInteger_of_isCanonical hcurrent] at h
  have hcanonical : Decimal.isCanonical seq = true := by
    rcases hseq with hcanonical | ⟨n, rfl⟩
    · exact hcanonical
    · cases n with
      | ofNat n => exact Decimal.isCanonical_toString n
      | negSucc n =>
        have hneg := castInteger_neg n
        omega
  rw [castInteger_of_isCanonical hcanonical] at h
  exact compareDecimal_ok.mpr ⟨hcurrent, hcanonical,
    (Decimal.order_lt_iff hcurrent hcanonical).mpr (by omega)⟩

/-! ## Rising watermarks -/

def Rises (before after : Option String) : Prop :=
  ∀ seq, before = some seq → ∃ seq', after = some seq' ∧
    (seq' = seq ∨ compareDecimal seq seq' = .ok .lt)

theorem Rises.refl (seq : Option String) : Rises seq seq :=
  fun seq h => ⟨seq, h, .inl rfl⟩

theorem Rises.none (seq : Option String) : Rises Option.none seq := by
  intro seq h
  cases h

theorem compareDecimal_lt_trans {first second third : String}
    (h : compareDecimal first second = .ok .lt) (h' : compareDecimal second third = .ok .lt) :
    compareDecimal first third = .ok .lt := by
  obtain ⟨hfirst, hsecond, hlt⟩ := compareDecimal_ok.mp h
  obtain ⟨-, hthird, hlt'⟩ := compareDecimal_ok.mp h'
  rw [Decimal.order_lt_iff hfirst hsecond] at hlt
  rw [Decimal.order_lt_iff hsecond hthird] at hlt'
  exact compareDecimal_ok.mpr ⟨hfirst, hthird,
    (Decimal.order_lt_iff hfirst hthird).mpr (hlt.trans hlt')⟩

theorem Rises.trans {first second third : Option String} (h : Rises first second)
    (h' : Rises second third) : Rises first third := by
  intro seq hseq
  obtain ⟨middle, hmiddle, hle⟩ := h seq hseq
  obtain ⟨last, hlast, hle'⟩ := h' middle hmiddle
  refine ⟨last, hlast, ?_⟩
  rcases hle with rfl | hlt
  · exact hle'
  · rcases hle' with rfl | hlt'
    · exact .inr hlt
    · exact .inr (compareDecimal_lt_trans hlt hlt')

def ReadTables.watermark (tables : ReadTables κ) (owner scope threadId : String) :
    Option String :=
  (tables.stateOf owner scope threadId).bind (·.readWatermarkSeq)

def WatermarksRise (tables tables' : ReadTables κ) : Prop :=
  ∀ owner scope threadId,
    Rises (tables.watermark owner scope threadId) (tables'.watermark owner scope threadId)

theorem WatermarksRise.trans {first second third : ReadTables κ}
    (h : WatermarksRise first second) (h' : WatermarksRise second third) :
    WatermarksRise first third :=
  fun owner scope threadId => (h owner scope threadId).trans (h' owner scope threadId)

theorem WatermarksRise.of_eq (h : tables'.readStates = tables.readStates) :
    WatermarksRise tables tables' := by
  intro owner scope threadId
  rw [ReadTables.watermark, ReadTables.watermark, ReadTables.stateOf, ReadTables.stateOf, h]
  exact .refl _

def ReadTables.AllWatermarks (tables : ReadTables κ) (P : String → Prop) : Prop :=
  ∀ row ∈ tables.readStates, ∀ seq, row.readWatermarkSeq = some seq → P seq

abbrev Trimmed (tables : ReadTables κ) : Prop :=
  tables.AllWatermarks fun seq => nonEmpty seq = some seq

theorem AllWatermarks.of_eq {P : String → Prop} (hstates : tables'.readStates = tables.readStates)
    (h : tables.AllWatermarks P) : tables'.AllWatermarks P := by
  intro row hrow
  rw [hstates] at hrow
  exact h row hrow

/-! ## Writes of one state -/

def ReadTables.write (tables : ReadTables κ) (row : ThreadReadState)
    (merge : ThreadReadState → ThreadReadState) : ReadTables κ :=
  tables.setStates (upsertWhere (·.isOf row.ownerIdentityId row.threadScope row.threadId) row merge)

def ThreadReadState.thread (row : ThreadReadState) : String × String × String :=
  (row.ownerIdentityId, row.threadScope, row.threadId)

theorem thread_eq_iff :
    row.thread = (owner, scope, threadId) ↔
      row.ownerIdentityId = owner ∧ row.threadScope = scope ∧ row.threadId = threadId := by
  simp [ThreadReadState.thread]

theorem isOf_iff_thread {state : ThreadReadState} :
    state.isOf owner scope threadId = true ↔ state.thread = (owner, scope, threadId) := by
  simp [ThreadReadState.isOf, ThreadReadState.thread, and_assoc]

section Writes

variable {tables : ReadTables κ} {row : ThreadReadState}
  {merge : ThreadReadState → ThreadReadState}

section

variable (hmerge : ∀ old, old.thread = row.thread → (merge old).thread = row.thread)

include hmerge

theorem stateOf_write_self :
    (tables.write row merge).stateOf row.ownerIdentityId row.threadScope row.threadId =
      some ((tables.stateOf row.ownerIdentityId row.threadScope row.threadId).elim row merge) := by
  apply find?_upsertWhere_key
  · exact isOf_iff_thread.mpr rfl
  · intro old hold
    exact isOf_iff_thread.mpr (hmerge old (isOf_iff_thread.mp hold))

theorem stateOf_write_of_ne {owner scope : String} (hne : (owner, scope, threadId) ≠ row.thread) :
    (tables.write row merge).stateOf owner scope threadId =
      tables.stateOf owner scope threadId := by
  have hother : ∀ old : ThreadReadState, old.thread = row.thread →
      old.isOf owner scope threadId = false := by
    intro old hold
    rw [← Bool.not_eq_true, isOf_iff_thread, hold]
    exact hne.symm
  apply find?_upsertWhere_of_ne
  · intro old hold
    exact hother old (isOf_iff_thread.mp hold)
  · exact hother row rfl
  · intro old hold
    exact hother _ (hmerge old (isOf_iff_thread.mp hold))

theorem watermark_write_of_ne {owner scope : String} (hne : (owner, scope, threadId) ≠ row.thread) :
    (tables.write row merge).watermark owner scope threadId =
      tables.watermark owner scope threadId := by
  rw [ReadTables.watermark, stateOf_write_of_ne hmerge hne, ReadTables.watermark]

theorem write_rises
    (hrise : ∀ old, tables.stateOf row.ownerIdentityId row.threadScope row.threadId = some old →
      Rises old.readWatermarkSeq (merge old).readWatermarkSeq) :
    WatermarksRise tables (tables.write row merge) := by
  intro owner scope threadId
  by_cases hthread : (owner, scope, threadId) = row.thread
  · cases hthread
    rw [ReadTables.watermark, ReadTables.watermark, stateOf_write_self hmerge]
    cases hold : tables.stateOf row.ownerIdentityId row.threadScope row.threadId with
    | none => exact .none _
    | some old => exact hrise old hold
  · rw [watermark_write_of_ne hmerge hthread]
    exact .refl _

end

theorem write_all {P : String → Prop} (h : tables.AllWatermarks P)
    (hrow : ∀ seq, row.readWatermarkSeq = some seq → P seq)
    (hmerge : ∀ old, (merge old).readWatermarkSeq = row.readWatermarkSeq ∨
      (merge old).readWatermarkSeq = old.readWatermarkSeq) :
    (tables.write row merge).AllWatermarks P := by
  intro new hnew seq hseq
  rcases mem_upsertWhere hnew with rfl | ⟨hold, -⟩ | ⟨old, hold, -, rfl⟩
  · exact hrow seq hseq
  · exact h new hold seq hseq
  · rcases hmerge old with hmerged | hmerged
    · exact hrow seq (hmerged ▸ hseq)
    · exact h old hold seq (hmerged ▸ hseq)

end Writes

theorem columns_ok (h : record.columns = .ok row) :
    row.thread = (Text.trim record.ownerIdentityId, Text.trim record.threadScope,
        Text.trim record.threadId) ∧
      row.readWatermarkSeq = record.readWatermarkSeq.bind nonEmpty := by
  unfold ThreadReadState.columns at h
  simp only [Tx.except_bind_ok] at h
  obtain ⟨owner, howner, scope, hscope, threadId, hthreadId, updatedAt, -, h⟩ := h
  cases h
  rw [← (requiredField_ok.mp howner).2, ← (requiredField_ok.mp hscope).2,
    ← (requiredField_ok.mp hthreadId).2]
  exact ⟨rfl, rfl⟩

theorem getThreadReadState_ok (h : getThreadReadState tables owner scope threadId = .ok current) :
    current = tables.stateOf (Text.trim owner) (Text.trim scope) (Text.trim threadId) := by
  unfold getThreadReadState at h
  simp only [Tx.except_bind_ok] at h
  obtain ⟨owner', howner, scope', hscope, threadId', hthreadId, h⟩ := h
  cases h
  rw [(requiredField_ok.mp howner).2, (requiredField_ok.mp hscope).2,
    (requiredField_ok.mp hthreadId).2]

theorem nonEmpty_idem {value : String} (h : nonEmpty text = some value) :
    nonEmpty value = some value := by
  obtain ⟨hblank, rfl⟩ := nonEmpty_eq_some.mp h
  exact nonEmpty_eq_some.mpr ⟨by rw [Text.isBlank_trim]; exact hblank, Text.trim_trim _⟩

theorem columns_trimmed (h : record.columns = .ok row) :
    ∀ seq, row.readWatermarkSeq = some seq → nonEmpty seq = some seq := by
  intro seq hseq
  rw [(columns_ok h).2] at hseq
  obtain ⟨text, -, htext⟩ := Option.bind_eq_some_iff.mp hseq
  exact nonEmpty_idem htext

/-! ## Effective watermarks -/

section Effective

variable {context : ReadContext κ} {db : ReadDb κ} {owner : String} {ids : List String}
  {messageId seq : Option String} {effective : EffectiveReadWatermark}

variable {value : String}

theorem normalizeReadWatermarkSeq_ok {text : String}
    (h : normalizeReadWatermarkSeq context value = .ok text) :
    text = Text.trim value ∧ Decimal.isCanonical text = true := by
  unfold normalizeReadWatermarkSeq at h
  dsimp only at h
  split at h
  · rename_i hvalid
    cases h
    exact ⟨rfl, (Bool.and_eq_true_iff.mp hvalid).1⟩
  · cases h

theorem effective_canonical
    (h : effectiveReadWatermarkForThread context db owner ids messageId (some value) =
      .ok effective) : Decimal.isCanonical (Text.trim value) = true := by
  unfold effectiveReadWatermarkForThread at h
  obtain ⟨normalized, hnormalized, h⟩ := Tx.except_bind_ok.mp h
  rcases Tx.option_mapM_ok hnormalized with ⟨hnone, -⟩ | ⟨given, text, hgiven, htext, -⟩
  · cases hnone
  · cases hgiven
    obtain ⟨rfl, hcanonical⟩ := normalizeReadWatermarkSeq_ok htext
    exact hcanonical

theorem find?_listable {id : String} {row : StoredMessage} (hrow : row ∈ db.messages)
    (hlistable : row.isListable owner ids = true) (hid : row.msgId = id) :
    (db.messages.find? fun row => row.isListable owner ids && row.msgId == id) = some row := by
  have howner : ∀ row : StoredMessage, row.isListable owner ids = true →
      row.ownerIdentityId = owner := by
    intro row h
    simp only [StoredMessage.isListable, Bool.and_eq_true, beq_iff_eq] at h
    exact h.1.1
  apply db.distinctMessages.find?_eq_some hrow
  · simp [hlistable, hid]
  · intro other hother hfound
    simp only [Bool.and_eq_true, beq_iff_eq] at hfound
    simp [StoredMessage.key, howner other hfound.1, howner row hlistable, hfound.2, hid]

variable (h : effectiveReadWatermarkForThread context db owner ids messageId seq = .ok effective)

include h

theorem effective_of_message {id : String} (hids : ids ≠ [])
    (hid : messageId.bind nonEmpty = some id) :
    effective = (((db.messages.find? fun row => row.isListable owner ids &&
      row.msgId == canonicalMessageIdForRequest db owner id).map fun row =>
        { messageId := nonEmpty row.msgId
          seq := row.serverSeq.map toString
          invalidMessageId := false }).getD
      { EffectiveReadWatermark.none with invalidMessageId := true }) := by
  unfold effectiveReadWatermarkForThread at h
  obtain ⟨normalized, -, h⟩ := Tx.except_bind_ok.mp h
  rw [if_neg (by simpa using hids), hid] at h
  obtain ⟨found, hfound, h⟩ := Tx.except_bind_ok.mp h
  cases h
  unfold readWatermarkForMessageId at hfound
  obtain ⟨id', hid', hfound⟩ := Tx.except_bind_ok.mp hfound
  obtain ⟨raw, -, hraw⟩ := Option.bind_eq_some_iff.mp hid
  obtain ⟨-, hself⟩ := nonEmpty_eq_some.mp (nonEmpty_idem hraw)
  rw [(requiredText_ok hid').1, hself] at hfound
  cases hfound
  rfl

theorem effective_of_sequence (hids : ids ≠ []) (hid : messageId.bind nonEmpty = none) :
    effective.invalidMessageId = false ∧ effective.seq = seq.map Text.trim ∧
      ∀ value, effective.seq = some value → Decimal.isCanonical value = true := by
  unfold effectiveReadWatermarkForThread at h
  obtain ⟨normalized, hnormalized, h⟩ := Tx.except_bind_ok.mp h
  rw [if_neg (by simpa using hids), hid] at h
  rcases Tx.option_mapM_ok hnormalized with ⟨rfl, rfl⟩ | ⟨given, text, rfl, htext, rfl⟩
  · cases h
    exact ⟨rfl, rfl, fun _ hvalue => by cases hvalue⟩
  · cases h
    obtain ⟨rfl, hcanonical⟩ := normalizeReadWatermarkSeq_ok htext
    exact ⟨rfl, rfl, fun _ hvalue => Option.some.inj hvalue ▸ hcanonical⟩

theorem effective_of_nil (hids : ids = []) : effective = .none := by
  unfold effectiveReadWatermarkForThread at h
  obtain ⟨normalized, -, h⟩ := Tx.except_bind_ok.mp h
  subst hids
  cases h
  rfl

theorem effective_sequence (hvalue : effective.seq = some value) : IsSequence value := by
  by_cases hids : ids = []
  · rw [effective_of_nil h hids] at hvalue
    cases hvalue
  cases hid : messageId.bind nonEmpty with
  | none => exact .inl ((effective_of_sequence h hids hid).2.2 value hvalue)
  | some id =>
    rw [effective_of_message h hids hid] at hvalue
    cases hfind : db.messages.find? fun row => row.isListable owner ids &&
        row.msgId == canonicalMessageIdForRequest db owner id with
    | none =>
      rw [hfind] at hvalue
      cases hvalue
    | some row =>
      rw [hfind] at hvalue
      obtain ⟨n, -, rfl⟩ := Option.map_eq_some_iff.mp hvalue
      exact .inr ⟨n, rfl⟩

theorem effective_valid (hknown : ∀ id, messageId.bind nonEmpty = some id → ids = [] ∨
      ∃ row ∈ db.messages, row.isListable owner ids = true ∧
        row.msgId = canonicalMessageIdForRequest db owner id) :
    effective.invalidMessageId = false := by
  by_cases hids : ids = []
  · rw [effective_of_nil h hids]
    rfl
  cases hid : messageId.bind nonEmpty with
  | none => exact (effective_of_sequence h hids hid).1
  | some id =>
    obtain ⟨row, hrow, hlistable, hmsg⟩ := (hknown id hid).resolve_left hids
    rw [effective_of_message h hids hid, find?_listable hrow hlistable hmsg]
    rfl

end Effective

/-! ## Marks -/

/--
The request reaches the stored sequence: the message that it names is a message of the thread
and not below it, or it names none and its own sequence is not below it.
-/
def Reaches (db : ReadDb κ) (owner : String) (ids : List String) (input : MarkThreadReadInput)
    (seq : String) : Prop :=
  match input.readWatermarkMessageId.bind nonEmpty with
  | some id => ∃ row ∈ db.messages, row.isListable owner ids = true ∧
      row.msgId = canonicalMessageIdForRequest db owner id ∧
      ∃ number order, row.serverSeq = some number ∧
        compareDecimal seq (toString number) = .ok order ∧ order ≠ .gt
  | none => ∃ reached order, input.readWatermarkSeq.bind nonEmpty = some reached ∧
      compareDecimal seq reached = .ok order ∧ order ≠ .gt

/-- The stored state names no message, or a message of the thread, or the thread has no
conversation, or the request reaches the stored sequence. -/
def MarkKeeps (context : ReadContext κ) (db : ReadDb κ) (ownerIdentityId ownerDid : String)
    (input : MarkThreadReadInput) : Prop :=
  ∀ key ids state id seq, threadReadStateKey input.thread = .ok key →
    context.conversationIdsForThreadRef db.others.others db.messages (Text.trim ownerIdentityId)
      (Text.trim ownerDid) input.thread = .ok ids →
    getThreadReadState db.others (Text.trim ownerIdentityId) key.1
      ((context.resolveConversation db.others.others (Text.trim ownerIdentityId) key.2).getD
        key.2) = .ok (some state) →
    state.readWatermarkMessageId.bind nonEmpty = some id → state.readWatermarkSeq = some seq →
    ids = [] ∨
      (∃ row ∈ db.messages, row.isListable (Text.trim ownerIdentityId) ids = true ∧
        row.msgId = canonicalMessageIdForRequest db (Text.trim ownerIdentityId) id) ∨
      Reaches db (Text.trim ownerIdentityId) ids input seq

theorem effective_reaches {context : ReadContext κ} {db : ReadDb κ} {ids : List String}
    {input : MarkThreadReadInput} {requested : EffectiveReadWatermark} (hids : ids ≠ [])
    (h : effectiveReadWatermarkForThread context db owner ids
      (input.readWatermarkMessageId.bind nonEmpty) (input.readWatermarkSeq.bind nonEmpty) =
        .ok requested)
    (hreaches : Reaches db owner ids input seq) :
    requested.invalidMessageId = false ∧ ∃ reached order, requested.seq = some reached ∧
      compareDecimal seq reached = .ok order ∧ order ≠ .gt := by
  unfold Reaches at hreaches
  cases hid : input.readWatermarkMessageId.bind nonEmpty with
  | none =>
    rw [hid] at h hreaches
    obtain ⟨reached, order, hreached, horder⟩ := hreaches
    obtain ⟨hvalid, hseq, -⟩ := effective_of_sequence h hids rfl
    refine ⟨hvalid, reached, order, ?_, horder⟩
    obtain ⟨_, -, hnonEmpty⟩ := Option.bind_eq_some_iff.mp hreached
    rw [hseq, hreached, Option.map_some, (nonEmpty_eq_some.mp (nonEmpty_idem hnonEmpty)).2]
  | some id =>
    rw [hid] at h hreaches
    obtain ⟨row, hrow, hlistable, hmsg, number, order, hnumber, horder⟩ := hreaches
    obtain ⟨_, -, hnonEmpty⟩ := Option.bind_eq_some_iff.mp hid
    have heffective := effective_of_message h hids (nonEmpty_idem hnonEmpty)
    rw [find?_listable hrow hlistable hmsg] at heffective
    rw [heffective]
    exact ⟨rfl, toString number, order, by simp [hnumber], horder⟩

/-- Every message that was read is still there and read. -/
def ReadsKept (db db' : ReadDb κ) : Prop :=
  ∀ row ∈ db.messages, row.isRead = true →
    ∃ row' ∈ db'.messages, row'.key = row.key ∧ row'.isRead = true

theorem ReadsKept.of_eq {db db' : ReadDb κ} (h : db'.messages = db.messages) :
    ReadsKept db db' := by
  intro row hrow hread
  rw [← h] at hrow
  exact ⟨row, hrow, rfl, hread⟩

theorem ReadsKept.trans {db db₁ db₂ : ReadDb κ} (h : ReadsKept db db₁) (h' : ReadsKept db₁ db₂) :
    ReadsKept db db₂ := by
  intro row hrow hread
  obtain ⟨row₁, hrow₁, hkey₁, hread₁⟩ := h row hrow hread
  obtain ⟨row₂, hrow₂, hkey₂, hread₂⟩ := h' row₁ hrow₁ hread₁
  exact ⟨row₂, hrow₂, hkey₂.trans hkey₁, hread₂⟩

/--
What a call leaves that has raised read flags alone.  The summaries, the outbox and the
waiting states can be any: no watermark depends on them.
-/
structure Flagged (db db' : ReadDb κ) : Prop where
  messages : ∃ p, db'.messages = updateWhere p (fun row => { row with isRead := true }) db.messages
  readStates : db'.others.readStates = db.others.readStates

theorem Flagged.readsKept {db db' : ReadDb κ} (h : Flagged db db') : ReadsKept db db' := by
  obtain ⟨p, hmessages⟩ := h.messages
  intro row hrow hread
  rw [hmessages]
  cases hp : p row with
  | true => exact ⟨_, mem_updateWhere_of_pos hrow hp, rfl, rfl⟩
  | false => exact ⟨row, mem_updateWhere_of_not hrow hp, rfl, hread⟩

section Marks

variable {context : ReadContext κ} {db db' : ReadDb κ} {ownerIdentityId ownerDid : String}
  {input : MarkThreadReadInput} {result : MarkThreadReadResult}

theorem MarkedFrom.flagged {p : StoredMessage → Bool} (h : MarkedFrom p db db') :
    Flagged db db' :=
  ⟨⟨p, h.messages⟩, h.reads.readStates⟩

theorem merge_rises (hrow : ∀ seq, row.readWatermarkSeq = some seq → IsSequence seq)
    (hold : ∀ seq, old.readWatermarkSeq = some seq → Decimal.isCanonical seq = true) :
    Rises old.readWatermarkSeq (row.merge old).readWatermarkSeq := by
  intro current hcurrent
  cases hseq : row.readWatermarkSeq with
  | none =>
    refine ⟨current, ?_, .inl rfl⟩
    simp [ThreadReadState.merge, hcurrent, hseq]
  | some seq =>
    by_cases hexceeds : castInteger current < castInteger seq
    · refine ⟨seq, ?_, .inr ?_⟩
      · simp [ThreadReadState.merge, hcurrent, hseq, hexceeds]
      · exact compareDecimal_of_castInteger_lt (hold current hcurrent) (hrow seq hseq) hexceeds
    · refine ⟨current, ?_, .inl rfl⟩
      simp [ThreadReadState.merge, hcurrent, hseq, hexceeds]

theorem merge_thread {replaces : Bool} (h : old.thread = row.thread) :
    (if replaces then row else row.merge old).thread = row.thread := by
  cases replaces with
  | true => rfl
  | false => exact h

namespace MarkTrace

variable (trace : MarkTrace context db ownerIdentityId ownerDid input result db')

theorem owner_eq : trace.owner = Text.trim ownerIdentityId :=
  (requiredText_ok trace.owner_ok).1

theorem write : ∃ row, trace.record.columns = .ok row ∧
    row.thread = (Text.trim ownerIdentityId, Text.trim result.threadScope,
      Text.trim result.threadId) ∧
    db'.messages = trace.marked.messages ∧
    db'.others = trace.marked.others.write row
      fun old => if trace.previous.invalidMessageId then row else row.merge old := by
  obtain ⟨others, hwritten, hdb⟩ := trace.written
  obtain ⟨row, hrow, hothers⟩ := writeReadState_ok hwritten
  have hmessages := congrArg SummaryTables.messages hdb
  have hreads := congrArg SummaryTables.others hdb
  refine ⟨row, hrow, ?_, hmessages, hreads.trans hothers⟩
  rw [(columns_ok hrow).1, trace.record_key.1, trace.record_key.2.1, trace.record_key.2.2,
    trace.owner_eq, Text.trim_trim]

theorem current_eq : trace.current = db.others.stateOf (Text.trim ownerIdentityId)
    (Text.trim result.threadScope) (Text.trim result.threadId) := by
  rw [getThreadReadState_ok trace.current_ok, trace.owner_eq, Text.trim_trim]

theorem marked_states : trace.marked.others.readStates = db.others.readStates := by
  obtain ⟨p, hmarked⟩ := trace.marked_ok
  exact hmarked.reads.readStates

theorem row_sequence (hrow : trace.record.columns = .ok row) :
    ∀ seq, row.readWatermarkSeq = some seq → IsSequence seq := by
  intro seq hseq
  rw [(columns_ok hrow).2, trace.record_seq] at hseq
  obtain ⟨text, htext, hnonEmpty⟩ := Option.bind_eq_some_iff.mp hseq
  split at htext
  · cases htext
  · exact (effective_sequence trace.requested_ok htext).of_nonEmpty hnonEmpty

theorem current_canonical (htrim : Trimmed db.others) (hold : trace.current = some old) :
    ∀ seq, old.readWatermarkSeq = some seq → Decimal.isCanonical seq = true := by
  intro seq hseq
  have hmem : old ∈ db.others.readStates := by
    rw [trace.current_eq] at hold
    exact List.mem_of_find?_eq_some hold
  have hself := htrim old hmem seq hseq
  have hprevious := trace.previous_ok
  rw [hold, Option.bind_some, Option.bind_some, hseq, Option.bind_some, hself] at hprevious
  rw [← (nonEmpty_eq_some.mp hself).2]
  exact effective_canonical hprevious

theorem replaced_rises (hkeeps : MarkKeeps context db ownerIdentityId ownerDid input)
    (hrow : trace.record.columns = .ok row) (hold : trace.current = some old)
    (hinvalid : trace.previous.invalidMessageId = true) :
    Rises old.readWatermarkSeq row.readWatermarkSeq := by
  intro current hcurrent
  -- A stored state without a message id is never invalid.
  cases hid : old.readWatermarkMessageId.bind nonEmpty with
  | none =>
    have hvalid : trace.previous.invalidMessageId = false := by
      apply effective_valid trace.previous_ok
      intro id hsome
      rw [hold, Option.bind_some, hid] at hsome
      cases hsome
    rw [hvalid] at hinvalid
    cases hinvalid
  | some id =>
    obtain ⟨_, -, hraw⟩ := Option.bind_eq_some_iff.mp hid
    have hself := nonEmpty_idem hraw
    have hstate := trace.current_ok
    rw [trace.owner_eq, trace.scope_eq, trace.thread_eq, trace.owner_eq, hold] at hstate
    have hids := trace.ids_ok
    rw [trace.owner_eq] at hids
    have hvalidOf : (trace.conversationIds = [] ∨
        ∃ row ∈ db.messages, row.isListable (Text.trim ownerIdentityId) trace.conversationIds =
          true ∧ row.msgId = canonicalMessageIdForRequest db (Text.trim ownerIdentityId) id) →
        False := by
      intro hknown
      have hvalid : trace.previous.invalidMessageId = false := by
        apply effective_valid trace.previous_ok
        intro id' hsome
        rw [hold, Option.bind_some, hid, Option.bind_some, hself] at hsome
        cases hsome
        rw [trace.owner_eq]
        exact hknown
      rw [hvalid] at hinvalid
      cases hinvalid
    rcases hkeeps _ _ _ _ _ trace.key_ok hids hstate hid hcurrent with
      hempty | hknown | hreaches
    · exact (hvalidOf (.inl hempty)).elim
    · exact (hvalidOf (.inr hknown)).elim
    · have hrequested := trace.requested_ok
      rw [trace.owner_eq] at hrequested
      obtain ⟨hvalid, reached, order, hseq, horder, hne⟩ :=
        effective_reaches (fun hempty => hvalidOf (.inl hempty)) hrequested hreaches
      obtain ⟨hcanonical, hcanonical', hcompare⟩ := compareDecimal_ok.mp horder
      have hwritten : row.readWatermarkSeq = some reached := by
        rw [(columns_ok hrow).2, trace.record_seq, hvalid, hseq]
        exact nonEmpty_of_isCanonical hcanonical'
      refine ⟨reached, hwritten, ?_⟩
      cases order with
      | lt => exact .inr horder
      | eq => exact .inl (Decimal.order_eq_iff.mp hcompare).symm
      | gt => exact absurd rfl hne

include trace

theorem rises (htrim : Trimmed db.others)
    (hkeeps : MarkKeeps context db ownerIdentityId ownerDid input) :
    WatermarksRise db.others db'.others := by
  obtain ⟨row, hrow, hthread, -, hothers⟩ := trace.write
  rw [hothers]
  refine (WatermarksRise.of_eq trace.marked_states).trans
    (write_rises (fun old h => merge_thread h) ?_)
  intro old hold
  have hcurrent : trace.current = some old := by
    obtain ⟨howner, hscope, hthreadId⟩ := thread_eq_iff.mp hthread
    rw [trace.current_eq, ← hold, ReadTables.stateOf, ReadTables.stateOf, trace.marked_states,
      howner, hscope, hthreadId]
  cases hinvalid : trace.previous.invalidMessageId with
  | true => exact trace.replaced_rises hkeeps hrow hcurrent hinvalid
  | false => exact merge_rises (trace.row_sequence hrow) (trace.current_canonical htrim hcurrent)

theorem watermark_of_ne {owner scope : String}
    (hne : (owner, scope, threadId) ≠ (Text.trim ownerIdentityId, Text.trim result.threadScope,
      Text.trim result.threadId)) :
    db'.others.watermark owner scope threadId = db.others.watermark owner scope threadId := by
  obtain ⟨row, hrow, hthread, -, hothers⟩ := trace.write
  rw [hothers, watermark_write_of_ne (fun old h => merge_thread h) (by rw [hthread]; exact hne),
    ReadTables.watermark, ReadTables.watermark, ReadTables.stateOf, ReadTables.stateOf,
    trace.marked_states]

theorem all {P : String → Prop} (h : db.others.AllWatermarks P)
    (hrow : ∀ row, trace.record.columns = .ok row →
      ∀ seq, row.readWatermarkSeq = some seq → P seq) : db'.others.AllWatermarks P := by
  obtain ⟨row, hcolumns, -, -, hothers⟩ := trace.write
  rw [hothers]
  refine write_all (AllWatermarks.of_eq trace.marked_states h) (hrow row hcolumns) fun old => ?_
  split
  · exact .inl rfl
  · unfold ThreadReadState.merge
    dsimp only
    split
    · exact .inl rfl
    · exact .inr rfl

theorem trimmed (htrim : Trimmed db.others) : Trimmed db'.others :=
  trace.all htrim fun _ => columns_trimmed

theorem readsKept : ReadsKept db db' := by
  obtain ⟨p, hmarked⟩ := trace.marked_ok
  obtain ⟨row, -, -, hmessages, -⟩ := trace.write
  exact hmarked.flagged.readsKept.trans (.of_eq hmessages)

end MarkTrace

end Marks

/-! ## Projections -/

structure KeepsReads (db db' : ReadDb κ) : Prop where
  rises : WatermarksRise db.others db'.others
  trimmed : Trimmed db'.others
  reads : ReadsKept db db'

theorem KeepsReads.of_eq {db db' : ReadDb κ} (htrim : Trimmed db.others)
    (hstates : db'.others.readStates = db.others.readStates)
    (hmessages : db'.messages = db.messages) : KeepsReads db db' where
  rises := .of_eq hstates
  trimmed := AllWatermarks.of_eq hstates htrim
  reads := .of_eq hmessages

theorem KeepsReads.trans {db db₁ db₂ : ReadDb κ} (h : KeepsReads db db₁)
    (h' : KeepsReads db₁ db₂) : KeepsReads db db₂ where
  rises := h.rises.trans h'.rises
  trimmed := h'.trimmed
  reads := h.reads.trans h'.reads

theorem Flagged.keeps {db db' : ReadDb κ} (h : Flagged db db') (htrim : Trimmed db.others) :
    KeepsReads db db' where
  rises := .of_eq h.readStates
  trimmed := AllWatermarks.of_eq h.readStates htrim
  reads := h.readsKept

def MarksThread (context : ReadContext κ) (db : ReadDb κ) (owner : String) (thread : ThreadRef)
    (scope threadId : String) : Prop :=
  ∀ key, threadReadStateKey thread = .ok key → key.1 = scope ∧
    (context.resolveConversation db.others.others (Text.trim owner) key.2).getD key.2 = threadId

/-- The mark of a projection is of the projected thread, whose state is written again after
it, or it keeps the watermark. -/
def ProjectKeeps (context : ReadContext κ) (db : ReadDb κ) (owner ownerDid : String)
    (state : ReadStateApply) (kind conversationId : String) : Prop :=
  ∀ thread, projectedThread kind conversationId = .ok thread →
    (MarksThread context db owner thread kind conversationId ∧
      Text.isBlank state.occurredAt = false) ∨
      MarkKeeps context db owner ownerDid (projectedMark thread state false)

/--
What a failed projection can leave outside a transaction, by the last of its writes: read
flags, the state that the mark writes, or the projected state.
-/
inductive ProjectionLeaves (context : ReadContext κ) (db : ReadDb κ) (owner ownerDid : String)
    (state : ReadStateApply) (kind conversationId : String) : ReadDb κ → Prop
  | flagged {left : ReadDb κ} (hleft : Flagged db left) :
      ProjectionLeaves context db owner ownerDid state kind conversationId left
  | marked {left marked : ReadDb κ} {result : MarkThreadReadResult} {thread : ThreadRef}
      {pending advances : Bool} {current : Option ThreadReadState} {error : ImError}
      (hcurrent : getThreadReadState db.others owner kind conversationId = .ok current)
      (hthread : projectedThread kind conversationId = .ok thread)
      (hmarked : markThreadReadWatermark context db owner ownerDid
        (projectedMark thread state pending) = .ok (result, marked))
      (hfailed : replaceThreadReadState marked.others (projectedState owner ownerDid kind
        conversationId current state advances pending) = .error error)
      (hleft : Flagged marked left) :
      ProjectionLeaves context db owner ownerDid state kind conversationId left
  | replaced {left marked : ReadDb κ} {result : MarkThreadReadResult} {thread : ThreadRef}
      {pending : Bool} {current : Option ThreadReadState} {order : Ordering}
      {tables : ReadTables κ}
      (hcurrent : getThreadReadState db.others owner kind conversationId = .ok current)
      (hthread : projectedThread kind conversationId = .ok thread)
      (hmarked : markThreadReadWatermark context db owner ownerDid
        (projectedMark thread state pending) = .ok (result, marked))
      (horder : compareDecimal state.readWatermarkSeq (localWatermark current) = .ok order)
      (hreplaced : replaceThreadReadState marked.others (projectedState owner ownerDid kind
        conversationId current state (order == .gt) pending) = .ok tables)
      (hleft : Flagged (withReads marked tables) left) :
      ProjectionLeaves context db owner ownerDid state kind conversationId left

section Projections

variable {context : ReadContext κ} {db db' : ReadDb κ} {owner ownerDid : String}
  {state : ReadStateApply} {kind conversationId : String} {now : Int}

theorem acknowledgeReadOutbox_frame {aggregateId : String} {conversation : Option String}
    (h : acknowledgeReadOutbox tables owner aggregateId conversation seq now = .ok tables') :
    tables'.readStates = tables.readStates ∧ tables'.bindings = tables.bindings := by
  unfold acknowledgeReadOutbox at h
  obtain ⟨ids, -, h⟩ := Tx.except_bind_ok.mp h
  cases h
  exact ⟨rfl, rfl⟩

theorem projectedState_rises {order : Ordering} {pending : Bool}
    (horder : compareDecimal state.readWatermarkSeq (localWatermark current) = .ok order)
    (hrow : (projectedState owner ownerDid kind conversationId current state (order == .gt)
      pending).columns = .ok row) :
    Rises (current.bind (·.readWatermarkSeq)) row.readWatermarkSeq := by
  intro seq hseq
  have hlocal : localWatermark current = seq := by rw [localWatermark, hseq, Option.getD_some]
  obtain ⟨hcanonical, hcanonical', hcompare⟩ := compareDecimal_ok.mp horder
  rw [hlocal] at hcanonical' hcompare
  rw [(columns_ok hrow).2]
  by_cases hgreater : order = .gt
  · refine ⟨state.readWatermarkSeq, ?_, .inr ?_⟩
    · rw [hgreater]
      exact nonEmpty_of_isCanonical hcanonical
    · rw [compareDecimal_ok, Decimal.order_swap, hcompare, hgreater]
      exact ⟨hcanonical', hcanonical, rfl⟩
  · refine ⟨seq, ?_, .inl rfl⟩
    have hkept : (order == .gt) = false := by simpa using hgreater
    rw [projectedState, hkept, hlocal]
    exact nonEmpty_of_isCanonical hcanonical'

section Writes

variable {result : MarkThreadReadResult} {marked : ReadDb κ} {thread : ThreadRef} {pending : Bool}
variable (htrim : Trimmed db.others)
  (hcurrent : getThreadReadState db.others owner kind conversationId = .ok current)
  (hkeeps : ProjectKeeps context db owner ownerDid state kind conversationId)
  (hthread : projectedThread kind conversationId = .ok thread)
  (hmarked : markThreadReadWatermark context db owner ownerDid
    (projectedMark thread state pending) = .ok (result, marked))

include htrim hcurrent hkeeps hthread hmarked

/-- The state is not written again: it has no time. -/
theorem marked_keeps {advances : Bool} {error : ImError}
    (hfailed : replaceThreadReadState marked.others (projectedState owner ownerDid kind
      conversationId current state advances pending) = .error error) : KeepsReads db marked := by
  obtain ⟨trace⟩ := markThreadReadWatermark_ok hmarked
  rcases hkeeps thread hthread with ⟨-, hblank⟩ | hkept
  · exfalso
    unfold getThreadReadState at hcurrent
    simp only [Tx.except_bind_ok, requiredField_ok] at hcurrent
    obtain ⟨_, howner, _, hkind, _, hid, -⟩ := hcurrent
    have hrow : ∃ row, (projectedState owner ownerDid kind conversationId current state advances
        pending).columns = .ok row := by
      unfold ThreadReadState.columns
      simp only [Tx.except_bind_ok, requiredField_ok]
      exact ⟨_, _, howner, _, hkind, _, hid, _, ⟨hblank, rfl⟩, rfl⟩
    obtain ⟨row, hrow⟩ := hrow
    unfold replaceThreadReadState at hfailed
    rw [hrow] at hfailed
    cases hfailed
  · exact ⟨trace.rises htrim hkept, trace.trimmed htrim, trace.readsKept⟩

theorem replaced_keeps {order : Ordering} {replaced : ReadTables κ}
    (horder : compareDecimal state.readWatermarkSeq (localWatermark current) = .ok order)
    (hreplaced : replaceThreadReadState marked.others (projectedState owner ownerDid kind
      conversationId current state (order == .gt) pending) = .ok replaced) :
    KeepsReads db (withReads marked replaced) := by
  obtain ⟨trace⟩ := markThreadReadWatermark_ok hmarked
  obtain ⟨row, hrow, hreplaced⟩ := Tx.except_bind_ok.mp hreplaced
  have htables : replaced = marked.others.write row fun _ => row := (Except.ok.inj hreplaced).symm
  have htarget : row.thread = (Text.trim owner, Text.trim kind, Text.trim conversationId) :=
    (columns_ok hrow).1
  obtain ⟨howner, hscope, hthreadId⟩ := thread_eq_iff.mp htarget
  have hmerge : ∀ old : ThreadReadState, old.thread = row.thread → row.thread = row.thread :=
    fun _ _ => rfl
  subst htables
  refine ⟨?_, ?_, trace.readsKept⟩
  · intro owner' scope threadId
    change Rises _ ((marked.others.write row fun _ => row).watermark owner' scope threadId)
    by_cases hsame : (owner', scope, threadId) = row.thread
    · cases hsame
      rw [ReadTables.watermark, ReadTables.watermark, stateOf_write_self hmerge, howner, hscope,
        hthreadId, ← getThreadReadState_ok hcurrent]
      have hrises := projectedState_rises horder hrow
      cases marked.others.stateOf (Text.trim owner) (Text.trim kind) (Text.trim conversationId) with
      | none => exact hrises
      | some old => exact hrises
    · rw [watermark_write_of_ne hmerge hsame]
      rcases hkeeps thread hthread with ⟨hmarks, -⟩ | hkept
      · obtain ⟨hkind, hid⟩ := hmarks trace.key trace.key_ok
        rw [trace.watermark_of_ne]
        · exact .refl _
        · rw [trace.scope_eq, trace.thread_eq, trace.owner_eq, hkind, hid, ← htarget]
          exact hsame
      · exact trace.rises htrim hkept owner' scope threadId
  · exact write_all (trace.trimmed htrim) (columns_trimmed hrow) fun _ => .inl rfl

end Writes

theorem projectWatermark_keeps (htrim : Trimmed db.others)
    (hcurrent : getThreadReadState db.others owner kind conversationId = .ok current)
    (hkeeps : ProjectKeeps context db owner ownerDid state kind conversationId)
    (h : projectWatermark context db owner ownerDid state kind conversationId current now =
      .ok db') : KeepsReads db db' := by
  unfold projectWatermark at h
  obtain ⟨pending, -, h⟩ := Tx.except_bind_ok.mp h
  obtain ⟨thread, hthread, h⟩ := Tx.except_bind_ok.mp h
  obtain ⟨⟨result, marked⟩, hmarked, h⟩ := Tx.except_bind_ok.mp h
  simp only [Tx.except_bind_ok] at h
  obtain ⟨order, horder, replaced, hreplaced, acknowledged, hacknowledged, h⟩ := h
  cases h
  have hkept := replaced_keeps htrim hcurrent hkeeps hthread hmarked horder hreplaced
  exact hkept.trans (.of_eq hkept.trimmed (acknowledgeReadOutbox_frame hacknowledged).1 rfl)

theorem ProjectionLeaves.keeps (htrim : Trimmed db.others)
    (hkeeps : ProjectKeeps context db owner ownerDid state kind conversationId)
    (h : ProjectionLeaves context db owner ownerDid state kind conversationId db') :
    KeepsReads db db' := by
  cases h with
  | flagged hleft => exact hleft.keeps htrim
  | marked hcurrent hthread hmarked hfailed hleft =>
    have hkept := marked_keeps htrim hcurrent hkeeps hthread hmarked hfailed
    exact hkept.trans (hleft.keeps hkept.trimmed)
  | replaced hcurrent hthread hmarked horder hreplaced hleft =>
    have hkept := replaced_keeps htrim hcurrent hkeeps hthread hmarked horder hreplaced
    exact hkept.trans (hleft.keeps hkept.trimmed)

theorem projectRemoteReadState_keeps (htrim : Trimmed db.others)
    (hkeeps : ProjectKeeps context db owner ownerDid state kind conversationId)
    (h : projectRemoteReadState context db owner ownerDid state kind conversationId now =
      .ok db') : KeepsReads db db' := by
  unfold projectRemoteReadState at h
  replace h := Tx.except_then h
  obtain ⟨current, hcurrent, h⟩ := Tx.except_bind_ok.mp h
  obtain ⟨stale, -, h⟩ := Tx.except_bind_ok.mp h
  split at h
  · cases h
    exact .of_eq htrim rfl rfl
  · obtain ⟨overtaken, -, h⟩ := Tx.except_bind_ok.mp h
    split at h
    · obtain ⟨tables, htables, h⟩ := Tx.except_bind_ok.mp h
      cases h
      exact .of_eq htrim (acknowledgeReadOutbox_frame htables).1 rfl
    · exact projectWatermark_keeps htrim hcurrent hkeeps h

end Projections

/-! ### Other tables -/

section Tables

variable {context : ReadContext κ} {db db' : ReadDb κ} {tables : ReadTables κ}
  {owner ownerDid : String} {state : ReadStateApply} {kind conversationId : String}

theorem getThreadReadState_congr {scope : String} (h : tables'.readStates = tables.readStates) :
    getThreadReadState tables' owner scope threadId =
      getThreadReadState tables owner scope threadId := by
  unfold getThreadReadState ReadTables.stateOf
  rw [h]

theorem ProjectKeeps.withReads (hstates : tables.readStates = db.others.readStates)
    (hothers : tables.others = db.others.others)
    (h : ProjectKeeps context db owner ownerDid state kind conversationId) :
    ProjectKeeps context (withReads db tables) owner ownerDid state kind conversationId := by
  intro thread hthread
  rcases h thread hthread with ⟨hmarks, hblank⟩ | hkept
  · refine .inl ⟨?_, hblank⟩
    intro key hkey
    change _ ∧ (context.resolveConversation tables.others _ _).getD _ = _
    rw [hothers]
    exact hmarks key hkey
  · right
    intro key ids state' id seq hkey hids hstate hid hseq
    change context.conversationIdsForThreadRef tables.others db.messages _ _ _ = _ at hids
    change getThreadReadState tables _ _
      ((context.resolveConversation tables.others _ _).getD _) = _ at hstate
    rw [hothers] at hids hstate
    rw [getThreadReadState_congr hstates] at hstate
    exact hkept key ids state' id seq hkey hids hstate hid hseq

theorem KeepsReads.of_withReads (hstates : tables.readStates = db.others.readStates)
    (h : KeepsReads (withReads db tables) db') : KeepsReads db db' :=
  ⟨(WatermarksRise.of_eq hstates).trans h.rises, h.trimmed, h.reads⟩

end Tables

variable {record : MessageRecord}

section Remote

variable {context : RemoteContext κ} {db db' : ReadDb κ} {owner ownerDid : String}
  {state : ReadStateApply} {now : Int}

theorem applyRemoteReadState_keeps (htrim : Trimmed db.others)
    (hkeeps : ∀ binding, remoteBinding db.others owner state = some binding →
      ProjectKeeps context.toReadContext db owner ownerDid state binding.1 binding.2)
    (h : applyRemoteReadState context db owner ownerDid state now = .ok db') :
    KeepsReads db db' := by
  unfold applyRemoteReadState at h
  replace h := Tx.except_then (Tx.except_then (Tx.except_then h))
  obtain ⟨newer, -, h⟩ := Tx.except_bind_ok.mp h
  split at h
  · obtain ⟨tables, htables, h⟩ := Tx.except_bind_ok.mp h
    unfold storeRemoteReadState at htables
    replace htables := Tx.except_then (Tx.except_then htables)
    have heq := Except.ok.inj htables
    have hstates : tables.readStates = db.others.readStates := by rw [← heq]
    have hothers : tables.others = db.others.others := by rw [← heq]
    have hbindings : tables.bindings = db.others.bindings := by rw [← heq]
    split at h
    · cases h
      exact .of_eq htrim hstates rfl
    · rename_i binding hbinding
      rw [remoteBinding, hbindings] at hbinding
      have hproject := (hkeeps binding hbinding).withReads hstates hothers
      exact (projectRemoteReadState_keeps (AllWatermarks.of_eq hstates htrim) hproject
        h).of_withReads hstates
  · cases h
    exact .of_eq htrim rfl rfl

theorem KeepsReads.of_update {p : ThreadReadState → Bool}
    {f : ThreadReadState → ThreadReadState} (htrim : Trimmed db.others)
    (hthread : ∀ row, (f row).thread = row.thread)
    (hseq : ∀ row, (f row).readWatermarkSeq = row.readWatermarkSeq) :
    KeepsReads db (withReads db (db.others.setStates (updateWhere p f))) where
  rises := by
    intro owner scope threadId
    have hfind : (updateWhere p f db.others.readStates).find? (·.isOf owner scope threadId) =
        ((db.others.readStates.find? (·.isOf owner scope threadId)).map fun row =>
          if p row then f row else row) := by
      apply find?_updateWhere
      intro row
      rw [Bool.eq_iff_iff, isOf_iff_thread, isOf_iff_thread, hthread]
    have hsame : ((db.others.setStates (updateWhere p f)).watermark owner scope threadId) =
        db.others.watermark owner scope threadId := by
      change ((updateWhere p f db.others.readStates).find? _).bind _ =
        (db.others.readStates.find? _).bind _
      rw [hfind, Option.bind_map]
      congr 1
      funext row
      change (if p row then f row else row).readWatermarkSeq = _
      split
      · exact hseq row
      · rfl
    change Rises _ ((db.others.setStates (updateWhere p f)).watermark owner scope threadId)
    rw [hsame]
    exact .refl _
  trimmed := by
    intro row hrow seq hrowSeq
    obtain ⟨old, hold, rfl⟩ := mem_updateWhere.mp hrow
    apply htrim old hold seq
    rw [← hrowSeq]
    split
    · exact (hseq old).symm
    · rfl
  reads := .of_eq rfl

variable {draw : OutboxDraw} {binding : SyncThreadBinding}

theorem upsertReadOutbox_frame {threadKind remoteThreadKey : String}
    {messageId at_ : Option String} {queued : String × ReadTables κ}
    (h : upsertReadOutbox tables draw owner threadKind threadId remoteThreadKey seq messageId at_ =
      .ok queued) :
    queued.2.readStates = tables.readStates ∧ queued.2.bindings = tables.bindings := by
  unfold upsertReadOutbox at h
  obtain ⟨_, -, h⟩ := Tx.except_bind_ok.mp h
  dsimp only at h
  split at h
  · obtain ⟨_, -, h⟩ := Tx.except_bind_ok.mp h
    obtain ⟨order, -, h⟩ := Tx.except_bind_ok.mp h
    split at h
    · cases h
      exact ⟨rfl, rfl⟩
    · cases h
      exact ⟨rfl, rfl⟩
  · obtain ⟨inserted, hinserted, h⟩ := Tx.except_bind_ok.mp h
    cases h
    exact (enqueueLocalMutation_ok hinserted).2

theorem queueWaiting_ok (h : queueWaiting db draw binding = .ok db') :
    db'.messages = db.messages ∧ db'.others.bindings = db.others.bindings ∧
      (Trimmed db.others → KeepsReads db db') := by
  unfold queueWaiting at h
  dsimp only at h
  split at h
  · cases h
    exact ⟨rfl, rfl, fun htrim => .of_eq htrim rfl rfl⟩
  · rename_i row _
    obtain ⟨target, -, h⟩ := Tx.except_bind_ok.mp h
    split at h
    · obtain ⟨queued, hqueued, h⟩ := Tx.except_bind_ok.mp h
      cases h
      obtain ⟨hstates, hbindings⟩ := upsertReadOutbox_frame hqueued
      exact ⟨rfl, hbindings, fun htrim => .of_eq htrim hstates rfl⟩
    · split at h
      · cases h
        exact ⟨rfl, rfl, fun htrim => .of_update htrim (fun _ => rfl) fun _ => rfl⟩
      · cases h
        exact ⟨rfl, rfl, fun htrim => .of_eq htrim rfl rfl⟩

/-- What a failed call for a binding can leave outside a transaction: the binding is written,
and the waiting state is projected in part. -/
def BindingLeaves (context : RemoteContext κ) (db : ReadDb κ) (binding : SyncThreadBinding)
    (left : ReadDb κ) : Prop :=
  ∃ tables, bindRemoteThread context db.others binding = .ok tables ∧
    match loadRemoteReadState tables binding.ownerIdentityId binding.remoteThreadKey,
      context.currentDid tables.others binding.ownerIdentityId with
    | some state, some ownerDid =>
      ProjectionLeaves context.toReadContext (withReads db tables) binding.ownerIdentityId
        ownerDid state binding.threadKind binding.conversationId left
    | _, _ => Flagged (withReads db tables) left

section Bindings

variable (htrim : Trimmed db.others)
  (hkeeps : ∀ state ownerDid,
    loadRemoteReadState db.others binding.ownerIdentityId binding.remoteThreadKey = some state →
    context.currentDid db.others.others binding.ownerIdentityId = some ownerDid →
    ProjectKeeps context.toReadContext db binding.ownerIdentityId ownerDid state
      binding.threadKind binding.conversationId)

theorem bindRemoteThread_frame (h : bindRemoteThread context db.others binding = .ok tables) :
    tables.readStates = db.others.readStates ∧ tables.others = db.others.others ∧
      tables.remoteStates = db.others.remoteStates := by
  unfold bindRemoteThread at h
  obtain ⟨bindings, -, h⟩ := Tx.except_bind_ok.mp h
  replace h := Tx.except_then h
  cases h
  exact ⟨rfl, rfl, rfl⟩

include htrim hkeeps

theorem BindingLeaves.keeps (h : BindingLeaves context db binding db') : KeepsReads db db' := by
  obtain ⟨tables, htables, h⟩ := h
  obtain ⟨hstates, hothers, hremote⟩ := bindRemoteThread_frame htables
  have htrim' : Trimmed (withReads db tables).others := AllWatermarks.of_eq hstates htrim
  split at h
  · rename_i state ownerDid hstate hdid
    rw [loadRemoteReadState, hremote] at hstate
    rw [hothers] at hdid
    exact (h.keeps htrim' ((hkeeps state ownerDid hstate hdid).withReads hstates
      hothers)).of_withReads hstates
  · exact (h.keeps htrim').of_withReads hstates

theorem upsertSyncThreadBinding_keeps
    (h : upsertSyncThreadBinding context db draw binding = .ok db') : KeepsReads db db' := by
  unfold upsertSyncThreadBinding at h
  replace h := Tx.except_then h
  obtain ⟨tables, htables, h⟩ := Tx.except_bind_ok.mp h
  obtain ⟨projected, hprojected, h⟩ := Tx.except_bind_ok.mp h
  obtain ⟨hstates, hothers, hremote⟩ := bindRemoteThread_frame htables
  have hfirst : KeepsReads db projected := by
    unfold projectWaiting at hprojected
    split at hprojected
    · cases hprojected
      exact .of_eq htrim hstates rfl
    · rename_i state hstate
      obtain ⟨ownerDid, hdid, hprojected⟩ := Tx.except_bind_ok.mp hprojected
      have hdid' := Tx.except_elim_ok.mp hdid
      change context.currentDid tables.others _ = _ at hdid'
      change loadRemoteReadState tables _ _ = _ at hstate
      rw [hothers] at hdid'
      rw [loadRemoteReadState, hremote] at hstate
      have hproject := (hkeeps state ownerDid hstate hdid').withReads hstates hothers
      exact (projectRemoteReadState_keeps (AllWatermarks.of_eq hstates htrim) hproject
        hprojected).of_withReads hstates
  exact hfirst.trans ((queueWaiting_ok h).2.2 hfirst.trimmed)

end Bindings

/-! ### Messages -/

theorem upsertStoredMessage_states {keys : MessageKeys} {legacy : List String × ReadTables κ}
    (hkeys : messageKeys context.upserts db record = .ok keys)
    (hlegacy : keys.legacy context.upserts db record = .ok legacy)
    (h : upsertStoredMessage context.upserts db record = .ok result) :
    result.2.others.readStates = db.others.readStates := by
  have hstates : legacy.2.readStates = db.others.readStates := by
    unfold MessageKeys.legacy mergeLegacy at hlegacy
    split at hlegacy
    · obtain ⟨merged, -, rfl⟩ := Tx.except_map_ok.mp hlegacy
      rfl
    · cases hlegacy
      rfl
  exact ((upsertStoredMessage_rows hkeys hlegacy h).2.2.1 _ ReadTables.framed).readStates.trans hstates

/--
A read row that the upsert folds into another one has its flag there, unless the written row
stays unread; any other read row keeps it.
-/
theorem upsertStoredMessage_reads {keys : MessageKeys} {legacy : List String × ReadTables κ}
    {row : StoredMessage} (hkeys : messageKeys context.upserts db record = .ok keys)
    (hlegacy : keys.legacy context.upserts db record = .ok legacy)
    (h : upsertStoredMessage context.upserts db record = .ok result)
    (hrow : row ∈ db.messages) (hread : row.isRead = true)
    (hfolds : keys.isFolded row = true → ¬ keys.StaysUnread db.messages record legacy.1
      (context.upserts.readWatermark db.others keys.owner)) :
    ∃ row' ∈ result.2.messages, row'.isRead = true ∧
      (row'.key = row.key ∨ keys.isFolded row = true ∧ keys.isWritten row' = true) := by
  obtain ⟨hmessages, -⟩ := upsertStoredMessage_rows hkeys hlegacy h
  have hsettled : (keys.inherited context.upserts legacy.2 (keys.merged legacy.1
      (keys.stored context.upserts db.messages record))).isRead = true ↔ _ :=
    MessageKeys.settled_isRead_iff (mergeLegacy_direct hlegacy)
  rw [legacy_readWatermark hlegacy] at hsettled
  have hfind : (keys.settle context.upserts legacy.2 db.messages record legacy.1).find?
    keys.isWritten = _ := MessageKeys.find?_settle
  rw [← hmessages] at hfind
  have hmem := List.mem_of_find?_eq_some hfind
  have hsettledWritten := List.find?_some hfind
  cases hwritten : keys.isWritten row with
  | true =>
    have hself := isWritten_iff.mp hwritten
    have hother := isWritten_iff.mp hsettledWritten
    refine ⟨_, hmem, hsettled.mpr fun hunread => ?_, .inl ?_⟩
    · have hstored := hunread.old row (find?_isMessage db.distinctMessages hrow hwritten)
      rw [hread] at hstored
      cases hstored
    · simp [StoredMessage.key, hself, hother]
  | false =>
    cases hfolded : keys.isFolded row with
    | true => exact ⟨_, hmem, hsettled.mpr (hfolds hfolded), .inr ⟨rfl, hsettledWritten⟩⟩
    | false =>
      have hkept : keys.isWritten (keys.merged legacy.1 row) = false := by
        rw [MessageKeys.isWritten_merged]
        exact hwritten
      refine ⟨keys.merged legacy.1 row, ?_, ?_, .inl ?_⟩
      · rw [hmessages]
        exact (MessageKeys.mem_settle hkept).mpr ⟨row, hrow, hfolded, hwritten, rfl⟩
      · unfold MessageKeys.merged
        split <;> exact hread
      · unfold MessageKeys.merged
        split <;> rfl

end Remote

/-! ## Runs -/

inductive WatermarkEvent where
  | mark (owner ownerDid : String) (input : MarkThreadReadInput)
  | remote (owner ownerDid : String) (state : ReadStateApply) (now : Int)
  | bind (draw : OutboxDraw) (binding : SyncThreadBinding)
  | upsert (record : MessageRecord)

variable {history : List WatermarkEvent}

namespace WatermarkEvent

def run (context : RemoteContext κ) (db : ReadDb κ) : WatermarkEvent → Except ImError (ReadDb κ)
  | mark owner ownerDid input =>
    (markThreadReadWatermark context.toReadContext db owner ownerDid input).map (·.2)
  | remote owner ownerDid state now => applyRemoteReadState context db owner ownerDid state now
  | bind draw binding => upsertSyncThreadBinding context db draw binding
  | upsert record => (upsertStoredMessage context.upserts db record).map (·.2)

/--
The condition on a call: its mark, or the mark of its projection, keeps the watermark, and an
upsert that folds a read row away does not leave the written row unread.
-/
def Safe (context : RemoteContext κ) (db : ReadDb κ) : WatermarkEvent → Prop
  | mark owner ownerDid input => MarkKeeps context.toReadContext db owner ownerDid input
  | remote owner ownerDid state _ =>
    ∀ binding, remoteBinding db.others owner state = some binding →
      ProjectKeeps context.toReadContext db owner ownerDid state binding.1 binding.2
  | bind _ binding => ∀ state ownerDid,
      loadRemoteReadState db.others binding.ownerIdentityId binding.remoteThreadKey =
        some state →
      context.currentDid db.others.others binding.ownerIdentityId = some ownerDid →
      ProjectKeeps context.toReadContext db binding.ownerIdentityId ownerDid state
        binding.threadKind binding.conversationId
  | upsert record => ∀ keys legacy, messageKeys context.upserts db record = .ok keys →
      keys.legacy context.upserts db record = .ok legacy →
      (∃ row ∈ db.messages, keys.isFolded row = true ∧ row.isRead = true) →
      ¬ keys.StaysUnread db.messages record legacy.1
        (context.upserts.readWatermark db.others keys.owner)

/-- The upsert folds the row into the row that it writes. -/
def Folds (context : RemoteContext κ) (db : ReadDb κ) :
    WatermarkEvent → StoredMessage → StoredMessage → Prop
  | upsert record, row, written => ∃ keys, messageKeys context.upserts db record = .ok keys ∧
      keys.isFolded row = true ∧ keys.isWritten written = true
  | _, _, _ => False

/-- What a failed call can leave outside a transaction.  A mark writes the state last.  States
of other devices are applied in the transaction of their page, and an upsert is in a savepoint
of its own. -/
def Leaves (context : RemoteContext κ) (db : ReadDb κ) : WatermarkEvent → ReadDb κ → Prop
  | mark _ _ _, left => Flagged db left
  | bind _ binding, left => BindingLeaves context db binding left
  | remote _ _ _ _, left => left = db
  | upsert _, left => left = db

end WatermarkEvent

inductive WatermarkStep (context : RemoteContext κ) (db : ReadDb κ) (event : WatermarkEvent) :
    ReadDb κ → Prop
  | returned {db' : ReadDb κ} : event.run context db = .ok db' → WatermarkStep context db event db'
  | rolledBack {error : ImError} : event.run context db = .error error →
      WatermarkStep context db event db
  | failed {db' : ReadDb κ} {error : ImError} : event.run context db = .error error →
      event.Leaves context db db' → WatermarkStep context db event db'

def SafeStep (context : RemoteContext κ) (db : ReadDb κ) (event : WatermarkEvent)
    (db' : ReadDb κ) : Prop :=
  event.Safe context db ∧ WatermarkStep context db event db'

section Runs

variable {context : RemoteContext κ} {db db' : ReadDb κ} {event : WatermarkEvent}

structure StepKeeps (context : RemoteContext κ) (db : ReadDb κ) (event : WatermarkEvent)
    (db' : ReadDb κ) : Prop where
  rises : WatermarksRise db.others db'.others
  trimmed : Trimmed db'.others
  reads : ∀ row ∈ db.messages, row.isRead = true → ∃ row' ∈ db'.messages, row'.isRead = true ∧
    (row'.key = row.key ∨ event.Folds context db row row')

theorem KeepsReads.step (h : KeepsReads db db') : StepKeeps context db event db' where
  rises := h.rises
  trimmed := h.trimmed
  reads := by
    intro row hrow hread
    obtain ⟨row', hrow', hkey, hread'⟩ := h.reads row hrow hread
    exact ⟨row', hrow', hread', .inl hkey⟩

theorem upsert_keeps (htrim : Trimmed db.others)
    (hsafe : (WatermarkEvent.upsert record).Safe context db)
    (h : upsertStoredMessage context.upserts db record = .ok result) :
    StepKeeps context db (.upsert record) result.2 := by
  obtain ⟨keys, legacy, hkeys, hlegacy⟩ := upsertStoredMessage_keys h
  have hstates := upsertStoredMessage_states hkeys hlegacy h
  refine ⟨.of_eq hstates, AllWatermarks.of_eq hstates htrim, ?_⟩
  intro row hrow hread
  obtain ⟨row', hrow', hread', hkept⟩ := upsertStoredMessage_reads hkeys hlegacy h hrow hread
    fun hfolded => hsafe keys legacy hkeys hlegacy ⟨row, hrow, hfolded, hread⟩
  refine ⟨row', hrow', hread', hkept.imp_right ?_⟩
  rintro ⟨hfolded, hwritten⟩
  exact ⟨keys, hkeys, hfolded, hwritten⟩

theorem SafeStep.keeps (htrim : Trimmed db.others) (h : SafeStep context db event db') :
    StepKeeps context db event db' := by
  obtain ⟨hsafe, hstep⟩ := h
  cases hstep with
  | rolledBack => exact (KeepsReads.of_eq htrim rfl rfl).step
  | failed _ hleft =>
    cases event with
    | mark owner ownerDid input => exact (Flagged.keeps hleft htrim).step
    | bind draw binding => exact (BindingLeaves.keeps htrim hsafe hleft).step
    | remote owner ownerDid state now =>
      obtain rfl := hleft
      exact (KeepsReads.of_eq htrim rfl rfl).step
    | upsert record =>
      obtain rfl := hleft
      exact (KeepsReads.of_eq htrim rfl rfl).step
  | returned hrun =>
    cases event with
    | mark owner ownerDid input =>
      obtain ⟨⟨result, next⟩, hmark, rfl⟩ := Tx.except_map_ok.mp hrun
      obtain ⟨trace⟩ := markThreadReadWatermark_ok hmark
      exact KeepsReads.step ⟨trace.rises htrim hsafe, trace.trimmed htrim, trace.readsKept⟩
    | remote owner ownerDid state now => exact (applyRemoteReadState_keeps htrim hsafe hrun).step
    | bind draw binding => exact (upsertSyncThreadBinding_keeps htrim hsafe hrun).step
    | upsert record =>
      obtain ⟨result, hupsert, rfl⟩ := Tx.except_map_ok.mp hrun
      exact upsert_keeps htrim hsafe hupsert

theorem trimmed_of_run {db₀ : ReadDb κ} (hempty : db₀.others.readStates = [])
    (hrun : Run (SafeStep context) db₀ history db) : Trimmed db.others := by
  refine hrun.invariant (P := fun db => Trimmed db.others) ?_ ?_
  · intro db event db' htrim hstep
    exact (hstep.keeps htrim).trimmed
  · intro row hrow
    rw [hempty] at hrow
    cases hrow

theorem rises_of_run (htrim : Trimmed db.others) (hrun : Run (SafeStep context) db history db') :
    WatermarksRise db.others db'.others := by
  induction hrun with
  | nil db => exact .of_eq rfl
  | cons hstep _ ih =>
    have hkeeps := hstep.keeps htrim
    exact hkeeps.rises.trans (ih hkeeps.trimmed)

/--
In every run whose calls meet the condition no stored watermark is lowered.  A call that takes
place in the run leaves every read message read: its row stays, or the call folds it into
another row, and that one is read.
-/
theorem read_watermarks_monotone {db₀ : ReadDb κ} {history later : List WatermarkEvent}
    (hempty : db₀.others.readStates = []) (hrun : Run (SafeStep context) db₀ history db)
    (hlater : Run (SafeStep context) db later db') :
    (∀ owner scope threadId seq, db.others.watermark owner scope threadId = some seq →
      ∃ seq', db'.others.watermark owner scope threadId = some seq' ∧
        (seq' = seq ∨ compareDecimal seq seq' = .ok .lt)) ∧
      ∀ event next, SafeStep context db event next →
        ∀ row ∈ db.messages, row.isRead = true →
          ∃ row' ∈ next.messages, row'.isRead = true ∧
            (row'.key = row.key ∨ event.Folds context db row row') := by
  have htrim := trimmed_of_run hempty hrun
  refine ⟨?_, ?_⟩
  · exact rises_of_run htrim hlater
  · intro event next hstep
    exact (hstep.keeps htrim).reads

end Runs

namespace WatermarkSample

def context : RemoteContext Unit where
  instant := fun _ => none
  nowText := "1"
  ensure := fun _ _ => .ok ()
  resolveConversation := fun _ _ _ => none
  conversationIdsForThreadRef := fun _ _ _ _ _ => .ok ["dm:x"]
  isBound := fun _ _ => true
  debugText := id
  currentDid := fun _ _ => some "d"
  base := UpsertSample.plain.base
  mentionsOwner := fun _ _ => false
  peerScope_trimmed := UpsertSample.plain.peerScope_trimmed

/-- The conversation `dm:x` is bound to the remote thread `k`; no message has arrived. -/
def bound : ReadDb Unit where
  messages := []
  aliases := []
  summaries := []
  others :=
    { readStates := []
      bindings := [⟨"o", "k", "direct", "dm:x", 1⟩]
      remoteStates := []
      outbox := []
      others := ()
      distinctMutations := distinctMutations_nil }
  distinct := distinct_nil
  distinctMessages := distinctMessages_nil

def mark (seq : String) : WatermarkEvent :=
  .mark "o" "d"
    { thread := .thread "dm:x"
      readWatermarkMessageId := none
      readWatermarkSeq := some seq
      readWatermarkAt := none
      pendingRemoteAck := true }

/-- Another device has read up to the message `m`, which this one does not have yet. -/
def remote : WatermarkEvent :=
  .remote "o" "d" ⟨"k", "direct", "10", some "m", "1", "1"⟩ 1

def watermark (db : ReadDb Unit) : Option String :=
  db.others.watermark "o" "direct" "dm:x"

/-- A local mark lowers the watermark that another device has set. -/
theorem mark_lowers_remote_watermark :
    ∃ db db', Run (WatermarkStep context) bound [remote] db ∧
      WatermarkStep context db (mark "5") db' ∧ watermark db = some "10" ∧
      watermark db' = some "5" := by
  have hrun : ((remote.run context bound).toOption.bind fun db =>
      ((mark "5").run context db).toOption.map fun db' => (watermark db, watermark db')) =
      some (some "10", some "5") := by
    decide +kernel
  obtain ⟨db, hremote, hrun⟩ := Option.bind_eq_some_iff.mp hrun
  obtain ⟨db', hmark, hview⟩ := Option.map_eq_some_iff.mp hrun
  obtain ⟨hbefore, hafter⟩ := Prod.ext_iff.mp hview
  rw [Tx.except_toOption_ok] at hremote hmark
  exact ⟨db, db', .single (.returned hremote), .returned hmark, hbefore, hafter⟩

theorem mark_safe {db : ReadDb Unit}
    (h : (db.others.readStates.all fun row => row.readWatermarkMessageId.isNone) = true) :
    (mark seq).Safe context db := by
  intro key ids state id stored _ _ hstate hid _
  have hmem : state ∈ db.others.readStates :=
    List.mem_of_find?_eq_some (getThreadReadState_ok hstate).symm
  have hnone := List.all_eq_true.mp h state hmem
  rw [Option.isNone_iff_eq_none] at hnone
  rw [hnone] at hid
  cases hid

/-- Two local marks raise the watermark. -/
theorem marks_rise :
    ∃ db db', Run (SafeStep context) bound [mark "5"] db ∧
      Run (SafeStep context) db [mark "7"] db' ∧ watermark db = some "5" ∧
      ∃ seq', watermark db' = some seq' ∧
        (seq' = "5" ∨ compareDecimal "5" seq' = .ok .lt) := by
  have hrun : (((mark "5").run context bound).toOption.bind fun db =>
      ((mark "7").run context db).toOption.map fun _ =>
        (watermark db, db.others.readStates.all fun row => row.readWatermarkMessageId.isNone)) =
      some (some "5", true) := by
    decide +kernel
  obtain ⟨db, hfirst, hrun⟩ := Option.bind_eq_some_iff.mp hrun
  obtain ⟨next, hsecond, hview⟩ := Option.map_eq_some_iff.mp hrun
  obtain ⟨hbefore, hnone⟩ := Prod.ext_iff.mp hview
  rw [Tx.except_toOption_ok] at hfirst hsecond
  have hhistory : Run (SafeStep context) bound [mark "5"] db :=
    .single ⟨mark_safe rfl, .returned hfirst⟩
  have hlater : Run (SafeStep context) db [mark "7"] next :=
    .single ⟨mark_safe hnone, .returned hsecond⟩
  exact ⟨db, next, hhistory, hlater, hbefore,
    (read_watermarks_monotone rfl hhistory hlater).1 "o" "direct" "dm:x" "5" hbefore⟩

end WatermarkSample

end LocalState
end Awiki

import Awiki.ReadSettlement

/-!
# Thread bindings

A binding pairs a remote thread key with a conversation of its owner, and the table is a
partial bijection: its primary key and its unique index are the two directions.  A key that is
bound to a conversation of a DID can move to the conversation of the peer scope, and an unbound
key can take a direct conversation over from another key.  The move has no such rule: when
another key holds the conversation of the peer scope, the index refuses the update.

The call goes on with the read states that wait for the thread.  Where it runs outside a
transaction, the binding stays written when that part fails.
-/

namespace Awiki
namespace LocalState

open Rows

variable {κ : Type} {context : RemoteContext κ} {db db' : ReadDb κ} {draw : OutboxDraw}
  {binding : SyncThreadBinding} {rows rows' : List SyncThreadBinding}

namespace SyncThreadBinding

def key (row : SyncThreadBinding) : String × String :=
  (row.ownerIdentityId, row.remoteThreadKey)

def conversation (row : SyncThreadBinding) : String × String :=
  (row.ownerIdentityId, row.conversationId)

/-- The rows agree but for the time of the last write. -/
def Agrees (row row' : SyncThreadBinding) : Prop :=
  row'.key = row.key ∧ row'.threadKind = row.threadKind ∧
    row'.conversationId = row.conversationId

def WellFormed (row : SyncThreadBinding) : Prop :=
  (∀ text ∈ [row.ownerIdentityId, row.remoteThreadKey, row.conversationId], IsName text) ∧
    row.threadKind ∈ ["direct", "group"]

end SyncThreadBinding

structure Bijective (rows : List SyncThreadBinding) : Prop where
  keys : UniqueKey SyncThreadBinding.key rows
  conversations : UniqueKey SyncThreadBinding.conversation rows

def Holds (rows : List SyncThreadBinding) (binding : SyncThreadBinding) : Prop :=
  ∃ row ∈ rows, binding.Agrees row

/-- The key moves to the conversation of the peer scope, and another key holds it. -/
def Collides (rows : List SyncThreadBinding) (binding : SyncThreadBinding) : Prop :=
  (∃ current ∈ rows, current.key = binding.key ∧
    isDirectBindingCanonicalUpgrade current binding = true) ∧
  ∃ other ∈ rows, other.key ≠ binding.key ∧ other.conversation = binding.conversation

def threadConflict (detail : String) : ImError :=
  syncError "SYNC_THREAD_BINDING_CONFLICT" detail

def uniqueViolation : ImError :=
  .localStateUnavailable "UNIQUE constraint failed: sync_thread_bindings"

/-! ## The statements on the table -/

structure Rebinds (rows rows' : List SyncThreadBinding) (binding : SyncThreadBinding) : Prop where
  bijective : Bijective rows'
  groups : ∀ row ∈ rows, row.threadKind = "group" → Holds rows' row
  holds : Holds rows' binding

theorem isKey_iff (row : SyncThreadBinding) :
    (row.ownerIdentityId == binding.ownerIdentityId &&
      row.remoteThreadKey == binding.remoteThreadKey) = true ↔ row.key = binding.key := by
  simp [SyncThreadBinding.key]

theorem isTarget_iff (row : SyncThreadBinding) :
    (row.ownerIdentityId == binding.ownerIdentityId &&
      row.conversationId == binding.conversationId) = true ↔
      row.conversation = binding.conversation := by
  simp [SyncThreadBinding.conversation]

theorem Rebinds.insert (h : Bijective rows)
    (hkey : ∀ row ∈ rows, row.key ≠ binding.key)
    (hconversation : ∀ row ∈ rows, row.conversation ≠ binding.conversation) :
    Rebinds rows (rows ++ [binding]) binding where
  bijective := ⟨h.keys.append_singleton hkey, h.conversations.append_singleton hconversation⟩
  groups := fun row hrow _ => ⟨row, List.mem_append_left _ hrow, rfl, rfl, rfl⟩
  holds := ⟨binding, List.mem_append_right _ List.mem_cons_self, rfl, rfl, rfl⟩

/-- The row of the key takes the conversation that no other key holds. -/
theorem Rebinds.move {current : SyncThreadBinding} {isKey : SyncThreadBinding → Bool}
    (h : Bijective rows) (hisKey : ∀ row, isKey row = true ↔ row.key = binding.key)
    (hcurrent : current ∈ rows) (hkey : current.key = binding.key)
    (hmoves : (current.threadKind = binding.threadKind ∧
      current.conversationId = binding.conversationId) ∨
      isDirectBindingCanonicalUpgrade current binding = true)
    (hfree : ∀ row ∈ rows, row.key ≠ binding.key → row.conversation ≠ binding.conversation) :
    Rebinds rows (updateWhere isKey (fun row => { row with
      conversationId := binding.conversationId, updatedAt := binding.updatedAt }) rows)
      binding := by
  have honly : ∀ row ∈ rows, isKey row = true → row = current := fun row hrow hp =>
    h.keys.eq_of_key_eq hrow hcurrent (((hisKey row).mp hp).trans hkey.symm)
  have hkind : current.threadKind = binding.threadKind := by
    rcases hmoves with hmoves | hmoves
    · exact hmoves.1
    · simp only [isDirectBindingCanonicalUpgrade, Bool.and_eq_true, beq_iff_eq] at hmoves
      rw [hmoves.1.1.1, hmoves.1.1.2]
  have hpos : isKey current = true := (hisKey current).mpr hkey
  refine ⟨⟨h.keys.updateWhere fun _ => rfl, ?_⟩, ?_, ?_⟩
  · refine h.conversations.updateWhere_fresh binding.conversation ?_ (fun row hrow hp => ?_)
      fun row hrow hp => ?_
    · intro row hrow row' hrow' hp hp'
      rw [honly row hrow hp, honly row' hrow' hp']
    · exact congrArg (·.1, binding.conversationId) ((hisKey row).mp hp)
    · exact hfree row hrow fun heq => by simp [(hisKey row).mpr heq] at hp
  · intro row hrow hgroup
    by_cases hp : isKey row = true
    · refine ⟨_, mem_updateWhere_of_pos hrow hp, rfl, rfl, ?_⟩
      obtain rfl := honly row hrow hp
      rcases hmoves with hmoves | hmoves
      · exact hmoves.2.symm
      · simp [isDirectBindingCanonicalUpgrade, hgroup] at hmoves
    · exact ⟨row, mem_updateWhere_of_not hrow (by simpa using hp), rfl, rfl, rfl⟩
  · exact ⟨_, mem_updateWhere_of_pos hcurrent hpos, hkey, hkind, rfl⟩

/-- The direct row of the conversation takes a key that is not bound. -/
theorem Rebinds.rotate {previous : SyncThreadBinding} {isPrevious : SyncThreadBinding → Bool}
    (h : Bijective rows) (hisPrevious : ∀ row, isPrevious row = true ↔
      row.conversation = binding.conversation ∧
        row.remoteThreadKey = previous.remoteThreadKey ∧ row.threadKind = "direct")
    (hprevious : previous ∈ rows) (hconversation : previous.conversation = binding.conversation)
    (hdirect : previous.threadKind = "direct") (hkind : binding.threadKind = "direct")
    (hfree : ∀ row ∈ rows, row.key ≠ binding.key) :
    Rebinds rows (updateWhere isPrevious (fun row => { row with
      remoteThreadKey := binding.remoteThreadKey, updatedAt := binding.updatedAt }) rows)
      binding := by
  have hpos : isPrevious previous = true :=
    (hisPrevious previous).mpr ⟨hconversation, rfl, hdirect⟩
  have honly : ∀ row ∈ rows, isPrevious row = true → row = previous := fun row hrow hp =>
    h.conversations.eq_of_key_eq hrow hprevious
      (((hisPrevious row).mp hp).1.trans hconversation.symm)
  obtain ⟨howner, hsame⟩ := Prod.ext_iff.mp hconversation
  refine ⟨⟨?_, h.conversations.updateWhere fun _ => rfl⟩, ?_, ?_⟩
  · refine h.keys.updateWhere_fresh binding.key ?_ (fun row hrow hp => ?_)
      fun row hrow _ => hfree row hrow
    · intro row hrow row' hrow' hp hp'
      rw [honly row hrow hp, honly row' hrow' hp']
    · exact Prod.ext ((congrArg (·.1) ((hisPrevious row).mp hp).1)) rfl
  · intro row hrow hgroup
    refine ⟨row, mem_updateWhere_of_not hrow ?_, rfl, rfl, rfl⟩
    rw [← Bool.not_eq_true, hisPrevious, hgroup]
    simp
  · exact ⟨_, mem_updateWhere_of_pos hprevious hpos, Prod.ext howner rfl,
      hdirect.trans hkind.symm, hsame⟩

theorem bindThread_outcome (binding : SyncThreadBinding) (h : Bijective rows) :
    (Collides rows binding ∧ bindThread rows binding = .error uniqueViolation) ∨
    (¬ Collides rows binding ∧ ((∃ detail, bindThread rows binding =
        .error (threadConflict detail)) ∨
      ∃ rows', bindThread rows binding = .ok rows' ∧ Rebinds rows rows' binding)) := by
  unfold bindThread
  dsimp only
  cases hkey : rows.find? fun row => row.ownerIdentityId == binding.ownerIdentityId &&
      row.remoteThreadKey == binding.remoteThreadKey with
  | some current =>
    have hcurrent := List.mem_of_find?_eq_some hkey
    have hsame : current.key = binding.key := (isKey_iff current).mp (by
      simpa using List.find?_some hkey)
    have hunique : ∀ row ∈ rows, row.key = binding.key → row = current := fun row hrow heq =>
      h.keys.eq_of_key_eq hrow hcurrent (heq.trans hsame.symm)
    dsimp only
    by_cases hrefused : (current.threadKind, current.conversationId) ≠
        (binding.threadKind, binding.conversationId) ∧
        (!isDirectBindingCanonicalUpgrade current binding) = true
    · rw [if_pos hrefused]
      refine .inr ⟨?_, .inl ⟨_, rfl⟩⟩
      rintro ⟨⟨row, hrow, heq, hupgrade⟩, -⟩
      rw [hunique row hrow heq] at hupgrade
      simp [hupgrade] at hrefused
    · rw [if_neg hrefused]
      have hmoves : (current.threadKind = binding.threadKind ∧
          current.conversationId = binding.conversationId) ∨
          isDirectBindingCanonicalUpgrade current binding = true := by
        rw [not_and_or, not_not, Prod.mk.injEq] at hrefused
        simpa using hrefused
      by_cases htaken : ∃ other ∈ rows, other.key ≠ binding.key ∧
          other.conversation = binding.conversation
      · rw [if_pos]
        · refine .inl ⟨⟨⟨current, hcurrent, hsame, ?_⟩, htaken⟩, rfl⟩
          refine hmoves.resolve_left fun hequal => ?_
          obtain ⟨other, hother, hne, hconversation⟩ := htaken
          refine hne ?_
          rw [← hsame]
          refine congrArg _ (h.conversations.eq_of_key_eq hother hcurrent ?_)
          rw [hconversation]
          exact Prod.ext (Prod.ext_iff.mp hsame).1.symm hequal.2.symm
        · obtain ⟨other, hother, hne, hconversation⟩ := htaken
          refine List.any_eq_true.mpr ⟨other, hother, ?_⟩
          rw [Bool.and_eq_true, Bool.not_eq_true', ← Bool.not_eq_true, isKey_iff, isTarget_iff]
          exact ⟨hconversation, hne⟩
      · rw [if_neg]
        · refine .inr ⟨fun hcollides => htaken hcollides.2, .inr ⟨_, rfl, ?_⟩⟩
          exact .move h isKey_iff hcurrent hsame hmoves fun row hrow hne heq =>
            htaken ⟨row, hrow, hne, heq⟩
        · rw [List.any_eq_true]
          rintro ⟨other, hother, hp⟩
          rw [Bool.and_eq_true, Bool.not_eq_true', ← Bool.not_eq_true, isKey_iff,
            isTarget_iff] at hp
          exact htaken ⟨other, hother, hp.2, hp.1⟩
  | none =>
    have hfree : ∀ row ∈ rows, row.key ≠ binding.key := fun row hrow heq =>
      List.find?_eq_none.mp hkey row hrow ((isKey_iff row).mpr heq)
    refine .inr ⟨fun hcollides => ?_, ?_⟩
    · obtain ⟨⟨row, hrow, heq, -⟩, -⟩ := hcollides
      exact hfree row hrow heq
    dsimp only
    cases htarget : rows.find? fun row => row.ownerIdentityId == binding.ownerIdentityId &&
        row.conversationId == binding.conversationId with
    | none =>
      refine .inr ⟨_, rfl, .insert h hfree fun row hrow heq => ?_⟩
      exact List.find?_eq_none.mp htarget row hrow ((isTarget_iff row).mpr heq)
    | some previous =>
      dsimp only
      by_cases hkinds : previous.threadKind ≠ "direct" ∨ binding.threadKind ≠ "direct"
      · rw [if_pos hkinds]
        exact .inl ⟨_, rfl⟩
      · rw [if_neg hkinds]
        rw [not_or, not_not, not_not] at hkinds
        have hconversation := (isTarget_iff previous).mp (by
          simpa using List.find?_some htarget)
        refine .inr ⟨_, rfl, .rotate h (fun row => ?_)
          (List.mem_of_find?_eq_some htarget) hconversation hkinds.1 hkinds.2 hfree⟩
        rw [Bool.and_eq_true, Bool.and_eq_true, isTarget_iff, beq_iff_eq, beq_iff_eq, and_assoc]

theorem rebinds_of_ok (h : Bijective rows) (hrows : bindThread rows binding = .ok rows') :
    Rebinds rows rows' binding := by
  rcases bindThread_outcome binding h with ⟨-, hfailed⟩ | ⟨-, ⟨_, hfailed⟩ | hdone⟩
  · rw [hfailed] at hrows
    cases hrows
  · rw [hfailed] at hrows
    cases hrows
  · obtain ⟨bound, hbound, hrebinds⟩ := hdone
    rw [hbound] at hrows
    cases hrows
    exact hrebinds

/-! ## Waiting read states -/

theorem projectRemoteReadState_bindings {reads : ReadContext κ} {owner ownerDid : String}
    {state : ReadStateApply} {kind conversationId : String} {now : Int}
    (h : projectRemoteReadState reads db owner ownerDid state kind conversationId now =
      .ok db') : db'.others.bindings = db.others.bindings := by
  unfold projectRemoteReadState at h
  replace h := Tx.except_then h
  obtain ⟨current, -, h⟩ := Tx.except_bind_ok.mp h
  obtain ⟨stale, -, h⟩ := Tx.except_bind_ok.mp h
  split at h
  · cases h
    rfl
  · obtain ⟨overtaken, -, h⟩ := Tx.except_bind_ok.mp h
    split at h
    · obtain ⟨tables, htables, h⟩ := Tx.except_bind_ok.mp h
      cases h
      exact (acknowledgeReadOutbox_frame htables).2
    · unfold projectWatermark at h
      obtain ⟨pending, -, h⟩ := Tx.except_bind_ok.mp h
      obtain ⟨thread, -, h⟩ := Tx.except_bind_ok.mp h
      obtain ⟨⟨result, marked⟩, hmarked, h⟩ := Tx.except_bind_ok.mp h
      simp only [Tx.except_bind_ok] at h
      obtain ⟨order, -, replaced, hreplaced, acknowledged, hacknowledged, h⟩ := h
      cases h
      obtain ⟨row, -, hreplaced⟩ := Tx.except_bind_ok.mp hreplaced
      cases hreplaced
      exact (acknowledgeReadOutbox_frame hacknowledged).2.trans
        (markThreadReadWatermark_frame hmarked).2

/-- The part of `upsert_sync_thread_binding` after the binding is written. -/
def settleWaiting (context : RemoteContext κ) (db : ReadDb κ) (draw : OutboxDraw)
    (binding : SyncThreadBinding) : Except ImError (ReadDb κ) := do
  let projected ← projectWaiting context db binding draw.now
  queueWaiting projected draw binding

theorem settleWaiting_bindings (h : settleWaiting context db draw binding = .ok db') :
    db'.others.bindings = db.others.bindings := by
  obtain ⟨projected, hprojected, h⟩ := Tx.except_bind_ok.mp h
  rw [(queueWaiting_ok h).2.1]
  unfold projectWaiting at hprojected
  split at hprojected
  · cases hprojected
    rfl
  · obtain ⟨ownerDid, -, hprojected⟩ := Tx.except_bind_ok.mp hprojected
    exact projectRemoteReadState_bindings hprojected

/-- The stored rows that the call reads after the binding is written can be read, and the state
that waits for the thread agrees with the binding. -/
structure Settleable (context : RemoteContext κ) (db : ReadDb κ) (draw : OutboxDraw)
    (binding : SyncThreadBinding) : Prop where
  readable : Readable db
  answering : Answering context.toReadContext db binding.ownerIdentityId
  account : (context.currentDid db.others.others binding.ownerIdentityId).isSome = true
  waiting : ∀ state,
    loadRemoteReadState db.others binding.ownerIdentityId binding.remoteThreadKey = some state →
      Projectable db binding.ownerIdentityId state binding.threadKind binding.conversationId
  draw : FreshDraw db.others draw binding.ownerIdentityId

theorem settleWaiting_total (h : Settleable context db draw binding)
    (hformed : binding.WellFormed) (rows : List SyncThreadBinding) :
    ∃ db', settleWaiting context (withReads db { db.others with bindings := rows }) draw binding =
      .ok db' := by
  obtain ⟨htexts, hkind⟩ := hformed
  have howner := htexts binding.ownerIdentityId (by simp)
  have hkey := htexts binding.remoteThreadKey (by simp)
  have hkind' : IsName binding.threadKind := by
    rcases List.mem_pair.mp hkind with hkind | hkind
    · rw [hkind]
      decide
    · rw [hkind]
      decide
  -- no part of the conditions is about the table of bindings
  have hreadable : Readable (withReads db { db.others with bindings := rows }) :=
    ⟨h.readable.watermarks, h.readable.outbox, h.readable.sequences, h.readable.threadKeys⟩
  have hanswering : Answering context.toReadContext
      (withReads db { db.others with bindings := rows }) binding.ownerIdentityId :=
    ⟨h.answering.ids, h.answering.registry, h.answering.resolved⟩
  have hprojected : ∃ projected, projectWaiting context
      (withReads db { db.others with bindings := rows }) binding draw.now = .ok projected ∧
        Readable projected ∧ OutboxKept db.others projected.others := by
    unfold projectWaiting
    split
    · exact ⟨_, rfl, hreadable, .of_eq rfl⟩
    · rename_i state hstate
      obtain ⟨ownerDid, hdid⟩ := Option.isSome_iff_exists.mp h.account
      have hwaiting := h.waiting state hstate
      change ∃ projected, ((context.currentDid db.others.others _).elim _ _ >>= _) = _ ∧ _
      rw [hdid, Option.elim_some, Tx.except_ok_bind]
      exact projectRemoteReadState_total hreadable hanswering howner hkind'
        (htexts binding.conversationId (by simp))
        ⟨hwaiting.agrees, hwaiting.watermark, hwaiting.version, hwaiting.occurredAt,
          hwaiting.newer⟩
  obtain ⟨projected, hprojected, hready, hkept⟩ := hprojected
  exact Tx.except_bind_total ⟨projected, hprojected⟩ fun other hother => by
    obtain rfl := Except.ok.inj (hprojected.symm.trans hother)
    exact queueWaiting_total hready (h.draw.kept hkept) howner hkey

/-! ## Calls -/

theorem upsertSyncThreadBinding_eq (hformed : binding.WellFormed)
    (hbound : context.isBound db.others.others binding.ownerIdentityId = true) :
    upsertSyncThreadBinding context db draw binding =
      (bindThread db.others.bindings binding).bind fun rows =>
        settleWaiting context (withReads db { db.others with bindings := rows }) draw binding := by
  obtain ⟨htexts, hkind⟩ := hformed
  have hcheck : checkThreadBinding binding = .ok () := by
    unfold checkThreadBinding
    rw [validateRequired_eq (htexts _ (by simp)), validateRequired_eq (htexts _ (by simp)),
      validateRequired_eq (htexts _ (by simp)), List.contains_iff_mem.mpr hkind]
    rfl
  unfold upsertSyncThreadBinding bindRemoteThread
  rw [hcheck, hbound]
  cases bindThread db.others.bindings binding with
  | error e => rfl
  | ok rows => rfl

theorem rebinds_of_bind {tables : ReadTables κ} (h : Bijective db.others.bindings)
    (hbound : bindRemoteThread context db.others binding = .ok tables) :
    Rebinds db.others.bindings tables.bindings binding := by
  unfold bindRemoteThread at hbound
  obtain ⟨bindings, hbindings, hbound⟩ := Tx.except_bind_ok.mp hbound
  replace hbound := Tx.except_then hbound
  cases hbound
  exact rebinds_of_ok h hbindings

theorem rebinds_of_upsert (h : Bijective db.others.bindings)
    (hcall : upsertSyncThreadBinding context db draw binding = .ok db') :
    Rebinds db.others.bindings db'.others.bindings binding := by
  unfold upsertSyncThreadBinding at hcall
  replace hcall := Tx.except_then hcall
  obtain ⟨tables, htables, hcall⟩ := Tx.except_bind_ok.mp hcall
  rw [settleWaiting_bindings hcall]
  exact rebinds_of_bind h htables

/-- The replay of the backlog binds threads with the same rows. -/
theorem upsertThreadBinding_of_sync {peerContext : PeerContext κ} {peers : PeerTables κ}
    {rest : κ} (hrows : peers.directory.threadBindings = db.others.bindings)
    (hcall : upsertSyncThreadBinding context db draw binding = .ok db')
    (hrest : peerContext.settleReadState { peers with directory :=
      { peers.directory with threadBindings := db'.others.bindings } } binding = .ok rest) :
    upsertThreadBinding peerContext peers binding = .ok { peers with directory :=
      { peers.directory with threadBindings := db'.others.bindings, rest := rest } } := by
  unfold upsertSyncThreadBinding at hcall
  obtain ⟨_, hcheck, hcall⟩ := Tx.except_bind_ok.mp hcall
  obtain ⟨tables, htables, hcall⟩ := Tx.except_bind_ok.mp hcall
  unfold bindRemoteThread at htables
  obtain ⟨rows, hbind, htables⟩ := Tx.except_bind_ok.mp htables
  replace htables := Tx.except_then htables
  cases htables
  have hkept : db'.others.bindings = rows := settleWaiting_bindings hcall
  rw [hkept] at hrest ⊢
  unfold upsertThreadBinding
  rw [hcheck, hrows, hbind]
  simp only [Tx.except_ok_bind, hrest]

/--
A call that fails is rolled back with the transaction that it is in.  Outside a transaction the
binding stays as the call has written it, and of the other tables nothing is known; a call that
fails before has written nothing.
-/
inductive ThreadStep (context : RemoteContext κ) (db : ReadDb κ)
    (call : OutboxDraw × SyncThreadBinding) : ReadDb κ → Prop
  | done {db' : ReadDb κ} (h : upsertSyncThreadBinding context db call.1 call.2 = .ok db') :
      ThreadStep context db call db'
  | refused {e : ImError} (h : upsertSyncThreadBinding context db call.1 call.2 = .error e) :
      ThreadStep context db call db
  | interrupted {db' : ReadDb κ} {tables : ReadTables κ} {e : ImError}
      (h : upsertSyncThreadBinding context db call.1 call.2 = .error e)
      (hbound : bindRemoteThread context db.others call.2 = .ok tables)
      (hleft : db'.others.bindings = tables.bindings) : ThreadStep context db call db'

structure Preserved (db db' : ReadDb κ) : Prop where
  bijective : Bijective db'.others.bindings
  groups : ∀ row ∈ db.others.bindings, row.threadKind = "group" → Holds db'.others.bindings row

theorem Preserved.rebind {start : ReadDb κ} (h : Preserved start db)
    (hrebinds : Rebinds db.others.bindings db'.others.bindings binding) : Preserved start db' := by
  refine ⟨hrebinds.bijective, fun row hrow hgroup => ?_⟩
  obtain ⟨row', hrow', hkey, hkind, hconversation⟩ := h.groups row hrow hgroup
  obtain ⟨last, hlast, hkey', hkind', hconversation'⟩ :=
    hrebinds.groups row' hrow' (hkind.trans hgroup)
  exact ⟨last, hlast, hkey'.trans hkey, hkind'.trans hkind, hconversation'.trans hconversation⟩

theorem Preserved.step {start : ReadDb κ} {call : OutboxDraw × SyncThreadBinding}
    (h : Preserved start db) (hstep : ThreadStep context db call db') :
    Preserved start db' := by
  cases hstep with
  | refused => exact h
  | done hcall => exact h.rebind (rebinds_of_upsert h.bijective hcall)
  | interrupted _ hbound hleft =>
    exact h.rebind (hleft ▸ rebinds_of_bind h.bijective hbound)

/-- The call binds the thread as asked, or it reports a conflict and changes nothing. -/
def Answers (context : RemoteContext κ) (db : ReadDb κ) (draw : OutboxDraw)
    (binding : SyncThreadBinding) : Prop :=
  (∃ db', upsertSyncThreadBinding context db draw binding = .ok db' ∧
    Holds db'.others.bindings binding) ∨
  (∃ detail, upsertSyncThreadBinding context db draw binding = .error (threadConflict detail)) ∧
    ∀ db', ThreadStep context db (draw, binding) db' → db' = db

theorem answers_iff (h : Bijective db.others.bindings) (hformed : binding.WellFormed)
    (hbound : context.isBound db.others.others binding.ownerIdentityId = true)
    (hsettles : Settleable context db draw binding) :
    Answers context db draw binding ↔ ¬ Collides db.others.bindings binding := by
  unfold Answers
  have hcall : upsertSyncThreadBinding context db draw binding = _ :=
    upsertSyncThreadBinding_eq hformed hbound
  rcases bindThread_outcome binding h with
    ⟨hcollides, hfailed⟩ | ⟨hclear, ⟨detail, hrefused⟩ | ⟨rows, hrows, hrebinds⟩⟩
  · rw [hcall, hfailed]
    refine ⟨fun hanswers => ?_, fun hclear => absurd hcollides hclear⟩
    rcases hanswers with ⟨db', hdone, -⟩ | ⟨⟨detail, hrefused⟩, -⟩
    · cases hdone
    · cases hrefused
  · rw [hrefused] at hcall
    refine ⟨fun _ => hclear, fun _ => .inr ⟨⟨detail, hcall⟩, fun db' hstep => ?_⟩⟩
    cases hstep with
    | refused => rfl
    | done hdone =>
      rw [hcall] at hdone
      cases hdone
    | interrupted _ hwritten =>
      unfold bindRemoteThread at hwritten
      rw [hrefused] at hwritten
      cases hwritten
  · rw [hcall, hrows]
    refine ⟨fun _ => hclear, fun _ => .inl ?_⟩
    obtain ⟨db', hdone⟩ := settleWaiting_total hsettles hformed rows
    refine ⟨db', hdone, ?_⟩
    rw [settleWaiting_bindings hdone]
    exact hrebinds.holds

namespace BindingSample

def remote : RemoteContext Unit := WatermarkSample.context

/-- Another device has read up to 3 in the thread `l`, which is not bound yet. -/
def waiting : ReadStateApply :=
  ⟨"l", "direct", "3", none, "1", "1"⟩

def unbound : ReadDb Unit :=
  { WatermarkSample.bound with
    others :=
      { WatermarkSample.bound.others with
        bindings := []
        remoteStates := [("o", waiting)] } }

def call (key conversation : String) : OutboxDraw × SyncThreadBinding :=
  (⟨"m", "p", 1⟩, ⟨"o", key, "direct", conversation, 1⟩)

def byDid : OutboxDraw × SyncThreadBinding := call "k" "dm:did:x"

def byScope (key : String) : OutboxDraw × SyncThreadBinding := call key "dm:peer-scope:v1:x"

def bound : ReadDb Unit :=
  withReads unbound { unbound.others with bindings := [byDid.2] }

theorem settleable (key conversation : String) :
    Settleable remote bound (call key conversation).1 (call key conversation).2 where
  readable :=
    ⟨fun _ h => (nomatch h), fun _ h => (nomatch h), fun _ h => (nomatch h), fun _ h => (nomatch h)⟩
  answering := ⟨fun _ _ => ⟨_, rfl⟩, fun _ _ _ => ⟨_, rfl⟩, fun _ _ h => (nomatch h)⟩
  account := rfl
  waiting := by
    intro state hstate
    obtain ⟨row, hrow, rfl⟩ := Option.map_eq_some_iff.mp hstate
    obtain rfl := List.mem_singleton.mp (List.mem_of_find?_eq_some hrow)
    exact ⟨rfl, ⟨by decide, by decide⟩, by decide, by decide, fun h => absurd rfl h⟩
  draw := by
    refine ⟨?_, fun _ h => (nomatch h)⟩
    change ∀ text ∈ ["m", "p"], IsName text
    decide +kernel

end BindingSample

end LocalState
end Awiki

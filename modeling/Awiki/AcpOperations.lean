import Awiki.AcpTransactions

/-!
# What the transactions of a session do

Every operation of the daemon on a session moves tasks as one `Session.Moves` and writes the
records of that move, or leaves the session alone and changes at most how the reply of a
finished task was delivered.  The events of tasks that ended agree with the records.
-/

namespace Awiki
namespace Acp

open Tx

/-! ## Records -/

def ended (record : Option TaskRecord) : Bool := record.any (·.state.terminal)

/-- The record of a run after one `persist`. -/
def written (runId : String) (old : Option TaskRecord) (record : TaskRecord) :
    Option TaskRecord :=
  if record.runId = runId then (if ended old then old else some record) else old

/-- The record of a run after `persist` was called for each of the records. -/
def writes (records : List TaskRecord) (runId : String) (old : Option TaskRecord) :
    Option TaskRecord :=
  records.foldl (written runId) old

variable {runId : String} {record : TaskRecord} {db : AcpDb} {event : AcpEvent}

theorem written_of_ended {old : Option TaskRecord} (h : ended old = true) (record : TaskRecord) :
    written runId old record = old := by
  simp [written, h]

theorem writes_of_ended {old : Option TaskRecord} (h : ended old = true) (records : List TaskRecord) :
    writes records runId old = old := by
  induction records with
  | nil => rfl
  | cons record records ih =>
    rw [writes, List.foldl_cons, written_of_ended h]
    exact ih

theorem writes_cons_terminal (hterminal : record.state.terminal = true) (records : List TaskRecord)
    (old : Option TaskRecord) (hold : ended old = false) :
    writes (record :: records) record.runId old = some record := by
  have hfirst : written record.runId old record = some record := by simp [written, hold]
  have hended : ended (some record) = true := hterminal
  rw [writes, List.foldl_cons, hfirst]
  exact writes_of_ended hended records

theorem ended_written (runId : String) (old : Option TaskRecord) (record : TaskRecord) :
    ended (written runId old record) =
      (ended old || (record.runId == runId && record.state.terminal)) := by
  unfold written
  split
  · rename_i hrun
    split
    · rename_i hold
      simp [hold]
    · rename_i hold
      rw [Bool.eq_false_iff.mpr hold]
      simp [hrun, ended]
  · rename_i hrun
    simp [hrun]

theorem ended_writes (records : List TaskRecord) (runId : String) (old : Option TaskRecord) :
    ended (writes records runId old) =
      (ended old || records.any fun record => record.runId == runId && record.state.terminal) := by
  induction records generalizing old with
  | nil => simp [writes]
  | cons record records ih =>
    rw [writes, List.foldl_cons]
    refine (ih _).trans ?_
    rw [ended_written, List.any_cons, Bool.or_assoc]

theorem record?_upsert (db : AcpDb) (record : TaskRecord) (runId : String) :
    { db with
      records := Rows.upsertWhere (·.runId == record.runId) record (fun _ => record)
        db.records }.record? runId =
      if record.runId = runId then some record else db.record? runId := by
  unfold AcpDb.record?
  split
  · rename_i hrun
    subst hrun
    exact Rows.find?_upsertWhere_self (by simp) _
  · rename_i hrun
    apply Rows.find?_upsertWhere_of_ne
    · intro row hrow
      rw [beq_iff_eq.mp hrow]
      simpa using hrun
    · simpa using hrun
    · intro row _
      simpa using hrun

def AcpDb.rest (db : AcpDb) :
    Option Session × List AcpCommand × List RuntimeFinalOutboxRecord × List RuntimeRun :=
  (db.session, db.commands, db.outbox, db.runs)

theorem queue_keeps {γ : Type} {f : AcpDb → γ} (hf : ∀ db events, f { db with events } = f db)
    (record : TaskRecord) (id : String) : Keeps (queue record id) f := by
  unfold queue
  split
  · exact .pure ()
  · exact .execute fun db => hf db _

theorem writeRecord_ensures (prior : Option TaskRecord) (record : TaskRecord) (db : AcpDb) :
    Ensures (writeRecord prior record) db fun _ db' => db'.rest = db.rest ∧
      ∀ runId, db'.record? runId = if record.runId = runId then some record else db.record? runId := by
  unfold writeRecord
  refine Ensures.bind_execute fun _ db' hrun => ?_
  have hrest : Keeps (forEach (recordEvents prior record) (queue record)) AcpDb.rest :=
    Keeps.forEach fun id _ => queue_keeps (fun _ _ => rfl) record id
  have hrecords : Keeps (forEach (recordEvents prior record) (queue record)) AcpDb.records :=
    Keeps.forEach fun id _ => queue_keeps (fun _ _ => rfl) record id
  have hrest' := hrest _ _ _ hrun
  refine ⟨hrest', fun runId => ?_⟩
  rw [← record?_upsert db record runId]
  unfold AcpDb.record?
  rw [hrecords _ _ _ hrun]

theorem persist_ensures (record : TaskRecord) (db : AcpDb) :
    Ensures (persist record) db fun _ db' => db'.rest = db.rest ∧
      ∀ runId, db'.record? runId = written runId (db.record? runId) record := by
  unfold persist
  refine Ensures.bind_query ?_
  cases hprior : db.record? record.runId with
  | none =>
    refine fun a db' hrun => ?_
    obtain ⟨hrest, hrecords⟩ := writeRecord_ensures none record db a db' hrun
    refine ⟨hrest, fun runId => ?_⟩
    rw [hrecords, written]
    split
    · rename_i hrun
      rw [← hrun, hprior]
      rfl
    · rfl
  | some prior =>
    dsimp only
    refine Ensures.ite .throw ?_
    split
    · rename_i hterminal
      refine Ensures.pure ⟨rfl, fun runId => ?_⟩
      rw [written]
      split
      · rename_i hrun
        rw [← hrun, hprior]
        exact (if_pos hterminal).symm
      · rfl
    · rename_i hlive
      refine fun a db' hrun => ?_
      obtain ⟨hrest, hrecords⟩ := writeRecord_ensures (some prior) record db a db' hrun
      refine ⟨hrest, fun runId => ?_⟩
      rw [hrecords, written]
      split
      · rename_i hrun
        rw [← hrun, hprior]
        exact (if_neg hlive).symm
      · rfl

theorem forEach_persist_ensures (records : List TaskRecord) (db : AcpDb) :
    Ensures (forEach records persist) db fun _ db' => db'.rest = db.rest ∧
      ∀ runId, db'.record? runId = writes records runId (db.record? runId) := by
  induction records generalizing db with
  | nil => exact Ensures.pure ⟨rfl, fun _ => rfl⟩
  | cons record records ih =>
    refine Ensures.bind fun _ t hfirst a db' hrun => ?_
    obtain ⟨hrest, hrecords⟩ := persist_ensures record db _ t hfirst
    obtain ⟨hrest', hrecords'⟩ := ih t a db' hrun
    refine ⟨hrest'.trans hrest, fun runId => ?_⟩
    rw [hrecords' runId, hrecords runId]
    rfl

/-! ## Saving a session -/

/-- What `save` leaves. -/
structure Saves (db : AcpDb) (s : Session) (db' : AcpDb) : Prop where
  session : db'.session = some s.saved
  records : ∀ runId, db'.record? runId = writes s.savedRecords runId (db.record? runId)
  commands : db'.commands = db.commands
  outbox : db'.outbox = db.outbox
  runs : db'.runs = db.runs

theorem publishSnapshot_keeps {γ : Type} {f : AcpDb → γ}
    (hf : ∀ db events, f { db with events } = f db) (s : Session) (runId : String) :
    Keeps (publishSnapshot s runId) f := by
  unfold publishSnapshot
  refine .bind (.execute fun db => hf db _) fun _ => .bind (.query _) fun _ => ?_
  exact .bind .refuseIf fun _ => .execute fun db => hf db _

theorem save_ensures (s : Session) (db : AcpDb) :
    Ensures (save s) db fun saved db' => saved = s.saved ∧ Saves db s db' := by
  unfold save
  refine Ensures.bind fun _ t hrecords => ?_
  obtain ⟨hrest, hwritten⟩ := forEach_persist_ensures s.savedRecords db _ t hrecords
  simp only [AcpDb.rest, Prod.mk.injEq] at hrest
  obtain ⟨-, hcommands, houtbox, hruns⟩ := hrest
  dsimp only
  refine Ensures.bind_execute ?_
  have hsaves : Saves db s { t with session := some s.saved } :=
    ⟨rfl, hwritten, hcommands, houtbox, hruns⟩
  split
  · rename_i runId _ _
    refine Ensures.bind fun _ u hpublish => Ensures.pure ⟨rfl, ?_⟩
    have hkeeps := fun {γ : Type} (f : AcpDb → γ) (hf : ∀ db events, f { db with events } = f db) =>
      publishSnapshot_keeps hf s.saved runId _ _ _ hpublish
    exact ⟨hkeeps AcpDb.session (fun _ _ => rfl),
      fun run => (hkeeps (·.record? run) (fun _ _ => rfl)).trans (hsaves.records run),
      (hkeeps AcpDb.commands (fun _ _ => rfl)).trans hsaves.commands,
      (hkeeps AcpDb.outbox (fun _ _ => rfl)).trans hsaves.outbox,
      (hkeeps AcpDb.runs (fun _ _ => rfl)).trans hsaves.runs⟩
  · exact Ensures.pure ⟨rfl, hsaves⟩

theorem mutate_ok {α : Type} {seed : Option Session} {f : Session → Except String (Session × α)}
    {db' : AcpDb} {a : α} (h : (mutate seed f).run db = .ok a db') :
    ∃ s s', db.session.or seed = some s ∧ f s = .ok (s', a) ∧
      ((db.session = some { s' with pendingRecords := [] } ∧ db' = db) ∨ Saves db s' db') := by
  revert h
  apply Ensures.immediate
  refine Ensures.bind_query (Ensures.bind_orError fun s hs => ?_)
  refine Ensures.bind_attempt fun result hresult => ?_
  obtain ⟨s', b⟩ := result
  dsimp only
  split
  · rename_i hsame
    exact Ensures.pure ⟨b, rfl, s, s', hs, hresult, .inl ⟨hsame, rfl⟩⟩
  · refine Ensures.bind fun _ t hsave => Ensures.pure ⟨b, rfl, s, s', hs, hresult, .inr ?_⟩
    exact (save_ensures s' db _ t hsave).2

/-! ## Events -/

theorem terminalEventId_inj {run run' : String} (h : terminalEventId run = terminalEventId run') :
    run = run' := by
  unfold terminalEventId at h
  simpa using h

theorem questionEventId_ne (run run' id : String) :
    questionEventId run id ≠ terminalEventId run' := by
  intro h
  have hletter := congrArg (fun s => (s.toList.drop 4).head?) h
  simp [terminalEventId, questionEventId] at hletter

theorem snapshotEventId_ne (key : String) (revision : Nat) (run : String) :
    snapshotEventId key revision ≠ terminalEventId run := by
  intro h
  have hletter := congrArg (fun s => (s.toList.drop 3).head?) h
  simp [terminalEventId, snapshotEventId] at hletter

theorem deliveryEventId_ne (run run' : String) (state : DeliveryState) :
    deliveryEventId run state ≠ terminalEventId run' := by
  intro h
  have hletter := congrArg (fun s => s.toList.reverse.head?) h
  cases state <;> simp [terminalEventId, deliveryEventId, DeliveryState.name] at hletter

def terminalEvents (events : List AcpEvent) (runId : String) : Nat :=
  events.countP (·.eventId == terminalEventId runId)

def announced (record : Option TaskRecord) : Bool :=
  record.any fun record => record.state.terminal && !record.background

structure EventsAgree (db : AcpDb) : Prop where
  counted : ∀ runId, terminalEvents db.events runId = if announced (db.record? runId) then 1 else 0
  kinds : ∀ event ∈ db.events, event.kind = .snapshot → ∀ runId,
    event.eventId ≠ terminalEventId runId

theorem terminalEvents_insertOrIgnore (h : event.eventId ≠ terminalEventId runId)
    (events : List AcpEvent) :
    terminalEvents (insertOrIgnoreEvent event events) runId = terminalEvents events runId := by
  unfold insertOrIgnoreEvent
  split
  · rfl
  · simp [terminalEvents, List.countP_append, h]

theorem mem_insertOrIgnore {event' : AcpEvent} {events : List AcpEvent}
    (h : event' ∈ insertOrIgnoreEvent event events) : event' ∈ events ∨ event' = event := by
  unfold insertOrIgnoreEvent at h
  split at h
  · exact .inl h
  · simpa using h

theorem EventsAgree.insert (h : EventsAgree db) (hkind : event.kind = .task)
    (hid : ∀ runId, event.eventId ≠ terminalEventId runId) :
    EventsAgree { db with events := insertOrIgnoreEvent event db.events } := by
  constructor
  · intro runId
    rw [terminalEvents_insertOrIgnore (hid runId)]
    exact h.counted runId
  · intro event' hmem hsnapshot
    rcases mem_insertOrIgnore hmem with hold | rfl
    · exact h.kinds event' hold hsnapshot
    · rw [hkind] at hsnapshot
      cases hsnapshot

theorem queue_agrees {id : String} (hid : ∀ runId, id ≠ terminalEventId runId)
    (record : TaskRecord) : Preserves EventsAgree (queue record id) := by
  unfold queue
  split
  · intro db _ db' h hrun
    exact (pure_ok.mp hrun).2 ▸ h
  · intro db _ db' h hrun
    obtain rfl := execute_ok.mp hrun
    exact h.insert rfl hid

theorem EventsAgree.write (h : EventsAgree db) (hlive : record.state.terminal = false)
    (hprior : announced (db.record? record.runId) = false) :
    EventsAgree
      { db with
        records := Rows.upsertWhere (·.runId == record.runId) record (fun _ => record)
          db.records } := by
  refine ⟨fun runId => ?_, h.kinds⟩
  rw [record?_upsert]
  split
  · rename_i hrun
    subst hrun
    have hcount := h.counted record.runId
    rw [hprior] at hcount
    simpa [announced, hlive] using hcount
  · exact h.counted runId

theorem EventsAgree.finish (h : EventsAgree db) (hterminal : record.state.terminal = true)
    (hbackground : record.background = false) (hprior : announced (db.record? record.runId) = false)
    (payload : EventPayload) :
    EventsAgree
      { db with
        records := Rows.upsertWhere (·.runId == record.runId) record (fun _ => record) db.records
        events := insertOrIgnoreEvent
          { eventId := terminalEventId record.runId
            sessionKey := record.sessionKey
            runId := record.runId
            payload := payload
            kind := .task } db.events } := by
  have hnone : terminalEvents db.events record.runId = 0 := by
    simpa [hprior] using h.counted record.runId
  constructor
  · intro runId
    have hlookup := record?_upsert db record runId
    unfold AcpDb.record? at hlookup ⊢
    rw [hlookup]
    split
    · rename_i hrun
      subst hrun
      have hfresh : (db.events.any (·.eventId == terminalEventId record.runId)) = false := by
        rw [Bool.eq_false_iff]
        intro hany
        have hpos := List.countP_pos_iff.mpr (List.any_eq_true.mp hany)
        exact absurd hnone (Nat.pos_iff_ne_zero.mp hpos)
      have hzero : db.events.countP (·.eventId == terminalEventId record.runId) = 0 := hnone
      simp [insertOrIgnoreEvent, hfresh, terminalEvents, List.countP_append, hzero, announced,
        hterminal, hbackground]
    · rename_i hrun
      rw [terminalEvents_insertOrIgnore fun heq => hrun (terminalEventId_inj heq)]
      exact h.counted runId
  · intro event hmem hsnapshot
    rcases mem_insertOrIgnore hmem with hold | rfl
    · exact h.kinds event hold hsnapshot
    · cases hsnapshot

theorem writeRecord_agrees (h : EventsAgree db) (prior : Option TaskRecord)
    (hprior : announced (db.record? record.runId) = false) :
    Ensures (writeRecord prior record) db fun _ db' => EventsAgree db' := by
  unfold writeRecord
  refine Ensures.bind_execute fun _ db' hrun => ?_
  cases hterminal : record.state.terminal with
  | false =>
    refine Preserves.forEach_of_mem ?_ _ _ _ (h.write hterminal hprior) hrun
    intro id hid
    simp only [recordEvents, hterminal, Bool.false_eq_true, if_false, List.mem_map] at hid
    obtain ⟨question, -, rfl⟩ := hid
    exact queue_agrees (fun runId => questionEventId_ne _ runId _) record
  | true =>
    simp only [recordEvents, hterminal, if_true, forEach] at hrun
    obtain ⟨_, hqueue, -⟩ := bind_pure_ok.mp hrun
    cases hbackground : record.background with
    | true =>
      simp only [queue, hbackground, if_true] at hqueue
      obtain ⟨-, rfl⟩ := pure_ok.mp hqueue
      refine ⟨fun runId => ?_, h.kinds⟩
      rw [record?_upsert]
      split
      · rename_i hsame
        subst hsame
        have hcount := h.counted record.runId
        rw [hprior] at hcount
        simpa [announced, hbackground] using hcount
      · exact h.counted runId
    | false =>
      simp only [queue, hbackground, Bool.false_eq_true, if_false] at hqueue
      obtain rfl := execute_ok.mp hqueue
      exact h.finish hterminal hbackground hprior _

theorem persist_agrees (record : TaskRecord) : Preserves EventsAgree (persist record) := by
  intro db a db' h hrun
  have hensures : Ensures (persist record) db fun _ db' => EventsAgree db' := by
    unfold persist
    refine Ensures.bind_query ?_
    cases hprior : db.record? record.runId with
    | none => exact writeRecord_agrees h none (by simp [hprior, announced])
    | some prior =>
      dsimp only
      refine Ensures.ite .throw ?_
      split
      · exact Ensures.pure h
      · rename_i hlive
        exact writeRecord_agrees h (some prior) (by simp [hprior, announced, hlive])
  exact hensures a db' hrun

theorem publishSnapshot_agrees (s : Session) (runId : String) :
    Preserves EventsAgree (publishSnapshot s runId) := by
  intro db a db' h hrun
  have hensures : Ensures (publishSnapshot s runId) db fun _ db' => EventsAgree db' := by
    unfold publishSnapshot
    refine Ensures.bind_execute (Ensures.bind_query (Ensures.bind_refuseIf fun _ _ db' hrun => ?_))
    obtain rfl := execute_ok.mp hrun
    constructor
    · intro run
      have hkept : terminalEvents (Rows.deleteWhere
          (fun event => event.sessionKey == s.key && !event.sent && event.kind == .snapshot)
          db.events) run = terminalEvents db.events run := by
        unfold terminalEvents Rows.deleteWhere
        rw [List.countP_filter]
        refine List.countP_congr fun event hevent => ?_
        simp only [Bool.and_eq_true, beq_iff_eq]
        constructor
        · exact And.left
        · intro hid
          refine ⟨hid, ?_⟩
          by_cases hkind : event.kind = .snapshot
          · exact absurd hid (h.kinds event hevent hkind run)
          · simp [hkind]
      have hsnapshot : snapshotEventId s.key s.revision ≠ terminalEventId run :=
        snapshotEventId_ne _ _ _
      have hcount := h.counted run
      unfold terminalEvents at hkept hcount ⊢
      rw [List.countP_append, hkept, hcount]
      simp only [List.countP_cons, List.countP_nil, hsnapshot, beq_iff_eq, if_false, add_zero]
      rfl
    · intro event hmem hkind
      rcases List.mem_append.mp hmem with hold | hnew
      · exact h.kinds event (Rows.mem_deleteWhere.mp hold).1 hkind
      · rw [List.mem_singleton.mp hnew]
        exact snapshotEventId_ne _ _
  exact hensures a db' hrun

theorem EventsAgree.of_same {db' : AcpDb} (h : EventsAgree db) (hevents : db'.events = db.events)
    (hrecords : db'.records = db.records) : EventsAgree db' := by
  obtain ⟨session, records, events, commands, outbox, runs⟩ := db'
  cases hevents
  cases hrecords
  exact ⟨h.counted, h.kinds⟩

theorem execute_agrees {f : AcpDb → AcpDb} (hevents : ∀ db, (f db).events = db.events)
    (hrecords : ∀ db, (f db).records = db.records) :
    Preserves EventsAgree (execute f : Tx String AcpDb Unit) := by
  intro db _ db' h hrun
  obtain rfl := execute_ok.mp hrun
  exact h.of_same (hevents db) (hrecords db)

theorem save_agrees (s : Session) : Preserves EventsAgree (save s) := by
  unfold save
  refine .bind (.forEach persist_agrees) fun _ => ?_
  dsimp only
  refine .bind (execute_agrees (fun _ => rfl) fun _ => rfl) fun _ => ?_
  split
  · refine .bind (publishSnapshot_agrees _ _) fun _ => ?_
    intro db _ db' h hrun
    exact (pure_ok.mp hrun).2 ▸ h
  · intro db _ db' h hrun
    exact (pure_ok.mp hrun).2 ▸ h

end Acp
end Awiki

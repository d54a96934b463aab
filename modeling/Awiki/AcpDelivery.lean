import Awiki.AcpReplies
import Mathlib.Data.List.Sort

/-!
# Delivery of replies

Calls of `flush_runtime_final_outbox` run concurrently: the scheduler of the queue, and every
executor that finishes a task.  A call reads the clock, takes stale rows back, lists the rows
that are due, and then claims, sends and marks them one after the other, each in a transaction
of its own.

The attempts of a row and the time of the next one are read when the rows are listed, but a row
is claimed later and only by its status; a call that works with an old list repeats what
another call has done.  In runs in which rows are claimed as they were listed, attempts are
bounded, spaced and owned by one call.
-/

namespace Awiki
namespace Acp

open Tx

variable {row : RuntimeFinalOutboxRecord} {messageId : Option String} {state : DeliveryState}
  {idempotencyKey : String} {p : RuntimeFinalOutboxRecord → Bool}
  {rest : List RuntimeFinalOutboxRecord} {allowed : FinalOutboxStatus → Bool}
  {rows : List RuntimeFinalOutboxRecord} {record : RuntimeFinalOutboxRecord} {op : Operation}

/-! ## Calls -/

/-- `MAX_RUNTIME_FINAL_OUTBOX_ATTEMPTS`. -/
def maxAttempts : Int := 5

/-- `RUNTIME_FINAL_OUTBOX_SENDING_STALE_MS`. -/
def sendingStaleMs : Int := 5 * 60 * 1000

/-- `runtime_final_retry_delay_ms`. -/
def retryDelayMs (attempts : Int) : Int :=
  if attempts = 0 ∨ attempts = 1 then 10000
  else if attempts = 2 then 30000
  else if attempts = 3 then 120000
  else if attempts = 4 then 300000
  else 900000

/-- The order of `list_due_runtime_final_outbox`. -/
def RuntimeFinalOutboxRecord.before (row row' : RuntimeFinalOutboxRecord) : Prop :=
  row.createdAtMs < row'.createdAtMs ∨
    (row.createdAtMs = row'.createdAtMs ∧ row.idempotencyKey ≤ row'.idempotencyKey)

instance : DecidableRel RuntimeFinalOutboxRecord.before := fun row row' =>
  inferInstanceAs (Decidable (_ ∨ (_ ∧ row.idempotencyKey ≤ row'.idempotencyKey)))

/-- `list_due_runtime_final_outbox`. -/
def listDue (now : Int) (limit : Nat) (rows : List RuntimeFinalOutboxRecord) :
    List RuntimeFinalOutboxRecord :=
  ((rows.filter fun row => row.status == .pending && decide (row.nextAttemptAtMs ≤ now)).insertionSort
    RuntimeFinalOutboxRecord.before).take (max limit 1)

inductive Phase where
  | claimed
  | sending
  | answered (result : Except String (Option String))

/-- A call of `flush_runtime_final_outbox` that has listed its rows. -/
structure Call where
  now : Int
  records : List RuntimeFinalOutboxRecord
  attempt : Option Phase := none

def Call.current (call : Call) : Option (RuntimeFinalOutboxRecord × Phase) :=
  match call.records, call.attempt with
  | record :: _, some phase => some (record, phase)
  | _, _ => none

def Call.next (call : Call) : Call := { call with records := call.records.tail, attempt := none }

theorem Call.current_eq_some {call : Call} {phase : Phase} :
    call.current = some (record, phase) ↔
      (∃ rest, call.records = record :: rest) ∧ call.attempt = some phase := by
  unfold Call.current
  split
  · simp_all
  · rename_i hother
    simpa using fun rest => hother record rest phase

theorem Call.current_of_idle {call : Call} (h : call.attempt = none) : call.current = none := by
  simp [Call.current, h]

/-- A call of `send_message`. -/
structure Send where
  idempotencyKey : String
  call : Nat
  atMs : Int
  /-- The `next_attempt_at_ms` that the row has at that time. -/
  dueAtMs : Option Int

structure Flushing where
  world : World := {}
  clock : Int := 0
  calls : Nat → Option Call := fun _ => none
  sends : List Send := []

inductive FlushEvent where
  /-- Time passes. -/
  | tick (now : Int)
  /-- Another transaction of the daemon. -/
  | daemon (op : Operation)
  | recover (now : Int)
  | list (id : Nat) (now : Int) (limit : Nat)
  /-- The task of the row does not allow its delivery any more. -/
  | fence (id : Nat) (errorCode errorSummary : String)
  | claim (id : Nat)
  | send (id : Nat)
  | answer (id : Nat) (result : Except String (Option String))
  | mark (id : Nat)
  /-- The call returns or fails. -/
  | drop (id : Nat)

variable {e : FlushEvent}

def Operation.isDelivery : Operation → Bool
  | .markSending .. | .markSent .. | .markRetry .. | .markFailedTerminal ..
    | .recoverStaleSending .. => true
  | _ => false

section Stepping

variable (key : String) (validate : Question → Json → Except String Json)

namespace Flushing

def setCall (f : Flushing) (id : Nat) (call : Option Call) : Flushing :=
  { f with calls := Function.update f.calls id call }

def transact (f : Flushing) (op : Operation) : Option (Flushing × Option Reply) := do
  let world ← f.world.step key validate op
  let reply :=
    match (op.perform key validate).run f.world.db with
    | .ok reply _ => some reply
    | .error _ _ => none
  return ({ f with world := world }, reply)

def callTransact (f : Flushing) (id : Nat) (op : Operation) (next : Reply → Call) :
    Option Flushing := do
  let (f, reply) ← f.transact key validate op
  return f.setCall id (reply.map next)

def markOperation (call : Call) (record : RuntimeFinalOutboxRecord)
    (result : Except String (Option String)) (clock : Int) : Operation :=
  match result with
  | .ok messageId => .markSent record.idempotencyKey messageId clock
  | .error summary =>
    let attempts := record.attemptCount + 1
    if maxAttempts ≤ attempts then
      .markFailedTerminal record.idempotencyKey "final_delivery_failed" summary clock
    else
      .markRetry record.idempotencyKey (call.now + retryDelayMs attempts) "final_delivery_retry"
        summary clock

def step (f : Flushing) : FlushEvent → Option Flushing
  | .tick now => if f.clock ≤ now then some { f with clock := now } else none
  | .daemon op =>
    if op.isDelivery then none
    else do
      let (f, _) ← f.transact key validate op
      return f
  | .recover now =>
    if now ≤ f.clock then do
      let (f, _) ← f.transact key validate (.recoverStaleSending (now - sendingStaleMs) now f.clock)
      return f
    else none
  | .list id now limit =>
    if now ≤ f.clock ∧ (f.calls id).isNone then
      some (f.setCall id (some { now, records := listDue now limit f.world.db.outbox }))
    else none
  | .fence id errorCode errorSummary => do
      let call ← f.calls id
      match call.records, call.attempt with
      | record :: _, none =>
        f.callTransact key validate id
          (.markFailedTerminal record.idempotencyKey errorCode errorSummary f.clock)
          fun _ => call.next
      | _, _ => none
  | .claim id => do
      let call ← f.calls id
      match call.records, call.attempt with
      | record :: _, none =>
        f.callTransact key validate id (.markSending record.idempotencyKey f.clock) fun reply =>
          match reply with
          | .updated true => { call with attempt := some .claimed }
          | _ => call.next
      | _, _ => none
  | .send id => do
      let call ← f.calls id
      match call.current with
      | some (record, .claimed) =>
        let row := f.world.db.outbox.find? (·.idempotencyKey == record.idempotencyKey)
        let send : Send :=
          { idempotencyKey := record.idempotencyKey
            call := id
            atMs := f.clock
            dueAtMs := row.map (·.nextAttemptAtMs) }
        return { f.setCall id (some { call with attempt := some .sending }) with
          sends := f.sends ++ [send] }
      | _ => none
  | .answer id result => do
      let call ← f.calls id
      match call.current with
      | some (_, .sending) =>
        return f.setCall id (some { call with attempt := some (.answered result) })
      | _ => none
  | .mark id => do
      let call ← f.calls id
      match call.current with
      | some (record, .answered result) =>
        f.callTransact key validate id (markOperation call record result f.clock)
          fun _ => call.next
      | _ => none
  | .drop id => some (f.setCall id none)

end Flushing

/-- The daemon's other operations are those of `acp/host.rs`. -/
def FlushEvent.Hosted (hash : String → String) (f : Flushing) : FlushEvent → Prop
  | .daemon op => op.Hosted hash f.world
  | _ => True

abbrev FlushRuns (hash : String → String) : Flushing → List FlushEvent → Flushing → Prop :=
  Run fun f e f' => e.Hosted hash f ∧ f.step key validate e = some f'

end Stepping

def Flushing.Underway (f : Flushing) (id : Nat) (record : RuntimeFinalOutboxRecord)
    (phase : Phase) : Prop :=
  ∃ call, f.calls id = some call ∧ call.current = some (record, phase)

/--
A row is claimed as it was listed, and only rows that nobody is sending any more, with attempts
left, are taken back.
-/
def FlushEvent.Undisturbed (f : Flushing) : FlushEvent → Prop
  | .claim id => ∀ call record rest, f.calls id = some call → call.records = record :: rest →
      ∀ row ∈ f.world.db.outbox, row.idempotencyKey = record.idempotencyKey →
        row.status = .pending →
        row.attemptCount = record.attemptCount ∧ row.nextAttemptAtMs = record.nextAttemptAtMs
  | .recover now => ∀ row ∈ f.world.db.outbox, row.stale (now - sendingStaleMs) = true →
      row.attemptCount < maxAttempts ∧
        ∀ id record phase, f.Underway id record phase →
          record.idempotencyKey ≠ row.idempotencyKey
  | _ => True

/-! ## Books -/

def Flushing.sendsOf (f : Flushing) (key : String) : Nat :=
  f.sends.countP (·.idempotencyKey == key)

structure Booked (rows : List RuntimeFinalOutboxRecord) (f : Flushing) : Prop where
  due : ∀ id call, f.calls id = some call → call.now ≤ f.clock ∧
    ∀ record ∈ call.records, record.nextAttemptAtMs ≤ call.now
  owned : ∀ id record phase, f.Underway id record phase →
    record.nextAttemptAtMs ≤ f.clock ∧
    ∃ row ∈ rows, row.idempotencyKey = record.idempotencyKey ∧
      (row.status = .sending ∨ row.status = .failedTerminal) ∧
      row.attemptCount = record.attemptCount + 1 ∧ row.nextAttemptAtMs = record.nextAttemptAtMs
  alone : ∀ id id' record record' phase phase', f.Underway id record phase →
    f.Underway id' record' phase' → record.idempotencyKey = record'.idempotencyKey → id = id'
  counted : ∀ row ∈ rows, (f.sendsOf row.idempotencyKey : Int) ≤ row.attemptCount ∧
    row.attemptCount ≤ maxAttempts ∧ (row.status = .pending → row.attemptCount < maxAttempts)
  claimed : ∀ id record, f.Underway id record .claimed → ∀ row ∈ rows,
    row.idempotencyKey = record.idempotencyKey →
      (f.sendsOf row.idempotencyKey : Int) + 1 ≤ row.attemptCount
  started : ∀ send ∈ f.sends, ∃ due ∈ send.dueAtMs, due ≤ send.atMs
  sent : ∀ send ∈ f.sends, ∃ row ∈ rows, row.idempotencyKey = send.idempotencyKey

theorem booked_empty : Booked [] {} := by
  constructor
  · intro id call hcall
    cases hcall
  · rintro id record phase ⟨call, hcall, -⟩
    cases hcall
  · rintro id id' record record' phase phase' ⟨call, hcall, -⟩
    cases hcall
  · intro row hrow
    cases hrow
  · rintro id record ⟨call, hcall, -⟩
    cases hcall
  · intro send hsend
    cases hsend
  · intro send hsend
    cases hsend

namespace Booked

variable {rows : List RuntimeFinalOutboxRecord} {f : Flushing}

variable {row : RuntimeFinalOutboxRecord} {id : Nat} {record : RuntimeFinalOutboxRecord}
  {phase : Phase} {call : Call}

theorem unclaimed (h : Booked rows f) (hkeys : Rows.UniqueKey (·.idempotencyKey) rows)
    (hrow : row ∈ rows) (hpending : row.status = .pending) (hunderway : f.Underway id record phase) :
    record.idempotencyKey ≠ row.idempotencyKey := by
  intro heq
  obtain ⟨-, other, hother, hkey, hstatus, -⟩ := h.owned id record phase hunderway
  obtain rfl := hkeys.eq_of_key_eq hother hrow (hkey.trans heq)
  rw [hpending] at hstatus
  rcases hstatus with hstatus | hstatus <;> cases hstatus

theorem append (h : Booked rows f) (hfresh : ∀ old ∈ rows, old.idempotencyKey ≠ row.idempotencyKey)
    (hcount : row.attemptCount = 0) : Booked (rows ++ [row]) f := by
  have hunsent : f.sendsOf row.idempotencyKey = 0 := by
    refine List.countP_eq_zero.mpr fun send hsend hkey => ?_
    obtain ⟨old, hold, heq⟩ := h.sent send hsend
    exact hfresh old hold (heq.trans (beq_iff_eq.mp hkey))
  refine ⟨h.due, ?_, h.alone, ?_, ?_, h.started, ?_⟩
  · intro id record phase hunderway
    obtain ⟨hdue, old, hold, hrest⟩ := h.owned id record phase hunderway
    exact ⟨hdue, old, List.mem_append_left _ hold, hrest⟩
  · refine List.forall_mem_append.mpr ⟨h.counted, List.forall_mem_singleton.mpr ?_⟩
    rw [hunsent, hcount]
    simp [maxAttempts]
  · intro id record hunderway
    refine List.forall_mem_append.mpr
      ⟨h.claimed id record hunderway, List.forall_mem_singleton.mpr fun hkey => ?_⟩
    obtain ⟨-, old, hold, hkey', -⟩ := h.owned id record .claimed hunderway
    exact absurd (hkey'.trans hkey.symm) (hfresh old hold)
  · intro send hsend
    obtain ⟨old, hold, heq⟩ := h.sent send hsend
    exact ⟨old, List.mem_append_left _ hold, heq⟩

theorem update (h : Booked rows f) {g : RuntimeFinalOutboxRecord → RuntimeFinalOutboxRecord}
    (hkey : ∀ row, (g row).idempotencyKey = row.idempotencyKey)
    (howned : ∀ row ∈ rows, p row = true → ∀ id record phase, f.Underway id record phase →
      record.idempotencyKey = row.idempotencyKey →
        ((g row).status = .sending ∨ (g row).status = .failedTerminal) ∧
          (g row).attemptCount = row.attemptCount ∧
          (g row).nextAttemptAtMs = row.nextAttemptAtMs)
    (hcount : ∀ row ∈ rows, p row = true → row.attemptCount ≤ (g row).attemptCount ∧
      (g row).attemptCount ≤ maxAttempts ∧
      ((g row).status = .pending → (g row).attemptCount < maxAttempts)) :
    Booked (Rows.updateWhere p g rows) f := by
  refine ⟨h.due, ?_, h.alone, ?_, ?_, h.started, ?_⟩
  · intro id record phase hunderway
    obtain ⟨hdue, old, hold, heq, hstatus, hattempts, hnext⟩ := h.owned id record phase hunderway
    refine ⟨hdue, _, Rows.mem_updateWhere.mpr ⟨old, hold, rfl⟩, ?_⟩
    split
    · rename_i hp
      obtain ⟨hstatus', hattempts', hnext'⟩ := howned old hold hp id record phase hunderway heq.symm
      exact ⟨(hkey old).trans heq, hstatus', hattempts'.trans hattempts, hnext'.trans hnext⟩
    · exact ⟨heq, hstatus, hattempts, hnext⟩
  · intro row hrow
    obtain ⟨old, hold, rfl⟩ := Rows.mem_updateWhere.mp hrow
    obtain ⟨hsends, hmax, hpending⟩ := h.counted old hold
    split
    · rename_i hp
      obtain ⟨hmore, hmax', hpending'⟩ := hcount old hold hp
      rw [hkey]
      exact ⟨hsends.trans hmore, hmax', hpending'⟩
    · exact ⟨hsends, hmax, hpending⟩
  · intro id record hunderway row hrow heq
    obtain ⟨old, hold, rfl⟩ := Rows.mem_updateWhere.mp hrow
    split at heq
    · rename_i hp
      rw [if_pos hp]
      rw [hkey] at heq ⊢
      exact (h.claimed id record hunderway old hold heq).trans (hcount old hold hp).1
    · rename_i hp
      rw [if_neg hp]
      exact h.claimed id record hunderway old hold heq
  · intro send hsend
    obtain ⟨old, hold, heq⟩ := h.sent send hsend
    refine ⟨_, Rows.mem_updateWhere.mpr ⟨old, hold, rfl⟩, ?_⟩
    split
    · exact (hkey old).trans heq
    · exact heq

theorem underway_setCall {id' : Nat} {call : Option Call}
    (h : (f.setCall id call).Underway id' record phase) :
    (id' = id ∧ ∃ c, call = some c ∧ c.current = some (record, phase)) ∨
      (id' ≠ id ∧ f.Underway id' record phase) := by
  obtain ⟨c, hc, hcurrent⟩ := h
  by_cases hid : id' = id
  · subst hid
    have hc' : call = some c := by simpa [Flushing.setCall] using hc
    exact .inl ⟨rfl, c, hc', hcurrent⟩
  · have hc' : f.calls id' = some c := by simpa [Flushing.setCall, hid] using hc
    exact .inr ⟨hid, c, hc', hcurrent⟩

theorem calls_setCall {id' : Nat} {call : Option Call} {c : Call}
    (h : (f.setCall id call).calls id' = some c) :
    (id' = id ∧ call = some c) ∨ f.calls id' = some c := by
  by_cases hid : id' = id
  · subst hid
    exact .inl ⟨rfl, by simpa [Flushing.setCall] using h⟩
  · exact .inr (by simpa [Flushing.setCall, hid] using h)

variable (h : Booked rows f)

include h

theorem setCall (id : Nat) (call : Option Call)
    (hcall : ∀ c, call = some c → c.current = none ∧ c.now ≤ f.clock ∧
      ∀ record ∈ c.records, record.nextAttemptAtMs ≤ c.now) : Booked rows (f.setCall id call) := by
  have hold : ∀ {id' record phase}, (f.setCall id call).Underway id' record phase →
      f.Underway id' record phase := by
    intro id' record phase hunderway
    rcases underway_setCall hunderway with ⟨-, c, hc, hcurrent⟩ | ⟨-, hunderway⟩
    · rw [(hcall c hc).1] at hcurrent
      cases hcurrent
    · exact hunderway
  refine ⟨?_, fun id' record phase hu => h.owned id' record phase (hold hu),
    fun id₁ id₂ r₁ r₂ p₁ p₂ h₁ h₂ => h.alone id₁ id₂ r₁ r₂ p₁ p₂ (hold h₁) (hold h₂), h.counted,
    fun id' record hu => h.claimed id' record (hold hu), h.started, h.sent⟩
  intro id' c hc
  rcases calls_setCall hc with ⟨-, hnew⟩ | hold
  · exact (hcall c hnew).2
  · exact h.due id' c hold

theorem next (hcall : f.calls id = some call) (reply : Option Reply) :
    Booked rows (f.setCall id (reply.map fun _ => call.next)) := by
  refine h.setCall id _ fun c hc => ?_
  obtain ⟨_, -, rfl⟩ := Option.map_eq_some_iff.mp hc
  obtain ⟨hnow, hdue⟩ := h.due id call hcall
  exact ⟨Call.current_of_idle rfl, hnow,
    fun record hrecord => hdue record (List.mem_of_mem_tail hrecord)⟩

theorem setPhase (phase' : Phase) (hcall : f.calls id = some call)
    (hcurrent : call.current = some (record, phase)) (hphase : phase' ≠ .claimed) :
    Booked rows (f.setCall id (some { call with attempt := some phase' })) := by
  obtain ⟨⟨rest, hrecords⟩, -⟩ := Call.current_eq_some.mp hcurrent
  have hold : ∀ {id' other phase₀},
      (f.setCall id (some { call with attempt := some phase' })).Underway id' other phase₀ →
      ∃ phase₁, f.Underway id' other phase₁ ∧ (phase₀ = .claimed → phase₁ = .claimed) := by
    intro id' other phase₀ hunderway
    rcases underway_setCall hunderway with ⟨rfl, c, hc, heq⟩ | ⟨-, hunderway⟩
    · cases hc
      obtain ⟨⟨rest', hrecords'⟩, hnew⟩ := Call.current_eq_some.mp heq
      cases hrecords.symm.trans hrecords'
      cases hnew
      exact ⟨phase, ⟨call, hcall, hcurrent⟩, fun hclaimed => absurd hclaimed hphase⟩
    · exact ⟨phase₀, hunderway, fun hclaimed => hclaimed⟩
  refine ⟨?_, ?_, ?_, h.counted, ?_, h.started, h.sent⟩
  · intro id' c hc
    rcases calls_setCall hc with ⟨-, hnew⟩ | hc
    · cases hnew
      exact h.due id call hcall
    · exact h.due id' c hc
  · intro id' other phase₀ hunderway
    obtain ⟨phase₁, hunderway, -⟩ := hold hunderway
    exact h.owned id' other phase₁ hunderway
  · intro id₁ id₂ r₁ r₂ p₁ p₂ h₁ h₂
    obtain ⟨q₁, h₁, -⟩ := hold h₁
    obtain ⟨q₂, h₂, -⟩ := hold h₂
    exact h.alone id₁ id₂ r₁ r₂ q₁ q₂ h₁ h₂
  · intro id' other hunderway
    obtain ⟨phase₁, hunderway, hclaimed⟩ := hold hunderway
    rw [hclaimed rfl] at hunderway
    exact h.claimed id' other hunderway

theorem claim (hkeys : Rows.UniqueKey (·.idempotencyKey) rows) (hcall : f.calls id = some call)
    (hrecords : call.records = record :: rest) (hrow : row ∈ rows)
    (hkey : row.idempotencyKey = record.idempotencyKey) (hstatus : row.status = .sending)
    (hattempts : row.attemptCount = record.attemptCount + 1)
    (hnext : row.nextAttemptAtMs = record.nextAttemptAtMs)
    (hfree : ∀ id' other phase, f.Underway id' other phase →
      other.idempotencyKey ≠ record.idempotencyKey)
    (hsends : (f.sendsOf row.idempotencyKey : Int) + 1 ≤ row.attemptCount) :
    Booked rows (f.setCall id (some { call with attempt := some .claimed })) := by
  have hold : ∀ {id' other phase},
      (f.setCall id (some { call with attempt := some .claimed })).Underway id' other phase →
      (id' = id ∧ other = record) ∨ f.Underway id' other phase := by
    intro id' other phase hunderway
    rcases underway_setCall hunderway with ⟨rfl, c, hc, heq⟩ | ⟨-, hunderway⟩
    · cases hc
      simp only [Call.current, hrecords, Option.some.injEq, Prod.mk.injEq] at heq
      exact .inl ⟨rfl, heq.1.symm⟩
    · exact .inr hunderway
  obtain ⟨hnow, hdue⟩ := h.due id call hcall
  refine ⟨?_, ?_, ?_, h.counted, ?_, h.started, h.sent⟩
  · intro id' c hc
    rcases calls_setCall hc with ⟨-, hnew⟩ | hc
    · cases hnew
      exact ⟨hnow, hdue⟩
    · exact h.due id' c hc
  · intro id' other phase hunderway
    rcases hold hunderway with ⟨-, rfl⟩ | hunderway
    · refine ⟨(hdue other ?_).trans hnow, row, hrow, hkey, .inl hstatus, hattempts, hnext⟩
      rw [hrecords]
      exact List.mem_cons_self
    · exact h.owned id' other phase hunderway
  · intro id₁ id₂ r₁ r₂ p₁ p₂ h₁ h₂ heq
    rcases hold h₁ with ⟨rfl, rfl⟩ | hu₁
    · rcases hold h₂ with ⟨rfl, rfl⟩ | hu₂
      · rfl
      · exact absurd heq.symm (hfree id₂ r₂ p₂ hu₂)
    · rcases hold h₂ with ⟨rfl, rfl⟩ | hu₂
      · exact absurd heq (hfree id₁ r₁ p₁ hu₁)
      · exact h.alone id₁ id₂ r₁ r₂ p₁ p₂ hu₁ hu₂ heq
  · intro id' other hunderway row' hrow' heq
    rcases hold hunderway with ⟨-, rfl⟩ | hunderway
    · obtain rfl := hkeys.eq_of_key_eq hrow' hrow (heq.trans hkey.symm)
      exact hsends
    · exact h.claimed id' other hunderway row' hrow' heq

theorem send (hkeys : Rows.UniqueKey (·.idempotencyKey) rows) (hcall : f.calls id = some call)
    (hcurrent : call.current = some (record, .claimed)) :
    Booked rows
      { f.setCall id (some { call with attempt := some .sending }) with
        sends := f.sends ++
          [{ idempotencyKey := record.idempotencyKey
             call := id
             atMs := f.clock
             dueAtMs := (rows.find? (·.idempotencyKey == record.idempotencyKey)).map
               (·.nextAttemptAtMs) }] } := by
  have hunderway : f.Underway id record .claimed := ⟨call, hcall, hcurrent⟩
  obtain ⟨hdue, row, hrow, hkey, -, hattempts, hnext⟩ := h.owned id record .claimed hunderway
  have hfind : rows.find? (·.idempotencyKey == record.idempotencyKey) = some row := by
    refine hkeys.find?_eq_some hrow (by simpa using hkey) fun other _ hother => ?_
    exact (beq_iff_eq.mp hother).trans hkey.symm
  have hphase := h.setPhase .sending hcall hcurrent (by simp)
  have hmine : (f.setCall id (some { call with attempt := some .sending })).Underway id record
      .sending := by
    refine ⟨{ call with attempt := some .sending }, by simp [Flushing.setCall], ?_⟩
    exact Call.current_eq_some.mpr ⟨(Call.current_eq_some.mp hcurrent).1, rfl⟩
  rw [hfind]
  refine ⟨hphase.due, hphase.owned, hphase.alone, ?_, ?_, ?_, ?_⟩
  · intro other hother
    obtain ⟨hsends, hmax, hpending⟩ := h.counted other hother
    refine ⟨?_, hmax, hpending⟩
    by_cases heq : other.idempotencyKey = record.idempotencyKey
    · have hroom := h.claimed id record hunderway other hother heq
      simpa [Flushing.sendsOf, List.countP_append, heq] using hroom
    · have hother' : ¬ record.idempotencyKey = other.idempotencyKey := fun h => heq h.symm
      simpa [Flushing.sendsOf, List.countP_append, hother'] using hsends
  · intro id' other hclaimed row' hrow' heq
    have hother' : ¬ record.idempotencyKey = row'.idempotencyKey := by
      intro hsame
      have hid : id' = id := hphase.alone id' id other record .claimed .sending hclaimed hmine
        (heq.symm.trans hsame.symm)
      subst hid
      obtain ⟨c, hc, hcurrent'⟩ := hclaimed
      obtain ⟨c', hc', hcurrent''⟩ := hmine
      cases hc.symm.trans hc'
      rw [hcurrent'] at hcurrent''
      cases hcurrent''
    have hroom := hphase.claimed id' other hclaimed row' hrow' heq
    simpa [Flushing.sendsOf, Flushing.setCall, List.countP_append, hother'] using hroom
  · refine List.forall_mem_append.mpr ⟨h.started, List.forall_mem_singleton.mpr ?_⟩
    exact ⟨row.nextAttemptAtMs, rfl, hnext.le.trans hdue⟩
  · exact List.forall_mem_append.mpr ⟨h.sent, List.forall_mem_singleton.mpr ⟨row, hrow, hkey⟩⟩

theorem of_world (world : World) : Booked rows { f with world := world } :=
  ⟨h.due, h.owned, h.alone, h.counted, h.claimed, h.started, h.sent⟩

theorem tick {now : Int} (hnow : f.clock ≤ now) : Booked rows { f with clock := now } := by
  refine ⟨?_, ?_, h.alone, h.counted, h.claimed, h.started, h.sent⟩
  · intro id call hcall
    obtain ⟨hcalled, hrecords⟩ := h.due id call hcall
    exact ⟨hcalled.trans hnow, hrecords⟩
  · intro id record phase hunderway
    obtain ⟨hdue, hrow⟩ := h.owned id record phase hunderway
    exact ⟨hdue.trans hnow, hrow⟩

end Booked

/-! ## Rows and tasks -/

def FinalOutboxStatus.shown : FinalOutboxStatus → DeliveryState
  | .sent => .sent
  | .failedTerminal => .failed
  | _ => .pending

def AcpDb.Delivered (db : AcpDb) : Prop :=
  ∀ row ∈ db.outbox, ∃ record, db.record? row.runId = some record ∧ record.state = .finished ∧
    record.delivery.state = row.status.shown

variable {w : World}

theorem World.Replies.uniqueRun (h : w.Replies) :
    Rows.UniqueKey (·.runId) w.db.outbox := by
  have hruns : (w.db.bindings.map (·.runId)).Nodup := by
    rw [List.nodup_iff_count_le_one]
    intro run
    have hcount := h.counted run
    rw [List.count, List.countP_map]
    refine hcount.le.trans ?_
    split <;> simp
  unfold AcpDb.bindings at hruns
  rw [List.map_map] at hruns
  exact hruns

theorem World.Replies.uniqueKey (h : w.Replies) :
    Rows.UniqueKey (·.idempotencyKey) w.db.outbox := by
  refine (List.nodup_map_iff_inj_on (List.Nodup.of_map _ h.uniqueRun)).mpr ?_
  intro row hrow row' hrow' hkey
  obtain ⟨work, hwork, heq⟩ := h.bound row.binding (List.mem_map_of_mem hrow)
  obtain ⟨work', hwork', heq'⟩ := h.bound row'.binding (List.mem_map_of_mem hrow')
  refine h.uniqueRun.eq_of_key_eq hrow hrow' ?_
  have hkeys : work.binding.idempotencyKey = work'.binding.idempotencyKey := by
    rw [← heq, ← heq']
    exact hkey
  calc row.runId = work.binding.runId := congrArg ReplyBinding.runId heq
    _ = work'.binding.runId := h.runId_of_key hwork hwork' hkeys
    _ = row'.runId := congrArg ReplyBinding.runId heq'.symm

theorem World.Replies.row_ended (h : w.Replies) (hrow : row ∈ w.db.outbox) :
    ended (w.db.record? row.runId) = true := by
  by_contra hlive
  exact h.unreplied (Bool.not_eq_true _ ▸ hlive) row.binding (List.mem_map_of_mem hrow) rfl

inductive Queues (db db' : AcpDb) : Prop
  | same (hrows : db'.outbox = db.outbox)
      (hrecords : ∀ row ∈ db.outbox, db'.record? row.runId = db.record? row.runId) : Queues db db'
  | queued (row : RuntimeFinalOutboxRecord) (hrows : db'.outbox = db.outbox ++ [row])
      (hrecords : ∀ row ∈ db.outbox, db'.record? row.runId = db.record? row.runId)
      (hfresh : ∀ old ∈ db.outbox, old.idempotencyKey ≠ row.idempotencyKey)
      (hcount : row.attemptCount = 0) (hstatus : row.status = .pending)
      (hrecord : ∃ record, db'.record? row.runId = some record ∧ record.state = .finished ∧
        record.delivery.state = .pending) : Queues db db'

section Transactions

variable {key : String} {validate : Question → Json → Except String Json} {hash : String → String}

variable {op : Operation}

theorem Operation.delivered_of_not_delivery (h : op.isDelivery = false)
    (rows : List RuntimeFinalOutboxRecord) : op.delivered rows = rows := by
  cases op <;> first | rfl | cases h

theorem Operation.closes_of_not_delivery (h : op.isDelivery = false) :
    op.closes = false := by
  cases op <;> first | rfl | cases h

theorem World.Replies.queues {w w' : World} (h : w.Replies) (hvalid : w.Valid)
    (hhosted : op.Hosted hash w) (hdelivery : op.isDelivery = false)
    (hstep : w.step key validate op = some w') : Queues w.db w'.db := by
  obtain ⟨hop, -, -, hcases⟩ := World.step_cases hstep
  rcases hcases with ⟨reply, hperform, -, -⟩ | ⟨hdb, -, -⟩
  · cases Operation.perform_effect hop hvalid.clean hperform with
    | still _ hsession hrecords hrows hkept =>
      refine .same (hrows.trans (op.delivered_of_not_delivery hdelivery _)) fun row _ => ?_
      exact hkept (op.closes_of_not_delivery hdelivery) row.runId
    | moved s s' hrow hpending hchange hsession hrecords hrows =>
      have hkept : ∀ row ∈ w.db.outbox, w'.db.record? row.runId = w.db.record? row.runId := by
        intro row hmem
        rw [hrecords row.runId]
        exact writes_of_ended (h.row_ended hmem) _
      cases hchange with
      | finish hreplying hcomplete =>
        rename_i record now work next
        unfold Operation.replies at hrows
        cases hstopping : s.stopping with
        | true => exact .same (by simpa [hstopping] using hrows) hkept
        | false =>
          have hs : w.db.session = some s := by
            rcases hrow with hs | ⟨-, hidle, -⟩
            · exact hs
            · cases hidle.symm.trans hreplying.active
          have hbinding := h.binding_of_hosted hhosted hs hreplying
          have hfresh := h.fresh hvalid hs hreplying.active hbinding
          have hlive : ended (w.db.record? record.runId) = false := by
            have hslot : w.slots.active = some work.runId := by
              simp [World.slots, AcpDb.activeRun, hs, hreplying.active]
            rw [← hreplying.runId]
            simpa [World.slots, AcpDb.endedRuns] using (hvalid.slots.active _ hslot).2.2
          refine .queued (record.inserted now) ?_ hkept ?_ rfl rfl ?_
          · simpa [hstopping, Rows.upsertWhere, hfresh] using hrows
          · intro old hold heq
            have hany := List.any_eq_false.mp hfresh old hold
            exact hany (beq_iff_eq.mpr heq)
          · rw [hstopping] at hcomplete
            obtain ⟨new, hnew, hstate⟩ := record_of_complete hcomplete hpending hlive
            exact ⟨new, (hrecords _).trans hnew, hstate⟩
      | _ => exact .same hrows hkept
  · refine .same (by rw [hdb]) fun row _ => ?_
    rw [hdb]

theorem Operation.hosted_of_delivery (h : op.isDelivery = true) (w : World) :
    op.Hosted hash w := by
  cases op <;> trivial

theorem World.step_enabled (w : World) (key : String)
    (validate : Question → Json → Except String Json) (hdelivery : op.isDelivery = true) :
    ∃ w', w.step key validate op = some w' := by
  have hop : op.wellFormed = true ∧ op.admitted = none := by
    cases op <;> first | exact ⟨rfl, rfl⟩ | cases hdelivery
  unfold World.step
  dsimp only
  rw [if_pos ⟨hop.1, by simp [hop.2]⟩]
  split <;> exact ⟨_, rfl⟩

theorem World.Valid.delivery_cases {w w' : World} (hvalid : w.Valid)
    (hdelivery : op.isDelivery = true) (hstep : w.step key validate op = some w') :
    (∃ reply, (op.perform key validate).run w.db = .ok reply w'.db ∧
        w'.db.outbox = op.delivered w.db.outbox) ∨
      (w'.db = w.db ∧ ∃ e, (op.perform key validate).run w.db = .error e w.db) := by
  obtain ⟨hop, -, -, hcases⟩ := World.step_cases hstep
  rcases hcases with ⟨reply, hperform, -, -⟩ | ⟨hdb, -, -, herror⟩
  · refine .inl ⟨reply, hperform, ?_⟩
    cases Operation.perform_effect hop hvalid.clean hperform with
    | still _ _ _ hrows => exact hrows
    | moved s s' _ _ hchange => cases hchange <;> cases hdelivery
  · exact .inr ⟨hdb, herror⟩

end Transactions

theorem deliveryIn_succeeds {db : AcpDb} {record : TaskRecord}
    (hrow : db.outbox.find? (·.idempotencyKey == idempotencyKey) = some row)
    (hrecord : db.record? row.runId = some record) (hstate : record.state = .finished)
    (e : String) (db' : AcpDb) :
    (deliveryIn idempotencyKey state messageId).run db ≠ .error e db' := by
  intro herror
  unfold deliveryIn at herror
  rw [run_bind_of_ok (query_ok.mpr ⟨rfl, rfl⟩), hrow,
    run_bind_of_ok (orError_ok.mpr ⟨rfl, rfl⟩), run_bind_of_ok (query_ok.mpr ⟨rfl, rfl⟩),
    hrecord] at herror
  dsimp only at herror
  split at herror
  · cases herror
  · rw [if_neg (not_not.mpr hstate)] at herror
    rcases bind_error.mp herror with hexecute | ⟨_, _, -, hqueue⟩
    · cases hexecute
    · unfold queue at hqueue
      split at hqueue <;> cases hqueue

namespace AcpDb.Delivered

variable {db db' : AcpDb}

theorem queues (h : db.Delivered) (hqueues : Queues db db') : db'.Delivered := by
  cases hqueues with
  | same hrows hrecords =>
    intro row hrow
    rw [hrows] at hrow
    rw [hrecords row hrow]
    exact h row hrow
  | queued new hrows hrecords hfresh hcount hstatus hrecord =>
    intro row hrow
    rw [hrows] at hrow
    rcases List.mem_append.mp hrow with hold | hnew
    · rw [hrecords row hold]
      exact h row hold
    · obtain rfl := List.mem_singleton.mp hnew
      obtain ⟨record, hrecord, hstate, hshown⟩ := hrecord
      exact ⟨record, hrecord, hstate, hshown.trans (by rw [hstatus]; rfl)⟩

variable {g : RuntimeFinalOutboxRecord → RuntimeFinalOutboxRecord}

theorem update (h : db.Delivered) (hrows : db'.outbox = Rows.updateWhere p g db.outbox)
    (hrecords : db'.record? = db.record?) (hrun : ∀ row, (g row).runId = row.runId)
    (hstatus : ∀ row, p row = true → (g row).status.shown = row.status.shown) : db'.Delivered := by
  intro row hrow
  rw [hrows] at hrow
  obtain ⟨old, hold, rfl⟩ := Rows.mem_updateWhere.mp hrow
  obtain ⟨record, hrecord, hstate, hshown⟩ := h old hold
  rw [hrecords]
  split
  · rename_i hp
    rw [hrun, hstatus old hp]
    exact ⟨record, hrecord, hstate, hshown⟩
  · exact ⟨record, hrecord, hstate, hshown⟩

theorem close (h : db.Delivered) (hruns : Rows.UniqueKey (·.runId) db.outbox)
    (hkeys : Rows.UniqueKey (·.idempotencyKey) db.outbox) {updated : Bool}
    (hclose : (closeOutbox idempotencyKey allowed g state messageId).run db = .ok updated db')
    (hkey : ∀ row, (g row).idempotencyKey = row.idempotencyKey)
    (hrun : ∀ row, (g row).runId = row.runId) (hshown : ∀ row, (g row).status.shown = state) :
    db'.Delivered := by
  obtain ⟨-, hrows, ⟨-, hrecords, hsame⟩ | ⟨-, hany, closed, hclosed, hrecords⟩⟩ :=
    closeOutbox_ok hclose
  · intro row hrow
    rw [hsame] at hrow
    obtain ⟨record, hrecord, hfinished⟩ := h row hrow
    exact ⟨record, by rw [← hrecord, AcpDb.record?, AcpDb.record?, hrecords], hfinished⟩
  · -- the row that was found is the one that matched
    obtain ⟨target, htarget, hmatch⟩ := List.any_eq_true.mp hany
    simp only [Bool.and_eq_true, beq_iff_eq] at hmatch
    have hkeys' : Rows.UniqueKey (·.idempotencyKey) db'.outbox := by
      rw [hrows]
      exact hkeys.updateWhere hkey
    have hnew : g target ∈ db'.outbox := by
      rw [hrows]
      exact Rows.mem_updateWhere.mpr ⟨target, htarget, by simp [hmatch]⟩
    have hfound : closed = g target := by
      refine hkeys'.eq_of_key_eq (List.mem_of_find?_eq_some hclosed) hnew ?_
      have hclosedKey : closed.idempotencyKey = idempotencyKey := by
        simpa using List.find?_some hclosed
      exact hclosedKey.trans (hmatch.1.symm.trans (hkey target).symm)
    intro row hrow
    rw [hrows] at hrow
    obtain ⟨old, hold, rfl⟩ := Rows.mem_updateWhere.mp hrow
    obtain ⟨record, hrecord, hfinished, hold'⟩ := h old hold
    by_cases heq : old = target
    · subst heq
      rw [if_pos (by simp [hmatch]), hrecords, hfound, hrun, hrecord]
      refine ⟨record.delivered state messageId, by simp, ?_⟩
      rw [hshown]
      unfold TaskRecord.delivered
      split
      · rename_i hsame
        exact ⟨hfinished, hsame⟩
      · exact ⟨hfinished, rfl⟩
    · have hother : ¬ (old.idempotencyKey = idempotencyKey) := fun hkey' =>
        heq (hkeys.eq_of_key_eq hold htarget (hkey'.trans hmatch.1.symm))
      have hother' : ¬ old.runId = target.runId := fun hrun' =>
        heq (hruns.eq_of_key_eq hold htarget hrun')
      rw [if_neg (by simp [hother]), hrecords, hfound, hrun, hrecord]
      exact ⟨record, by simp [hother'], hfinished, hold'⟩

theorem close_succeeds (h : db.Delivered) (hrow : row ∈ db.outbox)
    (hkey : ∀ row, (g row).idempotencyKey = row.idempotencyKey)
    (hrun : ∀ row, (g row).runId = row.runId) (e : String) :
    (closeOutbox row.idempotencyKey allowed g state messageId).run db ≠ .error e db' := by
  intro herror
  obtain ⟨u, hbody⟩ := body_of_immediate_error herror
  rcases bind_error.mp hbody with hupdate | ⟨updated, t, hupdate, hrest⟩
  · cases hupdate
  · obtain ⟨-, rfl⟩ := updateOutbox_ok hupdate
    have hfinds : ∀ {key : String} {found : RuntimeFinalOutboxRecord},
        (Rows.updateWhere (fun row => row.idempotencyKey == key && allowed row.status) g
          db.outbox).find? (·.idempotencyKey == key) = some found →
        ∃ record, db.record? found.runId = some record ∧ record.state = .finished := by
      intro key found hfind
      obtain ⟨old, hold, rfl⟩ := Rows.mem_updateWhere.mp (List.mem_of_find?_eq_some hfind)
      obtain ⟨record, hrecord, hstate, -⟩ := h old hold
      refine ⟨record, ?_, hstate⟩
      split
      · rw [hrun]
        exact hrecord
      · exact hrecord
    have hlisted : ∃ found, (Rows.updateWhere (fun other =>
        other.idempotencyKey == row.idempotencyKey && allowed other.status) g db.outbox).find?
          (·.idempotencyKey == row.idempotencyKey) = some found := by
      refine Option.isSome_iff_exists.mp (List.find?_isSome.mpr ?_)
      refine ⟨_, Rows.mem_updateWhere.mpr ⟨row, hrow, rfl⟩, ?_⟩
      split
      · simp [hkey]
      · simp
    obtain ⟨found, hfound⟩ := hlisted
    obtain ⟨record, hrecord, hstate⟩ := hfinds hfound
    split at hrest
    · rcases bind_error.mp hrest with hdelivery | ⟨_, _, -, hpure⟩
      · refine absurd hdelivery (deliveryIn_succeeds hfound ?_ hstate _ _)
        exact hrecord
      · cases hpure
    · rcases bind_error.mp hrest with hexists | ⟨_, _, -, hpure⟩
      · rcases bind_error.mp hexists with hquery | ⟨known, _, hquery, hrefuse⟩
        · cases hquery
        · obtain ⟨rfl, rfl⟩ := query_ok.mp hquery
          have hknown : (Rows.updateWhere (fun other =>
              other.idempotencyKey == row.idempotencyKey && allowed other.status) g
                db.outbox).any (·.idempotencyKey == row.idempotencyKey) = true :=
            List.any_eq_true.mpr
              ⟨found, List.mem_of_find?_eq_some hfound, by simpa using List.find?_some hfound⟩
          dsimp only at hrefuse
          rw [hknown] at hrefuse
          cases hrefuse
      · cases hpure

end AcpDb.Delivered

section Transactions

variable {key : String} {validate : Question → Json → Except String Json} {hash : String → String}

theorem AcpDb.Delivered.step {w w' : World} (h : w.db.Delivered) (hreplies : w.Replies)
    (hvalid : w.Valid) (hhosted : op.Hosted hash w) (hstep : w.step key validate op = some w') :
    w'.db.Delivered := by
  cases hdelivery : op.isDelivery with
  | false => exact h.queues (hreplies.queues hvalid hhosted hdelivery hstep)
  | true =>
    rcases hvalid.delivery_cases hdelivery hstep with ⟨reply, hperform, hrows⟩ | ⟨hdb, -⟩
    · have hkept : op.closes = false → w'.db.record? = w.db.record? := by
        intro hcloses
        obtain ⟨hop, -⟩ := World.step_cases hstep
        cases Operation.perform_effect hop hvalid.clean hperform with
        | still _ _ _ _ hkept => exact funext (hkept hcloses)
        | moved s s' _ _ hchange => cases hchange <;> cases hdelivery
      cases op with
      | markSending =>
        refine h.update hrows (hkept rfl) (fun _ => rfl) fun row hp => ?_
        have hpending : row.status = .pending := by simp_all
        rw [hpending]
        rfl
      | markRetry =>
        refine h.update hrows (hkept rfl) (fun _ => rfl) fun row hp => ?_
        have hsending : row.status = .sending := by simp_all
        rw [hsending]
        rfl
      | recoverStaleSending =>
        refine h.update hrows (hkept rfl) (fun _ => rfl) fun row hp => ?_
        have hsending : row.status = .sending := by
          simp only [RuntimeFinalOutboxRecord.stale, Bool.and_eq_true, beq_iff_eq] at hp
          exact hp.1
        rw [hsending]
        rfl
      | markSent | markFailedTerminal =>
        obtain ⟨_, hmark, -⟩ := bind_pure_ok.mp hperform
        exact h.close hreplies.uniqueRun hreplies.uniqueKey hmark (fun _ => rfl)
          (fun _ => rfl) fun _ => rfl
      | _ => cases hdelivery
    · rw [hdb]
      exact h

end Transactions

/-! ## Runs -/

section Stepping

variable {key : String} {validate : Question → Json → Except String Json} {hash : String → String}

structure World.Sound (w : World) : Prop where
  valid : w.Valid
  replies : w.Replies
  delivered : w.db.Delivered

variable {op : Operation} {f f' : Flushing} {row : RuntimeFinalOutboxRecord}

theorem World.Sound.step {w w' : World} (h : w.Sound) (hhosted : op.Hosted hash w)
    (hstep : w.step key validate op = some w') : w'.Sound :=
  ⟨h.valid.step hstep, h.replies.step h.valid hhosted hstep,
    h.delivered.step h.replies h.valid hhosted hstep⟩

/-- What holds between two steps of the daemon, as long as it is undisturbed. -/
structure Flushing.Inv (f : Flushing) : Prop extends World.Sound f.world where
  booked : Booked f.world.db.outbox f

theorem Flushing.inv_empty : Flushing.Inv {} := by
  refine ⟨⟨World.valid_empty, World.replies_empty, ?_⟩, booked_empty⟩
  intro row hrow
  cases hrow

theorem Flushing.transact_ok {reply : Option Reply}
    (h : f.transact key validate op = some (f', reply)) :
    ∃ world, f.world.step key validate op = some world ∧ f' = { f with world := world } ∧
      reply = match (op.perform key validate).run f.world.db with
        | .ok reply _ => some reply
        | .error _ _ => none := by
  unfold Flushing.transact at h
  cases hstep : f.world.step key validate op with
  | none => simp [hstep] at h
  | some world =>
    simp only [hstep, Option.bind_eq_bind, Option.bind_some, Option.pure_def, Option.some.injEq,
      Prod.mk.injEq] at h
    obtain ⟨rfl, rfl⟩ := h
    exact ⟨world, rfl, rfl, rfl⟩

theorem Flushing.callTransact_ok {id : Nat} {next : Reply → Call}
    (h : f.callTransact key validate id op next = some f') :
    ∃ world reply, f.world.step key validate op = some world ∧
      f' = { f.setCall id (reply.map next) with world := world } ∧
      reply = match (op.perform key validate).run f.world.db with
        | .ok reply _ => some reply
        | .error _ _ => none := by
  unfold Flushing.callTransact at h
  obtain ⟨⟨g, reply⟩, htransact, hreturn⟩ := Option.bind_eq_some_iff.mp h
  obtain ⟨world, hstep, rfl, hreply⟩ := Flushing.transact_ok htransact
  cases hreturn
  exact ⟨world, reply, hstep, rfl, hreply⟩

inductive Flushing.Steps (key : String) (validate : Question → Json → Except String Json)
    (f : Flushing) : FlushEvent → Flushing → Prop
  | tick {now : Int} (hnow : f.clock ≤ now) :
      Steps key validate f (.tick now) { f with clock := now }
  | daemon {op : Operation} {world : World} (hdelivery : op.isDelivery = false)
      (hworld : f.world.step key validate op = some world) :
      Steps key validate f (.daemon op) { f with world := world }
  | recover {now : Int} {world : World}
      (hworld : f.world.step key validate
        (.recoverStaleSending (now - sendingStaleMs) now f.clock) = some world) :
      Steps key validate f (.recover now) { f with world := world }
  | list {id limit : Nat} {now : Int} (hnow : now ≤ f.clock) :
      Steps key validate f (.list id now limit)
        (f.setCall id (some { now, records := listDue now limit f.world.db.outbox }))
  | fence {id : Nat} {errorCode errorSummary idempotencyKey : String} {call : Call} {world : World}
      {reply : Option Reply} (hcall : f.calls id = some call)
      (hworld : f.world.step key validate
        (.markFailedTerminal idempotencyKey errorCode errorSummary f.clock) = some world) :
      Steps key validate f (.fence id errorCode errorSummary)
        { f.setCall id (reply.map fun _ => call.next) with world := world }
  | claim {id : Nat} {call : Call} {record : RuntimeFinalOutboxRecord}
      {rest : List RuntimeFinalOutboxRecord} {world : World} {reply : Option Reply}
      (hcall : f.calls id = some call) (hrecords : call.records = record :: rest)
      (hworld : f.world.step key validate (.markSending record.idempotencyKey f.clock) = some world)
      (hreply : reply = match ((Operation.markSending record.idempotencyKey f.clock).perform key
          validate).run f.world.db with
        | .ok reply _ => some reply
        | .error _ _ => none) :
      Steps key validate f (.claim id)
        { f.setCall id (reply.map fun reply =>
            match reply with
            | .updated true => { call with attempt := some .claimed }
            | _ => call.next) with world := world }
  | send {id : Nat} {call : Call} {record : RuntimeFinalOutboxRecord}
      (hcall : f.calls id = some call) (hcurrent : call.current = some (record, .claimed)) :
      Steps key validate f (.send id)
        { f.setCall id (some { call with attempt := some .sending }) with
          sends := f.sends ++
            [{ idempotencyKey := record.idempotencyKey
               call := id
               atMs := f.clock
               dueAtMs := (f.world.db.outbox.find?
                 (·.idempotencyKey == record.idempotencyKey)).map (·.nextAttemptAtMs) }] }
  | answer {id : Nat} {call : Call} {record : RuntimeFinalOutboxRecord}
      {result : Except String (Option String)} (hcall : f.calls id = some call)
      (hcurrent : call.current = some (record, .sending)) :
      Steps key validate f (.answer id result)
        (f.setCall id (some { call with attempt := some (.answered result) }))
  | mark {id : Nat} {call : Call} {record : RuntimeFinalOutboxRecord}
      {result : Except String (Option String)} {world : World} {reply : Option Reply}
      (hcall : f.calls id = some call) (hcurrent : call.current = some (record, .answered result))
      (hworld : f.world.step key validate (Flushing.markOperation call record result f.clock) =
        some world) :
      Steps key validate f (.mark id)
        { f.setCall id (reply.map fun _ => call.next) with world := world }
  | drop {id : Nat} : Steps key validate f (.drop id) (f.setCall id none)

theorem Flushing.step_cases (h : f.step key validate e = some f') :
    Flushing.Steps key validate f e f' := by
  cases e with
  | tick now =>
    unfold Flushing.step at h
    dsimp only at h
    split at h
    · rename_i hnow
      cases h
      exact .tick hnow
    · cases h
  | daemon op =>
    unfold Flushing.step at h
    dsimp only at h
    split at h
    · cases h
    · rename_i hdelivery
      obtain ⟨⟨g, reply⟩, htransact, hreturn⟩ := Option.bind_eq_some_iff.mp h
      obtain ⟨world, hworld, rfl, -⟩ := Flushing.transact_ok htransact
      cases hreturn
      exact .daemon (Bool.not_eq_true _ ▸ hdelivery) hworld
  | recover now =>
    unfold Flushing.step at h
    dsimp only at h
    split at h
    · obtain ⟨⟨g, reply⟩, htransact, hreturn⟩ := Option.bind_eq_some_iff.mp h
      obtain ⟨world, hworld, rfl, -⟩ := Flushing.transact_ok htransact
      cases hreturn
      exact .recover hworld
    · cases h
  | list id now limit =>
    unfold Flushing.step at h
    dsimp only at h
    split at h
    · rename_i hguard
      cases h
      exact .list hguard.1
    · cases h
  | fence id errorCode errorSummary =>
    obtain ⟨call, hcall, h⟩ := Option.bind_eq_some_iff.mp h
    split at h
    · obtain ⟨world, reply, hworld, rfl, -⟩ := Flushing.callTransact_ok h
      exact .fence hcall hworld
    · cases h
  | claim id =>
    obtain ⟨call, hcall, h⟩ := Option.bind_eq_some_iff.mp h
    split at h
    · rename_i record rest hrecords hattempt
      obtain ⟨world, reply, hworld, rfl, hreply⟩ := Flushing.callTransact_ok h
      exact .claim hcall hrecords hworld hreply
    · cases h
  | send id =>
    obtain ⟨call, hcall, h⟩ := Option.bind_eq_some_iff.mp h
    split at h
    · rename_i record hcurrent
      cases h
      exact .send hcall hcurrent
    · cases h
  | answer id result =>
    obtain ⟨call, hcall, h⟩ := Option.bind_eq_some_iff.mp h
    split at h
    · rename_i record hcurrent
      cases h
      exact .answer hcall hcurrent
    · cases h
  | mark id =>
    obtain ⟨call, hcall, h⟩ := Option.bind_eq_some_iff.mp h
    split at h
    · rename_i record result hcurrent
      obtain ⟨world, reply, hworld, rfl, -⟩ := Flushing.callTransact_ok h
      exact .mark hcall hcurrent hworld
    · cases h
  | drop id =>
    cases h
    exact .drop

namespace Flushing.Inv

variable {f f' : Flushing}

variable {world : World} {id : Nat} {record : RuntimeFinalOutboxRecord} {now : Int} {call : Call}
  {reply : Option Reply}

theorem daemon (h : f.Inv) (hhosted : op.Hosted hash f.world) (hdelivery : op.isDelivery = false)
    (hstep : f.world.step key validate op = some world) :
    Flushing.Inv { f with world := world } := by
  refine ⟨h.toSound.step hhosted hstep, ?_⟩
  cases h.replies.queues h.valid hhosted hdelivery hstep with
  | same hrows =>
    have hbooked := h.booked.of_world world
    rw [← hrows] at hbooked
    exact hbooked
  | queued row hrows _ hfresh hcount =>
    have hbooked := (h.booked.append hfresh hcount).of_world world
    rw [← hrows] at hbooked
    exact hbooked

theorem row_of_underway (h : f.Inv) {phase : Phase} (hunderway : f.Underway id record phase)
    (hrow : row ∈ f.world.db.outbox) (hkey : row.idempotencyKey = record.idempotencyKey) :
    (row.status = .sending ∨ row.status = .failedTerminal) ∧
      row.attemptCount = record.attemptCount + 1 ∧
      row.nextAttemptAtMs = record.nextAttemptAtMs := by
  obtain ⟨-, other, hother, hother', hrest⟩ := h.booked.owned id record phase hunderway
  obtain rfl := h.replies.uniqueKey.eq_of_key_eq hrow hother (hkey.trans hother'.symm)
  exact hrest

theorem deliver (h : f.Inv) {g : Flushing} (hdelivery : op.isDelivery = true)
    (hstep : f.world.step key validate op = some world)
    (hbooked : (∃ e, (op.perform key validate).run f.world.db = .error e f.world.db) →
      Booked f.world.db.outbox g) (hupdate : Booked (op.delivered f.world.db.outbox) g) :
    Flushing.Inv { g with world := world } := by
  have hhosted : op.Hosted (fun text => text) f.world := Operation.hosted_of_delivery hdelivery _
  refine ⟨h.toSound.step hhosted hstep, Booked.of_world ?_ world⟩
  rcases h.valid.delivery_cases hdelivery hstep with ⟨reply, -, hrows⟩ | ⟨hdb, herror⟩
  · rw [hrows]
    exact hupdate
  · rw [hdb]
    exact hbooked herror

theorem recover (h : f.Inv)
    (hundisturbed : (FlushEvent.recover now).Undisturbed f)
    (hstep : f.world.step key validate
      (.recoverStaleSending (now - sendingStaleMs) now f.clock) = some world) :
    Flushing.Inv { f with world := world } := by
  refine h.deliver rfl hstep (fun _ => h.booked) (h.booked.update (fun _ => rfl) ?_ ?_)
  · intro row hrow hstale id record phase hunderway heq
    exact absurd heq ((hundisturbed row hrow hstale).2 id record phase hunderway)
  · intro row hrow hstale
    exact ⟨le_rfl, (h.booked.counted row hrow).2.1, fun _ => (hundisturbed row hrow hstale).1⟩

theorem fence (h : f.Inv) {errorCode errorSummary : String} (hcall : f.calls id = some call)
    (hstep : f.world.step key validate
      (.markFailedTerminal idempotencyKey errorCode errorSummary now) = some world) :
    Flushing.Inv { f.setCall id (reply.map fun _ => call.next) with world := world } := by
  have hbooked := h.booked.next hcall reply
  refine h.deliver rfl hstep (fun _ => hbooked) (hbooked.update (fun _ => rfl) ?_ ?_)
  · intro row hrow hopen id record phase hunderway heq
    exact ⟨.inr rfl, rfl, rfl⟩
  · intro row hrow hopen
    exact ⟨le_rfl, (h.booked.counted row hrow).2.1, fun hpending => by cases hpending⟩

theorem claim (h : f.Inv) (hcall : f.calls id = some call)
    (hrecords : call.records = record :: rest)
    (hundisturbed : (FlushEvent.claim id).Undisturbed f)
    (hstep : f.world.step key validate (.markSending record.idempotencyKey f.clock) = some world)
    (hreply : reply = match ((Operation.markSending record.idempotencyKey f.clock).perform key
        validate).run f.world.db with
      | .ok reply _ => some reply
      | .error _ _ => none) :
    Flushing.Inv
      { f.setCall id (reply.map fun reply =>
          match reply with
          | .updated true => { call with attempt := some .claimed }
          | _ => call.next) with world := world } := by
  have hkeys := h.replies.uniqueKey
  -- the row is pending, so nobody sends it and an attempt is left
  have hmarked : Booked ((Operation.markSending record.idempotencyKey f.clock).delivered
      f.world.db.outbox) f := by
    refine h.booked.update (fun _ => rfl) ?_ ?_
    · intro row hrow hpending id' other phase hunderway heq
      have hstatus : row.status = .pending := by
        simp only [Bool.and_eq_true, beq_iff_eq] at hpending
        exact hpending.2
      exact absurd heq (h.booked.unclaimed hkeys hrow hstatus hunderway)
    · intro row hrow hpending
      have hstatus : row.status = .pending := by
        simp only [Bool.and_eq_true, beq_iff_eq] at hpending
        exact hpending.2
      have hroom := (h.booked.counted row hrow).2.2 hstatus
      refine ⟨?_, ?_, fun hfalse => by cases hfalse⟩
      · show row.attemptCount ≤ row.attemptCount + 1
        omega
      · show row.attemptCount + 1 ≤ maxAttempts
        omega
  have hrun : ((Operation.markSending record.idempotencyKey f.clock).perform key validate).run
      f.world.db = .ok (.updated (f.world.db.outbox.any fun row =>
          row.idempotencyKey == record.idempotencyKey && row.status == .pending))
        { f.world.db with
          outbox := (Operation.markSending record.idempotencyKey f.clock).delivered
            f.world.db.outbox } := rfl
  have hsucceeds : (∃ e, ((Operation.markSending record.idempotencyKey f.clock).perform key
      validate).run f.world.db = .error e f.world.db) → False := by
    rintro ⟨e, herror⟩
    rw [hrun] at herror
    cases herror
  rw [hrun] at hreply
  subst hreply
  refine h.deliver rfl hstep (fun herror => (hsucceeds herror).elim) ?_
  cases hupdated : f.world.db.outbox.any fun row =>
      row.idempotencyKey == record.idempotencyKey && row.status == .pending with
  | false => exact hmarked.next hcall (some (.updated false))
  | true =>
    obtain ⟨row, hrow, hmatch⟩ := List.any_eq_true.mp hupdated
    have hmatch' := hmatch
    simp only [Bool.and_eq_true, beq_iff_eq] at hmatch'
    obtain ⟨hkey, hstatus⟩ := hmatch'
    obtain ⟨hattempts, hnext⟩ := hundisturbed call record rest hcall hrecords row hrow hkey hstatus
    have hclaimed : row.sending f.clock ∈ (Operation.markSending record.idempotencyKey
        f.clock).delivered f.world.db.outbox :=
      Rows.mem_updateWhere.mpr ⟨row, hrow, if_pos hmatch⟩
    refine hmarked.claim (hkeys.updateWhere fun _ => rfl) hcall hrecords hclaimed hkey rfl ?_
      hnext ?_ ?_
    · exact congrArg (· + 1) hattempts
    · intro id' other phase hunderway
      rw [← hkey]
      exact h.booked.unclaimed hkeys hrow hstatus hunderway
    · have hsends := (h.booked.counted row hrow).1
      show (f.sendsOf row.idempotencyKey : Int) + 1 ≤ row.attemptCount + 1
      omega

theorem mark (h : f.Inv)
    {result : Except String (Option String)}
    (hcall : f.calls id = some call) (hcurrent : call.current = some (record, .answered result))
    (hstep : f.world.step key validate (Flushing.markOperation call record result f.clock) =
      some world) :
    Flushing.Inv { f.setCall id (reply.map fun _ => call.next) with world := world } := by
  have hunderway : f.Underway id record (.answered result) := ⟨call, hcall, hcurrent⟩
  have hbooked := h.booked.next hcall reply
  -- the call was the only one that sent the row
  have hfree : ∀ row ∈ f.world.db.outbox, row.idempotencyKey = record.idempotencyKey →
      ∀ id' other phase, (f.setCall id (reply.map fun _ => call.next)).Underway id' other phase →
        other.idempotencyKey ≠ row.idempotencyKey := by
    intro row hrow hkey id' other phase hother heq
    rcases Booked.underway_setCall hother with ⟨rfl, c, hc, hcurrent'⟩ | ⟨hid, hother⟩
    · obtain ⟨_, -, rfl⟩ := Option.map_eq_some_iff.mp hc
      cases (Call.current_of_idle rfl).symm.trans hcurrent'
    · exact hid (h.booked.alone _ _ _ _ _ _ hother hunderway (heq.trans hkey))
  have hmatches : ∀ {row : RuntimeFinalOutboxRecord} {allowed : Bool},
      (row.idempotencyKey == record.idempotencyKey && allowed) = true →
      row.idempotencyKey = record.idempotencyKey := by
    intro row allowed hp
    simp only [Bool.and_eq_true, beq_iff_eq] at hp
    exact hp.1
  have hfenced : ∀ (g : RuntimeFinalOutboxRecord → RuntimeFinalOutboxRecord)
      (allowed : RuntimeFinalOutboxRecord → Bool),
      (∀ row, (g row).idempotencyKey = row.idempotencyKey) →
      (∀ row, (g row).attemptCount = row.attemptCount) →
      (∀ row, (g row).status = .pending → record.attemptCount + 1 < maxAttempts) →
      Booked (Rows.updateWhere (fun row => row.idempotencyKey == record.idempotencyKey &&
        allowed row) g f.world.db.outbox) (f.setCall id (reply.map fun _ => call.next)) := by
    intro g allowed hkey hattempts hretry
    refine hbooked.update hkey ?_ ?_
    · intro row hrow hp id' other phase hother heq
      exact absurd heq (hfree row hrow (hmatches hp) id' other phase hother)
    · intro row hrow hp
      rw [hattempts]
      refine ⟨le_rfl, (h.booked.counted row hrow).2.1, fun hpending => ?_⟩
      obtain ⟨-, hcount, -⟩ := h.row_of_underway hunderway hrow (hmatches hp)
      rw [hcount]
      exact hretry row hpending
  unfold Flushing.markOperation at hstep
  cases result with
  | ok messageId =>
    exact h.deliver rfl hstep (fun _ => hbooked)
      (hfenced _ _ (fun _ => rfl) (fun _ => rfl) fun _ hpending => by cases hpending)
  | error summary =>
    dsimp only at hstep
    split at hstep
    · exact h.deliver rfl hstep (fun _ => hbooked)
        (hfenced _ _ (fun _ => rfl) (fun _ => rfl) fun _ hpending => by cases hpending)
    · rename_i hleft
      exact h.deliver rfl hstep (fun _ => hbooked)
        (hfenced _ _ (fun _ => rfl) (fun _ => rfl) fun _ _ => not_le.mp hleft)

theorem list_due {limit : Nat} (h : record ∈ listDue now limit rows) :
    record.nextAttemptAtMs ≤ now := by
  have hsorted := List.mem_of_mem_take h
  have hfiltered := (List.mem_insertionSort _).mp hsorted
  have hmatch := (List.mem_filter.mp hfiltered).2
  simp only [Bool.and_eq_true, decide_eq_true_eq] at hmatch
  exact hmatch.2

theorem step (h : f.Inv) (hhosted : e.Hosted hash f) (hundisturbed : e.Undisturbed f)
    (hstep : f.step key validate e = some f') : f'.Inv := by
  cases Flushing.step_cases hstep with
  | tick hnow => exact ⟨h.toSound, h.booked.tick hnow⟩
  | daemon hdelivery hworld => exact h.daemon hhosted hdelivery hworld
  | recover hworld => exact h.recover hundisturbed hworld
  | list hnow =>
    refine ⟨h.toSound, h.booked.setCall _ _ fun c hc => ?_⟩
    cases hc
    exact ⟨Call.current_of_idle rfl, hnow, fun record hrecord => list_due hrecord⟩
  | fence hcall hworld => exact h.fence hcall hworld
  | claim hcall hrecords hworld hreply => exact h.claim hcall hrecords hundisturbed hworld hreply
  | send hcall hcurrent =>
    exact ⟨h.toSound, h.booked.send h.replies.uniqueKey hcall hcurrent⟩
  | answer hcall hcurrent =>
    exact ⟨h.toSound, h.booked.setPhase _ hcall hcurrent (by simp)⟩
  | mark hcall hcurrent hworld => exact h.mark hcall hcurrent hworld
  | drop =>
    exact ⟨h.toSound, h.booked.setCall _ none fun c hc => by cases hc⟩

end Flushing.Inv

theorem Operation.delivered_closed (op : Operation) (hrow : row ∈ rows)
    (hclosed : row.status.closed = true) : row ∈ op.delivered rows := by
  have hkept : ∀ {p : RuntimeFinalOutboxRecord → Bool}
      (g : RuntimeFinalOutboxRecord → RuntimeFinalOutboxRecord), p row = false →
      row ∈ Rows.updateWhere p g rows := by
    intro p g hp
    exact Rows.mem_updateWhere.mpr ⟨row, hrow, by simp [hp]⟩
  have hstatus : row.status = .sent ∨ row.status = .failedTerminal := by
    cases hs : row.status <;> simp_all [FinalOutboxStatus.closed]
  unfold Operation.delivered
  split
  · exact hkept _ (by rcases hstatus with hs | hs <;> simp [hs])
  · exact hkept _ (by rcases hstatus with hs | hs <;> simp [hs])
  · exact hkept _ (by rcases hstatus with hs | hs <;> simp [hs])
  · exact hkept _ (by rcases hstatus with hs | hs <;> simp [hs, FinalOutboxStatus.isOpen])
  · exact hkept _ (by rcases hstatus with hs | hs <;> simp [hs, RuntimeFinalOutboxRecord.stale])
  · exact hrow

theorem World.closed_step {w w' : World} (hvalid : w.Valid) (h : w.Replies)
    (hhosted : op.Hosted hash w) (hstep : w.step key validate op = some w')
    (hrow : row ∈ w.db.outbox) (hclosed : row.status.closed = true) : row ∈ w'.db.outbox := by
  cases hdelivery : op.isDelivery with
  | true =>
    rcases hvalid.delivery_cases hdelivery hstep with ⟨reply, -, hrows⟩ | ⟨hdb, -⟩
    · rw [hrows]
      exact op.delivered_closed hrow hclosed
    · rw [hdb]
      exact hrow
  | false =>
    cases h.queues hvalid hhosted hdelivery hstep with
    | same hrows =>
      rw [hrows]
      exact hrow
    | queued new hrows =>
      rw [hrows]
      exact List.mem_append_left _ hrow

theorem Flushing.markOperation_delivery (call : Call) (record : RuntimeFinalOutboxRecord)
    (result : Except String (Option String)) (clock : Int) :
    (Flushing.markOperation call record result clock).isDelivery = true := by
  unfold Flushing.markOperation
  split
  · rfl
  · dsimp only
    split <;> rfl

theorem Flushing.step_world (hhosted : e.Hosted hash f) (hstep : f.step key validate e = some f') :
    f'.world = f.world ∨ ∃ op : Operation, op.Hosted hash f.world ∧
      f.world.step key validate op = some f'.world := by
  cases Flushing.step_cases hstep with
  | tick | list | send | answer | drop => exact .inl rfl
  | daemon hdelivery hworld => exact .inr ⟨_, hhosted, hworld⟩
  | recover hworld | fence hcall hworld | claim hcall hrecords hworld =>
    exact .inr ⟨_, Operation.hosted_of_delivery rfl _, hworld⟩
  | mark hcall hcurrent hworld =>
    exact .inr ⟨_, Operation.hosted_of_delivery (Flushing.markOperation_delivery _ _ _ _) _, hworld⟩

theorem Flushing.closed_run {events : List FlushEvent} (h : f.world.Sound)
    (hrun : FlushRuns key validate hash f events f') (hrow : row ∈ f.world.db.outbox)
    (hclosed : row.status.closed = true) :
    row ∈ f'.world.db.outbox := by
  have hkept : f'.world.Sound ∧ row ∈ f'.world.db.outbox := by
    refine hrun.invariant (P := fun f => f.world.Sound ∧ row ∈ f.world.db.outbox) ?_ ⟨h, hrow⟩
    rintro g e g' ⟨hsound, hmem⟩ ⟨hhosted, hstep⟩
    rcases Flushing.step_world hhosted hstep with hsame | ⟨op, hop, hworld⟩
    · rw [hsame]
      exact ⟨hsound, hmem⟩
    · exact ⟨hsound.step hop hworld,
        World.closed_step hsound.valid hsound.replies hop hworld hmem hclosed⟩
  exact hkept.2

abbrev UndisturbedRuns (key : String) (validate : Question → Json → Except String Json)
    (hash : String → String) : Flushing → List FlushEvent → Flushing → Prop :=
  Run fun f e f' => (e.Hosted hash f ∧ e.Undisturbed f) ∧ f.step key validate e = some f'

namespace Flushing.Inv

variable {f : Flushing}

theorem sends_le (h : f.Inv) (k : String) : (f.sendsOf k : Int) ≤ maxAttempts := by
  by_cases hsent : ∃ send ∈ f.sends, send.idempotencyKey = k
  · obtain ⟨send, hsend, rfl⟩ := hsent
    obtain ⟨row, hrow, hkey⟩ := h.booked.sent send hsend
    obtain ⟨hcount, hmax, -⟩ := h.booked.counted row hrow
    rw [← hkey]
    exact hcount.trans hmax
  · have hnone : f.sendsOf k = 0 :=
      List.countP_eq_zero.mpr fun send hsend hkey => hsent ⟨send, hsend, beq_iff_eq.mp hkey⟩
    rw [hnone]
    decide

theorem last_failure (h : f.Inv) {id : Nat} {summary : String}
    (hunderway : f.Underway id record (.answered (.error summary)))
    (hsends : (f.sendsOf record.idempotencyKey : Int) = maxAttempts) :
    ∃ f', f.step key validate (.mark id) = some f' ∧ ∀ row ∈ f'.world.db.outbox,
      row.idempotencyKey = record.idempotencyKey → row.status = .failedTerminal := by
  obtain ⟨-, row, hrow, hkey, -, hattempts, -⟩ := h.booked.owned id record _ hunderway
  have hlast : maxAttempts ≤ record.attemptCount + 1 := by
    rw [← hattempts, ← hsends, ← hkey]
    exact (h.booked.counted row hrow).1
  obtain ⟨call, hcall, hcurrent⟩ := hunderway
  have hstep : ∃ f', f.step key validate (.mark id) = some f' := by
    obtain ⟨world, hworld⟩ := f.world.step_enabled key validate
      (Flushing.markOperation_delivery call record (.error summary) f.clock)
    simp [Flushing.step, hcall, hcurrent, Flushing.callTransact, Flushing.transact, hworld]
  obtain ⟨f', hstep⟩ := hstep
  refine ⟨f', hstep, ?_⟩
  cases Flushing.step_cases hstep with
  | mark hcall' hcurrent' hworld =>
    cases hcall.symm.trans hcall'
    cases hcurrent.symm.trans hcurrent'
    unfold Flushing.markOperation at hworld
    simp only [hlast, if_true] at hworld
    rcases h.valid.delivery_cases rfl hworld with ⟨reply, -, hrows⟩ | ⟨-, e, herror⟩
    · intro new hnew hnewKey
      rw [hrows] at hnew
      obtain ⟨old, hold, rfl⟩ := Rows.mem_updateWhere.mp hnew
      split
      · rfl
      · rename_i hclosed
        rw [if_neg hclosed] at hnewKey
        obtain ⟨hstatus, -⟩ := h.row_of_underway ⟨call, hcall, hcurrent⟩ hold hnewKey
        rcases hstatus with hsending | hfailed
        · simp [hnewKey, hsending, FinalOutboxStatus.isOpen] at hclosed
        · exact hfailed
    · rcases bind_error.mp herror with hclose | ⟨_, _, -, hpure⟩
      · rw [← hkey] at hclose
        refine absurd hclose (h.delivered.close_succeeds hrow ?_ ?_ e)
        · exact fun _ => rfl
        · exact fun _ => rfl
      · cases hpure

end Flushing.Inv

/--
While rows are claimed as they were listed, attempts are bounded, made by one call at a time and
not before their time; the last failure closes the row, closed rows stay, and the task shows
what became of its reply.
-/
theorem reply_attempts_bounded {f : Flushing} {events : List FlushEvent}
    (hrun : UndisturbedRuns key validate hash {} events f) :
    (∀ k, (f.sendsOf k : Int) ≤ maxAttempts) ∧
      (∀ id id' record record' phase phase', f.Underway id record phase →
        f.Underway id' record' phase' → record.idempotencyKey = record'.idempotencyKey →
          id = id') ∧
      (∀ send ∈ f.sends, ∃ due ∈ send.dueAtMs, due ≤ send.atMs) ∧
      (∀ id record summary, f.Underway id record (.answered (.error summary)) →
        (f.sendsOf record.idempotencyKey : Int) = maxAttempts →
          ∃ f', f.step key validate (.mark id) = some f' ∧ ∀ row ∈ f'.world.db.outbox,
            row.idempotencyKey = record.idempotencyKey → row.status = .failedTerminal) ∧
      (∀ events' f', FlushRuns key validate hash f events' f' → ∀ row ∈ f.world.db.outbox,
        row.status = .sent ∨ row.status = .failedTerminal → row ∈ f'.world.db.outbox) ∧
      ∀ row ∈ f.world.db.outbox, ∃ record, f.world.db.record? row.runId = some record ∧
        (record.delivery.state = .sent ↔ row.status = .sent) ∧
        (record.delivery.state = .failed ↔ row.status = .failedTerminal) := by
  have h : f.Inv := hrun.invariant
    (fun _ _ _ hinv hstep => hinv.step hstep.1.1 hstep.1.2 hstep.2) Flushing.inv_empty
  refine ⟨h.sends_le, h.booked.alone, h.booked.started, ?_, ?_, ?_⟩
  · intro id record summary hunderway hsends
    exact h.last_failure hunderway hsends
  · intro events' f' hlater row hrow hclosed
    refine Flushing.closed_run h.toSound hlater hrow ?_
    rcases hclosed with hstatus | hstatus <;> rw [hstatus] <;> rfl
  · intro row hrow
    obtain ⟨record, hrecord, -, hshown⟩ := h.delivered row hrow
    refine ⟨record, hrecord, ?_⟩
    rw [hshown]
    cases row.status <;> simp [FinalOutboxStatus.shown]

end Stepping

/-! ## Stale lists -/

namespace Sample

def listed (f : Flushing) : FlushEvent → Bool
  | .claim id =>
    match (f.calls id).map (·.records) with
    | some (record :: _) => f.world.db.outbox.all fun row =>
      row.idempotencyKey != record.idempotencyKey || row.status != .pending ||
        (row.attemptCount == record.attemptCount &&
          row.nextAttemptAtMs == record.nextAttemptAtMs)
    | _ => true
  | .daemon _ | .recover _ => false
  | _ => true

theorem listed_undisturbed {f : Flushing} (h : listed f e = true) :
    e.Hosted bodyHash f ∧ e.Undisturbed f := by
  cases e with
  | claim id =>
    refine ⟨trivial, ?_⟩
    intro call record rest hcall hrecords row hrow hkey hstatus
    unfold listed at h
    simp only [hcall, hrecords, Option.map_some, List.all_eq_true] at h
    simpa [hkey, hstatus] using h row hrow
  | daemon | recover => cases h
  | _ => exact ⟨trivial, trivial⟩

def isFlush : FlushEvent → Bool
  | .daemon _ => false
  | _ => true

theorem hosted_of_isFlush (h : isFlush e = true) (f : Flushing) : e.Hosted bodyHash f := by
  cases e <;> trivial

def queued : Flushing := { world := repliedIn first }

theorem undisturbed_of_hosted {w w' : World} {ops : List Operation}
    (h : HostedRuns "key" validate bodyHash w ops w')
    (hdelivery : ∀ op ∈ ops, op.isDelivery = false) (f : Flushing) :
    UndisturbedRuns "key" validate bodyHash { f with world := w } (ops.map .daemon)
      { f with world := w' } := by
  induction h with
  | nil => exact .nil _
  | cons hstep _ ih =>
    rename_i w u w' op ops _
    have hop := hdelivery op List.mem_cons_self
    refine .cons (t := { f with world := u }) ⟨⟨hstep.1, trivial⟩, ?_⟩
      (ih fun other hother => hdelivery other (List.mem_cons_of_mem _ hother))
    simp [Flushing.step, hop, Flushing.transact, hstep.2]

theorem queued_run : UndisturbedRuns "key" validate bodyHash {}
    [.daemon (.submit first), .daemon (.finishWithFinal (reply first) 0)] queued := by
  have hrun := repliedIn_run first (by decide +kernel) (by decide +kernel) (by decide +kernel)
  exact undisturbed_of_hosted hrun (by simp [Operation.isDelivery]) {}

def flushed (events : List FlushEvent) : Flushing :=
  (events.foldlM (Flushing.step "key" validate) queued).getD {}

def failing (id : Nat) : List FlushEvent :=
  [.claim id, .send id, .answer id (.error "offline"), .mark id]

def lateFailure (id : Nat) : List FlushEvent :=
  [.tick (id * 1000000), .list id (id * 1000000) 10] ++ failing id

def fiveFailures : List FlushEvent := (List.range 5).flatMap lateFailure

def sixLists : List FlushEvent :=
  (List.range 6).map (fun id => .list id 0 10) ++ (List.range 6).flatMap failing

theorem fifth_failure_closes :
    (flushed fiveFailures).sendsOf (reply first).idempotencyKey = 5 ∧
      ((flushed fiveFailures).sendsOf (reply first).idempotencyKey : Int) ≤ maxAttempts ∧
      (flushed fiveFailures).world.db.outbox.map (·.status) = [.failedTerminal] := by
  have hchecked : Run (fun f e f' => listed f e = true ∧ f.step "key" validate e = some f') queued
      fiveFailures (flushed fiveFailures) := Run.of_checked (by decide +kernel)
  have hrun := Run.append_iff.mpr ⟨queued, queued_run,
    hchecked.weaken fun f e f' hstep => ⟨listed_undisturbed hstep.1, hstep.2⟩⟩
  exact ⟨by decide +kernel, (reply_attempts_bounded hrun).1 _, by decide +kernel⟩

/-- Calls that work with old lists send a row six times, and before it is due. -/
theorem stale_lists_send_again :
    FlushRuns "key" validate bodyHash {}
        ([.daemon (.submit first), .daemon (.finishWithFinal (reply first) 0)] ++ sixLists)
        (flushed sixLists) ∧
      (flushed sixLists).sendsOf (reply first).idempotencyKey = 6 ∧
      ∃ send ∈ (flushed sixLists).sends, ∃ due ∈ send.dueAtMs, send.atMs < due := by
  refine ⟨Run.append_iff.mpr ⟨queued, ?_, ?_⟩, by decide +kernel, by decide +kernel⟩
  · exact queued_run.weaken fun f e f' hstep => ⟨hstep.1.1, hstep.2⟩
  · have hchecked : Run (fun f e f' => isFlush e = true ∧ f.step "key" validate e = some f')
        queued sixLists (flushed sixLists) := Run.of_checked (by decide +kernel)
    exact hchecked.weaken fun f e f' hstep => ⟨hosted_of_isFlush hstep.1 f, hstep.2⟩

end Sample

end Acp
end Awiki

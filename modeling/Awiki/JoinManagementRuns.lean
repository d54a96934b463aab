import Awiki.JoinManagement
import Mathlib.Data.List.Induction

/-!
# What a join management task does over whole runs

A round lasts from the authorization, or from a retry that takes a failed task back to
`scheduled`, to the next such retry.  In a round `send` is called at most `max_attempts`
times, each time after a stored and reported charge and at least the retry delay after the
call before.  A stored invalidation stays until `registered` answers `true`.

The second part needs a condition: while the stored task is invalidated without a charged
attempt, `advance_task` skips the question that protects the invalidation, so
`delivery_expired` must not answer `true` then.
-/

namespace Awiki
namespace JoinManagement

open LocalState

/-! ## Reading a history -/

namespace Event

/-- A retry that takes a failed task back to `scheduled` has been stored. -/
def opensRound : Event → Bool
  | persist .retry before after true _ => before.phase = .failed ∧ after.phase = .scheduled
  | _ => false

def sentAt : Event → Option Int
  | send atMs => some atMs
  | _ => none

end Event

/-- The times of the calls of `send`. -/
def sends (history : List Event) : List Int :=
  history.filterMap Event.sentAt

@[simp] theorem sends_append (h₁ h₂ : List Event) :
    sends (h₁ ++ h₂) = sends h₁ ++ sends h₂ := by
  simp [sends]

@[simp] theorem sends_registered (yes : Bool) : sends [.registered yes] = [] := rfl

@[simp] theorem sends_persist (call : Call) (before after : ManagementTask)
    (stored reported : Bool) : sends [.persist call before after stored reported] = [] := rfl

@[simp] theorem sends_send (atMs : Int) : sends [.send atMs] = [atMs] := rfl

def round (history : List Event) : List Event :=
  history.foldl (fun seen e => if e.opensRound then [] else seen ++ [e]) []

theorem round_concat (history : List Event) (e : Event) :
    round (history ++ [e]) = if e.opensRound then [] else round history ++ [e] := by
  simp [round]

theorem round_append {before after : List Event} (h : ∀ e ∈ after, e.opensRound = false) :
    round (before ++ after) = round before ++ after := by
  induction after using List.reverseRecOn with
  | nil => simp
  | append_singleton after e ih =>
    rw [← List.append_assoc, round_concat, h e (by simp)]
    simp [ih fun e he => h e (by simp [he])]

/-- An invalidation has been stored, and `registered` has not answered `true` since. -/
def bound (history : List Event) : Bool :=
  history.foldl (fun so e =>
    match e with
    | .registered yes => so && !yes
    | .persist _ _ task true _ => so || task.invalidated
    | _ => so) false

theorem bound_concat (history : List Event) (e : Event) :
    bound (history ++ [e]) =
      match e with
      | .registered yes => bound history && !yes
      | .persist _ _ task true _ => bound history || task.invalidated
      | _ => bound history := by
  simp [bound]

theorem bound_append {before after : List Event} (hbound : bound before = true)
    (h : ∀ e ∈ after, e ≠ .registered true) : bound (before ++ after) = true := by
  induction after using List.reverseRecOn with
  | nil => simpa using hbound
  | append_singleton after e ih =>
    rw [← List.append_assoc, bound_concat]
    have hafter := ih fun e he => h e (by simp [he])
    have he := h e (by simp)
    cases e with
    | registered yes => cases yes <;> simp_all
    | send atMs => exact hafter
    | persist call b a stored reported => cases stored <;> simp [hafter]

/-! ## The two properties of a history -/

/-- In a stretch without a new round `send` is called at most `limit` times, at least the
retry delay apart, each time right after a charge that counts the call. -/
def Bounded (limit : Nat) (history : List Event) : Prop :=
  ∀ before stretch after, history = before ++ stretch ++ after →
    (∀ e ∈ stretch, e.opensRound = false) →
      (sends stretch).length ≤ limit ∧
      (sends stretch).Pairwise (fun first second => first + retryDelayMs ≤ second) ∧
      ∀ earlier atMs later, stretch = earlier ++ .send atMs :: later →
        ∃ call stored charged,
          (before ++ earlier).getLast? = some (.persist call stored charged true true) ∧
            (sends earlier).length < charged.attempts

/-- After a stored invalidation, until `registered` answers `true`, only invalidated tasks
are stored and `send` is not called. -/
def Remembered (history : List Event) : Prop :=
  ∀ before call old task reported since e after,
    history = before ++ .persist call old task true reported :: since ++ e :: after →
    task.invalidated = true → (∀ e ∈ since, e ≠ .registered true) →
      match e with
      | .send _ => False
      | .persist _ _ later true _ => later.invalidated = true
      | _ => True

def Permitted (limit : Nat) (history : List Event) : Event → Prop
  | .send atMs =>
    bound history = false ∧
    (∃ call stored charged,
      history.getLast? = some (.persist call stored charged true true) ∧
        (sends (round history)).length < charged.attempts ∧ charged.attempts ≤ limit) ∧
    ∀ earlier ∈ sends (round history), earlier + retryDelayMs ≤ atMs
  | .persist _ _ task true _ => bound history = true → task.invalidated = true
  | _ => True

def Lawful (limit : Nat) (history : List Event) : Prop :=
  ∀ before e after, history = before ++ e :: after → Permitted limit before e

theorem lawful_nil (limit : Nat) : Lawful limit [] := by
  intro before e after h
  simp at h

variable {limit : Nat} {history : List Event} {call : Call} {old : ManagementTask}
  {stored reported : Bool}

theorem Lawful.concat {e : Event} (h : Lawful limit history) (he : Permitted limit history e) :
    Lawful limit (history ++ [e]) := by
  intro before e' after heq
  induction after using List.reverseRecOn with
  | nil =>
    obtain ⟨rfl, hlast⟩ := List.append_inj' heq rfl
    cases hlast
    exact he
  | append_singleton after last _ =>
    rw [← List.cons_append, ← List.append_assoc] at heq
    exact h before e' after (List.append_inj' heq rfl).1

theorem Lawful.remembered (h : Lawful limit history) :
    Remembered history := by
  intro before call old task reported since e after heq htask hsince
  have hbound : bound (before ++ [.persist call old task true reported] ++ since) = true := by
    apply bound_append _ hsince
    rw [bound_concat]
    simp [htask]
  have he := h (before ++ [.persist call old task true reported] ++ since) e after (by simp [heq])
  cases e with
  | send atMs =>
    have hfree := he.1
    rw [hbound] at hfree
    cases hfree
  | registered yes => trivial
  | persist call' old' later stored reported' =>
    cases stored with
    | false => trivial
    | true => exact he hbound

theorem Lawful.bounded (h : Lawful limit history) :
    Bounded limit history := by
  intro before stretch after heq hstretch
  -- what a call of `send` in the stretch owes, with the round cut down to the stretch
  have hsend : ∀ earlier atMs later, stretch = earlier ++ .send atMs :: later →
      (∃ call stored charged,
        (before ++ earlier).getLast? = some (.persist call stored charged true true) ∧
          (sends earlier).length < charged.attempts ∧ charged.attempts ≤ limit) ∧
      ∀ t ∈ sends earlier, t + retryDelayMs ≤ atMs := by
    intro earlier atMs later hcut
    have hround : round (before ++ earlier) = round before ++ earlier :=
      round_append fun e he => hstretch e (by simp [hcut, he])
    obtain ⟨-, ⟨call, stored, charged, hlast, hcount, hlimit⟩, hrest⟩ :=
      h (before ++ earlier) (.send atMs) (later ++ after) (by simp [heq, hcut])
    rw [hround, sends_append, List.length_append] at hcount
    refine ⟨⟨call, stored, charged, hlast, by omega, hlimit⟩, ?_⟩
    intro t ht
    apply hrest t
    simp [hround, ht]
  have hall : ∀ part rest, stretch = part ++ rest → (sends part).length ≤ limit ∧
      (sends part).Pairwise (fun first second => first + retryDelayMs ≤ second) := by
    intro part
    induction part using List.reverseRecOn with
    | nil => simp [sends]
    | append_singleton part e ih =>
      intro rest hcut
      obtain ⟨hlength, hpairs⟩ := ih (e :: rest) (by simp [hcut])
      cases e with
      | registered yes => simpa using ⟨hlength, hpairs⟩
      | persist call b a stored reported => simpa using ⟨hlength, hpairs⟩
      | send atMs =>
        obtain ⟨⟨_, _, charged, _, hcount, hlimit⟩, hrest⟩ :=
          hsend part atMs rest (by simp [hcut])
        rw [sends_append, sends_send]
        constructor
        · simp only [List.length_append, List.length_singleton]
          omega
        · rw [List.pairwise_append]
          simpa using ⟨hpairs, hrest⟩
  refine ⟨(hall stretch [] (by simp)).1, (hall stretch [] (by simp)).2, ?_⟩
  intro earlier atMs later hcut
  obtain ⟨⟨call, stored, charged, hlast, hcount, -⟩, -⟩ := hsend earlier atMs later hcut
  exact ⟨call, stored, charged, hlast, hcount⟩

/-! ## The invariant -/

/-- A task that may be stored in the world `w` without opening a round. -/
structure Held (limit : Nat) (w : World) (task : ManagementTask) : Prop where
  counted : (sends (round w.history)).length ≤ task.attempts
  attempts_le : task.attempts ≤ limit
  limit_eq : task.maxAttempts = limit
  rested : task.phase = .scheduled →
    ∀ t ∈ sends (round w.history), t + retryDelayMs ≤ task.nextAttemptAtMs
  fresh : task.phase = .awaitingJoin → task.attempts = 0
  kept : bound w.history = true → task.invalidated = true

structure Inv (limit : Nat) (w : World) : Prop where
  lawful : Lawful limit w.history
  past : ∀ t ∈ sends (round w.history), t ≤ w.clock
  stored : Held limit w w.stored

variable {limit : Nat} {w w' : World} {task : ManagementTask}

theorem Held.of_history (h : Held limit w task) (hsends : sends (round w'.history) =
    sends (round w.history)) (hbound : bound w'.history = true → bound w.history = true) :
    Held limit w' task := by
  constructor
  · rw [hsends]
    exact h.counted
  · exact h.attempts_le
  · exact h.limit_eq
  · rw [hsends]
    exact h.rested
  · exact h.fresh
  · intro hb
    exact h.kept (hbound hb)

structure Quiet (limit : Nat) (w w' : World) : Prop where
  inv : Inv limit w'
  held : ∀ task, Held limit w task → Held limit w' task
  free : bound w.history = false → bound w'.history = false
  stored_eq : w'.stored = w.stored
  caller_eq : w'.caller = w.caller

theorem Inv.after (h : Inv limit w) (elapsed : Nat) : Quiet limit w (w.after elapsed) := by
  have hheld : ∀ task, Held limit w task → Held limit (w.after elapsed) task :=
    fun task held => held.of_history rfl id
  refine ⟨⟨h.lawful, ?_, hheld _ h.stored⟩, hheld, id, rfl, rfl⟩
  intro t ht
  have hpast := h.past t ht
  change t ≤ w.clock + elapsed
  omega

theorem sends_round_registered (history : List Event) (yes : Bool) :
    sends (round (history ++ [.registered yes])) = sends (round history) := by
  simp [round_concat, Event.opensRound]

theorem Inv.observe_registered (h : Inv limit w) (yes : Bool) :
    Quiet limit w (w.observe (.registered yes)) := by
  have hsends : sends (round (w.observe (.registered yes)).history) =
      sends (round w.history) := sends_round_registered _ _
  have hheld : ∀ task, Held limit w task → Held limit (w.observe (.registered yes)) task := by
    intro task held
    apply held.of_history hsends
    intro hb
    simp only [World.observe, bound_concat, Bool.and_eq_true] at hb
    exact hb.1
  refine ⟨⟨h.lawful.concat trivial, ?_, hheld _ h.stored⟩, hheld, ?_, rfl, rfl⟩
  · rw [hsends]
    exact h.past
  · intro hfree
    simp [World.observe, bound_concat, hfree]

theorem Quiet.trans {w'' : World} (h₁ : Quiet limit w w') (h₂ : Quiet limit w' w'') :
    Quiet limit w w'' :=
  ⟨h₂.inv, fun task held => h₂.held task (h₁.held task held), fun hfree => h₂.free (h₁.free hfree),
    h₂.stored_eq.trans h₁.stored_eq, h₂.caller_eq.trans h₁.caller_eq⟩

theorem sends_round_persist
    (hround : (Event.persist call old task stored reported).opensRound = false) :
    sends (round (history ++ [.persist call old task stored reported])) =
      sends (round history) := by
  simp [round_concat, hround]

theorem Permitted.persist (h : bound history = true → task.invalidated = true) :
    Permitted limit history (.persist call old task stored reported) := by
  cases stored
  · trivial
  · exact h

theorem bound_persist (h : bound (history ++ [.persist call old task stored reported])) :
    bound history = true ∨ stored = true ∧ task.invalidated = true := by
  rw [bound_concat] at h
  cases stored with
  | false => exact .inl h
  | true => simpa using h

theorem Inv.save (h : Inv limit w) (held : Held limit w task) (stored reported : Bool)
    (hround : (Event.persist w.caller w.stored task stored reported).opensRound = false) :
    Inv limit (w.save task stored reported) ∧ Held limit (w.save task stored reported) task := by
  have hsends : sends (round (w.save task stored reported).history) =
      sends (round w.history) := sends_round_persist hround
  have hheld : Held limit (w.save task stored reported) task := by
    constructor
    · rw [hsends]
      exact held.counted
    · exact held.attempts_le
    · exact held.limit_eq
    · rw [hsends]
      exact held.rested
    · exact held.fresh
    · intro hb
      rcases bound_persist hb with hb | ⟨_, hb⟩
      · exact held.kept hb
      · exact hb
  refine ⟨⟨h.lawful.concat (Permitted.persist held.kept), ?_, ?_⟩, hheld⟩
  · rw [hsends]
    exact h.past
  · cases stored with
    | true => exact hheld
    | false => exact h.stored.of_history hsends fun hb => by simpa using bound_persist hb

theorem bound_save (hfree : bound w.history = false) (htask : task.invalidated = false) :
    bound (w.save task stored reported).history = false := by
  rw [Bool.eq_false_iff]
  intro hb
  rcases bound_persist hb with hb | ⟨_, hb⟩
  · simp [hfree] at hb
  · simp [htask] at hb

theorem Inv.save_reset (h : Inv limit w) (hcaller : w.caller = .retry)
    (hfailed : w.stored.phase = .failed) (hfree : bound w.history = false)
    (hphase : task.phase = .scheduled) (hattempts : task.attempts = 0)
    (hlimit : task.maxAttempts = limit) (stored reported : Bool) :
    Inv limit (w.save task stored reported) := by
  have hkept : bound w.history = true → task.invalidated = true := by simp [hfree]
  cases stored with
  | false =>
    have hsends : sends (round (w.save task false reported).history) =
        sends (round w.history) := sends_round_persist (by cases w.caller <;> rfl)
    refine ⟨h.lawful.concat (Permitted.persist hkept), ?_, ?_⟩
    · rw [hsends]
      exact h.past
    · exact h.stored.of_history hsends fun hb => by simpa using bound_persist hb
  | true =>
    have hopens :
        (Event.persist w.caller w.stored task true reported).opensRound = true := by
      simp [hcaller, Event.opensRound, hfailed, hphase]
    have hempty : sends (round (w.save task true reported).history) = [] := by
      simp [World.save, World.observe, round_concat, hopens, sends]
    refine ⟨h.lawful.concat (Permitted.persist hkept), ?_, ?_⟩
    · simp [hempty]
    · change Held limit (w.save task true reported) task
      constructor
      · simp [hempty]
      · omega
      · exact hlimit
      · simp [hempty]
      · simp [hattempts]
      · intro hb
        rcases bound_persist hb with hb | ⟨_, hb⟩
        · simp [hfree] at hb
        · exact hb

theorem sends_round_send (history : List Event) (atMs : Int) :
    sends (round (history ++ [.send atMs])) = sends (round history) ++ [atMs] := by
  simp [round_concat, Event.opensRound]

theorem Inv.observe_send (h : Inv limit w) (hfree : bound w.history = false)
    (hlast : w.history.getLast? = some (.persist call old w.stored true true))
    (hphase : w.stored.phase = .attempting)
    (hcount : (sends (round w.history)).length < w.stored.attempts)
    (hrest : ∀ t ∈ sends (round w.history), t + retryDelayMs ≤ w.clock) (waited : Nat) :
    Inv limit ((w.after waited).observe (.send (w.clock + waited))) := by
  have hsends : sends (round ((w.after waited).observe (.send (w.clock + waited))).history) =
      sends (round w.history) ++ [w.clock + waited] := sends_round_send _ _
  refine ⟨h.lawful.concat ⟨hfree, ⟨call, old, w.stored, hlast, hcount, h.stored.attempts_le⟩,
    ?_⟩, ?_, ?_⟩
  · intro t ht
    have hle := hrest t ht
    omega
  · rw [hsends]
    intro t ht
    change t ≤ w.clock + waited
    rcases List.mem_append.mp ht with ht | ht
    · have hle := h.past t ht
      omega
    · simp only [List.mem_singleton] at ht
      omega
  · refine ⟨?_, h.stored.attempts_le, h.stored.limit_eq, ?_, h.stored.fresh, ?_⟩
    · rw [hsends, List.length_append, List.length_singleton]
      exact hcount
    · intro hscheduled
      exact absurd (hphase.symm.trans hscheduled) (by simp)
    · intro hb
      simp only [World.observe, World.after, bound_concat, hfree] at hb
      cases hb

/-! ## The updates of a task -/

theorem ManagementTask.phase_failed (h : task.invalidated = true) : task.phase = .failed := by
  simp only [ManagementTask.invalidated, decide_eq_true_eq] at h
  exact h.1

theorem ManagementTask.claim_some {now : Int} {charged : ManagementTask}
    (h : task.claim now = some charged) :
    task.phase = .scheduled ∧ task.attempts < task.maxAttempts ∧ task.nextAttemptAtMs ≤ now ∧
      charged.phase = .attempting ∧ charged.attempts = task.attempts + 1 ∧
      charged.maxAttempts = task.maxAttempts := by
  simp only [ManagementTask.claim, Option.ite_none_left_eq_some, Option.some.injEq, not_or,
    not_not, not_le, not_lt] at h
  obtain ⟨⟨hphase, hroom, htime⟩, rfl⟩ := h
  exact ⟨hphase, hroom, htime, rfl, rfl, rfl⟩

@[simp] theorem ManagementTask.attempts_activate : task.activate.attempts = task.attempts := by
  unfold ManagementTask.activate
  split <;> rfl

@[simp] theorem ManagementTask.attempts_reconcileAccepted (accepted : Bool) :
    (task.reconcileAccepted accepted).attempts = task.attempts := by
  unfold ManagementTask.reconcileAccepted
  split <;> rfl

theorem Inv.activate (h : Inv limit w) : Held limit w w.stored.activate := by
  have hs := h.stored
  unfold ManagementTask.activate
  split
  next hawaiting =>
    have hzero := hs.fresh hawaiting
    have hnone : sends (round w.history) = [] := by
      apply List.eq_nil_of_length_eq_zero
      have hcounted := hs.counted
      omega
    refine ⟨hs.counted, hs.attempts_le, hs.limit_eq, by simp [hnone], by simp, ?_⟩
    intro hb
    rw [ManagementTask.phase_failed (hs.kept hb)] at hawaiting
    cases hawaiting
  next => exact hs

section

variable (h : Held limit w task)

include h

theorem Held.rephase {task' : ManagementTask} (hattempts : task'.attempts = task.attempts)
    (hlimit : task'.maxAttempts = task.maxAttempts)
    (hphase : task'.phase ≠ .scheduled ∧ task'.phase ≠ .awaitingJoin)
    (hkept : bound w.history = true → task'.invalidated = true) : Held limit w task' := by
  constructor
  · rw [hattempts]
    exact h.counted
  · rw [hattempts]
    exact h.attempts_le
  · rw [hlimit]
    exact h.limit_eq
  · intro hscheduled
    exact absurd hscheduled hphase.1
  · intro hawaiting
    exact absurd hawaiting hphase.2
  · exact hkept

theorem Held.accepted (hfree : bound w.history = false) : Held limit w task.accepted :=
  h.rephase rfl rfl (by simp [ManagementTask.accepted]) (by simp [hfree])

theorem Held.reconcileAccepted (accepted : Bool) :
    Held limit w (task.reconcileAccepted accepted) := by
  unfold ManagementTask.reconcileAccepted
  split
  next hif =>
    apply h.accepted
    by_contra hb
    exact hif.2.2 (h.kept (by simpa using hb))
  next => exact h

theorem Held.registered (hfree : bound w.history = false) : Held limit w task.registered :=
  h.rephase rfl rfl (by simp [ManagementTask.registered]) (by simp [hfree])

theorem Held.failedAttempt (hpast : Inv limit w) {code : String} {retryable : Bool}
    (hclock : w.clock + retryDelayMs < 2 ^ 63) (hkept : bound w.history = true →
      retryable = false ∧ code = "root_transfer.delivery_invalidated") :
    Held limit w (task.failedAttempt w.clock code retryable) := by
  refine ⟨h.counted, h.attempts_le, h.limit_eq, ?_, ?_, ?_⟩
  · intro _ t ht
    have ht := hpast.past t ht
    simp only [ManagementTask.failedAttempt, saturatingAdd]
    omega
  · intro hphase
    simp only [ManagementTask.failedAttempt] at hphase
    split at hphase <;> cases hphase
  · intro hb
    obtain ⟨rfl, rfl⟩ := hkept hb
    simp [ManagementTask.failedAttempt, ManagementTask.invalidated]

theorem Held.recoverInterrupted (hpast : Inv limit w) (hclock : w.clock + retryDelayMs < 2 ^ 63) :
    Held limit w (task.recoverInterrupted w.clock) := by
  unfold ManagementTask.recoverInterrupted
  split
  next hphase =>
    apply h.failedAttempt hpast hclock
    intro hb
    rw [ManagementTask.phase_failed (h.kept hb)] at hphase
    cases hphase
  next => exact h

end

/-! ## Every answer keeps the invariant -/

/-- The retry delay can be added without leaving `i64`. -/
def Roomy (now : Int) : Prop :=
  now + retryDelayMs < 2 ^ 63

/-- The condition: clock readings leave room for the retry delay, and an expired delivery is
not reported to `advance_task` while an invalidation without a charged attempt is stored. -/
def Careful (w : World) : (q : TaskIo) → q.Answer → Prop
  | .nowMs, now => Roomy now
  | .deliveryExpired, result => result.toOption = some true →
      ¬ (w.caller = .advance ∧ w.stored.invalidated = true ∧ w.stored.attempts = 0)
  | _, _ => True

def carefulAnswers (w : World) (q : TaskIo) (r : q.Answer) (w' : World) : Prop :=
  answers w q r w' ∧ Careful w q r

/-- From `w` on, `x` keeps the invariant at every answer. -/
abbrev KeepsInv (limit : Nat) (x : TaskProgram Unit) (w : World) : Prop :=
  Prog.Keeps carefulAnswers (Inv limit) x.run w

variable {f : Int → TaskProgram Unit} {g : Bool → TaskProgram Unit}

theorem keeps_throw (e : ImError) : KeepsInv limit (throw e) w :=
  Prog.keeps_done _

theorem keeps_nowMs (h : Inv limit w)
    (hf : ∀ w', Quiet limit w w' → Roomy w'.clock →
      KeepsInv limit (f w'.clock) w') :
    KeepsInv limit (nowMs >>= f) w := by
  apply (Prog.keeps_ask _ _).mpr
  rintro now w' ⟨⟨elapsed, rfl, rfl⟩, hroom⟩
  have hquiet := h.after elapsed
  exact ⟨hquiet.inv, hf _ hquiet hroom⟩

theorem keeps_acceptedLocally (h : Inv limit w)
    (hg : ∀ accepted w', Quiet limit w w' → KeepsInv limit (g accepted) w') :
    KeepsInv limit (acceptedLocally >>= g) w := by
  apply (Prog.keeps_ask _ _).mpr
  rintro result w' ⟨⟨elapsed, rfl⟩, -⟩
  have hquiet := h.after elapsed
  refine ⟨hquiet.inv, ?_⟩
  cases result with
  | ok accepted => exact hg accepted _ hquiet
  | error e => exact Prog.keeps_done _

theorem keeps_deliveryExpired (h : Inv limit w)
    (hg : ∀ expired w', Quiet limit w w' →
      (expired = true →
        ¬ (w'.caller = .advance ∧ w'.stored.invalidated = true ∧ w'.stored.attempts = 0)) →
      KeepsInv limit (g expired) w') :
    KeepsInv limit (deliveryExpired >>= g) w := by
  apply (Prog.keeps_ask _ _).mpr
  rintro result w' ⟨⟨elapsed, rfl⟩, hcareful⟩
  have hquiet := h.after elapsed
  refine ⟨hquiet.inv, ?_⟩
  cases result with
  | ok expired =>
    apply hg expired _ hquiet
    rintro rfl
    exact hcareful rfl
  | error e => exact Prog.keeps_done _

theorem keeps_registered {k : Except TransferError Bool → TaskProgram Unit} (h : Inv limit w)
    (hk : ∀ result w', Quiet limit w w' → (result = .ok true → bound w'.history = false) →
      KeepsInv limit (k result) w') :
    KeepsInv limit (registered >>= k) w := by
  apply (Prog.keeps_ask _ _).mpr
  rintro result w' ⟨⟨elapsed, rfl⟩, -⟩
  have hquiet := (h.after elapsed).trans
    ((h.after elapsed).inv.observe_registered (result.toOption = some true))
  refine ⟨hquiet.inv, hk result _ hquiet ?_⟩
  rintro rfl
  simp [World.observe, bound_concat, Except.toOption]

theorem keeps_send {k : Except TransferError Unit → TaskProgram Unit}
    (hinv : ∀ waited : Nat, Inv limit ((w.after waited).observe (.send (w.clock + waited))))
    (hk : ∀ result waited w',
      Quiet limit ((World.after w waited).observe (.send (w.clock + waited))) w' →
        KeepsInv limit (k result) w') :
    KeepsInv limit (send >>= k) w := by
  apply (Prog.keeps_ask _ _).mpr
  rintro result w' ⟨⟨waited, elapsed, rfl⟩, -⟩
  have hquiet := (hinv waited).after elapsed
  exact ⟨hquiet.inv, hk result waited _ hquiet⟩

theorem opensRound_eq_false (h : call = .advance ∨ task.phase ≠ .scheduled) :
    (Event.persist call old task stored reported).opensRound = false := by
  cases call with
  | advance => rfl
  | retry =>
    have hphase : task.phase ≠ .scheduled := by simpa using h
    cases stored <;> simp [Event.opensRound, hphase]

section

variable (h : Inv limit w)

include h

theorem keeps_persist_bind {k : Unit → TaskProgram Unit} (held : Held limit w task)
    (hround : w.caller = .advance ∨ task.phase ≠ .scheduled)
    (hk : ∀ elapsed, Inv limit ((World.after w elapsed).save task true true) →
      Held limit ((w.after elapsed).save task true true) task →
        KeepsInv limit (k ()) ((w.after elapsed).save task true true)) :
    KeepsInv limit (persist task >>= k) w := by
  apply (Prog.keeps_ask _ _).mpr
  rintro result w' ⟨⟨elapsed, stored, hstored, rfl⟩, -⟩
  have hquiet := h.after elapsed
  have hsave := hquiet.inv.save (hquiet.held task held) stored result.toBool
    (opensRound_eq_false hround)
  refine ⟨hsave.1, ?_⟩
  cases result with
  | ok _ =>
    obtain rfl := hstored rfl
    exact hk elapsed hsave.1 hsave.2
  | error e => exact Prog.keeps_done _

theorem keeps_persist (held : Held limit w task)
    (hround : w.caller = .advance ∨ task.phase ≠ .scheduled) : KeepsInv limit (persist task) w := by
  apply (Prog.keeps_ask _ _).mpr
  rintro result w' ⟨⟨elapsed, stored, hstored, rfl⟩, -⟩
  have hquiet := h.after elapsed
  have hsave := hquiet.inv.save (hquiet.held task held) stored result.toBool
    (opensRound_eq_false hround)
  exact ⟨hsave.1, Prog.keeps_done _⟩

theorem keeps_attempt {now : Int} {charged : ManagementTask} (held : Held limit w task)
    (hcaller : w.caller = .advance) (hnow : now ≤ w.clock)
    (hclaim : task.claim now = some charged) :
    KeepsInv limit (do
      persist charged
      match ← send with
      | .ok () => persist charged.accepted
      | .error error =>
        let failed ← nowMs
        persist (charged.failedAttempt failed error.text error.retryable)) w := by
  obtain ⟨hphase, hroom, htime, hattempting, hattempts, hmax⟩ :=
    ManagementTask.claim_some hclaim
  have hinvalid : charged.invalidated = false := by
    simp [ManagementTask.invalidated, hattempting]
  have hfree : bound w.history = false := by
    by_contra hb
    rw [ManagementTask.phase_failed (held.kept (by simpa using hb))] at hphase
    cases hphase
  have hcounted := held.counted
  have hlimit := held.limit_eq
  have hcharged : Held limit w charged := by
    refine ⟨by omega, by omega, by omega, ?_, ?_, by simp [hfree]⟩
    · simp [hattempting]
    · simp [hattempting]
  apply keeps_persist_bind h hcharged (.inl hcaller)
  intro elapsed hinv hstored
  have hsaved : bound ((w.after elapsed).save charged true true).history = false :=
    bound_save hfree hinvalid
  have hsends : sends (round ((w.after elapsed).save charged true true).history) =
      sends (round w.history) := sends_round_persist (opensRound_eq_false (.inl hcaller))
  have hsent : ∀ waited : Nat, Inv limit
      ((((w.after elapsed).save charged true true).after waited).observe
        (.send (((w.after elapsed).save charged true true).clock + waited))) := by
    apply hinv.observe_send hsaved List.getLast?_concat hattempting
    · rw [hsends]
      change _ < charged.attempts
      omega
    · rw [hsends]
      intro t ht
      have hrest := held.rested hphase t ht
      change t + retryDelayMs ≤ w.clock + elapsed
      omega
  apply keeps_send hsent
  intro result waited w' hquiet
  have hheld : Held limit w' charged := hquiet.held _ (hsent waited).stored
  have hfree' : bound w'.history = false := by
    apply hquiet.free
    simpa [World.observe, World.after, bound_concat] using hsaved
  have hcaller' : w'.caller = .advance := hquiet.caller_eq.trans hcaller
  cases result with
  | ok _ => exact keeps_persist hquiet.inv (hheld.accepted hfree') (.inl hcaller')
  | error error =>
    apply keeps_nowMs hquiet.inv
    intro w'' hquiet' hroomy
    apply keeps_persist hquiet'.inv
    · exact (hquiet'.held _ hheld).failedAttempt hquiet'.inv hroomy
        (by simp [hquiet'.free hfree'])
    · exact .inl (hquiet'.caller_eq.trans hcaller')

/-- The rest of `advance_task` from the question about expiry on.  Where an invalidation is
bound, no attempt has been charged: otherwise the question about registration came first. -/
theorem keeps_advanceDelivery (held : Held limit w task) (hcaller : w.caller = .advance)
    (huncharged : bound w.history = true → w.stored.attempts = 0) :
    KeepsInv limit (advanceDelivery task) w := by
  apply keeps_deliveryExpired h
  intro expired w₁ hquiet₁ hcareful
  have hcaller₁ : w₁.caller = .advance := hquiet₁.caller_eq.trans hcaller
  have held₁ := hquiet₁.held _ held
  split
  next hexpired =>
    have hfree : bound w₁.history = false := by
      rw [Bool.eq_false_iff]
      intro hb
      have hb' : bound w.history = true := by
        by_contra hfree
        simp [hquiet₁.free (by simpa using hfree)] at hb
      apply hcareful hexpired
      refine ⟨hcaller₁, hquiet₁.inv.stored.kept hb, ?_⟩
      rw [hquiet₁.stored_eq]
      exact huncharged hb'
    apply keeps_nowMs hquiet₁.inv
    intro w₂ hquiet₂ hroomy
    apply keeps_persist hquiet₂.inv
    · exact (hquiet₂.held _ held₁).failedAttempt hquiet₂.inv hroomy
        (by simp [hquiet₂.free hfree])
    · exact .inl (hquiet₂.caller_eq.trans hcaller₁)
  next =>
    split
    next => exact keeps_persist hquiet₁.inv held₁ (.inl hcaller₁)
    next =>
      apply keeps_nowMs hquiet₁.inv
      intro w₂ hquiet₂ hroomy
      have hrecovered := (hquiet₂.held _ held₁).recoverInterrupted hquiet₂.inv hroomy
      apply keeps_nowMs hquiet₂.inv
      intro w₃ hquiet₃ _
      have held₃ := hquiet₃.held _ hrecovered
      have hcaller₃ := hquiet₃.caller_eq.trans (hquiet₂.caller_eq.trans hcaller₁)
      split
      next => exact keeps_persist hquiet₃.inv held₃ (.inl hcaller₃)
      next charged hclaim => exact keeps_attempt hquiet₃.inv held₃ hcaller₃ le_rfl hclaim

theorem keeps_advanceTask (hcaller : w.caller = .advance) :
    KeepsInv limit (advanceTask w.stored) w := by
  apply keeps_acceptedLocally h
  intro accepted w₁ hquiet₁
  have held₁ := (hquiet₁.held _ h.activate).reconcileAccepted accepted
  have hcaller₁ : w₁.caller = .advance := hquiet₁.caller_eq.trans hcaller
  have hattempts : (w.stored.activate.reconcileAccepted accepted).attempts =
      w₁.stored.attempts := by
    rw [hquiet₁.stored_eq, ManagementTask.attempts_reconcileAccepted,
      ManagementTask.attempts_activate]
  -- an active task that is not invalidated means that nothing is bound
  have hfree : ¬ w.stored.activate.invalidated = true → bound w₁.history = false := by
    intro hinvalid
    apply hquiet₁.free
    by_contra hb
    exact hinvalid (h.activate.kept (by simpa using hb))
  dsimp only
  generalize w.stored.activate.reconcileAccepted accepted = task at *
  split
  next =>
    apply keeps_registered hquiet₁.inv
    intro result w₂ hquiet₂ hclear
    have held₂ := hquiet₂.held _ held₁
    have hcaller₂ : w₂.caller = .advance := hquiet₂.caller_eq.trans hcaller₁
    have hdelivery : ¬ w.stored.activate.invalidated = true →
        KeepsInv limit (advanceDelivery task) w₂ := by
      intro hinvalid
      apply keeps_advanceDelivery hquiet₂.inv held₂ hcaller₂
      simp [hquiet₂.free (hfree hinvalid)]
    rcases result with error | (_ | _)
    · dsimp only
      split
      next => exact keeps_persist hquiet₂.inv held₂ (.inl hcaller₂)
      next hinvalid =>
        split
        next => exact hdelivery hinvalid
        next =>
          apply keeps_nowMs hquiet₂.inv
          intro w₃ hquiet₃ hroomy
          apply keeps_persist hquiet₃.inv
          · exact (hquiet₃.held _ held₂).failedAttempt hquiet₃.inv hroomy
              (by simp [hquiet₃.free (hquiet₂.free (hfree hinvalid))])
          · exact .inl (hquiet₃.caller_eq.trans hcaller₂)
    · dsimp only
      split
      next => exact keeps_persist hquiet₂.inv held₂ (.inl hcaller₂)
      next hinvalid => exact hdelivery hinvalid
    · exact keeps_persist hquiet₂.inv (held₂.registered (hclear rfl)) (.inl hcaller₂)
  next huncharged =>
    apply keeps_advanceDelivery hquiet₁.inv held₁ hcaller₁
    intro _
    omega

theorem keeps_fail {code : String} (held : Held limit w task)
    (hkept : bound w.history = true → code = "root_transfer.delivery_invalidated") :
    KeepsInv limit (do
      let now ← nowMs
      persist (task.failedAttempt now code false)
      throw ImError.permissionDenied) w := by
  apply keeps_nowMs h
  intro w' hquiet hroomy
  apply keeps_persist_bind hquiet.inv
  · apply (hquiet.held _ held).failedAttempt hquiet.inv hroomy
    intro hb
    refine ⟨rfl, hkept ?_⟩
    by_contra hfree
    simp [hquiet.free (by simpa using hfree)] at hb
  · exact .inr (by simp [ManagementTask.failedAttempt])
  · intro _ _ _
    exact keeps_throw _

theorem keeps_reset (hcaller : w.caller = .retry) (hfailed : w.stored.phase = .failed)
    (hfree : bound w.history = false) (hphase : task.phase = .scheduled)
    (hattempts : task.attempts = 0) (hlimit : task.maxAttempts = limit) :
    KeepsInv limit (persist task) w := by
  apply (Prog.keeps_ask _ _).mpr
  rintro result w' ⟨⟨elapsed, stored, hstored, rfl⟩, -⟩
  have hquiet := h.after elapsed
  exact ⟨hquiet.inv.save_reset hcaller hfailed (hquiet.free hfree) hphase hattempts hlimit _ _,
    Prog.keeps_done _⟩

theorem keeps_retryTask (hcaller : w.caller = .retry) : KeepsInv limit (retryTask w.stored) w := by
  apply keeps_registered h
  intro result w₁ hquiet₁ hclear
  have held₁ := hquiet₁.held _ h.stored
  rcases result with error | (_ | _)
  · cases error
    case deliveryInvalidated => exact keeps_fail hquiet₁.inv held₁ fun _ => rfl
    all_goals exact keeps_throw _
  · dsimp only
    split
    next => exact keeps_throw _
    next hcode =>
      -- nothing is bound where the stored code is another one
      have hfree : bound w.history = false := by
        by_contra hb
        have hinvalid := h.stored.kept (by simpa using hb)
        simp only [ManagementTask.invalidated, decide_eq_true_eq] at hinvalid
        exact hcode hinvalid.2
      apply keeps_deliveryExpired hquiet₁.inv
      intro expired w₂ hquiet₂ _
      have hquiet := hquiet₁.trans hquiet₂
      have held₂ := hquiet.held _ h.stored
      split
      next => exact keeps_fail hquiet.inv held₂ (by simp [hquiet.free hfree])
      next =>
        apply keeps_acceptedLocally hquiet.inv
        intro accepted w₃ hquiet₃
        have hquiet := hquiet.trans hquiet₃
        split
        next =>
          apply keeps_persist hquiet.inv
          · exact (hquiet.held _ h.stored).accepted (hquiet.free hfree)
          · exact .inr (by simp [ManagementTask.accepted])
        next =>
          split
          next hfailed =>
            apply keeps_reset hquiet.inv (hquiet.caller_eq.trans hcaller)
            · rw [hquiet.stored_eq]
              exact hfailed
            · exact hquiet.free hfree
            · rfl
            · rfl
            · exact h.stored.limit_eq
          next => exact keeps_throw _
  · exact keeps_persist hquiet₁.inv (held₁.registered (hclear rfl))
      (.inr (by simp [ManagementTask.registered]))

end

/-! ## Whole runs -/

theorem inv_authorizedAt (clock : Int) (limit : Nat) : Inv limit (authorizedAt clock limit) := by
  refine ⟨lawful_nil limit, ?_, ?_⟩
  · simp [authorizedAt, round, sends]
  · refine ⟨?_, Nat.zero_le _, rfl, ?_, fun _ => rfl, ?_⟩
    · simp [authorizedAt, round, sends]
    · simp [authorizedAt, ManagementTask.authorized]
    · simp [authorizedAt, bound]

theorem Inv.invoke (h : Inv limit w) (hcall : JoinManagement.invoke carefulAnswers w call w') :
    Inv limit w' := by
  obtain ⟨rest, hsteps⟩ := hcall
  have hinv : Inv limit { w with caller := call } :=
    ⟨h.lawful, h.past, h.stored.of_history rfl id⟩
  cases call with
  | advance => exact (keeps_advanceTask hinv rfl).steps hinv hsteps
  | retry => exact (keeps_retryTask hinv rfl).steps hinv hsteps

/-- In every run under the condition the attempts of a round are bounded, charged in advance
and apart, and a stored invalidation is kept until registration is confirmed. -/
theorem provisioning_bounded_and_remembered {clock : Int} {limit : Nat} {calls : List Call}
    {w : World} (hrun : Run (invoke carefulAnswers) (authorizedAt clock limit) calls w) :
    Bounded limit w.history ∧ Remembered w.history := by
  have hinv : Inv limit w :=
    Run.invariant (fun _ _ _ h hstep => h.invoke hstep) hrun (inv_authorizedAt clock limit)
  exact ⟨hinv.lawful.bounded, hinv.lawful.remembered⟩

/-! ## Scripted runs -/

structure Script where
  call : Call
  accepted : Bool
  expired : Bool
  registered : Except TransferError Bool
  sent : Except TransferError Unit

namespace Script

def answer (script : Script) (w : World) : (q : TaskIo) → q.Answer × World
  | .nowMs => (w.clock, w)
  | .acceptedLocally => (.ok script.accepted, w)
  | .deliveryExpired => (.ok script.expired, w)
  | .persist task => (.ok (), w.save task true true)
  | .registered =>
    (script.registered, w.observe (.registered (script.registered.toOption = some true)))
  | .send => (script.sent, w.observe (.send w.clock))

def play (script : Script) (w : World) : World :=
  ((script.call.program w.stored).run.run script.answer { w with caller := script.call }).2

theorem answers_answer (script : Script) (w : World) (q : TaskIo) :
    answers w q (script.answer w q).1 (script.answer w q).2 := by
  have hafter : w.after 0 = w := by simp [World.after]
  cases q with
  | persist task =>
    refine ⟨0, true, fun _ => rfl, ?_⟩
    rw [hafter]
    rfl
  | send =>
    refine ⟨0, 0, ?_⟩
    rw [hafter]
    simp [answer, World.observe, World.after]
  | nowMs => exact ⟨0, hafter.symm, rfl⟩
  | acceptedLocally => exact ⟨0, hafter.symm⟩
  | deliveryExpired => exact ⟨0, hafter.symm⟩
  | registered =>
    refine ⟨0, ?_⟩
    rw [hafter]
    rfl

theorem invoke_play (script : Script) (w : World) :
    invoke answers w script.call (script.play w) := by
  refine ⟨_, (Prog.steps_run (P := fun _ => True) ?_ _ trivial).1⟩
  intro w q _
  exact ⟨script.answers_answer w q, trivial⟩

theorem carefulInvoke_play (script : Script) (hexpired : script.expired = false) {w : World}
    (hclock : w.clock = 0) :
    invoke carefulAnswers w script.call (script.play w) ∧ (script.play w).clock = 0 := by
  have hallowed : ∀ w q, w.clock = 0 →
      carefulAnswers w q (script.answer w q).1 (script.answer w q).2 ∧
        (script.answer w q).2.clock = 0 := by
    intro w q hw
    refine ⟨⟨script.answers_answer w q, ?_⟩, ?_⟩
    · cases q with
      | nowMs =>
        change Roomy w.clock
        simp [Roomy, hw, retryDelayMs]
      | deliveryExpired =>
        intro htrue
        simp [answer, hexpired, Except.toOption] at htrue
      | _ => trivial
    · cases q <;> exact hw
  obtain ⟨hsteps, hend⟩ := Prog.steps_run (P := fun w => w.clock = 0) hallowed
    (script.call.program w.stored).run (w := { w with caller := script.call }) hclock
  exact ⟨⟨_, hsteps⟩, hend⟩

def rejected : Script :=
  { call := .advance, accepted := false, expired := false, registered := .ok false,
    sent := .error .transportRejected }

def retried : Script := { rejected with call := .retry }

def invalidating : Script := { retried with registered := .error .deliveryInvalidated }

def expiring : Script := { rejected with expired := true }

end Script

/-- A send is rejected, the task is retried, and the retry after it finds the delivery invalid:
the next call sends nothing and keeps the code. -/
theorem provisioning_bounded_of_rejected_send :
    ∃ w, Run (invoke carefulAnswers) (authorizedAt 0 maxAttempts)
        [.advance, .retry, .retry, .advance] w ∧
      sends w.history = [0] ∧ w.stored.failureCode = some "root_transfer.delivery_invalidated" ∧
      Bounded maxAttempts w.history ∧ Remembered w.history := by
  have hrejected := Script.rejected.carefulInvoke_play rfl (w := authorizedAt 0 maxAttempts) rfl
  have hretried := Script.retried.carefulInvoke_play rfl hrejected.2
  have hinvalid := Script.invalidating.carefulInvoke_play rfl hretried.2
  have hlast := Script.rejected.carefulInvoke_play rfl hinvalid.2
  have hrun := Run.cons hrejected.1 (.cons hretried.1 (.cons hinvalid.1 (.single hlast.1)))
  exact ⟨_, hrun, by decide +kernel, by decide +kernel, provisioning_bounded_and_remembered hrun⟩

/-- A retry that finds the delivery invalid before the new round has charged an attempt
stores an invalidation that the next `advance_task` replaces by an expiry. -/
theorem invalidation_forgotten :
    ∃ w, Run (invoke answers) (authorizedAt 0 maxAttempts)
      [.advance, .retry, .retry, .advance] w ∧ ¬ Remembered w.history := by
  refine ⟨_, .cons (Script.rejected.invoke_play _) (.cons (Script.retried.invoke_play _)
    (.cons (Script.invalidating.invoke_play _) (.cons (Script.expiring.invoke_play _)
      (.nil _)))), ?_⟩
  intro h
  let failed : ManagementTask :=
    { phase := .failed, attempts := 0, maxAttempts, nextAttemptAtMs := 5000,
      failureCode := some "root_transfer.delivery_invalidated" }
  have hlater := h
    ((Script.retried.play (Script.rejected.play (authorizedAt 0 maxAttempts))).history ++
      [.registered false]) .retry
    (Script.retried.play (Script.rejected.play (authorizedAt 0 maxAttempts))).stored failed true []
    (.persist .advance failed
      { failed with failureCode := some "root_transfer.delivery_expired" } true true) []
    (by decide +kernel) (by decide) (by simp)
  revert hlater
  decide

end JoinManagement
end Awiki

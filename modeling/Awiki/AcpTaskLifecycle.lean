import Awiki.AcpRuns
import Awiki.TaskSlots
import Awiki.TransitionRuns

/-!
# Every task ends exactly once

The operations of the daemon on a session move tasks as a machine with two slots does: the
rows of the session, seen through the identifiers of its tasks, refine `Slots`.  A task that
was submitted is executed, waits, or has a record that says how it ended.
-/

namespace Awiki
namespace Acp

open Tx

variable {ops : List Operation}

/-! ## Runs -/

structure World where
  db : AcpDb := {}
  /-- The runs that `try_insert_runtime_run` created for this session. -/
  attempted : List String := []
  /-- The tasks whose `submit` returned `Ok`. -/
  submitted : List Work := []
  /-- The runs that became active, in order. -/
  started : List String := []

def AcpDb.activeRun (db : AcpDb) : Option String :=
  db.session.bind fun s => s.active.map (·.runId)

def AcpDb.waitingRun (db : AcpDb) : Option String :=
  db.session.bind fun s => s.waiting.map (·.runId)

section Stepping

variable (key : String) (validate : Question → Json → Except String Json)

def World.step (w : World) (op : Operation) : Option World :=
  let runIds := (op.admitted.map (·.runId)).toList
  if op.wellFormed ∧ ∀ runId ∈ runIds, runId ∉ w.attempted then
    match (op.perform key validate).run w.db with
    | .ok _ db =>
      some
        { db := db
          attempted := w.attempted ++ runIds
          submitted := w.submitted ++ op.admitted.toList
          started :=
            if db.activeRun = w.db.activeRun then w.started
            else w.started ++ db.activeRun.toList }
    | .error _ db => some { w with db := db, attempted := w.attempted ++ runIds }
  else none

abbrev Runs : World → List Operation → World → Prop :=
  Run fun w op w' => w.step key validate op = some w'

end Stepping

/-! ## The machine with two slots -/

def AcpDb.endedRuns (db : AcpDb) : Set String :=
  { runId | ended (db.record? runId) = true }

def World.slots (w : World) : Slots String where
  active := w.db.activeRun
  waiting := w.db.waitingRun
  ended := w.db.endedRuns
  submitted := { runId | runId ∈ w.submitted.map (·.runId) }
  started := w.started

theorem saved_keeps {γ : Type} {f : Session → γ} (hf : ∀ s record, f (s.recorded record) = f s)
    (s : Session) : f s.saved = f { s with revision := s.revision + 1, pendingRecords := [] } := by
  have hfold : ∀ (records : List TaskRecord) (s : Session),
      f (records.foldl Session.recorded s) = f s := by
    intro records
    induction records with
    | nil => exact fun _ => rfl
    | cons record records ih => exact fun s => (ih (s.recorded record)).trans (hf s record)
  exact hfold _ _

theorem saved_active (s : Session) : s.saved.active = s.active :=
  saved_keeps (fun _ _ => rfl) s

theorem saved_waiting (s : Session) : s.saved.waiting = s.waiting :=
  saved_keeps (fun _ _ => rfl) s

theorem saved_pendingRecords (s : Session) : s.saved.pendingRecords = [] :=
  saved_keeps (fun _ _ => rfl) s

theorem saved_isBackground (s : Session) : s.saved.isBackground = s.isBackground :=
  saved_keeps (fun _ _ => rfl) s

variable {db : AcpDb} {s : Session} {record : TaskRecord} {w w' : World} {op : Operation}
  {key runId : String}

theorem activeRun_saved (h : db.session = some s.saved) :
    db.activeRun = s.active.map (·.runId) := by
  simp [AcpDb.activeRun, h, saved_active]

theorem waitingRun_saved (h : db.session = some s.saved) :
    db.waitingRun = s.waiting.map (·.runId) := by
  simp [AcpDb.waitingRun, h, saved_waiting]

theorem ended_savedRecords (hterminal : ∀ record ∈ s.pendingRecords, record.state.terminal = true)
    (runId : String) (old : Option TaskRecord) :
    ended (writes s.savedRecords runId old) =
      (ended old || s.pendingRecords.any (·.runId == runId)) := by
  rw [ended_writes]
  have hslot : ∀ (slot : Option Work) (state : TaskState) (includeOutput : Bool),
      state.terminal = false →
      ((slot.map fun work => s.saved.capture work state includeOutput).toList.any fun record =>
        record.runId == runId && record.state.terminal) = false := by
    intro slot state includeOutput hlive
    cases slot <;> simp [Session.capture, hlive]
  have hpending : ((s.pendingRecords.map ({ · with revision := s.revision + 1 })).any fun record =>
      record.runId == runId && record.state.terminal) =
        s.pendingRecords.any (·.runId == runId) := by
    rw [List.any_map, Bool.eq_iff_iff, List.any_eq_true, List.any_eq_true]
    refine exists_congr fun record => and_congr_right fun hrecord => ?_
    simp [hterminal record hrecord]
  unfold Session.savedRecords
  dsimp only
  rw [List.any_append, List.any_append, hpending, hslot, hslot, Bool.or_false, Bool.or_false]
  · split <;> rfl
  · split <;> rfl

/-! ## Moves -/

theorem endedRuns_of_nil {db' : AcpDb} (hnone : s.pendingRecords = [])
    (hrecords : ∀ runId, db'.record? runId = writes s.savedRecords runId (db.record? runId)) :
    db'.endedRuns = db.endedRuns := by
  ext runId
  simp only [AcpDb.endedRuns, Set.mem_ofPred_eq]
  rw [hrecords runId, ended_savedRecords (by simp [hnone]), hnone]
  simp

theorem endedRuns_of_singleton {db' : AcpDb} (hone : s.pendingRecords = [record])
    (hterminal : record.state.terminal = true)
    (hrecords : ∀ runId, db'.record? runId = writes s.savedRecords runId (db.record? runId)) :
    db'.endedRuns = insert record.runId db.endedRuns := by
  ext runId
  simp only [AcpDb.endedRuns, Set.mem_ofPred_eq, Set.mem_insert_iff]
  rw [hrecords runId, ended_savedRecords (by simpa [hone] using hterminal), hone]
  simp only [List.any_cons, List.any_nil, Bool.or_false, Bool.or_eq_true, beq_iff_eq]
  rw [or_comm, eq_comm]

theorem Effect.step (h : Effect w.db w'.db op)
    (hinv : w.slots.Inv)
    (hfresh : ∀ work, op.admitted = some work → work.runId ∉ w.submitted.map (·.runId))
    (hsubmitted : w'.submitted = w.submitted ++ op.admitted.toList)
    (hstarted : w'.started = if w'.db.activeRun = w.db.activeRun then w.started
      else w.started ++ w'.db.activeRun.toList) :
    w.slots.Step w'.slots := by
  have hnone : op.admitted = none → w'.slots.submitted = w.slots.submitted := by
    intro hadmitted
    simp [World.slots, hsubmitted, hadmitted]
  have hsome : ∀ work, op.admitted = some work →
      w'.slots.submitted = insert work.runId w.slots.submitted := by
    intro work hadmitted
    ext runId
    simp [World.slots, hsubmitted, hadmitted, or_comm, eq_comm]
  cases h with
  | still hadmitted hsession hrecords =>
    have hslots : w'.db.activeRun = w.db.activeRun ∧ w'.db.waitingRun = w.db.waitingRun := by
      simp [AcpDb.activeRun, AcpDb.waitingRun, hsession]
    refine Slots.Step.stay.of_eq hslots.1 hslots.2 ?_ (hnone hadmitted) ?_
    · ext runId
      simp [World.slots, AcpDb.endedRuns, (hrecords runId).ended]
    · simp [World.slots, hstarted, hslots.1]
  | moved s s' hrow hpending hchange hsession hrecords =>
    obtain ⟨hsame, hmoves⟩ := hchange.moves
    have hactive : w.slots.active = s.active.map (·.runId) := by
      rcases hrow with hrow | ⟨hrow, hidle, -⟩
      · simp [World.slots, AcpDb.activeRun, hrow]
      · simp [World.slots, AcpDb.activeRun, hrow, hidle]
    have hwaiting : w.slots.waiting = s.waiting.map (·.runId) := by
      rcases hrow with hrow | ⟨hrow, -, hidle⟩
      · simp [World.slots, AcpDb.waitingRun, hrow]
      · simp [World.slots, AcpDb.waitingRun, hrow, hidle]
    have hactive' : w'.slots.active = s'.active.map (·.runId) := activeRun_saved hsession
    have hwaiting' : w'.slots.waiting = s'.waiting.map (·.runId) := waitingRun_saved hsession
    have hsame' : w'.slots.active = w.slots.active → w'.slots.started = w.slots.started := by
      intro hkept
      exact hstarted.trans (if_pos hkept)
    have hstarts : ∀ runId, w'.slots.active = some runId → w.slots.active ≠ some runId →
        w'.slots.started = w.slots.started ++ [runId] := by
      intro runId hnow hbefore
      have hchanged : w'.db.activeRun ≠ w.db.activeRun := fun heq => hbefore (heq.symm.trans hnow)
      refine hstarted.trans ((if_neg hchanged).trans ?_)
      have hrun : w'.db.activeRun = some runId := hnow
      rw [hrun]
      rfl
    have hunended : s'.pendingRecords = s.pendingRecords →
        w'.slots.ended = w.slots.ended := fun heq =>
      endedRuns_of_nil (heq.trans hpending) hrecords
    have hends : ∀ {work record}, s.Leaves work record →
        s'.pendingRecords = s.pendingRecords ++ [record] →
        w'.slots.ended = insert work.runId w.slots.ended := by
      intro work record hleaves heq
      rw [hpending] at heq
      rw [← hleaves.runId]
      exact endedRuns_of_singleton heq hleaves.terminal hrecords
    generalize hadmitted : op.admitted = admitted at hmoves
    cases hmoves with
    | stay hkept hkept' hsaved =>
      rw [hkept] at hactive'
      rw [hkept'] at hwaiting'
      exact Slots.Step.stay.of_eq (hactive'.trans hactive.symm) (hwaiting'.trans hwaiting.symm)
        (hunended hsaved) (hnone hadmitted) (hsame' (hactive'.trans hactive.symm))
    | enter work hidle hfree hnow hempty hsaved =>
      rw [hidle] at hactive
      rw [hnow] at hactive'
      rw [hfree] at hwaiting
      rw [hempty] at hwaiting'
      refine (Slots.Step.enter work.runId (hfresh work hadmitted) hactive hwaiting).of_eq hactive'
        (hwaiting'.trans hwaiting.symm) (hunended hsaved) (hsome work hadmitted) ?_
      exact hstarts _ hactive' (by simp [hactive])
    | queue work _ hfree hkept hnow hsaved =>
      rw [hkept] at hactive'
      rw [hfree] at hwaiting
      rw [hnow] at hwaiting'
      exact (Slots.Step.queue work.runId (hfresh work hadmitted) hwaiting).of_eq
        (hactive'.trans hactive.symm) hwaiting' (hunended hsaved) (hsome work hadmitted)
        (hsame' (hactive'.trans hactive.symm))
    | leave work record hwork hleaves hidle hkept hsaved =>
      rw [hwork] at hactive
      rw [hidle] at hactive'
      rw [hkept] at hwaiting'
      refine (Slots.Step.leave work.runId hactive).of_eq hactive' (hwaiting'.trans hwaiting.symm)
        (hends hleaves hsaved) (hnone hadmitted) ?_
      have hgone : w'.db.activeRun = none := hactive'
      have hchanged : w'.db.activeRun ≠ w.db.activeRun := by
        intro heq
        exact absurd (hgone.symm.trans (heq.trans hactive)) (by simp)
      refine hstarted.trans ((if_neg hchanged).trans ?_)
      rw [hgone]
      exact List.append_nil _
    | follow work next record hwork hnext hleaves hnow hempty hsaved =>
      rw [hwork] at hactive
      rw [hnow] at hactive'
      rw [hnext] at hwaiting
      rw [hempty] at hwaiting'
      refine (Slots.Step.follow work.runId next.runId hactive hwaiting).of_eq hactive' hwaiting'
        (hends hleaves hsaved) (hnone hadmitted) ?_
      exact hstarts _ hactive' fun heq => hinv.distinct heq hwaiting rfl
    | cancel work record hwork hleaves hkept hempty hsaved =>
      rw [hkept] at hactive'
      rw [hwork] at hwaiting
      rw [hempty] at hwaiting'
      exact (Slots.Step.cancel work.runId hwaiting).of_eq (hactive'.trans hactive.symm) hwaiting'
        (hends hleaves hsaved) (hnone hadmitted) (hsame' (hactive'.trans hactive.symm))
    | resume work hidle hwork hnow hempty hsaved =>
      rw [hidle] at hactive
      rw [hnow] at hactive'
      rw [hwork] at hwaiting
      rw [hempty] at hwaiting'
      exact (Slots.Step.resume work.runId hactive hwaiting).of_eq hactive' hwaiting'
        (hunended hsaved) (hnone hadmitted) (hstarts _ hactive' (by simp [hactive]))

/-! ## What holds in every run -/

theorem World.step_cases {validate : Question → Json → Except String Json}
    (h : w.step key validate op = some w') :
    op.wellFormed = true ∧ (∀ work, op.admitted = some work → work.runId ∉ w.attempted) ∧
      w'.attempted = w.attempted ++ (op.admitted.map (·.runId)).toList ∧
      ((∃ reply, (op.perform key validate).run w.db = .ok reply w'.db ∧
          w'.submitted = w.submitted ++ op.admitted.toList ∧
          w'.started = if w'.db.activeRun = w.db.activeRun then w.started
            else w.started ++ w'.db.activeRun.toList) ∨
        (w'.db = w.db ∧ w'.submitted = w.submitted ∧ w'.started = w.started ∧
          ∃ e, (op.perform key validate).run w.db = .error e w.db)) := by
  unfold World.step at h
  dsimp only at h
  split at h
  · rename_i hguard
    refine ⟨hguard.1, ?_, ?_⟩
    · intro work hwork
      exact hguard.2 _ (by simp [hwork])
    · cases hperform : (op.perform key validate).run w.db with
      | ok reply db =>
        rw [hperform] at h
        cases h
        exact ⟨rfl, .inl ⟨reply, rfl, rfl, rfl⟩⟩
      | error e db =>
        rw [hperform] at h
        cases h
        obtain rfl := op.perform_failsClean key validate _ _ _ hperform
        exact ⟨rfl, .inr ⟨rfl, rfl, rfl, e, rfl⟩⟩
  · cases h

structure World.Valid (w : World) : Prop where
  clean : Clean w.db
  slots : w.slots.Inv
  known : ∀ work ∈ w.submitted, work.runId ∈ w.attempted
  background : ∀ runId record, w.db.record? runId = some record →
    ∃ s, w.db.session = some s ∧ record.background = s.isBackground
  agrees : EventsAgree w.db

theorem World.valid_empty : World.Valid {} := by
  constructor
  · intro s hs
    cases hs
  · refine Slots.inv_idle.step (Slots.Step.stay.of_eq rfl rfl ?_ ?_ rfl)
    · ext runId
      simp [World.slots, AcpDb.endedRuns, AcpDb.record?, ended, Slots.idle]
    · ext runId
      simp [World.slots, Slots.idle]
  · intro runId hmem
    cases hmem
  · intro runId record hrecord
    cases hrecord
  · exact ⟨fun _ => rfl, by simp⟩

theorem mem_of_writes {records : List TaskRecord} {old : Option TaskRecord}
    (h : writes records runId old = some record) :
    old = some record ∨ (record ∈ records ∧ record.runId = runId) := by
  induction records generalizing old with
  | nil => exact .inl h
  | cons first records ih =>
    rw [writes, List.foldl_cons] at h
    rcases ih h with hold | ⟨hmem, hrun⟩
    · unfold written at hold
      split at hold
      · rename_i hrun
        split at hold
        · exact .inl hold
        · cases hold
          exact .inr ⟨List.mem_cons_self, hrun⟩
      · exact .inl hold
    · exact .inr ⟨List.mem_cons_of_mem _ hmem, hrun⟩

theorem savedRecords_background {s' : Session} {admitted : Option Work} (hsame : s.Same s')
    (hmoves : s.Moves s' admitted) (hpending : s.pendingRecords = []) (h : record ∈ s'.savedRecords) :
    record.background = s'.isBackground := by
  have hscope : s'.isBackground = s.isBackground := by
    unfold Session.isBackground
    rw [hsame.scope]
  have hleft : ∀ record ∈ s'.pendingRecords, record.background = s.isBackground := by
    cases hmoves with
    | stay _ _ hrecords | enter _ _ _ _ _ hrecords | queue _ _ _ _ _ hrecords
      | resume _ _ _ _ _ hrecords =>
        rw [hrecords, hpending]
        simp
    | leave _ _ _ hleaves _ _ hrecords | follow _ _ _ _ _ hleaves _ _ hrecords
      | cancel _ _ _ hleaves _ _ hrecords =>
        rw [hrecords, hpending]
        simpa using hleaves.background
  unfold Session.savedRecords at h
  simp only [List.mem_append, List.mem_map, Option.mem_toList, Option.map_eq_some_iff] at h
  rcases h with (⟨record, hrecord, rfl⟩ | ⟨work, -, rfl⟩) | ⟨work, -, rfl⟩
  · exact (hleft record hrecord).trans hscope.symm
  · exact saved_isBackground s'
  · exact saved_isBackground s'

theorem World.Valid.mem_attempted (h : w.Valid) (hmem : runId ∈ w.submitted.map (·.runId)) :
    runId ∈ w.attempted := by
  obtain ⟨work, hwork, rfl⟩ := List.mem_map.mp hmem
  exact h.known work hwork

section

variable {validate : Question → Json → Except String Json}

theorem World.Valid.step (h : w.Valid) (hstep : w.step key validate op = some w') : w'.Valid := by
  obtain ⟨hop, hfresh, hattempted, hcases⟩ := World.step_cases hstep
  rcases hcases with ⟨reply, hperform, hsubmitted, hstarted⟩ | ⟨hdb, hsubmitted, hstarted, -⟩
  · have heffect := Operation.perform_effect hop h.clean hperform
    have hslots := heffect.step h.slots
      (fun work hwork hmem => hfresh work hwork (h.mem_attempted hmem)) hsubmitted hstarted
    refine ⟨?_, h.slots.step hslots, ?_, ?_, op.perform_agrees key validate _ _ _ h.agrees hperform⟩
    · cases heffect with
      | still _ hsession =>
        intro s hs
        exact h.clean s (hsession.symm.trans hs)
      | moved s s' _ _ _ hsession =>
        intro saved hs
        cases hsession.symm.trans hs
        exact saved_pendingRecords s'
    · intro work hmem
      rw [hsubmitted] at hmem
      rw [hattempted]
      rcases List.mem_append.mp hmem with hold | hnew
      · exact List.mem_append_left _ (h.known work hold)
      · refine List.mem_append_right _ ?_
        simpa using ⟨work, by simpa using hnew, rfl⟩
    · intro runId record hrecord
      cases heffect with
      | still _ hsession hrecords =>
        obtain ⟨f, hnew⟩ := hrecords runId
        rw [hrecord] at hnew
        obtain ⟨old, hold, rfl⟩ := Option.map_eq_some_iff.mp hnew.symm
        obtain ⟨s, hs, hbackground⟩ := h.background runId old hold
        exact ⟨s, hsession.trans hs, hbackground⟩
      | moved s s' hrow hpending hchange hsession hrecords =>
        obtain ⟨hsame, hmoves⟩ := hchange.moves
        refine ⟨s'.saved, hsession, ?_⟩
        rw [saved_isBackground]
        rw [hrecords runId] at hrecord
        rcases mem_of_writes hrecord with hold | ⟨hnew, -⟩
        · obtain ⟨s₀, hs₀, hbackground⟩ := h.background runId record hold
          rcases hrow with hrow | ⟨hrow, -⟩
          · cases hs₀.symm.trans hrow
            rw [hbackground]
            unfold Session.isBackground
            rw [hsame.scope]
          · cases hs₀.symm.trans hrow
        · exact savedRecords_background hsame hmoves hpending hnew
  · -- a failed operation changes nothing but the runs that were tried
    have hslots : w'.slots = w.slots := by
      simp [World.slots, hdb, hsubmitted, hstarted]
    refine ⟨hdb ▸ h.clean, hslots ▸ h.slots, ?_, hdb ▸ h.background, hdb ▸ h.agrees⟩
    intro work hmem
    rw [hattempted]
    exact List.mem_append_left _ (h.known work (hsubmitted ▸ hmem))

theorem World.Valid.run (h : w.Valid) (hrun : Runs key validate w ops w') : w'.Valid :=
  hrun.invariant (fun _ _ _ hw hstep => hw.step hstep) h

/-! ## Records that stay -/

theorem World.Valid.record_step (h : w.Valid) (hstep : w.step key validate op = some w')
    (hrecord : w.db.record? runId = some record) (hterminal : record.state.terminal = true) :
    ∃ delivery revision, w'.db.record? runId =
      some { record with delivery := delivery, revision := revision } := by
  obtain ⟨hop, -, -, hcases⟩ := World.step_cases hstep
  rcases hcases with ⟨reply, hperform, -, -⟩ | ⟨hdb, -, -⟩
  · cases Operation.perform_effect hop h.clean hperform with
    | still _ hsession hrecords =>
      obtain ⟨f, hnew⟩ := hrecords runId
      rw [hrecord] at hnew
      exact ⟨_, _, hnew⟩
    | moved s s' hrow hpending hchange hsession hrecords =>
      refine ⟨record.delivery, record.revision, ?_⟩
      have hended : ended (some record) = true := hterminal
      rw [hrecords runId, hrecord]
      exact writes_of_ended hended _
  · rw [hdb]
    exact ⟨record.delivery, record.revision, hrecord⟩

theorem World.Valid.record_run (h : w.Valid) (hrun : Runs key validate w ops w')
    (hrecord : w.db.record? runId = some record) (hterminal : record.state.terminal = true) :
    ∃ delivery revision, w'.db.record? runId =
      some { record with delivery := delivery, revision := revision } := by
  have hboth := hrun.invariant (P := fun v => v.Valid ∧ ∃ delivery revision,
    v.db.record? runId = some { record with delivery := delivery, revision := revision }) ?_ ?_
  · exact hboth.2
  · rintro v op v' ⟨hvalid, delivery, revision, hkept⟩ hstep
    refine ⟨hvalid.step hstep, ?_⟩
    obtain ⟨delivery', revision', hkept'⟩ := hvalid.record_step hstep hkept hterminal
    exact ⟨delivery', revision', hkept'⟩
  · exact ⟨h, record.delivery, record.revision, hrecord⟩

end

theorem World.Valid.terminalEvents_eq (h : w.Valid) (hs : w.db.session = some s)
    (hbackground : s.isBackground = false) (runId : String) :
    terminalEvents w.db.events runId = if ended (w.db.record? runId) then 1 else 0 := by
  rw [h.agrees.counted runId]
  cases hrecord : w.db.record? runId with
  | none => rfl
  | some record =>
    obtain ⟨s₀, hs₀, hrecord'⟩ := h.background runId record hrecord
    cases hs.symm.trans hs₀
    rw [hbackground] at hrecord'
    have hannounced : announced (some record) = ended (some record) := by
      simp [announced, ended, hrecord']
    rw [hannounced]

/-! ## The lifecycle of a task -/

def World.InOnePlace (w : World) (runId : String) : Prop :=
  (w.db.activeRun = some runId ∧ w.db.waitingRun ≠ some runId ∧
      ended (w.db.record? runId) = false) ∨
    (w.db.activeRun ≠ some runId ∧ w.db.waitingRun = some runId ∧
      ended (w.db.record? runId) = false) ∨
    (w.db.activeRun ≠ some runId ∧ w.db.waitingRun ≠ some runId ∧
      ended (w.db.record? runId) = true)

theorem World.Valid.inOnePlace (h : w.Valid) {work : Work} (hmem : work ∈ w.submitted) :
    w.InOnePlace work.runId := by
  have hone := h.slots.exactly_one (x := work.runId) (List.mem_map_of_mem hmem)
  simpa [World.InOnePlace, World.slots, AcpDb.endedRuns] using hone

/--
In every run on a session, whatever its operations: two tasks in the slots differ, a task
becomes active at most once, a submitted task is active, waiting or ended from then on, a task
that ended keeps its record up to the delivery and never comes back, and its end is told once,
by the transaction that ends it.
-/
theorem submitted_tasks_end_once {key : String}
    {validate : Question → Json → Except String Json} {ops later : List Operation}
    {w w' : World} (hrun : Runs key validate {} ops w) (hlater : Runs key validate w later w') :
    (∀ run run', w.db.activeRun = some run → w.db.waitingRun = some run' → run ≠ run') ∧
      w.started.Nodup ∧
      (∀ work ∈ w.submitted, w'.InOnePlace work.runId) ∧
      (∀ run record, w.db.record? run = some record → record.state.terminal = true →
        (∃ delivery revision, w'.db.record? run =
            some { record with delivery := delivery, revision := revision }) ∧
          w'.db.activeRun ≠ some run ∧ w'.db.waitingRun ≠ some run) ∧
      (∀ s, w'.db.session = some s → s.isBackground = false → ∀ run,
        ended (w'.db.record? run) = true → terminalEvents w'.db.events run = 1) ∧
      ∀ op next s, w.step key validate op = some next → next.db.session = some s →
        s.isBackground = false → ∀ run, ended (w.db.record? run) = false →
          ended (next.db.record? run) = true →
            terminalEvents w.db.events run = 0 ∧ terminalEvents next.db.events run = 1 := by
  have hvalid : w.Valid := World.valid_empty.run hrun
  have hvalid' : w'.Valid := hvalid.run hlater
  refine ⟨fun run run' hactive hwaiting => hvalid.slots.distinct hactive hwaiting,
    hvalid.slots.once, ?_, ?_, ?_, ?_⟩
  · intro work hwork
    have hkept : work ∈ w'.submitted := by
      refine hlater.invariant (P := fun v => work ∈ v.submitted) ?_ hwork
      intro v op v' hmem hstep
      obtain ⟨-, -, -, ⟨-, -, hsubmitted, -⟩ | ⟨-, hsubmitted, -⟩⟩ := World.step_cases hstep
      · rw [hsubmitted]
        exact List.mem_append_left _ hmem
      · rw [hsubmitted]
        exact hmem
    exact hvalid'.inOnePlace hkept
  · intro run record hrecord hterminal
    obtain ⟨delivery, revision, hkept⟩ := hvalid.record_run hlater hrecord hterminal
    have hended : run ∈ w'.slots.ended := by
      simpa [World.slots, AcpDb.endedRuns, hkept, ended] using hterminal
    refine ⟨⟨delivery, revision, hkept⟩, fun hactive => ?_, fun hwaiting => ?_⟩
    · exact (hvalid'.slots.active run hactive).2.2 hended
    · exact (hvalid'.slots.waiting run hwaiting).2.2 hended
  · intro s hs hbackground run hended
    rw [hvalid'.terminalEvents_eq hs hbackground, hended]
    rfl
  · intro op next s hstep hs hbackground run hlive hended
    have hnext : next.Valid := hvalid.step hstep
    constructor
    · rw [hvalid.agrees.counted run]
      have hsilent : announced (w.db.record? run) = false := by
        cases hrecord : w.db.record? run with
        | none => rfl
        | some record =>
          rw [hrecord] at hlive
          have hlive' : record.state.terminal = false := hlive
          simp [announced, hlive']
      rw [hsilent]
      rfl
    · rw [hnext.terminalEvents_eq hs hbackground, hended]
      rfl

namespace Sample

def task : RuntimeTask where
  security := .defaultPlain
  taskId := "task"
  agentDid := "did:agent"
  controllerScopeKey := "scope"
  controllerDid := "did:controller"
  requesterDid := "did:controller"
  triggerKind := .controllerDirect
  conversationScope := .controllerPrivate "scope"
  replyRecipientDid := "did:controller"
  conversationId := some "conversation"
  sourceMessageId := "message"

def first : Work := { task := task, runId := "run-a" }

def second : Work := { task := { task with taskId := "task-b" }, runId := "run-b" }

def validate : Question → Json → Except String Json := fun _ response => .ok response

def operations : List Operation := [.submit first, .submit second, .recover]

def ended : World := (operations.foldlM (World.step "key" validate) {}).getD {}

theorem interrupted_task_ended :
    ended.InOnePlace "run-a" ∧ ended.started.Nodup ∧ terminalEvents ended.db.events "run-a" = 1 := by
  have hrun : Runs "key" validate {} operations ended := Run.of_isSome (by decide +kernel)
  have hlifecycle := submitted_tasks_end_once hrun (.nil ended)
  refine ⟨hlifecycle.2.2.1 first ?_, hlifecycle.2.1, ?_⟩
  · decide +kernel
  · exact hlifecycle.2.2.2.2.1 (ended.db.session.getD (Session.new "key" task)) (by decide +kernel)
      (by decide +kernel) "run-a" (by decide +kernel)

end Sample

end Acp
end Awiki

import Mathlib.Data.Set.Insert
import Mathlib.Data.List.Nodup

/-!
# Two slots

Jobs pass through a machine that works on one job and keeps one more in front of it.  A job
that is handed in is worked on at once or waits; it leaves when its work ends, or while it
waits.  What holds over every sequence of such moves: a job is worked on at most once, it is
never lost, and one that left does not come back.
-/

namespace Awiki

variable {ι : Type*}

@[ext] structure Slots (ι : Type*) where
  active : Option ι
  waiting : Option ι
  ended : Set ι
  submitted : Set ι
  started : List ι

namespace Slots

def idle : Slots ι where
  active := none
  waiting := none
  ended := ∅
  submitted := ∅
  started := []

inductive Step (s : Slots ι) : Slots ι → Prop
  | stay : Step s s
  | enter (x : ι) (hfresh : x ∉ s.submitted) (hidle : s.active = none) (hnone : s.waiting = none) :
      Step s
        { s with
          active := some x
          submitted := insert x s.submitted
          started := s.started ++ [x] }
  | queue (x : ι) (hfresh : x ∉ s.submitted) (hnone : s.waiting = none) :
      Step s { s with waiting := some x, submitted := insert x s.submitted }
  | leave (x : ι) (hactive : s.active = some x) :
      Step s { s with active := none, ended := insert x s.ended }
  | follow (x y : ι) (hactive : s.active = some x) (hwaiting : s.waiting = some y) :
      Step s
        { s with
          active := some y
          waiting := none
          ended := insert x s.ended
          started := s.started ++ [y] }
  | cancel (y : ι) (hwaiting : s.waiting = some y) :
      Step s { s with waiting := none, ended := insert y s.ended }
  | resume (y : ι) (hidle : s.active = none) (hwaiting : s.waiting = some y) :
      Step s { s with active := some y, waiting := none, started := s.started ++ [y] }

theorem Step.of_eq {s t u : Slots ι} (h : s.Step t) (hactive : u.active = t.active)
    (hwaiting : u.waiting = t.waiting) (hended : u.ended = t.ended)
    (hsubmitted : u.submitted = t.submitted) (hstarted : u.started = t.started) : s.Step u := by
  rwa [Slots.ext hactive hwaiting hended hsubmitted hstarted]

structure Inv (s : Slots ι) : Prop where
  active : ∀ x, s.active = some x → x ∈ s.submitted ∧ x ∈ s.started ∧ x ∉ s.ended
  waiting : ∀ x, s.waiting = some x → x ∈ s.submitted ∧ x ∉ s.started ∧ x ∉ s.ended
  placed : ∀ x ∈ s.submitted, s.active = some x ∨ s.waiting = some x ∨ x ∈ s.ended
  ended : s.ended ⊆ s.submitted
  started : ∀ x ∈ s.started, x ∈ s.submitted
  once : s.started.Nodup

theorem inv_idle : Inv (idle : Slots ι) := by
  constructor <;> simp [idle]

namespace Inv

variable {s s' : Slots ι}

theorem distinct (h : Inv s) {x y : ι} (hx : s.active = some x) (hy : s.waiting = some y) :
    x ≠ y := by
  rintro rfl
  exact (h.waiting x hy).2.1 (h.active x hx).2.1

theorem exactly_one (h : Inv s) {x : ι} (hx : x ∈ s.submitted) :
    (s.active = some x ∧ s.waiting ≠ some x ∧ x ∉ s.ended) ∨
      (s.active ≠ some x ∧ s.waiting = some x ∧ x ∉ s.ended) ∨
      (s.active ≠ some x ∧ s.waiting ≠ some x ∧ x ∈ s.ended) := by
  rcases h.placed x hx with hactive | hwaiting | hended
  · exact .inl ⟨hactive, fun hwaiting => h.distinct hactive hwaiting rfl, (h.active x hactive).2.2⟩
  · refine .inr (.inl ⟨fun hactive => h.distinct hactive hwaiting rfl, hwaiting, ?_⟩)
    exact (h.waiting x hwaiting).2.2
  · refine .inr (.inr ⟨fun hactive => ?_, fun hwaiting => ?_, hended⟩)
    · exact (h.active x hactive).2.2 hended
    · exact (h.waiting x hwaiting).2.2 hended

theorem fresh (h : Inv s) {x : ι} (hx : x ∉ s.submitted) : x ∉ s.started ∧ x ∉ s.ended :=
  ⟨fun hstarted => hx (h.started x hstarted), fun hended => hx (h.ended hended)⟩

theorem queue (h : Inv s) {x : ι} (hfresh : x ∉ s.submitted) (hnone : s.waiting = none) :
    Inv { s with waiting := some x, submitted := insert x s.submitted } := by
  obtain ⟨hunstarted, hunended⟩ := h.fresh hfresh
  constructor
  · intro y hy
    obtain ⟨hsubmitted, hrest⟩ := h.active y hy
    exact ⟨.inr hsubmitted, hrest⟩
  · rintro y ⟨⟩
    exact ⟨.inl rfl, hunstarted, hunended⟩
  · rintro y (rfl | hy)
    · exact .inr (.inl rfl)
    · have hplaced := h.placed y hy
      rw [hnone] at hplaced
      rcases hplaced with hactive | hwaiting | hended
      · exact .inl hactive
      · cases hwaiting
      · exact .inr (.inr hended)
  · exact fun y hy => .inr (h.ended hy)
  · exact fun y hy => .inr (h.started y hy)
  · exact h.once

theorem leave (h : Inv s) {x : ι} (hactive : s.active = some x) :
    Inv { s with active := none, ended := insert x s.ended } := by
  constructor
  · intro y hy
    cases hy
  · intro y hy
    obtain ⟨hsubmitted, hunstarted, hunended⟩ := h.waiting y hy
    refine ⟨hsubmitted, hunstarted, ?_⟩
    rintro (rfl | hended)
    · exact h.distinct hactive hy rfl
    · exact hunended hended
  · intro y hy
    rcases h.placed y hy with hold | hwaiting | hended
    · cases hactive.symm.trans hold
      exact .inr (.inr (.inl rfl))
    · exact .inr (.inl hwaiting)
    · exact .inr (.inr (.inr hended))
  · rintro y (rfl | hy)
    · exact (h.active _ hactive).1
    · exact h.ended hy
  · exact h.started
  · exact h.once

theorem cancel (h : Inv s) {y : ι} (hwaiting : s.waiting = some y) :
    Inv { s with waiting := none, ended := insert y s.ended } := by
  constructor
  · intro x hx
    obtain ⟨hsubmitted, hstarted, hunended⟩ := h.active x hx
    refine ⟨hsubmitted, hstarted, ?_⟩
    rintro (rfl | hended)
    · exact h.distinct hx hwaiting rfl
    · exact hunended hended
  · intro z hz
    cases hz
  · intro z hz
    rcases h.placed z hz with hactive | hold | hended
    · exact .inl hactive
    · cases hwaiting.symm.trans hold
      exact .inr (.inr (.inl rfl))
    · exact .inr (.inr (.inr hended))
  · rintro z (rfl | hz)
    · exact (h.waiting _ hwaiting).1
    · exact h.ended hz
  · exact h.started
  · exact h.once

theorem resume (h : Inv s) {y : ι} (hidle : s.active = none) (hwaiting : s.waiting = some y) :
    Inv { s with active := some y, waiting := none, started := s.started ++ [y] } := by
  obtain ⟨hsubmitted, hunstarted, hunended⟩ := h.waiting y hwaiting
  constructor
  · rintro z ⟨⟩
    exact ⟨hsubmitted, by simp, hunended⟩
  · intro z hz
    cases hz
  · intro z hz
    rcases h.placed z hz with hold | hold | hended
    · cases hidle.symm.trans hold
    · exact .inl (hwaiting.symm.trans hold)
    · exact .inr (.inr hended)
  · exact h.ended
  · intro z hz
    rcases List.mem_append.mp hz with hold | hnew
    · exact h.started z hold
    · rw [List.mem_singleton.mp hnew]
      exact hsubmitted
  · simpa using List.Nodup.concat hunstarted h.once

theorem step (h : Inv s) (hstep : s.Step s') : Inv s' := by
  cases hstep with
  | stay => exact h
  | enter x hfresh hidle hnone =>
    have hinv := (h.queue hfresh hnone).resume hidle rfl
    rwa [← hnone] at hinv
  | queue x hfresh hnone => exact h.queue hfresh hnone
  | leave x hactive => exact h.leave hactive
  | follow x y hactive hwaiting => exact (h.leave hactive).resume rfl hwaiting
  | cancel y hwaiting => exact h.cancel hwaiting
  | resume y hidle hwaiting => exact h.resume hidle hwaiting

end Inv

end Slots
end Awiki

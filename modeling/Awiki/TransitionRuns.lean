import Mathlib.Data.List.Basic

/-!
# Runs of a labelled transition relation

A protocol is given by a step relation `step s e t`: in state `s` the event `e`
can happen and lead to `t`.  A run is a finite sequence of steps together with
the list of its events.  The results here are the invariant rule, the ways to
cut a run at an event, and the rule that locates the step at which a property
of states is gained.
-/

namespace Awiki

variable {σ ε : Type*} {next : σ → ε → Option σ} {P : σ → Prop}

/-- `Run step s events t`: the events happen one after the other from `s` to `t`. -/
inductive Run (step : σ → ε → σ → Prop) : σ → List ε → σ → Prop
  | nil (s : σ) : Run step s [] s
  | cons {s t u : σ} {e : ε} {es : List ε} :
      step s e t → Run step t es u → Run step s (e :: es) u

namespace Run

variable {step : σ → ε → σ → Prop} {s t u : σ} {e : ε} {es fs : List ε}

@[simp] theorem nil_iff : Run step s [] t ↔ s = t := by
  constructor
  · intro h
    cases h
    rfl
  · rintro rfl
    exact .nil s

theorem cons_iff :
    Run step s (e :: es) u ↔ ∃ t, step s e t ∧ Run step t es u := by
  constructor
  · intro h
    cases h with
    | cons hstep hrest => exact ⟨_, hstep, hrest⟩
  · rintro ⟨t, hstep, hrest⟩
    exact .cons hstep hrest

theorem append_iff :
    Run step s (es ++ fs) u ↔ ∃ t, Run step s es t ∧ Run step t fs u := by
  induction es generalizing s with
  | nil => simp
  | cons e es ih =>
    simp only [List.cons_append, cons_iff, ih]
    constructor
    · rintro ⟨t, hstep, v, hes, hfs⟩
      exact ⟨v, ⟨t, hstep, hes⟩, hfs⟩
    · rintro ⟨v, ⟨t, hstep, hes⟩, hfs⟩
      exact ⟨t, hstep, v, hes, hfs⟩

theorem around (h : Run step s (es ++ e :: fs) u) :
    ∃ t t', Run step s es t ∧ step t e t' ∧ Run step t' fs u := by
  obtain ⟨t, hes, hrest⟩ := append_iff.mp h
  obtain ⟨t', hstep, hfs⟩ := cons_iff.mp hrest
  exact ⟨t, t', hes, hstep, hfs⟩

theorem single_iff : Run step s [e] t ↔ step s e t := by
  simp [cons_iff]

theorem single (h : step s e t) : Run step s [e] t :=
  single_iff.mpr h

/-- A property that every step keeps holds at the end of every run. -/
theorem invariant (hstep : ∀ s e t, P s → step s e t → P t) (hrun : Run step s es t) (hs : P s) :
    P t := by
  induction hrun with
  | nil s => exact hs
  | cons h _ ih => exact ih (hstep _ _ _ hs h)

/--
The invariant rule with a side condition on events: only the events of this run
have to keep the property.
-/
theorem invariant_of_mem (hrun : Run step s es t) (hs : P s)
    (hstep : ∀ s t, ∀ e ∈ es, P s → step s e t → P t) : P t := by
  induction hrun with
  | nil s => exact hs
  | cons h _ ih =>
    refine ih (hstep _ _ _ List.mem_cons_self hs h) ?_
    intro s t e he
    exact hstep s t e (List.mem_cons_of_mem _ he)

theorem weaken {step' : σ → ε → σ → Prop}
    (himp : ∀ s e t, step s e t → step' s e t)
    (hrun : Run step s es t) : Run step' s es t := by
  induction hrun with
  | nil s => exact .nil s
  | cons h _ ih => exact .cons (himp _ _ _ h) ih

theorem of_foldlM (h : es.foldlM next s = some t) :
    Run (fun s e t => next s e = some t) s es t := by
  induction es generalizing s with
  | nil =>
    cases h
    exact .nil _
  | cons e es ih =>
    rw [List.foldlM_cons] at h
    obtain ⟨s', hnext, hrest⟩ := Option.bind_eq_some_iff.mp h
    exact .cons hnext (ih hrest)

theorem of_isSome {default : σ} (h : (es.foldlM next s).isSome = true) :
    Run (fun s e t => next s e = some t) s es ((es.foldlM next s).getD default) := by
  obtain ⟨t, ht⟩ := Option.isSome_iff_exists.mp h
  rw [ht]
  exact of_foldlM ht

/-- The run of a list of events that can be executed, each of them under a condition. -/
theorem of_checked {ok : σ → ε → Prop} [∀ s e, Decidable (ok s e)] {default : σ}
    (h : (es.foldlM (fun s e => if ok s e then next s e else none) s).isSome = true) :
    Run (fun s e t => ok s e ∧ next s e = some t) s es ((es.foldlM next s).getD default) := by
  induction es generalizing s with
  | nil => exact .nil s
  | cons e es ih =>
    rw [List.foldlM_cons] at h
    obtain ⟨u, hu⟩ := Option.isSome_iff_exists.mp h
    obtain ⟨t, ht, hrest⟩ := Option.bind_eq_some_iff.mp hu
    split at ht
    · rename_i hok
      have hfold : (e :: es).foldlM next s = es.foldlM next t := by
        rw [List.foldlM_cons, ht]
        rfl
      rw [hfold]
      exact .cons ⟨hok, ht⟩ (ih (by rw [hrest]; rfl))
    · cases ht

/-- The run of a total step function over events that all meet a condition. -/
theorem of_foldl {next : σ → ε → σ} {ok : ε → Prop} (h : ∀ e ∈ es, ok e) (s : σ) :
    Run (fun s e t => ok e ∧ next s e = t) s es (es.foldl next s) := by
  induction es generalizing s with
  | nil => exact .nil s
  | cons e es ih =>
    refine .cons ⟨h e List.mem_cons_self, rfl⟩ (ih ?_ _)
    intro e' he'
    exact h e' (List.mem_cons_of_mem _ he')

/--
A property that fails at the start and holds at the end is gained by one of the
steps: it fails in the state before that step and holds in the state after it.
-/
theorem exists_gain (hrun : Run step s es t) (hs : ¬ P s) (ht : P t) :
    ∃ before e after v v', es = before ++ e :: after ∧
      Run step s before v ∧ ¬ P v ∧ step v e v' ∧ P v' ∧ Run step v' after t := by
  induction hrun with
  | nil s => exact absurd ht hs
  | @cons s v t e es h hrest ih =>
    by_cases hv : P v
    · exact ⟨[], e, es, s, v, rfl, .nil s, hs, h, hv, hrest⟩
    · obtain ⟨before, e', after, w, w', rfl, hbefore, hw, hw', hPw', hafter⟩ := ih hv ht
      exact ⟨e :: before, e', after, w, w', rfl, .cons h hbefore, hw, hw', hPw', hafter⟩

end Run
end Awiki

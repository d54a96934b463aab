import Mathlib.Data.List.Basic

/-!
# Programs that interact with an environment

A program asks the environment one question after the other and continues with the
answers; between two questions it has no effect.  The environment is a relation
`step w q r w'`: in the world `w` the question `q` may be answered by `r`, and the world is
`w'` then.  A process can die at any question, so what has to hold at all times has to hold
after every single answer.

`Safe` is the rule for this: every answer takes the world along `guar`, and a program that
ends does so with its postcondition.  Between two answers of one process others may move the
world along `rely`.
-/

namespace Awiki

/-- A program over the questions `Q`, where `q` is answered by a value of `R q`. -/
inductive Prog (Q : Type) (R : Q → Type) (α : Type) : Type
  | done (result : α) : Prog Q R α
  | ask (question : Q) (next : R question → Prog Q R α) : Prog Q R α

namespace Prog

variable {Q : Type} {R : Q → Type} {α β σ : Type}

def bind : Prog Q R α → (α → Prog Q R β) → Prog Q R β
  | .done a, f => f a
  | .ask q next, f => .ask q fun r => (next r).bind f

instance : Monad (Prog Q R) where
  pure := .done
  bind := bind

def call (q : Q) : Prog Q R (R q) := .ask q .done

@[simp] theorem pure_eq (a : α) : (pure a : Prog Q R α) = .done a := rfl

@[simp] theorem done_bind (a : α) (f : α → Prog Q R β) : (Prog.done a >>= f) = f a := rfl

@[simp] theorem ask_bind (q : Q) (next : R q → Prog Q R α) (f : α → Prog Q R β) :
    (Prog.ask q next >>= f) = .ask q fun r => next r >>= f := rfl

inductive Steps (step : σ → (q : Q) → R q → σ → Prop) :
    Prog Q R α → σ → Prog Q R α → σ → Prop
  | refl (p : Prog Q R α) (w : σ) : Steps step p w p w
  | answer {q : Q} {next : R q → Prog Q R α} {w w' w'' : σ} {r : R q} {p : Prog Q R α} :
      step w q r w' → Steps step (next r) w' p w'' → Steps step (.ask q next) w p w''

def run (answer : σ → (q : Q) → R q × σ) : Prog Q R α → σ → α × σ
  | .done a, w => (a, w)
  | .ask q next, w => (next (answer w q).1).run answer (answer w q).2

theorem steps_run {step : σ → (q : Q) → R q → σ → Prop} {answer : σ → (q : Q) → R q × σ}
    {P : σ → Prop}
    (h : ∀ w q, P w → step w q (answer w q).1 (answer w q).2 ∧ P (answer w q).2)
    (p : Prog Q R α) {w : σ} (hw : P w) :
    Steps step p w (.done (p.run answer w).1) (p.run answer w).2 ∧ P (p.run answer w).2 := by
  induction p generalizing w with
  | done a => exact ⟨.refl _ _, hw⟩
  | ask q next ih =>
    obtain ⟨hstep, hnext⟩ := h w q hw
    obtain ⟨hsteps, hend⟩ := ih (answer w q).1 hnext
    exact ⟨.answer hstep hsteps, hend⟩

/-! ## The rule -/

/-- Every answer moves the world along `guar`, whatever others do along `rely`. -/
def Safe (step : σ → (q : Q) → R q → σ → Prop) (rely guar : σ → σ → Prop)
    (post : α → σ → Prop) : Prog Q R α → σ → Prop
  | .done a, w => ∀ w', rely w w' → post a w'
  | .ask q next, w => ∀ w', rely w w' → ∀ r w'', step w' q r w'' →
      guar w' w'' ∧ Safe step rely guar post (next r) w''

/-- Nobody else moves the world, and `inv` holds after every answer. -/
abbrev Keeps (step : σ → (q : Q) → R q → σ → Prop) (inv : σ → Prop) :
    Prog Q R α → σ → Prop :=
  Safe step Eq (fun _ w => inv w) fun _ _ => True

section Keeps

variable {step : σ → (q : Q) → R q → σ → Prop} {inv : σ → Prop} {w w' : σ}

@[simp] theorem keeps_done (a : α) : Keeps step inv (.done a : Prog Q R α) w := by
  intro w' _
  trivial

@[simp] theorem keeps_ask (q : Q) (next : R q → Prog Q R α) :
    Keeps step inv (.ask q next) w ↔
      ∀ r w', step w q r w' → inv w' ∧ Keeps step inv (next r) w' := by
  constructor
  · intro h
    exact h w rfl
  · rintro h w' rfl
    exact h

theorem Keeps.steps {p p' : Prog Q R α} (h : Keeps step inv p w) (hw : inv w)
    (hsteps : Steps step p w p' w') : inv w' := by
  induction hsteps with
  | refl => exact hw
  | answer hstep _ ih =>
    obtain ⟨hinv, hrest⟩ := (keeps_ask _ _).mp h _ _ hstep
    exact ih hrest hinv

end Keeps
end Prog
end Awiki

import Mathlib.Data.List.Basic
import Mathlib.Data.List.Forall2

/-!
# Database computations and immediate transactions

A database computation reads and writes a store of type `σ` and can fail with an
error `ε`; a failed computation still has a store, the one its last statement
left behind.  `immediate` runs a computation as one transaction: only an explicit
commit keeps its writes, an error or an early return restores the store that the
transaction started from.

The rules below take a computation apart at its successful outcome, and frame
rules say which part of the store a computation leaves alone.
-/

namespace Awiki

abbrev Tx (ε σ α : Type) : Type := EStateM ε σ α

namespace Tx

variable {ε σ α β : Type} {bad : Bool} {c : Prop} {x : Tx ε σ α}

def query (f : σ → α) : Tx ε σ α := fun s => .ok (f s) s

def execute (f : σ → σ) : Tx ε σ Unit := fun s => .ok () (f s)

/-- `if bad { return Err(e) }`. -/
def refuseIf (bad : Bool) (e : ε) : Tx ε σ Unit :=
  if bad then throw e else pure ()

def attempt (x : Except ε α) : Tx ε σ α :=
  match x with
  | .ok a => pure a
  | .error e => throw e

/-- `option.ok_or(e)?`. -/
def orError (x : Option α) (e : ε) : Tx ε σ α :=
  match x with
  | some a => pure a
  | none => throw e

def forEach (xs : List α) (f : α → Tx ε σ Unit) : Tx ε σ Unit :=
  match xs with
  | [] => pure ()
  | x :: xs => do
      f x
      forEach xs f

theorem forEach_map (xs : List α) (g : α → β) (f : β → Tx ε σ Unit) :
    forEach (xs.map g) f = forEach xs fun x => f (g x) := by
  induction xs with
  | nil => rfl
  | cons x xs ih => simp only [List.map_cons, forEach, ih]

inductive Ending (α : Type) where
  | commit (value : α)
  | rollback (value : α)

def immediate (body : Tx ε σ (Ending α)) : Tx ε σ α := fun s =>
  match body.run s with
  | .ok (.commit a) t => .ok a t
  | .ok (.rollback a) _ => .ok a s
  | .error e _ => .error e s

/-! ## Successful outcomes -/

section Outcomes

variable {s t u : σ} {a : α} {b : β} {e e' : ε}

@[simp] theorem pure_ok {a' : α} :
    (pure a : Tx ε σ α).run s = .ok a' t ↔ a = a' ∧ s = t := by
  simp [EStateM.run_pure]

@[simp] theorem throw_ok : (throw e : Tx ε σ α).run s = .ok a t ↔ False := by
  constructor
  · intro h
    cases h
  · exact False.elim

variable {v : Unit} {f : α → Except ε β} {xs : List α} {body : Tx ε σ (Ending α)}

theorem bind_ok {f : α → Tx ε σ β} :
    (x >>= f).run s = .ok b u ↔
      ∃ a t, x.run s = .ok a t ∧ (f a).run t = .ok b u := by
  rw [EStateM.run_bind]
  constructor
  · intro h
    cases hx : x.run s with
    | ok a t =>
      rw [hx] at h
      exact ⟨a, t, rfl, h⟩
    | error e t =>
      rw [hx] at h
      cases h
  · rintro ⟨a, t, hx, hf⟩
    rw [hx]
    exact hf

theorem bind_error {f : α → Tx ε σ β} :
    (x >>= f).run s = .error e u ↔
      x.run s = .error e u ∨ ∃ a t, x.run s = .ok a t ∧ (f a).run t = .error e u := by
  rw [EStateM.run_bind]
  cases hx : x.run s with
  | ok a t => simp
  | error e t => simp

@[simp] theorem query_ok {f : σ → β} :
    (query f : Tx ε σ β).run s = .ok b t ↔ f s = b ∧ s = t := by
  simp [query, EStateM.run]

@[simp] theorem execute_ok {f : σ → σ} :
    (execute f : Tx ε σ Unit).run s = .ok v t ↔ f s = t := by
  simp [execute, EStateM.run]

@[simp] theorem refuseIf_ok :
    (refuseIf bad e : Tx ε σ Unit).run s = .ok v t ↔ bad = false ∧ s = t := by
  cases bad <;> simp [refuseIf]

theorem forEach_execute_ok {g : β → σ → σ} {xs : List β} :
    (forEach xs fun x => execute (g x) : Tx ε σ Unit).run s = .ok v t ↔
      t = xs.foldl (fun s x => g x s) s := by
  induction xs generalizing s with
  | nil => simp [forEach, eq_comm]
  | cons x xs ih =>
    rw [forEach, bind_ok]
    simp [ih]

theorem except_map_ok {x : Except ε α} {f : α → β} {b : β} :
    x.map f = .ok b ↔ ∃ a, x = .ok a ∧ f a = b := by
  cases x with
  | error e => simp [Except.map]
  | ok a => simp [Except.map]

theorem except_bind_ok {x : Except ε α} {b : β} :
    (x >>= f) = .ok b ↔ ∃ a, x = .ok a ∧ f a = .ok b := by
  cases x with
  | error e => simp [bind, Except.bind]
  | ok a => simp [bind, Except.bind]

theorem except_ok_bind {a : α} : (Except.ok a >>= f : Except ε β) = f a :=
  rfl

theorem except_bind_total {x : Except ε α} (hx : ∃ a, x = .ok a)
    (hf : ∀ a, x = .ok a → ∃ b, f a = .ok b) : ∃ b, (x >>= f) = .ok b := by
  obtain ⟨a, ha⟩ := hx
  obtain ⟨b, hb⟩ := hf a ha
  exact ⟨b, except_bind_ok.mpr ⟨a, ha, hb⟩⟩

theorem except_map_total {x : Except ε α} {g : α → β} (hx : ∃ a, x = .ok a) :
    ∃ b, x.map g = .ok b := by
  obtain ⟨a, rfl⟩ := hx
  exact ⟨g a, rfl⟩

theorem except_toOption_ok {x : Except ε α} {a : α} : x.toOption = some a ↔ x = .ok a := by
  cases x <;> simp [Except.toOption]

theorem except_of_isSome {x : Except ε α} (h : x.toOption.isSome = true) : ∃ a, x = .ok a := by
  obtain ⟨a, ha⟩ := Option.isSome_iff_exists.mp h
  exact ⟨a, except_toOption_ok.mp ha⟩

theorem except_then {x : Except ε α} {y : Except ε β} {b : β} (h : (x >>= fun _ => y) = .ok b) :
    y = .ok b := by
  obtain ⟨_, -, hy⟩ := except_bind_ok.mp h
  exact hy

theorem except_unless [Decidable c] {x : Except ε α} {a : α} :
    (if c then .error e else x) = .ok a ↔ ¬ c ∧ x = .ok a := by
  split <;> simp [*]

theorem except_when [Decidable c] {x : Except ε α} {a : α} :
    (if c then x else .error e) = .ok a ↔ c ∧ x = .ok a := by
  split <;> simp [*]

/-- A loop that collects its results has a result for every element. -/
theorem except_mapM_mem {ys : List β} {x : α} (h : xs.mapM f = .ok ys) (hx : x ∈ xs) :
    ∃ y ∈ ys, f x = .ok y := by
  induction xs generalizing ys with
  | nil => cases hx
  | cons first rest ih =>
    rw [List.mapM_cons] at h
    obtain ⟨y, hy, h⟩ := except_bind_ok.mp h
    obtain ⟨tail, htail, h⟩ := except_bind_ok.mp h
    cases h
    rcases List.mem_cons.mp hx with rfl | hx
    · exact ⟨y, List.mem_cons_self, hy⟩
    · obtain ⟨z, hz, hfz⟩ := ih htail hx
      exact ⟨z, List.mem_cons_of_mem _ hz, hfz⟩

theorem except_elim_ok {x : Option β} :
    x.elim (.error e) (Except.ok : β → Except ε β) = .ok b ↔ x = some b := by
  cases x <;> simp

theorem option_mapM_ok {x : Option α} {y : Option β} (h : x.mapM f = .ok y) :
    (x = none ∧ y = none) ∨ ∃ a b, x = some a ∧ f a = .ok b ∧ y = some b := by
  cases x with
  | none =>
    cases h
    exact .inl ⟨rfl, rfl⟩
  | some a =>
    right
    cases hf : f a with
    | error e =>
      simp only [Option.mapM_some, hf] at h
      cases h
    | ok b =>
      simp only [Option.mapM_some, hf] at h
      cases h
      exact ⟨a, b, rfl, hf, rfl⟩

@[simp] theorem attempt_ok {x : Except ε β} :
    (attempt x : Tx ε σ β).run s = .ok b t ↔ x = .ok b ∧ s = t := by
  cases x <;> simp [attempt]

@[simp] theorem orError_ok {x : Option β} :
    (orError x e : Tx ε σ β).run s = .ok b t ↔ x = some b ∧ s = t := by
  cases x <;> simp [orError]

section Sequences

variable {k : β → Tx ε σ α} {next : Unit → Tx ε σ α}

theorem query_bind_ok {f : σ → β} :
    (query f >>= k).run s = .ok a t ↔ ∃ b, f s = b ∧ (k b).run s = .ok a t := by
  rw [bind_ok]
  simp

theorem execute_bind_ok {f : σ → σ} :
    (execute f >>= next).run s = .ok a t ↔ (next ()).run (f s) = .ok a t := by
  rw [bind_ok]
  simp [Unique.exists_iff]

theorem refuseIf_bind_ok :
    (refuseIf bad e >>= next).run s = .ok a t ↔ bad = false ∧ (next ()).run s = .ok a t := by
  rw [bind_ok]
  simp [Unique.exists_iff]

theorem attempt_bind_ok {x : Except ε β} :
    (attempt x >>= k).run s = .ok a t ↔ ∃ b, x = .ok b ∧ (k b).run s = .ok a t := by
  rw [bind_ok]
  simp

theorem orError_bind_ok {x : Option β} :
    (orError x e >>= k).run s = .ok a t ↔ ∃ b, x = some b ∧ (k b).run s = .ok a t := by
  rw [bind_ok]
  simp

theorem bind_pure_ok {x : Tx ε σ β} {f : β → α} :
    (x >>= fun b => pure (f b)).run s = .ok a t ↔ ∃ b, x.run s = .ok b t ∧ f b = a := by
  rw [bind_ok]
  simp

end Sequences

theorem immediate_ok :
    (immediate body).run s = .ok a t ↔
      body.run s = .ok (.commit a) t ∨ s = t ∧ ∃ v, body.run s = .ok (.rollback a) v := by
  show immediate body s = .ok a t ↔ _
  unfold immediate
  cases hbody : body.run s with
  | ok ending v =>
    cases ending with
    | commit c => simp
    | rollback c =>
      simp only [EStateM.Result.ok.injEq, reduceCtorEq, false_and, Ending.rollback.injEq,
        false_or]
      constructor
      · rintro ⟨rfl, rfl⟩
        exact ⟨rfl, v, rfl, rfl⟩
      · rintro ⟨rfl, v', rfl, rfl⟩
        exact ⟨rfl, rfl⟩
  | error e v => simp

theorem immediate_body (h : (immediate body).run s = .ok a t) :
    ∃ ending u, body.run s = .ok ending u := by
  rcases immediate_ok.mp h with hcommit | ⟨-, u, hrollback⟩
  · exact ⟨_, _, hcommit⟩
  · exact ⟨_, _, hrollback⟩

theorem immediate_error (h : (immediate body).run s = .error e t) : t = s := by
  change immediate body s = .error e t at h
  unfold immediate at h
  split at h
  · cases h
  · cases h
  · cases h
    rfl

theorem run_bind_of_ok {f : α → Tx ε σ β} (h : x.run s = .ok a t) :
    (x >>= f).run s = (f a).run t := by
  rw [EStateM.run_bind, h]

theorem body_of_immediate_error (h : (immediate body).run s = .error e t) :
    ∃ u, body.run s = .error e u := by
  change immediate body s = .error e t at h
  unfold immediate at h
  split at h
  · cases h
  · cases h
  · rename_i e' u hbody
    cases h
    exact ⟨u, hbody⟩

theorem immediate_of_error (h : body.run s = .error e t) :
    (immediate body).run s = .error e s := by
  show immediate body s = .error e s
  unfold immediate
  rw [h]

end Outcomes

/-! ## Failures that write nothing -/

def FailsClean (x : Tx ε σ α) : Prop :=
  ∀ s e t, x.run s = .error e t → t = s

def ReadOnly (x : Tx ε σ α) : Prop :=
  (∀ s a t, x.run s = .ok a t → t = s) ∧ FailsClean x

theorem ReadOnly.query (f : σ → α) : ReadOnly (query f : Tx ε σ α) :=
  ⟨fun _ _ _ h => (query_ok.mp h).2.symm, fun _ _ _ h => by cases h⟩

theorem ReadOnly.pure (a : α) : ReadOnly (pure a : Tx ε σ α) :=
  ⟨fun _ _ _ h => (pure_ok.mp h).2.symm, fun _ _ _ h => by cases h⟩

theorem ReadOnly.throw (e : ε) : ReadOnly (throw e : Tx ε σ α) :=
  ⟨fun _ _ _ h => (throw_ok.mp h).elim, fun _ _ _ h => by cases h; rfl⟩

theorem ReadOnly.refuseIf (bad : Bool) (e : ε) : ReadOnly (refuseIf bad e : Tx ε σ Unit) := by
  cases bad with
  | false => exact ReadOnly.pure ()
  | true => exact ReadOnly.throw e

theorem ReadOnly.attempt (x : Except ε α) : ReadOnly (attempt x : Tx ε σ α) := by
  cases x with
  | ok a => exact ReadOnly.pure a
  | error e => exact ReadOnly.throw e

theorem ReadOnly.orError (x : Option α) (e : ε) : ReadOnly (orError x e : Tx ε σ α) := by
  cases x with
  | some a => exact ReadOnly.pure a
  | none => exact ReadOnly.throw e

variable {x : Tx ε σ α} {f : α → Tx ε σ β}

theorem ReadOnly.bind (hx : ReadOnly x) (hf : ∀ a, ReadOnly (f a)) : ReadOnly (x >>= f) := by
  constructor
  · intro s b u h
    obtain ⟨a, t, hxa, hfa⟩ := bind_ok.mp h
    rw [(hf a).1 t b u hfa, hx.1 s a t hxa]
  · intro s e u h
    rcases bind_error.mp h with h | ⟨a, t, hxa, hfa⟩
    · exact hx.2 s e u h
    · rw [(hf a).2 t e u hfa, hx.1 s a t hxa]

/-- A read may stand in front of a computation that fails clean. -/
theorem ReadOnly.bind_failsClean (hx : ReadOnly x) (hf : ∀ a, FailsClean (f a)) :
    FailsClean (x >>= f) := by
  intro s e u h
  rcases bind_error.mp h with h | ⟨a, t, hxa, hfa⟩
  · exact hx.2 s e u h
  · rw [hf a t e u hfa, hx.1 s a t hxa]

def NeverFails (x : Tx ε σ α) : Prop :=
  ∀ s e t, x.run s ≠ .error e t

theorem NeverFails.failsClean (hx : NeverFails x) : FailsClean x :=
  fun s e t h => absurd h (hx s e t)

theorem NeverFails.pure (a : α) : NeverFails (pure a : Tx ε σ α) := by
  intro s e t h
  cases h

theorem NeverFails.query (f : σ → α) : NeverFails (query f : Tx ε σ α) := by
  intro s e t h
  cases h

theorem NeverFails.execute (f : σ → σ) : NeverFails (execute f : Tx ε σ Unit) := by
  intro s e t h
  cases h

theorem NeverFails.bind (hx : NeverFails x) (hf : ∀ a, NeverFails (f a)) :
    NeverFails (x >>= f) := by
  intro s e u h
  rcases bind_error.mp h with h | ⟨a, t, -, hfa⟩
  · exact hx s e u h
  · exact hf a t e u hfa

theorem NeverFails.forEach {xs : List α} {f : α → Tx ε σ Unit}
    (hf : ∀ x, NeverFails (f x)) : NeverFails (forEach xs f) := by
  induction xs with
  | nil => exact NeverFails.pure ()
  | cons x xs ih => exact NeverFails.bind (hf x) fun _ => ih

/-- What cannot fail may stand after a computation that fails clean. -/
theorem FailsClean.bind_neverFails (hx : FailsClean x) (hf : ∀ a, NeverFails (f a)) :
    FailsClean (x >>= f) := by
  intro s e u h
  rcases bind_error.mp h with h | ⟨a, t, -, hfa⟩
  · exact hx s e u h
  · exact absurd hfa (hf a t e u)

theorem FailsClean.reply {g : α → β} (hx : FailsClean x) :
    FailsClean (x >>= fun a => pure (g a)) :=
  hx.bind_neverFails fun _ => .pure _

theorem immediate_failsClean (body : Tx ε σ (Ending α)) : FailsClean (immediate body) :=
  fun _ _ _ h => immediate_error h

/-! ## Frame rules -/

/-- The computation leaves the part `f` of the store alone whenever it succeeds. -/
def Keeps (x : Tx ε σ α) (f : σ → β) : Prop :=
  ∀ s a t, x.run s = .ok a t → f t = f s

namespace Keeps

variable {γ : Type} {f : σ → γ} {e : ε} {s t : σ} {a : α}

theorem pure (a : α) : Keeps (pure a : Tx ε σ α) f := by
  intro s b t h
  rw [(pure_ok.mp h).2]

theorem throw : Keeps (throw e : Tx ε σ α) f := by
  intro s b t h
  exact (throw_ok.mp h).elim

theorem query (g : σ → α) : Keeps (query g : Tx ε σ α) f := by
  intro s b t h
  rw [(query_ok.mp h).2]

theorem execute {g : σ → σ} (hg : ∀ s, f (g s) = f s) :
    Keeps (execute g : Tx ε σ Unit) f := by
  intro s b t h
  rw [← execute_ok.mp h, hg]

theorem refuseIf : Keeps (refuseIf bad e : Tx ε σ Unit) f := by
  intro s b t h
  rw [(refuseIf_ok.mp h).2]

theorem attempt {x : Except ε α} : Keeps (attempt x : Tx ε σ α) f := by
  intro s b t h
  rw [(attempt_ok.mp h).2]

theorem orError {x : Option α} : Keeps (orError x e : Tx ε σ α) f := by
  intro s b t h
  rw [(orError_ok.mp h).2]

theorem bind {g : α → Tx ε σ β} (hx : Keeps x f) (hg : ∀ a, Keeps (g a) f) : Keeps (x >>= g) f := by
  intro s b u h
  obtain ⟨a, t, hxa, hga⟩ := bind_ok.mp h
  rw [hg a t b u hga, hx s a t hxa]

theorem reply {g : α → β} (hx : Keeps x f) : Keeps (x >>= fun a => Pure.pure (g a)) f :=
  .bind hx fun _ => .pure _

theorem ite [Decidable c] {y : Tx ε σ α} (hx : Keeps x f) (hy : Keeps y f) :
    Keeps (if c then x else y) f := by
  split
  · exact hx
  · exact hy

theorem forEach {xs : List α} {g : α → Tx ε σ Unit}
    (hg : ∀ x ∈ xs, Keeps (g x) f) : Keeps (forEach xs g) f := by
  induction xs with
  | nil => exact Keeps.pure ()
  | cons x xs ih =>
    refine Keeps.bind (hg x List.mem_cons_self) fun _ => ih ?_
    intro y hy
    exact hg y (List.mem_cons_of_mem _ hy)

theorem immediate {body : Tx ε σ (Ending α)} (h : Keeps body f) :
    Keeps (immediate body) f := by
  intro s a t hrun
  rcases immediate_ok.mp hrun with hcommit | ⟨rfl, -⟩
  · exact h s _ t hcommit
  · rfl

end Keeps
end Tx
end Awiki

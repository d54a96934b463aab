import Awiki.Transactions
import Awiki.TransitionRuns

/-!
# Statement logs of database computations

A database computation is a program over a few kinds of statements.  `Logs` says that
every success of a computation is a run of labelled statements, and which labels its
result admits.  With one such fact for every operation, a property that each single
statement keeps is a property of every operation.
-/

namespace Awiki
namespace Tx

variable {ε σ lbl α β : Type} {step : σ → lbl → σ → Prop} {body : Tx ε σ (Ending α)}
  {x : Tx ε σ α} {f : α → Tx ε σ β} {y : Tx ε σ α} {xs : List α} {c : Prop}

/-! ## Postconditions -/

/-- Started in `s`, every success ends with `post`. -/
def Ensures (x : Tx ε σ α) (s : σ) (post : α → σ → Prop) : Prop :=
  ∀ a t, x.run s = .ok a t → post a t

namespace Ensures

variable {s : σ} {post : β → σ → Prop} {e : ε}

theorem pure {b : β} (h : post b s) : Ensures (pure b : Tx ε σ β) s post := by
  intro b' t hrun
  obtain ⟨rfl, rfl⟩ := pure_ok.mp hrun
  exact h

theorem throw : Ensures (throw e : Tx ε σ β) s post :=
  fun _ _ hrun => (throw_ok.mp hrun).elim

variable {f : α → Tx ε σ β} {body : Tx ε σ (Ending β)}

theorem bind (h : ∀ a t, x.run s = .ok a t → Ensures (f a) t post) : Ensures (x >>= f) s post := by
  intro b u hrun
  obtain ⟨a, t, hx, hf⟩ := bind_ok.mp hrun
  exact h a t hx b u hf

theorem bind_query {g : σ → α} (h : Ensures (f (g s)) s post) :
    Ensures (query g >>= f) s post := by
  refine bind fun a t hrun => ?_
  obtain ⟨rfl, rfl⟩ := query_ok.mp hrun
  exact h

theorem bind_execute {g : σ → σ} {f : Unit → Tx ε σ β} (h : Ensures (f ()) (g s) post) :
    Ensures (execute g >>= f) s post := by
  refine bind fun a t hrun => ?_
  obtain rfl := execute_ok.mp hrun
  exact h

theorem bind_refuseIf {c : Bool} {f : Unit → Tx ε σ β}
    (h : c = false → Ensures (f ()) s post) : Ensures (refuseIf c e >>= f) s post := by
  refine bind fun a t hrun => ?_
  obtain ⟨hc, rfl⟩ := refuseIf_ok.mp hrun
  exact h hc

theorem bind_attempt {x : Except ε α} (h : ∀ a, x = .ok a → Ensures (f a) s post) :
    Ensures (attempt x >>= f) s post := by
  refine bind fun a t hrun => ?_
  obtain ⟨hx, rfl⟩ := attempt_ok.mp hrun
  exact h a hx

theorem bind_orError {x : Option α} (h : ∀ a, x = some a → Ensures (f a) s post) :
    Ensures (orError x e >>= f) s post := by
  refine bind fun a t hrun => ?_
  obtain ⟨hx, rfl⟩ := orError_ok.mp hrun
  exact h a hx

/-- A part that does not write leaves the store of the next one alone. -/
theorem bind_read (hx : Keeps x id) (h : ∀ a, x.run s = .ok a s → Ensures (f a) s post) :
    Ensures (x >>= f) s post := by
  refine bind fun a t hrun => ?_
  obtain rfl : t = s := hx s a t hrun
  exact h a hrun

theorem ite [Decidable c] {x y : Tx ε σ β} (hx : Ensures x s post) (hy : Ensures y s post) :
    Ensures (if c then x else y) s post := by
  split
  · exact hx
  · exact hy

theorem immediate (h : Ensures body s fun ending t => ∃ b, ending = .commit b ∧ post b t) :
    Ensures (immediate body) s post := by
  intro b t hrun
  rcases immediate_ok.mp hrun with hcommit | ⟨rfl, v, hrollback⟩
  · obtain ⟨b', hb, hpost⟩ := h _ t hcommit
    cases hb
    exact hpost
  · obtain ⟨b', hb, -⟩ := h _ v hrollback
    cases hb

/-- A transaction that can give up its writes and still return a value. -/
theorem immediate_or_rollback (h : Ensures body s fun ending t =>
      ∃ b, (ending = .commit b ∧ post b t) ∨ (ending = .rollback b ∧ post b s)) :
    Ensures (Tx.immediate body) s post := by
  intro b t hrun
  rcases immediate_ok.mp hrun with hcommit | ⟨rfl, v, hrollback⟩
  · obtain ⟨b', ⟨hb, hpost⟩ | ⟨hb, -⟩⟩ := h _ t hcommit
    · cases hb
      exact hpost
    · cases hb
  · obtain ⟨b', ⟨hb, -⟩ | ⟨hb, hpost⟩⟩ := h _ v hrollback
    · cases hb
    · cases hb
      exact hpost

end Ensures

/-! ## What holds when a computation returns -/

/-- Every success returns a value and leaves a store with `post`. -/
def Returns (x : Tx ε σ α) (post : α → σ → Prop) : Prop :=
  ∀ s a t, x.run s = .ok a t → post a t

namespace Returns

variable {post : α → σ → Prop}

variable {x : Tx ε σ α}

theorem mono {post' : α → σ → Prop} (h : Returns x post) (himp : ∀ a t, post a t → post' a t) :
    Returns x post' :=
  fun s a t hrun => himp a t (h s a t hrun)

theorem pure {a : α} (h : ∀ t, post a t) : Returns (pure a : Tx ε σ α) post := by
  intro s b t hrun
  obtain ⟨rfl, rfl⟩ := pure_ok.mp hrun
  exact h s

theorem throw {e : ε} : Returns (throw e : Tx ε σ α) post := by
  intro s b t hrun
  exact (throw_ok.mp hrun).elim

theorem bind {post : β → σ → Prop} (hf : ∀ a, Returns (f a) post) : Returns (x >>= f) post := by
  intro s b u h
  obtain ⟨a, t, -, hfa⟩ := bind_ok.mp h
  exact hf a t b u hfa

theorem bind_refuseIf {c : Bool} {e : ε} {f : Unit → Tx ε σ α}
    (hf : c = false → Returns (f ()) post) : Returns (refuseIf c e >>= f) post := by
  intro s a t h
  obtain ⟨_, u, hcheck, hrest⟩ := bind_ok.mp h
  exact hf (refuseIf_ok.mp hcheck).1 u a t hrest

theorem map_pure {f : α → β} {post : β → σ → Prop} (hx : Returns x fun a t => post (f a) t) :
    Returns (x >>= fun a => Pure.pure (f a)) post := by
  intro s b u h
  obtain ⟨a, hxa, rfl⟩ := bind_pure_ok.mp h
  exact hx s a u hxa

theorem ite [Decidable c] (hx : Returns x post) (hy : Returns y post) :
    Returns (if c then x else y) post := by
  split
  · exact hx
  · exact hy

theorem immediate (h : Returns body fun ending t => ∃ a, ending = .commit a ∧ post a t) :
    Returns (immediate body) post := by
  intro s a t hrun
  rcases immediate_ok.mp hrun with hcommit | ⟨rfl, v, hrollback⟩
  · obtain ⟨b, hb, hpost⟩ := h s _ t hcommit
    cases hb
    exact hpost
  · obtain ⟨b, hb, -⟩ := h s _ v hrollback
    cases hb

end Returns

def Preserves (P : σ → Prop) (x : Tx ε σ α) : Prop :=
  ∀ s a t, P s → x.run s = .ok a t → P t

namespace Preserves

variable {P : σ → Prop}

variable {x : Tx ε σ α}

theorem bind (hx : Preserves P x) (hf : ∀ a, Preserves P (f a)) : Preserves P (x >>= f) := by
  intro s b u hs hrun
  obtain ⟨a, t, hxa, hfa⟩ := bind_ok.mp hrun
  exact hf a t b u (hx s a t hs hxa) hfa

theorem ite [Decidable c] (hx : Preserves P x) (hy : Preserves P y) :
    Preserves P (if c then x else y) := by
  split
  · exact hx
  · exact hy

variable {f : α → Tx ε σ Unit}

theorem forEach_of_mem (hf : ∀ x ∈ xs, Preserves P (f x)) : Preserves P (forEach xs f) := by
  induction xs with
  | nil =>
    intro s a t hs hrun
    exact (pure_ok.mp hrun).2 ▸ hs
  | cons x xs ih =>
    refine Preserves.bind (hf x List.mem_cons_self) fun _ => ih ?_
    intro y hy
    exact hf y (List.mem_cons_of_mem _ hy)

theorem forEach (hf : ∀ x, Preserves P (f x)) : Preserves P (forEach xs f) :=
  forEach_of_mem fun x _ => hf x

theorem immediate (h : Preserves P body) : Preserves P (immediate body) := by
  intro s a t hs hrun
  rcases immediate_ok.mp hrun with hcommit | ⟨rfl, -⟩
  · exact h s _ t hs hcommit
  · exact hs

end Preserves

/-- A property that the first part establishes and the rest keeps. -/
theorem Returns.bind_preserves {P : σ → Prop} (hx : Returns x fun _ => P)
    (hf : ∀ a, Preserves P (f a)) : Returns (x >>= f) fun _ => P := by
  intro s b u h
  obtain ⟨a, t, hxa, hfa⟩ := bind_ok.mp h
  exact hf a t b u (hx s a t hxa) hfa

/-- The rest need only keep `f` for the values that the first part returns. -/
theorem Returns.bind_keeps {γ : Type} {k : α → Tx ε σ β} {f : σ → γ} {post : α → Prop}
    (hx : Returns x fun a _ => post a) (hkeeps : Keeps x f) (hk : ∀ a, post a → Keeps (k a) f) :
    Keeps (x >>= k) f := by
  intro s b u h
  obtain ⟨a, t, hxa, hka⟩ := bind_ok.mp h
  exact (hk a (hx s a t hxa) t b u hka).trans (hkeeps s a t hxa)

/-! ## Logs -/

def Logs (step : σ → lbl → σ → Prop) (x : Tx ε σ α) (admits : α → lbl → Prop) : Prop :=
  ∀ s a t, x.run s = .ok a t → ∃ log, Run step s log t ∧ ∀ l ∈ log, admits a l

namespace Logs

variable {admits admits' : α → lbl → Prop} {e : ε}

variable {x : Tx ε σ α} {f : α → Tx ε σ β} {admitsAll : β → lbl → Prop}

theorem mono (h : Logs step x admits) (himp : ∀ a l, admits a l → admits' a l) :
    Logs step x admits' := by
  intro s a t hrun
  obtain ⟨log, hlog, hall⟩ := h s a t hrun
  exact ⟨log, hlog, fun l hl => himp a l (hall l hl)⟩

theorem of_unchanged (h : ∀ s a t, x.run s = .ok a t → s = t) :
    Logs step x admits := by
  intro s a t hrun
  obtain rfl := h s a t hrun
  exact ⟨[], .nil s, by simp⟩

theorem single (l : lbl) (hl : ∀ a, admits a l) (h : ∀ s a t, x.run s = .ok a t → step s l t) :
    Logs step x admits := by
  intro s a t hrun
  refine ⟨[l], Run.single (h s a t hrun), ?_⟩
  simpa using hl a

theorem pure (a : α) : Logs step (pure a : Tx ε σ α) admits :=
  of_unchanged fun _ _ _ h => (pure_ok.mp h).2

theorem throw : Logs step (throw e : Tx ε σ α) admits :=
  of_unchanged fun _ _ _ h => (throw_ok.mp h).elim

theorem orError {x : Option α} : Logs step (orError x e : Tx ε σ α) admits :=
  of_unchanged fun _ _ _ h => (orError_ok.mp h).2

theorem execute {f : σ → σ} {admits : Unit → lbl → Prop} (l : lbl) (hl : admits () l)
    (h : ∀ s, step s l (f s)) : Logs step (execute f : Tx ε σ Unit) admits := by
  refine single l (fun _ => hl) fun s a t hrun => ?_
  rw [← execute_ok.mp hrun]
  exact h s

/--
The logs of a sequence follow each other.  The labels of the first part are admitted
by its own value `a`; `hreply` carries them over to the value of the whole.
-/
theorem bind_reply (hx : Logs step x admits) (hf : ∀ a, Logs step (f a) admitsAll)
    (hreply : ∀ a, Returns (f a) fun b _ => ∀ l, admits a l → admitsAll b l) :
    Logs step (x >>= f) admitsAll := by
  intro s b u h
  obtain ⟨a, t, hxa, hfa⟩ := bind_ok.mp h
  obtain ⟨first, hfirst, hadmits⟩ := hx s a t hxa
  obtain ⟨second, hsecond, hall⟩ := hf a t b u hfa
  refine ⟨first ++ second, Run.append_iff.mpr ⟨t, hfirst, hsecond⟩, ?_⟩
  intro l hl
  rcases List.mem_append.mp hl with hl | hl
  · exact hreply a t b u hfa l (hadmits l hl)
  · exact hall l hl

/-- The labels of the first part are admitted whatever the whole returns. -/
theorem bind_fixed {P : lbl → Prop} (hx : Logs step x fun _ => P)
    (hfixed : ∀ b l, P l → admitsAll b l) (hf : ∀ a, Logs step (f a) admitsAll) :
    Logs step (x >>= f) admitsAll :=
  bind_reply hx hf fun _ _ b _ _ l h => hfixed b l h

theorem bind_read (hx : Keeps x id) (hf : ∀ a, Logs step (f a) admitsAll) :
    Logs step (x >>= f) admitsAll :=
  bind_fixed (P := fun _ => False) (of_unchanged fun s a t h => (hx s a t h).symm)
    (fun _ _ h => h.elim) hf

/-- A read in front of a computation, with what is known of its result. -/
theorem bind_returns {P : α → Prop} (hx : Keeps x id) (hpost : Returns x fun a _ => P a)
    (hf : ∀ a, P a → Logs step (f a) admitsAll) : Logs step (x >>= f) admitsAll := by
  intro s b u h
  obtain ⟨a, t, hxa, hfa⟩ := bind_ok.mp h
  obtain rfl : t = s := hx s a t hxa
  exact hf a (hpost t a t hxa) t b u hfa

/-- The rule for a sequence whose labels do not depend on its values. -/
theorem bind {admits : lbl → Prop} (hx : Logs step x fun _ => admits)
    (hf : ∀ a, Logs step (f a) fun _ => admits) :
    Logs step (x >>= f) fun _ => admits :=
  bind_reply hx hf fun _ _ _ _ _ _ h => h

theorem map_pure {f : α → β} (hx : Logs step x admits)
    (himp : ∀ a l, admits a l → admitsAll (f a) l) :
    Logs step (x >>= fun a => Pure.pure (f a)) admitsAll :=
  bind_reply hx (fun _ => Logs.pure _) fun a => Returns.pure fun _ l h => himp a l h

theorem ite [Decidable c] (hx : Logs step x admits) (hy : Logs step y admits) :
    Logs step (if c then x else y) admits := by
  split
  · exact hx
  · exact hy

theorem forEach {f : α → Tx ε σ Unit} {admits : lbl → Prop}
    (hf : ∀ x ∈ xs, Logs step (f x) fun _ => admits) :
    Logs step (forEach xs f) fun _ => admits := by
  induction xs with
  | nil => exact Logs.pure ()
  | cons x xs ih =>
    refine Logs.bind (hf x List.mem_cons_self) fun _ => ih ?_
    intro y hy
    exact hf y (List.mem_cons_of_mem _ hy)

theorem immediate (h : Logs step body fun ending l => ∀ a, ending = .commit a → admits a l) :
    Logs step (immediate body) admits := by
  intro s a t hrun
  rcases immediate_ok.mp hrun with hcommit | ⟨rfl, -⟩
  · obtain ⟨log, hlog, hall⟩ := h s _ t hcommit
    exact ⟨log, hlog, fun l hl => hall l hl a rfl⟩
  · exact ⟨[], .nil s, by simp⟩

theorem preserves {P : σ → Prop} (hx : Logs step x admits)
    (hstep : ∀ s a l t, admits a l → P s → step s l t → P t) : Preserves P x := by
  intro s a t hs hrun
  obtain ⟨log, hlog, hall⟩ := hx s a t hrun
  exact hlog.invariant_of_mem hs fun s t l hl => hstep s a l t (hall l hl)

end Logs

end Tx
end Awiki

import Mathlib.Data.List.Basic
/-!
# Prog — programs over operations of a world, and their rules of pre- and postconditions

A program is a tree: it returns, or calls an operation and goes on with the answer. A deterministic world runs it
(`exec`); a world that may answer in several ways is a relation `may`, and `Safe may inv p s Q` says that whatever the
answers, `inv` holds after each operation and `Q` at the end. `Proc` adds a memory of its own and errors: a call that
fails ends the procedure and keeps the memory.
-/

inductive Prog (Op : Type) (Ret : Op → Type) (α : Type)
  | pure (a : α)
  | call (o : Op) (k : Ret o → Prog Op Ret α)

namespace Prog

variable {Op : Type} {Ret : Op → Type} {α β σ : Type} {ok : Op → Prop} {P : α → Prop}

def bind : Prog Op Ret α → (α → Prog Op Ret β) → Prog Op Ret β
  | .pure a, f => f a
  | .call o k, f => .call o fun r => (k r).bind f

def exec (run : (o : Op) → σ → Ret o × σ) : Prog Op Ret α → σ → α × σ
  | .pure a, s => (a, s)
  | .call o k, s => (k (run o s).1).exec run (run o s).2

theorem exec_bind (run : (o : Op) → σ → Ret o × σ) (f : α → Prog Op Ret β) : ∀ (p : Prog Op Ret α) (s : σ),
    (p.bind f).exec run s = (f (p.exec run s).1).exec run (p.exec run s).2
  | .pure _, _ => rfl
  | .call o k, s => exec_bind run f (k (run o s).1) (run o s).2

def Safe (may : (o : Op) → σ → Ret o → σ → Prop) (inv : σ → Prop) : Prog Op Ret α → σ → (α → σ → Prop) → Prop
  | .pure a, s, Q => Q a s
  | .call o k, s, Q => ∀ r s', may o s r s' → inv s' ∧ (k r).Safe may inv s' Q

variable {may : (o : Op) → σ → Ret o → σ → Prop} {inv inv' : σ → Prop} {f : α → Prog Op Ret β}

theorem Safe.mono : ∀ {p : Prog Op Ret α} {s : σ} {Q Q' : α → σ → Prop}, p.Safe may inv s Q → (∀ s, inv s → inv' s) →
    (∀ a s, Q a s → Q' a s) → p.Safe may inv' s Q'
  | .pure a, s, _, _, h, _, hq => hq a s h
  | .call _ _, _, _, _, h, hi, hq => fun r s' hm => ⟨hi s' (h r s' hm).1, Safe.mono (h r s' hm).2 hi hq⟩

theorem safe_bind {Q : β → σ → Prop} : ∀ {p : Prog Op Ret α} {s : σ},
    (p.bind f).Safe may inv s Q ↔ p.Safe may inv s fun a s' => (f a).Safe may inv s' Q
  | .pure _, _ => Iff.rfl
  | .call o k, s => by
    simp only [bind, Safe]
    exact forall_congr' fun r => forall_congr' fun s' => imp_congr Iff.rfl (and_congr Iff.rfl safe_bind)

theorem Safe.and : ∀ {p : Prog Op Ret α} {s : σ} {Q Q' : α → σ → Prop}, p.Safe may inv s Q → p.Safe may inv' s Q' →
    p.Safe may (fun s => inv s ∧ inv' s) s fun a s => Q a s ∧ Q' a s
  | .pure _, _, _, _, h, h' => ⟨h, h'⟩
  | .call _ _, _, _, _, h, h' => fun r s' hm =>
    ⟨⟨(h r s' hm).1, (h' r s' hm).1⟩, Safe.and (h r s' hm).2 (h' r s' hm).2⟩

variable {τ : Type} {run : (o : Op) → τ → Ret o × τ} {view : τ → σ}

theorem Safe.exec (hrun : ∀ o t, may o (view t) (run o t).1 (view (run o t).2)) :
    ∀ {p : Prog Op Ret α} {t : τ} {Q : α → σ → Prop}, p.Safe may inv (view t) Q → Q (p.exec run t).1 (view (p.exec run t).2)
  | .pure _, _, _, h => h
  | .call o k, t, _, h => by
    rw [Prog.exec]
    exact Safe.exec hrun (h _ _ (hrun o t)).2

/-! ### What a program can do at all -/

/-- It calls only operations in `ok` and returns only what `Q` allows. -/
def Only (ok : Op → Prop) (Q : α → Prop) : Prog Op Ret α → Prop
  | .pure a => Q a
  | .call o k => ok o ∧ ∀ r, (k r).Only ok Q

theorem Only.mono {ok' : Op → Prop} {Q : α → Prop} (ho : ∀ o, ok o → ok' o) (hq : ∀ a, P a → Q a) :
    ∀ {p : Prog Op Ret α}, p.Only ok P → p.Only ok' Q
  | .pure a, h => hq a h
  | .call o _, h => ⟨ho o h.1, fun r => Only.mono ho hq (h.2 r)⟩

theorem Only.bind {Q : β → Prop} (hf : ∀ a, P a → (f a).Only ok Q) :
    ∀ {p : Prog Op Ret α}, p.Only ok P → (p.bind f).Only ok Q
  | .pure a, h => hf a h
  | .call _ _, h => ⟨h.1, fun r => Only.bind hf (h.2 r)⟩

/-- **The frame rule.** -/
theorem Only.safe (hop : ∀ o s r s', ok o → inv s → may o s r s' → inv s') :
    ∀ {p : Prog Op Ret α} {s : σ}, p.Only ok P → inv s → p.Safe may inv s fun a s' => P a ∧ inv s'
  | .pure _, _, h, hi => ⟨h, hi⟩
  | .call o _, s, h, hi => fun r s' hm =>
    have hi' := hop o s r s' h.1 hi hm
    ⟨hi', Only.safe hop (h.2 r) hi'⟩

end Prog

/-! ## Procedures with a memory -/

/-- With memory `μ`, which is kept on an error too. -/
def Proc (Op : Type) (Ret : Op → Type) (μ ε α : Type) := μ → Prog Op Ret (Except ε α × μ)

namespace Proc

variable {Op : Type} {Ret : Op → Type} {μ ε α β σ : Type} {m : Proc Op Ret μ ε α} {Q : Except ε β → μ → σ → Prop}
  {f : α → Proc Op Ret μ ε β} {e : ε}

instance : Monad (Proc Op Ret μ ε) where
  pure a := fun c => .pure (.ok a, c)
  bind m f := fun c => (m c).bind (fun r =>
    match r.1 with
    | .ok a => f a r.2
    | .error e => .pure (.error e, r.2))

instance : MonadExceptOf ε (Proc Op Ret μ ε) where
  throw e := fun c => .pure (.error e, c)
  tryCatch m f := fun c => (m c).bind (fun r =>
    match r.1 with
    | .ok a => .pure (.ok a, r.2)
    | .error e => f e r.2)

instance : MonadStateOf μ (Proc Op Ret μ ε) where
  get := fun c => .pure (.ok c, c)
  set c := fun _ => .pure (.ok (), c)
  modifyGet f := fun c => .pure (.ok (f c).1, (f c).2)

def op (o : Op) : Proc Op Ret μ ε (Ret o) := fun c => .call o fun r => .pure (.ok r, c)

def attempt (m : Proc Op Ret μ ε α) : Proc Op Ret μ ε (Except ε α) := fun c => (m c).bind fun r => .pure (.ok r.1, r.2)

def ofExcept : Except ε α → Proc Op Ret μ ε α
  | .ok a => pure a
  | .error e => throw e

def failIf (p : Prop) [Decidable p] (e : ε) : Proc Op Ret μ ε Unit := if p then throw e else pure ()

def onlyIf (p : Prop) [Decidable p] (m : Proc Op Ret μ ε Unit) : Proc Op Ret μ ε Unit := if p then m else pure ()

/-- Whatever the answers, `inv` holds after each operation and `Q` at the end. -/
def Safe (may : (o : Op) → σ → Ret o → σ → Prop) (inv : σ → Prop) (m : Proc Op Ret μ ε α) (c : μ) (s : σ)
    (Q : Except ε α → μ → σ → Prop) : Prop := (m c).Safe may inv s fun r s' => Q r.1 r.2 s'

variable {may : (o : Op) → σ → Ret o → σ → Prop} {inv inv' : σ → Prop} {c : μ} {s : σ} {p : Prop}

theorem Safe.mono {Q Q' : Except ε α → μ → σ → Prop} (h : m.Safe may inv c s Q)
    (hq : ∀ r c' s', Q r c' s' → Q' r c' s') : m.Safe may inv c s Q' :=
  Prog.Safe.mono h (fun _ hi => hi) fun r s' => hq r.1 r.2 s'

theorem Safe.and {Q Q' : Except ε α → μ → σ → Prop} (h : m.Safe may inv c s Q) (h' : m.Safe may inv' c s Q') :
    m.Safe may (fun s => inv s ∧ inv' s) c s (fun r c' s' => Q r c' s' ∧ Q' r c' s') :=
  Prog.Safe.and h h'

@[simp] theorem safe_ofExcept {x : Except ε α} {Q : Except ε α → μ → σ → Prop} :
    Safe may inv (ofExcept x : Proc Op Ret μ ε α) c s Q ↔ Q x c s := by
  cases x <;> exact Iff.rfl

theorem safe_get_bind {f : μ → Proc Op Ret μ ε β} : Safe may inv (get >>= f) c s Q ↔ (f c).Safe may inv c s Q := Iff.rfl

theorem safe_modify_bind {g : μ → μ} {f : PUnit → Proc Op Ret μ ε β} :
    Safe may inv (modify g >>= f) c s Q ↔ (f ⟨⟩).Safe may inv (g c) s Q := Iff.rfl

theorem safe_pure_bind {a : α} : Safe may inv (Pure.pure a >>= f) c s Q ↔ (f a).Safe may inv c s Q := Iff.rfl

theorem safe_throw_bind : Safe may inv (throw e >>= f) c s Q ↔ Q (.error e) c s := Iff.rfl

theorem safe_failIf_bind [Decidable p] {f : Unit → Proc Op Ret μ ε β} :
    Safe may inv (failIf p e >>= f) c s Q ↔ (p → Q (.error e) c s) ∧ (¬ p → (f ()).Safe may inv c s Q) := by
  by_cases hp : p
  · rw [failIf, if_pos hp, safe_throw_bind]
    simp only [hp, true_implies, not_true_eq_false, false_implies, and_true]
  · rw [failIf, if_neg hp, safe_pure_bind]
    simp only [hp, false_implies, not_false_eq_true, true_implies, true_and]

theorem safe_op_bind {o : Op} {f : Ret o → Proc Op Ret μ ε β} :
    Safe may inv (op o >>= f) c s Q ↔ ∀ r s', may o s r s' → inv s' ∧ (f r).Safe may inv c s' Q := Iff.rfl

/-- The first part's value goes on, its error ends the procedure. -/
def andThen (f : α → Proc Op Ret μ ε β) (may : (o : Op) → σ → Ret o → σ → Prop) (inv : σ → Prop)
    (Q : Except ε β → μ → σ → Prop) : Except ε α → μ → σ → Prop
  | .ok a, c, s => (f a).Safe may inv c s Q
  | .error e, c, s => Q (.error e) c s

theorem safe_bind : Safe may inv (m >>= f) c s Q ↔ m.Safe may inv c s (andThen f may inv Q) := by
  unfold Safe
  refine Prog.safe_bind.trans ?_
  constructor
  all_goals
    intro h
    refine Prog.Safe.mono h (fun _ hi => hi) ?_
    rintro ⟨r, c'⟩ s' hr
    cases r <;> exact hr

/-- **The rule of sequence.** -/
theorem Safe.bind {P : Except ε α → μ → σ → Prop} (hm : m.Safe may inv c s P)
    (hok : ∀ a c' s', P (.ok a) c' s' → (f a).Safe may inv c' s' Q)
    (herr : ∀ e c' s', P (.error e) c' s' → Q (.error e) c' s') : Safe may inv (m >>= f) c s Q := by
  rw [safe_bind]
  refine hm.mono fun r c' s' h => ?_
  cases r with
  | ok a => exact hok a c' s' h
  | error e => exact herr e c' s' h

/-! ### Refusals -/

/-- No operation is called and the memory stays. -/
def Refuses (m : Proc Op Ret μ ε α) (c : μ) (e : ε) : Prop := m c = .pure (.error e, c)

theorem Refuses.bind (h : m.Refuses c e) (f : α → Proc Op Ret μ ε β) : (m >>= f).Refuses c e := by
  show (m c).bind _ = _
  rw [h]
  rfl

/-! ### What a procedure can do at all -/

/-- It calls only operations in `ok` and leaves `view` of its memory as it is. -/
def Only {ν : Type} (ok : Op → Prop) (view : μ → ν) (m : Proc Op Ret μ ε α) : Prop :=
  ∀ c, (m c).Only ok fun r => view r.2 = view c

section Only

variable {ν : Type} {ok : Op → Prop} {view : μ → ν} {m : Proc Op Ret μ ε α} {f : α → Proc Op Ret μ ε β}

theorem Only.mono {ν' : Type} {ok' : Op → Prop} {view' : μ → ν'} (h : Only ok view m) (ho : ∀ o, ok o → ok' o)
    (hv : ∀ c c', view c = view c' → view' c = view' c') : Only ok' view' m := fun c =>
  Prog.Only.mono ho (fun (r : Except ε α × μ) => hv r.2 c) (h c)

theorem only_pure (a : α) : Only ok view (Pure.pure a : Proc Op Ret μ ε α) := fun _ => rfl

theorem only_throw (e : ε) : Only ok view (throw e : Proc Op Ret μ ε α) := fun _ => rfl

theorem only_get : Only ok view (get : Proc Op Ret μ ε μ) := fun _ => rfl

theorem only_modify {f : μ → μ} (h : ∀ c, view (f c) = view c) : Only ok view (modify f : Proc Op Ret μ ε PUnit) := h

theorem only_op {o : Op} (h : ok o) : Only ok view (op o : Proc Op Ret μ ε (Ret o)) := fun _ => ⟨h, fun _ => rfl⟩

theorem only_ofExcept (x : Except ε α) : Only ok view (ofExcept x : Proc Op Ret μ ε α) := by
  cases x <;> exact fun _ => rfl

theorem Only.bind (hm : Only ok view m) (hf : ∀ a, Only ok view (f a)) :
    Only ok view (m >>= f) := fun c => by
  refine Prog.Only.bind ?_ (hm c)
  rintro ⟨r, c'⟩ (hc : view c' = view c)
  cases r with
  | error e => exact hc
  | ok a => rw [← hc]; exact hf a c'

theorem Only.seq (hm : Only ok view m) (hf : ∀ {a}, Only ok view (f a)) :
    Only ok view (m >>= f) := hm.bind fun _ => hf

theorem Only.attempt (hm : Only ok view m) : Only ok view (attempt m) := fun c =>
  Prog.Only.bind (fun _ h => h) (hm c)

theorem Only.ite [Decidable p] {m' : Proc Op Ret μ ε α} (h : Only ok view m) (h' : Only ok view m') :
    Only ok view (if p then m else m') := by
  split
  · exact h
  · exact h'

theorem only_failIf (p : Prop) [Decidable p] (e : ε) : Only ok view (failIf p e : Proc Op Ret μ ε Unit) :=
  (only_throw e).ite (only_pure ())

theorem Only.onlyIf [Decidable p] {m : Proc Op Ret μ ε Unit} (h : Only ok view m) : Only ok view (onlyIf p m) :=
  h.ite (only_pure ())

theorem Only.safe (h : Only ok view m) (hop : ∀ o s r s', ok o → inv s → may o s r s' → inv s') (hi : inv s) :
    m.Safe may inv c s (fun _ c' s' => view c' = view c ∧ inv s') := (h c).safe hop hi

end Only

end Proc

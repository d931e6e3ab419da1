import Thur.Lib.Machine
import Thur.Lib.Table
/-!
# Crew — tasks at work on a shared world, and the rule for their invariants

A crew says how one task takes a step: it changes the world and goes on as another task or ends. Any number of tasks are
at work; a task may stop at any point, and the world may change by itself. `Keeps` asks for an invariant of the world,
one of each task, and that a step of one keeps those of the others.
-/

/-- What a task does to the world, what starts one, and what the world does by itself. -/
structure Crew (ω τ ο α ε : Type*) where
  begins : ο → τ
  step : ω → τ → α → Option (ω × Option τ)
  world : ω → ε → Option ω

namespace Crew

variable {ω τ ο α ε : Type*}

inductive Act (ο α ε : Type*)
  | spawn (t : Nat) (o : ο)
  | on (t : Nat) (a : α)
  | stop (t : Nat)
  | world (e : ε)

structure State (ω τ : Type*) where
  world : ω
  tasks : Table τ

/-- The tasks after one of them went on, or ended. -/
def resume (T : Table τ) (t : Nat) : Option τ → Table τ
  | some x => T.insert t x
  | none => T.erase t

def machine (k : Crew ω τ ο α ε) : Machine (State ω τ) (Act ο α ε) where
  step s
    | .spawn t o =>
      match s.tasks.lookup t with
      | some _ => none
      | none => some { s with tasks := s.tasks.insert t (k.begins o) }
    | .on t a =>
      match s.tasks.lookup t with
      | some x => (k.step s.world x a).map fun r => ⟨r.1, resume s.tasks t r.2⟩
      | none => none
    | .stop t => some { s with tasks := s.tasks.erase t }
    | .world e => (k.world s.world e).map fun w => { s with world := w }

def start (w : ω) : State ω τ := ⟨w, ∅⟩

structure Holds (W : ω → Prop) (I : ω → τ → Prop) (s : State ω τ) : Prop where
  world : W s.world
  tasks : ∀ t x, s.tasks.lookup t = some x → I s.world x

structure Keeps (k : Crew ω τ ο α ε) (W : ω → Prop) (I : ω → τ → Prop) (ok : State ω τ → Act ο α ε → Prop) : Prop where
  begins : ∀ s t o, Holds W I s → ok s (.spawn t o) → I s.world (k.begins o)
  world : ∀ s e w, Holds W I s → ok s (.world e) → k.world s.world e = some w → Holds W I { s with world := w }
  step : ∀ s t x a w x', Holds W I s → ok s (.on t a) → s.tasks.lookup t = some x → k.step s.world x a = some (w, x') →
    W w ∧ (∀ y ∈ x', I w y) ∧ ∀ t' y, t' ≠ t → s.tasks.lookup t' = some y → I w y

variable {k : Crew ω τ ο α ε} {W : ω → Prop} {I : ω → τ → Prop} {ok : State ω τ → Act ο α ε → Prop}

theorem holds_start {w : ω} (h : W w) : Holds W I (start w : State ω τ) := ⟨h, fun _ _ hx => by cases hx⟩

theorem lookup_resume {T : Table τ} {t t' : Nat} {x' : Option τ} {y : τ} (h : (resume T t x').lookup t' = some y) :
    y ∈ x' ∨ (t' ≠ t ∧ T.lookup t' = some y) := by
  cases x' with
  | none => exact .inr (Table.lookup_erase_some h)
  | some x =>
    rcases Table.lookup_insert_some h with ⟨-, rfl⟩ | h'
    · exact .inl rfl
    · exact .inr h'

theorem Keeps.holds_step (hk : Keeps k W I ok) {s s' : State ω τ} {a : Act ο α ε} (h : Holds W I s) (hok : ok s a)
    (hs : k.machine.step s a = some s') : Holds W I s' := by
  cases a with
  | spawn t o =>
    simp only [machine] at hs
    split at hs <;> cases hs
    exact ⟨h.world, Table.forall_insert h.tasks (hk.begins s t o h hok)⟩
  | on t a =>
    simp only [machine] at hs
    split at hs
    next x hx =>
      obtain ⟨⟨w, x'⟩, hstep, rfl⟩ := Option.map_eq_some_iff.1 hs
      obtain ⟨hw, hself, hothers⟩ := hk.step s t x a w x' h hok hx hstep
      refine ⟨hw, fun t' y hy => ?_⟩
      rcases lookup_resume hy with hy | ⟨hne, hy⟩
      · exact hself y hy
      · exact hothers t' y hne hy
    · cases hs
  | stop t =>
    cases hs
    exact ⟨h.world, Table.forall_erase h.tasks t⟩
  | world e =>
    obtain ⟨w, hw, rfl⟩ := Option.map_eq_some_iff.1 hs
    exact hk.world s e w h hok hw

theorem Keeps.run (hk : Keeps k W I ok) {w0 : ω} (hw : W w0) {acts : List (Act ο α ε)} {s : State ω τ}
    (hm : k.machine.Meets ok (start w0) acts) (hr : k.machine.run (start w0) acts = some s) : Holds W I s :=
  k.machine.run_inv (fun _ _ _ h hok hs => hk.holds_step h hok hs) (holds_start hw) hm hr

end Crew

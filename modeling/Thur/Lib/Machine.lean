import Mathlib.Data.Option.Basic
/-!
# Machine — runs of a partial step function, and the invariant rules

An action that is not enabled has no successor, and a run is a list of actions all of which were enabled. `Meets ok s
as` says that every step of the run from `s` met `ok` in the state it was taken from, so a guarded invariant (`run_inv`)
asks `ok` of the steps and nothing of the states in between.
-/

/-- A labelled transition system given by its step function. -/
structure Machine (σ α : Type*) where
  step : σ → α → Option σ

namespace Machine

open List

variable {σ α β : Type*} (m : Machine σ α) {s s' s1 : σ} {a : α} {as : List α} {ok : σ → α → Prop} {Inv : σ → Prop}

def run : σ → List α → Option σ
  | s, [] => some s
  | s, a :: as =>
    match m.step s a with
    | some s' => run s' as
    | none => none

/-- Every action of the run meets `ok` in the state it is taken from. -/
def Meets (ok : σ → α → Prop) : σ → List α → Prop
  | _, [] => True
  | s, a :: as => ok s a ∧
    match m.step s a with
    | some s' => Meets ok s' as
    | none => True

instance decidableMeets (ok : σ → α → Prop) [∀ s a, Decidable (ok s a)] : ∀ s as, Decidable (m.Meets ok s as)
  | _, [] => .isTrue trivial
  | s, a :: as =>
    match h : m.step s a with
    | some s' =>
      have := decidableMeets ok s' as
      decidable_of_iff (ok s a ∧ m.Meets ok s' as) (by rw [Meets, h])
    | none => decidable_of_iff (ok s a) (by rw [Meets, h, and_true])

theorem run_cons (s : σ) (a : α) (as : List α) : m.run s (a :: as) = (m.step s a).bind (fun s' => m.run s' as) := by
  rw [run]
  cases m.step s a <;> rfl

theorem run_cons_some (h : m.run s (a :: as) = some s') : ∃ s1, m.step s a = some s1 ∧ m.run s1 as = some s' := by
  rw [run_cons] at h
  exact Option.bind_eq_some_iff.1 h

theorem run_singleton (s : σ) (a : α) : m.run s [a] = m.step s a := by
  rw [run_cons]
  cases m.step s a <;> rfl

theorem meets_cons (hs : m.step s a = some s1) : m.Meets ok s (a :: as) ↔ ok s a ∧ m.Meets ok s1 as := by
  rw [Meets, hs]

theorem Meets.and {ok' : σ → α → Prop} : ∀ {as : List α} {s : σ}, m.Meets ok s as → m.Meets ok' s as →
    m.Meets (fun s a => ok s a ∧ ok' s a) s as
  | [], _, _, _ => trivial
  | a :: as, s, h, h' => by
    rw [Meets] at h h' ⊢
    refine ⟨⟨h.1, h'.1⟩, ?_⟩
    cases hs : m.step s a with
    | none => trivial
    | some s' =>
      rw [hs] at h h'
      exact Meets.and h.2 h'.2

theorem meets_of_forall {ok : α → Prop} : ∀ {as : List α} {s : σ}, (∀ a ∈ as, ok a) → m.Meets (fun _ a => ok a) s as
  | [], _, _ => trivial
  | a :: as, s, h => by
    rw [Meets]
    refine ⟨h a mem_cons_self, ?_⟩
    split
    · exact meets_of_forall fun b hb => h b (mem_cons_of_mem a hb)
    · trivial

/-- **The guarded invariant rule.** -/
theorem run_inv (hstep : ∀ s a s', Inv s → ok s a → m.step s a = some s' → Inv s') :
    ∀ {as : List α} {s s' : σ}, Inv s → m.Meets ok s as → m.run s as = some s' → Inv s'
  | [], _, _, hi, _, hr => by
    cases hr
    exact hi
  | a :: as, s, s', hi, hm, hr => by
    obtain ⟨s1, hs, hr⟩ := m.run_cons_some hr
    rw [meets_cons m hs] at hm
    exact run_inv hstep (hstep s a s1 hi hm.1 hs) hm.2 hr

theorem run_inv' (hstep : ∀ s a s', Inv s → m.step s a = some s' → Inv s') :
    ∀ {as : List α} {s s' : σ}, Inv s → m.run s as = some s' → Inv s'
  | [], _, _, hi, hr => by
    cases hr
    exact hi
  | a :: as, s, s', hi, hr => by
    obtain ⟨s1, hs, hr⟩ := m.run_cons_some hr
    exact run_inv' hstep (hstep s a s1 hi hs) hr

theorem run_append (s : σ) (as bs : List α) : m.run s (as ++ bs) = (m.run s as).bind (fun s' => m.run s' bs) := by
  induction as generalizing s with
  | nil => rfl
  | cons a as ih =>
    rw [cons_append, run_cons, run_cons]
    cases m.step s a with
    | none => rfl
    | some s' => exact ih s'

theorem run_inv_history {P : List α → σ → Prop} {s0 : σ}
    (hstep : ∀ as s a s', m.run s0 as = some s → P as s → ok s a → m.step s a = some s' → P (as ++ [a]) s')
    (h0 : P [] s0) (hm : m.Meets ok s0 as) (hr : m.run s0 as = some s) : P as s := by
  suffices h : ∀ (bs pre : List α) (s1 : σ), m.run s0 pre = some s1 → P pre s1 → m.Meets ok s1 bs →
      m.run s1 bs = some s → P (pre ++ bs) s from h as [] s0 rfl h0 hm hr
  intro bs
  induction bs with
  | nil =>
    intro pre s1 _ hi _ hr
    cases hr
    rwa [append_nil]
  | cons b bs ih =>
    intro pre s1 hpre hi hm hr
    obtain ⟨s2, hs, hr⟩ := m.run_cons_some hr
    rw [meets_cons m hs] at hm
    have hpre' : m.run s0 (pre ++ [b]) = some s2 := by
      rw [run_append, hpre]
      exact (m.run_singleton s1 b).trans hs
    rw [append_cons]
    exact ih (pre ++ [b]) s2 hpre' (hstep pre s1 b s2 hpre hi hm.1 hs) hm.2 hr

/-- **The exact condition rule**: if a step that does not meet `ok` shows in the state it leads to, `P` holds all along
a run exactly if every step meets `ok`. -/
theorem forall_prefix_iff_meets {P : σ → Prop} (hP : ∀ s, Inv s → P s)
    (hstep : ∀ s a s', Inv s → m.step s a = some s' → (ok s a → Inv s') ∧ (P s' → ok s a)) :
    ∀ {as : List α} {s s' : σ}, Inv s → m.run s as = some s' →
      ((∀ pre, pre <+: as → ∀ s1, m.run s pre = some s1 → P s1) ↔ m.Meets ok s as)
  | [], s, _, hi, _ => by
    refine ⟨fun _ => trivial, fun _ pre hpre s1 hr => ?_⟩
    rw [prefix_nil.1 hpre] at hr
    cases hr
    exact hP s hi
  | a :: as, s, s', hi, hr => by
    obtain ⟨s1, hs, hrest⟩ := m.run_cons_some hr
    obtain ⟨hkeep, hshow⟩ := hstep s a s1 hi hs
    rw [meets_cons m hs]
    constructor
    · intro h
      have ha : ok s a := hshow (h [a] (prefix_iff_eq_append.2 rfl) s1 ((m.run_singleton s a).trans hs))
      refine ⟨ha, (forall_prefix_iff_meets hP hstep (hkeep ha) hrest).1 (fun pre hpre s2 hr2 => ?_)⟩
      refine h (a :: pre) (prefix_cons_inj a |>.2 hpre) s2 ?_
      rw [run_cons, hs]
      exact hr2
    · rintro ⟨ha, hm⟩ pre hpre s2 hr2
      cases pre with
      | nil =>
        cases hr2
        exact hP s hi
      | cons b pre =>
        obtain ⟨rfl, hpre'⟩ := cons_prefix_cons.1 hpre
        rw [run_cons, hs] at hr2
        exact (forall_prefix_iff_meets hP hstep (hkeep ha) hrest).2 hm pre hpre' s2 hr2

/-! ## States that a run can reach -/

/-- Some run all of whose steps meet `ok` leads there. -/
def Reaches (ok : σ → α → Prop) (s s' : σ) : Prop := ∃ as, m.run s as = some s' ∧ m.Meets ok s as

theorem Reaches.refl (ok : σ → α → Prop) (s : σ) : m.Reaches ok s s := ⟨[], rfl, trivial⟩

theorem Reaches.cons (hs : m.step s a = some s1) (hok : ok s a) (h : m.Reaches ok s1 s') : m.Reaches ok s s' := by
  obtain ⟨as, hr, hm⟩ := h
  refine ⟨a :: as, ?_, (meets_cons m hs).2 ⟨hok, hm⟩⟩
  rw [run_cons, hs]
  exact hr

theorem Reaches.trans (h : m.Reaches ok s s1) (h' : m.Reaches ok s1 s') : m.Reaches ok s s' := by
  obtain ⟨as, hr, hm⟩ := h
  induction as generalizing s with
  | nil =>
    cases hr
    exact h'
  | cons a as ih =>
    obtain ⟨s2, hs, hr⟩ := m.run_cons_some hr
    rw [meets_cons m hs] at hm
    exact Reaches.cons m hs hm.1 (ih hr hm.2)

def comap (f : β → α) : Machine σ β where
  step s b := m.step s (f b)

theorem run_comap (f : β → α) : ∀ (s : σ) (bs : List β), (m.comap f).run s bs = m.run s (bs.map f)
  | _, [] => rfl
  | s, b :: bs => by
    rw [map_cons, run_cons, run_cons]
    exact congrArg _ (funext (fun s' => run_comap f s' bs))

theorem meets_comap (f : β → α) (ok : σ → α → Prop) : ∀ (s : σ) (bs : List β),
    (m.comap f).Meets (fun s b => ok s (f b)) s bs ↔ m.Meets ok s (bs.map f)
  | _, [] => Iff.rfl
  | s, b :: bs => by
    rw [map_cons, Meets, Meets]
    refine and_congr Iff.rfl ?_
    have hstep : (m.comap f).step s b = m.step s (f b) := rfl
    rw [hstep]
    cases m.step s (f b) with
    | none => exact Iff.rfl
    | some s' => exact meets_comap f ok s' bs

/-! ## A value carried along a run -/

/-- A value that follows the actions and never influences them. -/
def carry (f : σ → α → β → β) : Machine (σ × β) α where
  step s a := (m.step s.1 a).map fun s' => (s', f s.1 a s.2)

theorem carry_step {f : σ → α → β → β} {s : σ × β} {s' : σ × β} :
    (m.carry f).step s a = some s' ↔ m.step s.1 a = some s'.1 ∧ s'.2 = f s.1 a s.2 := by
  simp only [carry, Option.map_eq_some_iff]
  constructor
  · rintro ⟨x, hx, rfl⟩
    exact ⟨hx, rfl⟩
  · rintro ⟨hx, hv⟩
    exact ⟨s'.1, hx, by rw [← hv]⟩

/-! ## Runs that are evaluated -/

section

variable {o : Option σ} {Q : σ → Prop}

theorem ends_of (P : σ → Prop) (h : ∃ s, o = some s ∧ P s) (hQ : ∀ s, o = some s → P s → Q s) : ∃ s, o = some s ∧ Q s := by
  obtain ⟨s, hs, hp⟩ := h
  exact ⟨s, hs, hQ s hs hp⟩

theorem ends_twice {o' : σ → Option β} {P : σ → β → Prop} (h : ∃ s, o = some s ∧ ∃ t, o' s = some t ∧ P s t) :
    ∃ s t, o = some s ∧ o' s = some t ∧ P s t := by
  obtain ⟨s, hs, t, ht⟩ := h
  exact ⟨s, t, hs, ht⟩

end

end Machine

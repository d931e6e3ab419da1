import Mathlib.Data.List.AList
/-!
# Table — the operations in flight of a concurrent component, by task id

Each in-flight operation is a row under the id of the task that runs it. Invariants about "every operation in flight"
are statements about every `lookup`; `forall_insert` and `forall_erase` carry one over an update, and the `Any` lemmas
do the same for "some operation in flight".
-/

/-- The rows in flight, by task id. -/
abbrev Table (β : Type*) := AList fun _ : Nat => β

namespace Table

open AList

variable {β : Type*} {T : Table β} {P : Nat → β → Prop} {t : Nat} {b b' : β}

def All (T : Table β) (P : Nat → β → Prop) : Prop := ∀ x ∈ T.entries, P x.1 x.2

instance (T : Table β) (P : Nat → β → Prop) [∀ t b, Decidable (P t b)] : Decidable (T.All P) :=
  inferInstanceAs (Decidable (∀ x ∈ T.entries, P x.1 x.2))

theorem all_iff (T : Table β) (P : Nat → β → Prop) : T.All P ↔ ∀ t b, T.lookup t = some b → P t b := by
  constructor
  · intro h t b hb
    exact h ⟨t, b⟩ (mem_lookup_iff.1 hb)
  · rintro h ⟨t, b⟩ hx
    exact h t b (mem_lookup_iff.2 hx)

@[grind →]
theorem All.lookup (h : T.All P) (hb : T.lookup t = some b) : P t b := (all_iff T P).1 h t b hb

@[grind =]
theorem lookup_insert_eq (T : Table β) (t t' : Nat) (b : β) :
    (T.insert t b).lookup t' = if t' = t then some b else T.lookup t' := by
  split
  next ht => rw [ht, lookup_insert]
  next ht => exact lookup_insert_ne ht

@[grind =]
theorem lookup_erase_eq (T : Table β) (t t' : Nat) : (T.erase t).lookup t' = if t' = t then none else T.lookup t' := by
  split
  next ht => rw [ht, lookup_erase]
  next ht => exact lookup_erase_ne ht

theorem lookup_insert_some {t' : Nat} (h : (T.insert t b).lookup t' = some b') :
    (t' = t ∧ b' = b) ∨ (t' ≠ t ∧ T.lookup t' = some b') := by
  grind

theorem lookup_of_insert {t' : Nat} (h : (T.insert t b).lookup t' = some b') (hne : b' ≠ b) : T.lookup t' = some b' := by
  grind

theorem lookup_erase_some {t' : Nat} (h : (T.erase t).lookup t' = some b') : t' ≠ t ∧ T.lookup t' = some b' := by
  grind

/-! The same for a partial function. -/

theorem update_some {κ : Type} [DecidableEq κ] {f : κ → Option β} {k k' : κ}
    (h : Function.update f k (some b) k' = some b') : (k' = k ∧ b' = b) ∨ (k' ≠ k ∧ f k' = some b') := by
  grind [Function.update_apply]

theorem update_none {κ : Type} [DecidableEq κ] {f : κ → Option β} {k k' : κ}
    (h : Function.update f k none k' = some b) : k' ≠ k ∧ f k' = some b := by
  grind [Function.update_apply]

/-! The same for statements about `lookup`. -/

theorem forall_insert (h : ∀ t b, T.lookup t = some b → P t b) (hb : P t b) :
    ∀ t' b', (T.insert t b).lookup t' = some b' → P t' b' := by
  intro t' b' h'
  rcases lookup_insert_some h' with ⟨rfl, rfl⟩ | ⟨-, h'⟩
  · exact hb
  · exact h t' b' h'

theorem forall_erase (h : ∀ t b, T.lookup t = some b → P t b) (t : Nat) :
    ∀ t' b', (T.erase t).lookup t' = some b' → P t' b' :=
  fun t' b' h' => h t' b' (lookup_erase_some h').2

def alter (T : Table β) (t : Nat) (f : β → β) : Table β :=
  match T.lookup t with
  | some b => T.insert t (f b)
  | none => T

@[grind =]
theorem lookup_alter (T : Table β) (t t' : Nat) (f : β → β) :
    (T.alter t f).lookup t' = if t' = t then (T.lookup t).map f else T.lookup t' := by
  cases h : T.lookup t with
  | none =>
    simp only [alter, h]
    split
    · next ht => rw [ht, h]; rfl
    · rfl
  | some b =>
    simp only [alter, h]
    split
    · next ht => rw [ht, lookup_insert]; rfl
    · next ht => rw [lookup_insert_ne ht]

def Any (T : Table β) (P : Nat → β → Prop) : Prop := ∃ x ∈ T.entries, P x.1 x.2

instance (T : Table β) (P : Nat → β → Prop) [∀ t b, Decidable (P t b)] : Decidable (T.Any P) :=
  inferInstanceAs (Decidable (∃ x ∈ T.entries, P x.1 x.2))

theorem any_iff (T : Table β) (P : Nat → β → Prop) : T.Any P ↔ ∃ t b, T.lookup t = some b ∧ P t b := by
  constructor
  · rintro ⟨⟨t, b⟩, hx, hp⟩
    exact ⟨t, b, mem_lookup_iff.2 hx, hp⟩
  · rintro ⟨t, b, hb, hp⟩
    exact ⟨⟨t, b⟩, mem_lookup_iff.1 hb, hp⟩

theorem Any.of_lookup (h : T.lookup t = some b) (hp : P t b) : T.Any P := (any_iff T P).2 ⟨t, b, h, hp⟩

theorem Any.mono {Q : Nat → β → Prop} (h : T.Any P) (himp : ∀ t b, P t b → Q t b) : T.Any Q := by
  obtain ⟨x, hx, hp⟩ := h
  exact ⟨x, hx, himp x.1 x.2 hp⟩

theorem Any.insert (h : T.Any P) (hb : ∀ b0, T.lookup t = some b0 → P t b0 → P t b) : Any (T.insert t b) P := by
  obtain ⟨t', b', hb', hp⟩ := (any_iff T P).1 h
  by_cases ht : t' = t
  · subst ht
    exact Any.of_lookup (lookup_insert T) (hb b' hb' hp)
  · exact Any.of_lookup (by rw [lookup_insert_ne ht]; exact hb') hp

theorem Any.erase (h : T.Any P) (hb : ∀ b0, T.lookup t = some b0 → ¬ P t b0) : Any (T.erase t) P := by
  obtain ⟨t', b', hb', hp⟩ := (any_iff T P).1 h
  have ht : t' ≠ t := by
    rintro rfl
    exact hb b' hb' hp
  exact Any.of_lookup (by rw [lookup_erase_ne ht]; exact hb') hp

/-! The same when the row is known. -/

theorem Any.replace (h : T.Any P) (hb : T.lookup t = some b) (himp : P t b → P t b') : Any (T.insert t b') P := by
  apply h.insert
  intro b0 hb0 hp
  rw [hb, Option.some.injEq] at hb0
  subst hb0
  exact himp hp

theorem Any.drop (h : T.Any P) (hb : T.lookup t = some b) (hnot : ¬ P t b) : Any (T.erase t) P := by
  apply h.erase
  intro b0 hb0
  rw [hb, Option.some.injEq] at hb0
  subst hb0
  exact hnot

theorem Any.fresh (h : T.Any P) (ht : T.lookup t = none) : Any (T.insert t b') P := by
  apply h.insert
  intro b0 hb0
  rw [ht] at hb0
  cases hb0

end Table

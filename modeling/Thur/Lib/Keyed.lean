import Mathlib.Data.List.Nodup
/-!
# Keyed — a list of records searched by a key from the front

`get` finds the first record with a key and `alter` changes it.  A change that keeps the key is seen by `get` at that key and
nowhere else, whether or not keys repeat.
-/
namespace Keyed

variable {α κ : Type*} [DecidableEq κ] (key : α → κ) {l : List α} {a : α}

def get (l : List α) (k : κ) : Option α := l.find? fun a => key a = k

def alter (k : κ) (f : α → α) : List α → List α
  | [] => []
  | a :: l => if key a = k then f a :: l else a :: alter k f l

variable {key}

theorem key_of_get {k : κ} (h : get key l k = some a) : key a = k := by
  simpa using List.find?_some h

theorem mem_of_get {k : κ} (h : get key l k = some a) : a ∈ l := List.mem_of_find?_eq_some h

theorem get_cons (a : α) (l : List α) (k : κ) : get key (a :: l) k = if key a = k then some a else get key l k := by
  by_cases h : key a = k
  · simp [get, h]
  · simp [get, h]

theorem get_alter (k k' : κ) (f : α → α) (hf : ∀ a, key (f a) = key a) : ∀ l : List α,
    get key (alter key k f l) k' = if k' = k then (get key l k).map f else get key l k'
  | [] => by simp [get, alter]
  | a :: l => by
    by_cases ha : key a = k
    · by_cases hk : k' = k
      · subst hk
        simp [alter, get_cons, ha, hf]
      · have hne : ¬ key a = k' := fun h => hk (h.symm.trans ha)
        have hne' : ¬ k = k' := fun h => hk h.symm
        simp [alter, get_cons, ha, hf, hk, hne']
    · rw [alter, if_neg ha, get_cons, get_cons, get_alter k k' f hf l, get_cons, if_neg ha]
      by_cases hk : k' = k
      · subst hk
        simp [ha]
      · simp [hk]

@[simp] theorem map_key_alter (k : κ) (f : α → α) (hf : ∀ a, key (f a) = key a) : ∀ l : List α,
    (alter key k f l).map key = l.map key
  | [] => rfl
  | a :: l => by
    by_cases ha : key a = k
    · simp [alter, ha, hf]
    · simp [alter, ha, map_key_alter k f hf l]

theorem get_of_mem (hl : (l.map key).Nodup) (ha : a ∈ l) : get key l (key a) = some a := by
  induction l with
  | nil => cases ha
  | cons b l ih =>
    rw [List.map_cons, List.nodup_cons] at hl
    rw [get_cons]
    rcases List.mem_cons.1 ha with rfl | ha
    · simp
    · have hne : key b ≠ key a := fun h => hl.1 (h ▸ List.mem_map_of_mem ha)
      rw [if_neg hne, ih hl.2 ha]

theorem get_eq_getElem? {key : α → Nat} {n : Nat} (hl : l.map key = List.range n) (k : Nat) : get key l k = l[k]? := by
  have hlen : l.length = n := by simpa using congrArg List.length hl
  have hkey : ∀ i a, l[i]? = some a → key a = i := by
    intro i a hi
    have h := congrArg (·[i]?) hl
    obtain ⟨hlt, -⟩ := List.getElem?_eq_some_iff.1 hi
    simpa [hi, List.getElem?_range (hlen ▸ hlt)] using h
  have hnodup : (l.map key).Nodup := hl ▸ List.nodup_range
  cases hk : l[k]? with
  | some a =>
    rw [← hkey k a hk]
    exact get_of_mem hnodup (List.mem_of_getElem? hk)
  | none =>
    rw [get, List.find?_eq_none]
    intro a ha
    obtain ⟨i, hi⟩ := List.mem_iff_getElem?.1 ha
    rw [decide_eq_true_eq]
    rintro rfl
    rw [hkey i a hi, hi] at hk
    cases hk

end Keyed

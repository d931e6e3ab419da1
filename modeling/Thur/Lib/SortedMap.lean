import Mathlib.Data.List.Sort
import Mathlib.Order.Basic
/-!
# SortedMap — a map whose entries are kept in key order

The entries are a list sorted strictly by key, so a key occurs once and two maps with the same lookups are equal.
`get_eq_some` turns every lookup into membership; a proof about a map needs the lemmas about `get`, and `ext_get`.
-/

/-- A map as the list of its entries in key order. -/
structure SortedMap (κ ν : Type*) [LinearOrder κ] where
  entries : List (κ × ν)
  sorted : entries.Pairwise fun a b => a.1 < b.1

namespace SortedMap

open List

variable {κ ν : Type*} [LinearOrder κ] {k : κ} {v : ν}

instance [DecidableEq ν] : DecidableEq (SortedMap κ ν)
  | ⟨a, _⟩, ⟨b, _⟩ => decidable_of_iff (a = b) (by rw [SortedMap.mk.injEq])

def empty : SortedMap κ ν := ⟨[], List.Pairwise.nil⟩

instance : EmptyCollection (SortedMap κ ν) := ⟨empty⟩

def get (m : SortedMap κ ν) (k : κ) : Option ν := (m.entries.find? (fun e => e.1 = k)).map Prod.snd

def isEmpty (m : SortedMap κ ν) : Bool := m.entries.isEmpty

def first? (m : SortedMap κ ν) : Option (κ × ν) := m.entries.head?

def any (m : SortedMap κ ν) (p : ν → Bool) : Bool := m.entries.any fun e => p e.2

def filter (m : SortedMap κ ν) (p : κ → ν → Bool) : SortedMap κ ν :=
  ⟨m.entries.filter (fun e => p e.1 e.2), m.sorted.sublist List.filter_sublist⟩

def erase (m : SortedMap κ ν) (k : κ) : SortedMap κ ν := m.filter fun a _ => a ≠ k

def insertEntry (k : κ) (v : ν) : List (κ × ν) → List (κ × ν)
  | [] => [(k, v)]
  | e :: l => if k < e.1 then (k, v) :: e :: l else if k = e.1 then (k, v) :: l else e :: insertEntry k v l

theorem fst_mem_insertEntry (k : κ) (v : ν) : ∀ (l : List (κ × ν)) (e : κ × ν), e ∈ insertEntry k v l → e = (k, v) ∨ e ∈ l
  | [], e, h => .inl (List.mem_singleton.1 h)
  | a :: l, e, h => by
    unfold insertEntry at h
    split at h
    · exact List.mem_cons.1 h
    · split at h
      · exact (List.mem_cons.1 h).imp_right (List.mem_cons_of_mem a)
      · rcases List.mem_cons.1 h with rfl | h
        · exact .inr List.mem_cons_self
        · exact (fst_mem_insertEntry k v l e h).imp_right (List.mem_cons_of_mem a)

theorem sorted_insertEntry (k : κ) (v : ν) : ∀ (l : List (κ × ν)), l.Pairwise (fun a b => a.1 < b.1) →
    (insertEntry k v l).Pairwise fun a b => a.1 < b.1
  | [], _ => List.pairwise_singleton _ _
  | a :: l, h => by
    obtain ⟨hlt, hl⟩ := pairwise_cons.1 h
    unfold insertEntry
    split
    · next hk =>
      refine pairwise_cons.2 ⟨fun b hb => ?_, h⟩
      rcases mem_cons.1 hb with rfl | hb
      · exact hk
      · exact hk.trans (hlt b hb)
    · next hk =>
      split
      · next he =>
        subst he
        exact pairwise_cons.2 ⟨hlt, hl⟩
      · next he =>
        refine pairwise_cons.2 ⟨fun b hb => ?_, sorted_insertEntry k v l hl⟩
        rcases fst_mem_insertEntry k v l b hb with rfl | hb
        · exact lt_of_le_of_ne (not_lt.1 hk) (Ne.symm he)
        · exact hlt b hb

def insert (m : SortedMap κ ν) (k : κ) (v : ν) : SortedMap κ ν :=
  ⟨insertEntry k v m.entries, sorted_insertEntry k v m.entries m.sorted⟩

/-- Collect entries in any order; a later one wins. -/
def ofEntries (l : List (κ × ν)) : SortedMap κ ν := l.foldl (fun m e => m.insert e.1 e.2) ∅

/-! ## Lookups -/

/-- **A lookup is membership**: a key occurs once. -/
theorem get_eq_some (m : SortedMap κ ν) (k : κ) (v : ν) : m.get k = some v ↔ (k, v) ∈ m.entries := by
  unfold get
  obtain ⟨l, hl⟩ := m
  simp only
  induction l with
  | nil => simp
  | cons a l ih =>
    obtain ⟨hlt, hl'⟩ := pairwise_cons.1 hl
    rw [find?_cons, mem_cons]
    by_cases hk : a.1 = k
    · simp only [hk, decide_true, Option.map_some, Option.some.injEq]
      constructor
      · rintro rfl
        exact .inl (by rw [← hk])
      · rintro (rfl | hm)
        · rfl
        · exact absurd (hlt _ hm) (by simp [hk])
    · simp only [hk, decide_false, ih hl']
      refine ⟨.inr, fun h => h.resolve_left ?_⟩
      rintro rfl
      exact hk rfl

theorem get_eq_none (m : SortedMap κ ν) (k : κ) : m.get k = none ↔ ∀ v, (k, v) ∉ m.entries := by
  rw [Option.eq_none_iff_forall_ne_some]
  exact forall_congr' fun v => not_congr (get_eq_some m k v)

@[simp] theorem get_empty (k : κ) : (∅ : SortedMap κ ν).get k = none := rfl

theorem ext_get {m m' : SortedMap κ ν} (h : ∀ k, m.get k = m'.get k) : m = m' := by
  have hmem : ∀ e, e ∈ m.entries ↔ e ∈ m'.entries := by
    rintro ⟨k, v⟩
    rw [← get_eq_some, ← get_eq_some, h k]
  have hnodup : ∀ x : SortedMap κ ν, x.entries.Nodup :=
    fun x => x.sorted.imp fun hlt heq => absurd (congrArg Prod.fst heq) hlt.ne
  have hperm := (perm_ext_iff_of_nodup (hnodup m) (hnodup m')).2 hmem
  have heq := hperm.eq_of_pairwise (fun a b _ _ hab hba => absurd hba hab.asymm) m.sorted m'.sorted
  cases m
  cases m'
  cases heq
  rfl

theorem get_filter (m : SortedMap κ ν) (p : κ → ν → Bool) (k : κ) : (m.filter p).get k = (m.get k).filter (p k) := by
  refine Option.ext fun v => ?_
  rw [get_eq_some, Option.filter_eq_some_iff, get_eq_some]
  exact mem_filter

theorem get_erase (m : SortedMap κ ν) (k k' : κ) : (m.erase k).get k' = if k' = k then none else m.get k' := by
  unfold erase
  rw [get_filter]
  split
  · next h => simp [h]
  · next h => cases m.get k' <;> simp [h]

theorem get_insert (m : SortedMap κ ν) (k k' : κ) (v : ν) :
    (m.insert k v).get k' = if k' = k then some v else m.get k' := by
  unfold get insert
  obtain ⟨l, hl⟩ := m
  simp only
  induction l with
  | nil =>
    by_cases h : k' = k
    · simp [insertEntry, h]
    · simp [insertEntry, h, Ne.symm h]
  | cons a l ih =>
    obtain ⟨hlt, hl'⟩ := pairwise_cons.1 hl
    have ih := ih hl'
    unfold insertEntry
    split
    · by_cases h : k' = k
      · simp [h]
      · simp [h, Ne.symm h]
    · split
      · next ha =>
        by_cases h : k' = k
        · simp [h]
        · simp [← ha, h, Ne.symm h]
      · next ha =>
        rw [find?_cons, find?_cons]
        by_cases h : a.1 = k'
        · have hne : k' ≠ k := fun he => ha (by rw [h, he])
          simp [h, hne]
        · simp only [h, decide_false]
          exact ih

theorem get_foldl_insert (k : κ) : ∀ (l : List (κ × ν)) (m : SortedMap κ ν), l.Pairwise (fun a b => a.1 < b.1) →
    (l.foldl (fun m e => m.insert e.1 e.2) m).get k = ((l.find? (fun e => e.1 = k)).map Prod.snd).or (m.get k)
  | [], m, _ => by simp
  | a :: l, m, h => by
    obtain ⟨hlt, hl⟩ := pairwise_cons.1 h
    rw [foldl_cons, get_foldl_insert k l _ hl, find?_cons, get_insert]
    by_cases hk : a.1 = k
    · have hno : l.find? (fun e => e.1 = k) = none := by
        refine find?_eq_none.2 fun e he => ?_
        have := hlt e he
        rw [hk] at this
        simp [this.ne']
      simp [hk, hno]
    · simp [hk, Ne.symm hk]

theorem mem_of_get_foldl_insert : ∀ (l : List (κ × ν)) (m : SortedMap κ ν),
    (l.foldl (fun m e => m.insert e.1 e.2) m).get k = some v → (k, v) ∈ l ∨ m.get k = some v
  | [], _, h => .inr h
  | a :: l, m, h => by
    rcases mem_of_get_foldl_insert l _ h with h | h
    · exact .inl (List.mem_cons_of_mem a h)
    · rw [get_insert] at h
      split at h
      · next hk =>
        cases h
        exact .inl (hk ▸ List.mem_cons_self)
      · exact .inr h

theorem mem_of_get_ofEntries {l : List (κ × ν)} (h : (ofEntries l).get k = some v) : (k, v) ∈ l :=
  (mem_of_get_foldl_insert l ∅ h).resolve_right (by simp)

theorem ofEntries_entries (m : SortedMap κ ν) : ofEntries m.entries = m := by
  refine ext_get fun k => ?_
  unfold ofEntries
  rw [get_foldl_insert k m.entries ∅ m.sorted, get_empty, Option.or_none]
  rfl

theorem isEmpty_iff (m : SortedMap κ ν) : m.isEmpty = true ↔ ∀ k, m.get k = none := by
  unfold isEmpty
  rw [List.isEmpty_iff]
  constructor
  · intro h k
    rw [get_eq_none, h]
    simp
  · intro h
    refine List.eq_nil_iff_forall_not_mem.2 fun e he => ?_
    exact (get_eq_none m e.1).1 (h e.1) e.2 he

theorem get_of_first? {m : SortedMap κ ν} (h : m.first? = some (k, v)) : m.get k = some v :=
  (get_eq_some m k v).2 (mem_of_head? h)

theorem any_iff (m : SortedMap κ ν) (p : ν → Bool) : m.any p = true ↔ ∃ k v, m.get k = some v ∧ p v = true := by
  unfold any
  rw [any_eq_true]
  constructor
  · rintro ⟨⟨k, v⟩, hm, hp⟩
    exact ⟨k, v, (get_eq_some m k v).2 hm, hp⟩
  · rintro ⟨k, v, hm, hp⟩
    exact ⟨(k, v), (get_eq_some m k v).1 hm, hp⟩

end SortedMap

import Mathlib.Data.List.AList
/-!
# Tally — sums over the rows of a finite map

`weigh T f` adds up `f` over the rows of `T`.  A row comes in and goes out with its own weight (`weigh_insert`,
`weigh_erase`), which is all an accounting argument needs to know of the map.
-/
namespace AList

variable {κ β : Type*}

def weigh (T : AList (fun _ : κ => β)) (f : κ → β → Nat) : Nat := T.entries.foldr (fun x n => f x.1 x.2 + n) 0

theorem foldr_weigh_append (f : κ → β → Nat) (l1 l2 : List (Sigma fun _ : κ => β)) :
    (l1 ++ l2).foldr (fun x n => f x.1 x.2 + n) 0 =
      l1.foldr (fun x n => f x.1 x.2 + n) 0 + l2.foldr (fun x n => f x.1 x.2 + n) 0 := by
  induction l1 with
  | nil => exact (Nat.zero_add _).symm
  | cons x l1 ih =>
    rw [List.cons_append, List.foldr_cons, List.foldr_cons, ih]
    exact (Nat.add_assoc _ _ _).symm

variable [DecidableEq κ] {T : AList (fun _ : κ => β)} {k : κ} {b : β} {f : κ → β → Nat}

theorem weigh_erase (h : T.lookup k = some b) : T.weigh f = f k b + (T.erase k).weigh f := by
  have hmem : k ∈ T := lookup_isSome.1 (by rw [h]; rfl)
  obtain ⟨b', l1, l2, -, hsplit, herase⟩ := List.exists_of_kerase hmem
  have hb : b' = b := by
    have hin : (⟨k, b'⟩ : Sigma fun _ : κ => β) ∈ T.entries := by simp [hsplit]
    rw [mem_lookup_iff.2 hin] at h
    exact Option.some.inj h
  subst hb
  have hrest : (T.erase k).entries = l1 ++ l2 := herase
  rw [weigh, weigh, hrest, hsplit, foldr_weigh_append, foldr_weigh_append, List.foldr_cons]
  exact Nat.add_left_comm _ _ _

theorem weigh_insert : (T.insert k b).weigh f = f k b + (T.erase k).weigh f := rfl

theorem weigh_erase_none (h : T.lookup k = none) : (T.erase k).weigh f = T.weigh f := by
  have hmem : k ∉ T := lookup_eq_none.1 h
  rw [show T.erase k = T from ext (List.kerase_of_notMem_keys hmem)]

end AList

import Mathlib.Logic.Equiv.Basic
/-!
# Placement — which thing stands in which place

A placement says what each place holds. No thing is made or lost, and none stands in two places, exactly because every
change is a permutation of the places (`Rearranges`). A move into a free place and a swap are such changes, and they
compose.
-/

abbrev Placement (E B : Type*) := E → Option B

namespace Placement

variable {E B : Type*}

def Once (f : Placement E B) : Prop := ∀ e e' b, f e = some b → f e' = some b → e = e'

def Has (f : Placement E B) (b : B) : Prop := ∃ e, f e = some b

/-- The same things over the same places, in another order. -/
def Rearranges (f g : Placement E B) : Prop := ∃ p : Equiv.Perm E, g = f ∘ p

namespace Rearranges

theorem refl (f : Placement E B) : Rearranges f f := ⟨Equiv.refl E, rfl⟩

variable {f g : Placement E B}

theorem trans {k : Placement E B} (h : Rearranges f g) (h' : Rearranges g k) : Rearranges f k := by
  obtain ⟨p, rfl⟩ := h
  obtain ⟨q, rfl⟩ := h'
  exact ⟨q.trans p, rfl⟩

theorem once (h : Rearranges f g) (hf : Once f) : Once g := by
  obtain ⟨p, rfl⟩ := h
  intro e e' b he he'
  exact p.injective (hf (p e) (p e') b he he')

theorem has_iff (h : Rearranges f g) (b : B) : Has g b ↔ Has f b := by
  obtain ⟨p, rfl⟩ := h
  constructor
  · rintro ⟨e, he⟩
    exact ⟨p e, he⟩
  · rintro ⟨e, he⟩
    exact ⟨p.symm e, by simpa using he⟩

end Rearranges

theorem Once.existsUnique {f : Placement E B} (h : Once f) {b : B} (hb : Has f b) : ∃! e, f e = some b := by
  obtain ⟨e, he⟩ := hb
  exact ⟨e, he, fun e' he' => h e' e b he' he⟩

section Move

variable [DecidableEq E] {src dst : E}

section

variable (f : Placement E B)

def move (src dst : E) : Placement E B :=
  Function.update (Function.update f src none) dst (f src)

@[simp] theorem move_dst (src dst : E) : f.move src dst dst = f src := by
  simp [move]

theorem move_src (h : src ≠ dst) : f.move src dst src = none := by
  simp [move, h]

theorem move_of_ne {e : E} (hs : e ≠ src) (hd : e ≠ dst) : f.move src dst e = f e := by
  simp [move, hs, hd]

theorem move_eq_swap (hd : f dst = none) : f.move src dst = f ∘ Equiv.swap src dst := by
  funext e
  by_cases hed : e = dst
  · subst hed
    simp
  · by_cases hes : e = src
    · subst hes
      simp [move_src f hed, hd]
    · simp [move_of_ne f hes hed, Equiv.swap_apply_of_ne_of_ne hes hed]

theorem rearranges_move (hd : f dst = none) : Rearranges f (f.move src dst) :=
  ⟨Equiv.swap src dst, f.move_eq_swap hd⟩

theorem move_stays {e : E} {b b' : B} (hsrc : f src = some b) (hd : f dst = none)
    (he : f e = some b') (hb : b' ≠ b) : f.move src dst e = some b' := by
  have hes : e ≠ src := by
    rintro rfl
    rw [hsrc] at he
    exact hb (Option.some.inj he).symm
  have hed : e ≠ dst := by
    rintro rfl
    rw [hd] at he
    cases he
  rw [move_of_ne f hes hed, he]

end

end Move

end Placement

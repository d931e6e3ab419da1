import Mathlib.Data.Nat.Basic
/-!
# Spans — a loop over a byte range, cut at block boundaries

Each iteration handles the part of the range that lies in the block of the cursor. `spans` is that loop for any body,
and `spans_inv` its rule: a body that carries the invariant from the cursor to the next one is never stopped, and the
invariant holds at the end of the range.
-/

namespace Spans

variable {σ : Type*} {blockSize : Nat}

/-- How much of the range the block of the cursor holds. -/
def chunk (blockSize cursor remaining : Nat) : Nat := min remaining (blockSize - cursor % blockSize)

/-- The loop; `fuel` bounds the number of iterations. -/
def spans (blockSize : Nat) (body : σ → Nat → Nat → Option σ) : Nat → Nat → Nat → σ → Option σ
  | _, _, 0, s => some s
  | 0, _, _ + 1, _ => none
  | fuel + 1, cursor, remaining + 1, s =>
    let n := chunk blockSize cursor (remaining + 1)
    (body s cursor n).bind (spans blockSize body fuel (cursor + n) (remaining + 1 - n))

theorem chunk_pos (h : 0 < blockSize) (cursor remaining : Nat) : 0 < chunk blockSize cursor (remaining + 1) := by
  have := Nat.mod_lt cursor h
  unfold chunk
  omega

theorem chunk_le (blockSize cursor remaining : Nat) : chunk blockSize cursor remaining ≤ remaining := min_le_left _ _

theorem mod_add_chunk_le (h : 0 < blockSize) (cursor remaining : Nat) :
    cursor % blockSize + chunk blockSize cursor remaining ≤ blockSize := by
  have := Nat.mod_lt cursor h
  unfold chunk
  omega

/-- **The rule of the loop**: the body meets `Inv` of the cursor with a nonempty span inside the block and the range. -/
theorem spans_inv (hb : 0 < blockSize) (body : σ → Nat → Nat → Option σ) (Inv : Nat → σ → Prop) (stop : Nat)
    (hbody : ∀ s cursor n, 0 < n → cursor + n ≤ stop → cursor % blockSize + n ≤ blockSize → Inv cursor s →
      ∃ s', body s cursor n = some s' ∧ Inv (cursor + n) s') :
    ∀ fuel cursor remaining s, remaining ≤ fuel → cursor + remaining = stop → Inv cursor s →
      ∃ s', spans blockSize body fuel cursor remaining s = some s' ∧ Inv stop s'
  | fuel, cursor, 0, s, _, hstop, hs => ⟨s, by simp [spans], by rwa [← hstop]⟩
  | 0, _, _ + 1, _, hfuel, _, _ => absurd hfuel (Nat.not_succ_le_zero _)
  | fuel + 1, cursor, remaining + 1, s, hfuel, hstop, hs => by
    have hpos := chunk_pos hb cursor remaining
    have hle := chunk_le blockSize cursor (remaining + 1)
    obtain ⟨s1, hs1, hinv⟩ := hbody s cursor _ hpos (by omega) (mod_add_chunk_le hb cursor _) hs
    obtain ⟨s2, hs2, hend⟩ := spans_inv hb body Inv stop hbody fuel _
      (remaining + 1 - chunk blockSize cursor (remaining + 1)) s1 (by omega) (by omega) hinv
    refine ⟨s2, ?_, hend⟩
    rw [spans, hs1]
    exact hs2

end Spans

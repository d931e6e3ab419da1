import Thur.Lib.Paged
/-!
# DirtyPages — the bitmap of changed index pages

Which 1 MiB pages of an index file changed since they were last uploaded: a vector of 64-bit words that grows when a
page is marked. A cut drops the words behind the new end, masks the last one and marks the page the file now ends in,
but only where the vector reaches that far.
-/
namespace Thur.Stream

open List

def pageSize : Nat := 1048576

theorem pageSize_pos : 0 < pageSize := by decide

def asU32 (n : Nat) : Nat := n % 4294967296

theorem asU32_of_lt {n : Nat} (h : n < 4294967296) : asU32 n = n := Nat.mod_eq_of_lt h

/-! ## Bits of a word vector -/

namespace Bitmap

section

variable (bits : List (BitVec 64))

def get (i : Nat) : Bool := (bits.getD (i / 64) 0#64).getLsbD (i % 64)

def setBit (i : Nat) : List (BitVec 64) :=
  bits.modify (i / 64) fun w => w ||| (1#64 <<< (i % 64))

def clearBit (i : Nat) : List (BitVec 64) :=
  bits.modify (i / 64) fun w => w &&& ~~~(1#64 <<< (i % 64))

@[simp] theorem length_setBit (i : Nat) : (setBit bits i).length = bits.length := by
  simp [setBit]

theorem getLsbD_one_shiftLeft {b : Nat} (hb : b < 64) (i : Nat) : (1#64 <<< b).getLsbD i = decide (i = b) := by
  rw [BitVec.getLsbD_shiftLeft, BitVec.getLsbD_one]
  rw [Bool.eq_iff_iff]
  simp only [Bool.and_eq_true, decide_eq_true_eq, Bool.not_eq_true', decide_eq_false_iff_not]
  omega

theorem get_modify (w i : Nat) (f : BitVec 64 → BitVec 64) (h : w < bits.length) :
    get (bits.modify w f) i = if i / 64 = w then (f (bits.getD w 0#64)).getLsbD (i % 64) else get bits i := by
  simp only [get, getD_eq_getElem?_getD, getElem?_modify]
  by_cases hw : i / 64 = w
  · subst hw
    simp [h]
  · have hne : w ≠ i / 64 := fun h' => hw h'.symm
    simp [hw, hne]

theorem decide_mod_eq {i j : Nat} (hw : i / 64 = j / 64) : decide (i % 64 = j % 64) = decide (i = j) := by
  rw [decide_eq_decide]
  omega

theorem get_setBit {bits : List (BitVec 64)} {j : Nat} (h : j / 64 < bits.length) (i : Nat) :
    get (setBit bits j) i = (decide (i = j) || get bits i) := by
  rw [setBit, get_modify bits _ i _ h]
  have hmod : j % 64 < 64 := Nat.mod_lt j (by decide)
  by_cases hw : i / 64 = j / 64
  · rw [if_pos hw, BitVec.getLsbD_or, getLsbD_one_shiftLeft hmod, Bool.or_comm, get, hw]
    rw [decide_mod_eq hw]
  · rw [if_neg hw]
    have hij : i ≠ j := fun h' => hw (by rw [h'])
    simp [hij]

theorem get_clearBit (i j : Nat) : get (clearBit bits j) i = (!decide (i = j) && get bits i) := by
  by_cases h : j / 64 < bits.length
  · rw [clearBit, get_modify bits _ i _ h]
    have hmod : j % 64 < 64 := Nat.mod_lt j (by decide)
    have himod : i % 64 < 64 := Nat.mod_lt i (by decide)
    by_cases hw : i / 64 = j / 64
    · rw [if_pos hw, BitVec.getLsbD_and, BitVec.getLsbD_not, getLsbD_one_shiftLeft hmod, Bool.and_comm, get, hw]
      congr 1
      simp only [himod, decide_true, Bool.true_and]
      rw [decide_mod_eq hw]
    · rw [if_neg hw]
      have hij : i ≠ j := fun h' => hw (by rw [h'])
      simp [hij]
  · have hsame : clearBit bits j = bits := modify_eq_self (by omega)
    rw [hsame]
    by_cases hij : i = j
    · subst hij
      have hnone : bits[i / 64]? = none := getElem?_eq_none (by omega)
      simp [get, getD_eq_getElem?_getD, hnone]
    · simp [hij]

theorem get_append_zeros (n i : Nat) : get (bits ++ List.replicate n 0#64) i = get bits i := by
  simp only [get, getD_eq_getElem?_getD]
  by_cases h : i / 64 < bits.length
  · rw [getElem?_append_left h]
  · rw [getElem?_append_right (by omega), getElem?_replicate, getElem?_eq_none (by omega : bits.length ≤ i / 64)]
    split <;> simp

end

theorem get_take {bits : List (BitVec 64)} {n i : Nat} (h : i / 64 < n) : get (bits.take n) i = get bits i := by
  simp only [get, getD_eq_getElem?_getD, getElem?_take_of_lt h]

theorem getLsbD_mask {u : Nat} (hu : u < 64) (i : Nat) :
    ((1#64 <<< u) - 1#64).getLsbD i = decide (i < u) := by
  have hpow : 2 ^ u < 2 ^ 64 := Nat.pow_lt_pow_right (by decide) hu
  have hone : 1 ≤ 2 ^ u := Nat.one_le_two_pow
  have hval : ((1#64 <<< u) - 1#64).toNat = 2 ^ u - 1 := by
    rw [BitVec.toNat_sub, BitVec.toNat_shiftLeft, BitVec.toNat_ofNat, Nat.shiftLeft_eq,
      Nat.mod_eq_of_lt (by decide : 1 < 2 ^ 64),
      Nat.one_mul, Nat.mod_eq_of_lt hpow]
    omega
  rw [BitVec.getLsbD, hval, Nat.testBit_two_pow_sub_one]

end Bitmap

/-! ## The tracker -/

structure DirtyPageTracker where
  bits : List (BitVec 64)
  epoch : Nat
deriving DecidableEq

namespace DirtyPageTracker

def blank : DirtyPageTracker := ⟨[], 0⟩

def Marked (t : DirtyPageTracker) (i : Nat) : Prop := Bitmap.get t.bits i = true
deriving Decidable

def ensureCapacity (bits : List (BitVec 64)) (maxPage : Nat) : List (BitVec 64) :=
  let neededWords := maxPage / 64 + 1
  if bits.length < neededWords then bits ++ List.replicate (neededWords - bits.length) 0#64 else bits

section

variable (t : DirtyPageTracker)

/-- Page indices are `u32`; a range behind its end after the cast marks nothing. -/
def markRange (offset len : Nat) : DirtyPageTracker :=
  if len = 0 then t
  else
    let first := asU32 (offset / pageSize)
    let last := asU32 ((offset + len - 1) / pageSize)
    { t with bits := (List.range' first (last + 1 - first)).foldl Bitmap.setBit (ensureCapacity t.bits last) }

def dropWords (bits : List (BitVec 64)) (n : Nat) : List (BitVec 64) :=
  let neededWords := (n + 63) / 64
  if bits.length > neededWords then bits.take neededWords else bits

/-- If the vector ends with the word of page `n`. -/
def maskTail (bits : List (BitVec 64)) (n : Nat) : List (BitVec 64) :=
  let neededWords := (n + 63) / 64
  let bitsUsed := n % 64
  if bitsUsed ≠ 0 ∧ bits.length = neededWords then
    bits.modify (neededWords - 1) fun w => w &&& ((1#64 <<< bitsUsed) - 1#64)
  else bits

def markBoundary (bits : List (BitVec 64)) (n : Nat) : List (BitVec 64) :=
  if n > 0 ∧ (n - 1) / 64 < bits.length then Bitmap.setBit bits (n - 1) else bits

def truncateToPages (newPageCount : Nat) : DirtyPageTracker :=
  { t with bits := markBoundary (maskTail (dropWords t.bits newPageCount) newPageCount) newPageCount }

/-- The loop over trailing zeros yields the set bits from the lowest. -/
def pages : List Nat := (List.range (64 * t.bits.length)).filter fun i => Bitmap.get t.bits i

def clearPages (pages : List Nat) : DirtyPageTracker :=
  { t with bits := pages.foldl Bitmap.clearBit t.bits }

def bumpEpoch : DirtyPageTracker := { t with epoch := min (t.epoch + 1) 18446744073709551615 }

/-! ## What each operation does to the marks -/

theorem get_ensureCapacity (bits : List (BitVec 64)) (maxPage i : Nat) :
    Bitmap.get (ensureCapacity bits maxPage) i = Bitmap.get bits i := by
  unfold ensureCapacity
  by_cases h : bits.length < maxPage / 64 + 1
  · rw [if_pos h, Bitmap.get_append_zeros]
  · rw [if_neg h]

theorem le_length_ensureCapacity (bits : List (BitVec 64)) (maxPage : Nat) :
    maxPage / 64 < (ensureCapacity bits maxPage).length := by
  unfold ensureCapacity
  by_cases h : bits.length < maxPage / 64 + 1
  · rw [if_pos h, length_append, length_replicate]
    omega
  · rw [if_neg h]
    omega

theorem get_foldl_setBit : ∀ (ps : List Nat) (bits : List (BitVec 64)), (∀ p ∈ ps, p / 64 < bits.length) → ∀ i,
    Bitmap.get (ps.foldl Bitmap.setBit bits) i = (decide (i ∈ ps) || Bitmap.get bits i)
  | [], bits, _, i => by simp
  | p :: ps, bits, h, i => by
    have hp := h p mem_cons_self
    have hps : ∀ q ∈ ps, q / 64 < (Bitmap.setBit bits p).length := by
      intro q hq
      rw [Bitmap.length_setBit]
      exact h q (mem_cons_of_mem p hq)
    rw [foldl_cons, get_foldl_setBit ps _ hps i, Bitmap.get_setBit hp]
    simp only [mem_cons, Bool.decide_or]
    rw [← Bool.or_assoc, Bool.or_comm (decide (i ∈ ps))]

/-- **A mark is where the range is**, while page numbers fit `u32`. -/
theorem marked_markRange {offset len : Nat} (h : (offset + len - 1) / pageSize < 4294967296) (i : Nat) :
    (t.markRange offset len).Marked i ↔ t.Marked i ∨ Paged.Touches pageSize offset len i := by
  unfold markRange
  by_cases hlen : len = 0
  · rw [if_pos hlen]
    simp [Paged.Touches, hlen]
  · rw [if_neg hlen]
    have hle : offset / pageSize ≤ (offset + len - 1) / pageSize := Nat.div_le_div_right (by omega)
    have hfirst : asU32 (offset / pageSize) = offset / pageSize := asU32_of_lt (by omega)
    have hlast := asU32_of_lt h
    have hcap := le_length_ensureCapacity t.bits ((offset + len - 1) / pageSize)
    simp only [Marked, hfirst, hlast]
    rw [get_foldl_setBit, get_ensureCapacity, Bool.or_eq_true, decide_eq_true_eq, mem_range'_1, or_comm]
    · refine or_congr Iff.rfl ?_
      unfold Paged.Touches
      omega
    · intro p hp
      rw [mem_range'_1] at hp
      have : p / 64 ≤ (offset + len - 1) / pageSize / 64 := Nat.div_le_div_right (by omega)
      omega

theorem get_foldl_clearBit : ∀ (ps : List Nat) (bits : List (BitVec 64)) (i : Nat),
    Bitmap.get (ps.foldl Bitmap.clearBit bits) i = (!decide (i ∈ ps) && Bitmap.get bits i)
  | [], bits, i => by simp
  | p :: ps, bits, i => by
    rw [List.foldl_cons, get_foldl_clearBit ps, Bitmap.get_clearBit]
    simp only [List.mem_cons, Bool.decide_or, Bool.not_or]
    rw [← Bool.and_assoc, Bool.and_comm (!decide (i ∈ ps))]

theorem marked_clearPages (ps : List Nat) (i : Nat) :
    (t.clearPages ps).Marked i ↔ i ∉ ps ∧ t.Marked i := by
  simp only [Marked, clearPages, get_foldl_clearBit, Bool.and_eq_true, Bool.not_eq_true', decide_eq_false_iff_not]

theorem mem_pages (i : Nat) : i ∈ t.pages ↔ t.Marked i := by
  simp only [pages, mem_filter, mem_range, Marked]
  constructor
  · exact fun h => h.2
  · intro h
    refine ⟨?_, h⟩
    by_contra hle
    have hnone : t.bits[i / 64]? = none := getElem?_eq_none (by omega)
    rw [Bitmap.get, getD_eq_getElem?_getD, hnone] at h
    simp at h

def Covers (n : Nat) : Prop := (n + 63) / 64 ≤ t.bits.length
deriving Decidable

end

variable {n i : Nat} {bits : List (BitVec 64)}

theorem get_dropWords (hi : i < n) : Bitmap.get (dropWords bits n) i = Bitmap.get bits i := by
  unfold dropWords
  by_cases h : bits.length > (n + 63) / 64
  · rw [if_pos h, Bitmap.get_take (by omega)]
  · rw [if_neg h]

theorem get_maskTail (hi : i < n) : Bitmap.get (maskTail bits n) i = Bitmap.get bits i := by
  unfold maskTail
  by_cases h : n % 64 ≠ 0 ∧ bits.length = (n + 63) / 64
  · rw [if_pos h, Bitmap.get_modify _ _ _ _ (by omega)]
    by_cases hw : i / 64 = (n + 63) / 64 - 1
    · have himod : i % 64 < 64 := Nat.mod_lt i (by decide)
      have hused : i % 64 < n % 64 := by omega
      rw [if_pos hw, BitVec.getLsbD_and, Bitmap.getLsbD_mask (by omega), decide_eq_true hused, Bool.and_true, ← hw]
      rfl
    · rw [if_neg hw]
  · rw [if_neg h]

theorem marked_truncateToPages_of_lt (t : DirtyPageTracker) (hi : i < n) (h : t.Marked i) :
    (t.truncateToPages n).Marked i := by
  have hkept : Bitmap.get (maskTail (dropWords t.bits n) n) i = true := by
    rw [get_maskTail hi, get_dropWords hi]
    exact h
  unfold Marked truncateToPages markBoundary
  dsimp only
  split
  · next hc => rw [Bitmap.get_setBit hc.2, hkept, Bool.or_true]
  · exact hkept

theorem length_maskTail (bits : List (BitVec 64)) (n : Nat) : (maskTail bits n).length = bits.length := by
  unfold maskTail
  dsimp only
  split <;> simp

theorem marked_truncateToPages_last (t : DirtyPageTracker) (hn : 0 < n) (hc : t.Covers n) :
    (t.truncateToPages n).Marked (n - 1) := by
  unfold Covers at hc
  have hlen : (dropWords t.bits n).length = (n + 63) / 64 := by
    unfold dropWords
    by_cases h : t.bits.length > (n + 63) / 64
    · rw [if_pos h, length_take]
      omega
    · rw [if_neg h]
      omega
  have hreach : (n - 1) / 64 < (maskTail (dropWords t.bits n) n).length := by
    rw [length_maskTail, hlen]
    omega
  unfold Marked truncateToPages markBoundary
  dsimp only
  rw [if_pos ⟨hn, hreach⟩, Bitmap.get_setBit hreach]
  simp

end DirtyPageTracker

end Thur.Stream

import Mathlib.Data.List.Basic
/-!
# Bytes — numbers in byte strings

Wire structures and files hold their numbers as byte strings of a fixed width, most significant byte first (SCSI) or last
(NVMe).
-/

abbrev Bytes := List UInt8

namespace Bytes

/-- Most significant byte first. -/
def beNat (b : Bytes) : Nat := b.foldl (fun n x => 256 * n + x.toNat) 0

/-- Least significant byte first. -/
def leNat : Bytes → Nat
  | [] => 0
  | x :: b => x.toNat + 256 * leNat b

/-- The low `w` bytes, most significant first. -/
def ofNatBE : Nat → Nat → Bytes
  | 0, _ => []
  | w + 1, n => ofNatBE w (n / 256) ++ [UInt8.ofNat n]

/-- Shorter where the string ends. -/
def field (b : Bytes) (i n : Nat) : Bytes := (b.drop i).take n

/-- Zero past the end. -/
def byte (b : Bytes) (i : Nat) : UInt8 := b.getD i 0

/-! ## Fields -/

theorem length_field {b : Bytes} {i n : Nat} (h : i + n ≤ b.length) : (b.field i n).length = n := by
  simp only [field, List.length_take, List.length_drop]
  omega

theorem getElem?_field (b : Bytes) (i n k : Nat) : (b.field i n)[k]? = if k < n then b[i + k]? else none := by
  simp only [field, List.getElem?_take, List.getElem?_drop]

@[simp] theorem field_zero (b : Bytes) (i : Nat) : b.field i 0 = [] := List.take_zero

theorem field_field (b : Bytes) {i n j m : Nat} (h : j + m ≤ n) : (b.field i n).field j m = b.field (i + j) m := by
  apply List.ext_getElem?
  intro k
  simp only [getElem?_field]
  split
  · rw [if_pos (by omega), Nat.add_assoc]
  · rfl

theorem field_append (b : Bytes) (i n m : Nat) : b.field i n ++ b.field (i + n) m = b.field i (n + m) := by
  simp only [field, ← List.drop_drop, List.take_add]

end Bytes

namespace Text

/-- The Unicode property `White_Space`. -/
def isWhitespace (c : Char) : Bool :=
  let n := c.toNat
  (9 ≤ n && n ≤ 13) || n == 0x20 || n == 0x85 || n == 0xA0 || n == 0x1680 || (0x2000 ≤ n && n ≤ 0x200A) ||
    n == 0x2028 || n == 0x2029 || n == 0x202F || n == 0x205F || n == 0x3000

def trim (s : List Char) : List Char := ((s.dropWhile isWhitespace).reverse.dropWhile isWhitespace).reverse

end Text

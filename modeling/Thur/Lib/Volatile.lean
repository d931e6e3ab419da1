import Thur.Lib.Paged
/-!
# Volatile — a file whose writes reach the disk at a sync

The file is the image on the disk and the writes issued since the last sync, oldest first. A crash keeps any of those
writes, in their order. For a paged file, `Settled` says that a page comes back from every crash that loses no cut as it
is now; a write leaves the pages it does not touch settled.
-/

/-- The image on the disk and the writes since. -/
structure Volatile (σ α : Type*) where
  synced : σ
  pending : List α

namespace Volatile

open List

variable {σ α : Type*} (act : σ → α → σ)

section

variable (f : Volatile σ α)

def image (kept : List α) : σ := kept.foldl act f.synced

def current : σ := f.image act f.pending

def write (a : α) : Volatile σ α := { f with pending := f.pending ++ [a] }

def sync : Volatile σ α := ⟨f.current act, []⟩

def afterCrash (kept : List α) : Volatile σ α := ⟨f.image act kept, []⟩

theorem image_append (kept : List α) (a : α) : f.image act (kept ++ [a]) = act (f.image act kept) a := by
  simp [image]

@[simp] theorem image_write (a : α) (kept : List α) : (f.write a).image act kept = f.image act kept := rfl

@[simp] theorem current_write (a : α) : (f.write a).current act = act (f.current act) a :=
  f.image_append act f.pending a

theorem current_foldl_write (ws : List α) (f : Volatile σ α) :
    (ws.foldl write f).current act = ws.foldl act (f.current act) := by
  induction ws generalizing f with
  | nil => rfl
  | cons a ws ih => rw [foldl_cons, foldl_cons, ih, current_write]

end

/-- Some of the writes, and every one that `must` holds of. -/
def Keeps (must : α → Bool) (f : Volatile σ α) (kept : List α) : Prop :=
  kept.Sublist f.pending ∧ kept.filter must = f.pending.filter must

variable [DecidableEq α] in
deriving instance Decidable for @Keeps σ α

theorem keeps_write {must : α → Bool} {f : Volatile σ α} {a : α} {kept : List α} (h : (f.write a).Keeps must kept) :
    ∃ kept', f.Keeps must kept' ∧ (kept = kept' ++ [a] ∨ (must a = false ∧ kept = kept')) := by
  obtain ⟨hsub, hfilter⟩ := h
  obtain ⟨l1, l2, rfl, hl1, hl2⟩ := sublist_append_iff.1 hsub
  rw [write, filter_append, filter_append] at hfilter
  have hle := (hl1.filter must).length_le
  have hcases : l2 = [] ∨ l2 = [a] := by
    cases hl2 with
    | cons _ h => exact .inl (sublist_nil.1 h)
    | cons_cons _ h => exact .inr (by rw [sublist_nil.1 h])
  rcases hcases with rfl | rfl
  · refine ⟨l1, ⟨hl1, ?_⟩, .inr ⟨?_, append_nil l1⟩⟩
    · have hlen := congrArg length hfilter
      simp only [filter_nil, append_nil, length_append] at hfilter hlen
      have hnil : filter must [a] = [] := length_eq_zero_iff.1 (by omega)
      rw [hfilter, hnil, append_nil]
    · cases ha : must a with
      | false => rfl
      | true =>
        have hlen := congrArg length hfilter
        simp [ha] at hlen
        omega
  · exact ⟨l1, ⟨hl1, append_cancel_right hfilter⟩, .inl rfl⟩

end Volatile

/-! ## Paged files -/

/-- What a handle does to the bytes of a file. -/
inductive FileWrite (β : Type*)
  | pwrite (off : Nat) (b : List β)
  | setLen (n : Nat)
deriving DecidableEq

namespace FileWrite

variable {β : Type*} (fill : β)

def act (l : List β) : FileWrite β → List β
  | .pwrite off b => Paged.writeAt fill l off b
  | .setLen n => Paged.setLen fill l n

def isCut : FileWrite β → Bool
  | .pwrite _ _ => false
  | .setLen _ => true

/-- Every page but those it leaves as they are; behind a cut all of them. -/
def Touches (P : Nat) : FileWrite β → Nat → Prop
  | .pwrite off b, i => Paged.Touches P off b.length i
  | .setLen n, i => n < i * P + P

instance (P : Nat) : ∀ (x : FileWrite β) (i : Nat), Decidable (x.Touches P i)
  | .pwrite off b, i => inferInstanceAs (Decidable (Paged.Touches P off b.length i))
  | .setLen n, i => inferInstanceAs (Decidable (n < i * P + P))

/-- It starts in the file or at its end; a cut does not grow it. -/
def Fits (l : List β) : FileWrite β → Prop
  | .pwrite off b => off ≤ l.length ∧ 0 < b.length
  | .setLen n => n ≤ l.length

end FileWrite

namespace Paged

variable {β : Type*} {fill : β} {P : Nat} {l : List β} {i n : Nat} {f : Volatile (List β) (FileWrite β)}

/-- The page comes back as it is now from every crash that loses no cut. -/
def Settled (fill : β) (P : Nat) (f : Volatile (List β) (FileWrite β)) (i : Nat) : Prop :=
  ∀ kept, f.Keeps FileWrite.isCut kept →
    page P (f.image (FileWrite.act fill) kept) i = page P (f.current (FileWrite.act fill)) i

theorem whole_of_page_eq {cur : List β} (hP : 0 < P) (heq : page P l i = page P cur i) (h : i * P + P ≤ cur.length) :
    i * P + P ≤ l.length := by
  have hlen := congrArg List.length heq
  rw [length_page, length_page, Nat.min_eq_left (by omega : P ≤ cur.length - i * P)] at hlen
  have hle : min P (l.length - i * P) ≤ l.length - i * P := Nat.min_le_right _ _
  rw [hlen] at hle
  omega

theorem page_writeAt_of_eq (hP : 0 < P) (fill : β) {cur : List β} {off : Nat} {b : List β} (hoff : off ≤ cur.length)
    (hb : 0 < b.length) (hi : ¬ Touches P off b.length i) (heq : page P l i = page P cur i) :
    page P (writeAt fill l off b) i = page P l i := by
  by_cases hl : off ≤ l.length
  · exact page_writeAt hP fill b hl hi
  have hcomm : P * i = i * P := Nat.mul_comm P i
  apply page_congr
  intro k hk1 hk2
  by_cases hbefore : i * P + P ≤ off
  · -- a page in front of the write is whole in `cur`, so the bytes that `l` lacks are of later pages
    have hwhole := whole_of_page_eq hP heq (Nat.le_trans hbefore hoff)
    rw [writeAt, List.take_of_length_le (by omega), List.getElem?_append_left (by omega)]
  · have hafter : off + b.length ≤ i * P := by
      by_contra hlt
      apply hi
      refine ⟨hb, ?_, ?_⟩
      · rw [Nat.div_le_iff_le_mul_add_pred hP]
        omega
      · rw [Nat.le_div_iff_mul_le hP]
        omega
    rw [List.getElem?_eq_none, List.getElem?_eq_none]
    · omega
    · rw [length_writeAt]
      omega

theorem Settled.pwrite (hP : 0 < P) {off : Nat} {b : List β} (h : Settled fill P f i)
    (hoff : off ≤ (f.current (FileWrite.act fill)).length) (hb : 0 < b.length) (hi : ¬ Touches P off b.length i) :
    Settled fill P (f.write (.pwrite off b)) i := by
  intro kept hkept
  obtain ⟨kept', hk, hcase⟩ := Volatile.keeps_write hkept
  have hcur : page P ((f.write (.pwrite off b)).current (FileWrite.act fill)) i =
      page P (f.current (FileWrite.act fill)) i := by
    rw [Volatile.current_write]
    exact page_writeAt hP fill b hoff hi
  rw [hcur, Volatile.image_write]
  rcases hcase with rfl | ⟨-, rfl⟩
  · rw [Volatile.image_append]
    exact (page_writeAt_of_eq hP fill hoff hb hi (h kept' hk)).trans (h kept' hk)
  · exact h kept hk

theorem image_cut (fill : β) {kept : List (FileWrite β)} (h : (f.write (.setLen n)).Keeps FileWrite.isCut kept) :
    ∃ kept', f.Keeps FileWrite.isCut kept' ∧
      (f.write (.setLen n)).image (FileWrite.act fill) kept = setLen fill (f.image (FileWrite.act fill) kept') n := by
  obtain ⟨kept', hk, hcase⟩ := Volatile.keeps_write h
  rcases hcase with rfl | ⟨hnot, -⟩
  · exact ⟨kept', hk, Volatile.image_append _ _ _ _⟩
  · cases hnot

theorem page_setLen (hi : i * P + P ≤ n) (hl : i * P + P ≤ l.length) : page P (setLen fill l n) i = page P l i := by
  by_cases hn : n ≤ l.length
  · rw [setLen_of_le fill hn, page_take hi]
  · apply page_congr
    intro k _ hk
    rw [setLen, List.take_of_length_le (by omega), List.getElem?_append_left (by omega)]

theorem Settled.cut (hP : 0 < P) (h : Settled fill P f i) (hn : n ≤ (f.current (FileWrite.act fill)).length)
    (hi : i * P + P ≤ n) : Settled fill P (f.write (.setLen n)) i := by
  intro kept hkept
  obtain ⟨kept', hk, himage⟩ := image_cut fill hkept
  have hcur : i * P + P ≤ (f.current (FileWrite.act fill)).length := Nat.le_trans hi hn
  have hwhole := whole_of_page_eq hP (h kept' hk) hcur
  rw [himage, Volatile.current_write, FileWrite.act, page_setLen hi hwhole, page_setLen hi hcur]
  exact h kept' hk

theorem page_act (hP : 0 < P) {x : FileWrite β} (hx : x.Fits l) (hi : ¬ x.Touches P i) :
    page P (FileWrite.act fill l x) i = page P l i := by
  cases x with
  | pwrite off b => exact page_writeAt hP fill b hx.1 hi
  | setLen n => exact page_setLen (Nat.not_lt.1 hi) (Nat.le_trans (Nat.not_lt.1 hi) hx)

theorem Settled.write (hP : 0 < P) {x : FileWrite β} (h : Settled fill P f i) (hx : x.Fits (f.current (FileWrite.act fill)))
    (hi : ¬ x.Touches P i) : Settled fill P (f.write x) i := by
  cases x with
  | pwrite off b => exact h.pwrite hP hx.1 hx.2 hi
  | setLen n => exact h.cut hP hx (Nat.not_lt.1 hi)

theorem settled_of_synced (h : f.pending = []) (i : Nat) : Settled fill P f i := by
  intro kept hkept
  have hnil : kept = [] := List.sublist_nil.1 (h ▸ hkept.1)
  rw [hnil, Volatile.current, h]

end Paged

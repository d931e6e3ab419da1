import Mathlib.Data.List.Basic
/-!
# Paged — a flat file, cut into pages, and its backup page by page

A file is a list of bytes, written in place or at the end and cut to a length. A backup keeps one object per page and a
set of dirty pages, whose object may be out of date. `Backed` says that every page is dirty or stored as it is; each
mutation keeps it if it marks the pages it touches.
-/
namespace Paged

open List

variable {β : Type*} {n off i : Nat} {fetch : Nat → Option (List β)}

/-! ## Files -/

/-- `pwrite`; a gap behind the end is filled. -/
def writeAt (fill : β) (l : List β) (off : Nat) (b : List β) : List β :=
  l.take off ++ (List.replicate (off - l.length) fill ++ (b ++ l.drop (off + b.length)))

/-- `ftruncate`. -/
def setLen (fill : β) (l : List β) (n : Nat) : List β := l.take n ++ List.replicate (n - l.length) fill

theorem length_writeAt (fill : β) (l : List β) (off : Nat) (b : List β) :
    (writeAt fill l off b).length = max l.length (off + b.length) := by
  simp only [writeAt, length_append, length_take, length_replicate, length_drop]
  omega

@[simp] theorem length_setLen (fill : β) (l : List β) (n : Nat) : (setLen fill l n).length = n := by
  simp only [setLen, length_append, length_take, length_replicate]
  omega

theorem setLen_of_le (fill : β) {l : List β} (h : n ≤ l.length) : setLen fill l n = l.take n := by
  have : n - l.length = 0 := by omega
  simp [setLen, this]

theorem getElem?_writeAt (fill : β) {l : List β} (b : List β) (h : off ≤ l.length) (k : Nat) :
    (writeAt fill l off b)[k]? = if off ≤ k ∧ k < off + b.length then b[k - off]? else l[k]? := by
  have hgap : off - l.length = 0 := by omega
  have htake : (l.take off).length = off := by simp [h]
  simp only [writeAt, hgap, replicate_zero, nil_append]
  by_cases h1 : k < off
  · rw [getElem?_append_left (by omega), getElem?_take_of_lt h1, if_neg (by omega)]
  · rw [getElem?_append_right (by omega), htake]
    by_cases h2 : k - off < b.length
    · rw [getElem?_append_left h2, if_pos (by omega)]
    · rw [getElem?_append_right (by omega), getElem?_drop, if_neg (by omega)]
      congr 1
      omega

/-! ## Pages -/

def pageCount (P n : Nat) : Nat := (n + P - 1) / P

/-- The last page is as long as the file goes. -/
def page (P : Nat) (l : List β) (i : Nat) : List β := (l.drop (i * P)).take P

theorem length_page (P : Nat) (l : List β) (i : Nat) : (page P l i).length = min P (l.length - i * P) := by
  simp [page]

theorem getElem?_page (P : Nat) (l : List β) (i k : Nat) : (page P l i)[k]? = if k < P then l[i * P + k]? else none := by
  simp only [page, getElem?_take, getElem?_drop]

variable {P : Nat}

theorem lt_pageCount (hP : 0 < P) : i < pageCount P n ↔ i * P < n := by
  rw [pageCount, Nat.lt_iff_add_one_le, Nat.le_div_iff_mul_le hP, Nat.add_mul]
  omega

theorem pageCount_mono {m : Nat} (h : n ≤ m) : pageCount P n ≤ pageCount P m := Nat.div_le_div_right (by omega)

theorem page_congr {l l' : List β} (h : ∀ k, i * P ≤ k → k < i * P + P → l[k]? = l'[k]?) :
    page P l i = page P l' i := by
  apply ext_getElem?
  intro k
  rw [getElem?_page, getElem?_page]
  by_cases hk : k < P
  · rw [if_pos hk, if_pos hk]
    exact h _ (by omega) (by omega)
  · rw [if_neg hk, if_neg hk]

theorem lt_pageCount_of_page_eq (hP : 0 < P) {l l' : List β} (h : page P l i = page P l' i)
    (hi : i < pageCount P l.length) : i < pageCount P l'.length := by
  rw [lt_pageCount hP] at hi ⊢
  have hlen := congrArg length h
  rw [length_page, length_page] at hlen
  by_contra hle
  rw [Nat.sub_eq_zero_of_le (Nat.le_of_not_lt hle), Nat.min_zero] at hlen
  have hpos : 0 < min P (l.length - i * P) := Nat.lt_min.2 ⟨hP, by omega⟩
  omega

def Touches (P off len i : Nat) : Prop := 0 < len ∧ off / P ≤ i ∧ i ≤ (off + len - 1) / P
deriving Decidable

theorem page_writeAt (hP : 0 < P) (fill : β) {l : List β} (b : List β) (h : off ≤ l.length)
    (hi : ¬ Touches P off b.length i) : page P (writeAt fill l off b) i = page P l i := by
  apply page_congr
  intro k hk1 hk2
  rw [getElem?_writeAt fill b h, if_neg]
  rintro ⟨h1, h2⟩
  apply hi
  refine ⟨by omega, ?_, ?_⟩
  · rw [Nat.div_le_iff_le_mul_add_pred hP]
    have : P * i = i * P := Nat.mul_comm P i
    omega
  · rw [Nat.le_div_iff_mul_le hP]
    omega

theorem page_take {l : List β} (h : i * P + P ≤ n) : page P (l.take n) i = page P l i := by
  apply page_congr
  intro k _ hk
  rw [getElem?_take_of_lt (by omega)]

/-! ## A backup by dirty pages -/

/-- Every page of the file is dirty or stored as it is. -/
def Backed (P : Nat) (dirty : Nat → Prop) (store : Nat → Option (List β)) (l : List β) : Prop :=
  ∀ i, i < pageCount P l.length → dirty i ∨ store i = some (page P l i)

instance [DecidableEq β] (P : Nat) (dirty : Nat → Prop) [DecidablePred dirty] (store : Nat → Option (List β)) (l : List β) :
    Decidable (Backed P dirty store l) := inferInstanceAs (Decidable (∀ i, i < pageCount P l.length → _))

variable {dirty dirty' : Nat → Prop} {store : Nat → Option (List β)} {l : List β}

theorem Backed.mono (h : Backed P dirty store l) (hd : ∀ i, i < pageCount P l.length → dirty i → dirty' i) :
    Backed P dirty' store l :=
  fun i hi => (h i hi).imp (hd i hi) id

theorem Backed.writeAt (hP : 0 < P) (h : Backed P dirty store l) (fill : β) (b : List β) (hoff : off ≤ l.length)
    (hd : ∀ i, dirty i ∨ Touches P off b.length i → dirty' i) : Backed P dirty' store (writeAt fill l off b) := by
  intro i hi
  by_cases ht : Touches P off b.length i
  · exact .inl (hd i (.inr ht))
  have hil : i < pageCount P l.length := by
    rw [lt_pageCount hP] at hi ⊢
    rw [length_writeAt] at hi
    by_contra hle
    apply ht
    refine ⟨by omega, ?_, ?_⟩
    · rw [Nat.div_le_iff_le_mul_add_pred hP]
      have : P * i = i * P := Nat.mul_comm P i
      omega
    · rw [Nat.le_div_iff_mul_le hP]
      omega
  rw [page_writeAt hP fill b hoff ht]
  exact (h i hil).imp (fun hdi => hd i (.inl hdi)) id

theorem Backed.take (hP : 0 < P) (h : Backed P dirty store l) (hn : n ≤ l.length)
    (hd : ∀ i, i < pageCount P n → dirty i ∨ i + 1 = pageCount P n → dirty' i) : Backed P dirty' store (l.take n) := by
  intro i hi
  have hlen : (l.take n).length = n := by simp [hn]
  rw [hlen] at hi
  by_cases hb : i + 1 = pageCount P n
  · exact .inl (hd i hi (.inr hb))
  · have hnext : i + 1 < pageCount P n := by omega
    rw [lt_pageCount hP, Nat.add_mul, Nat.one_mul] at hnext
    rw [page_take (by omega)]
    have hil : i < pageCount P l.length := Nat.lt_of_lt_of_le hi (pageCount_mono hn)
    exact (h i hil).imp (fun hdi => hd i hi (.inl hdi)) id

/-! ## Restoring -/

/-- Pages are fetched in order and written at their offsets; one of the wrong length stops the restore. -/
def restorePages (P : Nat) (fill : β) (size : Nat) (fetch : Nat → Option (List β)) : Nat → Option (List β)
  | 0 => some (List.replicate size fill)
  | n + 1 =>
    (restorePages P fill size fetch n).bind fun l =>
      if n * P < size then
        (fetch n).bind fun b => if b.length = min P (size - n * P) then some (writeAt fill l (n * P) b) else none
      else some l

theorem restorePages_spec (hP : 0 < P) (fill : β) (l : List β) :
    ∀ n, (∀ i, i < n → i * P < l.length → fetch i = some (page P l i)) →
      ∃ r, restorePages P fill l.length fetch n = some r ∧ r.length = l.length ∧ ∀ k, k < n * P → r[k]? = l[k]?
  | 0, _ => ⟨_, rfl, by simp, fun k hk => by omega⟩
  | n + 1, h => by
    obtain ⟨r, hr, hlen, hget⟩ := restorePages_spec hP fill l n fun i hi => h i (by omega)
    have hsucc : (n + 1) * P = n * P + P := by rw [Nat.add_mul, Nat.one_mul]
    by_cases hn : n * P < l.length
    · have hfetch := h n (by omega) hn
      refine ⟨writeAt fill r (n * P) (page P l n), ?_, ?_, ?_⟩
      · rw [restorePages, hr, Option.bind_some, if_pos hn, hfetch, Option.bind_some, if_pos (length_page P l n)]
      · rw [length_writeAt, hlen, length_page]
        omega
      · intro k hk
        rw [getElem?_writeAt fill _ (by omega), length_page, getElem?_page]
        by_cases hin : n * P ≤ k ∧ k < n * P + min P (l.length - n * P)
        · rw [if_pos hin, if_pos (by omega)]
          congr 1
          omega
        · rw [if_neg hin]
          by_cases hk' : k < n * P
          · exact hget k hk'
          · rw [getElem?_eq_none (by omega), getElem?_eq_none (by omega)]
    · refine ⟨r, ?_, hlen, ?_⟩
      · rw [restorePages, hr, Option.bind_some, if_neg hn]
      · intro k hk
        by_cases hk' : k < n * P
        · exact hget k hk'
        · rw [getElem?_eq_none (by omega), getElem?_eq_none (by omega)]

theorem restorePages_some (hP : 0 < P) (fill : β) {size : Nat} : ∀ {n r}, restorePages P fill size fetch n = some r →
      r.length = size ∧ ∀ i, i < n → i * P < size → fetch i = some (page P r i)
  | 0, r, h => by
    cases h
    exact ⟨by simp, fun i hi => by omega⟩
  | n + 1, r, h => by
    rw [restorePages, Option.bind_eq_some_iff] at h
    obtain ⟨l, hl, h⟩ := h
    obtain ⟨hlen, hpages⟩ := restorePages_some hP fill hl
    by_cases hn : n * P < size
    · rw [if_pos hn, Option.bind_eq_some_iff] at h
      obtain ⟨b, hb, h⟩ := h
      by_cases hblen : b.length = min P (size - n * P)
      · rw [if_pos hblen] at h
        cases h
        refine ⟨?_, fun i hi hsize => ?_⟩
        · rw [length_writeAt]
          omega
        · by_cases hin : i = n
          · subst hin
            rw [hb]
            congr 1
            apply ext_getElem?
            intro k
            rw [getElem?_page, getElem?_writeAt fill b (by omega)]
            by_cases hk : k < b.length
            · rw [if_pos (by omega), if_pos (by omega)]
              congr 1
              omega
            · rw [getElem?_eq_none (by omega)]
              by_cases hkP : k < P
              · rw [if_pos hkP, if_neg (by omega), getElem?_eq_none (by omega)]
              · rw [if_neg hkP]
          · rw [hpages i (by omega) hsize]
            congr 1
            symm
            apply page_congr
            intro k _ hk
            have hle : (i + 1) * P ≤ n * P := Nat.mul_le_mul_right P (by omega)
            rw [Nat.add_mul, Nat.one_mul] at hle
            rw [getElem?_writeAt fill b (by omega), if_neg (by omega)]
      · rw [if_neg hblen] at h
        cases h
    · rw [if_neg hn] at h
      cases h
      refine ⟨hlen, fun i hi hsize => ?_⟩
      by_cases hin : i = n
      · subst hin
        exact absurd hsize hn
      · exact hpages i (by omega) hsize

/-- **A backup with no dirty page restores the file.** -/
theorem restorePages_eq (hP : 0 < P) (fill : β) (l : List β)
    (h : ∀ i, i < pageCount P l.length → fetch i = some (page P l i)) :
    restorePages P fill l.length fetch (pageCount P l.length) = some l := by
  obtain ⟨r, hr, hlen, hget⟩ := restorePages_spec hP fill l (pageCount P l.length) fun i hi _ => h i hi
  rw [hr]
  congr 1
  apply ext_getElem?
  intro k
  by_cases hk : k < l.length
  · apply hget
    have hlt : k / P < pageCount P l.length := (lt_pageCount hP).2 (Nat.lt_of_le_of_lt (Nat.div_mul_le_self k P) hk)
    have hmod : k % P < P := Nat.mod_lt k hP
    have hsplit : k / P * P + k % P = k := Nat.div_add_mod' k P
    have hle : (k / P + 1) * P ≤ pageCount P l.length * P := Nat.mul_le_mul_right P hlt
    rw [Nat.add_mul, Nat.one_mul] at hle
    omega
  · rw [getElem?_eq_none (by omega), getElem?_eq_none (by omega)]

end Paged

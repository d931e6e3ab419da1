import Mathlib.Data.Finset.Basic
import Thur.Lib.Bytes
import Thur.Lib.SyncFile
/-!
# Index — the per-volume sidecars `pages.idx` and `upload.idx`, and the in-memory pending sets

Both sidecars are positional files of fixed-size records, one slot per page id: a slot past the end reads as the hole
value (an unallocated page, an `Uploaded` page), and writes reach the disk at the next `sync`. `RecordFile` is that file
for either record type.
-/
namespace Thur

open Function (update update_of_ne update_self)
open List

abbrev PageId := UInt32

instance : LinearOrder PageId where
  le_refl := UInt32.le_refl
  le_trans _ _ _ := UInt32.le_trans
  le_antisymm _ _ := UInt32.le_antisymm
  le_total := UInt32.le_total
  lt_iff_le_not_ge a b := by
    rw [UInt32.not_le]
    exact ⟨fun h => ⟨UInt32.le_of_lt h, h⟩, fun h => h.2⟩
  toDecidableLE := inferInstance

/-- A positional record file; slots past the end read as the hole value, whatever a crash leaves. -/
structure RecordFile (ν : Type) [Inhabited ν] where
  file : SyncFile PageId ν
  len : Nat
  len_le : len ≤ UInt32.size
  hole : ∀ p : PageId, len ≤ p.toNat → ∀ v, file.Possible p v → v = default

namespace RecordFile

variable {ν : Type} [Inhabited ν] {p q : PageId} {V : Type}

def empty : RecordFile ν where
  file := ⟨fun _ => default, []⟩
  len := 0
  len_le := Nat.zero_le _
  hole _ _ v h := by
    rcases h with h | h
    · exact h
    · cases h

instance : Inhabited (RecordFile ν) := ⟨empty⟩

section

variable (f : RecordFile ν)

def read (f : RecordFile ν) (p : PageId) : ν := f.file.read p

def put (p : PageId) (v : ν) : RecordFile ν where
  file := f.file.write p v
  len := max f.len (p.toNat + 1)
  len_le := max_le f.len_le (Nat.succ_le_of_lt p.toNat_lt_size)
  hole q hq v' h := by
    rcases (f.file.possible_write p q v v').1 h with ⟨rfl, rfl⟩ | h
    · exact absurd ((le_max_right _ _).trans hq) (Nat.not_succ_le_self _)
    · exact f.hole q ((le_max_left _ _).trans hq) v' h

def sync (f : RecordFile ν) : RecordFile ν where
  file := f.file.sync
  len := f.len
  len_le := f.len_le
  hole q hq v h := f.hole q hq v (f.file.possible_of_possible_sync h)

def afterCrash (f : RecordFile ν) (kept : List (PageId × ν)) (h : kept.Sublist f.file.unsynced) : RecordFile ν where
  file := ⟨f.file.afterCrash kept, []⟩
  len := f.len
  len_le := f.len_le
  hole q hq v hv := by
    rcases hv with hv | hv
    · rw [hv]
      exact f.hole q hq _ (f.file.possible_afterCrash h q)
    · cases hv

def keepAll : RecordFile ν := f.afterCrash f.file.unsynced (List.Sublist.refl _)

def loseAll : RecordFile ν := f.afterCrash [] (List.nil_sublist _)

/-- As `set_len` does: holes at once, on the disk at the next sync. -/
def clearFrom (n : Nat) : RecordFile ν where
  file := ⟨f.file.synced, (List.range' n (f.len - n)).map (fun i => (UInt32.ofNat i, default)) ++ f.file.unsynced⟩
  len := f.len
  len_le := f.len_le
  hole q hq v h := by
    rcases h with h | h
    · exact f.hole q hq v (.inl h)
    · rcases List.mem_append.1 h with h | h
      · obtain ⟨i, -, he⟩ := List.mem_map.1 h
        exact (Prod.mk.inj he).2.symm
      · exact f.hole q hq v (.inr h)

def slots : List (PageId × ν) :=
  (List.range f.len).map fun i => (UInt32.ofNat i, f.read (UInt32.ofNat i))

@[simp] theorem read_empty (p : PageId) : (empty : RecordFile ν).read p = default := rfl

@[simp] theorem read_put_self (p : PageId) (v : ν) : (f.put p v).read p = v :=
  f.file.read_write_self p v

theorem read_put_ne (v : ν) (h : p ≠ q) : (f.put p v).read q = f.read q :=
  f.file.read_write_ne v h

theorem read_put (p q : PageId) (v : ν) : (f.put p v).read q = if p = q then v else f.read q := by
  split
  · next h => rw [h, read_put_self]
  · next h => rw [read_put_ne f v h]

@[simp] theorem read_sync (p : PageId) : f.sync.read p = f.read p := rfl

theorem possible_put (p q : PageId) (v w : ν) :
    (f.put p v).file.Possible q w ↔ (q = p ∧ w = v) ∨ f.file.Possible q w := f.file.possible_write p q v w

theorem possible_clearFrom (n : Nat) {v : ν} (h : (f.clearFrom n).file.Possible p v) :
    v = default ∨ f.file.Possible p v := by
  rcases h with h | h
  · exact .inr (.inl h)
  · rcases mem_append.1 h with h | h
    · obtain ⟨i, -, he⟩ := mem_map.1 h
      exact .inl (Prod.mk.inj he).2.symm
    · exact .inr (.inr h)

theorem lt_len_of_read (h : f.read p ≠ default) : p.toNat < f.len := by
  by_contra hlt
  exact h (f.hole p (Nat.le_of_not_lt hlt) _ (f.file.possible_read p))

theorem read_clearFrom (n : Nat) (p : PageId) :
    (f.clearFrom n).read p = if p.toNat < n then f.read p else default := by
  -- the newest writes of the cleared file are holes, one per slot from `n` on
  have hover : ∀ l : List Nat, (∀ i ∈ l, n ≤ i ∧ i < UInt32.size) →
      SyncFile.overlay f.file.synced (l.map (fun i => (UInt32.ofNat i, default)) ++ f.file.unsynced) p =
        if p.toNat ∈ l then default else f.read p := by
    intro l hl
    induction l with
    | nil => rfl
    | cons i l ih =>
      obtain ⟨-, hi⟩ := hl i mem_cons_self
      simp only [map_cons, cons_append, SyncFile.overlay]
      by_cases hp : UInt32.ofNat i = p
      · rw [if_pos hp, if_pos]
        rw [← hp, UInt32.toNat_ofNat_of_lt' hi]
        exact mem_cons_self
      · have hne : p.toNat ≠ i := by
          rintro rfl
          exact hp (UInt32.ofNat_toNat)
        rw [if_neg hp, ih (fun j hj => hl j (mem_cons_of_mem i hj))]
        simp [hne]
  have hrange : ∀ i ∈ range' n (f.len - n), n ≤ i ∧ i < UInt32.size := by
    intro i hi
    have := mem_range'_1.1 hi
    have := f.len_le
    omega
  refine (hover _ hrange).trans ?_
  by_cases hlt : p.toNat < n
  · rw [if_pos hlt, if_neg]
    intro hm
    have := mem_range'_1.1 hm
    omega
  · rw [if_neg hlt]
    split
    · rfl
    · next hm =>
      have hlen : f.len ≤ p.toNat := by
        by_contra hc
        exact hm (mem_range'_1.2 (by omega))
      exact f.hole p hlen _ (f.file.possible_read p)

theorem mem_slots (p : PageId) (v : ν) : (p, v) ∈ f.slots ↔ p.toNat < f.len ∧ v = f.read p := by
  unfold slots
  rw [mem_map]
  constructor
  · rintro ⟨i, hi, he⟩
    obtain ⟨rfl, rfl⟩ := Prod.mk.inj he
    have hi := mem_range.1 hi
    rw [UInt32.toNat_ofNat_of_lt' (hi.trans_le f.len_le)]
    exact ⟨hi, rfl⟩
  · rintro ⟨hp, rfl⟩
    exact ⟨p.toNat, mem_range.2 hp, by rw [UInt32.ofNat_toNat]⟩

theorem mem_slots_of_read (h : f.read p ≠ default) : (p, f.read p) ∈ f.slots :=
  (mem_slots f p _).2 ⟨lt_len_of_read f h, rfl⟩

end

/-! One file of a family of files, one per volume. -/

theorem read_update_put [DecidableEq V] (f : V → RecordFile ν) (v v' : V) (p q : PageId) (x : ν) :
    (update f v ((f v).put p x) v').read q = if v' = v ∧ q = p then x else (f v').read q := by
  by_cases hv : v' = v
  · subst hv
    rw [update_self, read_put]
    by_cases hp : p = q
    · rw [if_pos hp, if_pos ⟨rfl, hp.symm⟩]
    · rw [if_neg hp, if_neg (fun h => hp h.2.symm)]
  · rw [update_of_ne hv, if_neg (fun h => hv h.1)]

theorem read_update_sync [DecidableEq V] (f : V → RecordFile ν) (v v' : V) (q : PageId) :
    (update f v (f v).sync v').read q = (f v').read q := by
  by_cases hv : v' = v
  · subst hv
    rw [update_self, read_sync]
  · rw [update_of_ne hv]

theorem possible_update_put [DecidableEq V] (f : V → RecordFile ν) {v v' : V} {x y : ν} {P : V → PageId → ν → Prop}
    (hP : P v p x) (h : (update f v ((f v).put p x) v').file.Possible q y) : (f v').file.Possible q y ∨ P v' q y := by
  by_cases hv : v' = v
  · subst hv
    rw [update_self] at h
    rcases (possible_put _ _ _ _ _).1 h with ⟨rfl, rfl⟩ | h
    · exact .inr hP
    · exact .inl h
  · rw [update_of_ne hv] at h
    exact .inl h

theorem possible_update_sync [DecidableEq V] (f : V → RecordFile ν) {v v' : V} {y : ν}
    (h : (update f v (f v).sync v').file.Possible q y) : (f v').file.Possible q y := by
  by_cases hv : v' = v
  · subst hv
    rw [update_self] at h
    exact SyncFile.possible_of_possible_sync _ h
  · rw [update_of_ne hv] at h
    exact h

end RecordFile

/-! ## `pages.idx` -/

structure PageEntry (H : Type) where
  hash : H
  ivSalt : UInt64
deriving DecidableEq

abbrev PageIndex (H : Type) := RecordFile (Option (PageEntry H))

namespace PageIndex

variable {H : Type}

section

variable (ix : PageIndex H) (p : PageId)

def getEntry : Option (PageEntry H) := ix.read p

def get : Option H := (ix.getEntry p).map PageEntry.hash

def setUnsyncedSalted (e : PageEntry H) : PageIndex H := ix.put p (some e)

def setSalted (e : PageEntry H) : PageIndex H := (ix.setUnsyncedSalted p e).sync

def clearUnsynced : PageIndex H := ix.put p none

def clear : PageIndex H := (ix.clearUnsynced p).sync

def iter (ix : PageIndex H) : List (PageId × H) :=
  ix.slots.filterMap fun x => x.2.map fun e => (x.1, e.hash)

theorem mem_iter (h : H) : (p, h) ∈ ix.iter ↔ ix.get p = some h := by
  unfold iter get getEntry
  rw [mem_filterMap]
  constructor
  · rintro ⟨⟨q, v⟩, hm, he⟩
    obtain ⟨-, rfl⟩ := (RecordFile.mem_slots ix q v).1 hm
    obtain ⟨e, hv, hpe⟩ := Option.map_eq_some_iff.1 he
    obtain ⟨rfl, rfl⟩ := Prod.mk.inj hpe
    exact congrArg (Option.map PageEntry.hash) hv
  · intro hg
    obtain ⟨e, hr, rfl⟩ := Option.map_eq_some_iff.1 hg
    exact ⟨(p, ix.read p), RecordFile.mem_slots_of_read ix (by rw [hr]; exact Option.some_ne_none e), by simp [hr]⟩

end

end PageIndex

/-! ## `upload.idx` -/

inductive UploadState
  | uploaded
  | localOnly
deriving DecidableEq

instance : Inhabited UploadState := ⟨.uploaded⟩

abbrev UploadIndexFile := RecordFile UploadState

namespace UploadIndexFile

def setUnsynced (u : UploadIndexFile) (p : PageId) (st : UploadState) : UploadIndexFile := u.put p st

def set (u : UploadIndexFile) (p : PageId) (st : UploadState) : UploadIndexFile := (u.setUnsynced p st).sync

def resetToClean (_ : UploadIndexFile) : UploadIndexFile := RecordFile.empty

end UploadIndexFile

/-! ## `PendingUploads` -/

inductive DrainOutcome
  | clean
  | failed
deriving DecidableEq

instance (S : Finset PageId) (P : PageId → Prop) [DecidablePred P] : Decidable (∀ p ∈ S, P p) :=
  Finset.decidableDforallFinset

structure PendingSets where
  pending : Finset PageId
  failed : Finset PageId

namespace PendingSets

def new : PendingSets := ⟨∅, ∅⟩

def markPending (s : PendingSets) (p : PageId) : PendingSets := ⟨insert p s.pending, s.failed.erase p⟩

def markDone (s : PendingSets) (p : PageId) : PendingSets := ⟨s.pending.erase p, s.failed.erase p⟩

def markFailed (s : PendingSets) (p : PageId) : PendingSets := ⟨s.pending.erase p, insert p s.failed⟩

def clearFailed (s : PendingSets) (p : PageId) : PendingSets := { s with failed := s.failed.erase p }

def clearAllFailed (s : PendingSets) : PendingSets := { s with failed := ∅ }

/-- One look: a failure is reported at once, an empty range is clean, otherwise the caller sleeps. -/
def waitForRange (s : PendingSets) (first last : PageId) : Option DrainOutcome :=
  if (s.failed.filter (fun p => first ≤ p ∧ p ≤ last)).Nonempty then some .failed
  else if (s.pending.filter (fun p => first ≤ p ∧ p ≤ last)).Nonempty then none
  else some .clean

theorem waitForRange_clean {s : PendingSets} {first last : PageId} (h : s.waitForRange first last = some .clean) :
    ∀ p, first ≤ p → p ≤ last → p ∉ s.pending ∧ p ∉ s.failed := by
  unfold waitForRange at h
  split at h
  · cases h
  next hf =>
  split at h
  · cases h
  next hp =>
  intro p h1 h2
  exact ⟨fun hm => hp ⟨p, Finset.mem_filter.2 ⟨hm, h1, h2⟩⟩, fun hm => hf ⟨p, Finset.mem_filter.2 ⟨hm, h1, h2⟩⟩⟩

end PendingSets
end Thur

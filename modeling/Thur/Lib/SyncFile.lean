import Mathlib.Data.List.Basic
import Mathlib.Logic.Function.Basic
/-!
# SyncFile — a file of records written with `pwrite` and made durable by `fdatasync`

A record write reaches the disk at some later time, in no particular order; `sync` makes every write so far durable. The
file is its synced image and the writes since, newest first. A crash keeps any subset of those writes (whole records),
so a record comes back as its synced value or as one written since (`Possible`).
-/

/-- A synced image and the record writes issued since, newest first. -/
structure SyncFile (κ ν : Type*) where
  synced : κ → ν
  unsynced : List (κ × ν)

namespace SyncFile

variable {κ ν : Type*} [DecidableEq κ]

/-- The newest write of a record in a list of writes over an image. -/
def overlay (img : κ → ν) : List (κ × ν) → κ → ν
  | [], k => img k
  | w :: ws, k => if w.1 = k then w.2 else overlay img ws k

section

variable (f : SyncFile κ ν)

def read (k : κ) : ν := overlay f.synced f.unsynced k

def write (k : κ) (v : ν) : SyncFile κ ν := { f with unsynced := (k, v) :: f.unsynced }

def sync : SyncFile κ ν := ⟨f.read, []⟩

/-- When exactly the writes `kept` had reached the disk. -/
def afterCrash (kept : List (κ × ν)) : κ → ν := overlay f.synced kept

def Possible (k : κ) (v : ν) : Prop := v = f.synced k ∨ (k, v) ∈ f.unsynced

def possible (k : κ) : List ν :=
  f.synced k :: (f.unsynced.filter (fun w => decide (w.1 = k))).map Prod.snd

theorem mem_possible (k : κ) (v : ν) : v ∈ f.possible k ↔ f.Possible k v := by
  unfold possible Possible
  rw [List.mem_cons, List.mem_map]
  refine or_congr Iff.rfl ⟨?_, fun h => ⟨(k, v), by simpa using h, rfl⟩⟩
  rintro ⟨⟨k', v'⟩, hw, rfl⟩
  obtain ⟨hm, hk⟩ := List.mem_filter.1 hw
  rw [← of_decide_eq_true hk]
  exact hm

@[simp] theorem read_write_self (k : κ) (v : ν) : (f.write k v).read k = v := by
  simp [read, write, overlay]

theorem read_write_ne {k k' : κ} (v : ν) (h : k ≠ k') : (f.write k v).read k' = f.read k' := by
  simp [read, write, overlay, h]

theorem overlay_possible (img : κ → ν) (k : κ) : ∀ ws : List (κ × ν), overlay img ws k = img k ∨ (k, overlay img ws k) ∈ ws
  | [] => .inl rfl
  | w :: ws => by
    by_cases h : w.1 = k
    · refine .inr ?_
      simp only [overlay, if_pos h, List.mem_cons]
      exact .inl (Prod.ext h.symm rfl)
    · simp only [overlay, if_neg h]
      rcases overlay_possible img k ws with h' | h'
      · exact .inl h'
      · exact .inr (List.mem_cons_of_mem _ h')

theorem possible_read (k : κ) : f.Possible k (f.read k) := overlay_possible f.synced k f.unsynced

/-- **Each record comes back as its synced value or as an unsynced write.** -/
theorem possible_afterCrash {kept : List (κ × ν)} (h : kept.Sublist f.unsynced) (k : κ) :
    f.Possible k (f.afterCrash kept k) := by
  rcases overlay_possible f.synced k kept with h' | h'
  · exact .inl h'
  · exact .inr (h.subset h')

end

omit [DecidableEq κ] in
theorem possible_write (f : SyncFile κ ν) (k k' : κ) (v v' : ν) :
    (f.write k v).Possible k' v' ↔ (k' = k ∧ v' = v) ∨ f.Possible k' v' := by
  unfold Possible write
  simp only [List.mem_cons, Prod.mk.injEq]
  tauto

theorem possible_sync (f : SyncFile κ ν) (k : κ) (v : ν) : f.sync.Possible k v ↔ v = f.read k := by
  simp [Possible, sync]

theorem possible_of_possible_sync (f : SyncFile κ ν) {k : κ} {v : ν} (h : f.sync.Possible k v) : f.Possible k v := by
  rw [possible_sync] at h
  rw [h]
  exact possible_read f k

end SyncFile

import Mathlib.Logic.Function.Basic
import Thur.Stream.Records
/-!
# Pools — the chunk files and objects of several cartridges on several backends

A sealed chunk is a file of the local pool, an object in the bucket, or both, under its hash in the directory and key
space of its cartridge: one per backend for `Global` cartridges, one per barcode for `Local` ones. `Covered` says that
each record's chunk is found where the cartridge's manifest points.
-/
namespace Thur.Stream

open Function (update update_apply update_self)

inductive DedupScope
  | globalScope
  | localScope

/-- A backend and, under `Local` scope, the barcode. -/
structure Place where
  backend : Nat
  ns : Option Nat
deriving DecidableEq

abbrev ChunkAt (H : Type) := Place × H

structure PoolFile (β : Type) where
  content : β
  mtime : Nat
deriving DecidableEq

structure Tape (H : Type) where
  backend : Nat
  dedup : DedupScope
  worm : Bool
  chunks : List (ChunkRec H)

def DedupScope.ns (d : DedupScope) (barcode : Nat) : Option Nat :=
  match d with
  | .globalScope => none
  | .localScope => some barcode

structure Pools (H β : Type) where
  now : Nat
  barcodes : List Nat
  tapes : Nat → Tape H
  pool : ChunkAt H → Option (PoolFile β)
  bucket : ChunkAt H → Option β

namespace Pools

variable {H β : Type} {k k' : ChunkAt H}

section

variable (w : Pools H β)

def place (c : Nat) : Place := ⟨(w.tapes c).backend, (w.tapes c).dedup.ns c⟩

def readRec (c id : Nat) : Option (ChunkRec H) := (w.tapes c).chunks[id]?

def setChunks (c : Nat) (rs : List (ChunkRec H)) : Pools H β :=
  { w with tapes := update w.tapes c { w.tapes c with chunks := rs } }

def writeRec (c id : Nat) (r : ChunkRec H) : Pools H β := w.setChunks c ((w.tapes c).chunks.set id r)

@[simp, grind =] theorem place_setChunks (c c' : Nat) (rs : List (ChunkRec H)) :
    (w.setChunks c rs).place c' = w.place c' := by
  by_cases h : c' = c
  · subst h
    simp [place, setChunks]
  · simp [place, setChunks, h]

@[simp, grind =] theorem place_writeRec (c c' id : Nat) (r : ChunkRec H) : (w.writeRec c id r).place c' = w.place c' :=
  w.place_setChunks c c' _

@[grind =] theorem readRec_writeRec (c c' id id' : Nat) (r : ChunkRec H) : (w.writeRec c id r).readRec c' id' =
    if c' = c ∧ id' = id then (w.readRec c id).map (fun _ => r) else w.readRec c' id' := by
  by_cases hc : c' = c
  · subst hc
    by_cases hid : id' = id
    · subst hid
      simp only [readRec, writeRec, setChunks, update_self, and_self, if_true, List.getElem?_set_self']
      cases (w.tapes c').chunks[id']? <;> rfl
    · simp [readRec, writeRec, setChunks, hid, List.getElem?_set_ne (Ne.symm hid)]
  · simp [readRec, writeRec, setChunks, hc]

@[grind =] theorem readRec_append (c c' id : Nat) (r : ChunkRec H) {r' : ChunkRec H} :
    (w.setChunks c ((w.tapes c).chunks ++ [r])).readRec c' id = some r' ↔
      w.readRec c' id = some r' ∨ (c' = c ∧ id = (w.tapes c).chunks.length ∧ r' = r) := by
  by_cases hc : c' = c
  · subst hc
    simp only [readRec, setChunks, update_self, true_and]
    rcases Nat.lt_trichotomy id (w.tapes c').chunks.length with h | h | h
    · rw [List.getElem?_append_left h]
      constructor
      · exact .inl
      · rintro (hr | ⟨rfl, -⟩)
        · exact hr
        · omega
    · subst h
      simp [eq_comm]
    · rw [List.getElem?_eq_none (by simp; omega), List.getElem?_eq_none (by omega)]
      constructor
      · exact fun hr => by cases hr
      · rintro (hr | ⟨rfl, -⟩)
        · cases hr
        · omega
  · simp [readRec, setChunks, hc]

@[grind =] theorem readRec_dropLast (c c' id : Nat) {r : ChunkRec H} :
    (w.setChunks c (w.tapes c).chunks.dropLast).readRec c' id = some r ↔
      w.readRec c' id = some r ∧ ¬ (c' = c ∧ id + 1 = (w.tapes c).chunks.length) := by
  by_cases hc : c' = c
  · subst hc
    simp only [readRec, setChunks, update_self, true_and, List.getElem?_dropLast]
    by_cases hid : id < (w.tapes c').chunks.length - 1
    · rw [if_pos hid]
      exact ⟨fun hr => ⟨hr, by omega⟩, And.left⟩
    · rw [if_neg hid]
      refine ⟨(fun hr => by cases hr), fun ⟨hr, hne⟩ => ?_⟩
      have hlt := (List.getElem?_eq_some_iff.1 hr).1
      omega
  · simp [readRec, setChunks, hc]

def Names (c : Nat) (h : H) : Prop := ∃ id r, w.readRec c id = some r ∧ r.hash = some h

end

theorem names_iff {w : Pools H β} {c : Nat} {h : H} : w.Names c h ↔ ∃ r ∈ (w.tapes c).chunks, r.hash = some h := by
  constructor
  · rintro ⟨id, r, hr, hh⟩
    exact ⟨r, List.mem_of_getElem? hr, hh⟩
  · rintro ⟨r, hr, hh⟩
    obtain ⟨id, hid⟩ := List.mem_iff_getElem?.1 hr
    exact ⟨id, r, hid, hh⟩

/-! ## Where a chunk is -/

variable [DecidableEq H]

section

variable (w : Pools H β)

def putFile (k : ChunkAt H) (f : PoolFile β) : Pools H β := { w with pool := update w.pool k (some f) }

def removeFile (k : ChunkAt H) : Pools H β := { w with pool := update w.pool k none }

def putObject (k : ChunkAt H) (b : β) : Pools H β := { w with bucket := update w.bucket k (some b) }

def deleteObject (k : ChunkAt H) : Pools H β := { w with bucket := update w.bucket k none }

@[grind =] theorem pool_putFile (k k' : ChunkAt H) (f : PoolFile β) :
    (w.putFile k f).pool k' = if k' = k then some f else w.pool k' := update_apply w.pool k (some f) k'

@[grind =] theorem pool_removeFile (k k' : ChunkAt H) : (w.removeFile k).pool k' = if k' = k then none else w.pool k' :=
  update_apply w.pool k none k'

@[grind =] theorem bucket_putObject (k k' : ChunkAt H) (b : β) :
    (w.putObject k b).bucket k' = if k' = k then some b else w.bucket k' := update_apply w.bucket k (some b) k'

@[grind =] theorem bucket_deleteObject (k k' : ChunkAt H) :
    (w.deleteObject k).bucket k' = if k' = k then none else w.bucket k' := update_apply w.bucket k none k'

end

variable (hash : β → H)

def Cached (w : Pools H β) (k : ChunkAt H) : Prop := ∃ f ∈ w.pool k, hash f.content = k.2

deriving instance Decidable for @Cached H β

def Stored (w : Pools H β) (k : ChunkAt H) : Prop := ∃ b ∈ w.bucket k, hash b = k.2

deriving instance Decidable for @Stored H β

def Has (w : Pools H β) (k : ChunkAt H) : Prop := w.Cached hash k ∨ w.Stored hash k

deriving instance Decidable for @Has H β

/-- **Every sealed chunk record has its bytes.** -/
def Covered (w : Pools H β) : Prop := ∀ c h, w.Names c h → w.Has hash (w.place c, h)

variable {hash} {w : Pools H β}

instance (c : Nat) (h : H) : Decidable (w.Names c h) := decidable_of_iff _ names_iff.symm

@[grind =] theorem cached_putFile {f : PoolFile β} :
    (w.putFile k f).Cached hash k' ↔ (k' = k ∧ hash f.content = k.2) ∨ (k' ≠ k ∧ w.Cached hash k') := by
  by_cases h : k' = k
  · subst h
    simp [Cached, pool_putFile]
  · simp [Cached, pool_putFile, h]

@[grind =] theorem cached_removeFile : (w.removeFile k).Cached hash k' ↔ k' ≠ k ∧ w.Cached hash k' := by
  by_cases h : k' = k
  · subst h
    simp [Cached, pool_removeFile]
  · simp [Cached, pool_removeFile, h]

@[grind =] theorem stored_putObject {b : β} :
    (w.putObject k b).Stored hash k' ↔ (k' = k ∧ hash b = k.2) ∨ (k' ≠ k ∧ w.Stored hash k') := by
  by_cases h : k' = k
  · subst h
    simp [Stored, bucket_putObject]
  · simp [Stored, bucket_putObject, h]

@[grind =] theorem stored_deleteObject : (w.deleteObject k).Stored hash k' ↔ k' ≠ k ∧ w.Stored hash k' := by
  by_cases h : k' = k
  · subst h
    simp [Stored, bucket_deleteObject]
  · simp [Stored, bucket_deleteObject, h]

end Pools

end Thur.Stream

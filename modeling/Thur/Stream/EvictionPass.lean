import Mathlib.Data.List.Sort
import Thur.Stream.Records
/-!
# EvictionPass — one pass of `evict_lru_chunks` over the tape pool

The pass takes sizes from the records of the chunk indexes and removes files of the pool.  A record counts the plaintext of
its chunk, several records may name one file, and a file that is gone already counts as removed.
-/
namespace Thur.Stream.EvictionPass

open List

variable {H : Type} [DecidableEq H]

structure Tape (H : Type) where
  label : String
  isLocal : Bool
  chunks : List (ChunkRec H × Nat)

def Tape.pool (t : Tape H) : Option String := if t.isLocal then some t.label else none

structure EvictableChunk (H : Type) where
  tapeLabel : String
  chunkId : Nat
  hash : H
  size : Nat
  lastAccessed : Nat
  pool : Option String
deriving DecidableEq

abbrev EvictableChunk.key (c : EvictableChunk H) : Option String × H := (c.pool, c.hash)

def collectEvictionCandidates (tapes : List (Tape H)) : List (EvictableChunk H) :=
  tapes.flatMap (fun t => t.chunks.zipIdx.filterMap (fun x =>
    if x.1.1.uploaded ∧ x.1.1.location = .both then
      x.1.1.hash.map fun h => ⟨t.label, x.2, h, x.1.1.size, x.1.2, t.pool⟩
    else none))

def collectPinnedHashes (tapes : List (Tape H)) : List (Option String × H) :=
  tapes.flatMap (fun t => t.chunks.filterMap (fun x =>
    if x.1.location = .localOnly then x.1.hash.map (fun h => (t.pool, h)) else none))

structure PoolState where
  total : Nat
  perNamespace : Option String → Nat

def PoolState.sub (b : PoolState) (ns : Option String) (bytes : Nat) : PoolState where
  total := b.total - bytes
  perNamespace n := if n = ns then b.perNamespace n - bytes else b.perNamespace n

/-- `released` keeps the calls of `release`, `removed` what was removed from the disk. -/
structure Pass (H : Type) where
  files : Option String × H → Option Nat
  budget : PoolState
  freed : Nat := 0
  released : List (Option String × Nat) := []
  removed : List ((Option String × H) × Nat) := []

/-- The cap, the usage figure, pins, the recent-seal cutoff, and which calls work. -/
structure Setting (H : Type) where
  cacheBytes : Nat
  currentBytes : Nat
  isPinned : Option String × H → Bool
  cutoff : Option Nat
  opens : String → Bool
  marks : EvictableChunk H → Bool
  removes : EvictableChunk H → Bool

variable (st : Setting H)

def takes (pinned : List (Option String × H)) (c : EvictableChunk H) : Prop := st.marks c ∧ c.key ∉ pinned ∧ st.removes c

deriving instance Decidable for @takes H

def evictChunk (pinned : List (Option String × H)) (s : Pass H) (c : EvictableChunk H) : Pass H :=
  if takes st pinned c then
    { files := fun k => if k = c.key then none else s.files k
      budget := s.budget.sub c.pool c.size
      freed := s.freed + c.size
      released := s.released ++ [(c.pool, c.size)]
      removed := s.removed ++ (s.files c.key).toList.map (c.key, ·) }
  else s

/-- No answer where the subtraction underflows. -/
def underCap (s : Pass H) : Option Bool :=
  if st.currentBytes < s.freed then none else some (st.currentBytes - s.freed ≤ st.cacheBytes)

def drain (pinned : List (Option String × H)) : List (EvictableChunk H) → Pass H → Option (Bool × Pass H)
  | [], s => some (false, s)
  | c :: cs, s =>
    match underCap st s with
    | none => none
    | some true => some (true, s)
    | some false => drain pinned cs (evictChunk st pinned s c)

def drainTapes (pinned : List (Option String × H)) : List (String × List (EvictableChunk H)) → Pass H → Option (Pass H)
  | [], s => some s
  | (label, cs) :: rest, s =>
    match underCap st s with
    | none => none
    | some true => some s
    | some false =>
      if st.opens label then
        match drain st pinned cs s with
        | none => none
        | some (true, s) => some s
        | some (false, s) => drainTapes pinned rest s
      else drainTapes pinned rest s

/-- Oldest first, grouped by cartridge in the order of their first candidates. -/
def byLabel (tapes : List (Tape H)) : List (String × List (EvictableChunk H)) :=
  let cs := (collectEvictionCandidates tapes).filter (fun c =>
    !st.isPinned c.key && st.cutoff.all (fun t => decide (c.lastAccessed < t)))
  let cs := cs.insertionSort fun a b => a.lastAccessed ≤ b.lastAccessed
  (cs.map (·.tapeLabel)).eraseDups.map fun l => (l, cs.filter (·.tapeLabel = l))

def evictLruChunks (tapes : List (Tape H)) (s : Pass H) : Option (Pass H) :=
  if st.currentBytes ≤ st.cacheBytes then some s
  else drainTapes st (collectPinnedHashes tapes) (byLabel st tapes) s

/-! ## The accounts -/

def bytesOf {α : Type} (size : α → Nat) : List α → Nat
  | [] => 0
  | x :: l => size x + bytesOf size l

theorem bytesOf_append {α : Type} (size : α → Nat) (l m : List α) :
    bytesOf size (l ++ m) = bytesOf size l + bytesOf size m := by
  induction l with
  | nil => simp [bytesOf]
  | cons x l ih => simp [bytesOf, ih, Nat.add_assoc]

/-- What was counted and released, in total and in each namespace, was removed from the disk, and all of it while the
usage was over the cap. -/
structure Exact (s0 s : Pass H) : Prop where
  freed : s.freed = bytesOf (·.2) s.removed
  released : ∀ ns, bytesOf (·.2) (s.released.filter (·.1 = ns)) = bytesOf (·.2) (s.removed.filter (·.1.1 = ns))
  budget : s.budget = s.released.foldl (fun b x => b.sub x.1 x.2) s0.budget
  were : ∀ x ∈ s.removed, s0.files x.1 = some x.2
  files : ∀ k, s.files k = if k ∈ s.removed.map (·.1) then none else s0.files k
  full : ∀ n < s.released.length, st.cacheBytes < st.currentBytes - bytesOf (·.2) (s.released.take n)

/-! ## The turns of the two loops -/

variable (pinned : List (Option String × H))

/-- A turn adds its candidate to those taken, if it can be taken and their sizes leave the usage over the cap. -/
def turn (taken : List (EvictableChunk H)) : Option (EvictableChunk H) → List (EvictableChunk H)
  | none => taken
  | some c =>
    if st.cacheBytes + bytesOf (·.size) taken < st.currentBytes ∧ takes st pinned c then taken ++ [c] else taken

/-- The usage covers what is taken in front of each further turn. -/
def Fits (taken : List (EvictableChunk H)) (ts : List (Option (EvictableChunk H))) : Prop :=
  ∀ tried rest, ts = tried ++ rest → rest ≠ [] → bytesOf (·.size) (tried.foldl (turn st pinned) taken) ≤ st.currentBytes

def walk : List (Option (EvictableChunk H)) → Pass H → Option (Pass H)
  | [], s => some s
  | t :: ts, s =>
    match underCap st s with
    | none => none
    | some true => some s
    | some false => walk ts (t.elim s (evictChunk st pinned s))

variable {st pinned} {s0 s : Pass H} {c : EvictableChunk H} {taken : List (EvictableChunk H)}
  {ts : List (Option (EvictableChunk H))}

section

variable (h : ¬ st.cacheBytes + bytesOf (·.size) taken < st.currentBytes)
include h

end

/-- The state after `taken` has been evicted. -/
structure Shadows (st : Setting H) (s0 : Pass H) (taken : List (EvictableChunk H)) (s : Pass H) : Prop where
  freed : s.freed = bytesOf (·.size) taken
  released : s.released = taken.map fun c => (c.pool, c.size)
  budget : s.budget = s.released.foldl (fun b x => b.sub x.1 x.2) s0.budget
  removed : s.removed = (taken.map (·.key)).eraseDups.filterMap fun k => (s0.files k).map (k, ·)
  files : ∀ k, s.files k = if k ∈ taken.map (·.key) then none else s0.files k
  full : ∀ n < taken.length, st.cacheBytes < st.currentBytes - bytesOf (·.size) (taken.take n)

theorem Shadows.evict (h : Shadows st s0 taken s) (ho : st.cacheBytes < st.currentBytes - s.freed)
    (hc : takes st pinned c) : Shadows st s0 (taken ++ [c]) (evictChunk st pinned s c) := by
  rw [evictChunk, if_pos hc]
  refine ⟨?_, ?_, ?_, ?_, fun k => ?_, fun n hn => ?_⟩
  · simp [h.freed, bytesOf_append, bytesOf]
  · simp [h.released]
  · simp [h.budget]
  · -- a file named before is gone, so nothing is removed for it
    have hfile := h.files c.key
    simp only [map_append, map_cons, map_nil, eraseDups_append, filterMap_append, h.removed]
    generalize taken.map (·.key) = keys at hfile ⊢
    congr 1
    by_cases hm : c.key ∈ keys
    · simp [hfile, hm, removeAll]
    · cases hf : s0.files c.key <;> simp [hfile, hm, hf, removeAll, eraseDups_cons]
  · have := h.files k
    grind
  · rw [length_append, length_singleton] at hn
    rcases Nat.lt_succ_iff_lt_or_eq.1 hn with hn | rfl
    · rw [take_append_of_le_length (Nat.le_of_lt hn)]
      exact h.full n hn
    · rw [take_left, ← h.freed]
      exact ho

/-- The length of the file of a key, zero if there is none. -/
def lengthOf (files : Option String × H → Option Nat) (k : Option String × H) : Nat := (files k).getD 0

def pool : Pass Nat := { files := fun k => if k = (none, 7) then some 4 else none, budget := ⟨4, fun _ => 4⟩ }

def uploaded (size : Nat) : ChunkRec Nat × Nat := (⟨size, some 7, .both, true, none⟩, 0)

end Thur.Stream.EvictionPass

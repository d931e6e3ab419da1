import Mathlib.Data.List.Sort
import Thur.Block.FleetWrites
/-!
# DiskCache — the eviction worker over the upload pipeline

`evict_lru_chunks` lists the pool, visits the volumes of its backend one after the other, reading `lru.idx` and
`upload.idx` in bulk and walking `pages.idx` after that, and then removes the coldest chunks that no `LocalOnly` page
refers to. Each of these is a step beside the pipeline. A chunk that no walked page refers to counts as uploaded.
-/

namespace Thur

open List Option

/-- `upload` is `none` if the file could not be read. -/
structure Sidecars where
  lru : PageId → Nat
  upload : Option (PageId → UploadState)

/-- What one record adds to the two maps: the access time, and whether this page says uploaded. -/
structure Touch (H : Type) where
  chunk : ChunkKey H
  lastAccessed : Nat
  uploaded : Bool

structure EvictableChunk (H : Type) where
  chunk : ChunkKey H
  size : Nat
  lastAccessed : Nat
  uploaded : Bool

/-- An `evict_lru_chunks` in progress: the volumes to visit, the one being read, and the candidates once sorted. -/
structure EvictPass (V H : Type) where
  backend : Nat
  currentBytes : Nat
  cacheBytes : Nat
  recentSealPinSeconds : Nat
  files : List (ChunkKey H × Nat)
  todo : List V
  reading : Option (V × Sidecars)
  touches : List (Touch H)
  chosen : Option (List (EvictableChunk H))
  freed : Nat

namespace EvictPass

variable {V H : Type} [DecidableEq H] {c : EvictableChunk H} {pins : ChunkKey H → Nat} {x : EvictPass V H}

def isUploaded (sc : Sidecars) (p : PageId) : Bool :=
  match sc.upload with
  | none => false
  | some f => f p = .uploaded

def walk (fl : Fleet V H) (v : V) (sc : Sidecars) (ix : PageIndex H) (upTo : Option Nat) : List (Touch H) :=
  let recs := match upTo with
    | none => ix.iter
    | some n => ix.iter.take n
  recs.map fun r => ⟨fl.key v r.2, sc.lru r.1, isUploaded sc r.1⟩

def lastAccessed (touches : List (Touch H)) (c : ChunkKey H) : Nat :=
  (touches.filter (fun t => t.chunk = c)).foldl (fun m t => max m t.lastAccessed) 0

def uploaded (touches : List (Touch H)) (c : ChunkKey H) : Bool :=
  touches.all fun t => !decide (t.chunk = c) || t.uploaded

/-- Uploaded, not pinned, not sealed recently; oldest access first. -/
def candidates (x : EvictPass V H) (pins : ChunkKey H → Nat) (now : Nat) : List (EvictableChunk H) :=
  let all : List (EvictableChunk H) :=
    x.files.map fun f => ⟨f.1, f.2, lastAccessed x.touches f.1, uploaded x.touches f.1⟩
  let kept := (all.filter (fun c => c.uploaded)).filter fun c => pins c.chunk = 0
  let cold := if x.recentSealPinSeconds > 0
    then kept.filter (fun c => c.lastAccessed < now - x.recentSealPinSeconds) else kept
  cold.insertionSort fun c d => c.lastAccessed ≤ d.lastAccessed

theorem mem_candidates {now : Nat}
    (h : c ∈ x.candidates pins now) : c.chunk ∈ x.files.map Prod.fst ∧ uploaded x.touches c.chunk = true := by
  unfold candidates at h
  rw [mem_insertionSort] at h
  have hkept : c ∈ ((x.files.map (fun f => (⟨f.1, f.2, lastAccessed x.touches f.1, uploaded x.touches f.1⟩ :
      EvictableChunk H))).filter (fun c => c.uploaded)).filter (fun c => pins c.chunk = 0) := by
    split at h
    · exact (mem_filter.1 h).1
    · exact h
  obtain ⟨hmem, hup⟩ := mem_filter.1 (mem_filter.1 hkept).1
  obtain ⟨f, hf, rfl⟩ := mem_map.1 hmem
  exact ⟨mem_map.2 ⟨f, hf, rfl⟩, hup⟩

theorem pins_of_mem_candidates {now : Nat}
    (h : c ∈ x.candidates pins now) : pins c.chunk = 0 := by
  unfold candidates at h
  rw [mem_insertionSort] at h
  split at h
  · exact of_decide_eq_true (mem_filter.1 (mem_filter.1 h).1).2
  · exact of_decide_eq_true (mem_filter.1 h).2

theorem uploaded_of_touch {touches : List (Touch H)} {c : ChunkKey H} (h : uploaded touches c = true) {t : Touch H}
    (ht : t ∈ touches) (hc : t.chunk = c) : t.uploaded = true := by
  have := all_eq_true.1 h t ht
  simpa [hc] using this

omit [DecidableEq H] in
theorem mem_walk (fl : Fleet V H) (v : V) (sc : Sidecars) {ix : PageIndex H} {p : PageId} {h : H} (hp : ix.get p = some h) :
    (⟨fl.key v h, sc.lru p, isUploaded sc p⟩ : Touch H) ∈ walk fl v sc ix none :=
  mem_map.2 ⟨(p, h), (ix.mem_iter p h).2 hp, rfl⟩

variable (currentBytes cacheBytes : UInt64) (removes : EvictableChunk H → Bool)

/-- The removal loop: the chunks removed and those it stopped in front of; no result where `current_bytes - freed`
underflows. -/
def removeChunks : Nat → List (EvictableChunk H) → Option (List (EvictableChunk H) × List (EvictableChunk H))
  | _, [] => some ([], [])
  | freed, c :: cs =>
    if currentBytes.toNat < freed then none
    else if currentBytes.toNat - freed ≤ cacheBytes.toNat then some ([], c :: cs)
    else if removes c then (removeChunks (freed + c.size) cs).map fun r => (c :: r.1, r.2)
    else removeChunks freed cs

def bytesOf : List (EvictableChunk H) → Nat
  | [] => 0
  | c :: cs => c.size + bytesOf cs

/-- Every removal was needed, and the loop stops in front of `rest` because none is. -/
def Stops (freed : Nat) (cs removed rest : List (EvictableChunk H)) : Prop :=
  (∃ tried, cs = tried ++ rest ∧ removed = tried.filter removes) ∧
    (∀ n < removed.length, cacheBytes.toNat < currentBytes.toNat - (freed + bytesOf (removed.take n))) ∧
    (rest ≠ [] → currentBytes.toNat - (freed + bytesOf removed) ≤ cacheBytes.toNat)

/-- No chunk larger than the usage left is removed while the usage is over the cap, unless it is the last candidate. -/
def Covered (freed : Nat) (cs : List (EvictableChunk H)) : Prop :=
  ∀ tried c rest, cs = tried ++ c :: rest → rest ≠ [] → removes c = true →
    cacheBytes.toNat + (freed + bytesOf (tried.filter removes)) < currentBytes.toNat →
      freed + bytesOf (tried.filter removes) + c.size ≤ currentBytes.toNat

section

omit [DecidableEq H]

theorem covered_cons {freed : Nat} {cs : List (EvictableChunk H)} :
    Covered currentBytes cacheBytes removes freed (c :: cs) ↔
      (cs ≠ [] → removes c = true → cacheBytes.toNat + freed < currentBytes.toNat → freed + c.size ≤ currentBytes.toNat) ∧
      Covered currentBytes cacheBytes removes (if removes c then freed + c.size else freed) cs := by
  have hfilter : ∀ tried, freed + bytesOf ((c :: tried).filter removes) =
      (if removes c then freed + c.size else freed) + bytesOf (tried.filter removes) := by
    intro tried
    by_cases hc : removes c = true
    · simp [hc, bytesOf, Nat.add_assoc]
    · simp [hc]
  constructor
  · intro h
    refine ⟨fun hne hc hover => by simpa [bytesOf] using h [] c cs rfl hne hc (by simpa [bytesOf] using hover), ?_⟩
    intro tried d rest hcs
    rw [← hfilter]
    exact h (c :: tried) d rest (by rw [hcs]; rfl)
  · rintro ⟨hfirst, hrest⟩ tried d rest hcs
    cases tried with
    | nil =>
      cases hcs
      simpa [bytesOf] using hfirst
    | cons t tried =>
      cases hcs
      rw [hfilter]
      exact hrest tried d rest rfl

theorem removeChunks_isSome_iff : ∀ (cs : List (EvictableChunk H)) (freed : Nat),
    (removeChunks currentBytes cacheBytes removes freed cs).isSome = true ↔
      (cs ≠ [] → freed ≤ currentBytes.toNat) ∧ Covered currentBytes cacheBytes removes freed cs
  | [], freed => by simp [removeChunks, Covered]
  | c :: cs, freed => by
    rw [removeChunks, covered_cons]
    by_cases hlt : currentBytes.toNat < freed
    · simp [hlt]
    rw [if_neg hlt]
    by_cases hcap : currentBytes.toNat - freed ≤ cacheBytes.toNat
    · rw [if_pos hcap]
      -- the loop ends here, and nothing behind is reached
      refine iff_of_true rfl ⟨fun _ => Nat.le_of_not_lt hlt, fun _ _ h => by omega, fun tried d rest _ _ _ h => ?_⟩
      split at h <;> omega
    rw [if_neg hcap]
    by_cases hc : removes c = true
    · rw [if_pos hc, if_pos hc, isSome_map, removeChunks_isSome_iff cs]
      grind
    · rw [if_neg hc, if_neg hc, removeChunks_isSome_iff cs]
      grind

theorem removeChunks_stops : ∀ (cs : List (EvictableChunk H)) {freed : Nat} {removed rest : List (EvictableChunk H)},
    removeChunks currentBytes cacheBytes removes freed cs = some (removed, rest) →
      Stops currentBytes cacheBytes removes freed cs removed rest
  | [], freed, removed, rest, h => by
    cases h
    exact ⟨⟨[], rfl, rfl⟩, by simp, by simp⟩
  | c :: cs, freed, removed, rest, h => by
    rw [removeChunks] at h
    split_ifs at h with hlt hcap hrem
    · cases h
      exact ⟨⟨[], rfl, rfl⟩, by simp, fun _ => by simpa [bytesOf] using hcap⟩
    · obtain ⟨⟨removed', rest'⟩, hrun, heq⟩ := map_eq_some_iff.1 h
      cases heq
      obtain ⟨⟨tried, rfl, rfl⟩, hneed, hstop⟩ := removeChunks_stops cs hrun
      refine ⟨⟨c :: tried, rfl, by simp [hrem]⟩, ?_, ?_⟩
      · rintro (_ | n) hn
        · simpa [bytesOf] using Nat.lt_of_not_le hcap
        · simpa [bytesOf, Nat.add_assoc] using hneed n (by simpa using hn)
      · simpa [bytesOf, Nat.add_assoc] using hstop
    · obtain ⟨⟨tried, rfl, rfl⟩, hneed, hstop⟩ := removeChunks_stops cs h
      exact ⟨⟨c :: tried, rfl, by simp [hrem]⟩, hneed, hstop⟩

end

/-- **A pass removes no more than it needs to**, oldest first, exactly if the usage left covers each file it removes in
front of another candidate. -/
theorem removal_minimal (x : EvictPass V H) (pins : ChunkKey H → Nat) (now : Nat) :
    (∃ removed rest, removeChunks currentBytes cacheBytes removes 0 (x.candidates pins now) = some (removed, rest) ∧
      removed.Pairwise (fun c d => c.lastAccessed ≤ d.lastAccessed) ∧
      Stops currentBytes cacheBytes removes 0 (x.candidates pins now) removed rest) ↔
    Covered currentBytes cacheBytes removes 0 (x.candidates pins now) := by
  have hsome := removeChunks_isSome_iff currentBytes cacheBytes removes (x.candidates pins now) 0
  rw [isSome_iff_exists] at hsome
  constructor
  · rintro ⟨removed, rest, hrun, -⟩
    exact (hsome.1 ⟨_, hrun⟩).2
  · intro hcov
    obtain ⟨⟨removed, rest⟩, hrun⟩ := hsome.2 ⟨fun _ => Nat.zero_le _, hcov⟩
    have hstops := removeChunks_stops currentBytes cacheBytes removes _ hrun
    obtain ⟨tried, htried, rfl⟩ := hstops.1
    have hsorted : (x.candidates pins now).Pairwise (fun c d => c.lastAccessed ≤ d.lastAccessed) :=
      pairwise_insertionSort _ _
    rw [htried] at hsorted
    exact ⟨_, rest, hrun, (pairwise_append.1 hsorted).1.filter _, hstops⟩

def twoFiles (a b : Nat) : EvictPass Nat Nat := ⟨0, 100, 50, 0, [((⟨0, none⟩, 1), a), ((⟨0, none⟩, 2), b)], [], none,
  [], none, 0⟩

/-- A file written after the usage figure was read. -/
theorem removal_underflows :
    removeChunks 100 50 (fun _ => true) 0 ((twoFiles 200 10).candidates (fun _ => 0) 0) = none := by decide

end EvictPass

structure DiskCache (V H : Type) where
  fleet : FleetState V H
  passes : Table (EvictPass V H)

inductive DiskCacheAct (V H : Type)
  | fleet (a : FleetAct V H)
  | evictScan (e : Nat) (backend currentBytes cacheBytes recentSealPinSeconds : Nat) (files : List (ChunkKey H))
      (vols : List V)
  | evictSidecars (e : Nat) (readable : Bool)
  | evictWalk (e : Nat) (upTo : Option Nat)
  | evictSkip (e : Nat)
  | evictChoose (e : Nat)
  | evictRemove (e : Nat) (ok : Bool)
  | evictEnd (e : Nat)

namespace DiskCache

variable {V H : Type} [DecidableEq V] [DecidableEq H] (fl : Fleet V H)

def booted (b : Boot V H) : DiskCache V H := ⟨.booted b, ∅⟩

def scanned (s : FleetState V H) (backend currentBytes cacheBytes pin : Nat) (files : List (ChunkKey H)) (vols : List V) :
    EvictPass V H where
  backend := backend
  currentBytes := currentBytes
  cacheBytes := cacheBytes
  recentSealPinSeconds := pin
  files := files.map fun c => (c, ((s.pool c).map (fun f => f.bytes.length)).getD 0)
  todo := vols
  reading := none
  touches := []
  chosen := none
  freed := 0

/-- The listing is of chunks that are there, and the walk of the backend's volumes. -/
def Listed (s : FleetState V H) (backend : Nat) (files : List (ChunkKey H)) (vols : List V) : Prop :=
  (∀ c ∈ files, c.1.backend = backend ∧ (s.pool c).isSome = true) ∧
  (∀ v ∈ fl.vols, (fl.poolOf v).backend = backend → v ∈ vols) ∧ ∀ v ∈ vols, (fl.poolOf v).backend = backend

deriving instance Decidable for @Listed V H

def step (s : DiskCache V H) : DiskCacheAct V H → Option (DiskCache V H)
  | .fleet a => (s.fleet.step fl a).map fun f => { s with fleet := f }
  | .evictScan e backend currentBytes cacheBytes pin files vols =>
    if s.passes.lookup e = none ∧ cacheBytes < currentBytes ∧ Listed fl s.fleet backend files vols
    then some { s with passes := s.passes.insert e (scanned s.fleet backend currentBytes cacheBytes pin files vols) }
    else none
  | .evictSidecars e readable =>
    (s.passes.lookup e).bind (fun x =>
      match x.todo, x.reading with
      | v :: vs, none =>
        let sc : Sidecars := ⟨s.fleet.lru v, if readable then some (s.fleet.flag v) else none⟩
        some { s with passes := s.passes.insert e { x with todo := vs, reading := some (v, sc) } }
      | _, _ => none)
  | .evictWalk e upTo =>
    (s.passes.lookup e).bind (fun x =>
      x.reading.bind (fun r =>
        let touches := x.touches ++ EvictPass.walk fl r.1 r.2 (s.fleet.pages r.1) upTo
        some { s with passes := s.passes.insert e { x with reading := none, touches := touches } }))
  | .evictSkip e =>
    -- a manifest, `pages.idx` or `lru.idx` that cannot be opened
    (s.passes.lookup e).bind (fun x =>
      match x.todo, x.reading with
      | _ :: vs, none => some { s with passes := s.passes.insert e { x with todo := vs } }
      | _, _ => none)
  | .evictChoose e =>
    (s.passes.lookup e).bind (fun x =>
      if x.todo = [] ∧ x.reading.isNone ∧ x.chosen.isNone
      then some { s with passes := s.passes.insert e { x with chosen := some (x.candidates s.fleet.pins s.fleet.now) } }
      else none)
  | .evictRemove e ok =>
    (s.passes.lookup e).bind (fun x =>
      match x.chosen with
      | some (c :: cs) =>
        -- the subtraction wraps in a release build
        if UInt64.ofNat x.currentBytes - UInt64.ofNat x.freed ≤ UInt64.ofNat x.cacheBytes then none
        else if ok then some
          { fleet := { s.fleet with pool := s.fleet.pool.remove c.chunk }
            passes := s.passes.insert e { x with chosen := some cs, freed := x.freed + c.size } }
        else some { s with passes := s.passes.insert e { x with chosen := some cs } }
      | _ => none)
  | .evictEnd e => (s.passes.lookup e).bind fun _ => some { s with passes := s.passes.erase e }

def machine : Machine (DiskCache V H) (DiskCacheAct V H) := ⟨fun s a => s.step fl a⟩

inductive Moves (s : DiskCache V H) : DiskCacheAct V H → DiskCache V H → Prop
  | fleet {a f} (hm : FleetState.Moves fl s.fleet a f) : Moves s (.fleet a) { s with fleet := f }
  | evictScan {e backend currentBytes cacheBytes pin files vols}
      (hlist : Listed fl s.fleet backend files vols) :
      Moves s (.evictScan e backend currentBytes cacheBytes pin files vols)
        { s with passes := s.passes.insert e (scanned s.fleet backend currentBytes cacheBytes pin files vols) }
  | evictSidecars {e readable x v vs}
      (hx : s.passes.lookup e = some x) (htodo : x.todo = v :: vs) (hr : x.reading = none) :
      Moves s (.evictSidecars e readable) { s with
        passes := s.passes.insert e { x with
          todo := vs
          reading := some (v, ⟨s.fleet.lru v, if readable then some (s.fleet.flag v) else none⟩) } }
  | evictWalk {e upTo x v sc}
      (hx : s.passes.lookup e = some x) (hr : x.reading = some (v, sc)) :
      Moves s (.evictWalk e upTo) { s with
        passes := s.passes.insert e
          { x with reading := none, touches := x.touches ++ EvictPass.walk fl v sc (s.fleet.pages v) upTo } }
  | evictSkip {e x v vs} (hx : s.passes.lookup e = some x) (htodo : x.todo = v :: vs) (hr : x.reading = none) :
      Moves s (.evictSkip e) { s with passes := s.passes.insert e { x with todo := vs } }
  | evictChoose {e x} (hx : s.passes.lookup e = some x) (htodo : x.todo = []) (hr : x.reading = none) :
      Moves s (.evictChoose e)
        { s with passes := s.passes.insert e { x with chosen := some (x.candidates s.fleet.pins s.fleet.now) } }
  | evictRemove {e x c cs}
      (hx : s.passes.lookup e = some x) (hc : x.chosen = some (c :: cs)) :
      Moves s (.evictRemove e true)
        { fleet := { s.fleet with pool := s.fleet.pool.remove c.chunk }
          passes := s.passes.insert e { x with chosen := some cs, freed := x.freed + c.size } }
  | evictRemoveFail {e x c cs}
      (hx : s.passes.lookup e = some x) (hc : x.chosen = some (c :: cs)) :
      Moves s (.evictRemove e false) { s with passes := s.passes.insert e { x with chosen := some cs } }
  | evictEnd {e} : Moves s (.evictEnd e) { s with passes := s.passes.erase e }

variable {fl}

theorem machine_moves {s s' : DiskCache V H} {a : DiskCacheAct V H} (h : (machine fl).step s a = some s') :
    Moves fl s a s' := by
  change s.step fl a = some s' at h
  cases a <;> simp only [step, bind_eq_some_iff, map_eq_some_iff, ite_none_right_eq_some,
    some.injEq, isNone_iff_eq_none] at h
  case fleet a =>
    obtain ⟨f, hf, rfl⟩ := h
    exact .fleet (FleetState.step_moves hf)
  case evictSidecars e readable =>
    obtain ⟨x, hx, h⟩ := h
    split at h <;> cases h
    next htodo hr => exact .evictSidecars hx htodo hr
  case evictSkip e =>
    obtain ⟨x, hx, h⟩ := h
    split at h <;> cases h
    next htodo hr => exact .evictSkip hx htodo hr
  case evictRemove e ok =>
    obtain ⟨x, hx, h⟩ := h
    rcases hc : x.chosen with _ | _ | ⟨c, cs⟩ <;> rw [hc] at h
    · cases h
    · cases h
    · simp only [ite_none_left_eq_some] at h
      obtain ⟨-, h⟩ := h
      cases ok <;> cases h
      · exact .evictRemoveFail hx hc
      · exact .evictRemove hx hc
  -- the others have one outcome
  all_goals
    casesm* ∃ _, _, _ ∧ _
    subst_vars
    constructor <;> assumption

end DiskCache
end Thur

import Thur.Block.FleetWrites
/-!
# Gc — the garbage collection job over the upload pipeline

The job of `system gc` first collects the live set: it walks the `pages.idx` of every volume, record by record beside
the writers, and then every snapshot's frozen index. With that set it sweeps the pools and, if asked to, the buckets.
What lands after a walk is protected by the age of the chunk's file only.
-/
namespace Thur

open Option

def graceSecs : Nat := 3600

/-- The volumes to walk, the pool sweep with the chunk that has passed every check, the bucket's keys and its
orphans. -/
inductive GcStage (V H : Type)
  | volumes (todo : List V) (walking : Option (V × Nat))
  | snapshots (todo : List (V × FrozenIndex H))
  | collected
  | sweep (pool : PoolId) (cutoff : Nat) (orphan : Option (ChunkKey H))
  | bucket (cutoff : Nat) (keys examined toDelete : List (ChunkKey H))

structure GcJob (V H : Type) where
  start : Nat
  dryRun : Bool
  storage : Bool
  live : List (ChunkKey H)
  poisoned : List PoolId
  stage : GcStage V H

structure GcState (V H : Type) where
  fleet : FleetState V H
  jobs : Table (GcJob V H)

inductive GcAct (V H : Type)
  | fleet (a : FleetAct V H)
  | gcStart (e : Nat) (dryRun storage : Bool)
  /-- `collect_live_hashes`. -/
  | gcOpen (e : Nat) (ok : Bool)
  | gcRecord (e : Nat) (ok : Bool)
  | gcNext (e : Nat)
  | gcListSnapshots (e : Nat)
  | gcSnapshot (e : Nat) (upTo : Option Nat)
  | gcCollected (e : Nat)
  /-- `sweep_one_pool`. -/
  | gcSweep (e : Nat) (pool : PoolId)
  | gcChunk (e : Nat) (c : ChunkKey H)
  | gcRemove (e : Nat)
  | gcSwept (e : Nat)
  /-- `run_storage_gc`. -/
  | gcList (e : Nat) (backend : Nat) (keys : List (ChunkKey H))
  | gcKey (e : Nat)
  | gcDelete (e : Nat) (c : ChunkKey H) (ok : Bool)
  | gcBucketDone (e : Nat)
  | gcEnd (e : Nat)

def frozenKeys {V H : Type} (fl : Fleet V H) (sn : V × FrozenIndex H) : List (ChunkKey H) :=
  sn.2.filterMap fun rec => rec.map fun e => fl.key sn.1 e.hash

theorem mem_frozenKeys {V H : Type} {fl : Fleet V H} {sn : V × FrozenIndex H} {c : ChunkKey H} :
    c ∈ frozenKeys fl sn ↔ ∃ e, some e ∈ sn.2 ∧ fl.key sn.1 e.hash = c := by
  unfold frozenKeys
  rw [List.mem_filterMap]
  constructor
  · rintro ⟨rec, hrec, h⟩
    obtain ⟨e, rfl, he⟩ := map_eq_some_iff.1 h
    exact ⟨e, hrec, he⟩
  · rintro ⟨e, he, hc⟩
    exact ⟨some e, he, congrArg some hc⟩

theorem pool_of_frozenKeys {V H : Type} {fl : Fleet V H} {sn : V × FrozenIndex H} {c : ChunkKey H}
    (h : c ∈ frozenKeys fl sn) : c.1 = fl.poolOf sn.1 := by
  obtain ⟨e, -, rfl⟩ := mem_frozenKeys.1 h
  rfl

namespace GcJob

variable {V H : Type} [DecidableEq H]

def recent (pool : ChunkPool (ChunkKey H)) (cutoff : Nat) (c : ChunkKey H) : Bool :=
  (pool c).any fun f => cutoff ≤ f.mtime

def orphanFile (x : GcJob V H) (s : FleetState V H) (cutoff : Nat) (c : ChunkKey H) : Bool :=
  c ∉ x.live ∧ s.pins c = 0 ∧ recent s.pool cutoff c = false

def orphanObject (x : GcJob V H) (s : FleetState V H) (cutoff : Nat) (c : ChunkKey H) : Bool :=
  c.1 ∉ x.poisoned ∧ c ∉ x.live ∧ recent s.pool cutoff c = false

end GcJob

namespace GcState

variable {V H : Type} [DecidableEq V] [DecidableEq H] (fl : Fleet V H)

def booted (b : Boot V H) : GcState V H := ⟨.booted b, ∅⟩

def setJob (s : GcState V H) (e : Nat) (x : GcJob V H) : GcState V H := { s with jobs := s.jobs.insert e x }

def step (s : GcState V H) : GcAct V H → Option (GcState V H)
  | .fleet a => (s.fleet.step fl a).map fun f => { s with fleet := f }
  | .gcStart e dryRun storage =>
    if s.jobs.lookup e = none
    then some (s.setJob e ⟨s.fleet.now, dryRun, storage, [], [], .volumes fl.vols none⟩) else none
  | .gcOpen e ok =>
    (s.jobs.lookup e).bind (fun x =>
      match x.stage with
      | .volumes (v :: vs) none =>
        if ok then some (s.setJob e { x with stage := .volumes vs (some (v, 0)) })
        else some (s.setJob e { x with poisoned := fl.poolOf v :: x.poisoned, stage := .volumes vs none })
      | _ => none)
  | .gcRecord e ok =>
    (s.jobs.lookup e).bind (fun x =>
      match x.stage with
      | .volumes vs (some (v, n)) =>
        if n < (s.fleet.pages v).len
        then
          if ok
          then
            let hashes := ((s.fleet.pages v).get (UInt32.ofNat n)).toList
            some (s.setJob e { x with live := hashes.map (fl.key v) ++ x.live, stage := .volumes vs (some (v, n + 1)) })
          else some (s.setJob e { x with poisoned := fl.poolOf v :: x.poisoned, stage := .volumes vs none })
        else none
      | _ => none)
  | .gcNext e =>
    (s.jobs.lookup e).bind (fun x =>
      match x.stage with
      | .volumes vs (some (v, n)) =>
        if (s.fleet.pages v).len ≤ n then some (s.setJob e { x with stage := .volumes vs none }) else none
      | _ => none)
  | .gcListSnapshots e =>
    (s.jobs.lookup e).bind (fun x =>
      match x.stage with
      | .volumes [] none =>
        if s.fleet.snaps.entries = [] then some (s.setJob e { x with stage := .snapshots s.fleet.snapshots }) else none
      | _ => none)
  | .gcSnapshot e upTo =>
    (s.jobs.lookup e).bind (fun x =>
      match x.stage, upTo with
      | .snapshots (sn :: sns), none =>
        some (s.setJob e { x with live := frozenKeys fl sn ++ x.live, stage := .snapshots sns })
      | .snapshots (sn :: sns), some n =>
        -- the index cannot be opened, or its walk breaks off
        some (s.setJob e { x with
          live := (frozenKeys fl sn).take n ++ x.live
          poisoned := fl.poolOf sn.1 :: x.poisoned
          stage := .snapshots sns })
      | _, _ => none)
  | .gcCollected e =>
    (s.jobs.lookup e).bind (fun x =>
      match x.stage with
      | .snapshots [] => some (s.setJob e { x with stage := .collected })
      | _ => none)
  | .gcSweep e pool =>
    (s.jobs.lookup e).bind (fun x =>
      match x.stage with
      | .collected =>
        if pool ∉ x.poisoned then some (s.setJob e { x with stage := .sweep pool (s.fleet.now - graceSecs) none }) else none
      | _ => none)
  | .gcChunk e c =>
    (s.jobs.lookup e).bind (fun x =>
      match x.stage with
      | .sweep pool cutoff none =>
        if c.1 = pool
        then
          if x.orphanFile s.fleet cutoff c = true ∧ x.dryRun = false
          then some (s.setJob e { x with stage := .sweep pool cutoff (some c) }) else some s
        else none
      | _ => none)
  | .gcRemove e =>
    (s.jobs.lookup e).bind (fun x =>
      match x.stage with
      | .sweep pool cutoff (some c) =>
        some
          { fleet := { s.fleet with pool := s.fleet.pool.remove c }
            jobs := s.jobs.insert e { x with stage := .sweep pool cutoff none } }
      | _ => none)
  | .gcSwept e =>
    (s.jobs.lookup e).bind (fun x =>
      match x.stage with
      | .sweep _ _ none => some (s.setJob e { x with stage := .collected })
      | _ => none)
  | .gcList e backend keys =>
    (s.jobs.lookup e).bind (fun x =>
      match x.stage with
      | .collected =>
        if x.storage = true ∧ ∀ c ∈ keys, c.1.backend = backend ∧ s.fleet.Stored c
        then some (s.setJob e { x with stage := .bucket (s.fleet.now - graceSecs) keys [] [] }) else none
      | _ => none)
  | .gcKey e =>
    (s.jobs.lookup e).bind (fun x =>
      match x.stage with
      | .bucket cutoff (c :: cs) examined toDelete =>
        if x.orphanObject s.fleet cutoff c = true ∧ x.dryRun = false
        then some (s.setJob e { x with stage := .bucket cutoff cs (c :: examined) (c :: toDelete) })
        else some (s.setJob e { x with stage := .bucket cutoff cs (c :: examined) toDelete })
      | _ => none)
  | .gcDelete e c ok =>
    (s.jobs.lookup e).bind (fun x =>
      match x.stage with
      | .bucket cutoff [] examined toDelete =>
        if c ∈ toDelete
        then some
          { fleet := if ok then { s.fleet with store := Function.update s.fleet.store c none } else s.fleet
            jobs := s.jobs.insert e { x with stage := .bucket cutoff [] examined (toDelete.erase c) } }
        else none
      | _ => none)
  | .gcBucketDone e =>
    (s.jobs.lookup e).bind (fun x =>
      match x.stage with
      | .bucket _ [] _ [] => some (s.setJob e { x with stage := .collected })
      | _ => none)
  | .gcEnd e => (s.jobs.lookup e).bind fun _ => some { s with jobs := s.jobs.erase e }

def machine : Machine (GcState V H) (GcAct V H) := ⟨fun s a => s.step fl a⟩

inductive Advance (s : FleetState V H) (x : GcJob V H) : GcAct V H → GcJob V H → Prop
  | gcOpen {e v vs} (hst : x.stage = .volumes (v :: vs) none) :
      Advance s x (.gcOpen e true) { x with stage := .volumes vs (some (v, 0)) }
  | gcOpenFail {e v vs} (hst : x.stage = .volumes (v :: vs) none) :
      Advance s x (.gcOpen e false) { x with poisoned := fl.poolOf v :: x.poisoned, stage := .volumes vs none }
  | gcRecord {e n v vs} (hst : x.stage = .volumes vs (some (v, n))) (hn : n < (s.pages v).len) :
      Advance s x (.gcRecord e true) { x with
        live := ((s.pages v).get (UInt32.ofNat n)).toList.map (fl.key v) ++ x.live
        stage := .volumes vs (some (v, n + 1)) }
  | gcRecordFail {e n v vs} (hst : x.stage = .volumes vs (some (v, n))) :
      Advance s x (.gcRecord e false) { x with poisoned := fl.poolOf v :: x.poisoned, stage := .volumes vs none }
  | gcNext {e n v vs} (hst : x.stage = .volumes vs (some (v, n)))
      (hn : (s.pages v).len ≤ n) : Advance s x (.gcNext e) { x with stage := .volumes vs none }
  | gcListSnapshots {e} (hst : x.stage = .volumes [] none) (hsn : s.snaps.entries = []) :
      Advance s x (.gcListSnapshots e) { x with stage := .snapshots s.snapshots }
  | gcSnapshot {e sn sns} (hst : x.stage = .snapshots (sn :: sns)) :
      Advance s x (.gcSnapshot e none) { x with live := frozenKeys fl sn ++ x.live, stage := .snapshots sns }
  | gcSnapshotFail {e n sn sns}
      (hst : x.stage = .snapshots (sn :: sns)) :
      Advance s x (.gcSnapshot e (some n)) { x with
        live := (frozenKeys fl sn).take n ++ x.live
        poisoned := fl.poolOf sn.1 :: x.poisoned
        stage := .snapshots sns }
  | gcCollected {e} (hst : x.stage = .snapshots []) : Advance s x (.gcCollected e) { x with stage := .collected }
  | gcSweep {e pool} (hst : x.stage = .collected) (hp : pool ∉ x.poisoned) :
      Advance s x (.gcSweep e pool) { x with stage := .sweep pool (s.now - graceSecs) none }
  | gcChunk {e cutoff c} (hst : x.stage = .sweep c.1 cutoff none) (hor : x.orphanFile s cutoff c = true) :
      Advance s x (.gcChunk e c) { x with stage := .sweep c.1 cutoff (some c) }
  | gcSwept {e cutoff pool} (hst : x.stage = .sweep pool cutoff none) :
      Advance s x (.gcSwept e) { x with stage := .collected }
  | gcList {e backend keys} (hst : x.stage = .collected) :
      Advance s x (.gcList e backend keys) { x with stage := .bucket (s.now - graceSecs) keys [] [] }
  | gcKey {e cutoff c cs examined toDelete}
      (hst : x.stage = .bucket cutoff (c :: cs) examined toDelete) (hor : x.orphanObject s cutoff c = true) :
      Advance s x (.gcKey e) { x with stage := .bucket cutoff cs (c :: examined) (c :: toDelete) }
  | gcKeySkip {e cutoff c cs examined toDelete}
      (hst : x.stage = .bucket cutoff (c :: cs) examined toDelete) :
      Advance s x (.gcKey e) { x with stage := .bucket cutoff cs (c :: examined) toDelete }
  | gcDeleteFail {e cutoff c examined toDelete}
      (hst : x.stage = .bucket cutoff [] examined toDelete) :
      Advance s x (.gcDelete e c false) { x with stage := .bucket cutoff [] examined (toDelete.erase c) }
  | gcBucketDone {e cutoff examined} (hst : x.stage = .bucket cutoff [] examined []) :
      Advance s x (.gcBucketDone e) { x with stage := .collected }

def jobOf : GcAct V H → Option Nat
  | .fleet _ => none
  | .gcStart _ _ _ => none
  | .gcOpen e _ => some e
  | .gcRecord e _ => some e
  | .gcNext e => some e
  | .gcListSnapshots e => some e
  | .gcSnapshot e _ => some e
  | .gcCollected e => some e
  | .gcSweep e _ => some e
  | .gcChunk e _ => some e
  | .gcRemove e => some e
  | .gcSwept e => some e
  | .gcList e _ _ => some e
  | .gcKey e => some e
  | .gcDelete e _ _ => some e
  | .gcBucketDone e => some e
  | .gcEnd e => some e

inductive Moves (s : GcState V H) : GcAct V H → GcState V H → Prop
  | fleet {a f} (hm : FleetState.Moves fl s.fleet a f) : Moves s (.fleet a) { s with fleet := f }
  | gcStart {e dryRun storage} :
      Moves s (.gcStart e dryRun storage) (s.setJob e ⟨s.fleet.now, dryRun, storage, [], [], .volumes fl.vols none⟩)
  | advance {e a x y} (hx : s.jobs.lookup e = some x) (hj : jobOf a = some e) (ha : Advance fl s.fleet x a y) :
      Moves s a (s.setJob e y)
  | gcSkip {e c} : Moves s (.gcChunk e c) s
  | gcRemove {e cutoff c pool x} (hx : s.jobs.lookup e = some x) (hst : x.stage = .sweep pool cutoff (some c)) :
      Moves s (.gcRemove e)
        { fleet := { s.fleet with pool := s.fleet.pool.remove c }
          jobs := s.jobs.insert e { x with stage := .sweep pool cutoff none } }
  | gcDelete {e cutoff c examined toDelete x}
      (hx : s.jobs.lookup e = some x) (hst : x.stage = .bucket cutoff [] examined toDelete) (hc : c ∈ toDelete) :
      Moves s (.gcDelete e c true)
        { fleet := { s.fleet with store := Function.update s.fleet.store c none }
          jobs := s.jobs.insert e { x with stage := .bucket cutoff [] examined (toDelete.erase c) } }
  | gcEnd {e} : Moves s (.gcEnd e) { s with jobs := s.jobs.erase e }

variable {fl}

theorem machine_moves {s s' : GcState V H} {a : GcAct V H} (h : (machine fl).step s a = some s') : Moves fl s a s' := by
  change s.step fl a = some s' at h
  cases a with
  | fleet =>
    obtain ⟨f, hf, rfl⟩ := map_eq_some_iff.1 h
    exact .fleet (FleetState.step_moves hf)
  | gcStart =>
    simp only [step, ite_none_right_eq_some, Option.some.injEq] at h
    obtain ⟨-, rfl⟩ := h
    exact .gcStart
  | gcEnd =>
    obtain ⟨x, -, h⟩ := bind_eq_some_iff.1 h
    cases h
    exact .gcEnd
  | gcRemove e =>
    obtain ⟨x, hx, h⟩ := bind_eq_some_iff.1 h
    split at h <;> cases h
    next hst => exact .gcRemove hx hst
  | gcDelete e c ok =>
    obtain ⟨x, hx, h⟩ := bind_eq_some_iff.1 h
    split at h
    next hst =>
      obtain ⟨hc, h⟩ := ite_none_right_eq_some.1 h
      cases ok <;> cases h
      · exact .advance hx rfl (.gcDeleteFail hst)
      · exact .gcDelete hx hst hc
    · cases h
  | gcChunk e c =>
    obtain ⟨x, hx, h⟩ := bind_eq_some_iff.1 h
    split at h
    next hst =>
      obtain ⟨rfl, h⟩ := ite_none_right_eq_some.1 h
      split at h
      next hor =>
        cases h
        exact .advance hx rfl (.gcChunk hst hor.1)
      · cases h
        exact .gcSkip
    · cases h
  | gcKey e =>
    obtain ⟨x, hx, h⟩ := bind_eq_some_iff.1 h
    split at h
    next hst =>
      split at h <;> cases h
      next hor => exact .advance hx rfl (.gcKey hst hor.1)
      · exact .advance hx rfl (.gcKeySkip hst)
    · cases h
  | gcOpen e ok | gcRecord e ok =>
    obtain ⟨x, hx, h⟩ := bind_eq_some_iff.1 h
    cases ok <;> repeat' split at h
    all_goals cases h
    all_goals first | contradiction | exact .advance hx rfl (by constructor <;> assumption)
  | _ =>
    -- the others only move the job on
    obtain ⟨x, hx, h⟩ := bind_eq_some_iff.1 h
    repeat' split at h
    all_goals cases h
    all_goals exact .advance hx rfl (by constructor <;> assumption)

end GcState
end Thur

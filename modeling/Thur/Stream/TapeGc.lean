import Thur.Stream.Migrate
import Thur.Stream.Workers
/-!
# TapeGc — `system.gc` of the tape library next to workers and migrations

The job reads every chunk index, once, and then deletes the files and objects that are not in the set it read, unless
the pool file is younger than the grace window. It deletes nothing that is referred to if each chunk that a step newly
refers to, or whose file it takes away, is `Spared`, every index can be read and every sweep starts in time.
-/

namespace Thur.Stream

open List
open Option
open Pools

instance instLawfulBEqChunkAt {H : Type} [DecidableEq H] : LawfulBEq (ChunkAt H) := inferInstance

def gcRecentSealGraceSecs : Nat := 3600

inductive TapeGcStage (H : Type)
  | waiting
  | collecting (todo : List Nat)
  | ready
  -- `sweep_one_pool`: the walk collects, the deletes come after it
  | sweeping (p : Place) (cutoff : Nat) (doomed : List H)
  -- `run_storage_gc`
  | listing (backend cutoff : Nat)
  | judging (cutoff : Nat) (keys doomed : List (ChunkAt H))

structure TapeGc (H : Type) where
  start : Nat
  live : List (ChunkAt H)
  stage : TapeGcStage H

/-- `collect` says which records of the index can be read. -/
inductive TapeGcCall (H : Type)
  | go
  | collect (readable : Nat → Bool)
  | sweepOnePool (p : Place)
  | examine (h : H)
  | remove (h : H)
  | runStorageGc (backend : Nat)
  | list (keys : List (ChunkAt H))
  | judge (k : ChunkAt H)
  | delete (k : ChunkAt H)
  | deleteFails (k : ChunkAt H)
  | finish

namespace Pools

variable {H β : Type}

def Recent (w : Pools H β) (cutoff : Nat) (k : ChunkAt H) : Prop := ∃ f ∈ w.pool k, cutoff ≤ f.mtime
deriving Decidable

def hashesOf (w : Pools H β) (c : Nat) : List H := (w.tapes c).chunks.filterMap ChunkRec.hash

def NamedBy (w : Pools H β) (c : Nat) (k : ChunkAt H) : Prop := w.place c = k.1 ∧ k.2 ∈ w.hashesOf c

variable [DecidableEq H] in
deriving instance Decidable for @NamedBy H β

end Pools

namespace TapeGc

variable {H β : Type} [DecidableEq H]

def liveOf (w : Pools H β) (c : Nat) (readable : Nat → Bool) : List (ChunkAt H) :=
  (w.tapes c).chunks.zipIdx.filterMap fun x => if readable x.2 then x.1.hash.map (fun h => (w.place c, h)) else none

def step (w : Pools H β) (x : TapeGc H) (a : TapeGcCall H) : Option (Pools H β × Option (TapeGc H)) :=
  match x.stage, a with
  | .waiting, .go => some (w, some { start := w.now, live := [], stage := .collecting w.barcodes })
  | .collecting todo, .collect readable =>
    match todo with
    | c :: todo => some (w, some { x with live := x.live ++ liveOf w c readable, stage := .collecting todo })
    | [] => none
  | .collecting todo, .go =>
    match todo with
    | [] => some (w, some { x with stage := .ready })
    | _ :: _ => none
  | .ready, .sweepOnePool p => some (w, some { x with stage := .sweeping p (w.now - gcRecentSealGraceSecs) [] })
  | .sweeping p cutoff doomed, .examine h =>
    if (w.pool (p, h)).isSome then
      if (p, h) ∈ x.live ∨ w.Recent cutoff (p, h) then some (w, some x)
      else some (w, some { x with stage := .sweeping p cutoff (h :: doomed) })
    else none
  | .sweeping p cutoff doomed, .remove h =>
    if h ∈ doomed then some (w.removeFile (p, h), some { x with stage := .sweeping p cutoff (doomed.erase h) }) else none
  | .sweeping _ _ _, .finish => some (w, some { x with stage := .ready })
  | .ready, .runStorageGc backend => some (w, some { x with stage := .listing backend (w.now - gcRecentSealGraceSecs) })
  | .listing backend cutoff, .list keys =>
    if ∀ k ∈ keys, k.1.backend = backend ∧ (w.bucket k).isSome then some (w, some { x with stage := .judging cutoff keys [] })
    else none
  | .judging cutoff keys doomed, .judge k =>
    if k ∈ keys then
      if k ∈ x.live ∨ w.Recent cutoff k then some (w, some { x with stage := .judging cutoff (keys.erase k) doomed })
      else some (w, some { x with stage := .judging cutoff (keys.erase k) (k :: doomed) })
    else none
  | .judging cutoff keys doomed, .delete k =>
    if k ∈ doomed then some (w.deleteObject k, some { x with stage := .judging cutoff keys (doomed.erase k) }) else none
  | .judging cutoff keys doomed, .deleteFails k =>
    if k ∈ doomed then some (w, some { x with stage := .judging cutoff keys (doomed.erase k) }) else none
  | .judging _ _ _, .finish => some (w, some { x with stage := .ready })
  | .ready, .finish => some (w, none)
  | _, _ => none

end TapeGc

inductive Job (H β : Type)
  | work (x : Worker H β)
  | starting (c source target : Nat) (mode : MigrateMode)
  | migrate (m : Migration H β)
  | gc (x : TapeGc H)

inductive JobOrder (β : Type)
  | work (o : WorkOrder β)
  | migrate (c source target : Nat) (mode : MigrateMode)
  | systemGc

inductive JobCall (H β : Type)
  | work (a : WorkAct)
  | start
  | migrate (a : MigrateCall β H)
  | gc (a : TapeGcCall H)

namespace Job

variable {H β : Type} [DecidableEq H] (hash : β → H)

def begins : JobOrder β → Job H β
  | .work o => .work (Worker.begins o)
  | .migrate c source target mode => .starting c source target mode
  | .systemGc => .gc ⟨0, [], .waiting⟩

def step (w : Pools H β) : Job H β → JobCall H β → Option (Pools H β × Option (Job H β))
  | .work x, .work a => (x.step hash w a).map fun r => (r.1, r.2.map .work)
  | .starting c source target mode, .start =>
    match Migration.start w c source target mode with
    | .ok m => some (w, some (.migrate m))
    | .error _ => none
  | .migrate m, .migrate a => (m.step hash w a).map fun r => (r.1, r.2.map .migrate)
  | .gc x, .gc a => (x.step w a).map fun r => (r.1, r.2.map .gc)
  | _, _ => none

end Job

def library {H β : Type} [DecidableEq H] (hash : β → H) : Crew (Pools H β) (Job H β) (JobOrder β) (JobCall H β) PoolEvent where
  begins := Job.begins
  step := Job.step hash
  world := Pools.event

/-! ## What is referred to, and what spares it -/

namespace Migration

variable {H β : Type}

def Settled (m : Migration H β) (h : H) : Prop :=
  match m.stage with
  | .copying todo missed sending _ => h ∉ todo ∧ h ∉ missed ∧ h ∉ sending.map Prod.fst
  | .verifying todo missing => missing = false ∧ h ∉ todo
  | .deleting _ => False
  | _ => m.mode ≠ .rebind false

def ReliesOn (m : Migration H β) (k : ChunkAt H) : Prop := k.1 = m.target ∧ k.2 ∈ m.hashes ∧ m.Settled k.2

variable [DecidableEq H]

instance (m : Migration H β) (h : H) : Decidable (m.Settled h) := by
  unfold Settled
  cases m.stage <;> infer_instance

deriving instance Decidable for @ReliesOn H β

end Migration

namespace Job

variable {H β : Type}

def Needs (k : ChunkAt H) : Job H β → Prop
  | .work (.recording _ _ _ k') => k' = k
  | .migrate m => m.ReliesOn k
  | _ => False

instance [DecidableEq H] (k : ChunkAt H) (x : Job H β) : Decidable (x.Needs k) := by
  apply casesOn (motive := fun x => Decidable (x.Needs k)) x
  · intro x
    apply Worker.casesOn (motive := fun x => Decidable (Needs k (work x))) x <;> intros <;> unfold Needs <;> infer_instance
  all_goals
    intros
    unfold Needs
    infer_instance

def wants : Job H β → List (ChunkAt H)
  | .work (.recording _ _ _ k) => [k]
  | .migrate m => m.hashes.map fun h => (m.target, h)
  | _ => []

theorem mem_wants {k : ChunkAt H} {x : Job H β} (h : x.Needs k) : k ∈ x.wants := by
  unfold Needs at h
  split at h
  · exact mem_singleton.2 h.symm
  next m => exact mem_map.2 ⟨k.2, h.2.1, Prod.ext h.1.symm rfl⟩
  · cases h

end Job

abbrev LibraryState (H β : Type) := Crew.State (Pools H β) (Job H β)

namespace LibraryState

variable {H β : Type}

/-- By a record, a seal about to write one, or a running migration. -/
def Named (s : LibraryState H β) (k : ChunkAt H) : Prop :=
  (∃ c ∈ s.world.barcodes, s.world.NamedBy c k) ∨ s.tasks.Any fun _ x => x.Needs k

variable [DecidableEq H] in
deriving instance Decidable for @Named H β

end LibraryState

namespace TapeGc

variable {H β : Type} (span : Nat)

def todo (w : Pools H β) (x : TapeGc H) : List Nat :=
  match x.stage with
  | .waiting => w.barcodes
  | .collecting todo => todo
  | _ => []

def Condemned (x : TapeGc H) (k : ChunkAt H) : Prop :=
  match x.stage with
  | .sweeping p _ doomed => k.1 = p ∧ k.2 ∈ doomed
  | .judging _ _ doomed => k ∈ doomed
  | _ => False

instance [DecidableEq H] (x : TapeGc H) (k : ChunkAt H) : Decidable (x.Condemned k) := by
  unfold Condemned
  cases x.stage <;> infer_instance

def cutoff (x : TapeGc H) : Option Nat :=
  match x.stage with
  | .sweeping _ cutoff _ => some cutoff
  | .listing _ cutoff => some cutoff
  | .judging cutoff _ _ => some cutoff
  | _ => none

def lastCutoff (x : TapeGc H) : Nat := x.start + span - gcRecentSealGraceSecs

/-- It is live, named by a cartridge still to be read, or young enough; and it is not on the job's list. -/
def Spared (w : Pools H β) (x : TapeGc H) (k : ChunkAt H) : Prop :=
  (k ∈ x.live ∨ (∃ c ∈ x.todo w, w.NamedBy c k) ∨ w.Recent (x.lastCutoff span) k) ∧ ¬ x.Condemned k

variable [DecidableEq H] in
deriving instance Decidable for @Spared H β

def isWaiting (x : TapeGc H) : Bool :=
  match x.stage with
  | .waiting => true
  | _ => false

end TapeGc

/-! ## The condition on a step -/

def Worker.touches {H β : Type} (hash : β → H) (w : Pools H β) : Worker H β → List (ChunkAt H)
  | .sealing c _ _ b _ => [(w.place c, hash b)]
  | .placing _ _ _ k _ _ => [k]
  | .recording c _ _ k => [(w.place c, k.2)]
  | .removing _ _ x => [x.chunk]
  | _ => []

def Migration.touches {H β : Type} (w : Pools H β) (m : Migration H β) : MigrateCall β H → List (ChunkAt H)
  | .head h => [(m.target, h)]
  | .upload _ => m.hashes.map fun h => (m.target, h)
  | .go =>
    match m.stage with
    | .moving todo => todo.head?.toList.map fun h => (m.source, h)
    | .unlinking h _ => [(m.source, h)]
    -- the cartridge looks elsewhere for all its chunks
    | .flipping => (w.hashesOf m.barcode).flatMap
        fun h => [(w.place m.barcode, h), (⟨m.target.backend, (w.place m.barcode).ns⟩, h)]
    | _ => []
  | _ => []

namespace Job

variable {H β : Type} [DecidableEq H] (hash : β → H) (span : Nat)

def Spares (w : Pools H β) (k : ChunkAt H) : Job H β → Prop
  | .gc x => x.isWaiting = false → x.Spared span w k
  | _ => True

instance (w : Pools H β) (k : ChunkAt H) (x : Job H β) : Decidable (x.Spares span w k) := by
  cases x <;> unfold Spares <;> infer_instance

def touches (s : LibraryState H β) : Job H β → JobCall H β → List (ChunkAt H)
  | .work x, .work _ => x.touches hash s.world
  | .migrate m, .migrate a => m.touches s.world a
  | .gc x, .gc .go =>
    -- a job starts: nothing that a seal or a migration needs has been read
    if x.isWaiting then s.tasks.entries.flatMap (fun y => y.2.wants) else []
  | _, _ => []

/-- A sealed index can be read, and a sweep starts in time. -/
def Diligent (s : LibraryState H β) : Job H β → JobCall H β → Prop
  | .gc x, .gc (.collect readable) => ∀ c ∈ (x.todo s.world).head?, ∀ r ∈ (s.world.tapes c).chunks.zipIdx,
      r.1.hash.isSome = true → readable r.2 = true
  | .gc x, .gc (.sweepOnePool _) | .gc x, .gc (.runStorageGc _) => s.world.now ≤ x.start + span
  | _, _ => True

instance (s : LibraryState H β) (x : Job H β) (a : JobCall H β) : Decidable (x.Diligent span s a) := by
  cases x <;> cases a
  case gc.gc _ a => cases a <;> unfold Diligent <;> infer_instance
  all_goals unfold Diligent; infer_instance

end Job

namespace LibraryState

variable {H β : Type} [DecidableEq H]

def gcOk (hash : β → H) (span : Nat) (s : LibraryState H β) : Crew.Act (JobOrder β) (JobCall H β) PoolEvent → Prop
  | .on t a => ∀ x ∈ s.tasks.lookup t, x.Diligent span s a ∧
      ∀ s' ∈ (library hash).machine.step s (.on t a), ∀ k ∈ x.touches hash s a, Named s' k →
        s'.tasks.All fun _ y => y.Spares span s'.world k
  | _ => True

instance (hash : β → H) (span : Nat) (s : LibraryState H β) (a : Crew.Act (JobOrder β) (JobCall H β) PoolEvent) :
    Decidable (gcOk hash span s a) := by
  cases a <;> unfold gcOk <;> infer_instance

end LibraryState

/-! ## What a step leaves -/

namespace Pools

variable {H β : Type} {w w' : Pools H β} {c : Nat} {h : H} {ks : List (ChunkAt H)}

theorem mem_hashesOf : h ∈ w.hashesOf c ↔ w.Names c h := by
  rw [names_iff, hashesOf, mem_filterMap]

def Sealed (w : Pools H β) (c id : Nat) (h : H) : Prop := ∃ r, w.readRec c id = some r ∧ r.hash = some h

/-- Outside `ks` nothing is newly or no longer named, and no file goes; sealed slots stay sealed. -/
structure Frame (ks : List (ChunkAt H)) (w w' : Pools H β) : Prop where
  barcodes : w'.barcodes = w.barcodes
  sealed : ∀ c id h, w.Sealed c id h → w'.Sealed c id h
  named : ∀ c k, k ∉ ks → (w'.NamedBy c k ↔ w.NamedBy c k)
  recent : ∀ cutoff k, k ∉ ks → w.Recent cutoff k → w'.Recent cutoff k

structure SameFor (k : ChunkAt H) (w w' : Pools H β) : Prop where
  barcodes : w'.barcodes = w.barcodes
  named : ∀ c, w'.NamedBy c k ↔ w.NamedBy c k
  recent : ∀ cutoff, w.Recent cutoff k → w'.Recent cutoff k

theorem Frame.sameFor (h : Frame ks w w') {k : ChunkAt H} (hk : k ∉ ks) : SameFor k w w' :=
  ⟨h.barcodes, fun c => h.named c k hk, fun cutoff => h.recent cutoff k hk⟩

theorem Frame.refl (ks : List (ChunkAt H)) (w : Pools H β) : Frame ks w w :=
  ⟨rfl, fun _ _ _ h => h, fun _ _ _ => Iff.rfl, fun _ _ _ h => h⟩

theorem Frame.trans {w'' : Pools H β} (h : Frame ks w w') (h' : Frame ks w' w'') : Frame ks w w'' :=
  ⟨h'.barcodes.trans h.barcodes, fun c id x hs => h'.sealed c id x (h.sealed c id x hs),
    fun c k hk => (h'.named c k hk).trans (h.named c k hk),
    fun cutoff k hk hr => h'.recent cutoff k hk (h.recent cutoff k hk hr)⟩

theorem frame_of_tapes (hb : w'.barcodes = w.barcodes) (ht : w'.tapes = w.tapes)
    (hr : ∀ cutoff k, k ∉ ks → w.Recent cutoff k → w'.Recent cutoff k) : Frame ks w w' := by
  refine ⟨hb, fun c id h hs => ?_, fun c k _ => ?_, hr⟩
  · rwa [Sealed, readRec, ht]
  · rw [NamedBy, NamedBy, place, place, hashesOf, hashesOf, ht]

theorem frame_writeRec {id : Nat} {r : ChunkRec H} (hs : w.Sealed c id h) (hr : r.hash = some h)
    (ks : List (ChunkAt H)) : Frame ks w (w.writeRec c id r) := by
  obtain ⟨r0, hr0, hh0⟩ := hs
  have hread : ∀ c' id' h', (w.writeRec c id r).Sealed c' id' h' ↔ w.Sealed c' id' h' := by
    intro c' id' h'
    unfold Sealed
    simp only [readRec_writeRec]
    by_cases hci : c' = c ∧ id' = id
    · obtain ⟨rfl, rfl⟩ := hci
      rw [if_pos ⟨rfl, rfl⟩, hr0, map_some]
      constructor
      · rintro ⟨_, ⟨⟩, hh⟩
        exact ⟨r0, rfl, hh0.trans (hr.symm.trans hh)⟩
      · rintro ⟨_, ⟨⟩, hh⟩
        exact ⟨r, rfl, hr.trans (hh0.symm.trans hh)⟩
    · rw [if_neg hci]
  refine ⟨rfl, fun c' id' h' => (hread c' id' h').2, fun c' k _ => ?_, fun _ _ _ h => h⟩
  rw [NamedBy, NamedBy, place_writeRec, mem_hashesOf, mem_hashesOf]
  exact and_congr Iff.rfl (exists_congr fun id' => hread c' id' k.2)

theorem frame_record {id : Nat} {r0 r : ChunkRec H} (hr0 : w.readRec c id = some r0) (hnone : r0.hash = none)
    (hr : r.hash = some h) : Frame [(w.place c, h)] w (w.writeRec c id r) := by
  have hread : ∀ c' id' h', (w.writeRec c id r).Sealed c' id' h' ↔
      w.Sealed c' id' h' ∨ (c' = c ∧ id' = id ∧ h' = h) := by
    intro c' id' h'
    unfold Sealed
    simp only [readRec_writeRec]
    by_cases hci : c' = c ∧ id' = id
    · obtain ⟨rfl, rfl⟩ := hci
      rw [if_pos ⟨rfl, rfl⟩, hr0, map_some]
      constructor
      · rintro ⟨_, ⟨⟩, hh⟩
        exact .inr ⟨rfl, rfl, some.inj (hh.symm.trans hr)⟩
      · rintro (⟨_, ⟨⟩, hh⟩ | ⟨-, -, rfl⟩)
        · rw [hnone] at hh
          cases hh
        · exact ⟨r, rfl, hr⟩
    · rw [if_neg hci]
      constructor
      · exact .inl
      · rintro (hs | ⟨h1, h2, -⟩)
        · exact hs
        · exact absurd ⟨h1, h2⟩ hci
  refine ⟨rfl, fun c' id' h' hs => (hread c' id' h').2 (.inl hs), fun c' k hk => ?_, fun _ _ _ h => h⟩
  rw [NamedBy, NamedBy, place_writeRec, mem_hashesOf, mem_hashesOf]
  refine and_congr_right fun hplace => ⟨fun ⟨id', hs⟩ => ?_, fun ⟨id', hs⟩ => ⟨id', (hread c' id' k.2).2 (.inl hs)⟩⟩
  rcases (hread c' id' k.2).1 hs with hs | ⟨rfl, -, hh⟩
  · exact ⟨id', hs⟩
  · exact absurd (mem_singleton.2 (Prod.ext hplace.symm hh)) hk

theorem frame_event {e : PoolEvent} (he : w.event e = some w') : Frame [] w w' := by
  have hmk : ∀ c rs, (∀ c' id h, (w.setChunks c rs).Sealed c' id h ↔ w.Sealed c' id h) → Frame [] w (w.setChunks c rs) := by
    intro c rs hread
    refine ⟨rfl, fun c' id h => (hread c' id h).2, fun c' k _ => ?_, fun _ _ _ h => h⟩
    rw [NamedBy, NamedBy, place_setChunks, mem_hashesOf, mem_hashesOf]
    exact and_congr Iff.rfl (exists_congr fun id => hread c' id k.2)
  cases e with
  | tick =>
    cases he
    exact frame_of_tapes rfl rfl fun _ _ _ h => h
  | newChunk c =>
    cases he
    refine hmk c _ fun c' id h => ?_
    constructor
    · rintro ⟨r, hr, hh⟩
      rcases (w.readRec_append c c' id _).1 hr with hr | ⟨-, -, rfl⟩
      · exact ⟨r, hr, hh⟩
      · cases hh
    · rintro ⟨r, hr, hh⟩
      exact ⟨r, (w.readRec_append c c' id _).2 (.inl hr), hh⟩
  | dropEmpty c =>
    simp only [event] at he
    split at he
    next r1 hlast =>
      split at he <;> cases he
      next hempty =>
        refine hmk c _ fun c' id h => ?_
        constructor
        · rintro ⟨r, hr, hh⟩
          exact ⟨r, ((w.readRec_dropLast c c' id).1 hr).1, hh⟩
        · rintro ⟨r, hr, hh⟩
          refine ⟨r, (w.readRec_dropLast c c' id).2 ⟨hr, ?_⟩, hh⟩
          rintro ⟨rfl, hid⟩
          rw [readRec, ← Nat.sub_eq_of_eq_add hid.symm, ← getLast?_eq_getElem?, hlast] at hr
          cases hr
          rw [isNone_iff_eq_none.1 hempty] at hh
          cases hh
    · cases he

variable [DecidableEq H]

theorem frame_putObject (w : Pools H β) (k : ChunkAt H) (b : β) (ks : List (ChunkAt H)) : Frame ks w (w.putObject k b) :=
  frame_of_tapes rfl rfl fun _ _ _ hr => hr

theorem frame_deleteObject (w : Pools H β) (k : ChunkAt H) (ks : List (ChunkAt H)) : Frame ks w (w.deleteObject k) :=
  frame_of_tapes rfl rfl fun _ _ _ hr => hr

theorem frame_removeFile (w : Pools H β) (k : ChunkAt H) : Frame [k] w (w.removeFile k) := by
  refine frame_of_tapes rfl rfl fun cutoff k' hk' hr => ?_
  rwa [Recent, pool_removeFile, if_neg (fun he => hk' (mem_singleton.2 he))]

theorem frame_putFile {k : ChunkAt H} (habsent : ¬ (w.pool k).isSome = true) (f : PoolFile β) (ks : List (ChunkAt H)) :
    Frame ks w (w.putFile k f) := by
  refine frame_of_tapes rfl rfl fun cutoff k' _ ⟨f', hf', hc⟩ => ⟨f', ?_, hc⟩
  have hne : k' ≠ k := by
    rintro rfl
    rw [mem_def.1 hf'] at habsent
    exact habsent rfl
  rwa [pool_putFile, if_neg hne]

end Pools

namespace Worker

variable {H β : Type} {hash : β → H} {w w' : Pools H β} {ks : List (ChunkAt H)}

def Steady (w : Pools H β) : Worker H β → Prop
  | .probing c id k => w.Sealed c id k.2
  | .reading c id k => w.Sealed c id k.2
  | .sending c id k _ => w.Sealed c id k.2
  | .uploaded c id k _ => w.Sealed c id k.2
  | .applying c id k r _ => w.Sealed c id k.2 ∧ r.hash = some k.2
  | .downloading c id k r => w.Sealed c id k.2 ∧ r.hash = some k.2
  | .inserting c id k r _ => w.Sealed c id k.2 ∧ r.hash = some k.2
  | .relocating c id k r => w.Sealed c id k.2 ∧ r.hash = some k.2
  | .marking _ _ x r => ∃ h, w.Sealed x.barcode x.id h ∧ r.hash = some h
  | _ => True

theorem Steady.sealed (hf : ∀ c id h, w.Sealed c id h → w'.Sealed c id h) {x : Worker H β} (h : x.Steady w) : x.Steady w' := by
  cases x with
  | probing c id | reading c id | sending c id | uploaded c id => exact hf c id _ h
  | applying c id | downloading c id | inserting c id | relocating c id => exact ⟨hf c id _ h.1, h.2⟩
  | marking =>
    obtain ⟨h', hs, hh⟩ := h
    exact ⟨h', hf _ _ _ hs, hh⟩
  | _ => trivial

structure Moves (ks : List (ChunkAt H)) (w w' : Pools H β) (x' : Option (Worker H β)) : Prop where
  frame : Pools.Frame ks w w'
  steady : ∀ y ∈ x', y.Steady w'
  needs : ∀ y ∈ x', ∀ k, (Job.work y).Needs k → k ∈ ks

theorem moves_on {y : Worker H β} (hn : (Job.work y).wants ⊆ ks) (hf : Pools.Frame ks w w') (hy : y.Steady w') :
    Moves ks w w' (some y) :=
  ⟨hf, fun _ h => some.inj h ▸ hy, fun _ h _ hk => hn (Job.mem_wants (some.inj h ▸ hk))⟩

theorem moves_quiet {y : Worker H β} (hn : (Job.work y).wants = []) (hf : Pools.Frame ks w w') (hy : y.Steady w') :
    Moves ks w w' (some y) :=
  moves_on (hn ▸ nil_subset ks) hf hy

theorem moves_end (hf : Pools.Frame ks w w') : Moves ks w w' none :=
  ⟨hf, (fun _ h => by cases h), fun _ h => by cases h⟩

variable [DecidableEq H]

theorem Steady.moves {x : Worker H β} (h : x.Steady w) {a : WorkAct} {x' : Option (Worker H β)}
    (hs : x.step hash w a = some (w', x')) : Moves (x.touches hash w) w w' x' := by
  have hsame : ∀ ks, Pools.Frame ks w w := fun ks => Pools.Frame.refl ks w
  revert hs
  fun_cases x.step hash w a <;> intro hs <;> first | cases hs | obtain ⟨_, hf, ⟨⟩⟩ := map_eq_some_iff.1 hs
  -- most steps only read, and some write a record whose hash is what they read
  all_goals try exact moves_quiet rfl (hsame _) h
  all_goals try exact moves_quiet rfl (hsame _) trivial
  all_goals try exact moves_end (frame_writeRec h.1 (by exact h.2) _)
  · exact moves_on (List.Subset.refl _) (hsame _) trivial
  · refine moves_on (List.Subset.refl _) (frame_of_tapes rfl rfl fun cutoff k' hk' hr => ?_) trivial
    rwa [Pools.Recent, pool_putFile, if_neg (fun he => hk' (mem_singleton.2 he))]
  next hr hnone => exact moves_end (frame_record hr hnone rfl)
  next hr _ hh _ _ => exact moves_quiet rfl (hsame _) ⟨_, hr, hh⟩
  next hr _ hh _ _ => exact moves_quiet rfl (hsame _) ⟨_, hr, hh⟩
  next k data _ =>
    have hf := frame_putObject w k data []
    exact moves_quiet rfl hf (hf.sealed _ _ _ h)
  next hr =>
    obtain ⟨r0, hr0, hh0⟩ := h
    obtain rfl := some.inj (hr0.symm.trans hr)
    exact moves_quiet rfl (hsame _) ⟨⟨r0, hr0, hh0⟩, hh0⟩
  · exact moves_end (hsame _)
  next hr _ hh _ => exact moves_quiet rfl (hsame _) ⟨⟨_, hr, hh⟩, hh⟩
  next data habsent _ =>
    have hf := frame_putFile habsent ⟨data, w.now⟩ []
    exact moves_quiet rfl hf ⟨hf.sealed _ _ _ h.1, h.2⟩
  next hr hmark =>
    obtain ⟨h', hh⟩ := isSome_iff_exists.1 hmark.1
    exact moves_quiet rfl (hsame _) ⟨h', ⟨_, hr, hh⟩, hh⟩
  · obtain ⟨h', hsealed, hh⟩ := h
    exact moves_quiet rfl (frame_writeRec hsealed (by exact hh) _) trivial
  · exact moves_quiet rfl (frame_removeFile w _) trivial

end Worker

namespace Migration

variable {H β : Type} {hash : β → H} {w w' : Pools H β} {m : Migration H β} {ks : List (ChunkAt H)}

theorem frame_flip (w : Pools H β) (m : Migration H β) :
    Pools.Frame ((w.hashesOf m.barcode).flatMap
      (fun h => [(w.place m.barcode, h), (⟨m.target.backend, (w.place m.barcode).ns⟩, h)])) w
      (rewriteManifestBackend w m.barcode m.target.backend) := by
  have hchunks : ∀ c, ((rewriteManifestBackend w m.barcode m.target.backend).tapes c).chunks = (w.tapes c).chunks := by
    intro c
    by_cases hc : c = m.barcode
    · subst hc
      simp [rewriteManifestBackend]
    · simp [rewriteManifestBackend, hc]
  refine ⟨rfl, fun c id h hs => ?_, fun c k hk => ?_, fun _ _ _ hr => hr⟩
  · rwa [Pools.Sealed, readRec, hchunks]
  · rw [Pools.NamedBy, Pools.NamedBy, hashesOf, hashesOf, hchunks, place_rewriteManifestBackend]
    by_cases hc : c = m.barcode
    · subst hc
      rw [if_pos rfl]
      constructor
      · rintro ⟨hplace, hh⟩
        refine absurd (mem_flatMap.2 ⟨k.2, hh, ?_⟩) hk
        exact mem_cons_of_mem _ (mem_singleton.2 (Prod.ext hplace.symm rfl))
      · rintro ⟨hplace, hh⟩
        refine absurd (mem_flatMap.2 ⟨k.2, hh, ?_⟩) hk
        exact mem_cons.2 (.inl (Prod.ext hplace.symm rfl))
    · rw [if_neg hc]

theorem not_reliesOn_start {c source target : Nat} {mode : MigrateMode} (h : start w c source target mode = .ok m)
    (k : ChunkAt H) : ¬ m.ReliesOn k := by
  simp only [start] at h
  split at h
  · cases h
  split at h <;> cases h
  rintro ⟨-, hh, hset⟩
  cases mode with
  | move => exact hset.1 hh
  | rebind verify =>
    cases verify with
    | true => exact hset.2 hh
    | false => exact hset rfl

structure Moves (ks : List (ChunkAt H)) (w w' : Pools H β) (m : Migration H β) (m' : Option (Migration H β)) : Prop where
  frame : Pools.Frame ks w w'
  needs : ∀ y ∈ m', ∀ k, k ∉ ks → y.ReliesOn k → m.ReliesOn k

theorem moves_on (hf : Pools.Frame ks w w') {y : Migration H β}
    (hn : ∀ k, k ∉ ks → y.ReliesOn k → m.ReliesOn k) : Moves ks w w' m (some y) :=
  ⟨hf, fun _ h => some.inj h ▸ hn⟩

theorem moves_end (hf : Pools.Frame ks w w') : Moves ks w w' m none := ⟨hf, fun _ h => by cases h⟩

variable [DecidableEq H]

theorem step_moves {a : MigrateCall β H} {m' : Option (Migration H β)} (hs : m.step hash w a = some (w', m')) :
    Moves (m.touches w a) w w' m m' := by
  have hsame : ∀ ks, Pools.Frame ks w w := fun ks => Pools.Frame.refl ks w
  obtain ⟨barcode, dedup, worm, source, target, mode, hashes, stage⟩ := m
  have hne : ∀ (h : H) (k : ChunkAt H), k ∉ [(target, h)] → k.1 = target → k.2 ≠ h :=
    fun h k hk ht he => hk (mem_singleton.2 (Prod.ext ht he))
  revert hs
  fun_cases step hash w ⟨barcode, dedup, worm, source, target, mode, hashes, stage⟩ a <;> intro hs <;>
    first | cases hs | injections
  all_goals subst_vars
  all_goals try exact moves_on (hsame _) fun _ _ hr => hr
  all_goals try exact moves_end (hsame _)
  all_goals try exact moves_on (frame_removeFile w _) fun _ _ hr => hr
  all_goals try exact moves_on (frame_putFile (by assumption) _ _) fun _ _ hr => hr
  · refine moves_on (hsame _) ?_
    rintro k hk ⟨ht, hh, h1, h2, h3⟩
    exact ⟨ht, hh, fun hm => h1 ((mem_erase_of_ne (hne _ k hk ht)).2 hm), h2, h3⟩
  · refine moves_on (hsame _) ?_
    rintro k hk ⟨ht, hh, h1, h2, h3⟩
    refine ⟨ht, hh, fun hm => h1 ?_, fun hm => h2 (mem_cons_of_mem _ hm), h3⟩
    exact (mem_erase_of_ne (hne _ k hk ht)).2 hm
  · refine moves_on (hsame _) ?_
    rintro k - ⟨ht, hh, h1, h2, h3⟩
    -- the chunk itself is in flight now
    refine ⟨ht, hh, h1, fun hm => h2 ?_, fun hm => h3 (mem_cons_of_mem _ hm)⟩
    exact (mem_erase_of_ne fun he => h3 (mem_cons.2 (.inl he))).2 hm
  · refine moves_on (frame_putObject w _ _ _) ?_
    rintro k hk ⟨ht, hh, -⟩
    exact (hk (mem_map.2 ⟨k.2, hh, Prod.ext ht.symm rfl⟩)).elim
  next hdone =>
    obtain ⟨rfl, rfl, hsending, -⟩ := hdone
    obtain rfl := isEmpty_iff.1 hsending
    refine moves_on (hsame _) ?_
    rintro k - ⟨ht, hh, -⟩
    exact ⟨ht, hh, not_mem_nil, not_mem_nil, not_mem_nil⟩
  · refine moves_on (hsame _) ?_
    rintro k hk ⟨ht, hh, h1, h2⟩
    exact ⟨ht, hh, h1, fun hm => h2 ((mem_erase_of_ne (hne _ k hk ht)).2 hm)⟩
  · exact moves_on (hsame _) fun k _ hr => by cases hr.2.2.1
  next hdone =>
    obtain ⟨rfl, rfl⟩ := hdone
    exact moves_on (hsame _) fun k _ hr => ⟨hr.1, hr.2.1, rfl, not_mem_nil⟩
  next f _ habsent =>
    refine moves_on ((frame_removeFile w _).trans (frame_putFile ?_ f _)) fun _ _ hr => hr
    grind
  next habsent => exact moves_end (frame_putFile habsent _ _)
  · exact moves_on (frame_flip w ⟨barcode, _, worm, source, target, _, hashes, .flipping⟩) fun k _ hr => hr.2.2.elim
  · exact moves_on (frame_flip w ⟨barcode, _, worm, source, target, _, hashes, .flipping⟩) fun k _ hr => hr.2.2.elim
  · exact moves_end (frame_flip w ⟨barcode, dedup, worm, source, target, _, hashes, .flipping⟩)
  · exact moves_on (frame_deleteObject w _ _) fun _ _ hr => hr

end Migration

/-! ## Garbage collection -/

namespace TapeGc

variable {H β : Type} {span : Nat} {w w' : Pools H β} {x : TapeGc H} {k : ChunkAt H} {x' : Option (TapeGc H)}

theorem todo_congr (hb : w'.barcodes = w.barcodes) : x.todo w' = x.todo w := by
  obtain ⟨start, live, stage⟩ := x
  cases stage with
  | waiting => exact hb
  | _ => rfl

theorem Spared.same (h : x.Spared span w k) (hsame : Pools.SameFor k w w') : x.Spared span w' k := by
  obtain ⟨hwhy, hlist⟩ := h
  refine ⟨?_, hlist⟩
  rcases hwhy with hlive | ⟨c, hc, hn⟩ | hrecent
  · exact .inl hlive
  · exact .inr (.inl ⟨c, todo_congr hsame.barcodes ▸ hc, (hsame.named c).2 hn⟩)
  · exact .inr (.inr (hsame.recent _ hrecent))

theorem recent_of_le {cutoff cutoff' : Nat} (hle : cutoff ≤ cutoff') (h : w.Recent cutoff' k) : w.Recent cutoff k := by
  obtain ⟨f, hf, hc⟩ := h
  exact ⟨f, hf, Nat.le_trans hle hc⟩

theorem Spared.kept (h : x.Spared span w k) (htodo : x.todo w = []) {cutoff : Nat} (hc : cutoff ≤ x.lastCutoff span) :
    k ∈ x.live ∨ w.Recent cutoff k := by
  rcases h.1 with hlive | ⟨c, hmem, -⟩ | hrecent
  · exact .inl hlive
  · rw [htodo] at hmem
    cases hmem
  · exact .inr (recent_of_le hc hrecent)

theorem mem_liveOf {c : Nat} {readable : Nat → Bool} (hn : w.NamedBy c k)
    (hread : ∀ r ∈ (w.tapes c).chunks.zipIdx, r.1.hash.isSome = true → readable r.2 = true) : k ∈ liveOf w c readable := by
  obtain ⟨hplace, hh⟩ := hn
  obtain ⟨id, r, hr, hrh⟩ := mem_hashesOf.1 hh
  have hmem : (r, id) ∈ (w.tapes c).chunks.zipIdx := mk_mem_zipIdx_iff_getElem?.2 hr
  refine mem_filterMap.2 ⟨(r, id), hmem, ?_⟩
  rw [if_pos (hread _ hmem (by rw [hrh]; rfl)), hrh, map_some, hplace]

/-- It takes away only what is on its list, and goes on sparing what it spared. -/
structure Sweeps (span : Nat) (w w' : Pools H β) (x : TapeGc H) (x' : Option (TapeGc H)) : Prop where
  pool : ∀ k, ¬ x.Condemned k → w'.pool k = w.pool k
  bucket : ∀ k, ¬ x.Condemned k → w'.bucket k = w.bucket k
  barcodes : w'.barcodes = w.barcodes
  tapes : w'.tapes = w.tapes
  timely : ∀ y ∈ x', ∀ cutoff ∈ y.cutoff, cutoff ≤ y.lastCutoff span
  spares : ∀ y ∈ x', ∀ k, x.Spared span w k → y.Spared span w' k

theorem sweeps_same {y : TapeGc H} (ht : ∀ cutoff ∈ y.cutoff, cutoff ≤ y.lastCutoff span)
    (hsp : ∀ k, x.Spared span w k → y.Spared span w k) : Sweeps span w w x (some y) :=
  ⟨fun _ _ => rfl, fun _ _ => rfl, rfl, rfl, fun _ h => some.inj h ▸ ht, fun _ h => some.inj h ▸ hsp⟩

theorem not_cutoff (ht : x.cutoff = none) : ∀ cutoff ∈ x.cutoff, cutoff ≤ x.lastCutoff span := by
  intro cutoff hc
  rw [ht] at hc
  cases hc

theorem cutoff_of_now {now : Nat} (hc : x.cutoff = some (now - gcRecentSealGraceSecs)) (hnow : now ≤ x.start + span) :
    ∀ cutoff ∈ x.cutoff, cutoff ≤ x.lastCutoff span := by
  intro cutoff hmem
  rw [hc] at hmem
  rw [← some.inj hmem]
  exact Nat.sub_le_sub_right hnow gcRecentSealGraceSecs

theorem Sweeps.named (h : Sweeps span w w' x x') (c : Nat) (k : ChunkAt H) : w'.NamedBy c k ↔ w.NamedBy c k := by
  rw [Pools.NamedBy, Pools.NamedBy, place, place, hashesOf, hashesOf, h.tapes]

theorem Sweeps.sameFor (h : Sweeps span w w' x x') (hk : ¬ x.Condemned k) : Pools.SameFor k w w' := by
  refine ⟨h.barcodes, fun c => h.named c k, fun cutoff hr => ?_⟩
  rwa [Pools.Recent, h.pool k hk]

theorem Sweeps.sealed (h : Sweeps span w w' x x') {c id : Nat} {h' : H} (hs : w.Sealed c id h') :
    w'.Sealed c id h' := by
  rwa [Pools.Sealed, readRec, h.tapes]

variable [DecidableEq H]

theorem step_sweeps {s : LibraryState H β} {a : TapeGcCall H} (hwait : x.isWaiting = false)
    (htimely : ∀ cutoff ∈ x.cutoff, cutoff ≤ x.lastCutoff span) (hd : (Job.gc x : Job H β).Diligent span s (.gc a))
    (hs : x.step s.world a = some (w', x')) : Sweeps span s.world w' x x' := by
  obtain ⟨start, live, stage⟩ := x
  revert hs
  fun_cases step s.world ⟨start, live, stage⟩ a <;> intro hs <;> cases hs
  all_goals subst_vars
  · cases hwait
  · refine sweeps_same (not_cutoff rfl) fun k hk => ⟨?_, id⟩
    rcases hk.1 with hlive | ⟨c', hc', hn⟩ | hrecent
    · exact .inl (mem_append_left _ hlive)
    · rcases mem_cons.1 hc' with rfl | hc'
      · exact .inl (mem_append_right _ (mem_liveOf hn (hd c' rfl)))
      · exact .inr (.inl ⟨c', hc', hn⟩)
    · exact .inr (.inr hrecent)
  · exact sweeps_same (not_cutoff rfl) fun k hk => hk
  · exact sweeps_same (cutoff_of_now rfl hd) fun k hk => ⟨hk.1, fun hcond => not_mem_nil hcond.2⟩
  · exact sweeps_same htimely fun k hk => hk
  next p cutoff doomed h _ hkept =>
    refine sweeps_same htimely fun k hk => ⟨hk.1, fun ⟨hp, hmem⟩ => ?_⟩
    rcases mem_cons.1 hmem with hh | hmem
    · obtain rfl : k = (p, h) := Prod.ext hp hh
      exact hkept (hk.kept rfl (htimely cutoff rfl))
    · exact hk.2 ⟨hp, hmem⟩
  next p cutoff doomed h hmem =>
    -- what is not condemned is not the file that goes
    have hne : ∀ k : ChunkAt H, ¬ (k.1 = p ∧ k.2 ∈ doomed) → k ≠ (p, h) := by
      rintro k hk rfl
      exact hk ⟨rfl, hmem⟩
    refine ⟨fun k hk => ?_, fun _ _ => rfl, rfl, rfl, fun _ hy => some.inj hy ▸ htimely, fun y hy k hk => ?_⟩
    · rw [pool_removeFile, if_neg (hne k hk)]
    · cases hy
      have hsame := (frame_removeFile s.world (p, h)).sameFor fun he => hne k hk.2 (mem_singleton.1 he)
      exact ⟨(hk.same hsame).1, fun ⟨hp, hm⟩ => hk.2 ⟨hp, mem_of_mem_erase hm⟩⟩
  · exact sweeps_same (not_cutoff rfl) fun k hk => ⟨hk.1, id⟩
  · exact sweeps_same (cutoff_of_now rfl hd) fun k hk => hk
  · exact sweeps_same htimely fun k hk => ⟨hk.1, not_mem_nil⟩
  · exact sweeps_same htimely fun k hk => hk
  next cutoff keys doomed k0 _ hkept =>
    refine sweeps_same htimely fun k hk => ⟨hk.1, fun hmem => ?_⟩
    rcases mem_cons.1 hmem with rfl | hmem
    · exact hkept (hk.kept rfl (htimely cutoff rfl))
    · exact hk.2 hmem
  next k0 hmem =>
    refine ⟨fun _ _ => rfl, fun k hk => ?_, rfl, rfl, fun _ hy => some.inj hy ▸ htimely, fun y hy k hk => ?_⟩
    · rw [bucket_deleteObject, if_neg (by rintro rfl; exact hk hmem)]
    · cases hy
      have hk' := hk.same ((frame_deleteObject s.world k0 []).sameFor not_mem_nil)
      exact ⟨hk'.1, fun hm => hk.2 (mem_of_mem_erase hm)⟩
  · exact sweeps_same htimely fun k hk => ⟨hk.1, fun hm => hk.2 (mem_of_mem_erase hm)⟩
  · exact sweeps_same (not_cutoff rfl) fun k hk => ⟨hk.1, id⟩
  · exact ⟨fun _ _ => rfl, fun _ _ => rfl, rfl, rfl, (fun _ h => by cases h), fun _ h => by cases h⟩

end TapeGc

namespace Job

variable {H β : Type} {hash : β → H} {span : Nat} {w w' : Pools H β} {x : Job H β}

def Steady (span : Nat) (w : Pools H β) : Job H β → Prop
  | .work x => x.Steady w
  | .gc x => ∀ cutoff ∈ x.cutoff, cutoff ≤ x.lastCutoff span
  | _ => True

theorem Steady.sealed (hsealed : ∀ c id h, w.Sealed c id h → w'.Sealed c id h) (h : x.Steady span w) :
    x.Steady span w' := by
  cases x with
  | work => exact Worker.Steady.sealed hsealed h
  | starting | migrate => trivial
  | gc => exact h

theorem Spares.same {k : ChunkAt H} (hsame : Pools.SameFor k w w') (h : x.Spares span w k) : x.Spares span w' k := by
  cases x with
  | gc => exact fun hwait => (h hwait).same hsame
  | work | starting | migrate => trivial

structure Moves (span : Nat) (ks : List (ChunkAt H)) (w w' : Pools H β) (x : Job H β) (x' : Option (Job H β)) : Prop where
  frame : Pools.Frame ks w w'
  steady : ∀ y ∈ x', y.Steady span w'
  needs : ∀ y ∈ x', ∀ k, k ∉ ks → y.Needs k → x.Needs k
  spares : ∀ y ∈ x', ∀ k, y.Spares span w' k

variable [DecidableEq H]

theorem step_moves {s : LibraryState H β} (hx : x.Steady span s.world) (hgc : ∀ z, x ≠ .gc z) {a : JobCall H β}
    {x' : Option (Job H β)} (hs : x.step hash s.world a = some (w', x')) :
    Moves span (x.touches hash s a) s.world w' x x' := by
  cases x with
  | work =>
    cases a with
    | work =>
      obtain ⟨⟨w1, x1⟩, hstep, hr⟩ := map_eq_some_iff.1 hs
      cases hr
      have hm := Worker.Steady.moves hx hstep
      refine ⟨hm.frame, fun y hy => ?_, fun y hy k hk hn => ?_, fun y hy k => ?_⟩
      all_goals obtain ⟨y1, hy1, rfl⟩ := map_eq_some_iff.1 hy
      · exact hm.steady y1 hy1
      · exact absurd (hm.needs y1 hy1 k hn) hk
      · trivial
    | _ => cases hs
  | starting c source target mode =>
    cases a with
    | start =>
      simp only [step] at hs
      split at hs <;> cases hs
      next m hm =>
        refine ⟨Pools.Frame.refl _ _, ?_, ?_, ?_⟩
        all_goals rintro _ ⟨⟩
        · trivial
        · exact fun k _ hn => absurd hn (Migration.not_reliesOn_start hm k)
        · exact fun _ => trivial
    | _ => cases hs
  | migrate =>
    cases a with
    | migrate =>
      obtain ⟨⟨w1, m1⟩, hstep, hr⟩ := map_eq_some_iff.1 hs
      cases hr
      have hm := Migration.step_moves hstep
      refine ⟨hm.frame, fun y hy => ?_, fun y hy k hk hn => ?_, fun y hy k => ?_⟩
      all_goals obtain ⟨y1, hy1, rfl⟩ := map_eq_some_iff.1 hy
      · trivial
      · exact hm.needs y1 hy1 k hk hn
      · trivial
    | _ => cases hs
  | gc x => exact absurd rfl (hgc x)

end Job

namespace LibraryState

variable {H β : Type} {hash : β → H} {span : Nat} {s : LibraryState H β} {w' : Pools H β} {t : Nat}
  {x' : Option (Job H β)}

structure GcInv (span : Nat) (s : LibraryState H β) : Prop where
  steady : ∀ t x, s.tasks.lookup t = some x → x.Steady span s.world
  spared : ∀ k, Named s k → ∀ t x, s.tasks.lookup t = some x → x.Spares span s.world k

theorem named_of_resume {k : ChunkAt H} (hn : Named ⟨w', Crew.resume s.tasks t x'⟩ k)
    (hb : w'.barcodes = s.world.barcodes) (hnamed : ∀ c, w'.NamedBy c k → s.world.NamedBy c k)
    (hneeds : ∀ y ∈ x', y.Needs k → s.tasks.Any (fun _ x => x.Needs k)) : Named s k := by
  rcases hn with ⟨c, hc, hn⟩ | hany
  · exact .inl ⟨c, hb ▸ hc, hnamed c hn⟩
  · obtain ⟨t', y, hy, hk⟩ := (Table.any_iff _ _).1 hany
    rcases Crew.lookup_resume hy with hy | ⟨-, hy⟩
    · exact .inr (hneeds y hy hk)
    · exact .inr (Table.Any.of_lookup hy hk)

theorem GcInv.resume (h : GcInv span s) (t : Nat) (x' : Option (Job H β))
    (hsealed : ∀ c id h, s.world.Sealed c id h → w'.Sealed c id h) (hself : ∀ y ∈ x', y.Steady span w')
    (hnamed : ∀ k, Named ⟨w', Crew.resume s.tasks t x'⟩ k →
      (Crew.resume s.tasks t x').All (fun _ y => y.Spares span w' k) ∨
      (Named s k ∧ Pools.SameFor k s.world w' ∧ ∀ y ∈ x', y.Spares span w' k)) :
    GcInv span ⟨w', Crew.resume s.tasks t x'⟩ := by
  refine ⟨fun t' y hy => ?_, fun k hk t' y hy => ?_⟩
  · rcases Crew.lookup_resume hy with hy | ⟨-, hy⟩
    · exact hself y hy
    · exact (h.steady t' y hy).sealed hsealed
  · rcases hnamed k hk with hall | ⟨hold, hsame, hspares⟩
    · exact hall.lookup hy
    · rcases Crew.lookup_resume hy with hy | ⟨-, hy⟩
      · exact hspares y hy
      · exact (h.spared k hold t' y hy).same hsame

theorem not_needs_begins (o : JobOrder β) (k : ChunkAt H) : ¬ (Job.begins o).Needs k := by
  cases o with
  | work o => cases o <;> exact id
  | migrate | systemGc => exact id

theorem steady_begins (o : JobOrder β) (w : Pools H β) : (Job.begins o : Job H β).Steady span w := by
  cases o with
  | work o => cases o <;> trivial
  | migrate => trivial
  | systemGc => exact fun cutoff hc => by cases hc

theorem spares_begins (o : JobOrder β) (w : Pools H β) (k : ChunkAt H) : (Job.begins o).Spares span w k := by
  cases o with
  | systemGc => exact fun hwait => by cases hwait
  | _ => trivial

variable [DecidableEq H]

theorem GcInv.start (h : GcInv span s) (hok : ∀ k ∈ s.tasks.entries.flatMap (fun y => y.2.wants),
      Named ⟨s.world, Crew.resume s.tasks t (some (.gc ⟨s.world.now, [], .collecting s.world.barcodes⟩))⟩ k →
      (Crew.resume s.tasks t (some (.gc ⟨s.world.now, [], .collecting s.world.barcodes⟩))).All
        (fun _ y => y.Spares span s.world k)) :
    GcInv span ⟨s.world, Crew.resume s.tasks t (some (.gc ⟨s.world.now, [], .collecting s.world.barcodes⟩))⟩ := by
  refine h.resume t _ (fun _ _ _ hs => hs) ?_ fun k hk => ?_
  · rintro _ ⟨⟩
    exact fun cutoff hc => by cases hc
  · by_cases hwant : k ∈ s.tasks.entries.flatMap (fun y => y.2.wants)
    · exact .inl (hok k hwant hk)
    · have hnone : ¬ s.tasks.Any (fun _ x => x.Needs k) :=
        fun ⟨y, hy, hn⟩ => hwant (mem_flatMap.2 ⟨y, hy, Job.mem_wants hn⟩)
      have hold : Named s k := named_of_resume hk rfl (fun _ hn => hn) (by rintro _ ⟨⟩ ⟨⟩)
      refine .inr ⟨hold, ⟨rfl, fun _ => Iff.rfl, fun _ hr => hr⟩, ?_⟩
      rintro _ ⟨⟩ -
      obtain ⟨c, hc, hn⟩ := hold.resolve_right hnone
      exact ⟨.inr (.inl ⟨c, hc, hn⟩), id⟩

omit [DecidableEq H] in
theorem GcInv.sweep (h : GcInv span s) {x : TapeGc H} (hx : s.tasks.lookup t = some (.gc x))
    (hwait : x.isWaiting = false) {x' : Option (TapeGc H)} (hsw : x.Sweeps span s.world w' x') :
    GcInv span ⟨w', Crew.resume s.tasks t (x'.map .gc)⟩ := by
  refine h.resume t _ (fun _ _ _ hs => hsw.sealed hs) (fun y hy => ?_) fun k hk => ?_
  · obtain ⟨y1, hy1, rfl⟩ := map_eq_some_iff.1 hy
    exact hsw.timely y1 hy1
  · have hold : Named s k := by
      refine named_of_resume hk hsw.barcodes (fun c => (hsw.named c k).1) fun y hy hn => ?_
      obtain ⟨y1, -, rfl⟩ := map_eq_some_iff.1 hy
      cases hn
    have hspared := h.spared k hold t _ hx hwait
    refine .inr ⟨hold, hsw.sameFor hspared.2, fun y hy => ?_⟩
    obtain ⟨y1, hy1, rfl⟩ := map_eq_some_iff.1 hy
    exact fun _ => hsw.spares y1 hy1 k hspared

theorem GcInv.on (h : GcInv span s) {a : JobCall H β} (hok : gcOk hash span s (.on t a)) {x : Job H β}
    (hx : s.tasks.lookup t = some x) (hs : x.step hash s.world a = some (w', x')) :
    GcInv span ⟨w', Crew.resume s.tasks t x'⟩ := by
  obtain ⟨hd, htouch⟩ := hok x hx
  have hstep : (library hash).machine.step s (.on t a) = some ⟨w', Crew.resume s.tasks t x'⟩ := by
    simp only [Crew.machine, hx, library, hs, map_some]
  have htouch := htouch _ hstep
  by_cases hgc : ∃ z, x = .gc z
  · obtain ⟨z, rfl⟩ := hgc
    cases a with
    | gc a =>
      obtain ⟨⟨w1, x1⟩, hz, hr⟩ := map_eq_some_iff.1 hs
      cases hr
      by_cases hwait : z.isWaiting = false
      · exact h.sweep hx hwait (TapeGc.step_sweeps hwait (h.steady t _ hx) hd hz)
      obtain ⟨start, live, stage⟩ := z
      cases stage with
      | waiting =>
        cases a with
        | go =>
          cases hz
          exact h.start htouch
        | _ => cases hz
      | _ => exact absurd rfl hwait
    | _ => cases hs
  · have hm := Job.step_moves (h.steady t x hx) (fun z hz => hgc ⟨z, hz⟩) hs
    refine h.resume t x' hm.frame.sealed hm.steady fun k hk => ?_
    by_cases hmem : k ∈ x.touches hash s a
    · exact .inl (htouch k hmem hk)
    · refine .inr ⟨?_, hm.frame.sameFor hmem, fun y hy => hm.spares y hy k⟩
      exact named_of_resume hk hm.frame.barcodes (fun c => (hm.frame.named c k hmem).1)
        fun y hy hn => Table.Any.of_lookup hx (hm.needs y hy k hmem hn)

theorem GcInv.step (h : GcInv span s) {a : Crew.Act (JobOrder β) (JobCall H β) PoolEvent} (hok : gcOk hash span s a)
    {s' : LibraryState H β} (hs : (library hash).machine.step s a = some s') : GcInv span s' := by
  cases a with
  | spawn t o =>
    simp only [Crew.machine] at hs
    split at hs <;> cases hs
    refine h.resume t (some (Job.begins o)) (fun _ _ _ hs => hs) ?_ fun k hk => .inr ⟨?_, ?_, ?_⟩
    · rintro _ ⟨⟩
      exact steady_begins o s.world
    · refine named_of_resume hk rfl (fun _ hn => hn) ?_
      rintro _ ⟨⟩ hn
      exact absurd hn (not_needs_begins o k)
    · exact ⟨rfl, fun _ => Iff.rfl, fun _ hr => hr⟩
    · rintro _ ⟨⟩
      exact spares_begins o s.world k
  | on t a =>
    simp only [Crew.machine] at hs
    split at hs
    next x hx =>
      obtain ⟨⟨w', x'⟩, hstep, rfl⟩ := map_eq_some_iff.1 hs
      exact h.on hok hx hstep
    · cases hs
  | stop t =>
    cases hs
    refine h.resume t none (fun _ _ _ hs => hs) (fun y hy => by cases hy) fun k hk => .inr ⟨?_, ?_, ?_⟩
    · exact named_of_resume hk rfl (fun _ hn => hn) fun y hy => by cases hy
    · exact ⟨rfl, fun _ => Iff.rfl, fun _ hr => hr⟩
    · exact fun y hy => by cases hy
  | world =>
    obtain ⟨w', hw, rfl⟩ := map_eq_some_iff.1 hs
    have hf := frame_event hw
    refine ⟨fun t x hx => (h.steady t x hx).sealed hf.sealed, fun k hk t x hx => ?_⟩
    have hsame := hf.sameFor (k := k) not_mem_nil
    refine (h.spared k ?_ t x hx).same hsame
    rcases hk with ⟨c, hc, hn⟩ | hany
    · exact .inl ⟨c, hf.barcodes ▸ hc, (hsame.named c).1 hn⟩
    · exact .inr hany

omit [DecidableEq H] in
theorem gcInv_start (span : Nat) (w : Pools H β) : GcInv span (Crew.start w : LibraryState H β) :=
  ⟨(fun _ _ hx => by cases hx), fun _ _ _ _ hx => by cases hx⟩

/-- **Garbage collection deletes nothing that is referred to** by a record, a seal about to record, or a migration. -/
theorem tape_gc_spares_referenced (hash : β → H) (span : Nat) (w0 : Pools H β)
    (acts : List (Crew.Act (JobOrder β) (JobCall H β) PoolEvent)) (s s' : LibraryState H β) (t : Nat) (a : TapeGcCall H)
    (hrun : (library hash).machine.run (Crew.start w0) acts = some s)
    (hmeets : (library hash).machine.Meets (gcOk hash span) (Crew.start w0) acts)
    (hok : gcOk hash span s (.on t (.gc a))) (hstep : (library hash).machine.step s (.on t (.gc a)) = some s')
    (k : ChunkAt H) (hk : Named s k) : s'.world.pool k = s.world.pool k ∧ s'.world.bucket k = s.world.bucket k := by
  have hinv : GcInv span s :=
    (library hash).machine.run_inv (fun _ _ _ h hok hs => h.step hok hs) (gcInv_start span w0) hmeets hrun
  simp only [Crew.machine] at hstep
  split at hstep
  next x hx =>
    obtain ⟨⟨w', x'⟩, hs, rfl⟩ := Option.map_eq_some_iff.1 hstep
    cases x with
    | gc x =>
      obtain ⟨⟨w1, x1⟩, hz, hr⟩ := Option.map_eq_some_iff.1 hs
      cases hr
      by_cases hwait : x.isWaiting = false
      · have hsw := TapeGc.step_sweeps hwait (hinv.steady t _ hx) (hok _ hx).1 hz
        have hspared := hinv.spared k hk t _ hx hwait
        exact ⟨hsw.pool k hspared.2, hsw.bucket k hspared.2⟩
      · obtain ⟨start, live, stage⟩ := x
        cases stage with
        | waiting =>
          cases a with
          | go =>
            cases hz
            exact ⟨rfl, rfl⟩
          | _ => cases hz
        | _ => exact absurd rfl hwait
    | _ => cases hs
  · cases hstep

def oneTape (rs : List (ChunkRec Nat)) (files objects : List Nat) : Pools Nat Nat where
  now := 10000
  barcodes := [1]
  tapes := fun _ => ⟨0, .globalScope, false, rs⟩
  pool := fun k => if k.1 = ⟨0, none⟩ ∧ k.2 ∈ files then some ⟨k.2, 0⟩ else none
  bucket := fun k => if k.1 = ⟨0, none⟩ ∧ k.2 ∈ objects then some k.2 else none

def collected (readable : Nat → Bool) : List (Crew.Act (JobOrder Nat) (JobCall Nat Nat) PoolEvent) :=
  [.spawn 0 .systemGc, .on 0 (.gc .go), .on 0 (.gc (.collect readable)), .on 0 (.gc .go)]

def sealNew (id b : Nat) : List (Crew.Act (JobOrder Nat) (JobCall Nat Nat) PoolEvent) :=
  [.spawn 1 (.work (.sealChunk 1 id 1 b 10000)), .on 1 (.work .go), .on 1 (.work .go), .on 1 (.work .go)]

def orphanRun : List (Crew.Act (JobOrder Nat) (JobCall Nat Nat) PoolEvent) :=
  collected (fun _ => true) ++ sealNew 1 8 ++
    [.on 0 (.gc (.sweepOnePool ⟨0, none⟩)), .on 0 (.gc (.examine 7)), .on 0 (.gc (.examine 8)), .on 0 (.gc (.examine 9))]

theorem tape_gc_spares_referenced_orphanRun :
    ∃ s s' : LibraryState Nat Nat,
      (library id).machine.run (Crew.start (oneTape [⟨1, some 7, .localOnly, false, none⟩, .staging] [7, 9] []))
        orphanRun = some s ∧
      (library id).machine.step s (.on 0 (.gc (.remove 9))) = some s' ∧
      s'.world.pool (⟨0, none⟩, 9) = none ∧ s'.world.pool (⟨0, none⟩, 7) = some ⟨7, 0⟩ ∧
      s'.world.pool (⟨0, none⟩, 8) = some ⟨8, 10000⟩ := by
  obtain ⟨s, hs, s', hs', hok, hn7, hn8, h9, h7, h8⟩ :
      ∃ s ∈ (library id).machine.run (Crew.start (oneTape [⟨1, some 7, .localOnly, false, none⟩, .staging] [7, 9] []))
        orphanRun,
        ∃ s' ∈ (library id).machine.step s (.on 0 (.gc (.remove 9))), gcOk id 0 s (.on 0 (.gc (.remove 9))) ∧
          Named s (⟨0, none⟩, 7) ∧ Named s (⟨0, none⟩, 8) ∧ s'.world.pool (⟨0, none⟩, 9) = none ∧
          s.world.pool (⟨0, none⟩, 7) = some ⟨7, 0⟩ ∧ s.world.pool (⟨0, none⟩, 8) = some ⟨8, 10000⟩ := by decide +kernel
  have hmeets : (library id).machine.Meets (gcOk id 0)
      (Crew.start (oneTape [⟨1, some 7, .localOnly, false, none⟩, .staging] [7, 9] [])) orphanRun := by decide +kernel
  have hkeep := tape_gc_spares_referenced id 0 _ orphanRun s s' 0 (.remove 9) hs hmeets hok hs'
  exact ⟨s, s', hs, hs', h9, (hkeep _ hn7).1.trans h7, (hkeep _ hn8).1.trans h8⟩

def adoptingRun : List (Crew.Act (JobOrder Nat) (JobCall Nat Nat) PoolEvent) :=
  collected (fun _ => true) ++
    [.spawn 1 (.work (.sealChunk 1 0 1 7 10000)), .on 1 (.work .go), .on 1 (.work .go),
      .on 0 (.gc (.sweepOnePool ⟨0, none⟩)), .on 0 (.gc (.examine 7))]

def unreadRun : List (Crew.Act (JobOrder Nat) (JobCall Nat Nat) PoolEvent) :=
  collected (fun _ => false) ++ [.on 0 (.gc (.sweepOnePool ⟨0, none⟩)), .on 0 (.gc (.examine 7))]

def condemnObject (backend : Nat) : List (Crew.Act (JobOrder Nat) (JobCall Nat Nat) PoolEvent) :=
  [.on 0 (.gc (.runStorageGc backend)), .on 0 (.gc (.list [(⟨backend, none⟩, 7)])), .on 0 (.gc (.judge (⟨backend, none⟩, 7)))]

def evictedRun : List (Crew.Act (JobOrder Nat) (JobCall Nat Nat) PoolEvent) :=
  collected (fun _ => true) ++ sealNew 0 7 ++
    [.spawn 2 (.work (.uploadChunk 1 0)), .on 2 (.work .go), .on 2 (.work .go), .on 2 (.work .go), .on 2 (.work (.put none)),
      .on 2 (.work .go), .on 2 (.work .go),
      .spawn 3 (.work (.evictLruChunks 0)), .on 3 (.work .go), .on 3 (.work (.scan 1)), .on 3 (.work .go),
      .on 3 (.work (.scan 1)), .on 3 (.work .go), .on 3 (.work (.pick 0)), .on 3 (.work .go), .on 3 (.work .go)] ++
    condemnObject 0

def copiedRun : List (Crew.Act (JobOrder Nat) (JobCall Nat Nat) PoolEvent) :=
  collected (fun _ => true) ++
    [.spawn 1 (.migrate 1 0 1 .move), .on 1 .start, .on 1 (.migrate (.head 7)), .on 1 (.migrate (.download 7)),
      .on 1 (.migrate (.upload 0)), .on 1 (.migrate .go), .on 1 (.migrate .go), .on 1 (.migrate .go), .on 1 (.migrate .go),
      .on 1 (.migrate (.lockState true))] ++
    condemnObject 1

/-- **A chunk that is referred to loses its last copy**: an adopted old file, an unreadable record, a chunk sealed and
evicted after the index was read, a migration's copy before the flip. -/
theorem tape_gc_deletes_referenced :
    (∃ s s' : LibraryState Nat Nat, (library id).machine.run (Crew.start (oneTape [.staging] [7] [])) adoptingRun = some s ∧
      (library id).machine.step s (.on 0 (.gc (.remove 7))) = some s' ∧
      s.world.NamedBy 1 (⟨0, none⟩, 7) ∧ s.world.Has id (⟨0, none⟩, 7) ∧ ¬ s'.world.Has id (⟨0, none⟩, 7)) ∧
    (∃ s s' : LibraryState Nat Nat,
      (library id).machine.run (Crew.start (oneTape [⟨1, some 7, .localOnly, false, none⟩] [7] [])) unreadRun = some s ∧
      (library id).machine.step s (.on 0 (.gc (.remove 7))) = some s' ∧
      s.world.NamedBy 1 (⟨0, none⟩, 7) ∧ s.world.Has id (⟨0, none⟩, 7) ∧ ¬ s'.world.Has id (⟨0, none⟩, 7)) ∧
    (∃ s s' : LibraryState Nat Nat, (library id).machine.run (Crew.start (oneTape [.staging] [] [])) evictedRun = some s ∧
      (library id).machine.step s (.on 0 (.gc (.delete (⟨0, none⟩, 7)))) = some s' ∧
      s.world.NamedBy 1 (⟨0, none⟩, 7) ∧ s.world.Has id (⟨0, none⟩, 7) ∧ ¬ s'.world.Has id (⟨0, none⟩, 7)) ∧
    ∃ s s' : LibraryState Nat Nat,
      (library id).machine.run (Crew.start (oneTape [⟨1, some 7, .storageOnly, true, none⟩] [] [7])) copiedRun = some s ∧
      (library id).machine.run s [.on 0 (.gc (.delete (⟨1, none⟩, 7))), .on 1 (.migrate .go)] = some s' ∧
      Named s (⟨1, none⟩, 7) ∧ s.world.Has id (⟨1, none⟩, 7) ∧
      s'.world.NamedBy 1 (⟨1, none⟩, 7) ∧ ¬ s'.world.Has id (⟨1, none⟩, 7) := by
  refine ⟨?_, ?_, ?_, ?_⟩ <;> exact Machine.ends_twice (by decide +kernel)

end LibraryState

end Thur.Stream

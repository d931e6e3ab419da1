import Thur.Lib.Machine
import Thur.Lib.Table
import Thur.Block.Volume
/-!
# Fleet — the upload pipeline of all volumes, one sidecar write at a time

`CacheMachine` takes a seal as one step; here it is what `write_page_unsynced` does with an upload sender: pool file,
`pages.idx` record, `LocalOnly` flag, pending marker, hand-off, each a step. Beside the seals run the worker's tasks,
the fence-driven retries, UNMAPs, clone rebinds, snapshots and restores, on any number of volumes over shared pools and
buckets. The cache above is left out (a capture may hold any bytes) but for its lock, which a snapshot and a restore
hold: `locked` refuses captures and the `drop_entry` sections. The inline dispatch (no upload sender) is left out.
-/
namespace Thur

open Option

open Function (update)

/-- A pool directory and its bucket prefix: the backend, and under `Local` dedup the volume family. -/
structure PoolId where
  backend : Nat
  ns : Option Nat
deriving DecidableEq

abbrev ChunkKey (H : Type) := PoolId × H

instance {H : Type} [DecidableEq H] (c : ChunkKey H) (cs : List (ChunkKey H)) : Decidable (c ∈ cs) := inferInstance

structure Fleet (V H : Type) where
  cr : Crates H
  vols : List V
  mem_vols : ∀ v, v ∈ vols
  cfg : V → VolumeConfig
  poolOf : V → PoolId

namespace Fleet

variable {V H : Type} (fl : Fleet V H)

def key (v : V) (h : H) : ChunkKey H := (fl.poolOf v, h)

/-- Same pool, and the destination can decrypt. -/
def rebindOk (src : V) (srcPage : PageId) (dst : V) (dstPage : PageId) : Bool :=
  fl.poolOf src = fl.poolOf dst ∧
    rebindIsSound (fl.cfg src).encryptionKey.isSome (fl.cfg src).dekUuid srcPage (fl.cfg dst).encryptionKey.isSome
      (fl.cfg dst).dekUuid dstPage = true

end Fleet

/-- `unmarked` and `rolledBack` are the closed-channel path. -/
inductive SealStage
  | captured
  | pooled
  | indexed
  | flagged
  | marked
  | sent
  | unmarked
  | rolledBack
deriving DecidableEq

structure Seal (V : Type) where
  vol : V
  page : PageId
  bytes : Bytes
  salt : UInt64
  stage : SealStage

namespace Seal

variable {V H : Type} (fl : Fleet V H) (x : Seal V)

def payload : Bytes := sealPayload fl.cr (fl.cfg x.vol) x.page x.salt x.bytes

def entry : PageEntry H := sealEntry fl.cr (fl.cfg x.vol) x.page x.salt x.bytes

def chunk : ChunkKey H := fl.key x.vol (x.entry fl).hash

def Unmarked : Prop := x.stage = .indexed ∨ x.stage = .flagged
deriving Decidable

def ShortOfMark : Prop := x.stage = .captured ∨ x.stage = .pooled ∨ x.stage = .indexed ∨ x.stage = .flagged
deriving Decidable

def Pooled : Prop := x.stage ≠ .captured
deriving Decidable

end Seal

/-- `uploaded` holds a successful outcome, `matched` has found the hash unchanged, `flagged` has written `Uploaded`. -/
inductive TaskStage
  | queued
  | uploaded
  | matched
  | flagged
  | synced
deriving DecidableEq

structure UploadTask (V H : Type) where
  vol : V
  page : PageId
  hash : H
  stage : TaskStage

/-- The failed pages still to visit, and the page it is at with the hash it read. -/
structure Retry (V H : Type) where
  vol : V
  todo : Finset PageId
  current : Option (PageId × Option H)
  marked : Bool

/-- A `clone_one_page_into` that found its source clean and `Uploaded`. An unsound one goes on only if the source is a
hole. -/
inductive CloneStage (H : Type)
  | stated
  | dropped
  | hole
  | ready (rec : Option (PageEntry H))
  | bound (rec : Option (PageEntry H))
  | synced (rec : Option (PageEntry H))
  | flagged

def CloneStage.toBind {H : Type} : CloneStage H → Option (Option (PageEntry H))
  | .ready rec => some rec
  | _ => none

structure Clone (V H : Type) where
  src : V
  srcPage : PageId
  dst : V
  dstPage : PageId
  stage : CloneStage H

abbrev FrozenIndex (H : Type) := List (Option (PageEntry H))

inductive SnapStage
  | frozen
  | drained
  | copying
deriving DecidableEq

structure Snap (V H : Type) where
  vol : V
  copy : FrozenIndex H
  stage : SnapStage

inductive RestoreStage
  | frozen
  | drained
  | copying (next : Nat)
  | synced
  | reset
deriving DecidableEq

def RestoreStage.next : RestoreStage → Option Nat
  | .copying n => some n
  | _ => none

structure Restore (V H : Type) where
  vol : V
  snapshot : FrozenIndex H
  stage : RestoreStage

inductive LockHolder
  | snap (t : Nat)
  | restore (t : Nat)

structure FleetState (V H : Type) where
  pages : V → PageIndex H
  upload : V → UploadIndexFile
  lru : V → PageId → Nat
  pend : V → PendingSets
  locked : V → Option LockHolder
  pool : ChunkPool (ChunkKey H)
  store : ChunkKey H → Option Bytes
  pins : ChunkKey H → Nat
  closed : Bool
  now : Nat
  snapshots : List (V × FrozenIndex H)
  seals : Table (Seal V)
  tasks : Table (UploadTask V H)
  retries : Table (Retry V H)
  unmaps : Table (V × PageId)
  clones : Table (Clone V H)
  snaps : Table (Snap V H)
  restores : Table (Restore V H)

/-- What a boot finds, and what its recovery scan has queued: a marker only for a page whose chunk a task holds. -/
structure Boot (V H : Type) where
  pages : V → PageIndex H
  upload : V → UploadIndexFile
  pool : ChunkPool (ChunkKey H)
  store : ChunkKey H → Option Bytes
  snapshots : List (V × FrozenIndex H)
  now : Nat
  pend : V → PendingSets
  tasks : Table (UploadTask V H)
  queued : ∀ k x, tasks.lookup k = some x → x.stage = .queued
  enqueued : ∀ v p, p ∈ (pend v).pending →
    ∃ k x, tasks.lookup k = some x ∧ x.vol = v ∧ x.page = p ∧ (pages v).get p = some x.hash

inductive FleetAct (V H : Type)
  /-- `write_page_unsynced`. -/
  | sealStart (t : Nat) (v : V) (p : PageId) (bytes : Bytes) (salt : UInt64)
  | sealPool (t : Nat)
  | sealIndex (t : Nat)
  | sealFlag (t : Nat)
  | sealMark (t : Nat)
  | sealSend (t k : Nat)
  | sealEnd (t : Nat)
  | sealClosed (t : Nat)
  | sealRollback (t : Nat)
  | sealAbort (t : Nat)
  | sealFail (t : Nat)
  /-- `run_one_task` and `apply_page_upload_outcome`. -/
  | taskPut (k : Nat)
  | taskCheck (k : Nat)
  | taskFlag (k : Nat)
  | taskSync (k : Nat)
  | taskDone (k : Nat)
  | taskFail (k : Nat)
  | closeChannel
  /-- `retry_failed_uploads_in_range`. -/
  | retryStart (t : Nat) (v : V) (first last : PageId)
  | retryRead (t : Nat) (p : PageId)
  | retryClear (t : Nat)
  | retryMark (t : Nat)
  | retrySend (t k : Nat)
  | retryClosed (t : Nat)
  | retryEnd (t : Nat)
  /-- A full-page UNMAP, and the syncs of either sidecar. -/
  | unmapDrop (t : Nat) (v : V) (p : PageId)
  | unmapClear (t : Nat)
  | uploadSync (v : V)
  | pagesSync (v : V)
  /-- `clone_one_page_into`. -/
  | cloneState (t : Nat) (src : V) (srcPage : PageId) (dst : V) (dstPage : PageId)
  | cloneDrop (t : Nat)
  | cloneGet (t : Nat)
  | cloneBind (t : Nat)
  | cloneSync (t : Nat)
  | cloneFlag (t : Nat)
  | cloneEnd (t : Nat)
  | cloneFail (t : Nat)
  /-- `snapshot_pages_idx`. -/
  | snapLock (t : Nat) (v : V)
  | snapDrain (t : Nat)
  | snapSync (t : Nat)
  | snapCopy (t : Nat)
  | snapDone (t : Nat)
  | snapAbort (t : Nat)
  /-- `restore_from_snapshot`. -/
  | restoreLock (t : Nat) (v : V) (i : Nat)
  | restoreDrain (t : Nat)
  | restoreLen (t : Nat)
  | restoreRecord (t : Nat)
  | restoreSync (t : Nat)
  | restoreReset (t : Nat)
  | restoreClear (t : Nat)
  | restoreFail (t : Nat)
  /-- `read_page`: refetch into the pool, LRU touch; ROD tokens; the clock. -/
  | warm (v : V) (p : PageId)
  | lruTouch (v : V) (p : PageId)
  | pin (c : ChunkKey H)
  | unpin (c : ChunkKey H)
  | tick (secs : Nat)

namespace FleetState

variable {V H : Type} [DecidableEq V] [DecidableEq H] (fl : Fleet V H)

def booted (b : Boot V H) : FleetState V H where
  pages := b.pages
  upload := b.upload
  lru _ _ := 0
  pend := b.pend
  locked _ := none
  pool := b.pool
  store := b.store
  pins _ := 0
  closed := false
  now := b.now
  snapshots := b.snapshots
  seals := ∅
  tasks := b.tasks
  retries := ∅
  unmaps := ∅
  clones := ∅
  snaps := ∅
  restores := ∅

def record (s : FleetState V H) (v : V) (p : PageId) : Option (PageEntry H) := (s.pages v).getEntry p

def flag (s : FleetState V H) (v : V) (p : PageId) : UploadState := (s.upload v).read p

def Stored (s : FleetState V H) (c : ChunkKey H) : Prop := (s.store c).isSome = true
deriving Decidable

def Safe (s : FleetState V H) (v : V) : Option (PageEntry H) → Prop
  | none => True
  | some e => s.Stored (fl.key v e.hash)

instance (s : FleetState V H) (v : V) (rec : Option (PageEntry H)) : Decidable (s.Safe fl v rec) := by
  cases rec
  · exact .isTrue trivial
  · exact inferInstanceAs (Decidable (s.Stored _))

/-! ## The writes -/

section

variable (s : FleetState V H)

def setRecord (v : V) (p : PageId) (rec : Option (PageEntry H)) : FleetState V H :=
  { s with pages := update s.pages v ((s.pages v).put p rec) }

def setFlag (v : V) (p : PageId) (st : UploadState) : FleetState V H :=
  { s with upload := update s.upload v ((s.upload v).setUnsynced p st) }

def syncPages (v : V) : FleetState V H :=
  { s with pages := update s.pages v (s.pages v).sync }

def syncUpload (v : V) : FleetState V H :=
  { s with upload := update s.upload v (s.upload v).sync }

def onPend (v : V) (f : PendingSets → PendingSets) : FleetState V H :=
  { s with pend := update s.pend v (f (s.pend v)) }

def setLocked (v : V) (holder : Option LockHolder) : FleetState V H :=
  { s with locked := update s.locked v holder }

/-- A HEAD hit (only a `Global` chunk is probed), or a PUT of the local file. -/
def uploadChunk (c : ChunkKey H) : Option (ChunkKey H → Option Bytes) :=
  if c.1.ns = none ∧ s.Stored c then some s.store
  else (s.pool c).map fun f => update s.store c (some f.bytes)

def allPages : PageId × PageId := (0, UInt32.ofNat (UInt32.size - 1))

def step : FleetAct V H → Option (FleetState V H)
  | .sealStart t v p bytes salt =>
    if s.seals.lookup t = none ∧ s.locked v = none
    then some { s with seals := s.seals.insert t ⟨v, p, bytes, salt, .captured⟩ } else none
  | .sealPool t =>
    (s.seals.lookup t).bind (fun x =>
      if x.stage = .captured ∧ accepts (fl.cfg x.vol) x.page x.bytes
      then some { s with
        pool := s.pool.insertBytes (x.chunk fl) (x.payload fl) s.now
        seals := s.seals.insert t { x with stage := .pooled } }
      else none)
  | .sealIndex t =>
    (s.seals.lookup t).bind (fun x =>
      if x.stage = .pooled
      then some { s.setRecord x.vol x.page (some (x.entry fl)) with seals := s.seals.insert t { x with stage := .indexed } }
      else none)
  | .sealFlag t =>
    (s.seals.lookup t).bind (fun x =>
      if x.stage = .indexed
      then some { s.setFlag x.vol x.page .localOnly with seals := s.seals.insert t { x with stage := .flagged } } else none)
  | .sealMark t =>
    (s.seals.lookup t).bind (fun x =>
      if x.stage = .flagged
      then some { s.onPend x.vol (·.markPending x.page) with seals := s.seals.insert t { x with stage := .marked } } else none)
  | .sealSend t k =>
    (s.seals.lookup t).bind (fun x =>
      if x.stage = .marked ∧ s.closed = false ∧ s.tasks.lookup k = none
      then some { s with
        tasks := s.tasks.insert k ⟨x.vol, x.page, (x.entry fl).hash, .queued⟩
        seals := s.seals.insert t { x with stage := .sent } }
      else none)
  | .sealEnd t =>
    (s.seals.lookup t).bind (fun x =>
      if x.stage = .sent
      then some { s with
        lru := update s.lru x.vol (update (s.lru x.vol) x.page s.now)
        seals := s.seals.erase t }
      else none)
  | .sealClosed t =>
    (s.seals.lookup t).bind (fun x =>
      if x.stage = .marked ∧ s.closed = true
      then some { s.onPend x.vol (·.markDone x.page) with seals := s.seals.insert t { x with stage := .unmarked } } else none)
  | .sealRollback t =>
    (s.seals.lookup t).bind (fun x =>
      if x.stage = .unmarked
      then some { s.setFlag x.vol x.page .uploaded with seals := s.seals.insert t { x with stage := .rolledBack } } else none)
  | .sealAbort t =>
    (s.seals.lookup t).bind (fun x =>
      if x.stage = .rolledBack then some { s.syncUpload x.vol with seals := s.seals.erase t } else none)
  | .sealFail t =>
    -- the steps that return early on an error; the pool insert leaves its file, the index write its record
    (s.seals.lookup t).bind (fun x =>
      if x.stage = .captured ∨ x.stage = .pooled ∨ x.stage = .indexed ∨ x.stage = .unmarked ∨ x.stage = .rolledBack
      then some { s with seals := s.seals.erase t } else none)
  | .taskPut k =>
    (s.tasks.lookup k).bind (fun x =>
      if x.stage = .queued
      then (s.uploadChunk (fl.key x.vol x.hash)).map (fun store =>
        { s with store := store, tasks := s.tasks.insert k { x with stage := .uploaded } })
      else none)
  | .taskCheck k =>
    (s.tasks.lookup k).bind (fun x =>
      if x.stage = .uploaded
      then
        if (s.pages x.vol).get x.page = some x.hash then some { s with tasks := s.tasks.insert k { x with stage := .matched } }
        else some { s with tasks := s.tasks.erase k }
      else none)
  | .taskFlag k =>
    (s.tasks.lookup k).bind (fun x =>
      if x.stage = .matched
      then some { s.setFlag x.vol x.page .uploaded with tasks := s.tasks.insert k { x with stage := .flagged } } else none)
  | .taskSync k =>
    (s.tasks.lookup k).bind (fun x =>
      if x.stage = .flagged
      then some { s.syncUpload x.vol with tasks := s.tasks.insert k { x with stage := .synced } } else none)
  | .taskDone k =>
    (s.tasks.lookup k).bind (fun x =>
      if x.stage = .synced then some { s.onPend x.vol (·.markDone x.page) with tasks := s.tasks.erase k } else none)
  | .taskFail k =>
    (s.tasks.lookup k).bind (fun x =>
      if x.stage ≠ .synced then some { s.onPend x.vol (·.markFailed x.page) with tasks := s.tasks.erase k } else none)
  | .closeChannel => some { s with closed := true }
  | .retryStart t v first last =>
    if s.retries.lookup t = none
    then
      let todo := (s.pend v).failed.filter fun p => first ≤ p ∧ p ≤ last
      some { s with retries := s.retries.insert t ⟨v, todo, none, false⟩ }
    else none
  | .retryRead t p =>
    (s.retries.lookup t).bind (fun x =>
      if x.current.isNone ∧ p ∈ x.todo
      then
        let x := { x with todo := x.todo.erase p, current := some (p, (s.pages x.vol).get p), marked := false }
        some { s with retries := s.retries.insert t x }
      else none)
  | .retryClear t =>
    (s.retries.lookup t).bind (fun x =>
      match x.current with
      | some (p, none) =>
        some { s.onPend x.vol (·.clearFailed p) with retries := s.retries.insert t { x with current := none } }
      | _ => none)
  | .retryMark t =>
    (s.retries.lookup t).bind (fun x =>
      match x.current with
      | some (p, some _) =>
        if x.marked = false
        then some { s.onPend x.vol (·.markPending p) with retries := s.retries.insert t { x with marked := true } } else none
      | _ => none)
  | .retrySend t k =>
    (s.retries.lookup t).bind (fun x =>
      match x.current with
      | some (p, some h) =>
        if x.marked = true ∧ s.closed = false ∧ s.tasks.lookup k = none
        then some { s with
          tasks := s.tasks.insert k ⟨x.vol, p, h, .queued⟩
          retries := s.retries.insert t { x with current := none } }
        else none
      | _ => none)
  | .retryClosed t =>
    (s.retries.lookup t).bind (fun x =>
      match x.current with
      | some (p, some _) =>
        if x.marked = true ∧ s.closed = true
        then some { s.onPend x.vol (·.markFailed p) with retries := s.retries.erase t } else none
      | _ => none)
  | .retryEnd t =>
    (s.retries.lookup t).bind (fun x =>
      if x.current.isNone ∧ x.todo = ∅ then some { s with retries := s.retries.erase t } else none)
  | .unmapDrop t v p =>
    if s.unmaps.lookup t = none ∧ s.locked v = none then some { s with unmaps := s.unmaps.insert t (v, p) } else none
  | .unmapClear t =>
    (s.unmaps.lookup t).bind fun x => some { s.setRecord x.1 x.2 none with unmaps := s.unmaps.erase t }
  | .uploadSync v => some (s.syncUpload v)
  | .pagesSync v => some (s.syncPages v)
  | .cloneState t src srcPage dst dstPage =>
    if s.clones.lookup t = none ∧ (src, srcPage) ≠ (dst, dstPage) ∧ s.flag src srcPage = .uploaded
    then some { s with clones := s.clones.insert t ⟨src, srcPage, dst, dstPage, .stated⟩ } else none
  | .cloneDrop t =>
    (s.clones.lookup t).bind (fun x =>
      if (s.locked x.dst).isSome then none
      else
        match x.stage, fl.rebindOk x.src x.srcPage x.dst x.dstPage with
        | .stated, true => some { s with clones := s.clones.insert t { x with stage := .dropped } }
        | .hole, false => some { s with clones := s.clones.insert t { x with stage := .ready none } }
        | _, _ => none)
  | .cloneGet t =>
    (s.clones.lookup t).bind (fun x =>
      match x.stage, fl.rebindOk x.src x.srcPage x.dst x.dstPage with
      | .dropped, true => some { s with clones := s.clones.insert t { x with stage := .ready (s.record x.src x.srcPage) } }
      | .stated, false =>
        match s.record x.src x.srcPage with
        | none => some { s with clones := s.clones.insert t { x with stage := .hole } }
        -- a bytes copy through the two caches
        | some _ => some { s with clones := s.clones.erase t }
      | _, _ => none)
  | .cloneBind t =>
    (s.clones.lookup t).bind (fun x =>
      match x.stage with
      | .ready rec => some { s.setRecord x.dst x.dstPage rec with clones := s.clones.insert t { x with stage := .bound rec } }
      | _ => none)
  | .cloneSync t =>
    (s.clones.lookup t).bind (fun x =>
      match x.stage with
      | .bound rec => some { s.syncPages x.dst with clones := s.clones.insert t { x with stage := .synced rec } }
      | _ => none)
  | .cloneFlag t =>
    (s.clones.lookup t).bind (fun x =>
      match x.stage with
      | .synced _ => some { s.setFlag x.dst x.dstPage .uploaded with clones := s.clones.insert t { x with stage := .flagged } }
      | _ => none)
  | .cloneEnd t =>
    (s.clones.lookup t).bind (fun x =>
      match x.stage with
      | .flagged => some { s.syncUpload x.dst with clones := s.clones.erase t }
      | _ => none)
  | .cloneFail t => (s.clones.lookup t).bind fun _ => some { s with clones := s.clones.erase t }
  | .snapLock t v =>
    if s.snaps.lookup t = none ∧ s.locked v = none
    then some { s.setLocked v (some (.snap t)) with snaps := s.snaps.insert t ⟨v, [], .frozen⟩ } else none
  | .snapDrain t =>
    (s.snaps.lookup t).bind (fun x =>
      if x.stage = .frozen ∧ (s.pend x.vol).waitForRange allPages.1 allPages.2 = some .clean
      then some { s with snaps := s.snaps.insert t { x with stage := .drained } } else none)
  | .snapSync t =>
    (s.snaps.lookup t).bind (fun x =>
      if x.stage = .drained
      then some { (s.syncUpload x.vol).syncPages x.vol with snaps := s.snaps.insert t { x with stage := .copying } } else none)
  | .snapCopy t =>
    (s.snaps.lookup t).bind (fun x =>
      if x.stage = .copying ∧ x.copy.length < (s.pages x.vol).len
      then
        let x := { x with copy := x.copy ++ [s.record x.vol (UInt32.ofNat x.copy.length)] }
        some { s with snaps := s.snaps.insert t x }
      else none)
  | .snapDone t =>
    (s.snaps.lookup t).bind (fun x =>
      if x.stage = .copying ∧ (s.pages x.vol).len ≤ x.copy.length
      then some { s.setLocked x.vol none with snapshots := (x.vol, x.copy) :: s.snapshots, snaps := s.snaps.erase t }
      else none)
  | .snapAbort t => (s.snaps.lookup t).bind fun x => some { s.setLocked x.vol none with snaps := s.snaps.erase t }
  | .restoreLock t v i =>
    (s.snapshots[i]?).bind (fun sn =>
      if s.restores.lookup t = none ∧ s.locked v = none ∧ sn.1 = v
      then some { s.setLocked v (some (.restore t)) with restores := s.restores.insert t ⟨v, sn.2, .frozen⟩ } else none)
  | .restoreDrain t =>
    (s.restores.lookup t).bind (fun x =>
      if x.stage = .frozen ∧ (s.pend x.vol).waitForRange allPages.1 allPages.2 ≠ none
      then some { s with restores := s.restores.insert t { x with stage := .drained } } else none)
  | .restoreLen t =>
    (s.restores.lookup t).bind (fun x =>
      if x.stage = .drained
      then some { s with
        pages := update s.pages x.vol ((s.pages x.vol).clearFrom x.snapshot.length)
        restores := s.restores.insert t { x with stage := .copying 0 } }
      else none)
  | .restoreRecord t =>
    (s.restores.lookup t).bind (fun x =>
      match x.stage with
      | .copying n =>
        (x.snapshot[n]?).bind (fun rec =>
          some { s.setRecord x.vol (UInt32.ofNat n) rec with
            restores := s.restores.insert t { x with stage := .copying (n + 1) } })
      | _ => none)
  | .restoreSync t =>
    (s.restores.lookup t).bind (fun x =>
      if x.stage = .copying x.snapshot.length
      then some { s.syncPages x.vol with restores := s.restores.insert t { x with stage := .synced } } else none)
  | .restoreReset t =>
    (s.restores.lookup t).bind (fun x =>
      if x.stage = .synced
      then some { s with
        upload := update s.upload x.vol (s.upload x.vol).resetToClean
        lru := update s.lru x.vol fun _ => 0
        restores := s.restores.insert t { x with stage := .reset } }
      else none)
  | .restoreClear t =>
    (s.restores.lookup t).bind (fun x =>
      if x.stage = .reset
      then some { (s.onPend x.vol (·.clearAllFailed)).setLocked x.vol none with restores := s.restores.erase t } else none)
  | .restoreFail t =>
    (s.restores.lookup t).bind fun x => some { s.setLocked x.vol none with restores := s.restores.erase t }
  | .warm v p =>
    (s.record v p).bind (fun e =>
      (s.store (fl.key v e.hash)).bind (fun bytes =>
        if fl.cr.blake3 bytes = e.hash then some { s with pool := s.pool.insertBytes (fl.key v e.hash) bytes s.now }
        else none))
  | .lruTouch v p => some { s with lru := update s.lru v (update (s.lru v) p s.now) }
  | .pin c => some { s with pins := update s.pins c (s.pins c + 1) }
  | .unpin c => some { s with pins := update s.pins c (s.pins c - 1) }
  | .tick secs => some { s with now := s.now + secs }

end

def machine : Machine (FleetState V H) (FleetAct V H) := ⟨fun s a => s.step fl a⟩

/-- What a step can do: the guards it passed and the state it leaves. -/
inductive Moves (s : FleetState V H) : FleetAct V H → FleetState V H → Prop
  | sealStart {t v p bytes salt} (ht : s.seals.lookup t = none) (hl : s.locked v = none) :
      Moves s (.sealStart t v p bytes salt) { s with seals := s.seals.insert t ⟨v, p, bytes, salt, .captured⟩ }
  | sealPool {t x} (hx : s.seals.lookup t = some x) (hst : x.stage = .captured) : Moves s (.sealPool t) { s with
        pool := s.pool.insertBytes (x.chunk fl) (x.payload fl) s.now
        seals := s.seals.insert t { x with stage := .pooled } }
  | sealIndex {t x} (hx : s.seals.lookup t = some x) (hst : x.stage = .pooled) : Moves s (.sealIndex t)
        { s.setRecord x.vol x.page (some (x.entry fl)) with seals := s.seals.insert t { x with stage := .indexed } }
  | sealFlag {t x} (hx : s.seals.lookup t = some x) (hst : x.stage = .indexed) : Moves s (.sealFlag t)
        { s.setFlag x.vol x.page .localOnly with seals := s.seals.insert t { x with stage := .flagged } }
  | sealMark {t x} (hx : s.seals.lookup t = some x) (hst : x.stage = .flagged) : Moves s (.sealMark t)
        { s.onPend x.vol (·.markPending x.page) with seals := s.seals.insert t { x with stage := .marked } }
  | sealSend {t k x} (hx : s.seals.lookup t = some x) (hst : x.stage = .marked) (hk : s.tasks.lookup k = none) :
      Moves s (.sealSend t k) { s with
        tasks := s.tasks.insert k ⟨x.vol, x.page, (x.entry fl).hash, .queued⟩
        seals := s.seals.insert t { x with stage := .sent } }
  | sealEnd {t x} (hx : s.seals.lookup t = some x) (hst : x.stage = .sent) : Moves s (.sealEnd t) { s with
        lru := update s.lru x.vol (update (s.lru x.vol) x.page s.now)
        seals := s.seals.erase t }
  | sealClosed {t x} (hx : s.seals.lookup t = some x) (hst : x.stage = .marked) (hc : s.closed = true) :
      Moves s (.sealClosed t)
        { s.onPend x.vol (·.markDone x.page) with seals := s.seals.insert t { x with stage := .unmarked } }
  | sealRollback {t x} (hx : s.seals.lookup t = some x) (hst : x.stage = .unmarked) : Moves s (.sealRollback t)
        { s.setFlag x.vol x.page .uploaded with seals := s.seals.insert t { x with stage := .rolledBack } }
  | sealAbort {t x} (hx : s.seals.lookup t = some x) (hst : x.stage = .rolledBack) :
      Moves s (.sealAbort t) { s.syncUpload x.vol with seals := s.seals.erase t }
  | sealFail {t x} (hx : s.seals.lookup t = some x)
      (hst : x.stage = .captured ∨ x.stage = .pooled ∨ x.stage = .indexed ∨ x.stage = .unmarked ∨ x.stage = .rolledBack) :
      Moves s (.sealFail t) { s with seals := s.seals.erase t }
  | taskPut {k x store} (hx : s.tasks.lookup k = some x)
      (hst : x.stage = .queued) (hup : s.uploadChunk (fl.key x.vol x.hash) = some store) :
      Moves s (.taskPut k) { s with store := store, tasks := s.tasks.insert k { x with stage := .uploaded } }
  | taskMatch {k x} (hx : s.tasks.lookup k = some x) (hst : x.stage = .uploaded)
      (hh : (s.pages x.vol).get x.page = some x.hash) :
      Moves s (.taskCheck k) { s with tasks := s.tasks.insert k { x with stage := .matched } }
  | taskSuperseded {k x} (hx : s.tasks.lookup k = some x) (hst : x.stage = .uploaded)
      (hh : (s.pages x.vol).get x.page ≠ some x.hash) : Moves s (.taskCheck k) { s with tasks := s.tasks.erase k }
  | taskFlag {k x} (hx : s.tasks.lookup k = some x) (hst : x.stage = .matched) : Moves s (.taskFlag k)
        { s.setFlag x.vol x.page .uploaded with tasks := s.tasks.insert k { x with stage := .flagged } }
  | taskSync {k x} (hx : s.tasks.lookup k = some x) (hst : x.stage = .flagged) :
      Moves s (.taskSync k) { s.syncUpload x.vol with tasks := s.tasks.insert k { x with stage := .synced } }
  | taskDone {k x} (hx : s.tasks.lookup k = some x) (hst : x.stage = .synced) :
      Moves s (.taskDone k) { s.onPend x.vol (·.markDone x.page) with tasks := s.tasks.erase k }
  | taskFail {k x} (hx : s.tasks.lookup k = some x) (hst : x.stage ≠ .synced) :
      Moves s (.taskFail k) { s.onPend x.vol (·.markFailed x.page) with tasks := s.tasks.erase k }
  | closeChannel : Moves s .closeChannel { s with closed := true }
  | retryStart {t v first last} (ht : s.retries.lookup t = none) : Moves s (.retryStart t v first last) { s with
        retries := s.retries.insert t ⟨v, (s.pend v).failed.filter (fun p => first ≤ p ∧ p ≤ last), none, false⟩ }
  | retryRead {t p x} (hx : s.retries.lookup t = some x) (hc : x.current = none) (hp : p ∈ x.todo) :
      Moves s (.retryRead t p) { s with
        retries := s.retries.insert t ⟨x.vol, x.todo.erase p, some (p, (s.pages x.vol).get p), false⟩ }
  | retryClear {t p x} (hx : s.retries.lookup t = some x) (hc : x.current = some (p, none)) : Moves s (.retryClear t)
        { s.onPend x.vol (·.clearFailed p) with retries := s.retries.insert t { x with current := none } }
  | retryMark {t p h x} (hx : s.retries.lookup t = some x) (hc : x.current = some (p, some h)) (hm : x.marked = false) :
      Moves s (.retryMark t)
        { s.onPend x.vol (·.markPending p) with retries := s.retries.insert t { x with marked := true } }
  | retrySend {t k p h x} (hx : s.retries.lookup t = some x)
      (hc : x.current = some (p, some h)) (hm : x.marked = true) (hk : s.tasks.lookup k = none) :
      Moves s (.retrySend t k) { s with
        tasks := s.tasks.insert k ⟨x.vol, p, h, .queued⟩
        retries := s.retries.insert t { x with current := none } }
  | retryClosed {t p h x} (hx : s.retries.lookup t = some x)
      (hc : x.current = some (p, some h)) (hm : x.marked = true) :
      Moves s (.retryClosed t) { s.onPend x.vol (·.markFailed p) with retries := s.retries.erase t }
  | retryEnd {t x} (hx : s.retries.lookup t = some x) (hc : x.current = none) :
      Moves s (.retryEnd t) { s with retries := s.retries.erase t }
  | unmapDrop {t v p} (hl : s.locked v = none) :
      Moves s (.unmapDrop t v p) { s with unmaps := s.unmaps.insert t (v, p) }
  | unmapClear {t x} (hx : s.unmaps.lookup t = some x) :
      Moves s (.unmapClear t) { s.setRecord x.1 x.2 none with unmaps := s.unmaps.erase t }
  | uploadSync {v} : Moves s (.uploadSync v) (s.syncUpload v)
  | pagesSync {v} : Moves s (.pagesSync v) (s.syncPages v)
  | cloneState {t src dst srcPage dstPage} (hf : s.flag src srcPage = .uploaded) :
      Moves s (.cloneState t src srcPage dst dstPage)
        { s with clones := s.clones.insert t ⟨src, srcPage, dst, dstPage, .stated⟩ }
  | cloneDrop {t x} (hx : s.clones.lookup t = some x) (hst : x.stage = .stated) :
      Moves s (.cloneDrop t) { s with clones := s.clones.insert t { x with stage := .dropped } }
  | cloneDropHole {t x} (hx : s.clones.lookup t = some x) (hst : x.stage = .hole) :
      Moves s (.cloneDrop t) { s with clones := s.clones.insert t { x with stage := .ready none } }
  | cloneGet {t x} (hx : s.clones.lookup t = some x) (hst : x.stage = .dropped)
      (hok : fl.rebindOk x.src x.srcPage x.dst x.dstPage = true) :
      Moves s (.cloneGet t)
        { s with clones := s.clones.insert t { x with stage := .ready (s.record x.src x.srcPage) } }
  | cloneGetHole {t x} (hx : s.clones.lookup t = some x) (hst : x.stage = .stated) :
      Moves s (.cloneGet t) { s with clones := s.clones.insert t { x with stage := .hole } }
  | cloneGetCopy {t x} (hx : s.clones.lookup t = some x) (hst : x.stage = .stated) :
      Moves s (.cloneGet t) { s with clones := s.clones.erase t }
  | cloneBind {t x rec} (hx : s.clones.lookup t = some x) (hst : x.stage = .ready rec) : Moves s (.cloneBind t)
        { s.setRecord x.dst x.dstPage rec with clones := s.clones.insert t { x with stage := .bound rec } }
  | cloneSync {t x rec} (hx : s.clones.lookup t = some x) (hst : x.stage = .bound rec) :
      Moves s (.cloneSync t) { s.syncPages x.dst with clones := s.clones.insert t { x with stage := .synced rec } }
  | cloneFlag {t x rec} (hx : s.clones.lookup t = some x) (hst : x.stage = .synced rec) : Moves s (.cloneFlag t)
        { s.setFlag x.dst x.dstPage .uploaded with clones := s.clones.insert t { x with stage := .flagged } }
  | cloneEnd {t x} (hx : s.clones.lookup t = some x) (hst : x.stage = .flagged) :
      Moves s (.cloneEnd t) { s.syncUpload x.dst with clones := s.clones.erase t }
  | cloneFail {t} : Moves s (.cloneFail t) { s with clones := s.clones.erase t }
  | snapLock {t v} (ht : s.snaps.lookup t = none) (hl : s.locked v = none) :
      Moves s (.snapLock t v) { s.setLocked v (some (.snap t)) with snaps := s.snaps.insert t ⟨v, [], .frozen⟩ }
  | snapDrain {t x} (hx : s.snaps.lookup t = some x) (hst : x.stage = .frozen)
      (hw : (s.pend x.vol).waitForRange allPages.1 allPages.2 = some .clean) :
      Moves s (.snapDrain t) { s with snaps := s.snaps.insert t { x with stage := .drained } }
  | snapSync {t x} (hx : s.snaps.lookup t = some x) (hst : x.stage = .drained) : Moves s (.snapSync t)
        { (s.syncUpload x.vol).syncPages x.vol with snaps := s.snaps.insert t { x with stage := .copying } }
  | snapCopy {t x} (hx : s.snaps.lookup t = some x) (hst : x.stage = .copying)
      (hlen : x.copy.length < (s.pages x.vol).len) :
      Moves s (.snapCopy t) { s with
        snaps := s.snaps.insert t { x with copy := x.copy ++ [s.record x.vol (UInt32.ofNat x.copy.length)] } }
  | snapDone {t x} (hx : s.snaps.lookup t = some x) (hst : x.stage = .copying) : Moves s (.snapDone t)
        { s.setLocked x.vol none with snapshots := (x.vol, x.copy) :: s.snapshots, snaps := s.snaps.erase t }
  | snapAbort {t x} (hx : s.snaps.lookup t = some x) :
      Moves s (.snapAbort t) { s.setLocked x.vol none with snaps := s.snaps.erase t }
  | restoreLock {t i v frozen} (hi : s.snapshots[i]? = some (v, frozen))
      (ht : s.restores.lookup t = none) (hl : s.locked v = none) :
      Moves s (.restoreLock t v i)
        { s.setLocked v (some (.restore t)) with restores := s.restores.insert t ⟨v, frozen, .frozen⟩ }
  | restoreDrain {t x} (hx : s.restores.lookup t = some x) (hst : x.stage = .frozen) :
      Moves s (.restoreDrain t) { s with restores := s.restores.insert t { x with stage := .drained } }
  | restoreLen {t x} (hx : s.restores.lookup t = some x) (hst : x.stage = .drained) : Moves s (.restoreLen t) { s with
        pages := update s.pages x.vol ((s.pages x.vol).clearFrom x.snapshot.length)
        restores := s.restores.insert t { x with stage := .copying 0 } }
  | restoreRecord {t n x rec} (hx : s.restores.lookup t = some x)
      (hst : x.stage = .copying n) (hrec : x.snapshot[n]? = some rec) :
      Moves s (.restoreRecord t) { s.setRecord x.vol (UInt32.ofNat n) rec with
        restores := s.restores.insert t { x with stage := .copying (n + 1) } }
  | restoreSync {t x} (hx : s.restores.lookup t = some x) (hst : x.stage = .copying x.snapshot.length) :
      Moves s (.restoreSync t) { s.syncPages x.vol with restores := s.restores.insert t { x with stage := .synced } }
  | restoreReset {t x} (hx : s.restores.lookup t = some x) (hst : x.stage = .synced) :
      Moves s (.restoreReset t) { s with
        upload := update s.upload x.vol (s.upload x.vol).resetToClean
        lru := update s.lru x.vol fun _ => 0
        restores := s.restores.insert t { x with stage := .reset } }
  | restoreClear {t x} (hx : s.restores.lookup t = some x) (hst : x.stage = .reset) : Moves s (.restoreClear t)
        { (s.onPend x.vol (·.clearAllFailed)).setLocked x.vol none with restores := s.restores.erase t }
  | restoreFail {t x} (hx : s.restores.lookup t = some x) :
      Moves s (.restoreFail t) { s.setLocked x.vol none with restores := s.restores.erase t }
  | warm {v p e bytes} (he : s.record v p = some e) (hb : s.store (fl.key v e.hash) = some bytes) :
      Moves s (.warm v p) { s with pool := s.pool.insertBytes (fl.key v e.hash) bytes s.now }
  | lruTouch {v p} : Moves s (.lruTouch v p) { s with lru := update s.lru v (update (s.lru v) p s.now) }
  | pin {c} : Moves s (.pin c) { s with pins := update s.pins c (s.pins c + 1) }
  | unpin {c} : Moves s (.unpin c) { s with pins := update s.pins c (s.pins c - 1) }
  | tick {secs} : Moves s (.tick secs) { s with now := s.now + secs }

variable {fl}

theorem step_moves {s s' : FleetState V H} {a : FleetAct V H} (h : s.step fl a = some s') : Moves fl s a s' := by
  cases a <;> simp only [step, bind_eq_some_iff, map_eq_some_iff, ite_none_right_eq_some,
    ite_none_left_eq_some, some.injEq, isNone_iff_eq_none] at h
  case taskCheck k =>
    obtain ⟨x, hx, hst, h⟩ := h
    split at h <;> cases h
    next hh => exact .taskMatch hx hst hh
    next hh => exact .taskSuperseded hx hst hh
  case retryClear t =>
    obtain ⟨x, hx, h⟩ := h
    rcases hc : x.current with _ | ⟨p, _ | hash⟩ <;> rw [hc] at h <;> cases h
    exact .retryClear hx hc
  case retryMark t =>
    obtain ⟨x, hx, h⟩ := h
    split at h <;> simp only [reduceCtorEq, ite_none_right_eq_some, some.injEq] at h
    next hc =>
      obtain ⟨hm, rfl⟩ := h
      exact .retryMark hx hc hm
  case retrySend t k =>
    obtain ⟨x, hx, h⟩ := h
    split at h <;> simp only [reduceCtorEq, ite_none_right_eq_some, some.injEq] at h
    next hc =>
      obtain ⟨⟨hm, -, hk⟩, rfl⟩ := h
      exact .retrySend hx hc hm hk
  case retryClosed t =>
    obtain ⟨x, hx, h⟩ := h
    split at h <;> simp only [reduceCtorEq, ite_none_right_eq_some, some.injEq] at h
    next hc =>
      obtain ⟨⟨hm, -⟩, rfl⟩ := h
      exact .retryClosed hx hc hm
  case cloneDrop t =>
    obtain ⟨x, hx, -, h⟩ := h
    cases hst : x.stage <;> cases hok : fl.rebindOk x.src x.srcPage x.dst x.dstPage <;> rw [hst, hok] at h <;> cases h
    · exact .cloneDrop hx hst
    · exact .cloneDropHole hx hst
  case cloneGet t =>
    obtain ⟨x, hx, h⟩ := h
    cases hst : x.stage <;> cases hok : fl.rebindOk x.src x.srcPage x.dst x.dstPage <;> rw [hst, hok] at h <;>
      simp only [reduceCtorEq] at h
    · split at h <;> cases h
      · exact .cloneGetHole hx hst
      · exact .cloneGetCopy hx hst
    · cases h
      exact .cloneGet hx hst hok
  case cloneBind | cloneSync | cloneFlag | cloneEnd =>
    obtain ⟨x, hx, h⟩ := h
    cases hst : x.stage <;> rw [hst] at h <;> cases h
    constructor <;> assumption
  case restoreLock t v i =>
    obtain ⟨⟨w, frozen⟩, hi, ⟨ht, hl, hv⟩, rfl⟩ := h
    exact .restoreLock (by rw [hi, ← hv]) ht hl
  case restoreRecord t =>
    obtain ⟨x, hx, h⟩ := h
    cases hst : x.stage <;> rw [hst] at h <;> simp only [reduceCtorEq, bind_eq_some_iff, some.injEq] at h
    obtain ⟨rec, hrec, rfl⟩ := h
    exact .restoreRecord hx hst hrec
  -- the others have one outcome
  all_goals
    try casesm* ∃ _, _, _ ∧ _
    subst_vars
    constructor <;> assumption

theorem machine_moves {s s' : FleetState V H} {a : FleetAct V H} (h : (machine fl).step s a = some s') : Moves fl s a s' :=
  step_moves h

/-! ## A fleet to run -/

def solo : Fleet Unit Bytes where
  cr := .plain
  vols := [()]
  mem_vols _ := List.mem_singleton.2 rfl
  cfg _ :=
    { pageSize := 1, lastPageId := 3, encryptionKey := none, dekUuid := [], syncAfter := .storage, budgetPages := 1,
      maxConcurrentFlushes := 1 }
  poolOf _ := ⟨0, none⟩

def newVolume : Boot Unit Bytes where
  pages _ := default
  upload _ := default
  pool _ := none
  store _ := none
  snapshots := []
  now := 0
  pend _ := .new
  tasks := ∅
  queued _ _ h := by cases h
  enqueued _ p h := absurd h (Finset.notMem_empty p)

def sealRun (bytes : Bytes) (t k : Nat) : List (FleetAct Unit Bytes) :=
  [.sealStart t () 0 bytes 0, .sealPool t, .sealIndex t, .sealFlag t, .sealMark t, .sealSend t k, .sealEnd t]

def leftLocal : Boot Unit Bytes :=
  { newVolume with
    pages := fun _ => ((newVolume.pages ()).put 0 none).loseAll
    upload := fun _ => ((newVolume.upload ()).set 0 .localOnly).keepAll
    pool := ChunkPool.insertBytes newVolume.pool (solo.key () [1]) [1] 0 }

/-- A crash behind the first seal of a page that keeps the flag and loses the record. -/
theorem leftLocal_of_crash : ∃ s, (machine solo).run (booted newVolume) (sealRun [1] 1 2) = some s ∧
    (s.pages ()).loseAll = leftLocal.pages () ∧ (s.upload ()).keepAll = leftLocal.upload () ∧
    s.pool = leftLocal.pool ∧ s.store = leftLocal.store := ⟨_, rfl, rfl, rfl, rfl, rfl⟩

def taskRun (k : Nat) : List (FleetAct Unit Bytes) := [.taskPut k, .taskCheck k, .taskFlag k, .taskSync k, .taskDone k]

end FleetState
end Thur

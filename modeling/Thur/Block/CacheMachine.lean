import Mathlib.Data.Finset.Max
import Thur.Lib.Machine
import Thur.Lib.Table
import Thur.Block.CacheInner
import Thur.Block.Volume
/-!
# CacheMachine — the page cache of one volume, one lock-held section or off-lock write at a time

Every section of `PageCache` between taking and releasing the inner lock is one action, and so is every off-lock write
to the sidecars; an operation that spans several of them is a row in flight between them, and may fail at any off-lock
step. Any interleaving of any number of operations is a run. The counters, the LRU sidecar and the flush worker's timing
are left out: no action reads them.
-/

namespace Thur

open Option

/-- A `flush_one` or a dirty `evict_to_fit` past its capture. `drain` is `none` for an eviction; `isSealed` says whether
the record is written. -/
structure WriteBack where
  page : PageId
  bytes : Bytes
  version : UInt64
  drain : Option Nat
  isSealed : Bool

/-- A cold load: its page's leader, then holding what `read_page` resolved and from which record. -/
structure Load (H : Type) where
  page : PageId
  fetched : Option (Option (PageEntry H) × Bytes)

/-- A full-page UNMAP or the destination side of a clone, past its `drop_entry`. -/
structure Rebind (H : Type) where
  page : PageId
  unmap : Bool
  target : Option (Option (PageEntry H))

inductive DrainPhase
  | pick
  | flush
  | syncUpload
  | syncPages
  | done
deriving DecidableEq

structure Drain where
  first : PageId
  last : PageId
  todo : List PageId
  wroteAny : Bool
  failed : Bool
  phase : DrainPhase

structure CacheState (H : Type) where
  inner : CacheInner
  pages : PageIndex H
  upload : UploadIndexFile
  pool : ChunkPool H
  wbs : Table WriteBack
  loads : Table (Load H)
  rebinds : Table (Rebind H)
  drains : Table Drain

inductive CacheAct (H : Type)
  /-- The commit sections of the two host writes. -/
  | install (p : PageId) (bytes : Bytes)
  | modify (p : PageId) (offset : Nat) (data : Bytes)
  /-- A cold read: leader election, `read_page`, insert. -/
  | acquire (t : Nat) (p : PageId)
  | fetch (t : Nat)
  | insertPage (t : Nat)
  | loadFail (t : Nat)
  /-- A write-back: eviction capture, `write_page_unsynced`, re-check. -/
  | evict (t : Nat) (wanted : Nat)
  | sealPage (t : Nat) (salt : UInt64) (now : Nat)
  | sealFail (t : Nat)
  | abort (t : Nat)
  | commit (t : Nat)
  /-- UNMAP and clone: `drop_entry`, the source's record, the index write. -/
  | unmapDrop (t : Nat) (p : PageId)
  | cloneDrop (t : Nat) (p : PageId)
  | cloneGet (t : Nat) (src : PageId)
  | cloneGetFrom (t : Nat) (rec : Option (PageEntry H))
  | rebind (t : Nat)
  | unmapSync
  /-- Another volume of the same pool seals a chunk. -/
  | foreignSeal (payload : Bytes) (now : Nat)
  /-- SYNCHRONIZE CACHE, and the flush drains it and the worker run. -/
  | fence (d : Nat) (byteOffset len : Nat)
  | drainStart (d : Nat) (first last : PageId)
  | drainPick (d : Nat)
  | drainFlush (d t : Nat) (p : PageId)
  | drainJoin (d : Nat)
  | drainSyncUpload (d : Nat)
  | drainSyncPages (d : Nat)
  | drainSyncFail (d : Nat)
  | drainEnd (d : Nat)

def takeMin : Nat → Finset PageId → List PageId
  | 0, _ => []
  | n + 1, s =>
    match s.min with
    | some p => p :: takeMin n (s.erase p)
    | none => []

def Drain.batch (d : Drain) (cfg : VolumeConfig) (dirty : Finset PageId) : List PageId :=
  takeMin (max cfg.maxConcurrentFlushes 1) (dirty.filter (fun p => d.first ≤ p ∧ p ≤ d.last))

def Drain.trailing (d : Drain) : DrainPhase := if d.wroteAny then .syncUpload else .done

namespace CacheState

variable {H : Type} [DecidableEq H] (cr : Crates H) (cfg : VolumeConfig) {s s' : CacheState H}

def opened (pages : PageIndex H) (upload : UploadIndexFile) (pool : ChunkPool H) : CacheState H :=
  ⟨.new, pages, upload, pool, ∅, ∅, ∅, ∅⟩

section

variable (s : CacheState H)

def content (p : PageId) : Option Bytes := resolve cr cfg s.pool p (s.pages.getEntry p)

def report (drains : Table Drain) (d : Option Nat) (f : Drain → Drain) : Table Drain :=
  match d with
  | some d => drains.alter d f
  | none => drains

/-- The pool file, the record, then the `LocalOnly` flag. -/
def sealPage (w : WriteBack) (salt : UInt64) (now : Nat) : CacheState H :=
  let e := sealEntry cr cfg w.page salt w.bytes
  { s with
    pool := s.pool.insertBytes e.hash (sealPayload cr cfg w.page salt w.bytes) now
    pages := s.pages.setUnsyncedSalted w.page e
    upload := s.upload.setUnsynced w.page .localOnly }

/-- Clean if the version still matches (`flush_one`), or dropped (`evict_to_fit`). -/
def recheck (c : CacheInner) (w : WriteBack) : CacheInner :=
  match c.view w.page with
  | some e =>
    if e.version = w.version then (if w.drain.isSome then c.markClean w.page else c.dropEntry w.page) else c
  | none =>
    if w.drain.isSome then c
    else
      let c := c.lruUnlink w.page
      { c with dirty := c.dirty.erase w.page }

def rebindPage (r : Rebind H) (target : Option (PageEntry H)) : CacheState H :=
  if r.unmap then { s with pages := s.pages.clearUnsynced r.page }
  else
    { s with
      pages := match target with
        | some e => s.pages.setSalted r.page e
        | none => s.pages.clear r.page
      upload := s.upload.set r.page .uploaded }

def startDrain (d : Nat) (first last : PageId) : Option (CacheState H) :=
  match s.drains.lookup d with
  | some _ => none
  | none => some { s with drains := s.drains.insert d ⟨first, last, [], false, false, .pick⟩ }

def withDrain (d : Nat) (ph : DrainPhase) (f : Drain → CacheState H) : Option (CacheState H) :=
  (s.drains.lookup d).bind fun x => if x.phase = ph then some (f x) else none

def setDrain (d : Nat) (x : Drain) : CacheState H := { s with drains := s.drains.insert d x }

def capture (t : Nat) (p : PageId) (bytes : Bytes) (version : UInt64) (drain : Option Nat) :
    CacheState H := { s with wbs := s.wbs.insert t ⟨p, bytes, version, drain, false⟩ }

def step : CacheAct H → Option (CacheState H)
  | .install p bytes =>
    if bytes.length = cfg.pageSize then some { s with inner := s.inner.installFullPage p bytes } else none
  | .modify p offset data =>
    (s.inner.view p).bind (fun e =>
      if offset + data.length ≤ e.bytes.length then some { s with inner := s.inner.modifyPage p offset data } else none)
  | .acquire t p =>
    match s.inner.view p with
    | some _ => some { s with inner := s.inner.lruTouch p }
    | none =>
      -- a page with a load in flight has its leader; this caller waits and tries again
      if s.loads.All (fun _ l => l.page ≠ p) ∧ s.loads.lookup t = none
      then some { s with loads := s.loads.insert t ⟨p, none⟩ } else none
  | .fetch t =>
    (s.loads.lookup t).bind (fun l =>
      (s.content cr cfg l.page).bind (fun bytes =>
        if l.fetched = none ∧ bytes.length = cfg.pageSize
        then some { s with loads := s.loads.insert t ⟨l.page, some (s.pages.getEntry l.page, bytes)⟩ } else none))
  | .insertPage t =>
    (s.loads.lookup t).bind (fun l =>
      l.fetched.bind (fun x =>
        some { s with
          inner := if (s.inner.view l.page).isSome then s.inner.lruTouch l.page else s.inner.insertClean l.page x.2
          loads := s.loads.erase t }))
  | .loadFail t => (s.loads.lookup t).bind fun _ => some { s with loads := s.loads.erase t }
  | .evict t wanted =>
    match s.inner.evictStep cfg.budgetPages wanted with
    | .done => some s
    | .cleaned c => some { s with inner := c }
    | .drift c => some { s with inner := c }
    | .dirty p bytes version => if s.wbs.lookup t = none then some (s.capture t p bytes version none) else none
  | .sealPage t salt now =>
    (s.wbs.lookup t).bind (fun w =>
      if w.isSealed = false ∧ accepts cfg w.page w.bytes
      then some { s.sealPage cr cfg w salt now with wbs := s.wbs.insert t { w with isSealed := true } } else none)
  | .sealFail t =>
    (s.wbs.lookup t).bind (fun w =>
      if w.isSealed = false
      then some { s with wbs := s.wbs.erase t, drains := report s.drains w.drain (fun x => { x with failed := true }) }
      else none)
  | .abort t =>
    -- the upload channel is closed: the record stays, the flag is set back, the caller gets the error
    (s.wbs.lookup t).bind (fun w =>
      if w.isSealed = true
      then some { s with
        upload := s.upload.set w.page .uploaded
        wbs := s.wbs.erase t
        drains := report s.drains w.drain (fun x => { x with failed := true }) }
      else none)
  | .commit t =>
    (s.wbs.lookup t).bind (fun w =>
      if w.isSealed = true
      then some { s with
        inner := recheck s.inner w
        wbs := s.wbs.erase t
        drains := report s.drains w.drain (fun x => { x with wroteAny := true }) }
      else none)
  | .unmapDrop t p =>
    if s.rebinds.lookup t = none
    then some { s with inner := s.inner.dropEntry p, rebinds := s.rebinds.insert t ⟨p, true, some none⟩ } else none
  | .cloneDrop t p =>
    if s.rebinds.lookup t = none
    then some { s with inner := s.inner.dropEntry p, rebinds := s.rebinds.insert t ⟨p, false, none⟩ } else none
  | .cloneGet t src =>
    (s.rebinds.lookup t).bind (fun r =>
      if r.target.isNone ∧ src ≠ r.page ∧
        rebindIsSound cfg.encryptionKey.isSome cfg.dekUuid src cfg.encryptionKey.isSome cfg.dekUuid r.page = true
      then some { s with rebinds := s.rebinds.insert t { r with target := some (s.pages.getEntry src) } } else none)
  | .cloneGetFrom t rec =>
    -- a source page of another volume of the same pool, sound to bind here
    (s.rebinds.lookup t).bind (fun r =>
      if r.target.isNone ∧ (resolve cr cfg s.pool r.page rec).isSome
      then some { s with rebinds := s.rebinds.insert t { r with target := some rec } } else none)
  | .rebind t =>
    (s.rebinds.lookup t).bind (fun r =>
      r.target.bind (fun rec => some { s.rebindPage r rec with rebinds := s.rebinds.erase t }))
  | .unmapSync => some { s with pages := s.pages.sync }
  | .foreignSeal payload now => some { s with pool := s.pool.insertBytes (cr.blake3 payload) payload now }
  | .fence d byteOffset len =>
    match cfg.syncAfter with
    | .memory => some s
    | _ =>
      match pageRangeForBytes cfg.pageSize byteOffset len with
      | some (first, last) => s.startDrain d first last
      | none => some s
  | .drainStart d first last => s.startDrain d first last
  | .drainPick d =>
    s.withDrain d .pick (fun x =>
      match x.batch cfg s.inner.dirty with
      | [] => s.setDrain d { x with phase := x.trailing }
      | batch => s.setDrain d { x with todo := batch, phase := .flush })
  | .drainFlush d t p =>
    (s.drains.lookup d).bind (fun x =>
      if x.phase = .flush ∧ p ∈ x.todo ∧ s.wbs.lookup t = none then
        let s := s.setDrain d { x with todo := x.todo.erase p }
        match s.inner.view p with
        | some ⟨bytes, .dirty, version⟩ => some (s.capture t p bytes version (some d))
        | _ => some s
      else none)
  | .drainJoin d =>
    (s.drains.lookup d).bind (fun x =>
      if x.phase = .flush ∧ x.todo = [] ∧ s.wbs.All fun _ w => w.drain ≠ some d
      then some (s.setDrain d { x with phase := if x.failed then x.trailing else .pick }) else none)
  | .drainSyncUpload d =>
    s.withDrain d .syncUpload fun x => { s.setDrain d { x with phase := .syncPages } with upload := s.upload.sync }
  | .drainSyncPages d =>
    s.withDrain d .syncPages fun x => { s.setDrain d { x with phase := .done } with pages := s.pages.sync }
  | .drainSyncFail d =>
    (s.drains.lookup d).bind (fun x =>
      if x.phase = .syncUpload ∨ x.phase = .syncPages
      then some (s.setDrain d { x with failed := true, phase := .done }) else none)
  | .drainEnd d => s.withDrain d .done fun _ => { s with drains := s.drains.erase d }

end

inductive Moves (s : CacheState H) : CacheAct H → CacheState H → Prop
  | install {p bytes} (hlen : bytes.length = cfg.pageSize) :
      Moves s (.install p bytes) { s with inner := s.inner.dirtyEntry p bytes }
  | modify {p offset data e} (he : s.inner.view p = some e) (hlen : offset + data.length ≤ e.bytes.length) :
      Moves s (.modify p offset data) { s with inner := s.inner.modifyPage p offset data }
  | hit {t p e} (he : s.inner.view p = some e) : Moves s (.acquire t p) { s with inner := s.inner.lruTouch p }
  | lead {t p} (he : s.inner.view p = none) (hl : s.loads.All (fun _ l => l.page ≠ p)) (ht : s.loads.lookup t = none) :
      Moves s (.acquire t p) { s with loads := s.loads.insert t ⟨p, none⟩ }
  | fetch {t l bytes} (hl : s.loads.lookup t = some l)
      (hb : s.content cr cfg l.page = some bytes) (hf : l.fetched = none) :
      Moves s (.fetch t) { s with loads := s.loads.insert t ⟨l.page, some (s.pages.getEntry l.page, bytes)⟩ }
  | insertLost {t l x} (hl : s.loads.lookup t = some l)
      (hx : l.fetched = some x) (he : (s.inner.view l.page).isSome = true) :
      Moves s (.insertPage t) { s with inner := s.inner.lruTouch l.page, loads := s.loads.erase t }
  | insertPage {t l x} (hl : s.loads.lookup t = some l) (hx : l.fetched = some x) (he : s.inner.view l.page = none) :
      Moves s (.insertPage t) { s with inner := s.inner.insertClean l.page x.2, loads := s.loads.erase t }
  | loadFail {t} : Moves s (.loadFail t) { s with loads := s.loads.erase t }
  | evictDone {t wanted} : Moves s (.evict t wanted) s
  | evictClean {t wanted p e} (he : s.inner.view p = some e) (hc : e.state = .clean) :
      Moves s (.evict t wanted) { s with inner := s.inner.dropEntry p }
  | evictDirty {t wanted p e} (he : s.inner.view p = some e) (hd : e.state = .dirty)
      (hpick : s.inner.evictStep cfg.budgetPages wanted = .dirty p e.bytes e.version) (ht : s.wbs.lookup t = none) :
      Moves s (.evict t wanted) (s.capture t p e.bytes e.version none)
  | sealPage {t salt now w} (hw : s.wbs.lookup t = some w)
      (hns : w.isSealed = false) (hacc : accepts cfg w.page w.bytes) :
      Moves s (.sealPage t salt now)
        { s.sealPage cr cfg w salt now with wbs := s.wbs.insert t { w with isSealed := true } }
  | sealFail {t w} (hw : s.wbs.lookup t = some w) (hns : w.isSealed = false) : Moves s (.sealFail t)
        { s with wbs := s.wbs.erase t, drains := report s.drains w.drain (fun x => { x with failed := true }) }
  | abort {t w} (hw : s.wbs.lookup t = some w) (hsl : w.isSealed = true) : Moves s (.abort t) { s with
        upload := s.upload.set w.page .uploaded
        wbs := s.wbs.erase t
        drains := report s.drains w.drain (fun x => { x with failed := true }) }
  | commit {t w} (hw : s.wbs.lookup t = some w) (hsl : w.isSealed = true) : Moves s (.commit t) { s with
        inner := recheck s.inner w
        wbs := s.wbs.erase t
        drains := report s.drains w.drain (fun x => { x with wroteAny := true }) }
  | unmapDrop {t p} (ht : s.rebinds.lookup t = none) : Moves s (.unmapDrop t p)
        { s with inner := s.inner.dropEntry p, rebinds := s.rebinds.insert t ⟨p, true, some none⟩ }
  | cloneDrop {t p} (ht : s.rebinds.lookup t = none) :
      Moves s (.cloneDrop t p) { s with inner := s.inner.dropEntry p, rebinds := s.rebinds.insert t ⟨p, false, none⟩ }
  | cloneGet {t src r} (hr : s.rebinds.lookup t = some r) (hn : r.target = none)
      (hne : src ≠ r.page) (hsound : rebindIsSound cfg.encryptionKey.isSome cfg.dekUuid src cfg.encryptionKey.isSome
        cfg.dekUuid r.page = true) :
      Moves s (.cloneGet t src)
        { s with rebinds := s.rebinds.insert t { r with target := some (s.pages.getEntry src) } }
  | cloneGetFrom {t rec r} (hr : s.rebinds.lookup t = some r)
      (hn : r.target = none) (hres : (resolve cr cfg s.pool r.page rec).isSome = true) :
      Moves s (.cloneGetFrom t rec) { s with rebinds := s.rebinds.insert t { r with target := some rec } }
  | rebind {t r rec} (hr : s.rebinds.lookup t = some r) (htarget : r.target = some rec) :
      Moves s (.rebind t) { s.rebindPage r rec with rebinds := s.rebinds.erase t }
  | unmapSync : Moves s .unmapSync { s with pages := s.pages.sync }
  | foreignSeal {payload now} :
      Moves s (.foreignSeal payload now) { s with pool := s.pool.insertBytes (cr.blake3 payload) payload now }
  | fenceNone {d byteOffset len}
      (hn : cfg.syncAfter = .memory ∨ pageRangeForBytes cfg.pageSize byteOffset len = none) :
      Moves s (.fence d byteOffset len) s
  | fence {d byteOffset len first last}
      (hr : pageRangeForBytes cfg.pageSize byteOffset len = some (first, last)) (hd : s.drains.lookup d = none) :
      Moves s (.fence d byteOffset len) (s.setDrain d ⟨first, last, [], false, false, .pick⟩)
  | drainStart {d first last} (hd : s.drains.lookup d = none) :
      Moves s (.drainStart d first last) (s.setDrain d ⟨first, last, [], false, false, .pick⟩)
  | drainEmpty {d x} (hx : s.drains.lookup d = some x) (hph : x.phase = .pick) (hb : x.batch cfg s.inner.dirty = []) :
      Moves s (.drainPick d) (s.setDrain d { x with phase := x.trailing })
  | drainPick {d x} (hx : s.drains.lookup d = some x) (hph : x.phase = .pick) (hb : x.batch cfg s.inner.dirty ≠ []) :
      Moves s (.drainPick d) (s.setDrain d { x with todo := x.batch cfg s.inner.dirty, phase := .flush })
  | drainSkip {d t p x} (hx : s.drains.lookup d = some x) (hph : x.phase = .flush)
      (hp : p ∈ x.todo) (he : ∀ e, s.inner.view p = some e → e.state = .clean) :
      Moves s (.drainFlush d t p) (s.setDrain d { x with todo := x.todo.erase p })
  | drainFlush {d t p x e} (hx : s.drains.lookup d = some x)
      (hph : x.phase = .flush) (hp : p ∈ x.todo) (ht : s.wbs.lookup t = none) (he : s.inner.view p = some e)
      (hd : e.state = .dirty) :
      Moves s (.drainFlush d t p)
        ((s.setDrain d { x with todo := x.todo.erase p }).capture t p e.bytes e.version (some d))
  | drainJoin {d x} (hx : s.drains.lookup d = some x) (hph : x.phase = .flush) (htodo : x.todo = [])
      (hw : s.wbs.All (fun _ w => w.drain ≠ some d)) :
      Moves s (.drainJoin d) (s.setDrain d { x with phase := if x.failed then x.trailing else .pick })
  | drainSyncUpload {d x} (hx : s.drains.lookup d = some x) (hph : x.phase = .syncUpload) :
      Moves s (.drainSyncUpload d) { s.setDrain d { x with phase := .syncPages } with upload := s.upload.sync }
  | drainSyncPages {d x} (hx : s.drains.lookup d = some x) (hph : x.phase = .syncPages) :
      Moves s (.drainSyncPages d) { s.setDrain d { x with phase := .done } with pages := s.pages.sync }
  | drainSyncFail {d x} (hx : s.drains.lookup d = some x) (hph : x.phase = .syncUpload ∨ x.phase = .syncPages) :
      Moves s (.drainSyncFail d) (s.setDrain d { x with failed := true, phase := .done })
  | drainEnd {d x} (hx : s.drains.lookup d = some x) (hph : x.phase = .done) :
      Moves s (.drainEnd d) { s with drains := s.drains.erase d }

def machine : Machine (CacheState H) (CacheAct H) := ⟨fun s a => s.step cr cfg a⟩

variable {cr cfg}

section

omit [DecidableEq H]

theorem startDrain_some {d : Nat} {first last : PageId} (h : s.startDrain d first last = some s') :
    s.drains.lookup d = none ∧ s' = s.setDrain d ⟨first, last, [], false, false, .pick⟩ := by
  unfold startDrain at h
  cases hd : s.drains.lookup d with
  | some x => rw [hd] at h; cases h
  | none => rw [hd] at h; exact ⟨rfl, (some.inj h).symm⟩

theorem withDrain_some {d : Nat} {ph : DrainPhase} {f : Drain → CacheState H} (h : s.withDrain d ph f = some s') :
    ∃ x, s.drains.lookup d = some x ∧ x.phase = ph ∧ s' = f x := by
  simp only [withDrain, bind_eq_some_iff, ite_none_right_eq_some, some.injEq] at h
  obtain ⟨x, hx, hph, rfl⟩ := h
  exact ⟨x, hx, hph, rfl⟩

end

theorem step_moves {a : CacheAct H} (h : s.step cr cfg a = some s') : Moves cr cfg s a s' := by
  cases a <;> simp only [step, bind_eq_some_iff, ite_none_right_eq_some, some.injEq,
    isNone_iff_eq_none] at h
  case acquire t p =>
    cases he : s.inner.view p with
    | some e =>
      rw [he] at h
      cases h
      exact .hit he
    | none =>
      rw [he] at h
      simp only [ite_none_right_eq_some, some.injEq] at h
      obtain ⟨⟨hl, ht⟩, rfl⟩ := h
      exact .lead he hl ht
  case insertPage t =>
    obtain ⟨l, hl, x, hx, rfl⟩ := h
    cases he : s.inner.view l.page with
    | some e => exact .insertLost hl hx (by rw [he]; rfl)
    | none => exact .insertPage hl hx he
  case evict t wanted =>
    rcases s.inner.evictStep_cases cfg.budgetPages wanted with hs | ⟨p, e, he, hc, hs⟩ | ⟨p, e, he, hd, hs⟩ <;> rw [hs] at h
    · cases h
      exact .evictDone
    · cases h
      exact .evictClean he hc
    · simp only [ite_none_right_eq_some, some.injEq] at h
      obtain ⟨ht, rfl⟩ := h
      exact .evictDirty he hd hs ht
  case fence d byteOffset len =>
    split at h
    next hsa => exact some.inj h ▸ .fenceNone (.inl hsa)
    · split at h
      next hr =>
        obtain ⟨hd, rfl⟩ := startDrain_some h
        exact .fence hr hd
      next hr => exact some.inj h ▸ .fenceNone (.inr hr)
  case drainStart d first last =>
    obtain ⟨hd, rfl⟩ := startDrain_some h
    exact .drainStart hd
  case drainPick d =>
    obtain ⟨x, hx, hph, rfl⟩ := withDrain_some h
    split
    next hb => exact .drainEmpty hx hph hb
    next hb => exact .drainPick hx hph hb
  case drainFlush d t p =>
    obtain ⟨x, hx, ⟨hph, hp, ht⟩, h⟩ := h
    split at h
    next he => exact some.inj h ▸ .drainFlush hx hph hp ht he rfl
    next hne =>
      refine some.inj h ▸ .drainSkip hx hph hp fun e he => ?_
      obtain ⟨bytes, state, version⟩ := e
      cases state with
      | clean => rfl
      | dirty => exact (hne _ _ he).elim
  case drainSyncUpload | drainSyncPages | drainEnd =>
    obtain ⟨x, hx, hph, rfl⟩ := withDrain_some h
    constructor <;> assumption
  -- the others have one outcome
  all_goals
    try casesm* ∃ _, _, _ ∧ _
    subst_vars
    constructor <;> assumption

theorem machine_moves {a : CacheAct H} (h : (machine cr cfg).step s a = some s') : Moves cr cfg s a s' := step_moves h

end CacheState
end Thur

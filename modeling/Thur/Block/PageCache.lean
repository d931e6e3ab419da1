import Thur.Lib.Spans
import Thur.Block.CacheCoherence
/-!
# PageCache — the operations of the page cache, each run to its end

`CacheMachine` interleaves the operations at their lock boundaries; here they run one at a time, as functions on the
same state. What the world decides (IV salts, file times, the upload worker's progress, the order of a batch of flushes)
comes from an `Environment`, one draw per tick. `none` is an error: `Holds.…` says of each operation that there is none
inside the volume.
-/

namespace Thur

open Function (update update_apply update_of_ne)
open CacheInner Option List

structure Environment where
  salt : Nat → UInt64
  now : Nat → Nat
  uploads : Nat → UploadIndexFile → UploadIndexFile
  order : Nat → List PageId → List PageId
  order_perm : ∀ n batch, (order n batch).Perm batch

structure PageCache (H : Type) where
  state : CacheState H
  tick : Nat

namespace PageCache

open CacheState

variable {H : Type} [DecidableEq H] (cr : Crates H) (cfg : VolumeConfig) (env : Environment) {p : PageId}
  {bytes data : Bytes} {offset : Nat}

def setInner (s : PageCache H) (c : CacheInner) : PageCache H := { s with state := { s.state with inner := c } }

def writeBack (s : PageCache H) (w : WriteBack) : Option (PageCache H) :=
  if accepts cfg w.page w.bytes then
    let sealed := s.state.sealPage cr cfg w (env.salt s.tick) (env.now s.tick)
    some ⟨{ sealed with inner := recheck sealed.inner w }, s.tick + 1⟩
  else none

def evictLoop (wanted : Nat) : Nat → PageCache H → Option (PageCache H)
  | 0, _ => none
  | fuel + 1, s =>
    match s.state.inner.evictStep cfg.budgetPages wanted with
    | .done => some s
    | .cleaned c => evictLoop wanted fuel (s.setInner c)
    | .drift c => evictLoop wanted fuel (s.setInner c)
    | .dirty p bytes version =>
      (writeBack cr cfg env s ⟨p, bytes, version, none, false⟩).bind (evictLoop wanted fuel)

section

variable (s : PageCache H)

def evictToFit (wanted : Nat) : Option (PageCache H) :=
  evictLoop cr cfg env wanted (s.state.inner.pages.entries.length + 1) s

def loadPageMiss (p : PageId) : Option (PageCache H × Bytes) :=
  (s.state.content cr cfg p).bind (fun bytes =>
    if bytes.length = cfg.pageSize then
      (evictToFit cr cfg env s 1).map (fun s =>
        match s.state.inner.view p with
        | some e => (s.setInner (s.state.inner.lruTouch p), e.bytes)
        | none => (s.setInner (s.state.inner.insertClean p bytes), bytes))
    else none)

def acquirePage (p : PageId) : Option (PageCache H × Bytes) :=
  match s.state.inner.view p with
  | some e => some (s.setInner (s.state.inner.lruTouch p), e.bytes)
  | none => loadPageMiss cr cfg env s p

def installFullPage (s : PageCache H) (p : PageId) (bytes : Bytes) : Option (PageCache H) :=
  if bytes.length = cfg.pageSize then
    (if (s.state.inner.view p).isSome then some s else evictToFit cr cfg env s 1).map (fun s =>
      s.setInner (s.state.inner.installFullPage p bytes))
  else none

def spliceCached (p : PageId) (offset : Nat) (data : Bytes) : Option (PageCache H) :=
  (s.state.inner.view p).map fun _ => s.setInner (s.state.inner.modifyPage p offset data)

def modifyPage (p : PageId) (offset : Nat) (data : Bytes) : Option (PageCache H) :=
  if (s.state.inner.view p).isSome then s.spliceCached p offset data
  else (acquirePage cr cfg env s p).bind fun x => x.1.spliceCached p offset data

def dropAndRebind (r : Rebind H) (target : Option (PageEntry H)) : PageCache H :=
  { s with state := { s.state.rebindPage r target with inner := s.state.inner.dropEntry r.page } }

def unmapFullPage (p : PageId) : PageCache H := s.dropAndRebind ⟨p, true, some none⟩ none

/-! ## Byte ranges -/

def pageIdForOffset (byteOffset : Nat) : Option PageId :=
  if byteOffset / cfg.pageSize < UInt32.size then some (UInt32.ofNat (byteOffset / cfg.pageSize)) else none

def readSpan (x : PageCache H × Bytes) (cursor chunk : Nat) : Option (PageCache H × Bytes) :=
  (pageIdForOffset cfg cursor).bind (fun p =>
    (acquirePage cr cfg env x.1 p).map (fun y => (y.1, x.2 ++ y.2.field (cursor % cfg.pageSize) chunk)))

def readBytes (byteOffset len : Nat) : Option (PageCache H × Bytes) :=
  Spans.spans cfg.pageSize (readSpan cr cfg env) len byteOffset len (s, [])

def writeSpan (byteOffset : Nat) (data : Bytes) (s : PageCache H) (cursor chunk : Nat) : Option (PageCache H) :=
  (pageIdForOffset cfg cursor).bind (fun p =>
    let slice := data.field (cursor - byteOffset) chunk
    if cursor % cfg.pageSize = 0 ∧ chunk = cfg.pageSize then installFullPage cr cfg env s p slice
    else modifyPage cr cfg env s p (cursor % cfg.pageSize) slice)

def writeBytes (byteOffset : Nat) (data : Bytes) : Option (PageCache H) :=
  Spans.spans cfg.pageSize (writeSpan cr cfg env byteOffset data) data.length byteOffset data.length s

/-- After a mismatch the rest of the range is not looked at. -/
def compareSpan (byteOffset : Nat) (expected : Bytes) (x : PageCache H × Bool) (cursor chunk : Nat) :
    Option (PageCache H × Bool) :=
  if x.2 then
    (pageIdForOffset cfg cursor).bind (fun p =>
      (acquirePage cr cfg env x.1 p).map (fun y =>
        (y.1, decide (y.2.field (cursor % cfg.pageSize) chunk = expected.field (cursor - byteOffset) chunk))))
  else some x

def compareAndWriteBytes (byteOffset : Nat) (expected new : Bytes) : Option (PageCache H × Bool) :=
  if expected = [] then some (s, true)
  else
    (Spans.spans cfg.pageSize (compareSpan cr cfg env byteOffset expected) expected.length byteOffset expected.length
      (s, true)).bind (fun x =>
        if x.2 then (writeBytes cr cfg env x.1 byteOffset new).map (fun s => (s, true)) else some x)

end

def unmapSpan (x : PageCache H × Bool) (cursor chunk : Nat) : Option (PageCache H × Bool) :=
  (pageIdForOffset cfg cursor).bind (fun p =>
    if cursor % cfg.pageSize = 0 ∧ chunk = cfg.pageSize then some (x.1.unmapFullPage p, true)
    else (modifyPage cr cfg env x.1 p (cursor % cfg.pageSize) (replicate chunk 0)).map (fun s => (s, x.2)))

def syncPages (s : PageCache H) : PageCache H := { s with state := { s.state with pages := s.state.pages.sync } }

def unmapBytes (s : PageCache H) (byteOffset len : Nat) : Option (PageCache H) :=
  (Spans.spans cfg.pageSize (unmapSpan cr cfg env) len byteOffset len (s, false)).map (fun x =>
    if x.2 then x.1.syncPages else x.1)

/-! ## Clones -/

def copyPage (s : PageCache H) (src dst : PageId) : Option (PageCache H) :=
  (acquirePage cr cfg env s src).bind fun x => installFullPage cr cfg env x.1 dst x.2

def cloneOnePage (s : PageCache H) (src dst : PageId) : Option (PageCache H) :=
  if src = dst then some s
  else
    match s.state.inner.view src with
    | some ⟨bytes, .dirty, _⟩ => installFullPage cr cfg env s dst bytes
    | _ =>
      let s : PageCache H := ⟨{ s.state with upload := env.uploads s.tick s.state.upload }, s.tick + 1⟩
      if s.state.upload.read src ≠ .uploaded then copyPage cr cfg env s src dst
      else if rebindIsSound cfg.encryptionKey.isSome cfg.dekUuid src cfg.encryptionKey.isSome cfg.dekUuid dst then
        some (s.dropAndRebind ⟨dst, false, none⟩ (s.state.pages.getEntry src))
      else
        match s.state.pages.getEntry src with
        | none => some (s.dropAndRebind ⟨dst, false, none⟩ none)
        | some _ => copyPage cr cfg env s src dst

def clonePages : List (Nat × Nat) → PageCache H → Option (PageCache H)
  | [], s => some s
  | (src, dst) :: rest, s =>
    if src < UInt32.size ∧ dst < UInt32.size
    then (cloneOnePage cr cfg env s (UInt32.ofNat src) (UInt32.ofNat dst)).bind (clonePages rest) else none

def clonePageRange (s : PageCache H) (srcByteOffset dstByteOffset len : Nat) : Option (PageCache H) :=
  clonePages cr cfg env ((range (len / cfg.pageSize)).map (fun i =>
    (srcByteOffset / cfg.pageSize + i, dstByteOffset / cfg.pageSize + i))) s

/-! ## Flushes -/

def flushOne (s : PageCache H) (p : PageId) : Option (PageCache H × Bool) :=
  match s.state.inner.view p with
  | some ⟨bytes, .dirty, version⟩ => (writeBack cr cfg env s ⟨p, bytes, version, some 0, false⟩).map fun s => (s, true)
  | _ => some (s, false)

def flushBatch : List PageId → PageCache H × Bool → Option (PageCache H × Bool)
  | [], x => some x
  | p :: rest, x => (flushOne cr cfg env x.1 p).bind fun y => flushBatch rest (y.1, x.2 || y.2)

def flushLoop (first last : PageId) : Nat → PageCache H × Bool → Option (PageCache H × Bool)
  | 0, _ => none
  | fuel + 1, x =>
    match Drain.batch ⟨first, last, [], x.2, false, .pick⟩ cfg x.1.state.inner.dirty with
    | [] => some x
    | batch =>
      (flushBatch cr cfg env (env.order x.1.tick batch) ({ x.1 with tick := x.1.tick + 1 }, x.2)).bind
        (flushLoop first last fuel)

def pageIndexSync (s : PageCache H) : PageCache H :=
  { s with state := { s.state with upload := s.state.upload.sync, pages := s.state.pages.sync } }

/-- Every batch but the last empties some of the dirty set. -/
def flushPagesInRange (s : PageCache H) (first last : PageId) : Option (PageCache H) :=
  (flushLoop cr cfg env first last (s.state.inner.dirty.card + 1) (s, false)).map (fun x =>
    if x.2 then x.1.pageIndexSync else x.1)

/-- `flush_all` as far as the pages go. The runtime counters, `wait_for_range` and the retry before `UploadsFailed` come
after the flush and touch neither the cache nor the records, so the pages are these whichever way it returns. -/
def flushAll (s : PageCache H) : Option (PageCache H) :=
  flushPagesInRange cr cfg env s 0 (UInt32.ofNat (UInt32.size - 1))

/-! ## What the pages hold -/

/-- A cached page has the bytes `f p` in its entry, one that is not dirty behind its record. -/
structure Holds (s : PageCache H) (f : PageId → Bytes) : Prop where
  pool : PoolOk cr s.state.pool
  dirty : s.state.inner.DirtyExact
  length : ∀ p : PageId, p.toNat ≤ cfg.lastPageId → (f p).length = cfg.pageSize
  cached : ∀ p v, s.state.inner.view p = some v → p.toNat ≤ cfg.lastPageId ∧ v.bytes = f p
  stored : ∀ p : PageId, p.toNat ≤ cfg.lastPageId → p ∉ s.state.inner.dirty → s.state.content cr cfg p = some (f p)

variable {cr cfg}
variable {s : PageCache H} {f : PageId → Bytes}

section

variable (h : Holds cr cfg s f)
include h

section

omit [DecidableEq H]

theorem Holds.congr {g : PageId → Bytes} (hg : ∀ p : PageId, p.toNat ≤ cfg.lastPageId → f p = g p) :
    Holds cr cfg s g where
  pool := h.pool
  dirty := h.dirty
  length p hp := hg p hp ▸ h.length p hp
  cached p v hv := ⟨(h.cached p v hv).1, (h.cached p v hv).2.trans (hg p (h.cached p v hv).1)⟩
  stored p hp hd := hg p hp ▸ h.stored p hp hd

theorem Holds.frame {s' : PageCache H} (hpool : s'.state.pool = s.state.pool)
    (hpages : ∀ p, s'.state.pages.getEntry p = s.state.pages.getEntry p)
    (hview : s'.state.inner.view = s.state.inner.view) (hdirty : s'.state.inner.dirty = s.state.inner.dirty) :
    Holds cr cfg s' f where
  pool := hpool ▸ h.pool
  dirty p := by
    rw [hdirty, hview]
    exact h.dirty p
  length := h.length
  cached p v hv := h.cached p v (hview ▸ hv)
  stored p hp hd := by
    rw [content, hpool, hpages]
    exact h.stored p hp (hdirty ▸ hd)

theorem Holds.lruTouch (p : PageId) :
    Holds cr cfg (s.setInner (s.state.inner.lruTouch p)) f :=
  h.frame rfl (fun _ => rfl) (view_lruTouch _ _) (dirty_lruTouch _ _)

theorem Holds.dropClean (hp : p ∉ s.state.inner.dirty) :
    Holds cr cfg (s.setInner (s.state.inner.dropEntry p)) f where
  pool := h.pool
  dirty := h.dirty.dropEntry p
  length := h.length
  cached q v hv := by
    change (s.state.inner.dropEntry p).view q = some v at hv
    rw [view_dropEntry] at hv
    split at hv
    · cases hv
    · exact h.cached q v hv
  stored q hq hd := by
    change q ∉ (s.state.inner.dropEntry p).dirty at hd
    rw [h.dirty.dirty_dropEntry, Finset.erase_eq_of_notMem hp] at hd
    exact h.stored q hq hd

end

/-- **A write-back changes no page.** -/
theorem Holds.writeBack {w : WriteBack}
    (hw : s.state.inner.view w.page = some ⟨w.bytes, .dirty, w.version⟩) :
    ∃ s', writeBack cr cfg env s w = some s' ∧ Holds cr cfg s' f ∧
      s'.state.inner = if w.drain.isSome then s.state.inner.markClean w.page else s.state.inner.dropEntry w.page := by
  obtain ⟨hlast, hbytes⟩ : w.page.toNat ≤ cfg.lastPageId ∧ w.bytes = f w.page := h.cached _ _ hw
  have hacc : accepts cfg w.page w.bytes := ⟨hbytes ▸ h.length w.page hlast, hlast⟩
  have hinner : recheck s.state.inner w =
      if w.drain.isSome then s.state.inner.markClean w.page else s.state.inner.dropEntry w.page := by
    simp only [recheck, hw, if_true]
  have hdirty : (recheck s.state.inner w).dirty = s.state.inner.dirty.erase w.page := by
    rw [hinner]
    split
    · exact dirty_markClean _ _
    · exact h.dirty.dirty_dropEntry _
  refine ⟨_, if_pos hacc, ⟨?_, ?_, h.length, ?_, ?_⟩, hinner⟩
  · exact h.pool.insertBytes _ _
  · change (recheck s.state.inner w).DirtyExact
    rw [hinner]
    split
    · exact h.dirty.markClean _
    · exact h.dirty.dropEntry _
  · intro p v hv
    change (recheck s.state.inner w).view p = some v at hv
    rcases view_recheck s.state.inner w p with he | ⟨-, e, he, -, hs | hs⟩
    · exact h.cached p v (he ▸ hv)
    · rw [hs] at hv
      cases hv
      exact h.cached p e he
    · rw [hs] at hv
      cases hv
  · intro p hp hd
    change p ∉ (recheck s.state.inner w).dirty at hd
    change (s.state.sealPage cr cfg w _ _).content cr cfg p = _
    rw [hdirty, Finset.mem_erase, not_and] at hd
    by_cases hpw : p = w.page
    · rw [hpw, content_sealPage h.pool, hbytes]
    · exact content_sealPage_ne _ _ (Ne.symm hpw) (h.stored p hp (hd hpw))

end

theorem Holds.evictLoop (wanted : Nat) : ∀ (fuel : Nat) {s : PageCache H}, Holds cr cfg s f →
    s.state.inner.pages.entries.length < fuel →
    ∃ s', evictLoop cr cfg env wanted fuel s = some s' ∧ Holds cr cfg s' f
  | 0, _, _, hfuel => absurd hfuel (Nat.not_lt_zero _)
  | fuel + 1, s, h, hfuel => by
    rw [PageCache.evictLoop]
    rcases s.state.inner.evictStep_cases cfg.budgetPages wanted with he | ⟨p, v, hv, hc, he⟩ | ⟨p, v, hv, hd, he⟩
    · rw [he]
      exact ⟨s, rfl, h⟩
    · rw [he]
      have hlen := length_dropEntry (p := p) (by rw [hv]; exact some_ne_none v)
      have hclean : p ∉ s.state.inner.dirty := h.dirty.notMem (fun v' hv' hd => by
        cases some.inj (hv.symm.trans hv')
        cases hc.symm.trans hd)
      exact Holds.evictLoop wanted fuel (h.dropClean hclean) (by simp only [setInner]; omega)
    · rw [he]
      obtain ⟨bytes, state, version⟩ := v
      subst hd
      have hlen := length_dropEntry (p := p) (by rw [hv]; exact some_ne_none _)
      obtain ⟨s1, hs1, h1, hinner⟩ := h.writeBack env (w := ⟨p, bytes, version, none, false⟩) hv
      simp only [hs1, bind_some]
      refine Holds.evictLoop wanted fuel h1 ?_
      rw [hinner]
      simp only [isSome_none, Bool.false_eq_true, if_false]
      omega

section

variable (h : Holds cr cfg s f)
include h

theorem Holds.evictToFit (wanted : Nat) :
    ∃ s', evictToFit cr cfg env s wanted = some s' ∧ Holds cr cfg s' f :=
  h.evictLoop env wanted _ (Nat.lt_succ_self _)

section

variable (hp : p.toNat ≤ cfg.lastPageId)
include hp

omit [DecidableEq H] in
theorem Holds.insertClean (hv : s.state.inner.view p = none) :
    Holds cr cfg (s.setInner (s.state.inner.insertClean p (f p))) f where
  pool := h.pool
  dirty := h.dirty.insertClean (f p) hv
  length := h.length
  cached q v hq := by
    change (s.state.inner.insertClean p (f p)).view q = some v at hq
    rw [view_insertClean] at hq
    split at hq
    · next he =>
      cases hq
      rw [he]
      exact ⟨hp, rfl⟩
    · exact h.cached q v hq
  stored q hq hd := by
    change q ∉ (s.state.inner.insertClean p (f p)).dirty at hd
    rw [dirty_insertClean] at hd
    exact h.stored q hq hd

/-- **A page is read as what it holds**, and is cached then. -/
theorem Holds.acquirePage :
    ∃ s', acquirePage cr cfg env s p = some (s', f p) ∧ Holds cr cfg s' f ∧ (s'.state.inner.view p).isSome = true := by
  unfold PageCache.acquirePage
  cases hv : s.state.inner.view p with
  | some v =>
    refine ⟨_, by rw [← (h.cached p v hv).2], h.lruTouch p, ?_⟩
    simp only [setInner, view_lruTouch, hv, isSome_some]
  | none =>
    have hclean : p ∉ s.state.inner.dirty := h.dirty.notMem fun v hv' => by cases hv.symm.trans hv'
    obtain ⟨s1, hs1, h1⟩ := h.evictToFit env 1
    simp only [loadPageMiss, h.stored p hp hclean, bind_some, if_pos (h.length p hp), hs1, map_some]
    cases hv1 : s1.state.inner.view p with
    | some v =>
      refine ⟨_, by rw [← (h1.cached p v hv1).2], h1.lruTouch p, ?_⟩
      simp only [setInner, view_lruTouch, hv1, isSome_some]
    | none =>
      refine ⟨_, rfl, h1.insertClean hp hv1, ?_⟩
      simp only [setInner, view_insertClean, if_true, isSome_some]

omit [DecidableEq H] in
theorem Holds.dirtyEntry (hb : bytes.length = cfg.pageSize) :
    Holds cr cfg (s.setInner (s.state.inner.dirtyEntry p bytes)) (update f p bytes) where
  pool := h.pool
  dirty := h.dirty.dirtyEntry p bytes
  length q hq := by
    rw [update_apply]
    split
    · exact hb
    · exact h.length q hq
  cached q v hq := by
    change (s.state.inner.dirtyEntry p bytes).view q = some v at hq
    rw [view_dirtyEntry] at hq
    rw [update_apply]
    split at hq
    · next he =>
      cases hq
      rw [he, if_pos rfl]
      exact ⟨hp, rfl⟩
    · next he =>
      rw [if_neg he]
      exact h.cached q v hq
  stored q hq hd := by
    change q ∉ (s.state.inner.dirtyEntry p bytes).dirty at hd
    rw [dirty_dirtyEntry, Finset.mem_insert, not_or] at hd
    rw [update_of_ne hd.1]
    exact h.stored q hq hd.2

theorem Holds.installFullPage (hb : bytes.length = cfg.pageSize) :
    ∃ s', installFullPage cr cfg env s p bytes = some s' ∧ Holds cr cfg s' (update f p bytes) := by
  unfold PageCache.installFullPage
  rw [if_pos hb]
  split
  · exact ⟨_, rfl, h.dirtyEntry hp hb⟩
  · obtain ⟨s1, hs1, h1⟩ := h.evictToFit env 1
    rw [hs1]
    exact ⟨_, rfl, h1.dirtyEntry hp hb⟩

end

end

theorem length_splice (h : offset + data.length ≤ bytes.length) :
    (CacheInner.splice bytes offset data).length = bytes.length := by
  simp only [splice, length_append, length_take, length_drop]
  omega

section

variable (h : Holds cr cfg s f)
include h

omit [DecidableEq H] in
theorem Holds.spliceCached (hv : (s.state.inner.view p).isSome = true)
    (hlen : offset + data.length ≤ cfg.pageSize) : ∃ s', spliceCached s p offset data = some s' ∧
      Holds cr cfg s' (update f p (CacheInner.splice (f p) offset data)) := by
  obtain ⟨v, hv⟩ := isSome_iff_exists.1 hv
  obtain ⟨hp, hb⟩ := h.cached p v hv
  have hlen' : (CacheInner.splice (f p) offset data).length = cfg.pageSize := by
    rw [length_splice (by rw [h.length p hp]; exact hlen), h.length p hp]
  refine ⟨_, by rw [PageCache.spliceCached, hv]; rfl, ?_⟩
  rw [CacheInner.modifyPage, bytes_entryOr hv, hb]
  exact h.dirtyEntry hp hlen'

theorem Holds.modifyPage (hp : p.toNat ≤ cfg.lastPageId)
    (hlen : offset + data.length ≤ cfg.pageSize) : ∃ s', modifyPage cr cfg env s p offset data = some s' ∧
      Holds cr cfg s' (update f p (CacheInner.splice (f p) offset data)) := by
  unfold PageCache.modifyPage
  split
  · next hv => exact h.spliceCached hv hlen
  · obtain ⟨s1, hs1, h1, hv1⟩ := h.acquirePage env hp
    rw [hs1]
    exact h1.spliceCached hv1 hlen

omit [DecidableEq H] in
theorem Holds.dropAndRebind {r : Rebind H} {target : Option (PageEntry H)}
    (hu : r.unmap = true → target = none) (hr : resolve cr cfg s.state.pool r.page target = some bytes)
    (hb : bytes.length = cfg.pageSize) : Holds cr cfg (s.dropAndRebind r target) (update f r.page bytes) where
  pool := by
    simp only [PageCache.dropAndRebind, pool_rebindPage]
    exact h.pool
  dirty := h.dirty.dropEntry r.page
  length q hq := by
    rw [update_apply]
    split
    · exact hb
    · exact h.length q hq
  cached q v hq := by
    change (s.state.inner.dropEntry r.page).view q = some v at hq
    rw [view_dropEntry] at hq
    split at hq
    · cases hq
    next hne =>
    rw [update_of_ne hne]
    exact h.cached q v hq
  stored q hq hd := by
    change q ∉ (s.state.inner.dropEntry r.page).dirty at hd
    change resolve cr cfg (s.state.rebindPage r target).pool q ((s.state.rebindPage r target).pages.getEntry q) = _
    rw [pool_rebindPage, getEntry_rebindPage s.state r target hu, update_apply]
    by_cases hqr : q = r.page
    · rw [if_pos hqr.symm, if_pos hqr, hqr]
      exact hr
    · rw [if_neg (Ne.symm hqr), if_neg hqr]
      rw [h.dirty.dirty_dropEntry, Finset.mem_erase, not_and] at hd
      exact h.stored q hq (hd hqr)

omit [DecidableEq H] in
theorem Holds.unmapFullPage (p : PageId) :
    Holds cr cfg (s.unmapFullPage p) (update f p (replicate cfg.pageSize 0)) :=
  h.dropAndRebind (r := ⟨p, true, some none⟩) (fun _ => rfl) rfl (length_replicate)

theorem Holds.copyPage {src dst : PageId} (hs : src.toNat ≤ cfg.lastPageId)
    (hd : dst.toNat ≤ cfg.lastPageId) :
    ∃ s', copyPage cr cfg env s src dst = some s' ∧ Holds cr cfg s' (update f dst (f src)) := by
  obtain ⟨s1, hs1, h1, -⟩ := h.acquirePage env hs
  obtain ⟨s2, hs2, h2⟩ := h1.installFullPage env hd (h.length src hs)
  refine ⟨s2, ?_, h2⟩
  rw [PageCache.copyPage, hs1]
  exact hs2

/-- **A cloned page holds what its source holds.** -/
theorem Holds.cloneOnePage {src dst : PageId} (hs : src.toNat ≤ cfg.lastPageId)
    (hd : dst.toNat ≤ cfg.lastPageId) :
    ∃ s', cloneOnePage cr cfg env s src dst = some s' ∧ Holds cr cfg s' (update f dst (f src)) := by
  unfold PageCache.cloneOnePage
  split
  · next heq =>
    subst heq
    exact ⟨s, rfl, by rwa [Function.update_eq_self]⟩
  next hne =>
  split
  · next bytes version hv =>
    have hb : bytes = f src := (h.cached src _ hv).2
    obtain ⟨s1, hs1, h1⟩ := h.installFullPage env hd (h.length src hs)
    exact ⟨s1, hb ▸ hs1, h1⟩
  next hnd =>
  have hclean : src ∉ s.state.inner.dirty :=
    h.dirty.notMem fun v hv hst => hnd v.bytes v.version (by rw [hv, ← hst])
  set s0 : PageCache H := ⟨{ s.state with upload := env.uploads s.tick s.state.upload }, s.tick + 1⟩
  have h0 : Holds cr cfg s0 f := h.frame rfl (fun _ => rfl) rfl rfl
  have hrec : resolve cr cfg s0.state.pool src (s0.state.pages.getEntry src) = some (f src) := h0.stored src hs hclean
  simp only
  split
  · exact h0.copyPage env hs hd
  split
  · next hsound =>
    -- the record moves to another page, which an unencrypted volume resolves to the same bytes
    refine ⟨_, rfl, h0.dropAndRebind (r := ⟨dst, false, none⟩) (by simp) ?_ (h.length src hs)⟩
    rw [← hrec]
    exact resolve_of_unencrypted (unencrypted_of_rebindIsSound hne hsound) dst src _
  · split
    · next hnone =>
      rw [hnone] at hrec
      exact ⟨_, rfl, h0.dropAndRebind (r := ⟨dst, false, none⟩) (by simp) hrec (h.length src hs)⟩
    · exact h0.copyPage env hs hd

theorem Holds.flushOne (p : PageId) :
    ∃ s' wrote, flushOne cr cfg env s p = some (s', wrote) ∧ Holds cr cfg s' f ∧
      s'.state.inner.dirty = s.state.inner.dirty.erase p := by
  unfold PageCache.flushOne
  split
  · next bytes version hv =>
    obtain ⟨s1, hs1, h1, hinner⟩ := h.writeBack env (w := ⟨p, bytes, version, some 0, false⟩) hv
    refine ⟨s1, true, by rw [hs1]; rfl, h1, ?_⟩
    rw [hinner]
    exact dirty_markClean _ _
  · next hnd =>
    have hclean : p ∉ s.state.inner.dirty :=
      h.dirty.notMem fun v hv hst => hnd v.bytes v.version (by rw [hv, ← hst])
    exact ⟨s, false, rfl, h, (Finset.erase_eq_of_notMem hclean).symm⟩

end

theorem Holds.flushBatch : ∀ (batch : List PageId) {x : PageCache H × Bool}, Holds cr cfg x.1 f →
    ∃ y, flushBatch cr cfg env batch x = some y ∧ Holds cr cfg y.1 f ∧
      ∀ q, q ∈ y.1.state.inner.dirty ↔ q ∈ x.1.state.inner.dirty ∧ q ∉ batch
  | [], x, h => ⟨x, rfl, h, fun q => by simp⟩
  | p :: batch, x, h => by
    obtain ⟨s1, wrote, hs1, h1, hd1⟩ := h.flushOne env p
    obtain ⟨y, hy, h2, hd2⟩ := Holds.flushBatch batch (x := (s1, x.2 || wrote)) h1
    refine ⟨y, by rw [PageCache.flushBatch, hs1]; exact hy, h2, fun q => ?_⟩
    rw [hd2, hd1, Finset.mem_erase, mem_cons]
    tauto

theorem mem_of_mem_takeMin : ∀ {n : Nat} {s : Finset PageId} {p : PageId}, p ∈ takeMin n s → p ∈ s
  | 0, _, _, h => by cases h
  | n + 1, s, p, h => by
    rw [takeMin] at h
    cases hm : s.min with
    | top => rw [hm] at h; cases h
    | coe =>
      rw [hm] at h
      rcases mem_cons.1 h with rfl | h
      · exact Finset.mem_of_min hm
      · exact Finset.mem_of_mem_erase (mem_of_mem_takeMin h)

theorem Holds.flushLoop (first last : PageId) : ∀ (fuel : Nat) {x : PageCache H × Bool}, Holds cr cfg x.1 f →
    x.1.state.inner.dirty.card < fuel → ∃ y, flushLoop cr cfg env first last fuel x = some y ∧ Holds cr cfg y.1 f
  | 0, _, _, hfuel => absurd hfuel (Nat.not_lt_zero _)
  | fuel + 1, x, h, hfuel => by
    rw [PageCache.flushLoop]
    split
    · exact ⟨x, rfl, h⟩
    next batch hne =>
    obtain ⟨p, hp⟩ := exists_mem_of_ne_nil _ hne
    have hdirty : p ∈ x.1.state.inner.dirty := (Finset.mem_filter.1 (mem_of_mem_takeMin hp)).1
    have h0 : Holds cr cfg { x.1 with tick := x.1.tick + 1 } f := h.frame rfl (fun _ => rfl) rfl rfl
    obtain ⟨y, hy, h1, hd⟩ := Holds.flushBatch env (env.order x.1.tick _)
      (x := ({ x.1 with tick := x.1.tick + 1 }, x.2)) h0
    rw [hy]
    refine Holds.flushLoop first last fuel h1 ?_
    -- the batch is not empty, so the dirty set lost a page
    have hlt : y.1.state.inner.dirty.card < x.1.state.inner.dirty.card := by
      refine Finset.card_lt_card (Finset.ssubset_iff_subset_ne.2 ⟨fun q hq => ((hd q).1 hq).1, fun heq => ?_⟩)
      rw [← heq, hd p] at hdirty
      exact hdirty.2 ((env.order_perm _ _).mem_iff.2 hp)
    omega

theorem Holds.flushPagesInRange (h : Holds cr cfg s f) (first last : PageId) :
    ∃ s', flushPagesInRange cr cfg env s first last = some s' ∧ Holds cr cfg s' f := by
  obtain ⟨y, hy, h1⟩ := Holds.flushLoop env first last (s.state.inner.dirty.card + 1) (x := (s, false)) h
    (Nat.lt_succ_self _)
  rw [PageCache.flushPagesInRange, hy]
  refine ⟨_, rfl, ?_⟩
  dsimp only
  split
  · exact h1.frame rfl (fun _ => rfl) rfl rfl
  · exact h1

end PageCache
end Thur

import Thur.Block.CacheCoherence
/-!
# WriteBack — no host write is lost, and no cold read is stale

A write-back captures bytes and version under the lock, seals off the lock, and trusts an equal version afterwards. The
version is a counter of the entry, not of the page: it restarts when the entry does, so equal versions need not mean
equal bytes, and two write-backs of one page may seal in either order. A cold load trusts an empty slot. `cacheOk` rules
these out.
-/
namespace Thur.CacheState

open PageSlot Crates

variable {H : Type} [DecidableEq H] {cr : Crates H} {cfg : VolumeConfig}

/-- **A Clean page is its record's content, and a write-back that finds its version again has sealed what it
retires.** -/
theorem clean_entry_content (pages : PageIndex H) (upload : UploadIndexFile) (pool : ChunkPool H)
    (h0 : Healthy cr cfg pages pool) (acts : List (CacheAct H)) (s : CacheState H)
    (hrun : (machine cr cfg).run (opened pages upload pool) acts = some s)
    (hok : (machine cr cfg).Meets (cacheOk cfg) (opened pages upload pool) acts) :
    (∀ p e, s.inner.view p = some e → e.state = .clean → p ∉ s.inner.dirty → s.content cr cfg p = some e.bytes) ∧
    (∀ t w e, s.wbs.lookup t = some w → w.isSealed = true → s.inner.view w.page = some e → e.version = w.version →
      s.content cr cfg w.page = some e.bytes) := by
  obtain ⟨-, hc⟩ := coherent_run h0 hok hrun
  refine ⟨fun p e he hcl _ => (hc p).clean e he hcl, fun t w e hw hsl he hver => ?_⟩
  exact ((hc w.page).content_of_version ⟨⟨t, hw⟩, rfl⟩ hsl he hver).1

def tinyVolume : VolumeConfig :=
  { pageSize := 1, lastPageId := 3, encryptionKey := none, dekUuid := [], syncAfter := .disk, budgetPages := 1,
    maxConcurrentFlushes := 1 }

def blank : CacheState Bytes := opened default default fun _ => none

theorem healthy_blank : Healthy plain tinyVolume default (fun _ => none) :=
  ⟨fun _ _ h => (by cases h), fun _ => rfl⟩

def flushRun : List (CacheAct Bytes) :=
  [.install 0 [1], .drainStart 0 0 3, .drainPick 0, .drainFlush 0 10 0, .sealPage 10 0 0, .commit 10]

theorem clean_entry_content_flushRun :
    ∃ s e, (machine plain tinyVolume).run blank flushRun = some s ∧ s.inner.view 0 = some e ∧ e.bytes = [1] ∧
      e.state = .clean ∧ s.content plain tinyVolume 0 = some e.bytes := by
  obtain ⟨s, hs, e, he, hb, hc, hd⟩ : ∃ s ∈ (machine plain tinyVolume).run blank flushRun, ∃ e,
      s.inner.view 0 = some e ∧ e.bytes = [1] ∧ e.state = .clean ∧ 0 ∉ s.inner.dirty := by decide +kernel
  exact ⟨s, e, hs, he, hb, hc,
    (clean_entry_content default default (fun _ => none) healthy_blank flushRun s hs (by decide +kernel)).1 0 e he hc hd⟩

/-- The host's write after the eviction has version 1 again. -/
def versionReuseRun : List (CacheAct Bytes) :=
  [.install 0 [1], .drainStart 0 0 3, .drainPick 0, .drainFlush 0 10 0, .evict 11 1, .sealPage 11 0 0, .commit 11,
    .install 0 [2], .sealPage 10 0 0, .commit 10]

/-- **A host write is lost**: the page is Clean, and its record names the old bytes. -/
theorem clean_entry_content_fails : ∃ s e, (machine plain tinyVolume).run blank versionReuseRun = some s ∧
    s.inner.view 0 = some e ∧ e.state = .clean ∧ 0 ∉ s.inner.dirty ∧ e.bytes = [2] ∧
    s.content plain tinyVolume 0 = some [1] ∧ s.content plain tinyVolume 0 ≠ some e.bytes :=
  Machine.ends_twice (by decide +kernel)

/-! ## Cold reads -/

def loadResult (s : CacheState H) (l : Load H) : Option Bytes :=
  match s.inner.view l.page with
  | some e => some e.bytes
  | none => l.fetched.map Prod.snd

/-- **A cold read returns the host's last write** in a run of safe steps: so do a cache hit and a load that may insert
now. -/
theorem cold_read_fresh (pages : PageIndex H) (upload : UploadIndexFile) (pool : ChunkPool H) (v0 : PageId → Bytes)
    (h0 : Healthy cr cfg pages pool) (hv0 : ∀ p, resolve cr cfg pool p (pages.getEntry p) = some (v0 p))
    (acts : List (CacheAct H)) (s : CacheState H) (v : PageId → Bytes)
    (hrun : ((machine cr cfg).carry (hostView cr cfg)).run (opened pages upload pool, v0) acts = some (s, v))
    (hok : ((machine cr cfg).carry (hostView cr cfg)).Meets (fun x a => cacheOk cfg x.1 a)
      (opened pages upload pool, v0) acts) :
    (∀ p e, s.inner.view p = some e → e.state = .clean → s.content cr cfg p = some e.bytes) ∧
    (∀ p e, s.inner.view p = some e → e.bytes = v p) ∧
    (∀ t l x, s.loads.lookup t = some l → l.fetched = some x → cacheOk cfg s (.insertPage t) →
      s.loadResult l = some (v l.page)) := by
  obtain ⟨hs, hc⟩ := shows_run h0 hv0 hok hrun
  refine ⟨fun p e he hcl => (hc p).1.clean e he hcl, fun p e he => (hc p).2.cached e he, ?_⟩
  intro t l x hl hx hins
  unfold loadResult
  cases he : s.inner.view l.page with
  | some e => rw [← (hc l.page).2.cached e he]
  | none =>
    simp only [cacheOk, hl] at hins
    obtain ⟨hrec, hreb⟩ := hins he
    have hfree : ¬ (s.slot cr cfg l.page).busy := by
      rintro ⟨t', r, hr, hp⟩
      exact hreb.lookup hr hp
    have hshow := (hc l.page).2.uncached he hfree
    have hload := hs.loads t l x hl hx
    rw [hx, Option.map_some, Option.some.injEq] at hrec
    rw [hrec] at hload
    rw [hx, Option.map_some, ← hshow]
    exact hload.symm

/-- The write is flushed and evicted before the load begins. -/
def quietLoadRun : List (CacheAct Bytes) :=
  [.install 0 [1], .drainStart 0 0 3, .drainPick 0, .drainFlush 0 10 0, .sealPage 10 0 0, .commit 10, .evict 11 1,
    .acquire 1 0, .fetch 1]

theorem cold_read_fresh_quietLoadRun :
    ∃ s v l, ((machine plain tinyVolume).carry (hostView plain tinyVolume)).run (blank, fun _ => [0])
      quietLoadRun = some (s, v) ∧ s.loads.lookup 1 = some l ∧ s.loadResult l = some (v l.page) ∧ v l.page = [1] := by
  obtain ⟨⟨s, v⟩, hs, hins, l, hl, hb, hv⟩ :
      ∃ x ∈ ((machine plain tinyVolume).carry (hostView plain tinyVolume)).run
        (blank, fun _ => [0]) quietLoadRun, cacheOk tinyVolume x.1 (.insertPage 1) ∧ ∃ l, x.1.loads.lookup 1 = some l ∧
      l.fetched.isSome = true ∧ x.2 l.page = [1] := by decide +kernel
  obtain ⟨b, hb⟩ := Option.isSome_iff_exists.1 hb
  exact ⟨s, v, l, hs, hl, (cold_read_fresh default default (fun _ => none) (fun _ => [0]) healthy_blank (fun _ => rfl)
    quietLoadRun s v hs (by decide +kernel)).2.2 1 l b hl hb hins, hv⟩

/-- A write of the page is installed, flushed and evicted while the fetch is in flight. -/
def staleLoadRun : List (CacheAct Bytes) :=
  [.acquire 1 0, .fetch 1, .install 0 [1], .drainStart 0 0 3, .drainPick 0, .drainFlush 0 10 0, .sealPage 10 0 0,
    .commit 10, .evict 11 1, .insertPage 1]

/-- **A completed host write disappears from reads**: the cache holds Clean zeros. -/
theorem cold_read_fresh_fails : ∃ s e, (machine plain tinyVolume).run blank staleLoadRun = some s ∧
    s.inner.view 0 = some e ∧ e.state = .clean ∧ e.bytes = [0] ∧ s.content plain tinyVolume 0 = some [1] ∧
    s.content plain tinyVolume 0 ≠ some e.bytes :=
  Machine.ends_twice (by decide +kernel)

end Thur.CacheState

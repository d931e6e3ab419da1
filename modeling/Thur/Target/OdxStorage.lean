import Thur.Target.Odx
/-!
# OdxStorage — the chunks that pages name, under eviction and garbage collection at once

A chunk's name is the hash of its bytes, so the only question is whether it is still there. For a page's record this is
what the eviction passes and the garbage collection jobs keep under their own conditions; side by side each can take
away what the other counts on: a pass the file whose age a job goes by, a job the object that a pass has seen.
-/

namespace Thur

open Function (update update_of_ne)

namespace FleetState

open FleetState
open Option

variable {V H : Type} [DecidableEq H] {fl : Fleet V H} {s f : FleetState V H} {a : FleetAct V H}
  {c d : ChunkKey H} {bytes : Bytes} {v : V} {p : PageId} {e : PageEntry H}

/-! ## Chunks and what they hold -/

def Present (s : FleetState V H) (c : ChunkKey H) : Prop := (s.pool c).isSome = true ∨ s.Stored c
deriving Decidable

structure Hashed (fl : Fleet V H) (s : FleetState V H) : Prop where
  pool : ∀ c file, s.pool c = some file → fl.cr.blake3 file.bytes = c.2
  store : ∀ c bytes, s.store c = some bytes → fl.cr.blake3 bytes = c.2

def Opens (fl : Fleet V H) (v : V) (p : PageId) : Option (PageEntry H) → Bytes → Prop
  | none, bytes => bytes = List.replicate (fl.cfg v).pageSize 0
  | some e, bytes => ∀ payload, fl.cr.blake3 payload = e.hash → openPayload fl.cr (fl.cfg v) p e.ivSalt payload = some bytes

theorem present_step [DecidableEq V] (hm : Moves fl s a f) (h : s.Present c) : f.Present c := by
  rcases h with h | h
  · obtain ⟨file, hfile⟩ := isSome_iff_exists.1 h
    exact .inl (isSome_iff_exists.2 ⟨file, GcState.pool_step hm hfile⟩)
  · exact .inr (stored_step hm h)

theorem Hashed.insertBytes (h : Hashed fl s) (hc : fl.cr.blake3 bytes = c.2) :
    Hashed fl { s with pool := s.pool.insertBytes c bytes s.now } := by
  refine ⟨fun d file hd => ?_, h.store⟩
  rcases ChunkPool.insertBytes_some hd with hd | ⟨rfl, -, rfl⟩
  · exact h.pool d file hd
  · exact hc

theorem Hashed.remove (h : Hashed fl s) (c : ChunkKey H) : Hashed fl { s with pool := s.pool.remove c } :=
  ⟨fun d file hd => h.pool d file (ChunkPool.remove_some hd), h.store⟩

theorem Present.remove (hd : s.Present d) (hst : d = c → s.Stored d) :
    Present { s with pool := s.pool.remove c } d := by
  by_cases hdc : d = c
  · exact .inr (hst hdc)
  · refine hd.imp_left (fun hfile => ?_)
    change (s.pool.remove c d).isSome = true
    rw [s.pool.remove_of_ne hdc]
    exact hfile

theorem stored_delete (hne : d ≠ c) (hd : s.Stored d) :
    Stored { s with store := update s.store c none } d := by
  change (update s.store c none d).isSome = true
  rw [update_of_ne hne]
  exact hd

theorem Hashed.delete (h : Hashed fl s) (c : ChunkKey H) :
    Hashed fl { s with store := update s.store c none } := by
  refine ⟨h.pool, fun d bytes hd => h.store d bytes ?_⟩
  exact (Table.update_none hd).2

theorem Hashed.step [DecidableEq V] (h : Hashed fl s) (hm : Moves fl s a f) : Hashed fl f := by
  cases hm with
  | @sealPool t x =>
    have hins := h.insertBytes (show fl.cr.blake3 (x.payload fl) = (x.chunk fl).2 from rfl)
    exact ⟨hins.pool, hins.store⟩
  | warm he hb => exact h.insertBytes (h.store _ _ hb)
  | @taskPut k x store hx hst hup =>
    refine ⟨h.pool, fun c bytes hc => ?_⟩
    rcases uploadChunk_bytes hup hc with hc | ⟨file, hfile, rfl⟩
    · exact h.store c bytes hc
    · exact h.pool c file hfile
  | _ => exact ⟨h.pool, h.store⟩

theorem hash_of_fetch (h : Hashed fl s) (hb : s.fetch fl c = some bytes) : fl.cr.blake3 bytes = c.2 := by
  unfold fetch at hb
  split at hb
  · next file hfile =>
    cases hb
    exact h.pool c file hfile
  · exact of_decide_eq_true (filter_eq_some_iff.1 hb).2

theorem fetch_of_present (h : Hashed fl s) (hc : s.Present c) : ∃ bytes, s.fetch fl c = some bytes := by
  unfold fetch
  cases hpool : s.pool c with
  | some file => exact ⟨file.bytes, rfl⟩
  | none =>
    have hst : s.Stored c := hc.resolve_left (by rw [hpool]; exact Bool.noConfusion)
    obtain ⟨bytes, hbytes⟩ := isSome_iff_exists.1 hst
    exact ⟨bytes, filter_eq_some_iff.2 ⟨hbytes, decide_eq_true (h.store c bytes hbytes)⟩⟩

theorem pool_warmed {file : PoolFile} (hd : s.pool d = some file) : (s.warmed fl c).pool d = some file := by
  unfold warmed
  split
  · exact ChunkPool.insertBytes_of_some _ _ hd
  · exact hd

theorem present_warmed (hd : s.Present d) : (s.warmed fl c).Present d := by
  rcases hd with hd | hd
  · obtain ⟨file, hfile⟩ := isSome_iff_exists.1 hd
    exact .inl (isSome_iff_exists.2 ⟨file, pool_warmed hfile⟩)
  · right
    unfold warmed
    split <;> exact hd

theorem pins_warmed (s : FleetState V H) (c : ChunkKey H) : (s.warmed fl c).pins = s.pins := by
  unfold warmed
  split <;> rfl

theorem opens_of_fetchAndDecrypt (h : Hashed fl s) (hr : s.fetchAndDecrypt fl v p e = some bytes) :
    Opens fl v p (some e) bytes := by
  obtain ⟨payload, hfetch, hopen⟩ := bind_eq_some_iff.1 hr
  intro payload' hp
  have heq : payload' = payload := fl.cr.blake3_injective (hp.trans (hash_of_fetch h hfetch).symm)
  rw [heq]
  exact hopen

theorem eq_of_opens (h : Hashed fl s) {plain : Bytes} (hr : s.fetchAndDecrypt fl v p e = some plain)
    (ho : Opens fl v p (some e) bytes) : plain = bytes := by
  obtain ⟨payload, hfetch, hopen⟩ := bind_eq_some_iff.1 hr
  exact Option.some.inj (hopen.symm.trans (ho payload (hash_of_fetch h hfetch)))

theorem fetchAndDecrypt_of_opens (h : Hashed fl s) (hc : s.Present (fl.key v e.hash))
    (ho : Opens fl v p (some e) bytes) : s.fetchAndDecrypt fl v p e = some bytes := by
  obtain ⟨payload, hfetch⟩ := fetch_of_present h hc
  exact bind_eq_some_iff.2 ⟨payload, hfetch, ho payload (hash_of_fetch h hfetch)⟩

theorem opens_of_readPage (h : Hashed fl s) (hr : s.readPage fl v p = some bytes) :
    Opens fl v p (s.record v p) bytes := by
  unfold readPage at hr
  cases hrec : s.record v p with
  | none =>
    rw [hrec] at hr
    exact (Option.some.inj hr).symm
  | some e =>
    rw [hrec] at hr
    exact opens_of_fetchAndDecrypt h hr

theorem readPage_of_opens (h : Hashed fl s) (hc : ∀ e, s.record v p = some e → s.Present (fl.key v e.hash))
    (ho : Opens fl v p (s.record v p) bytes) : s.readPage fl v p = some bytes := by
  unfold readPage
  cases hrec : s.record v p with
  | none =>
    rw [hrec] at ho
    exact congrArg some ho.symm
  | some e =>
    rw [hrec] at ho
    exact fetchAndDecrypt_of_opens h (hc e hrec) ho

omit [DecidableEq H] in
theorem opens_sealEntry (x : Seal V) : Opens fl x.vol x.page (some (x.entry fl)) x.bytes := by
  intro payload hp
  have heq : payload = x.payload fl := fl.cr.blake3_injective hp
  rw [heq]
  exact openPayload_sealPayload fl.cr (fl.cfg x.vol) x.page x.salt x.bytes

end FleetState

def Fleet.KeyPerDek {V H : Type} (fl : Fleet V H) : Prop :=
  ∀ v w, (fl.cfg v).encryptionKey.isSome = true → (fl.cfg w).encryptionKey.isSome = true →
    (fl.cfg v).dekUuid = (fl.cfg w).dekUuid → (fl.cfg v).encryptionKey = (fl.cfg w).encryptionKey

theorem FleetState.opens_rebind {V H : Type} {fl : Fleet V H} (hkeys : fl.KeyPerDek) {src dst : V} {srcPage dstPage : PageId}
    {e : PageEntry H} {bytes : Bytes} (hok : fl.rebindOk src srcPage dst dstPage = true)
    (ho : Opens fl src srcPage (some e) bytes) : Opens fl dst dstPage (some e) bytes := by
  intro payload hp
  rw [← ho payload hp]
  have hsound := (of_decide_eq_true hok).2
  unfold openPayload
  cases hsrc : (fl.cfg src).encryptionKey with
  | none =>
    cases hdst : (fl.cfg dst).encryptionKey with
    | none => rfl
    | some key =>
      rw [hsrc, hdst] at hsound
      cases hsound
  | some key =>
    cases hdst : (fl.cfg dst).encryptionKey with
    | none =>
      rw [hsrc, hdst] at hsound
      cases hsound
    | some key' =>
      rw [hsrc, hdst] at hsound
      obtain ⟨hdek, rfl⟩ : (fl.cfg src).dekUuid = (fl.cfg dst).dekUuid ∧ srcPage = dstPage := of_decide_eq_true hsound
      have hkey := hkeys src dst (by rw [hsrc]; rfl) (by rw [hdst]; rfl) hdek
      rw [hsrc, hdst, Option.some.injEq] at hkey
      simp only [hdek, hkey]

/-! ## When a step is safe -/

def EvictPass.Leaves {V H : Type} (x : EvictPass V H) (c : ChunkKey H) : Prop := ∀ cs ∈ x.chosen, ∀ d ∈ cs, d.chunk ≠ c

variable {V H : Type} [DecidableEq H] in
deriving instance Decidable for @EvictPass.Leaves V H

namespace GcJob

variable {V H : Type} [DecidableEq H]

def orphan (x : GcJob V H) : Option (ChunkKey H) :=
  match x.stage with
  | .sweep _ _ orphan => orphan
  | _ => none

def AgeFree (span : Nat) (pool : ChunkPool (ChunkKey H)) (x : GcJob V H) (c : ChunkKey H) : Prop :=
  c ∈ x.live ∨ c.1 ∈ x.poisoned ∨ recent pool (x.lastCutoff span) c = false

deriving instance Decidable for @AgeFree V H

end GcJob

namespace OdxState

open FleetState (Opens Hashed)

variable {V H : Type} [DecidableEq V] [DecidableEq H] {fl : Fleet V H} {span : Nat} {s s' : OdxState V H}
  {c : ChunkKey H} {jobs : Table (GcJob V H)} {a : DiskCacheAct V H} {f : FleetState V H}

def Holds (s : OdxState V H) (c : ChunkKey H) : Prop :=
  s.fleet.Present c ∧ s.passes.All (fun _ x => x.Leaves c) ∧ s.jobs.All fun _ x => x.orphan ≠ some c

deriving instance Decidable for @Holds V H

def Unused (s : OdxState V H) (tok : Nat) : Prop := s.applies.All fun _ y => y.stage.InProgress → y.token ≠ tok
deriving Decidable

/-- **When a step leaves the copies safe**: the pipeline, passes and jobs meet their conditions; a pass takes no file
whose age a job counts on, a job no object that a seal or pin needs; a chunk is pinned while there, and a token dropped
while no loop uses it. -/
def odxOk (fl : Fleet V H) (span : Nat) (s : OdxState V H) : OdxAct V H → Prop
  | .disk (.fleet a) => DiskCache.pipelineOk fl s.disk a ∧ GcState.gcOk fl span s.collector (.fleet a)
  | .disk (.evictRemove e _) => ∀ x ∈ s.passes.lookup e, ∀ c ∈ x.chosen.bind List.head?,
      s.jobs.All fun _ y => y.AgeFree span s.fleet.pool c.chunk
  | .disk a => DiskCache.evictOk fl s.disk a
  | .gc (.gcDelete e c ok) => GcState.gcLasts span s.collector (.gcDelete e c ok) ∧
      s.fleet.seals.All (fun _ y => y.Pooled → y.chunk fl ≠ c) ∧ (s.fleet.pins c = 0 ∨ (s.fleet.pool c).isSome = true)
  | .gc a => GcState.gcOk fl span s.collector a ∧ GcState.gcLasts span s.collector a
  | .populatePin k => ∀ y ∈ s.populates.lookup k, ∀ pg ∈ y.reading, ∀ e ∈ pg.entry, s.Holds (fl.key y.vol e.hash)
  | .applyFail k _ => ∀ y ∈ s.applies.lookup k, ∀ t ∈ y.stage.sealRow, DiskCache.pipelineOk fl s.disk (.sealFail t)
  | .cancel tok => s.Unused tok
  | .expire tok => s.Unused tok
  | _ => True

instance (s : OdxState V H) (a : OdxAct V H) : Decidable (odxOk fl span s a) := by
  apply OdxAct.casesOn (motive := fun a => Decidable (odxOk fl span s a)) a
  · intro a
    apply DiskCacheAct.casesOn (motive := fun a => Decidable (odxOk fl span s (.disk a))) a <;> intros <;> unfold odxOk <;>
      infer_instance
  · intro a
    apply GcAct.casesOn (motive := fun a => Decidable (odxOk fl span s (.gc a))) a <;> intros <;> unfold odxOk <;>
      infer_instance
  all_goals
    intros
    unfold odxOk
    infer_instance

section

omit [DecidableEq V] [DecidableEq H]

theorem evictOk_of_odxOk (h : odxOk fl span s (.disk a)) : DiskCache.evictOk fl s.disk a := by
  cases a with
  | fleet => exact h.1
  | evictRemove => trivial
  | _ => exact h

theorem gcOk_of_odxOk {a : GcAct V H} (h : odxOk fl span s (.gc a)) :
    GcState.gcOk fl span s.collector a ∧ GcState.gcLasts span s.collector a := by
  cases a with
  | gcDelete => exact ⟨trivial, h.1⟩
  | _ => exact h

end

/-! ## The chunks that pages name -/

/-- The invariants of the passes and jobs, and the chunk of every record and unfinished seal is there. -/
structure StorageInv (fl : Fleet V H) (span : Nat) (s : OdxState V H) : Prop where
  evict : DiskCache.EvictInv fl s.disk
  gc : GcState.GcInv fl span s.collector
  hashed : Hashed fl s.fleet
  records : ∀ v p e, s.fleet.record v p = some e → s.fleet.Present (fl.key v e.hash)
  seals : ∀ t x, s.fleet.seals.lookup t = some x → x.stage = .pooled → s.fleet.Present (x.chunk fl)

theorem StorageInv.seals_step {a : FleetAct V H} (h : StorageInv fl span s)
    (hm : FleetState.Moves fl s.fleet a f) :
    ∀ t x, f.seals.lookup t = some x → x.stage = .pooled → f.Present (x.chunk fl) := by
  have keep : ∀ t x, s.fleet.seals.lookup t = some x → x.stage = .pooled → f.Present (x.chunk fl) :=
    fun t x hx hst => FleetState.present_step hm (h.seals t x hx hst)
  cases hm with
  | sealStart | sealIndex hx hst | sealFlag hx hst | sealMark hx hst | sealSend hx hst | sealClosed hx hst
  | sealRollback hx hst => exact Table.forall_insert keep fun hst => by cases hst
  | sealPool => exact Table.forall_insert keep fun _ => .inl (ChunkPool.insertBytes_isSome _ _ _ _)
  | @sealEnd t | @sealAbort t | @sealFail t => exact Table.forall_erase keep t
  | _ => exact keep

theorem StorageInv.pipeline {a : FleetAct V H} (hspan : span ≤ graceSecs) (h : StorageInv fl span s)
    (hm : FleetState.Moves fl s.fleet a f) (hok : DiskCache.pipelineOk fl s.disk a)
    (hgc : GcState.gcOk fl span s.collector (.fleet a)) : StorageInv fl span { s with fleet := f } := by
  refine ⟨h.evict.step (.fleet hm) hok, h.gc.step hspan (.fleet hm) hgc (fun e he => by cases he), h.hashed.step hm,
    fun v p e he => ?_, h.seals_step hm⟩
  rcases FleetState.record_step hm v p with hr | hb
  · exact FleetState.present_step hm (h.records v p e (hr.symm.trans he))
  · rw [show f.record v p = some e from he] at hb
    rcases DiskCache.binds_of_pipelineOk h.evict.frozen hok hb with hs | ⟨t, x, -, hx, hst, rfl, -, hrec⟩
    · exact FleetState.present_step hm (.inr hs)
    · cases hrec
      exact FleetState.present_step hm (h.seals t x hx hst)

omit [DecidableEq V] in
theorem StorageInv.removeFile {passes : Table (EvictPass V H)} (h : StorageInv fl span s)
    (hev : DiskCache.EvictInv fl ⟨{ s.fleet with pool := s.fleet.pool.remove c }, passes⟩)
    (hgc : GcState.GcInv fl span ⟨{ s.fleet with pool := s.fleet.pool.remove c }, jobs⟩)
    (hrec : ∀ v p e, s.fleet.record v p = some e → fl.key v e.hash = c → s.fleet.Stored (fl.key v e.hash))
    (hseal : ∀ t x, s.fleet.seals.lookup t = some x → x.stage = .pooled → x.chunk fl = c →
      s.fleet.Stored (x.chunk fl)) :
    StorageInv fl span { s with
      fleet := { s.fleet with pool := s.fleet.pool.remove c }
      passes := passes
      jobs := jobs } := by
  exact ⟨hev, hgc, h.hashed.remove c, fun v p e he => (h.records v p e he).remove (hrec v p e he),
    fun t x hx hst => (h.seals t x hx hst).remove (hseal t x hx hst)⟩

omit [DecidableEq V] in
theorem jobInv_evicted {x : GcJob V H} (h : GcState.JobInv fl span s.fleet x) (hage : x.AgeFree span s.fleet.pool c) :
    GcState.JobInv fl span { s.fleet with pool := s.fleet.pool.remove c } x := by
  refine h.repool rfl rfl (fun _ _ hy _ => hy) rfl rfl fun d _ hs => ⟨hs.1.repool (fun hr => ?_), hs.2⟩
  by_cases hdc : d = c
  · subst hdc
    rcases hage with hlive | hpois | hold
    · exact .live hlive
    · exact .poisoned hpois
    · rw [hold] at hr
      cases hr
  · exact .recent ((GcJob.recent_remove hdc).trans hr)

theorem StorageInv.disk {d : DiskCache V H} (hspan : span ≤ graceSecs) (h : StorageInv fl span s)
    (hm : DiskCache.Moves fl s.disk a d) (hok : odxOk fl span s (.disk a)) :
    StorageInv fl span { s with fleet := d.fleet, passes := d.passes } := by
  have hev := h.evict.step hm (evictOk_of_odxOk hok)
  cases hm with
  | fleet hm => exact h.pipeline hspan hm hok.1 hok.2
  | @evictRemove e x c cs hx hc =>
    have hage := hok x hx c (by rw [hc]; rfl)
    have hkept := h.evict.removed hx hc
    refine h.removeFile hev ⟨fun k y hy => jobInv_evicted (h.gc.jobs k y hy) (hage.lookup hy), h.gc.restores⟩
      (fun v p e he heq => ?_) fun t y hy hst heq => ?_
    · rw [heq]
      exact hkept.resolve_right fun hno => hno.1 v p (.inl ⟨e, he, heq⟩)
    · rw [heq]
      exact hkept.resolve_right (fun hno => hno.1 y.vol y.page
        (.inr (.of_lookup hy ⟨rfl, rfl, by rw [Seal.Pooled, hst]; decide, heq⟩)))
  | _ => exact ⟨hev, h.gc, h.hashed, h.records, h.seals⟩

/-! The object of a chunk that nobody refers to goes. -/

omit [DecidableEq V] [DecidableEq H] in
theorem frozen_of_unreferenced (hun : GcState.Unreferenced fl s.fleet c) (hrest : GcState.RestoresListed s.fleet)
    {v : V} {e : PageEntry H} (hf : s.fleet.Frozen v (some e)) : fl.key v e.hash ≠ c := by
  rintro rfl
  cases hf with
  | snapshot hsn hrec => exact hun.snapshots _ hsn (mem_frozenKeys.2 ⟨e, hrec, rfl⟩)
  | copy hx hv hrec => exact hun.copies _ _ hx (mem_frozenKeys.2 ⟨e, hrec, by rw [hv]⟩)
  | restore hx hv hrec => exact hun.snapshots _ (hrest _ _ hx) (mem_frozenKeys.2 ⟨e, hrec, by rw [hv]⟩)

omit [DecidableEq V] in
theorem evictInv_delete (h : DiskCache.EvictInv fl s.disk) (hun : GcState.Unreferenced fl s.fleet c)
    (hrest : GcState.RestoresListed s.fleet) (hseals : s.fleet.seals.All (fun _ y => y.Pooled → y.chunk fl ≠ c)) :
    DiskCache.EvictInv fl ⟨{ s.fleet with store := update s.fleet.store c none }, s.passes⟩ := by
  have safe : ∀ v rec, (∀ e, rec = some e → fl.key v e.hash ≠ c) → s.fleet.Safe fl v rec →
      FleetState.Safe fl { s.fleet with store := update s.fleet.store c none } v rec := by
    intro v rec hne hs
    cases rec with
    | none => trivial
    | some e => exact FleetState.stored_delete (hne e rfl) hs
  refine ⟨fun v p => (h.flags v p).imp_left (safe v _ (hun.records v p)), fun v rec hf => ?_,
    fun e x hx v p d href hrisk => ?_, h.chosen⟩
  · have hf := hf.congr (s := s.fleet) rfl rfl rfl
    exact safe v rec (fun e he => frozen_of_unreferenced hun hrest (he ▸ hf)) (h.frozen v rec hf)
  · have hdc : d ≠ c := by
      rintro rfl
      rcases href with ⟨e, he, heq⟩ | href
      · exact hun.records v p e he heq
      · obtain ⟨t, y, hy, -, -, hpool, heq⟩ := (Table.any_iff _ _).1 href
        exact hseals.lookup hy hpool heq
    exact h.held e x hx v p d href ⟨hrisk.1, fun hst => hrisk.2 (FleetState.stored_delete hdc hst)⟩

omit [DecidableEq V] in
theorem StorageInv.deleteObject (h : StorageInv fl span s)
    (hgc : GcState.GcInv fl span ⟨{ s.fleet with store := update s.fleet.store c none }, jobs⟩)
    (hun : GcState.Unreferenced fl s.fleet c) (hseals : s.fleet.seals.All (fun _ y => y.Pooled → y.chunk fl ≠ c)) :
    StorageInv fl span { s with fleet := { s.fleet with store := update s.fleet.store c none }, jobs := jobs } :=
  ⟨evictInv_delete h.evict hun h.gc.restores hseals, hgc, h.hashed.delete c,
    fun v p e he => (h.records v p e he).imp_right (FleetState.stored_delete (hun.records v p e he)),
    fun t x hx hst => (h.seals t x hx hst).imp_right (FleetState.stored_delete (hun.seals t x hx hst))⟩

theorem StorageInv.collect {a : GcAct V H} {g : GcState V H} (hspan : span ≤ graceSecs) (h : StorageInv fl span s)
    (hm : GcState.Moves fl s.collector a g) (hown : a.Own) (hok : odxOk fl span s (.gc a)) :
    StorageInv fl span { s with fleet := g.fleet, jobs := g.jobs } := by
  have hgc := h.gc.step hspan hm (gcOk_of_odxOk hok).1 (gcOk_of_odxOk hok).2
  cases hm with
  | fleet => exact hown.elim
  | @gcRemove e cutoff c pool x hx hst =>
    have hun : GcState.Unreferenced fl s.fleet c :=
      (h.gc.jobs e x hx).unreferenced (GcJob.condemned_of_sweep hst)
    exact h.removeFile (h.evict.congr rfl rfl rfl rfl rfl rfl rfl) hgc
      (fun v p e he heq => absurd heq (hun.records v p e he)) fun t y hy hst heq => absurd heq (hun.seals t y hy hst)
  | @gcDelete e cutoff c examined toDelete x hx hst hc =>
    have hun : GcState.Unreferenced fl s.fleet c :=
      (h.gc.jobs e x hx).unreferenced (GcJob.condemned_of_bucket hst hc)
    exact h.deleteObject hgc hun hok.2.1
  | _ => exact ⟨h.evict, hgc, h.hashed, h.records, h.seals⟩

omit [DecidableEq V] in
theorem StorageInv.frame (h : StorageInv fl span s) (pins : ChunkKey H → Nat) (clones : Table (Clone V H))
    (populates : Table (Populate V H)) (tokens : Table (OdxToken V H)) (applies : Table (Apply V H)) :
    StorageInv fl span
      ⟨{ s.fleet with pins := pins, clones := clones }, s.passes, s.jobs, populates, tokens, applies⟩ :=
  ⟨h.evict.congr rfl rfl rfl rfl rfl rfl rfl,
    ⟨fun e x hx => (h.gc.jobs e x hx).grow rfl rfl (fun _ _ hy _ => hy) rfl rfl (fun _ _ hc => hc), h.gc.restores⟩,
    ⟨h.hashed.pool, h.hashed.store⟩, h.records, h.seals⟩

omit [DecidableEq V] in
theorem StorageInv.warm (h : StorageInv fl span s) (c : ChunkKey H) :
    StorageInv fl span { s with fleet := s.fleet.warmed fl c } := by
  have hpool : ∀ d file, s.fleet.pool d = some file → (s.fleet.warmed fl c).pool d = some file :=
    fun _ _ => FleetState.pool_warmed
  have hpres : ∀ d, s.fleet.Present d → (s.fleet.warmed fl c).Present d := fun _ => FleetState.present_warmed
  unfold FleetState.warmed at hpool hpres ⊢
  cases hfetch : s.fleet.fetch fl c with
  | none => exact h
  | some bytes =>
    rw [hfetch] at hpool hpres
    exact ⟨h.evict.congr rfl rfl rfl rfl rfl rfl rfl,
      ⟨fun e x hx => (h.gc.jobs e x hx).grow rfl rfl (fun _ _ hy _ => hy) rfl rfl hpool, h.gc.restores⟩,
      h.hashed.insertBytes (FleetState.hash_of_fetch h.hashed hfetch), fun v p e he => hpres _ (h.records v p e he),
      fun t x hx hst => hpres _ (h.seals t x hx hst)⟩

omit [DecidableEq V] in
theorem StorageInv.capture (h : StorageInv fl span s) {t : Nat} {x : Seal V} (ht : s.fleet.seals.lookup t = none)
    (hst : x.stage = .captured) :
    StorageInv fl span { s with fleet := { s.fleet with seals := s.fleet.seals.insert t x } } := by
  have hold : ∀ t' y, (s.fleet.seals.insert t x).lookup t' = some y → y.stage = .pooled →
      s.fleet.seals.lookup t' = some y := by
    intro t' y hy hp
    rcases Table.lookup_insert_some hy with ⟨-, rfl⟩ | ⟨-, hy⟩
    · rw [hst] at hp
      cases hp
    · exact hy
  exact ⟨h.evict.capture ht hst,
    ⟨fun e y hy => (h.gc.jobs e y hy).grow rfl rfl hold rfl rfl (fun _ _ hc => hc), h.gc.restores⟩,
    ⟨h.hashed.pool, h.hashed.store⟩, h.records, fun t' y hy hp => h.seals t' y (hold t' y hy hp) hp⟩

end OdxState
end Thur

import Thur.Block.WriteBack
/-!
# Fence — what SYNCHRONIZE CACHE makes durable

A fence flushes the dirty pages of its range and issues one `fdatasync` if it wrote anything itself. A page that some
other write-back made Clean has a record too, and nobody may have synced it: an eviction never does, another drain has
not yet. `fence_durable` holds as long as no other write-back takes the page out of the fence's hands.
-/

namespace Thur

open AList Crates
open CacheInner Table

theorem takeMin_eq_nil {n : Nat} {s : Finset PageId} (h : takeMin (n + 1) s = []) : s = ∅ := by
  rw [takeMin] at h
  cases hm : s.min with
  | top => exact Finset.min_eq_top.1 hm
  | coe =>
    rw [hm] at h
    cases h

theorem Drain.notMem_of_batch {x : Drain} {cfg : VolumeConfig} {dirty : Finset PageId} {p : PageId}
    (h : x.batch cfg dirty = []) (h1 : x.first ≤ p) (h2 : p ≤ x.last) : p ∉ dirty := by
  obtain ⟨n, hn⟩ := Nat.exists_eq_succ_of_ne_zero (show max cfg.maxConcurrentFlushes 1 ≠ 0 by omega)
  rw [batch, hn] at h
  intro hp
  have hmem : p ∈ dirty.filter (fun q => x.first ≤ q ∧ q ≤ x.last) := Finset.mem_filter.2 ⟨hp, h1, h2⟩
  rw [takeMin_eq_nil h] at hmem
  exact Finset.notMem_empty p hmem

namespace CacheState

variable {H : Type} [DecidableEq H] {cr : Crates H} {cfg : VolumeConfig} {s s' : CacheState H} {a : CacheAct H}
  {d : Nat} {x : Drain} {p : PageId} {o : Option Nat} {f : Drain → Drain}

/-! ## The dirty set, and who owns a write-back -/

theorem dirtyExact_recheck {c : CacheInner} (h : c.DirtyExact) (w : WriteBack) : (recheck c w).DirtyExact := by
  unfold recheck
  cases he : c.view w.page with
  | some e =>
    simp only
    split
    · split
      · exact h.markClean w.page
      · exact h.dropEntry w.page
    · exact h
  | none =>
    simp only
    split
    · exact h
    · intro q
      have hnot := (h w.page).not.2 (by rw [he]; simp)
      simp only [dirty_lruUnlink, Finset.erase_eq_of_notMem hnot]
      rw [h q]
      exact iff_of_eq (by rw [← view_lruUnlink c w.page]; rfl)

theorem dirtyExact_step (h : s.inner.DirtyExact) (hm : Moves cr cfg s a s') : s'.inner.DirtyExact := by
  cases hm with
  | install | modify => exact h.dirtyEntry _ _
  | hit | insertLost => exact h.lruTouch _
  | insertPage hl hx he => exact h.insertClean _ he
  | evictClean | unmapDrop | cloneDrop => exact h.dropEntry _
  | commit => exact dirtyExact_recheck h _
  | rebind =>
    simp only [inner_rebindPage]
    exact h
  | _ => exact h

theorem mem_dirty_recheck {c : CacheInner} (h : c.DirtyExact) (w : WriteBack) (p : PageId) :
    (p ∈ (recheck c w).dirty ↔ p ∈ c.dirty) ∨
    (p = w.page ∧ p ∉ (recheck c w).dirty ∧ ∃ e, c.view p = some e ∧ e.version = w.version) := by
  rcases view_recheck c w p with he | ⟨hp, e, he, hver, hs⟩
  · left
    rw [dirtyExact_recheck h w p, h p, he]
  · right
    refine ⟨hp, fun hmem => ?_, e, he, hver⟩
    obtain ⟨v, hv, hd⟩ := (dirtyExact_recheck h w p).1 hmem
    rcases hs with hs | hs
    · grind
    · rw [hs] at hv
      cases hv

theorem lookup_report (drains : Table Drain) (o : Option Nat) (f : Drain → Drain) (d : Nat) :
    (report drains o f).lookup d = if o = some d then (drains.lookup d).map f else drains.lookup d := by
  cases o with
  | none => rfl
  | some d' => grind [report]

def Owned (s : CacheState H) : Prop :=
  ∀ t w d, s.wbs.lookup t = some w → w.drain = some d → ∃ x, s.drains.lookup d = some x ∧ x.phase = .flush

section

omit [DecidableEq H]

theorem Owned.setDrain (h : Owned s) (hx : ∀ t w, s.wbs.lookup t = some w → w.drain = some d → x.phase = .flush) :
    Owned (s.setDrain d x) := by
  intro t w d' hw hd'
  by_cases hd : d' = d
  · subst hd
    exact ⟨x, lookup_insert _, hx t w hw hd'⟩
  · obtain ⟨y, hy, hph⟩ := h t w d' hw hd'
    exact ⟨y, by simp only [CacheState.setDrain]; rw [lookup_insert_ne hd, hy], hph⟩

theorem Owned.notFlush (h : Owned s) (hx : s.drains.lookup d = some x) (hph : x.phase ≠ .flush) (t : Nat)
    (w : WriteBack) (hw : s.wbs.lookup t = some w) : w.drain ≠ some d := by
  intro hd
  obtain ⟨y, hy, hf⟩ := h t w d hw hd
  rw [hx, Option.some.injEq] at hy
  exact hph (hy ▸ hf)

theorem Owned.report (h : Owned s) (hf : ∀ x, (f x).phase = x.phase) (t : Nat)
    (w : WriteBack) (d : Nat) (hw : s.wbs.lookup t = some w) (hd : w.drain = some d) :
    ∃ x, (CacheState.report s.drains o f).lookup d = some x ∧ x.phase = .flush := by
  obtain ⟨x, hx, hph⟩ := h t w d hw hd
  rw [lookup_report, hx]
  split
  · exact ⟨f x, rfl, (hf x).trans hph⟩
  · exact ⟨x, rfl, hph⟩

theorem Owned.capture (h : Owned s) {t : Nat} {bytes : Bytes} {version : UInt64}
    (ho : ∀ d, o = some d → ∃ x, s.drains.lookup d = some x ∧ x.phase = .flush) :
    Owned (s.capture t p bytes version o) := by
  intro t' w d hw hd
  rcases lookup_insert_some hw with ⟨-, rfl⟩ | ⟨-, hw⟩
  · exact ho d hd
  · exact h t' w d hw hd

end

theorem owned_step (h : Owned s) (hm : Moves cr cfg s a s') : Owned s' := by
  cases hm with
  | evictDirty he hd => exact h.capture fun d hd => by cases hd
  | @sealPage t salt now w hw =>
    intro t' w' d hw' hd
    rcases lookup_insert_some hw' with ⟨-, rfl⟩ | ⟨-, hw'⟩
    · exact h t w d hw hd
    · exact h t' w' d hw' hd
  | sealFail | abort | commit =>
    intro t' w' d hw' hd
    refine h.report ?_ t' w' d (lookup_erase_some hw').2 hd
    exact fun _ => rfl
  | rebind =>
    intro t' w' d hw' hd
    simp only [wbs_rebindPage] at hw'
    obtain ⟨x, hx, hph⟩ := h t' w' d hw' hd
    refine ⟨x, ?_, hph⟩
    simp only [drains_rebindPage]
    exact hx
  | @fence d byteOffset len first last hr hd | @drainStart d first last hd =>
    refine h.setDrain fun t w hw hwd => ?_
    obtain ⟨x, hx, -⟩ := h t w d hw hwd
    rw [hd] at hx
    cases hx
  | drainEmpty hx hph | drainSyncUpload hx hph | drainSyncPages hx hph =>
    exact h.setDrain fun t w hw hwd => absurd hwd (h.notFlush hx (by rw [hph]; decide) t w hw)
  | drainPick => exact h.setDrain fun _ _ _ _ => rfl
  | drainSkip hx hph => exact h.setDrain fun _ _ _ _ => hph
  | @drainFlush d t p x e hx hph => grind [Owned.capture, Owned.setDrain, setDrain, lookup_insert]
  | drainJoin hx hph htodo hw => exact h.setDrain fun t w hw' hwd => absurd hwd (hw.lookup hw')
  | drainSyncFail hx hph =>
    refine h.setDrain fun t w hw hwd => absurd hwd (h.notFlush hx ?_ t w hw)
    rcases hph with hph | hph <;> rw [hph] <;> decide
  | @drainEnd d x hx hph =>
    intro t w d' hw hwd
    obtain ⟨y, hy, hf⟩ := h t w d' hw hwd
    refine ⟨y, ?_, hf⟩
    rw [lookup_erase_ne, hy]
    rintro rfl
    exact h.notFlush hx (by rw [hph]; decide) t w hw hwd
  | _ => exact h

/-! ## The fence's own promise -/

def Synced (s : CacheState H) (p : PageId) : Prop := s.pages.file.synced p = s.pages.getEntry p

deriving instance Decidable for @Synced H

/-- The drain is bound to issue a sync that is still to come. -/
def WillSync (s : CacheState H) (d : Nat) (x : Drain) : Prop :=
  x.phase = .syncUpload ∨ x.phase = .syncPages ∨ (x.phase ≠ .done ∧ x.wroteAny = true) ∨
    s.wbs.Any fun _ w => w.drain = some d
deriving Decidable

/-- **When a step leaves a page in the fence's hands**: another write-back seals or retires it only if the page stays
dirty or durable, or the fence is bound to sync. -/
def fenceOk (d : Nat) (p : PageId) (s : CacheState H) : CacheAct H → Prop
  | .sealPage t _ _ => ∀ w ∈ s.wbs.lookup t, ∀ x ∈ s.drains.lookup d, w.page = p → w.drain ≠ some d →
      p ∈ s.inner.dirty ∨ s.WillSync d x
  | .commit t => ∀ w ∈ s.wbs.lookup t, ∀ x ∈ s.drains.lookup d, w.page = p → w.drain ≠ some d →
      (s.inner.view p).map PageView.version = some w.version → s.Synced p ∨ s.WillSync d x
  | _ => True

instance (d : Nat) (p : PageId) (s : CacheState H) (a : CacheAct H) : Decidable (fenceOk d p s a) := by
  apply CacheAct.casesOn (motive := fun a => Decidable (fenceOk d p s a)) a <;>
    intros <;> unfold fenceOk <;> infer_instance

/-- The page is dirty and the fence still picking, or its record is durable, or the fence is bound to sync. -/
structure Holds (s : CacheState H) (d : Nat) (p : PageId) : Prop where
  row : ∃ x, s.drains.lookup d = some x ∧ x.first ≤ p ∧ p ≤ x.last ∧ (x.failed = false →
    (p ∈ s.inner.dirty → x.phase = .pick ∨ x.phase = .flush) ∧ (p ∈ s.inner.dirty ∨ s.Synced p ∨ s.WillSync d x))
  free : ∀ t r, s.rebinds.lookup t = some r → r.page ≠ p

section

omit [DecidableEq H]

theorem WillSync.mono (h : s.WillSync d x)
    (hw : s.wbs.Any (fun _ w => w.drain = some d) → s'.wbs.Any (fun _ w => w.drain = some d)) : s'.WillSync d x := by
  rcases h with h | h | h | h
  · exact .inl h
  · exact .inr (.inl h)
  · exact .inr (.inr (.inl h))
  · exact .inr (.inr (.inr (hw h)))

theorem Holds.frame (h : Holds s d p) (hd : s'.drains.lookup d = s.drains.lookup d)
    (hdirty : p ∈ s'.inner.dirty ↔ p ∈ s.inner.dirty) (hsync : s.Synced p → s'.Synced p)
    (hw : s.wbs.Any (fun _ w => w.drain = some d) → s'.wbs.Any (fun _ w => w.drain = some d))
    (hr : ∀ t r, s'.rebinds.lookup t = some r → r.page ≠ p) : Holds s' d p := by
  obtain ⟨x, hx, h1, h2, hx'⟩ := h.row
  refine ⟨⟨x, hd.trans hx, h1, h2, fun hf => ?_⟩, hr⟩
  obtain ⟨hph, hp⟩ := hx' hf
  refine ⟨fun hm => hph (hdirty.1 hm), ?_⟩
  rcases hp with hp | hp | hp
  · exact .inl (hdirty.2 hp)
  · exact .inr (.inl (hsync hp))
  · exact .inr (.inr (hp.mono hw))

theorem Holds.setDrain {d' : Nat} {x' : Drain} (h : Holds s d p) (hx : s.drains.lookup d' = some x)
    (hrange : x'.first = x.first ∧ x'.last = x.last)
    (hstep : d' = d → x'.failed = false → x.failed = false ∧
      ((p ∈ s.inner.dirty → x.phase = .pick ∨ x.phase = .flush) → (p ∈ s.inner.dirty ∨ s.Synced p ∨ s.WillSync d x) →
      x.first ≤ p → p ≤ x.last → (p ∈ s.inner.dirty → x'.phase = .pick ∨ x'.phase = .flush) ∧
        (p ∈ s.inner.dirty ∨ s.Synced p ∨ s.WillSync d x'))) : Holds (s.setDrain d' x') d p := by
  obtain ⟨y, hy, h1, h2, hrow⟩ := h.row
  by_cases hd : d' = d
  · subst hd
    cases hx.symm.trans hy
    refine ⟨⟨x', lookup_insert _, hrange.1 ▸ h1, hrange.2 ▸ h2, fun hf => ?_⟩, h.free⟩
    obtain ⟨hf, hkeep⟩ := hstep rfl hf
    exact hkeep (hrow hf).1 (hrow hf).2 h1 h2
  · refine h.frame ?_ Iff.rfl id id h.free
    rw [CacheState.setDrain, lookup_insert_ne (Ne.symm hd)]

theorem lookup_report_own (ho : o = some d) (hx : s.drains.lookup d = some x) :
    (CacheState.report s.drains o f).lookup d = some (f x) := by
  rw [lookup_report, if_pos ho, hx, Option.map_some]

theorem lookup_report_other (ho : o ≠ some d) :
    (CacheState.report s.drains o f).lookup d = s.drains.lookup d := by
  rw [lookup_report, if_neg ho]

theorem synced_put_ne {q : PageId} {rec : Option (PageEntry H)} (hne : q ≠ p) (hp : s'.pages = s.pages.put q rec)
    (h : s.Synced p) : s'.Synced p := by
  unfold Synced at h ⊢
  rw [hp, getEntry_put, if_neg hne]
  exact h

theorem synced_rebindPage {r : Rebind H} (rec : Option (PageEntry H)) (hne : r.page ≠ p) (h : s.Synced p) :
    (s.rebindPage r rec).Synced p := by
  unfold rebindPage
  split
  · exact synced_put_ne hne rfl h
  · cases rec <;> rfl

end

/-- **A fence keeps hold of its pages** through every step that meets `fenceOk` and is no host command on the page. -/
theorem Holds.step (h : Holds s d p) (hex : s.inner.DirtyExact) (hown : Owned s) (hm : Moves cr cfg s a s')
    (hhost : ¬ onto p a) (hend : a ≠ .drainEnd d) (hok : fenceOk d p s a) : Holds s' d p := by
  obtain ⟨x0, hx0, hfirst, hlast, hx0'⟩ := h.row
  have dirtyNe : ∀ {q : PageId} {bytes : Bytes}, q ≠ p → (p ∈ (s.inner.dirtyEntry q bytes).dirty ↔ p ∈ s.inner.dirty) := by
    grind [dirty_dirtyEntry]
  have dropNe : ∀ {q : PageId}, q ≠ p → (p ∈ (s.inner.dropEntry q).dirty ↔ p ∈ s.inner.dirty) := by
    grind [dirty_dropEntry]
  have anyInsert : ∀ {t : Nat} {w : WriteBack}, s.wbs.lookup t = none → s.wbs.Any (fun _ w => w.drain = some d) →
      Table.Any (s.wbs.insert t w) (fun _ w => w.drain = some d) := by grind [Table.Any.insert]
  have rebindInsert : ∀ {t : Nat} {r : Rebind H}, r.page ≠ p → ∀ t' r', (s.rebinds.insert t r).lookup t' = some r' →
      r'.page ≠ p := by
    have := h.free
    grind
  -- the end of a write-back that is not the fence's
  have foreign : ∀ {t : Nat} {w : WriteBack}, s.wbs.lookup t = some w → w.drain ≠ some d →
      s.wbs.Any (fun _ w => w.drain = some d) → Table.Any (s.wbs.erase t) (fun _ w => w.drain = some d) := by
    intro t w hw hne hany
    exact hany.drop hw hne
  -- a drain that is not flushing has no write-back in flight
  have idle : ∀ {d' : Nat} {x : Drain}, s.drains.lookup d' = some x → x.phase ≠ .flush →
      ¬ s.wbs.Any (fun _ w => w.drain = some d') := by
    intro d' x hx hph hany
    obtain ⟨t, w, hw, hwd⟩ := (any_iff _ _).1 hany
    exact hown.notFlush hx hph t w hw hwd
  cases hm with
  | install | modify => exact h.frame rfl (dirtyNe hhost) id id h.free
  | hit | insertLost =>
    refine h.frame rfl ?_ id id h.free
    rw [dirty_lruTouch]
  | insertPage =>
    refine h.frame rfl ?_ id id h.free
    rw [dirty_insertClean]
  | @evictClean t wanted q e he hc =>
    refine h.frame rfl ?_ id id h.free
    by_cases hq : q = p
    · have hnot : q ∉ s.inner.dirty := by
        have := hex q
        grind
      rw [hex.dirty_dropEntry, Finset.erase_eq_of_notMem hnot]
    · exact dropNe hq
  | evictDirty he hd hpick ht => exact h.frame rfl Iff.rfl id (anyInsert ht) h.free
  | @sealPage t salt now w hw =>
    have hany : s.wbs.Any (fun _ w => w.drain = some d) →
        Table.Any (s.wbs.insert t { w with isSealed := true }) (fun _ w => w.drain = some d) := by grind [Table.Any.insert]
    by_cases hp : w.page = p
    · refine ⟨⟨x0, hx0, hfirst, hlast, fun hf => ⟨(hx0' hf).1, ?_⟩⟩, h.free⟩
      by_cases hd : w.drain = some d
      · exact .inr (.inr (.inr (.inr (.inr (Table.Any.of_lookup (lookup_insert _) hd)))))
      · exact (hok _ hw _ hx0 hp hd).imp_right fun hws => .inr (hws.mono hany)
    · exact h.frame rfl Iff.rfl (synced_put_ne hp rfl) hany h.free
  | @sealFail t w hw | @abort t w hw =>
    by_cases hd : w.drain = some d
    · exact ⟨⟨_, lookup_report_own hd hx0, hfirst, hlast, fun hf => by cases hf⟩, h.free⟩
    · exact h.frame (lookup_report_other hd) Iff.rfl id (foreign hw hd) h.free
  | @commit t w hw =>
    by_cases hd : w.drain = some d
    · -- the fence's own write-back: the fence has written something now
      obtain ⟨y, hy, hflush⟩ := hown t w d hw hd
      cases hx0.symm.trans hy
      refine ⟨⟨_, lookup_report_own hd hx0, hfirst, hlast, fun hf => ⟨fun _ => .inr hflush, ?_⟩⟩, h.free⟩
      exact .inr (.inr (.inr (.inr (.inl ⟨by simp [hflush], rfl⟩))))
    · rcases mem_dirty_recheck hex w p with hsame | ⟨hp, hnot, e, he, hver⟩
      · exact h.frame (lookup_report_other hd) hsame id (foreign hw hd) h.free
      · refine ⟨⟨x0, (lookup_report_other hd).trans hx0, hfirst, hlast, fun _ => ⟨fun hm => absurd hm hnot, .inr ?_⟩⟩, h.free⟩
        exact (hok _ hw _ hx0 hp.symm hd (by rw [he, Option.map_some, hver])).imp_right (·.mono (foreign hw hd))
  | unmapDrop | cloneDrop => exact h.frame rfl (dropNe hhost) id id (rebindInsert hhost)
  | @cloneGet t src r hr | @cloneGetFrom t rec r hr => exact h.frame rfl Iff.rfl id id (rebindInsert (h.free t r hr))
  | @rebind t r rec hr =>
    refine h.frame (by simp only [drains_rebindPage]) (by simp only [inner_rebindPage])
      (fun hs => synced_rebindPage rec (h.free t r hr) hs) (by simp only [wbs_rebindPage, imp_self])
      fun t' r' hr' => h.free t' r' (lookup_erase_some hr').2
  | unmapSync => exact h.frame rfl Iff.rfl (fun _ => rfl) id h.free
  | @fence d' _ _ _ _ _ hd | @drainStart d' _ _ hd =>
    refine h.frame ?_ Iff.rfl id id h.free
    rw [CacheState.setDrain, lookup_insert_ne]
    rintro rfl
    cases hx0.symm.trans hd
  | @drainEmpty d' x hx hph hb =>
    -- with no write-back of its own: it has written something, so the trailing sync is next
    refine h.setDrain hx ⟨rfl, rfl⟩ fun hd hf => ⟨hf, fun _ hp h1 h2 => ?_⟩
    have hnot : p ∉ s.inner.dirty := x.notMem_of_batch hb h1 h2
    have := idle hx (by simp [hph])
    grind [WillSync, Drain.trailing]
  | @drainPick d' x hx hph => exact h.setDrain hx ⟨rfl, rfl⟩ (by grind [WillSync])
  | @drainSkip d' t q x hx hph => exact h.setDrain hx ⟨rfl, rfl⟩ (by grind [WillSync])
  | @drainFlush d' t q x e hx hph hq ht =>
    have hset : Holds (s.setDrain d' { x with todo := x.todo.erase q }) d p := h.setDrain hx ⟨rfl, rfl⟩ (by grind [WillSync])
    exact hset.frame rfl Iff.rfl id (anyInsert ht) hset.free
  | @drainJoin d' x hx hph htodo hw => exact h.setDrain hx ⟨rfl, rfl⟩ (by grind [WillSync, any_iff])
  | @drainSyncUpload d' x hx hph =>
    have hset : Holds (s.setDrain d' { x with phase := .syncPages }) d p := h.setDrain hx ⟨rfl, rfl⟩ (by grind [WillSync])
    exact hset.frame rfl Iff.rfl id id hset.free
  | @drainSyncPages d' x hx hph =>
    by_cases hd : d' = d
    · subst hd
      cases hx0.symm.trans hx
      refine ⟨⟨_, lookup_insert _, hfirst, hlast, fun hf => ⟨fun hm => ?_, .inr (.inl rfl)⟩⟩, h.free⟩
      have := (hx0' hf).1 hm
      simp [hph] at this
    · refine h.frame ?_ Iff.rfl (fun _ => rfl) id h.free
      rw [CacheState.setDrain, lookup_insert_ne (Ne.symm hd)]
  | @drainSyncFail d' x hx => exact h.setDrain hx ⟨rfl, rfl⟩ (by grind)
  | drainEnd =>
    refine h.frame ?_ Iff.rfl id id h.free
    rw [lookup_erase_ne]
    rintro rfl
    exact hend rfl
  | _ => exact h.frame rfl Iff.rfl id id h.free

theorem owned_run {pages : PageIndex H} {upload : UploadIndexFile} {pool : ChunkPool H} {acts : List (CacheAct H)}
    (hrun : (machine cr cfg).run (opened pages upload pool) acts = some s) : s.inner.DirtyExact ∧ Owned s := by
  have hinv : ∀ (s : CacheState H) (a : CacheAct H) (s' : CacheState H), (s.inner.DirtyExact ∧ Owned s) →
      (machine cr cfg).step s a = some s' → s'.inner.DirtyExact ∧ Owned s' :=
    fun _ _ _ h hstep => ⟨dirtyExact_step h.1 (machine_moves hstep), owned_step h.2 (machine_moves hstep)⟩
  exact Machine.run_inv' _ hinv ⟨.new, fun _ _ _ hw => by cases hw⟩ hrun

/-- **The dirty set is exact, and no drain leaves a write-back behind**, in every interleaving. -/
theorem dirty_set_exact (pages : PageIndex H) (upload : UploadIndexFile) (pool : ChunkPool H) (acts : List (CacheAct H))
    (s : CacheState H) (hrun : (machine cr cfg).run (opened pages upload pool) acts = some s) :
    (∀ p, p ∈ s.inner.dirty ↔ ∃ v, s.inner.view p = some v ∧ v.state = .dirty) ∧
      ∀ d x, s.drains.lookup d = some x → x.phase ≠ .flush → ∀ t w, s.wbs.lookup t = some w → w.drain ≠ some d := by
  obtain ⟨hexact, howned⟩ := owned_run hrun
  refine ⟨hexact, fun d x hx hph t w hw hd => ?_⟩
  obtain ⟨x', hx', hph'⟩ := howned t w d hw hd
  cases hx.symm.trans hx'
  exact hph hph'

theorem dirty_set_exact_flushRun : ∃ s, (machine plain tinyVolume).run blank flushRun = some s ∧
    0 ∉ s.inner.dirty ∧ ¬ ∃ v, s.inner.view 0 = some v ∧ v.state = .dirty := by
  refine Machine.ends_of (fun s => 0 ∉ s.inner.dirty) (by decide +kernel) fun s hs hd => ⟨hd, fun hv => hd ?_⟩
  exact ((dirty_set_exact default default (fun _ => none) _ s hs).1 0).2 hv

/-- **What a fence makes durable**: a page dirty or durable at the call, not half rebound and left alone by the host, is
clean and in the synced image when the drain ends without an error, under `fenceOk`. -/
theorem fence_durable (pages : PageIndex H) (upload : UploadIndexFile) (pool : ChunkPool H) (acts1 : List (CacheAct H))
    (s1 s2 s3 : CacheState H) (hrun1 : (machine cr cfg).run (opened pages upload pool) acts1 = some s1)
    (htier : cfg.syncAfter ≠ .memory) (d byteOffset len : Nat)
    (hcall : (machine cr cfg).step s1 (.fence d byteOffset len) = some s2) (p : PageId) (hlen : 0 < len)
    (hsize : byteOffset + len ≤ UInt64.size) (hlo : byteOffset < (p.toNat + 1) * cfg.pageSize)
    (hhi : p.toNat * cfg.pageSize < byteOffset + len) (hbefore : p ∈ s1.inner.dirty ∨ s1.Synced p)
    (hfree : s1.rebinds.All (fun _ r => r.page ≠ p)) (acts2 : List (CacheAct H))
    (hrun2 : (machine cr cfg).run s2 acts2 = some s3) (hquiet : ∀ a ∈ acts2, ¬ onto p a ∧ a ≠ .drainEnd d)
    (hok : (machine cr cfg).Meets (fenceOk d p) s2 acts2) (x : Drain) (hx : s3.drains.lookup d = some x)
    (hdone : x.phase = .done) (hret : x.failed = false) : p ∉ s3.inner.dirty ∧ s3.Synced p := by
  obtain ⟨hex1, hown1⟩ := owned_run hrun1
  obtain ⟨first, last, hrange, h1, h2⟩ := pageRangeForBytes_covers hsize hlo hhi hlen
  have hm := machine_moves hcall
  have hstart : Holds s2 d p := by
    cases hm with
    | fenceNone => grind
    | fence hr =>
      rw [hrange, Option.some.injEq, Prod.mk.injEq] at hr
      obtain ⟨rfl, rfl⟩ := hr
      exact ⟨⟨_, AList.lookup_insert _, h1, h2, fun _ => ⟨fun _ => .inl rfl, hbefore.imp_right .inl⟩⟩,
        fun t r hr => hfree.lookup hr⟩
  have hinv : ∀ (s : CacheState H) (a : CacheAct H) (s' : CacheState H),
      ((s.inner.DirtyExact ∧ Owned s) ∧ Holds s d p) → ((¬ onto p a ∧ a ≠ .drainEnd d) ∧ fenceOk d p s a) →
      (machine cr cfg).step s a = some s' → (s'.inner.DirtyExact ∧ Owned s') ∧ Holds s' d p := by
    rintro s a s' ⟨⟨hex, hown⟩, hh⟩ ⟨⟨hhost, hend⟩, hok⟩ hstep
    have hm := machine_moves hstep
    exact ⟨⟨dirtyExact_step hex hm, owned_step hown hm⟩, hh.step hex hown hm hhost hend hok⟩
  obtain ⟨⟨-, hown3⟩, hholds⟩ := Machine.run_inv _ hinv
    ⟨⟨dirtyExact_step hex1 hm, owned_step hown1 hm⟩, hstart⟩
    (Machine.Meets.and _ (Machine.meets_of_forall _ hquiet) hok) hrun2
  obtain ⟨y, hy, -, -, hrow⟩ := hholds.row
  rw [hx, Option.some.injEq] at hy
  subst hy
  obtain ⟨hph, hp⟩ := hrow hret
  have hnot : p ∉ s3.inner.dirty := by grind
  refine ⟨hnot, ?_⟩
  rcases hp with hp | hp | hp | hp | hp | hp
  · exact absurd hp hnot
  · exact hp
  · rw [hdone] at hp
    cases hp
  · rw [hdone] at hp
    cases hp
  · exact absurd hdone hp.1
  · obtain ⟨t, w, hw, hwd⟩ := (Table.any_iff _ _).1 hp
    exact absurd hwd (hown3.notFlush hx (by rw [hdone]; decide) t w hw)

def fenceRun : List (CacheAct Bytes) :=
  [.drainPick 5, .drainFlush 5 10 0, .sealPage 10 0 0, .commit 10, .drainJoin 5, .drainPick 5, .drainSyncUpload 5,
    .drainSyncPages 5]

theorem fence_durable_fenceRun :
    ∃ s1 s2 s3, (machine plain tinyVolume).run blank [.install 0 [1]] = some s1 ∧
      (machine plain tinyVolume).step s1 (.fence 5 0 1) = some s2 ∧
      (machine plain tinyVolume).run s2 fenceRun = some s3 ∧ s3.pages.getEntry 0 ≠ none ∧ 0 ∉ s3.inner.dirty ∧
      s3.Synced 0 := by
  obtain ⟨s1, hs1, hdirty, hfree, s2, hs2, hok, s3, hs3, halloc, x, hx, hdone, hret⟩ :
      ∃ s1 ∈ (machine plain tinyVolume).run blank [.install 0 [1]], 0 ∈ s1.inner.dirty ∧
      s1.rebinds.All (fun _ r => r.page ≠ 0) ∧ ∃ s2 ∈ (machine plain tinyVolume).step s1 (.fence 5 0 1),
      (machine plain tinyVolume).Meets (fenceOk 5 0) s2 fenceRun ∧
      ∃ s3 ∈ (machine plain tinyVolume).run s2 fenceRun, s3.pages.getEntry 0 ≠ none ∧
      ∃ x, s3.drains.lookup 5 = some x ∧ x.phase = .done ∧ x.failed = false := by decide +kernel
  refine ⟨s1, s2, s3, hs1, hs2, hs3, halloc, ?_⟩
  exact fence_durable default default (fun _ => none) [.install 0 [1]] s1 s2 s3 hs1 (by decide) 5 0 1 hs2 0 (by decide)
    (by decide) (by decide) (by decide) (.inl hdirty) hfree fenceRun hs3 (by simp [fenceRun, onto])
    hok x hx hdone hret

def evictedFenceRun : List (CacheAct Bytes) :=
  [.install 0 [1], .evict 11 1, .sealPage 11 0 0, .commit 11, .fence 5 0 1, .drainPick 5]

/-- **A fence that returned has made nothing durable**: an eviction wrote the record unsynced. -/
theorem fence_durable_fails : ∃ s x, (machine plain tinyVolume).run blank evictedFenceRun = some s ∧
    s.drains.lookup 5 = some x ∧ x.phase = .done ∧ x.failed = false ∧ s.pages.getEntry 0 ≠ none ∧ ¬ s.Synced 0 :=
  Machine.ends_twice (by decide +kernel)

end CacheState
end Thur

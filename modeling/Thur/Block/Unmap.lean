import Thur.Block.WriteBack
/-!
# Unmap — when an UNMAP or a clone rebind sticks

An UNMAP drops the cached entry under the lock and clears the record off it; a clone binds the record the same way. A
write-back that captured the page before the drop writes its record whenever its seal gets there, without looking, so
the UNMAP's record is the last word exactly when no such seal is still to come.
-/
namespace Thur
namespace PageSlot

variable {H : Type} {sl sl' : PageSlot H} {b : Bytes}

/-- Every way of reading the page gives `b`. -/
structure Reads (sl : PageSlot H) (b : Bytes) : Prop where
  hit : ∀ v, sl.entry = some v → v.bytes = b
  fetch : sl.content = some b
  load : ∀ x ∈ sl.loads, x.2 = b

/-- Nothing Dirty is cached, no rebind is half done, and whatever a seal may still write is `b`. -/
structure Kept (acc : Bytes → Prop) (sl : PageSlot H) (b : Bytes) : Prop extends Reads sl b where
  clean : ∀ v, sl.entry = some v → v.state = .clean
  free : ¬ sl.busy
  wbs : ∀ w ∈ sl.wbs, w.isSealed = false → acc w.bytes → w.bytes = b

theorem Kept.under {acc : Bytes → Prop} (h : Kept acc sl b) (hu : sl.Under sl')
    (he : sl'.entry = sl.entry ∨ sl'.entry = none) : Kept acc sl' b where
  hit v hv := by
    rcases he with he | he
    · exact h.hit v (he ▸ hv)
    · rw [he] at hv
      cases hv
  fetch := hu.content _ h.fetch
  load x hx := h.load x (hu.loads hx)
  clean v hv := by
    rcases he with he | he
    · exact h.clean v (he ▸ hv)
    · rw [he] at hv
      cases hv
  free hb := h.free (hu.busy.1 hb)
  wbs w hw := h.wbs w (hu.wbs hw)

theorem Kept.step {acc : Bytes → Prop} {a : SlotAct H} (h : Kept acc sl b) (hs : SlotStep sl a sl') (hhost : ¬ isHost a)
    (hacc : ∀ w e, a = .sealPage w e → acc w.bytes) : Kept acc sl' b := by
  cases a with
  | quiet => exact h.under hs.2 (.inl hs.1)
  | write | drop => exact absurd trivial hhost
  | fetch bytes =>
    obtain ⟨hb, he, hu⟩ := hs
    have hload : ∀ x ∈ insert (sl.record, bytes) sl.loads, x.2 = b := by
      rintro x (rfl | hx)
      · rw [h.fetch, Option.some.injEq] at hb
        exact hb.symm
      · exact h.load x hx
    have h' : Kept acc { sl with loads := insert (sl.record, bytes) sl.loads } b :=
      ⟨⟨h.hit, h.fetch, hload⟩, h.clean, h.free, h.wbs⟩
    exact h'.under hu (.inl he)
  | insert x =>
    obtain ⟨hx, -, he, hu⟩ := hs
    have hk : Kept acc { sl' with entry := none } b := h.under ⟨hu.record, hu.content, hu.wbs, hu.loads, hu.busy⟩ (.inr rfl)
    refine ⟨⟨fun v hv => ?_, hk.fetch, hk.load⟩, fun v hv => ?_, hk.free, hk.wbs⟩
    · rw [he, Option.some.injEq] at hv
      rw [← hv]
      exact h.load x hx
    · rw [he, Option.some.injEq] at hv
      rw [← hv]
  | evict => exact h.under hs.2.2 (.inr hs.2.1)
  | capture =>
    -- only a Dirty entry is captured
    have := h.clean _ hs.1
    cases this
  | sealPage w e =>
    obtain ⟨hmem, hns, he, -, hc, hw, hl, hb⟩ := hs
    refine ⟨⟨fun v hv => h.hit v (he ▸ hv), ?_, fun x hx => h.load x (hl ▸ hx)⟩, fun v hv => h.clean v (he ▸ hv),
      fun hb' => h.free (hb.1 hb'), fun w' hw' hns' ha => ?_⟩
    · rw [hc, h.wbs w hmem hns (hacc w e rfl)]
    · rcases hw hw' with rfl | hw'
      · cases hns'
      · exact h.wbs w' hw' hns' ha
  | settle =>
    obtain ⟨-, -, hu, he | ⟨v, hv, -, he | he⟩⟩ := hs
    · exact h.under hu (.inl he)
    · refine h.under hu (.inl ?_)
      rw [he, hv, ← h.clean v hv]
    · exact h.under hu (.inr he)
  | rebind => exact absurd hs.1 h.free

theorem record_of_kept {a : SlotAct H} (h : Kept (fun _ => True) sl b) (hnone : ∀ w ∈ sl.wbs, w.isSealed = true)
    (hs : SlotStep sl a sl') (hhost : ¬ isHost a) : sl'.record = sl.record ∧ ∀ w ∈ sl'.wbs, w.isSealed = true := by
  have under : sl.Under sl' → sl'.record = sl.record ∧ ∀ w ∈ sl'.wbs, w.isSealed = true :=
    fun hu => ⟨hu.record, fun w hw => hnone w (hu.wbs hw)⟩
  cases a with
  | quiet => exact under hs.2
  | write | drop => exact absurd trivial hhost
  | fetch => exact ⟨hs.2.2.record, fun w hw => hnone w (hs.2.2.wbs hw)⟩
  | insert => exact under hs.2.2.2
  | evict => exact under hs.2.2
  | capture =>
    have := h.clean _ hs.1
    cases this
  | sealPage w =>
    have := hnone w hs.1
    rw [hs.2.1] at this
    cases this
  | settle => exact under hs.2.2.1
  | rebind => exact absurd hs.1 h.free

end PageSlot

namespace CacheState

open PageSlot Crates Machine

variable {H : Type} [DecidableEq H] {cr : Crates H} {cfg : VolumeConfig} {acts : List (CacheAct H)}
  {s s' : CacheState H} {b : Bytes}

theorem sound_run (h : Sound cr cfg s) (hrun : (machine cr cfg).run s acts = some s') : Sound cr cfg s' :=
  run_inv' _ (fun _ _ _ hs hstep => hs.step (machine_moves hstep)) h hrun

/-- **Every page can be read from the pool, whatever races**, and a load in flight holds the bytes of the record it
looked up. -/
theorem pages_resolve (pages : PageIndex H) (upload : UploadIndexFile) (pool : ChunkPool H)
    (h0 : Healthy cr cfg pages pool) (acts : List (CacheAct H)) (s : CacheState H)
    (hrun : (machine cr cfg).run (opened pages upload pool) acts = some s) :
    (∀ p, ∃ b, s.content cr cfg p = some b) ∧ (∀ h f, s.pool h = some f → cr.blake3 f.bytes = h) ∧
      ∀ t l x, s.loads.lookup t = some l → l.fetched = some x → resolve cr cfg s.pool l.page x.1 = some x.2 := by
  have h := sound_run (h0.sound upload) hrun
  exact ⟨fun p => Option.isSome_iff_exists.1 (h.records p), h.pool, h.loads⟩

theorem pages_resolve_versionReuse : ∃ s, (machine plain tinyVolume).run blank versionReuseRun = some s ∧
    ∃ b, s.content plain tinyVolume 0 = some b := by
  refine ends_of (fun _ => True) (by decide +kernel) fun s hs _ => ?_
  exact (pages_resolve default default (fun _ => none) healthy_blank _ s hs).1 0

theorem slot_rebind {t : Nat} {r : Rebind H} {rec : Option (PageEntry H)} (hs : Sound cr cfg s)
    (hr : s.rebinds.lookup t = some r) (hrec : r.target = some rec) (hb : resolve cr cfg s.pool r.page rec = some b)
    (hstep : (machine cr cfg).step s (.rebind t) = some s') :
    (s'.slot cr cfg r.page).entry = s.inner.view r.page ∧ (s'.slot cr cfg r.page).record = rec ∧
      (s'.slot cr cfg r.page).content = some b ∧ s'.wbs = s.wbs ∧ s'.loads = s.loads ∧ s'.rebinds = s.rebinds.erase t := by
  cases machine_moves hstep with
  | @rebind _ r' rec' hr' hrec' =>
    rw [hr, Option.some.injEq] at hr'
    subst hr'
    rw [hrec, Option.some.injEq] at hrec'
    subst hrec'
    have hu : r.unmap = true → rec = none := by
      intro hu
      rw [hs.unmaps t r hr hu] at hrec
      exact (Option.some.inj hrec).symm
    have hget := getEntry_rebindPage s r rec hu r.page
    rw [if_pos rfl] at hget
    refine ⟨by simp only [slot, inner_rebindPage], hget, ?_, by simp, by simp, rfl⟩
    simp only [slot, content, hget, pool_rebindPage]
    exact hb

theorem kept_run {p : PageId} (hs : Sound cr cfg s) (hk : Kept (accepts cfg p) (s.slot cr cfg p) b)
    (hacts : ∀ a ∈ acts, ¬ onto p a) (hrun : (machine cr cfg).run s acts = some s') :
    Kept (accepts cfg p) (s'.slot cr cfg p) b := by
  have hinv : ∀ (s : CacheState H) (a : CacheAct H) (s' : CacheState H),
      (Sound cr cfg s ∧ Kept (accepts cfg p) (s.slot cr cfg p) b) → ¬ onto p a → (machine cr cfg).step s a = some s' →
      Sound cr cfg s' ∧ Kept (accepts cfg p) (s'.slot cr cfg p) b := by
    rintro s a s' ⟨hs, hk⟩ hok hstep
    have hm := machine_moves hstep
    obtain ⟨c, hc, -, hhost, hacc, -⟩ := step_slot hs hm p
    refine ⟨hs.step hm, hk.step hc (fun h => hok (hhost h)) ?_⟩
    rintro w e rfl
    exact hacc
  exact (run_inv _ hinv ⟨hs, hk⟩ (meets_of_forall _ hacts) hrun).2

theorem record_run {p : PageId} (hs : Sound cr cfg s) (hk : Kept (fun _ => True) (s.slot cr cfg p) b)
    (hnone : ∀ w ∈ (s.slot cr cfg p).wbs, w.isSealed = true) (hacts : ∀ a ∈ acts, ¬ onto p a)
    (hrun : (machine cr cfg).run s acts = some s') : s'.pages.getEntry p = s.pages.getEntry p := by
  have hinv : ∀ (s1 : CacheState H) (a : CacheAct H) (s2 : CacheState H),
      (Sound cr cfg s1 ∧ Kept (fun _ => True) (s1.slot cr cfg p) b ∧ (∀ w ∈ (s1.slot cr cfg p).wbs, w.isSealed = true) ∧
        (s1.slot cr cfg p).record = s.pages.getEntry p) → ¬ onto p a → (machine cr cfg).step s1 a = some s2 →
      Sound cr cfg s2 ∧ Kept (fun _ => True) (s2.slot cr cfg p) b ∧ (∀ w ∈ (s2.slot cr cfg p).wbs, w.isSealed = true) ∧
        (s2.slot cr cfg p).record = s.pages.getEntry p := by
    rintro s1 a s2 ⟨hs, hk, hnone, hrec⟩ hok hstep
    have hm := machine_moves hstep
    obtain ⟨c, hc, -, hhost, -⟩ := step_slot hs hm p
    have hhost' : ¬ isHost c := fun h => hok (hhost h)
    obtain ⟨hrec', hnone'⟩ := record_of_kept hk hnone hc hhost'
    exact ⟨hs.step hm, hk.step hc hhost' (fun _ _ _ => trivial), hnone', hrec'.trans hrec⟩
  exact (run_inv _ hinv ⟨hs, hk, hnone, rfl⟩ (meets_of_forall _ hacts) hrun).2.2.2

/-- **An UNMAP or a clone sticks exactly when no write-back of the page is still to be sealed with other bytes**, for a
page that is not cached, loaded or rebound when its record is written. -/
theorem rebind_sticks_iff (pages : PageIndex H) (upload : UploadIndexFile) (pool : ChunkPool H)
    (h0 : Healthy cr cfg pages pool) (acts1 : List (CacheAct H)) (s1 s2 : CacheState H)
    (hrun : (machine cr cfg).run (opened pages upload pool) acts1 = some s1) (t : Nat) (r : Rebind H)
    (rec : Option (PageEntry H)) (b : Bytes) (hr : s1.rebinds.lookup t = some r) (hrec : r.target = some rec)
    (hb : resolve cr cfg s1.pool r.page rec = some b) (hstep : (machine cr cfg).step s1 (.rebind t) = some s2)
    (hcached : s1.inner.view r.page = none) (hload : s1.loads.All (fun _ l => l.page ≠ r.page))
    (honly : s1.rebinds.All (fun t' r' => r'.page = r.page → t' = t)) :
    ((∀ acts2 s3, (∀ a ∈ acts2, ¬ onto r.page a) → (machine cr cfg).run s2 acts2 = some s3 →
        Reads (s3.slot cr cfg r.page) b) ↔
      ∀ t' w, s1.wbs.lookup t' = some w → w.page = r.page → w.isSealed = false → accepts cfg r.page w.bytes →
        w.bytes = b) ∧
    ((∀ t' w, s1.wbs.lookup t' = some w → w.page = r.page → w.isSealed = true) →
      ∀ acts2 s3, (∀ a ∈ acts2, ¬ onto r.page a) → (machine cr cfg).run s2 acts2 = some s3 →
        s3.pages.getEntry r.page = rec) := by
  have hs1 := sound_run (h0.sound upload) hrun
  have hs2 := hs1.step (machine_moves hstep)
  obtain ⟨hentry, hrecord, hcontent, hwbs, hloads, hrebinds⟩ := slot_rebind hs1 hr hrec hb hstep
  have kept : ∀ acc : Bytes → Prop, (∀ t' w, s1.wbs.lookup t' = some w → w.page = r.page → w.isSealed = false →
      acc w.bytes → w.bytes = b) → Kept acc (s2.slot cr cfg r.page) b := by
    intro acc hacc
    refine ⟨⟨fun v hv => ?_, hcontent, ?_⟩, fun v hv => ?_, ?_, ?_⟩
    · rw [hentry, hcached] at hv
      cases hv
    · rintro x ⟨t', l, hl, hp, -⟩
      rw [hloads] at hl
      exact absurd hp (hload.lookup hl)
    · rw [hentry, hcached] at hv
      cases hv
    · rintro ⟨t', r', hr', hp⟩
      rw [hrebinds] at hr'
      obtain ⟨hne, hr'⟩ := Table.lookup_erase_some hr'
      exact hne (honly.lookup hr' hp)
    · rintro w ⟨⟨t', ht⟩, hp⟩ hns ha
      rw [hwbs] at ht
      exact hacc t' w ht hp hns ha
  refine ⟨⟨fun hall t' w hw hp hns hacc => ?_, fun hcond acts2 s3 hacts hrun2 => ?_⟩, fun hnone acts2 s3 hacts hrun2 => ?_⟩
  · -- the seal that is still to come is a continuation of its own
    have hstep' : (machine cr cfg).step s2 (.sealPage t' 0 0) =
        some { s2.sealPage cr cfg w 0 0 with wbs := s2.wbs.insert t' { w with isSealed := true } } := by
      simp only [machine, step, hwbs, hw, Option.bind_some, hns, hp, hacc, and_self, if_true]
    have hreads := hall [.sealPage t' 0 0] _ (by intro a ha; rw [List.mem_singleton.1 ha]; exact id)
      ((run_singleton _ _ _).trans hstep')
    have hfetch := hreads.fetch
    rw [← hp] at hfetch
    exact Option.some.inj ((content_sealPage hs2.pool w 0 0).symm.trans hfetch)
  · exact (kept_run hs2 (kept _ hcond) hacts hrun2).toReads
  · have hk : Kept (fun _ => True) (s2.slot cr cfg r.page) b := by
      refine kept _ fun t' w hw hp hns => ?_
      rw [hnone t' w hw hp] at hns
      cases hns
    refine (record_run hs2 hk ?_ hacts hrun2).trans hrecord
    rintro w ⟨⟨t', ht⟩, hp⟩
    rw [hwbs] at ht
    exact hnone t' w ht hp

def settledUnmapRun : List (CacheAct Bytes) := flushRun ++ [.unmapDrop 1 0]

theorem rebind_sticks_iff_settledUnmapRun :
    ∃ s1 s2, (machine plain tinyVolume).run blank settledUnmapRun = some s1 ∧
      (machine plain tinyVolume).step s1 (.rebind 1) = some s2 ∧
      ∀ acts2 s3, (∀ a ∈ acts2, ¬ onto 0 a) → (machine plain tinyVolume).run s2 acts2 = some s3 →
        Reads (s3.slot plain tinyVolume 0) [0] ∧ s3.pages.getEntry 0 = none := by
  obtain ⟨s1, hs1, hview, hwbs, hload, honly, r, hr, hp, htarget, hunmap⟩ :
      ∃ s ∈ (machine plain tinyVolume).run blank settledUnmapRun, s.inner.view 0 = none ∧
      s.wbs.entries.length = 0 ∧ s.loads.All (fun _ l => l.page ≠ 0) ∧
      s.rebinds.All (fun t' r' => r'.page = 0 → t' = 1) ∧ ∃ r, s.rebinds.lookup 1 = some r ∧ r.page = 0 ∧
      r.target = some none ∧ r.unmap = true := by decide +kernel
  have hnil := List.eq_nil_of_length_eq_zero hwbs
  have hno : ∀ t' w, s1.wbs.lookup t' = some w → False := by
    intro t' w hw
    have := AList.mem_lookup_iff.1 hw
    rw [hnil] at this
    cases this
  have hstep : (machine plain tinyVolume).step s1 (.rebind 1) =
      some { s1.rebindPage r none with rebinds := s1.rebinds.erase 1 } := by
    simp only [machine, step, hr, Option.bind_some, htarget]
  have hmain := rebind_sticks_iff default default (fun _ => none) healthy_blank settledUnmapRun s1 _ hs1 1 r none [0] hr
    htarget rfl hstep (hp ▸ hview) (hp ▸ hload) (hp ▸ honly)
  rw [hp] at hmain
  refine ⟨s1, _, hs1, hstep, fun acts2 s3 hacts hrun => ⟨?_, ?_⟩⟩
  · exact hmain.1.2 (fun t' w hw => (hno t' w hw).elim) acts2 s3 hacts hrun
  · exact hmain.2 (fun t' w hw => (hno t' w hw).elim) acts2 s3 hacts hrun

def undoneUnmapRun : List (CacheAct Bytes) :=
  [.install 0 [1], .drainStart 0 0 3, .drainPick 0, .drainFlush 0 10 0, .unmapDrop 1 0, .rebind 1, .unmapSync,
    .sealPage 10 0 0, .commit 10]

/-- **An UNMAP that returned is undone** by a flush that had captured the page. -/
theorem rebind_sticks_fails : ∃ s, (machine plain tinyVolume).run blank undoneUnmapRun = some s ∧
    s.pages.getEntry 0 ≠ none ∧ s.content plain tinyVolume 0 = some [1] ∧
    ¬ Reads (s.slot plain tinyVolume 0) [0] := by
  refine ends_of (fun s => s.pages.getEntry 0 ≠ none ∧ s.content plain tinyVolume 0 = some [1])
    (by decide +kernel) fun s _ h => ⟨h.1, h.2, fun hreads => ?_⟩
  have := h.2.symm.trans hreads.fetch
  cases this

end CacheState
end Thur

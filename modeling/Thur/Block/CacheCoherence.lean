import Thur.Block.PageSlot
/-!
# CacheCoherence — every step of the cache machine is a step of each page's slot

`step_slot` reads the machine page by page; what the slots keep, every run of the machine keeps.  `cacheOk` is the
condition of `slotOk` on the machine's own state, and `hostView` the flat store the host sees.
-/

namespace Thur.CacheState

open PageSlot CacheInner Option Function

variable {H : Type} [DecidableEq H] (cr : Crates H) (cfg : VolumeConfig) {pool : ChunkPool H} {p : PageId}
  {s s' : CacheState H} {a : CacheAct H} {t : Nat} {pages : PageIndex H}

def slot (s : CacheState H) (p : PageId) : PageSlot H where
  entry := s.inner.view p
  record := s.pages.getEntry p
  content := s.content cr cfg p
  wbs := { w | (∃ t, s.wbs.lookup t = some w) ∧ w.page = p }
  loads := { x | ∃ t l, s.loads.lookup t = some l ∧ l.page = p ∧ l.fetched = some x }
  busy := ∃ t r, s.rebinds.lookup t = some r ∧ r.page = p

/-! ## Records resolve -/

/-- Without any condition: chunks are what their names say, and every record, fetched page and rebind target
resolves. -/
structure Sound (s : CacheState H) : Prop where
  pool : PoolOk cr s.pool
  records : ∀ p, (s.content cr cfg p).isSome = true
  loads : ∀ t l x, s.loads.lookup t = some l → l.fetched = some x → resolve cr cfg s.pool l.page x.1 = some x.2
  targets : ∀ t r rec, s.rebinds.lookup t = some r → r.target = some rec →
    (resolve cr cfg s.pool r.page rec).isSome = true
  unmaps : ∀ t r, s.rebinds.lookup t = some r → r.unmap = true → r.target = some none

variable {cr cfg}

theorem isSome_resolve_insertBytes {rec : Option (PageEntry H)} (h : H) (payload : Bytes) (now : Nat)
    (hr : (resolve cr cfg pool p rec).isSome = true) :
    (resolve cr cfg (pool.insertBytes h payload now) p rec).isSome = true := by
  obtain ⟨b, hb⟩ := isSome_iff_exists.1 hr
  rw [resolve_insertBytes cr cfg h payload now hb]
  rfl

omit [DecidableEq H] in
theorem resolve_of_unencrypted (hk : cfg.encryptionKey = none) (p q : PageId) (rec : Option (PageEntry H)) :
    resolve cr cfg pool p rec = resolve cr cfg pool q rec := by
  cases rec with
  | none => rfl
  | some e => simp only [resolve, openPayload, hk]

theorem unencrypted_of_rebindIsSound {src dst : PageId} (hne : src ≠ dst)
    (h : rebindIsSound cfg.encryptionKey.isSome cfg.dekUuid src cfg.encryptionKey.isSome cfg.dekUuid dst = true) :
    cfg.encryptionKey = none := by
  cases hk : cfg.encryptionKey with
  | none => rfl
  | some key =>
    rw [hk] at h
    simp [rebindIsSound, hne] at h

omit [DecidableEq H] in
theorem getEntry_put (ix : PageIndex H) (p q : PageId) (rec : Option (PageEntry H)) :
    PageIndex.getEntry (ix.put p rec) q = if p = q then rec else PageIndex.getEntry ix q := RecordFile.read_put ix p q rec

theorem content_sealPage (h : PoolOk cr s.pool) (w : WriteBack) (salt : UInt64) (now : Nat) :
    (s.sealPage cr cfg w salt now).content cr cfg w.page = some w.bytes := by
  simp only [content, sealPage, PageIndex.setUnsyncedSalted, getEntry_put, if_true]
  exact resolve_sealEntry cr cfg h w.page salt w.bytes now

theorem content_sealPage_ne {w : WriteBack} (salt : UInt64) (now : Nat) (hp : w.page ≠ p) {b : Bytes}
    (hb : s.content cr cfg p = some b) : (s.sealPage cr cfg w salt now).content cr cfg p = some b := by
  simp only [content, sealPage, PageIndex.setUnsyncedSalted, getEntry_put, if_neg hp]
  exact resolve_insertBytes cr cfg _ _ now hb

section

variable (s : CacheState H) (r : Rebind H) (rec : Option (PageEntry H))

omit [DecidableEq H] in
theorem getEntry_rebindPage (hu : r.unmap = true → rec = none)
    (q : PageId) : (s.rebindPage r rec).pages.getEntry q = if r.page = q then rec else s.pages.getEntry q := by
  unfold rebindPage
  split
  · next h => rw [hu h]; exact getEntry_put s.pages r.page q none
  · cases rec with
    | none => exact getEntry_put s.pages r.page q none
    | some e => exact getEntry_put s.pages r.page q (some e)

section

omit [DecidableEq H]

@[simp] theorem pool_rebindPage :
    (s.rebindPage r rec).pool = s.pool := by
  unfold rebindPage
  split <;> rfl

@[simp] theorem inner_rebindPage :
    (s.rebindPage r rec).inner = s.inner := by
  unfold rebindPage
  split <;> rfl

@[simp] theorem wbs_rebindPage :
    (s.rebindPage r rec).wbs = s.wbs := by
  unfold rebindPage
  split <;> rfl

@[simp] theorem drains_rebindPage :
    (s.rebindPage r rec).drains = s.drains := by
  unfold rebindPage
  split <;> rfl

@[simp] theorem loads_rebindPage :
    (s.rebindPage r rec).loads = s.loads := by
  unfold rebindPage
  split <;> rfl

end

end

theorem Sound.step (h : Sound cr cfg s) (hm : Moves cr cfg s a s') : Sound cr cfg s' := by
  obtain ⟨hpool, hrecords, hloads, htargets, hunmaps⟩ := h
  cases hm with
  | lead | fetch => exact ⟨hpool, hrecords, by grind [content], htargets, hunmaps⟩
  | insertLost | insertPage | loadFail =>
    exact ⟨hpool, hrecords, fun t l x hl => hloads t l x (Table.lookup_erase_some hl).2, htargets, hunmaps⟩
  | @sealPage t salt now w =>
    refine ⟨hpool.insertBytes _ now, fun p => ?_, fun t' l x hl hx => ?_, fun t' r rec hr hrec => ?_, hunmaps⟩
    · by_cases hp : w.page = p
      · subst hp
        exact isSome_iff_exists.2 ⟨_, content_sealPage hpool w salt now⟩
      · obtain ⟨b, hb⟩ := isSome_iff_exists.1 (hrecords p)
        exact isSome_iff_exists.2 ⟨b, content_sealPage_ne salt now hp hb⟩
    · exact resolve_insertBytes cr cfg _ _ now (hloads t' l x hl hx)
    · exact isSome_resolve_insertBytes _ _ now (htargets t' r rec hr hrec)
  | unmapDrop | cloneDrop => exact ⟨hpool, hrecords, hloads, by grind [resolve], by grind⟩
  | @cloneGet t src r hr hn hne hsound =>
    have hsrc : (resolve cr cfg s.pool r.page (s.pages.getEntry src)).isSome = true := by
      rw [resolve_of_unencrypted (unencrypted_of_rebindIsSound hne hsound) _ src]
      exact hrecords src
    exact ⟨hpool, hrecords, hloads, by grind, by grind⟩
  | cloneGetFrom => exact ⟨hpool, hrecords, hloads, by grind, by grind⟩
  | @rebind t r rec hr htarget =>
    refine ⟨by simpa using hpool, fun p => ?_, by simpa using hloads, by grind [pool_rebindPage], by grind⟩
    have hu : r.unmap = true → rec = none := by grind
    simp only [content, getEntry_rebindPage s r rec hu p, pool_rebindPage]
    split
    next hp => exact hp ▸ htargets t r rec hr htarget
    · exact hrecords p
  | @foreignSeal payload now =>
    exact ⟨hpool.insertBytes payload now, fun p => isSome_resolve_insertBytes _ _ now (hrecords p),
      fun t' l x hl hx => resolve_insertBytes cr cfg _ _ now (hloads t' l x hl hx),
      fun t' r rec hr hrec => isSome_resolve_insertBytes _ _ now (htargets t' r rec hr hrec), hunmaps⟩
  | _ => exact ⟨hpool, hrecords, hloads, htargets, hunmaps⟩

/-! ## The condition, and the host's view -/

/-- **When a step of the cache is safe**: no held version is reused, unsealed write-backs of a page agree, a load
inserts what the record still names, and a rebind finds its page neither cached nor in flight. -/
def cacheOk (cfg : VolumeConfig) (s : CacheState H) : CacheAct H → Prop
  | .install p _ => s.wbs.All fun _ w => w.page = p → w.version ≠ s.inner.nextVersion p
  | .modify p _ _ => s.wbs.All fun _ w => w.page = p → w.version ≠ s.inner.nextVersion p
  | .evict _ wanted =>
    match s.inner.evictStep cfg.budgetPages wanted with
    | .dirty p bytes _ => s.wbs.All fun _ w => w.page = p → w.isSealed = false → w.bytes = bytes
    | _ => True
  | .drainFlush _ _ p =>
    match s.inner.view p with
    | some e => s.wbs.All fun _ w => w.page = p → w.isSealed = false → w.bytes = e.bytes
    | none => True
  | .insertPage t =>
    match s.loads.lookup t with
    | some l => s.inner.view l.page = none →
        l.fetched.map Prod.fst = some (s.pages.getEntry l.page) ∧ s.rebinds.All fun _ r => r.page ≠ l.page
    | none => True
  | .rebind t =>
    match s.rebinds.lookup t with
    | some r => s.inner.view r.page = none ∧ s.wbs.All fun _ w => w.page ≠ r.page
    | none => True
  | _ => True

instance (s : CacheState H) (a : CacheAct H) : Decidable (cacheOk cfg s a) := by
  unfold cacheOk
  split <;> first | infer_instance | (split <;> infer_instance)

/-- The store as the host sees it. -/
def hostView (cr : Crates H) (cfg : VolumeConfig) (s : CacheState H) (a : CacheAct H) (v : PageId → Bytes) : PageId → Bytes :=
  match a with
  | .install p bytes => update v p bytes
  | .modify p offset data => update v p (CacheInner.splice (v p) offset data)
  | .rebind t =>
    match s.rebinds.lookup t with
    | some r => update v r.page ((r.target.bind (resolve cr cfg s.pool r.page)).getD (v r.page))
    | none => v
  | _ => v

def onto (p : PageId) : CacheAct H → Prop
  | .install q _ => q = p
  | .modify q _ _ => q = p
  | .unmapDrop _ q => q = p
  | .cloneDrop _ q => q = p
  | _ => False

def sealAccepted (cfg : VolumeConfig) (p : PageId) : SlotAct H → Prop
  | .sealPage w _ => accepts cfg p w.bytes
  | _ => True

def SlotOf (cr : Crates H) (cfg : VolumeConfig) (s : CacheState H) (a : CacheAct H) (s' : CacheState H) (p : PageId)
    (b : SlotAct H) : Prop :=
  SlotStep (s.slot cr cfg p) b (s'.slot cr cfg p) ∧ (cacheOk cfg s a → slotOk (s.slot cr cfg p) b) ∧
    (isHost b → onto p a) ∧ sealAccepted cfg p b ∧ ∀ v, Shows (s.slot cr cfg p) (v p) → hostView cr cfg s a v p = shown b (v p)

omit [DecidableEq H] in
theorem slotOf_quiet (he : s'.inner.view p = s.inner.view p) (hu : (s.slot cr cfg p).Under (s'.slot cr cfg p))
    (hv : ∀ v, hostView cr cfg s a v p = v p) : ∃ b, SlotOf cr cfg s a s' p b :=
  ⟨.quiet, ⟨he, hu⟩, fun _ => trivial, False.elim, trivial, fun v _ => hv v⟩

theorem bytes_entryOr {c : CacheInner} {e : PageView} (he : c.view p = some e) : (c.entryOr p).bytes = e.bytes := by
  obtain ⟨x, hx, rfl⟩ := map_eq_some_iff.1 he
  simp only [entryOr, hx]
  rfl

theorem view_recheck (c : CacheInner) (w : WriteBack) (p : PageId) :
    (recheck c w).view p = c.view p ∨ (p = w.page ∧ ∃ e, c.view p = some e ∧ e.version = w.version ∧
      ((recheck c w).view p = some { e with state := .clean } ∨ (recheck c w).view p = none)) := by
  unfold recheck
  cases he : c.view w.page with
  | none =>
    left
    simp only
    split
    · rfl
    · exact congrFun (view_lruUnlink c w.page) p
  | some e =>
    simp only
    split
    · next hver =>
      by_cases hp : p = w.page
      · subst hp
        refine .inr ⟨rfl, e, he, hver, ?_⟩
        split
        · left
          rw [view_markClean, if_pos rfl, he]
          rfl
        · right
          rw [view_dropEntry, if_pos rfl]
      · left
        split
        · rw [view_markClean, if_neg hp]
        · rw [view_dropEntry, if_neg hp]
    · exact .inl rfl

section

omit [DecidableEq H]

theorem busy_insert {r : Rebind H} (hr : ∀ r0, s.rebinds.lookup t = some r0 → r.page = r0.page) :
    (∃ t' r', (s.rebinds.insert t r).lookup t' = some r' ∧ r'.page = p) ↔ r.page = p ∨ (s.slot cr cfg p).busy := by
  constructor
  · rintro ⟨t', r', hr', hp⟩
    rcases Table.lookup_insert_some hr' with ⟨-, rfl⟩ | ⟨-, hr'⟩
    · exact .inl hp
    · exact .inr ⟨t', r', hr', hp⟩
  · rintro (hp | ⟨t', r', hr', hp⟩)
    · exact ⟨t, r, AList.lookup_insert _, hp⟩
    · by_cases ht : t' = t
      · subst ht
        exact ⟨t', r, AList.lookup_insert _, (hr r' hr').trans hp⟩
      · exact ⟨t', r', by rw [AList.lookup_insert_ne ht, hr'], hp⟩

theorem busy_replace {r r0 : Rebind H} (h : s.rebinds.lookup t = some r0) (hp : r.page = r0.page) :
    (∃ t' r', (s.rebinds.insert t r).lookup t' = some r' ∧ r'.page = p) ↔ (s.slot cr cfg p).busy := by
  rw [busy_insert (fun r1 h1 => by rw [h, Option.some.injEq] at h1; rw [← h1, hp])]
  refine ⟨fun h' => h'.elim (fun h' => ⟨t, r0, h, hp ▸ h'⟩) id, .inr⟩

theorem slot_under (hpages : s'.pages = s.pages) (hpool : s'.pool = s.pool) (hrebinds : s'.rebinds = s.rebinds)
    (hw : ∀ t w, s'.wbs.lookup t = some w → w.page = p → s.wbs.lookup t = some w)
    (hl : ∀ t l, s'.loads.lookup t = some l → l.page = p → l.fetched ≠ none → s.loads.lookup t = some l) :
    (s.slot cr cfg p).Under (s'.slot cr cfg p) := by
  obtain ⟨⟩ := s'
  subst hpages hpool hrebinds
  refine ⟨rfl, fun _ h => h, ?_, ?_, Iff.rfl⟩
  · rintro w ⟨⟨t, ht⟩, hp⟩
    exact ⟨⟨t, hw t w ht hp⟩, hp⟩
  · rintro x ⟨t, l, ht, hp, hf⟩
    exact ⟨t, l, hl t l ht hp (by simp [hf]), hp, hf⟩

theorem wbs_insert (w : WriteBack) :
    { w' | (∃ t', (s.wbs.insert t w).lookup t' = some w') ∧ w'.page = p } ⊆ insert w (s.slot cr cfg p).wbs := by
  rintro w' ⟨⟨t', ht⟩, hp⟩
  rcases Table.lookup_insert_some ht with ⟨-, rfl⟩ | ⟨-, ht⟩
  · exact Set.mem_insert _ _
  · exact Set.mem_insert_of_mem _ ⟨⟨t', ht⟩, hp⟩

end

theorem step_slot (hs : Sound cr cfg s) (hm : Moves cr cfg s a s') (p : PageId) : ∃ b, SlotOf cr cfg s a s' p b := by
  have same : ∀ {s'' : CacheState H}, s''.pages = s.pages → s''.pool = s.pool → s''.wbs = s.wbs → s''.loads = s.loads →
      s''.rebinds = s.rebinds → (s.slot cr cfg p).Under (s''.slot cr cfg p) :=
    fun h1 h2 h3 h4 h5 => slot_under h1 h2 h5 (fun _ _ h _ => h3 ▸ h) fun _ _ h _ _ => h4 ▸ h
  have write : ∀ {q : PageId} {bytes : Bytes}, p = q → s' = { s with inner := s.inner.dirtyEntry q bytes } →
      onto p a → (cacheOk cfg s a → s.wbs.All (fun _ w => w.page = q → w.version ≠ s.inner.nextVersion q)) →
      (∀ v, Shows (s.slot cr cfg p) (v p) → hostView cr cfg s a v p = bytes) → ∃ b, SlotOf cr cfg s a s' p b := by
    rintro q bytes rfl rfl honto hok hv
    refine ⟨.write bytes (s.inner.nextVersion p), ⟨?_, same rfl rfl rfl rfl rfl⟩, ?_, fun _ => honto, trivial, hv⟩
    · exact (view_dirtyEntry s.inner p p bytes).trans (if_pos rfl)
    · rintro hc w ⟨⟨t, ht⟩, hp⟩
      exact (hok hc).lookup ht hp
  -- a write-back of this page is captured, or one of another page
  have capture : ∀ {q : PageId} {e : PageView} {t : Nat} {d : Option Nat} {s'' : CacheState H},
      s.inner.view q = some e → e.state = .dirty → s''.inner = s.inner → s''.pages = s.pages → s''.pool = s.pool →
      s''.loads = s.loads → s''.rebinds = s.rebinds → s''.wbs = s.wbs.insert t ⟨q, e.bytes, e.version, d, false⟩ →
      (cacheOk cfg s a → s.wbs.All (fun _ w => w.page = q → w.isSealed = false → w.bytes = e.bytes)) →
      (∀ v, hostView cr cfg s a v p = v p) → ∃ b, SlotOf cr cfg s a s'' p b := by
    rintro q e t d ⟨⟩ he hd rfl rfl rfl rfl rfl rfl hok hv
    by_cases hpq : p = q
    · subst hpq
      refine ⟨.capture ⟨p, e.bytes, e.version, d, false⟩, ⟨?_, rfl, rfl, rfl, rfl, ?_, rfl, Iff.rfl⟩, ?_, False.elim,
        trivial, fun v _ => hv v⟩
      · exact he.trans (by rw [← hd])
      · exact wbs_insert _
      · rintro hc w ⟨⟨t', ht⟩, hp⟩ hns
        exact (hok hc).lookup ht hp hns
    · exact slotOf_quiet rfl (slot_under rfl rfl rfl (by grind) (by grind)) hv
  -- both `drop_entry` sections of a rebind
  have drop : ∀ {q : PageId} {t : Nat} {r : Rebind H}, s.rebinds.lookup t = none → r.page = q → (p = q → onto p a) →
      (∀ v, hostView cr cfg s a v p = v p) →
      ∃ b, SlotOf cr cfg s a { s with inner := s.inner.dropEntry q, rebinds := s.rebinds.insert t r } p b := by
    intro q t r ht hq honto hv
    have hb := @busy_insert H cr cfg p s t r fun r0 hr0 => by rw [ht] at hr0; cases hr0
    by_cases hp : p = q
    · refine ⟨.drop, ⟨?_, rfl, fun _ h => h, fun _ h => h, fun _ h => h, ?_⟩, fun _ => trivial, fun _ => honto hp,
        trivial, fun v _ => hv v⟩
      · exact (view_dropEntry s.inner q p).trans (if_pos hp)
      · exact ⟨fun _ => trivial, fun _ => hb.2 (.inl (hq.trans hp.symm))⟩
    · refine slotOf_quiet ?_ ⟨rfl, fun _ h => h, fun _ h => h, fun _ h => h, ?_⟩ hv
      · exact (view_dropEntry s.inner q p).trans (if_neg hp)
      · exact hb.trans ⟨fun h => h.resolve_left (fun h' => hp (h'.symm.trans hq)), .inr⟩
  cases hm with
  | @install q bytes =>
    by_cases hp : p = q
    · refine write hp rfl hp.symm (fun h => h) (fun v _ => ?_)
      simp only [hostView, hp, update_self]
    · refine slotOf_quiet ?_ (same rfl rfl rfl rfl rfl) (fun v => ?_)
      · exact (view_dirtyEntry s.inner q p bytes).trans (if_neg hp)
      · simp only [hostView, update_of_ne hp]
  | @modify q offset data e he =>
    by_cases hp : p = q
    · refine write hp rfl hp.symm (fun h => h) (fun v hsh => ?_)
      have hb := hsh.cached e (hp ▸ he)
      subst hp
      simp only [hostView, update_self, bytes_entryOr he, hb]
    · refine slotOf_quiet ?_ (same rfl rfl rfl rfl rfl) (fun v => ?_)
      · exact (view_dirtyEntry s.inner q p _).trans (if_neg hp)
      · simp only [hostView, update_of_ne hp]
  | hit =>
    exact slotOf_quiet (congrFun (view_lruTouch s.inner _) p) (same rfl rfl rfl rfl rfl) fun v => rfl
  | @fetch t l bytes hl hb =>
    by_cases hp : p = l.page
    · subst hp
      refine ⟨.fetch bytes, ⟨hb, rfl, rfl, fun _ h => h, fun _ h => h, ?_, Iff.rfl⟩, fun _ => trivial, False.elim, trivial,
        fun v _ => rfl⟩
      rintro x ⟨t', l', hl', hp', hf'⟩
      rcases Table.lookup_insert_some hl' with ⟨-, rfl⟩ | ⟨-, hl'⟩
      · cases hf'
        exact Set.mem_insert _ _
      · exact Set.mem_insert_of_mem _ ⟨t', l', hl', hp', hf'⟩
    · exact slotOf_quiet rfl (slot_under rfl rfl rfl (by grind) (by grind)) fun v => rfl
  | insertLost =>
    exact slotOf_quiet (congrFun (view_lruTouch s.inner _) p) (slot_under rfl rfl rfl (by grind) (by grind))
      fun v => rfl
  | @insertPage t l x hl hx he =>
    have hu : (s.slot cr cfg p).Under (slot cr cfg { s with
        inner := s.inner.insertClean l.page x.2
        loads := s.loads.erase t } p) := slot_under rfl rfl rfl (by grind) (by grind)
    by_cases hp : p = l.page
    · subst hp
      refine ⟨.insert x, ⟨⟨t, l, hl, rfl, hx⟩, he, ?_, hu⟩, ?_, False.elim, trivial, fun v _ => rfl⟩
      · exact (view_insertClean s.inner l.page l.page x.2).trans (if_pos rfl)
      · intro hc
        simp only [cacheOk, hl] at hc
        obtain ⟨hrec, hreb⟩ := hc he
        refine ⟨?_, ?_⟩
        · rintro ⟨t', r, hr, hp⟩
          exact hreb.lookup hr hp
        · rw [hx, map_some, Option.some.injEq] at hrec
          have := hs.loads t l x hl hx
          rwa [hrec] at this
    · refine slotOf_quiet ?_ hu (fun v => rfl)
      exact (view_insertClean s.inner l.page p x.2).trans (if_neg hp)
  | @evictClean t wanted q e he hc =>
    by_cases hp : p = q
    · subst hp
      refine ⟨.evict, ⟨⟨e, he, hc⟩, ?_, same rfl rfl rfl rfl rfl⟩, fun _ => trivial, False.elim, trivial, fun v _ => rfl⟩
      exact (view_dropEntry s.inner p p).trans (if_pos rfl)
    · refine slotOf_quiet ?_ (same rfl rfl rfl rfl rfl) (fun v => rfl)
      exact (view_dropEntry s.inner q p).trans (if_neg hp)
  | @evictDirty t wanted q e he hd hpick =>
    refine capture he hd rfl rfl rfl rfl rfl rfl (fun hc => ?_) fun v => rfl
    simp only [cacheOk, hpick] at hc
    exact hc
  | @sealPage t salt now w hw hns hacc =>
    by_cases hp : p = w.page
    · subst hp
      refine ⟨.sealPage w (sealEntry cr cfg w.page salt w.bytes), ⟨⟨⟨t, hw⟩, rfl⟩, hns, rfl, ?_,
        content_sealPage hs.pool w salt now, wbs_insert _, rfl, Iff.rfl⟩, fun _ => trivial, False.elim, hacc, fun v _ => rfl⟩
      exact (getEntry_put s.pages w.page w.page _).trans (if_pos rfl)
    · refine slotOf_quiet rfl ⟨?_, fun b hb => content_sealPage_ne salt now (Ne.symm hp) hb, ?_, fun _ h => h,
        Iff.rfl⟩ fun v => rfl
      · exact (getEntry_put s.pages w.page p _).trans (if_neg (Ne.symm hp))
      · rintro w' ⟨⟨t', ht⟩, hp'⟩
        exact ⟨⟨t', by grind⟩, hp'⟩
  | @commit t w hw hsl =>
    have hu : (s.slot cr cfg p).Under (slot cr cfg { s with
        inner := recheck s.inner w
        wbs := s.wbs.erase t
        drains := report s.drains w.drain (fun x => { x with wroteAny := true }) } p) :=
      slot_under rfl rfl rfl (by grind) (by grind)
    rcases view_recheck s.inner w p with he | ⟨hp, e, he, hver, hs'⟩
    · exact slotOf_quiet he hu fun v => rfl
    · exact ⟨.settle w, ⟨⟨⟨t, hw⟩, hp.symm⟩, hsl, hu, .inr ⟨e, he, hver, hs'⟩⟩, fun _ => trivial, False.elim, trivial,
        fun v _ => rfl⟩
  | unmapDrop ht | cloneDrop ht => exact drop ht rfl Eq.symm fun v => rfl
  | cloneGet hr | cloneGetFrom hr =>
    exact slotOf_quiet rfl ⟨rfl, fun _ h => h, fun _ h => h, fun _ h => h, busy_replace hr rfl⟩ fun v => rfl
  | @rebind t r rec hr htarget =>
    have hu : r.unmap = true → rec = none := by
      intro hu
      rw [hs.unmaps t r hr hu] at htarget
      exact (Option.some.inj htarget).symm
    obtain ⟨bytes, hbytes⟩ := isSome_iff_exists.1 (hs.targets t r rec hr htarget)
    have hget := getEntry_rebindPage s r rec hu p
    by_cases hp : p = r.page
    · rw [if_pos hp.symm] at hget
      refine ⟨.rebind rec bytes, ⟨⟨t, r, hr, hp.symm⟩, ?_, hget, ?_, ?_, ?_⟩, fun hc => ?_, False.elim, trivial, fun v _ => ?_⟩
      · simp only [slot, inner_rebindPage]
      · simp only [slot, content, hget, pool_rebindPage]
        exact hp ▸ hbytes
      · simp only [slot, wbs_rebindPage]
      · simp only [slot, loads_rebindPage]
      · simp only [cacheOk, hr] at hc
        refine ⟨hp ▸ hc.1, Set.eq_empty_iff_forall_notMem.2 ?_⟩
        rintro w ⟨⟨t', ht⟩, hpw⟩
        exact hc.2.lookup ht (hpw.trans hp)
      · simp only [hostView, hr, hp, update_self, htarget, bind_some, hbytes]
        rfl
    · rw [if_neg (Ne.symm hp)] at hget
      refine slotOf_quiet (by simp only [inner_rebindPage]) ⟨hget, fun b hb => ?_, ?_, ?_, ?_⟩ fun v => ?_
      · simp only [slot, content, hget, pool_rebindPage]
        exact hb
      · simp only [slot, wbs_rebindPage]
        exact subset_rfl
      · simp only [slot, loads_rebindPage]
        exact subset_rfl
      · refine ⟨?_, ?_⟩
        · rintro ⟨t', r', hr', hp'⟩
          exact ⟨t', r', (Table.lookup_erase_some hr').2, hp'⟩
        · rintro ⟨t', r', hr', hp'⟩
          exact ⟨t', r', by grind, hp'⟩
      · simp only [hostView, hr, update_of_ne hp]
  | @foreignSeal payload now =>
    exact slotOf_quiet rfl ⟨rfl, fun b hb => resolve_insertBytes cr cfg _ _ now hb, fun _ h => h, fun _ h => h, Iff.rfl⟩
      fun v => rfl
  | @drainFlush d t q x e hx hph hp ht he hd =>
    refine capture he hd rfl rfl rfl rfl rfl rfl (fun hc => ?_) fun v => rfl
    simp only [cacheOk, he] at hc
    exact hc
  | unmapSync | drainSyncPages =>
    exact slotOf_quiet rfl ⟨rfl, fun _ h => h, fun _ h => h, fun _ h => h, Iff.rfl⟩ fun v => rfl
  | lead | loadFail | sealFail | abort =>
    exact slotOf_quiet rfl (slot_under rfl rfl rfl (by grind) (by grind)) fun v => rfl
  | _ => exact slotOf_quiet rfl (same rfl rfl rfl rfl rfl) fun v => rfl

/-! ## Runs -/

/-- A volume as it is opened. -/
structure Healthy (cr : Crates H) (cfg : VolumeConfig) (pages : PageIndex H) (pool : ChunkPool H) : Prop where
  chunks : PoolOk cr pool
  records : ∀ p, (resolve cr cfg pool p (pages.getEntry p)).isSome = true

section

omit [DecidableEq H]

theorem Healthy.sound (h : Healthy cr cfg pages pool) (upload : UploadIndexFile) :
    Sound cr cfg (opened pages upload pool) :=
  ⟨h.chunks, h.records, fun _ _ _ hl => (by cases hl), fun _ _ _ hr => (by cases hr), fun _ _ hr => (by cases hr)⟩

theorem coherent_opened (pages : PageIndex H) (upload : UploadIndexFile) (pool : ChunkPool H) (p : PageId) :
    Coherent ((opened pages upload pool).slot cr cfg p) := by
  refine .of_absent rfl ?_
  rintro - w ⟨⟨t, ht⟩, -⟩
  cases ht

end

theorem coherent_run {upload : UploadIndexFile} {acts : List (CacheAct H)} (h0 : Healthy cr cfg pages pool)
    (hok : (machine cr cfg).Meets (cacheOk cfg) (opened pages upload pool) acts)
    (hrun : (machine cr cfg).run (opened pages upload pool) acts = some s) :
    Sound cr cfg s ∧ ∀ p, Coherent (s.slot cr cfg p) := by
  have hinv : ∀ (s : CacheState H) (a : CacheAct H) (s' : CacheState H),
      (Sound cr cfg s ∧ ∀ p, Coherent (s.slot cr cfg p)) → cacheOk cfg s a → (machine cr cfg).step s a = some s' →
      Sound cr cfg s' ∧ ∀ p, Coherent (s'.slot cr cfg p) := by
    rintro s a s' ⟨hs, hc⟩ hok hstep
    have hm := machine_moves hstep
    refine ⟨hs.step hm, fun p => ?_⟩
    obtain ⟨b, hb, hbok, -⟩ := step_slot hs hm p
    exact (hc p).step hb (hbok hok)
  exact Machine.run_inv _ hinv ⟨h0.sound upload, coherent_opened pages upload pool⟩ hok hrun

/-- **Every run of safe steps shows the host its own writes**, on every page that no UNMAP or clone is rewriting. -/
theorem shows_run {upload : UploadIndexFile} {acts : List (CacheAct H)} {v0 v : PageId → Bytes}
    (h0 : Healthy cr cfg pages pool) (hv0 : ∀ p, resolve cr cfg pool p (pages.getEntry p) = some (v0 p))
    (hok : ((machine cr cfg).carry (hostView cr cfg)).Meets (fun x a => cacheOk cfg x.1 a)
      (opened pages upload pool, v0) acts)
    (hrun : ((machine cr cfg).carry (hostView cr cfg)).run (opened pages upload pool, v0) acts = some (s, v)) :
    Sound cr cfg s ∧ ∀ p, Coherent (s.slot cr cfg p) ∧ Shows (s.slot cr cfg p) (v p) := by
  have hinv : ∀ (x : CacheState H × (PageId → Bytes)) (a : CacheAct H) (x' : CacheState H × (PageId → Bytes)),
      (Sound cr cfg x.1 ∧ ∀ p, Coherent (x.1.slot cr cfg p) ∧ Shows (x.1.slot cr cfg p) (x.2 p)) → cacheOk cfg x.1 a →
      ((machine cr cfg).carry (hostView cr cfg)).step x a = some x' →
      Sound cr cfg x'.1 ∧ ∀ p, Coherent (x'.1.slot cr cfg p) ∧ Shows (x'.1.slot cr cfg p) (x'.2 p) := by
    rintro x a x' ⟨hs, hc⟩ hok hstep
    obtain ⟨hstep, hv⟩ := (Machine.carry_step _).1 hstep
    have hm := machine_moves hstep
    refine ⟨hs.step hm, fun p => ?_⟩
    obtain ⟨b, hb, hbok, -, -, hview⟩ := step_slot hs hm p
    refine ⟨(hc p).1.step hb (hbok hok), ?_⟩
    rw [hv, hview x.2 (hc p).2]
    exact (hc p).2.step (hc p).1 hb (hbok hok)
  refine Machine.run_inv _ hinv ⟨h0.sound upload, fun p => ⟨coherent_opened pages upload pool p, ?_⟩⟩ hok hrun
  refine ⟨fun e he => ?_, fun _ _ => hv0 p⟩
  cases he

end Thur.CacheState

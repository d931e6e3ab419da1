import Thur.Block.Fleet
/-!
# FleetWrites — which steps write what

The records, the upload flags, the objects and the pending sets are each written by a handful of actions (`Binds`,
`Marks`, `Settles`), and everything else leaves them alone; the inversions below say so once, and the invariants of the
later modules are case splits over them.
-/

namespace Thur.FleetState

open Table (forall_erase forall_insert)
open RecordFile Function

variable {V H : Type} [DecidableEq V] [DecidableEq H] {fl : Fleet V H} {s s' : FleetState V H} {a : FleetAct V H}
  {c : ChunkKey H} {v : V} {rec : Option (PageEntry H)}

/-! ## Reading through the writes -/

section

omit [DecidableEq H]

variable (s : FleetState V H) (v v' : V)

theorem record_setRecord (p p' : PageId) (rec : Option (PageEntry H)) :
    (s.setRecord v p rec).record v' p' = if v' = v ∧ p' = p then rec else s.record v' p' :=
  read_update_put s.pages v v' p p' rec

theorem flag_setFlag (p p' : PageId) (st : UploadState) :
    (s.setFlag v p st).flag v' p' = if v' = v ∧ p' = p then st else s.flag v' p' :=
  read_update_put s.upload v v' p p' st

@[simp] theorem record_syncPages (p : PageId) :
    (s.syncPages v).record v' p = s.record v' p := read_update_sync s.pages v v' p

@[simp] theorem flag_syncUpload (p : PageId) :
    (s.syncUpload v).flag v' p = s.flag v' p := read_update_sync s.upload v v' p

theorem pend_onPend (f : PendingSets → PendingSets) :
    (s.onPend v f).pend v' = if v' = v then f (s.pend v) else s.pend v' := by
  by_cases hv : v' = v
  · rw [hv, if_pos rfl]
    exact update_self v _ s.pend
  · rw [if_neg hv]
    exact update_of_ne hv _ s.pend

end

omit [DecidableEq V] [DecidableEq H] in
theorem get_eq (s : FleetState V H) (v : V) (p : PageId) :
    (s.pages v).get p = (s.record v p).map PageEntry.hash := rfl

/-! ## Records -/

inductive Binds (fl : Fleet V H) (s : FleetState V H) : FleetAct V H → V → PageId → Option (PageEntry H) → Prop
  | sealIndex {t : Nat} {x : Seal V} (hx : s.seals.lookup t = some x) (hst : x.stage = .pooled) :
      Binds fl s (.sealIndex t) x.vol x.page (some (x.entry fl))
  | unmap {t : Nat} {x : V × PageId} (hx : s.unmaps.lookup t = some x) : Binds fl s (.unmapClear t) x.1 x.2 none
  | clone {t : Nat} {x : Clone V H} {rec : Option (PageEntry H)} (hx : s.clones.lookup t = some x)
      (hst : x.stage = .ready rec) : Binds fl s (.cloneBind t) x.dst x.dstPage rec
  | restoreLen {t : Nat} {x : Restore V H} {p : PageId} (hx : s.restores.lookup t = some x) (hst : x.stage = .drained)
      (hp : x.snapshot.length ≤ p.toNat) : Binds fl s (.restoreLen t) x.vol p none
  | restoreRecord {t n : Nat} {x : Restore V H} {rec : Option (PageEntry H)} (hx : s.restores.lookup t = some x)
      (hst : x.stage = .copying n) (hrec : x.snapshot[n]? = some rec) :
      Binds fl s (.restoreRecord t) x.vol (UInt32.ofNat n) rec

omit [DecidableEq H] in
theorem old_or_put {α : Type} {P : V → PageId → α → Prop} {v v' : V} {p p' : PageId} {x y z : α} (hb : P v' p' x)
    (hz : z = if v = v' ∧ p = p' then x else y) : z = y ∨ P v p z := by
  by_cases h : v = v' ∧ p = p'
  · rw [hz, if_pos h, h.1, h.2]
    exact .inr hb
  · exact .inl (hz.trans (if_neg h))

theorem record_step (hm : Moves fl s a s') (v : V) (p : PageId) :
    s'.record v p = s.record v p ∨ Binds fl s a v p (s'.record v p) := by
  cases hm with
  | sealIndex hx hst => exact old_or_put (.sealIndex hx hst) (record_setRecord ..)
  | unmapClear hx => exact old_or_put (.unmap hx) (record_setRecord ..)
  | cloneBind hx hst => exact old_or_put (.clone hx hst) (record_setRecord ..)
  | restoreRecord hx hst hrec => exact old_or_put (.restoreRecord hx hst hrec) (record_setRecord ..)
  | @restoreLen t x hx hst =>
    unfold record PageIndex.getEntry
    by_cases hv : v = x.vol
    · subst hv
      simp only [update_self, read_clearFrom]
      by_cases hp : p.toNat < x.snapshot.length
      · exact .inl (if_pos hp)
      · rw [if_neg hp]
        exact .inr (.restoreLen hx hst (Nat.le_of_not_lt hp))
    · exact .inl (by simp only [update_of_ne hv])
  | pagesSync | cloneSync | restoreSync => exact .inl (record_syncPages s _ v p)
  | snapSync => exact .inl (record_syncPages _ _ v p)
  | _ => exact .inl rfl

/-! ## Upload flags -/

inductive Marks (s : FleetState V H) : FleetAct V H → V → PageId → UploadState → Prop
  | sealFlag {t : Nat} {x : Seal V} (hx : s.seals.lookup t = some x) (hst : x.stage = .indexed) :
      Marks s (.sealFlag t) x.vol x.page .localOnly
  | rollback {t : Nat} {x : Seal V} (hx : s.seals.lookup t = some x) (hst : x.stage = .unmarked) :
      Marks s (.sealRollback t) x.vol x.page .uploaded
  | task {k : Nat} {x : UploadTask V H} (hx : s.tasks.lookup k = some x) (hst : x.stage = .matched) :
      Marks s (.taskFlag k) x.vol x.page .uploaded
  | clone {t : Nat} {x : Clone V H} {rec : Option (PageEntry H)} (hx : s.clones.lookup t = some x)
      (hst : x.stage = .synced rec) : Marks s (.cloneFlag t) x.dst x.dstPage .uploaded
  | restore {t : Nat} {x : Restore V H} {p : PageId} (hx : s.restores.lookup t = some x) (hst : x.stage = .synced) :
      Marks s (.restoreReset t) x.vol p .uploaded

theorem flag_step (hm : Moves fl s a s') (v : V) (p : PageId) :
    s'.flag v p = s.flag v p ∨ Marks s a v p (s'.flag v p) := by
  cases hm with
  | sealFlag hx hst => exact old_or_put (.sealFlag hx hst) (flag_setFlag ..)
  | sealRollback hx hst => exact old_or_put (.rollback hx hst) (flag_setFlag ..)
  | taskFlag hx hst => exact old_or_put (.task hx hst) (flag_setFlag ..)
  | cloneFlag hx hst => exact old_or_put (.clone hx hst) (flag_setFlag ..)
  | @restoreReset t x hx hst =>
    unfold flag UploadIndexFile.resetToClean
    by_cases hv : v = x.vol
    · subst hv
      simp only [update_self, read_empty]
      exact .inr (.restore hx hst)
    · exact .inl (by simp only [update_of_ne hv])
  | uploadSync | sealAbort | taskSync | cloneEnd | snapSync => exact .inl (flag_syncUpload s _ v p)
  | _ => exact .inl rfl

/-! ## Objects -/

section

omit [DecidableEq V]

theorem uploadChunk_stored {store : ChunkKey H → Option Bytes} (h : s.uploadChunk c = some store) :
    (store c).isSome = true ∧ ∀ c', s.Stored c' → (store c').isSome = true := by
  unfold uploadChunk at h
  split at h
  · next hc =>
    cases h
    exact ⟨hc.2, fun c' h' => h'⟩
  · obtain ⟨f, -, rfl⟩ := Option.map_eq_some_iff.1 h
    refine ⟨by simp, fun c' h' => ?_⟩
    by_cases hc : c' = c
    · subst hc
      simp
    · rw [update_of_ne hc]
      exact h'

theorem uploadChunk_bytes {store : ChunkKey H → Option Bytes} (h : s.uploadChunk c = some store) {d : ChunkKey H}
    {bytes : Bytes} (hd : store d = some bytes) :
    s.store d = some bytes ∨ ∃ file, s.pool d = some file ∧ file.bytes = bytes := by
  unfold uploadChunk at h
  split at h
  · cases h
    exact .inl hd
  · obtain ⟨file, hfile, rfl⟩ := Option.map_eq_some_iff.1 h
    rcases Table.update_some hd with ⟨rfl, rfl⟩ | ⟨-, hd⟩
    · exact .inr ⟨file, hfile, rfl⟩
    · exact .inl hd

end

theorem stored_step (hm : Moves fl s a s') (h : s.Stored c) : s'.Stored c := by
  cases hm with
  | taskPut hx hst hup => exact (uploadChunk_stored hup).2 c h
  | _ => exact h

theorem safe_step (hm : Moves fl s a s') (h : s.Safe fl v rec) : s'.Safe fl v rec := by
  cases rec with
  | none => trivial
  | some e => exact stored_step hm h

def TasksStored (fl : Fleet V H) (s : FleetState V H) : Prop :=
  ∀ k x, s.tasks.lookup k = some x → x.stage ≠ .queued → s.Stored (fl.key x.vol x.hash)

omit [DecidableEq V] [DecidableEq H] in
theorem tasksStored_booted (b : Boot V H) : TasksStored fl (booted b) :=
  fun k x hx hst => absurd (b.queued k x hx) hst

theorem tasksStored_step (h : TasksStored fl s) (hm : Moves fl s a s') : TasksStored fl s' := by
  have keep : ∀ k x, s.tasks.lookup k = some x → x.stage ≠ .queued → s'.Stored (fl.key x.vol x.hash) :=
    fun k x hx hst => stored_step hm (h k x hx hst)
  cases hm with
  | sealSend | retrySend => exact forall_insert keep fun hq => absurd rfl hq
  | taskPut hx hst hup => exact forall_insert keep fun _ => (uploadChunk_stored hup).1
  | @taskMatch k x hx hst | @taskFlag k x hx hst | @taskSync k x hx hst =>
    exact forall_insert keep fun _ => keep k x hx (by rw [hst]; decide)
  | @taskSuperseded k | @taskDone k | @taskFail k => exact forall_erase keep k
  | _ => exact keep

/-! ## References -/

/-- By its record, or by a seal that has found or put the file in the pool. -/
def Refers (fl : Fleet V H) (s : FleetState V H) (v : V) (p : PageId) (c : ChunkKey H) : Prop :=
  (∃ e, s.record v p = some e ∧ fl.key v e.hash = c) ∨
  s.seals.Any fun _ x => x.vol = v ∧ x.page = p ∧ x.Pooled ∧ x.chunk fl = c

deriving instance Decidable for @Refers V H

inductive Adds (fl : Fleet V H) (s : FleetState V H) : FleetAct V H → V → PageId → ChunkKey H → Prop
  | sealPool {t : Nat} {x : Seal V} (hx : s.seals.lookup t = some x) (hst : x.stage = .captured) :
      Adds fl s (.sealPool t) x.vol x.page (x.chunk fl)
  | clone {t : Nat} {x : Clone V H} {e : PageEntry H} (hx : s.clones.lookup t = some x)
      (hst : x.stage = .ready (some e)) : Adds fl s (.cloneBind t) x.dst x.dstPage (fl.key x.dst e.hash)
  | restore {t n : Nat} {x : Restore V H} {e : PageEntry H} (hx : s.restores.lookup t = some x)
      (hst : x.stage = .copying n) (hrec : x.snapshot[n]? = some (some e)) :
      Adds fl s (.restoreRecord t) x.vol (UInt32.ofNat n) (fl.key x.vol e.hash)

theorem sealRefers_step (hm : Moves fl s a s') (v : V) (p : PageId) (c : ChunkKey H) : ∀ t x, s'.seals.lookup t = some x →
    x.vol = v → x.page = p → x.Pooled → x.chunk fl = c → s.Refers fl v p c ∨ Adds fl s a v p c := by
  have keep : ∀ t x, s.seals.lookup t = some x → x.vol = v → x.page = p → x.Pooled → x.chunk fl = c →
      s.Refers fl v p c ∨ Adds fl s a v p c :=
    fun t x hx hv hp hpool hc => .inl (.inr (.of_lookup hx ⟨hv, hp, hpool, hc⟩))
  -- a seal that goes on was past its pool insert before
  have move : ∀ t x {Q : Prop}, s.seals.lookup t = some x → x.stage ≠ .captured → x.vol = v → x.page = p → Q →
      x.chunk fl = c → s.Refers fl v p c ∨ Adds fl s a v p c :=
    fun t x _ hx hst hv hp _ hc => keep t x hx hv hp hst hc
  cases hm with
  | sealStart => exact forall_insert keep fun _ _ hpool => absurd rfl hpool
  | @sealPool t x hx hst =>
    refine forall_insert keep fun hv hp _ hc => ?_
    rw [← hv, ← hp, ← hc]
    exact .inr (Adds.sealPool (x := x) hx hst)
  | @sealIndex t x hx hst | @sealFlag t x hx hst | @sealMark t x hx hst | @sealSend t k x hx hst
  | @sealClosed t x hx hst | @sealRollback t x hx hst => exact forall_insert keep (move t x hx (by rw [hst]; decide))
  | @sealEnd t | @sealAbort t | @sealFail t => exact forall_erase keep t
  | _ => exact keep

/-- **A reference was there before the step, or the step makes it.** -/
theorem refers_step (hm : Moves fl s a s') {p : PageId} (h : s'.Refers fl v p c) :
    s.Refers fl v p c ∨ Adds fl s a v p c := by
  rcases h with ⟨e, he, hc⟩ | h
  · rcases record_step hm v p with hr | hb
    · exact .inl (.inl ⟨e, hr.symm.trans he, hc⟩)
    rw [he] at hb
    subst hc
    cases hb with
    | sealIndex hx hst =>
      -- the seal referred to the chunk from its pool insert on
      exact .inl (.inr (.of_lookup hx ⟨rfl, rfl, by rw [Seal.Pooled, hst]; decide, rfl⟩))
    | clone hx hst => exact .inr (.clone hx hst)
    | restoreRecord hx hst hrec => exact .inr (.restore hx hst hrec)
  · obtain ⟨t, x, hx, hv, hp, hpool, hc⟩ := (Table.any_iff _ _).1 h
    exact sealRefers_step hm v p c t x hx hv hp hpool hc

/-- In a snapshot of the volume, or in what a snapshot or a restore in flight has of one. -/
inductive Frozen (s : FleetState V H) (v : V) (rec : Option (PageEntry H)) : Prop
  | snapshot {frozen : FrozenIndex H} (h : (v, frozen) ∈ s.snapshots) (hrec : rec ∈ frozen)
  | copy {t : Nat} {x : Snap V H} (hx : s.snaps.lookup t = some x) (hv : x.vol = v) (hrec : rec ∈ x.copy)
  | restore {t : Nat} {x : Restore V H} (hx : s.restores.lookup t = some x) (hv : x.vol = v) (hrec : rec ∈ x.snapshot)

omit [DecidableEq V] [DecidableEq H] in
theorem Frozen.congr (h : s'.Frozen v rec) (hsn : s'.snapshots = s.snapshots) (hc : s'.snaps = s.snaps)
    (hr : s'.restores = s.restores) : s.Frozen v rec := by
  cases h with
  | snapshot h hrec => exact .snapshot (hsn ▸ h) hrec
  | copy hx hv hrec => exact .copy (hc ▸ hx) hv hrec
  | restore hx hv hrec => exact .restore (hr ▸ hx) hv hrec

/-- **A frozen record was frozen before, or has just been copied.** -/
theorem frozen_step (hm : Moves fl s a s') (h : s'.Frozen v rec) :
    s.Frozen v rec ∨ ∃ t x, a = .snapCopy t ∧ s.snaps.lookup t = some x ∧ x.vol = v ∧
      rec = s.record v (UInt32.ofNat x.copy.length) := by
  have snaps : ∀ t x, s.snaps.lookup t = some x → x.vol = v → rec ∈ x.copy → s.Frozen v rec ∨ ∃ t x, a = .snapCopy t ∧
      s.snaps.lookup t = some x ∧ x.vol = v ∧ rec = s.record v (UInt32.ofNat x.copy.length) :=
    fun t x hx hv hrec => .inl (.copy hx hv hrec)
  have rests : ∀ t x, s.restores.lookup t = some x → x.vol = v → rec ∈ x.snapshot → s.Frozen v rec :=
    fun t x hx hv hrec => .restore hx hv hrec
  have snaps' : ∀ t x, s'.snaps.lookup t = some x → x.vol = v → rec ∈ x.copy → s.Frozen v rec ∨ ∃ t x, a = .snapCopy t ∧
      s.snaps.lookup t = some x ∧ x.vol = v ∧ rec = s.record v (UInt32.ofNat x.copy.length) := by
    cases hm with
    | snapLock => exact forall_insert snaps fun _ hrec => absurd hrec List.not_mem_nil
    | @snapDrain t x hx | @snapSync t x hx => exact forall_insert snaps (snaps t x hx)
    | @snapCopy t x hx =>
      refine forall_insert snaps fun hv hrec => ?_
      rcases List.mem_append.1 hrec with hrec | hrec
      · exact snaps t x hx hv hrec
      · refine .inr ⟨t, x, rfl, hx, hv, ?_⟩
        rw [← hv]
        exact List.mem_singleton.1 hrec
    | @snapDone t | @snapAbort t => exact forall_erase snaps t
    | _ => exact snaps
  have rests' : ∀ t x, s'.restores.lookup t = some x → x.vol = v → rec ∈ x.snapshot → s.Frozen v rec := by
    cases hm with
    | restoreLock hi =>
      refine forall_insert rests fun hv hrec => ?_
      rw [← hv]
      exact .snapshot (List.mem_of_getElem? hi) hrec
    | @restoreDrain t x hx | @restoreLen t x hx | @restoreRecord t n x rec hx | @restoreSync t x hx
    | @restoreReset t x hx => exact forall_insert rests (rests t x hx)
    | @restoreClear t | @restoreFail t => exact forall_erase rests t
    | _ => exact rests
  cases h with
  | copy hx hv hrec => exact snaps' _ _ hx hv hrec
  | restore hx hv hrec => exact .inl (rests' _ _ hx hv hrec)
  | snapshot h hrec =>
    cases hm with
    | snapDone hx =>
      rcases List.mem_cons.1 h with h | h
      · cases h
        exact .inl (.copy hx rfl hrec)
      · exact .inl (.snapshot h hrec)
    | _ => exact .inl (.snapshot h hrec)

end Thur.FleetState

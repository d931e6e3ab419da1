import Thur.Block.FleetWrites
/-!
# Snapshot — a frozen index names only chunks that are in the bucket

`snapshot_pages_idx` takes the cache lock, waits until nothing is pending and copies `pages.idx`. The lock keeps new
captures out and the wait covers every seal that has set its marker; a seal captured before the lock and not yet marked
is covered by neither, and its record may be written between the wait and the copy.
-/

namespace Thur

open Table (forall_insert)
open Finset Function Table

theorem Seal.Unmarked.stage {V : Type} {x : Seal V} (h : x.Unmarked) : x.stage ≠ .captured ∧ x.stage ≠ .pooled ∧
    x.stage ≠ .marked ∧ x.stage ≠ .sent ∧ x.stage ≠ .unmarked ∧ x.stage ≠ .rolledBack := by
  rcases h with h | h <;> rw [h] <;> decide

namespace PendingSets

variable {p q : PageId}

theorem markPending_other (x : PendingSets) (h : q ≠ p) :
    (q ∈ x.pending → q ∈ (x.markPending p).pending) ∧ (q ∈ x.failed → q ∈ (x.markPending p).failed) :=
  ⟨mem_insert_of_mem, fun hq => mem_erase.2 ⟨h, hq⟩⟩

theorem markDone_other (x : PendingSets) (h : q ≠ p) :
    (q ∈ x.pending → q ∈ (x.markDone p).pending) ∧ (q ∈ x.failed → q ∈ (x.markDone p).failed) :=
  ⟨fun hq => mem_erase.2 ⟨h, hq⟩, fun hq => mem_erase.2 ⟨h, hq⟩⟩

theorem markFailed_other (x : PendingSets) (h : q ≠ p) :
    (q ∈ x.pending → q ∈ (x.markFailed p).pending) ∧ (q ∈ x.failed → q ∈ (x.markFailed p).failed) :=
  ⟨fun hq => mem_erase.2 ⟨h, hq⟩, mem_insert_of_mem⟩

theorem clearFailed_other (x : PendingSets) (h : q ≠ p) :
    (q ∈ x.pending → q ∈ (x.clearFailed p).pending) ∧ (q ∈ x.failed → q ∈ (x.clearFailed p).failed) :=
  ⟨id, fun hq => mem_erase.2 ⟨h, hq⟩⟩

end PendingSets

namespace FleetState

variable {V H : Type} [DecidableEq V] [DecidableEq H] {fl : Fleet V H} {s s' : FleetState V H} {a : FleetAct V H}
  {v : V} {p : PageId}

def UnmarkedSeal (s : FleetState V H) (v : V) (p : PageId) : Prop :=
  s.seals.Any fun _ x => x.vol = v ∧ x.page = p ∧ x.Unmarked

deriving instance Decidable for @UnmarkedSeal V H

def Covered (s : FleetState V H) (v : V) (p : PageId) : Prop :=
  p ∈ (s.pend v).pending ∨ p ∈ (s.pend v).failed ∨ s.UnmarkedSeal v p

/-- **When a step keeps snapshots durable**: the wait ends while no seal is short of its marker; a marker goes only if
nothing is outstanding or a seal will mark again; clones and restores bind stored chunks. -/
def snapshotOk (fl : Fleet V H) (s : FleetState V H) : FleetAct V H → Prop
  | .snapDrain t => ∀ x ∈ s.snaps.lookup t, s.seals.All fun _ y => y.vol = x.vol → ¬ y.ShortOfMark
  | .taskDone k => ∀ x ∈ s.tasks.lookup k,
      s.record x.vol x.page = none ∨ (s.pages x.vol).get x.page = some x.hash ∨ s.UnmarkedSeal x.vol x.page
  | .sealClosed t => ∀ x ∈ s.seals.lookup t, s.Safe fl x.vol (s.record x.vol x.page) ∨ s.UnmarkedSeal x.vol x.page
  | .retryClear t => ∀ x ∈ s.retries.lookup t, ∀ q ∈ x.current,
      s.record x.vol q.1 = none ∨ q.1 ∈ (s.pend x.vol).pending ∨ s.UnmarkedSeal x.vol q.1
  | .restoreClear t => ∀ x ∈ s.restores.lookup t, ∀ p ∈ (s.pend x.vol).failed,
      s.Safe fl x.vol (s.record x.vol p) ∨ p ∈ (s.pend x.vol).pending ∨ s.UnmarkedSeal x.vol p
  | .sealFail t => ∀ x ∈ s.seals.lookup t, x.stage = .indexed →
      s.Safe fl x.vol (s.record x.vol x.page) ∨ x.page ∈ (s.pend x.vol).pending ∨ x.page ∈ (s.pend x.vol).failed
  | .cloneBind t => ∀ x ∈ s.clones.lookup t, ∀ rec ∈ x.stage.toBind, s.Safe fl x.dst rec
  | .restoreRecord t => ∀ x ∈ s.restores.lookup t, ∀ n ∈ x.stage.next, ∀ rec ∈ x.snapshot[n]?, s.Safe fl x.vol rec
  | _ => True

instance (s : FleetState V H) (a : FleetAct V H) : Decidable (snapshotOk fl s a) := by
  apply FleetAct.casesOn (motive := fun a => Decidable (snapshotOk fl s a)) a <;>
    intros <;> unfold snapshotOk <;> infer_instance

/-! ## Outstanding uploads stay covered -/

omit [DecidableEq V] [DecidableEq H] in
theorem binds_of_snapshotOk {rec : Option (PageEntry H)} (hok : snapshotOk fl s a) (hb : Binds fl s a v p rec) :
    s.Safe fl v rec ∨ ∃ t x, a = .sealIndex t ∧ s.seals.lookup t = some x ∧ x.stage = .pooled ∧ x.vol = v ∧ x.page = p := by
  cases hb with
  | @sealIndex t x hx hst => exact .inr ⟨t, x, rfl, hx, hst, rfl, rfl⟩
  | unmap | restoreLen => exact .inl trivial
  | clone hx hst =>
    have hok := hok _ hx _ (by rw [hst]; rfl)
    exact .inl hok
  | restoreRecord hx hst hrec =>
    have hok := hok _ hx _ (by rw [hst]; rfl)
    exact .inl (hok _ hrec)

section

omit [DecidableEq H]

theorem Covered.other {v' : V} {p' : PageId} {f : PendingSets → PendingSets} (h : s.Covered v p)
    (hne : ¬ (v = v' ∧ p = p'))
    (hf : ∀ x q, q ≠ p' → (q ∈ x.pending → q ∈ (f x).pending) ∧ (q ∈ x.failed → q ∈ (f x).failed))
    (hp : s'.pend v = (s.onPend v' f).pend v) (hs : s.UnmarkedSeal v p → s'.UnmarkedSeal v p) : s'.Covered v p := by
  unfold Covered
  rw [hp, pend_onPend]
  by_cases hv : v = v'
  · subst hv
    rw [if_pos rfl]
    have hpp := hf (s.pend v) p fun h => hne ⟨rfl, h⟩
    exact h.imp hpp.1 (Or.imp hpp.2 hs)
  · rw [if_neg hv]
    exact h.imp_right (Or.imp_right hs)

theorem Covered.own {f : PendingSets → PendingSets} (hp : s'.pend v = (s.onPend v f).pend v)
    (hf : p ∈ (f (s.pend v)).pending ∨ p ∈ (f (s.pend v)).failed) : s'.Covered v p := by
  unfold Covered
  rw [hp, pend_onPend, if_pos rfl, ← or_assoc]
  exact .inl hf

end

omit [DecidableEq V] [DecidableEq H] in
theorem Covered.imp_seal (h : s.Covered v p) (hp : s'.pend v = s.pend v)
    (hs : s.UnmarkedSeal v p → s'.UnmarkedSeal v p) : s'.Covered v p := by
  unfold Covered
  rw [hp]
  exact h.imp_right (Or.imp_right hs)

theorem covered_kept (htasks : TasksStored fl s) (h : s.Covered v p) (hm : Moves fl s a s') (hok : snapshotOk fl s a) :
    s'.Covered v p ∨ s.Safe fl v (s.record v p) := by
  cases hm with
  | sealStart ht => exact .inl (h.imp_seal rfl (fun hu => hu.fresh ht))
  | sealPool hx hst => exact .inl (h.imp_seal rfl (fun hu => hu.replace hx (fun hx' => absurd hst hx'.2.2.stage.1)))
  | sealIndex hx hst => exact .inl (h.imp_seal rfl (fun hu => hu.replace hx (fun hx' => absurd hst hx'.2.2.stage.2.1)))
  | sealFlag hx =>
    exact .inl (h.imp_seal rfl (fun hu => hu.replace hx (fun hx' => ⟨hx'.1, hx'.2.1, .inr rfl⟩)))
  | @sealMark t x hx =>
    by_cases hvp : v = x.vol ∧ p = x.page
    · obtain ⟨rfl, rfl⟩ := hvp
      exact .inl (.own (s := s) (f := (·.markPending x.page)) rfl (.inl (mem_insert_self _ _)))
    · refine .inl (h.other hvp (fun y q hq => y.markPending_other hq) rfl (fun hu => hu.replace hx ?_))
      exact fun hx' => absurd ⟨hx'.1.symm, hx'.2.1.symm⟩ hvp
  | sealSend hx hst =>
    exact .inl (h.imp_seal rfl (fun hu => hu.replace hx (fun hx' => absurd hst hx'.2.2.stage.2.2.1)))
  | sealEnd hx hst => exact .inl (h.imp_seal rfl (fun hu => hu.drop hx (fun hx' => hx'.2.2.stage.2.2.2.1 hst)))
  | @sealClosed t x hx hst =>
    have hrow : s.UnmarkedSeal v p → Table.Any (s.seals.insert t { x with stage := .unmarked })
        (fun _ x => x.vol = v ∧ x.page = p ∧ x.Unmarked) :=
      fun hu => hu.replace hx fun hx' => absurd hst hx'.2.2.stage.2.2.1
    by_cases hvp : v = x.vol ∧ p = x.page
    · obtain ⟨rfl, rfl⟩ := hvp
      have hok := hok _ hx
      exact hok.symm.imp_left fun hu => .inr (.inr (hrow hu))
    · exact .inl (h.other hvp (fun y q hq => y.markDone_other hq) rfl hrow)
  | sealRollback hx hst =>
    exact .inl (h.imp_seal rfl (fun hu => hu.replace hx (fun hx' => absurd hst hx'.2.2.stage.2.2.2.2.1)))
  | sealAbort hx hst => exact .inl (h.imp_seal rfl (fun hu => hu.drop hx (fun hx' => hx'.2.2.stage.2.2.2.2.2 hst)))
  | @sealFail t x hx =>
    by_cases hrow : (x.vol = v ∧ x.page = p ∧ x.Unmarked)
    · obtain ⟨rfl, rfl, hun⟩ := hrow
      have hok := hok _ hx
      have hidx : x.stage = .indexed := by
        obtain ⟨h1, h2, -, -, h5, h6⟩ := hun.stage
        tauto
      rcases hok hidx with hs | hp | hf
      · exact .inr hs
      · exact .inl (.inl hp)
      · exact .inl (.inr (.inl hf))
    · exact .inl (h.imp_seal rfl (fun hu => hu.drop hx hrow))
  | @taskDone k x hx hst =>
    by_cases hvp : v = x.vol ∧ p = x.page
    · obtain ⟨rfl, rfl⟩ := hvp
      have hok := hok _ hx
      have hstored := htasks k x hx (by rw [hst]; decide)
      rcases hok with hn | hg | hu
      · exact .inr (by rw [hn]; trivial)
      · rw [get_eq] at hg
        obtain ⟨e, he, hh⟩ := Option.map_eq_some_iff.1 hg
        rw [← hh] at hstored
        exact .inr (by rw [he]; exact hstored)
      · exact .inl (.inr (.inr hu))
    · exact .inl (h.other hvp (fun y q hq => y.markDone_other hq) rfl id)
  | @taskFail k x =>
    by_cases hvp : v = x.vol ∧ p = x.page
    · obtain ⟨rfl, rfl⟩ := hvp
      exact .inl (.own (s := s) (f := (·.markFailed x.page)) rfl (.inr (mem_insert_self _ _)))
    · exact .inl (h.other hvp (fun y q hq => y.markFailed_other hq) rfl id)
  | @retryClear t q x hx hc =>
    by_cases hvp : v = x.vol ∧ p = q
    · obtain ⟨rfl, rfl⟩ := hvp
      have hok := hok _ hx _ hc
      rcases hok with hn | hp | hu
      · exact .inr (by rw [hn]; trivial)
      · exact .inl (.own (s := s) (f := (·.clearFailed p)) rfl (.inl hp))
      · exact .inl (.inr (.inr hu))
    · exact .inl (h.other hvp (fun y q hq => y.clearFailed_other hq) rfl id)
  | @retryMark t q hash x =>
    by_cases hvp : v = x.vol ∧ p = q
    · obtain ⟨rfl, rfl⟩ := hvp
      exact .inl (.own (s := s) (f := (·.markPending p)) rfl (.inl (mem_insert_self _ _)))
    · exact .inl (h.other hvp (fun y q hq => y.markPending_other hq) rfl id)
  | @retryClosed t q hash x =>
    by_cases hvp : v = x.vol ∧ p = q
    · obtain ⟨rfl, rfl⟩ := hvp
      exact .inl (.own (s := s) (f := (·.markFailed p)) rfl (.inr (mem_insert_self _ _)))
    · exact .inl (h.other hvp (fun y q hq => y.markFailed_other hq) rfl id)
  | @restoreClear t x hx =>
    have hok := hok _ hx
    by_cases hv : v = x.vol
    · subst hv
      rcases h with h | h | h
      · exact .inl (.own (s := s) (f := (·.clearAllFailed)) rfl (.inl h))
      · rcases hok p h with hs | h | h
        · exact .inr hs
        · exact .inl (.own (s := s) (f := (·.clearAllFailed)) rfl (.inl h))
        · exact .inl (.inr (.inr h))
      · exact .inl (.inr (.inr h))
    · exact .inl (h.imp_seal ((pend_onPend s x.vol v (·.clearAllFailed)).trans (if_neg hv)) id)
  | _ => exact .inl h

/-- **Every page whose chunk is not in the bucket stays covered.** -/
theorem covered_step (htasks : TasksStored fl s) (h : ∀ v p, s.Safe fl v (s.record v p) ∨ s.Covered v p)
    (hm : Moves fl s a s') (hok : snapshotOk fl s a) : ∀ v p, s'.Safe fl v (s'.record v p) ∨ s'.Covered v p := by
  intro v p
  rcases record_step hm v p with hr | hb
  · rw [hr]
    rcases h v p with hs | hc
    · exact .inl (safe_step hm hs)
    · exact (covered_kept htasks hc hm hok).symm.imp_left (safe_step hm)
  · generalize s'.record v p = rec at hb ⊢
    rcases binds_of_snapshotOk hok hb with hs | ⟨t, x, rfl, hx, hst, rfl, rfl⟩
    · exact .inl (safe_step hm hs)
    · cases hm with
      | sealIndex hx' =>
        rw [hx, Option.some.injEq] at hx'
        subst hx'
        exact .inr (.inr (.inr (Table.Any.of_lookup (AList.lookup_insert _) ⟨rfl, rfl, .inl rfl⟩)))

/-! ## The lock -/

structure Locks (s : FleetState V H) : Prop where
  snap : ∀ t x, s.snaps.lookup t = some x → s.locked x.vol = some (.snap t)
  restore : ∀ t x, s.restores.lookup t = some x → s.locked x.vol = some (.restore t)

omit [DecidableEq V] [DecidableEq H] in
theorem Locks.frame (h : Locks s) (hl : s'.locked = s.locked)
    (hsnap : ∀ t x, s'.snaps.lookup t = some x → ∃ x0, s.snaps.lookup t = some x0 ∧ x0.vol = x.vol)
    (hrest : ∀ t x, s'.restores.lookup t = some x → ∃ x0, s.restores.lookup t = some x0 ∧ x0.vol = x.vol) : Locks s' := by
  constructor
  · intro t x hx
    obtain ⟨x0, hx0, hv⟩ := hsnap t x hx
    rw [hl, ← hv]
    exact h.snap t x0 hx0
  · intro t x hx
    obtain ⟨x0, hx0, hv⟩ := hrest t x hx
    rw [hl, ← hv]
    exact h.restore t x0 hx0

section

omit [DecidableEq H]

theorem locked_other {o : Option LockHolder} {w : V} {k : LockHolder} (hl : s'.locked = update s.locked v o)
    (hw : s.locked w = some k) (hv : s.locked v ≠ some k) : s'.locked w = some k := by
  have hne : w ≠ v := by
    rintro rfl
    exact hv hw
  rw [hl, update_of_ne hne]
  exact hw

theorem Locks.acquire {holder : LockHolder} (h : Locks s) (hv : s.locked v = none)
    (hl : s'.locked = update s.locked v (some holder))
    (hsnap : ∀ t x, s'.snaps.lookup t = some x → s.snaps.lookup t = some x ∨ (x.vol = v ∧ holder = .snap t))
    (hrest : ∀ t x, s'.restores.lookup t = some x → s.restores.lookup t = some x ∨ (x.vol = v ∧ holder = .restore t)) :
    Locks s' := by
  have other : ∀ {w : V} {k : LockHolder}, s.locked w = some k → s'.locked w = some k :=
    fun hw => locked_other hl hw (by simp [hv])
  constructor
  · intro t x hx
    rcases hsnap t x hx with hx | ⟨rfl, rfl⟩
    · exact other (h.snap t x hx)
    · rw [hl, update_self]
  · intro t x hx
    rcases hrest t x hx with hx | ⟨rfl, rfl⟩
    · exact other (h.restore t x hx)
    · rw [hl, update_self]

theorem Locks.release {holder : LockHolder} (h : Locks s) (hv : s.locked v = some holder)
    (hl : s'.locked = update s.locked v none)
    (hsnap : ∀ t x, s'.snaps.lookup t = some x → s.snaps.lookup t = some x ∧ holder ≠ .snap t)
    (hrest : ∀ t x, s'.restores.lookup t = some x → s.restores.lookup t = some x ∧ holder ≠ .restore t) : Locks s' := by
  constructor
  · intro t x hx
    obtain ⟨hx, hne⟩ := hsnap t x hx
    exact locked_other hl (h.snap t x hx) (by simpa [hv] using hne)
  · intro t x hx
    obtain ⟨hx, hne⟩ := hrest t x hx
    exact locked_other hl (h.restore t x hx) (by simpa [hv] using hne)

end

theorem locks_step (h : Locks s) (hm : Moves fl s a s') : Locks s' := by
  have snaps : ∀ t x, s.snaps.lookup t = some x → ∃ x0, s.snaps.lookup t = some x0 ∧ x0.vol = x.vol :=
    fun t x hx => ⟨x, hx, rfl⟩
  have rests : ∀ t x, s.restores.lookup t = some x → ∃ x0, s.restores.lookup t = some x0 ∧ x0.vol = x.vol :=
    fun t x hx => ⟨x, hx, rfl⟩
  cases hm with
  | @snapLock t v ht hl =>
    refine h.acquire hl rfl (fun t' x hx => ?_) fun t' x hx => .inl hx
    rcases lookup_insert_some hx with ⟨rfl, rfl⟩ | ⟨-, hx⟩
    · exact .inr ⟨rfl, rfl⟩
    · exact .inl hx
  | @restoreLock t i v frozen hi ht hl =>
    refine h.acquire hl rfl (fun t' x hx => .inl hx) fun t' x hx => ?_
    rcases lookup_insert_some hx with ⟨rfl, rfl⟩ | ⟨-, hx⟩
    · exact .inr ⟨rfl, rfl⟩
    · exact .inl hx
  | @snapDone t x hx | @snapAbort t x hx =>
    refine h.release (h.snap t x hx) rfl (fun t' y hy => ?_) fun t' y hy => ⟨hy, by simp⟩
    obtain ⟨hne, hy⟩ := lookup_erase_some hy
    exact ⟨hy, by simpa using Ne.symm hne⟩
  | @restoreClear t x hx | @restoreFail t x hx =>
    refine h.release (h.restore t x hx) rfl (fun t' y hy => ⟨hy, by simp⟩) fun t' y hy => ?_
    obtain ⟨hne, hy⟩ := lookup_erase_some hy
    exact ⟨hy, by simpa using Ne.symm hne⟩
  | @snapDrain t x hx | @snapSync t x hx | @snapCopy t x hx =>
    exact h.frame rfl (forall_insert snaps ⟨x, hx, rfl⟩) rests
  | @restoreDrain t x hx | @restoreLen t x hx | @restoreRecord t n x rec hx | @restoreSync t x hx
  | @restoreReset t x hx => exact h.frame rfl snaps (forall_insert rests ⟨x, hx, rfl⟩)
  | _ => exact h.frame rfl snaps rests

theorem shortOfMark_step (hm : Moves fl s a s') : ∀ t y, s'.seals.lookup t = some y → y.ShortOfMark →
    (∃ y0, s.seals.lookup t = some y0 ∧ y0.vol = y.vol ∧ y0.ShortOfMark) ∨ s.locked y.vol = none := by
  have keep : ∀ t y, s.seals.lookup t = some y → y.ShortOfMark →
      (∃ y0, s.seals.lookup t = some y0 ∧ y0.vol = y.vol ∧ y0.ShortOfMark) ∨ s.locked y.vol = none :=
    fun t y hy hsh => .inl ⟨y, hy, rfl, hsh⟩
  have idle : ∀ {x : Seal V} {st : SealStage}, (st = .marked ∨ st = .sent ∨ st = .unmarked ∨ st = .rolledBack) →
      ¬ Seal.ShortOfMark { x with stage := st } := by
    rintro x st (rfl | rfl | rfl | rfl) <;> simp [Seal.ShortOfMark]
  cases hm with
  | sealStart ht hl => exact forall_insert keep fun _ => .inr hl
  | @sealPool t' x hx hst => exact forall_insert keep fun _ => .inl ⟨x, hx, rfl, .inl hst⟩
  | @sealIndex t' x hx hst =>
    exact forall_insert keep fun _ => .inl ⟨x, hx, rfl, .inr (.inl hst)⟩
  | @sealFlag t' x hx hst =>
    exact forall_insert keep fun _ => .inl ⟨x, hx, rfl, .inr (.inr (.inl hst))⟩
  | sealMark => exact forall_insert keep fun h => absurd h (idle (.inl rfl))
  | sealSend => exact forall_insert keep fun h => absurd h (idle (.inr (.inl rfl)))
  | sealClosed =>
    exact forall_insert keep fun h => absurd h (idle (.inr (.inr (.inl rfl))))
  | sealRollback =>
    exact forall_insert keep fun h => absurd h (idle (.inr (.inr (.inr rfl))))
  | @sealEnd t' | @sealAbort t' | @sealFail t' => exact forall_erase keep t'
  | _ => exact keep

/-! ## Snapshots -/

/-- Once the wait is over the whole index is safe, and no seal is left to change that. -/
structure SnapSafe (fl : Fleet V H) (s : FleetState V H) (x : Snap V H) : Prop where
  copy : ∀ rec ∈ x.copy, s.Safe fl x.vol rec
  quiet : x.stage ≠ .frozen → (∀ p, s.Safe fl x.vol (s.record x.vol p)) ∧
    ∀ t y, s.seals.lookup t = some y → y.vol = x.vol → ¬ y.ShortOfMark

theorem SnapSafe.step {t : Nat} {x : Snap V H} (h : SnapSafe fl s x) (hlocks : Locks s) (hx : s.snaps.lookup t = some x)
    (hm : Moves fl s a s') (hok : snapshotOk fl s a) : SnapSafe fl s' x := by
  refine ⟨fun rec hrec => safe_step hm (h.copy rec hrec), fun hst => ?_⟩
  obtain ⟨hrecs, hseals⟩ := h.quiet hst
  constructor
  · intro p
    rcases record_step hm x.vol p with hr | hb
    · rw [hr]
      exact safe_step hm (hrecs p)
    · generalize s'.record x.vol p = rec at hb ⊢
      rcases binds_of_snapshotOk hok hb with hs | ⟨t', y, rfl, hy, hyst, hv, -⟩
      · exact safe_step hm hs
      · exact absurd (.inr (.inl hyst)) (hseals t' y hy hv)
  · intro t' y hy hv hsh
    rcases shortOfMark_step hm t' y hy hsh with ⟨y0, hy0, hv0, hsh0⟩ | hl
    · exact hseals t' y0 hy0 (hv0.trans hv) hsh0
    · rw [hv, hlocks.snap t x hx] at hl
      cases hl

structure SnapInv (fl : Fleet V H) (s : FleetState V H) : Prop where
  tasks : TasksStored fl s
  covered : ∀ v p, s.Safe fl v (s.record v p) ∨ s.Covered v p
  locks : Locks s
  snaps : ∀ t x, s.snaps.lookup t = some x → SnapSafe fl s x

theorem le_allPages (p : PageId) : allPages.1 ≤ p ∧ p ≤ allPages.2 := by
  constructor
  · rw [UInt32.le_iff_toNat_le]
    exact Nat.zero_le _
  · rw [UInt32.le_iff_toNat_le]
    exact Nat.le_sub_one_of_lt p.toNat_lt_size

omit [DecidableEq V] [DecidableEq H] in
theorem SnapInv.safe_of_clean (h : SnapInv fl s) (hw : (s.pend v).waitForRange allPages.1 allPages.2 = some .clean)
    (hseals : s.seals.All (fun _ y => y.vol = v → ¬ y.ShortOfMark)) (p : PageId) : s.Safe fl v (s.record v p) := by
  obtain ⟨hpend, hfail⟩ := PendingSets.waitForRange_clean hw p (le_allPages p).1 (le_allPages p).2
  rcases h.covered v p with hs | hp | hf | hu
  · exact hs
  · exact absurd hp hpend
  · exact absurd hf hfail
  · obtain ⟨t, y, hy, hv, -, hun⟩ := (any_iff _ _).1 hu
    exact absurd (hun.elim (fun h => .inr (.inr (.inl h))) (fun h => .inr (.inr (.inr h))))
      (hseals.lookup hy hv)

theorem snaps_step (h : SnapInv fl s) (hm : Moves fl s a s') (hok : snapshotOk fl s a) :
    ∀ t x, s'.snaps.lookup t = some x → SnapSafe fl s' x := by
  have keep : ∀ t x, s.snaps.lookup t = some x → SnapSafe fl s' x :=
    fun t x hx => (h.snaps t x hx).step h.locks hx hm hok
  cases hm with
  | snapLock => exact forall_insert keep ⟨fun rec hrec => (by cases hrec), fun hne => absurd rfl hne⟩
  | @snapDrain t x hx hst hw =>
    have hok := hok _ hx
    refine forall_insert keep ⟨(keep t x hx).copy, fun _ => ⟨h.safe_of_clean hw hok, ?_⟩⟩
    exact fun t' y hy => hok.lookup hy
  | @snapSync t x hx hst =>
    exact forall_insert keep ⟨(keep t x hx).copy, fun _ => (keep t x hx).quiet (by rw [hst]; decide)⟩
  | @snapCopy t x hx hst =>
    have hq := (keep t x hx).quiet (by rw [hst]; decide)
    refine forall_insert keep ⟨fun rec hrec => ?_, fun _ => hq⟩
    rcases List.mem_append.1 hrec with hrec | hrec
    · exact (keep t x hx).copy rec hrec
    · rw [List.mem_singleton.1 hrec]
      exact hq.1 _
  | @snapDone t | @snapAbort t => exact forall_erase keep t
  | _ => exact keep

theorem SnapInv.step (h : SnapInv fl s) (hm : Moves fl s a s') (hok : snapshotOk fl s a) : SnapInv fl s' :=
  ⟨tasksStored_step h.tasks hm, covered_step h.tasks h.covered hm hok, locks_step h.locks hm, snaps_step h hm hok⟩

/-- **A snapshot freezes only chunks that are in the bucket**, under `snapshotOk`, and the index it returns is the copy
it took. -/
theorem snapshot_durable (b : Boot V H)
    (h0 : ∀ v p e, (b.pages v).getEntry p = some e → (b.store (fl.key v e.hash)).isSome = true ∨
      p ∈ (b.pend v).pending ∨ p ∈ (b.pend v).failed)
    (acts : List (FleetAct V H)) (s : FleetState V H) (hrun : (machine fl).run (booted b) acts = some s)
    (hok : (machine fl).Meets (snapshotOk fl) (booted b) acts) :
    (∀ t x, s.snaps.lookup t = some x → ∀ e, some e ∈ x.copy → s.Stored (fl.key x.vol e.hash)) ∧
    (∀ t s', (machine fl).step s (.snapDone t) = some s' → ∃ x, s.snaps.lookup t = some x ∧
      s'.snapshots = (x.vol, x.copy) :: s.snapshots) := by
  have hboot : SnapInv fl (booted b) := by
    refine ⟨tasksStored_booted b, fun v p => ?_, ⟨fun t x hx => (by cases hx), fun t x hx => (by cases hx)⟩,
      fun t x hx => (by cases hx)⟩
    cases he : (booted b).record v p with
    | none => exact .inl trivial
    | some e => exact (h0 v p e he).imp_right (Or.imp_right .inl)
  have hend := Machine.run_inv _ (fun s a s' hi hk hs => SnapInv.step hi (machine_moves hs) hk) hboot hok hrun
  refine ⟨fun t x hx e he => (hend.snaps t x hx).copy (some e) he, fun t s' hs => ?_⟩
  cases machine_moves hs with
  | snapDone hx => exact ⟨_, hx, rfl⟩

def freezeRun (t : Nat) : List (FleetAct Unit Bytes) := [.snapLock t (), .snapDrain t, .snapSync t, .snapCopy t]

theorem snapshot_durable_freezeRun :
    ∃ s x e, (machine solo).run (booted newVolume) (sealRun [1] 1 2 ++ taskRun 2 ++ freezeRun 3) = some s ∧
      s.snaps.lookup 3 = some x ∧ some e ∈ x.copy ∧ s.Stored (solo.key x.vol e.hash) := by
  obtain ⟨s, hs, x, hx, he⟩ : ∃ s ∈ (machine solo).run (booted newVolume) (sealRun [1] 1 2 ++ taskRun 2 ++
      freezeRun 3), ∃ x, s.snaps.lookup 3 = some x ∧ some (⟨[1], 0⟩ : PageEntry Bytes) ∈ x.copy := by decide +kernel
  exact ⟨s, x, _, hs, hx, he, (snapshot_durable newVolume (fun v p e he => by cases he) _ s hs (by decide +kernel)).1 3 x hx
    _ he⟩

def racingFlushRun : List (FleetAct Unit Bytes) :=
  [.sealStart 1 () 0 [1] 0, .sealPool 1, .snapLock 3 (), .snapDrain 3, .snapSync 3, .sealIndex 1, .snapCopy 3, .snapDone 3]

/-- **A snapshot freezes a chunk that is not in the bucket.** -/
theorem snapshot_durable_fails : ∃ s copy e, (machine solo).run (booted newVolume) racingFlushRun = some s ∧
    s.snapshots = [((), copy)] ∧ some e ∈ copy ∧ ¬ s.Stored (solo.key () e.hash) := by
  obtain ⟨s, hs, h⟩ := (Option.any_eq_true _ _).1
    (show ((machine solo).run (booted newVolume) racingFlushRun).any (fun s =>
      decide (s.snapshots = [((), [some (⟨[1], 0⟩ : PageEntry Bytes)])] ∧ ¬ s.Stored (solo.key () [1]))) = true by
        decide +kernel)
  obtain ⟨hsn, hns⟩ := of_decide_eq_true h
  exact ⟨s, _, _, hs, hsn, List.mem_singleton.2 rfl, hns⟩

end FleetState
end Thur

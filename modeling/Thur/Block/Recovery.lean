import Thur.Block.FleetWrites
/-!
# Recovery — what a crash leaves, and what the boot-time scan finds

A crash keeps any subset of the unsynced writes of either sidecar. The scan re-enqueues the pages that read `LocalOnly`,
so a record whose chunk is not in the bucket must come back with a `LocalOnly` flag. `page_index_sync` syncs the flags
before the records, but the kernel may write a record back before either sync.
-/

namespace Thur

open RecordFile SyncFile

variable {V H : Type}

/-! ## `enqueue_one_volume` -/

structure Enqueued (H : Type) where
  tasks : List (PageId × H)
  pend : PendingSets
  upload : UploadIndexFile

/-- A `LocalOnly` page without a record is drift, and set back. -/
def enqueueSlots (pages : PageIndex H) : List (PageId × UploadState) → Enqueued H → Enqueued H
  | [], r => r
  | (_, .uploaded) :: slots, r => enqueueSlots pages slots r
  | (p, .localOnly) :: slots, r =>
    match pages.get p with
    | none => enqueueSlots pages slots { r with upload := r.upload.set p .uploaded }
    | some h => enqueueSlots pages slots { r with tasks := r.tasks ++ [(p, h)], pend := r.pend.markPending p }

def enqueueOneVolume (pages : PageIndex H) (upload : UploadIndexFile) : Enqueued H :=
  enqueueSlots pages upload.slots ⟨[], .new, upload⟩

theorem mem_enqueueSlots (pages : PageIndex H) (p : PageId) (h : H) : ∀ (slots : List (PageId × UploadState))
    (r : Enqueued H), (p, h) ∈ (enqueueSlots pages slots r).tasks ↔
      (p, h) ∈ r.tasks ∨ ((p, .localOnly) ∈ slots ∧ pages.get p = some h)
  | [], r => by simp [enqueueSlots]
  | (q, .uploaded) :: slots, r => by
    rw [enqueueSlots, mem_enqueueSlots pages p h slots]
    simp
  | (q, .localOnly) :: slots, r => by
    rw [enqueueSlots]
    cases hg : pages.get q with
    | none =>
      rw [mem_enqueueSlots pages p h slots]
      by_cases hp : p = q
      · subst hp
        simp [hg]
      · simp [hp]
    | some g =>
      rw [mem_enqueueSlots pages p h slots]
      by_cases hp : p = q
      · subst hp
        have hcomm : h = g ↔ g = h := eq_comm
        simp only [List.mem_append, List.mem_cons, List.not_mem_nil, or_false, Prod.mk.injEq, true_and, hg,
          Option.some.injEq, true_or, hcomm]
        tauto
      · simp [hp]

/-- **The scan finds exactly the allocated pages that read `LocalOnly`.** -/
theorem mem_enqueueOneVolume (pages : PageIndex H) (upload : UploadIndexFile) (p : PageId) (h : H) :
    (p, h) ∈ (enqueueOneVolume pages upload).tasks ↔ upload.read p = .localOnly ∧ pages.get p = some h := by
  unfold enqueueOneVolume
  rw [mem_enqueueSlots]
  simp only [List.not_mem_nil, false_or]
  refine and_congr_left fun _ => ⟨fun hm => ((upload.mem_slots p .localOnly).1 hm).2.symm, fun hr => ?_⟩
  have hslot : (p, upload.read p) ∈ upload.slots := upload.mem_slots_of_read (by rw [hr]; decide)
  rw [hr] at hslot
  exact hslot

namespace FleetState

variable [DecidableEq V] [DecidableEq H] {fl : Fleet V H} {s s' : FleetState V H} {a : FleetAct V H} {v : V}
  {p : PageId}

/-! ## What a crash may leave -/

def RecordsSafe (fl : Fleet V H) (s : FleetState V H) (v : V) (p : PageId) : Prop :=
  ∀ rec ∈ (s.pages v).file.possible p, s.Safe fl v rec
deriving Decidable

def FlagsLocal (s : FleetState V H) (v : V) (p : PageId) : Prop := ∀ st ∈ (s.upload v).file.possible p, st = .localOnly
deriving Decidable

/-- **When a step keeps a crash recoverable**: a record without its object goes only to a page that reads `LocalOnly`
after any crash, and `Uploaded` only to a page whose record is safe. -/
def recoveryOk (fl : Fleet V H) (s : FleetState V H) : FleetAct V H → Prop
  | .sealIndex t => ∀ x ∈ s.seals.lookup t, s.Stored (x.chunk fl) ∨ s.FlagsLocal x.vol x.page
  | .sealRollback t => ∀ x ∈ s.seals.lookup t, s.RecordsSafe fl x.vol x.page
  | .taskFlag k => ∀ x ∈ s.tasks.lookup k, s.RecordsSafe fl x.vol x.page
  | .cloneBind t => ∀ x ∈ s.clones.lookup t, ∀ rec ∈ x.stage.toBind, s.Safe fl x.dst rec ∨ s.FlagsLocal x.dst x.dstPage
  | .cloneFlag t => ∀ x ∈ s.clones.lookup t, s.RecordsSafe fl x.dst x.dstPage
  | .restoreRecord t => ∀ x ∈ s.restores.lookup t, ∀ n ∈ x.stage.next,
      (∀ rec ∈ x.snapshot[n]?, s.Safe fl x.vol rec) ∨ s.FlagsLocal x.vol (UInt32.ofNat n)
  | .restoreReset t => ∀ x ∈ s.restores.lookup t, ∀ y ∈ (s.pages x.vol).slots, s.RecordsSafe fl x.vol y.1
  | _ => True

instance (s : FleetState V H) (a : FleetAct V H) : Decidable (recoveryOk fl s a) := by
  apply FleetAct.casesOn (motive := fun a => Decidable (recoveryOk fl s a)) a <;>
    intros <;> unfold recoveryOk <;> infer_instance

theorem possible_record_step (hm : Moves fl s a s') {rec : Option (PageEntry H)}
    (h : rec ∈ (s'.pages v).file.possible p) :
    rec ∈ (s.pages v).file.possible p ∨ Binds fl s a v p rec ∨ rec = none := by
  rw [mem_possible] at h ⊢
  cases hm with
  | sealIndex hx hst => exact (possible_update_put s.pages (.sealIndex hx hst) h).imp_right .inl
  | unmapClear hx => exact (possible_update_put s.pages (.unmap hx) h).imp_right .inl
  | cloneBind hx hst => exact (possible_update_put s.pages (.clone hx hst) h).imp_right .inl
  | restoreRecord hx hst hrec => exact (possible_update_put s.pages (.restoreRecord hx hst hrec) h).imp_right .inl
  | @restoreLen t x =>
    by_cases hv : v = x.vol
    · subst hv
      simp only [Function.update_self] at h
      rcases possible_clearFrom _ _ h with h | h
      · exact .inr (.inr h)
      · exact .inl h
    · simp only [Function.update_of_ne hv] at h
      exact .inl h
  | pagesSync | cloneSync | snapSync | restoreSync => exact .inl (possible_update_sync s.pages h)
  | _ => exact .inl h

theorem possible_flag_step (hm : Moves fl s a s') {st : UploadState} (h : st ∈ (s'.upload v).file.possible p) :
    st ∈ (s.upload v).file.possible p ∨ Marks s a v p st := by
  rw [mem_possible] at h ⊢
  cases hm with
  | sealFlag hx hst => exact possible_update_put s.upload (.sealFlag hx hst) h
  | sealRollback hx hst => exact possible_update_put s.upload (.rollback hx hst) h
  | taskFlag hx hst => exact possible_update_put s.upload (.task hx hst) h
  | cloneFlag hx hst => exact possible_update_put s.upload (.clone hx hst) h
  | @restoreReset t x hx hst =>
    by_cases hv : v = x.vol
    · subst hv
      simp only [Function.update_self] at h
      rcases h with h | h
      · cases h
        exact .inr (.restore hx hst)
      · cases h
    · simp only [Function.update_of_ne hv] at h
      exact .inl h
  | uploadSync | sealAbort | taskSync | cloneEnd | snapSync => exact .inl (possible_update_sync s.upload h)
  | _ => exact .inl h

/-! ## Whole runs -/

section

omit [DecidableEq V] [DecidableEq H]

theorem binds_of_recoveryOk {rec : Option (PageEntry H)} (hok : recoveryOk fl s a) (hb : Binds fl s a v p rec) :
    s.Safe fl v rec ∨ s.FlagsLocal v p := by
  cases hb with
  | sealIndex hx =>
    have hok := hok _ hx
    exact hok
  | unmap | restoreLen => exact .inl trivial
  | clone hx hst =>
    have hok := hok _ hx _ (by rw [hst]; rfl)
    exact hok
  | restoreRecord hx hst hrec =>
    have hok := hok _ hx _ (by rw [hst]; rfl)
    exact hok.imp_left fun h => h _ hrec

theorem marks_of_recoveryOk {st : UploadState} (hok : recoveryOk fl s a) (hk : Marks s a v p st) :
    st = .localOnly ∨ s.RecordsSafe fl v p := by
  cases hk with
  | sealFlag => exact .inl rfl
  | rollback hx | task hx | clone hx =>
    have hok := hok _ hx
    exact .inr hok
  | @restore t x p hx =>
    have hok := hok _ hx
    by_cases hlen : p.toNat < (s.pages x.vol).len
    · exact .inr (hok _ (((s.pages x.vol).mem_slots p _).2 ⟨hlen, rfl⟩))
    · -- past the end of the file there is nothing to lose
      refine .inr fun rec hrec => ?_
      rw [(s.pages x.vol).hole p (Nat.le_of_not_lt hlen) rec ((mem_possible _ _ _).1 hrec)]
      trivial

end

theorem recoverable_step (h : ∀ v p, s.RecordsSafe fl v p ∨ s.FlagsLocal v p) (hm : Moves fl s a s')
    (hok : recoveryOk fl s a) : ∀ v p, s'.RecordsSafe fl v p ∨ s'.FlagsLocal v p := by
  intro v p
  have hflags : s.FlagsLocal v p → (∀ st, Marks s a v p st → st = .localOnly) → s'.FlagsLocal v p := by
    intro hf hk st hst
    rcases possible_flag_step hm hst with h' | h'
    · exact hf st h'
    · exact hk st h'
  by_cases hr : s.RecordsSafe fl v p
  · by_cases hw : ∀ rec, Binds fl s a v p rec → s.Safe fl v rec
    · refine .inl (fun rec hrec => safe_step hm ?_)
      rcases possible_record_step hm hrec with h' | h' | rfl
      · exact hr rec h'
      · exact hw rec h'
      · trivial
    · -- an unsafe record is written: the flag is durably `LocalOnly`, and the step does not touch it
      obtain ⟨rec, hw⟩ := not_forall.1 hw
      obtain ⟨hb, hns⟩ := Classical.not_imp.1 hw
      have hf := (binds_of_recoveryOk hok hb).resolve_left hns
      exact .inr (hflags hf (fun st hk => by cases hb <;> cases hk))
  · have hf := (h v p).resolve_left hr
    exact .inr (hflags hf (fun st hk => (marks_of_recoveryOk hok hk).resolve_right hr))

/-- **A crash loses no un-uploaded page**: under `recoveryOk`, whatever unsynced writes a crash keeps, a page whose
chunk is not in the bucket reads `LocalOnly` and is enqueued. -/
theorem crash_recovers (b : Boot V H)
    (h0 : ∀ v p, RecordsSafe fl (booted b) v p ∨ FlagsLocal (booted b) v p)
    (acts : List (FleetAct V H)) (s : FleetState V H) (hrun : (machine fl).run (booted b) acts = some s)
    (hok : (machine fl).Meets (recoveryOk fl) (booted b) acts) (v : V)
    (keptPages : List (PageId × Option (PageEntry H))) (keptUpload : List (PageId × UploadState))
    (hpages : keptPages.Sublist (s.pages v).file.unsynced) (hupload : keptUpload.Sublist (s.upload v).file.unsynced)
    (p : PageId) (e : PageEntry H) (he : PageIndex.getEntry ((s.pages v).afterCrash keptPages hpages) p = some e)
    (hns : ¬ s.Stored (fl.key v e.hash)) :
    ((s.upload v).afterCrash keptUpload hupload).read p = .localOnly ∧
    (p, e.hash) ∈ (enqueueOneVolume ((s.pages v).afterCrash keptPages hpages)
      ((s.upload v).afterCrash keptUpload hupload)).tasks := by
  have hend := Machine.run_inv _ (fun s a s' hi hk hs => recoverable_step hi (machine_moves hs) hk) h0 hok hrun v p
  have hrec : some e ∈ (s.pages v).file.possible p := by
    rw [mem_possible, ← he]
    exact possible_afterCrash _ hpages p
  have hlocal : ((s.upload v).afterCrash keptUpload hupload).read p = .localOnly := by
    have hf := hend.resolve_left fun hr => hns (hr _ hrec)
    exact hf _ ((mem_possible _ _ _).2 (possible_afterCrash _ hupload p))
  refine ⟨hlocal, (mem_enqueueOneVolume _ _ p e.hash).2 ⟨hlocal, ?_⟩⟩
  unfold PageIndex.get
  rw [he]
  rfl

theorem crash_recovers_sealRun :
    ∃ s e, (machine solo).run (booted leftLocal) (sealRun [1] 1 2) = some s ∧ ¬ s.Stored (solo.key () e.hash) ∧
      PageIndex.getEntry (s.pages ()).keepAll 0 = some e ∧
      (0, e.hash) ∈ (enqueueOneVolume (s.pages ()).keepAll (s.upload ()).loseAll).tasks := by
  obtain ⟨s, hs, e, he, hns⟩ : ∃ s ∈ (machine solo).run (booted leftLocal) (sealRun [1] 1 2), ∃ e,
      PageIndex.getEntry (s.pages ()).keepAll 0 = some e ∧ ¬ s.Stored (solo.key () e.hash) := by decide +kernel
  refine ⟨s, e, hs, hns, he, ?_⟩
  refine (crash_recovers leftLocal (fun v p => .inl ?_) (sealRun [1] 1 2) s hs (by decide +kernel) () _ []
    (List.Sublist.refl _) (List.nil_sublist _) 0 e he hns).2
  intro rec hrec
  rcases (mem_possible _ _ _).1 hrec with rfl | hrec
  · trivial
  · cases hrec

/-- **A page that nobody will upload**: the crash keeps its record and loses its flag. -/
theorem crash_recovers_fails : ∃ s e, (machine solo).run (booted newVolume) (sealRun [1] 1 2) = some s ∧
    PageIndex.getEntry (s.pages ()).keepAll 0 = some e ∧ ¬ s.Stored (solo.key () e.hash) ∧
    (s.upload ()).loseAll.read 0 = .uploaded ∧
    (0, e.hash) ∉ (enqueueOneVolume (s.pages ()).keepAll (s.upload ()).loseAll).tasks := Machine.ends_twice (by decide +kernel)

end FleetState
end Thur

import Thur.Block.FleetWrites
/-!
# Uploaded — an `Uploaded` flag means that the chunk is in the bucket

The eviction worker deletes local chunks on the word of `upload.idx`. The record is written before the flag, a task's
check is separate from its write, a closed channel sets the flag back, a clone reads the source's flag and record in two
steps: each of these is a clause of `uploadedOk`.
-/
namespace Thur

open Table

def CloneStage.target {H : Type} : CloneStage H → Option (Option (PageEntry H))
  | .ready rec => some rec
  | .bound rec => some rec
  | .synced rec => some rec
  | _ => none

namespace FleetState

variable {V H : Type} [DecidableEq V] [DecidableEq H] {fl : Fleet V H} {s s' : FleetState V H} {a : FleetAct V H}

/-- **When a step keeps the flags honest**: what reads `Uploaded` is given only stored chunks, a flag is written for the
chunk the record still names, and a restore starts from a whole snapshot. -/
def uploadedOk (fl : Fleet V H) (s : FleetState V H) : FleetAct V H → Prop
  | .sealIndex t => ∀ x ∈ s.seals.lookup t, s.flag x.vol x.page = .localOnly ∨ s.Stored (x.chunk fl)
  | .sealRollback t => ∀ x ∈ s.seals.lookup t, s.Safe fl x.vol (s.record x.vol x.page)
  | .taskFlag k => ∀ x ∈ s.tasks.lookup k, s.record x.vol x.page = none ∨ (s.pages x.vol).get x.page = some x.hash
  | .cloneGet t => ∀ x ∈ s.clones.lookup t, s.flag x.src x.srcPage = .uploaded
  | .cloneFlag t =>
    ∀ x ∈ s.clones.lookup t, s.record x.dst x.dstPage = none ∨ x.stage.target = some (s.record x.dst x.dstPage)
  | .restoreLock _ v i => ∀ sn ∈ s.snapshots[i]?, ∀ rec ∈ sn.2, s.Safe fl v rec
  | .restoreReset t => ∀ x ∈ s.restores.lookup t, ∀ y ∈ (s.pages x.vol).slots, y.2 = none ∨ y.2 ∈ x.snapshot
  | _ => True

instance (s : FleetState V H) (a : FleetAct V H) : Decidable (uploadedOk fl s a) := by
  apply FleetAct.casesOn (motive := fun a => Decidable (uploadedOk fl s a)) a <;>
    intros <;> unfold uploadedOk <;> infer_instance

structure Honest (fl : Fleet V H) (s : FleetState V H) : Prop where
  flags : ∀ v p, s.flag v p = .uploaded → s.Safe fl v (s.record v p)
  tasks : TasksStored fl s
  clones : ∀ t x, s.clones.lookup t = some x → ∀ rec, x.stage.target = some rec → s.Safe fl x.dst rec
  restores : ∀ t x, s.restores.lookup t = some x → ∀ rec ∈ x.snapshot, s.Safe fl x.vol rec

omit [DecidableEq V] [DecidableEq H] in
theorem safe_of_get {v : V} {p : PageId} {h : H} (hs : s.Stored (fl.key v h))
    (hg : s.record v p = none ∨ (s.pages v).get p = some h) : s.Safe fl v (s.record v p) := by
  rcases hg with hg | hg
  · rw [hg]
    trivial
  · rw [get_eq] at hg
    obtain ⟨e, he, rfl⟩ := Option.map_eq_some_iff.1 hg
    rw [he]
    exact hs

theorem Honest.flags_step (h : Honest fl s) (hm : Moves fl s a s') (hok : uploadedOk fl s a) :
    ∀ v p, s'.flag v p = .uploaded → s'.Safe fl v (s'.record v p) := by
  intro v p hf
  rcases record_step hm v p with hr | hb
  · rw [hr]
    refine safe_step hm ?_
    rcases flag_step hm v p with hk | hk
    · exact h.flags v p (hk.symm.trans hf)
    -- the flag is written: each writer knows the chunk of the record
    rw [hf] at hk
    cases hk with
    | rollback hx =>
      have hok := hok _ hx
      exact hok
    | task hx hst =>
      have hok := hok _ hx
      exact safe_of_get (h.tasks _ _ hx (by rw [hst]; decide)) hok
    | clone hx =>
      have hok := hok _ hx
      rcases hok with hok | hok
      · rw [hok]
        trivial
      · exact h.clones _ _ hx _ hok
    | @restore t x p hx =>
      have hok := hok _ hx
      cases hrec : s.record x.vol p with
      | none => trivial
      | some e =>
        have hne : s.record x.vol p ≠ none := by
          rw [hrec]
          exact Option.some_ne_none e
        have hslot : (p, s.record x.vol p) ∈ (s.pages x.vol).slots := RecordFile.mem_slots_of_read _ hne
        rw [hrec] at hslot
        rcases hok _ hslot with hn | hm'
        · cases hn
        · exact h.restores t x hx _ hm'
  · -- the record is written, and no step writes both
    generalize s'.record v p = rec at hb ⊢
    have hold : s.flag v p = .uploaded := by
      rcases flag_step hm v p with hk | hk
      · exact hk.symm.trans hf
      · cases hb <;> cases hk
    refine safe_step hm ?_
    cases hb with
    | sealIndex hx =>
      have hok := hok _ hx
      rcases hok with hok | hok
      · rw [hok] at hold
        cases hold
      · exact hok
    | unmap | restoreLen => trivial
    | clone hx hst => exact h.clones _ _ hx _ (by rw [hst]; rfl)
    | restoreRecord hx hst hrec => exact h.restores _ _ hx _ (List.mem_of_getElem? hrec)

theorem Honest.clones_step (h : Honest fl s) (hm : Moves fl s a s') (hok : uploadedOk fl s a) :
    ∀ t x, s'.clones.lookup t = some x → ∀ rec, x.stage.target = some rec → s'.Safe fl x.dst rec := by
  have keep : ∀ t x, s.clones.lookup t = some x → ∀ rec, x.stage.target = some rec → s'.Safe fl x.dst rec :=
    fun t x hx rec hrec => safe_step hm (h.clones t x hx rec hrec)
  cases hm with
  | cloneState | cloneDrop | cloneGetHole | cloneFlag => exact forall_insert keep fun rec hrec => by cases hrec
  | cloneDropHole =>
    refine forall_insert keep fun rec hrec => ?_
    cases hrec
    trivial
  | @cloneGet t x hx hst hr =>
    have hok := hok _ hx
    refine forall_insert keep fun rec hrec => ?_
    cases hrec
    -- a sound rebind stays in one pool
    have hpool : fl.poolOf x.src = fl.poolOf x.dst := (of_decide_eq_true hr).1
    have hsafe := h.flags x.src x.srcPage hok
    cases he : s.record x.src x.srcPage with
    | none => trivial
    | some e =>
      rw [he] at hsafe
      unfold Safe Fleet.key at hsafe ⊢
      rw [← hpool]
      exact hsafe
  | @cloneGetCopy t | @cloneEnd t | @cloneFail t => exact forall_erase keep t
  | @cloneBind t x rec hx hst | @cloneSync t x rec hx hst =>
    exact forall_insert keep fun rec' hrec => keep t x hx rec' (by rw [hst]; exact hrec)
  | _ => exact keep

theorem Honest.restores_step (h : Honest fl s) (hm : Moves fl s a s') (hok : uploadedOk fl s a) :
    ∀ t x, s'.restores.lookup t = some x → ∀ rec ∈ x.snapshot, s'.Safe fl x.vol rec := by
  have keep : ∀ t x, s.restores.lookup t = some x → ∀ rec ∈ x.snapshot, s'.Safe fl x.vol rec :=
    fun t x hx rec hrec => safe_step hm (h.restores t x hx rec hrec)
  cases hm with
  | restoreLock hi =>
    have hok := hok _ hi
    exact forall_insert keep hok
  | @restoreDrain t x hx | @restoreLen t x hx | @restoreRecord t n x rec hx | @restoreSync t x hx
  | @restoreReset t x hx => exact forall_insert keep (keep t x hx)
  | @restoreClear t | @restoreFail t => exact forall_erase keep t
  | _ => exact keep

theorem Honest.step (h : Honest fl s) (hm : Moves fl s a s') (hok : uploadedOk fl s a) : Honest fl s' :=
  ⟨h.flags_step hm hok, tasksStored_step h.tasks hm, h.clones_step hm hok, h.restores_step hm hok⟩

/-- **`Uploaded` means stored**, in every run whose steps meet `uploadedOk`. -/
theorem uploaded_stored (b : Boot V H) (h0 : ∀ v p e, (b.pages v).getEntry p = some e → (b.upload v).read p = .uploaded →
      (b.store (fl.key v e.hash)).isSome = true)
    (acts : List (FleetAct V H)) (s : FleetState V H) (hrun : (machine fl).run (booted b) acts = some s)
    (hok : (machine fl).Meets (uploadedOk fl) (booted b) acts) :
    ∀ v p e, s.record v p = some e → s.flag v p = .uploaded → s.Stored (fl.key v e.hash) := by
  have hboot : Honest fl (booted b) := by
    refine ⟨fun v p hf => ?_, tasksStored_booted b, fun t x hx => (by cases hx), fun t x hx => (by cases hx)⟩
    cases he : (booted b).record v p with
    | none => trivial
    | some e => exact h0 v p e he hf
  have hend := Machine.run_inv _ (fun s a s' hi hk hs => Honest.step hi (machine_moves hs) hk) hboot hok hrun
  intro v p e he hf
  have hsafe := hend.flags v p hf
  rw [he] at hsafe
  exact hsafe

theorem uploaded_stored_sealRun :
    ∃ s e, (machine solo).run (booted leftLocal) (sealRun [1] 1 2 ++ taskRun 2) = some s ∧ s.record () 0 = some e ∧
      e.hash = [1] ∧ s.flag () 0 = .uploaded ∧ s.Stored (solo.key () e.hash) := by
  obtain ⟨s, hs, hf, e, he, hh⟩ : ∃ s ∈ (machine solo).run (booted leftLocal) (sealRun [1] 1 2 ++ taskRun 2),
      s.flag () 0 = .uploaded ∧ ∃ e, s.record () 0 = some e ∧ e.hash = [1] := by decide +kernel
  exact ⟨s, e, hs, he, hh, hf,
    uploaded_stored leftLocal (fun v p e he => by cases he) _ s hs (by decide +kernel) () 0 e he hf⟩

def closedChannelRun : List (FleetAct Unit Bytes) :=
  [.sealStart 1 () 0 [1] 0, .sealPool 1, .sealIndex 1, .sealFlag 1, .sealMark 1, .closeChannel, .sealClosed 1,
    .sealRollback 1, .sealAbort 1]

/-- **A page reads `Uploaded` and its chunk was never put**: the channel closed behind its marker. -/
theorem uploaded_stored_fails : ∃ s e,
    (machine solo).run (booted newVolume) closedChannelRun = some s ∧ s.record () 0 = some e ∧
    s.flag () 0 = .uploaded ∧ ¬ s.Stored (solo.key () e.hash) := Machine.ends_twice (by decide +kernel)

end FleetState
end Thur

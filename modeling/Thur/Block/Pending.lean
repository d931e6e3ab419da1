import Thur.Block.FleetWrites
/-!
# Pending — every pending marker has somebody who will take it away

A fence waits until no page of its range is pending. `apply_page_upload_outcome` leaves the marker of a page whose hash
has changed, for the newer chunk's task; so a marker is alive as long as a task of the page is past its check, holds the
page's hash, or is about to be handed over. Whoever rebinds the page without a task (UNMAP, clone, restore) may strand
it.
-/

namespace Thur

open AList Table.Any

variable {V H : Type} {x : UploadTask V H}

def UploadTask.Settles (x : UploadTask V H) (v : V) (p : PageId) (g : Option H) : Prop :=
  x.vol = v ∧ x.page = p ∧ (x.stage = .matched ∨ x.stage = .flagged ∨ x.stage = .synced ∨ g = some x.hash)

def Seal.Settles (fl : Fleet V H) (x : Seal V) (v : V) (p : PageId) (g : Option H) : Prop :=
  x.vol = v ∧ x.page = p ∧ (x.stage = .indexed ∨ x.stage = .flagged ∨ x.stage = .marked) ∧ g = some (x.entry fl).hash

instance [DecidableEq V] [DecidableEq H] (x : UploadTask V H) (v : V) (p : PageId) (g : Option H) :
    Decidable (x.Settles v p g) := inferInstanceAs (Decidable (_ ∧ _ ∧ _))

instance [DecidableEq V] [DecidableEq H] (fl : Fleet V H) (x : Seal V) (v : V) (p : PageId) (g : Option H) :
    Decidable (x.Settles fl v p g) := inferInstanceAs (Decidable (_ ∧ _ ∧ _))

theorem UploadTask.Settles.hash {v : V} {p : PageId} {g : Option H} (h : x.Settles v p g)
    (hst : x.stage = .queued ∨ x.stage = .uploaded) : g = some x.hash := by
  obtain ⟨-, -, h | h | h | h⟩ := h
  · simp [h] at hst
  · simp [h] at hst
  · simp [h] at hst
  · exact h

theorem Seal.Settles.stage {fl : Fleet V H} {x : Seal V} {v : V} {p : PageId} {g : Option H} (h : x.Settles fl v p g) :
    x.stage ≠ .captured ∧ x.stage ≠ .pooled ∧ x.stage ≠ .sent ∧ x.stage ≠ .unmarked ∧ x.stage ≠ .rolledBack := by
  obtain ⟨-, -, h | h | h, -⟩ := h <;> rw [h] <;> decide

def Retry.Settles (x : Retry V H) (v : V) (p : PageId) (g : Option H) : Prop :=
  x.vol = v ∧ x.marked = true ∧ x.current = some (p, g) ∧ g ≠ none

instance [DecidableEq V] [DecidableEq H] (x : Retry V H) (v : V) (p : PageId) (g : Option H) :
    Decidable (x.Settles v p g) := inferInstanceAs (Decidable (_ ∧ _ ∧ _))

def taskSteps (k : Nat) : List (FleetAct V H) :=
  [.taskPut k, .taskCheck k, .taskFlag k, .taskSync k, .taskDone k, .taskFail k]

namespace FleetState

variable [DecidableEq V] [DecidableEq H] {fl : Fleet V H} {s s' : FleetState V H} {a : FleetAct V H} {v v' : V}
  {p p' : PageId} {k : Nat} {f : PendingSets → PendingSets}

/-- Somebody will take the page's marker away. -/
def Settled (fl : Fleet V H) (s : FleetState V H) (v : V) (p : PageId) : Prop :=
  s.tasks.Any (fun _ x => x.Settles v p ((s.pages v).get p)) ∨
  s.seals.Any (fun _ x => x.Settles fl v p ((s.pages v).get p)) ∨
  s.retries.Any fun _ x => x.Settles v p ((s.pages v).get p)

deriving instance Decidable for @Settled V H

/-- **When a step strands no marker**: UNMAP, clone and restore rebind pages that are not pending; a seal or retry marks
a page for its own chunk or a pending one; a seal fails late only on a page that names another. -/
def pendingOk (fl : Fleet V H) (s : FleetState V H) : FleetAct V H → Prop
  | .unmapClear t => ∀ x ∈ s.unmaps.lookup t, x.2 ∉ (s.pend x.1).pending
  | .cloneBind t => ∀ x ∈ s.clones.lookup t, x.dstPage ∉ (s.pend x.dst).pending
  | .restoreLen t => ∀ x ∈ s.restores.lookup t, ∀ p ∈ (s.pend x.vol).pending, p.toNat < x.snapshot.length
  | .restoreRecord t => ∀ x ∈ s.restores.lookup t, ∀ n ∈ x.stage.next, UInt32.ofNat n ∉ (s.pend x.vol).pending
  | .sealMark t => ∀ x ∈ s.seals.lookup t,
      x.page ∈ (s.pend x.vol).pending ∨ (s.pages x.vol).get x.page = some (x.entry fl).hash
  | .retryMark t => ∀ x ∈ s.retries.lookup t, ∀ q ∈ x.current,
      q.1 ∈ (s.pend x.vol).pending ∨ (s.pages x.vol).get q.1 = q.2
  | .sealFail t => ∀ x ∈ s.seals.lookup t, x.stage = .indexed →
      x.page ∉ (s.pend x.vol).pending ∨ (s.pages x.vol).get x.page ≠ some (x.entry fl).hash
  | _ => True

instance (s : FleetState V H) (a : FleetAct V H) : Decidable (pendingOk fl s a) := by
  apply FleetAct.casesOn (motive := fun a => Decidable (pendingOk fl s a)) a <;>
    intros <;> unfold pendingOk <;> infer_instance

/-! ## What a step does to a settler -/

omit [DecidableEq V] [DecidableEq H] in
theorem Settled.mono (h : Settled fl s v p) (hg : (s'.pages v).get p = (s.pages v).get p)
    (htask : s.tasks.Any (fun _ x => x.Settles v p ((s.pages v).get p)) →
      s'.tasks.Any (fun _ x => x.Settles v p ((s.pages v).get p)))
    (hseal : s.seals.Any (fun _ x => x.Settles fl v p ((s.pages v).get p)) →
      s'.seals.Any (fun _ x => x.Settles fl v p ((s.pages v).get p)))
    (hretry : s.retries.Any (fun _ x => x.Settles v p ((s.pages v).get p)) →
      s'.retries.Any (fun _ x => x.Settles v p ((s.pages v).get p))) : Settled fl s' v p := by
  unfold Settled
  rw [hg]
  exact h.imp htask (Or.imp hseal hretry)

section

omit [DecidableEq H]

theorem get_setRecord_ne (rec : Option (PageEntry H)) (h : ¬ (v = v' ∧ p = p')) :
    ((s.setRecord v' p' rec).pages v).get p = (s.pages v).get p := by
  rw [get_eq, get_eq, record_setRecord, if_neg h]

theorem get_syncPages (v v' : V) (p : PageId) : ((s.syncPages v').pages v).get p = (s.pages v).get p := by
  rw [get_eq, get_eq, record_syncPages]

theorem mem_pending_mark (h : p ∈ ((s.onPend v' (·.markPending p')).pend v).pending) :
    (v = v' ∧ p = p') ∨ p ∈ (s.pend v).pending := by
  rw [pend_onPend] at h
  by_cases hv : v = v'
  · subst hv
    rw [if_pos rfl] at h
    exact (Finset.mem_insert.1 h).imp_left fun hp => ⟨rfl, hp⟩
  · rw [if_neg hv] at h
    exact .inr h

theorem mem_pending_erase (hf : ∀ x, (f x).pending = x.pending.erase p')
    (h : p ∈ ((s.onPend v' f).pend v).pending) : ¬ (v = v' ∧ p = p') ∧ p ∈ (s.pend v).pending := by
  rw [pend_onPend] at h
  by_cases hv : v = v'
  · subst hv
    rw [if_pos rfl, hf] at h
    obtain ⟨hne, hp⟩ := Finset.mem_erase.1 h
    exact ⟨fun h => hne h.2, hp⟩
  · rw [if_neg hv] at h
    exact ⟨fun h => hv h.1, h⟩

theorem mem_pending_keep (hf : ∀ x, (f x).pending = x.pending)
    (h : p ∈ ((s.onPend v' f).pend v).pending) : p ∈ (s.pend v).pending := by
  rw [pend_onPend] at h
  by_cases hv : v = v'
  · subst hv
    rw [if_pos rfl, hf] at h
    exact h
  · rw [if_neg hv] at h
    exact h

end

theorem settled_step (h : ∀ v p, p ∈ (s.pend v).pending → Settled fl s v p) (hm : Moves fl s a s')
    (hok : pendingOk fl s a) : ∀ v p, p ∈ (s'.pend v).pending → Settled fl s' v p := by
  intro v p hp
  cases hm with
  | sealStart ht => exact (h v p hp).mono rfl id (fun hs => hs.fresh ht) id
  | sealPool hx hst => exact (h v p hp).mono rfl id (fun hs => hs.replace hx (fun hx' => absurd hst hx'.stage.1)) id
  | @sealIndex t x hx hst =>
    by_cases hvp : v = x.vol ∧ p = x.page
    · -- the page's new hash is the seal's
      obtain ⟨rfl, rfl⟩ := hvp
      refine .inr (.inl (of_lookup (lookup_insert _) ⟨rfl, rfl, .inl rfl, ?_⟩))
      have hrec := record_setRecord s x.vol x.vol x.page x.page (some (x.entry fl))
      rw [if_pos ⟨rfl, rfl⟩] at hrec
      exact congrArg (Option.map PageEntry.hash) hrec
    · exact (h v p hp).mono (get_setRecord_ne _ hvp) id (fun hs => hs.replace hx (fun hx' => absurd hst hx'.stage.2.1)) id
  | sealFlag hx =>
    exact (h v p hp).mono rfl id (fun hs => hs.replace hx (fun hx' => ⟨hx'.1, hx'.2.1, .inr (.inl rfl), hx'.2.2.2⟩)) id
  | @sealMark t x hx =>
    have keep : p ∈ (s.pend v).pending → Settled fl
        { s.onPend x.vol (·.markPending x.page) with seals := s.seals.insert t { x with stage := .marked } } v p := by
      intro hp
      refine (h v p hp).mono rfl id (fun hs => hs.replace hx ?_) id
      exact fun hx' => ⟨hx'.1, hx'.2.1, .inr (.inr rfl), hx'.2.2.2⟩
    rcases mem_pending_mark hp with ⟨rfl, rfl⟩ | hp
    · have hok := hok _ hx
      rcases hok with hok | hok
      · exact keep hok
      · exact .inr (.inl (of_lookup (lookup_insert _) ⟨rfl, rfl, .inr (.inr rfl), hok⟩))
    · exact keep hp
  | @sealSend t k x hx hst hk =>
    by_cases hset : x.Settles fl v p ((s.pages v).get p)
    · -- the task takes over from its seal
      exact .inl (of_lookup (lookup_insert _)
        ⟨hset.1, hset.2.1, .inr (.inr (.inr hset.2.2.2))⟩)
    · exact (h v p hp).mono rfl (fun ht => ht.fresh hk) (fun hs => hs.replace hx (fun hx' => absurd hx' hset)) id
  | sealEnd hx hst => exact (h v p hp).mono rfl id (fun hs => hs.drop hx (fun hx' => hx'.stage.2.2.1 hst)) id
  | @sealClosed t x hx =>
    obtain ⟨hne, hp⟩ := mem_pending_erase (s := s) (f := (·.markDone x.page)) (fun _ => rfl) hp
    exact (h v p hp).mono rfl id (fun hs => hs.replace hx (fun hx' => absurd ⟨hx'.1.symm, hx'.2.1.symm⟩ hne)) id
  | sealRollback hx hst =>
    exact (h v p hp).mono rfl id (fun hs => hs.replace hx (fun hx' => absurd hst hx'.stage.2.2.2.1)) id
  | sealAbort hx hst => exact (h v p hp).mono rfl id (fun hs => hs.drop hx (fun hx' => hx'.stage.2.2.2.2 hst)) id
  | @sealFail t x hx hst =>
    refine (h v p hp).mono rfl id (fun hs => hs.drop hx (fun hx' => ?_)) id
    obtain ⟨h1, h2, -, h4, h5⟩ := hx'.stage
    rcases hst with hst | hst | hst | hst | hst
    · exact h1 hst
    · exact h2 hst
    · have hok := hok _ hx
      obtain ⟨rfl, rfl, -, hg⟩ := hx'
      exact (hok hst).elim (fun hn => hn hp) fun hn => hn hg
    · exact h4 hst
    · exact h5 hst
  | @taskPut k x store hx hst =>
    refine (h v p hp).mono rfl (fun ht => ht.replace hx (fun hx' => ⟨hx'.1, hx'.2.1, ?_⟩)) id id
    exact .inr (.inr (.inr (hx'.hash (.inl hst))))
  | taskMatch hx =>
    exact (h v p hp).mono rfl (fun ht => ht.replace hx (fun hx' => ⟨hx'.1, hx'.2.1, .inl rfl⟩)) id id
  | @taskSuperseded k x hx hst hh =>
    refine (h v p hp).mono rfl (fun ht => ht.drop hx (fun hx' => hh ?_)) id id
    have hhash := hx'.hash (.inr hst)
    obtain ⟨rfl, rfl, -⟩ := hx'
    exact hhash
  | taskFlag hx =>
    exact (h v p hp).mono rfl (fun ht => ht.replace hx (fun hx' => ⟨hx'.1, hx'.2.1, .inr (.inl rfl)⟩)) id id
  | taskSync hx =>
    exact (h v p hp).mono rfl (fun ht => ht.replace hx (fun hx' => ⟨hx'.1, hx'.2.1, .inr (.inr (.inl rfl))⟩)) id id
  | @taskDone k x hx =>
    obtain ⟨hne, hp⟩ := mem_pending_erase (s := s) (f := (·.markDone x.page)) (fun _ => rfl) hp
    exact (h v p hp).mono rfl (fun ht => ht.drop hx (fun hx' => hne ⟨hx'.1.symm, hx'.2.1.symm⟩)) id id
  | @taskFail k x hx =>
    obtain ⟨hne, hp⟩ := mem_pending_erase (s := s) (f := (·.markFailed x.page)) (fun _ => rfl) hp
    exact (h v p hp).mono rfl (fun ht => ht.drop hx (fun hx' => hne ⟨hx'.1.symm, hx'.2.1.symm⟩)) id id
  | retryStart ht => exact (h v p hp).mono rfl id id fun hr => hr.fresh ht
  | retryRead hx hc =>
    refine (h v p hp).mono rfl id id fun hr => hr.replace hx fun hx' => ?_
    obtain ⟨-, -, hcur, -⟩ := hx'
    rw [hc] at hcur
    cases hcur
  | @retryClear t q x hx hc =>
    have hp := mem_pending_keep (s := s) (f := (·.clearFailed q)) (fun _ => rfl) hp
    refine (h v p hp).mono rfl id id fun hr => hr.replace hx fun hx' => ?_
    obtain ⟨-, -, hcur, hg⟩ := hx'
    rw [hc, Option.some.injEq, Prod.mk.injEq] at hcur
    exact absurd hcur.2.symm hg
  | @retryMark t q hash x hx hc =>
    have keep : p ∈ (s.pend v).pending → Settled fl
        { s.onPend x.vol (·.markPending q) with retries := s.retries.insert t { x with marked := true } } v p := by
      intro hp
      refine (h v p hp).mono rfl id id fun hr => hr.replace hx ?_
      exact fun hx' => ⟨hx'.1, rfl, hx'.2.2⟩
    rcases mem_pending_mark hp with ⟨rfl, rfl⟩ | hp
    · have hmark : p ∈ (s.pend x.vol).pending ∨ (s.pages x.vol).get p = some hash := hok x hx _ hc
      rcases hmark with hok | hok
      · exact keep hok
      · refine .inr (.inr (of_lookup (lookup_insert _) ⟨rfl, rfl, ?_, ?_⟩))
        · exact hc.trans (by rw [← hok]; rfl)
        · exact fun hn => by cases hok.symm.trans hn
    · exact keep hp
  | @retrySend t k q hash x hx hc hmk hk =>
    by_cases hset : x.Settles v p ((s.pages v).get p)
    · obtain ⟨hv, -, hcur, -⟩ := hset
      rw [hc, Option.some.injEq, Prod.mk.injEq] at hcur
      exact .inl (of_lookup (lookup_insert _)
        ⟨hv, hcur.1, .inr (.inr (.inr hcur.2.symm))⟩)
    · exact (h v p hp).mono rfl (fun ht => ht.fresh hk) id fun hr => hr.replace hx fun hx' => absurd hx' hset
  | @retryClosed t q hash x hx hc =>
    obtain ⟨hne, hp⟩ := mem_pending_erase (s := s) (f := (·.markFailed q)) (fun _ => rfl) hp
    refine (h v p hp).mono rfl id id fun hr => hr.drop hx fun hx' => ?_
    obtain ⟨hv, -, hcur, -⟩ := hx'
    rw [hc, Option.some.injEq, Prod.mk.injEq] at hcur
    exact hne ⟨hv.symm, hcur.1.symm⟩
  | retryEnd hx hc =>
    refine (h v p hp).mono rfl id id fun hr => hr.drop hx fun hx' => ?_
    obtain ⟨-, -, hcur, -⟩ := hx'
    rw [hc] at hcur
    cases hcur
  | unmapClear hx | cloneBind hx =>
    have hok := hok _ hx
    refine (h v p hp).mono (get_setRecord_ne _ ?_) id id id
    rintro ⟨rfl, rfl⟩
    exact hok hp
  | restoreRecord hx hst =>
    have hok := hok _ hx _ (by rw [hst]; rfl)
    refine (h v p hp).mono (get_setRecord_ne _ ?_) id id id
    rintro ⟨rfl, rfl⟩
    exact hok hp
  | restoreLen hx hst =>
    have hm := @Moves.restoreLen V H _ _ fl s _ _ hx hst
    refine (h v p hp).mono ?_ id id id
    rw [get_eq, get_eq]
    rcases record_step hm v p with hr | hb
    · rw [hr]
    · generalize hrec : record _ v p = rec at hb
      cases hb with
      | restoreLen hx' hst' hlen =>
        have hok := hok _ hx'
        exact absurd (hok p hp) (Nat.not_lt.2 hlen)
  | restoreClear => exact h v p (mem_pending_keep (s := s) (f := (·.clearAllFailed)) (fun _ => rfl) hp)
  | pagesSync | cloneSync | snapSync | restoreSync => exact (h v p hp).mono (get_syncPages v _ p) id id id
  | _ => exact h v p hp

/-! ## Whole runs -/

def TaskSettles (s : FleetState V H) (k : Nat) (v : V) (p : PageId) : Prop :=
  match s.tasks.lookup k with
  | some x => x.Settles v p ((s.pages v).get p)
  | none => p ∉ (s.pend v).pending

section

omit [DecidableEq V] [DecidableEq H]

theorem TaskSettles.of_some (hx : s.tasks.lookup k = some x)
    (h : x.Settles v p ((s.pages v).get p)) : TaskSettles s k v p := by
  unfold TaskSettles
  rw [hx]
  exact h

theorem TaskSettles.settles (h : TaskSettles s k v p) (hx : s.tasks.lookup k = some x) :
    x.Settles v p ((s.pages v).get p) := by
  unfold TaskSettles at h
  rw [hx] at h
  exact h

end

theorem TaskSettles.step (h : TaskSettles s k v p) (ha : a ∈ taskSteps k) (hm : Moves fl s a s') :
    TaskSettles s' k v p := by
  -- `mark_done` and `mark_failed` end the task and take the marker away
  have gone : ∀ {x : UploadTask V H} {f : PendingSets → PendingSets}, s.tasks.lookup k = some x →
      (∀ y, (f y).pending = y.pending.erase x.page) →
      TaskSettles { s.onPend x.vol f with tasks := s.tasks.erase k } k v p := by
    intro x f hx hf
    unfold TaskSettles
    simp only [lookup_erase]
    intro hp
    have hset := h.settles hx
    exact (mem_pending_erase hf hp).1 ⟨hset.1.symm, hset.2.1.symm⟩
  simp only [taskSteps, List.mem_cons, List.not_mem_nil, or_false] at ha
  rcases ha with rfl | rfl | rfl | rfl | rfl | rfl
  · cases hm with
    | taskPut hx hst =>
      have hset := h.settles hx
      exact .of_some (lookup_insert _) ⟨hset.1, hset.2.1, .inr (.inr (.inr (hset.hash (.inl hst))))⟩
  · cases hm with
    | taskMatch hx =>
      exact .of_some (lookup_insert _) ⟨(h.settles hx).1, (h.settles hx).2.1, .inl rfl⟩
    | taskSuperseded hx hst hh =>
      have hset := h.settles hx
      have hhash := hset.hash (.inr hst)
      obtain ⟨rfl, rfl, -⟩ := hset
      exact absurd hhash hh
  · cases hm with
    | taskFlag hx =>
      exact .of_some (lookup_insert _) ⟨(h.settles hx).1, (h.settles hx).2.1, .inr (.inl rfl)⟩
  · cases hm with
    | taskSync hx =>
      exact .of_some (lookup_insert _) ⟨(h.settles hx).1, (h.settles hx).2.1, .inr (.inr (.inl rfl))⟩
  · cases hm with
    | taskDone hx => exact gone hx fun _ => rfl
  · cases hm with
    | taskFail hx => exact gone hx fun _ => rfl

/-- **No pending marker is orphaned**: under `pendingOk` every pending page has somebody who will take its marker away,
and a task that settles it does so however it ends. -/
theorem pending_settled (b : Boot V H) (acts : List (FleetAct V H)) (s : FleetState V H)
    (hrun : (machine fl).run (booted b) acts = some s) (hok : (machine fl).Meets (pendingOk fl) (booted b) acts) :
    (∀ v p, p ∈ (s.pend v).pending → Settled fl s v p) ∧
    (∀ k x v p, s.tasks.lookup k = some x → x.Settles v p ((s.pages v).get p) → ∀ own s',
      (∀ a ∈ own, a ∈ taskSteps k) → (machine fl).run s own = some s' → s'.tasks.lookup k = none →
      p ∉ (s'.pend v).pending) := by
  constructor
  · have hboot : ∀ v p, p ∈ ((booted b).pend v).pending → Settled fl (booted b) v p := by
      intro v p hp
      obtain ⟨k, x, hx, hv, hq, hh⟩ := b.enqueued v p hp
      exact .inl (of_lookup hx ⟨hv, hq, .inr (.inr (.inr hh))⟩)
    exact Machine.run_inv _ (fun s a s' hi hk hs => settled_step hi (machine_moves hs) hk) hboot hok hrun
  · intro k x v p hx hset own s' hown hrun' hgone
    have hinv := Machine.run_inv _ (fun s a s' hi ha hs => TaskSettles.step hi ha (machine_moves hs))
      (TaskSettles.of_some hx hset) (Machine.meets_of_forall (machine fl) hown) hrun'
    unfold TaskSettles at hinv
    rw [hgone] at hinv
    exact hinv

theorem pending_settled_sealRun : ∃ s, (machine solo).run (booted newVolume) (sealRun [1] 1 2) = some s ∧
    0 ∈ (s.pend ()).pending ∧ Settled solo s () 0 :=
  Machine.ends_of (fun s => 0 ∈ (s.pend ()).pending) (by decide +kernel) fun s hs hp =>
    ⟨hp, (pending_settled newVolume (sealRun [1] 1 2) s hs (by decide +kernel)).1 () 0 hp⟩

def orphanRun : List (FleetAct Unit Bytes) :=
  sealRun [1] 1 2 ++ [.unmapDrop 3 () 0, .unmapClear 3, .taskPut 2, .taskCheck 2]

/-- **A pending marker that nobody will take away**: a fence over the page waits for good. -/
theorem pending_settled_fails : ∃ s, (machine solo).run (booted newVolume) orphanRun = some s ∧ 0 ∈ (s.pend ()).pending ∧
    ¬ Settled solo s () 0 ∧ s.tasks.entries.length = 0 ∧ (s.pend ()).waitForRange 0 3 = none := by
  decide +kernel

end FleetState
end Thur

import Thur.Changer.Moves
/-!
# Mounts — the inventory, the drives and migrate jobs

The library lock protects the inventory and each drive its cartridge, and a command changes the one and then the other.
A drive that has a cartridge open is the one the inventory names, or an unload of it is on its way (`Mounted`). An
unload publishes its inventory before its drive has dropped the cartridge, so a load or a migrate job may find a
cartridge free that is still open; `Careful` leaves this out.
-/
namespace Thur.Changer

open Table (lookup_erase_some lookup_insert_some lookup_of_insert update_none update_some)
open Function (update)
open LibraryInventory Changer.Task

def Task.mirror (task : Task) : Mirror :=
  match task.cmd? with
  | some c => c.mirror
  | none => .none

def Mirror.loading? : Mirror → Option Nat
  | .load d _ _ => some d
  | _ => Option.none

variable {inv : LibraryInventory} {b : Barcode} {r : Section} {c : Cmd} {as : List SiteAct} {admin : Bool} {task : Task}

theorem Within.drive_lt {t : LibraryTopology} (h : Within t inv) {d : Nat}
    (hd : inv.medium (.drive d) = some b) : d < t.numDrives := by
  obtain ⟨v, hv, -⟩ := Option.map_eq_some_iff.1 (entry_of_medium hd)
  have hid : v.id ∈ inv.ids.2.2 := List.mem_map_of_mem (Keyed.mem_of_get hv)
  rw [Keyed.key_of_get hv] at hid
  exact h.2.2.2 d hid

namespace Site

variable {ch : Chassis} {s s' : Site} {a : SiteAct}

def Unloading (s : Site) (d : Nat) : Prop := s.tasks.Any fun _ task => task.mirror = .unload d
deriving Decidable

def Loading (s : Site) (d : Nat) : Prop := s.tasks.Any fun _ task => task.mirror.loading? = some d
deriving Decidable

end Site

/-- A load finds its cartridge open in no drive, an unload no load on its way to its drive. -/
def Mirror.Clear (ch : Chassis) (s : Site) : Mirror → Prop
  | .load _ b _ => ∀ d < ch.topology.numDrives, s.opened d ≠ some b
  | .unload d => ¬ s.Loading d
  | .none => True

instance (ch : Chassis) (s : Site) (m : Mirror) : Decidable (m.Clear ch s) := by
  cases m <;> unfold Mirror.Clear <;> infer_instance

namespace Site

variable {ch : Chassis} {s s' : Site} {a : SiteAct} {f0 : Placement Element Barcode}

structure Mounted (ch : Chassis) (s : Site) : Prop where
  inside : ∀ d b, s.opened d = some b → d < ch.topology.numDrives
  /-- a load on its way has the drive to itself, and its cartridge is not open -/
  loads : ∀ t task d b slot, s.tasks.lookup t = some task → task.mirror = .load d b slot →
    s.inventory.medium (.drive d) = some b ∧ ∀ d', s.opened d' ≠ some b
  single : ∀ t t' task task' d b b' slot slot', s.tasks.lookup t = some task → s.tasks.lookup t' = some task' →
    task.mirror = .load d b slot → task'.mirror = .load d b' slot' → t = t'
  opens : ∀ d b, s.opened d = some b → s.inventory.medium (.drive d) = some b ∨ s.Unloading d
  once : ∀ d d' b, s.opened d = some b → s.opened d' = some b → d = d'

theorem started_mounted (ch : Chassis) (inv : LibraryInventory) : Mounted ch (started inv) where
  inside := fun _ _ h => by cases h
  loads := fun _ _ _ _ _ h => by cases h
  single := fun _ _ _ _ _ _ _ _ _ h => by cases h
  opens := fun _ _ h => by cases h
  once := fun _ _ _ h => by cases h

namespace Mounted

theorem mono (h : Mounted ch s) (ho : ∀ {d b}, s'.opened d = some b → s.opened d = some b)
    (ht : ∀ {t task}, s'.tasks.lookup t = some task → task.mirror ≠ .none →
      ∃ task0, s.tasks.lookup t = some task0 ∧ task0.mirror = task.mirror)
    (hm : ∀ {t task d b slot}, s'.tasks.lookup t = some task → task.mirror = .load d b slot →
      s.inventory.medium (.drive d) = some b → s'.inventory.medium (.drive d) = some b)
    (hu : ∀ {d b}, s'.opened d = some b → s.inventory.medium (.drive d) = some b ∨ s.Unloading d →
      s'.inventory.medium (.drive d) = some b ∨ s'.Unloading d) : Mounted ch s' := by
  refine ⟨fun d b hb => h.inside d b (ho hb), ?_, ?_, fun d b hb => hu hb (h.opens d b (ho hb)),
    fun d d' b h1 h2 => h.once d d' b (ho h1) (ho h2)⟩
  · intro t task d b slot h1 hl
    obtain ⟨task0, h0, hm0⟩ := ht h1 (by rw [hl]; simp)
    obtain ⟨hmem, hclosed⟩ := h.loads t task0 d b slot h0 (hm0.trans hl)
    exact ⟨hm h1 hl hmem, fun d' hd => hclosed d' (ho hd)⟩
  · intro t1 t2 task1 task2 d b b' slot slot' h1 h2 hm1 hm2
    obtain ⟨task3, h3, hm3⟩ := ht h1 (by rw [hm1]; simp)
    obtain ⟨task4, h4, hm4⟩ := ht h2 (by rw [hm2]; simp)
    exact h.single t1 t2 task3 task4 d b b' slot slot' h3 h4 (hm3.trans hm1) (hm4.trans hm2)

theorem congr (h : Mounted ch s) (hm : s'.inventory.medium = s.inventory.medium) (ht : s'.tasks = s.tasks)
    (ho : s'.opened = s.opened) : Mounted ch s' := by
  refine h.mono (fun hb => ho ▸ hb) (fun h1 _ => ⟨_, ht ▸ h1, rfl⟩) (fun _ _ hb => hm ▸ hb) fun _ hb => ?_
  unfold Unloading at *
  rwa [hm, ht]

variable {t d slot : Nat} {b : Barcode}

theorem setTask (h : Mounted ch s) {task' : Task} (hsame : (s.tasks.lookup t).elim .none mirror = task'.mirror) :
    Mounted ch (s.setTask t task') := by
  refine h.mono id (fun {t1 task1} h1 hne => ?_) (fun _ _ hb => hb) fun _ => Or.imp_right fun hu => ?_
  · -- a drive side that is there was there before
    rcases lookup_insert_some h1 with ⟨rfl, rfl⟩ | ⟨-, h1⟩
    · cases hl : s.tasks.lookup t1 <;> rw [hl] at hsame
      · exact absurd hsame.symm hne
      · exact ⟨_, rfl, hsame⟩
    · exact ⟨task1, h1, rfl⟩
  · refine Table.Any.insert hu (fun task0 h0 hm => ?_)
    rw [h0] at hsame
    exact hsame.symm.trans hm

theorem drop (h : Mounted ch s)
    (hu : ∀ task d, s.tasks.lookup t = some task → task.mirror = .unload d → s.opened d = none) :
    Mounted ch { s with tasks := s.tasks.erase t } := by
  refine h.mono id (fun h1 _ => ⟨_, (lookup_erase_some h1).2, rfl⟩) (fun _ _ hb => hb)
    fun {d b} ho => Or.imp_right fun hany => ?_
  refine Table.Any.erase hany fun task0 h0 hm => ?_
  cases (hu task0 d h0 hm).symm.trans ho

theorem finish (h : Mounted ch s) (o : Outcome)
    (hu : ∀ task d, s.tasks.lookup t = some task → task.mirror = .unload d → s.opened d = none) :
    Mounted ch (s.finish t o) := (h.drop hu).congr rfl rfl rfl

theorem close (h : Mounted ch s) (d : Nat) : Mounted ch { s with opened := update s.opened d none } :=
  h.mono (fun hb => (update_none hb).2) (fun h1 _ => ⟨_, h1, rfl⟩) (fun _ _ hb => hb) fun _ hb => hb

theorem loading_of_load (ht : s.tasks.lookup t = some task) (hm : task.mirror = .load d b slot) :
    s.Loading d :=
  Table.Any.of_lookup ht (by rw [hm]; rfl)

theorem unload_of_drive (hr : r.Done inv)
    (hmem : inv.medium (.drive d) = some b) (hd : r.mirror.drive? = some d) : r.mirror = .unload d := by
  cases hmir : r.mirror with
  | load d' b' slot' =>
    rw [hmir, Mirror.drive?, Option.some.injEq] at hd
    subst hd
    rw [(hr.load d' b' slot' hmir).2] at hmem
    cases hmem
  | unload =>
    rw [hmir, Mirror.drive?, Option.some.injEq] at hd
    rw [hd]
  | none =>
    rw [hmir] at hd
    cases hd

theorem untouched (h : Mounted ch s) (hr : r.Done s.inventory) (hc : r.mirror.Clear ch s)
    (ht : s.tasks.lookup t = some task) (hm : task.mirror = .load d b slot) : r.mirror.drive? ≠ some d := by
  intro hd
  rw [unload_of_drive hr (h.loads t task d b slot ht hm).1 hd] at hc
  exact hc (loading_of_load ht hm)

theorem begin (h : Mounted ch s) (ht : s.tasks.lookup t = none) (hr : r.Done s.inventory)
    (hc : r.mirror.Clear ch s) : Mounted ch (s.begun t admin r) := by
  have hold : ∀ {t1 task1 d b slot}, s.tasks.lookup t1 = some task1 → task1.mirror = .load d b slot →
      r.inventory.medium (.drive d) = some b := by
    intro t1 task1 d b slot h1 hm
    rw [hr.drives d (h.untouched hr hc h1 hm)]
    exact (h.loads t1 task1 d b slot h1 hm).1
  refine ⟨h.inside, ?_, ?_, ?_, h.once⟩
  · intro t1 task1 d b slot h1 hm
    rcases lookup_insert_some h1 with ⟨rfl, rfl⟩ | ⟨-, h1⟩
    · have hmir : r.mirror = .load d b slot := hm
      have hmoved := (hr.load d b slot hmir).1
      refine ⟨hr.performs.dst ⟨b, .storage slot, .drive d⟩ (hmoved ▸ List.mem_singleton.2 rfl), ?_⟩
      rw [hmir] at hc
      exact fun d' hd' => hc d' (h.inside d' b hd') hd'
    · exact ⟨hold h1 hm, (h.loads t1 task1 d b slot h1 hm).2⟩
  · intro t1 t2 task1 task2 d b b' slot slot' h1 h2 hm1 hm2
    rcases lookup_insert_some h1 with ⟨rfl, rfl⟩ | ⟨-, h1'⟩
    · rcases lookup_insert_some h2 with ⟨rfl, rfl⟩ | ⟨-, h2'⟩
      · rfl
      · refine absurd ?_ (h.untouched hr hc h2' hm2)
        rw [show r.mirror = .load d b slot from hm1]
        rfl
    · rcases lookup_insert_some h2 with ⟨rfl, rfl⟩ | ⟨-, h2'⟩
      · refine absurd ?_ (h.untouched hr hc h1' hm1)
        rw [show r.mirror = .load d b' slot' from hm2]
        rfl
      · exact h.single t1 t2 task1 task2 d b b' slot slot' h1' h2' hm1 hm2
  · intro d b ho
    rcases h.opens d b ho with hmem | hu
    · by_cases hd : r.mirror.drive? = some d
      · refine .inr (Table.Any.of_lookup (AList.lookup_insert s.tasks) ?_)
        exact unload_of_drive hr hmem hd
      · exact .inl ((hr.drives d hd).trans hmem)
    · exact .inr (Table.Any.fresh hu ht)

theorem opened (h : Mounted ch s) (hk : AllKept ch.topology f0 s) (hf : f0.Once)
    (ht : s.tasks.lookup t = some (.opening c)) (hm : c.mirror = .load d b slot) :
    Mounted ch (Site.finish { s with opened := update s.opened d (some b) } t .succeeded) := by
  obtain ⟨hmem, hclosed⟩ := h.loads t _ d b slot ht hm
  refine ⟨?_, ?_, ?_, ?_, ?_⟩
  · intro d' b' hb
    rcases update_some hb with ⟨rfl, rfl⟩ | ⟨-, hb⟩
    · exact hk.memory.within.drive_lt hmem
    · exact h.inside d' b' hb
  · intro t1 task1 d1 b1 slot1 h1 hm1
    obtain ⟨hne, h1⟩ := lookup_erase_some h1
    obtain ⟨hmem1, hclosed1⟩ := h.loads t1 task1 d1 b1 slot1 h1 hm1
    refine ⟨hmem1, fun d' hb => ?_⟩
    rcases update_some hb with ⟨rfl, rfl⟩ | ⟨-, hb⟩
    · -- two loads of one cartridge would be loads of one drive
      have hd : Element.drive d1 = .drive d' := hk.memory.rearranges.once hf _ _ _ hmem1 hmem
      cases hd
      exact hne (h.single t1 t task1 _ d1 _ _ slot1 slot h1 ht hm1 hm)
    · exact hclosed1 d' hb
  · intro t1 t2 task1 task2 d1 b1 b2 slot1 slot2 h1 h2
    exact h.single t1 t2 task1 task2 d1 b1 b2 slot1 slot2 (lookup_erase_some h1).2 (lookup_erase_some h2).2
  · intro d' b' hb
    rcases update_some hb with ⟨rfl, rfl⟩ | ⟨-, hb⟩
    · exact .inl hmem
    · refine (h.opens d' b' hb).imp_right (fun hu => Table.Any.drop hu ht ?_)
      show ¬ c.mirror = .unload d'
      rw [hm]
      simp
  · intro d1 d2 b' h1 h2
    rcases update_some h1 with ⟨rfl, rfl⟩ | ⟨-, h1'⟩
    · rcases update_some h2 with ⟨rfl, -⟩ | ⟨-, h2'⟩
      · rfl
      · exact absurd h2' (hclosed d2)
    · rcases update_some h2 with ⟨rfl, rfl⟩ | ⟨-, h2'⟩
      · exact absurd h1' (hclosed d1)
      · exact h.once d1 d2 b' h1' h2'

theorem undone (h : Mounted ch s) (ht : s.tasks.lookup t = some (.undoing c))
    (hm : c.mirror = .load d b slot) (hu : s.inventory.unloadFromDrive d slot = .ok inv) (hs : s'.inventory = inv)
    (hs1 : s'.tasks = s.tasks) (hs2 : s'.opened = s.opened) : Mounted ch (s'.finish t .failed) := by
  obtain ⟨-, -, -, hmove, -⟩ := relocate_ok hu
  obtain ⟨hmem, hclosed⟩ := h.loads t _ d b slot ht hm
  have hother : ∀ d', d' ≠ d → inv.medium (.drive d') = s.inventory.medium (.drive d') := by
    intro d' hd
    rw [hmove]
    exact Placement.move_of_ne _ (by simpa using hd) (by simp)
  have htasks : ∀ {t1 task1}, (s'.tasks.erase t).lookup t1 = some task1 → t1 ≠ t ∧ s.tasks.lookup t1 = some task1 := by
    rw [hs1]
    exact lookup_erase_some
  refine h.mono (fun hb => hs2 ▸ hb) (fun h1 _ => ⟨_, (htasks h1).2, rfl⟩) ?_ ?_
  · intro t1 task1 d1 b1 slot1 h1 hm1 hmem1
    have hd : d1 ≠ d := by
      rintro rfl
      exact (htasks h1).1 (h.single t1 t task1 _ d1 _ _ slot1 slot (htasks h1).2 ht hm1 hm)
    rw [← hother d1 hd, ← hs] at hmem1
    exact hmem1
  · intro d' b' hb hold
    have hb : s.opened d' = some b' := hs2 ▸ hb
    refine hold.imp (fun hmem' => ?_) fun hu' => ?_
    · have hd : d' ≠ d := by
        rintro rfl
        rw [hmem, Option.some.injEq] at hmem'
        exact hclosed d' (hmem' ▸ hb)
      show s'.inventory.medium (.drive d') = some b'
      rw [hs, hother d' hd, hmem']
    · show Table.Any (s'.tasks.erase t) _
      rw [hs1]
      refine Table.Any.drop hu' ht ?_
      show ¬ c.mirror = .unload d'
      rw [hm]
      simp

end Mounted

end Site

def Task.UnloadWrites (s : Site) (works : Bool) : Task → Prop
  | .writing ⟨_, version, _, .unload _⟩ => works = true ∨ version ≤ s.lastWritten
  | _ => True

instance (s : Site) (works : Bool) (task : Task) : Decidable (task.UnloadWrites s works) := by
  rcases task with ⟨_, _, _, _ | _ | _⟩ | _ | _ | _ | _ | _ | _ | _ <;> unfold Task.UnloadWrites <;> infer_instance

namespace Site

variable {ch : Chassis} {s s' : Site} {a : SiteAct} {f0 : Placement Element Barcode} {d slot : Nat}

/-- No load while the cartridge is open somewhere, no unload that overtakes a load or whose write fails, no reload of a
placement that memory has left behind. -/
def Careful (ch : Chassis) (s : Site) : SiteAct → Prop
  | .begin _ req => ∀ r ∈ (ch.perform s.inventory req).toOption, r.mirror.Clear ch s
  | .write t works => ∀ task ∈ s.tasks.lookup t, task.UnloadWrites s works
  | .initApply t => ∀ task ∈ s.tasks.lookup t, task.Reloads s
  | _ => True

instance (ch : Chassis) (s : Site) (a : SiteAct) : Decidable (s.Careful ch a) := by
  apply SiteAct.casesOn (motive := fun a => Decidable (s.Careful ch a)) a <;> intros <;> unfold Careful <;> infer_instance

namespace Mounted

variable {t : Nat} {task : Task}

theorem afterWrite (h : Mounted ch s) (ht : s.tasks.lookup t = some (.writing c)) :
    Mounted ch (s.written t c) := by
  rcases s.written_cases t c with ⟨hm, he⟩ | ⟨-, he⟩
  · refine he ▸ h.finish _ (fun task d ht' hu => ?_)
    rw [ht, Option.some.injEq] at ht'
    subst ht'
    rw [show c.mirror = .unload d from hu] at hm
    cases hm
  · exact he ▸ h.setTask (by rw [ht]; rfl)

theorem finishLoad (h : Mounted ch s) (o : Outcome) (ht : s.tasks.lookup t = some task)
    (hm : task.mirror = .load d b slot) : Mounted ch (s.finish t o) := by
  refine h.finish o fun task' d' ht' hu => ?_
  rw [ht, Option.some.injEq] at ht'
  subst ht'
  rw [hm] at hu
  cases hu

theorem loadFailed (h : Mounted ch s) (ht : s.tasks.lookup t = some task)
    (hc : task.mirror = c.mirror) (hm : c.mirror = .load d b slot) : Mounted ch (s.loadFailed t c) := by
  rcases s.loadFailed_cases t c with ⟨-, he⟩ | ⟨-, he⟩
  · exact he ▸ h.finishLoad _ ht (hc.trans hm)
  · exact he ▸ h.setTask (by rw [ht]; exact hc)

theorem dropSide (h : Mounted ch s) (ht : s.tasks.lookup t = some task) (hm : task.mirror = .none) :
    Mounted ch { s with tasks := s.tasks.erase t } := by
  refine h.drop fun task' d ht' hu => ?_
  rw [ht, Option.some.injEq] at ht'
  subst ht'
  rw [hm] at hu
  cases hu

end Mounted

theorem step_mounted (hf : f0.Once) (hk : AllKept ch.topology f0 s) (h : Mounted ch s) (hok : s.Careful ch a)
    (hs : s.step ch a = some s') : Mounted ch s' := by
  cases step_effect hs with
  | refused | hostWrote | preflightRefused => exact h
  | begun hl ht hp =>
    refine h.begin ht (Chassis.perform_done (hk.memory.rearranges.once hf) hp) (hok _ ?_)
    rw [hp]
    rfl
  | skipped ht => exact h.afterWrite ht
  | wrote ht =>
    refine Mounted.afterWrite ?_ ht
    exact h.congr rfl rfl rfl
  | @writeFailed t c ht hv =>
    refine h.finish _ fun task d ht' hu => ?_
    rw [ht, Option.some.injEq] at ht'
    subst ht'
    obtain ⟨admin, version, content, mirror⟩ := c
    cases hu
    rcases hok _ ht with hw | hle
    · cases hw
    · exact absurd hle (Nat.not_le.2 hv)
  | @unloaded t works c d ht hm =>
    refine (h.close d).finish _ fun task d' ht' hu => ?_
    rw [ht, Option.some.injEq] at ht'
    subst ht'
    rw [show c.mirror = .unload d' from hu] at hm
    cases hm
    simp
  | loadRefused ht hm | openFailed ht hm => exact h.loadFailed ht rfl hm
  | loadAdmitted ht | recheckPassed ht => exact h.setTask (by rw [ht]; rfl)
  | loaded ht hm => exact h.opened hk hf ht hm
  | undoRefused ht hl hm => exact h.finishLoad _ ht hm
  | @undone t works c d b src inv s1 ht hl hm hu hs1 =>
    subst hs1
    rcases writeIfNewer_cases _ _ inv works with he | he
    · rw [he]
      exact h.undone ht hm hu rfl rfl rfl
    · rw [he]
      exact h.undone ht hm hu rfl rfl rfl
  | initParsed ht | preflightPassed ht => exact h.setTask (by rw [ht]; rfl)
  | initApplied ht =>
    have hkept := hk.tasks _ _ ht
    have hmed := medium_eq_of_seats hkept.within.1 hk.memory.within.1 (hok _ ht)
    refine (h.dropSide ht rfl).congr ?_ rfl rfl
    exact (congrArg _ (applyReloadedInventory_within hkept.within)).trans hmed
  | scsiUnloaded => exact h.close _
  | claimRefused ht => exact h.dropSide ht rfl
  | claimed ht =>
    refine Mounted.setTask ?_ (by rw [ht]; rfl)
    exact h.congr rfl rfl rfl
  | recheckRefused ht | migrated ht => exact (h.dropSide ht rfl).congr rfl rfl rfl
  | crashed => exact (started_mounted ch s.file).congr rfl rfl rfl

theorem run_mounted (ho : inv.medium.Once) (hw : Within ch.topology inv)
    (hm : (machine ch).Meets (Careful ch) (started inv) as) (hr : (machine ch).run (started inv) as = some s) :
    AllKept ch.topology inv.medium s ∧ Mounted ch s :=
  run_kept ho hw (started_mounted ch inv) (fun _ _ _ => step_mounted ho) hm hr

/-- **Inventory and mounts over every careful run**: no two drives have one cartridge open, and when no command is on
its way an open drive's entry is occupied by its cartridge. -/
theorem drives_agree (hw : Within ch.topology inv) (ho : inv.medium.Once)
    (hm : (machine ch).Meets (Careful ch) (started inv) as) (hr : (machine ch).run (started inv) as = some s) :
    (∀ d d' b, s.opened d = some b → s.opened d' = some b → d = d') ∧
      ((∀ t task, s.tasks.lookup t = some task → task.cmd? = none) →
        ∀ d b, s.opened d = some b → s.inventory.entry (.drive d) = some (true, some b)) := by
  obtain ⟨-, h⟩ := run_mounted ho hw hm hr
  refine ⟨h.once, fun hidle d b hb => LibraryInventory.entry_of_medium ?_⟩
  refine (h.opens d b hb).resolve_right fun hu => ?_
  obtain ⟨t, task, ht, hmir⟩ := (Table.any_iff _ _).1 hu
  rw [mirror, hidle t task ht] at hmir
  cases hmir

theorem drives_agree_reload : ∃ s, (machine twoDrives).run (started shelved)
    [move 1 1001 1, .write 1 true, .drive 1 true, .openDrive 1 true, move 2 1 1001, .write 2 true, .drive 2 true,
      move 3 1001 2, .write 3 true, .drive 3 true, .openDrive 3 true] = some s ∧
    s.opened 1 = some "A" ∧ ∀ d, s.opened d = some "A" → d = 1 := by
  refine Machine.ends_of (·.opened 1 = some "A") (by decide +kernel) fun s hs h1 => ⟨h1, fun d hd => ?_⟩
  exact (drives_agree (by decide) shelved_once (by decide +kernel) hs).1 d 1 "A" hd h1

/-- Another drive opens the cartridge before an unload's drive part; an unload's write fails; an unload overtakes a
load. -/
theorem drives_disagree :
    (∃ s, (machine twoDrives).run (started shelved) [move 1 1001 1, .write 1 true, .drive 1 true, .openDrive 1 true,
        move 2 1 1001, move 3 1001 2, .write 3 true, .drive 3 true, .openDrive 3 true] = some s ∧
      s.opened 0 = some "A" ∧ s.opened 1 = some "A") ∧
    (∃ s, (machine twoDrives).run (started shelved) [move 1 1001 1, .write 1 true, .drive 1 true, .openDrive 1 true,
        move 2 1 1001, .write 2 false] = some s ∧
      s.tasks.entries = [] ∧ s.opened 0 = some "A" ∧ s.inventory.medium (.drive 0) = none) ∧
    ∃ s, (machine twoDrives).run (started shelved) [move 1 1001 1, .write 1 true, move 2 1 1001, .write 2 true,
        .drive 2 true, .drive 1 true, .openDrive 1 true] = some s ∧
      s.tasks.entries = [] ∧ s.opened 0 = some "A" ∧ s.inventory.medium (.drive 0) = none := by
  decide +kernel

/-! ## What a migrate job can read -/

theorem step_versioned (h : Versioned s) (hs : s.step ch a = some s') : Versioned s' := by
  have hover : ∀ {t task c}, s.tasks.lookup t = some task → task.cmd? = some c → task ≠ .writing c →
      ∀ c', (some c : Option Cmd) = some c' → c'.version ≤ s.lastWritten := by
    intro t task c ht hc hne c' he
    cases he
    exact h.of_past ht hc hne
  have hside : ∀ c : Cmd, (none : Option Cmd) = some c → c.version ≤ s.lastWritten := fun c hc => by cases hc
  have hfailed : ∀ {t task c}, s.tasks.lookup t = some task → task.cmd? = some c → task ≠ .writing c →
      Versioned (s.loadFailed t c) := by
    intro t task c ht hc hne
    rcases s.loadFailed_cases t c with ⟨-, he⟩ | ⟨-, he⟩
    · exact he ▸ (h.erase t).congr rfl rfl rfl
    · exact he ▸ h.setTask (hover ht hc hne)
  have hwritten : ∀ {s : Site} {t c}, Versioned s → c.version ≤ s.lastWritten → Versioned (s.written t c) := by
    intro s t c h hv
    rcases s.written_cases t c with ⟨-, he⟩ | ⟨-, he⟩
    · exact he ▸ (h.erase t).congr rfl rfl rfl
    · refine he ▸ h.setTask (fun c' hc' => ?_)
      cases hc'
      exact hv
  cases step_effect hs with
  | refused | hostWrote | preflightRefused => exact h
  | begun => exact h.begin _ _ _
  | skipped ht hv => exact hwritten h hv
  | wrote ht hv =>
    refine hwritten ?_ (le_refl _)
    exact h.wrote hv.le (h.begun _ _ ht) (le_refl _)
  | writeFailed | unloaded | loaded | undoRefused | initApplied | recheckRefused | migrated =>
    exact (h.erase _).congr rfl rfl rfl
  | loadRefused ht | openFailed ht => exact hfailed ht rfl (by simp)
  | loadAdmitted ht => exact h.setTask (hover ht rfl (by simp))
  | @undone t works c d b src inv s1 ht hl hm hu hs1 =>
    subst hs1
    rcases writeIfNewer_cases _ _ inv works with he | he
    · rw [he]
      exact ((h.wrote (le_refl _) (h.written.trans (Nat.le_succ _)) (Nat.le_succ _)).erase _).congr rfl rfl rfl
    · rw [he]
      exact ((h.wrote (h.written.trans (Nat.le_succ _)) (le_refl _) (Nat.le_succ _)).erase _).congr rfl rfl rfl
  | initParsed | preflightPassed | recheckPassed => exact h.setTask hside
  | scsiUnloaded => exact h.congr rfl rfl rfl
  | claimRefused => exact h.erase _
  | claimed =>
    refine Versioned.setTask ?_ hside
    exact h.congr rfl rfl rfl
  | crashed => exact (started_versioned s.file).congr rfl rfl rfl

/-- Every inventory that the file has, or can still get, from the version on shows the cartridge in the drive. -/
def Visible (s : Site) (v d : Nat) (b : Barcode) : Prop :=
  (v ≤ s.lastWritten → s.file.medium (.drive d) = some b) ∧
    ∀ t c, s.tasks.lookup t = some (.writing c) → v ≤ c.version → s.lastWritten < c.version →
      c.content.medium (.drive d) = some b

namespace Visible

variable {v d : Nat} {b : Barcode}

theorem of_tasks (h : Visible s v d b) (hf : s'.file = s.file) (hl : s'.lastWritten = s.lastWritten)
    (ht : ∀ t c, s'.tasks.lookup t = some (.writing c) → s.tasks.lookup t = some (.writing c)) : Visible s' v d b := by
  refine ⟨fun hv => hf ▸ h.1 (hl ▸ hv), fun t c hc hv hlt => h.2 t c (ht t c hc) hv (hl ▸ hlt)⟩

theorem wrote (h : Visible s v d b) {t : Nat} (ht : s.tasks.lookup t = some (.writing c))
    (hv : s.lastWritten < c.version) : Visible { s with file := c.content, lastWritten := c.version } v d b :=
  ⟨fun hle => h.2 t c ht hle hv, fun t' c' ht' hle hlt => h.2 t' c' ht' hle (hv.trans hlt)⟩

theorem begin (hs : Versioned s) (h : v ≤ s.version → Visible s v d b) {t : Nat}
    (hr : r.inventory.medium (.drive d) = some b) : Visible (s.begun t admin r) v d b := by
  refine ⟨fun hv => (h (hv.trans hs.written)).1 hv, ?_⟩
  intro t' c ht' hv hlt
  rcases lookup_insert_some ht' with ⟨rfl, hc⟩ | ⟨-, ht'⟩
  · cases hc
    exact hr
  · exact (h (hv.trans (hs.begun t' c ht'))).2 t' c ht' hv hlt

theorem from_start (h : Visible s v d b) (hv : v ≤ s.lastWritten) : Visible s 0 d b :=
  ⟨fun _ => h.1 hv, fun t c ht _ hlt => h.2 t c ht (hv.trans hlt.le) hlt⟩

end Visible

/-- What a migrate job reads shows every load that may open and every drive that keeps a cartridge. -/
structure Shown (s : Site) : Prop where
  loads : ∀ t task c d b slot, s.tasks.lookup t = some task → task.cmd? = some c → c.mirror = .load d b slot →
    s.Visible c.version d b
  opens : ∀ d b, s.opened d = some b → s.Unloading d ∨ s.Visible 0 d b

theorem started_shown (inv : LibraryInventory) : Shown (started inv) where
  loads := fun _ _ _ _ _ _ h => by cases h
  opens := fun _ _ h => by cases h

namespace Shown

variable {t : Nat} {task' task : Task} {c : Cmd}

theorem setTask (h : Shown s) (hsame : (s.tasks.lookup t).bind cmd? = task'.cmd?) (hw : ∀ c, task' ≠ .writing c) :
    Shown (s.setTask t task') := by
  have hvis : ∀ {v d b}, s.Visible v d b → (s.setTask t task').Visible v d b :=
    fun hv => hv.of_tasks rfl rfl fun t' c ht' => lookup_of_insert ht' (hw c).symm
  constructor
  · intro t' task c d b slot ht' hc hm
    rcases lookup_insert_some ht' with ⟨rfl, rfl⟩ | ⟨-, ht'⟩
    · obtain ⟨task0, hl, hc0⟩ := Option.bind_eq_some_iff.1 (hsame.trans hc)
      exact hvis (h.loads t' task0 c d b slot hl hc0 hm)
    · exact hvis (h.loads t' task c d b slot ht' hc hm)
  · intro d b ho
    refine (h.opens d b ho).imp (fun hu => ?_) hvis
    refine Table.Any.insert hu fun task0 h0 hm => ?_
    rw [h0, Option.bind_some] at hsame
    rwa [mirror, hsame] at hm

theorem drop (h : Shown s) (hu : ∀ task d, s.tasks.lookup t = some task → task.mirror = .unload d → s.opened d = none) :
    Shown { s with tasks := s.tasks.erase t } := by
  have hvis : ∀ {v d b}, s.Visible v d b → Visible { s with tasks := s.tasks.erase t } v d b :=
    fun hv => hv.of_tasks rfl rfl fun t' c ht' => (lookup_erase_some ht').2
  constructor
  · intro t' task c d b slot ht' hc hm
    exact hvis (h.loads t' task c d b slot (lookup_erase_some ht').2 hc hm)
  · intro d b ho
    refine (h.opens d b ho).imp (fun hany => Table.Any.erase hany (fun task0 h0 hm => ?_)) hvis
    rw [hu task0 d h0 hm] at ho
    cases ho

theorem congr (h : Shown s) (hf : s'.file = s.file) (hl : s'.lastWritten = s.lastWritten) (ht : s'.tasks = s.tasks)
    (ho : ∀ d b, s'.opened d = some b → s.opened d = some b) : Shown s' := by
  have hvis : ∀ {v d b}, s.Visible v d b → s'.Visible v d b :=
    fun hv => hv.of_tasks hf hl fun t c hc => ht ▸ hc
  constructor
  · intro t task c d b slot hlook hc hm
    exact hvis (h.loads t task c d b slot (ht ▸ hlook) hc hm)
  · intro d b hopen
    refine (h.opens d b (ho d b hopen)).imp (fun hu => ?_) hvis
    unfold Unloading
    rw [ht]
    exact hu

theorem wrote (h : Shown s) (ht : s.tasks.lookup t = some (.writing c)) (hv : s.lastWritten < c.version) :
    Shown { s with file := c.content, lastWritten := c.version } :=
  ⟨fun t' task c' d b slot ht' hc hm => (h.loads t' task c' d b slot ht' hc hm).wrote ht hv,
    fun d b ho => (h.opens d b ho).imp id (fun hvis => hvis.wrote ht hv)⟩

theorem begin (h : Shown s) (hs : Versioned s) (ht : s.tasks.lookup t = none)
    (hm' : Mounted ch (s.begun t admin r)) : Shown (s.begun t admin r) := by
  constructor
  · intro t' task c d b slot ht' hc hm
    have hshow : r.inventory.medium (.drive d) = some b := by
      refine (hm'.loads t' task d b slot ht' ?_).1
      rw [mirror, hc]
      exact hm
    refine Visible.begin hs (fun hv => ?_) hshow
    rcases lookup_insert_some ht' with ⟨rfl, rfl⟩ | ⟨-, ht'⟩
    · cases hc
      exact absurd hv (Nat.not_succ_le_self _)
    · exact h.loads t' task c d b slot ht' hc hm
  · intro d b ho
    rcases hm'.opens d b ho with hshow | hu
    · exact (h.opens d b ho).imp (fun hu => Table.Any.fresh hu ht) fun hvis => Visible.begin hs (fun _ => hvis) hshow
    · exact .inl hu

theorem of_file (hm' : Mounted ch s') (hfile : s'.file = s'.inventory)
    (hold : ∀ t c, s'.tasks.lookup t = some (.writing c) → c.version ≤ s'.lastWritten) : Shown s' := by
  have hvis : ∀ {v d b}, s'.inventory.medium (.drive d) = some b → s'.Visible v d b :=
    fun hb => ⟨fun _ => hfile ▸ hb, fun t c ht _ hlt => absurd (hold t c ht) (Nat.not_le.2 hlt)⟩
  constructor
  · intro t task c d b slot ht hc hm
    refine hvis (hm'.loads t task d b slot ht ?_).1
    rw [mirror, hc]
    exact hm
  · intro d b ho
    exact (hm'.opens d b ho).symm.imp id hvis

theorem dropSide (h : Shown s) (ht : s.tasks.lookup t = some task) (hm : ∀ d, task.mirror ≠ .unload d) :
    Shown { s with tasks := s.tasks.erase t } := by
  refine h.drop fun task' d ht' hu => ?_
  rw [ht, Option.some.injEq] at ht'
  subst ht'
  exact absurd hu (hm d)

theorem afterWrite (h : Shown s) (ht : s.tasks.lookup t = some (.writing c)) : Shown (s.written t c) := by
  rcases s.written_cases t c with ⟨hm, he⟩ | ⟨-, he⟩
  · refine he ▸ (h.dropSide ht (fun d hu => ?_)).congr rfl rfl rfl (fun _ _ ho => ho)
    rw [show c.mirror = .unload d from hu] at hm
    cases hm
  · exact he ▸ h.setTask (by rw [ht]; rfl) (by simp)

theorem loadFailed (h : Shown s) (ht : s.tasks.lookup t = some task)
    (hc : task.cmd? = some c) (hm : c.mirror = .load d b slot) : Shown (s.loadFailed t c) := by
  rcases s.loadFailed_cases t c with ⟨-, he⟩ | ⟨-, he⟩
  · refine he ▸ (h.dropSide ht (fun d' hu => ?_)).congr rfl rfl rfl (fun _ _ ho => ho)
    rw [mirror, hc] at hu
    rw [show c.mirror = .unload d' from hu] at hm
    cases hm
  · exact he ▸ h.setTask (by rw [ht]; exact hc) (by simp)

end Shown

theorem step_shown (hv : Versioned s) (h : Shown s) (hm' : Mounted ch s') (hok : s.Careful ch a)
    (hs : s.step ch a = some s') : Shown s' := by
  have hload : ∀ {c : Cmd} {d b slot}, c.mirror = .load d b slot → ∀ d', c.mirror ≠ .unload d' :=
    fun hm d' hu => by rw [hm] at hu; cases hu
  cases step_effect hs with
  | refused | hostWrote | preflightRefused => exact h
  | begun hl ht => exact h.begin hv ht hm'
  | skipped ht => exact h.afterWrite ht
  | wrote ht hlt => exact (h.wrote ht hlt).afterWrite ht
  | @writeFailed t c ht hlt =>
    refine (h.dropSide ht (fun d hu => ?_)).congr rfl rfl rfl fun _ _ ho => ho
    obtain ⟨admin, version, content, mirror⟩ := c
    cases hu
    rcases hok _ ht with hw | hle
    · cases hw
    · exact absurd hle (Nat.not_le.2 hlt)
  | @unloaded t works c d ht hm =>
    have hc : Shown { s with opened := update s.opened d none } := h.congr rfl rfl rfl fun _ _ hb => (update_none hb).2
    refine (hc.drop (fun task d' ht' hu => ?_)).congr rfl rfl rfl fun _ _ ho => ho
    rw [ht, Option.some.injEq] at ht'
    subst ht'
    rw [show c.mirror = .unload d' from hu] at hm
    cases hm
    simp
  | loadRefused ht hm | openFailed ht hm => exact h.loadFailed ht rfl hm
  | loadAdmitted ht | recheckPassed ht => exact h.setTask (by rw [ht]; rfl) (by simp)
  | @loaded t c d b slot ht hm =>
    have hd := h.dropSide ht (hload hm)
    refine ⟨hd.loads, fun d' b' hb => ?_⟩
    rcases update_some hb with ⟨rfl, rfl⟩ | ⟨-, hb⟩
    · -- the load is past its write, so the file and every newer snapshot show it
      refine .inr (((h.loads t _ c d' b' slot ht rfl hm).from_start (hv.of_past ht rfl (by simp))).of_tasks rfl rfl ?_)
      exact fun t' c' ht' => (lookup_erase_some ht').2
    · exact hd.opens d' b' hb
  | undoRefused ht hl hm => exact (h.dropSide ht (hload hm)).congr rfl rfl rfl fun _ _ ho => ho
  | @undone t works c d b src inv s1 ht hl hm hu hs1 =>
    have hd := h.dropSide ht (hload hm)
    subst hs1
    rcases writeIfNewer_cases _ _ inv works with he | he
    · rw [he]
      exact hd.congr rfl rfl rfl fun _ _ ho => ho
    · rw [he] at hm' ⊢
      refine .of_file hm' rfl fun t' c' ht' => ?_
      exact (hv.begun t' c' (lookup_erase_some ht').2).trans (Nat.le_succ _)
  | initParsed ht | preflightPassed ht => exact h.setTask (by rw [ht]; rfl) (by simp)
  | initApplied ht | recheckRefused ht | migrated ht =>
    exact (h.dropSide ht (by simp [mirror, cmd?])).congr rfl rfl rfl fun _ _ ho => ho
  | scsiUnloaded => exact h.congr rfl rfl rfl fun _ _ hb => (update_none hb).2
  | claimRefused ht => exact h.dropSide ht (by simp [mirror, cmd?])
  | claimed ht =>
    refine Shown.setTask ?_ (by rw [ht]; rfl) (by simp)
    exact h.congr rfl rfl rfl fun _ _ ho => ho
  | crashed => exact (started_shown s.file).congr rfl rfl rfl fun _ _ ho => ho

/-! ## Migrate jobs -/

end Site

def Task.claim? : Task → Option Barcode
  | .claimed b | .migrating b => some b
  | _ => none

theorem findDrive_none (h : findDriveForLoadedCartridge inv b = none) (d : Nat) :
    inv.medium (.drive d) ≠ some b := by
  intro hd
  obtain ⟨v, hv, hp⟩ := Option.map_eq_some_iff.1 (entry_of_medium hd)
  simp only [Prod.mk.injEq] at hp
  rw [findDriveForLoadedCartridge, Option.map_eq_none_iff, List.find?_eq_none] at h
  exact h v (Keyed.mem_of_get hv) (by simp [hp])

/-- The recheck reads the file, and no unload of the open cartridge is on its way. -/
def Task.Rechecks (ch : Chassis) (s : Site) (readable : Bool) : Task → Prop
  | .claimed b => readable = true ∧ ∀ d < ch.topology.numDrives, s.opened d = some b → ¬ s.Unloading d
  | _ => True

instance (ch : Chassis) (s : Site) (readable : Bool) (task : Task) : Decidable (task.Rechecks ch s readable) := by
  apply Task.casesOn (motive := fun task => Decidable (task.Rechecks ch s readable)) task <;> intros <;>
    unfold Task.Rechecks <;> infer_instance

namespace Site

variable {ch : Chassis} {s s' : Site} {a : SiteAct} {f0 : Placement Element Barcode}

def Guarded (ch : Chassis) (s : Site) : SiteAct → Prop
  | .recheck t readable => ∀ task ∈ s.tasks.lookup t, task.Rechecks ch s readable
  | a => s.Careful ch a

instance (ch : Chassis) (s : Site) (a : SiteAct) : Decidable (s.Guarded ch a) := by
  apply SiteAct.casesOn (motive := fun a => Decidable (s.Guarded ch a)) a <;> intros <;> unfold Guarded <;> infer_instance

theorem Guarded.careful (h : s.Guarded ch a) : s.Careful ch a := by
  cases a <;> first | exact h | exact trivial

structure Claimed (s : Site) : Prop where
  nodup : s.claims.Nodup
  held : ∀ t task b, s.tasks.lookup t = some task → task.claim? = some b → b ∈ s.claims
  single : ∀ t t' task task' b, s.tasks.lookup t = some task → s.tasks.lookup t' = some task' →
    task.claim? = some b → task'.claim? = some b → t = t'
  /-- a cartridge that is migrated is not open, and no load is about to open it -/
  shut : ∀ t b, s.tasks.lookup t = some (.migrating b) →
    (∀ d, s.opened d ≠ some b) ∧ ∀ t' c d slot, s.tasks.lookup t' = some (.opening c) → c.mirror ≠ .load d b slot

theorem started_claimed (inv : LibraryInventory) : Claimed (started inv) where
  nodup := .nil
  held := fun _ _ _ h => by cases h
  single := fun _ _ _ _ _ h => by cases h
  shut := fun _ _ h => by cases h

namespace Claimed

theorem of_tasks (h : Claimed s) (hc : s'.claims = s.claims)
    (ht : ∀ t task, s'.tasks.lookup t = some task → (∃ c, task = .opening c) ∨ task.claim?.isSome →
      s.tasks.lookup t = some task) (ho : ∀ d b, s'.opened d = some b → s.opened d = some b) : Claimed s' := by
  have hback : ∀ {t task b}, s'.tasks.lookup t = some task → task.claim? = some b → s.tasks.lookup t = some task :=
    fun hl hb => ht _ _ hl (.inr (by rw [hb]; rfl))
  refine ⟨hc ▸ h.nodup, ?_, ?_, ?_⟩
  · intro t task b hl hb
    exact hc ▸ h.held t task b (hback hl hb) hb
  · intro t t' task task' b hl hl' hb hb'
    exact h.single t t' task task' b (hback hl hb) (hback hl' hb') hb hb'
  · intro t b hl
    obtain ⟨hopen, hload⟩ := h.shut t b (hback hl rfl)
    exact ⟨fun d hd => hopen d (ho d b hd), fun t' c d slot hl' => hload t' c d slot (ht t' _ hl' (.inl ⟨c, rfl⟩))⟩

variable {t : Nat} {b : Barcode}

section

variable (h : Claimed s)
include h

theorem setTask {task' : Task} (hc : task'.claim? = none) (hn : ∀ c, task' ≠ .opening c) :
    Claimed (s.setTask t task') := by
  refine h.of_tasks rfl (fun t' task hl hq => ?_) fun _ _ ho => ho
  rcases lookup_insert_some hl with ⟨-, rfl⟩ | ⟨-, hl⟩
  · rcases hq with ⟨c, rfl⟩ | hq
    · exact absurd rfl (hn c)
    · rw [hc] at hq
      cases hq
  · exact hl

theorem erase (hc : s'.claims = s.claims) (ht : s'.tasks = s.tasks.erase t)
    (ho : ∀ d b, s'.opened d = some b → s.opened d = some b) : Claimed s' :=
  h.of_tasks hc (fun _ _ hl _ => (lookup_erase_some (ht ▸ hl)).2) ho

theorem release (ht : s.tasks.lookup t = some task) (hb : task.claim? = some b) :
    Claimed { s with tasks := s.tasks.erase t, claims := s.claims.erase b } := by
  refine ⟨h.nodup.erase b, ?_, ?_, ?_⟩
  · intro t' task' b' hl hb'
    obtain ⟨hne, hl'⟩ := lookup_erase_some hl
    have hbne : b' ≠ b := fun he => hne (h.single t' t task' task b hl' ht (he ▸ hb') hb)
    exact (List.mem_erase_of_ne hbne).2 (h.held t' task' b' hl' hb')
  · intro t1 t2 task1 task2 b' h1 h2
    exact h.single t1 t2 task1 task2 b' (lookup_erase_some h1).2 (lookup_erase_some h2).2
  · intro t' b' hl
    obtain ⟨hopen, hload⟩ := h.shut t' b' (lookup_erase_some hl).2
    exact ⟨hopen, fun t1 c d slot h1 => hload t1 c d slot (lookup_erase_some h1).2⟩

theorem claim (hb : b ∉ s.claims) :
    Claimed (Site.setTask { s with claims := b :: s.claims } t (.claimed b)) := by
  have hfree : ∀ t' task, s.tasks.lookup t' = some task → task.claim? ≠ some b :=
    fun t' task hl hc => hb (h.held t' task b hl hc)
  refine ⟨List.nodup_cons.2 ⟨hb, h.nodup⟩, ?_, ?_, ?_⟩
  · intro t' task b' hl hc
    rcases lookup_insert_some hl with ⟨-, rfl⟩ | ⟨-, hl⟩
    · cases hc
      exact List.mem_cons_self
    · exact List.mem_cons_of_mem _ (h.held t' task b' hl hc)
  · intro t1 t2 task1 task2 b' h1 h2 hc1 hc2
    rcases lookup_insert_some h1 with ⟨rfl, rfl⟩ | ⟨-, h1'⟩
    · rcases lookup_insert_some h2 with ⟨rfl, -⟩ | ⟨-, h2'⟩
      · rfl
      · cases hc1
        exact absurd hc2 (hfree t2 task2 h2')
    · rcases lookup_insert_some h2 with ⟨rfl, rfl⟩ | ⟨-, h2'⟩
      · cases hc2
        exact absurd hc1 (hfree t1 task1 h1')
      · exact h.single t1 t2 task1 task2 b' h1' h2' hc1 hc2
  · intro t' b' hl
    obtain ⟨hopen, hload⟩ := h.shut t' b' (lookup_of_insert hl (by simp))
    exact ⟨hopen, fun t1 c d slot h1 => hload t1 c d slot (lookup_of_insert h1 (by simp))⟩

theorem migrate (ht : s.tasks.lookup t = some (.claimed b)) (hopen : ∀ d, s.opened d ≠ some b)
    (hload : ∀ t' c d slot, s.tasks.lookup t' = some (.opening c) → c.mirror ≠ .load d b slot) :
    Claimed (s.setTask t (.migrating b)) := by
  have hback : ∀ {t' task b'}, (s.tasks.insert t (.migrating b)).lookup t' = some task → task.claim? = some b' →
      ∃ task0, s.tasks.lookup t' = some task0 ∧ task0.claim? = some b' := by
    intro t' task b' hl hc
    rcases lookup_insert_some hl with ⟨rfl, rfl⟩ | ⟨-, hl⟩
    · exact ⟨.claimed b, ht, hc⟩
    · exact ⟨task, hl, hc⟩
  have hopening : ∀ {t' c}, (s.tasks.insert t (.migrating b)).lookup t' = some (.opening c) →
      s.tasks.lookup t' = some (.opening c) := fun hl => lookup_of_insert hl (by simp)
  refine ⟨h.nodup, ?_, ?_, ?_⟩
  · intro t' task b' hl hc
    obtain ⟨task0, hl0, hc0⟩ := hback hl hc
    exact h.held t' task0 b' hl0 hc0
  · intro t1 t2 task1 task2 b' h1 h2 hc1 hc2
    obtain ⟨task3, h3, hc3⟩ := hback h1 hc1
    obtain ⟨task4, h4, hc4⟩ := hback h2 hc2
    exact h.single t1 t2 task3 task4 b' h3 h4 hc3 hc4
  · intro t' b' hl
    rcases lookup_insert_some hl with ⟨-, hc⟩ | ⟨-, hl⟩
    · cases hc
      exact ⟨hopen, fun t1 c d slot h1 => hload t1 c d slot (hopening h1)⟩
    · obtain ⟨hopen', hload'⟩ := h.shut t' b' hl
      exact ⟨hopen', fun t1 c d slot h1 => hload' t1 c d slot (hopening h1)⟩

theorem afterWrite (t : Nat) (c : Cmd) : Claimed (s.written t c) := by
  rcases s.written_cases t c with ⟨-, he⟩ | ⟨-, he⟩
  · exact he ▸ h.erase rfl rfl fun _ _ ho => ho
  · exact he ▸ h.setTask rfl (by simp)

theorem loadFailed (t : Nat) (c : Cmd) : Claimed (s.loadFailed t c) := by
  rcases s.loadFailed_cases t c with ⟨-, he⟩ | ⟨-, he⟩
  · exact he ▸ h.erase rfl rfl fun _ _ ho => ho
  · exact he ▸ h.setTask rfl (by simp)

end

end Claimed

theorem step_claimed (hv : Versioned s) (hm : Mounted ch s) (hshow : Shown s) (h : Claimed s) (hok : s.Guarded ch a)
    (hs : s.step ch a = some s') : Claimed s' := by
  cases step_effect hs with
  | refused | hostWrote | preflightRefused => exact h
  | begun hl => exact (h.setTask rfl (by simp)).of_tasks rfl (fun _ _ hl _ => hl) fun _ _ ho => ho
  | skipped => exact h.afterWrite _ _
  | wrote =>
    refine Claimed.afterWrite ?_ _ _
    exact h.of_tasks rfl (fun _ _ hl _ => hl) fun _ _ ho => ho
  | writeFailed | undoRefused | initApplied | claimRefused => exact h.erase rfl rfl fun _ _ ho => ho
  | unloaded => exact h.erase rfl rfl fun _ _ hb => (update_none hb).2
  | loadRefused | openFailed => exact h.loadFailed _ _
  | @loadAdmitted t c d b slot ht hmir hb =>
    -- the claim of a migration keeps the load from opening
    have hback : ∀ {t' task b'}, (s.tasks.insert t (.opening c)).lookup t' = some task → task.claim? = some b' →
        s.tasks.lookup t' = some task := fun hl hc => lookup_of_insert hl (by rintro rfl; cases hc)
    refine ⟨h.nodup, ?_, ?_, ?_⟩
    · exact fun t' task b' hl hc => h.held t' task b' (hback hl hc) hc
    · exact fun t1 t2 _ _ b' h1 h2 hc1 hc2 => h.single t1 t2 _ _ b' (hback h1 hc1) (hback h2 hc2) hc1 hc2
    · intro t' b' hl
      replace hl := hback hl rfl
      obtain ⟨hopen, hload⟩ := h.shut t' b' hl
      refine ⟨hopen, fun t1 c1 d1 slot1 h1 hm1 => ?_⟩
      rcases lookup_insert_some h1 with ⟨-, hc⟩ | ⟨-, h1⟩
      · cases hc
        rw [hmir] at hm1
        cases hm1
        exact hb (h.held t' _ _ hl rfl)
      · exact hload t1 c1 d1 slot1 h1 hm1
  | @loaded t c d b slot ht hmir =>
    have he : Claimed { s with tasks := s.tasks.erase t } := h.erase rfl rfl fun _ _ ho => ho
    refine ⟨he.nodup, he.held, he.single, fun t' b' hl => ?_⟩
    obtain ⟨hopen, hload⟩ := he.shut t' b' hl
    refine ⟨fun d' hd' => ?_, hload⟩
    rcases update_some hd' with ⟨-, rfl⟩ | ⟨-, hd'⟩
    · exact (h.shut t' _ (lookup_erase_some hl).2).2 t c d slot ht hmir
    · exact hopen d' hd'
  | @undone t works c d b src inv s1 ht hl hmir hu hs1 =>
    subst hs1
    rcases writeIfNewer_cases _ _ inv works with he | he
    · rw [he]
      exact h.erase rfl rfl fun _ _ ho => ho
    · rw [he]
      exact h.erase rfl rfl fun _ _ ho => ho
  | initParsed | preflightPassed => exact h.setTask rfl (by simp)
  | scsiUnloaded => exact h.of_tasks rfl (fun _ _ hl _ => hl) fun _ _ hb => (update_none hb).2
  | claimed ht hb => exact h.claim hb
  | recheckRefused ht | migrated ht => exact h.release ht rfl
  | @recheckPassed t readable b ht hfile =>
    obtain ⟨hread, hunload⟩ := hok _ ht
    have hnone := findDrive_none (hfile hread)
    refine h.migrate ht (fun d hd => ?_) fun t' c d slot ht' hmir => ?_
    · rcases hshow.opens d b hd with hu | hvis
      · exact hunload d (hm.inside d b hd) hd hu
      · exact hnone d (hvis.1 (Nat.zero_le _))
    · exact hnone d ((hshow.loads t' _ c d b slot ht' rfl hmir).1 (hv.of_past ht' rfl (by simp)))
  | crashed => exact (started_claimed s.file).of_tasks rfl (fun _ _ hl _ => hl) fun _ _ ho => ho

/-- **Migration and mounting exclude each other in every guarded run.** -/
theorem migration_excludes_mounts (hw : Within ch.topology inv)
    (ho : inv.medium.Once) (hm : (machine ch).Meets (Guarded ch) (started inv) as)
    (hr : (machine ch).run (started inv) as = some s) :
    ∀ t b, s.tasks.lookup t = some (.migrating b) → ∀ d, s.opened d ≠ some b := by
  have hstep : ∀ s1 a s2, AllKept ch.topology inv.medium s1 → Versioned s1 ∧ Mounted ch s1 ∧ Shown s1 ∧ Claimed s1 →
      Guarded ch s1 a → (machine ch).step s1 a = some s2 → Versioned s2 ∧ Mounted ch s2 ∧ Shown s2 ∧ Claimed s2 := by
    rintro s1 a s2 hk ⟨hv, hmount, hshow, hclaim⟩ hok hs
    have hmount' := step_mounted ho hk hmount hok.careful hs
    exact ⟨step_versioned hv hs, hmount', step_shown hv hshow hmount' hok.careful hs,
      step_claimed hv hmount hshow hclaim hok hs⟩
  have hstart : Versioned (started inv) ∧ Mounted ch (started inv) ∧ Shown (started inv) ∧ Claimed (started inv) :=
    ⟨started_versioned inv, started_mounted ch inv, started_shown inv, started_claimed inv⟩
  obtain ⟨-, -, -, -, hclaim⟩ := run_kept ho hw hstart hstep hm hr
  exact fun t b ht => (hclaim.shut t b ht).1

theorem migration_excludes_mounts_refused : ∃ s, (machine twoDrives).run (started shelved)
    [move 1 1001 1, .preflight 9 "A", .claim 9, .recheck 9 true, .write 1 true, .drive 1 true] = some s ∧
    s.tasks.lookup 9 = some (.migrating "A") ∧ ∀ d, s.opened d ≠ some "A" :=
  Machine.ends_of (·.tasks.lookup 9 = some (.migrating "A")) (by decide +kernel) fun _ hs hjob =>
    ⟨hjob, migration_excludes_mounts (by decide) shelved_once (by decide +kernel) hs 9 "A" hjob⟩

/-- The job runs between an unload's write and its drive part, or its recheck could not read the file. -/
theorem migration_meets_mount :
    (∃ s, (machine twoDrives).run (started shelved) [move 1 1001 1, .write 1 true, .drive 1 true, .openDrive 1 true,
        move 2 1 1001, .write 2 true, .preflight 9 "A", .claim 9, .recheck 9 true, .hostWrite 0] = some s ∧
      s.tasks.lookup 9 = some (.migrating "A") ∧ s.opened 0 = some "A") ∧
    ∃ s, (machine twoDrives).run (started shelved) [.preflight 9 "A", move 1 1001 1, .write 1 true, .drive 1 true,
        .openDrive 1 true, .claim 9, .recheck 9 false, .hostWrite 0] = some s ∧
      s.tasks.lookup 9 = some (.migrating "A") ∧ s.opened 0 = some "A" := by
  decide +kernel

end Site

end Thur.Changer

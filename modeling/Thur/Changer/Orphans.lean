import Thur.Changer.Reconcile
/-!
# Orphans — no daemon start drops a cartridge from the inventory

A plan moves cartridges only from drives that go to their origin slots; the resizes cut off elements that hold nothing
and append empty ones (`Cut.medium`). This needs the ids of the inventory to be the positions of the persisted counts
(`Tidy`), which a start that stops between its two writes leaves apart (`Careful`).
-/
namespace Thur

open Keyed

namespace Changer

open List
open Option
open LibraryInventory Placement

def Element.Inside (t : LibraryTopology) : Element → Prop
  | .storage id => id < t.numStorageSlots
  | .mail id => id < t.numMailSlots
  | .drive id => id < t.numDrives

def Tidy (t : LibraryTopology) (inv : LibraryInventory) : Prop :=
  inv.ids = (List.range t.numStorageSlots, List.range t.numMailSlots, List.range t.numDrives)
deriving Decidable

def LibraryInventory.Filled (inv : LibraryInventory) : Prop := ∀ e x, inv.entry e = some (true, x) → x.isSome

/-- No id and no barcode twice; every occupied element has its barcode and is within the counts. -/
structure Sound (t : LibraryTopology) (inv : LibraryInventory) : Prop where
  distinct : inv.Distinct
  filled : inv.Filled
  once : inv.medium.Once
  inside : ∀ e b, inv.medium e = some b → e.Inside t

variable {e : Element} {inv : LibraryInventory} {t : LibraryTopology}

namespace Tidy

variable {t : LibraryTopology} {inv : LibraryInventory}

section

variable (h : Tidy t inv)
include h

theorem distinct : inv.Distinct := by
  rw [LibraryInventory.Distinct, h]
  exact ⟨nodup_range, nodup_range, nodup_range⟩

theorem storage : inv.storageSlots.map SlotInfo.id = List.range t.numStorageSlots :=
  congrArg Prod.fst h

theorem mail : inv.mailSlots.map MailSlotInfo.id = List.range t.numMailSlots :=
  congrArg (fun p => p.2.1) h

theorem drives : inv.drives.map DriveInfo.id = List.range t.numDrives :=
  congrArg (fun p => p.2.2) h

theorem storage_length : inv.storageSlots.length = t.numStorageSlots := by
  simpa using congrArg length h.storage

theorem drives_length : inv.drives.length = t.numDrives := by
  simpa using congrArg length h.drives

theorem inside {b : Barcode} (he : inv.medium e = some b) : e.Inside t := by
  have he := entry_of_medium he
  cases e with
  | storage id =>
    obtain ⟨s, hs, -⟩ := map_eq_some_iff.1 he
    have hid : s.id ∈ inv.storageSlots.map SlotInfo.id := mem_map_of_mem (mem_of_get hs)
    rw [h.storage, mem_range, key_of_get hs] at hid
    exact hid
  | mail id =>
    obtain ⟨m, hm, -⟩ := map_eq_some_iff.1 he
    have hid : m.id ∈ inv.mailSlots.map MailSlotInfo.id := mem_map_of_mem (mem_of_get hm)
    rw [h.mail, mem_range, key_of_get hm] at hid
    exact hid
  | drive id =>
    obtain ⟨v, hv, -⟩ := map_eq_some_iff.1 he
    have hid : v.id ∈ inv.drives.map DriveInfo.id := mem_map_of_mem (mem_of_get hv)
    rw [h.drives, mem_range, key_of_get hv] at hid
    exact hid

end

end Tidy

/-! ## The elements that hold a cartridge, as a list -/

namespace LibraryInventory

def seats (inv : LibraryInventory) : List (Element × Barcode) :=
  inv.storageSlots.filterMap (fun s => if s.occupied then s.barcode.map (Element.storage s.id, ·) else none) ++
    (inv.mailSlots.filterMap (fun m => if m.occupied then m.barcode.map (Element.mail m.id, ·) else none) ++
      inv.drives.filterMap (fun v => if v.occupied then v.barcode.map (Element.drive v.id, ·) else none))

def Barcoded (inv : LibraryInventory) : Prop :=
  (∀ s ∈ inv.storageSlots, s.occupied → s.barcode.isSome) ∧ (∀ m ∈ inv.mailSlots, m.occupied → m.barcode.isSome) ∧
    ∀ v ∈ inv.drives, v.occupied → v.barcode.isSome
deriving Decidable

variable {inv : LibraryInventory}

theorem mem_seats {b : Barcode} (h : inv.medium e = some b) : (e, b) ∈ inv.seats := by
  have he := entry_of_medium h
  simp only [seats, mem_append, mem_filterMap]
  cases e with
  | storage =>
    obtain ⟨s, hs, hp⟩ := map_eq_some_iff.1 he
    simp only [Prod.mk.injEq] at hp
    exact .inl ⟨s, mem_of_get hs, by simp [hp, key_of_get hs]⟩
  | mail =>
    obtain ⟨m, hm, hp⟩ := map_eq_some_iff.1 he
    simp only [Prod.mk.injEq] at hp
    exact .inr (.inl ⟨m, mem_of_get hm, by simp [hp, key_of_get hm]⟩)
  | drive =>
    obtain ⟨v, hv, hp⟩ := map_eq_some_iff.1 he
    simp only [Prod.mk.injEq] at hp
    exact .inr (.inr ⟨v, mem_of_get hv, by simp [hp, key_of_get hv]⟩)

theorem once_of_nodup_seats (h : (inv.seats.map Prod.snd).Nodup) : inv.medium.Once := by
  intro e e' b he he'
  exact congrArg Prod.fst (inj_on_of_nodup_map h (mem_seats he) (mem_seats he') rfl)

theorem filled_of_barcoded (h : inv.Barcoded) : inv.Filled := by
  intro e x hx
  cases e with
  | storage =>
    obtain ⟨s, hs, hp⟩ := map_eq_some_iff.1 hx
    simp only [Prod.mk.injEq] at hp
    exact hp.2 ▸ h.1 s (mem_of_get hs) hp.1
  | mail =>
    obtain ⟨m, hm, hp⟩ := map_eq_some_iff.1 hx
    simp only [Prod.mk.injEq] at hp
    exact hp.2 ▸ h.2.1 m (mem_of_get hm) hp.1
  | drive =>
    obtain ⟨v, hv, hp⟩ := map_eq_some_iff.1 hx
    simp only [Prod.mk.injEq] at hp
    exact hp.2 ▸ h.2.2 v (mem_of_get hv) hp.1

end LibraryInventory

theorem Tidy.sound (ht : Tidy t inv) (hb : inv.Barcoded)
    (hn : (inv.seats.map Prod.snd).Nodup) : Sound t inv :=
  ⟨ht.distinct, filled_of_barcoded hb, once_of_nodup_seats hn, fun _ _ => ht.inside⟩

/-! ## The resizes -/

def resized {α : Type} (l : List α) (fresh : Nat → α) (cur target : Nat) : List α :=
  if cur < target then l ++ (List.range (target - cur)).map fun i => fresh (cur + i)
  else if target < cur then l.take target
  else l

theorem resized_spec {α : Type} {key : α → Nat} {l : List α} {cur : Nat} (hl : l.map key = List.range cur)
    (fresh : Nat → α) (hfresh : ∀ i, key (fresh i) = i) (target : Nat) :
    (resized l fresh cur target).map key = List.range target ∧
      ∀ k, get key (resized l fresh cur target) k =
        if target ≤ k then none else if k < cur then get key l k else some (fresh k) := by
  have hlen : l.length = cur := by simpa using congrArg List.length hl
  have hkeys : (resized l fresh cur target).map key = List.range target := by
    unfold resized
    split
    · next h =>
      have hsplit : List.range target = List.range cur ++ (List.range (target - cur)).map (cur + ·) := by
        rw [← List.range_add]
        congr 1
        omega
      rw [List.map_append, hl, hsplit, List.map_map]
      simp [Function.comp_def, hfresh]
    · split
      · rw [List.map_take, hl, List.take_range]
        congr 1
        omega
      · rw [hl]
        congr 1
        omega
  refine ⟨hkeys, fun k => ?_⟩
  rw [get_eq_getElem? hkeys, get_eq_getElem? hl]
  by_cases hk : target ≤ k
  · rw [if_pos hk, List.getElem?_eq_none]
    have : (resized l fresh cur target).length = target := by simpa using congrArg List.length hkeys
    omega
  · rw [if_neg hk]
    unfold resized
    by_cases hcur : k < cur
    · rw [if_pos hcur]
      split
      · rw [List.getElem?_append_left (by omega)]
      · split
        · rw [List.getElem?_take, if_pos (by omega)]
        · rfl
    · rw [if_neg hcur, if_pos (by omega), List.getElem?_append_right (by omega), List.getElem?_map,
        List.getElem?_range (by omega)]
      simp only [Option.map_some, Option.some.injEq]
      congr 1
      omega

namespace Library

open LibraryInventory

variable {lib : Library} {id : Nat} {inv : LibraryInventory} {d : DeclaredTopology} {p : ReconcilePlan} {b : Barcode}
  {mint : Mint} {lib' : Library} {inv' : LibraryInventory} {mk : Nat → Element}

theorem resizeStorage_storageSlots (lib : Library) (target : Nat) : (lib.resizeStorage target).inventory.storageSlots =
    resized lib.inventory.storageSlots emptySlot lib.topology.numStorageSlots target := rfl

theorem resizeDrives_drives (lib : Library) (mint : Mint) (target : Nat) : (lib.resizeDrives mint target).inventory.drives =
    resized lib.inventory.drives (emptyDrive mint) lib.topology.numDrives target := rfl

section

variable (h : Tidy lib.topology lib.inventory)
include h

theorem tidy_resizeStorage (target : Nat) :
    Tidy (lib.resizeStorage target).topology (lib.resizeStorage target).inventory := by
  have hids := (resized_spec h.storage emptySlot (fun _ => rfl) target).1
  exact Prod.ext hids (Prod.ext h.mail h.drives)

theorem tidy_resizeDrives (mint : Mint) (target : Nat) :
    Tidy (lib.resizeDrives mint target).topology (lib.resizeDrives mint target).inventory := by
  have hids := (resized_spec h.drives (emptyDrive mint) (fun _ => rfl) target).1
  exact Prod.ext h.storage (Prod.ext h.mail hids)

theorem entry_storage_beyond (hid : lib.topology.numStorageSlots ≤ id) :
    lib.inventory.entry (.storage id) = none := by
  rw [entry, getStorageSlot, get_eq_getElem? h.storage, getElem?_eq_none (by rw [h.storage_length]; exact hid)]
  rfl

theorem entry_drive_beyond (hid : lib.topology.numDrives ≤ id) :
    lib.inventory.entry (.drive id) = none := by
  rw [entry, getDrive, get_eq_getElem? h.drives, getElem?_eq_none (by rw [h.drives_length]; exact hid)]
  rfl

end

theorem medium_of_entry_none (h : inv.entry e = none) : inv.medium e = none := by
  rw [medium, h]

/-- Elements from `target` on go, new ones are free, all others stay. -/
def Cut (mk : Nat → Element) (target : Nat) (inv inv' : LibraryInventory) : Prop :=
  ∀ e, inv'.entry e = inv.entry e ∨ inv.entry e = none ∧ inv'.entry e = some (false, none) ∨
    ∃ id, e = mk id ∧ target ≤ id ∧ inv'.entry e = none

theorem cut_resizeStorage (h : Tidy lib.topology lib.inventory) (target : Nat) :
    Cut .storage target lib.inventory (lib.resizeStorage target).inventory := by
  intro e
  cases e with
  | storage id =>
    have hget := (resized_spec h.storage emptySlot (fun _ => rfl) target).2 id
    simp only [entry, getStorageSlot, resizeStorage_storageSlots, hget]
    split
    · next hid => exact .inr (.inr ⟨id, rfl, hid, rfl⟩)
    · split
      · exact .inl rfl
      · next hid => exact .inr (.inl ⟨entry_storage_beyond h (Nat.le_of_not_lt hid), rfl⟩)
  | mail | drive => exact .inl rfl

theorem cut_resizeDrives (h : Tidy lib.topology lib.inventory) (mint : Mint) (target : Nat) :
    Cut .drive target lib.inventory (lib.resizeDrives mint target).inventory := by
  intro e
  cases e with
  | storage | mail => exact .inl rfl
  | drive id =>
    have hget := (resized_spec h.drives (emptyDrive mint) (fun _ => rfl) target).2 id
    simp only [entry, getDrive, resizeDrives_drives, hget]
    split
    · next hid => exact .inr (.inr ⟨id, rfl, hid, rfl⟩)
    · split
      · exact .inl rfl
      · next hid => exact .inr (.inl ⟨entry_drive_beyond h (Nat.le_of_not_lt hid), rfl⟩)

theorem Cut.medium {target : Nat} (h : Cut mk target inv inv')
    (hfree : ∀ id, target ≤ id → inv.medium (mk id) = none) : inv'.medium = inv.medium := by
  funext e
  rcases h e with he | ⟨hno, he⟩ | ⟨id, rfl, hid, he⟩
  · rw [LibraryInventory.medium, he, LibraryInventory.medium]
  · rw [medium_of_free he, medium_of_entry_none hno]
  · rw [medium_of_entry_none he, hfree id hid]

theorem Cut.filled {target : Nat} (h : Cut mk target inv inv')
    (hf : inv.Filled) : inv'.Filled := by
  intro e x hx
  rcases h e with he | ⟨-, he⟩ | ⟨-, -, -, he⟩
  · exact hf e x (he.symm.trans hx)
  · rw [hx] at he
    cases he
  · rw [hx] at he
    cases he

/-! ## What an accepted diff says -/

def Leaves (d : DeclaredTopology) (v : DriveInfo) : Bool := decide (d.numDrives ≤ v.id) && v.occupied

def evacuationOf (v : DriveInfo) : DriveEvacuation := ⟨v.id, orUnknown v.barcode, originOf v⟩

theorem judgeDrive_cases (lib : Library) (d : DeclaredTopology) (slots : Nat) (planned : List DriveEvacuation)
    (v : DriveInfo) :
    (Leaves d v = false ∧ lib.judgeDrive d slots planned v = .stays) ∨
      (∃ text, lib.judgeDrive d slots planned v = .blocked text) ∨
      (Leaves d v = true ∧ originOf v < slots ∧ lib.judgeDrive d slots planned v = .evacuates (evacuationOf v)) := by
  unfold judgeDrive
  by_cases hid : v.id < d.numDrives
  · refine .inl ⟨?_, by rw [if_pos hid]⟩
    simp [Leaves, hid]
  rw [if_neg hid]
  by_cases hocc : v.occupied
  · simp only [hocc, Bool.not_true, Bool.false_eq_true, if_false]
    by_cases hslots : slots ≤ originOf v
    · exact .inr (.inl ⟨_, by rw [if_pos hslots]⟩)
    rw [if_neg hslots]
    split
    · exact .inr (.inl ⟨_, rfl⟩)
    · split
      · exact .inr (.inl ⟨_, rfl⟩)
      · refine .inr (.inr ⟨?_, by omega, rfl⟩)
        simp only [Leaves, hocc, Bool.and_true, decide_eq_true_eq]
        omega
  · refine .inl ⟨?_, ?_⟩
    · simp [Leaves, hocc]
    · simp [hocc]

/-- **Without a blocker, the drive loop plans one evacuation for each loaded drive that goes.** -/
theorem planDrives_ok (lib : Library) (d : DeclaredTopology) (slots : Nat) : ∀ (vs : List DriveInfo)
    (planned : List DriveEvacuation), (lib.planDrives d slots vs planned).1 = [] →
      (lib.planDrives d slots vs planned).2 = planned ++ (vs.filter (Leaves d)).map evacuationOf ∧
        ∀ v ∈ vs, Leaves d v → originOf v < slots
  | [], planned, _ => by simp [planDrives]
  | v :: vs, planned, h => by
    rcases judgeDrive_cases lib d slots planned v with ⟨hl, hj⟩ | ⟨text, hj⟩ | ⟨hl, ho, hj⟩
    · simp only [planDrives, hj] at h ⊢
      obtain ⟨hplan, horigin⟩ := planDrives_ok lib d slots vs planned h
      refine ⟨by rw [hplan, filter_cons_of_neg (by simp [hl])], ?_⟩
      rintro w (- | ⟨-, hw⟩) hw'
      · rw [hl] at hw'
        cases hw'
      · exact horigin w hw hw'
    · simp only [planDrives, hj] at h
      cases h
    · simp only [planDrives, hj] at h ⊢
      obtain ⟨hplan, horigin⟩ := planDrives_ok lib d slots vs (planned ++ [evacuationOf v]) h
      refine ⟨by rw [hplan, filter_cons_of_pos hl]; simp, ?_⟩
      rintro w (- | ⟨-, hw⟩) hw'
      · exact ho
      · exact horigin w hw hw'

structure Accepted (lib : Library) (d : DeclaredTopology) : Prop where
  declared : validateDeclared d = .ok ()
  storage : d.numStorageSlots < lib.topology.numStorageSlots →
    ∀ s ∈ lib.inventory.storageSlots, d.numStorageSlots ≤ s.id → s.occupied = false
  evacuations : (lib.plan d).driveEvacuations =
    if d.numDrives < lib.topology.numDrives then (lib.inventory.drives.filter (Leaves d)).map evacuationOf else []
  origins : d.numDrives < lib.topology.numDrives →
    ∀ v ∈ lib.inventory.drives, Leaves d v → originOf v < d.numStorageSlots
  partitions : lib.partitionBlockers d = []

theorem diffAgainstDeclared_ok (h : lib.diffAgainstDeclared d = .ok p) : p = lib.plan d ∧ Accepted lib d := by
  unfold diffAgainstDeclared at h
  obtain ⟨_, hd, h⟩ := bind_eq_ok h
  obtain ⟨_, _, h⟩ := bind_eq_ok h
  by_cases hb : lib.blockers d = []
  · simp only [hb, ne_eq, not_true_eq_false, if_false] at h
    have hp : p = lib.plan d := by
      cases h
      rfl
    simp only [blockers, append_eq_nil_iff] at hb
    obtain ⟨-, hs, hv, hpart⟩ := hb
    refine ⟨hp, hd, ?_, ?_, ?_, hpart⟩
    · intro hlt s hmem hid
      simp only [storageBlockers, if_pos hlt, append_eq_nil_iff, filterMap_eq_nil_iff] at hs
      have := hs.1 s hmem
      by_contra hocc
      simp [hid, hocc] at this
    · simp only [plan, drivePlan]
      split
      · next hlt =>
        simp only [drivePlan, if_pos hlt] at hv
        simpa using (planDrives_ok lib d _ _ [] hv).1
      · rfl
    · intro hlt
      simp only [drivePlan, if_pos hlt] at hv
      exact (planDrives_ok lib d _ _ [] hv).2
  · simp only [ne_eq, hb, not_false_eq_true, if_true] at h
    cases h

/-! ## The evacuations -/

theorem filled_assign (h : inv.Filled) (e : Element) (b : Option Barcode) (home : Option Nat) :
    (inv.assign e b home).Filled := by
  intro e' x hx
  rw [entry_assign] at hx
  split at hx
  · obtain ⟨-, -, hb⟩ := map_eq_some_iff.1 hx
    simp only [Prod.mk.injEq] at hb
    rw [← hb.2]
    exact hb.1
  · exact h e' x hx

theorem evacuateDriveToOrigin_ok {ev : DriveEvacuation}
    (h : evacuateDriveToOrigin inv ev = .ok inv') (hev : inv.medium (.drive ev.driveId) = some ev.barcode) :
    inv.medium (.storage ev.originSlot) = none ∧
      inv'.medium = inv.medium.move (.drive ev.driveId) (.storage ev.originSlot) ∧ inv'.ids = inv.ids ∧
      (inv.Filled → inv'.Filled) := by
  have hdrive := entry_of_medium hev
  simp only [evacuateDriveToOrigin, hdrive] at h
  cases hslot : inv.entry (.storage ev.originSlot) with
  | none =>
    rw [hslot] at h
    cases h
  | some r =>
    rw [hslot] at h
    rcases r with ⟨_ | _, x⟩ <;> cases h
    refine ⟨medium_of_free hslot, ?_, by simp, fun hf => filled_assign (filled_assign hf _ _ _) _ _ _⟩
    rw [medium_assign (isSome_entry_assign (by rw [hslot]; rfl) _ _), medium_assign (by rw [hdrive]; rfl),
      move, hev]

structure Evacuated (inv : LibraryInventory) (evs : List DriveEvacuation) (inv' : LibraryInventory) : Prop where
  rearranges : Placement.Rearranges inv.medium inv'.medium
  ids : inv'.ids = inv.ids
  filled : inv.Filled → inv'.Filled
  arrived : ∀ ev ∈ evs, inv'.medium (.storage ev.originSlot) = some ev.barcode
  cleared : ∀ ev ∈ evs, inv'.medium (.drive ev.driveId) = none
  others : ∀ id, id ∉ evs.map DriveEvacuation.driveId → inv'.medium (.drive id) = inv.medium (.drive id)
  slots : ∀ id b, inv.medium (.storage id) = some b → inv'.medium (.storage id) = some b

theorem evacuateAll_ok : ∀ {evs : List DriveEvacuation} {inv inv' : LibraryInventory}, evacuateAll inv evs = .ok inv' →
    (evs.map DriveEvacuation.driveId).Nodup → (∀ ev ∈ evs, inv.medium (.drive ev.driveId) = some ev.barcode) →
    Evacuated inv evs inv'
  | [], inv, inv', h, _, _ => by
    cases h
    exact ⟨.refl _, rfl, id, by simp, by simp, by simp, fun _ _ h => h⟩
  | ev :: evs, inv, inv', h, hnodup, hev => by
    rw [evacuateAll] at h
    cases h1 : evacuateDriveToOrigin inv ev with
    | error err =>
      rw [h1] at h
      cases h
    | ok inv1 =>
      rw [h1] at h
      obtain ⟨hfree, hmove, hids, hfilled⟩ := evacuateDriveToOrigin_ok h1 (hev ev mem_cons_self)
      rw [map_cons, nodup_cons] at hnodup
      have hdrive : ∀ id, id ≠ ev.driveId → inv1.medium (.drive id) = inv.medium (.drive id) := fun id hid => by
        rw [hmove, move_of_ne _ (by simpa using hid) (by simp)]
      have hslot : ∀ id, id ≠ ev.originSlot → inv1.medium (.storage id) = inv.medium (.storage id) := fun id hid => by
        rw [hmove, move_of_ne _ (by simp) (by simpa using hid)]
      have horigin : inv1.medium (.storage ev.originSlot) = some ev.barcode := by
        rw [hmove, move_dst, hev ev mem_cons_self]
      have hgone : inv1.medium (.drive ev.driveId) = none := by
        rw [hmove, move_src _ (by simp)]
      have hrest := evacuateAll_ok h hnodup.2 (fun ev' hev' => by
        have hne : ev'.driveId ≠ ev.driveId := fun h => hnodup.1 (h ▸ mem_map_of_mem hev')
        rw [hdrive _ hne, hev ev' (mem_cons_of_mem _ hev')])
      refine ⟨?_, hrest.ids.trans hids, fun hf => hrest.filled (hfilled hf), ?_, ?_, ?_, ?_⟩
      · exact (hmove ▸ rearranges_move _ hfree).trans hrest.rearranges
      · intro ev' hmem
        rcases mem_cons.1 hmem with rfl | hev'
        · exact hrest.slots _ _ horigin
        · exact hrest.arrived ev' hev'
      · intro ev' hmem
        rcases mem_cons.1 hmem with rfl | hev'
        · rw [hrest.others _ hnodup.1, hgone]
        · exact hrest.cleared ev' hev'
      · intro id hid
        rw [map_cons, mem_cons, not_or] at hid
        rw [hrest.others id hid.2, hdrive id hid.1]
      · intro id b hb
        have hne : id ≠ ev.originSlot := by
          rintro rfl
          rw [hfree] at hb
          cases hb
        exact hrest.slots id b (by rw [hslot id hne, hb])

/-! ## A plan applied in full -/

theorem medium_drive_mem {v : DriveInfo} (hd : inv.Distinct) (hv : v ∈ inv.drives) (hocc : v.occupied)
    (hb : v.barcode = some b) : inv.medium (.drive v.id) = some b := by
  rw [medium, entry, getDrive, get_of_mem hd.2.2 hv]
  simp [hocc, hb]

theorem drive_of_medium (h : inv.medium (.drive id) = some b) :
    ∃ v ∈ inv.drives, v.id = id ∧ v.occupied ∧ v.barcode = some b := by
  have he := entry_of_medium h
  simp only [entry, getDrive] at he
  obtain ⟨v, hv, hp⟩ := map_eq_some_iff.1 he
  simp only [Prod.mk.injEq] at hp
  exact ⟨v, mem_of_get hv, key_of_get hv, hp.1, hp.2⟩

theorem slot_of_medium (h : inv.medium (.storage id) = some b) : ∃ s ∈ inv.storageSlots, s.id = id ∧ s.occupied := by
  have he := entry_of_medium h
  simp only [entry, getStorageSlot] at he
  obtain ⟨s, hs, hp⟩ := map_eq_some_iff.1 he
  simp only [Prod.mk.injEq] at hp
  exact ⟨s, mem_of_get hs, key_of_get hs, hp.1⟩

theorem medium_of_leaves {v : DriveInfo} (hd : inv.Distinct) (hf : inv.Filled) (hv : v ∈ inv.drives) (hl : Leaves d v) :
    inv.medium (.drive v.id) = some (evacuationOf v).barcode := by
  simp only [Leaves, Bool.and_eq_true, decide_eq_true_eq] at hl
  have he : inv.entry (.drive v.id) = some (true, v.barcode) := by
    rw [entry, getDrive, get_of_mem hd.2.2 hv]
    simp [hl.2]
  obtain ⟨b, hb⟩ := isSome_iff_exists.1 (hf _ _ he)
  rw [medium_drive_mem hd hv hl.2 hb, evacuationOf, hb]
  rfl

/-! The ids and counts do not depend on what the elements hold. -/

theorem evacuateAll_ids : ∀ {evs : List DriveEvacuation} {inv inv' : LibraryInventory}, evacuateAll inv evs = .ok inv' →
    inv'.ids = inv.ids
  | [], _, _, h => by
    cases h
    rfl
  | ev :: evs, inv, inv', h => by
    rw [evacuateAll] at h
    cases h1 : evacuateDriveToOrigin inv ev with
    | error err =>
      rw [h1] at h
      cases h
    | ok inv1 =>
      rw [h1] at h
      refine (evacuateAll_ids h).trans ?_
      unfold evacuateDriveToOrigin at h1
      split at h1
      · cases h1
      split at h1 <;> cases h1
      simp

theorem withStorage_tidy {slots : Nat} (ht : Tidy lib.topology lib.inventory)
    (hp : p.storageTarget = if slots ≠ lib.topology.numStorageSlots then some slots else none) :
    Tidy (lib.withStorage p).topology (lib.withStorage p).inventory ∧
      (lib.withStorage p).topology = { lib.topology with numStorageSlots := slots } := by
  by_cases heq : slots = lib.topology.numStorageSlots
  · subst heq
    simp only [ne_eq, not_true_eq_false, if_false] at hp
    simp only [withStorage, hp]
    exact ⟨ht, trivial⟩
  · simp only [ne_eq, heq, not_false_eq_true, if_true] at hp
    simp only [withStorage, hp]
    exact ⟨tidy_resizeStorage ht _, rfl⟩

theorem withDrives_tidy {n : Nat} (h : lib.withDrives mint p = .ok lib') (ht : Tidy lib.topology lib.inventory)
    (hp : p.driveTarget = if n ≠ lib.topology.numDrives then some n else none) :
    Tidy lib'.topology lib'.inventory ∧ lib'.topology = { lib.topology with numDrives := n } := by
  by_cases heq : n = lib.topology.numDrives
  · subst heq
    simp only [ne_eq, not_true_eq_false, if_false] at hp
    simp only [withDrives, hp] at h
    cases h
    exact ⟨ht, rfl⟩
  · simp only [ne_eq, heq, not_false_eq_true, if_true] at hp
    simp only [withDrives, hp] at h
    cases he : evacuateAll lib.inventory p.driveEvacuations with
    | error err =>
      rw [he] at h
      cases h
    | ok inv =>
      rw [he] at h
      cases h
      have ht' : Tidy lib.topology inv := (evacuateAll_ids he).trans ht
      exact ⟨tidy_resizeDrives ht' mint n, rfl⟩

/-- **A plan applied to a tidy library leaves a tidy one at the declared counts.** -/
theorem applyPlan_tidy (h : lib.applyPlan mint (lib.plan d) = .ok lib') (ht : Tidy lib.topology lib.inventory) :
    Tidy lib'.topology lib'.inventory ∧ ∃ fw lto, lib'.topology = { lib.topology with
        numStorageSlots := d.numStorageSlots, numDrives := d.numDrives, firmware := fw, ltoGeneration := lto } := by
  obtain ⟨ht1, htop1⟩ := @withStorage_tidy (lib.withFirmware (lib.plan d)) (lib.plan d) d.numStorageSlots ht rfl
  have hdrives : ((lib.withFirmware (lib.plan d)).withStorage (lib.plan d)).topology.numDrives = lib.topology.numDrives := by
    rw [htop1]
    rfl
  obtain ⟨ht2, htop2⟩ := withDrives_tidy (n := d.numDrives) h ht1 (by rw [hdrives]; rfl)
  refine ⟨ht2, (lib.withFirmware (lib.plan d)).topology.firmware, (lib.withFirmware (lib.plan d)).topology.ltoGeneration, ?_⟩
  rw [htop2, htop1]
  rfl

theorem withStorage_ok {slots : Nat} (ht : Tidy lib.topology lib.inventory) (hf : lib.inventory.Filled)
    (hp : p.storageTarget = if slots ≠ lib.topology.numStorageSlots then some slots else none)
    (hfree : slots < lib.topology.numStorageSlots → ∀ s ∈ lib.inventory.storageSlots, slots ≤ s.id → s.occupied = false) :
    (lib.withStorage p).inventory.medium = lib.inventory.medium ∧ (lib.withStorage p).inventory.Filled ∧
      (lib.withStorage p).inventory.drives = lib.inventory.drives := by
  by_cases heq : slots = lib.topology.numStorageSlots
  · subst heq
    simp only [ne_eq, not_true_eq_false, if_false] at hp
    simp only [withStorage, hp]
    exact ⟨trivial, hf, trivial⟩
  · simp only [ne_eq, heq, not_false_eq_true, if_true] at hp
    have hcut : ∀ id, slots ≤ id → lib.inventory.medium (.storage id) = none := by
      intro id hid
      cases hm : lib.inventory.medium (.storage id) with
      | none => rfl
      | some b =>
        have hin : id < lib.topology.numStorageSlots := ht.inside hm
        obtain ⟨s, hmem, rfl, hocc⟩ := slot_of_medium hm
        rw [hfree (by omega) s hmem hid] at hocc
        cases hocc
    simp only [withStorage, hp]
    exact ⟨(cut_resizeStorage ht _).medium hcut, (cut_resizeStorage ht _).filled hf, rfl⟩

theorem evacuations_of_leaves (hd : inv.Distinct) (hf : inv.Filled)
    (h : evacuateAll inv ((inv.drives.filter (Leaves d)).map evacuationOf) = .ok inv') :
    Evacuated inv ((inv.drives.filter (Leaves d)).map evacuationOf) inv' := by
  refine evacuateAll_ok h ?_ ?_
  · rw [List.map_map]
    exact hd.2.2.sublist (List.filter_sublist.map DriveInfo.id)
  · intro ev hev
    obtain ⟨v, hv, rfl⟩ := List.mem_map.1 hev
    obtain ⟨hv, hl⟩ := List.mem_filter.1 hv
    exact medium_of_leaves hd hf hv hl

theorem withDrives_ok
    (h : lib.withDrives mint p = .ok lib') (ht : Tidy lib.topology lib.inventory) (hf : lib.inventory.Filled)
    (hp : p.driveTarget = if d.numDrives ≠ lib.topology.numDrives then some d.numDrives else none)
    (hev : p.driveEvacuations =
      if d.numDrives < lib.topology.numDrives then (lib.inventory.drives.filter (Leaves d)).map evacuationOf else []) :
    Placement.Rearranges lib.inventory.medium lib'.inventory.medium ∧ lib'.inventory.Filled ∧
      (d.numDrives < lib.topology.numDrives → ∀ v ∈ lib.inventory.drives, Leaves d v →
        lib'.inventory.medium (.storage (originOf v)) = some (evacuationOf v).barcode) := by
  by_cases heq : d.numDrives = lib.topology.numDrives
  · simp only [ne_eq, heq, not_true_eq_false, if_false] at hp
    simp only [withDrives, hp] at h
    cases h
    exact ⟨.refl _, hf, fun hlt => by omega⟩
  simp only [ne_eq, heq, not_false_eq_true, if_true] at hp
  simp only [withDrives, hp] at h
  cases he : evacuateAll lib.inventory p.driveEvacuations with
  | error err =>
    rw [he] at h
    cases h
  | ok inv =>
    rw [he] at h
    cases h
    by_cases hlt : d.numDrives < lib.topology.numDrives
    · rw [hev, if_pos hlt] at he
      have hevac := evacuations_of_leaves ht.distinct hf he
      have ht' : Tidy lib.topology inv := hevac.ids.trans ht
      have hcut : ∀ id, d.numDrives ≤ id → inv.medium (.drive id) = none := by
        intro id hid
        by_cases hin : id ∈ ((lib.inventory.drives.filter (Leaves d)).map evacuationOf).map DriveEvacuation.driveId
        · obtain ⟨ev, hmem, rfl⟩ := mem_map.1 hin
          exact hevac.cleared ev hmem
        · rw [hevac.others id hin]
          cases hm : lib.inventory.medium (.drive id) with
          | none => rfl
          | some b =>
            obtain ⟨v, hv, rfl, hocc, -⟩ := drive_of_medium hm
            refine absurd (mem_map_of_mem (mem_map_of_mem (mem_filter.2 ⟨hv, ?_⟩))) hin
            simp [Leaves, hocc, hid]
      have hd := @cut_resizeDrives ⟨lib.topology, inv⟩ ht' mint d.numDrives
      have hres := hd.medium hcut
      refine ⟨?_, hd.filled (hevac.filled hf), ?_⟩
      · rw [hres]
        exact hevac.rearranges
      · intro _ v hv hl
        rw [hres]
        exact hevac.arrived (evacuationOf v) (mem_map_of_mem (mem_filter.2 ⟨hv, hl⟩))
    · rw [hev, if_neg hlt] at he
      cases he
      have hcut : ∀ id, d.numDrives ≤ id → lib.inventory.medium (.drive id) = none := fun id hid =>
        medium_of_entry_none (entry_drive_beyond ht (by omega))
      refine ⟨?_, (cut_resizeDrives ht mint _).filled hf, fun h => absurd h hlt⟩
      rw [(cut_resizeDrives ht mint _).medium hcut]
      exact .refl _

/-- **An accepted plan rearranges the cartridges**; the drives that went have left theirs in their origin slots. -/
theorem applyPlan_ok (ha : Accepted lib d) (h : lib.applyPlan mint (lib.plan d) = .ok lib')
    (ht : Tidy lib.topology lib.inventory) (hf : lib.inventory.Filled) :
    Placement.Rearranges lib.inventory.medium lib'.inventory.medium ∧ lib'.inventory.Filled ∧
      (d.numDrives < lib.topology.numDrives → ∀ v ∈ lib.inventory.drives, Leaves d v →
        lib'.inventory.medium (.storage (originOf v)) = some (evacuationOf v).barcode) := by
  obtain ⟨ht1, htop1⟩ := @withStorage_tidy (lib.withFirmware (lib.plan d)) (lib.plan d) d.numStorageSlots ht rfl
  obtain ⟨hm1, hf1, hv1⟩ :=
    @withStorage_ok (lib.withFirmware (lib.plan d)) (lib.plan d) d.numStorageSlots ht hf rfl ha.storage
  have hdrives : ((lib.withFirmware (lib.plan d)).withStorage (lib.plan d)).topology.numDrives = lib.topology.numDrives := by
    rw [htop1]
    rfl
  have hv1' : ((lib.withFirmware (lib.plan d)).withStorage (lib.plan d)).inventory.drives = lib.inventory.drives := hv1
  obtain ⟨hr2, hf2, horigin⟩ := withDrives_ok (d := d) h ht1 hf1 (by rw [hdrives]; rfl)
    (by rw [hdrives, hv1']; exact ha.evacuations)
  rw [hdrives, hv1'] at horigin
  rw [hm1] at hr2
  exact ⟨hr2, hf2, horigin⟩

theorem applyPlan_same
    (h : lib.applyPlan mint (lib.plan d) = .ok lib') (hslots : d.numStorageSlots = lib.topology.numStorageSlots)
    (hdrives : d.numDrives = lib.topology.numDrives) : lib' = lib.withFirmware (lib.plan d) := by
  have hst : (lib.plan d).storageTarget = none := by simp [plan, hslots]
  have hdt : (lib.plan d).driveTarget = none := by simp [plan, hdrives]
  simp only [applyPlan, withStorage, hst, withDrives, hdt] at h
  cases h
  rfl

/-- A start that stops between its writes has no drive to evacuate, and files left apart are not resized. -/
def Careful (lib : Library) (a : Start) : Prop :=
  (a.writes = .libraryOnly → ∀ v ∈ lib.inventory.drives, v.occupied → v.id < a.declared.numDrives) ∧
    (¬ Tidy lib.topology lib.inventory → a.declared.numStorageSlots = lib.topology.numStorageSlots ∧
      a.declared.numDrives = lib.topology.numDrives)
deriving Decidable

end Library

/-! ## Whole starts -/

namespace Disk

open LibraryInventory Library

def load (s : Disk) : Option Library :=
  match s.library, s.inventory with
  | some v2, some inv => some ⟨topologyFromDisk v2, inv⟩
  | _, _ => none

def Refuses (s : Disk) (a : Start) : Prop := ∃ err, openOrMaterialize a.mint s a.declared = .error err

variable {s s' : Disk} {a : Start} {lib : Library} {mint : Mint} {lib' : Library} {d : DeclaredTopology}

theorem load_some (h : s.load = some lib) : ∃ v2, s.library = some v2 ∧ s.inventory = some lib.inventory ∧
    lib.topology = topologyFromDisk v2 := by
  unfold load at h
  split at h <;> cases h
  next v2 inv h1 h2 =>
    exact ⟨v2, h1, h2, rfl⟩

theorem start_of_refuses (h : s.Refuses a) : s.start a = s := by
  obtain ⟨err, herr⟩ := h
  rw [start, herr]

theorem start_cases (hl : s.load = some lib) (a : Start) : s.Refuses a ∨ ∃ lib', Accepted lib a.declared ∧
    lib.applyPlan a.mint (lib.plan a.declared) = .ok lib' ∧ s.start a = persistV2 a.mint lib' s a.writes := by
  obtain ⟨v2, hv2, hinv, htop⟩ := load_some hl
  have heta : lib = ⟨topologyFromDisk v2, lib.inventory⟩ := by rw [← htop]
  cases ho : openOrMaterialize a.mint s a.declared with
  | error err => exact .inl ⟨err, ho⟩
  | ok r =>
    refine .inr ?_
    have hstart : s.start a = persistV2 a.mint r.1 s a.writes := by rw [start, ho]
    simp only [openOrMaterialize, hv2, hinv] at ho
    split at ho
    · cases ho
    rw [← heta] at ho
    cases hd : lib.diffAgainstDeclared a.declared with
    | error err =>
      rw [hd] at ho
      cases ho
    | ok p =>
      obtain ⟨rfl, hacc⟩ := diffAgainstDeclared_ok hd
      rw [hd] at ho
      cases happ : lib.applyPlan a.mint (lib.plan a.declared) with
      | error err =>
        simp only [happ] at ho
        cases ho
      | ok lib' =>
        simp only [happ] at ho
        cases ho
        exact ⟨lib', hacc, rfl, hstart⟩

theorem sound_fromDisk (hm : t.numMailSlots = mailSlotCount)
    (h : Sound t inv) : Sound (topologyFromDisk (diskFromTopology mint t)) inv := by
  refine ⟨h.distinct, h.filled, h.once, fun e b hb => ?_⟩
  have := h.inside e b hb
  cases e with
  | storage | drive => exact this
  | mail => exact Nat.lt_of_lt_of_eq this hm

structure Keeps (lib lib' : Library) : Prop where
  sound : Sound lib'.topology lib'.inventory
  rearranges : Placement.Rearranges lib.inventory.medium lib'.inventory.medium
  origin : ∀ v ∈ lib.inventory.drives, v.occupied → ∀ b, v.barcode = some b → lib'.topology.numDrives ≤ v.id →
    ∃ home, v.homeSlot = some home ∧ lib'.inventory.medium (.storage home) = some b

theorem origin_of_inside (h : ∀ v ∈ lib.inventory.drives, v.occupied → v.id < lib'.topology.numDrives) :
    ∀ v ∈ lib.inventory.drives, v.occupied → ∀ b, v.barcode = some b → lib'.topology.numDrives ≤ v.id →
      ∃ home, v.homeSlot = some home ∧ lib'.inventory.medium (.storage home) = some b :=
  fun v hv hocc _ _ hle => absurd (h v hv hocc) (by omega)

theorem drive_inside (hs : Sound lib.topology lib.inventory) : ∀ v ∈ lib.inventory.drives, v.occupied →
    v.id < lib.topology.numDrives := by
  intro v hv hocc
  have he : lib.inventory.entry (.drive v.id) = some (true, v.barcode) := by
    rw [entry, getDrive, get_of_mem hs.distinct.2.2 hv]
    simp [hocc]
  obtain ⟨b, hb⟩ := isSome_iff_exists.1 (hs.filled _ _ he)
  exact hs.inside (.drive v.id) b (medium_drive_mem hs.distinct hv hocc hb)

theorem keeps_both (hm : lib.topology.numMailSlots = mailSlotCount)
    (hs : Sound lib.topology lib.inventory) (hacc : Accepted lib d) (happ : lib.applyPlan mint (lib.plan d) = .ok lib')
    (hc : ¬ Tidy lib.topology lib.inventory → d.numStorageSlots = lib.topology.numStorageSlots ∧
      d.numDrives = lib.topology.numDrives) :
    Keeps lib ⟨topologyFromDisk (diskFromTopology mint lib'.topology), lib'.inventory⟩ := by
  by_cases ht : Tidy lib.topology lib.inventory
  · obtain ⟨ht', fw, lto, htop⟩ := applyPlan_tidy happ ht
    obtain ⟨hr, hf, horigin⟩ := applyPlan_ok hacc happ ht hs.filled
    have hdrives : lib'.topology.numDrives = d.numDrives := by rw [htop]
    have hmail : lib'.topology.numMailSlots = lib.topology.numMailSlots := by rw [htop]
    refine ⟨sound_fromDisk (hmail.trans hm) ⟨ht'.distinct, hf, hr.once hs.once, fun e b hb => ht'.inside hb⟩, hr, ?_⟩
    intro v hv hocc b hb hle
    have hle : d.numDrives ≤ v.id := hdrives ▸ hle
    have hlt : d.numDrives < lib.topology.numDrives := Nat.lt_of_le_of_lt hle (drive_inside hs v hv hocc)
    have hleaves : Leaves d v := by simp [Leaves, hle, hocc]
    have hhome := hacc.origins hlt v hv hleaves
    have hmed := horigin hlt v hv hleaves
    cases hh : v.homeSlot with
    | none =>
      -- an origin of `u32::MAX` is out of range of every declared count
      have hvalid := hacc.declared
      simp only [originOf, hh, getD_none] at hhome
      simp only [validateDeclared] at hvalid
      split at hvalid
      · cases hvalid
      · next hrange => exact absurd (not_not.1 hrange).2 (by omega)
    | some home =>
      refine ⟨home, rfl, ?_⟩
      rwa [originOf, hh, evacuationOf, hb] at hmed
  · obtain ⟨hslots, hdrives⟩ := hc ht
    have hlib' := applyPlan_same happ hslots hdrives
    subst hlib'
    have hsound : Sound (lib.withFirmware (lib.plan d)).topology lib.inventory :=
      ⟨hs.distinct, hs.filled, hs.once, hs.inside⟩
    exact ⟨sound_fromDisk hm hsound, .refl _, origin_of_inside (drive_inside hs)⟩

theorem keeps_libraryOnly (hm : lib.topology.numMailSlots = mailSlotCount)
    (hs : Sound lib.topology lib.inventory) (hacc : Accepted lib d) (happ : lib.applyPlan mint (lib.plan d) = .ok lib')
    (hdrive : ∀ v ∈ lib.inventory.drives, v.occupied → v.id < d.numDrives)
    (hc : ¬ Tidy lib.topology lib.inventory → d.numStorageSlots = lib.topology.numStorageSlots ∧
      d.numDrives = lib.topology.numDrives) :
    Keeps lib ⟨topologyFromDisk (diskFromTopology mint lib'.topology), lib.inventory⟩ := by
  have hcounts : lib'.topology.numStorageSlots = d.numStorageSlots ∧ lib'.topology.numDrives = d.numDrives ∧
      lib'.topology.numMailSlots = lib.topology.numMailSlots := by
    by_cases ht : Tidy lib.topology lib.inventory
    · obtain ⟨-, fw, lto, htop⟩ := applyPlan_tidy happ ht
      rw [htop]
      exact ⟨rfl, rfl, rfl⟩
    · obtain ⟨hslots, hdrives⟩ := hc ht
      rw [applyPlan_same happ hslots hdrives]
      exact ⟨hslots.symm, hdrives.symm, rfl⟩
  obtain ⟨hslots, hdrives, hmail⟩ := hcounts
  have hin : ∀ e b, lib.inventory.medium e = some b → e.Inside lib'.topology := by
    intro e b hb
    have hold := hs.inside e b hb
    cases e with
    | storage id =>
      show id < lib'.topology.numStorageSlots
      rw [hslots]
      obtain ⟨t, ht, rfl, hocc⟩ := slot_of_medium hb
      by_contra hle
      rw [hacc.storage (Nat.lt_of_le_of_lt (by omega) hold) t ht (by omega)] at hocc
      cases hocc
    | mail id =>
      show id < lib'.topology.numMailSlots
      rw [hmail]
      exact hold
    | drive id =>
      show id < lib'.topology.numDrives
      rw [hdrives]
      obtain ⟨v, hv, rfl, hocc, -⟩ := drive_of_medium hb
      exact hdrive v hv hocc
  refine ⟨sound_fromDisk (hmail.trans hm) ⟨hs.distinct, hs.filled, hs.once, hin⟩, .refl _, origin_of_inside ?_⟩
  intro v hv hocc
  exact hdrives.symm ▸ hdrive v hv hocc

theorem start_keeps (hl : s.load = some lib) (hs : Sound lib.topology lib.inventory) (hc : lib.Careful a) :
    ∃ lib', (s.start a).load = some lib' ∧ Keeps lib lib' := by
  obtain ⟨v2, hv2, hinv, htop⟩ := load_some hl
  have hm : lib.topology.numMailSlots = mailSlotCount := by rw [htop]; rfl
  have hsame : Keeps lib lib := ⟨hs, .refl _, origin_of_inside (drive_inside hs)⟩
  rcases start_cases hl a with href | ⟨lib', hacc, happ, hstart⟩
  · rw [start_of_refuses href]
    exact ⟨lib, hl, hsame⟩
  · rw [hstart]
    cases hw : a.writes with
    | none => exact ⟨lib, hl, hsame⟩
    | libraryOnly =>
      refine ⟨⟨topologyFromDisk (diskFromTopology a.mint lib'.topology), lib.inventory⟩, ?_, ?_⟩
      · simp [persistV2, load, hinv]
      · exact keeps_libraryOnly hm hs hacc happ (hc.1 hw) hc.2
    | both =>
      refine ⟨⟨topologyFromDisk (diskFromTopology a.mint lib'.topology), lib'.inventory⟩, ?_, ?_⟩
      · simp [persistV2, load]
      · exact keeps_both hm hs hacc happ hc.2

def CarefulStart (s : Disk) (a : Start) : Prop := ∀ lib ∈ s.load, lib.Careful a
deriving Decidable

/-- **No sequence of careful starts orphans a cartridge**: every barcode is in one element within the persisted counts,
and a refused start changes neither file. -/
theorem starts_keep_cartridges {as : List Start} (hl : s.load = some lib) (hs : Sound lib.topology lib.inventory)
    (hm : starts.Meets CarefulStart s as) (hr : starts.run s as = some s') :
    ∃ lib', s'.load = some lib' ∧
      (∀ b, lib.inventory.medium.Has b →
        ∃ e, e.Inside lib'.topology ∧ ∀ e', lib'.inventory.medium e' = some b ↔ e' = e) ∧
      lib'.inventory.Distinct ∧
      ∀ a, (s'.Refuses a → s'.start a = s') ∧
        (lib'.Careful a → ∀ v ∈ lib'.inventory.drives, v.occupied → ∀ b, v.barcode = some b →
          ∀ lib'', (s'.start a).load = some lib'' → lib''.topology.numDrives ≤ v.id →
            ∃ home, v.homeSlot = some home ∧ lib''.inventory.medium (.storage home) = some b) := by
  obtain ⟨lib', hl', hs', hr'⟩ : ∃ lib', s'.load = some lib' ∧ Sound lib'.topology lib'.inventory ∧
      Placement.Rearranges lib.inventory.medium lib'.inventory.medium := by
    have hstep : ∀ s1 a s2, (∃ lib1, s1.load = some lib1 ∧ Sound lib1.topology lib1.inventory ∧
        Placement.Rearranges lib.inventory.medium lib1.inventory.medium) → CarefulStart s1 a → starts.step s1 a = some s2 →
        ∃ lib2, s2.load = some lib2 ∧ Sound lib2.topology lib2.inventory ∧
          Placement.Rearranges lib.inventory.medium lib2.inventory.medium := by
      rintro s1 a s2 ⟨lib1, hl1, hs1, hr1⟩ hok hs2
      obtain ⟨lib2, hl2, hk⟩ := start_keeps hl1 hs1 (hok lib1 hl1)
      cases hs2
      exact ⟨lib2, hl2, hk.sound, hr1.trans hk.rearranges⟩
    exact starts.run_inv hstep ⟨lib, hl, hs, .refl _⟩ hm hr
  refine ⟨lib', hl', ?_, hs'.distinct, ?_⟩
  · intro b hb
    obtain ⟨e, he, huniq⟩ := hs'.once.existsUnique ((hr'.has_iff b).2 hb)
    refine ⟨e, hs'.inside e b he, fun e' => ⟨huniq e', ?_⟩⟩
    rintro rfl
    exact he
  · intro a
    refine ⟨start_of_refuses, fun hc v hv hocc b hb lib'' hl'' hle => ?_⟩
    obtain ⟨lib2, hl2, hk⟩ := start_keeps hl' hs' hc
    rw [hl2] at hl''
    cases hl''
    exact hk.origin v hv hocc b hb hle

/-! ## A drive shrink, finished and stopped between its writes -/

def loadedDrive : Library where
  topology := ⟨3, 1, 2, 8, none, some "TVL0", [], 0, 1001, 101, 1⟩
  inventory := {
    storageSlots := [⟨0, some "B", true⟩, ⟨1, none, false⟩, ⟨2, none, false⟩]
    mailSlots := [⟨0, none, false, true⟩]
    drives := [⟨0, none, false, none, some "D0"⟩, ⟨1, some "A", true, some 2, some "D1"⟩] }

def loadedDriveDisk : Disk where
  root := "/library"
  library := some ⟨2, ⟨3, 2, 8, none⟩, ⟨"TVL0", 0, 1001, 101, 1⟩, []⟩
  inventory := some loadedDrive.inventory

def shrinkDrives (writes : Writes) : Start := ⟨⟨"TVL1", fun _ => "D"⟩, ⟨3, 1, 8, none⟩, writes⟩

theorem loadedDrive_sound : Sound loadedDrive.topology loadedDrive.inventory :=
  Tidy.sound (by decide) (by decide) (by decide)

def growDrives (writes : Writes) : Start := { shrinkDrives writes with declared := ⟨3, 2, 8, none⟩ }

/-- A start stopped before its writes, the shrink, and a growth that is stopped between its writes and taken up again. -/
def resizes : List Start := [shrinkDrives .none, shrinkDrives .both, growDrives .libraryOnly, growDrives .both]

theorem starts_keep_cartridges_shrinkDrives : ∃ s', starts.run loadedDriveDisk resizes = some s' ∧
    ∃ lib', s'.load = some lib' ∧ lib'.topology.numDrives = 2 ∧ lib'.inventory.medium (.storage 2) = some "A" ∧
      ∃ e, e.Inside lib'.topology ∧ ∀ e', lib'.inventory.medium e' = some "A" ↔ e' = e := by
  obtain ⟨s', hs', lib, hlib, hdrives, hmed⟩ : ∃ s' ∈ starts.run loadedDriveDisk resizes,
      ∃ lib ∈ s'.load, lib.topology.numDrives = 2 ∧ lib.inventory.medium (.storage 2) = some "A" := by decide +kernel
  have hload : loadedDriveDisk.load = some loadedDrive := rfl
  obtain ⟨lib', hl', hall, -⟩ := starts_keep_cartridges hload loadedDrive_sound (by decide +kernel) hs'
  rw [hlib] at hl'
  cases hl'
  exact ⟨s', hs', lib, hlib, hdrives, hmed, hall "A" ⟨.drive 1, by decide +kernel⟩⟩

/-- A start stopped between its writes, then a complete one: `A` is in a drive that the topology does not have. -/
theorem stopped_shrink_orphans : loadedDrive.inventory.medium.Has "A" ∧
    ∃ s', starts.run loadedDriveDisk [shrinkDrives .libraryOnly, shrinkDrives .both] = some s' ∧
      ∃ lib', s'.load = some lib' ∧ ¬ ∃ e, e.Inside lib'.topology ∧ lib'.inventory.medium e = some "A" := by
  obtain ⟨s', hs', lib', hl', htop, hinv⟩ :
      ∃ s' ∈ starts.run loadedDriveDisk [shrinkDrives .libraryOnly, shrinkDrives .both], ∃ lib' ∈ s'.load,
        lib'.topology.numDrives = 1 ∧ lib'.inventory = loadedDrive.inventory := by decide +kernel
  refine ⟨⟨.drive 1, by decide +kernel⟩, s', hs', lib', hl', ?_⟩
  rintro ⟨e, hin, he⟩
  rw [hinv] at he
  have hdrive : e = .drive 1 := loadedDrive_sound.once e (.drive 1) "A" he (by decide +kernel)
  subst hdrive
  exact absurd (htop ▸ hin : 1 < 1) (by decide)

end Disk

end Changer
end Thur

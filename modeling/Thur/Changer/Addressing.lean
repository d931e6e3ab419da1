import Thur.Changer.Orphans
/-!
# Addressing — element addresses and partitions over reconcile histories

A library comes from a first materialization, later starts with other declared counts, and `set_partitions` calls. Its
addresses are well formed exactly up to 64534 slots and 100 drives: the validator runs at materialization only, and
admits a storage range that ends at 2^16. Partitions cover the chassis as long as no later start grows it.
-/
namespace Thur.Changer

/-! ## Marks and coverage -/

open ElementAddressConfig LibraryPartition
open List LibraryInventory

def owners (has : LibraryPartition → Nat → Bool) (ps : List LibraryPartition) (id : Nat) : Nat := ps.countP (has · id)

def LibraryPartition.hasStorageSlot (p : LibraryPartition) (id : Nat) : Bool := p.storageSlots.contains id
def LibraryPartition.hasMailSlot (p : LibraryPartition) (id : Nat) : Bool := p.mailSlots.contains id
def LibraryPartition.hasDrive (p : LibraryPartition) (id : Nat) : Bool := decide (id ∈ p.drives)

/-- An id is marked if it has an owner, and none has two. -/
def Marks (has : LibraryPartition → Nat → Bool) (done : List LibraryPartition) (seen : List Bool) (n : Nat) : Prop :=
  seen.length = n ∧ ∀ id < n, owners has done id = if seen.getD id false then 1 else 0

theorem marks_replicate (has : LibraryPartition → Nat → Bool) (n : Nat) : Marks has [] (List.replicate n false) n := by
  refine ⟨length_replicate, fun id hid => ?_⟩
  simp [owners, getD_eq_getElem?_getD, hid]

theorem mem_ids (r : SlotRange) (id : Nat) : id ∈ r.ids ↔ r.contains id = true := by
  simp only [SlotRange.ids, SlotRange.contains, mem_map, mem_range, decide_eq_true_eq]
  constructor
  · rintro ⟨i, hi, rfl⟩
    omega
  · rintro ⟨hlo, hhi⟩
    exact ⟨id - r.start, by omega, by omega⟩

variable {text : Nat → String} {seen : List Bool} {p : LibraryPartition} {count slots mail drives start : Nat}

theorem markAll_ok : ∀ {ids : List Nat} {seen seen' : List Bool}, markAll text ids seen = .ok seen' →
    (∀ id ∈ ids, id < seen.length) → seen'.length = seen.length ∧
      (∀ id, seen'.getD id false = (seen.getD id false || decide (id ∈ ids))) ∧ ∀ id ∈ ids, seen.getD id false = false
  | [], seen, seen', h, _ => by
    cases h
    simp
  | i :: ids, seen, seen', h, hlt => by
    rw [markAll] at h
    split at h
    · cases h
    next hi =>
    have hi' : i < seen.length := hlt i mem_cons_self
    obtain ⟨hlen, hget, hfree⟩ := markAll_ok h (fun id hid => by
      rw [length_set]
      exact hlt id (mem_cons_of_mem _ hid))
    have hset : ∀ id, (seen.set i true).getD id false = (seen.getD id false || decide (id = i)) := by
      intro id
      simp only [getD_eq_getElem?_getD, getElem?_set]
      by_cases hid : i = id
      · subst hid
        simp [hi']
      · simp [hid, Ne.symm hid]
    refine ⟨by rw [hlen, length_set], fun id => ?_, ?_⟩
    · rw [hget, hset, Bool.or_assoc]
      simp [mem_cons]
    · intro id hid
      rcases mem_cons.1 hid with rfl | hid
      · simpa using hi
      · have := hfree id hid
        rw [hset] at this
        exact (Bool.or_eq_false_iff.1 this).1

variable {has : LibraryPartition → Nat → Bool} {ps : List LibraryPartition} {done : List LibraryPartition}
  {seen' : List Bool}

theorem Marks.snoc {n : Nat}
    {ids : List Nat} (h : Marks has done seen n) (hids : ∀ id, id ∈ ids ↔ has p id = true) (hlt : ∀ id ∈ ids, id < n)
    (hm : markAll text ids seen = .ok seen') : Marks has (done ++ [p]) seen' n := by
  obtain ⟨hlen, hcount⟩ := h
  obtain ⟨hlen', hget, hfree⟩ := markAll_ok hm (by rw [hlen]; exact hlt)
  refine ⟨hlen'.trans hlen, fun id hid => ?_⟩
  have hstep : owners has (done ++ [p]) id = owners has done id + if has p id then 1 else 0 := by
    simp only [owners, countP_append]
    congr 1
    cases hp : has p id <;> simp [hp]
  rw [hstep, hcount id hid, hget]
  by_cases hp : has p id = true
  · rw [hfree id ((hids id).2 hp)]
    simp [hp, (hids id).2 hp]
  · have hn : id ∉ ids := fun h => hp ((hids id).1 h)
    simp [hp, hn]

theorem markRange_ok {kind : String} {r : SlotRange}
    (h : markRange p kind r count seen = .ok seen') : r.stop ≤ count ∧ ∃ text, markAll text r.ids seen = .ok seen' := by
  rw [markRange] at h
  split at h
  · cases h
  split at h
  · cases h
  · exact ⟨by omega, _, h⟩

theorem markDrives_ok : ∀ {ds : List Nat} {seen seen' : List Bool},
    markDrives p count ds seen = .ok seen' → (∀ v ∈ ds, v < count) ∧
      markAll (fun d => s!"partition '{p.name}' drive {d} overlaps another partition") ds seen = .ok seen'
  | [], seen, seen', h => by
    cases h
    exact ⟨by simp, rfl⟩
  | v :: ds, seen, seen', h => by
    rw [markDrives] at h
    split at h
    · cases h
    next hv =>
    split at h
    · cases h
    next hs =>
    obtain ⟨hlt, hm⟩ := markDrives_ok h
    refine ⟨?_, by rw [markAll, if_neg hs]; exact hm⟩
    intro w hw
    rcases mem_cons.1 hw with rfl | hw
    · omega
    · exact hlt w hw

def LibraryPartition.Within (p : LibraryPartition) (slots drives : Nat) : Prop :=
  p.storageSlots.stop ≤ slots ∧ ∀ v ∈ p.drives, v < drives

structure Covers (done : List LibraryPartition) (seen : Seen) (numSlots numMail numDrives : Nat) : Prop where
  storage : Marks hasStorageSlot done seen.storage numSlots
  mail : Marks hasMailSlot done seen.mail numMail
  drives : Marks hasDrive done seen.drives numDrives
  within : ∀ p ∈ done, p.Within numSlots numDrives

theorem checkPartition_ok {seen seen' : Seen} (hc : Covers done seen slots mail drives)
    (h : checkPartition slots mail drives seen p = .ok seen') : Covers (done ++ [p]) seen' slots mail drives := by
  unfold checkPartition at h
  obtain ⟨names, _, h⟩ := bind_eq_ok h
  obtain ⟨storage, hs, h⟩ := bind_eq_ok h
  obtain ⟨mailSeen, hm, h⟩ := bind_eq_ok h
  obtain ⟨driveSeen, hd, h⟩ := bind_eq_ok h
  cases h
  obtain ⟨hsle, ts, hsm⟩ := markRange_ok hs
  obtain ⟨hmle, tm, hmm⟩ := markRange_ok hm
  obtain ⟨hdlt, hdm⟩ := markDrives_ok hd
  have hrange : ∀ {r : SlotRange} {n : Nat}, r.stop ≤ n → ∀ id ∈ r.ids, id < n := by
    intro r n hle id hid
    rw [mem_ids, SlotRange.contains, decide_eq_true_eq] at hid
    omega
  refine ⟨hc.storage.snoc (mem_ids _) (hrange hsle) hsm, hc.mail.snoc (mem_ids _) (hrange hmle) hmm,
    hc.drives.snoc (fun id => by simp [hasDrive]) hdlt hdm, ?_⟩
  intro q hq
  rcases mem_append.1 hq with hq | hq
  · exact hc.within q hq
  · rw [mem_singleton.1 hq]
    exact ⟨hsle, hdlt⟩

theorem foldlM_checkPartition_ok : ∀ {ps done : List LibraryPartition} {seen seen' : Seen},
    Covers done seen slots mail drives → ps.foldlM (checkPartition slots mail drives) seen = .ok seen' →
      Covers (done ++ ps) seen' slots mail drives
  | [], done, seen, seen', hc, h => by
    cases h
    simpa using hc
  | p :: ps, done, seen, seen', hc, h => by
    rw [List.foldlM_cons] at h
    obtain ⟨seen1, hp, h⟩ := bind_eq_ok h
    have := foldlM_checkPartition_ok (checkPartition_ok hc hp) h
    simpa using this

theorem requireCovered_ok (h : requireCovered text seen = .ok ()) : ∀ id < seen.length, seen.getD id false = true := by
  unfold requireCovered at h
  split at h
  · cases h
  next hnone =>
  intro id hid
  rw [findIdx?_eq_none_iff] at hnone
  have := hnone seen[id] (getElem_mem hid)
  simpa [getD_eq_getElem?_getD, hid] using this

structure Partitioned (ps : List LibraryPartition) (slots mail drives : Nat) : Prop where
  storage : ∀ id < slots, owners hasStorageSlot ps id = 1
  mail : ∀ id < mail, owners hasMailSlot ps id = 1
  drives : ∀ id < drives, owners hasDrive ps id = 1

theorem covered_of_marks {n : Nat}
    (hm : Marks has ps seen n) (h : requireCovered text seen = .ok ()) : ∀ id < n, owners has ps id = 1 := by
  intro id hid
  rw [hm.2 id hid, requireCovered_ok h id (by rw [hm.1]; exact hid), if_pos rfl]

/-- **What `validate_partitions` accepts**: no partition, or an exact cover within the counts. -/
theorem validatePartitions_ok (h : validatePartitions ps slots mail drives = .ok ())
    (hne : ps ≠ []) : Partitioned ps slots mail drives ∧ ∀ p ∈ ps, p.Within slots drives := by
  unfold validatePartitions at h
  rw [if_neg (by simpa using hne)] at h
  obtain ⟨seen, hf, h⟩ := bind_eq_ok h
  obtain ⟨_, hs, h⟩ := bind_eq_ok h
  obtain ⟨_, hm, hd⟩ := bind_eq_ok h
  have hcov : Covers ([] ++ ps) seen slots mail drives :=
    foldlM_checkPartition_ok ⟨marks_replicate _ _, marks_replicate _ _, marks_replicate _ _, by simp⟩ hf
  rw [nil_append] at hcov
  exact ⟨⟨covered_of_marks hcov.storage hs, covered_of_marks hcov.mail hm, covered_of_marks hcov.drives hd⟩, hcov.within⟩

/-! ## Addresses -/

/-- The two maps are inverse on exactly the range, and neither overflows. -/
def Inverse (toAddress : Nat → Option Nat) (toId : Nat → Option (Option Nat)) (start count : Nat) : Prop :=
  (∀ id < count, toAddress id = some (start + id)) ∧
    ∀ a < 65536, toId a = some (if start ≤ a ∧ a < start + count then some (a - start) else none)

theorem inRange_eq (h : start + count < 65536) (a : Nat) :
    inRange a start count = some (decide (start ≤ a ∧ a < start + count)) := by
  unfold inRange addU16
  by_cases ha : start ≤ a
  · simp [ha, h]
  · simp [ha]

theorem inverse_of_lt (h : start + count < 65536) :
    Inverse (fun id => addU16 start (id % 65536)) (fun a => addressToId a start count) start count := by
  constructor
  · intro id hid
    simp only [addU16, Nat.mod_eq_of_lt (by omega : id < 65536)]
    rw [if_pos (by omega)]
  · intro a _
    simp [addressToId, inRange_eq h]

theorem not_inverse_of_le {toAddress : Nat → Option Nat} (hs : start < 65536) (h : 65536 ≤ start + count) :
    ¬ Inverse toAddress (fun a => addressToId a start count) start count := by
  rintro ⟨-, hid⟩
  have := hid start hs
  simp [addressToId, inRange, addU16, Nat.not_lt.2 h] at this

namespace Library

def elementConfig (lib : Library) : ElementAddressConfig where
  transportStart := lib.topology.transportBase
  storageStart := lib.topology.storageBase
  storageCount := lib.inventory.storageSlots.length % 65536
  importExportStart := lib.topology.importExportBase
  importExportCount := lib.inventory.mailSlots.length % 65536
  dataTransferStart := lib.topology.dataTransferBase
  dataTransferCount := lib.inventory.drives.length % 65536

def span (lib : Library) : ElementType → Nat × Nat
  | .mediumTransport => (lib.topology.transportBase, 1)
  | .storage => (lib.topology.storageBase, lib.inventory.storageSlots.length)
  | .importExport => (lib.topology.importExportBase, lib.inventory.mailSlots.length)
  | .dataTransfer => (lib.topology.dataTransferBase, lib.inventory.drives.length)

def InSpan (lib : Library) (k : ElementType) (a : Nat) : Prop := (lib.span k).1 ≤ a ∧ a < (lib.span k).1 + (lib.span k).2
deriving Decidable

structure WellAddressed (lib : Library) : Prop where
  disjoint : ∀ k k' a, lib.InSpan k a → lib.InSpan k' a → k = k'
  fits : ∀ k a, lib.InSpan k a → a < 65536
  types : ∀ a < 65536, ∃ t, lib.elementConfig.elementTypeFromAddress a = some t ∧ ∀ k, t = some k ↔ lib.InSpan k a
  storage : Inverse lib.elementConfig.storageIdToAddress lib.elementConfig.addressToStorageId (lib.span .storage).1
    (lib.span .storage).2
  mail : Inverse lib.elementConfig.mailIdToAddress lib.elementConfig.addressToMailId (lib.span .importExport).1
    (lib.span .importExport).2
  drives : Inverse lib.elementConfig.driveIdToAddress lib.elementConfig.addressToDriveId (lib.span .dataTransfer).1
    (lib.span .dataTransfer).2

/-- The minted bases, and counts that a declared topology can have. -/
structure Minted (lib : Library) : Prop where
  transport : lib.topology.transportBase = transportBase
  storage : lib.topology.storageBase = storageBase
  mail : lib.topology.importExportBase = importExportBase
  drives : lib.topology.dataTransferBase = dataTransferBase
  mailCount : lib.inventory.mailSlots.length = 1
  slotCount : lib.inventory.storageSlots.length ≤ 65535
  driveCount : lib.inventory.drives.length ≤ 255

theorem types_of_small {lib : Library} (h : lib.Minted) (hs : lib.inventory.storageSlots.length ≤ 64534)
    (hd : lib.inventory.drives.length ≤ 100) (a : Nat) :
    ∃ t, lib.elementConfig.elementTypeFromAddress a = some t ∧ ∀ k, t = some k ↔ lib.InSpan k a := by
  have hspan : ∀ k, lib.InSpan k a ↔ match k with
      | .mediumTransport => a = 0
      | .storage => 1001 ≤ a ∧ a < 1001 + lib.inventory.storageSlots.length
      | .importExport => a = 101
      | .dataTransfer => 1 ≤ a ∧ a < 1 + lib.inventory.drives.length := by
    intro k
    cases k <;> simp only [InSpan, span, h.transport, h.storage, h.mail, h.drives, h.mailCount, transportBase, storageBase,
      importExportBase, dataTransferBase] <;> omega
  have hstorage := inRange_eq (by omega : 1001 + lib.inventory.storageSlots.length < 65536) a
  have hmail := inRange_eq (by omega : 101 + 1 < 65536) a
  have hdrive := inRange_eq (by omega : 1 + lib.inventory.drives.length < 65536) a
  simp only [elementTypeFromAddress, elementConfig, h.transport, h.storage, h.mail, h.drives, h.mailCount,
    transportBase, storageBase, importExportBase, dataTransferBase, Nat.mod_eq_of_lt (by omega : 1 < 65536),
    Nat.mod_eq_of_lt (by omega : lib.inventory.storageSlots.length < 65536),
    Nat.mod_eq_of_lt (by omega : lib.inventory.drives.length < 65536), hstorage, hmail, hdrive]
  by_cases h0 : a = 0
  · refine ⟨some .mediumTransport, by rw [if_pos h0], fun k => ?_⟩
    rw [hspan]
    cases k <;> simp <;> omega
  rw [if_neg h0]
  by_cases h1 : 1001 ≤ a ∧ a < 1001 + lib.inventory.storageSlots.length
  · refine ⟨some .storage, by simp [h1], fun k => ?_⟩
    rw [hspan]
    cases k <;> simp <;> omega
  by_cases h2 : 101 ≤ a ∧ a < 101 + 1
  · refine ⟨some .importExport, by simp [h1, h2], fun k => ?_⟩
    rw [hspan]
    cases k <;> simp <;> omega
  by_cases h3 : 1 ≤ a ∧ a < 1 + lib.inventory.drives.length
  · refine ⟨some .dataTransfer, by simp [h1, h2, h3], fun k => ?_⟩
    rw [hspan]
    cases k <;> simp <;> omega
  · refine ⟨none, by simp [h1, h2, h3], fun k => ?_⟩
    rw [hspan]
    cases k <;> simp <;> omega

/-- **Well formed exactly up to 64534 slots and 100 drives.** -/
theorem wellAddressed_iff {lib : Library} (h : lib.Minted) :
    lib.WellAddressed ↔ lib.inventory.storageSlots.length ≤ 64534 ∧ lib.inventory.drives.length ≤ 100 := by
  constructor
  · intro hw
    constructor
    · by_contra hgt
      have hmod : lib.inventory.storageSlots.length % 65536 = lib.inventory.storageSlots.length :=
        Nat.mod_eq_of_lt (by have := h.slotCount; omega)
      have hinv : Inverse lib.elementConfig.storageIdToAddress
          (fun a => addressToId a 1001 lib.inventory.storageSlots.length) 1001 lib.inventory.storageSlots.length := by
        have := hw.storage
        unfold addressToStorageId at this
        simpa only [elementConfig, span, h.storage, storageBase, hmod] using this
      exact not_inverse_of_le (by omega) (by omega) hinv
    · by_contra hgt
      have hboth := hw.disjoint .importExport .dataTransfer 101
      simp only [InSpan, span, h.mail, h.drives, h.mailCount, importExportBase, dataTransferBase] at hboth
      exact absurd (hboth (by omega) (by omega)) (by decide)
  · rintro ⟨hs, hd⟩
    have hmodS : lib.inventory.storageSlots.length % 65536 = lib.inventory.storageSlots.length :=
      Nat.mod_eq_of_lt (by omega)
    have hmodD : lib.inventory.drives.length % 65536 = lib.inventory.drives.length := Nat.mod_eq_of_lt (by omega)
    refine ⟨?_, ?_, fun a _ => types_of_small h hs hd a, ?_, ?_, ?_⟩
    · intro k k' a hk hk'
      obtain ⟨t, -, ht⟩ := types_of_small h hs hd a
      have := (ht k).2 hk
      rw [(ht k').2 hk', Option.some.injEq] at this
      exact this.symm
    · intro k a hk
      simp only [InSpan, span] at hk
      cases k <;> simp only [h.transport, h.storage, h.mail, h.drives, h.mailCount, transportBase, storageBase,
        importExportBase, dataTransferBase] at hk <;> omega
    · have := inverse_of_lt (by omega : 1001 + lib.inventory.storageSlots.length < 65536)
      unfold storageIdToAddress addressToStorageId
      simpa only [elementConfig, span, h.storage, storageBase, hmodS] using this
    · have := inverse_of_lt (by omega : 101 + 1 < 65536)
      unfold mailIdToAddress addressToMailId
      simpa only [elementConfig, span, h.mail, importExportBase, h.mailCount] using this
    · have := inverse_of_lt (by omega : 1 + lib.inventory.drives.length < 65536)
      unfold driveIdToAddress addressToDriveId
      simpa only [elementConfig, span, h.drives, dataTransferBase, hmodD] using this

end Library

/-! ## Histories -/

inductive ConfigAct
  | start (mint : Mint) (declared : DeclaredTopology)
  | setPartitions (mint : Mint) (partitions : List LibraryPartition)
  /-- the running daemon moves, adds and removes cartridges -/
  | operate (inventory : LibraryInventory)

namespace Disk

/-- `Library::set_partitions`: the layout is validated, and `library.json` is rewritten. -/
def setPartitions (s : Disk) (mint : Mint) (ps : List LibraryPartition) : Disk :=
  match s.load with
  | none => s
  | some lib =>
    match validatePartitions ps lib.topology.numStorageSlots lib.topology.numMailSlots lib.topology.numDrives with
    | .error _ => s
    | .ok () => { s with library := some (diskFromTopology mint { lib.topology with partitions := ps }) }

def history : Machine Disk ConfigAct where
  step s
    | .start mint d => some (s.start ⟨mint, d, .both⟩)
    | .setPartitions mint ps => some (s.setPartitions mint ps)
    | .operate inv =>
      if s.inventory.map ids = some inv.ids then some { s with inventory := some inv } else none

def empty (root : String) : Disk := ⟨root, none, none⟩

def WellFormed (s : Disk) : Prop := ∀ lib, s.load = some lib → lib.WellAddressed ∧
  (lib.topology.partitions ≠ [] → Partitioned lib.topology.partitions lib.topology.numStorageSlots lib.topology.numMailSlots
    lib.topology.numDrives)

/-- The ranges stay apart and below 2^16, and a partitioned chassis keeps its counts. -/
def Fits (s : Disk) : ConfigAct → Prop
  | .start mint d => (openOrMaterialize mint s d).isOk → d.numStorageSlots ≤ 64534 ∧ d.numDrives ≤ 100 ∧
    ∀ lib ∈ s.load, lib.topology.partitions ≠ [] →
      d.numStorageSlots = lib.topology.numStorageSlots ∧ d.numDrives = lib.topology.numDrives
  | _ => True

instance (s : Disk) (a : ConfigAct) : Decidable (s.Fits a) := by
  cases a <;> unfold Fits <;> infer_instance

structure Regular (lib : Library) : Prop where
  tidy : Tidy lib.topology lib.inventory
  minted : lib.Minted
  partitioned : lib.topology.partitions ≠ [] →
    Partitioned lib.topology.partitions lib.topology.numStorageSlots lib.topology.numMailSlots lib.topology.numDrives ∧
      ∀ p ∈ lib.topology.partitions, p.Within lib.topology.numStorageSlots lib.topology.numDrives

variable {s s' : Disk} {lib lib' : Library} {mint : Mint} {d : DeclaredTopology}

theorem validateDeclared_ok (h : validateDeclared d = .ok ()) : d.numStorageSlots ≤ 65535 ∧ d.numDrives ≤ 255 := by
  simp only [validateDeclared] at h
  split at h
  · cases h
  next hslots =>
  split at h
  · cases h
  next hdrives => exact ⟨(not_not.1 hslots).2, (not_not.1 hdrives).2⟩

structure At (d : DeclaredTopology) (lib' : Library) : Prop where
  tidy : Tidy lib'.topology lib'.inventory
  minted : lib'.Minted
  slots : lib'.topology.numStorageSlots = d.numStorageSlots
  drives : lib'.topology.numDrives = d.numDrives

theorem At.wellAddressed_iff (h : At d lib') : lib'.WellAddressed ↔ d.numStorageSlots ≤ 64534 ∧ d.numDrives ≤ 100 := by
  rw [Library.wellAddressed_iff h.minted, h.tidy.storage_length, h.tidy.drives_length, h.slots, h.drives]

theorem materialize_at (h : materialize mint d = .ok lib) :
    At d lib ∧ lib.topology.partitions = [] ∧ topologyFromDisk (diskFromTopology mint lib.topology) = lib.topology := by
  unfold materialize at h
  obtain ⟨_, hd, h⟩ := bind_eq_ok h
  obtain ⟨_, _, h⟩ := bind_eq_ok h
  obtain ⟨hslots, hdrives⟩ := validateDeclared_ok hd
  cases h
  refine ⟨⟨?_, ⟨rfl, rfl, rfl, rfl, rfl, ?_, ?_⟩, rfl, rfl⟩, rfl, rfl⟩
  · simp [Tidy, ids, Function.comp_def, emptySlot, emptyMailSlot, emptyDrive]
  · simpa using hslots
  · simpa using hdrives

theorem start_materialize (hs : s.library = none) (hok : (openOrMaterialize mint s d).isOk) :
    ∃ lib', (s.start ⟨mint, d, .both⟩).load = some lib' ∧ At d lib' ∧ lib'.topology.partitions = [] := by
  have hopen : openOrMaterialize mint s d = (materialize mint d).map (fun lib => (lib, [.materialized])) := by
    rw [openOrMaterialize, hs]
  cases hm : materialize mint d with
  | error err =>
    rw [hopen, hm] at hok
    cases hok
  | ok lib =>
    obtain ⟨hat, hparts, hdisk⟩ := materialize_at hm
    have hstart : s.start ⟨mint, d, .both⟩ = persistV2 mint lib s .both := by
      rw [start, hopen, hm]
      rfl
    refine ⟨lib, ?_, hat, hparts⟩
    rw [hstart]
    simp [persistV2, load, hdisk]

theorem start_reconcile (hl : s.load = some lib) (hreg : Regular lib) (hok : (openOrMaterialize mint s d).isOk) :
    ∃ lib', (s.start ⟨mint, d, .both⟩).load = some lib' ∧ At d lib' ∧
      lib'.topology.partitions = lib.topology.partitions ∧ lib.partitionBlockers d = [] := by
  rcases start_cases hl ⟨mint, d, .both⟩ with ⟨err, herr⟩ | ⟨lib1, hacc, happ, hstart⟩
  · rw [herr] at hok
    cases hok
  · obtain ⟨ht, fw, lto, htop⟩ := Library.applyPlan_tidy happ hreg.tidy
    obtain ⟨hslots, hdrives⟩ := validateDeclared_ok hacc.declared
    obtain ⟨v2, -, -, hv2⟩ := load_some hl
    have hmail : lib1.topology.numMailSlots = mailSlotCount := by rw [htop, hv2]; rfl
    have ht' : Tidy (topologyFromDisk (diskFromTopology mint lib1.topology)) lib1.inventory := by
      unfold Tidy at ht ⊢
      rw [ht, hmail]
      rfl
    have hm := hreg.minted
    refine ⟨⟨topologyFromDisk (diskFromTopology mint lib1.topology), lib1.inventory⟩, ?_,
      ⟨ht', ?_, ?_, ?_⟩, ?_, hacc.partitions⟩
    · rw [hstart]
      simp [persistV2, load]
    · have hlenS := ht.storage_length
      have hlenD := ht.drives_length
      have hlenM : lib1.inventory.mailSlots.length = 1 := by
        have := congrArg length ht.mail
        simpa [hmail, mailSlotCount] using this
      rw [htop] at hlenS hlenD
      have hbase : ∀ {f : LibraryTopology → Nat} {n : Nat}, f lib1.topology = f lib.topology → f lib.topology = n →
          f lib1.topology = n := fun h h' => h.trans h'
      exact ⟨hbase (f := LibraryTopology.transportBase) (by rw [htop]) hm.transport,
        hbase (f := LibraryTopology.storageBase) (by rw [htop]) hm.storage,
        hbase (f := LibraryTopology.importExportBase) (by rw [htop]) hm.mail,
        hbase (f := LibraryTopology.dataTransferBase) (by rw [htop]) hm.drives, hlenM, hlenS ▸ hslots, hlenD ▸ hdrives⟩
    · show lib1.topology.numStorageSlots = _
      rw [htop]
    · show lib1.topology.numDrives = _
      rw [htop]
    · show lib1.topology.partitions = _
      rw [htop]

theorem owner_of_owners_eq_one {has : LibraryPartition → Nat → Bool} {id : Nat}
    (h : owners has ps id = 1) : ∃ p ∈ ps, has p id = true := by
  have : 0 < ps.countP (has · id) := by
    rw [owners] at h
    omega
  exact countP_pos_iff.1 this

theorem within_of_partitionBlockers (h : lib.partitionBlockers d = []) : ∀ p ∈ lib.topology.partitions,
    p.Within d.numStorageSlots d.numDrives := by
  intro p hp
  simp only [Library.partitionBlockers, flatMap_eq_nil_iff, append_eq_nil_iff, filterMap_eq_nil_iff] at h
  obtain ⟨hs, hd⟩ := h p hp
  refine ⟨?_, fun v hv => ?_⟩
  · by_contra hgt
    simp [Nat.not_le.1 hgt] at hs
  · by_contra hge
    have := hd v hv
    simp [Nat.not_lt.1 hge] at this

theorem le_of_within {slots mail drives slots' drives' : Nat}
    (h : Partitioned ps slots mail drives) (hw : ∀ p ∈ ps, p.Within slots' drives') : slots ≤ slots' ∧ drives ≤ drives' := by
  constructor
  · by_contra hlt
    obtain ⟨p, hp, hhas⟩ := owner_of_owners_eq_one (h.storage (slots - 1) (by omega))
    simp only [hasStorageSlot, SlotRange.contains, decide_eq_true_eq] at hhas
    have := (hw p hp).1
    omega
  · by_contra hlt
    obtain ⟨p, hp, hhas⟩ := owner_of_owners_eq_one (h.drives (drives - 1) (by omega))
    simp only [hasDrive, decide_eq_true_eq] at hhas
    have := (hw p hp).2 _ hhas
    omega

def Addressable (s : Disk) : Prop := s.library = none ∨
  ∃ lib, s.load = some lib ∧ Regular lib ∧ lib.topology.numStorageSlots ≤ 64534 ∧ lib.topology.numDrives ≤ 100

theorem wellFormed_of_addressable (h : s.Addressable) : s.WellFormed := by
  rcases h with h | ⟨lib, hl, hreg, hslots, hdrives⟩
  · intro lib hl
    obtain ⟨v2, hv2, -, -⟩ := load_some hl
    rw [h] at hv2
    cases hv2
  · intro lib' hl'
    rw [hl] at hl'
    cases hl'
    refine ⟨(Library.wellAddressed_iff hreg.minted).2 ?_, fun hne => (hreg.partitioned hne).1⟩
    rw [hreg.tidy.storage_length, hreg.tidy.drives_length]
    exact ⟨hslots, hdrives⟩

theorem materialize_addressable (hnone : s.library = none) (hok : (openOrMaterialize mint s d).isOk) :
    (s.Fits (.start mint d) → (s.start ⟨mint, d, .both⟩).Addressable) ∧
    ((s.start ⟨mint, d, .both⟩).WellFormed → s.Fits (.start mint d)) := by
  obtain ⟨lib', hl', hat, hparts⟩ := start_materialize hnone hok
  have hload : s.load = none := by
    rw [load, hnone]
  constructor
  · intro hfits
    obtain ⟨hslots, hdrives, -⟩ := hfits hok
    refine .inr ⟨lib', hl', ⟨hat.tidy, hat.minted, fun hne => absurd hparts hne⟩, ?_, ?_⟩
    · rw [hat.slots]
      exact hslots
    · rw [hat.drives]
      exact hdrives
  · intro hwf _
    obtain ⟨hslots, hdrives⟩ := hat.wellAddressed_iff.1 (hwf lib' hl').1
    refine ⟨hslots, hdrives, fun lib hlib => ?_⟩
    rw [hload] at hlib
    cases hlib

theorem reconcile_addressable (hl : s.load = some lib) (hreg : Regular lib)
    (hok : (openOrMaterialize mint s d).isOk) : (s.Fits (.start mint d) → (s.start ⟨mint, d, .both⟩).Addressable) ∧
    ((s.start ⟨mint, d, .both⟩).WellFormed → s.Fits (.start mint d)) := by
  obtain ⟨lib', hl', hat, hparts, hblock⟩ := start_reconcile hl hreg hok
  have hgrow : lib.topology.partitions ≠ [] → lib.topology.numStorageSlots ≤ d.numStorageSlots ∧
      lib.topology.numDrives ≤ d.numDrives := fun hne =>
    le_of_within (hreg.partitioned hne).1 (within_of_partitionBlockers hblock)
  constructor
  · intro hfits
    obtain ⟨hslots, hdrives, hsame⟩ := hfits hok
    refine .inr ⟨lib', hl', ⟨hat.tidy, hat.minted, ?_⟩, ?_, ?_⟩
    · -- a partitioned chassis keeps its counts, so the old cover is a cover of the new ones
      rw [hparts, hat.slots, hat.drives]
      intro hne
      obtain ⟨hs, hd⟩ := hsame lib hl hne
      have hmail : lib'.topology.numMailSlots = lib.topology.numMailSlots := by
        obtain ⟨v2, -, -, hv2⟩ := load_some hl
        obtain ⟨v2', -, -, hv2'⟩ := load_some hl'
        rw [hv2, hv2']
        rfl
      rw [hs, hd, hmail]
      exact hreg.partitioned hne
    · rw [hat.slots]
      exact hslots
    · rw [hat.drives]
      exact hdrives
  · intro hwf _
    obtain ⟨hslots, hdrives⟩ := hat.wellAddressed_iff.1 (hwf lib' hl').1
    refine ⟨hslots, hdrives, fun lib1 hlib hne => ?_⟩
    rw [hl] at hlib
    cases hlib
    have hcover := (hwf lib' hl').2 (hparts ▸ hne)
    rw [hparts, hat.slots, hat.drives] at hcover
    obtain ⟨hle, hle'⟩ := le_of_within hcover (hreg.partitioned hne).2
    obtain ⟨hge, hge'⟩ := hgrow hne
    omega

theorem start_addressable (h : s.Addressable) : (s.Fits (.start mint d) → (s.start ⟨mint, d, .both⟩).Addressable) ∧
    ((s.start ⟨mint, d, .both⟩).WellFormed → s.Fits (.start mint d)) := by
  by_cases hok : (openOrMaterialize mint s d).isOk
  swap
  · have href : s.Refuses ⟨mint, d, .both⟩ := by
      cases ho : openOrMaterialize mint s d with
      | error err => exact ⟨err, ho⟩
      | ok r =>
        rw [ho] at hok
        exact absurd rfl hok
    rw [start_of_refuses href]
    exact ⟨fun _ => h, fun _ hok' => absurd hok' hok⟩
  rcases h with hnone | ⟨lib, hl, hreg, -⟩
  · exact materialize_addressable hnone hok
  · exact reconcile_addressable hl hreg hok

theorem setPartitions_addressable (h : s.Addressable) (mint : Mint) (ps : List LibraryPartition) :
    (s.setPartitions mint ps).Addressable := by
  rcases h with hnone | ⟨lib, hl, hreg, hslots, hdrives⟩
  · have hload : s.load = none := by
      rw [load, hnone]
    rw [setPartitions, hload]
    exact .inl hnone
  · rw [setPartitions, hl]
    dsimp only
    cases hv : validatePartitions ps lib.topology.numStorageSlots lib.topology.numMailSlots lib.topology.numDrives with
    | error err => exact .inr ⟨lib, hl, hreg, hslots, hdrives⟩
    | ok u =>
      obtain ⟨v2, -, hinv, hv2⟩ := load_some hl
      have hmail : lib.topology.numMailSlots = mailSlotCount := by rw [hv2]; rfl
      refine .inr ⟨⟨topologyFromDisk (diskFromTopology mint { lib.topology with partitions := ps }), lib.inventory⟩, ?_,
        ⟨?_, ?_, ?_⟩, hslots, hdrives⟩
      · simp [load, hinv]
      · have ht := hreg.tidy
        unfold Tidy at ht ⊢
        rw [ht, hmail]
        rfl
      · have hm := hreg.minted
        exact ⟨hm.transport, hm.storage, hm.mail, hm.drives, hm.mailCount, hm.slotCount, hm.driveCount⟩
      · intro hne
        have := validatePartitions_ok hv hne
        rw [hmail] at this
        exact this

theorem operate_addressable {inv : LibraryInventory} (h : s.Addressable)
    (hids : s.inventory.map ids = some inv.ids) : Addressable { s with inventory := some inv } := by
  rcases h with hnone | ⟨lib, hl, hreg, hslots, hdrives⟩
  · exact .inl hnone
  obtain ⟨v2, hv2, hinv, htop⟩ := load_some hl
  rw [hinv, Option.map_some, Option.some.injEq] at hids
  have ht : Tidy lib.topology inv := hids.symm.trans hreg.tidy
  refine .inr ⟨⟨lib.topology, inv⟩, ?_, ⟨ht, ?_, hreg.partitioned⟩, hslots, hdrives⟩
  · simp [load, hv2, htop]
  · have hm := hreg.minted
    have hlenM : inv.mailSlots.length = lib.inventory.mailSlots.length := by
      simpa [ids] using congrArg (fun p => p.2.1.length) hids.symm
    refine ⟨hm.transport, hm.storage, hm.mail, hm.drives, hlenM.trans hm.mailCount, ?_, ?_⟩
    · rw [ht.storage_length, ← hreg.tidy.storage_length]
      exact hm.slotCount
    · rw [ht.drives_length, ← hreg.tidy.drives_length]
      exact hm.driveCount

/-- **Addressing over every history of a data directory**: well formed after each step exactly if every accepted start
declares at most 64534 slots and 100 drives and leaves partitioned counts alone. -/
theorem history_wellFormed_iff (root : String) {as : List ConfigAct} (hr : history.run (empty root) as = some s') :
    (∀ pre, pre <+: as → ∀ s, history.run (empty root) pre = some s → s.WellFormed) ↔
      history.Meets Fits (empty root) as := by
  refine history.forall_prefix_iff_meets (fun s => wellFormed_of_addressable) ?_ (.inl rfl) hr
  rintro s a s1 hs hstep
  cases a with
  | start =>
    cases hstep
    exact start_addressable hs
  | setPartitions mint ps =>
    cases hstep
    exact ⟨fun _ => setPartitions_addressable hs mint ps, fun _ => trivial⟩
  | operate inv =>
    simp only [history] at hstep
    split at hstep <;> cases hstep
    next hids =>
      exact ⟨fun _ => operate_addressable hs hids, fun _ => trivial⟩

/-! ## Histories that fit, and histories that do not -/

def mintedSerials : Mint := ⟨"TVL0", fun _ => "D"⟩

def wholeChassis : List LibraryPartition := [⟨"all", ⟨0, 2⟩, ⟨0, 1⟩, [0]⟩]

theorem history_wellFormed_iff_partitioned : ∃ s', history.run (empty "/library")
    [.start mintedSerials ⟨2, 1, 8, none⟩, .setPartitions mintedSerials wholeChassis,
      .start mintedSerials ⟨2, 1, 8, some "TVL8"⟩] = some s' ∧
    s'.WellFormed ∧ ∃ lib, s'.load = some lib ∧ lib.topology.partitions = wholeChassis :=
  Machine.ends_of (fun s' => ∃ lib, s'.load = some lib ∧ lib.topology.partitions = wholeChassis) (by decide +kernel)
    fun s' hs' hlib =>
      ⟨(history_wellFormed_iff "/library" hs').2 (by decide +kernel) _ (List.prefix_refl _) s' hs', hlib⟩

/-- A 16-bit range end overflows; a drive has the mail slot's address; a slot has no partition. -/
theorem grown_chassis_fails :
    (∃ lib, materialize mintedSerials ⟨64535, 1, 8, none⟩ = .ok lib ∧ lib.InSpan .storage 1001 ∧
      lib.elementConfig.elementTypeFromAddress 1001 = none) ∧
    (∃ s', history.run (empty "/library") [.start mintedSerials ⟨1, 100, 8, none⟩, .start mintedSerials ⟨1, 101, 8, none⟩] =
        some s' ∧ ∃ lib, s'.load = some lib ∧ lib.InSpan .importExport 101 ∧ lib.InSpan .dataTransfer 101) ∧
    ∃ s', history.run (empty "/library") [.start mintedSerials ⟨2, 1, 8, none⟩,
        .setPartitions mintedSerials wholeChassis, .start mintedSerials ⟨3, 1, 8, none⟩] = some s' ∧
      ∃ lib, s'.load = some lib ∧ lib.topology.partitions = wholeChassis ∧ lib.topology.numStorageSlots = 3 ∧
        owners hasStorageSlot lib.topology.partitions 2 = 0 := by
  refine ⟨?_, ?_, ?_⟩
  · obtain ⟨lib, hm⟩ : ∃ lib, materialize mintedSerials ⟨64535, 1, 8, none⟩ = .ok lib := ⟨_, rfl⟩
    obtain ⟨hat, -, -⟩ := materialize_at hm
    have hlen : lib.inventory.storageSlots.length = 64535 := hat.tidy.storage_length.trans hat.slots
    refine ⟨lib, hm, ?_, ?_⟩
    · simp [Library.InSpan, Library.span, hat.minted.storage, storageBase, hlen]
    · simp [ElementAddressConfig.elementTypeFromAddress, Library.elementConfig, inRange, addU16, hat.minted.storage,
        hat.minted.transport, storageBase, transportBase, hlen]
  · decide +kernel
  · decide +kernel

end Disk

end Thur.Changer

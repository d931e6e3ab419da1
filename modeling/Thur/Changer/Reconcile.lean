import Thur.Changer.Topology
import Thur.Lib.Machine
/-!
# Reconcile — the declared topology against the persisted one, at every daemon start

`library/reconcile.rs`.  A start reads `library.json` and `inventory.json`, diffs the declared counts against the persisted
ones, refuses the start if a cartridge would be orphaned, and otherwise applies the plan and replaces the two files one after
the other.  A start that stops between the two leaves the new counts next to the old inventory.
-/
namespace Thur.Changer

def mailSlotCount : Nat := 1
def transportBase : Nat := 0
def storageBase : Nat := 1001
def importExportBase : Nat := 101
def dataTransferBase : Nat := 1
def schemaVersion : Nat := 2

structure DriveEvacuation where
  driveId : Nat
  barcode : Barcode
  originSlot : Nat

structure ReconcilePlan where
  firmware : Option (Option String)
  ltoGeneration : Option Nat
  storageTarget : Option Nat
  driveTarget : Option Nat
  driveEvacuations : List DriveEvacuation

inductive ReconcileEvent
  | materialized
  | driveEvacuated (ev : DriveEvacuation)
  | reconciled

structure DeclaredOnDisk where
  numStorageSlots : Nat
  numDrives : Nat
  ltoGeneration : Nat
  firmware : Option String

structure MintedOnDisk where
  chassisSerial : String
  transportBase : Nat
  storageBase : Nat
  importExportBase : Nat
  dataTransferBase : Nat

structure DiskV2 where
  version : Nat
  declared : DeclaredOnDisk
  minted : MintedOnDisk
  partitions : List LibraryPartition

structure Disk where
  root : String
  library : Option DiskV2
  inventory : Option LibraryInventory

structure Mint where
  chassisSerial : String
  driveMfgSerial : Nat → String

structure Library where
  topology : LibraryTopology
  inventory : LibraryInventory

def topologyFromDisk (disk : DiskV2) : LibraryTopology where
  numStorageSlots := disk.declared.numStorageSlots
  numMailSlots := mailSlotCount
  numDrives := disk.declared.numDrives
  ltoGeneration := disk.declared.ltoGeneration
  firmware := disk.declared.firmware
  chassisSerial := some disk.minted.chassisSerial
  partitions := disk.partitions
  transportBase := disk.minted.transportBase
  storageBase := disk.minted.storageBase
  importExportBase := disk.minted.importExportBase
  dataTransferBase := disk.minted.dataTransferBase

def diskFromTopology (mint : Mint) (t : LibraryTopology) : DiskV2 where
  version := schemaVersion
  declared := ⟨t.numStorageSlots, t.numDrives, t.ltoGeneration, t.firmware⟩
  minted := ⟨t.chassisSerial.getD mint.chassisSerial, t.transportBase, t.storageBase, t.importExportBase,
    t.dataTransferBase⟩
  partitions := t.partitions

def validateDeclared (d : DeclaredTopology) : Except SmcError Unit :=
  if ¬ (1 ≤ d.numStorageSlots ∧ d.numStorageSlots ≤ 65535) then
    .error (.libraryConfig "library.num_slots must be between 1 and 65535")
  else if ¬ (1 ≤ d.numDrives ∧ d.numDrives ≤ 255) then
    .error (.libraryConfig "library.num_drives must be between 1 and 255")
  else if d.ltoGeneration ≠ 8 then .error (.libraryConfig "library.lto_generation must be 8")
  else .ok ()

def emptySlot (id : Nat) : SlotInfo := ⟨id, none, false⟩
def emptyMailSlot (id : Nat) : MailSlotInfo := ⟨id, none, false, true⟩
def emptyDrive (mint : Mint) (id : Nat) : DriveInfo := ⟨id, none, false, none, some (mint.driveMfgSerial id)⟩

def materialize (mint : Mint) (d : DeclaredTopology) : Except SmcError Library := do
  validateDeclared d
  validateElementAddressLayout transportBase storageBase d.numStorageSlots importExportBase mailSlotCount
    dataTransferBase d.numDrives
  return {
    topology := {
      numStorageSlots := d.numStorageSlots
      numMailSlots := mailSlotCount
      numDrives := d.numDrives
      ltoGeneration := d.ltoGeneration
      firmware := d.firmware
      chassisSerial := some mint.chassisSerial
      partitions := []
      transportBase := transportBase
      storageBase := storageBase
      importExportBase := importExportBase
      dataTransferBase := dataTransferBase }
    inventory := {
      storageSlots := (List.range d.numStorageSlots).map emptySlot
      mailSlots := (List.range mailSlotCount).map emptyMailSlot
      drives := (List.range d.numDrives).map (emptyDrive mint) } }

/-! ## The diff -/

def orUnknown (b : Option Barcode) : Barcode := b.getD "<unknown>"

namespace Library

variable (lib : Library)

def presentBarcodes : List (Barcode × String) :=
  lib.inventory.storageSlots.filterMap (fun s => if s.occupied then s.barcode.map (·, s!"slot {s.id}") else none) ++
    lib.inventory.drives.filterMap fun d => if d.occupied then d.barcode.map (·, s!"drive {d.id}") else none

section

variable (d : DeclaredTopology)

def ltoBlockers : List String :=
  let cartridges := lib.presentBarcodes
  let cur := lib.topology.ltoGeneration
  if d.ltoGeneration < cur ∧ cartridges ≠ [] then
    s!"lto_generation downgrade from {cur} to {d.ltoGeneration} blocked: {cartridges.length} cartridge(s) present" ::
      cartridges.map fun c => s!"  {c.1} at {c.2}"
  else []

def originOf (d : DriveInfo) : Nat := d.homeSlot.getD 4294967295

def storageBlockers : List String :=
  let cur := lib.topology.numStorageSlots
  let target := d.numStorageSlots
  if target < cur then
    lib.inventory.storageSlots.filterMap (fun s =>
      if target ≤ s.id ∧ s.occupied then
        some s!"cannot shrink num_slots from {cur} to {target}: slot {s.id} holds {orUnknown s.barcode}"
      else none) ++
    lib.inventory.drives.filterMap (fun v =>
      if v.occupied ∧ target ≤ originOf v then
        some (s!"cannot shrink num_slots from {cur} to {target}: drive {v.id} holds {orUnknown v.barcode} " ++
          s!"whose origin slot {originOf v} would be removed")
      else none)
  else []

inductive DriveVerdict
  | stays
  | blocked (text : String)
  | evacuates (ev : DriveEvacuation)

def judgeDrive (slots : Nat) (planned : List DriveEvacuation) (v : DriveInfo) : DriveVerdict :=
  let barcode := orUnknown v.barcode
  let home := originOf v
  let text := s!"cannot shrink num_drives from {lib.topology.numDrives} to {d.numDrives}: drive {v.id} holds {barcode} " ++
    s!"whose origin slot {home} "
  if v.id < d.numDrives then .stays
  else if !v.occupied then .stays
  else if slots ≤ home then .blocked (text ++ "would be out of range")
  else
    match lib.inventory.getStorageSlot home with
    | some ⟨_, other, true⟩ => .blocked (text ++ s!"is occupied by {orUnknown other}")
    | _ =>
      match planned.find? (fun e => e.originSlot = home) with
      | some prev => .blocked (text ++ s!"is also the evacuation target of {prev.barcode}")
      | none => .evacuates ⟨v.id, barcode, home⟩

def planDrives (d : DeclaredTopology) (slots : Nat) : List DriveInfo → List DriveEvacuation →
    List String × List DriveEvacuation
  | [], planned => ([], planned)
  | v :: rest, planned =>
    match lib.judgeDrive d slots planned v with
    | .stays => planDrives d slots rest planned
    | .blocked text => ((text :: (planDrives d slots rest planned).1), (planDrives d slots rest planned).2)
    | .evacuates ev => planDrives d slots rest (planned ++ [ev])

def drivePlan : List String × List DriveEvacuation :=
  if d.numDrives < lib.topology.numDrives then lib.planDrives d d.numStorageSlots lib.inventory.drives [] else ([], [])

def partitionBlockers : List String :=
  lib.topology.partitions.flatMap (fun p =>
    (if d.numStorageSlots < p.storageSlots.stop then
      [s!"partition '{p.name}' storage_slots [{p.storageSlots.start}, {p.storageSlots.stop}) " ++
        s!"exceeds num_slots={d.numStorageSlots}"]
    else []) ++
    p.drives.filterMap (fun v =>
      if d.numDrives ≤ v then
        some s!"partition '{p.name}' references drive {v} which would be removed by num_drives={d.numDrives}"
      else none))

def checkFirmware : Except SmcError Unit :=
  match d.firmware with
  | some fw => validateFirmware fw
  | none => .ok ()

/-- After a storage target is planned the effective slot count is the declared one; without one the two are equal. -/
def blockers : List String :=
  lib.ltoBlockers d ++ (lib.storageBlockers d ++ ((lib.drivePlan d).1 ++ lib.partitionBlockers d))

def plan : ReconcilePlan where
  firmware := if d.firmware ≠ lib.topology.firmware then some d.firmware else none
  ltoGeneration := if d.ltoGeneration ≠ lib.topology.ltoGeneration then some d.ltoGeneration else none
  storageTarget := if d.numStorageSlots ≠ lib.topology.numStorageSlots then some d.numStorageSlots else none
  driveTarget := if d.numDrives ≠ lib.topology.numDrives then some d.numDrives else none
  driveEvacuations := (lib.drivePlan d).2

def diffAgainstDeclared : Except SmcError ReconcilePlan := do
  validateDeclared d
  checkFirmware d
  if lib.blockers d ≠ [] then throw (.libraryConfig ("\n".intercalate (lib.blockers d)))
  return lib.plan d

end

/-! ## The plan applied -/

def resizeStorage (target : Nat) : Library where
  topology := { lib.topology with numStorageSlots := target }
  inventory :=
    { lib.inventory with
      storageSlots :=
        let cur := lib.topology.numStorageSlots
        if cur < target then lib.inventory.storageSlots ++ (List.range (target - cur)).map fun i => emptySlot (cur + i)
        else if target < cur then lib.inventory.storageSlots.take target
        else lib.inventory.storageSlots }

def resizeDrives (mint : Mint) (target : Nat) : Library where
  topology := { lib.topology with numDrives := target }
  inventory :=
    { lib.inventory with
      drives :=
        let cur := lib.topology.numDrives
        if cur < target then lib.inventory.drives ++ (List.range (target - cur)).map fun i => emptyDrive mint (cur + i)
        else if target < cur then lib.inventory.drives.take target
        else lib.inventory.drives }

def evacuateDriveToOrigin (inv : LibraryInventory) (ev : DriveEvacuation) : Except SmcError LibraryInventory :=
  match inv.entry (.drive ev.driveId) with
  | none => .error (.libraryConfig s!"evacuate: drive {ev.driveId} not found")
  | some _ =>
    match inv.entry (.storage ev.originSlot) with
    | none => .error (.libraryConfig s!"evacuate: origin slot {ev.originSlot} not found")
    | some (true, b) =>
      .error (.libraryConfig (s!"evacuate: origin slot {ev.originSlot} already occupied by {orUnknown b} " ++
        "— refusing to overwrite"))
    | some (false, _) =>
      .ok ((inv.assign (.drive ev.driveId) none none).assign (.storage ev.originSlot) (some ev.barcode) none)

def evacuateAll (inv : LibraryInventory) : List DriveEvacuation → Except SmcError LibraryInventory
  | [] => .ok inv
  | ev :: rest =>
    match evacuateDriveToOrigin inv ev with
    | .error err => .error err
    | .ok inv' => evacuateAll inv' rest

def withFirmware (p : ReconcilePlan) : Library :=
  { lib with
    topology := { lib.topology with
      firmware := p.firmware.getD lib.topology.firmware
      ltoGeneration := p.ltoGeneration.getD lib.topology.ltoGeneration } }

def withStorage (p : ReconcilePlan) : Library :=
  match p.storageTarget with
  | some target => lib.resizeStorage target
  | none => lib

def withDrives (mint : Mint) (p : ReconcilePlan) : Except SmcError Library :=
  match p.driveTarget with
  | none => .ok lib
  | some target =>
    match evacuateAll lib.inventory p.driveEvacuations with
    | .error err => .error err
    | .ok inv => .ok (resizeDrives { lib with inventory := inv } mint target)

def applyPlan (mint : Mint) (p : ReconcilePlan) : Except SmcError Library :=
  ((lib.withFirmware p).withStorage p).withDrives mint p

end Library

/-! ## A start -/

/-- Up to its writes: the library that is persisted and returned, and the events. -/
def openOrMaterialize (mint : Mint) (disk : Disk) (d : DeclaredTopology) :
    Except SmcError (Library × List ReconcileEvent) :=
  match disk.library with
  | none => (materialize mint d).map fun lib => (lib, [.materialized])
  | some v2 =>
    if v2.version ≠ schemaVersion then
      .error (.libraryConfig (s!"library.json is v{v2.version} format; this release requires v{schemaVersion}. " ++
        s!"Remove {disk.root} and re-start the daemon to re-materialize from the YAML library: block."))
    else
      match disk.inventory with
      | none => .error (.libraryConfig s!"inventory.json missing alongside library.json at {disk.root}")
      | some inv =>
        match Library.diffAgainstDeclared ⟨topologyFromDisk v2, inv⟩ d with
        | .error err => .error err
        | .ok plan =>
          match Library.applyPlan ⟨topologyFromDisk v2, inv⟩ mint plan with
          | .error err => .error err
          | .ok lib => .ok (lib, plan.driveEvacuations.map .driveEvacuated ++ [.reconciled])

inductive Writes
  | none
  | libraryOnly
  | both
deriving DecidableEq

def persistV2 (mint : Mint) (lib : Library) (disk : Disk) : Writes → Disk
  | .none => disk
  | .libraryOnly => { disk with library := some (diskFromTopology mint lib.topology) }
  | .both => { disk with library := some (diskFromTopology mint lib.topology), inventory := some lib.inventory }

structure Start where
  mint : Mint
  declared : DeclaredTopology
  writes : Writes

def Disk.start (disk : Disk) (a : Start) : Disk :=
  match openOrMaterialize a.mint disk a.declared with
  | .error _ => disk
  | .ok (lib, _) => persistV2 a.mint lib disk a.writes

def starts : Machine Disk Start where
  step disk a := some (disk.start a)

end Thur.Changer

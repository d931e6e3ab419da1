import Mathlib.Data.List.Range
import Thur.Changer.Library
import Thur.Lib.Bytes
/-!
# Topology — the chassis, its partitions and its element addresses

`library/mod.rs` and `smc/src/changer.rs`: the counts and bases of `library.json`, the validators that materialization and
`set_partitions` run, and the SMC address arithmetic, in which a 16-bit addition that overflows has no result.
-/
namespace Thur.Changer

structure DeclaredTopology where
  numStorageSlots : Nat
  numDrives : Nat
  ltoGeneration : Nat
  firmware : Option String

structure SlotRange where
  start : Nat
  stop : Nat
deriving DecidableEq

def SlotRange.contains (r : SlotRange) (id : Nat) : Bool := decide (r.start ≤ id ∧ id < r.stop)

def SlotRange.ids (r : SlotRange) : List Nat := (List.range (r.stop - r.start)).map (r.start + ·)

structure LibraryPartition where
  name : String
  storageSlots : SlotRange
  mailSlots : SlotRange
  drives : List Nat
deriving DecidableEq

structure LibraryTopology where
  numStorageSlots : Nat
  numMailSlots : Nat
  numDrives : Nat
  ltoGeneration : Nat
  firmware : Option String
  chassisSerial : Option String
  partitions : List LibraryPartition
  transportBase : Nat
  storageBase : Nat
  importExportBase : Nat
  dataTransferBase : Nat

/-! ## Validators -/

def isPrintable (c : Char) : Bool := decide (32 ≤ c.toNat ∧ c.toNat ≤ 126)

def validateFirmware (s : String) : Except SmcError Unit :=
  if s.utf8ByteSize = 0 ∨ 4 < s.utf8ByteSize then .error (.invalidOp "firmware must be 1 to 4 ASCII characters")
  else if s.toList.all isPrintable then .ok ()
  else .error (.invalidOp "firmware must contain only printable ASCII characters")

def elementRange (name : String) (base count : Nat) : Except SmcError (Nat × Nat × String) :=
  if 65536 < base + count then
    .error (.libraryConfig s!"{name} element range {base}..{base + count} exceeds u16 address space")
  else .ok (base, base + count, name)

def overlaps (a b : Nat × Nat × String) : Bool := decide (a.1 < b.2.1 ∧ b.1 < a.2.1)

def firstOverlap : List (Nat × Nat × String) → Option ((Nat × Nat × String) × (Nat × Nat × String))
  | [] => none
  | a :: rest =>
    match rest.find? (overlaps a) with
    | some b => some (a, b)
    | none => firstOverlap rest

def overlapText (a b : Nat × Nat × String) : String :=
  s!"element address ranges overlap: {a.2.2} {a.1}..{a.2.1} and {b.2.2} {b.1}..{b.2.1}"

def validateElementAddressLayout (transportBase storageBase numStorageSlots importExportBase numMailSlots
    dataTransferBase numDrives : Nat) : Except SmcError Unit := do
  let transport ← elementRange "transport" transportBase 1
  let storage ← elementRange "storage" storageBase numStorageSlots
  let mail ← elementRange "mail" importExportBase numMailSlots
  let drives ← elementRange "drives" dataTransferBase numDrives
  match firstOverlap [transport, storage, mail, drives] with
  | some (a, b) => .error (.libraryConfig (overlapText a b))
  | none => .ok ()

def markAll (text : Nat → String) : List Nat → List Bool → Except SmcError (List Bool)
  | [], seen => .ok seen
  | id :: rest, seen =>
    if seen.getD id false then .error (.libraryConfig (text id)) else markAll text rest (seen.set id true)

structure Seen where
  names : List String
  storage : List Bool
  mail : List Bool
  drives : List Bool

def markRange (p : LibraryPartition) (kind : String) (r : SlotRange) (count : Nat) (seen : List Bool) :
    Except SmcError (List Bool) :=
  if r.stop < r.start then .error (.libraryConfig s!"partition '{p.name}' {kind} range start > end")
  else if count < r.stop then
    .error (.libraryConfig s!"partition '{p.name}' {kind} range [{r.start}, {r.stop}) exceeds {count} {kind} slots")
  else markAll (fun id => s!"partition '{p.name}' {kind} slot {id} overlaps another partition") r.ids seen

def markDrives (p : LibraryPartition) (count : Nat) : List Nat → List Bool → Except SmcError (List Bool)
  | [], seen => .ok seen
  | d :: rest, seen =>
    if count ≤ d then
      .error (.libraryConfig s!"partition '{p.name}' references drive {d} but only {count} drives configured")
    else if seen.getD d false then
      .error (.libraryConfig s!"partition '{p.name}' drive {d} overlaps another partition")
    else markDrives p count rest (seen.set d true)

def checkName (p : LibraryPartition) (names : List String) : Except SmcError (List String) :=
  let trimmed := String.ofList (Text.trim p.name.toList)
  if trimmed.utf8ByteSize = 0 then .error (.libraryConfig "partition name must be non-empty")
  else if 64 < trimmed.utf8ByteSize then
    .error (.libraryConfig s!"partition name '{trimmed}' too long (max 64 chars)")
  else if trimmed ∈ names then .error (.libraryConfig s!"duplicate partition name '{trimmed}'")
  else .ok (trimmed :: names)

def checkPartition (numStorageSlots numMailSlots numDrives : Nat) (seen : Seen) (p : LibraryPartition) :
    Except SmcError Seen := do
  let names ← checkName p seen.names
  let storage ← markRange p "storage" p.storageSlots numStorageSlots seen.storage
  let mail ← markRange p "mail" p.mailSlots numMailSlots seen.mail
  let drives ← markDrives p numDrives p.drives seen.drives
  return ⟨names, storage, mail, drives⟩

def requireCovered (text : Nat → String) (seen : List Bool) : Except SmcError Unit :=
  match seen.findIdx? (fun s => !s) with
  | some missing => .error (.libraryConfig (text missing))
  | none => .ok ()

def validatePartitions (partitions : List LibraryPartition) (numStorageSlots numMailSlots numDrives : Nat) :
    Except SmcError Unit :=
  if partitions.isEmpty then .ok ()
  else do
    let seen ← partitions.foldlM (checkPartition numStorageSlots numMailSlots numDrives)
      ⟨[], List.replicate numStorageSlots false, List.replicate numMailSlots false, List.replicate numDrives false⟩
    requireCovered (fun i => s!"storage slot {i} is not covered by any partition " ++
      "(full coverage required when partitions are defined)") seen.storage
    requireCovered (fun i => s!"mail slot {i} is not covered by any partition") seen.mail
    requireCovered (fun i => s!"drive {i} is not covered by any partition") seen.drives

/-! ## SMC element addresses -/

inductive ElementType
  | mediumTransport
  | storage
  | importExport
  | dataTransfer
deriving DecidableEq

structure ElementAddressConfig where
  transportStart : Nat
  storageStart : Nat
  storageCount : Nat
  importExportStart : Nat
  importExportCount : Nat
  dataTransferStart : Nat
  dataTransferCount : Nat

def addU16 (a b : Nat) : Option Nat := if a + b < 65536 then some (a + b) else none

/-- The sum is formed only when the first comparison holds. -/
def inRange (address start count : Nat) : Option Bool :=
  if start ≤ address then (addU16 start count).map (fun stop => decide (address < stop)) else some false

def addressToId (address start count : Nat) : Option (Option Nat) :=
  (inRange address start count).map fun inside => if inside then some (address - start) else none

namespace ElementAddressConfig

variable (c : ElementAddressConfig)

def elementTypeFromAddress (address : Nat) : Option (Option ElementType) :=
  if address = c.transportStart then some (some .mediumTransport)
  else
    match inRange address c.storageStart c.storageCount with
    | none => none
    | some true => some (some .storage)
    | some false =>
      match inRange address c.importExportStart c.importExportCount with
      | none => none
      | some true => some (some .importExport)
      | some false =>
        match inRange address c.dataTransferStart c.dataTransferCount with
        | none => none
        | some true => some (some .dataTransfer)
        | some false => some none

def storageIdToAddress (id : Nat) : Option Nat := addU16 c.storageStart (id % 65536)

def addressToStorageId (address : Nat) : Option (Option Nat) := addressToId address c.storageStart c.storageCount

def mailIdToAddress (id : Nat) : Option Nat := addU16 c.importExportStart (id % 65536)

def addressToMailId (address : Nat) : Option (Option Nat) := addressToId address c.importExportStart c.importExportCount

def driveIdToAddress (id : Nat) : Option Nat := addU16 c.dataTransferStart (id % 65536)

def addressToDriveId (address : Nat) : Option (Option Nat) := addressToId address c.dataTransferStart c.dataTransferCount

end ElementAddressConfig

end Thur.Changer

import Thur.Target.Scsi
/-!
# Nvme — the NVM dispatcher

A namespace id is a LUN plus one, in the registry and in the reservation manager; the gates stand in `dispatch_io`, in
`cmd_dsm` and in the fused Compare and Write. A command is planned on the manifests, the sizes and the reservations, and
then run. Admin commands reach no volume's bytes and are left out.
-/
namespace Thur

open ReservationRequest

inductive NvmOpcode
  | flush
  | write
  | read
  | writeUncorrectable
  | compare
  | writeZeroes
  | datasetManagement
  | verify
  | reservationRegister
  | reservationReport
  | reservationAcquire
  | reservationRelease
deriving DecidableEq

def NvmOpcode.fromU8 (b : UInt8) : Option NvmOpcode :=
  if b = 0x00 then some .flush
  else if b = 0x01 then some .write
  else if b = 0x02 then some .read
  else if b = 0x04 then some .writeUncorrectable
  else if b = 0x05 then some .compare
  else if b = 0x08 then some .writeZeroes
  else if b = 0x09 then some .datasetManagement
  else if b = 0x0C then some .verify
  else if b = 0x0D then some .reservationRegister
  else if b = 0x0E then some .reservationReport
  else if b = 0x11 then some .reservationAcquire
  else if b = 0x15 then some .reservationRelease
  else none

inductive NvmeStatus
  | success
  | invalidOpcode
  | invalidField
  | invalidNamespace
  | internalError
  | namespaceWriteProtected
  | lbaOutOfRange
  | namespaceNotReady
  | compareFailure
  | unrecoveredReadError
  | writeFault
  | abortedDueToFailedFused
  | reservationConflict

structure NvmeResponse where
  status : NvmeStatus
  dataIn : Bytes

structure Sqe where
  opcode : UInt8
  nsid : UInt32
  cdw10 : UInt32
  cdw11 : UInt32
  cdw12 : UInt32

namespace Sqe

def slba (sqe : Sqe) : UInt64 := sqe.cdw10.toUInt64 ||| (sqe.cdw11.toUInt64 <<< 32)

def nlb (sqe : Sqe) : UInt64 := (sqe.cdw12 &&& 0xFFFF).toUInt64 + 1

end Sqe

structure IoCommand where
  sqe : Sqe
  dataOut : Option Bytes
  dataInMax : UInt32
  hostId : Option (BitVec 128)
  sessionVolumes : SessionVolumes

def IoCommand.registrant (cmd : IoCommand) : RegistrantId := .nvmeHost (cmd.hostId.getD 0)

inductive NvmeAction
  | reply (r : NvmeResponse)
  | flush
  | read (lun : Lun) (byteOff len : Nat)
  | compare (lun : Lun) (byteOff len : Nat) (expected : Bytes)
  | verify (lun : Lun) (byteOff len : Nat)
  /-- Calls on one namespace, then a completion. -/
  | mutate (lun : Lun) (ops : List BlockOp) (last : NvmeStatus)
  | reservation (request : ReservationRequest)

def NvmeAction.fail (s : NvmeStatus) : NvmeAction := .reply ⟨s, []⟩

namespace Nvme

def readFailureStatus : FaultClass → NvmeStatus
  | .validation => .invalidField
  | .transient => .namespaceNotReady
  | .integrity => .unrecoveredReadError
  | .infrastructure => .internalError

def writeFailureStatus : FaultClass → NvmeStatus
  | .validation => .invalidField
  | .transient => .namespaceNotReady
  | .integrity => .writeFault
  | .infrastructure => .internalError

def lookup (t : Target) (nsid : UInt32) : Option LogicalUnit :=
  if nsid = 0 then none else t.units.get (nsidToLun nsid)

def nsidAdmitted (t : Target) (allow : SessionVolumes) (nsid : UInt32) : Bool :=
  match allow with
  | none => true
  | some names => (lookup t nsid).any fun lu => names.contains lu.name

def resolveRange (lu : LogicalUnit) (slba blocks : UInt64) : Except NvmeStatus (Nat × Nat) :=
  match lu.resolveRange slba blocks with
  | .ok w => .ok w
  | .error .badSectorSize => .error .internalError
  | .error .outOfRange => .error .lbaOutOfRange

def withRange (lu : LogicalUnit) (sqe : Sqe) (k : Nat → Nat → NvmeAction) : NvmeAction :=
  match resolveRange lu sqe.slba sqe.nlb with
  | .ok (byteOff, len) => k byteOff len
  | .error s => .fail s

def payloadOf (dataOut : Option Bytes) (len : Nat) : Option Bytes := dataOut.filter fun p => p.length = len

section

variable (lun : Lun) (cmd : IoCommand) (lu : LogicalUnit)

def cmdRead : NvmeAction :=
  withRange lu cmd.sqe fun byteOff len =>
    if cmd.dataInMax.toNat < len then .fail .invalidField else .read lun byteOff len

def cmdWrite : NvmeAction :=
  withRange lu cmd.sqe fun byteOff len =>
    match payloadOf cmd.dataOut len with
    | some payload => .mutate lun [.writeBytes byteOff payload] .success
    | none => .fail .invalidField

def cmdCompare : NvmeAction :=
  withRange lu cmd.sqe fun byteOff len =>
    match payloadOf cmd.dataOut len with
    | some expected => .compare lun byteOff len expected
    | none => .fail .invalidField

/-- It deallocates when DEAC (CDW12 bit 25) asks for it, else writes zeros in chunks. -/
def cmdWriteZeroes : NvmeAction :=
  withRange lu cmd.sqe fun byteOff len =>
    if cmd.sqe.cdw12 &&& 0x2000000 ≠ 0 ∧ lu.manifest.worm = false then .mutate lun [.unmapBytes byteOff len] .success
    else .mutate lun ((windows Scsi.targetChunkBytes len byteOff len).map
      (fun x => .writeBytes x.1 (List.replicate x.2 0))) .success

def dsmYieldWindowBytes : Nat := 268435456

def dsmRanges (lu : LogicalUnit) (payload : Bytes) : List Nat → List BlockOp × NvmeStatus
  | [] => ([], .success)
  | i :: rest =>
    let nlb := UInt64.ofNat (payload.field (i * 16 + 4) 4).leNat
    let slba := UInt64.ofNat (payload.field (i * 16 + 8) 8).leNat
    match resolveRange lu slba nlb with
    | .error s => ([], s)
    | .ok (byteOff, len) =>
      let tail := dsmRanges lu payload rest
      ((windows dsmYieldWindowBytes len byteOff len).map (fun x => .unmapBytes x.1 x.2) ++ tail.1, tail.2)

/-- Only Deallocate (CDW11 bit 2) does anything, and only it is write protected. -/
def cmdDsm : NvmeAction :=
  let count := (cmd.sqe.cdw10 &&& 0xFF).toNat + 1
  if cmd.sqe.cdw11 &&& 0x4 = 0 then .reply ⟨.success, []⟩
  else if lu.manifest.worm then .fail .namespaceWriteProtected
  else
    match payloadOf cmd.dataOut (count * 16) with
    | some payload =>
      let plan := dsmRanges lu payload (List.range count)
      .mutate lun plan.1 plan.2
    | none => .fail .invalidField

def cmdVerify : NvmeAction :=
  withRange lu cmd.sqe fun byteOff len => .verify lun byteOff len

end

/-- Reading commands on `allow_read`, writing ones on `allow_write`; Flush is not gated. -/
def denied (res : ReservationManager) (lun : Lun) (registrant : RegistrantId) : NvmOpcode → Bool
  | .read | .compare | .verify => !res.allowRead lun registrant
  | .write | .writeZeroes | .datasetManagement => !res.allowWrite lun registrant
  | _ => false

def planData (t : Target) (cmd : IoCommand) (lu : LogicalUnit) (opcode : NvmOpcode) : NvmeAction :=
  let lun := nsidToLun cmd.sqe.nsid
  if denied t.reservations lun cmd.registrant opcode then .fail .reservationConflict
  else if (opcode = .write ∨ opcode = .writeZeroes) ∧ lu.manifest.worm then .fail .namespaceWriteProtected
  else
    match opcode with
    | .flush => .flush
    | .write => cmdWrite lun cmd lu
    | .read => cmdRead lun cmd lu
    | .compare => cmdCompare lun cmd lu
    | .writeZeroes => cmdWriteZeroes lun cmd lu
    | .datasetManagement => cmdDsm lun cmd lu
    | .verify => cmdVerify lun cmd lu
    | _ => .fail .invalidOpcode

abbrev Report := Sqe → UInt32 → ReservationManager.ReservationSnapshot → Bytes

def planIo (report : Report) (t : Target) (cmd : IoCommand) : NvmeAction :=
  let sqe := cmd.sqe
  let hostid := cmd.hostId.getD 0
  match NvmOpcode.fromU8 sqe.opcode with
  | none => .fail .invalidOpcode
  | some opcode =>
    if nsidAdmitted t cmd.sessionVolumes sqe.nsid = false then .fail .invalidNamespace
    else
      match lookup t sqe.nsid with
      | none => .fail .invalidNamespace
      | some lu =>
        match opcode with
        | .reservationRegister => .reservation (.reservationRegister sqe.nsid hostid sqe.cdw10 cmd.dataOut)
        | .reservationReport =>
          .reply ⟨.success, report sqe cmd.dataInMax (t.reservations.snapshot (nsidToLun sqe.nsid))⟩
        | .reservationAcquire => .reservation (.reservationAcquire sqe.nsid hostid sqe.cdw10 cmd.dataOut)
        | .reservationRelease => .reservation (.reservationRelease sqe.nsid hostid sqe.cdw10 cmd.dataOut)
        | _ => planData t cmd lu opcode

def mapOutcome : PrOutOutcome → NvmeResponse
  | .good => ⟨.success, []⟩
  | .reservationConflict => ⟨.reservationConflict, []⟩
  | .invalidFieldInCdb | .invalidFieldInParameterList => ⟨.invalidField, []⟩
  | .luNotSupported => ⟨.invalidNamespace, []⟩
  | .persistFailed => ⟨.internalError, []⟩

section Run

variable (persist : Option EntityResolver) (w : World)

def run (x : Exec) : NvmeAction → Exec × NvmeResponse
  | .reply r => (x, r)
  | .flush =>
    match w.fault x.calls with
    | some e => (x, ⟨writeFailureStatus e.kind, []⟩)
    | none => (x, ⟨.success, []⟩)
  | .read lun byteOff len =>
    match x.read w lun byteOff len with
    | (x, .ok buf) => (x, ⟨.success, buf⟩)
    | (x, .error e) => (x, ⟨readFailureStatus e.kind, []⟩)
  | .compare lun byteOff len expected =>
    match x.read w lun byteOff len with
    | (x, .ok actual) => (x, ⟨if actual = expected then .success else .compareFailure, []⟩)
    | (x, .error e) => (x, ⟨readFailureStatus e.kind, []⟩)
  | .verify lun byteOff len =>
    match x.read w lun byteOff len with
    | (x, .ok _) => (x, ⟨.success, []⟩)
    | (x, .error e) => (x, ⟨readFailureStatus e.kind, []⟩)
  | .mutate lun ops last =>
    match x.mutateAll w lun ops with
    | (x, some e) => (x, ⟨writeFailureStatus e.kind, []⟩)
    | (x, none) => (x, ⟨last, []⟩)
  | .reservation request =>
    let r := x.target.reservations.serve persist request w.persisted
    ({ x with target := { x.target with reservations := r.1 } }, mapOutcome r.2)

def dispatchIo (report : Report) (t : Target) (cmd : IoCommand) : Target × NvmeResponse :=
  let r := run persist w ⟨t, 0⟩ (planIo report t cmd)
  (r.1.target, r.2)

structure FusedPlan where
  lun : Lun
  byteOff : Nat
  expected : Bytes
  new : Bytes

/-- The write half's status differs in one gate only. -/
def planFused (t : Target) (compare write : IoCommand) : Except (NvmeStatus × NvmeStatus) FusedPlan :=
  let lun := nsidToLun compare.sqe.nsid
  if NvmOpcode.fromU8 compare.sqe.opcode ≠ some .compare then .error (.invalidOpcode, .abortedDueToFailedFused)
  else if NvmOpcode.fromU8 write.sqe.opcode ≠ some .write then .error (.invalidOpcode, .invalidOpcode)
  else if compare.sqe.nsid ≠ write.sqe.nsid ∨ compare.sqe.slba ≠ write.sqe.slba ∨ compare.sqe.nlb ≠ write.sqe.nlb then
    .error (.invalidField, .abortedDueToFailedFused)
  else if nsidAdmitted t compare.sessionVolumes compare.sqe.nsid = false then
    .error (.invalidNamespace, .abortedDueToFailedFused)
  else
    match lookup t compare.sqe.nsid with
    | none => .error (.invalidNamespace, .abortedDueToFailedFused)
    | some lu =>
      if t.reservations.allowWrite lun compare.registrant = false then
        .error (.reservationConflict, .abortedDueToFailedFused)
      else if lu.manifest.worm then .error (.namespaceWriteProtected, .abortedDueToFailedFused)
      else
        match lu.resolveRange compare.sqe.slba compare.sqe.nlb with
        | .error _ => .error (.lbaOutOfRange, .abortedDueToFailedFused)
        | .ok (byteOff, len) =>
          match payloadOf compare.dataOut len, payloadOf write.dataOut len with
          | some expected, some new => .ok ⟨lun, byteOff, expected, new⟩
          | _, _ => .error (.invalidField, .abortedDueToFailedFused)

def handleFusedCompareWrite (t : Target) (compare write : IoCommand) : Target × NvmeStatus × NvmeStatus :=
  match planFused t compare write with
  | .error statuses => (t, statuses)
  | .ok plan =>
    match (⟨t, 0⟩ : Exec).mutate w plan.lun (.compareAndWriteBytes plan.byteOff plan.expected plan.new) with
    | (x, .ok reply) =>
      if reply = .verdict false then (x.target, .compareFailure, .abortedDueToFailedFused)
      else (x.target, .success, .success)
    | (x, .error e) => (x.target, readFailureStatus e.kind, .abortedDueToFailedFused)

end Run

end Nvme
end Thur

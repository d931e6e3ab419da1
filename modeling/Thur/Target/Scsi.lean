import Mathlib.Data.UInt
import Thur.Target.Units
/-!
# Scsi — the SBC dispatcher

Planning a command parses the CDB and the parameter list and passes every gate, in the order the handlers do, on the
manifests, sizes and reservations alone; what comes out is a `ScsiAction`, an answer or the calls that are left to make.
The commands that never reach a volume's bytes, the reservations or the tokens (INQUIRY, MODE SENSE, READ CAPACITY, …)
are one parameter, `Probes`.
-/
namespace Thur

structure SenseData where
  key : UInt8
  asc : UInt8
  ascq : UInt8

namespace SenseData

def invalidOpcode : SenseData := ⟨0x05, 0x20, 0x00⟩

def invalidFieldInCdb : SenseData := ⟨0x05, 0x24, 0x00⟩

def invalidFieldInParameterList : SenseData := ⟨0x05, 0x26, 0x00⟩

def luNotSupported : SenseData := ⟨0x05, 0x25, 0x00⟩

def lbaOutOfRange : SenseData := ⟨0x05, 0x21, 0x00⟩

def luNotReadyOperationInProgress : SenseData := ⟨0x02, 0x04, 0x07⟩

def writeProtected : SenseData := ⟨0x07, 0x27, 0x00⟩

def writeError : SenseData := ⟨0x03, 0x0C, 0x00⟩

def readError : SenseData := ⟨0x03, 0x11, 0x00⟩

def internalTargetFailure : SenseData := ⟨0x04, 0x44, 0x00⟩

def miscompare : SenseData := ⟨0x0E, 0x1D, 0x00⟩

def tokenExpired : SenseData := ⟨0x05, 0x23, 0x05⟩

def tokenInvalid : SenseData := ⟨0x05, 0x23, 0x07⟩

end SenseData

inductive ScsiStatus
  | good
  | checkCondition
  | reservationConflict

structure ScsiResponse where
  status : ScsiStatus
  sense : Option SenseData
  dataIn : Bytes

namespace ScsiResponse

def good (dataIn : Bytes) : ScsiResponse := ⟨.good, none, dataIn⟩

def check (s : SenseData) : ScsiResponse := ⟨.checkCondition, some s, []⟩

def reservationConflict : ScsiResponse := ⟨.reservationConflict, none, []⟩

end ScsiResponse

structure ScsiRequest where
  tsih : UInt16
  lun : Lun
  cdb : Bytes
  dataOut : Bytes
  dataInMax : Nat
  initiatorIqn : Option String
  initiatorIsid : BitVec 48
  sessionVolumes : SessionVolumes

def ScsiRequest.nexus (req : ScsiRequest) : RegistrantId := .iscsi req.initiatorIqn req.initiatorIsid

def ScsiRequest.opcode (req : ScsiRequest) : UInt8 := req.cdb.byte 0

def ScsiRequest.serviceAction (req : ScsiRequest) : UInt8 := req.cdb.byte 1 &&& 0x1F

def mapWriteError : FaultClass → SenseData
  | .validation => .invalidFieldInCdb
  | .transient => .luNotReadyOperationInProgress
  | .integrity => .writeError
  | .infrastructure => .internalTargetFailure

def mapReadError : FaultClass → SenseData
  | .validation => .invalidFieldInCdb
  | .transient => .luNotReadyOperationInProgress
  | .integrity => .readError
  | .infrastructure => .internalTargetFailure

/-! ## Parsing -/

def beField (b : Bytes) (i n : Nat) : UInt64 := UInt64.ofNat (b.field i n).beNat

def parse10 (cdb : Bytes) : Except SenseData (UInt64 × UInt64) :=
  if cdb.length < 10 then .error .invalidFieldInCdb else .ok (beField cdb 2 4, beField cdb 7 2)

def parse16 (cdb : Bytes) : Except SenseData (UInt64 × UInt64) :=
  if cdb.length < 16 then .error .invalidFieldInCdb else .ok (beField cdb 2 8, beField cdb 10 4)

def parseRange (req : ScsiRequest) (opcode10 : UInt8) : Except SenseData (UInt64 × UInt64) :=
  if req.opcode = opcode10 then parse10 req.cdb else parse16 req.cdb

def resolveRangeSense (lu : LogicalUnit) (lba blocks : UInt64) : Except SenseData (Nat × Nat) :=
  match lu.resolveRange lba blocks with
  | .ok w => .ok w
  | .error _ => .error .lbaOutOfRange

def inRange (lu : LogicalUnit) (lba blocks : UInt64) : Bool :=
  lba.toNat + blocks.toNat < UInt64.size ∧ lba.toNat + blocks.toNat ≤ lu.totalBlocks

/-- The windows of at most `size` bytes; `fuel` bounds their number. -/
def windows (size : Nat) : Nat → Nat → Nat → List (Nat × Nat)
  | _, _, 0 => []
  | 0, _, _ + 1 => []
  | fuel + 1, cursor, remaining + 1 =>
    let this := min (remaining + 1) size
    (cursor, this) :: windows size fuel (cursor + this) (remaining + 1 - this)

/-! ## Actions -/

structure Bdrd where
  lba : UInt64
  blocks : UInt32

structure PlannedSegment where
  src : Lun × LogicalUnit
  dst : Lun × LogicalUnit
  blocks : UInt64
  srcLba : UInt64
  dstLba : UInt64

inductive ScsiAction
  | reply (r : ScsiResponse)
  | read (lun : Lun) (byteOffset len : Nat)
  | verify (lun : Lun) (byteOffset len : Nat) (expected : Option Bytes)
  | synchronize
  | mutate (lun : Lun) (ops : List BlockOp)
  | compareAndWrite (lun : Lun) (byteOffset : Nat) (expected new : Bytes)
  | extendedCopy (segments : List PlannedSegment)
  | populateToken (lun : Lun) (lu : LogicalUnit) (listId inactivity : UInt32) (bdrds : List Bdrd) (totalBlocks : UInt64)
  | writeUsingToken (lun : Lun) (lu : LogicalUnit) (listId : UInt32) (token : RodToken) (bdrds : List Bdrd)
  | cancelRodToken (listId : UInt32)
  | receiveRodTokenInfo (listId : UInt32) (allocLen : Nat)
  | persistentReserveOut (request : ReservationRequest)

namespace ScsiAction

def check (s : SenseData) : ScsiAction := .reply (.check s)

def done : ScsiAction := .reply (.good [])

end ScsiAction

/-! ## Planning: the data path -/

namespace Scsi

section

variable (req : ScsiRequest) (lu : Option LogicalUnit) (res : ReservationManager)

/-- The unit, its reservation, then write protection. -/
def gateWrite (k : LogicalUnit → ScsiAction) :
    ScsiAction :=
  match lu with
  | none => .check .luNotSupported
  | some lu =>
    if res.allowWrite req.lun req.nexus = false then .reply .reservationConflict
    else if lu.manifest.worm then .check .writeProtected
    else k lu

def gateRead (k : LogicalUnit → ScsiAction) :
    ScsiAction :=
  match lu with
  | none => .check .luNotSupported
  | some lu => if res.allowRead req.lun req.nexus = false then .reply .reservationConflict else k lu

def orCheck {α : Type} (r : Except SenseData α) (k : α → ScsiAction) : ScsiAction :=
  match r with
  | .ok a => k a
  | .error s => .check s

def write : ScsiAction :=
  gateWrite req lu res fun lu =>
    orCheck (parseRange req 0x2A) fun (lba, blocks) =>
      if blocks = 0 then .done
      else orCheck (resolveRangeSense lu lba blocks) fun (byteOffset, wantBytes) =>
        if req.dataOut.length ≠ wantBytes then .check .invalidFieldInCdb
        else .mutate req.lun [.writeBytes byteOffset req.dataOut]

def read (req : ScsiRequest) (lu : Option LogicalUnit) (res : ReservationManager) : ScsiAction :=
  gateRead req lu res fun lu =>
    orCheck (parseRange req 0x28) fun (lba, blocks) =>
      if blocks = 0 then .done
      else orCheck (resolveRangeSense lu lba blocks) fun (byteOffset, wantBytes) =>
        .read req.lun byteOffset (min wantBytes req.dataInMax)

def synchronizeCache : ScsiAction :=
  match lu with
  | none => .check .luNotSupported
  | some lu =>
    if res.allowWrite req.lun req.nexus = false then .reply .reservationConflict
    else orCheck (parseRange req 0x35) fun (lba, blocks) =>
      if blocks = 0 then if lu.totalBlocks ≤ lba.toNat then .check .lbaOutOfRange else .synchronize
      else if inRange lu lba blocks then .synchronize
      else .check .lbaOutOfRange

def compareAndWrite (req : ScsiRequest) (lu : Option LogicalUnit) (res : ReservationManager) : ScsiAction :=
  gateWrite req lu res fun lu =>
    if req.cdb.length < 16 then .check .invalidFieldInCdb
    else
      let blocks := (req.cdb.byte 13).toUInt64
      if blocks = 0 then .done
      else orCheck (resolveRangeSense lu (beField req.cdb 2 8) blocks) fun (byteOffset, wantEach) =>
        if req.dataOut.length ≠ 2 * wantEach then .check .invalidFieldInCdb
        else .compareAndWrite req.lun byteOffset (req.dataOut.take wantEach) (req.dataOut.drop wantEach)

/-- All resolved before the first is worked off. -/
def unmapRanges (lu : LogicalUnit) (p : Bytes) : List Nat → Except SenseData (List BlockOp)
  | [] => .ok []
  | i :: rest =>
    let blocks := beField p (8 + i * 16 + 8) 4
    if blocks = 0 then unmapRanges lu p rest
    else
      match resolveRangeSense lu (beField p (8 + i * 16) 8) blocks with
      | .error s => .error s
      | .ok (byteOffset, lenBytes) => (unmapRanges lu p rest).map (.unmapBytes byteOffset lenBytes :: ·)

def unmap : ScsiAction :=
  gateWrite req lu res fun lu =>
    if req.cdb.length < 10 then .check .invalidFieldInCdb
    else if req.cdb.byte 1 &&& 0x01 ≠ 0 then .check .invalidFieldInCdb
    else
      let parameterListLength := (req.cdb.field 7 2).beNat
      if parameterListLength = 0 then .done
      else if parameterListLength < 8 then .check .invalidFieldInParameterList
      else if req.dataOut.length < parameterListLength then .check .invalidFieldInParameterList
      else
        let p : Bytes := req.dataOut.take parameterListLength
        let descriptorTotal := (p.field 2 2).beNat
        if descriptorTotal % 16 ≠ 0 then .check .invalidFieldInParameterList
        else if parameterListLength < 8 + descriptorTotal then .check .invalidFieldInParameterList
        else orCheck (unmapRanges lu p (List.range (descriptorTotal / 16))) fun ops => .mutate req.lun ops

def verify (req : ScsiRequest) (lu : Option LogicalUnit) (res : ReservationManager) : ScsiAction :=
  gateRead req lu res fun lu =>
    orCheck (parseRange req 0x2F) fun (lba, blocks) =>
      let bytchk := (req.cdb.byte 1 >>> 1) &&& 0x03
      if req.cdb.byte 1 >>> 5 ≠ 0 then .check .invalidFieldInCdb
      else if bytchk = 2 ∨ bytchk = 3 then .check .invalidFieldInCdb
      else if blocks = 0 then .done
      else orCheck (resolveRangeSense lu lba blocks) fun (byteOffset, wantBytes) =>
        if bytchk = 0 then .verify req.lun byteOffset wantBytes none
        else if req.dataOut.length ≠ wantBytes then .check .invalidFieldInCdb
        else .verify req.lun byteOffset wantBytes (some req.dataOut)

def targetChunkBytes : Nat := 16777216

def writeSameOps (sector : Nat) (pattern : Bytes) (byteOffset lenBytes : Nat) : List BlockOp :=
  let chunkBytes := max (targetChunkBytes / sector) 1 * sector
  let bufLen := min chunkBytes lenBytes
  let buf := if pattern.all (· = 0) then List.replicate bufLen 0
    else (List.replicate (bufLen / pattern.length) pattern).flatten
  (windows chunkBytes lenBytes byteOffset lenBytes).map fun x => .writeBytes x.1 (buf.take x.2)

def writeSame : ScsiAction :=
  gateWrite req lu res fun lu =>
    let is10 := req.opcode = 0x41
    let flags := req.cdb.byte 1
    let unmap := flags &&& 0x08 ≠ 0
    let ndob := ¬ is10 ∧ flags &&& 0x01 ≠ 0
    if req.cdb.length < (if is10 then 10 else 16) then .check .invalidFieldInCdb
    else if flags >>> 5 ≠ 0 then .check .invalidFieldInCdb
    else if flags &&& 0x10 ≠ 0 ∨ flags &&& 0x04 ≠ 0 ∨ flags &&& 0x02 ≠ 0 then .check .invalidFieldInCdb
    else
      let lba := if is10 then beField req.cdb 2 4 else beField req.cdb 2 8
      let blocksField := if is10 then beField req.cdb 7 2 else beField req.cdb 10 4
      if lu.totalBlocks ≤ lba.toNat then .check .lbaOutOfRange
      else if blocksField = 0 ∧ is10 then .done
      else
        let blocks := if blocksField = 0 then UInt64.ofNat (lu.totalBlocks - lba.toNat) else blocksField
        orCheck (resolveRangeSense lu lba blocks) fun (byteOffset, lenBytes) =>
          if ¬ ndob ∧ req.dataOut.length ≠ lu.sector then .check .invalidFieldInCdb
          else
            let pattern := if ndob then [] else req.dataOut
            if unmap ∧ pattern.all (· = 0) then .mutate req.lun [.unmapBytes byteOffset lenBytes]
            else .mutate req.lun (writeSameOps lu.sector pattern byteOffset lenBytes)

end

/-! ## Planning: EXTENDED COPY -/

/-- The first eight bytes of the UUID under the locally-assigned type nibble. -/
def naaLocallyAssigned (uuid : Uuid) : BitVec 64 := 0x3#4 ++ uuid.extractLsb' 64 60

/-- Of several units the last one registered. -/
def resolveNaa (t : Target) (allow : SessionVolumes) (naa : BitVec 64) : Option (Lun × LogicalUnit) :=
  (t.units.entries.filter (fun e => t.lunAdmitted allow e.1 && naaLocallyAssigned e.2.uuid == naa)).getLast?

def resolveTargetDescriptor (t : Target) (allow : SessionVolumes) (desc : Bytes) : Option (Lun × LogicalUnit) :=
  if desc.length < 32 ∨ desc.byte 0 ≠ 0xE4 then none
  else if 28 < 8 + (desc.byte 7).toNat then none
  else if desc.byte 5 &&& 0x0F ≠ 0x03 ∨ desc.byte 7 ≠ 8 then none
  else resolveNaa t allow (BitVec.ofNat 64 (desc.field 8 8).beNat)

def parseSegments (sdescs : Bytes) (targets : List (Lun × LogicalUnit)) : Nat → Nat → Option (List PlannedSegment)
  | 0, _ => some []
  | fuel + 1, cursor =>
    if sdescs.length ≤ cursor then some []
    else if sdescs.length < cursor + 4 then none
    else
      let sd : Bytes := sdescs.drop cursor
      let dlen := (sd.field 2 2).beNat
      if sdescs.length < cursor + (4 + dlen) then none
      else if sd.byte 0 ≠ 0x02 ∨ dlen ≠ 0x18 then none
      else
        match targets[(sd.field 4 2).beNat]?, targets[(sd.field 6 2).beNat]? with
        | some src, some dst =>
          (parseSegments sdescs targets fuel (cursor + (4 + dlen))).map
            (⟨src, dst, beField sd 10 2, beField sd 12 8, beField sd 20 8⟩ :: ·)
        | _, _ => none

/-- The destination's write protection and reservation, the source's reservation, the ranges. -/
def gateSegment (res : ReservationManager) (nexus : RegistrantId) (seg : PlannedSegment) : Except ScsiResponse Unit :=
  if seg.dst.2.manifest.worm then .error (.check .writeProtected)
  else if res.allowWrite seg.dst.1 nexus = false then .error .reservationConflict
  else if res.allowRead seg.src.1 nexus = false then .error .reservationConflict
  else if seg.blocks = 0 then .ok ()
  else if inRange seg.src.2 seg.srcLba seg.blocks = false ∨ inRange seg.dst.2 seg.dstLba seg.blocks = false then
    .error (.check .lbaOutOfRange)
  else .ok ()

def gateSegments (res : ReservationManager) (nexus : RegistrantId) : List PlannedSegment → Except ScsiResponse Unit
  | [] => .ok ()
  | seg :: rest =>
    match gateSegment res nexus seg with
    | .error r => .error r
    | .ok () => gateSegments res nexus rest

section

variable (t : Target) (req : ScsiRequest)

/-- The target descriptors from `tdescOff`, the segment descriptors behind them. -/
def resolveTargetsAndPlan (plist : Bytes) (tdescOff tdescLen sdescLen : Nat) :
    ScsiAction :=
  if tdescLen % 32 ≠ 0 then .check .invalidFieldInParameterList
  else if tdescLen / 32 = 0 ∨ 65535 < tdescLen / 32 then .check .invalidFieldInParameterList
  else
    match (List.range (tdescLen / 32)).mapM (fun i =>
      resolveTargetDescriptor t req.sessionVolumes (plist.field (tdescOff + i * 32) 32)) with
    | none => .check .invalidFieldInParameterList
    | some targets =>
      match parseSegments (plist.field (tdescOff + tdescLen) sdescLen) targets sdescLen 0 with
      | none => .check .invalidFieldInParameterList
      | some planned =>
        match gateSegments t.reservations req.nexus planned with
        | .error r => .reply r
        | .ok () => .extendedCopy planned

def plistLen (req : ScsiRequest) : Nat := (req.cdb.field 10 4).beNat

def extendedCopyLid1 : ScsiAction :=
  if plistLen req = 0 then .done
  else if req.dataOut.length < plistLen req then .check .invalidFieldInParameterList
  else
    let plist : Bytes := req.dataOut.take (plistLen req)
    let tdescLen := (plist.field 2 2).beNat
    let sdescLen := (plist.field 8 4).beNat
    if plist.length < 16 then .check .invalidFieldInParameterList
    else if (plist.field 12 4).beNat ≠ 0 then .check .invalidFieldInParameterList
    else if tdescLen = 0 ∨ sdescLen = 0 then .check .invalidFieldInParameterList
    else if plist.length < 16 + tdescLen + sdescLen then .check .invalidFieldInParameterList
    else resolveTargetsAndPlan t req plist 16 tdescLen sdescLen

def extendedCopyLid4 : ScsiAction :=
  if plistLen req = 0 then .done
  else if req.dataOut.length < plistLen req then .check .invalidFieldInParameterList
  else
    let plist : Bytes := req.dataOut.take (plistLen req)
    let tdescLen := (plist.field 42 2).beNat
    let sdescLen := (plist.field 44 2).beNat
    if plist.length < 48 then .check .invalidFieldInParameterList
    else if plist.byte 0 ≠ 0x01 then .check .invalidFieldInParameterList
    else if (plist.field 2 2).beNat ≠ 0 then .check .invalidFieldInParameterList
    else if (plist.field 46 2).beNat ≠ 0 then .check .invalidFieldInParameterList
    else if tdescLen = 0 ∨ sdescLen = 0 then .check .invalidFieldInParameterList
    else if plist.length < 48 + tdescLen + sdescLen then .check .invalidFieldInParameterList
    else resolveTargetsAndPlan t req plist 48 tdescLen sdescLen

/-! ## Planning: tokens -/

def listIdentifier (req : ScsiRequest) : UInt32 := UInt32.ofNat (req.cdb.field 6 4).beNat

def parseBdrdList (buf : Bytes) : Except SenseData (List Bdrd) :=
  if buf.length % 16 ≠ 0 then .error .invalidFieldInParameterList
  else if 8 < buf.length / 16 then .error .invalidFieldInParameterList
  else .ok ((List.range (buf.length / 16)).map (fun i =>
    ⟨beField buf (i * 16) 8, UInt32.ofNat (buf.field (i * 16 + 8) 4).beNat⟩))

/-- In the unit and whole pages; the first range that is not decides. -/
def checkBdrds (lu : LogicalUnit) : List Bdrd → Except SenseData Unit
  | [] => .ok ()
  | bd :: rest =>
    if bd.blocks = 0 then checkBdrds lu rest
    else if inRange lu bd.lba bd.blocks.toUInt64 = false then .error .lbaOutOfRange
    else if bd.lba.toNat % (lu.pageSize / lu.sector) ≠ 0 ∨ bd.blocks.toNat % (lu.pageSize / lu.sector) ≠ 0 then
      .error .invalidFieldInParameterList
    else checkBdrds lu rest

def totalBlocks (bdrds : List Bdrd) : UInt64 := (bdrds.map (fun bd => bd.blocks.toUInt64)).sum

def populateToken (t : Target) (req : ScsiRequest) : ScsiAction :=
  if t.lunAdmitted req.sessionVolumes req.lun = false then .check .luNotSupported
  else if t.reservations.allowRead req.lun req.nexus = false then .reply .reservationConflict
  else
    match t.units.get req.lun with
    | none => .check .luNotSupported
    | some lu =>
      if plistLen req = 0 then .done
      else if req.dataOut.length < plistLen req ∨ plistLen req < 16 then .check .invalidFieldInParameterList
      else
        let plist : Bytes := req.dataOut.take (plistLen req)
        let bdrdTotal := (plist.field 14 2).beNat
        if plist.length < 16 + bdrdTotal then .check .invalidFieldInParameterList
        else orCheck (parseBdrdList (plist.field 16 bdrdTotal)) fun bdrds =>
          if bdrds = [] then .done
          else if lu.pageSize % lu.sector ≠ 0 ∨ lu.pageSize = 0 then .check .invalidFieldInParameterList
          else orCheck (checkBdrds lu bdrds) fun _ =>
            -- MAXIMUM TOKEN TRANSFER SIZE: 1 GiB
            if 1073741824 / lu.sector < (totalBlocks bdrds).toNat then .check .invalidFieldInParameterList
            else .populateToken req.lun lu (listIdentifier req) (UInt32.ofNat (plist.field 4 4).beNat) bdrds
              (totalBlocks bdrds)

def writeUsingToken (t : Target) (req : ScsiRequest) : ScsiAction :=
  if t.lunAdmitted req.sessionVolumes req.lun = false then .check .luNotSupported
  else
    match t.units.get req.lun with
    | none => .check .luNotSupported
    | some lu =>
      if lu.manifest.worm then .check .writeProtected
      else if t.reservations.allowWrite req.lun req.nexus = false then .reply .reservationConflict
      else if plistLen req = 0 then .done
      else if req.dataOut.length < plistLen req ∨ plistLen req < 16 + rodTokenLen + 8 then
        .check .invalidFieldInParameterList
      else
        let plist : Bytes := req.dataOut.take (plistLen req)
        let bdrdTotal := (plist.field (16 + rodTokenLen) 2).beNat
        if plist.length < 16 + rodTokenLen + 8 + bdrdTotal then .check .invalidFieldInParameterList
        else orCheck (parseBdrdList (plist.field (16 + rodTokenLen + 8) bdrdTotal)) fun bdrds =>
          if bdrds = [] then .done
          else .writeUsingToken req.lun lu (listIdentifier req) (plist.field 16 rodTokenLen) bdrds

def extendedCopy : ScsiAction :=
  if req.cdb.length < 16 then .check .invalidFieldInCdb
  else if req.serviceAction = 0x00 then extendedCopyLid1 t req
  else if req.serviceAction = 0x01 then extendedCopyLid4 t req
  else if req.serviceAction = 0x10 then populateToken t req
  else if req.serviceAction = 0x11 then writeUsingToken t req
  else if req.serviceAction = 0x12 then .cancelRodToken (listIdentifier req)
  else .check .invalidFieldInCdb

end

/-! ## RECEIVE COPY RESULTS -/

def copyStatusResponse : Bytes := [0, 0, 0, 12, 0x02] ++ List.replicate 11 0

def receiveDataResponse : Bytes := [0, 0, 0, 0]

def operatingParametersResponse : Bytes :=
  [0, 0, 0, 42, 0x01, 0, 0, 0, 0, 2, 0, 1, 0, 0, 0, 128, 1, 0, 0, 0] ++ List.replicate 17 0 ++ [16, 0, 0, 0, 0, 0, 2] ++
    [0xE4, 0x02]

def failedSegmentDetailsResponse : Bytes := [0, 0, 0, 56] ++ List.replicate 56 0

/-- The outcome of a job, with the token of a POPULATE TOKEN. -/
def rrtiResponse (job : Option JobResult) : Bytes :=
  let token := job.bind JobResult.token
  let responseToSa : UInt8 := if job.isSome ∧ token.isNone then 0x11 else 0x10
  let copyOpStatus : UInt8 := match job.map JobResult.status with
    | none => 0x00
    | some .done => 0x02
    | some (.failed _) => 0x03
  let completionStatus : UInt8 := match job.map JobResult.status with
    | some (.failed completionStatus) => completionStatus
    | _ => 0
  let body := [responseToSa, copyOpStatus, 0, 0, 0, 0, 0, 0, completionStatus, 0, 0, 0x01] ++
    Bytes.ofNatBE 8 ((job.map JobResult.transferBlocks).getD 0).toNat ++ [0, 0, 0, 0, 0, 0, 0, 0] ++
    match token with
    | some token => Bytes.ofNatBE 4 (4 + rodTokenLen) ++ [0, 0] ++ Bytes.ofNatBE 2 rodTokenLen ++ token
    | none => [0, 0, 0, 0]
  Bytes.ofNatBE 4 body.length ++ body

def receiveCopyResults (req : ScsiRequest) : ScsiAction :=
  let allocLen := (req.cdb.field 10 4).beNat
  if req.cdb.length < 16 then .check .invalidFieldInCdb
  else if req.serviceAction = 0x00 then .reply (.good (copyStatusResponse.take allocLen))
  else if req.serviceAction = 0x01 then .reply (.good (receiveDataResponse.take allocLen))
  else if req.serviceAction = 0x03 then .reply (.good (operatingParametersResponse.take allocLen))
  else if req.serviceAction = 0x04 then .reply (.good (failedSegmentDetailsResponse.take allocLen))
  else if req.serviceAction = 0x07 then .receiveRodTokenInfo (UInt32.ofNat (req.cdb.field 2 4).beNat) allocLen
  else .check .invalidFieldInCdb

/-! ## PERSISTENT RESERVE -/

def persistentReserveIn (persist : Option EntityResolver) (req : ScsiRequest) (lu : Option LogicalUnit)
    (res : ReservationManager) : ScsiAction :=
  match lu with
  | none => .check .luNotSupported
  | some _ =>
    if req.cdb.length < 10 then .check .invalidFieldInCdb
    else
      match res.prin persist req.lun req.serviceAction with
      | some body => .reply (.good (body.take (min (req.cdb.field 7 2).beNat req.dataInMax)))
      | none => .check .invalidFieldInCdb

def persistentReserveOut (req : ScsiRequest) (lu : Option LogicalUnit) : ScsiAction :=
  match lu with
  | none => .check .luNotSupported
  | some _ =>
    if req.cdb.length < 10 then .check .invalidFieldInCdb
    else .persistentReserveOut (.prout req.lun req.serviceAction ((req.cdb.byte 2 >>> 4) &&& 0x0F)
      (req.cdb.byte 2 &&& 0x0F) req.dataOut (UInt32.ofNat (req.cdb.field 5 4).beNat) req.nexus true)

def mapProut : PrOutOutcome → ScsiResponse
  | .good => .good []
  | .reservationConflict => .reservationConflict
  | .invalidFieldInCdb => .check .invalidFieldInCdb
  | .invalidFieldInParameterList => .check .invalidFieldInParameterList
  | .luNotSupported => .check .luNotSupported
  | .persistFailed => .check .internalTargetFailure

abbrev Probes := ScsiRequest → Option LogicalUnit → List Lun → ScsiResponse

def lunsFiltered (t : Target) (allow : SessionVolumes) : List Lun :=
  (t.units.entries.filter (fun e => t.lunAdmitted allow e.1)).map Prod.fst

def plan (persist : Option EntityResolver) (probes : Probes) (t : Target) (req : ScsiRequest) : ScsiAction :=
  let lu := t.admittedUnit req.sessionVolumes req.lun
  let op := req.opcode
  if op = 0x28 ∨ op = 0x88 then read req lu t.reservations
  else if op = 0x2A ∨ op = 0x8A then write req lu t.reservations
  else if op = 0x2F ∨ op = 0x8F then verify req lu t.reservations
  else if op = 0x35 ∨ op = 0x91 then synchronizeCache req lu t.reservations
  else if op = 0x41 ∨ op = 0x93 then writeSame req lu t.reservations
  else if op = 0x42 then unmap req lu t.reservations
  else if op = 0x5E then persistentReserveIn persist req lu t.reservations
  else if op = 0x5F then persistentReserveOut req lu
  else if op = 0x83 then extendedCopy t req
  else if op = 0x84 then receiveCopyResults req
  else if op = 0x89 then compareAndWrite req lu t.reservations
  else .reply (probes req lu (lunsFiltered t req.sessionVolumes))

/-! ## Running -/

section Run

variable (persist : Option EntityResolver) (w : World)

def copyChunk : Nat := 1048576

def copyWindows (src dst : Lun) (srcOffset dstOffset : Nat) : List (Nat × Nat) → Exec → Exec × Option SenseData
  | [], x => (x, none)
  | (cursor, len) :: rest, x =>
    match x.read w src (srcOffset + cursor) len with
    | (x, .error e) => (x, some (mapReadError e.kind))
    | (x, .ok buf) =>
      match x.mutate w dst (.writeBytes (dstOffset + cursor) buf) with
      | (x, .error e) => (x, some (mapWriteError e.kind))
      | (x, .ok _) => copyWindows src dst srcOffset dstOffset rest x

/-- Page clones when the ranges are whole pages and do not overlap, bytes otherwise. -/
def executeSegment (seg : PlannedSegment) (x : Exec) : Exec × Option SenseData :=
  let (src, srcUnit) := seg.src
  let (dst, dstUnit) := seg.dst
  if srcUnit.sector ≠ dstUnit.sector then (x, some .invalidFieldInParameterList)
  else
    let srcOffset := seg.srcLba.toNat * srcUnit.sector
    let dstOffset := seg.dstLba.toNat * dstUnit.sector
    let len := seg.blocks.toNat * srcUnit.sector
    let page := srcUnit.pageSize
    let aligned := page = dstUnit.pageSize ∧ srcOffset % page = 0 ∧ dstOffset % page = 0 ∧ len % page = 0
    let overlap := src = dst ∧ srcOffset < dstOffset + len ∧ dstOffset < srcOffset + len
    if aligned ∧ ¬ overlap then
      match x.cloneInto w src srcOffset dst dstOffset len with
      | (x, none) => (x, none)
      | (x, some e) => (x, some (mapWriteError e.kind))
    else copyWindows w src dst srcOffset dstOffset (windows copyChunk len 0 len) x

def extendedCopyExecute : List PlannedSegment → Exec → Exec × Option SenseData
  | [], x => (x, none)
  | seg :: rest, x =>
    if seg.blocks = 0 then extendedCopyExecute rest x
    else
      match executeSegment w seg x with
      | (x, none) => extendedCopyExecute rest x
      | (x, some s) => (x, some s)

def flushRanges (lun : Lun) (lu : LogicalUnit) : List Bdrd → Exec → Exec × Option SenseData
  | [], x => (x, none)
  | bd :: rest, x =>
    let firstPage := bd.lba.toNat * lu.sector / lu.pageSize
    let lastPage := ((bd.lba.toNat + bd.blocks.toNat) * lu.sector - 1) / lu.pageSize
    if bd.blocks = 0 then flushRanges lun lu rest x
    else if UInt32.size ≤ firstPage ∨ UInt32.size ≤ lastPage then (x, some .lbaOutOfRange)
    else
      match x.read w lun 0 0 with
      | (x, .error e) => (x, some (mapWriteError e.kind))
      | (x, .ok _) => flushRanges lun lu rest x

def bdrdPages (lu : LogicalUnit) (bdrds : List Bdrd) : List PageId :=
  bdrds.flatMap (fun bd =>
    (List.range (bd.blocks.toNat * lu.sector / lu.pageSize)).map (fun i =>
      UInt32.ofNat (bd.lba.toNat * lu.sector / lu.pageSize + i)))

def snapshotState (lun : Lun) (lu : LogicalUnit) (content : Bytes) (pages : List PageId) (totalBlocks : UInt64)
    (deadline : Nat) : TokenState where
  sourceLun := lun
  sourceBackend := lu.backend
  sourceNamespace := lu.poolNamespace
  sourcePageSize := lu.manifest.pageSizeBytes
  sourcePages := pages
  contents := pages.map fun p => content.field (p.toNat * lu.pageSize) lu.pageSize
  sourceEncrypted := lu.encrypted
  sourceDekUuid := lu.dekUuid
  totalBlocks := totalBlocks
  deadline := deadline

def runPopulateToken (lun : Lun) (lu : LogicalUnit) (listId inactivity : UInt32) (bdrds : List Bdrd)
    (totalBlocks : UInt64) (x : Exec) : Exec × ScsiResponse :=
  match flushRanges w lun lu bdrds x with
  | (x, some s) => (x, .check s)
  | (x, none) =>
    -- the reads of the page index
    match x.read w lun 0 0 with
    | (x, .error e) => (x, .check (mapReadError e.kind))
    | (x, .ok _) =>
      let state := snapshotState lun lu (x.target.content lun) (bdrdPages lu bdrds) totalBlocks
        (w.now + TokenManager.resolveTtl inactivity)
      ({ x with target := { x.target with tokens := x.target.tokens.mintToken listId w.token state } }, .good [])

def recordOutcome (x : Exec) (listId : UInt32) (status : JobStatus) (transferBlocks : UInt64) : Exec :=
  { x with target := { x.target with
      tokens := x.target.tokens.recordWriteOutcome w.now listId status transferBlocks } }

def failToken (x : Exec) (listId : UInt32) (s : SenseData) (committedBlocks : UInt64) : Exec × ScsiResponse :=
  (recordOutcome w x listId (.failed s.key) committedBlocks, .check s)

/-- Cleared or bound when that is sound, else read under the source's identity and sealed under the destination's; a
failed step leaves the volume as the world decides. -/
def applyPage (lun : Lun) (lu : LogicalUnit) (st : TokenState) (x : Exec) (src dst : PageId) (bytes : Bytes) :
    Exec × Option SenseData :=
  let bound := rebindIsSound st.sourceEncrypted st.sourceDekUuid src lu.encrypted lu.dekUuid dst
  match x.mutate w lun (.writeBytes (dst.toNat * lu.pageSize) bytes) with
  | (x, .ok _) => (x, none)
  | (x, .error e) => (x, some (if e.reading ∧ bound = false then mapReadError e.kind else mapWriteError e.kind))

def applyToken (lun : Lun) (lu : LogicalUnit) (st : TokenState) :
    List (PageId × PageId × Bytes) → UInt64 → Exec → Exec × Option (SenseData × UInt64)
  | [], _, x => (x, none)
  | (src, dst, bytes) :: rest, committed, x =>
    match applyPage w lun lu st x src dst bytes with
    | (x, none) => applyToken lun lu st rest (committed + UInt64.ofNat (lu.pageSize / lu.sector)) x
    | (x, some s) => (x, some (s, committed))

def runWriteUsingToken (lun : Lun) (lu : LogicalUnit) (listId : UInt32) (token : RodToken) (bdrds : List Bdrd)
    (x : Exec) : Exec × ScsiResponse :=
  let tm := x.target.tokens
  match tm.snapshotFor w.now token with
  | none => failToken w x listId (if tm.isExpired w.now token then .tokenExpired else .tokenInvalid) 0
  | some st =>
    if lu.manifest.pageSizeBytes ≠ st.sourcePageSize then failToken w x listId .invalidFieldInParameterList 0
    else
      match checkBdrds lu bdrds with
      | .error s => failToken w x listId s 0
      | .ok () =>
        if (bdrds.map (fun bd => bd.blocks.toNat / (lu.pageSize / lu.sector))).sum ≠ st.sourcePages.length then
          failToken w x listId .invalidFieldInParameterList 0
        else if st.sourceBackend ≠ lu.backend ∨ st.sourceNamespace ≠ lu.poolNamespace then
          failToken w x listId .invalidFieldInParameterList 0
        else
          match applyToken w lun lu st (st.sourcePages.zip ((bdrdPages lu bdrds).zip st.contents)) 0 x with
          | (x, some (s, committed)) => failToken w x listId s committed
          | (x, none) => (recordOutcome w x listId .done (totalBlocks bdrds), .good [])

def run (x : Exec) : ScsiAction → Exec × ScsiResponse
  | .reply r => (x, r)
  | .read lun byteOffset len =>
    match x.read w lun byteOffset len with
    | (x, .ok out) => (x, .good out)
    | (x, .error e) => (x, .check (mapReadError e.kind))
  | .verify lun byteOffset len expected =>
    match x.read w lun byteOffset len with
    | (x, .error e) => (x, .check (mapReadError e.kind))
    | (x, .ok onMedium) =>
      match expected with
      | some data => (x, if onMedium ≠ data then .check .miscompare else .good [])
      | none => (x, .good [])
  | .synchronize =>
    match w.fault x.calls with
    | some e => (x, .check (mapWriteError e.kind))
    | none => (x, .good [])
  | .mutate lun ops =>
    match x.mutateAll w lun ops with
    | (x, some e) => (x, .check (mapWriteError e.kind))
    | (x, none) => (x, .good [])
  | .compareAndWrite lun byteOffset expected new =>
    match x.mutate w lun (.compareAndWriteBytes byteOffset expected new) with
    | (x, .error e) => (x, .check (mapReadError e.kind))
    | (x, .ok reply) => (x, if reply = .verdict false then .check .miscompare else .good [])
  | .extendedCopy segments =>
    match extendedCopyExecute w segments x with
    | (x, some s) => (x, .check s)
    | (x, none) => (x, .good [])
  | .populateToken lun lu listId inactivity bdrds totalBlocks =>
    runPopulateToken w lun lu listId inactivity bdrds totalBlocks x
  | .writeUsingToken lun lu listId token bdrds => runWriteUsingToken w lun lu listId token bdrds x
  | .cancelRodToken listId =>
    ({ x with target := { x.target with tokens := x.target.tokens.cancel listId } }, .good [])
  | .receiveRodTokenInfo listId allocLen => (x, .good ((rrtiResponse (x.target.tokens.jobs listId)).take allocLen))
  | .persistentReserveOut request =>
    let r := x.target.reservations.serve persist request w.persisted
    ({ x with target := { x.target with reservations := r.1 } }, mapProut r.2)

def lunByte (lun : Lun) : UInt8 := if lun.toNat < 256 then UInt8.ofNat lun.toNat else 0xFF

/-- Answered instead of running the command; none for INQUIRY, REQUEST SENSE and REPORT LUNS. -/
def pendingAttention (t : Target) (req : ScsiRequest) : Option (UInt8 × UInt8) :=
  if req.opcode = 0x12 ∨ req.opcode = 0x03 ∨ req.opcode = 0xA0 then none
  else (t.attentions req.tsih (lunByte req.lun)).head?

def popAttention (t : Target) (req : ScsiRequest) : Target :=
  let queues := t.attentions req.tsih
  let popped := Function.update queues (lunByte req.lun) (queues (lunByte req.lun)).tail
  { t with attentions := Function.update t.attentions req.tsih popped }

def dispatch (probes : Probes) (t : Target) (req : ScsiRequest) : Target × ScsiResponse :=
  if req.cdb = [] then (t, .check .invalidOpcode)
  else
    match pendingAttention t req with
    | some (asc, ascq) => (popAttention t req, .check ⟨0x06, asc, ascq⟩)
    | none =>
      let r := run persist w ⟨t, 0⟩ (plan persist probes t req)
      (r.1.target, r.2)

end Run

end Scsi
end Thur

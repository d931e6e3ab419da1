import Thur.Lib.Bytes
import Thur.Lib.Machine
import Thur.Reservations.LunState
/-!
# Manager — the reservation manager of all logical units

`ReservationManager` keeps the states of all units under one lock, a lock-free summary flag beside them, and the
persistence file of the units whose last REGISTER asked for it. A mutation is applied under `by_lun`, and the file is
written after `by_lun` is released (`mutating`) before the caller is answered; a failed write takes the mutation back.
The access checks run between the two.
-/
namespace Thur

open SortedMap

abbrev Lun := UInt64

instance : LinearOrder Lun where
  le_refl := UInt64.le_refl
  le_trans _ _ _ := UInt64.le_trans
  le_antisymm _ _ := UInt64.le_antisymm
  le_total := UInt64.le_total
  lt_iff_le_not_ge a b := by
    rw [UInt64.not_le]
    exact ⟨fun h => ⟨UInt64.le_of_lt h, h⟩, fun h => h.2⟩
  toDecidableLE := inferInstance
  toDecidableEq := inferInstance

abbrev Uuid := BitVec 128

/-! ## Requests -/

/-- A SCSI PROUT, an NVMe Register, Acquire or Release, or one of the operations they end in. -/
inductive ReservationRequest where
  | prout (lun : Lun) (serviceAction scope typeByte : UInt8) (paramList : Bytes) (paramListLen : UInt32)
      (nexus : RegistrantId) (lunPresent : Bool)
  | reservationRegister (nsid : UInt32) (hostid : BitVec 128) (cdw10 : UInt32) (dataOut : Option Bytes)
  | reservationAcquire (nsid : UInt32) (hostid : BitVec 128) (cdw10 : UInt32) (dataOut : Option Bytes)
  | reservationRelease (nsid : UInt32) (hostid : BitVec 128) (cdw10 : UInt32) (dataOut : Option Bytes)
  | call (lun : Lun) (id : RegistrantId) (op : ReservationOp)

namespace ReservationRequest

def nsidToLun (nsid : UInt32) : Lun := if nsid = 0 then 0 else (nsid - 1).toUInt64

def issuer : ReservationRequest → RegistrantId
  | prout _ _ _ _ _ _ nexus _ => nexus
  | reservationRegister _ hostid _ _ | reservationAcquire _ hostid _ _ | reservationRelease _ hostid _ _ =>
    .nvmeHost hostid
  | call _ id _ => id

def lun : ReservationRequest → Lun
  | prout lun _ _ _ _ _ _ _ => lun
  | reservationRegister nsid _ _ _ | reservationAcquire nsid _ _ _ | reservationRelease nsid _ _ _ => nsidToLun nsid
  | call lun _ _ => lun

def proutOp (ptplCapable : Bool) (serviceAction scope typeByte : UInt8) (paramList : Bytes) (paramListLen : UInt32)
    (lunPresent : Bool) : Except PrOutOutcome ReservationOp :=
  if lunPresent = false then .error .luNotSupported
  else if scope ≠ 0x00 ∧ serviceAction ≠ 0x00 ∧ serviceAction ≠ 0x06 then .error .invalidFieldInCdb
  else if paramListLen ≠ 24 ∨ paramList.length < 24 then .error .invalidFieldInParameterList
  else
    let reservationKey := UInt64.ofNat (paramList.field 0 8).beNat
    let serviceActionKey := UInt64.ofNat (paramList.field 8 8).beNat
    let aptpl := paramList.byte 20 &&& 0x01 != 0
    let specIPt := paramList.byte 20 &&& 0x08 != 0
    let allTgPt := paramList.byte 20 &&& 0x04 != 0
    if specIPt ∨ allTgPt then .error .invalidFieldInParameterList
    else if aptpl ∧ ptplCapable = false then .error .invalidFieldInParameterList
    else if serviceAction = 0x00 then .ok (.register reservationKey serviceActionKey false (some aptpl))
    else if serviceAction = 0x01 then .ok (.reserve reservationKey typeByte)
    else if serviceAction = 0x02 then .ok (.release reservationKey typeByte)
    else if serviceAction = 0x03 then .ok (.clear reservationKey)
    else if serviceAction = 0x04 ∨ serviceAction = 0x05 then .ok (.preempt reservationKey serviceActionKey typeByte)
    else if serviceAction = 0x06 then .ok (.register reservationKey serviceActionKey true (some aptpl))
    else .error .invalidFieldInCdb

def action (cdw10 : UInt32) : UInt32 := cdw10 &&& 0x7

def iekey (cdw10 : UInt32) : Bool := (cdw10 >>> 3) &&& 1 != 0

def cptpl (cdw10 : UInt32) : UInt32 := (cdw10 >>> 30) &&& 0x3

def rtype (cdw10 : UInt32) : UInt32 := (cdw10 >>> 8) &&& 0xFF

def parseKeys (data : Bytes) : Option (UInt64 × UInt64) :=
  if data.length < 16 then none
  else some (UInt64.ofNat (data.field 0 8).leNat, UInt64.ofNat (data.field 8 8).leNat)

def parseReleaseKey (data : Bytes) : Option UInt64 :=
  if data.length < 8 then none else some (UInt64.ofNat (data.field 0 8).leNat)

def nvmeRtypeToScsiByte (rtype : UInt32) : Option UInt8 :=
  if rtype = 1 then some 0x01
  else if rtype = 2 then some 0x03
  else if rtype = 3 then some 0x05
  else if rtype = 4 then some 0x06
  else if rtype = 5 then some 0x07
  else if rtype = 6 then some 0x08
  else none

/-- CPTPL as the APTPL bit; the outer `none` refuses it. -/
def cptplAptpl (ptplCapable : Bool) (cdw10 : UInt32) : Option (Option Bool) :=
  if cptpl cdw10 = 0 then some none
  else if cptpl cdw10 = 2 then some (some false)
  else if cptpl cdw10 = 3 ∧ ptplCapable then some (some true)
  else none

def registerOp (ptplCapable : Bool) (cdw10 : UInt32) (dataOut : Option Bytes) : Option ReservationOp := do
  let aptpl ← cptplAptpl ptplCapable cdw10
  let (crkey, nrkey) ← dataOut.bind parseKeys
  if action cdw10 = 0 ∨ action cdw10 = 2 then some (.register crkey nrkey (iekey cdw10) aptpl)
  else if action cdw10 = 1 then some (.register crkey 0 (iekey cdw10) aptpl)
  else none

def acquireOp (cdw10 : UInt32) (dataOut : Option Bytes) : Option ReservationOp := do
  let scsiType ← nvmeRtypeToScsiByte (rtype cdw10)
  let (crkey, prkey) ← dataOut.bind parseKeys
  if action cdw10 = 0 then some (.reserve crkey scsiType)
  else if action cdw10 = 1 ∨ action cdw10 = 2 then some (.preempt crkey prkey scsiType)
  else none

def releaseOp (cdw10 : UInt32) (dataOut : Option Bytes) : Option ReservationOp := do
  let crkey ← dataOut.bind parseReleaseKey
  if action cdw10 = 0 then
    let scsiType ← nvmeRtypeToScsiByte (rtype cdw10)
    some (.release crkey scsiType)
  else if action cdw10 = 1 then some (.clear crkey)
  else none

/-- Or what the request is answered without reaching the state. -/
def decode (ptplCapable : Bool) : ReservationRequest → Except PrOutOutcome ReservationOp
  | prout _ serviceAction scope typeByte paramList paramListLen _ lunPresent =>
    proutOp ptplCapable serviceAction scope typeByte paramList paramListLen lunPresent
  | reservationRegister _ _ cdw10 dataOut => (registerOp ptplCapable cdw10 dataOut).elim (.error .invalidFieldInCdb) .ok
  | reservationAcquire _ _ cdw10 dataOut => (acquireOp cdw10 dataOut).elim (.error .invalidFieldInCdb) .ok
  | reservationRelease _ _ cdw10 dataOut => (releaseOp cdw10 dataOut).elim (.error .invalidFieldInCdb) .ok
  | call _ _ op => .ok op

theorem decode_ne_good (ptplCapable : Bool) (req : ReservationRequest) : req.decode ptplCapable ≠ .error .good := by
  have helim : ∀ o : Option ReservationOp,
      o.elim (.error PrOutOutcome.invalidFieldInCdb) .ok ≠ Except.error PrOutOutcome.good := by
    intro o
    cases o <;> simp
  cases req with
  | prout =>
    have hite : ∀ {c : Prop} [Decidable c] {x y : Except PrOutOutcome ReservationOp}, x ≠ .error .good →
        y ≠ .error .good → (if c then x else y) ≠ .error .good := by
      intro c _ x y hx hy
      split <;> assumption
    unfold decode proutOp
    dsimp only
    repeat' apply hite
    all_goals simp
  | reservationRegister | reservationAcquire | reservationRelease => exact helim _
  | call => simp [decode]

end ReservationRequest

/-! ## The persistence file -/

structure EntityResolver where
  uuidForLun : Lun → Option Uuid
  lunForUuid : Uuid → Option Lun

namespace EntityResolver

def lunIdentity : EntityResolver where
  uuidForLun lun := some (BitVec.setWidth 128 lun.toBitVec)
  lunForUuid uuid := if uuid.extractLsb' 64 64 = 0 then some ⟨uuid.setWidth 64⟩ else none

def Bijective (r : EntityResolver) : Prop := ∀ lun uuid, r.uuidForLun lun = some uuid ↔ r.lunForUuid uuid = some lun

theorem lunIdentity_bijective : lunIdentity.Bijective := by
  intro lun uuid
  simp only [lunIdentity, Option.some.injEq]
  constructor
  · rintro rfl
    have h0 : (BitVec.setWidth 128 lun.toBitVec).extractLsb' 64 64 = 0 := by
      ext i hi
      simp
    rw [if_pos h0]
    congr 1
    refine UInt64.toBitVec_inj.1 ?_
    ext i hi
    simp
  · intro h
    split at h <;> cases h
    next h0 =>
      ext i hi
      by_cases hlt : i < 64
      · simp [hlt, BitVec.getLsbD_eq_getElem hi]
      · have hbit := congrArg (fun b : BitVec 64 => b.getLsbD (i - 64)) h0
        have hi' : i - 64 < 64 := by omega
        have hadd : 64 + (i - 64) = i := by omega
        simp only [BitVec.getLsbD_extractLsb', hi', decide_true, hadd, Bool.true_and, BitVec.ofNat_eq_ofNat,
          BitVec.getLsbD_zero, BitVec.getLsbD_eq_getElem hi] at hbit
        simp [hlt, hbit]

end EntityResolver

structure PersistedReservation where
  holder : RegistrantId
  key : UInt64
  typeByte : UInt8

structure PersistedVolume where
  uuid : Uuid
  aptpl : Bool
  generation : UInt32
  registrations : List (RegistrantId × UInt64)
  reservation : Option PersistedReservation

structure PersistedFile where
  version : UInt32
  volumes : List PersistedVolume

namespace PersistedVolume

def fromState (uuid : Uuid) (st : LunState) : PersistedVolume where
  uuid := uuid
  aptpl := st.aptpl
  generation := st.generation
  registrations := st.registrations.entries
  reservation := st.reservation.map fun r => ⟨r.holder, r.key, r.type.asU8⟩

def intoLunState (v : PersistedVolume) : LunState where
  registrations := ofEntries v.registrations
  reservation := v.reservation.bind fun r => (ReservationType.fromU8 r.typeByte).map (⟨r.holder, r.key, ·⟩)
  generation := v.generation
  aptpl := v.aptpl

@[simp] theorem intoLunState_fromState (uuid : Uuid) (st : LunState) : (fromState uuid st).intoLunState = st := by
  obtain ⟨regs, res, gen, aptpl⟩ := st
  simp only [fromState, intoLunState, ofEntries_entries]
  cases res with
  | none => rfl
  | some r => simp [ReservationType.fromU8_asU8]

end PersistedVolume

def persistVersion : UInt32 := 1

def persistToDisk (r : EntityResolver) (map : SortedMap Lun LunState) : PersistedFile where
  version := persistVersion
  volumes := (map.entries.filter (fun e => e.2.persistEligible)).filterMap
    fun e => (r.uuidForLun e.1).map fun uuid => PersistedVolume.fromState uuid e.2

def loadFile (r : EntityResolver) : Option PersistedFile → SortedMap Lun LunState
  | none => ∅
  | some file =>
    if file.version ≠ persistVersion then ∅
    else ofEntries (file.volumes.filterMap
      (fun vol => (r.lunForUuid vol.uuid).map (fun lun => (lun, vol.intoLunState))))

/-- **What is written is what is loaded.** -/
theorem loadFile_persistToDisk {r : EntityResolver} (hr : r.Bijective) (map : SortedMap Lun LunState) :
    loadFile r (some (persistToDisk r map)) =
      map.filter (fun lun st => st.persistEligible && (r.uuidForLun lun).isSome) := by
  have hlist : ∀ l : List (Lun × LunState),
      ((l.filter (fun e => e.2.persistEligible)).filterMap
        (fun e => (r.uuidForLun e.1).map (fun uuid => PersistedVolume.fromState uuid e.2))).filterMap
        (fun vol => (r.lunForUuid vol.uuid).map (fun lun => (lun, vol.intoLunState))) =
      l.filter (fun e => e.2.persistEligible && (r.uuidForLun e.1).isSome) := by
    intro l
    induction l with
    | nil => rfl
    | cons e l ih =>
      cases he : e.2.persistEligible with
      | false => simpa [he] using ih
      | true =>
        cases hu : r.uuidForLun e.1 with
        | none => simpa [he, hu] using ih
        | some uuid =>
          have hlun := (hr e.1 uuid).1 hu
          have huuid : (PersistedVolume.fromState uuid e.2).uuid = uuid := rfl
          simpa [he, hu, huuid, hlun] using ih
  have hload : loadFile r (some (persistToDisk r map)) = ofEntries
      ((map.filter (fun lun st => st.persistEligible && (r.uuidForLun lun).isSome)).entries) := by
    simp only [loadFile, persistToDisk, ne_eq, not_true_eq_false, if_false]
    exact congrArg _ (hlist map.entries)
  rw [hload, ofEntries_entries]

def PersistedFile.All (P : LunState → Prop) (file : Option PersistedFile) : Prop :=
  ∀ f, file = some f → ∀ vol ∈ f.volumes, P vol.intoLunState

theorem loadFile_all {P : LunState → Prop} {file : Option PersistedFile} (h : PersistedFile.All P file)
    (r : EntityResolver) {lun : Lun} {st : LunState} (hget : (loadFile r file).get lun = some st) : P st := by
  unfold loadFile at hget
  split at hget
  · cases hget
  next f =>
  split at hget
  · cases hget
  obtain ⟨vol, hvol, hmap⟩ := List.mem_filterMap.1 (mem_of_get_ofEntries hget)
  obtain ⟨_, -, heq⟩ := Option.map_eq_some_iff.1 hmap
  rw [← (Prod.mk.inj heq).2]
  exact h f rfl vol hvol

theorem persistToDisk_all {P : LunState → Prop} {map : SortedMap Lun LunState}
    (h : ∀ lun st, map.get lun = some st → P st) (r : EntityResolver) :
    PersistedFile.All P (some (persistToDisk r map)) := by
  intro f hf vol hvol
  cases hf
  obtain ⟨⟨lun, st⟩, he, hmap⟩ := List.mem_filterMap.1 hvol
  obtain ⟨uuid, -, rfl⟩ := Option.map_eq_some_iff.1 hmap
  rw [PersistedVolume.intoLunState_fromState]
  exact h lun st ((get_eq_some map lun st).2 (List.mem_filter.1 he).1)

/-! ## The manager -/

structure Mutation where
  lun : Lun
  prior : Option LunState
  snapshot : SortedMap Lun LunState

structure ReservationManager where
  byLun : SortedMap Lun LunState := ∅
  anyReservation : Bool := false
  file : Option PersistedFile := none
  mutating : Option Mutation := none

namespace ReservationManager

def anyReserved (map : SortedMap Lun LunState) : Bool := map.any fun st => st.reservation.isSome

def store (m : ReservationManager) (map : SortedMap Lun LunState) : ReservationManager :=
  { m with byLun := map, anyReservation := anyReserved map }

def loadFrom (persist : Option EntityResolver) (file : Option PersistedFile) : ReservationManager :=
  match persist with
  | none => { file := file }
  | some r => { byLun := loadFile r file, anyReservation := anyReserved (loadFile r file), file := file }

section

variable (persist : Option EntityResolver) (m : ReservationManager)

def beginMutate (lun : Lun)
    (f : LunState → PrOutOutcome × LunState) : ReservationManager × Option PrOutOutcome :=
  let prior := m.byLun.get lun
  let wasEligible := prior.any LunState.persistEligible
  let (outcome, st) := f (prior.getD {})
  let map := m.byLun.insert lun st
  if outcome ≠ .good then ({ m with byLun := map }, some outcome)
  else if persist.isSome ∧ (wasEligible ∨ st.persistEligible) then
    ({ m.store map with mutating := some ⟨lun, prior, map⟩ }, none)
  else (m.store map, some .good)

def rollback (map : SortedMap Lun LunState) (mu : Mutation) : SortedMap Lun LunState :=
  match mu.prior with
  | some st => map.insert mu.lun st
  | none => map.erase mu.lun

/-- A failed write leaves the previous file. -/
def finishMutate (mu : Mutation) (persisted : Bool) :
    ReservationManager × PrOutOutcome :=
  if persisted then
    ({ m with file := persist.map (persistToDisk · mu.snapshot), mutating := none }, .good)
  else ({ m.store (rollback m.byLun mu) with mutating := none }, .persistFailed)

def begin (req : ReservationRequest) :
    ReservationManager × Option PrOutOutcome :=
  match req.decode persist.isSome with
  | .error outcome => (m, some outcome)
  | .ok op => m.beginMutate persist req.lun fun st => st.apply req.issuer op

def serve (req : ReservationRequest) (persisted : Bool) :
    ReservationManager × PrOutOutcome :=
  match m.begin persist req with
  | (m', some outcome) => (m', outcome)
  | (m', none) =>
    match m'.mutating with
    | some mu => m'.finishMutate persist mu persisted
    | none => (m', .good)

def purgeLun (lun : Lun) (persisted : Bool) :
    ReservationManager :=
  match m.byLun.get lun with
  | none => m
  | some _ =>
    let m := m.store (m.byLun.erase lun)
    if persist.isSome ∧ persisted then { m with file := persist.map (persistToDisk · m.byLun) } else m

/-! ## Queries -/

section

variable (m : ReservationManager) (lun : Lun)

def state : LunState := (m.byLun.get lun).getD {}

def checkRead (nexus : RegistrantId) : Bool :=
  match m.byLun.get lun with
  | none => true
  | some st => st.readAllowed nexus

def checkWrite (nexus : RegistrantId) : Bool :=
  match m.byLun.get lun with
  | none => true
  | some st => st.writeAllowed nexus

def allowRead (nexus : RegistrantId) : Bool :=
  if m.anyReservation = false then true else m.checkRead lun nexus

def allowWrite (nexus : RegistrantId) : Bool :=
  if m.anyReservation = false then true else m.checkWrite lun nexus

structure ReservationSnapshot where
  generation : UInt32
  reservationType : Option ReservationType
  holder : Option RegistrantId
  registrants : List (RegistrantId × UInt64)
  aptpl : Bool

def snapshotOf : Option LunState → ReservationSnapshot
  | none => ⟨0, none, none, [], false⟩
  | some st => ⟨st.generation, st.reservation.map (·.type), st.reservation.map (·.holder), st.registrations.entries,
      st.aptpl⟩

def snapshot : ReservationSnapshot := snapshotOf (m.byLun.get lun)

end

def header (generation : UInt32) (additionalLength : Nat) : Bytes :=
  Bytes.ofNatBE 4 generation.toNat ++ Bytes.ofNatBE 4 additionalLength

def renderReadKeys : Option LunState → Bytes
  | none => header 0 0
  | some st => header st.generation (8 * st.registrations.entries.length) ++
      st.registrations.entries.flatMap fun e => Bytes.ofNatBE 8 e.2.toNat

def renderReadReservation : Option LunState → Bytes
  | none => header 0 0
  | some st =>
    match st.reservation with
    | none => header st.generation 0
    | some r =>
      -- an all-registrants reservation is held by no one key
      let reportKey := if r.type.isAllRegistrants then 0 else r.key
      header st.generation 16 ++ Bytes.ofNatBE 8 reportKey.toNat ++ [0, 0, 0, 0, 0, r.type.asU8, 0, 0]

def renderReportCapabilities (ptplCapable ptplActive : Bool) : Bytes :=
  [0x00, 0x08, if ptplCapable then 0x01 else 0x00, 0x80 ||| if ptplActive then 0x01 else 0x00, 0xEA, 0x01, 0, 0]

def iscsiTransportId (iqn : Option String) : Bytes :=
  let name := (iqn.getD "").toUTF8.toList ++ [0]
  let padded := name ++ List.replicate ((4 - name.length % 4) % 4) 0
  [0x05, 0x00] ++ Bytes.ofNatBE 2 padded.length ++ padded

def fullStatusDescriptor (key : UInt64) (isHolder : Bool) (resType : Option ReservationType) (iqn : Option String) :
    Bytes :=
  let transportId := iscsiTransportId iqn
  Bytes.ofNatBE 8 key.toNat ++ [0, 0, 0, 0] ++
    [if isHolder then 0x01 else 0x00, if isHolder then (resType.map (·.asU8)).getD 0 else 0] ++ [0, 0, 0, 0] ++ [0, 0] ++
    Bytes.ofNatBE 4 transportId.length ++ transportId

def renderReadFullStatus : Option LunState → Bytes
  | none => header 0 0
  | some st =>
    let resType := st.reservation.map (·.type)
    let descs := st.registrations.entries.flatMap (fun e =>
      let isHolder := st.reservation.map (·.holder) == some e.1 || resType.any (·.isAllRegistrants)
      let iqn := match e.1 with
        | .iscsi iqn _ => iqn
        | .nvmeHost _ => none
      fullStatusDescriptor e.2 isHolder resType iqn)
    header st.generation descs.length ++ descs

def prinOf (ptplCapable : Bool) (st : Option LunState) (serviceAction : UInt8) : Option Bytes :=
  if serviceAction = 0x00 then some (renderReadKeys st)
  else if serviceAction = 0x01 then some (renderReadReservation st)
  else if serviceAction = 0x02 then some (renderReportCapabilities ptplCapable (st.any (·.aptpl)))
  else if serviceAction = 0x03 then some (renderReadFullStatus st)
  else none

def prin (lun : Lun) (serviceAction : UInt8) : Option Bytes :=
  prinOf persist.isSome (m.byLun.get lun) serviceAction

/-! No query tells a unit without an entry from one in the default state. -/

theorem checkRead_eq (m : ReservationManager) (lun : Lun) (id : RegistrantId) :
    m.checkRead lun id = (m.state lun).readAllowed id := by
  unfold checkRead state
  cases m.byLun.get lun <;> rfl

theorem checkWrite_eq (m : ReservationManager) (lun : Lun) (id : RegistrantId) :
    m.checkWrite lun id = (m.state lun).writeAllowed id := by
  unfold checkWrite state
  cases m.byLun.get lun <;> rfl

theorem snapshot_eq (m : ReservationManager) (lun : Lun) : m.snapshot lun = snapshotOf (some (m.state lun)) := by
  unfold snapshot state
  cases m.byLun.get lun <;> rfl

theorem prin_eq (lun : Lun) (serviceAction : UInt8) :
    m.prin persist lun serviceAction = prinOf persist.isSome (some (m.state lun)) serviceAction := by
  unfold prin state
  cases m.byLun.get lun with
  | none =>
    unfold prinOf
    split_ifs <;> rfl
  | some st => rfl

end

/-! ## Runs of the manager -/

end ReservationManager

/-- A restart that interrupts a write finds either file, so it is taken between mutations. -/
inductive ManagerAct where
  | request (req : ReservationRequest)
  | persisted (ok : Bool)
  | purgeLun (lun : Lun) (persisted : Bool)
  | restart

namespace ReservationManager

def step (persist : Option EntityResolver) (m : ReservationManager) : ManagerAct → Option ReservationManager
  | .request req => if m.mutating.isSome then none else some (m.begin persist req).1
  | .persisted ok => m.mutating.map fun mu => (m.finishMutate persist mu ok).1
  | .purgeLun lun persisted => if m.mutating.isSome then none else some (m.purgeLun persist lun persisted)
  | .restart => if m.mutating.isSome then none else some (loadFrom persist m.file)

def machine (persist : Option EntityResolver) : Machine ReservationManager ManagerAct := ⟨step persist⟩

/-- Nothing, an entry for a unit whose state it leaves alone, a complete change, or one now to be written. -/
inductive Begins (persist : Option EntityResolver) (m : ReservationManager) (req : ReservationRequest) :
    ReservationManager → Option PrOutOutcome → Prop
  | rejected (outcome : PrOutOutcome) (hdec : req.decode persist.isSome = .error outcome) :
      Begins persist m req m (some outcome)
  | refused (op : ReservationOp) (outcome : PrOutOutcome) (hdec : req.decode persist.isSome = .ok op)
      (hout : ((m.state req.lun).apply req.issuer op).1 = outcome) (hbad : outcome ≠ .good) :
      Begins persist m req { m with byLun := m.byLun.insert req.lun (m.state req.lun) } (some outcome)
  | done (op : ReservationOp) (st : LunState) (hdec : req.decode persist.isSome = .ok op)
      (hout : (m.state req.lun).apply req.issuer op = (.good, st))
      (hfile : persist.isSome → (m.state req.lun).persistEligible = false ∧ st.persistEligible = false) :
      Begins persist m req (m.store (m.byLun.insert req.lun st)) (some .good)
  | writing (op : ReservationOp) (st : LunState) (hdec : req.decode persist.isSome = .ok op)
      (hout : (m.state req.lun).apply req.issuer op = (.good, st)) (hpersist : persist.isSome)
      (hfile : (m.state req.lun).persistEligible = true ∨ st.persistEligible = true) :
      Begins persist m req { m.store (m.byLun.insert req.lun st) with
        mutating := some ⟨req.lun, m.byLun.get req.lun, m.byLun.insert req.lun st⟩ } none

theorem any_persistEligible (m : ReservationManager) (lun : Lun) :
    (m.byLun.get lun).any LunState.persistEligible = (m.state lun).persistEligible := by
  unfold state
  cases m.byLun.get lun <;> rfl

theorem begin_begins (persist : Option EntityResolver) (m : ReservationManager) (req : ReservationRequest) :
    Begins persist m req (m.begin persist req).1 (m.begin persist req).2 := by
  unfold begin
  split
  · next outcome hdec => exact .rejected outcome hdec
  · next op hdec =>
    obtain ⟨outcome, st, hout⟩ : ∃ outcome st, (m.state req.lun).apply req.issuer op = (outcome, st) := ⟨_, _, rfl⟩
    have hst : (m.byLun.get req.lun).getD {} = m.state req.lun := rfl
    simp only [beginMutate, hst, hout, any_persistEligible]
    split
    · next hbad =>
      have hkeep := LunState.apply_of_not_good (m.state req.lun) req.issuer op (by rw [hout]; exact hbad)
      rw [hout] at hkeep
      subst hkeep
      exact .refused op outcome hdec (by rw [hout]) hbad
    · next hgood =>
      rw [not_not] at hgood
      subst hgood
      split
      · next hw => exact .writing op st hdec hout hw.1 hw.2
      · next hw =>
        refine .done op st hdec hout fun hp => ?_
        rw [not_and, not_or, Bool.not_eq_true, Bool.not_eq_true] at hw
        exact hw hp

inductive Moves (persist : Option EntityResolver) (m : ReservationManager) : ManagerAct → ReservationManager → Prop
  | request (req : ReservationRequest) (m' : ReservationManager) (outcome : Option PrOutOutcome)
      (hidle : m.mutating = none) (hbegin : m.begin persist req = (m', outcome)) (h : Begins persist m req m' outcome) :
      Moves persist m (.request req) m'
  | written (mu : Mutation) (h : m.mutating = some mu) :
      Moves persist m (.persisted true) { m with file := persist.map (persistToDisk · mu.snapshot), mutating := none }
  | rolledBack (mu : Mutation) (h : m.mutating = some mu) :
      Moves persist m (.persisted false) { m.store (rollback m.byLun mu) with mutating := none }
  | purged (lun : Lun) (persisted : Bool) (hidle : m.mutating = none) :
      Moves persist m (.purgeLun lun persisted) (m.purgeLun persist lun persisted)
  | restart (hidle : m.mutating = none) : Moves persist m .restart (loadFrom persist m.file)

theorem machine_moves {persist : Option EntityResolver} {m m' : ReservationManager} {a : ManagerAct}
    (h : (machine persist).step m a = some m') : Moves persist m a m' := by
  have hidle : ∀ {x : Option ReservationManager}, (if m.mutating.isSome then none else x) = some m' →
      m.mutating = none ∧ x = some m' := by
    intro x hx
    split at hx
    · cases hx
    · next hn => exact ⟨Option.not_isSome_iff_eq_none.1 hn, hx⟩
  cases a with
  | request req =>
    obtain ⟨hn, hx⟩ := hidle h
    cases hx
    exact .request req _ _ hn rfl (begin_begins persist m req)
  | persisted ok =>
    obtain ⟨mu, hmu, rfl⟩ := Option.map_eq_some_iff.1 h
    cases ok with
    | true => exact .written mu hmu
    | false => exact .rolledBack mu hmu
  | purgeLun lun persisted =>
    obtain ⟨hn, hx⟩ := hidle h
    cases hx
    exact .purged lun persisted hn
  | restart =>
    obtain ⟨hn, hx⟩ := hidle h
    cases hx
    exact .restart hn

/-! ## Two hosts -/

def scsiHost : RegistrantId := .iscsi (some "iqn.2026-01.host:a") 1

def nvmeHost : RegistrantId := .nvmeHost 2

def scsiRegister : ReservationRequest :=
  .prout 0 0x06 0 0 (List.replicate 15 0 ++ [5] ++ [0, 0, 0, 0] ++ [1] ++ [0, 0, 0]) 24 scsiHost true

def scsiReserve : ReservationRequest :=
  .prout 0 0x01 0 0x01 (List.replicate 7 0 ++ [5] ++ List.replicate 16 0) 24 scsiHost true

def nvmeRegister : ReservationRequest :=
  .reservationRegister 1 2 0 (some (List.replicate 8 0 ++ [6] ++ List.replicate 7 0))

def reserveRun : List ManagerAct :=
  [.request scsiRegister, .persisted true, .request scsiReserve, .persisted true]

end ReservationManager
end Thur

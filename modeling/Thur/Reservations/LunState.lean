import Mathlib.Data.Prod.Lex
import Mathlib.Data.Sum.Order
import Mathlib.Data.String.Basic
import Mathlib.Order.WithBot
import Thur.Lib.SortedMap
/-!
# LunState — the persistent-reservation state of one logical unit and the PROUT service actions

Registrants of both transports share one table per logical unit: a map from registrant to key, at most one reservation
that names its holder and carries a copy of the holder's key, the PR generation and the persist flag. `Change` lists
what a service action that returns GOOD can have done.
-/
namespace Thur

/-- iSCSI name and ISID, or the NVMe Host Identifier; read big-endian, which keeps their order. -/
inductive RegistrantId where
  | iscsi (iqn : Option String) (isid : BitVec 48)
  | nvmeHost (hostid : BitVec 128)

namespace RegistrantId

def ordKey : RegistrantId → Lex ((WithBot String ×ₗ Nat) ⊕ Nat)
  | iscsi iqn isid => toLex (Sum.inl (toLex (iqn, isid.toNat)))
  | nvmeHost hostid => toLex (Sum.inr hostid.toNat)

theorem ordKey_injective : Function.Injective ordKey := by
  intro a b h
  cases a with
  | iscsi =>
    cases b with
    | iscsi iqn' isid' =>
      have hp := toLex.injective (Sum.inl.inj (toLex.injective h))
      obtain ⟨hiqn, hisid⟩ := Prod.mk.inj hp
      rw [BitVec.eq_of_toNat_eq hisid]
      exact congrArg (iscsi · isid') hiqn
    | nvmeHost => cases toLex.injective h
  | nvmeHost =>
    cases b with
    | iscsi => cases toLex.injective h
    | nvmeHost => rw [BitVec.eq_of_toNat_eq (Sum.inr.inj (toLex.injective h))]

instance : LinearOrder RegistrantId := LinearOrder.lift' ordKey ordKey_injective

end RegistrantId

inductive ReservationType where
  | writeExclusive
  | exclusiveAccess
  | writeExclusiveRegistrantsOnly
  | exclusiveAccessRegistrantsOnly
  | writeExclusiveAllRegistrants
  | exclusiveAccessAllRegistrants
  deriving DecidableEq

namespace ReservationType

def fromU8 (value : UInt8) : Option ReservationType :=
  if value = 0x01 then some writeExclusive
  else if value = 0x03 then some exclusiveAccess
  else if value = 0x05 then some writeExclusiveRegistrantsOnly
  else if value = 0x06 then some exclusiveAccessRegistrantsOnly
  else if value = 0x07 then some writeExclusiveAllRegistrants
  else if value = 0x08 then some exclusiveAccessAllRegistrants
  else none

def asU8 : ReservationType → UInt8
  | writeExclusive => 0x01
  | exclusiveAccess => 0x03
  | writeExclusiveRegistrantsOnly => 0x05
  | exclusiveAccessRegistrantsOnly => 0x06
  | writeExclusiveAllRegistrants => 0x07
  | exclusiveAccessAllRegistrants => 0x08

def isAllRegistrants : ReservationType → Bool
  | writeExclusiveAllRegistrants | exclusiveAccessAllRegistrants => true
  | _ => false

def holderOnly : ReservationType → Bool
  | writeExclusive | exclusiveAccess => true
  | _ => false

def excludesReads : ReservationType → Bool
  | exclusiveAccess | exclusiveAccessRegistrantsOnly | exclusiveAccessAllRegistrants => true
  | _ => false

theorem fromU8_asU8 (t : ReservationType) : fromU8 t.asU8 = some t := by
  cases t <;> rfl

end ReservationType

inductive PrOutOutcome where
  | good
  | reservationConflict
  | invalidFieldInCdb
  | invalidFieldInParameterList
  | luNotSupported
  | persistFailed
  deriving DecidableEq

structure ReservationState where
  holder : RegistrantId
  key : UInt64
  type : ReservationType
  deriving DecidableEq

structure LunState where
  registrations : SortedMap RegistrantId UInt64 := ∅
  reservation : Option ReservationState := none
  generation : UInt32 := 0
  aptpl : Bool := false

namespace LunState

def bumpGeneration (st : LunState) : LunState := { st with generation := st.generation + 1 }

def registrationKey (st : LunState) (id : RegistrantId) : Option UInt64 := st.registrations.get id

def isRegistered (st : LunState) (id : RegistrantId) : Bool := (st.registrationKey id).isSome

def persistEligible (st : LunState) : Bool := st.aptpl && (!st.registrations.isEmpty || st.reservation.isSome)

/-- By name, or as any registrant of an all-registrants reservation. -/
def isHolder (st : LunState) (r : ReservationState) (id : RegistrantId) : Bool :=
  r.holder == id || (r.type.isAllRegistrants && st.isRegistered id)

/-! ## PROUT service actions -/

section

variable (st : LunState) (nexus : RegistrantId)

/-- A holder takes its reservation away, except that an all-registrants one passes to the first registrant left. -/
def reservationAfterUnregister (regs : SortedMap RegistrantId UInt64) :
    Option ReservationState :=
  match st.reservation with
  | none => none
  | some r =>
    if r.holder = nexus then
      if r.type.isAllRegistrants then regs.first?.map (fun e => ⟨e.1, e.2, r.type⟩) else none
    else some r

def proutRegister (rk sark : UInt64) (ignore : Bool) (aptpl : Option Bool) :
    PrOutOutcome × LunState :=
  if ignore = false ∧ (st.registrationKey nexus).getD 0 ≠ rk then (.reservationConflict, st)
  else
    -- the APTPL of the most recent REGISTER, of either kind, governs the whole unit
    let st := { st with aptpl := aptpl.getD st.aptpl }
    if sark = 0 then
      let regs := st.registrations.erase nexus
      (.good, { st with registrations := regs,
                        reservation := st.reservationAfterUnregister nexus regs }.bumpGeneration)
    else (.good, { st with registrations := st.registrations.insert nexus sark }.bumpGeneration)

/-- The caller is registered under the key it gives; REGISTER alone does not ask. -/
def withKey (rk : UInt64) (body : PrOutOutcome × LunState) :
    PrOutOutcome × LunState :=
  match st.registrationKey nexus with
  | none => (.reservationConflict, st)
  | some regKey => if regKey ≠ rk then (.reservationConflict, st) else body

def withType (st : LunState) (typeByte : UInt8) (body : ReservationType → PrOutOutcome × LunState) :
    PrOutOutcome × LunState :=
  match ReservationType.fromU8 typeByte with
  | none => (.invalidFieldInCdb, st)
  | some type => body type

def proutReserve (rk : UInt64) (typeByte : UInt8) : PrOutOutcome × LunState :=
  st.withKey nexus rk <| st.withType typeByte fun type =>
    match st.reservation with
    | some existing =>
      if existing.type = type ∧ st.isHolder existing nexus then (.good, st) else (.reservationConflict, st)
    | none => (.good, { st with reservation := some ⟨nexus, rk, type⟩ })

def proutRelease (rk : UInt64) (typeByte : UInt8) : PrOutOutcome × LunState :=
  st.withKey nexus rk <| st.withType typeByte fun type =>
    match st.reservation with
    | none => (.good, st)
    | some existing =>
      if existing.type ≠ type then (.reservationConflict, st)
      else if st.isHolder existing nexus then (.good, { st with reservation := none })
      else (.good, st)

def proutClear (rk : UInt64) : PrOutOutcome × LunState :=
  st.withKey nexus rk (.good, { st with registrations := ∅, reservation := none }.bumpGeneration)

def isPreempted (nexus : RegistrantId) (sark : UInt64) (id : RegistrantId) (key : UInt64) : Bool :=
  key == sark && id != nexus

def reservedUnder (st : LunState) (sark : UInt64) : Bool := st.reservation.any fun r => r.key == sark

/-- Its own if the old one carried the key, or if there was none. -/
def preemptedReservation (rk sark : UInt64) (type : ReservationType) :
    Option ReservationState :=
  if st.reservedUnder sark ∨ st.reservation = none then some ⟨nexus, rk, type⟩ else st.reservation

def proutPreempt (rk sark : UInt64) (typeByte : UInt8) :
    PrOutOutcome × LunState :=
  st.withKey nexus rk <| st.withType typeByte fun type =>
    if sark = 0 then
      -- the key zero names an all-registrants reservation and takes it over from everyone
      if st.reservation.any (fun r => r.type.isAllRegistrants) then
        (.good, { st with registrations := st.registrations.filter (fun id _ => id == nexus)
                          reservation := some ⟨nexus, rk, type⟩ }.bumpGeneration)
      else (.invalidFieldInParameterList, st)
    else if st.registrations.entries.any (fun e => isPreempted nexus sark e.1 e.2) = false ∧
        st.reservedUnder sark = false then (.reservationConflict, st)
    else
      (.good, { st with registrations := st.registrations.filter (fun id k => !isPreempted nexus sark id k)
                        reservation := st.preemptedReservation nexus rk sark type }.bumpGeneration)

end

end LunState

inductive ReservationOp where
  | register (rk sark : UInt64) (ignore : Bool) (aptpl : Option Bool)
  | reserve (rk : UInt64) (typeByte : UInt8)
  | release (rk : UInt64) (typeByte : UInt8)
  | clear (rk : UInt64)
  | preempt (rk sark : UInt64) (typeByte : UInt8)

namespace LunState

def apply (st : LunState) (id : RegistrantId) : ReservationOp → PrOutOutcome × LunState
  | .register rk sark ignore aptpl => st.proutRegister id rk sark ignore aptpl
  | .reserve rk typeByte => st.proutReserve id rk typeByte
  | .release rk typeByte => st.proutRelease id rk typeByte
  | .clear rk => st.proutClear id rk
  | .preempt rk sark typeByte => st.proutPreempt id rk sark typeByte

/-! ## Access checks -/

def readAllowed (st : LunState) (nexus : RegistrantId) : Bool :=
  match st.reservation with
  | none => true
  | some r =>
    match r.type with
    | .writeExclusive | .writeExclusiveRegistrantsOnly | .writeExclusiveAllRegistrants => true
    | .exclusiveAccess => r.holder == nexus
    | .exclusiveAccessRegistrantsOnly | .exclusiveAccessAllRegistrants => st.isRegistered nexus

def writeAllowed (st : LunState) (nexus : RegistrantId) : Bool :=
  match st.reservation with
  | none => true
  | some r =>
    match r.type with
    | .writeExclusive | .exclusiveAccess => r.holder == nexus
    | .writeExclusiveRegistrantsOnly | .exclusiveAccessRegistrantsOnly
    | .writeExclusiveAllRegistrants | .exclusiveAccessAllRegistrants => st.isRegistered nexus

/-! ## What a service action can have done -/

inductive Change (st : LunState) (id : RegistrantId) : ReservationOp → LunState → Prop
  | register (rk sark : UInt64) (ignore : Bool) (aptpl : Option Bool) (hkey : sark ≠ 0) :
      Change st id (.register rk sark ignore aptpl)
        ⟨st.registrations.insert id sark, st.reservation, st.generation + 1, aptpl.getD st.aptpl⟩
  | unregister (rk : UInt64) (ignore : Bool) (aptpl : Option Bool) :
      Change st id (.register rk 0 ignore aptpl)
        ⟨st.registrations.erase id, st.reservationAfterUnregister id (st.registrations.erase id), st.generation + 1,
          aptpl.getD st.aptpl⟩
  | reserve (rk : UInt64) (typeByte : UInt8) (type : ReservationType) (hreg : st.registrationKey id = some rk)
      (hfree : st.reservation = none) :
      Change st id (.reserve rk typeByte) { st with reservation := some ⟨id, rk, type⟩ }
  | reserved (rk : UInt64) (typeByte : UInt8) (hreg : st.registrationKey id = some rk) :
      Change st id (.reserve rk typeByte) st
  | release (rk : UInt64) (typeByte : UInt8) (hreg : st.registrationKey id = some rk) :
      Change st id (.release rk typeByte) { st with reservation := none }
  | released (rk : UInt64) (typeByte : UInt8) (hreg : st.registrationKey id = some rk) :
      Change st id (.release rk typeByte) st
  | clear (rk : UInt64) (hreg : st.registrationKey id = some rk) :
      Change st id (.clear rk) ⟨∅, none, st.generation + 1, st.aptpl⟩
  | takeover (rk : UInt64) (typeByte : UInt8) (type : ReservationType) (hreg : st.registrationKey id = some rk) :
      Change st id (.preempt rk 0 typeByte)
        ⟨st.registrations.filter (fun a _ => a == id), some ⟨id, rk, type⟩, st.generation + 1, st.aptpl⟩
  | preempt (rk sark : UInt64) (typeByte : UInt8) (type : ReservationType) (hkey : sark ≠ 0)
      (hreg : st.registrationKey id = some rk) (htype : ReservationType.fromU8 typeByte = some type) :
      Change st id (.preempt rk sark typeByte)
        ⟨st.registrations.filter (fun a k => !isPreempted id sark a k), st.preemptedReservation id rk sark type,
          st.generation + 1, st.aptpl⟩

def Settled (st : LunState) (id : RegistrantId) (op : ReservationOp) (r : PrOutOutcome × LunState) : Prop :=
  (r.1 = .good ∧ Change st id op r.2) ∨ (r.1 ≠ .good ∧ r.1 ≠ .persistFailed ∧ r.2 = st)

variable {st : LunState} {id : RegistrantId} {op : ReservationOp}

theorem Change.settled {st' : LunState} (h : Change st id op st') : Settled st id op (.good, st') := .inl ⟨rfl, h⟩

theorem settled_conflict (st : LunState) (id : RegistrantId) (op : ReservationOp) :
    Settled st id op (.reservationConflict, st) := .inr ⟨by simp, by simp, rfl⟩

theorem settled_withKey {rk : UInt64} {body : PrOutOutcome × LunState}
    (h : st.registrationKey id = some rk → Settled st id op body) : Settled st id op (st.withKey id rk body) := by
  unfold withKey
  split
  · exact settled_conflict st id op
  · next regKey hreg =>
    split
    · exact settled_conflict st id op
    · next hrk =>
      rw [not_not] at hrk
      exact h (hrk ▸ hreg)

theorem settled_withType {typeByte : UInt8} {body : ReservationType → PrOutOutcome × LunState}
    (h : ∀ type, ReservationType.fromU8 typeByte = some type → Settled st id op (body type)) :
    Settled st id op (st.withType typeByte body) := by
  unfold withType
  split
  · exact .inr ⟨by simp, by simp, rfl⟩
  · next htype => exact h _ htype

section

variable (st : LunState) (id : RegistrantId)

theorem settled_register (rk sark : UInt64) (ignore : Bool) (aptpl : Option Bool) :
    Settled st id (.register rk sark ignore aptpl) (st.proutRegister id rk sark ignore aptpl) := by
  unfold proutRegister
  split
  · exact settled_conflict st id _
  · by_cases h : sark = 0
    · subst h
      exact (Change.unregister rk ignore aptpl).settled
    · simp only [if_neg h]
      exact (Change.register rk sark ignore aptpl h).settled

theorem settled_reserve (rk : UInt64) (typeByte : UInt8) :
    Settled st id (.reserve rk typeByte) (st.proutReserve id rk typeByte) := by
  refine settled_withKey fun hreg => settled_withType fun type _ => ?_
  split
  · split
    · exact (Change.reserved rk typeByte hreg).settled
    · exact settled_conflict st id _
  · next hfree => exact (Change.reserve rk typeByte type hreg hfree).settled

theorem settled_release (rk : UInt64) (typeByte : UInt8) :
    Settled st id (.release rk typeByte) (st.proutRelease id rk typeByte) := by
  refine settled_withKey fun hreg => settled_withType fun type _ => ?_
  split
  · exact (Change.released rk typeByte hreg).settled
  · split
    · exact settled_conflict st id _
    · split
      · exact (Change.release rk typeByte hreg).settled
      · exact (Change.released rk typeByte hreg).settled

theorem settled_preempt (rk sark : UInt64) (typeByte : UInt8) :
    Settled st id (.preempt rk sark typeByte) (st.proutPreempt id rk sark typeByte) := by
  refine settled_withKey fun hreg => settled_withType fun type htype => ?_
  split
  · next hz =>
    subst hz
    split
    · exact (Change.takeover rk typeByte type hreg).settled
    · exact .inr ⟨by simp, by simp, rfl⟩
  · next hz =>
    split
    · exact settled_conflict st id _
    · exact (Change.preempt rk sark typeByte type hz hreg htype).settled

/-- **A service action returns GOOD and made one of the changes, or leaves the state alone.** -/
theorem apply_settled : ∀ op, Settled st id op (st.apply id op)
  | .register rk sark ignore aptpl => settled_register st id rk sark ignore aptpl
  | .reserve rk typeByte => settled_reserve st id rk typeByte
  | .release rk typeByte => settled_release st id rk typeByte
  | .clear rk => settled_withKey fun hreg => (Change.clear rk hreg).settled
  | .preempt rk sark typeByte => settled_preempt st id rk sark typeByte

theorem change_of_good (op : ReservationOp) (h : (st.apply id op).1 = .good) :
    Change st id op (st.apply id op).2 := by
  rcases apply_settled st id op with ⟨-, hc⟩ | ⟨hn, -⟩
  · exact hc
  · exact absurd h hn

theorem apply_of_not_good (op : ReservationOp) (h : (st.apply id op).1 ≠ .good) :
    (st.apply id op).2 = st := by
  rcases apply_settled st id op with ⟨hg, -⟩ | ⟨-, -, he⟩
  · exact absurd hg h
  · exact he

end

end LunState
end Thur

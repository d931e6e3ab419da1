import Thur.Block.FlatVolume
import Thur.Block.Resize
import Thur.Reservations.Manager
/-!
# Units — the logical units of a target, and what one command does to them

Both dispatchers sit on the same registry, reservation manager and volumes. They reach the bytes only through the calls
of the page cache, which by `PageCache.flat_refinement` are the operations of a flat array. `Exec` is a target in the
middle of a command, and `World` what the command meets: the clock, random bytes, and which calls fail.
-/
namespace Thur

open Function

structure LogicalUnit where
  name : String
  uuid : Uuid
  manifest : VolumeManifest
  size : manifest.Size
  backend : String
  poolNamespace : Option String
  encrypted : Bool
  dekUuid : Bytes

namespace LogicalUnit

variable (lu : LogicalUnit)

def sector : Nat := lu.manifest.sector

def pageSize : Nat := lu.manifest.pageSize

def totalBlocks : Nat := lu.size.1.toNat / lu.sector

def resolveRange (lba blocks : UInt64) : Except VolumeManifest.RangeError (Nat × Nat) :=
  lu.manifest.resolveRange lu.size.1.toNat lba blocks

end LogicalUnit

abbrev SessionVolumes := Option (List String)

def SessionVolumes.admits (allow : SessionVolumes) (name : String) : Bool :=
  match allow with
  | none => true
  | some names => names.contains name

/-! ## Offload tokens -/

abbrev RodToken := Bytes

def rodTokenLen : Nat := 512

/-- Of each source page its id and the bytes behind its record, which its pinned chunk keeps. -/
structure TokenState where
  sourceLun : Lun
  sourceBackend : String
  sourceNamespace : Option String
  sourcePageSize : UInt32
  sourcePages : List PageId
  contents : List Bytes
  sourceEncrypted : Bool
  sourceDekUuid : Bytes
  totalBlocks : UInt64
  deadline : Nat

inductive JobStatus
  | done
  | failed (completionStatus : UInt8)

structure JobResult where
  status : JobStatus
  token : Option RodToken
  transferBlocks : UInt64
  deadline : Nat

structure TokenManager where
  tokens : RodToken → Option TokenState := fun _ => none
  jobs : UInt32 → Option JobResult := fun _ => none

namespace TokenManager

def defaultTtl : Nat := 300

def maxTtl : Nat := 600

def resolveTtl (requestedSecs : UInt32) : Nat :=
  if requestedSecs = 0 then defaultTtl else min requestedSecs.toNat maxTtl

section

variable (m : TokenManager)

def mintToken (listId : UInt32) (token : RodToken) (state : TokenState) : TokenManager where
  tokens := update m.tokens token (some state)
  jobs := update m.jobs listId (some ⟨.done, some token, state.totalBlocks, state.deadline⟩)

def recordWriteOutcome (now : Nat) (listId : UInt32) (status : JobStatus) (transferBlocks : UInt64) :
    TokenManager :=
  { m with jobs := update m.jobs listId (some ⟨status, none, transferBlocks, now + resolveTtl 0⟩) }

def snapshotFor (now : Nat) (token : RodToken) : Option TokenState :=
  (m.tokens token).filter fun st => now < st.deadline

def isExpired (now : Nat) (token : RodToken) : Bool :=
  (m.tokens token).any fun st => st.deadline ≤ now

def cancel (listId : UInt32) : TokenManager :=
  match (m.jobs listId).bind (·.token) with
  | some token => ⟨update m.tokens token none, update m.jobs listId none⟩
  | none => m

def sweepExpired (now : Nat) : TokenManager where
  tokens token := (m.tokens token).filter fun st => now < st.deadline
  jobs listId := (m.jobs listId).filter fun j => now < j.deadline

end

end TokenManager

/-! ## The target -/

structure Target where
  units : SortedMap Lun LogicalUnit
  content : Lun → Bytes
  reservations : ReservationManager
  tokens : TokenManager
  /-- Pending unit attentions (ASC, ASCQ) of a session on a unit, oldest first. -/
  attentions : UInt16 → UInt8 → List (UInt8 × UInt8)

namespace Target

def lunAdmitted (t : Target) (allow : SessionVolumes) (lun : Lun) : Bool :=
  match allow with
  | none => true
  | some names => (t.units.get lun).any fun lu => names.contains lu.name

def admittedUnit (t : Target) (allow : SessionVolumes) (lun : Lun) : Option LogicalUnit :=
  if t.lunAdmitted allow lun then t.units.get lun else none

theorem admittedUnit_some {t : Target} {allow : SessionVolumes} {lun : Lun} {lu : LogicalUnit}
    (h : t.admittedUnit allow lun = some lu) : t.units.get lun = some lu ∧ allow.admits lu.name = true := by
  unfold admittedUnit at h
  split at h
  · next hadm =>
    refine ⟨h, ?_⟩
    cases allow with
    | none => rfl
    | some names =>
      simp only [lunAdmitted, h, Option.any_some] at hadm
      exact hadm
  · cases h

end Target

/-! ## The calls of a command -/

inductive FaultClass
  | validation
  | transient
  | integrity
  | infrastructure

/-- Its class, whether it failed reading, and what a mutating call leaves of the volume. -/
structure Fault where
  kind : FaultClass
  reading : Bool
  left : Bytes → Bytes

/-- The clock, the random source, whether the reservation file can be written, and which calls fail. -/
structure World where
  now : Nat
  token : RodToken
  persisted : Bool
  fault : Nat → Option Fault

structure Exec where
  target : Target
  calls : Nat

namespace Exec

variable (w : World)

def setContent (x : Exec) (lun : Lun) (bytes : Bytes) : Exec where
  target := { x.target with content := update x.target.content lun bytes }
  calls := x.calls + 1

def read (x : Exec) (lun : Lun) (byteOffset len : Nat) : Exec × Except Fault Bytes :=
  ({ x with calls := x.calls + 1 },
    match w.fault x.calls with
    | none => .ok ((x.target.content lun).field byteOffset len)
    | some e => .error e)

def mutate (x : Exec) (lun : Lun) (op : BlockOp) : Exec × Except Fault BlockReply :=
  let a := x.target.content lun
  match w.fault x.calls with
  | none => (x.setContent lun (op.onFlat a).1, .ok (op.onFlat a).2)
  | some e => (x.setContent lun (e.left a), .error e)

def cloneInto (x : Exec) (src : Lun) (srcOffset : Nat) (dst : Lun) (dstOffset len : Nat) : Exec × Option Fault :=
  let a := x.target.content dst
  match w.fault x.calls with
  | none => (x.setContent dst (CacheInner.splice a dstOffset ((x.target.content src).field srcOffset len)), none)
  | some e => (x.setContent dst (e.left a), some e)

def mutateAll (lun : Lun) : List BlockOp → Exec → Exec × Option Fault
  | [], x => (x, none)
  | op :: ops, x =>
    match x.mutate w lun op with
    | (x, .ok _) => mutateAll lun ops x
    | (x, .error e) => (x, some e)

end Exec
end Thur

import Thur.Lib.Paged
import Thur.Lib.Prog
import Thur.Stream.FastCdc
import Thur.Stream.Records
/-!
# Disk — the files of the cartridges and the operations on them

The directory of a cartridge holds its staging files, its index files and the runtime sidecar; the pool of sealed chunks
is shared. A staging file keeps its inode when it is renamed into the pool, so a handle opened on it still writes to it.
Index files are lists of records.
-/
namespace Thur.Stream

open Function

inductive IoError
  | notFound
  | alreadyExists
  | crossesDevices
  | other

structure Partition where
  capacityMib : Nat
  overwriteBarrier : Option Nat
deriving DecidableEq

structure PendingPartitionLayout where
  sdp : Bool
  additionalPartitions : Nat
  psum : Nat
  partitionSizes : List Nat
deriving DecidableEq

/-- Counters and attributes that no modelled function reads are left out. -/
structure Runtime where
  partitions : List Partition
  activePartition : Nat
  pendingPartitionLayout : Option PendingPartitionLayout
  setCapacityProportion : Nat
deriving DecidableEq

def Runtime.newBlank : Runtime := ⟨[⟨0, none⟩], 0, none, 65535⟩

def Runtime.saved (rt : Runtime) : Runtime :=
  { rt with partitions := rt.partitions.map (fun p => { p with overwriteBarrier := none }) }

structure TapeCrates (H : Type) where
  blake3 : Bytes → H
  deriveIv : Bytes → Nat → Nat → Bytes
  encryptBlock : Bytes → Bytes → Bytes → Bytes
  decryptBlock : Bytes → Bytes → Bytes → Except String Bytes
  compressData : CompressionAlgo → Int → Bytes → Bytes
  decompressData : CompressionAlgo → Bytes → Option Bytes

/-- The hash and the codec change nothing, the cipher adds an empty tag. -/
def TapeCrates.plain : TapeCrates Bytes where
  blake3 := id
  deriveIv uuid id off := List.replicate id 1 ++ 0 :: (List.replicate off 1 ++ 0 :: uuid)
  encryptBlock _ _ b := b ++ List.replicate 16 0
  decryptBlock _ _ b := .ok (b.take (b.length - 16))
  compressData _ _ b := b
  decompressData _ b := some b

structure CartDir (H : Type) where
  staging : Nat → Option Nat
  chunks : List (ChunkRec H)
  blocks : Nat → List BlockRec
  lru : Nat
  runtime : Option Runtime

structure Sealing where
  key : Bytes
  iv : Bytes
  plaintext : Bytes

/-- Contents by inode, the directory of each cartridge, the pool, and whether it is on another device. `log` records
every encryption. -/
structure Disk (H : Type) where
  content : Nat → Bytes
  nextIno : Nat
  dirs : Nat → CartDir H
  pool : H → Option Nat
  crossDevice : Bool
  log : List Sealing

def Disk.blank (H : Type) : Disk H :=
  ⟨fun _ => [], 0, fun _ => ⟨fun _ => none, [], fun _ => [], 0, none⟩, fun _ => none, false, []⟩

/-! ## Operations -/

inductive FileOp (H : Type)
  | createNew (id : Nat)
  | openAppend (id : Nat)
  | removeStaging (id : Nat)
  | readStaging (id : Nat)
  | readStagingAt (id off len : Nat)
  | rewriteStaging (id : Nat) (bytes : Bytes)
  | syncStaging (id : Nat)
  | stagingLen (id : Nat)
  | setStagingLen (id n : Nat)
  | append (ino : Nat) (bytes : Bytes)
  | syncData (ino : Nat)
  | poolExists (h : H)
  | rename (id : Nat) (h : H)
  | copyIntoPool (id : Nat) (h : H)
  | readPool (h : H)
  | readPoolAt (h : H) (off len : Nat)
  | chunkLen
  | chunkRead (i : Nat)
  | chunkWrite (i : Nat) (rec : ChunkRec H)
  | chunkSetLen (n : Nat)
  | chunkSync
  | anySealedExcept (i n : Nat)
  | sumSizesExcept (i n : Nat)
  | blockLen (p : Nat)
  | blockRead (p i : Nat)
  | blockWrite (p i : Nat) (rec : BlockRec)
  | blockSetLen (p n : Nat)
  | blockSync (p : Nat)
  | blockUnlink (p : Nat)
  | lruLen
  | lruWrite (i : Nat)
  | lruSetLen (n : Nat)
  | lruSync
  | persistRuntime (rt : Runtime)
  | loadRuntime
  | tryReserve (n : Nat)
  | encrypt (key iv plaintext : Bytes)
  | compress (algo : CompressionAlgo) (level : Int) (bytes : Bytes)

@[reducible] def FileOp.Answer {H : Type} : FileOp H → Type
  | .openAppend _ | .stagingLen _ | .chunkLen | .sumSizesExcept _ _ | .blockLen _ | .lruLen => Nat
  | .readStaging _ | .readStagingAt _ _ _ | .readPool _ | .readPoolAt _ _ _ | .encrypt _ _ _ | .compress _ _ _ => Bytes
  | .poolExists _ | .anySealedExcept _ _ => Bool
  | .chunkRead _ => ChunkRec H
  | .blockRead _ _ => BlockRec
  | .loadRuntime => Runtime
  | _ => Unit

abbrev FileOp.Ret {H : Type} (o : FileOp H) : Type := Except IoError o.Answer

namespace Disk

variable {H : Type}

section

variable (d : Disk H)

def setDir (root : Nat) (dir : CartDir H) : Disk H := { d with dirs := update d.dirs root dir }

def setContent (ino : Nat) (b : Bytes) : Disk H := { d with content := update d.content ino b }

def setStaging (root id : Nat) (ino : Option Nat) : Disk H :=
  d.setDir root { d.dirs root with staging := update (d.dirs root).staging id ino }

def setChunks (root : Nat) (l : List (ChunkRec H)) : Disk H := d.setDir root { d.dirs root with chunks := l }

def setBlocks (root p : Nat) (l : List BlockRec) : Disk H :=
  d.setDir root { d.dirs root with blocks := update (d.dirs root).blocks p l }

def setLru (root n : Nat) : Disk H := d.setDir root { d.dirs root with lru := n }

def setRuntime (root : Nat) (rt : Runtime) : Disk H := d.setDir root { d.dirs root with runtime := some rt }

def setPool [DecidableEq H] (d : Disk H) (h : H) (ino : Nat) : Disk H := { d with pool := update d.pool h (some ino) }

def alloc (b : Bytes) : Disk H :=
  { d with content := update d.content d.nextIno b, nextIno := d.nextIno + 1 }

@[simp] theorem dirs_setDir (root : Nat) (dir : CartDir H) : (d.setDir root dir).dirs root = dir :=
  update_self ..

@[simp] theorem blocks_setBlocks (root p : Nat) (l : List BlockRec) : ((d.setBlocks root p l).dirs root).blocks p = l := by
  simp [setBlocks]

@[simp] theorem dirs_setContent (ino : Nat) (b : Bytes) : (d.setContent ino b).dirs = d.dirs := rfl

@[simp] theorem dirs_setPool [DecidableEq H] (d : Disk H) (h : H) (ino : Nat) : (d.setPool h ino).dirs = d.dirs := rfl

@[simp] theorem dirs_alloc (b : Bytes) : (d.alloc b).dirs = d.dirs := rfl

end

def zeroBlock : BlockRec := ⟨0, 0, 0, .data, .none, none⟩

def anySealed (l : List (ChunkRec H)) (i : Nat) : Bool := l.zipIdx.any fun x => x.2 != i && x.1.hash.isSome

def sumSizes (l : List (ChunkRec H)) (i : Nat) : Nat := (l.zipIdx.filter (fun x => x.2 != i)).foldl (fun t x => t + x.1.size) 0

def slice (b : Bytes) (off len : Nat) : Except IoError Bytes :=
  if off + len ≤ b.length then .ok (b.field off len) else .error .other

variable [DecidableEq H]

def perform (cr : TapeCrates H) (root : Nat) : (o : FileOp H) → Disk H → o.Ret × Disk H
  | .createNew id, d =>
    match (d.dirs root).staging id with
    | some _ => (.error .alreadyExists, d)
    | none => (.ok (), (d.alloc []).setStaging root id (some d.nextIno))
  | .openAppend id, d =>
    match (d.dirs root).staging id with
    | some ino => (.ok ino, d)
    | none => (.error .notFound, d)
  | .removeStaging id, d =>
    match (d.dirs root).staging id with
    | some _ => (.ok (), d.setStaging root id none)
    | none => (.error .notFound, d)
  | .readStaging id, d =>
    match (d.dirs root).staging id with
    | some ino => (.ok (d.content ino), d)
    | none => (.error .notFound, d)
  | .readStagingAt id off len, d =>
    match (d.dirs root).staging id with
    | some ino => (slice (d.content ino) off len, d)
    | none => (.error .notFound, d)
  | .rewriteStaging id b, d =>
    match (d.dirs root).staging id with
    | some ino => (.ok (), d.setContent ino b)
    | none => (.ok (), (d.alloc b).setStaging root id (some d.nextIno))
  | .syncStaging id, d =>
    match (d.dirs root).staging id with
    | some _ => (.ok (), d)
    | none => (.error .notFound, d)
  | .stagingLen id, d =>
    match (d.dirs root).staging id with
    | some ino => (.ok (d.content ino).length, d)
    | none => (.error .notFound, d)
  | .setStagingLen id n, d =>
    match (d.dirs root).staging id with
    | some ino => (.ok (), d.setContent ino (Paged.setLen 0 (d.content ino) n))
    | none => (.error .notFound, d)
  | .append ino b, d => (.ok (), d.setContent ino (d.content ino ++ b))
  | .syncData _, d => (.ok (), d)
  | .poolExists h, d => (.ok (d.pool h).isSome, d)
  | .rename id h, d =>
    match (d.dirs root).staging id with
    | some ino => if d.crossDevice then (.error .crossesDevices, d) else (.ok (), (d.setPool h ino).setStaging root id none)
    | none => (.error .notFound, d)
  | .copyIntoPool id h, d =>
    match (d.dirs root).staging id with
    | some ino => (.ok (), (d.alloc (d.content ino)).setPool h d.nextIno)
    | none => (.error .notFound, d)
  | .readPool h, d =>
    match d.pool h with
    | some ino => (.ok (d.content ino), d)
    | none => (.error .notFound, d)
  | .readPoolAt h off len, d =>
    match d.pool h with
    | some ino => (slice (d.content ino) off len, d)
    | none => (.error .notFound, d)
  | .chunkLen, d => (.ok (d.dirs root).chunks.length, d)
  | .chunkRead i, d =>
    match (d.dirs root).chunks[i]? with
    | some rec => (.ok rec, d)
    | none => (.error .other, d)
  | .chunkWrite i rec, d => (.ok (), d.setChunks root (Paged.writeAt .staging (d.dirs root).chunks i [rec]))
  | .chunkSetLen n, d => (.ok (), d.setChunks root (Paged.setLen .staging (d.dirs root).chunks n))
  | .chunkSync, d => (.ok (), d)
  | .anySealedExcept i n, d => (.ok (anySealed ((d.dirs root).chunks.take n) i), d)
  | .sumSizesExcept i n, d => (.ok (sumSizes ((d.dirs root).chunks.take n) i), d)
  | .blockLen p, d => (.ok ((d.dirs root).blocks p).length, d)
  | .blockRead p i, d =>
    match ((d.dirs root).blocks p)[i]? with
    | some rec => (.ok rec, d)
    | none => (.error .other, d)
  | .blockWrite p i rec, d => (.ok (), d.setBlocks root p (Paged.writeAt zeroBlock ((d.dirs root).blocks p) i [rec]))
  | .blockSetLen p n, d => (.ok (), d.setBlocks root p (Paged.setLen zeroBlock ((d.dirs root).blocks p) n))
  | .blockSync _, d => (.ok (), d)
  | .blockUnlink p, d => (.ok (), d.setBlocks root p [])
  | .lruLen, d => (.ok (d.dirs root).lru, d)
  | .lruWrite i, d => (.ok (), d.setLru root (Nat.max (d.dirs root).lru (i + 1)))
  | .lruSetLen n, d => (.ok (), d.setLru root n)
  | .lruSync, d => (.ok (), d)
  | .persistRuntime rt, d => (.ok (), d.setRuntime root rt.saved)
  | .loadRuntime, d =>
    match (d.dirs root).runtime with
    | some rt => (.ok rt, d)
    | none => (.error .notFound, d)
  | .tryReserve _, d => (.ok (), d)
  | .encrypt key iv b, d => (.ok (cr.encryptBlock key iv b), { d with log := d.log ++ [⟨key, iv, b⟩] })
  | .compress algo level b, d => (.ok (cr.compressData algo level b), d)

/-- An append and a rewrite may have written `n` bytes. -/
def fail {H : Type} (root n : Nat) : (o : FileOp H) → Disk H → o.Ret × Disk H
  | .append ino b, d => (.error .other, d.setContent ino (d.content ino ++ b.take n))
  | .rewriteStaging id b, d =>
    match (d.dirs root).staging id with
    | some ino => (.error .other, d.setContent ino (b.take n))
    | none => (.error .other, (d.alloc (b.take n)).setStaging root id (some d.nextIno))
  | _, d => (.error .other, d)

section

variable (cr : TapeCrates H) (root : Nat) (o : FileOp H)

/-- Under a plan of faults: an entry says whether the operation works, and how far it got. An empty plan lets everything
work. -/
def step : Disk H × List (Option Nat) → o.Ret × (Disk H × List (Option Nat))
  | (d, []) => ((perform cr root o d).1, (perform cr root o d).2, [])
  | (d, none :: plan) => ((perform cr root o d).1, (perform cr root o d).2, plan)
  | (d, some n :: plan) => ((fail root n o d).1, (fail root n o d).2, plan)

/-! ### What an operation may do -/

def MayFail (d : Disk H) (r : o.Ret) (d' : Disk H) : Prop :=
  (r, d') = perform cr root o d ∨ ∃ n, (r, d') = fail root n o d

theorem step_mayFail (x : Disk H × List (Option Nat)) :
    MayFail cr root o x.1 (step cr root o x).1 (step cr root o x).2.1 := by
  obtain ⟨d, plan⟩ := x
  match plan with
  | [] => exact .inl rfl
  | none :: _ => exact .inl rfl
  | some n :: _ => exact .inr ⟨n, rfl⟩

end

end Disk

end Thur.Stream

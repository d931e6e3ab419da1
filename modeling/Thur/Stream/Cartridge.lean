import Thur.Stream.Disk
/-!
# Cartridge — the tape operations of one cartridge handle

A handle keeps the position, the current chunk with its streaming hash and its open staging file, and the record counts
of the index files. The operations are programs over the file operations of `Disk`, in the order of the source: what is
checked first, which write comes before which, and what an error leaves.
-/
namespace Thur.Stream

/-! ## The handle -/

inductive EncryptionMode
  | disable
  | encrypt
deriving DecidableEq

inductive DecryptionMode
  | disable
  | raw
  | decrypt
  | mixed
deriving DecidableEq

structure DriveEncryptionState where
  mode : EncryptionMode
  decryptionMode : DecryptionMode
  key : Bytes

def DriveEncryptionState.encryptOnWrite (st : DriveEncryptionState) : Bool := st.mode == .encrypt && st.key.length == 32

structure DriveCompressionState where
  dce : Bool
  algorithm : CompressionAlgo
  level : Int

def DriveCompressionState.disabled : DriveCompressionState := ⟨false, .lz4, 3⟩

/-- `chunkNext`, `lruNext` and `blockNext` are the record counts of the index handles; `hasher` holds the bytes fed to
the streaming hash. -/
structure Cartridge (H : Type) where
  uuid : Bytes
  worm : Bool
  capacityGb : Nat
  chunking : ChunkingMode
  runtime : Runtime
  chunkNext : Nat
  lruNext : Nat
  blockNext : List Nat
  curChunkId : Nat
  curChunk : ChunkRec H
  curFile : Nat
  headLba : Nat
  hasStorageBackend : Bool
  cdcState : Option StreamingChunker
  curChunkHasher : Bytes
  encryption : Option DriveEncryptionState
  compression : DriveCompressionState
  legalHeld : Bool
  sealedBytes : Nat
  earlyWarningReported : Bool
  atRestDek : Option Bytes
  isViewHandle : Bool
  lastDecryptedChunk : Option (Nat × Bytes)

variable {H : Type} {σ β : Type} {o : FileOp H} {c : Cartridge H}

abbrev CartM (H : Type) := Proc (FileOp H) FileOp.Ret (Cartridge H) SmcError

def fileOr (e : SmcError) (o : FileOp H) : CartM H o.Answer := Proc.op o >>= fun r => Proc.ofExcept (r.mapError (fun _ => e))

def file (o : FileOp H) : CartM H o.Answer := fileOr .io o

def fileIgnored (o : FileOp H) : CartM H Unit := Proc.op o >>= fun _ => pure ()

variable {may : (o : FileOp H) → σ → o.Ret → σ → Prop} {Q : Except SmcError o.Answer → Cartridge H → σ → Prop}
  {inv : σ → Prop}

theorem safe_fileOr {e : SmcError} {s : σ}
    :
    (fileOr e o).Safe may inv c s Q ↔ ∀ r s', may o s r s' → inv s' ∧ Q (r.mapError (fun _ => e)) c s' := by
  rw [fileOr, Proc.safe_op_bind]
  simp only [Proc.safe_ofExcept]

theorem safe_file {s : σ}
    :
    (file o).Safe may inv c s Q ↔ ∀ r s', may o s r s' → inv s' ∧ Q (r.mapError (fun _ => SmcError.io)) c s' := safe_fileOr

variable {Q : Except SmcError β → Cartridge H → σ → Prop}

open Proc (failIf onlyIf)

namespace Cartridge

/-! ## Index handles -/

def blockNextOf (c : Cartridge H) (p : Nat) : Nat := c.blockNext.getD p 0

theorem blockNextOf_set {c : Cartridge H} {p n : Nat} (hp : p < c.blockNext.length) :
    blockNextOf { c with blockNext := c.blockNext.set p n } p = n := by
  simp [blockNextOf, hp]

def activePartition (c : Cartridge H) : Nat := c.runtime.activePartition

def activeNextLba (c : Cartridge H) : Nat := c.blockNextOf c.activePartition

def checkSize (rec : ChunkRec H) : CartM H Unit :=
  failIf (rec.size > u32Max) (.invalidOp "chunk index encode: size exceeds u32::MAX (chunk too large)")

def chunkAppend (rec : ChunkRec H) : CartM H Unit := do
  checkSize rec
  let c ← get
  file (.chunkWrite c.chunkNext rec)
  modify fun c => { c with chunkNext := c.chunkNext + 1 }

def chunkOverwrite (id : Nat) (rec : ChunkRec H) : CartM H Unit := do
  let c ← get
  failIf (id ≥ c.chunkNext) (.invalidOp "chunk index overwrite past next_id")
  checkSize rec
  file (.chunkWrite id rec)

def chunkRead (id : Nat) : CartM H (ChunkRec H) := do
  let c ← get
  failIf (id ≥ c.chunkNext) (.invalidOp "chunk index read past next_id")
  file (.chunkRead id)

def chunkTruncateTo (n : Nat) : CartM H Unit := do
  file (.chunkSetLen n)
  modify fun c => { c with chunkNext := n }

def lruAppend : CartM H Unit := do
  let c ← get
  file (.lruWrite c.lruNext)
  modify fun c => { c with lruNext := c.lruNext + 1 }

def lruTouch (id : Nat) : CartM H Unit := do
  let c ← get
  failIf (id ≥ c.lruNext) (.invalidOp "lru index touch past next_id")
  file (.lruWrite id)

def lruTruncateTo (n : Nat) : CartM H Unit := do
  file (.lruSetLen n)
  modify fun c => { c with lruNext := n }

def lruGrowTo (n : Nat) : CartM H Unit := do
  let c ← get
  if n ≤ c.lruNext then pure () else lruTruncateTo n

def blockAppend (p : Nat) (rec : BlockRec) : CartM H Nat := do
  let c ← get
  file (.blockWrite p (c.blockNextOf p) rec)
  modify fun c => { c with blockNext := c.blockNext.set p (c.blockNextOf p + 1) }
  pure (c.blockNextOf p)

def blockOverwrite (p lba : Nat) (rec : BlockRec) : CartM H Unit := do
  let c ← get
  failIf (lba ≥ c.blockNextOf p) (.invalidOp "block index overwrite past next_lba")
  file (.blockWrite p lba rec)

def blockAt (p lba : Nat) : CartM H BlockRec := do
  let c ← get
  failIf (lba ≥ c.blockNextOf p) (.invalidOp "block index read past next_lba")
  file (.blockRead p lba)

def blockTruncateTo (p n : Nat) : CartM H Unit := do
  file (.blockSetLen p n)
  modify fun c => { c with blockNext := c.blockNext.set p n }

def encodeBlockRec (chunkId offset len : Nat) (kind : BlockKind) (encrypted : Bool) (compression : Option CompressionAlgo) :
    Except SmcError BlockRec :=
  if chunkId > u32Max then .error (.invalidOp "block-index encode: chunk_id exceeds u32::MAX")
  else if offset > u32Max then .error (.invalidOp "block-index encode: offset exceeds u32::MAX (chunk > 4 GiB)")
  else if len > u32Max then .error (.invalidOp "block-index encode: len exceeds u32::MAX")
  else .ok ⟨UInt32.ofNat chunkId, UInt32.ofNat offset, UInt32.ofNat len, kind,
    if encrypted then .aes256Gcm else .none, compression⟩

/-! ## Capacity -/

def usedCapacityBytes (c : Cartridge H) : Nat := c.sealedBytes + c.curChunk.size

def effectiveCapacityBytes (c : Cartridge H) : Option Nat :=
  if c.capacityGb = 0 then none
  else
    let native := c.capacityGb * 1073741824
    let p := c.runtime.setCapacityProportion
    if p = 0 ∨ p = 65535 then some native else some (native * p / 65535)

def earlyWarningThresholdBytes (c : Cartridge H) : Option Nat := c.effectiveCapacityBytes.map fun e => e * 95 / 100

def pastCapacity (c : Cartridge H) (len : Nat) : Bool :=
  match c.effectiveCapacityBytes with
  | some effective => decide (c.usedCapacityBytes + len > effective)
  | none => false

def atCapacity (c : Cartridge H) : Bool :=
  match c.effectiveCapacityBytes with
  | some effective => decide (c.usedCapacityBytes ≥ effective)
  | none => false

def earlyWarningDue (c : Cartridge H) : Bool :=
  !c.earlyWarningReported &&
    match c.earlyWarningThresholdBytes with
    | some threshold => decide (c.usedCapacityBytes ≥ threshold)
    | none => false

def raiseEarlyWarning : CartM H Unit := do
  let c ← get
  if c.earlyWarningDue then
    modify fun c => { c with earlyWarningReported := true }
    throw .earlyWarning
  else pure ()

def requireWritable (appendAtEodOk : Bool) : CartM H Unit := do
  let c ← get
  if c.legalHeld then throw .legalHoldViolation
  else if c.worm && !(appendAtEodOk && c.headLba == c.activeNextLba) then throw .wormViolation
  else pure ()

/-! ## Chunks -/

def newChunk (id : Nat) : CartM H (ChunkRec H) := do
  file (.createNew id)
  pure .staging

def insertFromPath (id : Nat) (h : H) : CartM H Unit := do
  let found : Bool ← file (.poolExists h)
  if found then file (.removeStaging id)
  else
    match ← Proc.op (.rename id h) with
    | .ok _ => pure ()
    | .error .crossesDevices =>
      file (.copyIntoPool id h)
      file (.removeStaging id)
    | .error _ => throw .io

section

variable (cr : TapeCrates H)

/-- The staging file is rewritten as one encrypted envelope, and the hash is over that. -/
def encryptStaging (dek : Bytes) : CartM H H := do
  let c ← get
  let plaintext ← file (.readStaging c.curChunkId)
  let ciphertext ← fileOr .encryptionError (.encrypt dek (cr.deriveIv c.uuid c.curChunkId 0) plaintext)
  modify fun c => { c with curChunkHasher := [] }
  file (.rewriteStaging c.curChunkId ciphertext)
  file (.syncStaging c.curChunkId)
  pure (cr.blake3 ciphertext)

def stagedHash : CartM H H := do
  let c ← get
  match c.atRestDek with
  | some dek => encryptStaging cr dek
  | none =>
    modify fun c => { c with curChunkHasher := [] }
    pure (cr.blake3 c.curChunkHasher)

def sealCurrentChunk (force : Bool) : CartM H Bool := do
  let c ← get
  if c.curChunk.hash.isSome then pure true
  else if c.curChunk.size = 0 then
    fileIgnored (.removeStaging c.curChunkId)
    modify fun c => { c with curChunkHasher := [] }
    pure false
  else
    onlyIf (!force) (fileOr .backpressured (.tryReserve c.curChunk.size))
    onlyIf c.atRestDek.isNone (file (.syncData c.curFile))
    let hash ← stagedHash cr
    let _ ← file (.poolExists hash)
    insertFromPath c.curChunkId hash
    modify fun c => { c with curChunk := { c.curChunk with hash := some hash } }
    let c ← get
    chunkOverwrite c.curChunkId c.curChunk
    pure true

def startNextChunk : CartM H Nat := do
  modify fun c => { c with sealedBytes := c.sealedBytes + c.curChunk.size }
  let c ← get
  let newc ← newChunk (c.curChunkId + 1)
  chunkAppend newc
  lruAppend
  modify fun c => { c with curChunkId := c.curChunkId + 1, curChunk := newc }
  pure (c.curChunkId + 1)

def restartChunk : CartM H Nat := do
  let c ← get
  let newc ← newChunk c.curChunkId
  chunkOverwrite c.curChunkId newc
  lruTouch c.curChunkId
  modify fun c => { c with curChunk := newc }
  pure c.curChunkId

def openCurFile (id : Nat) : CartM H Unit := do
  file .chunkSync
  file .lruSync
  let ino ← file (.openAppend id)
  modify fun c => { c with curFile := ino }

def sealAndStartNewChunk : CartM H Unit := do
  let sealed ← sealCurrentChunk cr false
  modify fun c => { c with cdcState := c.cdcState.map StreamingChunker.reset }
  if sealed then startNextChunk >>= openCurFile else restartChunk >>= openCurFile

def rollChunkIfNeeded (toAppend : Nat) : CartM H Unit := do
  let c ← get
  if c.curChunk.size + toAppend ≤ forcedCutThreshold c.chunking then pure () else sealAndStartNewChunk cr

def maybeCdcSealAfterWrite (written : Bytes) : CartM H Unit := do
  let c ← get
  match c.cdcState with
  | none => pure ()
  | some sc =>
    modify fun c => { c with cdcState := some (sc.feed written).2 }
    if (sc.feed written).1 then sealAndStartNewChunk cr else pure ()

def syncBlocks : Nat → CartM H Unit
  | 0 => pure ()
  | n + 1 => do
    syncBlocks n
    file (.blockSync n)

def syncIndexes : CartM H Unit := do
  let c ← get
  syncBlocks c.blockNext.length
  file .chunkSync
  file .lruSync

def flushAndSeal : CartM H Unit := do
  let c ← get
  if c.curChunk.hash.isSome then pure ()
  else if c.curChunk.size = 0 then
    let hasSealedPredecessor : Bool ← file (.anySealedExcept c.curChunkId c.chunkNext)
    onlyIf hasSealedPredecessor do
      fileIgnored (.removeStaging c.curChunkId)
      chunkTruncateTo c.curChunkId
      lruTruncateTo c.curChunkId
      syncIndexes
  else
    let _ ← sealCurrentChunk cr true
    syncIndexes

def persistRuntime : CartM H Unit := do
  let c ← get
  if c.isViewHandle then pure ()
  else
    chunkOverwrite c.curChunkId c.curChunk
    file (.persistRuntime c.runtime)

def drop : CartM H Unit := do
  let c ← get
  if c.isViewHandle then pure ()
  else
    onlyIf c.curChunk.hash.isNone (Proc.attempt (flushAndSeal cr) >>= fun _ => pure ())
    let c ← get
    fileIgnored (.persistRuntime c.runtime)

/-! ## Writing -/

def overwriteBarrier (c : Cartridge H) : Option Nat :=
  match c.runtime.partitions[c.activePartition]? with
  | some part => part.overwriteBarrier
  | none => none

def barrierPassed (c : Cartridge H) : Bool :=
  match c.overwriteBarrier with
  | some barrier => decide (c.headLba ≥ barrier)
  | none => false

def truncateFromHead : CartM H Unit := do
  let c ← get
  if c.headLba ≥ c.activeNextLba then pure ()
  else if c.barrierPassed then pure ()
  else blockTruncateTo c.activePartition c.headLba

def compressOnWrite (bytes : Bytes) : CartM H (Bytes × Option CompressionAlgo) := do
  let c ← get
  if c.compression.dce then
    let out ← fileOr .compressionError (.compress c.compression.algorithm c.compression.level bytes)
    pure (out, some c.compression.algorithm)
  else pure (bytes, none)

def encryptOnWrite (cr : TapeCrates H) (bytes : Bytes) : CartM H (Bytes × Bool) := do
  let c ← get
  match c.encryption with
  | some st =>
    if st.encryptOnWrite then
      let out ← fileOr .encryptionError (.encrypt st.key (cr.deriveIv c.uuid c.curChunkId c.curChunk.size) bytes)
      pure (out, true)
    else pure (bytes, false)
  | none => pure (bytes, false)

/-- The streaming hash and the size follow. -/
def appendBytes (written : Bytes) : CartM H Unit := do
  let c ← get
  file (.append c.curFile written)
  modify (fun c => { c with
    curChunkHasher := c.curChunkHasher ++ written
    curChunk := { c.curChunk with size := c.curChunk.size + written.length } })

/-- At the head if there is a record there, else at the end; the head moves behind it. -/
def recordBlock (rec : BlockRec) : CartM H Nat := do
  let c ← get
  if c.headLba < c.activeNextLba then
    blockOverwrite c.activePartition c.headLba rec
    modify fun c => { c with headLba := c.headLba + 1 }
    pure c.headLba
  else
    let lba ← blockAppend c.activePartition rec
    modify fun c => { c with headLba := lba + 1 }
    pure lba

/-- Compressed and encrypted as the drive is set. -/
def stageBlock (bytes : Bytes) : CartM H (BlockRec × Bytes) := do
  let out ← compressOnWrite bytes
  rollChunkIfNeeded cr (out.1.length + 16)
  let c ← get
  let written ← encryptOnWrite cr out.1
  appendBytes written.1
  let rec ← Proc.ofExcept (encodeBlockRec c.curChunkId c.curChunk.size written.1.length .data written.2 out.2)
  pure (rec, written.1)

def requireRoom (full : Cartridge H → Bool) : CartM H Unit := do
  requireWritable true
  let c ← get
  failIf (full c) .endOfMedium
  truncateFromHead

def writeBlock (bytes : Bytes) : CartM H (Nat × Bytes) := do
  requireRoom fun c => c.pastCapacity bytes.length
  let res ← stageBlock cr bytes
  let lba ← recordBlock res.1
  pure (lba, res.2)

def afterWrite (written : Bytes) : CartM H Unit := do
  let c ← get
  lruTouch c.curChunkId
  onlyIf c.hasStorageBackend
    (modify (fun c => { c with curChunk := { c.curChunk with location := .localOnly, uploaded := false } }))
  maybeCdcSealAfterWrite cr written
  raiseEarlyWarning

def writeData (bytes : Bytes) : CartM H Nat := do
  let res ← writeBlock cr bytes
  afterWrite cr res.2
  pure res.1

def appendFilemark : CartM H Nat := do
  let c ← get
  let rec ← Proc.ofExcept (encodeBlockRec c.curChunkId c.curChunk.size 0 .filemark false none)
  let lba ← blockAppend c.activePartition rec
  modify fun c => { c with headLba := lba + 1 }
  pure lba

def syncFilemarks : CartM H Unit := do
  let c ← get
  file (.blockSync c.activePartition)
  file .chunkSync

def writeFilemark : CartM H Nat := do
  requireRoom atCapacity
  let lba ← appendFilemark
  syncFilemarks
  raiseEarlyWarning
  pure lba

def appendFilemarks : Nat → Nat → CartM H Nat
  | 0, last => pure last
  | n + 1, _ => do
    let lba ← appendFilemark
    appendFilemarks n lba

def writeFilemarks (count : Nat) : CartM H Nat := do
  let c ← get
  if count = 0 then
    syncFilemarks
    pure c.headLba
  else
    requireRoom atCapacity
    let last ← appendFilemarks count c.headLba
    syncFilemarks
    raiseEarlyWarning
    pure last

/-! ## Reading -/

structure Block where
  kind : BlockKind
  data : Bytes
  lba : Nat
deriving DecidableEq

def readChunkRecForBlock (id : Nat) : CartM H (ChunkRec H) := do
  let c ← get
  if id = c.curChunkId then pure c.curChunk
  else if id ≥ c.chunkNext then throw (.indexCorrupt "block record references a chunk id past the chunk index")
  else file (.chunkRead id)

/-- From the cache of one or from the pool. -/
def decryptedChunk (dek : Bytes) (id : Nat) (h : H) : CartM H Bytes := do
  let c ← get
  match c.lastDecryptedChunk with
  | some (cached, pt) => if cached = id then pure pt else fetch
  | none => fetch
where
  fetch : CartM H Bytes := do
    let c ← get
    let ciphertext ← file (.readPool h)
    match cr.decryptBlock dek (cr.deriveIv c.uuid id 0) ciphertext with
    | .ok pt =>
      modify fun c => { c with lastDecryptedChunk := some (id, pt) }
      pure pt
    | .error _ => throw .encryptionError

def readChunkSlice (id : Nat) (chunk : ChunkRec H) (off len : Nat) : CartM H Bytes := do
  let c ← get
  match c.atRestDek, chunk.hash with
  | some dek, some h =>
    let pt ← decryptedChunk cr dek id h
    if off + len > pt.length then throw (.indexCorrupt "block record slice extends past decrypted chunk plaintext")
    else pure (pt.field off len)
  | none, some h => file (.readPoolAt h off len)
  | _, none => file (.readStagingAt id off len)

def maybeDecrypt (rec : BlockRec) (buf : Bytes) : CartM H Bytes := do
  let c ← get
  if !rec.encrypted then pure buf
  else
    match c.encryption with
    | none => throw (.dataDecryptionError "encrypted block read without a drive key set")
    | some st =>
      if st.decryptionMode = .disable then
        throw (.dataDecryptionError "drive decryption mode disabled but block is encrypted")
      else
        match cr.decryptBlock st.key (cr.deriveIv c.uuid rec.chunkId.toNat rec.offset.toNat) buf with
        | .ok b => pure b
        | .error text => throw (.dataDecryptionError text)

def maybeDecompress (rec : BlockRec) (buf : Bytes) (isSealed : Bool) : Except SmcError Bytes :=
  match rec.compression with
  | none => .ok buf
  | some algo =>
    match cr.decompressData algo buf with
    | some b => .ok b
    | none => .error (if isSealed then .chunkPayloadCorrupt else .compressionError)

def readBlock (lba : Nat) : CartM H Block := do
  let c ← get
  let rec ← blockAt c.activePartition lba
  match rec.kind with
  | .filemark => pure ⟨.filemark, [], lba⟩
  | .data =>
    let chunk ← readChunkRecForBlock rec.chunkId.toNat
    lruTouch rec.chunkId.toNat
    let buf ← readChunkSlice cr rec.chunkId.toNat chunk rec.offset.toNat rec.len.toNat
    let buf ← maybeDecrypt cr rec buf
    let data ← Proc.ofExcept (maybeDecompress cr rec buf chunk.hash.isSome)
    pure ⟨.data, data, lba⟩

def readNext : CartM H Block := do
  let c ← get
  failIf (c.headLba ≥ c.activeNextLba) .endOfData
  let blk ← readBlock cr c.headLba
  modify fun c => { c with headLba := c.headLba + 1 }
  pure blk

end

/-! ## Positioning -/

def rewind : CartM H Unit := modify fun c => { c with headLba := 0, earlyWarningReported := false }

def locate (lba : Nat) : CartM H Unit := do
  let c ← get
  if lba > c.activeNextLba then throw (.invalidOp "LOCATE past EOT")
  else modify fun c => { c with headLba := lba }

def locatePartition (p lba : Nat) : CartM H Unit := do
  let c ← get
  if p ≥ c.runtime.partitions.length then throw (.invalidOp "LOCATE: partition out of range")
  else if lba > c.blockNextOf p then throw (.invalidOp "LOCATE past EOT")
  else
    modify fun c => { c with runtime := { c.runtime with activePartition := p }, headLba := lba }
    onlyIf (c.activePartition ≠ p) persistRuntime

structure SpaceRecordsResult where
  moved : Int
  hitFilemark : Bool
deriving DecidableEq

def spaceForward : Nat → Nat → CartM H SpaceRecordsResult
  | 0, moved => pure ⟨moved, false⟩
  | n + 1, moved => do
    let c ← get
    if c.headLba ≥ c.activeNextLba then pure ⟨moved, false⟩
    else
      let rec ← blockAt c.activePartition c.headLba
      modify fun c => { c with headLba := c.headLba + 1 }
      match rec.kind with
      | .filemark => pure ⟨moved, true⟩
      | .data => spaceForward n (moved + 1)

def spaceBackward : Nat → Nat → CartM H SpaceRecordsResult
  | 0, moved => pure ⟨-moved, false⟩
  | n + 1, moved => do
    let c ← get
    if c.headLba = 0 then pure ⟨-moved, false⟩
    else
      let rec ← blockAt c.activePartition (c.headLba - 1)
      modify fun c => { c with headLba := c.headLba - 1 }
      match rec.kind with
      | .filemark => pure ⟨-moved, true⟩
      | .data => spaceBackward n (moved + 1)

def spaceRecords (delta : Int) : CartM H SpaceRecordsResult :=
  if delta > 0 then spaceForward delta.toNat 0 else spaceBackward (-delta).toNat 0

/-- Over at most `k` records: where the walk ends and the filemarks crossed. -/
def filemarksForward (p n : Nat) : Nat → Nat → Nat → CartM H (Nat × Nat)
  | 0, lba, moved => pure (lba, moved)
  | k + 1, lba, moved => do
    let rec ← blockAt p lba
    match rec.kind with
    | .data => filemarksForward p n k (lba + 1) moved
    | .filemark => if moved + 1 ≥ n then pure (lba + 1, moved + 1) else filemarksForward p n k (lba + 1) (moved + 1)

/-- Over the `k` records in front of the head: the filemarks crossed, and where the last one lies. -/
def filemarksBackward (p n : Nat) : Nat → Nat → Nat → CartM H (Nat × Nat)
  | 0, moved, last => pure (moved, last)
  | k + 1, moved, last => do
    let rec ← blockAt p k
    match rec.kind with
    | .data => filemarksBackward p n k moved last
    | .filemark => if moved + 1 ≥ n then pure (moved + 1, k) else filemarksBackward p n k (moved + 1) k

def spaceFilemarks (n : Int) : CartM H Int := do
  let c ← get
  if n = 0 then pure 0
  else if n > 0 then
    let res ← filemarksForward c.activePartition n.toNat (c.activeNextLba - c.headLba) c.headLba 0
    modify fun c => { c with headLba := Nat.min res.1 c.activeNextLba }
    pure (res.2 : Int)
  else
    let res ← filemarksBackward c.activePartition (-n).toNat c.headLba 0 0
    modify fun c => { c with headLba := if res.1 < (-n).toNat then 0 else Nat.min res.2 c.activeNextLba }
    pure (-(res.1 : Int))

def spaceToEod : CartM H Unit := modify fun c => { c with headLba := c.activeNextLba }

/-! ## Erasing and formatting -/

def truncateBlocks : Nat → Nat → CartM H Unit
  | 0, _ => pure ()
  | n + 1, p => do
    blockTruncateTo p 0
    truncateBlocks n (p + 1)

def clearBarriers (rt : Runtime) : Runtime :=
  { rt with partitions := rt.partitions.map (fun p => { p with overwriteBarrier := none }) }

def erase : CartM H Unit := do
  requireWritable false
  modify fun c => { c with runtime := clearBarriers c.runtime }
  let c ← get
  truncateBlocks c.blockNext.length 0
  modify fun c => { c with runtime := { c.runtime with activePartition := 0 }, headLba := 0, earlyWarningReported := false }
  persistRuntime

def setCapacityProportion (proportion : Nat) : CartM H Unit := do
  erase
  modify (fun c => { c with
    runtime := { c.runtime with setCapacityProportion := if proportion = 0 then 65535 else proportion }
    earlyWarningReported := false })
  persistRuntime

def setPendingPartitionLayout (layout : PendingPartitionLayout) : CartM H Unit := do
  if layout.additionalPartitions > 1 then
    throw (.invalidOp "MODE SELECT 0x11: too many additional partitions (max 1)")
  else
    modify fun c => { c with runtime := { c.runtime with pendingPartitionLayout := some layout } }
    persistRuntime

def capacityMib (psum size : Nat) : Nat :=
  if size = 65535 then 0
  else
    match psum with
    | 0 => size / 1048576
    | 1 => size / 1024
    | 2 => size
    | 3 => size * 1024
    | 4 => size * 1048576
    | _ => 0

def layoutPartitions (layout : PendingPartitionLayout) (count : Nat) : List Partition :=
  (List.range count).map fun i => ⟨capacityMib layout.psum (layout.partitionSizes.getD i 0), none⟩

def unlinkBlocks : Nat → CartM H Unit
  | 0 => pure ()
  | n + 1 => do
    unlinkBlocks n
    fileIgnored (.blockUnlink n)

def openBlockIndexes : Nat → CartM H (List Nat)
  | 0 => pure []
  | n + 1 => do
    let counts ← openBlockIndexes n
    let count : Nat ← file (.blockLen n)
    pure (counts ++ [count])

def finishFormat : CartM H Unit := do
  modify (fun c => { c with
    runtime := { c.runtime with activePartition := 0, pendingPartitionLayout := none }, headLba := 0 })
  persistRuntime

def applyFormatMedium (formatField : Nat) : CartM H Unit := do
  requireWritable false
  match formatField with
  | 0 => erase
  | 2 =>
    modify fun c => { c with runtime := { c.runtime with partitions := [⟨0, none⟩] } }
    finishFormat
  | 1 =>
    let c ← get
    match c.runtime.pendingPartitionLayout with
    | none => throw (.invalidOp "FORMAT MEDIUM 0x01: no pending Mode Page 0x11 layout staged")
    | some layout =>
      let count := if layout.sdp then 1 else 1 + layout.additionalPartitions
      if count = 0 ∨ count > 2 then throw (.invalidOp "FORMAT MEDIUM 0x01: invalid partition count")
      else
        modify fun c => { c with runtime := { c.runtime with partitions := layoutPartitions layout count } }
        unlinkBlocks (Nat.max count c.blockNext.length)
        let counts ← openBlockIndexes count
        modify fun c => { c with blockNext := counts }
        finishFormat
  | _ => throw (.invalidOp "FORMAT MEDIUM: unsupported FORMAT field")

def setAllowOverwrite (p lba : Nat) : CartM H Unit := do
  requireWritable false
  let c ← get
  if p ≥ c.runtime.partitions.length then throw (.invalidOp "ALLOW OVERWRITE: partition out of range")
  else
    let barrier := if lba = 0 then none else some lba
    modify (fun c => { c with runtime := { c.runtime with
      partitions := c.runtime.partitions.modify p (fun part => { part with overwriteBarrier := barrier }) } })

def setEncryptionState (st : Option DriveEncryptionState) : CartM H Unit := modify fun c => { c with encryption := st }

def setCompressionState (st : DriveCompressionState) : CartM H Unit :=
  modify fun c => { c with compression := if st.dce && st.algorithm == .sldc then { st with algorithm := .lz4 } else st }

/-! ## Opening -/

/-- The tail of the index that names the chunk: the largest end of a block. -/
def recoveredInPartition (p id : Nat) : Nat → Nat → CartM H Nat
  | 0, maxEnd => pure maxEnd
  | lba + 1, maxEnd => do
    let rec ← file (.blockRead p lba)
    if rec.chunkId.toNat ≠ id then pure maxEnd
    else recoveredInPartition p id lba (Nat.max maxEnd (rec.offset.toNat + rec.len.toNat))

def recoveredChunkSize (id : Nat) : Nat → CartM H Nat
  | 0 => pure 0
  | n + 1 => do
    let maxEnd ← recoveredChunkSize id n
    let count ← file (.blockLen n)
    recoveredInPartition n id count maxEnd

def truncateStaging (id size : Nat) : CartM H Unit := do
  let len : Except IoError Nat ← Proc.op (FileOp.stagingLen id)
  onlyIf (len.toOption.getD 0 > size) (file (.setStagingLen id size))

def resumeOrCreateActive (viewOnly : Bool) : CartM H Unit := do
  let c ← get
  let lastId := c.chunkNext - 1
  let last ← chunkRead lastId
  if last.hash.isNone then
    let size ← recoveredChunkSize lastId c.runtime.partitions.length
    onlyIf (!viewOnly) (truncateStaging lastId size)
    let ino ← file (.openAppend lastId)
    onlyIf (!viewOnly) (chunkOverwrite lastId { last with size := size })
    modify fun c => { c with curChunkId := lastId, curChunk := { last with size := size }, curFile := ino }
  else
    let newc ← newChunk (lastId + 1)
    chunkAppend newc
    lruAppend
    let ino ← file (.openAppend (lastId + 1))
    modify fun c => { c with curChunkId := lastId + 1, curChunk := newc, curFile := ino }

def buildChunkingState : CartM H Unit := do
  let c ← get
  match c.chunking with
  | .fixed _ => modify fun c => { c with cdcState := none }
  | .fastCdc lo avg hi =>
    let sc := StreamingChunker.new (FastCdc.new lo avg hi)
    if c.curChunk.hash.isNone && c.curChunk.size > 0 then
      match ← Proc.op (.readStaging c.curChunkId) with
      | .ok bytes => modify fun c => { c with cdcState := some (sc.feed bytes).2 }
      | .error _ => modify fun c => { c with cdcState := some sc }
    else modify fun c => { c with cdcState := some sc }

def buildCurChunkHasher : CartM H Unit := do
  let c ← get
  if c.curChunk.hash.isNone && c.curChunk.size > 0 then
    let bytes ← file (.readStaging c.curChunkId)
    modify fun c => { c with curChunkHasher := bytes }
  else modify fun c => { c with curChunkHasher := [] }

end Cartridge

structure OpenOptions where
  uuid : Bytes
  worm : Bool
  capacityGb : Nat
  chunking : ChunkingMode
  hasStorageBackend : Bool
  dek : Option Bytes
  viewOnly : Bool

def OpenOptions.handle (o : OpenOptions) : Cartridge H where
  uuid := o.uuid
  worm := o.worm
  capacityGb := o.capacityGb
  chunking := o.chunking
  runtime := .newBlank
  chunkNext := 0
  lruNext := 0
  blockNext := []
  curChunkId := 0
  curChunk := .staging
  curFile := 0
  headLba := 0
  hasStorageBackend := o.hasStorageBackend
  cdcState := none
  curChunkHasher := []
  encryption := none
  compression := .disabled
  legalHeld := false
  sealedBytes := 0
  earlyWarningReported := false
  atRestDek := o.dek
  isViewHandle := o.viewOnly
  lastDecryptedChunk := none

namespace Cartridge

/-- The active chunk, its access time, the chunker and the streaming hash. -/
def openActive (viewOnly : Bool) : CartM H Unit := do
  resumeOrCreateActive viewOnly
  let c ← get
  lruGrowTo c.chunkNext
  buildChunkingState
  buildCurChunkHasher

/-- The record counts, and the bytes of the other chunks. -/
def openTape (partitionCount : Nat) : CartM H Unit := do
  let counts ← openBlockIndexes partitionCount
  let c ← get
  let total ← file (.sumSizesExcept c.curChunkId c.chunkNext)
  modify fun c => { c with blockNext := counts, sealedBytes := total }

def openFiles (viewOnly : Bool) : CartM H Unit := do
  let rt ← file .loadRuntime
  failIf rt.partitions.isEmpty
    (.invalidOp "runtime sidecar has no partitions — older cartridge format no longer supported, recreate the cartridge")
  let next : Nat ← file .chunkLen
  let lru ← file .lruLen
  modify fun c => { c with runtime := rt, chunkNext := next, lruNext := lru }
  failIf (next = 0) (.invalidOp "chunks.idx is empty — cartridge has no chunks (recreate)")
  openActive viewOnly
  openTape rt.partitions.length

def createFiles : CartM H Unit := do
  let first ← newChunk 0
  chunkAppend first
  lruAppend
  let ino ← file (.openAppend 0)
  modify fun c => { c with curChunk := first, curFile := ino }
  buildChunkingState
  let c ← get
  let counts ← openBlockIndexes c.runtime.partitions.length
  modify fun c => { c with blockNext := counts }
  persistRuntime

end Cartridge

/-! ## Runs under faults -/

def runFaulty [DecidableEq H] {α : Type} (cr : TapeCrates H) (root : Nat) (m : CartM H α) (c : Cartridge H) (d : Disk H)
    (plan : List (Option Nat)) : (Except SmcError α × Cartridge H) × (Disk H × List (Option Nat)) :=
  (m c).exec (Disk.step cr root) (d, plan)

def OpenOptions.created (o : OpenOptions) : Cartridge Bytes × Disk Bytes :=
  let x := runFaulty .plain 0 Cartridge.createFiles o.handle (Disk.blank Bytes) []
  (x.1.2, x.2.1)

theorem runFaulty_bind [DecidableEq H] {α : Type} (cr : TapeCrates H) (root : Nat) (m : CartM H α) (f : α → CartM H β)
    (c : Cartridge H) (d : Disk H) (plan : List (Option Nat)) : runFaulty cr root (m >>= f) c d plan =
      match runFaulty cr root m c d plan with
      | ((.ok a, c'), d', plan') => runFaulty cr root (f a) c' d' plan'
      | ((.error e, c'), x) => ((.error e, c'), x) := by
  refine (Prog.exec_bind (Disk.step cr root) _ (m c) (d, plan)).trans ?_
  rw [runFaulty]
  obtain ⟨⟨r, c'⟩, x⟩ := (m c).exec (Disk.step cr root) (d, plan)
  cases r <;> rfl

theorem safe_runFaulty [DecidableEq H] {α : Type} {cr : TapeCrates H} {root : Nat} {m : CartM H α} {d : Disk H}
    {inv : Disk H → Prop} {Q : Except SmcError α → Cartridge H → Disk H → Prop}
    (h : m.Safe (Disk.MayFail cr root) inv c d Q) (plan : List (Option Nat)) :
    Q (runFaulty cr root m c d plan).1.1 (runFaulty cr root m c d plan).1.2 (runFaulty cr root m c d plan).2.1 := by
  have hexec := @Prog.Safe.exec _ _ _ _ _ inv _ (Disk.step cr root) Prod.fst (Disk.step_mayFail cr root) (m c) (d, plan) _ h
  exact hexec

end Thur.Stream

import Thur.Stream.Cartridge
/-!
# Footprint — what the parts of a cartridge can touch

The tape of a cartridge is its block indexes and the runtime sidecar. Sealing, rolling and reading chunks call no
operation that changes it, and leave the partitions, the record counts and the drive's settings in memory (`Setting`);
all but the positioning operations leave the head as well (`place`).
-/
namespace Thur.Stream

variable {H : Type} {o : FileOp H}

def FileOp.changesBlocks : FileOp H → Bool
  | .blockWrite _ _ _ | .blockSetLen _ _ | .blockUnlink _ => true
  | _ => false

def FileOp.changesTape : FileOp H → Bool
  | .persistRuntime _ => true
  | o => o.changesBlocks

def FileOp.OffBlocks (o : FileOp H) : Prop := o.changesBlocks = false

def FileOp.OffTape (o : FileOp H) : Prop := o.changesTape = false

theorem FileOp.OffTape.offBlocks (h : o.OffTape) : o.OffBlocks := by
  cases o <;> first | rfl | exact h

theorem Disk.perform_offBlocks [DecidableEq H] (cr : TapeCrates H) (root : Nat) (ho : o.OffBlocks) (d : Disk H) :
    ((perform cr root o d).2.dirs root).blocks = (d.dirs root).blocks := by
  cases o
  all_goals first
    | (cases ho; done)
    | (simp only [perform]; done)
    | simp only [perform]
      repeat' split
      all_goals simp [setStaging, setChunks, setLru, setRuntime]

theorem Disk.perform_offTape [DecidableEq H] (cr : TapeCrates H) (root : Nat) (ho : o.OffTape) (d : Disk H) :
    ((perform cr root o d).2.dirs root).runtime = (d.dirs root).runtime := by
  cases o
  all_goals first
    | (cases ho; done)
    | (simp only [perform]; done)
    | simp only [perform]
      repeat' split
      all_goals simp [setStaging, setChunks, setLru]

theorem Disk.fail_tape (root n : Nat) (o : FileOp H) (d : Disk H) :
    ((fail root n o d).2.dirs root).blocks = (d.dirs root).blocks ∧
      ((fail root n o d).2.dirs root).runtime = (d.dirs root).runtime := by
  cases o <;> simp only [fail, dirs_setContent, and_self]
  split <;> simp [setStaging]

structure Setting where
  uuid : Bytes
  worm : Bool
  capacityGb : Nat
  chunking : ChunkingMode
  runtime : Runtime
  blockNext : List Nat
  hasStorageBackend : Bool
  encryption : Option DriveEncryptionState
  compression : DriveCompressionState
  legalHeld : Bool
  atRestDek : Option Bytes
  isViewHandle : Bool

namespace Cartridge

def setting (c : Cartridge H) : Setting :=
  ⟨c.uuid, c.worm, c.capacityGb, c.chunking, c.runtime, c.blockNext, c.hasStorageBackend, c.encryption, c.compression,
    c.legalHeld, c.atRestDek, c.isViewHandle⟩

def place (c : Cartridge H) : Nat × Setting := (c.headLba, c.setting)

abbrev Placed {α : Type} (m : CartM H α) : Prop := m.Only FileOp.OffTape place

open Proc

section Files

variable {ν : Type} {ok : FileOp H → Prop} {view : Cartridge H → ν} {o : FileOp H}

theorem only_fileOr (e : SmcError) (h : ok o) : (fileOr e o).Only ok view := .seq (only_op h) <| only_ofExcept _

theorem only_file (h : ok o) : (file o).Only ok view := only_fileOr _ h

theorem only_fileIgnored (h : ok o) : (fileIgnored o).Only ok view := .seq (only_op h) <| only_pure _

end Files

variable [DecidableEq H] {α ν : Type} {m : CartM H α} {view : Cartridge H → ν}

/-- **A procedure off the block indexes leaves them alone**, whatever fails on the way. -/
theorem safe_offBlocks (hm : m.Only FileOp.OffBlocks view) (cr : TapeCrates H) (root : Nat) (c : Cartridge H) (d : Disk H) :
    m.Safe (Disk.MayFail cr root) (fun d' => (d'.dirs root).blocks = (d.dirs root).blocks) c d (fun _ c' d' =>
      view c' = view c ∧ (d'.dirs root).blocks = (d.dirs root).blocks) := by
  refine hm.safe (fun o s r s' ho hi hmay => ?_) rfl
  obtain hs | ⟨n, hs⟩ := hmay
  · have := Disk.perform_offBlocks cr root ho s
    rw [← hs] at this
    exact this.trans hi
  · have := (Disk.fail_tape root n o s).1
    rw [← hs] at this
    exact this.trans hi

/-- **A procedure off the tape leaves it alone**, on disk and in memory. -/
theorem safe_offTape (hm : m.Only FileOp.OffTape view) (cr : TapeCrates H) (root : Nat) (c : Cartridge H) (d : Disk H) :
    m.Safe (Disk.MayFail cr root) (fun _ => True) c d (fun _ c' d' => view c' = view c ∧
      (d'.dirs root).blocks = (d.dirs root).blocks ∧ (d'.dirs root).runtime = (d.dirs root).runtime) := by
  have hblocks := safe_offBlocks (hm.mono (fun _ => FileOp.OffTape.offBlocks) (fun _ _ => id)) cr root c d
  have hruntime : m.Safe (Disk.MayFail cr root) (fun d' => (d'.dirs root).runtime = (d.dirs root).runtime) c d _ :=
    hm.safe (fun o s r s' ho hi hmay => ?_) rfl
  · exact Prog.Safe.mono (hblocks.and hruntime) (fun _ _ => trivial) fun _ _ h => ⟨h.1.1, h.1.2, h.2.2⟩
  obtain hs | ⟨n, hs⟩ := hmay
  · have := Disk.perform_offTape cr root ho s
    rw [← hs] at this
    exact this.trans hi
  · have := (Disk.fail_tape root n o s).2
    rw [← hs] at this
    exact this.trans hi

omit [DecidableEq H]

/-! ## Index records -/

theorem only_checkSize (rec : ChunkRec H) : Placed (checkSize rec) := only_failIf _ _

theorem only_chunkAppend (rec : ChunkRec H) : Placed (chunkAppend rec) :=
  .seq (only_checkSize rec) <| .seq only_get <| .seq (only_file rfl) <| only_modify fun _ => rfl

theorem only_chunkOverwrite (id : Nat) (rec : ChunkRec H) : Placed (chunkOverwrite id rec) :=
  .seq only_get <| .seq (only_failIf _ _) <| .seq (only_checkSize rec) <| only_file rfl

theorem only_chunkTruncateTo (n : Nat) : Placed (chunkTruncateTo n : CartM H Unit) :=
  .seq (only_file rfl) <| only_modify fun _ => rfl

theorem only_lruAppend : Placed (lruAppend : CartM H Unit) :=
  .seq only_get <| .seq (only_file rfl) <| only_modify fun _ => rfl

theorem only_lruTouch (id : Nat) : Placed (lruTouch id : CartM H Unit) :=
  .seq only_get <| .seq (only_failIf _ _) <| only_file rfl

theorem only_lruTruncateTo (n : Nat) : Placed (lruTruncateTo n : CartM H Unit) :=
  .seq (only_file rfl) <| only_modify fun _ => rfl

theorem only_blockAt (p lba : Nat) : Placed (blockAt p lba : CartM H BlockRec) :=
  .seq only_get <| .seq (only_failIf _ _) <| only_file rfl

/-! ## Chunks -/

theorem only_newChunk (id : Nat) : Placed (newChunk id : CartM H (ChunkRec H)) :=
  .seq (only_file rfl) <| only_pure _

theorem only_insertFromPath (id : Nat) (h : H) : Placed (insertFromPath id h) := by
  refine .bind (only_file rfl) fun found => .ite (only_file rfl) (.bind (only_op rfl) fun r => ?_)
  cases r with
  | ok _ => exact only_pure _
  | error e =>
    cases e with
    | crossesDevices => exact .seq (only_file rfl) <| only_file rfl
    | _ => exact only_throw _

section

variable (cr : TapeCrates H)

theorem only_stagedHash : Placed (stagedHash cr) := by
  refine .bind only_get fun c => ?_
  split
  · exact .bind only_get fun c => .bind (only_file rfl) fun pt => .bind (only_fileOr _ rfl) fun ct =>
      .seq (only_modify fun _ => rfl) <| .seq (only_file rfl) <| .seq (only_file rfl) <| only_pure _
  · exact .seq (only_modify fun _ => rfl) <| only_pure _

theorem only_sealCurrentChunk (force : Bool) :
    Placed (sealCurrentChunk cr force) := by
  refine .bind only_get fun c => .ite (only_pure _) (Only.ite ?_ ?_)
  · exact .seq (only_fileIgnored rfl) <| .seq (only_modify fun _ => rfl) <| only_pure _
  · refine .seq (.onlyIf (only_fileOr _ rfl)) <| .seq (.onlyIf (only_file rfl)) <| .bind (only_stagedHash cr) fun hash => ?_
    exact .seq (only_file rfl) <| .seq (only_insertFromPath _ hash) <| .seq (only_modify fun _ => rfl) <|
      .bind only_get fun c => .seq (only_chunkOverwrite _ _) <| only_pure _

theorem only_startNextChunk : Placed (startNextChunk : CartM H Nat) :=
  .seq (only_modify fun _ => rfl) <| .seq only_get <| .bind (only_newChunk _) fun newc =>
    .seq (only_chunkAppend newc) <| .seq only_lruAppend <| .seq (only_modify fun _ => rfl) <| only_pure _

theorem only_restartChunk : Placed (restartChunk : CartM H Nat) :=
  .seq only_get <| .bind (only_newChunk _) fun newc => .seq (only_chunkOverwrite _ newc) <|
    .seq (only_lruTouch _) <| .seq (only_modify fun _ => rfl) <| only_pure _

theorem only_openCurFile (id : Nat) : Placed (openCurFile id : CartM H Unit) :=
  .seq (only_file rfl) <| .seq (only_file rfl) <| .seq (only_file rfl) <| only_modify fun _ => rfl

theorem only_sealAndStartNewChunk : Placed (sealAndStartNewChunk cr) :=
  .seq (only_sealCurrentChunk cr false) <| .seq (only_modify fun _ => rfl) <|
    .ite (.bind only_startNextChunk only_openCurFile) (.bind only_restartChunk only_openCurFile)

theorem only_rollChunkIfNeeded (n : Nat) : Placed (rollChunkIfNeeded cr n) :=
  .seq only_get <| .ite (only_pure _) (only_sealAndStartNewChunk cr)

theorem only_maybeCdcSealAfterWrite (written : Bytes) :
    Placed (maybeCdcSealAfterWrite cr written) := by
  refine .bind only_get fun c => ?_
  split
  · exact only_pure _
  · exact .seq (only_modify fun _ => rfl) <| .ite (only_sealAndStartNewChunk cr) (only_pure _)

theorem only_syncBlocks : ∀ n : Nat, Placed (syncBlocks n : CartM H Unit)
  | 0 => only_pure _
  | n + 1 => .seq (only_syncBlocks n) <| only_file rfl

theorem only_syncIndexes : Placed (syncIndexes : CartM H Unit) :=
  .seq only_get <| .seq (only_syncBlocks _) <| .seq (only_file rfl) <| only_file rfl

theorem only_flushAndSeal : Placed (flushAndSeal cr) :=
  .seq only_get <| .ite (only_pure _) (Only.ite
    (.seq (only_file rfl) <| Only.onlyIf (.seq (only_fileIgnored rfl) <| .seq (only_chunkTruncateTo _) <|
      .seq (only_lruTruncateTo _) <| only_syncIndexes))
    (.seq (only_sealCurrentChunk cr true) <| only_syncIndexes))

/-! ## Around a write -/

theorem only_requireWritable (b : Bool) : Placed (requireWritable b : CartM H Unit) :=
  .seq only_get <| .ite (only_throw _) (.ite (only_throw _) (only_pure _))

theorem only_compressOnWrite (bytes : Bytes) : Placed (compressOnWrite bytes : CartM H _) :=
  .seq only_get <| .ite (.seq (only_fileOr _ rfl) <| only_pure _) (only_pure _)

theorem only_encryptOnWrite (bytes : Bytes) : Placed (encryptOnWrite cr bytes) := by
  refine .bind only_get fun c => ?_
  split
  · exact .ite (.seq (only_fileOr _ rfl) <| only_pure _) (only_pure _)
  · exact only_pure _

theorem only_appendBytes (written : Bytes) : Placed (appendBytes written : CartM H Unit) :=
  .seq only_get <| .seq (only_file rfl) <| only_modify fun _ => rfl

/-- **Staging a block leaves the tape alone.** -/
theorem only_stageBlock (bytes : Bytes) : Placed (stageBlock cr bytes) :=
  .seq (only_compressOnWrite bytes) <| .seq (only_rollChunkIfNeeded cr _) <| .seq only_get <|
    .seq (only_encryptOnWrite cr _) <| .seq (only_appendBytes _) <| .seq (only_ofExcept _) <|
      only_pure _

theorem only_raiseEarlyWarning : Placed (raiseEarlyWarning : CartM H Unit) :=
  .seq only_get <| .ite (.seq (only_modify fun _ => rfl) <| only_throw _) (only_pure _)

theorem only_afterWrite (written : Bytes) : Placed (afterWrite cr written) :=
  .seq only_get <| .seq (only_lruTouch _) <| .seq (.onlyIf (only_modify fun _ => rfl)) <|
    .seq (only_maybeCdcSealAfterWrite cr written) <| only_raiseEarlyWarning

theorem only_syncFilemarks : Placed (syncFilemarks : CartM H Unit) :=
  .seq only_get <| .seq (only_file rfl) <| only_file rfl

theorem only_persistRuntime : (persistRuntime : CartM H Unit).Only FileOp.OffBlocks place :=
  .seq only_get <| .ite (only_pure _)
    (.seq ((only_chunkOverwrite _ _).mono (fun _ => FileOp.OffTape.offBlocks) fun _ _ => id) <| only_file rfl)

/-! ## Opening -/

theorem only_lruGrowTo (n : Nat) : Placed (lruGrowTo n : CartM H Unit) :=
  .seq only_get <| .ite (only_pure _) (only_lruTruncateTo n)

theorem only_recoveredInPartition (p id : Nat) : ∀ lba maxEnd : Nat,
    Placed (recoveredInPartition p id lba maxEnd : CartM H Nat)
  | 0, _ => only_pure _
  | lba + 1, _ => .seq (only_file rfl) <| .ite (only_pure _) (only_recoveredInPartition p id lba _)

theorem only_recoveredChunkSize (id : Nat) : ∀ n : Nat, Placed (recoveredChunkSize id n : CartM H Nat)
  | 0 => only_pure _
  | n + 1 => .seq (only_recoveredChunkSize id n) <| .seq (only_file rfl) <| only_recoveredInPartition n id _ _

theorem only_truncateStaging (id size : Nat) : Placed (truncateStaging id size : CartM H Unit) :=
  .seq (only_op rfl) <| .onlyIf (only_file rfl)

theorem only_chunkRead (id : Nat) : Placed (chunkRead id : CartM H _) :=
  .seq only_get <| .seq (only_failIf _ _) <| only_file rfl

theorem only_resumeOrCreateActive (viewOnly : Bool) : Placed (resumeOrCreateActive viewOnly : CartM H Unit) :=
  .seq only_get <| .seq (only_chunkRead _) <| .ite
    (.seq (only_recoveredChunkSize _ _) <| .seq (.onlyIf (only_truncateStaging _ _)) <|
      .seq (only_file rfl) <| .seq (.onlyIf (only_chunkOverwrite _ _)) <| only_modify fun _ => rfl)
    (.seq (only_newChunk _) <| .seq (only_chunkAppend _) <| .seq only_lruAppend <|
      .seq (only_file rfl) <| only_modify fun _ => rfl)

theorem only_buildChunkingState : Placed (buildChunkingState : CartM H Unit) := by
  refine .bind only_get fun c => ?_
  cases c.chunking with
  | fixed => exact only_modify fun _ => rfl
  | fastCdc =>
    refine .ite (.bind (only_op rfl) fun r => ?_) (only_modify fun _ => rfl)
    cases r <;> exact only_modify fun _ => rfl

theorem only_buildCurChunkHasher : Placed (buildCurChunkHasher : CartM H Unit) :=
  .seq only_get <| .ite (.seq (only_file rfl) <| only_modify fun _ => rfl) (only_modify fun _ => rfl)

theorem only_openActive (viewOnly : Bool) : Placed (openActive viewOnly : CartM H Unit) :=
  .seq (only_resumeOrCreateActive viewOnly) <| .seq only_get <| .seq (only_lruGrowTo _) <|
    .seq only_buildChunkingState <| only_buildCurChunkHasher

theorem only_openBlockIndexes : ∀ n : Nat, Placed (openBlockIndexes n : CartM H _)
  | 0 => only_pure _
  | n + 1 => .seq (only_openBlockIndexes n) <| .seq (only_file rfl) <| only_pure _

/-! ## Reading and positioning -/

theorem only_readChunkRecForBlock (id : Nat) : Placed (readChunkRecForBlock id : CartM H _) :=
  .seq only_get <| .ite (only_pure _) (.ite (only_throw _) (only_file rfl))

theorem only_decryptedChunk (dek : Bytes) (id : Nat) (h : H) :
    Placed (decryptedChunk cr dek id h) := by
  have hfetch : Placed (decryptedChunk.fetch cr dek id h) := by
    refine .bind only_get fun c => .bind (only_file rfl) fun ct => ?_
    split
    · exact .seq (only_modify fun _ => rfl) <| only_pure _
    · exact only_throw _
  refine .bind only_get fun c => ?_
  split
  · exact .ite (only_pure _) hfetch
  · exact hfetch

theorem only_readChunkSlice (id : Nat) (chunk : ChunkRec H) (off len : Nat) :
    Placed (readChunkSlice cr id chunk off len) := by
  refine .bind only_get fun c => ?_
  cases chunk.hash with
  | none => cases c.atRestDek <;> exact only_file rfl
  | some h =>
    cases c.atRestDek with
    | none => exact only_file rfl
    | some dek => exact .seq (only_decryptedChunk cr dek id h) <| .ite (only_throw _) (only_pure _)

theorem only_maybeDecrypt (rec : BlockRec) (buf : Bytes) :
    Placed (maybeDecrypt cr rec buf) := by
  refine .bind only_get fun c => .ite (only_pure _) ?_
  split
  · exact only_throw _
  · refine .ite (only_throw _) ?_
    split
    · exact only_pure _
    · exact only_throw _

theorem only_readBlock (lba : Nat) : Placed (readBlock cr lba) := by
  refine .bind only_get fun c => .bind (only_blockAt _ _) fun rec => ?_
  split
  · exact only_pure _
  · exact .seq (only_readChunkRecForBlock _) <| .seq (only_lruTouch _) <| .seq (only_readChunkSlice cr _ _ _ _) <|
      .seq (only_maybeDecrypt cr rec _) <| .seq (only_ofExcept _) <| only_pure _

theorem setting_of_place {c c' : Cartridge H} (h : c.place = c'.place) : c.setting = c'.setting := congrArg Prod.snd h

theorem only_setting {m : CartM H α} (h : Placed m) : m.Only FileOp.OffTape setting :=
  h.mono (fun _ => id) fun _ _ => setting_of_place

theorem only_readNext : (readNext cr).Only FileOp.OffTape setting :=
  .seq only_get <| .seq (only_failIf _ _) <| .seq (only_setting (only_readBlock cr _)) <|
    .seq (only_modify fun _ => rfl) <| only_pure _

end

theorem only_spaceForward : ∀ n moved : Nat, (spaceForward n moved : CartM H _).Only FileOp.OffTape setting
  | 0, _ => only_pure _
  | n + 1, moved => by
    refine .bind only_get fun c => .ite (only_pure _) (.bind (only_setting (only_blockAt _ _)) fun rec =>
      .bind (only_modify fun _ => rfl) fun _ => ?_)
    split
    · exact only_pure _
    · exact only_spaceForward n (moved + 1)

theorem only_spaceBackward : ∀ n moved : Nat, (spaceBackward n moved : CartM H _).Only FileOp.OffTape setting
  | 0, _ => only_pure _
  | n + 1, moved => by
    refine .bind only_get fun c => .ite (only_pure _) (.bind (only_setting (only_blockAt _ _)) fun rec =>
      .bind (only_modify fun _ => rfl) fun _ => ?_)
    split
    · exact only_pure _
    · exact only_spaceBackward n (moved + 1)

theorem only_spaceRecords (delta : Int) : (spaceRecords delta : CartM H _).Only FileOp.OffTape setting :=
  .ite (only_spaceForward _ _) (only_spaceBackward _ _)

theorem only_filemarksForward (p n : Nat) : ∀ k lba moved : Nat,
    Placed (filemarksForward p n k lba moved : CartM H _)
  | 0, _, _ => only_pure _
  | k + 1, lba, moved => by
    refine .bind (only_blockAt p lba) fun rec => ?_
    split
    · exact only_filemarksForward p n k (lba + 1) moved
    · exact .ite (only_pure _) (only_filemarksForward p n k (lba + 1) (moved + 1))

theorem only_filemarksBackward (p n : Nat) : ∀ k moved last : Nat,
    Placed (filemarksBackward p n k moved last : CartM H _)
  | 0, _, _ => only_pure _
  | k + 1, moved, last => by
    refine .bind (only_blockAt p k) fun rec => ?_
    split
    · exact only_filemarksBackward p n k moved last
    · exact .ite (only_pure _) (only_filemarksBackward p n k (moved + 1) k)

theorem only_spaceFilemarks (n : Int) : (spaceFilemarks n : CartM H _).Only FileOp.OffTape setting :=
  .seq only_get <| .ite (only_pure _) (Only.ite
    (.seq (only_setting (only_filemarksForward _ _ _ _ _)) <| .seq (only_modify fun _ => rfl) <| only_pure _)
    (.seq (only_setting (only_filemarksBackward _ _ _ _ _)) <| .seq (only_modify fun _ => rfl) <| only_pure _))

theorem only_rewind : (rewind : CartM H Unit).Only FileOp.OffTape setting := only_modify fun _ => rfl

theorem only_spaceToEod : (spaceToEod : CartM H Unit).Only FileOp.OffTape setting := only_modify fun _ => rfl

theorem only_locate (lba : Nat) : (locate lba : CartM H Unit).Only FileOp.OffTape setting :=
  .seq only_get <| .ite (only_throw _) (only_modify fun _ => rfl)

end Cartridge

end Thur.Stream

import Thur.Stream.Session
/-!
# Hold — cartridges under a legal hold

One gate stands in front of every operation that can change a block index. Under a legal hold it refuses them all, and
no operation sets or clears the flag.
-/
namespace Thur.Stream
namespace Cartridge

open Proc List

variable {H : Type} {c : Cartridge H}

/-! ## The gate -/

theorem requireWritable_of_held (h : c.legalHeld = true) (b : Bool) :
    (requireWritable b : CartM H Unit).Refuses c .legalHoldViolation := by
  show (if c.legalHeld then throw .legalHoldViolation else _ : CartM H Unit) c = _
  rw [if_pos h]
  rfl

theorem refuses_destructive {e : SmcError} (h : (requireWritable false : CartM H Unit).Refuses c e) :
    (erase : CartM H Unit).Refuses c e ∧ (∀ n, (setCapacityProportion n : CartM H Unit).Refuses c e) ∧
      (∀ f, (applyFormatMedium f : CartM H Unit).Refuses c e) ∧
      ∀ p lba, (setAllowOverwrite p lba : CartM H Unit).Refuses c e :=
  ⟨h.bind _, fun _ => (h.bind _).bind _, fun _ => h.bind _, fun _ _ => h.bind _⟩

/-! ## Under a legal hold -/

/-- **Under a legal hold writes, erases and formats are refused** before they touch anything. -/
theorem refuses_gated (cr : TapeCrates H) (h : c.legalHeld = true) {o : TapeOp} (ho : o.gated = true) :
    (o.proc cr).Refuses c .legalHoldViolation := by
  obtain ⟨herase, hcapacity, hformat, hallow⟩ := refuses_destructive (requireWritable_of_held h false)
  have hroom (full : Cartridge H → Bool) : (requireRoom full).Refuses c .legalHoldViolation :=
    (requireWritable_of_held h true).bind _
  cases o with
  | writeData => exact (((hroom _).bind _).bind _).bind _
  | writeFilemark => exact ((hroom _).bind _).bind _
  | writeFilemarks count =>
    have h0 : count ≠ 0 := by simpa [TapeOp.gated] using ho
    refine Refuses.bind ?_ _
    show (if count = 0 then _ else _ : CartM H Nat) c = _
    rw [if_neg h0]
    exact (hroom _).bind _
  | erase => exact herase.bind _
  | setCapacityProportion n => exact (hcapacity n).bind _
  | applyFormatMedium f => exact (hformat f).bind _
  | setAllowOverwrite p lba => exact (hallow p lba).bind _
  | _ => cases ho

/-! ## The flag of a legal hold -/

def KeepsHold {α : Type} (m : CartM H α) : Prop := m.Only (fun _ => True) legalHeld

section Flag

variable {α : Type} {m : CartM H α} {ok : FileOp H → Prop}

theorem keepsHold_of_setting (h : m.Only ok setting) : KeepsHold m :=
  h.mono (fun _ _ => trivial) fun _ _ hs => congrArg Setting.legalHeld hs

theorem keepsHold_of_place (h : m.Only ok place) : KeepsHold m :=
  keepsHold_of_setting (h.mono (fun _ => id) (fun _ _ => setting_of_place))

theorem KeepsHold.answer {β : Type} (h : KeepsHold m) (f : α → β) : KeepsHold (m >>= fun a => pure (f a)) :=
  .bind h fun _ => only_pure _

theorem keepsHold_file (o : FileOp H) : KeepsHold (file o) := only_file trivial

end Flag

theorem keepsHold_blockTruncateTo (p n : Nat) : KeepsHold (blockTruncateTo p n : CartM H Unit) :=
  .seq (keepsHold_file _) <| only_modify fun _ => rfl

theorem keepsHold_requireRoom (full : Cartridge H → Bool) : KeepsHold (requireRoom full) :=
  .seq (keepsHold_of_place (only_requireWritable true)) <| .seq only_get <| .seq (only_failIf _ _) <|
    .seq only_get <| .ite (only_pure _) (.ite (only_pure _) (keepsHold_blockTruncateTo _ _))

theorem keepsHold_blockAppend (p : Nat) (rec : BlockRec) : KeepsHold (blockAppend p rec : CartM H Nat) :=
  .seq only_get <| .seq (keepsHold_file _) <| .seq (only_modify fun _ => rfl) <| only_pure _

theorem keepsHold_recordBlock (rec : BlockRec) : KeepsHold (recordBlock rec : CartM H Nat) :=
  .seq only_get <| .ite
    (.seq (.seq only_get <| .seq (only_failIf _ _) <| keepsHold_file _) <|
      .seq (only_modify fun _ => rfl) <| only_pure _)
    (.seq (keepsHold_blockAppend _ _) <| .seq (only_modify fun _ => rfl) <| only_pure _)

theorem keepsHold_writeData (cr : TapeCrates H) (bytes : Bytes) : KeepsHold (writeData cr bytes) :=
  .seq (.seq (keepsHold_requireRoom _) <| .seq (keepsHold_of_place (only_stageBlock cr bytes)) <|
    .seq (keepsHold_recordBlock _) <| only_pure _) <|
      .seq (keepsHold_of_place (only_afterWrite cr _)) <| only_pure _

theorem keepsHold_appendFilemark : KeepsHold (appendFilemark : CartM H Nat) :=
  .seq only_get <| .seq (only_ofExcept _) <| .seq (keepsHold_blockAppend _ _) <|
    .seq (only_modify fun _ => rfl) <| only_pure _

theorem keepsHold_appendFilemarks : ∀ n last : Nat, KeepsHold (appendFilemarks n last : CartM H Nat)
  | 0, _ => only_pure _
  | n + 1, _ => .bind keepsHold_appendFilemark fun lba => keepsHold_appendFilemarks n lba

theorem keepsHold_syncFilemarks : KeepsHold (syncFilemarks : CartM H Unit) := keepsHold_of_place only_syncFilemarks

theorem keepsHold_raiseEarlyWarning : KeepsHold (raiseEarlyWarning : CartM H Unit) := keepsHold_of_place only_raiseEarlyWarning

theorem keepsHold_writeFilemark : KeepsHold (writeFilemark : CartM H Nat) :=
  .seq (keepsHold_requireRoom _) <| .seq keepsHold_appendFilemark <| .seq keepsHold_syncFilemarks <|
    .seq keepsHold_raiseEarlyWarning <| only_pure _

theorem keepsHold_writeFilemarks (count : Nat) : KeepsHold (writeFilemarks count : CartM H Nat) :=
  .seq only_get <| .ite (.seq keepsHold_syncFilemarks <| only_pure _)
    (.seq (keepsHold_requireRoom _) <| .seq (keepsHold_appendFilemarks count _) <|
      .seq keepsHold_syncFilemarks <| .seq keepsHold_raiseEarlyWarning <| only_pure _)

theorem keepsHold_persistRuntime : KeepsHold (persistRuntime : CartM H Unit) := keepsHold_of_place only_persistRuntime

theorem keepsHold_locatePartition (p lba : Nat) : KeepsHold (locatePartition p lba : CartM H Unit) :=
  .seq only_get <| .ite (only_throw _) (.ite (only_throw _) (.seq (only_modify fun _ => rfl) <|
    .onlyIf keepsHold_persistRuntime))

theorem keepsHold_setPendingPartitionLayout (layout : PendingPartitionLayout) :
    KeepsHold (setPendingPartitionLayout layout : CartM H Unit) :=
  .ite (only_throw _) (.seq (only_modify fun _ => rfl) <| keepsHold_persistRuntime)

theorem keepsHold_truncateBlocks : ∀ n p : Nat, KeepsHold (truncateBlocks n p : CartM H Unit)
  | 0, _ => only_pure _
  | n + 1, p => .seq (keepsHold_blockTruncateTo p 0) <| keepsHold_truncateBlocks n (p + 1)

theorem keepsHold_requireWritable (b : Bool) : KeepsHold (requireWritable b : CartM H Unit) :=
  keepsHold_of_place (only_requireWritable b)

theorem keepsHold_erase : KeepsHold (erase : CartM H Unit) :=
  .seq (keepsHold_requireWritable false) <| .seq (only_modify fun _ => rfl) <| .seq only_get <|
    .seq (keepsHold_truncateBlocks _ _) <| .seq (only_modify fun _ => rfl) <| keepsHold_persistRuntime

theorem keepsHold_setCapacityProportion (n : Nat) : KeepsHold (setCapacityProportion n : CartM H Unit) :=
  .seq keepsHold_erase <| .seq (only_modify fun _ => rfl) <| keepsHold_persistRuntime

theorem keepsHold_unlinkBlocks : ∀ n : Nat, KeepsHold (unlinkBlocks n : CartM H Unit)
  | 0 => only_pure _
  | n + 1 => .seq (keepsHold_unlinkBlocks n) <| only_fileIgnored trivial

theorem keepsHold_finishFormat : KeepsHold (finishFormat : CartM H Unit) :=
  .seq (only_modify fun _ => rfl) <| keepsHold_persistRuntime

theorem keepsHold_applyFormatMedium (f : Nat) : KeepsHold (applyFormatMedium f : CartM H Unit) := by
  refine .bind (keepsHold_requireWritable false) fun _ => ?_
  split
  · exact keepsHold_erase
  · exact .seq (only_modify fun _ => rfl) <| keepsHold_finishFormat
  · refine .bind only_get fun c => ?_
    split
    · exact only_throw _
    · exact .ite (only_throw _) (.seq (only_modify fun _ => rfl) <| .seq (keepsHold_unlinkBlocks _) <|
        .seq (keepsHold_of_place (only_openBlockIndexes _)) <| .seq (only_modify fun _ => rfl) <|
          keepsHold_finishFormat)
  · exact only_throw _

theorem keepsHold_setAllowOverwrite (p lba : Nat) : KeepsHold (setAllowOverwrite p lba : CartM H Unit) :=
  .seq (keepsHold_requireWritable false) <| .seq only_get <| .ite (only_throw _) (only_modify fun _ => rfl)

/-- **No operation of a loaded cartridge sets or clears its legal hold.** -/
theorem keepsHold_proc (cr : TapeCrates H) (o : TapeOp) : KeepsHold (o.proc cr) := by
  cases o with
  | writeData bytes => exact (keepsHold_writeData cr bytes).answer _
  | writeFilemark => exact keepsHold_writeFilemark.answer _
  | writeFilemarks count => exact (keepsHold_writeFilemarks count).answer _
  | readNext => exact (keepsHold_of_setting (only_readNext cr)).answer _
  | rewind => exact (keepsHold_of_setting only_rewind).answer _
  | locate lba => exact (keepsHold_of_setting (only_locate lba)).answer _
  | locatePartition p lba => exact (keepsHold_locatePartition p lba).answer _
  | spaceRecords delta => exact (keepsHold_of_setting (only_spaceRecords delta)).answer _
  | spaceFilemarks n => exact (keepsHold_of_setting (only_spaceFilemarks n)).answer _
  | spaceToEod => exact (keepsHold_of_setting only_spaceToEod).answer _
  | erase => exact keepsHold_erase.answer _
  | setCapacityProportion n => exact (keepsHold_setCapacityProportion n).answer _
  | setPendingPartitionLayout layout => exact (keepsHold_setPendingPartitionLayout layout).answer _
  | applyFormatMedium f => exact (keepsHold_applyFormatMedium f).answer _
  | setAllowOverwrite p lba => exact (keepsHold_setAllowOverwrite p lba).answer _
  | flushAndSeal => exact (keepsHold_of_place (only_flushAndSeal cr)).answer _
  | setEncryptionState | setCompressionState => exact .seq (only_modify fun _ => rfl) <| only_pure _

theorem keepsHold_openFiles (viewOnly : Bool) : KeepsHold (openFiles viewOnly : CartM H Unit) :=
  .seq (keepsHold_file _) <| .seq (only_failIf _ _) <| .seq (keepsHold_file _) <|
    .seq (keepsHold_file _) <| .seq (only_modify fun _ => rfl) <| .seq (only_failIf _ _) <|
      .seq (keepsHold_of_place (only_openActive viewOnly)) <|
        .seq (keepsHold_of_place (only_openBlockIndexes _)) <| .seq only_get <|
          .seq (keepsHold_file _) <| only_modify fun _ => rfl

theorem KeepsHold.runFaulty [DecidableEq H] {α : Type} {m : CartM H α} (h : KeepsHold m) (cr : TapeCrates H) (root : Nat)
    (c : Cartridge H) (d : Disk H) (plan : List (Option Nat)) :
    (runFaulty cr root m c d plan).1.2.legalHeld = c.legalHeld := by
  have hsafe : m.Safe (Disk.MayFail cr root) (fun _ => True) c d _ := Only.safe h (fun _ _ _ _ _ _ _ => trivial) trivial
  exact (safe_runFaulty hsafe plan).1

theorem runFaulty_of_refuses [DecidableEq H] {α : Type} {m : CartM H α} {e : SmcError} (h : m.Refuses c e)
    (cr : TapeCrates H) (root : Nat) (d : Disk H) (plan : List (Option Nat)) :
    runFaulty cr root m c d plan = ((.error e, c), d, plan) := by
  rw [Stream.runFaulty, h]
  rfl

end Cartridge
end Thur.Stream

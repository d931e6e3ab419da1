import Thur.Stream.Footprint
/-!
# Session — the operations of a loaded cartridge, each with its program
-/
namespace Thur.Stream

open Cartridge

inductive TapeOp
  | writeData (bytes : Bytes)
  | writeFilemark
  | writeFilemarks (count : Nat)
  | readNext
  | rewind
  | locate (lba : Nat)
  | locatePartition (p lba : Nat)
  | spaceRecords (delta : Int)
  | spaceFilemarks (n : Int)
  | spaceToEod
  | erase
  | setCapacityProportion (proportion : Nat)
  | setPendingPartitionLayout (layout : PendingPartitionLayout)
  | applyFormatMedium (formatField : Nat)
  | setAllowOverwrite (p lba : Nat)
  | flushAndSeal
  | setEncryptionState (st : Option DriveEncryptionState)
  | setCompressionState (st : DriveCompressionState)

def TapeOp.gated : TapeOp → Bool
  | .writeData _ | .writeFilemark | .erase | .setCapacityProportion _ | .applyFormatMedium _ | .setAllowOverwrite _ _ => true
  | .writeFilemarks count => count != 0
  | _ => false

inductive TapeAnswer
  | unit
  | lba (n : Nat)
  | block (b : Cartridge.Block)
  | spaced (r : Cartridge.SpaceRecordsResult)
  | filemarks (n : Int)
deriving DecidableEq

variable {H : Type}

def TapeOp.proc (cr : TapeCrates H) : TapeOp → CartM H TapeAnswer
  | .writeData bytes => Cartridge.writeData cr bytes >>= fun n => pure (.lba n)
  | .writeFilemark => Cartridge.writeFilemark >>= fun n => pure (.lba n)
  | .writeFilemarks count => Cartridge.writeFilemarks count >>= fun n => pure (.lba n)
  | .readNext => Cartridge.readNext cr >>= fun b => pure (.block b)
  | .rewind => Cartridge.rewind >>= fun _ => pure .unit
  | .locate lba => Cartridge.locate lba >>= fun _ => pure .unit
  | .locatePartition p lba => Cartridge.locatePartition p lba >>= fun _ => pure .unit
  | .spaceRecords delta => Cartridge.spaceRecords delta >>= fun r => pure (.spaced r)
  | .spaceFilemarks n => Cartridge.spaceFilemarks n >>= fun m => pure (.filemarks m)
  | .spaceToEod => Cartridge.spaceToEod >>= fun _ => pure .unit
  | .erase => Cartridge.erase >>= fun _ => pure .unit
  | .setCapacityProportion proportion => Cartridge.setCapacityProportion proportion >>= fun _ => pure .unit
  | .setPendingPartitionLayout layout => Cartridge.setPendingPartitionLayout layout >>= fun _ => pure .unit
  | .applyFormatMedium formatField => Cartridge.applyFormatMedium formatField >>= fun _ => pure .unit
  | .setAllowOverwrite p lba => Cartridge.setAllowOverwrite p lba >>= fun _ => pure .unit
  | .flushAndSeal => Cartridge.flushAndSeal cr >>= fun _ => pure .unit
  | .setEncryptionState st => Cartridge.setEncryptionState st >>= fun _ => pure .unit
  | .setCompressionState st => Cartridge.setCompressionState st >>= fun _ => pure .unit

end Thur.Stream

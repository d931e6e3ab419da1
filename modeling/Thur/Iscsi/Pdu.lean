import Thur.Iscsi.Session
/-!
# Pdu — protocol data units

A received PDU is its basic header segment, by the words the target reads, and its data segment. The same bytes have
several readings: the ISID is the front of the LUN field, the expected transfer length stands where a Data-Out PDU has
its target transfer tag, and its buffer offset lies in the CDB's bytes.
-/
namespace Thur.Iscsi

def maxRecvDataSegmentLength : Nat := 131072

def maxBurstLength : Nat := 16777216

def firstBurstLength : Nat := maxRecvDataSegmentLength

def maxWriteEdtl : UInt32 := 134217728

def defaultPeerMaxRecvDataSegmentLength : Nat := 8192

structure Pdu where
  /-- The low six bits of the first byte. -/
  opcode : UInt8
  immediate : Bool
  /-- The second byte. -/
  flags : UInt8
  /-- Bytes 8 to 15. -/
  lun : Bytes
  itt : UInt32
  /-- Bytes 20 to 23. -/
  ttt : UInt32
  cmdsn : UInt32
  /-- Bytes 32 to 47. -/
  cdb : Bytes
  data : Bytes

namespace Pdu

def finalBit (p : Pdu) : Bool := p.flags &&& 0x80 != 0

def writeBit (p : Pdu) : Bool := p.flags &&& 0x20 != 0

def isid (p : Pdu) : Bytes := p.lun.take 6

def expectedXferLen (p : Pdu) : UInt32 := p.ttt

def bufferOffset (p : Pdu) : Nat := (p.cdb.field 8 4).beNat

def Fits (p : Pdu) : Prop := p.data.length ≤ maxRecvDataSegmentLength
deriving Decidable

def nextExpCmdsn (p : Pdu) : UInt32 := if p.immediate then p.cmdsn else p.cmdsn + 1

end Pdu

def lunUnsupported : UInt64 := 0xFFFFFFFFFFFFFFFF

/-- Single-level addressing: only the second byte counts, and everything else has to be zero. -/
def decodeLun (lun : Bytes) : UInt64 :=
  if lun.byte 0 != 0 || (lun.drop 2).any (· != 0) then lunUnsupported else (lun.byte 1).toUInt64

end Thur.Iscsi

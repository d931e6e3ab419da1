import Thur.Lib.Bytes
/-!
# Records — the records of the tape's index files and their codec

A cartridge keeps one record per block (`blocks-p<N>.idx`, 16 bytes each) and one per chunk (`chunks.idx`, 64 bytes each).
What a record encodes to decodes to it again; a chunk record whose size does not fit four bytes does not encode.
-/
namespace Thur.Stream

open List Bytes

/-- An operating-system error is `io`. -/
inductive SmcError
  | io
  | invalidOp (text : String)
  | indexCorrupt (text : String)
  | chunkPayloadCorrupt
  | compressionError
  | encryptionError
  | dataDecryptionError (text : String)
  | backpressured
  | endOfData
  | endOfMedium
  | earlyWarning
  | wormViolation
  | legalHoldViolation
  | objectStoreError
deriving DecidableEq

inductive CompressionAlgo
  | lz4
  | zstd
  | sldc
deriving DecidableEq

inductive BlockKind
  | data
  | filemark
deriving DecidableEq

inductive EncryptionTag
  | none
  | aes256Gcm
deriving DecidableEq

inductive LocationTag
  | localOnly
  | storageOnly
  | both
deriving DecidableEq

def u32Max : Nat := 4294967295

/-! ## Four bytes, least significant first -/

def u32Le (n : UInt32) : Bytes :=
  [UInt8.ofNat n.toNat, UInt8.ofNat (n.toNat / 256), UInt8.ofNat (n.toNat / 65536), UInt8.ofNat (n.toNat / 16777216)]

def u32FromLe (b : Bytes) : UInt32 := UInt32.ofNat b.leNat

@[simp] theorem length_u32Le (n : UInt32) : (u32Le n).length = 4 := rfl

theorem u32FromLe_u32Le (n : UInt32) : u32FromLe (u32Le n) = n := by
  have hn : n.toNat < 4294967296 := n.toNat_lt
  have hsum : leNat (u32Le n) = n.toNat := by
    simp only [u32Le, leNat, UInt8.toNat_ofNat']
    omega
  rw [u32FromLe, hsum, UInt32.ofNat_toNat]

/-! ## The compression sub-field -/

def compressionTag : Option CompressionAlgo → UInt8
  | .none => 0
  | some .lz4 => 1
  | some .zstd => 2
  | some .sldc => 3

def packCompression (algo : Option CompressionAlgo) : UInt8 := (compressionTag algo <<< 4) &&& 0b01110000

def unpackCompression (flags : UInt8) : Option (Option CompressionAlgo) :=
  if (flags &&& 0b01110000) >>> 4 = 0 then some none
  else if (flags &&& 0b01110000) >>> 4 = 1 then some (some .lz4)
  else if (flags &&& 0b01110000) >>> 4 = 2 then some (some .zstd)
  else if (flags &&& 0b01110000) >>> 4 = 3 then some (some .sldc)
  else none

/-! ## Block records -/

/-- `len` counts the bytes on disk; it is 0 for a filemark. -/
structure BlockRec where
  chunkId : UInt32
  offset : UInt32
  len : UInt32
  kind : BlockKind
  encryption : EncryptionTag
  compression : Option CompressionAlgo

namespace BlockRec

def encrypted (r : BlockRec) : Bool := r.encryption != .none

def encTag : EncryptionTag → UInt8
  | .none => 0
  | .aes256Gcm => 1

def packFlags (kind : BlockKind) (enc : EncryptionTag) (comp : Option CompressionAlgo) : UInt8 :=
  (if kind = .filemark then (1 : UInt8) else 0) ||| ((encTag enc <<< 1) &&& 0b00001110) ||| packCompression comp

def unpackFlags (f : UInt8) : Except SmcError (BlockKind × EncryptionTag × Option CompressionAlgo) :=
  let kind := if f &&& 1 ≠ 0 then BlockKind.filemark else .data
  let encBits := (f &&& 0b00001110) >>> 1
  if encBits = 0 ∨ encBits = 1 then
    match unpackCompression f with
    | some comp => .ok (kind, if encBits = 0 then .none else .aes256Gcm, comp)
    | none => .error (.indexCorrupt "block index record has unknown compression tag")
  else .error (.indexCorrupt "block index record has unknown encryption tag")

def recordSize : Nat := 16

def encode (r : BlockRec) : Bytes :=
  u32Le r.chunkId ++ (u32Le r.offset ++ (u32Le r.len ++ [packFlags r.kind r.encryption r.compression, 0, 0, 0]))

def decode (buf : Bytes) : Except SmcError BlockRec :=
  match unpackFlags (buf.byte 12) with
  | .ok (kind, encryption, compression) =>
    .ok ⟨u32FromLe (buf.field 0 4), u32FromLe (buf.field 4 4), u32FromLe (buf.field 8 4), kind, encryption, compression⟩
  | .error e => .error e

@[simp] theorem length_encode (r : BlockRec) : r.encode.length = recordSize := rfl

theorem unpackFlags_packFlags (kind : BlockKind) (enc : EncryptionTag) (comp : Option CompressionAlgo) :
    unpackFlags (packFlags kind enc comp) = .ok (kind, enc, comp) := by
  cases kind <;> cases enc <;> rcases comp with _ | (_ | _ | _) <;> decide

theorem decode_encode (r : BlockRec) : decode r.encode = .ok r := by
  have hflags : r.encode.byte 12 = packFlags r.kind r.encryption r.compression := rfl
  have h0 : r.encode.field 0 4 = u32Le r.chunkId := rfl
  have h1 : r.encode.field 4 4 = u32Le r.offset := rfl
  have h2 : r.encode.field 8 4 = u32Le r.len := rfl
  simp only [decode, hflags, unpackFlags_packFlags, h0, h1, h2, u32FromLe_u32Le]

end BlockRec

/-! ## Chunk records -/

/-- An unsealed chunk has no hash. `size` counts the plaintext bytes. -/
structure ChunkRec (H : Type) where
  size : Nat
  hash : Option H
  location : LocationTag
  uploaded : Bool
  compression : Option CompressionAlgo
deriving DecidableEq

def Digest : Type := { b : Bytes // b.length = 32 }

namespace ChunkRec

def staging {H : Type} : ChunkRec H := ⟨0, none, .localOnly, false, none⟩

def locTag : LocationTag → UInt8
  | .localOnly => 0
  | .storageOnly => 1
  | .both => 2

def packFlags (hashPresent uploaded : Bool) (location : LocationTag) (comp : Option CompressionAlgo) : UInt8 :=
  (if hashPresent then (1 : UInt8) else 0) ||| (if uploaded then (2 : UInt8) else 0) |||
    ((locTag location <<< 2) &&& 0b00001100) |||
    packCompression comp

def unpackFlags (f : UInt8) : Except SmcError (Bool × Bool × LocationTag × Option CompressionAlgo) :=
  let locBits := (f &&& 0b00001100) >>> 2
  let tag := if locBits = 0 then some LocationTag.localOnly else if locBits = 1 then some .storageOnly
    else if locBits = 2 then some .both else none
  match tag with
  | some location =>
    match unpackCompression f with
    | some comp => .ok (decide (f &&& 1 ≠ 0), decide (f &&& 2 ≠ 0), location, comp)
    | none => .error (.indexCorrupt "chunk index record has unknown compression tag")
  | none => .error (.indexCorrupt "chunk index record has unknown location tag")

def recordSize : Nat := 64

def hashBytes (h : Option Digest) : Bytes :=
  match h with
  | some d => d.1
  | none => replicate 32 0

def encode (r : ChunkRec Digest) : Except SmcError Bytes :=
  if r.size > u32Max then .error (.invalidOp "chunk index encode: size exceeds u32::MAX (chunk too large)")
  else .ok (u32Le (UInt32.ofNat r.size) ++
    (hashBytes r.hash ++ packFlags r.hash.isSome r.uploaded r.location r.compression :: replicate 27 0))

def decode (buf : Bytes) : Except SmcError (ChunkRec Digest) :=
  match unpackFlags (buf.byte 36) with
  | .ok (hashPresent, uploaded, location, compression) =>
    let digest := buf.field 4 32
    let hash : Option Digest := if h : hashPresent = true ∧ digest.length = 32 then some ⟨digest, h.2⟩ else none
    .ok ⟨(u32FromLe (buf.field 0 4)).toNat, hash, location, uploaded, compression⟩
  | .error e => .error e

@[simp] theorem length_hashBytes (h : Option Digest) : (hashBytes h).length = 32 := by
  cases h with
  | none => rfl
  | some d => exact d.2

theorem length_encode {r : ChunkRec Digest} {b : Bytes} (h : r.encode = .ok b) : b.length = recordSize := by
  unfold encode at h
  split at h <;> cases h
  simp [recordSize]

theorem unpackFlags_packFlags (hashPresent uploaded : Bool) (location : LocationTag) (comp : Option CompressionAlgo) :
    unpackFlags (packFlags hashPresent uploaded location comp) = .ok (hashPresent, uploaded, location, comp) := by
  cases hashPresent <;> cases uploaded <;> cases location <;> rcases comp with _ | (_ | _ | _) <;> decide

theorem layout {size hash : Bytes} (hs : size.length = 4) (hh : hash.length = 32) (flags : UInt8) (rest : Bytes) :
    field (size ++ (hash ++ flags :: rest)) 0 4 = size ∧ field (size ++ (hash ++ flags :: rest)) 4 32 = hash ∧
      byte (size ++ (hash ++ flags :: rest)) 36 = flags := by
  refine ⟨?_, ?_, ?_⟩
  · rw [field, drop_zero, take_left' hs]
  · rw [field, drop_left' hs, take_left' hh]
  · have hget : (size ++ (hash ++ flags :: rest))[36]? = some flags := by
      rw [getElem?_append_right (by omega), getElem?_append_right (by omega), hs, hh]
      rfl
    rw [byte, getD_eq_getElem?_getD, hget, Option.getD_some]

theorem decode_encode {r : ChunkRec Digest} {b : Bytes} (h : r.encode = .ok b) : decode b = .ok r := by
  unfold encode u32Max at h
  split at h <;> cases h
  next hle =>
    obtain ⟨size, hash, location, uploaded, compression⟩ := r
    obtain ⟨h0, h1, h2⟩ := layout (length_u32Le (UInt32.ofNat size)) (length_hashBytes hash)
      (packFlags hash.isSome uploaded location compression) (replicate 27 0)
    have hle' : size < UInt32.size := Nat.lt_succ_of_le (Nat.le_of_not_lt hle)
    have hsize : (UInt32.ofNat size).toNat = size := UInt32.toNat_ofNat_of_lt' hle'
    have hlen := length_hashBytes hash
    simp only [decode, h0, h1, h2, unpackFlags_packFlags, u32FromLe_u32Le, hsize]
    cases hash with
    | none => rfl
    | some d =>
      simp only [Option.isSome_some, hlen, and_self, dif_pos]
      rfl

end ChunkRec

end Thur.Stream

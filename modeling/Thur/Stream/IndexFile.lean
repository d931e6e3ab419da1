import Thur.Stream.DirtyPages
import Thur.Stream.Records
/-!
# IndexFile — the block and chunk index files

A flat file: a header of 32 bytes, then records of one size. The handle keeps the record count and the bitmap of changed
pages; every mutation marks the pages it writes. The block index and the chunk index are one definition, taken at the
format of their records.
-/
open Paged

namespace Thur.Stream

open List

structure IndexFormat (ρ : Type) where
  kind : String
  nextName : String
  magic : Bytes
  recordSize : Nat
  encode : ρ → Except SmcError Bytes
  length_magic : magic.length = 4
  recordSize_pos : 0 < recordSize
  recordSize_le : recordSize ≤ u32Max
  length_encode : ∀ {r b}, encode r = .ok b → b.length = recordSize

def blockFormat : IndexFormat BlockRec where
  kind := "block"
  nextName := "next_lba"
  magic := [0x4e, 0x56, 0x42, 0x49]
  recordSize := BlockRec.recordSize
  encode r := .ok r.encode
  length_magic := rfl
  recordSize_pos := by decide
  recordSize_le := by decide
  length_encode h := by
    cases h
    exact BlockRec.length_encode _

def chunkFormat : IndexFormat (ChunkRec Digest) where
  kind := "chunk"
  nextName := "next_id"
  magic := [0x4e, 0x56, 0x43, 0x49]
  recordSize := ChunkRec.recordSize
  encode := ChunkRec.encode
  length_magic := rfl
  recordSize_pos := by decide
  recordSize_le := by decide
  length_encode h := ChunkRec.length_encode h

def headerSize : Nat := 32

structure IndexFile where
  bytes : Bytes
  next : Nat
  dirty : DirtyPageTracker

namespace IndexFile

variable {ρ : Type} (fmt : IndexFormat ρ) {b l buf : Bytes} {i n off : Nat} {f : IndexFile} {r : ρ} {rs : List ρ}

def header : Bytes := fmt.magic ++ (u32Le 1 ++ (u32Le (UInt32.ofNat fmt.recordSize) ++ List.replicate 20 0))

def lengthOf (n : Nat) : Nat := headerSize + n * fmt.recordSize

def openOrCreate (bytes : Bytes) (sidecar : Option DirtyPageTracker) : Except SmcError IndexFile :=
  let dirty := sidecar.getD .blank
  if bytes.length = 0 then .ok ⟨writeAt 0 bytes 0 (header fmt), 0, dirty.markRange 0 headerSize⟩
  else if bytes.length < headerSize then
    .error (.invalidOp (fmt.kind ++ " index file shorter than header — corrupt"))
  else if bytes.field 0 4 ≠ fmt.magic then
    .error (.invalidOp (fmt.kind ++ " index file magic mismatch — wrong file or corrupt"))
  else if u32FromLe (bytes.field 4 4) ≠ 1 then
    .error (.invalidOp (fmt.kind ++ " index file version unsupported by this build"))
  else if (u32FromLe (bytes.field 8 4)).toNat ≠ fmt.recordSize then
    .error (.invalidOp (fmt.kind ++ " index file record-size header field disagrees with build"))
  else if (bytes.length - headerSize) % fmt.recordSize ≠ 0 then
    .error (.invalidOp (fmt.kind ++ " index records region is not a multiple of record size"))
  else .ok ⟨bytes, (bytes.length - headerSize) / fmt.recordSize, dirty⟩

def writeRecord (f : IndexFile) (i : Nat) (buf : Bytes) : IndexFile :=
  { f with bytes := writeAt 0 f.bytes (lengthOf fmt i) buf, dirty := f.dirty.markRange (lengthOf fmt i) fmt.recordSize }

def append (f : IndexFile) (r : ρ) : Except SmcError Nat × IndexFile :=
  match fmt.encode r with
  | .ok buf => (.ok f.next, { writeRecord fmt f f.next buf with next := f.next + 1 })
  | .error e => (.error e, f)

def overwrite (f : IndexFile) (i : Nat) (r : ρ) : Except SmcError Unit × IndexFile :=
  if i ≥ f.next then (.error (.invalidOp (fmt.kind ++ " index overwrite past " ++ fmt.nextName)), f)
  else
    match fmt.encode r with
    | .ok buf => (.ok (), writeRecord fmt f i buf)
    | .error e => (.error e, f)

def truncateTo (f : IndexFile) (n : Nat) : IndexFile :=
  { bytes := setLen 0 f.bytes (lengthOf fmt n), next := n,
    dirty := f.dirty.truncateToPages (asU32 (pageCount pageSize (lengthOf fmt n))) }

structure WellFormed (f : IndexFile) : Prop where
  header : f.bytes.take headerSize = header fmt
  length : f.bytes.length = lengthOf fmt f.next

/-! ## The header -/

@[simp] theorem length_header : (header fmt).length = headerSize := by
  simp [header, fmt.length_magic, headerSize]

variable {fmt}

theorem field_take {m : Nat} (h : i + n ≤ m) : Bytes.field (b.take m) i n = b.field i n := by
  apply ext_getElem?
  intro k
  rw [Bytes.getElem?_field, Bytes.getElem?_field]
  by_cases hk : k < n
  · rw [if_pos hk, if_pos hk, getElem?_take_of_lt (by omega)]
  · rw [if_neg hk, if_neg hk]

theorem header_fields : (header fmt).field 0 4 = fmt.magic ∧ (header fmt).field 4 4 = u32Le 1 ∧
    (header fmt).field 8 4 = u32Le (UInt32.ofNat fmt.recordSize) := by
  have hm := fmt.length_magic
  refine ⟨?_, ?_, ?_⟩
  · rw [header, Bytes.field, drop_zero, take_left' hm]
  · rw [header, Bytes.field, drop_left' hm, take_left' (length_u32Le 1)]
  · have hsplit : header fmt = (fmt.magic ++ u32Le 1) ++ (u32Le (UInt32.ofNat fmt.recordSize) ++ replicate 20 0) := by
      rw [header, append_assoc]
    have hlen : (fmt.magic ++ u32Le 1).length = 8 := by simp [hm]
    rw [hsplit, Bytes.field, drop_left' hlen, take_left' (length_u32Le _)]

theorem openOrCreate_wellFormed (h : f.WellFormed fmt) (sidecar : Option DirtyPageTracker) :
    openOrCreate fmt f.bytes sidecar = .ok ⟨f.bytes, f.next, sidecar.getD .blank⟩ := by
  obtain ⟨hmagic, hversion, hsize⟩ := @header_fields _ fmt
  have hhead := h.header
  have hlen := h.length
  have hpos := fmt.recordSize_pos
  have h0 : ¬ f.bytes.length = 0 := by rw [hlen, lengthOf, headerSize]; omega
  have h1 : ¬ f.bytes.length < headerSize := by rw [hlen, lengthOf]; omega
  have h2 : ¬ f.bytes.field 0 4 ≠ fmt.magic := by
    rw [← field_take (by decide : 0 + 4 ≤ headerSize), hhead, hmagic]
    exact fun h' => h' rfl
  have h3 : ¬ u32FromLe (f.bytes.field 4 4) ≠ 1 := by
    rw [← field_take (by decide : 4 + 4 ≤ headerSize), hhead, hversion, u32FromLe_u32Le]
    exact fun h' => h' rfl
  have h4 : ¬ (u32FromLe (f.bytes.field 8 4)).toNat ≠ fmt.recordSize := by
    rw [← field_take (by decide : 8 + 4 ≤ headerSize), hhead, hsize, u32FromLe_u32Le]
    have hlt : fmt.recordSize < UInt32.size := Nat.lt_succ_of_le fmt.recordSize_le
    exact fun h' => h' (UInt32.toNat_ofNat_of_lt' hlt)
  have hrest : f.bytes.length - headerSize = f.next * fmt.recordSize := by
    rw [hlen, lengthOf]
    omega
  have h5 : ¬ (f.bytes.length - headerSize) % fmt.recordSize ≠ 0 := by
    rw [hrest, Nat.mul_mod_left]
    exact fun h' => h' rfl
  simp only [openOrCreate, if_neg h0, if_neg h1, if_neg h2, if_neg h3, if_neg h4, if_neg h5]
  rw [hrest, Nat.mul_div_cancel _ hpos]

theorem openOrCreate_nil (sidecar : Option DirtyPageTracker) :
    openOrCreate fmt [] sidecar = .ok ⟨header fmt, 0, (sidecar.getD .blank).markRange 0 headerSize⟩ := by
  simp [openOrCreate, writeAt]

theorem wellFormed_header (dirty : DirtyPageTracker) : WellFormed fmt ⟨header fmt, 0, dirty⟩ := by
  constructor
  · exact take_of_length_le (Nat.le_of_eq (length_header fmt))
  · simp [lengthOf]

/-! ## Mutations keep the shape -/

theorem take_writeAt (h : n ≤ off) (hl : n ≤ l.length) : (writeAt 0 l off b).take n = l.take n := by
  rw [writeAt, take_append_of_le_length (by rw [length_take]; omega), take_take, Nat.min_eq_left h]

theorem WellFormed.append (h : f.WellFormed fmt) (hb : fmt.encode r = .ok buf) :
    WellFormed fmt { writeRecord fmt f f.next buf with next := f.next + 1 } := by
  have hlen := h.length
  have hbuf := fmt.length_encode hb
  constructor
  · rw [← h.header]
    exact take_writeAt (by unfold lengthOf; omega) (by rw [hlen]; unfold lengthOf; omega)
  · simp only [writeRecord, length_writeAt, hlen, hbuf, lengthOf, Nat.add_mul, Nat.one_mul]
    omega

theorem lengthOf_mono {j : Nat} (h : i ≤ j) : lengthOf fmt i ≤ lengthOf fmt j := by
  have := Nat.mul_le_mul_right fmt.recordSize h
  unfold lengthOf
  omega

theorem lengthOf_succ (i : Nat) : lengthOf fmt (i + 1) = lengthOf fmt i + fmt.recordSize := by
  unfold lengthOf
  rw [Nat.add_mul, Nat.one_mul, Nat.add_assoc]

theorem WellFormed.writeRecord (h : f.WellFormed fmt) (hi : i < f.next) (hb : fmt.encode r = .ok buf) :
    WellFormed fmt (writeRecord fmt f i buf) := by
  have hlen := h.length
  have hbuf := fmt.length_encode hb
  have hend : lengthOf fmt i + fmt.recordSize ≤ lengthOf fmt f.next := by
    rw [← lengthOf_succ]
    exact lengthOf_mono hi
  constructor
  · rw [← h.header]
    exact take_writeAt (by unfold lengthOf; omega) (by rw [hlen]; unfold lengthOf; omega)
  · simp only [IndexFile.writeRecord, length_writeAt, hlen, hbuf]
    omega

theorem WellFormed.truncateTo (h : f.WellFormed fmt) (hn : n ≤ f.next) : WellFormed fmt (truncateTo fmt f n) := by
  have hle : lengthOf fmt n ≤ lengthOf fmt f.next := lengthOf_mono hn
  have hlen := h.length
  constructor
  · rw [← h.header, IndexFile.truncateTo, setLen_of_le 0 (by omega), take_take]
    congr 1
    unfold lengthOf
    omega
  · simp [IndexFile.truncateTo]

end IndexFile

end Thur.Stream

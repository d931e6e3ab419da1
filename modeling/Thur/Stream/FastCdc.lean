import Thur.Lib.Bytes
/-!
# FastCdc — the streaming content-defined chunker

The write path feeds every block it appends to the chunker, which says whether the chunk is to be cut after the block.  The
rolling hash and the masks are those of the source, so that a model run cuts where the code cuts.
-/
namespace Thur.Stream

def gear (b : UInt8) : UInt64 :=
  let s : UInt64 := 0x4e696d627573564c + (b.toUInt64 + 1) * 0x9e3779b97f4a7c15
  let z := (s ^^^ (s >>> 30)) * 0xbf58476d1ce4e5b9
  let z := (z ^^^ (z >>> 27)) * 0x94d049bb133111eb
  z ^^^ (z >>> 31)

def bitOrder : List UInt64 :=
  [24, 32, 16, 40, 8, 48, 26, 30, 18, 38, 10, 46, 25, 33, 17, 41, 9, 49, 27, 31, 19, 39, 11, 47, 28, 34, 20, 42, 12, 50, 29, 35,
    21, 43, 13, 51, 14, 52, 15, 53, 22, 44, 23, 45, 36, 54, 37, 55]

def buildCutMask (bits : Nat) : UInt64 := (bitOrder.take bits).foldl (fun m i => m ||| ((1 : UInt64) <<< i)) 0

def bitsForDistance (expected : Nat) : Nat :=
  let k := Nat.log2 expected
  min (if (1 <<< k) < expected then k + 1 else k) 48

structure FastCdc where
  min : Nat
  avg : Nat
  max : Nat
  maskS : UInt64
  maskL : UInt64

def FastCdc.new (lo avg hi : Nat) : FastCdc :=
  ⟨lo, avg, hi, buildCutMask (bitsForDistance (Nat.min (avg * 2) 18446744073709551615)),
    buildCutMask (Nat.max (bitsForDistance (avg / 2)) 1)⟩

structure StreamingChunker where
  chunker : FastCdc
  hash : UInt64
  pos : Nat

namespace StreamingChunker

def new (chunker : FastCdc) : StreamingChunker := ⟨chunker, 0, 0⟩

def reset (sc : StreamingChunker) : StreamingChunker := { sc with hash := 0, pos := 0 }

def gearWindow : Nat := 64

def roll (h : UInt64) (b : UInt8) : UInt64 := (h <<< 1) + gear b

def warmup (stop : Nat) : Bytes → UInt64 → Nat → Bytes × UInt64 × Nat
  | [], h, pos => ([], h, pos)
  | b :: bs, h, pos => if pos < stop then warmup stop bs (roll h b) (pos + 1) else (b :: bs, h, pos)

def checked (mask : UInt64) (stop : Nat) : Bytes → UInt64 → Nat → Bool × Bytes × UInt64 × Nat
  | [], h, pos => (false, [], h, pos)
  | b :: bs, h, pos =>
    if pos + 1 < stop then
      if roll h b &&& mask = 0 then (true, bs, roll h b, pos + 1) else checked mask stop bs (roll h b) (pos + 1)
    else (false, b :: bs, h, pos)

def forced (sc : StreamingChunker) : Bytes → UInt64 → Nat → Bool × StreamingChunker
  | b :: _, h, pos =>
    if pos + 1 = sc.chunker.max then (true, { sc with hash := roll h b, pos := pos + 1 })
    else (false, { sc with hash := h, pos := pos })
  | [], h, pos => (false, { sc with hash := h, pos := pos })

def feedHashed (sc : StreamingChunker) (bytes : Bytes) (h : UInt64) (pos : Nat) : Bool × StreamingChunker :=
  let (rest, h, pos) := warmup sc.chunker.min bytes h pos
  match checked sc.chunker.maskS sc.chunker.avg rest h pos with
  | (true, _, h, pos) => (true, { sc with hash := h, pos := pos })
  | (false, rest, h, pos) =>
    match checked sc.chunker.maskL sc.chunker.max rest h pos with
    | (true, _, h, pos) => (true, { sc with hash := h, pos := pos })
    | (false, rest, h, pos) => sc.forced rest h pos

def feed (sc : StreamingChunker) (bytes : Bytes) : Bool × StreamingChunker :=
  let threshold := sc.chunker.min - gearWindow
  if sc.pos < threshold then
    let skip := Nat.min (threshold - sc.pos) bytes.length
    let h := if sc.pos + skip = threshold then 0 else sc.hash
    if skip = bytes.length then (false, { sc with hash := h, pos := sc.pos + skip })
    else sc.feedHashed (bytes.drop skip) h (sc.pos + skip)
  else sc.feedHashed bytes sc.hash sc.pos

end StreamingChunker

inductive ChunkingMode
  | fixed (sizeBytes : Nat)
  | fastCdc (min avg max : Nat)

def forcedCutThreshold : ChunkingMode → Nat
  | .fixed size => if size = 0 then 18446744073709551615 else size
  | .fastCdc _ _ max => max

end Thur.Stream

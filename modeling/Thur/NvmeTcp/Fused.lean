import Thur.Lib.Machine
import Thur.NvmeTcp.Payload
/-!
# Fused — the halves of a fused pair on an I/O queue

The reader parks the first half of a pair and waits for the second; some of its early exits leave the parked half alone.
-/
namespace Thur.NvmeTcp

inductive Fuse
  | normal
  | first
  | second
deriving DecidableEq

/-- A CapsuleCmd; `digestOk` is the outcome of `verify_data_digest`. -/
structure Capsule where
  opcode : UInt8
  fuse : Fuse
  sglLen : Nat := 0
  digestOk : Bool := true
deriving DecidableEq

inductive Status
  | missingFused
  | dataTransferError
  | invalidField
  | namespaceNotReady
  | fabricsResponse
deriving DecidableEq

def fabrics : UInt8 := 0x7f

def maxTransferBytes : Nat := 1024 * 1024

/-- With the history of what it received, completed and handed on; a capsule goes by its place in `received`. -/
structure Reader where
  closed : Bool := false
  received : List Capsule := []
  pendingFused : Option Nat := none
  done : List (Nat × Status) := []
  accepted : List Nat := []
  pairs : List (Nat × Nat) := []

inductive ReaderAct
  /-- `room` says whether a permit and a table slot are free -/
  | capsule (c : Capsule) (room : Bool)
  | eof
  /-- H2CTermReq, a header digest error, a malformed PDU, one of another type -/
  | hangUp

namespace Reader

/-- With that of a first half that waited: `pending_fused.take()`. -/
def aborted (s : Reader) : List (Nat × Status) := s.done ++ s.pendingFused.toList.map fun j => (j, .missingFused)

def onFused (s : Reader) (k : Nat) (room : Bool) : Fuse → Reader
  | .first => { s with pendingFused := some k, done := s.aborted }
  | .second =>
    match s.pendingFused with
    | none => { s with done := s.done ++ [(k, .missingFused)] }
    | some j => { s with pendingFused := none, pairs := s.pairs ++ [(j, k)] }
  | .normal =>
    if room then { s with pendingFused := none, done := s.aborted, accepted := s.accepted ++ [k] }
    else { s with pendingFused := none, done := s.aborted ++ [(k, .namespaceNotReady)] }

def onCapsule (s : Reader) (c : Capsule) (room : Bool) : Reader :=
  let k := s.received.length
  let s := { s with received := s.received ++ [c] }
  if c.digestOk = false then { s with done := s.done ++ [(k, .dataTransferError)] }
  else if c.opcode = fabrics then { s with pendingFused := none, done := s.aborted ++ [(k, .fabricsResponse)] }
  else if dataDirection c.opcode = .bidirectional then { s with closed := true }
  else if maxTransferBytes < c.sglLen then { s with done := s.done ++ [(k, .invalidField)] }
  else s.onFused k room c.fuse

def step (s : Reader) (a : ReaderAct) : Option Reader :=
  if s.closed then none
  else
    match a with
    | .capsule c room => some (s.onCapsule c room)
    | .eof => some { s with closed := true, pendingFused := none, done := s.aborted }
    | .hangUp => some { s with closed := true }

def machine : Machine Reader ReaderAct where
  step := step

/-- **When a first half is not passed over**: while it waits no capsule is refused for its digest or size; no Fabrics
capsule has fuse bits. -/
def fuseOk (s : Reader) : ReaderAct → Prop
  | .capsule c _ => (s.pendingFused ≠ none → c.digestOk = true ∧ c.sglLen ≤ maxTransferBytes) ∧
      (c.opcode = fabrics → c.fuse = .normal)
  | _ => True

instance (s : Reader) (a : ReaderAct) : Decidable (fuseOk s a) := by
  cases a <;> unfold fuseOk <;> infer_instance

variable {s s' : Reader} {a : ReaderAct} {c : Capsule} {room : Bool} {k : Nat}

def fuseOf (l : List Capsule) (k : Nat) : Option Fuse := (l[k]?).map (·.fuse)

def directionOf (l : List Capsule) (k : Nat) : Option DataDirection := (l[k]?).map (dataDirection ·.opcode)

theorem fuseOf_snoc (l : List Capsule) : fuseOf (l ++ [c]) k = if k = l.length then some c.fuse else fuseOf l k := by
  grind [fuseOf]

theorem directionOf_snoc (l : List Capsule) :
    directionOf (l ++ [c]) k = if k = l.length then some (dataDirection c.opcode) else directionOf l k := by
  grind [directionOf]

/-- It waits, has failed, or is the capsule the connection was closed on. -/
def Lone (s : Reader) (k : Nat) : Prop :=
  s.pendingFused = some k ∨ (∃ st, st ≠ .fabricsResponse ∧ (k, st) ∈ s.done) ∨
    s.closed = true ∧ directionOf s.received k = some .bidirectional

/-- Each half is matched or lone, and only the last capsule may wait. -/
structure Fusing (s : Reader) : Prop where
  slot : ∀ j, s.pendingFused = some j → fuseOf s.received j = some .first ∧ (s.closed = true ∨ j + 1 = s.received.length)
  pairs : ∀ p ∈ s.pairs, p.2 = p.1 + 1 ∧ fuseOf s.received p.1 = some .first ∧ fuseOf s.received p.2 = some .second
  halves : ∀ k < s.received.length, fuseOf s.received k ≠ some .normal → (∃ p ∈ s.pairs, k = p.1 ∨ k = p.2) ∨ s.Lone k
  plain : ∀ k ∈ s.accepted, fuseOf s.received k = some .normal

theorem Fusing.onCapsule (h : Fusing s) (hok : fuseOk s (.capsule c room)) (hc : s.closed = false) :
    Fusing (s.onCapsule c room) := by
  obtain ⟨h1, h2, h3, h4⟩ := h
  have hl : fuseOf s.received s.received.length = none := by simp [fuseOf]
  have hab : ∀ j, s.pendingFused = some j → (j, .missingFused) ∈ s.aborted := by simp +contextual [aborted]
  have hdone : ∀ e ∈ s.done, e ∈ s.aborted := by simp +contextual [aborted]
  simp only [fuseOk] at hok
  simp only [Reader.onCapsule, onFused, aborted] at hab hdone ⊢
  repeat' split
  case h_2 j hj =>
    refine ⟨by grind, by grind [fuseOf_snoc], fun k hk hk' => ?_, by grind [fuseOf_snoc]⟩
    -- the halves of the new pair are the one that waited and the one that came
    by_cases hp : k = j ∨ k = s.received.length
    · exact .inl ⟨(j, s.received.length), by simp, hp⟩
    · rcases h3 k (by grind) (by grind [fuseOf_snoc]) with ⟨p, hp, hkp⟩ | hl
      · exact .inl ⟨p, by simp [hp], hkp⟩
      · exact .inr (by grind [Lone, directionOf_snoc])
  all_goals constructor <;> grind [Lone, fuseOf_snoc, directionOf_snoc]

theorem Fusing.step (h : Fusing s) (hok : fuseOk s a) (hs : s.step a = some s') : Fusing s' := by
  simp only [Reader.step] at hs
  split at hs
  · cases hs
  next hc =>
  cases a with
  | capsule c room =>
    obtain rfl := Option.some.inj hs
    exact h.onCapsule hok (by simpa using hc)
  | eof =>
    obtain ⟨h1, h2, h3, h4⟩ := h
    have hab : ∀ j, s.pendingFused = some j → (j, .missingFused) ∈ s.aborted := by simp +contextual [aborted]
    have hdone : ∀ e ∈ s.done, e ∈ s.aborted := by simp +contextual [aborted]
    obtain rfl := Option.some.inj hs
    constructor <;> grind [Lone]
  | hangUp =>
    obtain ⟨h1, h2, h3, h4⟩ := h
    obtain rfl := Option.some.inj hs
    constructor <;> grind [Lone]

/-- **Only adjacent halves are fused**: under `fuseOk` a pair is a first half and the second half right after it, and no
handler ran for any other half. -/
theorem fused_adjacent {acts : List ReaderAct} (hok : machine.Meets fuseOk {} acts) (hr : machine.run {} acts = some s) :
    (∀ p ∈ s.pairs, p.2 = p.1 + 1 ∧ fuseOf s.received p.1 = some .first ∧ fuseOf s.received p.2 = some .second) ∧
    (∀ k f, fuseOf s.received k = some f → f ≠ .normal →
      ((∃ p ∈ s.pairs, k = p.1 ∨ k = p.2) ∨ s.Lone k) ∧ k ∉ s.accepted) ∧
    (∀ j, s.pendingFused = some j → s.closed = true ∨ j + 1 = s.received.length) ∧
    ∀ s', s.step .eof = some s' → s'.pendingFused = none := by
  have h0 : Fusing {} := ⟨nofun, nofun, nofun, nofun⟩
  have h : Fusing s := machine.run_inv (fun _ _ _ h hok hs => Fusing.step h hok hs) h0 hok hr
  refine ⟨h.pairs, fun k f hk hf => ⟨h.halves k ?_ ?_, fun hacc => ?_⟩, fun j hj => (h.slot j hj).2, fun s' hs => ?_⟩
  · grind [fuseOf]
  · simp [hk, hf]
  · exact hf (Option.some.inj (hk.symm.trans (h.plain k hacc)))
  · simp only [Reader.step] at hs
    grind

def firstHalf : ReaderAct := .capsule { opcode := 5, fuse := .first } true

def secondHalf : ReaderAct := .capsule { opcode := 1, fuse := .second } true

theorem fused_adjacent_pair : ∃ s, machine.run {} [firstHalf, secondHalf] = some s ∧
    s.pairs = [(0, 1)] ∧ ∀ p ∈ s.pairs, p.2 = p.1 + 1 :=
  Machine.ends_of (fun s => s.pairs = [(0, 1)]) (by decide +kernel)
    fun _ hs hp => ⟨hp, fun p h => ((fused_adjacent (by decide +kernel) hs).1 p h).1⟩

theorem refused_between_halves : ∃ s, machine.run {}
    [firstHalf, .capsule { opcode := 1, fuse := .normal, digestOk := false } true, secondHalf] = some s ∧
      s.pairs = [(0, 2)] := by
  decide +kernel

end Reader
end Thur.NvmeTcp

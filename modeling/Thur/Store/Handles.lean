import Mathlib.Data.Finset.Basic
import Thur.Lib.Machine
import Thur.Lib.Table
/-!
# Handles — the presence caches in front of one bucket

`create_backend_named` wraps every backend it builds in a cache of its own, and the clones of a handle share it. The
state is the bucket, the memory of each handle, the PUTs in flight and the calls, each between two of its awaits. A PUT
goes by the id of the call that installed it; whoever finds it in the memory awaits the same result.
-/
namespace Thur.Store

open Option

inductive Fact
  | probed
  | uploaded
  | inFlight (f : Nat)
deriving DecidableEq

inductive Request (K : Type)
  /-- `upload_chunk`, or `upload_chunk_zerocopy` -/
  | upload (zerocopy : Bool) (k : K)
  | chunkExists (k : K)
  | uploadVersioned (k : K)
  | deleteObject (k : K)
  | warmupPrefix
deriving DecidableEq

inductive Answer
  | ok
  | found (b : Bool)
  | err
deriving DecidableEq

inductive Stage (K : Type)
  /-- an upload before a lookup, with `more` to follow if it misses -/
  | looking (more : Nat)
  /-- an upload awaits a PUT; the call that installed it holds the epoch of that moment -/
  | awaiting (f : Nat) (install : Option Nat)
  | probing
  /-- `chunk_exists` awaits a PUT -/
  | coalesced (f : Nat)
  | missed
  /-- the HEAD under the epoch `e`, and what it found -/
  | heading (e : Nat) (found : Option Bool)
  /-- the backend's `upload_versioned` or `delete_object`, and whether it has taken effect -/
  | sending (ran : Bool)
  | listing
  | listed (keys : List K)
  | returned (a : Answer)
  | cancelled
deriving DecidableEq

structure Call (K : Type) where
  handle : Nat
  request : Request K
  stage : Stage K
deriving DecidableEq

structure Flight (K : Type) where
  key : K
  ran : Bool
  result : Option Bool

structure State (K : Type) where
  present : K → Bool
  known : Nat → K → Option Fact
  epoch : Nat → Nat
  flights : Table (Flight K)
  calls : Table (Call K)

inductive Act (K : Type)
  | call (t h : Nat) (r : Request K)
  /-- a lookup under the lock -/
  | look (t : Nat)
  /-- a PUT in flight takes effect -/
  | put (f : Nat)
  /-- a PUT in flight ends -/
  | settle (f : Nat) (ok : Bool)
  /-- a call goes on with the result of the PUT it awaits -/
  | wake (t : Nat)
  /-- `chunk_exists` reads the epoch -/
  | snap (t : Nat)
  | head (t : Nat) (ok : Bool)
  /-- `chunk_exists` or the warm-up writes down what it found -/
  | seed (t : Nat)
  /-- a versioned write or a delete takes effect -/
  | take (t : Nat)
  | reply (t : Nat) (ok : Bool)
  | list (t : Nat) (keys : List K) (ok : Bool)
  | cancel (t : Nat)
  | evict (h : Nat) (k : K)

def Request.first {K : Type} : Request K → Stage K
  | .upload zerocopy _ => .looking (if zerocopy then 1 else 2)
  | .chunkExists _ => .probing
  | .uploadVersioned _ | .deleteObject _ => .sending false
  | .warmupPrefix => .listing

def Stage.over {K : Type} : Stage K → Bool
  | .returned _ | .cancelled => true
  | _ => false

variable {t : Nat}

namespace State

variable {K : Type} [DecidableEq K]

def init (present : K → Bool) : State K := ⟨present, fun _ _ => none, fun _ => 0, ∅, ∅⟩

section

variable (s : State K)

def goOn (t : Nat) (x : Call K) (stage : Stage K) : State K :=
  { s with calls := s.calls.insert t { x with stage := stage } }

def learn (h : Nat) (k : K) (v : Option Fact) : State K :=
  { s with known := fun h' k' => if h' = h ∧ k' = k then v else s.known h' k' }

def popInFlight (h : Nat) (k : K) : State K :=
  match s.known h k with
  | some (.inFlight _) => s.learn h k none
  | _ => s

def invalidate (h : Nat) (k : K) : State K :=
  { s.learn h k none with epoch := fun h' => if h' = h then s.epoch h + 1 else s.epoch h' }

def setPresent (k : K) (b : Bool) : State K :=
  { s with present := fun k' => if k' = k then b else s.present k' }

/-- A probed fact has no size, so a zero-copy upload passes it over; the last lookup that misses installs the PUT. -/
def lookUpload (t : Nat) (x : Call K) (zerocopy : Bool) (k : K) (more : Nat) : State K :=
  match s.known x.handle k, zerocopy, more with
  | some .uploaded, _, _ | some .probed, false, _ => s.goOn t x (.returned .ok)
  | some (.inFlight f), _, _ => s.goOn t x (.awaiting f none)
  | _, _, more + 1 => s.goOn t x (.looking more)
  | _, _, 0 =>
    { (s.learn x.handle k (some (.inFlight t))).goOn t x (.awaiting t (some (s.epoch x.handle))) with
      flights := s.flights.insert t ⟨k, false, none⟩ }

def lookExists (t : Nat) (x : Call K) (k : K) : State K :=
  match s.known x.handle k with
  | some .probed | some .uploaded => s.goOn t x (.returned (.found true))
  | some (.inFlight f) => s.goOn t x (.coalesced f)
  | none => s.goOn t x .missed

def install (h : Nat) (k : K) (e : Nat) (ok : Bool) : State K :=
  if ok ∧ s.epoch h = e then s.learn h k (some .uploaded) else s.popInFlight h k

def answer (ok : Bool) : Answer := if ok then .ok else .err

def step : Act K → Option (State K)
  | .call t h r => if s.calls.lookup t = none then some { s with calls := s.calls.insert t ⟨h, r, r.first⟩ } else none
  | .look t =>
    (s.calls.lookup t).bind (fun x =>
      match x.request, x.stage with
      | .upload zerocopy k, .looking more => some (s.lookUpload t x zerocopy k more)
      | .chunkExists k, .probing => some (s.lookExists t x k)
      | _, _ => none)
  | .put f =>
    (s.flights.lookup f).bind (fun x =>
      if x.ran = false ∧ x.result = none
      then some { s.setPresent x.key true with flights := s.flights.insert f { x with ran := true } } else none)
  | .settle f ok =>
    (s.flights.lookup f).bind (fun x =>
      if x.result = none ∧ (ok → x.ran)
      then some { s with flights := s.flights.insert f { x with result := some ok } } else none)
  | .wake t =>
    (s.calls.lookup t).bind (fun x =>
      match x.request, x.stage with
      | .upload _ k, .awaiting f i =>
        ((s.flights.lookup f).bind Flight.result).map (fun ok =>
          match i with
          | none => s.goOn t x (.returned (answer ok))
          | some e => (s.install x.handle k e ok).goOn t x (.returned (answer ok)))
      | _, .coalesced f =>
        ((s.flights.lookup f).bind Flight.result).map (fun ok =>
          s.goOn t x (if ok then .returned (.found true) else .missed))
      | _, _ => none)
  | .snap t =>
    (s.calls.lookup t).bind (fun x =>
      match x.stage with
      | .missed => some (s.goOn t x (.heading (s.epoch x.handle) none))
      | _ => none)
  | .head t ok =>
    (s.calls.lookup t).bind (fun x =>
      match x.request, x.stage with
      | .chunkExists k, .heading e none =>
        some (s.goOn t x (if ok then .heading e (some (s.present k)) else .returned .err))
      | _, _ => none)
  | .seed t =>
    (s.calls.lookup t).bind (fun x =>
      match x.request, x.stage with
      | .chunkExists k, .heading e (some b) =>
        some ((if b ∧ s.epoch x.handle = e ∧ s.known x.handle k = none then s.learn x.handle k (some .probed) else s).goOn
          t x (.returned (.found b)))
      -- no look at the epoch here
      | _, .listed keys =>
        some ({ s with
          known := fun h k => if h = x.handle ∧ k ∈ keys ∧ s.known h k = none then some .probed else s.known h k }.goOn
          t x (.returned .ok))
      | _, _ => none)
  | .take t =>
    (s.calls.lookup t).bind (fun x =>
      match x.request, x.stage with
      | .uploadVersioned k, .sending false => some ((s.setPresent k true).goOn t x (.sending true))
      | .deleteObject k, .sending false => some ((s.setPresent k false).goOn t x (.sending true))
      | _, _ => none)
  | .reply t ok =>
    (s.calls.lookup t).bind (fun x =>
      match x.request, x.stage with
      | .uploadVersioned k, .sending ran =>
        if ok → ran then some ((s.invalidate x.handle k).goOn t x (.returned (answer ok))) else none
      -- an error leaves the memory as it is
      | .deleteObject k, .sending ran =>
        if ok → ran then some ((if ok then s.invalidate x.handle k else s).goOn t x (.returned (answer ok))) else none
      | _, _ => none)
  | .list t keys ok =>
    (s.calls.lookup t).bind (fun x =>
      match x.stage with
      | .listing =>
        if ∀ k ∈ keys, s.present k then some (s.goOn t x (if ok then .listed keys else .returned .err)) else none
      | _ => none)
  | .cancel t =>
    (s.calls.lookup t).bind (fun x =>
      match x.request, x.stage with
      -- the `InFlightGuard`, which only `upload_chunk` arms
      | .upload false k, .awaiting _ (some _) => some ((s.popInFlight x.handle k).goOn t x .cancelled)
      | _, stage => if stage.over then none else some (s.goOn t x .cancelled))
  | .evict h k => some (s.learn h k none)

end

inductive Moves (s : State K) : Act K → State K → Prop
  | call {t h r} (ht : s.calls.lookup t = none) :
    Moves s (.call t h r) { s with calls := s.calls.insert t ⟨h, r, r.first⟩ }
  | uploadHit {t x z k m} (hx : s.calls.lookup t = some x) (hr : x.request = .upload z k) (hs : x.stage = .looking m)
    (hfact : s.known x.handle k = some .probed ∨ s.known x.handle k = some .uploaded) :
    Moves s (.look t) (s.goOn t x (.returned .ok))
  | uploadJoin {t x z k m f} (hx : s.calls.lookup t = some x) (hr : x.request = .upload z k) (hs : x.stage = .looking m)
    (hf : s.known x.handle k = some (.inFlight f)) : Moves s (.look t) (s.goOn t x (.awaiting f none))
  | uploadMiss {t x z k m} (hx : s.calls.lookup t = some x) (hr : x.request = .upload z k)
    (hs : x.stage = .looking (m + 1)) : Moves s (.look t) (s.goOn t x (.looking m))
  | uploadInstall {t x z k} (hx : s.calls.lookup t = some x) (hr : x.request = .upload z k) (hs : x.stage = .looking 0) :
    Moves s (.look t) { (s.learn x.handle k (some (.inFlight t))).goOn t x (.awaiting t (some (s.epoch x.handle))) with
      flights := s.flights.insert t ⟨k, false, none⟩ }
  | existsHit {t x k} (hx : s.calls.lookup t = some x) (hr : x.request = .chunkExists k) (hs : x.stage = .probing)
    (hfact : s.known x.handle k = some .probed ∨ s.known x.handle k = some .uploaded) :
    Moves s (.look t) (s.goOn t x (.returned (.found true)))
  | existsJoin {t x k f} (hx : s.calls.lookup t = some x) (hr : x.request = .chunkExists k) (hs : x.stage = .probing)
    (hf : s.known x.handle k = some (.inFlight f)) : Moves s (.look t) (s.goOn t x (.coalesced f))
  | existsMiss {t x k} (hx : s.calls.lookup t = some x) (hr : x.request = .chunkExists k) (hs : x.stage = .probing) :
    Moves s (.look t) (s.goOn t x .missed)
  | put {f y} (hy : s.flights.lookup f = some y) (hran : y.ran = false) (hres : y.result = none) :
    Moves s (.put f) { s.setPresent y.key true with flights := s.flights.insert f { y with ran := true } }
  | settle {f ok y} (hy : s.flights.lookup f = some y) (hres : y.result = none) (hok : ok = true → y.ran = true) :
    Moves s (.settle f ok) { s with flights := s.flights.insert f { y with result := some ok } }
  | wakeJoined {t x z k f y ok} (hx : s.calls.lookup t = some x) (hr : x.request = .upload z k)
    (hs : x.stage = .awaiting f none) (hy : s.flights.lookup f = some y) (hres : y.result = some ok) :
    Moves s (.wake t) (s.goOn t x (.returned (answer ok)))
  | wakeInstaller {t x z k f e y ok} (hx : s.calls.lookup t = some x) (hr : x.request = .upload z k)
    (hs : x.stage = .awaiting f (some e)) (hy : s.flights.lookup f = some y) (hres : y.result = some ok) :
    Moves s (.wake t) ((s.install x.handle k e ok).goOn t x (.returned (answer ok)))
  | wakeExists {t x f y ok} (hx : s.calls.lookup t = some x) (hs : x.stage = .coalesced f)
    (hy : s.flights.lookup f = some y) (hres : y.result = some ok) :
    Moves s (.wake t) (s.goOn t x (if ok then .returned (.found true) else .missed))
  | snap {t x} (hx : s.calls.lookup t = some x) (hs : x.stage = .missed) :
    Moves s (.snap t) (s.goOn t x (.heading (s.epoch x.handle) none))
  | head {t ok x k e} (hx : s.calls.lookup t = some x) (hr : x.request = .chunkExists k)
    (hs : x.stage = .heading e none) :
    Moves s (.head t ok) (s.goOn t x (if ok then .heading e (some (s.present k)) else .returned .err))
  | seedFound {t x k e b} (hx : s.calls.lookup t = some x) (hr : x.request = .chunkExists k)
    (hs : x.stage = .heading e (some b)) :
    Moves s (.seed t) ((if b ∧ s.epoch x.handle = e ∧ s.known x.handle k = none
      then s.learn x.handle k (some .probed) else s).goOn t x (.returned (.found b)))
  | seedListed {t x keys} (hx : s.calls.lookup t = some x) (hs : x.stage = .listed keys) :
    Moves s (.seed t) ({ s with
      known := fun h k => if h = x.handle ∧ k ∈ keys ∧ s.known h k = none then some .probed else s.known h k }.goOn
      t x (.returned .ok))
  | takeVersioned {t x k} (hx : s.calls.lookup t = some x) (hr : x.request = .uploadVersioned k)
    (hs : x.stage = .sending false) : Moves s (.take t) ((s.setPresent k true).goOn t x (.sending true))
  | takeDelete {t x k} (hx : s.calls.lookup t = some x) (hr : x.request = .deleteObject k)
    (hs : x.stage = .sending false) : Moves s (.take t) ((s.setPresent k false).goOn t x (.sending true))
  | replyVersioned {t ok x k ran} (hx : s.calls.lookup t = some x) (hr : x.request = .uploadVersioned k)
    (hs : x.stage = .sending ran) (hok : ok = true → ran = true) :
    Moves s (.reply t ok) ((s.invalidate x.handle k).goOn t x (.returned (answer ok)))
  | replyDelete {t ok x k ran} (hx : s.calls.lookup t = some x) (hr : x.request = .deleteObject k)
    (hs : x.stage = .sending ran) (hok : ok = true → ran = true) :
    Moves s (.reply t ok) ((if ok then s.invalidate x.handle k else s).goOn t x (.returned (answer ok)))
  | list {t keys ok x} (hx : s.calls.lookup t = some x) (hs : x.stage = .listing) (hkeys : ∀ k ∈ keys, s.present k) :
    Moves s (.list t keys ok) (s.goOn t x (if ok then .listed keys else .returned .err))
  | cancelGuarded {t x k f e} (hx : s.calls.lookup t = some x) (hr : x.request = .upload false k)
    (hs : x.stage = .awaiting f (some e)) : Moves s (.cancel t) ((s.popInFlight x.handle k).goOn t x .cancelled)
  | cancel {t x} (hx : s.calls.lookup t = some x) (hs : x.stage.over = false)
    (hplain : ∀ k f e, x.request = .upload false k → x.stage ≠ .awaiting f (some e)) :
    Moves s (.cancel t) (s.goOn t x .cancelled)
  | evict {h k} : Moves s (.evict h k) (s.learn h k none)

theorem lookUpload_moves {s : State K} {x : Call K} {z : Bool} {k : K} {m : Nat}
    (hx : s.calls.lookup t = some x) (hr : x.request = .upload z k) (hs : x.stage = .looking m) :
    Moves s (.look t) (s.lookUpload t x z k m) := by
  fun_cases s.lookUpload t x z k m
  next h => exact .uploadHit hx hr hs (.inr h)
  next h => exact .uploadHit hx hr hs (.inl h)
  next f h => exact .uploadJoin hx hr hs h
  · exact .uploadMiss hx hr hs
  · exact .uploadInstall hx hr hs

theorem lookExists_moves {s : State K} {x : Call K} {k : K} (hx : s.calls.lookup t = some x)
    (hr : x.request = .chunkExists k) (hs : x.stage = .probing) : Moves s (.look t) (s.lookExists t x k) := by
  fun_cases s.lookExists t x k
  next h => exact .existsHit hx hr hs (.inl h)
  next h => exact .existsHit hx hr hs (.inr h)
  next f h => exact .existsJoin hx hr hs h
  · exact .existsMiss hx hr hs

theorem step_moves {s s' : State K} {a : Act K} (h : s.step a = some s') : Moves s a s' := by
  cases a <;> simp only [step, bind_eq_some_iff, ite_none_right_eq_some, Option.some.injEq] at h
  case call => exact h.2 ▸ .call h.1
  case evict => exact h ▸ .evict
  case put f =>
    obtain ⟨y, hy, ⟨hran, hres⟩, rfl⟩ := h
    exact .put hy hran hres
  case settle f ok =>
    obtain ⟨y, hy, ⟨hres, hok⟩, rfl⟩ := h
    exact .settle hy hres hok
  all_goals
    obtain ⟨x, hx, h⟩ := h
    split at h <;> try cases h
  · exact lookUpload_moves hx ‹_› ‹_›
  · exact lookExists_moves hx ‹_› ‹_›
  · obtain ⟨ok, hok, rfl⟩ := map_eq_some_iff.1 h
    obtain ⟨y, hy, hres⟩ := bind_eq_some_iff.1 hok
    split
    · exact .wakeJoined hx ‹_› ‹_› hy hres
    · exact .wakeInstaller hx ‹_› ‹_› hy hres
  · obtain ⟨ok, hok, rfl⟩ := map_eq_some_iff.1 h
    obtain ⟨y, hy, hres⟩ := bind_eq_some_iff.1 hok
    exact .wakeExists hx ‹_› hy hres
  · exact .snap hx ‹_›
  · exact .head hx ‹_› ‹_›
  · exact .seedFound hx ‹_› ‹_›
  · exact .seedListed hx ‹_›
  · exact .takeVersioned hx ‹_› ‹_›
  · exact .takeDelete hx ‹_› ‹_›
  · obtain ⟨hok, ⟨⟩⟩ := ite_none_right_eq_some.1 h
    exact .replyVersioned hx ‹_› ‹_› hok
  · obtain ⟨hok, ⟨⟩⟩ := ite_none_right_eq_some.1 h
    exact .replyDelete hx ‹_› ‹_› hok
  · obtain ⟨hkeys, ⟨⟩⟩ := ite_none_right_eq_some.1 h
    exact .list hx ‹_› hkeys
  · exact .cancelGuarded hx ‹_› ‹_›
  next hplain =>
    obtain ⟨hover, hs⟩ := ite_none_left_eq_some.1 h
    cases hs
    exact .cancel hx (Bool.eq_false_iff.2 hover) fun k f e hr hs => hplain k f e hr hs

end State

def machine (K : Type) [DecidableEq K] : Machine (State K) (Act K) := ⟨State.step⟩

variable {K : Type}

def Request.wants : Request K → Option K
  | .upload _ k | .chunkExists k => some k
  | _ => none

def Request.deletes : Request K → Option K
  | .deleteObject k => some k
  | _ => none

def State.keyOf (s : State K) (f : Nat) : Option K := (s.flights.lookup f).map Flight.key

def State.answerOf (s : State K) (t : Nat) : Option Answer :=
  (s.calls.lookup t).bind (fun x =>
    match x.stage with
    | .returned a => some a
    | _ => none)

theorem answerOf_eq_some {s : State K} {a : Answer} (h : s.answerOf t = some a) :
    ∃ x, s.calls.lookup t = some x ∧ x.stage = .returned a := by
  obtain ⟨x, hx, ha⟩ := bind_eq_some_iff.1 h
  refine ⟨x, hx, ?_⟩
  split at ha <;> cases ha
  assumption

/-- What a stage says of the request, the PUT it awaits and the epoch it holds. -/
structure CallWf (epoch : Nat → Nat) (keyOf : Nat → Option K) (t : Nat) (x : Call K) : Prop where
  awaiting : ∀ f i, x.stage = .awaiting f i → (∃ z k, x.request = .upload z k ∧ keyOf f = some k) ∧
    ∀ e, i = some e → f = t ∧ e ≤ epoch x.handle
  coalesced : ∀ f, x.stage = .coalesced f → ∃ k, x.request = .chunkExists k ∧ keyOf f = some k
  missed : x.stage = .missed → ∃ k, x.request = .chunkExists k
  heading : ∀ e b, x.stage = .heading e b → (∃ k, x.request = .chunkExists k) ∧ e ≤ epoch x.handle
  listing : x.stage = .listing → x.request = .warmupPrefix
  listed : ∀ keys, x.stage = .listed keys → x.request = .warmupPrefix

structure Wf (s : State K) : Prop where
  own : ∀ f k, s.keyOf f = some k → ∃ x z, s.calls.lookup f = some x ∧ x.request = .upload z k ∧
    (x.stage.over ∨ ∃ e, x.stage = .awaiting f (some e))
  ran : ∀ f y, s.flights.lookup f = some y → y.result = some true → y.ran
  known : ∀ h k f, s.known h k = some (.inFlight f) → s.keyOf f = some k
  call : ∀ t x, s.calls.lookup t = some x → CallWf s.epoch s.keyOf t x

variable {s s' : State K} {t : Nat} {x : Call K}

theorem Wf.init (present : K → Bool) : Wf (State.init present) := by
  refine ⟨fun f k hf => ?_, fun f y hy => ?_, fun h k f hf => ?_, fun t x hx => ?_⟩
  · cases hf
  · cases hy
  · cases hf
  · cases hx

theorem Wf.owner (h : Wf s) {f : Nat} {y : Flight K} (hy : s.flights.lookup f = some y) :
    ∃ x z, s.calls.lookup f = some x ∧ x.request = .upload z y.key ∧
      (x.stage.over ∨ ∃ e, x.stage = .awaiting f (some e)) :=
  h.own f y.key (by rw [State.keyOf, hy]; rfl)

theorem Wf.goOn (h : Wf s) (hx : s.calls.lookup t = some x) {stage : Stage K}
    (hown : x.stage.over ∨ (∃ e, x.stage = .awaiting t (some e)) → stage.over)
    (hnew : CallWf s.epoch s.keyOf t { x with stage := stage }) : Wf (s.goOn t x stage) := by
  refine ⟨fun f k hf => ?_, h.ran, h.known, Table.forall_insert h.call hnew⟩
  obtain ⟨x', z, hx', hr, hstage⟩ := h.own f k hf
  by_cases hf : f = t
  · subst hf
    cases hx'.symm.trans hx
    exact ⟨_, z, AList.lookup_insert _, hr, .inl (hown hstage)⟩
  · exact ⟨x', z, by rw [State.goOn, AList.lookup_insert_ne hf]; exact hx', hr, hstage⟩

theorem Wf.fly (h : Wf s) {f : Nat} {y y' : Flight K} (hy : s.flights.lookup f = some y) (hkey : y'.key = y.key)
    (hran : y'.result = some true → y'.ran) : Wf { s with flights := s.flights.insert f y' } := by
  have hsame : State.keyOf { s with flights := s.flights.insert f y' } = s.keyOf := by
    funext f'
    grind [State.keyOf]
  exact ⟨hsame ▸ h.own, Table.forall_insert h.ran hran, hsame ▸ h.known, hsame ▸ h.call⟩

variable [DecidableEq K]

theorem popInFlight_eq (s : State K) (h : Nat) (k : K) : ∃ kn, s.popInFlight h k = { s with known := kn } := by
  rw [State.popInFlight]
  split
  · exact ⟨_, rfl⟩
  · exact ⟨s.known, rfl⟩

theorem install_eq (s : State K) (h : Nat) (k : K) (e : Nat) (ok : Bool) :
    ∃ kn, s.install h k e ok = { s with known := kn } := by
  rw [State.install]
  split
  · exact ⟨_, rfl⟩
  · exact popInFlight_eq s h k

theorem calls_popInFlight (s : State K) (h : Nat) (k : K) : (s.popInFlight h k).calls = s.calls := by
  obtain ⟨kn, hkn⟩ := popInFlight_eq s h k
  rw [hkn]

theorem calls_install (s : State K) (h : Nat) (k : K) (e : Nat) (ok : Bool) : (s.install h k e ok).calls = s.calls := by
  obtain ⟨kn, hkn⟩ := install_eq s h k e ok
  rw [hkn]

theorem Wf.learn (h : Wf s) {h' : Nat} {k : K} {v : Option Fact}
    (hv : ∀ f, v = some (.inFlight f) → s.keyOf f = some k) : Wf (s.learn h' k v) := by
  refine ⟨h.own, h.ran, fun h'' k' f hf => ?_, h.call⟩
  have := h.known h'' k' f
  change s.keyOf f = _
  simp only [State.learn] at hf
  grind

theorem Wf.forget (h : Wf s) (h' : Nat) (k : K) : Wf (s.learn h' k none) :=
  h.learn fun f hv => by cases hv

theorem Wf.popInFlight (h : Wf s) (h' : Nat) (k : K) : Wf (s.popInFlight h' k) := by
  rw [State.popInFlight]
  split
  · exact h.forget h' k
  · exact h

theorem Wf.install (h : Wf s) (h' : Nat) (k : K) (e : Nat) (ok : Bool) : Wf (s.install h' k e ok) := by
  rw [State.install]
  split
  · exact h.learn fun f hv => by cases hv
  · exact h.popInFlight h' k

theorem Wf.invalidate (h : Wf s) (h' : Nat) (k : K) : Wf (s.invalidate h' k) := by
  refine ⟨h.own, h.ran, (h.forget h' k).known, fun t x hx => ?_⟩
  obtain ⟨h1, h2, h3, h4, h5, h6⟩ := h.call t x hx
  have hle : s.epoch x.handle ≤ (s.invalidate h' k).epoch x.handle := by
    simp only [State.invalidate]
    grind
  exact ⟨fun f i hs => ⟨(h1 f i hs).1, fun e hi => ⟨((h1 f i hs).2 e hi).1, ((h1 f i hs).2 e hi).2.trans hle⟩⟩, h2, h3,
    fun e b hs => ⟨(h4 e b hs).1, (h4 e b hs).2.trans hle⟩, h5, h6⟩

theorem Wf.uploadInstall (h : Wf s) {z : Bool} {k : K} (hx : s.calls.lookup t = some x) (hr : x.request = .upload z k)
    (hs : x.stage = .looking 0) :
    Wf { (s.learn x.handle k (some (.inFlight t))).goOn t x (.awaiting t (some (s.epoch x.handle))) with
      flights := s.flights.insert t ⟨k, false, none⟩ } := by
  have hfresh : s.keyOf t = none := by
    by_contra hne
    obtain ⟨k', hk'⟩ := ne_none_iff_exists'.1 hne
    obtain ⟨x', -, hx', -, hstage⟩ := h.own t k' hk'
    grind [Stage.over]
  have hkeyOf : State.keyOf { (s.learn x.handle k (some (.inFlight t))).goOn t x (.awaiting t (some (s.epoch x.handle)))
      with flights := s.flights.insert t ⟨k, false, none⟩ } = fun f => if f = t then some k else s.keyOf f := by
    funext f
    grind [State.keyOf]
  obtain ⟨h1, h2, h3, h4⟩ := h
  refine ⟨?_, Table.forall_insert h2 (fun hres => by cases hres), ?_, ?_⟩ <;> rw [hkeyOf]
  · intro f k' hf
    by_cases hft : f = t
    · subst hft
      exact ⟨_, z, AList.lookup_insert _, by simpa [hr] using hf, .inr ⟨_, rfl⟩⟩
    · obtain ⟨x', z', hx', hrest⟩ := h1 f k' (by simpa [hft] using hf)
      exact ⟨x', z', by rw [State.goOn, AList.lookup_insert_ne hft]; exact hx', hrest⟩
  · intro h' k' f hf
    have := h3 h' k' f
    simp only [State.learn, State.goOn] at hf
    grind
  · refine Table.forall_insert (P := CallWf s.epoch _) (fun t' x' hx' => ?_) ?_
    · obtain ⟨h1, h2, h3, h4, h5, h6⟩ := h4 t' x' hx'
      constructor <;> grind
    · constructor <;> grind

theorem Wf.step (h : Wf s) {a : Act K} (hm : State.Moves s a s') : Wf s' := by
  cases hm with
  | @call t' h' r ht =>
    refine ⟨fun f k hf => ?_, h.ran, h.known, Table.forall_insert h.call ?_⟩
    · obtain ⟨x, z, hx, hrest⟩ := h.own f k hf
      exact ⟨x, z, by grind, hrest⟩
    · cases r <;> constructor <;> grind [Request.first]
  | uploadHit hx hr hs hfact | uploadMiss hx hr hs | existsHit hx hr hs hfact | existsMiss hx hr hs
  | wakeJoined hx hr hs hy hres =>
    refine h.goOn hx (by grind [Stage.over]) ?_
    constructor <;> grind
  | uploadJoin hx hr hs hf | existsJoin hx hr hs hf =>
    have := h.known _ _ _ hf
    refine h.goOn hx (by grind [Stage.over]) ?_
    constructor <;> grind
  | uploadInstall hx hr hs => exact h.uploadInstall hx hr hs
  | put hy hran hres =>
    have hset : ∀ k b, Wf (s.setPresent k b) := fun k b => ⟨h.own, h.ran, h.known, h.call⟩
    exact (hset _ _).fly hy rfl fun _ => rfl
  | settle hy hres hok => exact h.fly hy rfl (by simpa using hok)
  | wakeInstaller hx hr hs hy hres =>
    refine (h.install _ _ _ _).goOn (by rw [calls_install]; exact hx) (by grind [Stage.over]) ?_
    constructor <;> grind
  | wakeExists hx hs hy hres | snap hx hs | head hx hr hs | list hx hs hkeys | cancel hx hs hplain =>
    have := h.call _ _ hx
    refine h.goOn hx (by grind [Stage.over]) ?_
    constructor <;> grind [CallWf]
  | seedFound hx hr hs =>
    refine Wf.goOn ?_ (by split <;> exact hx) (by grind [Stage.over]) ?_
    · split
      · exact h.learn fun f hv => by cases hv
      · exact h
    · constructor <;> grind
  | @seedListed t x keys hx hs =>
    have hseed : Wf { s with
      known := fun h k => if h = x.handle ∧ k ∈ keys ∧ s.known h k = none then some .probed else s.known h k } := by
      refine ⟨h.own, h.ran, fun h' k' f hf => h.known h' k' f ?_, h.call⟩
      grind
    refine hseed.goOn hx (by grind [Stage.over]) ?_
    constructor <;> grind
  | takeVersioned hx hr hs | takeDelete hx hr hs =>
    have hset : ∀ k b, Wf (s.setPresent k b) := fun k b => ⟨h.own, h.ran, h.known, h.call⟩
    refine (hset _ _).goOn hx (by grind [Stage.over]) ?_
    constructor <;> grind
  | replyVersioned hx hr hs hok =>
    refine (h.invalidate _ _).goOn hx (by grind [Stage.over]) ?_
    constructor <;> grind
  | replyDelete hx hr hs hok =>
    refine Wf.goOn ?_ (by split <;> exact hx) (by grind [Stage.over]) ?_
    · split
      · exact h.invalidate _ _
      · exact h
    · constructor <;> grind
  | cancelGuarded hx hr hs =>
    refine (h.popInFlight _ _).goOn (by rw [calls_popInFlight]; exact hx) (by grind [Stage.over]) ?_
    constructor <;> grind
  | evict => exact h.forget _ _

theorem calls_kept {a : Act K} (hm : State.Moves s a s') (hx : s.calls.lookup t = some x) :
    ∃ x', s'.calls.lookup t = some x' ∧ x'.handle = x.handle ∧ x'.request = x.request ∧ (x.stage.over → x' = x) := by
  have hgoOn : ∀ (s1 : State K) t1 x1 stage, s1.calls = s.calls → s.calls.lookup t1 = some x1 →
      (x1.stage.over = false) → ∃ x', (s1.goOn t1 x1 stage).calls.lookup t = some x' ∧ x'.handle = x.handle ∧
        x'.request = x.request ∧ (x.stage.over → x' = x) := by
    intro s1 t1 x1 stage hcalls hx1 hover
    by_cases ht : t = t1
    · subst ht
      cases hx.symm.trans hx1
      exact ⟨_, AList.lookup_insert _, rfl, rfl, fun h => by rw [hover] at h; cases h⟩
    · exact ⟨x, by rw [State.goOn, hcalls, AList.lookup_insert_ne ht]; exact hx, rfl, rfl, fun _ => rfl⟩
  cases hm
  case call t' h' r ht => exact ⟨x, by grind, rfl, rfl, fun _ => rfl⟩
  case put | settle | evict => exact ⟨x, hx, rfl, rfl, fun _ => rfl⟩
  all_goals
    refine hgoOn _ _ _ _ ?_ ‹_› (by grind [Stage.over])
    first | rfl | exact calls_popInFlight _ _ _ | exact calls_install _ _ _ _ _ | (split <;> rfl)

theorem calls_kept_run {acts : List (Act K)} (hrun : (machine K).run s acts = some s') (hx : s.calls.lookup t = some x) :
    ∃ x', s'.calls.lookup t = some x' ∧ x'.handle = x.handle ∧ x'.request = x.request ∧ (x.stage.over → x' = x) := by
  let Kept (s' : State K) : Prop :=
    ∃ x', s'.calls.lookup t = some x' ∧ x'.handle = x.handle ∧ x'.request = x.request ∧ (x.stage.over → x' = x)
  suffices hstep : ∀ s1 a s2, Kept s1 → (machine K).step s1 a = some s2 → Kept s2 from
    Machine.run_inv' _ hstep ⟨x, hx, rfl, rfl, fun _ => rfl⟩ hrun
  rintro s1 a s2 ⟨x1, hx1, hh, hr, hover⟩ hs
  obtain ⟨x2, hx2, hh2, hr2, hover2⟩ := calls_kept (State.step_moves hs) hx1
  refine ⟨x2, hx2, hh2.trans hh, hr2.trans hr, fun h => ?_⟩
  have h1 := hover h
  subst h1
  exact hover2 h

end Thur.Store

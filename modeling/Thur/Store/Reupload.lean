import Thur.Store.Handles
import Thur.Stream.Pools
/-!
# Reupload — what the upload worker may take as stored

The upload worker keeps one handle for the life of the daemon, with the listing that seeds it; garbage collection,
migration and the other jobs delete through handles of their own, which the worker's memory never hears of. So a chunk
that was collected and written again may be a dedup hit (`stale_hit_marks_uploaded`).
-/
namespace Thur.Store

open Request

variable {K : Type}

inductive InertError
  | objectStore
  | io

def readAndUpload (read : Option Bool) (upload : Option Answer) : Option (Except InertError Bool) :=
  match read, upload with
  | none, _ | some true, none => none
  | some false, _ => some (.error .io)
  | some true, some .ok => some (.ok false)
  | some true, some _ => some (.error .objectStore)

/-- As a function of what its awaits came to; `none` still waits, a success says whether it was a dedup hit. -/
def uploadChunkInert (dedup : Stream.DedupScope) (probe : Option Answer) (read : Option Bool) (upload : Option Answer) :
    Option (Except InertError Bool) :=
  match dedup, probe with
  | .localScope, _ => readAndUpload read upload
  | .globalScope, none => none
  | .globalScope, some (.found true) => some (.ok true)
  | .globalScope, some (.found false) => readAndUpload read upload
  | .globalScope, some _ => some (.error .objectStore)

theorem uploadChunkInert_ok {dedup : Stream.DedupScope} {probe upload : Option Answer} {read : Option Bool} {hit : Bool}
    (h : uploadChunkInert dedup probe read upload = some (.ok hit)) : probe = some (.found true) ∨ upload = some .ok := by
  unfold uploadChunkInert readAndUpload at h
  repeat' split at h
  all_goals simp_all

namespace State

def InProgress (s : State K) (t : Nat) : Prop := ∃ x, s.calls.lookup t = some x ∧ x.stage.over = false

variable [DecidableEq K]

def tellsOf (s : State K) (k : K) (x : Call K) : Bool :=
  match x.request, x.stage with
  | .upload _ k', .awaiting f (some _) => k' = k && (s.flights.lookup f).any fun y => y.ran
  | .chunkExists k', .heading _ (some b) => k' = k && b
  | _, .listed keys => k ∈ keys
  | _, _ => false

def Forgotten (w : Nat) (k : K) (s : State K) : Prop :=
  s.known w k = none ∧ s.calls.All fun _ x => x.handle = w → s.tellsOf k x = false
deriving Decidable

/-- **When the worker's memory stays true**: a delete takes effect only on a key its handle has forgotten. -/
def reuploadOk (w : Nat) (s : State K) : Act K → Prop
  | .take t => ∀ x ∈ s.calls.lookup t, ∀ k ∈ x.request.deletes, Forgotten w k s
  | _ => True

instance (w : Nat) (s : State K) (a : Act K) : Decidable (reuploadOk w s a) := by
  apply Act.casesOn (motive := fun a => Decidable (reuploadOk w s a)) a <;> intros <;> unfold reuploadOk <;> infer_instance

end State

open State

/-- What a stage says of the bucket and of the calls that have `seen` their key there. -/
structure Told (present : K → Bool) (flights : Table (Flight K)) (seen : Nat → Prop) (t : Nat) (x : Call K) : Prop where
  awaiting : ∀ f i y, x.stage = .awaiting f i → flights.lookup f = some y → y.ran →
    seen t ∧ (i ≠ none → present y.key)
  coalesced : ∀ f y, x.stage = .coalesced f → flights.lookup f = some y → y.ran → seen t
  heading : ∀ k e, x.request = .chunkExists k → x.stage = .heading e (some true) → seen t ∧ present k
  listed : ∀ keys k, x.stage = .listed keys → k ∈ keys → present k
  returned : ∀ a, x.stage = .returned a → x.request.wants ≠ none → a = .ok ∨ a = .found true → seen t

structure Sound (w : Nat) (seen : Nat → Prop) (s : State K) : Prop where
  fact : ∀ k, s.known w k = some .probed ∨ s.known w k = some .uploaded → s.present k
  flight : ∀ k f y, s.known w k = some (.inFlight f) → s.flights.lookup f = some y → y.ran → s.present k
  told : ∀ t x, s.calls.lookup t = some x → x.handle = w → Told s.present s.flights seen t x

variable {w : Nat} {seen seen' : Nat → Prop} {s s' : State K} {t : Nat} {x : Call K}

theorem Sound.goOn (h : Sound w seen s) {stage : Stage K}
    (hnew : x.handle = w → Told s.present s.flights seen t { x with stage := stage }) : Sound w seen (s.goOn t x stage) :=
  ⟨h.fact, h.flight, Table.forall_insert h.told hnew⟩

theorem Sound.mono (h : Sound w seen s) (hseen : ∀ t, seen t → seen' t) : Sound w seen' s := by
  refine ⟨h.fact, h.flight, fun t x hx hw => ?_⟩
  obtain ⟨h1, h2, h3, h4, h5⟩ := h.told t x hx hw
  constructor <;> grind

theorem Sound.fly (h : Sound w seen s) {f : Nat} {y' : Flight K} (hwf : Wf s)
    (hkey : ∀ y, s.flights.lookup f = some y → y'.key = y.key)
    (hran : y'.ran → (∃ y, s.flights.lookup f = some y ∧ y.ran) ∨ s.present y'.key ∧
      ∀ t x, s.calls.lookup t = some x → (∀ i, x.stage = .awaiting f i → seen t) ∧ (x.stage = .coalesced f → seen t)) :
    Sound w seen { s with flights := s.flights.insert f y' } := by
  obtain ⟨h1, h2, h3⟩ := h
  refine ⟨h1, fun k f' y hf hy hy' => ?_, fun t x hx hw => ?_⟩
  · obtain ⟨y0, hy0, rfl⟩ := Option.map_eq_some_iff.1 (hwf.known w k f' hf)
    grind
  · obtain ⟨h1, h2, h3, h4, h5⟩ := h3 t x hx hw
    refine ⟨?_, ?_, h3, h4, h5⟩ <;> grind

theorem Told.of_plain {present : K → Bool} {flights : Table (Flight K)}
    (hplain : match x.stage with
      | .looking _ | .probing | .missed | .heading _ none | .sending _ | .listing | .cancelled | .returned .err => True
      | _ => False) : Told present flights seen t x := by
  constructor <;> grind

variable [DecidableEq K]

section

variable (h : Sound w seen s)
include h

theorem Sound.learn {h' : Nat} {k : K} {v : Option Fact}
    (hfact : h' = w → v = some .probed ∨ v = some .uploaded → s.present k)
    (hflight : ∀ f y, v = some (.inFlight f) → s.flights.lookup f = some y → y.ran = false) :
    Sound w seen (s.learn h' k v) := by
  refine ⟨fun k' hk' => ?_, fun k' f y hf hy hran => ?_, h.told⟩
  · have := h.fact k'
    simp only [State.learn] at hk' ⊢
    grind
  · have := h.flight k' f y
    simp only [State.learn] at hf hy ⊢
    grind

theorem Sound.forget (h' : Nat) (k : K) : Sound w seen (s.learn h' k none) :=
  h.learn (fun _ hv => by simp at hv) fun f y hv => by cases hv

theorem Sound.popInFlight (h' : Nat) (k : K) : Sound w seen (s.popInFlight h' k) := by
  rw [State.popInFlight]
  split
  · exact h.forget h' k
  · exact h

theorem Sound.invalidate (h' : Nat) (k : K) : Sound w seen (s.invalidate h' k) :=
  ⟨(h.forget h' k).fact, (h.forget h' k).flight, h.told⟩

theorem Sound.setPresent (k : K) : Sound w seen (s.setPresent k true) := by
  obtain ⟨h1, h2, h3⟩ := h
  simp only [State.setPresent]
  refine ⟨?_, ?_, fun t x hx hw => ?_⟩
  · grind
  · grind
  · obtain ⟨h1, h2, h3, h4, h5⟩ := h3 t x hx hw
    constructor <;> grind

theorem Sound.remove (hwf : Wf s) {k : K} (hk : Forgotten w k s) :
    Sound w seen (s.setPresent k false) := by
  obtain ⟨h1, h2, h3⟩ := h
  obtain ⟨hknown, hcalls⟩ := hk
  simp only [State.setPresent]
  refine ⟨?_, ?_, fun t x hx hw => ?_⟩
  · grind
  · have := hwf.known w
    grind [State.keyOf]
  · obtain ⟨h1, h2, h3, h4, h5⟩ := h3 t x hx hw
    have hquiet := hcalls.lookup hx hw
    have hcall := hwf.call t x hx
    constructor
    · intro f i y hs hy hran
      obtain ⟨⟨z, k', hr, hkey⟩, -⟩ := hcall.awaiting f i hs
      have hkey : y.key = k' := by simpa [State.keyOf, hy] using hkey
      cases i with
      | none => exact ⟨(h1 f none y hs hy hran).1, fun hne => absurd rfl hne⟩
      | some e =>
        have hne : k' ≠ k := by simpa [tellsOf, hr, hs, hy, hran] using hquiet
        grind
    · exact h2
    · grind [tellsOf]
    · grind [tellsOf]
    · exact h5

theorem Sound.step {a : Act K} (hwf : Wf s) (hok : reuploadOk w s a) (hm : Moves s a s')
    (hnow : ∀ t x k, s.calls.lookup t = some x → x.stage.over = false → x.request.wants = some k → s.present k → seen t)
    (hnow' : ∀ t x k, s'.calls.lookup t = some x → x.stage.over = false → x.request.wants = some k → s'.present k →
      seen' t) (hmono : ∀ t, seen t → seen' t) : Sound w seen' s' := by
  have h' := h.mono hmono
  cases hm with
  | call ht => exact ⟨h'.fact, h'.flight, Table.forall_insert h'.told (fun _ => .of_plain (by cases ‹Request K› <;> trivial))⟩
  | uploadMiss hx hr hs | existsMiss hx hr hs | snap hx hs | cancel hx hs hplain =>
    exact h'.goOn fun _ => .of_plain trivial
  | cancelGuarded hx hr hs => exact (h'.popInFlight _ _).goOn fun _ => .of_plain trivial
  | evict => exact h'.forget _ _
  | uploadHit hx hr hs hfact | existsHit hx hr hs hfact =>
    refine h'.goOn fun hw => ?_
    have := h.fact
    constructor <;> grind [wants, Stage.over]
  | uploadJoin hx hr hs hf | existsJoin hx hr hs hf =>
    refine h'.goOn fun hw => ?_
    have := h.flight
    constructor <;> grind [wants, Stage.over]
  | @uploadInstall t x z k hx hr hs =>
    have hkey : ∀ y, s.flights.lookup t = some y → k = y.key := by
      intro y hy
      obtain ⟨x', z', hx', hown, -⟩ := hwf.owner hy
      cases hx'.symm.trans hx
      cases hr.symm.trans hown
      rfl
    have hfly : Sound w seen' { s with flights := s.flights.insert t ⟨k, false, none⟩ } :=
      h'.fly hwf hkey fun hran => by cases hran
    have hlearn : Sound w seen' (State.learn { s with flights := s.flights.insert t ⟨k, false, none⟩ } x.handle k
        (some (.inFlight t))) := by
      refine hfly.learn ?_ ?_
      · grind
      · grind
    refine hlearn.goOn fun _ => ?_
    · change Told s.present (s.flights.insert t ⟨k, false, none⟩) seen' t _
      constructor <;> grind
  | @put f y hy hran hres =>
    refine (h'.setPresent y.key).fly ⟨hwf.own, hwf.ran, hwf.known, hwf.call⟩ (by grind [State.setPresent])
      fun _ => .inr ⟨?_, fun t x hx => ?_⟩
    · exact if_pos rfl
    · have hcall := hwf.call t x hx
      have hnow' := hnow' t x y.key hx
      constructor
      · intro i hs
        obtain ⟨⟨z, k, hr, hkey⟩, -⟩ := hcall.awaiting f i hs
        grind [State.keyOf, wants, Stage.over, State.setPresent]
      · intro hs
        obtain ⟨k, hr, hkey⟩ := hcall.coalesced f hs
        grind [State.keyOf, wants, Stage.over, State.setPresent]
  | settle hy hres hok =>
    refine h'.fly hwf ?_ ?_ <;> grind
  | wakeJoined hx hr hs hy hres =>
    have := hwf.ran _ _ hy
    have := (h'.told _ _ hx)
    refine h'.goOn fun hw => ?_
    constructor <;> grind [answer, Told]
  | @wakeInstaller t x z k f e y ok hx hr hs hy hres =>
    have hran := hwf.ran _ _ hy
    have htold := h'.told _ _ hx
    obtain ⟨⟨z', k', hr', hkey⟩, -⟩ := (hwf.call t x hx).awaiting f _ hs
    have hkey : y.key = k := by
      cases hr.symm.trans hr'
      simpa [State.keyOf, hy] using hkey
    refine Sound.goOn (?_ : Sound w seen' _) fun hw => ?_
    · rw [State.install]
      split
      · refine h'.learn ?_ ?_ <;> grind [Told]
      · exact h'.popInFlight _ _
    · have := htold hw
      constructor <;> grind [answer, Told]
  | wakeExists hx hs hy hres =>
    have := hwf.ran _ _ hy
    have := (h'.told _ _ hx)
    refine h'.goOn fun hw => ?_
    constructor <;> grind [Told]
  | head hx hr hs =>
    refine h'.goOn fun hw => ?_
    constructor <;> grind [wants, Stage.over]
  | seedFound hx hr hs =>
    have := (h'.told _ _ hx)
    refine Sound.goOn (?_ : Sound w seen' _) fun _ => ?_
    · split
      · refine h'.learn ?_ ?_
        · grind [Told]
        · grind
      · exact h'
    · constructor <;> grind [Told]
  | seedListed hx hs =>
    have htold := h'.told _ _ hx
    have hreq := (hwf.call _ _ hx).listed _ hs
    refine Sound.goOn (?_ : Sound w seen' _) fun _ => ?_
    · refine ⟨fun k hk => ?_, fun k f y hf => h'.flight k f y ?_, h'.told⟩
      · have := h'.fact k
        grind [Told]
      · grind
    · constructor <;> grind [wants]
  | takeVersioned hx hr hs => exact (h'.setPresent _).goOn fun _ => .of_plain trivial
  | takeDelete hx hr hs => exact (h'.remove hwf (hok _ hx _ (by rw [hr]; rfl))).goOn fun _ => .of_plain trivial
  | replyVersioned hx hr hs hok =>
    refine (h'.invalidate _ _).goOn fun _ => ?_
    constructor <;> grind [wants]
  | replyDelete hx hr hs hok =>
    refine Sound.goOn (?_ : Sound w seen' _) fun _ => ?_
    · split
      · exact h'.invalidate _ _
      · exact h'
    · constructor <;> grind [wants]
  | list hx hs hkeys =>
    refine h'.goOn fun _ => ?_
    constructor <;> grind

end

def Seen (present0 : K → Bool) (acts : List (Act K)) (t : Nat) : Prop :=
  ∃ pre s x k, pre <+: acts ∧ (machine K).run (init present0) pre = some s ∧ s.calls.lookup t = some x ∧
    x.stage.over = false ∧ x.request.wants = some k ∧ s.present k

theorem Seen.mono {present0 : K → Bool} {acts acts' : List (Act K)} (hpre : acts <+: acts') (h : Seen present0 acts t) :
    Seen present0 acts' t := by
  obtain ⟨pre, s, x, k, h, hrest⟩ := h
  exact ⟨pre, s, x, k, h.trans hpre, hrest⟩

theorem sound_run {present0 : K → Bool} {acts : List (Act K)} (hok : (machine K).Meets (reuploadOk w) (init present0) acts)
    (hrun : (machine K).run (init present0) acts = some s) : Wf s ∧ Sound w (Seen present0 acts) s := by
  refine Machine.run_inv_history (P := fun acts s => Wf s ∧ Sound w (Seen present0 acts) s) _ ?_ ⟨Wf.init present0, ?_⟩
    hok hrun
  · rintro acts s a s' hrun ⟨hwf, h⟩ hok hs
    have hm := step_moves hs
    have hrun' : (machine K).run (init present0) (acts ++ [a]) = some s' := by
      rw [Machine.run_append, hrun]
      exact (Machine.run_singleton _ s a).trans hs
    refine ⟨hwf.step hm, h.step hwf hok hm ?_ ?_ (fun t => Seen.mono (List.prefix_append acts [a]))⟩
    · exact fun t x k hx hover hk hp => ⟨acts, s, x, k, List.prefix_rfl, hrun, hx, hover, hk, hp⟩
    · exact fun t x k hx hover hk hp => ⟨acts ++ [a], s', x, k, List.prefix_rfl, hrun', hx, hover, hk, hp⟩
  · refine ⟨fun k hk => ?_, fun k f y hf => ?_, fun t x hx => ?_⟩
    · simp [init] at hk
    · cases hf
    · cases hx

/-- **A success of `upload_chunk_inert` means that the object was in the bucket during the call**, under `reuploadOk`.
Its probe is `t` and its upload `u`. -/
theorem uploaded_present (w : Nat) (present0 : K → Bool) (acts : List (Act K)) (s : State K)
    (hok : (machine K).Meets (reuploadOk w) (init present0) acts) (hrun : (machine K).run (init present0) acts = some s)
    (dedup : Stream.DedupScope) (k : K) (t u : Nat) (read : Option Bool) (hit : Bool)
    (hprobe : ∀ x, s.calls.lookup t = some x → x.handle = w ∧ x.request = .chunkExists k)
    (hupload : ∀ x, s.calls.lookup u = some x → x.handle = w ∧ x.request = .upload false k)
    (hret : uploadChunkInert dedup (s.answerOf t) read (s.answerOf u) = some (.ok hit)) :
    ∃ pre s1, pre <+: acts ∧ (machine K).run (init present0) pre = some s1 ∧ (s1.InProgress t ∨ s1.InProgress u) ∧
      s1.present k := by
  obtain ⟨-, hsound⟩ := sound_run hok hrun
  -- a call on `k` that came to a positive answer has seen the key
  have hseen : ∀ t x a, s.calls.lookup t = some x → x.handle = w → x.request.wants = some k → x.stage = .returned a →
      a = .ok ∨ a = .found true → ∃ pre s1, pre <+: acts ∧ (machine K).run (init present0) pre = some s1 ∧
        s1.InProgress t ∧ s1.present k := by
    intro t x a hx hw hk hs ha
    obtain ⟨pre, s1, x1, k1, ⟨rest, rfl⟩, hpre, hx1, hover, hk1, hp⟩ :=
      (hsound.told t x hx hw).returned a hs (by rw [hk]; exact Option.some_ne_none k) ha
    rw [Machine.run_append, hpre] at hrun
    obtain ⟨x', hx', -, hr, -⟩ := calls_kept_run hrun hx1
    cases hx'.symm.trans hx
    rw [hr, hk1] at hk
    cases hk
    exact ⟨pre, s1, List.prefix_append pre rest, hpre, ⟨x1, hx1, hover⟩, hp⟩
  rcases uploadChunkInert_ok hret with hfound | hput
  · obtain ⟨x, hx, hs⟩ := answerOf_eq_some hfound
    obtain ⟨pre, s1, hpre, hrun1, hin, hp⟩ := hseen t x _ hx (hprobe x hx).1 (by rw [(hprobe x hx).2]; rfl) hs (.inr rfl)
    exact ⟨pre, s1, hpre, hrun1, .inl hin, hp⟩
  · obtain ⟨x, hx, hs⟩ := answerOf_eq_some hput
    obtain ⟨pre, s1, hpre, hrun1, hin, hp⟩ := hseen u x _ hx (hupload x hx).1 (by rw [(hupload x hx).2]; rfl) hs (.inl rfl)
    exact ⟨pre, s1, hpre, hrun1, .inr hin, hp⟩

def againActs : List (Act Nat) :=
  [.call 0 0 (.upload false 7), .look 0, .look 0, .look 0, .put 0, .settle 0 true, .wake 0, .evict 0 7,
    .call 1 1 (.deleteObject 7), .take 1, .reply 1 true, .call 2 0 (.chunkExists 7), .look 2, .snap 2, .head 2 true,
    .seed 2, .call 3 0 (.upload false 7), .look 3, .look 3, .look 3, .put 3, .settle 3 true, .wake 3]

theorem uploaded_present_again : ∃ pre s1, pre <+: againActs ∧ (machine Nat).run (init fun _ => false) pre = some s1 ∧
    (s1.InProgress 2 ∨ s1.InProgress 3) ∧ s1.present 7 := by
  obtain ⟨s, hs, h2, h3, hprobe, hput⟩ : ∃ s ∈ (machine Nat).run (init fun _ => false) againActs,
      (∀ x ∈ s.calls.lookup 2, x.handle = 0 ∧ x.request = .chunkExists 7) ∧
      (∀ x ∈ s.calls.lookup 3, x.handle = 0 ∧ x.request = .upload false 7) ∧
      s.answerOf 2 = some (.found false) ∧ s.answerOf 3 = some .ok := by decide +kernel
  refine uploaded_present 0 (fun _ => false) _ s (by decide +kernel) hs .globalScope 7 2 3 (some true) false h2 h3 ?_
  rw [hprobe, hput]
  rfl

def collectedActs : List (Act Nat) :=
  [.call 0 0 .warmupPrefix, .list 0 [7] true, .seed 0, .call 1 1 (.deleteObject 7), .take 1, .reply 1 true,
    .call 2 0 (.chunkExists 7), .look 2]

/-- **A collected chunk that is written again is a dedup hit**, and its object is never in the bucket. -/
theorem stale_hit_marks_uploaded : ∃ s : State Nat, (machine Nat).run (init fun _ => true) collectedActs = some s ∧
    uploadChunkInert .globalScope (s.answerOf 2) none none = some (.ok true) ∧
    ∀ pre s1, pre <+: collectedActs → (machine Nat).run (init fun _ => true) pre = some s1 →
      (s1.calls.lookup 2).isSome → s1.present 7 = false := by
  refine Machine.ends_of (·.answerOf 2 = some (.found true)) (by decide +kernel) fun s hs ha =>
    ⟨by rw [ha]; rfl, fun pre s1 hpre hrun => ?_⟩
  have hall : ∀ pre ∈ collectedActs.inits, ∀ s1 ∈ (machine Nat).run (init fun _ => true) pre,
      (s1.calls.lookup 2).isSome → s1.present 7 = false := by decide +kernel
  exact hall pre ((List.mem_inits pre _).2 hpre) s1 hrun

end Thur.Store

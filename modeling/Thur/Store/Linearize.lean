import Thur.Store.Handles
/-!
# Linearize — the presence cache in one order

One handle and its clones over a bucket that nobody else deletes from. An upload is ordered where its PUT takes effect,
with the calls that await it; a hit where it looks; a probe where its HEAD reads; a delete where it pops the memory, or
just before the next PUT of its key. `Lin` keeps the order itself.
-/
namespace Thur.Store

open State List Stage Request Option AList Machine

variable {K : Type}

def Request.asks : Request K → Option K
  | .upload _ k | .chunkExists k | .uploadVersioned k => some k
  | _ => none

def Pending (calls : Table (Call K)) (I : Nat → Prop) (k : K) (d : Nat) : Prop :=
  ¬ I d ∧ ∃ x, calls.lookup d = some x ∧ x.request = .deleteObject k ∧ x.stage = .sending true

/-- Whether the call is `placed` in the order, and `R`, the bucket it leads to. -/
@[grind cases]
structure Placed (h0 : Nat) (placed : Prop) (R present : K → Bool) (epoch : Nat → Nat) (flights : Table (Flight K))
    (x : Call K) : Prop where
  looking : ∀ m, x.stage = .looking m → ¬ placed
  probing : x.stage = .probing → ¬ placed
  untaken : x.stage = .sending false → ¬ placed
  awaiting : ∀ f i y, x.stage = .awaiting f i → flights.lookup f = some y → y.ran →
    placed ∧ ∀ e, i = some e → x.handle = h0 → e = epoch h0 → R y.key
  coalesced : ∀ f y, x.stage = .coalesced f → flights.lookup f = some y → y.ran → placed
  heading : ∀ k e, x.request = .chunkExists k → x.stage = .heading e (some true) →
    placed ∧ (x.handle = h0 → e = epoch h0 → R k)
  versioned : ∀ k, x.request = .uploadVersioned k → x.stage = .sending true → placed
  deleting : ∀ k, x.request = .deleteObject k → x.stage = .sending true → ¬ placed → present k = false
  returned : ∀ a, x.stage = .returned a → placed
  handle : ∀ k, x.request = .deleteObject k → x.handle = h0

@[grind cases]
structure Ordered (h0 : Nat) (I : Nat → Prop) (R : K → Bool) (s : State K) : Prop where
  shown : ∀ k, s.present k → R k
  kept : ∀ k, R k → s.present k ∨ ∃ d, Pending s.calls I k d
  fact : ∀ k, s.known h0 k = some .probed ∨ s.known h0 k = some .uploaded → R k
  flight : ∀ k f y, s.known h0 k = some (.inFlight f) → s.flights.lookup f = some y → y.ran → R k
  unran : ∀ f y, s.flights.lookup f = some y → y.ran = false → y.result = none → ¬ I f
  call : ∀ t x, s.calls.lookup t = some x → Placed h0 (I t) R s.present s.epoch s.flights x

variable {h0 : Nat} {I I' : Nat → Prop} {R R' : K → Bool} {s s' : State K} {t : Nat} {x : Call K} {f : Nat}
  {stage : Stage K}

section

variable (h : Ordered h0 I R s)
include h

theorem Ordered.goOn (hx : s.calls.lookup t = some x)
    (hother : ∀ t', t' ≠ t → (I' t' ↔ I t')) (hsame : I t → I' t)
    (hpend : ∀ k, x.request = .deleteObject k → x.stage = .sending true → I t)
    (hunran : ∀ y, s.flights.lookup t = some y → y.ran = false → y.result = none → ¬ I' t)
    (hnew : Placed h0 (I' t) R s.present s.epoch s.flights { x with stage := stage }) :
    Ordered h0 I' R (s.goOn t x stage) := by
  refine ⟨h.shown, fun k hk => ?_, h.fact, h.flight, fun f y hy => ?_, fun t' x' hx' => ?_⟩
  · refine (h.kept k hk).imp_right ?_
    rintro ⟨d, hd, x', hx', hr, hs⟩
    have hne : d ≠ t := by
      rintro rfl
      cases hx'.symm.trans hx
      exact hd (hpend k hr hs)
    exact ⟨d, fun hi => hd ((hother d hne).1 hi), x', by rw [State.goOn, AList.lookup_insert_ne hne]; exact hx', hr, hs⟩
  · by_cases hf : f = t
    · subst hf
      exact hunran y hy
    · rw [hother f hf]
      exact h.unran f y hy
  · rcases Table.lookup_insert_some hx' with ⟨rfl, rfl⟩ | ⟨hne, hx'⟩
    · exact hnew
    · exact propext (hother t' hne) ▸ h.call t' x' hx'

theorem Ordered.stay (hx : s.calls.lookup t = some x)
    (hpend : x.request.deletes = none ∨ x.stage ≠ .sending true ∨ I t)
    (hnew : Placed h0 (I t) R s.present s.epoch s.flights { x with stage := stage }) : Ordered h0 I R (s.goOn t x stage) := by
  refine h.goOn hx (fun _ _ => Iff.rfl) id ?_ (fun y hy hran hres => h.unran t y hy hran hres) hnew
  grind [deletes]

theorem Ordered.close (hwf : Wf s) (hx : s.calls.lookup t = some x)
    (hpend : x.request.deletes = none ∨ x.stage ≠ .sending true ∨ I t)
    (hown : x.stage.over = false ∧ ∀ e, x.stage = .awaiting t (some e) → ∀ y, s.flights.lookup t = some y → y.result ≠ none)
    (hnew : Placed h0 True R s.present s.epoch s.flights { x with stage := stage }) :
    Ordered h0 (fun t' => I t' ∨ t' = t) R (s.goOn t x stage) := by
  refine h.goOn hx (fun t' ht => ?_) .inl ?_ (fun y hy hran hres => ?_) ?_
  · simp [ht]
  · grind [deletes]
  · have := hwf.owner hy
    grind
  · simpa using hnew

theorem Ordered.fly (hwf : Wf s) {y y' : Flight K} (hy : s.flights.lookup f = some y)
    (hkey : y'.key = y.key) (hsub : ∀ t, I t → I' t)
    (hnew : ∀ t, I' t → I t ∨ t = f ∨ ∃ x, s.calls.lookup t = some x ∧ (x.stage = .awaiting f none ∨ x.stage = .coalesced f))
    (hran : y'.ran → y.ran ∨ R y.key ∧ ∀ t x, s.calls.lookup t = some x →
      (∀ i, x.stage = .awaiting f i → I' t) ∧ (x.stage = .coalesced f → I' t))
    (hunran : y'.ran = false → y'.result ≠ none) :
    Ordered h0 I' R { s with flights := s.flights.insert f y' } := by
  refine ⟨h.shown, fun k hk => ?_, h.fact, fun k f' y1 hf hy1 hran1 => ?_, fun g y1 hg hran1 hres1 hi => ?_, fun t x hx => ?_⟩
  · refine (h.kept k hk).imp_right ?_
    rintro ⟨d, hd, x, hx, hr, hs⟩
    refine ⟨d, fun hi => ?_, x, hx, hr, hs⟩
    have := hwf.owner hy
    grind
  · obtain ⟨y0, hy0, rfl⟩ := map_eq_some_iff.1 (hwf.known h0 k f' hf)
    grind
  · rcases Table.lookup_insert_some hg with ⟨rfl, rfl⟩ | ⟨hne, hg⟩
    · exact hunran hran1 hres1
    · have := hwf.owner hg
      have := h.unran g y1 hg hran1 hres1
      grind [Stage.over]
  · have hc := h.call t x hx
    have hIt := hnew t
    have := hwf.owner hy
    have := hwf.call t x hx
    constructor <;> grind [Stage.over]

end

variable [DecidableEq K] {k : K} {ok : Bool}

section

variable (h : Ordered h0 I R s)
include h

theorem Ordered.learn {h' : Nat} {v : Option Fact}
    (hfact : h' = h0 → v = some .probed ∨ v = some .uploaded → R k)
    (hflight : ∀ f y, v = some (.inFlight f) → s.flights.lookup f = some y → y.ran = false) :
    Ordered h0 I R (s.learn h' k v) := by
  refine ⟨h.shown, h.kept, fun k' hk' => ?_, fun k' f y hf hy hran => ?_, h.unran, h.call⟩
  · have := h.fact k'
    simp only [State.learn] at hk'
    grind
  · have := h.flight k' f y
    simp only [State.learn] at hf hy
    grind

theorem Ordered.forget (h' : Nat) (k : K) : Ordered h0 I R (s.learn h' k none) :=
  h.learn (fun _ hv => by simp at hv) fun f y hv => by cases hv

theorem Ordered.popInFlight (h' : Nat) (k : K) : Ordered h0 I R (s.popInFlight h' k) := by
  rw [State.popInFlight]
  split
  · exact h.forget h' k
  · exact h

theorem Ordered.install {h' e : Nat}
    (hfact : ok → h' = h0 → s.epoch h0 = e → R k) : Ordered h0 I R (s.install h' k e ok) := by
  rw [State.install]
  split
  next hif =>
    refine h.learn (fun hh _ => ?_) fun f y hv => by cases hv
    subst hh
    exact hfact hif.1 rfl hif.2
  · exact h.popInFlight _ _

theorem Ordered.invalidate (hwf : Wf s) (h' : Nat) (k : K) : Ordered h0 I R (s.invalidate h' k) := by
  have hforget := h.forget h' k
  refine ⟨h.shown, h.kept, hforget.fact, hforget.flight, h.unran, fun t x hx => ?_⟩
  have hc := h.call t x hx
  obtain ⟨w1, -, -, w4, -, -⟩ := hwf.call t x hx
  have hle : ∀ e, e ≤ s.epoch h0 → e = (s.invalidate h' k).epoch h0 → e = s.epoch h0 := by
    simp only [State.invalidate]
    grind
  refine ⟨hc.looking, hc.probing, hc.untaken, ?_, hc.coalesced, ?_, hc.versioned, hc.deleting, hc.returned, hc.handle⟩
  · intro f i y hs hy hran
    refine ⟨(hc.awaiting f i y hs hy hran).1, fun e hi hh he => (hc.awaiting f i y hs hy hran).2 e hi hh (hle e ?_ he)⟩
    exact hh ▸ ((w1 f i hs).2 e hi).2
  · intro k e hr hs
    exact ⟨(hc.heading k e hr hs).1, fun hh he => (hc.heading k e hr hs).2 hh (hle e (hh ▸ (w4 e _ hs).2) he)⟩

theorem Ordered.store (hwf : Wf s) (hI : ∀ t, I' t ↔ I t ∨ Pending s.calls I k t)
    (hR : ∀ k', R' k' = if k' = k then true else R k') : Ordered h0 I' R' (s.setPresent k true) := by
  have hup : ∀ k', R k' → R' k' := by
    intro k' hk'
    rw [hR]
    split
    · rfl
    · exact hk'
  refine ⟨fun k' hk' => ?_, fun k' hk' => ?_, fun k' hf => hup k' (h.fact k' hf),
    fun k' f y hf hy hr => hup k' (h.flight k' f y hf hy hr),
    fun f y hy hran hres hf => ?_, fun t x hx => ?_⟩
  · simp only [setPresent] at hk'
    grind
  · simp only [setPresent]
    rw [hR] at hk'
    split at hk'
    next heq => exact .inl (if_pos heq)
    next hne =>
      rw [if_neg hne]
      refine (h.kept k' hk').imp_right ?_
      rintro ⟨d, hd, x, hx, hr, hs⟩
      refine ⟨d, fun hi => ?_, x, hx, hr, hs⟩
      grind [Pending]
  · have hy : s.flights.lookup f = some y := hy
    have := hwf.owner hy
    grind [Pending]
  · have hx : s.calls.lookup t = some x := hx
    have hc := h.call t x hx
    have hIt := hI t
    simp only [setPresent]
    constructor <;> grind [Pending]

theorem Ordered.drop (hwf : Wf s) (hx : s.calls.lookup t = some x)
    (hr : x.request = .deleteObject k) (hs : x.stage = .sending true) (ht : ¬ I t) (hI : ∀ t', I' t' ↔ I t' ∨ t' = t)
    (hR : ∀ k', R' k' = if k' = k then false else R k') :
    Ordered h0 I' R' ((s.invalidate h0 k).goOn t x (.returned .ok)) := by
  have hgone : s.present k = false := (h.call t x hx).deleting k hr hs ht
  have hknown : ∀ k', (s.invalidate h0 k).known h0 k' = if k' = k then none else s.known h0 k' := by
    intro k'
    simp [State.invalidate, State.learn]
  refine ⟨fun k' hk' => ?_, fun k' hk' => ?_, fun k' hf => ?_, fun k' f y hf hy hran => ?_, fun f y hy hran hres hi => ?_, ?_⟩
  · have hk' : s.present k' := hk'
    grind
  · rw [hR] at hk'
    refine (h.kept k' (by grind)).imp_right ?_
    rintro ⟨d, hd, x', hx', hr', hs'⟩
    refine ⟨d, fun hi => ?_, x', ?_, hr', hs'⟩
    · grind
    · have hne : d ≠ t := by grind
      rw [State.goOn, AList.lookup_insert_ne hne]
      exact hx'
  · have hf : (s.invalidate h0 k).known h0 k' = _ ∨ (s.invalidate h0 k).known h0 k' = _ := hf
    grind
  · have hf : (s.invalidate h0 k).known h0 k' = _ := hf
    have hy : s.flights.lookup f = some y := hy
    grind
  · have hy : s.flights.lookup f = some y := hy
    have := hwf.owner hy
    grind
  · have hepoch : (s.invalidate h0 k).epoch h0 = s.epoch h0 + 1 := by simp [State.invalidate]
    refine Table.forall_insert (P := fun t x => Placed h0 (I' t) R' s.present (s.invalidate h0 k).epoch s.flights x)
      (fun t' x' hx' => ?_) ?_
    · have hx' : s.calls.lookup t' = some x' := hx'
      have hc := h.call t' x' hx'
      obtain ⟨w1, -, -, w4, -, -⟩ := hwf.call t' x' hx'
      have hIt := hI t'
      constructor <;> grind
    · have := (h.call t x hx).handle
      constructor <;> grind

end

def Stage.keys : Stage K → List K
  | .listed keys => keys
  | _ => []

namespace State

def dead (s : State K) (h : Nat) (k : K) : Bool :=
  match s.known h k with
  | some (.inFlight f) => (s.flights.lookup f).any fun y => y.result = some false
  | _ => false

end State

/-- Dropped here, it leaves the memory of a deleted object, or a PUT that nobody removes. -/
def Call.strands (x : Call K) : Bool :=
  match x.request, x.stage with
  | .deleteObject _, .sending true | .upload true _, .awaiting _ (some _) => true
  | _, _ => false

/-- **When the presence cache is linearizable**: only `h0` deletes, no delete fails after its effect, the warm-up seeds
keys still there, no zero-copy upload is dropped in flight, and no call meets a failed PUT. -/
def linearizeOk (h0 : Nat) (s : State K) : Act K → Prop
  | .call _ h r => r.deletes ≠ none → h = h0
  | .look t => ∀ x ∈ s.calls.lookup t, x.handle = h0 → ∀ k ∈ x.request.wants, s.dead h0 k = false
  | .seed t => ∀ x ∈ s.calls.lookup t, x.handle = h0 → ∀ k ∈ x.stage.keys, s.present k
  | .reply t ok => ∀ x ∈ s.calls.lookup t, x.request.deletes ≠ none → x.stage = .sending true → ok = true
  | .cancel t => ∀ x ∈ s.calls.lookup t, x.handle = h0 → x.strands = false
  | _ => True

instance (h0 : Nat) (s : State K) (a : Act K) : Decidable (linearizeOk h0 s a) := by
  apply Act.casesOn (motive := fun a => Decidable (linearizeOk h0 s a)) a <;> intros <;> unfold linearizeOk <;> infer_instance

/-! ## The order -/

/-- The change of the bucket that the call makes; the latest comes first. -/
abbrev Entry (K : Type) := Nat × Option (K × Bool)

def ids (o : List (Entry K)) : List Nat := o.map Prod.fst

def replay (p : K → Bool) : List (Entry K) → K → Bool
  | [] => p
  | (_, none) :: o => replay p o
  | (_, some (k, b)) :: o => fun k' => if k' = k then b else replay p o k'

def Legal (p : K → Bool) (G : Entry K → (K → Bool) → Prop) : List (Entry K) → Prop
  | [] => True
  | e :: o => G e (replay p (e :: o)) ∧ Legal p G o

theorem Legal.mono {p : K → Bool} {G G' : Entry K → (K → Bool) → Prop} : ∀ {o : List (Entry K)}, Legal p G o →
    (∀ e ∈ o, ∀ r, G e r → G' e r) → Legal p G' o
  | [], _, _ => trivial
  | e :: _, h, hG => ⟨hG e List.mem_cons_self _ h.1, h.2.mono (fun e he => hG e (List.mem_cons_of_mem _ he))⟩

theorem Legal.map {p : K → Bool} {G : Entry K → (K → Bool) → Prop} {o : List (Entry K)} (h : Legal p G o)
    (v : Option (K × Bool)) : ∀ {l : List Nat},
    (∀ t ∈ l, ∀ l' : List Nat, G (t, v) (replay p ((t :: l').map (fun t => (t, v)) ++ o))) →
      Legal p G (l.map (fun t => (t, v)) ++ o)
  | [], _ => h
  | t :: l, hG => ⟨hG t List.mem_cons_self l, h.map v (fun t ht => hG t (List.mem_cons_of_mem _ ht))⟩

theorem replay_none (p : K → Bool) (l : List Nat) (o : List (Entry K)) :
    replay p (l.map (fun t => (t, none)) ++ o) = replay p o := by
  induction l with
  | nil => rfl
  | cons t l ih => exact ih

theorem replay_some (p : K → Bool) (l : List Nat) (o : List (Entry K)) {k k' : K} (b : Bool) (hk : k' ≠ k) :
    replay p (l.map (fun t => (t, some (k, b))) ++ o) k' = replay p o k' := by
  induction l with
  | nil => rfl
  | cons t l ih => exact (if_neg hk).trans ih

omit [DecidableEq K] in
theorem ids_map (v : Option (K × Bool)) (l : List Nat) : ids (l.map (fun t => (t, v))) = l := by
  rw [ids, List.map_map]
  exact List.map_id l

/-- A delete makes a change unless it fails without effect; an upload that makes none found the object there. -/
def Suits (x : Call K) (v : Option (K × Bool)) : Prop :=
  match x.request with
  | .upload _ k | .uploadVersioned k => v = none ∨ v = some (k, true)
  | .deleteObject k => v = some (k, false) ∨ v = none ∧ x.stage = .returned .err
  | .chunkExists _ | .warmupPrefix => v = none

/-- The key of an upload or probe through `h0` is there, unless it was answered otherwise. -/
def Says (h0 : Nat) (calls : Table (Call K)) (e : Entry K) (r : K → Bool) : Prop :=
  ∀ x, calls.lookup e.1 = some x → Suits x e.2 ∧
    (x.handle = h0 → x.stage ≠ .returned .err → x.stage ≠ .returned (.found false) → ∀ k, x.request.asks = some k → r k)

structure Lin (h0 : Nat) (p : K → Bool) (s : State K) (o : List (Entry K)) : Prop where
  nodup : (ids o).Nodup
  called : ∀ t ∈ ids o, s.calls.lookup t ≠ none
  legal : Legal p (Says h0 s.calls) o
  ordered : Ordered h0 (fun t => t ∈ ids o) (replay p o) s

variable {p : K → Bool} {o : List (Entry K)} {a : Act K} {acts : List (Act K)} {y : Flight K}

theorem Lin.legal_kept (h : Lin h0 p s o) (hm : Moves s a s') : Legal p (Says h0 s'.calls) o := by
  refine h.legal.mono fun e he r hsaid x' hx' => ?_
  obtain ⟨x, hx⟩ := ne_none_iff_exists'.1 (h.called e.1 (mem_map_of_mem he))
  obtain ⟨x'', hx'', hh, hr, hover⟩ := calls_kept hm hx
  cases hx''.symm.trans hx'
  obtain ⟨hsuit, hkey⟩ := hsaid x hx
  rw [hh, hr]
  refine ⟨?_, fun h1 h2 h3 => hkey h1 (fun h => ?_) (fun h => ?_)⟩
  · unfold Suits at hsuit ⊢
    rw [hr]
    split at hsuit <;> grind [Stage.over]
  all_goals
    have := hover (by rw [h]; rfl)
    grind

theorem Lin.called_kept (h : Lin h0 p s o) (hm : Moves s a s') : ∀ t ∈ ids o, s'.calls.lookup t ≠ none := by
  intro t ht
  obtain ⟨x, hx⟩ := ne_none_iff_exists'.1 (h.called t ht)
  obtain ⟨x', hx', -⟩ := calls_kept hm hx
  rw [hx']
  exact some_ne_none x'

theorem Lin.keep (h : Lin h0 p s o) (hm : Moves s a s') (hord : Ordered h0 (fun t => t ∈ ids o) (replay p o) s') :
    ∃ o', o <:+ o' ∧ Lin h0 p s' o' :=
  ⟨o, suffix_rfl, h.nodup, h.called_kept hm, h.legal_kept hm, hord⟩

theorem Lin.close (h : Lin h0 p s o) (hm : Moves s a s')
    (hord : Ordered h0 (fun t' => t' ∈ ids o ∨ t' = t) (replay p o) s') (ht : s'.calls.lookup t ≠ none)
    (hsaid : t ∉ ids o → Says h0 s'.calls (t, none) (replay p o)) : ∃ o', o <:+ o' ∧ Lin h0 p s' o' := by
  by_cases hmem : t ∈ ids o
  · refine h.keep hm ?_
    have heq : (fun t' => t' ∈ ids o ∨ t' = t) = fun t' => t' ∈ ids o := by grind
    rwa [heq] at hord
  · refine ⟨(t, none) :: o, suffix_cons _ o, nodup_cons.2 ⟨hmem, h.nodup⟩, ?_, ⟨hsaid hmem, h.legal_kept hm⟩, ?_⟩
    · exact forall_mem_cons.2 ⟨ht, h.called_kept hm⟩
    · have heq : (fun t' => t' ∈ ids o ∨ t' = t) = fun t' => t' ∈ ids ((t, none) :: o) := by
        funext t'
        simp [ids, or_comm]
      rwa [heq] at hord

def pending (s : State K) (o : List (Entry K)) (k : K) : List Nat :=
  s.calls.keys.filter fun d => d ∉ ids o ∧ ∃ x ∈ s.calls.lookup d, x.request = .deleteObject k ∧ x.stage = .sending true

theorem mem_pending {d : Nat} : d ∈ pending s o k ↔ Pending s.calls (fun t => t ∈ ids o) k d := by
  rw [pending, mem_filter, decide_eq_true_eq]
  constructor
  · rintro ⟨-, hd, x, hx, hr, hs⟩
    exact ⟨hd, x, hx, hr, hs⟩
  · rintro ⟨hd, x, hx, hr, hs⟩
    refine ⟨?_, hd, x, hx, hr, hs⟩
    exact mem_keys.1 (lookup_isSome.1 (by rw [hx]; rfl))

theorem nodup_pending (k : K) : (pending s o k).Nodup := s.calls.nodupKeys.filter _

def flush (s : State K) (o : List (Entry K)) (k : K) : List (Entry K) :=
  (pending s o k).map (fun d => (d, some (k, false))) ++ o

theorem suffix_flush (k : K) : o <:+ flush s o k := suffix_append _ o

theorem mem_flush : t ∈ ids (flush s o k) ↔ t ∈ ids o ∨ Pending s.calls (fun t => t ∈ ids o) k t := by
  rw [flush, ids, map_append, mem_append, ← mem_pending]
  exact or_comm.trans (or_congr_right (by rw [← ids, ids_map]))

theorem Lin.nodup_flush (h : Lin h0 p s o) (k : K) : (ids (flush s o k)).Nodup := by
  rw [flush, ids, map_append]
  refine nodup_append'.2 ⟨?_, h.nodup, ?_⟩
  · rw [← ids, ids_map]
    exact nodup_pending k
  · intro t ht hto
    rw [← ids, ids_map, mem_pending] at ht
    exact ht.1 hto

theorem Lin.called_flush (h : Lin h0 p s o) (hm : Moves s a s') (k : K) :
    ∀ t ∈ ids (flush s o k), s'.calls.lookup t ≠ none := by
  intro t ht
  rcases mem_flush.1 ht with ht | ⟨-, x, hx, -⟩
  · exact h.called_kept hm t ht
  · obtain ⟨x', hx', -⟩ := calls_kept hm hx
    rw [hx']
    exact some_ne_none x'

theorem Lin.legal_flush (h : Lin h0 p s o) (hm : Moves s a s') (k : K) : Legal p (Says h0 s'.calls) (flush s o k) := by
  refine (h.legal_kept hm).map _ fun d hd l x' hx' => ?_
  obtain ⟨-, x, hx, hr, -⟩ := mem_pending.1 hd
  obtain ⟨x'', hx'', -, hr', -⟩ := calls_kept hm hx
  cases hx''.symm.trans hx'
  rw [hr] at hr'
  rw [Suits, hr']
  refine ⟨.inl rfl, fun _ _ _ k' hk' => ?_⟩
  cases hk'

theorem replay_flush (s : State K) (k k' : K) (t : Nat) :
    replay p ((t, some (k, true)) :: flush s o k) k' = if k' = k then true else replay p o k' := by
  simp only [replay]
  split
  · rfl
  next hk => exact replay_some p _ o false hk

def waiters (s : State K) (o : List (Entry K)) (f : Nat) : List Nat :=
  s.calls.keys.filter fun t => t ∉ ids o ∧ ∃ x ∈ s.calls.lookup t, x.stage = .awaiting f none ∨ x.stage = .coalesced f

theorem mem_waiters : t ∈ waiters s o f ↔
    t ∉ ids o ∧ ∃ x, s.calls.lookup t = some x ∧ (x.stage = .awaiting f none ∨ x.stage = .coalesced f) := by
  rw [waiters, mem_filter, decide_eq_true_eq]
  constructor
  · rintro ⟨-, ht, x, hx, hs⟩
    exact ⟨ht, x, hx, hs⟩
  · rintro ⟨ht, x, hx, hs⟩
    refine ⟨?_, ht, x, hx, hs⟩
    exact mem_keys.1 (lookup_isSome.1 (by rw [hx]; rfl))

section

variable (h : Lin h0 p s o)
include h

/-- **A PUT takes effect** after the deletes before it, and before every call that awaits it. -/
theorem Lin.put (hwf : Wf s) (hy : s.flights.lookup f = some y)
    (hran : y.ran = false) (hres : y.result = none) :
    ∃ o', o <:+ o' ∧ Lin h0 p { s.setPresent y.key true with flights := s.flights.insert f { y with ran := true } } o' := by
  have hm : Moves s (.put f) _ := .put hy hran hres
  obtain ⟨x0, z0, hx0, hr0, hs0⟩ := hwf.owner hy
  have hf : f ∉ ids (flush s o y.key) := by
    have := h.ordered.unran f y hy hran hres
    rw [mem_flush]
    grind [Pending]
  have hwait : ∀ t ∈ waiters s o f, t ≠ f ∧ t ∉ ids (flush s o y.key) := by
    intro t ht
    have := mem_waiters.1 ht
    rw [mem_flush]
    grind [Pending, Stage.over]
  have hmem : ∀ {t}, t ∈ ids ((waiters s o f).map (fun t => (t, none)) ++ (f, some (y.key, true)) :: flush s o y.key) ↔
      t ∈ waiters s o f ∨ t = f ∨ t ∈ ids (flush s o y.key) := by
    intro t
    rw [ids, map_append, ← ids, ids_map, mem_append]
    exact or_congr_right mem_cons
  have hsaid : Legal p (Says h0 s.calls) ((f, some (y.key, true)) :: flush s o y.key) := by
    refine ⟨fun x hx => ?_, h.legal_flush hm _⟩
    cases hx0.symm.trans hx
    rw [Suits, hr0]
    refine ⟨.inr rfl, fun _ _ _ k hk => ?_⟩
    cases hk
    exact if_pos rfl
  refine ⟨_, ((suffix_flush _).trans (suffix_cons _ _)).trans (suffix_append _ _), ?_, fun t ht => ?_,
    hsaid.map none (l := waiters s o f) (fun t ht l x hx => ?_), ?_⟩
  · rw [ids, map_append, ← ids, ids_map]
    refine nodup_append'.2 ⟨s.calls.nodupKeys.filter _, nodup_cons.2 ⟨hf, h.nodup_flush _⟩, fun t ht hto => ?_⟩
    rcases mem_cons.1 hto with rfl | hto
    · exact (hwait t ht).1 rfl
    · exact (hwait t ht).2 hto
  · rcases hmem.1 ht with ht | rfl | ht
    · obtain ⟨-, x, hx, -⟩ := mem_waiters.1 ht
      exact ne_of_eq_of_ne hx (some_ne_none x)
    · exact ne_of_eq_of_ne hx0 (some_ne_none x0)
    · exact h.called_flush hm _ t ht
  · obtain ⟨-, x', hx', hs⟩ := mem_waiters.1 ht
    cases hx'.symm.trans hx
    have hcall := hwf.call t x hx'
    have hkeyOf : s.keyOf f = some y.key := by rw [keyOf, hy]; rfl
    have hat : replay p ((f, some (y.key, true)) :: flush s o y.key) y.key := if_pos rfl
    rw [replay_none]
    rcases hs with hs | hs
    · obtain ⟨⟨z, k, hr, hkey⟩, -⟩ := hcall.awaiting f none hs
      rw [Suits, hr]
      grind [asks]
    · obtain ⟨k, hr, hkey⟩ := hcall.coalesced f hs
      rw [Suits, hr]
      grind [asks]
  · have hstore := h.ordered.store hwf (fun t => mem_flush) (fun k' => replay_flush s y.key k' f)
    rw [replay_none]
    refine hstore.fly ⟨hwf.own, hwf.ran, hwf.known, hwf.call⟩ hy rfl (fun t ht => hmem.2 (.inr (.inr ht))) (fun t ht => ?_)
      (fun _ => .inr ⟨if_pos rfl, fun t x hx => ?_⟩) fun hfalse => by cases hfalse
    · have := hmem.1 ht
      rw [mem_waiters] at this
      grind [setPresent]
    · have hx : s.calls.lookup t = some x := hx
      have hcall := hwf.call t x hx
      have hwaits : x.stage = .awaiting f none ∨ x.stage = .coalesced f → t ∈ waiters s o f ∨ t ∈ ids o := by
        intro hs
        rw [mem_waiters]
        grind
      have hold : t ∈ ids o → t ∈ ids (flush s o y.key) := fun ht => mem_flush.2 (.inl ht)
      rw [hmem]
      refine ⟨fun i hs => ?_, fun hs => ?_⟩
      · have := (hcall.awaiting f i hs).2
        cases i <;> grind
      · grind

theorem Lin.closeAt {s1 : State K} (hm : Moves s a (s1.goOn t x stage))
    (hord : Ordered h0 (fun t => t ∈ ids o) (replay p o) s1) (hwf : Wf s1) (hx : s1.calls.lookup t = some x)
    (hpend : x.request.deletes = none ∨ x.stage ≠ .sending true)
    (hown : x.stage.over = false ∧ ∀ e, x.stage = .awaiting t (some e) → ∀ y, s1.flights.lookup t = some y → y.result ≠ none)
    (hnew : Placed h0 True (replay p o) s1.present s1.epoch s1.flights { x with stage := stage })
    (hsuit : Suits { x with stage := stage } none)
    (hkey : t ∉ ids o → x.handle = h0 → stage ≠ .returned .err → stage ≠ .returned (.found false) →
      ∀ k, x.request.asks = some k → replay p o k) : ∃ o', o <:+ o' ∧ Lin h0 p (s1.goOn t x stage) o' := by
  have hlook : (s1.goOn t x stage).calls.lookup t = some { x with stage := stage } := lookup_insert _
  refine h.close hm (hord.close hwf hx (hpend.imp_right .inl) hown hnew) (by rw [hlook]; exact some_ne_none _) ?_
  intro ht x' hx'
  cases hlook.symm.trans hx'
  exact ⟨hsuit, hkey ht⟩

section

variable (hwf : Wf s)
include hwf

theorem Lin.look (hm : Moves s (.look t) s') : ∃ o', o <:+ o' ∧ Lin h0 p s' o' := by
  have hord := h.ordered
  have hm' := hm
  cases hm with
  | uploadMiss hx hr hs | existsMiss hx hr hs =>
    have := hord.call _ _ hx
    refine h.keep hm' (hord.stay hx ?_ ?_)
    · grind
    · constructor <;> grind [Placed]
  | uploadHit hx hr hs hfact | existsHit hx hr hs hfact =>
    refine h.closeAt hm' hord hwf hx (by grind) (by grind [Stage.over]) ?_ (by grind [Suits]) ?_
    · constructor <;> grind
    · have := hord.fact
      grind [asks]
  | uploadJoin hx hr hs hf | existsJoin hx hr hs hf =>
    obtain ⟨y, hy, hkey⟩ := map_eq_some_iff.1 (hwf.known _ _ _ hf)
    have hc := hord.call _ _ hx
    by_cases hran : y.ran
    · refine h.closeAt hm' hord hwf hx (by grind) (by grind [Stage.over]) ?_ (by grind [Suits]) ?_
      · constructor <;> grind
      · have := hord.flight
        grind [asks]
    · refine h.keep hm' (hord.stay hx (by grind) ?_)
      constructor <;> grind
  | @uploadInstall t x z k hx hr hs =>
    have hc := hord.call _ _ hx
    have hfly : Ordered h0 (fun t => t ∈ ids o) (replay p o) { s with flights := s.flights.insert t ⟨k, false, none⟩ } := by
      refine ⟨hord.shown, hord.kept, hord.fact, fun k' f y hf hy => ?_, fun f y hy => ?_, fun t' x' hx' => ?_⟩
      · have := hord.flight k' f y hf
        grind
      · have := hord.unran f y
        have := hc.looking 0 hs
        grind
      · have hc := hord.call t' x' hx'
        constructor <;> grind
    have hlearn : Ordered h0 (fun t => t ∈ ids o) (replay p o)
        (learn { s with flights := s.flights.insert t ⟨k, false, none⟩ } x.handle k (some (.inFlight t))) :=
      hfly.learn (by grind) (by grind)
    refine h.keep hm' (hlearn.stay hx (by grind) ?_)
    change Placed h0 (t ∈ ids o) (replay p o) s.present s.epoch (s.flights.insert t ⟨k, false, none⟩) _
    constructor <;> grind

theorem Lin.wakeExists (hx : s.calls.lookup t = some x)
    (hs : x.stage = .coalesced f) (hy : s.flights.lookup f = some y) (hres : y.result = some ok) :
    ∃ o', o <:+ o' ∧ Lin h0 p (s.goOn t x (if ok then .returned (.found true) else .missed)) o' := by
  have hm : Moves s (.wake t) _ := .wakeExists hx hs hy hres
  have hc := (h.ordered.call _ _ hx).coalesced f y hs hy
  have hran := hwf.ran _ _ hy
  obtain ⟨k, hr, -⟩ := (hwf.call t x hx).coalesced f hs
  cases ok with
  | true =>
    refine h.closeAt hm h.ordered hwf hx (by grind) (by grind [Stage.over]) ?_ (by grind [Suits]) (by grind)
    constructor <;> grind
  | false =>
    refine h.keep hm (h.ordered.stay hx (by grind) ?_)
    constructor <;> grind

theorem Lin.wake (hm : Moves s (.wake t) s') : ∃ o', o <:+ o' ∧ Lin h0 p s' o' := by
  have hord := h.ordered
  have hm' := hm
  cases hm with
  | wakeJoined hx hr hs hy hres =>
    have := (hord.call _ _ hx).awaiting
    have := hwf.ran _ _ hy
    refine h.closeAt hm' hord hwf hx (by grind) (by grind [Stage.over]) ?_ (by grind [Suits]) ?_
    · constructor <;> grind
    · grind [answer]
  | @wakeInstaller t x z k f e y ok hx hr hs hy hres =>
    have hc := (hord.call _ _ hx).awaiting f (some e) y hs hy
    have hran := hwf.ran _ _ hy
    obtain ⟨⟨z', k', hr', hkey⟩, howner⟩ := (hwf.call t x hx).awaiting f _ hs
    have hkey : y.key = k := by
      cases hr.symm.trans hr'
      simpa [keyOf, hy] using hkey
    have hord' : Ordered h0 (fun t => t ∈ ids o) (replay p o) (s.install x.handle k e ok) := hord.install (by grind)
    have hwf' := hwf.install x.handle k e ok
    obtain ⟨kn, hkn⟩ := install_eq s x.handle k e ok
    rw [hkn] at hord' hwf' hm' ⊢
    refine h.closeAt hm' hord' hwf' hx (by grind) ⟨by grind [Stage.over], by grind⟩ ?_ (by grind [Suits]) ?_
    · constructor <;> grind
    · grind [answer]
  | wakeExists hx hs hy hres => exact h.wakeExists hwf hx hs hy hres

theorem Lin.head (hm : Moves s (.head t ok) s') :
    ∃ o', o <:+ o' ∧ Lin h0 p s' o' := by
  have hord := h.ordered
  have hm' := hm
  cases hm with
  | @head t ok x k e hx hr hs =>
    cases ok with
    | false =>
      refine h.closeAt hm' hord hwf hx (by grind) (by grind [Stage.over]) ?_ (by grind [Suits]) (by grind)
      constructor <;> grind
    | true =>
      have hc := hord.call _ _ hx
      have hshown := hord.shown k
      cases hp : s.present k with
      | true =>
        rw [hp] at hm' hshown
        refine h.closeAt hm' hord hwf hx (by grind) (by grind [Stage.over]) ?_ (by grind [Suits]) (by grind [asks])
        constructor <;> grind
      | false =>
        rw [hp] at hm'
        refine h.keep hm' (hord.stay hx (by grind) ?_)
        constructor <;> grind

theorem Lin.seed (hok : linearizeOk h0 s (.seed t)) (hm : Moves s (.seed t) s') :
    ∃ o', o <:+ o' ∧ Lin h0 p s' o' := by
  have hord := h.ordered
  have hm' := hm
  cases hm with
  | @seedFound t x k e b hx hr hs =>
    have hc := (hord.call _ _ hx).heading k e hr
    have hord' : Ordered h0 (fun t => t ∈ ids o) (replay p o) (if b ∧ s.epoch x.handle = e ∧ s.known x.handle k = none
        then s.learn x.handle k (some .probed) else s) := by
      split
      · refine hord.learn ?_ ?_ <;> grind
      · exact hord
    have hwf' : Wf (if b ∧ s.epoch x.handle = e ∧ s.known x.handle k = none
        then s.learn x.handle k (some .probed) else s) := by
      split
      · exact hwf.learn fun f hv => by cases hv
      · exact hwf
    obtain ⟨kn, hkn⟩ : ∃ kn, (if b ∧ s.epoch x.handle = e ∧ s.known x.handle k = none
        then s.learn x.handle k (some .probed) else s) = { s with known := kn } := by
      split
      · exact ⟨_, rfl⟩
      · exact ⟨s.known, rfl⟩
    rw [hkn] at hord' hwf' hm' ⊢
    refine h.closeAt hm' hord' hwf' hx (by grind) (by grind [Stage.over]) ?_ (by grind [Suits]) (by cases b <;> grind)
    constructor <;> grind
  | @seedListed t x keys hx hs =>
    have hreq := (hwf.call _ _ hx).listed _ hs
    have hkeys : x.handle = h0 → ∀ k ∈ keys, s.present k := by
      intro hh
      have := hok x hx hh
      rwa [hs] at this
    refine h.closeAt hm' (show Ordered h0 _ _ { s with known := _ } from
      ⟨hord.shown, hord.kept, fun k hf => ?_, fun k f y hf => hord.flight k f y ?_, hord.unran, hord.call⟩)
      ⟨hwf.own, hwf.ran, fun h' k f hf => hwf.known h' k f ?_, hwf.call⟩ hx (by grind) (by grind [Stage.over]) ?_
      (by grind [Suits]) (by grind [asks])
    · have := hord.fact k
      have := hord.shown k
      grind
    · grind
    · grind
    · constructor <;> grind

theorem Lin.take (hm : Moves s (.take t) s') : ∃ o', o <:+ o' ∧ Lin h0 p s' o' := by
  have hord := h.ordered
  have hm' := hm
  cases hm with
  | @takeVersioned t x k hx hr hs =>
    have hnot := (hord.call _ _ hx).untaken hs
    have ht : t ∉ ids (flush s o k) := by
      rw [mem_flush]
      grind [Pending]
    refine ⟨(t, some (k, true)) :: flush s o k, (suffix_flush _).trans (suffix_cons _ _), nodup_cons.2 ⟨ht, h.nodup_flush k⟩,
      forall_mem_cons.2 ⟨?_, h.called_flush hm' k⟩, ⟨fun x' hx' => ?_, h.legal_flush hm' k⟩, ?_⟩
    · rw [show (goOn _ t x _).calls.lookup t = some _ from lookup_insert _]
      exact some_ne_none _
    · cases (lookup_insert s.calls).symm.trans hx'
      rw [Suits, hr]
      refine ⟨.inr rfl, fun _ _ _ k' hk' => ?_⟩
      cases hk'
      exact if_pos rfl
    · have hstore := hord.store hwf (fun t => mem_flush) (fun k' => replay_flush s k k' t)
      have hclose : Ordered h0 (fun t' => t' ∈ ids (flush s o k) ∨ t' = t) (replay p ((t, some (k, true)) :: flush s o k))
          ((s.setPresent k true).goOn t x (.sending true)) := by
        refine hstore.close ⟨hwf.own, hwf.ran, hwf.known, hwf.call⟩ hx (.inl (by rw [hr]; rfl)) (by grind [Stage.over]) ?_
        constructor <;> grind
      have heq : (fun t' => t' ∈ ids (flush s o k) ∨ t' = t) = fun t' => t' ∈ ids ((t, some (k, true)) :: flush s o k) := by
        funext t'
        simp [ids, or_comm]
      rwa [heq] at hclose
  | @takeDelete t x k hx hr hs =>
    have hc := hord.call _ _ hx
    have hnot := hc.untaken hs
    refine h.keep hm' ⟨fun k' hk' => ?_, fun k' hk' => ?_, hord.fact, hord.flight, hord.unran, ?_⟩
    · have := hord.shown k'
      simp only [setPresent, goOn] at hk'
      grind
    · by_cases hk : k' = k
      · subst hk
        exact .inr ⟨t, hnot, _, lookup_insert _, hr, rfl⟩
      · refine (hord.kept k' hk').imp (fun hp => ?_) ?_
        · exact (if_neg hk).trans hp
        · rintro ⟨d, hd, x', hx', hr', hs'⟩
          have hne : d ≠ t := by grind
          refine ⟨d, hd, x', ?_, hr', hs'⟩
          rw [goOn, lookup_insert_ne hne]
          exact hx'
    · refine Table.forall_insert (P := fun t x => Placed h0 (t ∈ ids o) (replay p o) (s.setPresent k false).present s.epoch
        s.flights x) (fun t' x' hx' => ?_) ?_
      · have hc := hord.call t' x' hx'
        refine ⟨hc.looking, hc.probing, hc.untaken, hc.awaiting, hc.coalesced, hc.heading, hc.versioned,
          fun k' hr' hs' ht' => ?_, hc.returned, hc.handle⟩
        have := hc.deleting k' hr' hs' ht'
        simp only [setPresent]
        grind
      · have := hc.handle
        simp only [setPresent]
        constructor <;> grind

theorem Lin.reply (hok : linearizeOk h0 s (.reply t ok))
    (hm : Moves s (.reply t ok) s') : ∃ o', o <:+ o' ∧ Lin h0 p s' o' := by
  have hord := h.ordered
  have hm' := hm
  cases hm with
  | replyVersioned hx hr hs hok =>
    have hc := (hord.call _ _ hx)
    refine h.closeAt hm' (hord.invalidate hwf _ _) (hwf.invalidate _ _) hx (by grind [deletes])
      (by grind [Stage.over]) ?_ (by grind [Suits]) ?_
    · constructor <;> grind
    · have := hc.versioned
      grind [answer]
  | @replyDelete t ok x k ran hx hr hs hran =>
    have hc := hord.call _ _ hx
    have hh := hc.handle k hr
    cases ran with
    | false =>
      obtain rfl : ok = false := by simpa using hran
      refine h.closeAt hm' hord hwf hx (by grind) (by grind [Stage.over]) ?_ (by grind [Suits, answer]) (by grind [answer])
      constructor <;> grind
    | true =>
      obtain rfl : ok = true := hok x hx (by rw [hr]; exact some_ne_none k) hs
      by_cases ht : t ∈ ids o
      · refine h.keep hm' ((hord.invalidate hwf x.handle k).stay hx (.inr (.inr ht)) ?_)
        constructor <;> grind
      · refine ⟨(t, some (k, false)) :: o, suffix_cons _ o, nodup_cons.2 ⟨ht, h.nodup⟩,
          forall_mem_cons.2 ⟨?_, h.called_kept hm'⟩,
          ⟨fun x' hx' => ?_, h.legal_kept hm'⟩, ?_⟩
        · rw [show (goOn _ t x _).calls.lookup t = some _ from lookup_insert _]
          exact some_ne_none _
        · cases (lookup_insert s.calls).symm.trans hx'
          rw [Suits, hr]
          refine ⟨.inl rfl, fun _ _ _ k' hk' => ?_⟩
          cases hk'
        · rw [hh]
          refine hord.drop hwf hx hr hs ht (fun t' => ?_) fun k' => rfl
          simp [ids, or_comm]

theorem Lin.step (hok : linearizeOk h0 s a) (hm : Moves s a s') :
    ∃ o', o <:+ o' ∧ Lin h0 p s' o' := by
  have hord := h.ordered
  have hm' := hm
  cases hm with
  | uploadHit | existsHit | uploadJoin | existsJoin | uploadMiss | existsMiss | uploadInstall => exact h.look hwf hm'
  | wakeJoined | wakeInstaller | wakeExists => exact h.wake hwf hm'
  | head => exact h.head hwf hm'
  | seedFound | seedListed => exact h.seed hwf hok hm'
  | takeVersioned | takeDelete => exact h.take hwf hm'
  | replyVersioned | replyDelete => exact h.reply hwf hok hm'
  | @call t' h' r ht =>
    have hnot : t' ∉ ids o := fun hmem => h.called t' hmem ht
    refine h.keep hm' ⟨hord.shown, fun k hk => ?_, hord.fact, hord.flight, hord.unran, Table.forall_insert hord.call ?_⟩
    · refine (hord.kept k hk).imp_right ?_
      rintro ⟨d, hd, x, hx, hrest⟩
      refine ⟨d, hd, x, ?_, hrest⟩
      have hne : d ≠ t' := by
        rintro rfl
        rw [hx] at ht
        cases ht
      rw [lookup_insert_ne hne]
      exact hx
    · cases r <;> constructor <;> grind [first, deletes, linearizeOk]
  | put hy hran hres => exact h.put hwf hy hran hres
  | settle hy hres hok =>
    exact h.keep hm' (hord.fly hwf hy rfl (fun _ => id) (fun _ => .inl) .inl (fun _ => some_ne_none _))
  | snap hx hs =>
    have := hord.call _ _ hx
    refine h.keep hm' (hord.stay hx ?_ ?_)
    · grind
    · constructor <;> grind [Placed]
  | @list t keys ok x hx hs hkeys =>
    have hc := hord.call _ _ hx
    have hreq := (hwf.call _ _ hx).listing hs
    cases ok with
    | true =>
      refine h.keep hm' (hord.stay hx (by grind) ?_)
      constructor <;> grind
    | false =>
      refine h.closeAt hm' hord hwf hx (by grind) (by grind [Stage.over]) ?_ (by grind [Suits]) (by grind)
      constructor <;> grind
  | @cancelGuarded t x k f e hx hr hs =>
    have hord' := hord.popInFlight x.handle k
    obtain ⟨kn, hkn⟩ := popInFlight_eq s x.handle k
    rw [hkn] at hord' hm' ⊢
    refine h.keep hm' (hord'.stay hx (by grind) ?_)
    constructor <;> grind
  | @cancel t x hx hs hplain =>
    have hc := hord.call _ _ hx
    refine h.keep hm' (hord.stay hx ?_ ?_)
    · by_contra hne
      obtain ⟨k, hr⟩ : ∃ k, x.request = .deleteObject k := by
        cases hr : x.request <;> simp_all [deletes]
      have hstrands := hok x hx (hc.handle k hr)
      rw [Call.strands, hr, show x.stage = .sending true by grind] at hstrands
      cases hstrands
    · constructor <;> grind [Placed]
  | evict => exact h.keep hm' (hord.forget _ _)

end

end

theorem Lin.init (h0 : Nat) (p : K → Bool) : Lin h0 p (State.init p) [] := by
  refine ⟨List.nodup_nil, fun t ht => ?_, trivial,
    ⟨fun k hk => hk, fun k hk => .inl hk, fun k hf => ?_, fun k f y hf => ?_, fun f y hy => ?_, fun t x hx => ?_⟩⟩
  · cases ht
  · simp [State.init] at hf
  · cases hf
  · cases hy
  · cases hx

/-! ## Uploads after a failure -/

def Held (h0 : Nat) (s : State K) : Prop :=
  ∀ k f x, s.known h0 k = some (.inFlight f) → s.calls.lookup f = some x → x.handle = h0 ∧ x.stage.over = false

theorem Held.step (h : Held h0 s) (hwf : Wf s) (hok : linearizeOk h0 s a) (hm : Moves s a s') : Held h0 s' := by
  intro k f x' hf hx'
  -- the call that holds the entry awaits its own PUT
  have hcur : s.known h0 k = some (.inFlight f) →
      ∃ x z e, s.calls.lookup f = some x ∧ x.handle = h0 ∧ x.request = .upload z k ∧ x.stage = .awaiting f (some e) := by
    intro hf
    obtain ⟨x, z, hx, hr, hs⟩ := hwf.own f k (hwf.known h0 k f hf)
    have hh := h k f x hf hx
    rw [hh.2] at hs
    obtain ⟨e, hs⟩ := hs.resolve_left Bool.false_ne_true
    exact ⟨x, z, e, hx, hh.1, hr, hs⟩
  cases hm
  case put | settle => exact h k f x' hf hx'
  case cancel t x hx hs hplain =>
    obtain ⟨x1, z, e, hx1, hh, hr, hs1⟩ := hcur hf
    have hne : f ≠ t := by
      rintro rfl
      cases hx1.symm.trans hx
      cases z with
      | false => exact hplain k f e hr hs1
      | true =>
        have hstrands := hok x hx hh
        rw [Call.strands, hr, hs1] at hstrands
        cases hstrands
    rw [goOn, lookup_insert_ne hne] at hx'
    exact h k f x' hf hx'
  all_goals
    simp only [goOn, setPresent, learn, invalidate, install, popInFlight] at hf hx'
    grind [Stage.over, first]

def Alive (s : State K) (f : Nat) : Prop :=
  (∀ y, s.flights.lookup f = some y → y.result ≠ some false) ∧ ∀ x, s.calls.lookup f = some x → x.stage.over = false

/-! ## Runs -/

/-- At every moment the order had the calls that had returned and none still to be made. -/
def InTime (p : K → Bool) (acts : List (Act K)) (o : List (Entry K)) : Prop :=
  ∀ pre s1, pre <+: acts → (machine K).run (State.init p) pre = some s1 → ∃ o1, o1 <:+ o ∧
    (∀ t, s1.answerOf t ≠ none → t ∈ ids o1) ∧ ∀ t ∈ ids o1, s1.calls.lookup t ≠ none

theorem Lin.returned (h : Lin h0 p s o) (ht : s.answerOf t ≠ none) : t ∈ ids o := by
  obtain ⟨a, ha⟩ := ne_none_iff_exists'.1 ht
  obtain ⟨x, hx, hs⟩ := answerOf_eq_some ha
  exact (h.ordered.call t x hx).returned a hs

theorem InTime.snoc {o' : List (Entry K)} (h : InTime p acts o) (hsub : o <:+ o')
    (hrun : (machine K).run (State.init p) (acts ++ [a]) = some s') (hlin : Lin h0 p s' o') : InTime p (acts ++ [a]) o' := by
  intro pre s1 hpre hrun1
  rcases prefix_concat_iff.1 hpre with rfl | hpre
  · cases hrun1.symm.trans hrun
    exact ⟨o', suffix_rfl, fun t ht => hlin.returned ht, hlin.called⟩
  · obtain ⟨o1, hsub1, hrest⟩ := h pre s1 hpre hrun1
    exact ⟨o1, hsub1.trans hsub, hrest⟩

theorem flight_kept (hm : Moves s a s') (hwf : Wf s) (hy : s.flights.lookup f = some y)
    (hres : y.result ≠ none) : s'.flights.lookup f = some y := by
  have := hwf.owner hy
  cases hm
  case uploadInstall | put | settle => grind [Stage.over]
  all_goals
    simp only [goOn, setPresent, learn, invalidate, install, popInFlight]
    grind

theorem wf_run (hwf : Wf s) (hrun : (machine K).run s acts = some s') : Wf s' :=
  run_inv' _ (fun _ _ _ hwf hs => hwf.step (step_moves hs)) hwf hrun

theorem flight_kept_run (hwf : Wf s)
    (hrun : (machine K).run s acts = some s') (hy : s.flights.lookup f = some y) (hres : y.result ≠ none) :
    s'.flights.lookup f = some y := by
  have hstep : ∀ s a s', (Wf s ∧ s.flights.lookup f = some y) → (machine K).step s a = some s' →
      Wf s' ∧ s'.flights.lookup f = some y := by
    rintro s a s' ⟨hwf, hy⟩ hs
    exact ⟨hwf.step (step_moves hs), flight_kept (step_moves hs) hwf hy hres⟩
  exact (run_inv' _ hstep ⟨hwf, hy⟩ hrun).2

theorem awaiting_moves {i : Option Nat} (hm : Moves s a s') (hx : s'.calls.lookup t = some x)
    (hs : x.stage = .awaiting f i) : s.calls.lookup t = some x ∨ f = t ∨
      a = .look t ∧ ∃ x0 k, s.calls.lookup t = some x0 ∧ x0.handle = x.handle ∧ x0.request.wants = some k ∧
        s.known x.handle k = some (.inFlight f) := by
  cases hm
  case call r _ => cases r <;> grind [first]
  case uploadJoin t' x' z k m f' hx' hr hs' hf =>
    by_cases ht : t = t'
    · subst ht
      cases (lookup_insert s.calls).symm.trans hx
      cases hs
      exact .inr (.inr ⟨rfl, x', k, hx', rfl, by rw [hr]; rfl, hf⟩)
    · rw [goOn, lookup_insert_ne ht] at hx
      exact .inl hx
  all_goals
    simp only [goOn, setPresent, learn, invalidate, install, popInFlight] at hx
    grind

def Revived (h0 : Nat) (p : K → Bool) (acts : List (Act K)) (s : State K) : Prop :=
  ∀ pre s1, pre <+: acts → (machine K).run (State.init p) pre = some s1 → ∀ t x f i, s1.calls.lookup t = none →
    s.calls.lookup t = some x → x.handle = h0 → x.stage = .awaiting f i → Alive s1 f

theorem Revived.snoc (h : Revived h0 p acts s) (hheld : Held h0 s)
    (hok : linearizeOk h0 s a) (hrun : (machine K).run (State.init p) acts = some s) (hm : Moves s a s')
    (hrun' : (machine K).run (State.init p) (acts ++ [a]) = some s') : Revived h0 p (acts ++ [a]) s' := by
  intro pre s1 hpre hrun1 t x f i ht hx hh hs
  rcases prefix_concat_iff.1 hpre with rfl | hpre
  · cases hrun1.symm.trans hrun'
    rw [ht] at hx
    cases hx
  obtain ⟨rest, rfl⟩ := hpre
  have hrest : (machine K).run s1 rest = some s := by
    rwa [run_append, hrun1] at hrun
  have hwf1 : Wf s1 := wf_run (Wf.init p) hrun1
  rcases awaiting_moves hm hx hs with hx | rfl | ⟨rfl, x0, k, hx0, hh0, hk, hf⟩
  · exact h pre s1 (prefix_append pre rest) hrun1 t x f i ht hx hh hs
  · refine ⟨fun y hy => ?_, fun x hx => ?_⟩
    · obtain ⟨x', -, hx', -⟩ := hwf1.owner hy
      rw [ht] at hx'
      cases hx'
    · rw [ht] at hx
      cases hx
  · rw [hh] at hf
    refine ⟨fun y hy hres => ?_, fun x' hx' => ?_⟩
    · have hy' := flight_kept_run hwf1 hrest hy (by rw [hres]; exact some_ne_none _)
      have hdead := hok x0 hx0 (hh0.trans hh) k hk
      simp [dead, hf, hy', hres] at hdead
    · by_contra hover
      obtain ⟨x'', hx'', -, -, hsame⟩ := calls_kept_run hrest hx'
      rw [hsame (by simpa using hover)] at hx''
      exact hover (hheld k f x' hf hx'').2

end Thur.Store

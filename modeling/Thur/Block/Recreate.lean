import Thur.Block.Fleet
/-!
# Recreate — upload outcomes and volumes that share a name

An upload task carries the name of its volume, and the worker looks the volume up by that name. A volume can be
destroyed while tasks of it are queued and another one created under its name. Here every volume has an id of its own,
which the code does not have, and a task remembers the id of the volume whose seal made it.
-/

open Function Option

namespace Thur.Recreate

/-- The sidecars outlive the registration while someone holds the volume. -/
structure Volume (H : Type) where
  name : Nat
  pool : PoolId
  record : PageId → Option H
  flag : PageId → UploadState
  pend : PendingSets

inductive SealStage
  | indexed
  | flagged
  | marked

structure Seal (H : Type) where
  vol : Nat
  page : PageId
  hash : H
  stage : SealStage

inductive TaskStage
  | queued
  | resolved (vol : Nat)
  | uploaded (vol : Nat)
  | matched (vol : Nat)
  | flagged (vol : Nat)

/-- An `UploadTask`.  `pending` of the source is the tracker of `owner`. -/
structure Task (H : Type) where
  name : Nat
  owner : Nat
  pool : PoolId
  page : PageId
  hash : H
  stage : TaskStage

structure State (H : Type) where
  vols : Table (Volume H)
  registry : Nat → Option Nat
  store : ChunkKey H → Bool
  seals : Table (Seal H)
  tasks : Table (Task H)

inductive Act (H : Type)
  | create (i name : Nat) (pool : PoolId)
  /-- A destroy, whose final flush may have failed. -/
  | unregister (name : Nat)
  | sealIndex (t i : Nat) (p : PageId) (h : H)
  | retry (t i : Nat) (p : PageId)
  /-- The next step of a seal or retry; `k` is the id of the task it may send. -/
  | sealNext (t k : Nat)
  /-- The send of a seal that finds the channel closed. -/
  | closed (t : Nat)
  | resolve (k : Nat)
  | put (k : Nat)
  | check (k : Nat)
  | setFlag (k : Nat)
  | done (k : Nat)
  | fail (k : Nat)

variable {H : Type} [DecidableEq H] {x : Task H} {p : PageId} {i : Nat} {stage : TaskStage} {k : Nat}

def Volume.new (name : Nat) (pool : PoolId) : Volume H := ⟨name, pool, fun _ => none, fun _ => .uploaded, .new⟩

def Volume.setRecord (v : Volume H) (p : PageId) (h : H) : Volume H :=
  { v with record := update v.record p (some h) }

def Volume.setFlag (v : Volume H) (p : PageId) (st : UploadState) : Volume H :=
  { v with flag := update v.flag p st }

def Volume.onPend (v : Volume H) (f : PendingSets → PendingSets) : Volume H := { v with pend := f v.pend }

namespace State

def empty : State H := ⟨∅, fun _ => none, fun _ => false, ∅, ∅⟩

/-- `pages.idx`, `upload.idx`, the marker, the channel. -/
def stepSeal (s : State H) (t : Nat) (x : Seal H) (k : Nat) : Option (State H) :=
  match x.stage with
  | .indexed => some { s with
      vols := s.vols.alter x.vol (·.setFlag x.page .localOnly)
      seals := s.seals.insert t { x with stage := .flagged } }
  | .flagged => some { s with
      vols := s.vols.alter x.vol (·.onPend (·.markPending x.page))
      seals := s.seals.insert t { x with stage := .marked } }
  | .marked =>
    match s.vols.lookup x.vol, s.tasks.lookup k with
    | some v, none => some { s with
        seals := s.seals.erase t
        tasks := s.tasks.insert k ⟨v.name, x.vol, v.pool, x.page, x.hash, .queued⟩ }
    | _, _ => none

def withTask (s : State H) (k : Nat) (f : Task H → Option (State H)) : Option (State H) := (s.tasks.lookup k).bind f

def goOn (s : State H) (k : Nat) (x : Task H) (stage : TaskStage) : State H :=
  { s with tasks := s.tasks.insert k { x with stage := stage } }

def step (s : State H) : Act H → Option (State H)
  | .create i name pool =>
    match s.vols.lookup i, s.registry name with
    | none, none => some { s with
        vols := s.vols.insert i (.new name pool)
        registry := update s.registry name (some i) }
    | _, _ => none
  | .unregister name => some { s with registry := update s.registry name none }
  | .sealIndex t i p h =>
    match s.seals.lookup t with
    | none => some { s with vols := s.vols.alter i (·.setRecord p h), seals := s.seals.insert t ⟨i, p, h, .indexed⟩ }
    | some _ => none
  | .retry t i p =>
    match s.seals.lookup t, (s.vols.lookup i).bind (·.record p) with
    | none, some h => some { s with seals := s.seals.insert t ⟨i, p, h, .flagged⟩ }
    | _, _ => none
  | .sealNext t k => (s.seals.lookup t).bind (s.stepSeal t · k)
  | .closed t => (s.seals.lookup t).bind (fun x =>
      match x.stage with
      | .marked => some { s with
          vols := s.vols.alter x.vol fun v => (v.onPend (·.markDone x.page)).setFlag x.page .uploaded
          seals := s.seals.erase t }
      | _ => none)
  | .resolve k => s.withTask k (fun x =>
      match x.stage, s.registry x.name with
      | .queued, some i => some (s.goOn k x (.resolved i))
      | _, _ => none)
  | .put k => s.withTask k (fun x =>
      match x.stage with
      | .resolved i => some ({ s with store := update s.store (x.pool, x.hash) true }.goOn k x (.uploaded i))
      | _ => none)
  | .check k => s.withTask k (fun x =>
      match x.stage with
      | .uploaded i =>
        if (s.vols.lookup i).bind (·.record x.page) = some x.hash then some (s.goOn k x (.matched i))
        else some { s with tasks := s.tasks.erase k }
      | _ => none)
  | .setFlag k => s.withTask k (fun x =>
      match x.stage with
      | .matched i => some ({ s with vols := s.vols.alter i (·.setFlag x.page .uploaded) }.goOn k x (.flagged i))
      | _ => none)
  | .done k => s.withTask k (fun x =>
      match x.stage with
      | .flagged i => some { s with
          vols := s.vols.alter i (·.onPend (·.markDone x.page))
          tasks := s.tasks.erase k }
      | _ => none)
  | .fail k => s.withTask k (fun x => some { s with
      vols := s.vols.alter x.owner (·.onPend (·.markFailed x.page))
      tasks := s.tasks.erase k })

end State

def machine : Machine (State H) (Act H) where
  step := State.step

/-- The worker finds under its name the volume that made the task, and the page is not rebound between the check of its
hash and its flag. -/
def creditOk (s : State H) : Act H → Prop
  | .resolve k => ∀ x ∈ s.tasks.lookup k, ∀ i ∈ s.registry x.name, i = x.owner
  | .setFlag k => ∀ x ∈ s.tasks.lookup k, (s.vols.lookup x.owner).bind (·.record x.page) = some x.hash
  | .closed _ => False
  | _ => True

instance (s : State H) (a : Act H) : Decidable (creditOk s a) := by
  apply Act.casesOn (motive := fun a => Decidable (creditOk s a)) a <;> intros <;> unfold creditOk <;> infer_instance

def TaskStage.target : TaskStage → Option Nat
  | .queued => none
  | .resolved i | .uploaded i | .matched i | .flagged i => some i

def TaskStage.putDone : TaskStage → Bool
  | .queued | .resolved _ => false
  | .uploaded _ | .matched _ | .flagged _ => true

/-- A task goes to the pool and the volume that made it; what it has put is there. -/
structure Credited (vols : Table (Volume H)) (store : ChunkKey H → Bool) (x : Task H) : Prop where
  pool : ∃ v, vols.lookup x.owner = some v ∧ v.pool = x.pool
  target : ∀ i, x.stage.target = some i → i = x.owner
  stored : x.stage.putDone = true → store (x.pool, x.hash) = true

section

omit [DecidableEq H]

theorem Credited.of_stage {vols : Table (Volume H)} {store : ChunkKey H → Bool} (h : Credited vols store x)
    (hst : x.stage = stage) :
    (∀ i, stage.target = some i → i = x.owner) ∧ (stage.putDone = true → store (x.pool, x.hash) = true) :=
  hst ▸ ⟨h.target, h.stored⟩

def Rebinding (seals : Table (Seal H)) (i : Nat) (p : PageId) : Prop :=
  ∃ t x, seals.lookup t = some x ∧ x.vol = i ∧ x.page = p ∧ x.stage = .indexed

theorem Rebinding.keep {seals seals' : Table (Seal H)} (h : Rebinding seals i p)
    (hkeep : ∀ t x, seals.lookup t = some x → x.vol = i → x.page = p → x.stage = .indexed → seals'.lookup t = some x) :
    Rebinding seals' i p := by
  obtain ⟨t, x, hx, hi, hp, hst⟩ := h
  exact ⟨t, x, hkeep t x hx hi hp hst, hi, hp, hst⟩

@[grind =]
theorem Volume.flag_setFlag (v : Volume H) (p q : PageId) (st : UploadState) :
    (v.setFlag p st).flag q = if q = p then st else v.flag q :=
  update_apply ..

@[grind =]
theorem Volume.record_setRecord (v : Volume H) (p q : PageId) (h : H) :
    (v.setRecord p h).record q = if q = p then some h else v.record q :=
  update_apply ..

end

structure Inv (s : State H) : Prop where
  credited : ∀ k x, s.tasks.lookup k = some x → Credited s.vols s.store x
  backed : ∀ i v p h, s.vols.lookup i = some v → v.flag p = .uploaded → v.record p = some h →
    s.store (v.pool, h) = true ∨ Rebinding s.seals i p

namespace Inv

variable {s s' : State H}

section

variable (h : Inv s)
include h

section

omit [DecidableEq H]

theorem alter (i : Nat) {f : Volume H → Volume H} {seals : Table (Seal H)}
    (hpool : ∀ v, (f v).pool = v.pool)
    (hself : ∀ v p h', s.vols.lookup i = some v → (f v).flag p = .uploaded → (f v).record p = some h' →
      s.store (v.pool, h') = true ∨ Rebinding seals i p)
    (hseals : ∀ t x, s.seals.lookup t = some x → x.stage = .indexed → x.vol ≠ i → seals.lookup t = some x) :
    Inv { s with vols := s.vols.alter i f, seals := seals } where
  credited k x hx := by
    obtain ⟨⟨v, hv, hp⟩, ht, hst⟩ := h.credited k x hx
    refine ⟨?_, ht, hst⟩
    by_cases hi : x.owner = i
    · exact ⟨f v, by grind, (hpool v).trans hp⟩
    · exact ⟨v, by grind, hp⟩
  backed j v p h' hv hf hr := by
    rw [Table.lookup_alter] at hv
    split at hv
    · next hj =>
      subst hj
      obtain ⟨v0, hv0, rfl⟩ := map_eq_some_iff.1 hv
      rw [hpool]
      exact hself v0 p h' hv0 hf hr
    · next hj =>
      exact (h.backed j v p h' hv hf hr).imp_right (·.keep (fun t x hx hi _ hst => hseals t x hx hst (hi ▸ hj)))

theorem onPend (i : Nat) (f : PendingSets → PendingSets) :
    Inv { s with vols := s.vols.alter i (·.onPend f) } :=
  @alter _ _ h i _ s.seals (fun _ => rfl) (fun v p h' hv hf hr => h.backed i v p h' hv hf hr)
    fun _ _ hx _ _ => hx

theorem eraseTask (k : Nat) : Inv { s with tasks := s.tasks.erase k } :=
  ⟨Table.forall_erase h.credited k, h.backed⟩

theorem insertTask (k : Nat) (hx : Credited s.vols s.store x) :
    Inv { s with tasks := s.tasks.insert k x } :=
  ⟨Table.forall_insert h.credited hx, h.backed⟩

theorem goOn (hx : s.tasks.lookup k = some x)
    (htarget : ∀ i, stage.target = some i → i = x.owner)
    (hput : stage.putDone = true → s.store (x.pool, x.hash) = true) :
    Inv (s.goOn k x stage) :=
  h.insertTask k ⟨(h.credited k x hx).pool, htarget, hput⟩

theorem sealNext {t k : Nat} {x : Seal H} (hx : s.seals.lookup t = some x) (hs : s.stepSeal t x k = some s') :
    Inv s' := by
  unfold State.stepSeal at hs
  split at hs
  next hi =>
    cases hs
    refine h.alter x.vol (fun _ => rfl) (fun v p h' hv hf hr => ?_) (by grind)
    exact (h.backed x.vol v p h' hv (by grind) hr).imp_right (·.keep (by grind))
  next hi =>
    cases hs
    refine h.alter x.vol (fun _ => rfl) (fun v p h' hv hf hr => ?_) (by grind)
    exact (h.backed x.vol v p h' hv hf hr).imp_right (·.keep (by grind))
  next hi =>
    split at hs <;> cases hs
    next v hv hk =>
      refine ⟨Table.forall_insert h.credited ⟨⟨v, hv, rfl⟩, by simp [TaskStage.target], by simp [TaskStage.putDone]⟩, ?_⟩
      intro i v p h' hv hf hr
      exact (h.backed i v p h' hv hf hr).imp_right (·.keep (by grind))

theorem stored_of_setFlag (hx : s.tasks.lookup k = some x)
    (hok : (s.vols.lookup x.owner).bind (·.record x.page) = some x.hash)
    (hput : s.store (x.pool, x.hash) = true) (v : Volume H) (h' : H) (hv : s.vols.lookup x.owner = some v)
    (hr : v.record x.page = some h') : s.store (v.pool, h') = true := by
  obtain ⟨v', hv', hp⟩ := (h.credited k x hx).pool
  grind

end

theorem put (c : ChunkKey H) : Inv { s with store := update s.store c true } where
  credited k x hx := by
    obtain ⟨hp, ht, hst⟩ := h.credited k x hx
    exact ⟨hp, ht, by grind [update]⟩
  backed i v p h' hv hf hr := by
    rcases h.backed i v p h' hv hf hr with hst | hx
    · left; grind [update]
    · exact .inr hx

theorem create {i name : Nat} {pool : PoolId} (hs : s.step (.create i name pool) = some s') : Inv s' := by
  simp only [State.step] at hs
  split at hs <;> cases hs
  next hi hn =>
    refine ⟨fun k x hx => ?_, fun j v p h' hv hf hr => ?_⟩
    · obtain ⟨⟨v, hv, hp⟩, ht, hst⟩ := h.credited k x hx
      exact ⟨⟨v, by grind, hp⟩, ht, hst⟩
    · rcases Table.lookup_insert_some hv with ⟨-, rfl⟩ | ⟨-, hv⟩
      · cases hr
      · exact h.backed j v p h' hv hf hr

theorem sealIndex {t i : Nat} {h' : H} (hs : s.step (.sealIndex t i p h') = some s') : Inv s' := by
  simp only [State.step] at hs
  split at hs <;> cases hs
  next hn =>
    refine h.alter i (fun _ => rfl) (fun v q h'' hv hf hr => ?_) (by grind)
    by_cases hq : q = p
    · exact .inr ⟨t, _, AList.lookup_insert _, rfl, hq.symm, rfl⟩
    · exact (h.backed i v q h'' hv hf (by grind)).imp_right (·.keep (by grind))

theorem retry {t i : Nat} (hs : s.step (.retry t i p) = some s') : Inv s' := by
  simp only [State.step] at hs
  split at hs <;> cases hs
  next hn hr =>
    refine ⟨h.credited, fun j v q h' hv hf hr => ?_⟩
    exact (h.backed j v q h' hv hf hr).imp_right (·.keep (by grind))

end

end Inv

variable {s s' : State H} {a : Act H}

theorem Inv.step (h : Inv s) (hok : creditOk s a) (hs : s.step a = some s') : Inv s' := by
  cases a with
  | create i name pool => exact h.create hs
  | unregister name =>
    cases hs
    exact ⟨h.credited, h.backed⟩
  | sealIndex t i p h' => exact h.sealIndex hs
  | retry t i p => exact h.retry hs
  | sealNext t k =>
    obtain ⟨x, hx, hs⟩ := bind_eq_some_iff.1 hs
    exact h.sealNext hx hs
  | closed t => exact hok.elim
  | resolve k =>
    obtain ⟨x, hx, hs⟩ := bind_eq_some_iff.1 hs
    split at hs <;> cases hs
    next i hq hr =>
      exact h.goOn hx (fun j hj => by cases hj; exact hok x hx i hr) fun hp => by cases hp
  | put k =>
    obtain ⟨x, hx, hs⟩ := bind_eq_some_iff.1 hs
    split at hs <;> cases hs
    next i hq =>
      refine (h.put _).goOn hx (fun j hj => ?_) fun _ => by simp
      cases hj
      exact ((h.credited k x hx).of_stage hq).1 i rfl
  | check k =>
    obtain ⟨x, hx, hs⟩ := bind_eq_some_iff.1 hs
    split at hs
    next i hq =>
      have hc := (h.credited k x hx).of_stage hq
      split at hs
      · cases hs
        exact h.goOn hx hc.1 hc.2
      · cases hs
        exact h.eraseTask k
    · cases hs
  | setFlag k =>
    obtain ⟨x, hx, hs⟩ := bind_eq_some_iff.1 hs
    split at hs <;> cases hs
    next i hq =>
      have hc := (h.credited k x hx).of_stage hq
      obtain rfl := hc.1 i rfl
      have hv : Inv { s with vols := s.vols.alter x.owner (·.setFlag x.page .uploaded) } := by
        refine h.alter x.owner (fun _ => rfl) (fun v p h' hv hf hr => ?_) fun _ _ hx _ _ => hx
        by_cases hp : p = x.page
        · subst hp
          exact .inl (h.stored_of_setFlag hx (hok x hx) (hc.2 rfl) v h' hv hr)
        · exact h.backed x.owner v p h' hv (by grind) hr
      exact hv.goOn hx hc.1 hc.2
  | done k =>
    obtain ⟨x, hx, hs⟩ := bind_eq_some_iff.1 hs
    split at hs <;> cases hs
    next i hq =>
      exact (h.onPend i _).eraseTask k
  | fail k =>
    obtain ⟨x, hx, hs⟩ := bind_eq_some_iff.1 hs
    cases hs
    exact (h.onPend x.owner _).eraseTask k

omit [DecidableEq H] in
theorem inv_empty : Inv (State.empty : State H) where
  credited _ _ hx := by cases hx
  backed _ _ _ _ hv := by cases hv

def Act.outcome : Act H → Option Nat
  | .check k | .setFlag k | .done k | .fail k => some k
  | _ => none

theorem Inv.outcome_owner (h : Inv s) (hs : s.step a = some s')
    (ha : a.outcome = some k) (hx : s.tasks.lookup k = some x) (hi : i ≠ x.owner) :
    s'.vols.lookup i = s.vols.lookup i := by
  have hc := fun stage (hst : x.stage = stage) => ((h.credited k x hx).of_stage hst).1
  cases a <;> cases ha <;>
    simp only [State.step, State.withTask, hx, bind_some] at hs
  case check =>
    split at hs
    · split at hs <;> cases hs <;> rfl
    · cases hs
  case setFlag | done =>
    split at hs <;> cases hs
    next j hq =>
      obtain rfl := hc _ hq j rfl
      exact (Table.lookup_alter ..).trans (if_neg hi)
  case fail =>
    cases hs
    exact (Table.lookup_alter ..).trans (if_neg hi)

section

omit [DecidableEq H]

@[grind =]
theorem Volume.flag_onPend (v : Volume H) (f : PendingSets → PendingSets) (p : PageId) :
    (v.onPend f).flag p = v.flag p := rfl

@[grind =]
theorem Volume.flag_setRecord (v : Volume H) (q p : PageId) (h : H) : (v.setRecord q h).flag p = v.flag p := rfl

end

theorem State.step_uploaded (hok : creditOk s a) (hs : s.step a = some s')
    {v v' : Volume H} (hv : s.vols.lookup i = some v) (hv' : s'.vols.lookup i = some v')
    (hflag : v.flag p ≠ .uploaded) (hflag' : v'.flag p = .uploaded) :
    ∃ k x, a = .setFlag k ∧ s.tasks.lookup k = some x ∧ x.stage = .matched i ∧ x.page = p := by
  cases a with
  | closed t => exact hok.elim
  | setFlag k =>
    obtain ⟨x, hx, hs⟩ := bind_eq_some_iff.1 hs
    split at hs <;> cases hs
    next j hq =>
      refine ⟨k, x, rfl, hx, ?_, ?_⟩ <;> grind [State.goOn]
  | sealNext t k =>
    obtain ⟨x, hx, hs⟩ := bind_eq_some_iff.1 hs
    unfold State.stepSeal at hs
    grind
  | resolve k | put k | check k | done k | fail k =>
    obtain ⟨x, hx, hs⟩ := bind_eq_some_iff.1 hs
    grind [State.goOn]
  | _ => grind [State.step]

theorem Inv.newly_uploaded (h : Inv s) (hok : creditOk s a) (hs : s.step a = some s')
    {v v' : Volume H} (hv : s.vols.lookup i = some v) (hv' : s'.vols.lookup i = some v')
    (hflag : v.flag p ≠ .uploaded) (hflag' : v'.flag p = .uploaded) :
    ∃ h, v'.record p = some h ∧ s'.store (v'.pool, h) = true := by
  obtain ⟨k, x, rfl, hx, hq, rfl⟩ := State.step_uploaded hok hs hv hv' hflag hflag'
  have hc := (h.credited k x hx).of_stage hq
  obtain rfl := hc.1 i rfl
  have hr := hok x hx
  rw [hv] at hr
  simp only [State.step, State.withTask, hx, hq, bind_some] at hs
  cases hs
  obtain rfl : v' = v.setFlag x.page .uploaded := by grind [State.goOn]
  exact ⟨x.hash, hr, h.stored_of_setFlag hx (hok x hx) (hc.2 rfl) v x.hash hv hr⟩

/-- **Upload outcomes are credited to the volume that issued them**: under `creditOk` an outcome touches no other
volume, and a page is marked Uploaded only when its object is in the volume's own pool. -/
theorem outcome_credited {acts : List (Act H)} {s s' : State H}
    (hacts : machine.Meets creditOk State.empty acts) (hrun : machine.run State.empty acts = some s) (hok : creditOk s a)
    (hs : machine.step s a = some s') :
    (∀ k x i, a.outcome = some k → s.tasks.lookup k = some x → i ≠ x.owner → s'.vols.lookup i = s.vols.lookup i) ∧
    (∀ i v v' p, s.vols.lookup i = some v → s'.vols.lookup i = some v' → v.flag p ≠ .uploaded → v'.flag p = .uploaded →
      ∃ h, v'.record p = some h ∧ s'.store (v'.pool, h) = true) ∧
    (∀ i v p h, s.vols.lookup i = some v → v.flag p = .uploaded → v.record p = some h →
      s.store (v.pool, h) = true ∨ Rebinding s.seals i p) := by
  have h : Inv s := machine.run_inv (fun _ _ _ h hok hs => h.step hok hs) inv_empty hacts hrun
  exact ⟨fun k x i ha hx hi => h.outcome_owner hs ha hx hi,
    fun i v v' p hv hv' hf hf' => h.newly_uploaded hok hs hv hv' hf hf', h.backed⟩

def sealRun (i : Nat) : List (Act Nat) := [.sealIndex i i 0 7, .sealNext i i, .sealNext i i, .sealNext i i]

def taskRun (k : Nat) : List (Act Nat) := [.resolve k, .put k, .check k]

def handoverRun : List (Act Nat) :=
  .create 0 5 ⟨0, none⟩ :: (sealRun 0 ++ taskRun 0 ++ [.setFlag 0, .done 0, .unregister 5,
    .create 1 5 ⟨1, none⟩] ++ sealRun 1 ++
    taskRun 1)

def takeoverRun : List (Act Nat) :=
  .create 0 5 ⟨0, none⟩ :: (sealRun 0 ++ [.unregister 5, .create 1 5 ⟨1, none⟩] ++ sealRun 1 ++ taskRun 0)

theorem outcome_credited_handover :
    ∃ s s', machine.run State.empty handoverRun = some s ∧ machine.step s (.setFlag 1) = some s' ∧
      ∀ i x, s.tasks.lookup 1 = some x → i ≠ x.owner → s'.vols.lookup i = s.vols.lookup i := by
  obtain ⟨s, hs, hok⟩ : ∃ s ∈ machine.run State.empty handoverRun, creditOk s (.setFlag 1) ∧
      (machine.step s (.setFlag 1)).isSome := by decide +kernel
  obtain ⟨s', hs'⟩ := isSome_iff_exists.1 hok.2
  exact ⟨s, s', hs, hs', fun i x hx hi => (outcome_credited (by decide +kernel) hs hok.1 hs').1 1 x i rfl hx hi⟩

/-- A queued task marks a page of the new volume of its name. -/
theorem takeover_marks_uploaded :
    ∃ s s', machine.run State.empty takeoverRun = some s ∧ machine.step s (.setFlag 0) = some s' ∧
      (s.tasks.lookup 0).map (·.owner) = some 0 ∧ (s.vols.lookup 1).map (·.flag 0) = some .localOnly ∧
      (s'.vols.lookup 1).map (fun v => (v.flag 0, v.record 0, s'.store (v.pool, 7))) = some (.uploaded, some 7, false) :=
  Machine.ends_twice (by decide +kernel)

end Thur.Recreate

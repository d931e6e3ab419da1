import Mathlib.Logic.Function.Basic
import Thur.Lib.Machine
import Thur.Lib.Table
import Thur.Lib.Tally
/-!
# PoolBudget — the byte budget of a backend's pool against the chunk files on its disk

A page seal reserves its bytes, looks for the file, renames a sibling over it, and gives the bytes back if the file was
there or the insert failed. A read miss places the file first and reserves after. Eviction and garbage collection remove
a file they have listed and release the listed size.
-/
namespace Thur

open AList Option

structure PoolState (N : Type) where
  total : Nat
  perNamespace : N → Option Nat

namespace PoolState

def new {N : Type} : PoolState N := ⟨0, fun _ => none⟩

variable {N : Type} [DecidableEq N]

def saturatingAdd (a b : Nat) : Nat := min (a + b) (UInt64.size - 1)

def add (s : PoolState N) (ns : N) (bytes : Nat) : PoolState N where
  total := saturatingAdd s.total bytes
  perNamespace := Function.update s.perNamespace ns (some (saturatingAdd ((s.perNamespace ns).getD 0) bytes))

def sub (s : PoolState N) (ns : N) (bytes : Nat) : PoolState N where
  total := s.total - bytes
  perNamespace :=
    match s.perNamespace ns with
    | some slot => Function.update s.perNamespace ns (if slot - bytes = 0 then none else some (slot - bytes))
    | none => s.perNamespace

def used (s : PoolState N) (ns : N) : Nat := (s.perNamespace ns).getD 0

theorem used_add (s : PoolState N) (ns ns' : N) (bytes : Nat) :
    (s.add ns bytes).used ns' = if ns' = ns then saturatingAdd (s.used ns) bytes else s.used ns' := by
  simp only [used, add, Function.update_apply]
  split <;> rfl

theorem used_sub (s : PoolState N) (ns ns' : N) (bytes : Nat) :
    (s.sub ns bytes).used ns' = if ns' = ns then s.used ns - bytes else s.used ns' := by
  cases h : s.perNamespace ns with
  | none => grind [used, sub]
  | some slot =>
    simp only [used, sub, h, Function.update_apply, getD_some]
    grind

end PoolState

inductive PoolStage
  /-- a seal holds its reservation -/
  | reserved
  /-- a seal's `insert_bytes` found no file -/
  | sealing
  /-- a seal was a dedup hit or its insert failed: the reservation is to be given back -/
  | refused
  /-- a read miss has downloaded the chunk -/
  | fetched
  /-- its `insert_verified_bytes` found no file -/
  | placing
  /-- its rename put the file there: `force_reserve` is next -/
  | arrived
  /-- an eviction or a garbage collection has listed the file -/
  | listed
  /-- `remove` returned: `release` is next -/
  | removed
deriving DecidableEq

structure PoolTask (N H : Type) where
  key : N × H
  size : Nat
  stage : PoolStage

structure BudgetState (N H : Type) where
  budget : PoolState N
  files : AList (fun _ : N × H => Nat)
  tasks : Table (PoolTask N H)

inductive BudgetAct (N H : Type)
  | reserve (t : Nat) (k : N × H) (size : Nat)
  | download (t : Nat) (k : N × H) (size : Nat)
  | list (t : Nat) (k : N × H)
  | check (t : Nat)
  | rename (t : Nat)
  | fail (t : Nat)
  | remove (t : Nat)
  | forceReserve (t : Nat)
  | release (t : Nat)

namespace BudgetState

open PoolState

variable {N H : Type} [DecidableEq N] [DecidableEq H]

def goOn (s : BudgetState N H) (t : Nat) (x : PoolTask N H) (stage : PoolStage) : BudgetState N H :=
  { s with tasks := s.tasks.insert t { x with stage := stage } }

def finish (s : BudgetState N H) (t : Nat) : BudgetState N H := { s with tasks := s.tasks.erase t }

def step (cap : Nat) (s : BudgetState N H) : BudgetAct N H → Option (BudgetState N H)
  | .reserve t k size =>
    if s.tasks.lookup t = none ∧ (cap = 0 ∨ saturatingAdd s.budget.total size ≤ cap)
    then some { s with budget := s.budget.add k.1 size, tasks := s.tasks.insert t ⟨k, size, .reserved⟩ } else none
  | .download t k size =>
    if s.tasks.lookup t = none ∧ s.files.lookup k = none
    then some { s with tasks := s.tasks.insert t ⟨k, size, .fetched⟩ } else none
  | .list t k =>
    if s.tasks.lookup t = none
    then (s.files.lookup k).map (fun size => { s with tasks := s.tasks.insert t ⟨k, size, .listed⟩ }) else none
  | .check t =>
    (s.tasks.lookup t).bind (fun x =>
      match x.stage, (s.files.lookup x.key).isSome with
      | .reserved, true => some (s.goOn t x .refused)
      | .reserved, false => some (s.goOn t x .sealing)
      -- the file is there: nothing to account for
      | .fetched, true => some (s.finish t)
      | .fetched, false => some (s.goOn t x .placing)
      | _, _ => none)
  | .rename t =>
    (s.tasks.lookup t).bind (fun x =>
      match x.stage with
      | .sealing => some { s.finish t with files := s.files.insert x.key x.size }
      | .placing => some { s.goOn t x .arrived with files := s.files.insert x.key x.size }
      | _ => none)
  | .fail t =>
    (s.tasks.lookup t).bind (fun x =>
      match x.stage with
      | .reserved | .sealing => some (s.goOn t x .refused)
      | .fetched | .placing | .listed => some (s.finish t)
      | _ => none)
  | .remove t =>
    (s.tasks.lookup t).bind (fun x =>
      match x.stage with
      -- `NotFound` is `Ok`
      | .listed => some { s.goOn t x .removed with files := s.files.erase x.key }
      | _ => none)
  | .forceReserve t =>
    (s.tasks.lookup t).bind (fun x =>
      match x.stage with
      | .arrived => some { s.finish t with budget := s.budget.add x.key.1 x.size }
      | _ => none)
  | .release t =>
    (s.tasks.lookup t).bind (fun x =>
      match x.stage with
      | .refused | .removed => some { s.finish t with budget := s.budget.sub x.key.1 x.size }
      | _ => none)

def machine (cap : Nat) : Machine (BudgetState N H) (BudgetAct N H) := ⟨step cap⟩

def bytesOf (ns : N → Bool) (s : BudgetState N H) : Nat := s.files.weigh fun k size => if ns k.1 then size else 0

def Exact (s : BudgetState N H) : Prop :=
  s.budget.total = s.bytesOf (fun _ => true) ∧ ∀ ns, s.budget.used ns = s.bytesOf fun n => n = ns

def Idle (s : BudgetState N H) : Prop := s.tasks.entries = []

deriving instance Decidable for @Idle N H

/-! ## What is in progress -/

def held (ns : N → Bool) (x : PoolTask N H) : Nat :=
  match x.stage with
  | .reserved | .sealing | .refused | .removed => if ns x.key.1 then x.size else 0
  | _ => 0

def due (ns : N → Bool) (x : PoolTask N H) : Nat :=
  match x.stage with
  | .arrived => if ns x.key.1 then x.size else 0
  | _ => 0

/-- The figure `b` accounts for the files of `ns` and for what is in progress. -/
def Balanced (ns : N → Bool) (b : Nat) (s : BudgetState N H) : Prop :=
  b + s.tasks.weigh (fun _ => due ns) = s.bytesOf ns + s.tasks.weigh fun _ => held ns

def Fits (b : PoolState N) (ns : N) (bytes : Nat) : Prop :=
  b.total + bytes < UInt64.size ∧ b.used ns + bytes < UInt64.size
deriving Decidable

/-- **When a step keeps the account**: a rename finds no file, a removal finds the file it listed, and no figure leaves
`u64`. -/
def exactOk (s : BudgetState N H) : BudgetAct N H → Prop
  | .reserve _ k size => Fits s.budget k.1 size
  | .rename t => ∀ x ∈ s.tasks.lookup t, s.files.lookup x.key = none
  | .remove t => ∀ x ∈ s.tasks.lookup t, s.files.lookup x.key = some x.size
  | .forceReserve t => ∀ x ∈ s.tasks.lookup t, Fits s.budget x.key.1 x.size
  | .release t => ∀ x ∈ s.tasks.lookup t, x.size ≤ s.budget.total ∧ x.size ≤ s.budget.used x.key.1
  | _ => True

instance (s : BudgetState N H) (a : BudgetAct N H) : Decidable (exactOk s a) := by
  apply BudgetAct.casesOn (motive := fun a => Decidable (exactOk s a)) a <;> intros <;> unfold exactOk <;> infer_instance

/-- **One figure through one step**: a reservation raises it and a release lowers it by the bytes in `ns`. -/
theorem Balanced.step {cap : Nat} {ns : N → Bool} {fig : PoolState N → Nat}
    (hadd : ∀ b n size, Fits b n size → fig (b.add n size) = fig b + if ns n then size else 0)
    (hsub : ∀ b n size, size ≤ b.total → size ≤ b.used n → fig (b.sub n size) + (if ns n then size else 0) = fig b)
    {s s' : BudgetState N H} {a : BudgetAct N H} (h : Balanced ns (fig s.budget) s) (hok : exactOk s a)
    (hs : s.step cap a = some s') : Balanced ns (fig s'.budget) s' := by
  simp only [Balanced, bytesOf] at h ⊢
  cases a with
  | reserve t k size =>
    obtain ⟨⟨ht, -⟩, hs⟩ := ite_none_right_eq_some.1 hs
    cases hs
    have hb := hadd s.budget k.1 size hok
    simp only [weigh_insert, weigh_erase_none ht, due, held]
    omega
  | download t k size =>
    obtain ⟨⟨ht, -⟩, hs⟩ := ite_none_right_eq_some.1 hs
    cases hs
    simpa only [weigh_insert, weigh_erase_none ht, due, held, Nat.zero_add] using h
  | list t k =>
    obtain ⟨ht, hs⟩ := ite_none_right_eq_some.1 hs
    obtain ⟨size, -, rfl⟩ := map_eq_some_iff.1 hs
    simpa only [weigh_insert, weigh_erase_none ht, due, held, Nat.zero_add] using h
  | check t | fail t =>
    obtain ⟨x, hx, hs⟩ := bind_eq_some_iff.1 hs
    rw [weigh_erase hx, weigh_erase hx] at h
    split at hs <;> cases hs <;> simp_all only [goOn, finish, weigh_insert, due, held, Nat.zero_add]
  | forceReserve t =>
    obtain ⟨x, hx, hs⟩ := bind_eq_some_iff.1 hs
    rw [weigh_erase hx, weigh_erase hx] at h
    have hb := hadd s.budget x.key.1 x.size (hok x hx)
    split at hs <;> cases hs
    simp_all only [finish, due, held]
    omega
  | release t =>
    obtain ⟨x, hx, hs⟩ := bind_eq_some_iff.1 hs
    rw [weigh_erase hx, weigh_erase hx] at h
    have hb := hsub s.budget x.key.1 x.size (hok x hx).1 (hok x hx).2
    split at hs <;> cases hs <;> simp_all only [finish, due, held] <;> omega
  | rename t =>
    obtain ⟨x, hx, hs⟩ := bind_eq_some_iff.1 hs
    rw [weigh_erase hx, weigh_erase hx] at h
    split at hs <;> cases hs <;>
      simp_all only [goOn, finish, weigh_insert, weigh_erase_none (hok x hx), due, held] <;> omega
  | remove t =>
    obtain ⟨x, hx, hs⟩ := bind_eq_some_iff.1 hs
    rw [weigh_erase hx, weigh_erase hx, weigh_erase (hok x hx)] at h
    split at hs <;> cases hs
    simp_all only [goOn, weigh_insert, due, held]
    omega

/-- **The budget is exact whenever nothing is in progress**, if every step meets `exactOk`. -/
theorem budget_exact (cap : Nat) (s0 s : BudgetState N H) (h0 : s0.Exact) (hidle0 : s0.Idle)
    (acts : List (BudgetAct N H)) (hok : (machine cap).Meets exactOk s0 acts)
    (hrun : (machine cap).run s0 acts = some s) (hidle : s.Idle) : s.Exact := by
  have hidle_iff : ∀ (s : BudgetState N H) ns b, s.Idle → (Balanced ns b s ↔ b = s.bytesOf ns) := by
    intro s ns b hs
    rw [Balanced, AList.weigh, AList.weigh, hs]
    rfl
  have hinv : ∀ (ns : N → Bool) (fig : PoolState N → Nat),
      (∀ b n size, Fits b n size → fig (b.add n size) = fig b + if ns n then size else 0) →
      (∀ b n size, size ≤ b.total → size ≤ b.used n → fig (b.sub n size) + (if ns n then size else 0) = fig b) →
      fig s0.budget = s0.bytesOf ns → fig s.budget = s.bytesOf ns := by
    intro ns fig hadd hsub hfig
    refine (hidle_iff s ns _ hidle).1 ?_
    have hstep : ∀ (s : BudgetState N H) a s', Balanced ns (fig s.budget) s → exactOk s a →
        (machine cap).step s a = some s' → Balanced ns (fig s'.budget) s' :=
      fun s a s' h hok hs => h.step hadd hsub hok hs
    exact Machine.run_inv _ hstep ((hidle_iff s0 ns _ hidle0).2 hfig) hok hrun
  refine ⟨hinv _ (fun b => b.total) ?_ ?_ h0.1, fun n => hinv _ (fun b => b.used n) ?_ ?_ (h0.2 n)⟩
  · intro b n size hfits
    exact Nat.min_eq_left (Nat.le_sub_one_of_lt hfits.1)
  · intro b n size hle _
    exact Nat.sub_add_cancel hle
  · intro b n' size hfits
    grind [PoolState.used_add, saturatingAdd, Fits]
  · intro b n' size _ hle
    grind [PoolState.used_sub]

theorem budget_exact_round : ∃ s : BudgetState Bool Nat,
    (machine 100).run ⟨.new, ∅, ∅⟩ [.reserve 0 (true, 7) 10, .check 0, .rename 0, .reserve 1 (true, 7) 10, .check 1,
      .release 1, .list 2 (true, 7), .remove 2, .release 2, .download 3 (true, 7) 10, .check 3, .rename 3,
      .forceReserve 3] = some s ∧ s.budget.total = 10 ∧ s.Exact :=
  Machine.ends_of (fun s => s.budget.total = 10 ∧ s.Idle) (by decide +kernel) fun s hs h =>
    ⟨h.1, budget_exact 100 ⟨.new, ∅, ∅⟩ s ⟨rfl, fun _ => rfl⟩ (by decide) _ (by decide +kernel) hs h.2⟩

/-- **Two seals of the same new content**: both look before either renames, and the budget counts the one file twice. -/
theorem double_seal_drifts : ∃ s : BudgetState Bool Nat,
    (machine 100).run ⟨.new, ∅, ∅⟩ [.reserve 0 (true, 7) 10, .reserve 1 (true, 7) 10, .check 0, .check 1, .rename 0,
      .rename 1] = some s ∧ s.Idle ∧ s.budget.total = 20 ∧ s.bytesOf (fun _ => true) = 10 ∧ ¬ s.Exact := by
  refine Machine.ends_of (fun s => s.Idle ∧ s.budget.total = 20 ∧ s.bytesOf (fun _ => true) = 10) (by decide +kernel) ?_
  rintro s - ⟨hidle, htotal, hbytes⟩
  refine ⟨hidle, htotal, hbytes, fun hexact => ?_⟩
  have hcontra := hexact.1
  rw [htotal, hbytes] at hcontra
  exact absurd hcontra (by decide)

end BudgetState
end Thur

import Mathlib.Logic.Function.Basic
import Thur.Lib.Machine
import Thur.Lib.Table
/-!
# SnapshotDirs — snapshot requests that meet in one directory

`create` looks for the snapshot's directory, captures the size, makes the directory, copies `pages.idx` under the cache
lock and renames `snap.json` into place. Nothing keeps these steps together, and a failure after the directory is made
removes it whoever filled it. Index writes need no lock (`bind`), nor do those of a resize.
-/

namespace Thur.SnapDirs

/-! ## The page index -/

section

variable {R : Type} {page size : Nat} {l : List (Option R)}

def record (l : List (Option R)) (p : Nat) : Option R := (l[p]?).join

def put (l : List (Option R)) (p : Nat) (r : Option R) : List (Option R) :=
  (l ++ List.replicate (p + 1 - l.length) none).set p r

def Fits (page : Nat) (l : List (Option R)) (size : Nat) : Prop :=
  ∀ p < l.length, (record l p).isSome → p * page < size

instance (page : Nat) (l : List (Option R)) (size : Nat) : Decidable (Fits page l size) :=
  inferInstanceAs (Decidable (∀ p < l.length, _))

theorem Fits.put {p : Nat} {r : Option R} (h : Fits page l size) (hr : r.isSome → p * page < size) :
    Fits page (put l p r) size := by
  intro q hq hs
  have := h q
  unfold record SnapDirs.put at *
  grind

theorem Fits.take (h : Fits page l size) (n : Nat) : Fits page (l.take n) size := by
  intro q hq hs
  have := h q
  unfold record at *
  grind

end

/-! ## The requests -/

structure SnapDir (R : Type) where
  pagesIdx : Option (List (Option R)) := none
  /-- `size_bytes` of `snap.json`; the other fields repeat the volume's manifest, alike in every snapshot -/
  snapJson : Option Nat := none

inductive Stage
  | checked
  | sized (size : Nat)
  | made (size : Nat)
  | copying (size : Nat)
  | copied (size : Nat)

structure Create (N : Type) where
  name : N
  stage : Stage

inductive Holder (R : Type)
  | create (t : Nat)
  | restore (frozen : List (Option R)) (next : Nat)

structure Site (N R : Type) where
  index : List (Option R)
  size : Nat
  lock : Option (Holder R)
  dirs : N → Option (SnapDir R)
  creates : Table (Create N)

inductive Act (N R : Type)
  | check (t : Nat) (name : N)
  | capture (t : Nat)
  | mkdir (t : Nat)
  /-- `snapshot_pages_idx` takes the lock, and the copy opens its empty target. -/
  | freeze (t : Nat)
  /-- The copy reads one more record. -/
  | copy (t : Nat)
  /-- The copy is at the end of `pages.idx` and syncs what it finds under its target's name. -/
  | copied (t : Nat)
  /-- `snapshot_pages_idx` returns an error, and the lock is released. -/
  | abort (t : Nat)
  /-- The rename of `snap.json`; the request succeeds. -/
  | commit (t : Nat)
  | fail (t : Nat)
  | destroy (name : N)
  | restoreStart (name : N)
  | restoreRecord
  | restoreEnd
  /-- A flush, a rebind or an UNMAP. -/
  | bind (p : Nat) (r : Option R)
  /-- `set_size` gives up the records from `n` on. -/
  | truncate (n : Nat)
  | storeSize (size : Nat)

section

variable {N R : Type} [DecidableEq N]

namespace Site

def file (s : Site N R) (name : N) : Option (List (Option R)) := (s.dirs name).bind (·.pagesIdx)

def move (s : Site N R) (t : Nat) (name : N) (d : Option (SnapDir R)) (stage : Option Stage) (lock : Option (Holder R)) :
    Site N R where
  index := s.index
  size := s.size
  lock := lock
  dirs := Function.update s.dirs name d
  creates := match stage with
    | some st => s.creates.insert t ⟨name, st⟩
    | none => s.creates.erase t

def reindex (s : Site N R) (l : List (Option R)) (lock : Option (Holder R)) : Site N R :=
  { s with index := l, lock := lock }

def step (s : Site N R) : Act N R → Option (Site N R)
  | .check t name =>
    if s.creates.lookup t = none ∧ s.dirs name = none then some (s.move t name none (some .checked) s.lock) else none
  | .capture t =>
    match s.creates.lookup t with
    | some ⟨name, .checked⟩ => some (s.move t name (s.dirs name) (some (.sized s.size)) s.lock)
    | _ => none
  | .mkdir t =>
    match s.creates.lookup t with
    | some ⟨name, .sized n⟩ => some (s.move t name ((s.dirs name).or (some {})) (some (.made n)) s.lock)
    | _ => none
  | .freeze t =>
    match s.creates.lookup t, s.lock with
    | some ⟨name, .made n⟩, none => (s.dirs name).map (fun d =>
        s.move t name (some { d with pagesIdx := some [] }) (some (.copying n)) (some (.create t)))
    | _, _ => none
  | .copy t =>
    match s.creates.lookup t with
    | some ⟨name, .copying n⟩ => (s.dirs name).bind (fun d => d.pagesIdx.bind (fun l => (s.index[l.length]?).map (fun r =>
        s.move t name (some { d with pagesIdx := some (l ++ [r]) }) (some (.copying n)) s.lock)))
    | _ => none
  | .copied t =>
    match s.creates.lookup t with
    | some ⟨name, .copying n⟩ => (s.file name).bind (fun l =>
        if s.index.length ≤ l.length then some (s.move t name (s.dirs name) (some (.copied n)) none) else none)
    | _ => none
  | .abort t =>
    match s.creates.lookup t with
    | some ⟨name, .copying n⟩ => some (s.move t name (s.dirs name) (some (.made n)) none)
    | _ => none
  | .commit t =>
    match s.creates.lookup t with
    | some ⟨name, .copied n⟩ => (s.dirs name).map fun d => s.move t name (some { d with snapJson := some n }) none s.lock
    | _ => none
  | .fail t =>
    match s.creates.lookup t with
    | some ⟨name, .sized _⟩ => some (s.move t name (s.dirs name) none s.lock)
    | some ⟨name, .made _⟩ | some ⟨name, .copied _⟩ => some (s.move t name none none s.lock)
    | _ => none
  | .destroy name => some { s with dirs := Function.update s.dirs name none }
  | .restoreStart name =>
    match s.lock, s.dirs name with
    | none, some ⟨some l, some _⟩ => some (s.reindex (s.index.take l.length) (some (.restore l 0)))
    | _, _ => none
  | .restoreRecord =>
    match s.lock with
    | some (.restore l n) => (l[n]?).map fun r => s.reindex (put s.index n r) (some (.restore l (n + 1)))
    | _ => none
  | .restoreEnd =>
    match s.lock with
    | some (.restore _ _) => some (s.reindex s.index none)
    | _ => none
  | .bind p r => some (s.reindex (put s.index p r) s.lock)
  | .truncate n => some (s.reindex (s.index.take n) s.lock)
  | .storeSize n => some { s with size := n }

end Site

def machine (N R : Type) [DecidableEq N] : Machine (Site N R) (Act N R) where
  step := Site.step

def Stage.captured : Stage → Option Nat
  | .sized n | .made n | .copying n => some n
  | .checked | .copied _ => none

def Stage.isCopying : Stage → Bool
  | .copying _ => true
  | _ => false

abbrev Site.Quiet (s : Site N R) : Prop := s.creates.All fun _ x => x.stage.isCopying = false

/-- Page `p` is inside what every create that has not copied the index will record as the size. -/
abbrev Site.Room (page : Nat) (s : Site N R) (p : Nat) : Prop :=
  s.creates.All fun _ x => ∀ n ∈ x.stage.captured, p * page < n

/-- **When a step keeps snapshots**: creates of one name do not overlap, the captured size covers the index, and the
index is not written while it is copied. -/
def freezeOk (page : Nat) (s : Site N R) : Act N R → Prop
  | .check _ name => s.creates.All fun _ x => x.name ≠ name
  | .capture _ => Fits page s.index s.size
  | .bind p r => s.Quiet ∧ (r.isSome → s.Room page p)
  | .truncate _ => s.Quiet
  | .restoreRecord =>
    match s.lock with
    | some (.restore l n) => (record l n).isSome → s.Room page n
    | _ => True
  | _ => True

/-! ## The invariant -/

namespace Site

variable (s : Site N R) (t t' : Nat) (name m : N) (d : Option (SnapDir R)) (st : Option Stage) (k : Option (Holder R))

@[grind =]
theorem dirs_move : (s.move t name d st k).dirs m = if m = name then d else s.dirs m :=
  Function.update_apply s.dirs name d m

@[grind =]
theorem lookup_move : (s.move t name d st k).creates.lookup t' =
    if t' = t then st.map (⟨name, ·⟩) else s.creates.lookup t' := by
  cases st with
  | none => exact Table.lookup_erase_eq s.creates t t'
  | some st => exact Table.lookup_insert_eq s.creates t t' ⟨name, st⟩

@[grind =]
theorem index_move : (s.move t name d st k).index = s.index := rfl

@[grind =]
theorem lock_move : (s.move t name d st k).lock = k := rfl

omit [DecidableEq N] in
@[grind =]
theorem dirs_reindex (l : List (Option R)) : (s.reindex l k).dirs m = s.dirs m := rfl

end Site

structure Inv (page : Nat) (s : Site N R) : Prop where
  apart : ∀ t x t' x', s.creates.lookup t = some x → s.creates.lookup t' = some x' → x.name = x'.name → t = t'
  bare : ∀ t x d, s.creates.lookup t = some x → s.dirs x.name = some d → d.snapJson = none
  fits : ∀ t x n, s.creates.lookup t = some x → x.stage.captured = some n → Fits page s.index n
  locked : ∀ t x n, s.creates.lookup t = some x → x.stage = .copying n → s.lock = some (.create t)
  copying : ∀ t x n l, s.creates.lookup t = some x → x.stage = .copying n → s.file x.name = some l →
    l = s.index.take l.length
  copied : ∀ t x n d, s.creates.lookup t = some x → x.stage = .copied n → s.dirs x.name = some d →
    ∃ l, d.pagesIdx = some l ∧ Fits page l n

variable {page : Nat} {s s' : Site N R} {a : Act N R} {t : Nat} {x : Create N} {name : N} {acts : List (Act N R)}

attribute [local grind =] Option.map_eq_some_iff Option.bind_eq_some_iff Option.or_eq_some_iff

section

variable (hi : Inv page s)
include hi

theorem Inv.apart_step (hok : freezeOk page s a) (hs : s.step a = some s') :
    ∀ t x t' x', s'.creates.lookup t = some x → s'.creates.lookup t' = some x' → x.name = x'.name → t = t' := by
  have := hi.apart
  -- a step that is not a create's leaves the table as it is, and the others are all a `move`
  cases a <;> dsimp only [Site.step] at hs <;> try cases hs
  all_goals grind [freezeOk, Site.reindex]

theorem Inv.bare_step (hs : s.step a = some s') :
    ∀ t x d, s'.creates.lookup t = some x → s'.dirs x.name = some d → d.snapJson = none := by
  have := hi.apart
  have := hi.bare
  cases a <;> dsimp only [Site.step] at hs <;> try cases hs
  all_goals grind [Site.reindex]

theorem Inv.fits_step (hok : freezeOk page s a) (hs : s.step a = some s') :
    ∀ t x n, s'.creates.lookup t = some x → x.stage.captured = some n → Fits page s'.index n := by
  have := hi.fits
  cases a <;> dsimp only [Site.step] at hs <;> try cases hs
  all_goals grind [Site.reindex, freezeOk, Stage.captured, Fits.put, Fits.take, record]

theorem Inv.locked_step (hs : s.step a = some s') :
    ∀ t x n, s'.creates.lookup t = some x → x.stage = .copying n → s'.lock = some (.create t) := by
  have := hi.locked
  cases a <;> dsimp only [Site.step] at hs <;> try cases hs
  all_goals grind [Site.reindex]

theorem Inv.copying_step (hok : freezeOk page s a) (hs : s.step a = some s') :
    ∀ t x n l, s'.creates.lookup t = some x → x.stage = .copying n → s'.file x.name = some l →
      l = s'.index.take l.length := by
  have := hi.copying
  have := hi.locked
  have := hi.apart
  have hnext : ∀ (l : List (Option R)) r, l = s.index.take l.length → s.index[l.length]? = some r →
      l ++ [r] = s.index.take (l ++ [r]).length := by
    intro l r hl hr
    rw [List.length_append, List.length_singleton, List.take_add_one, ← hl, hr]
    rfl
  cases a <;> dsimp only [Site.step] at hs <;> try cases hs
  all_goals grind [Site.reindex, freezeOk, Stage.isCopying, Site.file]

theorem Inv.copied_step (hs : s.step a = some s') :
    ∀ t x n d, s'.creates.lookup t = some x → x.stage = .copied n → s'.dirs x.name = some d →
      ∃ l, d.pagesIdx = some l ∧ Fits page l n := by
  have := hi.copied
  have := hi.copying
  have := hi.fits
  have := hi.apart
  cases a <;> dsimp only [Site.step] at hs <;> try cases hs
  all_goals grind [Site.reindex, freezeOk, Stage.captured, Site.file, List.take_of_length_le]

theorem Inv.step (hok : freezeOk page s a) (hs : s.step a = some s') : Inv page s' where
  apart := hi.apart_step hok hs
  bare := hi.bare_step hs
  fits := hi.fits_step hok hs
  locked := hi.locked_step hs
  copying := hi.copying_step hok hs
  copied := hi.copied_step hs

end

/-! ## What an acknowledged snapshot is -/

theorem Inv.kept (hi : Inv page s) {d : SnapDir R} (hs : s.step a = some s')
    (hd : s.dirs name = some d) (hm : d.snapJson ≠ none) (ha : a ≠ .destroy name) : s'.dirs name = some d := by
  have := hi.bare
  cases a <;> dsimp only [Site.step] at hs <;> try cases hs
  all_goals grind [Site.reindex]

theorem Inv.file_of_copied (hi : Inv page s) {n : Nat} {l : List (Option R)} (hs : s.step a = some s')
    (hx : s'.creates.lookup t = some ⟨name, .copied n⟩) (hl : s'.file name = some l) :
    s.creates.lookup t = some ⟨name, .copied n⟩ ∧ s.file name = some l ∨ l = s.index := by
  have := hi.copying
  have := hi.apart
  cases a <;> dsimp only [Site.step] at hs <;> try cases hs
  all_goals grind [Site.reindex, Site.file, List.take_of_length_le]

theorem Site.step_name (hs : s.step a = some s') (hx : s'.creates.lookup t = some x) :
    (∃ x0, s.creates.lookup t = some x0 ∧ x0.name = x.name) ∨ a = .check t x.name := by
  cases a <;> dsimp only [Site.step] at hs <;> try cases hs
  all_goals grind [Site.reindex]

theorem Site.step_commit (hs : s.step (.commit t) = some s') : ∃ name n d, s.creates.lookup t = some ⟨name, .copied n⟩ ∧
    s.dirs name = some d ∧ s'.dirs name = some { d with snapJson := some n } := by
  simp only [Site.step] at hs
  grind

theorem Inv.run_kept (hi : Inv page s) {d : SnapDir R} (hd : s.dirs name = some d)
    (hm : d.snapJson ≠ none) (hok : (machine N R).Meets (freezeOk page) s acts) (hacts : .destroy name ∉ acts)
    (hr : (machine N R).run s acts = some s') : s'.dirs name = some d := by
  have hno : (machine N R).Meets (fun _ a => a ≠ .destroy name) s acts :=
    (machine N R).meets_of_forall fun a ha h => hacts (h ▸ ha)
  exact ((machine N R).run_inv_history (P := fun _ s => Inv page s ∧ s.dirs name = some d)
    (fun _ s a s' _ hp hok hs => ⟨hp.1.step hok.1 hs, hp.1.kept hs hp.2 hm hok.2⟩) ⟨hi, hd⟩ (hok.and _ hno) hr).2

def Seen (s : Site N R) (acts : List (Act N R)) (l : List (Option R)) : Prop :=
  ∃ pre, pre <+: acts ∧ ∃ s', (machine N R).run s pre = some s' ∧ s'.index = l

def Taken (s1 : Site N R) (t : Nat) (name : N) (acts : List (Act N R)) (s : Site N R) : Prop :=
  ∀ x, s.creates.lookup t = some x →
    x.name = name ∧ ∀ n, x.stage = .copied n → ∀ l, s.file name = some l → Seen s1 acts l

theorem Taken.step {s1 : Site N R} (hi : Inv page s) (h : Taken s1 t name acts s)
    (hr : (machine N R).run s1 acts = some s) (ha : ∀ m, a = .check t m → m = name) (hs : s.step a = some s') :
    Taken s1 t name (acts ++ [a]) s' := by
  rintro ⟨m, stage⟩ hx
  obtain rfl : m = name := by
    rcases Site.step_name hs hx with ⟨x0, hx0, hname⟩ | hcheck
    · exact hname.symm.trans (h x0 hx0).1
    · exact ha m hcheck
  refine ⟨rfl, ?_⟩
  rintro n rfl l hl
  rcases hi.file_of_copied hs hx hl with ⟨hold, hfile⟩ | rfl
  · obtain ⟨pre, hpre, hrun⟩ := (h _ hold).2 n rfl l hfile
    exact ⟨pre, hpre.trans (List.prefix_append _ _), hrun⟩
  · exact ⟨acts, List.prefix_append _ _, s, hr, rfl⟩

/-- **An acknowledged snapshot stays as it is**: under `freezeOk` it has the index the volume had during the create, and
neither file changes until `name` is destroyed. -/
theorem acknowledged_snapshot {s0 s1 s2 : Site N R} (page : Nat) (hidle : ∀ t, s0.creates.lookup t = none)
    (hreach : (machine N R).Reaches (freezeOk page) s0 s) {during after : List (Act N R)}
    (hok : (machine N R).Meets (freezeOk page) s (.check t name :: during))
    (hrun : (machine N R).run s (.check t name :: during) = some s1) (hduring : ∀ m, .check t m ∉ during)
    (hcommit : (machine N R).step s1 (.commit t) = some s2) (hok' : (machine N R).Meets (freezeOk page) s2 after)
    (hrun' : (machine N R).run s2 after = some s') (hafter : .destroy name ∉ after) :
    ∃ l size, s2.dirs name = some ⟨some l, some size⟩ ∧ Seen s (.check t name :: during) l ∧ Fits page l size ∧
      s'.dirs name = s2.dirs name := by
  obtain ⟨before, hrun0, hok0⟩ := hreach
  have hi0 : Inv page s := (machine N R).run_inv (fun _ _ _ hi hok hs => hi.step hok hs)
    (by constructor <;> intro t x <;> rw [hidle t] <;> exact nofun) hok0 hrun0
  have hnone : s.creates.lookup t = none := by
    obtain ⟨s3, hcheck, -⟩ := (machine N R).run_cons_some hrun
    simp only [machine, Site.step] at hcheck
    grind
  have hchecks : (machine N R).Meets (fun _ a => ∀ m, a = .check t m → m = name) s (.check t name :: during) := by
    refine (machine N R).meets_of_forall fun a ha m hm => ?_
    subst hm
    rcases List.mem_cons.1 ha with heq | hmem
    · cases heq
      rfl
    · exact absurd hmem (hduring m)
  obtain ⟨hi, htaken⟩ := (machine N R).run_inv_history
    (P := fun acts s' => Inv page s' ∧ Taken s t name acts s')
    (fun acts s a s' hr hp hok hs => ⟨hp.1.step hok.1 hs, hp.2.step hp.1 hr hok.2 hs⟩)
    ⟨hi0, fun x hx => (by rw [hnone] at hx; cases hx)⟩ (hok.and _ hchecks) hrun
  obtain ⟨m, n, d, hx, hd, hnew⟩ := Site.step_commit hcommit
  obtain ⟨rfl, hseen⟩ := htaken _ hx
  obtain ⟨l, hl, hfits⟩ := hi.copied t _ n d hx rfl hd
  refine ⟨l, n, by rw [← hl]; exact hnew, hseen n rfl l (by rw [Site.file, hd]; exact hl), hfits, ?_⟩
  exact ((Inv.step (a := .commit t) hi trivial hcommit).run_kept hnew (by exact nofun) hok' hafter hrun').trans hnew.symm

/-! ## Two creates of one name -/

instance (page : Nat) (s : Site N R) (a : Act N R) : Decidable (freezeOk page s a) := by
  apply Act.casesOn (motive := fun a => Decidable (freezeOk page s a)) a <;> intros <;> unfold freezeOk
  case restoreRecord => rcases s.lock with _ | (_ | _) <;> infer_instance
  all_goals infer_instance

def oneVolume : Site Nat Nat := ⟨[some 7], 4, none, fun _ => none, ∅⟩

def copyRun (t : Nat) : List (Act Nat Nat) := [.capture t, .mkdir t, .freeze t, .copy t, .copied t]

theorem acknowledged_snapshot_one :
    ∃ s, (machine Nat Nat).run oneVolume (.check 1 0 :: copyRun 1) = some s ∧ ∃ s2 s', s.step (.commit 1) = some s2 ∧
      (machine Nat Nat).run s2 [.bind 0 (some 8), .storeSize 8] = some s' ∧ s'.index = [some 8] ∧
      ∃ l size, s2.dirs 0 = some ⟨some l, some size⟩ ∧ Fits 4 l size ∧ s'.dirs 0 = s2.dirs 0 := by
  refine Machine.ends_of (fun s => ∃ s2, s.step (.commit 1) = some s2 ∧
    ∃ s', (machine Nat Nat).run s2 [.bind 0 (some 8), .storeSize 8] = some s' ∧ s'.index = [some 8] ∧
      (machine Nat Nat).Meets (freezeOk 4) s2 [.bind 0 (some 8), .storeSize 8]) (by decide +kernel) ?_
  rintro s hs ⟨s2, hs2, s', hs', hindex, hok'⟩
  obtain ⟨l, size, hd, -, hfits, hkept⟩ := acknowledged_snapshot 4 (fun _ => rfl) (.refl _ _ oneVolume) (by decide +kernel)
    hs (by exact fun m => nofun) hs2 hok' hs' (by exact nofun)
  exact ⟨s2, s', hs2, hs', hindex, l, size, hd, hfits, hkept⟩

/-- The second create found no directory, and fails after the first has succeeded. -/
theorem failed_create_removes :
    ∃ s s', (machine Nat Nat).run oneVolume (.check 1 0 :: .check 2 0 :: copyRun 1 ++ [.commit 1]) = some s ∧
      (machine Nat Nat).run s [.capture 2, .mkdir 2, .fail 2] = some s' ∧
      (s.dirs 0).any (·.snapJson.isSome) ∧ s'.dirs 0 = none :=
  Machine.ends_twice (by decide +kernel)

end

end Thur.SnapDirs

import Thur.Changer.Commands
/-!
# Moves — acknowledged moves are durable and are not undone

Whatever the commands, reloads, write failures and crashes do, memory and `inventory.json` hold a rearrangement of the
first placement (`AllKept`). That the answers are true asks for more: the records of the commands say where each
cartridge has to be (`whereabouts`), memory follows all of them, the file those up to its version (`Ledger`). A failed
write, a reload parsed before a move and a late rollback break this (`Orderly`).
-/
namespace Thur.Changer

open Table (forall_erase lookup_erase_some lookup_insert_some)

/-! ## No cartridge is lost or doubled -/

open List
open Record LibraryInventory

def Within (t : LibraryTopology) (inv : LibraryInventory) : Prop :=
  inv.Distinct ∧ (∀ id ∈ inv.ids.1, id < t.numStorageSlots) ∧ (∀ id ∈ inv.ids.2.1, id < t.numMailSlots) ∧
    ∀ id ∈ inv.ids.2.2, id < t.numDrives
deriving Decidable

variable {t : LibraryTopology} {inv inv' : LibraryInventory} {b : Barcode} {rs : List Record} {v : Nat} {r : Record}
  {inv : LibraryInventory} {pre post : List Record} {f0 : Placement Element Barcode} {as : List SiteAct} {c : Cmd}
  {r : Record} {m : Relocation} {task : Task} {g : Record → Record}

theorem Within.of_ids (h : Within t inv) (hids : inv'.ids = inv.ids) : Within t inv' := by
  simp only [Within, LibraryInventory.Distinct, hids]
  exact h

theorem applyReloadedInventory_within (h : Within t inv) : applyReloadedInventory t inv = inv := by
  obtain ⟨-, hs, hm, hd⟩ := h
  have hs' : inv.storageSlots.filter (fun s => s.id < t.numStorageSlots) = inv.storageSlots :=
    filter_eq_self.2 fun s h => decide_eq_true (hs s.id (mem_map_of_mem h))
  have hm' : inv.mailSlots.filter (fun m => m.id < t.numMailSlots) = inv.mailSlots :=
    filter_eq_self.2 fun m h => decide_eq_true (hm m.id (mem_map_of_mem h))
  have hd' : inv.drives.filter (fun v => v.id < t.numDrives) = inv.drives :=
    filter_eq_self.2 fun v h => decide_eq_true (hd v.id (mem_map_of_mem h))
  simp only [applyReloadedInventory, hs', hm', hd']

theorem LibraryInventory.medium_of_mem_seats (hd : inv.Distinct) {e : Element} (h : (e, b) ∈ inv.seats) :
    inv.medium e = some b := by
  simp only [seats, mem_append, mem_filterMap, Option.ite_none_right_eq_some, Option.map_eq_some_iff,
    Prod.mk.injEq] at h
  rcases h with ⟨x, hx, ho, b', hb, rfl, rfl⟩ | ⟨x, hx, ho, b', hb, rfl, rfl⟩ | ⟨x, hx, ho, b', hb, rfl, rfl⟩
  · exact medium_of_entry (by rw [entry, getStorageSlot, Keyed.get_of_mem hd.1 hx, Option.map_some, ho, hb])
  · exact medium_of_entry (by rw [entry, getMailSlot, Keyed.get_of_mem hd.2.1 hx, Option.map_some, ho, hb])
  · exact medium_of_entry (by rw [entry, getDrive, Keyed.get_of_mem hd.2.2 hx, Option.map_some, ho, hb])

theorem LibraryInventory.medium_eq_of_seats (hd : inv.Distinct) (hd' : inv'.Distinct) (h : inv.seats = inv'.seats) :
    inv.medium = inv'.medium := by
  funext e
  apply Option.ext
  intro b
  constructor
  · exact fun hb => medium_of_mem_seats hd' (h ▸ mem_seats hb)
  · exact fun hb => medium_of_mem_seats hd (h.symm ▸ mem_seats hb)

structure Kept (t : LibraryTopology) (f0 : Placement Element Barcode) (inv : LibraryInventory) : Prop where
  within : Within t inv
  rearranges : Placement.Rearranges f0 inv.medium

theorem Kept.section {r : Section} (h : Kept t f0 inv) (hr : r.Done inv) :
    Kept t f0 r.inventory :=
  ⟨h.within.of_ids hr.ids, h.rearranges.trans hr.rearranges⟩

theorem Kept.relocate {d slot : Nat} (h : Kept t f0 inv)
    (hr : inv.unloadFromDrive d slot = .ok inv') : Kept t f0 inv' := by
  obtain ⟨-, hfree, -, hmove, hids⟩ := relocate_ok hr
  exact ⟨h.within.of_ids hids, h.rearranges.trans (hmove ▸ inv.medium.rearranges_move hfree)⟩

def Task.Carries (P : LibraryInventory → Prop) : Task → Prop
  | .writing c | .driving c | .opening c | .undoing c => P c.content
  | .parsed inv => P inv
  | _ => True

namespace Site

variable {ch : Chassis} {s s' : Site} {a : SiteAct}

theorem written_cases (s : Site) (t : Nat) (c : Cmd) :
    (c.mirror = .none ∧ s.written t c = s.finish t .succeeded) ∨
      (c.mirror ≠ .none ∧ s.written t c = s.setTask t (.driving c)) := by
  unfold written
  cases hm : c.mirror <;> simp

theorem loadFailed_cases (s : Site) (t : Nat) (c : Cmd) :
    (c.admin = true ∧ s.loadFailed t c = s.finish t .succeeded) ∨
      (c.admin = false ∧ s.loadFailed t c = s.setTask t (.undoing c)) := by
  unfold loadFailed
  cases hm : c.admin <;> simp

theorem writeIfNewer_cases (s : Site) (v : Nat) (inv : LibraryInventory) (works : Bool) :
    (s.writeIfNewer v inv works).getD s = s ∨
      (s.writeIfNewer v inv works).getD s = { s with file := inv, lastWritten := v } := by
  unfold writeIfNewer
  split
  · exact .inl rfl
  · split
    · exact .inr rfl
    · exact .inl rfl

structure AllKept (t : LibraryTopology) (f0 : Placement Element Barcode) (s : Site) : Prop where
  memory : Kept t f0 s.inventory
  file : Kept t f0 s.file
  tasks : ∀ i task, s.tasks.lookup i = some task → task.Carries (Kept t f0)

namespace AllKept

variable {t : LibraryTopology} {f0 : Placement Element Barcode} {i : Nat}

section

variable (h : AllKept t f0 s)
include h

theorem finish (i : Nat) (o : Outcome) : AllKept t f0 (s.finish i o) :=
  ⟨h.memory, h.file, forall_erase h.tasks i⟩

theorem setTask (ht : task.Carries (Kept t f0)) : AllKept t f0 (s.setTask i task) :=
  ⟨h.memory, h.file, Table.forall_insert h.tasks ht⟩

theorem written (hc : Kept t f0 c.content) : AllKept t f0 (s.written i c) := by
  rcases s.written_cases i c with ⟨-, he⟩ | ⟨-, he⟩
  · exact he ▸ h.finish i _
  · exact he ▸ h.setTask hc

theorem loadFailed (hc : Kept t f0 c.content) : AllKept t f0 (s.loadFailed i c) := by
  rcases s.loadFailed_cases i c with ⟨-, he⟩ | ⟨-, he⟩
  · exact he ▸ h.finish i _
  · exact he ▸ h.setTask hc

theorem writeIfNewer {v : Nat} (hi : Kept t f0 inv) (works : Bool) :
    AllKept t f0 ((s.writeIfNewer v inv works).getD s) := by
  rcases s.writeIfNewer_cases v inv works with he | he
  · rw [he]
    exact h
  · rw [he]
    exact ⟨h.memory, hi, h.tasks⟩

end

end AllKept

/-- **No step loses or doubles a cartridge.** -/
theorem step_allKept (hf : f0.Once) (h : AllKept ch.topology f0 s)
    (hs : s.step ch a = some s') : AllKept ch.topology f0 s' := by
  cases step_effect hs with
  | refused | hostWrote | preflightRefused => exact h
  | begun hl ht hp =>
    have hk := h.memory.section (Chassis.perform_done (h.memory.rearranges.once hf) hp)
    exact ⟨hk, h.file, Table.forall_insert h.tasks hk⟩
  | skipped ht => exact h.written (h.tasks _ _ ht)
  | wrote ht =>
    have hc := h.tasks _ _ ht
    refine AllKept.written ?_ hc
    exact ⟨h.memory, hc, h.tasks⟩
  | writeFailed | undoRefused => exact h.finish _ _
  | unloaded | loaded =>
    refine AllKept.finish ?_ _ _
    exact ⟨h.memory, h.file, h.tasks⟩
  | loadRefused ht | openFailed ht => exact h.loadFailed (h.tasks _ _ ht)
  | loadAdmitted ht =>
    have hc := h.tasks _ _ ht
    exact h.setTask hc
  | undone ht hl hm hu hs' =>
    have hk := h.memory.relocate hu
    rw [hs']
    refine (AllKept.writeIfNewer ?_ hk _).finish _ _
    exact ⟨hk, h.file, h.tasks⟩
  | initParsed => exact h.setTask h.file
  | initApplied ht =>
    have hk := h.tasks _ _ ht
    exact ⟨(applyReloadedInventory_within hk.within).symm ▸ hk, h.file, forall_erase h.tasks _⟩
  | scsiUnloaded => exact ⟨h.memory, h.file, h.tasks⟩
  | preflightPassed | recheckPassed => exact h.setTask trivial
  | claimRefused | recheckRefused | migrated => exact ⟨h.memory, h.file, forall_erase h.tasks _⟩
  | claimed =>
    refine AllKept.setTask ?_ trivial
    exact ⟨h.memory, h.file, h.tasks⟩
  | crashed => exact ⟨h.file, h.file, fun _ _ h => by cases h⟩

theorem started_allKept {t : LibraryTopology} (h : Within t inv) :
    AllKept t inv.medium (started inv) :=
  ⟨⟨h, .refl _⟩, ⟨h, .refl _⟩, fun _ _ h => by cases h⟩

theorem run_allKept (ho : inv.medium.Once) (h : Within ch.topology inv)
    (hr : (machine ch).run (started inv) as = some s) : AllKept ch.topology inv.medium s :=
  (machine ch).run_inv' (fun _ _ _ hk hs => step_allKept ho hk hs) (started_allKept h) hr

end Site

/-! ## Where the records put a cartridge -/

def Record.stands (r : Record) : Bool :=
  match r.outcome with
  | .failed => false
  | .cut durable => durable
  | _ => true

def Record.carry (b : Barcode) (e : Element) (r : Record) : Element :=
  if r.stands then ((r.moved.find? (fun m => m.barcode = b)).map Relocation.dst).getD e else e

def whereabouts (b : Barcode) (e : Element) (rs : List Record) : Element := rs.foldl (carry b) e

namespace Record

variable {r : Record} {b : Barcode} {e : Element}

theorem carry_of_not_stands (h : r.stands = false) : r.carry b e = e := by simp [carry, h]

theorem carry_of_not_moved (h : ∀ m ∈ r.moved, m.barcode ≠ b) : r.carry b e = e := by
  have hnone : r.moved.find? (fun m => m.barcode = b) = none := find?_eq_none.2 fun m hm => by simpa using h m hm
  simp [carry, hnone]

theorem carry_of_moved (hs : r.stands = true) (hn : (r.moved.map Relocation.barcode).Nodup)
    (hm : m ∈ r.moved) : r.carry m.barcode e = m.dst := by
  have hfind : r.moved.find? (fun m' => m'.barcode = m.barcode) = some m := Keyed.get_of_mem hn hm
  simp [carry, hs, hfind]

theorem carry_cases (b : Barcode) (e : Element) (r : Record) :
    r.carry b e = e ∨ (r.stands = true ∧ ∃ m ∈ r.moved, m.barcode = b ∧ r.carry b e = m.dst) := by
  by_cases hs : r.stands = true
  · cases hf : r.moved.find? (fun m => m.barcode = b) with
    | none => exact .inl (by simp [carry, hf])
    | some m =>
      refine .inr ⟨hs, m, mem_of_find?_eq_some hf, ?_, by simp [carry, hs, hf]⟩
      simpa using find?_some hf
  · exact .inl (carry_of_not_stands (by simpa using hs))

theorem carry_congr {r' : Record} (hm : r'.moved = r.moved) (hs : r'.stands = r.stands) : r'.carry b e = r.carry b e := by
  simp only [carry, hm, hs]

end Record

@[simp] theorem whereabouts_append (b : Barcode) (e : Element) (rs rs' : List Record) :
    whereabouts b e (rs ++ rs') = whereabouts b (whereabouts b e rs) rs' := by
  simp [whereabouts]

@[simp] theorem whereabouts_cons (b : Barcode) (e : Element) (r : Record) (rs : List Record) :
    whereabouts b e (r :: rs) = whereabouts b (r.carry b e) rs := rfl

@[simp] theorem whereabouts_nil (b : Barcode) (e : Element) : whereabouts b e [] = e := rfl

theorem whereabouts_cases (b : Barcode) : ∀ (rs : List Record) (e : Element), whereabouts b e rs = e ∨
    ∃ r ∈ rs, r.stands = true ∧ ∃ m ∈ r.moved, m.barcode = b ∧ whereabouts b e rs = m.dst
  | [], _ => .inl rfl
  | r :: rs, e => by
    rw [whereabouts_cons]
    rcases whereabouts_cases b rs (r.carry b e) with h | ⟨r', hr', hs, m, hm, hb, h⟩
    · rcases r.carry_cases b e with h' | ⟨hs, m, hm, hb, h'⟩
      · exact .inl (h.trans h')
      · exact .inr ⟨r, List.mem_cons_self, hs, m, hm, hb, h.trans h'⟩
    · exact .inr ⟨r', List.mem_cons_of_mem r hr', hs, m, hm, hb, h⟩

theorem whereabouts_of_not_moved (h : ∀ r ∈ rs, ∀ m ∈ r.moved, m.barcode ≠ b) (e : Element) :
    whereabouts b e rs = e := by
  rcases whereabouts_cases b rs e with h' | ⟨r, hr, -, m, hm, hb, -⟩
  · exact h'
  · exact absurd hb (h r hr m hm)

theorem whereabouts_map : ∀ {rs : List Record} {e : Element},
    (∀ r ∈ rs, ∀ e, (g r).carry b e = r.carry b e) → whereabouts b e (rs.map g) = whereabouts b e rs
  | [], _, _ => rfl
  | r :: rs, e, h => by
    rw [List.map_cons, whereabouts_cons, whereabouts_cons, h r List.mem_cons_self,
      whereabouts_map (fun r' hr' => h r' (List.mem_cons_of_mem r hr'))]

def upTo (v : Nat) (rs : List Record) : List Record := rs.filter fun r => r.version ≤ v

theorem upTo_eq_self (h : ∀ r ∈ rs, r.version ≤ v) : upTo v rs = rs :=
  filter_eq_self.2 fun r hr => decide_eq_true (h r hr)

theorem upTo_append (v : Nat) (rs rs' : List Record) : upTo v (rs ++ rs') = upTo v rs ++ upTo v rs' :=
  filter_append rs rs'

theorem upTo_cons_of_le (h : r.version ≤ v) (rs : List Record) : upTo v (r :: rs) = r :: upTo v rs :=
  filter_cons_of_pos (decide_eq_true h)

theorem upTo_cons_of_lt (h : v < r.version) (rs : List Record) : upTo v (r :: rs) = upTo v rs :=
  filter_cons_of_neg (by simpa using h)

theorem upTo_newer (h : v < r.version) (rs : List Record) : upTo v (rs ++ [r]) = upTo v rs := by
  simp [upTo, h]

theorem upTo_map (v : Nat) (h : ∀ r, (g r).version = r.version) (rs : List Record) :
    upTo v (rs.map g) = (upTo v rs).map g := by
  simp only [upTo, filter_map, Function.comp_def, h]

theorem mem_of_mem_upTo (h : r ∈ upTo v rs) : r ∈ rs :=
  mem_of_mem_filter h

def Tracks (f0 f : Placement Element Barcode) (rs : List Record) : Prop :=
  ∀ b e, f0 e = some b → f (whereabouts b e rs) = some b

namespace Tracks

variable {f0 f g : Placement Element Barcode} {rs : List Record}

theorem map (h : Tracks f0 f rs) {k : Record → Record} (hk : ∀ r ∈ rs, ∀ b e, (k r).carry b e = r.carry b e) :
    Tracks f0 f (rs.map k) := by
  intro b e he
  rw [whereabouts_map (fun r hr e => hk r hr b e)]
  exact h b e he

theorem append (h : Tracks f0 f rs) (hs : r.stands = true) (hp : Performs f g r.moved) :
    Tracks f0 g (rs ++ [r]) := by
  intro b e he
  rw [whereabouts_append, whereabouts_cons, whereabouts_nil]
  by_cases hm : ∃ m ∈ r.moved, m.barcode = b
  · obtain ⟨m, hm, rfl⟩ := hm
    rw [r.carry_of_moved hs hp.nodup hm]
    exact hp.dst m hm
  · have hnot : ∀ m ∈ r.moved, m.barcode ≠ b := fun m hm' hb => hm ⟨m, hm', hb⟩
    rw [r.carry_of_not_moved hnot]
    exact hp.rest _ b (h b e he) hnot

end Tracks

theorem split_concat {r' : Record} (h : rs ++ [r] = pre ++ r' :: post) :
    (pre = rs ∧ r' = r) ∨ ∃ post', rs = pre ++ r' :: post' := by
  rcases eq_nil_or_concat post with rfl | ⟨post', r2, rfl⟩
  · have h' := append_inj' h rfl
    exact .inl ⟨h'.1.symm, (cons.inj h'.2).1.symm⟩
  · rw [concat_eq_append, ← cons_append, ← append_assoc] at h
    exact .inr ⟨post', (append_inj' h rfl).1⟩

/-! ## Answers -/

namespace Record

variable {r : Record} {t : Nat} {o : Outcome}

@[simp] theorem answer_version : (r.answer t o).version = r.version := by
  unfold answer
  split <;> rfl

@[simp] theorem answer_moved : (r.answer t o).moved = r.moved := by
  unfold answer
  split <;> rfl

@[simp] theorem answer_task : (r.answer t o).task = r.task := by
  unfold answer
  split <;> rfl

theorem answer_of_not (h : ¬ (r.task = t ∧ r.outcome = .pending)) : r.answer t o = r := if_neg h

theorem answer_stands : (r.answer t .succeeded).stands = r.stands := by
  unfold answer
  split
  · next h => simp [stands, h.2]
  · rfl

theorem answer_pending (ho : o ≠ .pending) (h : (r.answer t o).outcome = .pending) :
    r.task ≠ t ∧ r.outcome = .pending := by
  unfold answer at h
  split at h
  · exact absurd h ho
  · next hn => exact ⟨fun ht => hn ⟨ht, h⟩, h⟩

theorem answer_settled (h : (r.answer t o).outcome ≠ .pending) :
    (r.task = t ∧ r.outcome = .pending) ∨ r.outcome ≠ .pending := by
  unfold answer at h
  split at h
  · next hn => exact .inl hn
  · exact .inr h

end Record

/-! ## The ledger -/

def Task.cmd? : Task → Option Cmd
  | .writing c | .driving c | .opening c | .undoing c => some c
  | _ => none

def Record.Matches (r : Record) (c : Cmd) : Prop :=
  r.version = c.version ∧ ∀ d b slot, c.mirror = .load d b slot → r.moved = [⟨b, .storage slot, .drive d⟩]

namespace Site

variable {ch : Chassis} {s s' : Site} {f0 : Placement Element Barcode} {task' : Task} {inv file : LibraryInventory}

/-- Memory is no older than the file, and a command past its write is in the file. -/
structure Versioned (s : Site) : Prop where
  written : s.lastWritten ≤ s.version
  begun : ∀ t c, s.tasks.lookup t = some (.writing c) → c.version ≤ s.version
  past : ∀ t task c, s.tasks.lookup t = some task → task.cmd? = some c → task = .writing c ∨ c.version ≤ s.lastWritten

theorem started_versioned (inv : LibraryInventory) : Versioned (started inv) where
  written := le_refl _
  begun := fun _ _ h => by cases h
  past := fun _ _ _ h => by cases h

namespace Versioned

section

variable (h : Versioned s)
include h

theorem congr (hv : s'.version = s.version) (hw : s'.lastWritten = s.lastWritten)
    (ht : s'.tasks = s.tasks) : Versioned s' := by
  refine ⟨?_, ?_, ?_⟩
  · rw [hv, hw]
    exact h.written
  · rw [hv, ht]
    exact h.begun
  · rw [hw, ht]
    exact h.past

theorem setTask {t : Nat} (hc' : ∀ c, task'.cmd? = some c → c.version ≤ s.lastWritten) :
    Versioned (s.setTask t task') := by
  refine ⟨h.written, ?_, ?_⟩
  · intro t' c ht'
    rcases lookup_insert_some ht' with ⟨rfl, rfl⟩ | ⟨-, ht'⟩
    · exact (hc' c rfl).trans h.written
    · exact h.begun t' c ht'
  · intro t' task c ht' hc
    rcases lookup_insert_some ht' with ⟨rfl, rfl⟩ | ⟨-, ht'⟩
    · exact .inr (hc' c hc)
    · exact h.past t' task c ht' hc

theorem erase (t : Nat) : Versioned { s with tasks := s.tasks.erase t } :=
  ⟨h.written, fun t' c ht' => h.begun t' c (lookup_erase_some ht').2,
    fun t' task c ht' => h.past t' task c (lookup_erase_some ht').2⟩

theorem wrote {v v' : Nat} (hv : s.lastWritten ≤ v') (hle : v' ≤ v)
    (hv' : s.version ≤ v) : Versioned { s with inventory := inv, version := v, file := file, lastWritten := v' } :=
  ⟨hle, fun t c ht => (h.begun t c ht).trans hv',
    fun t task c ht hc => (h.past t task c ht hc).imp_right (fun hle => hle.trans hv)⟩

theorem begin (t : Nat) (admin : Bool) (r : Section) : Versioned (s.begun t admin r) := by
  refine ⟨h.written.trans (Nat.le_succ _), ?_, ?_⟩
  · intro t' c ht'
    rcases lookup_insert_some ht' with ⟨rfl, hc⟩ | ⟨-, ht'⟩
    · cases hc
      exact le_refl _
    · exact (h.begun t' c ht').trans (Nat.le_succ _)
  · intro t' task c ht' hc
    rcases lookup_insert_some ht' with ⟨rfl, rfl⟩ | ⟨-, ht'⟩
    · cases hc
      exact .inl rfl
    · exact h.past t' task c ht' hc

theorem of_past {t : Nat} (ht : s.tasks.lookup t = some task)
    (hc : task.cmd? = some c) (hne : task ≠ .writing c) : c.version ≤ s.lastWritten :=
  (h.past t task c ht hc).resolve_left hne

end

end Versioned

structure Book (f0 : Placement Element Barcode) (s : Site) : Prop extends Versioned s where
  sorted : s.trail.Pairwise fun r r' => r.version ≤ r'.version
  bound : ∀ r ∈ s.trail, r.version ≤ s.version
  nodup : ∀ r ∈ s.trail, (r.moved.map Relocation.barcode).Nodup
  has : ∀ r ∈ s.trail, ∀ m ∈ r.moved, f0.Has m.barcode
  /-- a command that is over is in the file -/
  settled : ∀ r ∈ s.trail, r.outcome ≠ .pending → r.version ≤ s.lastWritten
  owner : ∀ r ∈ s.trail, r.outcome = .pending →
    ∃ task c, s.tasks.lookup r.task = some task ∧ task.cmd? = some c ∧ r.Matches c
  owned : ∀ t task c, s.tasks.lookup t = some task → task.cmd? = some c →
    ∃ r ∈ s.trail, r.task = t ∧ r.outcome = .pending
  unique : s.trail.Pairwise fun r r' => r.outcome = .pending → r'.outcome = .pending → r.task ≠ r'.task

/-- A command pending or failed took its cartridges from where the records before it had put them. -/
def Origins (f0 : Placement Element Barcode) (rs : List Record) : Prop :=
  ∀ pre r post, rs = pre ++ r :: post → r.outcome = .pending ∨ r.outcome = .failed →
    ∀ m ∈ r.moved, ∀ e, f0 e = some m.barcode → whereabouts m.barcode e pre = m.src

theorem Origins.replace {r r' : Record} (h : Origins f0 (pre ++ r :: post))
    (hmoved : r'.moved = r.moved) (hr : r.outcome = .pending ∨ r.outcome = .failed)
    (hpost : ∀ x ∈ post, ∀ m ∈ x.moved, ∀ e, r'.carry m.barcode e = r.carry m.barcode e) :
    Origins f0 (pre ++ r' :: post) := by
  intro pre1 r1 post1 hsplit hout m hm e he
  rcases append_eq_append_iff.1 hsplit with ⟨as, rfl, has⟩ | ⟨cs, rfl, hcs⟩
  · cases as with
    | nil =>
      obtain ⟨rfl, rfl⟩ := cons.inj has
      simpa using h pre r post rfl hr m (hmoved ▸ hm) e he
    | cons x as =>
      obtain ⟨rfl, rfl⟩ := cons.inj has
      have h' := h (pre ++ r :: as) r1 post1 (by simp) hout m hm e he
      rw [whereabouts_append, whereabouts_cons] at h' ⊢
      rwa [hpost r1 (by simp) m hm]
  · cases cs with
    | nil =>
      obtain ⟨rfl, rfl⟩ := cons.inj hcs
      exact h pre1 r post1 (by simp) hr m (hmoved ▸ hm) e he
    | cons x cs =>
      obtain ⟨rfl, rfl⟩ := cons.inj hcs
      exact h pre1 r1 (cs ++ r :: post) (by simp) hout m hm e he

def rewritten (s : Site) (inv : LibraryInventory) : Site :=
  { s with inventory := inv, version := s.version + 1, file := inv, lastWritten := s.version + 1 }

structure Ledger (f0 : Placement Element Barcode) (s : Site) : Prop extends Book f0 s where
  memory : Tracks f0 s.inventory.medium s.trail
  file : Tracks f0 s.file.medium (upTo s.lastWritten s.trail)
  /-- a snapshot that may still be written is of its version -/
  snapshots : ∀ t c, s.tasks.lookup t = some (.writing c) → s.lastWritten < c.version →
    Tracks f0 c.content.medium (upTo c.version s.trail)
  origins : Origins f0 s.trail

theorem started_ledger (inv : LibraryInventory) : Ledger inv.medium (started inv) where
  toVersioned := started_versioned inv
  sorted := .nil
  bound := by simp [started]
  nodup := by simp [started]
  has := by simp [started]
  settled := by simp [started]
  owner := by simp [started]
  owned := fun _ _ _ h => by cases h
  unique := .nil
  memory := fun _ _ h => h
  file := fun _ _ h => h
  snapshots := fun _ _ h => by cases h
  origins := by simp [started, Origins]

def since (s : Site) (t : Nat) : List Record :=
  (s.trail.dropWhile (fun r => !decide (r.task = t ∧ r.outcome = .pending))).tail

namespace Book

variable {t : Nat} {task : Task} {c : Cmd}

section

variable (h : Book f0 s)
include h

theorem split {r0 : Record} (hr0 : r0 ∈ s.trail) (ht0 : r0.task = t) (hp0 : r0.outcome = .pending) :
    ∃ pre r post, s.trail = pre ++ r :: post ∧ r.task = t ∧ r.outcome = .pending ∧
      (∀ r' ∈ pre, ¬ (r'.task = t ∧ r'.outcome = .pending)) ∧
      (∀ r' ∈ post, ¬ (r'.task = t ∧ r'.outcome = .pending)) ∧ s.since t = post := by
  obtain ⟨pre, r, post, htrail, hr⟩ : ∃ pre r post, s.trail = pre ++ r :: post ∧ r.task = t ∧ r.outcome = .pending := by
    obtain ⟨pre, post, htrail⟩ := append_of_mem hr0
    exact ⟨pre, r0, post, htrail, ht0, hp0⟩
  have hu := h.unique
  rw [htrail, pairwise_append, pairwise_cons] at hu
  have hpre : ∀ r' ∈ pre, ¬ (r'.task = t ∧ r'.outcome = .pending) :=
    fun r' hr' hn => hu.2.2 r' hr' r mem_cons_self hn.2 hr.2 (hn.1.trans hr.1.symm)
  have hpost : ∀ r' ∈ post, ¬ (r'.task = t ∧ r'.outcome = .pending) :=
    fun r' hr' hn => hu.2.1.1 r' hr' hr.2 hn.2 (hr.1.trans hn.1.symm)
  refine ⟨pre, r, post, htrail, hr.1, hr.2, hpre, hpost, ?_⟩
  have hskip : ∀ r' ∈ pre, (!decide (r'.task = t ∧ r'.outcome = .pending)) = true := by
    intro r' hr'
    rw [decide_eq_false (hpre r' hr')]
    rfl
  rw [since, htrail, dropWhile_append_of_pos hskip, dropWhile_cons_of_neg (by simp [hr])]
  rfl

theorem matches_of_owner (hr : r ∈ s.trail) (hp : r.outcome = .pending)
    (ht : s.tasks.lookup r.task = some task) (hc : task.cmd? = some c) : r.Matches c := by
  obtain ⟨task', c', ht', hc', hm⟩ := h.owner r hr hp
  rw [ht, Option.some.injEq] at ht'
  subst ht'
  rw [hc, Option.some.injEq] at hc'
  subst hc'
  exact hm

theorem setTask (hsame : (s.tasks.lookup t).bind Task.cmd? = task'.cmd?)
    (hv : ∀ c, task'.cmd? = some c → c.version ≤ s.lastWritten) : Book f0 (s.setTask t task') := by
  refine ⟨h.toVersioned.setTask hv, h.sorted, h.bound, h.nodup, h.has, h.settled, ?_, ?_, h.unique⟩
  · intro r hr hp
    obtain ⟨task1, c1, ht1, hc1, hm⟩ := h.owner r hr hp
    by_cases hrt : r.task = t
    · subst hrt
      rw [ht1] at hsame
      exact ⟨task', c1, AList.lookup_insert _, hsame.symm.trans hc1, hm⟩
    · exact ⟨task1, c1, by rw [Site.setTask, AList.lookup_insert_ne hrt]; exact ht1, hc1, hm⟩
  · intro t' task1 c' ht' hc1
    rcases lookup_insert_some ht' with ⟨rfl, rfl⟩ | ⟨-, ht'⟩
    · obtain ⟨task, ht, hc⟩ := Option.bind_eq_some_iff.1 (hsame.trans hc1)
      exact h.owned t' task c' ht hc
    · exact h.owned t' task1 c' ht' hc1

theorem dropTask (ht : s.tasks.lookup t = some task) (hc : task.cmd? = none) :
    Book f0 { s with tasks := s.tasks.erase t } := by
  refine ⟨h.toVersioned.erase t, h.sorted, h.bound, h.nodup, h.has, h.settled, ?_, ?_, h.unique⟩
  · intro r hr hp
    obtain ⟨task1, c1, ht1, hc1, hm⟩ := h.owner r hr hp
    have hne : r.task ≠ t := by
      rintro rfl
      rw [ht, Option.some.injEq] at ht1
      rw [← ht1, hc] at hc1
      cases hc1
    exact ⟨task1, c1, (AList.lookup_erase_ne hne).trans ht1, hc1, hm⟩
  · exact fun t' task' c' ht' => h.owned t' task' c' (lookup_erase_some ht').2

theorem wrote {v v' : Nat} (hv : s.lastWritten ≤ v') (hle : v' ≤ v)
    (hv' : s.version ≤ v) : Book f0 { s with inventory := inv, version := v, file := file, lastWritten := v' } where
  toVersioned := h.toVersioned.wrote hv hle hv'
  sorted := h.sorted
  bound := fun r hr => (h.bound r hr).trans hv'
  nodup := h.nodup
  has := h.has
  settled := fun r hr hp => (h.settled r hr hp).trans hv
  owner := h.owner
  owned := h.owned
  unique := h.unique

theorem finish {o : Outcome} (ht : s.tasks.lookup t = some task) (hc : task.cmd? = some c)
    (ho : o ≠ .pending) (hv : c.version ≤ s.lastWritten) : Book f0 (s.finish t o) := by
  refine ⟨(h.toVersioned.erase t).congr rfl rfl rfl, ?_, ?_, ?_, ?_, ?_, ?_, ?_, ?_⟩
  · exact pairwise_map.2 (by simpa using h.sorted)
  · exact forall_mem_map.2 fun r hr => r.answer_version.trans_le (h.bound r hr)
  · exact forall_mem_map.2 fun r hr => by simpa using h.nodup r hr
  · exact forall_mem_map.2 fun r hr => by simpa using h.has r hr
  · refine forall_mem_map.2 (fun r hr hp => ?_)
    rw [answer_version]
    rcases answer_settled hp with ⟨rfl, hpend⟩ | hp
    · exact (h.matches_of_owner hr hpend ht hc).1 ▸ hv
    · exact h.settled r hr hp
  · refine forall_mem_map.2 (fun r hr hp => ?_)
    obtain ⟨hne, hp⟩ := answer_pending ho hp
    obtain ⟨task1, c1, ht1, hc1, hm⟩ := h.owner r hr hp
    refine ⟨task1, c1, ?_, hc1, ?_⟩
    · rw [answer_task]
      exact (AList.lookup_erase_ne hne).trans ht1
    · rw [answer_of_not (fun hn => hne hn.1)]
      exact hm
  · intro t' task' c' ht' hc'
    obtain ⟨hne, ht'⟩ := lookup_erase_some ht'
    obtain ⟨r, hr, hrt, hp⟩ := h.owned t' task' c' ht' hc'
    have hkeep : r.answer t o = r := answer_of_not fun hn => hne (hrt.symm.trans hn.1)
    exact ⟨r, hkeep ▸ mem_map_of_mem hr, hrt, hp⟩
  · refine pairwise_map.2 (h.unique.imp ?_)
    intro r r' hr hp hp'
    rw [answer_task, answer_task]
    exact hr (answer_pending ho hp).2 (answer_pending ho hp').2

theorem begin (hk : Placement.Rearranges f0 s.inventory.medium) {admin : Bool} {r : Section}
    (ht : s.tasks.lookup t = none) (hr : r.Done s.inventory) : Book f0 (s.begun t admin r) := by
  have hfresh : ∀ r' ∈ s.trail, r'.outcome = .pending → r'.task ≠ t := by
    rintro r' hr' hp rfl
    obtain ⟨task, c, ht', -⟩ := h.owner r' hr' hp
    rw [ht] at ht'
    cases ht'
  refine ⟨h.toVersioned.begin t admin r, ?_, ?_, ?_, ?_, ?_, ?_, ?_, ?_⟩
  · refine pairwise_append.2 ⟨h.sorted, pairwise_singleton _ _, ?_⟩
    intro r1 h1 r2 h2
    rw [mem_singleton.1 h2]
    exact (h.bound r1 h1).trans (Nat.le_succ _)
  · refine forall_mem_append.2 ⟨fun r' hr' => ?_, forall_mem_singleton.2 (le_refl _)⟩
    exact (h.bound r' hr').trans (Nat.le_succ _)
  · exact forall_mem_append.2 ⟨h.nodup, forall_mem_singleton.2 hr.performs.nodup⟩
  · refine forall_mem_append.2 ⟨h.has, forall_mem_singleton.2 fun m hm => ?_⟩
    exact (hk.has_iff m.barcode).1 ⟨m.src, hr.performs.src m hm⟩
  · exact forall_mem_append.2 ⟨h.settled, forall_mem_singleton.2 (absurd rfl)⟩
  · refine forall_mem_append.2 ⟨fun r' hr' hp => ?_, forall_mem_singleton.2 fun _ => ?_⟩
    · obtain ⟨task, c, ht', hc, hm⟩ := h.owner r' hr' hp
      exact ⟨task, c, (AList.lookup_insert_ne (hfresh r' hr' hp)).trans ht', hc, hm⟩
    · exact ⟨_, _, AList.lookup_insert _, rfl, rfl, fun d b slot hm => (hr.load d b slot hm).1⟩
  · intro t' task c' ht' hc'
    rcases lookup_insert_some ht' with ⟨rfl, rfl⟩ | ⟨-, ht'⟩
    · exact ⟨_, mem_append_right _ (mem_singleton.2 rfl), rfl, rfl⟩
    · obtain ⟨r', hr', hrt, hp⟩ := h.owned t' task c' ht' hc'
      exact ⟨r', mem_append_left _ hr', hrt, hp⟩
  · refine pairwise_append.2 ⟨h.unique, pairwise_singleton _ _, ?_⟩
    intro r1 h1 r2 h2 hp _
    rw [mem_singleton.1 h2]
    exact hfresh r1 h1 hp

end

end Book

namespace Ledger

theorem aside (h : Ledger f0 s) (lock : Option Nat) (opened : Nat → Option Barcode) (claims : List Barcode) :
    Ledger f0 { s with lock := lock, opened := opened, claims := claims } :=
  ⟨⟨h.toVersioned.congr rfl rfl rfl, h.sorted, h.bound, h.nodup, h.has, h.settled, h.owner, h.owned, h.unique⟩,
    h.memory, h.file, h.snapshots, h.origins⟩

variable {t : Nat} {task : Task} {c : Cmd}

section

variable (h : Ledger f0 s)
include h

theorem setTask (hsame : (s.tasks.lookup t).bind Task.cmd? = task'.cmd?)
    (hv : ∀ c, task'.cmd? = some c → c.version ≤ s.lastWritten) : Ledger f0 (s.setTask t task') := by
  refine ⟨h.toBook.setTask hsame hv, h.memory, h.file, ?_, h.origins⟩
  intro t' c' ht' hlt
  rcases lookup_insert_some ht' with ⟨rfl, rfl⟩ | ⟨-, ht'⟩
  · exact absurd (hv c' rfl) (Nat.not_le.2 hlt)
  · exact h.snapshots t' c' ht' hlt

theorem dropTask (ht : s.tasks.lookup t = some task) (hc : task.cmd? = none) :
    Ledger f0 { s with tasks := s.tasks.erase t } :=
  ⟨h.toBook.dropTask ht hc, h.memory, h.file, fun t' c' ht' => h.snapshots t' c' (lookup_erase_some ht').2, h.origins⟩

theorem reload (hi : inv.medium = s.inventory.medium) :
    Ledger f0 { s with inventory := inv } :=
  ⟨h.toBook.wrote (le_refl _) h.written (le_refl _), hi ▸ h.memory, h.file, h.snapshots, h.origins⟩

theorem wrote (ht : s.tasks.lookup t = some (.writing c)) (hv : s.lastWritten < c.version) :
    Ledger f0 { s with file := c.content, lastWritten := c.version } :=
  ⟨h.toBook.wrote hv.le (h.begun t c ht) (le_refl _), h.memory, h.snapshots t c ht hv,
    fun t' c' ht' hlt => h.snapshots t' c' ht' (hv.trans hlt), h.origins⟩

theorem begin (hk : Placement.Rearranges f0 s.inventory.medium) (ho : s.inventory.medium.Once)
    {admin : Bool} {r : Section} (ht : s.tasks.lookup t = none) (hr : r.Done s.inventory) :
    Ledger f0 (s.begun t admin r) := by
  have hbook : Book f0 (s.begun t admin r) := h.toBook.begin hk ht hr
  have hmem : Tracks f0 r.inventory.medium (s.trail ++ [⟨t, s.version + 1, r.moved, .pending⟩]) :=
    h.memory.append rfl hr.performs
  have hold : ∀ {v}, v ≤ s.version → upTo v (s.trail ++ [⟨t, s.version + 1, r.moved, .pending⟩]) = upTo v s.trail :=
    fun hv => upTo_newer (Nat.lt_succ_of_le hv) _
  refine ⟨hbook, hmem, ?_, ?_, ?_⟩
  · show Tracks f0 s.file.medium (upTo s.lastWritten (s.trail ++ _))
    rw [hold h.written]
    exact h.file
  · intro t' c' ht' hlt
    rcases lookup_insert_some ht' with ⟨rfl, hc⟩ | ⟨-, ht'⟩
    · cases hc
      show Tracks f0 r.inventory.medium (upTo (s.begun t' admin r).version (s.begun t' admin r).trail)
      rw [upTo_eq_self hbook.bound]
      exact hmem
    · show Tracks f0 c'.content.medium (upTo c'.version (s.trail ++ _))
      rw [hold (h.begun t' c' ht')]
      exact h.snapshots t' c' ht' hlt
  · intro pre r' post hsplit hout m hm e he
    rcases split_concat hsplit with ⟨rfl, rfl⟩ | ⟨post', hsplit'⟩
    · exact ho _ _ _ (h.memory m.barcode e he) (hr.performs.src m hm)
    · exact h.origins pre r' post' hsplit' hout m hm e he

theorem succeed (ht : s.tasks.lookup t = some task) (hc : task.cmd? = some c)
    (hv : c.version ≤ s.lastWritten) : Ledger f0 (s.finish t .succeeded) := by
  have hcarry : ∀ (r : Record) b e, (r.answer t .succeeded).carry b e = r.carry b e :=
    fun r b e => carry_congr answer_moved answer_stands
  have hversion : ∀ r : Record, (r.answer t .succeeded).version = r.version := fun r => answer_version
  refine ⟨h.toBook.finish ht hc (by simp) hv, h.memory.map (fun r _ => hcarry r), ?_, ?_, ?_⟩
  · show Tracks f0 s.file.medium (upTo s.lastWritten (s.trail.map _))
    rw [upTo_map _ hversion]
    exact h.file.map fun r _ => hcarry r
  · intro t' c' ht' hlt
    show Tracks f0 c'.content.medium (upTo c'.version (s.trail.map _))
    rw [upTo_map _ hversion]
    exact (h.snapshots t' c' (lookup_erase_some ht').2 hlt).map fun r _ => hcarry r
  · intro pre r post hsplit hout m hm e he
    obtain ⟨pre', rest, hs, rfl, hrest⟩ := map_eq_append_iff.1 hsplit
    obtain ⟨r', post', rfl, rfl, rfl⟩ := map_eq_cons_iff.1 hrest
    rw [whereabouts_map (fun r _ e => hcarry r _ e)]
    rw [answer_moved] at hm
    refine h.origins pre' r' post' hs ?_ m hm e he
    unfold answer at hout
    split at hout
    · next hn => exact .inl hn.2
    · exact hout

/-- **A rollback in time**: the load is the last command on its cartridge. -/
theorem rollback {d slot : Nat} {b : Barcode}
    (ht : s.tasks.lookup t = some (.undoing c)) (hm : c.mirror = .load d b slot)
    (hu : s.inventory.unloadFromDrive d slot = .ok inv) (hlast : ∀ r ∈ s.since t, ∀ m ∈ r.moved, m.barcode ≠ b) :
    Ledger f0 ((s.rewritten inv).finish t .failed) := by
  obtain ⟨r0, hr0, hrt, hp⟩ := h.owned t _ c ht rfl
  obtain ⟨pre, r, post, htrail, hrt, hp, hpre, hpost, hsince⟩ := h.toBook.split hr0 hrt hp
  rw [hsince] at hlast
  have hmoved : r.moved = [⟨b, .storage slot, .drive d⟩] :=
    (h.matches_of_owner (htrail ▸ by simp) hp (hrt ▸ ht) rfl).2 d b slot hm
  have hstay : ∀ {l : List Record}, (∀ r' ∈ l, ¬ (r'.task = t ∧ r'.outcome = .pending)) →
      l.map (answer t .failed) = l :=
    fun hl => (map_congr_left (fun r' hr' => answer_of_not (hl r' hr'))).trans (map_id' _)
  have hanswer : s.trail.map (answer t .failed) = pre ++ { r with outcome := .failed } :: post := by
    rw [htrail, map_append, map_cons, hstay hpre, hstay hpost, answer, if_pos ⟨hrt, hp⟩]
  have hstands : r.stands = true := by simp [stands, hp]
  have hskip : ∀ b' e, carry b' e { r with outcome := .failed } = e := fun b' e => carry_of_not_stands rfl
  have hother : ∀ b' e, b' ≠ b → r.carry b' e = e := by
    intro b' e hb'
    refine carry_of_not_moved fun m hm => ?_
    rw [hmoved, mem_singleton] at hm
    rw [hm]
    exact hb'.symm
  have hnodup : (r.moved.map Relocation.barcode).Nodup := h.nodup r (htrail ▸ by simp)
  have hmem0 : ⟨b, .storage slot, .drive d⟩ ∈ r.moved := hmoved ▸ mem_singleton.2 rfl
  obtain ⟨-, hfree, -, hmove, -⟩ := relocate_ok hu
  -- the drive still holds the cartridge, as no later command moves it
  have hdrive : s.inventory.medium (.drive d) = some b := by
    obtain ⟨e, he⟩ := h.has r (htrail ▸ by simp) _ hmem0
    have hat := h.memory b e he
    rwa [htrail, whereabouts_append, whereabouts_cons, carry_of_moved hstands hnodup hmem0,
      whereabouts_of_not_moved hlast] at hat
  have hmemory : Tracks f0 inv.medium (pre ++ { r with outcome := .failed } :: post) := by
    intro b' e he
    rw [whereabouts_append, whereabouts_cons, hskip]
    by_cases hb : b' = b
    · subst hb
      rw [whereabouts_of_not_moved hlast, h.origins pre r post htrail (.inl hp) _ hmem0 e he, hmove]
      simpa using hdrive
    · have hat := h.memory b' e he
      rw [htrail, whereabouts_append, whereabouts_cons, hother _ _ hb] at hat
      rw [hmove]
      exact Placement.move_stays _ hdrive hfree hat hb
  have hbook : Book f0 ((s.rewritten inv).finish t .failed) := by
    have hv : c.version ≤ s.lastWritten := h.of_past ht rfl (by simp)
    refine Book.finish (h.toBook.wrote ?_ (le_refl _) (Nat.le_succ _)) ht rfl (by simp) ?_
    · exact h.written.trans (Nat.le_succ _)
    · exact hv.trans (h.written.trans (Nat.le_succ _))
  have hall : upTo (s.version + 1) (s.trail.map (answer t .failed)) = s.trail.map (answer t .failed) :=
    upTo_eq_self hbook.bound
  rw [← hanswer] at hmemory
  refine ⟨hbook, hmemory, ?_, ?_, ?_⟩
  · exact (congrArg (Tracks f0 inv.medium) hall).mpr hmemory
  · intro t' c' ht' hlt
    have hle : c'.version ≤ s.version := h.begun t' c' (lookup_erase_some ht').2
    have hlt : s.version + 1 < c'.version := hlt
    omega
  · show Origins f0 (s.trail.map _)
    rw [hanswer]
    refine (htrail ▸ h.origins : Origins f0 (pre ++ r :: post)).replace rfl (.inl hp) ?_
    intro x hx m hm1 e
    rw [hskip, hother _ _ (hlast x hx m hm1)]

end

theorem whereabouts_cutOff (v : Nat) (b : Barcode) : ∀ (rs : List Record) (e : Element),
    (∀ r ∈ rs, r.outcome ≠ .pending → r.version ≤ v) →
      whereabouts b e (rs.map (cutOff v)) = whereabouts b e (upTo v rs)
  | [], _, _ => rfl
  | r :: rs, e, h => by
    have ih := whereabouts_cutOff v b rs
    have hrs : ∀ r' ∈ rs, r'.outcome ≠ .pending → r'.version ≤ v := fun r' hr' => h r' (mem_cons_of_mem r hr')
    rw [map_cons, whereabouts_cons, ih _ hrs]
    by_cases hv : r.version ≤ v
    · have hs : (r.cutOff v).stands = r.stands := by
        by_cases hp : r.outcome = .pending
        · simp [cutOff, stands, hp, hv]
        · simp [cutOff, stands, hp]
      have hcarry : (r.cutOff v).carry b e = r.carry b e := carry_congr rfl hs
      rw [upTo_cons_of_le hv, whereabouts_cons, hcarry]
    · have hp : r.outcome = .pending := by
        by_contra hp
        exact hv (h r mem_cons_self hp)
      have hs : (r.cutOff v).stands = false := by simp [cutOff, stands, hp, hv]
      rw [carry_of_not_stands hs, upTo_cons_of_lt (Nat.not_le.1 hv)]

theorem crashed (h : Ledger f0 s) :
    Ledger f0 ⟨s.file, 0, 0, s.file, none, ∅, fun _ => none, [], s.trail.map (cutOff s.lastWritten)⟩ := by
  have hover : ∀ r : Record, (r.cutOff s.lastWritten).outcome ≠ .pending := by
    intro r
    by_cases hp : r.outcome = .pending <;> simp [cutOff, hp]
  have hmem : Tracks f0 s.file.medium (s.trail.map (cutOff s.lastWritten)) := by
    intro b e he
    rw [whereabouts_cutOff _ b _ _ h.settled]
    exact h.file b e he
  refine ⟨⟨(started_versioned s.file).congr rfl rfl rfl, ?_, ?_, ?_, ?_, ?_, ?_, ?_, ?_⟩, hmem, ?_, ?_, ?_⟩
  · exact pairwise_map.2 (h.sorted.imp (fun _ => le_refl _))
  · exact forall_mem_map.2 fun r hr => le_refl _
  · exact forall_mem_map.2 fun r hr => h.nodup r hr
  · exact forall_mem_map.2 fun r hr => h.has r hr
  · exact forall_mem_map.2 fun r hr _ => le_refl _
  · exact forall_mem_map.2 fun r hr hp => absurd hp (hover r)
  · exact fun _ _ _ ht => by cases ht
  · exact pairwise_map.2 (h.sorted.imp (fun _ hp => absurd hp (hover _)))
  · show Tracks f0 s.file.medium (upTo 0 (s.trail.map (cutOff s.lastWritten)))
    rw [upTo_eq_self (forall_mem_map.2 (fun r hr => Nat.zero_le _))]
    exact hmem
  · exact fun _ _ ht => by cases ht
  · intro pre r post hsplit hout m hm e he
    obtain ⟨pre', rest, hs, rfl, hrest⟩ := map_eq_append_iff.1 hsplit
    obtain ⟨r', post', rfl, rfl, rfl⟩ := map_eq_cons_iff.1 hrest
    have hfailed : r'.outcome = .failed := by
      have hf := hout.resolve_left (hover r')
      by_cases hp : r'.outcome = .pending
      · simp [cutOff, hp] at hf
      · simpa [cutOff, hp] using hf
    have hr' : r'.version ≤ s.lastWritten := h.settled r' (hs ▸ by simp) (by simp [hfailed])
    -- a failed command is in the file, and so is every one before it
    have hpre : ∀ x ∈ pre', x.version ≤ s.lastWritten := by
      have hsort := h.sorted
      rw [hs, pairwise_append] at hsort
      exact fun x hx => (hsort.2.2 x hx r' mem_cons_self).trans hr'
    rw [whereabouts_cutOff _ _ _ _ (fun x hx _ => hpre x hx), upTo_eq_self hpre]
    exact h.origins pre' r' post' hs (.inr hfailed) m hm e he

end Ledger

/-! ## Orderly runs -/

end Site

def Task.WritesWell (s : Site) (works : Bool) : Task → Prop
  | .writing c => works = true ∨ c.version ≤ s.lastWritten
  | _ => True

/-- The slot is free, the command is the last one on the cartridge, and the rollback is written. -/
def Task.RollsBack (s : Site) (t : Nat) (works : Bool) : Task → Prop
  | .undoing ⟨_, _, _, .load d b slot⟩ =>
    works = true ∧ (s.inventory.unloadFromDrive d slot).isOk = true ∧ ∀ r ∈ s.since t, ∀ m ∈ r.moved, m.barcode ≠ b
  | _ => True

def Task.Reloads (s : Site) : Task → Prop
  | .parsed inv => inv.seats = s.inventory.seats
  | _ => True

instance (s : Site) (works : Bool) (task : Task) : Decidable (task.WritesWell s works) := by
  cases task <;> unfold Task.WritesWell <;> infer_instance

instance (s : Site) (t : Nat) (works : Bool) (task : Task) : Decidable (task.RollsBack s t works) := by
  rcases task with _ | _ | _ | ⟨_, _, _, _ | _ | _⟩ | _ | _ | _ | _ <;> unfold Task.RollsBack <;> infer_instance

instance (s : Site) (task : Task) : Decidable (task.Reloads s) := by
  cases task <;> unfold Task.Reloads <;> infer_instance

namespace Site

variable {ch : Chassis} {s s' : Site} {a : SiteAct} {f0 : Placement Element Barcode}

/-- No write fails, no reload is of a placement left behind, no rollback comes too late. -/
def Orderly (s : Site) : SiteAct → Prop
  | .write t works => ∀ task ∈ s.tasks.lookup t, task.WritesWell s works
  | .undo t works => ∀ task ∈ s.tasks.lookup t, task.RollsBack s t works
  | .initApply t => ∀ task ∈ s.tasks.lookup t, task.Reloads s
  | _ => True

instance (s : Site) (a : SiteAct) : Decidable (s.Orderly a) := by
  cases a <;> unfold Orderly <;> infer_instance

namespace Ledger

theorem afterWrite (h : Ledger f0 s) {t : Nat} (ht : s.tasks.lookup t = some (.writing c))
    (hv : c.version ≤ s.lastWritten) : Ledger f0 (s.written t c) := by
  rcases s.written_cases t c with ⟨-, he⟩ | ⟨-, he⟩
  · exact he ▸ h.succeed ht rfl hv
  · exact he ▸ h.setTask (by rw [ht]; rfl) fun _ he => by cases he; exact hv

theorem loadFailed (h : Ledger f0 s) {t : Nat} (ht : s.tasks.lookup t = some task)
    (hc : task.cmd? = some c) (hv : c.version ≤ s.lastWritten) : Ledger f0 (s.loadFailed t c) := by
  rcases s.loadFailed_cases t c with ⟨-, he⟩ | ⟨-, he⟩
  · exact he ▸ h.succeed ht hc hv
  · exact he ▸ h.setTask (by rw [ht]; exact hc) fun _ he => by cases he; exact hv

end Ledger

theorem step_ledger (hf : f0.Once) (hk : AllKept ch.topology f0 s) (h : Ledger f0 s) (hok : s.Orderly a)
    (hs : s.step ch a = some s') : Ledger f0 s' := by
  cases step_effect hs with
  | refused | hostWrote | preflightRefused => exact h
  | begun hl ht hp =>
    have ho := hk.memory.rearranges.once hf
    exact h.begin hk.memory.rearranges ho ht (Chassis.perform_done ho hp)
  | skipped ht hv => exact h.afterWrite ht hv
  | wrote ht hv => exact (h.wrote ht hv).afterWrite ht (le_refl _)
  | writeFailed ht hv =>
    rcases hok _ ht with hw | hle
    · cases hw
    · exact absurd hle (Nat.not_le.2 hv)
  | unloaded ht =>
    exact (h.aside _ _ _).succeed ht rfl (h.of_past ht rfl (by simp))
  | loadRefused ht | openFailed ht => exact h.loadFailed ht rfl (h.of_past ht rfl (by simp))
  | loadAdmitted ht => exact h.setTask (by rw [ht]; rfl) fun _ he => by cases he; exact h.of_past ht rfl (by simp)
  | loaded ht => exact (h.aside _ _ _).succeed ht rfl (h.of_past ht rfl (by simp))
  | @undoRefused t works c d b src err ht hl hm hu =>
    obtain ⟨admin, v, content, mirror⟩ := c
    cases hm
    obtain ⟨-, hfree, -⟩ := hok _ ht
    rw [hu] at hfree
    cases hfree
  | @undone t works c d b src inv s1 ht hl hm hu hs1 =>
    obtain ⟨admin, v, content, mirror⟩ := c
    cases hm
    obtain ⟨hw, -, hlast⟩ := hok _ ht
    have hnew : ¬ s.version + 1 ≤ s.lastWritten := Nat.not_le.2 (Nat.lt_succ_of_le h.written)
    have hwrite : (s1.writeIfNewer (s.version + 1) inv works).getD s1 = s.rewritten inv := by
      rw [hs1, writeIfNewer, if_neg hnew, if_pos hw]
      rfl
    rw [hwrite]
    exact h.rollback ht rfl hu hlast
  | initParsed ht | preflightPassed ht => exact h.setTask (by rw [ht]; rfl) fun _ he => by cases he
  | initApplied ht =>
    have hkept := hk.tasks _ _ ht
    rw [applyReloadedInventory_within hkept.within]
    exact (h.reload (medium_eq_of_seats hkept.within.1 hk.memory.within.1 (hok _ ht))).dropTask ht rfl
  | scsiUnloaded => exact h.aside _ _ _
  | claimRefused ht => exact h.dropTask ht rfl
  | claimed ht =>
    exact (h.aside _ _ _).setTask (by rw [ht]; rfl) fun _ he => by cases he
  | recheckRefused ht | migrated ht => exact (h.dropTask ht rfl).aside _ _ _
  | recheckPassed ht => exact h.setTask (by rw [ht]; rfl) fun _ he => by cases he
  | crashed => exact h.crashed

theorem run_kept {P : Site → Prop} {ok : Site → SiteAct → Prop}
    (ho : inv.medium.Once) (hw : Within ch.topology inv) (hstart : P (started inv))
    (hstep : ∀ s1 a s2, AllKept ch.topology inv.medium s1 → P s1 → ok s1 a → (machine ch).step s1 a = some s2 → P s2)
    (hm : (machine ch).Meets ok (started inv) as) (hr : (machine ch).run (started inv) as = some s) :
    AllKept ch.topology inv.medium s ∧ P s := by
  have hboth : ∀ s1 a s2, AllKept ch.topology inv.medium s1 ∧ P s1 → ok s1 a → (machine ch).step s1 a = some s2 →
      AllKept ch.topology inv.medium s2 ∧ P s2 :=
    fun s1 a s2 h hok hs => ⟨step_allKept ho h.1 hs, hstep s1 a s2 h.1 h.2 hok hs⟩
  exact (machine ch).run_inv hboth ⟨started_allKept hw, hstart⟩ hm hr

theorem run_ledger (ho : inv.medium.Once) (hw : Within ch.topology inv)
    (hm : (machine ch).Meets Orderly (started inv) as) (hr : (machine ch).run (started inv) as = some s) :
    Ledger inv.medium s :=
  (run_kept ho hw (started_ledger inv) (fun _ _ _ => step_ledger ho) hm hr).2

/-! ## Answers are true -/

def Holds (inv : LibraryInventory) (later : List Record) (b : Barcode) (e : Element) : Prop :=
  ∃ e', (e' = e ∨ ∃ r ∈ later, r.stands = true ∧ ∃ m ∈ r.moved, m.barcode = b ∧ e' = m.dst) ∧ inv.medium e' = some b

theorem holds_of_whereabouts {rs later : List Record} {b : Barcode} {e : Element}
    (hsub : ∀ r ∈ rs, r ∈ later) (h : inv.medium (whereabouts b e rs) = some b) : Holds inv later b e := by
  refine ⟨_, ?_, h⟩
  rcases whereabouts_cases b rs e with he | ⟨r, hr, hs, m, hm, hb, he⟩
  · exact .inl he
  · exact .inr ⟨r, hsub r hr, hs, m, hm, hb, he⟩

theorem Ledger.of_succeeded (h : Ledger f0 s) (hsplit : s.trail = pre ++ r :: post)
    (hr : r.outcome = .succeeded) (hm : m ∈ r.moved) :
    Holds s.inventory post m.barcode m.dst ∧ Holds s.file post m.barcode m.dst := by
  have hmem : r ∈ s.trail := hsplit ▸ by simp
  have hs : r.stands = true := by simp [stands, hr]
  have hv : r.version ≤ s.lastWritten := h.settled r hmem (by simp [hr])
  obtain ⟨e, he⟩ := h.has r hmem m hm
  constructor
  · have hat := h.memory m.barcode e he
    rw [hsplit, whereabouts_append, whereabouts_cons, carry_of_moved hs (h.nodup r hmem) hm] at hat
    exact holds_of_whereabouts (fun _ hx => hx) hat
  · have hat := h.file m.barcode e he
    rw [hsplit, upTo_append, upTo_cons_of_le hv, whereabouts_append, whereabouts_cons,
      carry_of_moved hs (h.nodup r hmem) hm] at hat
    exact holds_of_whereabouts (fun _ hx => mem_of_mem_upTo hx) hat

theorem Ledger.of_failed (h : Ledger f0 s) (hsplit : s.trail = pre ++ r :: post)
    (hr : r.outcome = .failed) (hm : m ∈ r.moved) :
    Holds s.inventory post m.barcode m.src ∧ Holds s.file post m.barcode m.src := by
  have hmem : r ∈ s.trail := hsplit ▸ by simp
  have hs : r.stands = false := by simp [stands, hr]
  have hv : r.version ≤ s.lastWritten := h.settled r hmem (by simp [hr])
  obtain ⟨e, he⟩ := h.has r hmem m hm
  have horigin := h.origins pre r post hsplit (.inr hr) m hm e he
  have hpre : ∀ x ∈ pre, x.version ≤ s.lastWritten := by
    have hsort := h.sorted
    rw [hsplit, pairwise_append] at hsort
    exact fun x hx => (hsort.2.2 x hx r mem_cons_self).trans hv
  constructor
  · have hat := h.memory m.barcode e he
    rw [hsplit, whereabouts_append, whereabouts_cons, carry_of_not_stands hs, horigin] at hat
    exact holds_of_whereabouts (fun _ hx => hx) hat
  · have hat := h.file m.barcode e he
    rw [hsplit, upTo_append, upTo_cons_of_le hv, upTo_eq_self hpre, whereabouts_append, whereabouts_cons,
      carry_of_not_stands hs, horigin] at hat
    exact holds_of_whereabouts (fun _ hx => mem_of_mem_upTo hx) hat

/-- **Medium moves over every run of the daemon**: every cartridge is in exactly one element of memory and of the file;
in an orderly run a success holds until a later move, and an error leaves the cartridge where it was. -/
theorem acknowledged_moves (hw : Within ch.topology inv)
    (ho : inv.medium.Once) (hr : (machine ch).run (started inv) as = some s) :
    (∀ b, inv.medium.Has b → (∃! e, s.inventory.medium e = some b) ∧ ∃! e, s.file.medium e = some b) ∧
      (∀ t req err s', ch.perform s.inventory req = .error err → s.step ch (.begin t req) = some s' → s' = s) ∧
      ((machine ch).Meets Orderly (started inv) as → ∀ pre r post, s.trail = pre ++ r :: post → ∀ m ∈ r.moved,
        (r.outcome = .succeeded → Holds s.inventory post m.barcode m.dst ∧ Holds s.file post m.barcode m.dst) ∧
        (r.outcome = .failed → Holds s.inventory post m.barcode m.src ∧ Holds s.file post m.barcode m.src)) := by
  have hk := run_allKept ho hw hr
  refine ⟨?_, ?_, ?_⟩
  · intro b hb
    exact ⟨(hk.memory.rearranges.once ho).existsUnique ((hk.memory.rearranges.has_iff b).2 hb),
      (hk.file.rearranges.once ho).existsUnique ((hk.file.rearranges.has_iff b).2 hb)⟩
  · intro t req err s' herr hs
    cases step_effect hs with
    | refused => rfl
    | begun hl ht hp =>
      rw [herr] at hp
      cases hp
  · intro hm pre r post hsplit m hmem
    have hl := run_ledger ho hw hm hr
    exact ⟨fun hout => hl.of_succeeded hsplit hout hmem, fun hout => hl.of_failed hsplit hout hmem⟩

/-! ## Runs with a crash, a failed write, an early reload and a late rollback -/

def shelved : LibraryInventory where
  storageSlots := [⟨0, some "A", true⟩, ⟨1, none, false⟩, ⟨2, some "B", true⟩, ⟨3, none, false⟩]
  mailSlots := [⟨0, none, false, true⟩]
  drives := [⟨0, none, false, none, some "D0"⟩, ⟨1, none, false, none, some "D1"⟩]

def twoDrives : Chassis where
  topology := ⟨4, 1, 2, 8, none, some "TVL0", [], 0, 1001, 101, 1⟩
  config := ⟨0, 1001, 4, 101, 1, 1, 2⟩

theorem shelved_once : shelved.medium.Once := once_of_nodup_seats (by decide)

def move (t src dst : Nat) : SiteAct := .begin t (.moveMedium none src dst (fun _ => false))

theorem acknowledged_moves_crash : ∃ s, (machine twoDrives).run (started shelved)
    [move 1 1001 1, move 2 1003 1004, .write 2 true, .write 1 true, .drive 1 true, .openDrive 1 true, .crash] = some s ∧
    (∃! e, s.inventory.medium e = some "A") ∧ Holds s.inventory [] "B" (.storage 3) ∧
      s.inventory.medium (.drive 0) = some "A" := by
  refine Machine.ends_of (fun s => s.trail = [⟨1, 0, [⟨"A", .storage 0, .drive 0⟩], .succeeded⟩] ++
      ⟨2, 0, [⟨"B", .storage 2, .storage 3⟩], .succeeded⟩ :: [] ∧ s.inventory.medium (.drive 0) = some "A")
    (by decide +kernel) ?_
  rintro s hs ⟨htrail, hdrive⟩
  obtain ⟨hone, -, hanswers⟩ := acknowledged_moves (by decide) shelved_once hs
  have hB := (hanswers (by decide +kernel) _ _ _ htrail ⟨"B", .storage 2, .storage 3⟩ (List.mem_singleton.2 rfl)).1 rfl
  exact ⟨(hone "A" ⟨.storage 0, by decide⟩).1, hB.1, hdrive⟩

/-- A failed write has moved `A` in memory; a reload undoes a move; a late rollback takes `B` out of the drive. -/
theorem answers_fail :
    (∃ s, (machine twoDrives).run (started shelved) [move 1 1001 1002, .write 1 false] = some s ∧
      s.trail = [⟨1, 1, [⟨"A", .storage 0, .storage 1⟩], .failed⟩] ∧ s.inventory.medium (.storage 0) = none ∧
        s.inventory.medium (.storage 1) = some "A") ∧
    (∃ s, (machine twoDrives).run (started shelved) [.initParse 9, move 1 1001 1002, .write 1 true, .initApply 9,
        move 2 1003 1004, .write 2 true, .crash] = some s ∧
      s.trail.map outcome = [.succeeded, .succeeded] ∧ s.file.medium (.storage 1) = none ∧
        s.file.medium (.storage 0) = some "A") ∧
    ∃ s, (machine twoDrives).run (started shelved) [move 1 1001 1, .write 1 true, .drive 1 false, move 2 1 1002, .write 2 true,
        .drive 2 true, move 3 1003 1, .write 3 true, .drive 3 true, .openDrive 3 true, .undo 1 true] = some s ∧
      s.trail.map outcome = [.failed, .succeeded, .succeeded] ∧ s.opened 0 = some "B" ∧
        s.inventory.medium (.drive 0) = none ∧ s.inventory.medium (.storage 0) = some "B" := by
  decide +kernel

end Site

end Thur.Changer

import Thur.Lib.Table
import Thur.Stream.ManifestBackup
/-!
# PageSweep — the index-page sweep of `system.gc` next to backup passes

The sweep reads the page counts of every cartridge from `runtime.json`, lists the page objects later and deletes those
at or past the count it read; a label the map does not have counts as zero. Only a primary handle writes the new counts,
and passes run on view handles. What a sweep under way leaves alone is `keeps`; the newest backup stays whole if the
counts are large enough when a sweep reads them, and when a pass begins next to one.
-/
open Paged List

namespace Thur.Stream

open Function (update update_of_ne update_self)

/-- The PUTs to come, and the files when the pass began. -/
structure PassRun where
  puts : List Put
  after : CartridgeIndexes
  before : IndexLabel → IndexFile

/-- `torn`: a pass has failed since the newest sentinel. -/
structure SweptTape where
  indexes : CartridgeIndexes
  runtime : Option EpochMap
  pass : Option PassRun
  torn : Bool

structure Sweep where
  live : Nat → Option EpochMap
  queue : List (Nat × IndexLabel × Nat)

structure SweptVault where
  tapes : Nat → SweptTape
  sweeps : Table Sweep

inductive TapeAct
  | op (l : IndexLabel) (o : IndexOp l.Rec)
  | fsync (l : IndexLabel)
  | passBegin
  | passPut
  | passEnd (viewHandle : Bool)
  -- the first error ends a pass; a view handle's cleared bits are lost with it for the files whose sidecar it had not written
  | passFail (unwritten : List IndexLabel)
  -- a primary handle persists the map it was opened with, a restored archive starts with an empty one
  | persistRuntime (m : Option EpochMap)

inductive SweepAct
  | tape (c : Nat) (a : TapeAct)
  | collectLiveIndexPages (t : Nat) (tapes : List Nat)
  | listObjects (t : Nat) (c : Nat) (keys : List (IndexLabel × Nat))
  | deleteObject (t : Nat)
  | sweepEnd (t : Nat)

def liveCount (m : EpochMap) (l : IndexLabel) : Nat := ((m.lookup l).map IndexEpoch.pages).getD 0

def Bucket.deletePage (b : Bucket) (l : IndexLabel) (i : Nat) : Bucket :=
  { b with pages := update b.pages l (update (b.pages l) i none) }

namespace CartridgeIndexes

def passPut (s : CartridgeIndexes) (p : Put) : CartridgeIndexes :=
  match p with
  | .page l i _ =>
    { s with
      bucket := s.bucket.put p
      files := update s.files l { s.files l with dirty := (s.files l).dirty.clearPages [i] } }
  | _ => { s with bucket := s.bucket.put p }

end CartridgeIndexes

def SweptTape.step (v : SweptTape) : TapeAct → Option SweptTape
  | .op l o =>
    match v with
    | ⟨indexes, runtime, none, torn⟩ =>
      some ⟨{ indexes with files := update indexes.files l (o.apply l.format (indexes.files l)) }, runtime, none, torn⟩
    | ⟨_, _, some _, _⟩ => none
  | .fsync l =>
    match v with
    | ⟨indexes, runtime, none, torn⟩ =>
      some ⟨{ indexes with sidecars := update indexes.sidecars l (some (indexes.files l).dirty) }, runtime, none, torn⟩
    | ⟨_, _, some _, _⟩ => none
  | .passBegin =>
    match v with
    | ⟨indexes, runtime, none, torn⟩ => some ⟨indexes, runtime, some ⟨indexes.passPuts, indexes.backup, indexes.files⟩, torn⟩
    | ⟨_, _, some _, _⟩ => none
  | .passPut =>
    match v with
    | ⟨indexes, runtime, some ⟨p :: puts, after, before⟩, torn⟩ =>
      some ⟨indexes.passPut p, runtime, some ⟨puts, after, before⟩, torn⟩
    | _ => none
  | .passEnd viewHandle =>
    match v with
    | ⟨indexes, runtime, some ⟨[], after, _⟩, _⟩ =>
      -- `persist_runtime` returns at once on a view handle; a primary writes the map the sentinel was PUT with
      some ⟨{ after with bucket := indexes.bucket }, if viewHandle then runtime else indexes.bucket.latest, none, false⟩
    | _ => none
  | .passFail unwritten =>
    match v with
    | ⟨indexes, runtime, some ⟨_ :: _, _, before⟩, _⟩ =>
      some ⟨{ indexes with files := fun l => if l ∈ unwritten then before l else indexes.files l }, runtime, none, true⟩
    | _ => none
  | .persistRuntime m => some { v with runtime := m }

namespace SweptVault

def setTape (s : SweptVault) (c : Nat) (v : SweptTape) : SweptVault := { s with tapes := update s.tapes c v }

def Doomed (live : Nat → Option EpochMap) (c : Nat) (l : IndexLabel) (i : Nat) : Prop :=
  ∃ m ∈ live c, liveCount m l ≤ i
deriving Decidable

def machine : Machine SweptVault SweepAct where
  step s
    | .tape c a => ((s.tapes c).step a).map (s.setTape c)
    | .collectLiveIndexPages t tapes =>
      match s.sweeps.lookup t with
      | none =>
        some { s with sweeps := s.sweeps.insert t ⟨fun c => if c ∈ tapes then (s.tapes c).runtime else none, []⟩ }
      | some _ => none
    | .listObjects t c keys =>
      match s.sweeps.lookup t with
      | some ⟨live, []⟩ =>
        if ∀ k ∈ keys, ((s.tapes c).indexes.bucket.pages k.1 k.2).isSome then
          some { s with sweeps := s.sweeps.insert t ⟨live, keys.map (c, ·)⟩ }
        else none
      | _ => none
    | .deleteObject t =>
      match s.sweeps.lookup t with
      | some ⟨live, (c, l, i) :: queue⟩ =>
        let s' := { s with sweeps := s.sweeps.insert t ⟨live, queue⟩ }
        -- only cartridges with counts are swept
        if Doomed live c l i then
          some (s'.setTape c { s.tapes c with
            indexes := { (s.tapes c).indexes with bucket := (s.tapes c).indexes.bucket.deletePage l i } })
        else some s'
      | _ => none
    | .sweepEnd t => some { s with sweeps := s.sweeps.erase t }

def created (partitions : Nat → Nat) (pages : Nat → IndexLabel → PageStore)
    (runtime : Nat → Option EpochMap) : SweptVault where
  tapes c := ⟨CartridgeIndexes.created (partitions c) (pages c), runtime c, none, false⟩
  sweeps := ∅

end SweptVault

/-! ## Counts that are large enough -/

/-- Every page of the files is below its count. -/
def CartridgeIndexes.Within (s : CartridgeIndexes) (m : EpochMap) : Prop :=
  ∀ l ∈ s.labels, pageCount pageSize (s.files l).bytes.length ≤ liveCount m l
deriving Decidable

/-- The counts reach every page of the newest backup, every page that no later pass will PUT again, and while a pass is
in flight every page. -/
def SweptTape.CountedBy (v : SweptTape) (m : EpochMap) : Prop :=
  (∀ l ∈ v.indexes.labels, (∀ content ∈ v.indexes.lastPass, pageCount pageSize (content l).length ≤ liveCount m l) ∧
    ∀ i < pageCount pageSize (v.indexes.files l).bytes.length, ¬ (v.indexes.files l).dirty.Marked i → i < liveCount m l) ∧
  (v.pass.isSome = true → v.indexes.Within m)

instance (v : SweptTape) (m : EpochMap) : Decidable (v.CountedBy m) :=
  inferInstanceAs (Decidable ((∀ l ∈ v.indexes.labels, _ ∧ ∀ i < _, _) ∧ _))

namespace SweptVault

def sweepOk (s : SweptVault) : SweepAct → Prop
  | .tape c (.op l o) => o.Marks l.format ((s.tapes c).indexes.files l)
  | .tape c .passBegin => s.sweeps.All fun _ w => ∀ m ∈ w.live c, (s.tapes c).indexes.Within m
  | .collectLiveIndexPages _ tapes => ∀ c ∈ tapes, ∀ m ∈ (s.tapes c).runtime, (s.tapes c).CountedBy m
  | _ => True

instance (s : SweptVault) (a : SweepAct) : Decidable (sweepOk s a) := by
  apply SweepAct.casesOn (motive := fun a => Decidable (sweepOk s a)) a
  · intro c a
    apply TapeAct.casesOn (motive := fun a => Decidable (sweepOk s (.tape c a))) a <;> intros <;> unfold sweepOk <;>
      infer_instance
  all_goals
    intros
    unfold sweepOk
    infer_instance

/-- No sweep under way deletes the page. -/
def keeps (s : SweptVault) (c : Nat) (l : IndexLabel) (i : Nat) : Prop :=
  s.sweeps.All fun _ w => ∀ m ∈ w.live c, i < liveCount m l

end SweptVault

/-! ## A cartridge between passes and during one -/

open Classical in
noncomputable def PageStore.only (store : PageStore) (Q : Nat → Prop) : PageStore := fun i => if Q i then store i else none

theorem PageStore.only_eq_some {store : PageStore} {Q : Nat → Prop} {i : Nat} {b : Bytes} :
    store.only Q i = some b ↔ Q i ∧ store i = some b := by
  by_cases hq : Q i <;> simp [PageStore.only, hq]

section

variable {ρ : Type} {fmt : IndexFormat ρ} {f f' : IndexFile} {store store' : PageStore} {Q Q' : Nat → Prop}

theorem Tracked.remark (h : Tracked fmt f store) (hbytes : f'.bytes = f.bytes) (hnext : f'.next = f.next)
    (hb : Paged.Backed pageSize f'.dirty.Marked store' f.bytes) : Tracked fmt f' store' := by
  refine ⟨⟨?_, ?_⟩, ?_, ?_⟩
  · rw [hbytes]
    exact h.wellFormed.header
  · rw [hbytes, hnext]
    exact h.wellFormed.length
  · rw [hbytes]
    exact h.size
  · rw [hbytes]
    exact hb

theorem Tracked.only_mono (h : Tracked fmt f (store.only Q)) (hstore : ∀ i, Q i → Q' i → store' i = store i)
    (hq : ∀ i < pageCount pageSize f.bytes.length, ¬ f.dirty.Marked i → Q i → Q' i) : Tracked fmt f (store'.only Q') := by
  refine h.remark rfl rfl fun i hi => or_iff_not_imp_left.2 fun hd => ?_
  obtain ⟨hqi, hst⟩ := PageStore.only_eq_some.1 ((h.backed i hi).resolve_left hd)
  exact PageStore.only_eq_some.2 ⟨hq i hi hd hqi, (hstore i hqi (hq i hi hd hqi)).trans hst⟩

end

namespace CartridgeIndexes

variable {s : CartridgeIndexes} {l : IndexLabel} {after : CartridgeIndexes} {before : IndexLabel → IndexFile} {i : Nat}
  {keep keep' : IndexLabel → Nat → Prop} {torn : Bool} {puts : List Put} {p : Put}

/-- What the newest sentinel counts is kept and there, and as it was if no pass has failed since. -/
def Newest (s : CartridgeIndexes) (keep : IndexLabel → Nat → Prop) (torn : Bool) : Prop :=
  ∀ content, s.lastPass = some content → ∃ epoch : IndexLabel → IndexEpoch,
    s.bucket.latest = some (s.labels.map (fun l => (l, epoch l))) ∧ (∀ l, (epoch l).Describes (content l)) ∧
      ∀ l ∈ s.labels, ∀ i, i < pageCount pageSize (content l).length → keep l i ∧ (s.bucket.pages l i).isSome = true ∧
        (torn = false → s.bucket.pages l i = some (page pageSize (content l) i))

/-- Between passes each page is marked, or kept and stored as it is. -/
structure Idle (s : CartridgeIndexes) (keep : IndexLabel → Nat → Prop) (torn : Bool) : Prop where
  tracked : ∀ l, Tracked l.format (s.files l) ((s.bucket.pages l).only (fun i => l ∈ s.labels ∧ keep l i))
  newest : Newest s keep torn

/-- The PUTs to come carry the pages as they are, every marked one among them, and the sentinel. -/
structure Flight (s : CartridgeIndexes) (p : PassRun) (keep : IndexLabel → Nat → Prop) : Prop where
  tracked : ∀ l, Tracked l.format (s.files l) ((s.bucket.pages l).only (fun i => l ∈ s.labels ∧ keep l i))
  room : ∀ l ∈ s.labels, ∀ i < pageCount pageSize (s.files l).bytes.length, keep l i
  newest : p.puts ≠ [] → Newest s keep true
  last : ∀ m, Put.latest m ∉ p.puts.dropLast
  partitions : p.after.partitions = s.partitions
  content : p.after.lastPass = some fun l => (s.files l).bytes
  files : ∀ l, (p.after.files l).bytes = (s.files l).bytes ∧ (p.after.files l).next = (s.files l).next
  others : ∀ l, l ∉ s.labels → p.after.files l = s.files l
  before : ∀ l, ((p.before l).bytes = (s.files l).bytes ∧ (p.before l).next = (s.files l).next) ∧
    ∀ i, (s.files l).dirty.Marked i → (p.before l).dirty.Marked i
  bytes : ∀ l i b, Put.page l i b ∈ p.puts → l ∈ s.labels ∧ b = page pageSize (s.files l).bytes i
  pending : ∀ l ∈ s.labels, ∀ i, i < pageCount pageSize (s.files l).bytes.length → (s.files l).dirty.Marked i →
    Replaces p.puts l i
  sentinel : ∃ epoch : IndexLabel → IndexEpoch, (∀ l, (epoch l).Describes (s.files l).bytes) ∧
    (p.puts.foldl Bucket.put s.bucket).latest = some (s.labels.map (fun l => (l, epoch l)))

theorem Newest.mono (h : Newest s keep torn) (hk : ∀ content ∈ s.lastPass, ∀ l ∈ s.labels, ∀ i,
    i < pageCount pageSize (content l).length → keep l i → keep' l i) : Newest s keep' torn := by
  intro content hc
  obtain ⟨epoch, hlatest, hdesc, hst⟩ := h content hc
  exact ⟨epoch, hlatest, hdesc, fun l hl i hi => ⟨hk content hc l hl i hi (hst l hl i hi).1, (hst l hl i hi).2⟩⟩

theorem Idle.restore (h : Idle s keep false) {content : IndexLabel → Bytes} (hc : s.lastPass = some content) :
    s.bucket.restoreFromLatest = .ok (s.labels.map (fun l => (l, content l))) := by
  obtain ⟨epoch, hlatest, hdesc, hstored⟩ := h.newest content hc
  rw [Bucket.restoreFromLatest, hlatest]
  exact (restoreEpochs_ok_iff _ hdesc _).2 fun l hl i hi => (hstored l hl i hi).2.2 rfl

theorem Idle.op (h : Idle s keep torn) {o : IndexOp l.Rec} (ho : o.Marks l.format (s.files l)) :
    Idle { s with files := update s.files l (o.apply l.format (s.files l)) } keep torn := by
  refine ⟨fun l' => ?_, h.newest⟩
  by_cases hl : l' = l
  · subst hl
    simp only [update_self]
    exact (h.tracked l').apply ho
  · simp only [update_of_ne hl]
    exact h.tracked l'

theorem Idle.begin (h : Idle s keep torn)
    (hroom : ∀ l ∈ s.labels, ∀ i < pageCount pageSize (s.files l).bytes.length, keep l i) :
    Flight s ⟨s.passPuts, s.backup, s.files⟩ keep where
  tracked := h.tracked
  room := hroom
  newest _ content hc := by
    obtain ⟨epoch, hlatest, hdesc, hst⟩ := h.newest content hc
    exact ⟨epoch, hlatest, hdesc, fun l hl i hi => ⟨(hst l hl i hi).1, (hst l hl i hi).2.1, nofun⟩⟩
  last m := by simp [passPuts, pagePuts]
  partitions := rfl
  content := rfl
  files l := by
    by_cases hl : l ∈ s.labels
    · simp only [backup, if_pos hl]
      exact ⟨(uploadOneIndex_spec (s.backupOf l)).1, (uploadOneIndex_spec (s.backupOf l)).2.1⟩
    · simp only [backup, if_neg hl, and_self]
  others l hl := if_neg hl
  before l := ⟨⟨rfl, rfl⟩, fun _ => id⟩
  bytes l i b hm := ⟨(mem_passPuts_page.1 hm).1, (mem_passPuts_page.1 hm).2.2⟩
  pending l hl i hi hd :=
    ⟨_, mem_passPuts_page.2 ⟨hl, ⟨hd, (lt_pageCount pageSize_pos).1 hi⟩, rfl⟩⟩
  sentinel := ⟨fun l => (s.backupOf l).uploadOneIndex.1,
    fun l => ⟨asU32_of_lt (pageCount_lt (h.tracked l).size), rfl, rfl⟩, latest_foldl_passPuts s.bucket⟩

/-! ### One PUT -/

section

variable (s : CartridgeIndexes) (p : Put)

theorem passPut_bytes (l : IndexLabel) :
    ((s.passPut p).files l).bytes = (s.files l).bytes ∧ ((s.passPut p).files l).next = (s.files l).next := by
  cases p with
  | versioned | latest => exact ⟨rfl, rfl⟩
  | page l0 =>
    by_cases hl : l = l0
    · subst hl
      simp only [passPut, update_self, and_self]
    · simp only [passPut, update_of_ne hl, and_self]

theorem passPut_marked (l : IndexLabel) (i : Nat) :
    ((s.passPut p).files l).dirty.Marked i ↔ (∀ b, p ≠ .page l i b) ∧ (s.files l).dirty.Marked i := by
  cases p with
  | versioned | latest => simp [passPut]
  | page l0 =>
    by_cases hl : l = l0
    · subst hl
      simp [passPut, DirtyPageTracker.marked_clearPages, eq_comm]
    · simp [passPut, hl, Ne.symm hl]

theorem passPut_bucket : (s.passPut p).bucket = s.bucket.put p := by
  cases p <;> rfl

theorem passPut_partitions : (s.passPut p).partitions = s.partitions := by
  cases p <;> rfl

end

theorem labels_congr {s' : CartridgeIndexes} (h : s'.partitions = s.partitions) : s'.labels = s.labels := by
  rw [labels, labels, h]

theorem Flight.put_eq (h : Flight s ⟨p :: puts, after, before⟩ keep) (l : IndexLabel) (i : Nat) :
    l ∈ s.labels ∧ (s.bucket.put p).pages l i = some (page pageSize (s.files l).bytes i) ∨
      (∀ b, p ≠ .page l i b) ∧ (s.bucket.put p).pages l i = s.bucket.pages l i := by
  rw [put_pages]
  cases p with
  | versioned | latest => exact .inr ⟨nofun, rfl⟩
  | page l0 i0 b =>
    by_cases he : l = l0 ∧ i = i0
    · obtain ⟨rfl, rfl⟩ := he
      obtain ⟨hl, hb⟩ := h.bytes l i b mem_cons_self
      exact .inl ⟨hl, (if_pos ⟨rfl, rfl⟩).trans (congrArg some hb)⟩
    · refine .inr ⟨fun b' hp => he ?_, if_neg he⟩
      cases hp
      exact ⟨rfl, rfl⟩

theorem Flight.backed_put (h : Flight s ⟨p :: puts, after, before⟩ keep) (l : IndexLabel) :
    Paged.Backed pageSize ((s.passPut p).files l).dirty.Marked
      (((s.passPut p).bucket.pages l).only (fun i => l ∈ (s.passPut p).labels ∧ keep l i)) (s.files l).bytes := by
  intro i hi
  rw [passPut_marked, PageStore.only_eq_some, passPut_bucket, labels_congr (passPut_partitions s p)]
  rcases h.put_eq l i with ⟨hl, hput⟩ | ⟨hp, hsame⟩
  · exact .inr ⟨⟨hl, h.room l hl i hi⟩, hput⟩
  · rw [hsame]
    exact ((h.tracked l).backed i hi).imp (fun hd => ⟨hp, hd⟩) PageStore.only_eq_some.1

theorem Flight.put (h : Flight s ⟨p :: puts, after, before⟩ keep) :
    Flight (s.passPut p) ⟨puts, after, before⟩ keep := by
  have hlabels : (s.passPut p).labels = s.labels := labels_congr (passPut_partitions s p)
  have hbytes : ∀ l, ((s.passPut p).files l).bytes = (s.files l).bytes := fun l => (passPut_bytes s p l).1
  constructor
  case tracked =>
    intro l
    exact (h.tracked l).remark (hbytes l) (passPut_bytes s p l).2 (h.backed_put l)
  case room =>
    intro l hl i hi
    exact h.room l (hlabels ▸ hl) i (hbytes l ▸ hi)
  case newest =>
    intro hne content hc
    -- another PUT is to come, so this one is not the sentinel
    have hp : ∀ m, p ≠ .latest m := by
      rintro m rfl
      obtain ⟨q, qs, rfl⟩ := exists_cons_of_ne_nil hne
      exact h.last m mem_cons_self
    have hlast : (s.passPut p).lastPass = s.lastPass := by cases p <;> rfl
    obtain ⟨epoch, hlatest, hdesc, hst⟩ := h.newest (cons_ne_nil p puts) content (hlast ▸ hc)
    refine ⟨epoch, ?_, hdesc, fun l hl i hi => ?_⟩
    · rw [passPut_bucket, hlabels]
      cases p with
      | page | versioned => exact hlatest
      | latest m => exact absurd rfl (hp m)
    · rw [hlabels] at hl
      rw [passPut_bucket]
      refine ⟨(hst l hl i hi).1, ?_, nofun⟩
      rcases h.put_eq l i with ⟨-, hput⟩ | ⟨-, hsame⟩
      · rw [hput]
        rfl
      · rw [hsame]
        exact (hst l hl i hi).2.1
  case last =>
    intro m hm
    cases puts with
    | nil => cases hm
    | cons q qs => exact h.last m (mem_cons_of_mem p hm)
  case partitions => exact h.partitions.trans (passPut_partitions s p).symm
  case content =>
    simp only [hbytes]
    exact h.content
  case files =>
    intro l
    rw [hbytes, (passPut_bytes s p l).2]
    exact h.files l
  case others =>
    intro l hl
    rw [hlabels] at hl
    rw [h.others l hl]
    cases p with
    | versioned | latest => rfl
    | page l0 i0 b0 =>
      have hne : l ≠ l0 := fun he => hl (he ▸ (h.bytes l0 i0 b0 mem_cons_self).1)
      exact (update_of_ne hne _ _).symm
  case before =>
    intro l
    rw [hbytes, (passPut_bytes s p l).2]
    exact ⟨(h.before l).1, fun i hd => (h.before l).2 i ((passPut_marked s p l i).1 hd).2⟩
  case bytes =>
    intro l i b hm
    rw [hlabels, hbytes]
    exact h.bytes l i b (mem_cons_of_mem p hm)
  case pending =>
    intro l hl i hi hd
    rw [hlabels] at hl
    rw [hbytes] at hi
    obtain ⟨hne, hd⟩ := (passPut_marked s p l i).1 hd
    obtain ⟨b, hm⟩ := h.pending l hl i hi hd
    exact ⟨b, (mem_cons.1 hm).resolve_left (fun he => hne b he.symm)⟩
  case sentinel =>
    obtain ⟨epoch, hdesc, hlatest⟩ := h.sentinel
    refine ⟨epoch, fun l => (hbytes l).symm ▸ hdesc l, ?_⟩
    rw [passPut_bucket, hlabels]
    exact hlatest

/-! ### The end of a pass -/

theorem Flight.stored (h : Flight s ⟨[], after, before⟩ keep) (hl : l ∈ s.labels)
    (hi : i < pageCount pageSize (s.files l).bytes.length) :
    s.bucket.pages l i = some (page pageSize (s.files l).bytes i) := by
  rcases (h.tracked l).backed i hi with hd | hst
  · obtain ⟨b, hm⟩ := h.pending l hl i hi hd
    cases hm
  · exact (PageStore.only_eq_some.1 hst).2

theorem Flight.finish (h : Flight s ⟨[], after, before⟩ keep) : Idle { after with bucket := s.bucket } keep false := by
  have hlabels : ({ after with bucket := s.bucket } : CartridgeIndexes).labels = s.labels := labels_congr h.partitions
  refine ⟨fun l => ?_, fun content hc => ?_⟩
  · rw [hlabels]
    by_cases hl : l ∈ s.labels
    · refine (h.tracked l).remark (h.files l).1 (h.files l).2 (fun i hi => .inr ?_)
      exact PageStore.only_eq_some.2 ⟨⟨hl, h.room l hl i hi⟩, h.stored hl hi⟩
    · -- the pass does not go through this file: its marks stay
      rw [h.others l hl]
      exact h.tracked l
  · obtain rfl : content = fun l => (s.files l).bytes := Option.some.inj (hc.symm.trans h.content)
    obtain ⟨epoch, hdesc, hlatest⟩ := h.sentinel
    rw [hlabels]
    refine ⟨epoch, hlatest, hdesc, fun l hl i hi => ⟨h.room l hl i hi, ?_, fun _ => h.stored hl hi⟩⟩
    rw [h.stored hl hi]
    rfl

/-- **A pass that fails** leaves the old sentinel, whose pages are there, and what it PUT. -/
theorem Flight.fail {p : PassRun} (h : Flight s p keep) (hp : p.puts ≠ []) (unwritten : List IndexLabel) :
    Idle { s with files := fun l => if l ∈ unwritten then p.before l else s.files l } keep true := by
  refine ⟨fun l => ?_, h.newest hp⟩
  by_cases hl : l ∈ unwritten
  · simp only [if_pos hl]
    obtain ⟨⟨hbytes, hnext⟩, hmarks⟩ := h.before l
    exact (h.tracked l).remark hbytes hnext fun i hi => ((h.tracked l).backed i hi).imp_left (hmarks i)
  · simp only [if_neg hl]
    exact h.tracked l

/-! ### A delete -/

theorem deletePage_pages (b : Bucket) (l0 l : IndexLabel) (i0 i : Nat) :
    (b.deletePage l0 i0).pages l i = if l = l0 ∧ i = i0 then none else b.pages l i := by
  by_cases hl : l = l0
  · subst hl
    simp [Bucket.deletePage, Function.update_apply]
  · simp [Bucket.deletePage, hl]

theorem deletePage_of_keep (hk : ¬ keep l i) (b : Bucket) {l' : IndexLabel} {i' : Nat} (h : keep l' i') :
    (b.deletePage l i).pages l' i' = b.pages l' i' := by
  rw [deletePage_pages, if_neg]
  rintro ⟨rfl, rfl⟩
  exact hk h

theorem Newest.delete (h : Newest s keep torn) (hk : ¬ keep l i) :
    Newest { s with bucket := s.bucket.deletePage l i } keep torn := by
  intro content hc
  obtain ⟨epoch, hlatest, hdesc, hst⟩ := h content hc
  refine ⟨epoch, hlatest, hdesc, fun l' hl' i' hi' => ?_⟩
  rw [deletePage_of_keep hk s.bucket (hst l' hl' i' hi').1]
  exact hst l' hl' i' hi'

theorem Idle.delete (h : Idle s keep torn) (hk : ¬ keep l i) :
    Idle { s with bucket := s.bucket.deletePage l i } keep torn :=
  ⟨fun l' => (h.tracked l').only_mono (fun _ hq _ => deletePage_of_keep hk s.bucket hq.2) (fun _ _ _ => id),
    h.newest.delete hk⟩

theorem latest_foldl_put_congr : ∀ (ps : List Put) {b b' : Bucket}, b.latest = b'.latest →
    (ps.foldl Bucket.put b).latest = (ps.foldl Bucket.put b').latest
  | [], _, _, h => h
  | p :: ps, b, b', h => by
    refine latest_foldl_put_congr ps ?_
    cases p with
    | page | versioned => exact h
    | latest => rfl

theorem Flight.delete {p : PassRun} (h : Flight s p keep) (hk : ¬ keep l i) :
    Flight { s with bucket := s.bucket.deletePage l i } p keep := by
  have hlatest : (p.puts.foldl Bucket.put (s.bucket.deletePage l i)).latest = (p.puts.foldl Bucket.put s.bucket).latest :=
    latest_foldl_put_congr p.puts rfl
  exact { h with
    tracked := fun l' => (h.tracked l').only_mono (fun _ hq _ => deletePage_of_keep hk s.bucket hq.2) fun _ _ _ => id
    newest := fun hp => (h.newest hp).delete hk
    sentinel := hlatest ▸ h.sentinel }

end CartridgeIndexes

/-! ## Runs -/

namespace SweptTape

variable {v v' : SweptTape} {a : TapeAct} {keep keep' : IndexLabel → Nat → Prop}

def Sound (v : SweptTape) (keep : IndexLabel → Nat → Prop) : Prop :=
  match v.pass with
  | none => v.indexes.Idle keep v.torn
  | some p => v.indexes.Flight p keep

theorem Sound.step (h : v.Sound keep) (hop : ∀ l o, a = .op l o → o.Marks l.format (v.indexes.files l))
    (hbegin : a = .passBegin → ∀ l ∈ v.indexes.labels, ∀ i < pageCount pageSize (v.indexes.files l).bytes.length, keep l i)
    (hs : v.step a = some v') : v'.Sound keep := by
  obtain ⟨indexes, runtime, pass, torn⟩ := v
  cases a with
  | persistRuntime =>
    cases hs
    exact h
  | op l o =>
    cases pass with
    | some p => cases hs
    | none =>
      cases hs
      exact CartridgeIndexes.Idle.op h (hop l o rfl)
  | fsync =>
    cases pass with
    | some p => cases hs
    | none =>
      cases hs
      have hidle : indexes.Idle keep torn := h
      exact ⟨hidle.tracked, hidle.newest⟩
  | passBegin =>
    cases pass with
    | some p => cases hs
    | none =>
      cases hs
      exact CartridgeIndexes.Idle.begin h (hbegin rfl)
  | passPut =>
    obtain _ | ⟨_ | ⟨p, puts⟩, after, before⟩ := pass
    · cases hs
    · cases hs
    · cases hs
      exact CartridgeIndexes.Flight.put h
  | passEnd =>
    obtain _ | ⟨_ | ⟨p, puts⟩, after, before⟩ := pass
    · cases hs
    · cases hs
      exact CartridgeIndexes.Flight.finish h
    · cases hs
  | passFail unwritten =>
    obtain _ | ⟨_ | ⟨p, puts⟩, after, before⟩ := pass
    · cases hs
    · cases hs
    · cases hs
      exact CartridgeIndexes.Flight.fail h (cons_ne_nil p puts) unwritten

theorem Sound.delete (h : v.Sound keep) {l : IndexLabel} {i : Nat} (hk : ¬ keep l i) :
    SweptTape.Sound { v with indexes := { v.indexes with bucket := v.indexes.bucket.deletePage l i } } keep := by
  obtain ⟨indexes, runtime, pass, torn⟩ := v
  cases pass with
  | none => exact CartridgeIndexes.Idle.delete h hk
  | some p => exact CartridgeIndexes.Flight.delete h hk

/-- Another sweep may keep less, as long as it keeps the newest backup and the pages that are not PUT again. -/
theorem Sound.mono (h : v.Sound keep)
    (hlast : ∀ content ∈ v.indexes.lastPass, ∀ l ∈ v.indexes.labels, ∀ i,
      i < pageCount pageSize (content l).length → keep l i → keep' l i)
    (hclean : ∀ l ∈ v.indexes.labels, ∀ i < pageCount pageSize (v.indexes.files l).bytes.length,
      (v.pass.isSome = true ∨ ¬ (v.indexes.files l).dirty.Marked i) → keep l i → keep' l i) : v.Sound keep' := by
  obtain ⟨indexes, runtime, pass, torn⟩ := v
  cases pass with
  | none =>
    have hidle : indexes.Idle keep torn := h
    exact ⟨fun l => (hidle.tracked l).only_mono (fun _ _ _ => rfl)
      (fun i hi hd hq => ⟨hq.1, hclean l hq.1 i hi (.inr hd) hq.2⟩), hidle.newest.mono hlast⟩
  | some p =>
    have hflight : indexes.Flight p keep := h
    exact { hflight with
      tracked := fun l => (hflight.tracked l).only_mono (fun _ _ _ => rfl)
        fun i hi hd hq => ⟨hq.1, hclean l hq.1 i hi (.inr hd) hq.2⟩
      room := fun l hl i hi => hclean l hl i hi (.inl rfl) (hflight.room l hl i hi)
      newest := fun hp => (hflight.newest hp).mono hlast }

end SweptTape

namespace SweptVault

variable {s s' : SweptVault} {c : Nat} {l : IndexLabel} {i : Nat}

def Inv (s : SweptVault) : Prop := ∀ c, (s.tapes c).Sound (s.keeps c)

theorem Inv.setTape (h : Inv s) (c : Nat) {v : SweptTape} (hv : v.Sound (s.keeps c)) : Inv (s.setTape c v) := by
  intro c'
  show (update s.tapes c v c').Sound (s.keeps c')
  by_cases hc : c' = c
  · subst hc
    rwa [update_self]
  · rw [update_of_ne hc]
    exact h c'

/-- A step of a sweep that has its counts, or the end of one. -/
theorem Inv.sweep (h : Inv s) {sweeps : Table Sweep} (hk : ∀ c l i, s.keeps c l i → keeps { s with sweeps } c l i) :
    Inv { s with sweeps } :=
  fun c => (h c).mono (fun _ _ l _ i _ => hk c l i) fun l _ i _ _ => hk c l i

theorem keeps_insert {t : Nat} {w : Sweep} (h : s.keeps c l i) (hw : ∀ m ∈ w.live c, i < liveCount m l) :
    keeps { s with sweeps := s.sweeps.insert t w } c l i :=
  (Table.all_iff _ _).2 (Table.forall_insert ((Table.all_iff _ _).1 h) hw)

theorem keeps_requeue {t : Nat} {w : Sweep} (hw : s.sweeps.lookup t = some w) (queue : List (Nat × IndexLabel × Nat))
    (h : s.keeps c l i) : keeps { s with sweeps := s.sweeps.insert t ⟨w.live, queue⟩ } c l i :=
  have hlive := Table.All.lookup h hw
  keeps_insert h hlive

theorem Inv.step {a : SweepAct} (h : Inv s) (hok : sweepOk s a) (hs : machine.step s a = some s') : Inv s' := by
  cases a with
  | tape c =>
    obtain ⟨v, hv, rfl⟩ := Option.map_eq_some_iff.1 hs
    refine h.setTape c ((h c).step ?_ ?_ hv)
    · rintro l o rfl
      exact hok
    · rintro rfl l hl i hi
      have hall : s.sweeps.All fun _ w => ∀ m ∈ w.live c, (s.tapes c).indexes.Within m := hok
      exact (Table.all_iff _ _).2 fun t w hw m hm => Nat.lt_of_lt_of_le hi (hall.lookup hw m hm l hl)
  | collectLiveIndexPages t tapes =>
    simp only [machine] at hs
    split at hs <;> cases hs
    intro c
    have hcount : ∀ m ∈ (if c ∈ tapes then (s.tapes c).runtime else none), (s.tapes c).CountedBy m := by
      intro m hm
      split at hm
      · next hc => exact hok c hc m hm
      · cases hm
    refine (h c).mono (fun content hc l hl i hi hk => ?_) fun l hl i hi hd hk => ?_
    · exact keeps_insert hk fun m hm => Nat.lt_of_lt_of_le hi (((hcount m hm).1 l hl).1 content hc)
    · refine keeps_insert hk fun m hm => hd.elim (fun hp => ?_) (((hcount m hm).1 l hl).2 i hi)
      exact Nat.lt_of_lt_of_le hi ((hcount m hm).2 hp l hl)
  | listObjects t c keys =>
    simp only [machine] at hs
    split at hs
    · next live hw =>
      split at hs <;> cases hs
      exact h.sweep fun _ _ _ => keeps_requeue hw _
    · cases hs
  | deleteObject t =>
    simp only [machine] at hs
    split at hs
    · next live c l i queue hw =>
      have h' : Inv { s with sweeps := s.sweeps.insert t ⟨live, queue⟩ } := h.sweep fun _ _ _ => keeps_requeue hw _
      split at hs <;> cases hs
      · next hd =>
        obtain ⟨m, hm, hle⟩ := hd
        refine h'.setTape c ((h' c).delete fun hk => ?_)
        exact Nat.not_lt.2 hle (Table.All.lookup hk (AList.lookup_insert _) m hm)
      · exact h'
    · cases hs
  | sweepEnd t =>
    cases hs
    exact h.sweep fun _ _ _ hk => (Table.all_iff _ _).2 (Table.forall_erase ((Table.all_iff _ _).1 hk) t)

def firstPass (viewHandle : Bool) : List SweepAct :=
  [.tape 0 .passBegin, .tape 0 .passPut, .tape 0 .passPut, .tape 0 .passPut, .tape 0 .passPut, .tape 0 (.passEnd viewHandle)]

def sweepOf (keys : List (IndexLabel × Nat)) : List SweepAct := .listObjects 1 0 keys :: keys.map fun _ => .deleteObject 1

/-- A sweep next to a pass that fails after its first PUT. -/
def sweptRun : List SweepAct :=
  firstPass false ++ [.tape 0 (.op .chunks (.append .staging)), .collectLiveIndexPages 1 [0],
    .tape 0 .passBegin, .tape 0 .passPut] ++
    sweepOf [(.chunks, 0), (.chunks, 5), (.blocks 0, 0)] ++ [.tape 0 (.passFail []), .sweepEnd 1]

end SweptVault

end Thur.Stream

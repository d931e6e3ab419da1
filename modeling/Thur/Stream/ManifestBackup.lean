import Thur.Stream.IndexBackup
/-!
# ManifestBackup — a backup pass of a cartridge, cut after any PUT

A pass uploads the dirty pages of the chunk index and then of each block index, PUTs a versioned manifest and last the
sentinel `manifest-latest.json`, which holds the epochs a restore goes by. The pages are overwritten, so until the
sentinel is replaced a restore reads new pages by the old epochs.
-/
namespace Thur.Stream

open List Function Paged

inductive IndexLabel
  | chunks
  | blocks (partition : Nat)
deriving DecidableEq

def IndexLabel.Rec : IndexLabel → Type
  | .chunks => ChunkRec Digest
  | .blocks _ => BlockRec

def IndexLabel.format : (l : IndexLabel) → IndexFormat l.Rec
  | .chunks => chunkFormat
  | .blocks _ => blockFormat

abbrev EpochMap := List (IndexLabel × IndexEpoch)

structure Bucket where
  pages : IndexLabel → PageStore
  latest : Option EpochMap

inductive Put
  | page (label : IndexLabel) (i : Nat) (bytes : Bytes)
  | versioned
  | latest (epochs : EpochMap)

def Bucket.put (b : Bucket) : Put → Bucket
  | .page l i bytes => { b with pages := update b.pages l (update (b.pages l) i (some bytes)) }
  | .versioned => b
  | .latest epochs => { b with latest := some epochs }

def restoreEpochs (pages : IndexLabel → PageStore) : EpochMap → Except SmcError (List (IndexLabel × Bytes))
  | [] => .ok []
  | (l, e) :: rest =>
    match restoreOneIndex (pages l) e with
    | .error err => .error err
    | .ok bytes =>
      match restoreEpochs pages rest with
      | .error err => .error err
      | .ok files => .ok ((l, bytes) :: files)

def Bucket.restoreFromLatest (b : Bucket) : Except SmcError (List (IndexLabel × Bytes)) :=
  match b.latest with
  | none => .error .objectStoreError
  | some epochs => restoreEpochs b.pages epochs

/-- With its bucket, and what the files were when the last completed pass read them. -/
structure CartridgeIndexes where
  partitions : Nat
  files : IndexLabel → IndexFile
  sidecars : IndexLabel → Option DirtyPageTracker
  bucket : Bucket
  lastPass : Option (IndexLabel → Bytes)

inductive ManifestAct
  | op (l : IndexLabel) (o : IndexOp l.Rec)
  | fsync (l : IndexLabel)
  | backup

namespace CartridgeIndexes

section

variable (s : CartridgeIndexes)

def labels : List IndexLabel := .chunks :: (List.range s.partitions).map .blocks

def backupOf (l : IndexLabel) : Backup := ⟨s.files l, s.sidecars l, s.bucket.pages l⟩

def pagePuts (l : IndexLabel) : List Put :=
  ((s.files l).dirty.pages.filter (fun i => decide (i * pageSize < (s.files l).bytes.length))).map
    fun i => .page l i (page pageSize (s.files l).bytes i)

def epochs : EpochMap := s.labels.map fun l => (l, (s.backupOf l).uploadOneIndex.1)

def passPuts : List Put := (s.labels.flatMap s.pagePuts ++ [.versioned]) ++ [.latest s.epochs]

def backup : CartridgeIndexes :=
  { s with
    files := fun l => if l ∈ s.labels then (s.backupOf l).uploadOneIndex.2.file else s.files l
    sidecars := fun l => if l ∈ s.labels then (s.backupOf l).uploadOneIndex.2.sidecar else s.sidecars l
    bucket := s.passPuts.foldl Bucket.put s.bucket
    lastPass := some (fun l => (s.files l).bytes) }

end

def created (partitions : Nat) (pages : IndexLabel → PageStore) : CartridgeIndexes where
  partitions := partitions
  files l := ⟨IndexFile.header l.format, 0, DirtyPageTracker.blank.markRange 0 headerSize⟩
  sidecars _ := none
  bucket := ⟨pages, none⟩
  lastPass := none

def machine : Machine CartridgeIndexes ManifestAct where
  step s
    | .op l o => some { s with files := update s.files l (o.apply l.format (s.files l)) }
    | .fsync l => some { s with sidecars := update s.sidecars l (some (s.files l).dirty) }
    | .backup => some s.backup

def manifestOk (s : CartridgeIndexes) : ManifestAct → Prop
  | .op l o => o.Marks l.format (s.files l)
  | _ => True

instance (s : CartridgeIndexes) (a : ManifestAct) : Decidable (manifestOk s a) := by
  apply ManifestAct.casesOn (motive := fun a => Decidable (manifestOk s a)) a <;> intros <;> unfold manifestOk <;>
    infer_instance

/-! ## The bucket after some PUTs -/

def Replaces (ps : List Put) (l : IndexLabel) (i : Nat) : Prop := ∃ bytes, Put.page l i bytes ∈ ps

theorem put_pages (b : Bucket) (p : Put) (l : IndexLabel) (i : Nat) :
    (b.put p).pages l i = match p with
      | .page l' i' bytes => if l = l' ∧ i = i' then some bytes else b.pages l i
      | _ => b.pages l i := by
  cases p with
  | page l' i' =>
    simp only [Bucket.put, update_apply]
    by_cases hl : l = l'
    · subst hl
      by_cases hi : i = i'
      · simp [hi]
      · simp [hi]
    · simp [hl]
  | versioned | latest => rfl

theorem foldl_put_pages {g : IndexLabel → Nat → Bytes} : ∀ (ps : List Put) (b : Bucket),
    (∀ l i bytes, Put.page l i bytes ∈ ps → bytes = g l i) → ∀ l i,
      (Replaces ps l i → (ps.foldl Bucket.put b).pages l i = some (g l i)) ∧
      (¬ Replaces ps l i → (ps.foldl Bucket.put b).pages l i = b.pages l i)
  | [], b, _, l, i => by
    refine ⟨?_, fun _ => rfl⟩
    rintro ⟨_, h⟩
    cases h
  | p :: ps, b, h, l, i => by
    obtain ⟨hin, hout⟩ := foldl_put_pages ps (b.put p) (fun l i bytes hm => h l i bytes (mem_cons_of_mem p hm)) l i
    rw [foldl_cons]
    by_cases hrest : Replaces ps l i
    · refine ⟨fun _ => hin hrest, fun hn => ?_⟩
      obtain ⟨bytes, hm⟩ := hrest
      exact absurd ⟨bytes, mem_cons_of_mem p hm⟩ hn
    · rw [hout hrest, put_pages]
      constructor
      · rintro ⟨bytes, hm⟩
        rcases mem_cons.1 hm with rfl | hm
        · simp [h l i bytes mem_cons_self]
        · exact absurd ⟨bytes, hm⟩ hrest
      · intro hn
        cases p with
        | page l' i' bytes =>
          have hne : ¬ (l = l' ∧ i = i') := by
            rintro ⟨rfl, rfl⟩
            exact hn ⟨bytes, mem_cons_self⟩
          simp only [if_neg hne]
        | versioned | latest => rfl

variable {s : CartridgeIndexes} {l : IndexLabel}

theorem mem_passPuts_page {i : Nat} {bytes : Bytes} :
    Put.page l i bytes ∈ s.passPuts ↔ l ∈ s.labels ∧ ((s.files l).dirty.Marked i ∧ i * pageSize < (s.files l).bytes.length) ∧
      bytes = page pageSize (s.files l).bytes i := by
  simp only [passPuts, pagePuts, mem_append, mem_flatMap, mem_map, mem_filter, mem_singleton,
    decide_eq_true_eq, DirtyPageTracker.mem_pages, Put.page.injEq, reduceCtorEq, or_false]
  constructor
  · rintro ⟨l', hl', i', hi', rfl, rfl, rfl⟩
    exact ⟨hl', hi', rfl⟩
  · rintro ⟨hl, hi, rfl⟩
    exact ⟨l, hl, i, hi, rfl, rfl, rfl⟩

theorem passPuts_bytes (l : IndexLabel) (i : Nat) (bytes : Bytes) (h : Put.page l i bytes ∈ s.passPuts) :
    bytes = page pageSize (s.files l).bytes i := (mem_passPuts_page.1 h).2.2

theorem latest_foldl_passPuts (b : Bucket) : (s.passPuts.foldl Bucket.put b).latest = some s.epochs := by
  rw [passPuts, foldl_append]
  rfl

theorem pages_foldl_passPuts (hl : l ∈ s.labels) :
    (s.passPuts.foldl Bucket.put s.bucket).pages l = (s.backupOf l).uploadOneIndex.2.store := by
  funext i
  obtain ⟨hin, hout⟩ := foldl_put_pages s.passPuts s.bucket (passPuts_bytes (s := s)) l i
  have hspec : (s.backupOf l).uploadOneIndex.2.store i =
      if (s.files l).dirty.Marked i ∧ i * pageSize < (s.files l).bytes.length then
        some (page pageSize (s.files l).bytes i) else s.bucket.pages l i :=
    (uploadOneIndex_spec (s.backupOf l)).2.2.2 i
  rw [hspec]
  by_cases hr : Replaces s.passPuts l i
  · obtain ⟨bytes, hm⟩ := id hr
    rw [hin hr, if_pos (mem_passPuts_page.1 hm).2.1]
  · rw [hout hr, if_neg]
    intro hi
    exact hr ⟨_, mem_passPuts_page.2 ⟨hl, hi, rfl⟩⟩

theorem pages_foldl_passPuts_of_not_mem (hl : l ∉ s.labels) :
    (s.passPuts.foldl Bucket.put s.bucket).pages l = s.bucket.pages l := by
  funext i
  refine (foldl_put_pages s.passPuts s.bucket (passPuts_bytes (s := s)) l i).2 ?_
  rintro ⟨bytes, hm⟩
  exact hl (mem_passPuts_page.1 hm).1

/-! ## What a restore gives -/

theorem restoreEpochs_ok_iff (pages : IndexLabel → PageStore) {content : IndexLabel → Bytes}
    {epoch : IndexLabel → IndexEpoch} (hdesc : ∀ l, (epoch l).Describes (content l)) : ∀ ls : List IndexLabel,
    restoreEpochs pages (ls.map (fun l => (l, epoch l))) = .ok (ls.map (fun l => (l, content l))) ↔
      ∀ l ∈ ls, ∀ i, i < pageCount pageSize (content l).length →
        pages l i = some (page pageSize (content l) i)
  | [] => by simp [restoreEpochs]
  | l :: ls => by
    have ih := restoreEpochs_ok_iff pages hdesc ls
    have hone := restoreOneIndex_ok_iff (pages l) (hdesc l)
    rw [forall_mem_cons, ← ih, ← hone]
    simp only [map_cons, restoreEpochs]
    cases restoreOneIndex (pages l) (epoch l) with
    | error err => simp
    | ok bytes =>
      cases restoreEpochs pages (ls.map (fun l => (l, epoch l))) with
      | error err | ok files => simp

/-! ## Runs -/

structure Inv (s : CartridgeIndexes) : Prop where
  tracked : ∀ l, Tracked l.format (s.files l) (s.bucket.pages l)
  last : ∀ content, s.lastPass = some content → ∃ epoch : IndexLabel → IndexEpoch,
    s.bucket.latest = some (s.labels.map (fun l => (l, epoch l))) ∧ (∀ l, (epoch l).Describes (content l)) ∧
      ∀ l ∈ s.labels, ∀ i, i < pageCount pageSize (content l).length →
        s.bucket.pages l i = some (page pageSize (content l) i)

theorem inv_created (partitions : Nat) (pages : IndexLabel → PageStore) : Inv (created partitions pages) :=
  ⟨fun l => tracked_header (pages l) _, fun _ h => by cases h⟩

theorem Inv.describes (h : Inv s) (l : IndexLabel) : (s.backupOf l).uploadOneIndex.1.Describes (s.files l).bytes :=
  Tracked.describes (b := s.backupOf l) (h.tracked l)

theorem Inv.backup (h : Inv s) : Inv s.backup := by
  refine ⟨fun l => ?_, fun content hc => ?_⟩
  · by_cases hl : l ∈ s.labels
    · have hup := (Tracked.upload (b := s.backupOf l) (h.tracked l)).1
      simp only [CartridgeIndexes.backup, if_pos hl, pages_foldl_passPuts hl]
      exact hup
    · simp only [CartridgeIndexes.backup, if_neg hl, pages_foldl_passPuts_of_not_mem hl]
      exact h.tracked l
  · cases hc
    refine ⟨fun l => (s.backupOf l).uploadOneIndex.1, latest_foldl_passPuts s.bucket, h.describes, fun l hl i hi => ?_⟩
    have hstored := stored_of_backed (b := s.backupOf l) (h.tracked l).backed i hi
    have hpages : s.backup.bucket.pages l = (s.backupOf l).uploadOneIndex.2.store := pages_foldl_passPuts hl
    rw [hpages]
    exact hstored

theorem Inv.step {s' : CartridgeIndexes} {a : ManifestAct} (h : Inv s) (hok : manifestOk s a)
    (hs : machine.step s a = some s') : Inv s' := by
  cases a with
  | op l =>
    cases hs
    refine ⟨fun l' => ?_, h.last⟩
    by_cases hl : l' = l
    · subst hl
      simp only [update_self]
      exact (h.tracked l').apply hok
    · simp only [update_of_ne hl]
      exact h.tracked l'
  | fsync =>
    cases hs
    exact ⟨h.tracked, h.last⟩
  | backup =>
    cases hs
    exact h.backup

def Keeps (content : IndexLabel → Bytes) : Put → Prop
  | .page l i bytes => i < pageCount pageSize (content l).length → bytes = page pageSize (content l) i
  | _ => True

instance (content : IndexLabel → Bytes) (p : Put) : Decidable (Keeps content p) := by
  cases p <;> unfold Keeps <;> infer_instance

/-- The last completed backup, or the one being taken if it finished. -/
def expected (s : CartridgeIndexes) (content : IndexLabel → Bytes) (k : Nat) (l : IndexLabel) : Bytes :=
  if k < s.passPuts.length then content l else (s.files l).bytes

def firstChunk : ChunkRec Digest := .staging

def firstBlock : BlockRec := ⟨0, 0, 1, .data, .none, none⟩

def grownRun : List ManifestAct :=
  [.op .chunks (.append firstChunk), .op (.blocks 0) (.append firstBlock), .backup, .op (.blocks 0) (.append firstBlock)]

end CartridgeIndexes

end Thur.Stream

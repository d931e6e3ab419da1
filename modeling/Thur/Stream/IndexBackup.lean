import Thur.Lib.Machine
import Thur.Stream.IndexFile
/-!
# IndexBackup — the backup of one index file, page by page

A pass uploads the pages the handle's bitmap marks, overwriting their objects, and returns the sentinel that a restore
goes by: the number of pages and the length of the file. A restore refuses a page of another length, so every mutation
has to mark the page it changes. `truncate_to` does so only where the bitmap has a word for the page the file now ends
in, which it has not after a restore into an empty directory (`backup_round_trip_fails`).
-/
namespace Thur.Stream

open IndexFile DirtyPageTracker Paged

structure IndexEpoch where
  pages : Nat
  pageSize : Nat
  epoch : Nat
  fileSize : Nat

abbrev PageStore := Nat → Option Bytes

/-! ## A pass -/

structure PassState where
  tracker : DirtyPageTracker
  store : PageStore
  handled : List Nat

/-- Dropped if it lies past the end of the file. -/
def uploadPage (bytes : Bytes) (p : PassState) (page : Nat) : PassState :=
  if page * pageSize ≥ bytes.length then
    { p with tracker := p.tracker.clearPages [page], handled := p.handled ++ [page] }
  else
    { tracker := p.tracker.clearPages [page], store := Function.update p.store page (some (Paged.page pageSize bytes page)),
      handled := p.handled ++ [page] }

structure Backup where
  file : IndexFile
  sidecar : Option DirtyPageTracker
  store : PageStore

/-- The marks are cleared in memory, and in the sidecar on disk. -/
def Backup.uploadOneIndex (b : Backup) : IndexEpoch × Backup :=
  let pass := b.file.dirty.pages.foldl (uploadPage b.file.bytes) ⟨b.file.dirty, b.store, []⟩
  let onDisk := ((b.sidecar.getD .blank).clearPages pass.handled).bumpEpoch
  (⟨asU32 (Paged.pageCount pageSize b.file.bytes.length), pageSize, onDisk.epoch, b.file.bytes.length⟩,
    { file := { b.file with dirty := pass.tracker }, sidecar := some onDisk, store := pass.store })

/-! ## A restore -/

def restoreLoop (fetch : PageStore) (size : Nat) : Nat → Except SmcError Bytes
  | 0 => .ok (List.replicate size 0)
  | n + 1 =>
    match restoreLoop fetch size n with
    | .error e => .error e
    | .ok l =>
      if n * pageSize ≥ size then .ok l
      else
        match fetch n with
        | none => .error .objectStoreError
        | some b =>
          if b.length ≠ min pageSize (size - n * pageSize) then
            .error (.invalidOp "index page restore: page payload size disagrees with sentinel")
          else .ok (Paged.writeAt 0 l (n * pageSize) b)

def restoreOneIndex (store : PageStore) (e : IndexEpoch) : Except SmcError Bytes :=
  if e.pageSize ≠ pageSize then .error (.invalidOp "index page restore: page size mismatch with build")
  else restoreLoop store e.fileSize e.pages

/-! ## Use of one index file -/

inductive IndexOp (ρ : Type)
  | append (r : ρ)
  | overwrite (i : Nat) (r : ρ)
  | truncateTo (n : Nat)

/-- A clean reopen syncs first; a restore goes by the last pass's sentinel, into the directory as it is or an empty
one. -/
inductive IndexAct (ρ : Type)
  | op (o : IndexOp ρ)
  | fsync
  | reopen
  | upload
  | restore (emptyDir : Bool)

structure BackupState extends Backup where
  lastEpoch : Option IndexEpoch

variable {ρ : Type} (fmt : IndexFormat ρ) {b : Backup} {f : IndexFile} {store : PageStore} {o : IndexOp ρ}

def IndexOp.apply (f : IndexFile) : IndexOp ρ → IndexFile
  | .append r => (f.append fmt r).2
  | .overwrite i r => (f.overwrite fmt i r).2
  | .truncateTo n => f.truncateTo fmt n

namespace BackupState

def created (store : PageStore) : BackupState :=
  { file := ⟨IndexFile.header fmt, 0, DirtyPageTracker.blank.markRange 0 headerSize⟩, sidecar := none, store := store,
    lastEpoch := none }

def opened (s : BackupState) (bytes : Bytes) (sidecar : Option DirtyPageTracker) : Option BackupState :=
  match IndexFile.openOrCreate fmt bytes sidecar with
  | .ok f => some { s with file := f, sidecar := sidecar }
  | .error _ => none

def machine : Machine BackupState (IndexAct ρ) where
  step s
    | .op o => some { s with file := o.apply fmt s.file }
    | .fsync => some { s with sidecar := some s.file.dirty }
    | .reopen => s.opened fmt s.file.bytes (some s.file.dirty)
    | .upload => some { s.uploadOneIndex.2 with lastEpoch := some s.uploadOneIndex.1 }
    | .restore emptyDir =>
      match s.lastEpoch with
      | none => none
      | some e =>
        match restoreOneIndex s.store e with
        | .error _ => none
        | .ok bytes => s.opened fmt bytes (some ((if emptyDir then none else s.sidecar).getD .blank))

end BackupState

/-! ## What a pass does -/

theorem foldl_uploadPage (bytes : Bytes) : ∀ (ps : List Nat) (p : PassState),
    (ps.foldl (uploadPage bytes) p).handled = p.handled ++ ps ∧
    (∀ i, (ps.foldl (uploadPage bytes) p).tracker.Marked i ↔ i ∉ ps ∧ p.tracker.Marked i) ∧
    (∀ i, (ps.foldl (uploadPage bytes) p).store i =
      if i ∈ ps ∧ i * pageSize < bytes.length then some (Paged.page pageSize bytes i) else p.store i)
  | [], p => by simp
  | q :: ps, p => by
    obtain ⟨h1, h2, h3⟩ := foldl_uploadPage bytes ps (uploadPage bytes p q)
    have htracker : (uploadPage bytes p q).tracker = p.tracker.clearPages [q] := by
      unfold uploadPage
      split <;> rfl
    have hhandled : (uploadPage bytes p q).handled = p.handled ++ [q] := by
      unfold uploadPage
      split <;> rfl
    have hstore : ∀ i, (uploadPage bytes p q).store i =
        if i = q ∧ i * pageSize < bytes.length then some (page pageSize bytes i) else p.store i := by
      intro i
      unfold uploadPage
      by_cases hq : q * pageSize ≥ bytes.length
      · rw [if_pos hq, if_neg]
        rintro ⟨rfl, h⟩
        omega
      · rw [if_neg hq]
        by_cases hi : i = q
        · subst hi
          rw [if_pos ⟨rfl, by omega⟩]
          exact Function.update_self _ _ _
        · rw [if_neg (fun h => hi h.1)]
          exact Function.update_of_ne hi _ _
    rw [List.foldl_cons]
    refine ⟨?_, fun i => ?_, fun i => ?_⟩
    · rw [h1, hhandled, List.append_assoc]
      rfl
    · rw [h2, htracker, marked_clearPages]
      simp only [List.mem_cons, List.not_mem_nil, or_false, not_or]
      tauto
    · rw [h3, hstore]
      simp only [List.mem_cons]
      by_cases hm : i ∈ ps
      · by_cases hl : i * pageSize < bytes.length
        · rw [if_pos ⟨hm, hl⟩, if_pos ⟨.inr hm, hl⟩]
        · rw [if_neg (fun h => hl h.2), if_neg (fun h => hl h.2), if_neg (fun h => hl h.2)]
      · rw [if_neg (fun h => hm h.1)]
        refine if_congr ?_ rfl rfl
        tauto

theorem uploadOneIndex_spec (b : Backup) :
    b.uploadOneIndex.2.file.bytes = b.file.bytes ∧ b.uploadOneIndex.2.file.next = b.file.next ∧
    (∀ i, ¬ b.uploadOneIndex.2.file.dirty.Marked i) ∧
    ∀ i, b.uploadOneIndex.2.store i =
      if b.file.dirty.Marked i ∧ i * pageSize < b.file.bytes.length then some (Paged.page pageSize b.file.bytes i)
      else b.store i := by
  obtain ⟨_, h2, h3⟩ := foldl_uploadPage b.file.bytes b.file.dirty.pages ⟨b.file.dirty, b.store, []⟩
  refine ⟨rfl, rfl, fun i hm => ?_, fun i => ?_⟩
  · obtain ⟨hnot, hmarked⟩ := (h2 i).1 hm
    exact hnot ((mem_pages _ i).2 hmarked)
  · exact (h3 i).trans (if_congr (and_congr (mem_pages _ i) Iff.rfl) rfl rfl)

theorem stored_of_backed (h : Paged.Backed pageSize b.file.dirty.Marked b.store b.file.bytes) :
    ∀ i, i < Paged.pageCount pageSize b.file.bytes.length →
      b.uploadOneIndex.2.store i = some (Paged.page pageSize b.file.bytes i) := by
  intro i hi
  rw [(uploadOneIndex_spec b).2.2.2 i]
  have hlt := (lt_pageCount pageSize_pos).1 hi
  rcases h i hi with hd | hs
  · rw [if_pos ⟨hd, hlt⟩]
  · by_cases hc : b.file.dirty.Marked i ∧ i * pageSize < b.file.bytes.length
    · rw [if_pos hc]
    · rw [if_neg hc, hs]

/-! ## What a restore does -/

theorem restoreLoop_ok_iff (fetch : PageStore) (size : Nat) : ∀ (n : Nat) (r : Bytes),
    restoreLoop fetch size n = .ok r ↔ Paged.restorePages pageSize 0 size fetch n = some r
  | 0, r => by simp [restoreLoop, Paged.restorePages]
  | n + 1, r => by
    have ih := restoreLoop_ok_iff fetch size n
    cases hl : restoreLoop fetch size n with
    | error e =>
      have hnone : restorePages pageSize 0 size fetch n = none := by
        cases hp : restorePages pageSize 0 size fetch n with
        | none => rfl
        | some l =>
          rw [(ih l).2 hp] at hl
          cases hl
      simp [restoreLoop, restorePages, hl, hnone]
    | ok l =>
      have hsome := (ih l).1 hl
      rw [restoreLoop, restorePages, hl, hsome, Option.bind_some]
      dsimp only
      by_cases hn : n * pageSize < size
      · rw [if_neg (Nat.not_le.2 hn), if_pos hn]
        cases fetch n with
        | none => simp
        | some b =>
          simp only [Option.bind_some]
          by_cases hb : b.length = min pageSize (size - n * pageSize)
          · rw [if_neg (fun h => h hb), if_pos hb]
            simp
          · rw [if_pos hb, if_neg hb]
            simp
      · rw [if_pos (Nat.not_lt.1 hn), if_neg hn]
        simp

def IndexEpoch.Describes (e : IndexEpoch) (bytes : Bytes) : Prop :=
  e.pages = Paged.pageCount Stream.pageSize bytes.length ∧ e.pageSize = Stream.pageSize ∧ e.fileSize = bytes.length

/-- **A restore gives a file exactly if each page of its sentinel is stored.** -/
theorem restoreOneIndex_ok_iff (store : PageStore) {e : IndexEpoch} {bytes : Bytes} (h : e.Describes bytes) :
    restoreOneIndex store e = .ok bytes ↔
      ∀ i, i < Paged.pageCount pageSize bytes.length → store i = some (Paged.page pageSize bytes i) := by
  obtain ⟨hpages, hsize, hlen⟩ := h
  unfold restoreOneIndex
  rw [if_neg (fun h => h hsize), restoreLoop_ok_iff, hpages, hlen]
  constructor
  · intro hr i hi
    exact (restorePages_some pageSize_pos 0 hr).2 i hi ((lt_pageCount pageSize_pos).1 hi)
  · exact restorePages_eq pageSize_pos 0 bytes

/-! ## Mutations that mark what they change -/

def maxFileSize : Nat := u32Max * pageSize

theorem pageCount_lt {n : Nat} (h : n ≤ maxFileSize) : Paged.pageCount pageSize n < 4294967296 := by
  have hmono := pageCount_mono (P := pageSize) h
  have hmax : pageCount pageSize maxFileSize = 4294967295 := by decide
  omega

/-- The file stays within `u32` page numbers, and a cut ends in a page that the bitmap has a word for. -/
def IndexOp.Marks (f : IndexFile) : IndexOp ρ → Prop
  | .append _ => IndexFile.lengthOf fmt (f.next + 1) ≤ maxFileSize
  | .overwrite _ _ => True
  | .truncateTo n => n ≤ f.next ∧ (n = f.next ∨ f.dirty.Covers (Paged.pageCount pageSize (IndexFile.lengthOf fmt n)))

instance (f : IndexFile) (o : IndexOp ρ) : Decidable (o.Marks fmt f) := by
  apply IndexOp.casesOn (motive := fun o => Decidable (o.Marks fmt f)) o <;> intros <;> unfold IndexOp.Marks <;> infer_instance

variable {fmt} {s s' : BackupState}

inductive IndexOp.Does (fmt : IndexFormat ρ) (f : IndexFile) : IndexOp ρ → IndexFile → Prop
  | refused {o : IndexOp ρ} : Does fmt f o f
  | append {r : ρ} {buf : Bytes} (hbuf : fmt.encode r = .ok buf) :
      Does fmt f (.append r) { f.writeRecord fmt f.next buf with next := f.next + 1 }
  | overwrite {i : Nat} {r : ρ} {buf : Bytes} (hi : i < f.next) (hbuf : fmt.encode r = .ok buf) :
      Does fmt f (.overwrite i r) (f.writeRecord fmt i buf)
  | truncateTo {n : Nat} : Does fmt f (.truncateTo n) (f.truncateTo fmt n)

theorem IndexOp.does (fmt : IndexFormat ρ) (f : IndexFile) (o : IndexOp ρ) : o.Does fmt f (o.apply fmt f) := by
  cases o with
  | append r =>
    simp only [IndexOp.apply, IndexFile.append]
    cases hbuf : fmt.encode r with
    | error e => exact .refused
    | ok buf => exact .append hbuf
  | overwrite i r =>
    simp only [IndexOp.apply, IndexFile.overwrite]
    split
    · exact .refused
    · next hi =>
      cases hbuf : fmt.encode r with
      | error e => exact .refused
      | ok buf => exact .overwrite (Nat.lt_of_not_le hi) hbuf
  | truncateTo => exact .truncateTo

theorem marked_writeRecord {i : Nat} (hsize : IndexFile.lengthOf fmt (i + 1) ≤ maxFileSize) {r : ρ} {buf : Bytes}
    (hbuf : fmt.encode r = .ok buf) (j : Nat) : (f.writeRecord fmt i buf).dirty.Marked j ↔
      f.dirty.Marked j ∨ Paged.Touches pageSize (IndexFile.lengthOf fmt i) buf.length j := by
  have hlast : (lengthOf fmt i + fmt.recordSize - 1) / pageSize < 4294967296 := by
    have hcount := pageCount_lt hsize
    rw [lengthOf_succ, pageCount] at hcount
    have hle : (lengthOf fmt i + fmt.recordSize - 1) / pageSize ≤
        (lengthOf fmt i + fmt.recordSize + pageSize - 1) / pageSize :=
      Nat.div_le_div_right (by omega)
    omega
  rw [writeRecord, marked_markRange _ hlast, fmt.length_encode hbuf]

section

variable (hlen : f.bytes.length = IndexFile.lengthOf fmt f.next)
include hlen

theorem backed_writeRecord (hb : Paged.Backed pageSize f.dirty.Marked store f.bytes) {i : Nat} (hi : i ≤ f.next)
    (hsize : IndexFile.lengthOf fmt (i + 1) ≤ maxFileSize) {r : ρ} {buf : Bytes} (hbuf : fmt.encode r = .ok buf) :
    Paged.Backed pageSize (f.writeRecord fmt i buf).dirty.Marked store (f.writeRecord fmt i buf).bytes := by
  refine hb.writeAt pageSize_pos 0 buf ?_ fun j hj => (marked_writeRecord hsize hbuf j).2 hj
  rw [hlen]
  exact lengthOf_mono hi

theorem backed_truncateTo (hb : Paged.Backed pageSize f.dirty.Marked store f.bytes)
    (hsize : f.bytes.length ≤ maxFileSize) {n : Nat}
    (hm : (IndexOp.truncateTo n).Marks fmt f) :
    Paged.Backed pageSize (f.truncateTo fmt n).dirty.Marked store (f.truncateTo fmt n).bytes := by
  obtain ⟨hn, hcover⟩ := hm
  have hle : lengthOf fmt n ≤ f.bytes.length := by
    rw [hlen]
    exact lengthOf_mono hn
  have hcast := asU32_of_lt (pageCount_lt (Nat.le_trans hle hsize))
  simp only [truncateTo, hcast]
  rcases hcover with rfl | hcover
  · rw [setLen_of_le 0 hle, ← hlen, List.take_length]
    exact hb.mono fun i hi hd => marked_truncateToPages_of_lt _ hi hd
  · rw [setLen_of_le 0 hle]
    refine hb.take pageSize_pos hle fun i hi hd => ?_
    rcases hd with hd | hlast
    · exact marked_truncateToPages_of_lt _ hi hd
    · have := marked_truncateToPages_last f.dirty (Nat.lt_of_le_of_lt (Nat.zero_le i) hi) hcover
      have hi' : i = pageCount pageSize (lengthOf fmt n) - 1 := by omega
      rwa [hi']

theorem IndexOp.length_apply (o : IndexOp ρ) :
    (o.apply fmt f).bytes.length = IndexFile.lengthOf fmt (o.apply fmt f).next := by
  have h := o.does fmt f
  generalize o.apply fmt f = f' at h ⊢
  cases h with
  | refused => exact hlen
  | append hbuf =>
    simp only [IndexFile.writeRecord, length_writeAt, hlen, fmt.length_encode hbuf, ← IndexFile.lengthOf_succ]
    exact Nat.max_eq_right (IndexFile.lengthOf_mono (Nat.le_succ f.next))
  | overwrite hi hbuf =>
    simp only [IndexFile.writeRecord, length_writeAt, hlen, fmt.length_encode hbuf, ← IndexFile.lengthOf_succ]
    exact Nat.max_eq_left (IndexFile.lengthOf_mono hi)
  | truncateTo => exact length_setLen _ _ _

/-- **A mutation that marks what it changes leaves no page behind.** -/
theorem IndexOp.backed_apply (hsize : f.bytes.length ≤ maxFileSize) (hb : Paged.Backed pageSize f.dirty.Marked store f.bytes)
    (ho : o.Marks fmt f) : Paged.Backed pageSize (o.apply fmt f).dirty.Marked store (o.apply fmt f).bytes := by
  have h := o.does fmt f
  generalize o.apply fmt f = f' at h ⊢
  cases h with
  | refused => exact hb
  | append hbuf => exact backed_writeRecord hlen hb (Nat.le_refl _) ho hbuf
  | overwrite hi hbuf =>
    rw [hlen] at hsize
    exact backed_writeRecord hlen hb (Nat.le_of_lt hi) (Nat.le_trans (IndexFile.lengthOf_mono hi) hsize) hbuf
  | truncateTo => exact backed_truncateTo hlen hb hsize ho

end

theorem IndexOp.wellFormed_apply (hf : f.WellFormed fmt) (ho : o.Marks fmt f) : (o.apply fmt f).WellFormed fmt := by
  have h := o.does fmt f
  generalize o.apply fmt f = f' at h ⊢
  cases h with
  | refused => exact hf
  | append hbuf => exact hf.append hbuf
  | overwrite hi hbuf => exact hf.writeRecord hi hbuf
  | truncateTo => exact hf.truncateTo ho.1

theorem IndexOp.size_apply (hlen : f.bytes.length = IndexFile.lengthOf fmt f.next)
    (hsize : f.bytes.length ≤ maxFileSize) (ho : o.Marks fmt f) : (o.apply fmt f).bytes.length ≤ maxFileSize := by
  rw [o.length_apply hlen]
  rw [hlen] at hsize
  have h := o.does fmt f
  generalize o.apply fmt f = f' at h ⊢
  cases h with
  | refused | overwrite => exact hsize
  | append => exact ho
  | truncateTo => exact Nat.le_trans (IndexFile.lengthOf_mono ho.1) hsize

/-- Well formed, not too long, and every page marked or stored as it is. -/
structure Tracked (fmt : IndexFormat ρ) (f : IndexFile) (store : PageStore) : Prop where
  wellFormed : f.WellFormed fmt
  size : f.bytes.length ≤ maxFileSize
  backed : Paged.Backed pageSize f.dirty.Marked store f.bytes

theorem Tracked.apply (h : Tracked fmt f store) (ho : o.Marks fmt f) : Tracked fmt (o.apply fmt f) store :=
  ⟨IndexOp.wellFormed_apply h.wellFormed ho, IndexOp.size_apply h.wellFormed.length h.size ho,
    IndexOp.backed_apply h.wellFormed.length h.size h.backed ho⟩

theorem tracked_header (store : PageStore) (t : DirtyPageTracker) :
    Tracked fmt ⟨IndexFile.header fmt, 0, t.markRange 0 headerSize⟩ store := by
  refine ⟨wellFormed_header _, ?_, fun i hi => .inl ?_⟩
  · rw [length_header]
    decide
  · dsimp only at hi ⊢
    rw [length_header] at hi
    have hone : pageCount pageSize headerSize = 1 := by decide
    have hi0 : i = 0 := by omega
    rw [marked_markRange _ (by decide), hi0]
    exact .inr (by decide)

theorem Tracked.of_stored (hf : f.WellFormed fmt) (hsize : f.bytes.length ≤ maxFileSize)
    (h : ∀ i, i < Paged.pageCount pageSize f.bytes.length → store i = some (Paged.page pageSize f.bytes i)) :
    Tracked fmt f store := ⟨hf, hsize, fun i hi => .inr (h i hi)⟩

theorem Tracked.describes (h : Tracked fmt b.file b.store) : b.uploadOneIndex.1.Describes b.file.bytes :=
  ⟨asU32_of_lt (pageCount_lt h.size), rfl, rfl⟩

def Restorable (fmt : IndexFormat ρ) (store : PageStore) (e : IndexEpoch) (f : IndexFile) : Prop :=
  f.WellFormed fmt ∧ f.bytes.length ≤ maxFileSize ∧ e.Describes f.bytes ∧ restoreOneIndex store e = .ok f.bytes

theorem Tracked.upload (h : Tracked fmt b.file b.store) : Tracked fmt b.uploadOneIndex.2.file b.uploadOneIndex.2.store ∧
      Restorable fmt b.uploadOneIndex.2.store b.uploadOneIndex.1 b.uploadOneIndex.2.file := by
  have hf : b.uploadOneIndex.2.file.WellFormed fmt := ⟨h.wellFormed.header, h.wellFormed.length⟩
  have hstored := stored_of_backed h.backed
  refine ⟨.of_stored hf h.size hstored, hf, h.size, h.describes, ?_⟩
  exact (restoreOneIndex_ok_iff _ h.describes).2 hstored

/-! ## Runs -/

namespace BackupState

variable (fmt) in
def backupOk (s : BackupState) : IndexAct ρ → Prop
  | .op o => o.Marks fmt s.file
  | _ => True

instance (s : BackupState) (a : IndexAct ρ) : Decidable (backupOk fmt s a) := by
  apply IndexAct.casesOn (motive := fun a => Decidable (backupOk fmt s a)) a <;> intros <;> unfold backupOk <;> infer_instance

/-- Tracked, and the last pass's sentinel still restores its file. -/
structure Inv (fmt : IndexFormat ρ) (s : BackupState) : Prop where
  tracked : Tracked fmt s.file s.store
  last : ∀ e, s.lastEpoch = some e → ∃ f, Restorable fmt s.store e f

theorem inv_created (store : PageStore) : Inv fmt (created fmt store) :=
  ⟨tracked_header store _, fun _ h => by cases h⟩

theorem opened_wellFormed {f : IndexFile} (hf : f.WellFormed fmt) {sidecar : Option DirtyPageTracker}
    (h : s.opened fmt f.bytes sidecar = some s') :
    s' = { s with file := ⟨f.bytes, f.next, sidecar.getD .blank⟩, sidecar := sidecar } := by
  rw [opened, openOrCreate_wellFormed hf] at h
  cases h
  rfl

theorem Inv.step {a : IndexAct ρ} (h : Inv fmt s) (hok : backupOk fmt s a)
    (hs : (machine fmt).step s a = some s') : Inv fmt s' := by
  cases a with
  | op =>
    cases hs
    exact ⟨h.tracked.apply hok, h.last⟩
  | fsync =>
    cases hs
    exact ⟨h.tracked, h.last⟩
  | reopen =>
    have heq := opened_wellFormed h.tracked.wellFormed hs
    subst heq
    exact ⟨⟨⟨h.tracked.wellFormed.header, h.tracked.wellFormed.length⟩, h.tracked.size, h.tracked.backed⟩, h.last⟩
  | upload =>
    cases hs
    obtain ⟨htracked, hrestorable⟩ := h.tracked.upload
    refine ⟨htracked, fun e he => ?_⟩
    cases he
    exact ⟨_, hrestorable⟩
  | restore =>
    simp only [machine] at hs
    cases he : s.lastEpoch with
    | none =>
      rw [he] at hs
      cases hs
    | some e =>
      obtain ⟨f, hf, hsize, hdesc, hrestore⟩ := h.last e he
      rw [he] at hs
      simp only [hrestore] at hs
      have heq := opened_wellFormed hf hs
      subst heq
      refine ⟨.of_stored ⟨hf.header, hf.length⟩ hsize ?_, fun e' he' => h.last e' he'⟩
      exact (restoreOneIndex_ok_iff _ hdesc).1 hrestore

/-- **Every completed pass can be restored**, in every run whose mutations mark what they change. -/
theorem backup_round_trip (fmt : IndexFormat ρ) (store : PageStore) (acts : List (IndexAct ρ)) (s : BackupState)
    (hrun : (machine fmt).run (created fmt store) acts = some s)
    (hmeets : (machine fmt).Meets (backupOk fmt) (created fmt store) acts) :
    restoreOneIndex s.uploadOneIndex.2.store s.uploadOneIndex.1 = .ok s.uploadOneIndex.2.file.bytes ∧
      s.uploadOneIndex.2.file.bytes = s.file.bytes := by
  have hinv : Inv fmt s :=
    Machine.run_inv _ (fun _ _ _ h hok hs => h.step hok hs) (inv_created store) hmeets hrun
  exact ⟨hinv.tracked.upload.2.2.2.2, rfl⟩

def emptyBucket : PageStore := fun _ => none

def firstRec : BlockRec := ⟨0, 0, 1, .data, .none, none⟩

def rewriteRun : List (IndexAct BlockRec) :=
  [.op (.append firstRec), .op (.append firstRec), .upload, .op (.append firstRec), .fsync, .reopen, .op (.truncateTo 1),
    .op (.append firstRec), .upload, .restore true, .op (.append firstRec)]

theorem backup_round_trip_rewriteRun :
    ∃ s, (machine blockFormat).run (created blockFormat emptyBucket) rewriteRun = some s ∧ s.file.next = 3 ∧
      restoreOneIndex s.uploadOneIndex.2.store s.uploadOneIndex.1 = .ok s.uploadOneIndex.2.file.bytes :=
  Machine.ends_of (·.file.next = 3) (by decide +kernel) fun s hs hnext =>
    ⟨hnext, (backup_round_trip blockFormat emptyBucket rewriteRun s hs (by decide +kernel)).1⟩

def erasedRun : List (IndexAct BlockRec) := [.op (.append firstRec), .upload, .restore true, .op (.truncateTo 0)]

/-- **A pass that cannot be restored**: the erase after a restore marks nothing, and the sentinel of the short file
meets the page of the long one. -/
theorem backup_round_trip_fails :
    ∃ s, (machine blockFormat).run (created blockFormat emptyBucket) erasedRun = some s ∧ s.file.dirty.pages = [] ∧
      restoreOneIndex s.uploadOneIndex.2.store s.uploadOneIndex.1 =
        .error (.invalidOp "index page restore: page payload size disagrees with sentinel") := by
  decide +kernel

end BackupState

end Thur.Stream

import Thur.Lib.Table
import Thur.Lib.Volatile
import Thur.Stream.IndexBackup
/-!
# IndexCrash — one index file under its owner, the upload worker's views, and crashes

The owner of a cartridge mutates an index file and fsyncs it: first the file, then the sidecar with its bitmap. The
upload worker opens views of the same file; a pass goes by the sidecar's bitmap, PUTs the pages, and writes the sidecar
back with the pages it handled cleared. Every read, write and sync is a step, and a crash keeps any of the unsynced
writes. A page whose object is out of date must be marked; a crash between the two syncs breaks that, and so does a view
that clears the mark of a page changed after it was read (`unmarked_page`).
-/
namespace Thur.Stream

open FileWrite List Table

/-! ## The sidecar on the disk -/

inductive Sidecar
  | missing
  | torn
  | holds (t : DirtyPageTracker)
deriving DecidableEq

inductive SidecarWrite
  | truncate
  | put (t : DirtyPageTracker)
deriving DecidableEq

namespace Sidecar

/-- A bitmap over a longer one, its cut being lost, leaves the words behind its end. -/
def act : Sidecar → SidecarWrite → Sidecar
  | _, .truncate => .torn
  | .holds old, .put t => .holds ⟨t.bits ++ old.bits.drop t.bits.length, t.epoch⟩
  | _, .put t => .holds t

def load : Sidecar → Except SmcError DirtyPageTracker
  | .missing => .ok .blank
  | .torn => .error (.invalidOp "dirty-page sidecar shorter than header — corrupt")
  | .holds t => .ok t

def Marks : Sidecar → Nat → Prop
  | .holds t, i => t.Marked i
  | _, _ => False

instance (c : Sidecar) (i : Nat) : Decidable (c.Marks i) := by
  cases c <;> unfold Marks <;> infer_instance

end Sidecar

/-! ## The handles -/

inductive SyncPhase
  | idle
  | fileSynced
  | truncated
  | written
deriving DecidableEq

structure Owner where
  next : Nat
  dirty : DirtyPageTracker
  phase : SyncPhase

inductive ViewPhase
  | opened
  | reading
  | putting (page : Nat) (buf : Bytes)
  | persisting (t : DirtyPageTracker)
  | truncated (t : DirtyPageTracker)
  | written

/-- The snapshot's pages still to do, the size found, the pages handled. -/
structure View where
  todo : List Nat
  fileSize : Nat
  handled : List Nat
  phase : ViewPhase

/-- The bitmap it is about to write back. -/
def ViewPhase.rewrites? : ViewPhase → Option DirtyPageTracker
  | .persisting t | .truncated t => some t
  | _ => none

def ViewPhase.truncated? : ViewPhase → Option DirtyPageTracker
  | .truncated t => some t
  | _ => none

def View.Writes (v : View) (i : Nat) : Prop := ∃ t ∈ v.phase.truncated?, t.Marked i
deriving Decidable

/-- The pages a pass under way will read, has read, or is done with. -/
def View.held (v : View) : List Nat :=
  v.handled ++ match v.phase with
    | .opened => []
    | .putting page _ => page :: v.todo
    | _ => v.todo

structure SharedIndex where
  file : Volatile Bytes (FileWrite UInt8)
  sidecar : Volatile Sidecar SidecarWrite
  store : PageStore
  owner : Option Owner
  views : Table View

namespace SharedIndex

def bytes (s : SharedIndex) : Bytes := s.file.current (act 0)

def loaded (s : SharedIndex) : Sidecar := s.sidecar.current Sidecar.act

def new (store : PageStore) : SharedIndex := ⟨⟨[], []⟩, ⟨.missing, []⟩, store, none, ∅⟩

end SharedIndex

variable {ρ : Type} (fmt : IndexFormat ρ) {t : DirtyPageTracker}

def IndexOp.writes (f : IndexFile) : IndexOp ρ → List (FileWrite UInt8)
  | .append r =>
    match fmt.encode r with
    | .ok buf => [.pwrite (IndexFile.lengthOf fmt f.next) buf]
    | .error _ => []
  | .overwrite i r =>
    if i ≥ f.next then []
    else
      match fmt.encode r with
      | .ok buf => [.pwrite (IndexFile.lengthOf fmt i) buf]
      | .error _ => []
  | .truncateTo n => [.setLen (IndexFile.lengthOf fmt n)]

/-- A crash names the writes to the file and to the sidecar that had reached the disk. -/
inductive SharedAct (ρ : Type)
  | ownerOpen
  | op (o : IndexOp ρ)
  | syncFile
  | truncateSidecar
  | putSidecar
  | syncSidecar
  | ownerClose
  | viewOpen (v : Nat)
  | viewStart (v : Nat)
  | viewRead (v : Nat)
  | viewPut (v : Nat)
  | viewLoad (v : Nat)
  | viewTruncate (v : Nat)
  | viewWrite (v : Nat)
  | viewSync (v : Nat)
  | crash (keptFile : List (FileWrite UInt8)) (keptSidecar : List SidecarWrite)

namespace SharedIndex

section

variable (s : SharedIndex)

/-- The sidecar has to load and the file to be well formed; an empty file gets its header. -/
def ownerOpen : Option SharedIndex :=
  match s.owner, s.loaded.load with
  | none, .ok t =>
    match IndexFile.openOrCreate fmt s.bytes (some t) with
    | .ok f =>
      some { s with
        file := if s.bytes.length = 0 then s.file.write (.pwrite 0 (IndexFile.header fmt)) else s.file
        owner := some ⟨f.next, f.dirty, .idle⟩ }
    | .error _ => none
  | _, _ => none

def ownerOp (o : IndexOp ρ) : Option SharedIndex :=
  match s.owner with
  | some ⟨next, dirty, .idle⟩ =>
    let f : IndexFile := ⟨s.bytes, next, dirty⟩
    some { s with
      file := (o.writes fmt f).foldl Volatile.write s.file
      owner := some ⟨(o.apply fmt f).next, (o.apply fmt f).dirty, .idle⟩ }
  | _ => none

def withOwner (ow : Owner) : SharedIndex := { s with owner := some ow }

def ownerSync (phase phase' : SyncPhase) (f : SharedIndex → Owner → SharedIndex) : Option SharedIndex :=
  match s.owner with
  | some ow => if ow.phase = phase then some ((f s ow).withOwner { ow with phase := phase' }) else none
  | none => none

def withView (v : Nat) (f : View → Option (SharedIndex × Option View)) : Option SharedIndex :=
  match s.views.lookup v with
  | none => none
  | some w =>
    match f w with
    | none => none
    | some (s', some w') => some { s' with views := s.views.insert v w' }
    | some (s', none) => some { s' with views := s.views.erase v }

/-- Dropped if it lies past the size found at the start. -/
def viewRead (w : View) : Option (SharedIndex × Option View) :=
  match w.phase, w.todo with
  | .reading, page :: todo =>
    if page * pageSize ≥ w.fileSize then some (s, some { w with todo := todo, handled := w.handled ++ [page] })
    else
      let len := min pageSize (w.fileSize - page * pageSize)
      if s.bytes.length < page * pageSize + len then some (s, none)
      else some (s, some { w with todo := todo, phase := .putting page (s.bytes.field (page * pageSize) len) })
  | _, _ => none

def viewPut (w : View) : Option (SharedIndex × Option View) :=
  match w.phase with
  | .putting page buf =>
    some ({ s with store := Function.update s.store page (some buf) },
      some { w with handled := w.handled ++ [page], phase := .reading })
  | _ => none

def viewLoad (w : View) : Option (SharedIndex × Option View) :=
  match w.phase, w.todo with
  | .reading, [] =>
    match s.loaded.load with
    | .ok t => some (s, some { w with phase := .persisting (t.clearPages w.handled).bumpEpoch })
    | .error _ => some (s, none)
  | _, _ => none

def viewTruncate (w : View) : Option (SharedIndex × Option View) :=
  match w.phase with
  | .persisting t => some ({ s with sidecar := s.sidecar.write .truncate }, some { w with phase := .truncated t })
  | _ => none

def viewWrite (w : View) : Option (SharedIndex × Option View) :=
  match w.phase with
  | .truncated t => some ({ s with sidecar := s.sidecar.write (.put t) }, some { w with phase := .written })
  | _ => none

end

def machine : Machine SharedIndex (SharedAct ρ) where
  step s
    | .ownerOpen => s.ownerOpen fmt
    | .op o => s.ownerOp fmt o
    | .syncFile => s.ownerSync .idle .fileSynced fun s _ => { s with file := s.file.sync (act 0) }
    | .truncateSidecar => s.ownerSync .fileSynced .truncated fun s _ => { s with sidecar := s.sidecar.write .truncate }
    | .putSidecar => s.ownerSync .truncated .written fun s ow => { s with sidecar := s.sidecar.write (.put ow.dirty) }
    | .syncSidecar => s.ownerSync .written .idle fun s _ => { s with sidecar := s.sidecar.sync Sidecar.act }
    | .ownerClose =>
      match s.owner with
      | some ow => if ow.phase = .idle then some { s with owner := none } else none
      | none => none
    | .viewOpen v =>
      match s.views.lookup v, s.loaded.load with
      | none, .ok t => some { s with views := s.views.insert v ⟨t.pages, 0, [], .opened⟩ }
      | _, _ => none
    | .viewStart v => s.withView v (fun w =>
        match w.phase with
        | .opened => some (s, some { w with fileSize := s.bytes.length, phase := .reading })
        | _ => none)
    | .viewRead v => s.withView v s.viewRead
    | .viewPut v => s.withView v s.viewPut
    | .viewLoad v => s.withView v s.viewLoad
    | .viewTruncate v => s.withView v s.viewTruncate
    | .viewWrite v => s.withView v s.viewWrite
    | .viewSync v => s.withView v (fun w =>
        match w.phase with
        | .written => some ({ s with sidecar := s.sidecar.sync Sidecar.act }, none)
        | _ => none)
    | .crash keptFile keptSidecar =>
      if keptFile.Sublist s.file.pending ∧ keptSidecar.Sublist s.sidecar.pending then
        some { file := s.file.afterCrash (act 0) keptFile, sidecar := s.sidecar.afterCrash Sidecar.act keptSidecar,
               store := s.store, owner := none, views := ∅ }
      else none

/-! ## The tracker of the next pass -/

/-- The owner's bitmap; without one the sidecar's, or the one about to be written while a view has it cut. -/
def TracksWhen : Option Owner → Sidecar → Table View → Nat → Prop
  | some ow, _, _, i => ow.dirty.Marked i
  | none, .torn, views, i => views.Any fun _ v => v.Writes i
  | none, .missing, _, _ => False
  | none, .holds t, _, i => t.Marked i

instance (o : Option Owner) (c : Sidecar) (views : Table View) (i : Nat) : Decidable (TracksWhen o c views i) := by
  cases o <;> cases c <;> unfold TracksWhen <;> infer_instance

def Tracks (s : SharedIndex) (i : Nat) : Prop := TracksWhen s.owner s.loaded s.views i
deriving Decidable

def AllTracked (s : SharedIndex) : Prop := Paged.Backed pageSize s.Tracks s.store s.bytes

/-- Changed by the owner since its last fsync; with one under way, marked by it and not yet in the sidecar. -/
def UnsavedWhen : Option Owner → List (FileWrite UInt8) → Nat → Prop
  | none, _, _ | some ⟨_, _, .written⟩, _, _ => False
  | some ⟨_, _, .idle⟩, pending, i => ∃ x ∈ pending, x.Touches pageSize i
  | some ⟨_, dirty, .fileSynced⟩, _, i | some ⟨_, dirty, .truncated⟩, _, i => dirty.Marked i

instance (o : Option Owner) (pending : List (FileWrite UInt8)) (i : Nat) : Decidable (UnsavedWhen o pending i) := by
  rcases o with _ | ⟨_, _, _ | _ | _ | _⟩ <;> unfold UnsavedWhen <;> infer_instance

def Unsaved (s : SharedIndex) (i : Nat) : Prop := UnsavedWhen s.owner s.file.pending i
deriving Decidable

variable {c : Sidecar} {views : Table View} {i : Nat}

theorem marks_put (h : t.Marked i) : (c.act (.put t)).Marks i := by
  cases c with
  | missing | torn => exact h
  | holds old =>
    have hlt : i / 64 < t.bits.length := by
      by_contra hge
      simp [DirtyPageTracker.Marked, Bitmap.get, getElem?_eq_none (Nat.not_lt.1 hge)] at h
    show Bitmap.get (t.bits ++ _) i = true
    rwa [Bitmap.get, getD_eq_getElem?_getD, getElem?_append_left hlt, ← getD_eq_getElem?_getD]

theorem tracksWhen_of_marks (h : c.Marks i) : TracksWhen none c views i := by
  cases c with
  | holds => exact h
  | missing | torn => cases h

theorem marked_of_tracksWhen (hload : c.load = .ok t) (h : TracksWhen none c views i) :
    t.Marked i := by
  cases c with
  | holds =>
    cases hload
    exact h
  | missing => cases h
  | torn => cases hload

theorem TracksWhen.mono {o : Option Owner} {views' : Table View} (h : TracksWhen o c views i)
    (hany : views.Any (fun _ v => v.Writes i) → views'.Any (fun _ v => v.Writes i)) : TracksWhen o c views' i := by
  cases o with
  | some ow => exact h
  | none =>
    cases c with
    | holds | missing => exact h
    | torn => exact hany h

/-! ## Steps that leave no page behind -/

/-- The owner marks what it changes and changes no page that a pass under way holds; it rewrites the sidecar only while
no view is about to, and closes with its file synced. A crash finds the sidecar whole and with a mark for every page
changed since the last fsync, and loses no cut. -/
def sharedOk (s : SharedIndex) : SharedAct ρ → Prop
  | .ownerOpen => s.bytes.length = 0 → s.views.All fun _ w => 0 ∉ w.held
  | .op o => ∀ ow ∈ s.owner, s.bytes.length ≤ maxFileSize ∧ o.Marks fmt ⟨s.bytes, ow.next, ow.dirty⟩ ∧
      s.views.All fun _ w => ∀ i ∈ w.held, ∀ x ∈ o.writes fmt ⟨s.bytes, ow.next, ow.dirty⟩, ¬ x.Touches pageSize i
  | .truncateSidecar => s.views.All fun _ w => w.phase.rewrites? = none
  | .ownerClose => s.file.pending = []
  | .crash keptFile _ => s.file.Keeps isCut keptFile ∧ s.sidecar.pending = [] ∧ s.loaded ≠ .torn ∧
      ∀ i, i < Paged.pageCount pageSize (s.file.image (act 0) keptFile).length → s.Unsaved i → s.loaded.Marks i
  | _ => True

instance (s : SharedIndex) (a : SharedAct ρ) : Decidable (sharedOk fmt s a) := by
  apply SharedAct.casesOn (motive := fun a => Decidable (sharedOk fmt s a)) a <;> intros <;> unfold sharedOk <;> infer_instance

end SharedIndex

variable {fmt} {w : View}

/-- What it read is what the pages are, what it is done with is stored, and a bitmap to be written back misses no page. -/
structure View.Ok (s : SharedIndex) (w : View) : Prop where
  todo : w.phase ≠ .opened → ∀ i ∈ w.todo,
    (Paged.page pageSize s.bytes i).length = min pageSize (w.fileSize - i * pageSize)
  handled : ∀ i ∈ w.handled, i < Paged.pageCount pageSize s.bytes.length → s.store i = some (Paged.page pageSize s.bytes i)
  putting : ∀ page buf, w.phase = .putting page buf → buf = Paged.page pageSize s.bytes page
  covers : ∀ t, w.phase.rewrites? = some t → Paged.Backed pageSize (fun i => s.Unsaved i ∨ t.Marked i) s.store s.bytes

namespace SharedIndex

/-- Each page is stored as it is, or marked by the owner, and in the sidecar unless its change is unsaved. -/
structure Inv (fmt : IndexFormat ρ) (s : SharedIndex) : Prop where
  tracked : ∀ ow, s.owner = some ow → Paged.Backed pageSize ow.dirty.Marked s.store s.bytes
  recorded : Paged.Backed pageSize (fun i => s.Unsaved i ∨ TracksWhen none s.loaded s.views i) s.store s.bytes
  settled : ∀ i, ¬ s.Unsaved i → Paged.Settled 0 pageSize s.file i
  synced : (∀ ow, s.owner = some ow → ow.phase ≠ .idle) → s.file.pending = []
  length : ∀ ow, s.owner = some ow → s.bytes.length = IndexFile.lengthOf fmt ow.next
  cut : ∀ ow, s.owner = some ow → ow.phase = .truncated →
    s.loaded = .torn ∧ s.views.All fun _ w => w.phase.rewrites? = none
  views : ∀ v w, s.views.lookup v = some w → w.Ok s

variable {s s' : SharedIndex} {v : Nat}

theorem inv_new (store : PageStore) : Inv fmt (new store) where
  tracked _ h := nomatch h
  recorded i hi := by
    have hzero : Paged.pageCount pageSize ([] : Bytes).length = 0 := by decide
    exact absurd (hzero ▸ hi : i < 0) (Nat.not_lt_zero i)
  settled i _ := Paged.settled_of_synced rfl i
  synced _ := rfl
  length _ h := nomatch h
  cut _ h := nomatch h
  views _ _ h := nomatch h

theorem Inv.allTracked (h : Inv fmt s) : s.AllTracked := by
  unfold AllTracked Tracks
  cases ho : s.owner with
  | some ow => exact h.tracked ow ho
  | none =>
    refine h.recorded.mono fun i _ hr => hr.resolve_left ?_
    rw [Unsaved, ho]
    exact id

/-- Its bytes are as they were, stored as it was, and unsaved if it was; or it is unsaved. -/
def Follows (s s' : SharedIndex) (i : Nat) : Prop :=
  s'.Unsaved i ∨ Paged.page pageSize s'.bytes i = Paged.page pageSize s.bytes i ∧
    (s.store i = some (Paged.page pageSize s.bytes i) → s'.store i = some (Paged.page pageSize s.bytes i)) ∧
    ¬ s.Unsaved i

theorem backed_of_follows {P Q : Nat → Prop} (h : Paged.Backed pageSize (fun i => s.Unsaved i ∨ P i) s.store s.bytes)
    (hf : ∀ i, Follows s s' i) (hPQ : ∀ i, P i → Q i) :
    Paged.Backed pageSize (fun i => s'.Unsaved i ∨ Q i) s'.store s'.bytes := by
  intro i hi
  rcases hf i with hu | ⟨hpage, hst, hu⟩
  · exact .inl (.inl hu)
  rcases h i (Paged.lt_pageCount_of_page_eq pageSize_pos hpage hi) with hp | hs
  · exact .inl (.inr (hPQ i (hp.resolve_left hu)))
  · exact .inr (hpage ▸ hst hs)

end SharedIndex

open SharedIndex in
theorem View.Ok.step {s s' : SharedIndex} (h : w.Ok s)
    (hheld : ∀ i ∈ w.held, Paged.page pageSize s'.bytes i = Paged.page pageSize s.bytes i ∧
      (s.store i = some (Paged.page pageSize s.bytes i) → s'.store i = some (Paged.page pageSize s.bytes i)))
    (hf : w.phase.rewrites? ≠ none → ∀ i, Follows s s' i) : w.Ok s' where
  todo hp i hi := by
    rw [(hheld i ?_).1, h.todo hp i hi]
    unfold View.held
    split <;> simp_all
  handled i hi hlt := by
    obtain ⟨hpage, hst⟩ := hheld i (mem_append_left _ hi)
    rw [hpage]
    exact hst (h.handled i hi (Paged.lt_pageCount_of_page_eq pageSize_pos hpage hlt))
  putting page buf hp := by
    rw [(hheld page ?_).1]
    · exact h.putting page buf hp
    · simp [View.held, hp]
  covers t ht := backed_of_follows (h.covers t ht) (hf (by simp [ht])) fun _ => id

namespace SharedIndex

/-! ### The owner -/

theorem openOrCreate_ok {b : Bytes} {sidecar : Option DirtyPageTracker} {f : IndexFile} (hb : b.length ≠ 0)
    (h : IndexFile.openOrCreate fmt b sidecar = .ok f) :
    f.dirty = sidecar.getD .blank ∧ b.length = IndexFile.lengthOf fmt f.next := by
  unfold IndexFile.openOrCreate at h
  rw [if_neg hb] at h
  split at h
  · cases h
  next hhead =>
  split at h
  · cases h
  split at h
  · cases h
  split at h
  · cases h
  split at h <;> cases h
  next hmod =>
    refine ⟨rfl, ?_⟩
    have hdiv : (b.length - headerSize) / fmt.recordSize * fmt.recordSize = b.length - headerSize :=
      Nat.div_mul_cancel (Nat.dvd_of_mod_eq_zero (Classical.not_not.1 hmod))
    rw [IndexFile.lengthOf, hdiv]
    omega

end SharedIndex

theorem IndexOp.apply_bytes (f : IndexFile) (o : IndexOp ρ) :
    (o.apply fmt f).bytes = (o.writes fmt f).foldl (act 0) f.bytes := by
  cases o with
  | append r =>
    simp only [apply, IndexFile.append, writes]
    cases fmt.encode r <;> rfl
  | overwrite i r =>
    simp only [apply, IndexFile.overwrite, writes]
    by_cases hi : i ≥ f.next
    · rw [if_pos hi, if_pos hi]
      rfl
    · rw [if_neg hi, if_neg hi]
      cases fmt.encode r <;> rfl
  | truncateTo => rfl

/-- A mutation is one write that fits, or none. -/
theorem IndexOp.writes_fit {f : IndexFile} {o : IndexOp ρ} (hlen : f.bytes.length = IndexFile.lengthOf fmt f.next)
    (ho : o.Marks fmt f) : o.writes fmt f = [] ∨ ∃ x, o.writes fmt f = [x] ∧ x.Fits f.bytes := by
  have hrecord : ∀ {j : Nat} {r : ρ} {buf : Bytes}, j ≤ f.next → fmt.encode r = .ok buf →
      (pwrite (IndexFile.lengthOf fmt j) buf).Fits f.bytes := fun hj hbuf =>
    ⟨hlen ▸ IndexFile.lengthOf_mono hj, fmt.length_encode hbuf ▸ fmt.recordSize_pos⟩
  cases o with
  | append r =>
    rw [writes]
    cases hbuf : fmt.encode r with
    | error e => exact .inl rfl
    | ok buf => exact .inr ⟨_, rfl, hrecord (Nat.le_refl _) hbuf⟩
  | overwrite j r =>
    rw [writes]
    split
    · exact .inl rfl
    next hj =>
    cases hbuf : fmt.encode r with
    | error e => exact .inl rfl
    | ok buf => exact .inr ⟨_, rfl, hrecord (Nat.le_of_lt (Nat.lt_of_not_le hj)) hbuf⟩
  | truncateTo n => exact .inr ⟨_, rfl, Nat.le_trans (IndexFile.lengthOf_mono ho.1) (Nat.le_of_eq hlen.symm)⟩

namespace SharedIndex

variable {s s' : SharedIndex} {v : Nat} {sidecar : Volatile Sidecar SidecarWrite} {dirty : DirtyPageTracker}
  {phase phase' : SyncPhase}

/-- No fsync of an owner is under way. -/
def Quiet (s : SharedIndex) : Prop := ∀ ow, s.owner = some ow → ow.phase = .idle

theorem Inv.unsaved_iff (h : Inv fmt s) (hq : s.Quiet) (i : Nat) :
    s.Unsaved i ↔ ∃ x ∈ s.file.pending, x.Touches pageSize i := by
  rw [Unsaved]
  cases ho : s.owner with
  | none =>
    rw [h.synced (by simp [ho])]
    simp [UnsavedWhen]
  | some ow =>
    obtain ⟨next, dirty, phase⟩ := ow
    obtain rfl : phase = .idle := hq _ ho
    rfl

/-- **What the owner writes is unsaved**, and nothing else changes. -/
theorem Inv.write {next : Nat} (h : Inv fmt s) (ws : List (FileWrite UInt8)) (hq : s.Quiet)
    (hws : ws = [] ∨ ∃ x, ws = [x] ∧ x.Fits s.bytes)
    (hviews : s.views.All fun _ w => ∀ i ∈ w.held, ∀ x ∈ ws, ¬ x.Touches pageSize i)
    (hback : Paged.Backed pageSize dirty.Marked s.store (ws.foldl (act 0) s.bytes))
    (hlen : (ws.foldl (act 0) s.bytes).length = IndexFile.lengthOf fmt next) :
    Inv fmt { s with file := ws.foldl Volatile.write s.file, owner := some ⟨next, dirty, .idle⟩ } := by
  let s' : SharedIndex := { s with file := ws.foldl Volatile.write s.file, owner := some ⟨next, dirty, .idle⟩ }
  have hbytes : s'.bytes = ws.foldl (act 0) s.bytes := Volatile.current_foldl_write _ _ _
  have hunsaved : ∀ i, s'.Unsaved i ↔ s.Unsaved i ∨ ∃ x ∈ ws, x.Touches pageSize i := by
    intro i
    rw [h.unsaved_iff hq]
    rcases hws with rfl | ⟨x, rfl, -⟩
    · simp [s', Unsaved, UnsavedWhen]
    · simp [s', Unsaved, UnsavedWhen, Volatile.write, or_and_right, exists_or]
  have hpage : ∀ i, (∀ x ∈ ws, ¬ x.Touches pageSize i) → Paged.page pageSize s'.bytes i = Paged.page pageSize s.bytes i := by
    intro i hi
    rw [hbytes]
    rcases hws with rfl | ⟨x, rfl, hx⟩
    · rfl
    · exact Paged.page_act pageSize_pos hx (hi x mem_cons_self)
  have hfollows : ∀ i, Follows s s' i := by
    intro i
    rw [Follows, hunsaved]
    by_cases hu : s.Unsaved i ∨ ∃ x ∈ ws, x.Touches pageSize i
    · exact .inl hu
    · rw [not_or, not_exists] at hu
      exact .inr ⟨hpage i fun x hx ht => hu.2 x ⟨hx, ht⟩, id, hu.1⟩
  have hsettled : ∀ i, ¬ s'.Unsaved i → Paged.Settled 0 pageSize s'.file i := by
    intro i hi
    rw [hunsaved, not_or, not_exists] at hi
    rcases hws with rfl | ⟨x, rfl, hx⟩
    · exact h.settled i hi.1
    · exact (h.settled i hi.1).write pageSize_pos hx fun ht => hi.2 x ⟨mem_cons_self, ht⟩
  refine ⟨?_, backed_of_follows h.recorded hfollows fun _ => id, hsettled, fun hp => absurd rfl (hp _ rfl), ?_, ?_, ?_⟩
  · rintro _ ⟨⟩
    exact hbytes ▸ hback
  · rintro _ ⟨⟩
    exact hbytes ▸ hlen
  · rintro _ ⟨⟩ ⟨⟩
  · exact fun v w hw => (h.views v w hw).step (fun i hi => ⟨hpage i (hviews.lookup hw i hi), id⟩) fun _ => hfollows

theorem Inv.ownerOpen (h : Inv fmt s) (hok : sharedOk fmt s .ownerOpen) (hs : s.ownerOpen fmt = some s') : Inv fmt s' := by
  unfold SharedIndex.ownerOpen at hs
  split at hs
  swap
  · cases hs
  next t ho hload =>
  split at hs <;> cases hs
  next f hopen =>
  have hq : s.Quiet := fun ow how => by cases ho.symm.trans how
  by_cases hempty : s.bytes.length = 0
  · have hnil : s.bytes = [] := length_eq_zero_iff.1 hempty
    rw [hnil, IndexFile.openOrCreate_nil] at hopen
    cases hopen
    have htracked : Tracked fmt ⟨IndexFile.header fmt, 0, t.markRange 0 headerSize⟩ s.store := tracked_header s.store t
    have hheader : [pwrite 0 (IndexFile.header fmt)].foldl (act 0) s.bytes = IndexFile.header fmt := by
      rw [hnil]
      simp [act, Paged.writeAt]
    rw [if_pos hempty]
    refine h.write [.pwrite 0 (IndexFile.header fmt)] hq (.inr ⟨_, rfl, Nat.zero_le _, ?_⟩) ?_ ?_ ?_
    · rw [IndexFile.length_header]
      decide
    · refine (all_iff _ _).2 fun v w hw i hi x hx ht => ?_
      cases mem_singleton.1 hx
      -- the header is in the first page
      have hfirst : i = 0 := by
        have hle := ht.2.2
        rw [IndexFile.length_header] at hle
        exact Nat.le_zero.1 (Nat.le_trans hle (by decide))
      exact (hok hempty).lookup hw (hfirst ▸ hi)
    · rw [hheader]
      exact htracked.backed
    · rw [hheader]
      exact htracked.wellFormed.length
  · obtain ⟨hdirty, hlen⟩ := openOrCreate_ok hempty hopen
    rw [if_neg hempty]
    refine h.write [] hq (.inl rfl) ((all_iff _ _).2 fun _ _ _ _ _ x hx => absurd hx not_mem_nil) ?_ hlen
    rw [hdirty]
    refine h.recorded.mono fun i _ hr => marked_of_tracksWhen hload (hr.resolve_left ?_)
    rw [Unsaved, ho]
    exact id

theorem Inv.ownerOp {o : IndexOp ρ} (h : Inv fmt s) (hok : sharedOk fmt s (.op o)) (hs : s.ownerOp fmt o = some s') :
    Inv fmt s' := by
  unfold SharedIndex.ownerOp at hs
  split at hs <;> cases hs
  next next dirty howner =>
    obtain ⟨hsize, hmarks, hviews⟩ := hok _ howner
    have hq : s.Quiet := by
      intro ow how
      cases howner.symm.trans how
      rfl
    have hlen : s.bytes.length = IndexFile.lengthOf fmt next := h.length _ howner
    have happly := @IndexOp.apply_bytes _ fmt ⟨s.bytes, next, dirty⟩ o
    refine h.write _ hq (IndexOp.writes_fit hlen hmarks) hviews ?_ ?_
    · rw [← happly]
      exact IndexOp.backed_apply hlen hsize (h.tracked _ howner) hmarks
    · rw [← happly]
      exact IndexOp.length_apply (f := ⟨s.bytes, next, dirty⟩) hlen o

theorem ownerSync_some {f : SharedIndex → Owner → SharedIndex}
    (h : s.ownerSync phase phase' f = some s') :
    ∃ next dirty, s.owner = some ⟨next, dirty, phase⟩ ∧ s' = (f s ⟨next, dirty, phase⟩).withOwner ⟨next, dirty, phase'⟩ := by
  unfold SharedIndex.ownerSync at h
  split at h
  · next ow howner =>
    split at h <;> cases h
    next hphase =>
      subst hphase
      exact ⟨ow.next, ow.dirty, howner, rfl⟩
  · cases h

theorem Inv.pending_nil {ow : Owner} (h : Inv fmt s) (howner : s.owner = some ow) (hphase : ow.phase ≠ .idle) :
    s.file.pending = [] := by
  refine h.synced fun ow' how => ?_
  cases howner.symm.trans how
  exact hphase

/-- A step of the fsync, its file synced, leaves the pages and the store alone. -/
theorem Inv.ownerPhase {next : Nat} (h : Inv fmt s)
    (howner : s.owner = some ⟨next, dirty, phase⟩) {file : Volatile Bytes (FileWrite UInt8)}
    (hbytes : file.current (act 0) = s.bytes) (hpending : file.pending = [])
    (hrec : Paged.Backed pageSize (fun i => UnsavedWhen (some ⟨next, dirty, phase'⟩) [] i ∨
      TracksWhen none (sidecar.current Sidecar.act) s.views i) s.store s.bytes)
    (hcut : phase' = .truncated → sidecar.current Sidecar.act = .torn ∧ s.views.All fun _ w => w.phase.rewrites? = none)
    (hcovers : ∀ v w t, s.views.lookup v = some w → w.phase.rewrites? = some t →
      Paged.Backed pageSize (fun i => UnsavedWhen (some ⟨next, dirty, phase'⟩) [] i ∨ t.Marked i) s.store s.bytes) :
    Inv fmt { s with file := file, sidecar := sidecar, owner := some ⟨next, dirty, phase'⟩ } := by
  obtain ⟨synced, pending⟩ := file
  obtain rfl : pending = [] := hpending
  obtain rfl : synced = s.bytes := hbytes
  constructor
  case tracked =>
    rintro _ ⟨⟩
    exact h.tracked ⟨next, dirty, phase⟩ howner
  case recorded => exact hrec
  case settled => exact fun i _ => Paged.settled_of_synced rfl i
  case synced => exact fun _ => rfl
  case length =>
    rintro _ ⟨⟩
    exact h.length ⟨next, dirty, phase⟩ howner
  case cut =>
    rintro _ ⟨⟩
    exact hcut
  case views =>
    intro v w hw
    have hv := h.views v w hw
    exact ⟨hv.todo, hv.handled, hv.putting, fun t ht => hcovers v w t hw ht⟩

theorem Inv.syncFile (h : Inv fmt s) (hs : (machine fmt).step s .syncFile = some s') : Inv fmt s' := by
  simp only [machine] at hs
  obtain ⟨next, dirty, howner, rfl⟩ := ownerSync_some hs
  have hback := h.tracked _ howner
  exact h.ownerPhase howner rfl rfl (hback.mono fun _ _ => .inl) nofun fun _ _ _ _ _ => hback.mono fun _ _ => .inl

theorem Inv.truncateSidecar (h : Inv fmt s) (hok : sharedOk fmt s .truncateSidecar)
    (hs : (machine fmt).step s .truncateSidecar = some s') : Inv fmt s' := by
  simp only [machine] at hs
  obtain ⟨next, dirty, howner, rfl⟩ := ownerSync_some hs
  have hback := h.tracked _ howner
  have hpending : s.file.pending = [] := h.pending_nil howner nofun
  exact h.ownerPhase howner rfl hpending (hback.mono fun _ _ => .inl) (fun _ => ⟨Volatile.current_write _ _ _, hok⟩)
    fun _ _ _ _ _ => hback.mono fun _ _ => .inl

theorem Inv.putSidecar (h : Inv fmt s) (hs : (machine fmt).step s .putSidecar = some s') : Inv fmt s' := by
  simp only [machine] at hs
  obtain ⟨next, dirty, howner, rfl⟩ := ownerSync_some hs
  obtain ⟨htorn, hviews⟩ := h.cut _ howner rfl
  have hpending : s.file.pending = [] := h.pending_nil howner nofun
  have hloaded : (s.sidecar.write (.put dirty)).current Sidecar.act = .holds dirty := by
    rw [Volatile.current_write]
    exact congrArg (Sidecar.act · (.put dirty)) htorn
  refine h.ownerPhase howner rfl hpending ?_ nofun fun v w t hw ht => ?_
  · rw [hloaded]
    exact (h.tracked _ howner).mono fun _ _ => .inr
  · rw [hviews.lookup hw] at ht
    cases ht

theorem Inv.syncSidecar (h : Inv fmt s) (hs : (machine fmt).step s .syncSidecar = some s') : Inv fmt s' := by
  simp only [machine] at hs
  obtain ⟨next, dirty, howner, rfl⟩ := ownerSync_some hs
  have hpending : s.file.pending = [] := h.pending_nil howner nofun
  have hsaved : ∀ i, ¬ s.Unsaved i := by
    intro i
    rw [Unsaved, howner]
    exact id
  exact h.ownerPhase howner rfl hpending (h.recorded.mono fun i _ hr => .inr (hr.resolve_left (hsaved i))) nofun
    fun v w t hw ht => ((h.views v w hw).covers t ht).mono fun i _ hr => .inr (hr.resolve_left (hsaved i))

theorem Inv.ownerClose (h : Inv fmt s) (hok : sharedOk fmt s .ownerClose) (hs : (machine fmt).step s .ownerClose = some s') :
    Inv fmt s' := by
  simp only [machine] at hs
  split at hs
  swap
  · cases hs
  next ow howner =>
  split at hs <;> cases hs
  next hphase =>
  have hpending : s.file.pending = [] := hok
  have hsaved : ∀ i, ¬ s.Unsaved i := by
    intro i
    have hq : s.Quiet := by
      intro ow' how
      cases howner.symm.trans how
      exact hphase
    rw [h.unsaved_iff hq, hpending]
    rintro ⟨x, hx, -⟩
    cases hx
  constructor
  case tracked => exact nofun
  case recorded => exact h.recorded.mono fun i _ hr => .inr (hr.resolve_left (hsaved i))
  case settled => exact fun i _ => Paged.settled_of_synced hpending i
  case synced => exact fun _ => hpending
  case length => exact nofun
  case cut => exact nofun
  case views =>
    intro v w hw
    have hv := h.views v w hw
    exact ⟨hv.todo, hv.handled, hv.putting, fun t ht => (hv.covers t ht).mono fun i _ hr => .inr (hr.resolve_left (hsaved i))⟩

/-! ### The views -/

theorem withView_some {f : View → Option (SharedIndex × Option View)} (h : s.withView v f = some s') :
    ∃ w s1 r, s.views.lookup v = some w ∧ f w = some (s1, r) ∧
      s' = { s1 with views := r.elim (s.views.erase v) (s.views.insert v) } := by
  unfold withView at h
  split at h
  · cases h
  next w hw =>
  split at h <;> cases h
  next s1 w' hf => exact ⟨w, s1, some w', hw, hf, rfl⟩
  next s1 hf => exact ⟨w, s1, none, hw, hf, rfl⟩

theorem tracksWhen_replace {o : Option Owner} {c : Sidecar} {views : Table View} (r : Option View)
    (hw : views.lookup v = some w) (hnot : w.phase.truncated? = none) {i : Nat} (h : TracksWhen o c views i) :
    TracksWhen o c (r.elim (views.erase v) (views.insert v)) i := by
  have hwrites : ¬ w.Writes i := by
    rintro ⟨t, ht, -⟩
    rw [hnot] at ht
    cases ht
  refine h.mono fun hany => ?_
  cases r with
  | none => exact hany.drop hw hwrites
  | some w' => exact hany.replace hw fun h' => absurd h' hwrites

/-- The step of a view: the file and the owner stay as they are, and what is stored stays stored. -/
theorem Inv.viewStep {store : PageStore} {r : Option View} (h : Inv fmt s)
    (hst : ∀ i, s.store i = some (Paged.page pageSize s.bytes i) → store i = some (Paged.page pageSize s.bytes i))
    (hrec : Paged.Backed pageSize (fun i => s.Unsaved i ∨
      TracksWhen none (sidecar.current Sidecar.act) (r.elim (s.views.erase v) (s.views.insert v)) i) s.store s.bytes)
    (hcut : ∀ ow, s.owner = some ow → ow.phase = .truncated →
      sidecar.current Sidecar.act = .torn ∧ ∀ w, r = some w → w.phase.rewrites? = none)
    (hr : ∀ w, r = some w → w.Ok { s with store := store }) :
    Inv fmt { s with sidecar := sidecar, store := store, views := r.elim (s.views.erase v) (s.views.insert v) } := by
  have hback : ∀ {P : Nat → Prop}, Paged.Backed pageSize P s.store s.bytes → Paged.Backed pageSize P store s.bytes :=
    fun hb i hi => (hb i hi).imp id (hst i)
  constructor
  case tracked => exact fun ow how => hback (h.tracked ow how)
  case recorded => exact hback hrec
  case settled => exact h.settled
  case synced => exact h.synced
  case length => exact h.length
  case cut =>
    intro ow how hp
    obtain ⟨htorn, hw⟩ := hcut ow how hp
    refine ⟨htorn, (all_iff _ _).2 ?_⟩
    have hviews := (all_iff _ _).1 (h.cut ow how hp).2
    cases r with
    | none => exact forall_erase hviews v
    | some w => exact forall_insert hviews (hw w rfl)
  case views =>
    have hother : ∀ u w, s.views.lookup u = some w → w.Ok
        { s with sidecar := sidecar, store := store, views := r.elim (s.views.erase v) (s.views.insert v) } := by
      intro u w hw
      refine (h.views u w hw).step (fun i _ => ⟨rfl, hst i⟩) fun _ i => ?_
      by_cases hu : s.Unsaved i
      · exact .inl hu
      · exact .inr ⟨rfl, hst i, hu⟩
    cases r with
    | none => exact forall_erase hother v
    | some w =>
      have hw := hr w rfl
      exact forall_insert hother ⟨hw.todo, hw.handled, hw.putting, hw.covers⟩

/-- Its bookkeeping only. -/
theorem Inv.viewMoves {r : Option View} (h : Inv fmt s) (hw : s.views.lookup v = some w)
    (hnot : w.phase.truncated? = none) (hr : ∀ w', r = some w' → w'.Ok s ∧ w'.phase.rewrites? = none) :
    Inv fmt { s with views := r.elim (s.views.erase v) (s.views.insert v) } :=
  h.viewStep (fun _ => id) (h.recorded.mono fun _ _ htr => htr.imp id (tracksWhen_replace r hw hnot))
    (fun ow how hp => ⟨(h.cut ow how hp).1, fun w' hw' => (hr w' hw').2⟩) fun w' hw' => (hr w' hw').1

theorem Inv.viewOpen (h : Inv fmt s) (hs : (machine fmt).step s (.viewOpen v) = some s') : Inv fmt s' := by
  simp only [machine] at hs
  split at hs <;> cases hs
  next t hfresh _ =>
    refine h.viewStep (r := some ⟨t.pages, 0, [], .opened⟩) (fun _ => id) ?_ ?_ ?_
    · exact h.recorded.mono fun _ _ htr => htr.imp id fun htr => htr.mono fun hany => hany.fresh hfresh
    · intro ow how hp
      refine ⟨(h.cut ow how hp).1, ?_⟩
      rintro _ ⟨⟩
      rfl
    · rintro _ ⟨⟩
      exact ⟨fun hne => absurd rfl hne, nofun, nofun, nofun⟩

theorem Inv.viewStart (h : Inv fmt s) (hs : (machine fmt).step s (.viewStart v) = some s') : Inv fmt s' := by
  simp only [machine] at hs
  obtain ⟨w, s1, r, hw, hf, rfl⟩ := withView_some hs
  split at hf <;> cases hf
  next hphase =>
    refine h.viewMoves hw (by rw [hphase]; rfl) ?_
    rintro _ ⟨⟩
    exact ⟨⟨fun _ i _ => Paged.length_page _ _ _, (h.views v w hw).handled, nofun, nofun⟩, rfl⟩

theorem Inv.viewRead (h : Inv fmt s) (hs : s.withView v s.viewRead = some s') : Inv fmt s' := by
  obtain ⟨w, s1, r, hw, hf, rfl⟩ := withView_some hs
  unfold SharedIndex.viewRead at hf
  split at hf
  swap
  · cases hf
  next page todo hphase htodo =>
  have hv := h.views v w hw
  have hnot : w.phase.truncated? = none := by rw [hphase]; rfl
  have hlen := hv.todo (by rw [hphase]; exact nofun) page (by rw [htodo]; exact mem_cons_self)
  have hrest : ∀ i ∈ todo, (Paged.page pageSize s.bytes i).length = min pageSize (w.fileSize - i * pageSize) := fun i hi =>
    hv.todo (by rw [hphase]; exact nofun) i (by rw [htodo]; exact mem_cons_of_mem _ hi)
  dsimp only at hf
  split at hf
  · next hpast =>
    cases hf
    refine h.viewMoves hw hnot ?_
    rintro _ ⟨⟩
    refine ⟨⟨fun _ => hrest, fun i hi hlt => ?_, fun _ _ hp => (by rw [hphase] at hp; cases hp), fun _ ht => ?_⟩, ?_⟩
    · rcases mem_append.1 hi with hi | hi
      · exact hv.handled i hi hlt
      · -- a page past the size that was found has no bytes
        rw [mem_singleton.1 hi, Paged.lt_pageCount pageSize_pos] at hlt
        rw [Paged.length_page] at hlen
        have := pageSize_pos
        omega
    · rw [hphase] at ht
      cases ht
    · rw [hphase]
      rfl
  · split at hf <;> cases hf
    · exact h.viewMoves hw hnot nofun
    · refine h.viewMoves hw hnot ?_
      rintro _ ⟨⟩
      refine ⟨⟨fun _ => hrest, hv.handled, ?_, nofun⟩, rfl⟩
      rintro _ _ ⟨⟩
      rw [← hlen]
      exact (take_eq_take_iff.2 (by simp [Paged.length_page]))

theorem Inv.viewPut (h : Inv fmt s) (hs : s.withView v s.viewPut = some s') : Inv fmt s' := by
  obtain ⟨w, s1, r, hw, hf, rfl⟩ := withView_some hs
  unfold SharedIndex.viewPut at hf
  split at hf <;> cases hf
  next page buf hphase =>
    have hv := h.views v w hw
    have hbuf := hv.putting page buf hphase
    have hst : ∀ i, s.store i = some (Paged.page pageSize s.bytes i) →
        Function.update s.store page (some buf) i = some (Paged.page pageSize s.bytes i) := by
      intro i hi
      by_cases hip : i = page
      · rw [hip, Function.update_self, hbuf]
      · rwa [Function.update_of_ne hip]
    refine h.viewStep hst ?_ ?_ ?_
    · exact h.recorded.mono fun _ _ htr => htr.imp id (tracksWhen_replace _ hw (by rw [hphase]; rfl))
    · intro ow how hp
      refine ⟨(h.cut ow how hp).1, ?_⟩
      rintro _ ⟨⟩
      rfl
    · rintro _ ⟨⟩
      refine ⟨fun _ => hv.todo (by rw [hphase]; exact nofun), fun i hi hlt => ?_, nofun, nofun⟩
      rcases mem_append.1 hi with hi | hi
      · exact hst i (hv.handled i hi hlt)
      · rw [mem_singleton.1 hi, hbuf]
        exact Function.update_self _ _ _

theorem Inv.viewLoad (h : Inv fmt s) (hs : s.withView v s.viewLoad = some s') : Inv fmt s' := by
  obtain ⟨w, s1, r, hw, hf, rfl⟩ := withView_some hs
  unfold SharedIndex.viewLoad at hf
  split at hf
  swap
  · cases hf
  next hphase htodo =>
  have hv := h.views v w hw
  have hnot : w.phase.truncated? = none := by rw [hphase]; rfl
  split at hf <;> cases hf
  · next t hload =>
    refine h.viewStep (fun _ => id) (h.recorded.mono fun _ _ htr => htr.imp id (tracksWhen_replace _ hw hnot)) ?_ ?_
    · intro ow how hp
      rw [(h.cut ow how hp).1] at hload
      cases hload
    · rintro _ ⟨⟩
      refine ⟨fun _ => hv.todo (by rw [hphase]; exact nofun), hv.handled, nofun, ?_⟩
      rintro _ ⟨⟩ i hi
      rcases h.recorded i hi with (hu | htr) | hstored
      · exact .inl (.inl hu)
      · by_cases hdone : i ∈ w.handled
        · exact .inr (hv.handled i hdone hi)
        · exact .inl (.inr ((DirtyPageTracker.marked_clearPages t w.handled i).2 ⟨hdone, marked_of_tracksWhen hload htr⟩))
      · exact .inr hstored
  · exact h.viewMoves hw hnot nofun

theorem Inv.not_truncated (h : Inv fmt s) (hw : s.views.lookup v = some w)
    (ht : w.phase.rewrites? = some t) {ow : Owner} (how : s.owner = some ow) : ow.phase ≠ .truncated := by
  intro hp
  have hnone := (h.cut ow how hp).2.lookup hw
  rw [ht] at hnone
  cases hnone

theorem Inv.viewTruncate (h : Inv fmt s) (hs : s.withView v s.viewTruncate = some s') : Inv fmt s' := by
  obtain ⟨w, s1, r, hw, hf, rfl⟩ := withView_some hs
  unfold SharedIndex.viewTruncate at hf
  split at hf <;> cases hf
  next t hphase =>
    have hv := h.views v w hw
    have hcovers := hv.covers t (by rw [hphase]; rfl)
    refine h.viewStep (fun _ => id) (hcovers.mono fun i _ hr => hr.imp id fun hm => ?_)
      (fun ow how hp => absurd hp (h.not_truncated hw (by rw [hphase]; rfl) how)) ?_
    · rw [Volatile.current_write]
      have hwrites : View.Writes { w with phase := .truncated t } i := ⟨t, rfl, hm⟩
      exact Table.Any.of_lookup (P := fun _ v => v.Writes i) (AList.lookup_insert s.views) hwrites
    · rintro _ ⟨⟩
      refine ⟨fun _ => hv.todo (by rw [hphase]; exact nofun), hv.handled, nofun, ?_⟩
      rintro _ ⟨⟩
      exact hcovers

theorem Inv.viewWrite (h : Inv fmt s) (hs : s.withView v s.viewWrite = some s') : Inv fmt s' := by
  obtain ⟨w, s1, r, hw, hf, rfl⟩ := withView_some hs
  unfold SharedIndex.viewWrite at hf
  split at hf <;> cases hf
  next t hphase =>
    have hv := h.views v w hw
    refine h.viewStep (fun _ => id) ((hv.covers t (by rw [hphase]; rfl)).mono fun i _ hr => hr.imp id fun hm => ?_)
      (fun ow how hp => absurd hp (h.not_truncated hw (by rw [hphase]; rfl) how)) ?_
    · rw [Volatile.current_write]
      exact tracksWhen_of_marks (marks_put hm)
    · rintro _ ⟨⟩
      exact ⟨fun _ => hv.todo (by rw [hphase]; exact nofun), hv.handled, nofun, nofun⟩

theorem Inv.viewSync (h : Inv fmt s) (hs : (machine fmt).step s (.viewSync v) = some s') : Inv fmt s' := by
  simp only [machine] at hs
  obtain ⟨w, s1, r, hw, hf, rfl⟩ := withView_some hs
  split at hf <;> cases hf
  next hphase =>
    exact h.viewStep (fun _ => id) (h.recorded.mono fun _ _ htr => htr.imp id
      (tracksWhen_replace none hw (by rw [hphase]; rfl)))
      (fun ow how hp => ⟨(h.cut ow how hp).1, nofun⟩) nofun

/-! ### A crash -/

theorem Inv.crash {keptFile : List (FileWrite UInt8)} {keptSidecar : List SidecarWrite} (h : Inv fmt s)
    (hok : sharedOk fmt s (.crash keptFile keptSidecar)) (hs : (machine fmt).step s (.crash keptFile keptSidecar) = some s') :
    Inv fmt s' := by
  simp only [machine] at hs
  split at hs <;> cases hs
  next hsub =>
  obtain ⟨hkept, hsidecar, htorn, hmarks⟩ := hok
  obtain rfl : keptSidecar = [] := sublist_nil.1 (hsidecar ▸ hsub.2)
  have hloaded : (s.sidecar.afterCrash Sidecar.act []).current Sidecar.act = s.loaded := by
    rw [loaded, Volatile.current, Volatile.current, hsidecar]
    rfl
  constructor
  case tracked => exact fun ow how => by cases how
  case recorded =>
    intro i hi
    have hi : i < Paged.pageCount pageSize (s.file.image (act 0) keptFile).length := hi
    unfold loaded
    dsimp only
    rw [hloaded]
    by_cases hu : s.Unsaved i
    · exact .inl (.inr (tracksWhen_of_marks (hmarks i hi hu)))
    have hpage := h.settled i hu keptFile hkept
    rcases h.recorded i (Paged.lt_pageCount_of_page_eq pageSize_pos hpage hi) with htr | hstored
    · have htr := htr.resolve_left hu
      cases hc : s.loaded with
      | torn => exact absurd hc htorn
      | missing | holds =>
        rw [hc] at htr
        exact .inl (.inr htr)
    · exact .inr (hstored.trans (congrArg some hpage.symm))
  case settled => exact fun i _ => Paged.settled_of_synced rfl i
  case synced => exact fun _ => rfl
  case length => exact fun ow how => by cases how
  case cut => exact fun ow how => by cases how
  case views => exact fun v w hw => by cases hw

/-! ## Runs -/

theorem Inv.step {a : SharedAct ρ} (h : Inv fmt s) (hok : sharedOk fmt s a) (hs : (machine fmt).step s a = some s') :
    Inv fmt s' := by
  cases a with
  | ownerOpen => exact h.ownerOpen hok hs
  | op => exact h.ownerOp hok hs
  | syncFile => exact h.syncFile hs
  | truncateSidecar => exact h.truncateSidecar hok hs
  | putSidecar => exact h.putSidecar hs
  | syncSidecar => exact h.syncSidecar hs
  | ownerClose => exact h.ownerClose hok hs
  | viewOpen => exact h.viewOpen hs
  | viewStart => exact h.viewStart hs
  | viewRead => exact h.viewRead hs
  | viewPut => exact h.viewPut hs
  | viewLoad => exact h.viewLoad hs
  | viewTruncate => exact h.viewTruncate hs
  | viewWrite => exact h.viewWrite hs
  | viewSync => exact h.viewSync hs
  | crash => exact h.crash hok hs

/-- **Every changed page is marked**: under `sharedOk` each page is stored as it is or marked in the tracker that the
next pass goes by. -/
theorem changed_pages_marked (fmt : IndexFormat ρ) (store : PageStore) (acts : List (SharedAct ρ)) (s : SharedIndex)
    (hrun : (machine fmt).run (new store) acts = some s) (hmeets : (machine fmt).Meets (sharedOk fmt) (new store) acts) :
    ∀ i, i < Paged.pageCount pageSize s.bytes.length → s.Tracks i ∨ s.store i = some (Paged.page pageSize s.bytes i) :=
  (Machine.run_inv _ (fun _ _ _ h hok hs => h.step hok hs) (inv_new store) hmeets hrun).allTracked

open BackupState (emptyBucket firstRec)

def fsyncActs : List (SharedAct BlockRec) := [.syncFile, .truncateSidecar, .putSidecar, .syncSidecar]

def finishActs : List (SharedAct BlockRec) := [.viewLoad 0, .viewTruncate 0, .viewWrite 0, .viewSync 0]

def passRun : List (SharedAct BlockRec) :=
  [.ownerOpen, .op (.append firstRec)] ++ fsyncActs ++ [.viewOpen 0, .viewStart 0, .viewRead 0, .viewPut 0] ++ finishActs ++
    [.op (.append firstRec)] ++ fsyncActs ++ [.op (.append firstRec), .crash [] [], .ownerOpen]

theorem changed_pages_marked_passRun :
    ∃ s, (machine blockFormat).run (new emptyBucket) passRun = some s ∧ s.bytes.length = 64 ∧
      (s.Tracks 0 ∨ s.store 0 = some (Paged.page pageSize s.bytes 0)) :=
  Machine.ends_of (·.bytes.length = 64) (by decide +kernel) fun s hs hlen =>
    ⟨hlen, changed_pages_marked blockFormat emptyBucket passRun s hs (by decide +kernel) 0 (by rw [hlen]; decide)⟩

def crashRun : List (SharedAct BlockRec) := [.ownerOpen, .op (.append firstRec), .syncFile, .crash [] []]

/-- The view PUTs what it read before the owner's record, and clears the mark. -/
def staleRun : List (SharedAct BlockRec) :=
  [.ownerOpen, .op (.append firstRec)] ++ fsyncActs ++ [.viewOpen 0, .viewStart 0, .viewRead 0, .op (.append firstRec)] ++
    fsyncActs ++ [.viewPut 0] ++ finishActs ++ [.crash [] []]

/-- **A changed page without a mark** in the sidecar that the next open loads. -/
theorem unmarked_page :
    (∃ s, (machine blockFormat).run (new emptyBucket) crashRun = some s ∧ s.bytes.length = 48 ∧ s.store 0 = none ∧
      s.loaded = .missing ∧ ¬ s.Tracks 0) ∧
    ∃ s, (machine blockFormat).run (new emptyBucket) staleRun = some s ∧ s.bytes.length = 64 ∧
      s.store 0 ≠ some (Paged.page pageSize s.bytes 0) ∧ ¬ s.Tracks 0 := by
  decide +kernel

end SharedIndex
end Thur.Stream

import Thur.Lib.Machine
import Thur.Stream.Records
/-!
# RestoreArchive — what a restore that is cut short leaves behind

`run_restore_archive` makes the cartridge directory, writes the manifest, the runtime sidecar and the index files, and
only then downloads the chunks, in any order. An error and a stop of the process leave the directory as it is. From the
write of `chunks.idx` to the last download it opens and has records whose chunks are nowhere; a cut at any other point
is harmless (`cutOk`).
-/

namespace Thur.Restore

open Thur.Stream Option List

structure Options where
  barcode : String
  label : String
  asBarcode : Option String
  backend : String
  allowExisting : Bool
  dryRun : Bool

structure ArchiveManifest where
  dedupLocal : Bool
  encrypted : Bool

/-- Under `archives/<barcode>/<label>/`; `runtime` is the number of partitions. -/
structure Archive (H : Type) where
  manifest : Option ArchiveManifest
  runtime : Option Nat
  chunksIdx : Option (List (ChunkRec H))
  blocks : List Nat
  chunk : H → Option Bytes

/-- The backend's shared pool, or the cartridge's own. -/
structure PoolKey where
  backend : String
  dedupLocal : Bool
deriving DecidableEq

structure CartDir (H : Type) where
  manifest : Option PoolKey := none
  runtime : Option Nat := none
  chunksIdx : Option (List (ChunkRec H)) := none
  blocks : List Nat := []

/-- The last thing done; `left` lists the chunks to write, each with whether the pool has it. -/
inductive Stage (H : Type)
  | made
  | manifest
  | runtime
  | blocks (left : List Nat)
  | chunks (left : List (Nat × H × Bool))

structure Restoring (H : Type) where
  archive : Archive H
  key : PoolKey
  stage : Stage H

inductive Unrestored
  | error (e : SmcError)
  | skippedExisting
  | dryRun
deriving DecidableEq

abbrev Report := Except Unrestored Nat

structure Site (H : Type) where
  dir : Option (CartDir H)
  pool : PoolKey → H → Option Bytes
  bucket : PoolKey → H → Bool
  running : Option (Restoring H)
  reports : List Report

def validateBarcode (barcode : String) : Option SmcError :=
  if barcode.utf8ByteSize = 0 ∨ barcode.utf8ByteSize > 64 then some (.invalidOp "barcode must be 1-64 characters")
  else if barcode.toList.all (fun c => c.isAlphanum || c == '-' || c == '_') then none
  else some (.invalidOp "barcode must be ASCII alphanumeric plus '-' or '_'")

/-- Up to the first write: a report, or the pool the restore goes to. -/
def preflight {H : Type} (o : Options) (dirExists : Bool) (a : Archive H) : Except Unrestored PoolKey :=
  match validateBarcode (o.asBarcode.getD o.barcode) with
  | some e => .error (.error e)
  | none =>
    if o.label.isEmpty then .error (.error (.invalidOp "archive label must be non-empty"))
    else if dirExists then
      if o.allowExisting then .error .skippedExisting
      else .error (.error (.invalidOp ("local cartridge dir already exists; pass --allow-existing to skip, " ++
        "or remove it first")))
    else
      match a.manifest with
      | none => .error (.error (.invalidOp ("archive manifest sentinel not found on backend; check --backend / " ++
          "--barcode / --label")))
      | some m =>
        if o.dryRun then .error .dryRun
        else if a.runtime = none then .error (.error .objectStoreError)
        else if o.asBarcode.any (· ≠ o.barcode) ∧ m.encrypted then
          .error (.error (.invalidOp ("cannot rename an encrypted cartridge on restore-archive: the manifest UUID " ++
            "binds the keystore wrap context and per-chunk IVs, so a fresh UUID would make every chunk " ++
            "undecryptable. Restore under the original barcode (omit --as-barcode).")))
        else .ok ⟨o.backend, m.dedupLocal⟩

inductive Act (H : Type)
  | begin (o : Options) (a : Archive H)
  /-- The next file of the directory, or the walk over `chunks.idx`. -/
  | next
  /-- The download of a chunk and its `insert_verified_bytes`. -/
  | insert (id : Nat)
  /-- The record of the chunk, now `LocalOnly` and not uploaded. -/
  | rewrite (id : Nat)
  /-- The end, and what the library says to the new cartridge. -/
  | finish (seat : Except SmcError Nat)
  /-- An error, or a stop of the process. -/
  | fail (e : SmcError)

section

variable {H : Type} {r : Restoring H} {d : CartDir H} {left : List (Nat × H × Bool)} {l : List (ChunkRec H)}

def landed (r : ChunkRec H) : ChunkRec H := { r with location := .localOnly, uploaded := false }

def worklist (l : List (ChunkRec H)) : List (Nat × H × Bool) :=
  l.zipIdx.filterMap fun x => x.1.hash.map fun h => (x.2, h, false)

namespace Site

variable [DecidableEq H] (blake3 : Bytes → H) (cart : String) (s : Site H)

section

variable (r : Restoring H) (d : CartDir H)

def write (stage : Stage H) : Site H :=
  { s with dir := some d, running := some { r with stage := stage } }

def next : Option (Site H) :=
  match r.stage with
  | .made => some (s.write r { d with manifest := some r.key } .manifest)
  | .manifest => some (s.write r { d with runtime := r.archive.runtime } .runtime)
  | .runtime =>
    match r.archive.chunksIdx with
    | some l => some (s.write r { d with chunksIdx := some l } (.blocks r.archive.blocks))
    | none => none
  | .blocks (b :: left) => some (s.write r { d with blocks := d.blocks ++ [b] } (.blocks left))
  | .blocks [] => some (s.write r d (.chunks (worklist (d.chunksIdx.getD []))))
  | .chunks _ => none

def insert (id : Nat) : Option (Site H) :=
  match r.stage with
  | .chunks left =>
    match left.find? (·.1 = id) with
    | some (_, h, _) =>
      match r.archive.chunk h with
      | some bytes =>
        let got := s.write r d (.chunks (left.map (fun x => (x.1, x.2.1, x.2.2 || x.1 == id))))
        if (s.pool r.key h).isSome then some got
        else if blake3 bytes = h then
          some { got with pool := Function.update s.pool r.key (Function.update (s.pool r.key) h (some bytes)) }
        else none
      | none => none
    | none => none
  | _ => none

def rewrite (id : Nat) : Option (Site H) :=
  match r.stage, d.chunksIdx with
  | .chunks left, some l =>
    if (∃ x ∈ left, x.1 = id) ∧ ∀ x ∈ left, x.1 = id → x.2.2 = true then
      some (s.write r { d with chunksIdx := some (l.modify id landed) } (.chunks (left.filter (·.1 ≠ id))))
    else none
  | _, _ => none

end

def step : Act H → Option (Site H)
  | .begin o a =>
    if s.running.isSome ∨ o.asBarcode.getD o.barcode ≠ cart then none
    else
      match preflight o s.dir.isSome a with
      | .error why => some { s with reports := .error why :: s.reports }
      | .ok key => some { s with dir := some {}, running := some ⟨a, key, .made⟩ }
  | .next => s.running.bind fun r => s.dir.bind (s.next r)
  | .insert id => s.running.bind fun r => s.dir.bind (s.insert blake3 r · id)
  | .rewrite id => s.running.bind fun r => s.dir.bind (s.rewrite r · id)
  | .finish seat => s.running.bind (fun r =>
      match r.stage, seat with
      | .chunks [], .ok slot => some { s with running := none, reports := .ok slot :: s.reports }
      | .chunks [], .error e => some { s with running := none, reports := .error (.error e) :: s.reports }
      | _, _ => none)
  | .fail e => s.running.bind fun _ => some { s with running := none, reports := .error (.error e) :: s.reports }

end Site

def machine [DecidableEq H] (blake3 : Bytes → H) (cart : String) : Machine (Site H) (Act H) where
  step := Site.step blake3 cart

def Site.fresh (pool : PoolKey → H → Option Bytes) (bucket : PoolKey → H → Bool) : Site H :=
  ⟨none, pool, bucket, none, []⟩

/-- Missing block indexes are created, not refused. -/
def CartDir.opens (d : CartDir H) : Bool := d.manifest.isSome && d.runtime.any (· ≠ 0) && d.chunksIdx.any (· ≠ [])

def Site.has (s : Site H) (key : PoolKey) (h : H) : Bool := (s.pool key h).isSome || s.bucket key h

def Site.Whole (s : Site H) : Prop :=
  ∀ d, s.dir = some d → d.opens = true → ∀ key l, d.manifest = some key → d.chunksIdx = some l →
    ∀ r ∈ l, ∀ h, r.hash = some h → s.has key h = true

def settle (left : List (Nat × H × Bool)) (i : Nat) (r : ChunkRec H) : ChunkRec H :=
  if r.hash.isSome ∧ ∀ x ∈ left, x.1 ≠ i then landed r else r

def Complete (s : Site H) (r : Restoring H) : Prop :=
  ∃ l, r.archive.chunksIdx = some l ∧
    s.dir = some ⟨some r.key, r.archive.runtime, some (l.mapIdx (settle [])), r.archive.blocks⟩ ∧
    ∀ c ∈ l, ∀ h, c.hash = some h → (s.pool r.key h).isSome

def Stage.mayCut : Stage H → Bool
  | .made | .manifest | .runtime => true
  | .blocks _ => false
  | .chunks left => left.all (·.2.2)

/-- Not cut after the write of `chunks.idx` and before the last chunk is in the pool. -/
def cutOk (s : Site H) : Act H → Prop
  | .fail _ => ∀ r ∈ s.running, r.stage.mayCut = true
  | _ => True

instance (s : Site H) (a : Act H) : Decidable (cutOk s a) := by
  cases a <;> unfold cutOk <;> infer_instance

/-! ## The invariant -/

/-- The pool has every chunk that is not left, or left with its record only. -/
def Stored (pool : H → Option Bytes) (l : List (ChunkRec H)) (left : List (Nat × H × Bool)) : Prop :=
  ∀ i c h, l[i]? = some c → c.hash = some h → (∀ x ∈ left, x.1 = i → x.2.2 = true) → (pool h).isSome

def Progress (pool : PoolKey → H → Option Bytes) (r : Restoring H) (d : CartDir H) : Stage H → Prop
  | .made => d = {}
  | .manifest => d = { manifest := some r.key }
  | .runtime => d = { manifest := some r.key, runtime := r.archive.runtime }
  | .blocks left => ∃ l done, r.archive.chunksIdx = some l ∧ r.archive.blocks = done ++ left ∧
      d = ⟨some r.key, r.archive.runtime, some l, done⟩
  | .chunks left => ∃ l, r.archive.chunksIdx = some l ∧
      d = ⟨some r.key, r.archive.runtime, some (l.mapIdx (settle left)), r.archive.blocks⟩ ∧
      (∀ x ∈ left, (l[x.1]?).bind (·.hash) = some x.2.1) ∧ Stored (pool r.key) l left

structure Inv (s : Site H) : Prop where
  idle : s.running = none → s.Whole
  busy : ∀ r, s.running = some r → ∃ d, s.dir = some d ∧ Progress s.pool r d r.stage

theorem mem_worklist {x : Nat × H × Bool} :
    x ∈ worklist l ↔ (l[x.1]?).bind (·.hash) = some x.2.1 ∧ x.2.2 = false := by
  obtain ⟨i, h, b⟩ := x
  simp only [worklist, mem_filterMap, mem_zipIdx_iff_getElem?, map_eq_some_iff, Prod.mk.injEq,
    bind_eq_some_iff, Prod.exists]
  grind

theorem settle_worklist (l : List (ChunkRec H)) : l.mapIdx (settle (worklist l)) = l := by
  apply ext_getElem?
  intro i
  rw [getElem?_mapIdx]
  cases hc : l[i]? with
  | none => rfl
  | some c =>
    rw [map_some, settle, if_neg]
    rintro ⟨hs, hleft⟩
    obtain ⟨h, hh⟩ := isSome_iff_exists.1 hs
    exact hleft (i, h, false) (mem_worklist.2 ⟨by simp [hc, hh], rfl⟩) rfl

theorem stored_worklist (pool : H → Option Bytes) (l : List (ChunkRec H)) : Stored pool l (worklist l) := by
  intro i c h hc hh hleft
  have := hleft (i, h, false) (mem_worklist.2 ⟨by simp [hc, hh], rfl⟩) rfl
  cases this

theorem Progress.whole {s : Site H}
    (h : Progress s.pool r d (.chunks left)) (hdir : s.dir = some d) (hleft : ∀ x ∈ left, x.2.2 = true) : s.Whole := by
  obtain ⟨l, -, rfl, -, hst⟩ := h
  intro d' hd' _ key l' hk hl' c hc h hh
  rw [hdir] at hd'
  cases hd'
  cases hk
  cases hl'
  obtain ⟨i, hi⟩ := mem_iff_getElem?.1 hc
  rw [getElem?_mapIdx] at hi
  obtain ⟨c0, hc0, rfl⟩ := map_eq_some_iff.1 hi
  have hh0 : c0.hash = some h := by
    unfold settle at hh
    split at hh <;> exact hh
  simp only [Site.has, hst i c0 h hc0 hh0 (fun x hx _ => hleft x hx), Bool.true_or]

variable [DecidableEq H] {blake3 : Bytes → H} {cart : String} {s s' : Site H} {pool : PoolKey → H → Option Bytes}
  {id : Nat}

section

omit [DecidableEq H]

theorem Inv.of_write {stage : Stage H}
    (h : Progress pool { r with stage := stage } d stage) : Inv { s.write r d stage with pool := pool } where
  idle h' := by cases h'
  busy r' hr' := by
    cases hr'
    exact ⟨d, rfl, h⟩

theorem Progress.next (hp : Progress s.pool r d r.stage)
    (hs : s.next r d = some s') : Inv s' := by
  unfold Site.next at hs
  split at hs
  next hst =>
    rw [hst] at hp
    cases hs
    cases hp
    exact Inv.of_write rfl
  next hst =>
    rw [hst] at hp
    cases hs
    cases hp
    exact Inv.of_write rfl
  next hst =>
    rw [hst] at hp
    split at hs <;> cases hs
    next l hl =>
      cases hp
      exact Inv.of_write ⟨l, [], hl, rfl, rfl⟩
  next b left hst =>
    rw [hst] at hp
    obtain ⟨l, done, hl, hb, rfl⟩ := hp
    cases hs
    exact Inv.of_write ⟨l, done ++ [b], hl, by rw [hb, append_assoc]; rfl, rfl⟩
  next hst =>
    rw [hst] at hp
    obtain ⟨l, done, hl, hb, rfl⟩ := hp
    cases hs
    refine Inv.of_write ⟨l, hl, ?_, fun x hx => (mem_worklist.1 hx).1, stored_worklist _ l⟩
    rw [getD_some, settle_worklist, hb, append_nil]
  next => cases hs

end

omit [DecidableEq H] in
theorem settle_mark (left : List (Nat × H × Bool)) (id : Nat) :
    settle (left.map (fun x => (x.1, x.2.1, x.2.2 || x.1 == id))) = settle left := by
  funext i c
  simp only [settle, List.forall_mem_map]

theorem Progress.insert (hp : Progress s.pool r d r.stage)
    (hs : s.insert blake3 r d id = some s') : Inv s' := by
  unfold Site.insert at hs
  split at hs
  next left hst =>
    rw [hst] at hp
    obtain ⟨l, hl, rfl, hhash, hstored⟩ := hp
    split at hs
    next i h b hf =>
      have hmem := List.mem_of_find?_eq_some hf
      obtain rfl : i = id := by simpa using List.find?_some hf
      -- whatever pool has the chunk besides what was there
      have hgo : ∀ pool : PoolKey → H → Option Bytes, (∀ h', (s.pool r.key h').isSome → (pool r.key h').isSome) →
          (pool r.key h).isSome → Progress pool r
            ⟨some r.key, r.archive.runtime, some (l.mapIdx (settle left)), r.archive.blocks⟩
            (.chunks (left.map (fun x => (x.1, x.2.1, x.2.2 || x.1 == i)))) := by
        intro pool hpool hh
        refine ⟨l, hl, by rw [settle_mark], ?_, fun j c h' hc hh' hall => ?_⟩
        · simpa only [List.forall_mem_map] using hhash
        · by_cases hj : j = i
          · have := hhash _ hmem
            grind
          · refine hpool h' (hstored j c h' hc hh' (fun x hx hxj => ?_))
            have := hall _ (List.mem_map_of_mem hx) hxj
            grind
      split at hs
      next bytes _ =>
        dsimp only at hs
        split at hs
        next hin =>
          cases hs
          exact Inv.of_write (hgo s.pool (fun _ h => h) hin)
        · split at hs <;> cases hs
          refine Inv.of_write (hgo _ (fun h' hh' => ?_) (by simp))
          by_cases heq : h' = h <;> simp [heq, hh']
      · cases hs
    · cases hs
  · cases hs

section

omit [DecidableEq H]

theorem settle_filter
    (hhash : ∀ x ∈ left, (l[x.1]?).bind (·.hash) = some x.2.1) (hid : ∃ x ∈ left, x.1 = id) :
    (l.mapIdx (settle left)).modify id landed = l.mapIdx (settle (left.filter (·.1 ≠ id))) := by
  apply List.ext_getElem?
  intro i
  obtain ⟨x, hx, rfl⟩ := hid
  have := hhash x hx
  rw [List.getElem?_modify, List.getElem?_mapIdx, List.getElem?_mapIdx]
  cases hc : l[i]? with
  | none => grind
  | some c =>
    by_cases hi : x.1 = i
    · subst hi
      have hold : settle left x.1 c = c := if_neg fun h => h.2 x hx rfl
      have hnew : settle (left.filter (·.1 ≠ x.1)) x.1 c = landed c := if_pos ⟨by grind, by grind⟩
      simp only [Option.map_some, hold, hnew, if_true, Option.map_eq_map]
    · have hleft : (∀ y ∈ left, y.1 ≠ i) ↔ ∀ y ∈ left.filter (·.1 ≠ x.1), y.1 ≠ i := by
        simp only [List.mem_filter, decide_eq_true_eq]
        grind
      simp only [Option.map_some, if_neg hi, settle, hleft, Option.map_eq_map]

theorem Progress.rewrite (hp : Progress s.pool r d r.stage)
    (hs : s.rewrite r d id = some s') : Inv s' := by
  unfold Site.rewrite at hs
  split at hs
  next left l' hst hl' =>
    rw [hst] at hp
    obtain ⟨l, hl, rfl, hhash, hstored⟩ := hp
    cases hl'
    split at hs <;> cases hs
    next hleft =>
      refine Inv.of_write ⟨l, hl, ?_, fun x hx => hhash x (mem_filter.1 hx).1, ?_⟩
      · rw [settle_filter hhash hleft.1]
      · intro i c h hc hh hall
        refine hstored i c h hc hh fun x hx hxi => ?_
        by_cases hid : x.1 = id
        · exact hleft.2 x hx hid
        · exact hall x (mem_filter.2 ⟨hx, by simpa using hid⟩) hxi
  · cases hs

theorem Progress.complete (hp : Progress s.pool r d (.chunks []))
    (hdir : s.dir = some d) : Complete s r := by
  obtain ⟨l, hl, rfl, -, hst⟩ := hp
  refine ⟨l, hl, hdir, fun c hc h hh => ?_⟩
  obtain ⟨i, hi⟩ := mem_iff_getElem?.1 hc
  exact hst i c h hi hh (by simp)

end

theorem Inv.begin (hi : Inv s) {o : Options} {a : Archive H} (hs : s.step blake3 cart (.begin o a) = some s') :
    Inv s' := by
  simp only [Site.step] at hs
  split at hs
  · cases hs
  next hidle =>
  split at hs
  · cases hs
    exact ⟨fun h => hi.idle h, hi.busy⟩
  · cases hs
    refine ⟨fun h => ?_, fun r hr => ?_⟩
    · cases h
    · cases hr
      exact ⟨_, rfl, rfl⟩

omit [DecidableEq H] in
theorem Inv.cut (hi : Inv s) {e : SmcError} (hok : cutOk s (.fail e)) (hr : s.running = some r) :
    s.Whole := by
  have hcut := hok r hr
  obtain ⟨d, hd, hp⟩ := hi.busy r hr
  -- without `chunks.idx` the directory does not open
  have hno : d.chunksIdx = none → s.Whole := by
    intro hnone d' hd' ho
    rw [hd] at hd'
    cases hd'
    simp [CartDir.opens, hnone] at ho
  cases hst : r.stage with
  | made | manifest | runtime =>
    rw [hst] at hp
    exact hno (by rw [hp])
  | blocks left =>
    rw [hst] at hcut
    cases hcut
  | chunks left =>
    rw [hst] at hp hcut
    exact hp.whole hd (all_eq_true.1 hcut)

theorem Inv.step (hi : Inv s) {a : Act H} (hok : cutOk s a) (hs : s.step blake3 cart a = some s') : Inv s' := by
  cases a with
  | begin o a => exact hi.begin hs
  | next =>
    obtain ⟨r, hr, hs⟩ := bind_eq_some_iff.1 hs
    obtain ⟨d, hd, hp⟩ := hi.busy r hr
    exact hp.next (by rwa [hd] at hs)
  | insert id =>
    obtain ⟨r, hr, hs⟩ := bind_eq_some_iff.1 hs
    obtain ⟨d, hd, hp⟩ := hi.busy r hr
    exact hp.insert (by rwa [hd] at hs)
  | rewrite id =>
    obtain ⟨r, hr, hs⟩ := bind_eq_some_iff.1 hs
    obtain ⟨d, hd, hp⟩ := hi.busy r hr
    exact hp.rewrite (by rwa [hd] at hs)
  | finish seat =>
    obtain ⟨r, hr, hs⟩ := bind_eq_some_iff.1 hs
    obtain ⟨d, hd, hp⟩ := hi.busy r hr
    split at hs
    · next hst _ =>
      cases hs
      exact ⟨fun _ => (hst ▸ hp).whole hd (by simp), fun r hr => by cases hr⟩
    · next hst _ =>
      cases hs
      exact ⟨fun _ => (hst ▸ hp).whole hd (by simp), fun r hr => by cases hr⟩
    · cases hs
  | fail e =>
    obtain ⟨r, hr, hs⟩ := bind_eq_some_iff.1 hs
    cases hs
    exact ⟨fun _ => hi.cut hok hr, fun r hr => by cases hr⟩

theorem Site.step_reports {a : Act H} {slot : Nat} (hs : s.step blake3 cart a = some s')
    (hrep : s'.reports = .ok slot :: s.reports) : ∃ seat, a = .finish seat := by
  have hne : s.reports ≠ .ok slot :: s.reports := (cons_ne_self _ _).symm
  cases a with
  | finish seat => exact ⟨seat, rfl⟩
  | begin o a =>
    simp only [Site.step] at hs
    grind
  | next | insert =>
    obtain ⟨r, hr, hs⟩ := bind_eq_some_iff.1 hs
    obtain ⟨d, hd, hs⟩ := bind_eq_some_iff.1 hs
    simp only [Site.next, Site.insert] at hs
    grind [Site.write]
  | rewrite =>
    obtain ⟨r, hr, hs⟩ := bind_eq_some_iff.1 hs
    obtain ⟨d, hd, hs⟩ := bind_eq_some_iff.1 hs
    unfold Site.rewrite at hs
    split at hs
    · split at hs <;> cases hs
      exact (hne hrep).elim
    · cases hs
  | fail e =>
    obtain ⟨r, hr, hs⟩ := bind_eq_some_iff.1 hs
    cases hs
    cases hrep

/-- **A failed restore leaves no half cartridge**: under `cutOk` a directory that opens with no restore in progress has
all its chunks, and success means that the whole archive is in place. -/
theorem restore_leaves_whole {bucket : PoolKey → H → Bool} {acts : List (Act H)}
    (hacts : (machine blake3 cart).Meets cutOk (.fresh pool bucket) acts)
    (hrun : (machine blake3 cart).run (.fresh pool bucket) acts = some s) :
    (s.running = none → s.Whole) ∧ ∀ a s' slot, (machine blake3 cart).step s a = some s' →
      s'.reports = .ok slot :: s.reports → ∃ r, s.running = some r ∧ Complete s' r := by
  have hi : Inv s := (machine blake3 cart).run_inv (fun _ _ _ hi hok hs => hi.step hok hs)
    ⟨fun _ d hd => (by cases hd), fun r hr => (by cases hr)⟩ hacts hrun
  refine ⟨hi.idle, fun a s' slot hs hrep => ?_⟩
  obtain ⟨seat, rfl⟩ := Site.step_reports hs hrep
  obtain ⟨r, hr, hs⟩ := Option.bind_eq_some_iff.1 hs
  obtain ⟨d, hd, hp⟩ := hi.busy r hr
  split at hs
  · next hst _ =>
    cases hs
    exact ⟨r, hr, (hst ▸ hp).complete hd⟩
  · cases hs
    cases hrep
  · cases hs

end

/-! ## One chunk -/

def oneChunk : Archive Nat where
  manifest := some ⟨false, false⟩
  runtime := some 1
  chunksIdx := some [⟨1, some 7, .both, true, none⟩, .staging]
  blocks := [0]
  chunk := fun h => if h = 7 then some [7] else none

def indexRun : List (Act Nat) := [.begin ⟨"T1", "a", none, "b", false, false⟩ oneChunk, .next, .next, .next]

def oneSite : Machine (Site Nat) (Act Nat) := machine (fun b => (b.headD 0).toNat) "T1"

def emptySite : Site Nat := .fresh (fun _ _ => none) fun _ _ => false

/-- To its end, and cut with the chunk in the pool and its record not yet rewritten. -/
theorem restore_leaves_whole_one :
    (∃ s s', oneSite.run emptySite (indexRun ++ [.next, .next, .insert 0, .rewrite 0]) = some s ∧
      oneSite.step s (.finish (.ok 3)) = some s' ∧ ∃ r, s.running = some r ∧ Complete s' r) ∧
    ∃ s, oneSite.run emptySite (indexRun ++ [.next, .next, .insert 0, .fail .io]) = some s ∧
      s.dir.any (·.opens) = true ∧ s.Whole := by
  refine ⟨Machine.ends_twice ?_, Machine.ends_of (fun s => s.running = none ∧ s.dir.any (·.opens) = true)
    (by decide +kernel) fun s hs h => ⟨h.2, (restore_leaves_whole (by decide +kernel) hs).1 h.1⟩⟩
  refine Machine.ends_of (fun s => ∃ s', oneSite.step s (.finish (.ok 3)) = some s' ∧ s'.reports = .ok 3 :: s.reports)
    (by decide +kernel) ?_
  rintro s hs ⟨s', hs', hrep⟩
  exact ⟨s', hs', (restore_leaves_whole (by decide +kernel) hs).2 _ s' 3 hs' hrep⟩

/-- Stopped after `chunks.idx`, it leaves a cartridge that opens without its chunk. -/
theorem cut_restore_opens :
    ∃ s ∈ oneSite.run emptySite (indexRun ++ [.fail .io, .begin ⟨"T1", "a", none, "b", true, false⟩ oneChunk]),
      s.running.isNone ∧ s.reports = [.error .skippedExisting, .error (.error .io)] ∧ s.dir.any (·.opens) ∧
      s.dir.bind (·.chunksIdx) = oneChunk.chunksIdx ∧ s.has ⟨"b", false⟩ 7 = false := by
  decide +kernel

end Thur.Restore

import Thur.Lib.Crew
import Thur.Stream.Pools
/-!
# Workers — seals, uploads, refetches and evictions on shared pools

Each worker is cut at its file operations, object store calls and index reads and writes, and may stop anywhere. An
eviction pass decides on what it scanned long before it removes a file. No chunk is lost by that: it removes only files
of hashes that some record of the same place has as uploaded.
-/
namespace Thur.Stream

open List

structure Candidate (H : Type) where
  barcode : Nat
  id : Nat
  chunk : ChunkAt H

inductive Worker (H β : Type)
  -- `seal_current_chunk`; `mtime` is the last write to the staging file
  | sealing (c id size : Nat) (b : β) (mtime : Nat)
  | placing (c id size : Nat) (k : ChunkAt H) (b : β) (mtime : Nat)
  | recording (c id size : Nat) (k : ChunkAt H)
  -- `upload_chunk_inert`, then `apply_chunk_upload_outcome`
  | uploading (c id : Nat)
  | probing (c id : Nat) (k : ChunkAt H)
  | reading (c id : Nat) (k : ChunkAt H)
  | sending (c id : Nat) (k : ChunkAt H) (data : β)
  | uploaded (c id : Nat) (k : ChunkAt H) (put : Option (Option CompressionAlgo))
  | applying (c id : Nat) (k : ChunkAt H) (r : ChunkRec H) (put : Option (Option CompressionAlgo))
  -- a read of a chunk that is not in the pool
  | refetching (c id : Nat)
  | downloading (c id : Nat) (k : ChunkAt H) (r : ChunkRec H)
  | inserting (c id : Nat) (k : ChunkAt H) (r : ChunkRec H) (data : β)
  | relocating (c id : Nat) (k : ChunkAt H) (r : ChunkRec H)
  -- `evict_lru_chunks`
  | evicting (backend : Nat)
  | scanning (todo carts : List (Nat × Place)) (cands : List (Candidate H))
  | pinning (todo : List (Nat × Place)) (cands : List (Candidate H)) (pins : List (ChunkAt H))
  | choosing (cands : List (Candidate H)) (pins : List (ChunkAt H))
  | marking (cands : List (Candidate H)) (pins : List (ChunkAt H)) (x : Candidate H) (r : ChunkRec H)
  | removing (cands : List (Candidate H)) (pins : List (ChunkAt H)) (x : Candidate H)

inductive WorkOrder (β : Type)
  | sealChunk (c id size : Nat) (b : β) (mtime : Nat)
  | uploadChunk (c id : Nat)
  | refetch (c id : Nat)
  | evictLruChunks (backend : Nat)

/-- Where a worker has a choice: the compression, how much of an index is readable, the next candidate, whether a mark
is written. -/
inductive WorkAct
  | go
  | put (algo : Option CompressionAlgo)
  | scan (readable : Nat)
  | pick (i : Nat)
  | markFails

inductive PoolEvent
  | newChunk (c : Nat)
  | dropEmpty (c : Nat)
  | tick (seconds : Nat)

namespace Worker

variable {H β : Type} [DecidableEq H] (hash : β → H)

def begins : WorkOrder β → Worker H β
  | .sealChunk c id size b mtime => .sealing c id size b mtime
  | .uploadChunk c id => .uploading c id
  | .refetch c id => .refetching c id
  | .evictLruChunks backend => .evicting backend

def candidatesOf (c : Nat) (p : Place) (rs : List (ChunkRec H)) : List (Candidate H) :=
  rs.zipIdx.filterMap fun x =>
    match x.1.hash with
    | some h => if x.1.uploaded ∧ x.1.location = .both then some ⟨c, x.2, (p, h)⟩ else none
    | none => none

def pinnedOf (p : Place) (rs : List (ChunkRec H)) : List (ChunkAt H) :=
  rs.filterMap fun r =>
    match r.hash with
    | some h => if r.location = .localOnly then some (p, h) else none
    | none => none

def Markable (r : ChunkRec H) : Prop := r.hash.isSome = true ∧ r.uploaded = true ∧ r.location = .both
deriving Decidable

def step (w : Pools H β) : Worker H β → WorkAct → Option (Pools H β × Option (Worker H β))
  | .sealing c id size b mtime, .go =>
    -- the slot is the owner's, still without a hash; `safe_stagedHash` has the streaming hash as that of the bytes
    match w.readRec c id with
    | some r =>
      if r.hash = none ∧ mtime ≤ w.now then
        -- `insert_from_path`: a file that exists is taken over as it is
        if (w.pool (w.place c, hash b)).isSome then some (w, some (.recording c id size (w.place c, hash b)))
        else some (w, some (.placing c id size (w.place c, hash b) b mtime))
      else none
    | none => none
  | .placing c id size k b mtime, .go => some (w.putFile k ⟨b, mtime⟩, some (.recording c id size k))
  | .recording c id size k, .go =>
    match w.readRec c id with
    | some r => if r.hash = none then some (w.writeRec c id ⟨size, some k.2, .localOnly, false, none⟩, none) else none
    | none => none
  | .uploading c id, .go =>
    match w.readRec c id with
    | some r =>
      match r.hash with
      | some h =>
        if r.uploaded then none
        else match (w.tapes c).dedup with
          | .globalScope => some (w, some (.probing c id (w.place c, h)))
          | .localScope => some (w, some (.reading c id (w.place c, h)))
      | none => none
    | none => none
  | .probing c id k, .go =>
    if (w.bucket k).isSome then some (w, some (.uploaded c id k none)) else some (w, some (.reading c id k))
  | .reading c id k, .go => (w.pool k).map fun f => (w, some (.sending c id k f.content))
  | .sending c id k data, .put algo => some (w.putObject k data, some (.uploaded c id k (some algo)))
  | .uploaded c id k put, .go =>
    match w.readRec c id with
    | some r => some (w, some (.applying c id k r put))
    | none => some (w, none)
  | .applying c id _ r put, .go =>
    some (w.writeRec c id { r with uploaded := true, location := .both, compression := put.getD r.compression }, none)
  | .refetching c id, .go =>
    match w.readRec c id with
    | some r =>
      match r.hash with
      | some h =>
        if r.location = .storageOnly ∨ (w.pool (w.place c, h)).isNone then
          some (w, some (.downloading c id (w.place c, h) r))
        else none
      | none => none
    | none => none
  | .downloading c id k r, .go => (w.bucket k).map fun data => (w, some (.inserting c id k r data))
  | .inserting c id k r data, .go =>
    -- `insert_verified_bytes`
    if (w.pool k).isSome then some (w, some (.relocating c id k r))
    else if hash data = k.2 then some (w.putFile k ⟨data, w.now⟩, some (.relocating c id k r))
    else none
  | .relocating c id _ r, .go => some (w.writeRec c id { r with location := .both }, none)
  | .evicting backend, .go =>
    let carts := (w.barcodes.filter (fun c => (w.tapes c).backend = backend)).map fun c => (c, w.place c)
    some (w, some (.scanning carts carts []))
  | .scanning todo carts cands, .scan readable =>
    match todo with
    | (c, p) :: todo =>
      some (w, some (.scanning todo carts (cands ++ candidatesOf c p ((w.tapes c).chunks.take readable))))
    | [] => none
  | .scanning todo carts cands, .go =>
    match todo with
    | [] => some (w, some (.pinning carts cands []))
    | _ :: _ => none
  | .pinning todo cands pins, .scan readable =>
    match todo with
    | (c, p) :: todo => some (w, some (.pinning todo cands (pins ++ pinnedOf p ((w.tapes c).chunks.take readable))))
    | [] => none
  | .pinning todo cands pins, .go =>
    match todo with
    | [] => some (w, some (.choosing cands pins))
    | _ :: _ => none
  | .choosing cands pins, .pick i =>
    match cands[i]? with
    | some x =>
      match w.readRec x.barcode x.id with
      | some r => if Markable r then some (w, some (.marking (cands.eraseIdx i) pins x r))
          else some (w, some (.choosing (cands.eraseIdx i) pins))
      | none => some (w, some (.choosing (cands.eraseIdx i) pins))
    | none => none
  | .marking cands pins _ _, .markFails => some (w, some (.choosing cands pins))
  | .marking cands pins x r, .go =>
    some (w.writeRec x.barcode x.id { r with location := .storageOnly }, some (.removing cands pins x))
  | .removing cands pins x, .go =>
    if x.chunk ∈ pins then some (w, some (.choosing cands pins))
    else some (w.removeFile x.chunk, some (.choosing cands pins))
  | _, _ => none

end Worker

/-- `new_chunk` appends a staging record; `flush_and_seal` cuts off one that got no bytes. -/
def Pools.event {H β : Type} (w : Pools H β) : PoolEvent → Option (Pools H β)
  | .newChunk c => some (w.setChunks c ((w.tapes c).chunks ++ [.staging]))
  | .dropEmpty c =>
    match (w.tapes c).chunks.getLast? with
    | some r => if r.hash.isNone then some (w.setChunks c (w.tapes c).chunks.dropLast) else none
    | none => none
  | .tick seconds => some { w with now := w.now + seconds }

def workers {H β : Type} [DecidableEq H] (hash : β → H) : Crew (Pools H β) (Worker H β) (WorkOrder β) WorkAct PoolEvent where
  begins := Worker.begins
  step := Worker.step hash
  world := Pools.event

/-! ## What a step changes -/

namespace Pools

variable {H β : Type} {hash : β → H} {w w' : Pools H β} {k : ChunkAt H}

/-- Files and objects are named by their content, and each sealed record has its bytes. -/
structure Sound (hash : β → H) (w : Pools H β) : Prop where
  files : ∀ k f, w.pool k = some f → hash f.content = k.2
  objects : ∀ k b, w.bucket k = some b → hash b = k.2
  records : ∀ c id r h, w.readRec c id = some r → r.hash = some h →
    w.Has hash (w.place c, h) ∧ (r.uploaded = true → w.Stored hash (w.place c, h))

/-- The slot has the chunk's hash, and the chunk is where the cartridge looks for it. -/
def Recorded (w : Pools H β) (c id : Nat) (k : ChunkAt H) : Prop :=
  k.1 = w.place c ∧ ∃ r, w.readRec c id = some r ∧ r.hash = some k.2

/-- Manifests, the hashes of sealed records, objects, and one copy of each chunk stay. -/
structure Grows (hash : β → H) (w w' : Pools H β) : Prop where
  place : ∀ c, w'.place c = w.place c
  hashes : ∀ c id r h, w.readRec c id = some r → r.hash = some h → ∃ r', w'.readRec c id = some r' ∧ r'.hash = some h
  stored : ∀ k, w.Stored hash k → w'.Stored hash k
  has : ∀ k, w.Has hash k → w'.Has hash k

theorem Grows.refl (hash : β → H) (w : Pools H β) : Grows hash w w :=
  ⟨fun _ => rfl, fun _ _ r _ hr hh => ⟨r, hr, hh⟩, fun _ h => h, fun _ h => h⟩

theorem Grows.recorded (h : Grows hash w w') {c id : Nat} (hr : w.Recorded c id k) : w'.Recorded c id k := by
  obtain ⟨hp, r, hr, hh⟩ := hr
  exact ⟨hp.trans (h.place c).symm, h.hashes c id r _ hr hh⟩

theorem Sound.grows_writeRec (h : Sound hash w) {c id : Nat} {r : ChunkRec H}
    (hkeep : ∀ r0 h0, w.readRec c id = some r0 → r0.hash = some h0 → r.hash = some h0)
    (hcov : ∀ h0, r.hash = some h0 → w.Has hash (w.place c, h0) ∧ (r.uploaded = true → w.Stored hash (w.place c, h0))) :
    Grows hash w (w.writeRec c id r) ∧ Sound hash (w.writeRec c id r) := by
  refine ⟨⟨fun c' => place_writeRec w c c' id r, fun c' id' r' h' hr' hh' => ?_, fun _ hs => hs, fun _ hs => hs⟩, h.files,
    h.objects, fun c' id' r' h' hr' hh' => ?_⟩
  · grind
  · rw [place_writeRec]
    rw [readRec_writeRec] at hr'
    split_ifs at hr' with hci
    · obtain ⟨_, _, rfl⟩ := Option.map_eq_some_iff.1 hr'
      exact hci.1 ▸ hcov h' hh'
    · exact h.records c' id' r' h' hr' hh'

theorem Sound.grows_of_tapes (h : Sound hash w) (ht : w'.tapes = w.tapes)
    (hf : ∀ k f, w'.pool k = some f → hash f.content = k.2) (ho : ∀ k b, w'.bucket k = some b → hash b = k.2)
    (hstored : ∀ k, w.Stored hash k → w'.Stored hash k) (hhas : ∀ k, w.Has hash k → w'.Has hash k) :
    Grows hash w w' ∧ Sound hash w' := by
  have hread : w'.readRec = w.readRec := by funext c id; simp only [readRec, ht]
  have hplace : w'.place = w.place := by funext c; simp only [place, ht]
  refine ⟨⟨congrFun hplace, fun c id r x hr hh => ⟨r, hread ▸ hr, hh⟩, hstored, hhas⟩, hf, ho, fun c id r x hr hh => ?_⟩
  obtain ⟨h1, h2⟩ := h.records c id r x (hread ▸ hr) hh
  rw [hplace]
  exact ⟨hhas _ h1, fun hu => hstored _ (h2 hu)⟩

theorem Sound.grows_event (h : Sound hash w) {e : PoolEvent} (he : w.event e = some w') :
    Grows hash w w' ∧ Sound hash w' := by
  -- a record is added or taken away that has no hash
  have hmk : ∀ c rs, (∀ c' id r x, r.hash = some x → ((w.setChunks c rs).readRec c' id = some r ↔ w.readRec c' id = some r)) →
      Grows hash w (w.setChunks c rs) ∧ Sound hash (w.setChunks c rs) := by
    intro c rs hread
    refine ⟨⟨fun c' => place_setChunks w c c' _, fun c' id r x hr hh => ⟨r, (hread c' id r x hh).2 hr, hh⟩, fun _ hs => hs,
      fun _ hs => hs⟩, h.files, h.objects, fun c' id r x hr hh => ?_⟩
    rw [place_setChunks]
    exact h.records c' id r x ((hread c' id r x hh).1 hr) hh
  revert he
  fun_cases w.event e <;> rintro ⟨⟩
  · refine hmk _ _ fun c' id r x hh => ?_
    grind [ChunkRec.staging]
  next c r1 hlast hempty =>
    refine hmk _ _ fun c' id r x hh => ?_
    grind [readRec]
  · exact h.grows_of_tapes rfl h.files h.objects (fun _ => id) fun _ => id

variable [DecidableEq H]

theorem Sound.grows_putFile (h : Sound hash w) {f : PoolFile β} (hf : hash f.content = k.2) :
    Grows hash w (w.putFile k f) ∧ Sound hash (w.putFile k f) := by
  refine h.grows_of_tapes rfl (fun k' f' hf' => ?_) h.objects (fun _ => id) fun k' => Or.imp_left ?_
  · grind [h.files k' f']
  · grind

theorem Sound.grows_putObject (h : Sound hash w) {b : β} (hb : hash b = k.2) :
    Grows hash w (w.putObject k b) ∧ Sound hash (w.putObject k b) := by
  have hstored : ∀ k', w.Stored hash k' → (w.putObject k b).Stored hash k' := by grind
  refine h.grows_of_tapes rfl h.files (fun k' b' hb' => ?_) hstored fun k' => Or.imp_right (hstored k')
  grind [h.objects k' b']

theorem Sound.grows_removeFile (h : Sound hash w) (hk : w.Stored hash k) :
    Grows hash w (w.removeFile k) ∧ Sound hash (w.removeFile k) := by
  refine h.grows_of_tapes rfl (fun k' f' hf' => ?_) h.objects (fun _ => id) fun k' hk' => ?_
  · grind [h.files k' f']
  · by_cases hkk : k' = k
    · exact .inr (hkk ▸ hk)
    · exact hk'.imp_left fun hc => cached_removeFile.2 ⟨hkk, hc⟩

end Pools

/-! ## What each worker relies on -/

namespace Worker

variable {H β : Type} {hash : β → H} {w w' : Pools H β} {c id : Nat} {k : ChunkAt H} {r : ChunkRec H} {x : Worker H β}

/-- The slot still has the hash, and if it is uploaded the object is there. -/
def Read (hash : β → H) (w : Pools H β) (c id : Nat) (k : ChunkAt H) (r : ChunkRec H) : Prop :=
  w.Recorded c id k ∧ r.hash = some k.2 ∧ (r.uploaded = true → w.Stored hash k)

def Relies (hash : β → H) (w : Pools H β) : Worker H β → Prop
  | .sealing _ _ _ _ _ => True
  | .placing c _ _ k b _ => k.1 = w.place c ∧ hash b = k.2
  | .recording c _ _ k => k.1 = w.place c ∧ w.Has hash k
  | .uploading _ _ => True
  | .probing c id k => w.Recorded c id k
  | .reading c id k => w.Recorded c id k
  | .sending c id k data => w.Recorded c id k ∧ hash data = k.2
  | .uploaded c id k _ => w.Recorded c id k ∧ w.Stored hash k
  | .applying c id k r _ => Read hash w c id k r ∧ w.Stored hash k
  | .refetching _ _ => True
  | .downloading c id k r => Read hash w c id k r
  | .inserting c id k r _ => Read hash w c id k r
  | .relocating c id k r => Read hash w c id k r
  | .evicting _ => True
  | .scanning todo carts cands => (∀ x ∈ todo ++ carts, x.2 = w.place x.1) ∧ ∀ x ∈ cands, w.Stored hash x.chunk
  | .pinning _ cands _ => ∀ x ∈ cands, w.Stored hash x.chunk
  | .choosing cands _ => ∀ x ∈ cands, w.Stored hash x.chunk
  | .marking cands _ x r => (∀ y ∈ cands, w.Stored hash y.chunk) ∧ w.Stored hash x.chunk ∧
      ∃ h, Read hash w x.barcode x.id (w.place x.barcode, h) r
  | .removing cands _ x => (∀ y ∈ cands, w.Stored hash y.chunk) ∧ w.Stored hash x.chunk

theorem Read.mono (hg : Pools.Grows hash w w') (h : Read hash w c id k r) : Read hash w' c id k r :=
  ⟨hg.recorded h.1, h.2.1, fun hu => hg.stored k (h.2.2 hu)⟩

theorem Relies.mono (hg : Pools.Grows hash w w') (h : x.Relies hash w) : x.Relies hash w' := by
  have hall : ∀ {l : List (Candidate H)}, (∀ x ∈ l, w.Stored hash x.chunk) → ∀ x ∈ l, w'.Stored hash x.chunk :=
    fun hl x hx => hg.stored _ (hl x hx)
  cases x with
  | sealing | uploading | refetching | evicting => trivial
  | placing c => exact ⟨h.1.trans (hg.place c).symm, h.2⟩
  | recording c => exact ⟨h.1.trans (hg.place c).symm, hg.has _ h.2⟩
  | probing | reading => exact hg.recorded h
  | sending => exact ⟨hg.recorded h.1, h.2⟩
  | uploaded => exact ⟨hg.recorded h.1, hg.stored _ h.2⟩
  | applying => exact ⟨h.1.mono hg, hg.stored _ h.2⟩
  | downloading | inserting | relocating => exact Read.mono hg h
  | scanning => exact ⟨fun x hx => (h.1 x hx).trans (hg.place x.1).symm, hall h.2⟩
  | pinning | choosing => exact hall h
  | marking =>
    obtain ⟨hcands, hx, h', hread⟩ := h
    refine ⟨hall hcands, hg.stored _ hx, h', ?_⟩
    rw [hg.place]
    exact hread.mono hg
  | removing => exact ⟨hall h.1, hg.stored _ h.2⟩

theorem stored_candidatesOf (hw : Pools.Sound hash w) {n : Nat} {x : Candidate H}
    (hx : x ∈ candidatesOf c (w.place c) ((w.tapes c).chunks.take n)) : w.Stored hash x.chunk := by
  obtain ⟨⟨r, id⟩, hr, hx⟩ := mem_filterMap.1 hx
  dsimp only at hx
  cases hh : r.hash with
  | none =>
    rw [hh] at hx
    cases hx
  | some h =>
    rw [hh] at hx
    dsimp only at hx
    split at hx <;> cases hx
    next hc =>
      have hmem : r ∈ (w.tapes c).chunks := mem_of_mem_take (fst_mem_of_mem_zipIdx hr)
      obtain ⟨id', hid'⟩ := mem_iff_getElem?.1 hmem
      exact (hw.records c id' r h hid' hh).2 hc.1

structure Advances (hash : β → H) (w w' : Pools H β) (x' : Option (Worker H β)) : Prop where
  grows : Pools.Grows hash w w'
  sound : Pools.Sound hash w'
  relies : ∀ y ∈ x', y.Relies hash w'

theorem advances_same (hw : Pools.Sound hash w) (hx : x.Relies hash w) : Advances hash w w (some x) :=
  ⟨Pools.Grows.refl hash w, hw, fun _ hy => Option.some.inj hy ▸ hx⟩

theorem Advances.of_grows (h : Pools.Grows hash w w' ∧ Pools.Sound hash w') {x' : Option (Worker H β)}
    (hx : ∀ y ∈ x', y.Relies hash w') : Advances hash w w' x' :=
  ⟨h.1, h.2, hx⟩

theorem Read.write (hw : Pools.Sound hash w) (h : Read hash w c id k r) (r' : ChunkRec H) (hhash : r'.hash = r.hash)
    (hup : r'.uploaded = true → w.Stored hash k) :
    Pools.Grows hash w (w.writeRec c id r') ∧ Pools.Sound hash (w.writeRec c id r') := by
  obtain ⟨⟨hplace, r0, hr0, hh0⟩, hh, -⟩ := h
  have hk : k = (w.place c, k.2) := Prod.ext hplace rfl
  refine hw.grows_writeRec (fun r1 h1 hr1 hh1 => ?_) fun h1 hh1 => ?_
  · obtain rfl : r0 = r1 := Option.some.inj (hr0.symm.trans hr1)
    rw [hhash, hh, ← hh0, hh1]
  · obtain rfl : k.2 = h1 := Option.some.inj (hh.symm.trans (hhash.symm.trans hh1))
    exact ⟨(hw.records c id r0 k.2 hr0 hh0).1, fun hu => hk ▸ hup hu⟩

theorem read_of_readRec (hw : Pools.Sound hash w) {h : H} (hr : w.readRec c id = some r) (hh : r.hash = some h) :
    Read hash w c id (w.place c, h) r :=
  ⟨⟨rfl, r, hr, hh⟩, hh, (hw.records c id r h hr hh).2⟩

theorem grows_record (hw : Pools.Sound hash w) {size : Nat} (hplace : k.1 = w.place c) (hk : w.Has hash k)
    (hr : w.readRec c id = some r) (hnone : r.hash = none) :
    Pools.Grows hash w (w.writeRec c id ⟨size, some k.2, .localOnly, false, none⟩) ∧
      Pools.Sound hash (w.writeRec c id ⟨size, some k.2, .localOnly, false, none⟩) := by
  have hpair : k = (w.place c, k.2) := Prod.ext hplace rfl
  refine hw.grows_writeRec (fun r0 h0 hr0 hh0 => ?_) fun h0 hh0 => ?_
  · obtain rfl : r = r0 := Option.some.inj (hr.symm.trans hr0)
    rw [hnone] at hh0
    cases hh0
  · cases hh0
    exact ⟨hpair ▸ hk, fun hu => by cases hu⟩

variable [DecidableEq H]

theorem Relies.advances (hw : Pools.Sound hash w) (h : x.Relies hash w) {a : WorkAct} {x' : Option (Worker H β)}
    (hs : x.step hash w a = some (w', x')) : Advances hash w w' x' := by
  have hnone : ∀ y ∈ (none : Option (Worker H β)), y.Relies hash w' := fun _ hy => by cases hy
  revert hs
  -- the ways a step can go, those that leave the pools and what is relied on as they are first
  fun_cases x.step hash w a <;> intro hs <;> first | cases hs | obtain ⟨_, hf, ⟨⟩⟩ := Option.map_eq_some_iff.1 hs
  all_goals try exact advances_same hw h
  next hexists =>
    obtain ⟨f, hf⟩ := Option.isSome_iff_exists.1 hexists
    exact advances_same hw ⟨rfl, .inl ⟨f, hf, hw.files _ f hf⟩⟩
  · exact advances_same hw ⟨rfl, rfl⟩
  · refine .of_grows (hw.grows_putFile h.2) ?_
    rintro _ ⟨⟩
    exact ⟨h.1, .inl (Pools.cached_putFile.2 (.inl ⟨rfl, h.2⟩))⟩
  next hr hnohash => exact .of_grows (grows_record hw h.1 h.2 hr hnohash) hnone
  next r hr _ hh _ _ => exact advances_same hw ⟨rfl, r, hr, hh⟩
  next r hr _ hh _ _ => exact advances_same hw ⟨rfl, r, hr, hh⟩
  next k hexists =>
    obtain ⟨b, hb⟩ := Option.isSome_iff_exists.1 hexists
    exact advances_same hw ⟨h, b, hb, hw.objects k b hb⟩
  · exact advances_same hw ⟨h, hw.files _ _ hf⟩
  · have hg := hw.grows_putObject h.2
    refine .of_grows hg ?_
    rintro _ ⟨⟩
    exact ⟨hg.1.recorded h.1, Pools.stored_putObject.2 (.inl ⟨rfl, h.2⟩)⟩
  next hr =>
    obtain ⟨⟨hplace, r0, hr0, hh0⟩, hst⟩ := h
    obtain rfl := Option.some.inj (hr0.symm.trans hr)
    exact advances_same hw ⟨⟨⟨hplace, r0, hr0, hh0⟩, hh0, fun _ => hst⟩, hst⟩
  · exact .of_grows ⟨Pools.Grows.refl hash w, hw⟩ hnone
  · exact .of_grows (h.1.write hw _ (by rfl) (fun _ => h.2)) hnone
  next hr _ hh _ => exact advances_same hw (read_of_readRec hw hr hh)
  next data _ hhash =>
    have hg := hw.grows_putFile (f := ⟨data, w.now⟩) hhash
    refine .of_grows hg ?_
    rintro _ ⟨⟩
    exact Read.mono hg.1 h
  · exact .of_grows (Read.write hw h _ (by rfl) (by exact h.2.2)) hnone
  · refine advances_same hw ⟨fun x hx => ?_, fun _ hx => by cases hx⟩
    rw [mem_append, or_self] at hx
    obtain ⟨c, -, rfl⟩ := mem_map.1 hx
    rfl
  next c p todo =>
    have hp : p = w.place c := h.1 (c, p) (by simp)
    refine advances_same hw ⟨fun x hx => h.1 x (mem_cons_of_mem _ hx), fun x hx => ?_⟩
    rcases mem_append.1 hx with hx | hx
    · exact h.2 x hx
    · exact stored_candidatesOf hw (hp ▸ hx)
  · exact advances_same hw h.2
  next x hx r hr hmark =>
    obtain ⟨h', hh⟩ := Option.isSome_iff_exists.1 hmark.1
    exact advances_same hw ⟨fun y hy => h y (mem_of_mem_eraseIdx hy), h x (mem_of_getElem? hx), h',
      read_of_readRec hw hr hh⟩
  · exact advances_same hw fun y hy => h y (mem_of_mem_eraseIdx hy)
  · exact advances_same hw fun y hy => h y (mem_of_mem_eraseIdx hy)
  · exact advances_same hw h.1
  · obtain ⟨hcands, hx, h', hread⟩ := h
    refine .of_grows (hread.write hw _ (by rfl) (by exact hread.2.2)) ?_
    rintro _ ⟨⟩
    exact ⟨hcands, hx⟩
  · exact advances_same hw h.1
  · refine .of_grows (hw.grows_removeFile h.2) ?_
    rintro _ ⟨⟩
    exact h.1

end Worker

/-! ## Runs -/

variable {H β : Type} [DecidableEq H] {hash : β → H}

theorem workers_keep :
    Crew.Keeps (workers hash) (Pools.Sound hash) (fun w x => Worker.Relies hash w x) (fun _ _ => True) where
  begins s t o _ _ := by cases o <;> trivial
  world s e w h _ he := by
    obtain ⟨hg, hw⟩ := h.world.grows_event he
    exact ⟨hw, fun t x hx => (h.tasks t x hx).mono hg⟩
  step s t x a w x' h _ hx hs := by
    have hadv := (h.tasks t x hx).advances h.world hs
    exact ⟨hadv.sound, hadv.relies, fun t' y _ hy => (h.tasks t' y hy).mono hadv.grows⟩

/-- **Every sealed chunk has a copy**, in every interleaving of seals, uploads, refetches and eviction passes. -/
theorem sealed_chunks_covered (hash : β → H) (w0 : Pools H β) (hw : w0.Sound hash)
    (acts : List (Crew.Act (WorkOrder β) WorkAct PoolEvent)) (s : Crew.State (Pools H β) (Worker H β))
    (hrun : (workers hash).machine.run (Crew.start w0) acts = some s) : s.world.Covered hash := by
  have hm : (workers hash).machine.Meets (fun _ _ => True) (Crew.start w0) acts :=
    Machine.meets_of_forall _ fun _ _ => trivial
  have hsound := (workers_keep.run hw hm hrun).world
  rintro c h ⟨id, r, hr, hh⟩
  exact (hsound.records c id r h hr hh).1

def twoTapes : Pools Nat Nat where
  now := 0
  barcodes := [1, 2]
  tapes _ := ⟨0, .globalScope, false, [.staging]⟩
  pool _ := none
  bucket _ := none

/-- Cartridge 2 adopts the file that the pass has taken for a candidate. -/
def adoptedRun : List (Crew.Act (WorkOrder Nat) WorkAct PoolEvent) :=
  [.spawn 0 (.sealChunk 1 0 1 7 0), .on 0 .go, .on 0 .go, .on 0 .go,
    .spawn 0 (.uploadChunk 1 0), .on 0 .go, .on 0 .go, .on 0 .go, .on 0 (.put none), .on 0 .go, .on 0 .go,
    .spawn 1 (.evictLruChunks 0), .on 1 .go, .on 1 (.scan 1), .on 1 (.scan 1), .on 1 .go, .on 1 (.scan 1), .on 1 (.scan 1),
    .on 1 .go, .spawn 2 (.sealChunk 2 0 1 7 0), .on 2 .go, .on 1 (.pick 0), .on 1 .go, .on 1 .go, .on 2 .go]

theorem sealed_chunks_covered_adoptedRun :
    ∃ s, (workers id).machine.run (Crew.start twoTapes) adoptedRun = some s ∧
      s.world.pool (⟨0, none⟩, 7) = none ∧ s.world.Names 2 7 ∧ s.world.Covered id := by
  have hsound : twoTapes.Sound id := by
    refine ⟨(fun _ _ h => by cases h), (fun _ _ h => by cases h), fun c k r h hr hh => ?_⟩
    rw [List.eq_of_mem_singleton (List.mem_of_getElem? hr)] at hh
    cases hh
  exact Machine.ends_of (fun s => s.world.pool (⟨0, none⟩, 7) = none ∧ s.world.Names 2 7) (by decide +kernel)
    fun s hs h => ⟨h.1, h.2, sealed_chunks_covered id twoTapes hsound adoptedRun s hs⟩

end Thur.Stream

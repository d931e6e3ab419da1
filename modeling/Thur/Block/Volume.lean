import Thur.Block.Index
/-!
# Volume — sealing a page into a chunk, and reading it back

`write_page_unsynced` encrypts a page (on an encrypted volume), hashes the payload and stores it in the chunk pool under
its hash; the page's record is the hash and the IV salt. The cipher and the hash are third-party code: `Crates` carries
what their documentation promises, and everything here is over any such pair.
-/
open Function

namespace Thur

/-- The hash and the cipher under their laws. A digest stands for its payload: that two payloads collide under BLAKE3 is
left out, so `H` is an idealisation of the 32 bytes. AES-256-GCM opens what it sealed under the same key and IV. -/
structure Crates (H : Type) where
  blake3 : Bytes → H
  encryptBlock : Bytes → Bytes → Bytes → Bytes
  decryptBlock : Bytes → Bytes → Bytes → Option Bytes
  deriveIv : Bytes → UInt64 → UInt64 → Bytes
  blake3_injective : Function.Injective blake3
  decrypt_encrypt : ∀ key iv bytes, decryptBlock key iv (encryptBlock key iv bytes) = some bytes

def Crates.plain : Crates Bytes where
  blake3 b := b
  encryptBlock _ _ b := b
  decryptBlock _ _ b := some b
  deriveIv _ _ _ := []
  blake3_injective _ _ h := h
  decrypt_encrypt _ _ _ := rfl

inductive SyncAfter
  | storage
  | disk
  | memory
deriving DecidableEq

structure VolumeConfig where
  pageSize : Nat
  lastPageId : Nat
  encryptionKey : Option Bytes
  dekUuid : Bytes
  syncAfter : SyncAfter
  budgetPages : Nat
  maxConcurrentFlushes : Nat

/-! ## The chunk pool -/

structure PoolFile where
  bytes : Bytes
  mtime : Nat

abbrev ChunkPool (H : Type) := H → Option PoolFile

namespace ChunkPool

variable {H : Type} [DecidableEq H] {pool : ChunkPool H} {h h' : H} {f : PoolFile}

def insertBytes (pool : ChunkPool H) (h : H) (payload : Bytes) (now : Nat) : ChunkPool H :=
  match pool h with
  | some _ => pool
  | none => update pool h (some ⟨payload, now⟩)

def remove (pool : ChunkPool H) (h : H) : ChunkPool H := update pool h none

theorem insertBytes_apply (pool : ChunkPool H) (h h' : H) (payload : Bytes) (now : Nat) :
    pool.insertBytes h payload now h' = if h' = h ∧ pool h = none then some ⟨payload, now⟩ else pool h' := by
  cases hp : pool h with
  | some f => simp [insertBytes, hp]
  | none =>
    simp only [insertBytes, hp, and_true]
    split
    · next he => rw [he, update_self]
    · next he => rw [update_of_ne he]

theorem insertBytes_isSome (pool : ChunkPool H) (h : H) (payload : Bytes) (now : Nat) :
    (pool.insertBytes h payload now h).isSome = true := by
  rw [insertBytes_apply]
  split
  · rfl
  · next hn => exact Option.isSome_iff_ne_none.2 fun h0 => hn ⟨rfl, h0⟩

theorem insertBytes_of_some (payload : Bytes) (now : Nat) (hf : pool h' = some f) :
    pool.insertBytes h payload now h' = some f := by
  rw [insertBytes_apply, if_neg, hf]
  rintro ⟨rfl, hn⟩
  rw [hf] at hn
  cases hn

theorem insertBytes_some {payload : Bytes} {now : Nat} (hf : pool.insertBytes h payload now h' = some f) :
    pool h' = some f ∨ (h' = h ∧ pool h = none ∧ f = ⟨payload, now⟩) := by
  rw [insertBytes_apply] at hf
  split at hf
  · next hn => exact .inr ⟨hn.1, hn.2, (Option.some.inj hf).symm⟩
  · exact .inl hf

theorem remove_of_ne (pool : ChunkPool H) (hne : h' ≠ h) : pool.remove h h' = pool h' :=
  update_of_ne hne _ _

theorem remove_some (hf : pool.remove h h' = some f) : pool h' = some f := by
  by_cases hne : h' = h
  · subst hne
    rw [remove, update_self] at hf
    cases hf
  · rw [remove_of_ne pool hne] at hf
    exact hf

end ChunkPool

/-! ## Sealing and opening a page -/

section Seal

variable {H : Type} (cr : Crates H) (cfg : VolumeConfig) {pool : ChunkPool H}

/-- Fresh when the volume is encrypted, zero otherwise. -/
def sealSalt (salt : UInt64) : UInt64 := if cfg.encryptionKey.isSome then salt else 0

def sealPayload (p : PageId) (salt : UInt64) (bytes : Bytes) : Bytes :=
  match cfg.encryptionKey with
  | some key => cr.encryptBlock key (cr.deriveIv cfg.dekUuid p.toUInt64 salt) bytes
  | none => bytes

def sealEntry (p : PageId) (salt : UInt64) (bytes : Bytes) : PageEntry H :=
  ⟨cr.blake3 (sealPayload cr cfg p salt bytes), sealSalt cfg salt⟩

def openPayload (p : PageId) (salt : UInt64) (payload : Bytes) : Option Bytes :=
  match cfg.encryptionKey with
  | some key => cr.decryptBlock key (cr.deriveIv cfg.dekUuid p.toUInt64 salt) payload
  | none => some payload

def accepts (p : PageId) (bytes : Bytes) : Prop := bytes.length = cfg.pageSize ∧ p.toNat ≤ cfg.lastPageId
deriving Decidable

/-- Zeros when unallocated, otherwise the chunk, opened. -/
def resolve (pool : ChunkPool H) (p : PageId) : Option (PageEntry H) → Option Bytes
  | none => some (List.replicate cfg.pageSize 0)
  | some e => (pool e.hash).bind fun f => openPayload cr cfg p e.ivSalt f.bytes

def PoolOk (pool : ChunkPool H) : Prop := ∀ h f, pool h = some f → cr.blake3 f.bytes = h

theorem openPayload_sealPayload (p : PageId) (salt : UInt64) (bytes : Bytes) :
    openPayload cr cfg p (sealSalt cfg salt) (sealPayload cr cfg p salt bytes) = some bytes := by
  unfold openPayload sealPayload sealSalt
  cases cfg.encryptionKey with
  | none => rfl
  | some key => exact cr.decrypt_encrypt key _ bytes

variable [DecidableEq H]

theorem PoolOk.insertBytes {cr : Crates H} (h : PoolOk cr pool) (payload : Bytes) (now : Nat) :
    PoolOk cr (pool.insertBytes (cr.blake3 payload) payload now) := by
  intro h' f hf
  rcases ChunkPool.insertBytes_some hf with hf | ⟨rfl, -, rfl⟩
  · exact h h' f hf
  · rfl

theorem resolve_insertBytes {p : PageId} {rec : Option (PageEntry H)} {bytes : Bytes} (h : H) (payload : Bytes)
    (now : Nat) (hr : resolve cr cfg pool p rec = some bytes) :
    resolve cr cfg (pool.insertBytes h payload now) p rec = some bytes := by
  cases rec with
  | none => exact hr
  | some e =>
    obtain ⟨f, hf, ho⟩ := Option.bind_eq_some_iff.1 hr
    exact Option.bind_eq_some_iff.2 ⟨f, ChunkPool.insertBytes_of_some payload now hf, ho⟩

/-- **A sealed page reads back as the bytes sealed.** -/
theorem resolve_sealEntry (hp : PoolOk cr pool) (p : PageId) (salt : UInt64) (bytes : Bytes) (now : Nat) :
    resolve cr cfg (pool.insertBytes (sealEntry cr cfg p salt bytes).hash (sealPayload cr cfg p salt bytes) now) p
      (some (sealEntry cr cfg p salt bytes)) = some bytes := by
  obtain ⟨f, hf⟩ := Option.isSome_iff_exists.1
    (pool.insertBytes_isSome (sealEntry cr cfg p salt bytes).hash (sealPayload cr cfg p salt bytes) now)
  have hbytes : f.bytes = sealPayload cr cfg p salt bytes :=
    cr.blake3_injective (hp.insertBytes (sealPayload cr cfg p salt bytes) now _ f hf)
  refine Option.bind_eq_some_iff.2 ⟨f, hf, ?_⟩
  rw [hbytes]
  exact openPayload_sealPayload cr cfg p salt bytes

end Seal

/-! ## Page ranges and rebinds -/

/-- On `u64` arguments: none for an empty or overflowing range or one past the last page id; a last page past it is
clamped. -/
def pageRangeForBytes (pageSize byteOffset len : Nat) : Option (PageId × PageId) :=
  if len = 0 then none
  else if UInt64.size ≤ byteOffset + (len - 1) then none
  else if UInt32.size ≤ byteOffset / pageSize then none
  else
    let last := (byteOffset + (len - 1)) / pageSize
    some (UInt32.ofNat (byteOffset / pageSize),
      if last < UInt32.size then UInt32.ofNat last else UInt32.ofNat (UInt32.size - 1))

/-- **The range covers every page the bytes touch.** -/
theorem pageRangeForBytes_covers {pageSize byteOffset len : Nat} {p : PageId} (hsize : byteOffset + len ≤ UInt64.size)
    (hlo : byteOffset < (p.toNat + 1) * pageSize) (hhi : p.toNat * pageSize < byteOffset + len) (hlen : 0 < len) :
    ∃ first last, pageRangeForBytes pageSize byteOffset len = some (first, last) ∧ first ≤ p ∧ p ≤ last := by
  have hps : 0 < pageSize := by
    rcases Nat.eq_zero_or_pos pageSize with h | h
    · simp [h] at hlo
    · exact h
  have hp : p.toNat < UInt32.size := p.toNat_lt_size
  have hfirst : byteOffset / pageSize ≤ p.toNat := Nat.lt_succ_iff.1 ((Nat.div_lt_iff_lt_mul hps).2 hlo)
  have hlast : p.toNat ≤ (byteOffset + (len - 1)) / pageSize := (Nat.le_div_iff_mul_le hps).2 (by omega)
  have hfirst' : byteOffset / pageSize < UInt32.size := hfirst.trans_lt hp
  unfold pageRangeForBytes
  rw [if_neg (by omega), if_neg (by omega), if_neg (by omega)]
  refine ⟨_, _, rfl, ?_, ?_⟩
  · rw [UInt32.le_iff_toNat_le, UInt32.toNat_ofNat_of_lt' hfirst']
    exact hfirst
  · split
    · next hl =>
      rw [UInt32.le_iff_toNat_le, UInt32.toNat_ofNat_of_lt' hl]
      exact hlast
    · rw [UInt32.le_iff_toNat_le, UInt32.toNat_ofNat_of_lt' (by decide)]
      exact Nat.le_sub_one_of_lt hp

/-- Both plaintext, or the same DEK and page. -/
def rebindIsSound (srcEncrypted : Bool) (srcDek : Bytes) (srcPage : PageId) (dstEncrypted : Bool) (dstDek : Bytes)
    (dstPage : PageId) : Bool :=
  match srcEncrypted, dstEncrypted with
  | false, false => true
  | true, true => srcDek = dstDek ∧ srcPage = dstPage
  | _, _ => false

end Thur

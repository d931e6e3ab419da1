import Thur.Block.CacheCoherence
/-!
# Resize — the size of a volume, the LBA ranges it admits and the pages it accepts

A size is a whole number of sectors and at least a page. Three places turn it into a bound: `resolve_range` counts
sectors, `last_page_id_fits` looks at the page of the last byte, and `last_page_id` counts whole pages, which is what
`write_page_unsynced` refuses by.
-/

namespace Thur

/-! ## Geometry -/

open Option CacheInner

inductive VolumeError where
  | invalidName (name reason : String)
  | invalidPageSize (pageSizeBytes : UInt32)
  | sizeBelowPage (pageSizeBytes : UInt32)
  | sizeNotSectorAligned (sizeBytes : UInt64) (sectorBytes : UInt32)
  | sizeExceedsAddressable (sizeBytes : UInt64) (pageSizeBytes : UInt32) (maxPages : Nat)

def isPowerOfTwo (n : Nat) : Bool := n != 0 && n &&& (n - 1) == 0

def validPageSize (pageSizeBytes sectorBytes : UInt32) : Prop :=
  isPowerOfTwo pageSizeBytes.toNat = true ∧ sectorBytes ≠ 0 ∧ pageSizeBytes.toNat % sectorBytes.toNat = 0
deriving Decidable

def lastPageIdFits (sizeBytes : Nat) (pageSizeBytes : UInt32) : Prop :=
  pageSizeBytes ≠ 0 ∧ (sizeBytes - 1) / pageSizeBytes.toNat < UInt32.size
deriving Decidable

def maxVolumeNameLen : Nat := 64

def validateName (name : String) : Option VolumeError :=
  if name.isEmpty then some (.invalidName name "name is empty")
  else if name.utf8ByteSize > maxVolumeNameLen then some (.invalidName name "name longer than 64 chars")
  else if name = "." ∨ name = ".." then some (.invalidName name "name is a reserved path")
  else if name.toList.all (fun c => c.isAlphanum || c = '-' || c = '_') = false then
    some (.invalidName name "only ASCII letters, digits, '-', and '_' are allowed")
  else none

structure VolumeManifest where
  sectorBytes : UInt32
  pageSizeBytes : UInt32
  worm : Bool
  valid : validPageSize pageSizeBytes sectorBytes

namespace VolumeManifest

variable (m : VolumeManifest) {off len : Nat}

def pageSize : Nat := m.pageSizeBytes.toNat

def sector : Nat := m.sectorBytes.toNat

structure SizeOk (size : Nat) : Prop where
  page : m.pageSize ≤ size
  sector : size % m.sector = 0
  fits : lastPageIdFits size m.pageSizeBytes

abbrev Size := { n : UInt64 // m.SizeOk n.toNat }

def new (name : String) (sizeBytes : UInt64) (sectorBytes pageSizeBytes : UInt32) (worm : Bool) :
    Except VolumeError (Σ m : VolumeManifest, m.Size) :=
  match validateName name with
  | some e => .error e
  | none =>
    if hv : validPageSize pageSizeBytes sectorBytes then
      if hp : sizeBytes.toNat < pageSizeBytes.toNat then .error (.sizeBelowPage pageSizeBytes)
      else if hs : sizeBytes.toNat % sectorBytes.toNat ≠ 0 then .error (.sizeNotSectorAligned sizeBytes sectorBytes)
      else if hf : lastPageIdFits sizeBytes.toNat pageSizeBytes then
        .ok ⟨⟨sectorBytes, pageSizeBytes, worm, hv⟩, sizeBytes, Nat.le_of_not_lt hp, not_not.1 hs, hf⟩
      else .error (.sizeExceedsAddressable sizeBytes pageSizeBytes UInt32.size)
    else .error (.invalidPageSize pageSizeBytes)

variable {m} {lba blocks : UInt64}

section

variable (m : VolumeManifest)

theorem sector_pos : 0 < m.sector := by
  have h := m.valid.2.1
  rw [sector, Nat.pos_iff_ne_zero]
  intro h0
  exact h (UInt32.toNat_inj.1 h0)

theorem pageSize_pos : 0 < m.pageSize := by
  have h := m.valid.1
  rw [pageSize, Nat.pos_iff_ne_zero]
  intro h0
  rw [h0] at h
  cases h

theorem new_accepts (size : m.Size) :
    new "v" size.1 m.sectorBytes m.pageSizeBytes m.worm = .ok ⟨m, size⟩ := by
  obtain ⟨hpage, hsector, hfits⟩ := size.2
  unfold new
  rw [show validateName "v" = none by decide]
  dsimp only
  rw [dif_pos m.valid, dif_neg (show ¬ size.1.toNat < m.pageSizeBytes.toNat from Nat.not_lt.2 hpage),
    dif_neg (show ¬ size.1.toNat % m.sectorBytes.toNat ≠ 0 from not_not.2 hsector), dif_pos hfits]

/-! ## The three bounds -/

inductive RangeError where
  | badSectorSize
  | outOfRange

def resolveRange (size : Nat) (lba blocks : UInt64) : Except RangeError (Nat × Nat) :=
  if m.sector = 0 then .error .badSectorSize
  else if UInt64.size ≤ lba.toNat + blocks.toNat then .error .outOfRange
  else if size / m.sector < lba.toNat + blocks.toNat then .error .outOfRange
  else .ok (lba.toNat * m.sector, blocks.toNat * m.sector)

def lastPageId (size : Nat) : Nat := size / m.pageSize - 1

def Touches (off len p : Nat) : Prop :=
  p * m.pageSize < off + len ∧ off < (p + 1) * m.pageSize ∧ 0 < len
deriving Decidable

end

theorem resolveRange_ok {size : Nat} (h : m.resolveRange size lba blocks = .ok (off, len)) :
    off = lba.toNat * m.sector ∧ len = blocks.toNat * m.sector ∧ off + len ≤ size := by
  unfold resolveRange at h
  split at h
  · cases h
  split at h
  · cases h
  split at h
  · cases h
  next hend =>
  obtain ⟨rfl, rfl⟩ := Prod.mk.inj (Except.ok.inj h)
  refine ⟨rfl, rfl, ?_⟩
  calc lba.toNat * m.sector + blocks.toNat * m.sector
      = (lba.toNat + blocks.toNat) * m.sector := (Nat.add_mul _ _ _).symm
    _ ≤ size / m.sector * m.sector := Nat.mul_le_mul_right _ (Nat.le_of_not_lt hend)
    _ ≤ size := Nat.div_mul_le_self size m.sector

theorem touches_le_iff {size : Nat} (hsize : m.pageSize ≤ size) (hlen : 0 < len) :
    (∀ p, m.Touches off len p → p ≤ m.lastPageId size) ↔ off + len ≤ size / m.pageSize * m.pageSize := by
  have hpos := m.pageSize_pos
  have hone : 1 ≤ size / m.pageSize := (Nat.one_le_div_iff hpos).2 hsize
  constructor
  · intro h
    -- the page of the last byte
    have hlast := h ((off + len - 1) / m.pageSize) ⟨?_, ?_, hlen⟩
    · unfold lastPageId at hlast
      have hlt : (off + len - 1) / m.pageSize < size / m.pageSize := by omega
      have := (Nat.div_lt_iff_lt_mul hpos).1 hlt
      omega
    · have := Nat.div_mul_le_self (off + len - 1) m.pageSize
      omega
    · have := Nat.lt_div_mul_add hpos (a := off + len - 1)
      rw [Nat.add_mul, Nat.one_mul]
      omega
  · rintro h p ⟨hp, -, -⟩
    have hlt : p * m.pageSize < size / m.pageSize * m.pageSize := hp.trans_le h
    have := Nat.lt_of_mul_lt_mul_right hlt
    unfold lastPageId
    omega

theorem touches_lt_of_resolveRange (size : m.Size) {p : Nat}
    (h : m.resolveRange size.1.toNat lba blocks = .ok (off, len)) (hp : m.Touches off len p) : p < UInt32.size := by
  obtain ⟨-, -, hle⟩ := resolveRange_ok h
  have hfits := size.2.fits.2
  refine lt_of_le_of_lt ?_ hfits
  refine (Nat.le_div_iff_mul_le m.pageSize_pos).2 ?_
  have := hp.1
  omega

/-- **The admitted ranges stay within the whole pages exactly if there is no part of a page at the end.** -/
theorem admitted_le_lastPageId_iff (size : m.Size) :
    (∀ lba blocks off len p, m.resolveRange size.1.toNat lba blocks = .ok (off, len) → m.Touches off len p →
      p ≤ m.lastPageId size.1.toNat) ↔ size.1.toNat % m.pageSize = 0 := by
  have hpos := m.pageSize_pos
  have hsec := m.sector_pos
  have hsize := size.2.page
  constructor
  · intro h
    -- the last sector
    have hsectors : size.1.toNat / m.sector * m.sector = size.1.toNat :=
      Nat.div_mul_cancel (Nat.dvd_of_mod_eq_zero size.2.sector)
    have hpositive : 0 < size.1.toNat / m.sector := by
      rw [Nat.pos_iff_ne_zero]
      intro h0
      rw [h0, Nat.zero_mul] at hsectors
      omega
    have hlt : size.1.toNat / m.sector < UInt64.size := (Nat.div_le_self _ _).trans_lt size.1.toNat_lt_size
    have hlba : (UInt64.ofNat (size.1.toNat / m.sector - 1)).toNat = size.1.toNat / m.sector - 1 :=
      UInt64.toNat_ofNat_of_lt' (by omega)
    have hres : m.resolveRange size.1.toNat (UInt64.ofNat (size.1.toNat / m.sector - 1)) 1 =
        .ok ((size.1.toNat / m.sector - 1) * m.sector, 1 * m.sector) := by
      unfold resolveRange
      rw [hlba, show (1 : UInt64).toNat = 1 from rfl, if_neg (by omega), if_neg (by omega), if_neg (by omega)]
    have hend := (touches_le_iff hsize (by omega)).1 fun p hp => h _ _ _ _ p hres hp
    rw [← Nat.add_mul, Nat.sub_add_cancel hpositive, hsectors] at hend
    have hle := Nat.div_mul_le_self size.1.toNat m.pageSize
    rw [Nat.mod_eq_sub_div_mul]
    omega
  · intro hmod lba blocks off len p hres hp
    obtain ⟨-, -, hle⟩ := resolveRange_ok hres
    refine (touches_le_iff hsize hp.2.2).2 ?_ p hp
    rw [Nat.div_mul_cancel (Nat.dvd_of_mod_eq_zero hmod)]
    exact hle

end VolumeManifest

/-! ## `set_size` -/

namespace PageIndex

variable {H : Type}

def highestAllocatedPage (ix : PageIndex H) : Option PageId := ix.iter.getLast?.map Prod.fst

def truncateFrom (ix : PageIndex H) (n : Nat) : PageIndex H := if ix.len ≤ n then ix else (ix.clearFrom n).sync

end PageIndex

inductive ResizeError where
  | resizeNotSectorAligned (sizeBytes : UInt64) (sectorBytes : UInt32)
  | resizeBelowPage (sizeBytes : UInt64) (pageSize : UInt32)
  | resizeExceedsAddressable (sizeBytes : UInt64) (pageSize : UInt32)
  | resizeNoChange (sizeBytes : UInt64)
  | resizeWormForbidden
  | resizeWouldDiscardData (newSize : UInt64) (highestPage occupiedThrough : Nat)

def VolumeManifest.setSize {H : Type} (m : VolumeManifest) (pages : PageIndex H) (current : m.Size) (newSize : UInt64) :
    Except ResizeError (m.Size × PageIndex H) :=
  if hs : m.sector = 0 ∨ newSize.toNat % m.sector ≠ 0 then .error (.resizeNotSectorAligned newSize m.sectorBytes)
  else if hp : newSize.toNat < m.pageSize then .error (.resizeBelowPage newSize m.pageSizeBytes)
  else if hf : ¬ lastPageIdFits newSize.toNat m.pageSizeBytes then
    .error (.resizeExceedsAddressable newSize m.pageSizeBytes)
  else if newSize = current.1 then .error (.resizeNoChange newSize)
  else
    let size : m.Size := ⟨newSize, Nat.le_of_not_lt hp, not_not.1 (not_or.1 hs).2, not_not.1 hf⟩
    if current.1 < newSize then .ok (size, pages)
    else if m.worm then .error .resizeWormForbidden
    else
      let newPageCount := newSize.toNat / m.pageSize
      match pages.highestAllocatedPage with
      | some highest =>
        if newPageCount ≤ highest.toNat then
          .error (.resizeWouldDiscardData newSize highest.toNat ((highest.toNat + 1) * m.pageSize))
        else .ok (size, pages.truncateFrom newPageCount)
      | none => .ok (size, pages.truncateFrom newPageCount)

theorem VolumeManifest.setSize_ok {H : Type} {m : VolumeManifest} {pages pages' : PageIndex H} {current size : m.Size}
    {newSize : UInt64} (h : m.setSize pages current newSize = .ok (size, pages')) : size.1 = newSize := by
  revert h
  fun_cases setSize m pages current newSize <;> intro h <;>
    simp only [reduceCtorEq, Except.ok.injEq, Prod.mk.injEq] at h <;> exact h.1 ▸ rfl

/-! ## A volume that is written and resized -/

structure ResizeState (m : VolumeManifest) (H : Type) where
  size : m.Size
  cache : CacheState H
  admitted : Table (Nat × Nat)

/-- `set_size` is one step: everything here is judged by the size it stores last. -/
inductive ResizeAct (H : Type) where
  | resolveRange (t : Nat) (lba blocks : UInt64)
  | write (t : Nat) (a : CacheAct H)
  | finish (t : Nat)
  | cache (a : CacheAct H)
  | setSize (newSize : UInt64)

def CacheAct.hostPage {H : Type} : CacheAct H → Option PageId
  | .install p _ => some p
  | .modify p _ _ => some p
  | _ => none

namespace ResizeState

variable {H : Type} [DecidableEq H] (cr : Crates H) (cfg : VolumeConfig) {m : VolumeManifest}

def config (s : ResizeState m H) : VolumeConfig :=
  { cfg with pageSize := m.pageSize, lastPageId := m.lastPageId s.size.1.toNat }

def step (s : ResizeState m H) : ResizeAct H → Option (ResizeState m H)
  | .resolveRange t lba blocks =>
    if s.admitted.lookup t = none then
      (m.resolveRange s.size.1.toNat lba blocks).toOption.map fun w => { s with admitted := s.admitted.insert t w }
    else none
  | .write t a =>
    (s.admitted.lookup t).bind (fun w => a.hostPage.bind (fun p =>
      if m.Touches w.1 w.2 p.toNat then (s.cache.step cr (s.config cfg) a).map (fun c => { s with cache := c }) else none))
  | .finish t => some { s with admitted := s.admitted.erase t }
  | .cache a =>
    if a.hostPage = none then (s.cache.step cr (s.config cfg) a).map (fun c => { s with cache := c }) else none
  | .setSize newSize =>
    match m.setSize s.cache.pages s.size newSize with
    | .ok (size, pages) => some { s with size := size, cache := { s.cache with pages := pages } }
    | .error _ => some s

def machine (m : VolumeManifest) : Machine (ResizeState m H) (ResizeAct H) := ⟨fun s a => s.step cr cfg a⟩

def opened (size : m.Size) (pages : PageIndex H) (upload : UploadIndexFile) (pool : ChunkPool H) : ResizeState m H :=
  ⟨size, .opened pages upload pool, ∅⟩

/-- `write_page_unsynced` takes every page on its way to the disk: of the commands under way, Dirty, or captured. -/
structure Flushable (s : ResizeState m H) : Prop where
  admitted : ∀ t w p, s.admitted.lookup t = some w → m.Touches w.1 w.2 p → p ≤ m.lastPageId s.size.1.toNat
  dirty : ∀ p v, s.cache.inner.view p = some v → v.state = .dirty → p.toNat ≤ m.lastPageId s.size.1.toNat
  wbs : ∀ t w, s.cache.wbs.lookup t = some w → w.isSealed = false → w.page.toNat ≤ m.lastPageId s.size.1.toNat

/-- The same of a volume of `size` bytes, by the windows of the commands and the pages of the cache. -/
def Within (s : ResizeState m H) (size : Nat) : Prop :=
  s.admitted.All (fun _ w => w.2 = 0 ∨ w.1 + w.2 ≤ size / m.pageSize * m.pageSize) ∧
  (∀ x ∈ s.cache.inner.pages.entries, x.2.state = .dirty → x.1.toNat ≤ m.lastPageId size) ∧
  s.cache.wbs.All (fun _ w => w.isSealed = false → w.page.toNat ≤ m.lastPageId size)
deriving Decidable

section

omit [DecidableEq H]

theorem touches_le_lastPageId_iff (s : ResizeState m H) (w : Nat × Nat) :
    (∀ p, m.Touches w.1 w.2 p → p ≤ m.lastPageId s.size.1.toNat) ↔
      w.2 = 0 ∨ w.1 + w.2 ≤ s.size.1.toNat / m.pageSize * m.pageSize := by
  by_cases hlen : w.2 = 0
  · simp [hlen, VolumeManifest.Touches]
  · rw [m.touches_le_iff s.size.2.page (Nat.pos_of_ne_zero hlen)]
    simp [hlen]

theorem flushable_iff (s : ResizeState m H) : s.Flushable ↔ s.Within s.size.1.toNat := by
  rw [Within, Table.all_iff, Table.all_iff]
  constructor
  · intro h
    refine ⟨fun t w hw => (s.touches_le_lastPageId_iff w).1 (fun p => h.admitted t w p hw), ?_, h.wbs⟩
    rintro ⟨p, e⟩ hx hd
    exact h.dirty p e.view (view_some (AList.mem_lookup_iff.2 hx)) hd
  · rintro ⟨hadm, hdirty, hwbs⟩
    refine ⟨fun t w p hw => (s.touches_le_lastPageId_iff w).2 (hadm t w hw) p, fun p v hv hd => ?_, hwbs⟩
    obtain ⟨e, he, rfl⟩ := map_eq_some_iff.1 hv
    exact hdirty ⟨p, e⟩ (AList.mem_lookup_iff.1 he) hd

end

instance (s : ResizeState m H) : Decidable s.Flushable := decidable_of_iff _ s.flushable_iff.symm

/-- A window ends within the whole pages, and an accepted resize leaves every page a write is under way to. -/
def resizeOk (s : ResizeState m H) : ResizeAct H → Prop
  | .resolveRange _ lba blocks => ∀ w ∈ (m.resolveRange s.size.1.toNat lba blocks).toOption,
      w.2 = 0 ∨ w.1 + w.2 ≤ s.size.1.toNat / m.pageSize * m.pageSize
  | .setSize newSize => (m.setSize s.cache.pages s.size newSize).isOk = true → s.Within newSize.toNat
  | _ => True

instance (s : ResizeState m H) (a : ResizeAct H) : Decidable (s.resizeOk a) := by
  apply ResizeAct.casesOn (motive := fun a => Decidable (s.resizeOk a)) a <;> intros <;> unfold resizeOk <;>
    infer_instance

end ResizeState

/-! ## What a step of the cache makes Dirty -/

namespace CacheState

variable {H : Type} [DecidableEq H] {cr : Crates H} {cfg : VolumeConfig} {s s' : CacheState H}

def Dirty (s : CacheState H) (p : PageId) : Prop := ∃ v, s.inner.view p = some v ∧ v.state = .dirty

section

omit [DecidableEq H]

theorem dirty_of_view {p : PageId} (h : s'.inner.view p = s.inner.view p ∨ s'.inner.view p = none) (hd : s'.Dirty p) :
    s.Dirty p := by
  obtain ⟨v, hv, hs⟩ := hd
  rcases h with h | h
  · exact ⟨v, h ▸ hv, hs⟩
  · rw [h] at hv
    cases hv

theorem view_drop (s : CacheState H) (p q : PageId) :
    (s.inner.dropEntry p).view q = s.inner.view q ∨ (s.inner.dropEntry p).view q = none := by
  rw [view_dropEntry]
  split
  · exact .inr rfl
  · exact .inl rfl

end

theorem dirty_step {a : CacheAct H} (hm : Moves cr cfg s a s') {q : PageId} (hd : s'.Dirty q) :
    a.hostPage = some q ∨ s.Dirty q := by
  have host : ∀ {p : PageId} {bytes : Bytes}, (∃ v, (s.inner.dirtyEntry p bytes).view q = some v ∧ v.state = .dirty) →
      q = p ∨ s.Dirty q := by
    rintro p bytes ⟨v, hv, hs⟩
    rw [view_dirtyEntry] at hv
    split at hv
    · next hq => exact .inl hq
    · exact .inr ⟨v, hv, hs⟩
  cases hm with
  | install | modify => exact (host hd).imp_left fun h => congrArg some h.symm
  | hit | insertLost => exact .inr (dirty_of_view (.inl (congrFun (view_lruTouch _ _) q)) hd)
  | insertPage =>
    obtain ⟨v, hv, hs⟩ := hd
    rw [view_insertClean] at hv
    split at hv
    · cases hv
      cases hs
    · exact .inr ⟨v, hv, hs⟩
  | evictClean | unmapDrop | cloneDrop => exact .inr (dirty_of_view (view_drop s _ q) hd)
  | commit =>
    rcases view_recheck s.inner _ q with h | ⟨-, e, -, -, h⟩
    · exact .inr (dirty_of_view (.inl h) hd)
    · obtain ⟨v, hv, hs⟩ := hd
      rcases h with h | h
      · cases h.symm.trans hv
        cases hs
      · cases h.symm.trans hv
  | rebind =>
    refine .inr (dirty_of_view (.inl ?_) hd)
    simp only [inner_rebindPage]
  | _ => exact .inr hd

theorem wbs_step {a : CacheAct H} (hm : Moves cr cfg s a s') {t : Nat} {w : WriteBack} (hw : s'.wbs.lookup t = some w)
    (hns : w.isSealed = false) : s.wbs.lookup t = some w ∨ s.Dirty w.page := by
  have captured : ∀ {p : PageId} {e : PageView} {t0 : Nat} {d : Option Nat}, s.inner.view p = some e → e.state = .dirty →
      (s.wbs.insert t0 ⟨p, e.bytes, e.version, d, false⟩).lookup t = some w →
      s.wbs.lookup t = some w ∨ s.Dirty w.page := by
    intro p e t0 d he hd h
    rcases Table.lookup_insert_some h with ⟨-, rfl⟩ | ⟨-, h⟩
    · exact .inr ⟨e, he, hd⟩
    · exact .inl h
  cases hm with
  | evictDirty he hd | drainFlush hx hph hp ht he hd => exact captured he hd hw
  | sealPage =>
    rcases Table.lookup_insert_some hw with ⟨-, rfl⟩ | ⟨-, hw⟩
    · cases hns
    · exact .inl hw
  | sealFail | abort | commit => exact .inl (Table.lookup_erase_some hw).2
  | rebind =>
    simp only [wbs_rebindPage] at hw
    exact .inl hw
  | _ => exact .inl hw

end CacheState

/-! ## Admitted writes stay writable -/

namespace ResizeState

variable {H : Type} [DecidableEq H] {cr : Crates H} {cfg : VolumeConfig} {m : VolumeManifest}

theorem Flushable.cache {s : ResizeState m H} {a : CacheAct H} {c : CacheState H} (h : s.Flushable)
    (hs : s.cache.step cr (s.config cfg) a = some c)
    (hhost : ∀ p, a.hostPage = some p → p.toNat ≤ m.lastPageId s.size.1.toNat) : Flushable { s with cache := c } := by
  have hm : CacheState.Moves cr (s.config cfg) s.cache a c := CacheState.machine_moves hs
  refine ⟨h.admitted, fun p v hv hd => ?_, fun t w hw hns => ?_⟩
  · rcases CacheState.dirty_step hm ⟨v, hv, hd⟩ with hp | ⟨v', hv', hd'⟩
    · exact hhost p hp
    · exact h.dirty p v' hv' hd'
  · rcases CacheState.wbs_step hm hw hns with hw' | ⟨v, hv, hd⟩
    · exact h.wbs t w hw' hns
    · exact h.dirty w.page v hv hd

/-- **One step** keeps every write flushable if it meets the condition, and shows if it does not. -/
theorem Flushable.step {s s' : ResizeState m H} {a : ResizeAct H} (h : s.Flushable)
    (hs : (machine cr cfg m).step s a = some s') : (s.resizeOk a → s'.Flushable) ∧ (s'.Flushable → s.resizeOk a) := by
  cases a with
  | resolveRange t =>
    simp only [machine, ResizeState.step] at hs
    split at hs
    · obtain ⟨w, hw, rfl⟩ := map_eq_some_iff.1 hs
      constructor
      · intro hok
        refine ⟨fun t' w' p hw' hp => ?_, h.dirty, h.wbs⟩
        rcases Table.lookup_insert_some hw' with ⟨-, rfl⟩ | ⟨-, hw'⟩
        · exact (s.touches_le_lastPageId_iff w').2 (hok w' hw) p hp
        · exact h.admitted t' w' p hw' hp
      · intro h' w' hw'
        cases Option.some.inj (hw.symm.trans hw')
        exact (s.touches_le_lastPageId_iff w).1 fun p => h'.admitted t w p (AList.lookup_insert _)
    · cases hs
  | write t a =>
    simp only [machine, ResizeState.step] at hs
    obtain ⟨w, hw, hs⟩ := bind_eq_some_iff.1 hs
    obtain ⟨p, hp, hs⟩ := bind_eq_some_iff.1 hs
    split at hs
    · next htouch =>
      obtain ⟨c, hc, rfl⟩ := map_eq_some_iff.1 hs
      refine ⟨fun _ => h.cache hc (fun q hq => ?_), fun _ => trivial⟩
      cases Option.some.inj (hp.symm.trans hq)
      exact h.admitted t w p.toNat hw htouch
    · cases hs
  | finish =>
    simp only [machine, ResizeState.step, Option.some.injEq] at hs
    subst hs
    exact ⟨fun _ => ⟨fun t' w p hw => h.admitted t' w p (Table.lookup_erase_some hw).2, h.dirty, h.wbs⟩, fun _ => trivial⟩
  | cache a =>
    simp only [machine, ResizeState.step] at hs
    split at hs
    · next hn =>
      obtain ⟨c, hc, rfl⟩ := map_eq_some_iff.1 hs
      refine ⟨fun _ => h.cache hc (fun q hq => ?_), fun _ => trivial⟩
      rw [hn] at hq
      cases hq
    · cases hs
  | setSize newSize =>
    simp only [machine, ResizeState.step] at hs
    split at hs
    · next size pages hset =>
      cases hs
      have hsize := VolumeManifest.setSize_ok hset
      refine ⟨fun hok => (flushable_iff _).2 ?_, fun h' _ => ?_⟩
      · exact hsize ▸ hok (by rw [hset]; rfl)
      · exact hsize ▸ (flushable_iff _).1 h'
    · next e hset =>
      cases hs
      refine ⟨fun _ => h, fun _ hok => ?_⟩
      rw [hset] at hok
      cases hok

omit [DecidableEq H] in
theorem flushable_opened (size : m.Size) (pages : PageIndex H) (upload : UploadIndexFile) (pool : ChunkPool H) :
    (opened size pages upload pool).Flushable :=
  ⟨fun _ _ _ h => (by cases h), fun _ _ h => (by cases h), fun _ _ h => by cases h⟩

/-- **When an admitted write can be written**: the admitted ranges stay within `last_page_id` exactly if the size is in
whole pages, and no page is refused exactly if no command is admitted into a part of a page and no resize leaves one
behind. -/
theorem admitted_flushable_iff (cr : Crates H) (cfg : VolumeConfig) (m : VolumeManifest) (size : m.Size)
    (pages : PageIndex H) (upload : UploadIndexFile) (pool : ChunkPool H) (acts : List (ResizeAct H)) (s : ResizeState m H)
    (hrun : (machine cr cfg m).run (opened size pages upload pool) acts = some s) :
    (∀ lba blocks off len p, m.resolveRange s.size.1.toNat lba blocks = .ok (off, len) → m.Touches off len p →
      p < UInt32.size) ∧
    ((∀ lba blocks off len p, m.resolveRange s.size.1.toNat lba blocks = .ok (off, len) → m.Touches off len p →
      p ≤ m.lastPageId s.size.1.toNat) ↔ s.size.1.toNat % m.pageSize = 0) ∧
    ((∀ pre, pre <+: acts → ∀ s', (machine cr cfg m).run (opened size pages upload pool) pre = some s' → s'.Flushable) ↔
      (machine cr cfg m).Meets resizeOk (opened size pages upload pool) acts) :=
  ⟨fun _ _ _ _ _ => VolumeManifest.touches_lt_of_resolveRange s.size, VolumeManifest.admitted_le_lastPageId_iff s.size,
    Machine.forall_prefix_iff_meets _ (fun _ h => h) (fun _ _ _ h hs => h.step hs)
      (flushable_opened size pages upload pool) hrun⟩

/-! A volume with pages of two sectors of one byte. -/

def tinyManifest : VolumeManifest := ⟨1, 2, false, by decide⟩

def tinyConfig : VolumeConfig := ⟨2, 0, none, [], .disk, 4, 1⟩

def writeSector : List (ResizeAct Bytes) :=
  [.resolveRange 0 2 1, .cache (.acquire 5 1), .cache (.fetch 5), .cache (.insertPage 5), .write 0 (.modify 1 0 [7]),
    .finish 0, .cache (.drainStart 0 0 9), .cache (.drainPick 0), .cache (.drainFlush 0 9 1)]

def grownRun : List (ResizeAct Bytes) := writeSector ++ [.cache (.sealPage 9 0 0), .cache (.commit 9), .setSize 6]

theorem admitted_flushable_iff_grownRun :
    ∃ s, (machine Crates.plain tinyConfig tinyManifest).run
        (opened ⟨4, by decide, by decide, by decide⟩ default default (fun _ => none)) grownRun = some s ∧
      s.size.1 = 6 ∧ s.Flushable :=
  Machine.ends_of (·.size.1 = 6) (by decide +kernel) fun s hs h =>
    ⟨h, (admitted_flushable_iff _ _ _ _ _ _ _ grownRun s hs).2.2.2 (by decide +kernel) grownRun (List.prefix_refl _) s hs⟩

/-- **An admitted sector that cannot be written**, the last one of a volume of one and a half pages. -/
theorem admitted_flushable_fails :
    ∃ s w, (machine Crates.plain tinyConfig tinyManifest).run
        (opened ⟨3, by decide, by decide, by decide⟩ default default (fun _ => none)) writeSector = some s ∧
      s.cache.wbs.lookup 9 = some w ∧ w.isSealed = false ∧ w.bytes = [7, 0] ∧
      ¬ accepts (s.config tinyConfig) w.page w.bytes ∧ ¬ s.Flushable := Machine.ends_twice (by decide +kernel)

end ResizeState
end Thur

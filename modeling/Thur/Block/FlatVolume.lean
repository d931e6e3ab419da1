import Thur.Block.PageCache
/-!
# FlatVolume — the page cache refines a flat byte array

What a volume is for, seen from a host: an array of `size_bytes` bytes, all zero at first, that reads return slices of
and writes are spliced into (`BlockOp.onFlat`); `BlockOp.onCache` runs the operation on the page cache. `Represents`
relates the two: each operation keeps it and returns the same, and so does every sequence of operations.
-/

namespace Thur

open CacheInner (splice)

/-! ## Splices -/

open List Bytes Option

theorem splice_nil (a : Bytes) (off : Nat) : splice a off [] = a := by
  simp [splice]

variable {a d : Bytes} {off : Nat}

theorem splice_all (h : d.length = a.length) : splice a 0 d = d := by
  simp [splice, h]

theorem getElem?_splice (h : off + d.length ≤ a.length) (k : Nat) :
    (splice a off d)[k]? = if off ≤ k ∧ k < off + d.length then d[k - off]? else a[k]? := by
  have hlen : (a.take off ++ d).length = off + d.length := by simp; omega
  by_cases h1 : k < off
  · rw [if_neg (by omega), splice, getElem?_append_left (by omega), getElem?_append_left (by simp; omega),
      getElem?_take, if_pos h1]
  by_cases h2 : k < off + d.length
  · rw [if_pos (by omega), splice, getElem?_append_left (by omega), getElem?_append_right (by simp; omega),
      length_take, Nat.min_eq_left (by omega)]
  · rw [if_neg (by omega), splice, getElem?_append_right (by omega), hlen, getElem?_drop]
    congr 1
    omega

theorem splice_splice {x y : Bytes} (h : off + x.length + y.length ≤ a.length) :
    splice (splice a off x) (off + x.length) y = splice a off (x ++ y) := by
  have hx : (splice a off x).length = a.length := PageCache.length_splice (by omega)
  apply ext_getElem?
  intro k
  rw [getElem?_splice (by omega), getElem?_splice (by omega), getElem?_splice (by rw [length_append]; omega),
    length_append]
  by_cases h1 : k < off + x.length
  · rw [if_neg (by omega)]
    by_cases h2 : off ≤ k
    · rw [if_pos (by omega), if_pos (by omega), getElem?_append_left (by omega)]
    · rw [if_neg (by omega), if_neg (by omega)]
  · rw [if_neg (by omega : ¬ (off ≤ k ∧ k < off + x.length))]
    by_cases h2 : k < off + x.length + y.length
    · rw [if_pos (by omega), if_pos (by omega), getElem?_append_right (by omega)]
      congr 1
      omega
    · rw [if_neg (by omega), if_neg (by omega)]

theorem field_splice_of_disjoint (h : off + d.length ≤ a.length) {i n : Nat} (hd : i + n ≤ off ∨ off + d.length ≤ i) :
    (splice a off d).field i n = a.field i n := by
  apply ext_getElem?
  intro k
  rw [getElem?_field, getElem?_field]
  split
  · rw [getElem?_splice h, if_neg (by omega)]
  · rfl

theorem field_splice {i n : Nat} (h : off + d.length ≤ n) (hn : i + n ≤ a.length) :
    (splice a (i + off) d).field i n = splice (a.field i n) off d := by
  have hfield := length_field hn
  apply ext_getElem?
  intro k
  rw [getElem?_field, getElem?_splice (by omega), getElem?_splice (by omega), getElem?_field]
  by_cases hk : k < n
  · simp only [hk, if_true, Nat.add_assoc, Nat.add_le_add_iff_left, Nat.add_lt_add_iff_left, Nat.add_sub_add_left]
  · rw [if_neg hk, if_neg (by omega), if_neg hk]

/-! ## Operations -/

inductive BlockOp
  | readBytes (byteOffset len : Nat)
  | writeBytes (byteOffset : Nat) (data : Bytes)
  | compareAndWriteBytes (byteOffset : Nat) (expected new : Bytes)
  | unmapBytes (byteOffset len : Nat)
  | clonePageRange (srcByteOffset dstByteOffset len : Nat)
  | flushPagesInRange (first last : PageId)
  | flushAll
  | evictToFit (wanted : Nat)

inductive BlockReply
  | done
  | bytes (b : Bytes)
  | verdict (equal : Bool)
deriving DecidableEq

namespace BlockOp

def onFlat (a : Bytes) : BlockOp → Bytes × BlockReply
  | readBytes off len => (a, .bytes (a.field off len))
  | writeBytes off data => (splice a off data, .done)
  | compareAndWriteBytes off expected new =>
    if a.field off expected.length = expected then (splice a off new, .verdict true) else (a, .verdict false)
  | unmapBytes off len => (splice a off (List.replicate len 0), .done)
  | clonePageRange src dst len => (splice a dst (a.field src len), .done)
  | flushPagesInRange _ _ | flushAll | evictToFit _ => (a, .done)

def runFlat : List BlockOp → Bytes → Bytes × List BlockReply
  | [], a => (a, [])
  | op :: ops, a =>
    let r := runFlat ops (op.onFlat a).1
    (r.1, (op.onFlat a).2 :: r.2)

variable {H : Type} [DecidableEq H] (cr : Crates H) (cfg : VolumeConfig) (env : Environment)

def onCache (s : PageCache H) : BlockOp → Option (PageCache H × BlockReply)
  | readBytes off len => (s.readBytes cr cfg env off len).map fun x => (x.1, .bytes x.2)
  | writeBytes off data => (s.writeBytes cr cfg env off data).map (·, .done)
  | compareAndWriteBytes off expected new =>
    (s.compareAndWriteBytes cr cfg env off expected new).map fun x => (x.1, .verdict x.2)
  | unmapBytes off len => (s.unmapBytes cr cfg env off len).map (·, .done)
  | clonePageRange src dst len => (s.clonePageRange cr cfg env src dst len).map (·, .done)
  | flushPagesInRange first last => (s.flushPagesInRange cr cfg env first last).map (·, .done)
  | flushAll => (s.flushAll cr cfg env).map (·, .done)
  | evictToFit wanted => (s.evictToFit cr cfg env wanted).map (·, .done)

def runCache : List BlockOp → PageCache H → Option (PageCache H × List BlockReply)
  | [], s => some (s, [])
  | op :: ops, s => (onCache cr cfg env s op).bind fun x => (runCache ops x.1).map fun y => (y.1, x.2 :: y.2)

def sizeBytes : Nat := (cfg.lastPageId + 1) * cfg.pageSize

/-- The caller's side: ranges inside the volume, equal lengths, aligned and disjoint clones. -/
def InRange : BlockOp → Prop
  | readBytes off len => off + len ≤ sizeBytes cfg
  | writeBytes off data => off + data.length ≤ sizeBytes cfg
  | compareAndWriteBytes off expected new => off + expected.length ≤ sizeBytes cfg ∧ new.length = expected.length
  | unmapBytes off len => off + len ≤ sizeBytes cfg
  | clonePageRange src dst len =>
    cfg.pageSize ∣ src ∧ cfg.pageSize ∣ dst ∧ cfg.pageSize ∣ len ∧ src + len ≤ sizeBytes cfg ∧ dst + len ≤ sizeBytes cfg ∧
      (src + len ≤ dst ∨ dst + len ≤ src)
  | flushPagesInRange _ _ | flushAll | evictToFit _ => True

instance (op : BlockOp) : Decidable (InRange cfg op) := by
  apply BlockOp.casesOn (motive := fun op => Decidable (InRange cfg op)) op <;> intros <;> unfold InRange <;>
    infer_instance

end BlockOp

namespace PageCache

open BlockOp (sizeBytes)

variable {H : Type} [DecidableEq H] (cr : Crates H) (cfg : VolumeConfig) (env : Environment) {p : PageId} {offset : Nat}
  {d : Bytes}

/-! ## The array behind the pages -/

def pageOf (a : Bytes) (p : PageId) : Bytes := a.field (p.toNat * cfg.pageSize) cfg.pageSize

structure Represents (s : PageCache H) (a : Bytes) : Prop where
  length : a.length = sizeBytes cfg
  holds : Holds cr cfg s (pageOf cfg a)

variable {cr cfg}
variable {s : PageCache H} {a : Bytes} {cursor : Nat}

theorem mul_add_le_sizeBytes {n : Nat} (h : n ≤ cfg.lastPageId) : n * cfg.pageSize + cfg.pageSize ≤ sizeBytes cfg := by
  have : (n + 1) * cfg.pageSize ≤ sizeBytes cfg := Nat.mul_le_mul_right _ (by omega)
  rwa [Nat.succ_mul] at this

theorem pageIdForOffset_some (hps : 0 < cfg.pageSize) (hlast : cfg.lastPageId < UInt32.size)
    (h : cursor < sizeBytes cfg) : ∃ p : PageId, pageIdForOffset cfg cursor = some p ∧
      p.toNat ≤ cfg.lastPageId ∧ p.toNat * cfg.pageSize + cursor % cfg.pageSize = cursor := by
  have hlt : cursor / cfg.pageSize < cfg.lastPageId + 1 := (Nat.div_lt_iff_lt_mul hps).2 h
  have hfits : cursor / cfg.pageSize < UInt32.size := by omega
  have hp : (UInt32.ofNat (cursor / cfg.pageSize)).toNat = cursor / cfg.pageSize := UInt32.toNat_ofNat_of_lt' hfits
  refine ⟨_, if_pos hfits, by omega, ?_⟩
  rw [hp, Nat.mul_comm]
  exact Nat.div_add_mod cursor cfg.pageSize

theorem pageOf_splice (ha : a.length = sizeBytes cfg) {q : PageId} (hp : p.toNat ≤ cfg.lastPageId)
    (hd : offset + d.length ≤ cfg.pageSize) : pageOf cfg (splice a (p.toNat * cfg.pageSize + offset) d) q =
      Function.update (pageOf cfg a) p (splice (pageOf cfg a p) offset d) q := by
  have hfit := mul_add_le_sizeBytes hp
  rw [Function.update_apply]
  split
  · next hq =>
    rw [hq]
    exact field_splice hd (by omega)
  · next hq =>
    have hne : q.toNat ≠ p.toNat := fun h => hq (UInt32.toNat_inj.1 h)
    refine field_splice_of_disjoint (by omega) ?_
    rcases Nat.lt_or_gt_of_ne hne with h | h
    · have : (q.toNat + 1) * cfg.pageSize ≤ p.toNat * cfg.pageSize := Nat.mul_le_mul_right _ h
      rw [Nat.succ_mul] at this
      omega
    · have : (p.toNat + 1) * cfg.pageSize ≤ q.toNat * cfg.pageSize := Nat.mul_le_mul_right _ h
      rw [Nat.succ_mul] at this
      omega

section

omit [DecidableEq H]

theorem Represents.spliced (h : Represents cr cfg s a) {s' : PageCache H} (hp : p.toNat ≤ cfg.lastPageId)
    (hd : offset + d.length ≤ cfg.pageSize)
    (h' : Holds cr cfg s' (Function.update (pageOf cfg a) p (splice (pageOf cfg a p) offset d))) :
    Represents cr cfg s' (splice a (p.toNat * cfg.pageSize + offset) d) where
  length := by
    have hfit := mul_add_le_sizeBytes hp
    have ha := h.length
    rw [length_splice (by omega), ha]
  holds := h'.congr fun q _ => (pageOf_splice h.length hp hd).symm

theorem Represents.replaced (h : Represents cr cfg s a) {s' : PageCache H} (hp : p.toNat ≤ cfg.lastPageId)
    (hd : d.length = cfg.pageSize) (h' : Holds cr cfg s' (Function.update (pageOf cfg a) p d)) :
    Represents cr cfg s' (splice a (p.toNat * cfg.pageSize) d) := by
  have hall : splice (pageOf cfg a p) 0 d = d := splice_all (by rw [hd, h.holds.length p hp])
  have h0 : Represents cr cfg s' (splice a (p.toNat * cfg.pageSize + 0) d) := h.spliced hp (by omega) (by rwa [hall])
  rwa [Nat.add_zero] at h0

end

theorem Represents.acquirePage (h : Represents cr cfg s a) (hp : p.toNat ≤ cfg.lastPageId) {n : Nat}
    (hn : offset + n ≤ cfg.pageSize) : ∃ s' bytes, acquirePage cr cfg env s p = some (s', bytes) ∧
      Represents cr cfg s' a ∧ bytes.field offset n = a.field (p.toNat * cfg.pageSize + offset) n := by
  obtain ⟨s', hs', h', -⟩ := h.holds.acquirePage env hp
  exact ⟨s', _, hs', ⟨h.length, h'⟩, field_field a hn⟩

/-! ## Each operation, a span at a time -/

section Ops

variable (hps : 0 < cfg.pageSize) (hlast : cfg.lastPageId < UInt32.size) {n off len : Nat} {expected : Bytes}

include hps hlast

theorem Represents.readSpan (h : Represents cr cfg s a) (out : Bytes) (hn : 0 < n)
    (hstop : cursor + n ≤ sizeBytes cfg) (hblock : cursor % cfg.pageSize + n ≤ cfg.pageSize) :
    ∃ s', readSpan cr cfg env (s, out) cursor n = some (s', out ++ a.field cursor n) ∧ Represents cr cfg s' a := by
  obtain ⟨p, hpid, hp, hcursor⟩ := pageIdForOffset_some hps hlast (show cursor < sizeBytes cfg by omega)
  obtain ⟨s', bytes, hs', h', hbytes⟩ := h.acquirePage env hp hblock
  rw [hcursor] at hbytes
  exact ⟨s', by rw [PageCache.readSpan, hpid, bind_some, hs', map_some, hbytes], h'⟩

theorem Represents.readBytes (h : Represents cr cfg s a) (hr : off + len ≤ sizeBytes cfg) :
    ∃ s', readBytes cr cfg env s off len = some (s', a.field off len) ∧ Represents cr cfg s' a := by
  have hloop := Spans.spans_inv hps (PageCache.readSpan cr cfg env)
    (fun cursor x => ∃ k, cursor = off + k ∧ x.2 = a.field off k ∧ Represents cr cfg x.1 a) (off + len)
    (by
      rintro ⟨s1, out⟩ cursor n hn hstop hblock ⟨k, rfl, hout, h1⟩
      obtain ⟨s2, hs2, h2⟩ := h1.readSpan env hps hlast out hn (by omega) hblock
      refine ⟨_, hs2, k + n, Nat.add_assoc _ _ _, ?_, h2⟩
      rw [← field_append]
      exact congrArg (· ++ _) hout)
    len off len (s, []) (Nat.le_refl _) rfl ⟨0, rfl, (field_zero a off).symm, h⟩
  obtain ⟨⟨s', out⟩, hrun, k, hk, hout, h'⟩ := hloop
  obtain rfl : k = len := by omega
  subst hout
  exact ⟨s', hrun, h'⟩

theorem Represents.writeSpan (h : Represents cr cfg s a) {data : Bytes} {k : Nat} (hn : 0 < n)
    (hk : k + n ≤ data.length) (hr : off + data.length ≤ sizeBytes cfg)
    (hblock : (off + k) % cfg.pageSize + n ≤ cfg.pageSize) :
    ∃ s', writeSpan cr cfg env off data s (off + k) n = some s' ∧
      Represents cr cfg s' (splice a (off + k) (data.field k n)) := by
  obtain ⟨p, hpid, hp, hcursor⟩ := pageIdForOffset_some hps hlast (show off + k < sizeBytes cfg by omega)
  have hslice : (data.field k n).length = n := length_field hk
  rw [PageCache.writeSpan, hpid, bind_some, Nat.add_sub_cancel_left]
  split
  · next hfull =>
    rw [hfull.1, Nat.add_zero] at hcursor
    obtain ⟨s', hs', h'⟩ := h.holds.installFullPage env hp (hslice.trans hfull.2)
    refine ⟨s', hs', ?_⟩
    rw [← hcursor]
    exact h.replaced hp (hslice.trans hfull.2) h'
  · obtain ⟨s', hs', h'⟩ := h.holds.modifyPage env hp (by rw [hslice]; exact hblock)
    refine ⟨s', hs', ?_⟩
    rw [← hcursor]
    exact h.spliced hp (by rw [hslice]; exact hblock) h'

theorem Represents.writeBytes (h : Represents cr cfg s a) {data : Bytes} (hr : off + data.length ≤ sizeBytes cfg) :
    ∃ s', writeBytes cr cfg env s off data = some s' ∧ Represents cr cfg s' (splice a off data) := by
  have hloop := Spans.spans_inv hps (PageCache.writeSpan cr cfg env off data)
    (fun cursor s => ∃ k, cursor = off + k ∧ Represents cr cfg s (splice a off (data.field 0 k))) (off + data.length)
    (by
      rintro s1 cursor n hn hstop hblock ⟨k, rfl, h1⟩
      obtain ⟨s2, hs2, h2⟩ := h1.writeSpan env hps hlast hn (by omega) hr hblock
      refine ⟨s2, hs2, k + n, Nat.add_assoc _ _ _, ?_⟩
      have hlen : (data.field 0 k).length = k := length_field (by omega)
      have hlen' : (data.field k n).length = n := length_field (by omega)
      have hsize := h.length
      rw [← field_append, Nat.zero_add, ← splice_splice (by omega), hlen]
      exact h2)
    data.length off data.length s (Nat.le_refl _) rfl ⟨0, rfl, by rwa [field_zero, splice_nil]⟩
  obtain ⟨s', hrun, k, hk, h'⟩ := hloop
  obtain rfl : k = data.length := by omega
  rw [show data.field 0 data.length = data from take_length] at h'
  exact ⟨s', hrun, h'⟩

theorem Represents.compareSpan (h : Represents cr cfg s a) {k : Nat} (hn : 0 < n) (hstop : off + k + n ≤ sizeBytes cfg)
    (hblock : (off + k) % cfg.pageSize + n ≤ cfg.pageSize) :
    ∃ s', compareSpan cr cfg env off expected (s, true) (off + k) n =
      some (s', decide (a.field (off + k) n = expected.field k n)) ∧ Represents cr cfg s' a := by
  obtain ⟨p, hpid, hp, hcursor⟩ := pageIdForOffset_some hps hlast (show off + k < sizeBytes cfg by omega)
  obtain ⟨s', bytes, hs', h', hbytes⟩ := h.acquirePage env hp hblock
  rw [hcursor] at hbytes
  refine ⟨s', ?_, h'⟩
  rw [PageCache.compareSpan, if_pos rfl, hpid, bind_some, hs', map_some, Nat.add_sub_cancel_left, hbytes]

theorem Represents.comparePhase (h : Represents cr cfg s a) (hr : off + expected.length ≤ sizeBytes cfg) :
    ∃ s', Spans.spans cfg.pageSize (PageCache.compareSpan cr cfg env off expected) expected.length off expected.length
        (s, true) = some (s', decide (a.field off expected.length = expected)) ∧ Represents cr cfg s' a := by
  have hsize := h.length
  have hloop := Spans.spans_inv hps (PageCache.compareSpan cr cfg env off expected)
    (fun cursor x => ∃ k, cursor = off + k ∧ x.2 = decide (a.field off k = expected.field 0 k) ∧ Represents cr cfg x.1 a)
    (off + expected.length)
    (by
      rintro ⟨s1, ok⟩ cursor n hn hstop hblock ⟨k, rfl, hok, h1⟩
      -- both sides are `k` bytes and then `n` bytes, so they agree iff both parts do
      have hsplit : a.field off (k + n) = expected.field 0 (k + n) ↔
          a.field off k = expected.field 0 k ∧ a.field (off + k) n = expected.field k n := by
        rw [← field_append, ← field_append, Nat.zero_add]
        refine ⟨fun he => append_inj he ?_, fun ⟨h1, h2⟩ => by rw [h1, h2]⟩
        rw [length_field (by omega), length_field (by omega)]
      cases ok with
      | false =>
        refine ⟨_, rfl, k + n, Nat.add_assoc _ _ _, ?_, h1⟩
        exact (decide_eq_false (fun he => of_decide_eq_false hok.symm (hsplit.1 he).1)).symm
      | true =>
        obtain ⟨s2, hs2, h2⟩ := h1.compareSpan env hps hlast hn (by omega) hblock
        refine ⟨_, hs2, k + n, Nat.add_assoc _ _ _, decide_eq_decide.2 ?_, h2⟩
        rw [hsplit]
        exact ⟨fun he => ⟨of_decide_eq_true hok.symm, he⟩, fun he => he.2⟩)
    expected.length off expected.length (s, true) (Nat.le_refl _) rfl ⟨0, rfl, by simp, h⟩
  obtain ⟨⟨s', ok⟩, hrun, k, hk, hok, h'⟩ := hloop
  obtain rfl : k = expected.length := by omega
  rw [show expected.field 0 expected.length = expected from take_length] at hok
  subst hok
  exact ⟨s', hrun, h'⟩

theorem Represents.compareAndWriteBytes (h : Represents cr cfg s a) {new : Bytes}
    (hr : off + expected.length ≤ sizeBytes cfg) (hlen : new.length = expected.length) :
    ∃ s', compareAndWriteBytes cr cfg env s off expected new = some (s', decide (a.field off expected.length = expected)) ∧
      Represents cr cfg s' (if a.field off expected.length = expected then splice a off new else a) := by
  unfold PageCache.compareAndWriteBytes
  split
  · next hnil =>
    subst hnil
    obtain rfl : new = [] := length_eq_zero_iff.1 hlen
    refine ⟨s, by simp, ?_⟩
    rw [if_pos (by simp), splice_nil]
    exact h
  · obtain ⟨s1, hs1, h1⟩ := h.comparePhase env hps hlast hr
    rw [hs1, bind_some]
    by_cases heq : a.field off expected.length = expected
    · obtain ⟨s2, hs2, h2⟩ := h1.writeBytes env hps hlast (show off + new.length ≤ sizeBytes cfg by omega)
      refine ⟨s2, ?_, by rwa [if_pos heq]⟩
      rw [if_pos (decide_eq_true heq), hs2, decide_eq_true heq]
      rfl
    · refine ⟨s1, ?_, by rwa [if_neg heq]⟩
      rw [if_neg (by simp [heq])]

theorem Represents.unmapSpan (h : Represents cr cfg s a) (cleared : Bool) (hn : 0 < n)
    (hstop : cursor + n ≤ sizeBytes cfg) (hblock : cursor % cfg.pageSize + n ≤ cfg.pageSize) :
    ∃ s' cleared', unmapSpan cr cfg env (s, cleared) cursor n = some (s', cleared') ∧
      Represents cr cfg s' (splice a cursor (List.replicate n 0)) := by
  obtain ⟨p, hpid, hp, hcursor⟩ := pageIdForOffset_some hps hlast (show cursor < sizeBytes cfg by omega)
  rw [PageCache.unmapSpan, hpid, bind_some]
  split
  · next hfull =>
    rw [hfull.1, Nat.add_zero] at hcursor
    refine ⟨_, true, rfl, ?_⟩
    rw [← hcursor, hfull.2]
    exact h.replaced hp length_replicate (h.holds.unmapFullPage p)
  · have hlen : cursor % cfg.pageSize + (replicate n (0 : UInt8)).length ≤ cfg.pageSize := by
      rwa [length_replicate]
    obtain ⟨s', hs', h'⟩ := h.holds.modifyPage env hp hlen
    refine ⟨s', cleared, by rw [hs']; rfl, ?_⟩
    rw [← hcursor]
    exact h.spliced hp hlen h'

theorem Represents.unmapBytes (h : Represents cr cfg s a) (hr : off + len ≤ sizeBytes cfg) :
    ∃ s', unmapBytes cr cfg env s off len = some s' ∧ Represents cr cfg s' (splice a off (List.replicate len 0)) := by
  have hloop := Spans.spans_inv hps (PageCache.unmapSpan cr cfg env)
    (fun cursor x => ∃ k, cursor = off + k ∧ Represents cr cfg x.1 (splice a off (replicate k 0))) (off + len)
    (by
      rintro ⟨s1, cleared⟩ cursor n hn hstop hblock ⟨k, rfl, h1⟩
      obtain ⟨s2, cleared', hs2, h2⟩ := h1.unmapSpan env hps hlast cleared hn (by omega) hblock
      refine ⟨_, hs2, k + n, Nat.add_assoc _ _ _, ?_⟩
      have hsize := h.length
      have hlen : (replicate k (0 : UInt8)).length = k := length_replicate
      rw [replicate_add, ← splice_splice (by simp only [length_replicate]; omega), hlen]
      exact h2)
    len off len (s, false) (Nat.le_refl _) rfl ⟨0, rfl, by rwa [replicate_zero, splice_nil]⟩
  obtain ⟨⟨s', cleared⟩, hrun, k, hk, h'⟩ := hloop
  obtain rfl : k = len := by omega
  rw [PageCache.unmapBytes, hrun]
  refine ⟨_, rfl, h'.length, ?_⟩
  dsimp only
  split
  · exact h'.holds.frame rfl (fun _ => rfl) rfl rfl
  · exact h'.holds

omit hps hlast in
theorem Represents.clonePages {src dst pages : Nat} (hsrc : src + pages ≤ cfg.lastPageId + 1)
    (hdst : dst + pages ≤ cfg.lastPageId + 1) (hlast : cfg.lastPageId < UInt32.size)
    (hdisj : src + pages ≤ dst ∨ dst + pages ≤ src) (ha : a.length = sizeBytes cfg) :
    ∀ (m i : Nat) {s : PageCache H}, i + m = pages →
      Represents cr cfg s (splice a (dst * cfg.pageSize) (a.field (src * cfg.pageSize) (i * cfg.pageSize))) →
      ∃ s', clonePages cr cfg env ((List.range' i m).map (fun i => (src + i, dst + i))) s = some s' ∧
        Represents cr cfg s' (splice a (dst * cfg.pageSize) (a.field (src * cfg.pageSize) (pages * cfg.pageSize)))
  | 0, i, s, hi, h => ⟨s, rfl, by rwa [show pages = i by omega]⟩
  | m + 1, i, s, hi, h => by
    have hs : (UInt32.ofNat (src + i)).toNat = src + i := UInt32.toNat_ofNat_of_lt' (by omega)
    have hd : (UInt32.ofNat (dst + i)).toNat = dst + i := UInt32.toNat_ofNat_of_lt' (by omega)
    have hs' : (UInt32.ofNat (src + i)).toNat ≤ cfg.lastPageId := by omega
    have hd' : (UInt32.ofNat (dst + i)).toNat ≤ cfg.lastPageId := by omega
    have hle : ∀ x y, x ≤ y → x * cfg.pageSize ≤ y * cfg.pageSize := fun x y hxy => Nat.mul_le_mul_right _ hxy
    have hsize : sizeBytes cfg = (cfg.lastPageId + 1) * cfg.pageSize := rfl
    have hsrc' := hle (src + i + 1) (cfg.lastPageId + 1) (by omega)
    have hdst' := hle (dst + i + 1) (cfg.lastPageId + 1) (by omega)
    simp only [Nat.add_mul, Nat.one_mul] at hsrc' hdst' hsize
    have hcopied : (a.field (src * cfg.pageSize) (i * cfg.pageSize)).length = i * cfg.pageSize :=
      length_field (by omega)
    obtain ⟨s1, hs1, h1⟩ := h.holds.cloneOnePage env hs' hd'
    -- the source page is still the one of the array before the clone
    have hpage : pageOf cfg (splice a (dst * cfg.pageSize) (a.field (src * cfg.pageSize) (i * cfg.pageSize)))
        (UInt32.ofNat (src + i)) = a.field (src * cfg.pageSize + i * cfg.pageSize) cfg.pageSize := by
      rw [pageOf, hs, Nat.add_mul]
      refine field_splice_of_disjoint (by omega) ?_
      rw [hcopied]
      rcases hdisj with hdisj | hdisj
      · left
        have := hle (src + i + 1) dst (by omega)
        simp only [Nat.add_mul, Nat.one_mul] at this
        exact this
      · right
        have := hle (dst + i) (src + i) (by omega)
        simp only [Nat.add_mul] at this
        omega
    rw [hpage] at h1
    have h2 := h.replaced hd' (length_field (by omega)) h1
    rw [hd, Nat.add_mul] at h2
    have hroom : dst * cfg.pageSize + (a.field (src * cfg.pageSize) (i * cfg.pageSize)).length +
        (a.field (src * cfg.pageSize + i * cfg.pageSize) cfg.pageSize).length ≤ a.length := by
      rw [hcopied, length_field (by omega)]
      omega
    have hgrow := splice_splice hroom
    rw [hcopied, field_append, ← Nat.succ_mul] at hgrow
    rw [hgrow] at h2
    obtain ⟨s2, hs2, h3⟩ := Represents.clonePages hsrc hdst hlast hdisj ha m (i + 1) (by omega) h2
    refine ⟨s2, ?_, h3⟩
    rw [range'_succ, map_cons, PageCache.clonePages, if_pos (by omega), hs1]
    exact hs2

theorem Represents.clonePageRange (h : Represents cr cfg s a) {src dst : Nat} (hsrc : cfg.pageSize ∣ src)
    (hdst : cfg.pageSize ∣ dst) (hlen : cfg.pageSize ∣ len) (hs : src + len ≤ sizeBytes cfg)
    (hd : dst + len ≤ sizeBytes cfg) (hdisj : src + len ≤ dst ∨ dst + len ≤ src) :
    ∃ s', clonePageRange cr cfg env s src dst len = some s' ∧
      Represents cr cfg s' (splice a dst (a.field src len)) := by
  obtain ⟨x, rfl⟩ := hsrc
  obtain ⟨y, rfl⟩ := hdst
  obtain ⟨n, rfl⟩ := hlen
  rw [PageCache.clonePageRange, Nat.mul_div_cancel_left _ hps, Nat.mul_div_cancel_left _ hps,
    Nat.mul_div_cancel_left _ hps, range_eq_range']
  simp only [← Nat.mul_add, sizeBytes, Nat.mul_comm _ cfg.pageSize, Nat.mul_le_mul_left_iff hps] at hs hd hdisj
  have := Represents.clonePages env hs hd hlast hdisj h.length n 0 (s := s) (Nat.zero_add n)
    (by rw [Nat.zero_mul, field_zero, splice_nil]; exact h)
  simp only [Nat.mul_comm _ cfg.pageSize] at this
  exact this

theorem Represents.op (h : Represents cr cfg s a) {op : BlockOp} (hop : op.InRange cfg) :
    ∃ s', op.onCache cr cfg env s = some (s', (op.onFlat a).2) ∧ Represents cr cfg s' (op.onFlat a).1 := by
  cases op with
  | readBytes =>
    obtain ⟨s', hs', h'⟩ := h.readBytes env hps hlast hop
    exact ⟨s', by rw [BlockOp.onCache, hs']; rfl, h'⟩
  | writeBytes =>
    obtain ⟨s', hs', h'⟩ := h.writeBytes env hps hlast hop
    exact ⟨s', by rw [BlockOp.onCache, hs']; rfl, h'⟩
  | compareAndWriteBytes off expected new =>
    obtain ⟨s', hs', h'⟩ := h.compareAndWriteBytes env hps hlast hop.1 hop.2
    refine ⟨s', ?_, ?_⟩
    · rw [BlockOp.onCache, hs', BlockOp.onFlat]
      split
      · next heq => rw [decide_eq_true heq]; rfl
      · next hne => rw [decide_eq_false hne]; rfl
    · rw [BlockOp.onFlat]
      split
      · next heq => rwa [if_pos heq] at h'
      · next hne => rwa [if_neg hne] at h'
  | unmapBytes =>
    obtain ⟨s', hs', h'⟩ := h.unmapBytes env hps hlast hop
    exact ⟨s', by rw [BlockOp.onCache, hs']; rfl, h'⟩
  | clonePageRange =>
    obtain ⟨hsrc, hdst, hlen, hs, hd, hdisj⟩ := hop
    obtain ⟨s', hs', h'⟩ := h.clonePageRange env hps hlast hsrc hdst hlen hs hd hdisj
    exact ⟨s', by rw [BlockOp.onCache, hs']; rfl, h'⟩
  | flushPagesInRange first last =>
    obtain ⟨s', hs', h'⟩ := h.holds.flushPagesInRange env first last
    exact ⟨s', by rw [BlockOp.onCache, hs']; rfl, h.length, h'⟩
  | flushAll =>
    obtain ⟨s', hs', h'⟩ := h.holds.flushPagesInRange env 0 (UInt32.ofNat (UInt32.size - 1))
    exact ⟨s', by rw [BlockOp.onCache, PageCache.flushAll, hs']; rfl, h.length, h'⟩
  | evictToFit wanted =>
    obtain ⟨s', hs', h'⟩ := h.holds.evictToFit env wanted
    exact ⟨s', by rw [BlockOp.onCache, hs']; rfl, h.length, h'⟩

theorem Represents.run : ∀ (ops : List BlockOp) {s : PageCache H} {a : Bytes}, Represents cr cfg s a →
    (∀ op ∈ ops, op.InRange cfg) →
    ∃ s', BlockOp.runCache cr cfg env ops s = some (s', (BlockOp.runFlat ops a).2) ∧
      Represents cr cfg s' (BlockOp.runFlat ops a).1
  | [], s, _, h, _ => ⟨s, rfl, h⟩
  | op :: ops, s, a, h, hops => by
    obtain ⟨s1, hs1, h1⟩ := h.op env hps hlast (hops op mem_cons_self)
    obtain ⟨s2, hs2, h2⟩ := Represents.run ops h1 fun op' ho => hops op' (mem_cons_of_mem op ho)
    refine ⟨s2, ?_, h2⟩
    rw [BlockOp.runCache, hs1, bind_some, hs2]
    rfl

end Ops

/-! ## The volume from its creation on -/

def created (upload : UploadIndexFile) (pool : ChunkPool H) : PageCache H := ⟨CacheState.opened default upload pool, 0⟩

theorem pageOf_zeros (hp : p.toNat ≤ cfg.lastPageId) :
    pageOf cfg (List.replicate (sizeBytes cfg) 0) p = List.replicate cfg.pageSize 0 := by
  have hfit := mul_add_le_sizeBytes hp
  rw [pageOf, field, drop_replicate, take_replicate, Nat.min_eq_left (by omega)]

omit [DecidableEq H] in
theorem represents_created (upload : UploadIndexFile) {pool : ChunkPool H} (hpool : PoolOk cr pool) :
    Represents cr cfg (created upload pool) (List.replicate (sizeBytes cfg) 0) where
  length := length_replicate
  holds :=
    { pool := hpool
      dirty := CacheInner.DirtyExact.new
      length := fun p hp => by rw [pageOf_zeros hp, length_replicate]
      cached := fun p v hv => by cases hv
      stored := fun p hp _ => by
        rw [pageOf_zeros hp]
        rfl }

/-- **Sequential refinement.** Any operations inside the volume, on a cache of any budget, all return, and reads and
verdicts are those of a flat array of zeros. -/
theorem flat_refinement (cr : Crates H) (cfg : VolumeConfig) (env : Environment) (upload : UploadIndexFile)
    (pool : ChunkPool H) (hpool : PoolOk cr pool) (hps : 0 < cfg.pageSize) (hlast : cfg.lastPageId < UInt32.size)
    (ops : List BlockOp) (hops : ∀ op ∈ ops, op.InRange cfg) :
    ∃ s, BlockOp.runCache cr cfg env ops (created upload pool) =
      some (s, (BlockOp.runFlat ops (List.replicate (sizeBytes cfg) 0)).2) := by
  obtain ⟨s, hs, -⟩ := (represents_created upload hpool).run env hps hlast ops hops
  exact ⟨s, hs⟩

def stripedVolume : VolumeConfig :=
  { pageSize := 2, lastPageId := 2, encryptionKey := some [1], dekUuid := [2], syncAfter := .disk, budgetPages := 1,
    maxConcurrentFlushes := 2 }

def Environment.still : Environment := ⟨fun n => UInt64.ofNat n, fun n => n, fun _ u => u, fun _ l => l, fun _ _ => .refl _⟩

def stripedRun : List BlockOp :=
  [.writeBytes 1 [7, 8, 9], .evictToFit 1, .clonePageRange 0 4 2, .readBytes 0 6, .compareAndWriteBytes 3 [8] [5], .flushAll,
    .compareAndWriteBytes 3 [9, 0] [5, 6], .unmapBytes 1 3, .flushPagesInRange 0 1, .readBytes 0 6]

theorem flat_refinement_stripedRun :
    ∃ s, BlockOp.runCache Crates.plain stripedVolume Environment.still stripedRun (created default (fun _ => none)) =
      some (s, [.done, .done, .done, .bytes [0, 7, 8, 9, 0, 7], .verdict false, .done, .verdict true, .done, .done,
        .bytes [0, 0, 0, 0, 6, 7]]) :=
  flat_refinement Crates.plain stripedVolume Environment.still default (fun _ => none) (fun _ _ h => by cases h)
    (by decide) (by decide) stripedRun (by decide)

end PageCache
end Thur

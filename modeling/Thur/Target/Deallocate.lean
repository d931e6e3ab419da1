import Mathlib.Data.List.TakeWhile
import Thur.Target.Mediation
/-!
# Deallocate — UNMAP and Dataset Management

UNMAP resolves all its ranges before it deallocates the first one; Dataset Management resolves each as it comes to it.
-/
namespace Thur.Deallocate

open CacheInner Scsi Submission Function List

abbrev Spans := List (Nat × Nat)

variable {w : World} {lun : Lun} {lu : LogicalUnit} {k : Nat} {spans spans' : Spans} {ops ops' : List BlockOp}

def Covers (spans : Spans) (k : Nat) : Prop := ∃ s ∈ spans, s.1 ≤ k ∧ k < s.1 + s.2

@[simp] theorem not_covers_nil : ¬ Covers [] k := by simp [Covers]

@[simp] theorem covers_cons {s : Nat × Nat} : Covers (s :: spans) k ↔ (s.1 ≤ k ∧ k < s.1 + s.2) ∨ Covers spans k := by
  simp [Covers, or_and_right, exists_or]

theorem covers_append : Covers (spans ++ spans') k ↔ Covers spans k ∨ Covers spans' k := by
  simp [Covers, or_and_right, exists_or]

/-- The listed bytes are zeros, and no other byte of any unit differs. -/
structure Deallocated (x x' : Exec) (lun : Lun) (spans : Spans) : Prop where
  zero : ∀ k, Covers spans k → (x'.target.content lun)[k]? = some 0
  frame : ∀ l k, (l = lun → ¬ Covers spans k) → (x'.target.content l)[k]? = (x.target.content l)[k]?

theorem deallocated_of_mutateAll : ∀ (spans : Spans) {x x' : Exec},
    (∀ s ∈ spans, s.1 + s.2 ≤ (x.target.content lun).length) →
    x.mutateAll w lun (spans.map (fun s => .unmapBytes s.1 s.2)) = (x', none) → Deallocated x x' lun spans
  | [], x, x', _, h => by
    cases h
    exact ⟨by simp, fun _ _ _ => rfl⟩
  | s :: spans, x, x', hin, h => by
    have hs : s.1 + (replicate s.2 (0 : UInt8)).length ≤ (x.target.content lun).length := by
      simpa using hin s mem_cons_self
    simp only [map_cons, Exec.mutateAll, Exec.mutate] at h
    cases hf : w.fault x.calls with
    | some e => simp [hf] at h
    | none =>
      simp only [hf, BlockOp.onFlat] at h
      have hset : ∀ c, (x.setContent lun c).target.content = update x.target.content lun c := fun _ => rfl
      obtain ⟨hzero, hframe⟩ := deallocated_of_mutateAll spans
        (fun s' hs' => by rw [hset, update_self, PageCache.length_splice hs]; exact hin s' (.tail _ hs')) h
      refine ⟨fun k hk => ?_, fun l k hk => ?_⟩
      · by_cases hrest : Covers spans k
        · exact hzero k hrest
        · have hk := (covers_cons.1 hk).resolve_right hrest
          rw [hframe lun k (fun _ => hrest), hset, update_self, getElem?_splice hs, if_pos (by simpa using hk),
            getElem?_replicate, if_pos (by omega)]
      · rw [covers_cons, not_or] at hk
        rw [hframe l k (fun hl => (hk hl).2), hset]
        by_cases hl : l = lun
        · subst hl
          rw [update_self, getElem?_splice hs, if_neg (by simpa using (hk rfl).1)]
        · rw [update_of_ne hl]

/-- The calls deallocate the bytes of `spans`, in whatever pieces. -/
def Plans (lu : LogicalUnit) (ops : List BlockOp) (spans : Spans) : Prop :=
  ∃ done : Spans, ops = done.map (fun s => .unmapBytes s.1 s.2) ∧ (∀ s ∈ done, s.1 + s.2 ≤ lu.size.1.toNat) ∧
    ∀ k, Covers done k ↔ Covers spans k

theorem Plans.nil : Plans lu [] [] := ⟨[], rfl, by simp, fun _ => .rfl⟩

theorem Plans.cons {s : Nat × Nat} (h : Plans lu ops [s]) (h' : Plans lu ops' spans') :
    Plans lu (ops ++ ops') (s :: spans') := by
  obtain ⟨done, rfl, hin, hk⟩ := h
  obtain ⟨done', rfl, hin', hk'⟩ := h'
  refine ⟨done ++ done', by simp, fun s hs => (mem_append.1 hs).elim (hin s) (hin' s), fun k => ?_⟩
  rw [covers_append, hk, hk']
  simp

theorem Plans.deallocated {x x' : Exec} (h : Plans lu ops spans)
    (hlen : (x.target.content lun).length = lu.size.1.toNat) (hrun : x.mutateAll w lun ops = (x', none)) :
    Deallocated x x' lun spans := by
  obtain ⟨done, rfl, hin, hk⟩ := h
  obtain ⟨hzero, hframe⟩ := deallocated_of_mutateAll done (hlen ▸ hin) hrun
  exact ⟨fun k h => hzero k ((hk k).2 h), fun l k h => hframe l k (fun hl hd => h hl ((hk k).1 hd))⟩

theorem plans_windows {size : Nat} (hs : 0 < size) : ∀ (fuel off len : Nat), len ≤ fuel → off + len ≤ lu.size.1.toNat →
    Plans lu ((windows size fuel off len).map (fun s => .unmapBytes s.1 s.2)) [(off, len)]
  | fuel, off, 0, _, _ => ⟨[], by cases fuel <;> rfl, by simp, by simp⟩
  | 0, _, len + 1, h, _ => by omega
  | fuel + 1, off, len + 1, h, hin => by
    have hle : min (len + 1) size ≤ len + 1 := Nat.min_le_left ..
    have hpos : 0 < min (len + 1) size := by omega
    rw [windows]
    generalize min (len + 1) size = m at *
    obtain ⟨done, hdone, hfit, hk⟩ := plans_windows hs fuel (off + m) (len + 1 - m) (by omega) (by omega)
    refine ⟨(off, m) :: done, by simp [hdone], ?_, fun k => ?_⟩
    · simpa using ⟨by omega, fun a b hab => hfit (a, b) hab⟩
    · simp only [covers_cons, hk, not_covers_nil, or_false]
      omega

variable {p : Bytes}

def span (lu : LogicalUnit) (lba blocks : UInt64) : Nat × Nat := (lba.toNat * lu.sector, blocks.toNat * lu.sector)

theorem resolveRange_eq (lba blocks : UInt64) : lu.resolveRange lba blocks =
    if inRange lu lba blocks then .ok (span lu lba blocks) else .error .outOfRange := by
  have hs : lu.manifest.sector ≠ 0 := lu.manifest.sector_pos.ne'
  unfold LogicalUnit.resolveRange VolumeManifest.resolveRange inRange LogicalUnit.totalBlocks span LogicalUnit.sector
  grind

theorem span_le {lba blocks : UInt64} (h : inRange lu lba blocks = true) :
    (span lu lba blocks).1 + (span lu lba blocks).2 ≤ lu.size.1.toNat :=
  (VolumeManifest.resolveRange_ok ((resolveRange_eq lba blocks).trans (if_pos h))).2.2

def unmapSpan (lu : LogicalUnit) (p : Bytes) (i : Nat) : Nat × Nat :=
  span lu (beField p (8 + i * 16) 8) (beField p (8 + i * 16 + 8) 4)

theorem plans_unmapRanges : ∀ (is : List Nat) {ops : List BlockOp}, unmapRanges lu p is = .ok ops →
    Plans lu ops (is.map (unmapSpan lu p))
  | [], ops, h => by
    cases h
    exact .nil
  | i :: is, ops, h => by
    rw [unmapRanges] at h
    by_cases hz : beField p (8 + i * 16 + 8) 4 = 0
    · rw [if_pos hz] at h
      exact Plans.cons ⟨[], rfl, by simp, by simp [unmapSpan, span, hz]⟩ (plans_unmapRanges is h)
    · rw [if_neg hz, resolveRangeSense, resolveRange_eq] at h
      split_ifs at h with hin
      cases hrest : unmapRanges lu p is with
      | error e => simp [hrest, Except.map] at h
      | ok ops' =>
        rw [hrest] at h
        cases h
        exact Plans.cons ⟨[unmapSpan lu p i], rfl, by simpa [unmapSpan] using span_le hin, fun _ => .rfl⟩
          (plans_unmapRanges is hrest)

/-- With whether the range is inside the volume. -/
def dsmSpan (lu : LogicalUnit) (p : Bytes) (i : Nat) : (Nat × Nat) × Bool :=
  let slba := UInt64.ofNat (p.field (i * 16 + 8) 8).leNat
  let nlb := UInt64.ofNat (p.field (i * 16 + 4) 4).leNat
  (span lu slba nlb, inRange lu slba nlb)

theorem dsmRanges_cons (i : Nat) (is : List Nat) : Nvme.dsmRanges lu p (i :: is) =
    if (dsmSpan lu p i).2 then
      ((windows Nvme.dsmYieldWindowBytes (dsmSpan lu p i).1.2 (dsmSpan lu p i).1.1 (dsmSpan lu p i).1.2).map
        (fun x => .unmapBytes x.1 x.2) ++ (Nvme.dsmRanges lu p is).1, (Nvme.dsmRanges lu p is).2)
    else ([], .lbaOutOfRange) := by
  rw [Nvme.dsmRanges, Nvme.resolveRange, resolveRange_eq, dsmSpan]
  dsimp only
  split_ifs <;> rfl

/-- The ranges in front of the first one outside the volume are deallocated. -/
theorem plans_dsmRanges : ∀ (is : List Nat),
    Plans lu (Nvme.dsmRanges lu p is).1 ((is.takeWhile (fun i => (dsmSpan lu p i).2)).map (fun i => (dsmSpan lu p i).1)) ∧
      (Nvme.dsmRanges lu p is).2 = if ∀ i ∈ is, (dsmSpan lu p i).2 = true then .success else .lbaOutOfRange
  | [] => ⟨.nil, rfl⟩
  | i :: is => by
    rw [dsmRanges_cons]
    by_cases hin : (dsmSpan lu p i).2 = true
    · obtain ⟨hplans, hstatus⟩ := plans_dsmRanges is
      rw [if_pos hin, takeWhile_cons_of_pos (p := fun i => (dsmSpan lu p i).2) hin]
      refine ⟨Plans.cons (plans_windows (by decide) _ _ _ le_rfl (span_le hin)) hplans, hstatus.trans ?_⟩
      simp [hin]
    · rw [if_neg hin, takeWhile_cons_of_neg (p := fun i => (dsmSpan lu p i).2) hin]
      exact ⟨.nil, by simp [hin]⟩

theorem mutateAll_calm : ∀ (ops : List BlockOp) (x : Exec), ∃ x', x.mutateAll calm lun ops = (x', none)
  | [], x => ⟨x, rfl⟩
  | _ :: ops, _ => mutateAll_calm ops _

/-- On a volume of other bytes a range that is not empty is seen to go. -/
theorem Plans.seen (h : Plans lu ops spans) (x : Exec) (lun : Lun) {s : Nat × Nat} (hs : s ∈ spans) (hne : s.2 ≠ 0) :
    let y := x.setContent lun (replicate lu.size.1.toNat 7)
    ∃ x', y.mutateAll calm lun ops = (x', none) ∧ x'.target.content ≠ y.target.content := by
  intro y
  obtain ⟨x', hx'⟩ := @mutateAll_calm lun ops y
  refine ⟨x', hx', fun heq => ?_⟩
  have hd := h.deallocated (by simp [y, Exec.setContent]) hx'
  have hzero := hd.zero s.1 ⟨s, hs, le_rfl, by omega⟩
  rw [heq] at hzero
  simp [y, Exec.setContent, getElem?_replicate] at hzero

theorem Deallocated.unchanged {x x' : Exec} (h : Deallocated x x' lun spans) (hs : ∀ s ∈ spans, s.2 = 0) :
    x'.target.content = x.target.content := by
  funext l
  refine ext_getElem? fun k => h.frame l k fun _ => ?_
  rintro ⟨s, hmem, hk⟩
  have := hs s hmem
  omega

/-- A command that fails on a range changes nothing; one that succeeds deallocates its ranges. -/
def AllOrNothing (x x' : Exec) (lun : Lun) (spans : Spans) (outOfRange good : Prop) : Prop :=
  (outOfRange → x'.target.content = x.target.content) ∧ (good → Deallocated x x' lun spans)

def unmapSpans (req : ScsiRequest) (lu : LogicalUnit) : Spans :=
  let p : Bytes := req.dataOut.take (req.cdb.field 7 2).beNat
  (range ((p.field 2 2).beNat / 16)).map (unmapSpan lu p)

def dsmIndices (cmd : IoCommand) : List Nat := range ((cmd.sqe.cdw10 &&& 0xFF).toNat + 1)

theorem refused {x : Exec} {outOfRange good : Prop} (h : ¬ good) : AllOrNothing x x lun spans outOfRange good :=
  ⟨fun _ => rfl, fun hg => (h hg).elim⟩

theorem unmap_allOrNothing (persist : Option EntityResolver) {x : Exec} {req : ScsiRequest} {res : ReservationManager}
    (hlen : (x.target.content req.lun).length = lu.size.1.toNat) : let r := run persist w x (unmap req (some lu) res)
    AllOrNothing x r.1 req.lun (unmapSpans req lu) (r.2 = .check .lbaOutOfRange) (r.2 = .good []) := by
  unfold unmap gateWrite orCheck
  dsimp only
  iterate 4
    split
    · exact refused fun h => by cases h
  split
  · next h0 =>
    refine ⟨fun _ => rfl, fun _ => ⟨fun k hk => ?_, fun _ _ _ => rfl⟩⟩
    rw [unmapSpans, h0, take_zero] at hk
    exact (not_covers_nil hk).elim
  iterate 4
    split
    · exact refused fun h => by cases h
  split
  · next ops hops =>
    rw [run]
    split
    · next e hrun => cases e.kind <;> exact ⟨fun h => (by cases h), fun h => (by cases h)⟩
    · next hrun => exact ⟨fun h => (by cases h), fun _ => (plans_unmapRanges _ hops).deallocated hlen hrun⟩
  · exact refused fun h => by cases h

/-- **UNMAP and Dataset Management are all or nothing on range errors**, the latter exactly if its ranges are inside the
volume or those in front of the first one outside it are empty. -/
theorem deallocate_all_or_nothing (persist : Option EntityResolver) (x : Exec) :
    (∀ w req lu res, (x.target.content req.lun).length = lu.size.1.toNat →
      let r := run persist w x (unmap req (some lu) res)
      AllOrNothing x r.1 req.lun (unmapSpans req lu) (r.2 = .check .lbaOutOfRange) (r.2 = .good [])) ∧
    ∀ lun cmd lu payload, cmd.sqe.cdw11 &&& 0x4 ≠ 0 → cmd.dataOut = some payload →
      ((∀ w c, c.length = lu.size.1.toNat →
        let x := x.setContent lun c
        let r := Nvme.run persist w x (Nvme.cmdDsm lun cmd lu)
        AllOrNothing x r.1 lun ((dsmIndices cmd).map (fun i => (dsmSpan lu payload i).1)) (r.2.status = .lbaOutOfRange)
          (r.2.status = .success)) ↔
      lu.manifest.worm = true ∨ payload.length ≠ (dsmIndices cmd).length * 16 ∨
        (∀ i ∈ dsmIndices cmd, (dsmSpan lu payload i).2 = true) ∨
        ∀ i ∈ (dsmIndices cmd).takeWhile (fun i => (dsmSpan lu payload i).2), (dsmSpan lu payload i).1.2 = 0) := by
  refine ⟨fun w req lu res hlen => unmap_allOrNothing persist hlen, fun lun cmd lu payload had hp => ?_⟩
  rw [dsmIndices, length_range]
  obtain ⟨hplans, hstatus⟩ := @plans_dsmRanges lu payload (dsmIndices cmd)
  rw [dsmIndices] at hplans hstatus
  unfold Nvme.cmdDsm
  simp only [if_neg had, hp, Nvme.payloadOf, Option.filter_some]
  by_cases hw : lu.manifest.worm = true
  · simp only [hw, true_or, iff_true]
    exact fun _ _ _ => refused fun h => by cases h
  by_cases hlen : payload.length = ((cmd.sqe.cdw10 &&& 0xFF).toNat + 1) * 16
  swap
  · simp only [if_neg hw, hlen, decide_false, ne_eq, not_false_eq_true, true_or, or_true, iff_true]
    exact fun _ _ _ => refused fun h => by cases h
  simp only [hw, hlen, decide_true, if_true, Bool.false_eq_true, if_false, ne_eq, not_true_eq_false, false_or]
  constructor
  · intro hall
    rw [or_iff_not_imp_left]
    intro hbad i hi
    by_contra hne
    obtain ⟨x', hx', hseen⟩ := hplans.seen x lun (mem_map_of_mem hi) hne
    have hr := hall calm (replicate _ 7) length_replicate
    rw [Nvme.run, hx', hstatus, if_neg hbad] at hr
    exact hseen (hr.1 rfl)
  · intro hcond w c hc
    rw [Nvme.run]
    split
    · next e hrun => cases e.kind <;> exact ⟨fun h => (by cases h), fun h => (by cases h)⟩
    · next hrun =>
      have hd := hplans.deallocated (by simpa [Exec.setContent] using hc) hrun
      by_cases hall : ∀ i ∈ range ((cmd.sqe.cdw10 &&& 0xFF).toNat + 1), (dsmSpan lu payload i).2 = true
      · rw [takeWhile_eq_self_iff.2 hall] at hd
        rw [hstatus, if_pos hall]
        exact ⟨fun h => (by cases h), fun _ => hd⟩
      · rw [hstatus, if_neg hall]
        refine ⟨fun _ => hd.unchanged fun s hs => ?_, fun h => (by cases h)⟩
        obtain ⟨i, hi, rfl⟩ := mem_map.1 hs
        exact hcond.resolve_left hall i hi

def sevens : Exec := ⟨{ reservedTarget {} with content := fun _ => replicate 16 7 }, 0⟩

def twoBlocks (lba : UInt8) : IoCommand :=
  ⟨⟨0x09, 1, 1, 4, 0⟩, some ([0, 0, 0, 0, 1, 0, 0, 0, 1] ++ replicate 11 0 ++ [1, 0, 0, 0, lba] ++ replicate 7 0), 0,
    some 2, none⟩

theorem deallocate_all_or_nothing_two :
    let x := sevens.setContent 0 (replicate 16 9)
    Deallocated x (Nvme.run none calm x (Nvme.cmdDsm 0 (twoBlocks 3) (smallUnit "a" 1))).1 0 [(4, 4), (12, 4)] :=
  ((((deallocate_all_or_nothing none sevens).2 0 (twoBlocks 3) (smallUnit "a" 1) _ (by decide) rfl).2
    (.inr (.inr (.inl (by decide +kernel))))) calm _ rfl).2 rfl

/-- **Dataset Management fails on its second range and has deallocated the first.** -/
theorem dsm_out_of_range_changes :
    let r := Nvme.run none calm sevens (Nvme.cmdDsm 0 (twoBlocks 100) (smallUnit "a" 1))
    r.2.status = .lbaOutOfRange ∧ r.1.target.content 0 = replicate 4 7 ++ replicate 4 0 ++ replicate 8 7 :=
  ⟨rfl, by decide +kernel⟩

end Thur.Deallocate

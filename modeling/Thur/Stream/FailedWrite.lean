import Thur.Stream.FaultPlan
/-!
# FailedWrite — what a failed WRITE leaves on the tape

A write stages the block, records it, and then does the rest: the access time, the content-defined cut, the early
warning. What fails up to the record leaves the head where it was; what fails behind it returns the same errors with the
block already on the tape.
-/
namespace Thur.Stream.Cartridge

open Proc List

variable {H : Type}

def Counted (root : Nat) (c : Cartridge H) (d : Disk H) : Prop :=
  c.activePartition < c.blockNext.length ∧ c.activeNextLba = ((d.dirs root).blocks c.activePartition).length
deriving Decidable

def items (root : Nat) (c : Cartridge H) (d : Disk H) : List BlockRec := (d.dirs root).blocks c.activePartition

variable {root : Nat} {c : Cartridge H} {d : Disk H}

theorem tape_of_place {c' : Cartridge H} {d' : Disk H} (hp : c'.place = c.place)
    (hd : (d'.dirs root).blocks = (d.dirs root).blocks) : c'.activePartition = c.activePartition ∧
      c'.headLba = c.headLba ∧ items root c' d' = items root c d ∧ (Counted root c d → Counted root c' d') := by
  have hrt : c'.runtime = c.runtime := congrArg (fun x => x.2.runtime) hp
  have hnext : c'.blockNext = c.blockNext := congrArg (fun x => x.2.blockNext) hp
  unfold Counted items activeNextLba blockNextOf activePartition
  rw [hrt, hnext, hd]
  exact ⟨rfl, congrArg Prod.fst hp, rfl, id⟩

variable [DecidableEq H] {cr : TapeCrates H}

theorem safe_truncateFromHead (hc : Counted root c d) :
    (truncateFromHead : CartM H Unit).Safe (Disk.MayFail cr root) (fun _ => True) c d (fun r c' d' =>
      c'.headLba = c.headLba ∧ c'.activePartition = c.activePartition ∧ items root c' d' <+: items root c d ∧
      (∀ u, r = .ok u → Counted root c' d' ∧
        (items root c' d' = items root c d ∨ (items root c' d').length = c.headLba))) := by
  rw [truncateFromHead, safe_get_bind]
  by_cases hge : c.headLba ≥ c.activeNextLba
  · rw [if_pos hge]
    exact ⟨rfl, rfl, prefix_rfl, fun _ _ => ⟨hc, .inl rfl⟩⟩
  rw [if_neg hge]
  by_cases hbar : c.barrierPassed = true
  · rw [if_pos hbar]
    exact ⟨rfl, rfl, prefix_rfl, fun _ _ => ⟨hc, .inl rfl⟩⟩
  rw [if_neg hbar, blockTruncateTo, safe_bind, safe_file]
  have hle : c.headLba ≤ ((d.dirs root).blocks c.activePartition).length := by
    have := hc.2
    omega
  rintro r d' (h | ⟨n, h⟩)
  · cases h
    have hitems : ((d.setBlocks root c.activePartition (Paged.setLen Disk.zeroBlock
        ((d.dirs root).blocks c.activePartition) c.headLba)).dirs root).blocks c.activePartition
          = ((d.dirs root).blocks c.activePartition).take c.headLba := by
      rw [Disk.blocks_setBlocks, Paged.setLen_of_le _ hle]
    have hpre : ((d.setBlocks root c.activePartition (Paged.setLen Disk.zeroBlock
        ((d.dirs root).blocks c.activePartition) c.headLba)).dirs root).blocks c.activePartition <+: items root c d := by
      rw [hitems]
      exact take_prefix _ _
    have hlen : (((d.dirs root).blocks c.activePartition).take c.headLba).length = c.headLba := by
      rw [length_take, Nat.min_eq_left hle]
    refine ⟨trivial, rfl, rfl, hpre, fun _ _ => ⟨⟨?_, ?_⟩, .inr ?_⟩⟩
    · exact lt_of_lt_of_eq hc.1 (length_set ..).symm
    · exact (blockNextOf_set hc.1).trans ((congrArg length hitems).trans hlen).symm
    · exact (congrArg length hitems).trans hlen
  · cases h
    exact ⟨trivial, rfl, rfl, prefix_rfl, fun _ h => nomatch h⟩

theorem safe_recordBlock (rec : BlockRec) (hc : Counted root c d) :
    (recordBlock rec : CartM H Nat).Safe (Disk.MayFail cr root) (fun _ => True) c d (fun r c' d' =>
      c'.activePartition = c.activePartition ∧ match r with
      | .ok _ => c'.headLba = c.headLba + 1 ∨
          (c'.headLba = (items root c d).length + 1 ∧ (items root c' d').length = (items root c d).length + 1)
      | .error _ => c'.headLba = c.headLba ∧ items root c' d' = items root c d) := by
  rw [recordBlock, safe_get_bind]
  by_cases hlt : c.headLba < c.activeNextLba
  · rw [if_pos hlt, safe_bind, blockOverwrite, safe_get_bind, safe_failIf_bind]
    refine ⟨fun h => absurd hlt (Nat.not_lt.2 h), fun _ => safe_file.2 ?_⟩
    rintro r d' (h | ⟨n, h⟩)
    · cases h
      exact ⟨trivial, rfl, .inl rfl⟩
    · cases h
      exact ⟨trivial, rfl, rfl, rfl⟩
  · rw [if_neg hlt, safe_bind, blockAppend, safe_get_bind, safe_bind, safe_file]
    rintro r d' (h | ⟨n, h⟩)
    · cases h
      have hlen : c.blockNextOf c.activePartition = (items root c d).length := hc.2
      refine ⟨trivial, rfl, .inr ⟨congrArg (· + 1) hlen, ?_⟩⟩
      simp only [items, activePartition] at hlen ⊢
      simp only [Disk.setBlocks, Disk.dirs_setDir, Function.update_self, Paged.length_writeAt, hlen, length_singleton]
      omega
    · cases h
      exact ⟨trivial, rfl, rfl, rfl⟩

theorem safe_requireRoom (full : Cartridge H → Bool) (hc : Counted root c d) :
    (requireRoom full).Safe (Disk.MayFail cr root) (fun _ => True) c d (fun r c' d' =>
      c'.headLba = c.headLba ∧ c'.activePartition = c.activePartition ∧ items root c' d' <+: items root c d ∧
      (∀ u, r = .ok u → Counted root c' d' ∧
        (items root c' d' = items root c d ∨ (items root c' d').length = c.headLba))) := by
  rw [requireRoom]
  refine Safe.bind (safe_offTape (only_requireWritable true) cr root c d) (fun _ c1 d1 h1 => ?_) fun e c1 d1 h1 => ?_
  all_goals obtain ⟨hp1, hh1, hi1, hc1⟩ := tape_of_place h1.1 h1.2.1
  · rw [safe_get_bind, safe_failIf_bind]
    refine ⟨fun _ => ⟨hh1, hp1, hi1 ▸ prefix_rfl, fun _ h => nomatch h⟩, fun _ => ?_⟩
    refine (safe_truncateFromHead (hc1 hc)).mono fun r c' d' h => ?_
    rw [hi1, hh1, hp1] at h
    exact h
  · exact ⟨hh1, hp1, hi1 ▸ prefix_rfl, fun _ h => nomatch h⟩

/-- **Up to the record**: an error leaves the head and a prefix of the partition. -/
theorem safe_writeBlock (bytes : Bytes) (hc : Counted root c d) :
    (writeBlock cr bytes).Safe (Disk.MayFail cr root) (fun _ => True) c d (fun r c' d' =>
      c'.activePartition = c.activePartition ∧ match r with
      | .ok _ => c'.headLba ≠ c.headLba ∨ ¬ items root c' d' <+: items root c d
      | .error _ => c'.headLba = c.headLba ∧ items root c' d' <+: items root c d) := by
  rw [writeBlock]
  refine Safe.bind (safe_requireRoom _ hc) (fun _ c1 d1 h1 => ?_) fun e c1 d1 h1 => ⟨h1.2.1, h1.1, h1.2.2.1⟩
  obtain ⟨hh1, hp1, hpre1, hok1⟩ := h1
  obtain ⟨hc1, hcut⟩ := hok1 _ rfl
  -- the block goes to its chunk, then the record to the index
  refine Safe.bind (safe_offTape (only_stageBlock cr bytes) cr root c1 d1) (fun res c2 d2 h2 => ?_) fun e c2 d2 h2 => ?_
  all_goals obtain ⟨hp2, hh2, hi2, hc2⟩ := tape_of_place h2.1 h2.2.1
  swap
  · exact ⟨hp2.trans hp1, hh2.trans hh1, hi2 ▸ hpre1⟩
  refine Safe.bind (safe_recordBlock res.1 (hc2 hc1)) (fun lba c3 d3 h3 => ?_) fun e c3 d3 h3 => ?_
  · refine ⟨h3.1.trans (hp2.trans hp1), ?_⟩
    rw [hi2] at h3
    obtain hmove | ⟨hmove, hlen⟩ := h3.2
    · have : c3.headLba ≠ c.headLba := by omega
      exact .inl this
    obtain hsame | hcut := hcut
    · refine .inr (fun hpre => ?_)
      have := hpre.length_le
      rw [hlen, hsame] at this
      omega
    · have : c3.headLba ≠ c.headLba := by omega
      exact .inl this
  · exact ⟨h3.1.trans (hp2.trans hp1), h3.2.1.trans (hh2.trans hh1), h3.2.2 ▸ hi2 ▸ hpre1⟩

/-- **A failed write, exactly**: the head stays and the partition is a prefix of what it was if, and only if, a fault of
the plan comes at or before the write to the block index, if the operations of this write have one. -/
theorem failed_write_adds_no_record_iff (cr : TapeCrates H) (root : Nat) (bytes : Bytes) (c c' : Cartridge H) (d : Disk H)
    (plan : List (Option Nat)) (x : Disk H × List (Option Nat)) (e : SmcError) (hc : Counted root c d)
    (hr : runFaulty cr root (writeData cr bytes) c d plan = ((.error e, c'), x)) :
    (c'.headLba = c.headLba ∧ items root c' x.1 <+: items root c d) ↔
      ∀ pre o post, calls cr root (writeData cr bytes c) d = pre ++ o :: post → o.1.isBlockWrite = true →
        ¬ Clear (pre ++ [o]) plan := by
  have hblock := safe_runFaulty (@safe_writeBlock H root c d _ cr bytes hc) plan
  have hiff := @writeBlock_works_iff H _ cr root c d bytes plan
  rw [writeData, runFaulty_bind] at hr
  rcases hw : runFaulty cr root (writeBlock cr bytes) c d plan with ⟨⟨r, c1⟩, d1, plan1⟩
  rw [hw] at hblock hr
  rw [runFaulty] at hw
  rw [works, hw] at hiff
  cases r with
  | error e' =>
    cases hr
    exact ⟨fun _ => by simpa [Except.isOk, Except.toBool] using hiff, fun _ => hblock.2⟩
  | ok res =>
    -- the rest of the write leaves the tape as the record left it
    have hafter := safe_runFaulty (safe_offTape (only_afterWrite cr res.2) cr root c1 d1) plan1
    simp only [runFaulty_bind] at hr
    rcases ha : runFaulty cr root (afterWrite cr res.2) c1 d1 plan1 with ⟨⟨r2, c2⟩, d2, plan2⟩
    rw [ha] at hafter hr
    cases r2 with
    | ok _ => cases hr
    | error e2 =>
      cases hr
      obtain ⟨-, hhead, hitems, -⟩ := tape_of_place hafter.1 hafter.2.1
      obtain ⟨pre, o, post, hcalls, ho, hclear⟩ := hiff.1 rfl
      refine ⟨fun h => absurd h ?_, fun h => absurd hclear (h pre o post hcalls ho)⟩
      rw [hhead, hitems]
      rintro ⟨hh, hpre⟩
      exact hblock.2.elim (fun hne => hne hh) fun hnot => hnot hpre

/-! ## The streaming hash -/

/-- The hash was fed the bytes of the staging file; an append that fails part-way leaves more there. -/
structure Streamed (root : Nat) (c : Cartridge H) (d : Disk H) : Prop where
  file : (d.dirs root).staging c.curChunkId = some c.curFile
  hasher : c.curChunkHasher = d.content c.curFile

theorem safe_fileOr_bind {α : Type} {P : α → Cartridge H → Disk H → Prop} {e : SmcError} {o : FileOp H}
    {f : o.Answer → CartM H α} (hf : ∀ a d', Disk.perform cr root o d = (.ok a, d') →
      (f a).Safe (Disk.MayFail cr root) (fun _ => True) c d' fun r c' d' => ∀ x, r = .ok x → P x c' d') :
    (fileOr e o >>= f).Safe (Disk.MayFail cr root) (fun _ => True) c d fun r c' d' => ∀ x, r = .ok x → P x c' d' := by
  rw [safe_bind, safe_fileOr]
  rintro r d' (hr | ⟨n, hr⟩)
  · refine ⟨trivial, ?_⟩
    cases r with
    | ok a => exact hf a d' hr.symm
    | error => exact fun _ h => nomatch h
  · obtain rfl : r = .error .other := (congrArg Prod.fst hr).trans fail_error
    exact ⟨trivial, fun _ h => nomatch h⟩

theorem safe_appendBytes (b : Bytes) (h : Streamed root c d) :
    (appendBytes b).Safe (Disk.MayFail cr root) (fun _ => True) c d (fun r c' d' => ∀ u, r = .ok u → Streamed root c' d') := by
  rw [appendBytes, safe_get_bind]
  refine safe_fileOr_bind ?_
  rintro _ _ ⟨⟩ _ -
  refine ⟨h.file, ?_⟩
  show c.curChunkHasher ++ b = (d.setContent c.curFile (d.content c.curFile ++ b)).content c.curFile
  simp [Disk.setContent, h.hasher]

theorem safe_buildCurChunkHasher (hf : (d.dirs root).staging c.curChunkId = some c.curFile)
    (hopen : (c.curChunk.hash.isNone && c.curChunk.size > 0) = true) : buildCurChunkHasher.Safe (Disk.MayFail cr root)
      (fun _ => True) c d (fun r c' d' => ∀ u, r = .ok u → Streamed root c' d') := by
  rw [buildCurChunkHasher, safe_get_bind, if_pos hopen]
  refine safe_fileOr_bind fun a d' hr => ?_
  rw [Disk.perform, hf] at hr
  cases hr
  exact fun _ _ => ⟨hf, rfl⟩

/-- **A chunk is named by the bytes of its staging file**, encrypted at rest or not. -/
theorem safe_stagedHash (h : Streamed root c d) : (stagedHash cr).Safe (Disk.MayFail cr root) (fun _ => True) c d
    (fun r _ d' => ∀ x, r = .ok x →
      (d'.dirs root).staging c.curChunkId = some c.curFile ∧ x = cr.blake3 (d'.content c.curFile)) := by
  rw [stagedHash, safe_get_bind]
  split
  · rw [encryptStaging, safe_get_bind]
    refine safe_fileOr_bind ?_
    rintro plaintext _ hr
    rw [Disk.perform, h.file] at hr
    cases hr
    refine safe_fileOr_bind ?_
    rintro ciphertext _ ⟨⟩
    rw [safe_modify_bind]
    refine safe_fileOr_bind ?_
    rintro _ _ hr
    simp only [Disk.perform, h.file] at hr
    cases hr
    refine safe_fileOr_bind ?_
    rintro _ _ hr
    simp only [Disk.perform, Disk.setContent, h.file] at hr
    cases hr
    rintro _ ⟨⟩
    exact ⟨h.file, by simp⟩
  · rintro _ ⟨⟩
    exact ⟨h.file, congrArg cr.blake3 h.hasher⟩

/-! ## Runs -/

def cutByContent : OpenOptions := ⟨[7], false, 0, .fastCdc 1 2 64, false, none, false⟩

def cutBlock : Bytes := [1, 2, 3, 4, 5, 6, 7, 8]

theorem failed_write_adds_no_record_iff_tornAppend :
    let x := runFaulty .plain 0 (writeData .plain cutBlock) cutByContent.created.1 cutByContent.created.2 [some 3]
    x.1.2.headLba = cutByContent.created.1.headLba ∧
      items 0 x.1.2 x.2.1 <+: items 0 cutByContent.created.1 cutByContent.created.2 := by
  have hr : (runFaulty .plain 0 (writeData .plain cutBlock) cutByContent.created.1 cutByContent.created.2 [some 3]).1.1
      = .error .io := by decide +kernel
  refine (failed_write_adds_no_record_iff .plain 0 cutBlock cutByContent.created.1 _ cutByContent.created.2 [some 3] _ .io
    (by decide +kernel) (Prod.ext (Prod.ext hr rfl) rfl)).2 fun pre o post hcalls _ hclear => ?_
  have hfirst : ((calls .plain 0 (writeData .plain cutBlock cutByContent.created.1) cutByContent.created.2).map
      Prod.snd).head? = some true := by decide +kernel
  rw [hcalls] at hfirst
  cases pre <;> simp_all [Clear]

/-- **Back-pressure behind the record**: the write fails as one to be retried with its block on the tape, and the retry
puts it there twice. -/
theorem backpressured_write_recorded :
    let x := runFaulty .plain 0 (writeData .plain cutBlock) cutByContent.created.1 cutByContent.created.2
      [none, none, none, some 0]
    let y := runFaulty .plain 0 (writeData .plain cutBlock) x.1.2 x.2.1 []
    x.1.1 = .error .backpressured ∧ cutByContent.created.1.headLba = 0 ∧ x.1.2.headLba = 1 ∧
      (items 0 cutByContent.created.1 cutByContent.created.2).length = 0 ∧ (items 0 x.1.2 x.2.1).length = 1 ∧
      y.1.1 = .ok 1 ∧ (items 0 y.1.2 y.2.1).length = 2 := by
  decide +kernel

end Thur.Stream.Cartridge

import Thur.Stream.Footprint
/-!
# FaultPlan — which plans of faults a procedure gets past

`calls` lists the operations a procedure makes when all of them work. For one that returns every error it meets (`Exact`)
the list says which plans of faults it gets past: those without a fault there.
-/
namespace Thur.Stream

open Proc List Disk FileOp.OffTape

variable {H α β : Type} {o : FileOp H}

def FileOp.isBlockWrite : FileOp H → Bool
  | .blockWrite _ _ _ => true
  | _ => false

/-- A file that is not there cannot be removed, fault or not. -/
def Disk.hits (root : Nat) (d : Disk H) : FileOp H → Bool
  | .removeStaging id => ((d.dirs root).staging id).isSome
  | _ => true

abbrev CartRun (H α : Type) := Prog (FileOp H) FileOp.Ret (Except SmcError α × Cartridge H)

theorem fail_error {root n : Nat} {d : Disk H} : (fail root n o d).1 = .error .other := by
  cases o <;> first | rfl | (rw [fail]; split <;> rfl)

variable [DecidableEq H]

/-- With each operation, whether a fault there changes anything. -/
def calls (cr : TapeCrates H) (root : Nat) : CartRun H α → Disk H → List (FileOp H × Bool)
  | .pure _, _ => []
  | .call o k, d => (o, d.hits root o) :: calls cr root (k (perform cr root o d).1) (perform cr root o d).2

def Clear (l : List (FileOp H × Bool)) (plan : List (Option Nat)) : Prop := ∀ x ∈ l.zip plan, x.1.2 = true → x.2 = none

def works (cr : TapeCrates H) (root : Nat) (x : CartRun H α) (d : Disk H) (plan : List (Option Nat)) : Bool :=
  (x.exec (step cr root) (d, plan)).1.1.isOk

def worksCalm (cr : TapeCrates H) (root : Nat) (x : CartRun H α) (d : Disk H) : Bool :=
  (x.exec (perform cr root) d).1.1.isOk

/-- A fault that changes anything ends in an error. -/
def Exact (cr : TapeCrates H) (root : Nat) : CartRun H α → Disk H → Prop
  | .pure _, _ => True
  | .call o k, d => Exact cr root (k (perform cr root o d).1) (perform cr root o d).2 ∧ ∀ n,
      (d.hits root o = true → ∀ plan, works cr root (k (fail root n o d).1) (fail root n o d).2 plan = false) ∧
      (d.hits root o = false → k (fail root n o d).1 = k (perform cr root o d).1 ∧
        (fail root n o d).2 = (perform cr root o d).2)

variable {cr : TapeCrates H} {root : Nat} {m : CartM H α} {f : α → CartM H β} {c : Cartridge H} {d : Disk H}

/-- **Exactly the clear plans**, if it works at all. -/
theorem Exact.works_iff : ∀ {x : CartRun H α} {d : Disk H}, Exact cr root x d → ∀ plan,
    (works cr root x d plan = true ↔ worksCalm cr root x d = true ∧ Clear (calls cr root x d) plan)
  | .pure _, _, _, _ => by simp [works, worksCalm, Prog.exec, calls, Clear]
  | .call _ _, _, h, [] => by simpa [works, worksCalm, Prog.exec, step, calls, Clear] using h.1.works_iff []
  | .call _ _, _, h, none :: plan => by
    simpa [works, worksCalm, Prog.exec, step, calls, Clear] using h.1.works_iff plan
  | .call o k, d, h, some n :: plan => by
    show works cr root (k (fail root n o d).1) (fail root n o d).2 plan = true ↔ _
    cases hh : d.hits root o with
    | true => simp [(h.2 n).1 hh plan, calls, Clear, hh]
    | false =>
      rw [((h.2 n).2 hh).1, ((h.2 n).2 hh).2, h.1.works_iff plan]
      simp [worksCalm, Prog.exec, calls, Clear, hh]

theorem works_bind (plan : List (Option Nat)) (h : works cr root (m c) d plan = false) :
    works cr root ((m >>= f) c) d plan = false := by
  have hbind := runFaulty_bind cr root m f c d plan
  simp only [runFaulty, works] at hbind h ⊢
  rw [hbind]
  rcases hr : (m c).exec (step cr root) (d, plan) with ⟨⟨e | a, c'⟩, x⟩
  · rfl
  · rw [hr] at h
    cases h

theorem works_refused {k : o.Ret → CartRun H α} {r : IoError} {e : SmcError} {c' : Cartridge H}
    (hk : ∀ r, k (.error r) = .pure (.error e, c')) (h : (perform cr root o d).1 = .error r) :
    ∀ plan, works cr root (.call o k) d plan = false
  | [] | none :: _ => by
    show (Prog.exec _ (k (perform cr root o d).1) _).1.1.isOk = false
    rw [h, hk]
    rfl
  | some n :: _ => by
    show (Prog.exec _ (k (fail root n o d).1) _).1.1.isOk = false
    rw [fail_error, hk]
    rfl

/-- One that returns every error. -/
def Exacts (cr : TapeCrates H) (root : Nat) (m : CartM H α) : Prop := ∀ c d, Exact cr root (m c) d

theorem Exact.bind (hm : Exact cr root (m c) d) (hf : ∀ a, Exacts cr root (f a)) : Exact cr root ((m >>= f) c) d := by
  suffices h : ∀ (x : CartRun H α) (d : Disk H), Exact cr root x d → Exact cr root (((fun _ => x : CartM H α) >>= f) c) d from
    h (m c) d hm
  intro x
  induction x with
  | pure r =>
    obtain ⟨e | a, c'⟩ := r
    · exact fun _ _ => trivial
    · exact fun d _ => hf a c' d
  | call o k ih =>
    intro d h
    refine ⟨ih _ _ h.1, fun n => ⟨fun hh plan => ?_, fun hh => ⟨?_, ((h.2 n).2 hh).2⟩⟩⟩
    · exact works_bind (m := fun _ => k _) (f := f) (c := c) plan ((h.2 n).1 hh plan)
    · exact congrArg (fun y => (((fun _ => y : CartM H α) >>= f) c)) ((h.2 n).2 hh).1

theorem Exacts.bind (hm : Exacts cr root m) (hf : ∀ a, Exacts cr root (f a)) : Exacts cr root (m >>= f) :=
  fun c d => (hm c d).bind hf

theorem Exacts.seq (hm : Exacts cr root m) (hf : ∀ {a}, Exacts cr root (f a)) : Exacts cr root (m >>= f) :=
  hm.bind fun _ => hf

theorem Exacts.ite {p : Prop} [Decidable p] {m' : CartM H α} (h : Exacts cr root m) (h' : Exacts cr root m') :
    Exacts cr root (if p then m else m') := by
  split <;> assumption

theorem exacts_fileOr (e : SmcError) (o : FileOp H) : Exacts cr root (fileOr e o) := by
  refine fun c d => ⟨?_, fun n => ?_⟩
  · cases (perform cr root o d).1 <;> trivial
  · refine ⟨fun _ _ => by rw [fail_error]; rfl, fun hh => ?_⟩
    cases o <;> first | (simp [hits] at hh; done) | skip
    simp only [hits, Option.isSome_eq_false_iff, Option.isNone_iff_eq_none] at hh
    simp only [perform, hh, fail]
    exact ⟨rfl, trivial⟩

theorem exacts_failIf (p : Prop) [Decidable p] (e : SmcError) : Exacts cr root (failIf p e : CartM H Unit) :=
  .ite (fun _ _ => trivial) fun _ _ => trivial

theorem exacts_pure (r : α) : Exacts cr root (pure r) := fun _ _ => trivial

theorem exacts_throw (e : SmcError) : Exacts cr root (throw e : CartM H α) := fun _ _ => trivial

theorem exacts_get : Exacts cr root (get : CartM H _) := fun _ _ => trivial

theorem exacts_modify (g : Cartridge H → Cartridge H) : Exacts cr root (modify g : CartM H PUnit) := fun _ _ => trivial

theorem exacts_ofExcept (x : Except SmcError α) : Exacts cr root (Proc.ofExcept x : CartM H α) := by
  cases x <;> exact fun _ _ => trivial

namespace Cartridge

theorem exacts_chunkOverwrite (id : Nat) (rec : ChunkRec H) : Exacts cr root (chunkOverwrite id rec) :=
  .seq exacts_get <| .seq (exacts_failIf _ _) <| .seq (exacts_failIf _ _) <| exacts_fileOr _ _

theorem exacts_insertFromPath (id : Nat) (h : H) : Exacts cr root (insertFromPath id h) := by
  refine .bind (exacts_fileOr _ _) fun found => .ite (exacts_fileOr _ _) fun c d => ?_
  refine ⟨?_, fun n => ⟨fun _ _ => rfl, nofun⟩⟩
  cases (perform cr root (.rename id h) d).1 with
  | ok _ => trivial
  | error e =>
    cases e with
    | crossesDevices => exact (exacts_fileOr _ _ c _).bind fun _ => exacts_fileOr _ _
    | _ => trivial

theorem exacts_stagedHash : Exacts cr root (stagedHash cr) := by
  refine .bind exacts_get fun c => ?_
  split
  · exact .seq exacts_get <| .seq (exacts_fileOr _ _) <| .seq (exacts_fileOr _ _) <| .seq (exacts_modify _) <|
      .seq (exacts_fileOr _ _) <| .seq (exacts_fileOr _ _) <| exacts_pure _
  · exact .seq (exacts_modify _) <| exacts_pure _

theorem exacts_openCurFile (id : Nat) : Exacts cr root (openCurFile id : CartM H Unit) :=
  .seq (exacts_fileOr _ _) <| .seq (exacts_fileOr _ _) <| .seq (exacts_fileOr _ _) <| exacts_modify _

theorem exacts_startNextChunk : Exacts cr root (startNextChunk >>= openCurFile : CartM H Unit) :=
  .seq (.seq (exacts_modify _) <| .seq exacts_get <| .seq (.seq (exacts_fileOr _ _) <| exacts_pure _) <|
    .seq (.seq (exacts_failIf _ _) <| .seq exacts_get <| .seq (exacts_fileOr _ _) <| exacts_modify _) <|
      .seq (.seq exacts_get <| .seq (exacts_fileOr _ _) <| exacts_modify _) <| .seq (exacts_modify _) <| exacts_pure _) <|
    exacts_openCurFile _

theorem exacts_restartChunk : Exacts cr root (restartChunk >>= openCurFile : CartM H Unit) :=
  .seq (.seq exacts_get <| .seq (.seq (exacts_fileOr _ _) <| exacts_pure _) <| .seq (exacts_chunkOverwrite _ _) <|
    .seq (.seq exacts_get <| .seq (exacts_failIf _ _) <| exacts_fileOr _ _) <| .seq (exacts_modify _) <| exacts_pure _) <|
    exacts_openCurFile _

/-- An error of removing an empty chunk's file is ignored, but the file then stops the new one. -/
theorem exacts_sealAndStartNewChunk : Exacts cr root (sealAndStartNewChunk cr) := by
  intro c d
  by_cases hempty : c.curChunk.hash = none ∧ c.curChunk.size = 0
  · have hseal : sealCurrentChunk cr false c = ((fileIgnored (.removeStaging c.curChunkId) >>= fun _ =>
        modify (fun c => { c with curChunkHasher := [] }) >>= fun _ => pure false : CartM H Bool) c) := by
      show (if _ then _ else if _ then _ else _ : CartM H Bool) c = _
      rw [if_neg (by simp [hempty.1]), if_pos hempty.2]
    show Exact cr root ((sealCurrentChunk cr false c).bind _) d
    rw [hseal]
    refine ⟨exacts_restartChunk _ _, fun n => ⟨fun hh plan => ?_, fun hh => ⟨rfl, ?_⟩⟩⟩
    · obtain ⟨ino, hs⟩ := Option.isSome_iff_exists.1 hh
      exact works_refused (r := .alreadyExists) (fun _ => rfl) (by simp only [fail, perform, hs]) plan
    · simp only [hits, Option.isSome_eq_false_iff, Option.isNone_iff_eq_none] at hh
      simp only [fail, perform, hh]
  · refine Exact.bind ?_ fun sealed => .seq (exacts_modify _) <| .ite exacts_startNextChunk exacts_restartChunk
    show Exact cr root ((if _ then _ else if _ then _ else _ : CartM H Bool) c) d
    by_cases hh : c.curChunk.hash.isSome = true
    · rw [if_pos hh]
      trivial
    rw [if_neg hh, if_neg (fun h => hempty ⟨by simpa using hh, h⟩)]
    refine (?_ : Exacts cr root _) c d
    exact .seq (.ite (exacts_fileOr _ _) (exacts_pure _)) <| .seq (.ite (exacts_fileOr _ _) (exacts_pure _)) <|
      .seq exacts_stagedHash <| .seq (exacts_fileOr _ _) <| .seq (exacts_insertFromPath _ _) <| .seq (exacts_modify _) <|
      .seq exacts_get <| .seq (exacts_chunkOverwrite _ _) <| exacts_pure _

theorem exacts_requireRoom (full : Cartridge H → Bool) : Exacts cr root (requireRoom full) :=
  .seq (.seq exacts_get <| .ite (exacts_throw _) (.ite (exacts_throw _) (exacts_pure _))) <| .seq exacts_get <|
    .seq (exacts_failIf _ _) <| .seq exacts_get <| .ite (exacts_pure _) (.ite (exacts_pure _)
      (.seq (exacts_fileOr _ _) <| exacts_modify _))

theorem exacts_stageBlock (bytes : Bytes) : Exacts cr root (stageBlock cr bytes) := by
  have hencrypt : ∀ b, Exacts cr root (encryptOnWrite cr b) := fun b => by
    refine .bind exacts_get fun c => ?_
    split
    · exact .ite (.seq (exacts_fileOr _ _) <| exacts_pure _) (exacts_pure _)
    · exact exacts_pure _
  exact .seq (.seq exacts_get <| .ite (.seq (exacts_fileOr _ _) <| exacts_pure _) (exacts_pure _)) <|
    .seq (.seq exacts_get <| .ite (exacts_pure _) exacts_sealAndStartNewChunk) <| .seq exacts_get <|
    .seq (hencrypt _) <| .seq (.seq exacts_get <| .seq (exacts_fileOr _ _) <| exacts_modify _) <|
    .seq (exacts_ofExcept _) <| exacts_pure _

theorem exacts_recordBlock (rec : BlockRec) : Exacts cr root (recordBlock rec) :=
  .seq exacts_get <| .ite
    (.seq (.seq exacts_get <| .seq (exacts_failIf _ _) <| exacts_fileOr _ _) <| .seq (exacts_modify _) <| exacts_pure _)
    (.seq (.seq exacts_get <| .seq (exacts_fileOr _ _) <| .seq (exacts_modify _) <| exacts_pure _) <|
      .seq (exacts_modify _) <| exacts_pure _)

/-- **Up to its record a write returns every error.** -/
theorem exacts_writeBlock (bytes : Bytes) : Exacts cr root (writeBlock cr bytes) :=
  .seq (exacts_requireRoom _) <| .seq (exacts_stageBlock bytes) <| .seq (exacts_recordBlock _) <| exacts_pure _

end Cartridge

/-! ## The write to the block index -/

theorem calls_bind : calls cr root ((m >>= f) c) d = calls cr root (m c) d ++
    match (m c).exec (perform cr root) d with
    | ((.ok a, c'), d') => calls cr root (f a c') d'
    | ((.error _, _), _) => [] := by
  suffices h : ∀ (x : CartRun H α) (d : Disk H), calls cr root (((fun _ => x : CartM H α) >>= f) c) d = calls cr root x d ++
      match x.exec (perform cr root) d with
      | ((.ok a, c'), d') => calls cr root (f a c') d'
      | ((.error _, _), _) => [] from h (m c) d
  intro x
  induction x with
  | pure r =>
    obtain ⟨e | a, c'⟩ := r <;> exact fun _ => rfl
  | call o k ih => exact fun d => congrArg (cons _) (ih _ _)

theorem calls_of_only {ok : FileOp H → Prop} {P : Except SmcError α × Cartridge H → Prop} : ∀ {x : CartRun H α} {d : Disk H},
    x.Only ok P → ∀ y ∈ calls cr root x d, ok y.1
  | .pure _, _, _, _, hy => nomatch hy
  | .call _ _, _, h, y, hy => (mem_cons.1 hy).elim (fun hy => hy ▸ h.1) (calls_of_only (h.2 _) y)

/-- It gets to the write to the block index, its last operation, exactly if it works. -/
def EndsWithRecord (cr : TapeCrates H) (root : Nat) (x : CartRun H α) (d : Disk H) : Prop :=
  if worksCalm cr root x d then ∃ pre r, calls cr root x d = pre ++ [r] ∧ r.1.isBlockWrite = true ∧
    ∀ y ∈ pre, y.1.isBlockWrite = false
  else ∀ y ∈ calls cr root x d, y.1.isBlockWrite = false

theorem EndsWithRecord.bind {ν : Type} {view : Cartridge H → ν} (hm : m.Only (fun o => o.isBlockWrite = false) view)
    (hf : ∀ a c d, EndsWithRecord cr root (f a c) d) (c : Cartridge H) (d : Disk H) :
    EndsWithRecord cr root ((m >>= f) c) d := by
  have hpre := @calls_of_only H α _ cr root _ _ (m c) d (hm c)
  have hbind : ((m >>= f) c).exec (perform cr root) d = _ := Prog.exec_bind (perform cr root) _ (m c) d
  rw [EndsWithRecord, calls_bind, worksCalm, hbind]
  rcases hr : (m c).exec (perform cr root) d with ⟨⟨e | a, c'⟩, d'⟩
  · rw [append_nil]
    exact hpre
  · have h := hf a c' d'
    rw [EndsWithRecord, worksCalm] at h
    dsimp only
    split at h
    · next hw =>
      rw [if_pos hw]
      obtain ⟨pre, r, hcalls, hrec, hno⟩ := h
      refine ⟨calls cr root (m c) d ++ pre, r, by rw [hcalls, append_assoc], hrec, fun y hy => ?_⟩
      exact (mem_append.1 hy).elim (hpre y) (hno y)
    · next hw =>
      rw [if_neg hw]
      exact fun y hy => (mem_append.1 hy).elim (hpre y) (h y)

theorem endsWithRecord_call {p i : Nat} {rec : BlockRec} {k : FileOp.Ret (H := H) (.blockWrite p i rec) → CartRun H α} {a : α}
    (hk : k (.ok ()) = .pure (.ok a, c)) : EndsWithRecord cr root (.call (.blockWrite p i rec) k) d := by
  have hcalls : calls cr root (.call (.blockWrite p i rec) k) d = _ :: calls cr root (k (.ok ())) _ := rfl
  rw [EndsWithRecord, hcalls, if_pos (by show (Prog.exec _ (k (.ok ())) _).1.1.isOk = true; rw [hk]; rfl), hk]
  exact ⟨[], _, rfl, rfl, nofun⟩

omit [DecidableEq H] in
theorem FileOp.OffTape.not_isBlockWrite (h : o.OffTape) : o.isBlockWrite = false := by
  cases o <;> first | rfl | exact nomatch h

namespace Cartridge

theorem endsWithRecord_writeBlock (bytes : Bytes) : EndsWithRecord cr root (writeBlock cr bytes c) d := by
  have hroom : (requireRoom (fun c => c.pastCapacity bytes.length) : CartM H Unit).Only (fun o => o.isBlockWrite = false)
      (fun _ => ()) :=
    .seq ((only_requireWritable true).mono (fun _ => not_isBlockWrite) (fun _ _ _ => rfl)) <| .seq only_get <|
      .seq (only_failIf _ _) <| .seq only_get <| .ite (only_pure _) (.ite (only_pure _)
        (.seq (only_file rfl) <| only_modify fun _ => rfl))
  have hstage : (stageBlock cr bytes).Only (fun o => o.isBlockWrite = false) place :=
    (only_stageBlock cr bytes).mono (fun _ => not_isBlockWrite) fun _ _ => id
  refine EndsWithRecord.bind hroom (fun _ => EndsWithRecord.bind hstage fun res c d => ?_) c d
  show EndsWithRecord cr root (((if _ then _ else _ : CartM H Nat) >>= fun lba => pure (lba, res.2) : CartM H _) c) d
  by_cases hlt : c.headLba < c.activeNextLba
  · rw [if_pos hlt]
    show EndsWithRecord cr root ((((failIf (c.headLba ≥ c.activeNextLba) _ >>= _ : CartM H Unit) >>= _ : CartM H Nat) >>=
      _ : CartM H _) c) d
    rw [failIf, if_neg (Nat.not_le.2 hlt)]
    exact endsWithRecord_call rfl
  · rw [if_neg hlt]
    exact endsWithRecord_call rfl

/-- **The block is recorded exactly if no fault comes at or before its write to the block index.** -/
theorem writeBlock_works_iff (bytes : Bytes) (plan : List (Option Nat)) : works cr root (writeBlock cr bytes c) d plan = true ↔
    ∃ pre o post, calls cr root (writeData cr bytes c) d = pre ++ o :: post ∧ o.1.isBlockWrite = true ∧
      Clear (pre ++ [o]) plan := by
  have hends := @endsWithRecord_writeBlock H _ cr root c d bytes
  rw [(exacts_writeBlock bytes c d).works_iff, writeData, calls_bind]
  rw [EndsWithRecord, worksCalm] at hends
  rw [worksCalm]
  rcases hr : (writeBlock cr bytes c).exec (perform cr root) d with ⟨⟨e | res, c'⟩, d'⟩
  · simp only [hr, Except.isOk, Except.toBool, Bool.false_eq_true, if_false] at hends
    refine iff_of_false (fun h => nomatch h.1) ?_
    rintro ⟨pre, o, post, hcalls, ho, -⟩
    rw [append_nil] at hcalls
    simp [hends o (by simp [hcalls])] at ho
  · simp only [hr, Except.isOk, Except.toBool, if_true] at hends
    obtain ⟨pre, o, hcalls, ho, hno⟩ := hends
    have hafter : (afterWrite cr res.2 >>= fun _ => pure res.1 : CartM H Nat).Only (fun o => o.isBlockWrite = false) place :=
      .seq ((only_afterWrite cr res.2).mono (fun _ => not_isBlockWrite) (fun _ _ => id)) <| only_pure _
    have hpost := @calls_of_only H Nat _ cr root _ _ _ d' (hafter c')
    rw [hcalls]
    refine ⟨fun h => ⟨pre, o, _, by rw [append_assoc]; rfl, ho, h.2⟩, ?_⟩
    rintro ⟨pre', o', post, hsplit, ho', hclear⟩
    rw [append_assoc] at hsplit
    obtain ⟨rfl, rfl, -⟩ := (append_cons_inj_of_notMem (fun hm => by simp [hno _ hm] at ho')
      (fun hm => by simp [hpost _ hm] at ho')).1 hsplit
    exact ⟨rfl, hclear⟩

end Cartridge

end Thur.Stream

import Mathlib.Data.List.Forall2
import Thur.Target.Mediation
/-!
# Isolation — what one tenant can learn of another's data

Two targets agree for a tenant if they differ only in the bytes of units it is not shown, and in what live tokens froze
of such units. An action that only reads shown units gives the same answer in both (`run_agrees`); what can go wrong is
a copy from a unit that is not shown into one that is. EXTENDED COPY cannot plan one; WRITE USING TOKEN can, with a
token that RECEIVE ROD TOKEN INFORMATION hands out.
-/
namespace Thur

open Function (update update_of_ne update_self)

/-! ## Agreement -/

/-- They differ in the bytes of a unit that is not shown at most. -/
structure TokenState.Agrees (shown : Lun → Prop) (a b : TokenState) : Prop where
  fixed : { a with contents := b.contents } = b
  length : a.contents.length = b.contents.length
  same : shown a.sourceLun → a.contents = b.contents

namespace TokenState.Agrees

variable {shown : Lun → Prop} {a b c : TokenState}

theorem refl (a : TokenState) : a.Agrees shown a := ⟨rfl, rfl, fun _ => rfl⟩

theorem sourceLun (h : a.Agrees shown b) : a.sourceLun = b.sourceLun :=
  show ({ a with contents := b.contents } : TokenState).sourceLun = b.sourceLun by rw [h.fixed]

theorem symm (h : a.Agrees shown b) : b.Agrees shown a where
  fixed := by rw [← h.fixed]
  length := h.length.symm
  same hs := (h.same (h.sourceLun.symm ▸ hs)).symm

theorem trans (h : a.Agrees shown b) (h' : b.Agrees shown c) : a.Agrees shown c where
  fixed := by
    have := h'.fixed
    rwa [← h.fixed] at this
  length := h.length.trans h'.length
  same hs := (h.same hs).trans (h'.same (h.sourceLun ▸ hs))

end TokenState.Agrees

structure Target.Agrees (shown : Lun → Prop) (t t' : Target) : Prop where
  units : t.units = t'.units
  content : ∀ lun, shown lun → t.content lun = t'.content lun
  reservations : t.reservations = t'.reservations
  tokens : ∀ token, Option.Rel (TokenState.Agrees shown) (t.tokens.tokens token) (t'.tokens.tokens token)
  jobs : t.tokens.jobs = t'.tokens.jobs
  attentions : t.attentions = t'.attentions

namespace Target.Agrees

variable {shown : Lun → Prop} {t t' t'' : Target}

theorem refl (t : Target) : t.Agrees shown t := by
  refine ⟨rfl, fun _ _ => rfl, rfl, fun token => ?_, rfl, rfl⟩
  cases t.tokens.tokens token with
  | none => exact .none
  | some st => exact .some (.refl st)

theorem symm (h : t.Agrees shown t') : t'.Agrees shown t := by
  refine ⟨h.units.symm, fun l hl => (h.content l hl).symm, h.reservations.symm, fun token => ?_, h.jobs.symm,
    h.attentions.symm⟩
  have htoken := h.tokens token
  revert htoken
  generalize t.tokens.tokens token = a, t'.tokens.tokens token = b
  rintro (hst | -)
  · exact .some hst.symm
  · exact .none

theorem trans (h : t.Agrees shown t') (h' : t'.Agrees shown t'') : t.Agrees shown t'' := by
  refine ⟨h.units.trans h'.units, fun l hl => (h.content l hl).trans (h'.content l hl),
    h.reservations.trans h'.reservations, fun token => ?_, h.jobs.trans h'.jobs, h.attentions.trans h'.attentions⟩
  have h1 := h.tokens token
  have h2 := h'.tokens token
  revert h1 h2
  generalize t.tokens.tokens token = a, t'.tokens.tokens token = b, t''.tokens.tokens token = c
  rintro (hst | -) h2
  · rcases h2 with hst' | -
    exact .some (hst.trans hst')
  · exact h2

theorem token (h : t.Agrees shown t') (token : RodToken) :
    (t.tokens.tokens token = none ∧ t'.tokens.tokens token = none) ∨
      ∃ st st', t.tokens.tokens token = some st ∧ t'.tokens.tokens token = some st' ∧ st.Agrees shown st' := by
  have htoken := h.tokens token
  revert htoken
  generalize t.tokens.tokens token = a, t'.tokens.tokens token = b
  rintro (hst | -)
  · exact .inr ⟨_, _, rfl, rfl, hst⟩
  · exact .inl ⟨rfl, rfl⟩

end Target.Agrees

variable {x x' : Exec}

theorem Exec.Confined.agrees {shown W : Lun → Prop} (h : x.Confined W x')
    (hW : ∀ lun, W lun → ¬ shown lun) : x.target.Agrees shown x'.target := by
  have hbase : x.target.Agrees shown x.target := .refl x.target
  rw [h.rest]
  exact { hbase with content := fun lun hl => (h.spared lun (fun hw => hW lun hw hl)).symm }

/-! ## One call in two targets -/

structure Exec.Agrees (shown : Lun → Prop) (x x' : Exec) : Prop where
  target : x.target.Agrees shown x'.target
  calls : x.calls = x'.calls

def Exec.Same {α : Type} (shown : Lun → Prop) (r r' : Exec × α) : Prop := r.1.Agrees shown r'.1 ∧ r.2 = r'.2

variable {shown : Lun → Prop} {token : RodToken}

theorem Exec.Same.pair {α : Type} {r r' : Exec × α} (h : Same shown r r') :
    ∃ y y' a, y.Agrees shown y' ∧ r = (y, a) ∧ r' = (y', a) :=
  ⟨r.1, r'.1, r.2, h.1, rfl, by rw [h.2]⟩

namespace Exec

variable {shown : Lun → Prop} (w : World) {x x' : Exec}

theorem Agrees.setContent (h : x.Agrees shown x') (lun : Lun) {b b' : Bytes} (hb : shown lun → b = b') :
    (x.setContent lun b).Agrees shown (x'.setContent lun b') := by
  refine ⟨{ h.target with content := fun l hl => ?_ }, congrArg (· + 1) h.calls⟩
  show update x.target.content lun b l = update x'.target.content lun b' l
  by_cases hll : l = lun
  · subst hll
    rw [update_self, update_self, hb hl]
  · rw [update_of_ne hll, update_of_ne hll, h.target.content l hl]

theorem Agrees.read (h : x.Agrees shown x') (lun : Lun) (byteOffset len : Nat) :
    ∃ y y', y.Agrees shown y' ∧
      ((∃ e, x.read w lun byteOffset len = (y, .error e) ∧ x'.read w lun byteOffset len = (y', .error e)) ∨
        ∃ b b', x.read w lun byteOffset len = (y, .ok b) ∧ x'.read w lun byteOffset len = (y', .ok b') ∧
          (shown lun → b = b')) := by
  refine ⟨{ x with calls := x.calls + 1 }, { x' with calls := x'.calls + 1 },
    ⟨h.target, congrArg (· + 1) h.calls⟩, ?_⟩
  unfold Exec.read
  rw [← h.calls]
  cases w.fault x.calls with
  | some e => exact .inl ⟨e, rfl, rfl⟩
  | none => exact .inr ⟨_, _, rfl, rfl, fun hs => by rw [h.target.content lun hs]⟩

theorem Agrees.mutate (h : x.Agrees shown x') (lun : Lun) {op op' : BlockOp} (hop : shown lun → op = op') :
    ∃ y y', y.Agrees shown y' ∧
      ((∃ e, x.mutate w lun op = (y, .error e) ∧ x'.mutate w lun op' = (y', .error e)) ∨
        ∃ r r', x.mutate w lun op = (y, .ok r) ∧ x'.mutate w lun op' = (y', .ok r') ∧ (shown lun → r = r')) := by
  have hcontent := h.target.content lun
  unfold Exec.mutate
  dsimp only
  rw [← h.calls]
  cases w.fault x.calls with
  | some e => exact ⟨_, _, h.setContent lun (fun hs => by rw [hcontent hs]), .inl ⟨e, rfl, rfl⟩⟩
  | none =>
    exact ⟨_, _, h.setContent lun (fun hs => by rw [hop hs, hcontent hs]),
      .inr ⟨_, _, rfl, rfl, fun hs => by rw [hop hs, hcontent hs]⟩⟩

theorem Agrees.cloneInto (h : x.Agrees shown x') {src dst : Lun} (hflow : shown dst → shown src)
    (srcOffset dstOffset len : Nat) :
    Same shown (x.cloneInto w src srcOffset dst dstOffset len) (x'.cloneInto w src srcOffset dst dstOffset len) := by
  have hdst := h.target.content dst
  have hsrc := fun hs => h.target.content src (hflow hs)
  unfold Exec.cloneInto
  dsimp only
  rw [← h.calls]
  cases w.fault x.calls with
  | some e => exact ⟨h.setContent dst (fun hs => by rw [hdst hs]), rfl⟩
  | none => exact ⟨h.setContent dst (fun hs => by rw [hdst hs, hsrc hs]), rfl⟩

theorem agrees_mutateAll (lun : Lun) : ∀ (ops : List BlockOp) {x x' : Exec}, x.Agrees shown x' →
    Same shown (mutateAll w lun ops x) (mutateAll w lun ops x')
  | [], _, _, h => ⟨h, rfl⟩
  | op :: ops, _, _, h => by
    obtain ⟨y, y', hy, ⟨e, h1, h2⟩ | ⟨r, r', h1, h2, -⟩⟩ := h.mutate w lun (fun _ => rfl : shown lun → op = op)
    · simp only [mutateAll, h1, h2]
      exact ⟨hy, rfl⟩
    · simp only [mutateAll, h1, h2]
      exact agrees_mutateAll lun ops hy

end Exec

/-! ## One action in two targets -/

namespace Scsi

open Exec

variable {shown : Lun → Prop} (persist : Option EntityResolver) (w : World) {x x' : Exec} {lun : Lun}
  {st st' : TokenState}

theorem agrees_copyWindows {src dst : Lun} (hflow : shown dst → shown src) (srcOffset dstOffset : Nat) :
    ∀ (l : List (Nat × Nat)) {x x' : Exec}, x.Agrees shown x' →
      Same shown (copyWindows w src dst srcOffset dstOffset l x) (copyWindows w src dst srcOffset dstOffset l x')
  | [], _, _, h => ⟨h, rfl⟩
  | (cursor, len) :: rest, _, _, h => by
    obtain ⟨y, y', hy, ⟨e, h1, h2⟩ | ⟨b, b', h1, h2, hb⟩⟩ := h.read w src (srcOffset + cursor) len
    · simp only [copyWindows, h1, h2]
      exact ⟨hy, rfl⟩
    · obtain ⟨z, z', hz, ⟨e, h3, h4⟩ | ⟨r, r', h3, h4, -⟩⟩ := hy.mutate w dst
        (fun hs => by rw [hb (hflow hs)] : shown dst →
          BlockOp.writeBytes (dstOffset + cursor) b = .writeBytes (dstOffset + cursor) b')
      · simp only [copyWindows, h1, h2, h3, h4]
        exact ⟨hz, rfl⟩
      · simp only [copyWindows, h1, h2, h3, h4]
        exact agrees_copyWindows hflow srcOffset dstOffset rest hz

theorem agrees_executeSegment {seg : PlannedSegment} (hflow : shown seg.dst.1 → shown seg.src.1)
    (h : x.Agrees shown x') : Same shown (executeSegment w seg x) (executeSegment w seg x') := by
  unfold executeSegment
  dsimp only
  split
  · exact ⟨h, rfl⟩
  · split
    · obtain ⟨y, y', o, hy, h1, h2⟩ := (h.cloneInto w hflow (seg.srcLba.toNat * seg.src.2.sector)
        (seg.dstLba.toNat * seg.dst.2.sector) (seg.blocks.toNat * seg.src.2.sector)).pair
      rw [h1, h2]
      cases o <;> exact ⟨hy, rfl⟩
    · exact agrees_copyWindows w hflow _ _ _ h

theorem agrees_extendedCopyExecute : ∀ {segments : List PlannedSegment},
    (∀ seg ∈ segments, shown seg.dst.1 → shown seg.src.1) → ∀ {x x' : Exec}, x.Agrees shown x' →
      Same shown (extendedCopyExecute w segments x) (extendedCopyExecute w segments x')
  | [], _, _, _, h => ⟨h, rfl⟩
  | seg :: rest, hflow, x, x', h => by
    have hrest := fun {y y' : Exec} (hy : y.Agrees shown y') =>
      agrees_extendedCopyExecute (fun s hs => hflow s (List.mem_cons_of_mem _ hs)) hy
    obtain ⟨y, y', o, hy, h1, h2⟩ := (agrees_executeSegment w (hflow seg List.mem_cons_self) h).pair
    unfold extendedCopyExecute
    split
    · exact hrest h
    · rw [h1, h2]
      cases o with
      | none => exact hrest hy
      | some s => exact ⟨hy, rfl⟩

theorem agrees_flushRanges (lun : Lun) (lu : LogicalUnit) : ∀ (bdrds : List Bdrd) {x x' : Exec}, x.Agrees shown x' →
    Same shown (flushRanges w lun lu bdrds x) (flushRanges w lun lu bdrds x')
  | [], _, _, h => ⟨h, rfl⟩
  | bd :: rest, _, _, h => by
    have hrest := fun {y y' : Exec} (hy : y.Agrees shown y') => agrees_flushRanges lun lu rest hy
    unfold flushRanges
    dsimp only
    split
    · exact hrest h
    · split
      · exact ⟨h, rfl⟩
      · obtain ⟨y, y', hy, ⟨e, h1, h2⟩ | ⟨b, b', h1, h2, -⟩⟩ := h.read w lun 0 0
        · simp only [h1, h2]
          exact ⟨hy, rfl⟩
        · simp only [h1, h2]
          exact hrest hy

theorem rel_update {κ α : Type} [DecidableEq κ] {R : α → α → Prop} {f g : κ → Option α}
    (h : ∀ k, Option.Rel R (f k) (g k)) (k : κ) {o o' : Option α} (ho : Option.Rel R o o') (k' : κ) :
    Option.Rel R (update f k o k') (update g k o' k') := by
  by_cases heq : k' = k
  · subst heq
    rw [update_self, update_self]
    exact ho
  · rw [update_of_ne heq, update_of_ne heq]
    exact h k'

theorem rel_filter {α : Type} {R : α → α → Prop} {p : α → Bool} (hp : ∀ a a', R a a' → p a = p a') {o o' : Option α}
    (h : Option.Rel R o o') : Option.Rel R (o.filter p) (o'.filter p) := by
  cases h with
  | none => exact .none
  | @some a a' ha =>
    have hpa := hp a a' ha
    cases hc : p a with
    | true =>
      rw [Option.filter_some_pos hc, Option.filter_some_pos (hpa ▸ hc)]
      exact .some ha
    | false =>
      rw [Option.filter_some_neg (by rw [hc]), Option.filter_some_neg (by rw [← hpa, hc])]
      exact .none

theorem agrees_mintToken {t t' : Target} (h : t.Agrees shown t') (lu : LogicalUnit) (pages : List PageId)
    (listId : UInt32) (totalBlocks : UInt64) (token : RodToken) (deadline : Nat) :
    let st := snapshotState lun lu (t.content lun) pages totalBlocks deadline
    let st' := snapshotState lun lu (t'.content lun) pages totalBlocks deadline
    ({ t with tokens := t.tokens.mintToken listId token st } : Target).Agrees shown
      { t' with tokens := t'.tokens.mintToken listId token st' } := by
  intro st st'
  have hst : st.Agrees shown st' := by
    refine ⟨rfl, by simp [st, st', snapshotState], fun hs => ?_⟩
    simp only [st, st', snapshotState, h.content lun hs]
  refine { h with tokens := rel_update h.tokens token (.some hst), jobs := ?_ }
  show update t.tokens.jobs listId _ = update t'.tokens.jobs listId _
  rw [h.jobs]
  rfl

theorem agrees_runPopulateToken (lun : Lun) (lu : LogicalUnit) (listId inactivity : UInt32) (bdrds : List Bdrd)
    (totalBlocks : UInt64) (h : x.Agrees shown x') :
    Same shown (runPopulateToken w lun lu listId inactivity bdrds totalBlocks x)
      (runPopulateToken w lun lu listId inactivity bdrds totalBlocks x') := by
  obtain ⟨y, y', o, hy, hflush, hflush'⟩ := (agrees_flushRanges w lun lu bdrds h).pair
  unfold runPopulateToken
  rw [hflush, hflush']
  cases o with
  | some s => exact ⟨hy, rfl⟩
  | none =>
    obtain ⟨z, z', hz, ⟨e, h1, h2⟩ | ⟨b, b', h1, h2, -⟩⟩ := hy.read w lun 0 0
    · simp only [h1, h2]
      exact ⟨hz, rfl⟩
    · simp only [h1, h2]
      exact ⟨⟨agrees_mintToken hz.target lu _ listId totalBlocks w.token _, hz.calls⟩, rfl⟩

theorem agrees_applyPage (lu : LogicalUnit) (hst : st.Agrees shown st') (src dst : PageId)
    {bytes bytes' : Bytes} (hb : shown lun → bytes = bytes') (h : x.Agrees shown x') :
    Same shown (applyPage w lun lu st x src dst bytes) (applyPage w lun lu st' x' src dst bytes') := by
  have hencrypted : st.sourceEncrypted = st'.sourceEncrypted := by rw [← hst.fixed]
  have hdek : st.sourceDekUuid = st'.sourceDekUuid := by rw [← hst.fixed]
  obtain ⟨y, y', hy, ⟨e, h1, h2⟩ | ⟨r, r', h1, h2, -⟩⟩ := h.mutate w lun
    (fun hs => by rw [hb hs] : shown lun → BlockOp.writeBytes (dst.toNat * lu.pageSize) bytes = .writeBytes _ bytes')
  · simp only [applyPage, h1, h2, hencrypted, hdek]
    exact ⟨hy, rfl⟩
  · simp only [applyPage, h1, h2]
    exact ⟨hy, rfl⟩

/-- The same places, and the same bytes if the destination is shown. -/
def SamePage (shown : Prop) (p p' : PageId × PageId × Bytes) : Prop :=
  p.1 = p'.1 ∧ p.2.1 = p'.2.1 ∧ (shown → p.2.2 = p'.2.2)

theorem samePage_zip {P : Prop} : ∀ (pages dsts : List PageId) {c c' : List Bytes}, c.length = c'.length →
    (P → c = c') → List.Forall₂ (SamePage P) (pages.zip (dsts.zip c)) (pages.zip (dsts.zip c'))
  | [], _, _, _, _, _ => by simp
  | _ :: _, [], _, _, _, _ => by simp
  | _ :: _, _ :: _, [], [], _, _ => by simp
  | _ :: pages, _ :: dsts, _ :: c, _ :: c', hlen, hc => by
    simp only [List.zip_cons_cons]
    exact .cons ⟨rfl, rfl, fun hp => (List.cons.inj (hc hp)).1⟩
      (samePage_zip pages dsts (Nat.succ.inj hlen) (fun hp => (List.cons.inj (hc hp)).2))

theorem agrees_applyToken (lu : LogicalUnit) (hst : st.Agrees shown st') :
    ∀ {l l' : List (PageId × PageId × Bytes)}, List.Forall₂ (SamePage (shown lun)) l l' → ∀ (committed : UInt64)
      {x x' : Exec}, x.Agrees shown x' →
      Same shown (applyToken w lun lu st l committed x) (applyToken w lun lu st' l' committed x') := by
  intro l l' hl
  induction hl with
  | nil => exact fun _ _ _ h => ⟨h, rfl⟩
  | @cons p p' l l' hp hl ih =>
    intro committed x x' h
    obtain ⟨src, dst, bytes⟩ := p
    obtain ⟨src', dst', bytes'⟩ := p'
    obtain ⟨rfl, rfl, hb⟩ : src = src' ∧ dst = dst' ∧ (shown lun → bytes = bytes') := hp
    obtain ⟨y, y', o, hy, h1, h2⟩ := (agrees_applyPage w lu hst src dst hb h).pair
    unfold applyToken
    rw [h1, h2]
    cases o with
    | none => exact ih _ hy
    | some s => exact ⟨hy, rfl⟩

theorem agrees_recordOutcome (h : x.Agrees shown x') (listId : UInt32) (status : JobStatus) (blocks : UInt64) :
    (recordOutcome w x listId status blocks).Agrees shown (recordOutcome w x' listId status blocks) := by
  refine ⟨{ h.target with jobs := ?_ }, h.calls⟩
  show update x.target.tokens.jobs listId _ = update x'.target.tokens.jobs listId _
  rw [h.target.jobs]

theorem agrees_failToken (h : x.Agrees shown x') (listId : UInt32) (s : SenseData) (committed : UInt64) :
    Same shown (failToken w x listId s committed) (failToken w x' listId s committed) :=
  ⟨agrees_recordOutcome w h listId _ committed, rfl⟩

theorem agrees_runWriteUsingToken (lu : LogicalUnit) (listId : UInt32) (bdrds : List Bdrd)
    (h : x.Agrees shown x') (hflow : shown lun → ∀ st, x.target.tokens.tokens token = some st → shown st.sourceLun) :
    Same shown (runWriteUsingToken w lun lu listId token bdrds x)
      (runWriteUsingToken w lun lu listId token bdrds x') := by
  have hfail := fun s committed => agrees_failToken w h listId s committed
  rcases h.target.token token with ⟨h1, h2⟩ | ⟨st, st', h1, h2, hst⟩
  · simp only [runWriteUsingToken, TokenManager.snapshotFor, TokenManager.isExpired, h1, h2, Option.filter_none,
      Option.any_none]
    exact hfail _ _
  · have hpages : List.Forall₂ (SamePage (shown lun)) (st.sourcePages.zip ((bdrdPages lu bdrds).zip st.contents))
        (st.sourcePages.zip ((bdrdPages lu bdrds).zip st'.contents)) :=
      samePage_zip _ _ hst.length fun hs => hst.same (hflow hs st h1)
    obtain ⟨y, y', o, hy, happly, happly'⟩ := (agrees_applyToken w lu hst hpages 0 h).pair
    obtain ⟨c', rfl⟩ : ∃ c', st' = { st with contents := c' } := ⟨st'.contents, hst.fixed.symm⟩
    simp only [runWriteUsingToken, TokenManager.snapshotFor, TokenManager.isExpired, h1, h2, Option.any_some]
    by_cases hnow : w.now < st.deadline
    · rw [Option.filter_some_pos (by simpa using hnow), Option.filter_some_pos (by simpa using hnow)]
      dsimp only
      split
      · exact hfail _ _
      split
      · exact hfail _ _
      split
      · exact hfail _ _
      · split
        · exact hfail _ _
        · rw [happly, happly']
          cases o with
          | none => exact ⟨agrees_recordOutcome w hy listId _ _, rfl⟩
          | some s => exact agrees_failToken w hy listId _ _
    · rw [Option.filter_some_neg (by simpa using hnow), Option.filter_some_neg (by simpa using hnow)]
      exact hfail _ _

end Scsi

def ScsiAction.Flows (shown : Lun → Prop) (t : Target) : ScsiAction → Prop
  | .extendedCopy segments => ∀ seg ∈ segments, shown seg.dst.1 → shown seg.src.1
  | .writeUsingToken lun _ _ token _ => shown lun → ∀ st, t.tokens.tokens token = some st → shown st.sourceLun
  | _ => True

def ScsiAction.Answers : ScsiAction → Lun → Prop
  | .read lun _ _, l => l = lun
  | .verify lun _ _ _, l => l = lun
  | .compareAndWrite lun _ _ _, l => l = lun
  | _, _ => False

namespace Scsi

open Exec

variable {shown : Lun → Prop} (persist : Option EntityResolver) (w : World) {t t' : Target}

theorem agrees_cancel (h : t.Agrees shown t') (listId : UInt32) :
    ({ t with tokens := t.tokens.cancel listId } : Target).Agrees shown
      { t' with tokens := t'.tokens.cancel listId } := by
  unfold TokenManager.cancel
  rw [← h.jobs]
  split
  · next token _ => exact { h with tokens := rel_update h.tokens token .none, jobs := rfl }
  · exact h

theorem agrees_sweepExpired (h : t.Agrees shown t') (now : Nat) :
    ({ t with tokens := t.tokens.sweepExpired now } : Target).Agrees shown
      { t' with tokens := t'.tokens.sweepExpired now } := by
  refine { h with tokens := fun token => rel_filter (fun st st' hst => ?_) (h.tokens token), jobs := ?_ }
  · rw [← hst.fixed]
  · show (fun listId => (t.tokens.jobs listId).filter _) = _
    rw [h.jobs]
    rfl

/-- **One action in two targets that agree**: they agree afterwards, and so do answers about shown units. -/
theorem run_agrees (h : x.Agrees shown x') (a : ScsiAction) (hflow : a.Flows shown x.target) :
    (run persist w x a).1.Agrees shown (run persist w x' a).1 ∧
      ((∀ l, a.Answers l → shown l) → (run persist w x a).2 = (run persist w x' a).2) := by
  -- an answer that shows no bytes is the same anyway
  have hsame : ∀ {r r' : Exec × ScsiResponse}, Same shown r r' →
      r.1.Agrees shown r'.1 ∧ ((∀ l, a.Answers l → shown l) → r.2 = r'.2) := fun hr => ⟨hr.1, fun _ => hr.2⟩
  cases a with
  | reply => exact ⟨h, fun _ => rfl⟩
  | read lun byteOffset len =>
    obtain ⟨y, y', hy, ⟨e, h1, h2⟩ | ⟨b, b', h1, h2, hb⟩⟩ := h.read w lun byteOffset len
    · simp only [run, h1, h2]
      exact ⟨hy, fun _ => trivial⟩
    · simp only [run, h1, h2]
      exact ⟨hy, fun hs => by rw [hb (hs lun rfl)]⟩
  | verify lun byteOffset len expected =>
    obtain ⟨y, y', hy, ⟨e, h1, h2⟩ | ⟨b, b', h1, h2, hb⟩⟩ := h.read w lun byteOffset len
    · simp only [run, h1, h2]
      exact ⟨hy, fun _ => trivial⟩
    · simp only [run, h1, h2]
      cases expected with
      | none => exact ⟨hy, fun _ => rfl⟩
      | some data => exact ⟨hy, fun hs => by rw [hb (hs lun rfl)]⟩
  | synchronize =>
    simp only [run, h.calls]
    split <;> exact ⟨h, fun _ => rfl⟩
  | mutate lun ops =>
    refine hsame ?_
    obtain ⟨y, y', o, hy, h1, h2⟩ := (agrees_mutateAll w lun ops h).pair
    simp only [run, h1, h2]
    cases o <;> exact ⟨hy, rfl⟩
  | compareAndWrite lun byteOffset expected new =>
    obtain ⟨y, y', hy, ⟨e, h1, h2⟩ | ⟨r, r', h1, h2, hr⟩⟩ := h.mutate w lun
      (fun _ => rfl : shown lun → BlockOp.compareAndWriteBytes byteOffset expected new = .compareAndWriteBytes _ _ _)
    · simp only [run, h1, h2]
      exact ⟨hy, fun _ => trivial⟩
    · simp only [run, h1, h2]
      exact ⟨hy, fun hs => by rw [hr (hs lun rfl)]⟩
  | extendedCopy =>
    refine hsame ?_
    obtain ⟨y, y', o, hy, h1, h2⟩ := (agrees_extendedCopyExecute w hflow h).pair
    simp only [run, h1, h2]
    cases o <;> exact ⟨hy, rfl⟩
  | populateToken lun lu listId inactivity bdrds totalBlocks =>
    exact hsame (agrees_runPopulateToken w lun lu listId inactivity bdrds totalBlocks h)
  | writeUsingToken lun lu listId token bdrds => exact hsame (agrees_runWriteUsingToken w lu listId bdrds h hflow)
  | cancelRodToken listId => exact ⟨⟨agrees_cancel h.target listId, h.calls⟩, fun _ => rfl⟩
  | receiveRodTokenInfo =>
    simp only [run, h.target.jobs]
    exact ⟨h, fun _ => trivial⟩
  | persistentReserveOut =>
    simp only [run, h.target.reservations]
    exact ⟨⟨{ h.target with reservations := rfl }, h.calls⟩, fun _ => trivial⟩

/-! ## One command in two targets -/

variable (probes : Probes) {req : ScsiRequest}

theorem plan_congr (hu : t.units = t'.units) (hr : t.reservations = t'.reservations) (req : ScsiRequest) :
    plan persist probes t req = plan persist probes t' req := by
  obtain ⟨units, content, reservations, tokens, attentions⟩ := t
  obtain ⟨units', content', reservations', tokens', attentions'⟩ := t'
  obtain rfl : units = units' := hu
  obtain rfl : reservations = reservations' := hr
  rfl

theorem pendingAttention_congr (h : t.attentions = t'.attentions) (req : ScsiRequest) :
    pendingAttention t req = pendingAttention t' req := by
  unfold pendingAttention
  rw [h]

def performed (t : Target) (req : ScsiRequest) : Option ScsiAction :=
  if req.cdb = [] ∨ (pendingAttention t req).isSome then none else some (plan persist probes t req)

theorem agrees_popAttention (h : t.Agrees shown t') (req : ScsiRequest) :
    (popAttention t req).Agrees shown (popAttention t' req) := by
  unfold popAttention
  rw [h.attentions]
  exact { h with attentions := rfl }

theorem dispatch_agrees (h : t.Agrees shown t') (req : ScsiRequest)
    (hflow : ∀ a, performed persist probes t req = some a → a.Flows shown t) :
    (dispatch persist w probes t req).1.Agrees shown (dispatch persist w probes t' req).1 ∧
      ((∀ a, performed persist probes t req = some a → ∀ l, a.Answers l → shown l) →
        (dispatch persist w probes t req).2 = (dispatch persist w probes t' req).2) := by
  unfold performed at hflow ⊢
  unfold dispatch
  rw [← pendingAttention_congr h.attentions req, ← plan_congr persist probes h.units h.reservations req]
  by_cases hcdb : req.cdb = []
  · rw [if_pos hcdb, if_pos hcdb]
    exact ⟨h, fun _ => rfl⟩
  · rw [if_neg hcdb, if_neg hcdb]
    cases hatt : pendingAttention t req with
    | some code => exact ⟨agrees_popAttention h req, fun _ => rfl⟩
    | none =>
      rw [if_neg (by simp [hcdb, hatt])] at hflow ⊢
      obtain ⟨hagree, hanswer⟩ := run_agrees persist w
        (show (⟨t, 0⟩ : Exec).Agrees shown ⟨t', 0⟩ from ⟨h, rfl⟩) _ (hflow _ rfl)
      exact ⟨hagree.target, fun hs => hanswer (hs _ rfl)⟩

/-! ## Commands that carry data -/

def carriesData (op : UInt8) : Bool := op = 0x2A ∨ op = 0x8A ∨ op = 0x41 ∨ op = 0x93 ∨ op = 0x89

def ContentOnly : ScsiAction → Prop
  | .reply _ | .mutate _ _ | .compareAndWrite _ _ _ _ => True
  | _ => False

theorem contentOnly_reply (r : ScsiResponse) : ContentOnly (.reply r) := trivial

theorem plan_contentOnly (h : carriesData req.opcode = true) :
    ContentOnly (plan persist probes t req) := by
  have hwrite : ContentOnly (write req (t.admittedUnit req.sessionVolumes req.lun) t.reservations) :=
    of_gateWrite contentOnly_reply fun lu _ => of_orCheck contentOnly_reply _ fun _ => of_ite trivial <|
      of_orCheck contentOnly_reply _ fun _ => of_ite trivial trivial
  have hsame : ContentOnly (writeSame req (t.admittedUnit req.sessionVolumes req.lun) t.reservations) :=
    of_gateWrite contentOnly_reply fun lu _ => of_ite trivial <| of_ite trivial <| of_ite trivial <|
      of_ite trivial <| of_ite trivial <| of_orCheck contentOnly_reply _ fun _ => of_ite trivial <|
        of_ite trivial trivial
  have hcaw : ContentOnly (compareAndWrite req (t.admittedUnit req.sessionVolumes req.lun) t.reservations) :=
    of_gateWrite contentOnly_reply fun lu _ => of_ite trivial <| of_ite trivial <|
      of_orCheck contentOnly_reply _ fun _ => of_ite trivial trivial
  unfold plan
  simp only [carriesData, decide_eq_true_eq] at h
  rcases h with h | h | h | h | h <;> simp only [h] <;> simp <;> assumption

theorem run_contentOnly {a : ScsiAction} (h : ContentOnly a) (x : Exec) :
    Confined a.Writes x (run persist w x a).1 := by
  cases a with
  | reply => exact .refl x
  | mutate lun ops =>
    have hall := confined_mutateAll (W := (ScsiAction.mutate lun ops).Writes) w rfl ops x
    simp only [run]
    split <;> next heq => rwa [heq] at hall
  | compareAndWrite lun byteOffset expected new =>
    have hone := confined_mutate (W := (ScsiAction.compareAndWrite lun byteOffset expected new).Writes) w x rfl
      (.compareAndWriteBytes byteOffset expected new)
    simp only [run]
    split <;> next heq => rwa [heq] at hone
  | read | verify | synchronize | extendedCopy | populateToken | writeUsingToken | cancelRodToken
  | receiveRodTokenInfo | persistentReserveOut => exact h.elim

/-- **Another tenant's data in two targets that agree**: a command of a session admitted to no shown unit. -/
theorem dispatch_data_agrees (h : t.Agrees shown t') (data : Bytes)
    (hop : carriesData req.opcode = true)
    (hhidden : ∀ l lu, t.admittedUnit req.sessionVolumes l = some lu → ¬ shown l) :
    (dispatch persist w probes t req).1.Agrees shown (dispatch persist w probes t' { req with dataOut := data }).1 := by
  have hwrites : ∀ (u : Target), u.Agrees shown t → ∀ q : ScsiRequest, q.sessionVolumes = req.sessionVolumes →
      ∀ l, (plan persist probes u q).Writes l → ¬ shown l := by
    intro u hu q hq l hl
    obtain ⟨lu, hget, hadmits, -⟩ := (plan_planned u q persist probes).gated hl
    refine hhidden l lu ?_
    rw [hu.units] at hget
    rw [hq] at hadmits
    unfold Target.admittedUnit
    rw [if_pos, hget]
    cases hvol : req.sessionVolumes with
    | none => rfl
    | some names =>
      rw [hvol] at hadmits
      simpa [Target.lunAdmitted, hget, SessionVolumes.admits] using hadmits
  unfold dispatch
  rw [show pendingAttention t' { req with dataOut := data } = pendingAttention t req from
    (pendingAttention_congr h.attentions req).symm]
  by_cases hcdb : req.cdb = []
  · rw [if_pos hcdb, if_pos hcdb]
    exact h
  · rw [if_neg hcdb, if_neg hcdb]
    cases hatt : pendingAttention t req with
    | some code => exact agrees_popAttention h req
    | none =>
      have hplan : ContentOnly (plan persist probes t req) := plan_contentOnly persist probes hop
      have hplan' : ContentOnly (plan persist probes t' { req with dataOut := data }) :=
        plan_contentOnly persist probes hop
      have h1 := (run_contentOnly persist w hplan ⟨t, 0⟩).agrees (hwrites t (.refl t) req rfl)
      have h2 := (run_contentOnly persist w hplan' ⟨t', 0⟩).agrees (hwrites t' h.symm _ rfl)
      exact (h1.symm.trans h).trans h2

end Scsi

/-! ## What a command does to the token tables -/

/-- No unit was added or removed, and no token but `fresh` turned up. -/
structure Target.Kept (fresh : RodToken) (t t' : Target) : Prop where
  units : t'.units = t.units
  tokens : ∀ token st, t'.tokens.tokens token = some st → token = fresh ∨ t.tokens.tokens token = some st
  jobs : ∀ listId j token, t'.tokens.jobs listId = some j → j.token = some token →
    token = fresh ∨ ∃ l j', t.tokens.jobs l = some j' ∧ j'.token = some token

namespace Target.Kept

variable {fresh : RodToken} {t t' : Target}

theorem refl (t : Target) : t.Kept fresh t :=
  ⟨rfl, fun _ _ h => .inr h, fun listId j _ h hj => .inr ⟨listId, j, h, hj⟩⟩

theorem recordWriteOutcome (h : t.Kept fresh t') (now : Nat) (listId : UInt32) (status : JobStatus)
    (transferBlocks : UInt64) :
    t.Kept fresh { t' with tokens := t'.tokens.recordWriteOutcome now listId status transferBlocks } := by
  refine ⟨h.units, h.tokens, fun l j token hl hj => ?_⟩
  rcases Table.update_some hl with ⟨rfl, rfl⟩ | ⟨-, hl⟩
  · cases hj
  · exact h.jobs l j token hl hj

theorem mintToken (h : t.Kept fresh t') (listId : UInt32) (st : TokenState) :
    t.Kept fresh { t' with tokens := t'.tokens.mintToken listId fresh st } := by
  refine ⟨h.units, fun token st' hst => ?_, fun l j token hl hj => ?_⟩
  · rcases Table.update_some hst with ⟨heq, -⟩ | ⟨-, hst⟩
    · exact .inl heq
    · exact h.tokens token st' hst
  · rcases Table.update_some hl with ⟨rfl, rfl⟩ | ⟨-, hl⟩
    · exact .inl (Option.some.inj hj).symm
    · exact h.jobs l j token hl hj

theorem cancel (t : Target) (listId : UInt32) : t.Kept fresh { t with tokens := t.tokens.cancel listId } := by
  unfold TokenManager.cancel
  split
  · exact ⟨rfl, fun token' st hst => .inr (Table.update_none hst).2,
      fun l j token' hl hj => .inr ⟨l, j, (Table.update_none hl).2, hj⟩⟩
  · exact .refl t

end Target.Kept

theorem Exec.Confined.kept {W : Lun → Prop} (h : x.Confined W x') (fresh : RodToken) :
    x.target.Kept fresh x'.target := by
  have hbase : x.target.Kept fresh x.target := .refl x.target
  rw [h.rest]
  exact ⟨rfl, hbase.tokens, hbase.jobs⟩

namespace Scsi

open Exec

variable (persist : Option EntityResolver) (w : World)

theorem kept_runPopulateToken (lun : Lun) (lu : LogicalUnit) (listId inactivity : UInt32) (bdrds : List Bdrd)
    (totalBlocks : UInt64) (x : Exec) :
    x.target.Kept w.token (runPopulateToken w lun lu listId inactivity bdrds totalBlocks x).1.target := by
  have hflush := confined_flushRanges (W := fun _ => False) w lun lu bdrds x
  unfold runPopulateToken
  split
  · next heq =>
    rw [heq] at hflush
    exact hflush.kept _
  · next y heq =>
    rw [heq] at hflush
    have hread := hflush.trans (confined_read w y lun 0 0)
    split <;> next heq =>
      rw [heq] at hread
      first
      | exact hread.kept _
      | exact (hread.kept _).mintToken _ _

theorem kept_runWriteUsingToken (lun : Lun) (lu : LogicalUnit) (listId : UInt32) (token : RodToken) (bdrds : List Bdrd)
    (x : Exec) : x.target.Kept w.token (runWriteUsingToken w lun lu listId token bdrds x).1.target := by
  have hfail : ∀ s committed, x.target.Kept w.token (failToken w x listId s committed).1.target :=
    fun s committed => (Target.Kept.refl x.target).recordWriteOutcome _ _ _ _
  unfold runWriteUsingToken
  dsimp only
  split
  · exact hfail _ _
  next st _ =>
  split
  · exact hfail _ _
  split
  · exact hfail _ _
  split
  · exact hfail _ _
  · split
    · exact hfail _ _
    · have happly := confined_applyToken (W := (· = lun)) w rfl lu st
        (st.sourcePages.zip ((bdrdPages lu bdrds).zip st.contents)) 0 x
      split <;> next heq =>
        rw [heq] at happly
        exact (happly.kept _).recordWriteOutcome _ _ _ _

theorem run_kept (a : ScsiAction) (x : Exec) : x.target.Kept w.token (run persist w x a).1.target := by
  cases a with
  | reply | receiveRodTokenInfo => exact .refl x.target
  | read lun byteOffset len =>
    have hread := confined_read (W := fun _ => False) w x lun byteOffset len
    simp only [run]
    split <;> next heq =>
      rw [heq] at hread
      exact hread.kept _
  | verify lun byteOffset len expected =>
    have hread := confined_read (W := fun _ => False) w x lun byteOffset len
    simp only [run]
    split
    · next heq =>
      rw [heq] at hread
      exact hread.kept _
    · next heq =>
      rw [heq] at hread
      split <;> exact hread.kept _
  | synchronize =>
    simp only [run]
    split <;> exact .refl x.target
  | mutate lun ops =>
    have hcontent : ContentOnly (.mutate lun ops) := trivial
    exact (run_contentOnly persist w hcontent x).kept _
  | compareAndWrite lun byteOffset expected new =>
    have hcontent : ContentOnly (.compareAndWrite lun byteOffset expected new) := trivial
    exact (run_contentOnly persist w hcontent x).kept _
  | extendedCopy segments =>
    have hcopy := confined_extendedCopyExecute (W := fun _ => True) w segments (fun _ _ => trivial) x
    simp only [run]
    split <;> next heq =>
      rw [heq] at hcopy
      exact hcopy.kept _
  | populateToken lun lu listId inactivity bdrds totalBlocks =>
    exact kept_runPopulateToken w lun lu listId inactivity bdrds totalBlocks x
  | writeUsingToken lun lu listId token bdrds => exact kept_runWriteUsingToken w lun lu listId token bdrds x
  | cancelRodToken listId => exact .cancel x.target listId
  | persistentReserveOut =>
    have hbase : x.target.Kept w.token x.target := .refl x.target
    exact ⟨rfl, hbase.tokens, hbase.jobs⟩

theorem dispatch_kept (probes : Probes) (t : Target) (req : ScsiRequest) :
    t.Kept w.token (dispatch persist w probes t req).1 := by
  unfold dispatch
  split
  · exact .refl t
  · split
    · have hbase : t.Kept w.token t := .refl t
      exact ⟨rfl, hbase.tokens, hbase.jobs⟩
    · exact run_kept persist w _ ⟨t, 0⟩

end Scsi

/-! ## Sessions -/

structure Tenancy where
  target : Target
  minted : List RodToken := []
  seen : List RodToken := []
  replies : List ScsiResponse := []

inductive TenantAct
  | command (w : World) (req : ScsiRequest)
  | attention (tsih : UInt16) (lun : UInt8) (code : UInt8 × UInt8)
  | sweep (now : Nat)

namespace Tenancy

variable (persist : Option EntityResolver) (probes : Scsi.Probes) (mine : List String)

def Shown (t : Target) (lun : Lun) : Prop := t.lunAdmitted (some mine) lun = true
deriving Decidable

def received (t : Target) (req : ScsiRequest) : Option RodToken :=
  match Scsi.performed persist probes t req with
  | some (.receiveRodTokenInfo listId _) => (t.tokens.jobs listId).bind JobResult.token
  | _ => none

def named (t : Target) (req : ScsiRequest) : Option RodToken :=
  match Scsi.performed persist probes t req with
  | some (.writeUsingToken _ _ _ token _) => some token
  | _ => none

def raise (t : Target) (tsih : UInt16) (lun : UInt8) (code : UInt8 × UInt8) : Target :=
  let queues := t.attentions tsih
  let raised := update queues lun (queues lun ++ [code])
  { t with attentions := update t.attentions tsih raised }

def step (s : Tenancy) : TenantAct → Option Tenancy
  | .command w req =>
    if w.token ∈ s.minted then none
    else
      let r := Scsi.dispatch persist w probes s.target req
      let own := req.sessionVolumes = some mine
      some
        { target := r.1
          minted := w.token :: s.minted
          seen := if own then (received persist probes s.target req).toList ++ s.seen else s.seen
          replies := if own then r.2 :: s.replies else s.replies }
  | .attention tsih lun code => some { s with target := raise s.target tsih lun code }
  | .sweep now => some { s with target := { s.target with tokens := s.target.tokens.sweepExpired now } }

def machine : Machine Tenancy TenantAct := ⟨step persist probes mine⟩

def booted (t : Target) : Tenancy where
  target := { t with tokens := {} }

/-! ### What is asked of a run -/

/-- Other sessions' admission sets have nothing in common with the tenant's. -/
def disjoint : TenantAct → Prop
  | .command _ req => ∃ names, req.sessionVolumes = some names ∧ (names = mine ∨ ∀ name ∈ names, name ∉ mine)
  | _ => True

/-- The tenant names a token it was answered, or one that is not live. -/
def unguessed (s : Tenancy) : TenantAct → Prop
  | .command _ req => req.sessionVolumes = some mine → ∀ token ∈ named persist probes s.target req,
    token ∈ s.seen ∨ (s.target.tokens.tokens token).isNone = true
  | _ => True

def ownTokens (s : Tenancy) : TenantAct → Prop
  | .command _ req => req.sessionVolumes = some mine → ∀ token ∈ received persist probes s.target req,
    ∀ st ∈ s.target.tokens.tokens token, Shown mine s.target st.sourceLun
  | _ => True

instance (s : Tenancy) (a : TenantAct) : Decidable (unguessed persist probes mine s a) := by
  apply TenantAct.casesOn (motive := fun a => Decidable (unguessed persist probes mine s a)) a <;> intros <;>
    unfold unguessed <;> infer_instance

instance (s : Tenancy) (a : TenantAct) : Decidable (ownTokens persist probes mine s a) := by
  apply TenantAct.casesOn (motive := fun a => Decidable (ownTokens persist probes mine s a)) a <;> intros <;>
    unfold ownTokens <;> infer_instance

/-- The same, or one command of another session with different data. -/
inductive Varied : TenantAct → TenantAct → Prop
  | same (a) : Varied a a
  | data (w req data) (other : req.sessionVolumes ≠ some mine) (hop : Scsi.carriesData req.opcode = true) :
      Varied (.command w req) (.command w { req with dataOut := data })

/-! ### One run -/

variable {s : Tenancy} {req : ScsiRequest} {t : Target} {a : ScsiAction} {names : List String}

/-- The tables hold drawn tokens only, and the tenant has seen no live token of another's unit. -/
structure Sound (s : Tenancy) : Prop where
  jobs : ∀ listId j token, s.target.tokens.jobs listId = some j → j.token = some token → token ∈ s.minted
  drawn : ∀ token ∈ s.seen, token ∈ s.minted
  own : ∀ token ∈ s.seen, ∀ st, s.target.tokens.tokens token = some st → Shown mine s.target st.sourceLun

theorem received_drawn (h : Sound mine s) (hr : received persist probes s.target req = some token) :
    token ∈ s.minted := by
  unfold received at hr
  split at hr
  · next listId _ _ =>
    obtain ⟨j, hj, htoken⟩ := Option.bind_eq_some_iff.1 hr
    exact h.jobs listId j token hj htoken
  · cases hr

theorem tokens_of_received (w : World) (hr : received persist probes t req = some token) :
    (Scsi.dispatch persist w probes t req).1.tokens = t.tokens := by
  unfold received Scsi.performed at hr
  unfold Scsi.dispatch
  split
  · rfl
  next hcdb =>
  split
  · rfl
  · next hatt =>
    rw [if_neg (by simp [hcdb, hatt])] at hr
    split at hr
    · next heq =>
      rw [Option.some.inj heq]
      rfl
    · cases hr

theorem Sound.step {s' : Tenancy} {a : TenantAct} (h : Sound mine s) (hok : ownTokens persist probes mine s a)
    (hs : (machine persist probes mine).step s a = some s') : Sound mine s' ∧ s'.target.units = s.target.units := by
  cases a with
  | command w req =>
    simp only [machine, Tenancy.step] at hs
    split at hs
    · cases hs
    next hfresh =>
    obtain rfl := Option.some.inj hs
    have hkept := Scsi.dispatch_kept persist w probes s.target req
    have hshown : ∀ lun, Shown mine s.target lun →
        Shown mine (Scsi.dispatch persist w probes s.target req).1 lun := by
      intro lun hl
      unfold Shown Target.lunAdmitted at hl ⊢
      rwa [hkept.units]
    have hold : ∀ token ∈ s.seen, ∀ st,
        (Scsi.dispatch persist w probes s.target req).1.tokens.tokens token = some st →
        Shown mine (Scsi.dispatch persist w probes s.target req).1 st.sourceLun := by
      intro token htoken st hst
      rcases hkept.tokens token st hst with rfl | hst
      · exact absurd (h.drawn _ htoken) hfresh
      · exact hshown _ (h.own token htoken st hst)
    refine ⟨⟨fun listId j token hj htoken => ?_, ?_, ?_⟩, hkept.units⟩
    · rcases hkept.jobs listId j token hj htoken with rfl | ⟨l, j', hj', htoken'⟩
      · exact List.mem_cons_self
      · exact List.mem_cons_of_mem _ (h.jobs l j' token hj' htoken')
    · intro token htoken
      dsimp only at htoken
      split at htoken
      · rcases List.mem_append.1 htoken with hr | htoken
        · exact List.mem_cons_of_mem _ (received_drawn persist probes mine h (Option.mem_toList.1 hr))
        · exact List.mem_cons_of_mem _ (h.drawn token htoken)
      · exact List.mem_cons_of_mem _ (h.drawn token htoken)
    · intro token htoken st hst
      dsimp only at htoken
      split at htoken
      · next hown =>
        rcases List.mem_append.1 htoken with hr | htoken
        · have hr : received persist probes s.target req = some token := Option.mem_toList.1 hr
          dsimp only at hst
          rw [tokens_of_received persist probes w hr] at hst
          exact hshown _ (hok hown token hr st hst)
        · exact hold token htoken st hst
      · exact hold token htoken st hst
  | attention =>
    obtain rfl := Option.some.inj hs
    exact ⟨⟨h.jobs, h.drawn, h.own⟩, rfl⟩
  | sweep =>
    obtain rfl := Option.some.inj hs
    refine ⟨⟨fun listId j token hj htoken => ?_, h.drawn, fun token htoken st hst => ?_⟩, rfl⟩
    · exact h.jobs listId j token (Option.filter_eq_some_iff.1 hj).1 htoken
    · exact h.own token htoken st (Option.filter_eq_some_iff.1 hst).1

/-! ### Two runs -/

structure Indistinct (shown : Lun → Prop) (s s' : Tenancy) : Prop where
  target : s.target.Agrees shown s'.target
  minted : s.minted = s'.minted
  seen : s.seen = s'.seen
  replies : s.replies = s'.replies

section Admission

variable {mine} {t : Target} {req : ScsiRequest} {l : Lun} {lu : LogicalUnit}

theorem shown_of_admitted (h : t.admittedUnit req.sessionVolumes l = some lu) (hown : req.sessionVolumes = some mine) :
    Shown mine t l := by
  obtain ⟨hget, hadmits⟩ := Target.admittedUnit_some h
  rw [hown] at hadmits
  simpa [Shown, Target.lunAdmitted, hget, SessionVolumes.admits] using hadmits

theorem hidden_of_admitted (h : t.admittedUnit req.sessionVolumes l = some lu)
    (hnames : req.sessionVolumes = some names) (hother : ∀ name ∈ names, name ∉ mine) : ¬ Shown mine t l := by
  obtain ⟨hget, hadmits⟩ := Target.admittedUnit_some h
  rw [hnames] at hadmits
  intro hl
  have hmine : lu.name ∈ mine := by simpa [Shown, Target.lunAdmitted, hget] using hl
  exact hother lu.name (by simpa [SessionVolumes.admits] using hadmits) hmine

end Admission

theorem performed_planned (h : Scsi.performed persist probes t req = some a) : Scsi.Planned t req a := by
  unfold Scsi.performed at h
  split at h
  · cases h
  obtain rfl := Option.some.inj h
  exact Scsi.plan_planned t req persist probes

theorem performed_congr {t' : Target} (h : t.Agrees shown t') (req : ScsiRequest) :
    Scsi.performed persist probes t req = Scsi.performed persist probes t' req := by
  unfold Scsi.performed
  rw [Scsi.pendingAttention_congr h.attentions, Scsi.plan_congr persist probes h.units h.reservations]

theorem received_congr {t' : Target} (h : t.Agrees shown t') (req : ScsiRequest) :
    received persist probes t req = received persist probes t' req := by
  unfold received
  rw [performed_congr persist probes h, h.jobs]

theorem flows_own (h : Sound mine s) {w : World} (hown : req.sessionVolumes = some mine)
    (hg : unguessed persist probes mine s (.command w req)) (ha : Scsi.performed persist probes s.target req = some a) :
    a.Flows (Shown mine s.target) s.target := by
  cases performed_planned persist probes ha with
  | extendedCopy segments hsrc => exact fun seg hseg _ => shown_of_admitted (hsrc seg hseg) hown
  | writeUsingToken lu listId token =>
    intro _ st hst
    have hnamed : named persist probes s.target req = some token := by rw [named, ha]
    rcases hg hown token hnamed with hseen | hnone
    · exact h.own token hseen st hst
    · rw [hst] at hnone
      cases hnone
  | reply | read | verify | synchronize | mutate | compareAndWrite | populateToken | cancelRodToken
  | receiveRodTokenInfo | persistentReserveOut => trivial

theorem flows_other (hnames : req.sessionVolumes = some names)
    (hother : ∀ name ∈ names, name ∉ mine) (ha : Scsi.performed persist probes t req = some a) :
    a.Flows (Shown mine t) t := by
  cases performed_planned persist probes ha with
  | extendedCopy segments hsrc hdst =>
    exact fun seg hseg hs => absurd hs (hidden_of_admitted (hdst seg hseg).admitted hnames hother)
  | writeUsingToken lu listId token bdrds hopen =>
    exact fun hs => absurd hs (hidden_of_admitted hopen.admitted hnames hother)
  | reply | read | verify | synchronize | mutate | compareAndWrite | populateToken | cancelRodToken
  | receiveRodTokenInfo | persistentReserveOut => trivial

theorem answers_own (hown : req.sessionVolumes = some mine) (ha : Scsi.performed persist probes t req = some a) :
    ∀ l, a.Answers l → Shown mine t l := by
  intro l hl
  cases performed_planned persist probes ha with
  | read lu byteOffset len h | verify lu byteOffset len expected h =>
    obtain rfl : l = req.lun := hl
    exact shown_of_admitted h hown
  | compareAndWrite lu byteOffset expected new h =>
    obtain rfl : l = req.lun := hl
    exact shown_of_admitted h.admitted hown
  | reply | synchronize | mutate | extendedCopy | populateToken | writeUsingToken | cancelRodToken
  | receiveRodTokenInfo | persistentReserveOut => exact hl.elim

theorem Indistinct.step {s' s1 : Tenancy} {a a' : TenantAct} (h : Indistinct (Shown mine s.target) s s')
    (hsound : Sound mine s) (hv : Varied mine a a') (hd : disjoint mine a) (hg : unguessed persist probes mine s a)
    (hs : (machine persist probes mine).step s a = some s1) :
    ∃ s1', (machine persist probes mine).step s' a' = some s1' ∧ Indistinct (Shown mine s.target) s1 s1' := by
  cases hv with
  | same =>
    cases a with
    | command w req =>
      simp only [machine, Tenancy.step, h.minted] at hs ⊢
      split at hs
      · cases hs
      next hfresh =>
      obtain rfl := Option.some.inj hs
      rw [if_neg hfresh]
      refine ⟨_, rfl, ?_⟩
      have hreceived := received_congr persist probes h.target req
      by_cases hown : req.sessionVolumes = some mine
      · obtain ⟨hagree, hanswer⟩ := Scsi.dispatch_agrees persist w probes h.target req
          fun a ha => flows_own persist probes mine hsound hown hg ha
        have hreply := hanswer fun a ha => answers_own persist probes mine hown ha
        refine ⟨hagree, rfl, ?_, ?_⟩
        · simp only [if_pos hown, hreceived, h.seen]
        · simp only [if_pos hown, hreply, h.replies]
      · obtain ⟨names, hnames, rfl | hother⟩ := hd
        · exact absurd hnames hown
        · obtain ⟨hagree, -⟩ := Scsi.dispatch_agrees persist w probes h.target req
            fun a ha => flows_other persist probes mine hnames hother ha
          refine ⟨hagree, rfl, ?_, ?_⟩
          · simp only [if_neg hown, h.seen]
          · simp only [if_neg hown, h.replies]
    | attention =>
      obtain rfl := Option.some.inj hs
      refine ⟨_, rfl, ?_, h.minted, h.seen, h.replies⟩
      unfold raise
      rw [h.target.attentions]
      exact { h.target with attentions := rfl }
    | sweep now =>
      obtain rfl := Option.some.inj hs
      exact ⟨_, rfl, Scsi.agrees_sweepExpired h.target now, h.minted, h.seen, h.replies⟩
  | data w req data other hop =>
    obtain ⟨names, hnames, rfl | hother⟩ := hd
    · exact absurd hnames other
    · simp only [machine, Tenancy.step, h.minted] at hs ⊢
      split at hs
      · cases hs
      next hfresh =>
      obtain rfl := Option.some.inj hs
      rw [if_neg hfresh]
      refine ⟨_, rfl, ?_, rfl, ?_, ?_⟩
      · exact Scsi.dispatch_data_agrees persist w probes h.target data hop
          fun l lu hl => hidden_of_admitted hl hnames hother
      · simp only [if_neg other, h.seen]
      · simp only [if_neg other, h.replies]

theorem Indistinct.run : ∀ {acts acts' : List TenantAct}, List.Forall₂ (Varied mine) acts acts' →
    (∀ a ∈ acts, disjoint mine a) → ∀ {s s' s1 : Tenancy}, Indistinct (Shown mine s.target) s s' → Sound mine s →
    (machine persist probes mine).Meets (unguessed persist probes mine) s acts →
    (machine persist probes mine).Meets (ownTokens persist probes mine) s acts →
    (machine persist probes mine).run s acts = some s1 →
    ∃ s1', (machine persist probes mine).run s' acts' = some s1' ∧ Indistinct (Shown mine s.target) s1 s1' ∧
      Sound mine s1 ∧ s1.target.units = s.target.units
  | _, _, .nil, _, s, s', s1, h, hsound, _, _, hrun => by
    obtain rfl := Option.some.inj hrun
    exact ⟨s', rfl, h, hsound, rfl⟩
  | a :: acts, a' :: acts', .cons hv hrest, hd, s, s', s1, h, hsound, hg, ho, hrun => by
    obtain ⟨s2, hs, hrun⟩ := (machine persist probes mine).run_cons_some hrun
    rw [Machine.meets_cons _ hs] at hg ho
    obtain ⟨s2', hs', h2⟩ := h.step persist probes mine hsound hv (hd a List.mem_cons_self) hg.1 hs
    obtain ⟨hsound2, hunits⟩ := hsound.step persist probes mine ho.1 hs
    have hshown : Shown mine s2.target = Shown mine s.target := by
      funext lun
      unfold Shown Target.lunAdmitted
      rw [hunits]
    rw [← hshown] at h2
    obtain ⟨s1', hrun', h1, hsound1, hunits1⟩ := Indistinct.run hrest
      (fun b hb => hd b (List.mem_cons_of_mem a hb)) h2 hsound2 hg.2 ho.2 hrun
    rw [hshown] at h1
    exact ⟨s1', by rw [Machine.run_cons, hs']; exact hrun', h1, hsound1, hunits1.trans hunits⟩

/-- **Tenant isolation.** Two targets and runs differ only in units the tenant is not admitted to: if it is never
answered a live token of such a unit, its answers and its units' bytes are the same. -/
theorem tenant_isolation (t t' : Target) (hsame : t' = { t with content := t'.content })
    (hmine : ∀ lun, Shown mine t lun → t'.content lun = t.content lun) (acts acts' : List TenantAct)
    (hvaried : List.Forall₂ (Varied mine) acts acts') (hdisjoint : ∀ a ∈ acts, disjoint mine a) (s : Tenancy)
    (hrun : (machine persist probes mine).run (booted t) acts = some s)
    (hunguessed : (machine persist probes mine).Meets (unguessed persist probes mine) (booted t) acts)
    (hown : (machine persist probes mine).Meets (ownTokens persist probes mine) (booted t) acts) :
    ∃ s', (machine persist probes mine).run (booted t') acts' = some s' ∧ s'.replies = s.replies ∧
      (∀ lun, Shown mine t lun → s'.target.content lun = s.target.content lun) ∧
      ∀ token ∈ s.seen, ∀ st, s.target.tokens.tokens token = some st → Shown mine t st.sourceLun := by
  have hboot : Indistinct (Shown mine (booted t).target) (booted t) (booted t') := by
    rw [hsame]
    refine ⟨⟨rfl, fun lun hl => (hmine lun hl).symm, rfl, fun token => .none, rfl, rfl⟩, rfl, rfl, rfl⟩
  have hsound : Sound mine (booted t) :=
    ⟨fun _ _ _ h => (by cases h), fun _ h => (by cases h), fun _ h => (by cases h)⟩
  obtain ⟨s', hrun', h, hs, hunits⟩ := Indistinct.run persist probes mine hvaried hdisjoint hboot hsound hunguessed hown
    hrun
  refine ⟨s', hrun', h.replies.symm, fun lun hl => (h.target.content lun hl).symm, fun token htoken st hst => ?_⟩
  have hshown := hs.own token htoken st hst
  unfold Shown Target.lunAdmitted at hshown ⊢
  rwa [hunits] at hshown

/-! ### Two tenants -/

def twoTenants (held : Bytes) : Target where
  units := ((∅ : SortedMap Lun LogicalUnit).insert 0 (Submission.smallUnit "a" 1)).insert 1 (Submission.smallUnit "b" 2)
  content lun := if lun = 0 then held else List.replicate 16 0
  reservations := {}
  tokens := {}
  attentions _ _ := []

def drawing (b : UInt8) : World := ⟨0, List.replicate rodTokenLen b, true, fun _ => none⟩

section

variable (name : String) (lun : Lun)

def requestOf (cdb dataOut : Bytes) : ScsiRequest :=
  ⟨1, lun, cdb, dataOut, 1024, some name, 1, some [name]⟩

def firstPage : Bytes := List.replicate 11 0 ++ [2] ++ List.replicate 4 0

def populateFirst (listId : UInt8) : ScsiRequest :=
  requestOf name lun [0x83, 0x10, 0, 0, 0, 0, 0, 0, 0, listId, 0, 0, 0, 32, 0, 0]
    (List.replicate 15 0 ++ [16] ++ firstPage)

def receiveInfo (listId : UInt8) : ScsiRequest :=
  requestOf name lun [0x84, 0x07, 0, 0, 0, listId, 0, 0, 0, 0, 0, 0, 4, 0, 0, 0] []

def writeFirst (listId : UInt8) (token : RodToken) : ScsiRequest :=
  requestOf name lun [0x83, 0x11, 0, 0, 0, 0, 0, 0, 0, listId, 0, 0, 2, 40, 0, 0]
    (List.replicate 16 0 ++ token ++ [0, 16] ++ List.replicate 6 0 ++ firstPage)

def writeBlock (data : Bytes) : ScsiRequest :=
  requestOf name lun [0x2A, 0, 0, 0, 0, 0, 0, 0, 1, 0] data

end

def ownRun (data : Bytes) : List TenantAct :=
  [.command (drawing 3) (writeBlock "a" 0 data), .command (drawing 0x5A) (populateFirst "b" 1 7),
    .command (drawing 1) (receiveInfo "b" 1 7),
    .command (drawing 2) (writeFirst "b" 1 8 (List.replicate rodTokenLen 0x5A))]

theorem tenant_isolation_ownRun :
    ∃ s s', (machine none Submission.noProbes ["b"]).run (booted (twoTenants (List.replicate 16 1)))
        (ownRun [1, 1, 1, 1]) = some s ∧
      (machine none Submission.noProbes ["b"]).run (booted (twoTenants (List.replicate 16 2)))
        (ownRun [5, 6, 7, 8]) = some s' ∧
      s.seen = [List.replicate rodTokenLen 0x5A] ∧ s.replies.length = 3 ∧ s'.replies = s.replies ∧
      s'.target.content 1 = s.target.content 1 := by
  obtain ⟨s, hs, hseen, hlength⟩ :
      ∃ s ∈ (machine none Submission.noProbes ["b"]).run (booted (twoTenants (List.replicate 16 1)))
        (ownRun [1, 1, 1, 1]), s.seen = [List.replicate rodTokenLen 0x5A] ∧ s.replies.length = 3 := by decide +kernel
  have hvaried : List.Forall₂ (Varied ["b"]) (ownRun [1, 1, 1, 1]) (ownRun [5, 6, 7, 8]) :=
    .cons (.data (drawing 3) (writeBlock "a" 0 [1, 1, 1, 1]) [5, 6, 7, 8] (by decide) (by decide))
      (.cons (.same _) (.cons (.same _) (.cons (.same _) .nil)))
  have hdisjoint : ∀ a ∈ ownRun [1, 1, 1, 1], disjoint ["b"] a := by
    intro a ha
    simp only [ownRun, List.mem_cons, List.not_mem_nil, or_false] at ha
    rcases ha with rfl | rfl | rfl | rfl
    · exact ⟨_, rfl, .inr (by decide)⟩
    · exact ⟨_, rfl, .inl rfl⟩
    · exact ⟨_, rfl, .inl rfl⟩
    · exact ⟨_, rfl, .inl rfl⟩
  have hmine : ∀ lun, Shown ["b"] (twoTenants (List.replicate 16 1)) lun →
      (twoTenants (List.replicate 16 2)).content lun = (twoTenants (List.replicate 16 1)).content lun := by
    intro lun hl
    have hne : lun ≠ 0 := by
      rintro rfl
      exact absurd hl (by decide)
    simp only [twoTenants, if_neg hne]
  obtain ⟨s', hs', hreplies, hcontent, -⟩ := tenant_isolation none Submission.noProbes ["b"] _ _ rfl hmine _ _ hvaried
    hdisjoint s hs (by decide +kernel) (by decide +kernel)
  exact ⟨s, s', hs, hs', hseen, hlength, hreplies, hcontent 1 (by decide)⟩

def leakRun : List TenantAct :=
  [.command (drawing 0x5A) (populateFirst "a" 0 7), .command (drawing 1) (receiveInfo "b" 1 7),
    .command (drawing 2) (writeFirst "b" 1 8 (List.replicate rodTokenLen 0x5A))]

theorem leakRun_disjoint : ∀ a ∈ leakRun, disjoint ["b"] a := by
  intro a ha
  simp only [leakRun, List.mem_cons, List.not_mem_nil, or_false] at ha
  rcases ha with rfl | rfl | rfl
  · exact ⟨_, rfl, .inr (by decide)⟩
  · exact ⟨_, rfl, .inl rfl⟩
  · exact ⟨_, rfl, .inl rfl⟩

/-- **A tenant copies another's page into its own volume**, by a token it was told. -/
theorem tenant_isolation_fails :
    (∀ a ∈ leakRun, disjoint ["b"] a) ∧ ∃ s s',
      (machine none Submission.noProbes ["b"]).run (booted (twoTenants (List.replicate 16 1))) leakRun = some s ∧
      (machine none Submission.noProbes ["b"]).run (booted (twoTenants (List.replicate 16 2))) leakRun = some s' ∧
      (machine none Submission.noProbes ["b"]).Meets (unguessed none Submission.noProbes ["b"])
        (booted (twoTenants (List.replicate 16 1))) leakRun ∧
      s.seen = [List.replicate rodTokenLen 0x5A] ∧
      s.target.content 1 = List.replicate 8 1 ++ List.replicate 8 0 ∧
      s'.target.content 1 = List.replicate 8 2 ++ List.replicate 8 0 := by
  have hrun : ∀ b : UInt8, b = 1 ∨ b = 2 →
      ∃ s ∈ (machine none Submission.noProbes ["b"]).run (booted (twoTenants (List.replicate 16 b))) leakRun,
        s.seen = [List.replicate rodTokenLen 0x5A] ∧
        s.target.content 1 = List.replicate 8 b ++ List.replicate 8 0 := by
    rintro b (rfl | rfl) <;> decide +kernel
  obtain ⟨s, hs, hseen, hcontent⟩ := hrun 1 (.inl rfl)
  obtain ⟨s', hs', -, hcontent'⟩ := hrun 2 (.inr rfl)
  exact ⟨leakRun_disjoint, s, s', hs, hs', by decide +kernel, hseen, hcontent, hcontent'⟩

end Tenancy
end Thur

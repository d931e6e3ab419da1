import Thur.Reservations.Persistence
import Thur.Target.Nvme
/-!
# Mediation — every mutation of a volume is gated, on both transports

An action writes to the units it names (`Writes`). Running it leaves every other unit's bytes as they were
(`run_spares`), and the dispatchers only plan an action that writes to a unit once the unit is admitted to the session,
not write protected, and open to the registrant (`plan_gated`, `planIo_gated`).
-/
namespace Thur

/-! ## Calls stay on their units -/

structure Exec.Confined (W : Lun → Prop) (x x' : Exec) : Prop where
  rest : x'.target = { x.target with content := x'.target.content }
  spared : ∀ lun, ¬ W lun → x'.target.content lun = x.target.content lun

namespace Exec

variable {W : Lun → Prop} (w : World) {lun : Lun}

theorem Confined.refl (x : Exec) : Confined W x x := ⟨rfl, fun _ _ => rfl⟩

theorem Confined.trans {x y z : Exec} (h : Confined W x y) (h' : Confined W y z) : Confined W x z where
  rest := by rw [h'.rest, h.rest]
  spared lun hl := (h'.spared lun hl).trans (h.spared lun hl)

theorem confined_read (x : Exec) (lun : Lun) (byteOffset len : Nat) : Confined W x (x.read w lun byteOffset len).1 :=
  ⟨rfl, fun _ _ => rfl⟩

theorem spares_read (x : Exec) (lun : Lun) (byteOffset len : Nat) (l : Lun) :
    (x.read w lun byteOffset len).1.target.content l = x.target.content l := rfl

theorem confined_setContent (x : Exec) (h : W lun) (bytes : Bytes) : Confined W x (x.setContent lun bytes) where
  rest := rfl
  spared l hl := Function.update_of_ne (show l ≠ lun by rintro rfl; exact hl h) _ _

theorem confined_mutate (x : Exec) (h : W lun) (op : BlockOp) : Confined W x (x.mutate w lun op).1 := by
  unfold mutate
  dsimp only
  split <;> exact confined_setContent x h _

theorem confined_cloneInto (x : Exec) (src : Lun) (srcOffset : Nat) {dst : Lun} (h : W dst) (dstOffset len : Nat) :
    Confined W x (x.cloneInto w src srcOffset dst dstOffset len).1 := by
  unfold cloneInto
  dsimp only
  split <;> exact confined_setContent x h _

theorem confined_mutateAll (h : W lun) : ∀ (ops : List BlockOp) (x : Exec), Confined W x (mutateAll w lun ops x).1
  | [], x => .refl x
  | op :: ops, x => by
    have hop := confined_mutate w x h op
    unfold mutateAll
    split <;> next heq =>
      rw [heq] at hop
      first
      | exact hop.trans (confined_mutateAll h ops _)
      | exact hop

end Exec

variable {lun : Lun} {allow : SessionVolumes}

namespace Scsi

open Exec

variable {W : Lun → Prop} (persist : Option EntityResolver) (w : World)

theorem confined_copyWindows (src : Lun) {dst : Lun} (h : W dst) (srcOffset dstOffset : Nat) :
    ∀ (l : List (Nat × Nat)) (x : Exec), Confined W x (copyWindows w src dst srcOffset dstOffset l x).1
  | [], x => .refl x
  | (cursor, len) :: rest, x => by
    have hread := confined_read (W := W) w x src (srcOffset + cursor) len
    unfold copyWindows
    split
    · next heq => rwa [heq] at hread
    · next x1 buf heq =>
      rw [heq] at hread
      have hwrite := confined_mutate w x1 h (.writeBytes (dstOffset + cursor) buf)
      split <;> next heq =>
        rw [heq] at hwrite
        first
        | exact hread.trans hwrite
        | exact (hread.trans hwrite).trans (confined_copyWindows src h srcOffset dstOffset rest _)

theorem confined_executeSegment (seg : PlannedSegment) (h : W seg.dst.1) (x : Exec) :
    Confined W x (executeSegment w seg x).1 := by
  unfold executeSegment
  dsimp only
  split
  · exact .refl x
  · split
    · have hclone := confined_cloneInto w x seg.src.1 (seg.srcLba.toNat * seg.src.2.sector) h
        (seg.dstLba.toNat * seg.dst.2.sector) (seg.blocks.toNat * seg.src.2.sector)
      split <;> next heq => rwa [heq] at hclone
    · exact confined_copyWindows w seg.src.1 h _ _ _ x

theorem confined_extendedCopyExecute : ∀ (segments : List PlannedSegment), (∀ seg ∈ segments, W seg.dst.1) →
    ∀ x : Exec, Confined W x (extendedCopyExecute w segments x).1
  | [], _, x => .refl x
  | seg :: rest, h, x => by
    have hseg := confined_executeSegment w seg (h seg List.mem_cons_self) x
    have hrest := confined_extendedCopyExecute rest fun s hs => h s (List.mem_cons_of_mem _ hs)
    unfold extendedCopyExecute
    split
    · exact hrest x
    · split <;> next heq =>
        rw [heq] at hseg
        first
        | exact hseg.trans (hrest _)
        | exact hseg

theorem confined_flushRanges (lun : Lun) (lu : LogicalUnit) : ∀ (bdrds : List Bdrd) (x : Exec),
    Confined W x (flushRanges w lun lu bdrds x).1
  | [], x => .refl x
  | bd :: rest, x => by
    have hread := confined_read (W := W) w x lun 0 0
    unfold flushRanges
    dsimp only
    split
    · exact confined_flushRanges lun lu rest x
    · split
      · exact .refl x
      · split <;> next heq =>
          rw [heq] at hread
          first
          | exact hread.trans (confined_flushRanges lun lu rest _)
          | exact hread

theorem confined_applyPage (h : W lun) (lu : LogicalUnit) (st : TokenState) (x : Exec) (src dst : PageId)
    (bytes : Bytes) : Confined W x (applyPage w lun lu st x src dst bytes).1 := by
  have hwrite := confined_mutate w x h (.writeBytes (dst.toNat * lu.pageSize) bytes)
  unfold applyPage
  dsimp only
  split <;> next heq => rwa [heq] at hwrite

theorem confined_applyToken (h : W lun) (lu : LogicalUnit) (st : TokenState) :
    ∀ (pages : List (PageId × PageId × Bytes)) (committed : UInt64) (x : Exec),
      Confined W x (applyToken w lun lu st pages committed x).1
  | [], _, x => .refl x
  | (src, dst, bytes) :: rest, committed, x => by
    have hpage := confined_applyPage w h lu st x src dst bytes
    unfold applyToken
    split <;> next heq =>
      rw [heq] at hpage
      first
      | exact hpage.trans (confined_applyToken h lu st rest _ _)
      | exact hpage

end Scsi

/-! ## What an action writes to -/

def ScsiAction.Writes : ScsiAction → Lun → Prop
  | .mutate lun _, l => l = lun
  | .compareAndWrite lun _ _ _, l => l = lun
  | .extendedCopy segments, l => ∃ seg ∈ segments, l = seg.dst.1
  | .writeUsingToken lun _ _ _ _, l => l = lun
  | _, _ => False

def NvmeAction.Writes : NvmeAction → Lun → Prop
  | .mutate lun _ _, l => l = lun
  | _, _ => False

namespace Scsi

open Exec

variable (persist : Option EntityResolver) (w : World)

theorem spares_failToken (x : Exec) (listId : UInt32) (s : SenseData) (committed : UInt64) :
    (failToken w x listId s committed).1.target.content = x.target.content := rfl

theorem spares_runPopulateToken (lun : Lun) (lu : LogicalUnit) (listId inactivity : UInt32) (bdrds : List Bdrd)
    (totalBlocks : UInt64) (x : Exec) (l : Lun) :
    (runPopulateToken w lun lu listId inactivity bdrds totalBlocks x).1.target.content l = x.target.content l := by
  have hflush := (confined_flushRanges (W := fun _ => False) w lun lu bdrds x).spared l not_false
  unfold runPopulateToken
  split
  · next heq => rwa [heq] at hflush
  · next x1 heq =>
    rw [heq] at hflush
    have hread := spares_read w x1 lun 0 0 l
    split <;> next heq =>
      rw [heq] at hread
      exact hread.trans hflush

theorem spares_runWriteUsingToken (lun : Lun) (lu : LogicalUnit) (listId : UInt32) (token : RodToken)
    (bdrds : List Bdrd) (x : Exec) {l : Lun} (hl : l ≠ lun) :
    (runWriteUsingToken w lun lu listId token bdrds x).1.target.content l = x.target.content l := by
  unfold runWriteUsingToken
  dsimp only
  split
  · rw [spares_failToken]
  next st _ =>
  split
  · rw [spares_failToken]
  split
  · rw [spares_failToken]
  split
  · rw [spares_failToken]
  · split
    · rw [spares_failToken]
    · have happly := (confined_applyToken (W := (· = lun)) w rfl lu st
        (st.sourcePages.zip ((bdrdPages lu bdrds).zip st.contents)) 0 x).spared l hl
      split <;> next heq =>
        rw [heq] at happly
        exact happly

theorem run_spares (a : ScsiAction) (x : Exec) (h : ¬ a.Writes lun) :
    (run persist w x a).1.target.content lun = x.target.content lun := by
  cases a with
  | reply | cancelRodToken | receiveRodTokenInfo | persistentReserveOut => rfl
  | read l byteOffset len =>
    have hread := spares_read w x l byteOffset len lun
    simp only [run]
    split <;> next heq => rwa [heq] at hread
  | verify l byteOffset len expected =>
    have hread := spares_read w x l byteOffset len lun
    simp only [run]
    split
    · next heq => rwa [heq] at hread
    · next heq =>
      rw [heq] at hread
      split <;> exact hread
  | synchronize =>
    simp only [run]
    split <;> rfl
  | mutate l ops =>
    have hall := (confined_mutateAll (W := (· = l)) w rfl ops x).spared lun h
    simp only [run]
    split <;> next heq => rwa [heq] at hall
  | compareAndWrite l byteOffset expected new =>
    have hone := (confined_mutate (W := (· = l)) w x rfl (.compareAndWriteBytes byteOffset expected new)).spared lun h
    simp only [run]
    split <;> next heq => rwa [heq] at hone
  | extendedCopy segments =>
    have hcopy := (confined_extendedCopyExecute (W := (ScsiAction.extendedCopy segments).Writes) w segments
      (fun seg hseg => ⟨seg, hseg, rfl⟩) x).spared lun h
    simp only [run]
    split <;> next heq => rwa [heq] at hcopy
  | populateToken l lu listId inactivity bdrds totalBlocks =>
    exact spares_runPopulateToken w l lu listId inactivity bdrds totalBlocks x lun
  | writeUsingToken l lu listId token bdrds => exact spares_runWriteUsingToken w l lu listId token bdrds x h

end Scsi

theorem Nvme.run_spares (persist : Option EntityResolver) (w : World) (a : NvmeAction) (x : Exec)
    (h : ¬ a.Writes lun) : (run persist w x a).1.target.content lun = x.target.content lun := by
  cases a with
  | reply | reservation => rfl
  | flush =>
    simp only [run]
    split <;> rfl
  | read l byteOff len | compare l byteOff len expected | verify l byteOff len =>
    have hread := Exec.spares_read w x l byteOff len lun
    simp only [run]
    split <;> next heq => rwa [heq] at hread
  | mutate l ops last =>
    have hall := (Exec.confined_mutateAll (W := (· = l)) w rfl ops x).spared lun h
    simp only [run]
    split <;> next heq => rwa [heq] at hall

/-! ## What the dispatchers plan -/

/-- The unit is admitted, not write protected, and open to the registrant's writes. -/
def Target.Gated (t : Target) (allow : SessionVolumes) (id : RegistrantId) (lun : Lun) : Prop :=
  ∃ lu, t.units.get lun = some lu ∧ allow.admits lu.name = true ∧ lu.manifest.worm = false ∧
    t.reservations.allowWrite lun id = true

namespace Scsi

theorem parseSegments_targets {sdescs : Bytes} {targets : List (Lun × LogicalUnit)} :
    ∀ {fuel cursor : Nat} {planned : List PlannedSegment}, parseSegments sdescs targets fuel cursor = some planned →
      ∀ seg ∈ planned, seg.src ∈ targets ∧ seg.dst ∈ targets
  | 0, _, _, h => by
    obtain rfl := Option.some.inj h
    simp
  | fuel + 1, cursor, planned, h => by
    unfold parseSegments at h
    dsimp only at h
    split at h
    · obtain rfl := Option.some.inj h
      simp
    · split at h
      · cases h
      split at h
      · cases h
      split at h
      · cases h
      split at h
      · next src dst hsrc hdst =>
        obtain ⟨rest, hrest, rfl⟩ := Option.map_eq_some_iff.1 h
        intro seg hseg
        rcases List.mem_cons.1 hseg with rfl | hseg
        · exact ⟨List.mem_of_getElem? hsrc, List.mem_of_getElem? hdst⟩
        · exact parseSegments_targets hrest seg hseg
      · cases h

variable {res : ReservationManager} {nexus : RegistrantId}

theorem gateSegments_ok :
    ∀ {planned : List PlannedSegment}, gateSegments res nexus planned = .ok () →
      ∀ seg ∈ planned, gateSegment res nexus seg = .ok ()
  | [], _ => by simp
  | seg :: rest, h => by
    unfold gateSegments at h
    split at h
    · cases h
    next hseg =>
    intro s hs
    rcases List.mem_cons.1 hs with rfl | hs
    · exact hseg
    · exact gateSegments_ok h s hs

theorem gateSegment_ok {seg : PlannedSegment}
    (h : gateSegment res nexus seg = .ok ()) :
    seg.dst.2.manifest.worm = false ∧ res.allowWrite seg.dst.1 nexus = true ∧ res.allowRead seg.src.1 nexus = true := by
  unfold gateSegment at h
  split at h
  · cases h
  next hworm =>
  split at h
  · cases h
  next hwrite =>
  split at h
  · cases h
  · next hread => exact ⟨Bool.eq_false_iff.2 hworm, by simpa using hwrite, by simpa using hread⟩

variable {t : Target} {req : ScsiRequest}

theorem resolveTargetDescriptor_some {desc : Bytes} {e : Lun × LogicalUnit}
    (h : resolveTargetDescriptor t allow desc = some e) : t.admittedUnit allow e.1 = some e.2 := by
  unfold resolveTargetDescriptor at h
  split at h
  · cases h
  split at h
  · cases h
  split at h
  · cases h
  have hmem := List.mem_of_getLast? h
  obtain ⟨hmem, hadm⟩ := List.mem_filter.1 hmem
  have hadm := (Bool.and_eq_true_iff.1 hadm).1
  unfold Target.admittedUnit
  rw [if_pos hadm]
  exact (t.units.get_eq_some e.1 e.2).2 hmem

theorem exists_of_mem_mapM {α β : Type} {f : α → Option β} : ∀ {l : List α} {r : List β}, l.mapM f = some r →
    ∀ b ∈ r, ∃ a ∈ l, f a = some b
  | [], r, h => by
    obtain rfl : r = [] := by simpa using h.symm
    simp
  | a :: l, r, h => by
    rw [List.mapM_cons] at h
    obtain ⟨b, hb, h⟩ := Option.bind_eq_some_iff.1 h
    obtain ⟨rest, hrest, h⟩ := Option.bind_eq_some_iff.1 h
    obtain rfl := Option.some.inj h
    intro b' hb'
    rcases List.mem_cons.1 hb' with rfl | hb'
    · exact ⟨a, List.mem_cons_self, hb⟩
    · obtain ⟨a', ha', hfa⟩ := exists_of_mem_mapM hrest b' hb'
      exact ⟨a', List.mem_cons_of_mem _ ha', hfa⟩

structure Open (t : Target) (req : ScsiRequest) (lun : Lun) (lu : LogicalUnit) : Prop where
  admitted : t.admittedUnit req.sessionVolumes lun = some lu
  worm : lu.manifest.worm = false
  allowWrite : t.reservations.allowWrite lun req.nexus = true

/-- **What a command is planned as**, and what the handlers have checked by then. -/
inductive Planned (t : Target) (req : ScsiRequest) : ScsiAction → Prop
  | reply (r) : Planned t req (.reply r)
  | read (lu byteOffset len) (h : t.admittedUnit req.sessionVolumes req.lun = some lu) :
      Planned t req (.read req.lun byteOffset len)
  | verify (lu byteOffset len expected) (h : t.admittedUnit req.sessionVolumes req.lun = some lu) :
      Planned t req (.verify req.lun byteOffset len expected)
  | synchronize : Planned t req .synchronize
  | mutate (lu ops) (h : Open t req req.lun lu) : Planned t req (.mutate req.lun ops)
  | compareAndWrite (lu byteOffset expected new) (h : Open t req req.lun lu) :
      Planned t req (.compareAndWrite req.lun byteOffset expected new)
  | extendedCopy (segments) (hsrc : ∀ seg ∈ segments, t.admittedUnit req.sessionVolumes seg.src.1 = some seg.src.2)
      (hdst : ∀ seg ∈ segments, Open t req seg.dst.1 seg.dst.2) : Planned t req (.extendedCopy segments)
  | populateToken (lu listId inactivity bdrds totalBlocks)
      (h : t.admittedUnit req.sessionVolumes req.lun = some lu) :
      Planned t req (.populateToken req.lun lu listId inactivity bdrds totalBlocks)
  | writeUsingToken (lu listId token bdrds) (h : Open t req req.lun lu) :
      Planned t req (.writeUsingToken req.lun lu listId token bdrds)
  | cancelRodToken (listId) : Planned t req (.cancelRodToken listId)
  | receiveRodTokenInfo (listId allocLen) : Planned t req (.receiveRodTokenInfo listId allocLen)
  | persistentReserveOut (request) : Planned t req (.persistentReserveOut request)

section Planned

variable {t : Target} {req : ScsiRequest} {P : ScsiAction → Prop} {k : LogicalUnit → ScsiAction}

theorem of_ite {c : Prop} [Decidable c] {a b : ScsiAction} (ha : P a) (hb : P b) : P (if c then a else b) := by
  split <;> assumption

theorem of_orCheck (hreply : ∀ r, P (.reply r)) {α : Type} (r : Except SenseData α) {k : α → ScsiAction}
    (h : ∀ a, P (k a)) : P (orCheck r k) := by
  cases r with
  | ok a => exact h a
  | error s => exact hreply _

theorem of_gateWrite (hreply : ∀ r, P (.reply r))
    (hk : ∀ lu, Open t req req.lun lu → P (k lu)) :
    P (gateWrite req (t.admittedUnit req.sessionVolumes req.lun) t.reservations k) := by
  unfold gateWrite
  split
  · exact hreply _
  · next lu hlu =>
    split
    · exact hreply _
    · next hallow =>
      split
      · exact hreply _
      · next hworm => exact hk lu ⟨hlu, Bool.eq_false_iff.2 hworm, by simpa using hallow⟩

theorem refuse {c : Prop} [Decidable c] {r : ScsiResponse} {a : ScsiAction} (h : Planned t req a) :
    Planned t req (if c then .reply r else a) := of_ite (.reply r) h

theorem planned_gateRead
    (hk : ∀ lu, t.admittedUnit req.sessionVolumes req.lun = some lu → Planned t req (k lu)) :
    Planned t req (gateRead req (t.admittedUnit req.sessionVolumes req.lun) t.reservations k) := by
  unfold gateRead
  split
  · exact .reply _
  · next lu hlu => exact refuse (hk lu hlu)

variable (t req)

theorem planned_write : Planned t req (write req (t.admittedUnit req.sessionVolumes req.lun) t.reservations) :=
  of_gateWrite Planned.reply fun lu h => of_orCheck Planned.reply _ fun _ => refuse <|
    of_orCheck Planned.reply _ fun _ => refuse (.mutate lu _ h)

theorem planned_read : Planned t req (read req (t.admittedUnit req.sessionVolumes req.lun) t.reservations) :=
  planned_gateRead fun lu h => of_orCheck Planned.reply _ fun _ => refuse <|
    of_orCheck Planned.reply _ fun _ => .read lu _ _ h

theorem planned_synchronizeCache :
    Planned t req (synchronizeCache req (t.admittedUnit req.sessionVolumes req.lun) t.reservations) := by
  unfold synchronizeCache
  split
  · exact .reply _
  · exact refuse <| of_orCheck Planned.reply _ fun _ =>
      of_ite (refuse .synchronize) (of_ite .synchronize (.reply _))

theorem planned_compareAndWrite :
    Planned t req (compareAndWrite req (t.admittedUnit req.sessionVolumes req.lun) t.reservations) :=
  of_gateWrite Planned.reply fun lu h => refuse <| refuse <|
    of_orCheck Planned.reply _ fun _ => refuse (.compareAndWrite lu _ _ _ h)

theorem planned_unmap : Planned t req (unmap req (t.admittedUnit req.sessionVolumes req.lun) t.reservations) :=
  of_gateWrite Planned.reply fun lu h => refuse <| refuse <| refuse <|
    refuse <| refuse <| refuse <| refuse <|
      of_orCheck Planned.reply _ fun _ => .mutate lu _ h

theorem planned_verify : Planned t req (verify req (t.admittedUnit req.sessionVolumes req.lun) t.reservations) :=
  planned_gateRead fun lu h => of_orCheck Planned.reply _ fun _ => refuse <| refuse <|
    refuse <| of_orCheck Planned.reply _ fun _ => of_ite (.verify lu _ _ _ h) <|
      refuse (.verify lu _ _ _ h)

theorem planned_writeSame :
    Planned t req (writeSame req (t.admittedUnit req.sessionVolumes req.lun) t.reservations) :=
  of_gateWrite Planned.reply fun lu h => refuse <| refuse <| refuse <|
    refuse <| refuse <| of_orCheck Planned.reply _ fun _ => refuse <|
      of_ite (.mutate lu _ h) (.mutate lu _ h)

theorem planned_resolveTargetsAndPlan (plist : Bytes) (tdescOff tdescLen sdescLen : Nat) :
    Planned t req (resolveTargetsAndPlan t req plist tdescOff tdescLen sdescLen) := by
  unfold resolveTargetsAndPlan
  refine refuse (refuse ?_)
  split
  · exact .reply _
  next targets htargets =>
  split
  · exact .reply _
  next planned hplanned =>
  split
  · exact .reply _
  next hgates =>
  have hadmitted : ∀ e ∈ targets, t.admittedUnit req.sessionVolumes e.1 = some e.2 := by
    intro e he
    obtain ⟨i, -, hi⟩ := exists_of_mem_mapM htargets e he
    exact resolveTargetDescriptor_some hi
  refine .extendedCopy planned (fun seg hseg => ?_) fun seg hseg => ?_
  · exact hadmitted _ (parseSegments_targets hplanned seg hseg).1
  · obtain ⟨hworm, hwrite, -⟩ := gateSegment_ok (gateSegments_ok hgates seg hseg)
    exact ⟨hadmitted _ (parseSegments_targets hplanned seg hseg).2, hworm, hwrite⟩

theorem planned_extendedCopyLid1 : Planned t req (extendedCopyLid1 t req) :=
  refuse <| refuse <| refuse <| refuse <|
    refuse <| refuse (planned_resolveTargetsAndPlan t req _ _ _ _)

theorem planned_extendedCopyLid4 : Planned t req (extendedCopyLid4 t req) :=
  refuse <| refuse <| refuse <| refuse <|
    refuse <| refuse <| refuse <|
      refuse (planned_resolveTargetsAndPlan t req _ _ _ _)

theorem planned_populateToken : Planned t req (populateToken t req) := by
  unfold populateToken
  split
  · exact .reply _
  next hadm =>
  refine refuse ?_
  split
  · exact .reply _
  · next lu hlu =>
    have hunit : t.admittedUnit req.sessionVolumes req.lun = some lu := by
      unfold Target.admittedUnit
      rw [if_pos (by simpa using hadm), hlu]
    exact refuse <| refuse <| refuse <| of_orCheck Planned.reply _ fun _ =>
      refuse <| refuse <| of_orCheck Planned.reply _ fun _ =>
        refuse (.populateToken lu _ _ _ _ hunit)

theorem planned_writeUsingToken : Planned t req (writeUsingToken t req) := by
  unfold writeUsingToken
  split
  · exact .reply _
  next hadm =>
  split
  · exact .reply _
  next lu hlu =>
  have hunit : t.admittedUnit req.sessionVolumes req.lun = some lu := by
    unfold Target.admittedUnit
    rw [if_pos (by simpa using hadm), hlu]
  split
  · exact .reply _
  · next hworm =>
    split
    · exact .reply _
    · next hallow =>
      have hopen : Open t req req.lun lu := ⟨hunit, Bool.eq_false_iff.2 hworm, by simpa using hallow⟩
      exact refuse <| refuse <| refuse <|
        of_orCheck Planned.reply _ fun _ => refuse (.writeUsingToken lu _ _ _ hopen)

theorem planned_extendedCopy : Planned t req (extendedCopy t req) :=
  refuse <| of_ite (planned_extendedCopyLid1 t req) <|
    of_ite (planned_extendedCopyLid4 t req) <| of_ite (planned_populateToken t req) <|
      of_ite (planned_writeUsingToken t req) <| of_ite (.cancelRodToken _) (.reply _)

theorem planned_receiveCopyResults : Planned t req (receiveCopyResults req) :=
  refuse <| refuse <| refuse <| refuse <|
    refuse <| of_ite (.receiveRodTokenInfo _ _) (.reply _)

theorem planned_persistentReserveIn (persist : Option EntityResolver) (lu : Option LogicalUnit)
    (res : ReservationManager) : Planned t req (persistentReserveIn persist req lu res) := by
  unfold persistentReserveIn
  split
  · exact .reply _
  · refine refuse ?_
    split <;> exact .reply _

theorem planned_persistentReserveOut (lu : Option LogicalUnit) : Planned t req (persistentReserveOut req lu) := by
  unfold persistentReserveOut
  split
  · exact .reply _
  · exact refuse (.persistentReserveOut _)

theorem plan_planned (persist : Option EntityResolver) (probes : Probes) : Planned t req (plan persist probes t req) :=
  of_ite (planned_read t req) <| of_ite (planned_write t req) <| of_ite (planned_verify t req) <|
    of_ite (planned_synchronizeCache t req) <| of_ite (planned_writeSame t req) <|
      of_ite (planned_unmap t req) <| of_ite (planned_persistentReserveIn t req persist _ _) <|
        of_ite (planned_persistentReserveOut t req _) <| of_ite (planned_extendedCopy t req) <|
          of_ite (planned_receiveCopyResults t req) <| of_ite (planned_compareAndWrite t req) (.reply _)

end Planned

theorem Open.gated {lu : LogicalUnit} (h : Open t req lun lu) :
    t.Gated req.sessionVolumes req.nexus lun := by
  obtain ⟨hget, hadmits⟩ := Target.admittedUnit_some h.admitted
  exact ⟨lu, hget, hadmits, h.worm, h.allowWrite⟩

theorem Planned.gated {a : ScsiAction} (h : Planned t req a) (hw : a.Writes lun) :
    t.Gated req.sessionVolumes req.nexus lun := by
  cases h with
  | mutate lu ops hopen | compareAndWrite lu byteOffset expected new hopen
  | writeUsingToken lu listId token bdrds hopen =>
    obtain rfl : lun = req.lun := hw
    exact hopen.gated
  | extendedCopy segments hsrc hdst =>
    obtain ⟨seg, hseg, rfl⟩ := hw
    exact (hdst seg hseg).gated
  | reply | read | verify | synchronize | populateToken | cancelRodToken | receiveRodTokenInfo
  | persistentReserveOut => exact hw.elim

end Scsi

namespace Nvme

def WritesOnly (lun : Lun) (a : NvmeAction) : Prop := ∀ l, a.Writes l → l = lun

variable {k : Nat → Nat → NvmeAction}

section WritesOnly

variable {lun : Lun}

theorem writesOnly_reply (r : NvmeResponse) : WritesOnly lun (.reply r) := fun _ h => h.elim

theorem writesOnly_mutate (ops : List BlockOp) (last : NvmeStatus) : WritesOnly lun (.mutate lun ops last) :=
  fun _ h => h

theorem writesOnly_withRange (lu : LogicalUnit) (sqe : Sqe)
    (hk : ∀ byteOff len, WritesOnly lun (k byteOff len)) : WritesOnly lun (withRange lu sqe k) := by
  unfold withRange
  split
  · exact hk _ _
  · exact writesOnly_reply _

theorem writesOnly_cmdWrite (cmd : IoCommand) (lu : LogicalUnit) : WritesOnly lun (cmdWrite lun cmd lu) := by
  refine writesOnly_withRange lu _ fun byteOff len => ?_
  split
  · exact writesOnly_mutate _ _
  · exact writesOnly_reply _

theorem writesOnly_cmdWriteZeroes (cmd : IoCommand) (lu : LogicalUnit) :
    WritesOnly lun (cmdWriteZeroes lun cmd lu) := by
  refine writesOnly_withRange lu _ fun byteOff len => ?_
  split <;> exact writesOnly_mutate _ _

end WritesOnly

variable {l : Lun} {cmd : IoCommand} {lu : LogicalUnit} {t : Target}

theorem cmdDsm_writes (h : (cmdDsm lun cmd lu).Writes l) : l = lun ∧ lu.manifest.worm = false := by
  unfold cmdDsm at h
  dsimp only at h
  split at h
  · exact h.elim
  · split at h
    · exact h.elim
    · next hworm =>
      split at h
      · exact ⟨h, Bool.eq_false_iff.2 hworm⟩
      · exact h.elim

theorem not_writes_withRange (lu : LogicalUnit) (sqe : Sqe)
    (hk : ∀ byteOff len, ¬ (k byteOff len).Writes l) : ¬ (withRange lu sqe k).Writes l := by
  unfold withRange
  split
  · exact hk _ _
  · exact not_false

theorem planData_writes {opcode : NvmOpcode} (h : (planData t cmd lu opcode).Writes l) :
    l = ReservationRequest.nsidToLun cmd.sqe.nsid ∧ lu.manifest.worm = false ∧
      t.reservations.allowWrite l cmd.registrant = true := by
  unfold planData at h
  dsimp only at h
  split at h
  · exact h.elim
  next hdenied =>
  split at h
  · exact h.elim
  next hworm =>
  cases opcode with
  | write =>
    obtain rfl := writesOnly_cmdWrite cmd lu l h
    exact ⟨rfl, by simpa using hworm, by simpa [denied] using hdenied⟩
  | writeZeroes =>
    obtain rfl := writesOnly_cmdWriteZeroes cmd lu l h
    exact ⟨rfl, by simpa using hworm, by simpa [denied] using hdenied⟩
  | datasetManagement =>
    obtain ⟨rfl, hw⟩ := cmdDsm_writes h
    exact ⟨rfl, hw, by simpa [denied] using hdenied⟩
  | read | compare =>
    refine absurd h (not_writes_withRange lu _ (fun byteOff len => ?_))
    split <;> exact not_false
  | verify => exact absurd h (not_writes_withRange lu _ (fun byteOff len => not_false))
  | flush | writeUncorrectable | reservationRegister | reservationReport | reservationAcquire
  | reservationRelease => exact h.elim

theorem lookup_admitted {nsid : UInt32} (hadm : nsidAdmitted t allow nsid = true)
    (hlu : lookup t nsid = some lu) :
    t.units.get (ReservationRequest.nsidToLun nsid) = some lu ∧ allow.admits lu.name = true := by
  have hget : t.units.get (ReservationRequest.nsidToLun nsid) = some lu := by
    unfold lookup at hlu
    split at hlu
    · cases hlu
    · exact hlu
  refine ⟨hget, ?_⟩
  cases allow with
  | none => rfl
  | some names =>
    simp only [nsidAdmitted, hlu, Option.any_some] at hadm
    exact hadm

/-- **What a planned I/O command writes to has passed the gates.** -/
theorem planIo_gated {report : Report} (h : (planIo report t cmd).Writes l) :
    t.Gated cmd.sessionVolumes cmd.registrant l := by
  unfold planIo at h
  dsimp only at h
  split at h
  · exact h.elim
  split at h
  · exact h.elim
  next hadm =>
  split at h
  · exact h.elim
  next lu hlu =>
  obtain ⟨hget, hadmits⟩ := lookup_admitted (by simpa using hadm) hlu
  have hdata : ∀ opcode, (planData t cmd lu opcode).Writes l → t.Gated cmd.sessionVolumes cmd.registrant l := by
    intro opcode hw
    obtain ⟨rfl, hworm, hallow⟩ := planData_writes hw
    exact ⟨lu, hget, hadmits, hworm, hallow⟩
  split at h
  · exact h.elim
  · exact h.elim
  · exact h.elim
  · exact h.elim
  · exact hdata _ h

theorem planFused_gated {compare write : IoCommand} {plan : FusedPlan} (h : planFused t compare write = .ok plan) :
    t.Gated compare.sessionVolumes compare.registrant plan.lun := by
  unfold planFused at h
  dsimp only at h
  split at h
  · cases h
  split at h
  · cases h
  split at h
  · cases h
  split at h
  · cases h
  next hadm =>
  split at h
  · cases h
  next lu hlu =>
  obtain ⟨hget, hadmits⟩ := lookup_admitted (by simpa using hadm) hlu
  split at h
  · cases h
  next hallow =>
  split at h
  · cases h
  next hworm =>
  split at h
  · cases h
  split at h
  · obtain rfl := Except.ok.inj h
    exact ⟨lu, hget, hadmits, Bool.eq_false_iff.2 hworm, by simpa using hallow⟩
  · cases h

end Nvme

/-! ## Submissions -/

/-- The halves of a fused pair come off one I/O queue, so they have one host and one session. -/
inductive Submission
  | scsi (req : ScsiRequest)
  | nvme (cmd : IoCommand)
  | fused (compare write : IoCommand) (host : write.hostId = compare.hostId)
      (session : write.sessionVolumes = compare.sessionVolumes)

namespace Submission

def sessionVolumes : Submission → SessionVolumes
  | scsi req => req.sessionVolumes
  | nvme cmd => cmd.sessionVolumes
  | fused compare _ _ _ => compare.sessionVolumes

def registrant : Submission → RegistrantId
  | scsi req => req.nexus
  | nvme cmd => cmd.registrant
  | fused compare _ _ _ => compare.registrant

variable (persist : Option EntityResolver) (probes : Scsi.Probes) (report : Nvme.Report) (w : World)

def execute (t : Target) : Submission → Target
  | scsi req => (Scsi.dispatch persist w probes t req).1
  | nvme cmd => (Nvme.dispatchIo persist w report t cmd).1
  | fused compare write _ _ => (Nvme.handleFusedCompareWrite w t compare write).1

theorem gated_of_changed {t : Target} {sub : Submission}
    (h : (sub.execute persist probes report w t).content lun ≠ t.content lun) :
    t.Gated sub.sessionVolumes sub.registrant lun := by
  cases sub with
  | scsi req =>
    by_contra hgate
    refine h ?_
    unfold execute Scsi.dispatch
    dsimp only
    split
    · rfl
    · split
      · rfl
      · exact Scsi.run_spares persist w _ ⟨t, 0⟩ fun hw => hgate ((Scsi.plan_planned t req persist probes).gated hw)
  | nvme =>
    by_contra hgate
    exact h (Nvme.run_spares persist w _ ⟨t, 0⟩ (fun hw => hgate (Nvme.planIo_gated hw)))
  | fused compare write host session =>
    unfold execute Nvme.handleFusedCompareWrite at h
    dsimp only at h
    split at h
    · exact absurd rfl h
    next plan hplan =>
    have hone := Exec.confined_mutate (W := (· = plan.lun)) w ⟨t, 0⟩ rfl
      (.compareAndWriteBytes plan.byteOff plan.expected plan.new)
    have hlun : lun = plan.lun := by
      by_contra hne
      refine h ?_
      split <;> next heq =>
        rw [heq] at hone
        first
        | exact hone.spared lun hne
        | (split <;> exact hone.spared lun hne)
    rw [hlun]
    exact Nvme.planFused_gated hplan

/-- **Complete mediation.** A command that changes the bytes of a unit came from a session admitted to it, against a
volume not write protected, by a registrant that the reservation manager allowed, on either transport. -/
theorem mutation_mediated (t : Target) (sub : Submission) (lun : Lun) :
    ((sub.execute persist probes report w t).content lun ≠ t.content lun →
      ∃ lu, t.units.get lun = some lu ∧ sub.sessionVolumes.admits lu.name = true ∧ lu.manifest.worm = false ∧
        t.reservations.allowWrite lun sub.registrant = true) ∧
    (∀ file acts, (ReservationManager.machine persist).run (.loadFrom persist file) acts = some t.reservations →
      (t.reservations.state lun).writeAllowed sub.registrant = false →
      (sub.execute persist probes report w t).content lun = t.content lun) := by
  refine ⟨gated_of_changed persist probes report w, fun file acts hrun hshut => ?_⟩
  by_contra hne
  obtain ⟨lu, -, -, -, hallow⟩ := gated_of_changed persist probes report w hne
  rw [(ReservationManager.flagged_run hrun).allowWrite, hshut] at hallow
  cases hallow

def smallUnit (name : String) (uuid : Uuid) : LogicalUnit where
  name := name
  uuid := uuid
  manifest := ⟨4, 8, false, by decide⟩
  size := ⟨16, by decide, by decide, by decide⟩
  backend := "local"
  poolNamespace := none
  encrypted := false
  dekUuid := []

def reservedTarget (m : ReservationManager) : Target where
  units := (∅ : SortedMap Lun LogicalUnit).insert 0 (smallUnit "a" 1)
  content _ := List.replicate 16 0
  reservations := m
  tokens := {}
  attentions _ _ := []

def holderWrite : Submission :=
  .scsi ⟨1, 0, [0x2A, 0, 0, 0, 0, 1, 0, 0, 1, 0], [1, 2, 3, 4], 0, some "iqn.2026-01.host:a", 1, some ["a"]⟩

def otherWrite : Submission := .nvme ⟨⟨0x01, 1, 1, 0, 0⟩, some [1, 2, 3, 4], 0, some 2, some ["a"]⟩

def calm : World := ⟨0, [], true, fun _ => none⟩

def noProbes : Scsi.Probes := fun _ _ _ => .good []

def noReport : Nvme.Report := fun _ _ _ => []

theorem mutation_mediated_reserveRun :
    ∃ m, (ReservationManager.machine (some .lunIdentity)).run (.loadFrom (some .lunIdentity) none)
        ReservationManager.reserveRun = some m ∧
      (holderWrite.execute (some .lunIdentity) noProbes noReport calm (reservedTarget m)).content 0 =
        List.replicate 4 0 ++ [1, 2, 3, 4] ++ List.replicate 8 0 ∧
      (reservedTarget m).Gated (some ["a"]) ReservationManager.scsiHost 0 ∧
      (otherWrite.execute (some .lunIdentity) noProbes noReport calm (reservedTarget m)).content 0 =
        (reservedTarget m).content 0 := by
  obtain ⟨m, hm, hwritten, hshut⟩ :
      ∃ m ∈ (ReservationManager.machine (some .lunIdentity)).run (.loadFrom (some .lunIdentity) none)
        ReservationManager.reserveRun,
      (holderWrite.execute (some .lunIdentity) noProbes noReport calm (reservedTarget m)).content 0 =
        List.replicate 4 0 ++ [1, 2, 3, 4] ++ List.replicate 8 0 ∧
      (m.state 0).writeAllowed ReservationManager.nvmeHost = false := by decide +kernel
  have hchanged : (holderWrite.execute (some .lunIdentity) noProbes noReport calm (reservedTarget m)).content 0 ≠
      (reservedTarget m).content 0 := by
    rw [hwritten]
    exact show (List.replicate 4 0 ++ [1, 2, 3, 4] ++ List.replicate 8 0 : Bytes) ≠ List.replicate 16 0 by decide
  exact ⟨m, hm, hwritten, (mutation_mediated _ _ _ _ (reservedTarget m) holderWrite 0).1 hchanged,
    (mutation_mediated _ _ _ _ (reservedTarget m) otherWrite 0).2 none _ hm hshut⟩

end Submission
end Thur

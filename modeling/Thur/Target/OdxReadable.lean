import Thur.Target.OdxStorage
/-!
# OdxReadable — what WRITE USING TOKEN copied stays readable

The pins hold a token's chunks until the loop has bound them, and from then on the records do.  Two things break it.  The
loop marks a page `Uploaded` whose chunk was never uploaded, and it works on without the pins once the token is dropped.
-/

namespace Thur.OdxState

open Table (all_iff forall_erase forall_insert)
open FleetState (Opens Hashed)
open List Option
open FleetState

variable {V H : Type} [DecidableEq V] [DecidableEq H] {fl : Fleet V H} {span : Nat} {s s' : OdxState V H}
  {c : ChunkKey H} {y y' : Apply V H} {k tok : Nat} {pg : TokenPage H} {a : DiskCacheAct V H} {d : DiskCache V H}

/-! ## The chunks that tokens pin -/

structure GuardInv (s : OdxState V H) : Prop where
  pins : s.fleet.pins = fun c => s.guards.count c
  populates : ∀ k y, s.populates.lookup k = some y → ∀ c ∈ y.pins, s.Holds c
  tokens : ∀ tok x, s.tokens.lookup tok = some x → ∀ c ∈ x.pins, s.Holds c

omit [DecidableEq V] [DecidableEq H] in
theorem mem_guards : c ∈ s.guards ↔ (∃ k y, s.populates.lookup k = some y ∧ c ∈ y.pins) ∨
    ∃ tok x, s.tokens.lookup tok = some x ∧ c ∈ x.pins := by
  unfold guards
  rw [mem_append, mem_flatMap, mem_flatMap]
  refine or_congr ⟨?_, ?_⟩ ⟨?_, ?_⟩
  · rintro ⟨⟨k, y⟩, hy, hc⟩
    exact ⟨k, y, AList.mem_lookup_iff.2 hy, hc⟩
  · rintro ⟨k, y, hy, hc⟩
    exact ⟨⟨k, y⟩, AList.mem_lookup_iff.1 hy, hc⟩
  · rintro ⟨⟨tok, x⟩, hx, hc⟩
    exact ⟨tok, x, AList.mem_lookup_iff.2 hx, hc⟩
  · rintro ⟨tok, x, hx, hc⟩
    exact ⟨⟨tok, x⟩, AList.mem_lookup_iff.1 hx, hc⟩

omit [DecidableEq V] in
theorem GuardInv.spare (h : GuardInv s) (hp : s'.populates = s.populates) (ht : s'.tokens = s.tokens)
    (hpins : s'.fleet.pins = s.fleet.pins) (hholds : ∀ c, s.fleet.pins c ≠ 0 → s.Holds c → s'.Holds c) : GuardInv s' := by
  have pinned : ∀ c, c ∈ s.guards → s.fleet.pins c ≠ 0 := by
    intro c hc
    rw [h.pins]
    exact (count_pos_iff.2 hc).ne'
  refine ⟨?_, fun k y hy c hc => ?_, fun tok x hx c hc => ?_⟩
  · rw [hpins, h.pins]
    unfold guards
    rw [hp, ht]
  · rw [hp] at hy
    exact hholds c (pinned c (mem_guards.2 (.inl ⟨k, y, hy, hc⟩))) (h.populates k y hy c hc)
  · rw [ht] at hx
    exact hholds c (pinned c (mem_guards.2 (.inr ⟨tok, x, hx, hc⟩))) (h.tokens tok x hx c hc)

theorem Holds.disk (h : s.Holds c) (hpin : s.fleet.pins c ≠ 0)
    (hm : DiskCache.Moves fl s.disk a d) : Holds { s with fleet := d.fleet, passes := d.passes } c := by
  obtain ⟨hpres, hpasses, hjobs⟩ := h
  have hp := (all_iff _ _).1 hpasses
  have all : ∀ {passes : Table (EvictPass V H)}, (∀ e x, passes.lookup e = some x → x.Leaves c) →
      passes.All (fun _ x => x.Leaves c) := (all_iff _ _).2
  cases hm with
  | fleet hm => exact ⟨present_step hm hpres, hpasses, hjobs⟩
  | evictScan => exact ⟨hpres, all (forall_insert hp (fun cs hcs => by cases hcs)), hjobs⟩
  | @evictSidecars e readable x v vs hx | @evictWalk e upTo x v sc hx | @evictSkip e x v vs hx =>
    exact ⟨hpres, all (forall_insert hp (hp e x hx)), hjobs⟩
  | evictChoose =>
    refine ⟨hpres, all (forall_insert hp (fun cs hcs d hd heq => hpin ?_)), hjobs⟩
    cases hcs
    rw [← heq]
    exact EvictPass.pins_of_mem_candidates hd
  | @evictRemove e x d ds hx hd =>
    exact ⟨hpres.remove (fun heq => absurd heq.symm (hp e x hx _ hd d mem_cons_self)),
      all (forall_insert hp (fun cs hcs d' hd' => hp e x hx _ hd d' (by cases hcs; exact mem_cons_of_mem d hd'))),
      hjobs⟩
  | @evictRemoveFail e x d ds hx hd =>
    exact ⟨hpres,
      all (forall_insert hp (fun cs hcs d' hd' => hp e x hx _ hd d' (by cases hcs; exact mem_cons_of_mem d hd'))),
      hjobs⟩
  | @evictEnd e => exact ⟨hpres, all (forall_erase hp e), hjobs⟩

theorem Holds.collect {a : GcAct V H} {g : GcState V H} (h : s.Holds c) (hpin : s.fleet.pins c ≠ 0)
    (hm : GcState.Moves fl s.collector a g) (hown : a.Own) (hok : odxOk fl span s (.gc a)) :
    Holds { s with fleet := g.fleet, jobs := g.jobs } c := by
  obtain ⟨hpres, hpasses, hjobs⟩ := h
  have hj := (all_iff _ _).1 hjobs
  have all : ∀ {jobs : Table (GcJob V H)}, (∀ e x, jobs.lookup e = some x → x.orphan ≠ some c) →
      jobs.All (fun _ x => x.orphan ≠ some c) := (all_iff _ _).2
  cases hm with
  | fleet => exact hown.elim
  | gcStart => exact ⟨hpres, hpasses, all (forall_insert hj (some_ne_none c).symm)⟩
  | @advance e a x y hx _ ha =>
    refine ⟨hpres, hpasses, all (forall_insert hj ?_)⟩
    cases ha with
    | gcChunk hst hor =>
      intro heq
      cases heq
      exact hpin (of_decide_eq_true hor).2.1
    | _ => exact (some_ne_none c).symm
  | gcSkip => exact ⟨hpres, hpasses, hjobs⟩
  | @gcRemove e cutoff d pool x hx hst =>
    refine ⟨hpres.remove (fun heq => absurd ?_ (hj e x hx)), hpasses,
      all (forall_insert hj (some_ne_none c).symm)⟩
    unfold GcJob.orphan
    rw [hst, heq]
  | @gcDelete e cutoff d =>
    refine ⟨?_, hpasses, all (forall_insert hj (some_ne_none c).symm)⟩
    by_cases hcd : c = d
    · subst hcd
      exact .inl (hok.2.2.resolve_left hpin)
    · exact hpres.imp_right (stored_delete hcd)
  | @gcEnd e => exact ⟨hpres, hpasses, all (forall_erase hj e)⟩

theorem pins_disk (hm : DiskCache.Moves fl s.disk a d) (hfree : s.Free a) :
    d.fleet.pins = s.fleet.pins := by
  cases hm with
  | fleet hm =>
    cases hm with
    | pin | unpin => exact hfree.elim
    | _ => rfl
  | _ => rfl

theorem pins_collect {a : GcAct V H} {g : GcState V H} (hm : GcState.Moves fl s.collector a g) (hown : a.Own) :
    g.fleet.pins = s.fleet.pins := by
  cases hm with
  | fleet => exact hown.elim
  | _ => rfl

/-! ## What the commands know -/

section

omit [DecidableEq V] [DecidableEq H]

def Faithful (fl : Fleet V H) (v : V) (pg : TokenPage H) : Prop :=
  ∀ bytes, pg.held = some bytes → Opens fl v pg.page pg.entry bytes

def Copied (fl : Fleet V H) (dst : V) (p : PageId) (pg : TokenPage H) (wrote : Option (PageEntry H)) : Prop :=
  ∀ bytes, pg.held = some bytes → Opens fl dst p wrote bytes

def Frozen (fl : Fleet V H) (v : V) (pages : List (TokenPage H)) (pins : List (ChunkKey H)) : Prop :=
  ∀ pg ∈ pages, Faithful fl v pg ∧ ∀ e, pg.entry = some e → fl.key v e.hash ∈ pins

structure PopulateOk (fl : Fleet V H) (y : Populate V H) : Prop where
  reading : ∀ pg, y.reading = some pg → Faithful fl y.vol pg
  pages : Frozen fl y.vol y.pages y.pins

def StageOk (fl : Fleet V H) (y : Apply V H) : Prop :=
  match y.stage with
  | .opened plain => ∀ r ∈ y.todo.head?, ∀ bytes, r.2.held = some bytes → plain = bytes
  | .binding _ wrote => ∀ r ∈ y.todo.head?, Copied fl y.dst r.1 r.2 wrote
  | .sealing _ wrote => ∀ r ∈ y.todo.head?, Copied fl y.dst r.1 r.2 (some wrote)
  | .good => y.todo = []
  | _ => True

structure ApplyOk (fl : Fleet V H) (y : Apply V H) : Prop where
  size : (fl.cfg y.dst).pageSize = (fl.cfg y.src).pageSize
  range : y.done.map (fun w => (w.page, w.source)) ++ y.todo = y.range
  faithful : ∀ r ∈ y.range, Faithful fl y.src r.2
  done : ∀ w ∈ y.done, Copied fl y.dst w.page w.source w.wrote
  stage : StageOk fl y

def InUse (tokens : Table (OdxToken V H)) (y : Apply V H) : Prop :=
  y.stage.InProgress → ∃ x, tokens.lookup y.token = some x ∧ x.vol = y.src ∧ ∀ r ∈ y.range, r.2 ∈ x.pages

structure RowsInv (fl : Fleet V H) (populates : Table (Populate V H)) (tokens : Table (OdxToken V H))
    (applies : Table (Apply V H)) : Prop where
  populating : ∀ k y, populates.lookup k = some y → PopulateOk fl y
  frozen : ∀ tok x, tokens.lookup tok = some x → Frozen fl x.vol x.pages x.pins
  applying : ∀ k y, applies.lookup k = some y → ApplyOk fl y
  used : ∀ k y, applies.lookup k = some y → InUse tokens y

variable {populates : Table (Populate V H)} {tokens : Table (OdxToken V H)} {applies : Table (Apply V H)}
  {f : FleetState V H} {st : ApplyStage H}

section

variable (h : RowsInv fl populates tokens applies)
include h

theorem RowsInv.setPopulate (k : Nat) {y : Populate V H} (hy : PopulateOk fl y) :
    RowsInv fl (populates.insert k y) tokens applies :=
  ⟨forall_insert h.populating hy, h.frozen, h.applying, h.used⟩

theorem RowsInv.setApply (hy : applies.lookup k = some y)
    (hok : ApplyOk fl y') (htok : y'.token = y.token) (hsrc : y'.src = y.src) (hrange : y'.range = y.range)
    (hprog : y'.stage.InProgress → y.stage.InProgress) : RowsInv fl populates tokens (applies.insert k y') := by
  refine ⟨h.populating, h.frozen, forall_insert h.applying hok, forall_insert h.used (fun hp => ?_)⟩
  rw [htok, hsrc, hrange]
  exact h.used k y hy (hprog hp)

theorem RowsInv.dropToken (hun : applies.All (fun _ y => y.stage.InProgress → y.token ≠ tok)) :
    RowsInv fl populates (tokens.erase tok) applies := by
  refine ⟨h.populating, forall_erase h.frozen tok, h.applying, fun k y hy hp => ?_⟩
  obtain ⟨x, hx, hrest⟩ := h.used k y hy hp
  refine ⟨x, ?_, hrest⟩
  rw [AList.lookup_erase_ne (hun.lookup hy hp)]
  exact hx

theorem RowsInv.mint {deadline : Nat} {y : Populate V H}
    (hy : populates.lookup k = some y) (ht : tokens.lookup tok = none) :
    RowsInv fl (populates.erase k) (tokens.insert tok ⟨y.vol, deadline, y.pages, y.pins⟩) applies := by
  refine ⟨forall_erase h.populating k, forall_insert h.frozen (h.populating k y hy).pages, h.applying,
    fun k' z hz hp => ?_⟩
  obtain ⟨x, hx, hrest⟩ := h.used k' z hz hp
  have hne : z.token ≠ tok := by
    intro heq
    rw [heq, ht] at hx
    cases hx
  exact ⟨x, (AList.lookup_insert_ne hne).trans hx, hrest⟩

end

theorem mem_take_pins [DecidableEq H] {y : Populate V H} (hc : c ∈ (y.take fl pg).pins) :
    c ∈ y.pins ∨ ∃ e, pg.entry = some e ∧ fl.key y.vol e.hash = c := by
  unfold Populate.take at hc
  cases he : pg.entry with
  | none =>
    simp only [he] at hc
    exact .inl hc
  | some e =>
    simp only [he] at hc
    split at hc
    · exact .inl hc
    · exact (mem_cons.1 hc).symm.imp_right fun heq => ⟨e, rfl, heq.symm⟩

theorem pins_take [DecidableEq H] (fl : Fleet V H) (y : Populate V H) (pg : TokenPage H) :
    y.pins ⊆ (y.take fl pg).pins ∧ ∀ e, pg.entry = some e → fl.key y.vol e.hash ∈ (y.take fl pg).pins := by
  unfold Populate.take
  cases he : pg.entry with
  | none => exact ⟨List.Subset.refl _, fun e h => by cases h⟩
  | some e =>
    simp only
    split
    · next hmem => exact ⟨List.Subset.refl _, fun e' h => some.inj h ▸ hmem⟩
    · exact ⟨subset_cons_self _ _, fun e' h => some.inj h ▸ mem_cons_self⟩

theorem PopulateOk.take [DecidableEq H] {y : Populate V H} (h : PopulateOk fl y) (hr : y.reading = some pg) :
    PopulateOk fl (y.take fl pg) := by
  refine ⟨fun pg' h' => (by cases h'), fun pg' hpg => ?_⟩
  obtain ⟨hsub, hnew⟩ := pins_take fl y pg
  rcases mem_append.1 hpg with hpg | hpg
  · obtain ⟨hf, hpin⟩ := h.pages pg' hpg
    exact ⟨hf, fun e he => hsub (hpin e he)⟩
  · cases mem_singleton.1 hpg
    exact ⟨h.reading pg hr, hnew⟩

theorem applyOk_start {x : OdxToken V H} (h : Frozen fl x.vol x.pages x.pins) {dst : V} {pages : List PageId}
    (hsize : (fl.cfg dst).pageSize = (fl.cfg x.vol).pageSize) :
    ApplyOk fl ⟨tok, x.vol, dst, pages.zip x.pages, pages.zip x.pages, [], .next⟩ :=
  ⟨hsize, rfl, fun r hr => (h r.2 (of_mem_zip hr).2).1, fun w hw => (by cases hw), trivial⟩

theorem ApplyOk.restage (h : ApplyOk fl y) (hst : StageOk fl { y with stage := st }) :
    ApplyOk fl { y with stage := st } := ⟨h.size, h.range, h.faithful, h.done, hst⟩

theorem ApplyOk.at_stage (h : ApplyOk fl y) (hst : y.stage = st) :
    StageOk fl { y with stage := st } := by
  subst hst
  exact h.stage

theorem ApplyOk.head (h : ApplyOk fl y) {p : PageId} {rest : List (PageId × TokenPage H)}
    (htodo : y.todo = (p, pg) :: rest) : Faithful fl y.src pg := by
  refine h.faithful (p, pg) ?_
  rw [← h.range, htodo]
  exact mem_append_right _ mem_cons_self

theorem ApplyOk.finish (h : ApplyOk fl y) {wrote : Option (PageEntry H)}
    (hw : ∀ r ∈ y.todo.head?, Copied fl y.dst r.1 r.2 wrote) : ApplyOk fl (y.finish wrote) := by
  unfold Apply.finish
  split
  · exact h
  next p pg rest htodo =>
  refine ⟨h.size, ?_, h.faithful, fun w hmem => ?_, trivial⟩
  · rw [← h.range, htodo, map_append, append_assoc]
    rfl
  · rcases mem_append.1 hmem with hmem | hmem
    · exact h.done w hmem
    · cases mem_singleton.1 hmem
      exact hw (p, pg) (by rw [htodo]; rfl)

theorem finish_eq (y : Apply V H) (wrote : Option (PageEntry H)) : (y.finish wrote).token = y.token ∧
    (y.finish wrote).src = y.src ∧ (y.finish wrote).range = y.range := by
  unfold Apply.finish
  split <;> exact ⟨rfl, rfl, rfl⟩

theorem copied_bind (hkeys : fl.KeyPerDek) {p : PageId} (h : Faithful fl y.src pg)
    (hsize : (fl.cfg y.dst).pageSize = (fl.cfg y.src).pageSize)
    (hok : pg.entry = none ∨ fl.rebindOk y.src pg.page y.dst p = true) : Copied fl y.dst p pg pg.entry := by
  intro bytes hb
  have ho := h bytes hb
  cases he : pg.entry with
  | none =>
    rw [he] at ho
    exact ho.trans (by rw [hsize])
  | some e =>
    rw [he] at ho hok
    exact opens_rebind hkeys (hok.resolve_left (some_ne_none e)) ho

end

/-! ## Runs -/

structure OdxInv (fl : Fleet V H) (span : Nat) (s : OdxState V H) : Prop where
  storage : StorageInv fl span s
  guards : GuardInv s
  rows : RowsInv fl s.populates s.tokens s.applies

omit [DecidableEq V] in
theorem guardInv_repin (hp : ∀ k y, s.populates.lookup k = some y → ∀ c ∈ y.pins, s.Holds c)
    (ht : ∀ tok x, s.tokens.lookup tok = some x → ∀ c ∈ x.pins, s.Holds c) : GuardInv s.repin := ⟨rfl, hp, ht⟩

omit [DecidableEq V] in
theorem OdxInv.dropToken (h : OdxInv fl span s) (hun : s.Unused tok) : OdxInv fl span (s.dropToken tok) :=
  ⟨h.storage.frame _ _ _ _ _, guardInv_repin h.guards.populates (forall_erase h.guards.tokens tok),
    h.rows.dropToken hun⟩

theorem OdxInv.endRow (hspan : span ≤ graceSecs) (h : OdxInv fl span s) {a : FleetAct V H}
    (hm : FleetState.Moves fl s.fleet a f) (hpins : f.pins = s.fleet.pins) (hok : DiskCache.pipelineOk fl s.disk a)
    (hgc : GcState.gcOk fl span s.collector (.fleet a))
    (hrows : RowsInv fl s.populates s.tokens (s.applies.insert k y')) :
    OdxInv fl span { s with fleet := f, applies := s.applies.insert k y' } :=
  ⟨(h.storage.pipeline hspan hm hok hgc).frame _ _ _ _ _,
    h.guards.spare rfl rfl hpins (fun _ _ hc => ⟨present_step hm hc.1, hc.2⟩), hrows⟩

omit [DecidableEq V] in
theorem OdxInv.setApply (h : OdxInv fl span s) (hrows : RowsInv fl s.populates s.tokens (s.applies.insert k y')) :
    OdxInv fl span (s.setApply k y') :=
  ⟨h.storage.frame _ _ _ _ _, h.guards.spare rfl rfl rfl (fun _ _ hc => hc), hrows⟩

theorem OdxInv.fail (hspan : span ≤ graceSecs) (h : OdxInv fl span s) {abort : Bool} {a : FleetAct V H}
    (hy : s.applies.lookup k = some y) (ha : ending y.stage abort = some a)
    (hm : FleetState.Moves fl s.fleet a f) (hok : odxOk fl span s (.applyFail k abort)) :
    OdxInv fl span { s with fleet := f, applies := s.applies.insert k { y with stage := .failed } } := by
  have hseal := hok y hy
  have hrows : RowsInv fl s.populates s.tokens (s.applies.insert k { y with stage := .failed }) :=
    h.rows.setApply hy ((h.rows.applying k y hy).restage trivial) rfl rfl rfl fun hp => hp.elim
  unfold ending at ha
  split at ha
  · cases ha
    exact h.endRow hspan hm (by cases hm; rfl) trivial trivial hrows
  · next t wrote hst =>
    cases abort with
    | true =>
      cases ha
      exact h.endRow hspan hm (by cases hm; rfl) trivial trivial hrows
    | false =>
      cases ha
      exact h.endRow hspan hm (by cases hm; rfl) (hseal t (by rw [hst]; rfl)) trivial hrows
  · cases ha

theorem OdxInv.step {a : OdxAct V H} (hkeys : fl.KeyPerDek) (hspan : span ≤ graceSecs) (h : OdxInv fl span s)
    (hm : Moves fl s a s') (hok : odxOk fl span s a) : OdxInv fl span s' := by
  cases hm with
  | disk hm hfree =>
    exact ⟨h.storage.disk hspan hm hok, h.guards.spare rfl rfl (pins_disk hm hfree) (fun c hpin hc => hc.disk hpin hm), h.rows⟩
  | gc hm hown =>
    exact ⟨h.storage.collect hspan hm hown hok,
      h.guards.spare rfl rfl (pins_collect hm hown) (fun c hpin hc => hc.collect hpin hm hown hok), h.rows⟩
  | @populate k =>
    exact ⟨h.storage.frame _ _ _ _ _,
      guardInv_repin (forall_insert h.guards.populates (fun c hc => by cases hc)) h.guards.tokens,
      h.rows.setPopulate k ⟨fun pg hr => (by cases hr), fun pg hpg => (by cases hpg)⟩⟩
  | @populateRead k y p ps hy =>
    refine ⟨h.storage.frame _ _ _ _ _,
      guardInv_repin (forall_insert h.guards.populates (h.guards.populates k y hy)) h.guards.tokens,
      h.rows.setPopulate k ⟨fun pg hr bytes hb => ?_, (h.rows.populating k y hy).pages⟩⟩
    cases hr
    exact opens_of_readPage h.storage.hashed hb
  | @populatePin k y pg hy hr =>
    refine ⟨h.storage.frame _ _ _ _ _,
      guardInv_repin (forall_insert h.guards.populates (fun c hc => ?_)) h.guards.tokens,
      h.rows.setPopulate k ((h.rows.populating k y hy).take hr)⟩
    rcases mem_take_pins hc with hc | ⟨e, he, rfl⟩
    · exact h.guards.populates k y hy c hc
    · exact hok y hy pg hr e he
  | @populateFail k =>
    exact ⟨h.storage.frame _ _ _ _ _, guardInv_repin (forall_erase h.guards.populates k) h.guards.tokens,
      ⟨forall_erase h.rows.populating k, h.rows.frozen, h.rows.applying, h.rows.used⟩⟩
  | @mint k tok y hy ht =>
    exact ⟨h.storage.frame _ _ _ _ _,
      guardInv_repin (forall_erase h.guards.populates k)
        (forall_insert h.guards.tokens (h.guards.populates k y hy)), h.rows.mint hy ht⟩
  | @apply k tok dst pages x hx hfits =>
    refine h.setApply ⟨h.rows.populating, h.rows.frozen,
      forall_insert h.rows.applying (applyOk_start (h.rows.frozen tok x hx) hfits.2.1),
      forall_insert h.rows.used (fun _ => ⟨x, hx, rfl, fun r hr => (of_mem_zip hr).2⟩)⟩
  | @applyDrop k y hy hst =>
    refine h.setApply (h.rows.setApply hy ((h.rows.applying k y hy).restage trivial) rfl rfl rfl (fun _ => ?_))
    rw [hst]
    trivial
  | @applyBind k t y p pg rest hy hst htodo hbind =>
    have hrow := h.rows.applying k y hy
    refine ⟨h.storage.frame _ _ _ _ _, h.guards.spare rfl rfl rfl (fun _ _ hc => hc),
      h.rows.setApply hy (hrow.restage (fun r hr => ?_)) rfl rfl rfl (fun _ => by rw [hst]; trivial)⟩
    rw [htodo] at hr
    cases hr
    exact copied_bind hkeys (hrow.head htodo) hrow.size hbind
  | @applyOpen k y p pg e plain rest hy hst htodo he hplain =>
    have hrow := h.rows.applying k y hy
    refine ⟨(h.storage.warm _).frame _ _ _ _ _,
      h.guards.spare rfl rfl (pins_warmed _ _) (fun _ _ hc => ⟨present_warmed hc.1, hc.2⟩),
      h.rows.setApply hy (hrow.restage (fun r hr bytes hb => ?_)) rfl rfl rfl (fun _ => by rw [hst]; trivial)⟩
    rw [htodo] at hr
    cases hr
    have hopens := hrow.head htodo bytes hb
    rw [he] at hopens
    exact eq_of_opens h.storage.hashed hplain hopens
  | @applySeal k t y p pg plain salt rest hy hst htodo ht =>
    have hrow := h.rows.applying k y hy
    refine ⟨(h.storage.capture ht rfl).frame _ _ _ _ _, h.guards.spare rfl rfl rfl (fun _ _ hc => hc),
      h.rows.setApply hy (hrow.restage (fun r hr bytes hb => ?_)) rfl rfl rfl (fun _ => by rw [hst]; trivial)⟩
    have hplain : plain = bytes := hrow.at_stage hst r hr bytes hb
    rw [htodo] at hr
    cases hr
    rw [← hplain]
    exact opens_sealEntry ⟨y.dst, p, plain, salt, .captured⟩
  | @bindDone k t y wrote f hy hst hm =>
    have hrow := h.rows.applying k y hy
    obtain ⟨htok, hsrc, hrange⟩ := finish_eq y wrote
    exact h.endRow hspan hm (by cases hm; rfl) trivial trivial
      (h.rows.setApply hy (hrow.finish (hrow.at_stage hst)) htok hsrc hrange (fun _ => by rw [hst]; trivial))
  | @sealDone k t y wrote f hy hst hm =>
    have hrow := h.rows.applying k y hy
    obtain ⟨htok, hsrc, hrange⟩ := finish_eq y (some wrote)
    exact h.endRow hspan hm (by cases hm; rfl) trivial trivial
      (h.rows.setApply hy (hrow.finish (hrow.at_stage hst)) htok hsrc hrange (fun _ => by rw [hst]; trivial))
  | rowFail hy ha hm => exact h.fail hspan hy ha hm hok
  | @openFail k abort y hy =>
    exact h.setApply (h.rows.setApply hy ((h.rows.applying k y hy).restage trivial) rfl rfl rfl (fun hp => hp.elim))
  | @applyGood k y hy htodo =>
    exact h.setApply (h.rows.setApply hy ((h.rows.applying k y hy).restage htodo) rfl rfl rfl (fun hp => hp.elim))
  | cancel | expire => exact h.dropToken hok

omit [DecidableEq V] in
theorem odxInv_booted {b : Boot V H} (hflags : ∀ v p e, (b.pages v).getEntry p = some e →
      (b.upload v).read p = .uploaded → (b.store (fl.key v e.hash)).isSome = true)
    (hsnaps : ∀ v frozen e, (v, frozen) ∈ b.snapshots → some e ∈ frozen → (b.store (fl.key v e.hash)).isSome = true)
    (hhashed : Hashed fl (.booted b))
    (hpresent : ∀ v p e, (b.pages v).getEntry p = some e → (FleetState.booted b).Present (fl.key v e.hash)) :
    OdxInv fl span (booted b) :=
  ⟨⟨DiskCache.evictInv_booted hflags hsnaps, ⟨fun e x hx => (by cases hx), fun t y hy => (by cases hy)⟩, hhashed, hpresent,
      fun t x hx => (by cases hx)⟩,
    ⟨rfl, fun k y hy => (by cases hy), fun tok x hx => (by cases hx)⟩,
    ⟨fun k y hy => (by cases hy), fun tok x hx => (by cases hx), fun k y hy => (by cases hy), fun k y hy => (by cases hy)⟩⟩

/-- **What WRITE USING TOKEN copied stays readable**: under `odxOk`, after a Good answer every page that still has its
record reads as the source did at POPULATE TOKEN, and has its object if it reads `Uploaded`. -/
theorem odx_copies_readable (hkeys : fl.KeyPerDek) (span : Nat) (hspan : span < graceSecs) (b : Boot V H)
    (hflags : ∀ v p e, (b.pages v).getEntry p = some e → (b.upload v).read p = .uploaded →
      (b.store (fl.key v e.hash)).isSome = true)
    (hsnaps : ∀ v frozen e, (v, frozen) ∈ b.snapshots → some e ∈ frozen → (b.store (fl.key v e.hash)).isSome = true)
    (hhashed : Hashed fl (.booted b))
    (hpresent : ∀ v p e, (b.pages v).getEntry p = some e → (FleetState.booted b).Present (fl.key v e.hash))
    (acts : List (OdxAct V H)) (s : OdxState V H) (hrun : (machine fl).run (booted b) acts = some s)
    (hok : (machine fl).Meets (odxOk fl span) (booted b) acts) (k : Nat) (y : Apply V H)
    (hy : s.applies.lookup k = some y) :
    (y.stage = .good → ∀ r ∈ y.range, ∃ w ∈ y.done, w.page = r.1 ∧ w.source = r.2 ∧
      (s.fleet.record y.dst r.1 = w.wrote →
        (∀ bytes, r.2.held = some bytes → s.fleet.readPage fl y.dst r.1 = some bytes) ∧
        (s.fleet.flag y.dst r.1 = .uploaded →
          s.fleet.Safe fl y.dst (s.fleet.record y.dst r.1) ∨ s.fleet.FlagDue fl y.dst r.1))) ∧
    (y.stage.InProgress → ∀ r ∈ y.todo, ∀ e, r.2.entry = some e → s.fleet.Present (fl.key y.src e.hash)) := by
  have hinv := Machine.run_inv _ (fun s a s' hi hk hs => OdxInv.step hkeys hspan.le hi (machine_moves hs) hk)
    (odxInv_booted hflags hsnaps hhashed hpresent) hok hrun
  have hrow := hinv.rows.applying k y hy
  constructor
  · intro hst r hr
    have htodo : y.todo = [] := hrow.at_stage hst
    rw [← hrow.range, htodo, List.append_nil] at hr
    obtain ⟨w, hw, rfl⟩ := List.mem_map.1 hr
    refine ⟨w, hw, rfl, rfl, fun hrec => ⟨fun bytes hb => ?_, fun hflag => ?_⟩⟩
    · refine FleetState.readPage_of_opens hinv.storage.hashed (fun e he => hinv.storage.records _ _ e he) ?_
      rw [hrec]
      exact hrow.done w hw bytes hb
    · rcases hinv.storage.evict.flags y.dst w.page with hs | hf | hdue
      · exact .inl hs
      · rw [show s.fleet.flag y.dst w.page = .localOnly from hf] at hflag
        cases hflag
      · exact .inr hdue
  · intro hprog r hr e he
    obtain ⟨x, hx, hvol, hpages⟩ := hinv.rows.used k y hy hprog
    have hmem : r.2 ∈ x.pages := hpages r (by rw [← hrow.range]; exact List.mem_append_right _ hr)
    have hpin := (hinv.rows.frozen y.token x hx r.2 hmem).2 e he
    rw [hvol] at hpin
    exact (hinv.guards.tokens y.token x hx _ hpin).1

def pair : Fleet Bool Bytes where
  cr := .plain
  vols := [false, true]
  mem_vols v := by cases v <;> decide
  cfg _ := FleetState.solo.cfg ()
  poolOf _ := ⟨0, none⟩

def newPair : Boot Bool Bytes where
  pages _ := default
  upload _ := default
  pool _ := none
  store _ := none
  snapshots := []
  now := 0
  pend _ := .new
  tasks := ∅
  queued _ _ h := by cases h
  enqueued _ p h := absurd h (Finset.notMem_empty p)

def pipelineRun (acts : List (FleetAct Bool Bytes)) : List (OdxAct Bool Bytes) := acts.map fun a => .disk (.fleet a)

def writeSource (bytes : Bytes) (t k : Nat) : List (OdxAct Bool Bytes) :=
  pipelineRun [.sealStart t false 0 bytes 0, .sealPool t, .sealIndex t, .sealFlag t, .sealMark t, .sealSend t k, .sealEnd t]

def uploadSource (k : Nat) : List (OdxAct Bool Bytes) :=
  pipelineRun [.taskPut k, .taskCheck k, .taskFlag k, .taskSync k, .taskDone k]

def populateRun (k tok : Nat) : List (OdxAct Bool Bytes) :=
  [.populate k false 0 [0], .populateRead k, .populatePin k, .mint k tok]

def bindRun (k t : Nat) : List (OdxAct Bool Bytes) :=
  [.applyDrop k, .applyBind k t] ++ pipelineRun [.cloneBind t, .cloneSync t, .cloneFlag t] ++ [.applyDone k, .applyGood k]

def sweepRun (tok : Nat) : List (OdxAct Bool Bytes) := pipelineRun [.tick 300] ++ [.expire tok]

def evictRun (e : Nat) (c : ChunkKey Bytes) : List (OdxAct Bool Bytes) :=
  [.disk (.evictScan e 0 2 1 60 [c] [false, true]), .disk (.evictSidecars e true), .disk (.evictWalk e none),
    .disk (.evictSidecars e true), .disk (.evictWalk e none), .disk (.evictChoose e), .disk (.evictRemove e true)]

def uploadedRun : List (OdxAct Bool Bytes) :=
  writeSource [1] 1 2 ++ uploadSource 2 ++ populateRun 3 4 ++ [.apply 5 4 true [0]] ++ bindRun 5 6 ++ sweepRun 4 ++
    writeSource [2] 7 8 ++ evictRun 9 (pair.key true [1])

theorem odx_copies_readable_uploadedRun : ∃ s, (machine pair).run (booted newPair) uploadedRun = some s ∧
    s.fleet.pool (pair.key true [1]) = none ∧ s.fleet.readPage pair true 0 = some [1] := by
  obtain ⟨s, hs, y, hy, hst, hdst, hrange, hdone, hrec, hpool⟩ :
      ∃ s ∈ (machine pair).run (booted newPair) uploadedRun, ∃ y ∈ s.applies.lookup 5, y.stage = .good ∧
      y.dst = true ∧ y.range = [(0, ⟨0, some ⟨[1], 0⟩, some [1]⟩)] ∧
      y.done = [⟨0, ⟨0, some ⟨[1], 0⟩, some [1]⟩, some ⟨[1], 0⟩⟩] ∧ s.fleet.record true 0 = some ⟨[1], 0⟩ ∧
      s.fleet.pool (pair.key true [1]) = none := by decide +kernel
  have hcopies := (odx_copies_readable (fun v w hv => by cases hv) 0 (by decide) newPair (fun v p e he => by cases he)
    (fun v frozen e h => by cases h) ⟨fun c file h => (by cases h), fun c bytes h => (by cases h)⟩
    (fun v p e he => by cases he) uploadedRun s hs (by decide +kernel) 5 y hy).1 hst (0, ⟨0, some ⟨[1], 0⟩, some [1]⟩)
    (by rw [hrange]; exact List.mem_cons_self)
  obtain ⟨w, hw, -, -, hread⟩ := hcopies
  rw [hdone] at hw
  cases List.mem_singleton.1 hw
  rw [hdst] at hread
  exact ⟨s, hs, hpool, (hread hrec).1 [1] rfl⟩

def earlyRun : List (OdxAct Bool Bytes) :=
  writeSource [1] 1 2 ++ populateRun 3 4 ++ [.apply 5 4 true [0]] ++ bindRun 5 6 ++ sweepRun 4 ++ writeSource [2] 7 8 ++
    evictRun 9 (pair.key true [1])

def sweptRun : List (OdxAct Bool Bytes) :=
  writeSource [1] 1 2 ++ populateRun 3 4 ++ [.apply 5 4 true [0]] ++ sweepRun 4 ++ writeSource [2] 7 8 ++
    evictRun 9 (pair.key true [1])

/-- **A copy is lost**: it reads `Uploaded` while its only copy is the local file, which a pass removes; a token that
expires under the loop loses a chunk before it is bound. -/
theorem odx_copies_readable_fails :
    (∃ s y, (machine pair).run (booted newPair) earlyRun = some s ∧ s.applies.lookup 5 = some y ∧ y.stage = .good ∧
      y.dst = true ∧ y.done = [⟨0, ⟨0, some ⟨[1], 0⟩, some [1]⟩, some ⟨[1], 0⟩⟩] ∧
      s.fleet.record true 0 = some ⟨[1], 0⟩ ∧ s.fleet.readPage pair true 0 = none ∧ s.fleet.flag true 0 = .uploaded ∧
      ¬ s.fleet.Safe pair true (s.fleet.record true 0) ∧ ¬ s.fleet.FlagDue pair true 0) ∧
    (∃ s y, (machine pair).run (booted newPair) sweptRun = some s ∧ s.applies.lookup 5 = some y ∧ y.stage = .next ∧
      y.todo = [(0, ⟨0, some ⟨[1], 0⟩, some [1]⟩)] ∧ ¬ s.fleet.Present (pair.key y.src [1])) ∧
    ∃ s y, (machine pair).run (booted newPair) (sweptRun ++ bindRun 5 6) = some s ∧ s.applies.lookup 5 = some y ∧
      y.stage = .good ∧ s.fleet.record true 0 = some ⟨[1], 0⟩ ∧ s.fleet.readPage pair true 0 = none := by
  refine ⟨?_, ?_, ?_⟩ <;> exact Machine.ends_twice (by decide +kernel)

end Thur.OdxState

import Thur.Block.DiskCache
/-!
# Eviction — a removed chunk has its object, or nobody refers to it

A pass reads the flags of a volume before its records, so a page whose flag is `LocalOnly` by then holds its chunk back
whichever record the walk finds. What this misses is a seal between its pool insert and its flag.
-/

namespace Thur

open List EvictPass

open Table (any_iff forall_insert)

namespace FleetState

variable {V H : Type} [DecidableEq V] [DecidableEq H] (fl : Fleet V H)

def FlagDue (s : FleetState V H) (v : V) (p : PageId) : Prop :=
  s.seals.Any fun _ x => x.vol = v ∧ x.page = p ∧ x.stage = .indexed ∧ s.record v p = some (x.entry fl)

deriving instance Decidable for @FlagDue V H

def MayRelease (s : FleetState V H) (v : V) (p : PageId) : Prop := s.Safe fl v (s.record v p) ∨ s.FlagDue fl v p

deriving instance Decidable for @MayRelease V H

end FleetState

namespace EvictPass

variable {V H : Type} (fl : Fleet V H)

def AtRisk (x : EvictPass V H) (s : FleetState V H) (c : ChunkKey H) : Prop := c ∈ x.files.map Prod.fst ∧ ¬ s.Stored c

variable [DecidableEq H] in
deriving instance Decidable for @AtRisk V H

inductive Held (x : EvictPass V H) (v : V) (p : PageId) (c : ChunkKey H) : Prop
  | todo (h : v ∈ x.todo)
  | reading {sc : Sidecars} (h : x.reading = some (v, sc)) (hup : isUploaded sc p = false)
  | touched {t : Touch H} (ht : t ∈ x.touches) (hc : t.chunk = c) (hup : t.uploaded = false)

theorem Held.same {x y : EvictPass V H} {v : V} {p : PageId} {c : ChunkKey H} (h : x.Held v p c)
    (htodo : y.todo = x.todo) (hr : y.reading = x.reading) (ht : y.touches = x.touches) : y.Held v p c := by
  cases h with
  | todo h => exact .todo (htodo ▸ h)
  | reading h hup => exact .reading (hr.trans h) hup
  | touched h hc hup => exact .touched (ht ▸ h) hc hup

def Quiet (x : EvictPass V H) (s : FleetState V H) (v : V) : Prop :=
  s.seals.All (fun _ y => y.vol = v → y.Pooled → ¬ x.AtRisk s (y.chunk fl)) ∧
  ∀ q ∈ (s.pages v).slots, ∀ e ∈ q.2, ¬ x.AtRisk s (fl.key v e.hash)

variable [DecidableEq V] [DecidableEq H] in
deriving instance Decidable for @Quiet V H

end EvictPass

namespace DiskCache

open FleetState (solo newVolume sealRun taskRun)

variable {V H : Type} [DecidableEq V] [DecidableEq H] {fl : Fleet V H} {s s' : DiskCache V H} {a : FleetAct V H} {v : V}
  {p : PageId} {f : FleetState V H} {c : ChunkKey H} {x : EvictPass V H} {e : Nat}

/-- **When a step of the pipeline leaves every pass safe**: a seal puts a chunk at risk only in a pass yet to visit its
volume; `Uploaded`, clones and snapshots are of chunks that have their object. -/
def pipelineOk (fl : Fleet V H) (s : DiskCache V H) : FleetAct V H → Prop
  | .sealPool t => ∀ x ∈ s.fleet.seals.lookup t, s.passes.All fun _ y => y.AtRisk s.fleet (x.chunk fl) → x.vol ∈ y.todo
  | .sealFail t => ∀ x ∈ s.fleet.seals.lookup t, x.stage = .indexed →
      s.fleet.flag x.vol x.page = .localOnly ∨ s.fleet.Safe fl x.vol (s.fleet.record x.vol x.page)
  | .sealRollback t => ∀ x ∈ s.fleet.seals.lookup t, s.fleet.MayRelease fl x.vol x.page
  | .taskFlag k => ∀ x ∈ s.fleet.tasks.lookup k, s.fleet.MayRelease fl x.vol x.page
  | .cloneBind t => ∀ x ∈ s.fleet.clones.lookup t, ∀ rec ∈ x.stage.toBind, s.fleet.Safe fl x.dst rec
  | .cloneFlag t => ∀ x ∈ s.fleet.clones.lookup t, s.fleet.MayRelease fl x.dst x.dstPage
  | .restoreReset t => ∀ x ∈ s.fleet.restores.lookup t, ∀ q ∈ (s.fleet.pages x.vol).slots, s.fleet.MayRelease fl x.vol q.1
  | .snapCopy t => ∀ x ∈ s.fleet.snaps.lookup t,
      s.fleet.Safe fl x.vol (s.fleet.record x.vol (UInt32.ofNat x.copy.length))
  | _ => True

/-- **When a step keeps every pass safe**: at the bulk read of the flags a volume's seals at risk read `LocalOnly`, and
at the walk their records are written. -/
def evictOk (fl : Fleet V H) (s : DiskCache V H) : DiskCacheAct V H → Prop
  | .fleet a => pipelineOk fl s a
  | .evictSidecars e readable => ∀ x ∈ s.passes.lookup e, ∀ v ∈ x.todo.head?, readable = false ∨
      s.fleet.seals.All (fun _ y =>
        y.vol = v → y.Pooled → x.AtRisk s.fleet (y.chunk fl) → s.fleet.flag v y.page = .localOnly)
  | .evictWalk e upTo => ∀ x ∈ s.passes.lookup e, ∀ r ∈ x.reading,
      s.fleet.seals.All (fun _ y => y.vol = r.1 → y.Pooled → x.AtRisk s.fleet (y.chunk fl) →
        (s.fleet.pages r.1).get y.page = some (y.entry fl).hash) ∧
      (upTo = none ∨ x.Quiet fl s.fleet r.1)
  | .evictSkip e => ∀ x ∈ s.passes.lookup e, ∀ v ∈ x.todo.head?, x.Quiet fl s.fleet v
  | _ => True

instance (s : DiskCache V H) (a : FleetAct V H) : Decidable (pipelineOk fl s a) := by
  apply FleetAct.casesOn (motive := fun a => Decidable (pipelineOk fl s a)) a <;>
    intros <;> unfold pipelineOk <;> infer_instance

instance (s : DiskCache V H) (a : DiskCacheAct V H) : Decidable (evictOk fl s a) := by
  apply DiskCacheAct.casesOn (motive := fun a => Decidable (evictOk fl s a)) a <;>
    intros <;> unfold evictOk <;> infer_instance

/-! ## The flags -/

omit [DecidableEq V] [DecidableEq H] in
theorem binds_of_pipelineOk {rec : Option (PageEntry H)}
    (hfrozen : ∀ v rec, s.fleet.Frozen v rec → s.fleet.Safe fl v rec) (hok : pipelineOk fl s a)
    (hb : FleetState.Binds fl s.fleet a v p rec) : s.fleet.Safe fl v rec ∨
      ∃ t x, a = .sealIndex t ∧ s.fleet.seals.lookup t = some x ∧ x.stage = .pooled ∧ x.vol = v ∧ x.page = p ∧
        rec = some (x.entry fl) := by
  cases hb with
  | @sealIndex t x hx hst => exact .inr ⟨t, x, rfl, hx, hst, rfl, rfl, rfl⟩
  | unmap | restoreLen => exact .inl trivial
  | clone hx hst =>
    exact .inl (hok _ hx _ (by rw [hst]; rfl))
  | restoreRecord hx hst hrec => exact .inl (hfrozen _ _ (.restore hx rfl (mem_of_getElem? hrec)))

theorem flagDue_step (h : s.fleet.FlagDue fl v p) (hm : FleetState.Moves fl s.fleet a f) (hok : pipelineOk fl s a)
    (hr : f.record v p = s.fleet.record v p) :
    f.Safe fl v (f.record v p) ∨ f.flag v p = .localOnly ∨ f.FlagDue fl v p := by
  have hrow : f.seals.Any (fun _ x => x.vol = v ∧ x.page = p ∧ x.stage = .indexed ∧ s.fleet.record v p = some (x.entry fl)) →
      f.FlagDue fl v p := fun h => h.mono fun _ x hx => ⟨hx.1, hx.2.1, hx.2.2.1, hr.trans hx.2.2.2⟩
  -- the steps of the seals whose flag is not due
  have move : ∀ {t : Nat} {x y : Seal V}, s.fleet.seals.lookup t = some x → x.stage ≠ .indexed →
      Table.Any (s.fleet.seals.insert t y)
        (fun _ x => x.vol = v ∧ x.page = p ∧ x.stage = .indexed ∧ s.fleet.record v p = some (x.entry fl)) :=
    fun hx hne => h.replace hx fun hx' => absurd hx'.2.2.1 hne
  cases hm with
  | sealStart ht => exact .inr (.inr (hrow (h.fresh ht)))
  | sealPool hx hst | sealIndex hx hst | sealMark hx hst | sealSend hx hst | sealClosed hx hst
  | sealRollback hx hst => exact .inr (.inr (hrow (move hx (by rw [hst]; decide))))
  | @sealFlag t x hx =>
    by_cases hvp : v = x.vol ∧ p = x.page
    · exact .inr (.inl ((FleetState.flag_setFlag s.fleet x.vol v x.page p .localOnly).trans (if_pos hvp)))
    · exact .inr (.inr (hrow (h.replace hx (fun hx' => absurd ⟨hx'.1.symm, hx'.2.1.symm⟩ hvp))))
  | sealEnd hx hst | sealAbort hx hst =>
    exact .inr (.inr (hrow (h.drop hx (fun hx' => by rw [hst] at hx'; cases hx'.2.2.1))))
  | @sealFail t x hx =>
    by_cases hdue : x.vol = v ∧ x.page = p ∧ x.stage = .indexed ∧ s.fleet.record v p = some (x.entry fl)
    · obtain ⟨rfl, rfl, hidx, -⟩ := hdue
      have hok := hok _ hx
      rcases hok hidx with hf | hs
      · exact .inr (.inl hf)
      · exact .inl hs
    · exact .inr (.inr (hrow (h.drop hx hdue)))
  | _ => exact .inr (.inr (hrow h))

/-- **A page whose chunk has no object reads `LocalOnly`, or its flag is due.** -/
theorem flags_step
    (h : ∀ v p, s.fleet.Safe fl v (s.fleet.record v p) ∨ s.fleet.flag v p = .localOnly ∨ s.fleet.FlagDue fl v p)
    (hfrozen : ∀ v rec, s.fleet.Frozen v rec → s.fleet.Safe fl v rec) (hm : FleetState.Moves fl s.fleet a f)
    (hok : pipelineOk fl s a) : ∀ v p, f.Safe fl v (f.record v p) ∨ f.flag v p = .localOnly ∨ f.FlagDue fl v p := by
  intro v p
  rcases FleetState.record_step hm v p with hr | hb
  · have safe : s.fleet.Safe fl v (s.fleet.record v p) → f.Safe fl v (f.record v p) := by
      rw [hr]
      exact FleetState.safe_step hm
    have release : s.fleet.MayRelease fl v p → f.Safe fl v (f.record v p) ∨ f.flag v p = .localOnly ∨ f.FlagDue fl v p :=
      fun h => h.elim (fun h => .inl (safe h)) fun h => flagDue_step h hm hok hr
    rcases FleetState.flag_step hm v p with hf | hf
    · rcases h v p with h | h | h
      · exact .inl (safe h)
      · exact .inr (.inl (hf.trans h))
      · exact flagDue_step h hm hok hr
    · generalize hst : f.flag v p = st at hf release ⊢
      cases hf with
      | sealFlag => exact .inr (.inl rfl)
      | rollback hx | task hx | clone hx =>
        have hok := hok _ hx
        exact release hok
      | @restore t x p hx =>
        have hok := hok _ hx
        cases hrec : s.fleet.record x.vol p with
        | none => exact .inl (safe (by rw [hrec]; trivial))
        | some e =>
          have hne : s.fleet.record x.vol p ≠ none := by
            rw [hrec]
            exact Option.some_ne_none e
          exact release (hok _ (RecordFile.mem_slots_of_read _ hne))
  · generalize hrec : f.record v p = rec at hb ⊢
    rcases binds_of_pipelineOk hfrozen hok hb with hs | ⟨t, x, rfl, hx, hst, rfl, rfl, rfl⟩
    · exact .inl (FleetState.safe_step hm hs)
    · cases hm with
      | sealIndex hx' =>
        rw [hx, Option.some.injEq] at hx'
        subst hx'
        exact .inr (.inr (.of_lookup (AList.lookup_insert _) ⟨rfl, rfl, rfl, hrec⟩))

/-! ## The passes -/

structure EvictInv (fl : Fleet V H) (s : DiskCache V H) : Prop where
  flags : ∀ v p, s.fleet.Safe fl v (s.fleet.record v p) ∨ s.fleet.flag v p = .localOnly ∨ s.fleet.FlagDue fl v p
  frozen : ∀ v rec, s.fleet.Frozen v rec → s.fleet.Safe fl v rec
  held : ∀ e x, s.passes.lookup e = some x → ∀ v p c, s.fleet.Refers fl v p c → x.AtRisk s.fleet c → x.Held v p c
  chosen : ∀ e x, s.passes.lookup e = some x → ∀ cs, x.chosen = some cs →
    x.todo = [] ∧ x.reading = none ∧ ∀ c ∈ cs, c.chunk ∈ x.files.map Prod.fst ∧ uploaded x.touches c.chunk = true

omit [DecidableEq V] in
theorem EvictInv.congr (h : EvictInv fl s) (hpages : f.pages = s.fleet.pages) (hup : f.upload = s.fleet.upload)
    (hstore : f.store = s.fleet.store) (hseals : f.seals = s.fleet.seals) (hsn : f.snapshots = s.fleet.snapshots)
    (hsnaps : f.snaps = s.fleet.snaps) (hrest : f.restores = s.fleet.restores) : EvictInv fl ⟨f, s.passes⟩ := by
  cases f
  subst hpages hup hstore hseals hsn hsnaps hrest
  exact ⟨h.flags, fun v rec hf => h.frozen v rec (hf.congr rfl rfl rfl), h.held, h.chosen⟩

omit [DecidableEq V] in
/-- A pass goes on with the next candidate. -/
theorem EvictInv.next {e x c cs} (h : EvictInv fl s) (hx : s.passes.lookup e = some x) (hc : x.chosen = some (c :: cs))
    (n : Nat) : EvictInv fl { s with passes := s.passes.insert e { x with chosen := some cs, freed := n } } := by
  refine ⟨h.flags, h.frozen,
    forall_insert h.held (fun w p c href hrisk => (h.held e x hx w p c href hrisk).same rfl rfl rfl),
    forall_insert h.chosen (fun cs' hcs => ?_)⟩
  cases hcs
  obtain ⟨htodo, hr, hall⟩ := h.chosen e x hx _ hc
  exact ⟨htodo, hr, fun d hd => hall d (mem_cons_of_mem c hd)⟩

omit [DecidableEq V] in
theorem EvictInv.capture (h : EvictInv fl s) {t : Nat} {x : Seal V} (ht : s.fleet.seals.lookup t = none)
    (hst : x.stage = .captured) : EvictInv fl ⟨{ s.fleet with seals := s.fleet.seals.insert t x }, s.passes⟩ := by
  refine ⟨fun v p => (h.flags v p).imp_right (Or.imp_right (fun hdue => Table.Any.fresh hdue ht)),
    fun v rec hf => h.frozen v rec (hf.congr rfl rfl rfl), fun e y hy v p c href => h.held e y hy v p c ?_, h.chosen⟩
  rcases href with href | href
  · exact .inl href
  · obtain ⟨t', x', hx', hv, hp, hpool, hc⟩ := (any_iff _ _).1 href
    rcases Table.lookup_insert_some hx' with ⟨-, rfl⟩ | ⟨-, hx'⟩
    · exact absurd hst hpool
    · exact .inr (.of_lookup hx' ⟨hv, hp, hpool, hc⟩)

theorem frozen_safe_step (h : ∀ v rec, s.fleet.Frozen v rec → s.fleet.Safe fl v rec)
    (hm : FleetState.Moves fl s.fleet a f) (hok : pipelineOk fl s a) : ∀ v rec, f.Frozen v rec → f.Safe fl v rec := by
  intro v rec hf
  refine FleetState.safe_step hm ?_
  rcases FleetState.frozen_step hm hf with hf | ⟨t, x, rfl, hx, rfl, rfl⟩
  · exact h v rec hf
  · have hok := hok _ hx
    exact hok

theorem EvictInv.held_pipeline (h : EvictInv fl s) (hm : FleetState.Moves fl s.fleet a f) (hok : pipelineOk fl s a) :
    ∀ e x, s.passes.lookup e = some x → ∀ v p c, f.Refers fl v p c → x.AtRisk f c → x.Held v p c := by
  intro e x hx v p c href hrisk
  have hnot : ¬ s.fleet.Stored c := fun hs => hrisk.2 (FleetState.stored_step hm hs)
  rcases FleetState.refers_step hm href with href | hadd
  · exact h.held e x hx v p c href ⟨hrisk.1, hnot⟩
  cases hadd with
  | sealPool hy =>
    have hok := hok _ hy
    exact .todo (hok.lookup hx ⟨hrisk.1, hnot⟩)
  | @clone t y en hy hst =>
    have hsafe : s.fleet.Safe fl y.dst (some en) := hok y hy _ (by rw [hst]; rfl)
    exact absurd hsafe hnot
  | restore hy hst hrec => exact absurd (h.frozen _ _ (.restore hy rfl (mem_of_getElem? hrec))) hnot

section

omit [DecidableEq V] [DecidableEq H]

theorem poolOf_of_refers (h : f.Refers fl v p c) : fl.poolOf v = c.1 := by
  rcases h with ⟨e, -, rfl⟩ | h
  · rfl
  · obtain ⟨t, x, -, rfl, -, -, rfl⟩ := (any_iff _ _).1 h
    rfl

theorem not_atRisk_of_quiet (hq : x.Quiet fl f v) (href : f.Refers fl v p c) : ¬ x.AtRisk f c := by
  rcases href with ⟨e, he, rfl⟩ | href
  · have hne : f.record v p ≠ none := by
      rw [he]
      exact Option.some_ne_none e
    exact hq.2 _ (RecordFile.mem_slots_of_read _ hne) e he
  · obtain ⟨t, y, hy, hv, -, hpool, rfl⟩ := (any_iff _ _).1 href
    exact hq.1.lookup hy hv hpool

end

section

variable (h : EvictInv fl s)
include h

omit [DecidableEq V] in
theorem EvictInv.localOnly (href : s.fleet.Refers fl v p c) (hrisk : x.AtRisk s.fleet c)
    (hseals : s.fleet.seals.All (fun _ y => y.vol = v → y.Pooled → x.AtRisk s.fleet (y.chunk fl) →
      s.fleet.flag v y.page = .localOnly)) : s.fleet.flag v p = .localOnly := by
  rcases href with ⟨e, he, rfl⟩ | href
  · rcases h.flags v p with hs | hf | hdue
    · rw [he] at hs
      exact absurd hs hrisk.2
    · exact hf
    · obtain ⟨t, y, hy, rfl, rfl, hst, hrec⟩ := (any_iff _ _).1 hdue
      rw [he, Option.some.injEq] at hrec
      subst hrec
      exact hseals.lookup hy rfl (by rw [Seal.Pooled, hst]; decide) hrisk
  · obtain ⟨t, y, hy, hv, rfl, hpool, rfl⟩ := (any_iff _ _).1 href
    exact hseals.lookup hy hv hpool hrisk

omit [DecidableEq V] in
theorem EvictInv.held_sidecars {readable : Bool} {vs : List V} (hx : s.passes.lookup e = some x)
    (htodo : x.todo = v :: vs) (hr : x.reading = none) (hok : evictOk fl s (.evictSidecars e readable)) {w : V}
    (href : s.fleet.Refers fl w p c) (hrisk : x.AtRisk s.fleet c) :
    EvictPass.Held { x with
      todo := vs
      reading := some (v, ⟨s.fleet.lru v, if readable then some (s.fleet.flag v) else none⟩) } w p c := by
  have hok := hok x hx v (by rw [htodo]; rfl)
  cases h.held e x hx w p c href hrisk with
  | todo hw =>
    rw [htodo] at hw
    rcases mem_cons.1 hw with rfl | hw
    · refine .reading rfl ?_
      cases readable with
      | false => rfl
      | true =>
        have hf := h.localOnly href hrisk (hok.resolve_left Bool.noConfusion)
        simp [isUploaded, hf]
    · exact .todo hw
  | reading h' =>
    rw [hr] at h'
    cases h'
  | touched ht hc hup => exact .touched ht hc hup

omit [DecidableEq V] in
theorem EvictInv.held_walk {upTo : Option Nat} {sc : Sidecars} (hx : s.passes.lookup e = some x)
    (hr : x.reading = some (v, sc)) (hok : evictOk fl s (.evictWalk e upTo)) {w : V} (href : s.fleet.Refers fl w p c)
    (hrisk : x.AtRisk s.fleet c) :
    EvictPass.Held { x with
      reading := none
      touches := x.touches ++ walk fl v sc (s.fleet.pages v) upTo } w p c := by
  have hok := hok x hx _ hr
  cases h.held e x hx w p c href hrisk with
  | todo hw => exact .todo hw
  | touched ht hc hup => exact .touched (mem_append_left _ ht) hc hup
  | @reading sc' h' hup =>
    rw [hr] at h'
    cases h'
    cases upTo with
    | some n => exact absurd hrisk (not_atRisk_of_quiet (hok.2.resolve_left (Option.some_ne_none n)) href)
    | none =>
      have hget : ∃ hash, (s.fleet.pages v).get p = some hash ∧ fl.key v hash = c := by
        rcases href with ⟨e, he, hc⟩ | href
        · exact ⟨e.hash, by rw [FleetState.get_eq, he]; rfl, hc⟩
        · obtain ⟨t, y, hy, rfl, rfl, hpool, rfl⟩ := (any_iff _ _).1 href
          exact ⟨_, hok.1.lookup hy rfl hpool hrisk, rfl⟩
      obtain ⟨hash, hget, hc⟩ := hget
      exact .touched (mem_append_right _ (mem_walk fl v sc hget)) hc hup

theorem EvictInv.step {a : DiskCacheAct V H} (hm : Moves fl s a s') (hok : evictOk fl s a) :
    EvictInv fl s' := by
  cases hm with
  | fleet hm =>
    exact ⟨flags_step h.flags h.frozen hm hok, frozen_safe_step h.frozen hm hok, h.held_pipeline hm hok, h.chosen⟩
  | evictScan hlist =>
    refine ⟨h.flags, h.frozen, forall_insert h.held (fun v p c href hrisk => .todo ?_),
      forall_insert h.chosen (fun cs hcs => by cases hcs)⟩
    -- the listed chunks are of the backend, and so is a volume that refers to one
    obtain ⟨file, hfile, rfl⟩ := mem_map.1 hrisk.1
    obtain ⟨c, hc, rfl⟩ := mem_map.1 hfile
    exact hlist.2.1 v (fl.mem_vols v) (by rw [poolOf_of_refers href]; exact (hlist.1 c hc).1)
  | @evictSidecars e readable x v vs hx htodo hr =>
    refine ⟨h.flags, h.frozen, forall_insert h.held (fun w p c href hrisk =>
      h.held_sidecars hx htodo hr hok href hrisk), forall_insert h.chosen (fun cs hcs => ?_)⟩
    have hnil := (h.chosen e x hx cs hcs).1
    rw [htodo] at hnil
    cases hnil
  | @evictWalk e upTo x v sc hx hr =>
    refine ⟨h.flags, h.frozen, forall_insert h.held (fun w p c href hrisk => h.held_walk hx hr hok href hrisk),
      forall_insert h.chosen (fun cs hcs => ?_)⟩
    have hnone := (h.chosen e x hx cs hcs).2.1
    rw [hr] at hnone
    cases hnone
  | @evictSkip e x v vs hx htodo =>
    have hok := hok x hx v (by rw [htodo]; rfl)
    refine ⟨h.flags, h.frozen, forall_insert h.held (fun w p c href hrisk => ?_),
      forall_insert h.chosen (fun cs hcs => ?_)⟩
    · cases h.held e x hx w p c href hrisk with
      | todo hw =>
        rw [htodo] at hw
        rcases mem_cons.1 hw with rfl | hw
        · exact absurd hrisk (not_atRisk_of_quiet hok href)
        · exact .todo hw
      | reading h' hup => exact .reading h' hup
      | touched ht hc hup => exact .touched ht hc hup
    · have hnil := (h.chosen e x hx cs hcs).1
      rw [htodo] at hnil
      cases hnil
  | @evictChoose e x hx htodo hr =>
    refine ⟨h.flags, h.frozen,
      forall_insert h.held (fun w p c href hrisk => (h.held e x hx w p c href hrisk).same rfl rfl rfl),
      forall_insert h.chosen (fun cs hcs => ⟨htodo, hr, fun c hc => ?_⟩)⟩
    cases hcs
    exact mem_candidates hc
  | evictRemove hx hc => exact (h.next hx hc _).congr rfl rfl rfl rfl rfl rfl rfl
  | evictRemoveFail hx hc => exact h.next hx hc _
  | @evictEnd e => exact ⟨h.flags, h.frozen, Table.forall_erase h.held e, Table.forall_erase h.chosen e⟩

omit [DecidableEq V] in
theorem EvictInv.removed {c : EvictableChunk H} {cs : List (EvictableChunk H)}
    (hx : s.passes.lookup e = some x) (hc : x.chosen = some (c :: cs)) :
    s.fleet.Stored c.chunk ∨ ((∀ v p, ¬ s.fleet.Refers fl v p c.chunk) ∧
      ∀ v rec, s.fleet.Frozen v (some rec) → fl.key v rec.hash ≠ c.chunk) := by
  obtain ⟨htodo, hr, hall⟩ := h.chosen e x hx _ hc
  obtain ⟨hmem, hup⟩ := hall c mem_cons_self
  by_cases hs : s.fleet.Stored c.chunk
  · exact .inl hs
  refine .inr ⟨fun v p href => ?_, fun v rec hf hc => hs (hc ▸ h.frozen v _ hf)⟩
  cases h.held e x hx v p _ href ⟨hmem, hs⟩ with
  | todo h =>
    rw [htodo] at h
    cases h
  | reading h =>
    rw [hr] at h
    cases h
  | touched ht hc hno =>
    rw [uploaded_of_touch hup ht hc] at hno
    cases hno

end

omit [DecidableEq V] in
theorem evictInv_booted {b : Boot V H} (hflags : ∀ v p e, (b.pages v).getEntry p = some e →
      (b.upload v).read p = .uploaded → (b.store (fl.key v e.hash)).isSome = true)
    (hsnaps : ∀ v frozen e, (v, frozen) ∈ b.snapshots → some e ∈ frozen → (b.store (fl.key v e.hash)).isSome = true) :
    EvictInv fl (booted b) := by
  refine ⟨fun v p => ?_, fun v rec hf => ?_, fun e x hx => (by cases hx), fun e x hx => (by cases hx)⟩
  · cases hf : (booted b).fleet.flag v p with
    | localOnly => exact .inr (.inl rfl)
    | uploaded =>
      left
      cases he : (booted b).fleet.record v p with
      | none => trivial
      | some e => exact hflags v p e he hf
  · cases rec with
    | none => trivial
    | some e =>
      cases hf with
      | snapshot h hrec => exact hsnaps v _ e h hrec
      | copy hx | restore hx => cases hx

/-- **Eviction keeps the only copy**: under `evictOk` a file is removed only if its object is in the bucket or nothing
refers to it. -/
theorem evict_keeps_only_copy (b : Boot V H) (hflags : ∀ v p e, (b.pages v).getEntry p = some e →
      (b.upload v).read p = .uploaded → (b.store (fl.key v e.hash)).isSome = true)
    (hsnaps : ∀ v frozen e, (v, frozen) ∈ b.snapshots → some e ∈ frozen → (b.store (fl.key v e.hash)).isSome = true)
    (acts : List (DiskCacheAct V H)) (s s' : DiskCache V H) (hrun : (machine fl).run (booted b) acts = some s)
    (hok : (machine fl).Meets (evictOk fl) (booted b) acts) (e : Nat)
    (hstep : (machine fl).step s (.evictRemove e true) = some s') (c : ChunkKey H) (hfile : s.fleet.pool c ≠ none)
    (hgone : s'.fleet.pool c = none) :
    s.fleet.Stored c ∨
      ((∀ v p, ¬ s.fleet.Refers fl v p c) ∧ ∀ v rec, s.fleet.Frozen v (some rec) → fl.key v rec.hash ≠ c) := by
  have hinv := Machine.run_inv _ (fun s a s' hi hk hs => EvictInv.step hi (machine_moves hs) hk)
    (evictInv_booted hflags hsnaps) hok hrun
  cases machine_moves hstep with
  | @evictRemove _ x d ds hx hd =>
    have hcd : c = d.chunk := by
      by_contra hne
      exact hfile ((s.fleet.pool.remove_of_ne hne).symm.trans hgone)
    subst hcd
    exact hinv.removed hx hd

def passRun (e : Nat) : List (DiskCacheAct Unit Bytes) :=
  [.evictScan e 0 2 1 0 [solo.key () [1]] [()], .evictSidecars e true, .evictWalk e none, .evictChoose e]

theorem evict_keeps_only_copy_passRun : ∃ s s', (machine solo).run (booted newVolume)
      ((sealRun [1] 1 2 ++ taskRun 2).map .fleet ++ passRun 7) = some s ∧
    (machine solo).step s (.evictRemove 7 true) = some s' ∧ s.fleet.pool (solo.key () [1]) ≠ none ∧
    s'.fleet.pool (solo.key () [1]) = none ∧ s.fleet.Stored (solo.key () [1]) := by
  obtain ⟨s, hs, s', hs', hfile, hgone, hrec⟩ : ∃ s ∈ (machine solo).run (booted newVolume) ((sealRun [1] 1 2 ++
      taskRun 2).map .fleet ++ passRun 7), ∃ s' ∈ (machine solo).step s (.evictRemove 7 true),
      s.fleet.pool (solo.key () [1]) ≠ none ∧ s'.fleet.pool (solo.key () [1]) = none ∧
      s.fleet.Refers solo () 0 (solo.key () [1]) := by decide +kernel
  refine ⟨s, s', hs, hs', hfile, hgone, ?_⟩
  rcases evict_keeps_only_copy newVolume (fun v p e he => by cases he) (fun v frozen e h => by cases h) _ s s' hs
    (by decide +kernel) 7 hs' _ hfile hgone with hst | ⟨hno, -⟩
  · exact hst
  · exact absurd hrec (hno () 0)

/-- The pass pairs the new record with the old flag. -/
def staleFlagRun : List (DiskCacheAct Unit Bytes) :=
  [.fleet (.sealStart 1 () 0 [1] 0), .fleet (.sealPool 1), .evictScan 7 0 2 1 0 [solo.key () [1]] [()],
    .evictSidecars 7 true, .fleet (.sealIndex 1), .fleet (.sealFlag 1), .fleet (.sealMark 1), .fleet (.sealSend 1 2),
    .evictWalk 7 none, .evictChoose 7]

/-- **The only copy is removed**: the upload of the bound chunk is still queued. -/
theorem evict_keeps_only_copy_fails : ∃ s s', (machine solo).run (booted newVolume) staleFlagRun = some s ∧
    (machine solo).step s (.evictRemove 7 true) = some s' ∧ s.fleet.pool (solo.key () [1]) ≠ none ∧
    s'.fleet.pool (solo.key () [1]) = none ∧ ¬ s.fleet.Stored (solo.key () [1]) ∧
    s.fleet.Refers solo () 0 (solo.key () [1]) := Machine.ends_twice (by decide +kernel)

end DiskCache
end Thur

import Thur.Block.Gc
/-!
# GcSafety — what the job deletes is referenced by nobody

Once a volume is walked, a chunk that it comes to name is protected by the age of its file. A seal that writes a new
file is safe for the length of the grace window; one that finds an old file leaves its age, and is safe only if the job
has met the chunk some other way.
-/

namespace Thur
variable {p : PageId}

namespace GcJob

variable {V H : Type} (fl : Fleet V H) (span : Nat) {cut : Nat}

def Waiting (x : GcJob V H) (v : V) (p : PageId) : Prop :=
  match x.stage with
  | .volumes todo walking => v ∈ todo ∨ ∃ r ∈ walking, r.1 = v ∧ r.2 ≤ p.toNat
  | _ => False

instance [DecidableEq V] (x : GcJob V H) (v : V) (p : PageId) : Decidable (x.Waiting v p) := by
  unfold Waiting
  cases x.stage <;> infer_instance

/-- The sweep has come to the chunk. -/
def Judged (x : GcJob V H) (c : ChunkKey H) : Prop :=
  match x.stage with
  | .sweep _ _ orphan => orphan = some c
  | .bucket _ _ examined _ => c ∈ examined
  | _ => False

instance [DecidableEq H] (x : GcJob V H) (c : ChunkKey H) : Decidable (x.Judged c) := by
  unfold Judged
  cases x.stage <;> infer_instance

def Condemned (x : GcJob V H) (c : ChunkKey H) : Prop :=
  match x.stage with
  | .sweep _ _ orphan => orphan = some c
  | .bucket _ _ _ toDelete => c ∈ toDelete
  | _ => False

def cutoff (x : GcJob V H) : Option Nat :=
  match x.stage with
  | .sweep _ cutoff _ => some cutoff
  | .bucket cutoff _ _ _ => some cutoff
  | _ => none

def lastCutoff (x : GcJob V H) : Nat := x.start + span - graceSecs

inductive Kept (pool : ChunkPool (ChunkKey H)) (snapshots : List (V × FrozenIndex H)) (x : GcJob V H) (c : ChunkKey H) : Prop
  | live (h : c ∈ x.live)
  | poisoned (h : c.1 ∈ x.poisoned)
  | recent (h : GcJob.recent pool (x.lastCutoff span) c = true)
  | unlisted {sn : V × FrozenIndex H} {todo : List V} {walking : Option (V × Nat)} (hst : x.stage = .volumes todo walking)
      (hsn : sn ∈ snapshots) (h : c ∈ frozenKeys fl sn)
  | listed {sn : V × FrozenIndex H} {todo : List (V × FrozenIndex H)} (hst : x.stage = .snapshots todo)
      (hsn : sn ∈ todo) (h : c ∈ frozenKeys fl sn)

def Spared (pool : ChunkPool (ChunkKey H)) (snapshots : List (V × FrozenIndex H)) (x : GcJob V H) (c : ChunkKey H) : Prop :=
  x.Kept fl span pool snapshots c ∧ ¬ x.Condemned c

def Named (s : FleetState V H) (x : GcJob V H) (c : ChunkKey H) : Prop :=
  (∃ v ∈ fl.vols, ∃ q ∈ (s.pages v).slots, ∃ e ∈ q.2, fl.key v e.hash = c ∧ ¬ x.Waiting v q.1) ∨
  ∃ sn ∈ s.snapshots, c ∈ frozenKeys fl sn

variable [DecidableEq V] [DecidableEq H] in
deriving instance Decidable for @Named V H

/-- A page may come to name the chunk: one does already, or the sweep has yet to come to it and its file is recent or
missing. -/
def Admits (s : FleetState V H) (x : GcJob V H) (c : ChunkKey H) (puts : Bool) : Prop :=
  x.Named fl s c ∨
  (¬ x.Judged c ∧ ((puts = true ∧ s.pool c = none) ∨ GcJob.recent s.pool (x.lastCutoff span) c = true))

variable [DecidableEq V] [DecidableEq H] in
deriving instance Decidable for @Admits V H

variable {fl span} {pool : ChunkPool (ChunkKey H)} {snapshots : List (V × FrozenIndex H)} {x y : GcJob V H} {c : ChunkKey H}
  {pool' : ChunkPool (ChunkKey H)}

theorem Waiting.stage {v : V} (h : x.Waiting v p) : ∃ todo walking, x.stage = .volumes todo walking := by
  unfold Waiting at h
  split at h
  · next todo walking hst => exact ⟨todo, walking, hst⟩
  · cases h

theorem not_condemned_of_stage {todo : List V} {walking : Option (V × Nat)} (hst : x.stage = .volumes todo walking) :
    ¬ x.Condemned c := by
  unfold Condemned
  rw [hst]
  exact id

theorem condemned_of_sweep {pool : PoolId} (hst : x.stage = .sweep pool cut (some c)) : x.Condemned c := by
  unfold Condemned
  rw [hst]

theorem condemned_of_bucket {keys examined toDelete : List (ChunkKey H)}
    (hst : x.stage = .bucket cut keys examined toDelete) (hc : c ∈ toDelete) : x.Condemned c := by
  unfold Condemned
  rw [hst]
  exact hc

theorem Kept.grow (h : x.Kept fl span pool snapshots c) (hstart : y.start = x.start) (hlive : c ∈ x.live → c ∈ y.live)
    (hpois : c.1 ∈ x.poisoned → c.1 ∈ y.poisoned)
    (hun : ∀ todo walking, x.stage = .volumes todo walking → ∀ sn ∈ snapshots, c ∈ frozenKeys fl sn →
      y.Kept fl span pool snapshots c)
    (hli : ∀ todo, x.stage = .snapshots todo → ∀ sn ∈ todo, c ∈ frozenKeys fl sn → y.Kept fl span pool snapshots c) :
    y.Kept fl span pool snapshots c := by
  cases h with
  | live h => exact .live (hlive h)
  | poisoned h => exact .poisoned (hpois h)
  | recent h =>
    unfold lastCutoff at h
    rw [← hstart] at h
    exact .recent h
  | unlisted hst hsn h => exact hun _ _ hst _ hsn h
  | listed hst hsn h => exact hli _ hst _ hsn h

def Collected (x : GcJob V H) : Prop :=
  match x.stage with
  | .volumes _ _ => False
  | .snapshots _ => False
  | _ => True

theorem collected_of_stage {st : GcStage V H} (hst : x.stage = st) (h : Collected { x with stage := st }) : x.Collected := by
  unfold Collected
  rw [hst]
  exact h

theorem Collected.not_waiting (hx : x.Collected) {v : V} : ¬ x.Waiting v p := by
  intro hw
  obtain ⟨todo, walking, hst⟩ := hw.stage
  unfold Collected at hx
  rw [hst] at hx
  exact hx

theorem not_condemned_of_cutoff (h : x.cutoff = none) : ¬ x.Condemned c := by
  unfold Condemned
  unfold cutoff at h
  split
  · next hst => rw [hst] at h; cases h
  · next hst => rw [hst] at h; cases h
  · exact id

theorem recent_mono {a b : Nat} (hab : a ≤ b) (h : GcJob.recent pool b c = true) : GcJob.recent pool a c = true := by
  obtain ⟨f, hf, hb⟩ := (Option.any_eq_true _ _).1 h
  refine (Option.any_eq_true _ _).2 ⟨f, hf, ?_⟩
  have hb : b ≤ f.mtime := of_decide_eq_true hb
  exact decide_eq_true (hab.trans hb)

theorem recent_of_files (hpool : ∀ file, pool c = some file → pool' c = some file)
    (h : GcJob.recent pool cut c = true) : GcJob.recent pool' cut c = true := by
  obtain ⟨file, hfile, hle⟩ := (Option.any_eq_true _ _).1 h
  exact (Option.any_eq_true _ _).2 ⟨file, hpool file hfile, hle⟩

theorem recent_remove [DecidableEq H] {d : ChunkKey H} (hne : d ≠ c) :
    GcJob.recent (pool.remove c) cut d = GcJob.recent pool cut d := by
  unfold GcJob.recent
  rw [pool.remove_of_ne hne]

theorem Kept.repool (h : x.Kept fl span pool snapshots c)
    (hr : GcJob.recent pool (x.lastCutoff span) c = true → x.Kept fl span pool' snapshots c) :
    x.Kept fl span pool' snapshots c := by
  cases h with
  | live h => exact .live h
  | poisoned h => exact .poisoned h
  | recent h => exact hr h
  | unlisted hst hsn h => exact .unlisted hst hsn h
  | listed hst hsn h => exact .listed hst hsn h

theorem Kept.not_orphan (h : x.Kept fl span pool snapshots c) (hx : x.Collected) (hcut : cut ≤ x.lastCutoff span)
    (hlive : c ∉ x.live) (hpois : c.1 ∉ x.poisoned) : GcJob.recent pool cut c = true := by
  cases h with
  | live h => exact absurd h hlive
  | poisoned h => exact absurd h hpois
  | recent h => exact recent_mono hcut h
  | unlisted hst | listed hst =>
    unfold Collected at hx
    rw [hst] at hx
    cases hx

end GcJob

namespace GcState

open Table (forall_erase forall_insert)
open FleetState (solo newVolume)

variable {V H : Type} {fl : Fleet V H} {span : Nat} {s f : FleetState V H}
  {x y : GcJob V H} {c : ChunkKey H} {a : FleetAct V H} {e : Nat}

/-- **When a step leaves every job safe**: a chunk is bound while not yet judged and its file missing or recent, or
while a page the job is past, or a snapshot, names it. -/
def gcOk (fl : Fleet V H) (span : Nat) (s : GcState V H) : GcAct V H → Prop
  | .fleet (.sealPool t) => ∀ y ∈ s.fleet.seals.lookup t, s.jobs.All fun _ x => x.Admits fl span s.fleet (y.chunk fl) true
  | .fleet (.cloneBind t) => ∀ y ∈ s.fleet.clones.lookup t, ∀ rec ∈ y.stage.toBind, ∀ e ∈ rec,
      s.jobs.All fun _ x => x.Admits fl span s.fleet (fl.key y.dst e.hash) false
  | .gcStart _ _ _ => s.fleet.seals.All (fun _ y => y.stage = .pooled →
      (∃ sn ∈ s.fleet.snapshots, y.chunk fl ∈ frozenKeys fl sn) ∨
      GcJob.recent s.fleet.pool (s.fleet.now + span - graceSecs) (y.chunk fl) = true)
  | _ => True

def gcLasts (span : Nat) (s : GcState V H) (a : GcAct V H) : Prop :=
  ∀ e ∈ jobOf a, ∀ x ∈ s.jobs.lookup e, s.fleet.now ≤ x.start + span

instance [DecidableEq V] [DecidableEq H] (s : GcState V H) (a : GcAct V H) : Decidable (gcOk fl span s a) := by
  apply GcAct.casesOn (motive := fun a => Decidable (gcOk fl span s a)) a
  · intro a
    apply FleetAct.casesOn (motive := fun a => Decidable (gcOk fl span s (.fleet a))) a <;> intros <;> unfold gcOk <;>
      infer_instance
  all_goals
    intros
    unfold gcOk
    infer_instance

instance (s : GcState V H) (a : GcAct V H) : Decidable (gcLasts span s a) := by
  unfold gcLasts
  infer_instance

/-- No page, snapshot or unfinished seal names the chunk. -/
structure Unreferenced (fl : Fleet V H) (s : FleetState V H) (c : ChunkKey H) : Prop where
  records : ∀ v p e, s.record v p = some e → fl.key v e.hash ≠ c
  seals : ∀ t y, s.seals.lookup t = some y → y.stage = .pooled → y.chunk fl ≠ c
  snapshots : ∀ sn ∈ s.snapshots, c ∉ frozenKeys fl sn
  copies : ∀ t y, s.snaps.lookup t = some y → c ∉ frozenKeys fl (y.vol, y.copy)

structure JobInv (fl : Fleet V H) (span : Nat) (s : FleetState V H) (x : GcJob V H) : Prop where
  began : x.start ≤ s.now
  window : ∀ cutoff ∈ x.cutoff, cutoff ≤ x.lastCutoff span
  clean : ∀ pool cutoff orphan, x.stage = .sweep pool cutoff orphan → pool ∉ x.poisoned
  judged : ∀ c, x.Condemned c → x.Judged c
  records : ∀ v p e, s.record v p = some e → x.Waiting v p ∨ x.Spared fl span s.pool s.snapshots (fl.key v e.hash)
  seals : ∀ t y, s.seals.lookup t = some y → y.stage = .pooled → x.Spared fl span s.pool s.snapshots (y.chunk fl)
  snapshots : ∀ sn ∈ s.snapshots, ∀ c ∈ frozenKeys fl sn, x.Spared fl span s.pool s.snapshots c
  copies : ∀ t y, s.snaps.lookup t = some y → ∀ c ∈ frozenKeys fl (y.vol, y.copy),
    (∃ todo walking, x.stage = .volumes todo walking) ∨ x.Spared fl span s.pool s.snapshots c

theorem JobInv.unreferenced (h : JobInv fl span s x) (hc : x.Condemned c) : Unreferenced fl s c := by
  have hstage : ∀ todo walking, x.stage ≠ .volumes todo walking := fun _ _ hst => GcJob.not_condemned_of_stage hst hc
  refine ⟨fun v p e he heq => ?_, fun t y hy hst heq => ?_, fun sn hsn hmem => ?_, fun t y hy hmem => ?_⟩
  · subst heq
    rcases h.records v p e he with hw | hs
    · obtain ⟨todo, walking, hst⟩ := hw.stage
      exact hstage todo walking hst
    · exact hs.2 hc
  · subst heq
    exact (h.seals t y hy hst).2 hc
  · exact (h.snapshots sn hsn c hmem).2 hc
  · rcases h.copies t y hy c hmem with ⟨todo, walking, hst⟩ | hs
    · exact hstage todo walking hst
    · exact hs.2 hc

theorem JobInv.named (h : JobInv fl span s x) (hn : x.Named fl s c) : x.Spared fl span s.pool s.snapshots c := by
  rcases hn with ⟨v, -, q, hq, e, he, rfl, hw⟩ | ⟨sn, hsn, hc⟩
  · have hrec : s.record v q.1 = some e := ((RecordFile.mem_slots _ q.1 q.2).1 hq).2.symm.trans he
    exact (h.records v q.1 e hrec).resolve_left hw
  · exact h.snapshots sn hsn c hc

/-! ## A job goes on -/

section

variable (h : JobInv fl span s x)
include h

theorem JobInv.restage (hstart : y.start = x.start)
    (hwindow : ∀ cutoff ∈ y.cutoff, cutoff ≤ x.lastCutoff span)
    (hclean : ∀ pool cutoff orphan, y.stage = .sweep pool cutoff orphan → pool ∉ y.poisoned)
    (hjudged : ∀ c, y.Condemned c → y.Judged c)
    (hspared : ∀ c, x.Spared fl span s.pool s.snapshots c → y.Spared fl span s.pool s.snapshots c)
    (hwait : ∀ v p e, s.record v p = some e → x.Waiting v p →
      y.Waiting v p ∨ y.Spared fl span s.pool s.snapshots (fl.key v e.hash))
    (hcopies : ∀ todo walking, x.stage = .volumes todo walking → (∃ todo walking, y.stage = .volumes todo walking) ∨
      s.snaps.entries = []) : JobInv fl span s y := by
  refine ⟨hstart.le.trans h.began, ?_, hclean, hjudged, fun v p e he => ?_, fun t z hz hst => hspared _ (h.seals t z hz hst),
    fun sn hsn c hc => hspared c (h.snapshots sn hsn c hc), fun t z hz c hc => ?_⟩
  · unfold GcJob.lastCutoff at hwindow ⊢
    rw [hstart]
    exact hwindow
  · rcases h.records v p e he with hw | hs
    · exact hwait v p e he hw
    · exact .inr (hspared _ hs)
  · rcases h.copies t z hz c hc with ⟨todo, walking, hst⟩ | hs
    · rcases hcopies todo walking hst with hv | hempty
      · exact .inl hv
      · have hmem := AList.mem_lookup_iff.1 hz
        rw [hempty] at hmem
        cases hmem
    · exact .inr (hspared c hs)

theorem JobInv.collect (hstart : y.start = x.start) (hy : y.cutoff = none)
    (hkept : ∀ c, x.Kept fl span s.pool s.snapshots c → y.Kept fl span s.pool s.snapshots c)
    (hwait : ∀ v p e, s.record v p = some e → x.Waiting v p →
      y.Waiting v p ∨ y.Kept fl span s.pool s.snapshots (fl.key v e.hash))
    (hcopies : ∀ todo walking, x.stage = .volumes todo walking → (∃ todo walking, y.stage = .volumes todo walking) ∨
      s.snaps.entries = []) : JobInv fl span s y := by
  have hno : ∀ c, ¬ y.Condemned c := fun c => GcJob.not_condemned_of_cutoff hy
  refine h.restage hstart (fun cutoff hc => ?_) (fun pool cutoff orphan hst => ?_) (fun c hc => absurd hc (hno c))
    (fun c hs => ⟨hkept c hs.1, hno c⟩) (fun v p e he hw => (hwait v p e he hw).imp_right (fun hk => ⟨hk, hno _⟩)) hcopies
  · rw [hy] at hc
    cases hc
  · unfold GcJob.cutoff at hy
    rw [hst] at hy
    cases hy

theorem JobInv.walk {todo todo' : List V} {walking walking' : Option (V × Nat)}
    (hst : x.stage = .volumes todo walking) (hst' : y.stage = .volumes todo' walking') (hstart : y.start = x.start)
    (hlive : x.live ⊆ y.live) (hpois : x.poisoned ⊆ y.poisoned)
    (hwait : ∀ v p e, s.record v p = some e → (v ∈ todo ∨ ∃ r ∈ walking, r.1 = v ∧ r.2 ≤ p.toNat) →
      (v ∈ todo' ∨ ∃ r ∈ walking', r.1 = v ∧ r.2 ≤ p.toNat) ∨ y.Kept fl span s.pool s.snapshots (fl.key v e.hash)) :
    JobInv fl span s y := by
  refine h.collect hstart (by unfold GcJob.cutoff; rw [hst']) (fun c hk => hk.grow hstart (@hlive c) (@hpois c.1)
    (fun _ _ _ sn hsn hc => .unlisted hst' hsn hc) (fun todo h' => by rw [hst] at h'; cases h')) (fun v p e he hw => ?_)
    fun _ _ _ => .inl ⟨_, _, hst'⟩
  unfold GcJob.Waiting at hw ⊢
  rw [hst] at hw
  rw [hst']
  exact hwait v p e he hw

theorem JobInv.readSnapshots {todo : List (V × FrozenIndex H)}
    (hst : x.stage = .snapshots todo) (hy : y.cutoff = none) (hstart : y.start = x.start) (hlive : x.live ⊆ y.live)
    (hpois : x.poisoned ⊆ y.poisoned)
    (hread : ∀ sn ∈ todo, ∀ c ∈ frozenKeys fl sn, y.Kept fl span s.pool s.snapshots c) : JobInv fl span s y := by
  have hno : ∀ todo' walking, x.stage ≠ .volumes todo' walking := fun _ _ h' => by rw [hst] at h'; cases h'
  refine h.collect hstart hy (fun c hk => hk.grow hstart (@hlive c) (@hpois c.1)
    (fun todo' walking h' => absurd h' (hno todo' walking)) (fun todo' h' sn hsn hc => ?_)) (fun v p e he hw => ?_)
    fun todo' walking h' => absurd h' (hno todo' walking)
  · rw [hst] at h'
    cases h'
    exact hread sn hsn c hc
  · obtain ⟨todo', walking, h'⟩ := hw.stage
    exact absurd h' (hno todo' walking)

theorem JobInv.judge {st : GcStage V H} (hx : x.Collected)
    (hwindow : ∀ cutoff ∈ GcJob.cutoff { x with stage := st }, cutoff ≤ x.lastCutoff span)
    (hclean : ∀ pool cutoff orphan, st = .sweep pool cutoff orphan → pool ∉ x.poisoned)
    (hjudged : ∀ c, GcJob.Condemned { x with stage := st } c → GcJob.Judged { x with stage := st } c)
    (hcond : ∀ c, x.Kept fl span s.pool s.snapshots c → ¬ x.Condemned c → ¬ GcJob.Condemned { x with stage := st } c) :
    JobInv fl span s { x with stage := st } := by
  have hno : ∀ {todo : List V} {walking : Option (V × Nat)}, x.stage ≠ .volumes todo walking := by
    intro todo walking hst
    unfold GcJob.Collected at hx
    rw [hst] at hx
    exact hx
  have hno' : ∀ {todo : List (V × FrozenIndex H)}, x.stage ≠ .snapshots todo := by
    intro todo hst
    unfold GcJob.Collected at hx
    rw [hst] at hx
    exact hx
  refine h.restage rfl hwindow hclean hjudged (fun c hs => ⟨?_, hcond c hs.1 hs.2⟩)
    (fun v p e he hw => absurd hw hx.not_waiting) fun todo walking hst => absurd hst hno
  exact hs.1.grow rfl id id (fun todo walking hst => absurd hst hno) fun todo hst => absurd hst hno'

theorem JobInv.bucket [DecidableEq H] {cutoff : Nat} {keys keys' examined examined' toDelete toDelete' : List (ChunkKey H)}
    (hst : x.stage = .bucket cutoff keys examined toDelete) (hex : examined ⊆ examined')
    (hdel : ∀ c ∈ toDelete', c ∈ toDelete ∨ (c ∈ examined' ∧ x.orphanObject s cutoff c = true)) :
    JobInv fl span s { x with stage := .bucket cutoff keys' examined' toDelete' } := by
  have hx : x.Collected := GcJob.collected_of_stage hst trivial
  have hwin : cutoff ≤ x.lastCutoff span := h.window cutoff (by unfold GcJob.cutoff; rw [hst]; rfl)
  have hcond : ∀ c, c ∈ toDelete → x.Condemned c := fun c => GcJob.condemned_of_bucket hst
  have hjudged : ∀ c, x.Judged c → c ∈ examined := fun c hc => by unfold GcJob.Judged at hc; rw [hst] at hc; exact hc
  refine h.judge hx (fun cutoff' hc => (Option.some.inj hc).ge.trans hwin) (fun _ _ _ hst' => by cases hst')
    (fun c hc => ?_) fun c hk hno hc => ?_
  · rcases hdel c hc with hc | ⟨hc, -⟩
    · exact hex (hjudged c (h.judged c (hcond c hc)))
    · exact hc
  · rcases hdel c hc with hc | ⟨-, hor⟩
    · exact hno (hcond c hc)
    · obtain ⟨hp, hlive, hold⟩ := of_decide_eq_true hor
      rw [hk.not_orphan hx hwin hlive hp] at hold
      cases hold

theorem JobInv.advance [DecidableEq H] {a : GcAct V H} (ha : Advance fl s x a y)
    (hlast : s.now ≤ x.start + span) : JobInv fl span s y := by
  have hcut : s.now - graceSecs ≤ x.lastCutoff span := Nat.sub_le_sub_right hlast graceSecs
  cases ha with
  | @gcOpen e v vs hst =>
    refine h.walk hst rfl rfl (List.Subset.refl _) (List.Subset.refl _) fun w p e he hw => .inl ?_
    rcases hw with hw | ⟨r, hr, -⟩
    · rcases List.mem_cons.1 hw with rfl | hw
      · exact .inr ⟨(w, 0), rfl, rfl, Nat.zero_le _⟩
      · exact .inl hw
    · cases hr
  | @gcOpenFail e v vs hst =>
    refine h.walk hst rfl rfl (List.Subset.refl _) (List.subset_cons_self _ _) fun w p e he hw => ?_
    rcases hw with hw | ⟨r, hr, -⟩
    · rcases List.mem_cons.1 hw with rfl | hw
      · exact .inr (.poisoned List.mem_cons_self)
      · exact .inl (.inl hw)
    · cases hr
  | @gcRecord e n v vs hst =>
    refine h.walk hst rfl rfl (List.subset_append_right _ _) (List.Subset.refl _) fun w p e he hw => ?_
    rcases hw with hw | ⟨r, hr, hv, hle⟩
    · exact .inl (.inl hw)
    cases hr
    subst hv
    rcases Nat.eq_or_lt_of_le hle with rfl | hlt
    · -- the record of this page is the one just read
      have hget : (s.pages v).get (UInt32.ofNat p.toNat) = some e.hash := by
        rw [UInt32.ofNat_toNat, FleetState.get_eq, he]
        rfl
      refine .inr (.live (List.mem_append_left _ ?_))
      rw [hget]
      exact List.mem_singleton.2 rfl
    · exact .inl (.inr ⟨_, rfl, rfl, hlt⟩)
  | @gcRecordFail e n v vs hst =>
    refine h.walk hst rfl rfl (List.Subset.refl _) (List.subset_cons_self _ _) fun w p e he hw => ?_
    rcases hw with hw | ⟨r, hr, hv, -⟩
    · exact .inl (.inl hw)
    · cases hr
      subst hv
      exact .inr (.poisoned List.mem_cons_self)
  | @gcNext e n v vs hst hn =>
    refine h.walk hst rfl rfl (List.Subset.refl _) (List.Subset.refl _) fun w p e he hw => ?_
    rcases hw with hw | ⟨r, hr, hv, hle⟩
    · exact .inl (.inl hw)
    cases hr
    subst hv
    -- the walk is past the end, and past every record
    have hne : s.record v p ≠ none := by
      rw [he]
      exact Option.some_ne_none e
    have hlt : p.toNat < (s.pages v).len := RecordFile.lt_len_of_read _ hne
    exact absurd (hn.trans hle) (Nat.not_le.2 hlt)
  | gcListSnapshots hst hsn =>
    refine h.collect rfl rfl (fun c hk => hk.grow rfl id id (fun _ _ _ sn hsn hc => .listed rfl hsn hc)
      (fun todo hst' => by rw [hst] at hst'; cases hst')) (fun w p e he hw => ?_) fun _ _ _ => .inr hsn
    unfold GcJob.Waiting at hw
    rw [hst] at hw
    rcases hw with hw | ⟨r, hr, -⟩ <;> [cases hw; cases hr]
  | @gcSnapshot e sn sns hst =>
    refine h.readSnapshots hst rfl rfl (List.subset_append_right _ _) (List.Subset.refl _) fun sn' hsn' c hc => ?_
    rcases List.mem_cons.1 hsn' with rfl | hsn'
    · exact .live (List.mem_append_left _ hc)
    · exact .listed rfl hsn' hc
  | @gcSnapshotFail e n sn sns hst =>
    refine h.readSnapshots hst rfl rfl (List.subset_append_right _ _) (List.subset_cons_self _ _) fun sn' hsn' c hc => ?_
    rcases List.mem_cons.1 hsn' with rfl | hsn'
    · exact .poisoned (by rw [pool_of_frozenKeys hc]; exact List.mem_cons_self)
    · exact .listed rfl hsn' hc
  | gcCollected hst =>
    exact h.readSnapshots hst rfl rfl (List.Subset.refl _) (List.Subset.refl _) fun sn hsn => by cases hsn
  | gcSweep hst hp =>
    refine h.judge (GcJob.collected_of_stage hst trivial) (fun cutoff hc => (Option.some.inj hc).ge.trans hcut)
      (fun pool cutoff orphan hst' => ?_) (fun c hc => hc) fun c _ _ hc => by cases hc
    obtain ⟨rfl, -, -⟩ := GcStage.sweep.inj hst'
    exact hp
  | @gcChunk e cutoff c hst hor =>
    have hx : x.Collected := GcJob.collected_of_stage hst trivial
    have hwin : cutoff ≤ x.lastCutoff span := h.window cutoff (by unfold GcJob.cutoff; rw [hst]; rfl)
    have hp : c.1 ∉ x.poisoned := h.clean _ _ _ hst
    refine h.judge hx (fun cutoff' hc => (Option.some.inj hc).ge.trans hwin) (fun pool cutoff' orphan hst' => ?_)
      (fun c' hc => hc) fun c' hk _ hc => ?_
    · obtain ⟨rfl, -, -⟩ := GcStage.sweep.inj hst'
      exact hp
    · cases hc
      obtain ⟨hlive, -, hold⟩ := of_decide_eq_true hor
      rw [hk.not_orphan hx hwin hlive hp] at hold
      cases hold
  | gcSwept hst | gcBucketDone hst =>
    exact h.judge (GcJob.collected_of_stage hst trivial) (fun cutoff hc => by cases hc) (fun _ _ _ hst' => by cases hst')
      (fun c hc => hc.elim) fun c _ _ hc => hc.elim
  | gcList hst =>
    exact h.judge (GcJob.collected_of_stage hst trivial) (fun cutoff hc => (Option.some.inj hc).ge.trans hcut)
      (fun _ _ _ hst' => by cases hst') (fun c hc => by cases hc) fun c _ _ hc => by cases hc
  | @gcKey e cutoff c cs examined toDelete hst hor =>
    refine h.bucket hst (List.subset_cons_self c examined) fun c' hc => ?_
    rcases List.mem_cons.1 hc with rfl | hc
    · exact .inr ⟨List.mem_cons_self, hor⟩
    · exact .inl hc
  | @gcKeySkip e cutoff c cs examined toDelete hst =>
    exact h.bucket hst (List.subset_cons_self c examined) fun c' hc => .inl hc
  | gcDeleteFail hst => exact h.bucket hst (List.Subset.refl _) fun c' hc => .inl (List.mem_of_mem_erase hc)

end

variable [DecidableEq V] [DecidableEq H]

/-! ## The pipeline goes on -/

section

variable (hm : FleetState.Moves fl s a f)
include hm

theorem pool_step {file : PoolFile} (h : s.pool c = some file) :
    f.pool c = some file := by
  cases hm with
  | sealPool | warm => exact ChunkPool.insertBytes_of_some _ _ h
  | _ => exact h

theorem recent_step {cutoff : Nat} (h : GcJob.recent s.pool cutoff c = true) :
    GcJob.recent f.pool cutoff c = true :=
  GcJob.recent_of_files (fun _ hfile => pool_step hm hfile) h

theorem snapshots_step {sn : V × FrozenIndex H} (h : sn ∈ s.snapshots) :
    sn ∈ f.snapshots := by
  cases hm with
  | snapDone => exact List.mem_cons_of_mem _ h
  | _ => exact h

theorem now_step : s.now ≤ f.now := by
  cases hm with
  | tick => exact Nat.le_add_right _ _
  | _ => exact Nat.le_refl _

theorem spared_step (h : x.Spared fl span s.pool s.snapshots c) :
    x.Spared fl span f.pool f.snapshots c := by
  refine ⟨?_, h.2⟩
  cases h.1 with
  | live h => exact .live h
  | poisoned h => exact .poisoned h
  | recent h => exact .recent (recent_step hm h)
  | unlisted hst hsn h => exact .unlisted hst (snapshots_step hm hsn) h
  | listed hst hsn h => exact .listed hst hsn h

end

def RestoresListed (s : FleetState V H) : Prop :=
  ∀ t y, s.restores.lookup t = some y → (y.vol, y.snapshot) ∈ s.snapshots

theorem restoresListed_step (h : RestoresListed s) (hm : FleetState.Moves fl s a f) : RestoresListed f := by
  have keep : ∀ t y, s.restores.lookup t = some y → (y.vol, y.snapshot) ∈ f.snapshots :=
    fun t y hy => snapshots_step hm (h t y hy)
  cases hm with
  | restoreLock hi => exact forall_insert keep (List.mem_of_getElem? hi)
  | @restoreDrain t y hy | @restoreLen t y hy | @restoreRecord t n y rec hy | @restoreSync t y hy
  | @restoreReset t y hy => exact forall_insert keep (keep t y hy)
  | @restoreClear t | @restoreFail t => exact forall_erase keep t
  | _ => exact keep

omit [DecidableEq V] [DecidableEq H] in
theorem JobInv.binds {s : GcState V H} {v : V} {en : PageEntry H} (hx : s.jobs.lookup e = some x)
    (h : JobInv fl span s.fleet x) (hrest : RestoresListed s.fleet) (hok : gcOk fl span s (.fleet a))
    (hb : FleetState.Binds fl s.fleet a v p (some en)) :
    x.Spared fl span s.fleet.pool s.fleet.snapshots (fl.key v en.hash) := by
  cases hb with
  | sealIndex hy hst => exact h.seals _ _ hy hst
  | clone hy hst =>
    have hadm := (hok _ hy _ (by rw [hst]; rfl) en rfl).lookup hx
    rcases hadm with hn | ⟨hj, ⟨hputs, -⟩ | hr⟩
    · exact h.named hn
    · cases hputs
    · exact ⟨.recent hr, fun hc => hj (h.judged _ hc)⟩
  | restoreRecord hy hst hrec =>
    exact h.snapshots _ (hrest _ _ hy) _ (mem_frozenKeys.2 ⟨en, List.mem_of_getElem? hrec, rfl⟩)

theorem JobInv.seals_step {s : GcState V H} (hspan : span ≤ graceSecs) (hx : s.jobs.lookup e = some x)
    (h : JobInv fl span s.fleet x) (hm : FleetState.Moves fl s.fleet a f) (hok : gcOk fl span s (.fleet a)) :
    ∀ t y, f.seals.lookup t = some y → y.stage = .pooled → x.Spared fl span f.pool f.snapshots (y.chunk fl) := by
  have keep : ∀ t y, s.fleet.seals.lookup t = some y → y.stage = .pooled → x.Spared fl span f.pool f.snapshots (y.chunk fl) :=
    fun t y hy hst => spared_step hm (h.seals t y hy hst)
  cases hm with
  | sealStart | sealIndex hy hst | sealFlag hy hst | sealMark hy hst | sealSend hy hst | sealClosed hy hst
  | sealRollback hy hst => exact forall_insert keep fun hst => by cases hst
  | @sealPool t y hy hst =>
    refine forall_insert keep fun _ => ?_
    rcases (hok _ hy).lookup hx with hn | ⟨hj, hnew⟩
    · exact spared_step (.sealPool hy hst) (h.named hn)
    refine ⟨.recent ?_, fun hc => hj (h.judged _ hc)⟩
    rcases hnew with ⟨-, hnone⟩ | hr
    · -- a new file is as old as the clock says
      refine (Option.any_eq_true _ _).2 ⟨⟨y.payload fl, s.fleet.now⟩, ?_, decide_eq_true ?_⟩
      · change s.fleet.pool.insertBytes (y.chunk fl) (y.payload fl) s.fleet.now (y.chunk fl) = _
        rw [ChunkPool.insertBytes_apply, if_pos ⟨rfl, hnone⟩]
      · have hbegan := h.began
        change x.lastCutoff span ≤ s.fleet.now
        unfold GcJob.lastCutoff
        omega
    · exact recent_step (.sealPool hy hst) hr
  | @sealEnd t | @sealAbort t | @sealFail t => exact forall_erase keep t
  | _ => exact keep

theorem JobInv.snapshots_step (h : JobInv fl span s x) (hm : FleetState.Moves fl s a f) :
    ∀ sn ∈ f.snapshots, ∀ c ∈ frozenKeys fl sn, x.Spared fl span f.pool f.snapshots c := by
  intro sn hsn c hc
  have hspared : x.Spared fl span s.pool s.snapshots c → x.Spared fl span f.pool f.snapshots c := spared_step hm
  cases hm with
  | @snapDone t y hy =>
    rcases List.mem_cons.1 hsn with rfl | hsn
    · rcases h.copies t y hy c hc with ⟨todo, walking, hst'⟩ | hs
      · -- the job is still to list the snapshots, and will find this one
        exact ⟨.unlisted hst' List.mem_cons_self hc, GcJob.not_condemned_of_stage hst'⟩
      · exact hspared hs
    · exact hspared (h.snapshots sn hsn c hc)
  | _ => exact hspared (h.snapshots sn hsn c hc)

theorem JobInv.copies_step (h : JobInv fl span s x) (hm : FleetState.Moves fl s a f) :
    ∀ t y, f.snaps.lookup t = some y → ∀ c ∈ frozenKeys fl (y.vol, y.copy),
    (∃ todo walking, x.stage = .volumes todo walking) ∨ x.Spared fl span f.pool f.snapshots c := by
  have hspared : ∀ c, x.Spared fl span s.pool s.snapshots c → x.Spared fl span f.pool f.snapshots c :=
    fun c => spared_step hm
  have keep : ∀ t y, s.snaps.lookup t = some y → ∀ c ∈ frozenKeys fl (y.vol, y.copy),
      (∃ todo walking, x.stage = .volumes todo walking) ∨ x.Spared fl span f.pool f.snapshots c :=
    fun t y hy c hc => (h.copies t y hy c hc).imp_right (hspared c)
  cases hm with
  | snapLock => exact forall_insert keep fun c hc => by cases hc
  | @snapDrain t y hy | @snapSync t y hy => exact forall_insert keep (keep t y hy)
  | @snapCopy t y hy =>
    refine forall_insert keep fun c hc => ?_
    obtain ⟨e, he, rfl⟩ := mem_frozenKeys.1 hc
    rcases List.mem_append.1 he with he | he
    · exact keep t y hy _ (mem_frozenKeys.2 ⟨e, he, rfl⟩)
    · -- a copied record stands in the volume's index
      exact (h.records y.vol _ e (List.mem_singleton.1 he).symm).imp GcJob.Waiting.stage (hspared _)
  | @snapDone t | @snapAbort t => exact forall_erase keep t
  | _ => exact keep

theorem JobInv.pipeline {s : GcState V H} (hspan : span ≤ graceSecs) (hx : s.jobs.lookup e = some x)
    (h : JobInv fl span s.fleet x) (hrest : RestoresListed s.fleet) (hm : FleetState.Moves fl s.fleet a f)
    (hok : gcOk fl span s (.fleet a)) : JobInv fl span f x := by
  refine ⟨h.began.trans (now_step hm), h.window, h.clean, h.judged, fun v p en he => ?_, h.seals_step hspan hx hm hok,
    h.snapshots_step hm, h.copies_step hm⟩
  rcases FleetState.record_step hm v p with hr | hb
  · exact (h.records v p en (hr.symm.trans he)).imp_right (spared_step hm)
  · rw [he] at hb
    exact .inr (spared_step hm (h.binds hx hrest hok hb))

/-! ## Deletions -/

section

omit [DecidableEq V] [DecidableEq H]

theorem jobInv_start (dryRun storage : Bool) (hseals : s.seals.All (fun _ y => y.stage = .pooled →
      (∃ sn ∈ s.snapshots, y.chunk fl ∈ frozenKeys fl sn) ∨
        GcJob.recent s.pool (s.now + span - graceSecs) (y.chunk fl) = true)) :
    JobInv fl span s ⟨s.now, dryRun, storage, [], [], .volumes fl.vols none⟩ := by
  refine ⟨Nat.le_refl _, fun cutoff hc => (by cases hc), fun _ _ _ hst => (by cases hst), fun c hc => hc.elim,
    fun v p e _ => .inl (.inl (fl.mem_vols v)), fun t y hy hst => ⟨?_, id⟩,
    fun sn hsn c hc => ⟨.unlisted rfl hsn hc, id⟩, fun _ _ _ _ _ => .inl ⟨_, _, rfl⟩⟩
  rcases hseals.lookup hy hst with ⟨sn, hsn, hc⟩ | hr
  · exact .unlisted rfl hsn hc
  · exact .recent hr

variable (h : JobInv fl span s x)
include h

theorem JobInv.repool (hnow : f.now = s.now) (hpages : f.pages = s.pages)
    (hseals : ∀ t y, f.seals.lookup t = some y → y.stage = .pooled → s.seals.lookup t = some y)
    (hsn : f.snapshots = s.snapshots) (hsnaps : f.snaps = s.snaps)
    (hspared : ∀ d, ¬ Unreferenced fl s d → x.Spared fl span s.pool s.snapshots d →
      x.Spared fl span f.pool s.snapshots d) : JobInv fl span f x := by
  have hrec : ∀ v p, f.record v p = s.record v p := fun v p => congrArg (fun pages => (pages v).getEntry p) hpages
  refine ⟨hnow ▸ h.began, h.window, h.clean, h.judged, fun v p e he => ?_, fun t y hy hst => ?_, fun sn hmem d hd => ?_,
    fun t y hy d hd => ?_⟩ <;> rw [hsn] at *
  · rw [hrec] at he
    exact (h.records v p e he).imp_right (hspared _ (fun hun => hun.records v p e he rfl))
  · exact hspared _ (fun hun => hun.seals t y (hseals t y hy hst) hst rfl) (h.seals t y (hseals t y hy hst) hst)
  · exact hspared d (fun hun => hun.snapshots sn hmem hd) (h.snapshots sn hmem d hd)
  · rw [hsnaps] at hy
    exact (h.copies t y hy d hd).imp_right (hspared d (fun hun => hun.copies t y hy hd))

theorem JobInv.remove [DecidableEq H] (hun : Unreferenced fl s c) :
    JobInv fl span { s with pool := s.pool.remove c } x := by
  refine h.repool rfl rfl (fun _ _ hy _ => hy) rfl rfl fun d hd hs => ⟨hs.1.repool (fun hr => ?_), hs.2⟩
  have hne : d ≠ c := by
    rintro rfl
    exact hd hun
  exact .recent ((GcJob.recent_remove hne).trans hr)

theorem JobInv.grow (hnow : f.now = s.now) (hpages : f.pages = s.pages)
    (hseals : ∀ t y, f.seals.lookup t = some y → y.stage = .pooled → s.seals.lookup t = some y)
    (hsn : f.snapshots = s.snapshots) (hsnaps : f.snaps = s.snaps)
    (hpool : ∀ c file, s.pool c = some file → f.pool c = some file) : JobInv fl span f x :=
  h.repool hnow hpages hseals hsn hsnaps
    fun d _ hs => ⟨hs.1.repool (fun hr => .recent (GcJob.recent_of_files (hpool d) hr)), hs.2⟩

theorem JobInv.setStore (store : ChunkKey H → Option Bytes) :
    JobInv fl span { s with store := store } x :=
  ⟨h.began, h.window, h.clean, h.judged, h.records, h.seals, h.snapshots, h.copies⟩

end

structure GcInv (fl : Fleet V H) (span : Nat) (s : GcState V H) : Prop where
  jobs : ∀ e x, s.jobs.lookup e = some x → JobInv fl span s.fleet x
  restores : RestoresListed s.fleet

theorem GcInv.step {s s' : GcState V H} {a : GcAct V H} (hspan : span ≤ graceSecs) (h : GcInv fl span s)
    (hm : Moves fl s a s') (hok : gcOk fl span s a) (hlast : gcLasts span s a) : GcInv fl span s' := by
  cases hm with
  | fleet hm =>
    exact ⟨fun e x hx => JobInv.pipeline (s := s) hspan hx (h.jobs e x hx) h.restores hm hok,
      restoresListed_step h.restores hm⟩
  | gcStart => exact ⟨forall_insert h.jobs (jobInv_start _ _ hok), h.restores⟩
  | @advance e a x y hx hj ha =>
    exact ⟨forall_insert h.jobs ((h.jobs e x hx).advance ha (hlast e hj x hx)), h.restores⟩
  | gcSkip => exact h
  | @gcRemove e cutoff c pool x hx hst =>
    have hinv := h.jobs e x hx
    have hun : Unreferenced fl s.fleet c := hinv.unreferenced (GcJob.condemned_of_sweep hst)
    have hswept : JobInv fl span s.fleet { x with stage := .sweep pool cutoff none } := by
      have hwin : cutoff ≤ x.lastCutoff span := hinv.window cutoff (by unfold GcJob.cutoff; rw [hst]; rfl)
      refine hinv.judge (GcJob.collected_of_stage hst trivial) (fun cutoff' hc => (Option.some.inj hc).ge.trans hwin)
        (fun pool' cutoff' orphan hst' => ?_) (fun c hc => hc) fun c _ _ hc => by cases hc
      obtain ⟨rfl, -, -⟩ := GcStage.sweep.inj hst'
      exact hinv.clean _ _ _ hst
    exact ⟨forall_insert (fun e x hx => (h.jobs e x hx).remove hun) (hswept.remove hun), h.restores⟩
  | @gcDelete e cutoff c examined toDelete x hx hst hc =>
    refine ⟨forall_insert (fun e x hx => (h.jobs e x hx).setStore _) (JobInv.setStore ?_ _), h.restores⟩
    exact (h.jobs e x hx).bucket hst (List.Subset.refl _) fun c' hc => .inl (List.mem_of_mem_erase hc)
  | @gcEnd e => exact ⟨forall_erase h.jobs e, h.restores⟩

/-- **The job deletes nothing that is referenced**, under `gcOk` and if it takes less than the grace window. -/
theorem gc_spares_referenced (span : Nat) (hspan : span < graceSecs) (b : Boot V H) (acts : List (GcAct V H)) (s : GcState V H)
    (hrun : (machine fl).run (booted b) acts = some s) (hok : (machine fl).Meets (gcOk fl span) (booted b) acts)
    (hlast : (machine fl).Meets (gcLasts span) (booted b) acts) :
    (∀ e s' c, (machine fl).step s (.gcRemove e) = some s' → s.fleet.pool c ≠ none → s'.fleet.pool c = none →
      Unreferenced fl s.fleet c) ∧
    ∀ e d ok s' c, (machine fl).step s (.gcDelete e d ok) = some s' → s.fleet.Stored c → ¬ s'.fleet.Stored c →
      Unreferenced fl s.fleet c := by
  have hboot : GcInv fl span (booted b) := ⟨fun e x hx => (by cases hx), fun t y hy => (by cases hy)⟩
  have hinv := Machine.run_inv _ (fun s a s' hi hk hs => GcInv.step hspan.le hi (machine_moves hs) hk.1 hk.2) hboot
    (Machine.Meets.and _ hok hlast) hrun
  constructor
  · intro e s' c hstep hfile hgone
    cases machine_moves hstep with
    | @advance e' a x y hx hj ha => cases ha
    | @gcRemove _ cutoff d pool x hx hst =>
      have hcd : c = d := by
        by_contra hne
        exact hfile ((s.fleet.pool.remove_of_ne hne).symm.trans hgone)
      subst hcd
      exact (hinv.jobs e x hx).unreferenced (GcJob.condemned_of_sweep hst)
  · intro e d ok s' c hstep hobj hgone
    cases machine_moves hstep with
    | advance => exact absurd hobj hgone
    | @gcDelete _ cutoff d examined toDelete x hx hst hd =>
      have hcd : c = d := by
        by_contra hne
        have hsame : Function.update s.fleet.store d none c = s.fleet.store c := Function.update_of_ne hne _ _
        refine hgone ?_
        unfold FleetState.Stored at hobj ⊢
        rw [← hsame] at hobj
        exact hobj
      subst hcd
      exact (hinv.jobs e x hx).unreferenced (GcJob.condemned_of_bucket hst hd)

def oldOrphan : Boot Unit Bytes :=
  { newVolume with
    pool := fun c => if c = solo.key () [1] then some ⟨[1], 0⟩ else none
    now := 2 * graceSecs }

def collectRun (e : Nat) : List (GcAct Unit Bytes) :=
  [.gcStart e false true, .gcOpen e true, .gcNext e, .gcListSnapshots e, .gcCollected e]

def sealThenSweep (bytes : Bytes) (e : Nat) : List (GcAct Unit Bytes) :=
  [.fleet (.sealStart 1 () 0 bytes 0), .fleet (.sealPool 1), .fleet (.sealIndex 1), .gcSweep e ⟨0, none⟩,
    .gcChunk e (solo.key () [1])]

theorem gc_spares_referenced_otherSeal : ∃ s s',
    (machine solo).run (booted oldOrphan) (collectRun 7 ++ sealThenSweep [2] 7) = some s ∧
    (machine solo).step s (.gcRemove 7) = some s' ∧ s.fleet.pool (solo.key () [1]) ≠ none ∧
    s'.fleet.pool (solo.key () [1]) = none ∧ Unreferenced solo s.fleet (solo.key () [1]) := by
  obtain ⟨s, hs, s', hs', hfile, hgone⟩ : ∃ s ∈ (machine solo).run (booted oldOrphan) (collectRun 7 ++
      sealThenSweep [2] 7), ∃ s' ∈ (machine solo).step s (.gcRemove 7), s.fleet.pool (solo.key () [1]) ≠ none ∧
      s'.fleet.pool (solo.key () [1]) = none := by decide +kernel
  exact ⟨s, s', hs, hs', hfile, hgone, (gc_spares_referenced 0 (by decide) oldOrphan _ s hs (by decide +kernel)
    (by decide +kernel)).1 7 s' _ hs' hfile hgone⟩

/-- **A referenced chunk is deleted**: the seal finds the old file and leaves its age; the job removes it. -/
theorem gc_spares_referenced_fails : ∃ s s',
    (machine solo).run (booted oldOrphan) (collectRun 7 ++ sealThenSweep [1] 7) = some s ∧
    (machine solo).Meets (gcLasts 0) (booted oldOrphan) (collectRun 7 ++ sealThenSweep [1] 7) ∧
    (machine solo).step s (.gcRemove 7) = some s' ∧ s.fleet.pool (solo.key () [1]) ≠ none ∧
    s'.fleet.pool (solo.key () [1]) = none ∧ ¬ s.fleet.Stored (solo.key () [1]) ∧
    ¬ Unreferenced solo s.fleet (solo.key () [1]) := by
  obtain ⟨s, hs, s', hs', hfile, hgone, hst, hrec⟩ : ∃ s ∈ (machine solo).run (booted oldOrphan) (collectRun 7 ++
      sealThenSweep [1] 7), ∃ s' ∈ (machine solo).step s (.gcRemove 7), s.fleet.pool (solo.key () [1]) ≠ none ∧
      s'.fleet.pool (solo.key () [1]) = none ∧ ¬ s.fleet.Stored (solo.key () [1]) ∧
      (s.fleet.record () 0).map PageEntry.hash = some [1] := by decide +kernel
  obtain ⟨e, he, hh⟩ := Option.map_eq_some_iff.1 hrec
  exact ⟨s, s', hs, by decide +kernel, hs', hfile, hgone, hst, fun hun => hun.records () 0 e he (by rw [hh])⟩

end GcState
end Thur

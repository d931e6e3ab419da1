import Thur.Lib.Machine
import Thur.Stream.Pools
/-!
# Migrate — a cartridge moved to another backend, stopped anywhere

`run_migrate` copies or verifies the objects on the target, moves the local pool files over, flips the manifest, and
deletes the source objects of a `Local` cartridge. The files move before the flip, and a `Global` file is everybody's;
so each chunk keeps a copy exactly if every file the run moves is also an object of the source.
-/

namespace Thur.Stream

open Pools List Machine Option

inductive MigrateMode
  | move
  | rebind (verify : Bool)
deriving DecidableEq

/-- Up to sixteen copies are in flight: not yet probed, missed by the HEAD, or downloaded. -/
inductive MigrateStage (H β : Type)
  | copying (todo missed : List H) (sending : List (H × β)) (failed : Bool)
  | verifying (todo : List H) (missing : Bool)
  | manifests
  | moving (todo : List H)
  | unlinking (h : H) (todo : List H)
  | locking
  | flipping
  | deleting (todo : List H)

structure Migration (H β : Type) where
  barcode : Nat
  dedup : DedupScope
  worm : Bool
  source : Place
  target : Place
  mode : MigrateMode
  hashes : List H
  stage : MigrateStage H β

inductive MigrateCall (β H : Type)
  | go
  | head (h : H)
  -- of `manifest-latest.json` on the target
  | headSentinel (found : Bool)
  | download (h : H)
  | upload (i : Nat)
  | callFails
  -- a copy to another filesystem, whole or torn
  | copyAcross (torn : Option β)
  | lockState (locked : Bool)
  | delete (h : H)
  | deleteFails (h : H)

def MigrateCall.isGo {β H : Type} : MigrateCall β H → Bool
  | .go => true
  | _ => false

namespace Migration

variable {H β : Type}

def start (w : Pools H β) (c source target : Nat) (mode : MigrateMode) : Except SmcError (Migration H β) :=
  if source = target then .error (.invalidOp "source and target backend must differ")
  else if (w.tapes c).backend ≠ source then .error (.invalidOp "manifest backend disagrees with operator-stated source")
  else
    let ns := (w.tapes c).dedup.ns c
    let hashes := (w.tapes c).chunks.filterMap ChunkRec.hash
    .ok {
      barcode := c, dedup := (w.tapes c).dedup, worm := (w.tapes c).worm, source := ⟨source, ns⟩, target := ⟨target, ns⟩,
      mode := mode, hashes := hashes,
      stage := match mode with
        | .move => .copying hashes [] [] false
        | .rebind true => .verifying hashes false
        | .rebind false => .moving hashes }

variable [DecidableEq H] (hash : β → H)

def rewriteManifestBackend (w : Pools H β) (c backend : Nat) : Pools H β :=
  { w with tapes := Function.update w.tapes c { w.tapes c with backend := backend } }

def step (w : Pools H β) (m : Migration H β) (a : MigrateCall β H) : Option (Pools H β × Option (Migration H β)) :=
  match m.stage, a with
  | .copying todo missed sending failed, .head h =>
    if h ∈ todo then
      if (w.bucket (m.target, h)).isSome then some (w, some { m with stage := .copying (todo.erase h) missed sending failed })
      else some (w, some { m with stage := .copying (todo.erase h) (h :: missed) sending failed })
    else none
  | .copying todo missed sending failed, .download h =>
    if h ∈ missed then
      match w.bucket (m.source, h) with
      | some b =>
        if hash b = h then some (w, some { m with stage := .copying todo (missed.erase h) ((h, b) :: sending) failed })
        else some (w, some { m with stage := .copying todo missed sending true })
      | none => some (w, some { m with stage := .copying todo missed sending true })
    else none
  | .copying todo missed sending failed, .upload i =>
    match sending[i]? with
    | some x =>
      some (w.putObject (m.target, x.1) x.2, some { m with stage := .copying todo missed (sending.eraseIdx i) failed })
    | none => none
  | .copying todo missed sending _, .callFails => some (w, some { m with stage := .copying todo missed sending true })
  | .copying todo missed sending failed, .go =>
    if todo = [] ∧ missed = [] ∧ sending.isEmpty ∧ failed = false then some (w, some { m with stage := .manifests }) else none
  | .verifying todo missing, .head h =>
    if h ∈ todo then
      if (w.bucket (m.target, h)).isSome then some (w, some { m with stage := .verifying (todo.erase h) missing })
      else some (w, some { m with stage := .verifying (todo.erase h) true })
    else none
  | .verifying todo missing, .headSentinel found =>
    if todo = [] ∧ missing = false then
      if found then some (w, some { m with stage := .moving m.hashes }) else some (w, none)
    else none
  | .manifests, .go => some (w, some { m with stage := .moving m.hashes })
  | .moving todo, .go =>
    match todo with
    | [] => some (w, some { m with stage := .locking })
    | h :: todo =>
      match w.pool (m.source, h) with
      | none => some (w, some { m with stage := .moving todo })
      | some f =>
        if (w.pool (m.target, h)).isSome then some (w.removeFile (m.source, h), some { m with stage := .moving todo })
        else some ((w.removeFile (m.source, h)).putFile (m.target, h) f, some { m with stage := .moving todo })
  | .moving todo, .copyAcross torn =>
    match todo with
    | [] => none
    | h :: todo =>
      match w.pool (m.source, h) with
      | none => none
      | some f =>
        if (w.pool (m.target, h)).isSome then none
        else match torn with
          | none => some (w.putFile (m.target, h) ⟨f.content, w.now⟩, some { m with stage := .unlinking h todo })
          | some b => some (w.putFile (m.target, h) ⟨b, w.now⟩, none)
  | .unlinking h todo, .go => some (w.removeFile (m.source, h), some { m with stage := .moving todo })
  | .locking, .lockState locked =>
    if m.worm ∧ ¬ locked then some (w, none) else some (w, some { m with stage := .flipping })
  | .flipping, .go =>
    let w' := rewriteManifestBackend w m.barcode m.target.backend
    match m.mode with
    | .move =>
      match m.dedup with
      | .localScope => some (w', some { m with stage := .deleting m.hashes })
      -- chunks under `Global` scope may be referenced by other cartridges
      | .globalScope => some (w', some { m with stage := .deleting [] })
    | .rebind _ => some (w', none)
  | .deleting todo, .delete h =>
    if h ∈ todo then some (w.deleteObject (m.source, h), some { m with stage := .deleting (todo.erase h) }) else none
  | .deleting todo, .deleteFails h =>
    if h ∈ todo then some (w, some { m with stage := .deleting (todo.erase h) }) else none
  | .deleting todo, .go => if todo = [] then some (w, none) else none
  | _, _ => none

end Migration

structure MigrateSite (H β : Type) where
  world : Pools H β
  job : Option (Migration H β)

inductive MigrateAct (H β : Type)
  | start (c source target : Nat) (mode : MigrateMode)
  | call (a : MigrateCall β H)
  -- an error that ends the run, or a crash
  | stop
  | tick (seconds : Nat)

namespace MigrateSite

variable {H β : Type} [DecidableEq H]

def machine (hash : β → H) : Machine (MigrateSite H β) (MigrateAct H β) where
  step s
    | .start c source target mode =>
      match s.job with
      | some _ => none
      | none =>
        match Migration.start s.world c source target mode with
        | .ok m => some { s with job := some m }
        | .error _ => none
    | .call a =>
      match s.job with
      | some m => (m.step hash s.world a).map fun r => ⟨r.1, r.2⟩
      | none => none
    | .stop => some { s with job := none }
    | .tick seconds => some { s with world := { s.world with now := s.world.now + seconds } }

end MigrateSite

/-! ## What a migration needs -/

namespace Migration

variable {H β : Type} {hash : β → H} {w w' : Pools H β} {m : Migration H β} {k : ChunkAt H} {h : H} {todo : List H}
  {a : MigrateCall β H} {m' : Option (Migration H β)} {st : MigrateStage H β}

def Spare (hash : β → H) (w : Pools H β) (m : Migration H β) (h : H) : Prop :=
  (w.pool (m.source, h)).isSome = true → w.Stored hash (m.source, h)

/-- A file that leaves the source is also an object of it, and an unverified `Rebind` finds the chunks on the target. -/
def KeepsAt (hash : β → H) (w : Pools H β) (m : Migration H β) : MigrateStage H β → Prop
  | .moving todo => ∀ h ∈ todo.head?, m.Spare hash w h
  | .unlinking h _ => m.Spare hash w h
  | .flipping => m.mode = .rebind false → ∀ h ∈ m.hashes, w.Has hash (m.target, h)
  | _ => True

def Keeps (hash : β → H) (w : Pools H β) (m : Migration H β) (a : MigrateCall β H) : Prop :=
  a.isGo = true → m.KeepsAt hash w m.stage

structure Current (w : Pools H β) (m : Migration H β) : Prop where
  hashes : ∀ h, h ∈ m.hashes ↔ w.Names m.barcode h
  dedup : m.dedup = (w.tapes m.barcode).dedup
  sourceNs : m.source.ns = m.dedup.ns m.barcode
  targetNs : m.target.ns = m.dedup.ns m.barcode
  differ : m.source ≠ m.target

def Ready (hash : β → H) (w : Pools H β) (m : Migration H β) : Prop :=
  m.mode ≠ .rebind false → ∀ h ∈ m.hashes, w.Stored hash (m.target, h)

def Done (hash : β → H) (w : Pools H β) (m : Migration H β) : Prop :=
  match m.stage with
  | .copying todo missed sending failed => w.place m.barcode = m.source ∧ (∀ x ∈ sending, hash x.2 = x.1) ∧
      (failed = false → ∀ h ∈ m.hashes, h ∈ todo ∨ h ∈ missed ∨ (∃ x ∈ sending, x.1 = h) ∨ w.Stored hash (m.target, h))
  | .verifying todo missing => w.place m.barcode = m.source ∧
      (missing = false → ∀ h ∈ m.hashes, h ∈ todo ∨ w.Stored hash (m.target, h))
  | .manifests => w.place m.barcode = m.source ∧ ∀ h ∈ m.hashes, w.Stored hash (m.target, h)
  | .moving todo => w.place m.barcode = m.source ∧ Ready hash w m ∧ ∀ h ∈ todo, h ∈ m.hashes
  | .unlinking h todo => w.place m.barcode = m.source ∧ Ready hash w m ∧ h ∈ m.hashes ∧ ∀ h ∈ todo, h ∈ m.hashes
  | .locking => w.place m.barcode = m.source ∧ Ready hash w m
  | .flipping => w.place m.barcode = m.source ∧ Ready hash w m
  | .deleting todo => w.place m.barcode = m.target ∧ (todo = [] ∨ m.dedup = .localScope)

structure Safe (hash : β → H) (w : Pools H β) : Prop where
  objects : ∀ k b, w.bucket k = some b → hash b = k.2
  covered : w.Covered hash

structure Good (hash : β → H) (w : Pools H β) (m : Migration H β) : Prop where
  current : Current w m
  done : Done hash w m

theorem names_congr (h : w'.tapes = w.tapes) (c : Nat) (x : H) : w'.Names c x ↔ w.Names c x := by
  rw [names_iff, names_iff, h]

theorem place_congr (h : w'.tapes = w.tapes) (c : Nat) : w'.place c = w.place c := by
  rw [place, place, h]

theorem Current.congr (h : Current w m) (ht : w'.tapes = w.tapes) : Current w' m :=
  ⟨fun x => (h.hashes x).trans (names_congr ht m.barcode x).symm, ht.symm ▸ h.dedup, h.sourceNs, h.targetNs, h.differ⟩

theorem Current.restage (h : Current w m) (st : MigrateStage H β) : Current w { m with stage := st } :=
  ⟨h.hashes, h.dedup, h.sourceNs, h.targetNs, h.differ⟩

theorem place_rewriteManifestBackend (w : Pools H β) (c c' backend : Nat) :
    (rewriteManifestBackend w c backend).place c' =
      if c' = c then ⟨backend, (w.tapes c).dedup.ns c⟩ else w.place c' := by
  by_cases hc : c' = c
  · subst hc
    simp [rewriteManifestBackend, place]
  · simp [rewriteManifestBackend, place, hc]

theorem names_rewriteManifestBackend (w : Pools H β) (c c' backend : Nat) (h : H) :
    (rewriteManifestBackend w c backend).Names c' h ↔ w.Names c' h := by
  rw [names_iff, names_iff]
  by_cases hc : c' = c
  · subst hc
    simp [rewriteManifestBackend]
  · simp [rewriteManifestBackend, hc]

theorem covered_of_has (h : w.Covered hash) (ht : w'.tapes = w.tapes) (hhas : ∀ k, w.Has hash k → w'.Has hash k) :
    w'.Covered hash := by
  intro c x hx
  rw [names_congr ht] at hx
  rw [place_congr ht]
  exact hhas _ (h c x hx)

theorem Safe.stored (h : Safe hash w) (hk : (w.bucket k).isSome = true) : w.Stored hash k := by
  obtain ⟨b, hb⟩ := isSome_iff_exists.1 hk
  exact ⟨b, hb, h.objects k b hb⟩

theorem safe_flip (hw : Safe hash w) (hc : Current w m) (hhas : ∀ h ∈ m.hashes, w.Has hash (m.target, h)) :
    Safe hash (rewriteManifestBackend w m.barcode m.target.backend) ∧
      Current (rewriteManifestBackend w m.barcode m.target.backend) m ∧
      (rewriteManifestBackend w m.barcode m.target.backend).place m.barcode = m.target := by
  have htarget : m.target = ⟨m.target.backend, (w.tapes m.barcode).dedup.ns m.barcode⟩ := by
    rw [← hc.dedup, ← hc.targetNs]
  refine ⟨⟨hw.objects, fun c h hn => ?_⟩, ⟨fun h => ?_, ?_, hc.sourceNs, hc.targetNs, hc.differ⟩, ?_⟩
  · rw [names_rewriteManifestBackend] at hn
    rw [place_rewriteManifestBackend]
    by_cases hcm : c = m.barcode
    · rw [if_pos hcm, ← htarget]
      exact hhas h ((hc.hashes h).2 (hcm ▸ hn))
    · rw [if_neg hcm]
      exact hw.covered c h hn
  · rw [names_rewriteManifestBackend]
    exact hc.hashes h
  · simp [rewriteManifestBackend, hc.dedup]
  · rw [place_rewriteManifestBackend, if_pos rfl, ← htarget]

theorem spare_of_covered (hcov : w'.Covered hash) (hc : Current w m) (hat : w.place m.barcode = m.source)
    (hh : h ∈ m.hashes) (htapes : w'.tapes = w.tapes) (hbucket : w'.bucket = w.bucket)
    (hpool : w'.pool (m.source, h) = none) : m.Spare hash w h := by
  intro _
  have hhas := hcov m.barcode h ((names_congr htapes _ _).2 ((hc.hashes h).1 hh))
  rw [place_congr htapes, hat] at hhas
  rcases hhas with ⟨f, hf, -⟩ | hs
  · rw [hpool] at hf
    cases hf
  · rwa [Pools.Stored, hbucket] at hs

/-! ## One step -/

structure Passed (hash : β → H) (w' : Pools H β) (m' : Option (Migration H β)) : Prop where
  safe : Safe hash w'
  good : ∀ x ∈ m', Good hash w' x

theorem passed_same (hw : Safe hash w) (hc : Current w m) (hd : Done hash w { m with stage := st }) :
    Passed hash w (some { m with stage := st }) :=
  ⟨hw, fun _ hx => some.inj hx ▸ ⟨hc.restage st, hd⟩⟩

theorem passed_end (hw : Safe hash w) : Passed hash w (none : Option (Migration H β)) := ⟨hw, fun _ hx => by cases hx⟩

variable [DecidableEq H]

deriving instance Decidable for @Spare H β

instance (w : Pools H β) (m : Migration H β) (st : MigrateStage H β) : Decidable (m.KeepsAt hash w st) := by
  apply MigrateStage.casesOn (motive := fun st => Decidable (m.KeepsAt hash w st)) st <;> intros <;> unfold KeepsAt <;>
    infer_instance

deriving instance Decidable for @Keeps H β

theorem Spare.has_removeFile (hs : m.Spare hash w h) (k : ChunkAt H) (hk : w.Has hash k) :
    (w.removeFile (m.source, h)).Has hash k := by
  by_cases hkk : k = (m.source, h)
  · refine .inr (hk.elim (fun hc => ?_) id)
    obtain ⟨f, hf, -⟩ := hc
    rw [hkk] at hf
    rw [hkk]
    exact hs (isSome_iff_exists.2 ⟨f, hf⟩)
  · exact hk.imp (fun hc => cached_removeFile.2 ⟨hkk, hc⟩) id

theorem has_putFile (hk : w.pool k = none) (f : PoolFile β) (k' : ChunkAt H) (h : w.Has hash k') :
    (w.putFile k f).Has hash k' := by
  refine h.imp (fun hc => cached_putFile.2 (.inr ⟨?_, hc⟩)) id
  rintro rfl
  obtain ⟨f, hf, -⟩ := hc
  rw [hk] at hf
  cases hf

theorem stored_of_putObject {b : β} (hb : hash b = k.2) {k' : ChunkAt H} (h : w.Stored hash k') :
    (w.putObject k b).Stored hash k' := by
  refine stored_putObject.2 ?_
  by_cases hkk : k' = k
  · exact .inl ⟨hkk, hb⟩
  · exact .inr ⟨hkk, h⟩

theorem Safe.putObject (hw : Safe hash w) {b : β} (hb : hash b = k.2) : Safe hash (w.putObject k b) := by
  refine ⟨fun k' b' hb' => ?_, covered_of_has hw.covered rfl (fun _ => Or.imp id (stored_of_putObject hb))⟩
  rw [bucket_putObject] at hb'
  split at hb'
  next hkk =>
    cases hb'
    rw [hkk]
    exact hb
  · exact hw.objects k' b' hb'

theorem passed_copying (hw : Safe hash w) (hc : Current w m) {missed : List H} {sending : List (H × β)} {failed : Bool}
    (hst : m.stage = .copying todo missed sending failed) (hd : Done hash w m) (hs : m.step hash w a = some (w', m')) :
    Passed hash w' m' := by
  simp only [Done, hst] at hd
  obtain ⟨hat, hsend, hall⟩ := hd
  unfold step at hs
  rw [hst] at hs
  cases a with
  | head h =>
    simp only at hs
    split at hs
    · split at hs
      next hhit =>
        cases hs
        refine passed_same hw hc ⟨hat, hsend, fun hf x hx => ?_⟩
        by_cases hxh : x = h
        · subst hxh
          exact .inr (.inr (.inr (hw.stored hhit)))
        · exact (hall hf x hx).imp_left fun ht => (mem_erase_of_ne hxh).2 ht
      · cases hs
        refine passed_same hw hc ⟨hat, hsend, fun hf x hx => ?_⟩
        by_cases hxh : x = h
        · exact .inr (.inl (hxh ▸ mem_cons_self))
        · exact (hall hf x hx).imp (fun ht => (mem_erase_of_ne hxh).2 ht) (Or.imp_left (mem_cons_of_mem h))
    · cases hs
  | download h =>
    simp only at hs
    have hfails : Passed hash w (some { m with stage := .copying todo missed sending true }) :=
      passed_same hw hc ⟨hat, hsend, fun hf => by cases hf⟩
    split at hs
    · split at hs
      next b hb =>
        split at hs
        next hbh =>
          cases hs
          refine passed_same hw hc ⟨hat, ?_, fun hf x hx => ?_⟩
          · rintro x hx
            rcases mem_cons.1 hx with rfl | hx
            · exact hbh
            · exact hsend x hx
          · by_cases hxh : x = h
            · exact .inr (.inr (.inl ⟨(h, b), mem_cons_self, hxh.symm⟩))
            · refine (hall hf x hx).imp_right (Or.imp (fun ht => (mem_erase_of_ne hxh).2 ht) (Or.imp_left ?_))
              rintro ⟨y, hy, hyx⟩
              exact ⟨y, mem_cons_of_mem _ hy, hyx⟩
        · cases hs
          exact hfails
      · cases hs
        exact hfails
    · cases hs
  | upload i =>
    simp only at hs
    split at hs <;> cases hs
    next x hx =>
      have hxh : hash x.2 = x.1 := hsend x (mem_of_getElem? hx)
      have hsafe : Safe hash (w.putObject (m.target, x.1) x.2) := hw.putObject hxh
      refine passed_same hsafe (hc.congr rfl) ⟨hat, fun y hy => hsend y (mem_of_mem_eraseIdx hy), fun hf y hy => ?_⟩
      by_cases hyx : y = x.1
      · subst hyx
        exact .inr (.inr (.inr (stored_putObject.2 (.inl ⟨rfl, hxh⟩))))
      · refine (hall hf y hy).imp_right (Or.imp_right (Or.imp ?_ (stored_of_putObject hxh)))
        rintro ⟨z, hz, hzy⟩
        obtain ⟨j, hj⟩ := mem_iff_getElem?.1 hz
        refine ⟨z, mem_eraseIdx_iff_getElem?.2 ⟨j, ?_, hj⟩, hzy⟩
        rintro rfl
        cases hx.symm.trans hj
        exact hyx hzy.symm
  | callFails =>
    cases hs
    exact passed_same hw hc ⟨hat, hsend, fun hf => by cases hf⟩
  | go =>
    simp only at hs
    split at hs <;> cases hs
    next hempty =>
      obtain ⟨rfl, rfl, hnil, rfl⟩ := hempty
      rw [List.isEmpty_iff] at hnil
      subst hnil
      refine passed_same hw hc ⟨hat, fun h hh => ?_⟩
      simpa using hall rfl h hh
  | headSentinel | copyAcross | lockState | delete | deleteFails => cases hs

theorem passed_verifying (hw : Safe hash w) (hc : Current w m) {missing : Bool}
    (hst : m.stage = .verifying todo missing) (hd : Done hash w m) (hs : m.step hash w a = some (w', m')) :
    Passed hash w' m' := by
  simp only [Done, hst] at hd
  obtain ⟨hat, hall⟩ := hd
  unfold step at hs
  rw [hst] at hs
  cases a with
  | head h =>
    simp only at hs
    split at hs
    · split at hs
      next hhit =>
        cases hs
        refine passed_same hw hc ⟨hat, fun hf x hx => ?_⟩
        by_cases hxh : x = h
        · subst hxh
          exact .inr (hw.stored hhit)
        · exact (hall hf x hx).imp_left fun ht => (mem_erase_of_ne hxh).2 ht
      · cases hs
        exact passed_same hw hc ⟨hat, fun hf => by cases hf⟩
    · cases hs
  | headSentinel =>
    simp only at hs
    split at hs
    next hempty =>
      obtain ⟨rfl, rfl⟩ := hempty
      split at hs <;> cases hs
      · refine passed_same hw hc ⟨hat, fun _ h hh => ?_, fun _ hh => hh⟩
        simpa using hall rfl h hh
      · exact passed_end hw
    · cases hs
  | go | download | upload | callFails | copyAcross | lockState | delete | deleteFails => cases hs

theorem passed_remove (hw : Safe hash w) (hc : Current w m) (hs : m.Spare hash w h)
    (hd : Done hash w { m with stage := st }) :
    Passed hash (w.removeFile (m.source, h)) (some { m with stage := st }) := by
  have hsafe : Safe hash (w.removeFile (m.source, h)) := ⟨hw.objects, covered_of_has hw.covered rfl hs.has_removeFile⟩
  refine passed_same hsafe (hc.congr rfl) ?_
  cases st <;> exact hd

theorem passed_moving (hw : Safe hash w) (hc : Current w m) (hst : m.stage = .moving todo) (hd : Done hash w m)
    (hk : m.Keeps hash w a) (hs : m.step hash w a = some (w', m')) : Passed hash w' m' := by
  simp only [Done, hst] at hd
  obtain ⟨hat, hready, hall⟩ := hd
  unfold step at hs
  rw [hst] at hs
  cases a with
  | go =>
    have hk := hk rfl
    rw [hst] at hk
    cases todo with
    | nil =>
      cases hs
      exact passed_same hw hc ⟨hat, hready⟩
    | cons h todo =>
      have hrest : ∀ x ∈ todo, x ∈ m.hashes := fun x hx => hall x (mem_cons_of_mem h hx)
      have hspare : m.Spare hash w h := hk h rfl
      simp only at hs
      split at hs
      · cases hs
        exact passed_same hw hc ⟨hat, hready, hrest⟩
      next f hf =>
        split at hs
        · cases hs
          exact passed_remove hw hc hspare ⟨hat, hready, hrest⟩
        next htarget =>
          cases hs
          have hnone : (w.removeFile (m.source, h)).pool (m.target, h) = none := by
            rw [pool_removeFile, if_neg (fun he => hc.differ (congrArg Prod.fst he).symm)]
            exact not_isSome_iff_eq_none.1 htarget
          have hsafe : Safe hash ((w.removeFile (m.source, h)).putFile (m.target, h) f) :=
            ⟨hw.objects, covered_of_has hw.covered rfl
              (fun k hk' => has_putFile hnone f k (hspare.has_removeFile k hk'))⟩
          exact passed_same hsafe (hc.congr rfl) ⟨hat, hready, hrest⟩
  | copyAcross torn =>
    cases todo with
    | nil => cases hs
    | cons h todo =>
      simp only at hs
      split at hs
      · cases hs
      next f hf =>
        split at hs
        · cases hs
        next htarget =>
          have hnone := not_isSome_iff_eq_none.1 htarget
          have hsafe : ∀ g, Safe hash (w.putFile (m.target, h) g) :=
            fun g => ⟨hw.objects, covered_of_has hw.covered rfl (has_putFile hnone g)⟩
          cases torn with
          | none =>
            cases hs
            exact passed_same (hsafe _) (hc.congr rfl)
              ⟨hat, hready, hall h mem_cons_self, fun x hx => hall x (mem_cons_of_mem h hx)⟩
          | some b =>
            cases hs
            exact passed_end (hsafe _)
  | head | headSentinel | download | upload | callFails | lockState | delete | deleteFails => cases hs

theorem covered_deleteObject (hw : w.Covered hash) (hc : Current w m) (hat : w.place m.barcode = m.target)
    (hlocal : m.dedup = .localScope) (h : H) : (w.deleteObject (m.source, h)).Covered hash := by
  intro c x hn
  refine (hw c x hn).imp id fun hs => stored_deleteObject.2 ⟨fun he => ?_, hs⟩
  have hplace : w.place c = m.source := congrArg Prod.fst he
  have hns : (w.place c).ns = some m.barcode := by
    rw [hplace, hc.sourceNs, hlocal]
    rfl
  have hcm : c = m.barcode := by
    simp only [place, DedupScope.ns] at hns
    split at hns
    · cases hns
    · exact some.inj hns
  rw [hcm, hat] at hplace
  exact hc.differ hplace.symm

theorem Safe.deleteObject (hw : Safe hash w) (hc : Current w m) (hat : w.place m.barcode = m.target)
    (hlocal : m.dedup = .localScope) (h : H) : Safe hash (w.deleteObject (m.source, h)) := by
  refine ⟨fun k b hb => ?_, covered_deleteObject hw.covered hc hat hlocal h⟩
  rw [bucket_deleteObject] at hb
  split at hb
  · cases hb
  · exact hw.objects k b hb

theorem Good.passed (hw : Safe hash w) (h : Good hash w m) (hk : m.Keeps hash w a)
    (hs : m.step hash w a = some (w', m')) : Passed hash w' m' := by
  obtain ⟨hc, hd⟩ := h
  cases hst : m.stage with
  | copying => exact passed_copying hw hc hst hd hs
  | verifying => exact passed_verifying hw hc hst hd hs
  | moving => exact passed_moving hw hc hst hd hk hs
  | manifests =>
    simp only [Done, hst] at hd
    unfold step at hs
    rw [hst] at hs
    cases a with
    | go =>
      cases hs
      exact passed_same hw hc ⟨hd.1, fun _ => hd.2, fun _ hh => hh⟩
    | _ => cases hs
  | unlinking =>
    simp only [Done, hst] at hd
    unfold step at hs
    rw [hst] at hs
    cases a with
    | go =>
      cases hs
      have hspare := hk rfl
      rw [hst] at hspare
      exact passed_remove hw hc hspare ⟨hd.1, hd.2.1, hd.2.2.2⟩
    | _ => cases hs
  | locking =>
    simp only [Done, hst] at hd
    unfold step at hs
    rw [hst] at hs
    cases a with
    | lockState =>
      simp only at hs
      split at hs
      · cases hs
        exact passed_end hw
      · cases hs
        exact passed_same hw hc hd
    | _ => cases hs
  | flipping =>
    simp only [Done, hst] at hd
    unfold step at hs
    rw [hst] at hs
    cases a with
    | go =>
      have hkeeps := hk rfl
      rw [hst] at hkeeps
      have hhas : ∀ h ∈ m.hashes, w.Has hash (m.target, h) := by
        intro h hh
        by_cases hmode : m.mode = .rebind false
        · exact hkeeps hmode h hh
        · exact .inr (hd.2 hmode h hh)
      obtain ⟨hsafe, hcur, hplace⟩ := safe_flip hw hc hhas
      simp only at hs
      split at hs
      · split at hs
        next hlocal =>
          cases hs
          exact passed_same hsafe hcur ⟨hplace, .inr hlocal⟩
        · cases hs
          exact passed_same hsafe hcur ⟨hplace, .inl rfl⟩
      · cases hs
        exact passed_end hsafe
    | _ => cases hs
  | deleting todo =>
    simp only [Done, hst] at hd
    obtain ⟨hat, hlocal⟩ := hd
    have herase : ∀ h, todo.erase h = [] ∨ m.dedup = .localScope := fun h => hlocal.imp_left fun hnil => by simp [hnil]
    unfold step at hs
    rw [hst] at hs
    cases a with
    | delete h =>
      simp only at hs
      split at hs <;> cases hs
      next hmem =>
        have hscope : m.dedup = .localScope := hlocal.resolve_left (ne_nil_of_mem hmem)
        exact passed_same (hw.deleteObject hc hat hscope h) (hc.congr rfl) ⟨hat, herase h⟩
    | deleteFails h =>
      simp only at hs
      split at hs <;> cases hs
      exact passed_same hw hc ⟨hat, herase h⟩
    | go =>
      simp only at hs
      split at hs <;> cases hs
      exact passed_end hw
    | _ => cases hs

theorem Good.keeps (h : Good hash w m) (hs : m.step hash w a = some (w', m')) (hcov : w'.Covered hash) :
    m.Keeps hash w a := by
  obtain ⟨hc, hd⟩ := h
  intro hgo
  cases a with
  | go =>
    cases hst : m.stage with
    | moving todo =>
      simp only [Done, hst] at hd
      unfold step at hs
      rw [hst] at hs
      cases todo with
      | nil => exact fun _ hx => by cases hx
      | cons h todo =>
        rintro _ ⟨⟩
        have hh := hd.2.2 h mem_cons_self
        simp only at hs
        split at hs
        next hnone => exact fun hsome => by rw [hnone] at hsome; cases hsome
        · split at hs
          · cases hs
            refine spare_of_covered hcov hc hd.1 hh rfl rfl ?_
            rw [pool_removeFile, if_pos rfl]
          · cases hs
            refine spare_of_covered hcov hc hd.1 hh rfl rfl ?_
            rw [pool_putFile, if_neg (fun he => hc.differ (congrArg Prod.fst he)), pool_removeFile, if_pos rfl]
    | unlinking =>
      simp only [Done, hst] at hd
      unfold step at hs
      rw [hst] at hs
      cases hs
      refine spare_of_covered hcov hc hd.1 hd.2.2.1 rfl rfl ?_
      rw [pool_removeFile, if_pos rfl]
    | flipping =>
      unfold step at hs
      rw [hst] at hs
      intro hmode h hh
      rw [hmode] at hs
      cases hs
      have hhas := hcov m.barcode h ((names_rewriteManifestBackend w _ _ _ h).2 ((hc.hashes h).1 hh))
      rw [place_rewriteManifestBackend, if_pos rfl, ← hc.dedup, ← hc.targetNs] at hhas
      exact hhas
    | _ => trivial
  | _ => cases hgo

end Migration

/-! ## Runs -/

namespace MigrateSite

variable {H β : Type} [DecidableEq H] {hash : β → H} {s s' : MigrateSite H β} {w : Pools H β} {m : Migration H β}
  {c source target : Nat} {a : MigrateCall β H} {mode : MigrateMode}

def migrateOk (hash : β → H) (s : MigrateSite H β) : MigrateAct H β → Prop
  | .call a => ∀ m ∈ s.job, m.Keeps hash s.world a
  | _ => True

instance (s : MigrateSite H β) (a : MigrateAct H β) : Decidable (migrateOk hash s a) :=
  match a with
  | .call _ => inferInstanceAs (Decidable (∀ m ∈ s.job, _))
  | .start _ _ _ _ | .stop | .tick _ => .isTrue trivial

structure Inv (hash : β → H) (s : MigrateSite H β) : Prop where
  safe : Migration.Safe hash s.world
  good : ∀ m ∈ s.job, Migration.Good hash s.world m

omit [DecidableEq H] in
theorem good_start (h : Migration.start w c source target mode = .ok m) :
    Migration.Good hash w m := by
  unfold Migration.start at h
  split at h
  · cases h
  next hne =>
    split at h
    · cases h
    next heq =>
      cases h
      have hplace : w.place c = ⟨source, (w.tapes c).dedup.ns c⟩ := by
        rw [place, Decidable.not_not.1 heq]
      refine ⟨⟨fun h => ?_, rfl, rfl, rfl, fun he => hne (congrArg Place.backend he)⟩, ?_⟩
      · rw [names_iff, mem_filterMap]
      · rcases mode with _ | (_ | _)
        · exact ⟨hplace, (fun _ hx => by cases hx), fun _ _ hh => .inl hh⟩
        · exact ⟨hplace, fun hmode => absurd rfl hmode, fun _ hh => hh⟩
        · exact ⟨hplace, fun _ _ hh => .inl hh⟩

theorem Inv.step (h : Inv hash s) {a : MigrateAct H β} (hs : (machine hash).step s a = some s') :
    (migrateOk hash s a → Inv hash s') ∧ (s'.world.Covered hash → migrateOk hash s a) := by
  cases a with
  | start c source target mode =>
    simp only [machine] at hs
    split at hs
    · cases hs
    split at hs <;> cases hs
    next m hm =>
      exact ⟨fun _ => ⟨h.safe, fun x hx => some.inj hx ▸ good_start hm⟩, fun _ => trivial⟩
  | call a =>
    simp only [machine] at hs
    split at hs
    next m hm =>
      obtain ⟨⟨w, m'⟩, hstep, rfl⟩ := map_eq_some_iff.1 hs
      have hgood := h.good m hm
      refine ⟨fun hok => ?_, fun hcov x hx => ?_⟩
      · obtain ⟨hsafe, hnext⟩ := hgood.passed h.safe (hok m hm) hstep
        exact ⟨hsafe, hnext⟩
      · obtain rfl : m = x := some.inj (hm.symm.trans hx)
        exact hgood.keeps hstep hcov
    · cases hs
  | stop =>
    cases hs
    exact ⟨fun _ => ⟨h.safe, fun _ hx => by cases hx⟩, fun _ => trivial⟩
  | tick =>
    cases hs
    refine ⟨fun _ => ⟨⟨h.safe.objects, h.safe.covered⟩, fun m hm => ?_⟩, fun _ => trivial⟩
    exact ⟨(h.good m hm).current.congr rfl, (h.good m hm).done⟩

/-! ## A second run -/

def calls (hash : β → H) : Machine (MigrateSite H β) (MigrateCall β H) := (machine hash).comap .call

def callOk (hash : β → H) (s : MigrateSite H β) (a : MigrateCall β H) : Prop := migrateOk hash s (.call a)

theorem calls_step {w' : Pools H β} {m' : Option (Migration H β)}
    (h : m.step hash w a = some (w', m')) : (calls hash).step ⟨w, some m⟩ a = some ⟨w', m'⟩ := by
  simp only [calls, comap, machine, h, map_some]

omit [DecidableEq H] in
theorem callOk_of_keeps (h : m.Keeps hash w a) : callOk hash ⟨w, some m⟩ a :=
  fun _ hx => some.inj hx ▸ h

theorem reaches_call (a : MigrateCall β H) (w' : Pools H β) (m' : Option (Migration H β))
    (h : m.step hash w a = some (w', m')) (hk : m.Keeps hash w a)
    (hr : (calls hash).Reaches (callOk hash) ⟨w', m'⟩ s') : (calls hash).Reaches (callOk hash) ⟨w, some m⟩ s' :=
  .cons _ (calls_step h) (callOk_of_keeps hk) hr

structure Fills (hash : β → H) (w w' : Pools H β) : Prop where
  tapes : w'.tapes = w.tapes
  stored : ∀ k, w.Stored hash k → w'.Stored hash k

omit [DecidableEq H] in
theorem Fills.trans {w0 w1 w2 : Pools H β} (h : Fills hash w0 w1) (h' : Fills hash w1 w2) : Fills hash w0 w2 :=
  ⟨h'.tapes.trans h.tapes, fun k hk => h'.stored k (h.stored k hk)⟩

theorem fills_putObject (w : Pools H β) {k : ChunkAt H} {b : β} (hb : hash b = k.2) : Fills hash w (w.putObject k b) := by
  refine ⟨rfl, fun k' hk' => stored_putObject.2 ?_⟩
  by_cases hkk : k' = k
  · exact .inl ⟨hkk, hb⟩
  · exact .inr ⟨hkk, hk'⟩

theorem reaches_copy_one (w : Pools H β) (m : Migration H β) (h : H) (todo : List H) (hh : w.Stored hash (m.source, h)) :
    ∃ w', Fills hash w w' ∧ (calls hash).Reaches (callOk hash) ⟨w, some { m with stage := .copying (h :: todo) [] [] false }⟩
      ⟨w', some { m with stage := .copying todo [] [] false }⟩ := by
  by_cases hhit : (w.bucket (m.target, h)).isSome = true
  · refine ⟨w, ⟨rfl, fun _ hk => hk⟩, reaches_call (.head h) w _ ?_ (fun hg => by cases hg) (.refl _ _ _)⟩
    unfold Migration.step
    simp [hhit]
  · obtain ⟨b, hb, hbh⟩ := hh
    have hget : w.bucket (m.source, h) = some b := hb
    have hbh' : hash b = h := hbh
    refine ⟨w.putObject (m.target, h) b, fills_putObject w hbh, ?_⟩
    refine reaches_call (.head h) w (some { m with stage := .copying todo [h] [] false }) ?_ (fun hg => by cases hg) ?_
    · unfold Migration.step
      simp [hhit]
    refine reaches_call (.download h) w (some { m with stage := .copying todo [] [(h, b)] false }) ?_
      (fun hg => by cases hg) ?_
    · unfold Migration.step
      simp [hget, hbh']
    refine reaches_call (.upload 0) _ _ ?_ (fun hg => by cases hg) (.refl _ _ _)
    unfold Migration.step
    simp

theorem reaches_copied (m : Migration H β) : ∀ (todo : List H) (w : Pools H β),
    (∀ h ∈ todo, w.Stored hash (m.source, h)) →
    ∃ w', Fills hash w w' ∧ (calls hash).Reaches (callOk hash) ⟨w, some { m with stage := .copying todo [] [] false }⟩
      ⟨w', some { m with stage := .copying [] [] [] false }⟩
  | [], w, _ => ⟨w, ⟨rfl, fun _ hk => hk⟩, .refl _ _ _⟩
  | h :: todo, w, hall => by
    obtain ⟨w1, hf1, hr1⟩ := reaches_copy_one w m h todo (hall h mem_cons_self)
    obtain ⟨w2, hf2, hr2⟩ := reaches_copied m todo w1 fun x hx => hf1.stored _ (hall x (mem_cons_of_mem h hx))
    exact ⟨w2, hf1.trans hf2, hr1.trans _ hr2⟩

theorem reaches_verified (m : Migration H β) (w : Pools H β) : ∀ todo : List H,
    (∀ h ∈ todo, w.Stored hash (m.target, h)) →
    (calls hash).Reaches (callOk hash) ⟨w, some { m with stage := .verifying todo false }⟩
      ⟨w, some { m with stage := .verifying [] false }⟩
  | [], _ => .refl _ _ _
  | h :: todo, hall => by
    obtain ⟨b, hb, -⟩ := hall h mem_cons_self
    have hget : w.bucket (m.target, h) = some b := hb
    refine reaches_call (.head h) w (some { m with stage := .verifying todo false }) ?_ (fun hg => by cases hg)
      (reaches_verified m w todo (fun x hx => hall x (mem_cons_of_mem h hx)))
    unfold Migration.step
    simp [hget]

theorem reaches_moved (m : Migration H β) : ∀ (todo : List H) (w : Pools H β), (∀ h ∈ todo, w.Stored hash (m.source, h)) →
    ∃ w', Fills hash w w' ∧ (calls hash).Reaches (callOk hash) ⟨w, some { m with stage := .moving todo }⟩
      ⟨w', some { m with stage := .moving [] }⟩
  | [], w, _ => ⟨w, ⟨rfl, fun _ hk => hk⟩, .refl _ _ _⟩
  | h :: todo, w, hall => by
    have hkeeps : Migration.Keeps hash w { m with stage := .moving (h :: todo) } .go := by
      rintro - _ ⟨⟩ -
      exact hall h mem_cons_self
    have hrest : ∀ x ∈ todo, w.Stored hash (m.source, x) := fun x hx => hall x (mem_cons_of_mem h hx)
    obtain ⟨w1, htapes, hbucket, hstep⟩ : ∃ w1 : Pools H β, w1.tapes = w.tapes ∧ w1.bucket = w.bucket ∧
        Migration.step hash w { m with stage := .moving (h :: todo) } .go =
          some (w1, some { m with stage := .moving todo }) := by
      cases hf : w.pool (m.source, h) with
      | none => exact ⟨w, rfl, rfl, by unfold Migration.step; simp [hf]⟩
      | some f =>
        by_cases ht : (w.pool (m.target, h)).isSome = true
        · exact ⟨w.removeFile (m.source, h), rfl, rfl, by unfold Migration.step; simp [hf, ht]⟩
        · exact ⟨(w.removeFile (m.source, h)).putFile (m.target, h) f, rfl, rfl, by unfold Migration.step; simp [hf, ht]⟩
    have hf1 : Fills hash w w1 := ⟨htapes, fun k hk => by rwa [Pools.Stored, hbucket]⟩
    obtain ⟨w2, hf2, hr2⟩ := reaches_moved m todo w1 fun x hx => hf1.stored _ (hrest x hx)
    exact ⟨w2, hf1.trans hf2, reaches_call .go w1 _ hstep hkeeps hr2⟩

theorem reaches_deleted (m : Migration H β) : ∀ (todo : List H) (w : Pools H β),
    ∃ w', w'.tapes = w.tapes ∧ (calls hash).Reaches (callOk hash) ⟨w, some { m with stage := .deleting todo }⟩ ⟨w', none⟩
  | [], w => ⟨w, rfl, reaches_call .go w none (by unfold Migration.step; simp) (fun _ => trivial) (.refl _ _ _)⟩
  | h :: todo, w => by
    obtain ⟨w', ht, hr⟩ := reaches_deleted m todo (w.deleteObject (m.source, h))
    refine ⟨w', ht, reaches_call (.delete h) _ _ ?_ (fun hg => by cases hg) hr⟩
    unfold Migration.step
    simp

theorem step_flipping (hash : β → H) (w : Pools H β) (m : Migration H β) :
    ∃ m', Migration.step hash w { m with stage := .flipping } .go =
      some (Migration.rewriteManifestBackend w m.barcode m.target.backend, m') ∧
        (m' = none ∨ ∃ todo, m' = some { m with stage := .deleting todo }) := by
  obtain ⟨barcode, dedup, worm, source, target, mode, hashes, stage⟩ := m
  cases mode with
  | rebind => exact ⟨none, rfl, .inl rfl⟩
  | move =>
    cases dedup with
    | localScope => exact ⟨_, rfl, .inr ⟨hashes, rfl⟩⟩
    | globalScope => exact ⟨_, rfl, .inr ⟨[], rfl⟩⟩

theorem reaches_end (hc : Migration.Current w m) (hsource : ∀ h ∈ m.hashes, w.Stored hash (m.source, h))
    (htarget : m.mode = .rebind false → ∀ h ∈ m.hashes, w.Stored hash (m.target, h)) :
    ∃ w', w'.place m.barcode = m.target ∧
      (calls hash).Reaches (callOk hash) ⟨w, some { m with stage := .moving m.hashes }⟩ ⟨w', none⟩ := by
  obtain ⟨w1, hf1, hr1⟩ := reaches_moved m m.hashes w hsource
  have hplace : (Migration.rewriteManifestBackend w1 m.barcode m.target.backend).place m.barcode = m.target := by
    rw [Migration.place_rewriteManifestBackend, if_pos rfl, hf1.tapes, ← hc.dedup, ← hc.targetNs]
  have hkeeps : Migration.Keeps hash w1 { m with stage := .flipping } .go :=
    fun _ hmode h hh => .inr (hf1.stored _ (htarget hmode h hh))
  obtain ⟨m', hstep, hm'⟩ := step_flipping hash w1 m
  have hflip : ∀ s', (calls hash).Reaches (callOk hash)
      ⟨Migration.rewriteManifestBackend w1 m.barcode m.target.backend, m'⟩ s' →
      (calls hash).Reaches (callOk hash) ⟨w, some { m with stage := .moving m.hashes }⟩ s' := by
    intro s' hr
    refine hr1.trans _ (reaches_call .go w1 (some { m with stage := .locking }) ?_ (fun _ _ hx => by cases hx) ?_)
    · unfold Migration.step
      simp
    refine reaches_call (.lockState true) w1 (some { m with stage := .flipping }) ?_ (fun hg => by cases hg)
      (reaches_call .go _ m' hstep hkeeps hr)
    unfold Migration.step
    simp
  rcases hm' with rfl | ⟨todo, rfl⟩
  · exact ⟨_, hplace, hflip _ (.refl _ _ _)⟩
  · obtain ⟨w2, htapes, hr2⟩ := reaches_deleted m todo (Migration.rewriteManifestBackend w1 m.barcode m.target.backend)
    exact ⟨w2, (Migration.place_congr htapes _).trans hplace, hflip _ hr2⟩

theorem reaches_moving
    (hm : Migration.start w c source target mode = .ok m) (hsource : ∀ h ∈ m.hashes, w.Stored hash (m.source, h))
    (htarget : mode ≠ .move → ∀ h ∈ m.hashes, w.Stored hash (m.target, h)) :
    ∃ w', Fills hash w w' ∧ (calls hash).Reaches (callOk hash) ⟨w, some m⟩
      ⟨w', some { m with stage := .moving m.hashes }⟩ := by
  unfold Migration.start at hm
  split at hm
  · cases hm
  split at hm <;> cases hm
  rcases mode with _ | (_ | _)
  · obtain ⟨w', hf, hr⟩ := reaches_copied _ _ w hsource
    refine ⟨w', hf, hr.trans _ ?_⟩
    refine reaches_call .go w' _ (by unfold Migration.step; simp; rfl) (fun _ => trivial) ?_
    exact reaches_call .go w' _ (by unfold Migration.step; simp) (fun _ => trivial) (.refl _ _ _)
  · exact ⟨w, ⟨rfl, fun _ hk => hk⟩, .refl _ _ _⟩
  · refine ⟨w, ⟨rfl, fun _ hk => hk⟩, (reaches_verified _ w _ (htarget (by simp))).trans _ ?_⟩
    exact reaches_call (.headSentinel true) w _ (by unfold Migration.step; simp) (fun hg => by cases hg) (.refl _ _ _)

/-- **A migration that is started again goes through** where the objects are there. -/
theorem run_to_end (hc : Migration.Current w m) (hat : w.place m.barcode = m.source)
    (hsource : ∀ h ∈ m.hashes, w.Stored hash (m.source, h))
    (htarget : m.mode ≠ .move → ∀ h ∈ m.hashes, w.Stored hash (m.target, h)) :
    ∃ (as : List (MigrateCall β H)) (s' : MigrateSite H β), (machine hash).run ⟨w, none⟩
        (.start m.barcode m.source.backend m.target.backend m.mode :: as.map .call) = some s' ∧
      (machine hash).Meets (migrateOk hash) ⟨w, none⟩
        (.start m.barcode m.source.backend m.target.backend m.mode :: as.map .call) ∧
      s'.job = none ∧ s'.world.place m.barcode = m.target := by
  have hbackend : (w.tapes m.barcode).backend = m.source.backend := congrArg Place.backend hat
  have hsourceEq : (⟨m.source.backend, (w.tapes m.barcode).dedup.ns m.barcode⟩ : Place) = m.source := by
    rw [← hbackend]
    exact hat
  have htargetEq : (⟨m.target.backend, (w.tapes m.barcode).dedup.ns m.barcode⟩ : Place) = m.target := by
    rw [← hc.dedup, ← hc.targetNs]
  have hne : m.source.backend ≠ m.target.backend := by
    intro he
    exact hc.differ (by rw [← hsourceEq, ← htargetEq, he])
  obtain ⟨m2, hm2, hbar, hsrc, htgt, hmode⟩ : ∃ m2, Migration.start w m.barcode m.source.backend m.target.backend m.mode =
      .ok m2 ∧ m2.barcode = m.barcode ∧ m2.source = m.source ∧ m2.target = m.target ∧ m2.mode = m.mode := by
    unfold Migration.start
    rw [if_neg hne, if_neg (Decidable.not_not.2 hbackend)]
    exact ⟨_, rfl, rfl, hsourceEq, htargetEq, rfl⟩
  have hcur : Migration.Current w m2 := (good_start hm2 : Migration.Good hash w m2).current
  have hhashes : ∀ h ∈ m2.hashes, h ∈ m.hashes := fun h hh => (hc.hashes h).2 (hbar ▸ (hcur.hashes h).1 hh)
  have hsource2 : ∀ h ∈ m2.hashes, w.Stored hash (m2.source, h) := fun h hh => hsrc ▸ hsource h (hhashes h hh)
  have htarget2 : m.mode ≠ .move → ∀ h ∈ m2.hashes, w.Stored hash (m2.target, h) :=
    fun hmove h hh => htgt ▸ htarget hmove h (hhashes h hh)
  obtain ⟨w1, hf1, hr1⟩ := reaches_moving hm2 hsource2 htarget2
  obtain ⟨w2, hplace, hr2⟩ := reaches_end (hcur.congr hf1.tapes) (fun h hh => hf1.stored _ (hsource2 h hh))
    fun hrebind h hh => hf1.stored _ (htarget2 (by rw [← hmode, hrebind]; simp) h hh)
  obtain ⟨as, hrun, hmeets⟩ := hr1.trans _ hr2
  have hstart : (machine hash).step ⟨w, none⟩ (.start m.barcode m.source.backend m.target.backend m.mode) =
      some ⟨w, some m2⟩ := by
    simp only [machine, hm2]
  refine ⟨as, ⟨w2, none⟩, ?_, ?_, rfl, ?_⟩
  · rw [run_cons, hstart, bind_some, ← run_comap]
    exact hrun
  · rw [meets_cons _ hstart]
    exact ⟨trivial, (meets_comap _ _ _ _ _).1 hmeets⟩
  · rw [← hbar, ← htgt]
    exact hplace

/-- **Migrations and their stop points**: every record stays covered exactly if each file that leaves a source pool is
also an object of that source (and an unverified `Rebind` finds its chunks); one stopped before its flip can be run
again. -/
theorem migrate_keeps_chunks (hash : β → H) (w0 : Pools H β) (hobjects : ∀ k b, w0.bucket k = some b → hash b = k.2)
    (hcovered : w0.Covered hash) (acts : List (MigrateAct H β)) (s : MigrateSite H β)
    (hrun : (machine hash).run ⟨w0, none⟩ acts = some s) :
    ((∀ pre, pre <+: acts → ∀ s1, (machine hash).run ⟨w0, none⟩ pre = some s1 → s1.world.Covered hash) ↔
      (machine hash).Meets (migrateOk hash) ⟨w0, none⟩ acts) ∧
    ((machine hash).Meets (migrateOk hash) ⟨w0, none⟩ acts → ∀ m ∈ s.job, s.world.place m.barcode = m.source →
      (∀ h ∈ m.hashes, s.world.Stored hash (m.source, h)) →
      (m.mode ≠ .move → ∀ h ∈ m.hashes, s.world.Stored hash (m.target, h)) →
      ∃ (as : List (MigrateCall β H)) (s' : MigrateSite H β), (machine hash).run s
          (.stop :: .start m.barcode m.source.backend m.target.backend m.mode :: as.map .call) = some s' ∧
        s'.job = none ∧ s'.world.place m.barcode = m.target ∧ s'.world.Covered hash) := by
  have hinit : Inv hash ⟨w0, none⟩ := ⟨⟨hobjects, hcovered⟩, fun _ hm => by cases hm⟩
  refine ⟨Machine.forall_prefix_iff_meets _ (fun _ h => h.safe.covered) (fun _ _ _ h hs => h.step hs) hinit hrun, ?_⟩
  intro hmeets m hm hat hsource htarget
  have hinv : Inv hash s := Machine.run_inv _ (fun _ _ _ h hok hs => (h.step hs).1 hok) hinit hmeets hrun
  obtain ⟨as, s', hrun', hmeets', hjob, hplace⟩ := run_to_end (hinv.good m hm).current hat hsource htarget
  have hstopped : Inv hash ⟨s.world, none⟩ := ⟨hinv.safe, fun _ hx => by cases hx⟩
  have hinv' : Inv hash s' := Machine.run_inv _ (fun _ _ _ h hok hs => (h.step hs).1 hok) hstopped hmeets' hrun'
  refine ⟨as, s', ?_, hjob, hplace, hinv'.safe.covered⟩
  rw [Machine.run_cons]
  exact hrun'

def sharing (bucket : ChunkAt Nat → Option Nat) : Pools Nat Nat where
  now := 0
  barcodes := [1, 2]
  tapes _ := ⟨0, .globalScope, false, [⟨1, some 7, .localOnly, false, none⟩]⟩
  pool k := if k = (⟨0, none⟩, 7) then some ⟨7, 0⟩ else none
  bucket := bucket

def objectOf (backend : Nat) : ChunkAt Nat → Option Nat := fun k => if k = (⟨backend, none⟩, 7) then some 7 else none

theorem sharing_covered {bucket : ChunkAt Nat → Option Nat} : (sharing bucket).Covered id := by
  rintro c h hn
  obtain ⟨r, hr, hh⟩ := names_iff.1 hn
  rw [eq_of_mem_singleton hr] at hh
  cases hh
  exact .inl ⟨⟨7, 0⟩, rfl, rfl⟩

theorem objectOf_content (backend : Nat) (k : ChunkAt Nat) (b : Nat) (h : objectOf backend k = some b) : id b = k.2 := by
  unfold objectOf at h
  split at h <;> cases h
  next hk =>
    rw [hk]
    rfl

def uploadedRun : List (MigrateAct Nat Nat) :=
  [.start 1 0 1 .move, .call (.head 7), .call (.download 7), .call (.upload 0), .call .go, .call .go, .call .go]

theorem migrate_keeps_chunks_uploadedRun :
    ∃ s, (machine id).run ⟨sharing (objectOf 0), none⟩ uploadedRun = some s ∧ s.world.Covered id ∧
      s.world.pool (⟨0, none⟩, 7) = none ∧
      ∃ (as : List (MigrateCall Nat Nat)) (s' : MigrateSite Nat Nat),
        (machine id).run s (.stop :: .start 1 0 1 .move :: as.map .call) = some s' ∧ s'.job = none ∧
          s'.world.place 1 = ⟨1, none⟩ ∧ s'.world.Covered id := by
  obtain ⟨s, hs, hpool, m, hm, hbar, hsrc, htgt, hmode, hat, hstored⟩ :
      ∃ s ∈ (machine id).run ⟨sharing (objectOf 0), none⟩ uploadedRun, s.world.pool (⟨0, none⟩, 7) = none ∧
        ∃ m ∈ s.job, m.barcode = 1 ∧ m.source = ⟨0, none⟩ ∧ m.target = ⟨1, none⟩ ∧ m.mode = .move ∧
          s.world.place m.barcode = m.source ∧ ∀ h ∈ m.hashes, s.world.Stored id (m.source, h) := by decide +kernel
  have hmeets : (machine id).Meets (migrateOk id) ⟨sharing (objectOf 0), none⟩ uploadedRun := by decide +kernel
  obtain ⟨hiff, hagain⟩ := migrate_keeps_chunks id (sharing (objectOf 0)) (objectOf_content 0) sharing_covered uploadedRun s hs
  obtain ⟨as, s', hr, hjob, hplace, hcov⟩ := hagain hmeets m hm hat hstored fun hne => absurd hmode hne
  rw [hbar, hsrc, htgt, hmode] at hr
  rw [hbar, htgt] at hplace
  exact ⟨s, hs, hiff.2 hmeets _ List.prefix_rfl s hs, hpool, as, s', hr, hjob, hplace, hcov⟩

def probedRun : List (MigrateAct Nat Nat) := [.start 1 0 1 .move, .call (.head 7), .call .go, .call .go, .call .go]

/-- **A chunk is lost**: the file is the only copy on the source, the target already has the object, and the file
moves. -/
theorem migrate_loses_chunk :
    (∃ s, (machine id).run ⟨sharing (objectOf 1), none⟩ (probedRun ++ [.stop]) = some s ∧
      s.world.Names 1 7 ∧ ¬ s.world.Has id (s.world.place 1, 7)) ∧
    ∃ s, (machine id).run ⟨sharing (objectOf 1), none⟩
        (probedRun ++ [.call .go, .call (.lockState true), .call .go, .call .go]) = some s ∧
      s.job.isNone = true ∧ s.world.place 1 = ⟨1, none⟩ ∧ s.world.Names 2 7 ∧ ¬ s.world.Has id (s.world.place 2, 7) := by
  decide +kernel

end MigrateSite

end Thur.Stream

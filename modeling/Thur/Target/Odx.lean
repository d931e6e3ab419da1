import Thur.Block.Eviction
import Thur.Block.GcSafety
/-!
# Odx — copy offload over the upload pipeline

POPULATE TOKEN flushes the source range and then, page after page, reads the record and pins the chunk; the token keeps
both until it is cancelled or expires. WRITE USING TOKEN works on a clone of the records, without the pins: a hole is
cleared, a chunk that the destination can decrypt is bound as it is, any other is decrypted for the source and sealed
for the destination. The machine interleaves the upload pipeline, the eviction passes, the garbage collection jobs and
these commands, whose writes are rows of the pipeline. Outcomes by list identifier are left out: any token may be
cancelled.
-/
namespace Thur

open Option

namespace FleetState

variable {V H : Type} [DecidableEq V] [DecidableEq H] (fl : Fleet V H)

def fetch (s : FleetState V H) (c : ChunkKey H) : Option Bytes :=
  match s.pool c with
  | some f => some f.bytes
  | none => (s.store c).filter fun bytes => fl.cr.blake3 bytes = c.2

/-- The entry need not be the page's record. -/
def fetchAndDecrypt (s : FleetState V H) (v : V) (p : PageId) (e : PageEntry H) : Option Bytes :=
  (s.fetch fl (fl.key v e.hash)).bind fun payload => openPayload fl.cr (fl.cfg v) p e.ivSalt payload

def readPage (s : FleetState V H) (v : V) (p : PageId) : Option Bytes :=
  match s.record v p with
  | none => some (List.replicate (fl.cfg v).pageSize 0)
  | some e => s.fetchAndDecrypt fl v p e

def warmed (s : FleetState V H) (c : ChunkKey H) : FleetState V H :=
  match s.fetch fl c with
  | some bytes => { s with pool := s.pool.insertBytes c bytes s.now }
  | none => s

end FleetState

def defaultInactivitySecs : Nat := 300

def maxInactivitySecs : Nat := 600

def resolveTtl (requested : Nat) : Nat := if requested = 0 then defaultInactivitySecs else min requested maxInactivitySecs

/-- Its record, and what the page read as when the record was taken, which the code does not keep. -/
structure TokenPage (H : Type) where
  page : PageId
  entry : Option (PageEntry H)
  held : Option Bytes
deriving DecidableEq

/-- Past its flush. `reading` is a page whose record is read and whose chunk is not pinned yet. -/
structure Populate (V H : Type) where
  vol : V
  ttl : Nat
  todo : List PageId
  reading : Option (TokenPage H)
  pages : List (TokenPage H)
  pins : List (ChunkKey H)

structure OdxToken (V H : Type) where
  vol : V
  deadline : Nat
  pages : List (TokenPage H)
  pins : List (ChunkKey H)

/-- `binding` and `sealing` hold the row of the pipeline that writes the page, and the record. -/
inductive ApplyStage (H : Type)
  | next
  | dropped
  | opened (plain : Bytes)
  | binding (t : Nat) (wrote : Option (PageEntry H))
  | sealing (t : Nat) (wrote : PageEntry H)
  | good
  | failed
deriving DecidableEq

namespace ApplyStage

variable {H : Type}

def cloneRow : ApplyStage H → Option Nat
  | .binding t _ => some t
  | _ => none

def sealRow : ApplyStage H → Option Nat
  | .sealing t _ => some t
  | _ => none

def InProgress : ApplyStage H → Prop
  | .good => False
  | .failed => False
  | _ => True

instance (st : ApplyStage H) : Decidable st.InProgress :=
  match st with
  | .next | .dropped | .opened _ | .binding _ _ | .sealing _ _ => .isTrue trivial
  | .good | .failed => .isFalse id

end ApplyStage

structure CopiedPage (H : Type) where
  page : PageId
  source : TokenPage H
  wrote : Option (PageEntry H)
deriving DecidableEq

structure Apply (V H : Type) where
  token : Nat
  src : V
  dst : V
  range : List (PageId × TokenPage H)
  todo : List (PageId × TokenPage H)
  done : List (CopiedPage H)
  stage : ApplyStage H

structure OdxState (V H : Type) where
  fleet : FleetState V H
  passes : Table (EvictPass V H)
  jobs : Table (GcJob V H)
  populates : Table (Populate V H)
  tokens : Table (OdxToken V H)
  applies : Table (Apply V H)

inductive OdxAct (V H : Type)
  /-- The pipeline and the eviction passes; the garbage collection jobs. -/
  | disk (a : DiskCacheAct V H)
  | gc (a : GcAct V H)
  /-- `populate_token`. -/
  | populate (k : Nat) (v : V) (inactivity : Nat) (pages : List PageId)
  | populateRead (k : Nat)
  | populatePin (k : Nat)
  | populateFail (k : Nat)
  | mint (k tok : Nat)
  /-- `write_using_token`. -/
  | apply (k tok : Nat) (dst : V) (pages : List PageId)
  | applyDrop (k : Nat)
  | applyBind (k t : Nat)
  | applyOpen (k : Nat)
  | applySeal (k t : Nat) (salt : UInt64)
  | applyDone (k : Nat)
  | applyFail (k : Nat) (abort : Bool)
  | applyGood (k : Nat)
  /-- `cancel` and `sweep_expired`. -/
  | cancel (tok : Nat)
  | expire (tok : Nat)

def GcAct.Own {V H : Type} : GcAct V H → Prop
  | .fleet _ => False
  | _ => True

instance {V H : Type} (a : GcAct V H) : Decidable a.Own := by
  apply GcAct.casesOn (motive := fun a => Decidable (GcAct.Own a)) a <;> intros <;> unfold GcAct.Own <;> infer_instance

/-- The chunk is pinned unless the command pins it already. -/
def Populate.take {V H : Type} [DecidableEq H] (fl : Fleet V H) (y : Populate V H) (pg : TokenPage H) : Populate V H :=
  let pins := match pg.entry with
    | none => y.pins
    | some e => if fl.key y.vol e.hash ∈ y.pins then y.pins else fl.key y.vol e.hash :: y.pins
  { y with reading := none, pages := y.pages ++ [pg], pins := pins }

def Apply.finish {V H : Type} (y : Apply V H) (wrote : Option (PageEntry H)) : Apply V H :=
  match y.todo with
  | [] => y
  | (p, pg) :: rest => { y with todo := rest, done := y.done ++ [⟨p, pg, wrote⟩], stage := .next }

namespace OdxState

variable {V H : Type} [DecidableEq V] [DecidableEq H] (fl : Fleet V H)

def booted (b : Boot V H) : OdxState V H := ⟨.booted b, ∅, ∅, ∅, ∅, ∅⟩

section

variable (s : OdxState V H)

def disk : DiskCache V H := ⟨s.fleet, s.passes⟩

def collector : GcState V H := ⟨s.fleet, s.jobs⟩

def guards : List (ChunkKey H) :=
  s.populates.entries.flatMap (fun y => y.2.pins) ++ s.tokens.entries.flatMap fun y => y.2.pins

def repin : OdxState V H := { s with fleet := { s.fleet with pins := fun c => s.guards.count c } }

def setPopulate (k : Nat) (y : Populate V H) : OdxState V H :=
  repin { s with populates := s.populates.insert k y }

def setApply (k : Nat) (y : Apply V H) : OdxState V H := { s with applies := s.applies.insert k y }

def dropToken (tok : Nat) : OdxState V H := repin { s with tokens := s.tokens.erase tok }

/-- It leaves the pins alone and ends no row of an apply loop. -/
def Free : DiskCacheAct V H → Prop
  | .fleet (.pin _) => False
  | .fleet (.unpin _) => False
  | .fleet (.cloneEnd t) => s.applies.All fun _ y => y.stage.cloneRow ≠ some t
  | .fleet (.cloneFail t) => s.applies.All fun _ y => y.stage.cloneRow ≠ some t
  | .fleet (.sealEnd t) => s.applies.All fun _ y => y.stage.sealRow ≠ some t
  | .fleet (.sealAbort t) => s.applies.All fun _ y => y.stage.sealRow ≠ some t
  | .fleet (.sealFail t) => s.applies.All fun _ y => y.stage.sealRow ≠ some t
  | _ => True

end

instance (s : OdxState V H) (a : DiskCacheAct V H) : Decidable (s.Free a) := by
  apply DiskCacheAct.casesOn (motive := fun a => Decidable (s.Free a)) a
  · intro a
    apply FleetAct.casesOn (motive := fun a => Decidable (s.Free (.fleet a))) a <;> intros <;> unfold Free <;> infer_instance
  all_goals
    intros
    unfold Free
    infer_instance

def Fits (s : OdxState V H) (x : OdxToken V H) (dst : V) (pages : List PageId) : Prop :=
  s.fleet.now < x.deadline ∧ (fl.cfg dst).pageSize = (fl.cfg x.vol).pageSize ∧ pages.length = x.pages.length ∧
    fl.poolOf x.vol = fl.poolOf dst
deriving Decidable

def ending (stage : ApplyStage H) (abort : Bool) : Option (FleetAct V H) :=
  match stage with
  | .binding t _ => some (.cloneFail t)
  | .sealing t _ => some (if abort then .sealAbort t else .sealFail t)
  | _ => none

def step (s : OdxState V H) : OdxAct V H → Option (OdxState V H)
  | .disk a =>
    if s.Free a then (s.disk.step fl a).map (fun d => { s with fleet := d.fleet, passes := d.passes }) else none
  | .gc a => if a.Own then (s.collector.step fl a).map (fun g => { s with fleet := g.fleet, jobs := g.jobs }) else none
  | .populate k v inactivity pages =>
    if s.populates.lookup k = none then some (s.setPopulate k ⟨v, resolveTtl inactivity, pages, none, [], []⟩) else none
  | .populateRead k =>
    (s.populates.lookup k).bind (fun y =>
      match y.todo, y.reading with
      | p :: ps, none =>
        let pg : TokenPage H := ⟨p, s.fleet.record y.vol p, s.fleet.readPage fl y.vol p⟩
        some (s.setPopulate k { y with todo := ps, reading := some pg })
      | _, _ => none)
  | .populatePin k =>
    (s.populates.lookup k).bind fun y => y.reading.bind fun pg => some (s.setPopulate k (y.take fl pg))
  | .populateFail k =>
    -- the index cannot be read: the guards taken so far are dropped
    (s.populates.lookup k).bind fun _ => some (repin { s with populates := s.populates.erase k })
  | .mint k tok =>
    (s.populates.lookup k).bind (fun y =>
      if y.todo = [] ∧ y.reading.isNone ∧ s.tokens.lookup tok = none
      then some (repin { s with
        populates := s.populates.erase k
        tokens := s.tokens.insert tok ⟨y.vol, s.fleet.now + y.ttl, y.pages, y.pins⟩ })
      else none)
  | .apply k tok dst pages =>
    (s.tokens.lookup tok).bind (fun x =>
      if s.applies.lookup k = none ∧ s.Fits fl x dst pages
      then some (s.setApply k ⟨tok, x.vol, dst, pages.zip x.pages, pages.zip x.pages, [], .next⟩) else none)
  | .applyDrop k =>
    -- `invalidate_cached_page` takes the lock of the cache
    (s.applies.lookup k).bind (fun y =>
      match y.stage, y.todo with
      | .next, _ :: _ => if s.fleet.locked y.dst = none then some (s.setApply k { y with stage := .dropped }) else none
      | _, _ => none)
  | .applyBind k t =>
    (s.applies.lookup k).bind (fun y =>
      match y.stage, y.todo with
      | .dropped, (p, pg) :: _ =>
        if s.fleet.clones.lookup t = none ∧ (pg.entry.isNone ∨ fl.rebindOk y.src pg.page y.dst p)
        then some
          { s with
            fleet := { s.fleet with clones := s.fleet.clones.insert t ⟨y.src, pg.page, y.dst, p, .ready pg.entry⟩ }
            applies := s.applies.insert k { y with stage := .binding t pg.entry } }
        else none
      | _, _ => none)
  | .applyOpen k =>
    (s.applies.lookup k).bind (fun y =>
      match y.stage, y.todo with
      | .dropped, (p, pg) :: _ =>
        pg.entry.bind (fun e =>
          if fl.rebindOk y.src pg.page y.dst p then none
          else (s.fleet.fetchAndDecrypt fl y.src pg.page e).bind (fun plain => some
            { s with
              fleet := s.fleet.warmed fl (fl.key y.src e.hash)
              applies := s.applies.insert k { y with stage := .opened plain } }))
      | _, _ => none)
  | .applySeal k t salt =>
    -- `write_page` of the writer, which does not take the lock of the cache
    (s.applies.lookup k).bind (fun y =>
      match y.stage, y.todo with
      | .opened plain, (p, _) :: _ =>
        if s.fleet.seals.lookup t = none
        then
          let x : Seal V := ⟨y.dst, p, plain, salt, .captured⟩
          some
            { s with
              fleet := { s.fleet with seals := s.fleet.seals.insert t x }
              applies := s.applies.insert k { y with stage := .sealing t (x.entry fl) } }
        else none
      | _, _ => none)
  | .applyDone k =>
    (s.applies.lookup k).bind (fun y =>
      match y.stage with
      | .binding t wrote =>
        (s.fleet.step fl (.cloneEnd t)).map fun f => { s with fleet := f, applies := s.applies.insert k (y.finish wrote) }
      | .sealing t wrote =>
        (s.fleet.step fl (.sealEnd t)).map (fun f =>
          { s with fleet := f, applies := s.applies.insert k (y.finish (some wrote)) })
      | _ => none)
  | .applyFail k abort =>
    (s.applies.lookup k).bind (fun y =>
      match ending y.stage abort with
      | some a =>
        (s.fleet.step fl a).map fun f => { s with fleet := f, applies := s.applies.insert k { y with stage := .failed } }
      | none =>
        match y.stage with
        | .dropped => some (s.setApply k { y with stage := .failed })
        | _ => none)
  | .applyGood k =>
    (s.applies.lookup k).bind (fun y =>
      match y.stage, y.todo with
      | .next, [] => some (s.setApply k { y with stage := .good })
      | _, _ => none)
  | .cancel tok => (s.tokens.lookup tok).bind fun _ => some (s.dropToken tok)
  | .expire tok => (s.tokens.lookup tok).bind fun x => if x.deadline ≤ s.fleet.now then some (s.dropToken tok) else none

def machine : Machine (OdxState V H) (OdxAct V H) := ⟨fun s a => s.step fl a⟩

inductive Moves (s : OdxState V H) : OdxAct V H → OdxState V H → Prop
  | disk {a d} (hm : DiskCache.Moves fl s.disk a d) (hfree : s.Free a) :
      Moves s (.disk a) { s with fleet := d.fleet, passes := d.passes }
  | gc {a g} (hm : GcState.Moves fl s.collector a g) (hown : a.Own) :
      Moves s (.gc a) { s with fleet := g.fleet, jobs := g.jobs }
  | populate {k inactivity v pages} :
      Moves s (.populate k v inactivity pages) (s.setPopulate k ⟨v, resolveTtl inactivity, pages, none, [], []⟩)
  | populateRead {k y p ps} (hy : s.populates.lookup k = some y) : Moves s (.populateRead k) (s.setPopulate k { y with
        todo := ps
        reading := some ⟨p, s.fleet.record y.vol p, s.fleet.readPage fl y.vol p⟩ })
  | populatePin {k y pg} (hy : s.populates.lookup k = some y) (hr : y.reading = some pg) :
      Moves s (.populatePin k) (s.setPopulate k (y.take fl pg))
  | populateFail {k} : Moves s (.populateFail k) (repin { s with populates := s.populates.erase k })
  | mint {k tok y} (hy : s.populates.lookup k = some y) (ht : s.tokens.lookup tok = none) :
      Moves s (.mint k tok) (repin { s with
        populates := s.populates.erase k
        tokens := s.tokens.insert tok ⟨y.vol, s.fleet.now + y.ttl, y.pages, y.pins⟩ })
  | apply {k tok dst pages x} (hx : s.tokens.lookup tok = some x) (hfits : s.Fits fl x dst pages) :
      Moves s (.apply k tok dst pages) (s.setApply k ⟨tok, x.vol, dst, pages.zip x.pages, pages.zip x.pages, [], .next⟩)
  | applyDrop {k y} (hy : s.applies.lookup k = some y) (hst : y.stage = .next) :
      Moves s (.applyDrop k) (s.setApply k { y with stage := .dropped })
  | applyBind {k t y p pg rest}
      (hy : s.applies.lookup k = some y) (hst : y.stage = .dropped) (htodo : y.todo = (p, pg) :: rest)
      (hok : pg.entry = none ∨ fl.rebindOk y.src pg.page y.dst p = true) :
      Moves s (.applyBind k t)
        { s with
          fleet := { s.fleet with clones := s.fleet.clones.insert t ⟨y.src, pg.page, y.dst, p, .ready pg.entry⟩ }
          applies := s.applies.insert k { y with stage := .binding t pg.entry } }
  | applyOpen {k y p pg e plain rest} (hy : s.applies.lookup k = some y) (hst : y.stage = .dropped)
      (htodo : y.todo = (p, pg) :: rest) (he : pg.entry = some e)
      (hplain : s.fleet.fetchAndDecrypt fl y.src pg.page e = some plain) :
      Moves s (.applyOpen k)
        { s with
          fleet := s.fleet.warmed fl (fl.key y.src e.hash)
          applies := s.applies.insert k { y with stage := .opened plain } }
  | applySeal {k t y p pg plain salt rest} (hy : s.applies.lookup k = some y) (hst : y.stage = .opened plain)
      (htodo : y.todo = (p, pg) :: rest) (ht : s.fleet.seals.lookup t = none) :
      Moves s (.applySeal k t salt)
        { s with
          fleet := { s.fleet with seals := s.fleet.seals.insert t ⟨y.dst, p, plain, salt, .captured⟩ }
          applies := s.applies.insert k { y with
            stage := .sealing t (Seal.entry fl ⟨y.dst, p, plain, salt, .captured⟩) } }
  | bindDone {k t y wrote f}
      (hy : s.applies.lookup k = some y) (hst : y.stage = .binding t wrote)
      (hm : FleetState.Moves fl s.fleet (.cloneEnd t) f) :
      Moves s (.applyDone k) { s with fleet := f, applies := s.applies.insert k (y.finish wrote) }
  | sealDone {k t y wrote f} (hy : s.applies.lookup k = some y)
      (hst : y.stage = .sealing t wrote) (hm : FleetState.Moves fl s.fleet (.sealEnd t) f) :
      Moves s (.applyDone k) { s with fleet := f, applies := s.applies.insert k (y.finish (some wrote)) }
  | rowFail {k abort y a f}
      (hy : s.applies.lookup k = some y) (ha : ending y.stage abort = some a) (hm : FleetState.Moves fl s.fleet a f) :
      Moves s (.applyFail k abort) { s with fleet := f, applies := s.applies.insert k { y with stage := .failed } }
  | openFail {k abort y} (hy : s.applies.lookup k = some y) :
      Moves s (.applyFail k abort) (s.setApply k { y with stage := .failed })
  | applyGood {k y} (hy : s.applies.lookup k = some y) (htodo : y.todo = []) :
      Moves s (.applyGood k) (s.setApply k { y with stage := .good })
  | cancel {tok} : Moves s (.cancel tok) (s.dropToken tok)
  | expire {tok} : Moves s (.expire tok) (s.dropToken tok)

variable {fl}

theorem machine_moves {s s' : OdxState V H} {a : OdxAct V H} (h : (machine fl).step s a = some s') : Moves fl s a s' := by
  change s.step fl a = some s' at h
  cases a <;> simp only [step, bind_eq_some_iff, map_eq_some_iff, ite_none_right_eq_some,
    some.injEq] at h
  case disk a =>
    obtain ⟨hfree, d, hd, rfl⟩ := h
    exact .disk (DiskCache.machine_moves hd) hfree
  case gc a =>
    obtain ⟨hown, g, hg, rfl⟩ := h
    exact .gc (GcState.machine_moves hg) hown
  case populateRead k =>
    obtain ⟨y, hy, h⟩ := h
    split at h <;> cases h
    exact .populateRead hy
  case applyDrop k =>
    obtain ⟨y, hy, h⟩ := h
    split at h
    next hst _ =>
      obtain ⟨-, h⟩ := ite_none_right_eq_some.1 h
      cases h
      exact .applyDrop hy hst
    · cases h
  case applyBind k t =>
    obtain ⟨y, hy, h⟩ := h
    split at h
    next hst htodo =>
      obtain ⟨⟨-, hok⟩, h⟩ := ite_none_right_eq_some.1 h
      cases h
      exact .applyBind hy hst htodo (hok.imp_left isNone_iff_eq_none.1)
    · cases h
  case applyOpen k =>
    obtain ⟨y, hy, h⟩ := h
    split at h
    next hst htodo =>
      obtain ⟨e, he, h⟩ := bind_eq_some_iff.1 h
      obtain ⟨-, h⟩ := ite_none_left_eq_some.1 h
      obtain ⟨plain, hplain, h⟩ := bind_eq_some_iff.1 h
      cases h
      exact .applyOpen hy hst htodo he hplain
    · cases h
  case applySeal k t salt =>
    obtain ⟨y, hy, h⟩ := h
    split at h
    next hst htodo =>
      obtain ⟨ht, h⟩ := ite_none_right_eq_some.1 h
      cases h
      exact .applySeal hy hst htodo ht
    · cases h
  case applyDone k =>
    obtain ⟨y, hy, h⟩ := h
    split at h
    next hst =>
      obtain ⟨f, hf, rfl⟩ := map_eq_some_iff.1 h
      exact .bindDone hy hst (FleetState.step_moves hf)
    next hst =>
      obtain ⟨f, hf, rfl⟩ := map_eq_some_iff.1 h
      exact .sealDone hy hst (FleetState.step_moves hf)
    · cases h
  case applyFail k abort =>
    obtain ⟨y, hy, h⟩ := h
    split at h
    next ha =>
      obtain ⟨f, hf, rfl⟩ := map_eq_some_iff.1 h
      exact .rowFail hy ha (FleetState.step_moves hf)
    · split at h <;> cases h
      exact .openFail hy
  case applyGood k =>
    obtain ⟨y, hy, h⟩ := h
    split at h <;> cases h
    next hst htodo =>
      exact .applyGood hy htodo
  -- the others have one outcome
  all_goals
    casesm* ∃ _, _, _ ∧ _
    subst_vars
    constructor <;> assumption

end OdxState
end Thur

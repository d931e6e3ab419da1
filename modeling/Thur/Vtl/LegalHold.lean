import Thur.Changer.Moves
import Thur.Vtl.Drives
/-!
# LegalHold — the stamp of a legal hold on a mounted cartridge

A load mounts the cartridge with no hold set. Behind it the command looks up what is in the drive, reads the sentinel of
that cartridge and stamps the answer on whatever is in the drive by then: three steps, without the drive's mutex. A
write before the stamp finds no hold, and a switch between lookup and stamp puts it on another cartridge (`Quiet`
excludes both).
-/
namespace Thur.Vtl

open Changer Thur.Stream DriveManager
open Iscsi (Tsih)

/-- The lookup is next, the sentinel is being read, or the answer is there. -/
inductive HoldHook
  | awaiting (drive : Nat)
  | reading (drive : Nat) (barcode : Barcode)
  | stamping (drive : Nat) (held : Bool)

namespace HoldHook

def drive : HoldHook → Nat
  | .awaiting d => d
  | .reading d _ => d
  | .stamping d _ => d

def bound : HoldHook → Bool
  | .awaiting _ => false
  | _ => true

def Sound (held : Barcode → Bool) (label : Option Barcode) : HoldHook → Prop
  | .awaiting _ => True
  | .reading _ b => label = some b
  | .stamping _ x => ∃ b, label = some b ∧ x = held b

end HoldHook

inductive Switch
  | load (drive : Nat) (barcode : Barcode) (works : Bool)
  | unload (drive : Nat)
  | stay

def Switch.drive? : Switch → Option Nat
  | .load d _ true => some d
  | .unload d => some d
  | _ => none

def switchOf (s : Site) : SiteAct → Switch
  | .drive t _ =>
    match s.tasks.lookup t with
    | some (.driving c) =>
      match c.mirror with
      | .unload d => .unload d
      | _ => .stay
    | _ => .stay
  | .openDrive t works =>
    match s.tasks.lookup t with
    | some (.opening c) =>
      match c.mirror with
      | .load d b _ => .load d b works
      | _ => .stay
    | _ => .stay
  | .scsiUnload d => .unload d
  | _ => .stay

def hookAfter (s : Site) : SiteAct → Option (Nat × Nat)
  | .drive t works =>
    match s.tasks.lookup t with
    | some (.driving c) =>
      match c.mirror with
      | .load d b _ => if (b ∈ s.claims ∨ !works) ∧ c.admin then some (t, d) else none
      | _ => none
    | _ => none
  | .openDrive t works =>
    match s.tasks.lookup t with
    | some (.opening c) =>
      match c.mirror with
      | .load d _ _ => if works ∨ c.admin then some (t, d) else none
      | _ => none
    | _ => none
  | _ => none

theorem hookAfter_of_load {s : Site} {a : SiteAct} {d : Nat} {b : Barcode} (h : switchOf s a = .load d b true) :
    ∃ t, hookAfter s a = some (t, d) := by
  cases a with
  | openDrive t works =>
    simp only [switchOf] at h
    split at h
    · next c ht =>
      split at h <;> cases h
      next d' b' src hm =>
        exact ⟨t, by simp [hookAfter, ht, hm]⟩
    · cases h
  | drive =>
    simp only [switchOf] at h
    split at h
    · split at h <;> cases h
    · cases h
  | _ => cases h

structure Deck (H : Type) where
  site : Site
  manager : DriveManager H
  hooks : Table HoldHook

inductive DeckAct
  | site (a : SiteAct) (plan dropPlan : List (Option Nat))
  | getLoadedCartridgeInfo (t : Nat)
  | readLegalHoldAtLoad (t : Nat)
  | setLegalHeld (t : Nat)
  /-- an operation that a session's command runs on a drive -/
  | host (tsih : Tsih) (drive : Nat) (o : TapeOp) (plan : List (Option Nat))
  | unlock (drive : Nat)

namespace Deck

variable {H : Type} [DecidableEq H]

def switch (sh : Shelf H) (m : DriveManager H) (plan dropPlan : List (Option Nat)) : Switch → Option (DriveManager H)
  | .load d b works =>
    match m.loadCartridge sh d b plan dropPlan, works with
    | (.ok _, m'), true => some m'
    | (.error _, m'), false => some m'
    | _, _ => none
  | .unload d => some (m.unloadCartridge sh d dropPlan).2
  | .stay => some m

def addHook (hooks : Table HoldHook) : Option (Nat × Nat) → Option (Table HoldHook)
  | none => some hooks
  | some (t, d) => if (hooks.lookup t).isSome then none else some (hooks.insert t (.awaiting d))

def step (ch : Chassis) (sh : Shelf H) (held : Barcode → Bool) (s : Deck H) : DeckAct → Option (Deck H)
  | .site .crash _ _ => none
  | .site a plan dropPlan =>
    match s.site.step ch a, switch sh s.manager plan dropPlan (switchOf s.site a), addHook s.hooks (hookAfter s.site a) with
    | some site, some manager, some hooks => some ⟨site, manager, hooks⟩
    | _, _, _ => none
  | .getLoadedCartridgeInfo t =>
    match s.hooks.lookup t with
    | some (.awaiting d) =>
      match s.manager.label d with
      | some b => some { s with hooks := s.hooks.insert t (.reading d b) }
      | none => some { s with hooks := s.hooks.erase t }
    | _ => none
  | .readLegalHoldAtLoad t =>
    match s.hooks.lookup t with
    | some (.reading d b) => some { s with hooks := s.hooks.insert t (.stamping d (held b)) }
    | _ => none
  | .setLegalHeld t =>
    match s.hooks.lookup t with
    | some (.stamping d x) => some { s with manager := s.manager.setLegalHeld d x, hooks := s.hooks.erase t }
    | _ => none
  | .host tsih d o plan => some { s with manager := (s.manager.withDrive sh d tsih (o.proc sh.crates) plan).2 }
  | .unlock d => some { s with manager := s.manager.unlock d }

def machine (ch : Chassis) (sh : Shelf H) (held : Barcode → Bool) : Machine (Deck H) DeckAct := ⟨step ch sh held⟩

omit [DecidableEq H] in
def started (inv : LibraryInventory) (disk : Disk H) (count : Nat) : Deck H where
  site := Site.started inv
  manager := ⟨fun d => if d < count then some (Drive.new H) else none, disk⟩
  hooks := ∅

/-- No drive is switched between a hook's lookup and its stamp, and no write goes to a drive with a hook to come. -/
def Quiet (s : Deck H) : DeckAct → Prop
  | .site a _ _ => ∀ d ∈ (switchOf s.site a).drive?, s.hooks.All fun _ h => h.drive = d → h.bound = false
  | .host _ d o _ => o.gated = true → s.hooks.All fun _ h => h.drive ≠ d
  | _ => True

instance (s : Deck H) (a : DeckAct) : Decidable (s.Quiet a) := by
  cases a <;> unfold Quiet <;> infer_instance

/-! ## What a step can do -/

variable {ch : Chassis} {sh : Shelf H} {held : Barcode → Bool} {s s' : Deck H} {a : DeckAct}

/-- What was there, or nothing, or a fresh handle with a hook behind it. -/
def Switched (sw : Switch) (m m' : DriveManager H) (hooks : Table HoldHook) : Prop :=
  ∀ d, m'.cartridge d = m.cartridge d ∨ sw.drive? = some d ∧ (m'.cartridge d = none ∨
    ∃ b c t, m'.cartridge d = some (b, c) ∧ c.legalHeld = false ∧ hooks.lookup t = some (.awaiting d))

variable {plan dropPlan : List (Option Nat)} {hooks : Table HoldHook} {m m' : DriveManager H}

theorem switched_load {d : Nat} {b : Barcode} {works : Bool}
    (hm : switch sh m plan dropPlan (.load d b works) = some m')
    (hh : works = true → ∃ t, hooks.lookup t = some (.awaiting d)) : Switched (.load d b works) m m' hooks := by
  simp only [switch] at hm
  split at hm
  · next u m1 hload =>
    cases hm
    intro d'
    obtain ⟨c, hc, hcart⟩ := loadCartridge_ok hload
    obtain ⟨t, ht⟩ := hh rfl
    rw [hcart]
    by_cases hd : d' = d
    · subst hd
      rw [if_pos rfl]
      exact .inr ⟨rfl, .inr ⟨b, c, t, rfl, hc, ht⟩⟩
    · exact .inl (if_neg hd)
  · next e m1 hload =>
    cases hm
    exact fun d' => .inl (loadCartridge_error hload d')
  · cases hm

theorem switched_unload (m : DriveManager H) (d : Nat) (dropPlan : List (Option Nat)) (hooks : Table HoldHook) :
    Switched (.unload d) m (m.unloadCartridge sh d dropPlan).2 hooks := by
  intro d'
  rw [cartridge_unloadCartridge]
  by_cases hd : d' = d
  · subst hd
    exact .inr ⟨rfl, .inl (if_pos rfl)⟩
  · exact .inl (if_neg hd)

theorem addHook_some {hooks hooks' : Table HoldHook} {x : Option (Nat × Nat)} (h : addHook hooks x = some hooks') :
    (∀ t h, hooks.lookup t = some h → hooks'.lookup t = some h) ∧
    (∀ t h, hooks'.lookup t = some h → hooks.lookup t = some h ∨ h.bound = false) ∧
    ∀ t d, x = some (t, d) → hooks'.lookup t = some (.awaiting d) := by
  unfold addHook at h
  split at h
  · cases h
    exact ⟨fun _ _ => id, fun _ _ => .inl, fun _ _ hx => by cases hx⟩
  · next t d =>
    split at h
    · cases h
    next ht =>
    have ht : hooks.lookup t = none := by simpa using ht
    cases h
    refine ⟨fun t' x hx => ?_, fun t' x hx => ?_, fun t' d' hx => ?_⟩
    · have hne : t' ≠ t := by
        rintro rfl
        rw [ht] at hx
        cases hx
      rwa [AList.lookup_insert_ne hne]
    · rcases Table.lookup_insert_some hx with ⟨-, rfl⟩ | ⟨-, hx⟩
      · exact .inr rfl
      · exact .inl hx
    · cases hx
      exact AList.lookup_insert _

inductive Effect (ch : Chassis) (sh : Shelf H) (held : Barcode → Bool) (s : Deck H) : DeckAct → Deck H → Prop
  | changed {a plan dropPlan site manager hooks} (hm : Switched (switchOf s.site a) s.manager manager hooks)
      (hkept : ∀ t h, s.hooks.lookup t = some h → hooks.lookup t = some h)
      (hnew : ∀ t h, hooks.lookup t = some h → s.hooks.lookup t = some h ∨ h.bound = false) :
      Effect ch sh held s (.site a plan dropPlan) ⟨site, manager, hooks⟩
  | found {t d b} (ht : s.hooks.lookup t = some (.awaiting d)) (hb : s.manager.label d = some b) :
      Effect ch sh held s (.getLoadedCartridgeInfo t) { s with hooks := s.hooks.insert t (.reading d b) }
  | empty {t d} (ht : s.hooks.lookup t = some (.awaiting d)) (hb : s.manager.label d = none) :
      Effect ch sh held s (.getLoadedCartridgeInfo t) { s with hooks := s.hooks.erase t }
  | read {t d b} (ht : s.hooks.lookup t = some (.reading d b)) :
      Effect ch sh held s (.readLegalHoldAtLoad t) { s with hooks := s.hooks.insert t (.stamping d (held b)) }
  | stamped {t d x} (ht : s.hooks.lookup t = some (.stamping d x)) :
      Effect ch sh held s (.setLegalHeld t) { s with manager := s.manager.setLegalHeld d x, hooks := s.hooks.erase t }
  | ran {tsih d o plan} : Effect ch sh held s (.host tsih d o plan)
      { s with manager := (s.manager.withDrive sh d tsih (o.proc sh.crates) plan).2 }
  | unlocked {d} : Effect ch sh held s (.unlock d) { s with manager := s.manager.unlock d }

theorem step_site {a : SiteAct} (h : s.step ch sh held (.site a plan dropPlan) = some s') :
    Effect ch sh held s (.site a plan dropPlan) s' := by
  unfold step at h
  split at h <;> try contradiction
  next hcrash heq =>
  cases heq
  split at h
  swap
  · cases h
  next site manager hooks hsite hm hh =>
  cases h
  obtain ⟨hkept, hnew, hadded⟩ := addHook_some hh
  refine .changed ?_ hkept hnew
  cases hsw : switchOf s.site a with
  | stay =>
    rw [hsw] at hm
    cases hm
    exact fun _ => .inl rfl
  | unload d =>
    rw [hsw] at hm
    cases hm
    exact switched_unload _ d dropPlan _
  | load d =>
    rw [hsw] at hm
    refine switched_load hm fun hw => ?_
    subst hw
    obtain ⟨t, ht⟩ := hookAfter_of_load hsw
    exact ⟨t, hadded t d ht⟩

theorem step_effect (h : s.step ch sh held a = some s') : Effect ch sh held s a s' := by
  cases a with
  | site => exact step_site h
  | getLoadedCartridgeInfo t =>
    simp only [step] at h
    split at h
    swap
    · cases h
    next d ht =>
    split at h
    · next hb =>
      cases h
      exact .found ht hb
    · next hb =>
      cases h
      exact .empty ht hb
  | readLegalHoldAtLoad t =>
    simp only [step] at h
    split at h <;> cases h
    next ht =>
      exact .read ht
  | setLegalHeld t =>
    simp only [step] at h
    split at h <;> cases h
    next ht =>
      exact .stamped ht
  | host =>
    cases h
    exact .ran
  | unlock =>
    cases h
    exact .unlocked

/-! ## Stamps that are their cartridge's own -/

/-- Every hook that has looked is about what is in its drive; a mounted cartridge has its sentinel's value, or a hook to
come. -/
structure Stamped (held : Barcode → Bool) (s : Deck H) : Prop where
  hooks : ∀ t h, s.hooks.lookup t = some h → h.Sound held (s.manager.label h.drive)
  flags : ∀ d b c, s.manager.cartridge d = some (b, c) →
    c.legalHeld = held b ∨ c.legalHeld = false ∧ s.hooks.Any fun _ h => h.drive = d

omit [DecidableEq H] in
theorem label_congr {d : Nat} (h : m'.cartridge d = m.cartridge d) : m'.label d = m.label d := by
  rw [label, h, label]

theorem HoldHook.sound_of_not_bound {label : Option Barcode} {h : HoldHook} (hb : h.bound = false) : h.Sound held label := by
  cases h with
  | awaiting => trivial
  | reading | stamping => cases hb

omit [DecidableEq H] in
theorem stamped_changed (hs : s.Stamped held) {b : SiteAct} {site : Site}
    {manager : DriveManager H} (hq : s.Quiet (.site b plan dropPlan))
    (hm : Switched (switchOf s.site b) s.manager manager hooks)
    (hkept : ∀ t h, s.hooks.lookup t = some h → hooks.lookup t = some h)
    (hnew : ∀ t h, hooks.lookup t = some h → s.hooks.lookup t = some h ∨ h.bound = false) :
    Stamped held ⟨site, manager, hooks⟩ := by
  refine ⟨fun t h ht => ?_, fun d b' c hc => ?_⟩
  · rcases hnew t h ht with ht | hb
    swap
    · exact HoldHook.sound_of_not_bound hb
    rcases hm h.drive with hsame | ⟨hsw, -⟩
    · show h.Sound held (manager.label h.drive)
      rw [label_congr hsame]
      exact hs.hooks t h ht
    · exact HoldHook.sound_of_not_bound ((hq h.drive hsw).lookup ht rfl)
  · rcases hm d with hsame | ⟨-, hnone | ⟨b1, c1, t, hc1, hfalse, ht⟩⟩
    · rcases hs.flags d b' c (hsame ▸ hc) with hv | ⟨hv, hany⟩
      · exact .inl hv
      · obtain ⟨t, h, ht, hd⟩ := (Table.any_iff _ _).1 hany
        exact .inr ⟨hv, Table.Any.of_lookup (hkept t h ht) hd⟩
    · cases hnone.symm.trans hc
    · cases hc1.symm.trans hc
      exact .inr ⟨hfalse, Table.Any.of_lookup ht rfl⟩

omit [DecidableEq H] in
theorem stamped_stamped (hs : s.Stamped held) {t d : Nat} {x : Bool} (ht : s.hooks.lookup t = some (.stamping d x)) :
    Stamped held { s with manager := s.manager.setLegalHeld d x, hooks := s.hooks.erase t } := by
  obtain ⟨b0, hlabel, rfl⟩ := hs.hooks t _ ht
  have hcart := cartridge_setLegalHeld s.manager d
  refine ⟨fun t' h ht' => ?_, fun d' b c hc => ?_⟩
  · have hl : (s.manager.setLegalHeld d (held b0)).label h.drive = s.manager.label h.drive := by
      rw [label, hcart, label]
      split
      · next hd => rw [hd, Option.map_map]; rfl
      · rfl
    show h.Sound held ((s.manager.setLegalHeld d (held b0)).label h.drive)
    rw [hl]
    exact hs.hooks t' h (Table.lookup_erase_some ht').2
  · have hc : (s.manager.setLegalHeld d (held b0)).cartridge d' = some (b, c) := hc
    rw [hcart] at hc
    split at hc
    · next hd =>
      -- the cartridge the hook looked up is still there
      obtain ⟨⟨b1, c1⟩, hc1, heq⟩ := Option.map_eq_some_iff.1 hc
      have hb : b1 = b0 := by
        have hl : s.manager.label d = some b1 := by rw [label, hc1]; rfl
        exact Option.some.inj (hl.symm.trans hlabel)
      cases heq
      exact .inl (congrArg held hb.symm)
    · next hd =>
      rcases hs.flags d' b c hc with hv | ⟨hv, hany⟩
      · exact .inl hv
      · exact .inr ⟨hv, hany.drop ht (fun h => hd h.symm)⟩

theorem stamped_ran (hs : s.Stamped held) (tsih : Tsih) (d : Nat) (o : TapeOp) (plan : List (Option Nat)) :
    Stamped held { s with manager := (s.manager.withDrive sh d tsih (o.proc sh.crates) plan).2 } := by
  rcases cartridge_withDrive sh s.manager d tsih (o.proc sh.crates) plan with hsame | ⟨b0, c0, hc0, hcart⟩
  · refine ⟨fun t h ht => ?_, fun d' b c hc => hs.flags d' b c ((hsame d').symm.trans hc)⟩
    show h.Sound held (label _ h.drive)
    rw [label_congr (hsame h.drive)]
    exact hs.hooks t h ht
  · have hhold := (Cartridge.keepsHold_proc sh.crates o).runFaulty sh.crates (sh.root b0) c0 s.manager.disk plan
    refine ⟨fun t h ht => ?_, fun d' b c hc => ?_⟩
    · show h.Sound held (label _ h.drive)
      have hl : (s.manager.withDrive sh d tsih (o.proc sh.crates) plan).2.label h.drive = s.manager.label h.drive := by
        rw [label, hcart, label]
        split
        · next hd => rw [hd, hc0]; rfl
        · rfl
      rw [hl]
      exact hs.hooks t h ht
    · have hc : (s.manager.withDrive sh d tsih (o.proc sh.crates) plan).2.cartridge d' = some (b, c) := hc
      rw [hcart] at hc
      split at hc
      · next hd =>
        cases hc
        have hflag := hs.flags d b0 c0 hc0
        rw [← hhold] at hflag
        rw [hd]
        exact hflag
      · exact hs.flags d' b c hc

theorem stamped_step (hs : s.Stamped held) (hq : s.Quiet a) (he : Effect ch sh held s a s') : s'.Stamped held := by
  cases he with
  | changed hm hkept hnew => exact stamped_changed hs hq hm hkept hnew
  | found ht hb =>
    exact ⟨Table.forall_insert hs.hooks hb, fun d b c hc => (hs.flags d b c hc).imp_right (fun h => ⟨h.1, h.2.replace ht id⟩)⟩
  | @empty t d ht hb =>
    refine ⟨Table.forall_erase hs.hooks _, fun d' b c hc => (hs.flags d' b c hc).imp_right (fun h => ⟨h.1, h.2.drop ht ?_⟩)⟩
    rintro rfl
    have hc : s.manager.cartridge (HoldHook.awaiting d).drive = some (b, c) := hc
    rw [label] at hb
    rw [HoldHook.drive] at hc
    rw [hc] at hb
    cases hb
  | @read t d b ht =>
    exact ⟨Table.forall_insert hs.hooks ⟨b, hs.hooks t _ ht, rfl⟩,
      fun d' b' c hc => (hs.flags d' b' c hc).imp_right (fun h => ⟨h.1, h.2.replace ht id⟩)⟩
  | stamped ht => exact stamped_stamped hs ht
  | ran => exact stamped_ran hs _ _ _ _
  | @unlocked d =>
    have hcart := cartridge_unlock s.manager d
    refine ⟨fun t h ht => ?_, fun d' b c hc => hs.flags d' b c ((hcart d').symm.trans hc)⟩
    show h.Sound held ((s.manager.unlock d).label h.drive)
    rw [label_congr (hcart h.drive)]
    exact hs.hooks t h ht

omit [DecidableEq H] in
theorem stamped_started (held : Barcode → Bool) (inv : LibraryInventory) (disk : Disk H) (count : Nat) :
    (started inv disk count).Stamped held := by
  refine ⟨(fun _ _ h => by cases h), fun d b c hc => ?_⟩
  obtain ⟨v, hv, hvc⟩ := Option.bind_eq_some_iff.1 hc
  have hv : (if d < count then some (Drive.new H) else none) = some v := hv
  split at hv <;> cases hv
  cases hvc

/-- **The stamp belongs to the mounted cartridge**: after a quiet run a cartridge stamped held has a held sentinel, and
one with a held sentinel refuses writes once the hooks are through. -/
theorem hold_follows_cartridge (ch : Chassis) (sh : Shelf H) (held : Barcode → Bool) {inv : LibraryInventory} {disk : Disk H}
    {count : Nat} {acts : List DeckAct} {s : Deck H} (hrun : (machine ch sh held).run (started inv disk count) acts = some s)
    (hok : (machine ch sh held).Meets Quiet (started inv disk count) acts) :
    (∀ d b c, s.manager.cartridge d = some (b, c) → c.legalHeld = true → held b = true) ∧
    ∀ tsih d o plan b c, s.Quiet (.host tsih d o plan) → o.gated = true → s.manager.cartridge d = some (b, c) →
      held b = true →
      ((s.manager.withDrive sh d tsih (o.proc sh.crates) plan).1 = .error (.driveReserved d) ∨
        (s.manager.withDrive sh d tsih (o.proc sh.crates) plan).1 = .error (.cartridge .legalHoldViolation)) ∧
      (s.manager.withDrive sh d tsih (o.proc sh.crates) plan).2.disk = s.manager.disk ∧
      ∀ d', (s.manager.withDrive sh d tsih (o.proc sh.crates) plan).2.cartridge d' = s.manager.cartridge d' := by
  have hinv := (machine ch sh held).run_inv (fun s a s' (hi : s.Stamped held) hq hs => stamped_step hi hq (step_effect hs))
    (stamped_started held inv disk count) hok hrun
  constructor
  · intro d b c hc htrue
    rcases hinv.flags d b c hc with hv | ⟨hv, -⟩
    · exact hv.symm.trans htrue
    · cases hv.symm.trans htrue
  · intro tsih d o plan b c hq hgated hc hheld
    have htrue : c.legalHeld = true := by
      rcases hinv.flags d b c hc with hv | ⟨-, hany⟩
      · exact hv.trans hheld
      · obtain ⟨t, h, ht, hd⟩ := (Table.any_iff _ _).1 hany
        exact absurd hd ((hq hgated).lookup ht)
    exact withDrive_of_refuses sh hc tsih (Cartridge.refuses_gated sh.crates htrue hgated) plan

/-! ## Two cartridges -/

def twoTapes : Shelf Bytes where
  crates := .plain
  root b := if b = "A" then 0 else 1
  options b := ⟨[if b = "A" then 7 else 8], false, 0, .fixed 64, false, none, false⟩
  ltoGeneration _ := 9
  libraryLtoGeneration := 9
  algorithm := .lz4
  level := 3

def twoTapes.disk : Disk Bytes :=
  let create (b : Barcode) (d : Disk Bytes) : Disk Bytes :=
    (runFaulty twoTapes.crates (twoTapes.root b) Cartridge.createFiles (twoTapes.options b).handle d []).2.1
  create "B" (create "A" (Disk.blank Bytes))

def twoTapes.start : Deck Bytes := started Site.shelved twoTapes.disk 2

def mount (t src : Nat) : List DeckAct :=
  [.site (Site.move t src 1) [] [], .site (.write t true) [] [], .site (.drive t true) [] [], .site (.openDrive t true) [] []]

def unmount (t dst : Nat) : List DeckAct :=
  [.site (Site.move t 1 dst) [] [], .site (.write t true) [] [], .site (.drive t true) [] []]

def lookUp (t : Nat) : List DeckAct := [.getLoadedCartridgeInfo t, .readLegalHoldAtLoad t]

theorem hold_follows_cartridge_mount : ∃ s, (machine Site.twoDrives twoTapes (· = "A")).run twoTapes.start
      (mount 1 1001 ++ lookUp 1 ++ [.setLegalHeld 1]) = some s ∧ s.manager.label 0 = some "A" ∧
    (s.manager.withDrive twoTapes 0 1 ((TapeOp.writeData [1]).proc twoTapes.crates) []).1 =
      .error (.cartridge .legalHoldViolation) := by
  obtain ⟨s, hs, ⟨x, hx, hA⟩, hq, hfree⟩ : ∃ s ∈ (machine Site.twoDrives twoTapes (· = "A")).run twoTapes.start
      (mount 1 1001 ++ lookUp 1 ++ [.setLegalHeld 1]), (∃ x ∈ s.manager.cartridge 0, x.1 = "A") ∧
        s.Quiet (.host 1 0 (.writeData [1]) []) ∧
        (s.manager.withDrive twoTapes 0 1 ((TapeOp.writeData [1]).proc twoTapes.crates) []).1 ≠ .error (.driveReserved 0) := by
    decide +kernel
  have h := (hold_follows_cartridge Site.twoDrives twoTapes (· = "A") hs (by decide +kernel)).2 1 0 (.writeData [1]) [] x.1 x.2
    hq rfl hx (by rw [hA]; rfl)
  refine ⟨s, hs, ?_, h.1.resolve_left hfree⟩
  rw [label, hx, Option.map_some, hA]

/-- **Neither half holds in general**: a write between mount and stamp is accepted, and a late hook of `A` stamps
`B`. -/
theorem hold_misses_cartridge :
    (∃ s ∈ (machine Site.twoDrives twoTapes (· = "A")).run twoTapes.start (mount 1 1001),
      s.manager.label 0 = some "A" ∧
        (s.manager.withDrive twoTapes 0 1 ((TapeOp.writeData [1]).proc twoTapes.crates) []).1 = .ok (.lba 0)) ∧
    (∃ s ∈ (machine Site.twoDrives twoTapes (· = "A")).run twoTapes.start
        (mount 1 1001 ++ lookUp 1 ++ unmount 2 1001 ++ mount 3 1003 ++ lookUp 3 ++ [.setLegalHeld 3, .setLegalHeld 1]),
      ∃ x ∈ s.manager.cartridge 0, x.1 = "B" ∧ x.2.legalHeld = true) ∧
    ∃ s ∈ (machine Site.twoDrives twoTapes (· = "B")).run twoTapes.start
        (mount 1 1001 ++ lookUp 1 ++ unmount 2 1001 ++ mount 3 1003 ++ lookUp 3 ++ [.setLegalHeld 3, .setLegalHeld 1]),
      s.hooks.entries = [] ∧ s.manager.label 0 = some "B" ∧
        (s.manager.withDrive twoTapes 0 1 ((TapeOp.writeData [1]).proc twoTapes.crates) []).1 = .ok (.lba 0) := by
  decide +kernel

end Deck

end Thur.Vtl

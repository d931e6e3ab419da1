import Thur.Changer.Orphans
import Thur.Lib.Table
/-!
# Commands — medium moves, admin verbs, reloads and migrations, step by step

A command is a section under the library lock that changes the in-memory inventory and serializes it under a version
(`mutate_deferred`, `persist`), the version-gated write of `inventory.json` (`write_if_newer`), and the drive side
(`load_cartridge`, `unload_cartridge`), each a step. SCSI commands give the lock back before they write; admin commands
hold it to their end. A crash loses all but the file.
-/
namespace Thur.Changer

open Function (update)

/-! ## Requests and their sections under the library lock -/

structure Chassis where
  topology : LibraryTopology
  config : ElementAddressConfig

inductive Refusal
  | partitionFence
  | removalPrevented
  | drivesNotExchanged
  | notAnElement
  | crossPartition
  | driveNotFound
  | driveEmpty
  | noEmptySlot
  | library (err : SmcError)

inductive Mirror
  | load (drive : Nat) (barcode : Barcode) (srcStorage : Nat)
  | unload (drive : Nat)
  | none
deriving DecidableEq

structure Relocation where
  barcode : Barcode
  src : Element
  dst : Element
deriving DecidableEq

structure Section where
  inventory : LibraryInventory
  mirror : Mirror
  moved : List Relocation

inductive Request
  | moveMedium (partition : Option String) (src dst : Nat) (prevented : Nat → Bool)
  | exchangeMedium (partition : Option String) (src dst1 dst2 : Nat)
  | changerMove (src dst : Nat) (crossPartition : Bool)
  | changerLoad (slot drive : Nat) (crossPartition : Bool)
  | changerUnload (drive : Nat) (slot : Option Nat) (crossPartition : Bool)

def Request.admin : Request → Bool
  | .moveMedium .. => false
  | .exchangeMedium .. => false
  | _ => true

namespace Chassis

variable (c : Chassis)

inductive Target
  | element (e : Element)
  | transport
  | unknown

def target (address : Nat) : Target :=
  match c.config.elementTypeFromAddress address with
  | some (some .mediumTransport) => .transport
  | some (some .storage) =>
    match c.config.addressToStorageId address with
    | some (some id) => .element (.storage id)
    | _ => .unknown
  | some (some .importExport) =>
    match c.config.addressToMailId address with
    | some (some id) => .element (.mail id)
    | _ => .unknown
  | some (some .dataTransfer) =>
    match c.config.addressToDriveId address with
    | some (some id) => .element (.drive id)
    | _ => .unknown
  | _ => .unknown

def partitionForStorageSlot (id : Nat) : Option String :=
  (c.topology.partitions.find? (fun p => p.storageSlots.contains id)).map LibraryPartition.name

def partitionForMailSlot (id : Nat) : Option String :=
  (c.topology.partitions.find? (fun p => p.mailSlots.contains id)).map LibraryPartition.name

def partitionForDrive (id : Nat) : Option String :=
  (c.topology.partitions.find? (fun p => p.drives.contains id)).map LibraryPartition.name

def partitionFor : Element → Option String
  | .storage id => c.partitionForStorageSlot id
  | .mail id => c.partitionForMailSlot id
  | .drive id => c.partitionForDrive id

def inPartition (part : String) (address : Nat) : Bool :=
  match c.target address with
  | .element e => decide (c.partitionFor e = some part)
  | .transport => true
  | .unknown => false

def fenced (part : Option String) (addresses : List Nat) : Bool :=
  match part with
  | none => false
  | some part => !addresses.all (c.inPartition part)

section

variable (inv : LibraryInventory)

def moveVerb : Element → Element → Except SmcError LibraryInventory
  | .storage slot, .drive drive => inv.loadToDrive slot drive
  | .drive drive, .storage slot => inv.unloadFromDrive drive slot
  | .storage slot, .mail mail => inv.exportToMail slot mail
  | .mail mail, .storage slot => inv.importFromMail mail slot
  | .storage src, .storage dst => inv.moveCartridge src dst
  | _, _ => .error (.invalidOp "unsupported element type combination for MOVE MEDIUM")

def mirrorOf : Element → Element → Mirror
  | .storage slot, .drive drive =>
    match (inv.getDrive drive).bind DriveInfo.barcode with
    | some b => .load drive b slot
    | none => .none
  | .drive drive, .storage _ => .unload drive
  | _, _ => .none

def relocations (src dst : Element) : List Relocation :=
  match inv.medium src with
  | some b => [⟨b, src, dst⟩]
  | none => []

def moveSection (src dst : Element) : Except Refusal Section :=
  match moveVerb inv src dst with
  | .error err => .error (.library err)
  | .ok inv' => .ok ⟨inv', mirrorOf inv' src dst, relocations inv src dst⟩

def moveMedium (part : Option String) (src dst : Nat) (prevented : Nat → Bool) :
    Except Refusal Section :=
  if c.fenced part [src, dst] then .error .partitionFence
  else
    match c.target src, c.target dst with
    | .unknown, _ => .error (.library (.invalidOp "invalid source address"))
    | .element (.drive d), dst' =>
      if prevented d then .error .removalPrevented
      else
        match dst' with
        | .unknown => .error (.library (.invalidOp "invalid destination address"))
        | .transport => .error (.library (.invalidOp "unsupported element type combination for MOVE MEDIUM"))
        | .element e => moveSection inv (.drive d) e
    | _, .unknown => .error (.library (.invalidOp "invalid destination address"))
    | .transport, _ => .error (.library (.invalidOp "unsupported element type combination for MOVE MEDIUM"))
    | _, .transport => .error (.library (.invalidOp "unsupported element type combination for MOVE MEDIUM"))
    | .element src', .element dst' => moveSection inv src' dst'

def isDrive : Target → Bool
  | .element (.drive _) => true
  | _ => false

def exchangeSlot : Target → Option LibraryInventory.ExchangeSlot
  | .element (.storage id) => some (.storage id)
  | .element (.mail id) => some (.mail id)
  | _ => none

def exchangeMedium (inv : LibraryInventory) (part : Option String) (src dst1 dst2 : Nat) : Except Refusal Section :=
  if [src, dst1, dst2].any (fun a => isDrive (c.target a)) then .error .drivesNotExchanged
  else if c.fenced part [src, dst1, dst2] then .error .partitionFence
  else
    match exchangeSlot (c.target src), exchangeSlot (c.target dst1), exchangeSlot (c.target dst2) with
    | some a, some b, some d =>
      match inv.exchangeMedium a b d with
      | .error err => .error (.library err)
      | .ok inv' => .ok ⟨inv', .none, relocations inv b.element d.element ++ relocations inv a.element b.element⟩
    | _, _, _ => .error .notAnElement

def crossesPartitions (e e' : Element) : Bool :=
  !c.topology.partitions.isEmpty && decide (c.partitionFor e ≠ c.partitionFor e')

def adminSection (src dst : Element) (crossPartition : Bool) : Except Refusal Section :=
  if c.crossesPartitions src dst && !crossPartition then .error .crossPartition else moveSection inv src dst

def firstFree : Except Refusal Nat :=
  match inv.storageSlots.find? (fun s => !s.occupied) with
  | some s => .ok s.id
  | none => .error .noEmptySlot

/-- The slot asked for, else the home slot if it is free, else the first that is. -/
def unloadSlot (drive : DriveInfo) (slot : Option Nat) : Except Refusal Nat :=
  match slot, drive.homeSlot with
  | some slot, _ => .ok slot
  | none, some home =>
    match inv.getStorageSlot home with
    | some ⟨_, _, false⟩ => .ok home
    | _ => firstFree inv
  | none, none => firstFree inv

/-- Up to the persist; the mechanical-eject gate in front refuses without an effect. -/
def changerUnload (drive : Nat) (slot : Option Nat) (crossPartition : Bool) :
    Except Refusal Section :=
  match inv.getDrive drive with
  | none => .error .driveNotFound
  | some v =>
    if !v.occupied || v.barcode.isNone then .error .driveEmpty
    else
      match unloadSlot inv v slot with
      | .error err => .error err
      | .ok dest => c.adminSection inv (.drive drive) (.storage dest) crossPartition

def perform : Request → Except Refusal Section
  | .moveMedium part src dst prevented => c.moveMedium inv part src dst prevented
  | .exchangeMedium part src dst1 dst2 => c.exchangeMedium inv part src dst1 dst2
  | .changerMove src dst cross => c.adminSection inv (.storage src) (.storage dst) cross
  | .changerLoad slot drive cross => c.adminSection inv (.storage slot) (.drive drive) cross
  | .changerUnload drive slot cross => c.changerUnload inv drive slot cross

end

end Chassis

/-! ## What a section does to the placement -/

structure Performs (f g : Placement Element Barcode) (moved : List Relocation) : Prop where
  src : ∀ m ∈ moved, f m.src = some m.barcode
  dst : ∀ m ∈ moved, g m.dst = some m.barcode
  rest : ∀ e b, f e = some b → (∀ m ∈ moved, m.barcode ≠ b) → g e = some b
  nodup : (moved.map Relocation.barcode).Nodup

def Mirror.drive? : Mirror → Option Nat
  | .load d _ _ => some d
  | .unload d => some d
  | .none => Option.none

structure Section.Done (inv : LibraryInventory) (r : Section) : Prop where
  ids : r.inventory.ids = inv.ids
  rearranges : Placement.Rearranges inv.medium r.inventory.medium
  performs : Performs inv.medium r.inventory.medium r.moved
  load : ∀ d b slot, r.mirror = .load d b slot →
    r.moved = [⟨b, .storage slot, .drive d⟩] ∧ inv.medium (.drive d) = none
  drives : ∀ d, r.mirror.drive? ≠ some d → r.inventory.medium (.drive d) = inv.medium (.drive d)

namespace Chassis

open LibraryInventory

variable {inv : LibraryInventory} {src dst : Element} {b : Barcode} {r : Section} {c : Chassis}
  {f : Placement Element Barcode} {inv' : LibraryInventory} {part : Option String}

theorem moveVerb_ok (h : moveVerb inv src dst = .ok inv') :
    (∃ b, inv.medium src = some b) ∧ inv.medium dst = none ∧ src ≠ dst ∧ inv'.medium = inv.medium.move src dst ∧
      inv'.ids = inv.ids := by
  unfold moveVerb at h
  split at h
  · exact relocate_ok h
  · exact relocate_ok h
  · exact relocate_ok h
  · exact relocate_ok h
  · unfold moveCartridge at h
    split at h
    · cases h
    · exact relocate_ok h
  · cases h

theorem moveVerb_drive (h : moveVerb inv src dst = .ok inv') :
    (∃ slot d, src = .storage slot ∧ dst = .drive d) ∨ (∃ d slot, src = .drive d ∧ dst = .storage slot) ∨
      ((∀ d, src ≠ .drive d) ∧ ∀ d, dst ≠ .drive d) := by
  unfold moveVerb at h
  split at h
  · exact .inl ⟨_, _, rfl, rfl⟩
  · exact .inr (.inl ⟨_, _, rfl, rfl⟩)
  · exact .inr (.inr ⟨by simp, by simp⟩)
  · exact .inr (.inr ⟨by simp, by simp⟩)
  · exact .inr (.inr ⟨by simp, by simp⟩)
  · cases h

theorem relocations_eq (h : inv.medium src = some b) : relocations inv src dst = [⟨b, src, dst⟩] := by
  rw [relocations, h]

theorem performs_move (hs : f src = some b) (hd : f dst = none) :
    Performs f (f.move src dst) [⟨b, src, dst⟩] := by
  refine ⟨?_, ?_, ?_, by simp⟩
  · rintro m hm
    rw [List.mem_singleton.1 hm]
    exact hs
  · rintro m hm
    rw [List.mem_singleton.1 hm]
    simpa using hs
  · intro e b' he hne
    exact f.move_stays hs hd he fun h => hne _ List.mem_cons_self h.symm

theorem mirrorOf_load {slot d : Nat} (h : inv.medium (.drive d) = some b) :
    mirrorOf inv (.storage slot) (.drive d) = .load d b slot := by
  obtain ⟨v, hv, hp⟩ := Option.map_eq_some_iff.1 (entry_of_medium h)
  simp only [Prod.mk.injEq] at hp
  simp only [mirrorOf, hv, Option.bind_some, hp.2]

theorem moveSection_done (h : moveSection inv src dst = .ok r) : r.Done inv := by
  unfold moveSection at h
  split at h
  · cases h
  next inv' hv =>
  cases h
  obtain ⟨⟨b, hb⟩, hd, -, hmove, hids⟩ := moveVerb_ok hv
  have hrel : relocations inv src dst = [⟨b, src, dst⟩] := relocations_eq hb
  refine ⟨hids, hmove ▸ inv.medium.rearranges_move hd, by rw [hrel, hmove]; exact performs_move hb hd, ?_, ?_⟩
  · intro d b' slot hm
    rcases moveVerb_drive hv with ⟨slot', d', rfl, rfl⟩ | ⟨d', slot', rfl, rfl⟩ | ⟨h1, h2⟩
    · rw [mirrorOf_load (by rw [hmove]; simpa using hb)] at hm
      cases hm
      exact ⟨hrel, hd⟩
    · simp [mirrorOf] at hm
    · cases src <;> cases dst <;> simp_all [mirrorOf]
  · intro d hm
    show inv'.medium (.drive d) = _
    rw [hmove]
    refine inv.medium.move_of_ne ?_ ?_
    · rintro rfl
      rcases moveVerb_drive hv with ⟨slot', d', h, -⟩ | ⟨d', slot', h, rfl⟩ | ⟨h, -⟩
      · cases h
      · cases h
        exact hm rfl
      · exact h d rfl
    · rintro rfl
      rcases moveVerb_drive hv with ⟨slot', d', rfl, h⟩ | ⟨d', slot', -, h⟩ | ⟨-, h⟩
      · cases h
        rw [mirrorOf_load (by rw [hmove]; simpa using hb)] at hm
        exact hm rfl
      · cases h
      · exact h d rfl

theorem performs_exchange {dst1 dst2 : Element} {b1 : Barcode} (hf : f.Once)
    (hs : f src = some b) (h1 : f dst1 = some b1) (hne : src ≠ dst1) (hne2 : dst1 ≠ dst2)
    (h2 : dst2 ≠ src → f dst2 = none) {g : Placement Element Barcode}
    (hg : g = update (update (update f src none) dst1 (some b)) dst2 (some b1)) :
    Placement.Rearranges f g ∧ Performs f g [⟨b1, dst1, dst2⟩, ⟨b, src, dst1⟩] := by
  have hb : b ≠ b1 := fun h => hne (hf src dst1 b hs (h ▸ h1))
  have hgd1 : g dst1 = some b := by simp [hg, hne2]
  have hgd2 : g dst2 = some b1 := by simp [hg]
  have hrest : ∀ e, e ≠ src → e ≠ dst1 → e ≠ dst2 → g e = f e := by
    intro e h1 h2 h3
    simp [hg, h1, h2, h3]
  refine ⟨?_, ?_, ?_, ?_, by simpa using hb.symm⟩
  · by_cases h : dst2 = src
    · subst h
      refine ⟨Equiv.swap dst2 dst1, ?_⟩
      funext e
      by_cases he2 : e = dst2
      · subst he2
        simp [hgd2, h1]
      · by_cases he1 : e = dst1
        · subst he1
          simp [hgd1, hs]
        · simp [Equiv.swap_apply_of_ne_of_ne he2 he1, hrest e he2 he1 he2]
    · have hm : g = (f.move dst1 dst2).move src dst1 := by
        rw [hg]
        funext e
        simp only [Placement.move, Function.update_apply, hne, Ne.symm h, hs, h1, if_false]
        by_cases he2 : e = dst2
        · subst he2
          simp [h, Ne.symm hne2]
        · by_cases he1 : e = dst1
          · simp [he1, hne2]
          · simp [he2, he1]
      rw [hm]
      refine (f.rearranges_move (h2 h)).trans (Placement.rearranges_move _ ?_)
      exact f.move_src hne2
  · intro m hm
    simp only [List.mem_cons, List.not_mem_nil, or_false] at hm
    rcases hm with rfl | rfl
    · exact h1
    · exact hs
  · intro m hm
    simp only [List.mem_cons, List.not_mem_nil, or_false] at hm
    rcases hm with rfl | rfl
    · exact hgd2
    · exact hgd1
  · intro e b' he hb'
    have he1 : e ≠ dst1 := by
      rintro rfl
      exact hb' ⟨b1, e, dst2⟩ (by simp) (Option.some.inj (h1.symm.trans he))
    have hes : e ≠ src := by
      rintro rfl
      exact hb' ⟨b, e, dst1⟩ (by simp) (Option.some.inj (hs.symm.trans he))
    have he2 : e ≠ dst2 := by
      rintro rfl
      rw [h2 hes] at he
      cases he
    rw [hrest e hes he1 he2, he]

theorem exchangeMedium_done {src dst1 dst2 : Nat} (ho : inv.medium.Once)
    (h : c.exchangeMedium inv part src dst1 dst2 = .ok r) : r.Done inv := by
  unfold exchangeMedium at h
  split at h
  · cases h
  split at h
  · cases h
  split at h
  swap
  · cases h
  next x y z hx hy hz =>
  split at h
  · cases h
  next inv' he =>
  cases h
  obtain ⟨b, b1, hb, hb1, hne, hne2, hfree, hids, hmed⟩ := LibraryInventory.exchangeMedium_ok he
  have hel : ∀ {p q : ExchangeSlot}, p ≠ q → p.element ≠ q.element := fun hn h => hn (element_injective h)
  obtain ⟨hrear, hperf⟩ := performs_exchange ho hb hb1 (hel hne) (hel hne2)
    (fun h => hfree (fun hz => h (hz ▸ rfl))) hmed
  have hdrive : ∀ (p : ExchangeSlot) d, p.element ≠ .drive d := by
    intro p d
    cases p <;> simp [ExchangeSlot.element]
  refine ⟨hids, hrear, ?_, by simp, ?_⟩
  · rw [relocations_eq hb, relocations_eq hb1]
    exact hperf
  · intro d _
    show inv'.medium (.drive d) = _
    rw [hmed]
    simp [(hdrive z d).symm, (hdrive y d).symm, (hdrive x d).symm]

theorem moveMedium_done {src dst : Nat} {prevented : Nat → Bool}
    (h : c.moveMedium inv part src dst prevented = .ok r) : r.Done inv := by
  unfold moveMedium at h
  split at h
  · cases h
  split at h
  · cases h
  · split at h
    · cases h
    split at h
    · cases h
    · cases h
    · exact moveSection_done h
  · cases h
  · cases h
  · cases h
  · exact moveSection_done h

theorem adminSection_done {cross : Bool} (h : c.adminSection inv src dst cross = .ok r) : r.Done inv := by
  unfold adminSection at h
  split at h
  · cases h
  · exact moveSection_done h

theorem changerUnload_done {drive : Nat} {slot : Option Nat} {cross : Bool}
    (h : c.changerUnload inv drive slot cross = .ok r) : r.Done inv := by
  unfold changerUnload at h
  split at h
  · cases h
  split at h
  · cases h
  split at h
  · cases h
  · exact adminSection_done h

/-- **A section that succeeds does what its record says.** -/
theorem perform_done {req : Request} (ho : inv.medium.Once) (h : c.perform inv req = .ok r) : r.Done inv := by
  cases req with
  | moveMedium => exact moveMedium_done h
  | exchangeMedium => exact exchangeMedium_done ho h
  | changerMove | changerLoad => exact adminSection_done h
  | changerUnload => exact changerUnload_done h

end Chassis

/-! ## The daemon -/

structure Cmd where
  admin : Bool
  version : Nat
  content : LibraryInventory
  mirror : Mirror
deriving DecidableEq

inductive Task
  /-- write the snapshot -/
  | writing (c : Cmd)
  /-- unload the drive, or start `load_cartridge` -/
  | driving (c : Cmd)
  /-- `load_cartridge` has seen no migration of the cartridge and opens it -/
  | opening (c : Cmd)
  /-- the load failed: take the inventory move back -/
  | undoing (c : Cmd)
  /-- INITIALIZE ELEMENT STATUS has parsed the file -/
  | parsed (inv : LibraryInventory)
  /-- a migrate job that passed its preflight -/
  | checked (barcode : Barcode)
  /-- it holds the claim -/
  | claimed (barcode : Barcode)
  /-- `run_migrate` is working on the cartridge -/
  | migrating (barcode : Barcode)
deriving DecidableEq

inductive Outcome
  | pending
  | succeeded
  | failed
  /-- the daemon crashed before the answer; the file has the move or not -/
  | cut (durable : Bool)
deriving DecidableEq

structure Record where
  task : Nat
  version : Nat
  moved : List Relocation
  outcome : Outcome
deriving DecidableEq

structure Site where
  inventory : LibraryInventory
  version : Nat
  lastWritten : Nat
  file : LibraryInventory
  lock : Option Nat
  tasks : Table Task
  opened : Nat → Option Barcode
  claims : List Barcode
  trail : List Record

inductive SiteAct
  | begin (t : Nat) (req : Request)
  | write (t : Nat) (works : Bool)
  | drive (t : Nat) (works : Bool)
  | openDrive (t : Nat) (works : Bool)
  | undo (t : Nat) (works : Bool)
  | initParse (t : Nat)
  | initApply (t : Nat)
  /-- SCSI UNLOAD on the drive's own LUN -/
  | scsiUnload (drive : Nat)
  | hostWrite (drive : Nat)
  | preflight (t : Nat) (barcode : Barcode)
  | claim (t : Nat)
  | recheck (t : Nat) (readable : Bool)
  | migrated (t : Nat)
  | crash

def applyReloadedInventory (t : LibraryTopology) (inv : LibraryInventory) : LibraryInventory where
  storageSlots := inv.storageSlots.filter fun s => s.id < t.numStorageSlots
  mailSlots := inv.mailSlots.filter fun m => m.id < t.numMailSlots
  drives := inv.drives.filter fun v => v.id < t.numDrives

def findDriveForLoadedCartridge (inv : LibraryInventory) (barcode : Barcode) : Option Nat :=
  (inv.drives.find? (fun v => v.occupied && decide (v.barcode = some barcode))).map DriveInfo.id

def Record.answer (t : Nat) (o : Outcome) (r : Record) : Record :=
  if r.task = t ∧ r.outcome = .pending then { r with outcome := o } else r

def Record.cutOff (lastWritten : Nat) (r : Record) : Record :=
  { r with
    version := 0
    outcome := if r.outcome = .pending then .cut (decide (r.version ≤ lastWritten)) else r.outcome }

namespace Site

def finish (s : Site) (t : Nat) (o : Outcome) : Site :=
  { s with
    tasks := s.tasks.erase t
    lock := if s.lock = some t then none else s.lock
    trail := s.trail.map (Record.answer t o) }

def setTask (s : Site) (t : Nat) (task : Task) : Site := { s with tasks := s.tasks.insert t task }

def writeIfNewer (s : Site) (version : Nat) (content : LibraryInventory) (works : Bool) : Option Site :=
  if version ≤ s.lastWritten then some s
  else if works then some { s with file := content, lastWritten := version }
  else none

def written (s : Site) (t : Nat) (c : Cmd) : Site :=
  match c.mirror with
  | .none => s.finish t .succeeded
  | _ => s.setTask t (.driving c)

/-- MOVE MEDIUM takes the inventory move back, `changer_load` only logs the failure. -/
def loadFailed (s : Site) (t : Nat) (c : Cmd) : Site :=
  if c.admin then s.finish t .succeeded else s.setTask t (.undoing c)

def begun (s : Site) (t : Nat) (admin : Bool) (r : Section) : Site :=
  { s with
    inventory := r.inventory
    version := s.version + 1
    lock := if admin then some t else none
    tasks := s.tasks.insert t (.writing ⟨admin, s.version + 1, r.inventory, r.mirror⟩)
    trail := s.trail ++ [⟨t, s.version + 1, r.moved, .pending⟩] }

def step (ch : Chassis) (s : Site) : SiteAct → Option Site
  | .begin t req =>
    if s.lock.isSome ∨ (s.tasks.lookup t).isSome then none
    else
      match ch.perform s.inventory req with
      | .error _ => some s
      | .ok r => some (s.begun t req.admin r)
  | .write t works =>
    match s.tasks.lookup t with
    | some (.writing c) =>
      match s.writeIfNewer c.version c.content works with
      | some s' => some (s'.written t c)
      | none => some (s.finish t .failed)
    | _ => none
  | .drive t works =>
    match s.tasks.lookup t with
    | some (.driving c) =>
      match c.mirror with
      | .unload d => some (finish { s with opened := update s.opened d none } t .succeeded)
      | .load _ b _ => some (if b ∈ s.claims ∨ !works then s.loadFailed t c else s.setTask t (.opening c))
      | .none => none
    | _ => none
  | .openDrive t works =>
    match s.tasks.lookup t with
    | some (.opening c) =>
      match c.mirror with
      | .load d b _ =>
        some (if works then finish { s with opened := update s.opened d (some b) } t .succeeded
          else s.loadFailed t c)
      | _ => none
    | _ => none
  | .undo t works =>
    match s.tasks.lookup t with
    | some (.undoing c) =>
      if s.lock.isSome then none
      else
        match c.mirror with
        | .load d _ src =>
          match s.inventory.unloadFromDrive d src with
          | .error _ => some (s.finish t .failed)
          | .ok inv =>
            let s' := { s with inventory := inv, version := s.version + 1 }
            some (((s'.writeIfNewer (s.version + 1) inv works).getD s').finish t .failed)
        | _ => none
    | _ => none
  | .initParse t => if (s.tasks.lookup t).isSome then none else some (s.setTask t (.parsed s.file))
  | .initApply t =>
    match s.tasks.lookup t with
    | some (.parsed inv) =>
      if s.lock.isSome then none
      else some { s with inventory := applyReloadedInventory ch.topology inv, tasks := s.tasks.erase t }
    | _ => none
  | .scsiUnload d => some { s with opened := update s.opened d none }
  | .hostWrite d => if (s.opened d).isSome then some s else none
  | .preflight t b =>
    if (s.tasks.lookup t).isSome then none
    else
      match findDriveForLoadedCartridge s.file b with
      | some _ => some s
      | none => some (s.setTask t (.checked b))
  | .claim t =>
    match s.tasks.lookup t with
    | some (.checked b) =>
      if b ∈ s.claims then some { s with tasks := s.tasks.erase t }
      else some (setTask { s with claims := b :: s.claims } t (.claimed b))
    | _ => none
  | .recheck t readable =>
    match s.tasks.lookup t with
    | some (.claimed b) =>
      if readable && (findDriveForLoadedCartridge s.file b).isSome then
        some { s with tasks := s.tasks.erase t, claims := s.claims.erase b }
      else some (s.setTask t (.migrating b))
    | _ => none
  | .migrated t =>
    match s.tasks.lookup t with
    | some (.migrating b) => some { s with tasks := s.tasks.erase t, claims := s.claims.erase b }
    | _ => none
  | .crash =>
    some {
      inventory := s.file
      version := 0
      lastWritten := 0
      file := s.file
      lock := none
      tasks := ∅
      opened := fun _ => none
      claims := []
      trail := s.trail.map (Record.cutOff s.lastWritten) }

inductive Effect (ch : Chassis) (s : Site) : SiteAct → Site → Prop
  | refused {t req err} (h : ch.perform s.inventory req = .error err) : Effect ch s (.begin t req) s
  | begun {t req r} (hl : s.lock = none) (ht : s.tasks.lookup t = none) (h : ch.perform s.inventory req = .ok r) :
      Effect ch s (.begin t req) (s.begun t req.admin r)
  | skipped {t works c} (ht : s.tasks.lookup t = some (.writing c)) (hv : c.version ≤ s.lastWritten) :
      Effect ch s (.write t works) (s.written t c)
  | wrote {t c} (ht : s.tasks.lookup t = some (.writing c)) (hv : s.lastWritten < c.version) :
      Effect ch s (.write t true) (written { s with file := c.content, lastWritten := c.version } t c)
  | writeFailed {t c} (ht : s.tasks.lookup t = some (.writing c)) (hv : s.lastWritten < c.version) :
      Effect ch s (.write t false) (s.finish t .failed)
  | unloaded {t works c d} (ht : s.tasks.lookup t = some (.driving c)) (hm : c.mirror = .unload d) :
      Effect ch s (.drive t works) (finish { s with opened := update s.opened d none } t .succeeded)
  | loadRefused {t works c d b src} (ht : s.tasks.lookup t = some (.driving c)) (hm : c.mirror = .load d b src) :
      Effect ch s (.drive t works) (s.loadFailed t c)
  | loadAdmitted {t c d b src} (ht : s.tasks.lookup t = some (.driving c)) (hm : c.mirror = .load d b src)
      (hb : b ∉ s.claims) : Effect ch s (.drive t true) (s.setTask t (.opening c))
  | loaded {t c d b src} (ht : s.tasks.lookup t = some (.opening c)) (hm : c.mirror = .load d b src) :
      Effect ch s (.openDrive t true) (finish { s with opened := update s.opened d (some b) } t .succeeded)
  | openFailed {t c d b src} (ht : s.tasks.lookup t = some (.opening c)) (hm : c.mirror = .load d b src) :
      Effect ch s (.openDrive t false) (s.loadFailed t c)
  | undoRefused {t works c d b src err} (ht : s.tasks.lookup t = some (.undoing c)) (hl : s.lock = none)
      (hm : c.mirror = .load d b src) (h : s.inventory.unloadFromDrive d src = .error err) :
      Effect ch s (.undo t works) (s.finish t .failed)
  | undone {t works c d b src inv s'} (ht : s.tasks.lookup t = some (.undoing c)) (hl : s.lock = none)
      (hm : c.mirror = .load d b src) (h : s.inventory.unloadFromDrive d src = .ok inv)
      (hs : s' = { s with inventory := inv, version := s.version + 1 }) :
      Effect ch s (.undo t works) (((s'.writeIfNewer (s.version + 1) inv works).getD s').finish t .failed)
  | initParsed {t} (ht : s.tasks.lookup t = none) : Effect ch s (.initParse t) (s.setTask t (.parsed s.file))
  | initApplied {t inv} (ht : s.tasks.lookup t = some (.parsed inv)) (hl : s.lock = none) :
      Effect ch s (.initApply t)
        { s with inventory := applyReloadedInventory ch.topology inv, tasks := s.tasks.erase t }
  | scsiUnloaded {d} : Effect ch s (.scsiUnload d) { s with opened := update s.opened d none }
  | hostWrote {d} : Effect ch s (.hostWrite d) s
  | preflightRefused {t b} : Effect ch s (.preflight t b) s
  | preflightPassed {t b} (ht : s.tasks.lookup t = none) : Effect ch s (.preflight t b) (s.setTask t (.checked b))
  | claimRefused {t b} (ht : s.tasks.lookup t = some (.checked b)) :
      Effect ch s (.claim t) { s with tasks := s.tasks.erase t }
  | claimed {t b} (ht : s.tasks.lookup t = some (.checked b)) (hb : b ∉ s.claims) :
      Effect ch s (.claim t) (setTask { s with claims := b :: s.claims } t (.claimed b))
  | recheckRefused {t readable b} (ht : s.tasks.lookup t = some (.claimed b)) :
      Effect ch s (.recheck t readable) { s with tasks := s.tasks.erase t, claims := s.claims.erase b }
  | recheckPassed {t readable b} (ht : s.tasks.lookup t = some (.claimed b))
      (hf : readable = true → findDriveForLoadedCartridge s.file b = none) :
      Effect ch s (.recheck t readable) (s.setTask t (.migrating b))
  | migrated {t b} (ht : s.tasks.lookup t = some (.migrating b)) :
      Effect ch s (.migrated t) { s with tasks := s.tasks.erase t, claims := s.claims.erase b }
  | crashed : Effect ch s .crash
      ⟨s.file, 0, 0, s.file, none, ∅, fun _ => none, [], s.trail.map (Record.cutOff s.lastWritten)⟩

variable {ch : Chassis} {s s' : Site} {t : Nat} {works : Bool}

theorem step_write (h : s.step ch (.write t works) = some s') : Effect ch s (.write t works) s' := by
  dsimp only [step] at h
  split at h
  swap
  · cases h
  next c ht =>
  by_cases hv : c.version ≤ s.lastWritten
  · simp only [writeIfNewer, if_pos hv, Option.some.injEq] at h
    exact h ▸ .skipped ht hv
  · cases works with
    | true =>
      simp only [writeIfNewer, if_neg hv, if_true, Option.some.injEq] at h
      exact h ▸ .wrote ht (by omega)
    | false =>
      simp only [writeIfNewer, if_neg hv, Bool.false_eq_true, if_false, Option.some.injEq] at h
      exact h ▸ .writeFailed ht (by omega)

theorem step_drive (h : s.step ch (.drive t works) = some s') : Effect ch s (.drive t works) s' := by
  dsimp only [step] at h
  split at h
  swap
  · cases h
  next c ht =>
  split at h
  · next d hm =>
    rw [Option.some.injEq] at h
    exact h ▸ .unloaded ht hm
  · next d b src hm =>
    rw [Option.some.injEq] at h
    split at h
    · exact h ▸ .loadRefused ht hm
    · next hb =>
      simp only [Bool.not_eq_true', not_or, Bool.not_eq_false] at hb
      rw [hb.2]
      exact h ▸ .loadAdmitted ht hm hb.1
  · cases h

theorem step_openDrive (h : s.step ch (.openDrive t works) = some s') : Effect ch s (.openDrive t works) s' := by
  dsimp only [step] at h
  split at h
  swap
  · cases h
  next c ht =>
  split at h
  swap
  · cases h
  next d b src hm =>
  rw [Option.some.injEq] at h
  cases works with
  | true =>
    rw [if_pos rfl] at h
    exact h ▸ .loaded ht hm
  | false =>
    rw [if_neg (by decide)] at h
    exact h ▸ .openFailed ht hm

theorem step_undo (h : s.step ch (.undo t works) = some s') : Effect ch s (.undo t works) s' := by
  dsimp only [step] at h
  split at h
  swap
  · cases h
  next c ht =>
  split at h
  · cases h
  next hl =>
  have hl : s.lock = none := by simpa using hl
  split at h
  swap
  · cases h
  next d b src hm =>
  split at h
  · next err hu =>
    rw [Option.some.injEq] at h
    exact h ▸ .undoRefused ht hl hm hu
  · next inv hu =>
    rw [Option.some.injEq] at h
    exact h ▸ .undone ht hl hm hu rfl

theorem step_effect {a : SiteAct} (h : s.step ch a = some s') : Effect ch s a s' := by
  cases a with
  | begin t req =>
    dsimp only [step] at h
    split at h
    · cases h
    next hfree =>
    simp only [not_or, Bool.not_eq_true, Option.isSome_eq_false_iff, Option.isNone_iff_eq_none] at hfree
    split at h
    · next err hp =>
      cases h
      exact .refused hp
    · next r hp =>
      cases h
      exact .begun hfree.1 hfree.2 hp
  | write => exact step_write h
  | drive => exact step_drive h
  | openDrive => exact step_openDrive h
  | undo => exact step_undo h
  | initParse t =>
    dsimp only [step] at h
    split at h
    · cases h
    next ht =>
    cases h
    exact .initParsed (by simpa using ht)
  | initApply t =>
    dsimp only [step] at h
    split at h
    swap
    · cases h
    next inv ht =>
    split at h
    · cases h
    next hl =>
    cases h
    exact .initApplied ht (by simpa using hl)
  | scsiUnload =>
    cases h
    exact .scsiUnloaded
  | hostWrite =>
    dsimp only [step] at h
    split at h <;> cases h
    exact .hostWrote
  | preflight t b =>
    dsimp only [step] at h
    split at h
    · cases h
    next ht =>
    split at h
    · cases h
      exact .preflightRefused
    · cases h
      exact .preflightPassed (by simpa using ht)
  | claim t =>
    dsimp only [step] at h
    split at h
    swap
    · cases h
    next b ht =>
    split at h
    · cases h
      exact .claimRefused ht
    · next hb =>
      cases h
      exact .claimed ht hb
  | recheck t readable =>
    dsimp only [step] at h
    split at h
    swap
    · cases h
    next b ht =>
    split at h
    · cases h
      exact .recheckRefused ht
    · next hf =>
      cases h
      refine .recheckPassed ht fun hr => ?_
      simpa [hr] using hf
  | migrated t =>
    dsimp only [step] at h
    split at h
    swap
    · cases h
    next b ht =>
    cases h
    exact .migrated ht
  | crash =>
    cases h
    exact .crashed

def machine (ch : Chassis) : Machine Site SiteAct := ⟨Site.step ch⟩

def started (inv : LibraryInventory) : Site where
  inventory := inv
  version := 0
  lastWritten := 0
  file := inv
  lock := none
  tasks := ∅
  opened := fun _ => none
  claims := []
  trail := []

end Site

end Thur.Changer

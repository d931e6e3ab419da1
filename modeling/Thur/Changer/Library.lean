import Mathlib.Data.List.Basic
import Thur.Lib.Keyed
import Thur.Lib.Placement
/-!
# Library — the media changer's inventory and the verbs that move cartridges

`core/mediachanger/src/library`: storage slots, mail slots and drives, each under its id, and the verbs that the SMC
handlers and the admin socket call. Every verb but `exchange_medium` is `relocate` with its own texts. As a placement of
barcodes over elements (`medium`) a verb that succeeds is a move or a swap.
-/
namespace Thur.Changer

open Function Keyed

abbrev Barcode := String

inductive SmcError
  | io
  | serdeJson
  | invalidOp (text : String)
  | libraryConfig (text : String)

theorem bind_eq_ok {ε α β : Type} {x : Except ε α} {f : α → Except ε β} {b : β} (h : x >>= f = .ok b) :
    ∃ a, x = .ok a ∧ f a = .ok b := by
  cases x with
  | error err => cases h
  | ok a => exact ⟨a, rfl, h⟩

structure SlotInfo where
  id : Nat
  barcode : Option Barcode
  occupied : Bool
deriving DecidableEq

structure MailSlotInfo where
  id : Nat
  barcode : Option Barcode
  occupied : Bool
  accessible : Bool
deriving DecidableEq

structure DriveInfo where
  id : Nat
  barcode : Option Barcode
  occupied : Bool
  homeSlot : Option Nat
  mfgSerial : Option String
deriving DecidableEq

def SlotInfo.fill (barcode : Option Barcode) (s : SlotInfo) : SlotInfo :=
  { s with occupied := barcode.isSome, barcode := barcode }

def MailSlotInfo.fill (barcode : Option Barcode) (m : MailSlotInfo) : MailSlotInfo :=
  { m with occupied := barcode.isSome, barcode := barcode }

def DriveInfo.fill (barcode : Option Barcode) (home : Option Nat) (d : DriveInfo) : DriveInfo :=
  { d with occupied := barcode.isSome, barcode := barcode, homeSlot := home }

structure LibraryInventory where
  storageSlots : List SlotInfo
  mailSlots : List MailSlotInfo
  drives : List DriveInfo
deriving DecidableEq

inductive Element
  | storage (id : Nat)
  | mail (id : Nat)
  | drive (id : Nat)
deriving DecidableEq

namespace LibraryInventory

variable (inv : LibraryInventory) {e : Element} {t : String}

def getStorageSlot (id : Nat) : Option SlotInfo := get SlotInfo.id inv.storageSlots id

def getMailSlot (id : Nat) : Option MailSlotInfo := get MailSlotInfo.id inv.mailSlots id

def getDrive (id : Nat) : Option DriveInfo := get DriveInfo.id inv.drives id

def entry : Element → Option (Bool × Option Barcode)
  | .storage id => (inv.getStorageSlot id).map fun s => (s.occupied, s.barcode)
  | .mail id => (inv.getMailSlot id).map fun m => (m.occupied, m.barcode)
  | .drive id => (inv.getDrive id).map fun d => (d.occupied, d.barcode)

def unknownText : Element → String
  | .storage _ => "invalid cartridge slot id"
  | .mail _ => "invalid mail slot id"
  | .drive _ => "invalid drive id"

def lookup (e : Element) : Except SmcError (Bool × Option Barcode) :=
  match inv.entry e with
  | some r => .ok r
  | none => .error (.invalidOp (unknownText e))

def assign (e : Element) (barcode : Option Barcode) (home : Option Nat) : LibraryInventory :=
  match e with
  | .storage id => { inv with storageSlots := alter SlotInfo.id id (SlotInfo.fill barcode) inv.storageSlots }
  | .mail id => { inv with mailSlots := alter MailSlotInfo.id id (MailSlotInfo.fill barcode) inv.mailSlots }
  | .drive id => { inv with drives := alter DriveInfo.id id (DriveInfo.fill barcode home) inv.drives }

def barcodeAt (e : Element) (emptyText missingText : String) : Except SmcError Barcode :=
  match inv.lookup e with
  | .error err => .error err
  | .ok (false, _) => .error (.invalidOp emptyText)
  | .ok (true, none) => .error (.invalidOp missingText)
  | .ok (true, some b) => .ok b

def requireFree (e : Element) (fullText : String) : Except SmcError Unit :=
  match inv.lookup e with
  | .error err => .error err
  | .ok (true, _) => .error (.invalidOp fullText)
  | .ok (false, _) => .ok ()

/-- Both ends are checked before either is changed. -/
def relocate (src dst : Element) (emptyText missingText fullText : String) (home : Option Nat) :
    Except SmcError LibraryInventory :=
  match inv.barcodeAt src emptyText missingText with
  | .error err => .error err
  | .ok b =>
    match inv.requireFree dst fullText with
    | .error err => .error err
    | .ok () => .ok ((inv.assign src none none).assign dst (some b) home)

def loadToDrive (storageSlotId driveId : Nat) : Except SmcError LibraryInventory :=
  inv.relocate (.storage storageSlotId) (.drive driveId) "storage slot empty" "slot occupied but barcode missing"
    "drive already has cartridge" (some (storageSlotId % 65536))

def unloadFromDrive (driveId storageSlotId : Nat) : Except SmcError LibraryInventory :=
  inv.relocate (.drive driveId) (.storage storageSlotId) "drive has no cartridge" "drive occupied but barcode missing"
    "storage slot occupied" none

def moveCartridge (fromSlotId toSlotId : Nat) : Except SmcError LibraryInventory :=
  if fromSlotId = toSlotId then .error (.invalidOp "source and destination slots must be different")
  else
    inv.relocate (.storage fromSlotId) (.storage toSlotId) "source slot empty" "slot occupied but barcode missing"
      "destination slot occupied" none

def exportToMail (storageSlotId mailSlotId : Nat) : Except SmcError LibraryInventory :=
  inv.relocate (.storage storageSlotId) (.mail mailSlotId) "storage slot empty" "slot occupied but barcode missing"
    "mail slot occupied" none

def importFromMail (mailSlotId storageSlotId : Nat) : Except SmcError LibraryInventory :=
  inv.relocate (.mail mailSlotId) (.storage storageSlotId) "mail slot empty" "mail slot occupied but barcode missing"
    "storage slot occupied" none

inductive ExchangeSlot
  | storage (id : Nat)
  | mail (id : Nat)
deriving DecidableEq

def ExchangeSlot.element : ExchangeSlot → Element
  | .storage id => .storage id
  | .mail id => .mail id

/-- Consulted only for a second destination that is not the source. -/
def exchangeRoom (src dst2 : ExchangeSlot) : Except SmcError Unit :=
  if dst2 = src then .ok () else inv.requireFree dst2.element "exchange second destination occupied"

def exchangeApply (src dst1 dst2 : ExchangeSlot) (srcBarcode dst1Barcode : Barcode) : LibraryInventory :=
  let vacated := if dst2 = src then inv else inv.assign src.element none none
  (vacated.assign dst1.element (some srcBarcode) none).assign dst2.element (some dst1Barcode) none

def exchangeMedium (src dst1 dst2 : ExchangeSlot) : Except SmcError LibraryInventory :=
  if src = dst1 then .error (.invalidOp "exchange source and first destination must differ")
  else if dst1 = dst2 then .error (.invalidOp "exchange first and second destination must differ")
  else
    match inv.barcodeAt src.element "exchange element empty" "exchange element occupied but barcode missing" with
    | .error err => .error err
    | .ok srcBarcode =>
      match inv.barcodeAt dst1.element "exchange element empty" "exchange element occupied but barcode missing" with
      | .error err => .error err
      | .ok dst1Barcode =>
        match inv.exchangeRoom src dst2 with
        | .error err => .error err
        | .ok () => .ok (inv.exchangeApply src dst1 dst2 srcBarcode dst1Barcode)

/-! ## The placement of barcodes -/

def medium : Placement Element Barcode := fun e =>
  match inv.entry e with
  | some (true, b) => b
  | _ => none

def ids : List Nat × List Nat × List Nat :=
  (inv.storageSlots.map SlotInfo.id, inv.mailSlots.map MailSlotInfo.id, inv.drives.map DriveInfo.id)

def Distinct : Prop := inv.ids.1.Nodup ∧ inv.ids.2.1.Nodup ∧ inv.ids.2.2.Nodup
deriving Decidable

variable {inv}

theorem medium_of_entry {b : Option Barcode} (h : inv.entry e = some (true, b)) : inv.medium e = b := by
  rw [medium, h]

theorem medium_of_free {b : Option Barcode} (h : inv.entry e = some (false, b)) : inv.medium e = none := by
  rw [medium, h]

theorem entry_of_medium {b : Barcode} (h : inv.medium e = some b) : inv.entry e = some (true, some b) := by
  simp only [medium] at h
  split at h
  · next x he => rw [he, h]
  · cases h

theorem entry_assign (inv : LibraryInventory) (e e' : Element) (b : Option Barcode) (home : Option Nat) :
    (inv.assign e b home).entry e' = if e' = e then (inv.entry e).map (fun _ => (b.isSome, b)) else inv.entry e' := by
  cases e with
  | storage id =>
    cases e' with
    | storage id' =>
      simp only [assign, entry, getStorageSlot]
      rw [get_alter id id' (SlotInfo.fill b) (fun _ => rfl)]
      by_cases h : id' = id
      · subst h
        simp [comp_def, SlotInfo.fill]
      · simp [h]
    | mail | drive => rfl
  | mail id =>
    cases e' with
    | storage | drive => rfl
    | mail id' =>
      simp only [assign, entry, getMailSlot]
      rw [get_alter id id' (MailSlotInfo.fill b) (fun _ => rfl)]
      by_cases h : id' = id
      · subst h
        simp [comp_def, MailSlotInfo.fill]
      · simp [h]
  | drive id =>
    cases e' with
    | storage | mail => rfl
    | drive id' =>
      simp only [assign, entry, getDrive]
      rw [get_alter id id' (DriveInfo.fill b home) (fun _ => rfl)]
      by_cases h : id' = id
      · subst h
        simp [comp_def, DriveInfo.fill]
      · simp [h]

@[simp] theorem ids_assign (inv : LibraryInventory) (e : Element) (b : Option Barcode) (home : Option Nat) :
    (inv.assign e b home).ids = inv.ids := by
  cases e with
  | storage id => exact Prod.ext (map_key_alter id (SlotInfo.fill b) (fun _ => rfl) inv.storageSlots) rfl
  | mail id =>
    exact Prod.ext rfl (Prod.ext (map_key_alter id (MailSlotInfo.fill b) (fun _ => rfl) inv.mailSlots) rfl)
  | drive id =>
    exact Prod.ext rfl (Prod.ext rfl (map_key_alter id (DriveInfo.fill b home) (fun _ => rfl) inv.drives))

theorem medium_assign (he : (inv.entry e).isSome) (b : Option Barcode) (home : Option Nat) :
    (inv.assign e b home).medium = update inv.medium e b := by
  obtain ⟨r, hr⟩ := Option.isSome_iff_exists.1 he
  funext e'
  by_cases h : e' = e
  · subst h
    rw [update_self, medium, entry_assign, if_pos rfl, hr]
    cases b <;> rfl
  · rw [update_of_ne h, medium, entry_assign, if_neg h]
    rfl

theorem isSome_entry_assign {e' : Element} (h : (inv.entry e').isSome) (b : Option Barcode) (home : Option Nat) :
    ((inv.assign e b home).entry e').isSome := by
  rw [entry_assign]
  split
  · next he => rw [← he, Option.isSome_map]; exact h
  · exact h

theorem barcodeAt_ok {t' : String} {b : Barcode} (h : inv.barcodeAt e t t' = .ok b) :
    inv.entry e = some (true, some b) := by
  simp only [barcodeAt, lookup] at h
  cases he : inv.entry e with
  | none =>
    rw [he] at h
    cases h
  | some r =>
    rw [he] at h
    rcases r with ⟨_ | _, _ | b'⟩ <;> cases h
    rfl

theorem requireFree_ok (h : inv.requireFree e t = .ok ()) : ∃ b, inv.entry e = some (false, b) := by
  simp only [requireFree, lookup] at h
  cases he : inv.entry e with
  | none =>
    rw [he] at h
    cases h
  | some r =>
    rw [he] at h
    rcases r with ⟨_ | _, b⟩ <;> cases h
    exact ⟨b, rfl⟩

/-- **A relocation that succeeds is the move of one cartridge** into a free element. -/
theorem relocate_ok {src dst : Element} {t' t'' : String} {home : Option Nat} {inv' : LibraryInventory}
    (h : inv.relocate src dst t t' t'' home = .ok inv') :
    (∃ b, inv.medium src = some b) ∧ inv.medium dst = none ∧ src ≠ dst ∧ inv'.medium = inv.medium.move src dst ∧
      inv'.ids = inv.ids := by
  simp only [relocate] at h
  cases hb : inv.barcodeAt src t t' with
  | error err =>
    rw [hb] at h
    cases h
  | ok b =>
    rw [hb] at h
    cases hf : inv.requireFree dst t'' with
    | error err =>
      rw [hf] at h
      cases h
    | ok u =>
      rw [hf] at h
      cases h
      have hsrc := barcodeAt_ok hb
      obtain ⟨b', hdst⟩ := requireFree_ok hf
      have hne : src ≠ dst := by
        rintro rfl
        rw [hsrc] at hdst
        cases hdst
      refine ⟨⟨b, medium_of_entry hsrc⟩, medium_of_free hdst, hne, ?_, by simp⟩
      rw [medium_assign (isSome_entry_assign (by rw [hdst]; rfl) _ _), medium_assign (by rw [hsrc]; rfl),
        Placement.move, medium_of_entry hsrc]

theorem element_injective {s s' : ExchangeSlot} (h : s.element = s'.element) : s = s' := by
  cases s <;> cases s' <;> simp_all [ExchangeSlot.element]

/-- **An exchange that succeeds moves two cartridges**; they swap when the second destination is the source. -/
theorem exchangeMedium_ok {src dst1 dst2 : ExchangeSlot} {inv' : LibraryInventory}
    (h : inv.exchangeMedium src dst1 dst2 = .ok inv') :
    ∃ b b1, inv.medium src.element = some b ∧ inv.medium dst1.element = some b1 ∧ src ≠ dst1 ∧ dst1 ≠ dst2 ∧
      (dst2 ≠ src → inv.medium dst2.element = none) ∧ inv'.ids = inv.ids ∧
      inv'.medium = update (update (update inv.medium src.element none) dst1.element (some b))
        dst2.element (some b1) := by
  simp only [exchangeMedium] at h
  split at h
  · cases h
  next hs =>
  split at h
  · cases h
  next hd =>
  cases hb : inv.barcodeAt src.element "exchange element empty" "exchange element occupied but barcode missing" with
  | error err =>
    rw [hb] at h
    cases h
  | ok b =>
    rw [hb] at h
    cases hb1 : inv.barcodeAt dst1.element "exchange element empty" "exchange element occupied but barcode missing" with
    | error err =>
      rw [hb1] at h
      cases h
    | ok b1 =>
      rw [hb1] at h
      cases hr : inv.exchangeRoom src dst2 with
      | error err =>
        rw [hr] at h
        cases h
      | ok u =>
        rw [hr] at h
        cases h
        have hsrc := barcodeAt_ok hb
        have hdst1 := barcodeAt_ok hb1
        refine ⟨b, b1, medium_of_entry hsrc, medium_of_entry hdst1, hs, hd, ?_⟩
        have hsrc' : (inv.entry src.element).isSome := by rw [hsrc]; rfl
        have hdst1' : (inv.entry dst1.element).isSome := by rw [hdst1]; rfl
        by_cases h2 : dst2 = src
        · subst h2
          refine ⟨fun h => absurd rfl h, by simp [exchangeApply], ?_⟩
          have hne : dst2.element ≠ dst1.element := fun h => hs (element_injective h)
          rw [exchangeApply, if_pos rfl, medium_assign (isSome_entry_assign hsrc' _ _), medium_assign hdst1',
            update_comm hne, update_idem]
        · simp only [exchangeRoom, if_neg h2] at hr
          obtain ⟨b', hdst2⟩ := requireFree_ok hr
          have hdst2' : (inv.entry dst2.element).isSome := by rw [hdst2]; rfl
          refine ⟨fun _ => medium_of_free hdst2, by simp [exchangeApply, h2], ?_⟩
          rw [exchangeApply, if_neg h2,
            medium_assign (isSome_entry_assign (isSome_entry_assign hdst2' _ _) _ _),
            medium_assign (isSome_entry_assign hdst1' _ _), medium_assign hsrc']

end LibraryInventory

end Thur.Changer

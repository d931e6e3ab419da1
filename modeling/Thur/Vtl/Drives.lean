import Thur.Changer.Library
import Thur.Iscsi.Session
import Thur.Stream.Hold
/-!
# Drives — the drive manager

Each drive is behind a mutex of its own, so what runs under it is one step. A command that goes through `withDrive`
stamps its session on the drive, and the stamp refuses every other session until it is released. A load opens the
cartridge anew, with no legal hold set.
-/
namespace Thur.Vtl

open Changer (Barcode)
open Iscsi (Tsih)
open Thur.Stream Cartridge Option

inductive DriveError
  | invalidDrive (drive : Nat)
  | driveReserved (drive : Nat)
  | noCartridgeLoaded (drive : Nat)
  | cartridgeNotFound (barcode : Barcode)
  | incompatibleMedium (driveGen cartGen : Nat)
  | encryptOnlyKeyAbsent
  | appendOnlyMustExtendEod
  | cartridge (e : SmcError)
deriving DecidableEq

structure PreventBits where
  dataTransport : Bool
  mechanical : Bool

/-- The cartridge with its label, the session stamp, the mode pages, and what each session prevents. -/
structure Drive (H : Type) where
  cartridge : Option (Barcode × Cartridge H)
  lockedBySession : Option Tsih
  modePages : UInt8 → UInt8 → Option Bytes
  prevent : AList (fun _ : Tsih => PreventBits)

def Drive.new (H : Type) : Drive H := ⟨none, none, fun _ _ => none, ∅⟩

/-- Fixed while the daemon runs: directories and manifests, the drives' generation and compression. -/
structure Shelf (H : Type) where
  crates : TapeCrates H
  root : Barcode → Nat
  options : Barcode → OpenOptions
  ltoGeneration : Barcode → Nat
  libraryLtoGeneration : Nat
  algorithm : CompressionAlgo
  level : Int

structure DriveManager (H : Type) where
  drives : Nat → Option (Drive H)
  disk : Disk H

namespace DriveManager

variable {H : Type} {m : DriveManager H} {d : Nat} {b : Barcode}

def setDrive (m : DriveManager H) (d : Nat) (v : Drive H) : DriveManager H :=
  { m with drives := Function.update m.drives d (some v) }

def cartridge (m : DriveManager H) (d : Nat) : Option (Barcode × Cartridge H) := (m.drives d).bind Drive.cartridge

def label (m : DriveManager H) (d : Nat) : Option Barcode := (m.cartridge d).map Prod.fst

theorem cartridge_setDrive (m : DriveManager H) (d d' : Nat) (v : Drive H) :
    (m.setDrive d v).cartridge d' = if d' = d then v.cartridge else m.cartridge d' := by
  by_cases h : d' = d
  · subst h
    simp [cartridge, setDrive]
  · simp [cartridge, setDrive, h]

def unlock (m : DriveManager H) (d : Nat) : DriveManager H :=
  match m.drives d with
  | none => m
  | some v => m.setDrive d { v with lockedBySession := none }

def setLegalHeld (m : DriveManager H) (d : Nat) (held : Bool) : DriveManager H :=
  match m.drives d with
  | none => m
  | some v => m.setDrive d { v with cartridge := v.cartridge.map (fun x => (x.1, { x.2 with legalHeld := held })) }

variable [DecidableEq H] {plan dropPlan : List (Option Nat)} {m' : DriveManager H}

def dropHandle (sh : Shelf H) (x : Option (Barcode × Cartridge H)) (disk : Disk H) (plan : List (Option Nat)) : Disk H :=
  match x with
  | none => disk
  | some (b, c) => (runFaulty sh.crates (sh.root b) (drop sh.crates) c disk plan).2.1

def withDrive {α : Type} (sh : Shelf H) (m : DriveManager H) (d : Nat) (tsih : Tsih) (f : CartM H α)
    (plan : List (Option Nat)) : Except DriveError α × DriveManager H :=
  match m.drives d with
  | none => (.error (.invalidDrive d), m)
  | some v =>
    if ∃ holder ∈ v.lockedBySession, holder ≠ tsih then (.error (.driveReserved d), m)
    else
      match v.cartridge with
      | none => (.error (.noCartridgeLoaded d), m.setDrive d { v with lockedBySession := some tsih })
      | some (b, c) =>
        let x := runFaulty sh.crates (sh.root b) f c m.disk plan
        (x.1.1.mapError .cartridge,
          setDrive { m with disk := x.2.1 } d { v with lockedBySession := some tsih, cartridge := some (b, x.1.2) })

/-- The drive's compression, and the mount count, whose write may fail. -/
def settle (sh : Shelf H) : CartM H Unit := do
  setCompressionState ⟨false, sh.algorithm, sh.level⟩
  let _ ← Proc.attempt persistRuntime

def tooNew (sh : Shelf H) (b : Barcode) : Prop :=
  sh.libraryLtoGeneration > 0 ∧ sh.ltoGeneration b > 0 ∧ sh.ltoGeneration b > sh.libraryLtoGeneration
deriving Decidable

def loadCartridge (sh : Shelf H) (m : DriveManager H) (d : Nat) (b : Barcode) (plan dropPlan : List (Option Nat)) :
    Except DriveError Unit × DriveManager H :=
  match m.drives d with
  | none => (.error (.invalidDrive d), m)
  | some v =>
    let x := runFaulty sh.crates (sh.root b) (openFiles false) (sh.options b).handle m.disk plan
    match x.1.1 with
    | .error _ => (.error (.cartridgeNotFound b), { m with disk := x.2.1 })
    | .ok _ =>
      if tooNew sh b then
        (.error (.incompatibleMedium sh.libraryLtoGeneration (sh.ltoGeneration b)),
          { m with disk := dropHandle sh (some (b, x.1.2)) x.2.1 dropPlan })
      else
        let y := runFaulty sh.crates (sh.root b) (settle sh) x.1.2 x.2.1 x.2.2
        (.ok (), setDrive { m with disk := dropHandle sh v.cartridge y.2.1 dropPlan } d
          { v with cartridge := some (b, y.1.2) })

def unloadCartridge (sh : Shelf H) (m : DriveManager H) (d : Nat) (plan : List (Option Nat)) :
    Except DriveError Barcode × DriveManager H :=
  match m.drives d with
  | none => (.error (.invalidDrive d), m)
  | some v =>
    match v.cartridge with
    | none => (.error (.noCartridgeLoaded d), m)
    | some (b, c) =>
      (.ok b, setDrive { m with disk := dropHandle sh (some (b, c)) m.disk plan } d { v with cartridge := none })

/-! ## What the operations do to the cartridges -/

omit [DecidableEq H] in
theorem cartridge_unlock (m : DriveManager H) (d d' : Nat) : (m.unlock d).cartridge d' = m.cartridge d' := by
  unfold unlock
  split
  · rfl
  next v hv =>
  rw [cartridge_setDrive]
  split
  · next h => rw [h, cartridge, hv, bind_some]
  · rfl

omit [DecidableEq H] in
theorem cartridge_setLegalHeld (m : DriveManager H) (d d' : Nat) (held : Bool) :
    (m.setLegalHeld d held).cartridge d' =
      if d' = d then (m.cartridge d).map (fun x => (x.1, { x.2 with legalHeld := held })) else m.cartridge d' := by
  unfold setLegalHeld
  split
  · next hv =>
    split
    · next h => rw [h, cartridge, hv, bind_none, map_none]
    · rfl
  next v hv =>
  have hc : m.cartridge d = v.cartridge := by rw [cartridge, hv, bind_some]
  rw [cartridge_setDrive, hc]

theorem cartridge_unloadCartridge (sh : Shelf H) (m : DriveManager H) (d d' : Nat) (plan : List (Option Nat)) :
    (m.unloadCartridge sh d plan).2.cartridge d' = if d' = d then none else m.cartridge d' := by
  unfold unloadCartridge
  split
  · next hv =>
    split
    · next h => rw [h, cartridge, hv, bind_none]
    · rfl
  next v hv =>
  split
  · next hc =>
    split
    · next h => rw [h, cartridge, hv, bind_some, hc]
    · rfl
  · rw [cartridge_setDrive]
    rfl

theorem loadCartridge_ok {sh : Shelf H}
    (h : m.loadCartridge sh d b plan dropPlan = (.ok (), m')) :
    ∃ c, c.legalHeld = false ∧ ∀ d', m'.cartridge d' = if d' = d then some (b, c) else m.cartridge d' := by
  have hopen := Cartridge.KeepsHold.runFaulty (keepsHold_openFiles false) sh.crates (sh.root b)
    (sh.options b).handle m.disk plan
  have hsettle : Cartridge.KeepsHold (settle sh : CartM H Unit) :=
    .bind (Proc.only_modify fun _ => rfl) fun _ => .bind (Proc.Only.attempt keepsHold_persistRuntime) fun _ =>
      Proc.only_pure _
  unfold loadCartridge at h
  split at h
  · cases h
  next v hv =>
  dsimp only at h
  generalize runFaulty sh.crates (sh.root b) (openFiles false) (sh.options b).handle m.disk plan = x at h hopen
  split at h
  · cases h
  split at h
  · cases h
  cases h
  refine ⟨(runFaulty sh.crates (sh.root b) (settle sh) x.1.2 x.2.1 x.2.2).1.2, ?_, fun d' => ?_⟩
  · exact (hsettle.runFaulty sh.crates (sh.root b) _ _ _).trans hopen
  · rw [cartridge_setDrive]
    rfl

theorem loadCartridge_error {sh : Shelf H} {e : DriveError}
    (h : m.loadCartridge sh d b plan dropPlan = (.error e, m')) (d' : Nat) : m'.cartridge d' = m.cartridge d' := by
  unfold loadCartridge at h
  split at h
  · cases h
    rfl
  dsimp only at h
  split at h
  · cases h
    rfl
  split at h <;> cases h
  rfl

/-- **What a command does to the cartridges**: it stays in its drive and keeps its label. -/
theorem cartridge_withDrive {α : Type} (sh : Shelf H) (m : DriveManager H) (d : Nat) (tsih : Tsih) (f : CartM H α)
    (plan : List (Option Nat)) :
    (∀ d', (m.withDrive sh d tsih f plan).2.cartridge d' = m.cartridge d') ∨
    ∃ b c, m.cartridge d = some (b, c) ∧ ∀ d', (m.withDrive sh d tsih f plan).2.cartridge d' =
      if d' = d then some (b, (runFaulty sh.crates (sh.root b) f c m.disk plan).1.2) else m.cartridge d' := by
  unfold withDrive
  split
  · exact .inl fun _ => rfl
  next v hv =>
  have hd : m.cartridge d = v.cartridge := by rw [cartridge, hv, bind_some]
  split
  · exact .inl fun _ => rfl
  split
  · refine .inl (fun d' => ?_)
    rw [cartridge_setDrive]
    split
    · next h => rw [h, hd]
    · rfl
  · next b c hc =>
    refine .inr ⟨b, c, hd.trans hc, fun d' => ?_⟩
    rw [cartridge_setDrive]
    rfl

/-- **A command that the cartridge refuses** leaves cartridges and disk. -/
theorem withDrive_of_refuses {α : Type} (sh : Shelf H) {c : Cartridge H} (hc : m.cartridge d = some (b, c))
    (tsih : Tsih) {f : CartM H α} {e : SmcError} (hf : f.Refuses c e) (plan : List (Option Nat)) :
    ((m.withDrive sh d tsih f plan).1 = .error (.driveReserved d) ∨ (m.withDrive sh d tsih f plan).1 = .error (.cartridge e)) ∧
      (m.withDrive sh d tsih f plan).2.disk = m.disk ∧
        ∀ d', (m.withDrive sh d tsih f plan).2.cartridge d' = m.cartridge d' := by
  obtain ⟨v, hv, hvc⟩ := bind_eq_some_iff.1 hc
  simp only [withDrive, hv]
  split
  · exact ⟨.inl rfl, rfl, fun _ => rfl⟩
  simp only [hvc, runFaulty_of_refuses hf]
  refine ⟨.inr rfl, rfl, fun d' => ?_⟩
  rw [cartridge_setDrive]
  split
  · next h => rw [h, hc]
  · rfl

end DriveManager

end Thur.Vtl

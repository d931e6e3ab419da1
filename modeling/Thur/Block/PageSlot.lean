import Mathlib.Data.Set.Insert
import Thur.Block.CacheMachine
/-!
# PageSlot — one page of the write-back cache, as a protocol of its own

A page is its cache entry, what its index record resolves to, the write-backs and the cold loads of it in flight, and
whether an UNMAP or a clone is between dropping its entry and writing its record. `SlotStep` says what a step may do to
those, `slotOk` when it is safe, and `Coherent` is what safe steps keep.
-/
namespace Thur

open Option

structure PageSlot (H : Type) where
  entry : Option PageView
  record : Option (PageEntry H)
  content : Option Bytes
  wbs : Set WriteBack
  loads : Set (Option (PageEntry H) × Bytes)
  busy : Prop

inductive SlotAct (H : Type)
  | quiet
  | write (bytes : Bytes) (version : UInt64)
  | fetch (bytes : Bytes)
  | insert (x : Option (PageEntry H) × Bytes)
  | evict
  | capture (w : WriteBack)
  | sealPage (w : WriteBack) (e : PageEntry H)
  | settle (w : WriteBack)
  | drop
  | rebind (rec : Option (PageEntry H)) (bytes : Bytes)

namespace PageSlot

variable {H : Type} {sl sl' : PageSlot H} {v : PageView}

/-- Nothing was added: same record, same content, no new operation. -/
structure Under (sl sl' : PageSlot H) : Prop where
  record : sl'.record = sl.record
  content : ∀ b, sl.content = some b → sl'.content = some b
  wbs : sl'.wbs ⊆ sl.wbs
  loads : sl'.loads ⊆ sl.loads
  busy : sl'.busy ↔ sl.busy

def SlotStep (sl : PageSlot H) : SlotAct H → PageSlot H → Prop
  | .quiet, sl' => sl'.entry = sl.entry ∧ sl.Under sl'
  | .write bytes version, sl' => sl'.entry = some ⟨bytes, .dirty, version⟩ ∧ sl.Under sl'
  | .fetch bytes, sl' => sl.content = some bytes ∧ sl'.entry = sl.entry ∧
      Under { sl with loads := insert (sl.record, bytes) sl.loads } sl'
  | .insert x, sl' => x ∈ sl.loads ∧ sl.entry = none ∧ sl'.entry = some ⟨x.2, .clean, 0⟩ ∧ sl.Under sl'
  | .evict, sl' => (∃ v, sl.entry = some v ∧ v.state = .clean) ∧ sl'.entry = none ∧ sl.Under sl'
  | .capture w, sl' => sl.entry = some ⟨w.bytes, .dirty, w.version⟩ ∧ w.isSealed = false ∧ sl'.entry = sl.entry ∧
      sl'.record = sl.record ∧ sl'.content = sl.content ∧ sl'.wbs ⊆ insert w sl.wbs ∧ sl'.loads = sl.loads ∧
      (sl'.busy ↔ sl.busy)
  | .sealPage w e, sl' => w ∈ sl.wbs ∧ w.isSealed = false ∧ sl'.entry = sl.entry ∧ sl'.record = some e ∧
      sl'.content = some w.bytes ∧ sl'.wbs ⊆ insert { w with isSealed := true } sl.wbs ∧ sl'.loads = sl.loads ∧
      (sl'.busy ↔ sl.busy)
  | .settle w, sl' => w ∈ sl.wbs ∧ w.isSealed = true ∧ sl.Under sl' ∧ (sl'.entry = sl.entry ∨
      ∃ v, sl.entry = some v ∧ v.version = w.version ∧
        (sl'.entry = some { v with state := .clean } ∨ sl'.entry = none))
  | .drop, sl' => sl'.entry = none ∧ Under { sl with busy := True } sl'
  | .rebind rec bytes, sl' => sl.busy ∧ sl'.entry = sl.entry ∧ sl'.record = rec ∧ sl'.content = some bytes ∧
      sl'.wbs = sl.wbs ∧ sl'.loads = sl.loads

/-- When a step is safe: `cacheOk` says it of the cache. -/
def slotOk (sl : PageSlot H) : SlotAct H → Prop
  | .write _ version => ∀ w ∈ sl.wbs, w.version ≠ version
  | .insert x => ¬ sl.busy ∧ sl.content = some x.2
  | .capture w => ∀ w' ∈ sl.wbs, w'.isSealed = false → w'.bytes = w.bytes
  | .rebind _ _ => sl.entry = none ∧ sl.wbs = ∅
  | _ => True

/-- **The invariant of a page**: a Clean entry or an absent one is the content, and so is every write-back to be sealed;
one with the version of a Dirty entry has its bytes. -/
structure Coherent (sl : PageSlot H) : Prop where
  clean : ∀ v, sl.entry = some v → v.state = .clean → sl.content = some v.bytes
  cleanWb : ∀ v, sl.entry = some v → v.state = .clean → ∀ w ∈ sl.wbs, w.isSealed = false → w.bytes = v.bytes
  absentWb : sl.entry = none → ¬ sl.busy → ∀ w ∈ sl.wbs, w.isSealed = false → sl.content = some w.bytes
  currentWb : ∀ v, sl.entry = some v → v.state = .dirty → ∀ w ∈ sl.wbs, w.version = v.version →
    ∀ w' ∈ sl.wbs, w'.isSealed = false → w'.bytes = v.bytes
  current : ∀ v, sl.entry = some v → v.state = .dirty → ∀ w ∈ sl.wbs, w.version = v.version → w.isSealed = true →
    sl.content = some v.bytes

theorem Coherent.under (h : Coherent sl) (hu : sl.Under sl') (he : sl'.entry = sl.entry) : Coherent sl' where
  clean v hv hc := hu.content _ (h.clean v (he ▸ hv) hc)
  cleanWb v hv hc w hw := h.cleanWb v (he ▸ hv) hc w (hu.wbs hw)
  absentWb hv hb w hw hs := hu.content _ (h.absentWb (he ▸ hv) (fun hb' => hb (hu.busy.2 hb')) w (hu.wbs hw) hs)
  currentWb v hv hd w hw hver w' hw' := h.currentWb v (he ▸ hv) hd w (hu.wbs hw) hver w' (hu.wbs hw')
  current v hv hd w hw hver hs := hu.content _ (h.current v (he ▸ hv) hd w (hu.wbs hw) hver hs)

theorem Coherent.of_absent (he : sl.entry = none)
    (h : ¬ sl.busy → ∀ w ∈ sl.wbs, w.isSealed = false → sl.content = some w.bytes) : Coherent sl := by
  have hno : ∀ v, sl.entry ≠ some v := by
    intro v hv
    rw [he] at hv
    cases hv
  exact ⟨fun v hv => absurd hv (hno v), fun v hv => absurd hv (hno v), fun _ => h, fun v hv => absurd hv (hno v),
    fun v hv => absurd hv (hno v)⟩

theorem Coherent.of_clean (he : sl.entry = some v) (hc : v.state = .clean) (h1 : sl.content = some v.bytes)
    (h2 : ∀ w ∈ sl.wbs, w.isSealed = false → w.bytes = v.bytes) : Coherent sl := by
  have hv : ∀ v', sl.entry = some v' → v' = v := by
    intro v' hv'
    rw [he, some.injEq] at hv'
    exact hv'.symm
  have hnd : ∀ v', sl.entry = some v' → v'.state ≠ .dirty := by
    intro v' hv'
    rw [hv v' hv', hc]
    decide
  refine ⟨fun v' hv' _ => hv v' hv' ▸ h1, fun v' hv' _ => hv v' hv' ▸ h2, ?_, fun v' hv' hd => absurd hd (hnd v' hv'),
    fun v' hv' hd => absurd hd (hnd v' hv')⟩
  intro hn
  rw [he] at hn
  cases hn

theorem Coherent.of_dirty (he : sl.entry = some v) (hd : v.state = .dirty) (h : ∀ w ∈ sl.wbs, w.version = v.version →
      (∀ w' ∈ sl.wbs, w'.isSealed = false → w'.bytes = v.bytes) ∧ (w.isSealed = true → sl.content = some v.bytes)) :
    Coherent sl := by
  have hv : ∀ v', sl.entry = some v' → v' = v := by
    intro v' hv'
    rw [he, some.injEq] at hv'
    exact hv'.symm
  have hnc : ∀ v', sl.entry = some v' → v'.state ≠ .clean := by
    intro v' hv'
    rw [hv v' hv', hd]
    decide
  refine ⟨fun v' hv' hc => absurd hc (hnc v' hv'), fun v' hv' hc => absurd hc (hnc v' hv'), ?_,
    fun v' hv' _ w hw hver => ?_, fun v' hv' _ w hw hver => ?_⟩
  · intro hn
    rw [he] at hn
    cases hn
  · cases hv v' hv'
    exact (h w hw hver).1
  · cases hv v' hv'
    exact (h w hw hver).2

theorem Coherent.content_of_version (h : Coherent sl) {w : WriteBack} (hw : w ∈ sl.wbs) (hs : w.isSealed = true)
    (hv : sl.entry = some v) (hver : v.version = w.version) :
    sl.content = some v.bytes ∧ ∀ w' ∈ sl.wbs, w'.isSealed = false → w'.bytes = v.bytes := by
  cases hst : v.state with
  | clean => exact ⟨h.clean v hv hst, h.cleanWb v hv hst⟩
  | dirty => exact ⟨h.current v hv hst w hw hver.symm hs, h.currentWb v hv hst w hw hver.symm⟩

theorem Coherent.step {a : SlotAct H} (h : Coherent sl) (hs : SlotStep sl a sl') (hok : slotOk sl a) :
    Coherent sl' := by
  cases a with
  | quiet => exact h.under hs.2 hs.1
  | write bytes version =>
    obtain ⟨he, hu⟩ := hs
    -- no write-back in flight holds the new version
    exact .of_dirty he rfl fun w hw hver => absurd hver (hok w (hu.wbs hw))
  | fetch bytes =>
    obtain ⟨-, he, hu⟩ := hs
    have h' : Coherent { sl with loads := insert (sl.record, bytes) sl.loads } :=
      ⟨h.clean, h.cleanWb, h.absentWb, h.currentWb, h.current⟩
    exact h'.under hu he
  | insert =>
    obtain ⟨-, hnone, he, hu⟩ := hs
    obtain ⟨hbusy, hx⟩ := hok
    refine .of_clean he rfl (hu.content _ hx) fun w hw hsl => ?_
    have := h.absentWb hnone hbusy w (hu.wbs hw) hsl
    rw [hx, some.injEq] at this
    exact this.symm
  | evict =>
    obtain ⟨⟨v, hv, hc⟩, he, hu⟩ := hs
    refine .of_absent he fun _ w hw hsl => ?_
    rw [h.cleanWb v hv hc w (hu.wbs hw) hsl]
    exact hu.content _ (h.clean v hv hc)
  | capture =>
    obtain ⟨hv, hns, he, -, hc, hw, -, -⟩ := hs
    refine .of_dirty (he.trans hv) rfl fun w1 hw1 hver => ⟨?_, ?_⟩
    · intro w' hw' hsl
      rcases hw hw' with rfl | hw'
      · rfl
      · exact hok w' hw' hsl
    · intro hsl
      rcases hw hw1 with rfl | hw1
      · rw [hns] at hsl
        cases hsl
      · rw [hc]
        exact h.current _ hv rfl w1 hw1 hver hsl
  | sealPage w =>
    obtain ⟨hmem, hns, he, -, hc, hw, -, hb⟩ := hs
    -- an unsealed write-back after the step was one before it, and every version in flight was in flight
    have hold : ∀ w' ∈ sl'.wbs, w'.isSealed = false → w' ∈ sl.wbs := by
      intro w' hw' hsl
      rcases hw hw' with rfl | hw'
      · cases hsl
      · exact hw'
    have hver' : ∀ w' ∈ sl'.wbs, ∃ w0 ∈ sl.wbs, w0.version = w'.version := by
      intro w' hw'
      rcases hw hw' with rfl | hw'
      · exact ⟨w, hmem, rfl⟩
      · exact ⟨w', hw', rfl⟩
    cases hv : sl.entry with
    | none =>
      rw [hv] at he
      refine .of_absent he fun hb' w' hw' hsl => ?_
      have hb'' : ¬ sl.busy := fun hb'' => hb' (hb.2 hb'')
      rw [hc, ← h.absentWb hv hb'' w hmem hns, h.absentWb hv hb'' w' (hold w' hw' hsl) hsl]
    | some v =>
      rw [hv] at he
      cases hst : v.state with
      | clean =>
        refine .of_clean he hst ?_ fun w' hw' hsl => h.cleanWb v hv hst w' (hold w' hw' hsl) hsl
        rw [hc, h.cleanWb v hv hst w hmem hns]
      | dirty =>
        refine .of_dirty he hst fun w1 hw1 hver => ?_
        obtain ⟨w0, hw0, hv0⟩ := hver' w1 hw1
        have hall := h.currentWb v hv hst w0 hw0 (hv0.trans hver)
        refine ⟨fun w' hw' hsl => hall w' (hold w' hw' hsl) hsl, fun _ => ?_⟩
        rw [hc, hall w hmem hns]
  | settle =>
    obtain ⟨hmem, hsl, hu, he | ⟨v, hv, hver, he⟩⟩ := hs
    · exact h.under hu he
    · obtain ⟨hcont, hwb⟩ := h.content_of_version hmem hsl hv hver
      rcases he with he | he
      · exact .of_clean he rfl (hu.content _ hcont) fun w' hw' hns => hwb w' (hu.wbs hw') hns
      · refine .of_absent he (fun _ w' hw' hns => ?_)
        rw [hwb w' (hu.wbs hw') hns]
        exact hu.content _ hcont
  | drop =>
    obtain ⟨he, hu⟩ := hs
    exact .of_absent he fun hb => absurd (hu.busy.2 trivial) hb
  | rebind =>
    obtain ⟨-, he, -, -, hw, -⟩ := hs
    obtain ⟨hnone, hempty⟩ := hok
    refine .of_absent (he.trans hnone) fun _ w hw' => ?_
    rw [hw, hempty] at hw'
    exact absurd hw' (Set.notMem_empty w)

/-! ## What the host was told -/

def shown : SlotAct H → Bytes → Bytes
  | .write bytes _, _ => bytes
  | .rebind _ bytes, _ => bytes
  | _, b => b

def isHost : SlotAct H → Prop
  | .write _ _ => True
  | .drop => True
  | _ => False

/-- Cached or not, unless an UNMAP or a clone of it is half done. -/
structure Shows (sl : PageSlot H) (b : Bytes) : Prop where
  cached : ∀ v, sl.entry = some v → v.bytes = b
  uncached : sl.entry = none → ¬ sl.busy → sl.content = some b

theorem Shows.step {a : SlotAct H} {b : Bytes} (h : Shows sl b) (hc : Coherent sl) (hs : SlotStep sl a sl')
    (hok : slotOk sl a) : Shows sl' (shown a b) := by
  have under : sl.Under sl' → sl'.entry = sl.entry → Shows sl' b := by
    intro hu he
    refine ⟨fun v hv => h.cached v (he ▸ hv), fun hv hb => hu.content _ (h.uncached (he ▸ hv) (fun hb' => hb (hu.busy.2 hb')))⟩
  have absent : sl'.entry = none → sl'.content = some b → Shows sl' b := by
    intro he hb
    refine ⟨fun v hv => ?_, fun _ _ => hb⟩
    rw [he] at hv
    cases hv
  cases a with
  | quiet => exact under hs.2 hs.1
  | write =>
    refine ⟨fun v hv => ?_, fun hv => ?_⟩
    · rw [hs.1, some.injEq] at hv
      rw [← hv]
      rfl
    · rw [hs.1] at hv
      cases hv
  | fetch =>
    obtain ⟨-, he, hu⟩ := hs
    exact ⟨fun v hv => h.cached v (he ▸ hv),
      fun hv hb => hu.content _ (h.uncached (he ▸ hv) (fun hb' => hb (hu.busy.2 hb')))⟩
  | insert =>
    obtain ⟨-, hnone, he, -⟩ := hs
    have hx := h.uncached hnone hok.1
    rw [hok.2, some.injEq] at hx
    refine ⟨fun v hv => ?_, fun hv => ?_⟩
    · rw [he, some.injEq] at hv
      rw [← hv]
      exact hx
    · rw [he] at hv
      cases hv
  | evict =>
    obtain ⟨⟨v, hv, hcl⟩, he, hu⟩ := hs
    refine absent he (hu.content _ ?_)
    rw [hc.clean v hv hcl, h.cached v hv]
  | capture =>
    obtain ⟨hv, -, he, -⟩ := hs
    refine ⟨fun v hv' => h.cached v (he ▸ hv'), fun hv' => ?_⟩
    rw [he, hv] at hv'
    cases hv'
  | sealPage w =>
    obtain ⟨hmem, hns, he, -, hcont, -, -, hb⟩ := hs
    refine ⟨fun v hv => h.cached v (he ▸ hv), fun hv hb' => ?_⟩
    have hb'' : ¬ sl.busy := fun hb'' => hb' (hb.2 hb'')
    rw [hcont, ← hc.absentWb (he ▸ hv) hb'' w hmem hns]
    exact h.uncached (he ▸ hv) hb''
  | settle =>
    obtain ⟨hmem, hsl, hu, he | ⟨v, hv, hver, he⟩⟩ := hs
    · exact under hu he
    · rcases he with he | he
      · refine ⟨fun v' hv' => ?_, fun hv' => ?_⟩
        · rw [he, some.injEq] at hv'
          rw [← hv']
          exact h.cached v hv
        · rw [he] at hv'
          cases hv'
      · refine absent he (hu.content _ ?_)
        rw [(hc.content_of_version hmem hsl hv hver).1, h.cached v hv]
  | drop =>
    obtain ⟨he, hu⟩ := hs
    refine ⟨fun v hv => ?_, fun _ hb => absurd (hu.busy.2 trivial) hb⟩
    rw [he] at hv
    cases hv
  | rebind =>
    obtain ⟨-, he, -, hcont, -, -⟩ := hs
    refine ⟨fun v hv => ?_, fun _ _ => hcont⟩
    rw [he, hok.1] at hv
    cases hv

end PageSlot
end Thur

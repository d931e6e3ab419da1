import Mathlib.Data.Finset.Card
import Mathlib.Data.List.AList
import Thur.Block.Index
/-!
# CacheInner — the page map under the cache lock, with its intrusive LRU list and dirty set

Each function here is the body of one lock-held section, or a helper of one. The LRU links live in the entries and
decide only which page an eviction picks; the rest of the development needs what a section does to the `view` of each
page (bytes, state, version) and to the dirty set.
-/
namespace Thur

open AList

inductive PageState
  | clean
  | dirty
deriving DecidableEq

structure CacheEntry where
  bytes : Bytes
  state : PageState
  version : UInt64
  newer : Option PageId
  older : Option PageId

structure CacheInner where
  pages : AList (fun _ : PageId => CacheEntry)
  lruHead : Option PageId
  lruTail : Option PageId
  dirty : Finset PageId

structure PageView where
  bytes : Bytes
  state : PageState
  version : UInt64

def CacheEntry.view (e : CacheEntry) : PageView := ⟨e.bytes, e.state, e.version⟩

namespace CacheInner

def new : CacheInner := ⟨∅, none, none, ∅⟩

section

variable (c : CacheInner) (p : PageId)

def modify (f : CacheEntry → CacheEntry) : CacheInner :=
  match c.pages.lookup p with
  | some e => { c with pages := c.pages.insert p (f e) }
  | none => c

def setNewer (o : Option PageId) : CacheInner := c.modify p fun e => { e with newer := o }

def setOlder (o : Option PageId) : CacheInner := c.modify p fun e => { e with older := o }

def setHead (c : CacheInner) (o : Option PageId) : CacheInner := { c with lruHead := o }

def setTail (c : CacheInner) (o : Option PageId) : CacheInner := { c with lruTail := o }

def lruUnlink : CacheInner :=
  match c.pages.lookup p with
  | none => c
  | some e =>
    -- a detached entry: no links and not the head
    if e.newer = none ∧ e.older = none ∧ c.lruHead ≠ some p then c
    else
      let c := match e.newer with
        | some n => c.setOlder n e.older
        | none => c.setHead e.older
      let c := match e.older with
        | some o => c.setNewer o e.newer
        | none => c.setTail e.newer
      (c.setNewer p none).setOlder p none

def lruPushFront : CacheInner :=
  match c.pages.lookup p with
  | none => c
  | some _ =>
    let oldHead := c.lruHead
    let c := (c.setNewer p none).setOlder p oldHead
    let c := match oldHead with
      | some h => c.setNewer h (some p)
      | none => c.setTail (some p)
    c.setHead (some p)

def lruTouch : CacheInner :=
  if c.lruHead = some p then c else (c.lruUnlink p).lruPushFront p

def dropEntry : CacheInner :=
  match c.pages.lookup p with
  | some _ =>
    let c := c.lruUnlink p
    { c with pages := c.pages.erase p, dirty := c.dirty.erase p }
  | none => c

end

/-- `fuel` bounds the walk by the number of cached pages. -/
def lruWalk (c : CacheInner) (cleanOnly : Bool) : Nat → Option PageId → Option PageId
  | 0, _ => none
  | _ + 1, none => none
  | fuel + 1, some p =>
    match c.pages.lookup p with
    | none => none
    | some e => if cleanOnly = false ∨ e.state = .clean then some p else lruWalk c cleanOnly fuel e.newer

def lruPick (c : CacheInner) (cleanOnly : Bool) : Option PageId :=
  c.lruWalk cleanOnly c.pages.entries.length c.lruTail

/-! ## The view of a page -/

def view (c : CacheInner) (p : PageId) : Option PageView := (c.pages.lookup p).map CacheEntry.view

variable {c : CacheInner} {p : PageId}

theorem view_none : c.view p = none ↔ c.pages.lookup p = none := by
  simp [view]

theorem view_some {e : CacheEntry} (h : c.pages.lookup p = some e) : c.view p = some e.view := by
  rw [view, h]
  rfl

section

variable (c : CacheInner) (p : PageId)

@[simp] theorem dirty_modify (f : CacheEntry → CacheEntry) :
    (c.modify p f).dirty = c.dirty := by
  unfold modify
  split <;> rfl

theorem view_modify (c : CacheInner) (p q : PageId) (f : CacheEntry → CacheEntry) :
    (c.modify p f).view q = if q = p then ((c.pages.lookup p).map f).map CacheEntry.view else c.view q := by
  cases h : c.pages.lookup p with
  | none =>
    simp only [modify, h]
    split
    · next hq => rw [hq, view_none.2 h]; rfl
    · rfl
  | some e =>
    simp only [modify, h, view]
    split
    · next hq => rw [hq, lookup_insert]; rfl
    · next hq => rw [lookup_insert_ne hq]

theorem view_modify_links {f : CacheEntry → CacheEntry} (hf : ∀ e, (f e).view = e.view) :
    (c.modify p f).view = c.view := by
  funext q
  rw [view_modify]
  split
  · next hq =>
    rw [hq, Option.map_map, view]
    congr 1
    funext e
    exact hf e
  · rfl

@[simp] theorem view_setNewer (o : Option PageId) : (c.setNewer p o).view = c.view :=
  view_modify_links c p fun _ => rfl

@[simp] theorem view_setOlder (o : Option PageId) : (c.setOlder p o).view = c.view :=
  view_modify_links c p fun _ => rfl

@[simp] theorem view_setHead (c : CacheInner) (o : Option PageId) : (c.setHead o).view = c.view := rfl

@[simp] theorem view_setTail (c : CacheInner) (o : Option PageId) : (c.setTail o).view = c.view := rfl

@[simp] theorem dirty_setNewer (o : Option PageId) : (c.setNewer p o).dirty = c.dirty :=
  dirty_modify c p _

@[simp] theorem dirty_setOlder (o : Option PageId) : (c.setOlder p o).dirty = c.dirty :=
  dirty_modify c p _

@[simp] theorem dirty_setHead (c : CacheInner) (o : Option PageId) : (c.setHead o).dirty = c.dirty := rfl

@[simp] theorem dirty_setTail (c : CacheInner) (o : Option PageId) : (c.setTail o).dirty = c.dirty := rfl

@[simp] theorem view_lruUnlink : (c.lruUnlink p).view = c.view := by
  unfold lruUnlink
  cases c.pages.lookup p with
  | none => rfl
  | some e =>
    simp only
    split
    · rfl
    · cases e.older <;> cases e.newer <;> simp

@[simp] theorem dirty_lruUnlink : (c.lruUnlink p).dirty = c.dirty := by
  unfold lruUnlink
  cases c.pages.lookup p with
  | none => rfl
  | some e =>
    simp only
    split
    · rfl
    · cases e.older <;> cases e.newer <;> simp

@[simp] theorem view_lruPushFront : (c.lruPushFront p).view = c.view := by
  unfold lruPushFront
  cases c.pages.lookup p with
  | none => rfl
  | some e => cases c.lruHead <;> simp

@[simp] theorem dirty_lruPushFront : (c.lruPushFront p).dirty = c.dirty := by
  unfold lruPushFront
  cases c.pages.lookup p with
  | none => rfl
  | some e => cases c.lruHead <;> simp

@[simp] theorem view_lruTouch : (c.lruTouch p).view = c.view := by
  unfold lruTouch
  split
  · rfl
  · rw [view_lruPushFront, view_lruUnlink]

@[simp] theorem dirty_lruTouch : (c.lruTouch p).dirty = c.dirty := by
  unfold lruTouch
  split
  · rfl
  · rw [dirty_lruPushFront, dirty_lruUnlink]

theorem view_dropEntry (c : CacheInner) (p q : PageId) : (c.dropEntry p).view q = if q = p then none else c.view q := by
  cases h : c.pages.lookup p with
  | none =>
    simp only [dropEntry, h]
    split
    · next hq => rw [hq, view_none.2 h]
    · rfl
  | some e =>
    simp only [dropEntry, h, view]
    split
    · next hq => rw [hq, lookup_erase]; rfl
    · next hq =>
      rw [lookup_erase_ne hq]
      exact congrFun (view_lruUnlink c p) q

/-! ## The lock-held sections -/

def entryOr : CacheEntry := (c.pages.lookup p).getD ⟨[], .clean, 0, none, none⟩

/-- The counter restarts at one when the page is not cached. -/
def nextVersion : UInt64 := (c.entryOr p).version + 1

def dirtyEntry (bytes : Bytes) : CacheInner :=
  let e := { c.entryOr p with bytes := bytes, state := .dirty, version := c.nextVersion p }
  lruTouch { c with pages := c.pages.insert p e, dirty := insert p c.dirty } p

def installFullPage (bytes : Bytes) : CacheInner := c.dirtyEntry p bytes

def splice (bytes : Bytes) (offset : Nat) (data : Bytes) : Bytes :=
  bytes.take offset ++ data ++ bytes.drop (offset + data.length)

def modifyPage (offset : Nat) (data : Bytes) : CacheInner :=
  c.dirtyEntry p (splice (c.entryOr p).bytes offset data)

def insertClean (bytes : Bytes) : CacheInner :=
  lruTouch { c with pages := c.pages.insert p ⟨bytes, .clean, 0, none, none⟩ } p

def markClean : CacheInner :=
  let c := c.modify p fun e => { e with state := .clean }
  { c with dirty := c.dirty.erase p }

end

inductive EvictStep
  | done
  | cleaned (c : CacheInner)
  | dirty (p : PageId) (bytes : Bytes) (version : UInt64)
  | drift (c : CacheInner)

section

variable (c : CacheInner)

def evictStep (budgetPages wanted : Nat) : EvictStep :=
  if c.pages.entries.length + wanted ≤ budgetPages then .done
  else
    match c.lruPick true with
    | some p => .cleaned (c.dropEntry p)
    | none =>
      match c.lruPick false with
      | some p =>
        match c.pages.lookup p with
        | some e => .dirty p e.bytes e.version
        | none =>
          let c := c.lruUnlink p
          .drift { c with dirty := c.dirty.erase p }
      | none => .done

theorem view_dirtyEntry (p q : PageId) (bytes : Bytes) :
    (c.dirtyEntry p bytes).view q = if q = p then some ⟨bytes, .dirty, c.nextVersion p⟩ else c.view q := by
  simp only [dirtyEntry, view_lruTouch]
  simp only [view]
  split
  · next hq => rw [hq, lookup_insert]; rfl
  · next hq => rw [lookup_insert_ne hq]

theorem dirty_dirtyEntry (p : PageId) (bytes : Bytes) :
    (c.dirtyEntry p bytes).dirty = insert p c.dirty := by
  simp [dirtyEntry]

theorem view_insertClean (p q : PageId) (bytes : Bytes) :
    (c.insertClean p bytes).view q = if q = p then some ⟨bytes, .clean, 0⟩ else c.view q := by
  simp only [insertClean, view_lruTouch]
  simp only [view]
  split
  · next hq => rw [hq, lookup_insert]; rfl
  · next hq => rw [lookup_insert_ne hq]

theorem dirty_insertClean (p : PageId) (bytes : Bytes) : (c.insertClean p bytes).dirty = c.dirty := by
  simp [insertClean]

theorem view_markClean (p q : PageId) :
    (c.markClean p).view q = if q = p then (c.view p).map (fun v => { v with state := .clean }) else c.view q := by
  have h : (c.markClean p).view q = (c.modify p (fun e => { e with state := .clean })).view q := rfl
  rw [h, view_modify, show c.view p = (c.pages.lookup p).map CacheEntry.view from rfl, Option.map_map, Option.map_map]
  rfl

theorem dirty_markClean (p : PageId) : (c.markClean p).dirty = c.dirty.erase p := by
  simp [markClean]

theorem dirty_dropEntry (p : PageId) :
    (c.dropEntry p).dirty = if c.view p = none then c.dirty else c.dirty.erase p := by
  cases h : c.pages.lookup p with
  | none => rw [if_pos (view_none.2 h)]; simp only [dropEntry, h]
  | some e =>
    rw [if_neg (by rw [view_some h]; exact Option.some_ne_none _)]
    simp [dropEntry, h]

end

/-! ## What an eviction picks -/

theorem lruWalk_some {cleanOnly : Bool} : ∀ {fuel : Nat} {cur : Option PageId},
    c.lruWalk cleanOnly fuel cur = some p → ∃ e, c.pages.lookup p = some e ∧ (cleanOnly = false ∨ e.state = .clean)
  | 0, _, h => by cases h
  | _ + 1, none, h => by cases h
  | fuel + 1, some q, h => by
    rw [lruWalk] at h
    cases hq : c.pages.lookup q with
    | none => rw [hq] at h; cases h
    | some e =>
      rw [hq] at h
      simp only at h
      split at h
      · next hc =>
        cases h
        exact ⟨e, hq, hc⟩
      · exact lruWalk_some h

theorem lruPick_clean (h : c.lruPick true = some p) : ∃ v, c.view p = some v ∧ v.state = .clean := by
  obtain ⟨e, he, hc⟩ := lruWalk_some h
  exact ⟨e.view, view_some he, hc.resolve_left (by decide)⟩

theorem lruPick_dirty (hn : c.lruPick true = none) (h : c.lruPick false = some p) :
    ∃ e, c.pages.lookup p = some e ∧ e.state = .dirty := by
  unfold lruPick at hn h
  generalize c.pages.entries.length = fuel at hn h
  cases fuel with
  | zero => cases h
  | succ fuel =>
    cases hcur : c.lruTail with
    | none => rw [hcur] at h; cases h
    | some q =>
      rw [hcur, lruWalk] at hn h
      cases hq : c.pages.lookup q with
      | none => rw [hq] at h; cases h
      | some e =>
        rw [hq] at hn h
        simp only [true_or, if_true, Option.some.injEq] at h
        subst h
        refine ⟨e, hq, ?_⟩
        cases hs : e.state with
        | dirty => rfl
        | clean => simp [hs] at hn

theorem evictStep_cases (c : CacheInner) (budgetPages wanted : Nat) :
    c.evictStep budgetPages wanted = .done ∨
    (∃ p v, c.view p = some v ∧ v.state = .clean ∧ c.evictStep budgetPages wanted = .cleaned (c.dropEntry p)) ∨
    (∃ p v, c.view p = some v ∧ v.state = .dirty ∧ c.evictStep budgetPages wanted = .dirty p v.bytes v.version) := by
  unfold evictStep
  split
  · exact .inl rfl
  cases hc : c.lruPick true with
  | some p =>
    obtain ⟨v, hv, hs⟩ := lruPick_clean hc
    exact .inr (.inl ⟨p, v, hv, hs, rfl⟩)
  | none =>
    cases hd : c.lruPick false with
    | none => exact .inl rfl
    | some p =>
      obtain ⟨e, he, hs⟩ := lruPick_dirty hc hd
      exact .inr (.inr ⟨p, e.view, view_some he, hs, by simp only [he]; rfl⟩)

/-! ## How many pages are cached -/

def cached (c : CacheInner) : Finset PageId := c.pages.keys.toFinset

theorem mem_cached : p ∈ c.cached ↔ c.view p ≠ none := by
  rw [cached, List.mem_toFinset, ← mem_keys, ← lookup_isSome, Ne, view_none, Option.isSome_iff_ne_none]

theorem card_cached (c : CacheInner) : c.cached.card = c.pages.entries.length := by
  rw [cached, List.toFinset_card_of_nodup c.pages.keys_nodup]
  exact List.length_map _

theorem length_dropEntry (h : c.view p ≠ none) : (c.dropEntry p).pages.entries.length + 1 = c.pages.entries.length := by
  have he : (c.dropEntry p).cached = c.cached.erase p := by
    ext q
    rw [Finset.mem_erase, mem_cached, mem_cached, view_dropEntry]
    by_cases hq : q = p <;> simp [hq]
  rw [← card_cached, ← card_cached, he, Finset.card_erase_add_one (mem_cached.2 h)]

/-! ## The dirty set is exact -/

def DirtyExact (c : CacheInner) : Prop := ∀ p, p ∈ c.dirty ↔ ∃ v, c.view p = some v ∧ v.state = .dirty

theorem DirtyExact.notMem (h : DirtyExact c) (hp : ∀ v, c.view p = some v → v.state ≠ .dirty) : p ∉ c.dirty := by
  intro hm
  obtain ⟨v, hv, hst⟩ := (h p).1 hm
  exact hp v hv hst

theorem DirtyExact.new : DirtyExact new := by
  intro p
  simp [CacheInner.new, view]

section

variable (h : DirtyExact c)
include h

theorem DirtyExact.lruTouch (p : PageId) : DirtyExact (c.lruTouch p) := by
  intro q
  rw [dirty_lruTouch, view_lruTouch]
  exact h q

theorem DirtyExact.dirtyEntry (p : PageId) (bytes : Bytes) : DirtyExact (c.dirtyEntry p bytes) := by
  intro q
  rw [dirty_dirtyEntry, view_dirtyEntry, Finset.mem_insert]
  by_cases hq : q = p
  · simp [hq]
  · simp only [hq, false_or, if_false]
    exact h q

theorem DirtyExact.insertClean (bytes : Bytes) (hp : c.view p = none) :
    DirtyExact (c.insertClean p bytes) := by
  intro q
  rw [dirty_insertClean, view_insertClean]
  by_cases hq : q = p
  · subst hq
    have hnot := (h q).not.2 (by rw [hp]; simp)
    simp [hnot]
  · simp only [hq, if_false]
    exact h q

theorem DirtyExact.markClean (p : PageId) : DirtyExact (c.markClean p) := by
  intro q
  rw [dirty_markClean, view_markClean, Finset.mem_erase]
  by_cases hq : q = p
  · simp [hq]
  · simp only [hq, if_false, ne_eq, not_false_eq_true, true_and]
    exact h q

theorem DirtyExact.dirty_dropEntry (p : PageId) : (c.dropEntry p).dirty = c.dirty.erase p := by
  rw [CacheInner.dirty_dropEntry]
  split
  · next hp =>
    have hnot := (h p).not.2 (by rw [hp]; simp)
    rw [Finset.erase_eq_of_notMem hnot]
  · rfl

theorem DirtyExact.dropEntry (p : PageId) : DirtyExact (c.dropEntry p) := by
  intro q
  rw [h.dirty_dropEntry, view_dropEntry, Finset.mem_erase]
  by_cases hq : q = p
  · simp [hq]
  · simp only [hq, if_false, ne_eq, not_false_eq_true, true_and]
    exact h q

end

end CacheInner
end Thur

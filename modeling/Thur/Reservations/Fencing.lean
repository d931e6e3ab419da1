import Thur.Reservations.Persistence
/-!
# Fencing — what PREEMPT takes away, and how far the reservation can be trusted

A reservation names its holder by identity and carries a copy of the holder's key. REGISTER changes the key of a
registrant and leaves the copy; PREEMPT then looks for the victim by its new key in the registrations and by the old one
in the reservation. The theorems say which steps let the two drift and which PREEMPTs leave their victim in possession.
-/
namespace Thur
namespace LunState

/-! ## The reservation and the registrations -/

/-- A holder is registered under the reservation's key; an all-registrants reservation has a registrant. -/
def Consistent (st : LunState) : Prop :=
  ∀ r ∈ st.reservation, if r.type.isAllRegistrants then st.registrations.isEmpty = false
    else st.registrationKey r.holder = some r.key
deriving Decidable

/-- The holder's registration keeps the reservation's key, and an all-registrants reservation keeps a registrant. -/
def keysOk (st : LunState) (id : RegistrantId) : ReservationOp → Prop
  | .register _ sark _ _ => ∀ r ∈ st.reservation,
      if sark = 0 then r.type.isAllRegistrants = true → r.holder ≠ id → (st.registrations.erase id).isEmpty = false
      else r.type.isAllRegistrants = false → r.holder = id → sark = r.key
  | _ => True

instance (st : LunState) (id : RegistrantId) (op : ReservationOp) : Decidable (st.keysOk id op) := by
  apply ReservationOp.casesOn (motive := fun op => Decidable (st.keysOk id op)) op <;> intros <;> unfold keysOk <;>
    infer_instance

/-- The key check of REGISTER. -/
def keyMatches (st : LunState) (id : RegistrantId) : ReservationOp → Prop
  | .register rk _ ignore _ => ignore = true ∨ (st.registrationKey id).getD 0 = rk
  | _ => True

instance (st : LunState) (id : RegistrantId) (op : ReservationOp) : Decidable (st.keyMatches id op) := by
  apply ReservationOp.casesOn (motive := fun op => Decidable (st.keyMatches id op)) op <;> intros <;> unfold keyMatches <;>
    infer_instance

/-- The unit is eligible for the file, or is after a REGISTER of `id` with key zero. -/
def rewrites (st : LunState) (id : RegistrantId) (aptpl : Option Bool) : Bool :=
  let regs := st.registrations.erase id
  st.persistEligible || persistEligible ⟨regs, st.reservationAfterUnregister id regs, st.generation + 1, aptpl.getD st.aptpl⟩

variable {st st' : LunState} {id b : RegistrantId} {rk : UInt64} {op : ReservationOp} {r : ReservationState}
  {aptpl : Option Bool}

theorem register_good {sark : UInt64} {ignore : Bool} : (st.apply id (.register rk sark ignore aptpl)).1 = .good ↔
    st.keyMatches id (.register rk sark ignore aptpl) := by
  simp only [apply, proutRegister, keyMatches]
  split
  · next h => simp [h.1, h.2]
  · next h =>
    have hkey : ignore = true ∨ (st.registrationKey id).getD 0 = rk := by
      rw [not_and_or, Bool.not_eq_false, not_not] at h
      exact h
    split <;> exact iff_of_true rfl hkey

theorem keyMatches_of_good (h : (st.apply id op).1 = .good) : st.keyMatches id op := by
  cases op with
  | register => exact register_good.1 h
  | _ => trivial

theorem isEmpty_of_registered {k : UInt64} (h : st.registrationKey id = some k) : st.registrations.isEmpty = false := by
  by_contra he
  rw [Bool.not_eq_false, SortedMap.isEmpty_iff] at he
  rw [registrationKey, he id] at h
  cases h

theorem consistent_own (id : RegistrantId) (k : UInt64) (type : ReservationType) (hreg : st.registrationKey id = some k)
    (hres : st.reservation = some ⟨id, k, type⟩) : st.Consistent := by
  intro r hr
  rw [hres, Option.mem_some_iff] at hr
  subst hr
  split
  · exact isEmpty_of_registered hreg
  · exact hreg

theorem consistent_none (h : st.reservation = none) : st.Consistent := by
  intro r hr
  rw [h] at hr
  cases hr

theorem registrationKey_erase (st st' : LunState) (id b : RegistrantId)
    (h : st'.registrations = st.registrations.erase id) :
    st'.registrationKey b = if b = id then none else st.registrationKey b := by
  unfold registrationKey
  rw [h, SortedMap.get_erase]

theorem consistent_unregister {ignore : Bool} (hc : st.Consistent) {gen : UInt32} {p : Bool} :
    (⟨st.registrations.erase id, st.reservationAfterUnregister id (st.registrations.erase id), gen, p⟩ :
      LunState).Consistent ↔ st.keysOk id (.register rk 0 ignore aptpl) := by
  cases hres : st.reservation with
  | none =>
    have hafter : st.reservationAfterUnregister id (st.registrations.erase id) = none := by
      unfold reservationAfterUnregister
      rw [hres]
    refine iff_of_true (consistent_none hafter) ?_
    intro r hr
    rw [hres] at hr
    cases hr
  | some r =>
    have hok : st.keysOk id (.register rk 0 ignore aptpl) ↔
        (r.type.isAllRegistrants = true → r.holder ≠ id → (st.registrations.erase id).isEmpty = false) := by
      simp [keysOk, hres]
    have hcr := hc r hres
    rw [hok]
    by_cases hh : r.holder = id
    · -- the holder leaves: the reservation goes, or passes to a registrant
      refine iff_of_true ?_ fun _ hne => absurd hh hne
      cases har : r.type.isAllRegistrants with
      | false => exact consistent_none (by simp [reservationAfterUnregister, hres, hh, har])
      | true =>
        cases hf : (st.registrations.erase id).first? with
        | none => exact consistent_none (by simp [reservationAfterUnregister, hres, hh, har, hf])
        | some e =>
          refine consistent_own e.1 e.2 r.type (SortedMap.get_of_first? hf) ?_
          simp [reservationAfterUnregister, hres, hh, har, hf]
    · have hafter : st.reservationAfterUnregister id (st.registrations.erase id) = some r := by
        simp [reservationAfterUnregister, hres, hh]
      cases har : r.type.isAllRegistrants with
      | false =>
        refine iff_of_true ?_ (by simp)
        intro r' hr'
        rw [hafter, Option.mem_some_iff] at hr'
        subst hr'
        rw [har, if_neg Bool.false_ne_true] at hcr
        rw [har, if_neg Bool.false_ne_true, registrationKey_erase st _ id r.holder rfl, if_neg hh]
        exact hcr
      | true =>
        constructor
        · intro h _ _
          have := h r hafter
          rw [har, if_pos rfl] at this
          exact this
        · intro h r' hr'
          rw [hafter, Option.mem_some_iff] at hr'
          subst hr'
          rw [har, if_pos rfl]
          exact h rfl hh

theorem consistent_register {sark : UInt64} {ignore : Bool} (hkey : sark ≠ 0) (hc : st.Consistent)
    {gen : UInt32} {p : Bool} : (⟨st.registrations.insert id sark, st.reservation, gen, p⟩ : LunState).Consistent ↔
      st.keysOk id (.register rk sark ignore aptpl) := by
  have hget : ∀ b, (⟨st.registrations.insert id sark, st.reservation, gen, p⟩ : LunState).registrationKey b =
      if b = id then some sark else st.registrationKey b := fun b => SortedMap.get_insert st.registrations id b sark
  refine forall₂_congr fun r hr => ?_
  have hcr := hc r hr
  rw [if_neg hkey, hget]
  cases har : r.type.isAllRegistrants with
  | true =>
    rw [if_pos rfl]
    refine iff_of_true ?_ (by simp)
    exact isEmpty_of_registered ((hget id).trans (if_pos rfl))
  | false =>
    rw [har, if_neg Bool.false_ne_true] at hcr
    rw [if_neg Bool.false_ne_true]
    by_cases hh : r.holder = id
    · simp [hh]
    · simp [hh, hcr]

theorem registrationKey_filter (st : LunState) (p : RegistrantId → UInt64 → Bool) (res : Option ReservationState)
    (gen : UInt32) (a : Bool) (b : RegistrantId) :
    (⟨st.registrations.filter p, res, gen, a⟩ : LunState).registrationKey b = (st.registrationKey b).filter (p b) :=
  SortedMap.get_filter st.registrations p b

theorem Change.consistent_iff (h : Change st id op st') (hc : st.Consistent) : st'.Consistent ↔ st.keysOk id op := by
  cases h with
  | register rk sark ignore aptpl hkey => exact consistent_register hkey hc
  | unregister => exact consistent_unregister hc
  | reserve rk typeByte type hreg => exact iff_of_true (consistent_own id rk type hreg rfl) trivial
  | reserved | released => exact iff_of_true hc trivial
  | release | clear => exact iff_of_true (consistent_none rfl) trivial
  | takeover rk typeByte type hreg =>
    refine iff_of_true (consistent_own id rk type ?_ rfl) trivial
    rw [registrationKey_filter, hreg]
    simp [Option.filter]
  | preempt rk sark typeByte type hkey hreg =>
    refine iff_of_true ?_ trivial
    have hself : (⟨st.registrations.filter (fun a k => !isPreempted id sark a k),
        st.preemptedReservation id rk sark type, st.generation + 1, st.aptpl⟩ : LunState).registrationKey id =
        some rk := by
      rw [registrationKey_filter, hreg]
      simp [Option.filter, isPreempted]
    by_cases hp : st.reservedUnder sark ∨ st.reservation = none
    · exact consistent_own id rk type hself (if_pos hp)
    intro r hr
    have hr : r ∈ st.reservation := by
      rw [← show st.preemptedReservation id rk sark type = st.reservation from if_neg hp]
      exact hr
    have hcr := hc r hr
    split
    · exact isEmpty_of_registered hself
    next har =>
    -- the holder's key is that of the reservation, which is not the preempted one
    rw [if_neg har] at hcr
    have hne : r.key ≠ sark := by
      intro he
      refine hp (.inl ?_)
      rw [reservedUnder, hr]
      simp [he]
    rw [registrationKey_filter, hcr]
    simp [Option.filter, isPreempted, hne]

/-! ## Fenced hosts -/

structure Fenced (st : LunState) (b : RegistrantId) : Prop where
  unregistered : st.registrationKey b = none
  notHolder : ∀ r ∈ st.reservation, r.type.holderOnly = true → r.holder ≠ b

theorem Fenced.isRegistered (h : st.Fenced b) : st.isRegistered b = false := by
  rw [LunState.isRegistered, h.unregistered]
  rfl

theorem Fenced.writeAllowed (h : st.Fenced b) (hr : st.reservation = some r) : st.writeAllowed b = false := by
  have hne := h.notHolder r hr
  unfold LunState.writeAllowed
  rw [hr]
  cases ht : r.type with
  | writeExclusive | exclusiveAccess => simpa [ht] using hne (by rw [ht]; rfl)
  | writeExclusiveRegistrantsOnly | exclusiveAccessRegistrantsOnly | writeExclusiveAllRegistrants
  | exclusiveAccessAllRegistrants => simpa [ht] using h.isRegistered

theorem Fenced.readAllowed (h : st.Fenced b) (hr : st.reservation = some r) (hx : r.type.excludesReads = true) :
    st.readAllowed b = false := by
  have hne := h.notHolder r hr
  unfold LunState.readAllowed
  rw [hr]
  cases ht : r.type with
  | exclusiveAccess => simpa [ht] using hne (by rw [ht]; rfl)
  | exclusiveAccessRegistrantsOnly | exclusiveAccessAllRegistrants => simpa [ht] using h.isRegistered
  | writeExclusive | writeExclusiveRegistrantsOnly | writeExclusiveAllRegistrants =>
    rw [ht] at hx
    cases hx

theorem writeAllowed_holder (hr : st.reservation = some r) (ht : r.type.holderOnly = true) :
    st.writeAllowed r.holder = true := by
  unfold LunState.writeAllowed
  rw [hr]
  cases h : r.type <;> simp_all [ReservationType.holderOnly]

def registers : ReservationOp → Bool
  | .register _ sark _ _ => sark != 0
  | _ => false

theorem Change.fenced (h : Change st id op st') (hf : st.Fenced b) (hown : id = b → registers op = false) :
    st'.Fenced b := by
  have hne : ∀ {rk : UInt64}, st.registrationKey id = some rk → id ≠ b := by
    rintro rk hreg rfl
    rw [hf.unregistered] at hreg
    cases hreg
  have hnone : ∀ regs : SortedMap RegistrantId UInt64, (∀ k, regs.get b = some k → st.registrations.get b = some k) →
      regs.get b = none := by
    intro regs hsub
    rw [Option.eq_none_iff_forall_ne_some]
    intro k hk
    have := hsub k hk
    rw [show st.registrations.get b = none from hf.unregistered] at this
    cases this
  have hfilter : ∀ p, (st.registrations.filter p).get b = none := by
    refine fun p => hnone _ fun k hk => ?_
    rw [SortedMap.get_filter] at hk
    exact Option.eq_some_of_filter_eq_some hk
  have hmine : ∀ {rk : UInt64} {type : ReservationType}, st.registrationKey id = some rk →
      ∀ r ∈ (some ⟨id, rk, type⟩ : Option ReservationState), r.type.holderOnly = true → r.holder ≠ b := by
    rintro rk type hreg r hr -
    rw [Option.mem_some_iff] at hr
    subst hr
    exact hne hreg
  cases h with
  | register rk sark ignore aptpl hkey =>
    have hid : b ≠ id := by
      rintro rfl
      have := hown rfl
      simp [registers, hkey] at this
    refine ⟨?_, hf.notHolder⟩
    exact (SortedMap.get_insert st.registrations id b sark).trans ((if_neg hid).trans hf.unregistered)
  | unregister rk ignore aptpl =>
    refine ⟨hfilter _, fun r hr ht => ?_⟩
    change st.reservationAfterUnregister id (st.registrations.erase id) = some r at hr
    unfold reservationAfterUnregister at hr
    split at hr
    · cases hr
    next r0 hr0 =>
    split at hr
    · -- what is passed on is an all-registrants reservation
      split at hr
      · next har =>
        obtain ⟨e, -, rfl⟩ := Option.map_eq_some_iff.1 hr
        cases h0 : r0.type <;> simp_all [ReservationType.holderOnly, ReservationType.isAllRegistrants]
      · cases hr
    · cases hr
      exact hf.notHolder r hr0 ht
  | reserve rk typeByte type hreg => exact ⟨hf.unregistered, hmine hreg⟩
  | reserved | released => exact hf
  | release => exact ⟨hf.unregistered, fun r hr => by cases hr⟩
  | clear => exact ⟨rfl, fun r hr => by cases hr⟩
  | takeover rk typeByte type hreg => exact ⟨hfilter _, hmine hreg⟩
  | preempt rk sark typeByte type hkey hreg =>
    refine ⟨hfilter _, fun r hr => ?_⟩
    change st.preemptedReservation id rk sark type = some r at hr
    unfold preemptedReservation at hr
    split at hr
    · exact hmine hreg r hr
    · exact hf.notHolder r hr

theorem Change.registrationKey_of_registers
    (h : Change st id op st') (hop : registers op = true) : st'.registrationKey id ≠ none := by
  cases h with
  | register rk sark =>
    intro hn
    have := (SortedMap.get_insert st.registrations id id sark).symm.trans hn
    rw [if_pos rfl] at this
    cases this
  | _ => simp [registers] at hop

/-- **Which victims a PREEMPT fences**: all but a sole holder whose reservation carries another key. -/
theorem Change.preempt_fenced_iff {sark : UInt64} {typeByte : UInt8} (h : Change st id (.preempt rk sark typeByte) st')
    (hkey : sark ≠ 0) (hb : b ≠ id) (hreg : st.registrationKey b = some sark) : st'.registrationKey b = none ∧
      (st'.Fenced b ↔ ¬ ∃ r ∈ st.reservation, r.holder = b ∧ r.type.holderOnly = true ∧ r.key ≠ sark) := by
  cases h with
  | takeover => exact absurd rfl hkey
  | preempt rk sark typeByte type _ hid =>
    have hnone : (⟨st.registrations.filter (fun a k => !isPreempted id sark a k),
        st.preemptedReservation id rk sark type, st.generation + 1, st.aptpl⟩ : LunState).registrationKey b = none := by
      rw [registrationKey_filter, hreg]
      simp [Option.filter, isPreempted, hb]
    refine ⟨hnone, fun hf => ?_, fun hno => ⟨hnone, fun r hr ht => ?_⟩⟩
    · rintro ⟨r, hr, hholder, ht, hne⟩
      refine hf.notHolder r ?_ ht hholder
      change st.preemptedReservation id rk sark type = some r
      rw [← hr]
      refine if_neg ?_
      rintro (hu | hn)
      · rw [reservedUnder, hr] at hu
        exact hne (by simpa using hu)
      · rw [hn] at hr
        cases hr
    · change st.preemptedReservation id rk sark type = some r at hr
      unfold preemptedReservation at hr
      split at hr
      · cases hr
        exact hb.symm
      · next hp =>
        rintro rfl
        refine hno ⟨r, hr, rfl, ht, fun he => hp (.inl ?_)⟩
        rw [reservedUnder, hr]
        simp [he]

end LunState

namespace ReservationManager

variable {persist : Option EntityResolver} {m m' : ReservationManager} {st : LunState} {req : ReservationRequest}
  {op : ReservationOp} {map : SortedMap Lun LunState}

/-! ## Consistency along a run -/

def consistentOk (persist : Option EntityResolver) (m : ReservationManager) : ManagerAct → Prop
  | .request req => ∀ op ∈ (req.decode persist.isSome).toOption, (m.state req.lun).keyMatches req.issuer op →
      (m.state req.lun).keysOk req.issuer op
  | _ => True

instance (persist : Option EntityResolver) (m : ReservationManager) (a : ManagerAct) :
    Decidable (consistentOk persist m a) := by
  apply ManagerAct.casesOn (motive := fun a => Decidable (consistentOk persist m a)) a <;> intros <;>
    unfold consistentOk <;> infer_instance

structure AllConsistent (m : ReservationManager) : Prop where
  units : ∀ lun st, m.byLun.get lun = some st → st.Consistent
  prior : ∀ mu, m.mutating = some mu → ∀ st, mu.prior = some st → st.Consistent
  snapshot : ∀ mu, m.mutating = some mu → ∀ lun st, mu.snapshot.get lun = some st → st.Consistent
  file : PersistedFile.All LunState.Consistent m.file

theorem AllConsistent.state (h : m.AllConsistent) (lun : Lun) : (m.state lun).Consistent := by
  unfold ReservationManager.state
  cases hget : m.byLun.get lun with
  | none => exact LunState.consistent_none rfl
  | some st => exact h.units lun st hget

theorem consistent_insert (h : ∀ lun st, map.get lun = some st → st.Consistent)
    (lun : Lun) (hst : st.Consistent) : ∀ lun' st', (map.insert lun st).get lun' = some st' → st'.Consistent := by
  intro lun' st' hget
  rw [SortedMap.get_insert] at hget
  split at hget
  · cases hget
    exact hst
  · exact h lun' st' hget

theorem consistent_erase (h : ∀ lun st, map.get lun = some st → st.Consistent) (lun : Lun) :
    ∀ lun' st', (map.erase lun).get lun' = some st' → st'.Consistent := by
  intro lun' st' hget
  rw [SortedMap.get_erase] at hget
  split at hget
  · cases hget
  · exact h lun' st' hget

theorem allConsistent_idle (hidle : m.mutating = none) (hunits : ∀ lun st, m'.byLun.get lun = some st → st.Consistent)
    (hmut : m'.mutating = m.mutating) (hfile : PersistedFile.All LunState.Consistent m'.file) : m'.AllConsistent where
  units := hunits
  prior mu hmu := absurd ((hmut.symm.trans hmu).symm.trans hidle) (by simp)
  snapshot mu hmu := absurd ((hmut.symm.trans hmu).symm.trans hidle) (by simp)
  file := hfile

theorem change_of_apply {st' : LunState} {id : RegistrantId} (h : st.apply id op = (.good, st')) :
    st.Change id op st' := by
  have := LunState.change_of_good st id op (by rw [h])
  rw [h] at this
  exact this

theorem consistentOk_iff_of_apply (h : m.AllConsistent) (hdec : req.decode persist.isSome = .ok op)
    (hout : (m.state req.lun).apply req.issuer op = (.good, st)) :
    consistentOk persist m (.request req) ↔ st.Consistent := by
  have hkey := LunState.keyMatches_of_good (congrArg Prod.fst hout)
  simp only [consistentOk, hdec, Except.toOption, Option.mem_some_iff, forall_eq', hkey, forall_const,
    (change_of_apply hout).consistent_iff (h.state req.lun)]

theorem AllConsistent.step {a : ManagerAct} (h : m.AllConsistent) (hm : Moves persist m a m') :
    (consistentOk persist m a → m'.AllConsistent) ∧ ((∀ lun, (m'.state lun).Consistent) → consistentOk persist m a) := by
  cases hm with
  | request req m' outcome hidle _ hb =>
    cases hb with
    | rejected outcome hdec =>
      refine ⟨fun _ => h, fun _ op hop => ?_⟩
      rw [hdec] at hop
      cases hop
    | refused op outcome hdec hout hbad =>
      refine ⟨fun _ => allConsistent_idle hidle (consistent_insert h.units req.lun (h.state req.lun)) rfl h.file,
        fun _ op' hop hkey => ?_⟩
      rw [hdec] at hop
      cases hop
      cases op with
      | register => exact absurd (hout.symm.trans (LunState.register_good.2 hkey)) hbad
      | _ => trivial
    | done op st hdec hout =>
      rw [consistentOk_iff_of_apply h hdec hout]
      refine ⟨fun hst => allConsistent_idle hidle (consistent_insert h.units req.lun hst) rfl h.file, fun hall => ?_⟩
      have := hall req.lun
      rwa [state_insert m _ req.lun req.lun st rfl, if_pos rfl] at this
    | writing op st hdec hout =>
      rw [consistentOk_iff_of_apply h hdec hout]
      constructor
      · intro hst
        have hunits := consistent_insert h.units req.lun hst
        refine ⟨hunits, fun mu hmu => ?_, fun mu hmu => ?_, h.file⟩
        · cases hmu
          exact h.units req.lun
        · cases hmu
          exact hunits
      · intro hall
        have := hall req.lun
        rwa [state_insert m _ req.lun req.lun st rfl, if_pos rfl] at this
  | written mu hmu =>
    refine ⟨fun _ => ⟨h.units, fun _ h' => (by cases h'), fun _ h' => (by cases h'), ?_⟩, fun _ => trivial⟩
    cases persist with
    | none => exact fun f hf => by cases hf
    | some r => exact persistToDisk_all (h.snapshot mu hmu) r
  | rolledBack mu hmu =>
    refine ⟨fun _ => ⟨?_, fun _ h' => (by cases h'), fun _ h' => (by cases h'), h.file⟩, fun _ => trivial⟩
    change ∀ lun st, (rollback m.byLun mu).get lun = some st → st.Consistent
    unfold rollback
    cases hp : mu.prior with
    | none => exact consistent_erase h.units mu.lun
    | some st => exact consistent_insert h.units mu.lun (h.prior mu hmu st hp)
  | purged lun persisted hidle =>
    refine ⟨fun _ => ?_, fun _ => trivial⟩
    unfold purgeLun
    split
    · exact h
    have herase := consistent_erase h.units lun
    dsimp only
    split
    · refine allConsistent_idle hidle herase rfl ?_
      cases persist with
      | none => exact fun f hf => by cases hf
      | some r => exact persistToDisk_all herase r
    · exact allConsistent_idle hidle herase rfl h.file
  | restart =>
    refine ⟨fun _ => ?_, fun _ => trivial⟩
    cases persist with
    | none => exact ⟨fun _ _ hget => (by cases hget), fun _ h' => (by cases h'), fun _ h' => (by cases h'), h.file⟩
    | some r =>
      exact ⟨fun _ _ hget => loadFile_all h.file r hget, fun _ h' => (by cases h'), fun _ h' => (by cases h'), h.file⟩

theorem allConsistent_loadFrom (persist : Option EntityResolver) : (loadFrom persist none).AllConsistent := by
  cases persist with
  | none | some r =>
    exact ⟨fun _ _ h => (by cases h), fun _ h => (by cases h), fun _ h => (by cases h), fun _ h => by cases h⟩

/-- **The table is consistent all along a run exactly if no step lets the keys drift.** -/
theorem reservation_consistent_iff (persist : Option EntityResolver) (acts : List ManagerAct) (m : ReservationManager)
    (hrun : (machine persist).run (loadFrom persist none) acts = some m) :
    (∀ pre, pre <+: acts → ∀ m', (machine persist).run (loadFrom persist none) pre = some m' →
      ∀ lun, (m'.state lun).Consistent) ↔
    (machine persist).Meets (consistentOk persist) (loadFrom persist none) acts :=
  Machine.forall_prefix_iff_meets _ (fun _ h => h.state) (fun _ _ _ h hs => h.step (machine_moves hs))
    (allConsistent_loadFrom persist) hrun

def rekeyRun : List ManagerAct :=
  [.request (.call 0 scsiHost (.register 0 5 false (some false))), .request (.call 0 scsiHost (.reserve 5 0x01)),
    .request (.call 0 scsiHost (.register 5 7 false (some false)))]

theorem reservation_consistent_iff_reserveRun :
    ∃ m, (machine (some .lunIdentity)).run (loadFrom (some .lunIdentity) none) reserveRun = some m ∧
      (m.state 0).reservation = some ⟨scsiHost, 5, .writeExclusive⟩ ∧ (m.state 0).Consistent :=
  Machine.ends_of (fun m => (m.state 0).reservation = some ⟨scsiHost, 5, .writeExclusive⟩) (by decide +kernel) fun m hm h =>
    ⟨h, (reservation_consistent_iff _ reserveRun m hm).2 (by decide +kernel) reserveRun (List.prefix_refl _) m hm 0⟩

/-- **The key in the reservation is the one the holder reserved with.** -/
theorem reservation_consistent_fails :
    ∃ m, (machine (some .lunIdentity)).run (loadFrom (some .lunIdentity) none) rekeyRun = some m ∧
      (m.state 0).reservation = some ⟨scsiHost, 5, .writeExclusive⟩ ∧ (m.state 0).registrationKey scsiHost = some 7 ∧
      ¬ (m.state 0).Consistent := by
  decide +kernel

/-! ## Answered requests -/

theorem serve_good {persisted : Bool} (hgood : (m.serve persist req persisted).2 = .good) :
    ∃ op st, req.decode persist.isSome = .ok op ∧ (m.state req.lun).Change req.issuer op st ∧
      ∀ lun, (m.serve persist req persisted).1.state lun = if lun = req.lun then st else m.state lun := by
  have hb := begin_begins persist m req
  unfold serve at hgood ⊢
  generalize m.begin persist req = x at hb hgood ⊢
  obtain ⟨m', outcome⟩ := x
  dsimp only at hb hgood ⊢
  cases hb with
  | rejected outcome hdec =>
    subst hgood
    exact absurd hdec (ReservationRequest.decode_ne_good _ req)
  | refused op outcome hdec hout hbad => exact absurd hgood hbad
  | done op st hdec hout =>
    exact ⟨op, st, hdec, change_of_apply hout, fun lun => state_insert m _ req.lun lun st rfl⟩
  | writing op st hdec hout =>
    cases persisted with
    | false => cases hgood
    | true => exact ⟨op, st, hdec, change_of_apply hout, fun lun => state_insert m _ req.lun lun st rfl⟩

/-! ## Requests of a host that is not registered -/

structure LunState.SameForOthers (id : RegistrantId) (st st' : LunState) : Prop where
  others : ∀ b, b ≠ id → st'.registrationKey b = st.registrationKey b
  reservation : st'.reservation = st.reservation
  aptpl : st'.aptpl = st.aptpl
  generation : st'.generation = st.generation

theorem serve_unregister_good {rk : UInt64} {ignore persisted : Bool} {aptpl : Option Bool}
    (hreg : (m.state req.lun).isRegistered req.issuer = false)
    (hdec : req.decode persist.isSome = .ok (.register rk 0 ignore aptpl)) :
    (m.serve persist req persisted).2 = .good ↔ (ignore = true ∨ rk = 0) ∧
      (persisted = true ∨ (persist.isSome = true → (m.state req.lun).rewrites req.issuer aptpl = false)) := by
  have hkey : (m.state req.lun).keyMatches req.issuer (.register rk 0 ignore aptpl) ↔ ignore = true ∨ rk = 0 := by
    have hnone : (m.state req.lun).registrationKey req.issuer = none := by simpa [LunState.isRegistered] using hreg
    rw [LunState.keyMatches, hnone, Option.getD_none, eq_comm (a := 0)]
  have hb := begin_begins persist m req
  unfold serve
  generalize m.begin persist req = x at hb ⊢
  obtain ⟨m', outcome⟩ := x
  dsimp only at hb ⊢
  cases hb with
  | rejected outcome hdec' => cases hdec.symm.trans hdec'
  | refused op outcome hdec' hout hbad =>
    cases hdec.symm.trans hdec'
    exact iff_of_false hbad fun h => hbad (hout.symm.trans (LunState.register_good.2 (hkey.2 h.1)))
  | done op st hdec' hout hfile =>
    cases hdec.symm.trans hdec'
    refine iff_of_true rfl ⟨hkey.1 (LunState.keyMatches_of_good (congrArg Prod.fst hout)), .inr fun hp => ?_⟩
    cases change_of_apply hout with
    | register _ _ _ _ hsark => exact absurd rfl hsark
    | unregister => exact Bool.or_eq_false_iff.2 (hfile hp)
  | writing op st hdec' hout hp hfile =>
    cases hdec.symm.trans hdec'
    have hpass := hkey.1 (LunState.keyMatches_of_good (congrArg Prod.fst hout))
    have hw : (m.state req.lun).rewrites req.issuer aptpl = true := by
      cases change_of_apply hout with
      | register _ _ _ _ hsark => exact absurd rfl hsark
      | unregister => exact Bool.or_eq_true_iff.2 hfile
    cases persisted with
    | true => exact iff_of_true rfl ⟨hpass, .inl rfl⟩
    | false => simp [finishMutate, hp, hw]

/-- **A request of an unregistered host changes the unit exactly if it is an unregistration** that passes the key check
and whose write, if any, succeeds: the persist flag is set and the generation counted up before a registration is asked
for. -/
theorem unregistered_frame_iff (persist : Option EntityResolver) (file : Option PersistedFile) (acts : List ManagerAct)
    (m : ReservationManager) (hrun : (machine persist).run (loadFrom persist file) acts = some m)
    (req : ReservationRequest) (persisted : Bool)
    (hreg : (m.state req.lun).isRegistered req.issuer = false)
    (hnot : ¬ ((m.serve persist req persisted).2 = .good ∧
      ∃ rk sark ignore aptpl, sark ≠ 0 ∧ req.decode persist.isSome = .ok (.register rk sark ignore aptpl))) :
    (∀ lun, LunState.SameForOthers req.issuer (m.state lun) ((m.serve persist req persisted).1.state lun)) ↔
      ¬ ∃ rk ignore aptpl, req.decode persist.isSome = .ok (.register rk 0 ignore aptpl) ∧ (ignore = true ∨ rk = 0) ∧
        (persisted = true ∨ (persist.isSome = true → (m.state req.lun).rewrites req.issuer aptpl = false)) := by
  by_cases hgood : (m.serve persist req persisted).2 = .good
  · obtain ⟨op, st, hdec, hchange, hstate⟩ := serve_good hgood
    have hkey : (m.state req.lun).registrationKey req.issuer = none := by
      simpa [LunState.isRegistered] using hreg
    have hno : ∀ {rk : UInt64} {P : Prop}, (m.state req.lun).registrationKey req.issuer = some rk → P := by
      intro rk P h
      rw [hkey] at h
      cases h
    cases hchange with
    | register rk sark ignore aptpl hsark => exact absurd ⟨hgood, rk, sark, ignore, aptpl, hsark, hdec⟩ hnot
    | unregister rk ignore aptpl =>
      refine iff_of_false (fun h => ?_) fun h => h ⟨rk, ignore, aptpl, hdec, (serve_unregister_good hreg hdec).1 hgood⟩
      have hgen := (h req.lun).generation
      rw [hstate req.lun, if_pos rfl] at hgen
      have hgen' : (m.state req.lun).generation + 1 = (m.state req.lun).generation := hgen
      simp at hgen'
    | reserve _ _ _ h | reserved _ _ h | release _ _ h | released _ _ h | clear _ h | takeover _ _ _ h
    | preempt _ _ _ _ _ h => exact hno h
  · refine iff_of_true (fun lun => ?_) (fun ⟨_, _, _, hdec, h⟩ => hgood ((serve_unregister_good hreg hdec).2 h))
    rw [(serve_not_good (flagged_run hrun) req persisted hgood).1 lun]
    exact ⟨fun _ _ => rfl, rfl, rfl, rfl⟩

def nvmePreempt (crkey prkey : UInt64) : ReservationRequest := .call 0 nvmeHost (.preempt crkey prkey 0x01)

theorem unregistered_frame_iff_reserveRun :
    ∃ m, (machine (some .lunIdentity)).run (loadFrom (some .lunIdentity) none) reserveRun = some m ∧
      (m.state 0).isRegistered nvmeHost = false ∧
      ∀ lun, LunState.SameForOthers nvmeHost (m.state lun)
        ((m.serve (some .lunIdentity) (nvmePreempt 0 5) true).1.state lun) := by
  refine Machine.ends_of (fun m => (m.state 0).isRegistered nvmeHost = false ∧
    (m.serve (some .lunIdentity) (nvmePreempt 0 5) true).2 ≠ .good) (by decide +kernel) ?_
  rintro m hm ⟨hun, hbad⟩
  refine ⟨hun, ?_⟩
  exact (unregistered_frame_iff _ none reserveRun m hm (nvmePreempt 0 5) true hun (fun h => hbad h.1)).2
    fun ⟨_, _, _, h, _⟩ => by cases h

/-- REGISTER AND IGNORE EXISTING KEY with key zero and APTPL clear. -/
def strayUnregister : ReservationRequest := .prout 0 0x06 0 0 (List.replicate 24 0) 24 (.iscsi none 9) true

/-- **An unregistered host clears the persist flag of a reserved unit**, and a restart loses the reservation. -/
theorem unregistered_frame_fails :
    ∃ m, (machine (some .lunIdentity)).run (loadFrom (some .lunIdentity) none) reserveRun = some m ∧
      (m.state 0).isRegistered strayUnregister.issuer = false ∧
      (m.serve (some .lunIdentity) strayUnregister true).2 = .good ∧ (m.state 0).aptpl = true ∧
      ((m.serve (some .lunIdentity) strayUnregister true).1.state 0).aptpl = false ∧
      ((m.serve (some .lunIdentity) strayUnregister true).1.state 0).generation ≠ (m.state 0).generation ∧
      ((loadFrom (some .lunIdentity) (m.serve (some .lunIdentity) strayUnregister true).1.file).state 0).reservation =
        none := by
  decide +kernel

/-! ## What a PREEMPT takes away -/

def acknowledges (persist : Option EntityResolver) (lun : Lun) (b : RegistrantId) (m : ReservationManager) :
    ManagerAct → Prop
  | .request req => req.lun = lun ∧ req.issuer = b ∧ (m.begin persist req).2 = some .good ∧
      ∃ op ∈ (req.decode persist.isSome).toOption, LunState.registers op = true
  | .persisted ok => ok = true ∧ (m.state lun).isRegistered b = true
  | _ => False

def committedState (m : ReservationManager) (lun : Lun) : LunState := (m.committed.get lun).getD {}

/-- Fenced as far as anything has been acknowledged, while not registered. -/
structure FencedOff (lun : Lun) (b : RegistrantId) (m : ReservationManager) : Prop where
  committed : (m.committedState lun).Fenced b
  state : (m.state lun).registrationKey b = none → (m.state lun).Fenced b

theorem committedState_idle (h : m.mutating = none) (lun : Lun) : m.committedState lun = m.state lun := by
  unfold committedState
  rw [committed_idle h]
  rfl

theorem committedState_mutating {mu : Mutation} (h : m.mutating = some mu) (lun : Lun) :
    m.committedState lun = ((rollback m.byLun mu).get lun).getD {} := by
  unfold committedState committed
  rw [h]

theorem committedState_writing (m : ReservationManager) (lun lun' : Lun) (st : LunState) :
    committedState { m.store (m.byLun.insert lun st) with
      mutating := some ⟨lun, m.byLun.get lun, m.byLun.insert lun st⟩ } lun' = m.state lun' := by
  unfold committedState
  rw [committed_writing]
  rfl

theorem fencedOff_idle {lun : Lun} {b : RegistrantId} (hidle : m.mutating = none) (h : (m.state lun).Fenced b) :
    FencedOff lun b m := by
  refine ⟨?_, fun _ => h⟩
  rw [committedState_idle hidle]
  exact h

theorem FencedOff.step {a : ManagerAct} {lun : Lun} {b : RegistrantId} (h : FencedOff lun b m)
    (hop : (∀ l p, a ≠ .purgeLun l p) ∧ a ≠ .restart) (hack : ¬ acknowledges persist lun b m a)
    (hm : Moves persist m a m') : FencedOff lun b m' := by
  cases hm with
  | request req m' outcome hidle hbegin hb =>
    have hf := h.committed
    rw [committedState_idle hidle] at hf
    cases hb with
    | rejected => exact h
    | refused =>
      refine fencedOff_idle (by exact hidle) ?_
      rw [state_insert_state m _ req.lun lun rfl]
      exact hf
    | done op st hdec hout =>
      refine fencedOff_idle (by exact hidle) ?_
      rw [state_insert m _ req.lun lun st rfl]
      split
      · next hl =>
        subst hl
        refine (change_of_apply hout).fenced hf fun hid => ?_
        by_contra hreg
        exact hack ⟨rfl, hid, by rw [hbegin], op, by rw [hdec]; rfl, by simpa using hreg⟩
      · exact hf
    | writing op st hdec hout hp =>
      refine ⟨?_, fun hnone => ?_⟩
      · rw [committedState_writing]
        exact hf
      · rw [state_insert m _ req.lun lun st rfl] at hnone ⊢
        split at hnone
        · next hl =>
          subst hl
          rw [if_pos rfl]
          refine (change_of_apply hout).fenced hf fun hid => ?_
          by_contra hreg
          exact (change_of_apply hout).registrationKey_of_registers (by simpa using hreg) (hid ▸ hnone)
        · next hl =>
          rw [if_neg hl]
          exact hf
  | written =>
    refine fencedOff_idle rfl (h.state ?_)
    by_contra hreg
    exact hack ⟨rfl, by rw [LunState.isRegistered, Option.isSome_iff_ne_none]; exact hreg⟩
  | rolledBack mu hmu =>
    refine fencedOff_idle rfl ?_
    have hf := h.committed
    rw [committedState_mutating hmu] at hf
    exact hf
  | purged l p => exact absurd rfl (hop.1 l p)
  | restart => exact absurd rfl hop.2

/-- **A PREEMPT fences its victims, except a sole holder that re-registered**: a registrant under `s` is shut out until
it registers again if and only if it was not the sole holder under another key. -/
theorem preempt_fences_iff (persist : Option EntityResolver) (file : Option PersistedFile) (acts : List ManagerAct)
    (m : ReservationManager) (hrun : (machine persist).run (loadFrom persist file) acts = some m)
    (hidle : m.mutating = none) (req : ReservationRequest) (persisted : Bool) (rk s : UInt64) (typeByte : UInt8)
    (hdec : req.decode persist.isSome = .ok (.preempt rk s typeByte)) (hs : s ≠ 0)
    (hgood : (m.serve persist req persisted).2 = .good) (b : RegistrantId) (hb : b ≠ req.issuer)
    (hkey : (m.state req.lun).registrationKey b = some s) :
    ((m.serve persist req persisted).1.state req.lun).isRegistered b = false ∧
    ((∀ acts2 m2, (∀ a ∈ acts2, (∀ l p, a ≠ .purgeLun l p) ∧ a ≠ .restart) →
        (machine persist).Meets (fun m a => ¬ acknowledges persist req.lun b m a) (m.serve persist req persisted).1 acts2 →
        (machine persist).run (m.serve persist req persisted).1 acts2 = some m2 →
        (m2.state req.lun).isRegistered b = false → ∀ r, (m2.state req.lun).reservation = some r →
          m2.allowWrite req.lun b = false ∧ (r.type.excludesReads = true → m2.allowRead req.lun b = false)) ↔
      ¬ ∃ r ∈ (m.state req.lun).reservation, r.holder = b ∧ r.type.holderOnly = true ∧ r.key ≠ s) := by
  obtain ⟨op, st, hdec', hchange, hstate⟩ := serve_good hgood
  cases Except.ok.inj (hdec.symm.trans hdec')
  obtain ⟨hnone, hiff⟩ := hchange.preempt_fenced_iff hs hb hkey
  obtain ⟨hidle1, acts1, hrun1⟩ := serve_run persist hidle req persisted
  have hstate1 : (m.serve persist req persisted).1.state req.lun = st := by rw [hstate, if_pos rfl]
  have hflag : ∀ acts2 m2, (machine persist).run (m.serve persist req persisted).1 acts2 = some m2 → m2.Flagged :=
    fun acts2 m2 hrun2 => Machine.run_inv' _ (fun _ _ _ h hs => h.step (machine_moves hs))
      (Machine.run_inv' _ (fun _ _ _ h hs => h.step (machine_moves hs)) (flagged_run hrun) hrun1) hrun2
  refine ⟨?_, fun hall => ?_, fun hno acts2 m2 hops hack hrun2 hun r hr => ?_⟩
  · rw [hstate1, LunState.isRegistered, hnone]
    rfl
  · -- left in possession, the victim writes right after the PREEMPT
    intro hbad
    have hnf : ¬ st.Fenced b := fun hf => hiff.1 hf hbad
    have hheld : ∃ r ∈ st.reservation, r.type.holderOnly = true ∧ r.holder = b := by
      by_contra hno
      refine hnf ⟨hnone, fun r hr ht hholder => hno ⟨r, hr, ht, hholder⟩⟩
    obtain ⟨r, hr, ht, hholder⟩ := hheld
    have hden := (hall [] _ (fun a ha => by cases ha) trivial rfl (by rw [hstate1, LunState.isRegistered, hnone]; rfl) r
      (by rw [hstate1]; exact hr)).1
    rw [(hflag [] _ rfl).allowWrite, hstate1, ← hholder, LunState.writeAllowed_holder hr ht] at hden
    cases hden
  · have h1 : FencedOff req.lun b (m.serve persist req persisted).1 :=
      fencedOff_idle hidle1 (by rw [hstate1]; exact hiff.2 hno)
    have h2 := Machine.run_inv _ (fun _ _ _ h ha hs => FencedOff.step h ha.1 ha.2 (machine_moves hs)) h1
      ((Machine.meets_of_forall _ hops).and _ hack) hrun2
    have hf := h2.state (by simpa [LunState.isRegistered] using hun)
    rw [(hflag acts2 m2 hrun2).allowWrite, (hflag acts2 m2 hrun2).allowRead]
    exact ⟨hf.writeAllowed hr, hf.readAllowed hr⟩

def contendedRun : List ManagerAct :=
  [.request (.call 0 scsiHost (.register 0 5 false (some false))), .request (.call 0 scsiHost (.reserve 5 0x01)),
    .request nvmeRegister]

theorem preempt_fences_iff_contendedRun :
    ∃ m, (machine none).run (loadFrom none none) contendedRun = some m ∧
      (m.serve none (nvmePreempt 6 5) true).2 = .good ∧
      ∀ acts2 m2, (∀ a ∈ acts2, (∀ l p, a ≠ .purgeLun l p) ∧ a ≠ .restart) →
        (machine none).Meets (fun m a => ¬ acknowledges none 0 scsiHost m a) (m.serve none (nvmePreempt 6 5) true).1 acts2 →
        (machine none).run (m.serve none (nvmePreempt 6 5) true).1 acts2 = some m2 →
        (m2.state 0).isRegistered scsiHost = false → ∀ r, (m2.state 0).reservation = some r →
          m2.allowWrite 0 scsiHost = false ∧ (r.type.excludesReads = true → m2.allowRead 0 scsiHost = false) := by
  obtain ⟨m, hm, hidle, hgood, hkey, hres⟩ : ∃ m ∈ (machine none).run (loadFrom none none) contendedRun,
      m.mutating = none ∧ (m.serve none (nvmePreempt 6 5) true).2 = .good ∧
      (m.state 0).registrationKey scsiHost = some 5 ∧
      (m.state 0).reservation = some ⟨scsiHost, 5, .writeExclusive⟩ := by decide +kernel
  refine ⟨m, hm, hgood, ?_⟩
  refine (preempt_fences_iff none none contendedRun m hm hidle (nvmePreempt 6 5) true 6 5 0x01 rfl (by decide) hgood
    scsiHost (by decide) hkey).2.2 ?_
  rintro ⟨r, hr, -, -, hne⟩
  rw [show (m.state (nvmePreempt 6 5).lun).reservation = _ from hres, Option.mem_some_iff] at hr
  subst hr
  exact hne rfl

def rekeyedHolderRun : List ManagerAct := rekeyRun ++ [.request nvmeRegister]

/-- **A preempted host keeps writing**: it is unregistered, its reservation stays, and it alone may write. -/
theorem preempt_fences_fails :
    ∃ m, (machine none).run (loadFrom none none) rekeyedHolderRun = some m ∧
      (m.state 0).registrationKey scsiHost = some 7 ∧ (m.serve none (nvmePreempt 6 7) true).2 = .good ∧
      ((m.serve none (nvmePreempt 6 7) true).1.state 0).isRegistered scsiHost = false ∧
      ((m.serve none (nvmePreempt 6 7) true).1.state 0).reservation = some ⟨scsiHost, 5, .writeExclusive⟩ ∧
      (m.serve none (nvmePreempt 6 7) true).1.allowWrite 0 scsiHost = true ∧
      (m.serve none (nvmePreempt 6 7) true).1.allowWrite 0 nvmeHost = false := by
  decide +kernel

end ReservationManager
end Thur

import Thur.Reservations.Fencing
/-!
# Notices — what PREEMPT does to the reservation, and who is told of a change

`mutate` compares the state before and after a command that returned GOOD and notifies the other registrants.
`diff_reservation_changes` sees the two snapshots and the kind of the command, not the transition itself.
-/
namespace Thur

inductive ResvAction where
  | register
  | unregister
  | acquire
  | release
  | clear
  | preempt

inductive ReservationChangeKind where
  | reservationPreempted
  | registrationPreempted
  | reservationReleased

structure ReservationChange where
  lun : Lun
  affected : RegistrantId
  kind : ReservationChangeKind

def ReservationOp.action : ReservationOp → ResvAction
  | .register _ sark _ _ => if sark = 0 then .unregister else .register
  | .reserve _ _ => .acquire
  | .release _ _ => .release
  | .clear _ => .clear
  | .preempt _ _ _ => .preempt

namespace LunState

open ReservationManager Option Function ReservationOp

def preemptedHolder (pre post : ReservationSnapshot) : Option RegistrantId :=
  if pre.holder.isSome ∧ post.holder ≠ pre.holder then pre.holder else none

def diffReservationChanges (action : ResvAction) (lun : Lun) (issuer : RegistrantId) (pre post : ReservationSnapshot) :
    List ReservationChange :=
  let emit (ids : List RegistrantId) (kind : ReservationChangeKind) : List ReservationChange :=
    (ids.filter (· ≠ issuer)).map (⟨lun, ·, kind⟩)
  match action with
  | .register | .acquire => []
  | .clear => emit (pre.registrants.map Prod.fst) .reservationPreempted
  | .preempt =>
    emit (preemptedHolder pre post).toList .reservationPreempted ++
      emit ((pre.registrants.map Prod.fst).filter
        (fun id => id ∉ post.registrants.map Prod.fst ∧ some id ≠ preemptedHolder pre post)) .registrationPreempted
  | .release | .unregister =>
    if pre.holder.isSome ∧ post.holder = none then emit (post.registrants.map Prod.fst) .reservationReleased else []

variable {st st' : LunState} {id b : RegistrantId} {op : ReservationOp} {lun : Lun}

def holds (st : LunState) (id : RegistrantId) : Bool := st.reservation.any (st.isHolder · id)

def notices (lun : Lun) (st st' : LunState) (id : RegistrantId) (op : ReservationOp) : List RegistrantId :=
  (diffReservationChanges op.action lun id (snapshotOf (some st)) (snapshotOf (some st'))).map (·.affected)

theorem mem_registrants : b ∈ st.registrations.entries.map Prod.fst ↔ st.isRegistered b := by
  rw [isRegistered, registrationKey, isSome_iff_exists, List.mem_map]
  constructor
  · rintro ⟨⟨b, k⟩, he, rfl⟩
    exact ⟨k, (SortedMap.get_eq_some _ _ _).2 he⟩
  · rintro ⟨k, hk⟩
    exact ⟨(b, k), (SortedMap.get_eq_some _ _ _).1 hk, rfl⟩

theorem nodup_registrants (st : LunState) : (st.registrations.entries.map Prod.fst).Nodup :=
  List.pairwise_map.2 (st.registrations.sorted.imp (fun h => h.ne))

/-- **Nobody is told twice, and the issuer is not told.** -/
theorem notices_nodup : (notices lun st st' id op).Nodup ∧ id ∉ notices lun st st' id op := by
  have hnil : ([] : List RegistrantId).Nodup ∧ id ∉ ([] : List RegistrantId) := ⟨List.nodup_nil, List.not_mem_nil⟩
  have hall : ∀ s : LunState, ((s.registrations.entries.map Prod.fst).filter (· ≠ id)).Nodup ∧
      id ∉ (s.registrations.entries.map Prod.fst).filter (· ≠ id) :=
    fun s => ⟨(nodup_registrants s).filter _, by simp⟩
  unfold notices diffReservationChanges snapshotOf
  cases op.action with
  | register | acquire => exact hnil
  | clear => simpa [comp_def] using hall st
  | release | unregister =>
    dsimp only
    split
    · simpa [comp_def] using hall st'
    · exact hnil
  | preempt =>
    simp only [List.map_append, List.map_map, comp_def, List.map_id']
    refine ⟨List.nodup_append.2 ⟨?_, ((nodup_registrants st).filter _).filter _, ?_⟩, by simp⟩
    · generalize preemptedHolder _ _ = h
      cases h <;> simp [List.Nodup.filter]
    · intro a ha c hc heq
      subst heq
      simp only [List.mem_filter, mem_toList, decide_eq_true_eq] at ha hc
      exact hc.1.2.2 ha.1.symm

theorem preemptedHolder_eq_some {pre post : ReservationSnapshot} :
    preemptedHolder pre post = some b ↔ pre.holder = some b ∧ post.holder ≠ some b := by
  unfold preemptedHolder
  grind

theorem mem_notices_preempt {rk sark : UInt64} {typeByte : UInt8} :
    b ∈ notices lun st st' id (.preempt rk sark typeByte) ↔ b ≠ id ∧ (st.isRegistered b = true ∧
      st'.isRegistered b = false ∨ st.reservation.map (·.holder) = some b ∧ st'.reservation.map (·.holder) ≠ some b) := by
  have hholder := @preemptedHolder_eq_some b (snapshotOf (some st)) (snapshotOf (some st'))
  simp only [notices, action, diffReservationChanges, List.map_append, List.map_map, comp_def,
    List.map_id', List.mem_append, List.mem_filter, mem_toList]
  generalize preemptedHolder _ _ = h' at hholder ⊢
  simp only [snapshotOf, mem_registrants, decide_eq_true_eq] at hholder ⊢
  grind

/-- **Who has lost something is told**, unless it keeps its registration while an all-registrants reservation is
preempted by one of another type. -/
theorem Change.told (h : Change st id op st') (hb : b ≠ id) (hreg : st.isRegistered b = true)
    (hkey : ∀ rk sark typeByte, op = .preempt rk sark typeByte → sark ≠ 0 → ∀ r ∈ st.reservation,
      r.type.isAllRegistrants = true → r.key = sark → ∀ type ∈ ReservationType.fromU8 typeByte,
      type.isAllRegistrants = false → b ≠ r.holder → st.registrationKey b = some sark)
    (hlost : st'.isRegistered b = false ∨ st.holds b = true ∧ st'.holds b = false) : b ∈ notices lun st st' id op := by
  have hlost' : st'.isRegistered b = true → st.holds b = true ∧ st'.holds b = false :=
    fun h' => hlost.resolve_left (by simp [h'])
  have hsame : st'.reservation = st.reservation → st'.isRegistered b = true → False := by
    intro hr hr'
    have := hlost' hr'
    simp [holds, hr, isHolder, hr', hreg] at this
  have hall : b ∈ (st.registrations.entries.map Prod.fst).filter (· ≠ id) :=
    List.mem_filter.2 ⟨mem_registrants.2 hreg, by simpa using hb⟩
  cases h with
  | register rk sark ignore aptpl hs =>
    refine (hsame rfl ?_).elim
    rw [isRegistered, registrationKey, SortedMap.get_insert, if_neg hb]
    exact hreg
  | unregister rk ignore aptpl =>
    have hreg' : ((st.registrations.erase id).get b).isSome = true := by rw [SortedMap.get_erase, if_neg hb]; exact hreg
    obtain ⟨hheld, hfree⟩ := hlost' hreg'
    rw [holds, any_eq_true] at hheld
    obtain ⟨r, hr, hholder⟩ := hheld
    refine absurd hfree ?_
    simp only [holds, reservationAfterUnregister, mem_def.1 hr]
    split
    · next hown =>
      have hall : r.type.isAllRegistrants = true := by
        simpa [isHolder, hown, beq_false_of_ne hb.symm, hreg] using hholder
      rw [if_pos hall, SortedMap.first?]
      cases he : (st.registrations.erase id).entries with
      | nil => simp [SortedMap.get, he] at hreg'
      | cons e es => simp [isHolder, hall, isRegistered, registrationKey, hreg']
    · simp only [isHolder, isRegistered, registrationKey] at hholder hreg ⊢
      simp [hreg', hreg] at hholder ⊢
      exact fun hne => hholder.resolve_left hne
  | reserve rk typeByte type hid hfree =>
    have := (hlost' hreg).1
    rw [holds, hfree] at this
    cases this
  | reserved rk typeByte hid | released rk typeByte hid => exact (hsame rfl hreg).elim
  | release rk typeByte hid =>
    cases hr : st.reservation with
    | none => exact (hsame hr.symm hreg).elim
    | some r =>
      simpa [notices, action, diffReservationChanges, snapshotOf, hr, comp_def] using hall
  | clear rk hid =>
    simpa [notices, action, diffReservationChanges, snapshotOf, comp_def] using hall
  | takeover rk typeByte type hid =>
    refine mem_notices_preempt.2 ⟨hb, .inl ⟨hreg, ?_⟩⟩
    simp [isRegistered, registrationKey, SortedMap.get_filter, beq_false_of_ne hb]
  | preempt rk sark typeByte type hs hid ht =>
    refine mem_notices_preempt.2 ⟨hb, ?_⟩
    cases hgone : (isRegistered ⟨st.registrations.filter _, _, _, _⟩ b) with
    | false => exact .inl ⟨hreg, rfl⟩
    | true =>
      obtain ⟨hheld, hfree⟩ := hlost' hgone
      rw [holds, any_eq_true] at hheld
      obtain ⟨r, hr, hholder⟩ := hheld
      by_cases hkept : st.preemptedReservation id rk sark type = st.reservation
      · exact (hsame hkept hgone).elim
      · have hunder : st.reservedUnder sark = true := by
          by_contra hno
          exact hkept (if_neg (by simp [hno, mem_def.1 hr]))
        have hrk : r.key = sark := by simpa [reservedUnder, mem_def.1 hr] using hunder
        -- a registrant left holds an all-registrants reservation, so the new one is of another type
        have hleft : ∀ res, (⟨st.registrations.filter (fun a k => !isPreempted id sark a k), res, st.generation + 1,
            st.aptpl⟩ : LunState).isRegistered b = true := fun _ => hgone
        have hone : type.isAllRegistrants = false := by
          simpa [holds, preemptedReservation, hunder, isHolder, hleft, hb.symm] using hfree
        have hown : b = r.holder := by
          by_contra hne
          have hall : r.type.isAllRegistrants = true := by simpa [isHolder, Ne.symm hne, hreg] using hholder
          have hk := hkey rk sark typeByte rfl hs r hr hall hrk type ht hone hne
          simp [isRegistered, registrationKey_filter, hk, isPreempted, hb] at hgone
        refine .inr ⟨by rw [mem_def.1 hr, hown]; rfl, ?_⟩
        simp [preemptedReservation, hunder, hb.symm]

/-- **The notices are complete and free of duplicates**, exactly if no PREEMPT of an all-registrants reservation by one
of another type leaves a registrant other than the issuer and the recorded holder. -/
theorem notices_complete (lun : Lun) (st : LunState) (id : RegistrantId) (op : ReservationOp)
    (hgood : (st.apply id op).1 = .good) :
    let told := notices lun st (st.apply id op).2 id op
    (told.Nodup ∧ id ∉ told ∧ ∀ b ≠ id, st.isRegistered b = true → (st.apply id op).2.isRegistered b = false ∨
      st.holds b = true ∧ (st.apply id op).2.holds b = false → b ∈ told) ↔
    ∀ rk sark typeByte, op = .preempt rk sark typeByte → sark ≠ 0 → ∀ r ∈ st.reservation,
      r.type.isAllRegistrants = true → r.key = sark → ∀ type ∈ ReservationType.fromU8 typeByte,
      type.isAllRegistrants = false → ∀ b ≠ id, b ≠ r.holder → ∀ k ∈ st.registrationKey b, k = sark := by
  have hchange := change_of_good st id op hgood
  intro told
  constructor
  · rintro ⟨-, -, hall⟩ rk sark typeByte rfl hs r hr har hrk type ht hone b hb hne k hk
    by_contra hks
    change ∀ b ≠ id, _ → _ → b ∈ notices _ _ _ _ _ at hall
    generalize (st.apply id (.preempt rk sark typeByte)).2 = st' at hall hchange
    cases hchange with
    | takeover => exact hs rfl
    | preempt _ _ _ type' _ _ ht' =>
    cases some.inj (ht.symm.trans ht')
    -- a registrant under another key stays registered and loses the reservation
    have hreg : st.isRegistered b = true := by rw [isRegistered, mem_def.1 hk]; rfl
    have hlost := hall b hb hreg (.inr ⟨by simp [holds, mem_def.1 hr, isHolder, har, hreg], by
      simp [holds, preemptedReservation, reservedUnder, mem_def.1 hr, hrk, isHolder, hone, hb.symm]⟩)
    rcases (mem_notices_preempt.1 hlost).2 with ⟨-, hgone⟩ | ⟨hholder, -⟩
    · simp [isRegistered, registrationKey_filter, mem_def.1 hk, isPreempted, hks] at hgone
    · rw [mem_def.1 hr] at hholder
      exact hne (some.inj hholder).symm
  · intro hkey
    refine ⟨notices_nodup.1, notices_nodup.2, fun b hb hreg hlost => hchange.told hb hreg ?_ hlost⟩
    intro rk sark typeByte hop hs r hr har hrk type ht hone hne
    obtain ⟨k, hk⟩ := isSome_iff_exists.1 hreg
    rw [hk, hkey rk sark typeByte hop hs r hr har hrk type ht hone b hb hne k hk]

def pair (typeByte : UInt8) : LunState :=
  ((((({} : LunState).apply scsiHost (.register 0 5 false none)).2.apply nvmeHost (.register 0 6 false none)).2).apply
    scsiHost (.reserve 5 typeByte)).2

theorem notices_complete_pair :
    nvmeHost ∈ notices 0 (pair 1) ((pair 1).apply scsiHost (.clear 5)).2 scsiHost (.clear 5) :=
  ((notices_complete 0 (pair 1) scsiHost (.clear 5) (by decide +kernel)).2 (by simp)).2.2 nvmeHost (by decide)
    (by decide +kernel) (.inl (by decide +kernel))

/-- **A holder of an all-registrants reservation is not told that it lost it.** -/
theorem deposed_not_told :
    ((pair 7).apply scsiHost (.preempt 5 5 1)).1 = .good ∧ (pair 7).holds nvmeHost = true ∧
      ((pair 7).apply scsiHost (.preempt 5 5 1)).2.holds nvmeHost = false ∧
      notices 0 (pair 7) ((pair 7).apply scsiHost (.preempt 5 5 1)).2 scsiHost (.preempt 5 5 1) = [] := by
  decide +kernel

/-! ## PREEMPT -/

/-- **PREEMPT moves the reservation only when it names the holder**, exactly if there is one and it is named by the key
it is registered with just when by the key the reservation carries. -/
theorem preempt_moves_iff (st : LunState) (id : RegistrantId) (rk sark : UInt64) (typeByte : UInt8) (hs : sark ≠ 0)
    (hgood : (st.apply id (.preempt rk sark typeByte)).1 = .good) :
    (∃ type, ReservationType.fromU8 typeByte = some type ∧
      (st.apply id (.preempt rk sark typeByte)).2.reservation =
        (if ∃ r ∈ st.reservation, st.registrationKey r.holder = some sark then some ⟨id, rk, type⟩ else st.reservation) ∧
      ∀ b, (st.apply id (.preempt rk sark typeByte)).2.registrationKey b =
        if b ≠ id ∧ st.registrationKey b = some sark then none else st.registrationKey b) ↔
    ∃ r ∈ st.reservation, (r.key = sark ↔ st.registrationKey r.holder = some sark) := by
  have hchange := change_of_good st id _ hgood
  generalize (st.apply id (.preempt rk sark typeByte)).2 = st' at hchange ⊢
  cases hchange with
  | takeover => exact absurd rfl hs
  | preempt _ _ _ type _ hid ht =>
  have hregs : ∀ b, (st.registrationKey b).filter (fun k => !isPreempted id sark b k) =
      if b ≠ id ∧ st.registrationKey b = some sark then none else st.registrationKey b := by
    intro b
    cases st.registrationKey b with
    | none => simp
    | some k => grind [isPreempted]
  simp only [registrationKey_filter, hregs, implies_true, and_true, ht, some.injEq, exists_eq_left',
    preemptedReservation, reservedUnder, mem_def]
  rcases eq_none_or_eq_some st.reservation with hr | ⟨r, hr⟩
  · simp [hr]
  · -- a holder that preempts itself is registered under the key it gives
    have hown : (⟨id, rk, type⟩ : ReservationState) = r → r.key = rk ∧ st.registrationKey r.holder = some rk := by
      rintro rfl
      exact ⟨rfl, hid⟩
    simp only [hr, any_some, beq_iff_eq, reduceCtorEq, or_false, some.injEq, exists_eq_left']
    grind

theorem preempt_moves_iff_pair :
    (((pair 1).apply nvmeHost (.preempt 6 5 3)).2.reservation = some ⟨nvmeHost, 6, .exclusiveAccess⟩) := by
  obtain ⟨type, ht, hres, -⟩ := (preempt_moves_iff (pair 1) nvmeHost 6 5 3 (by decide) (by decide +kernel)).2
    (by decide +kernel)
  cases ht
  rw [hres, if_pos (by decide +kernel)]

theorem preempt_reserves :
    let st := (({} : LunState).apply scsiHost (.register 0 5 false none)).2.apply nvmeHost (.register 0 6 false none)
    st.2.reservation = none ∧ (st.2.apply nvmeHost (.preempt 6 5 1)).1 = .good ∧
      (st.2.apply nvmeHost (.preempt 6 5 1)).2.reservation = some ⟨nvmeHost, 6, .writeExclusive⟩ := by
  decide +kernel

end LunState
end Thur

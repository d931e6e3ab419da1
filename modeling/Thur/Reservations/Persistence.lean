import Thur.Reservations.Manager
/-!
# Persistence — the summary flag and the persistence file follow the state

The lock-free flag the access checks look at first agrees with the states after every section of every mutation
(`access_check_exact`). The file holds the eligible units as they were before the mutation in flight, so an answer other
than GOOD has changed nothing and a restart loads what was acknowledged.
-/
namespace Thur

open SortedMap Machine

namespace ReservationManager

variable {persist : Option EntityResolver} {m m' : ReservationManager} {r : EntityResolver}
  {outcome : Option PrOutOutcome} {req : ReservationRequest} {acts : List ManagerAct}

/-! ## Maps that differ by an entry in the default state -/

theorem anyReserved_iff (map : SortedMap Lun LunState) :
    anyReserved map = true ↔ ∃ lun st, map.get lun = some st ∧ st.reservation.isSome = true := any_iff map _

theorem anyReserved_insert_state (m : ReservationManager) (lun : Lun) :
    anyReserved (m.byLun.insert lun (m.state lun)) = anyReserved m.byLun := by
  rw [Bool.eq_iff_iff, anyReserved_iff, anyReserved_iff]
  constructor
  · rintro ⟨lun', st, hget, hr⟩
    rw [get_insert] at hget
    split at hget
    · cases hget
      unfold state at hr
      cases hg : m.byLun.get lun with
      | none =>
        rw [hg] at hr
        cases hr
      | some st =>
        rw [hg] at hr
        exact ⟨lun, st, hg, hr⟩
    · exact ⟨lun', st, hget, hr⟩
  · rintro ⟨lun', st, hget, hr⟩
    refine ⟨lun', st, ?_, hr⟩
    rw [get_insert]
    split
    · next he =>
      unfold state
      rw [← he, hget]
      rfl
    · exact hget

theorem rollback_insert (map snapshot : SortedMap Lun LunState) (lun : Lun) (st : LunState) :
    rollback (map.insert lun st) ⟨lun, map.get lun, snapshot⟩ = map := by
  refine ext_get fun k => ?_
  unfold rollback
  cases hget : map.get lun with
  | none =>
    rw [get_erase, get_insert]
    by_cases hk : k = lun
    · rw [if_pos hk, hk, hget]
    · rw [if_neg hk, if_neg hk]
  | some st' =>
    rw [get_insert, get_insert]
    by_cases hk : k = lun
    · rw [if_pos hk, hk, hget]
    · rw [if_neg hk, if_neg hk]

theorem state_insert (m m' : ReservationManager) (lun lun' : Lun) (st : LunState) (h : m'.byLun = m.byLun.insert lun st) :
    m'.state lun' = if lun' = lun then st else m.state lun' := by
  unfold state
  rw [h, get_insert]
  split <;> rfl

theorem state_insert_state (m m' : ReservationManager) (lun lun' : Lun) (h : m'.byLun = m.byLun.insert lun (m.state lun)) :
    m'.state lun' = m.state lun' := by
  rw [state_insert m m' lun lun' _ h]
  split
  · next he => rw [he]
  · rfl

/-! ## The flag -/

def Flagged (m : ReservationManager) : Prop := m.anyReservation = anyReserved m.byLun

theorem flagged_store (m : ReservationManager) (map : SortedMap Lun LunState) : (m.store map).Flagged := rfl

theorem flagged_loadFrom (persist : Option EntityResolver) (file : Option PersistedFile) :
    (loadFrom persist file).Flagged := by
  cases persist <;> rfl

theorem Flagged.begins (h : m.Flagged)
    (hb : Begins persist m req m' outcome) : m'.Flagged := by
  cases hb with
  | rejected => exact h
  | refused => exact h.trans (anyReserved_insert_state m req.lun).symm
  | done | writing => exact flagged_store m _

theorem Flagged.purgeLun (h : m.Flagged) (lun : Lun) (persisted : Bool) :
    (m.purgeLun persist lun persisted).Flagged := by
  unfold ReservationManager.purgeLun
  split
  · exact h
  · dsimp only
    split
    · exact flagged_store m _
    · exact flagged_store m _

theorem Flagged.step {a : ManagerAct} (h : m.Flagged) (hm : Moves persist m a m') : m'.Flagged := by
  cases hm with
  | request req m' outcome hidle _ hb => exact h.begins hb
  | written => exact h
  | rolledBack => exact flagged_store m _
  | purged lun persisted => exact h.purgeLun lun persisted
  | restart => exact flagged_loadFrom persist m.file

theorem flagged_run {file : Option PersistedFile}
    (hrun : (machine persist).run (loadFrom persist file) acts = some m) : m.Flagged :=
  run_inv' _ (fun _ _ _ h hs => h.step (machine_moves hs)) (flagged_loadFrom persist file) hrun

theorem state_reservation_none (h : anyReserved m.byLun = false) (lun : Lun) : (m.state lun).reservation = none := by
  unfold state
  cases hget : m.byLun.get lun with
  | none => rfl
  | some st =>
    by_contra hr
    have := (anyReserved_iff m.byLun).2 ⟨lun, st, hget, Option.isSome_iff_ne_none.2 hr⟩
    rw [h] at this
    cases this

theorem Flagged.allowRead (h : m.Flagged) (lun : Lun) (id : RegistrantId) :
    m.allowRead lun id = (m.state lun).readAllowed id := by
  rw [← checkRead_eq]
  unfold ReservationManager.allowRead
  split
  · next hf =>
    rw [checkRead_eq, LunState.readAllowed, state_reservation_none (h.symm.trans hf)]
  · rfl

theorem Flagged.allowWrite (h : m.Flagged) (lun : Lun) (id : RegistrantId) :
    m.allowWrite lun id = (m.state lun).writeAllowed id := by
  rw [← checkWrite_eq]
  unfold ReservationManager.allowWrite
  split
  · next hf =>
    rw [checkWrite_eq, LunState.writeAllowed, state_reservation_none (h.symm.trans hf)]
  · rfl

/-- **The lock-free access check is exact**, after any sections of any mutations, failed writes, purges and restarts. -/
theorem access_check_exact (persist : Option EntityResolver) (file : Option PersistedFile) (acts : List ManagerAct)
    (m : ReservationManager) (hrun : (machine persist).run (loadFrom persist file) acts = some m) (lun : Lun)
    (id : RegistrantId) :
    m.allowRead lun id = m.checkRead lun id ∧ m.allowWrite lun id = m.checkWrite lun id := by
  have h := flagged_run hrun
  rw [checkRead_eq, checkWrite_eq]
  exact ⟨h.allowRead lun id, h.allowWrite lun id⟩

theorem access_check_exact_reserveRun :
    ∃ m, (machine (some .lunIdentity)).run (loadFrom (some .lunIdentity) none) reserveRun = some m ∧
      m.allowWrite 0 nvmeHost = m.checkWrite 0 nvmeHost ∧ m.allowWrite 0 nvmeHost = false :=
  ends_of (·.allowWrite 0 nvmeHost = false) (by decide +kernel) fun m hm h =>
    ⟨(access_check_exact _ none reserveRun m hm 0 nvmeHost).2, h⟩

/-! ## The file -/

section

variable (r : EntityResolver) (map : SortedMap Lun LunState)

def recorded : SortedMap Lun LunState :=
  map.filter fun lun st => st.persistEligible && (r.uuidForLun lun).isSome

def committed (m : ReservationManager) : SortedMap Lun LunState :=
  match m.mutating with
  | none => m.byLun
  | some mu => rollback m.byLun mu

theorem get_recorded (lun : Lun) :
    (recorded r map).get lun = (map.get lun).filter (fun st => st.persistEligible && (r.uuidForLun lun).isSome) :=
  get_filter map _ lun

theorem recorded_recorded :
    recorded r (recorded r map) = recorded r map := by
  refine ext_get fun lun => ?_
  rw [get_recorded, get_recorded]
  cases map.get lun with
  | none => rfl
  | some st => cases h : (st.persistEligible && (r.uuidForLun lun).isSome) <;> simp [Option.filter, h]

end

theorem recorded_insert (r : EntityResolver) (m : ReservationManager) (lun : Lun) (st : LunState)
    (h : (m.state lun).persistEligible = false) (hst : st.persistEligible = false) :
    recorded r (m.byLun.insert lun st) = recorded r m.byLun := by
  refine ext_get fun k => ?_
  rw [get_recorded, get_recorded, get_insert]
  split
  · next hk =>
    subst hk
    rw [← any_persistEligible] at h
    cases hget : m.byLun.get k with
    | none => simp [Option.filter, hst]
    | some st' =>
      rw [hget, Option.any_some] at h
      simp [Option.filter, hst, h]
  · rfl

theorem recorded_insert_state (r : EntityResolver) (m : ReservationManager) (lun : Lun) :
    recorded r (m.byLun.insert lun (m.state lun)) = recorded r m.byLun := by
  refine ext_get fun k => ?_
  rw [get_recorded, get_recorded, get_insert]
  split
  · next hk =>
    subst hk
    unfold state
    cases hget : m.byLun.get k with
    | none | some st' => rfl
  · rfl

/-- The file holds what was acknowledged; a write in flight writes the state in memory. -/
structure Recorded (r : EntityResolver) (m : ReservationManager) : Prop where
  file : loadFile r m.file = recorded r m.committed
  snapshot : ∀ mu, m.mutating = some mu → mu.snapshot = m.byLun

theorem committed_idle (h : m.mutating = none) : m.committed = m.byLun := by
  unfold committed
  rw [h]

theorem committed_writing (m : ReservationManager) (lun : Lun) (st : LunState) :
    committed { m.store (m.byLun.insert lun st) with
      mutating := some ⟨lun, m.byLun.get lun, m.byLun.insert lun st⟩ } = m.byLun :=
  rollback_insert m.byLun _ lun st

theorem Recorded.begins (h : Recorded r m)
    (hidle : m.mutating = none) (hb : Begins (some r) m req m' outcome) : Recorded r m' := by
  have hfile := h.file
  rw [committed_idle hidle] at hfile
  cases hb with
  | rejected => exact h
  | refused =>
    refine ⟨?_, fun mu hmu => h.snapshot mu hmu ▸ absurd (hidle.symm.trans hmu) (by simp)⟩
    rw [committed_idle (by exact hidle)]
    exact hfile.trans (recorded_insert_state r m req.lun).symm
  | done op st hdec hout hold =>
    refine ⟨?_, fun mu hmu => absurd (hidle.symm.trans hmu) (by simp)⟩
    rw [committed_idle (by exact hidle)]
    exact hfile.trans (recorded_insert r m req.lun st (hold rfl).1 (hold rfl).2).symm
  | writing =>
    refine ⟨?_, fun mu hmu => ?_⟩
    · rw [committed_writing]
      exact hfile
    · cases hmu
      rfl

theorem Recorded.step (hr : r.Bijective) {a : ManagerAct} (h : Recorded r m) (ha : ∀ lun, a ≠ .purgeLun lun false)
    (hm : Moves (some r) m a m') : Recorded r m' := by
  cases hm with
  | request req m' outcome hidle _ hb => exact h.begins hidle hb
  | written mu hmu =>
    refine ⟨?_, fun _ h' => by cases h'⟩
    rw [committed_idle rfl]
    refine (loadFile_persistToDisk hr mu.snapshot).trans ?_
    rw [h.snapshot mu hmu]
    rfl
  | rolledBack mu hmu =>
    refine ⟨?_, fun _ h' => by cases h'⟩
    have hfile := h.file
    unfold committed at hfile
    rw [hmu] at hfile
    rw [committed_idle rfl]
    exact hfile
  | purged lun persisted hidle =>
    unfold purgeLun
    split
    · exact h
    · cases persisted with
      | false => exact absurd rfl (ha lun)
      | true =>
        rw [if_pos ⟨rfl, rfl⟩]
        refine ⟨?_, fun mu hmu => absurd (hidle.symm.trans hmu) (by simp)⟩
        rw [committed_idle (by exact hidle)]
        exact loadFile_persistToDisk hr _
  | restart =>
    refine ⟨?_, fun _ h' => by cases h'⟩
    have hfile := h.file
    rw [committed_idle rfl]
    unfold loadFrom
    dsimp only
    rw [hfile, recorded_recorded]

theorem recorded_run (hr : r.Bijective) (hacts : ∀ a ∈ acts, ∀ lun, a ≠ .purgeLun lun false)
    (hrun : (machine (some r)).run (loadFrom (some r) none) acts = some m) : Recorded r m := by
  have h0 : Recorded r (loadFrom (some r) none) := ⟨rfl, fun _ h => by cases h⟩
  exact run_inv _ (fun _ _ _ h ha hs => h.step hr ha (machine_moves hs)) h0 (meets_of_forall _ hacts) hrun

/-! ## Answers other than GOOD -/

theorem serve_run (persist : Option EntityResolver) (hidle : m.mutating = none) (req : ReservationRequest)
    (persisted : Bool) : (m.serve persist req persisted).1.mutating = none ∧
      ∃ acts, (machine persist).run m acts = some (m.serve persist req persisted).1 := by
  have hstep : (machine persist).step m (.request req) = some (m.begin persist req).1 := by
    simp [machine, step, hidle]
  have hb := begin_begins persist m req
  unfold serve
  generalize m.begin persist req = x at hb hstep ⊢
  obtain ⟨m', outcome⟩ := x
  dsimp only at hb hstep ⊢
  have hone := (run_singleton (machine persist) m (.request req)).trans hstep
  cases hb with
  | rejected | refused | done => exact ⟨hidle, _, hone⟩
  | writing =>
    refine ⟨by cases persisted <;> rfl, [.request req, .persisted persisted], ?_⟩
    rw [run_cons, hstep, Option.bind_some, run_singleton]
    rfl

theorem serve_not_good (h : m.Flagged) (req : ReservationRequest) (persisted : Bool)
    (hbad : (m.serve persist req persisted).2 ≠ .good) :
    (∀ lun, (m.serve persist req persisted).1.state lun = m.state lun) ∧ (m.serve persist req persisted).1.Flagged := by
  have hb := begin_begins persist m req
  unfold serve at hbad ⊢
  generalize m.begin persist req = x at hb hbad ⊢
  obtain ⟨m', outcome⟩ := x
  dsimp only at hb hbad ⊢
  cases hb with
  | rejected => exact ⟨fun _ => rfl, h⟩
  | refused op outcome hdec hout _ =>
    exact ⟨fun lun => state_insert_state m _ req.lun lun rfl, h.trans (anyReserved_insert_state m req.lun).symm⟩
  | done => exact absurd rfl hbad
  | writing op st =>
    cases persisted with
    | true => exact absurd rfl hbad
    | false =>
      refine ⟨fun lun => ?_, rfl⟩
      have hmap : (finishMutate persist { m.store (m.byLun.insert req.lun st) with
          mutating := some ⟨req.lun, m.byLun.get req.lun, m.byLun.insert req.lun st⟩ }
          ⟨req.lun, m.byLun.get req.lun, m.byLun.insert req.lun st⟩ false).1.byLun = m.byLun :=
        rollback_insert m.byLun _ req.lun st
      unfold state
      rw [hmap]

/-- **Persist before acknowledge**: an answer other than GOOD leaves every query as it was, and a restart yields a
unit's state if its persist flag is set, else the default. -/
theorem persist_before_ack (persist : Option EntityResolver) (acts : List ManagerAct) (m : ReservationManager)
    (hrun : (machine persist).run (loadFrom persist none) acts = some m) (hidle : m.mutating = none) :
    (∀ req persisted, (m.serve persist req persisted).2 ≠ .good → ∀ lun,
      (m.serve persist req persisted).1.snapshot lun = m.snapshot lun ∧
      (∀ serviceAction, (m.serve persist req persisted).1.prin persist lun serviceAction =
        m.prin persist lun serviceAction) ∧
      ∀ id, (m.serve persist req persisted).1.allowRead lun id = m.allowRead lun id ∧
        (m.serve persist req persisted).1.allowWrite lun id = m.allowWrite lun id) ∧
    ∀ r, persist = some r → r.Bijective → (∀ a ∈ acts, ∀ lun, a ≠ .purgeLun lun false) →
      ∀ lun, (r.uuidForLun lun).isSome →
        ((m.state lun).aptpl = true →
          ((loadFrom persist m.file).state lun).registrations = (m.state lun).registrations ∧
          ((loadFrom persist m.file).state lun).reservation = (m.state lun).reservation) ∧
        ((m.state lun).aptpl = false → (loadFrom persist m.file).state lun = {}) := by
  constructor
  · intro req persisted hbad lun
    have h := flagged_run hrun
    obtain ⟨hstate, h'⟩ := serve_not_good h req persisted hbad
    refine ⟨?_, fun serviceAction => ?_, fun id => ⟨?_, ?_⟩⟩
    · rw [snapshot_eq, snapshot_eq, hstate]
    · rw [prin_eq, prin_eq, hstate]
    · rw [h'.allowRead, h.allowRead, hstate]
    · rw [h'.allowWrite, h.allowWrite, hstate]
  · rintro r rfl hr hacts lun hlive
    have h := (recorded_run hr hacts hrun).file
    rw [committed_idle hidle] at h
    have hstate : (loadFrom (some r) m.file).state lun = ((m.byLun.get lun).filter (·.persistEligible)).getD {} := by
      unfold loadFrom state
      dsimp only
      rw [h, get_recorded, hlive]
      simp only [Bool.and_true]
    rw [hstate]
    unfold state
    cases hget : m.byLun.get lun with
    | none => exact ⟨fun hp => (by cases hp), fun _ => rfl⟩
    | some st =>
      simp only [Option.getD_some]
      refine ⟨fun hp => ?_, fun hp => ?_⟩
      · cases he : st.persistEligible with
        | true => simp [Option.filter, he]
        | false =>
          -- a unit that asked for persistence and has no record has nothing to record
          have hnothing := he
          unfold LunState.persistEligible at hnothing
          rw [hp, Bool.true_and, Bool.or_eq_false_iff, Bool.not_eq_false', Option.isSome_eq_false_iff,
            Option.isNone_iff_eq_none] at hnothing
          have hregs : st.registrations = ∅ := SortedMap.ext_get ((SortedMap.isEmpty_iff _).1 hnothing.1)
          simp [Option.filter, he, hregs, hnothing.2]
      · have he : st.persistEligible = false := by simp [LunState.persistEligible, hp]
        simp [Option.filter, he]

theorem persist_before_ack_reserveRun :
    ∃ m, (machine (some .lunIdentity)).run (loadFrom (some .lunIdentity) none) reserveRun = some m ∧
      (m.serve (some .lunIdentity) nvmeRegister false).2 = .persistFailed ∧
      (m.serve (some .lunIdentity) nvmeRegister false).1.snapshot 0 = m.snapshot 0 ∧
      ((loadFrom (some .lunIdentity) m.file).state 0).reservation = some ⟨scsiHost, 5, .writeExclusive⟩ := by
  obtain ⟨m, hm, hidle, hfailed, haptpl, hres⟩ :
      ∃ m ∈ (machine (some .lunIdentity)).run (loadFrom (some .lunIdentity) none) reserveRun, m.mutating = none ∧
      (m.serve (some .lunIdentity) nvmeRegister false).2 = .persistFailed ∧ (m.state 0).aptpl = true ∧
      (m.state 0).reservation = some ⟨scsiHost, 5, .writeExclusive⟩ := by decide +kernel
  obtain ⟨hqueries, hrestart⟩ := persist_before_ack _ reserveRun m hm hidle
  refine ⟨m, hm, hfailed, (hqueries nvmeRegister false (by rw [hfailed]; simp) 0).1, ?_⟩
  have hnopurge : ∀ a ∈ reserveRun, ∀ lun, a ≠ .purgeLun lun false := by
    intro a ha lun hpurge
    subst hpurge
    simp [reserveRun] at ha
  exact ((hrestart _ rfl EntityResolver.lunIdentity_bijective hnopurge 0 rfl).1 haptpl).2.trans hres

end ReservationManager
end Thur

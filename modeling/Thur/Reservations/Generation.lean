import Thur.Reservations.Fencing
/-!
# Generation — what the PR generation tells a host

A host that reads the same PR generation twice takes the registrations for unchanged.  What changes them moves the
generation on, and a failed write takes both back.
-/
namespace Thur

namespace LunState

variable {st0 st st' : LunState} {n : Nat}

/-- At most `n` changes lead from `st0` to `st`, and the 32-bit generation counts them. -/
def Since (st0 : LunState) (n : Nat) (st : LunState) : Prop :=
  ∃ j ≤ n, st.generation = st0.generation + UInt32.ofNat j ∧ (j = 0 → st.registrations = st0.registrations)

theorem Since.succ (h : Since st0 n st) : Since st0 (n + 1) st := by
  obtain ⟨j, hj, hgen, hreg⟩ := h
  exact ⟨j, by omega, hgen, hreg⟩

theorem Since.change {id : RegistrantId} {op : ReservationOp} (h : Since st0 n st) (hc : Change st id op st') :
    Since st0 (n + 1) st' := by
  obtain ⟨j, hj, hgen, hreg⟩ := h
  have hbump : st'.generation = st.generation + 1 → Since st0 (n + 1) st' := by
    intro hg
    refine ⟨j + 1, by omega, ?_, fun h0 => by omega⟩
    rw [hg, hgen, UInt32.ofNat_add, UInt32.add_assoc]
    rfl
  cases hc with
  | reserve | reserved | release | released => exact ⟨j, by omega, hgen, hreg⟩
  | register | unregister | clear | takeover | preempt => exact hbump rfl

end LunState

open LunState (Since)

namespace ReservationManager

variable {persist : Option EntityResolver} {m m' : ReservationManager} {lun : Lun} {st0 : LunState} {n : Nat}

/-- As the unit is, and as a failed write would leave it. -/
def UnitSince (lun : Lun) (st0 : LunState) (n : Nat) (m : ReservationManager) : Prop :=
  Since st0 n (m.state lun) ∧ Since st0 n (m.committedState lun)

theorem unitSince_idle (hidle : m.mutating = none) (h : Since st0 n (m.state lun)) : UnitSince lun st0 n m :=
  ⟨h, (committedState_idle hidle lun).symm ▸ h⟩

theorem state_purgeLun (persist : Option EntityResolver) (m : ReservationManager) {lun' : Lun} (persisted : Bool)
    (hne : lun ≠ lun') : (m.purgeLun persist lun' persisted).mutating = m.mutating ∧
      (m.purgeLun persist lun' persisted).state lun = m.state lun := by
  have herase : ((m.byLun.erase lun').get lun).getD {} = m.state lun := by
    rw [SortedMap.get_erase, if_neg hne]
    rfl
  unfold purgeLun
  split
  · exact ⟨rfl, rfl⟩
  · dsimp only
    split
    · exact ⟨rfl, herase⟩
    · exact ⟨rfl, herase⟩

theorem unitSince_step {a : ManagerAct} (h : UnitSince lun st0 n m) (hop : a ≠ .restart ∧ ∀ p, a ≠ .purgeLun lun p)
    (hm : Moves persist m a m') : UnitSince lun st0 (n + 1) m' := by
  cases hm with
  | request req m' outcome hidle hbegin hb =>
    have hnext : ∀ {op st} (m1 : ReservationManager), (m.state req.lun).apply req.issuer op = (.good, st) →
        m1.byLun = m.byLun.insert req.lun st → Since st0 (n + 1) (m1.state lun) := by
      intro op st m1 hout hins
      rw [state_insert m m1 req.lun lun st hins]
      split
      · next hl => exact Since.change (hl ▸ h.1) (change_of_apply hout)
      · exact h.1.succ
    cases hb with
    | rejected => exact unitSince_idle hidle h.1.succ
    | refused =>
      refine unitSince_idle hidle ?_
      rw [state_insert_state m _ req.lun lun rfl]
      exact h.1.succ
    | done op st hdec hout => exact unitSince_idle hidle (hnext _ hout rfl)
    | writing op st hdec hout hp =>
      refine ⟨hnext _ hout rfl, ?_⟩
      rw [committedState_writing]
      exact h.1.succ
  | written => exact unitSince_idle rfl h.1.succ
  | rolledBack mu hmu =>
    -- the change is taken back with its generation
    refine unitSince_idle rfl ?_
    have hc := h.2
    rw [committedState_mutating hmu] at hc
    exact hc.succ
  | purged lun' persisted hidle =>
    have hne : lun ≠ lun' := fun heq => hop.2 persisted (by rw [heq])
    obtain ⟨hmut, hstate⟩ := state_purgeLun persist m persisted hne
    exact unitSince_idle (hmut.trans hidle) (hstate.symm ▸ h.1.succ)
  | restart => exact absurd rfl hop.1

/-- **The same generation means the same registrations**, between restarts and purges, while the 32-bit counter cannot
have come round. -/
theorem same_generation_same_registrations (persist : Option EntityResolver) {acts : List ManagerAct}
    (hidle : m.mutating = none) (hrun : (machine persist).run m acts = some m')
    (hacts : ∀ a ∈ acts, a ≠ .restart ∧ ∀ p, a ≠ .purgeLun lun p) (hlen : acts.length < 4294967296)
    (hgen : (m'.snapshot lun).generation = (m.snapshot lun).generation) :
    (m'.snapshot lun).registrants = (m.snapshot lun).registrants := by
  have hstart : UnitSince lun (m.state lun) 0 m :=
    unitSince_idle hidle ⟨0, Nat.le_refl 0, (UInt32.add_zero _).symm, fun _ => rfl⟩
  have hend : UnitSince lun (m.state lun) acts.length m' := by
    refine (machine persist).run_inv_history (P := fun as => UnitSince lun (m.state lun) as.length)
      (fun as s a s' _ h hok hs => ?_) hstart ((machine persist).meets_of_forall hacts) hrun
    rw [List.length_append]
    exact unitSince_step h hok (machine_moves hs)
  obtain ⟨j, hj, hcount, hreg⟩ := hend.1
  rw [snapshot_eq, snapshot_eq] at hgen ⊢
  have hzero : UInt32.ofNat j = 0 := by
    have hback : (m.state lun).generation + UInt32.ofNat j = (m.state lun).generation := hcount.symm.trans hgen
    simpa using hback
  -- too few steps for the counter to come round
  have hj0 : j = 0 := by
    have := congrArg UInt32.toNat hzero
    rw [UInt32.toNat_ofNat_of_lt' (Nat.lt_of_le_of_lt hj hlen)] at this
    exact this
  exact congrArg SortedMap.entries (hreg hj0)

/-- A registration whose write failed, and a RESERVE that is refused for it. -/
theorem same_generation_same_registrations_failedWrite : ∃ m : ReservationManager,
    (machine (some .lunIdentity)).run (loadFrom (some .lunIdentity) none)
      [.request scsiRegister, .persisted false, .request scsiReserve] = some m ∧
    (m.snapshot 0).registrants = ((loadFrom (some .lunIdentity) none).snapshot 0).registrants :=
  Machine.ends_of (fun m => (m.snapshot 0).generation = 0) (by decide +kernel) fun _ hm hgen =>
    same_generation_same_registrations _ rfl hm (by simp) (by simp) hgen

end ReservationManager
end Thur

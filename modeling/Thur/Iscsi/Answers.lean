import Thur.Iscsi.Order
/-!
# Answers — what a connection answers, and under which StatSN

A status uses up a StatSN when it is handed to the writer.  Any worker, or the router, may emit next: the numbers are
consecutive all the same.  A call of the handler is with one worker until one message answers it, under the task tag of
its command.
-/
namespace Thur.Iscsi

open Function OutPdu

/-- An R2T only shows the next StatSN. -/
def WriterMsg.serial : WriterMsg → Option UInt32
  | .pdu p => if p.opcode = 0x31 then none else some p.statSn
  | .dataIn job => some job.statsn

namespace Ffp

variable {cfg : FfpConfig} {s s' : Ffp} {lun : UInt64} {job : LuJob} {k : Nat} {first : UInt32} {acts : List FfpAct}

def serials (s : Ffp) : List UInt32 := s.sent.filterMap fun m => m.msg.serial

/-- The call that the worker of a logical unit is to answer. -/
def callAt (s : Ffp) (lun : UInt64) : Option (LuJob × Nat) := (s.workers.lookup lun).bind fun w => w.stage.call

/-- Numbers are consecutive; a call not yet answered is with one worker, an answered one was answered once. -/
structure AnswerInv (cfg : FfpConfig) (first : UInt32) (s : Ffp) : Prop where
  alive : s.writerAlive = true
  next : s.statsn cfg = first + UInt32.ofNat s.serials.length
  serials : s.serials = (List.range s.serials.length).map fun i => first + UInt32.ofNat i
  held : ∀ lun job k, s.callAt lun = some (job, k) → (∃ d, s.dispatched[k]? = some d ∧ d.pdu = job.pdu) ∧
    (∀ m ∈ s.sent, m.call ≠ some k) ∧ ∀ lun' job', s.callAt lun' = some (job', k) → lun' = lun
  answers : ∀ m ∈ s.sent, ∀ k, m.call = some k →
    ∃ d, s.dispatched[k]? = some d ∧ ∀ p ∈ m.msg.pdus, p.itt = d.pdu.itt
  once : (s.sent.filterMap Sent.call).Nodup
  kept : ∀ k < s.dispatched.length, k ∈ s.sent.filterMap Sent.call ∨ ∃ lun job, s.callAt lun = some (job, k)

namespace AnswerInv

section

variable (h : AnswerInv cfg first s) (halive : s'.writerAlive = s.writerAlive)
include h halive

theorem quiet (hd : s'.dispatched = s.dispatched) (hsent : s'.sent = s.sent) (hsn : s'.statsn cfg = s.statsn cfg)
    (hc : s'.callAt = s.callAt) : AnswerInv cfg first s' := by
  have hser : s'.serials = s.serials := by rw [Ffp.serials, hsent]; rfl
  refine ⟨halive.trans h.alive, by rw [hser, hsn, h.next], by rw [hser]; exact h.serials, ?_, ?_, ?_, ?_⟩
  · rw [hd, hsent, hc]
    exact h.held
  · rw [hd, hsent]
    exact h.answers
  · rw [hsent]
    exact h.once
  · rw [hd, hsent, hc]
    exact h.kept

/-- The new call is numbered by its place, so no message and no worker has that number yet. -/
theorem called {data : Bytes} (hd : s'.dispatched = s.dispatched ++ [⟨lun, job.pdu, data⟩]) (hsent : s'.sent = s.sent)
    (hsn : s'.statsn cfg = s.statsn cfg) (hnone : s.callAt lun = none)
    (hc : s'.callAt = update s.callAt lun (some (job, s.dispatched.length))) : AnswerInv cfg first s' := by
  have hser : s'.serials = s.serials := by rw [Ffp.serials, hsent]; rfl
  have hold : ∀ {k d}, s.dispatched[k]? = some d → s'.dispatched[k]? = some d ∧ k ≠ s.dispatched.length := by
    intro k d hk
    have hlt := (List.getElem?_eq_some_iff.1 hk).1
    rw [hd, List.getElem?_append_left hlt]
    exact ⟨hk, by omega⟩
  have hcase : ∀ {lun' job' k}, s'.callAt lun' = some (job', k) →
      (lun' = lun ∧ job' = job ∧ k = s.dispatched.length) ∨ s.callAt lun' = some (job', k) := by
    intro lun' job' k hk
    rw [hc, update_apply] at hk
    split at hk
    · next heq =>
      cases hk
      exact .inl ⟨heq, rfl, rfl⟩
    · exact .inr hk
  refine ⟨halive.trans h.alive, by rw [hser, hsn, h.next], by rw [hser]; exact h.serials, fun lun1 job1 k hk => ?_,
    fun m hm k hk => ?_, by rw [hsent]; exact h.once, fun k hk => ?_⟩
  · rw [hsent]
    rcases hcase hk with ⟨rfl, rfl, rfl⟩ | hk
    · refine ⟨⟨_, by rw [hd, List.getElem?_concat_length], rfl⟩, fun m hm hcall => ?_, fun lun2 job2 hk2 => ?_⟩
      · obtain ⟨d, hd', -⟩ := h.answers m hm _ hcall
        exact (hold hd').2 rfl
      · rcases hcase hk2 with ⟨heq, -⟩ | hk2
        · exact heq
        · obtain ⟨⟨d, hd', -⟩, -⟩ := h.held lun2 job2 _ hk2
          exact absurd rfl (hold hd').2
    · obtain ⟨⟨d, hd', hpdu⟩, hfree, hone⟩ := h.held lun1 job1 k hk
      refine ⟨⟨d, (hold hd').1, hpdu⟩, hfree, fun lun2 job2 hk2 => ?_⟩
      rcases hcase hk2 with ⟨-, -, heq⟩ | hk2
      · exact absurd heq (hold hd').2
      · exact hone lun2 job2 hk2
  · rw [hsent] at hm
    obtain ⟨d, hd', hitt⟩ := h.answers m hm k hk
    exact ⟨d, (hold hd').1, hitt⟩
  · rw [hsent, hc]
    rw [hd, List.length_append, List.length_singleton] at hk
    rcases Nat.lt_succ_iff_lt_or_eq.1 hk with hk | rfl
    · rcases h.kept k hk with hold | ⟨lun', job', hat⟩
      · exact .inl hold
      -- a worker that calls has no call to answer
      have hne : lun' ≠ lun := by
        rintro rfl
        rw [hnone] at hat
        cases hat
      exact .inr ⟨lun', job', by rw [update_of_ne hne, hat]⟩
    · exact .inr ⟨lun, job, update_self ..⟩

end

end AnswerInv

end Ffp
end Thur.Iscsi

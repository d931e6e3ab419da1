import Mathlib.Data.UInt
import Thur.Iscsi.Flow
/-!
# Order — in which order commands are dispatched

The commands for one logical unit pass through the router, the worker's queue and its stages in single file, so the
calls of the handler follow the order of admission. An admitted PDU that is not immediate has the CmdSN the connection
expected, or one of the 32 before it; the latter are let through a second time.
-/
namespace Thur.Iscsi

open List

/-! ## The CmdSN check -/

/-- **The verdicts** of the CmdSN check. -/
theorem checkCmdsn_cases (c : Connection) (cmdsn : UInt32) :
    (c.cmdSnInitialized = false ∧
      c.checkCmdsn cmdsn false = (.accept, { c with expCmdSn := cmdsn + 1, cmdSnInitialized := true })) ∨
    (c.cmdSnInitialized = true ∧ cmdsn = c.expCmdSn ∧
      c.checkCmdsn cmdsn false = (.accept, { c with expCmdSn := c.expCmdSn + 1 })) ∨
    (c.cmdSnInitialized = true ∧ cmdsn ≠ c.expCmdSn ∧ c.expCmdSn - cmdsn ≤ cmdsnWindow ∧
      c.checkCmdsn cmdsn false = (.duplicate, c)) ∨
    (c.cmdSnInitialized = true ∧ c.checkCmdsn cmdsn false = (.outOfWindow, c)) := by
  simp only [Connection.checkCmdsn, Bool.false_eq_true, if_false]
  cases hinit : c.cmdSnInitialized with
  | false => exact .inl ⟨rfl, rfl⟩
  | true =>
    simp only [Bool.not_true, Bool.false_eq_true, if_false]
    by_cases hahead : cmdsn - c.expCmdSn = 0
    · exact .inr (.inl ⟨trivial, sub_eq_zero.1 hahead, if_pos hahead⟩)
    · have hne : cmdsn ≠ c.expCmdSn := fun h => hahead (sub_eq_zero.2 h)
      rw [if_neg hahead]
      split
      · exact .inr (.inr (.inr ⟨trivial, rfl⟩))
      · split
        · next hbehind => exact .inr (.inr (.inl ⟨trivial, hne, hbehind, rfl⟩))
        · exact .inr (.inr (.inr ⟨trivial, rfl⟩))

namespace Admission

def verdict (a : Admission) : CmdSnVerdict := (a.before.checkCmdsn a.pdu.cmdsn a.pdu.immediate).1

def consumes (a : Admission) : Bool := !a.pdu.immediate && a.verdict == .accept

def Retransmitted (a : Admission) : Prop := a.pdu.opcode = 0x01 ∧ a.verdict = .duplicate
deriving Decidable

def Ahead (a : Admission) : Prop :=
  a.pdu.immediate = false ∧ a.before.cmdSnInitialized = true ∧ 0 < a.pdu.cmdsn - a.before.expCmdSn ∧
    a.pdu.cmdsn - a.before.expCmdSn < 0x80000000

theorem not_ahead_of_behind {x y : UInt32} (hne : x ≠ y) (h : y - x ≤ cmdsnWindow) : ¬ x - y < 0x80000000 := by
  have hne' : x.toNat ≠ y.toNat := fun h => hne (UInt32.toNat_inj.1 h)
  have hx := x.toNat_lt
  have hy := y.toNat_lt
  rw [UInt32.le_iff_toNat_le, UInt32.toNat_sub] at h
  rw [UInt32.lt_iff_toNat_lt, UInt32.toNat_sub]
  have h32 : cmdsnWindow.toNat = 32 := rfl
  have h31 : (0x80000000 : UInt32).toNat = 2147483648 := rfl
  omega

theorem not_ahead {a : Admission} (h : a.verdict ≠ .outOfWindow) : ¬ a.Ahead := by
  rintro ⟨himm, hinit, hpos, hlt⟩
  rw [verdict, himm] at h
  rcases checkCmdsn_cases a.before a.pdu.cmdsn with ⟨hi, -⟩ | ⟨-, heq, -⟩ | ⟨-, hne, hbehind, -⟩ | ⟨-, hout⟩
  · rw [hinit] at hi
    cases hi
  · rw [heq, sub_self] at hpos
    exact absurd hpos (UInt32.lt_irrefl 0)
  · exact not_ahead_of_behind hne hbehind hlt
  · rw [hout] at h
    exact h rfl

end Admission

/-! ## Single file -/

def commandTo (lun : UInt64) (p : Pdu) : Bool := p.opcode == 0x01 && decodeLun p.lun == lun

def Router.pendingFor (lun : UInt64) : Router → List Pdu
  | .checked r => if commandTo lun r.pdu then [r.pdu] else []
  | _ => []

namespace Ffp

def callsTo (s : Ffp) (lun : UInt64) : List Pdu := (s.dispatched.filter (fun d => d.lun == lun)).map Dispatch.pdu

def pendingAt (s : Ffp) (lun : UInt64) : List Pdu := ((s.workers.lookup lun).map LuWorker.pending).getD []

def pipeline (s : Ffp) (lun : UInt64) : List Pdu := s.callsTo lun ++ (s.pendingAt lun ++ s.router.pendingFor lun)

def commandsTo (s : Ffp) (lun : UInt64) : List Pdu := (s.admitted.map Admission.pdu).filter (commandTo lun)

variable {cfg : FfpConfig} {s s' : Ffp} {lun : UInt64} {w : LuWorker} {r : RoutedPdu} {acts : List FfpAct}

theorem pendingAt_of_lookup (h : s.workers.lookup lun = some w) : s.pendingAt lun = w.pending := by
  rw [pendingAt, h]
  rfl

theorem pendingAt_insert {lun0 : UInt64} (h : s'.workers = s.workers.insert lun0 w) (lun : UInt64) :
    s'.pendingAt lun = if lun = lun0 then w.pending else s.pendingAt lun := by
  rw [pendingAt, h]
  split
  · next heq =>
    subst heq
    rw [AList.lookup_insert]
    rfl
  · next hne =>
    rw [AList.lookup_insert_ne hne]
    rfl

theorem pipeline_idle (h : Idle s s') : (s'.pipeline lun).Sublist (s.pipeline lun) := by
  have hrouter : (s'.router.pendingFor lun).Sublist (s.router.pendingFor lun) := by
    rcases h.router with hr | hr
    · rw [hr]
    · rw [hr]
      exact nil_sublist _
  rw [pipeline, pipeline, callsTo, pendingAt, h.dispatched, h.workers]
  exact (Sublist.refl _).append ((Sublist.refl _).append hrouter)

theorem pipeline_took (h : Took cfg r s s') : s'.pipeline lun = s.pipeline lun ++ s'.router.pendingFor lun ∧
      s'.commandsTo lun = s.commandsTo lun ++ s'.router.pendingFor lun := by
  constructor
  · rw [pipeline, pipeline, callsTo, pendingAt, h.dispatched, h.workers, h.before, append_assoc]
    simp only [Router.pendingFor, append_nil]
    rfl
  · rw [commandsTo, commandsTo, h.admitted, h.router, map_append, filter_append]
    refine congrArg _ ?_
    simp only [Router.pendingFor, map_cons, map_nil, filter_cons, filter_nil]

theorem pipeline_routed (hr : s.router = .checked r) (hk : Routed s s') (h : RouteStep cfg r s s') :
    (s'.pipeline lun).Sublist (s.pipeline lun) := by
  have hnone : s'.router.pendingFor lun = [] := by
    rcases hk.router with hr' | hr' <;> rw [hr'] <;> rfl
  rw [pipeline, pipeline, hnone, callsTo, hk.dispatched]
  refine (Sublist.refl _).append ?_
  have hkeep : s'.workers = s.workers → (s'.pendingAt lun ++ []).Sublist (s.pendingAt lun ++ s.router.pendingFor lun) := by
    intro hw
    rw [pendingAt, hw]
    exact (Sublist.refl _).append (nil_sublist _)
  cases h with
  | answered p hp hw | dropped hw => exact hkeep hw
  | queued w hop htsih hw hw' hs =>
    rw [pendingAt_insert hw' lun, append_nil]
    split
    · next heq =>
      have hcmd : commandTo lun r.pdu = true := by
        rw [commandTo, hop, heq]
        simp
      have hpend : s.pendingAt lun = w.pending := by
        rw [pendingAt, heq]
        rcases hw with hw | ⟨hw, rfl⟩
        · rw [hw]
          rfl
        · rw [hw]
          rfl
      rw [hpend, hr, Router.pendingFor, if_pos hcmd]
      simp only [LuWorker.pending, map_append, map_cons, map_nil, append_assoc, luJob]
      exact Sublist.refl _
    · exact sublist_append_left _ _

theorem callsTo_append {d : Dispatch} (h : s'.dispatched = s.dispatched ++ [d]) (lun : UInt64) :
    s'.callsTo lun = s.callsTo lun ++ (if d.lun = lun then [d.pdu] else []) := by
  rw [callsTo, callsTo, h, filter_append, map_append]
  refine congrArg _ ?_
  by_cases heq : d.lun = lun
  · simp [heq]
  · simp [heq]

theorem pipeline_worked {lun0 : UInt64} (hw : s.workers.lookup lun0 = some w)
    (h : Works cfg lun0 w s s') : (s'.pipeline lun).Sublist (s.pipeline lun) := by
  obtain ⟨w', hb, hstep⟩ := h
  rw [pipeline, pipeline, hb.router, ← append_assoc, ← append_assoc]
  refine Sublist.append ?_ (Sublist.refl _)
  rw [pendingAt_insert hb.workers lun]
  -- unless the step is a call, the calls stay and the worker's own commands get fewer
  have hquiet : s'.dispatched = s.dispatched → w'.pending.Sublist w.pending →
      (s'.callsTo lun ++ if lun = lun0 then w'.pending else s.pendingAt lun).Sublist (s.callsTo lun ++ s.pendingAt lun) := by
    intro hd hp
    rw [callsTo, hd]
    refine (Sublist.refl _).append ?_
    split
    · next heq =>
      rw [heq, pendingAt_of_lookup hw]
      exact hp
    · exact Sublist.refl _
  cases hstep with
  | quiet hd hs hp | solicited job p hr2t hd hsent hsn hp | answered job call resp hst hd hsent hsn hp
  | lost hd halive hsent hp => exact hquiet hd hp
  | called job data hd hs hp =>
    rw [callsTo_append hd]
    by_cases heq : lun = lun0
    · subst heq
      rw [if_pos rfl, if_pos rfl, pendingAt_of_lookup hw, append_assoc]
      exact (Sublist.refl _).append hp
    · rw [if_neg heq, if_neg (Ne.symm heq), append_nil]

/-- Calls, waiting commands and what the router holds for a unit are, in this order, among those admitted for it. -/
def SingleFile (s : Ffp) : Prop := ∀ lun, (s.pipeline lun).Sublist (s.commandsTo lun)

theorem pipeline_sublist (cfg : FfpConfig) (maxRecv statsn : UInt32)
    (hrun : (serveConnection cfg).run (.start maxRecv statsn) acts = some s) : s.SingleFile := by
  refine (serveConnection cfg).run_inv' ?_ ?_ hrun
  · intro s a s' hinv hs lun
    cases serveConnection_step hs with
    | idle h =>
      have hc : s'.commandsTo lun = s.commandsTo lun := by rw [commandsTo, h.admitted]; rfl
      rw [hc]
      exact (pipeline_idle h).trans (hinv lun)
    | took r h =>
      rw [(pipeline_took h).1, (pipeline_took h).2]
      exact (hinv lun).append (Sublist.refl _)
    | routed r hr hk h =>
      have hc : s'.commandsTo lun = s.commandsTo lun := by rw [commandsTo, hk.admitted]; rfl
      rw [hc]
      exact (pipeline_routed hr hk h).trans (hinv lun)
    | worked lun0 w hw h =>
      have hc : s'.commandsTo lun = s.commandsTo lun := by
        obtain ⟨w', hb, -⟩ := h
        rw [commandsTo, hb.admitted]
        rfl
      rw [hc]
      exact (pipeline_worked hw h).trans (hinv lun)
  · intro lun
    exact Sublist.refl _

/-! ## Numbers -/

def consumed (s : Ffp) : List Pdu := (s.admitted.filter Admission.consumes).map Admission.pdu

def Counts (s : Ffp) : Prop :=
  (s.conn.cmdSnInitialized = false ∧ s.consumed = []) ∨
    (s.conn.cmdSnInitialized = true ∧ ∃ first : UInt32, s.conn.expCmdSn = first + UInt32.ofNat s.consumed.length ∧
      ∀ i p, s.consumed[i]? = some p → p.cmdsn = first + UInt32.ofNat i)

theorem consumed_eq (h : s'.admitted = s.admitted) : s'.consumed = s.consumed := by rw [consumed, h]; rfl

theorem Counts.of_eq (h : s.Counts) (ha : s'.admitted = s.admitted) (hexp : s'.conn.expCmdSn = s.conn.expCmdSn)
    (hinit : s'.conn.cmdSnInitialized = s.conn.cmdSnInitialized) : s'.Counts := by
  rw [Counts, consumed_eq ha, hexp, hinit]
  exact h

theorem consumed_snoc {a : Admission} (h : s'.admitted = s.admitted ++ [a]) :
    s'.consumed = s.consumed ++ (if a.consumes then [a.pdu] else []) := by
  rw [consumed, consumed, h, filter_append, map_append]
  refine congrArg _ ?_
  cases hc : a.consumes with
  | true | false => simp [hc]

theorem ofNat_succ_add (x : UInt32) (n : Nat) : x + UInt32.ofNat n + 1 = x + UInt32.ofNat (n + 1) := by
  rw [UInt32.ofNat_add, add_assoc]
  rfl

theorem counts_snoc {first : UInt32} {p : Pdu} (hexp : p.cmdsn = first + UInt32.ofNat s.consumed.length)
    (hall : ∀ i q, s.consumed[i]? = some q → q.cmdsn = first + UInt32.ofNat i) :
    ∀ i q, (s.consumed ++ [p])[i]? = some q → q.cmdsn = first + UInt32.ofNat i := by
  intro i q hq
  rcases lt_trichotomy i s.consumed.length with hlt | rfl | hgt
  · rw [getElem?_append_left hlt] at hq
    exact hall i q hq
  · rw [getElem?_append_right (Nat.le_refl _), Nat.sub_self] at hq
    cases hq
    exact hexp
  · rw [getElem?_eq_none (by simp only [length_append, length_singleton]; omega)] at hq
    cases hq

theorem took_consumed (htsih : cfg.tsih ≠ 0) (h : Took cfg r s s') : (s'.conn = s.conn ∧ s'.consumed = s.consumed ∧
      (r.pdu.immediate = true ∨ s.conn.cmdSnInitialized = true)) ∨
    (r.pdu.immediate = false ∧ s'.consumed = s.consumed ++ [r.pdu] ∧ ((s.conn.cmdSnInitialized = false ∧
          s'.conn = { s.conn with expCmdSn := r.pdu.cmdsn + 1, cmdSnInitialized := true }) ∨
        (s.conn.cmdSnInitialized = true ∧ r.pdu.cmdsn = s.conn.expCmdSn ∧
          s'.conn = { s.conn with expCmdSn := s.conn.expCmdSn + 1 }))) := by
  obtain ⟨h0, -⟩ | ⟨-, hverdict, hconn⟩ := h.conn
  · exact absurd h0 htsih
  have hsnoc := consumed_snoc h.admitted
  have hcons : Admission.consumes ⟨s.conn, r.pdu⟩ = (!r.pdu.immediate &&
      (s.conn.checkCmdsn r.pdu.cmdsn r.pdu.immediate).1 == .accept) := rfl
  cases himm : r.pdu.immediate with
  | true =>
    rw [himm] at hconn hcons
    rw [hcons] at hsnoc
    exact .inl ⟨hconn, hsnoc.trans (append_nil _), .inl rfl⟩
  | false =>
    rw [himm] at hconn hverdict hcons
    rcases checkCmdsn_cases s.conn r.pdu.cmdsn with ⟨hi, heq⟩ | ⟨hi, hexp, heq⟩ | ⟨hi, -, -, heq⟩ | ⟨-, heq⟩
    · rw [heq] at hconn hcons
      rw [hcons] at hsnoc
      exact .inr ⟨rfl, hsnoc, .inl ⟨hi, hconn⟩⟩
    · rw [heq] at hconn hcons
      rw [hcons] at hsnoc
      exact .inr ⟨rfl, hsnoc, .inr ⟨hi, hexp, hconn⟩⟩
    · -- a late one uses up nothing
      rw [heq] at hconn hcons
      rw [hcons] at hsnoc
      exact .inl ⟨hconn, hsnoc.trans (append_nil _), .inr hi⟩
    · rw [heq] at hverdict
      exact absurd rfl hverdict

theorem counts_took (htsih : cfg.tsih ≠ 0) (hc : s.Counts) (h : Took cfg r s s') : s'.Counts := by
  rcases took_consumed htsih h with ⟨hconn, hsame, -⟩ | ⟨-, hone, ⟨hi, hconn⟩ | ⟨hi, hexp, hconn⟩⟩
  · rw [Counts, hsame, hconn]
    exact hc
  · -- the first one
    obtain ⟨-, hnil⟩ | ⟨ht, -⟩ := hc
    · rw [hnil, nil_append] at hone
      refine .inr ⟨by rw [hconn], r.pdu.cmdsn, by rw [hconn, hone]; rfl, fun i p hp => ?_⟩
      rw [hone] at hp
      cases i with
      | zero =>
        cases hp
        exact (add_zero _).symm
      | succ i => cases hp
    · rw [hi] at ht
      cases ht
  · -- the expected one
    obtain ⟨hf, -⟩ | ⟨-, first, hfirst, hall⟩ := hc
    · rw [hi] at hf
      cases hf
    · refine .inr ⟨by rw [hconn]; exact hi, first, ?_, ?_⟩
      · rw [hconn, hone, length_append, length_singleton, ← ofNat_succ_add, ← hfirst]
      · rw [hone]
        exact counts_snoc (by rw [← hfirst]; exact hexp) hall

/-! ## Dispatch -/

structure OrderInv (cfg : FfpConfig) (s : Ffp) : Prop where
  counts : cfg.tsih ≠ 0 → s.Counts
  verdicts : cfg.tsih ≠ 0 → ∀ a ∈ s.admitted, a.verdict ≠ .outOfWindow
  discovery : cfg.tsih = 0 → s.dispatched = [] ∧ ∀ lun, s.workers.lookup lun = none

theorem orderInv_step (cfg : FfpConfig) (s : Ffp) (a : FfpAct) (s' : Ffp) (hinv : OrderInv cfg s)
    (hs : (serveConnection cfg).step s a = some s') : OrderInv cfg s' := by
  cases serveConnection_step hs with
  | idle h _ =>
    refine ⟨fun ht => (hinv.counts ht).of_eq h.admitted ?_ ?_, fun ht => ?_, fun ht => ?_⟩
    · rw [h.conn]
    · rw [h.conn]
    · rw [h.admitted]
      exact hinv.verdicts ht
    · rw [h.dispatched, h.workers]
      exact hinv.discovery ht
  | took r h =>
    refine ⟨fun ht => counts_took ht (hinv.counts ht) h, fun ht a ha => ?_, fun ht => ?_⟩
    · rw [h.admitted] at ha
      rcases mem_append.1 ha with ha | ha
      · exact hinv.verdicts ht a ha
      · rw [mem_singleton] at ha
        subst ha
        obtain ⟨h0, -⟩ | ⟨-, hv, -⟩ := h.conn
        · exact absurd h0 ht
        · exact hv
    · rw [h.dispatched, h.workers]
      exact hinv.discovery ht
  | routed r hr hk h =>
    refine ⟨fun ht => (hinv.counts ht).of_eq hk.admitted hk.exp hk.init, fun ht => ?_, fun ht => ?_⟩
    · rw [hk.admitted]
      exact hinv.verdicts ht
    · rw [hk.dispatched]
      refine ⟨(hinv.discovery ht).1, ?_⟩
      cases h with
      | answered p hp hw | dropped hw =>
        rw [hw]
        exact (hinv.discovery ht).2
      | queued w hop htsih => exact absurd ht htsih
  | worked lun w hw h =>
    obtain ⟨w', hb, -⟩ := h
    refine ⟨fun ht => (hinv.counts ht).of_eq hb.admitted hb.exp hb.init, fun ht => ?_, fun ht => ?_⟩
    · rw [hb.admitted]
      exact hinv.verdicts ht
    · rw [(hinv.discovery ht).2 lun] at hw
      cases hw

theorem orderInv_run (cfg : FfpConfig) (maxRecv statsn : UInt32)
    (hrun : (serveConnection cfg).run (.start maxRecv statsn) acts = some s) : OrderInv cfg s := by
  refine (serveConnection cfg).run_inv' (orderInv_step cfg) ⟨fun _ => .inl ⟨rfl, rfl⟩, fun _ a ha => ?_, fun _ => ?_⟩ hrun
  · cases ha
  · exact ⟨rfl, fun _ => rfl⟩

theorem numbered_consumed (hv : ∀ a ∈ s.admitted, a.verdict ≠ .outOfWindow) (lun : UInt64) :
    ((s.admitted.filter (fun a => !a.pdu.immediate && commandTo lun a.pdu)).filter (fun a => ¬ a.Retransmitted)).map
      Admission.pdu = s.consumed.filter (commandTo lun) := by
  rw [consumed, filter_map, filter_filter, filter_filter]
  refine congrArg _ (filter_congr fun a ha => ?_)
  have hin := hv a ha
  rw [Bool.eq_iff_iff, Bool.and_eq_true, decide_eq_true_eq]
  simp only [Function.comp_apply, Admission.consumes, Admission.Retransmitted, commandTo, Bool.and_eq_true, beq_iff_eq,
    Bool.not_eq_true']
  -- of the two verdicts left, `duplicate` on a command is the retransmission
  cases hverdict : a.verdict with
  | outOfWindow => exact absurd hverdict hin
  | accept | duplicate => simp +contextual [and_comm]

def numberedCallsTo (s : Ffp) (lun : UInt64) : List Pdu := (s.callsTo lun).filter fun p => !p.immediate

theorem callsTo_sublist (hpipe : (s.pipeline lun).Sublist (s.commandsTo lun)) : (s.callsTo lun).Sublist (s.commandsTo lun) :=
  (sublist_append_left _ _).trans hpipe

/-- **Commands execute in order and at most once**: CmdSNs used up are consecutive, and each unit gets its own commands
in order, none ahead of the expected CmdSN; a retransmission is processed again. -/
theorem commands_in_order (cfg : FfpConfig) (maxRecv statsn : UInt32)
    (hrun : (serveConnection cfg).run (.start maxRecv statsn) acts = some s) :
    (cfg.tsih = 0 ∧ s.dispatched = []) ∨
      (∃ first : UInt32, ∀ i p, s.consumed[i]? = some p → p.cmdsn = first + UInt32.ofNat i) ∧
      (∀ lun, ∃ calls : List Admission, calls.Sublist s.admitted ∧ s.numberedCallsTo lun = calls.map Admission.pdu ∧
        ((calls.filter (fun a => ¬ a.Retransmitted)).map Admission.pdu).Sublist (s.consumed.filter (commandTo lun))) ∧
      ∀ d ∈ s.dispatched, ∃ a ∈ s.admitted, a.pdu = d.pdu ∧ ¬ a.Ahead := by
  have hinv := orderInv_run cfg maxRecv statsn hrun
  have hpipe := pipeline_sublist cfg maxRecv statsn hrun
  by_cases htsih : cfg.tsih = 0
  · exact .inl ⟨htsih, (hinv.discovery htsih).1⟩
  refine .inr ⟨?_, fun lun => ?_, fun d hd => ?_⟩
  · obtain ⟨-, hnil⟩ | ⟨-, first, -, hall⟩ := hinv.counts htsih
    · refine ⟨0, fun i p hp => ?_⟩
      rw [hnil] at hp
      cases hp
    · exact ⟨first, hall⟩
  · have hsub : (s.numberedCallsTo lun).Sublist ((s.commandsTo lun).filter (fun p => !p.immediate)) :=
      (callsTo_sublist (hpipe lun)).filter _
    rw [commandsTo, filter_map, filter_map, filter_filter] at hsub
    obtain ⟨calls, hcalls, heq⟩ := sublist_map_iff.1 hsub
    refine ⟨calls, hcalls.trans filter_sublist, heq, ?_⟩
    rw [← numbered_consumed (hinv.verdicts htsih) lun]
    exact (hcalls.filter _).map _
  · have hmem : d.pdu ∈ s.callsTo d.lun :=
      mem_map.2 ⟨d, mem_filter.2 ⟨hd, by simp⟩, rfl⟩
    have hcmd := (callsTo_sublist (hpipe d.lun)).subset hmem
    obtain ⟨a, ha, heq⟩ := mem_map.1 (mem_of_mem_filter hcmd)
    exact ⟨a, ha, heq, Admission.not_ahead (hinv.verdicts htsih a ha)⟩

def plainCommand (lun : UInt8) (cmdsn : UInt32) : Pdu :=
  ⟨0x01, false, 0x80, [0, lun, 0, 0, 0, 0, 0, 0], cmdsn, 0, cmdsn, replicate 16 0, []⟩

def plainSession : FfpConfig := ⟨1, 8192, 16777216, 131072, fun _ => []⟩

def arrive (p : Pdu) : List FfpAct := [.read p, .forward, .routerTake, .route]

def execute (lun : UInt64) : List FfpAct := [.workerTake lun, .workerReturn lun ⟨0, none, []⟩, .workerAnswer lun]

theorem commands_in_order_wrapping : ∃ s : Ffp,
    (serveConnection plainSession).run (.start 131072 1)
      (arrive (plainCommand 1 0xFFFFFFFF) ++ arrive (plainCommand 1 0) ++ execute 1 ++ execute 1 ++
        arrive (plainCommand 1 0) ++ execute 1) = some s ∧
    (s.numberedCallsTo 1).map Pdu.cmdsn = [0xFFFFFFFF, 0, 0] ∧
    ∃ calls : List Admission, s.numberedCallsTo 1 = calls.map Admission.pdu ∧
      ((calls.filter (fun a => ¬ a.Retransmitted)).map Admission.pdu).Sublist (s.consumed.filter (commandTo 1)) := by
  refine Machine.ends_of (fun s => (s.numberedCallsTo 1).map Pdu.cmdsn = [0xFFFFFFFF, 0, 0]) (by decide +kernel) ?_
  intro s hs hcalls
  refine ⟨hcalls, ?_⟩
  rcases commands_in_order plainSession 131072 1 hs with ⟨h0, -⟩ | ⟨-, hsub, -⟩
  · cases h0
  · obtain ⟨calls, -, heq, hin⟩ := hsub 1
    exact ⟨calls, heq, hin⟩

/-- **A retransmitted command is dispatched again**, after its successor. -/
theorem retransmission_dispatches_twice : ∃ s ∈ (serveConnection plainSession).run (.start 131072 1)
    (arrive (plainCommand 1 5) ++ execute 1 ++ arrive (plainCommand 1 6) ++ execute 1 ++ arrive (plainCommand 1 5) ++
      execute 1), (s.numberedCallsTo 1).map Pdu.cmdsn = [5, 6, 5] := by
  decide +kernel

end Ffp
end Thur.Iscsi

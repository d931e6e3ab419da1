import Thur.Iscsi.Transport
/-!
# Flow — what a step of a connection can do

A step of a worker (`WorkerStep`) makes no visible move, calls the handler, solicits data, answers, or loses its answer
to a writer that is gone; a step of the router (`RouteStep`) answers, hands a command on, or drops the PDU. Everything
else leaves the commands where they are (`Idle`).
-/
namespace Thur.Iscsi

/-! ## The commands a worker has -/

namespace Stage

def collecting : Stage → Option LuJob
  | .unsolicited job _ => some job
  | .soliciting job _ _ => some job
  | .solicited job _ _ _ _ => some job
  | _ => none

def call : Stage → Option (LuJob × Nat)
  | .dispatching job k => some (job, k)
  | .answering job (some k) _ => some (job, k)
  | _ => none

end Stage

def LuWorker.pending (w : LuWorker) : List Pdu := w.stage.collecting.toList.map LuJob.pdu ++ w.queue.map LuJob.pdu

/-! ## Emissions -/

namespace Ffp

variable {cfg : FfpConfig} {s s' : Ffp} {s1 : Ffp} {job : LuJob} {w0 : LuWorker}

structure Kept (s s' : Ffp) : Prop where
  admitted : s'.admitted = s.admitted
  dispatched : s'.dispatched = s.dispatched
  exp : s'.conn.expCmdSn = s.conn.expCmdSn
  init : s'.conn.cmdSnInitialized = s.conn.cmdSnInitialized
  alive : s'.writerAlive = s.writerAlive
  workers : s'.workers = s.workers
  router : s'.router = s.router

theorem Kept.refl (s : Ffp) : Kept s s := ⟨rfl, rfl, rfl, rfl, rfl, rfl, rfl⟩

theorem Kept.trans (h : Kept s s1) (h' : Kept s1 s') : Kept s s' :=
  ⟨h'.admitted.trans h.admitted, h'.dispatched.trans h.dispatched, h'.exp.trans h.exp, h'.init.trans h.init,
    h'.alive.trans h.alive, h'.workers.trans h.workers, h'.router.trans h.router⟩

structure Silent (cfg : FfpConfig) (s s' : Ffp) : Prop where
  sent : s'.sent = s.sent
  statsn : s'.statsn cfg = s.statsn cfg

theorem Silent.refl (s : Ffp) : Silent cfg s s := ⟨rfl, rfl⟩

theorem Silent.trans (h : Silent cfg s s1) (h' : Silent cfg s1 s') : Silent cfg s s' :=
  ⟨h'.sent.trans h.sent, h'.statsn.trans h.statsn⟩

theorem kept_dropRoute (cfg : FfpConfig) (s : Ffp) (itt : UInt32) :
    Kept s (s.dropRoute itt) ∧ Silent cfg s (s.dropRoute itt) :=
  ⟨⟨rfl, rfl, rfl, rfl, rfl, rfl, rfl⟩, rfl, rfl⟩

theorem kept_dropReceiver (cfg : FfpConfig) (s : Ffp) (job : LuJob) :
    Kept s (s.dropReceiver job) ∧ Silent cfg s (s.dropReceiver job) := by
  rw [dropReceiver]
  split
  · exact ⟨⟨rfl, rfl, rfl, rfl, rfl, rfl, rfl⟩, rfl, rfl⟩
  · exact ⟨Kept.refl s, Silent.refl s⟩

theorem kept_receive (cfg : FfpConfig) {p : Pdu} (h : s.receive job = some (p, s')) : Kept s s' ∧ Silent cfg s s' := by
  rw [receive] at h
  split at h
  · cases h
  split at h <;> cases h
  exact ⟨⟨rfl, rfl, rfl, rfl, rfl, rfl, rfl⟩, rfl, rfl⟩

theorem kept_allocStatsn (cfg : FfpConfig) (s : Ffp) : Kept s (s.allocStatsn cfg) ∧ (s.allocStatsn cfg).sent = s.sent ∧
    (s.allocStatsn cfg).statsn cfg = s.statsn cfg + 1 := by
  simp only [allocStatsn, statsn]
  split
  · exact ⟨⟨rfl, rfl, rfl, rfl, rfl, rfl, rfl⟩, rfl, rfl⟩
  · exact ⟨⟨rfl, rfl, rfl, rfl, rfl, rfl, rfl⟩, rfl, rfl⟩

theorem send_cases (cfg : FfpConfig) (s : Ffp) (m : WriterMsg) (call : Option Nat) :
    Kept s (s.send m call).1 ∧ (s.send m call).1.statsn cfg = s.statsn cfg ∧
      (((s.send m call).2 = true ∧ s.writerAlive = true ∧ (s.send m call).1.sent = s.sent ++ [⟨m, call⟩]) ∨
        ((s.send m call).2 = false ∧ s.writerAlive = false ∧ (s.send m call).1.sent = s.sent)) := by
  rw [send]
  cases h : s.writerAlive with
  | true => exact ⟨⟨rfl, rfl, rfl, rfl, h.symm, rfl, rfl⟩, rfl, .inl ⟨rfl, rfl, rfl⟩⟩
  | false => exact ⟨Kept.refl s, rfl, .inr ⟨rfl, rfl, rfl⟩⟩

theorem emit_cases (cfg : FfpConfig) (s : Ffp) (m : WriterMsg) (call : Option Nat) :
    let r := (s.allocStatsn cfg).send m call
    Kept s r.1 ∧
      ((r.2 = true ∧ s.writerAlive = true ∧ r.1.sent = s.sent ++ [⟨m, call⟩] ∧ r.1.statsn cfg = s.statsn cfg + 1) ∨
        (r.2 = false ∧ s.writerAlive = false ∧ r.1.sent = s.sent)) := by
  obtain ⟨hk, hsent, hsn⟩ := kept_allocStatsn cfg s
  obtain ⟨hk', hsn', hcase⟩ := send_cases cfg (s.allocStatsn cfg) m call
  refine ⟨hk.trans hk', ?_⟩
  rcases hcase with ⟨h1, h2, h3⟩ | ⟨h1, h2, h3⟩
  · exact .inl ⟨h1, hk.alive ▸ h2, by rw [h3, hsent], by rw [hsn', hsn]⟩
  · exact .inr ⟨h1, hk.alive ▸ h2, by rw [h3, hsent]⟩

/-! ## Steps of a worker -/

/-- Everything but the worker's own row, the routes, and what it sends or calls. -/
structure Beside (lun : UInt64) (w' : LuWorker) (s s' : Ffp) : Prop where
  admitted : s'.admitted = s.admitted
  router : s'.router = s.router
  exp : s'.conn.expCmdSn = s.conn.expCmdSn
  init : s'.conn.cmdSnInitialized = s.conn.cmdSnInitialized
  alive : s'.writerAlive = s.writerAlive
  workers : s'.workers = s.workers.insert lun w'

def answerMsg (cfg : FfpConfig) (s : Ffp) (job : LuJob) (resp : ScsiResponse) : WriterMsg :=
  if resp.dataIn ≠ [] then .dataIn (s.dataInJob cfg job.pdu.itt resp.dataIn job.edtl resp.status job.reqExpCmdsn)
  else .pdu (s.stamp cfg (buildScsiResponse job.pdu.itt resp) job.reqExpCmdsn)

inductive WorkerStep (cfg : FfpConfig) (lun : UInt64) (w w' : LuWorker) (s s' : Ffp) : Prop
  | quiet (hd : s'.dispatched = s.dispatched) (hs : Silent cfg s s') (hp : w'.pending.Sublist w.pending)
      (hc : w'.stage.call = w.stage.call)
  | called (job : LuJob) (data : Bytes) (hd : s'.dispatched = s.dispatched ++ [⟨lun, job.pdu, data⟩])
      (hs : Silent cfg s s') (hp : (job.pdu :: w'.pending).Sublist w.pending) (hc : w.stage.call = none)
      (hc' : w'.stage.call = some (job, s.dispatched.length))
  | solicited (job : LuJob) (p : OutPdu) (hr2t : p.opcode = 0x31)
      (hd : s'.dispatched = s.dispatched) (hsent : s'.sent = s.sent ++ [⟨.pdu (s.stamp cfg p job.reqExpCmdsn), none⟩])
      (hsn : s'.statsn cfg = s.statsn cfg) (hp : w'.pending.Sublist w.pending) (hc : w'.stage.call = w.stage.call)
  | answered (job : LuJob) (call : Option Nat) (resp : ScsiResponse) (hw : w.stage = .answering job call resp)
      (hd : s'.dispatched = s.dispatched) (hsent : s'.sent = s.sent ++ [⟨s.answerMsg cfg job resp, call⟩])
      (hsn : s'.statsn cfg = s.statsn cfg + 1) (hp : w'.pending.Sublist w.pending) (hc : w'.stage.call = none)
  | lost (hd : s'.dispatched = s.dispatched) (halive : s.writerAlive = false) (hsent : s'.sent = s.sent)
      (hp : w'.pending.Sublist w.pending)

def Works (cfg : FfpConfig) (lun : UInt64) (w : LuWorker) (s s' : Ffp) : Prop :=
  ∃ w', Beside lun w' s s' ∧ WorkerStep cfg lun w w' s s'

variable {lun : UInt64} {w : LuWorker}

section

variable (hk : Kept s s1 ∧ Silent cfg s s1)
include hk

theorem works_setStage {stage : Stage}
    (hp : (stage.collecting.toList.map LuJob.pdu ++ w0.queue.map LuJob.pdu).Sublist w.pending)
    (hc : stage.call = w.stage.call) : Works cfg lun w s (s1.setStage lun w0 stage) := by
  obtain ⟨hk, hs⟩ := hk
  refine ⟨⟨w0.queue, stage⟩, ⟨hk.admitted, hk.router, hk.exp, hk.init, hk.alive, ?_⟩, ?_⟩
  · rw [← hk.workers]
    rfl
  · exact .quiet hk.dispatched ⟨hs.sent, hs.statsn⟩ hp hc

theorem works_fail (hp : (w0.queue.map LuJob.pdu).Sublist w.pending) (hc : w.stage.call = none) :
    Works cfg lun w s (s1.fail lun w0) := by
  obtain ⟨hk, hs⟩ := hk
  refine ⟨⟨w0.queue, .gone⟩, ⟨hk.admitted, hk.router, hk.exp, hk.init, hk.alive, ?_⟩, ?_⟩
  · rw [← hk.workers]
    rfl
  · exact .quiet hk.dispatched ⟨hs.sent, hs.statsn⟩ hp hc.symm

theorem works_dispatch (data : Bytes)
    (hp : (job.pdu :: w0.queue.map LuJob.pdu).Sublist w.pending) (hc : w.stage.call = none) :
    Works cfg lun w s (s1.dispatch lun w0 job data) := by
  obtain ⟨hk, hs⟩ := hk
  refine ⟨⟨w0.queue, .dispatching job s1.dispatched.length⟩,
    ⟨hk.admitted, hk.router, hk.exp, hk.init, hk.alive, ?_⟩, ?_⟩
  · rw [← hk.workers]
    rfl
  · refine .called job data ?_ ⟨hs.sent, hs.statsn⟩ hp hc ?_
    · rw [← hk.dispatched]
      rfl
    · rw [← hk.dispatched]
      rfl

theorem works_collectRest (data : Bytes) (r2tsn : UInt32) (hp : (job.pdu :: w0.queue.map LuJob.pdu).Sublist w.pending)
    (hc : w.stage.call = none) : Works cfg lun w s (s1.collectRest lun w0 job data r2tsn) := by
  rw [collectRest]
  split
  · exact works_setStage hk hp hc.symm
  · have hroute := kept_dropRoute cfg s1 job.pdu.itt
    exact works_dispatch ⟨hk.1.trans hroute.1, hk.2.trans hroute.2⟩ data hp hc

theorem works_failCollect (job : LuJob)
    (hp : (w0.queue.map LuJob.pdu).Sublist w.pending) (hc : w.stage.call = none) :
    Works cfg lun w s (s1.failCollect lun w0 job) := by
  have hroute := kept_dropRoute cfg s1 job.pdu.itt
  have hrecv := kept_dropReceiver cfg (s1.dropRoute job.pdu.itt) job
  exact works_fail ⟨(hk.1.trans hroute.1).trans hrecv.1, (hk.2.trans hroute.2).trans hrecv.2⟩ hp hc

end

theorem works_take (h : s.workerTake cfg lun w = some s') : Works cfg lun w s s' := by
  obtain ⟨queue, stage⟩ := w
  rw [workerTake] at h
  split at h
  · next job rest hstage hqueue =>
    simp only at hstage hqueue
    subst hstage hqueue
    have hsame : Kept s s ∧ Silent cfg s s := ⟨Kept.refl s, Silent.refl s⟩
    have htail : (rest.map LuJob.pdu).Sublist (LuWorker.pending ⟨job :: rest, .idle⟩) := List.sublist_cons_self _ _
    simp only at h
    split at h
    · cases h
      refine works_setStage ?_ htail rfl
      split
      · exact kept_dropRoute cfg s _
      · exact hsame
    · split at h
      · split at h
        · cases h
          exact works_fail hsame htail rfl
        · split at h
          · cases h
            exact works_setStage hsame (List.Sublist.refl _) rfl
          · cases h
            exact works_collectRest hsame _ _ (List.Sublist.refl _) rfl
      · split at h
        · cases h
          exact works_dispatch (kept_dropRoute cfg s _) _ (List.Sublist.refl _) rfl
        · cases h
          exact works_dispatch hsame _ (List.Sublist.refl _) rfl
  · cases h

theorem works_data (h : s.workerData cfg lun w = some s') : Works cfg lun w s s' := by
  obtain ⟨queue, stage⟩ := w
  cases stage with
  | unsolicited job | solicited job =>
    obtain ⟨⟨p, s1⟩, hr, rfl⟩ := Option.map_eq_some_iff.1 h
    have hk := kept_receive cfg hr
    simp only
    split
    · exact works_failCollect hk job (List.sublist_cons_self _ _) rfl
    · split
      · exact works_collectRest hk _ _ (List.Sublist.refl _) rfl
      · exact works_setStage hk (List.Sublist.refl _) rfl
  | _ => cases h

theorem works_timeout (h : s.workerTimeout lun w = some s') : Works cfg lun w s s' := by
  obtain ⟨queue, stage⟩ := w
  have hsame : Kept s s ∧ Silent cfg s s := ⟨Kept.refl s, Silent.refl s⟩
  cases stage with
  | unsolicited job | solicited job =>
    cases h
    exact works_failCollect hsame job (List.sublist_cons_self _ _) rfl
  | _ => cases h

theorem works_return {resp : ScsiResponse} (h : s.workerReturn lun w resp = some s') :
    Works cfg lun w s s' := by
  obtain ⟨queue, stage⟩ := w
  cases stage with
  | dispatching job call =>
    cases h
    exact works_setStage ⟨Kept.refl s, Silent.refl s⟩ (List.Sublist.refl _) rfl
  | _ => cases h

theorem works_solicit (h : s.workerSolicit cfg lun w = some s') : Works cfg lun w s s' := by
  obtain ⟨queue, stage⟩ := w
  cases stage with
  | soliciting job data r2tsn =>
    simp only [workerSolicit] at h
    have hsend := send_cases cfg s (.pdu (s.stamp cfg (buildR2tPdu job.pdu r2tsn (deriveR2tTtt job.pdu.itt r2tsn)
      data.length (min cfg.maxBurstLength (job.edtl.toNat - data.length))) job.reqExpCmdsn)) none
    split at h
    · next s1 he =>
      rw [emitR2t] at he
      rw [he] at hsend
      obtain ⟨hk, hsn, ⟨-, -, hsent⟩ | ⟨hf, -, -⟩⟩ := hsend
      · cases h
        refine ⟨⟨queue, .solicited job data r2tsn (deriveR2tTtt job.pdu.itt r2tsn)
            (data.length + min cfg.maxBurstLength (job.edtl.toNat - data.length))⟩,
          ⟨hk.admitted, hk.router, hk.exp, hk.init, hk.alive, ?_⟩, ?_⟩
        · rw [← hk.workers]
          rfl
        · exact .solicited job _ rfl hk.dispatched hsent hsn (List.Sublist.refl _) rfl
      · cases hf
    · next s1 he =>
      rw [emitR2t] at he
      rw [he] at hsend
      obtain ⟨hk, hsn, ⟨ht, -, -⟩ | ⟨-, -, hsent⟩⟩ := hsend
      · cases ht
      · cases h
        exact works_failCollect ⟨hk, hsent, hsn⟩ job (List.sublist_cons_self _ _) rfl
  | _ => cases h

theorem emitAnswer_eq (s : Ffp) (job : LuJob) (call : Option Nat) (resp : ScsiResponse) :
    s.emitAnswer cfg job call resp = (s.allocStatsn cfg).send (s.answerMsg cfg job resp) call := by
  rw [emitAnswer, answerMsg]
  split
  · rfl
  · rfl

theorem works_answer (h : s.workerAnswer cfg lun w = some s') : Works cfg lun w s s' := by
  obtain ⟨queue, stage⟩ := w
  cases stage with
  | answering job call resp =>
    simp only [workerAnswer, emitAnswer_eq] at h
    have hemit := emit_cases cfg s (s.answerMsg cfg job resp) call
    split at h
    · next s1 he =>
      rw [he] at hemit
      obtain ⟨hk, ⟨-, -, hsent, hsn⟩ | ⟨hf, -, -⟩⟩ := hemit
      · have hrecv := kept_dropReceiver cfg s1 job
        have hk' := hk.trans hrecv.1
        cases h
        refine ⟨⟨queue, .idle⟩, ⟨hk'.admitted, hk'.router, hk'.exp, hk'.init, hk'.alive, ?_⟩, ?_⟩
        · rw [← hk'.workers]
          rfl
        · refine .answered job call resp rfl hk'.dispatched ?_ ?_ (List.Sublist.refl _) rfl
          · exact hrecv.2.sent.trans hsent
          · exact hrecv.2.statsn.trans hsn
      · cases hf
    · next s1 he =>
      rw [he] at hemit
      obtain ⟨hk, ⟨ht, -, -, -⟩ | ⟨-, hdead, hsent⟩⟩ := hemit
      · cases ht
      · have hrecv := kept_dropReceiver cfg s1 job
        have hk' := hk.trans hrecv.1
        cases h
        refine ⟨⟨queue, .gone⟩, ⟨hk'.admitted, hk'.router, hk'.exp, hk'.init, hk'.alive, ?_⟩, ?_⟩
        · rw [← hk'.workers]
          rfl
        · exact .lost hk'.dispatched hdead (hrecv.2.sent.trans hsent) (List.Sublist.refl _)
  | _ => cases h

/-! ## Steps of the router -/

inductive RouteStep (cfg : FfpConfig) (r : RoutedPdu) (s s' : Ffp) : Prop
  | answered (p : OutPdu) (hp : p.opcode ≠ 0x31 ∧ p.opcode ≠ 0x25) (hw : s'.workers = s.workers)
      (hsent : s'.sent = s.sent ++ [⟨.pdu (s.stamp cfg p r.pdu.nextExpCmdsn), none⟩])
      (hsn : s'.statsn cfg = s.statsn cfg + 1)
  | queued (w : LuWorker) (hop : r.pdu.opcode = 0x01) (htsih : cfg.tsih ≠ 0)
      (hw : s.workers.lookup (decodeLun r.pdu.lun) = some w ∨
        (s.workers.lookup (decodeLun r.pdu.lun) = none ∧ w = ⟨[], .idle⟩))
      (hw' : s'.workers = s.workers.insert (decodeLun r.pdu.lun) { w with queue := w.queue ++ [luJob r] })
      (hs : Silent cfg s s')
  | dropped (hw : s'.workers = s.workers) (hsent : s'.sent = s.sent)
      (hsn : s.writerAlive = true → s'.statsn cfg = s.statsn cfg)

structure Routed (s s' : Ffp) : Prop where
  admitted : s'.admitted = s.admitted
  dispatched : s'.dispatched = s.dispatched
  exp : s'.conn.expCmdSn = s.conn.expCmdSn
  init : s'.conn.cmdSnInitialized = s.conn.cmdSnInitialized
  alive : s'.writerAlive = s.writerAlive
  router : s'.router = .idle ∨ s'.router = .stopped

variable {r : RoutedPdu}

theorem routed_emit (op : UInt8) (hk : Kept s s1 ∧ Silent cfg s s1 ∧ s1.conn = s.conn) {p : OutPdu} (hp : p.opcode = op)
    (hop : op ≠ 0x31 ∧ op ≠ 0x25) {f : Ffp × Bool → Router} (hf : ∀ x, f x = .idle ∨ f x = .stopped) :
    let e := s1.emitStatus cfg p r.pdu.nextExpCmdsn none
    let s' := { e.1 with router := f e }
    Routed s s' ∧ RouteStep cfg r s s' := by
  obtain ⟨hk, hs, hconn⟩ := hk
  obtain ⟨hk', hcase⟩ := emit_cases cfg s1 (.pdu (s1.stamp cfg p r.pdu.nextExpCmdsn)) none
  have hk'' := hk.trans hk'
  have hstamp : s1.stamp cfg p r.pdu.nextExpCmdsn = s.stamp cfg p r.pdu.nextExpCmdsn := by
    simp only [stamp, expCmdsn, hconn, hs.statsn]
  refine ⟨⟨hk''.admitted, hk''.dispatched, hk''.exp, hk''.init, hk''.alive, hf _⟩, ?_⟩
  rcases hcase with ⟨-, -, hsent, hsn⟩ | ⟨-, hdead, hsent⟩
  · refine .answered p (hp ▸ hop) hk''.workers (hsent.trans ?_) ?_
    · rw [hstamp, hs.sent]
    · exact hsn.trans (by rw [hs.statsn])
  · refine .dropped hk''.workers (hsent.trans hs.sent) (fun halive => ?_)
    rw [hk.alive, halive] at hdead
    cases hdead

theorem routed_enqueue (hop : r.pdu.opcode = 0x01) (htsih : cfg.tsih ≠ 0) :
    Routed s (s.enqueue r) ∧ RouteStep cfg r s (s.enqueue r) := by
  have hstop : Routed s { s with router := .stopped } ∧ RouteStep cfg r s { s with router := .stopped } :=
    ⟨⟨rfl, rfl, rfl, rfl, rfl, .inr rfl⟩, .dropped rfl rfl (fun _ => rfl)⟩
  simp only [enqueue]
  split
  · exact hstop
  · split
    · refine ⟨⟨rfl, rfl, rfl, rfl, rfl, .inl rfl⟩, .queued _ hop htsih ?_ rfl ⟨rfl, rfl⟩⟩
      cases hl : s.workers.lookup (decodeLun r.pdu.lun) with
      | some w => exact .inl rfl
      | none => exact .inr ⟨rfl, rfl⟩
    · exact hstop

theorem route_step (cfg : FfpConfig) (s : Ffp) (r : RoutedPdu) :
    Routed s (s.route cfg r) ∧ RouteStep cfg r s (s.route cfg r) := by
  have hsame : Kept s s ∧ Silent cfg s s ∧ s.conn = s.conn := ⟨Kept.refl s, Silent.refl s, rfl⟩
  have hgo : ∀ x : Ffp × Bool,
      (if x.2 then Router.idle else .stopped) = .idle ∨ (if x.2 then Router.idle else .stopped) = .stopped := by
    intro x
    cases x.2 with
    | true => exact .inl rfl
    | false => exact .inr rfl
  simp only [route]
  split
  · exact routed_emit 0x20 hsame rfl (by decide) hgo
  split
  · exact routed_emit 0x24 hsame rfl (by decide) hgo
  split
  · next hop =>
    split
    · refine routed_emit 0x3F ?_ rfl (by decide) hgo
      split
      · exact ⟨⟨rfl, rfl, rfl, rfl, rfl, rfl, rfl⟩, ⟨rfl, rfl⟩, rfl⟩
      · exact hsame
    · next htsih => exact routed_enqueue hop htsih
  split
  · split
    · exact routed_emit 0x3F hsame rfl (by decide) hgo
    · exact routed_emit 0x22 hsame rfl (by decide) hgo
  split
  · exact routed_emit 0x26 hsame rfl (by decide) fun _ => .inr rfl
  split
  · exact routed_emit 0x3F hsame rfl (by decide) hgo
  · exact routed_emit 0x3F hsame rfl (by decide) hgo

end Ffp

/-! ## Every step -/

structure Idle (s s' : Ffp) : Prop where
  admitted : s'.admitted = s.admitted
  dispatched : s'.dispatched = s.dispatched
  workers : s'.workers = s.workers
  sent : s'.sent = s.sent
  conn : s'.conn = s.conn
  discoveryStatsn : s'.discoveryStatsn = s.discoveryStatsn
  router : s'.router = s.router ∨ s'.router = .stopped

structure Took (cfg : FfpConfig) (r : RoutedPdu) (s s' : Ffp) : Prop where
  admitted : s'.admitted = s.admitted ++ [⟨s.conn, r.pdu⟩]
  dispatched : s'.dispatched = s.dispatched
  workers : s'.workers = s.workers
  sent : s'.sent = s.sent
  discoveryStatsn : s'.discoveryStatsn = s.discoveryStatsn
  alive : s'.writerAlive = s.writerAlive
  before : s.router = .idle
  router : s'.router = .checked r
  conn : (cfg.tsih = 0 ∧ s'.conn = s.conn) ∨ (cfg.tsih ≠ 0 ∧ (s.conn.checkCmdsn r.pdu.cmdsn r.pdu.immediate).1 ≠ .outOfWindow ∧
    s'.conn = (s.conn.checkCmdsn r.pdu.cmdsn r.pdu.immediate).2)

inductive FfpStep (cfg : FfpConfig) (a : FfpAct) (s s' : Ffp) : Prop
  | idle (h : Idle s s') (halive : a ≠ .writerFail → s'.writerAlive = s.writerAlive)
  | took (r : RoutedPdu) (h : Took cfg r s s')
  | routed (r : RoutedPdu) (hr : s.router = .checked r) (hk : Ffp.Routed s s') (h : Ffp.RouteStep cfg r s s')
  | worked (lun : UInt64) (w : LuWorker) (hw : s.workers.lookup lun = some w) (h : Ffp.Works cfg lun w s s')

theorem checkCmdsn_outOfWindow {c c' : Connection} {cmdsn : UInt32} {immediate : Bool}
    (h : c.checkCmdsn cmdsn immediate = (.outOfWindow, c')) : c' = c := by
  simp only [Connection.checkCmdsn] at h
  split at h
  · cases h
  split at h
  · cases h
  split at h
  · cases h
  split at h
  · cases h
    rfl
  split at h <;> cases h
  rfl

variable {s s' : Ffp}

theorem routerTake_step {cfg : FfpConfig} (a : FfpAct) (h : s.routerTake cfg = some s') : FfpStep cfg a s s' := by
  rw [Ffp.routerTake] at h
  split at h
  · cases h
  split at h
  · cases h
    exact .idle ⟨rfl, rfl, rfl, rfl, rfl, rfl, .inr rfl⟩ fun _ => rfl
  · next r rest hrouter _ =>
    split at h
    · next htsih =>
      cases h
      exact .took r ⟨rfl, rfl, rfl, rfl, rfl, rfl, hrouter, rfl, .inl ⟨htsih, rfl⟩⟩
    · next htsih =>
      split at h
      · next conn hcheck =>
        cases h
        refine .idle ⟨rfl, rfl, rfl, rfl, ?_, rfl, .inr rfl⟩ fun _ => rfl
        exact checkCmdsn_outOfWindow hcheck
      · next v conn hv hcheck =>
        cases h
        refine .took r ⟨rfl, rfl, rfl, rfl, rfl, rfl, hrouter, rfl, .inr ⟨htsih, ?_, ?_⟩⟩
        · rw [hcheck]
          exact hv
        · rw [hcheck]
  · cases h

theorem forward_idle (h : s.forward = some s') : Idle s s' ∧ s'.writerAlive = s.writerAlive := by
  rw [Ffp.forward] at h
  repeat' split at h
  all_goals cases h
  all_goals exact ⟨⟨rfl, rfl, rfl, rfl, rfl, rfl, .inl rfl⟩, rfl⟩

theorem read_idle (s : Ffp) (p : Pdu) : Idle s (s.read p) ∧ (s.read p).writerAlive = s.writerAlive := by
  rw [Ffp.read]
  repeat' split
  all_goals exact ⟨⟨rfl, rfl, rfl, rfl, rfl, rfl, .inl rfl⟩, rfl⟩

/-- **Every step** is the router's, a worker's, or moves no command. -/
theorem serveConnection_step {cfg : FfpConfig} {a : FfpAct} (h : (serveConnection cfg).step s a = some s') :
    FfpStep cfg a s s' := by
  cases a with
  | read p =>
    simp only [serveConnection] at h
    split at h
    · split at h <;> cases h
      exact .idle (read_idle s p).1 fun _ => (read_idle s p).2
    · cases h
  | readError | teardown =>
    simp only [serveConnection] at h
    split at h <;> cases h
    exact .idle ⟨rfl, rfl, rfl, rfl, rfl, rfl, .inl rfl⟩ fun _ => rfl
  | forward => exact .idle (forward_idle h).1 fun _ => (forward_idle h).2
  | routerTake => exact routerTake_step _ h
  | routerShutdown =>
    simp only [serveConnection] at h
    split at h
    · split at h <;> cases h
      exact .idle ⟨rfl, rfl, rfl, rfl, rfl, rfl, .inr rfl⟩ fun _ => rfl
    · cases h
  | route =>
    simp only [serveConnection] at h
    split at h <;> cases h
    next r hr =>
      exact .routed r hr (Ffp.route_step cfg s r).1 (Ffp.route_step cfg s r).2
  | workerTake lun | workerData lun | workerTimeout lun | workerSolicit lun | workerReturn lun | workerAnswer lun =>
    obtain ⟨w, hw, h⟩ := Option.bind_eq_some_iff.1 h
    refine .worked lun w hw ?_
    first
      | exact Ffp.works_take h | exact Ffp.works_data h | exact Ffp.works_timeout h
      | exact Ffp.works_solicit h | exact Ffp.works_return h | exact Ffp.works_answer h
  | write =>
    simp only [serveConnection] at h
    split at h <;> cases h
    exact .idle ⟨rfl, rfl, rfl, rfl, rfl, rfl, .inl rfl⟩ fun _ => rfl
  | writerFail =>
    simp only [serveConnection] at h
    split at h <;> cases h
    exact .idle ⟨rfl, rfl, rfl, rfl, rfl, rfl, .inl rfl⟩ fun hne => absurd rfl hne

end Thur.Iscsi

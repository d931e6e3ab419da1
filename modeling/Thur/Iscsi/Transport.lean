import Thur.Lib.Machine
import Thur.Iscsi.Pdu
/-!
# Transport — one connection in the full-feature phase

Four kinds of task share a connection. The reader takes PDUs off the socket and routes Data-Out PDUs by task tag; the
router checks CmdSNs in arrival order, answers control PDUs and hands SCSI commands to one worker per logical unit; a
worker collects a write's data, calls the handler and emits the answer; the writer writes what was emitted. A step is
one task's work between two of its waits or channel operations. The channel to the writer is everything ever sent with
the number of messages written; `admitted` and `dispatched` record the PDUs that passed the CmdSN check and the calls of
the handler.
-/
namespace Thur.Iscsi

/-! ## What goes out -/

structure OutPdu where
  opcode : UInt8
  immediate : Bool
  /-- The second byte, the final bit in it. -/
  flags : UInt8
  /-- The third byte: a response or reason code. -/
  code : UInt8
  /-- The fourth byte: the SCSI status. -/
  status : UInt8
  lun : Bytes
  itt : UInt32
  ttt : UInt32
  statSn : UInt32
  expCmdSn : UInt32
  maxCmdSn : UInt32
  /-- DataSN of a Data-In PDU, R2TSN of an R2T. -/
  dataSn : UInt32
  bufferOffset : UInt32
  /-- Residual count of a Data-In PDU, desired length of an R2T. -/
  residual : UInt32
  data : Bytes

def buildEmptyPdu (opcode : UInt8) (immediate finalBit : Bool) : OutPdu :=
  ⟨opcode, immediate, if finalBit then 0x80 else 0, 0, 0, List.replicate 8 0, 0, 0, 0, 0, 0, 0, 0, 0, []⟩

def buildNopInResponse (itt : UInt32) : OutPdu := { buildEmptyPdu 0x20 true true with itt := itt, ttt := 0xFFFFFFFF }

def buildReject (itt : UInt32) (reason : UInt8) : OutPdu := { buildEmptyPdu 0x3F true true with itt := itt, code := reason }

def buildR2tPdu (cmd : Pdu) (r2tsn ttt : UInt32) (bufferOffset desired : Nat) : OutPdu :=
  { buildEmptyPdu 0x31 false true with
    itt := cmd.itt, ttt := ttt, lun := cmd.lun, dataSn := r2tsn, bufferOffset := UInt32.ofNat bufferOffset,
    residual := UInt32.ofNat desired }

structure ScsiResponse where
  status : UInt8
  sense : Option Bytes
  dataIn : Bytes

def checkCondition : UInt8 := 0x02

def invalidFieldInCdb : ScsiResponse :=
  ⟨checkCondition, some [0x70, 0, 0x05, 0, 0, 0, 0, 10, 0, 0, 0, 0, 0x24, 0, 0, 0, 0, 0], []⟩

def defaultSense : Bytes := [0x70, 0, 0x05, 0, 0, 0, 0, 10, 0, 0, 0, 0, 0x20, 0, 0, 0, 0, 0]

def buildScsiResponse (itt : UInt32) (resp : ScsiResponse) : OutPdu :=
  { buildEmptyPdu 0x21 true true with
    itt := itt
    status := resp.status
    data :=
      if resp.status = checkCondition then
        Bytes.ofNatBE 2 (resp.sense.getD defaultSense).length ++ resp.sense.getD defaultSense
      else [] }

structure DataInJob where
  itt : UInt32
  data : Bytes
  residual : UInt32
  statusCode : UInt8
  statsn : UInt32
  expCmdsn : UInt32
  maxCmdsn : UInt32
  chunkSize : Nat

def DataInJob.pdu (job : DataInJob) (cursor stop : Nat) (dataSn : UInt32) : OutPdu :=
  let isLast := stop = job.data.length
  { buildEmptyPdu 0x25 true isLast with
    itt := job.itt
    ttt := 0xFFFFFFFF
    flags := if isLast then (if job.residual > 0 then 0x83 else 0x81) else 0
    status := if isLast then job.statusCode else 0
    residual := if isLast then job.residual else 0
    dataSn := dataSn
    bufferOffset := UInt32.ofNat cursor
    statSn := if isLast then job.statsn else 0
    expCmdSn := job.expCmdsn
    maxCmdSn := job.maxCmdsn
    data := job.data.field cursor (stop - cursor) }

def DataInJob.loop (job : DataInJob) : Nat → Nat → UInt32 → List OutPdu
  | 0, _, _ => []
  | fuel + 1, cursor, dataSn =>
    if cursor < job.data.length then
      let stop := min job.data.length (cursor + max job.chunkSize 1)
      job.pdu cursor stop dataSn :: job.loop fuel stop (dataSn + 1)
    else []

def writeDataInJob (job : DataInJob) : List OutPdu := job.loop job.data.length 0 0

inductive WriterMsg
  | pdu (p : OutPdu)
  | dataIn (job : DataInJob)

def WriterMsg.pdus : WriterMsg → List OutPdu
  | .pdu p => [p]
  | .dataIn job => writeDataInJob job

/-! ## The tasks -/

structure RoutedPdu where
  pdu : Pdu
  /-- The receiving end of the channel that the reader registered for a write. -/
  dataOutRx : Option Nat

structure LuJob where
  pdu : Pdu
  dataOutRx : Option Nat
  edtl : UInt32
  wBit : Bool
  edtlOverCap : Bool
  reqExpCmdsn : UInt32

inductive Reader
  | idle
  /-- Waiting for room in the main channel; `none` is a read error. -/
  | forwarding (m : Option RoutedPdu)
  /-- Waiting for room in a Data-Out channel. -/
  | routing (chan : Nat) (p : Pdu)
  | stopped

inductive Router
  | idle
  /-- The PDU's CmdSN was let through. -/
  | checked (r : RoutedPdu)
  | stopped

inductive Stage
  | idle
  /-- Waiting for unsolicited data. -/
  | unsolicited (job : LuJob) (data : Bytes)
  /-- About to solicit the next burst. -/
  | soliciting (job : LuJob) (data : Bytes) (r2tsn : UInt32)
  /-- Waiting for the data of a burst that ends at `burstEnd`. -/
  | solicited (job : LuJob) (data : Bytes) (r2tsn ttt : UInt32) (burstEnd : Nat)
  /-- In the handler; the number is the position of the call among all calls. -/
  | dispatching (job : LuJob) (call : Nat)
  /-- About to emit the answer, to a call or to a write that was refused without one. -/
  | answering (job : LuJob) (call : Option Nat) (resp : ScsiResponse)
  /-- Ended by an error. -/
  | gone

structure LuWorker where
  queue : List LuJob
  stage : Stage

structure Admission where
  before : Connection
  pdu : Pdu

structure Dispatch where
  lun : UInt64
  pdu : Pdu
  dataOut : Bytes

structure Sent where
  msg : WriterMsg
  call : Option Nat

structure Ffp where
  conn : Connection
  discoveryStatsn : UInt32
  reader : Reader
  main : List (Option RoutedPdu)
  router : Router
  routes : AList (fun _ : UInt32 => Nat)
  /-- The Data-Out channels whose receiver is alive. -/
  chans : AList (fun _ : Nat => List Pdu)
  nextChan : Nat
  workers : AList (fun _ : UInt64 => LuWorker)
  shutdown : Bool
  sent : List Sent
  written : Nat
  writerAlive : Bool
  admitted : List Admission
  dispatched : List Dispatch

structure FfpConfig where
  /-- Zero for a discovery session. -/
  tsih : Tsih
  peerMaxRecv : Nat
  maxBurstLength : Nat
  firstBurstLength : Nat
  textResponse : Bytes → Bytes

def mainChannelDepth : Nat := 96

def dataOutChannelDepth : Nat := 256

def luQueueDepth : Nat := 48

def Ffp.start (maxRecv : UInt32) (statsn : UInt32) : Ffp :=
  ⟨.new maxRecv, statsn, .idle, [], .idle, ∅, ∅, 0, ∅, false, [], 0, true, [], []⟩

namespace Ffp

/-! ### The responder -/

section

variable (cfg : FfpConfig) (s : Ffp)

def expCmdsn (fallback : UInt32) : UInt32 :=
  if cfg.tsih = 0 then fallback else s.conn.expCmdsnForResponse fallback

def statsn : UInt32 := if cfg.tsih = 0 then s.discoveryStatsn else s.conn.statSn

def allocStatsn : Ffp :=
  if cfg.tsih = 0 then { s with discoveryStatsn := s.discoveryStatsn + 1 }
  else { s with conn := s.conn.getAndIncrementStatsn.2 }

def send (s : Ffp) (m : WriterMsg) (call : Option Nat) : Ffp × Bool :=
  if s.writerAlive then ({ s with sent := s.sent ++ [⟨m, call⟩] }, true) else (s, false)

def stamp (p : OutPdu) (reqExpCmdsn : UInt32) : OutPdu :=
  let exp := s.expCmdsn cfg reqExpCmdsn
  { p with statSn := s.statsn cfg, expCmdSn := exp, maxCmdSn := exp + advertisedCmdsnWindow }

def emitStatus (p : OutPdu) (reqExpCmdsn : UInt32) (call : Option Nat) : Ffp × Bool :=
  (s.allocStatsn cfg).send (.pdu (s.stamp cfg p reqExpCmdsn)) call

def emitR2t (p : OutPdu) (reqExpCmdsn : UInt32) : Ffp × Bool :=
  s.send (.pdu (s.stamp cfg p reqExpCmdsn)) none

def dataInJob (itt : UInt32) (data : Bytes) (edtl : UInt32) (statusCode : UInt8)
    (reqExpCmdsn : UInt32) : DataInJob :=
  -- the comparison is made on the low 32 bits of the length
  let data := if UInt32.ofNat data.length > edtl then data.take edtl.toNat else data
  let exp := s.expCmdsn cfg reqExpCmdsn
  let residual := UInt32.ofNat (edtl.toNat - (UInt32.ofNat data.length).toNat)
  ⟨itt, data, residual, statusCode, s.statsn cfg, exp, exp + advertisedCmdsnWindow, cfg.peerMaxRecv⟩

def emitDataIn (itt : UInt32) (data : Bytes) (edtl : UInt32) (statusCode : UInt8)
    (reqExpCmdsn : UInt32) (call : Option Nat) : Ffp × Bool :=
  (s.allocStatsn cfg).send (.dataIn (s.dataInJob cfg itt data edtl statusCode reqExpCmdsn)) call

/-! ### The reader -/

def read (s : Ffp) (p : Pdu) : Ffp :=
  if p.opcode = 0x01 ∧ p.writeBit = true then
    { s with
      reader := .forwarding (some ⟨p, some s.nextChan⟩)
      routes := s.routes.insert p.itt s.nextChan
      chans := s.chans.insert s.nextChan []
      nextChan := s.nextChan + 1 }
  else if p.opcode = 0x05 then
    match s.routes.lookup p.itt with
    | some chan => { s with reader := .routing chan p }
    | none => { s with reader := .forwarding (some ⟨p, none⟩) }
  else { s with reader := .forwarding (some ⟨p, none⟩) }

def forward (s : Ffp) : Option Ffp :=
  match s.reader with
  | .forwarding m =>
    if s.main.length < mainChannelDepth then
      some { s with main := s.main ++ [m], reader := if m.isSome then .idle else .stopped }
    else none
  | .routing chan p =>
    match s.chans.lookup chan with
    | some queue =>
      if queue.length < dataOutChannelDepth then
        some { s with chans := s.chans.insert chan (queue ++ [p]), reader := .idle }
      else none
    -- a late Data-Out PDU is dropped
    | none => some { s with reader := .idle }
  | _ => none

/-! ### The router -/

def routerTake : Option Ffp :=
  if s.shutdown then none
  else
    match s.router, s.main with
    | .idle, none :: rest => some { s with main := rest, router := .stopped }
    | .idle, some r :: rest =>
      if cfg.tsih = 0 then
        some { s with main := rest, router := .checked r, admitted := s.admitted ++ [⟨s.conn, r.pdu⟩] }
      else
        match s.conn.checkCmdsn r.pdu.cmdsn r.pdu.immediate with
        | (.outOfWindow, conn) => some { s with main := rest, router := .stopped, conn := conn }
        | (_, conn) =>
          some { s with main := rest, router := .checked r, conn := conn, admitted := s.admitted ++ [⟨s.conn, r.pdu⟩] }
    | _, _ => none

def routed (r : Ffp × Bool) : Ffp := { r.1 with router := if r.2 then .idle else .stopped }

def luJob (r : RoutedPdu) : LuJob :=
  let edtl := r.pdu.expectedXferLen
  ⟨r.pdu, r.dataOutRx, edtl, r.pdu.writeBit, r.pdu.writeBit && decide (edtl > maxWriteEdtl), r.pdu.nextExpCmdsn⟩

def enqueue (s : Ffp) (r : RoutedPdu) : Ffp :=
  let lun := decodeLun r.pdu.lun
  let w := (s.workers.lookup lun).getD ⟨[], .idle⟩
  match w.stage with
  | .gone => { s with router := .stopped }
  | _ =>
    if w.queue.length < luQueueDepth then
      { s with workers := s.workers.insert lun { w with queue := w.queue ++ [luJob r] }, router := .idle }
    else { s with router := .stopped }

def route (r : RoutedPdu) : Ffp :=
  let exp := r.pdu.nextExpCmdsn
  if r.pdu.opcode = 0x00 then routed (s.emitStatus cfg (buildNopInResponse r.pdu.itt) exp none)
  else if r.pdu.opcode = 0x04 then
    routed (s.emitStatus cfg { buildEmptyPdu 0x24 false true with
      itt := r.pdu.itt, data := cfg.textResponse r.pdu.data } exp none)
  else if r.pdu.opcode = 0x01 then
    if cfg.tsih = 0 then
      let s := if r.dataOutRx.isSome then { s with routes := s.routes.erase r.pdu.itt } else s
      routed (s.emitStatus cfg (buildReject 0xFFFFFFFF 0x04) exp none)
    else s.enqueue r
  else if r.pdu.opcode = 0x02 then
    if cfg.tsih = 0 then routed (s.emitStatus cfg (buildReject 0xFFFFFFFF 0x04) exp none)
    else routed (s.emitStatus cfg { buildEmptyPdu 0x22 true true with itt := r.pdu.itt } exp none)
  else if r.pdu.opcode = 0x06 then
    { (s.emitStatus cfg { buildEmptyPdu 0x26 true true with itt := r.pdu.itt } exp none).1 with router := .stopped }
  else if r.pdu.opcode = 0x05 then routed (s.emitStatus cfg (buildReject 0xFFFFFFFF 0x04) exp none)
  else routed (s.emitStatus cfg (buildReject r.pdu.itt 0x09) exp none)

/-! ### The workers -/

section

variable (s : Ffp) (lun : UInt64) (w : LuWorker)

def setStage (stage : Stage) : Ffp :=
  { s with workers := s.workers.insert lun { w with stage := stage } }

def fail : Ffp := { s.setStage lun w .gone with shutdown := true }

def dropRoute (s : Ffp) (itt : UInt32) : Ffp := { s with routes := s.routes.erase itt }

def dropReceiver (s : Ffp) (job : LuJob) : Ffp :=
  match job.dataOutRx with
  | some chan => { s with chans := s.chans.erase chan }
  | none => s

def dispatch (job : LuJob) (data : Bytes) : Ffp :=
  { s.setStage lun w (.dispatching job s.dispatched.length) with dispatched := s.dispatched ++ [⟨lun, job.pdu, data⟩] }

def collectRest (job : LuJob) (data : Bytes) (r2tsn : UInt32) : Ffp :=
  if data.length < job.edtl.toNat then s.setStage lun w (.soliciting job data r2tsn)
  else (s.dropRoute job.pdu.itt).dispatch lun w job data

end

def workerTake (lun : UInt64) (w : LuWorker) : Option Ffp :=
  match w.stage, w.queue with
  | .idle, job :: rest =>
    let w := { w with queue := rest }
    if job.edtlOverCap then
      let s := if job.dataOutRx.isSome then s.dropRoute job.pdu.itt else s
      some (s.setStage lun w (.answering job none invalidFieldInCdb))
    else if job.wBit = true ∧ job.pdu.data.length < job.edtl.toNat then
      match job.dataOutRx with
      | none => some (s.fail lun w)
      | some _ =>
        if job.pdu.finalBit = false ∧ job.pdu.data.length < min cfg.firstBurstLength job.edtl.toNat then
          some (s.setStage lun w (.unsolicited job job.pdu.data))
        else some (s.collectRest lun w job job.pdu.data 0)
    else if job.wBit then some ((s.dropRoute job.pdu.itt).dispatch lun w job job.pdu.data)
    else some (s.dispatch lun w job job.pdu.data)
  | _, _ => none

def receive (s : Ffp) (job : LuJob) : Option (Pdu × Ffp) :=
  match job.dataOutRx with
  | none => none
  | some chan =>
    match s.chans.lookup chan with
    | some (p :: rest) => some (p, { s with chans := s.chans.insert chan rest })
    | _ => none

def failCollect (s : Ffp) (lun : UInt64) (w : LuWorker) (job : LuJob) : Ffp :=
  ((s.dropRoute job.pdu.itt).dropReceiver job).fail lun w

def workerData (lun : UInt64) (w : LuWorker) : Option Ffp :=
  match w.stage with
  | .unsolicited job data =>
    (s.receive job).map (fun (p, s) =>
      let total := data.length + p.data.length
      if p.opcode ≠ 0x05 ∨ p.itt ≠ job.pdu.itt ∨ p.ttt ≠ 0xFFFFFFFF ∨ p.bufferOffset ≠ data.length ∨
          job.edtl.toNat < total ∨ cfg.firstBurstLength < total then s.failCollect lun w job
      else if p.finalBit then s.collectRest lun w job (data ++ p.data) 0
      else s.setStage lun w (.unsolicited job (data ++ p.data)))
  | .solicited job data r2tsn ttt burstEnd =>
    (s.receive job).map (fun (p, s) =>
      let total := data.length + p.data.length
      if p.opcode ≠ 0x05 ∨ p.itt ≠ job.pdu.itt ∨ p.ttt ≠ ttt ∨ p.bufferOffset ≠ data.length ∨ burstEnd < total ∨
          p.finalBit ≠ decide (total = burstEnd) then s.failCollect lun w job
      else if total = burstEnd then s.collectRest lun w job (data ++ p.data) (r2tsn + 1)
      else s.setStage lun w (.solicited job (data ++ p.data) r2tsn ttt burstEnd))
  | _ => none

def workerTimeout (s : Ffp) (lun : UInt64) (w : LuWorker) : Option Ffp :=
  match w.stage with
  | .unsolicited job _ => some (s.failCollect lun w job)
  | .solicited job _ _ _ _ => some (s.failCollect lun w job)
  | _ => none

def deriveR2tTtt (itt r2tsn : UInt32) : UInt32 :=
  let ttt := 0x80000000 ||| (itt + r2tsn)
  if ttt = 0xFFFFFFFF then 0x80000000 else ttt

def workerSolicit (lun : UInt64) (w : LuWorker) : Option Ffp :=
  match w.stage with
  | .soliciting job data r2tsn =>
    let ddtl := min cfg.maxBurstLength (job.edtl.toNat - data.length)
    let ttt := deriveR2tTtt job.pdu.itt r2tsn
    match s.emitR2t cfg (buildR2tPdu job.pdu r2tsn ttt data.length ddtl) job.reqExpCmdsn with
    | (s, true) => some (s.setStage lun w (.solicited job data r2tsn ttt (data.length + ddtl)))
    | (s, false) => some (s.failCollect lun w job)
  | _ => none

def workerReturn (s : Ffp) (lun : UInt64) (w : LuWorker) (resp : ScsiResponse) : Option Ffp :=
  match w.stage with
  | .dispatching job call => some (s.setStage lun w (.answering job (some call) resp))
  | _ => none

def emitAnswer (job : LuJob) (call : Option Nat) (resp : ScsiResponse) : Ffp × Bool :=
  if resp.dataIn ≠ [] then s.emitDataIn cfg job.pdu.itt resp.dataIn job.edtl resp.status job.reqExpCmdsn call
  else s.emitStatus cfg (buildScsiResponse job.pdu.itt resp) job.reqExpCmdsn call

def workerAnswer (lun : UInt64) (w : LuWorker) : Option Ffp :=
  match w.stage with
  | .answering job call resp =>
    match s.emitAnswer cfg job call resp with
    | (s, true) => some ((s.dropReceiver job).setStage lun w .idle)
    | (s, false) => some ((s.dropReceiver job).fail lun w)
  | _ => none

end

end Ffp

/-! ## The connection -/

inductive FfpAct
  | read (p : Pdu)
  | readError
  | forward
  | routerTake
  | routerShutdown
  | route
  /-- The router is done: every route is dropped. -/
  | teardown
  | workerTake (lun : UInt64)
  | workerData (lun : UInt64)
  | workerTimeout (lun : UInt64)
  | workerSolicit (lun : UInt64)
  | workerReturn (lun : UInt64) (resp : ScsiResponse)
  | workerAnswer (lun : UInt64)
  | write
  | writerFail

def Ffp.onWorker (s : Ffp) (lun : UInt64) (f : LuWorker → Option Ffp) : Option Ffp := (s.workers.lookup lun).bind f

def serveConnection (cfg : FfpConfig) : Machine Ffp FfpAct where
  step s a :=
    match a with
    | .read p =>
      match s.reader with
      | .idle => if p.Fits then some (s.read p) else none
      | _ => none
    | .readError =>
      match s.reader with
      | .idle => some { s with reader := .forwarding none }
      | _ => none
    | .forward => s.forward
    | .routerTake => s.routerTake cfg
    | .routerShutdown =>
      match s.router with
      | .idle => if s.shutdown then some { s with router := .stopped, shutdown := false } else none
      | _ => none
    | .route =>
      match s.router with
      | .checked r => some (s.route cfg r)
      | _ => none
    | .teardown =>
      match s.router with
      | .stopped => some { s with routes := ∅ }
      | _ => none
    | .workerTake lun => s.onWorker lun (s.workerTake cfg lun)
    | .workerData lun => s.onWorker lun (s.workerData cfg lun)
    | .workerTimeout lun => s.onWorker lun (s.workerTimeout lun)
    | .workerSolicit lun => s.onWorker lun (s.workerSolicit cfg lun)
    | .workerReturn lun resp => s.onWorker lun fun w => s.workerReturn lun w resp
    | .workerAnswer lun => s.onWorker lun (s.workerAnswer cfg lun)
    | .write =>
      if s.writerAlive = true ∧ s.written < s.sent.length then some { s with written := s.written + 1 } else none
    | .writerFail => if s.writerAlive then some { s with writerAlive := false, shutdown := true } else none

end Thur.Iscsi

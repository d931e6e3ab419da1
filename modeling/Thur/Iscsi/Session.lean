import Mathlib.Data.List.AList
import Thur.Lib.Bytes
/-!
# Session — the session manager and its serial numbers

A session is a TSIH, a recyclable 16-bit handle, with its connections under it. A connection carries two 32-bit serial
numbers that wrap: the CmdSN it expects next, adopted from the first command that consumes one, and the StatSN of its
next status. Every operation runs under the manager's one lock.
-/
namespace Thur.Iscsi

structure Connection where
  expCmdSn : UInt32
  cmdSnInitialized : Bool
  statSn : UInt32
  maxRecvDataSegmentLength : UInt32

inductive CmdSnVerdict
  | accept
  | duplicate
  | outOfWindow
deriving DecidableEq

def cmdsnWindow : UInt32 := 32

def advertisedCmdsnWindow : UInt32 := 32

namespace Connection

def new (maxRecvDataSegmentLength : UInt32) : Connection := ⟨0, false, 1, maxRecvDataSegmentLength⟩

def checkCmdsn (c : Connection) (cmdsn : UInt32) (immediate : Bool) : CmdSnVerdict × Connection :=
  if immediate then (.accept, c)
  else if !c.cmdSnInitialized then (.accept, { c with expCmdSn := cmdsn + 1, cmdSnInitialized := true })
  else
    let ahead := cmdsn - c.expCmdSn
    let behind := c.expCmdSn - cmdsn
    if ahead = 0 then (.accept, { c with expCmdSn := c.expCmdSn + 1 })
    else if ahead ≤ cmdsnWindow then (.outOfWindow, c)
    else if behind ≤ cmdsnWindow then (.duplicate, c)
    else (.outOfWindow, c)

def expCmdsnForResponse (c : Connection) (fallback : UInt32) : UInt32 :=
  if c.cmdSnInitialized then c.expCmdSn else fallback

def getAndIncrementStatsn (c : Connection) : UInt32 × Connection := (c.statSn, { c with statSn := c.statSn + 1 })

end Connection

abbrev Tsih := UInt16

structure Session where
  isid : Bytes
  connections : AList (fun _ : UInt16 => Connection)
  partition : Option String
  initiatorIqn : Option String
  authenticatedUser : Option String

structure SessionManager where
  sessions : AList (fun _ : Tsih => Session)
  nextTsih : Tsih

namespace SessionManager

def new : SessionManager := ⟨∅, 1⟩

section

variable (m : SessionManager)

/-- Past every live TSIH and past 0, which discovery uses; with every handle taken it ends on a live one. -/
def scanTsih (m : SessionManager) : Nat → Tsih → Tsih
  | 0, tsih => tsih
  | fuel + 1, tsih =>
    if tsih ≠ 0 ∧ tsih ∉ m.sessions then tsih
    else scanTsih m fuel (if tsih + 1 = 0 then 1 else tsih + 1)

def createSession (isid : Bytes) : Tsih × SessionManager :=
  let tsih := m.scanTsih 65536 m.nextTsih
  let next := if tsih + 1 = 0 then 1 else tsih + 1
  (tsih, ⟨m.sessions.insert tsih ⟨isid, ∅, none, none, none⟩, next⟩)

def alter (tsih : Tsih) (f : Session → Session) : SessionManager :=
  match m.sessions.lookup tsih with
  | some s => { m with sessions := m.sessions.insert tsih (f s) }
  | none => m

def addConnection (tsih cid : UInt16) (maxRecv : UInt32) : Option SessionManager :=
  match m.sessions.lookup tsih with
  | none => none
  | some s =>
    let connections := s.connections.insert cid (Connection.new maxRecv)
    some { m with sessions := m.sessions.insert tsih { s with connections := connections } }

def setPartition (tsih : Tsih) (partition : Option String) : SessionManager :=
  m.alter tsih fun s => if s.partition.isSome then s else { s with partition := partition }

def setInitiatorIqn (tsih : Tsih) (iqn : Option String) : SessionManager :=
  m.alter tsih fun s => { s with initiatorIqn := iqn }

def setAuthenticatedUser (tsih : Tsih) (user : Option String) : SessionManager :=
  m.alter tsih fun s => { s with authenticatedUser := user }

end

end SessionManager
end Thur.Iscsi

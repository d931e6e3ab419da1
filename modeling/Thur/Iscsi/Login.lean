import Mathlib.Data.List.Infix
import Thur.Lib.Machine
import Thur.Iscsi.Chap
import Thur.Iscsi.Pdu
/-!
# Login — the login phase

One login is a loop over Login Requests. Each names a current and a next stage, both chosen by the peer; a request with
the transit bit that names the full-feature phase ends the login unless its own stage forbids it. Only the security
stage runs CHAP, and only the operational stage checks that it was run.
-/
namespace Thur.Iscsi

/-! ## The loop -/

open List

structure SessionParams where
  maxRecvDataSegmentLength : Nat
  immediateData : Bool
  initialR2t : Bool
  maxBurstLength : Nat
  firstBurstLength : Nat
  maxConnections : Nat
  defaultTime2wait : Nat
  defaultTime2retain : Nat

def SessionParams.default : SessionParams :=
  ⟨Iscsi.maxRecvDataSegmentLength, true, false, Iscsi.maxBurstLength, Iscsi.firstBurstLength, 1, 2, 0⟩

def lengthKey (keys : TextKeys) (key : String) : Option Nat :=
  ((keys.lookup key).bind parseU32).filter fun n => 512 ≤ n ∧ n ≤ 0xFFFFFF

def SessionParams.negotiate (p : SessionParams) (keys : TextKeys) : SessionParams :=
  let maxBurst := (lengthKey keys "MaxBurstLength").elim p.maxBurstLength (min p.maxBurstLength)
  let firstBurst := (lengthKey keys "FirstBurstLength").elim p.firstBurstLength (min p.firstBurstLength)
  { p with
    maxBurstLength := maxBurst
    firstBurstLength := min firstBurst maxBurst
    immediateData := (keys.lookup "ImmediateData").elim p.immediateData
      fun v => p.immediateData && eqIgnoreAsciiCase v "Yes"
    initialR2t := (keys.lookup "InitialR2T").elim p.initialR2t (fun v => p.initialR2t || eqIgnoreAsciiCase v "Yes") }

abbrev ReplyKeys := List (String × String)

def yesNo (b : Bool) : String := if b then "Yes" else "No"

def opnegResponseKeys (keys : TextKeys) (p : SessionParams) (isDiscovery : Bool) (tpgt : UInt16) : ReplyKeys :=
  (if isDiscovery then [] else [("TargetPortalGroupTag", toString tpgt.toNat)]) ++
  ((keys.lookup "ErrorRecoveryLevel").map (fun v => ("ErrorRecoveryLevel", v))).toList ++
  (if (keys.lookup "HeaderDigest").isSome then [("HeaderDigest", "None")] else []) ++
  (if (keys.lookup "DataDigest").isSome then [("DataDigest", "None")] else []) ++
  (if (keys.lookup "OFMarker").isSome then [("OFMarker", "No")] else []) ++
  (if (keys.lookup "IFMarker").isSome then [("IFMarker", "No")] else []) ++
  [("MaxRecvDataSegmentLength", toString p.maxRecvDataSegmentLength),
    ("DefaultTime2Wait", (keys.lookup "DefaultTime2Wait").getD (toString p.defaultTime2wait)),
    ("DefaultTime2Retain", (keys.lookup "DefaultTime2Retain").getD (toString p.defaultTime2retain))] ++
  (if isDiscovery then []
    else [("ImmediateData", yesNo p.immediateData), ("InitialR2T", yesNo p.initialR2t),
      ("MaxBurstLength", toString p.maxBurstLength), ("FirstBurstLength", toString p.firstBurstLength),
      ("MaxConnections", toString p.maxConnections)])

structure ChapState where
  challenge : Option Bytes
  identifier : UInt8
  algorithm : Option ChapAlgorithm
  waitingForResponse : Bool
  authenticatedUser : Option String
  authenticatedPartition : Option String
  authenticatedVolumes : Option (List String)

def ChapState.new : ChapState := ⟨none, 1, none, false, none, none, none⟩

def stageSecurity : UInt8 := 0

def stageOpneg : UInt8 := 1

def stageFull : UInt8 := 3

/-- With what the target reads while it answers: the clock, its random bytes, the session manager. -/
structure LoginInput where
  pdu : Pdu
  now : Instant
  challenge : Bytes
  manager : SessionManager

namespace LoginInput

def csg (x : LoginInput) : UInt8 := (x.pdu.flags >>> 2) &&& 3

def nsg (x : LoginInput) : UInt8 := x.pdu.flags &&& 3

def transit (x : LoginInput) : Bool := x.pdu.flags &&& 0x80 != 0

end LoginInput

structure LoginReply where
  itt : UInt32
  flags : UInt8
  isid : Bytes
  tsih : Tsih
  statusClass : UInt8
  statusDetail : UInt8
  statSn : UInt32
  expCmdSn : UInt32
  maxCmdSn : UInt32
  keys : ReplyKeys

structure LoginOutcome where
  isDiscovery : Bool
  tsih : Tsih
  cid : UInt16
  statsn : UInt32
  initiatorIqn : Option String
  isid : Bytes
  authenticatedPartition : Option String
  authenticatedVolumes : Option (List String)
  authenticatedUser : Option String
  peerMaxRecvDataSegmentLength : Nat
  negotiatedMaxBurstLength : Nat
  negotiatedFirstBurstLength : Nat

structure LoginState where
  currentStage : UInt8
  negotiated : SessionParams
  isid : Bytes
  isDiscovery : Bool
  statsn : UInt32
  chap : ChapState
  initiatorName : Option String
  peerMaxRecvDataSegmentLength : Nat

def LoginState.init : LoginState :=
  ⟨stageSecurity, .default, List.replicate 6 0, false, 1, .new, none, defaultPeerMaxRecvDataSegmentLength⟩

structure LoginConfig where
  targetIqn : String
  tpgt : UInt16
  /-- The CHAP factory's answer, if one is configured. -/
  auth : Option (Except String (IscsiUsersFile × List ChapAlgorithm))

section Loop

variable (digest : ChapAlgorithm → Bytes → Bytes) (lossy : Bytes → String) {file : IscsiUsersFile} {c : ChapState}
  {cfg : LoginConfig}

section

variable (s : ChapState) (a : ChapAuthenticator) (keys : TextKeys)

def offerChallenge (challenge : Bytes) :
    Except String (ChapState × ReplyKeys × Bool) :=
  match keys.lookup "CHAP_A" with
  | none => .ok (s, [("AuthMethod", "CHAP")], false)
  | some chapA =>
    match selectAlgorithm chapA a.allowedAlgorithms with
    | none => .error ("No common CHAP algorithm (offered: " ++ chapA ++ ")")
    | some selected =>
      let identifier := s.identifier % 255 + 1
      .ok ({ s with identifier := identifier, challenge := some challenge, algorithm := some selected,
                    waitingForResponse := true },
        [("CHAP_A", toString selected.id.toNat), ("CHAP_I", toString identifier.toNat), ("CHAP_C", hexValue challenge)],
        false)

def answerMutual (algorithm : ChapAlgorithm) :
    Except String ReplyKeys := do
  let chapC ← (keys.lookup "CHAP_C").elim (.error "Missing CHAP_C for mutual CHAP") .ok
  let initChallenge ← (parseHexValue chapC).elim (.error "Invalid CHAP_C hex") .ok
  let initIdentifier ← ((keys.lookup "CHAP_I").bind parseU8).elim (.error "Missing CHAP_I for mutual CHAP") .ok
  if s.challenge = some initChallenge then
    .error ("CHAP reflection detected: initiator challenge (CHAP_C) equals the target's outstanding challenge")
  else
    let response ← a.computeTargetResponse digest initChallenge initIdentifier algorithm
    let name ← a.targetUsername.elim (.error "Target username unconfigured") .ok
    .ok [("CHAP_N", name), ("CHAP_R", hexValue response)]

def checkAnswer (now : Instant) :
    Except String (ChapState × ReplyKeys × Bool) := do
  let username ← (keys.lookup "CHAP_N").elim (.error "Missing CHAP_N") .ok
  let responseHex ← (keys.lookup "CHAP_R").elim (.error "Missing CHAP_R") .ok
  let response ← (parseHexValue responseHex).elim (.error "Invalid CHAP_R hex") .ok
  let challenge ← s.challenge.elim (.error "No CHAP challenge sent") .ok
  let algorithm ← s.algorithm.elim (.error "No CHAP algorithm negotiated") .ok
  match a.verifyResponse digest now username challenge s.identifier response algorithm with
  | .error e => .error ("CHAP authentication error: " ++ e)
  | .ok false => .error "CHAP authentication failed"
  | .ok true =>
    let s' := { s with
      authenticatedUser := some username
      authenticatedPartition := (a.getUser username).bind ChapUser.partition
      -- a user without a volumes list is admitted to none, not to all
      authenticatedVolumes := some (((a.getUser username).bind ChapUser.volumes).getD []) }
    if a.requiresMutualChap username then
      let keys' ← answerMutual digest s' a keys algorithm
      .ok (s', keys', true)
    else .ok (s', [], true)

def negotiateChapSecurityStage (now : Instant)
    (challenge : Bytes) : Except String (ChapState × ReplyKeys × Bool) :=
  if ((keys.lookup "AuthMethod").map (fun m => decide ("CHAP".toList <:+: m.toList))) = some false then
    .error "CHAP authentication required"
  else if !s.waitingForResponse then offerChallenge s a keys challenge
  else checkAnswer digest s a keys now

end

inductive LoginTurn
  | again (s : LoginState) (reply : LoginReply)
  | done (o : LoginOutcome) (manager : SessionManager) (reply : LoginReply)
  | failed (error : String) (reply : Option LoginReply)

def rejection (x : LoginInput) (isid : Bytes) (statsn : UInt32) : LoginReply :=
  ⟨x.pdu.itt, (0x80 : UInt8) ||| (x.csg <<< 2) ||| x.csg, isid, 0, 0x02, 0x01, statsn, x.pdu.cmdsn,
    x.pdu.cmdsn + advertisedCmdsnWindow, []⟩

def LoginState.read (s : LoginState) (x : LoginInput) (keys : TextKeys) : LoginState :=
  let security := s.currentStage = stageSecurity
  { s with
    initiatorName := s.initiatorName.or (keys.lookup "InitiatorName")
    peerMaxRecvDataSegmentLength := (lengthKey keys "MaxRecvDataSegmentLength").getD s.peerMaxRecvDataSegmentLength
    negotiated := s.negotiated.negotiate keys
    isDiscovery := if security then ((keys.lookup "SessionType").map (eqIgnoreAsciiCase · "Discovery")).getD false
      else s.isDiscovery
    isid := if security then x.pdu.isid else s.isid }

/-- The security stage runs CHAP, the operational one asks whether it was run, every other value passes. -/
def stageTurn (cfg : LoginConfig) (a : Option ChapAuthenticator) (s : LoginState) (x : LoginInput) (keys : TextKeys) :
    Except (String × Option LoginReply) (ChapState × ReplyKeys × Bool) :=
  if x.csg = stageSecurity then
    match a with
    | some a =>
      match negotiateChapSecurityStage digest s.chap a keys x.now x.challenge with
      | .error e => .error (e, none)
      | .ok r => .ok r
    | none => .ok (s.chap, ("AuthMethod", "None") :: (if s.isDiscovery then [] else [("TargetName", cfg.targetIqn)]), true)
  else if x.csg = stageOpneg then
    if a.isSome ∧ s.chap.waitingForResponse = false ∧ s.chap.authenticatedUser = none then
      .error ("Authentication required - rejected initiator", some (rejection x s.isid s.statsn))
    else .ok (s.chap, [], true)
  else .ok (s.chap, [], true)

/-- The session and its connection, then the reply, then what the session is bound to. -/
def enterFfp (s : LoginState) (x : LoginInput) (respKeys : ReplyKeys) : LoginTurn :=
  let reply (tsih : Tsih) : LoginReply :=
    ⟨x.pdu.itt, (0x80 : UInt8) ||| (x.csg <<< 2) ||| x.nsg, s.isid, tsih, 0, 0, s.statsn, x.pdu.cmdsn,
      x.pdu.cmdsn + advertisedCmdsnWindow, respKeys⟩
  let outcome (tsih : Tsih) : LoginOutcome :=
    ⟨s.isDiscovery, tsih, 0, s.statsn + 1, s.initiatorName, s.isid, s.chap.authenticatedPartition,
      s.chap.authenticatedVolumes, s.chap.authenticatedUser, s.peerMaxRecvDataSegmentLength,
      s.negotiated.maxBurstLength, s.negotiated.firstBurstLength⟩
  if s.isDiscovery then .done (outcome 0) x.manager (reply 0)
  else
    let (tsih, m) := x.manager.createSession s.isid
    match m.addConnection tsih 0 (UInt32.ofNat s.negotiated.maxRecvDataSegmentLength) with
    | none => .failed "Failed to add connection" none
    | some m =>
      let m := if tsih ≠ 0 then
          ((m.setPartition tsih s.chap.authenticatedPartition).setInitiatorIqn tsih s.initiatorName).setAuthenticatedUser
            tsih s.chap.authenticatedUser
        else m
      .done (outcome tsih) m (reply tsih)

def loginTurn (cfg : LoginConfig) (a : Option ChapAuthenticator) (s : LoginState) (x : LoginInput) : LoginTurn :=
  if ¬ x.pdu.Fits then .failed "DataSegmentLength exceeds MaxRecvDataSegmentLength" none
  else if x.pdu.opcode ≠ 0x03 then .failed "expected Login Request" none
  else
    let keys := parseTextKv lossy x.pdu.data
    let s := s.read x keys
    match stageTurn digest cfg a s x keys with
    | .error (e, reply) => .failed e reply
    | .ok (chap, stageKeys, allowTransit) =>
      let s := { s with chap := chap }
      let transit := x.transit && allowTransit
      let opneg := x.csg = stageOpneg ∨ (x.csg = stageSecurity ∧ x.nsg = stageFull)
      let respKeys := stageKeys ++ (if opneg then opnegResponseKeys keys s.negotiated s.isDiscovery cfg.tpgt else [])
      if transit ∧ x.nsg = stageFull then enterFfp s x respKeys
      else
        let nsg := if transit then x.nsg else x.csg
        let flags : UInt8 := (if transit then (0x80 : UInt8) else 0) ||| (x.csg <<< 2) ||| nsg
        .again { s with statsn := s.statsn + 1, currentStage := if transit then nsg else s.currentStage }
          ⟨x.pdu.itt, flags, s.isid, 0, 0, 0, s.statsn, x.pdu.cmdsn, x.pdu.cmdsn + advertisedCmdsnWindow, respKeys⟩

inductive LoginPhase
  | open (s : LoginState)
  | done (o : LoginOutcome) (manager : SessionManager)
  | failed (error : String)

def LoginPhase.outcome : LoginPhase → Option LoginOutcome
  | .done o _ => some o
  | _ => none

structure LoginRun where
  phase : LoginPhase
  transcript : List (LoginInput × Option LoginReply)

def LoginRun.start : LoginRun := ⟨.open .init, []⟩

def LoginConfig.authenticator (cfg : LoginConfig) : Except String (Option ChapAuthenticator) :=
  match cfg.auth with
  | none => .ok none
  | some (.ok (file, allowed)) => .ok (some (ChapAuthenticator.fromFile file allowed))
  | some (.error e) => .error e

def handleLoginPhase (cfg : LoginConfig) : Machine LoginRun LoginInput where
  step r x :=
    match r.phase with
    | .open s =>
      match cfg.authenticator with
      | .error e =>
        -- one request is read, so that the rejection can name its stage and ISID
        if ¬ x.pdu.Fits then some ⟨.failed "DataSegmentLength exceeds MaxRecvDataSegmentLength", r.transcript ++ [(x, none)]⟩
        else some ⟨.failed ("CHAP config load failed: " ++ e), r.transcript ++ [(x, some (rejection x x.pdu.isid s.statsn))]⟩
      | .ok a =>
        match loginTurn digest lossy cfg a s x with
        | .again s' reply => some ⟨.open s', r.transcript ++ [(x, some reply)]⟩
        | .done o m reply => some ⟨.done o m, r.transcript ++ [(x, some reply)]⟩
        | .failed e reply => some ⟨.failed e, r.transcript ++ [(x, reply)]⟩
    | _ => none

/-! ## What a login has to show -/

abbrev Transcript := List (LoginInput × Option LoginReply)

variable {t : Transcript}

def Challenged (reply : Option LoginReply) (challenge : Bytes) (identifier : UInt8) (algorithm : ChapAlgorithm) : Prop :=
  ∃ r ∈ reply, ("CHAP_A", toString algorithm.id.toNat) ∈ r.keys ∧ ("CHAP_I", toString identifier.toNat) ∈ r.keys ∧
    ("CHAP_C", hexValue challenge) ∈ r.keys

/-- After this login's challenge a request had the user's name and the response of a password that counted then. -/
def ProvedBy (t : Transcript) (e : UserEntry) : Prop :=
  ∃ x y : LoginInput × Option LoginReply, [x, y].Sublist t ∧ ∃ identifier algorithm,
    Challenged x.2 x.1.challenge identifier algorithm ∧
    (parseTextKv lossy y.1.pdu.data).lookup "CHAP_N" = some e.username ∧
    ∃ password ∈ (ChapUser.ofEntry e).passwords y.1.now,
      ((parseTextKv lossy y.1.pdu.data).lookup "CHAP_R").bind parseHexValue =
        some (computeChapResponse digest algorithm identifier password x.1.challenge)

def Owns (file : IscsiUsersFile) (t : Transcript) (user partition : Option String) (volumes : Option (List String)) : Prop :=
  ∃ e ∈ file.users, e.disabled = false ∧ ProvedBy digest lossy t e ∧
    user = some e.username ∧ partition = e.partition ∧ volumes = some (e.volumes.getD [])

/-- **Proved** by an enabled user of the file, whose partition and volumes the outcome carries. -/
def Authenticated (file : IscsiUsersFile) (t : Transcript) (o : LoginOutcome) : Prop :=
  Owns digest lossy file t o.authenticatedUser o.authenticatedPartition o.authenticatedVolumes

/-- It would end an unauthenticated login at a stage that does not ask: an unknown one, or the operational one with the
challenge unanswered. -/
def Unchecked (r : LoginRun) (x : LoginInput) : Prop :=
  match r.phase with
  | .open s => s.chap.authenticatedUser = none ∧ x.transit = true ∧ x.nsg = stageFull ∧
      ((x.csg ≠ stageSecurity ∧ x.csg ≠ stageOpneg) ∨ (x.csg = stageOpneg ∧ s.chap.waitingForResponse = true))
  | _ => False

instance (r : LoginRun) (x : LoginInput) : Decidable (Unchecked r x) :=
  match h : r.phase with
  | .open s => decidable_of_iff (s.chap.authenticatedUser = none ∧ x.transit = true ∧ x.nsg = stageFull ∧
      ((x.csg ≠ stageSecurity ∧ x.csg ≠ stageOpneg) ∨ (x.csg = stageOpneg ∧ s.chap.waitingForResponse = true)))
      (by rw [Unchecked, h])
  | .done _ _ => .isFalse (by rw [Unchecked, h]; exact id)
  | .failed _ => .isFalse (by rw [Unchecked, h]; exact id)

/-! ## One turn -/

variable {digest lossy} {stageKeys : ReplyKeys} {o : LoginOutcome} {allow : Bool} {c' : ChapState}
  {inputs : List LoginInput} {a : ChapAuthenticator}

theorem ProvedBy.append {e : UserEntry} (h : ProvedBy digest lossy t e) (t' : Transcript) :
    ProvedBy digest lossy (t ++ t') e := by
  obtain ⟨x, y, hsub, hrest⟩ := h
  exact ⟨x, y, hsub.trans (sublist_append_left t t'), hrest⟩

theorem Owns.append {user partition : Option String} {volumes : Option (List String)}
    (h : Owns digest lossy file t user partition volumes) (t' : Transcript) :
    Owns digest lossy file (t ++ t') user partition volumes := by
  obtain ⟨e, he, hen, hp, hrest⟩ := h
  exact ⟨e, he, hen, hp.append t', hrest⟩

structure ChapInv (digest : ChapAlgorithm → Bytes → Bytes) (lossy : Bytes → String) (file : IscsiUsersFile)
    (t : Transcript) (c : ChapState) : Prop where
  waiting : c.waitingForResponse = true → ∃ x ∈ t, c.challenge = some x.1.challenge ∧
    ∃ algorithm, c.algorithm = some algorithm ∧ Challenged x.2 x.1.challenge c.identifier algorithm
  user : c.authenticatedUser ≠ none →
    Owns digest lossy file t c.authenticatedUser c.authenticatedPartition c.authenticatedVolumes

theorem ChapInv.append (h : ChapInv digest lossy file t c) (t' : Transcript) :
    ChapInv digest lossy file (t ++ t') c := by
  refine ⟨fun hw => ?_, fun hu => (h.user hu).append t'⟩
  obtain ⟨x, hx, hrest⟩ := h.waiting hw
  exact ⟨x, mem_append_left _ hx, hrest⟩

theorem offerChallenge_ok {keys : TextKeys} {challenge : Bytes}
    (h : offerChallenge c a keys challenge = .ok (c', stageKeys, allow)) :
    allow = false ∧ (c' = c ∨ ∃ identifier algorithm,
      c' = { c with identifier := identifier, challenge := some challenge, algorithm := some algorithm,
                    waitingForResponse := true } ∧
      stageKeys = [("CHAP_A", toString algorithm.id.toNat), ("CHAP_I", toString identifier.toNat),
        ("CHAP_C", hexValue challenge)]) := by
  rw [offerChallenge] at h
  split at h
  · cases h
    exact ⟨rfl, .inl rfl⟩
  · split at h <;> cases h
    next selected _ =>
      exact ⟨rfl, .inr ⟨_, selected, rfl, rfl⟩⟩

theorem elim_error_ok {α : Type} {o : Option α} {e : String} {x : α} (h : o.elim (Except.error e) Except.ok = .ok x) :
    o = some x := by
  cases o with
  | none => cases h
  | some y => exact congrArg some (Except.ok.inj h)

theorem checkAnswer_ok {keys : TextKeys} {now : Instant}
    (h : checkAnswer digest c a keys now = .ok (c', stageKeys, allow)) :
    ∃ username challenge algorithm u, keys.lookup "CHAP_N" = some username ∧ c.challenge = some challenge ∧
      c.algorithm = some algorithm ∧ a.getUser username = some u ∧
      (∃ password ∈ u.passwords now, (keys.lookup "CHAP_R").bind parseHexValue =
        some (computeChapResponse digest algorithm c.identifier password challenge)) ∧
      c' = { c with authenticatedUser := some username, authenticatedPartition := u.partition,
                    authenticatedVolumes := some (u.volumes.getD []) } := by
  simp only [checkAnswer, bind, Except.bind] at h
  split at h
  · cases h
  next username hn =>
  split at h
  · cases h
  next responseHex hr =>
  split at h
  · cases h
  next response hresp =>
  split at h
  · cases h
  next challenge hc =>
  split at h
  · cases h
  next algorithm ha =>
  replace hn := elim_error_ok hn
  replace hr := elim_error_ok hr
  replace hresp := elim_error_ok hresp
  replace hc := elim_error_ok hc
  replace ha := elim_error_ok ha
  cases hv : a.verifyResponse digest now username challenge c.identifier response algorithm with
  | error e =>
    rw [hv] at h
    cases h
  | ok good =>
    rw [hv] at h
    cases good with
    | false => cases h
    | true =>
      obtain ⟨u, hu, password, hp, hresponse⟩ := ChapAuthenticator.verifyResponse_true digest hv
      refine ⟨username, challenge, algorithm, u, hn, hc, ha, hu, ⟨password, hp, ?_⟩, ?_⟩
      · rw [hr, Option.bind_some, hresp, hresponse]
      · rw [hu] at h
        simp only [Option.bind_some] at h
        split at h
        · split at h <;> cases h
          rfl
        · cases h
          rfl

section File

variable {file : IscsiUsersFile} {allowed : List ChapAlgorithm} {cfg : LoginConfig} {t : Transcript} {x : LoginInput}
  {reply : LoginReply} {s : LoginState} {respKeys : ReplyKeys} {m : SessionManager}

theorem negotiateChapSecurityStage_inv {c c' : ChapState}
    (hc : ChapInv digest lossy file t c)
    (h : negotiateChapSecurityStage digest c (.fromFile file allowed) (parseTextKv lossy x.pdu.data) x.now x.challenge =
      .ok (c', stageKeys, allow)) (hkeys : stageKeys ⊆ reply.keys) :
    ChapInv digest lossy file (t ++ [(x, some reply)]) c' ∧ (allow = true → c'.authenticatedUser ≠ none) := by
  rw [negotiateChapSecurityStage] at h
  split at h
  · cases h
  split at h
  · -- no challenge is out yet
    obtain ⟨rfl, rfl | ⟨identifier, algorithm, rfl, rfl⟩⟩ := offerChallenge_ok h
    · exact ⟨hc.append _, fun hb => by cases hb⟩
    · refine ⟨⟨fun _ => ?_, (hc.append _).user⟩, fun hb => by cases hb⟩
      refine ⟨(x, some reply), mem_append_right _ (mem_singleton_self _), rfl, algorithm, rfl, reply, rfl, ?_⟩
      exact ⟨hkeys (by simp), hkeys (by simp), hkeys (by simp)⟩
  · next hw =>
    obtain ⟨username, challenge, algorithm, u, hn, hch, ha, hu, ⟨password, hp, hr⟩, rfl⟩ := checkAnswer_ok h
    obtain ⟨y, hy, hychal, algorithm', hya, hsent⟩ := hc.waiting (by simpa using hw)
    rw [hch, Option.some.injEq] at hychal
    rw [ha, Option.some.injEq] at hya
    subst hychal hya
    obtain ⟨e, he, hen, rfl, rfl⟩ := ChapAuthenticator.getUser_fromFile hu
    refine ⟨⟨(hc.append _).waiting, fun _ => ⟨e, he, hen, ?_, rfl, rfl, rfl⟩⟩, fun _ hnone => by cases hnone⟩
    have hsub : [y, (x, some reply)].Sublist (t ++ [(x, some reply)]) :=
      (singleton_sublist.2 hy).append (List.Sublist.refl [(x, some reply)])
    exact ⟨y, (x, some reply), hsub, c.identifier, algorithm, hsent, hn, password, hp, hr⟩

theorem stageTurn_inv (hc : ChapInv digest lossy file t s.chap)
    (h : stageTurn digest cfg (some (.fromFile file allowed)) s x (parseTextKv lossy x.pdu.data) =
      .ok (c', stageKeys, allow)) (hkeys : stageKeys ⊆ reply.keys) :
    ChapInv digest lossy file (t ++ [(x, some reply)]) c' ∧
      (allow = true → c'.authenticatedUser ≠ none ∨ (s.chap.authenticatedUser = none ∧
        ((x.csg ≠ stageSecurity ∧ x.csg ≠ stageOpneg) ∨ (x.csg = stageOpneg ∧ s.chap.waitingForResponse = true)))) := by
  rw [stageTurn] at h
  split at h
  · -- the security stage
    split at h <;> cases h
    next hneg =>
      obtain ⟨hinv, huser⟩ := negotiateChapSecurityStage_inv hc hneg hkeys
      exact ⟨hinv, fun ha => .inl (huser ha)⟩
  · next hsec =>
    split at h
    · -- the operational stage
      next hop =>
      split at h <;> cases h
      next hrej =>
        refine ⟨hc.append _, fun _ => ?_⟩
        by_cases hu : s.chap.authenticatedUser = none
        · refine .inr ⟨hu, .inr ⟨hop, ?_⟩⟩
          cases hw : s.chap.waitingForResponse with
          | true => rfl
          | false => exact absurd ⟨rfl, hw, hu⟩ hrej
        · exact .inl hu
    · next hop =>
      cases h
      refine ⟨hc.append _, fun _ => ?_⟩
      by_cases hu : s.chap.authenticatedUser = none
      · exact .inr ⟨hu, .inl ⟨hsec, hop⟩⟩
      · exact .inl hu

theorem enterFfp_done
    (h : enterFfp s x respKeys = .done o m reply) :
    reply.keys = respKeys ∧ o.authenticatedUser = s.chap.authenticatedUser ∧
      o.authenticatedPartition = s.chap.authenticatedPartition ∧ o.authenticatedVolumes = s.chap.authenticatedVolumes := by
  simp only [enterFfp] at h
  split at h
  · cases h
    exact ⟨rfl, rfl, rfl, rfl⟩
  · split at h <;> cases h
    exact ⟨rfl, rfl, rfl, rfl⟩

theorem enterFfp_ne_again {s' : LoginState} : enterFfp s x respKeys ≠ .again s' reply := by
  intro h
  simp only [enterFfp] at h
  split at h
  · cases h
  · split at h <;> cases h

theorem loginTurn_again {s' : LoginState} (hc : ChapInv digest lossy file t s.chap)
    (h : loginTurn digest lossy cfg (some (.fromFile file allowed)) s x = .again s' reply) :
    ChapInv digest lossy file (t ++ [(x, some reply)]) s'.chap := by
  simp only [loginTurn] at h
  split at h
  · cases h
  split at h
  · cases h
  split at h
  · cases h
  next hstage =>
  have hread : ChapInv digest lossy file t (s.read x (parseTextKv lossy x.pdu.data)).chap := hc
  split at h
  · exact absurd h enterFfp_ne_again
  · cases h
    exact (stageTurn_inv hread hstage (subset_append_left _ _)).1

theorem loginTurn_done (hc : ChapInv digest lossy file t s.chap)
    (hok : ¬ Unchecked ⟨.open s, t⟩ x)
    (h : loginTurn digest lossy cfg (some (.fromFile file allowed)) s x = .done o m reply) :
    Authenticated digest lossy file (t ++ [(x, some reply)]) o := by
  simp only [loginTurn] at h
  split at h
  · cases h
  split at h
  · cases h
  split at h
  · cases h
  next chap stageKeys allow hstage =>
  have hread : ChapInv digest lossy file t (s.read x (parseTextKv lossy x.pdu.data)).chap := hc
  split at h
  · next hfull =>
    rw [Bool.and_eq_true] at hfull
    obtain ⟨hkeys, hu, hpart, hvol⟩ := enterFfp_done h
    have hsub : stageKeys ⊆ reply.keys := by
      rw [hkeys]
      exact subset_append_left _ _
    obtain ⟨hinv, huser⟩ := stageTurn_inv hread hstage hsub
    rw [Authenticated, hu, hpart, hvol]
    refine hinv.user ?_
    rcases huser hfull.1.2 with huser | ⟨hnone, hstages⟩
    · exact huser
    · exact absurd ⟨hnone, hfull.1.1, hfull.2, hstages⟩ hok
  · cases h

end File

/-! ## Whole logins -/

theorem LoginPhase.outcome_some {p : LoginPhase} (h : p.outcome = some o) : ∃ m, p = .done o m := by
  cases p with
  | done o' m =>
    cases h
    exact ⟨m, rfl⟩
  | _ => cases h

structure LoginInv (digest : ChapAlgorithm → Bytes → Bytes) (lossy : Bytes → String) (file : IscsiUsersFile)
    (r : LoginRun) : Prop where
  going : ∀ s, r.phase = .open s → ChapInv digest lossy file r.transcript s.chap
  ended : ∀ o m, r.phase = .done o m → Authenticated digest lossy file r.transcript o

theorem loginInv_start (file : IscsiUsersFile) : LoginInv digest lossy file .start := by
  refine ⟨fun s hs => ?_, fun o m ho => by cases ho⟩
  cases hs
  exact ⟨(fun hw => by cases hw), fun hu => absurd rfl hu⟩

theorem handleLoginPhase_step_inv {allowed : List ChapAlgorithm} (hauth : cfg.auth = some (.ok (file, allowed)))
    (r : LoginRun) (x : LoginInput) (r' : LoginRun) (hinv : LoginInv digest lossy file r) (hok : ¬ Unchecked r x)
    (hs : (handleLoginPhase digest lossy cfg).step r x = some r') : LoginInv digest lossy file r' := by
  obtain ⟨phase, t⟩ := r
  simp only [handleLoginPhase] at hs
  cases phase with
  | done | failed => cases hs
  | «open» s =>
    have hc : ChapInv digest lossy file t s.chap := hinv.going s rfl
    have ha : cfg.authenticator = .ok (some (.fromFile file allowed)) := by rw [LoginConfig.authenticator, hauth]
    simp only [ha] at hs
    cases hturn : loginTurn digest lossy cfg (some (.fromFile file allowed)) s x with
    | again =>
      rw [hturn] at hs
      cases hs
      refine ⟨fun s1 hs1 => ?_, fun o m ho => by cases ho⟩
      cases hs1
      exact loginTurn_again hc hturn
    | done =>
      rw [hturn] at hs
      cases hs
      refine ⟨(fun s1 hs1 => by cases hs1), fun o' m' ho => ?_⟩
      cases ho
      exact loginTurn_done hc hok hturn
    | failed =>
      rw [hturn] at hs
      cases hs
      exact ⟨(fun s1 hs1 => by cases hs1), (fun o m ho => by cases ho)⟩

theorem handleLoginPhase_step_unreadable {e : String} (hauth : cfg.auth = some (.error e)) (r : LoginRun)
    (x : LoginInput) (r' : LoginRun) (_ : ∀ o m, r.phase ≠ .done o m)
    (hs : (handleLoginPhase digest lossy cfg).step r x = some r') : ∀ o m, r'.phase ≠ .done o m := by
  have ha : cfg.authenticator = .error e := by rw [LoginConfig.authenticator, hauth]
  intro o m hdone
  simp only [handleLoginPhase, ha] at hs
  split at hs
  · split at hs
    · cases hs
      cases hdone
    · cases hs
      cases hdone
  · cases hs

theorem handleLoginPhase_transcript {r r' : LoginRun}
    (h : (handleLoginPhase digest lossy cfg).run r inputs = some r') :
    r'.transcript.map Prod.fst = r.transcript.map Prod.fst ++ inputs := by
  induction inputs generalizing r with
  | nil =>
    cases h
    rw [append_nil]
  | cons x inputs ih =>
    obtain ⟨r1, hs, hr⟩ := (handleLoginPhase digest lossy cfg).run_cons_some h
    have hone : r1.transcript.map Prod.fst = r.transcript.map Prod.fst ++ [x] := by
      simp only [handleLoginPhase] at hs
      split at hs
      · split at hs
        · split at hs <;> cases hs <;> exact map_append
        · split at hs <;> cases hs <;> exact map_append
      · cases hs
    rw [ih hr, hone, append_assoc]
    rfl

variable (digest lossy)

/-- **No full-feature phase without authentication**: under a CHAP factory a login that ends was proved by an enabled
user, whose name, partition and volumes it carries, if no request was unchecked. -/
theorem login_authenticated {cfg : LoginConfig} {answer : Except String (IscsiUsersFile × List ChapAlgorithm)}
    (hauth : cfg.auth = some answer) {r : LoginRun}
    (hrun : (handleLoginPhase digest lossy cfg).run .start inputs = some r)
    (hok : (handleLoginPhase digest lossy cfg).Meets (fun r x => ¬ Unchecked r x) .start inputs)
    (ho : r.phase.outcome = some o) :
    r.transcript.map Prod.fst = inputs ∧
      ∃ file allowed, answer = .ok (file, allowed) ∧ Authenticated digest lossy file r.transcript o := by
  refine ⟨handleLoginPhase_transcript hrun, ?_⟩
  obtain ⟨m, ho⟩ := LoginPhase.outcome_some ho
  cases answer with
  | error e =>
    have hnever : ∀ o m, r.phase ≠ .done o m := (handleLoginPhase digest lossy cfg).run_inv'
      (handleLoginPhase_step_unreadable hauth) (fun o m h => by cases h) hrun
    exact absurd ho (hnever o m)
  | ok answer =>
    obtain ⟨file, allowed⟩ := answer
    have hinv := (handleLoginPhase digest lossy cfg).run_inv (handleLoginPhase_step_inv hauth) (loginInv_start file) hok hrun
    exact ⟨file, allowed, rfl, hinv.ended o m ho⟩

end Loop

/-! ## Three logins -/

def plainDigest (algorithm : ChapAlgorithm) (b : Bytes) : Bytes := algorithm.id :: b

def asciiText (b : Bytes) : String := String.ofList (b.map (fun x => Char.ofNat x.toNat))

def loginRequest (csg nsg : UInt8) (transit : Bool) (text : String) : LoginInput :=
  ⟨⟨0x03, true, (if transit then (0x80 : UInt8) else 0) ||| (csg <<< 2) ||| nsg,
    List.replicate 8 0, 1, 0, 0, [], utf8 text⟩, 0,
    [1, 2, 3], .new⟩

def oneUserFile : IscsiUsersFile := ⟨none, none, [⟨"u", "pw", false, some "P", none, false, none, none⟩]⟩

def oneUser : LoginConfig := ⟨"iqn.test:tgt", 1, some (.ok (oneUserFile, [.sha256]))⟩

def honestLogin : List LoginInput :=
  [loginRequest 0 1 true "InitiatorName=iqn.init:host\x00AuthMethod=CHAP",
    loginRequest 0 1 false "CHAP_A=5,7",
    loginRequest 0 1 true "CHAP_N=u\x00CHAP_R=0x07027077010203",
    loginRequest 1 3 true "MaxBurstLength=65536"]

theorem login_authenticated_honest : ∃ r o,
    (handleLoginPhase plainDigest asciiText oneUser).run .start honestLogin = some r ∧ r.phase.outcome = some o ∧
      o.authenticatedUser = some "u" ∧ Authenticated plainDigest asciiText oneUserFile r.transcript o := by
  obtain ⟨r, hr, o, ho, hu⟩ : ∃ r ∈ (handleLoginPhase plainDigest asciiText oneUser).run .start honestLogin,
      ∃ o ∈ r.phase.outcome, o.authenticatedUser = some "u" := by decide +kernel
  obtain ⟨-, file, allowed, hanswer, hauth⟩ :=
    login_authenticated plainDigest asciiText rfl hr (by decide +kernel) ho
  cases hanswer
  exact ⟨r, o, hr, ho, hu, hauth⟩

/-- **Two ways round CHAP**: a stage that does not exist, and an operational request between challenge and answer. -/
theorem login_skips_authentication :
    (∃ r ∈ (handleLoginPhase plainDigest asciiText oneUser).run .start [loginRequest 3 3 true ""],
      ∃ o ∈ r.phase.outcome, o.tsih = 1 ∧ o.authenticatedUser = none ∧ o.authenticatedPartition = none ∧
        o.authenticatedVolumes = none) ∧
    (∃ r ∈ (handleLoginPhase plainDigest asciiText oneUser).run .start
        [loginRequest 0 1 false "CHAP_A=7", loginRequest 1 3 true ""],
      ∃ o ∈ r.phase.outcome, o.tsih = 1 ∧ o.authenticatedUser = none ∧ o.authenticatedPartition = none ∧
        o.authenticatedVolumes = none) := by
  decide +kernel

end Thur.Iscsi

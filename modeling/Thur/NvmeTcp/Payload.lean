import Thur.Lib.Bytes
import Thur.Lib.Paged
/-!
# Payload — the data of a write over NVMe/TCP

A write whose data is not all in its capsule asks for the rest with one R2T and places what H2CData brings, by offset,
until the count is reached.  The count is not coverage: bytes that came twice count twice.
-/
namespace Thur.NvmeTcp

open List

inductive DataDirection
  | none
  | hostToController
  | controllerToHost
  | bidirectional
deriving DecidableEq

def dataDirection (opc : UInt8) : DataDirection :=
  match opc &&& 3 with
  | 0 => .none
  | 1 => .hostToController
  | 2 => .controllerToHost
  | _ => .bidirectional

structure Command where
  cid : Nat
  opcode : UInt8
  sglLen : Nat
  icd : Bytes

structure H2CData where
  cccid : Nat
  ttag : Nat
  datao : Nat
  data : Bytes
  lastPdu : Bool
  digestOk : Bool := true

/-- The channel closed, a TermReq, a Data Transfer Error, or a handler and its `data_out`. -/
inductive Outcome
  | gone
  | termReq
  | dataTransferError
  | handler (dataOut : Option Bytes)
deriving DecidableEq

structure Transfer where
  placed : List H2CData
  assembled : Bytes
  received : Nat
  corrupt : Bool

def Command.needsR2t (c : Command) : Bool :=
  dataDirection c.opcode = .hostToController ∧ c.icd.length < c.sglLen

def Command.r2tl (c : Command) : Nat := c.sglLen - c.icd.length

def Transfer.begin (c : Command) : Transfer :=
  ⟨[], Paged.writeAt 0 (replicate c.sglLen 0) 0 c.icd, 0, false⟩

def Transfer.add (x : Transfer) (d : H2CData) : Transfer where
  placed := x.placed ++ [d]
  assembled := Paged.writeAt 0 x.assembled d.datao d.data
  received := x.received + d.data.length
  corrupt := x.corrupt || !d.digestOk

def collect (c : Command) (x : Transfer) : List H2CData → Outcome
  | [] => .gone
  | d :: queue =>
    if d.ttag ≠ 1 then .termReq
    else if d.datao < c.icd.length ∨ c.sglLen < d.datao + d.data.length then .termReq
    else if (x.add d).received < c.r2tl then if d.lastPdu then .termReq else collect c (x.add d) queue
    else if (x.add d).corrupt then .dataTransferError
    else .handler (some (x.add d).assembled)

def handleCommand (c : Command) (queue : List H2CData) : Outcome :=
  if c.needsR2t then collect c (.begin c) queue
  else .handler (if dataDirection c.opcode = .hostToController then some c.icd else none)

def routed (cid : Nat) (pdus : List H2CData) : List H2CData := pdus.filter (·.cccid = cid)

variable {c : Command} {x : Transfer} {d e : H2CData} {pdus queue pre : List H2CData} {o : Option Bytes}

def H2CData.Covers (d : H2CData) (i : Nat) : Prop := d.datao ≤ i ∧ i < d.datao + d.data.length

def H2CData.Carries (d : H2CData) (i : Nat) (b : Option UInt8) : Prop := d.ttag = 1 ∧ d.Covers i ∧ b = d.data[i - d.datao]?

def Accepts (c : Command) (d : H2CData) : Prop :=
  d.ttag = 1 ∧ c.icd.length ≤ d.datao ∧ d.datao + d.data.length ≤ c.sglLen

/-- With `d` the count is reached: tags, windows, digests and LAST flags are right, and the lengths add up. -/
structure Completes (c : Command) (received : Nat) (pre : List H2CData) (d : H2CData) : Prop where
  accepts : ∀ e ∈ pre ++ [d], Accepts c e ∧ e.digestOk = true
  notLast : ∀ e ∈ pre, e.lastPdu = false
  short : received + (pre.flatMap H2CData.data).length < c.r2tl
  full : c.r2tl ≤ received + (pre.flatMap H2CData.data).length + d.data.length

theorem completes_cons {received : Nat} : Completes c received (e :: pre) d ↔
    (Accepts c e ∧ e.digestOk = true) ∧ e.lastPdu = false ∧ Completes c (received + e.data.length) pre d := by
  constructor
  · rintro ⟨h1, h2, h3, h4⟩
    rw [flatMap_cons, length_append] at h3 h4
    rw [cons_append, forall_mem_cons] at h1
    rw [forall_mem_cons] at h2
    exact ⟨h1.1, h2.1, h1.2, h2.2, by omega, by omega⟩
  · rintro ⟨h1, h2, h3, h4, h5, h6⟩
    refine ⟨forall_mem_cons.2 ⟨h1, h3⟩, forall_mem_cons.2 ⟨h2, h4⟩, ?_, ?_⟩ <;>
      rw [flatMap_cons, length_append] <;> omega

theorem collect_completes (h : Completes c x.received pre d) (hx : x.corrupt = false) (rest : List H2CData) :
    collect c x (pre ++ d :: rest) = .handler (some ((pre ++ [d]).foldl Transfer.add x).assembled) := by
  induction pre generalizing x with
  | nil =>
    obtain ⟨⟨htag, hwin⟩, hdig⟩ := h.accepts d (by simp)
    have hfull : c.r2tl ≤ (x.add d).received := h.full
    have hcor : (x.add d).corrupt = false := by simp [Transfer.add, hx, hdig]
    rw [nil_append, collect, if_neg (by simp [htag]), if_neg (by omega), if_neg (by omega), if_neg (by simp [hcor])]
    rfl
  | cons e pre ih =>
    obtain ⟨⟨⟨htag, hwin⟩, hdig⟩, hlast, hcomp⟩ := completes_cons.1 h
    have hshort : (x.add e).received < c.r2tl := Nat.lt_of_le_of_lt (Nat.le_add_right _ _) hcomp.short
    rw [cons_append, collect, if_neg (by simp [htag]), if_neg (by omega), if_pos hshort, if_neg (by simp [hlast])]
    exact ih hcomp (by simp [Transfer.add, hx, hdig])

/-- **The handler is called with the first PDU that completes the count.** -/
theorem collect_handler (h : collect c x queue = .handler o) (hx : x.received < c.r2tl) :
    x.corrupt = false ∧ ∃ pre d rest, queue = pre ++ d :: rest ∧ Completes c x.received pre d ∧
      o = some ((pre ++ [d]).foldl Transfer.add x).assembled := by
  fun_induction collect with
  | case1 | case2 | case3 | case4 | case6 => cases h
  | case5 x d queue htag hwin hshort hlast ih =>
    obtain ⟨hcor, pre, e, rest, rfl, hcomp, rfl⟩ := ih h hshort
    simp only [Transfer.add, Bool.or_eq_false_iff, Bool.not_eq_false'] at hcor
    refine ⟨hcor.1, d :: pre, e, rest, rfl, completes_cons.2 ⟨⟨⟨?_, ?_⟩, hcor.2⟩, by simpa using hlast, hcomp⟩, rfl⟩ <;>
      omega
  | case7 x d queue htag hwin hfull hcor =>
    simp only [Transfer.add, Bool.or_eq_true, not_or, Bool.not_eq_true, Bool.not_eq_false'] at hcor
    cases h
    refine ⟨hcor.1, [], d, queue, rfl, ⟨?_, nofun, by simpa using hx, Nat.not_lt.1 hfull⟩, rfl⟩
    simpa [Accepts, hcor.2] using (by omega : d.ttag = 1 ∧ c.icd.length ≤ d.datao ∧ d.datao + d.data.length ≤ c.sglLen)

/-- The buffer has the in-capsule bytes, and for each offset covered a byte that came for it. -/
structure Built (c : Command) (x : Transfer) : Prop where
  length : x.assembled.length = c.sglLen
  icd : ∀ i < c.icd.length, x.assembled[i]? = c.icd[i]?
  sent : ∀ i, (∃ d ∈ x.placed, d.Covers i) → ∃ d ∈ x.placed, d.Carries i x.assembled[i]?

theorem Built.begin (hc : c.needsR2t = true) : Built c (.begin c) := by
  have hlt : c.icd.length < c.sglLen := by grind [Command.needsR2t]
  refine ⟨?_, fun i hi => ?_, nofun⟩
  · rw [Transfer.begin, Paged.length_writeAt, length_replicate]
    omega
  · rw [Transfer.begin, Paged.getElem?_writeAt 0 _ (Nat.zero_le _)]
    simp [hi]

theorem Built.add (h : Built c x) (hd : Accepts c d) : Built c (x.add d) := by
  obtain ⟨htag, hlo, hhi⟩ := hd
  have hlen := h.length
  have hget : ∀ i, (x.add d).assembled[i]? = if d.datao ≤ i ∧ i < d.datao + d.data.length then d.data[i - d.datao]?
      else x.assembled[i]? := fun i => Paged.getElem?_writeAt 0 _ (by omega) i
  refine ⟨?_, fun i hi => ?_, fun i hcov => ?_⟩
  · exact (Paged.length_writeAt 0 _ _ _).trans (by omega)
  · rw [hget, if_neg (by omega), h.icd i hi]
  · rw [hget]
    by_cases hi : d.Covers i
    · exact ⟨d, by simp [Transfer.add], htag, hi, if_pos hi⟩
    · obtain ⟨e, he, hcar⟩ := h.sent i (by simpa [Transfer.add, or_and_right, exists_or, hi] using hcov)
      exact ⟨e, by simp [Transfer.add, he], by rwa [if_neg (by exact hi)]⟩

theorem Built.addAll : ∀ (l : List H2CData) {x : Transfer}, Built c x → (∀ d ∈ l, Accepts c d) →
    Built c (l.foldl Transfer.add x) ∧ (l.foldl Transfer.add x).placed = x.placed ++ l
  | [], x, h, _ => ⟨h, by simp⟩
  | d :: l, x, h, hl => by
    obtain ⟨hb, hp⟩ := Built.addAll l (h.add (hl d mem_cons_self)) fun e he => hl e (.tail _ he)
    exact ⟨hb, hp.trans (by simp [Transfer.add])⟩

theorem collect_append (hr : collect c x queue = .gone) (rest : List H2CData) :
    ∃ y, collect c x (queue ++ rest) = collect c y rest ∧ y.received = x.received + (queue.flatMap H2CData.data).length := by
  induction queue generalizing x with
  | nil => exact ⟨x, rfl, rfl⟩
  | cons d queue ih =>
    rw [cons_append]
    rw [collect] at hr ⊢
    repeat' split at hr
    all_goals try cases hr
    obtain ⟨y, hy, hrec⟩ := ih hr
    refine ⟨y, by simp [*], ?_⟩
    simp only [hrec, Transfer.add, flatMap_cons, length_append]
    omega

/-- **The payload is what the host sent**: the handler's data has the length of the SGL and each byte came for its
offset, exactly if the H2CData that complete the count cover the window; a wrong tag, window or LAST ends the
connection. -/
theorem payload_assembled (hc : c.needsR2t = true) :
    ((∀ pre o, pre <+: routed c.cid pdus → handleCommand c pre = .handler o →
      ∃ data, o = some data ∧ data.length = c.sglLen ∧ (∀ i < c.icd.length, data[i]? = c.icd[i]?) ∧
        ∀ i < c.sglLen, c.icd.length ≤ i → ∃ d ∈ pre, d.Carries i data[i]?) ↔
      ∀ pre d, pre ++ [d] <+: routed c.cid pdus → Completes c 0 pre d →
        ∀ i < c.sglLen, c.icd.length ≤ i → ∃ e ∈ pre ++ [d], e.Covers i) ∧
    ∀ pre d rest, routed c.cid pdus = pre ++ d :: rest → handleCommand c pre = .gone →
      d.ttag ≠ 1 ∨ d.datao < c.icd.length ∨ c.sglLen < d.datao + d.data.length ∨
        d.lastPdu = true ∧ (pre.flatMap H2CData.data).length + d.data.length < c.r2tl →
      handleCommand c (routed c.cid pdus) = .termReq := by
  have hpos : (Transfer.begin c).received < c.r2tl := by
    have hlt : c.icd.length < c.sglLen := by grind [Command.needsR2t]
    exact Nat.sub_pos_of_lt hlt
  simp only [handleCommand, hc, if_true]
  refine ⟨⟨fun h pre d hpre hcomp i hi hlo => ?_, fun h pre o hpre ho => ?_⟩, ?_⟩
  · obtain ⟨data, -, -, -, hsent⟩ := h _ _ hpre (collect_completes hcomp rfl [])
    obtain ⟨e, he, -, hcov, -⟩ := hsent i hi hlo
    exact ⟨e, he, hcov⟩
  · obtain ⟨-, p, d, rest, rfl, hcomp, rfl⟩ := collect_handler ho hpos
    obtain ⟨hb, hplaced⟩ := (Built.begin hc).addAll (p ++ [d]) fun e he => (hcomp.accepts e he).1
    have hsub : p ++ [d] <+: p ++ d :: rest := ⟨rest, by simp⟩
    refine ⟨_, rfl, hb.length, hb.icd, fun i hi hlo => ?_⟩
    obtain ⟨e, he, hcar⟩ := hb.sent i (by rw [hplaced]; exact h p d (hsub.trans hpre) hcomp i hi hlo)
    rw [hplaced] at he
    exact ⟨e, hsub.subset he, hcar⟩
  · intro pre d rest hpre hgone hbad
    obtain ⟨y, hy, hrec⟩ := collect_append hgone (d :: rest)
    rw [hpre, hy, collect]
    simp only [Transfer.begin, Nat.zero_add] at hrec
    grind [Transfer.add]

def write4 : Command := ⟨7, 1, 4, [9]⟩

theorem payload_assembled_split : write4.needsR2t = true ∧
    handleCommand write4 (routed write4.cid [⟨7, 1, 2, [7], false, true⟩, ⟨7, 1, 1, [6], true, true⟩]) = .termReq :=
  ⟨rfl, (payload_assembled rfl).2 [⟨7, 1, 2, [7], false, true⟩] ⟨7, 1, 1, [6], true, true⟩ [] rfl rfl
    (.inr (.inr (.inr (by decide))))⟩

/-- Two H2CData for the same bytes reach the count, and the others stay filler. -/
theorem overlap_leaves_filler :
    handleCommand ⟨7, 1, 4, []⟩ (routed 7 [⟨7, 1, 0, [5, 6], false, true⟩, ⟨7, 1, 0, [7, 8], true, true⟩]) =
      .handler (some [7, 8, 0, 0]) := by
  decide

end Thur.NvmeTcp

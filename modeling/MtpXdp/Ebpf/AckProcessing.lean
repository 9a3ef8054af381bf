import MtpXdp.Core.Arc
import MtpXdp.Ebpf.EventProcessors

/-!
# What One ACK Does

`fast_retr_rec_ep` decides whether an ACK is acceptable and `ack_net_ep` acts on it. The two share
`int_out`, which `tcp_rx_process` leaves uninitialised: `ack_net_ep` reads `num_acked_bytes` even
when the ACK was rejected.
-/

namespace MtpXdp.Ebpf

open MtpXdp.Core

variable {x : NetCtx}

/-! ## Acceptance -/

def AckAccepted (c : BpfTcpConn) (ack : U32) : Prop :=
  ahead c.sendUna ack ≤ ahead c.sendUna c.txNextSeq
deriving Decidable

theorem ackRejected_iff (c : BpfTcpConn) (ack : U32) :
    ackRejected c.sendUna c.txNextSeq ack = true ↔ ¬ AckAccepted c ack := by
  unfold ackRejected AckAccepted
  by_cases h : c.sendUna ≤ c.txNextSeq
  · -- the outstanding bytes do not wrap
    rw [if_pos h, ahead_le_iff_of_le h]
    simp only [Bool.or_eq_true, decide_eq_true_eq, not_and_or, BitVec.not_le]
  · -- they do: both comparisons have to fail
    rw [if_neg h, ahead_le_iff_of_not_le h]
    simp only [Bool.and_eq_true, decide_eq_true_eq, not_or, BitVec.not_le]

theorem ackAccepted_sendUna (c : BpfTcpConn) : AckAccepted c c.sendUna := by
  simp [AckAccepted]

/-! ## Frames of the helpers -/

/-- After `mtp_pkt_gen_wrapper` was asked to go back. If `buf_curr_seq` compares below, it takes its
    segmenting half with no data. -/
def goBackConn (c : BpfTcpConn) : BpfTcpConn :=
  if c.bufCurrSeq < c.sendUna then advanceBuf c 0#32 else rewindBuf c c.sendUna

theorem mtpPktGenWrapper_goBack (bp : TCPBP) (c : BpfTcpConn) (t : EvType) (md : RxMeta) :
    (mtpPktGenWrapper false bp c none 0#32 c.sendUna t md).1 = goBackConn c := by
  unfold mtpPktGenWrapper goBackConn
  by_cases h : c.bufCurrSeq < c.sendUna
  · simp [h]
  · simp [h]

section

variable (x : NetCtx) (n : U32)

@[simp] theorem mtpTxDataFlush_c : (mtpTxDataFlush n x).c = x.c := by
  unfold mtpTxDataFlush
  split <;> rfl

@[simp] theorem mtpTxDataFlush_cc : (mtpTxDataFlush n x).cc = x.cc := by
  unfold mtpTxDataFlush
  split <;> rfl

end

/-! ## The two halves of `fast_retr_rec_ep` -/

theorem fastRetrRecEp_of_rejected (h : ¬ AckAccepted x.c x.ev.ackSeq) :
    fastRetrRecEp x = { x with io := { x.io with drop := true } } := by
  unfold fastRetrRecEp
  rw [if_pos ((ackRejected_iff _ _).mpr h)]

private theorem not_ackRejected (h : AckAccepted x.c x.ev.ackSeq) :
    ¬ ackRejected x.c.sendUna x.c.txNextSeq x.ev.ackSeq = true := by
  rw [ackRejected_iff]
  exact not_not_intro h

theorem fastRetrRecEp_drop_of_accepted (h : AckAccepted x.c x.ev.ackSeq) :
    (fastRetrRecEp x).io.drop = false := by
  unfold fastRetrRecEp
  rw [if_neg (not_ackRejected h)]
  dsimp only
  split_ifs <;> rfl

theorem fastRetrRecEp_numAcked_of_accepted (h : AckAccepted x.c x.ev.ackSeq) :
    (fastRetrRecEp x).io.numAckedBytes = x.ev.ackSeq - x.c.sendUna := by
  unfold fastRetrRecEp
  rw [if_neg (not_ackRejected h)]
  dsimp only
  split_ifs <;> rfl

@[simp] theorem fastRetrRecEp_ev (x : NetCtx) : (fastRetrRecEp x).ev = x.ev := by
  unfold fastRetrRecEp
  dsimp only
  split_ifs <;> rfl

theorem fastRetrRecEp_drop_iff (x : NetCtx) :
    (fastRetrRecEp x).io.drop = false ↔ AckAccepted x.c x.ev.ackSeq := by
  constructor
  · intro hdrop
    by_contra hrej
    rw [fastRetrRecEp_of_rejected hrej] at hdrop
    cases hdrop
  · exact fastRetrRecEp_drop_of_accepted

/-! ## The cases of the chain -/

theorem ackNetEp_c_of_third (h : x.c.rxDupackCnt = 3#16) :
    (ackNetEp x).c = goBackConn { x.c with rxDupackCnt := 0#16 } := by
  unfold ackNetEp
  rw [if_pos h]
  exact mtpPktGenWrapper_goBack _ _ _ _

theorem ackNetEp_cc_of_third (h : x.c.rxDupackCnt = 3#16) : (ackNetEp x).cc = x.cc := by
  unfold ackNetEp
  rw [if_pos h]

theorem ackNetEp_c_of_drop (h : x.c.rxDupackCnt ≠ 3#16) (hdrop : x.io.drop = true) :
    (ackNetEp x).c =
      if x.io.numAckedBytes = 0#32 then x.c else { x.c with sendUna := x.ev.ackSeq } := by
  unfold ackNetEp
  rw [if_neg h]
  simp only [hdrop, if_true, mtpTxDataFlush_c, BitVec.pos_iff_ne_zero, ite_not]

theorem ackNetEp_cc_of_drop (h : x.c.rxDupackCnt ≠ 3#16) (hdrop : x.io.drop = true) :
    (ackNetEp x).cc = x.cc := by
  unfold ackNetEp
  rw [if_neg h]
  simp [hdrop]

theorem ackNetEp_c_of_accepted (h : x.c.rxDupackCnt ≠ 3#16)
    (hdrop : x.io.drop = false) :
    (ackNetEp x).c =
      { x.c with
        rxRemoteAvail :=
          if x.io.numAckedBytes ≠ 0#32 ∨ x.c.rxRemoteAvail < x.ev.scaledWnd then x.ev.scaledWnd
          else x.c.rxRemoteAvail
        sendUna := if x.io.numAckedBytes = 0#32 then x.c.sendUna else x.ev.ackSeq } := by
  unfold ackNetEp
  rw [if_neg h]
  simp only [hdrop, Bool.false_eq_true, if_false, ackNetAccepted, mtpTxDataFlush_c,
    BitVec.pos_iff_ne_zero]
  by_cases hn : x.io.numAckedBytes = 0#32
  · by_cases hw : x.c.rxRemoteAvail < x.ev.scaledWnd <;> simp [hn, hw]
  · simp [hn]

inductive AckOutcome (x : NetCtx) : BpfTcpConn → Prop where
  /-- Rejected, and the count left in `int_out` is zero. -/
  | ignored (hrej : ¬ AckAccepted x.c x.ev.ackSeq) (hdup : x.c.rxDupackCnt ≠ 3#16)
      (hnum : x.io.numAckedBytes = 0#32) : AckOutcome x x.c
  /-- Rejected, but the count left in `int_out` makes the ACK move `send_una`. -/
  | stray (hrej : ¬ AckAccepted x.c x.ev.ackSeq) (hdup : x.c.rxDupackCnt ≠ 3#16)
      (hnum : x.io.numAckedBytes ≠ 0#32) : AckOutcome x { x.c with sendUna := x.ev.ackSeq }
  | stale (hdup : x.c.rxDupackCnt = 3#16) (hack : x.ev.ackSeq ≠ x.c.sendUna →
      ¬ AckAccepted x.c x.ev.ackSeq) : AckOutcome x (goBackConn { x.c with rxDupackCnt := 0#16 })
  | advanced (hacc : AckAccepted x.c x.ev.ackSeq) (hnew : x.ev.ackSeq ≠ x.c.sendUna) :
      AckOutcome x { x.c with
        rxDupackCnt := 0#16, rxRemoteAvail := x.ev.scaledWnd, sendUna := x.ev.ackSeq }
  | duplicate (hack : x.ev.ackSeq = x.c.sendUna) (hwnd : x.c.rxRemoteAvail = x.ev.scaledWnd)
      (hdup : x.c.rxDupackCnt + 1#16 ≠ 3#16) :
      AckOutcome x { x.c with rxDupackCnt := x.c.rxDupackCnt + 1#16 }
  | third (hack : x.ev.ackSeq = x.c.sendUna) (hwnd : x.c.rxRemoteAvail = x.ev.scaledWnd)
      (hdup : x.c.rxDupackCnt + 1#16 = 3#16) :
      AckOutcome x (goBackConn (resetConn { x.c with rxDupackCnt := 0#16 }))
  | window (hack : x.ev.ackSeq = x.c.sendUna) (hwnd : x.c.rxRemoteAvail ≠ x.ev.scaledWnd)
      (hdup : x.c.rxDupackCnt ≠ 3#16) :
      AckOutcome x { x.c with
        rxRemoteAvail :=
          if x.c.rxRemoteAvail < x.ev.scaledWnd then x.ev.scaledWnd else x.c.rxRemoteAvail }

private theorem ackOutcome_of_rejected (h : ¬ AckAccepted x.c x.ev.ackSeq) :
    AckOutcome x (ackChain x).c := by
  have hrej := fastRetrRecEp_of_rejected h
  have hconn : (fastRetrRecEp x).c = x.c := by rw [hrej]
  have hdrop : (fastRetrRecEp x).io.drop = true := by rw [hrej]
  have hkeep : (fastRetrRecEp x).io.numAckedBytes = x.io.numAckedBytes := by rw [hrej]
  unfold ackChain
  -- `ack_net_ep` looks at the counter before it looks at `drop`
  by_cases hdup : x.c.rxDupackCnt = 3#16
  · rw [ackNetEp_c_of_third (by rw [hconn]; exact hdup), hconn]
    exact .stale hdup fun _ => h
  · rw [ackNetEp_c_of_drop (by rw [hconn]; exact hdup) hdrop, hkeep, hconn, fastRetrRecEp_ev]
    by_cases hnum : x.io.numAckedBytes = 0#32
    · rw [if_pos hnum]
      exact .ignored h hdup hnum
    · rw [if_neg hnum]
      exact .stray h hdup hnum

theorem fastRetrRecEp_c_of_accepted (h : AckAccepted x.c x.ev.ackSeq) : (fastRetrRecEp x).c =
      if x.ev.ackSeq ≠ x.c.sendUna then { x.c with rxDupackCnt := 0#16 }
      else if x.c.rxRemoteAvail = x.ev.scaledWnd then
        if x.c.rxDupackCnt + 1#16 = 3#16 then resetConn { x.c with rxDupackCnt := 3#16 }
        else { x.c with rxDupackCnt := x.c.rxDupackCnt + 1#16 }
      else x.c := by
  have hzero : x.ev.ackSeq - x.c.sendUna = 0#32 ↔ x.ev.ackSeq = x.c.sendUna := by bv_omega
  unfold fastRetrRecEp
  rw [if_neg (not_ackRejected h)]
  by_cases hack : x.ev.ackSeq = x.c.sendUna
  · rw [if_neg (not_not_intro (hzero.mpr hack)), if_neg (not_not_intro hack)]
    by_cases hwnd : x.c.rxRemoteAvail = x.ev.scaledWnd
    · rw [if_pos hwnd, if_pos hwnd]
      by_cases hdup : x.c.rxDupackCnt + 1#16 = 3#16
      · rw [if_pos hdup, if_pos hdup, hdup]
      · rw [if_neg hdup, if_neg hdup]
    · rw [if_neg hwnd, if_neg hwnd]
  · rw [if_pos (mt hzero.mp hack), if_pos hack]

private theorem ackOutcome_of_accepted (h : AckAccepted x.c x.ev.ackSeq) :
    AckOutcome x (ackChain x).c := by
  have hdrop := fastRetrRecEp_drop_of_accepted h
  have hnum := fastRetrRecEp_numAcked_of_accepted h
  have hconn := fastRetrRecEp_c_of_accepted h
  have hzero : x.ev.ackSeq - x.c.sendUna = 0#32 ↔ x.ev.ackSeq = x.c.sendUna := by bv_omega
  unfold ackChain
  by_cases hack : x.ev.ackSeq = x.c.sendUna
  · rw [if_neg (not_not_intro hack)] at hconn
    by_cases hwnd : x.c.rxRemoteAvail = x.ev.scaledWnd
    · rw [if_pos hwnd] at hconn
      by_cases hdup : x.c.rxDupackCnt + 1#16 = 3#16
      · -- the counter reaches three and `ack_net_ep` goes back
        rw [if_pos hdup] at hconn
        rw [ackNetEp_c_of_third (by rw [hconn]; rfl), hconn]
        exact .third hack hwnd hdup
      · rw [if_neg hdup] at hconn
        rw [ackNetEp_c_of_accepted (by rw [hconn]; exact hdup) hdrop, hnum, hconn]
        simpa [hack, hwnd] using AckOutcome.duplicate hack hwnd hdup
    · -- another window: not counted as a duplicate
      rw [if_neg hwnd] at hconn
      by_cases hdup : x.c.rxDupackCnt = 3#16
      · rw [ackNetEp_c_of_third (by rw [hconn]; exact hdup), hconn]
        exact .stale hdup fun hne => absurd hack hne
      · rw [ackNetEp_c_of_accepted (by rw [hconn]; exact hdup) hdrop, hnum, hconn]
        simpa [hack] using AckOutcome.window hack hwnd hdup
  · -- the counter has just been cleared, so the fast-retransmit branch is not taken
    rw [if_pos hack] at hconn
    rw [ackNetEp_c_of_accepted (by rw [hconn]; simp) hdrop, hnum, hconn]
    simpa [hzero, hack] using AckOutcome.advanced h hack

theorem ackOutcome (x : NetCtx) : AckOutcome x (ackChain x).c := by
  by_cases h : AckAccepted x.c x.ev.ackSeq
  · exact ackOutcome_of_accepted h
  · exact ackOutcome_of_rejected h

/-! ## Acceptance and the frame of a rejected ACK -/

structure AckFrame (x y : NetCtx) : Prop where
  sendUna : y.c.sendUna = x.c.sendUna
  txNextSeq : y.c.txNextSeq = x.c.txNextSeq
  txNextPos : y.c.txNextPos = x.c.txNextPos
  bufCurrSeq : y.c.bufCurrSeq = x.c.bufCurrSeq
  rxRemoteAvail : y.c.rxRemoteAvail = x.c.rxRemoteAvail
  rxDupackCnt : y.c.rxDupackCnt = x.c.rxDupackCnt
  cntRxAckBytes : y.cc.cntRxAckBytes = x.cc.cntRxAckBytes
  cntRxEcnBytes : y.cc.cntRxEcnBytes = x.cc.cntRxEcnBytes
  rate : y.cc.rate = x.cc.rate
  rttEst : y.cc.rttEst = x.cc.rttEst

/-- Acceptance is exact and counts the acknowledged bytes; other ACKs leave the connection alone. -/
structure AckContract (x : NetCtx) : Prop where
  accepts : (fastRetrRecEp x).io.drop = false ↔ AckAccepted x.c x.ev.ackSeq
  counts : (fastRetrRecEp x).io.drop = false →
    (fastRetrRecEp x).io.numAckedBytes.toNat = ahead x.c.sendUna x.ev.ackSeq
  frame : (fastRetrRecEp x).io.drop = true → AckFrame x (ackChain x)

theorem ackChain_cc_of_rejected (h : ¬ AckAccepted x.c x.ev.ackSeq) : (ackChain x).cc = x.cc := by
  unfold ackChain
  rw [fastRetrRecEp_of_rejected h]
  by_cases hdup : x.c.rxDupackCnt = 3#16
  · exact ackNetEp_cc_of_third hdup
  · exact ackNetEp_cc_of_drop hdup rfl

@[simp] theorem goBackConn_rxDupackCnt (c : BpfTcpConn) :
    (goBackConn c).rxDupackCnt = c.rxDupackCnt := by
  unfold goBackConn
  split <;> rfl

theorem ackFrame_iff_of_rejected (h : ¬ AckAccepted x.c x.ev.ackSeq) :
    AckFrame x (ackChain x) ↔ x.io.numAckedBytes = 0#32 ∧ x.c.rxDupackCnt ≠ 3#16 := by
  have hne : x.ev.ackSeq ≠ x.c.sendUna := by
    intro heq
    exact h (heq ▸ ackAccepted_sendUna x.c)
  have hcc := ackChain_cc_of_rejected h
  have hout := ackOutcome x
  generalize hc : (ackChain x).c = c' at hout
  cases hout with
  | ignored _ hdup hnum =>
    refine ⟨fun _ => ⟨hnum, hdup⟩, fun _ => ?_⟩
    constructor <;> simp [hc, hcc]
  | stray _ _ hnum =>
    -- `send_una` has moved to an unacceptable ACK number
    refine ⟨fun hf => ?_, fun hcond => absurd hcond.1 hnum⟩
    exact absurd (by simpa [hc] using hf.sendUna) hne
  | stale hdup _ =>
    -- the counter is reset
    refine ⟨fun hf => ?_, fun hcond => absurd hdup hcond.2⟩
    have hzero : (0#16 : U16) = x.c.rxDupackCnt := by simpa [hc] using hf.rxDupackCnt
    rw [hdup] at hzero
    exact absurd hzero (by decide)
  -- the other cases need an acceptable ACK
  | advanced hacc _ => exact absurd hacc h
  | duplicate hack _ _ => exact absurd hack hne
  | third hack _ _ => exact absurd hack hne
  | window hack _ _ => exact absurd hack hne

/-- **Acceptance and frame of ACK processing**: precisely when the ACK is acceptable, or the
    uninitialised count is zero and the duplicate counter not at three. -/
theorem ackContract_iff (x : NetCtx) :
    AckContract x ↔
      AckAccepted x.c x.ev.ackSeq ∨ (x.io.numAckedBytes = 0#32 ∧ x.c.rxDupackCnt ≠ 3#16) := by
  constructor
  · intro hcontract
    by_cases h : AckAccepted x.c x.ev.ackSeq
    · exact Or.inl h
    · have hdrop : (fastRetrRecEp x).io.drop = true := by rw [fastRetrRecEp_of_rejected h]
      exact Or.inr ((ackFrame_iff_of_rejected h).mp (hcontract.frame hdrop))
  · intro hcond
    -- acceptance and count hold without the condition; only the frame needs it
    refine ⟨fastRetrRecEp_drop_iff x, ?_, ?_⟩
    · intro hdrop
      rw [fastRetrRecEp_numAcked_of_accepted ((fastRetrRecEp_drop_iff x).mp hdrop)]
      rfl
    · intro hdrop
      have h : ¬ AckAccepted x.c x.ev.ackSeq := by
        intro hacc
        rw [fastRetrRecEp_drop_of_accepted hacc] at hdrop
        cases hdrop
      exact (ackFrame_iff_of_rejected h).mpr (hcond.resolve_left h)

/-- The ACK acknowledges five unsent bytes and the stack holds the count 5: it is rejected, and
    `send_una` moves past `tx_next_seq`. -/
theorem ackContract_fails :
    ¬ AckContract { (default : NetCtx) with
      ev := { (default : NetEvent) with ackSeq := 5 }
      io := { (default : IntermOut) with numAckedBytes := 5 } } := by
  intro hcontract
  have hframe := hcontract.frame (by decide)
  exact absurd hframe.sendUna (by decide)

end MtpXdp.Ebpf

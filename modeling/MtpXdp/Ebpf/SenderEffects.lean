import MtpXdp.Ebpf.Flow

/-!
# What an Event Does to the Congestion-Control Entry

`AckOutcome` says what an ACK does to the connection. This file adds the entry of
`bpf_cc_map`, which the control plane reads: the counters of acknowledged bytes,
the flag `txp`, the RTT estimate, the rate and the drop counter.
-/

namespace MtpXdp.Ebpf

/-! ## Events of the sending side -/

inductive SenderEvent where
  | send (dataSize : U32) (env : EgressEnv)
  | ack (ev : NetEvent) (env : NetEnv)
  | timeout (env : EgressEnv)

def SenderEvent.flow : SenderEvent → FlowEvent
  | .send dataSize env => .send dataSize env
  | .ack ev env => .ack ev env
  | .timeout env => .timeout env

def senderStep (f : Flow) (e : SenderEvent) : Flow := flowStep f e.flow

/-! ## The entry after an ACK -/

def ackedCc (x : NetCtx) : BpfCc := countAcked x.cc x.c (x.ev.ackSeq - x.c.sendUna) x.ev.ecnMark

def sampledCc (x : NetCtx) : BpfCc :=
  if x.ev.tsEcr ≠ 0#32 then
    { ackedCc x with
      rttEst := rttUpdate x.cc.rttEst
        (rttSample x.ktime x.ev.tsEcr (x.ev.ackSeq - x.c.sendUna)) }
  else ackedCc x

theorem sampledCc_drops (x : NetCtx) :
    (sampledCc x).cntTxDrops = x.cc.cntTxDrops ∧ (sampledCc x).rate = x.cc.rate := by
  unfold sampledCc
  split_ifs <;> exact ⟨rfl, rfl⟩

theorem sampledCc_txp (x : NetCtx) : (sampledCc x).txp = txpOf x.c := by
  unfold sampledCc
  split_ifs <;> rfl

/-- The cases of the ACK chain while no third duplicate is on record. -/
inductive AckEffect (x : NetCtx) : BpfTcpConn → BpfCc → Prop where
  | ignored (hrej : ¬ AckAccepted x.c x.ev.ackSeq) (hnum : x.io.numAckedBytes = 0#32) :
      AckEffect x x.c x.cc
  | stray (hrej : ¬ AckAccepted x.c x.ev.ackSeq) (hnum : x.io.numAckedBytes ≠ 0#32) :
      AckEffect x { x.c with sendUna := x.ev.ackSeq } x.cc
  | advanced (hacc : AckAccepted x.c x.ev.ackSeq) (hnew : x.ev.ackSeq ≠ x.c.sendUna) :
      AckEffect x { x.c with
        rxDupackCnt := 0#16, rxRemoteAvail := x.ev.scaledWnd, sendUna := x.ev.ackSeq } (sampledCc x)
  | duplicate (hack : x.ev.ackSeq = x.c.sendUna) (hwnd : x.c.rxRemoteAvail = x.ev.scaledWnd)
      (hdup : x.c.rxDupackCnt + 1#16 ≠ 3#16) :
      AckEffect x { x.c with rxDupackCnt := x.c.rxDupackCnt + 1#16 } (ackedCc x)
  | third (h : ThirdDuplicate x.c x.ev) :
      AckEffect x (goBackConn (resetConn { x.c with rxDupackCnt := 0#16 })) (resetCc (ackedCc x))
  | window (hack : x.ev.ackSeq = x.c.sendUna) (hwnd : x.c.rxRemoteAvail ≠ x.ev.scaledWnd) :
      AckEffect x { x.c with
        rxRemoteAvail :=
          if x.c.rxRemoteAvail < x.ev.scaledWnd then x.ev.scaledWnd else x.c.rxRemoteAvail }
        (ackedCc x)

section

variable {x : NetCtx}

theorem fastRetrRecEp_cc_of_accepted (h : AckAccepted x.c x.ev.ackSeq) : (fastRetrRecEp x).cc =
      if ThirdDuplicate x.c x.ev then resetCc (ackedCc x) else ackedCc x := by
  have hrej : ¬ ackRejected x.c.sendUna x.c.txNextSeq x.ev.ackSeq = true := by
    rw [ackRejected_iff]
    exact not_not_intro h
  have hzero : x.ev.ackSeq - x.c.sendUna = 0#32 ↔ x.ev.ackSeq = x.c.sendUna := by bv_omega
  unfold fastRetrRecEp ThirdDuplicate
  rw [if_neg hrej]
  by_cases hack : x.ev.ackSeq = x.c.sendUna
  · -- nothing new: the counter decides, if the window is the same
    rw [if_neg (not_not_intro (hzero.mpr hack))]
    by_cases hwnd : x.c.rxRemoteAvail = x.ev.scaledWnd
    · by_cases hdup : x.c.rxDupackCnt + 1#16 = 3#16 <;> simp [hack, hwnd, hdup, ackedCc]
    · simp [hwnd, ackedCc]
  · simp [hzero, hack, ackedCc]

theorem fastRetrRecEp_ktime (x : NetCtx) : (fastRetrRecEp x).ktime = x.ktime := by
  unfold fastRetrRecEp
  dsimp only
  split_ifs <;> rfl

theorem ackNetEp_cc_of_accepted (h : x.c.rxDupackCnt ≠ 3#16) (hdrop : x.io.drop = false) :
    (ackNetEp x).cc =
      if x.ev.tsEcr ≠ 0#32 ∧ x.io.numAckedBytes ≠ 0#32 then
        { x.cc with
          rttEst := rttUpdate x.cc.rttEst (rttSample x.ktime x.ev.tsEcr x.io.numAckedBytes) }
      else x.cc := by
  unfold ackNetEp
  rw [if_neg h]
  simp [hdrop, ackNetAccepted]

theorem ackChain_cc_of_news (hacc : AckAccepted x.c x.ev.ackSeq)
    (hnew : x.ev.ackSeq ≠ x.c.sendUna) : (ackChain x).cc = sampledCc x := by
  have hdrop := fastRetrRecEp_drop_of_accepted hacc
  have hdup : (fastRetrRecEp x).c.rxDupackCnt ≠ 3#16 := by
    rw [fastRetrRecEp_c_of_accepted hacc, if_pos hnew]
    simp
  have hne : x.ev.ackSeq - x.c.sendUna ≠ 0#32 := by bv_omega
  have hthird : ¬ ThirdDuplicate x.c x.ev := fun h => hnew h.1
  rw [ackChain, ackNetEp_cc_of_accepted hdup hdrop, fastRetrRecEp_cc_of_accepted hacc,
    fastRetrRecEp_numAcked_of_accepted hacc, if_neg hthird, fastRetrRecEp_ev, fastRetrRecEp_ktime]
  simp only [hne, ne_eq, not_false_eq_true, and_true, sampledCc]
  rfl

theorem ackChain_cc_of_same (hack : x.ev.ackSeq = x.c.sendUna)
    (hthird : ¬ ThirdDuplicate x.c x.ev) (hdup : (fastRetrRecEp x).c.rxDupackCnt ≠ 3#16) :
    (ackChain x).cc = ackedCc x := by
  have hacc : AckAccepted x.c x.ev.ackSeq := hack ▸ ackAccepted_sendUna x.c
  have hdrop := fastRetrRecEp_drop_of_accepted hacc
  rw [ackChain, ackNetEp_cc_of_accepted hdup hdrop, fastRetrRecEp_cc_of_accepted hacc,
    fastRetrRecEp_numAcked_of_accepted hacc, if_neg hthird, if_neg]
  rintro ⟨-, hnum⟩
  exact hnum (by rw [hack, BitVec.sub_self])

theorem ackChain_cc_of_third (h : ThirdDuplicate x.c x.ev) :
    (ackChain x).cc = resetCc (ackedCc x) := by
  obtain ⟨hack, hwnd, hdup⟩ := h
  have hacc : AckAccepted x.c x.ev.ackSeq := hack ▸ ackAccepted_sendUna x.c
  have hthree : (fastRetrRecEp x).c.rxDupackCnt = 3#16 := by
    rw [fastRetrRecEp_c_of_accepted hacc, if_neg (not_not_intro hack), if_pos hwnd, if_pos hdup]
    rfl
  rw [ackChain, ackNetEp_cc_of_third hthree, fastRetrRecEp_cc_of_accepted hacc,
    if_pos ⟨hack, hwnd, hdup⟩]

theorem ackEffect (hdup : x.c.rxDupackCnt ≠ 3#16) : AckEffect x (ackChain x).c (ackChain x).cc := by
  have hout := ackOutcome x
  generalize (ackChain x).c = c' at hout
  cases hout with
  | ignored hrej _ hnum =>
    rw [ackChain_cc_of_rejected hrej]
    exact .ignored hrej hnum
  | stray hrej _ hnum =>
    rw [ackChain_cc_of_rejected hrej]
    exact .stray hrej hnum
  | stale hthree _ => exact absurd hthree hdup
  | advanced hacc hnew =>
    rw [ackChain_cc_of_news hacc hnew]
    exact .advanced hacc hnew
  | duplicate hack hwnd hnext =>
    have hacc : AckAccepted x.c x.ev.ackSeq := hack ▸ ackAccepted_sendUna x.c
    have hcnt : (fastRetrRecEp x).c.rxDupackCnt ≠ 3#16 := by
      rw [fastRetrRecEp_c_of_accepted hacc, if_neg (not_not_intro hack), if_pos hwnd, if_neg hnext]
      exact hnext
    rw [ackChain_cc_of_same hack (fun h => hnext h.2.2) hcnt]
    exact .duplicate hack hwnd hnext
  | third hack hwnd hnext =>
    rw [ackChain_cc_of_third ⟨hack, hwnd, hnext⟩]
    exact .third ⟨hack, hwnd, hnext⟩
  | window hack hwnd _ =>
    have hacc : AckAccepted x.c x.ev.ackSeq := hack ▸ ackAccepted_sendUna x.c
    have hcnt : (fastRetrRecEp x).c.rxDupackCnt ≠ 3#16 := by
      rw [fastRetrRecEp_c_of_accepted hacc, if_neg (not_not_intro hack), if_neg hwnd]
      exact hdup
    rw [ackChain_cc_of_same hack (fun h => hwnd h.2.1) hcnt]
    exact .window hack hwnd

end

/-! ## The other events -/

theorem sendEp_cc (x : EgressCtx) :
    (sendEp x).cc = { x.cc with
      prevDesiredTxTs := desiredTxTs x.cc (x.ev.timestamp.setWidth 64) x.ev.dataSize
      txp := txpOf (sendEp x).c } := by
  simp [sendEp, mtpPktGenWrapper]

theorem ackTimeoutXdpEp_cc_of_idle {x : EgressCtx} (h : x.c.txNextSeq = x.c.sendUna) :
    (ackTimeoutXdpEp x).1.cc = x.cc := by
  unfold ackTimeoutXdpEp
  rw [if_pos h]

theorem ackTimeoutXdpEp_cc_of_outstanding {x : EgressCtx} (h : x.c.txNextSeq ≠ x.c.sendUna) :
    (ackTimeoutXdpEp x).1.cc = resetCc x.cc := by
  unfold ackTimeoutXdpEp
  rw [if_neg h]

theorem dataChain_cc (x : NetCtx) : (dataChain x).cc = x.cc := by
  have hsend (y : NetCtx) : (sendAck y).cc = y.cc := by
    unfold sendAck
    split_ifs <;> rfl
  rw [dataChain, hsend]
  exact congrArg Prod.fst (shared_before_sendAck x)

/-! ## The duplicate counter between events -/

theorem ackStep_effect {f : Flow} (hdup : f.c.rxDupackCnt < 3#16) (ev : NetEvent) (env : NetEnv) :
    ∃ c cc, flowStep f (.ack ev env) = { c := c, cc := cc } ∧ AckEffect (f.net ev env) c cc := by
  have hne : (f.net ev env).c.rxDupackCnt ≠ 3#16 := BitVec.ne_of_lt hdup
  exact ⟨_, _, rfl, ackEffect hne⟩

theorem dup_lt_step {f : Flow} (h : f.c.rxDupackCnt < 3#16) (e : FlowEvent) :
    (flowStep f e).c.rxDupackCnt < 3#16 := by
  have hzero : (0#16 : U16) < 3#16 := by decide
  cases e with
  | send dataSize env =>
    exact h
  | data ev env =>
    have hpart := congrArg TxPart.rxDupackCnt (dataChain_txPart (f.net ev env))
    exact lt_of_eq_of_lt hpart h
  | timeout env =>
    simp only [flowStep]
    by_cases hidle : f.c.txNextSeq = f.c.sendUna
    · rw [ackTimeoutXdpEp_c_of_idle hidle]
      exact h
    · rw [ackTimeoutXdpEp_c_of_outstanding hidle, goBackConn_rxDupackCnt]
      exact hzero
  | ack ev env =>
    obtain ⟨c', cc', hstep, heff⟩ := ackStep_effect h ev env
    rw [hstep]
    cases heff with
    | ignored => exact h
    | stray => exact h
    | advanced => exact hzero
    | duplicate _ _ hnext =>
      -- one below three, and the next one is not three
      change f.c.rxDupackCnt + 1#16 < 3#16
      have hnext' : f.c.rxDupackCnt + 1#16 ≠ 3#16 := hnext
      bv_omega
    | third =>
      rw [goBackConn_rxDupackCnt]
      exact hzero
    | window => exact h

end MtpXdp.Ebpf

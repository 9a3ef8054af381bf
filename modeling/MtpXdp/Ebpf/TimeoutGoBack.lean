import MtpXdp.Ebpf.SendSide

/-!
# Retransmission Timeouts

The control plane announces a timeout with a packet whose metadata holds `FLAG_TO` and is otherwise
zero. `tcp_tx_process` compares `tx_pos` of every packet with `tx_next_pos` first, so the
announcement is dropped unless the connection stands at position zero of its buffer.
`progStep_txPart`: whole packets refine the events of the sending side.
-/

namespace MtpXdp.Ebpf

open MtpXdp.Core

/-! ## Packets as events -/

inductive ProgEvent where
  | egress (env : TxEnv) (m : TxMeta) (p : Pkt)
  | ingress (now : U32) (ev : NetEvent) (env : NetEnv)

def progStep (f : Flow) : ProgEvent → Flow
  | .egress env m p => (xdpEgressProg f env m p).flow
  | .ingress now ev env =>
    let x := (tcpRxProcess now (f.net ev env)).1
    { c := x.c, cc := x.cc }

def egressEnvOf (env : TxEnv) (m : TxMeta) (p : Pkt) : EgressEnv where
  timestamp := env.refTs.setWidth 32
  md := m.asRx
  pkt := p

def egressEvent (env : TxEnv) (m : TxMeta) (p : Pkt) : FlowEvent :=
  if m.flag &&& flagTo ≠ 0#64 then .timeout (egressEnvOf env m p)
  else .send m.plen (egressEnvOf env m p)

/-- The sender's event that a packet stands for, if it is not forwarded, dropped or rejected. -/
def flowEventOf (c : BpfTcpConn) : ProgEvent → Option FlowEvent
  | .egress env m p =>
    if m.slowpath ≠ 0#64 ∧ m.flag &&& flagTo = 0#64 then none
    else if m.flag &&& flagSync ≠ 0#64 then none
    else if m.txPos ≠ c.txNextPos then none
    else some (egressEvent env m p)
  | .ingress now ev env =>
    match ev.minorType with
    | .ack =>
      if AckAccepted c ev.ackSeq then some (.ack { ev with timestamp := now } env) else none
    | .data => some (.data { ev with timestamp := now } env)

def RejectedHarmless (c : BpfTcpConn) : ProgEvent → Prop
  | .egress _ _ _ => True
  | .ingress _ ev env =>
    ev.minorType = .ack → ¬ AckAccepted c ev.ackSeq → env.io.numAckedBytes = 0#32

instance (c : BpfTcpConn) (e : ProgEvent) : Decidable (RejectedHarmless c e) := by
  cases e <;> unfold RejectedHarmless <;> infer_instance

/-! ## Packets refine events of the sending side -/

def SameTx (c d : BpfTcpConn) : Prop :=
  c.txPart = d.txPart ∧ c.rxRemoteAvail = d.rxRemoteAvail

section

variable {f : Flow} {c d : BpfTcpConn}

theorem sameTx_bumpRxAvail (c : BpfTcpConn) (n : U32) : SameTx (bumpRxAvail c n) c := by
  unfold bumpRxAvail
  split <;> exact ⟨rfl, rfl⟩

theorem goesBack_congr (h : SameTx c d) (e : FlowEvent) : GoesBack c e ↔ GoesBack d e := by
  obtain ⟨hpart, hrem⟩ := h
  simp only [BpfTcpConn.txPart, TxPart.mk.injEq] at hpart
  obtain ⟨hseq, huna, -, -, -, hdup⟩ := hpart
  cases e <;> simp only [GoesBack, ThirdDuplicate, hseq, huna, hdup, hrem]

theorem sender_step_congr (h : SameTx c d) (g : Sender) (e : FlowEvent) :
    g.step c e = g.step d e := by
  have hgo := goesBack_congr h e
  cases e with
  | send _ _ => rfl
  | ack ev env => exact if_congr hgo rfl rfl
  | data _ _ => rfl
  | timeout _ => rfl

private theorem txDispatch_flow (f : Flow) (env : TxEnv) {m : TxMeta} (p : Pkt)
    (hpos : m.txPos = f.c.txNextPos) :
    ∃ f' : Flow, f'.c = f.c ∧
      (txDispatch f env m (parseReqToEvent m) p).flow = flowStep f' (egressEvent env m p) := by
  -- the pacing clock has advanced before the event processor runs
  refine ⟨{ f with cc := (ccGetDesiredTxTs f.cc env.refTs m.plen).2 }, rfl, ?_⟩
  unfold txDispatch egressEvent
  rw [if_neg (not_not_intro hpos)]
  by_cases hto : m.flag &&& flagTo ≠ 0#64
  · rw [if_pos hto, show parseReqToEvent m = _ from if_pos hto]
    rfl
  · rw [if_neg hto, show parseReqToEvent m = _ from if_neg hto]
    rfl

private theorem progStep_egress_of_some {env : TxEnv} {m : TxMeta} {p : Pkt} {e : FlowEvent}
    (h : flowEventOf f.c (.egress env m p) = some e) :
    ∃ f' : Flow, SameTx f'.c f.c ∧ progStep f (.egress env m p) = flowStep f' e := by
  have hbump := sameTx_bumpRxAvail f.c m.rxBump
  unfold flowEventOf at h
  dsimp only at h
  split_ifs at h with hslow hsync hpos
  cases h
  have hpos' : m.txPos = (bumpRxAvail f.c m.rxBump).txNextPos :=
    (not_not.mp hpos).trans (congrArg TxPart.txNextPos hbump.1).symm
  obtain ⟨f', hc, hflow⟩ :=
    txDispatch_flow { f with c := bumpRxAvail f.c m.rxBump } env p hpos'
  refine ⟨f', hc ▸ hbump, ?_⟩
  rw [← hflow]
  simp only [progStep, xdpEgressProg, if_neg hslow, tcpTxProcess, if_neg hsync]

private theorem progStep_egress_of_none {env : TxEnv} {m : TxMeta} {p : Pkt}
    (h : flowEventOf f.c (.egress env m p) = none) :
    (progStep f (.egress env m p)).c.txPart = f.c.txPart := by
  have hbump := sameTx_bumpRxAvail f.c m.rxBump
  unfold flowEventOf at h
  unfold progStep xdpEgressProg
  dsimp only at h ⊢
  split_ifs at h with hslow hsync hpos
  · -- forwarded for the slow path
    rw [if_pos hslow]
  · -- a `FLAG_SYNC` packet
    rw [if_neg hslow, tcpTxProcess, if_pos hsync, txSync]
    split_ifs <;> exact hbump.1
  · -- dropped because of its position
    have hpos' : m.txPos ≠ (bumpRxAvail f.c m.rxBump).txNextPos :=
      fun heq => hpos (heq.trans (congrArg TxPart.txNextPos hbump.1))
    rw [if_neg hslow, tcpTxProcess, if_neg hsync, txDispatch, if_pos hpos']
    exact hbump.1

theorem progStep_of_some {e : ProgEvent} {e' : FlowEvent} (h : flowEventOf f.c e = some e') :
    ∃ f' : Flow, SameTx f'.c f.c ∧ progStep f e = flowStep f' e' := by
  cases e with
  | egress env m p => exact progStep_egress_of_some h
  | ingress now ev env =>
    unfold flowEventOf at h
    unfold progStep tcpRxProcess
    cases hminor : ev.minorType with
    | ack =>
      simp only [hminor] at h
      split_ifs at h
      cases h
      -- `cnt_rx_acks` is counted before the chain
      refine ⟨{ f with cc := { f.cc with cntRxAcks := f.cc.cntRxAcks + 1#16 } }, ⟨rfl, rfl⟩, ?_⟩
      simp [Flow.net, hminor, flowStep]
    | data =>
      simp only [hminor] at h
      cases h
      refine ⟨f, ⟨rfl, rfl⟩, ?_⟩
      simp [Flow.net, hminor, flowStep]

theorem progStep_of_none {e : ProgEvent} (h : flowEventOf f.c e = none)
    (hharm : RejectedHarmless f.c e) (hdup : f.c.rxDupackCnt ≠ 3#16) :
    (progStep f e).c.txPart = f.c.txPart := by
  cases e with
  | egress env m p => exact progStep_egress_of_none h
  | ingress now ev env =>
    unfold flowEventOf at h
    cases hminor : ev.minorType with
    | data => simp [hminor] at h
    | ack =>
      simp only [hminor] at h
      split_ifs at h with hacc
      have hnum : env.io.numAckedBytes = 0#32 := hharm hminor hacc
      let f' : Flow := { f with cc := { f.cc with cntRxAcks := f.cc.cntRxAcks + 1#16 } }
      have hconn : (progStep f (.ingress now ev env)).c =
          (ackChain (f'.net { ev with timestamp := now } env)).c := by
        simp [progStep, tcpRxProcess, Flow.net, hminor, f']
      have hout := ackOutcome (f'.net { ev with timestamp := now } env)
      rw [hconn]
      generalize (ackChain (f'.net { ev with timestamp := now } env)).c = c' at hout ⊢
      cases hout with
      | ignored _ _ _ => rfl
      | stray _ _ hne => exact absurd hnum hne
      -- from here on the case needs an acceptable ACK or a counter at three
      | stale h3 _ => exact absurd h3 hdup
      | advanced hacc' _ => exact absurd hacc' hacc
      | duplicate hack _ _ => exact absurd (hack ▸ ackAccepted_sendUna f.c) hacc
      | third hack _ _ => exact absurd (hack ▸ ackAccepted_sendUna f.c) hacc
      | window hack _ _ => exact absurd (hack ▸ ackAccepted_sendUna f.c) hacc

end

/-! ## Runs of packets stay in sync -/

def progSendStep (s : SendState) (e : ProgEvent) : SendState where
  flow := progStep s.flow e
  snd :=
    match flowEventOf s.flow.c e with
    | none => s.snd
    | some e' => s.snd.step s.flow.c e'

/-- Sends fit the buffer, rejected ACKs are harmless, and go-backs find `send_una` not above
    `buf_curr_seq`. -/
def ProgOk (s : SendState) (e : ProgEvent) : Prop :=
  match flowEventOf s.flow.c e with
  | none => RejectedHarmless s.flow.c e
  | some e' => SendDom s e' ∧ GoBackUnwrapped s e'

instance (s : SendState) (e : ProgEvent) : Decidable (ProgOk s e) := by
  unfold ProgOk
  split <;> infer_instance

theorem progSendStep_sendInv (s : SendState) (e : ProgEvent) (h : SendInv s)
    (hok : ProgOk s e) : SendInv (progSendStep s e) := by
  unfold ProgOk at hok
  unfold progSendStep
  cases hev : flowEventOf s.flow.c e with
  | none =>
    simp only [hev] at hok
    have hdup : s.flow.c.rxDupackCnt ≠ 3#16 := BitVec.ne_of_lt h.dup_lt
    exact sendInv_of_txPart h (progStep_of_none hev hok hdup)
  | some e' =>
    simp only [hev] at hok
    obtain ⟨hdom, hback⟩ := hok
    obtain ⟨f', hsame, hflow⟩ := progStep_of_some hev
    -- run the event on `f'`, which agrees with the connection on the sending side
    have h' : SendInv { flow := f', snd := s.snd } := sendInv_of_txPart h hsame.1
    have hdom' : SendDom { flow := f', snd := s.snd } e' := by
      have hsize : f'.c.txBufSize = s.flow.c.txBufSize := congrArg TxPart.txBufSize hsame.1
      cases e' with
      | send dataSize env =>
        change _ ≤ _ + f'.c.txBufSize.toNat
        rw [hsize]
        exact hdom
      | ack ev env => exact hdom
      | data ev env => trivial
      | timeout env => trivial
    have hback' : GoBackUnwrapped { flow := f', snd := s.snd } e' := by
      intro hgo
      have huna : f'.c.sendUna = s.flow.c.sendUna := congrArg TxPart.sendUna hsame.1
      have hbuf : f'.c.bufCurrSeq = s.flow.c.bufCurrSeq := congrArg TxPart.bufCurrSeq hsame.1
      rw [huna, hbuf]
      exact hback ((goesBack_congr hsame e').mp hgo)
    have hstep := sendStep_sendInv _ e' h' hdom' hback'
    unfold sendStep at hstep
    rw [sender_step_congr hsame] at hstep
    rw [hflow]
    exact hstep

/-! ## The timeout packet -/

def timeoutMeta : TxMeta where
  slowpath := 1#64
  flag := flagTo
  rxBump := 0#32
  txPending := 0#32
  txPos := 0#32
  plen := 0#32

/-- Both sequences return to `send_una`, and user space is told its position, marked as a recovery.
    -/
structure GoneBack (s : SendState) (r : TxResult) : Prop where
  sendUna : r.flow.c.sendUna = s.flow.c.sendUna
  txNextSeq : r.flow.c.txNextSeq = r.flow.c.sendUna
  bufCurrSeq : r.flow.c.bufCurrSeq = r.flow.c.sendUna
  redirected : r.action = .pass
  position : r.md.ackBytes =
    BitVec.ofNat 32 (s.snd.una % s.flow.c.txBufSize.toNat) ||| recoveryMask

section

variable {f : Flow} {env : TxEnv} {p : Pkt}

private theorem xdpEgressProg_timeout :
    xdpEgressProg f env timeoutMeta p =
      txDispatch f env timeoutMeta (parseReqToEvent timeoutMeta) p := by
  have hslow : ¬ (timeoutMeta.slowpath ≠ 0#64 ∧ timeoutMeta.flag &&& flagTo = 0#64) := by decide
  have hsync : ¬ timeoutMeta.flag &&& flagSync ≠ 0#64 := by decide
  rfl

theorem xdpEgressProg_timeout_of_ne (h : f.c.txNextPos ≠ 0#32) :
    (xdpEgressProg f env timeoutMeta p).action = .drop := by
  have hpos : timeoutMeta.txPos ≠ f.c.txNextPos := fun heq => h heq.symm
  rw [xdpEgressProg_timeout, txDispatch, if_pos hpos]

theorem xdpEgressProg_timeout_of_eq (env : TxEnv) (p : Pkt) (h : f.c.txNextPos = 0#32)
    (hout : f.c.txNextSeq ≠ f.c.sendUna) :
    (xdpEgressProg f env timeoutMeta p).flow.c = resetAndGoBack f.c ∧
      (xdpEgressProg f env timeoutMeta p).action = .pass ∧
      (f.c.sendUna ≤ f.c.bufCurrSeq → (xdpEgressProg f env timeoutMeta p).md.ackBytes =
        (resetAndGoBack f.c).txNextPos ||| recoveryMask) := by
  have hpos : ¬ timeoutMeta.txPos ≠ f.c.txNextPos := not_not_intro h.symm
  have hev : (parseReqToEvent timeoutMeta).type = .timerEvent := by decide
  rw [xdpEgressProg_timeout, txDispatch, if_neg hpos]
  simp only [hev, ackTimeoutXdpEp, if_neg hout]
  refine ⟨mtpPktGenWrapper_goBack _ _ _ _, trivial, ?_⟩
  intro hle
  have hnlt : ¬ (resetConn { f.c with rxDupackCnt := 0#16 }).bufCurrSeq <
      (resetConn { f.c with rxDupackCnt := 0#16 }).sendUna := BitVec.not_lt.mpr hle
  simp only [mtpPktGenWrapper, Bool.false_or, decide_eq_true_eq, if_neg hnlt, resetAndGoBack,
    goBackConn]
  rfl

theorem goneBack_timeout_iff {s : SendState} (h : SendInv s) (env : TxEnv) (p : Pkt)
    (hout : s.flow.c.txNextSeq ≠ s.flow.c.sendUna) :
    GoneBack s (xdpEgressProg s.flow env timeoutMeta p) ↔
      s.flow.c.txNextPos = 0#32 ∧ s.flow.c.sendUna ≤ s.flow.c.bufCurrSeq := by
  by_cases hpos : s.flow.c.txNextPos = 0#32
  · obtain ⟨hconn, hact, hmd⟩ := xdpEgressProg_timeout_of_eq env p hpos hout
    constructor
    · -- the segmenting half would leave `buf_curr_seq` behind
      intro hgone
      refine ⟨hpos, ?_⟩
      by_contra hlt
      have hbad := resetAndGoBack_of_lt (BitVec.not_le.mp hlt)
      rw [← hconn] at hbad
      exact hbad (hgone.bufCurrSeq.trans hgone.txNextSeq.symm)
    · -- the position told to user space is the abstract sender's, by the invariant
      intro hcond
      have hback := wentBack_resetAndGoBack hcond.2
      have hinv : SendInv { flow := { c := resetAndGoBack s.flow.c, cc := s.flow.cc }
                            snd := s.snd.goBack } := sendInv_of_wentBack h hback
      have hnext : (resetAndGoBack s.flow.c).txNextPos =
          BitVec.ofNat 32 (s.snd.una % s.flow.c.txBufSize.toNat) := by
        have heq : (resetAndGoBack s.flow.c).txNextPos.toNat =
            s.snd.una % (resetAndGoBack s.flow.c).txBufSize.toNat := hinv.pos_eq
        rw [hback.txBufSize] at heq
        rw [← heq, BitVec.ofNat_toNat, BitVec.setWidth_eq]
      exact {
        sendUna := by rw [hconn, hback.sendUna]
        txNextSeq := by rw [hconn, hback.txNextSeq, hback.sendUna]
        bufCurrSeq := by rw [hconn, hback.bufCurrSeq, hback.sendUna]
        redirected := hact
        position := by rw [hmd hcond.2, hnext] }
  · constructor
    · intro hgone
      -- the packet was dropped
      exact absurd hgone.redirected (by rw [xdpEgressProg_timeout_of_ne hpos]; decide)
    · intro hcond
      exact absurd hcond.1 hpos

end

/-- **A retransmission timeout goes back** precisely at position zero of the send buffer with
    `send_una` not above `buf_curr_seq`. -/
theorem timeout_goneBack_iff {f : Flow} {s0 : U32} (hfresh : FreshTx f.c s0)
    (es : List ProgEvent) (s : SendState)
    (hs : s = run progSendStep { flow := f, snd := { s0 := s0, una := 0, nxt := 0 } } es)
    (hrun : Meets progSendStep ProgOk { flow := f, snd := { s0 := s0, una := 0, nxt := 0 } } es)
    (hout : s.flow.c.txNextSeq ≠ s.flow.c.sendUna) (env : TxEnv) (p : Pkt) :
    GoneBack s (xdpEgressProg s.flow env timeoutMeta p) ↔
      s.flow.c.txNextPos = 0#32 ∧ s.flow.c.sendUna ≤ s.flow.c.bufCurrSeq := by
  subst hs
  exact goneBack_timeout_iff (run_of_meets progSendStep_sendInv (sendInv_fresh hfresh) hrun)
    env p hout

def appMeta (pos n : U32) : TxMeta := { (default : TxMeta) with txPos := pos, plen := n }

def sentState (n : U32) : SendState :=
  run progSendStep { flow := freshFlow 7, snd := { s0 := 7, una := 0, nxt := 0 } }
    [.egress default (appMeta 0 n) default]

theorem timeout_goneBack_at :
    GoneBack (sentState 2048) (xdpEgressProg (sentState 2048).flow default timeoutMeta default) :=
  (timeout_goneBack_iff (freshTx_freshFlow 7) _ _ rfl (by decide) (by decide) _ _).mpr (by decide)

/-- **Whole packets keep the connection in sync** with the abstract sender. -/
theorem progSend_inSync {f : Flow} {s0 : U32} (hfresh : FreshTx f.c s0) {es : List ProgEvent}
    (hok : Meets progSendStep ProgOk ⟨f, s0, 0, 0⟩ es) :
    Always progSendStep InSync ⟨f, s0, 0, 0⟩ es :=
  (always_of_meets progSendStep_sendInv (sendInv_fresh hfresh) hok).mono fun _ h => h.toInSync

theorem progSend_inSync_at :
    let es := [.egress default (appMeta 0 2048) default,
      .ingress 0 { (default : NetEvent) with minorType := .ack, ackSeq := 1007 } default,
      .egress default timeoutMeta default]
    (run progSendStep ⟨freshFlow 7, 7, 0, 0⟩ es).flow.c.txNextSeq = 1007#32 ∧
      Always progSendStep InSync ⟨freshFlow 7, 7, 0, 0⟩ es :=
  ⟨by decide, progSend_inSync (freshTx_freshFlow 7) (by decide)⟩

/-- With 100 bytes outstanding and position 100 the timeout packet is dropped: nothing is sent
    again. -/
theorem timeout_ignored :
    (sentState 100).flow.c.txNextSeq ≠ (sentState 100).flow.c.sendUna ∧
    Meets progSendStep ProgOk { flow := freshFlow 7, snd := { s0 := 7, una := 0, nxt := 0 } }
      [.egress default (appMeta 0 100) default] ∧
    ¬ GoneBack (sentState 100)
      (xdpEgressProg (sentState 100).flow default timeoutMeta default) := by
  refine ⟨by decide, by decide, ?_⟩
  intro hgone
  exact absurd hgone.redirected (by decide)

end MtpXdp.Ebpf

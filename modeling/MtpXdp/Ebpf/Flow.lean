import MtpXdp.Core.Run
import MtpXdp.Ebpf.AckProcessing

/-!
# A Connection as an Event System

One connection, driven by sends, ACKs, data segments and retransmission timeouts. Whatever surrounds
an event (`int_out`, metadata, clocks, packet buffers) is part of the event and arbitrary. The
second half says which fields each event leaves alone.

`rx_remote_avail`, the budget that the programs hand to user space, should hold a window that the
peer has advertised. Both go-backs add the outstanding bytes to it; so it does in runs whose
go-backs find nothing outstanding.
-/

namespace MtpXdp.Ebpf

/-! ## Events -/

structure NetEnv where
  io : IntermOut
  md : RxMeta
  ring : AckRing
  ktime : U64
deriving Inhabited

structure EgressEnv where
  timestamp : U32
  md : RxMeta
  pkt : Pkt
deriving Inhabited

inductive FlowEvent where
  | send (dataSize : U32) (env : EgressEnv)
  | ack (ev : NetEvent) (env : NetEnv)
  | data (ev : NetEvent) (env : NetEnv)
  | timeout (env : EgressEnv)

def Flow.net (f : Flow) (ev : NetEvent) (env : NetEnv) : NetCtx where
  ev := ev
  c := f.c
  io := env.io
  md := env.md
  cc := f.cc
  ring := env.ring
  ktime := env.ktime

def Flow.egress (f : Flow) (type : AppTimerType) (dataSize : U32) (env : EgressEnv) :
    EgressCtx where
  ev := { type := type, dataSize := dataSize, timestamp := env.timestamp }
  c := f.c
  md := env.md
  cc := f.cc
  pkt := env.pkt

def flowStep (f : Flow) : FlowEvent → Flow
  | .send dataSize env =>
    let x := sendEp (f.egress .appEvent dataSize env)
    { c := x.c, cc := x.cc }
  | .ack ev env =>
    let x := ackChain (f.net ev env)
    { c := x.c, cc := x.cc }
  | .data ev env =>
    let x := dataChain (f.net ev env)
    { c := x.c, cc := x.cc }
  | .timeout env =>
    let x := (ackTimeoutXdpEp (f.egress .timerEvent 0 env)).1
    { c := x.c, cc := x.cc }

/-! ## Go-backs -/

def ThirdDuplicate (c : BpfTcpConn) (ev : NetEvent) : Prop :=
  ev.ackSeq = c.sendUna ∧ c.rxRemoteAvail = ev.scaledWnd ∧ c.rxDupackCnt + 1#16 = 3#16
deriving Decidable

def GoesBack (c : BpfTcpConn) : FlowEvent → Prop
  | .send _ _ => False
  | .ack ev _ => ThirdDuplicate c ev
  | .data _ _ => False
  | .timeout _ => c.txNextSeq ≠ c.sendUna

instance (c : BpfTcpConn) (e : FlowEvent) : Decidable (GoesBack c e) := by
  cases e <;> unfold GoesBack <;> infer_instance

/-! ## The sending side -/

structure TxPart where
  txNextSeq : U32
  sendUna : U32
  bufCurrSeq : U32
  txNextPos : U32
  txBufSize : U32
  rxDupackCnt : U16

def BpfTcpConn.txPart (c : BpfTcpConn) : TxPart where
  txNextSeq := c.txNextSeq
  sendUna := c.sendUna
  bufCurrSeq := c.bufCurrSeq
  txNextPos := c.txNextPos
  txBufSize := c.txBufSize
  rxDupackCnt := c.rxDupackCnt

theorem sendEp_c (x : EgressCtx) :
    (sendEp x).c = { advanceBuf x.c x.ev.dataSize with
      dataEnd := x.c.dataEnd + x.ev.dataSize
      txNextSeq := x.c.txNextSeq + x.ev.dataSize } := by
  simp [sendEp, mtpPktGenWrapper, advanceBuf]

theorem ackTimeoutXdpEp_c_of_idle {x : EgressCtx} (h : x.c.txNextSeq = x.c.sendUna) :
    (ackTimeoutXdpEp x).1.c = x.c := by
  unfold ackTimeoutXdpEp
  rw [if_pos h]

theorem ackTimeoutXdpEp_c_of_outstanding {x : EgressCtx} (h : x.c.txNextSeq ≠ x.c.sendUna) :
    (ackTimeoutXdpEp x).1.c = goBackConn (resetConn { x.c with rxDupackCnt := 0#16 }) := by
  unfold ackTimeoutXdpEp
  rw [if_neg h]
  exact mtpPktGenWrapper_goBack _ _ _ _

/-! ## What data segments leave alone -/

section

variable (x : NetCtx)

/-- What an event processor shares with the rest of the system: the entry of the control plane and
    the ACK ring. -/
def NetCtx.shared : BpfCc × AckRing := (x.cc, x.ring)

@[simp] theorem verifyTrimDataEp_c : (verifyTrimDataEp x).c = x.c := by
  unfold verifyTrimDataEp
  split <;> rfl

@[simp] theorem verifyTrimDataEp_scaledWnd :
    (verifyTrimDataEp x).ev.scaledWnd = x.ev.scaledWnd := by
  unfold verifyTrimDataEp
  split <;> rfl

theorem detectOooDataEp_frame : (detectOooDataEp x).c.txPart = x.c.txPart ∧
    (detectOooDataEp x).c.rxRemoteAvail = x.c.rxRemoteAvail ∧
    (detectOooDataEp x).ev.scaledWnd = x.ev.scaledWnd ∧ (detectOooDataEp x).shared = x.shared := by
  unfold detectOooDataEp
  split_ifs <;> exact ⟨rfl, rfl, rfl, rfl⟩

@[simp] theorem detectOooDataEp_txPart : (detectOooDataEp x).c.txPart = x.c.txPart :=
  (detectOooDataEp_frame x).1

@[simp] theorem detectOooDataEp_rxRemoteAvail :
    (detectOooDataEp x).c.rxRemoteAvail = x.c.rxRemoteAvail :=
  (detectOooDataEp_frame x).2.1

@[simp] theorem detectOooDataEp_scaledWnd : (detectOooDataEp x).ev.scaledWnd = x.ev.scaledWnd :=
  (detectOooDataEp_frame x).2.2.1

@[simp] theorem detectOooDataEp_shared : (detectOooDataEp x).shared = x.shared :=
  (detectOooDataEp_frame x).2.2.2

theorem mergeOoo_frame :
    (mergeOoo x).c.txPart = x.c.txPart ∧ (mergeOoo x).c.rxRemoteAvail = x.c.rxRemoteAvail ∧
    (mergeOoo x).shared = x.shared := by
  unfold mergeOoo
  split
  · exact ⟨rfl, rfl, rfl⟩
  · dsimp only
    split_ifs <;> exact ⟨rfl, rfl, rfl⟩

@[simp] theorem mergeOoo_txPart : (mergeOoo x).c.txPart = x.c.txPart := (mergeOoo_frame x).1

@[simp] theorem mergeOoo_rxRemoteAvail : (mergeOoo x).c.rxRemoteAvail = x.c.rxRemoteAvail :=
  (mergeOoo_frame x).2.1

@[simp] theorem mergeOoo_shared : (mergeOoo x).shared = x.shared := (mergeOoo_frame x).2.2

def flushHead : BpfTcpConn :=
  { x.c with
    rxRemoteAvail :=
      if x.c.rxRemoteAvail < x.ev.scaledWnd then x.ev.scaledWnd else x.c.rxRemoteAvail
    txNextTs := if x.ev.dataLen ≠ 0#32 ∧ x.c.txNextTs = 0#32 then x.ev.tsVal else x.c.txNextTs }

def flushAccept : BpfTcpConn :=
  { flushHead x with
    rxAvail := x.c.rxAvail - x.ev.dataLen
    rxNextSeq := x.c.rxNextSeq + x.ev.dataLen }

theorem flushOooDataEp_eq : flushOooDataEp x = if x.ev.dataLen ≠ 0#32 then
        if x.c.rxOooLen ≠ 0#32 then mergeOoo { x with c := flushAccept x }
        else { x with c := flushAccept x }
      else { x with c := flushHead x } := by
  have hhead : flushHead x =
      (if x.ev.dataLen ≠ 0#32 ∧
          (if x.c.rxRemoteAvail < x.ev.scaledWnd then
            { x.c with rxRemoteAvail := x.ev.scaledWnd } else x.c).txNextTs = 0#32 then
        { (if x.c.rxRemoteAvail < x.ev.scaledWnd then
            { x.c with rxRemoteAvail := x.ev.scaledWnd } else x.c) with txNextTs := x.ev.tsVal }
      else if x.c.rxRemoteAvail < x.ev.scaledWnd then
        { x.c with rxRemoteAvail := x.ev.scaledWnd } else x.c) := by
    unfold flushHead
    by_cases hwnd : x.c.rxRemoteAvail < x.ev.scaledWnd
    · simp only [hwnd, if_true]
      split_ifs <;> rfl
    · simp only [hwnd, if_false]
      split_ifs <;> rfl
  unfold flushOooDataEp flushAccept
  dsimp only
  rw [← hhead]
  by_cases hlen : x.ev.dataLen ≠ 0#32
  · rw [if_pos hlen, if_pos hlen]
    rfl
  · rw [if_neg hlen, if_neg hlen]

@[simp] theorem flushOooDataEp_txPart : (flushOooDataEp x).c.txPart = x.c.txPart := by
  rw [flushOooDataEp_eq]
  split_ifs
  · rw [mergeOoo_txPart]
    rfl
  · rfl
  · rfl

@[simp] theorem flushOooDataEp_rxRemoteAvail : (flushOooDataEp x).c.rxRemoteAvail =
      if x.c.rxRemoteAvail < x.ev.scaledWnd then x.ev.scaledWnd else x.c.rxRemoteAvail := by
  rw [flushOooDataEp_eq]
  split_ifs <;> simp_all [flushAccept, flushHead]

@[simp] theorem dataNetEp_c : (dataNetEp x).c = x.c := by
  unfold dataNetEp mtpAddDataSegWrapper
  split_ifs <;> rfl

theorem sendAck_c : (sendAck x).c = x.c ∨ (sendAck x).c = { x.c with txNextTs := 0#32 } := by
  unfold sendAck
  split_ifs
  · unfold mtpPktGenForXdpGen
    split_ifs
    · exact Or.inr rfl
    · cases x.ring.lookup x.ring.prod with
      | none => exact Or.inl rfl
      | some old => exact Or.inr rfl
  · exact Or.inl rfl

@[simp] theorem sendAck_txPart : (sendAck x).c.txPart = x.c.txPart := by
  rcases sendAck_c x with h | h
  · rw [h]
  · rw [h]
    rfl

@[simp] theorem sendAck_rxRemoteAvail : (sendAck x).c.rxRemoteAvail = x.c.rxRemoteAvail := by
  rcases sendAck_c x with h | h <;> rw [h]

theorem dataChain_txPart : (dataChain x).c.txPart = x.c.txPart := by
  simp [dataChain]

theorem dataChain_rxRemoteAvail : (dataChain x).c.rxRemoteAvail =
      if x.c.rxRemoteAvail < x.ev.scaledWnd then x.ev.scaledWnd else x.c.rxRemoteAvail := by
  simp [dataChain]

@[simp] theorem verifyTrimDataEp_shared : (verifyTrimDataEp x).shared = x.shared := by
  unfold verifyTrimDataEp
  split <;> rfl

@[simp] theorem flushOooDataEp_shared : (flushOooDataEp x).shared = x.shared := by
  rw [flushOooDataEp_eq]
  split_ifs
  · rw [mergeOoo_shared]
    rfl
  · rfl
  · rfl

@[simp] theorem dataNetEp_shared : (dataNetEp x).shared = x.shared := by
  unfold dataNetEp mtpAddDataSegWrapper
  split_ifs <;> rfl

theorem shared_before_sendAck :
    (dataNetEp (flushOooDataEp (detectOooDataEp (verifyTrimDataEp x)))).shared = x.shared := by
  simp

end

open MtpXdp.Core

variable {s : CreditState}

structure CreditState where
  flow : Flow
  wnds : List U32

def FlowEvent.window : FlowEvent → Option U32
  | .send _ _ => none
  | .ack ev _ => some ev.scaledWnd
  | .data ev _ => some ev.scaledWnd
  | .timeout _ => none

def creditStep (s : CreditState) (e : FlowEvent) : CreditState where
  flow := flowStep s.flow e
  wnds := s.wnds ++ e.window.toList

def CreditKnown (init : U32) (s : CreditState) : Prop :=
  s.flow.c.rxRemoteAvail = init ∨ s.flow.c.rxRemoteAvail ∈ s.wnds

def NothingTakenBack (s : CreditState) (e : FlowEvent) : Prop :=
  GoesBack s.flow.c e → s.flow.c.txNextSeq = s.flow.c.sendUna

instance (s : CreditState) (e : FlowEvent) : Decidable (NothingTakenBack s e) := by
  unfold NothingTakenBack
  infer_instance

@[simp] theorem goBackConn_rxRemoteAvail (c : BpfTcpConn) :
    (goBackConn c).rxRemoteAvail = c.rxRemoteAvail := by
  unfold goBackConn
  split <;> rfl

def CreditMoves (s : CreditState) (e : FlowEvent) : Prop :=
  (flowStep s.flow e).c.rxRemoteAvail = s.flow.c.rxRemoteAvail ∨
    some (flowStep s.flow e).c.rxRemoteAvail = e.window

theorem creditKnown_of_moves {init : U32} {e : FlowEvent}
    (h : CreditKnown init s) (hmove : CreditMoves s e) : CreditKnown init (creditStep s e) := by
  unfold CreditKnown creditStep
  rcases hmove with hsame | hwnd
  · rw [hsame]
    rcases h with hinit | hmem
    · exact Or.inl hinit
    · exact Or.inr (List.mem_append_left _ hmem)
  · right
    rw [← hwnd]
    simp

private theorem creditMoves_ack {ev : NetEvent} {env : NetEnv}
    (hok : NothingTakenBack s (.ack ev env)) : CreditMoves s (.ack ev env) := by
  have hout := ackOutcome (s.flow.net ev env)
  have hconn : (flowStep s.flow (.ack ev env)).c = (ackChain (s.flow.net ev env)).c := rfl
  unfold CreditMoves
  rw [hconn]
  generalize (ackChain (s.flow.net ev env)).c = c' at hout ⊢
  cases hout with
  | ignored _ _ _ => exact Or.inl rfl
  | stray _ _ _ => exact Or.inl rfl
  | stale _ _ => exact Or.inl (goBackConn_rxRemoteAvail _)
  | advanced _ _ => exact Or.inr rfl
  | duplicate _ _ _ => exact Or.inl rfl
  | third hack hwnd hdup =>
    -- the reset adds the outstanding bytes, of which there are none
    have hidle : s.flow.c.txNextSeq = s.flow.c.sendUna := hok ⟨hack, hwnd, hdup⟩
    left
    rw [goBackConn_rxRemoteAvail]
    change s.flow.c.rxRemoteAvail + (s.flow.c.txNextSeq - s.flow.c.sendUna) = _
    rw [hidle, BitVec.sub_self, BitVec.add_zero]
  | window _ _ _ =>
    by_cases hlt : s.flow.c.rxRemoteAvail < ev.scaledWnd
    · exact Or.inr (congrArg some (if_pos hlt))
    · exact Or.inl (if_neg hlt)

theorem creditMoves_of_nothingTakenBack {e : FlowEvent}
    (hok : NothingTakenBack s e) : CreditMoves s e := by
  cases e with
  | send dataSize env =>
    left
    change (sendEp (s.flow.egress .appEvent dataSize env)).c.rxRemoteAvail = _
    rfl
  | ack ev env => exact creditMoves_ack hok
  | data ev env =>
    have hrem := dataChain_rxRemoteAvail (s.flow.net ev env)
    by_cases hlt : s.flow.c.rxRemoteAvail < ev.scaledWnd
    · exact Or.inr (congrArg some (hrem.trans (if_pos hlt)))
    · exact Or.inl (hrem.trans (if_neg hlt))
  | timeout env =>
    -- with bytes outstanding the timeout would go back
    have hidle : s.flow.c.txNextSeq = s.flow.c.sendUna := by
      by_contra hne
      exact hne (hok hne)
    exact Or.inl (congrArg BpfTcpConn.rxRemoteAvail (ackTimeoutXdpEp_c_of_idle hidle))

/-- **No credit is invented** in a run whose go-backs find nothing outstanding: it is the initial
    one or was advertised. -/
theorem creditKnown_always (f : Flow) (es : List FlowEvent)
    (hok : Meets creditStep NothingTakenBack { flow := f, wnds := [] } es) :
    Always creditStep (CreditKnown f.c.rxRemoteAvail) { flow := f, wnds := [] } es :=
  always_of_meets
    (fun _ _ h hstep => creditKnown_of_moves h (creditMoves_of_nothingTakenBack hstep))
    (Or.inl rfl) hok

def creditFlow : Flow :=
  { (default : Flow) with c := { (default : BpfTcpConn) with
      txBufSize := 2048, rxRemoteAvail := 1000 } }

theorem creditKnown_always_at :
    Always creditStep (CreditKnown 1000) { flow := creditFlow, wnds := [] }
      [.send 500 default,
       .ack { (default : NetEvent) with ackSeq := 500, rwndSize := 100 } default,
       .timeout default] :=
  creditKnown_always creditFlow _ (by decide)

def duplicateAck : FlowEvent := .ack { (default : NetEvent) with rwndSize := 125 } default

/-- Credit 1000, 500 bytes sent, three duplicate ACKs: the credit becomes 1500, never advertised. -/
theorem credit_invented :
    ¬ Always creditStep (CreditKnown 1000) { flow := creditFlow, wnds := [] }
      [.send 500 default, duplicateAck, duplicateAck, duplicateAck] := by
  intro h
  rcases h.2.2.2.2 with hinit | hmem
  · exact absurd hinit (by decide)
  · exact absurd hmem (by decide)

end MtpXdp.Ebpf

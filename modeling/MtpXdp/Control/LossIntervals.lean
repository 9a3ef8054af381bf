import MtpXdp.Ebpf.SenderEffects
import MtpXdp.Control.CongestionControl

/-!
# Losses and Control Intervals

Between two control polls the data path should halve the rate once, at the first loss, which it
takes to be the one that finds `cnt_tx_drops` zero. But nothing sets that counter back, so the rate
is halved at the first loss of the connection, and again when the 16-bit counter has wrapped.
-/

namespace MtpXdp.Control

open MtpXdp.Core Ebpf

/-! ## The data path and the control plane of a connection -/

structure LossState where
  flow : Flow
  conn : TcpConnection
  losses : Nat
  sincePoll : Nat

inductive LossEvent where
  | flow (e : FlowEvent)
  | poll

/-- A poll: `mtp_snapshot_cc`, `slows_congc_ep` and `set_tx_rate_ep`, which writes the rate of the
    map entry. -/
def ccPoll (conn : TcpConnection) (entry : BpfCc) : Option (TcpConnection × BpfCc) :=
  let (_, conn) := mtpSnapshotCc entry default conn
  match slowsCongcEp conn with
  | none => none
  | some (conn, out) =>
    match setTxRateEp conn out with
    | none => none
    | some (conn, rate) => some (conn, { entry with rate := rate })

/-- A timeout with data outstanding and a third duplicate ACK are losses. A failed assertion ends
    the polls only. -/
def lossStep (s : LossState) : LossEvent → LossState
  | .flow e =>
    let loss := if GoesBack s.flow.c e then 1 else 0
    { s with
      flow := flowStep s.flow e
      losses := s.losses + loss
      sincePoll := s.sincePoll + loss }
  | .poll =>
    match ccPoll s.conn s.flow.cc with
    | none => s
    | some (conn, entry) =>
      { s with flow := { s.flow with cc := entry }, conn := conn, sincePoll := 0 }

/-- **The rate is halved at the first loss of a control interval and by no other event of the data
    path.** -/
def HalvesFirst (s : LossState) : LossEvent → Prop
  | .flow e =>
    (flowStep s.flow e).cc.rate =
      if GoesBack s.flow.c e ∧ s.sincePoll = 0 then s.flow.cc.rate >>> 1 else s.flow.cc.rate
  | .poll => True

/-- A loss is the first of its interval iff a multiple of `2 ^ 16` losses went before it. -/
def CounterFits (s : LossState) : LossEvent → Prop
  | .flow e => GoesBack s.flow.c e → (s.sincePoll = 0 ↔ s.losses % 2 ^ 16 = 0)
  | .poll => True

instance (s : LossState) (e : LossEvent) : Decidable (CounterFits s e) := by
  unfold CounterFits
  split <;> infer_instance

/-! ## What events do to the rate -/

inductive RateEffect (f : Flow) (e : FlowEvent) (f' : Flow) : Prop where
  | loss (hloss : GoesBack f.c e) (hrate : f'.cc.rate = (resetCc f.cc).rate)
      (hdrops : f'.cc.cntTxDrops = f.cc.cntTxDrops + 1#16)
  | quiet (hnot : ¬ GoesBack f.c e) (hrate : f'.cc.rate = f.cc.rate)
      (hdrops : f'.cc.cntTxDrops = f.cc.cntTxDrops)

theorem flowStep_rate {f : Flow} (hdup : f.c.rxDupackCnt < 3#16) (e : FlowEvent) :
    RateEffect f e (flowStep f e) := by
  cases e with
  | send dataSize env =>
    have hcc := sendEp_cc (f.egress .appEvent dataSize env)
    have hrate := congrArg BpfCc.rate hcc
    have hdrops := congrArg BpfCc.cntTxDrops hcc
    exact .quiet not_false hrate hdrops
  | data ev env =>
    have hcc := dataChain_cc (f.net ev env)
    exact .quiet not_false (congrArg BpfCc.rate hcc) (congrArg BpfCc.cntTxDrops hcc)
  | timeout env =>
    by_cases hidle : f.c.txNextSeq = f.c.sendUna
    · have hcc : (flowStep f (.timeout env)).cc = f.cc := ackTimeoutXdpEp_cc_of_idle hidle
      exact .quiet (not_not_intro hidle) (by rw [hcc]) (by rw [hcc])
    · have hcc : (flowStep f (.timeout env)).cc = resetCc f.cc :=
        ackTimeoutXdpEp_cc_of_outstanding hidle
      exact .loss hidle (by rw [hcc]) (by rw [hcc]; rfl)
  | ack ev env =>
    obtain ⟨c', cc', hstep, heff⟩ := ackStep_effect hdup ev env
    rw [hstep]
    -- an ACK that is rejected, or that is not the third duplicate, resets nothing
    cases heff with
    | ignored hrej => exact .quiet (fun h => hrej (h.1 ▸ ackAccepted_sendUna f.c)) rfl rfl
    | stray hrej => exact .quiet (fun h => hrej (h.1 ▸ ackAccepted_sendUna f.c)) rfl rfl
    | advanced _ hnew =>
      have hkeep := sampledCc_drops (f.net ev env)
      exact .quiet (fun h => hnew h.1) hkeep.2 hkeep.1
    | duplicate _ _ hnext => exact .quiet (fun h => hnext h.2.2) rfl rfl
    | third hthird => exact .loss hthird rfl rfl
    | window _ hwnd => exact .quiet (fun h => hwnd h.2.1) rfl rfl

theorem ccPoll_entry {conn conn' : TcpConnection} {entry entry' : BpfCc}
    (h : ccPoll conn entry = some (conn', entry')) : entry'.cntTxDrops = entry.cntTxDrops := by
  unfold ccPoll at h
  dsimp only at h
  split at h
  · cases h
  · split at h
    · cases h
    · cases h
      rfl

/-! ## Runs -/

structure LossInv (s : LossState) : Prop where
  dup_lt : s.flow.c.rxDupackCnt < 3#16
  counted : s.flow.cc.cntTxDrops.toNat = s.losses % 2 ^ 16

theorem LossInv.step {s : LossState} (h : LossInv s) (e : LossEvent) : LossInv (lossStep s e) := by
  cases e with
  | flow e =>
    refine ⟨dup_lt_step h.dup_lt e, ?_⟩
    have hcount := h.counted
    simp only [lossStep]
    cases flowStep_rate h.dup_lt e with
    | loss hloss _ hdrops =>
      rw [hdrops, if_pos hloss, BitVec.toNat_add, hcount]
      simp only [BitVec.toNat_ofNat, Nat.reducePow, Nat.reduceMod]
      omega
    | quiet hnot _ hdrops =>
      rw [hdrops, if_neg hnot]
      exact hcount
  | poll =>
    simp only [lossStep]
    split
    · exact h
    · next conn entry hpoll =>
      exact ⟨h.dup_lt, (congrArg BitVec.toNat (ccPoll_entry hpoll)).trans h.counted⟩

theorem LossInv.halvesFirst {s : LossState} (h : LossInv s) {e : LossEvent}
    (hfits : CounterFits s e) : HalvesFirst s e := by
  cases e with
  | poll => trivial
  | flow e =>
    simp only [HalvesFirst]
    cases flowStep_rate h.dup_lt e with
    | loss hloss hrate _ =>
      -- the source asks whether the counter is zero
      have hzero : s.flow.cc.cntTxDrops = 0#16 ↔ s.sincePoll = 0 := by
        rw [hfits hloss, ← h.counted, ← BitVec.toNat_inj]
        rfl
      simp only [hrate, resetCc, hloss, hzero, true_and]
    | quiet hnot hrate _ => rw [hrate, if_neg fun h => hnot h.1]

/-- **The rate is halved at the first loss of every control interval, and at no other**, in a run
    whose losses meet the condition. -/
theorem halvesFirst_of_counterFits {f : Flow} (hdup : f.c.rxDupackCnt = 0#16)
    (hdrops : f.cc.cntTxDrops = 0#16) (conn : TcpConnection) (es : List LossEvent)
    (hok : Meets lossStep CounterFits { flow := f, conn := conn, losses := 0, sincePoll := 0 } es) :
    Meets lossStep HalvesFirst { flow := f, conn := conn, losses := 0, sincePoll := 0 } es := by
  have h0 : LossInv { flow := f, conn := conn, losses := 0, sincePoll := 0 } :=
    ⟨by rw [hdup]; decide, by rw [hdrops]; rfl⟩
  exact meets_of_inv (fun _ e h _ => h.step e) (fun _ _ h he => h.halvesFirst he) h0 hok

def lossyFlow : Flow :=
  { (default : Flow) with cc := { (default : BpfCc) with rate := 1000000000#32 } }

def lossyConn : TcpConnection :=
  { (default : TcpConnection) with
    txBufSize := 65536#32
    dctcpWnd := { window := 2896#32, ecnRate := 0#32, slowstart := true } }

def lostBytes : List LossEvent := [.flow (.send 100#32 default), .flow (.timeout default)]

theorem halvesFirst_one_interval :
    Meets lossStep HalvesFirst
      { flow := lossyFlow, conn := lossyConn, losses := 0, sincePoll := 0 }
      (lostBytes ++ lostBytes ++ [.poll]) :=
  halvesFirst_of_counterFits rfl rfl lossyConn _ (by decide)

/-- One loss in each of two intervals: the second one does not halve the rate. -/
theorem second_interval_not_halved :
    ¬ Meets lossStep HalvesFirst
      { flow := lossyFlow, conn := lossyConn, losses := 0, sincePoll := 0 }
      (lostBytes ++ [.poll] ++ lostBytes) := by
  rintro ⟨-, -, -, -, hsecond, -⟩
  exact absurd hsecond (by unfold HalvesFirst; decide)

end MtpXdp.Control

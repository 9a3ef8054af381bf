import MtpXdp.Ebpf.State

/-!
# Congestion Control in the Control Poll

One iteration of `poll_tcp_cc_to` for an open connection, in the MTP build (`ctrl_plane_mtp.h`) and
in the original one (`tcp.cc`, `cc.cc`).

A failed `assert` is `none`. `cycles_to_us` depends on a calibration of the machine, so it is a
parameter `toUs` throughout.
-/

namespace MtpXdp.Control

open Ebpf

/-! ## The connection record -/

/-- `enum tcp_connection_type`. A `fake` connection is made by `tcp_bind` for a listener. -/
inductive TcpConnectionType where
  | normal
  | fake
deriving DecidableEq, Inhabited

inductive ConnectionStatus where
  | waitRxSyn
  | waitTxSynack
  | waitTxSyn
  | waitRxSynack
  | open
  | closed
  | failed
deriving DecidableEq, Inhabited

inductive CcAlgorithm where
  | none
  | timely
  | dctcpRate
  | dctcpWnd
deriving DecidableEq, Inhabited

structure CcDctcpWnd where
  ecnRate : U32
  window : U32
  slowstart : Bool
deriving Inhabited

/-- A `struct app_ctx_per_thread *`: the thread, and the application its `actx` points to. -/
structure Tctx where
  tid : Nat
  actx : Nat
deriving DecidableEq, Inhabited

structure FlowTuple where
  remoteIp : U32
  remotePort : U16
  localIp : U32
  localPort : U16
deriving DecidableEq, Inhabited

structure TcpConnection where
  type : TcpConnectionType
  tctx : Tctx
  listener : Option Nat
  reuseport : Bool
  opaqueConnection : U64
  fd : U32
  remoteIp : U32
  remotePort : U16
  localIp : U32
  localPort : U16
  rxBufSize : U32
  txBufSize : U32
  remoteSeq : U32
  localSeq : U32
  status : ConnectionStatus
  algorithm : CcAlgorithm
  ccIdx : U32
  -- MTP values shared with XDP (`bpf_cc` map)
  prevDesiredTxTs : U64
  rate : U32
  cntTxDrops : U16
  cntRxAcks : U16
  cntRxAckBytes : U32
  cntRxEcnBytes : U32
  rttEst : U32
  txp : U32
  -- values in the last iteration of the control loop
  ccLastTsc : U64
  ccLastRtt : U32
  ccLastDrops : U16
  ccLastAcks : U16
  ccLastAckb : U32
  ccLastEcnb : U32
  ccRate : U32
  ccRexmits : U32
  dctcpWnd : CcDctcpWnd
  cntTxPending : U32
  tsTxPending : U32
  qid : U32
  flags : U32
  ref : U32
deriving Inhabited

def TcpConnection.tuple (c : TcpConnection) : FlowTuple where
  remoteIp := c.remoteIp
  remotePort := c.remotePort
  localIp := c.localIp
  localPort := c.localPort

/-! ## Constants -/

def tcpRttInit : U32 := 50#32
def rexmitInts : U32 := 4#32
def tcpRtoMin : U32 := 4000#32
def uint32Max : U32 := 0xFFFFFFFF#32

def ccDctcpWeight : U32 := 268435455#32

def ccIntervalRtt : U64 := 2#64

def rttOrInit (rtt : U32) : U32 := if rtt = 0#32 then tcpRttInit else rtt

/-! ## The DCTCP window

`slows_congc_ep` and `dctcp_wnd_cc` run the same statements, the first on the
connection's copies of the counters, the second on the snapshot's. -/

structure CcSignals where
  drops : U16
  ackb : U32
  ecnb : U32
  rexmits : U32

/-- What it works on: the local `win`, `cc->slowstart`, `cc->ecn_rate` and the ECN counter. -/
structure WndState where
  win : U32
  slowstart : Bool
  ecnRate : U32
  ecnb : U32

def slowStart (g : CcSignals) (w : WndState) : WndState :=
  if w.slowstart then
    if g.drops = 0#16 ∧ w.ecnb = 0#32 ∧ g.rexmits = 0#32 then
      -- unless the sum overflows
      if w.win + g.ackb > w.win then { w with win := w.win + g.ackb } else w
    else { w with slowstart := false }
  else w

def ecnUpdate (g : CcSignals) (w : WndState) : WndState :=
  if g.ackb > 0#32 then
    let ecnb := if w.ecnb ≤ g.ackb then w.ecnb else g.ackb
    let ecnRate : U64 := ecnb.setWidth 64 * uint32Max.setWidth 64 / g.ackb.setWidth 64
    let ecnRate := ecnRate * ccDctcpWeight.setWidth 64
      + w.ecnRate.setWidth 64 * (uint32Max - ccDctcpWeight).setWidth 64
    { w with ecnb := ecnb, ecnRate := (ecnRate / uint32Max.setWidth 64).setWidth 32 }
  else w

def congestionAvoidance (g : CcSignals) (w : WndState) : Option WndState :=
  if w.slowstart then some w
  else if g.drops > 0#16 ∨ g.rexmits > 0#32 then some { w with win := w.win / 2#32 }
  else
    let w := ecnUpdate g w
    if w.ecnb > 0#32 then
      -- multiplicative decrease by half the ECN rate
      let scaled := w.win.setWidth 64 * (uint32Max - w.ecnRate / 2#32).setWidth 64
      some { w with win := (scaled / uint32Max.setWidth 64).setWidth 32 }
    else if w.win = 0#32 then none
    else
      -- additive increase
      let incr := g.ackb.setWidth 64 * 1448#64 / w.win.setWidth 64
      let grown := (w.win.setWidth 64 + incr).setWidth 32
      some (if grown > w.win then { w with win := grown } else w)

def clampWin (txBufSize win : U32) : U32 :=
  let win := if win < 1448#32 then 1448#32 else win
  if win > txBufSize then txBufSize else win

def wndStart (g : CcSignals) (cc : CcDctcpWnd) : WndState where
  win := cc.window
  slowstart := cc.slowstart
  ecnRate := cc.ecnRate
  ecnb := g.ecnb

def wndUpdate (g : CcSignals) (cc : CcDctcpWnd) (txBufSize : U32) : Option WndState :=
  if cc.window < 1448#32 then none
  else
    (congestionAvoidance g (slowStart g (wndStart g cc))).map
      fun w => { w with win := clampWin txBufSize w.win }

/-- `window_to_rate`. The divisions in `double` are exact, but for the truncation of the second. -/
def windowToRate (window rtt : U32) : Option U32 :=
  let time : U64 := window.setWidth 64 * 320#64 / 1000#64
  let bound : U64 := (rtt * 1000#32).setWidth 64
  let time := if time < bound then bound else time
  if time = 0#64 then none
  else
    let rate := window.setWidth 64 * 8000000#64 / time
    some (if rate > uint32Max.setWidth 64 then uint32Max else rate.setWidth 32)

/-- `kbps * 1e3 / 8` as a `uint32_t`, at most 25 Gbit/s. -/
def kbpsToBps (kbps : U32) : U32 :=
  let v : U32 := (kbps.setWidth 64 * 125#64).setWidth 32
  if v > 3125000000#32 then 3125000000#32 else v

/-! ## The MTP build -/

structure TimerEvent where
  currTsc : U64
deriving Inhabited

structure CcIntermOut where
  win : U32
  rtt : U32

/-- `mtp_snapshot_cc`: copies the map entry into the connection, and its event over `*ev`. -/
def mtpSnapshotCc (entry : BpfCc) (_ev : TimerEvent) (c : TcpConnection) :
    TimerEvent × TcpConnection :=
  (⟨entry.currTsc⟩,
   { c with
      cntTxDrops := entry.cntTxDrops
      cntRxAcks := entry.cntRxAcks
      cntRxAckBytes := entry.cntRxAckBytes
      cntRxEcnBytes := entry.cntRxEcnBytes
      txp := entry.txp
      rttEst := entry.rttEst
      rate := entry.rate
      prevDesiredTxTs := entry.prevDesiredTxTs })

def slowsCongcEp (c : TcpConnection) : Option (TcpConnection × CcIntermOut) :=
  let drops := c.cntTxDrops - c.ccLastDrops
  let ackb := c.cntRxAckBytes - c.ccLastAckb
  let ecnb := c.cntRxEcnBytes - c.ccLastEcnb
  let rtt := rttOrInit c.rttEst
  match wndUpdate ⟨drops, ackb, ecnb, c.ccRexmits⟩ c.dctcpWnd c.txBufSize with
  | none => none
  | some w =>
    some ({ c with
              ccLastDrops := c.cntTxDrops
              cntTxDrops := drops
              ccLastAckb := c.cntRxAckBytes
              cntRxAckBytes := ackb
              ccLastEcnb := c.cntRxEcnBytes
              cntRxEcnBytes := w.ecnb
              ccLastRtt := rtt
              dctcpWnd := { c.dctcpWnd with slowstart := w.slowstart, ecnRate := w.ecnRate }
              ccRexmits := 0#32 },
          { win := w.win, rtt := rtt })

def setTxRateEp (c : TcpConnection) (out : CcIntermOut) : Option (TcpConnection × U32) :=
  match windowToRate out.win out.rtt with
  | none => none
  | some rate =>
    some ({ c with ccRate := rate, dctcpWnd := { c.dctcpWnd with window := out.win } },
          kbpsToBps rate)

def rexmitTimeout (rttEst : U32) : U32 :=
  let ints := rexmitInts * rttOrInit rttEst
  if ints < tcpRtoMin then tcpRtoMin else ints

def ackTimeoutEp (toUs : U64 → U32) (ev : TimerEvent) (c : TcpConnection) :
    TcpConnection × Bool :=
  let curTs := toUs ev.currTsc
  if c.txp ≠ 0#32 ∧ c.cntRxAckBytes = 0#32 then
    let cnt := c.cntTxPending + 1#32
    if c.cntTxPending = 0#32 then
      ({ c with cntTxPending := cnt, tsTxPending := curTs }, false)
    else if cnt ≥ rexmitInts ∧ curTs - c.tsTxPending ≥ rexmitTimeout c.rttEst then
      ({ c with cntTxPending := 0#32, ccRexmits := c.ccRexmits + 1#32 }, true)
    else ({ c with cntTxPending := cnt }, false)
  else ({ c with cntTxPending := 0#32 }, false)

/-! ## The original build -/

structure BpfCcSnapshot where
  cDrops : U16
  cAcks : U16
  cAckb : U32
  cEcnb : U32
  txp : Bool
  rtt : U32

def snapshotCc (entry : BpfCc) : BpfCcSnapshot where
  cDrops := entry.cntTxDrops
  cAcks := entry.cntRxAcks
  cAckb := entry.cntRxAckBytes
  cEcnb := entry.cntRxEcnBytes
  txp := entry.txp != 0#32
  rtt := entry.rttEst

/-- The differences to the last iteration, inline in `poll_tcp_cc_to`. -/
def diffStats (c : TcpConnection) (stats : BpfCcSnapshot) : TcpConnection × BpfCcSnapshot :=
  ({ c with
      ccLastDrops := stats.cDrops
      ccLastAcks := stats.cAcks
      ccLastAckb := stats.cAckb
      ccLastEcnb := stats.cEcnb },
   { stats with
      cDrops := stats.cDrops - c.ccLastDrops
      cAcks := stats.cAcks - c.ccLastAcks
      cAckb := stats.cAckb - c.ccLastAckb
      cEcnb := stats.cEcnb - c.ccLastEcnb })

def dctcpWndCc (c : TcpConnection) (stats : BpfCcSnapshot) :
    Option (TcpConnection × BpfCcSnapshot) :=
  let rtt := rttOrInit stats.rtt
  match wndUpdate ⟨stats.cDrops, stats.cAckb, stats.cEcnb, c.ccRexmits⟩ c.dctcpWnd c.txBufSize with
  | none => none
  | some w =>
    match windowToRate w.win rtt with
    | none => none
    | some rate =>
      some ({ c with
                ccLastRtt := rtt
                ccRate := rate
                dctcpWnd := { slowstart := w.slowstart, ecnRate := w.ecnRate, window := w.win }
                ccRexmits := 0#32 },
            { stats with cEcnb := w.ecnb })

def setCcRate (newRate : U32) : U32 := kbpsToBps newRate

/-- `handle_retransmission`, and whether it calls `issue_retransmit`, which succeeds if `issueOk`.
    -/
def handleRetransmission (toUs : U64 → U32) (issueOk : Bool) (c : TcpConnection)
    (stats : BpfCcSnapshot) (currTsc : U64) : TcpConnection × Bool :=
  let curTs := toUs currTsc
  if stats.txp ∧ stats.cAckb = 0#32 then
    let cnt := c.cntTxPending + 1#32
    if c.cntTxPending = 0#32 then
      ({ c with cntTxPending := cnt, tsTxPending := curTs }, false)
    else if cnt ≥ rexmitInts ∧ curTs - c.tsTxPending ≥ rexmitTimeout stats.rtt then
      (if issueOk then { c with cntTxPending := 0#32, ccRexmits := c.ccRexmits + 1#32 }
       else { c with cntTxPending := cnt }, true)
    else ({ c with cntTxPending := cnt }, false)
  else ({ c with cntTxPending := 0#32 }, false)

/-! ## Which assertions can fail -/

theorem slowStart_win_le (g : CcSignals) (w : WndState) : w.win ≤ (slowStart g w).win := by
  unfold slowStart
  split_ifs with _ _ hgrow
  · exact BitVec.le_of_lt hgrow
  all_goals exact BitVec.le_refl _

theorem ecnUpdate_win (g : CcSignals) (w : WndState) : (ecnUpdate g w).win = w.win := by
  unfold ecnUpdate
  split_ifs <;> rfl

theorem congestionAvoidance_isSome (g : CcSignals) {w : WndState} (hw : w.win ≠ 0#32) :
    (congestionAvoidance g w).isSome := by
  unfold congestionAvoidance
  dsimp only
  rw [ecnUpdate_win]
  split_ifs <;> rfl

theorem wndUpdate_eq_none_iff (g : CcSignals) (cc : CcDctcpWnd) (txBufSize : U32) :
    wndUpdate g cc txBufSize = none ↔ cc.window < 1448#32 := by
  unfold wndUpdate
  split_ifs with hwin
  · simp [hwin]
  · -- slow start does not shrink the window, so it is not empty afterwards
    have hgrow : cc.window ≤ (slowStart g (wndStart g cc)).win :=
      slowStart_win_le g (wndStart g cc)
    have hne : (slowStart g (wndStart g cc)).win ≠ 0#32 := by
      intro h0
      bv_omega
    have hsome := congestionAvoidance_isSome g hne
    simp only [Option.map_eq_none_iff, hwin, iff_false]
    exact Option.isSome_iff_ne_none.mp hsome

theorem wndUpdate_win {g : CcSignals} {cc : CcDctcpWnd} {txBufSize : U32} {w : WndState}
    (h : wndUpdate g cc txBufSize = some w) : ∃ win, w.win = clampWin txBufSize win := by
  unfold wndUpdate at h
  split_ifs at h with hwin
  obtain ⟨w', _, rfl⟩ := Option.map_eq_some_iff.mp h
  exact ⟨w'.win, rfl⟩

theorem clampWin_le_three_iff (txBufSize win : U32) :
    clampWin txBufSize win ≤ 3#32 ↔ txBufSize ≤ 3#32 := by
  unfold clampWin
  dsimp only
  split_ifs <;> bv_omega

theorem windowToRate_eq_none_iff (window rtt : U32) :
    windowToRate window rtt = none ↔ window ≤ 3#32 ∧ rtt * 1000#32 = 0#32 := by
  have htime : window.setWidth 64 * 320#64 / 1000#64 = 0#64 ↔ window ≤ 3#32 := by
    rw [← BitVec.toNat_inj, BitVec.le_def]
    have hmul : (window.setWidth 64 * 320#64).toNat = window.toNat * 320 := by
      simp only [BitVec.toNat_mul, BitVec.toNat_setWidth, BitVec.toNat_ofNat]
      omega
    rw [BitVec.toNat_udiv, hmul]
    simp only [BitVec.toNat_ofNat, Nat.reducePow, Nat.reduceMod]
    omega
  have hbound : (rtt * 1000#32).setWidth 64 = 0#64 ↔ rtt * 1000#32 = 0#32 := by
    generalize rtt * 1000#32 = b
    rw [← BitVec.toNat_inj, ← BitVec.toNat_inj]
    simp only [BitVec.toNat_setWidth, BitVec.toNat_ofNat]
    omega
  unfold windowToRate
  dsimp only
  rw [← htime, ← hbound]
  generalize window.setWidth 64 * 320#64 / 1000#64 = time
  generalize (rtt * 1000#32).setWidth 64 = bound
  split_ifs with hlt h0 h0
  · bv_omega
  · simp only [false_iff]
    bv_omega
  · simp only [true_iff]
    exact ⟨h0, by bv_omega⟩
  · simp only [false_iff, not_and]
    exact fun h _ => h0 h

end MtpXdp.Control

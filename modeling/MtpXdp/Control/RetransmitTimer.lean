import MtpXdp.Core.Run
import MtpXdp.Control.CongestionControl

/-!
# The Retransmission Timer of the Control Poll

The two builds of `poll_tcp_cc_to`, in lockstep. The congestion control halves agree. The timers
read different clocks: `ack_timeout_ep` takes its time from the event, which `mtp_snapshot_cc` has
overwritten with the one in the map entry, `handle_retransmission` the cycle count of the poll.
-/

namespace MtpXdp.Control

open MtpXdp.Core Ebpf Option

variable {p : Poll} {toUs : U64 → U32} {s : Lockstep}

/-! ## Stall timers

A timer that counts the polls at which a flow with pending data has not moved,
remembers when it first saw that, and fires after enough polls and enough time. -/

structure StallTimer where
  cnt : U32
  ts : U32
  rexmits : U32
deriving DecidableEq

def StallTimer.tick (t : StallTimer) (stalled : Bool) (now timeout : U32) : StallTimer × Bool :=
  if stalled then
    if t.cnt = 0#32 then ({ t with cnt := t.cnt + 1#32, ts := now }, false)
    else if rexmitInts ≤ t.cnt + 1#32 ∧ timeout ≤ now - t.ts then
      ({ t with cnt := 0#32, rexmits := t.rexmits + 1#32 }, true)
    else ({ t with cnt := t.cnt + 1#32 }, false)
  else ({ t with cnt := 0#32 }, false)

def StallTimer.SameTick (t : StallTimer) (stalled : Bool) (timeout now now' : U32) : Prop :=
  stalled →
    (t.cnt = 0#32 → now = now') ∧
    (t.cnt ≠ 0#32 → rexmitInts ≤ t.cnt + 1#32 → (timeout ≤ now - t.ts ↔ timeout ≤ now' - t.ts))
deriving Decidable

theorem StallTimer.tick_eq_tick_iff (t : StallTimer) (stalled : Bool) (timeout now now' : U32) :
    t.tick stalled now timeout = t.tick stalled now' timeout ↔
      t.SameTick stalled timeout now now' := by
  unfold StallTimer.tick StallTimer.SameTick
  cases stalled with
  | false => simp
  | true =>
    by_cases h0 : t.cnt = 0#32
    · -- the first stalled poll stores the time itself
      simp [h0]
    · by_cases hints : rexmitInts ≤ t.cnt + 1#32
      · -- enough polls: the results differ exactly when one clock fires and the other does not
        by_cases hnow : timeout ≤ now - t.ts <;> by_cases hnow' : timeout ≤ now' - t.ts <;>
          simp [h0, hints, hnow, hnow']
      · simp [h0, hints]

/-! ## One poll -/

/-- A poll: the cycle count, the map entry at that moment, and whether `issue_retransmit` would
    succeed. -/
structure Poll where
  currTsc : U64
  entry : BpfCc
  issueOk : Bool

/-- The connection, whether `issue_retransmit` was called, and the rate in the map entry. -/
structure Polled where
  conn : TcpConnection
  issued : Bool
  rate : U32

def Due (toUs : U64 → U32) (c : TcpConnection) (p : Poll) : Prop :=
  ¬ (toUs (p.currTsc - c.ccLastTsc)).setWidth 64 < c.ccLastRtt.setWidth 64 * ccIntervalRtt
deriving Decidable

def mtpChain (toUs : U64 → U32) (c : TcpConnection) (p : Poll) : Option Polled :=
  -- the snapshot replaces the event just stamped with `curr_tsc` by the one in the map entry
  let (ev, c) := mtpSnapshotCc p.entry ⟨p.currTsc⟩ c
  match slowsCongcEp c with
  | none => none
  | some (c, out) =>
    match setTxRateEp c out with
    | none => none
    | some (c, rate) =>
      let (c, issued) := ackTimeoutEp toUs ev c
      some { conn := { c with ccLastTsc := p.currTsc }, issued := issued, rate := rate }

def originalChain (toUs : U64 → U32) (c : TcpConnection) (p : Poll) : Option Polled :=
  let (c, stats) := diffStats c (snapshotCc p.entry)
  match dctcpWndCc c stats with
  | none => none
  | some (c, stats) =>
    let rate := setCcRate c.ccRate
    let (c, issued) := handleRetransmission toUs p.issueOk c stats p.currTsc
    some { conn := { c with ccLastTsc := p.currTsc }, issued := issued, rate := rate }

/-- An iteration of the loop in `poll_tcp_cc_to` for an open connection, around either chain. -/
def pollWith (chain : TcpConnection → Poll → Option Polled) (toUs : U64 → U32)
    (c : TcpConnection) (p : Poll) : Option Polled :=
  if Due toUs c p then chain c p
  else some { conn := c, issued := false, rate := p.entry.rate }

def pollMtp (toUs : U64 → U32) : TcpConnection → Poll → Option Polled :=
  pollWith (mtpChain toUs) toUs

def pollOriginal (toUs : U64 → U32) : TcpConnection → Poll → Option Polled :=
  pollWith (originalChain toUs) toUs

/-! ## The poll on the fields it reads

The abstract poll: congestion control and a stall timer that is told the time.
Both builds implement it; they differ in the time they tell it. -/

structure ControlView where
  ccLastTsc : U64
  ccLastRtt : U32
  ccLastDrops : U16
  ccLastAckb : U32
  ccLastEcnb : U32
  ccRate : U32
  dctcpWnd : CcDctcpWnd
  txBufSize : U32
  timer : StallTimer

def TcpConnection.timer (c : TcpConnection) : StallTimer where
  cnt := c.cntTxPending
  ts := c.tsTxPending
  rexmits := c.ccRexmits

def TcpConnection.setTimer (c : TcpConnection) (t : StallTimer) : TcpConnection :=
  { c with cntTxPending := t.cnt, tsTxPending := t.ts, ccRexmits := t.rexmits }

def TcpConnection.control (c : TcpConnection) : ControlView where
  ccLastTsc := c.ccLastTsc
  ccLastRtt := c.ccLastRtt
  ccLastDrops := c.ccLastDrops
  ccLastAckb := c.ccLastAckb
  ccLastEcnb := c.ccLastEcnb
  ccRate := c.ccRate
  dctcpWnd := c.dctcpWnd
  txBufSize := c.txBufSize
  timer := c.timer

structure PolledView where
  control : ControlView
  issued : Bool
  rate : U32

def Polled.view (q : Polled) : PolledView where
  control := q.conn.control
  issued := q.issued
  rate := q.rate

def stalled (v : ControlView) (p : Poll) : Bool :=
  p.entry.txp != 0#32 && p.entry.cntRxAckBytes - v.ccLastAckb == 0#32

def signals (v : ControlView) (p : Poll) : CcSignals where
  drops := p.entry.cntTxDrops - v.ccLastDrops
  ackb := p.entry.cntRxAckBytes - v.ccLastAckb
  ecnb := p.entry.cntRxEcnBytes - v.ccLastEcnb
  rexmits := v.timer.rexmits

def timerTick (now : U32) (v : ControlView) (p : Poll) : StallTimer × Bool :=
  { v.timer with rexmits := 0#32 }.tick (stalled v p) now (rexmitTimeout p.entry.rttEst)

def controlPoll (now : U32) (v : ControlView) (p : Poll) : Option PolledView :=
  match wndUpdate (signals v p) v.dctcpWnd v.txBufSize with
  | none => none
  | some w =>
    match windowToRate w.win (rttOrInit p.entry.rttEst) with
    | none => none
    | some rate =>
      let wnd : CcDctcpWnd := { slowstart := w.slowstart, ecnRate := w.ecnRate, window := w.win }
      some
        { control :=
            { ccLastTsc := p.currTsc
              ccLastRtt := rttOrInit p.entry.rttEst
              ccLastDrops := p.entry.cntTxDrops
              ccLastAckb := p.entry.cntRxAckBytes
              ccLastEcnb := p.entry.cntRxEcnBytes
              ccRate := rate
              dctcpWnd := wnd
              txBufSize := v.txBufSize
              timer := (timerTick now v p).1 }
          issued := (timerTick now v p).2
          rate := kbpsToBps rate }

/-! ### Both builds implement it -/

theorem ackTimeoutEp_eq_tick (toUs : U64 → U32) (ev : TimerEvent) (c : TcpConnection) :
    ackTimeoutEp toUs ev c =
      let r := c.timer.tick (c.txp != 0#32 && c.cntRxAckBytes == 0#32) (toUs ev.currTsc)
        (rexmitTimeout c.rttEst)
      (c.setTimer r.1, r.2) := by
  unfold ackTimeoutEp StallTimer.tick
  simp only [Bool.and_eq_true, bne_iff_ne, beq_iff_eq, ge_iff_le]
  split_ifs <;> first | rfl | contradiction

section

variable (toUs : U64 → U32) (c : TcpConnection)

theorem handleRetransmission_eq_tick
    (stats : BpfCcSnapshot) (currTsc : U64) :
    handleRetransmission toUs true c stats currTsc =
      let r := c.timer.tick (stats.txp && stats.cAckb == 0#32) (toUs currTsc)
        (rexmitTimeout stats.rtt)
      (c.setTimer r.1, r.2) := by
  unfold handleRetransmission StallTimer.tick
  simp only [Bool.and_eq_true, beq_iff_eq, ge_iff_le]
  split_ifs <;> first | rfl | contradiction

theorem mtpChain_view (p : Poll) :
    (mtpChain toUs c p).map Polled.view = controlPoll (toUs p.entry.currTsc) c.control p := by
  unfold mtpChain controlPoll slowsCongcEp setTxRateEp
  simp only [mtpSnapshotCc, signals, TcpConnection.control, TcpConnection.timer]
  cases wndUpdate _ c.dctcpWnd c.txBufSize with
  | none => rfl
  | some w =>
    simp only [ackTimeoutEp_eq_tick]
    cases windowToRate w.win _ with
    | none => rfl
    | some rate => rfl

theorem originalChain_view (p : Poll) (hissue : p.issueOk = true) :
    (originalChain toUs c p).map Polled.view = controlPoll (toUs p.currTsc) c.control p := by
  unfold originalChain controlPoll dctcpWndCc
  simp only [snapshotCc, diffStats, signals, TcpConnection.control,
    TcpConnection.timer, hissue]
  cases wndUpdate _ c.dctcpWnd c.txBufSize with
  | none => rfl
  | some w =>
    simp only [handleRetransmission_eq_tick]
    cases windowToRate w.win _ with
    | none => rfl
    | some rate => rfl

end

/-! ## When the clock matters -/

/-- An assertion of the chain fails: the window is below one segment, or the time to send a window
    is zero. -/
def Aborts (c : TcpConnection) (p : Poll) : Prop :=
  c.dctcpWnd.window < 1448#32 ∨
    c.txBufSize ≤ 3#32 ∧ rttOrInit p.entry.rttEst * 1000#32 = 0#32
deriving Decidable

theorem controlPoll_eq_none_iff (now : U32) (c : TcpConnection) (p : Poll) :
    controlPoll now c.control p = none ↔ Aborts c p := by
  unfold controlPoll Aborts
  have hwnd := wndUpdate_eq_none_iff (signals c.control p) c.dctcpWnd c.txBufSize
  cases hw : wndUpdate (signals c.control p) c.control.dctcpWnd c.control.txBufSize with
  | none => exact iff_of_true rfl (.inl (hwnd.mp hw))
  | some w =>
    -- the first assertion held; the second can only fail through the clamp to `tx_buf_size`
    have hwin : ¬ c.dctcpWnd.window < 1448#32 := by
      intro hlt
      rw [show wndUpdate _ c.dctcpWnd c.txBufSize = some w from hw] at hwnd
      exact absurd (hwnd.mpr hlt) (by simp)
    obtain ⟨win, hclamp⟩ := wndUpdate_win hw
    have hrate := windowToRate_eq_none_iff w.win (rttOrInit p.entry.rttEst)
    rw [hclamp, clampWin_le_three_iff, ← hclamp] at hrate
    simp only [hwin, false_or]
    cases hr : windowToRate w.win (rttOrInit p.entry.rttEst) with
    | none => exact iff_of_true rfl (hrate.mp hr)
    | some rate =>
      rw [hr] at hrate
      exact iff_of_false (by simp) (fun h => absurd (hrate.mpr h) (by simp))

/-- The calls of `issue_retransmit`, and `cnt_tx_pending`, `ts_tx_pending` and `cc_rexmits`. -/
def PolledView.obs (r : PolledView) : Bool × StallTimer := (r.issued, r.control.timer)

theorem controlPoll_eq_of_tick {now now' : U32} {v : ControlView}
    (h : timerTick now v p = timerTick now' v p) : controlPoll now v p = controlPoll now' v p := by
  unfold controlPoll
  rw [h]

theorem tick_of_controlPoll_obs {now now' : U32} {v : ControlView}
    (hsome : controlPoll now v p ≠ none)
    (h : (controlPoll now v p).map PolledView.obs = (controlPoll now' v p).map PolledView.obs) :
    timerTick now v p = timerTick now' v p := by
  unfold controlPoll at h hsome
  cases hw : wndUpdate (signals v p) v.dctcpWnd v.txBufSize with
  | none => simp [hw] at hsome
  | some w =>
    cases hr : windowToRate w.win (rttOrInit p.entry.rttEst) with
    | none => simp [hw, hr] at hsome
    | some rate =>
      simp only [hw, hr, map_some, PolledView.obs, some.injEq, Prod.mk.injEq] at h
      exact Prod.ext h.2 h.1

/-! ## The two builds in lockstep -/

structure Lockstep where
  mtp : Option Polled
  original : Option Polled

def lockstep (toUs : U64 → U32) (s : Lockstep) (p : Poll) : Lockstep where
  mtp := s.mtp.bind fun q => pollMtp toUs q.conn p
  original := s.original.bind fun q => pollOriginal toUs q.conn p

def Lockstep.start (c : TcpConnection) : Lockstep where
  mtp := some { conn := c, issued := false, rate := 0#32 }
  original := some { conn := c, issued := false, rate := 0#32 }

def Agree (s : Lockstep) : Prop :=
  s.mtp.map (fun q => (q.issued, q.conn.timer)) = s.original.map (fun q => (q.issued, q.conn.timer))
deriving Decidable

/-- If the poll gets as far as the timer, the stored cycle count tells it the same as the poll's
    own. -/
def ClockOk (toUs : U64 → U32) (s : Lockstep) (p : Poll) : Prop :=
  match s.mtp with
  | none => True
  | some q =>
    Due toUs q.conn p → ¬ Aborts q.conn p →
      q.conn.timer.SameTick (stalled q.conn.control p) (rexmitTimeout p.entry.rttEst)
        (toUs p.entry.currTsc) (toUs p.currTsc)

instance (toUs : U64 → U32) : (s : Lockstep) → (p : Poll) → Decidable (ClockOk toUs s p)
  | ⟨none, _⟩, _ => .isTrue trivial
  | ⟨some q, _⟩, p => inferInstanceAs (Decidable (Due toUs q.conn p → ¬ Aborts q.conn p → _))

/-! ### One poll of both -/

def idleView (v : ControlView) (p : Poll) : PolledView where
  control := v
  issued := false
  rate := p.entry.rate

theorem pollMtp_view (toUs : U64 → U32) (c : TcpConnection) (p : Poll) :
    (pollMtp toUs c p).map Polled.view =
      if Due toUs c p then controlPoll (toUs p.entry.currTsc) c.control p
      else some (idleView c.control p) := by
  unfold pollMtp pollWith
  split_ifs
  · exact mtpChain_view toUs c p
  · rfl

theorem pollOriginal_view (toUs : U64 → U32) (c : TcpConnection) (p : Poll)
    (hissue : p.issueOk = true) : (pollOriginal toUs c p).map Polled.view =
      if Due toUs c p then controlPoll (toUs p.currTsc) c.control p
      else some (idleView c.control p) := by
  unfold pollOriginal pollWith
  split_ifs
  · exact originalChain_view toUs c p hissue
  · rfl

theorem due_congr {c c' : TcpConnection}
    (h : c.control = c'.control) : Due toUs c p ↔ Due toUs c' p := by
  have htsc : c.ccLastTsc = c'.ccLastTsc := congrArg ControlView.ccLastTsc h
  have hrtt : c.ccLastRtt = c'.ccLastRtt := congrArg ControlView.ccLastRtt h
  unfold Due
  rw [htsc, hrtt]

def SameControl (s : Lockstep) : Prop := s.mtp.map Polled.view = s.original.map Polled.view

theorem SameControl.agree (h : SameControl s) : Agree s := by
  have hobs := congrArg (Option.map PolledView.obs) h
  rw [map_map, map_map] at hobs
  exact hobs

theorem SameControl.cases (h : SameControl s) : (s.mtp = none ∧ s.original = none) ∨
      ∃ q q', s.mtp = some q ∧ s.original = some q' ∧ q.conn.control = q'.conn.control := by
  unfold SameControl at h
  cases hm : s.mtp with
  | none =>
    left
    refine ⟨rfl, ?_⟩
    rw [hm] at h
    exact map_eq_none_iff.mp h.symm
  | some q =>
    right
    rw [hm] at h
    obtain ⟨q', hq', hview⟩ := map_eq_some_iff.mp h.symm
    exact ⟨q, q', rfl, hq', (congrArg PolledView.control hview).symm⟩

theorem timerTick_eq_iff (c : TcpConnection) (p : Poll) (now now' : U32) :
    timerTick now c.control p = timerTick now' c.control p ↔
      c.timer.SameTick (stalled c.control p) (rexmitTimeout p.entry.rttEst) now now' :=
  StallTimer.tick_eq_tick_iff { c.timer with rexmits := 0#32 } _ _ now now'

theorem sameControl_lockstep (hs : SameControl s)
    (hissue : p.issueOk = true) (hclock : ClockOk toUs s p) : SameControl (lockstep toUs s p) := by
  rcases hs.cases with ⟨hm, ho⟩ | ⟨q, q', hm, ho, hctl⟩
  · simp [SameControl, lockstep, hm, ho]
  · simp only [SameControl, lockstep, hm, ho, bind_some]
    rw [pollMtp_view, pollOriginal_view _ _ _ hissue, ← hctl]
    simp only [ClockOk, hm] at hclock
    by_cases hdue : Due toUs q.conn p
    · rw [if_pos hdue, if_pos ((due_congr hctl).mp hdue)]
      by_cases habort : Aborts q.conn p
      · -- both builds stop at the same assertion, whatever the clock
        rw [(controlPoll_eq_none_iff _ _ _).mpr habort, (controlPoll_eq_none_iff _ _ _).mpr habort]
      · exact controlPoll_eq_of_tick ((timerTick_eq_iff _ _ _ _).mpr (hclock hdue habort))
    · rw [if_neg hdue, if_neg (fun h => hdue ((due_congr hctl).mpr h))]

theorem clockOk_of_agree (hs : SameControl s)
    (hissue : p.issueOk = true) (h : Agree (lockstep toUs s p)) : ClockOk toUs s p := by
  rcases hs.cases with ⟨hm, ho⟩ | ⟨q, q', hm, ho, hctl⟩
  · simp [ClockOk, hm]
  · simp only [ClockOk, hm]
    intro hdue habort
    -- agreement is on the observation only; the timer's result can be read off it
    have hview : ((pollMtp toUs q.conn p).map Polled.view).map PolledView.obs =
        ((pollOriginal toUs q'.conn p).map Polled.view).map PolledView.obs := by
      rw [map_map, map_map]
      simp only [Agree, lockstep, hm, ho, bind_some] at h
      exact h
    rw [pollMtp_view, pollOriginal_view _ _ _ hissue, ← hctl, if_pos hdue,
      if_pos ((due_congr hctl).mp hdue)] at hview
    have hsome : controlPoll (toUs p.entry.currTsc) q.conn.control p ≠ none :=
      fun h0 => habort ((controlPoll_eq_none_iff _ _ _).mp h0)
    exact (timerTick_eq_iff _ _ _ _).mp (tick_of_controlPoll_obs hsome hview)

/-! ### Whole runs -/

/-- **The MTP timer refines the original one** exactly on the runs whose clocks it cannot tell
    apart. -/
theorem lockstep_agree_iff (toUs : U64 → U32) (c : TcpConnection) (polls : List Poll)
    (hissue : ∀ p ∈ polls, p.issueOk = true) :
    Always (lockstep toUs) Agree (.start c) polls ↔
      Meets (lockstep toUs) (ClockOk toUs) (.start c) polls := by
  -- the invariant compares all fields a poll reads, not only those of the observation
  have hstart : SameControl (.start c) := rfl
  exact always_iff_meets (fun s p hs hp hclock => sameControl_lockstep hs hp hclock)
    (fun s p hs hp h => clockOk_of_agree hs hp h) (fun s hs => hs.agree) hstart
    (meets_of_forall_mem hissue)

def cyclesToUs2GHz (cycles : U64) : U32 := (cycles / 2000#64).setWidth 32

/-- An open connection as `reg_tcp_conn_ebpf` leaves it, in slow start with two segments. -/
def freshConn : TcpConnection :=
  { (default : TcpConnection) with
    txBufSize := 524288#32
    status := .open
    algorithm := .dctcpWnd
    ccLastRtt := tcpRttInit
    dctcpWnd := { ecnRate := 0#32, window := 2896#32, slowstart := true } }

/-- A poll with unsent data and `acked` bytes acknowledged; the stored event was never written. -/
def pollAt (us : U64) (acked : U32) : Poll where
  currTsc := us * 2000#64
  entry := { (default : BpfCc) with txp := 1#32, cntRxAckBytes := acked }
  issueOk := true

theorem lockstep_agree_iff_at :
    Always (lockstep cyclesToUs2GHz) Agree (.start { freshConn with cntTxPending := 1#32 })
      [pollAt 1000000#64 0#32, pollAt 1002000#64 1448#32, pollAt 1004000#64 2896#32] :=
  (lockstep_agree_iff cyclesToUs2GHz { freshConn with cntTxPending := 1#32 }
    [pollAt 1000000#64 0#32, pollAt 1002000#64 1448#32, pollAt 1004000#64 2896#32]
    (by decide)).mpr (by decide)

/-- Four polls without progress: the original build retransmits at the fourth, the MTP build
    measures no time between them. -/
theorem retransmission_missed :
    ¬ Always (lockstep cyclesToUs2GHz) Agree (.start freshConn)
        [pollAt 1000000#64 0#32, pollAt 1002000#64 0#32, pollAt 1004000#64 0#32,
          pollAt 1006000#64 0#32] ∧
      ((run (lockstep cyclesToUs2GHz) (.start freshConn)
        [pollAt 1000000#64 0#32, pollAt 1002000#64 0#32, pollAt 1004000#64 0#32,
          pollAt 1006000#64 0#32]).mtp.map Polled.issued = some false) ∧
      ((run (lockstep cyclesToUs2GHz) (.start freshConn)
        [pollAt 1000000#64 0#32, pollAt 1002000#64 0#32, pollAt 1004000#64 0#32,
          pollAt 1006000#64 0#32]).original.map Polled.issued = some true) := by
  refine ⟨fun h => ?_, by decide, by decide⟩
  exact absurd h.2.head (by decide)

end MtpXdp.Control

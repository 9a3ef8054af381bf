import MtpXdp.Core.Run
import MtpXdp.Control.CongestionControl

/-!
# Both Builds Run DCTCP

The MTP build keeps the counters of the map entry in the connection and splits the work into event
processors, the original build works on a snapshot. Both refine one abstract DCTCP, so that polls
with the same inputs leave the same results.

The window stays between one segment and the send buffer, the ECN rate in 32 bits, every 64-bit
intermediate below `2 ^ 64`, the rate as the formula gives it. The intermediates are over `Nat`, as
the source's expressions without their machine widths.
-/

namespace MtpXdp.Control

open MtpXdp.Core Ebpf Option

/-! ## The inputs and results of a poll -/

structure CcInput where
  entry : BpfCc
  rexmits : U32

/-- What a poll leaves: window, `ecn_rate` and slow-start flag, `cc_last_rtt`, `cc_rate`,
    `cc_rexmits` and the rate in the map entry. -/
structure CcResult where
  wnd : CcDctcpWnd
  ccLastRtt : U32
  ccRate : U32
  ccRexmits : U32
  mapRate : U32

def CcResult.of (q : TcpConnection × U32) : CcResult where
  wnd := q.1.dctcpWnd
  ccLastRtt := q.1.ccLastRtt
  ccRate := q.1.ccRate
  ccRexmits := q.1.ccRexmits
  mapRate := q.2

/-! ## The abstract algorithm -/

/-- The window, the counters of the last poll, and the send buffer that bounds the window. -/
structure Dctcp where
  wnd : CcDctcpWnd
  lastDrops : U16
  lastAckb : U32
  lastEcnb : U32
  txBufSize : U32

def Dctcp.signals (d : Dctcp) (i : CcInput) : CcSignals where
  drops := i.entry.cntTxDrops - d.lastDrops
  ackb := i.entry.cntRxAckBytes - d.lastAckb
  ecnb := i.entry.cntRxEcnBytes - d.lastEcnb
  rexmits := i.rexmits

def Dctcp.polled (d : Dctcp) (i : CcInput) (w : WndState) (rate : U32) : Dctcp × CcResult :=
  let wnd : CcDctcpWnd := { window := w.win, ecnRate := w.ecnRate, slowstart := w.slowstart }
  ({ d with
     wnd := wnd
     lastDrops := i.entry.cntTxDrops
     lastAckb := i.entry.cntRxAckBytes
     lastEcnb := i.entry.cntRxEcnBytes },
   { wnd := wnd
     ccLastRtt := rttOrInit i.entry.rttEst
     ccRate := rate
     ccRexmits := 0#32
     mapRate := kbpsToBps rate })

def Dctcp.poll (d : Dctcp) (i : CcInput) : Option (Dctcp × CcResult) := do
  let w ← wndUpdate (d.signals i) d.wnd d.txBufSize
  let rate ← windowToRate w.win (rttOrInit i.entry.rttEst)
  return d.polled i w rate

theorem Dctcp.poll_of_some {d : Dctcp} {i : CcInput} {w : WndState} {rate : U32}
    (hw : wndUpdate (d.signals i) d.wnd d.txBufSize = some w)
    (hrate : windowToRate w.win (rttOrInit i.entry.rttEst) = some rate) :
    d.poll i = some (d.polled i w rate) := by
  simp [Dctcp.poll, hw, hrate]

def TcpConnection.dctcp (c : TcpConnection) : Dctcp where
  wnd := c.dctcpWnd
  lastDrops := c.ccLastDrops
  lastAckb := c.ccLastAckb
  lastEcnb := c.ccLastEcnb
  txBufSize := c.txBufSize

/-! ## The two builds -/

/-- A poll of the MTP build and the rate it writes; `none` when an assertion fails. -/
def mtpPoll (c : TcpConnection) (i : CcInput) : Option (TcpConnection × U32) :=
  let (_, c) := mtpSnapshotCc i.entry default { c with ccRexmits := i.rexmits }
  match slowsCongcEp c with
  | none => none
  | some (c, out) => setTxRateEp c out

def originalPoll (c : TcpConnection) (i : CcInput) : Option (TcpConnection × U32) :=
  let (c, stats) := diffStats { c with ccRexmits := i.rexmits } (snapshotCc i.entry)
  match dctcpWndCc c stats with
  | none => none
  | some (c, _) => some (c, setCcRate c.ccRate)

def abstractly (q : TcpConnection × U32) : Dctcp × CcResult := (q.1.dctcp, .of q)

theorem mtpPoll_refines (c : TcpConnection) (i : CcInput) :
    (mtpPoll c i).map abstractly = c.dctcp.poll i := by
  unfold mtpPoll Dctcp.poll slowsCongcEp setTxRateEp
  simp only [mtpSnapshotCc, Dctcp.signals, TcpConnection.dctcp]
  cases wndUpdate _ c.dctcpWnd c.txBufSize with
  | none => rfl
  | some w =>
    simp only [bind_eq_bind, bind_some]
    cases windowToRate w.win (rttOrInit i.entry.rttEst) with
    | none => rfl
    | some rate => rfl

theorem originalPoll_refines (c : TcpConnection) (i : CcInput) :
    (originalPoll c i).map abstractly = c.dctcp.poll i := by
  unfold originalPoll Dctcp.poll dctcpWndCc
  simp only [snapshotCc, diffStats, Dctcp.signals, TcpConnection.dctcp]
  cases wndUpdate _ c.dctcpWnd c.txBufSize with
  | none => rfl
  | some w =>
    simp only [bind_eq_bind, bind_some]
    cases windowToRate w.win (rttOrInit i.entry.rttEst) with
    | none => rfl
    | some rate => rfl

/-! ## The two builds on the same polls -/

structure CcPair where
  mtp : Option (TcpConnection × U32)
  original : Option (TcpConnection × U32)

def CcPair.start (c : TcpConnection) (rate : U32) : CcPair where
  mtp := some (c, rate)
  original := some (c, rate)

def pairStep (s : CcPair) (i : CcInput) : CcPair where
  mtp := s.mtp.bind fun q => mtpPoll q.1 i
  original := s.original.bind fun q => originalPoll q.1 i

def SameResults (s : CcPair) : Prop := s.mtp.map CcResult.of = s.original.map CcResult.of

def SameAbstractly (s : CcPair) : Prop := s.mtp.map abstractly = s.original.map abstractly

theorem SameAbstractly.results {s : CcPair} (h : SameAbstractly s) : SameResults s := by
  have hresult := congrArg (Option.map Prod.snd) h
  rw [map_map, map_map] at hresult
  exact hresult

theorem SameAbstractly.step {s : CcPair} (h : SameAbstractly s) (i : CcInput) :
    SameAbstractly (pairStep s i) := by
  unfold SameAbstractly at h ⊢
  cases hm : s.mtp with
  | none =>
    -- both have failed an assertion, and stay where they are
    rw [hm] at h
    have ho : s.original = none := map_eq_none_iff.mp h.symm
    simp [pairStep, hm, ho]
  | some q =>
    rw [hm] at h
    obtain ⟨q', ho, habs⟩ := map_eq_some_iff.mp h.symm
    -- the connections may differ in fields that the algorithm does not have
    have hstate : q'.1.dctcp = q.1.dctcp := congrArg Prod.fst habs
    simp only [pairStep, hm, ho, bind_some]
    rw [mtpPoll_refines, originalPoll_refines, hstate]

/-! ## Assertions -/

theorem le_clampWin {txBufSize : U32} (h : 1448#32 ≤ txBufSize) (win : U32) :
    1448#32 ≤ clampWin txBufSize win := by
  unfold clampWin
  dsimp only
  split_ifs <;> bv_omega

def Dctcp.Usable (d : Dctcp) : Prop := 1448#32 ≤ d.wnd.window ∧ 1448#32 ≤ d.txBufSize

theorem clampWin_le (txBufSize win : U32) : clampWin txBufSize win ≤ txBufSize := by
  unfold clampWin
  dsimp only
  split_ifs <;> bv_omega

theorem Dctcp.Usable.wndUpdate {d : Dctcp} (h : d.Usable) (i : CcInput) :
    ∃ w, wndUpdate (d.signals i) d.wnd d.txBufSize = some w ∧
      1448#32 ≤ w.win ∧ w.win ≤ d.txBufSize := by
  obtain ⟨w, hw⟩ : ∃ w, Control.wndUpdate (d.signals i) d.wnd d.txBufSize = some w := by
    apply ne_none_iff_exists'.mp
    rw [ne_eq, wndUpdate_eq_none_iff, BitVec.not_lt]
    exact h.1
  obtain ⟨win, hclamp⟩ := wndUpdate_win hw
  exact ⟨w, hw, hclamp ▸ le_clampWin h.2 win, hclamp ▸ clampWin_le d.txBufSize win⟩

theorem Dctcp.Usable.poll {d : Dctcp} (h : d.Usable) (i : CcInput) :
    ∃ d' r, d.poll i = some (d', r) ∧ d'.Usable := by
  obtain ⟨w, hw, hlo, -⟩ := h.wndUpdate i
  obtain ⟨rate, hrate⟩ : ∃ rate, windowToRate w.win (rttOrInit i.entry.rttEst) = some rate := by
    apply ne_none_iff_exists'.mp
    rw [ne_eq, windowToRate_eq_none_iff]
    intro hsmall
    bv_omega
  exact ⟨_, _, Dctcp.poll_of_some hw hrate, hlo, h.2⟩

def RunsUsable (s : CcPair) : Prop := ∃ q, s.mtp = some q ∧ q.1.dctcp.Usable

theorem RunsUsable.step {s : CcPair} (h : RunsUsable s) (i : CcInput) :
    RunsUsable (pairStep s i) := by
  obtain ⟨q, hq, huse⟩ := h
  obtain ⟨d', r, hpoll, huse'⟩ := huse.poll i
  rw [← mtpPoll_refines] at hpoll
  obtain ⟨q', hq', habs⟩ := map_eq_some_iff.mp hpoll
  refine ⟨q', by simp [pairStep, hq, hq'], ?_⟩
  rw [show q'.1.dctcp = d' from congrArg Prod.fst habs]
  exact huse'

/-! ## Runs -/

/-- **The builds agree after every poll**; and with a send buffer of a segment or more no assertion
    ends the run. -/
theorem sameResults_always {c : TcpConnection} (hwin : 1448#32 ≤ c.dctcpWnd.window) (rate : U32)
    (is : List CcInput) :
    Always pairStep SameResults (CcPair.start c rate) is ∧
      (1448#32 ≤ c.txBufSize →
        Always pairStep (fun s => s.mtp.isSome) (CcPair.start c rate) is) := by
  constructor
  · have hsame : Always pairStep SameAbstractly (CcPair.start c rate) is :=
      always_of_meets (fun _ i h _ => h.step i) rfl meets_true
    exact hsame.mono fun _ h => h.results
  · intro hbuf
    have huse : Always pairStep RunsUsable (CcPair.start c rate) is :=
      always_of_meets (fun _ i h _ => h.step i) ⟨_, rfl, hwin, hbuf⟩ meets_true
    refine huse.mono ?_
    rintro s ⟨q, hq, -⟩
    rw [hq]
    rfl

theorem sameResults_always_at :
    Always pairStep SameResults
      (CcPair.start { (default : TcpConnection) with
        txBufSize := 65536#32
        dctcpWnd := { window := 2896#32, ecnRate := 0#32, slowstart := true } } 0#32)
      [{ entry := { (default : BpfCc) with cntRxAckBytes := 1000#32, cntRxEcnBytes := 1000#32 }
         rexmits := 0#32 },
       { entry := { (default : BpfCc) with cntRxAckBytes := 3000#32, cntRxEcnBytes := 1000#32 }
         rexmits := 1#32 }] :=
  (sameResults_always (by decide) 0#32 _).1

open BitVec Nat

/-! ## Products of 32-bit values -/

theorem toNat_mul_wide (a b : U32) : (a.setWidth 64 * b.setWidth 64).toNat = a.toNat * b.toNat := by
  have hlt : a.toNat * b.toNat < 2 ^ 64 := by
    calc a.toNat * b.toNat < 2 ^ 32 * 2 ^ 32 := mul_lt_mul'' a.isLt b.isLt
      _ = 2 ^ 64 := by decide
  rw [toNat_mul, toNat_setWidth_of_le (by decide),
    toNat_setWidth_of_le (by decide), mod_eq_of_lt hlt]

theorem toNat_uint32Max : uint32Max.toNat = 4294967295 := rfl

theorem toNat_ccDctcpWeight : ccDctcpWeight.toNat = 268435455 := rfl

/-! ## The ECN rate -/

def ecnShare (g : CcSignals) (w : WndState) : Nat :=
  min w.ecnb.toNat g.ackb.toNat * uint32Max.toNat / g.ackb.toNat

def ecnWeighted (g : CcSignals) (w : WndState) : Nat :=
  ecnShare g w * ccDctcpWeight.toNat + w.ecnRate.toNat * (uint32Max.toNat - ccDctcpWeight.toNat)

def ecnEwma (g : CcSignals) (w : WndState) : Nat := ecnWeighted g w / uint32Max.toNat

theorem ecnShare_le (g : CcSignals) (w : WndState) : ecnShare g w ≤ uint32Max.toNat := by
  have hmin : min w.ecnb.toNat g.ackb.toNat ≤ g.ackb.toNat := Nat.min_le_right _ _
  calc ecnShare g w ≤ g.ackb.toNat * uint32Max.toNat / g.ackb.toNat :=
        Nat.div_le_div_right (Nat.mul_le_mul_right _ hmin)
    _ ≤ uint32Max.toNat := by
        rw [Nat.mul_comm]
        exact Nat.div_le_of_le_mul (Nat.le_of_eq (Nat.mul_comm _ _))

theorem ecnWeighted_le (g : CcSignals) (w : WndState) :
    ecnWeighted g w ≤ uint32Max.toNat * uint32Max.toNat := by
  have hshare := ecnShare_le g w
  have hold : w.ecnRate.toNat ≤ uint32Max.toNat := le_of_lt_succ w.ecnRate.isLt
  have hmax := toNat_uint32Max
  have hweight := toNat_ccDctcpWeight
  rw [ecnWeighted]
  rw [hmax] at hshare hold ⊢
  rw [hweight]
  omega

theorem ecnEwma_le (g : CcSignals) (w : WndState) : ecnEwma g w ≤ uint32Max.toNat := by
  have hle := ecnWeighted_le g w
  have hmax := toNat_uint32Max
  rw [ecnEwma]
  rw [hmax] at hle ⊢
  omega

theorem ecnUpdate_ecnRate {g : CcSignals} (hack : g.ackb > 0#32) (w : WndState) :
    (ecnUpdate g w).ecnRate.toNat = ecnEwma g w := by
  have hmin : (if w.ecnb ≤ g.ackb then w.ecnb else g.ackb).toNat =
      min w.ecnb.toNat g.ackb.toNat := by
    split_ifs with hle
    · exact (min_eq_left hle).symm
    · exact (Nat.min_eq_right (le_of_lt (BitVec.not_le.mp hle))).symm
  have hshare : ((if w.ecnb ≤ g.ackb then w.ecnb else g.ackb).setWidth 64 *
      uint32Max.setWidth 64 / g.ackb.setWidth 64).toNat = ecnShare g w := by
    rw [toNat_udiv, toNat_mul_wide, hmin, toNat_setWidth_of_le (by decide), ecnShare]
  have hle := ecnShare_le g w
  have hmax := toNat_uint32Max
  have hweight := toNat_ccDctcpWeight
  -- neither of the weighted terms wraps, nor does their sum
  have hold : (w.ecnRate.setWidth 64 * (uint32Max - ccDctcpWeight).setWidth 64).toNat =
      w.ecnRate.toNat * (uint32Max.toNat - ccDctcpWeight.toNat) := by
    rw [toNat_mul_wide, toNat_sub_of_le (by decide)]
  have hsum := ecnWeighted_le g w
  unfold ecnUpdate
  rw [if_pos hack]
  dsimp only
  generalize ((if w.ecnb ≤ g.ackb then w.ecnb else g.ackb).setWidth 64 *
      uint32Max.setWidth 64 / g.ackb.setWidth 64) = share at hshare ⊢
  have hnew : (share * ccDctcpWeight.setWidth 64).toNat =
      ecnShare g w * ccDctcpWeight.toNat := by
    rw [toNat_mul, hshare, toNat_setWidth_of_le (by decide)]
    apply mod_eq_of_lt
    rw [hweight]
    rw [hmax] at hle
    omega
  have hadd : (share * ccDctcpWeight.setWidth 64 +
      w.ecnRate.setWidth 64 * (uint32Max - ccDctcpWeight).setWidth 64).toNat =
      ecnWeighted g w := by
    rw [toNat_add, hnew, hold]
    apply mod_eq_of_lt
    rw [ecnWeighted] at hsum
    rw [hmax] at hsum ⊢
    omega
  have hfits := ecnEwma_le g w
  rw [toNat_setWidth, toNat_udiv, hadd, toNat_setWidth_of_le (by decide)]
  apply mod_eq_of_lt
  rw [ecnEwma, hmax] at hfits
  rw [hmax]
  omega

/-! ## The intermediates of a poll -/

/-- The 64-bit intermediates of the window update, for a window `w` after slow start. -/
structure Fits64 (g : CcSignals) (w : WndState) : Prop where
  /-- `(uint64_t) cnt_rx_ecn_bytes * UINT32_MAX` -/
  marked : min w.ecnb.toNat g.ackb.toNat * uint32Max.toNat < 2 ^ 64
  weighted : ecnWeighted g w < 2 ^ 64
  /-- `(uint64_t) win * (UINT32_MAX - ecn_rate / 2)` -/
  decrease : w.win.toNat * (uint32Max.toNat - ecnEwma g w / 2) < 2 ^ 64
  /-- `(uint64_t) cnt_rx_ack_bytes * 1448` -/
  increment : g.ackb.toNat * 1448 < 2 ^ 64
  /-- `win + incr` -/
  grown : w.win.toNat + g.ackb.toNat * 1448 / w.win.toNat < 2 ^ 64

theorem fits64 (g : CcSignals) (w : WndState) : Fits64 g w := by
  have hmax := toNat_uint32Max
  have hweighted := ecnWeighted_le g w
  constructor
  · have hmin : min w.ecnb.toNat g.ackb.toNat ≤ g.ackb.toNat := min_le_right _ _
    rw [hmax]
    omega
  · rw [hmax] at hweighted
    omega
  · calc w.win.toNat * (uint32Max.toNat - ecnEwma g w / 2)
          ≤ w.win.toNat * uint32Max.toNat := mul_le_mul_left _ (sub_le _ _)
      _ < 2 ^ 64 := by
          rw [hmax]
          omega
  · omega
  · have hincr : g.ackb.toNat * 1448 / w.win.toNat ≤ g.ackb.toNat * 1448 := div_le_self _ _
    omega

/-! ## The rate -/

def windowTime (window rtt : Nat) : Nat := max (8 * window / 25) (1000 * rtt)

def rateSpec (window rtt : Nat) : Nat :=
  min (125 * (8 * 10 ^ 6 * window / windowTime window rtt)) 3125000000

theorem le_windowTime (window : Nat) {rtt : Nat} (hrtt : 1 ≤ rtt) :
    1000 ≤ windowTime window rtt := by
  have hle : 1000 * rtt ≤ windowTime window rtt := le_max_right _ _
  omega

theorem kbps_bounds {window rtt : Nat} (hlo : 1448 ≤ window) (hrtt : 1 ≤ rtt)
    (hmax : rtt < 100000) : 1 ≤ 8 * 10 ^ 6 * window / windowTime window rtt ∧
      8 * 10 ^ 6 * window / windowTime window rtt ≤ 25025000 := by
  have htime := le_windowTime window hrtt
  have hlink : 8 * window / 25 ≤ windowTime window rtt := le_max_left _ _
  constructor
  · rw [Nat.le_div_iff_mul_le (by omega)]
    rw [windowTime]
    omega
  · apply Nat.div_le_of_le_mul
    omega

theorem toNat_window_mul (window : U32) {n : Nat} (hn : n ≤ 8000000) :
    (window.setWidth 64 * BitVec.ofNat 64 n).toNat = window.toNat * n := by
  rw [toNat_mul, toNat_setWidth_of_le (by decide), toNat_ofNat,
    mod_eq_of_lt (a := n) (by omega)]
  apply mod_eq_of_lt
  calc window.toNat * n ≤ window.toNat * 8000000 := mul_le_mul_left _ hn
    _ < 2 ^ 64 := by omega

theorem toNat_windowTime (window : U32) {rtt : U32} (hmax : rtt.toNat < 100000) :
    (if window.setWidth 64 * 320#64 / 1000#64 < (rtt * 1000#32).setWidth 64 then
      (rtt * 1000#32).setWidth 64 else window.setWidth 64 * 320#64 / 1000#64).toNat =
      windowTime window.toNat rtt.toNat := by
  -- 0.32 ns a byte: the time of its 8 bits at 25 Gbit/s
  have htime : (window.setWidth 64 * 320#64 / 1000#64).toNat = 8 * window.toNat / 25 := by
    rw [toNat_udiv, toNat_window_mul window (n := 320) (by decide)]
    simp only [toNat_ofNat, reducePow, Nat.reduceMod]
    omega
  -- the product is taken in 32 bits, which an RTT in range does not exceed
  have hbound : ((rtt * 1000#32).setWidth 64).toNat = 1000 * rtt.toNat := by
    rw [toNat_setWidth_of_le (by decide), toNat_mul]
    simp only [toNat_ofNat, reducePow, Nat.reduceMod]
    omega
  rw [windowTime]
  split_ifs with hlt
  · rw [lt_def, htime, hbound] at hlt
    omega
  · rw [lt_def, htime, hbound] at hlt
    omega

theorem windowToRate_eq {window rtt : U32} (hlo : 1448 ≤ window.toNat)
    (hrtt : 1 ≤ rtt.toNat) (hmax : rtt.toNat < 100000) :
    ∃ rate, windowToRate window rtt = some rate ∧
      rate.toNat = 8 * 10 ^ 6 * window.toNat / windowTime window.toNat rtt.toNat := by
  have hlonger := toNat_windowTime window hmax
  have hle := (kbps_bounds hlo hrtt hmax).2
  unfold windowToRate
  dsimp only
  generalize (if window.setWidth 64 * 320#64 / 1000#64 < (rtt * 1000#32).setWidth 64 then
      (rtt * 1000#32).setWidth 64 else window.setWidth 64 * 320#64 / 1000#64) = time at hlonger ⊢
  have hne : time ≠ 0#64 := by
    rintro rfl
    have h1000 := le_windowTime window.toNat hrtt
    rw [← hlonger] at h1000
    exact absurd h1000 (by decide)
  have hquot : (window.setWidth 64 * 8000000#64 / time).toNat =
      8 * 10 ^ 6 * window.toNat / windowTime window.toNat rtt.toNat := by
    rw [toNat_udiv, toNat_window_mul window (n := 8000000) (by decide), hlonger]
    simp only [reducePow, Nat.reduceMul, Nat.mul_comm]
  -- the quotient is far below the cap of 32 bits
  have hsmall : ¬ window.setWidth 64 * 8000000#64 / time > uint32Max.setWidth 64 := by
    rw [gt_iff_lt, lt_def, hquot]
    have hwide : (uint32Max.setWidth 64).toNat = 4294967295 := rfl
    omega
  rw [if_neg hne, if_neg hsmall]
  refine ⟨_, rfl, ?_⟩
  rw [toNat_setWidth, hquot]
  exact mod_eq_of_lt (by omega)

theorem kbpsToBps_eq {kbps : U32} (h : kbps.toNat ≤ 25025000) :
    (kbpsToBps kbps).toNat = min (125 * kbps.toNat) 3125000000 := by
  have hmul : ((kbps.setWidth 64 * 125#64).setWidth 32).toNat = 125 * kbps.toNat := by
    rw [toNat_setWidth, toNat_mul, toNat_setWidth_of_le (by decide)]
    simp only [toNat_ofNat, reducePow, Nat.reduceMod]
    omega
  unfold kbpsToBps
  dsimp only
  split_ifs with hlt
  · rw [gt_iff_lt, lt_def, hmul] at hlt
    simp only [toNat_ofNat, reducePow, Nat.reduceMod] at hlt ⊢
    omega
  · rw [gt_iff_lt, lt_def, hmul] at hlt
    simp only [toNat_ofNat, reducePow, Nat.reduceMod] at hlt
    omega

/-! ## One poll -/

def Dctcp.entered (d : Dctcp) (i : CcInput) : WndState :=
  slowStart (d.signals i) (wndStart (d.signals i) d.wnd)

structure PollBounds (d : Dctcp) (i : CcInput) (d' : Dctcp) (r : CcResult) : Prop where
  window_lo : 1448 ≤ d'.wnd.window.toNat
  window_hi : d'.wnd.window.toNat ≤ d.txBufSize.toNat
  ecnRate_eq : (d.signals i).ackb > 0#32 →
    (ecnUpdate (d.signals i) (d.entered i)).ecnRate.toNat = ecnEwma (d.signals i) (d.entered i)
  ecnRate_le : ecnEwma (d.signals i) (d.entered i) ≤ 2 ^ 32 - 1
  fits : Fits64 (d.signals i) (d.entered i)
  /-- the larger one of the products of `set_tx_rate_ep` -/
  fits_rate : d'.wnd.window.toNat * 8 * 10 ^ 6 < 2 ^ 64
  rate_eq : r.mapRate.toNat = rateSpec d'.wnd.window.toNat (rttOrInit i.entry.rttEst).toNat
  rate_pos : 0 < r.mapRate.toNat

theorem rttOrInit_bounds {rttEst : U32} (h : rttEst < tcpMaxRtt) :
    1 ≤ (rttOrInit rttEst).toNat ∧ (rttOrInit rttEst).toNat < 100000 := by
  have hmax : rttEst.toNat < 100000 := h
  unfold rttOrInit
  split_ifs with hzero
  · decide
  · have hne : rttEst.toNat ≠ 0 := fun h0 => hzero (eq_of_toNat_eq h0)
    omega

theorem Dctcp.Usable.poll_bounds {d : Dctcp} (h : d.Usable) {i : CcInput}
    (hrtt : i.entry.rttEst < tcpMaxRtt) :
    ∃ d' r, d.poll i = some (d', r) ∧ PollBounds d i d' r ∧ d'.Usable := by
  obtain ⟨w, hw, hlo, hhi⟩ := h.wndUpdate i
  obtain ⟨hrtt1, hrtt2⟩ := rttOrInit_bounds hrtt
  obtain ⟨rate, hrate, hkbps⟩ := windowToRate_eq (show 1448 ≤ w.win.toNat from hlo) hrtt1 hrtt2
  obtain ⟨hpos, hle⟩ := kbps_bounds hlo hrtt1 hrtt2
  have hmap : (kbpsToBps rate).toNat = rateSpec w.win.toNat (rttOrInit i.entry.rttEst).toNat := by
    rw [kbpsToBps_eq (by rw [hkbps]; exact hle), hkbps, rateSpec]
  refine ⟨_, _, Dctcp.poll_of_some hw hrate, ?_, hlo, h.2⟩
  exact {
    window_lo := hlo
    window_hi := hhi
    ecnRate_eq := fun hack => ecnUpdate_ecnRate hack _
    ecnRate_le := ecnEwma_le _ _
    fits := fits64 _ _
    fits_rate := by
      omega
    rate_eq := hmap
    rate_pos := by
      rw [hmap, rateSpec]
      omega }

/-! ## Runs of the MTP build -/

def mtpStep (s : Option (TcpConnection × U32)) (i : CcInput) : Option (TcpConnection × U32) :=
  s.bind fun q => mtpPoll q.1 i

def MtpBounds (s : Option (TcpConnection × U32)) (i : CcInput) : Prop :=
  ∃ q q', s = some q ∧ mtpStep s i = some q' ∧
    PollBounds q.1.dctcp i q'.1.dctcp (CcResult.of q')

def HoldsUsable (s : Option (TcpConnection × U32)) : Prop := ∃ q, s = some q ∧ q.1.dctcp.Usable

theorem HoldsUsable.step {s : Option (TcpConnection × U32)} (h : HoldsUsable s) {i : CcInput}
    (hrtt : i.entry.rttEst < tcpMaxRtt) : HoldsUsable (mtpStep s i) ∧ MtpBounds s i := by
  obtain ⟨q, rfl, huse⟩ := h
  obtain ⟨d', r, hpoll, hbounds, huse'⟩ := huse.poll_bounds hrtt
  rw [← mtpPoll_refines] at hpoll
  obtain ⟨q', hq', habs⟩ := Option.map_eq_some_iff.mp hpoll
  cases habs
  exact ⟨⟨q', hq', huse'⟩, q, q', rfl, hq', hbounds⟩

/-- **The congestion control of a connection stays in range**, from two segments in slow start and a
    send buffer of 2048 bytes on. -/
theorem dctcp_bounds {c : TcpConnection} (hbuf : 2048 ≤ c.txBufSize.toNat)
    (hwnd : c.dctcpWnd = { window := 2896#32, ecnRate := 0#32, slowstart := true }) (rate : U32)
    {is : List CcInput} (hrtt : ∀ i ∈ is, i.entry.rttEst < tcpMaxRtt) :
    Meets mtpStep MtpBounds (some (c, rate)) is := by
  have hstart : HoldsUsable (some (c, rate)) := by
    refine ⟨_, rfl, ?_, ?_⟩
    · change 1448#32 ≤ c.dctcpWnd.window
      rw [hwnd]
      decide
    · change 1448 ≤ c.txBufSize.toNat
      omega
  exact meets_of_inv (fun _ _ h hi => (h.step hi).1) (fun _ _ h hi => (h.step hi).2) hstart
    (meets_of_forall_mem hrtt)

theorem dctcp_bounds_at :
    Meets mtpStep MtpBounds
      (some ({ (default : TcpConnection) with
        txBufSize := 2048#32
        dctcpWnd := { window := 2896#32, ecnRate := 0#32, slowstart := true } }, 0#32))
      [{ entry := { (default : BpfCc) with cntRxAckBytes := 1000#32, cntRxEcnBytes := 1000#32 }
         rexmits := 0#32 }] :=
  dctcp_bounds (by decide) rfl 0#32 (by decide)

end MtpXdp.Control

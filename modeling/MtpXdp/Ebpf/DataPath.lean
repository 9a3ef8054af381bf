import MtpXdp.Ebpf.Flow
import MtpXdp.Ebpf.SeqWindow

/-!
# The Data Path and the Code it Replaced

`tcp_rx_process` exists twice: as the chain of event processors, and, when `MTP_ON` is not defined,
as one function. The second version is translated here, for packets without the ACK flag (the data
segments of the MTP build), and the chain is compared with it.
-/

namespace MtpXdp.Ebpf

variable {y x : NetCtx} {o : OrigRx}

/-! ## The original data path -/

def oooSegmentMask : U32 := 0x80000000#32
def oooFinMask : U32 := 0x40000000#32
def oooClearMask : U32 := 0x20000000#32

def forceRxBumpMask : U32 := 0x80000000#32

/-- The connection with the fields of the original path only, and the locals of `tcp_rx_process`. -/
structure OrigRx where
  c : BpfTcpConn
  rxNextPos : U32
  rxBufSize : U32
  md : RxMeta
  seq : U32
  payloadLen : U32
  triggerAck : Bool
  rxBump : U32
  clearOoo : Bool
  drop : Bool
deriving Inhabited

def OrigRx.advancePos (o : OrigRx) (pos n : U32) : U32 :=
  let pos := pos + n
  if o.rxBufSize ≤ pos then pos - o.rxBufSize else pos

def OrigRx.enter (o : OrigRx) (ev : NetEvent) : OrigRx :=
  { o with
    seq := ev.seqNum
    payloadLen := ev.dataLen
    -- an ACK is triggered by any payload, even if it is discarded
    triggerAck := decide (ev.dataLen ≠ 0#32)
    rxBump := 0#32
    clearOoo := false
    drop := true }

def OrigRx.trim (o : OrigRx) (trimStart trimEnd : U32) : OrigRx :=
  let payloadLen :=
    if trimStart + trimEnd ≤ o.payloadLen then o.payloadLen - (trimStart + trimEnd)
    else o.payloadLen
  let seq := o.seq + trimStart
  { o with
    payloadLen := payloadLen
    seq := seq
    md := { o.md with
      poff := (BitVec.ofNat 32 headersLen + trimStart).setWidth 16
      plen := payloadLen.setWidth 16
      rxPos := o.advancePos o.rxNextPos (seq - o.c.rxNextSeq) } }

def OrigRx.outOfOrder (o : OrigRx) : OrigRx :=
  if o.payloadLen = 0#32 then o
  else
    let o :=
      if o.c.rxOooLen = 0#32 then
        { o with c := { o.c with rxOooStart := o.seq, rxOooLen := o.payloadLen } }
      else if o.seq + o.payloadLen = o.c.rxOooStart then
        { o with c := { o.c with rxOooStart := o.seq, rxOooLen := o.c.rxOooLen + o.payloadLen } }
      else if o.c.rxOooStart + o.c.rxOooLen = o.seq then
        { o with c := { o.c with rxOooLen := o.c.rxOooLen + o.payloadLen } }
      else { o with payloadLen := 0#32, md := { o.md with plen := poison16 } }
    { o with md := { o.md with oooBump := oooSegmentMask } }

def OrigRx.mergeOoo (o : OrigRx) : OrigRx :=
  match tcpValidRxseqOoo o.c o.c.rxOooStart o.c.rxOooLen with
  | none =>
    -- superfluous: the interval is dropped
    { o with
      c := { o.c with rxOooLen := 0#32 }
      md := { o.md with oooBump := oooClearMask }
      triggerAck := false
      clearOoo := true }
  | some (trimStart, trimEnd) =>
    let c := { o.c with
      rxOooStart := o.c.rxOooStart + trimStart
      rxOooLen := o.c.rxOooLen - (trimStart + trimEnd) }
    if c.rxOooLen ≠ 0#32 ∧ c.rxOooStart = c.rxNextSeq then
      { o with
        rxBump := o.rxBump + c.rxOooLen
        rxNextPos := o.advancePos o.rxNextPos c.rxOooLen
        md := { o.md with oooBump := oooFinMask }
        c := { c with
          rxAvail := c.rxAvail - c.rxOooLen
          rxNextSeq := c.rxNextSeq + c.rxOooLen
          rxOooLen := 0#32 } }
    else { o with c := c }

def OrigRx.advance (o : OrigRx) : OrigRx :=
  { o with
    rxBump := o.payloadLen
    rxNextPos := o.advancePos o.rxNextPos o.payloadLen
    c := { o.c with
      rxAvail := o.c.rxAvail - o.payloadLen
      rxNextSeq := o.c.rxNextSeq + o.payloadLen } }

def OrigRx.forceBump (o : OrigRx) : OrigRx :=
  if BitVec.ushiftRight o.c.rxAvail tcpWndScale = 0#32 then
    { o with md := { o.md with qid := o.md.qid ||| forceRxBumpMask } }
  else o

def OrigRx.accept (o : OrigRx) : OrigRx :=
  let o := o.advance
  let o := if o.c.rxOooLen ≠ 0#32 then o.mergeOoo else o
  o.forceBump

def OrigRx.inOrder (o : OrigRx) (ev : NetEvent) : OrigRx :=
  let o :=
    if o.c.rxRemoteAvail < ev.scaledWnd then
      { o with c := { o.c with rxRemoteAvail := ev.scaledWnd } }
    else o
  let o :=
    if o.payloadLen ≠ 0#32 ∧ o.c.txNextTs = 0#32 then
      { o with c := { o.c with txNextTs := ev.tsVal } }
    else o
  if o.payloadLen ≠ 0#32 then o.accept else o

def OrigRx.unlock (o : OrigRx) : OrigRx :=
  if o.rxBump ≠ 0#32 ∨ xskBudgetAvail o.c ≠ 0#32 ∨ o.clearOoo = true then
    let md := { o.md with xskBudgetAvail := xskBudgetAvail o.c }
    { o with
      drop := false
      md :=
        if o.payloadLen = 0#32 then
          { md with rxPos := poison32, poff := poison16, plen := poison16 }
        else if md.oooBump &&& oooFinMask ≠ 0#32 then { md with oooBump := md.oooBump ||| o.rxBump }
        else md }
  else o

/-- `tcp_rx_process` without `MTP_ON`, on a packet without the ACK flag; `triggerAck` decides about
    an ACK. -/
def tcpRxProcessOrig (o : OrigRx) (ev : NetEvent) : OrigRx :=
  let o := o.enter ev
  match tcpValidRxseqOoo o.c o.seq o.payloadLen with
  | none => ({ o with triggerAck := false }).unlock
  | some (trimStart, trimEnd) =>
    let o := o.trim trimStart trimEnd
    if o.seq ≠ o.c.rxNextSeq then o.outOfOrder.unlock else (o.inOrder ev).unlock

/-! ## Rejected segments -/

def dataEps (x : NetCtx) : NetCtx :=
  dataNetEp (flushOooDataEp (detectOooDataEp (verifyTrimDataEp x)))

/-- The frame goes to user space with a payload: `eTran` reads none when `plen` is poisoned. -/
def PassesPayload (x : NetCtx) : Prop := x.io.drop = false ∧ x.md.plen ≠ poison16

structure LeavesNoTrace (before after : NetCtx) : Prop where
  next : after.c.rxNextSeq = before.c.rxNextSeq
  avail : after.c.rxAvail = before.c.rxAvail
  oooStart : after.c.rxOooStart = before.c.rxOooStart
  oooLen : after.c.rxOooLen = before.c.rxOooLen
  payload : ¬ PassesPayload after

theorem detect_verify_of_rejected (h : (verifyTrimDataEp x).io.skipDataEps = true) :
    (detectOooDataEp (verifyTrimDataEp x)).c = x.c ∧
      (detectOooDataEp (verifyTrimDataEp x)).ev = x.ev ∧
      (detectOooDataEp (verifyTrimDataEp x)).io.drop = true := by
  rw [verifyTrimDataEp_skipDataEps, Bool.not_eq_true'] at h
  rw [verifyTrimDataEp_of_rejected (Bool.not_eq_true _ ▸ h), detectOooDataEp, if_pos rfl]
  exact ⟨rfl, rfl, rfl⟩

theorem mergeOoo_next_or_ooo (y : NetCtx) :
    (mergeOoo y).c.rxNextSeq = y.c.rxNextSeq ∨ (mergeOoo y).c.rxOooLen = 0#32 := by
  unfold mergeOoo
  split
  · exact Or.inl rfl
  · dsimp only
    split_ifs
    · exact Or.inr rfl
    · exact Or.inl rfl

theorem flushOooDataEp_moves (hlen : y.ev.dataLen ≠ 0#32)
    (hnext : (flushOooDataEp y).c.rxNextSeq = y.c.rxNextSeq) :
    (flushOooDataEp y).c.rxOooLen ≠ y.c.rxOooLen := by
  have hmoved : (flushAccept y).rxNextSeq ≠ y.c.rxNextSeq := by
    intro h
    exact hlen (by simpa [flushAccept] using h)
  rw [flushOooDataEp_eq, if_pos hlen] at hnext ⊢
  by_cases hooo : y.c.rxOooLen ≠ 0#32
  · rw [if_pos hooo] at hnext ⊢
    rcases mergeOoo_next_or_ooo { y with c := flushAccept y } with hkeep | hempty
    · exact absurd (hkeep.symm.trans hnext) hmoved
    · rw [hempty]
      exact hooo.symm
  · rw [if_neg hooo] at hnext
    exact absurd hnext hmoved

theorem flushOooDataEp_of_empty (hlen : y.ev.dataLen = 0#32) :
    flushOooDataEp y = { y with c := flushHead y } := by
  rw [flushOooDataEp_eq, if_neg (not_not_intro hlen)]

theorem not_passesPayload_of_empty (hlen : y.ev.dataLen = 0#32)
    (hdrop : y.io.drop = true) : ¬ PassesPayload (dataNetEp y) := by
  unfold PassesPayload dataNetEp mtpAddDataSegWrapper
  split_ifs
  · exact fun h => h.2 rfl
  · exact fun h => absurd hdrop (by rw [h.1]; decide)

/-- **Rejected segments**: the chain leaves no trace of one iff it carries no payload. -/
theorem leavesNoTrace_iff_of_rejected (x : NetCtx)
    (h : (verifyTrimDataEp x).io.skipDataEps = true) :
    LeavesNoTrace x (dataEps x) ↔ x.ev.dataLen = 0#32 := by
  obtain ⟨hc, hev, hdrop⟩ := detect_verify_of_rejected h
  unfold dataEps
  generalize detectOooDataEp (verifyTrimDataEp x) = y at hc hev hdrop
  rw [← hev]
  constructor
  · intro hkept
    by_contra hlen
    have hnext := hkept.next
    have hooo := hkept.oooLen
    rw [dataNetEp_c, ← hc] at hnext hooo
    exact flushOooDataEp_moves hlen hnext hooo
  · intro hlen
    have hflush := flushOooDataEp_of_empty hlen
    refine ⟨?_, ?_, ?_, ?_, ?_⟩
    · rw [dataNetEp_c, hflush, ← hc]
      rfl
    · rw [dataNetEp_c, hflush, ← hc]
      rfl
    · rw [dataNetEp_c, hflush, ← hc]
      rfl
    · rw [dataNetEp_c, hflush, ← hc]
      rfl
    · rw [hflush]
      exact not_passesPayload_of_empty hlen hdrop

theorem leavesNoTrace_at_empty :
    let x : NetCtx := { (default : NetCtx) with
      c := { (default : BpfTcpConn) with rxNextSeq := 1000#32, rxAvail := 1000#32 }
      ev := { (default : NetEvent) with seqNum := 5000#32 } }
    LeavesNoTrace x (dataEps x) := by
  intro x
  exact (leavesNoTrace_iff_of_rejected x (by decide)).mpr (by decide)

/-- A segment that was received before: it is rejected, and moves `rx_next_seq` all the same. -/
theorem old_segment_leaves_trace :
    let x : NetCtx := { (default : NetCtx) with
      c := { (default : BpfTcpConn) with rxNextSeq := 1000#32, rxAvail := 1000#32 }
      ev := { (default : NetEvent) with seqNum := 100#32, dataLen := 50#32 } }
    (verifyTrimDataEp x).io.skipDataEps = true ∧ (dataEps x).c.rxNextSeq = 1050#32 ∧
      ¬ LeavesNoTrace x (dataEps x) := by
  intro x
  have hnext : (dataEps x).c.rxNextSeq = 1050#32 := by decide
  refine ⟨by decide, hnext, fun h => ?_⟩
  exact absurd (hnext.symm.trans h.next) (by decide)

/-! ## In-order segments -/

def dataVerdict (x : NetCtx) : NetCtx := flushOooDataEp (detectOooDataEp (verifyTrimDataEp x))

/-- They agree on the receiving side and on whether to send an ACK, but for the start of an empty
    interval. -/
structure SameReceive (x : NetCtx) (o : OrigRx) : Prop where
  next : x.c.rxNextSeq = o.c.rxNextSeq
  avail : x.c.rxAvail = o.c.rxAvail
  oooLen : x.c.rxOooLen = o.c.rxOooLen
  oooStart : x.c.rxOooLen ≠ 0#32 → x.c.rxOooStart = o.c.rxOooStart
  ack : x.io.triggerAck = o.triggerAck

theorem SameReceive.of_eq {x : NetCtx} (hc : o.c = x.c)
    (hack : x.io.triggerAck = o.triggerAck) : SameReceive x o := by
  constructor <;> simp [hc, hack]

def trimmedLen (len trimStart trimEnd : U32) : U32 :=
  if trimStart + trimEnd ≤ len then len - (trimStart + trimEnd) else len

def BpfTcpConn.received (c : BpfTcpConn) (n : U32) : BpfTcpConn :=
  { c with rxAvail := c.rxAvail - n, rxNextSeq := c.rxNextSeq + n }

/-- There are no bytes or no pending interval, or it still overlaps the window left. -/
def PendingKept (c : BpfTcpConn) (n : U32) : Prop :=
  n = 0#32 ∨ c.rxOooLen = 0#32 ∨ rxseqOverlaps (c.received n) c.rxOooStart c.rxOooLen = true
deriving Decidable

/-! ### The pending interval -/

def BpfTcpConn.oooOverlaps (c : BpfTcpConn) : Bool := rxseqOverlaps c c.rxOooStart c.rxOooLen

def BpfTcpConn.merged (c : BpfTcpConn) : BpfTcpConn :=
  let start := c.rxOooStart + rxseqTrimStart c c.rxOooStart
  let len := c.rxOooLen -
    (rxseqTrimStart c c.rxOooStart + rxseqTrimEnd c c.rxOooStart c.rxOooLen)
  if len ≠ 0#32 ∧ start = c.rxNextSeq then
    { c with
      rxOooStart := start
      rxAvail := c.rxAvail - len
      rxNextSeq := c.rxNextSeq + len
      rxOooLen := 0#32 }
  else { c with rxOooStart := start, rxOooLen := len }

theorem mergeOoo_of_stale (h : y.c.oooOverlaps = false) :
    mergeOoo y = { y with io := { y.io with triggerAck := false } } := by
  unfold BpfTcpConn.oooOverlaps at h
  simp [mergeOoo, tcpValidRxseqOoo, h]

theorem mergeOoo_of_overlaps (h : y.c.oooOverlaps = true) :
    mergeOoo y = { y with c := y.c.merged } := by
  unfold BpfTcpConn.oooOverlaps at h
  simp only [mergeOoo, tcpValidRxseqOoo, h, if_true, BpfTcpConn.merged]
  split_ifs <;> rfl

theorem OrigRx.mergeOoo_of_stale (h : o.c.oooOverlaps = false) :
    o.mergeOoo.c = { o.c with rxOooLen := 0#32 } ∧ o.mergeOoo.triggerAck = false := by
  unfold BpfTcpConn.oooOverlaps at h
  simp [OrigRx.mergeOoo, tcpValidRxseqOoo, h]

theorem OrigRx.mergeOoo_of_overlaps (h : o.c.oooOverlaps = true) :
    o.mergeOoo.c = o.c.merged ∧ o.mergeOoo.triggerAck = o.triggerAck := by
  unfold BpfTcpConn.oooOverlaps at h
  simp only [OrigRx.mergeOoo, tcpValidRxseqOoo, h, if_true, BpfTcpConn.merged]
  split_ifs <;> exact ⟨rfl, rfl⟩

/-! ### The original path, by the processor states -/

@[simp] theorem OrigRx.unlock_c (o : OrigRx) : o.unlock.c = o.c := by
  unfold OrigRx.unlock
  split_ifs <;> rfl

@[simp] theorem OrigRx.unlock_triggerAck (o : OrigRx) : o.unlock.triggerAck = o.triggerAck := by
  unfold OrigRx.unlock
  split_ifs <;> rfl

structure Matches (y : NetCtx) (o : OrigRx) (ev : NetEvent) : Prop where
  c : o.c = y.c
  payloadLen : o.payloadLen = y.ev.dataLen
  wnd : ev.scaledWnd = y.ev.scaledWnd
  tsVal : ev.tsVal = y.ev.tsVal

section

variable {ev : NetEvent}

theorem OrigRx.inOrder_eq (h : Matches y o ev) : o.inOrder ev =
      if y.ev.dataLen ≠ 0#32 then ({ o with c := flushHead y } : OrigRx).accept
      else { o with c := flushHead y } := by
  unfold OrigRx.inOrder flushHead
  rw [h.wnd, h.tsVal, ← h.payloadLen, ← h.c]
  by_cases hwnd : o.c.rxRemoteAvail < y.ev.scaledWnd
  · simp only [hwnd, if_true]
    split_ifs <;> rfl
  · simp only [hwnd, if_false]
    split_ifs <;> rfl

theorem OrigRx.advance_c (hlen : o.payloadLen = y.ev.dataLen) :
    ({ o with c := flushHead y } : OrigRx).advance.c = flushAccept y := by
  simp only [OrigRx.advance, hlen]
  rfl

@[simp] theorem OrigRx.forceBump_c (o : OrigRx) : o.forceBump.c = o.c := by
  unfold OrigRx.forceBump
  split_ifs <;> rfl

@[simp] theorem OrigRx.forceBump_triggerAck (o : OrigRx) :
    o.forceBump.triggerAck = o.triggerAck := by
  unfold OrigRx.forceBump
  split_ifs <;> rfl

theorem OrigRx.accept_of_none (h : o.c.rxOooLen = 0#32) : o.accept = o.advance.forceBump := by
  have hkept : ¬ o.advance.c.rxOooLen ≠ 0#32 := not_not_intro h
  rw [OrigRx.accept, if_neg hkept]

theorem OrigRx.accept_of_pending (h : o.c.rxOooLen ≠ 0#32) :
    o.accept = o.advance.mergeOoo.forceBump := by
  have hkept : o.advance.c.rxOooLen ≠ 0#32 := h
  rw [OrigRx.accept, if_pos hkept]

theorem sameReceive_pending_iff (hlen : o.payloadLen = y.ev.dataLen)
    (hooo : y.c.rxOooLen ≠ 0#32) (hack : y.io.triggerAck = o.triggerAck) :
    SameReceive (mergeOoo { y with c := flushAccept y })
      ({ o with c := flushHead y } : OrigRx).accept ↔ (flushAccept y).oooOverlaps = true := by
  have hconn := OrigRx.advance_c (o := o) hlen
  rw [OrigRx.accept_of_pending hooo]
  cases hover : (flushAccept y).oooOverlaps with
  | true =>
    obtain ⟨hc, ht⟩ := OrigRx.mergeOoo_of_overlaps (o := ({ o with c := flushHead y }).advance)
      (by rw [hconn]; exact hover)
    rw [mergeOoo_of_overlaps (y := { y with c := flushAccept y }) hover]
    apply iff_of_true _ rfl
    apply SameReceive.of_eq
    · rw [OrigRx.forceBump_c, hc, hconn]
    · rw [OrigRx.forceBump_triggerAck, ht]
      exact hack
  | false =>
    obtain ⟨hc, -⟩ := OrigRx.mergeOoo_of_stale (o := ({ o with c := flushHead y }).advance)
      (by rw [hconn]; exact hover)
    rw [mergeOoo_of_stale (y := { y with c := flushAccept y }) hover]
    apply iff_of_false _ Bool.false_ne_true
    intro hsame
    have hkept := hsame.oooLen
    rw [OrigRx.forceBump_c, hc] at hkept
    exact hooo hkept

theorem sameReceive_inOrder_iff (h : Matches y o ev) (hack : y.io.triggerAck = o.triggerAck) :
    SameReceive (flushOooDataEp y) (o.inOrder ev) ↔ PendingKept y.c y.ev.dataLen := by
  rw [flushOooDataEp_eq, OrigRx.inOrder_eq h, PendingKept]
  by_cases hlen : y.ev.dataLen = 0#32
  · rw [if_neg (not_not_intro hlen), if_neg (not_not_intro hlen)]
    exact iff_of_true (SameReceive.of_eq rfl hack) (Or.inl hlen)
  · rw [if_pos hlen, if_pos hlen]
    by_cases hooo : y.c.rxOooLen = 0#32
    · rw [if_neg (not_not_intro hooo), OrigRx.accept_of_none hooo]
      apply iff_of_true _ (Or.inr (Or.inl hooo))
      apply SameReceive.of_eq
      · rw [OrigRx.forceBump_c, OrigRx.advance_c h.payloadLen]
      · rw [OrigRx.forceBump_triggerAck]
        exact hack
    · rw [if_pos hooo, sameReceive_pending_iff h.payloadLen hooo hack]
      simp only [hlen, hooo, false_or]
      rfl

end

/-! ### Whole packets -/

section

variable {trimStart trimEnd : U32}

theorem verifyTrimDataEp_of_some
    (h : tcpValidRxseqOoo x.c x.ev.seqNum x.ev.dataLen = some (trimStart, trimEnd)) :
    (verifyTrimDataEp x).ev = { x.ev with
      dataLen := trimmedLen x.ev.dataLen trimStart trimEnd, seqNum := x.ev.seqNum + trimStart } ∧
    (verifyTrimDataEp x).io.triggerAck = true := by
  simp [verifyTrimDataEp, h, trimmedLen]

theorem detectOooDataEp_of_inOrder (h : x.ev.seqNum = x.c.rxNextSeq) : detectOooDataEp x = x := by
  unfold detectOooDataEp
  split_ifs <;> rfl

theorem tcpRxProcessOrig_of_inOrder {ev : NetEvent}
    (h : tcpValidRxseqOoo o.c ev.seqNum ev.dataLen = some (trimStart, trimEnd))
    (hstart : ev.seqNum + trimStart = o.c.rxNextSeq) :
    tcpRxProcessOrig o ev = (((o.enter ev).trim trimStart trimEnd).inOrder ev).unlock := by
  have hseq : ((o.enter ev).trim trimStart trimEnd).seq =
      ((o.enter ev).trim trimStart trimEnd).c.rxNextSeq := hstart
  have hentry : tcpValidRxseqOoo (o.enter ev).c (o.enter ev).seq (o.enter ev).payloadLen =
      some (trimStart, trimEnd) := h
  simp only [tcpRxProcessOrig, hentry, ne_eq, hseq, not_true, if_false]

theorem trimmedLen_zero (trimStart trimEnd : U32) : trimmedLen 0#32 trimStart trimEnd = 0#32 := by
  unfold trimmedLen
  split_ifs with hle
  · rw [BitVec.le_zero_iff.mp hle, BitVec.sub_zero]
  · rfl

theorem matches_of_inOrder (hconn : o.c = x.c)
    (hvalid : tcpValidRxseqOoo x.c x.ev.seqNum x.ev.dataLen = some (trimStart, trimEnd)) :
    Matches (verifyTrimDataEp x) ((o.enter x.ev).trim trimStart trimEnd) x.ev := by
  obtain ⟨hev, -⟩ := verifyTrimDataEp_of_some hvalid
  constructor
  · rw [verifyTrimDataEp_c]
    exact hconn
  · rw [hev]
    rfl
  · rw [verifyTrimDataEp_scaledWnd]
  · rw [hev]

/-- **The chain refines the original path** on in-order segments with payload that keep the pending
    interval, and on no others. -/
theorem data_path_refines_iff (x : NetCtx) (o : OrigRx) (trimStart trimEnd : U32)
    (hconn : o.c = x.c)
    (hvalid : tcpValidRxseqOoo x.c x.ev.seqNum x.ev.dataLen = some (trimStart, trimEnd))
    (hstart : x.ev.seqNum + trimStart = x.c.rxNextSeq) :
    SameReceive (dataVerdict x) (tcpRxProcessOrig o x.ev) ↔
      x.ev.dataLen ≠ 0#32 ∧ PendingKept x.c (trimmedLen x.ev.dataLen trimStart trimEnd) := by
  obtain ⟨hev, hack⟩ := verifyTrimDataEp_of_some hvalid
  have hmatch := matches_of_inOrder hconn hvalid
  have hdetect : detectOooDataEp (verifyTrimDataEp x) = verifyTrimDataEp x := by
    apply detectOooDataEp_of_inOrder
    rw [hev, verifyTrimDataEp_c]
    exact hstart
  rw [dataVerdict, hdetect,
    tcpRxProcessOrig_of_inOrder (by rw [hconn]; exact hvalid) (by rw [hconn]; exact hstart)]
  by_cases hlen : x.ev.dataLen = 0#32
  · -- an empty packet triggers an ACK in the chain only
    apply iff_of_false _ (fun h => h.1 hlen)
    intro hsame
    have hempty : (verifyTrimDataEp x).ev.dataLen = 0#32 := by
      rw [hev, hlen]
      exact trimmedLen_zero trimStart trimEnd
    have hsend := hsame.ack
    rw [flushOooDataEp_of_empty hempty, OrigRx.unlock_triggerAck, OrigRx.inOrder_eq hmatch,
      if_neg (not_not_intro hempty), hack] at hsend
    simp [OrigRx.trim, OrigRx.enter, hlen] at hsend
  · have horig : ((o.enter x.ev).trim trimStart trimEnd).triggerAck = true := decide_eq_true hlen
    have hiff := sameReceive_inOrder_iff hmatch (hack.trans horig.symm)
    rw [verifyTrimDataEp_c, hev] at hiff
    simp only [hlen, ne_eq, not_false_eq_true, true_and]
    rw [← hiff]
    -- the label `unlock` decides nothing that is compared
    constructor
    · intro h
      exact ⟨by simpa using h.next, by simpa using h.avail, by simpa using h.oooLen,
        by simpa using h.oooStart, by simpa using h.ack⟩
    · intro h
      exact ⟨by simpa using h.next, by simpa using h.avail, by simpa using h.oooLen,
        by simpa using h.oooStart, by simpa using h.ack⟩

theorem data_path_refines_at_gap :
    let c := { (default : BpfTcpConn) with
      rxNextSeq := 50#32, rxAvail := 950#32, rxOooStart := 100#32, rxOooLen := 50#32 }
    let x : NetCtx := { (default : NetCtx) with
      c := c, ev := { (default : NetEvent) with seqNum := 50#32, dataLen := 50#32 } }
    SameReceive (dataVerdict x) (tcpRxProcessOrig { (default : OrigRx) with c := c } x.ev) := by
  intro c x
  exact (data_path_refines_iff x { (default : OrigRx) with c := c } 0#32 0#32 rfl (by decide)
    (by decide)).mpr (by decide)

/-- The segment reaches past the pending interval: the chain keeps it, with a length that the
    original path has cleared. -/
theorem stale_interval_kept :
    let c := { (default : BpfTcpConn) with
      rxNextSeq := 50#32, rxAvail := 950#32, rxOooStart := 100#32, rxOooLen := 50#32 }
    let x : NetCtx := { (default : NetCtx) with
      c := c, ev := { (default : NetEvent) with seqNum := 50#32, dataLen := 150#32 } }
    let o : OrigRx := { (default : OrigRx) with c := c }
    tcpValidRxseqOoo x.c x.ev.seqNum x.ev.dataLen = some (0#32, 0#32) ∧
      (dataVerdict x).c.rxOooLen = 50#32 ∧ (tcpRxProcessOrig o x.ev).c.rxOooLen = 0#32 ∧
      ¬ SameReceive (dataVerdict x) (tcpRxProcessOrig o x.ev) := by
  intro c x o
  have hmtp : (dataVerdict x).c.rxOooLen = 50#32 := by decide
  have horig : (tcpRxProcessOrig o x.ev).c.rxOooLen = 0#32 := by decide
  refine ⟨by decide, hmtp, horig, fun h => ?_⟩
  exact absurd (hmtp.symm.trans (h.oooLen.trans horig)) (by decide)

end

end MtpXdp.Ebpf

import MtpXdp.Ebpf.EventProcessors
import MtpXdp.Ebpf.DataPath

/-!
# Acknowledgements

Three paths put `rx_avail` on the wire: an ACK of `send_ack`, a data segment of `send_ep`, and the
answer to a `FLAG_SYNC` packet. The ACK path truncates it to 16 bits without scaling; the other two
shift the field after the byte swap. For each path there is the decoded window and the exact set of
values on which it is faithful.

A receiver has to answer every segment with payload, also one that it discards, or the sender
repeats it for ever. `verify_trim_data_ep` takes `trigger_ack` back for a segment outside the
window; `flush_ooo_data_ep` takes it back when the pending out-of-order interval has been overtaken.

A receiver sets ECE in the ACK for a segment with the congestion-experienced mark in its IP header.
The mark gets lost twice: `parse_pkt_to_event` looks at the TCP header only, and
`mtp_pkt_gen_for_xdp_gen` leaves `ecn_flags` of the queued ACK alone. So no ACK ever carries ECE.
-/

namespace MtpXdp.Ebpf

/-! ## What a receiver decodes -/

def decodedWnd (h : TcpHdr) : U32 := bpfNtohs h.window <<< tcpWndScale

def WndFaithful (avail wnd : U32) : Prop :=
  wnd.toNat ≤ avail.toNat ∧ avail.toNat < wnd.toNat + 2 ^ tcpWndScale
deriving Decidable

theorem toNat_decodedWnd (h : TcpHdr) :
    (decodedWnd h).toNat = (h.window.toNat % 256 * 256 + h.window.toNat / 256) * 8 := by
  rw [decodedWnd, BitVec.toNat_shiftLeft, toNat_bpfNtohs, tcpWndScale, Nat.shiftLeft_eq]
  omega

/-! ## ACKs -/

def AckRing.HasRoom (r : AckRing) : Prop :=
  r.prod < napiBatchSize ∧ r.cons ≠ ringNext r.prod

/-- The ACK that `send_ack` queues, as `xdp_gen_prog` emits it once the queue is drained up to the
    new entry. -/
def ackEmission (x : NetCtx) (p : Pkt) : Option Pkt :=
  (xdpGenProg { (sendAck x).ring with cons := x.ring.prod } p).1

theorem toNat_ringNext {i : U32} (hi : i < napiBatchSize) :
    (ringNext i).toNat = (i.toNat + 1) % 64 := by
  have hsucc : (i + 1#32).toNat = i.toNat + 1 := by bv_omega
  have h63 : (napiBatchSize - 1#32).toNat = 2 ^ 6 - 1 := rfl
  rw [ringNext, BitVec.toNat_and, h63, Nat.and_two_pow_sub_one_eq_mod, hsucc]

theorem ringNext_ne_self {i : U32} (hi : i < napiBatchSize) : ringNext i ≠ i := by
  intro h
  have hnat := congrArg BitVec.toNat h
  rw [toNat_ringNext hi] at hnat
  omega

theorem ackEmission_eq {x : NetCtx} (hack : x.io.triggerAck = true) (hroom : x.ring.HasRoom)
    (p : Pkt) : ackEmission x p = some (xdpGenHeaders
      (ackEntry (x.ring.slots x.ring.prod) (ackBp x.c x.ev.timestamp) x.c) p) := by
  obtain ⟨hprod, hcons⟩ := hroom
  have hne := ringNext_ne_self hprod
  unfold ackEmission sendAck mtpPktGenForXdpGen
  simp [hack, hcons, xdpGenProg, dequeueAck, hne, AckRing.lookup, AckRing.write, hprod]

theorem decodedWnd_ackEmission (a : BpfTcpAck) (c : BpfTcpConn) (t : U32) (p : Pkt) :
    (decodedWnd (xdpGenHeaders (ackEntry a (ackBp c t) c) p).tcp).toNat =
      c.rxAvail.toNat % 65536 * 8 := by
  have hswap : (xdpGenHeaders (ackEntry a (ackBp c t) c) p).tcp.window.toNat =
      c.rxAvail.toNat % 65536 % 256 * 256 + c.rxAvail.toNat % 65536 / 256 := by
    simp only [xdpGenHeaders, ackEntry, ackBp, bpfHtons, toNat_bswap16, BitVec.toNat_setWidth]
    omega
  rw [toNat_decodedWnd, hswap]
  omega

/-! ## Segments and window updates -/

def swapShiftWnd (r : Nat) : Nat := r % 8 * 65536 + r / 256 % 256 / 8 * 2048 + r % 256 / 8 * 8

theorem toNat_decodedWnd_swapShift (h : TcpHdr) (r : U32)
    (hwin : h.window = bpfHtons r >>> tcpWndScale) :
    (decodedWnd h).toNat = swapShiftWnd r.toNat := by
  have hswap : (bpfHtons r).toNat = r.toNat % 256 * 256 + r.toNat / 256 % 256 := by
    rw [bpfHtons, toNat_bswap16, BitVec.toNat_setWidth]
    omega
  have hlow : r.toNat % 8 = r.toNat % 256 % 8 := by omega
  rw [toNat_decodedWnd, hwin, BitVec.toNat_ushiftRight, hswap, tcpWndScale,
    Nat.shiftRight_eq_div_pow, swapShiftWnd, hlow]
  -- in terms of the two bytes: the shift moves the three low bits of the low byte to the top
  generalize hlo : r.toNat % 256 = lo
  generalize hhi : r.toNat / 256 % 256 = hi
  have hshift : (lo * 256 + hi) / 2 ^ 3 = lo * 32 + hi / 8 := by omega
  omega

theorem window_mtpFillTcpHdr {p : Pkt} {ts : TsOpt} (hts : p.ts = some ts) (c : BpfTcpConn)
    (flags : U16) (bp : TCPBP) : (mtpFillTcpHdr p c flags bp).tcp.window =
      bpfHtons (bp.rwndSize.setWidth 32) >>> tcpWndScale := by
  simp [mtpFillTcpHdr, hts]

theorem window_fillTcpHdr {p : Pkt} {ts : TsOpt} (hts : p.ts = some ts) (c : BpfTcpConn)
    (t : U32) (flags : U16) :
    (fillTcpHdr p c t flags).tcp.window = bpfHtons c.rxAvail >>> tcpWndScale := by
  simp [fillTcpHdr, hts]

theorem decodedWnd_sendEp {x : EgressCtx} (hts : x.pkt.ts.isSome) :
    (decodedWnd (sendEp x).pkt.tcp).toNat = swapShiftWnd x.c.rxAvail.toNat := by
  obtain ⟨ts, hts⟩ := Option.isSome_iff_exists.mp hts
  apply toNat_decodedWnd_swapShift
  -- the header functions truncate to 16 bits anyway, so the blueprint's width does not show
  have htrunc : bpfHtons ((x.c.rxAvail.setWidth 16).setWidth 32) = bpfHtons x.c.rxAvail := by
    simp [bpfHtons]
  simp [sendEp, mtpPktGenWrapper, window_mtpFillTcpHdr hts, sendBp, htrunc]

theorem decodedWnd_tcpTxProcess_sync {f : Flow} {env : TxEnv} {m : TxMeta} {ev : AppTimerEvent}
    {p : Pkt} (hts : p.ts.isSome) (hsync : m.flag &&& flagSync ≠ 0#64)
    (htx : (tcpTxProcess f env m ev p).action = .tx) :
    (decodedWnd (tcpTxProcess f env m ev p).pkt.tcp).toNat =
      swapShiftWnd (tcpTxProcess f env m ev p).flow.c.rxAvail.toNat := by
  obtain ⟨ts, hts⟩ := Option.isSome_iff_exists.mp hts
  apply toNat_decodedWnd_swapShift
  simp only [tcpTxProcess, hsync, ne_eq, not_false_eq_true, if_true] at htx ⊢
  unfold txSync at htx ⊢
  split at htx
  · rename_i hupd
    rw [if_pos hupd]
    exact window_fillTcpHdr hts _ _ _
  · cases htx

/-! ## Exact conditions -/

def AckWndExact (avail : U32) : Prop :=
  avail.toNat ∈ [0, 74898, 149796, 224694, 299593, 374491, 449389]

def SegWndExact (avail : U32) : Prop :=
  avail.toNat / 256 % 8 = 0 ∧ avail.toNat % 8 = avail.toNat / 65536

theorem wndFaithful_ack_iff {avail wnd : U32} (hmax : avail.toNat ≤ 0xFFFF * 8)
    (hwnd : wnd.toNat = avail.toNat % 65536 * 8) : WndFaithful avail wnd ↔ AckWndExact avail := by
  simp only [WndFaithful, AckWndExact, hwnd, tcpWndScale, List.mem_cons, List.not_mem_nil, or_false]
  -- one value for each of the seven multiples of 2 ^ 16 that were cut off
  obtain ⟨q, hq⟩ : ∃ q, q = avail.toNat / 65536 := ⟨_, rfl⟩
  have hq7 : q ≤ 7 := by omega
  interval_cases q <;> omega

theorem wndFaithful_seg_iff {avail wnd : U32} (hwnd : wnd.toNat = swapShiftWnd avail.toNat) :
    WndFaithful avail wnd ↔ SegWndExact avail := by
  have hdiff : avail.toNat + avail.toNat % 8 * 65536 = swapShiftWnd avail.toNat +
      (avail.toNat / 65536 * 65536 + avail.toNat / 256 % 8 * 256 + avail.toNat % 8) := by
    rw [swapShiftWnd]
    omega
  have hlow : avail.toNat % 8 < 8 := Nat.mod_lt _ (by decide)
  simp only [WndFaithful, SegWndExact, hwnd, tcpWndScale]
  generalize avail.toNat % 8 = l at hdiff hlow ⊢
  generalize avail.toNat / 65536 = q at hdiff ⊢
  rcases Nat.lt_trichotomy q l with hql | hql | hql <;> omega

/-! ## All three paths -/

inductive Emission where
  | ack (x : NetCtx) (p : Pkt)
  | segment (x : EgressCtx)
  | update (f : Flow) (env : TxEnv) (m : TxMeta) (ev : AppTimerEvent) (p : Pkt)

namespace Emission

def rxAvail : Emission → U32
  | .ack x _ => x.c.rxAvail
  | .segment x => x.c.rxAvail
  | .update f _ m _ _ => f.c.rxAvail + m.rxBump

def header : Emission → Option TcpHdr
  | .ack x p => (ackEmission x p).map Pkt.tcp
  | .segment x => some (sendEp x).pkt.tcp
  | .update f env m ev p =>
    let r := tcpTxProcess f env m ev p
    if r.action = .tx then some r.pkt.tcp else none

/-- An ACK finds room, a segment's buffer holds the timestamp option, a `FLAG_SYNC` packet finds
    nothing pending. -/
def Taken : Emission → Prop
  | .ack x _ => x.io.triggerAck = true ∧ x.ring.HasRoom
  | .segment x => x.pkt.ts.isSome = true
  | .update f _ m _ p =>
    m.flag &&& flagSync ≠ 0#64 ∧ m.rxBump ≠ 0#32 ∧ f.c.txPending = 0#32 ∧ p.ts.isSome = true

def Faithful (e : Emission) : Prop :=
  ∃ h, e.header = some h ∧ WndFaithful e.rxAvail (decodedWnd h)

def WndExact (e : Emission) : Prop :=
  match e with
  | .ack _ _ => AckWndExact e.rxAvail
  | .segment _ => SegWndExact e.rxAvail
  | .update _ _ _ _ _ => SegWndExact e.rxAvail

theorem faithful_iff_of_header {e : Emission} {h : TcpHdr} (hh : e.header = some h) :
    e.Faithful ↔ WndFaithful e.rxAvail (decodedWnd h) := by
  simp [Faithful, hh]

end Emission

theorem tcpTxProcess_sync {f : Flow} {m : TxMeta} (env : TxEnv) (ev : AppTimerEvent) (p : Pkt)
    (hsync : m.flag &&& flagSync ≠ 0#64) (hbump : m.rxBump ≠ 0#32) (hidle : f.c.txPending = 0#32) :
    (tcpTxProcess f env m ev p).action = .tx ∧
      (tcpTxProcess f env m ev p).flow.c.rxAvail = f.c.rxAvail + m.rxBump := by
  have hupd : m.rxBump ≠ 0#32 ∧ f.c.txPending = 0#32 := ⟨hbump, hidle⟩
  simp only [tcpTxProcess, hsync, hupd, ne_eq, not_false_eq_true, and_self, decide_true, if_true,
    txSync, bumpRxAvail]

/-- **Faithfulness of the advertised window**: on every path, precisely on the values of `rx_avail`
    in `WndExact`. -/
theorem advertisedWindow_faithful_iff (e : Emission) (hmax : e.rxAvail.toNat ≤ 0xFFFF * 8)
    (htaken : e.Taken) : e.Faithful ↔ e.WndExact := by
  cases e with
  | ack x p =>
    obtain ⟨hack, hroom⟩ := htaken
    have hhead : (Emission.ack x p).header = some (xdpGenHeaders
        (ackEntry (x.ring.slots x.ring.prod) (ackBp x.c x.ev.timestamp) x.c) p).tcp := by
      simp only [Emission.header, ackEmission_eq hack hroom p, Option.map_some]
    rw [Emission.faithful_iff_of_header hhead]
    exact wndFaithful_ack_iff hmax (decodedWnd_ackEmission _ _ _ _)
  | segment x =>
    rw [Emission.faithful_iff_of_header rfl]
    exact wndFaithful_seg_iff (decodedWnd_sendEp htaken)
  | update f env m ev p =>
    obtain ⟨hsync, hbump, hidle, hts⟩ := htaken
    obtain ⟨htx, havail⟩ := tcpTxProcess_sync env ev p hsync hbump hidle
    have hhead : (Emission.update f env m ev p).header =
        some (tcpTxProcess f env m ev p).pkt.tcp := if_pos htx
    rw [Emission.faithful_iff_of_header hhead]
    refine wndFaithful_seg_iff ?_
    rw [decodedWnd_tcpTxProcess_sync hts hsync htx, havail]
    rfl

def blankPkt : Pkt := { (default : Pkt) with ts := some default }

def ackOf (n : U32) : Emission :=
  .ack { (default : NetCtx) with
    c := { (default : BpfTcpConn) with rxAvail := n }
    io := { (default : IntermOut) with triggerAck := true } } blankPkt

def segmentOf (n : U32) : Emission :=
  .segment { (default : EgressCtx) with
    c := { (default : BpfTcpConn) with rxAvail := n }
    pkt := blankPkt }

def updateOf (n : U32) : Emission :=
  .update default default { (default : TxMeta) with flag := flagSync, rxBump := n } default blankPkt

theorem taken_ackOf (n : U32) : (ackOf n).Taken := by
  have hroom : (default : AckRing).HasRoom := by constructor <;> decide
  exact ⟨rfl, hroom⟩

theorem advertisedWindow_faithful_iff_at :
    (ackOf 74898).Faithful ∧ (segmentOf 65537).Faithful ∧ (updateOf 65537).Faithful :=
  ⟨(advertisedWindow_faithful_iff (ackOf 74898) (by decide) (taken_ackOf _)).mpr
      (by unfold Emission.WndExact ackOf AckWndExact; decide),
   (advertisedWindow_faithful_iff (segmentOf 65537) (by decide) rfl).mpr
      (by unfold Emission.WndExact segmentOf SegWndExact; decide),
   (advertisedWindow_faithful_iff (updateOf 65537) (by decide)
      ⟨by decide, by decide, rfl, rfl⟩).mpr
      (by unfold Emission.WndExact updateOf SegWndExact; decide)⟩

/-- With 1000 free bytes the ACK advertises 8000 bytes, and a segment and a window update
    advertise 232. -/
theorem advertisedWindow_unfaithful :
    ¬ (ackOf 1000).Faithful ∧ ¬ (segmentOf 1000).Faithful ∧ ¬ (updateOf 1000).Faithful := by
  refine ⟨?_, ?_, ?_⟩
  · rintro ⟨h, hh, hfaith⟩
    simp only [ackOf, Emission.header, ackEmission_eq rfl (taken_ackOf 1000).2, Option.map_some,
      Option.some.injEq] at hh
    subst hh
    revert hfaith
    decide
  · rintro ⟨h, hh, hfaith⟩
    cases hh
    revert hfaith
    decide
  · rintro ⟨h, hh, hfaith⟩
    cases hh
    revert hfaith
    decide

/-! ## Answers -/

def Answered (x : NetCtx) : Prop :=
  (dataChain x).ring.prod = ringNext x.ring.prod ∧
    ((dataChain x).ring.slots x.ring.prod).ack = (dataChain x).c.rxNextSeq

/-- What `detect_ooo_data_ep` leaves on record for a payload, and the length of the payload it
    keeps. -/
def recordOoo (c : BpfTcpConn) (seq len : U32) : BpfTcpConn × U32 :=
  if seq = c.rxNextSeq ∨ len = 0#32 then (c, len)
  else if c.rxOooLen = 0#32 then ({ c with rxOooStart := seq, rxOooLen := len }, len)
  else if seq + len = c.rxOooStart then
    ({ c with rxOooStart := seq, rxOooLen := c.rxOooLen + len }, len)
  else if c.rxOooStart + c.rxOooLen = seq then ({ c with rxOooLen := c.rxOooLen + len }, len)
  else (c, 0#32)

def trimmedSegment (c : BpfTcpConn) (ev : NetEvent) : U32 × U32 :=
  (ev.seqNum + rxseqTrimStart c ev.seqNum,
   trimmedLen ev.dataLen (rxseqTrimStart c ev.seqNum) (rxseqTrimEnd c ev.seqNum ev.dataLen))

/-- It overlaps the window, and the payload that is kept does not overtake the interval on record.
    -/
def AnswersSegment (c : BpfTcpConn) (ev : NetEvent) : Prop :=
  rxseqOverlaps c ev.seqNum ev.dataLen = true ∧
    PendingKept (recordOoo c (trimmedSegment c ev).1 (trimmedSegment c ev).2).1
      (recordOoo c (trimmedSegment c ev).1 (trimmedSegment c ev).2).2
deriving Decidable

/-! ## `trigger_ack` along the chain -/

section

variable {x : NetCtx}

theorem detectOooDataEp_record (hskip : x.io.skipDataEps = false) :
    (detectOooDataEp x).c = (recordOoo x.c x.ev.seqNum x.ev.dataLen).1 ∧
      (detectOooDataEp x).ev.dataLen = (recordOoo x.c x.ev.seqNum x.ev.dataLen).2 ∧
      (detectOooDataEp x).io.triggerAck = x.io.triggerAck := by
  unfold detectOooDataEp recordOoo
  rw [if_neg (by simp [hskip])]
  by_cases hseq : x.ev.seqNum = x.c.rxNextSeq
  · simp [hseq]
  · by_cases hlen : x.ev.dataLen = 0#32
    · simp [hseq, hlen]
    · -- out of order with payload: the four ways to record it
      simp only [hseq, hlen, or_self, if_false]
      split_ifs <;> exact ⟨rfl, rfl, rfl⟩

theorem triggerAck_flush (y : NetCtx) : (flushOooDataEp y).io.triggerAck = true ↔
      y.io.triggerAck = true ∧ PendingKept y.c y.ev.dataLen := by
  rw [flushOooDataEp_eq]
  by_cases hlen : y.ev.dataLen = 0#32
  · simp [hlen, PendingKept]
  · rw [if_pos hlen]
    by_cases hooo : y.c.rxOooLen = 0#32
    · simp [hooo, PendingKept]
    · rw [if_pos hooo]
      have hkept : PendingKept y.c y.ev.dataLen ↔ (flushAccept y).oooOverlaps = true := by
        simp only [PendingKept, hlen, hooo, false_or]
        rfl
      rw [hkept]
      cases hover : (flushAccept y).oooOverlaps with
      | true => simp [mergeOoo_of_overlaps (y := { y with c := flushAccept y }) hover]
      | false => simp [mergeOoo_of_stale (y := { y with c := flushAccept y }) hover]

theorem dataNetEp_triggerAck (y : NetCtx) : (dataNetEp y).io.triggerAck = y.io.triggerAck := by
  unfold dataNetEp mtpAddDataSegWrapper
  split_ifs <;> rfl

theorem triggerAck_chain (x : NetCtx) :
    (dataNetEp (flushOooDataEp (detectOooDataEp (verifyTrimDataEp x)))).io.triggerAck = true ↔
      AnswersSegment x.c x.ev := by
  rw [dataNetEp_triggerAck, triggerAck_flush]
  by_cases hover : rxseqOverlaps x.c x.ev.seqNum x.ev.dataLen = true
  · -- in the window: the segment is trimmed and recorded
    have hverify := verifyTrimDataEp_of_some (x := x) (if_pos hover)
    have hskip : (verifyTrimDataEp x).io.skipDataEps = false := by
      rw [verifyTrimDataEp_of_overlaps hover]
    obtain ⟨hc, hlen, hack⟩ := detectOooDataEp_record hskip
    rw [hc, hlen, hack, hverify.2, hverify.1, verifyTrimDataEp_c]
    simp only [AnswersSegment, hover, true_and]
    rfl
  · -- outside of it: `trigger_ack` is taken back at once
    have hnone : (verifyTrimDataEp x).io.triggerAck = false ∧
        (verifyTrimDataEp x).io.skipDataEps = true := by
      rw [verifyTrimDataEp_of_rejected hover]
      exact ⟨rfl, rfl⟩
    have hdetect : detectOooDataEp (verifyTrimDataEp x) = verifyTrimDataEp x := by
      rw [detectOooDataEp, if_pos hnone.2]
    rw [hdetect, hnone.1]
    simp [AnswersSegment, hover]

/-! ## The ring along the chain -/

theorem ring_before_sendAck (x : NetCtx) :
    (dataNetEp (flushOooDataEp (detectOooDataEp (verifyTrimDataEp x)))).ring = x.ring :=
  congrArg Prod.snd (shared_before_sendAck x)

theorem sendAck_queues_iff {y : NetCtx} (hroom : y.ring.HasRoom) :
    ((sendAck y).ring.prod = ringNext y.ring.prod ∧
      ((sendAck y).ring.slots y.ring.prod).ack = (sendAck y).c.rxNextSeq) ↔
    y.io.triggerAck = true := by
  obtain ⟨hprod, hcons⟩ := hroom
  by_cases hack : y.io.triggerAck = true
  · simp [sendAck, hack, mtpPktGenForXdpGen, hcons, AckRing.lookup, hprod, AckRing.write, ackEntry,
      ackBp]
  · -- otherwise the producer index stays
    have hkeep : sendAck y = y := by rw [sendAck, if_neg hack]
    rw [hkeep]
    simp [hack, (ringNext_ne_self hprod).symm]

end

/-! ## The exact condition -/

/-- **A segment with payload is acknowledged precisely when it overlaps the window and does not
    overtake the interval.** -/
theorem answered_iff {x : NetCtx} (hroom : x.ring.HasRoom) :
    Answered x ↔ AnswersSegment x.c x.ev := by
  have hring := ring_before_sendAck x
  rw [← triggerAck_chain, ← sendAck_queues_iff (by rw [hring]; exact hroom), hring]
  exact Iff.rfl

def expecting100 (oooStart oooLen : U32) : BpfTcpConn :=
  { (default : BpfTcpConn) with
    rxNextSeq := 100#32, rxAvail := 1000#32, rxOooStart := oooStart, rxOooLen := oooLen }

def handed (c : BpfTcpConn) (seq len : U32) : NetCtx :=
  { (default : NetCtx) with
    c := c, ev := { (default : NetEvent) with seqNum := seq, dataLen := len } }

theorem answered_gap : Answered (handed (expecting100 130#32 20#32) 100#32 30#32) :=
  (answered_iff ⟨by decide, by decide⟩).mpr (by decide)

/-- The sender repeats the last hundred bytes, because the ACK for them was lost: no ACK. -/
theorem repeated_segment_unanswered :
    (handed (expecting100 0#32 0#32) 0#32 100#32).ring.HasRoom ∧
      ¬ Answered (handed (expecting100 0#32 0#32) 0#32 100#32) := by
  constructor
  · exact ⟨by decide, by decide⟩
  · unfold Answered
    decide

open MtpXdp.Core Option

/-! ## Packets and the ring -/

def ceMarked (ip : IpHdr) : Bool := ip.tos &&& 3#8 == 3#8

structure RxPacket where
  ip : IpHdr
  tcp : TcpHdr
  ts : TsOpt
  now : U32
  flow : Flow
  io : IntermOut
  md : RxMeta
  ktime : U64
deriving Inhabited

def RxPacket.process (g : RxPacket) (ring : AckRing) : NetCtx :=
  (tcpRxProcess g.now
    { ev := parsePktToEvent g.ip g.tcp g.ts, c := g.flow.c, io := g.io, md := g.md,
      cc := g.flow.cc, ring := ring, ktime := g.ktime }).1

/-- The ring of a CPU. `cause i` is the mark of the segment whose ACK was stored in slot `i`. -/
structure EchoState where
  ring : AckRing
  cause : U32 → Option Bool

def EchoState.boot : EchoState := { ring := default, cause := fun _ => none }

inductive EchoEvent where
  | packet (g : RxPacket)
  | emit (template : Pkt)

def ackStored (before after : AckRing) : Bool :=
  decide (after.prod ≠ before.prod ∧ before.cons ≠ ringNext before.prod)

def echoStep (s : EchoState) : EchoEvent → EchoState
  | .packet g =>
    { ring := (g.process s.ring).ring
      cause := if ackStored s.ring (g.process s.ring).ring then
          fun i => if i = s.ring.prod then some (ceMarked g.ip) else s.cause i
        else s.cause }
  | .emit template => { s with ring := (xdpGenProg s.ring template).2 }

def EchoOk (s : EchoState) : EchoEvent → Prop
  | .packet _ => True
  | .emit template => ∀ p mark, (xdpGenProg s.ring template).1 = some p →
      s.cause s.ring.cons = some mark → p.tcp.ece = mark

/-- The condition on an emission: the ACK at the head of the ring does not answer a marked
    segment. -/
def UnmarkedCause (s : EchoState) : EchoEvent → Prop
  | .packet _ => True
  | .emit template =>
    (xdpGenProg s.ring template).1 ≠ none → s.cause s.ring.cons ≠ some true

instance (s : EchoState) (e : EchoEvent) : Decidable (UnmarkedCause s e) := by
  unfold UnmarkedCause
  split <;> infer_instance

/-! ## Nothing writes `ecn_flags` -/

theorem ackChain_ring (x : NetCtx) : (ackChain x).ring = x.ring := by
  have hfast : (fastRetrRecEp x).ring = x.ring := by
    unfold fastRetrRecEp
    dsimp only
    split_ifs <;> rfl
  have hflush (n : U32) (y : NetCtx) : (mtpTxDataFlush n y).ring = y.ring := by
    unfold mtpTxDataFlush
    split <;> rfl
  have hnet (y : NetCtx) : (ackNetEp y).ring = y.ring := by
    unfold ackNetEp
    by_cases hthird : y.c.rxDupackCnt = 3#16
    · rw [if_pos hthird]
    · rw [if_neg hthird, hflush]
      cases y.io.drop <;> rfl
  rw [ackChain, hnet, hfast]

theorem mtpPktGenForXdpGen_ecnFlags (bp : TCPBP) (c : BpfTcpConn) (r : AckRing) (i : U32) :
    ((mtpPktGenForXdpGen bp c r).2.slots i).ecnFlags = (r.slots i).ecnFlags := by
  unfold mtpPktGenForXdpGen
  split_ifs
  · rfl
  · cases hold : r.lookup r.prod with
    | none => rfl
    | some old =>
      -- the entry that is written over is the one in the slot
      have hslot : old = r.slots r.prod := by
        simp only [AckRing.lookup] at hold
        split at hold
        · exact (some.inj hold).symm
        · cases hold
      by_cases hi : i = r.prod <;> simp [AckRing.write, ackEntry, hslot, hi]

theorem dataChain_ecnFlags (x : NetCtx) (i : U32) :
    ((dataChain x).ring.slots i).ecnFlags = (x.ring.slots i).ecnFlags := by
  rw [dataChain, ← ring_before_sendAck x]
  unfold sendAck
  split_ifs
  · exact mtpPktGenForXdpGen_ecnFlags _ _ _ i
  · rfl

theorem tcpRxProcess_ecnFlags (now : U32) (x : NetCtx) (i : U32) :
    ((tcpRxProcess now x).1.ring.slots i).ecnFlags = (x.ring.slots i).ecnFlags := by
  unfold tcpRxProcess
  dsimp only
  split
  · rw [ackChain_ring]
  · rw [dataChain_ecnFlags]

theorem xdpGenProg_slots (r : AckRing) (p : Pkt) : (xdpGenProg r p).2.slots = r.slots := by
  unfold xdpGenProg dequeueAck
  split_ifs <;> rfl

/-! ## Runs -/

def NoEcnFlags (s : EchoState) : Prop := ∀ i, (s.ring.slots i).ecnFlags = 0#8

theorem NoEcnFlags.step {s : EchoState} (h : NoEcnFlags s) (e : EchoEvent) :
    NoEcnFlags (echoStep s e) := by
  intro i
  cases e with
  | packet g => exact (tcpRxProcess_ecnFlags _ _ i).trans (h i)
  | emit template =>
    simp only [echoStep, xdpGenProg_slots]
    exact h i

theorem NoEcnFlags.emitted {s : EchoState} (h : NoEcnFlags s) {template p : Pkt}
    (hp : (xdpGenProg s.ring template).1 = some p) : p.tcp.ece = false := by
  unfold xdpGenProg dequeueAck AckRing.lookup at hp
  split_ifs at hp
  · cases hp
    simp [xdpGenHeaders, h s.ring.cons]
  · cases hp

theorem NoEcnFlags.echoOk_iff {s : EchoState} (h : NoEcnFlags s) (e : EchoEvent) :
    EchoOk s e ↔ UnmarkedCause s e := by
  cases e with
  | packet g => exact Iff.rfl
  | emit template =>
    constructor
    · -- a marked segment's ACK would have to carry ECE
      intro hok hsome hmark
      obtain ⟨p, hp⟩ := ne_none_iff_exists'.mp hsome
      have hece := hok p true hp hmark
      rw [h.emitted hp] at hece
      cases hece
    · intro hun p mark hp hcause
      cases mark with
      | false => exact h.emitted hp
      | true => exact absurd hcause (hun (by rw [hp]; exact some_ne_none p))

/-- **The echo is right precisely for the ACKs of unmarked segments.** -/
theorem ecnEcho_iff (es : List EchoEvent) :
    Meets echoStep EchoOk .boot es ↔ Meets echoStep UnmarkedCause .boot es :=
  meets_iff_of_inv (fun _ e h _ => NoEcnFlags.step h e) (fun _ e h => NoEcnFlags.echoOk_iff h e)
    (fun _ => rfl)

def markedSegment : RxPacket :=
  { (default : RxPacket) with
    ip := { (default : IpHdr) with tos := 3#8, totLen := bpfHtons 152#32 }
    flow := { (default : Flow) with c := { (default : BpfTcpConn) with rxAvail := 1000#32 } } }

/-- The ACK for a marked segment does not carry ECE. -/
theorem marked_segment_not_echoed :
    ¬ Meets echoStep EchoOk .boot [.packet markedSegment, .emit default] := by
  rintro ⟨-, hemit, -⟩
  have hcause : (echoStep .boot (.packet markedSegment)).cause
      (echoStep .boot (.packet markedSegment)).ring.cons = some true := by decide
  have hsome : (xdpGenProg (echoStep .boot (.packet markedSegment)).ring default).1.isSome := by
    decide
  obtain ⟨p, hp⟩ := isSome_iff_exists.mp hsome
  have hflag : (xdpGenProg (echoStep .boot (.packet markedSegment)).ring default).1.map
      (fun p => p.tcp.ece) = some false := by decide
  rw [hp, map_some, hemit p true hp hcause] at hflag
  cases hflag

end MtpXdp.Ebpf

import MtpXdp.Core.Run
import MtpXdp.Lib.Peek
import MtpXdp.Ebpf.FrameBounds
import MtpXdp.Lib.ConnView

/-!
# Positions and Credit of Received Packets

`mtp_add_data_seg_wrapper` turns the offset of a packet in the stream into a position in the receive
buffer, the offset modulo the buffer size as long as `rx_next_pos` and `last_offset` stay congruent.
They do not after a packet that fills a hole, which moves `rx_next_pos` by the bytes credited and
`last_offset` by its own distance. The size for wrapping is a constant.

The eBPF chain and the library reassemble the stream twice: the chain moves `rx_next_seq`, the
library `expected_seq`. They part with the first segment that is not in order: `flush_ooo_data_ep`
moves `rx_next_seq` over every payload, also over one that was rejected.
-/

namespace MtpXdp.Lib

open MtpXdp.Core Ebpf BitVec

/-! ## Calls -/

structure FileCall where
  conn : EtranConn
  addr : U64
  bump : U64
  pkt : RxPkt

def fileCall (m : MtpThread) (e : FileCall) : Filed := filePkt m e.pkt e.conn e.addr e.bump

def fileStep (m : MtpThread) (e : FileCall) : MtpThread := (fileCall m e).mtp

def RxPkt.startSeq (p : RxPkt) : U32 := (parsePacket p (p.md.plen.setWidth 32)).1
def RxPkt.endSeq (p : RxPkt) : U32 := (parsePacket p (p.md.plen.setWidth 32)).2

/-- The packet comes from `data_net_ep`: it carries the offset of its first byte. -/
def RxPkt.OfStream (initSeq : U32) (p : RxPkt) : Prop := p.md.rxPos = p.startSeq - initSeq
deriving Decidable

def Accepted (m : MtpThread) (p : RxPkt) : Prop :=
  m.followingPackets = false ∨ m.expectedSeq = p.startSeq ∨ m.oooLen = 0#32 ∨
    p.endSeq = m.oooStart ∨ m.oooStart + m.oooLen = p.startSeq
deriving Decidable

def FillsHole (m : MtpThread) (p : RxPkt) : Prop :=
  m.oooLen > 0#32 ∧ p.endSeq = m.oooStart
deriving Decidable

def PositionLaw (initSeq : U32) (m : MtpThread) (e : FileCall) : Prop :=
  Accepted m e.pkt → (fileCall m e).pkt.md.rxPos.toNat =
    (e.pkt.startSeq - initSeq).toNat % e.conn.rxBufSize.toNat
deriving Decidable

/-! ## Conditions -/

def rawPos (m : MtpThread) (p : RxPkt) : U32 := m.rxNextPos + (p.md.rxPos - m.lastOffset)

/-- A first packet starts the buffer; a later one is less than two rounds ahead, at one position in
    both sizes. -/
def Fits (m : MtpThread) (e : FileCall) : Prop :=
  (m.followingPackets = false → e.pkt.md.rxPos.toNat % e.conn.rxBufSize.toNat = 0) ∧
  (m.followingPackets = true → (rawPos m e.pkt).toNat < 2 * posModulus ∧
    e.pkt.md.rxPos.toNat % posModulus = e.pkt.md.rxPos.toNat % e.conn.rxBufSize.toNat)
deriving Decidable

/-- A first packet is at the beginning, one in order less than two rounds ahead, one that fills the
    hole credits its distance. -/
def Keeps (m : MtpThread) (e : FileCall) : Prop :=
  (m.followingPackets = false → e.pkt.md.rxPos.toNat % posModulus = 0) ∧
  (m.followingPackets = true → m.expectedSeq = e.pkt.startSeq →
    (rawPos m e.pkt).toNat < 2 * posModulus ∧
      (FillsHole m e.pkt → e.pkt.md.plen.setWidth 32 + m.oooLen = e.pkt.md.rxPos - m.lastOffset))
deriving Decidable

/-! ## The invariant -/

structure Aligned (m : MtpThread) : Prop where
  start : m.followingPackets = false → m.rxNextPos = 0#32
  size : m.followingPackets = true → m.rxBufSize = mtpRxBufSize
  congr : m.followingPackets = true → m.rxNextPos.toNat = m.lastOffset.toNat % posModulus

section

variable {m : MtpThread} {p : RxPkt}

theorem toNat_mtpRxBufSize : mtpRxBufSize.toNat = posModulus := rfl

theorem toNat_wrapPos (pos : U32) : (wrapPos mtpRxBufSize pos).toNat =
      if posModulus ≤ pos.toNat then pos.toNat - posModulus else pos.toNat := by
  have hiff : pos ≥ mtpRxBufSize ↔ posModulus ≤ pos.toNat := by
    rw [ge_iff_le, le_def, toNat_mtpRxBufSize]
  unfold wrapPos
  simp only [hiff]
  split_ifs with h
  · rw [toNat_sub, toNat_mtpRxBufSize]
    omega
  · rfl

section

variable (h : Aligned m) (hfollow : m.followingPackets = true)
include h hfollow

theorem Aligned.rawPos_mod : (rawPos m p).toNat % posModulus = p.md.rxPos.toNat % posModulus := by
  have hcongr := h.congr hfollow
  unfold rawPos
  rw [toNat_add, toNat_sub, hcongr]
  unfold posModulus
  omega

theorem Aligned.rxPosOf_iff : (rxPosOf m p.md.rxPos).toNat = p.md.rxPos.toNat % posModulus ↔
      (rawPos m p).toNat < 2 * posModulus := by
  have hmod := h.rawPos_mod (p := p) hfollow
  have hvalue : rxPosOf m p.md.rxPos = wrapPos mtpRxBufSize (rawPos m p) := by
    rw [rxPosOf, h.size hfollow, rawPos]
  rw [hvalue, toNat_wrapPos, ← hmod]
  unfold posModulus
  split_ifs <;> omega

theorem Aligned.le_rxPosOf
    (hfar : ¬ (rawPos m p).toNat < 2 * posModulus) : posModulus ≤ (rxPosOf m p.md.rxPos).toNat := by
  have hvalue : rxPosOf m p.md.rxPos = wrapPos mtpRxBufSize (rawPos m p) := by
    rw [rxPosOf, h.size hfollow, rawPos]
  rw [hvalue, toNat_wrapPos]
  split_ifs <;> omega

end

end

/-! ## One call -/

section

variable {m : MtpThread} {e : FileCall}

theorem fileCall_eq (m : MtpThread) (e : FileCall) :
    fileCall m e = mtpAddDataSegWrapper m e.pkt e.pkt.startSeq e.pkt.endSeq
      (e.pkt.md.plen.setWidth 32) e.conn e.addr e.bump e.pkt.md.rxPos := rfl

theorem fileCall_of_first (h : m.followingPackets = false) :
    fileCall m e = fileFirst m e.pkt e.pkt.endSeq (e.pkt.md.plen.setWidth 32) e.conn e.addr e.bump
      e.pkt.md.rxPos := by
  rw [fileCall_eq, mtpAddDataSegWrapper, if_pos (by rw [h]; decide)]

theorem fileCall_of_inOrder (h : m.followingPackets = true)
    (hseq : m.expectedSeq = e.pkt.startSeq) :
    fileCall m e = if FillsHole m e.pkt then
        fileClosing m e.pkt (e.pkt.md.plen.setWidth 32) e.conn e.addr e.bump e.pkt.md.rxPos
      else fileInOrder m e.pkt (e.pkt.md.plen.setWidth 32) e.conn e.addr e.bump e.pkt.md.rxPos := by
  rw [fileCall_eq, mtpAddDataSegWrapper, if_neg (not_not.mpr h), if_pos hseq]
  rfl

theorem fileCall_of_outOfOrder (h : m.followingPackets = true)
    (hseq : m.expectedSeq ≠ e.pkt.startSeq) :
    fileCall m e = fileOutOfOrder m e.pkt e.pkt.startSeq e.pkt.endSeq (e.pkt.md.plen.setWidth 32)
      e.conn e.addr e.bump e.pkt.md.rxPos := by
  rw [fileCall_eq, mtpAddDataSegWrapper, if_neg (not_not.mpr h), if_neg hseq]

theorem fileCall_rxPos (h : m.followingPackets = true) (hacc : Accepted m e.pkt) :
    (fileCall m e).pkt.md.rxPos = rxPosOf m e.pkt.md.rxPos := by
  by_cases hseq : m.expectedSeq = e.pkt.startSeq
  · rw [fileCall_of_inOrder h hseq]
    split_ifs <;> rfl
  · rw [fileCall_of_outOfOrder h hseq]
    unfold fileOutOfOrder
    split_ifs with h0 hfront hback
    · rfl
    · rfl
    · rfl
    · -- left alone
      exfalso
      rcases hacc with hacc | hacc | hacc | hacc | hacc
      · rw [h] at hacc
        cases hacc
      · exact hseq hacc
      · exact h0 hacc
      · exact hfront hacc
      · exact hback hacc

theorem fileCall_rxPos_first (h : m.followingPackets = false) (hinv : Aligned m) :
    (fileCall m e).pkt.md.rxPos = 0#32 := by
  rw [fileCall_of_first h]
  unfold fileFirst rxPosOf RxPkt.setPos
  dsimp only
  rw [hinv.start h, BitVec.sub_self]
  rfl

theorem aligned_step (h : Aligned m) (hkeeps : Keeps m e) : Aligned (fileStep m e) := by
  unfold fileStep
  cases hfollow : m.followingPackets with
  | false =>
    have hfirst := hkeeps.1 hfollow
    rw [fileCall_of_first hfollow]
    refine ⟨fun h0 => absurd h0 Bool.noConfusion, fun _ => rfl, fun _ => ?_⟩
    change m.rxNextPos.toNat = e.pkt.md.rxPos.toNat % posModulus
    rw [h.start hfollow, hfirst]
    rfl
  | true =>
    have hsize := h.size hfollow
    by_cases hseq : m.expectedSeq = e.pkt.startSeq
    · obtain ⟨hnear, hfill⟩ := hkeeps.2 hfollow hseq
      have hpos := (h.rxPosOf_iff (p := e.pkt) hfollow).mpr hnear
      rw [fileCall_of_inOrder hfollow hseq]
      -- both branches move `rx_next_pos` to the position that is stored
      split_ifs with hhole
      · refine ⟨fun h0 => ?_, fun _ => hsize, fun _ => ?_⟩
        · exact absurd (h0.symm.trans hfollow) Bool.noConfusion
        · change (wrapPos m.rxBufSize
            (m.rxNextPos + (e.pkt.md.plen.setWidth 32 + m.oooLen))).toNat = _
          rw [hfill hhole]
          exact hpos
      · refine ⟨fun h0 => ?_, fun _ => hsize, fun _ => hpos⟩
        exact absurd (h0.symm.trans hfollow) Bool.noConfusion
    · rw [fileCall_of_outOfOrder hfollow hseq]
      have hcongr := h.congr hfollow
      unfold fileOutOfOrder
      -- the out-of-order interval is all that changes
      split_ifs <;>
        exact ⟨fun h0 => absurd (h0.symm.trans hfollow) Bool.noConfusion, fun _ => hsize,
          fun _ => hcongr⟩

theorem positionLaw_iff_of_aligned {initSeq : U32} (h : Aligned m)
    (hsize : 0 < e.conn.rxBufSize.toNat ∧ e.conn.rxBufSize.toNat ≤ posModulus)
    (hstream : e.pkt.OfStream initSeq) :
    PositionLaw initSeq m e ↔ (Accepted m e.pkt → Fits m e) := by
  apply forall_congr'
  intro hacc
  rw [← show e.pkt.md.rxPos = e.pkt.startSeq - initSeq from hstream]
  cases hfollow : m.followingPackets with
  | false =>
    rw [fileCall_rxPos_first hfollow h]
    constructor
    · intro hzero
      exact ⟨fun _ => hzero.symm, fun h0 => absurd (hfollow.symm.trans h0) Bool.noConfusion⟩
    · intro hfits
      exact (hfits.1 hfollow).symm
  | true =>
    rw [fileCall_rxPos hfollow hacc]
    have hiff := h.rxPosOf_iff (p := e.pkt) hfollow
    have hlt := Nat.mod_lt e.pkt.md.rxPos.toNat hsize.1
    constructor
    · intro hpos
      have hnear : (rawPos m e.pkt).toNat < 2 * posModulus := by
        by_contra hfar
        have hout := h.le_rxPosOf hfollow hfar
        omega
      refine ⟨fun h0 => absurd (h0.symm.trans hfollow) Bool.noConfusion, fun _ => ⟨hnear, ?_⟩⟩
      rw [← hiff.mpr hnear, hpos]
    · intro hfits
      obtain ⟨hnear, hsame⟩ := hfits.2 hfollow
      rw [hiff.mpr hnear, hsame]

end

/-! ## Runs -/

theorem aligned_of_fresh {m : MtpThread} (hfresh : m.followingPackets = false)
    (hpos : m.rxNextPos = 0#32) : Aligned m :=
  ⟨fun _ => hpos, fun h => absurd (hfresh.symm.trans h) Bool.noConfusion,
    fun h => absurd (hfresh.symm.trans h) Bool.noConfusion⟩

/-- **The position law** while `rx_next_pos` and `last_offset` are in step: a position is the offset
    modulo the buffer size iff the packet fits. -/
theorem positionLaw_iff {initSeq : U32} {m : MtpThread} {es : List FileCall} {e : FileCall}
    (hfresh : m.followingPackets = false) (hpos : m.rxNextPos = 0#32)
    (hsize : 2048 ≤ e.conn.rxBufSize.toNat ∧ e.conn.rxBufSize.toNat ≤ 524288)
    (hstream : e.pkt.OfStream initSeq) (hkeeps : Meets fileStep Keeps m es) :
    PositionLaw initSeq (run fileStep m es) e ↔
      (Accepted (run fileStep m es) e.pkt → Fits (run fileStep m es) e) := by
  have haligned : Aligned (run fileStep m es) :=
    run_of_meets (fun _ _ => aligned_step) (aligned_of_fresh hfresh hpos) hkeeps
  have hbounds : 0 < e.conn.rxBufSize.toNat ∧ e.conn.rxBufSize.toNat ≤ posModulus :=
    ⟨Nat.lt_of_lt_of_le (by decide) hsize.1, hsize.2⟩
  exact positionLaw_iff_of_aligned haligned hbounds hstream

def callAt (size : U32) (off : U32) (len : U16) : FileCall where
  conn := { (default : EtranConn) with rxBufSize := size }
  addr := 0#64
  bump := 0#64
  pkt :=
    { md := { (default : RxMeta) with rxPos := off, poff := 66#16, plen := len }
      tcpSeq := bpfHtonl off
      frame := [] }

theorem positionLaw_iff_held :
    PositionLaw 0#32 (run fileStep default [callAt 2048#32 0#32 10#16, callAt 2048#32 20#32 10#16])
        (callAt 2048#32 10#32 10#16) ↔
      (Accepted (run fileStep default [callAt 2048#32 0#32 10#16, callAt 2048#32 20#32 10#16])
          (callAt 2048#32 10#32 10#16).pkt →
        Fits (run fileStep default [callAt 2048#32 0#32 10#16, callAt 2048#32 20#32 10#16])
          (callAt 2048#32 10#32 10#16)) :=
  positionLaw_iff rfl rfl (by decide) (by decide) (by decide)

/-! ## Off the law -/

def holeFilled : MtpThread :=
  run fileStep default
    [callAt 524288#32 0#32 10#16, callAt 524288#32 20#32 10#16, callAt 524288#32 10#32 10#16]

/-- After the hole is filled, byte 30 is at position 40; in a smaller buffer positions run past its
    end; a first packet is always at `0`. -/
theorem position_off_after_hole :
    (fileCall holeFilled (callAt 524288#32 30#32 10#16)).pkt.md.rxPos = 40#32 ∧
      ¬ PositionLaw 0#32 holeFilled (callAt 524288#32 30#32 10#16) ∧
      ¬ PositionLaw 0#32 (run fileStep default [callAt 2048#32 0#32 2048#16])
        (callAt 2048#32 2048#32 10#16) ∧
      ¬ PositionLaw 0#32 default (callAt 524288#32 10#32 10#16) := by
  decide

/-! ## A segment through both layers -/

structure Arrival (conn : U64) where
  ip : IpHdr
  tcp : TcpHdr
  ts : TsOpt
  env : NetEnv
  cc : BpfCc
  addr : U64
  frame : List U8
  last : Bool
  /-- `tot_len` counts the headers. -/
  whole : 52 ≤ (bpfNtohs ip.totLen).toNat
  /-- `xdp_sock_prog` has looked up the connection and noted the queue. -/
  addressed : env.md.conn = conn
  queued : env.md.qid ≠ poison32

section

variable {conn : U64} (e : Arrival conn)

def Arrival.event : NetEvent := parsePktToEvent e.ip e.tcp e.ts

def Arrival.ctx (c : BpfTcpConn) : NetCtx := Flow.net { c := c, cc := e.cc } e.event e.env

def Arrival.seq : U32 := e.event.seqNum
def Arrival.len : U32 := e.event.dataLen

def Arrival.frameOf (c : BpfTcpConn) : RxPkt where
  md := (dataChain (e.ctx c)).md
  tcpSeq := e.tcp.seq
  frame := e.frame

theorem Arrival.len_le : e.len.toNat ≤ 65483 := by
  have hlt := bpfNtohs_lt e.ip.totLen
  have hlen : e.len.toNat = (bpfNtohs e.ip.totLen).toNat - 52 :=
    toNat_dataLen e.ip e.tcp e.ts e.whole
  omega

variable {c : BpfTcpConn} {e}

theorem Arrival.covers_of_inOrder (hseq : e.seq = c.rxNextSeq) (hlen : e.len ≠ 0#32) :
    Covers c e.seq e.len := by
  rw [Covers, hseq, ahead_self]
  exact ⟨Nat.pos_of_ne_zero (fun h0 => hlen (eq_of_toNat_eq h0)), Or.inl rfl⟩

theorem Arrival.acceptedLen_le (h : e.len = 0#32 ∨ Covers c e.seq e.len) :
    (acceptedLen c e.seq e.len).toNat ≤ 65483 := by
  have hle := e.len_le
  rcases h with hempty | hcov
  · rw [acceptedLen, if_pos hempty]
    exact Nat.zero_le _
  · rw [toNat_acceptedLen_of_covers hcov]
    omega

theorem Arrival.frameOf_plen (h : e.len = 0#32 ∨ Covers c e.seq e.len)
    (hplen : (e.frameOf c).md.plen = (acceptedLen c e.seq e.len).setWidth 16) :
    (e.frameOf c).md.plen.setWidth 32 = acceptedLen c e.seq e.len ∧
      (e.frameOf c).md.plen ≠ poison16 := by
  have hle := acceptedLen_le h
  have hwide : (e.frameOf c).md.plen.setWidth 32 = acceptedLen c e.seq e.len := by
    rw [hplen]
    apply eq_of_toNat_eq
    rw [toNat_setWidth, toNat_setWidth]
    omega
  refine ⟨hwide, ?_⟩
  intro hp
  rw [← hwide, hp] at hle
  exact absurd hle (by decide)

theorem Arrival.frameOf_startSeq (hsmall : headersLen + ahead e.seq c.rxNextSeq < 65536)
    (hpoff : (e.frameOf c).md.poff =
      (BitVec.ofNat 32 headersLen + (c.rxNextSeq - e.seq)).setWidth 16) :
    (e.frameOf c).startSeq = c.rxNextSeq := by
  have hoff : (c.rxNextSeq - e.seq).toNat = ahead e.seq c.rxNextSeq := rfl
  have hwide : (e.frameOf c).md.poff.setWidth 32 =
      BitVec.ofNat 32 headersLen + (c.rxNextSeq - e.seq) := by
    apply eq_of_toNat_eq
    rw [hpoff, toNat_setWidth, toNat_setWidth, toNat_add, hoff]
    simp only [toNat_ofNat, headersLen, tsOptSize] at hsmall ⊢
    omega
  change e.seq + ((e.frameOf c).md.poff.setWidth 32 - BitVec.ofNat 32 headersLen) = _
  rw [hwide, BitVec.add_comm (BitVec.ofNat 32 headersLen), BitVec.add_sub_cancel, BitVec.add_comm,
    BitVec.sub_add_cancel]

theorem Arrival.frameOf_addressed :
    (e.frameOf c).md.conn = conn ∧ (e.frameOf c).md.qid ≠ poison32 := by
  obtain ⟨hconn, hqid⟩ := dataChain_addressee (x := e.ctx c)
  exact ⟨hconn.trans e.addressed, hqid.symm ▸ e.queued⟩

end

structure Path where
  c : BpfTcpConn
  thread : Thread

def pathStep {conn : U64} (s : Path) (e : Arrival conn) : Path where
  c := (dataChain (e.ctx s.c)).c
  thread :=
    if (dataChain (e.ctx s.c)).io.drop then s.thread
    else (handleRx s.thread e.addr (e.frameOf s.c) e.last).1

structure CreditAgrees (conn : U64) (s : Path) : Prop where
  expected : s.thread.tctx.mtp.expectedSeq = s.c.rxNextSeq
  credited : credit s.thread conn = s.c.rxNextSeq - s.c.recvInitSeq

instance (conn : U64) (s : Path) : Decidable (CreditAgrees conn s) :=
  decidable_of_iff (s.thread.tctx.mtp.expectedSeq = s.c.rxNextSeq ∧
      credit s.thread conn = s.c.rxNextSeq - s.c.recvInitSeq)
    ⟨fun h => ⟨h.1, h.2⟩, fun h => ⟨h.expected, h.credited⟩⟩

/-- A first segment starts at `rx_next_seq` and fits in part; a later one is empty or contains the
    next byte, at a 16 bit offset. -/
def InStep {conn : U64} (s : Path) (e : Arrival conn) : Prop :=
  (s.thread.tctx.mtp.followingPackets = false →
    e.seq = s.c.rxNextSeq ∧ e.len ≠ 0#32 ∧ s.c.rxAvail ≠ 0#32) ∧
  (s.thread.tctx.mtp.followingPackets = true →
    e.len = 0#32 ∨ Covers s.c e.seq e.len ∧ headersLen + ahead e.seq s.c.rxNextSeq < 65536)
deriving Decidable

/-! ## One segment -/

structure PathInv (conn : U64) (s : Path) : Prop where
  oooLen : s.c.rxOooLen = 0#32
  held : s.thread.tctx.mtp.oooLen = 0#32
  expected : s.thread.tctx.mtp.followingPackets = true →
    s.thread.tctx.mtp.expectedSeq = s.c.rxNextSeq
  credited : credit s.thread conn = s.c.rxNextSeq - s.c.recvInitSeq

section

variable {conn : U64} {s : Path} {e : Arrival conn}

theorem InStep.empty_or_covers (h : InStep s e) :
    e.len = 0#32 ∨ Covers s.c e.seq e.len ∧ headersLen + ahead e.seq s.c.rxNextSeq < 65536 := by
  cases hfollow : s.thread.tctx.mtp.followingPackets with
  | false =>
    obtain ⟨hseq, hlen, -⟩ := h.1 hfollow
    refine .inr ⟨Arrival.covers_of_inOrder hseq hlen, ?_⟩
    rw [hseq, ahead_self]
    decide
  | true => exact h.2 hfollow

theorem packet_of_poison (v : ConnView) {p : RxPkt} (hplen : p.md.plen = poison16) :
    (v.packet p).1.mtp = v.mtp ∧ (v.packet p).1.credit = v.credit := by
  unfold ConnView.packet ConnView.clearOoo
  split_ifs <;> exact ⟨rfl, rfl⟩

theorem packet_of_inOrder (v : ConnView) {p : RxPkt} (hqid : p.md.qid ≠ poison32)
    (hplen : p.md.plen ≠ poison16) (hheld : v.mtp.oooLen = 0#32)
    (hseq : v.mtp.followingPackets = true → v.mtp.expectedSeq = p.startSeq) :
    (v.packet p).1.mtp.oooLen = 0#32 ∧ (v.packet p).1.mtp.followingPackets = true ∧
      (v.packet p).1.mtp.expectedSeq =
        (if v.mtp.followingPackets then v.mtp.expectedSeq + p.md.plen.setWidth 32 else p.endSeq) ∧
      (v.packet p).1.credit = v.credit + p.md.plen.setWidth 32 := by
  have hpacket : (v.packet p).1 = (v.file p).1 := by
    rw [ConnView.packet, if_neg hqid, if_neg hplen]
  have hbump : ((0#64 + (p.md.plen.setWidth 32).setWidth 64 : U64).setWidth 32) =
      p.md.plen.setWidth 32 := by
    simp
  let call : FileCall := { conn := v.toConn, addr := 0#64, bump := 0#64, pkt := p }
  have hfile : (v.file p).1.mtp = (fileCall v.mtp call).mtp ∧
      (v.file p).1.credit = v.credit + (fileCall v.mtp call).bump.setWidth 32 := ⟨rfl, rfl⟩
  rw [hpacket, hfile.1, hfile.2]
  cases hfollow : v.mtp.followingPackets with
  | false =>
    rw [fileCall_of_first (e := call) hfollow]
    exact ⟨hheld, rfl, rfl, congrArg (v.credit + ·) hbump⟩
  | true =>
    have hhole : ¬ FillsHole v.mtp call.pkt := by
      rw [FillsHole, hheld]
      exact fun h => absurd h.1 (by decide)
    rw [fileCall_of_inOrder (e := call) hfollow (hseq hfollow), if_neg hhole]
    exact ⟨hheld, hfollow, rfl, congrArg (v.credit + ·) hbump⟩

theorem InStep.accepted_of_first (h : InStep s e)
    (hfirst : s.thread.tctx.mtp.followingPackets = false) : acceptedLen s.c e.seq e.len ≠ 0#32 := by
  obtain ⟨hseq, hlen, havail⟩ := h.1 hfirst
  have hpos : e.len.toNat ≠ 0 := fun h0 => hlen (eq_of_toNat_eq h0)
  have hroom : s.c.rxAvail.toNat ≠ 0 := fun h0 => havail (eq_of_toNat_eq h0)
  have hn := toNat_acceptedLen_of_covers (Arrival.covers_of_inOrder hseq hlen)
  intro hzero
  rw [hzero, hseq, ahead_self] at hn
  change 0 = _ at hn
  omega

theorem connView_pathStep (hnull : conn ≠ 0#64) (hpoison : conn ≠ poison64) (h : PathInv conn s)
    (hstep : InStep s e) : (connView conn (pathStep s e).thread).mtp.oooLen = 0#32 ∧
      (connView conn (pathStep s e).thread).mtp.followingPackets = true ∧
      (connView conn (pathStep s e).thread).mtp.expectedSeq =
        s.c.rxNextSeq + acceptedLen s.c e.seq e.len ∧ (connView conn (pathStep s e).thread).credit =
        (connView conn s.thread).credit + acceptedLen s.c e.seq e.len := by
  have hcov := hstep.empty_or_covers
  obtain ⟨hconn, hqid⟩ := e.frameOf_addressed (c := s.c)
  have hview := (connView_handleRx_self s.thread e.addr (e.frameOf s.c) e.last
    (hconn.symm ▸ hnull) (hconn.symm ▸ hpoison)).1
  rw [hconn] at hview
  rcases dataChain_handover (x := e.ctx s.c) (hcov.imp_right And.left) with
    ⟨hzero, hquiet⟩ | ⟨hne, hdrop, hpayload⟩
  · -- nothing is taken: the library has filed a payload before
    have hzero : acceptedLen s.c e.seq e.len = 0#32 := hzero
    have hfollow : s.thread.tctx.mtp.followingPackets = true := by
      by_contra hfirst
      exact hstep.accepted_of_first (Bool.eq_false_of_not_eq_true hfirst) hzero
    have hsame : (connView conn (pathStep s e).thread).mtp = (connView conn s.thread).mtp ∧
        (connView conn (pathStep s e).thread).credit = (connView conn s.thread).credit := by
      unfold pathStep
      split_ifs with hdrop
      · exact ⟨rfl, rfl⟩
      · rw [hview]
        exact packet_of_poison _ (hquiet.resolve_left hdrop)
    rw [hsame.1, hsame.2, hzero, BitVec.add_zero, BitVec.add_zero]
    exact ⟨h.held, hfollow, h.expected hfollow, rfl⟩
  · have hne : acceptedLen s.c e.seq e.len ≠ 0#32 := hne
    obtain ⟨hpoff, hplen⟩ := Prod.mk.inj hpayload
    obtain ⟨hwide, hreal⟩ := Arrival.frameOf_plen (hcov.imp_right And.left) hplen
    have hsmall : headersLen + ahead e.seq s.c.rxNextSeq < 65536 := by
      rcases hcov with hempty | ⟨-, hsmall⟩
      · exact absurd (by rw [acceptedLen, if_pos hempty]) hne
      · exact hsmall
    have hstart := Arrival.frameOf_startSeq hsmall hpoff
    obtain ⟨hheld, hfollow, hexp, hcredit⟩ := packet_of_inOrder (connView conn s.thread)
      hqid hreal h.held
      (fun hfollow => (h.expected hfollow).trans hstart.symm)
    have hthread : (pathStep s e).thread =
        (handleRx s.thread e.addr (e.frameOf s.c) e.last).1 := by
      unfold pathStep
      rw [hdrop]
      rfl
    rw [hthread, hview, hexp, hcredit, hwide]
    refine ⟨hheld, hfollow, ?_, rfl⟩
    split_ifs with hwas
    · rw [show (connView conn s.thread).mtp.expectedSeq = _ from h.expected hwas]
    · -- the end of the first segment is counted from the header, which is not trimmed
      have hseq := (hstep.1 (Bool.eq_false_of_not_eq_true hwas)).1
      change e.seq + (e.frameOf s.c).md.plen.setWidth 32 = _
      rw [hwide, hseq]

theorem pathInv_step (hnull : conn ≠ 0#64) (hpoison : conn ≠ poison64) (h : PathInv conn s)
    (hstep : InStep s e) : PathInv conn (pathStep s e) ∧ CreditAgrees conn (pathStep s e) := by
  obtain ⟨hheld, -, hexp, hcredit⟩ := connView_pathStep hnull hpoison h hstep
  have hside : (pathStep s e).c.rxSide =
      s.c.rxSide.accept (acceptedLen s.c e.seq e.len) :=
    dataChain_rxSide h.oooLen (hstep.empty_or_covers.imp_right And.left)
  have hnext : (pathStep s e).c.rxNextSeq = s.c.rxNextSeq + acceptedLen s.c e.seq e.len :=
    congrArg RxSide.next hside
  have hinit : (pathStep s e).c.recvInitSeq = s.c.recvInitSeq := congrArg RxSide.initSeq hside
  have hooo : (pathStep s e).c.rxOooLen = s.c.rxOooLen := congrArg RxSide.oooLen hside
  have hagrees : CreditAgrees conn (pathStep s e) := by
    constructor
    · rw [hnext]
      exact hexp
    · rw [hnext, hinit]
      refine hcredit.trans ?_
      rw [show (connView conn s.thread).credit = _ from h.credited]
      bv_omega
  exact ⟨⟨hooo.trans h.oooLen, hheld, fun _ => hagrees.expected, hagrees.credited⟩, hagrees⟩

end

/-! ## Runs -/

structure FreshPath (conn : U64) (s : Path) : Prop where
  next : s.c.rxNextSeq = s.c.recvInitSeq
  oooLen : s.c.rxOooLen = 0#32
  first : s.thread.tctx.mtp.followingPackets = false
  held : s.thread.tctx.mtp.oooLen = 0#32
  credited : credit s.thread conn = 0#32

theorem FreshPath.inv {conn : U64} {s : Path} (h : FreshPath conn s) : PathInv conn s where
  oooLen := h.oooLen
  held := h.held
  expected := fun hfollow => absurd (h.first.symm.trans hfollow) Bool.noConfusion
  credited := by rw [h.credited, h.next, BitVec.sub_self]

/-- **Both sides agree after every packet**, while every segment is in step. -/
theorem creditAgrees_run {conn : U64} (hnull : conn ≠ 0#64) (hpoison : conn ≠ poison64) {s : Path}
    (h : FreshPath conn s) {es : List (Arrival conn)} (hes : Meets pathStep InStep s es) :
    Meets pathStep (fun s e => CreditAgrees conn (pathStep s e)) s es :=
  meets_of_inv (fun _ _ hinv hstep => (pathInv_step hnull hpoison hinv hstep).1)
    (fun _ _ hinv hstep => (pathInv_step hnull hpoison hinv hstep).2) h.inv hes

/-! ### A fresh connection -/

def plainEnv : NetEnv :=
  { (default : NetEnv) with md := { (default : RxMeta) with conn := 1#64, plen := poison16 } }

theorem plainEnv_conn : plainEnv.md.conn = 1#64 := rfl
theorem plainEnv_qid : plainEnv.md.qid ≠ poison32 := by decide

def arrivalAt (seq : U32) (totLen : U16) (hwhole : 52 ≤ (bpfNtohs totLen).toNat) :
    Arrival 1#64 where
  ip := { (default : IpHdr) with totLen := totLen }
  tcp := { (default : TcpHdr) with seq := bpfHtonl seq }
  ts := default
  env := plainEnv
  cc := default
  addr := 0#64
  frame := []
  last := true
  whole := hwhole
  addressed := plainEnv_conn
  queued := plainEnv_qid

theorem hundredBytes_whole : 52 ≤ (bpfNtohs 0x9800#16).toNat := by decide

def hundredAt (seq : U32) : Arrival 1#64 := arrivalAt seq 0x9800#16 hundredBytes_whole

def freshPath : Path where
  c := { (default : BpfTcpConn) with
    rxNextSeq := 1000#32, recvInitSeq := 1000#32, rxAvail := 4096#32 }
  thread := default

theorem freshPath_fresh : FreshPath 1#64 freshPath := ⟨rfl, rfl, rfl, rfl, by decide⟩

theorem creditAgrees_run_overlap :
    Meets pathStep (fun s e => CreditAgrees 1#64 (pathStep s e)) freshPath
      [hundredAt 1000#32, hundredAt 1050#32, hundredAt 1150#32] :=
  creditAgrees_run (by decide) (by decide) freshPath_fresh (by decide +kernel)

/-! ## A segment out of order -/

def reordered : Path := run pathStep freshPath [hundredAt 1000#32, hundredAt 1200#32]

/-- The chain counts the second segment twice, in order and as the interval that follows; the
    library not at all. -/
theorem credit_parts_at_gap :
    reordered.c.rxNextSeq = 1300#32 ∧ reordered.thread.tctx.mtp.expectedSeq = 1100#32 ∧
      credit reordered.thread 1#64 = 100#32 ∧
      ¬ Meets pathStep (fun s e => CreditAgrees 1#64 (pathStep s e)) freshPath
        [hundredAt 1000#32, hundredAt 1200#32] := by
  decide +kernel

end MtpXdp.Lib

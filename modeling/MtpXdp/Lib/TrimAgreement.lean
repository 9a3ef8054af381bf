import MtpXdp.Ebpf.SeqWindow
import MtpXdp.Lib.Receive

/-!
# The Trimmed Interval, Seen from Both Sides

`verify_trim_data_ep` cuts a segment down to the receive window and hands user space an offset and a
length. `parse_packet` recovers the sequence numbers: its start adds the offset back; its end is
counted from the header's sequence number and so forgets what was cut off in front.
-/

namespace MtpXdp.Lib

open Ebpf

/-! ## A segment and the frame made of it -/

def segmentOf (x : NetCtx) (ip : IpHdr) (tcp : TcpHdr) (ts : TsOpt) : NetCtx :=
  { x with ev := parsePktToEvent ip tcp ts }

def handedOver (x : NetCtx) (tcp : TcpHdr) (frame : List U8) : RxPkt where
  md := (verifyTrimDataEp x).md
  tcpSeq := tcp.seq
  frame := frame

/-- `parse_packet`, given the payload length of the metadata, returns the bounds of the trimmed
    interval. -/
def IntervalsAgree (x : NetCtx) (p : RxPkt) : Prop :=
  parsePacket p (p.md.plen.setWidth 32) =
    ((verifyTrimDataEp x).ev.seqNum,
      (verifyTrimDataEp x).ev.seqNum + (verifyTrimDataEp x).md.plen.setWidth 32)
deriving Decidable

/-- It starts at the next byte or in the window, so that nothing is cut off in front. -/
def StartsInWindow (c : BpfTcpConn) (seq : U32) : Prop :=
  seq = c.rxNextSeq ∨ seqInRange seq c.rxNextSeq (c.rxNextSeq + c.rxAvail) false = true
deriving Decidable

/-! ## What the metadata says -/

section

variable {x : NetCtx}

theorem rxseqTrimStart_eq_zero_iff (c : BpfTcpConn) (seq : U32) :
    rxseqTrimStart c seq = 0#32 ↔ StartsInWindow c seq := by
  unfold rxseqTrimStart StartsInWindow
  by_cases hin : seqInRange seq c.rxNextSeq (c.rxNextSeq + c.rxAvail) false = true
  · simp [hin]
  · rw [if_neg hin, or_iff_left hin]
    constructor
    · intro h
      bv_omega
    · intro h
      rw [h, BitVec.sub_self]

theorem verifyTrimDataEp_seqNum (h : (verifyTrimDataEp x).io.skipDataEps = false) :
    (verifyTrimDataEp x).ev.seqNum = x.ev.seqNum + rxseqTrimStart x.c x.ev.seqNum := by
  rw [verifyTrimDataEp_skipDataEps, Bool.not_eq_false'] at h
  rw [verifyTrimDataEp_of_overlaps h]

theorem verifyTrimDataEp_poff (h : (verifyTrimDataEp x).io.skipDataEps = false) :
    (verifyTrimDataEp x).md.poff =
      (BitVec.ofNat 32 headersLen + rxseqTrimStart x.c x.ev.seqNum).setWidth 16 := by
  rw [verifyTrimDataEp_skipDataEps, Bool.not_eq_false'] at h
  rw [verifyTrimDataEp_of_overlaps h]

end

/-! ## Agreement -/

section

variable (x : NetCtx) (ip : IpHdr) (tcp : TcpHdr) (ts : TsOpt) (frame : List U8)

theorem parsePacket_of_noTrim
    (h : (verifyTrimDataEp (segmentOf x ip tcp ts)).io.skipDataEps = false)
    (hstart : rxseqTrimStart x.c (bpfNtohl tcp.seq) = 0#32) :
    IntervalsAgree (segmentOf x ip tcp ts) (handedOver (segmentOf x ip tcp ts) tcp frame) := by
  have hseq : (verifyTrimDataEp (segmentOf x ip tcp ts)).ev.seqNum = bpfNtohl tcp.seq := by
    rw [verifyTrimDataEp_seqNum h]
    change bpfNtohl tcp.seq + rxseqTrimStart x.c (bpfNtohl tcp.seq) = _
    rw [hstart, BitVec.add_zero]
  have hpoff : (verifyTrimDataEp (segmentOf x ip tcp ts)).md.poff = BitVec.ofNat 16 headersLen := by
    rw [verifyTrimDataEp_poff h]
    change (BitVec.ofNat 32 headersLen + rxseqTrimStart x.c (bpfNtohl tcp.seq)).setWidth 16 = _
    rw [hstart]
    decide
  have hback : (BitVec.ofNat 16 headersLen).setWidth 32 - BitVec.ofNat 32 headersLen = 0#32 := by
    decide
  simp only [IntervalsAgree, parsePacket, handedOver, hseq, hpoff, hback, BitVec.add_zero]

/-- **Both sides agree on the trimmed interval iff nothing was cut off in front**, with payload left
    or not. -/
theorem intervalsAgree_iff
    (hacc : (verifyTrimDataEp (segmentOf x ip tcp ts)).io.skipDataEps = false) :
    IntervalsAgree (segmentOf x ip tcp ts) (handedOver (segmentOf x ip tcp ts) tcp frame) ↔
      StartsInWindow x.c (bpfNtohl tcp.seq) := by
  rw [← rxseqTrimStart_eq_zero_iff]
  constructor
  · intro hagree
    -- the ends alone decide: both add the same length, to the header's number on one side and
    -- to the trimmed one on the other
    have hend := congrArg Prod.snd hagree
    rw [verifyTrimDataEp_seqNum hacc] at hend
    change bpfNtohl tcp.seq + (verifyTrimDataEp (segmentOf x ip tcp ts)).md.plen.setWidth 32 =
      bpfNtohl tcp.seq + rxseqTrimStart x.c (bpfNtohl tcp.seq) + _ at hend
    bv_omega
  · intro hstart
    exact parsePacket_of_noTrim x ip tcp ts frame hacc hstart

end

/-! ## A partly old segment -/

def oldAndNewIp : IpHdr := { (default : IpHdr) with totLen := bpfHtons 252#32 }

def oldAndNewTcp : TcpHdr := { (default : TcpHdr) with seq := bpfHtonl 1000#32 }

def halfReceived : NetCtx :=
  { (default : NetCtx) with c := { (default : BpfTcpConn) with
      rxNextSeq := 1100#32, rxAvail := 4096#32 } }

theorem intervalsAgree_inOrder :
    IntervalsAgree
      (segmentOf { halfReceived with c := { halfReceived.c with rxNextSeq := 1000#32 } }
        oldAndNewIp oldAndNewTcp default)
      (handedOver (segmentOf { halfReceived with c := { halfReceived.c with rxNextSeq := 1000#32 } }
        oldAndNewIp oldAndNewTcp default) oldAndNewTcp []) :=
  (intervalsAgree_iff _ oldAndNewIp oldAndNewTcp default [] (by decide)).mpr (by decide)

/-- The second half is accepted with its 100 bytes at offset 166; user space takes it for `[1100,
    1100)`. -/
theorem trimmed_start_forgotten :
    (verifyTrimDataEp (segmentOf halfReceived oldAndNewIp oldAndNewTcp default)).io.skipDataEps =
        false ∧
      (verifyTrimDataEp (segmentOf halfReceived oldAndNewIp oldAndNewTcp default)).md.plen =
        100#16 ∧
      ¬ IntervalsAgree (segmentOf halfReceived oldAndNewIp oldAndNewTcp default)
        (handedOver (segmentOf halfReceived oldAndNewIp oldAndNewTcp default) oldAndNewTcp []) := by
  decide

end MtpXdp.Lib

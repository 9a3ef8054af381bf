import MtpXdp.Ebpf.Flow
import MtpXdp.Ebpf.SeqWindow
import MtpXdp.Ebpf.CumulativeAck

/-!
# The Payload Lies in the Frame

`xdp_sock_prog` (`main.c`) on the bytes of a received frame; the event processors never set
`prev_conn`, so flushing it is left out. User space copies `plen` bytes from offset `poff` of a
received frame, as `verify_trim_data_ep`
computes them from the IP total length, which the program never compares with `data_end`. A total
length below the headers wraps around. The trimming itself is safe for every state of the receive
window.

For a segment that is empty or contains the next expected byte, the four processors of a data
segment amount to one number, the bytes left of it after trimming: `rx_next_seq` and `rx_avail` move
by it, and user space is told of that many bytes, or of none at all.
-/

namespace MtpXdp.Ebpf

open MtpXdp.Core
open BitVec hiding not_or not_and

/-! ## Loads -/

def load8 (frame : List U8) (off : Nat) : U8 := frame.getD off 0#8

def load16 (frame : List U8) (off : Nat) : U16 := load8 frame (off + 1) ++ load8 frame off

def load32 (frame : List U8) (off : Nat) : U32 := load16 frame (off + 2) ++ load16 frame off

/-! ## The header cursor -/

def ethHdrLen : Nat := 14
def ipHdrLen : Nat := 20
def tcpHdrLen : Nat := 20

/-- `struct tcp_timestamp_opt` is packed, two bytes less than `TS_OPT_SIZE`. -/
def tsOptLen : Nat := 10

def vlanMaxDepth : Nat := 2

def protoIsVlan (hProto : U16) : Bool :=
  hProto == bpfHtons 0x8100#32 || hProto == bpfHtons 0x88A8#32

/-- The loop of `parse_ethhdr_vlan`: the protocol behind the tags that fit, and the cursor. -/
def skipVlans (frame : List U8) : Nat → U16 → Nat → U16 × Nat
  | 0, hProto, pos => (hProto, pos)
  | depth + 1, hProto, pos =>
    if protoIsVlan hProto then
      if frame.length < pos + 4 then (hProto, pos)
      else skipVlans frame depth (load16 frame (pos + 2)) (pos + 4)
    else (hProto, pos)

def parseEthhdr (frame : List U8) : Option (U16 × Nat) :=
  if frame.length < ethHdrLen then none
  else some (skipVlans frame vlanMaxDepth (load16 frame 12) ethHdrLen)

def loadIpHdr (frame : List U8) (pos : Nat) : IpHdr where
  ihl := load8 frame pos &&& 0xF#8
  version := load8 frame pos >>> 4
  tos := load8 frame (pos + 1)
  totLen := load16 frame (pos + 2)
  id := load16 frame (pos + 4)
  fragOff := load16 frame (pos + 6)
  ttl := load8 frame (pos + 8)
  protocol := load8 frame (pos + 9)
  check := load16 frame (pos + 10)
  saddr := load32 frame (pos + 12)
  daddr := load32 frame (pos + 16)

def parseIphdr (frame : List U8) (pos : Nat) : Option (IpHdr × Nat) :=
  if frame.length < pos + ipHdrLen then none
  else
    let iph := loadIpHdr frame pos
    let hdrsize := iph.ihl.toNat * 4
    if iph.version ≠ 4#8 then none
    else if hdrsize < ipHdrLen then none
    else if frame.length < pos + hdrsize then none
    else some (iph, pos + hdrsize)

def loadTcpHdr (frame : List U8) (pos : Nat) : TcpHdr where
  source := load16 frame pos
  dest := load16 frame (pos + 2)
  seq := load32 frame (pos + 4)
  ackSeq := load32 frame (pos + 8)
  doff := (load8 frame (pos + 12) >>> 4).setWidth 16
  fin := (load8 frame (pos + 13)).getLsbD 0
  syn := (load8 frame (pos + 13)).getLsbD 1
  rst := (load8 frame (pos + 13)).getLsbD 2
  psh := (load8 frame (pos + 13)).getLsbD 3
  ack := (load8 frame (pos + 13)).getLsbD 4
  urg := (load8 frame (pos + 13)).getLsbD 5
  ece := (load8 frame (pos + 13)).getLsbD 6
  cwr := (load8 frame (pos + 13)).getLsbD 7
  window := load16 frame (pos + 14)
  check := load16 frame (pos + 16)
  urgPtr := load16 frame (pos + 18)

def parseTcphdr (frame : List U8) (pos : Nat) : Option TcpHdr :=
  if frame.length < pos + tcpHdrLen then none
  else
    let tcph := loadTcpHdr frame pos
    let len := tcph.doff.toNat * 4
    if len < tcpHdrLen then none
    else if frame.length < pos + len then none
    else some tcph

def loadTsOpt (frame : List U8) (pos : Nat) : TsOpt where
  kind := load8 frame pos
  length := load8 frame (pos + 1)
  tsVal := load32 frame (pos + 2)
  tsEcr := load32 frame (pos + 6)

/-! ## Verdicts before the connection is looked up -/

def isTcpSyn (h : TcpHdr) : Bool := h.syn && !h.ack
def isTcpSynAck (h : TcpHdr) : Bool := h.syn && h.ack
def isTcpRst (h : TcpHdr) : Bool := h.rst

structure Headers where
  ip : IpHdr
  tcp : TcpHdr
  ts : TsOpt

inductive HeaderVerdict where
  | stop (action : XdpAction)
  | slowpath
  | fast (h : Headers)

def classify (frame : List U8) : HeaderVerdict :=
  match parseEthhdr frame with
  | none => .stop .drop
  | some (proto, pos) =>
    if proto ≠ bpfHtons 0x0800#32 then .stop .drop
    else
      match parseIphdr frame pos with
      | none => .stop .pass
      | some (iph, pos) =>
        if iph.protocol ≠ 6#8 then .stop .pass
        else
          match parseTcphdr frame pos with
          | none => .stop .drop
          | some tcph =>
            if isTcpSyn tcph || isTcpSynAck tcph || isTcpRst tcph then .slowpath
            else if frame.length < pos + tcpHdrLen + tsOptLen then .stop .drop
            else .fast { ip := iph, tcp := tcph, ts := loadTsOpt frame (pos + tcpHdrLen) }

/-! ## `xdp_sock_prog` -/

structure EbpfFlowTuple where
  localIp : U32
  remoteIp : U32
  localPort : U16
  remotePort : U16

def Headers.key (h : Headers) : EbpfFlowTuple where
  localIp := bpfNtohl h.ip.daddr
  remoteIp := bpfNtohl h.ip.saddr
  localPort := (bpfNtohs h.tcp.dest).setWidth 16
  remotePort := (bpfNtohs h.tcp.source).setWidth 16

def maxCpu : U32 := 20#32
def maxNicQueues : U32 := 20#32

/-- Queue and CPU, room for the metadata, the maps, the two clocks and the stack variable `int_out`.
    -/
structure SockEnv where
  qid : U32
  cpu : U32
  metaFits : Bool
  conns : EbpfFlowTuple → Option Flow
  slowPathActive : Bool
  ring : AckRing
  now : U32
  ktime : U64
  io : IntermOut

structure SockResult where
  action : XdpAction
  md : RxMeta
  ctx : Option NetCtx

def sockCtx (env : SockEnv) (h : Headers) (f : Flow) : NetCtx where
  ev := parsePktToEvent h.ip h.tcp h.ts
  c := f.c
  io := env.io
  md := RxMeta.ingress env.qid f.c.opaqueConnection
  cc := f.cc
  ring := env.ring
  ktime := env.ktime

def xdpSockProg (env : SockEnv) (frame : List U8) : SockResult :=
  -- the connection pointer keeps its fill value until the lookup
  let md := RxMeta.ingress env.qid poison64
  if maxCpu ≤ env.cpu ∨ env.metaFits = false then { action := .drop, md := md, ctx := none }
  else
    match classify frame with
    | .stop action => { action := action, md := md, ctx := none }
    | .slowpath =>
      { action := if env.slowPathActive then .redirect else .drop, md := md, ctx := none }
    | .fast h =>
      match env.conns h.key with
      | none => { action := .drop, md := md, ctx := none }
      | some f =>
        let r := tcpRxProcess env.now (sockCtx env h f)
        { action := if r.2 = .redirect ∧ env.qid < maxNicQueues then .redirect else .drop
          md := r.1.md
          ctx := some r.1 }

/-! ## Trimming -/

section

variable {c : BpfTcpConn} {seq len : U32}

def lenAfterTrim (c : BpfTcpConn) (seq len : U32) : U32 :=
  if rxseqTrimStart c seq + rxseqTrimEnd c seq len ≤ len
  then len - (rxseqTrimStart c seq + rxseqTrimEnd c seq len) else len

theorem lenAfterTrim_le (c : BpfTcpConn) (seq len : U32) :
    (lenAfterTrim c seq len).toNat ≤ len.toNat := by
  unfold lenAfterTrim
  split_ifs with hle
  · rw [toNat_sub_of_le hle]
    exact Nat.sub_le _ _
  · exact Nat.le_refl _

theorem ahead_add_rxAvail_le (h : ¬ ahead c.rxNextSeq seq < c.rxAvail.toNat) :
    ahead seq c.rxNextSeq + c.rxAvail.toNat ≤ 2 ^ 32 := by
  rcases eq_or_ne c.rxNextSeq seq with heq | hne
  · rw [heq, ahead_self] at h ⊢
    omega
  · have hring := ahead_add_ahead hne
    omega

theorem window_inside_of_overlaps (h : rxseqOverlaps c seq len = true)
    (hstart : ¬ ahead c.rxNextSeq seq < c.rxAvail.toNat)
    (hend : ¬ (ahead c.rxNextSeq (seq + len) ≠ 0 ∧
      ahead c.rxNextSeq (seq + len) ≤ c.rxAvail.toNat)) :
    ahead seq c.rxNextSeq + c.rxAvail.toNat ≤ len.toNat := by
  have hlap := ahead_add_rxAvail_le hstart
  rcases (rxseqOverlaps_iff c seq len).mp h with hin | hin | hcovers | ⟨hne, hle⟩
  · exact absurd hin hstart
  · exact absurd hin hend
  · -- what lies behind the window's start is longer than the window
    have hadd := ahead_trans seq c.rxNextSeq (seq + len)
    rw [ahead_segmentEnd] at hadd
    have hlt := ahead_lt c.rxNextSeq (seq + len)
    omega
  · rw [ahead_add] at hne hle
    omega

theorem trimStart_add_lenAfterTrim_le (h : rxseqOverlaps c seq len = true)
    (hne : lenAfterTrim c seq len ≠ 0#32) :
    (rxseqTrimStart c seq).toNat + (lenAfterTrim c seq len).toNat ≤ len.toNat := by
  have hstart := toNat_rxseqTrimStart c seq
  have hend := toNat_rxseqTrimEnd c seq len
  by_cases hin : ahead c.rxNextSeq seq < c.rxAvail.toNat
  · rw [if_pos hin] at hstart
    have hle := lenAfterTrim_le c seq len
    omega
  · rw [if_neg hin] at hstart
    by_cases hin' : ahead c.rxNextSeq (seq + len) ≠ 0 ∧
        ahead c.rxNextSeq (seq + len) ≤ c.rxAvail.toNat
    · rw [if_pos hin'] at hend
      have hzero : rxseqTrimEnd c seq len = 0#32 := eq_of_toNat_eq hend
      unfold lenAfterTrim at hne ⊢
      rw [hzero, BitVec.add_zero] at hne ⊢
      by_cases hle : rxseqTrimStart c seq ≤ len
      · rw [if_pos hle, toNat_sub_of_le hle]
        rw [le_def] at hle
        omega
      · -- the segment would end in front of the window
        exfalso
        rw [if_neg hle] at hne
        rw [le_def, hstart] at hle
        have hpos : 0 < len.toNat := Nat.pos_of_ne_zero (fun h0 => hne (eq_of_toNat_eq h0))
        have hnext : c.rxNextSeq ≠ seq := by
          intro heq
          rw [heq, ahead_self] at hle
          omega
        have hring := ahead_add_ahead hnext
        have he := ahead_add_of_lt (a := c.rxNextSeq) (b := seq) (n := len) (by omega)
        omega
    · rw [if_neg hin'] at hend
      have hinside := window_inside_of_overlaps h hin hin'
      have hlast : ahead (c.rxNextSeq + c.rxAvail) (seq + len) =
          len.toNat - (ahead seq c.rxNextSeq + c.rxAvail.toNat) := by
        have hto := ahead_add seq c.rxNextSeq c.rxAvail
        rw [Nat.mod_eq_of_lt (by omega)] at hto
        have hrest := ahead_of_ahead_le (a := seq) (b := c.rxNextSeq + c.rxAvail) (x := seq + len)
          (by rw [hto, ahead_segmentEnd]; exact hinside)
        rw [hrest, hto, ahead_segmentEnd]
      have hsum : (rxseqTrimStart c seq + rxseqTrimEnd c seq len).toNat =
          len.toNat - c.rxAvail.toNat := by
        rw [toNat_add, hstart, hend, hlast]
        omega
      have hle : rxseqTrimStart c seq + rxseqTrimEnd c seq len ≤ len := by
        rw [le_def, hsum]
        exact Nat.sub_le _ _
      rw [lenAfterTrim, if_pos hle, toNat_sub_of_le hle, hsum, hstart]
      omega

theorem toNat_lenAfterTrim_of_covers (h : Covers c seq len) : (lenAfterTrim c seq len).toNat =
      min (len.toNat - ahead seq c.rxNextSeq) c.rxAvail.toNat := by
  have hlt := h.1
  have he := ahead_end_of_covers h
  have hle := (trims_of_covers h).1
  have hstart : (rxseqTrimStart c seq).toNat = ahead seq c.rxNextSeq := by
    rw [rxseqTrimStart_of_covers h]
    rfl
  have hend := toNat_rxseqTrimEnd c seq len
  rw [he] at hend
  rw [lenAfterTrim, if_pos hle, toNat_sub_of_le hle, toNat_add, hstart]
  by_cases hin : len.toNat - ahead seq c.rxNextSeq ≤ c.rxAvail.toNat
  · rw [if_pos ⟨by omega, hin⟩] at hend
    omega
  · have hrest := ahead_of_ahead_le (a := c.rxNextSeq) (b := c.rxNextSeq + c.rxAvail)
      (x := seq + len) (by rw [ahead_windowEnd, he]; omega)
    rw [ahead_windowEnd, he] at hrest
    rw [if_neg (fun hand => hin hand.2), hrest] at hend
    omega

end

/-! ## The metadata of a redirected segment -/

section

variable {x : NetCtx}

theorem flushOooDataEp_payload : (flushOooDataEp x).ev = x.ev ∧ (flushOooDataEp x).md = x.md ∧
      (flushOooDataEp x).io.drop = x.io.drop := by
  rw [flushOooDataEp_eq]
  split_ifs
  · unfold mergeOoo
    split
    · exact ⟨rfl, rfl, rfl⟩
    · dsimp only
      split_ifs <;> exact ⟨rfl, rfl, rfl⟩
  · exact ⟨rfl, rfl, rfl⟩
  · exact ⟨rfl, rfl, rfl⟩

theorem sendAck_payload : (sendAck x).md = x.md ∧ (sendAck x).io = x.io := by
  unfold sendAck
  split_ifs <;> exact ⟨rfl, rfl⟩

def RxMeta.payload (md : RxMeta) : U16 × U16 := (md.poff, md.plen)

theorem dataNetEp_payload (hdrop : x.io.drop = true) :
    ((dataNetEp x).io.drop = false ∧ x.ev.dataLen ≠ 0#32 ∧
        (dataNetEp x).md.payload = x.md.payload) ∨
      (x.ev.dataLen = 0#32 ∧
        ((dataNetEp x).io.drop = true ∨ (dataNetEp x).md.plen = poison16)) := by
  unfold dataNetEp mtpAddDataSegWrapper
  by_cases hlen : x.ev.dataLen = 0#32
  · right
    refine ⟨hlen, ?_⟩
    split_ifs
    · exact Or.inr rfl
    · exact Or.inl hdrop
  · left
    rw [if_pos (Or.inl hlen)]
    refine ⟨rfl, hlen, ?_⟩
    dsimp only
    rw [if_neg hlen]
    rfl

theorem detectOooDataEp_payload : (detectOooDataEp x).io.drop = x.io.drop ∧
      ((detectOooDataEp x).ev.dataLen = 0#32 ∨
        (detectOooDataEp x).ev.dataLen = x.ev.dataLen ∧ (detectOooDataEp x).md = x.md) := by
  unfold detectOooDataEp
  -- only the branch that cannot record the segment takes its length away
  split_ifs <;> first | exact ⟨rfl, Or.inr ⟨rfl, rfl⟩⟩ | exact ⟨rfl, Or.inl rfl⟩

theorem verifyTrimDataEp_payload_of_overlaps
    (h : rxseqOverlaps x.c x.ev.seqNum x.ev.dataLen = true) :
    (verifyTrimDataEp x).ev.dataLen = lenAfterTrim x.c x.ev.seqNum x.ev.dataLen ∧
      (verifyTrimDataEp x).md.payload =
        ((BitVec.ofNat 32 headersLen + rxseqTrimStart x.c x.ev.seqNum).setWidth 16,
          (lenAfterTrim x.c x.ev.seqNum x.ev.dataLen).setWidth 16) := by
  rw [verifyTrimDataEp_of_overlaps h]
  exact ⟨rfl, rfl⟩

theorem verifyTrimDataEp_drop : (verifyTrimDataEp x).io.drop = true := by
  unfold verifyTrimDataEp
  split <;> rfl

theorem dataChain_payload (hmd : x.md.plen = poison16) (hdrop : (dataChain x).io.drop = false)
    (hplen : (dataChain x).md.plen ≠ poison16) : rxseqOverlaps x.c x.ev.seqNum x.ev.dataLen = true ∧
      lenAfterTrim x.c x.ev.seqNum x.ev.dataLen ≠ 0#32 ∧ (dataChain x).md.payload =
        ((BitVec.ofNat 32 headersLen + rxseqTrimStart x.c x.ev.seqNum).setWidth 16,
          (lenAfterTrim x.c x.ev.seqNum x.ev.dataLen).setWidth 16) := by
  unfold dataChain at hdrop hplen ⊢
  rw [sendAck_payload.2] at hdrop
  rw [sendAck_payload.1] at hplen ⊢
  obtain ⟨hev, hmdf, hdropf⟩ :=
    flushOooDataEp_payload (x := detectOooDataEp (verifyTrimDataEp x))
  obtain ⟨hdropd, hkeep⟩ := detectOooDataEp_payload (x := verifyTrimDataEp x)
  have hbefore : (flushOooDataEp (detectOooDataEp (verifyTrimDataEp x))).io.drop = true := by
    rw [hdropf, hdropd, verifyTrimDataEp_drop]
  rcases dataNetEp_payload hbefore with ⟨-, hlen, hpay⟩ | ⟨-, hd | hp⟩
  · rw [hev] at hlen
    obtain ⟨hlenEq, hmdEq⟩ := hkeep.resolve_left hlen
    rw [hlenEq] at hlen
    rw [hmdf, hmdEq] at hpay
    by_cases h : rxseqOverlaps x.c x.ev.seqNum x.ev.dataLen = true
    · obtain ⟨hl, hm⟩ := verifyTrimDataEp_payload_of_overlaps h
      exact ⟨h, hl ▸ hlen, hpay.trans hm⟩
    · -- a rejected segment goes out with its poisoned length
      exfalso
      have hkept : (verifyTrimDataEp x).md = x.md := by rw [verifyTrimDataEp_of_rejected h]
      rw [hkept] at hpay
      exact hplen ((congrArg Prod.snd hpay).trans hmd)
  · exact absurd hd (by rw [hdrop]; decide)
  · exact absurd hp hplen

theorem dataChain_of_inOrder (h : rxseqOverlaps x.c x.ev.seqNum x.ev.dataLen = true)
    (hseq : x.ev.seqNum + rxseqTrimStart x.c x.ev.seqNum = x.c.rxNextSeq)
    (hlen : lenAfterTrim x.c x.ev.seqNum x.ev.dataLen ≠ 0#32) :
    (dataChain x).io.drop = false ∧ (dataChain x).md.payload =
      ((BitVec.ofNat 32 headersLen + rxseqTrimStart x.c x.ev.seqNum).setWidth 16,
        (lenAfterTrim x.c x.ev.seqNum x.ev.dataLen).setWidth 16) := by
  obtain ⟨hl, hm⟩ := verifyTrimDataEp_payload_of_overlaps h
  have hseq' : (verifyTrimDataEp x).ev.seqNum = (verifyTrimDataEp x).c.rxNextSeq := by
    rw [verifyTrimDataEp_c, ← hseq]
    rw [verifyTrimDataEp_of_overlaps h]
  have hdetect : detectOooDataEp (verifyTrimDataEp x) = verifyTrimDataEp x := by
    unfold detectOooDataEp
    split_ifs <;> rfl
  unfold dataChain
  rw [sendAck_payload.2, sendAck_payload.1, hdetect]
  obtain ⟨hev, hmdf, hdropf⟩ := flushOooDataEp_payload (x := verifyTrimDataEp x)
  rcases dataNetEp_payload (hdropf.trans verifyTrimDataEp_drop) with ⟨hd, -, hpay⟩ | ⟨hzero, -⟩
  · rw [hmdf, hm] at hpay
    exact ⟨hd, hpay⟩
  · rw [hev, hl] at hzero
    exact absurd hzero hlen

theorem mtpPktGenWrapper_plen {c : BpfTcpConn} {p : Option Pkt} {n seqNum : U32} {md : RxMeta}
    (hmd : md.plen = poison16) :
    (mtpPktGenWrapper false TCPBP.zero c p n seqNum .netEvent md).2.2.plen = poison16 := by
  unfold mtpPktGenWrapper
  split_ifs
  · exact hmd
  · rfl

theorem ackChain_plen (hmd : x.md.plen = poison16) : (ackChain x).md.plen = poison16 := by
  have hfast : (fastRetrRecEp x).md = x.md := by
    unfold fastRetrRecEp
    dsimp only
    split_ifs <;> rfl
  unfold ackChain ackNetEp mtpTxDataFlush ackNetAccepted
  dsimp only
  split_ifs
  · exact mtpPktGenWrapper_plen (by rw [hfast]; exact hmd)
  all_goals first | rfl | (rw [hfast]; exact hmd)

def NetCtx.stamp (x : NetCtx) (now : U32) : NetCtx :=
  { x with ev := { x.ev with timestamp := now } }

theorem tcpRxProcess_of_data (now : U32) (h : x.ev.minorType = .data) :
    tcpRxProcess now x = (dataChain (x.stamp now),
      if (dataChain (x.stamp now)).io.drop then .drop else .redirect) := by
  unfold tcpRxProcess
  simp only [NetCtx.stamp, h]

theorem tcpRxProcess_plen_of_ack {now : U32} (h : x.ev.minorType = .ack)
    (hmd : x.md.plen = poison16) : (tcpRxProcess now x).1.md.plen = poison16 := by
  unfold tcpRxProcess
  simp only [h]
  exact ackChain_plen hmd

theorem tcpRxProcess_payload {now : U32} (hmd : x.md.plen = poison16)
    (hact : (tcpRxProcess now x).2 = .redirect)
    (hplen : (tcpRxProcess now x).1.md.plen ≠ poison16) :
    x.ev.minorType = .data ∧ rxseqOverlaps x.c x.ev.seqNum x.ev.dataLen = true ∧
      lenAfterTrim x.c x.ev.seqNum x.ev.dataLen ≠ 0#32 ∧ (tcpRxProcess now x).1.md.payload =
        ((BitVec.ofNat 32 headersLen + rxseqTrimStart x.c x.ev.seqNum).setWidth 16,
          (lenAfterTrim x.c x.ev.seqNum x.ev.dataLen).setWidth 16) := by
  cases htype : x.ev.minorType with
  | ack => exact absurd (tcpRxProcess_plen_of_ack htype hmd) hplen
  | data =>
    rw [tcpRxProcess_of_data now htype] at hact hplen ⊢
    have hdrop : (dataChain (x.stamp now)).io.drop = false := by
      by_contra hd
      rw [if_pos (Bool.eq_true_of_not_eq_false hd)] at hact
      cases hact
    exact ⟨rfl, dataChain_payload (x := x.stamp now) hmd hdrop hplen⟩

end

/-! ## The frame -/

/-- **The payload lies in the frame**: what a redirected packet says about it are bytes that were
    received. -/
def InsideFrame (frame : List U8) (r : SockResult) : Prop :=
  r.action = .redirect → r.md.plen ≠ poison16 →
    r.md.poff.toNat + r.md.plen.toNat ≤ frame.length

def TotalLenFits (totLen len : Nat) : Prop :=
  totLen = 52 ∨ (52 < totLen ∧ ethHdrLen + totLen ≤ len) ∨ (totLen < 52 ∧ 131069 ≤ len)
deriving Decidable

/-- The condition on a frame: if it is taken for a data segment of a connection, its total length
    fits. -/
def DataFits (frame : List U8) : Prop :=
  ∀ h, classify frame = .fast h → h.tcp.ack = false →
    TotalLenFits (bpfNtohs h.ip.totLen).toNat frame.length

section

variable {frame : List U8} {h : Headers}

theorem toNat_dataLen (ip : IpHdr) (tcp : TcpHdr) (ts : TsOpt)
    (hle : 52 ≤ (bpfNtohs ip.totLen).toNat) :
    (parsePktToEvent ip tcp ts).dataLen.toNat = (bpfNtohs ip.totLen).toNat - 52 := by
  exact toNat_sub_of_le hle

theorem bpfNtohs_lt (x : U16) : (bpfNtohs x).toNat < 2 ^ 16 := by
  rw [toNat_bpfNtohs]
  omega

theorem payload_le_of_fits {c : BpfTcpConn} {seq : U32} {totLen : U16} {len : Nat}
    (hfits : TotalLenFits (bpfNtohs totLen).toNat len)
    (hin : rxseqOverlaps c seq (bpfNtohs totLen - 52#32) = true)
    (hne : lenAfterTrim c seq (bpfNtohs totLen - 52#32) ≠ 0#32)
    (hplen : (lenAfterTrim c seq (bpfNtohs totLen - 52#32)).setWidth 16 ≠ poison16) :
    ((BitVec.ofNat 32 headersLen + rxseqTrimStart c seq).setWidth 16 : U16).toNat +
      ((lenAfterTrim c seq (bpfNtohs totLen - 52#32)).setWidth 16 : U16).toNat ≤ len := by
  have hseg := trimStart_add_lenAfterTrim_le hin hne
  have hsub : 52 ≤ (bpfNtohs totLen).toNat →
      (bpfNtohs totLen - 52#32).toNat = (bpfNtohs totLen).toNat - 52 :=
    fun hle => toNat_sub_of_le hle
  have hpos : 0 < (lenAfterTrim c seq (bpfNtohs totLen - 52#32)).toNat :=
    Nat.pos_of_ne_zero (fun h0 => hne (eq_of_toNat_eq h0))
  have hoff : ((BitVec.ofNat 32 headersLen + rxseqTrimStart c seq).setWidth 16 : U16).toNat ≤
      66 + (rxseqTrimStart c seq).toNat := by
    exact (Nat.mod_le _ _).trans (Nat.mod_le _ _)
  have hlen : ((lenAfterTrim c seq (bpfNtohs totLen - 52#32)).setWidth 16 : U16).toNat ≤
      (lenAfterTrim c seq (bpfNtohs totLen - 52#32)).toNat := by
    exact Nat.mod_le _ _
  rcases hfits with heq | ⟨hlt, hle⟩ | ⟨-, hle⟩
  · -- no payload is left
    omega
  · rw [hsub hlt.le] at hseg
    have heth : ethHdrLen = 14 := rfl
    omega
  · have hoff16 := ((BitVec.ofNat 32 headersLen + rxseqTrimStart c seq).setWidth 16 : U16).isLt
    have hlen16 : ((lenAfterTrim c seq (bpfNtohs totLen - 52#32)).setWidth 16 : U16).toNat ≠
        65535 := fun h0 => hplen (eq_of_toNat_eq h0)
    omega

theorem xdpSockProg_of_conn {env : SockEnv} {f : Flow}
    (henv : ¬ (maxCpu ≤ env.cpu ∨ env.metaFits = false)) (hclass : classify frame = .fast h)
    (hconn : env.conns h.key = some f) :
    xdpSockProg env frame =
      { action :=
          if (tcpRxProcess env.now (sockCtx env h f)).2 = .redirect ∧ env.qid < maxNicQueues
          then .redirect else .drop
        md := (tcpRxProcess env.now (sockCtx env h f)).1.md
        ctx := some (tcpRxProcess env.now (sockCtx env h f)).1 } := by
  unfold xdpSockProg
  rw [if_neg henv, hclass]
  dsimp only
  rw [hconn]

theorem xdpSockProg_cases (env : SockEnv) (frame : List U8) :
    (xdpSockProg env frame).md.plen = poison16 ∨
      ∃ h f, classify frame = .fast h ∧ env.conns h.key = some f ∧
        (xdpSockProg env frame).md = (tcpRxProcess env.now (sockCtx env h f)).1.md ∧
        ((xdpSockProg env frame).action = .redirect →
          (tcpRxProcess env.now (sockCtx env h f)).2 = .redirect) := by
  by_cases henv : maxCpu ≤ env.cpu ∨ env.metaFits = false
  · left
    rw [xdpSockProg, if_pos henv]
    rfl
  · cases hclass : classify frame with
    | stop action =>
      left
      rw [xdpSockProg, if_neg henv, hclass]
      rfl
    | slowpath =>
      left
      rw [xdpSockProg, if_neg henv, hclass]
      rfl
    | fast h =>
      cases hconn : env.conns h.key with
      | none =>
        left
        rw [xdpSockProg, if_neg henv, hclass]
        dsimp only
        rw [hconn]
        rfl
      | some f =>
        right
        refine ⟨h, f, rfl, hconn, ?_⟩
        rw [xdpSockProg_of_conn henv hclass hconn]
        refine ⟨rfl, ?_⟩
        intro hact
        by_contra hno
        rw [if_neg (fun hand => hno hand.1)] at hact
        cases hact

theorem insideFrame_of_fits (hfits : DataFits frame) (env : SockEnv) :
    InsideFrame frame (xdpSockProg env frame) := by
  intro hact hplen
  obtain ⟨h, f, hclass, -, hmd, hred⟩ := (xdpSockProg_cases env frame).resolve_left hplen
  rw [hmd] at hplen ⊢
  obtain ⟨htype, hin, hne, hpay⟩ :=
    tcpRxProcess_payload (x := sockCtx env h f) rfl (hred hact) hplen
  have hdata : h.tcp.ack = false := by
    by_contra hack
    have hminor : (sockCtx env h f).ev.minorType = .ack :=
      if_pos (Bool.eq_true_of_not_eq_false hack)
    rw [htype] at hminor
    cases hminor
  obtain ⟨hpoff, hpl⟩ := (Prod.mk.injEq ..).mp hpay
  rw [hpl] at hplen
  rw [hpoff, hpl]
  exact payload_le_of_fits (hfits h hclass hdata) hin hne hplen

theorem xdpSockProg_of_covers (env : SockEnv) {f : Flow}
    (henv : ¬ (maxCpu ≤ env.cpu ∨ env.metaFits = false)) (hqid : env.qid < maxNicQueues)
    (hclass : classify frame = .fast h) (hconn : env.conns h.key = some f)
    (hdata : h.tcp.ack = false)
    (hcov : Covers f.c (bpfNtohl h.tcp.seq) (bpfNtohs h.ip.totLen - 52#32))
    (hopen : 0 < f.c.rxAvail.toNat) : (xdpSockProg env frame).action = .redirect ∧
      (xdpSockProg env frame).md.payload =
        ((BitVec.ofNat 32 headersLen + (f.c.rxNextSeq - bpfNtohl h.tcp.seq)).setWidth 16,
          (lenAfterTrim f.c (bpfNtohl h.tcp.seq) (bpfNtohs h.ip.totLen - 52#32)).setWidth 16) := by
  have hstart := rxseqTrimStart_of_covers hcov
  have hlen : lenAfterTrim f.c (bpfNtohl h.tcp.seq) (bpfNtohs h.ip.totLen - 52#32) ≠ 0#32 := by
    intro h0
    have hmin := toNat_lenAfterTrim_of_covers hcov
    have hlt := hcov.1
    rw [h0, toNat_ofNat, Nat.zero_mod] at hmin
    omega
  have hnext : bpfNtohl h.tcp.seq + (f.c.rxNextSeq - bpfNtohl h.tcp.seq) = f.c.rxNextSeq := by
    rw [BitVec.add_comm, BitVec.sub_add_cancel]
  have htype : (sockCtx env h f).ev.minorType = .data := if_neg (by rw [hdata]; decide)
  obtain ⟨hdrop, hpay⟩ := dataChain_of_inOrder (x := (sockCtx env h f).stamp env.now)
    (rxseqOverlaps_of_covers hcov) (by rw [← hstart] at hnext; exact hnext) hlen
  rw [xdpSockProg_of_conn henv hclass hconn, tcpRxProcess_of_data _ htype, hdrop]
  refine ⟨if_pos ⟨rfl, hqid⟩, ?_⟩
  rw [← hstart]
  exact hpay

def expecting (rxNextSeq rxAvail : U32) : BpfTcpConn :=
  { (default : BpfTcpConn) with rxNextSeq := rxNextSeq, rxAvail := rxAvail }

def receiverAt (rxNextSeq rxAvail : U32) : SockEnv where
  qid := 0#32
  cpu := 0#32
  metaFits := true
  conns := fun _ => some { c := expecting rxNextSeq rxAvail, cc := default }
  slowPathActive := false
  ring := default
  now := 0#32
  ktime := 0#64
  io := default

section

variable (hclass : classify frame = .fast h) (hdata : h.tcp.ack = false)
include hclass hdata

theorem not_insideFrame_of_covers {next avail : U32} {t n : Nat}
    (hcov : Covers (expecting next avail) (bpfNtohl h.tcp.seq) (bpfNtohs h.ip.totLen - 52#32))
    (ht : ahead (bpfNtohl h.tcp.seq) next = t)
    (hn : min ((bpfNtohs h.ip.totLen - 52#32).toNat - t) avail.toNat = n)
    (hopen : 0 < avail.toNat) (ht16 : 66 + t < 2 ^ 16) (hn16 : n < 65535)
    (hlong : frame.length < 66 + t + n) :
    ¬ InsideFrame frame (xdpSockProg (receiverAt next avail) frame) := by
  obtain ⟨hact, hpay⟩ := xdpSockProg_of_covers (receiverAt next avail)
    (f := { c := expecting next avail, cc := default })
    (show ¬ (maxCpu ≤ 0#32 ∨ true = false) by decide) (show 0#32 < maxNicQueues by decide)
    hclass rfl hdata hcov hopen
  obtain ⟨hpoff, hpl⟩ := (Prod.mk.injEq ..).mp hpay
  have hmin : (lenAfterTrim (expecting next avail) (bpfNtohl h.tcp.seq)
      (bpfNtohs h.ip.totLen - 52#32)).toNat = n :=
    (toNat_lenAfterTrim_of_covers hcov).trans (ht ▸ hn)
  have hplen : (xdpSockProg (receiverAt next avail) frame).md.plen.toNat = n := by
    rw [hpl, toNat_setWidth, hmin, Nat.mod_eq_of_lt (by omega)]
  have hoff : (xdpSockProg (receiverAt next avail) frame).md.poff.toNat = 66 + t := by
    have hdist : (next - bpfNtohl h.tcp.seq).toNat = t := ht
    rw [hpoff, toNat_setWidth, toNat_add]
    change (66 + (next - bpfNtohl h.tcp.seq).toNat) % 2 ^ 32 % 2 ^ 16 = 66 + t
    omega
  intro hinside
  have hle := hinside hact (fun hp => by
    rw [hp] at hplen
    have h65535 : poison16.toNat = 65535 := rfl
    omega)
  omega

theorem not_insideFrame_of_long (hlt : 52 < (bpfNtohs h.ip.totLen).toNat)
    (hlong : frame.length < ethHdrLen + (bpfNtohs h.ip.totLen).toNat) :
    ¬ InsideFrame frame (xdpSockProg
      (receiverAt (bpfNtohl h.tcp.seq) (bpfNtohs h.ip.totLen - 52#32)) frame) := by
  have hbound := bpfNtohs_lt h.ip.totLen
  have hlen : (bpfNtohs h.ip.totLen - 52#32).toNat = (bpfNtohs h.ip.totLen).toNat - 52 :=
    toNat_sub_of_le hlt.le
  have heth : ethHdrLen = 14 := rfl
  refine not_insideFrame_of_covers (n := (bpfNtohs h.ip.totLen).toNat - 52) hclass hdata
    ⟨?_, Or.inl rfl⟩ (ahead_self _) ?_ ?_ ?_ ?_ ?_
  · change ahead (bpfNtohl h.tcp.seq) (bpfNtohl h.tcp.seq) < _
    rw [ahead_self]
    omega
  · rw [Nat.sub_zero, Nat.min_self, hlen]
  all_goals omega

theorem not_insideFrame_of_short
    (hlt : (bpfNtohs h.ip.totLen).toNat < 52) (hlong : frame.length < 131069) : ¬ InsideFrame frame
      (xdpSockProg (receiverAt (bpfNtohl h.tcp.seq + 65469#32) 65534#32) frame) := by
  have hlen : (bpfNtohs h.ip.totLen - 52#32).toNat =
      2 ^ 32 + (bpfNtohs h.ip.totLen).toNat - 52 := by
    change (2 ^ 32 - 52 + (bpfNtohs h.ip.totLen).toNat) % 2 ^ 32 = _
    omega
  have hnext : ahead (bpfNtohl h.tcp.seq) (bpfNtohl h.tcp.seq + 65469#32) = 65469 :=
    ahead_add_self _ _
  refine not_insideFrame_of_covers (n := 65534) hclass hdata ⟨?_, Or.inr ?_⟩ hnext ?_ ?_ ?_ ?_ ?_
  · change ahead (bpfNtohl h.tcp.seq) (bpfNtohl h.tcp.seq + 65469#32) < _
    omega
  · -- the segment starts before the next expected byte
    change ¬ ahead (bpfNtohl h.tcp.seq + 65469#32) (bpfNtohl h.tcp.seq) < 65534
    have hne : bpfNtohl h.tcp.seq ≠ bpfNtohl h.tcp.seq + 65469#32 := by bv_omega
    have hring := ahead_add_ahead hne
    omega
  · change min _ 65534 = 65534
    omega
  · decide
  all_goals omega

end

/-- **The payload lies in the frame for every receiver iff the total length fits**, with arbitrary
    header fields. -/
theorem insideFrame_iff (frame : List U8) :
    (∀ env, InsideFrame frame (xdpSockProg env frame)) ↔ DataFits frame := by
  constructor
  · intro hinside h hclass hdata
    by_contra hno
    simp only [TotalLenFits, not_or, not_and, Nat.not_le] at hno
    obtain ⟨hne, hlong, hshort⟩ := hno
    rcases Nat.lt_or_gt_of_ne hne with hlt | hgt
    · exact not_insideFrame_of_short hclass hdata hlt (hshort hlt) (hinside _)
    · exact not_insideFrame_of_long hclass hdata hgt (hlong hgt) (hinside _)
  · exact insideFrame_of_fits

end

/-! ## A frame of headers only -/

def headersOnly : List U8 :=
  [0, 0, 0, 0, 0, 0, 0, 0, 0, 0, 0, 0, 0x08, 0x00] ++
  [0x45, 0, 0, 152, 0, 0, 0, 0, 64, 6, 0, 0, 10, 0, 0, 1, 10, 0, 0, 2] ++
  [0x10, 0, 0x20, 0, 0, 0, 0, 0, 0, 0, 0, 0, 0x80, 0, 0, 0, 0, 0, 0, 0] ++
  List.replicate 12 0

theorem payload_behind_headersOnly :
    headersOnly.length = 66 ∧
      (xdpSockProg (receiverAt 0#32 4096#32) headersOnly).action = .redirect ∧
      (xdpSockProg (receiverAt 0#32 4096#32) headersOnly).md.poff = 66#16 ∧
      (xdpSockProg (receiverAt 0#32 4096#32) headersOnly).md.plen = 100#16 ∧
      ¬ ∀ env, InsideFrame headersOnly (xdpSockProg env headersOnly) := by
  have hact : (xdpSockProg (receiverAt 0#32 4096#32) headersOnly).action = .redirect := by decide
  have hpoff : (xdpSockProg (receiverAt 0#32 4096#32) headersOnly).md.poff = 66#16 := by decide
  have hplen : (xdpSockProg (receiverAt 0#32 4096#32) headersOnly).md.plen = 100#16 := by decide
  refine ⟨rfl, hact, hpoff, hplen, ?_⟩
  intro hall
  have hle := hall (receiverAt 0#32 4096#32) hact (by rw [hplen]; decide)
  rw [hpoff, hplen] at hle
  exact absurd hle (by decide)

/-! ## What is taken of a segment -/

def acceptedLen (c : BpfTcpConn) (seq len : U32) : U32 :=
  if len = 0#32 then 0#32 else lenAfterTrim c seq len

section

variable {x : NetCtx}

theorem acceptedLen_of_covers {c : BpfTcpConn} {seq len : U32} (h : Covers c seq len) :
    acceptedLen c seq len = lenAfterTrim c seq len := by
  have hlt := h.1
  rw [acceptedLen, if_neg]
  rintro rfl
  exact absurd hlt (Nat.not_lt_zero _)

theorem verifyTrimDataEp_accepted (h : x.ev.dataLen = 0#32 ∨ Covers x.c x.ev.seqNum x.ev.dataLen) :
    (verifyTrimDataEp x).ev.dataLen = acceptedLen x.c x.ev.seqNum x.ev.dataLen := by
  rcases h with hempty | hcov
  · rw [verifyTrimDataEp_dataLen_of_empty hempty, acceptedLen, if_pos hempty]
  · rw [(verifyTrimDataEp_payload_of_overlaps (rxseqOverlaps_of_covers hcov)).1,
      acceptedLen_of_covers hcov]

theorem dataChain_rxSide (hooo : x.c.rxOooLen = 0#32)
    (h : x.ev.dataLen = 0#32 ∨ Covers x.c x.ev.seqNum x.ev.dataLen) : (dataChain x).c.rxSide =
      x.c.rxSide.accept (acceptedLen x.c x.ev.seqNum x.ev.dataLen) := by
  rw [dataChain_rxSide_trimmed hooo h, verifyTrimDataEp_accepted h]

/-! ## What user space is told -/

theorem dataChain_addressee :
    (dataChain x).md.conn = x.md.conn ∧ (dataChain x).md.qid = x.md.qid := by
  have hverify : (verifyTrimDataEp x).md.conn = x.md.conn ∧
      (verifyTrimDataEp x).md.qid = x.md.qid := by
    unfold verifyTrimDataEp
    split <;> exact ⟨rfl, rfl⟩
  have hdetect : ∀ y : NetCtx, (detectOooDataEp y).md.conn = y.md.conn ∧
      (detectOooDataEp y).md.qid = y.md.qid := by
    intro y
    unfold detectOooDataEp
    split_ifs <;> exact ⟨rfl, rfl⟩
  have hnet : ∀ y : NetCtx, (dataNetEp y).md.conn = y.md.conn ∧
      (dataNetEp y).md.qid = y.md.qid := by
    intro y
    unfold dataNetEp mtpAddDataSegWrapper
    split_ifs <;> exact ⟨rfl, rfl⟩
  unfold dataChain
  rw [sendAck_payload.1, (hnet _).1, (hnet _).2, flushOooDataEp_payload.2.1, (hdetect _).1,
    (hdetect _).2]
  exact hverify

theorem dataChain_handover (h : x.ev.dataLen = 0#32 ∨ Covers x.c x.ev.seqNum x.ev.dataLen) :
    (acceptedLen x.c x.ev.seqNum x.ev.dataLen = 0#32 ∧
        ((dataChain x).io.drop = true ∨ (dataChain x).md.plen = poison16)) ∨
      (acceptedLen x.c x.ev.seqNum x.ev.dataLen ≠ 0#32 ∧ (dataChain x).io.drop = false ∧
        (dataChain x).md.payload =
          ((BitVec.ofNat 32 headersLen + (x.c.rxNextSeq - x.ev.seqNum)).setWidth 16,
            (acceptedLen x.c x.ev.seqNum x.ev.dataLen).setWidth 16)) := by
  by_cases hn : acceptedLen x.c x.ev.seqNum x.ev.dataLen = 0#32
  · left
    refine ⟨hn, ?_⟩
    obtain ⟨-, hev, -⟩ := detectOooDataEp_accepted h
    obtain ⟨hev', -, hdrop⟩ := flushOooDataEp_payload (x := detectOooDataEp (verifyTrimDataEp x))
    have hlen : (flushOooDataEp (detectOooDataEp (verifyTrimDataEp x))).ev.dataLen = 0#32 := by
      rw [hev', hev, verifyTrimDataEp_accepted h, hn]
    have hbefore : (flushOooDataEp (detectOooDataEp (verifyTrimDataEp x))).io.drop = true := by
      rw [hdrop, detectOooDataEp_payload.1, verifyTrimDataEp_drop]
    unfold dataChain
    rw [sendAck_payload.1, sendAck_payload.2]
    rcases dataNetEp_payload hbefore with ⟨-, hne, -⟩ | ⟨-, hpoison⟩
    · exact absurd hlen hne
    · exact hpoison
  · right
    rcases h with hempty | hcov
    · exact absurd (by rw [acceptedLen, if_pos hempty]) hn
    · have hstart := rxseqTrimStart_of_covers hcov
      rw [acceptedLen_of_covers hcov] at hn ⊢
      have hin := dataChain_of_inOrder (x := x) (rxseqOverlaps_of_covers hcov)
        (by rw [hstart, BitVec.add_comm, BitVec.sub_add_cancel]) hn
      rw [hstart] at hin
      exact ⟨hn, hin⟩

theorem toNat_acceptedLen_of_covers {c : BpfTcpConn} {seq len : U32} (h : Covers c seq len) :
    (acceptedLen c seq len).toNat = min (len.toNat - ahead seq c.rxNextSeq) c.rxAvail.toNat := by
  rw [acceptedLen_of_covers h, toNat_lenAfterTrim_of_covers h]

end

end MtpXdp.Ebpf

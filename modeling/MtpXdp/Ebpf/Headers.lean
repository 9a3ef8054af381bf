import Mathlib.Tactic.IntervalCases
import MtpXdp.Ebpf.State

/-!
# Header Construction and the ACK Queue

The two TCP header fillers, the IP header filler with its checksum, the parser of an incoming
header, and the queue through which `send_ack` hands ACKs to `xdp_gen_prog`. Byte order is that of a
little-endian machine.
-/

namespace MtpXdp.Ebpf

open BitVec

/-! ## Byte order -/

def bswap16 (x : U16) : U16 := (x.extractLsb' 0 8 ++ x.extractLsb' 8 8 : BitVec (8 + 8))

def bswap32 (x : U32) : U32 :=
  (x.extractLsb' 0 8 ++ x.extractLsb' 8 8 ++ x.extractLsb' 16 8 ++ x.extractLsb' 24 8 :
    BitVec (8 + 8 + 8 + 8))

def bpfHtons (x : U32) : U16 := bswap16 (x.setWidth 16)

def bpfNtohs (x : U16) : U32 := (bswap16 x).setWidth 32

def bpfHtonl (x : U32) : U32 := bswap32 x

def bpfNtohl (x : U32) : U32 := bswap32 x

theorem toNat_bswap16 (x : U16) : (bswap16 x).toNat = x.toNat % 256 * 256 + x.toNat / 256 := by
  have hhi : x.toNat / 256 < 2 ^ 8 := by omega
  simp only [bswap16, toNat_append, extractLsb'_toNat, Nat.shiftRight_zero]
  rw [show x.toNat >>> 8 = x.toNat / 256 by simp [Nat.shiftRight_eq_div_pow],
    Nat.mod_eq_of_lt hhi, ← Nat.shiftLeft_add_eq_or_of_lt hhi, Nat.shiftLeft_eq]

@[simp] theorem bswap32_bswap32 (x : U32) : bswap32 (bswap32 x) = x := by
  apply eq_of_getLsbD_eq
  intro i hi
  simp only [bswap32, getLsbD_append, getLsbD_extractLsb']
  interval_cases i <;> simp

theorem toNat_bpfNtohs (x : U16) : (bpfNtohs x).toNat = x.toNat % 256 * 256 + x.toNat / 256 := by
  rw [bpfNtohs, toNat_setWidth, toNat_bswap16]
  omega

/-! ## TCP header -/

def tcpFlagFin : U16 := 0x0100#16
def tcpFlagSyn : U16 := 0x0200#16
def tcpFlagRst : U16 := 0x0400#16
def tcpFlagPsh : U16 := 0x0800#16
def tcpFlagAck : U16 := 0x1000#16
def tcpFlagUrg : U16 := 0x2000#16
def tcpFlagEce : U16 := 0x4000#16
def tcpFlagCwr : U16 := 0x8000#16

def setTcpFlag (h : TcpHdr) (len flags : U16) : TcpHdr :=
  { h with
    doff := len
    fin := flags &&& tcpFlagFin != 0#16
    syn := flags &&& tcpFlagSyn != 0#16
    rst := flags &&& tcpFlagRst != 0#16
    psh := flags &&& tcpFlagPsh != 0#16
    ack := flags &&& tcpFlagAck != 0#16
    urg := flags &&& tcpFlagUrg != 0#16
    ece := flags &&& tcpFlagEce != 0#16
    cwr := flags &&& tcpFlagCwr != 0#16 }

def tsOptOf (tsVal tsEcr : U32) : TsOpt where
  kind := 1
  length := 2
  tsVal := bpfHtonl tsVal
  tsEcr := bpfHtonl tsEcr

/-- Header length in words: `5 + TS_OPT_SIZE / 4`. -/
def tcpDoff : U16 := BitVec.ofNat 16 (5 + tsOptSize / 4)

def mtpFillTcpHdr (p : Pkt) (c : BpfTcpConn) (flags : U16) (bp : TCPBP) : Pkt :=
  match p.ts with
  | none => p
  | some _ =>
    let tcp := { p.tcp with seq := bpfHtonl bp.seqNum, ackSeq := bpfHtonl bp.ackSeq }
    let tcp := { setTcpFlag tcp tcpDoff flags with ack := bp.isAck }
    let rxWnd : U32 := bp.rwndSize.setWidth 32
    { p with
      tcp := { tcp with window := bpfHtons rxWnd >>> tcpWndScale, urgPtr := 0#16, check := 0#16 }
      ts := some (tsOptOf bp.desiredTxTs c.txNextTs) }

def fillTcpHdr (p : Pkt) (c : BpfTcpConn) (tgtTs : U32) (flags : U16) : Pkt :=
  match p.ts with
  | none => p
  | some _ =>
    let tcp := { p.tcp with seq := bpfHtonl c.txNextSeq, ackSeq := bpfHtonl c.rxNextSeq }
    let tcp := setTcpFlag tcp tcpDoff flags
    { p with
      tcp := { tcp with
        window := bpfHtons c.rxAvail >>> tcpWndScale, urgPtr := 0#16, check := 0#16 }
      ts := some (tsOptOf tgtTs c.txNextTs) }

/-! ## IP header -/

def csumFoldRound (csum : U64) : U64 :=
  if csum >>> 16 != 0#64 then (csum &&& 0xFFFF#64) + (csum >>> 16) else csum

def csumFoldHelper (csum : U64) : U16 :=
  (~~~ csumFoldRound (csumFoldRound (csumFoldRound (csumFoldRound csum)))).setWidth 16

/-- The ten 16 bit words of the IP header as `ipv4_csum_inline` reads them. -/
def IpHdr.words (h : IpHdr) : List U16 :=
  [ h.tos ++ (h.version <<< 4 ||| h.ihl), h.totLen, h.id, h.fragOff,
    h.protocol ++ h.ttl, h.check,
    h.saddr.setWidth 16, (h.saddr >>> 16).setWidth 16,
    h.daddr.setWidth 16, (h.daddr >>> 16).setWidth 16 ]

def ipv4CsumInline (h : IpHdr) : U16 :=
  csumFoldHelper (h.words.foldl (fun s w => s + w.setWidth 64) 0#64)

def fillIpHdr (h : IpHdr) (payloadLen : U32) (ece : Bool) : IpHdr :=
  let h := { h with
    ihl := 5
    version := 4
    tos := if ece then 2 else 0
    totLen := bpfHtons (BitVec.ofNat 32 (20 + 20 + tsOptSize) + payloadLen)
    id := bpfHtons 0#32
    fragOff := 0
    ttl := 0xff
    protocol := 6 }
  { h with check := ipv4CsumInline h }

def parsePktToEvent (ip : IpHdr) (tcp : TcpHdr) (ts : TsOpt) : NetEvent where
  minorType := if tcp.ack then .ack else .data
  ackSeq := bpfNtohl tcp.ackSeq
  rwndSize := bpfNtohs tcp.window
  seqNum := bpfNtohl tcp.seq
  dataLen := bpfNtohs ip.totLen - BitVec.ofNat 32 (20 + 20 + tsOptSize)
  ecnMark := tcp.ece
  tsEcr := bpfNtohl ts.tsEcr
  tsVal := bpfNtohl ts.tsVal
  timestamp := 0#32

/-! ## ACK queue -/

/-- The ACK entry that `mtp_pkt_gen_for_xdp_gen` stores over `old`; `ecn_flags` is kept. -/
def ackEntry (old : BpfTcpAck) (bp : TCPBP) (c : BpfTcpConn) : BpfTcpAck where
  localIp := c.localIp
  remoteIp := c.remoteIp
  localPort := bp.srcPort
  remotePort := bp.destPort
  seq := bp.seqNum
  ack := bp.ackSeq
  rxwnd := bp.rwndSize.setWidth 32
  tsVal := bp.desiredTxTs
  tsEcr := c.txNextTs
  ecnFlags := old.ecnFlags
  isAck := bp.isAck

/-- `mtp_pkt_gen_for_xdp_gen`. When the queue is full, the stores through `NULL` have no effect
    here. -/
def mtpPktGenForXdpGen (bp : TCPBP) (c : BpfTcpConn) (r : AckRing) : BpfTcpConn × AckRing :=
  if r.cons = ringNext r.prod then
    ({ c with txNextTs := 0#32 }, { r with prod := ringNext r.prod })
  else
    match r.lookup r.prod with
    | none => (c, r)
    | some old =>
      let r := r.write r.prod (ackEntry old bp c)
      ({ c with txNextTs := 0#32 }, { r with prod := ringNext r.prod })

def dequeueAck (r : AckRing) : Option BpfTcpAck × AckRing :=
  if r.prod = r.cons then (none, r)
  else (r.lookup r.cons, { r with cons := ringNext r.cons })

def xdpGenHeaders (a : BpfTcpAck) (p : Pkt) : Pkt where
  ip := fillIpHdr { p.ip with saddr := bpfHtonl a.localIp, daddr := bpfHtonl a.remoteIp } 0#32 false
  tcp := { p.tcp with
    source := bpfHtons (a.localPort.setWidth 32)
    dest := bpfHtons (a.remotePort.setWidth 32)
    seq := bpfHtonl a.seq
    ackSeq := bpfHtonl a.ack
    doff := tcpDoff
    fin := false
    syn := false
    rst := false
    psh := false
    ack := true
    urg := false
    ece := a.ecnFlags.getLsbD 0
    cwr := false
    window := bpfHtons a.rxwnd
    urgPtr := 0#16
    check := 0#16 }
  ts := some (tsOptOf a.tsVal a.tsEcr)

def xdpGenProg (r : AckRing) (p : Pkt) : Option Pkt × AckRing :=
  if r.prod = r.cons then (none, r)
  else
    let (a, r) := dequeueAck r
    (a.map (xdpGenHeaders · p), r)

end MtpXdp.Ebpf

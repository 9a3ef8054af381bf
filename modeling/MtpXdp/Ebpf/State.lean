import Mathlib.Algebra.Ring.Nat

/-!
# Data of the TCP eBPF Programs

The records that the TCP programs under `micro_kernel/eBPF/tcp` read and write,
with the C field widths: `__u16`, `__u32` and `__u64` are bit vectors, so all
arithmetic on sequence numbers and counters wraps as it does in C.
-/

namespace MtpXdp.Ebpf

abbrev U8 := BitVec 8
abbrev U16 := BitVec 16
abbrev U32 := BitVec 32
abbrev U64 := BitVec 64

instance : LawfulBEq U16 := inferInstance

/-! ## Constants -/

def poison16 : U16 := 0xFFFF#16
def poison32 : U32 := 0xFFFFFFFF#32
def poison64 : U64 := 0xFFFFFFFFFFFFFFFF#64

def recoveryMask : U32 := 0x80000000#32

def flagSync : U64 := 1#64
def flagTo : U64 := 2#64

def tcpWndScale : Nat := 3

def tcpMaxRtt : U32 := 100000#32

def linkBandwidth : U64 := 3125000000#64

def napiBatchSize : U32 := 64#32

def tsOptSize : Nat := 12

def headersLen : Nat := 14 + 20 + 20 + tsOptSize

/-! ## Map values -/

structure BpfTcpConn where
  opaqueConnection : U64
  localIp : U32
  remoteIp : U32
  localPort : U16
  remotePort : U16
  txBufSize : U32
  rxRemoteAvail : U32
  txPending : U32
  txNextPos : U32
  txNextTs : U32
  ecnEnable : Bool
  rxNextSeq : U32
  rxOooStart : U32
  rxOooLen : U32
  rxDupackCnt : U16
  txNextSeq : U32
  rxAvail : U32
  sendUna : U32
  dataEnd : U32
  bufCurrSeq : U32
  recvInitSeq : U32
deriving Inhabited

structure BpfCc where
  prevDesiredTxTs : U64
  rate : U32
  cntTxDrops : U16
  cntRxAcks : U16
  cntRxAckBytes : U32
  cntRxEcnBytes : U32
  rttEst : U32
  txp : U32
  currTsc : U64
deriving Inhabited

/-! ## Metadata in front of a packet -/

/-- `meta_info.tx`: written by user space, read by the egress program. -/
structure TxMeta where
  slowpath : U64
  flag : U64
  rxBump : U32
  txPending : U32
  txPos : U32
  plen : U32
deriving Inhabited

/-- `meta_info.rx`. `ackBytes` is the union member that is also called `go_back_pos`. -/
structure RxMeta where
  qid : U32
  conn : U64
  rxPos : U32
  poff : U16
  plen : U16
  xskBudgetAvail : U32
  ackBytes : U32
  oooBump : U32
deriving DecidableEq, Inhabited

def TxMeta.asRx (m : TxMeta) : RxMeta where
  qid := m.slowpath.setWidth 32
  conn := (m.flag.setWidth 32 ++ (m.slowpath >>> 32).setWidth 32 : BitVec (32 + 32))
  rxPos := (m.flag >>> 32).setWidth 32
  poff := m.rxBump.setWidth 16
  plen := (m.rxBump >>> 16).setWidth 16
  xskBudgetAvail := m.txPending
  ackBytes := m.txPos
  oooBump := m.plen

/-- Before the event processors: `memset 0xFF`, then the queue and the user-space connection. -/
def RxMeta.ingress (qid : U32) (conn : U64) : RxMeta where
  qid := qid
  conn := conn
  rxPos := poison32
  poff := poison16
  plen := poison16
  xskBudgetAvail := poison32
  ackBytes := poison32
  oooBump := poison32

/-! ## Events and blueprints (`mtp_defs.h`) -/

inductive AppTimerType where
  | timerEvent
  | appEvent
deriving DecidableEq, Inhabited

inductive EvType where
  | timerEvent
  | appEvent
  | netEvent
deriving DecidableEq

structure AppTimerEvent where
  type : AppTimerType
  dataSize : U32
  timestamp : U32
deriving Inhabited

inductive NetMinor where
  | data
  | ack
deriving DecidableEq, Inhabited

structure NetEvent where
  minorType : NetMinor
  ackSeq : U32
  rwndSize : U32
  tsEcr : U32
  dataLen : U32
  tsVal : U32
  seqNum : U32
  ecnMark : Bool
  timestamp : U32
deriving Inhabited

structure IntermOut where
  changeCwnd : Bool
  triggerAck : Bool
  drop : Bool
  skipDataEps : Bool
  numAckedBytes : U32
deriving Inhabited

structure TCPBP where
  srcPort : U16
  destPort : U16
  seqNum : U32
  ackSeq : U32
  isAck : Bool
  rwndSize : U16
  desiredTxTs : U32
deriving Inhabited

def TCPBP.zero : TCPBP where
  srcPort := 0#16
  destPort := 0#16
  seqNum := 0#32
  ackSeq := 0#32
  isAck := false
  rwndSize := 0#16
  desiredTxTs := 0#32

/-! ## Packet headers -/

structure TcpHdr where
  source : U16
  dest : U16
  seq : U32
  ackSeq : U32
  doff : U16
  fin : Bool
  syn : Bool
  rst : Bool
  psh : Bool
  ack : Bool
  urg : Bool
  ece : Bool
  cwr : Bool
  window : U16
  check : U16
  urgPtr : U16
deriving DecidableEq, Inhabited

structure TsOpt where
  kind : U8
  length : U8
  tsVal : U32
  tsEcr : U32
deriving DecidableEq, Inhabited

structure IpHdr where
  ihl : U8
  version : U8
  tos : U8
  totLen : U16
  id : U16
  fragOff : U16
  ttl : U8
  protocol : U8
  check : U16
  saddr : U32
  daddr : U32
deriving DecidableEq, Inhabited

/-- A packet's headers. `ts = none`: the timestamp option does not fit in front of `data_end`. -/
structure Pkt where
  ip : IpHdr
  tcp : TcpHdr
  ts : Option TsOpt
deriving DecidableEq, Inhabited

/-! ## The queue of pending ACKs -/

structure BpfTcpAck where
  localIp : U32
  remoteIp : U32
  localPort : U16
  remotePort : U16
  seq : U32
  ack : U32
  rxwnd : U32
  tsVal : U32
  tsEcr : U32
  ecnFlags : U8
  isAck : Bool
deriving Inhabited

structure AckRing where
  slots : U32 → BpfTcpAck
  prod : U32
  cons : U32

instance : Inhabited AckRing := ⟨⟨fun _ => default, 0, 0⟩⟩

def ringNext (i : U32) : U32 := (i + 1#32) &&& (napiBatchSize - 1#32)

def AckRing.lookup (r : AckRing) (i : U32) : Option BpfTcpAck :=
  if i < napiBatchSize then some (r.slots i) else none

def AckRing.write (r : AckRing) (i : U32) (a : BpfTcpAck) : AckRing :=
  { r with slots := fun j => if j = i then a else r.slots j }

end MtpXdp.Ebpf

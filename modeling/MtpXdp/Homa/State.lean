import MtpXdp.Core.RbTree
import MtpXdp.Ebpf.State

/-!
# Data of the Homa Programs

The maps and global variables of `eBPF/homa`: the table of RPCs, the grant list, the number
of incoming bytes, and what a CPU keeps between two runs of the grant programs. Header
fields are in host byte order.
-/

namespace MtpXdp.Homa

open Ebpf (U8 U16 U32 U64)
open MtpXdp.Core

/-! ## Parameters -/

def homaMss : Nat := 1500 - 20 - 60

def homaUnschedBytes : U32 := 60000#32

def homaMaxIncoming : U32 := 480000#32

def homaGrantWindow : U32 := 100000#32

def homaOvercommitment : Nat := 8

def homaMaxSchedPrio : Nat := 3

def grantFifoIncrement : U64 := 10000#64

def grantNonfifo : U32 := BitVec.ofNat 32 (1000 * 10000 / 100 - 10000)

def maxCpu : Nat := 20

def maxBucketSize : U64 := 8192#64

def maxUpdateDelayPackets : U64 := 32#64

def poison64 : U64 := BitVec.allOnes 64

/-! ## RPCs -/

structure RpcKey where
  rpcid : U64
  localPort : U16
  remotePort : U16
  remoteIp : U32
deriving DecidableEq, Inhabited

/-- `BPF_RPC_DEAD`, `BPF_RPC_OUTGOING`, `BPF_RPC_INCOMING`, `BPF_RPC_IN_SERVICE` -/
inductive RpcPhase where
  | dead
  | outgoing
  | incoming
  | inService
deriving DecidableEq

structure HomaCc where
  bytesRemaining : U64
  lastBytesRemaining : U64
  incoming : U64
  granted : U64
  schedPrio : U64

structure RpcState where
  state : RpcPhase
  remotePort : U16
  localPort : U16
  remoteIp : U32
  id : U64
  bitWidth : U16
  bitmapRound : U16
  messageLength : U32
  nrPktsInRl : U64
  qid : U64
  nextXmitOffset : U64
  cc : HomaCc
  bufferHead : U64
  bitmap : Fin 12 → U64

def RpcState.zero : RpcState where
  state := .dead
  remotePort := 0
  localPort := 0
  remoteIp := 0
  id := 0
  bitWidth := 0
  bitmapRound := 0
  messageLength := 0
  nrPktsInRl := 0
  qid := 0
  nextXmitOffset := 0
  cc := ⟨0, 0, 0, 0, 0⟩
  bufferHead := 0
  bitmap _ := 0

def localId (recvRpcid : U64) : U64 := recvRpcid ^^^ 1#64

def rpcIsClient (id : U64) : Bool := id &&& 1#64 == 0#64

def getPeerid (remoteIp : U32) : U16 := remoteIp.setWidth 16 &&& 31#16

structure DataHeader where
  sport : U16
  dport : U16
  seq : U16
  senderId : U64
  messageLength : U32
  incoming : U32
  retransmit : Bool
  segOffset : U32
  segmentLength : U32
deriving DecidableEq, Inhabited

/-- `homa_parse_data_hdr`: whether the message fits into one packet. -/
def DataHeader.singlePacket (d : DataHeader) : Bool := decide (d.messageLength.toNat ≤ homaMss)

def DataHeader.hkey (d : DataHeader) (remoteIp : U32) : RpcKey where
  rpcid := localId d.senderId
  localPort := d.dport
  remotePort := d.sport
  remoteIp := remoteIp

structure DeadClientRpcInfo where
  remoteIp : U32
  remotePort : U16
  localPort : U16
  rpcid : U64
deriving DecidableEq

/-! ## The grant list -/

inductive TreeId where
  | rpc
  | peer
deriving DecidableEq

/-- `struct rpc_state_cc`. The lowest bit of `birth` says that the RPC is in the peer tree. -/
structure RpcStateCc where
  treeId : TreeId
  peerId : U16
  bytesRemaining : U32
  incoming : U32
  hkey : RpcKey
  birth : U64
  messageLength : U32

def RpcStateCc.inPeerTree (n : RpcStateCc) : Bool := n.birth.getLsbD 0

structure RemoveInfo where
  rpcid : U64
  localPort : U16
  remotePort : U16
  remoteIp : U32
  newgrant : U32
  priority : U8
deriving Inhabited

/-- `remove_info`, `remove`, `nr_grant_candidate`, `nr_grant_ready` and `need_grant_fifo` of a CPU.
    -/
structure GrantCpu where
  ri : Nat → RemoveInfo
  remove : Nat → Bool
  nrGrantCandidate : Nat
  nrGrantReady : Nat
  needGrantFifo : Bool
deriving Inhabited

/-- The RPC whose place is brought up to date later: `cache_has_rpc`, `cache_rpc`,
    `update_delay_packets`. -/
structure CachedRpc where
  hasRpc : Bool
  rpc : RpcKey
  delayPackets : U64
deriving Inhabited

structure HomaState where
  rpcTbl : RpcKey → Option RpcState
  totalIncoming : U64
  groot : RbTree RpcStateCc
  cache : Nat → CachedRpc
  grantCpu : Nat → GrantCpu
  grantNonfifoLeft : U32
  peerAck : U16 → List DeadClientRpcInfo
  availPacingIdx : List U64

def HomaState.initial : HomaState where
  rpcTbl _ := none
  totalIncoming := 0
  groot := .empty
  cache _ := default
  grantCpu _ := default
  grantNonfifoLeft := 0
  peerAck _ := []
  availPacingIdx := (List.range maxBucketSize.toNat).map (BitVec.ofNat 64)

/-- `XDP_DROP` and `XDP_REDIRECT`: the packet goes nowhere, or to user space. -/
inductive Verdict where
  | drop
  | redirect
deriving DecidableEq

/-- The CPU, the time, room in the table, and objects for the grant list and a cached update. -/
structure Env where
  cpu : Nat
  now : U64
  mapOk : Bool
  objOk : Bool
  cacheObjOk : Bool
deriving Inhabited

def HomaState.setRpc (s : HomaState) (k : RpcKey) (r : RpcState) : HomaState :=
  { s with rpcTbl := Function.update s.rpcTbl k (some r) }

theorem rpcTbl_setRpc (s : HomaState) (k : RpcKey) (r : RpcState) :
    (s.setRpc k r).rpcTbl k = some r := Function.update_self ..

theorem rpcTbl_setRpc_of_ne (s : HomaState) (r : RpcState) {k k' : RpcKey} (h : k' ≠ k) :
    (s.setRpc k r).rpcTbl k' = s.rpcTbl k' := Function.update_of_ne h ..

def HomaState.deleteRpc (s : HomaState) (k : RpcKey) : HomaState :=
  { s with rpcTbl := Function.update s.rpcTbl k none }

def HomaState.freeQid (s : HomaState) (qid : U64) : HomaState :=
  if s.availPacingIdx.length < maxBucketSize.toNat then
    { s with availPacingIdx := s.availPacingIdx ++ [qid] }
  else s

/-- `enqueue_dead_crpc`. Only the first 16 hosts have a queue, and a full one drops its oldest
    entry. -/
def HomaState.enqueueDeadCrpc (s : HomaState) (k : RpcKey) : HomaState :=
  let info : DeadClientRpcInfo := ⟨k.remoteIp, k.remotePort, k.localPort, k.rpcid⟩
  let q := s.peerAck (getPeerid k.remoteIp)
  let q := if q.length < 2048 then q else q.tail
  { s with peerAck := if (getPeerid k.remoteIp).toNat < 16 then
      Function.update s.peerAck (getPeerid k.remoteIp) (q ++ [info]) else s.peerAck }

theorem toNat_setWidth_64 (x : U32) : (x.setWidth 64 : U64).toNat = x.toNat := by
  rw [BitVec.toNat_setWidth]
  exact Nat.mod_eq_of_lt (x.isLt.trans (by decide))

end MtpXdp.Homa

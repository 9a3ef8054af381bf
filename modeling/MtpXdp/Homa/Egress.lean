import MtpXdp.Homa.State

/-!
# Packets That Leave

`client_request` and `server_response` of `eBPF/homa/rpc.h`: a packet with credit leaves at once;
otherwise it goes to the RPC's queue in the rate limiter, and the node in the throttle tree tells
the pacer about it. Each call is one step here; `Homa.Pacer` has the steps in between.
-/

namespace MtpXdp.Homa

open Ebpf (U8 U32 U64)
open MtpXdp.Core

def homaMinThrottledBytes : U32 := 200#32

def homaMaxPriority : U8 := 8#8

def DataHeader.txKey (d : DataHeader) (daddr : U32) : RpcKey where
  rpcid := d.senderId
  localPort := d.sport
  remotePort := d.dport
  remoteIp := daddr

def DataHeader.fin (d : DataHeader) : U32 := d.segOffset + d.segmentLength

def DataHeader.fin64 (d : DataHeader) : U64 := d.fin.setWidth 64

def srptLessPacer (a b : RpcStateCc) : Bool :=
  if a.bytesRemaining ≠ b.bytesRemaining then a.bytesRemaining < b.bytesRemaining
  else if a.hkey.rpcid ≠ b.hkey.rpcid then a.hkey.rpcid < b.hkey.rpcid
  else if a.hkey.localPort ≠ b.hkey.localPort then a.hkey.localPort < b.hkey.localPort
  else true

/-- The RPCs with the free queue ids, the throttle tree, the objects behind `cc_node`, and
    `nr_rpc_in_throttle`. -/
structure TxState where
  homa : HomaState
  troot : RbTree RpcStateCc
  ccNode : RpcKey → Option (Nat × RpcStateCc)
  nrRpcInThrottle : U64

def TxState.initial : TxState := ⟨.initial, .empty, fun _ => none, 0⟩

/-- `XDP_DROP`, `XDP_TX`, and `XDP_REDIRECT` into the queue `rpc_qid`; `trigger` wakes the pacer. -/
inductive TxAction where
  | drop
  | tx
  | redirect (rpcQid : U64) (trigger : Bool)

structure TxResult where
  action : TxAction
  prio : U8
  incoming : U32

def TxResult.dropped : TxResult := ⟨.drop, 0, 0⟩

/-- The time, room in the table, `check_nic_queue` and `get_prio`, and whether objects and
    references are to be had. -/
structure TxEnv where
  now : U64
  mapOk : Bool
  nicFree : Bool
  obj : Option Nat
  refOk : Bool
  unschedPrio : U8

def HomaState.allocateQid (s : HomaState) : U64 × HomaState :=
  match s.availPacingIdx with
  | [] => (maxBucketSize, s)
  | q :: rest => (q, { s with availPacingIdx := rest })

def throttleNode (k : RpcKey) (r : RpcState) (now : U64) : RpcStateCc where
  treeId := .rpc
  peerId := 0
  bytesRemaining := (r.messageLength.setWidth 64 - r.nextXmitOffset).setWidth 32
  incoming := 0
  hkey := k
  birth := now
  messageLength := 0

/-- The RPC gets a queue id (the result) and a node in the throttle tree, unless an allocation
    fails. -/
def enterThrottle (s : TxState) (k : RpcKey) (r : RpcState) (env : TxEnv) : TxState × Option U64 :=
  let (q, h) := s.homa.allocateQid
  let r := { r with qid := q }
  let s := { s with homa := h.setRpc k r }
  if q = maxBucketSize then (s, none)
  else
    match env.obj with
    | none => (s, none)
    | some a =>
      if env.refOk then
        let n := throttleNode k r env.now
        ({ s with
            troot := s.troot.add srptLessPacer a n
            nrRpcInThrottle := s.nrRpcInThrottle + 1
            ccNode := Function.update s.ccNode k (some (a, n)) }, some q)
      else (s, none)

def maySend (r : RpcState) (d : DataHeader) (nicFree : Bool) : Bool :=
  decide (d.fin64 ≤ r.cc.granted) && r.nrPktsInRl == 0#64 &&
    (decide (d.segmentLength ≤ homaMinThrottledBytes) || nicFree)

/-- How `client_request` and `server_response` end: send, or leave the packet to the pacer. -/
def sendOrThrottle (s : TxState) (k : RpcKey) (r : RpcState) (d : DataHeader) (env : TxEnv) :
    TxState × TxResult :=
  let prio := if d.fin < homaUnschedBytes then env.unschedPrio else r.cc.schedPrio.setWidth 8
  let incoming := r.cc.granted.setWidth 32
  if maySend r d env.nicFree then
    ({ s with homa := s.homa.setRpc k { r with nextXmitOffset := d.fin64 } }, ⟨.tx, prio, incoming⟩)
  else
    let trigger := decide (d.fin64 ≤ r.cc.granted)
    let r := { r with nrPktsInRl := r.nrPktsInRl + 1 }
    if r.qid = maxBucketSize then
      match enterThrottle s k r env with
      | (s, none) => (s, .dropped)
      | (s, some q) => (s, ⟨.redirect q trigger, prio, incoming⟩)
    else
      ({ s with homa := s.homa.setRpc k r }, ⟨.redirect r.qid trigger, prio, incoming⟩)

def startOutgoing (r : RpcState) (d : DataHeader) (bufferAddr : U64) : RpcState :=
  { r with
    state := .outgoing
    messageLength := d.messageLength
    nextXmitOffset := d.segmentLength.setWidth 64
    bufferHead := bufferAddr
    nrPktsInRl := 0
    cc := { r.cc with
      schedPrio := 0
      granted := (if d.messageLength < homaUnschedBytes then d.messageLength
        else homaUnschedBytes).setWidth 64 }
    qid := maxBucketSize }

def newClientRpc (k : RpcKey) (d : DataHeader) (bufferAddr : U64) : RpcState :=
  startOutgoing
    { RpcState.zero with
      remotePort := k.remotePort
      localPort := k.localPort
      remoteIp := k.remoteIp
      id := k.rpcid } d bufferAddr

def sendSinglePacket (d : DataHeader) : TxResult := ⟨.tx, homaMaxPriority - 1, d.messageLength⟩

def clientRequest (s : TxState) (d : DataHeader) (daddr : U32) (bufferAddr : U64) (env : TxEnv) :
    TxState × TxResult :=
  let k := d.txKey daddr
  match s.homa.rpcTbl k with
  | none =>
    if d.seq = 0 ∧ env.mapOk then
      let r := newClientRpc k d bufferAddr
      let s := { s with
        homa := s.homa.setRpc k r
        ccNode := Function.update s.ccNode k none }
      if d.singlePacket then (s, sendSinglePacket d) else sendOrThrottle s k r d env
    else (s, .dropped)
  | some r =>
    -- the first packet does not replace an RPC (`BPF_NOEXIST`)
    if d.seq = 0 then (s, .dropped) else sendOrThrottle s k r d env

def serverResponse (s : TxState) (d : DataHeader) (daddr : U32) (bufferAddr : U64) (env : TxEnv) :
    TxState × TxResult :=
  let k := d.txKey daddr
  match s.homa.rpcTbl k with
  | none => (s, .dropped)
  | some r =>
    if d.seq = 0 then
      let r := startOutgoing r d bufferAddr
      let s := { s with homa := s.homa.setRpc k r }
      if d.singlePacket then (s, sendSinglePacket d) else sendOrThrottle s k r d env
    else sendOrThrottle s k r d env

/-! ## What a call does to the RPC -/

theorem homa_enterThrottle (s : TxState) (k : RpcKey) (r : RpcState) (env : TxEnv) :
    (enterThrottle s k r env).1.homa =
      s.homa.allocateQid.2.setRpc k { r with qid := s.homa.allocateQid.1 } := by
  unfold enterThrottle
  cases env.obj <;> dsimp only <;> split_ifs <;> rfl

theorem homa_sendOrThrottle (s : TxState) (k : RpcKey) (r : RpcState) (d : DataHeader)
    (env : TxEnv) : (sendOrThrottle s k r d env).1.homa =
      if maySend r d env.nicFree then s.homa.setRpc k { r with nextXmitOffset := d.fin64 }
      else if r.qid = maxBucketSize then
        s.homa.allocateQid.2.setRpc k
          { r with nrPktsInRl := r.nrPktsInRl + 1, qid := s.homa.allocateQid.1 }
      else s.homa.setRpc k { r with nrPktsInRl := r.nrPktsInRl + 1 } := by
  unfold sendOrThrottle
  by_cases hsend : maySend r d env.nicFree = true
  · simp only [hsend, if_true]
  · by_cases hqid : r.qid = maxBucketSize
    · have henter := homa_enterThrottle s k { r with nrPktsInRl := r.nrPktsInRl + 1 } env
      simp only [hsend, hqid, if_true, if_false, Bool.false_eq_true] at henter ⊢
      split <;> simp_all only
    · simp only [hsend, hqid, if_false, Bool.false_eq_true]

end MtpXdp.Homa

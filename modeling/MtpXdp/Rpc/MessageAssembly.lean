import MtpXdp.Core.Reassembly
import MtpXdp.Core.Run
import MtpXdp.Rpc.Requests

/-!
# Messages Received by an RPC Socket

`server_request` and `client_response` put the segments of messages together. A message of one
packet goes to its handler from the packet. For a longer one the first segment allocates a bounce
buffer; its state is an entry of `_req_handle_map`, or part of the request's slot (`actual_size` is
0 until the first segment). The handler is called when no segment is missing; then the entry is
erased, or the slot returned. It may itself enqueue requests.
-/

namespace MtpXdp.Rpc

open MtpXdp.Core Function
open Ebpf (U8 U16 U32 U64)
open Homa (homaMss)

/-! ## Data -/

structure RpcTuple where
  remoteIp : U32
  remotePort : U16
  rpcid : U64
deriving DecidableEq

structure DataSegment where
  sport : U16
  messageLength : U32
  offset : U32
  segmentLength : U32
  unused1 : U8
  data : Nat → U8

structure Buffer where
  buf : Option Nat
  actualSize : Nat

structure InternalReqHandle where
  buffer : Buffer
  dest : U32 × U16
  rpcid : U64
  slotIdx : U8
  qidx : U8
  count : U32

inductive Stage where
  | idle
  | sending
  | waiting
deriving DecidableEq

structure RespMeta where
  buffer : Buffer
  dest : U32 × U16
  rpcid : U64
  contHandler : Nat
  qidx : U8
  recvCount : U32
  owner : Nat
  stage : Stage

structure ReqHandle where
  contents : List U8
  dest : U32 × U16
  rpcid : U64
  slotIdx : U8
  qidx : U8

structure ContHandle where
  contents : List U8
  dest : U32 × U16
  rpcid : U64

inductive MsgKey where
  | request (t : RpcTuple)
  | response (id : Nat)
deriving DecidableEq

inductive Invocation where
  | request (t : RpcTuple) (h : ReqHandle)
  | response (id : Nat) (contHandler : Nat) (h : ContHandle)
  | slotFree (id : Nat) (slot : Nat)

def Invocation.key : Invocation → MsgKey
  | .request t _ => .request t
  | .response id _ _ => .response id
  | .slotFree id _ => .response id

def Invocation.contents : Invocation → Option (List U8)
  | .request _ h => some h.contents
  | .response _ _ h => some h.contents
  | .slotFree _ _ => none

structure RecvSocket where
  mem : Nat → Nat → U8
  reqHandleMap : RpcTuple → Option InternalReqHandle
  reqmetaSlots : Nat → RespMeta
  availableSlots : List Nat
  nextRpcid : U64
  started : Nat
  slotOf : Nat → Nat
  arrived : MsgKey → List Nat
  log : List Invocation

/-! ## Requests of this side -/

inductive LocalEvent where
  | start (buffer : Buffer) (dest : U32 × U16) (contHandler : Nat)
  | segmented (slot : Nat)

def localStep (s : RecvSocket) : LocalEvent → RecvSocket
  | .start buffer dest contHandler =>
    match s.availableSlots with
    | [] => s
    | slot :: rest =>
      { s with
        availableSlots := rest
        nextRpcid := s.nextRpcid + 2
        reqmetaSlots := update s.reqmetaSlots slot
          { s.reqmetaSlots slot with
            buffer := buffer, dest := dest, rpcid := s.nextRpcid, contHandler := contHandler
            owner := s.started, stage := .sending }
        started := s.started + 1
        slotOf := update s.slotOf s.started slot }
  | .segmented slot =>
    if (s.reqmetaSlots slot).stage = .sending then
      { s with
        reqmetaSlots := update s.reqmetaSlots slot
          { s.reqmetaSlots slot with
            buffer := { (s.reqmetaSlots slot).buffer with actualSize := 0 }
            stage := .waiting } }
    else s

/-! ## Segments -/

def copyTo (mem : Nat → Nat → U8) (buf offset len : Nat) (data : Nat → U8) : Nat → Nat → U8 :=
  update mem buf fun j =>
    if offset ≤ j ∧ j < offset + len then data (j - offset) else mem buf j

def Buffer.copy (b : Buffer) (mem : Nat → Nat → U8) (d : DataSegment) : Nat → Nat → U8 :=
  match b.buf with
  | none => mem
  | some buf => copyTo mem buf d.offset.toNat d.segmentLength.toNat d.data

def Buffer.contents (b : Buffer) (mem : Nat → Nat → U8) : List U8 :=
  match b.buf with
  | none => []
  | some buf => (List.range b.actualSize).map (mem buf)

/-- The first `n` bytes of the payload, which are passed on without a copy. -/
def DataSegment.payload (d : DataSegment) (n : Nat) : List U8 := (List.range n).map d.data

/-- `(msg_len + HOMA_MSS - 1) / HOMA_MSS - 1`: the segments missing after the first. -/
def DataSegment.missing (d : DataSegment) : U32 :=
  (d.messageLength + BitVec.ofNat 32 homaMss - 1) / BitVec.ofNat 32 homaMss - 1

def DataSegment.Single (d : DataSegment) : Prop := d.messageLength ≤ BitVec.ofNat 32 homaMss
deriving Decidable

namespace RecvSocket

def serverRequest (s : RecvSocket) (qidx : U8) (d : DataSegment) (remoteIp : U32) (rpcid : U64)
    (fresh : Nat) : RecvSocket :=
  let t : RpcTuple := ⟨remoteIp, d.sport, rpcid⟩
  let dest := (remoteIp, d.sport)
  if d.Single then
    -- `single_pkt_req_complete`
    { s with log := s.log ++
        [.request t ⟨d.payload d.messageLength.toNat, dest, rpcid, d.unused1, qidx⟩] }
  else
    match s.reqHandleMap t with
    | none =>
      let buffer : Buffer := ⟨some fresh, d.messageLength.toNat⟩
      { s with
        reqHandleMap := update s.reqHandleMap t
          (some ⟨buffer, dest, rpcid, d.unused1, qidx, d.missing⟩)
        mem := buffer.copy s.mem d }
    | some h =>
      let mem := h.buffer.copy s.mem d
      let count := h.count - 1
      if count = 0 then
        -- `multi_pkt_req_complete`
        { s with
          mem := mem
          reqHandleMap := update s.reqHandleMap t none
          log := s.log ++
            [.request t ⟨h.buffer.contents mem, h.dest, h.rpcid, h.slotIdx, h.qidx⟩] }
      else
        { s with
          mem := mem
          reqHandleMap := update s.reqHandleMap t (some { h with count := count }) }

def callHandler (s : RecvSocket) (slot : Nat) (contents : List U8) (inner : List LocalEvent) :
    RecvSocket :=
  let m := s.reqmetaSlots slot
  run localStep
    { s with log := s.log ++ [.response m.owner m.contHandler ⟨contents, m.dest, m.rpcid⟩] } inner

def pushSlot (s : RecvSocket) (slot : Nat) : RecvSocket :=
  { s with
    availableSlots := ringPush s.availableSlots slot
    reqmetaSlots := update s.reqmetaSlots slot { s.reqmetaSlots slot with stage := .idle }
    log := s.log ++ [.slotFree (s.reqmetaSlots slot).owner slot] }

def setSlot (s : RecvSocket) (slot : Nat) (m : RespMeta) : RecvSocket :=
  { s with reqmetaSlots := update s.reqmetaSlots slot m }

def clientResponse (s : RecvSocket) (qidx : U8) (d : DataSegment) (fresh : Nat)
    (inner : List LocalEvent) : RecvSocket :=
  let slot := d.unused1.toNat
  let m := s.reqmetaSlots slot
  if d.Single then
    let s := s.setSlot slot { m with buffer := ⟨none, d.messageLength.toNat⟩ }
    let s := s.callHandler slot (d.payload d.messageLength.toNat) inner
    -- for affinity
    let s := s.setSlot slot { s.reqmetaSlots slot with qidx := qidx }
    s.pushSlot slot
  else if m.buffer.actualSize = 0 then
    let buffer : Buffer := ⟨some fresh, d.messageLength.toNat⟩
    { s with
      mem := buffer.copy s.mem d
      reqmetaSlots := update s.reqmetaSlots slot
        { m with buffer := buffer, recvCount := d.missing } }
  else
    let mem := m.buffer.copy s.mem d
    let s := { s with mem := mem }.setSlot slot { m with recvCount := m.recvCount - 1 }
    if m.recvCount - 1 = 0 then
      (s.callHandler slot (m.buffer.contents mem) inner).pushSlot slot
    else s

end RecvSocket

/-! ## Bounce buffers -/

/-- The bounce buffer of an entry of `_req_handle_map`, with the number of segments missing. -/
def InternalReqHandle.held (h : InternalReqHandle) : Option (Nat × Nat) :=
  h.buffer.buf.map fun b => (b, h.count.toNat)

/-- The bounce buffer of a slot, while it waits for the rest of the response to `id`. -/
def RespMeta.held (m : RespMeta) (id : Nat) : Option (Nat × Nat) :=
  if m.owner = id ∧ m.stage = .waiting ∧ m.buffer.actualSize ≠ 0 then
    m.buffer.buf.map fun b => (b, m.recvCount.toNat)
  else none

def RecvSocket.held (s : RecvSocket) : MsgKey → Option (Nat × Nat)
  | .request t => (s.reqHandleMap t).bind InternalReqHandle.held
  | .response id => (s.reqmetaSlots (s.slotOf id)).held id

/-! ## Events -/

inductive RecvEvent where
  | request (qidx : U8) (d : DataSegment) (remoteIp : U32) (rpcid : U64) (fresh : Nat)
  | response (id : Nat) (qidx : U8) (d : DataSegment) (fresh : Nat) (inner : List LocalEvent)
  | sender (e : LocalEvent)
  /-- anything else that leaves the memory as `mem` -/
  | others (mem : Nat → Nat → U8)

def RecvSocket.arrive (s : RecvSocket) (k : MsgKey) (d : DataSegment) : RecvSocket :=
  { s with arrived := update s.arrived k (d.offset.toNat / homaMss :: s.arrived k) }

def recvStep (s : RecvSocket) : RecvEvent → RecvSocket
  | .request qidx d remoteIp rpcid fresh =>
    (s.serverRequest qidx d remoteIp rpcid fresh).arrive (.request ⟨remoteIp, d.sport, rpcid⟩) d
  | .response id qidx d fresh inner => (s.clientResponse qidx d fresh inner).arrive (.response id) d
  | .sender e => localStep s e
  | .others mem => { s with mem := mem }

end MtpXdp.Rpc

import MtpXdp.Homa.State

/-!
# Requests of an RPC Socket

The request side of `lib/eTran_rpc.cc`: `enqueue_request` gives a request a slot and an rpcid, or
keeps it in a backlog; `flush_rpc_request_queue` starts requests of the backlog and segments the
messages of the request queue. The two call each other. Rings are lists, with one element less than
they have places. How many packets `message_tx_segmentation` can get out is an input.
-/

namespace MtpXdp.Rpc

open Ebpf (U8 U16 U32 U64)
open Homa (homaMss)

/-! ## Data -/

def txBatchSize : Nat := 32

def maxOutstandingRpc : Nat := 256

def maxClassSize : Nat := 8 * 1024 * 1024

def homaPayloadOffset : Nat := 14 + 20 + 60

structure Request where
  buffer : List U8
  size_le : buffer.length ≤ maxClassSize
  daddr : U32
  dport : U16
  contHandler : Nat

structure ReqMeta where
  req : Request
  rpcid : U64
  seq : U16

structure Packet where
  daddr : U32
  dport : U16
  senderId : U64
  seq : U16
  messageLength : Nat
  slotIdx : U8
  offset : Nat
  segmentLength : Nat
  payload : List U8
  descLen : Nat

structure Started where
  req : Request
  slot : Nat
  rpcid : U64

structure RpcSocket where
  nextRpcid : U64
  reqmetaSlots : Nat → ReqMeta
  availableSlots : List Nat
  requestQueue : List Nat
  pendingRequestQueue : List Request
  /-- for each coming call of `message_tx_segmentation`, the packets there is room for -/
  txAvail : List Nat
  started : List Started
  inFlight : List Nat
  sent : List Packet

def ringPush (q : List Nat) (e : Nat) : List Nat :=
  if q.length = maxOutstandingRpc - 1 then q else q ++ [e]

def RpcSocket.initial : RpcSocket where
  nextRpcid := 0
  reqmetaSlots _ := ⟨⟨[], by decide, 0, 0, 0⟩, 0, 0⟩
  availableSlots := (List.range maxOutstandingRpc).foldl ringPush []
  requestQueue := []
  pendingRequestQueue := []
  txAvail := []
  started := []
  inFlight := []
  sent := []

theorem foldl_ringPush_range {n : Nat} (hn : n < maxOutstandingRpc) :
    (List.range n).foldl ringPush [] = List.range n := by
  induction n with
  | zero => rfl
  | succ n ih =>
    rw [List.range_succ, List.foldl_append, ih (by omega)]
    simp only [List.foldl_cons, List.foldl_nil, ringPush, List.length_range]
    exact if_neg (by omega)

theorem foldl_ringPush_all :
    (List.range maxOutstandingRpc).foldl ringPush [] = List.range (maxOutstandingRpc - 1) := by
  have hlast : List.range maxOutstandingRpc = List.range (maxOutstandingRpc - 1) ++ [255] :=
    List.range_succ
  rw [hlast, List.foldl_append, foldl_ringPush_range (by decide)]
  simp only [List.foldl_cons, List.foldl_nil, ringPush, List.length_range, if_true]

/-! ## Segmentation -/

def homaGetNrBuffersFromLen (len : Nat) : Nat := (len + homaMss - 1) / homaMss

def buildPacket (slot copyOffset size : Nat) (m : ReqMeta) : Packet :=
  let plen := min homaMss size
  { daddr := m.req.daddr
    dport := m.req.dport
    senderId := m.rpcid
    seq := m.seq
    messageLength := m.req.buffer.length
    slotIdx := BitVec.ofNat 8 slot
    offset := copyOffset
    segmentLength := plen
    payload := (m.req.buffer.drop copyOffset).take plen
    descLen := homaPayloadOffset + plen }

/-- The loop of `message_tx_segmentation`: the packets, `copy_offset` and the metadata after `n`
    rounds. -/
def segmentLoop (slot : Nat) : Nat → Nat → Nat → ReqMeta → List Packet × Nat × ReqMeta
  | 0, copyOffset, _, m => ([], copyOffset, m)
  | n + 1, copyOffset, size, m =>
    let plen := min homaMss size
    let r := segmentLoop slot n (copyOffset + plen) (size - plen) { m with seq := m.seq + 1 }
    (buildPacket slot copyOffset size m :: r.1, r.2)

/-- `message_tx_segmentation` with room for `avail` packets: the packets, the metadata and whether
    it is finished. -/
def messageTxSegmentation (m : ReqMeta) (slot avail : Nat) : List Packet × ReqMeta × Bool :=
  let copyOffset := m.seq.toNat * homaMss
  let size := m.req.buffer.length - copyOffset
  let nrBuffers := min (homaGetNrBuffersFromLen size) txBatchSize
  -- the loop ends early when buffers or places run out
  let r := segmentLoop slot (min nrBuffers avail) copyOffset size m
  (r.1, r.2.2, m.req.buffer.length ≤ r.2.1)

/-! ## Enqueueing and flushing -/

namespace RpcSocket

def segmentHead (s : RpcSocket) (slot : Nat) : RpcSocket :=
  let r := messageTxSegmentation (s.reqmetaSlots slot) slot (s.txAvail.headD 0)
  { s with
    reqmetaSlots := Function.update s.reqmetaSlots slot r.2.1
    sent := s.sent ++ r.1
    txAvail := s.txAvail.tail }

def segmentAnswer (s : RpcSocket) (slot : Nat) : Nat × Bool :=
  let r := messageTxSegmentation (s.reqmetaSlots slot) slot (s.txAvail.headD 0)
  (r.1.length, r.2.2)

def transmitLoop : List Nat → Nat → RpcSocket → RpcSocket
  | [], _, s => s
  | slot :: queue, budgetUse, s =>
    let answer := s.segmentAnswer slot
    let s := s.segmentHead slot
    -- an unfinished message is put back to the head of the queue
    if answer.2 = false then s
    else
      let s := { s with requestQueue := queue, inFlight := s.inFlight ++ [slot] }
      if txBatchSize ≤ budgetUse + answer.1 then s
      else transmitLoop queue (budgetUse + answer.1) s

def transmit (s : RpcSocket) : RpcSocket :=
  transmitLoop s.requestQueue 0 s

/-- `enqueue_request` once it has popped `slot`, up to the call of the flush. -/
def startRequest (s : RpcSocket) (r : Request) (slot : Nat) (rest : List Nat) : RpcSocket :=
  { s with
    availableSlots := rest
    reqmetaSlots := Function.update s.reqmetaSlots slot ⟨r, s.nextRpcid, 0⟩
    nextRpcid := s.nextRpcid + 2
    requestQueue := ringPush s.requestQueue slot
    started := ⟨r, slot, s.nextRpcid⟩ :: s.started }

def enqueueRequestWith (flush : RpcSocket → Option RpcSocket) (s : RpcSocket) (r : Request) :
    Option RpcSocket :=
  match s.availableSlots with
  | [] => some { s with pendingRequestQueue := s.pendingRequestQueue ++ [r] }
  | slot :: rest =>
    let s := s.startRequest r slot rest
    if txBatchSize < s.requestQueue.length then flush s else some s

/-- The first loop of `flush_rpc_request_queue`. The request is popped after the call, which may
    have popped it; popping an empty `std::queue` is undefined. -/
def flushPending : Nat → RpcSocket → Option RpcSocket
  | 0, s => some s
  | fuel + 1, s =>
    match s.pendingRequestQueue with
    | [] => some s
    | r :: _ =>
      if s.availableSlots = [] then some s
      else
        (enqueueRequestWith (fun s => (flushPending fuel s).map transmit) s r).bind fun s =>
          match s.pendingRequestQueue with
          | [] => none
          | _ :: rest => flushPending fuel { s with pendingRequestQueue := rest }

def flushRpcRequestQueue (s : RpcSocket) : Option RpcSocket :=
  (flushPending s.availableSlots.length s).map transmit

def enqueueRequest (s : RpcSocket) (r : Request) : Option RpcSocket :=
  enqueueRequestWith flushRpcRequestQueue s r

/-- The end of `client_response`: the slot of a request whose response is complete is available
    again. -/
def returnSlot (s : RpcSocket) (slot : Nat) : RpcSocket :=
  { s with
    availableSlots := ringPush s.availableSlots slot
    inFlight := s.inFlight.erase slot }

end RpcSocket

end MtpXdp.Rpc

import Mathlib.Data.List.Range
import Mathlib.Tactic.Ring
import MtpXdp.Core.Run
import MtpXdp.Rpc.Requests

/-!
# Requests Are Submitted Once and in Order

A request waits in the backlog, then it has a slot and waits in the request queue, then it is
segmented. The flush takes a request off the backlog only after `enqueue_request` has returned. When
that call flushes in its turn, the request is started again, and the requests popped afterwards are
others. `FlushOk` says that this does not happen; a request that is enqueued while older ones are in
the backlog must not find a slot either.
-/

namespace MtpXdp.Rpc

open MtpXdp.Core List
open Ebpf (U64)
open Homa (homaMss)
open List Function Option RpcSocket Started

variable {c cur i slot : Nat} {slots : Nat → ReqMeta} {s : RpcSocket}

/-! ## The packets of a message -/

def Started.packet (w : Started) (k : Nat) : Packet :=
  buildPacket w.slot (k * homaMss) (w.req.buffer.length - k * homaMss)
    ⟨w.req, w.rpcid, BitVec.ofNat 16 k⟩

def Started.packets (w : Started) : List Packet :=
  (List.range (homaGetNrBuffersFromLen w.req.buffer.length)).map w.packet

theorem homaGetNrBuffersFromLen_le_iff (len k : Nat) :
    homaGetNrBuffersFromLen len ≤ k ↔ len ≤ k * homaMss := by
  simp only [homaGetNrBuffersFromLen, homaMss]
  omega

@[simp] theorem Started.length_packets (w : Started) :
    w.packets.length = homaGetNrBuffersFromLen w.req.buffer.length := by
  simp [packets]

theorem Started.length_packets_lt (w : Started) : w.packets.length < 2 ^ 16 := by
  have hle := w.req.size_le
  simp only [maxClassSize] at hle
  have h : homaGetNrBuffersFromLen w.req.buffer.length ≤ 2 ^ 15 := by
    rw [homaGetNrBuffersFromLen_le_iff]
    simp only [homaMss]
    omega
  rw [w.length_packets]
  omega

theorem Started.drop_packets (w : Started) (hc : c < w.packets.length) :
    w.packets.drop c = w.packet c :: w.packets.drop (c + 1) := by
  rw [drop_eq_getElem_cons hc]
  simp [packets]

theorem segmentLoop_eq (w : Started) {n : Nat} (h : c + n ≤ w.packets.length) :
    segmentLoop w.slot n (c * homaMss) (w.req.buffer.length - c * homaMss)
        ⟨w.req, w.rpcid, BitVec.ofNat 16 c⟩ = ((w.packets.drop c).take n,
        if n = 0 then c * homaMss else min w.req.buffer.length ((c + n) * homaMss),
        ⟨w.req, w.rpcid, BitVec.ofNat 16 (c + n)⟩) := by
  induction n generalizing c with
  | zero => simp [segmentLoop]
  | succ n ih =>
    have hseq : BitVec.ofNat 16 c + 1 = BitVec.ofNat 16 (c + 1) := by
      rw [BitVec.ofNat_add]
      rfl
    have hnext : c * homaMss + min homaMss (w.req.buffer.length - c * homaMss) =
        min w.req.buffer.length ((c + 1) * homaMss) := by
      have hlt : ¬ w.req.buffer.length ≤ c * homaMss := by
        rw [← homaGetNrBuffersFromLen_le_iff, ← w.length_packets]
        omega
      rw [Nat.succ_mul]
      omega
    rw [w.drop_packets (by omega), take_succ_cons]
    simp only [segmentLoop, hseq, hnext]
    cases n with
    | zero => simp [segmentLoop, packet]
    | succ n =>
      -- only the last packet of a message is short
      have hfull : min w.req.buffer.length ((c + 1) * homaMss) = (c + 1) * homaMss := by
        have hlt : ¬ w.req.buffer.length ≤ (c + 1) * homaMss := by
          rw [← homaGetNrBuffersFromLen_le_iff, ← w.length_packets]
          omega
        omega
      have hsize : w.req.buffer.length - c * homaMss -
          min homaMss (w.req.buffer.length - c * homaMss) =
          w.req.buffer.length - (c + 1) * homaMss := by
        omega
      rw [hfull, hsize, ih (by omega), Nat.add_right_comm c 1]
      simp [packet, Nat.add_assoc]

theorem messageTxSegmentation_eq (w : Started) (hc : c = 0 ∨ c < w.packets.length) (avail : Nat) :
    ∃ i, c + i ≤ w.packets.length ∧
      messageTxSegmentation ⟨w.req, w.rpcid, BitVec.ofNat 16 c⟩ w.slot avail =
        ((w.packets.drop c).take i, ⟨w.req, w.rpcid, BitVec.ofNat 16 (c + i)⟩,
          decide (w.packets.length ≤ c + i)) := by
  have hle : c ≤ w.packets.length := by omega
  have hseq : (BitVec.ofNat 16 c).toNat = c := by
    exact Nat.mod_eq_of_lt (lt_of_le_of_lt hle w.length_packets_lt)
  have hleft : homaGetNrBuffersFromLen (w.req.buffer.length - c * homaMss) =
      w.packets.length - c := by
    rw [w.length_packets]
    simp only [homaGetNrBuffersFromLen, homaMss]
    omega
  refine ⟨min (min (w.packets.length - c) txBatchSize) avail, by omega, ?_⟩
  simp only [messageTxSegmentation, hseq, hleft]
  rw [segmentLoop_eq w (by omega)]
  congr 2
  -- `copy_offset` reaches the end of the message with the last packet
  rw [decide_eq_decide, w.length_packets, homaGetNrBuffersFromLen_le_iff]
  split_ifs with h0
  · rw [h0, Nat.add_zero]
  · exact le_min_iff.trans (and_iff_right le_rfl)

/-! ## The stages of a request -/

/-- The slots hold what was enqueued; `cur` packets of the first are sent, none of the others. -/
def SlotsHold (slots : Nat → ReqMeta) (cur : Nat) : List Started → Prop
  | [] => cur = 0
  | w :: rest =>
    (cur = 0 ∨ cur < w.packets.length) ∧
    slots w.slot = ⟨w.req, w.rpcid, BitVec.ofNat 16 cur⟩ ∧
    ∀ v ∈ rest, slots v.slot = ⟨v.req, v.rpcid, 0⟩

theorem SlotsHold.congr {slots' : Nat → ReqMeta} {ws : List Started}
    (h : SlotsHold slots cur ws) (heq : ∀ w ∈ ws, slots' w.slot = slots w.slot) :
    SlotsHold slots' cur ws := by
  cases ws with
  | nil => exact h
  | cons w rest =>
    refine ⟨h.1, (heq w mem_cons_self).trans h.2.1, ?_⟩
    intro v hv
    exact (heq v (mem_cons_of_mem _ hv)).trans (h.2.2 v hv)

theorem SlotsHold.tail {w : Started} {rest : List Started}
    (h : SlotsHold slots cur (w :: rest)) : SlotsHold slots 0 rest := by
  cases rest with
  | nil => rfl
  | cons v rest =>
    refine ⟨.inl rfl, h.2.2 v mem_cons_self, ?_⟩
    intro u hu
    exact h.2.2 u (mem_cons_of_mem _ hu)

theorem SlotsHold.append {v : Started} {ws : List Started}
    (h : SlotsHold slots cur ws) (hv : slots v.slot = ⟨v.req, v.rpcid, 0⟩) :
    SlotsHold slots cur (ws ++ [v]) := by
  cases ws with
  | nil =>
    obtain rfl : cur = 0 := h
    exact ⟨.inl rfl, hv, by simp⟩
  | cons w rest =>
    refine ⟨h.1, h.2.1, ?_⟩
    intro u hu
    rcases mem_append.mp hu with hu | hu
    · exact h.2.2 u hu
    · rw [mem_singleton.mp hu, hv]

def RpcSocket.places (s : RpcSocket) : List Nat :=
  s.availableSlots ++ s.requestQueue ++ s.inFlight

def rpcidOf (i : Nat) : U64 := BitVec.ofNat 64 (2 * i)

/-- Those of `done` are segmented, `waiting` are in the request queue, `cur` packets of its first
    are sent. -/
structure Serving (s : RpcSocket) (done waiting : List Started) (cur : Nat) : Prop where
  started : s.started.reverse = done ++ waiting
  queue : s.requestQueue = waiting.map Started.slot
  hold : SlotsHold s.reqmetaSlots cur waiting
  sent : s.sent = done.flatMap Started.packets ++
    ((waiting.head?.map Started.packets).getD []).take cur
  places : s.places.Perm (List.range (maxOutstandingRpc - 1))
  rpcids : s.started.reverse.map Started.rpcid = (List.range s.started.length).map rpcidOf
  next : s.nextRpcid = rpcidOf s.started.length

namespace Serving

variable {done waiting rest : List Started} {w : Started}

theorem nodup_places (h : Serving s done waiting cur) : s.places.Nodup :=
  h.places.nodup_iff.mpr nodup_range

theorem nodup_queue (h : Serving s done waiting cur) : (waiting.map Started.slot).Nodup := by
  rw [← h.queue]
  exact (nodup_append.mp (nodup_append.mp h.nodup_places).1).2.1

section

variable (h : Serving s done (w :: rest) cur)
include h

theorem slot_ne {v : Started} (hv : v ∈ rest) : v.slot ≠ w.slot := by
  intro heq
  have hnot := (nodup_cons.mp h.nodup_queue).1
  exact hnot (heq ▸ mem_map_of_mem hv)

theorem segmentHead
    (hseg : messageTxSegmentation (s.reqmetaSlots w.slot) w.slot (s.txAvail.headD 0) =
      ((w.packets.drop cur).take i, ⟨w.req, w.rpcid, BitVec.ofNat 16 (cur + i)⟩, false))
    (hi : cur + i < w.packets.length) :
    Serving (s.segmentHead w.slot) done (w :: rest) (cur + i) where
  started := h.started
  queue := h.queue
  hold := by
    simp only [RpcSocket.segmentHead, hseg]
    refine ⟨.inr hi, update_self _ _ _, ?_⟩
    intro v hv
    rw [update_of_ne (h.slot_ne hv)]
    exact h.hold.2.2 v hv
  sent := by
    simp only [RpcSocket.segmentHead, hseg, h.sent, head?_cons, map_some,
      getD_some, append_assoc, take_add]
  places := h.places
  rpcids := h.rpcids
  next := h.next

theorem finishHead
    (hseg : messageTxSegmentation (s.reqmetaSlots w.slot) w.slot (s.txAvail.headD 0) =
      ((w.packets.drop cur).take i, ⟨w.req, w.rpcid, BitVec.ofNat 16 (cur + i)⟩, true))
    (hi : w.packets.length ≤ cur + i) :
    Serving
      { s.segmentHead w.slot with
        requestQueue := rest.map Started.slot
        inFlight := s.inFlight ++ [w.slot] }
      (done ++ [w]) rest 0 where
  started := by
    rw [append_assoc]
    exact h.started
  queue := rfl
  hold := by
    refine h.hold.tail.congr ?_
    intro v hv
    simp only [RpcSocket.segmentHead, update_of_ne (h.slot_ne hv)]
  sent := by
    simp only [RpcSocket.segmentHead, hseg, h.sent, head?_cons, map_some,
      getD_some, append_assoc, ← take_add, take_of_length_le hi]
    simp
  places := by
    refine List.Perm.trans ?_ h.places
    simp only [RpcSocket.places, RpcSocket.segmentHead, h.queue, map_cons,
      append_assoc, cons_append]
    refine List.Perm.append_left _ ?_
    rw [← append_assoc]
    exact perm_append_singleton _ _
  rpcids := h.rpcids
  next := h.next

end

theorem startRequest (h : Serving s done waiting cur) {free : List Nat}
    (havail : s.availableSlots = slot :: free) (r : Request) :
    Serving (s.startRequest r slot free) done (waiting ++ [⟨r, slot, s.nextRpcid⟩]) cur := by
  -- the slot is in no other place, and the queue is shorter than the number of slots
  have hslot : ∀ v ∈ waiting, v.slot ≠ slot := by
    have hnodup := h.nodup_places
    rw [RpcSocket.places, havail, append_assoc, cons_append, nodup_cons] at hnodup
    intro v hv heq
    apply hnodup.1
    rw [h.queue, ← heq]
    exact mem_append_right _ (mem_append_left _ (mem_map_of_mem hv))
  have hroom : s.requestQueue.length ≠ maxOutstandingRpc - 1 := by
    have hlen := h.places.length_eq
    rw [RpcSocket.places, havail, length_range] at hlen
    simp only [length_append, length_cons] at hlen
    omega
  constructor
  case started => simp [RpcSocket.startRequest, h.started]
  case queue =>
    simp only [RpcSocket.startRequest, ringPush, hroom, if_false]
    rw [h.queue, map_append, map_singleton]
  case hold =>
    refine SlotsHold.append ?_ (update_self _ _ _)
    refine h.hold.congr ?_
    intro v hv
    exact update_of_ne (hslot v hv) _ _
  case sent =>
    cases waiting with
    | nil =>
      obtain rfl : cur = 0 := h.hold
      simpa [startRequest] using h.sent
    | cons w rest => exact h.sent
  case places =>
    refine List.Perm.trans ?_ h.places
    simp only [RpcSocket.places, RpcSocket.startRequest, ringPush, hroom, if_false, havail,
      append_assoc, cons_append, nil_append]
    rw [← append_assoc, ← append_assoc]
    exact perm_middle
  case rpcids =>
    simp only [RpcSocket.startRequest, reverse_cons, map_append, h.rpcids,
      length_cons, range_succ, map_singleton, h.next]
  case next =>
    simp only [RpcSocket.startRequest, h.next, rpcidOf, length_cons, Nat.mul_add, BitVec.ofNat_add]
    rfl

theorem returnSlot (h : Serving s done waiting cur) (hslot : slot ∈ s.inFlight) :
    Serving (s.returnSlot slot) done waiting cur where
  started := h.started
  queue := h.queue
  hold := h.hold
  sent := h.sent
  places := by
    have hperm := perm_cons_erase hslot
    have hroom : s.availableSlots.length ≠ maxOutstandingRpc - 1 := by
      have hlen := h.places.length_eq
      rw [RpcSocket.places, length_range] at hlen
      have hpos := length_pos_of_mem hslot
      simp only [length_append] at hlen
      omega
    refine List.Perm.trans ?_ h.places
    simp only [RpcSocket.places, RpcSocket.returnSlot, ringPush, hroom, if_false,
      append_assoc, cons_append, nil_append]
    refine List.Perm.append_left _ ?_
    refine List.Perm.trans ?_ (List.Perm.append_left _ hperm.symm)
    exact perm_middle.symm
  rpcids := h.rpcids
  next := h.next

end Serving

/-! ## Flushing the request queue -/

theorem transmitLoop_frame (queue : List Nat) (budgetUse : Nat) (s : RpcSocket) :
    (s.transmitLoop queue budgetUse).started = s.started ∧
    (s.transmitLoop queue budgetUse).availableSlots = s.availableSlots ∧
    (s.transmitLoop queue budgetUse).pendingRequestQueue = s.pendingRequestQueue := by
  induction queue generalizing budgetUse s with
  | nil => exact ⟨rfl, rfl, rfl⟩
  | cons slot queue ih =>
    simp only [transmitLoop]
    split_ifs
    · exact ⟨rfl, rfl, rfl⟩
    · exact ⟨rfl, rfl, rfl⟩
    · exact ih _ _

@[simp] theorem started_transmit (s : RpcSocket) : s.transmit.started = s.started :=
  (transmitLoop_frame _ _ s).1

@[simp] theorem availableSlots_transmit (s : RpcSocket) :
    s.transmit.availableSlots = s.availableSlots :=
  (transmitLoop_frame _ _ s).2.1

@[simp] theorem pendingRequestQueue_transmit (s : RpcSocket) :
    s.transmit.pendingRequestQueue = s.pendingRequestQueue :=
  (transmitLoop_frame _ _ s).2.2

theorem exists_serving_transmitLoop {done waiting : List Started}
    (h : Serving s done waiting cur) (budgetUse : Nat) : ∃ done' waiting' cur',
      Serving (transmitLoop (waiting.map Started.slot) budgetUse s) done' waiting' cur' := by
  induction waiting generalizing s done cur budgetUse with
  | nil => exact ⟨done, [], cur, h⟩
  | cons w rest ih =>
    obtain ⟨i, hi, hseg⟩ := messageTxSegmentation_eq w h.hold.1 (s.txAvail.headD 0)
    rw [← h.hold.2.1] at hseg
    have hanswer : (s.segmentAnswer w.slot).2 = decide (w.packets.length ≤ cur + i) := by
      rw [segmentAnswer, hseg]
    simp only [map_cons, transmitLoop, hanswer]
    by_cases hfin : w.packets.length ≤ cur + i
    · rw [decide_eq_true hfin] at hseg ⊢
      have hnext := h.finishHead hseg hfin
      simp only [Bool.true_eq_false, if_false]
      split_ifs
      · exact ⟨_, _, _, hnext⟩
      · exact ih hnext _
    · rw [decide_eq_false hfin] at hseg ⊢
      exact ⟨_, _, _, h.segmentHead hseg (by omega)⟩

def Served (s : RpcSocket) : Prop :=
  ∃ done waiting cur, Serving s done waiting cur

theorem Served.transmit (h : Served s) : Served s.transmit := by
  obtain ⟨done, waiting, cur, h⟩ := h
  rw [RpcSocket.transmit, h.queue]
  exact exists_serving_transmitLoop h 0

theorem Served.startRequest (h : Served s) {free : List Nat}
    (havail : s.availableSlots = slot :: free) (r : Request) :
    Served (s.startRequest r slot free) := by
  obtain ⟨done, waiting, cur, h⟩ := h
  exact ⟨_, _, _, h.startRequest havail r⟩

theorem Served.setPending (h : Served s) (backlog : List Request) :
    Served { s with pendingRequestQueue := backlog } := by
  obtain ⟨done, waiting, cur, h⟩ := h
  exact ⟨done, waiting, cur, { h with }⟩

/-! ## Flushing the backlog -/

def RpcSocket.accepted (s : RpcSocket) : List Request :=
  s.started.reverse.map Started.req ++ s.pendingRequestQueue

/-- All requests fit into a batch, or the one that exceeds it takes the last slot. -/
def FlushOk (s : RpcSocket) : Prop :=
  s.pendingRequestQueue = [] ∨ s.availableSlots = [] ∨
  s.requestQueue.length + min s.pendingRequestQueue.length s.availableSlots.length ≤ txBatchSize ∨
  s.availableSlots.length = max 1 (txBatchSize + 1 - s.requestQueue.length)
deriving Decidable

theorem flushPending_of_noSlot (h : s.availableSlots = []) (fuel : Nat) :
    flushPending fuel s = some s := by
  cases fuel with
  | zero => rfl
  | succ fuel =>
    rw [flushPending]
    cases s.pendingRequestQueue with
    | nil => rfl
    | cons r rest => exact if_pos h

theorem flushPending_step (h : Served s) (hok : FlushOk s) {r : Request}
    {rest : List Request} (hpend : s.pendingRequestQueue = r :: rest)
    (havail : s.availableSlots ≠ []) (fuel : Nat) :
    ∃ s₁, flushPending (fuel + 1) s = flushPending fuel s₁ ∧
      Served s₁ ∧ FlushOk s₁ ∧ s₁.accepted = s.accepted := by
  obtain ⟨slot, free, hfree⟩ := exists_cons_of_ne_nil havail
  have hstart := h.startRequest hfree r
  have hqueue : (s.startRequest r slot free).requestQueue.length = s.requestQueue.length + 1 := by
    obtain ⟨done, waiting, cur, h⟩ := h
    rw [(h.startRequest hfree r).queue, h.queue]
    simp
  have haccepted :
      (s.startRequest r slot free).started.reverse.map req ++ rest = s.accepted := by
    simp [startRequest, accepted, hpend]
  simp only [FlushOk, hpend, hfree, reduceCtorEq, false_or, length_cons] at hok
  rw [flushPending]
  simp only [hpend, hfree, reduceCtorEq, if_false, enqueueRequestWith, hqueue]
  by_cases hbatch : txBatchSize < s.requestQueue.length + 1
  · -- the nested flush finds no slot and leaves the backlog alone
    have hlast : free = [] := by
      rw [← length_eq_zero_iff]
      omega
    have hnone : (s.startRequest r slot free).availableSlots = [] := hlast
    rw [if_pos hbatch, flushPending_of_noSlot hnone]
    have hpend' : (s.startRequest r slot free).transmit.pendingRequestQueue = r :: rest := by
      rw [pendingRequestQueue_transmit]
      exact hpend
    simp only [map_some, bind_some, hpend']
    refine ⟨_, rfl, hstart.transmit.setPending rest, ?_, ?_⟩
    · exact .inr (.inl ((availableSlots_transmit _).trans hnone))
    · rw [accepted, ← haccepted]
      simp
  · have hpend' : (s.startRequest r slot free).pendingRequestQueue = r :: rest := hpend
    rw [if_neg hbatch]
    simp only [bind_some, hpend']
    refine ⟨_, rfl, hstart.setPending rest, ?_, haccepted⟩
    have hslots : (s.startRequest r slot free).availableSlots = free := rfl
    simp only [FlushOk, hqueue, hslots]
    rcases hok with hfit | hlast
    · exact .inr (.inr (.inl (by omega)))
    · exact .inr (.inr (.inr (by omega)))

theorem flushPending_spec (h : Served s) (hok : FlushOk s) (fuel : Nat) :
    ∃ s', flushPending fuel s = some s' ∧ Served s' ∧ s'.accepted = s.accepted := by
  induction fuel generalizing s with
  | zero => exact ⟨s, rfl, h, rfl⟩
  | succ fuel ih =>
    by_cases havail : s.availableSlots = []
    · exact ⟨s, flushPending_of_noSlot havail _, h, rfl⟩
    · cases hpend : s.pendingRequestQueue with
      | nil => exact ⟨s, by rw [flushPending, hpend], h, rfl⟩
      | cons r rest =>
        obtain ⟨s₁, heq, h₁, hok₁, hacc⟩ := flushPending_step h hok hpend havail fuel
        obtain ⟨s', heq', h', hacc'⟩ := ih h₁ hok₁
        exact ⟨s', heq.trans heq', h', hacc'.trans hacc⟩

theorem flushRpcRequestQueue_spec (h : Served s) (hok : FlushOk s) :
    ∃ s', s.flushRpcRequestQueue = some s' ∧ Served s' ∧ s'.accepted = s.accepted := by
  obtain ⟨s', heq, h', hacc⟩ := flushPending_spec h hok s.availableSlots.length
  refine ⟨s'.transmit, ?_, h'.transmit, ?_⟩
  · rw [flushRpcRequestQueue, heq]
    rfl
  · rw [← hacc]
    simp [accepted]

theorem enqueueRequest_spec (h : Served s)
    (hok : s.pendingRequestQueue = [] ∨ s.availableSlots = []) (r : Request) :
    ∃ s', s.enqueueRequest r = some s' ∧ Served s' ∧ s'.accepted = s.accepted ++ [r] := by
  rw [enqueueRequest, enqueueRequestWith]
  cases havail : s.availableSlots with
  | nil =>
    refine ⟨_, rfl, ?_, ?_⟩
    · rw [← havail]
      exact h.setPending _
    · simp [accepted]
  | cons slot free =>
    have hpend : s.pendingRequestQueue = [] := by simpa [havail] using hok
    have hstart := h.startRequest havail r
    have haccepted : (s.startRequest r slot free).accepted = s.accepted ++ [r] := by
      simp [accepted, startRequest, hpend]
    rw [← haccepted]
    simp only
    split_ifs
    · exact flushRpcRequestQueue_spec hstart (.inl hpend)
    · exact ⟨_, rfl, hstart, rfl⟩

/-! ## Runs of a socket -/

/-- `avail` is the room that `message_tx_segmentation` finds. -/
inductive SocketEvent where
  | enqueue (r : Request) (avail : List Nat)
  | flush (avail : List Nat)
  | response (slot : Nat)

structure SocketRun where
  sock : RpcSocket
  enqueued : List Request

def SocketRun.initial : SocketRun := ⟨RpcSocket.initial, []⟩

def socketStep : Option SocketRun → SocketEvent → Option SocketRun
  | none, _ => none
  | some w, .enqueue r avail =>
    ({ w.sock with txAvail := avail }.enqueueRequest r).map (⟨·, r :: w.enqueued⟩)
  | some w, .flush avail =>
    { w.sock with txAvail := avail }.flushRpcRequestQueue.map (⟨·, w.enqueued⟩)
  | some w, .response slot => some ⟨w.sock.returnSlot slot, w.enqueued⟩

def ResponseDom : Option SocketRun → SocketEvent → Prop
  | some w, .response slot => slot ∈ w.sock.inFlight
  | _, _ => True

/-- A request finds no older one in the backlog, or no slot; a flush is not interrupted; the ids do
    not run out. -/
def SubmitOk : Option SocketRun → SocketEvent → Prop
  | some w, .enqueue _ _ =>
    (w.sock.pendingRequestQueue = [] ∨ w.sock.availableSlots = []) ∧ w.enqueued.length < 2 ^ 63
  | some w, .flush _ => FlushOk w.sock
  | _, _ => True

instance : (w : Option SocketRun) → (e : SocketEvent) → Decidable (ResponseDom w e)
  | none, _ => .isTrue trivial
  | some _, .enqueue _ _ => .isTrue trivial
  | some _, .flush _ => .isTrue trivial
  | some w, .response slot => inferInstanceAs (Decidable (slot ∈ w.sock.inFlight))

instance : (w : Option SocketRun) → (e : SocketEvent) → Decidable (SubmitOk w e)
  | none, _ => .isTrue trivial
  | some _, .enqueue _ _ => inferInstanceAs (Decidable ((_ ∨ _) ∧ _))
  | some w, .flush _ => inferInstanceAs (Decidable (FlushOk w.sock))
  | some _, .response _ => .isTrue trivial

/-- Every request has a slot and an id of its own, or is in the backlog; the first started ones are
    segmented, the others queued. -/
structure SubmittedOnce (w : SocketRun) : Prop where
  order : w.sock.started.reverse.map Started.req ++ w.sock.pendingRequestQueue =
    w.enqueued.reverse
  rpcids : (w.sock.started.map Started.rpcid).Nodup
  slots : w.sock.places.Nodup
  segmented : ∃ done waiting cur, w.sock.started.reverse = done ++ waiting ∧
    w.sock.requestQueue = waiting.map Started.slot ∧
    (∀ v ∈ waiting.head?, cur = 0 ∨ cur < v.packets.length) ∧
    w.sock.sent = done.flatMap Started.packets ++
      ((waiting.head?.map Started.packets).getD []).take cur

def SocketInv (w : Option SocketRun) : Prop :=
  ∃ w', w = some w' ∧ Served w'.sock ∧ w'.sock.accepted = w'.enqueued.reverse ∧
    w'.enqueued.length ≤ 2 ^ 63

theorem Served.setTxAvail (h : Served s) (avail : List Nat) :
    Served { s with txAvail := avail } := by
  obtain ⟨done, waiting, cur, h⟩ := h
  exact ⟨done, waiting, cur, { h with }⟩

theorem rpcidOf_injOn {j : Nat} (hi : i < 2 ^ 63) (hj : j < 2 ^ 63)
    (h : rpcidOf i = rpcidOf j) : i = j := by
  have hnat := congrArg BitVec.toNat h
  simp only [rpcidOf, BitVec.toNat_ofNat] at hnat
  omega

theorem SocketInv.submittedOnce {w : SocketRun} (h : SocketInv (some w)) : SubmittedOnce w := by
  obtain ⟨w', heq, ⟨done, waiting, cur, hs⟩, hacc, hlen⟩ := h
  cases heq
  constructor
  case order => exact hacc
  case rpcids =>
    have hle : w.sock.started.length ≤ 2 ^ 63 := by
      have hacc' := congrArg length hacc
      simp only [accepted, length_append, length_map, length_reverse]
        at hacc'
      omega
    rw [← nodup_reverse, ← map_reverse, hs.rpcids]
    refine List.Nodup.map_on ?_ nodup_range
    intro i hi j hj
    rw [mem_range] at hi hj
    exact rpcidOf_injOn (by omega) (by omega)
  case slots => exact hs.nodup_places
  case segmented =>
    refine ⟨done, waiting, cur, hs.started, hs.queue, ?_, hs.sent⟩
    intro v hv
    cases waiting with
    | nil => simp at hv
    | cons w rest =>
      cases hv
      exact hs.hold.1

theorem availableSlots_initial : initial.availableSlots = List.range (maxOutstandingRpc - 1) := by
  rw [initial, foldl_ringPush_all]

theorem SocketRun.initial_eq : SocketRun.initial =
    ⟨{ RpcSocket.initial with availableSlots := range (maxOutstandingRpc - 1) }, []⟩ := by
  have hset (s : RpcSocket) (l : List Nat) (h : s.availableSlots = l) :
      s = { s with availableSlots := l } := by
    subst h
    rfl
  rw [SocketRun.initial, ← hset _ _ availableSlots_initial]

theorem socketInv_initial : SocketInv (some SocketRun.initial) := by
  refine ⟨_, rfl, ⟨[], [], 0, ?_⟩, rfl, by decide⟩
  constructor
  case places =>
    simp only [SocketRun.initial, places, availableSlots_initial]
    simp [initial]
  all_goals rfl

theorem socketInv_step (w : Option SocketRun) (e : SocketEvent) (h : SocketInv w)
    (hok : ResponseDom w e ∧ SubmitOk w e) : SocketInv (socketStep w e) := by
  obtain ⟨w, rfl, hs, hacc, hlen⟩ := h
  obtain ⟨hdom, hok⟩ := hok
  cases e with
  | enqueue r avail =>
    obtain ⟨s', heq, hs', hacc'⟩ := enqueueRequest_spec (hs.setTxAvail avail) hok.1 r
    refine ⟨⟨s', r :: w.enqueued⟩, ?_, hs', ?_, hok.2⟩
    · simp only [socketStep, heq, map_some]
    · rw [hacc', reverse_cons, ← hacc]
      rfl
  | flush avail =>
    obtain ⟨s', heq, hs', hacc'⟩ := flushRpcRequestQueue_spec (hs.setTxAvail avail) hok
    refine ⟨⟨s', w.enqueued⟩, ?_, hs', hacc'.trans hacc, hlen⟩
    simp only [socketStep, heq, map_some]
  | response slot =>
    obtain ⟨done, waiting, cur, hs⟩ := hs
    exact ⟨_, rfl, ⟨done, waiting, cur, hs.returnSlot hdom⟩, hacc, hlen⟩

/-- **Requests are submitted once and in order** if the steps meet the condition, and no operation
    is undefined. -/
theorem requests_submitted_once {es : List SocketEvent}
    (hdom : Meets socketStep ResponseDom (some SocketRun.initial) es)
    (hok : Meets socketStep SubmitOk (some SocketRun.initial) es) :
    Always socketStep (fun w => ∃ w', w = some w' ∧ SubmittedOnce w')
      (some SocketRun.initial) es := by
  have hinv := always_of_meets socketInv_step socketInv_initial (hdom.and hok)
  refine hinv.mono ?_
  rintro w ⟨w', rfl, h⟩
  exact ⟨w', rfl, SocketInv.submittedOnce ⟨w', rfl, h⟩⟩

def shortRequest (i : Nat) : Request := ⟨[0], by decide, 0, 0, i⟩

def enqueueAll (n : Nat) : List SocketEvent :=
  (List.range n).map fun i => .enqueue (shortRequest i) (List.replicate txBatchSize 1)

/-- The last request waits in the backlog until the first response. -/
theorem requests_submitted_once_at :
    Always socketStep (fun w => ∃ w', w = some w' ∧ SubmittedOnce w') (some SocketRun.initial)
      (enqueueAll 257 ++ [.response 0, .flush [1]]) :=
  requests_submitted_once (by rw [SocketRun.initial_eq]; decide +kernel)
    (by rw [SocketRun.initial_eq]; decide +kernel)

/-- More requests than slots, then three responses and a flush, in which the second request fills
    the batch. -/
def backlogRun : List SocketEvent :=
  enqueueAll 258 ++ [.response 0, .response 1, .response 2, .flush []]

theorem meets_enqueue (w : Option SocketRun) (l : List Nat) : Meets socketStep ResponseDom w
      (l.map fun i => .enqueue (shortRequest i) (List.replicate txBatchSize 1)) := by
  induction l generalizing w with
  | nil => trivial
  | cons i l ih =>
    refine ⟨?_, ih _⟩
    cases w <;> trivial

/-- The flush interrupts itself: the second request, whose handler is 256, is started twice and the
    third is lost. -/
theorem flush_loses_request :
    Meets socketStep ResponseDom (some SocketRun.initial) backlogRun ∧
    ((run socketStep (some SocketRun.initial) backlogRun).map fun w =>
      ((w.enqueued.reverse.map Request.contHandler).drop 255,
        (w.sock.accepted.map Request.contHandler).drop 255)) =
      some ([255, 256, 257], [255, 256, 256]) ∧
    ¬ ∃ w, run socketStep (some SocketRun.initial) backlogRun = some w ∧ SubmittedOnce w := by
  have hend : ((run socketStep (some SocketRun.initial) backlogRun).map fun w =>
      ((w.enqueued.reverse.map Request.contHandler).drop 255,
        (w.sock.accepted.map Request.contHandler).drop 255)) =
      some ([255, 256, 257], [255, 256, 256]) := by
    rw [SocketRun.initial_eq]
    decide +kernel
  refine ⟨?_, hend, ?_⟩
  · refine meets_append.mpr ⟨meets_enqueue _ _, ?_⟩
    rw [SocketRun.initial_eq]
    decide +kernel
  · rintro ⟨w, hw, h⟩
    rw [hw, map_some, RpcSocket.accepted, h.order, some.injEq, Prod.mk.injEq] at hend
    exact absurd (hend.1.symm.trans hend.2) (by decide)

end MtpXdp.Rpc

import MtpXdp.Core.Ring
import MtpXdp.Core.Run
import MtpXdp.Ebpf.Headers

/-!
# The Queue of Pending ACKs

A ring of `NAPI_BATCH_SIZE` slots between the receive path, which queues ACKs, and `xdp_gen_prog`,
which emits them. `mtp_pkt_gen_for_xdp_gen` notices a full ring and goes on: it advances `ack_prod`
onto `ack_cons`, so that a full ring turns into an empty one.
-/

namespace MtpXdp.Ebpf

open MtpXdp.Core List

/-! ## The ring with its history -/

structure AckQueue where
  ring : AckRing
  enqueued : List BpfTcpAck
  dequeued : List BpfTcpAck

inductive QueueEvent where
  | enqueue (bp : TCPBP) (c : BpfTcpConn)
  | dequeue

def AckQueue.boot (slots : U32 → BpfTcpAck) : AckQueue where
  ring := { slots := slots, prod := 0#32, cons := 0#32 }
  enqueued := []
  dequeued := []

def AckQueue.waiting (s : AckQueue) : Nat := s.enqueued.length - s.dequeued.length

def storedEntry (r : AckRing) (bp : TCPBP) (c : BpfTcpConn) : Option BpfTcpAck :=
  if r.cons = ringNext r.prod then none
  else (r.lookup r.prod).map fun old => ackEntry old bp c

def queueStep (s : AckQueue) : QueueEvent → AckQueue
  | .enqueue bp c =>
    { s with
      ring := (mtpPktGenForXdpGen bp c s.ring).2
      enqueued := s.enqueued ++ (storedEntry s.ring bp c).toList }
  | .dequeue =>
    { s with
      ring := (dequeueAck s.ring).2
      dequeued := s.dequeued ++ (dequeueAck s.ring).1.toList }

def ackCapacity : Nat := napiBatchSize.toNat - 1

structure FifoStep (s : AckQueue) (e : QueueEvent) : Prop where
  ordered : (queueStep s e).dequeued <+: (queueStep s e).enqueued
  accepts : ∀ bp c, e = .enqueue bp c → s.waiting < ackCapacity →
    (queueStep s e).enqueued = s.enqueued ++ [ackEntry (s.ring.slots s.ring.prod) bp c]
  refuses : ∀ bp c, e = .enqueue bp c → s.waiting = ackCapacity →
    mtpPktGenForXdpGen bp c s.ring = (c, s.ring)
  delivers : e = .dequeue → 0 < s.waiting →
    (queueStep s e).dequeued.length = s.dequeued.length + 1

def NotWhenFull (s : AckQueue) : QueueEvent → Prop
  | .enqueue _ _ => s.waiting ≠ ackCapacity
  | .dequeue => True

instance (s : AckQueue) (e : QueueEvent) : Decidable (NotWhenFull s e) := by
  unfold NotWhenFull
  split <;> infer_instance

/-! ## The invariant -/

theorem ringNext_slot (n : Nat) : ringNext (slot 6 n) = slot 6 (n + 1) :=
  slot_succ (by decide) n

theorem slot_lt_napiBatchSize (n : Nat) : slot 6 n < napiBatchSize := by
  rw [BitVec.lt_def, toNat_slot (by decide)]
  exact Nat.mod_lt _ (by decide)

structure Queued (s : AckQueue) : Prop where
  log : RingLog 6 s.ring.slots s.enqueued s.dequeued.length
  ordered : s.dequeued <+: s.enqueued
  prod : s.ring.prod = slot 6 s.enqueued.length
  cons : s.ring.cons = slot 6 s.dequeued.length

theorem Queued.boot (slots : U32 → BpfTcpAck) : Queued (AckQueue.boot slots) where
  log := RingLog.nil 6 slots
  ordered := nil_prefix
  prod := rfl
  cons := rfl

section

variable {s : AckQueue}

section

variable (h : Queued s)
include h

theorem Queued.full_iff : s.ring.cons = ringNext s.ring.prod ↔ s.waiting = ackCapacity := by
  have hcap : ackCapacity = 63 := rfl
  rw [h.cons, h.prod, ringNext_slot, h.log.full_iff (by decide), AckQueue.waiting, hcap]
  omega

theorem Queued.empty_iff : s.ring.prod = s.ring.cons ↔ s.waiting = 0 := by
  have hpop := h.log.popped
  rw [h.prod, h.cons, h.log.empty_iff (by decide), AckQueue.waiting]
  omega

theorem Queued.enqueue_eq (hroom : s.waiting ≠ ackCapacity) (bp : TCPBP)
    (c : BpfTcpConn) :
    queueStep s (.enqueue bp c) =
      { s with
        ring := {
          slots := fun j => if j = slot 6 s.enqueued.length then
            ackEntry (s.ring.slots s.ring.prod) bp c else s.ring.slots j
          prod := slot 6 (s.enqueued.length + 1)
          cons := s.ring.cons }
        enqueued := s.enqueued ++ [ackEntry (s.ring.slots s.ring.prod) bp c] } := by
  have hfull : ¬ s.ring.cons = slot 6 (s.enqueued.length + 1) := by
    rw [← ringNext_slot, ← h.prod]
    exact mt h.full_iff.mp hroom
  have hlt := slot_lt_napiBatchSize s.enqueued.length
  simp only [queueStep, mtpPktGenForXdpGen, storedEntry, AckRing.lookup, h.prod, ringNext_slot,
    if_neg hfull, if_pos hlt, Option.map_some, Option.toList_some, AckRing.write]

theorem Queued.enqueue (hroom : s.waiting ≠ ackCapacity) (bp : TCPBP)
    (c : BpfTcpConn) : Queued (queueStep s (.enqueue bp c)) := by
  have hcap : ackCapacity = 63 := rfl
  have hbound := h.log.bounded
  have hlt : s.enqueued.length + 1 < s.dequeued.length + 2 ^ 6 := by
    rw [AckQueue.waiting, hcap] at hroom
    omega
  rw [h.enqueue_eq hroom]
  exact {
    log := h.log.push (by decide) hlt _
    ordered := h.ordered.trans (prefix_append _ _)
    prod := by simp
    cons := h.cons }

theorem Queued.dequeue_eq (hne : s.dequeued.length < s.enqueued.length) :
    queueStep s .dequeue =
      { s with
        ring := { s.ring with cons := slot 6 (s.dequeued.length + 1) }
        dequeued := s.dequeued ++ [s.enqueued[s.dequeued.length]] } := by
  have hempty : ¬ s.ring.prod = slot 6 s.dequeued.length := by
    rw [← h.cons, h.empty_iff, AckQueue.waiting]
    omega
  have hlt := slot_lt_napiBatchSize s.dequeued.length
  have hget := h.log.entries _ hne (Nat.le_refl _)
  simp only [queueStep, dequeueAck, AckRing.lookup, h.cons, if_neg hempty, if_pos hlt, hget,
    Option.toList_some, ringNext_slot]

theorem Queued.dequeue_empty (hempty : s.waiting = 0) : queueStep s .dequeue = s := by
  simp [queueStep, dequeueAck, h.empty_iff.mpr hempty]

theorem Queued.dequeue : Queued (queueStep s .dequeue) := by
  by_cases hne : s.dequeued.length < s.enqueued.length
  · rw [h.dequeue_eq hne]
    have hlog := h.log.pop hne
    have hlen : (s.dequeued ++ [s.enqueued[s.dequeued.length]]).length = s.dequeued.length + 1 := by
      simp
    refine ⟨by rw [hlen]; exact hlog, ?_, h.prod, by rw [hlen]⟩
    -- the entries taken out are the first ones of the log, and the next one is its next entry
    have htake : s.dequeued = s.enqueued.take s.dequeued.length :=
      prefix_iff_eq_take.mp h.ordered
    have hnext : s.dequeued ++ [s.enqueued[s.dequeued.length]] =
        s.enqueued.take (s.dequeued.length + 1) := by
      rw [take_add_one, ← htake, getElem?_eq_getElem hne]
      rfl
    rw [hnext]
    exact take_prefix _ _
  · rw [h.dequeue_empty (by rw [AckQueue.waiting]; omega)]
    exact h

theorem Queued.step {e : QueueEvent} (he : NotWhenFull s e) : Queued (queueStep s e) := by
  cases e with
  | enqueue bp c => exact h.enqueue he bp c
  | dequeue => exact h.dequeue

/-! ## A full ring -/

theorem Queued.overrun (hfull : s.waiting = ackCapacity) (bp : TCPBP) (c : BpfTcpConn) :
    mtpPktGenForXdpGen bp c s.ring =
      ({ c with txNextTs := 0#32 }, { s.ring with prod := s.ring.cons }) := by
  have htest := h.full_iff.mpr hfull
  rw [mtpPktGenForXdpGen, if_pos htest, ← htest]

theorem Queued.fifoStep_iff (e : QueueEvent) : FifoStep s e ↔ NotWhenFull s e := by
  constructor
  · intro hfifo
    cases e with
    | dequeue => trivial
    | enqueue bp c =>
      -- otherwise the two indices would be equal in a full ring
      intro hfull
      have hsame := hfifo.refuses bp c rfl hfull
      rw [h.overrun hfull] at hsame
      have hprod : s.ring.cons = s.ring.prod := congrArg (fun x => x.2.prod) hsame
      rw [h.empty_iff.mp hprod.symm] at hfull
      cases hfull
  · intro hroom
    refine ⟨(h.step hroom).ordered, ?_, ?_, ?_⟩
    · rintro bp c rfl -
      rw [h.enqueue_eq hroom]
    · rintro bp c rfl hfull
      exact absurd hfull hroom
    · rintro rfl hwait
      rw [AckQueue.waiting] at hwait
      rw [h.dequeue_eq (by omega)]
      simp

end

end

/-! ## Runs -/

/-- **The ring is a bounded queue precisely in the runs that never enqueue into a full ring.** -/
theorem fifo_iff (slots : U32 → BpfTcpAck) (es : List QueueEvent) :
    Meets queueStep FifoStep (AckQueue.boot slots) es ↔
      Meets queueStep NotWhenFull (AckQueue.boot slots) es :=
  meets_iff_of_inv (fun _ _ h he => h.step he) (fun _ e h => h.fifoStep_iff e) (Queued.boot slots)

/-- Sixty-four ACKs are queued before any is emitted: the last one empties the ring. -/
theorem overrun_not_fifo :
    ¬ Meets queueStep FifoStep (AckQueue.boot fun _ => default)
      (replicate 64 (.enqueue default default)) := by
  intro h
  have hlast := (meets_append.mp (show Meets queueStep FifoStep _
    (replicate 63 (.enqueue default default) ++ [.enqueue default default]) from h)).2.1
  have hsame := hlast.refuses default default rfl (by decide +kernel)
  exact absurd (congrArg (fun x => x.2.prod) hsame) (by decide +kernel)

end MtpXdp.Ebpf

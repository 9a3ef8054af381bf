import Mathlib.Algebra.Order.BigOperators.Group.Finset
import MtpXdp.Ebpf.TimingWheel

/-!
# The Count of Packets in the Timing Wheel

`tw_insert` counts a packet in `nr_pkts_in_tw` before `bpf_redirect_map` queues it, and `tw_cb`
takes the count back only after the packet was sent. A packet that finds its bucket full, or that
cannot be sent, is gone but stays counted.
-/

namespace MtpXdp.Ebpf

open MtpXdp.Core List BitVec

/-! ## Traffic of a CPU -/

/-- What a CPU does with its wheel: a packet of some connection in `tcp_tx_process`, or the
    timer. -/
inductive WheelTraffic where
  | transmit (now : U64) (flow : Flow) (refTs : U64) (m : TxMeta) (pkt : Pkt)
  | callback (now : U64) (ok : Nat → Bool)

def TwCpu.process (s : TwCpu) (flow : Flow) (refTs : U64) (m : TxMeta) (pkt : Pkt) : TxResult :=
  tcpTxProcess flow { refTs := refTs, nrPktsInTw := s.nrPktsInTw } m (parseReqToEvent m) pkt

def wheelTime (flow : Flow) (refTs : U64) (m : TxMeta) : U64 :=
  (ccGetDesiredTxTs flow.cc refTs m.plen).1

def trafficStep (s : TwCpu) : WheelTraffic → TwCpu
  | .transmit now flow refTs m pkt =>
    let r := s.process flow refTs m pkt
    if r.action = .redirect then
      twEnqueue nrSlotPerBkt s now (wheelTime flow refTs m) r.pkt
    else s
  | .callback now ok => twCb s now ok

def Counted (s : TwCpu) : Prop := s.nrPktsInTw.toNat = s.wheel.size maxBuckets

/-- A packet for the wheel finds room, and a callback can send every packet that it takes out. -/
def NothingLost (s : TwCpu) : WheelTraffic → Prop
  | .transmit now flow refTs m pkt => (s.process flow refTs m pkt).action = .redirect →
      (s.wheel.bucket (s.slotFor now (wheelTime flow refTs m) % maxBuckets)).length < nrSlotPerBkt
  | .callback _ ok => ∀ j < twBatchSize, ok j = true

instance (s : TwCpu) (e : WheelTraffic) : Decidable (NothingLost s e) := by
  unfold NothingLost
  split <;> infer_instance

/-! ## The invariant -/

structure OccupancyInv (s : TwCpu) : Prop where
  counted : Counted s
  bounded : ∀ i, (s.wheel.bucket i).length ≤ nrSlotPerBkt

section

variable {s : TwCpu} {now ts : U64} {pkt : Pkt}

theorem size_le_of_bounded (h : ∀ i, (s.wheel.bucket i).length ≤ nrSlotPerBkt) :
    s.wheel.size maxBuckets ≤ maxBuckets * nrSlotPerBkt := by
  have hsum := Finset.sum_le_card_nsmul (Finset.range maxBuckets)
    (fun i => (s.wheel.bucket i).length) nrSlotPerBkt (fun i _ => h i)
  rwa [Finset.card_range, Nat.nsmul_eq_mul] at hsum

theorem capacity_lt : maxBuckets * nrSlotPerBkt + 1 < 2 ^ 32 := by decide

theorem twEnqueue_nrPktsInTw (s : TwCpu) (now ts : U64) (pkt : Pkt) :
    (twEnqueue nrSlotPerBkt s now ts pkt).nrPktsInTw = s.nrPktsInTw + 1#32 := by
  unfold twEnqueue twInsert twRedirect
  dsimp only
  split_ifs <;> rfl

theorem occupancyInv_enqueue (h : OccupancyInv s)
    (hroom : (s.wheel.bucket (s.slotFor now ts % maxBuckets)).length < nrSlotPerBkt) :
    OccupancyInv (twEnqueue nrSlotPerBkt s now ts pkt) := by
  have hwheel := twEnqueue_wheel nrSlotPerBkt s now ts pkt hroom
  have hsize := size_le_of_bounded h.bounded
  have hcap := capacity_lt
  have hcounted : s.nrPktsInTw.toNat = s.wheel.size maxBuckets := h.counted
  constructor
  · rw [Counted, twEnqueue_nrPktsInTw, hwheel, Wheel.size_push (Nat.mod_lt _ (by decide)),
      toNat_add_of_lt (by simp; omega), hcounted]
    rfl
  · intro i
    rw [hwheel, Wheel.push]
    by_cases hi : i = s.slotFor now ts % maxBuckets
    · rw [hi, Wheel.setBucket_bucket_self, length_append, length_singleton]
      exact hroom
    · rw [Wheel.setBucket_bucket_of_ne _ _ hi]
      exact h.bounded i

theorem size_extract (s : TwCpu) (now : U64) :
    (twExtract s now).2.1.wheel.size maxBuckets + (twExtract s now).1.toList.length =
      s.wheel.size maxBuckets := by
  rw [twExtract_cpu, twExtract_frame]
  exact Wheel.size_advance (by decide) s.wheel

theorem bounded_extract (now : U64) (h : ∀ i, (s.wheel.bucket i).length ≤ nrSlotPerBkt) (i : Nat) :
    ((twExtract s now).2.1.wheel.bucket i).length ≤ nrSlotPerBkt :=
  (Wheel.advance_sublist maxBuckets (slotOf now) twExtractSlots s.wheel i).length_le.trans (h i)

theorem occupancyInv_skip (h : OccupancyInv s) (hnone : (twExtract s now).1 = none) :
    OccupancyInv (twExtract s now).2.1 := by
  have hsize := size_extract s now
  rw [hnone, Option.toList_none, length_nil, Nat.add_zero] at hsize
  refine ⟨?_, bounded_extract now h.bounded⟩
  rw [Counted, hsize]
  exact h.counted

theorem occupancyInv_sent {f : TwFrame} (h : OccupancyInv s)
    (hsome : (twExtract s now).1 = some f) :
    OccupancyInv ((twExtract s now).2.1.release f now) := by
  have hsize := size_extract s now
  rw [hsome, Option.toList_some, length_singleton] at hsize
  have hcounted : s.nrPktsInTw.toNat = s.wheel.size maxBuckets := h.counted
  refine ⟨?_, bounded_extract now h.bounded⟩
  change (s.nrPktsInTw - 1#32).toNat = (twExtract s now).2.1.wheel.size maxBuckets
  rw [toNat_sub_of_le (by rw [le_def]; simp; omega), hcounted]
  exact (Nat.eq_sub_of_add_eq hsize).symm

theorem occupancyInv_cb {ok : Nat → Bool} (h : OccupancyInv s)
    (hok : ∀ j < twBatchSize, ok j = true) : OccupancyInv (twCb s now ok) := by
  apply twLoop_of_inv OccupancyInv twBatchSize _ _ _ twBatchSize 0 (Nat.le_of_eq (Nat.zero_add _)) h
  · exact fun s h hnone => occupancyInv_skip h hnone
  · intro s f k _ _ hk hlost
    rw [hok k hk] at hlost
    cases hlost
  · exact fun s f h hsome => occupancyInv_sent h hsome

theorem twCb_of_lost (ok : Nat → Bool) {f : TwFrame} (hsome : (twExtract s now).1 = some f)
    (hok : ok 0 = false) : twCb s now ok = (twExtract s now).2.1 := by
  change twLoop now ok (31 + 1) 0 s = _
  unfold twLoop
  obtain ⟨rest, he⟩ : ∃ rest, twExtract s now = (some f, rest) := ⟨_, Prod.ext hsome rfl⟩
  rw [he]
  dsimp only
  rw [if_neg (by rw [hok]; exact Bool.false_ne_true)]

theorem occupancyInv_step {e : WheelTraffic} (h : OccupancyInv s) (he : NothingLost s e) :
    OccupancyInv (trafficStep s e) := by
  cases e with
  | transmit now flow refTs m pkt =>
    unfold trafficStep
    dsimp only
    split_ifs with hredirect
    · exact occupancyInv_enqueue h (he hredirect)
    · exact h
  | callback now ok => exact occupancyInv_cb h he

theorem occupancyInv_boot : OccupancyInv TwCpu.boot where
  counted := (Finset.sum_eq_zero (fun _ _ => rfl)).symm
  bounded := fun _ => Nat.zero_le _

end

/-! ## Runs -/

/-- **While nothing is lost, the count is the number of packets in the wheel**, for any connections
    and clocks. -/
theorem counted_always (es : List WheelTraffic)
    (hlost : Meets trafficStep NothingLost TwCpu.boot es) :
    Always trafficStep Counted TwCpu.boot es :=
  (always_of_meets (fun _ _ => occupancyInv_step) occupancyInv_boot hlost).mono
    (fun _ h => h.counted)

/-- A connection that is paced to one packet of 1448 bytes per microsecond, the last one of which
    is due now. -/
def pacedFlow : Flow where
  c := default
  cc := { (default : BpfCc) with rate := 1448000000#32, prevDesiredTxTs := 500000#64 }

def pacedMeta : TxMeta := { (default : TxMeta) with plen := 1448#32 }

def pacedPacket : WheelTraffic := .transmit 500000#64 pacedFlow 500000#64 pacedMeta default

theorem counted_always_paced :
    Meets trafficStep NothingLost TwCpu.boot
        [pacedPacket, .callback 501000#64 (fun _ => true)] ∧
      Always trafficStep Counted TwCpu.boot [pacedPacket, .callback 501000#64 (fun _ => true)] := by
  have hmeets : Meets trafficStep NothingLost TwCpu.boot
      [pacedPacket, .callback 501000#64 (fun _ => true)] :=
    ⟨by decide +kernel, by decide +kernel, trivial⟩
  exact ⟨hmeets, counted_always _ hmeets⟩

/-! ## A packet that is lost -/

def failedCallback : WheelTraffic := .callback 501000#64 (fun _ => false)

def pacedCpu : TwCpu := trafficStep TwCpu.boot pacedPacket
def failedCpu : TwCpu := trafficStep pacedCpu failedCallback

def pacedFrame : TwFrame where
  pkt := (TwCpu.boot.process pacedFlow 500000#64 pacedMeta default).pkt
  insertedAt := 500000#64
  desired := 501000#64
  slot := 1002

/-- The packet is neither in the wheel nor sent, and is counted for good. -/
theorem counted_after_failedSend :
    failedCpu.released = [] ∧ failedCpu.nrPktsInTw = 1#32 ∧
      failedCpu.wheel.size maxBuckets = 0 ∧
      ¬ Always trafficStep Counted TwCpu.boot [pacedPacket, failedCallback] := by
  have hqueued : OccupancyInv pacedCpu := occupancyInv_step occupancyInv_boot (by decide +kernel)
  have hfound : (twExtract pacedCpu 501000#64).1 = some pacedFrame := by decide +kernel
  have hcb : failedCpu = (twExtract pacedCpu 501000#64).2.1 :=
    twCb_of_lost (fun _ => false) hfound rfl
  have hcount : failedCpu.nrPktsInTw = 1#32 := by decide +kernel
  have hsize : failedCpu.wheel.size maxBuckets = 0 := by
    have hextract := size_extract pacedCpu 501000#64
    have hone : pacedCpu.nrPktsInTw = 1#32 := by decide +kernel
    have hcounted : pacedCpu.nrPktsInTw.toNat = _ := hqueued.counted
    rw [hfound, ← hcb, ← hcounted, hone, Option.toList_some, length_singleton] at hextract
    simpa only [toNat_ofNat, Nat.reducePow, Nat.reduceMod, Nat.add_eq_right] using hextract
  refine ⟨by decide +kernel, hcount, hsize, ?_⟩
  intro halways
  have hlast : failedCpu.nrPktsInTw.toNat = failedCpu.wheel.size maxBuckets := halways.last
  rw [hcount, hsize] at hlast
  cases hlast

end MtpXdp.Ebpf

import MtpXdp.Ebpf.TimingWheel

/-!
# The Order of the Timing Wheel

`tw_insert` clamps the slot of a packet at both ends of the reach of the front, and the front leaves
a bucket only when it is empty. So a bucket is for one slot at a time, and packets come out in the
order of their slots.
-/

namespace MtpXdp.Ebpf

open MtpXdp.Core List

/-! ## Calls of a CPU -/

/-- The wheel of a CPU, with the packets that were inserted and those that were taken out. -/
structure TwHistory where
  cpu : TwCpu
  inserted : List TwFrame
  taken : List TwFrame

def TwHistory.boot : TwHistory := ⟨TwCpu.boot, [], []⟩

inductive TwCall where
  | insert (now ts : U64) (pkt : Pkt)
  | extract (now : U64)

/-- Buckets are unbounded here: the packet is queued in the bucket that `tw_insert` returns. -/
def twCall (s : TwHistory) : TwCall → TwHistory
  | .insert now ts pkt =>
    let f := s.cpu.frameFor now ts pkt
    let (cpu, idx) := twInsert s.cpu now ts
    { s with cpu := { cpu with wheel := cpu.wheel.push idx f }, inserted := s.inserted ++ [f] }
  | .extract now =>
    let (f, cpu, _) := twExtract s.cpu now
    { s with cpu := cpu, taken := s.taken ++ f.toList }

def TwCall.ClockOk : TwCall → Prop
  | .insert now _ _ => slotWidthNs ≤ now.toNat
  | .extract _ => True

/-- The packets are in reach of the front, a bucket is for one slot, and packets leave by slot, in
    each slot in the order of insertion. -/
structure InSlotOrder (s : TwHistory) : Prop where
  in_reach : ∀ i, ∀ f ∈ s.cpu.wheel.bucket i,
    s.cpu.wheel.front ≤ f.slot ∧ f.slot ≤ s.cpu.wheel.front + maxBuckets - 1
  same_slot : ∀ i, ∀ f ∈ s.cpu.wheel.bucket i, ∀ g ∈ s.cpu.wheel.bucket i, f.slot = g.slot
  sorted : s.taken.Pairwise (·.slot ≤ ·.slot)
  fifo : ∀ slot, s.taken.filter (·.slot = slot) ++
    (s.cpu.wheel.bucket (slot % maxBuckets)).filter (·.slot = slot) =
      s.inserted.filter (·.slot = slot)

/-! ## The invariant -/

structure OrderInv (s : TwHistory) : Prop where
  within : s.cpu.wheel.Within maxBuckets TwFrame.slot
  unset : s.cpu.wheel.front = 0 → ∀ i, s.cpu.wheel.bucket i = []
  passed : ∀ f ∈ s.taken, f.slot ≤ s.cpu.wheel.front
  sorted : s.taken.Pairwise (·.slot ≤ ·.slot)
  fifo : ∀ slot, s.taken.filter (·.slot = slot) ++
    s.cpu.wheel.queue maxBuckets TwFrame.slot slot = s.inserted.filter (·.slot = slot)

section

variable {s : TwHistory} {now ts : U64} {pkt : Pkt}

theorem OrderInv.inSlotOrder (h : OrderInv s) : InSlotOrder s where
  in_reach i f hf := ⟨h.within.ge i f hf, Nat.le_sub_one_of_lt (h.within.lt i f hf)⟩
  same_slot i f hf g hg := by
    have hmod : f.slot ≡ g.slot [MOD maxBuckets] :=
      (h.within.mod_eq i f hf).trans (h.within.mod_eq i g hg).symm
    have hf_ge := h.within.ge i f hf
    have hg_ge := h.within.ge i g hg
    have hf_lt := h.within.lt i f hf
    have hg_lt := h.within.lt i g hg
    exact hmod.eq_of_abs_lt (abs_lt.mpr ⟨by omega, by omega⟩)
  sorted := h.sorted
  fifo := h.fifo

theorem orderInv_boot : OrderInv .boot where
  within := ⟨wheelInv_boot.placed, fun _ _ hx => absurd hx not_mem_nil⟩
  unset _ _ := rfl
  passed _ hf := absurd hf not_mem_nil
  sorted := .nil
  fifo _ := rfl

theorem OrderInv.started (h : OrderInv s) (now : U64) :
    (s.cpu.started now).Within maxBuckets TwFrame.slot where
  toPlaced := h.within.setFront (front_le_frontAt s.cpu now)
  ge i f hf := by
    unfold TwCpu.started TwCpu.frontAt
    split_ifs with hzero
    · exact absurd hf (by simp [TwCpu.started, h.unset hzero i])
    · exact h.within.ge i f hf

theorem OrderInv.insert (h : OrderInv s) (hclock : slotWidthNs ≤ now.toNat) :
    OrderInv (twCall s (.insert now ts pkt)) := by
  have hle := Wheel.front_le_nearest (n := maxBuckets) (by decide) (s.cpu.started now) (slotOf ts)
  have hlt := Wheel.nearest_lt (n := maxBuckets) (by decide) (s.cpu.started now) (slotOf ts)
  refine ⟨(h.started now).push (x := s.cpu.frameFor now ts pkt) hle hlt, fun hzero => ?_,
    fun f hf => (h.passed f hf).trans (front_le_frontAt s.cpu now), h.sorted, fun slot => ?_⟩
  · have hpos : 0 < slotOf now := Nat.div_pos hclock (by decide)
    have hfront : s.cpu.frontAt now = 0 := hzero
    unfold TwCpu.frontAt at hfront
    split_ifs at hfront <;> omega
  · have hpush : Wheel.queue maxBuckets TwFrame.slot _ slot = _ :=
      Wheel.queue_push slot (s.cpu.started now) (s.cpu.frameFor now ts pkt)
    calc _ = s.taken.filter (·.slot = slot) ++ (s.cpu.wheel.queue maxBuckets TwFrame.slot slot ++
          [s.cpu.frameFor now ts pkt].filter (·.slot = slot)) := congrArg _ hpush
      _ = _ := by rw [← append_assoc, h.fifo slot, ← filter_append]; rfl

theorem OrderInv.extract (h : OrderInv s) : OrderInv (twCall s (.extract now)) := by
  have hkeep := Wheel.advance_sublist maxBuckets (slotOf now) twExtractSlots s.cpu.wheel
  obtain ⟨hin, hle, hslot, hqueue⟩ := h.within.advance (slotOf now) twExtractSlots
  have hcall : twCall s (.extract now) =
      let r := s.cpu.wheel.advance maxBuckets (slotOf now) twExtractSlots
      ⟨{ s.cpu with wheel := r.2 }, s.inserted, s.taken ++ r.1.toList⟩ := rfl
  rw [hcall]
  generalize s.cpu.wheel.advance maxBuckets (slotOf now) twExtractSlots = r at *
  refine ⟨hin, fun hzero i => ?_, ?_, ?_, fun slot => ?_⟩
  · have hsub := hkeep i
    rw [h.unset (Nat.eq_zero_of_le_zero (hle.trans hzero.le)) i] at hsub
    exact sublist_nil.mp hsub
  · intro f hf
    rcases mem_append.mp hf with hold | hnew
    · exact (h.passed f hold).trans hle
    · exact (hslot f (Option.mem_toList.mp hnew)).le
  · refine pairwise_append.mpr ⟨h.sorted, ?_, fun f hf g hg => ?_⟩
    · cases r.1 <;> simp
    · have hnew := hslot g (Option.mem_toList.mp hg)
      exact (h.passed f hf).trans (hle.trans hnew.ge)
  · rw [← h.fifo slot, ← hqueue slot, filter_append, append_assoc]

end

/-- **The buckets of the timing wheel**: for every sequence of calls whose clock readings are not in
    slot zero, at every point of it. -/
theorem inSlotOrder_always {es : List TwCall} (h : ∀ e ∈ es, e.ClockOk) :
    Always twCall InSlotOrder .boot es := by
  have hstep (s : TwHistory) (e : TwCall) (hs : OrderInv s) (he : e.ClockOk) :
      OrderInv (twCall s e) := by
    cases e with
    | insert now ts pkt => exact hs.insert he
    | extract now => exact hs.extract
  exact (always_of_meets hstep orderInv_boot (meets_of_forall_mem h)).mono fun _ hs =>
    hs.inSlotOrder

theorem inSlotOrder_always_two : Always twCall InSlotOrder .boot
    [.insert 500000#64 1500000#64 default, .insert 500000#64 0#64 default, .extract 500000#64] :=
  inSlotOrder_always (by simp [TwCall.ClockOk, slotWidthNs])

end MtpXdp.Ebpf

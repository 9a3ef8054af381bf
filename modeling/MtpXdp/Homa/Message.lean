import Mathlib.Algebra.BigOperators.Intervals
import Mathlib.Algebra.Order.BigOperators.Group.Finset
import MtpXdp.Homa.Receive

/-!
# Messages and Their Segments

What an honest sender puts into the segments of a message of several packets, and when the state of
an RPC holds a set of these segments.
-/

namespace MtpXdp.Homa

open BitVec Finset

/-- A message of several packets: `n` segments, full ones but for the last. -/
structure Message where
  n : Nat
  length : Nat
  two_le : 2 ≤ n
  le : n ≤ 768
  lower : (n - 1) * homaMss < length
  upper : length ≤ n * homaMss

def twoPackets : Message where
  n := 2
  length := 2000
  two_le := by decide
  le := by decide
  lower := by decide
  upper := by decide

/-- A message that is longer than its unscheduled bytes. -/
def hundredSegments : Message := ⟨100, 142000, by decide, by decide, by decide, by decide⟩

namespace Message

variable (m : Message)

def segLen (i : Nat) : Nat := min homaMss (m.length - i * homaMss)

theorem length_le : m.length ≤ 1090560 :=
  m.upper.trans (Nat.mul_le_mul_right homaMss m.le)

theorem segLen_le (i : Nat) : m.segLen i ≤ homaMss := Nat.min_le_left ..

theorem segLen_pos {i : Nat} (hi : i < m.n) : 0 < m.segLen i := by
  have h1 : i * homaMss ≤ (m.n - 1) * homaMss := Nat.mul_le_mul_right _ (by omega)
  have h2 := m.lower
  have h3 : 0 < homaMss := by decide
  unfold segLen
  omega

theorem sum_range_segLen (k : Nat) :
    ∑ i ∈ Finset.range k, m.segLen i = min m.length (k * homaMss) := by
  induction k with
  | zero => simp
  | succ k ih =>
    rw [sum_range_succ, ih, segLen, Nat.succ_mul]
    omega

theorem sum_segLen : ∑ i ∈ Finset.range m.n, m.segLen i = m.length := by
  rw [sum_range_segLen]
  exact Nat.min_eq_left m.upper

theorem sum_segLen_le {S : Finset Nat} (hS : ∀ i ∈ S, i < m.n) :
    ∑ i ∈ S, m.segLen i ≤ m.length := by
  rw [← m.sum_segLen]
  exact sum_le_sum_of_subset fun i hi => mem_range.mpr (hS i hi)

theorem sum_segLen_eq_iff {S : Finset Nat} (hS : ∀ i ∈ S, i < m.n) :
    ∑ i ∈ S, m.segLen i = m.length ↔ S = Finset.range m.n := by
  have hsub : S ⊆ range m.n := fun i hi => mem_range.mpr (hS i hi)
  constructor
  · intro h
    refine Finset.Subset.antisymm hsub fun i hi => ?_
    by_contra hiS
    have hlt := sum_lt_sum_of_subset hsub hi hiS (m.segLen_pos (mem_range.mp hi))
      fun j _ _ => Nat.zero_le _
    rw [h, m.sum_segLen] at hlt
    exact lt_irrefl _ hlt
  · rintro rfl
    exact m.sum_segLen

end Message

/-- An honest header for segment `i`; the bytes granted and the retransmission mark are free. -/
structure IsSegment (m : Message) (i : Nat) (d : DataHeader) : Prop where
  lt : i < m.n
  seq : d.seq.toNat = i
  offset : d.segOffset.toNat = i * homaMss
  segmentLength : d.segmentLength.toNat = m.segLen i
  messageLength : d.messageLength.toNat = m.length

/-- Segment `i` of a message that the sender `id` has just started: the unscheduled bytes are
    granted. -/
def segmentOf (m : Message) (id i : Nat) : DataHeader where
  sport := 7
  dport := 9
  seq := BitVec.ofNat 16 i
  senderId := BitVec.ofNat 64 id
  messageLength := BitVec.ofNat 32 m.length
  incoming := BitVec.ofNat 32 (min m.length homaUnschedBytes.toNat)
  retransmit := false
  segOffset := BitVec.ofNat 32 (i * homaMss)
  segmentLength := BitVec.ofNat 32 (m.segLen i)

theorem isSegment_segmentOf (m : Message) (id : Nat) {i : Nat} (hi : i < m.n) :
    IsSegment m i (segmentOf m id i) := by
  have hmss : homaMss = 1420 := rfl
  have hn := m.le
  have hlen := m.length_le
  have hseg := m.segLen_le i
  refine ⟨hi, ?_, ?_, ?_, ?_⟩
  · exact Nat.mod_eq_of_lt (by omega)
  · refine Nat.mod_eq_of_lt ?_
    rw [hmss]
    omega
  · exact Nat.mod_eq_of_lt (by omega)
  · exact Nat.mod_eq_of_lt (by omega)

structure Holds (m : Message) (S : Finset Nat) (r : RpcState) : Prop where
  recorded : Recorded m.n S r
  length : r.messageLength.toNat = m.length
  remaining : r.cc.bytesRemaining.toNat + ∑ i ∈ S, m.segLen i = m.length

section

variable {m : Message} {S : Finset Nat} {r r' : RpcState} {i : Nat} {d : DataHeader}

theorem IsSegment.not_singlePacket (h : IsSegment m i d) : d.singlePacket = false := by
  have h1 : homaMss ≤ (m.n - 1) * homaMss := by
    have := m.two_le
    exact Nat.le_mul_of_pos_left _ (by omega)
  have h2 := m.lower
  have h3 := h.messageLength
  exact decide_eq_false (by omega)

theorem IsSegment.segmentCount (h : IsSegment m i d) :
    (segmentCount d.messageLength).toNat = m.n := by
  have hml := h.messageLength
  have hle := m.length_le
  have hn := m.le
  have h2 := m.two_le
  have hlow := m.lower
  have hup := m.upper
  have hsum : (d.messageLength + BitVec.ofNat 32 homaMss - 1#32).toNat = m.length + 1419 := by
    have : homaMss = 1420 := rfl
    rw [this]
    bv_omega
  have hdiv : (m.length + 1419) / 1420 = m.n := by
    have : homaMss = 1420 := rfl
    rw [this] at hlow hup
    omega
  unfold Homa.segmentCount
  rw [toNat_setWidth, toNat_udiv, hsum]
  show (m.length + 1419) / 1420 % 2 ^ 16 = m.n
  rw [hdiv]
  exact Nat.mod_eq_of_lt (by omega)

theorem IsSegment.toNat_segLength (h : IsSegment m i d) : d.segLength.toNat = m.segLen i := by
  rw [DataHeader.segLength, toNat_setWidth, h.segmentLength]
  have := m.segLen_le i
  have : homaMss = 1420 := rfl
  exact Nat.mod_eq_of_lt (by omega)

theorem Recorded.of_core {n : Nat} (h : Recorded n S r)
    (hcore : r'.core = r.core) : Recorded n S r' where
  width := by
    rw [← h.width]
    exact congrArg (·.bitWidth.toNat) hcore
  bit := by
    intro j b hb
    have hbm : r'.core.bitmap j = r.core.bitmap j := by rw [hcore]
    exact (congrArg (·.getLsbD b) hbm).trans (h.bit j b hb)
  below := h.below
  rounds := by
    rw [← h.rounds]
    exact congrArg (·.bitmapRound.toNat) hcore

theorem Holds.of_core (h : Holds m S r) (hcore : r'.core = r.core) : Holds m S r' where
  recorded := h.recorded.of_core hcore
  length := by rw [← h.length]; exact congrArg (·.messageLength.toNat) hcore
  remaining := by
    rw [← h.remaining]
    have : r'.cc.bytesRemaining = r.cc.bytesRemaining := congrArg (·.cc.bytesRemaining) hcore
    rw [this]

theorem Holds.setState (h : Holds m S r) (p : RpcPhase) : Holds m S { r with state := p } :=
  ⟨⟨h.recorded.width, h.recorded.bit, h.recorded.below, h.recorded.rounds⟩, h.length, h.remaining⟩

theorem Holds.remaining_eq_zero_iff (h : Holds m S r) :
    r.cc.bytesRemaining = 0#64 ↔ S = Finset.range m.n := by
  rw [← m.sum_segLen_eq_iff h.recorded.below, ← toNat_inj, toNat_ofNat]
  have := h.remaining
  omega

theorem recorded_startMessage {n : Nat} (hwidth : (segmentCount d.messageLength).toNat = n)
    (hn : n ≤ 768) (hlt : d.seq.toNat < n) (r : RpcState) :
    Recorded n {d.seq.toNat} (startMessage r d) ∧ (startMessage r d).state = r.state ∧
      (setBitmap (clearAllBitmaps { r with bitWidth := segmentCount d.messageLength }) d.seq).2 =
        if {d.seq.toNat} = range n then .complete else .more := by
  have hclear := recorded_clearAllBitmaps (r := { r with bitWidth := segmentCount d.messageLength })
    hwidth (by omega)
  obtain ⟨bm, rd, heq, hrec⟩ := setBitmap_of_not_mem hclear hn hlt (notMem_empty _)
  rw [LawfulSingleton.insert_empty_eq] at heq hrec
  refine ⟨⟨?_, ?_, hrec.below, ?_⟩, ?_, by rw [heq]⟩
  · rw [← hrec.width]
    simp only [startMessage, heq]
  · intro j b hb
    rw [← hrec.bit j b hb]
    simp only [startMessage, heq]
  · rw [← hrec.rounds]
    simp only [startMessage, heq]
  · simp only [startMessage, heq]
    rfl

theorem holds_startMessage (h : IsSegment m i d) (r : RpcState) :
    Holds m {i} (startMessage r d) ∧ (startMessage r d).state = r.state ∧
      (setBitmap (clearAllBitmaps { r with bitWidth := segmentCount d.messageLength }) d.seq).2 =
        .more := by
  have hlt : d.seq.toNat < m.n := by
    rw [h.seq]
    exact h.lt
  obtain ⟨hrec, hstate, hanswer⟩ := recorded_startMessage h.segmentCount m.le hlt r
  rw [h.seq] at hrec hanswer
  have hne : ({i} : Finset Nat) ≠ range m.n := by
    intro hcontra
    have hcard := congrArg card hcontra
    rw [card_range, card_singleton] at hcard
    have := m.two_le
    omega
  rw [if_neg hne] at hanswer
  refine ⟨⟨hrec, h.messageLength, ?_⟩, hstate, hanswer⟩
  have hseg := h.toNat_segLength
  have hml := h.messageLength
  have hle := m.sum_segLen_le hrec.below
  rw [sum_singleton] at hle ⊢
  show (d.messageLength.setWidth 64 - d.segLength).toNat + m.segLen i = m.length
  bv_omega

theorem recordSegment_of_mem (h : Holds m S r) (hd : IsSegment m i d) (hi : i ∈ S) :
    recordSegment r d = (r, .error) := by
  have hmem : d.seq.toNat ∈ S := by
    rw [hd.seq]
    exact hi
  simp only [recordSegment, setBitmap_of_mem h.recorded m.le hmem]

theorem recordSegment_of_not_mem (h : Holds m S r) (hd : IsSegment m i d) (hi : i ∉ S) :
    ∃ r', recordSegment r d = (r', if insert i S = Finset.range m.n then .complete else .more) ∧
      Holds m (insert i S) r' ∧ r'.state = r.state := by
  have hlt : d.seq.toNat < m.n := by
    rw [hd.seq]
    exact hd.lt
  have hnew : d.seq.toNat ∉ S := by
    rw [hd.seq]
    exact hi
  obtain ⟨bm, rd, heq, hrec⟩ := setBitmap_of_not_mem h.recorded m.le hlt hnew
  rw [hd.seq] at heq hrec
  refine ⟨accountSegment { r with bitmap := bm, bitmapRound := rd } d, ?_, ?_, rfl⟩
  · unfold recordSegment
    rw [heq]
    split_ifs <;> rfl
  · refine ⟨{ hrec with }, h.length, ?_⟩
    have hseg := hd.toNat_segLength
    have hrem := h.remaining
    have hle := m.sum_segLen_le hrec.below
    rw [sum_insert hi] at hle ⊢
    show (r.cc.bytesRemaining - d.segLength).toNat + _ = m.length
    bv_omega

end

end MtpXdp.Homa

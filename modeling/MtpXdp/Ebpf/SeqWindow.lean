import MtpXdp.Core.Arc
import MtpXdp.Ebpf.EventProcessors

/-!
# The Receive Window

`seq_in_range` and the trimming of `tcp_valid_rxseq_ooo`, expressed with
distances on the ring of sequence numbers. All distances are taken from
`rx_next_seq`: the window is `[0, rx_avail)` and a segment starts at
`ahead rx_next_seq seq`.
-/

namespace MtpXdp.Ebpf

open MtpXdp.Core

variable {c : BpfTcpConn} {seq len : U32}

/-! ## Range tests -/

theorem seqInRange_iff (x s e : U32) : seqInRange x s e false = true ↔ ahead s x < ahead s e := by
  unfold seqInRange
  by_cases h : s ≤ e
  · rw [if_pos h, ahead_lt_iff_of_le h]
    simp
  · rw [if_neg h, ahead_lt_iff_of_not_le h]
    simp

theorem seqInRange_excluding_iff (x s e : U32) :
    seqInRange x s e true = true ↔ ahead s x ≠ 0 ∧ ahead s x ≤ ahead s e := by
  rw [ne_eq, ahead_eq_zero_iff]
  unfold seqInRange
  by_cases h : s ≤ e
  · rw [if_pos h, ahead_le_iff_of_le h]
    simp only [if_true, Bool.and_eq_true, decide_eq_true_eq]
    bv_omega
  · rw [if_neg h, ahead_le_iff_of_not_le h]
    simp only [if_true, Bool.or_eq_true, decide_eq_true_eq]
    bv_omega

/-! ## Distances of a segment -/

section

variable (c : BpfTcpConn) (seq len : U32)

theorem ahead_windowEnd : ahead c.rxNextSeq (c.rxNextSeq + c.rxAvail) = c.rxAvail.toNat :=
  ahead_add_self _ _

theorem ahead_segmentEnd : ahead seq (seq + len) = len.toNat :=
  ahead_add_self _ _

theorem rxseqTrimStart_eq : rxseqTrimStart c seq =
      if ahead c.rxNextSeq seq < c.rxAvail.toNat then 0#32 else c.rxNextSeq - seq := by
  unfold rxseqTrimStart
  by_cases h : ahead c.rxNextSeq seq < c.rxAvail.toNat
  · rw [if_pos h, if_pos ((seqInRange_iff _ _ _).mpr (by rwa [ahead_windowEnd]))]
  · rw [if_neg h, if_neg (fun hin => h (by rwa [seqInRange_iff, ahead_windowEnd] at hin))]

theorem rxseqTrimEnd_eq : rxseqTrimEnd c seq len =
      if ahead c.rxNextSeq (seq + len) ≠ 0 ∧ ahead c.rxNextSeq (seq + len) ≤ c.rxAvail.toNat
      then 0#32 else seq + len - (c.rxNextSeq + c.rxAvail) := by
  unfold rxseqTrimEnd
  by_cases h : ahead c.rxNextSeq (seq + len) ≠ 0 ∧
      ahead c.rxNextSeq (seq + len) ≤ c.rxAvail.toNat
  · rw [if_pos h, if_pos ((seqInRange_excluding_iff _ _ _).mpr (by rwa [ahead_windowEnd]))]
  · rw [if_neg h, if_neg (fun hin => h (by rwa [seqInRange_excluding_iff, ahead_windowEnd] at hin))]

end

/-! ## Segments that contain the next expected byte -/

/-- The segment contains the next expected byte, and does not start at a later byte of the
    window. -/
def Covers (c : BpfTcpConn) (seq len : U32) : Prop :=
  ahead seq c.rxNextSeq < len.toNat ∧
    (seq = c.rxNextSeq ∨ ¬ ahead c.rxNextSeq seq < c.rxAvail.toNat)
deriving Decidable

section

section

variable (h : Covers c seq len)
include h

theorem rxseqOverlaps_of_covers : rxseqOverlaps c seq len = true := by
  have hin : seqInRange c.rxNextSeq seq (seq + len) false = true := by
    rw [seqInRange_iff, ahead_segmentEnd]
    exact h.1
  simp [rxseqOverlaps, hin]

theorem rxseqTrimStart_of_covers : rxseqTrimStart c seq = c.rxNextSeq - seq := by
  rw [rxseqTrimStart_eq]
  rcases h.2 with heq | hout
  · rw [heq, BitVec.sub_self, ite_self]
  · rw [if_neg hout]

theorem ahead_end_of_covers :
    ahead c.rxNextSeq (seq + len) = len.toNat - ahead seq c.rxNextSeq := by
  have hadd := ahead_trans seq c.rxNextSeq (seq + len)
  rw [ahead_segmentEnd] at hadd
  have hlt := h.1
  have hseg := ahead_lt c.rxNextSeq (seq + len)
  omega

theorem trims_of_covers : rxseqTrimStart c seq + rxseqTrimEnd c seq len ≤ len ∧
      (len - (rxseqTrimStart c seq + rxseqTrimEnd c seq len)).toNat ≤
        len.toNat - ahead seq c.rxNextSeq := by
  have hlt := h.1
  have hend := ahead_end_of_covers h
  have hstart : (rxseqTrimStart c seq).toNat = ahead seq c.rxNextSeq := by
    rw [rxseqTrimStart_of_covers h]
    rfl
  have hte : (rxseqTrimEnd c seq len).toNat ≤ len.toNat - ahead seq c.rxNextSeq := by
    rw [rxseqTrimEnd_eq]
    by_cases hin : ahead c.rxNextSeq (seq + len) ≠ 0 ∧
        ahead c.rxNextSeq (seq + len) ≤ c.rxAvail.toNat
    · rw [if_pos hin]
      exact Nat.zero_le _
    · -- the segment reaches past the window, so the distance to the window's end does not wrap
      rw [if_neg hin]
      have hadd := ahead_trans c.rxNextSeq (c.rxNextSeq + c.rxAvail) (seq + len)
      rw [ahead_windowEnd] at hadd
      have hlt' := ahead_lt (c.rxNextSeq + c.rxAvail) (seq + len)
      change ahead (c.rxNextSeq + c.rxAvail) (seq + len) ≤ _
      omega
  have hsum : (rxseqTrimStart c seq + rxseqTrimEnd c seq len).toNat =
      (rxseqTrimStart c seq).toNat + (rxseqTrimEnd c seq len).toNat := by
    rw [BitVec.toNat_add]
    omega
  have hle : rxseqTrimStart c seq + rxseqTrimEnd c seq len ≤ len := by
    rw [BitVec.le_def, hsum]
    omega
  refine ⟨hle, ?_⟩
  rw [BitVec.toNat_sub_of_le hle, hsum]
  omega

theorem tcpValidRxseqOoo_of_covers :
    tcpValidRxseqOoo c seq len = some (c.rxNextSeq - seq, rxseqTrimEnd c seq len) := by
  rw [tcpValidRxseqOoo, if_pos (rxseqOverlaps_of_covers h), rxseqTrimStart_of_covers h]

end

end

/-! ## The window as a set of sequence numbers -/

def Between (first last x : U32) : Prop := ahead first x < ahead first last
deriving Decidable

theorem between_add_iff (s n x : U32) : Between s (s + n) x ↔ ahead s x < n.toNat := by
  rw [Between, ahead_add_self]

def InBoth (c : BpfTcpConn) (seq len x : U32) : Prop :=
  Between seq (seq + len) x ∧ Between c.rxNextSeq (c.rxNextSeq + c.rxAvail) x

/-- It shares a sequence number with the window; if that is closed, the next number is in it or
    right behind it. -/
def Acceptable (c : BpfTcpConn) (seq len : U32) : Prop :=
  (∃ x, InBoth c seq len x) ∨ (c.rxAvail = 0#32 ∧ ahead seq c.rxNextSeq ≤ len.toNat)

structure TrimExact (c : BpfTcpConn) (seq len trimStart trimEnd : U32) : Prop where
  le_len : trimStart.toNat + trimEnd.toNat ≤ len.toNat
  exact_iff : ∀ x, Between (seq + trimStart) (seq + len - trimEnd) x ↔ InBoth c seq len x

theorem inBoth_iff (c : BpfTcpConn) (seq len x : U32) :
    InBoth c seq len x ↔ ahead seq x < len.toNat ∧ ahead c.rxNextSeq x < c.rxAvail.toNat := by
  rw [InBoth, between_add_iff, between_add_iff]

theorem rxseqOverlaps_iff (c : BpfTcpConn) (seq len : U32) : rxseqOverlaps c seq len = true ↔
      ahead c.rxNextSeq seq < c.rxAvail.toNat ∨
      (ahead c.rxNextSeq (seq + len) ≠ 0 ∧ ahead c.rxNextSeq (seq + len) ≤ c.rxAvail.toNat) ∨
      ahead seq c.rxNextSeq < len.toNat ∨ (ahead seq (c.rxNextSeq + c.rxAvail) ≠ 0 ∧
        ahead seq (c.rxNextSeq + c.rxAvail) ≤ len.toNat) := by
  simp only [rxseqOverlaps, Bool.or_eq_true, seqInRange_iff, seqInRange_excluding_iff,
    ahead_segmentEnd, or_assoc]

theorem exists_inBoth_iff (hlen : 0 < len.toNat) (hopen : 0 < c.rxAvail.toNat) :
    (∃ x, InBoth c seq len x) ↔
      ahead seq c.rxNextSeq < len.toNat ∨ ahead c.rxNextSeq seq < c.rxAvail.toNat := by
  rw [← exists_mem_both_iff hlen hopen]
  exact exists_congr (fun x => inBoth_iff c seq len x)

theorem start_mem_of_end_mem (h : (ahead c.rxNextSeq (seq + len) ≠ 0 ∧
        ahead c.rxNextSeq (seq + len) ≤ c.rxAvail.toNat) ∨
      (ahead seq (c.rxNextSeq + c.rxAvail) ≠ 0 ∧ ahead seq (c.rxNextSeq + c.rxAvail) ≤ len.toNat))
    (hlen : 0 < len.toNat) (hopen : 0 < c.rxAvail.toNat) :
    ahead seq c.rxNextSeq < len.toNat ∨ ahead c.rxNextSeq seq < c.rxAvail.toNat := by
  rcases eq_or_ne seq c.rxNextSeq with heq | hne
  · left
    rw [heq, ahead_self]
    exact hlen
  · have hring := ahead_add_ahead hne
    rcases h with ⟨hne0, hle⟩ | ⟨hne0, hle⟩
    · by_cases hwrap : ahead c.rxNextSeq seq + len.toNat < 2 ^ 32
      · rw [ahead_add_of_lt hwrap] at hle
        omega
      · rw [ahead_add, Nat.mod_eq_sub_mod (Nat.not_lt.mp hwrap)] at hne0
        omega
    · by_cases hwrap : ahead seq c.rxNextSeq + c.rxAvail.toNat < 2 ^ 32
      · rw [ahead_add_of_lt hwrap] at hle
        omega
      · rw [ahead_add, Nat.mod_eq_sub_mod (Nat.not_lt.mp hwrap)] at hne0
        omega

theorem rxseqOverlaps_iff_acceptable (hlen : 0 < len.toNat) :
    rxseqOverlaps c seq len = true ↔ Acceptable c seq len := by
  rw [rxseqOverlaps_iff, Acceptable]
  by_cases hopen : 0 < c.rxAvail.toNat
  · have hne : c.rxAvail ≠ 0#32 := by
      intro h
      rw [h] at hopen
      exact absurd hopen (by decide)
    rw [exists_inBoth_iff hlen hopen]
    simp only [hne, false_and, or_false]
    constructor
    · rintro (h | h | h | h)
      · exact Or.inr h
      · exact start_mem_of_end_mem (Or.inl h) hlen hopen
      · exact Or.inl h
      · exact start_mem_of_end_mem (Or.inr h) hlen hopen
    · rintro (h | h)
      · exact Or.inr (Or.inr (Or.inl h))
      · exact Or.inl h
  · -- a closed window: only the tests on the segment's own range can succeed
    have hzero : c.rxAvail = 0#32 := BitVec.eq_of_toNat_eq (by simpa using hopen)
    have hnone : ¬ ∃ x, InBoth c seq len x := by
      rintro ⟨x, hx⟩
      rw [inBoth_iff] at hx
      omega
    simp only [hnone, hzero, false_or, true_and, BitVec.add_zero, BitVec.toNat_zero]
    omega

theorem toNat_rxseqTrimStart (c : BpfTcpConn) (seq : U32) : (rxseqTrimStart c seq).toNat =
      if ahead c.rxNextSeq seq < c.rxAvail.toNat then 0 else ahead seq c.rxNextSeq := by
  rw [rxseqTrimStart_eq]
  split_ifs <;> rfl

theorem toNat_rxseqTrimEnd (c : BpfTcpConn) (seq len : U32) : (rxseqTrimEnd c seq len).toNat =
      if ahead c.rxNextSeq (seq + len) ≠ 0 ∧ ahead c.rxNextSeq (seq + len) ≤ c.rxAvail.toNat
      then 0 else ahead (c.rxNextSeq + c.rxAvail) (seq + len) := by
  rw [rxseqTrimEnd_eq]
  split_ifs <;> rfl

theorem ahead_trimmed {trimStart trimEnd : U32} (h : trimStart.toNat + trimEnd.toNat ≤ len.toNat) :
    ahead (seq + trimStart) (seq + len - trimEnd) =
      len.toNat - (trimStart.toNat + trimEnd.toNat) := by
  unfold ahead
  bv_omega

theorem toNat_trims_of_start_mem (hfit : len.toNat + c.rxAvail.toNat < 2 ^ 32)
    (hlen : 0 < len.toNat) (hin : ahead c.rxNextSeq seq < c.rxAvail.toNat) :
    (rxseqTrimStart c seq).toNat + (rxseqTrimEnd c seq len).toNat =
      len.toNat - min len.toNat (c.rxAvail.toNat - ahead c.rxNextSeq seq) := by
  have hend : ahead c.rxNextSeq (seq + len) = ahead c.rxNextSeq seq + len.toNat :=
    ahead_add_of_lt (by omega)
  rw [toNat_rxseqTrimStart, if_pos hin, toNat_rxseqTrimEnd, hend]
  split_ifs with hinside
  · omega
  · have hover := ahead_of_ahead_le (x := seq + len) (a := c.rxNextSeq)
      (b := c.rxNextSeq + c.rxAvail) (by rw [ahead_windowEnd, hend]; omega)
    rw [hover, ahead_windowEnd, hend]
    omega

theorem toNat_trims_of_reach (hin : ¬ ahead c.rxNextSeq seq < c.rxAvail.toNat)
    (hreach : ahead seq c.rxNextSeq ≤ len.toNat)
    (hclosed : ahead seq c.rxNextSeq = len.toNat → c.rxAvail.toNat = 0) :
    (rxseqTrimStart c seq).toNat + (rxseqTrimEnd c seq len).toNat =
      len.toNat - min c.rxAvail.toNat (len.toNat - ahead seq c.rxNextSeq) := by
  have hend : ahead c.rxNextSeq (seq + len) = len.toNat - ahead seq c.rxNextSeq := by
    rw [ahead_of_ahead_le (by rwa [ahead_segmentEnd]), ahead_segmentEnd]
  rw [toNat_rxseqTrimStart, if_neg hin, toNat_rxseqTrimEnd, hend]
  split_ifs with hinside
  · omega
  · have hpast : ahead c.rxNextSeq (c.rxNextSeq + c.rxAvail) ≤ ahead c.rxNextSeq (seq + len) := by
      rw [ahead_windowEnd, hend]
      omega
    rw [ahead_of_ahead_le hpast, ahead_windowEnd, hend]
    omega

theorem trimExact_of_overlaps (hfit : len.toNat + c.rxAvail.toNat < 2 ^ 32)
    (hlen : 0 < len.toNat) (h : rxseqOverlaps c seq len = true) :
    TrimExact c seq len (rxseqTrimStart c seq) (rxseqTrimEnd c seq len) := by
  rw [rxseqOverlaps_iff_acceptable hlen] at h
  by_cases hin : ahead c.rxNextSeq seq < c.rxAvail.toNat
  · -- the segment starts in the window: only its end is cut
    have hsum := toNat_trims_of_start_mem hfit hlen hin
    have hle : (rxseqTrimStart c seq).toNat + (rxseqTrimEnd c seq len).toNat ≤ len.toNat := by
      omega
    refine ⟨hle, fun x => ?_⟩
    rw [Between, ahead_trimmed hle, inBoth_iff, and_comm, mem_both_iff (by omega) hin, hsum,
      rxseqTrimStart_eq, if_pos hin, BitVec.add_zero, Nat.sub_sub_self (Nat.min_le_left _ _)]
  · -- it starts before the window, which it reaches: the rest starts at `rx_next_seq`
    have hreach : ahead seq c.rxNextSeq < len.toNat ∨
        (ahead seq c.rxNextSeq ≤ len.toNat ∧ c.rxAvail.toNat = 0) := by
      by_cases hopen : 0 < c.rxAvail.toNat
      · rcases h with hmeet | ⟨hzero, -⟩
        · exact Or.inl (((exists_inBoth_iff hlen hopen).mp hmeet).resolve_right hin)
        · simp [hzero] at hopen
      · rcases h with hmeet | ⟨-, hle⟩
        · obtain ⟨x, hx⟩ := hmeet
          rw [inBoth_iff] at hx
          omega
        · exact Or.inr ⟨hle, by omega⟩
    have hsum : (rxseqTrimStart c seq).toNat + (rxseqTrimEnd c seq len).toNat =
        len.toNat - min c.rxAvail.toNat (len.toNat - ahead seq c.rxNextSeq) :=
      toNat_trims_of_reach hin (by omega) (by omega)
    have hle : (rxseqTrimStart c seq).toNat + (rxseqTrimEnd c seq len).toNat ≤ len.toNat := by
      omega
    have hnext : seq + rxseqTrimStart c seq = c.rxNextSeq := by
      rw [rxseqTrimStart_eq, if_neg hin, BitVec.add_comm, BitVec.sub_add_cancel]
    refine ⟨hle, fun x => ?_⟩
    rw [Between, ahead_trimmed hle, inBoth_iff, hnext, hsum]
    rcases hreach with hreach | ⟨-, hclosed⟩
    · rw [mem_both_iff (by omega) hreach]
      omega
    · omega

/-! ## The two places that trim -/

structure TrimmedBy (x : NetCtx) (trimStart trimEnd : U32) : Prop where
  seqNum : (verifyTrimDataEp x).ev.seqNum = x.ev.seqNum + trimStart
  dataLen : (verifyTrimDataEp x).ev.dataLen = x.ev.dataLen - (trimStart + trimEnd)
  poff : (verifyTrimDataEp x).md.poff = (BitVec.ofNat 32 headersLen + trimStart).setWidth 16
  plen : (verifyTrimDataEp x).md.plen = (verifyTrimDataEp x).ev.dataLen.setWidth 16

theorem verifyTrimDataEp_skipDataEps (x : NetCtx) :
    (verifyTrimDataEp x).io.skipDataEps = !rxseqOverlaps x.c x.ev.seqNum x.ev.dataLen := by
  unfold verifyTrimDataEp tcpValidRxseqOoo
  cases rxseqOverlaps x.c x.ev.seqNum x.ev.dataLen <;> rfl

theorem verifyTrimDataEp_of_overlaps {x : NetCtx}
    (h : rxseqOverlaps x.c x.ev.seqNum x.ev.dataLen = true) :
    verifyTrimDataEp x =
      let trimStart := rxseqTrimStart x.c x.ev.seqNum
      let trimEnd := rxseqTrimEnd x.c x.ev.seqNum x.ev.dataLen
      let dataLen := if trimStart + trimEnd ≤ x.ev.dataLen then x.ev.dataLen - (trimStart + trimEnd)
        else x.ev.dataLen
      { x with
        io := { x.io with skipDataEps := false, drop := true, triggerAck := true }
        md := { x.md with
          poff := (BitVec.ofNat 32 headersLen + trimStart).setWidth 16
          plen := dataLen.setWidth 16 }
        ev := { x.ev with dataLen := dataLen, seqNum := x.ev.seqNum + trimStart } } := by
  have hvalid : tcpValidRxseqOoo x.c x.ev.seqNum x.ev.dataLen =
      some (rxseqTrimStart x.c x.ev.seqNum, rxseqTrimEnd x.c x.ev.seqNum x.ev.dataLen) := by
    rw [tcpValidRxseqOoo, if_pos h]
  unfold verifyTrimDataEp
  rw [hvalid]

theorem verifyTrimDataEp_of_rejected {x : NetCtx}
    (h : ¬ rxseqOverlaps x.c x.ev.seqNum x.ev.dataLen = true) : verifyTrimDataEp x =
      { x with io := { x.io with skipDataEps := true, drop := true, triggerAck := false } } := by
  have hnone : tcpValidRxseqOoo x.c x.ev.seqNum x.ev.dataLen = none := by
    rw [tcpValidRxseqOoo, if_neg h]
  unfold verifyTrimDataEp
  rw [hnone]

theorem trimmedBy_of_overlaps {x : NetCtx} (h : rxseqOverlaps x.c x.ev.seqNum x.ev.dataLen = true)
    (hle : rxseqTrimStart x.c x.ev.seqNum + rxseqTrimEnd x.c x.ev.seqNum x.ev.dataLen ≤
      x.ev.dataLen) : TrimmedBy x (rxseqTrimStart x.c x.ev.seqNum)
      (rxseqTrimEnd x.c x.ev.seqNum x.ev.dataLen) := by
  have heq := verifyTrimDataEp_of_overlaps h
  simp only [if_pos hle] at heq
  constructor <;> rw [heq]

/-- **The window check computes the exact intersection**: acceptable segments are accepted, with
    what they share with the window. -/
theorem window_trim_exact (x : NetCtx) (havail : x.c.rxAvail.toNat < 2 ^ 31)
    (hlen : x.ev.dataLen.toNat < 2 ^ 31) (hpos : 0 < x.ev.dataLen.toNat) :
    ((tcpValidRxseqOoo x.c x.ev.seqNum x.ev.dataLen).isSome = true ↔
      Acceptable x.c x.ev.seqNum x.ev.dataLen) ∧
    (∀ trimStart trimEnd,
      tcpValidRxseqOoo x.c x.ev.seqNum x.ev.dataLen = some (trimStart, trimEnd) →
        TrimExact x.c x.ev.seqNum x.ev.dataLen trimStart trimEnd) ∧
    ((verifyTrimDataEp x).io.skipDataEps = false ↔ Acceptable x.c x.ev.seqNum x.ev.dataLen) ∧
    ((verifyTrimDataEp x).io.skipDataEps = false → ∃ trimStart trimEnd,
      TrimmedBy x trimStart trimEnd ∧
        TrimExact x.c x.ev.seqNum x.ev.dataLen trimStart trimEnd) := by
  have hfit : x.ev.dataLen.toNat + x.c.rxAvail.toNat < 2 ^ 32 := by omega
  have hiff : rxseqOverlaps x.c x.ev.seqNum x.ev.dataLen = true ↔
      Acceptable x.c x.ev.seqNum x.ev.dataLen := rxseqOverlaps_iff_acceptable hpos
  rw [verifyTrimDataEp_skipDataEps, ← hiff]
  by_cases h : rxseqOverlaps x.c x.ev.seqNum x.ev.dataLen = true
  · have hexact := trimExact_of_overlaps hfit hpos h
    have hvalid : tcpValidRxseqOoo x.c x.ev.seqNum x.ev.dataLen =
        some (rxseqTrimStart x.c x.ev.seqNum, rxseqTrimEnd x.c x.ev.seqNum x.ev.dataLen) := by
      rw [tcpValidRxseqOoo, if_pos h]
    refine ⟨by simp [hvalid, h], ?_, by simp [h], ?_⟩
    · intro trimStart trimEnd heq
      rw [hvalid, Option.some.injEq, Prod.mk.injEq] at heq
      obtain ⟨rfl, rfl⟩ := heq
      exact hexact
    · intro _
      refine ⟨_, _, trimmedBy_of_overlaps h ?_, hexact⟩
      have hle := hexact.le_len
      bv_omega
  · rw [Bool.not_eq_true] at h
    simp [tcpValidRxseqOoo, h]

theorem window_trim_exact_at_wrap :
    let x : NetCtx := { (default : NetCtx) with
      c := { (default : BpfTcpConn) with rxNextSeq := 0xfffffff0#32, rxAvail := 100#32 }
      ev := { (default : NetEvent) with seqNum := 0xffffffe0#32, dataLen := 64#32 } }
    (verifyTrimDataEp x).io.skipDataEps = false ∧
      TrimExact x.c x.ev.seqNum x.ev.dataLen 16#32 0#32 := by
  intro x
  obtain ⟨-, hexact, -, -⟩ := window_trim_exact x (by decide) (by decide) (by decide)
  exact ⟨by decide, hexact 16#32 0#32 (by decide)⟩

end MtpXdp.Ebpf

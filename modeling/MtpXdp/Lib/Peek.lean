import Mathlib.Data.Nat.ModEq
import MtpXdp.Lib.Receive

/-!
# Reading a Stream from the Frames that Hold It

`eTran_tcp_rx_peek_count_zc` copies the frames of `rx_addrs` whose position lies in the range that
is being read. The frames hold a contiguous piece of a byte stream, and the pass returns the next
bytes of that piece, and leaves frames that hold the rest.
-/

namespace MtpXdp.Lib

open Ebpf List Nat

variable {o lo hi count : Nat} {p : RxPkt} {l : List RxPkt}

/-! ## Frames of a stream -/

def posModulus : Nat := 524288

structure Holds (data : List U8) (o : Nat) (p : RxPkt) : Prop where
  nonempty : 0 < p.md.plen.toNat
  bytes : (p.frame.drop p.md.poff.toNat).take p.md.plen.toNat =
    (data.drop o).take p.md.plen.toNat
  fits : p.md.poff.toNat + p.md.plen.toNat ≤ 65535
  within : o + p.md.plen.toNat ≤ data.length

/-- The position of a frame at offset `o` as filed; in the first round, in a buffer of another size.
    -/
def FreshPos (size o : Nat) (p : RxPkt) : Prop :=
  p.md.rxPos.toNat = o % posModulus ∧ (size = posModulus ∨ o < posModulus)

/-- The position of the first frame, which may have been cut: right up to a multiple of the
    buffer size. -/
structure HeadPos (size o : Nat) (p : RxPkt) : Prop where
  le : p.md.rxPos.toNat ≤ o
  congr : p.md.rxPos.toNat % size = o % size
  full : size = posModulus → p.md.rxPos.toNat ≤ posModulus
  bound : p.md.rxPos.toNat + p.md.plen.toNat ≤ 2 * posModulus

def FreshTiles (data : List U8) (size : Nat) : Nat → List RxPkt → Nat → Prop
  | lo, [], hi => lo = hi
  | lo, p :: l, hi =>
    Holds data lo p ∧ FreshPos size lo p ∧ FreshTiles data size (lo + p.md.plen.toNat) l hi

/-- Frames that hold the stream from offset `lo` up to `hi`, the first of them possibly cut. -/
def Tiles (data : List U8) (size : Nat) : Nat → List RxPkt → Nat → Prop
  | lo, [], hi => lo = hi
  | lo, p :: l, hi =>
    Holds data lo p ∧ HeadPos size lo p ∧ FreshTiles data size (lo + p.md.plen.toNat) l hi

variable {data : List U8} {size : Nat}

/-! ### Tilings -/

theorem FreshPos.headPos (h : FreshPos size o p) : HeadPos size o p := by
  obtain ⟨hpos, hsize⟩ := h
  have hmod : o % posModulus < posModulus := mod_lt _ (by decide)
  refine ⟨?_, ?_, ?_, ?_⟩
  · rw [hpos]
    exact mod_le _ _
  · rw [hpos]
    rcases hsize with rfl | hlt
    · exact mod_mod _ _
    · rw [mod_eq_of_lt hlt]
  · intro _
    omega
  · unfold posModulus at *
    omega

theorem FreshTiles.tiles (h : FreshTiles data size lo l hi) : Tiles data size lo l hi := by
  cases l with
  | nil => exact h
  | cons p l => exact ⟨h.1, h.2.1.headPos, h.2.2⟩

theorem FreshTiles.append (h : FreshTiles data size lo l hi) (hp : Holds data hi p)
    (hpos : FreshPos size hi p) :
    FreshTiles data size lo (l ++ [p]) (hi + p.md.plen.toNat) := by
  induction l generalizing lo with
  | nil =>
    obtain rfl : lo = hi := h
    exact ⟨hp, hpos, rfl⟩
  | cons q l ih => exact ⟨h.1, h.2.1, ih h.2.2⟩

theorem Tiles.append (h : Tiles data size lo l hi)
    (hp : Holds data hi p) (hpos : FreshPos size hi p) :
    Tiles data size lo (l ++ [p]) (hi + p.md.plen.toNat) := by
  cases l with
  | nil =>
    obtain rfl : lo = hi := h
    exact ⟨hp, hpos.headPos, rfl⟩
  | cons q l => exact ⟨h.1, h.2.1, h.2.2.append hp hpos⟩

/-! ### Cutting a frame -/

section

variable {n : Nat}

theorem truncate_plen (rxBufSize : U32) (hn : n < p.md.plen.toNat) :
    (p.truncate rxBufSize n).md.plen.toNat = p.md.plen.toNat - n := by
  simp only [RxPkt.truncate, BitVec.toNat_sub, BitVec.toNat_ofNat]
  omega

theorem Holds.truncate (rxBufSize : U32) (h : Holds data o p) (hn : n < p.md.plen.toNat) :
    Holds data (o + n) (p.truncate rxBufSize n) := by
  have hfits := h.fits
  have hwithin := h.within
  have hplen := truncate_plen rxBufSize hn
  have hpoff : (p.truncate rxBufSize n).md.poff.toNat = p.md.poff.toNat + n := by
    simp only [RxPkt.truncate, BitVec.toNat_add, BitVec.toNat_ofNat]
    omega
  refine ⟨by omega, ?_, by omega, by omega⟩
  have hcut := congrArg (drop n) h.bytes
  rw [drop_take, drop_take, drop_drop, drop_drop] at hcut
  rw [hplen, hpoff]
  exact hcut

theorem HeadPos.truncate {rxBufSize : U32} (hsize : rxBufSize.toNat = size)
    (h : HeadPos size o p) (hn : n < p.md.plen.toNat) :
    HeadPos size (o + n) (p.truncate rxBufSize n) := by
  have hbound := h.bound
  have hle := h.le
  have hplen := truncate_plen rxBufSize hn
  have hpos : (p.truncate rxBufSize n).md.rxPos.toNat =
      if p.md.rxPos.toNat + n > size then p.md.rxPos.toNat + n - size
      else p.md.rxPos.toNat + n := by
    simp only [RxPkt.truncate, hsize, BitVec.toNat_ofNat]
    unfold posModulus at hbound
    split_ifs <;> omega
  have hcongr : (p.md.rxPos.toNat + n) % size = (o + n) % size := Nat.ModEq.add_right n h.congr
  refine ⟨?_, ?_, ?_, ?_⟩
  · rw [hpos]
    split_ifs <;> omega
  · rw [hpos]
    split_ifs with hwrap
    · rw [← hcongr, mod_eq_sub_mod (le_of_lt hwrap)]
    · exact hcongr
  · intro hfull
    rw [hpos]
    split_ifs <;> omega
  · rw [hpos, hplen]
    split_ifs <;> omega

end

/-! ## A pass over the frames -/

def starts : Nat → List RxPkt → List (Nat × RxPkt)
  | _, [] => []
  | lo, p :: l => (lo, p) :: starts (lo + p.md.plen.toNat) l

theorem FreshTiles.pos_of_mem (h : FreshTiles data size lo l hi) (hmem : (o, p) ∈ starts lo l) :
    lo ≤ o ∧ FreshPos size o p := by
  induction l generalizing lo with
  | nil => cases hmem
  | cons q l ih =>
    rcases mem_cons.mp hmem with heq | hrest
    · cases heq
      exact ⟨le_refl _, h.2.1⟩
    · obtain ⟨hle, hpos⟩ := ih h.2.2 hrest
      exact ⟨le_trans (le_add_right _ _) hle, hpos⟩

theorem exists_start_of_mem (lo : Nat) (h : p ∈ l) : ∃ o, (o, p) ∈ starts lo l := by
  induction l generalizing lo with
  | nil => cases h
  | cons q l ih =>
    rcases mem_cons.mp h with rfl | h
    · exact ⟨lo, mem_cons_self⟩
    · obtain ⟨o, ho⟩ := ih (lo + q.md.plen.toNat) h
      exact ⟨o, mem_cons_of_mem _ ho⟩

section

variable {hit : U32 → Bool} {rxBufSize : U32} {copied : Nat} {l : List (U64 × RxPkt)}

theorem peekLoop_none (h : ∀ x ∈ l, hit x.2.md.rxPos = false) :
    peekLoop hit rxBufSize count copied l =
      { copied := copied, bytes := [], freed := [], left := l } := by
  induction l with
  | nil => rfl
  | cons x l ih =>
    have hx := h x mem_cons_self
    have hl := ih fun y hy => h y (mem_cons_of_mem _ hy)
    simp only [peekLoop, hx, hl, Bool.false_eq_true, if_false]
    split_ifs <;> rfl

theorem peekLoop_take (hsize : rxBufSize.toNat = size)
    (ht : Tiles data size lo (l.map Prod.snd) hi) (hcopied : copied < count)
    (hhi : lo + (count - copied) ≤ hi)
    (hhit : ∀ o p, (o, p) ∈ starts lo (l.map Prod.snd) → o < lo + (count - copied) →
      hit p.md.rxPos = true) : (peekLoop hit rxBufSize count copied l).copied = count ∧
    (peekLoop hit rxBufSize count copied l).bytes = (data.drop lo).take (count - copied) ∧
    Tiles data size (lo + (count - copied))
      ((peekLoop hit rxBufSize count copied l).left.map Prod.snd) hi := by
  induction l generalizing lo copied with
  | nil =>
    -- no frames, but bytes are needed
    obtain rfl : lo = hi := ht
    omega
  | cons x l ih =>
    obtain ⟨addr, p⟩ := x
    obtain ⟨hholds, hhead, htail⟩ : Tiles data size lo (p :: l.map Prod.snd) hi := ht
    have hp : hit p.md.rxPos = true := hhit lo p mem_cons_self (by omega)
    simp only [peekLoop, hp, if_true]
    rcases lt_trichotomy p.md.plen.toNat (count - copied) with hlt | heq | hgt
    · -- the frame is used up and the pass goes on
      have hmin : min p.md.plen.toNat (count - copied) = p.md.plen.toNat := by omega
      have hmore : ¬ copied + p.md.plen.toNat = count := by omega
      have hrest : count - (copied + p.md.plen.toNat) = count - copied - p.md.plen.toNat := by omega
      have hend : lo + p.md.plen.toNat + (count - copied - p.md.plen.toNat) =
          lo + (count - copied) := by omega
      have hcopied' : copied + p.md.plen.toNat < count := by omega
      obtain ⟨hc, hb, hl⟩ := ih htail.tiles hcopied' (by omega)
        (fun o q hmem ho => hhit o q (mem_cons_of_mem _ hmem) (by omega))
      rw [hrest, hend] at hl
      simp only [hmin, if_true, hmore, if_false]
      refine ⟨hc, ?_, hl⟩
      rw [hb, hholds.bytes, ← drop_drop, ← take_add]
      congr 1
      omega
    · -- the frame ends with the range
      have hmin : min p.md.plen.toNat (count - copied) = p.md.plen.toNat := by omega
      have hdone : copied + p.md.plen.toNat = count := by omega
      simp only [hmin, if_true, hdone]
      rw [← heq]
      exact ⟨trivial, hholds.bytes, htail.tiles⟩
    · -- the frame is cut
      have hmin : min p.md.plen.toNat (count - copied) = count - copied := by omega
      have hcut : ¬ count - copied = p.md.plen.toNat := by omega
      simp only [hmin, hcut, if_false]
      refine ⟨by omega, ?_, ?_⟩
      · have hb := congrArg (take (count - copied)) hholds.bytes
        rwa [take_take, take_take, min_eq_left (by omega)] at hb
      · refine ⟨hholds.truncate rxBufSize hgt, hhead.truncate hsize hgt, ?_⟩
        rw [truncate_plen rxBufSize hgt]
        have hend : lo + (count - copied) + (p.md.plen.toNat - (count - copied)) =
            lo + p.md.plen.toNat := by omega
        rw [hend]
        exact htail

theorem peekLoop_head {addr : U64} (hsize : rxBufSize.toNat = size)
    (ht : Tiles data size lo (p :: l.map Prod.snd) hi) (hnone : ∀ x ∈ l, hit x.2.md.rxPos = false) :
    ∃ n ≤ min count p.md.plen.toNat, (peekLoop hit rxBufSize count 0 ((addr, p) :: l)).copied = n ∧
      (peekLoop hit rxBufSize count 0 ((addr, p) :: l)).bytes = (data.drop lo).take n ∧
      Tiles data size (lo + n)
        ((peekLoop hit rxBufSize count 0 ((addr, p) :: l)).left.map Prod.snd) hi := by
  obtain ⟨hholds, hhead, htail⟩ := ht
  by_cases hp : hit p.md.rxPos = true
  · simp only [peekLoop, hp, if_true, Nat.sub_zero, Nat.zero_add, peekLoop_none hnone]
    by_cases hle : p.md.plen.toNat ≤ count
    · -- the whole frame; the frames behind it stay
      have hmin : min p.md.plen.toNat count = p.md.plen.toNat := by omega
      refine ⟨p.md.plen.toNat, by omega, ?_⟩
      simp only [hmin, if_true]
      split_ifs
      · exact ⟨rfl, hholds.bytes, htail.tiles⟩
      · exact ⟨rfl, by simpa using hholds.bytes, htail.tiles⟩
    · -- a part of it
      have hmin : min p.md.plen.toNat count = count := by omega
      have hcut : ¬ count = p.md.plen.toNat := by omega
      have hlt : count < p.md.plen.toNat := by omega
      refine ⟨count, by omega, ?_⟩
      simp only [hmin, hcut, if_false]
      refine ⟨trivial, ?_, hholds.truncate rxBufSize hlt, hhead.truncate hsize hlt, ?_⟩
      · have hb := congrArg (take count) hholds.bytes
        rwa [take_take, take_take, Nat.min_eq_left (by omega)] at hb
      · rw [truncate_plen rxBufSize hlt]
        have hend : lo + count + (p.md.plen.toNat - count) = lo + p.md.plen.toNat := by omega
        rw [hend]
        exact htail
  · have hall : ∀ x ∈ (addr, p) :: l, hit x.2.md.rxPos = false := by
      intro x hx
      rcases mem_cons.mp hx with rfl | hx
      · simpa using hp
      · exact hnone x hx
    rw [peekLoop_none hall]
    exact ⟨0, Nat.zero_le _, rfl, rfl, hholds, hhead, htail⟩

end

/-! ## Positions in range -/

/-- `rxb_head` after `lo` bytes: congruent to `lo`, and at the end of the buffer rather than at its
    beginning. -/
structure ReadHead (size lo head : Nat) : Prop where
  le : head ≤ size
  rounds : ∃ q, lo = q * size + head
  pos : 0 < lo → 0 < head

theorem Tiles.pos_of_mem (h : Tiles data size lo l hi) (hmem : (o, p) ∈ starts lo l) :
    (o = lo ∧ HeadPos size lo p) ∨ (lo < o ∧ FreshPos size o p) := by
  cases l with
  | nil => cases hmem
  | cons q l =>
    rcases mem_cons.mp hmem with heq | hrest
    · cases heq
      exact .inl ⟨rfl, h.2.1⟩
    · obtain ⟨hle, hpos⟩ := h.2.2.pos_of_mem hrest
      have := h.1.nonempty
      exact .inr ⟨by omega, hpos⟩

theorem inRange_iff (c : EtranConn) (count : Nat) (pos : U32) : inRange c count pos = true ↔
      if c.rxbHead.toNat + count > c.rxBufSize.toNat then
        c.rxbHead.toNat ≤ pos.toNat ∨ pos.toNat < c.rxbHead.toNat + count - c.rxBufSize.toNat
      else c.rxbHead.toNat ≤ pos.toNat ∧ pos.toNat < c.rxbHead.toNat + count := by
  unfold inRange
  split_ifs <;> simp

section

variable {c : EtranConn}

theorem inRange_of_full (hsize : c.rxBufSize.toNat = posModulus)
    (hhead : ReadHead posModulus lo c.rxbHead.toNat) (hcount : count ≤ posModulus)
    (hlo : lo ≤ o) (ho : o < lo + count) (hpos : HeadPos posModulus o p) :
    inRange c count p.md.rxPos = true := by
  obtain ⟨hle, ⟨q, hq⟩, hgt⟩ := hhead
  have hpo := hpos.le
  have hcongr := hpos.congr
  have hfull := hpos.full rfl
  rw [inRange_iff, hsize]
  unfold posModulus at *
  split_ifs <;> omega

theorem HeadPos.cases (hsize : 0 < size) {head : Nat} (hhead : ReadHead size lo head)
    (hpos : HeadPos size lo p) : p.md.rxPos.toNat = head ∨ head + size ≤ p.md.rxPos.toNat ∨
      (head = size ∧ p.md.rxPos.toNat = 0) := by
  obtain ⟨hle, ⟨q, hq⟩, -⟩ := hhead
  have hcongr := hpos.congr
  rw [hq, mul_add_mod_self_right] at hcongr
  have hdiv := div_add_mod p.md.rxPos.toNat size
  rw [hcongr] at hdiv
  rcases lt_or_eq_of_le hle with hlt | rfl
  · rw [mod_eq_of_lt hlt] at hdiv
    rcases Nat.eq_zero_or_pos (p.md.rxPos.toNat / size) with h0 | hpos'
    · rw [h0] at hdiv
      omega
    · have := Nat.le_mul_of_pos_right size hpos'
      omega
  · rw [mod_self] at hdiv
    rcases lt_trichotomy (p.md.rxPos.toNat / head) 1 with h0 | h1 | h2
    · rw [lt_one_iff.mp h0] at hdiv
      omega
    · rw [h1] at hdiv
      omega
    · have := mul_le_mul_left head h2
      omega

theorem inRange_of_first (hsize : c.rxBufSize.toNat = size) (hpos : 0 < size) (hcount : 0 < count)
    (hhead : ReadHead size lo c.rxbHead.toNat)
    (hround : lo = c.rxbHead.toNat ∨ size < c.rxbHead.toNat + count) (ho : o < lo + count)
    (hp : (o = lo ∧ HeadPos size lo p) ∨ (lo < o ∧ p.md.rxPos.toNat = o)) :
    inRange c count p.md.rxPos = true := by
  have hlo : c.rxbHead.toNat ≤ lo := by
    obtain ⟨q, hq⟩ := hhead.rounds
    omega
  rw [inRange_iff, hsize]
  rcases hp with ⟨rfl, hp⟩ | ⟨hgt, hp⟩
  · have hpo := hp.le
    rcases hp.cases hpos hhead with h | h | ⟨h, h'⟩ <;> split_ifs <;> omega
  · split_ifs <;> omega

theorem not_inRange_of_later (hsize : c.rxBufSize.toNat = size)
    (hhead : ReadHead size lo c.rxbHead.toNat) (hround : lo ≠ c.rxbHead.toNat)
    (hcount : ¬ size < c.rxbHead.toNat + count) (hgt : lo < o) (hp : p.md.rxPos.toNat = o) :
    inRange c count p.md.rxPos = false := by
  have hlo : c.rxbHead.toNat + size ≤ lo := by
    obtain ⟨q, hq⟩ := hhead.rounds
    rcases Nat.eq_zero_or_pos q with rfl | hq0
    · omega
    · have := Nat.le_mul_of_pos_left size hq0
      omega
  rw [← Bool.not_eq_true, inRange_iff, hsize]
  split_ifs <;> omega

end

theorem toNat_advanceHead {rxBufSize head : U32} {n : Nat} (hsize : rxBufSize.toNat < 2 ^ 31)
    (hhead : head.toNat ≤ rxBufSize.toNat) (hn : n ≤ rxBufSize.toNat) :
    (advanceHead rxBufSize head n).toNat =
      if rxBufSize.toNat < head.toNat + n then head.toNat + n - rxBufSize.toNat
      else head.toNat + n := by
  have hsum : (head + BitVec.ofNat 32 n).toNat = head.toNat + n := by
    rw [BitVec.toNat_add, BitVec.toNat_ofNat]
    omega
  have hwrap : head + BitVec.ofNat 32 n > rxBufSize ↔ rxBufSize.toNat < head.toNat + n := by
    rw [gt_iff_lt, BitVec.lt_def, hsum]
  unfold advanceHead
  simp only [hwrap]
  split_ifs with h
  · rw [BitVec.toNat_sub, hsum]
    omega
  · exact hsum

/-! ## The peek -/

structure PeekOk (data : List U8) (size lo hi n : Nat) (r : Peeked) : Prop where
  copied : r.copied = n
  bytes : r.bytes = (data.drop lo).take n
  tiles : Tiles data size (lo + n) (r.left.map Prod.snd) hi

theorem rxPeekCountZc_ok {c : EtranConn} (count : Nat)
    (hsize : c.rxBufSize.toNat = size) (hpos : 0 < size)
    (ht : Tiles data size lo (c.rxAddrs.map Prod.snd) hi)
    (hhead : ReadHead size lo c.rxbHead.toNat)
    (hused : lo + c.rxbUsed.toNat = hi) (hwin : hi ≤ lo + size) :
    ∃ n ≤ c.rxbUsed.toNat, PeekOk data size lo hi n (rxPeekCountZc c count) := by
  unfold rxPeekCountZc
  by_cases h0 : c.rxbUsed = 0#32
  · rw [if_pos h0]
    exact ⟨0, zero_le _, rfl, rfl, ht⟩
  rw [if_neg h0]
  generalize hn : min count c.rxbUsed.toNat = n
  have hle : n ≤ c.rxbUsed.toNat := by omega
  rcases Nat.eq_zero_or_pos n with rfl | hnpos
  · -- nothing is asked for
    have hnone : ∀ x ∈ c.rxAddrs, inRange c 0 x.2.md.rxPos = false := by
      intro x _
      have := hhead.le
      rw [← Bool.not_eq_true, inRange_iff, hsize]
      split_ifs <;> omega
    rw [peekLoop_none hnone]
    exact ⟨0, zero_le _, rfl, rfl, ht⟩
  have htake : (∀ o p, (o, p) ∈ starts lo (c.rxAddrs.map Prod.snd) → o < lo + n →
      inRange c n p.md.rxPos = true) →
      ∃ k ≤ c.rxbUsed.toNat, PeekOk data size lo hi k
        (peekLoop (inRange c n) c.rxBufSize n 0 c.rxAddrs) := by
    intro hhit
    obtain ⟨hc, hb, hl⟩ := peekLoop_take hsize ht hnpos (by omega) hhit
    exact ⟨n, hle, hc, hb, hl⟩
  by_cases hfull : size = posModulus
  · -- positions and buffer agree on the size
    subst hfull
    refine htake fun o p hmem ho => ?_
    rcases ht.pos_of_mem hmem with ⟨rfl, hp⟩ | ⟨hgt, hp⟩
    · exact inRange_of_full hsize hhead (by omega) (le_refl _) ho hp
    · exact inRange_of_full hsize hhead (by omega) (le_of_lt hgt) ho hp.headPos
  · have hfresh : ∀ o p, FreshPos size o p → p.md.rxPos.toNat = o := by
      rintro o p ⟨hp, hor⟩
      rw [hp, mod_eq_of_lt (hor.resolve_left hfull)]
    by_cases hround : lo = c.rxbHead.toNat ∨ size < c.rxbHead.toNat + n
    · refine htake fun o p hmem ho => ?_
      refine inRange_of_first hsize hpos hnpos hhead hround ho ?_
      exact (ht.pos_of_mem hmem).imp id fun h => ⟨h.1, hfresh o p h.2⟩
    · -- a later round: only a first frame that was cut can be in range
      rw [not_or] at hround
      cases hl : c.rxAddrs with
      | nil =>
        rw [hl] at ht
        obtain rfl : lo = hi := ht
        bv_omega
      | cons x l =>
        obtain ⟨addr, p⟩ := x
        rw [hl] at ht
        obtain ⟨hholds, hhd, htail⟩ : Tiles data size lo (p :: l.map Prod.snd) hi := ht
        have hnone : ∀ y ∈ l, inRange c n y.2.md.rxPos = false := by
          intro y hy
          obtain ⟨o, hmem⟩ := exists_start_of_mem (lo + p.md.plen.toNat)
            (mem_map_of_mem (f := Prod.snd) hy)
          obtain ⟨hlo, hfr⟩ := htail.pos_of_mem hmem
          have := hholds.nonempty
          exact not_inRange_of_later hsize hhead hround.1 hround.2 (by omega) (hfresh o _ hfr)
        obtain ⟨k, hk, hc, hb, hleft⟩ := peekLoop_head hsize ⟨hholds, hhd, htail⟩ hnone
        exact ⟨k, by omega, hc, hb, hleft⟩

end MtpXdp.Lib

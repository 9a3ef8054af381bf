import MtpXdp.Core.Ring
import MtpXdp.Lib.Transmit

/-!
# Balance of the Transmit Counters

`txb_sent` counts the bytes sent and not yet acknowledged, `txb_allocated` those reserved and not
yet sent. They are balanced when they fit the buffer, the head stands where they say, and every
length queued for retransmission is part of `txb_allocated`.
-/

namespace MtpXdp.Lib

open Ebpf MtpXdp.Core List BitVec Option Nat

variable {s s' : TxThread} {acked : Nat} {c : TxConn} {conn : U64}

/-! ## Subtractions -/

def availSubtractions (c : EtranConn) : List (U32 × U32) :=
  [(c.txBufSize, c.txbSent), (c.txBufSize - c.txbSent, c.txbAllocated)]

def syncSubtractions (c : EtranConn) (p : RxPkt) : List (U32 × U32) :=
  let (c', goBack) := syncGoBack c p.md.ackBytes
  availSubtractions c ++ (goBack.toList.map fun bytes => (c.txbSent, bytes)) ++
    if c.txbSent = c'.txbSent ∧ p.md.ackBytes ≠ poison32 ∧ p.md.ackBytes ≠ 0#32 then
      [(c'.txbSent, p.md.ackBytes)] else []

def sendSubtractions (c : TxConn) (count : Nat) : List (U32 × U32) :=
  availSubtractions c.toEtranConn ++
    ((txReserveZc c count).toList.map fun r => (r.1.txbAllocated, r.2))

def retransmitSubtractions (s : TxThread) : List (U64 × U32) → List (U32 × U32)
  | [] => []
  | entry :: entries =>
    let c := s.conns entry.1
    let (_, _, left) := retransmitLoop c 0 entry.2.toNat c.unackTxAddrs
    (if c.unackTxAddrs = [] then [] else [(c.txbAllocated, entry.2 - BitVec.ofNat 32 left)]) ++
      retransmitSubtractions (retransmitOne s entry) entries

/-! ## Balance -/

def pastSent (sent : Nat) : Nat → List (U64 × U32) → List (U64 × U32)
  | _, [] => []
  | skipLen, seg :: segs =>
    if skipLen + segLen seg < sent then pastSent sent (skipLen + segLen seg) segs else seg :: segs

/-- Each queued length ends where a segment ends, from its start on, or past the last segment. -/
def WholeResends (segs : List (U64 × U32)) : Nat → List (U64 × U32) → Prop
  | _, [] => True
  | sent, entry :: entries =>
    let rest := pastSent sent 0 segs
    let len := min entry.2.toNat (total segLen rest)
    Boundary segLen rest len ∧ WholeResends segs (sent + len) entries

/-- They fit the buffer, the head is where they say, and the queued lengths are part of
    `txb_allocated`. -/
structure Balanced (acked : Nat) (queue : List (U64 × U32)) (c : TxConn) : Prop where
  isOpen : c.isOpen = true
  size_le : c.txBufSize.toNat ≤ 2 ^ 31
  within : c.txbSent.toNat + c.txbAllocated.toNat ≤ c.txBufSize.toNat
  head : c.txbHead.toNat = (acked + c.txbSent.toNat) % c.txBufSize.toNat
  queued : total segLen queue ≤ c.txbAllocated.toNat
  segs_le : ∀ seg ∈ c.unackTxAddrs, segLen seg ≤ c.txBufSize.toNat

theorem toNat_txbHead_advance (c : TxConn) (plen : U32) (k : Nat)
    (hsize : c.txBufSize.toNat ≤ 2 ^ 31) (hhead : c.txbHead.toNat = k % c.txBufSize.toNat)
    (hplen : plen.toNat ≤ c.txBufSize.toNat) :
    (advanceTxbHead c plen).txbHead.toNat = (k + plen.toNat) % c.txBufSize.toNat := by
  rcases Nat.eq_zero_or_pos c.txBufSize.toNat with hzero | hpos
  · -- an empty buffer holds no segment
    have hp : plen = 0#32 := by bv_omega
    have hs : c.txBufSize = 0#32 := by bv_omega
    simp [advanceTxbHead, wrapPos, hp, hs] at hhead ⊢
    exact hhead
  · rw [← advancePos_eq_mod hpos hhead hplen]
    have hlt : c.txbHead.toNat < c.txBufSize.toNat := hhead ▸ mod_lt k hpos
    unfold advanceTxbHead wrapPos advancePos
    have hsum : (c.txbHead + plen).toNat = c.txbHead.toNat + plen.toNat :=
      toNat_add_of_lt (by omega)
    by_cases hwrap : c.txBufSize.toNat ≤ c.txbHead.toNat + plen.toNat
    · rw [if_pos hwrap, if_pos (by rw [ge_iff_le, le_def, hsum]; exact hwrap),
        toNat_sub_of_le (by rw [le_def, hsum]; exact hwrap), hsum]
    · rw [if_neg hwrap, if_neg (by rw [ge_iff_le, le_def, hsum]; exact hwrap), hsum]

/-! ## Sending -/

structure SameCounters (c c' : TxConn) : Prop where
  isOpen : c'.isOpen = c.isOpen
  txBufSize : c'.txBufSize = c.txBufSize
  txbSent : c'.txbSent = c.txbSent
  txbAllocated : c'.txbAllocated = c.txbAllocated

theorem SameCounters.refl (c : TxConn) : SameCounters c c := ⟨rfl, rfl, rfl, rfl⟩

theorem SameCounters.trans {c c' c'' : TxConn} (h : SameCounters c c') (h' : SameCounters c' c'') :
    SameCounters c c'' :=
  ⟨h'.1.trans h.1, h'.2.trans h.2, h'.3.trans h.3, h'.4.trans h.4⟩

theorem segmentLoop_spec (addrs : List U64) (pending : U32) (c : TxConn) (remaining : U32) (k : Nat)
    (hsize : c.txBufSize.toNat ≤ 2 ^ 31) (hhead : c.txbHead.toNat = k % c.txBufSize.toNat)
    (hle : remaining.toNat ≤ c.txBufSize.toNat)
    (hsegs : ∀ seg ∈ c.unackTxAddrs, segLen seg ≤ c.txBufSize.toNat) :
    SameCounters c (segmentLoop pending c remaining addrs).1 ∧
      (segmentLoop pending c remaining addrs).1.txbHead.toNat =
        (k + min remaining.toNat (tcpMssWTs * addrs.length)) % c.txBufSize.toNat ∧
      ∀ seg ∈ (segmentLoop pending c remaining addrs).1.unackTxAddrs,
        segLen seg ≤ c.txBufSize.toNat := by
  induction addrs generalizing pending c remaining k with
  | nil => exact ⟨.refl c, by simpa [segmentLoop] using hhead, hsegs⟩
  | cons addr addrs ih =>
    rw [segmentLoop]
    generalize hp : (if remaining.toNat < tcpMssWTs then remaining
      else BitVec.ofNat 32 tcpMssWTs) = plen
    have hplen : plen.toNat = min remaining.toNat tcpMssWTs := by
      rw [← hp]
      split
      · omega
      · rw [toNat_ofNat, tcpMssWTs] at *
        omega
    have hrest : (remaining - plen).toNat = remaining.toNat - plen.toNat :=
      toNat_sub_of_le (by rw [le_def]; omega)
    have hfits : plen.toNat ≤ c.txBufSize.toNat := by omega
    let c' : TxConn := { c with unackTxAddrs := c.unackTxAddrs ++ [(addr, plen)] }
    have hadv := toNat_txbHead_advance c' plen k hsize hhead hfits
    obtain ⟨hsame, hhead', hsegs'⟩ := ih 0#32 (advanceTxbHead c' plen) (remaining - plen)
      (k + plen.toNat) hsize hadv (show (remaining - plen).toNat ≤ c.txBufSize.toNat by omega) (by
        intro seg hseg
        rcases mem_append.mp hseg with hold | hnew
        · exact hsegs seg hold
        · rw [mem_singleton.mp hnew]
          exact hfits)
    refine ⟨⟨hsame.1, hsame.2, hsame.3, hsame.4⟩, hhead'.trans ?_, hsegs'⟩
    rw [hrest, hplen, length_cons, Nat.mul_succ]
    congr 1
    omega

theorem toNat_txbBytesAvail_le (c : EtranConn)
    (hwithin : c.txbSent.toNat + c.txbAllocated.toNat ≤ c.txBufSize.toNat) :
    (txbBytesAvail c).toNat ≤ c.txBufSize.toNat - c.txbSent.toNat - c.txbAllocated.toNat := by
  have hfree : (c.txBufSize - c.txbSent - c.txbAllocated).toNat =
      c.txBufSize.toNat - c.txbSent.toNat - c.txbAllocated.toNat := by bv_omega
  unfold txbBytesAvail
  dsimp only
  generalize (if c.xskBudget > c.txbSent then c.xskBudget - c.txbSent else 0#32) = xsk
  split
  · bv_omega
  · exact le_of_eq hfree

theorem txReserveZc_spec (c : TxConn) (count : Nat) (hopen : c.isOpen = true)
    (hwithin : c.txbSent.toNat + c.txbAllocated.toNat ≤ c.txBufSize.toNat) :
    ∃ len : U32, txReserveZc c count = some ({ c with txbAllocated := c.txbAllocated + len }, len) ∧
      len.toNat ≤ c.txBufSize.toNat - c.txbSent.toNat - c.txbAllocated.toNat := by
  have havail := toNat_txbBytesAvail_le c.toEtranConn hwithin
  unfold txReserveZc
  rw [if_pos hopen]
  refine ⟨_, rfl, ?_⟩
  split
  · exact havail
  · rename_i hlt
    rw [toNat_ofNat, mod_eq_of_lt (by omega)]
    omega

theorem Balanced.send {acked : Nat} {queue : List (U64 × U32)} {c : TxConn} {len : U32}
    (h : Balanced acked queue c) (buf : Nat → U64)
    (hlen : len.toNat ≤ c.txBufSize.toNat - c.txbSent.toNat - c.txbAllocated.toNat) :
    Balanced acked queue
      (txSubmitZc { c with txbAllocated := c.txbAllocated + len } len buf).1 := by
  have hwithin := h.within
  have halloc : (c.txbAllocated + len).toNat = c.txbAllocated.toNat + len.toNat :=
    toNat_add_of_lt (by have := c.txBufSize.isLt; omega)
  -- there are buffers for all the bytes
  have hbuffers : min len.toNat (tcpMssWTs *
      ((range (tcpGetNrBuffersFromLen len)).map buf).length) = len.toNat := by
    rw [length_map, length_range, tcpGetNrBuffersFromLen, tcpMssWTs]
    omega
  obtain ⟨hsame, hhead, hsegs⟩ := segmentLoop_spec
    ((range (tcpGetNrBuffersFromLen len)).map buf) len
    { c with txbAllocated := c.txbAllocated + len } len (acked + c.txbSent.toNat) h.size_le h.head
    (show len.toNat ≤ c.txBufSize.toNat by omega) h.segs_le
  rw [hbuffers] at hhead
  unfold txSubmitZc
  rw [if_pos h.isOpen, if_neg (by rw [BitVec.not_lt, le_def, halloc]; omega)]
  unfold tcpFlowTxSegmentationZc
  generalize segmentLoop len { c with txbAllocated := c.txbAllocated + len } len
    ((List.range (tcpGetNrBuffersFromLen len)).map buf) = r at *
  have hsent : (r.1.txbSent + len).toNat = c.txbSent.toNat + len.toNat := by
    rw [show r.1.txbSent = c.txbSent from hsame.txbSent]
    exact toNat_add_of_lt (by have := c.txBufSize.isLt; omega)
  have halloc' : (r.1.txbAllocated - len).toNat = c.txbAllocated.toNat := by
    rw [hsame.txbAllocated, toNat_sub_of_le (by rw [le_def, halloc]; omega), halloc]
    omega
  have hsize : r.1.txBufSize = c.txBufSize := hsame.txBufSize
  refine ⟨hsame.isOpen.trans h.isOpen, ?_, ?_, ?_, ?_, ?_⟩
  · rw [hsize]
    exact h.size_le
  · rw [hsent, halloc', hsize]
    omega
  · rw [hsent, hsize, ← add_assoc]
    exact hhead
  · rw [halloc']
    exact h.queued
  · rw [hsize]
    exact hsegs

/-! ## Notifications -/

section

variable {queue : List (U64 × U32)} {p : RxPkt}

theorem Balanced.acknowledge {t t' : ThreadCtx} {c' : EtranConn} (h : Balanced acked queue c)
    (hsync : AckSynced conn p.md.ackBytes t t' c.toEtranConn c')
    (hle : ackLen p ≤ c.txbSent.toNat) :
    Balanced (acked + ackLen p) queue { c with toEtranConn := c' } := by
  have hsent : c'.txbSent.toNat = c.txbSent.toNat - ackLen p := by
    rw [hsync.txbSent]
    exact toNat_sub_of_le (by rw [le_def]; exact hle)
  have hwithin := h.within
  refine ⟨h.isOpen, ?_, ?_, ?_, ?_, ?_⟩ <;> dsimp only
  · rw [hsync.txBufSize]
    exact h.size_le
  · rw [hsent, hsync.txbAllocated, hsync.txBufSize]
    omega
  · -- the head stays: what leaves `txb_sent` is acknowledged
    rw [hsent, hsync.txbHead, hsync.txBufSize, h.head]
    congr 1
    omega
  · rw [hsync.txbAllocated]
    exact h.queued
  · rw [hsync.txBufSize]
    exact h.segs_le

theorem syncGoBack_of_distance {e : EtranConn} {goBackPos n : U32}
    (hmask : goBackPos &&& recoveryMask ≠ 0#32) (hpoison : goBackPos ≠ poison32)
    (hsize : e.txBufSize.toNat ≤ 2 ^ 31)
    (hlt : (goBackPos &&& ~~~recoveryMask).toNat < e.txBufSize.toNat)
    (hhead : e.txbHead.toNat =
      ((goBackPos &&& ~~~recoveryMask).toNat + n.toNat) % e.txBufSize.toNat)
    (hsome : 0 < n.toNat) (hnotAll : n.toNat < e.txBufSize.toNat) :
    syncGoBack e goBackPos =
      ({ e with
          txbHead := goBackPos &&& ~~~recoveryMask
          txbAllocated := e.txbAllocated + n
          txbSent := e.txbSent - n }, some n) := by
  unfold syncGoBack
  rw [if_pos ⟨hpoison, hmask⟩]
  generalize goBackPos &&& ~~~recoveryMask = pos at hhead hlt ⊢
  -- the head is past the position, or has wrapped around
  by_cases hwrap : pos.toNat + n.toNat < e.txBufSize.toNat
  · rw [mod_eq_of_lt hwrap] at hhead
    have hback : e.txbHead - pos = n := by bv_omega
    rw [if_pos (by bv_omega), if_pos (by bv_omega), hback]
  · rw [mod_eq_sub_mod (by omega), mod_eq_of_lt (by omega)] at hhead
    have hback : e.txBufSize - (pos - e.txbHead) = n := by bv_omega
    rw [if_pos (by bv_omega), if_neg (by bv_omega), hback]

theorem Balanced.syncGoBack_eq (h : Balanced acked queue c)
    (hmask : p.md.ackBytes &&& recoveryMask ≠ 0#32)
    (hpos : (p.md.ackBytes &&& ~~~recoveryMask).toNat = acked % c.txBufSize.toNat)
    (hpoison : p.md.ackBytes ≠ poison32) (hsome : 0 < c.txbSent.toNat)
    (hnotAll : c.txbSent.toNat < c.txBufSize.toNat) :
    syncGoBack c.toEtranConn p.md.ackBytes =
      ({ c.toEtranConn with
          txbHead := p.md.ackBytes &&& ~~~recoveryMask
          txbAllocated := c.txbAllocated + c.txbSent
          txbSent := 0#32 }, some c.txbSent) := by
  have hhead := h.head
  rw [← mod_add_mod, ← hpos] at hhead
  have hposlt : (p.md.ackBytes &&& ~~~recoveryMask).toNat < c.txBufSize.toNat := by
    rw [hpos]
    exact mod_lt _ (by omega)
  have hback := syncGoBack_of_distance hmask hpoison h.size_le hposlt hhead hsome hnotAll
  rwa [BitVec.sub_self] at hback

theorem syncState_of_goBack (t : ThreadCtx) (conn : U64) {e e' : EtranConn} {bytes : U32}
    (hback : syncGoBack e p.md.ackBytes = (e', some bytes)) (hne : e.txbSent ≠ e'.txbSent) :
    (syncState t conn e p).1 =
        { t with retransmissionConns := t.retransmissionConns ++ [(conn, bytes)] } ∧
      ∃ budget, (syncState t conn e p).2.1 = { e' with xskBudget := budget } := by
  unfold syncState
  rw [hback]
  dsimp only
  by_cases hb : p.md.xskBudgetAvail ≠ poison32 ∧ e'.xskBudget ≠ p.md.xskBudgetAvail
  · rw [if_pos hb, if_pos hne]
    exact ⟨rfl, _, rfl⟩
  · rw [if_neg hb, if_pos hne]
    exact ⟨rfl, e'.xskBudget, rfl⟩

theorem syncState_of_poison (t : ThreadCtx) (conn : U64) (e : EtranConn)
    (hpoison : p.md.ackBytes = poison32) : (syncState t conn e p).1 = t ∧
      ∃ budget, (syncState t conn e p).2.1 = { e with xskBudget := budget } := by
  have hback : syncGoBack e p.md.ackBytes = (e, none) := by
    unfold syncGoBack
    rw [if_neg]
    exact fun h => h.1 hpoison
  have hnot : ¬ (p.md.ackBytes ≠ poison32 ∧ p.md.ackBytes ≠ 0#32) := fun h => h.1 hpoison
  unfold syncState
  rw [hback]
  dsimp only
  by_cases hb : p.md.xskBudgetAvail ≠ poison32 ∧ e.xskBudget ≠ p.md.xskBudgetAvail
  · rw [if_pos hb, if_neg (by simp), if_neg hnot]
    exact ⟨rfl, _, rfl⟩
  · rw [if_neg hb, if_neg (by simp), if_neg hnot]
    exact ⟨rfl, e.xskBudget, rfl⟩

theorem Balanced.recover (h : Balanced acked queue c) {pos : U32} (budget : U32)
    (hpos : pos.toNat = acked % c.txBufSize.toNat) :
    Balanced acked (queue ++ [(conn, c.txbSent)])
      { c with
        txbHead := pos
        txbAllocated := c.txbAllocated + c.txbSent
        txbSent := 0#32
        xskBudget := budget } := by
  have hwithin := h.within
  have halloc : (c.txbAllocated + c.txbSent).toNat = c.txbAllocated.toNat + c.txbSent.toNat :=
    toNat_add_of_lt (by have := c.txBufSize.isLt; omega)
  refine ⟨h.isOpen, h.size_le, ?_, ?_, ?_, h.segs_le⟩ <;> dsimp only
  · rw [halloc]
    simpa [add_comm] using hwithin
  · simpa using hpos
  · have hqueued := h.queued
    rw [halloc, total_append, total_cons, total_nil]
    exact Nat.add_le_add hqueued (Nat.le_refl _)

theorem Balanced.setBudget (h : Balanced acked queue c) (budget : U32) :
    Balanced acked queue { c with xskBudget := budget } :=
  { h with }

end

/-! ## Retransmission -/

/-- The retransmission counts `done` bytes as resent: the head moves by just as many. -/
structure Resent (k done : Nat) (c c' : TxConn) : Prop extends SameCounters c c' where
  unackTxAddrs : c'.unackTxAddrs = c.unackTxAddrs
  head : c'.txbHead.toNat = (k + done) % c.txBufSize.toNat

theorem Resent.refl {k : Nat} {c : TxConn}
    (hhead : c.txbHead.toNat = k % c.txBufSize.toNat) : Resent k 0 c c where
  toSameCounters := .refl c
  unackTxAddrs := rfl
  head := hhead

theorem retransmitLoop_of_notSkipped (segs : List (U64 × U32)) (c : TxConn) (skipLen len k : Nat)
    (hsize : c.txBufSize.toNat ≤ 2 ^ 31) (hhead : c.txbHead.toNat = k % c.txBufSize.toNat)
    (hsegs : ∀ seg ∈ segs, segLen seg ≤ c.txBufSize.toNat)
    (hskip : ∀ seg ∈ segs.head?, c.txbSent.toNat ≤ skipLen + segLen seg)
    (hb : Boundary segLen segs (min len (total segLen segs))) :
    Resent k (min len (total segLen segs)) c (retransmitLoop c skipLen len segs).1 ∧
      (retransmitLoop c skipLen len segs).2.2 = len - min len (total segLen segs) := by
  induction segs generalizing c skipLen len k with
  | nil => simpa [retransmitLoop] using Resent.refl hhead
  | cons seg segs ih =>
    rw [retransmitLoop]
    by_cases hzero : len = 0
    · subst hzero
      simpa using Resent.refl hhead
    rw [if_neg hzero, if_neg (not_lt.mpr (hskip seg (by simp)))]
    rw [total_cons] at hb ⊢
    -- a segment longer than `len` would end past the boundary
    have hfit : segLen seg ≤ len := by
      by_contra hlong
      have := boundary_eq_zero_of_lt hb (by omega)
      omega
    have hlen : (if segLen seg < len then len - segLen seg else 0) = len - segLen seg := by
      split <;> omega
    have hrest : min len (segLen seg + total segLen segs) - segLen seg =
        min (len - segLen seg) (total segLen segs) := by omega
    have hb' := boundary_tail hb (by omega)
    rw [hrest] at hb'
    have hadv := toNat_txbHead_advance c seg.2 k hsize hhead (hsegs seg mem_cons_self)
    obtain ⟨hres, hleft⟩ := ih (advanceTxbHead c seg.2) (skipLen + segLen seg) (len - segLen seg)
      (k + segLen seg) hsize hadv (fun x hx => hsegs x (mem_cons_of_mem _ hx))
      (fun x _ => le_add_right_of_le (hskip seg (by simp))) hb'
    rw [hlen]
    refine ⟨⟨{ hres with }, hres.unackTxAddrs,
      hres.head.trans ?_⟩, hleft.trans ?_⟩
    · show (k + segLen seg + min (len - segLen seg) (total segLen segs)) % c.txBufSize.toNat = _
      congr 1
      omega
    · omega

theorem retransmitLoop_spec (segs : List (U64 × U32)) (c : TxConn) (skipLen len k : Nat)
    (hsize : c.txBufSize.toNat ≤ 2 ^ 31) (hhead : c.txbHead.toNat = k % c.txBufSize.toNat)
    (hsegs : ∀ seg ∈ segs, segLen seg ≤ c.txBufSize.toNat)
    (hb : Boundary segLen (pastSent c.txbSent.toNat skipLen segs)
      (min len (total segLen (pastSent c.txbSent.toNat skipLen segs)))) :
    let done := min len (total segLen (pastSent c.txbSent.toNat skipLen segs))
    Resent k done c (retransmitLoop c skipLen len segs).1 ∧
      (retransmitLoop c skipLen len segs).2.2 = len - done := by
  induction segs generalizing skipLen with
  | nil => simpa [retransmitLoop, pastSent] using Resent.refl hhead
  | cons seg segs ih =>
    by_cases hskip : skipLen + segLen seg < c.txbSent.toNat
    · rw [pastSent, if_pos hskip] at hb ⊢
      by_cases hzero : len = 0
      · subst hzero
        simpa [retransmitLoop] using Resent.refl hhead
      · rw [retransmitLoop, if_neg hzero, if_pos hskip]
        exact ih _ (fun x hx => hsegs x (mem_cons_of_mem _ hx)) hb
    · rw [pastSent, if_neg hskip] at hb ⊢
      refine retransmitLoop_of_notSkipped _ c skipLen len k hsize hhead hsegs ?_ hb
      intro x hx
      obtain rfl : seg = x := by simpa using hx
      exact not_lt.mp hskip

def resentLen (c : TxConn) (entry : U64 × U32) : Nat :=
  min entry.2.toNat (total segLen (pastSent c.txbSent.toNat 0 c.unackTxAddrs))

section

variable {entry : U64 × U32} {entries : List (U64 × U32)}

theorem Balanced.tail (h : Balanced acked (entry :: entries) c) : Balanced acked entries c where
  isOpen := h.isOpen
  size_le := h.size_le
  within := h.within
  head := h.head
  queued := by
    have := h.queued
    rw [total_cons] at this
    omega
  segs_le := h.segs_le

/-- What one queued length does: the bytes it resends move from `txb_allocated` to `txb_sent`. -/
structure RetransmittedOne (acked : Nat) (entries : List (U64 × U32)) (done : Nat)
    (c c' : TxConn) : Prop where
  balanced : Balanced acked entries c'
  txbSent : c'.txbSent.toNat = c.txbSent.toNat + done
  unackTxAddrs : c'.unackTxAddrs = c.unackTxAddrs

theorem Balanced.retransmittedOne (h : Balanced acked (entry :: entries) c)
    (hb : Boundary segLen (pastSent c.txbSent.toNat 0 c.unackTxAddrs) (resentLen c entry)) :
    (entry.2 - BitVec.ofNat 32 (retransmitLoop c 0 entry.2.toNat c.unackTxAddrs).2.2).toNat =
        resentLen c entry ∧ RetransmittedOne acked entries (resentLen c entry) c
        (txSubmitZcRetransmission c entry.2).1 := by
  obtain ⟨hres, hleft⟩ := retransmitLoop_spec c.unackTxAddrs c 0 entry.2.toNat
    (acked + c.txbSent.toNat) h.size_le h.head h.segs_le hb
  change _ = entry.2.toNat - resentLen c entry at hleft
  have hdone : resentLen c entry ≤ entry.2.toNat := min_le_left _ _
  have hqueued := h.queued
  rw [total_cons, segLen] at hqueued
  have hwithin := h.within
  unfold txSubmitZcRetransmission
  rw [if_pos h.isOpen]
  generalize retransmitLoop c 0 entry.2.toNat c.unackTxAddrs = r at hres hleft ⊢
  have hcount : (entry.2 - BitVec.ofNat 32 r.2.2).toNat = resentLen c entry := by
    rw [hleft]
    bv_omega
  refine ⟨hcount, ?_⟩
  dsimp only
  generalize entry.2 - BitVec.ofNat 32 r.2.2 = done at hcount ⊢
  have hsent : (r.1.txbSent + done).toNat = c.txbSent.toNat + resentLen c entry := by
    rw [hres.txbSent, toNat_add_of_lt (by have := c.txBufSize.isLt; omega), hcount]
  have halloc : (r.1.txbAllocated - done).toNat = c.txbAllocated.toNat - resentLen c entry := by
    rw [hres.txbAllocated, toNat_sub_of_le (by rw [le_def]; omega), hcount]
  refine ⟨⟨hres.isOpen.trans h.isOpen, ?_, ?_, ?_, ?_, ?_⟩, hsent, hres.unackTxAddrs⟩ <;>
    dsimp only
  · rw [hres.txBufSize]
    exact h.size_le
  · rw [hsent, halloc, hres.txBufSize]
    omega
  · rw [hsent, hres.txBufSize, ← add_assoc]
    exact hres.head
  · rw [halloc]
    omega
  · rw [hres.unackTxAddrs, hres.txBufSize]
    exact h.segs_le

theorem retransmitOne_spec (h : Balanced acked (entry :: entries) (s.conns conn))
    (hown : entry.1 = conn)
    (hb : Boundary segLen (pastSent (s.conns conn).txbSent.toNat 0 (s.conns conn).unackTxAddrs)
      (resentLen (s.conns conn) entry)) :
    RetransmittedOne acked entries (resentLen (s.conns conn) entry) (s.conns conn)
        ((retransmitOne s entry).conns conn) ∧ (retransmitOne s entry).tctx = s.tctx := by
  subst hown
  unfold retransmitOne
  by_cases hempty : (s.conns entry.1).unackTxAddrs = []
  · rw [if_pos hempty]
    have hzero : resentLen (s.conns entry.1) entry = 0 := by simp [resentLen, hempty, pastSent]
    exact ⟨⟨h.tail, by simp [hzero], rfl⟩, rfl⟩
  · rw [if_neg hempty]
    refine ⟨?_, rfl⟩
    simpa using (h.retransmittedOne hb).2

theorem retransmit_spec (h : Balanced acked entries (s.conns conn))
    (hown : ∀ entry ∈ entries, entry.1 = conn)
    (hwhole : WholeResends (s.conns conn).unackTxAddrs (s.conns conn).txbSent.toNat entries) :
    Balanced acked [] ((entries.foldl retransmitOne s).conns conn) ∧
      (entries.foldl retransmitOne s).tctx = s.tctx ∧
      ∀ d ∈ retransmitSubtractions s entries, d.2 ≤ d.1 := by
  induction entries generalizing s with
  | nil => exact ⟨h, rfl, by simp [retransmitSubtractions]⟩
  | cons entry entries ih =>
    obtain ⟨hb, hrest⟩ := hwhole
    have hentry := hown entry mem_cons_self
    obtain ⟨hone, htctx⟩ := retransmitOne_spec h hentry hb
    obtain ⟨hbal, ht, hsub⟩ := ih hone.balanced
      (fun e he => hown e (mem_cons_of_mem _ he)) (by
        rw [hone.unackTxAddrs, hone.txbSent]
        exact hrest)
    refine ⟨hbal, ht.trans htctx, ?_⟩
    intro d hd
    rcases mem_append.mp hd with hd | hd
    · -- the bytes resent are at most those queued, which `txb_allocated` contains
      have hcount := (h.retransmittedOne hb).1
      have hqueued := h.queued
      have hle : resentLen (s.conns conn) entry ≤ entry.2.toNat := min_le_left _ _
      rw [hentry] at hd
      split at hd
      · cases hd
      · obtain rfl := mem_singleton.mp hd
        rw [total_cons, segLen] at hqueued
        rw [le_def, hcount]
        dsimp only
        omega
    · exact hsub d hd

end

/-! ## Freeing buffers -/

theorem freeLoop_subset {pending : U32} {segs rest : List (U64 × U32)} {bufs : List U64}
    (h : freeLoop pending segs = some (bufs, rest)) : rest ⊆ segs := by
  induction segs generalizing pending bufs with
  | nil =>
    rw [freeLoop] at h
    split at h
    · cases h
      exact List.Subset.refl _
    · cases h
  | cons seg segs ih =>
    rw [freeLoop] at h
    split at h
    · cases h
      exact List.Subset.refl _
    · obtain ⟨r, hr, hrest⟩ := map_eq_some_iff.mp h
      cases hrest
      exact subset_cons_of_subset _ (ih hr)

structure FreedOnly (conn : U64) (s s' : TxThread) : Prop extends
    SameCounters (s.conns conn) (s'.conns conn) where
  txbHead : (s'.conns conn).txbHead = (s.conns conn).txbHead
  unackTxAddrs : (s'.conns conn).unackTxAddrs ⊆ (s.conns conn).unackTxAddrs
  retransmissionConns : s'.tctx.retransmissionConns = s.tctx.retransmissionConns

theorem FreedOnly.refl (conn : U64) (s : TxThread) : FreedOnly conn s s :=
  ⟨.refl _, rfl, List.Subset.refl _, rfl⟩

theorem FreedOnly.trans {conn : U64} {s s' s'' : TxThread} (h : FreedOnly conn s s')
    (h' : FreedOnly conn s' s'') : FreedOnly conn s s'' :=
  ⟨h.toSameCounters.trans h'.toSameCounters, h'.txbHead.trans h.txbHead,
    List.Subset.trans h'.unackTxAddrs h.unackTxAddrs,
      h'.retransmissionConns.trans h.retransmissionConns⟩

theorem freedOnly_freeOne {conn other : U64} (h : freeOne s other = some s') :
    FreedOnly conn s s' := by
  obtain ⟨r, hr, rfl⟩ := map_eq_some_iff.mp h
  by_cases hother : conn = other
  · subst hother
    refine ⟨⟨?_, ?_, ?_, ?_⟩, ?_, ?_, rfl⟩ <;>
      simp only [TxThread.setConn_conns_self]
    exact freeLoop_subset hr
  · have hsame : ((TxThread.setConn { s with tctx := { s.tctx with
        iobuffer := s.tctx.iobuffer ++ r.1 } } other { s.conns other with
          pendingFreeBytes := 0#32, unackTxAddrs := r.2 }).conns conn) = s.conns conn :=
      Function.update_of_ne hother _ _
    refine ⟨⟨?_, ?_, ?_, ?_⟩, ?_, ?_, rfl⟩ <;> simp only [hsame]
    exact List.Subset.refl _

theorem freedOnly_tcpFreeBuffers (conn : U64)
    (h : tcpFreeBuffers s = some s') : FreedOnly conn s s' := by
  have hfold : ∀ (others : List U64) (s t : TxThread), others.foldlM freeOne s = some t →
      FreedOnly conn s t := by
    intro others
    induction others with
    | nil =>
      intro s t ht
      cases ht
      exact .refl conn s
    | cons other others ih =>
      intro s t ht
      obtain ⟨u, hu, ht⟩ := bind_eq_some_iff.mp ht
      exact (freedOnly_freeOne hu).trans (ih u t ht)
  obtain ⟨t, ht, rfl⟩ := map_eq_some_iff.mp h
  have hfreed := hfold _ s t ht
  exact ⟨hfreed.toSameCounters, hfreed.txbHead, hfreed.unackTxAddrs, hfreed.retransmissionConns⟩

theorem Balanced.freed {conn : U64} {acked : Nat} {queue : List (U64 × U32)}
    (h : Balanced acked queue (s.conns conn)) (hfreed : FreedOnly conn s s') :
    Balanced acked queue (s'.conns conn) where
  isOpen := hfreed.isOpen.trans h.isOpen
  size_le := by
    rw [hfreed.txBufSize]
    exact h.size_le
  within := by
    rw [hfreed.txBufSize, hfreed.txbSent, hfreed.txbAllocated]
    exact h.within
  head := by
    rw [hfreed.txBufSize, hfreed.txbSent, hfreed.txbHead]
    exact h.head
  queued := by
    rw [hfreed.txbAllocated]
    exact h.queued
  segs_le := by
    rw [hfreed.txBufSize]
    exact fun seg hseg => h.segs_le seg (hfreed.unackTxAddrs hseg)

end MtpXdp.Lib

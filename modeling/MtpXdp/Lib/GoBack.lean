import MtpXdp.Lib.TxBalance

/-!
# Retransmission after a Go-Back

A go-back names the buffer position of an unacknowledged segment. `sync_state` moves the head there;
`tcp_flow_tx_segmentation_zc_retransmission` skips the segments in front of the position and submits
the rest. The last of those in front is not skipped, and takes the position of the segment behind
it. And `sync_state` cannot tell a go-back over the whole buffer from none.
-/

namespace MtpXdp.Lib

open Ebpf MtpXdp.Core List BitVec

/-! ## The function and what it is for -/

/-- The connection, the descriptors it submits and the number of bytes it returns. -/
def tcpFlowTxSegmentationZcRetransmission (c : TxConn) (len : U32) : TxConn × List TxDesc × U32 :=
  let (c, descs, left) := retransmitLoop c 0 len.toNat c.unackTxAddrs
  let done := len - BitVec.ofNat 32 left
  (c, markPending done descs, done)

/-- `sync_state` queues no retransmission when the head is at the position already. -/
def resend (c : TxConn) (pos : U32) : List TxDesc × U32 :=
  match syncGoBack c.toEtranConn (pos ||| recoveryMask) with
  | (e, some bytes) => (tcpFlowTxSegmentationZcRetransmission { c with toEtranConn := e } bytes).2
  | (_, none) => ([], 0#32)

/-- The segments with their buffer, position and length, from byte `k` of the stream on. -/
def layout (size : Nat) : Nat → List (U64 × U32) → List (U64 × Nat × Nat)
  | _, [] => []
  | k, seg :: segs => (seg.1, k % size, segLen seg) :: layout size (k + segLen seg) segs

def TxDesc.view (desc : TxDesc) : U64 × Nat × Nat := (desc.addr, desc.pos.toNat, desc.plen.toNat)

/-- The segments `txb_sent` counts: with payload, in different buffers, from byte `k` up to the
    head. -/
structure Unacked (k : Nat) (c : TxConn) : Prop where
  size_lt : c.txBufSize.toNat < 2 ^ 31
  segLen_pos : ∀ seg ∈ c.unackTxAddrs, 0 < segLen seg
  nodup : (c.unackTxAddrs.map Prod.fst).Nodup
  fits : total segLen c.unackTxAddrs ≤ c.txBufSize.toNat
  sent : c.txbSent.toNat = total segLen c.unackTxAddrs
  head : c.txbHead.toNat = (k + total segLen c.unackTxAddrs) % c.txBufSize.toNat

def posAfter (c : TxConn) (k : Nat) (front : List (U64 × U32)) : U32 :=
  BitVec.ofNat 32 ((k + total segLen front) % c.txBufSize.toNat)

/-- It submits the segments `back`, once, in order and at their positions, and returns their length.
    -/
def ResendsExactly (c : TxConn) (k : Nat) (front back : List (U64 × U32)) : Prop :=
  (resend c (posAfter c k front)).1.map TxDesc.view =
      layout c.txBufSize.toNat (k + total segLen front) back ∧
    (resend c (posAfter c k front)).2.toNat = total segLen back
deriving Decidable

/-! ## The mark of a go-back -/

section

variable (pos : U32)

theorem marked_and_mask : (pos ||| recoveryMask) &&& recoveryMask ≠ 0#32 := by
  intro h
  have hbit := congrArg (fun v : U32 => v.getLsbD 31) h
  simp [recoveryMask] at hbit

theorem marked_and_not_mask (h : pos.toNat < 2 ^ 31) :
    (pos ||| recoveryMask) &&& ~~~recoveryMask = pos := by
  have htop : pos.getLsbD 31 = false := Nat.testBit_lt_two_pow h
  apply eq_of_getLsbD_eq
  intro i hi
  rw [getLsbD_and, getLsbD_or, getLsbD_not]
  by_cases hlast : i = 31
  · subst hlast
    rw [htop]
    rfl
  · have hmask : recoveryMask.getLsbD i = false := by
      interval_cases i <;> first | rfl | omega
    simp only [hmask, hi, Bool.or_false, Bool.not_false, decide_true, Bool.and_true]

theorem marked_ne_poison (h : pos.toNat < 2 ^ 31 - 1) : pos ||| recoveryMask ≠ poison32 := by
  intro heq
  have hback := marked_and_not_mask pos (by omega)
  rw [heq] at hback
  rw [← hback] at h
  exact absurd h (by decide)

end

/-! ## The loop -/

section

variable {c : TxConn}

theorem retransmitLoop_skip (front segs : List (U64 × U32)) (skipLen len : Nat)
    (hlen : len ≠ 0) (hskip : front = [] ∨ skipLen + total segLen front < c.txbSent.toNat) :
    retransmitLoop c skipLen len (front ++ segs) =
      retransmitLoop c (skipLen + total segLen front) len segs := by
  induction front generalizing skipLen with
  | nil => rfl
  | cons seg front ih =>
    have hlt := hskip.resolve_left (cons_ne_nil _ _)
    rw [total_cons] at hlt ⊢
    rw [List.cons_append, retransmitLoop, if_neg hlen, if_pos (by omega),
      ih (skipLen + segLen seg) (Or.inr (by omega)), Nat.add_assoc]

theorem retransmitLoop_first (seg : U64 × U32) (segs : List (U64 × U32)) (skipLen len : Nat)
    (hlen : len ≠ 0) (hskip : ¬ skipLen + segLen seg < c.txbSent.toNat) :
    ∃ descs, (retransmitLoop c skipLen len (seg :: segs)).2.1 =
      { addr := seg.1, pos := c.txbHead, plen := seg.2, pending := 0#32 } :: descs := by
  rw [retransmitLoop, if_neg hlen, if_neg hskip]
  exact ⟨_, rfl⟩

theorem retransmitLoop_all (segs : List (U64 × U32)) (c : TxConn) (skipLen k : Nat)
    (hsize : c.txBufSize.toNat ≤ 2 ^ 31) (hhead : c.txbHead.toNat = k % c.txBufSize.toNat)
    (hsegs : ∀ seg ∈ segs, 0 < segLen seg ∧ segLen seg ≤ c.txBufSize.toNat)
    (hsent : c.txbSent.toNat = 0) :
    (retransmitLoop c skipLen (total segLen segs) segs).2.1.map TxDesc.view =
        layout c.txBufSize.toNat k segs ∧
      (retransmitLoop c skipLen (total segLen segs) segs).2.2 = 0 := by
  induction segs generalizing c skipLen k with
  | nil => exact ⟨rfl, rfl⟩
  | cons seg segs ih =>
    obtain ⟨hpos, hle⟩ := hsegs seg mem_cons_self
    have hleft : (if segLen seg < segLen seg + total segLen segs
        then segLen seg + total segLen segs - segLen seg else 0) = total segLen segs := by
      split <;> omega
    obtain ⟨hdescs, hrest⟩ := ih (advanceTxbHead c seg.2) (skipLen + segLen seg) (k + segLen seg)
      hsize (toNat_txbHead_advance c seg.2 k hsize hhead hle)
      (fun x hx => hsegs x (mem_cons_of_mem _ hx)) hsent
    rw [total_cons, retransmitLoop, if_neg (by omega), if_neg (by omega), hleft]
    refine ⟨?_, hrest⟩
    rw [layout, map_cons, hdescs]
    simp only [TxDesc.view, hhead]
    rfl

end

/-! ## The go-back -/

section

variable {c : TxConn} {k : Nat} {front back : List (U64 × U32)}

@[simp] theorem map_view_markPending (n : U32) (descs : List TxDesc) :
    (markPending n descs).map TxDesc.view = descs.map TxDesc.view := by
  cases descs <;> rfl

theorem toNat_posAfter (front : List (U64 × U32)) (hpos : 0 < c.txBufSize.toNat) :
    (posAfter c k front).toNat = (k + total segLen front) % c.txBufSize.toNat := by
  have hlt := Nat.mod_lt (k + total segLen front) hpos
  rw [posAfter, toNat_ofNat, Nat.mod_eq_of_lt (by omega)]

/-- After less than one lap: the head is at the position, `txb_sent` counts what is in front of it.
    -/
structure WentBack (k : Nat) (front back : List (U64 × U32)) (c c' : TxConn) : Prop where
  unackTxAddrs : c'.unackTxAddrs = c.unackTxAddrs
  txBufSize : c'.txBufSize = c.txBufSize
  head : c'.txbHead.toNat = (k + total segLen front) % c.txBufSize.toNat
  sent : c'.txbSent.toNat = total segLen front
  resend_eq : resend c (posAfter c k front) =
    (tcpFlowTxSegmentationZcRetransmission c' (BitVec.ofNat 32 (total segLen back))).2

theorem Unacked.wentBack (h : Unacked k c) (hsplit : c.unackTxAddrs = front ++ back)
    (hsome : 0 < total segLen back) (hnotAll : total segLen back < c.txBufSize.toNat) :
    ∃ c', WentBack k front back c c' := by
  have hsize := h.size_lt
  have hfits := h.fits
  have hsent := h.sent
  have hhead := h.head
  rw [hsplit, total_append] at hfits hsent hhead
  have hpos := @toNat_posAfter c k front (by omega)
  have hposlt : (posAfter c k front).toNat < c.txBufSize.toNat := by
    rw [hpos]
    exact Nat.mod_lt _ (by omega)
  have hn : (BitVec.ofNat 32 (total segLen back)).toNat = total segLen back := by
    rw [toNat_ofNat, Nat.mod_eq_of_lt (by omega)]
  have hmark : (posAfter c k front ||| recoveryMask) &&& ~~~recoveryMask = posAfter c k front :=
    marked_and_not_mask _ (by omega)
  have hback := syncGoBack_of_distance (e := c.toEtranConn)
    (n := BitVec.ofNat 32 (total segLen back)) (marked_and_mask _)
    (marked_ne_poison (posAfter c k front) (by omega)) hsize.le (by rwa [hmark])
    (by rw [hmark, hn, hpos, Nat.mod_add_mod, hhead, Nat.add_assoc]) (by omega) (by omega)
  rw [hmark] at hback
  refine ⟨{ c with
      txbHead := posAfter c k front
      txbAllocated := c.txbAllocated + BitVec.ofNat 32 (total segLen back)
      txbSent := c.txbSent - BitVec.ofNat 32 (total segLen back) }, rfl, rfl, hpos, ?_, ?_⟩
  · change (c.txbSent - BitVec.ofNat 32 (total segLen back)).toNat = _
    rw [toNat_sub_of_le (by rw [le_def]; omega)]
    omega
  · rw [resend, hback]

theorem WentBack.resendsExactly {c' : TxConn} (h : Unacked k c) (hsplit : c.unackTxAddrs = back)
    (hb : WentBack k [] back c c') : ResendsExactly c k [] back := by
  have hsize := h.size_lt
  have hfits := h.fits
  rw [hsplit] at hfits
  have hn : (BitVec.ofNat 32 (total segLen back)).toNat = total segLen back := by
    rw [toNat_ofNat, Nat.mod_eq_of_lt (by omega)]
  have hsegs : ∀ seg ∈ back, 0 < segLen seg ∧ segLen seg ≤ c'.txBufSize.toNat := by
    intro seg hseg
    rw [hb.txBufSize]
    exact ⟨h.segLen_pos seg (hsplit ▸ hseg), (len_le_total hseg).trans hfits⟩
  obtain ⟨hdescs, hleft⟩ := retransmitLoop_all back c' 0 k (by rw [hb.txBufSize]; exact hsize.le)
    (by rw [hb.txBufSize]; exact hb.head) hsegs hb.sent
  rw [ResendsExactly, hb.resend_eq, tcpFlowTxSegmentationZcRetransmission, hb.unackTxAddrs, hsplit]
  simp only [hn, hleft, map_view_markPending]
  refine ⟨?_, by simp [hn]⟩
  rw [hdescs, hb.txBufSize]
  rfl

theorem WentBack.first_desc {c' : TxConn} {last : U64 × U32}
    (hsplit : c.unackTxAddrs = front ++ [last] ++ back) (hlast : 0 < segLen last)
    (hsome : 0 < total segLen back) (hlt : total segLen back < 2 ^ 32)
    (hb : WentBack k (front ++ [last]) back c c') :
    ∃ views, (resend c (posAfter c k (front ++ [last]))).1.map TxDesc.view =
      (last.1, c'.txbHead.toNat, segLen last) :: views := by
  have hsent := hb.sent
  rw [total_append, total_cons, total_nil] at hsent
  have hn : (BitVec.ofNat 32 (total segLen back)).toNat = total segLen back := by
    rw [toNat_ofNat, Nat.mod_eq_of_lt hlt]
  have hskip := retransmitLoop_skip (c := c') front (last :: back) 0 (total segLen back)
    (by omega) (Or.inr (by omega))
  obtain ⟨descs, hfirst⟩ := retransmitLoop_first (c := c') last back
    (0 + total segLen front) (total segLen back) (by omega) (by omega)
  rw [hb.resend_eq, tcpFlowTxSegmentationZcRetransmission, hb.unackTxAddrs, hsplit,
    List.append_assoc, singleton_append, hn, hskip]
  simp only [map_view_markPending, hfirst]
  exact ⟨_, rfl⟩

theorem Unacked.resend_of_full (h : Unacked k c)
    (hfull : total segLen c.unackTxAddrs = c.txBufSize.toNat)
    (hpos : 0 < c.txBufSize.toNat) : resend c (posAfter c k []) = ([], 0#32) := by
  have hsize := h.size_lt
  have hposAfter := @toNat_posAfter c k [] hpos
  have hlt := Nat.mod_lt (k + total segLen []) hpos
  have hmark : (posAfter c k [] ||| recoveryMask) &&& ~~~recoveryMask = posAfter c k [] :=
    marked_and_not_mask _ (by omega)
  have hsame : posAfter c k [] = c.txbHead := by
    apply eq_of_toNat_eq
    rw [hposAfter, h.head, hfull, total_nil, Nat.add_zero, Nat.add_mod_right]
  have hnone : syncGoBack c.toEtranConn (posAfter c k [] ||| recoveryMask) =
    (c.toEtranConn, none) := by
    unfold syncGoBack
    rw [if_pos ⟨marked_ne_poison _ (by omega), marked_and_mask _⟩, hmark]
    exact if_neg (not_not.mpr hsame)
  rw [resend, hnone]

/-- **A retransmission resends exactly the right segments iff none lies in front of them**, and they
    do not fill the buffer. -/
theorem resendsExactly_iff (h : Unacked k c) (hsplit : c.unackTxAddrs = front ++ back)
    (hback : back ≠ []) :
    ResendsExactly c k front back ↔ front = [] ∧ total segLen back < c.txBufSize.toNat := by
  have hsegs := h.segLen_pos
  have hfits := h.fits
  have hsize := h.size_lt
  rw [hsplit] at hsegs hfits
  rw [total_append] at hfits
  have hsome : 0 < total segLen back :=
    total_pos hback (fun seg hseg => hsegs seg (mem_append_right _ hseg))
  by_cases hfull : total segLen back < c.txBufSize.toNat
  · rw [and_iff_left hfull]
    obtain ⟨c', hb⟩ := h.wentBack hsplit hsome hfull
    constructor
    · intro hexact
      by_contra hne
      -- the buffer of the last segment in front is not that of the first segment behind
      obtain ⟨init, last, rfl⟩ := (eq_nil_or_concat front).resolve_left hne
      obtain ⟨seg, segs, rfl⟩ := exists_cons_of_ne_nil hback
      rw [concat_eq_append] at hb hsplit hexact hsegs
      obtain ⟨views, hfirst⟩ := hb.first_desc hsplit
        (hsegs last (by simp)) hsome (by omega)
      have hsame : last.1 = seg.1 := by
        have heq := hexact.1
        rw [hfirst, layout, cons.injEq] at heq
        exact (Prod.mk.injEq ..).mp heq.1 |>.1
      have hnodup := h.nodup
      rw [hsplit] at hnodup
      simp [hsame, nodup_append] at hnodup
    · rintro rfl
      exact hb.resendsExactly h hsplit
  · -- the segments behind fill the buffer, so there are none in front
    have hfront : front = [] := by
      by_contra hne
      have := total_pos hne (fun seg hseg => hsegs seg (mem_append_left _ hseg))
      omega
    subst hfront
    refine iff_of_false ?_ (fun hand => hfull hand.2)
    intro hexact
    have hnone := h.resend_of_full (by rw [hsplit, nil_append]; rw [total_nil] at hfits; omega)
      (by omega)
    have hret := hexact.2
    rw [hnone] at hret
    exact absurd hret.symm (by simpa using hsome.ne')

end

/-! ## Three segments -/

def threeSent : TxConn :=
  { (default : TxConn) with
    isOpen := true, txBufSize := 524288#32, txbHead := 4344#32, txbSent := 4344#32
    unackTxAddrs := [(0#64, 1448#32), (4096#64, 1448#32), (8192#64, 1448#32)] }

theorem threeSent_unacked : Unacked 0 threeSent where
  size_lt := by decide
  segLen_pos := by simp [threeSent, segLen]
  nodup := by decide
  fits := by decide
  sent := by decide
  head := by decide

theorem resendsExactly_threeSent : ResendsExactly threeSent 0 [] threeSent.unackTxAddrs :=
  (resendsExactly_iff threeSent_unacked rfl (by decide)).mpr (by decide)

/-- Going back to the second segment sends the first one again at its position, and then the second
    at that of the third. -/
theorem earlier_segment_resent :
    Unacked 0 threeSent ∧
      (resend threeSent (posAfter threeSent 0 [(0#64, 1448#32)])).1.map TxDesc.view =
        [(0#64, 1448, 1448), (4096#64, 2896, 1448)] ∧
      ¬ ResendsExactly threeSent 0 [(0#64, 1448#32)]
        [(4096#64, 1448#32), (8192#64, 1448#32)] :=
  ⟨threeSent_unacked, by decide, by decide⟩

end MtpXdp.Lib

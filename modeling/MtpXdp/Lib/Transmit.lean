import MtpXdp.Core.Pieces
import MtpXdp.Lib.Receive

/-!
# The Transmit Path of the User Library

`conn_send` reserves space in the transmit buffer, cuts the data into segments and hands them to
AF_XDP; `tcp_retransmission` hands segments over again, and `tcp_free_buffers` frees those
acknowledged. The ring of descriptors is the list of what was submitted. A buffer taken from the
thread's cache is an argument.

`sync_state` adds up the acknowledged bytes of a connection, `tcp_free_buffers` pops segments until
that number is used up. The number is unsigned and the loop only stops at zero, so it has to be the
length of whole segments.
-/

namespace MtpXdp.Lib

open Ebpf

def tcpMssWTs : Nat := 1448

structure TxDesc where
  addr : U64
  pos : U32
  plen : U32
  pending : U32

/-- `struct eTrantcp_connection` with the fields only the transmit path uses. -/
structure TxConn extends EtranConn where
  isOpen : Bool
  unackTxAddrs : List (U64 × U32)
deriving Inhabited

structure TxThread where
  tctx : ThreadCtx
  conns : U64 → TxConn
  submitted : List TxDesc
deriving Inhabited

def TxThread.setConn (s : TxThread) (conn : U64) (c : TxConn) : TxThread :=
  { s with conns := Function.update s.conns conn c }

@[simp] theorem TxThread.setConn_conns_self (s : TxThread) (conn : U64) (c : TxConn) :
    (s.setConn conn c).conns conn = c := Function.update_self ..

@[simp] theorem TxThread.setConn_tctx (s : TxThread) (conn : U64) (c : TxConn) :
    (s.setConn conn c).tctx = s.tctx := rfl

def segLen (seg : U64 × U32) : Nat := seg.2.toNat

def connectionPrepareBuffer (c : TxConn) : TxConn :=
  { c with
    rxbHead := 0#32, rxbUsed := 0#32, rxbBump := 0#32
    txbHead := 0#32, txbSent := 0#32, txbAllocated := 0#32
    xskBudget := 0xFFFF#32 <<< 3 }

/-! ## `conn_send` -/

/-- `eTran_tcp_tx_reserve_zc`: the connection and the length reserved, `none` for `-EINVAL`. -/
def txReserveZc (c : TxConn) (reserveLen : Nat) : Option (TxConn × U32) :=
  if c.isOpen then
    let avail := txbBytesAvail c.toEtranConn
    let len := if avail.toNat < reserveLen then avail else BitVec.ofNat 32 reserveLen
    some ({ c with txbAllocated := c.txbAllocated + len }, len)
  else none

def advanceTxbHead (c : TxConn) (plen : U32) : TxConn :=
  { c with txbHead := wrapPos c.txBufSize (c.txbHead + plen) }

/-- One round of the loop of `tcp_flow_tx_segmentation_zc` for each of the buffers `addrs`. -/
def segmentLoop (pending : U32) : TxConn → U32 → List U64 → TxConn × List TxDesc
  | c, _, [] => (c, [])
  | c, remaining, addr :: addrs =>
    let plen := if remaining.toNat < tcpMssWTs then remaining else BitVec.ofNat 32 tcpMssWTs
    let desc : TxDesc := { addr := addr, pos := c.txbHead, plen := plen, pending := pending }
    let c := { c with unackTxAddrs := c.unackTxAddrs ++ [(addr, plen)] }
    -- only the first packet says how many bytes the batch has
    let (c, descs) := segmentLoop 0#32 (advanceTxbHead c plen) (remaining - plen) addrs
    (c, desc :: descs)

def tcpGetNrBuffersFromLen (len : U32) : Nat := (len.toNat + (tcpMssWTs - 1)) / tcpMssWTs

def tcpFlowTxSegmentationZc (c : TxConn) (len : U32) (buf : Nat → U64) : TxConn × List TxDesc :=
  segmentLoop len c len ((List.range (tcpGetNrBuffersFromLen len)).map buf)

/-- `eTran_tcp_tx_submit_zc`; both refusals are `-EINVAL`. -/
def txSubmitZc (c : TxConn) (len : U32) (buf : Nat → U64) : TxConn × List TxDesc :=
  if c.isOpen then
    if c.txbAllocated < len then (c, [])
    else
      let (c, descs) := tcpFlowTxSegmentationZc c len buf
      ({ c with txbAllocated := c.txbAllocated - len, txbSent := c.txbSent + len }, descs)
  else (c, [])

def connSend (s : TxThread) (conn : U64) (count : Nat) (buf : Nat → U64) : TxThread :=
  match txReserveZc (s.conns conn) count with
  | none => s
  | some (c, len) =>
    if len = 0#32 then s.setConn conn c
    else
      let (c, descs) := txSubmitZc c len buf
      { s.setConn conn c with submitted := s.submitted ++ descs }

/-! ## Notifications -/

/-- `sync_state` for the connection `conn` of the thread; a send event is only returned. -/
def txNotify (s : TxThread) (conn : U64) (p : RxPkt) : TxThread :=
  let (t, c, _) := syncState s.tctx conn (s.conns conn).toEtranConn p
  { s with tctx := t }.setConn conn { s.conns conn with toEtranConn := c }

/-- A notification without the recovery mark: `ack_bytes` is a count of acknowledged bytes. -/
def IsAck (p : RxPkt) : Prop := p.md.ackBytes &&& recoveryMask = 0#32
deriving Decidable

structure AckSynced (conn : U64) (n : U32) (t t' : ThreadCtx) (c c' : EtranConn) : Prop where
  iobuffer : t'.iobuffer = t.iobuffer
  retransmissionConns : t'.retransmissionConns = t.retransmissionConns
  freePendingConns : t'.freePendingConns =
    if n ≠ 0#32 ∧ c.pendingFreeBytes = 0#32 then t.freePendingConns ++ [conn]
    else t.freePendingConns
  txbHead : c'.txbHead = c.txbHead
  txbSent : c'.txbSent = c.txbSent - n
  txbAllocated : c'.txbAllocated = c.txbAllocated
  txBufSize : c'.txBufSize = c.txBufSize
  pendingFreeBytes : c'.pendingFreeBytes = c.pendingFreeBytes + n

theorem syncGoBack_of_isAck {p : RxPkt} (h : IsAck p) (c : EtranConn) :
    syncGoBack c p.md.ackBytes = (c, none) := by
  unfold syncGoBack
  rw [if_neg]
  exact fun hback => hback.2 h

theorem ackSynced_syncState {p : RxPkt} (h : IsAck p) (t : ThreadCtx) (conn : U64) (c : EtranConn) :
    AckSynced conn p.md.ackBytes t (syncState t conn c p).1 c (syncState t conn c p).2.1 := by
  have hpoison : p.md.ackBytes ≠ poison32 := by
    intro hp
    rw [IsAck, hp] at h
    exact absurd h (by decide)
  -- the budget is stored first; it touches none of the counters
  unfold syncState
  rw [syncGoBack_of_isAck h]
  by_cases hn : p.md.ackBytes = 0#32 <;> by_cases hpend : c.pendingFreeBytes = 0#32 <;>
    by_cases hb : p.md.xskBudgetAvail ≠ poison32 ∧ c.xskBudget ≠ p.md.xskBudgetAvail <;>
    constructor <;> simp [hn, hpoison, hpend, hb]

/-! ## `tcp_retransmission` -/

/-- The loop of `tcp_flow_tx_segmentation_zc_retransmission`. `skipLen` only grows, so no segment is
    skipped after one was submitted. -/
def retransmitLoop : TxConn → Nat → Nat → List (U64 × U32) → TxConn × List TxDesc × Nat
  | c, _, len, [] => (c, [], len)
  | c, skipLen, len, seg :: segs =>
    if len = 0 then (c, [], 0)
    else
      let skipLen := skipLen + segLen seg
      if skipLen < c.txbSent.toNat then retransmitLoop c skipLen len segs
      else
        let desc : TxDesc := { addr := seg.1, pos := c.txbHead, plen := seg.2, pending := 0#32 }
        let len := if segLen seg < len then len - segLen seg else 0
        let (c, descs, len) := retransmitLoop (advanceTxbHead c seg.2) skipLen len segs
        (c, desc :: descs, len)

/-- `tcp_txmeta_pending` on the first packet of a retransmission. -/
def markPending (pending : U32) : List TxDesc → List TxDesc
  | [] => []
  | desc :: descs => { desc with pending := pending } :: descs

/-- `eTran_tcp_tx_submit_zc_retransmission` with `tcp_flow_tx_segmentation_zc_retransmission`. -/
def txSubmitZcRetransmission (c : TxConn) (len : U32) : TxConn × List TxDesc :=
  if c.isOpen then
    let (c, descs, left) := retransmitLoop c 0 len.toNat c.unackTxAddrs
    let done := len - BitVec.ofNat 32 left
    ({ c with txbAllocated := c.txbAllocated - done, txbSent := c.txbSent + done },
      markPending done descs)
  else (c, [])

def retransmitOne (s : TxThread) (entry : U64 × U32) : TxThread :=
  let c := s.conns entry.1
  if c.unackTxAddrs = [] then s
  else
    let (c, descs) := txSubmitZcRetransmission c entry.2
    { s.setConn entry.1 c with submitted := s.submitted ++ descs }

def tcpRetransmission (s : TxThread) : TxThread :=
  let s' := s.tctx.retransmissionConns.foldl retransmitOne s
  { s' with tctx := { s'.tctx with retransmissionConns := [] } }

/-! ## `tcp_free_buffers` -/

/-- The inner loop of `tcp_free_buffers`; `none` if it reads the front of an empty list. -/
def freeLoop : U32 → List (U64 × U32) → Option (List U64 × List (U64 × U32))
  | pending, [] => if pending = 0#32 then some ([], []) else none
  | pending, seg :: segs =>
    if pending = 0#32 then some ([], seg :: segs)
    else (freeLoop (pending - seg.2) segs).map fun r => (seg.1 :: r.1, r.2)

def freeOne (s : TxThread) (conn : U64) : Option TxThread :=
  let c := s.conns conn
  (freeLoop c.pendingFreeBytes c.unackTxAddrs).map fun r =>
    { s with tctx := { s.tctx with iobuffer := s.tctx.iobuffer ++ r.1 } }.setConn conn
      { c with pendingFreeBytes := 0#32, unackTxAddrs := r.2 }

def tcpFreeBuffers (s : TxThread) : Option TxThread :=
  (s.tctx.freePendingConns.foldlM freeOne s).map fun s =>
    { s with tctx := { s.tctx with freePendingConns := [] } }

open MtpXdp.Core List BitVec

variable {conn : U64} {s : TxThread} {acks : List RxPkt}

/-! ## The inner loop -/

theorem freeLoop_eq_none_of_lt (pending : U32) (segs : List (U64 × U32))
    (h : total segLen segs < pending.toNat) : freeLoop pending segs = none := by
  induction segs generalizing pending with
  | nil =>
    have hne : pending ≠ 0#32 := by
      rintro rfl
      simp at h
    simp [freeLoop, hne]
  | cons seg segs ih =>
    have hne : pending ≠ 0#32 := by
      rintro rfl
      simp at h
    rw [total_cons] at h
    have hrest : total segLen segs < (pending - seg.2).toNat := by
      simp only [segLen] at h
      rw [toNat_sub_of_le (by bv_omega)]
      omega
    simp [freeLoop, hne, ih _ hrest]

theorem freeLoop_eq (pending : U32) (segs : List (U64 × U32)) (hpos : ∀ seg ∈ segs, 0 < segLen seg)
    (htotal : total segLen segs < 2 ^ 32) : freeLoop pending segs =
      if Boundary segLen segs pending.toNat then
        some ((covered segLen segs pending.toNat).map Prod.fst,
          segs.drop (covered segLen segs pending.toNat).length) else none := by
  induction segs generalizing pending with
  | nil =>
    by_cases hp : pending = 0#32
    · simp [freeLoop, hp]
    · have hnat : pending.toNat ≠ 0 := by bv_omega
      simp [freeLoop, hp, hnat]
  | cons seg segs ih =>
    have hseg : 0 < segLen seg := hpos seg mem_cons_self
    rw [total_cons] at htotal
    by_cases hp : pending = 0#32
    · subst hp
      simp [freeLoop, covered_of_lt hseg]
    have hnat : pending.toNat ≠ 0 := by bv_omega
    by_cases hle : segLen seg ≤ pending.toNat
    · -- the segment fits: one round of the loop
      have hsub : (pending - seg.2).toNat = pending.toNat - segLen seg := by
        rw [segLen] at hle ⊢
        rw [toNat_sub_of_le (by bv_omega)]
      have ih' := ih (pending - seg.2) (fun s hs => hpos s (mem_cons_of_mem _ hs)) (by omega)
      rw [hsub] at ih'
      rw [freeLoop, if_neg hp, ih', covered_of_le hle]
      by_cases hb : Boundary segLen segs (pending.toNat - segLen seg)
      · rw [if_pos hb, if_pos (boundary_cons.mpr (.inr ⟨hle, hb⟩))]
        simp
      · rw [if_neg hb, if_neg]
        · rfl
        · exact fun h => hb (boundary_tail h hle)
    · -- the segment is longer than the rest of the count, which wraps below zero
      have hwrap : total segLen segs < (pending - seg.2).toNat := by
        simp only [segLen] at hle htotal ⊢
        bv_omega
      rw [freeLoop, if_neg hp, freeLoop_eq_none_of_lt _ _ hwrap, if_neg]
      · rfl
      · exact fun h => hnat (boundary_eq_zero_of_lt h (Nat.not_le.mp hle))

/-! ## A round of acknowledgements -/

def ackLen (p : RxPkt) : Nat := p.md.ackBytes.toNat

def ackRound (conn : U64) (s : TxThread) (acks : List RxPkt) : Option TxThread :=
  tcpFreeBuffers (acks.foldl (fun s p => txNotify s conn p) s)

/-- One poll after the other; `none` as soon as `tcp_free_buffers` pops an empty list. -/
def ackRounds (conn : U64) (s : TxThread) (rounds : List (List RxPkt)) : Option TxThread :=
  rounds.foldlM (ackRound conn) s

structure Settled (conn : U64) (s : TxThread) : Prop where
  pendingFreeBytes : (s.conns conn).pendingFreeBytes = 0#32
  freePendingConns : s.tctx.freePendingConns = []

structure Pending (conn : U64) (s₀ : TxThread) (acked : Nat) (s : TxThread) : Prop where
  pendingFreeBytes : (s.conns conn).pendingFreeBytes.toNat = acked
  freePendingConns : s.tctx.freePendingConns = if acked = 0 then [] else [conn]
  unackTxAddrs : (s.conns conn).unackTxAddrs = (s₀.conns conn).unackTxAddrs
  iobuffer : s.tctx.iobuffer = s₀.tctx.iobuffer

theorem Settled.pending {conn : U64} {s : TxThread} (h : Settled conn s) : Pending conn s 0 s where
  pendingFreeBytes := by rw [h.pendingFreeBytes]; rfl
  freePendingConns := by rw [h.freePendingConns]; rfl
  unackTxAddrs := rfl
  iobuffer := rfl

theorem Pending.notify {conn : U64} {s₀ s : TxThread} {acked : Nat} {p : RxPkt}
    (h : Pending conn s₀ acked s) (hack : IsAck p) (hlt : acked + ackLen p < 2 ^ 32) :
    Pending conn s₀ (acked + ackLen p) (txNotify s conn p) := by
  have hsync := ackSynced_syncState hack s.tctx conn (s.conns conn).toEtranConn
  have hpend := h.pendingFreeBytes
  refine ⟨?_, ?_, ?_, ?_⟩
  · simp only [txNotify, TxThread.setConn_conns_self, hsync.pendingFreeBytes]
    rw [toNat_add_of_lt] <;> rw [hpend]
    · rfl
    · exact hlt
  · simp only [txNotify, TxThread.setConn_tctx, hsync.freePendingConns, h.freePendingConns]
    -- the connection is queued when its count leaves zero, and only then
    have hzero : (s.conns conn).pendingFreeBytes = 0#32 ↔ acked = 0 := by bv_omega
    have hlen : p.md.ackBytes = 0#32 ↔ ackLen p = 0 := by
      rw [ackLen]
      bv_omega
    by_cases h0 : acked = 0 <;> by_cases h1 : ackLen p = 0 <;> simp [hzero, hlen, h0, h1]
  · simpa [txNotify] using h.unackTxAddrs
  · simpa [txNotify, hsync.iobuffer] using h.iobuffer

theorem Pending.notifyAll {conn : U64} {s₀ s : TxThread} {acked : Nat} (acks : List RxPkt)
    (h : Pending conn s₀ acked s) (hack : ∀ p ∈ acks, IsAck p)
    (hlt : acked + total ackLen acks < 2 ^ 32) : Pending conn s₀ (acked + total ackLen acks)
      (acks.foldl (fun s p => txNotify s conn p) s) := by
  induction acks generalizing s acked with
  | nil => simpa using h
  | cons p acks ih =>
    rw [total_cons, ← Nat.add_assoc] at hlt ⊢
    have hstep := h.notify (hack p mem_cons_self) (by omega)
    exact ih hstep (fun q hq => hack q (mem_cons_of_mem _ hq)) hlt

structure Released (conn : U64) (acked : Nat) (s₀ s : TxThread) : Prop where
  settled : Settled conn s
  unackTxAddrs : (s.conns conn).unackTxAddrs = (s₀.conns conn).unackTxAddrs.drop
    (covered segLen (s₀.conns conn).unackTxAddrs acked).length
  iobuffer : s.tctx.iobuffer = s₀.tctx.iobuffer ++
    (covered segLen (s₀.conns conn).unackTxAddrs acked).map Prod.fst

structure SentSegments (segs : List (U64 × U32)) : Prop where
  pos : ∀ seg ∈ segs, 0 < segLen seg
  total_lt : total segLen segs < 2 ^ 32

theorem SentSegments.drop {segs : List (U64 × U32)} (h : SentSegments segs) (n : Nat) :
    SentSegments (segs.drop n) where
  pos := fun seg hseg => h.pos seg (mem_of_mem_drop hseg)
  total_lt := by
    have hsplit := h.total_lt
    rw [← take_append_drop n segs, total_append] at hsplit
    omega

theorem covered_zero_of_pos {segs : List (U64 × U32)} (h : SentSegments segs) :
    covered segLen segs 0 = [] := by
  cases segs with
  | nil => rfl
  | cons seg segs => exact covered_of_lt (h.pos seg mem_cons_self)

section

section

variable (hs : Settled conn s) (hsegs : SentSegments (s.conns conn).unackTxAddrs)
  (hack : ∀ p ∈ acks, IsAck p)
include hs hsegs hack

theorem ackRound_of_boundary (hlt : total ackLen acks < 2 ^ 32)
    (hb : Boundary segLen (s.conns conn).unackTxAddrs (total ackLen acks)) :
    ∃ s', ackRound conn s acks = some s' ∧ Released conn (total ackLen acks) s s' := by
  have hpend := hs.pending.notifyAll acks hack (by omega)
  rw [Nat.zero_add] at hpend
  unfold ackRound tcpFreeBuffers
  rw [hpend.freePendingConns]
  by_cases h0 : total ackLen acks = 0
  · rw [if_pos h0]
    refine ⟨_, rfl, ⟨⟨?_, rfl⟩, ?_, ?_⟩⟩
    · have := hpend.pendingFreeBytes
      rw [h0] at this
      simpa using eq_of_toNat_eq this
    · rw [h0, covered_zero_of_pos hsegs]
      exact hpend.unackTxAddrs
    · rw [h0, covered_zero_of_pos hsegs]
      simpa using hpend.iobuffer
  · have hloop := freeLoop_eq ((acks.foldl (fun s p => txNotify s conn p) s).conns
      conn).pendingFreeBytes _ hsegs.pos hsegs.total_lt
    rw [hpend.pendingFreeBytes, if_pos hb] at hloop
    simp only [h0, if_false, foldlM_cons, foldlM_nil, freeOne, hpend.unackTxAddrs, hloop]
    refine ⟨_, rfl, ⟨⟨?_, rfl⟩, ?_, ?_⟩⟩
    · simp
    · simp
    · simp [hpend.iobuffer]

theorem ackRound_of_not_boundary (hlt : total ackLen acks < 2 ^ 32)
    (hb : ¬ Boundary segLen (s.conns conn).unackTxAddrs (total ackLen acks)) :
    ackRound conn s acks = none := by
  have hpend := hs.pending.notifyAll acks hack (by omega)
  rw [Nat.zero_add] at hpend
  have h0 : total ackLen acks ≠ 0 := by
    intro h0
    rw [h0] at hb
    exact hb boundary_zero
  have hloop := freeLoop_eq ((acks.foldl (fun s p => txNotify s conn p) s).conns
    conn).pendingFreeBytes _ hsegs.pos hsegs.total_lt
  rw [hpend.pendingFreeBytes, if_neg hb] at hloop
  unfold ackRound tcpFreeBuffers
  simp [hpend.freePendingConns, h0, freeOne, hpend.unackTxAddrs, hloop]

end

end

/-! ## Any number of calls -/

/-- No empty list is popped, and the pool gets the buffers of the acknowledged segments. -/
def ReleasesExactly (conn : U64) (s : TxThread) (rounds : List (List RxPkt)) : Prop :=
  ∀ k ≤ rounds.length, ∃ s', ackRounds conn s (rounds.take k) = some s' ∧
    s'.tctx.iobuffer = s.tctx.iobuffer ++
      (covered segLen (s.conns conn).unackTxAddrs
        (total ackLen (rounds.take k).flatten)).map Prod.fst

/-- Whenever `tcp_free_buffers` is called, the acknowledged bytes end where a segment ends. -/
def AckedWholeSegments (conn : U64) (s : TxThread) (rounds : List (List RxPkt)) : Prop :=
  ∀ k ≤ rounds.length,
    Boundary segLen (s.conns conn).unackTxAddrs (total ackLen (rounds.take k).flatten)

section

variable {s' : TxThread} {rounds : List (List RxPkt)}

theorem ackedWholeSegments_cons (hs' : Released conn (total ackLen acks) s s')
    (hb : Boundary segLen (s.conns conn).unackTxAddrs (total ackLen acks)) :
    AckedWholeSegments conn s (acks :: rounds) ↔ AckedWholeSegments conn s' rounds := by
  have hlater : ∀ k, Boundary segLen (s.conns conn).unackTxAddrs
      (total ackLen ((acks :: rounds).take (k + 1)).flatten) ↔
      Boundary segLen (s'.conns conn).unackTxAddrs (total ackLen (rounds.take k).flatten) := by
    intro k
    rw [take_succ_cons, flatten_cons, total_append, boundary_add hb, hs'.unackTxAddrs]
  constructor
  · intro h k hk
    exact (hlater k).mp (h (k + 1) (Nat.succ_le_succ hk))
  · intro h k hk
    cases k with
    | zero => simp
    | succ k => exact (hlater k).mpr (h k (Nat.le_of_succ_le_succ hk))

theorem releasesExactly_cons (hround : ackRound conn s acks = some s')
    (hs' : Released conn (total ackLen acks) s s')
    (hb : Boundary segLen (s.conns conn).unackTxAddrs (total ackLen acks))
    (hsegs : SentSegments (s.conns conn).unackTxAddrs) :
    ReleasesExactly conn s (acks :: rounds) ↔ ReleasesExactly conn s' rounds := by
  have hrun : ∀ k, ackRounds conn s ((acks :: rounds).take (k + 1)) =
      ackRounds conn s' (rounds.take k) := by
    simp [ackRounds, hround]
  have hpool : ∀ k, s.tctx.iobuffer ++ (covered segLen (s.conns conn).unackTxAddrs
      (total ackLen ((acks :: rounds).take (k + 1)).flatten)).map Prod.fst =
      s'.tctx.iobuffer ++ (covered segLen (s'.conns conn).unackTxAddrs
        (total ackLen (rounds.take k).flatten)).map Prod.fst := by
    intro k
    rw [take_succ_cons, flatten_cons, total_append, covered_add hb, hs'.unackTxAddrs,
      hs'.iobuffer, map_append, List.append_assoc]
  constructor
  · intro h k hk
    obtain ⟨t, ht, hio⟩ := h (k + 1) (Nat.succ_le_succ hk)
    exact ⟨t, (hrun k).symm.trans ht, hio.trans (hpool k)⟩
  · intro h k hk
    cases k with
    | zero => exact ⟨s, rfl, by simp [covered_zero_of_pos hsegs]⟩
    | succ k =>
      obtain ⟨t, ht, hio⟩ := h k (Nat.le_of_succ_le_succ hk)
      exact ⟨t, (hrun k).trans ht, hio.trans (hpool k).symm⟩

/-- Exactly the buffers of acknowledged segments come back iff no call finds a segment acknowledged
    in part. -/
theorem releasesExactly_iff (hs : Settled conn s) (hsegs : SentSegments (s.conns conn).unackTxAddrs)
    (hack : ∀ p ∈ rounds.flatten, IsAck p)
    (hle : total ackLen rounds.flatten ≤ total segLen (s.conns conn).unackTxAddrs) :
    ReleasesExactly conn s rounds ↔ AckedWholeSegments conn s rounds := by
  induction rounds generalizing s with
  | nil =>
    constructor
    · intro _ k _
      simp
    · intro _ k _
      exact ⟨s, by simp [ackRounds], by simp [covered_zero_of_pos hsegs]⟩
  | cons acks rounds ih =>
    rw [flatten_cons] at hack hle
    rw [total_append] at hle
    have hacks : ∀ p ∈ acks, IsAck p := fun p hp => hack p (mem_append_left _ hp)
    have hlt : total ackLen acks < 2 ^ 32 := by
      have := hsegs.total_lt
      omega
    by_cases hb : Boundary segLen (s.conns conn).unackTxAddrs (total ackLen acks)
    · obtain ⟨s', hround, hs'⟩ := ackRound_of_boundary hs hsegs hacks hlt hb
      rw [releasesExactly_cons hround hs' hb hsegs, ackedWholeSegments_cons hs' hb]
      refine ih hs'.settled ?_ (fun p hp => hack p (mem_append_right _ hp)) ?_
      · rw [hs'.unackTxAddrs]
        exact hsegs.drop _
      · rw [hs'.unackTxAddrs]
        have hcov := total_covered hb
        have hsplit := congrArg (total segLen) (take_append_drop
          (covered segLen (s.conns conn).unackTxAddrs (total ackLen acks)).length
          (s.conns conn).unackTxAddrs)
        rw [total_append] at hsplit
        omega
    · -- both sides fail at the first call
      have hround := ackRound_of_not_boundary hs hsegs hacks hlt hb
      constructor
      · intro h
        obtain ⟨t, ht, -⟩ := h 1 (by simp)
        simp [ackRounds, hround] at ht
      · intro h
        have := h 1 (by simp)
        simp only [take_succ_cons, take_zero, flatten_cons, flatten_nil,
          append_nil] at this
        exact absurd this hb

end

/-! ## Two segments -/

def twoSegments : TxThread :=
  connSend { (default : TxThread) with
    conns := fun _ => connectionPrepareBuffer
      { (default : TxConn) with isOpen := true, txBufSize := 524288#32 } }
    1#64 2896 (fun i => BitVec.ofNat 64 (4096 * i + 256))

def ackOfBytes (n : U32) : RxPkt :=
  { (default : RxPkt) with md := { (default : RxMeta) with ackBytes := n } }

theorem settled_twoSegments : Settled 1#64 twoSegments := ⟨by decide, by decide⟩

theorem sentSegments_twoSegments : SentSegments (twoSegments.conns 1#64).unackTxAddrs := by
  have hsegs : (twoSegments.conns 1#64).unackTxAddrs =
      [(256#64, 1448#32), (4352#64, 1448#32)] := by decide
  refine ⟨?_, by decide⟩
  rw [hsegs, forall_mem_cons, forall_mem_singleton]
  exact ⟨by decide, by decide⟩

theorem releasesExactly_at :
    ReleasesExactly 1#64 twoSegments [[ackOfBytes 1448#32], [ackOfBytes 1448#32]] := by
  apply (releasesExactly_iff settled_twoSegments sentSegments_twoSegments (by decide)
    (by decide)).mpr
  intro k hk
  have hcases : k = 0 ∨ k = 1 ∨ k = 2 := by
    simp at hk
    omega
  rcases hcases with rfl | rfl | rfl <;> decide

/-- Of two segments 1000 bytes are acknowledged: both are popped, and then the empty list. -/
theorem release_runs_off :
    Settled 1#64 twoSegments ∧ SentSegments (twoSegments.conns 1#64).unackTxAddrs ∧
      IsAck (ackOfBytes 1000#32) ∧
      1000 ≤ total segLen (twoSegments.conns 1#64).unackTxAddrs ∧
      ackRound 1#64 twoSegments [ackOfBytes 1000#32] = none ∧
      ¬ ReleasesExactly 1#64 twoSegments [[ackOfBytes 1000#32]] := by
  have hnone : ackRound 1#64 twoSegments [ackOfBytes 1000#32] = none :=
    ackRound_of_not_boundary settled_twoSegments sentSegments_twoSegments (by decide) (by decide)
      (by decide)
  refine ⟨settled_twoSegments, sentSegments_twoSegments, by decide, by decide, hnone, ?_⟩
  intro h
  obtain ⟨s', hs', -⟩ := h 1 (by decide)
  have : ackRound 1#64 twoSegments [ackOfBytes 1000#32] = some s' := by
    simpa [ackRounds] using hs'
  rw [hnone] at this
  cases this

end MtpXdp.Lib

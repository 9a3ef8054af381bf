import MtpXdp.Core.Run
import MtpXdp.Lib.TxBalance

/-!
# Accounting of the Transmit Buffer

One connection in a run of sends, notifications, retransmissions and frees, next to a count of the
acknowledged bytes. The value of a recovery notification carries `RECOVERY_MASK` and shares a field
with the count of an acknowledgement.
-/

namespace MtpXdp.Lib

open Ebpf MtpXdp.Core List TxThread

/-! ## Runs of one connection -/

structure TxRun where
  thread : TxThread
  acked : Nat

inductive TxEvent where
  | send (count : Nat) (buf : Nat → U64)
  | ack (p : RxPkt)
  | recovery (p : RxPkt)
  | retransmit
  | freeBuffers

def TxRun.conn (s : TxRun) (conn : U64) : TxConn := s.thread.conns conn

/-- One event. A call of `tcp_free_buffers` that is undefined is left out; see `TxOk`. -/
def txStep (conn : U64) (s : TxRun) : TxEvent → TxRun
  | .send count buf => { s with thread := connSend s.thread conn count buf }
  | .ack p => { thread := txNotify s.thread conn p, acked := s.acked + ackLen p }
  | .recovery p => { s with thread := txNotify s.thread conn p }
  | .retransmit => { s with thread := tcpRetransmission s.thread }
  | .freeBuffers => { s with thread := (tcpFreeBuffers s.thread).getD s.thread }

def TxRun.firstUnacked (s : TxRun) (conn : U64) : Nat := s.acked % (s.conn conn).txBufSize.toNat

/-- Acknowledgements of bytes that were sent, and recoveries that name the first unacknowledged
    byte. -/
def TxDom (conn : U64) (s : TxRun) : TxEvent → Prop
  | .ack p => IsAck p ∧ ackLen p ≤ (s.conn conn).txbSent.toNat
  | .recovery p => p.md.ackBytes &&& recoveryMask ≠ 0#32 ∧
      (p.md.ackBytes &&& ~~~recoveryMask).toNat = s.firstUnacked conn
  | _ => True

/-! ## What is asked of a step -/

def txSubtractions (conn : U64) (s : TxRun) : TxEvent → List (U32 × U32)
  | .send count _ => sendSubtractions (s.conn conn) count
  | .ack p | .recovery p => syncSubtractions (s.conn conn).toEtranConn p
  | .retransmit => retransmitSubtractions s.thread s.thread.tctx.retransmissionConns
  | .freeBuffers => []

/-- No subtraction underflows, and the value of a recovery notification is not counted as
    acknowledged bytes. -/
def TxSafe (conn : U64) (s : TxRun) (e : TxEvent) : Prop :=
  (∀ d ∈ txSubtractions conn s e, d.2 ≤ d.1) ∧
    match e with
    | .recovery _ => ((txStep conn s e).conn conn).pendingFreeBytes = (s.conn conn).pendingFreeBytes
    | _ => True

def TxWithin (conn : U64) (s : TxRun) : Prop :=
  (s.conn conn).txbSent.toNat + (s.conn conn).txbAllocated.toNat ≤ (s.conn conn).txBufSize.toNat

/-! ## The condition on a step -/

/-- A recovery finds some bytes outstanding but not a whole buffer; retransmissions and
    `tcp_free_buffers` deal with whole segments. -/
def TxOk (conn : U64) (s : TxRun) : TxEvent → Prop
  | .recovery _ => 0 < (s.conn conn).txbSent.toNat ∧
      (s.conn conn).txbSent.toNat < (s.conn conn).txBufSize.toNat
  | .retransmit => WholeResends (s.conn conn).unackTxAddrs (s.conn conn).txbSent.toNat
      s.thread.tctx.retransmissionConns
  | .freeBuffers => Boundary segLen (s.conn conn).unackTxAddrs
      (s.conn conn).pendingFreeBytes.toNat
  | _ => True

/-! ## The invariant -/

structure TxInv (conn : U64) (s : TxRun) : Prop where
  balanced : Balanced s.acked s.thread.tctx.retransmissionConns (s.conn conn)
  own : ∀ entry ∈ s.thread.tctx.retransmissionConns, entry.1 = conn

/-! ## Steps and runs -/

section

variable {conn : U64} {s : TxRun} {e : TxEvent}

theorem txInv_send (h : TxInv conn s) (count : Nat) (buf : Nat → U64) :
    TxInv conn (txStep conn s (.send count buf)) := by
  obtain ⟨len, hreserve, hlen⟩ := txReserveZc_spec (s.conn conn) count h.balanced.isOpen
    h.balanced.within
  have hstep : (txStep conn s (.send count buf)).thread = connSend s.thread conn count buf := rfl
  unfold connSend at hstep
  rw [show txReserveZc (s.thread.conns conn) count = _ from hreserve] at hstep
  dsimp only at hstep
  by_cases hzero : len = 0#32
  · -- nothing could be reserved
    rw [if_pos hzero, hzero, BitVec.add_zero] at hstep
    refine ⟨?_, ?_⟩ <;> simp only [TxRun.conn, hstep, TxThread.setConn_conns_self, setConn_tctx]
    · exact h.balanced
    · exact h.own
  · rw [if_neg hzero] at hstep
    refine ⟨?_, ?_⟩ <;> simp only [TxRun.conn, hstep, TxThread.setConn_conns_self, setConn_tctx]
    · exact h.balanced.send buf hlen
    · exact h.own

theorem txInv_ack {p : RxPkt} (h : TxInv conn s) (hack : IsAck p)
    (hle : ackLen p ≤ (s.conn conn).txbSent.toNat) : TxInv conn (txStep conn s (.ack p)) := by
  have hsync := ackSynced_syncState hack s.thread.tctx conn (s.conn conn).toEtranConn
  refine ⟨?_, ?_⟩ <;> simp only [TxRun.conn, txStep, txNotify, TxThread.setConn_conns_self,
    setConn_tctx]
  · rw [show (syncState s.thread.tctx conn (s.thread.conns conn).toEtranConn
      p).1.retransmissionConns = _ from hsync.retransmissionConns]
    exact h.balanced.acknowledge hsync hle
  · rw [show (syncState s.thread.tctx conn (s.thread.conns conn).toEtranConn
      p).1.retransmissionConns = _ from hsync.retransmissionConns]
    exact h.own

theorem txInv_recovery {p : RxPkt} (h : TxInv conn s) (hdom : TxDom conn s (.recovery p))
    (hok : TxOk conn s (.recovery p)) :
    TxInv conn (txStep conn s (.recovery p)) ∧
      ((txStep conn s (.recovery p)).conn conn).pendingFreeBytes =
        (s.conn conn).pendingFreeBytes := by
  simp only [TxRun.conn, txStep, txNotify, TxThread.setConn_conns_self]
  by_cases hpoison : p.md.ackBytes = poison32
  · obtain ⟨ht, budget, hc⟩ := syncState_of_poison s.thread.tctx conn
      (s.thread.conns conn).toEtranConn hpoison
    refine ⟨⟨?_, ?_⟩, by rw [hc]⟩ <;>
      simp only [TxRun.conn, TxThread.setConn_conns_self, setConn_tctx, ht, hc]
    · exact h.balanced.setBudget budget
    · exact h.own
  · have hback := h.balanced.syncGoBack_eq hdom.1 hdom.2 hpoison hok.1 hok.2
    have hne : (s.conn conn).toEtranConn.txbSent ≠ 0#32 := by
      have := hok.1
      bv_omega
    obtain ⟨ht, budget, hc⟩ := syncState_of_goBack s.thread.tctx conn hback hne
    refine ⟨⟨?_, ?_⟩, by rw [show (syncState s.thread.tctx conn
      (s.thread.conns conn).toEtranConn p).2.1 = _ from hc]; rfl⟩ <;>
      simp only [TxRun.conn, TxThread.setConn_conns_self, setConn_tctx]
    · rw [show (syncState s.thread.tctx conn (s.thread.conns conn).toEtranConn p).1 = _ from ht,
        show (syncState s.thread.tctx conn (s.thread.conns conn).toEtranConn p).2.1 = _ from hc]
      exact h.balanced.recover budget hdom.2
    · rw [show (syncState s.thread.tctx conn (s.thread.conns conn).toEtranConn p).1 = _ from ht]
      intro entry hentry
      rcases mem_append.mp hentry with hold | hnew
      · exact h.own entry hold
      · rw [mem_singleton.mp hnew]

theorem txInv_step (h : TxInv conn s) (hdom : TxDom conn s e) (hok : TxOk conn s e) :
    TxInv conn (txStep conn s e) := by
  cases e with
  | send count buf => exact txInv_send h count buf
  | ack p => exact txInv_ack h hdom.1 hdom.2
  | recovery p => exact (txInv_recovery h hdom hok).1
  | retransmit =>
    obtain ⟨hbal, ht, -⟩ := retransmit_spec h.balanced h.own hok
    refine ⟨hbal, ?_⟩
    intro entry hentry
    simp [txStep, tcpRetransmission] at hentry
  | freeBuffers =>
    cases hfree : tcpFreeBuffers s.thread with
    | none =>
      have hsame : txStep conn s .freeBuffers = s := by simp [txStep, hfree]
      rw [hsame]
      exact h
    | some t =>
      have hfreed := freedOnly_tcpFreeBuffers conn hfree
      have hstep : (txStep conn s .freeBuffers).thread = t := by simp [txStep, hfree]
      refine ⟨?_, ?_⟩
      · rw [hstep, hfreed.retransmissionConns, TxRun.conn, hstep]
        exact h.balanced.freed hfreed
      · rw [hstep, hfreed.retransmissionConns]
        exact h.own

theorem availSubtractions_le {c : EtranConn}
    (hwithin : c.txbSent.toNat + c.txbAllocated.toNat ≤ c.txBufSize.toNat) :
    ∀ d ∈ availSubtractions c, d.2 ≤ d.1 := by
  have h₁ : c.txbSent ≤ c.txBufSize := by bv_omega
  have h₂ : c.txbAllocated ≤ c.txBufSize - c.txbSent := by bv_omega
  simp [availSubtractions, h₁, h₂]

theorem sendSubtractions_le (h : TxInv conn s) (count : Nat) :
    ∀ d ∈ sendSubtractions (s.conn conn) count, d.2 ≤ d.1 := by
  have hwithin := h.balanced.within
  obtain ⟨len, hreserve, hlen⟩ := txReserveZc_spec (s.conn conn) count h.balanced.isOpen hwithin
  intro d hd
  rcases mem_append.mp hd with hd | hd
  · exact availSubtractions_le hwithin d hd
  · rw [hreserve] at hd
    obtain rfl := mem_singleton.mp hd
    rw [BitVec.le_def]
    dsimp only
    rw [BitVec.toNat_add_of_lt (by omega)]
    omega

theorem syncSubtractions_of_goBack {c c' : EtranConn} {p : RxPkt} {bytes : U32}
    (hback : syncGoBack c p.md.ackBytes = (c', some bytes)) (hne : c.txbSent ≠ c'.txbSent) :
    syncSubtractions c p = availSubtractions c ++ [(c.txbSent, bytes)] := by
  simp [syncSubtractions, hback, hne]

theorem txSubtractions_le (h : TxInv conn s) (hdom : TxDom conn s e) (hok : TxOk conn s e) :
    ∀ d ∈ txSubtractions conn s e, d.2 ≤ d.1 := by
  have havail := availSubtractions_le h.balanced.within
  cases e with
  | send count buf => exact sendSubtractions_le h count
  | ack p =>
    have hle : p.md.ackBytes ≤ (s.conn conn).txbSent := BitVec.le_def.mpr hdom.2
    intro d hd
    simp only [txSubtractions, syncSubtractions, syncGoBack_of_isAck hdom.1, Option.toList_none,
      map_nil, append_nil] at hd
    rcases mem_append.mp hd with hd | hd
    · exact havail d hd
    · split at hd
      · rw [mem_singleton.mp hd]
        exact hle
      · cases hd
  | recovery p =>
    by_cases hpoison : p.md.ackBytes = poison32
    · intro d hd
      have : syncSubtractions (s.conn conn).toEtranConn p =
          availSubtractions (s.conn conn).toEtranConn := by
        simp [syncSubtractions, syncGoBack, hpoison]
      exact havail d (this ▸ hd)
    · have hback := h.balanced.syncGoBack_eq hdom.1 hdom.2 hpoison hok.1 hok.2
      have hne : (s.conn conn).toEtranConn.txbSent ≠ 0#32 := by
        have := hok.1
        bv_omega
      intro d hd
      rw [txSubtractions, syncSubtractions_of_goBack hback hne] at hd
      rcases mem_append.mp hd with hd | hd
      · exact havail d hd
      · rw [List.mem_singleton.mp hd]
        exact BitVec.le_refl _
  | retransmit => exact (retransmit_spec h.balanced h.own hok).2.2
  | freeBuffers => simp [txSubtractions]

theorem txSafe_of_inv (h : TxInv conn s) (hdom : TxDom conn s e) (hok : TxOk conn s e) :
    TxSafe conn s e := by
  refine ⟨txSubtractions_le h hdom hok, ?_⟩
  cases e with
  | recovery p => exact (txInv_recovery h hdom hok).2
  | send | ack | retransmit | freeBuffers => trivial

end

/-- The connection was just opened with a buffer whose positions fit beside `RECOVERY_MASK`. -/
structure FreshTxRun (conn : U64) (s : TxRun) : Prop where
  isOpen : (s.conn conn).isOpen = true
  size_le : (s.conn conn).txBufSize.toNat ≤ 2 ^ 31
  prepared : connectionPrepareBuffer (s.conn conn) = s.conn conn
  unackTxAddrs : (s.conn conn).unackTxAddrs = []
  retransmissionConns : s.thread.tctx.retransmissionConns = []
  acked : s.acked = 0

theorem FreshTxRun.txInv {conn : U64} {s : TxRun} (h : FreshTxRun conn s) : TxInv conn s := by
  have hsent : (s.conn conn).txbSent = 0#32 := by rw [← h.prepared]; rfl
  have halloc : (s.conn conn).txbAllocated = 0#32 := by rw [← h.prepared]; rfl
  have hhead : (s.conn conn).txbHead = 0#32 := by rw [← h.prepared]; rfl
  refine ⟨⟨h.isOpen, h.size_le, ?_, ?_, ?_, ?_⟩, ?_⟩
  · simp [hsent, halloc]
  · simp [hsent, hhead, h.acked]
  · simp [h.retransmissionConns]
  · simp [h.unackTxAddrs]
  · simp [h.retransmissionConns]

/-- The counters fit the buffer, no step underflows, and no recovery is counted as acknowledged
    bytes. -/
theorem txAccounting_safe {conn : U64} {s : TxRun} {es : List TxEvent} (h0 : FreshTxRun conn s)
    (hdom : Meets (txStep conn) (TxDom conn) s es) (hok : Meets (txStep conn) (TxOk conn) s es) :
    Always (txStep conn) (TxWithin conn) s es ∧ Meets (txStep conn) (TxSafe conn) s es := by
  have hboth := hdom.and hok
  have hinv : Always (txStep conn) (TxInv conn) s es :=
    always_of_meets (fun s e h hde => txInv_step h hde.1 hde.2) h0.txInv hboth
  refine ⟨hinv.mono fun s h => h.balanced.within, ?_⟩
  exact meets_of_inv (fun s e h hde => txInv_step h hde.1 hde.2)
    (fun s e h hde => txSafe_of_inv h hde.1 hde.2) h0.txInv hboth

def freshTxRun : TxRun :=
  { thread := { (default : TxThread) with
      conns := fun _ => connectionPrepareBuffer
        { (default : TxConn) with isOpen := true, txBufSize := 524288#32 } }
    acked := 0 }

theorem freshTxRun_fresh : FreshTxRun 1#64 freshTxRun where
  isOpen := rfl
  size_le := by decide
  prepared := rfl
  unackTxAddrs := rfl
  retransmissionConns := rfl
  acked := rfl

def recoveryTo (pos : U32) : RxPkt := ackOfBytes (pos ||| recoveryMask)

theorem txAccounting_safe_at :
    let es : List TxEvent := [.send 2896 (fun i => BitVec.ofNat 64 (4096 * i)),
      .ack (ackOfBytes 1448#32), .freeBuffers, .recovery (recoveryTo 1448#32), .retransmit]
    Always (txStep 1#64) (TxWithin 1#64) freshTxRun es ∧
      Meets (txStep 1#64) (TxSafe 1#64) freshTxRun es := by
  apply txAccounting_safe freshTxRun_fresh
  · refine ⟨trivial, ⟨by decide, by decide⟩, trivial, ⟨by decide, by decide⟩, trivial, trivial⟩
  · refine ⟨trivial, trivial, by rw [TxOk]; decide, ⟨by decide, by decide⟩, ⟨?_, trivial⟩, trivial⟩
    decide

/-- After the first of two recoveries the head is on the byte both name: the second is taken for an
    acknowledgement of `2 ^ 31` bytes. -/
theorem recovery_counted_as_ack :
    let es : List TxEvent := [.send 100 (fun _ => 0#64), .recovery (recoveryTo 0#32),
      .recovery (recoveryTo 0#32)]
    Meets (txStep 1#64) (TxDom 1#64) freshTxRun es ∧
      ¬ Always (txStep 1#64) (TxWithin 1#64) freshTxRun es ∧
      ¬ Meets (txStep 1#64) (TxSafe 1#64) freshTxRun es := by
  refine ⟨⟨trivial, ⟨by decide, by decide⟩, ⟨by decide, by decide⟩, trivial⟩, ?_, ?_⟩
  · rintro ⟨-, -, -, hwithin⟩
    rw [always_nil, TxWithin] at hwithin
    exact absurd hwithin (by decide)
  · rintro ⟨-, -, ⟨-, hpending⟩, -⟩
    exact absurd hpending (by decide)

end MtpXdp.Lib

import MtpXdp.Core.Pieces
import MtpXdp.Lib.CreditAgreement

/-!
# Conservation of the Receive Window

Free receive space leaves `rx_avail` with a segment and comes back by a long way: `handle_rx`
credits it in `rxb_used`, reading moves it to `rxb_bump`, and `tcp_ebpf_sync` into the metadata of a
packet that `tcp_tx_process` takes it out of. While segments arrive in order, nothing is lost or
counted twice, however the five steps interleave.
-/

namespace MtpXdp.Lib

open MtpXdp.Core Ebpf List BitVec

variable {conn : U64} {s : Receiving}

/-! ## `tcp_ebpf_sync` -/

def syncMeta (rxBump : U32) : TxMeta :=
  { (default : TxMeta) with flag := flagSync, rxBump := rxBump }

/-- The loop of `tcp_ebpf_sync`. The TX ring takes `free` more descriptors; the rest of the list
    stays. -/
def ebpfSyncLoop : Nat → List U64 → Thread → Thread × List (U64 × TxMeta)
  | _, [], s => ({ s with tctx := { s.tctx with rxBumpPendingConns := [] } }, [])
  | 0, conns, s => ({ s with tctx := { s.tctx with rxBumpPendingConns := conns } }, [])
  | free + 1, conn :: conns, s =>
    let c := s.conns conn
    let (s, sent) := ebpfSyncLoop free conns
      (s.setConn conn { c with rxbBump := 0#32, inRxBumpPending := false })
    (s, (conn, syncMeta c.rxbBump) :: sent)

def tcpEbpfSync (free : Nat) (s : Thread) : Thread × List (U64 × TxMeta) :=
  ebpfSyncLoop free s.tctx.rxBumpPendingConns s

/-! ## Both address spaces -/

structure Redirected where
  addr : U64
  pkt : RxPkt
  last : Bool

def Redirected.bytes (r : Redirected) : Nat :=
  if r.pkt.md.plen = poison16 then 0 else r.pkt.md.plen.toNat

/-- The connection in the map, the library's thread, and the packets between them. -/
structure Receiving where
  c : BpfTcpConn
  thread : Thread
  redirected : List Redirected
  syncs : List TxMeta

inductive RxEvent (conn : U64) where
  | segment (e : Arrival conn)
  | handle
  | recv (count : Nat)
  | sync (free : Nat)
  | egress (cc : BpfCc) (env : TxEnv) (pkt : Pkt)

def rxEventStep {conn : U64} (s : Receiving) : RxEvent conn → Receiving
  | .segment e =>
    let x := dataChain (e.ctx s.c)
    { s with
      c := x.c
      redirected := if x.io.drop then s.redirected else
        s.redirected ++ [{ addr := e.addr, pkt := e.frameOf s.c, last := e.last }] }
  | .handle =>
    match s.redirected with
    | [] => s
    | r :: rest => { s with
        thread := (handleRx s.thread r.addr r.pkt r.last).1, redirected := rest }
  | .recv count => { s with thread := (connRecv s.thread conn count).1 }
  | .sync free =>
    let (thread, sent) := tcpEbpfSync free s.thread
    { s with thread := thread
             syncs := s.syncs ++ (sent.filter (fun x => x.1 = conn)).map Prod.snd }
  | .egress cc env pkt =>
    match s.syncs with
    | [] => s
    | m :: rest =>
      { s with c := (tcpTxProcess { c := s.c, cc := cc } env m (parseReqToEvent m) pkt).flow.c
               syncs := rest }

/-- Segments are in order and carry a payload; `conn_recv` is called between two polls. -/
def InOrderTraffic {conn : U64} (s : Receiving) : RxEvent conn → Prop
  | .segment e => e.seq = s.c.rxNextSeq ∧ e.len ≠ 0#32
  | .handle => True
  | .recv _ => s.thread.locals.cachedRxBump = 0#64
  | .sync _ => True
  | .egress _ _ _ => True

instance {conn : U64} (s : Receiving) (e : RxEvent conn) : Decidable (InOrderTraffic s e) := by
  unfold InOrderTraffic
  split <;> infer_instance

/-- The window, wherever it is; what the poll has not settled is counted with `rxb_used`. -/
def Receiving.window (conn : U64) (s : Receiving) : Nat :=
  s.c.rxAvail.toNat + total Redirected.bytes s.redirected + (credit s.thread conn).toNat +
    (s.thread.conns conn).rxbBump.toNat + total (fun m => m.rxBump.toNat) s.syncs

def Conserved (conn : U64) (w : Nat) (s : Receiving) : Prop := s.window conn = w

/-- **`rx_avail` does not underflow**: a segment takes no more than is free. -/
def TakesFree {conn : U64} (s : Receiving) : RxEvent conn → Prop
  | .segment e =>
    (rxEventStep s (.segment e)).c.rxAvail.toNat + (acceptedLen s.c e.seq e.len).toNat =
      s.c.rxAvail.toNat
  | _ => True

/-! ## Who moves `rxb_bump` -/

def BumpKept (s s' : Thread) : Prop := ∀ a, (s'.conns a).rxbBump = (s.conns a).rxbBump

section

variable {s s' s'' : Thread} {c : EtranConn}

theorem BumpKept.trans (h : BumpKept s s') (h' : BumpKept s' s'') : BumpKept s s'' :=
  fun a => (h' a).trans (h a)

theorem BumpKept.setConn (h : c.rxbBump = (s.conns conn).rxbBump) :
    BumpKept s (s.setConn conn c) := by
  intro a
  by_cases ha : conn = a
  · subst ha
    rw [setConn_conns_self, h]
  · rw [setConn_conns_of_ne ha]

theorem bumpKept_settle (s : Thread) :
    BumpKept s (lazyUpdatePrevConnTxev (lazyUpdatePrevConnRxev s)) := by
  obtain ⟨events, htx⟩ := lazyUpdatePrevConnTxev_eq (lazyUpdatePrevConnRxev s)
  intro a
  rw [htx]
  rw [lazyUpdatePrevConnRxev_conns]

theorem bumpKept_cacheConn (s : Thread) (conn : U64) : BumpKept s (cacheConn s conn) := by
  unfold cacheConn
  split_ifs
  · exact bumpKept_settle s
  · exact fun _ => rfl
  · exact fun _ => rfl

theorem bumpKept_endPoll (s : Thread) : BumpKept s (endPoll s) := by
  unfold endPoll
  dsimp only
  split_ifs
  · exact bumpKept_settle s
  · obtain ⟨events, htx⟩ := lazyUpdatePrevConnTxev_eq s
    rw [htx]
    exact fun _ => rfl

theorem syncState_rxbBump (t : ThreadCtx) (conn : U64) (c : EtranConn) (p : RxPkt) :
    (syncState t conn c p).2.1.rxbBump = c.rxbBump := by
  have hback : (syncGoBack c p.md.ackBytes).1.rxbBump = c.rxbBump := by
    unfold syncGoBack
    dsimp only
    split_ifs <;> rfl
  unfold syncState
  dsimp only
  generalize syncGoBack c p.md.ackBytes = r at hback
  split_ifs <;> exact hback

theorem bumpKept_syncConn (s : Thread) (p : RxPkt) : BumpKept s (syncConn s p) := by
  have hbump := syncState_rxbBump s.tctx p.md.conn (s.conns p.md.conn) p
  unfold syncConn
  dsimp only
  generalize syncState s.tctx p.md.conn (s.conns p.md.conn) p = r at hbump
  obtain ⟨t, c, sendEvent⟩ := r
  have hset : BumpKept s ({ s with tctx := t }.setConn p.md.conn c) := BumpKept.setConn hbump
  cases sendEvent <;> exact hset

theorem bumpKept_noteQueue (s : Thread) (p : RxPkt) : BumpKept s (noteQueue s p) := by
  unfold noteQueue
  split_ifs
  · exact BumpKept.setConn (s := s) rfl
  · exact fun _ => rfl

section

variable (s : Thread) (addr : U64) (p : RxPkt)

theorem bumpKept_noPayload : BumpKept s (noPayload s addr p) := by
  unfold noPayload
  split_ifs
  · exact BumpKept.setConn (s := s) rfl
  · exact fun _ => rfl

theorem bumpKept_filePayload : BumpKept s (filePayload s addr p).1 := by
  unfold filePayload
  dsimp only
  rw [filePkt_conn]
  exact BumpKept.setConn (s := s) rfl

theorem bumpKept_handleRx (last : Bool) : BumpKept s (handleRx s addr p last).1 := by
  have hconn : BumpKept s (handleConnRx s addr p).1 := by
    have hcache := bumpKept_cacheConn s p.md.conn
    unfold handleConnRx
    split_ifs
    · exact hcache.trans (bumpKept_syncConn _ p)
    · exact hcache.trans ((bumpKept_noteQueue _ p).trans
        ((bumpKept_syncConn _ p).trans (bumpKept_noPayload _ addr p)))
    · exact hcache.trans ((bumpKept_noteQueue _ p).trans
        ((bumpKept_syncConn _ p).trans (bumpKept_filePayload _ addr p)))
  have hend : ∀ s' : Thread, BumpKept s s' → BumpKept s (if last then endPoll s' else s') := by
    intro s' h
    split_ifs
    · exact h.trans (bumpKept_endPoll s')
    · exact h
  unfold handleRx
  by_cases hnobody : p.md.conn = poison64 ∨ p.md.conn = 0#64
  · rw [if_pos hnobody]
    exact hend { s with tctx := s.tctx.bcacheProd addr } (fun _ => rfl)
  · rw [if_neg hnobody]
    exact hend _ hconn

end

theorem connRecv_rxbBump (s : Thread) (conn : U64) (count : Nat) :
    ((connRecv s conn count).1.conns conn).rxbBump = (s.conns conn).rxbBump +
        BitVec.ofNat 32 (rxPeekCountZc (s.conns conn) count).copied := by
  have hle := rxPeekCountZc_copied_le (s.conns conn) count
  unfold connRecv
  generalize rxPeekCountZc (s.conns conn) count = r at hle
  rw [setConn_conns_self]
  by_cases h0 : r.copied = 0
  · rw [if_pos h0, h0]
    exact (add_zero _).symm
  · rw [if_neg h0]
    unfold rxRelease
    rw [if_neg (show ¬ (s.conns conn).rxbUsed.toNat < r.copied by omega)]
    dsimp only
    split_ifs <;> rfl

theorem ebpfSyncLoop_spec (conn : U64) (free : Nat) (conns : List U64) (s : Thread) :
    (((ebpfSyncLoop free conns s).1.conns conn).rxbBump.toNat + total (fun m => m.rxBump.toNat)
          (((ebpfSyncLoop free conns s).2.filter (fun x => x.1 = conn)).map Prod.snd) =
      (s.conns conn).rxbBump.toNat) ∧
    connView conn (ebpfSyncLoop free conns s).1 = connView conn s ∧
    (∀ x ∈ (ebpfSyncLoop free conns s).2, x.2.flag = flagSync) := by
  induction conns generalizing free s with
  | nil =>
    rw [ebpfSyncLoop]
    exact ⟨rfl, connView_congr rfl rfl rfl rfl, fun x hx => absurd hx not_mem_nil⟩
  | cons a conns ih =>
    cases free with
    | zero => exact ⟨rfl, connView_congr rfl rfl rfl rfl, fun x hx => absurd hx not_mem_nil⟩
    | succ free =>
      -- the rest of the list, after the packet for `a` was submitted
      obtain ⟨hsum, hview, hflag⟩ :=
        ih free (s.setConn a { s.conns a with rxbBump := 0#32, inRxBumpPending := false })
      have hrx : EtranConn.SameRx { s.conns a with rxbBump := 0#32, inRxBumpPending := false }
          (s.conns a) := ⟨rfl, rfl, rfl, rfl, rfl⟩
      refine ⟨?_, hview.trans (connView_setConn_of_sameRx hrx),
        forall_mem_cons.mpr ⟨rfl, hflag⟩⟩
      rw [ebpfSyncLoop]
      by_cases ha : a = conn
      · subst ha
        rw [setConn_conns_self] at hsum
        rw [filter_cons_of_pos (by simp), map_cons, total_cons, Nat.add_left_comm, hsum]
        rfl
      · rw [setConn_conns_of_ne ha] at hsum
        rw [filter_cons_of_neg (by simp [ha])]
        exact hsum

theorem tcpTxProcess_sync_rxSide (f : Flow) (env : TxEnv) {m : TxMeta} (ev : AppTimerEvent)
    (pkt : Pkt) (hflag : m.flag = flagSync) : (tcpTxProcess f env m ev pkt).flow.c.rxSide =
      { f.c.rxSide with avail := f.c.rxAvail + m.rxBump } := by
  have hsync : m.flag &&& flagSync ≠ 0#64 := by
    rw [hflag]
    decide
  unfold tcpTxProcess txSync
  dsimp only
  have hbump : (bumpRxAvail f.c m.rxBump).rxSide =
      { f.c.rxSide with avail := f.c.rxAvail + m.rxBump } := by
    unfold bumpRxAvail
    split_ifs with h0
    · rfl
    · rw [not_not.mp h0, BitVec.add_zero]
      rfl
  split_ifs <;> exact hbump

end

/-! ## Packets in between -/

def FlightFrom (conn : U64) : U32 → List Redirected → U32 → Prop
  | a, [], b => a = b
  | a, r :: l, b => r.pkt.md.conn = conn ∧ r.pkt.md.qid ≠ poison32 ∧
      if r.pkt.md.plen = poison16 then FlightFrom conn a l b
      else r.pkt.startSeq = a ∧ r.pkt.endSeq = a + r.pkt.md.plen.setWidth 32 ∧
        FlightFrom conn (a + r.pkt.md.plen.setWidth 32) l b

theorem FlightFrom.append {conn : U64} {a b d : U32} {l l' : List Redirected}
    (h : FlightFrom conn a l b) (h' : FlightFrom conn b l' d) : FlightFrom conn a (l ++ l') d := by
  induction l generalizing a with
  | nil =>
    obtain rfl : a = b := h
    exact h'
  | cons r l ih =>
    obtain ⟨hconn, hqid, hrest⟩ := h
    refine ⟨hconn, hqid, ?_⟩
    split_ifs at hrest ⊢ with hplen
    · exact ih hrest
    · exact ⟨hrest.1, hrest.2.1, ih hrest.2.2⟩

section

variable {e : Arrival conn}

theorem acceptedLen_le_rxAvail (hcov : Covers s.c e.seq e.len) :
    (acceptedLen s.c e.seq e.len).toNat ≤ s.c.rxAvail.toNat := by
  rw [toNat_acceptedLen_of_covers hcov]
  exact Nat.min_le_right _ _

theorem segment_spec (hseq : e.seq = s.c.rxNextSeq) (hlen : e.len ≠ 0#32) :
    ∃ l, (rxEventStep s (.segment e)).redirected = s.redirected ++ l ∧
      total Redirected.bytes l = (acceptedLen s.c e.seq e.len).toNat ∧
      FlightFrom conn s.c.rxNextSeq l (s.c.rxNextSeq + acceptedLen s.c e.seq e.len) := by
  have hcov := Arrival.covers_of_inOrder hseq hlen
  obtain ⟨hconn, hqid⟩ := e.frameOf_addressed (c := s.c)
  let r : Redirected := { addr := e.addr, pkt := e.frameOf s.c, last := e.last }
  have hredirected : ∀ b, (dataChain (e.ctx s.c)).io.drop = b →
      (rxEventStep s (.segment e)).redirected = s.redirected ++ if b then [] else [r] := by
    intro b hb
    unfold rxEventStep
    dsimp only
    rw [hb]
    cases b
    · rfl
    · exact (append_nil _).symm
  rcases dataChain_handover (x := e.ctx s.c) (Or.inr hcov) with
    ⟨hzero, hquiet⟩ | ⟨hne, hdrop, hpayload⟩
  · have hzero : acceptedLen s.c e.seq e.len = 0#32 := hzero
    rw [hzero, BitVec.add_zero]
    rcases hquiet with hdrop | hplen
    · exact ⟨[], hredirected true hdrop, rfl, rfl⟩
    · refine ⟨_, hredirected _ rfl, ?_⟩
      cases hdrop : (dataChain (e.ctx s.c)).io.drop with
      | true => exact ⟨rfl, rfl⟩
      | false =>
        have hplen : r.pkt.md.plen = poison16 := hplen
        refine ⟨?_, hconn, hqid, ?_⟩
        · rw [if_neg Bool.false_ne_true, total_cons, total_nil, Redirected.bytes, if_pos hplen]
          rfl
        · rw [if_pos hplen]
          rfl
  · obtain ⟨hpoff, hplen⟩ := Prod.mk.inj hpayload
    obtain ⟨hwide, hreal⟩ := Arrival.frameOf_plen (Or.inr hcov) hplen
    have hstart := Arrival.frameOf_startSeq (by rw [hseq, ahead_self]; decide) hpoff
    have hend : (e.frameOf s.c).endSeq = s.c.rxNextSeq + (e.frameOf s.c).md.plen.setWidth 32 := by
      change e.seq + _ = _
      rw [hseq]
    refine ⟨[r], hredirected false hdrop, ?_, hconn, hqid, ?_⟩
    · rw [total_cons, total_nil, Redirected.bytes, if_neg hreal, Nat.add_zero, ← hwide,
        toNat_setWidth_of_le (by decide)]
    · rw [if_neg hreal]
      exact ⟨hstart, hend, congrArg (s.c.rxNextSeq + ·) hwide⟩

end

/-! ## The invariant -/

/-- Nothing is held out of order, and the packets in between continue the stream. -/
structure ReceivingInv (conn : U64) (w : U32) (s : Receiving) : Prop where
  window : s.window conn = w.toNat
  oooLen : s.c.rxOooLen = 0#32
  held : s.thread.tctx.mtp.oooLen = 0#32
  flight : ∃ a, FlightFrom conn a s.redirected s.c.rxNextSeq ∧
    (s.thread.tctx.mtp.followingPackets = true → s.thread.tctx.mtp.expectedSeq = a)
  flags : ∀ m ∈ s.syncs, m.flag = flagSync

section

variable {w : U32}

theorem ReceivingInv.segment {e : Arrival conn} (h : ReceivingInv conn w s)
    (hseq : e.seq = s.c.rxNextSeq) (hlen : e.len ≠ 0#32) :
    ReceivingInv conn w (rxEventStep s (.segment e)) ∧ TakesFree s (.segment e) := by
  have hcov := Arrival.covers_of_inOrder hseq hlen
  have hfree := acceptedLen_le_rxAvail hcov
  have hside : (rxEventStep s (.segment e)).c.rxSide =
      s.c.rxSide.accept (acceptedLen s.c e.seq e.len) := dataChain_rxSide h.oooLen (Or.inr hcov)
  have hnext : (rxEventStep s (.segment e)).c.rxNextSeq =
      s.c.rxNextSeq + acceptedLen s.c e.seq e.len := congrArg RxSide.next hside
  have havail : (rxEventStep s (.segment e)).c.rxAvail.toNat +
      (acceptedLen s.c e.seq e.len).toNat = s.c.rxAvail.toNat := by
    rw [show (rxEventStep s (.segment e)).c.rxAvail = _ from congrArg RxSide.avail hside]
    exact (congrArg (· + _) (toNat_sub_of_le hfree)).trans (Nat.sub_add_cancel hfree)
  obtain ⟨l, hredirected, hbytes, hflight⟩ := segment_spec hseq hlen
  obtain ⟨a, hall, hexp⟩ := h.flight
  refine ⟨⟨?_, ?_, h.held, ⟨a, ?_, hexp⟩, h.flags⟩, ?_⟩
  · -- what leaves `rx_avail` is redirected
    have hwindow := h.window
    unfold Receiving.window at hwindow ⊢
    rw [hredirected, total_append, hbytes]
    change (rxEventStep s (.segment e)).c.rxAvail.toNat + _ + (credit s.thread conn).toNat +
      (s.thread.conns conn).rxbBump.toNat + total _ s.syncs = _
    omega
  · exact (congrArg RxSide.oooLen hside).trans h.oooLen
  · rw [hredirected, hnext]
    exact hall.append hflight
  · exact havail

theorem ReceivingInv.handle (hnull : conn ≠ 0#64) (hpoison : conn ≠ poison64)
    (h : ReceivingInv conn w s) : ReceivingInv conn w (rxEventStep s (.handle : RxEvent conn)) := by
  obtain ⟨a, hall, hexp⟩ := h.flight
  have hwindow := h.window
  unfold rxEventStep
  cases hred : s.redirected with
  | nil => exact h
  | cons r rest =>
    rw [hred] at hall
    obtain ⟨hconn, hqid, hrest⟩ := hall
    have hview := (connView_handleRx_self s.thread r.addr r.pkt r.last
      (hconn.symm ▸ hnull) (hconn.symm ▸ hpoison)).1
    rw [hconn] at hview
    have hbump := bumpKept_handleRx s.thread r.addr r.pkt r.last conn
    unfold Receiving.window at hwindow
    rw [hred, total_cons] at hwindow
    by_cases hplen : r.pkt.md.plen = poison16
    · -- no payload: neither the library nor the window moves
      rw [if_pos hplen] at hrest
      obtain ⟨hmtp, hcredit⟩ := packet_of_poison (connView conn s.thread) hplen
      rw [← hview] at hmtp hcredit
      refine ⟨?_, h.oooLen, ?_, ⟨a, hrest, ?_⟩, h.flags⟩
      · rw [Redirected.bytes, if_pos hplen, Nat.zero_add] at hwindow
        unfold Receiving.window
        rw [hbump, show credit _ conn = _ from hcredit]
        exact hwindow
      · exact (congrArg MtpThread.oooLen hmtp).trans h.held
      · intro hfollow
        exact (congrArg MtpThread.expectedSeq hmtp).trans
          (hexp ((congrArg MtpThread.followingPackets hmtp).symm.trans hfollow))
    · rw [if_neg hplen] at hrest
      obtain ⟨hstart, hend, hrest⟩ := hrest
      obtain ⟨hheld, -, hexp', hcredit⟩ := packet_of_inOrder (connView conn s.thread) hqid hplen
        h.held (fun hfollow => (hexp hfollow).trans hstart.symm)
      rw [← hview] at hheld hexp' hcredit
      refine ⟨?_, h.oooLen, hheld, ⟨_, hrest, ?_⟩, h.flags⟩
      · rw [Redirected.bytes, if_neg hplen] at hwindow
        have hsum : (credit (handleRx s.thread r.addr r.pkt r.last).1 conn).toNat =
            (credit s.thread conn).toNat + r.pkt.md.plen.toNat := by
          rw [show credit _ conn = _ from hcredit, toNat_add, toNat_setWidth_of_le (by decide)]
          change ((credit s.thread conn).toNat + _) % _ = _
          omega
        unfold Receiving.window
        dsimp only
        rw [hbump, hsum]
        omega
      · intro _
        refine hexp'.trans ?_
        split_ifs with hwas
        · rw [show (connView conn s.thread).mtp.expectedSeq = a from hexp hwas]
        · exact hend

theorem credit_of_idle {t : Thread} (hidle : t.locals.cachedRxBump = 0#64) :
    credit t conn = (t.conns conn).rxbUsed := by
  simp [credit, hidle]

theorem ReceivingInv.recv (h : ReceivingInv conn w s) (count : Nat)
    (hidle : s.thread.locals.cachedRxBump = 0#64) :
    ReceivingInv conn w (rxEventStep s (.recv count : RxEvent conn)) := by
  have hwindow := h.window
  have hle := rxPeekCountZc_copied_le (s.thread.conns conn) count
  have hbump := connRecv_rxbBump s.thread conn count
  obtain ⟨t, c, heq, hmtp, hrx⟩ := connRecv_eq s.thread conn count
  have hcredit : credit (connRecv s.thread conn count).1 conn = (s.thread.conns conn).rxbUsed -
      BitVec.ofNat 32 (rxPeekCountZc (s.thread.conns conn) count).copied := by
    rw [heq]
    refine (credit_of_idle (show (Thread.setConn _ conn c).locals.cachedRxBump =
      _ from hidle)).trans ?_
    rw [setConn_conns_self, hrx.rxbUsed]
  have hmtp : (connRecv s.thread conn count).1.tctx.mtp = s.thread.tctx.mtp := by
    rw [heq]
    exact hmtp
  unfold rxEventStep
  refine ⟨?_, h.oooLen, ?_, ?_, h.flags⟩
  · unfold Receiving.window at hwindow ⊢
    dsimp only
    rw [credit_of_idle hidle] at hwindow
    rw [hcredit, hbump, toNat_sub, toNat_add, toNat_ofNat]
    omega
  · rw [hmtp]
    exact h.held
  · rw [hmtp]
    exact h.flight

theorem ReceivingInv.sync (h : ReceivingInv conn w s) (free : Nat) :
    ReceivingInv conn w (rxEventStep s (.sync free : RxEvent conn)) := by
  have hwindow := h.window
  obtain ⟨hsum, hview, hflag⟩ :=
    ebpfSyncLoop_spec conn free s.thread.tctx.rxBumpPendingConns s.thread
  have hmtp : (tcpEbpfSync free s.thread).1.tctx.mtp = s.thread.tctx.mtp :=
    congrArg ConnView.mtp hview
  have hcredit : credit (tcpEbpfSync free s.thread).1 conn = credit s.thread conn :=
    congrArg ConnView.credit hview
  unfold rxEventStep
  refine ⟨?_, h.oooLen, ?_, ?_, ?_⟩
  · unfold Receiving.window at hwindow ⊢
    dsimp only
    rw [total_append, hcredit]
    unfold tcpEbpfSync
    omega
  · rw [hmtp]
    exact h.held
  · rw [hmtp]
    exact h.flight
  · intro m hm
    rcases mem_append.mp hm with hold | hnew
    · exact h.flags m hold
    · obtain ⟨x, hx, rfl⟩ := mem_map.mp hnew
      exact hflag x (mem_filter.mp hx).1

theorem ReceivingInv.egress (h : ReceivingInv conn w s) (cc : BpfCc) (env : TxEnv) (pkt : Pkt) :
    ReceivingInv conn w (rxEventStep s (.egress cc env pkt : RxEvent conn)) := by
  have hwindow := h.window
  unfold rxEventStep
  cases hsyncs : s.syncs with
  | nil => exact h
  | cons m rest =>
    obtain ⟨hflag, hrest⟩ := forall_mem_cons.mp (hsyncs ▸ h.flags)
    have hside := tcpTxProcess_sync_rxSide { c := s.c, cc := cc } env (parseReqToEvent m) pkt hflag
    unfold Receiving.window at hwindow
    rw [hsyncs, total_cons] at hwindow
    refine ⟨?_, (congrArg RxSide.oooLen hside).trans h.oooLen, h.held, ?_, hrest⟩
    · unfold Receiving.window
      dsimp only
      rw [show (tcpTxProcess _ env m _ pkt).flow.c.rxAvail = _ from congrArg RxSide.avail hside]
      change (s.c.rxAvail + m.rxBump).toNat + _ + _ + _ + _ = _
      rw [toNat_add]
      omega
    · rw [show (tcpTxProcess _ env m _ pkt).flow.c.rxNextSeq = s.c.rxNextSeq from
        congrArg RxSide.next hside]
      exact h.flight

theorem receivingInv_step (hnull : conn ≠ 0#64) (hpoison : conn ≠ poison64)
    (h : ReceivingInv conn w s) {e : RxEvent conn} (he : InOrderTraffic s e) :
    ReceivingInv conn w (rxEventStep s e) ∧ TakesFree s e := by
  cases e with
  | segment seg => exact h.segment he.1 he.2
  | handle => exact ⟨h.handle hnull hpoison, trivial⟩
  | recv count => exact ⟨h.recv count he, trivial⟩
  | sync free => exact ⟨h.sync free, trivial⟩
  | egress cc env pkt => exact ⟨h.egress cc env pkt, trivial⟩

end

/-! ## Runs -/

structure FreshReceiving (conn : U64) (s : Receiving) : Prop where
  oooLen : s.c.rxOooLen = 0#32
  first : s.thread.tctx.mtp.followingPackets = false
  held : s.thread.tctx.mtp.oooLen = 0#32
  credited : credit s.thread conn = 0#32
  bump : (s.thread.conns conn).rxbBump = 0#32
  redirected : s.redirected = []
  syncs : s.syncs = []

theorem FreshReceiving.inv {conn : U64} {s : Receiving} (h : FreshReceiving conn s) :
    ReceivingInv conn s.c.rxAvail s where
  window := by
    rw [Receiving.window, h.redirected, h.syncs, h.credited, h.bump]
    rfl
  oooLen := h.oooLen
  held := h.held
  flight := by
    refine ⟨s.c.rxNextSeq, ?_, fun hfollow => absurd (h.first.symm.trans hfollow) Bool.noConfusion⟩
    rw [h.redirected]
    rfl
  flags := by
    rw [h.syncs]
    exact fun m hm => absurd hm not_mem_nil

/-- **The receive window is conserved** in every interleaving, and `rx_avail` never underflows. -/
theorem conserved_always {conn : U64} (hnull : conn ≠ 0#64) (hpoison : conn ≠ poison64)
    {s : Receiving} (h : FreshReceiving conn s) {es : List (RxEvent conn)}
    (hes : Meets rxEventStep InOrderTraffic s es) :
    Always rxEventStep (Conserved conn s.c.rxAvail.toNat) s es ∧
      Meets rxEventStep TakesFree s es := by
  have hstep : ∀ t e, ReceivingInv conn s.c.rxAvail t → InOrderTraffic t e →
      ReceivingInv conn s.c.rxAvail (rxEventStep t e) ∧ TakesFree t e :=
    fun _ _ hinv he => receivingInv_step hnull hpoison hinv he
  have hkeeps := fun t e hinv he => (hstep t e hinv he).1
  constructor
  · exact (always_of_meets hkeeps h.inv hes).mono (fun _ hinv => hinv.window)
  · exact meets_of_inv hkeeps (fun t e hinv he => (hstep t e hinv he).2) h.inv hes

def freshReceiving : Receiving where
  c := { (default : BpfTcpConn) with
    rxNextSeq := 1000#32, recvInitSeq := 1000#32, rxAvail := 1000#32 }
  thread := { (default : Thread) with
    conns := fun _ => { (default : EtranConn) with rxBufSize := 2048#32 } }
  redirected := []
  syncs := []

theorem freshReceiving_fresh : FreshReceiving 1#64 freshReceiving :=
  ⟨rfl, rfl, rfl, by decide, rfl, rfl, rfl⟩

theorem sixHundredBytes_whole : 52 ≤ (bpfNtohs 0x8C02#16).toNat := by decide

def sixHundredAt (seq : U32) : Arrival 1#64 := arrivalAt seq 0x8C02#16 sixHundredBytes_whole

/-- Two segments, the second of which is cut at the end of the window; what is read goes all the
    way back. -/
def windowRound : List (RxEvent 1#64) :=
  [.segment (sixHundredAt 1000#32), .handle, .segment (sixHundredAt 1600#32), .recv 600, .handle,
    .sync 1, .egress default default default]

theorem conserved_always_round :
    Always rxEventStep (Conserved 1#64 1000) freshReceiving windowRound ∧
      Meets rxEventStep TakesFree freshReceiving windowRound :=
  conserved_always (by decide) (by decide) freshReceiving_fresh (by decide +kernel)

end MtpXdp.Lib

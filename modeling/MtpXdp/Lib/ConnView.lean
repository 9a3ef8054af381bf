import MtpXdp.Lib.Receive

/-!
# One Connection's View of Its Thread

The receive path of a connection reads a small part of the thread: the reassembly state in the
thread context, and the receive side of its own record. It acts on that part as a machine of its
own: `ConnView.packet` for a packet of the connection, `ConnView.recv` for a `conn_recv`.
-/

namespace MtpXdp.Lib

open Ebpf Prod

variable {p : RxPkt} {a : U64} {s : Thread}

/-! ## The view -/

def credit (s : Thread) (a : U64) : U32 :=
  (s.conns a).rxbUsed +
    if s.locals.cachedConn = a then s.locals.cachedRxBump.setWidth 32 else 0#32

@[ext]
structure ConnView where
  mtp : MtpThread
  rxbHead : U32
  credit : U32
  rxBufSize : U32
  rxPkts : List RxPkt
  oooPkts : List RxPkt

def connView (a : U64) (s : Thread) : ConnView where
  mtp := s.tctx.mtp
  rxbHead := (s.conns a).rxbHead
  credit := credit s a
  rxBufSize := (s.conns a).rxBufSize
  rxPkts := (s.conns a).rxAddrs.map Prod.snd
  oooPkts := (s.conns a).oooRxAddrs.map Prod.snd

def ConnView.toConn (v : ConnView) : EtranConn :=
  { (default : EtranConn) with
    rxbHead := v.rxbHead
    rxbUsed := v.credit
    rxBufSize := v.rxBufSize
    rxAddrs := v.rxPkts.map fun p => (0#64, p)
    oooRxAddrs := v.oooPkts.map fun p => (0#64, p) }

def ConnView.file (v : ConnView) (p : RxPkt) : ConnView × RxPkt :=
  let r := filePkt v.mtp p v.toConn 0#64 0#64
  ({ v with
      mtp := r.mtp
      credit := v.credit + r.bump.setWidth 32
      rxPkts := r.conn.rxAddrs.map Prod.snd
      oooPkts := r.conn.oooRxAddrs.map Prod.snd }, r.pkt)

def ConnView.clearOoo (v : ConnView) (p : RxPkt) : ConnView :=
  if p.md.oooBump &&& oooClearMask ≠ 0#32 then { v with oooPkts := [] } else v

def ConnView.packet (v : ConnView) (p : RxPkt) : ConnView × RxPkt :=
  if p.md.qid = poison32 then (v, p)
  else if p.md.plen = poison16 then (v.clearOoo p, p)
  else v.file p

def ConnView.recv (v : ConnView) (count : Nat) : ConnView × List U8 :=
  let r := rxPeekCountZc v.toConn count
  ({ v with
      rxbHead := if r.copied = 0 then v.rxbHead else advanceHead v.rxBufSize v.rxbHead r.copied
      credit := v.credit - BitVec.ofNat 32 r.copied
      rxPkts := r.left.map Prod.snd }, r.bytes)

/-! ## Changes to connection records -/

structure EtranConn.SameRx (c c' : EtranConn) : Prop where
  rxbHead : c.rxbHead = c'.rxbHead
  rxbUsed : c.rxbUsed = c'.rxbUsed
  rxBufSize : c.rxBufSize = c'.rxBufSize
  rxAddrs : c.rxAddrs = c'.rxAddrs
  oooRxAddrs : c.oooRxAddrs = c'.oooRxAddrs

section

variable {conn : U64} {c : EtranConn}

@[simp] theorem setConn_conns_self : (s.setConn conn c).conns conn = c := by
  simp [Thread.setConn]

theorem setConn_conns_of_ne (h : conn ≠ a) : (s.setConn conn c).conns a = s.conns a := by
  simp [Thread.setConn, Function.update_of_ne (Ne.symm h)]

theorem connView_setConn_of_ne (h : conn ≠ a) : connView a (s.setConn conn c) = connView a s := by
  unfold connView credit
  rw [setConn_conns_of_ne h]
  rfl

theorem connView_setConn_of_sameRx (h : c.SameRx (s.conns conn)) :
    connView a (s.setConn conn c) = connView a s := by
  by_cases ha : conn = a
  · subst ha
    unfold connView credit
    rw [setConn_conns_self, h.rxbHead, h.rxbUsed, h.rxBufSize, h.rxAddrs, h.oooRxAddrs]
    rfl
  · exact connView_setConn_of_ne ha

end

/-! ## Operations out of view -/

section

section

variable (s : Thread)

theorem lazyUpdatePrevConnRxev_conns (a : U64) :
    (lazyUpdatePrevConnRxev s).conns a = { s.conns a with rxbUsed := credit s a } := by
  unfold lazyUpdatePrevConnRxev credit
  by_cases h0 : s.locals.cachedRxBump = 0#64
  · simp [h0]
  · -- only the cached connection has bytes pending
    simp only [h0, if_false]
    by_cases ha : s.locals.cachedConn = a
    · subst ha
      simp
    · simp [setConn_conns_of_ne ha, ha]

theorem lazyUpdatePrevConnRxev_tctx : (lazyUpdatePrevConnRxev s).tctx = s.tctx := by
  unfold lazyUpdatePrevConnRxev
  split_ifs <;> rfl

theorem connView_settled (l : PollLocals) (events : List EtranEvent) (hl : l.cachedRxBump = 0#64) :
    connView a { lazyUpdatePrevConnRxev s with locals := l, retEvents := events } =
      connView a s := by
  unfold connView
  simp only [credit, lazyUpdatePrevConnRxev_conns, lazyUpdatePrevConnRxev_tctx, hl]
  simp

theorem connView_locals (l : PollLocals) (ha : s.locals.cachedConn ≠ a)
    (hl : l.cachedRxBump = 0#64) : connView a { s with locals := l } = connView a s := by
  unfold connView credit
  simp [ha, hl]

theorem lazyUpdatePrevConnTxev_eq :
    ∃ events, lazyUpdatePrevConnTxev s = { s with retEvents := events } := by
  unfold lazyUpdatePrevConnTxev
  split_ifs
  · exact ⟨_, rfl⟩
  · exact ⟨s.retEvents, rfl⟩

theorem connView_cacheConn (conn : U64) (ha : a ≠ 0#64) :
    connView a (cacheConn s conn) = connView a s := by
  unfold cacheConn
  split_ifs with hswitch hnull
  · -- another connection: the previous one is settled first
    obtain ⟨events, htx⟩ := lazyUpdatePrevConnTxev_eq (lazyUpdatePrevConnRxev s)
    simp only [htx]
    exact connView_settled s _ events rfl
  · -- the first packet of the poll: nothing is cached yet
    exact connView_locals s _ (fun h => ha (h.symm.trans hnull)) rfl
  · rfl

theorem cacheConn_cachedConn (conn : U64) : (cacheConn s conn).locals.cachedConn = conn := by
  unfold cacheConn
  split_ifs with hswitch hnull
  · rfl
  · rfl
  · by_contra hne
    exact hswitch ⟨hnull, Ne.symm hne⟩

theorem connView_endPoll (ha : a ≠ 0#64) : connView a (endPoll s) = connView a s := by
  unfold endPoll
  dsimp only
  split_ifs with hpend
  · obtain ⟨events, htx⟩ := lazyUpdatePrevConnTxev_eq (lazyUpdatePrevConnRxev s)
    rw [htx]
    exact connView_settled s default events rfl
  · obtain ⟨events, htx⟩ := lazyUpdatePrevConnTxev_eq s
    rw [htx]
    by_cases hc : s.locals.cachedConn = a
    · -- the cached connection has nothing pending
      have h0 : s.locals.cachedRxBump = 0#64 := by
        by_contra hne
        exact hpend ⟨fun h => ha (hc.symm.trans h), hne⟩
      unfold connView credit
      simp only [h0]
      simp [show (default : PollLocals).cachedRxBump = 0#64 from rfl]
    · exact connView_locals s default hc rfl

end

theorem connView_endPoll_if (last : Bool) (ha : a ≠ 0#64) :
    connView a (if last then endPoll s else s) = connView a s := by
  cases last
  · rfl
  · exact connView_endPoll s ha

/-! ### The transmit side -/

theorem syncGoBack_sameRx (c : EtranConn) (pos : U32) : (syncGoBack c pos).1.SameRx c := by
  unfold syncGoBack
  dsimp only
  split_ifs <;> exact ⟨rfl, rfl, rfl, rfl, rfl⟩

theorem syncState_sameRx (t : ThreadCtx) (conn : U64) (c : EtranConn) (p : RxPkt) :
    (syncState t conn c p).2.1.SameRx c := by
  have hback := syncGoBack_sameRx c p.md.ackBytes
  unfold syncState
  dsimp only
  generalize syncGoBack c p.md.ackBytes = r at hback
  obtain ⟨h1, h2, h3, h4, h5⟩ := hback
  split_ifs <;> exact ⟨h1, h2, h3, h4, h5⟩

theorem syncState_mtp (t : ThreadCtx) (conn : U64) (c : EtranConn) (p : RxPkt) :
    (syncState t conn c p).1.mtp = t.mtp := by
  unfold syncState
  dsimp only
  cases (syncGoBack c p.md.ackBytes).2 <;> split_ifs <;> rfl

theorem connView_congr {s' : Thread} (hmtp : s.tctx.mtp = s'.tctx.mtp) (hconns : s.conns = s'.conns)
    (hconn : s.locals.cachedConn = s'.locals.cachedConn)
    (hbump : s.locals.cachedRxBump = s'.locals.cachedRxBump) : connView a s = connView a s' := by
  unfold connView credit
  rw [hmtp, hconns, hconn, hbump]

section

variable (s : Thread) (p : RxPkt)

theorem connView_syncConn : connView a (syncConn s p) = connView a s := by
  have hrx := syncState_sameRx s.tctx p.md.conn (s.conns p.md.conn) p
  have hmtp := syncState_mtp s.tctx p.md.conn (s.conns p.md.conn) p
  unfold syncConn
  dsimp only
  generalize syncState s.tctx p.md.conn (s.conns p.md.conn) p = r at hrx hmtp
  obtain ⟨t, c, sendEvent⟩ := r
  have htctx : connView a { s with tctx := t } = connView a s := connView_congr hmtp rfl rfl rfl
  have hrx' : c.SameRx (({ s with tctx := t } : Thread).conns p.md.conn) := hrx
  have hset := (connView_setConn_of_sameRx hrx').trans htctx
  -- the event for the application is out of view as well
  cases sendEvent <;> exact hset

theorem syncConn_locals : (syncConn s p).locals.cachedConn = s.locals.cachedConn := by
  unfold syncConn
  dsimp only
  split_ifs <;> rfl

theorem connView_noteQueue : connView a (noteQueue s p) = connView a s := by
  unfold noteQueue
  split_ifs
  · have hrx : EtranConn.SameRx { s.conns p.md.conn with forceRxBump := true }
        (s.conns p.md.conn) := ⟨rfl, rfl, rfl, rfl, rfl⟩
    exact (connView_congr rfl rfl rfl rfl).trans (connView_setConn_of_sameRx hrx)
  · exact connView_congr rfl rfl rfl rfl

theorem noteQueue_locals : (noteQueue s p).locals = s.locals := by
  unfold noteQueue
  split_ifs <;> rfl

end

theorem connView_bcacheProd (s : Thread) (addr : U64) :
    connView a { s with tctx := s.tctx.bcacheProd addr } = connView a s := rfl

end

/-! ## Filing a payload -/

def filedBytes (m : MtpThread) (p : RxPkt) : U64 :=
  let pyLen := p.md.plen.setWidth 32
  let (startSeq, endSeq) := parsePacket p pyLen
  if ¬ m.followingPackets then pyLen.setWidth 64
  else if m.expectedSeq = startSeq then
    if m.oooLen > 0#32 ∧ endSeq = m.oooStart then (pyLen + m.oooLen).setWidth 64
    else pyLen.setWidth 64
  else 0#64

structure Filed.Same (r r' : Filed) : Prop where
  mtp : r.mtp = r'.mtp
  pkt : r.pkt = r'.pkt
  rxPkts : r.conn.rxAddrs.map Prod.snd = r'.conn.rxAddrs.map Prod.snd
  oooPkts : r.conn.oooRxAddrs.map Prod.snd = r'.conn.oooRxAddrs.map Prod.snd

section

variable (m : MtpThread) (p : RxPkt) (c : EtranConn) (addr bump : U64)

theorem filePkt_bump : (filePkt m p c addr bump).bump = bump + filedBytes m p := by
  unfold filePkt mtpAddDataSegWrapper filedBytes
  dsimp only
  split_ifs with hfollow hexp hclose
  · rfl
  · rfl
  · -- held back in whichever place: no credit
    unfold fileOutOfOrder
    split_ifs <;> simp
  · rfl

theorem filePkt_conn : (filePkt m p c addr bump).conn =
    { c with rxAddrs := (filePkt m p c addr bump).conn.rxAddrs
             oooRxAddrs := (filePkt m p c addr bump).conn.oooRxAddrs } := by
  unfold filePkt mtpAddDataSegWrapper fileOutOfOrder
  dsimp only
  split_ifs <;> rfl

variable {c}

theorem filePkt_same {c' : EtranConn} (addr' bump' : U64)
    (hrx : c.rxAddrs.map snd = c'.rxAddrs.map snd)
    (hooo : c.oooRxAddrs.map snd = c'.oooRxAddrs.map snd) :
    (filePkt m p c addr bump).Same (filePkt m p c' addr' bump') := by
  unfold filePkt mtpAddDataSegWrapper
  dsimp only
  split_ifs with hfollow hexp hclose
  · exact ⟨rfl, rfl, by simp [fileClosing, inOrderReceive, hrx, hooo], rfl⟩
  · exact ⟨rfl, rfl, by simp [fileInOrder, inOrderReceive, hrx], hooo⟩
  · unfold fileOutOfOrder
    split_ifs
    · exact ⟨rfl, rfl, hrx, by simp [outOfOrderReceive, hooo]⟩
    · exact ⟨rfl, rfl, hrx, by simp [outOfOrderReceive, hooo]⟩
    · exact ⟨rfl, rfl, hrx, by simp [outOfOrderReceive, hooo]⟩
    · exact ⟨rfl, rfl, hrx, hooo⟩
  · exact ⟨rfl, rfl, by simp [fileFirst, inOrderReceive, hrx], hooo⟩

end

theorem toConn_rxPkts (v : ConnView) : v.toConn.rxAddrs.map snd = v.rxPkts := by
  simp [ConnView.toConn, Function.comp_def]

theorem toConn_oooPkts (v : ConnView) : v.toConn.oooRxAddrs.map snd = v.oooPkts := by
  simp [ConnView.toConn, Function.comp_def]

theorem connView_filePayload (s : Thread) (addr : U64) (p : RxPkt)
    (hcached : s.locals.cachedConn = p.md.conn) :
    connView p.md.conn (filePayload s addr p).1 = ((connView p.md.conn s).file p).1 ∧
      (filePayload s addr p).2 = ((connView p.md.conn s).file p).2 := by
  have hsame := filePkt_same s.tctx.mtp p addr s.locals.cachedRxBump 0#64 0#64
    (toConn_rxPkts (connView p.md.conn s)).symm (toConn_oooPkts (connView p.md.conn s)).symm
  have hbump := filePkt_bump s.tctx.mtp p (s.conns p.md.conn) addr s.locals.cachedRxBump
  have hbump' := filePkt_bump s.tctx.mtp p (connView p.md.conn s).toConn 0#64 0#64
  have hconn := filePkt_conn s.tctx.mtp p (s.conns p.md.conn) addr s.locals.cachedRxBump
  refine ⟨?_, hsame.pkt⟩
  have hown : (filePayload s addr p).1.conns p.md.conn =
      (filePkt s.tctx.mtp p (s.conns p.md.conn) addr s.locals.cachedRxBump).conn :=
    setConn_conns_self
  apply ConnView.ext
  case mtp => exact hsame.mtp
  case rxbHead => simp only [connView, hown, ConnView.file]; rw [hconn]
  case rxBufSize => simp only [connView, hown, ConnView.file]; rw [hconn]
  case rxPkts => simp only [connView, hown]; exact hsame.rxPkts
  case oooPkts => simp only [connView, hown]; exact hsame.oooPkts
  case credit =>
    -- the payload's bytes are pending in the locals of the poll
    have hlocals : (filePayload s addr p).1.locals = { s.locals with cachedRxBump :=
        (filePkt s.tctx.mtp p (s.conns p.md.conn) addr s.locals.cachedRxBump).bump } := rfl
    have hused : ((filePayload s addr p).1.conns p.md.conn).rxbUsed =
        (s.conns p.md.conn).rxbUsed := by rw [hown, hconn]
    show credit (filePayload s addr p).1 p.md.conn = credit s p.md.conn + _
    unfold credit
    rw [hused, hlocals, hbump]
    simp only [hcached, if_true]
    change _ = _ + BitVec.setWidth 32
      (filePkt s.tctx.mtp p (connView p.md.conn s).toConn 0#64 0#64).bump
    rw [hbump', BitVec.setWidth_add _ _ (by decide), BitVec.zero_add, BitVec.add_assoc]

/-! ## `handle_rx` -/

theorem connView_noPayload_self (s : Thread) (addr : U64) (p : RxPkt) :
    connView p.md.conn (noPayload s addr p) = (connView p.md.conn s).clearOoo p := by
  unfold noPayload ConnView.clearOoo
  split_ifs
  · unfold connView credit
    simp only [setConn_conns_self]
    rfl
  · rfl

theorem connView_noPayload_of_ne {a : U64} (s : Thread) (addr : U64)
    (h : p.md.conn ≠ a) : connView a (noPayload s addr p) = connView a s := by
  unfold noPayload
  split_ifs
  · exact (connView_setConn_of_ne h : connView a (s.setConn _ _) = _)
  · rfl

theorem connView_handleRx_self (s : Thread) (addr : U64) (p : RxPkt) (last : Bool)
    (hnull : p.md.conn ≠ 0#64) (hpoison : p.md.conn ≠ poison64) :
    connView p.md.conn (handleRx s addr p last).1 = ((connView p.md.conn s).packet p).1 ∧
      (handleRx s addr p last).2 = ((connView p.md.conn s).packet p).2 := by
  unfold handleRx
  simp only [hnull, hpoison, or_self, if_false, connView_endPoll_if last hnull]
  unfold handleConnRx ConnView.packet
  split_ifs with hqid hplen
  · refine ⟨?_, rfl⟩
    rw [connView_bcacheProd, connView_syncConn, connView_cacheConn s _ hnull]
  · refine ⟨?_, rfl⟩
    rw [connView_noPayload_self, connView_syncConn, connView_noteQueue,
      connView_cacheConn s _ hnull]
  · have hcached : (syncConn (noteQueue (cacheConn s p.md.conn) p) p).locals.cachedConn =
        p.md.conn := by
      rw [syncConn_locals, noteQueue_locals, cacheConn_cachedConn]
    have hfile := connView_filePayload _ addr p hcached
    rwa [connView_syncConn, connView_noteQueue, connView_cacheConn s _ hnull] at hfile

/-! ### Packets of other connections -/

/-- The packet has no payload, or one out of order and not adjacent to the interval. -/
def Inert (m : MtpThread) (p : RxPkt) : Prop :=
  let (startSeq, endSeq) := parsePacket p (p.md.plen.setWidth 32)
  p.md.conn = 0#64 ∨ p.md.conn = poison64 ∨ p.md.qid = poison32 ∨ p.md.plen = poison16 ∨
    (m.followingPackets ∧ m.expectedSeq ≠ startSeq ∧ m.oooLen ≠ 0#32 ∧ endSeq ≠ m.oooStart ∧
      m.oooStart + m.oooLen ≠ startSeq)
deriving Decidable

theorem connView_filePayload_of_ne {a : U64} {s : Thread} (addr : U64)
    (hcached : s.locals.cachedConn = p.md.conn) (hne : p.md.conn ≠ a) :
    connView a (filePayload s addr p).1 =
      { connView a s with
        mtp := (filePkt s.tctx.mtp p (s.conns p.md.conn) addr s.locals.cachedRxBump).mtp } := by
  unfold filePayload
  rw [connView_setConn_of_ne hne]
  unfold connView credit
  simp [hcached, hne]

theorem prepared_mtp (s : Thread) (p : RxPkt) (hnull : p.md.conn ≠ 0#64) :
    (syncConn (noteQueue (cacheConn s p.md.conn) p) p).tctx.mtp = s.tctx.mtp := by
  have hview : connView p.md.conn (syncConn (noteQueue (cacheConn s p.md.conn) p) p) =
      connView p.md.conn s := by
    rw [connView_syncConn, connView_noteQueue, connView_cacheConn s _ hnull]
  exact congrArg ConnView.mtp hview

theorem filePkt_mtp_of_inert {m : MtpThread} (c : EtranConn) (addr bump : U64)
    (hinert : Inert m p) (hnull : p.md.conn ≠ 0#64) (hpoison : p.md.conn ≠ poison64)
    (hqid : p.md.qid ≠ poison32) (hplen : p.md.plen ≠ poison16) :
    (filePkt m p c addr bump).mtp = m := by
  unfold Inert at hinert
  simp only [hnull, hpoison, hqid, hplen, false_or] at hinert
  obtain ⟨hfollow, hexp, hooo, hend, hstart⟩ := hinert
  simp [filePkt, mtpAddDataSegWrapper, fileOutOfOrder, hfollow, hexp, hooo, hend, hstart]

theorem connView_handleConnRx_of_inert {a : U64} {s : Thread} (addr : U64)
    (ha : a ≠ 0#64) (hne : p.md.conn ≠ a) (hinert : Inert s.tctx.mtp p)
    (hnull : p.md.conn ≠ 0#64) (hpoison : p.md.conn ≠ poison64) :
    connView a (handleConnRx s addr p).1 = connView a s := by
  have hprep : connView a (syncConn (noteQueue (cacheConn s p.md.conn) p) p) = connView a s := by
    rw [connView_syncConn, connView_noteQueue, connView_cacheConn s _ ha]
  unfold handleConnRx
  split_ifs with hqid hplen
  · rw [connView_bcacheProd, connView_syncConn, connView_cacheConn s _ ha]
  · rw [connView_noPayload_of_ne _ _ hne, hprep]
  · have hcached : (syncConn (noteQueue (cacheConn s p.md.conn) p) p).locals.cachedConn =
        p.md.conn := by
      rw [syncConn_locals, noteQueue_locals, cacheConn_cachedConn]
    have hmtp : (connView a s).mtp = s.tctx.mtp := rfl
    rw [connView_filePayload_of_ne addr hcached hne, prepared_mtp s p hnull, hprep,
      filePkt_mtp_of_inert _ _ _ hinert hnull hpoison hqid hplen, ← hmtp]

theorem connView_handleRx_of_inert {a : U64} {s : Thread} (addr : U64) (last : Bool)
    (ha : a ≠ 0#64) (hne : p.md.conn ≠ a) (hinert : Inert s.tctx.mtp p) :
    connView a (handleRx s addr p last).1 = connView a s := by
  unfold handleRx
  rw [connView_endPoll_if last ha]
  split_ifs with hnull
  · rfl
  · rw [not_or] at hnull
    exact connView_handleConnRx_of_inert addr ha hne hinert hnull.2 hnull.1

/-! ## `conn_recv` -/

theorem peekLoop_same (hit : U32 → Bool) (size : U32) (count copied : Nat)
    {l l' : List (U64 × RxPkt)} (h : l.map snd = l'.map snd) :
    (peekLoop hit size count copied l).copied = (peekLoop hit size count copied l').copied ∧
    (peekLoop hit size count copied l).bytes = (peekLoop hit size count copied l').bytes ∧
    (peekLoop hit size count copied l).left.map snd =
      (peekLoop hit size count copied l').left.map snd := by
  induction l generalizing l' copied with
  | nil =>
    have hl' : l' = [] := List.map_eq_nil_iff.mp h.symm
    subst hl'
    exact ⟨rfl, rfl, rfl⟩
  | cons x rest ih =>
    obtain ⟨x', rest', rfl, hx, hrest⟩ := List.map_eq_cons_iff.mp h.symm
    obtain ⟨addr, p⟩ := x
    obtain ⟨addr', p'⟩ := x'
    obtain rfl : p' = p := hx
    have hskip := ih copied hrest.symm
    have htake := ih (copied + min p'.md.plen.toNat (count - copied)) hrest.symm
    simp only [peekLoop]
    split_ifs
    · exact ⟨rfl, rfl, hrest.symm⟩
    · exact ⟨htake.1, by rw [htake.2.1], htake.2.2⟩
    · exact ⟨rfl, rfl, by simp [hrest]⟩
    · exact ⟨rfl, rfl, by simp [hrest]⟩
    · exact ⟨hskip.1, hskip.2.1, by simp [hskip.2.2]⟩

theorem peekLoop_copied_le (hit : U32 → Bool) (size : U32) {count copied : Nat}
    (l : List (U64 × RxPkt)) (h : copied ≤ count) :
    (peekLoop hit size count copied l).copied ≤ count := by
  induction l generalizing copied with
  | nil => exact h
  | cons x rest ih =>
    have hmin : copied + min x.2.md.plen.toNat (count - copied) ≤ count := by omega
    simp only [peekLoop]
    split_ifs
    · exact hmin
    · exact ih hmin
    · exact hmin
    · exact h
    · exact ih h

theorem rxPeekCountZc_copied_le (c : EtranConn) (count : Nat) :
    (rxPeekCountZc c count).copied ≤ c.rxbUsed.toNat := by
  unfold rxPeekCountZc
  split_ifs
  · exact Nat.zero_le _
  · exact Nat.le_trans (peekLoop_copied_le _ _ _ (Nat.zero_le _)) (Nat.min_le_right _ _)

theorem rxPeekCountZc_same {c c' : EtranConn} (count : Nat) (hhead : c.rxbHead = c'.rxbHead)
    (hused : c.rxbUsed = c'.rxbUsed) (hsize : c.rxBufSize = c'.rxBufSize)
    (hrx : c.rxAddrs.map snd = c'.rxAddrs.map snd) :
    (rxPeekCountZc c count).copied = (rxPeekCountZc c' count).copied ∧
    (rxPeekCountZc c count).bytes = (rxPeekCountZc c' count).bytes ∧
    (rxPeekCountZc c count).left.map snd = (rxPeekCountZc c' count).left.map snd := by
  have hrange : ∀ n, inRange c n = inRange c' n := by
    intro n
    unfold inRange
    rw [hhead, hsize]
  unfold rxPeekCountZc
  rw [hused, hsize]
  split_ifs
  · exact ⟨rfl, rfl, hrx⟩
  · dsimp only
    rw [hrange]
    exact peekLoop_same _ _ _ _ hrx

theorem rxRelease_rx (t : ThreadCtx) (conn : U64) {c : EtranConn} {len : Nat}
    (hlen : len ≤ c.rxbUsed.toNat) :
    (rxRelease t conn c len).1.mtp = t.mtp ∧
    (rxRelease t conn c len).2.SameRx
      { c with
        rxbUsed := c.rxbUsed - BitVec.ofNat 32 len
        rxbHead := advanceHead c.rxBufSize c.rxbHead len } := by
  unfold rxRelease
  rw [if_neg (by omega)]
  dsimp only
  split_ifs <;> exact ⟨rfl, rfl, rfl, rfl, rfl, rfl⟩

theorem connRecv_eq (s : Thread) (conn : U64) (count : Nat) :
    ∃ t c, (connRecv s conn count).1 = { s with tctx := t }.setConn conn c ∧
      t.mtp = s.tctx.mtp ∧
      c.SameRx
        { s.conns conn with
          rxAddrs := (rxPeekCountZc (s.conns conn) count).left
          rxbUsed := (s.conns conn).rxbUsed -
            BitVec.ofNat 32 (rxPeekCountZc (s.conns conn) count).copied
          rxbHead := if (rxPeekCountZc (s.conns conn) count).copied = 0 then (s.conns conn).rxbHead
            else advanceHead (s.conns conn).rxBufSize (s.conns conn).rxbHead
              (rxPeekCountZc (s.conns conn) count).copied } := by
  have hle := rxPeekCountZc_copied_le (s.conns conn) count
  unfold connRecv
  generalize rxPeekCountZc (s.conns conn) count = r at hle
  by_cases h0 : r.copied = 0
  · refine ⟨_, _, rfl, ?_⟩
    simp only [h0, if_true, true_and]
    exact ⟨rfl, by simp, rfl, rfl, rfl⟩
  · obtain ⟨hmtp, hrx⟩ := rxRelease_rx { s.tctx with iobuffer := s.tctx.iobuffer ++ r.freed } conn
      (show r.copied ≤ ({ s.conns conn with rxAddrs := r.left } : EtranConn).rxbUsed.toNat from hle)
    simp only [h0, if_false]
    exact ⟨_, _, rfl, hmtp, hrx⟩

theorem connView_connRecv_self (s : Thread) (a : U64) (count : Nat)
    (hidle : s.locals.cachedRxBump = 0#64) :
    connView a (connRecv s a count).1 = ((connView a s).recv count).1 ∧
      (connRecv s a count).2 = ((connView a s).recv count).2 := by
  have hused : (s.conns a).rxbUsed = (connView a s).toConn.rxbUsed := by
    simp [ConnView.toConn, connView, credit, hidle]
  have hhead : (s.conns a).rxbHead = (connView a s).toConn.rxbHead := rfl
  have hsize : (s.conns a).rxBufSize = (connView a s).toConn.rxBufSize := rfl
  obtain ⟨hcopied, hbytes, hleft⟩ := rxPeekCountZc_same count hhead hused hsize
    (toConn_rxPkts (connView a s)).symm
  refine ⟨?_, hbytes⟩
  obtain ⟨t, c, heq, hmtp, hrx⟩ := connRecv_eq s a count
  rw [heq]
  rw [hcopied] at hrx
  apply ConnView.ext
  case mtp => exact hmtp
  case rxbHead =>
    simp only [connView, setConn_conns_self]
    exact hrx.rxbHead
  case rxBufSize =>
    simp only [connView, setConn_conns_self]
    exact hrx.rxBufSize
  case rxPkts =>
    simp only [connView, setConn_conns_self, hrx.rxAddrs]
    exact hleft
  case oooPkts => simp only [connView, setConn_conns_self, hrx.oooRxAddrs, ConnView.recv]
  case credit =>
    have hcredit : credit ({ s with tctx := t }.setConn a c) a = c.rxbUsed := by
      unfold credit
      rw [setConn_conns_self]
      show c.rxbUsed + (if s.locals.cachedConn = a then s.locals.cachedRxBump.setWidth 32
        else 0#32) = c.rxbUsed
      simp [hidle]
    show credit _ a = _
    rw [hcredit, hrx.rxbUsed, hused]
    rfl

theorem connView_connRecv_of_ne {a conn : U64} (s : Thread) (count : Nat) (hne : conn ≠ a) :
    connView a (connRecv s conn count).1 = connView a s := by
  obtain ⟨t, c, heq, hmtp, -⟩ := connRecv_eq s conn count
  rw [heq, connView_setConn_of_ne hne]
  exact connView_congr hmtp rfl rfl rfl

end MtpXdp.Lib

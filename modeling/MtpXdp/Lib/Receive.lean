import Mathlib.Logic.Function.Basic
import MtpXdp.Ebpf.Headers

/-!
# The Receive Path of the User Library

`handle_rx` (`eTran_posix.cc`) and `mtp_add_data_seg_wrapper` (`funcs_mtp.h`) file
a received frame with its connection; `conn_recv` (`eTran_posix.h`) copies the
bytes to the application. Both are total functions.

The state is that of one application thread. `size_t` values are natural numbers where they cannot
exceed 64 bits; a pointer to a connection is a 64 bit number, `NULL` is zero.
-/

namespace MtpXdp.Lib

open Ebpf

/-! ## Threads and connections -/

def forceRxBumpMask : U32 := 0x80000000#32

def oooClearMask : U32 := 0x20000000#32

/-- The receive buffer size that `mtp_add_data_seg_wrapper` assumes. -/
def mtpRxBufSize : U32 := 524288#32

/-- The metadata, the sequence number of the TCP header in network byte order, and the bytes. -/
structure RxPkt where
  md : RxMeta
  tcpSeq : U32
  frame : List U8
deriving DecidableEq, Inhabited

/-- `struct eTrantcp_connection`. The lists pair a buffer address with the frame in it. -/
structure EtranConn where
  rxbHead : U32
  rxbUsed : U32
  rxbBump : U32
  txbHead : U32
  txbSent : U32
  txbAllocated : U32
  rxBufSize : U32
  txBufSize : U32
  xskBudget : U32
  pendingFreeBytes : U32
  rxAddrs : List (U64 × RxPkt)
  oooRxAddrs : List (U64 × RxPkt)
  inRxBumpPending : Bool
  forceRxBump : Bool
deriving Inhabited

structure MtpThread where
  followingPackets : Bool
  expectedSeq : U32
  oooStart : U32
  oooLen : U32
  lastOffset : U32
  rxNextPos : U32
  rxBufSize : U32
deriving Inhabited

structure ThreadCtx where
  iobuffer : List U64
  cachedNeedfill : U32 → U32
  cachedFqidx : List U32
  freePendingConns : List U64
  rxBumpPendingConns : List U64
  retransmissionConns : List (U64 × U32)
  mtp : MtpThread
deriving Inhabited

/-- `struct eTrantcp_event`, the two kinds that the receive path generates. -/
inductive EtranEvent where
  | connRecved (conn : U64)
  | connSendbuf (conn : U64)

structure PollLocals where
  cachedConn : U64
  cachedRxBump : U64
  cachedSendbufEvent : Bool
deriving Inhabited

/-- One application thread. `retEvents` are the events its polls have returned so far. -/
structure Thread where
  tctx : ThreadCtx
  conns : U64 → EtranConn
  locals : PollLocals
  retEvents : List EtranEvent
deriving Inhabited

def Thread.setConn (s : Thread) (conn : U64) (c : EtranConn) : Thread :=
  { s with conns := Function.update s.conns conn c }

def ThreadCtx.bcacheProd (t : ThreadCtx) (addr : U64) : ThreadCtx :=
  { t with iobuffer := t.iobuffer ++ [addr] }

/-! ## Filing a segment -/

def parsePacket (p : RxPkt) (pyLen : U32) : U32 × U32 :=
  let seqNum := bpfNtohl p.tcpSeq
  (seqNum + (p.md.poff.setWidth 32 - BitVec.ofNat 32 headersLen), seqNum + pyLen)

/-- What `mtp_add_data_seg_wrapper` changes, with the bytes to credit. -/
structure Filed where
  mtp : MtpThread
  conn : EtranConn
  bump : U64
  pkt : RxPkt

def wrapPos (size pos : U32) : U32 := if pos ≥ size then pos - size else pos

def rxPosOf (m : MtpThread) (offset : U32) : U32 :=
  wrapPos m.rxBufSize (m.rxNextPos + (offset - m.lastOffset))

def RxPkt.setPos (p : RxPkt) (pos : U32) : RxPkt := { p with md := { p.md with rxPos := pos } }

def inOrderReceive (c : EtranConn) (addr : U64) (p : RxPkt) : EtranConn :=
  { c with rxAddrs := c.rxAddrs ++ [(addr, p)] }

def outOfOrderReceive (c : EtranConn) (addr : U64) (p : RxPkt) : EtranConn :=
  { c with oooRxAddrs := c.oooRxAddrs ++ [(addr, p)] }

def fileFirst (m : MtpThread) (p : RxPkt) (endSeq pyLen : U32) (c : EtranConn) (addr bump : U64)
    (offset : U32) : Filed :=
  let m := { m with expectedSeq := endSeq, followingPackets := true,
                    rxBufSize := mtpRxBufSize, lastOffset := offset }
  let p := p.setPos (rxPosOf m offset)
  { mtp := m, conn := inOrderReceive c addr p, bump := bump + pyLen.setWidth 64, pkt := p }

def fileClosing (m : MtpThread) (p : RxPkt) (pyLen : U32) (c : EtranConn) (addr bump : U64)
    (offset : U32) : Filed :=
  let bump := bump + (pyLen + m.oooLen).setWidth 64
  -- the held frames are queued before the frame that precedes them in the stream
  let c := { c with rxAddrs := c.rxAddrs ++ c.oooRxAddrs, oooRxAddrs := [] }
  let p := p.setPos (rxPosOf m offset)
  let m := { m with
              lastOffset := offset
              -- the other branches step by the difference of offsets here
              rxNextPos := wrapPos m.rxBufSize (m.rxNextPos + (pyLen + m.oooLen))
              expectedSeq := m.oooStart + m.oooLen
              oooLen := 0#32 }
  { mtp := m, conn := inOrderReceive c addr p, bump := bump, pkt := p }

def fileInOrder (m : MtpThread) (p : RxPkt) (pyLen : U32) (c : EtranConn) (addr bump : U64)
    (offset : U32) : Filed :=
  let p := p.setPos (rxPosOf m offset)
  let m := { m with
              expectedSeq := m.expectedSeq + pyLen
              rxNextPos := wrapPos m.rxBufSize (m.rxNextPos + (offset - m.lastOffset))
              lastOffset := offset }
  { mtp := m, conn := inOrderReceive c addr p, bump := bump + pyLen.setWidth 64, pkt := p }

/-- It starts the out-of-order interval, extends it at either end, or is left alone. -/
def fileOutOfOrder (m : MtpThread) (p : RxPkt) (startSeq endSeq pyLen : U32) (c : EtranConn)
    (addr bump : U64) (offset : U32) : Filed :=
  let p' := p.setPos (rxPosOf m offset)
  let filed (m : MtpThread) : Filed :=
    { mtp := m, conn := outOfOrderReceive c addr p', bump := bump, pkt := p' }
  if m.oooLen = 0#32 then filed { m with oooStart := startSeq, oooLen := pyLen }
  else if endSeq = m.oooStart then
    filed { m with oooStart := startSeq, oooLen := m.oooLen + pyLen }
  else if m.oooStart + m.oooLen = startSeq then filed { m with oooLen := m.oooLen + pyLen }
  else { mtp := m, conn := c, bump := bump, pkt := p }

def mtpAddDataSegWrapper (m : MtpThread) (p : RxPkt) (startSeq endSeq pyLen : U32)
    (c : EtranConn) (addr bump : U64) (offset : U32) : Filed :=
  if ¬ m.followingPackets then fileFirst m p endSeq pyLen c addr bump offset
  else if m.expectedSeq = startSeq then
    if m.oooLen > 0#32 ∧ endSeq = m.oooStart then fileClosing m p pyLen c addr bump offset
    else fileInOrder m p pyLen c addr bump offset
  else fileOutOfOrder m p startSeq endSeq pyLen c addr bump offset

def filePkt (m : MtpThread) (p : RxPkt) (c : EtranConn) (addr bump : U64) : Filed :=
  let pyLen := p.md.plen.setWidth 32
  let (startSeq, endSeq) := parsePacket p pyLen
  mtpAddDataSegWrapper m p startSeq endSeq pyLen c addr bump p.md.rxPos

/-! ## Transmission state -/

def txbBytesAvail (c : EtranConn) : U32 :=
  let free := c.txBufSize - c.txbSent - c.txbAllocated
  let xsk := if c.xskBudget > c.txbSent then c.xskBudget - c.txbSent else 0#32
  if xsk < free then xsk else free

/-- The go-back part of `sync_state`; the second component is `go_back_bytes` if the head moves. -/
def syncGoBack (c : EtranConn) (goBackPos : U32) : EtranConn × Option U32 :=
  -- the recovery mark tells a go-back from a count of acknowledged bytes
  if goBackPos ≠ poison32 ∧ goBackPos &&& recoveryMask ≠ 0#32 then
    let pos := goBackPos &&& ~~~recoveryMask
    if pos ≠ c.txbHead then
      let bytes := if c.txbHead > pos then c.txbHead - pos else c.txBufSize - (pos - c.txbHead)
      ({ c with txbHead := pos
                txbAllocated := c.txbAllocated + bytes
                txbSent := c.txbSent - bytes }, some bytes)
    else (c, none)
  else (c, none)

def syncState (t : ThreadCtx) (conn : U64) (c : EtranConn) (p : RxPkt) :
    ThreadCtx × EtranConn × Bool :=
  let sendEvent : Bool := txbBytesAvail c = 0#32
  let oldTxbSent := c.txbSent
  let (c, goBack) := syncGoBack c p.md.ackBytes
  let t := match goBack with
    | some bytes => { t with retransmissionConns := t.retransmissionConns ++ [(conn, bytes)] }
    | none => t
  let budget := p.md.xskBudgetAvail
  let c := if budget ≠ poison32 ∧ c.xskBudget ≠ budget then { c with xskBudget := budget } else c
  if oldTxbSent ≠ c.txbSent then (t, c, sendEvent)
  else if p.md.ackBytes ≠ poison32 ∧ p.md.ackBytes ≠ 0#32 then
    let t := if c.pendingFreeBytes = 0#32 then
        { t with freePendingConns := t.freePendingConns ++ [conn] } else t
    (t, { c with txbSent := c.txbSent - p.md.ackBytes
                 pendingFreeBytes := c.pendingFreeBytes + p.md.ackBytes }, sendEvent)
  else (t, c, sendEvent)

/-! ## `handle_rx` -/

def lazyUpdatePrevConnRxev (s : Thread) : Thread :=
  let conn := s.locals.cachedConn
  if s.locals.cachedRxBump = 0#64 then s
  else
    let c := s.conns conn
    let s := s.setConn conn { c with rxbUsed := c.rxbUsed + s.locals.cachedRxBump.setWidth 32 }
    { s with retEvents := s.retEvents ++ [.connRecved conn] }

def lazyUpdatePrevConnTxev (s : Thread) : Thread :=
  if s.locals.cachedSendbufEvent then
    { s with retEvents := s.retEvents ++ [.connSendbuf s.locals.cachedConn] }
  else s

def cacheConn (s : Thread) (conn : U64) : Thread :=
  if s.locals.cachedConn ≠ 0#64 ∧ conn ≠ s.locals.cachedConn then
    let s := lazyUpdatePrevConnTxev (lazyUpdatePrevConnRxev s)
    { s with locals := { s.locals with
                          cachedConn := conn, cachedRxBump := 0#64, cachedSendbufEvent := false } }
  else if s.locals.cachedConn = 0#64 then
    { s with locals := { s.locals with cachedConn := conn, cachedRxBump := 0#64 } }
  else s

def syncConn (s : Thread) (p : RxPkt) : Thread :=
  let conn := p.md.conn
  let (t, c, sendEvent) := syncState s.tctx conn (s.conns conn) p
  let s := { s with tctx := t }.setConn conn c
  if sendEvent then { s with locals := { s.locals with cachedSendbufEvent := true } } else s

def noteFill (t : ThreadCtx) (qid : U32) : ThreadCtx :=
  let n := t.cachedNeedfill qid
  { t with cachedNeedfill := Function.update t.cachedNeedfill qid (n + 1#32)
           cachedFqidx := if n = 0#32 then t.cachedFqidx ++ [qid] else t.cachedFqidx }

def noteQueue (s : Thread) (p : RxPkt) : Thread :=
  let conn := p.md.conn
  let s := if p.md.qid &&& forceRxBumpMask ≠ 0#32 then
      s.setConn conn { s.conns conn with forceRxBump := true } else s
  { s with tctx := noteFill s.tctx (p.md.qid &&& ~~~forceRxBumpMask) }

def noPayload (s : Thread) (addr : U64) (p : RxPkt) : Thread :=
  let conn := p.md.conn
  let s := if p.md.oooBump &&& oooClearMask ≠ 0#32 then
      s.setConn conn { s.conns conn with oooRxAddrs := [] } else s
  { s with tctx := s.tctx.bcacheProd addr }

def filePayload (s : Thread) (addr : U64) (p : RxPkt) : Thread × RxPkt :=
  let r := filePkt s.tctx.mtp p (s.conns p.md.conn) addr s.locals.cachedRxBump
  let s := { s with tctx := { s.tctx with mtp := r.mtp }
                    locals := { s.locals with cachedRxBump := r.bump } }
  (s.setConn p.md.conn r.conn, r.pkt)

def handleConnRx (s : Thread) (addr : U64) (p : RxPkt) : Thread × RxPkt :=
  let s := cacheConn s p.md.conn
  if p.md.qid = poison32 then
    -- a notification from the egress program; it has no receive descriptor
    let s := syncConn s p
    ({ s with tctx := s.tctx.bcacheProd addr }, p)
  else
    let s := syncConn (noteQueue s p) p
    if p.md.plen = poison16 then (noPayload s addr p, p)
    else filePayload s addr p

/-- After the label `out`; the locals of `tcp_nic_poll` end with the last packet. -/
def endPoll (s : Thread) : Thread :=
  let s := if s.locals.cachedConn ≠ 0#64 ∧ s.locals.cachedRxBump ≠ 0#64 then
      lazyUpdatePrevConnRxev s else s
  { lazyUpdatePrevConnTxev s with locals := default }

def handleRx (s : Thread) (addr : U64) (p : RxPkt) (last : Bool) : Thread × RxPkt :=
  let (s, p) :=
    if p.md.conn = poison64 ∨ p.md.conn = 0#64 then
      ({ s with tctx := s.tctx.bcacheProd addr }, p)
    else handleConnRx s addr p
  (if last then endPoll s else s, p)

/-! ## `conn_recv` -/

structure Peeked where
  copied : Nat
  bytes : List U8
  freed : List U64
  left : List (U64 × RxPkt)
deriving DecidableEq

def RxPkt.truncate (p : RxPkt) (rxBufSize : U32) (n : Nat) : RxPkt :=
  let pos := p.md.rxPos.toNat + n
  let pos := if pos > rxBufSize.toNat then pos - rxBufSize.toNat else pos
  { p with md := { p.md with
                    poff := p.md.poff + BitVec.ofNat 16 n
                    plen := p.md.plen - BitVec.ofNat 16 n
                    rxPos := BitVec.ofNat 32 pos } }

/-- The loop of `eTran_tcp_rx_peek_count_zc`; `hit` is its test on the position of a frame. -/
def peekLoop (hit : U32 → Bool) (rxBufSize : U32) (count : Nat) :
    Nat → List (U64 × RxPkt) → Peeked
  | copied, [] => { copied := copied, bytes := [], freed := [], left := [] }
  | copied, (addr, p) :: rest =>
    if hit p.md.rxPos then
      let n := min p.md.plen.toNat (count - copied)
      let bytes := (p.frame.drop p.md.poff.toNat).take n
      if n = p.md.plen.toNat then
        if copied + n = count then
          { copied := copied + n, bytes := bytes, freed := [addr], left := rest }
        else
          let r := peekLoop hit rxBufSize count (copied + n) rest
          { r with bytes := bytes ++ r.bytes, freed := addr :: r.freed }
      else
        -- the rest of the frame stays at the front
        { copied := copied + n, bytes := bytes, freed := []
          left := (addr, p.truncate rxBufSize n) :: rest }
    else if copied = count then
      { copied := copied, bytes := [], freed := [], left := (addr, p) :: rest }
    else
      let r := peekLoop hit rxBufSize count copied rest
      { r with left := (addr, p) :: r.left }

def inRange (c : EtranConn) (count : Nat) (pos : U32) : Bool :=
  if c.rxbHead.toNat + count > c.rxBufSize.toNat then
    c.rxbHead.toNat ≤ pos.toNat ∨ pos.toNat < c.rxbHead.toNat + count - c.rxBufSize.toNat
  else c.rxbHead.toNat ≤ pos.toNat ∧ pos.toNat < c.rxbHead.toNat + count

def rxPeekCountZc (c : EtranConn) (count : Nat) : Peeked :=
  if c.rxbUsed = 0#32 then { copied := 0, bytes := [], freed := [], left := c.rxAddrs }
  else
    let count := min count c.rxbUsed.toNat
    peekLoop (inRange c count) c.rxBufSize count 0 c.rxAddrs

/-- The threshold of `eTran_tcp_rx_release` for telling XDP about free space. -/
def bumpThreshold (c : EtranConn) : U32 :=
  let quarter := c.rxBufSize >>> 2
  let wnd := if 0x7FFF8#32 < quarter then 0x7FFF8#32 else quarter
  if 32768#32 < wnd then 32768#32 else wnd

def advanceHead (size head : U32) (n : Nat) : U32 :=
  let head := head + BitVec.ofNat 32 n
  if head > size then head - size else head

def rxRelease (t : ThreadCtx) (conn : U64) (c : EtranConn) (len : Nat) : ThreadCtx × EtranConn :=
  -- more than was received cannot be released
  if c.rxbUsed.toNat < len then (t, c)
  else
    let n := BitVec.ofNat 32 len
    let c := { c with
                rxbUsed := c.rxbUsed - n
                rxbBump := c.rxbBump + n
                rxbHead := advanceHead c.rxBufSize c.rxbHead len }
    if (c.rxbBump > bumpThreshold c ∨ c.forceRxBump) ∧ ¬ c.inRxBumpPending then
      ({ t with rxBumpPendingConns := t.rxBumpPendingConns ++ [conn] },
       { c with inRxBumpPending := true, forceRxBump := false })
    else (t, { c with forceRxBump := false })

def connRecv (s : Thread) (conn : U64) (count : Nat) : Thread × List U8 :=
  let r := rxPeekCountZc (s.conns conn) count
  let c := { s.conns conn with rxAddrs := r.left }
  let t := { s.tctx with iobuffer := s.tctx.iobuffer ++ r.freed }
  let (t, c) := if r.copied = 0 then (t, c) else rxRelease t conn c r.copied
  ({ s with tctx := t }.setConn conn c, r.bytes)

/-! ## Runs of a thread -/

inductive RxStep where
  | packet (addr : U64) (p : RxPkt) (last : Bool)
  | recv (conn : U64) (count : Nat)

def rxStep (s : Thread) : RxStep → Thread
  | .packet addr p last => (handleRx s addr p last).1
  | .recv conn count => (connRecv s conn count).1

inductive AppCall where
  | poll (pkts : List (U64 × RxPkt))
  | recv (conn : U64) (count : Nat)

def withLast {α : Type} : List α → List (α × Bool)
  | [] => []
  | [x] => [(x, true)]
  | x :: y :: rest => (x, false) :: withLast (y :: rest)

def pollSteps (pkts : List (U64 × RxPkt)) : List RxStep :=
  (withLast pkts).map fun x => .packet x.1.1 x.1.2 x.2

def AppCall.steps : AppCall → List RxStep
  | .poll pkts => pollSteps pkts
  | .recv conn count => [.recv conn count]

end MtpXdp.Lib

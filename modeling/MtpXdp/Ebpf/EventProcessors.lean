import MtpXdp.Ebpf.Headers

/-!
# The MTP Event Processors

A translation of `mtp_tcp.h`. A packet is handled by a chain of event
processors that communicate through the connection, the congestion-control
entry and the stack variable `int_out`; here each one is a function on the
record of everything the chain shares. `tcp_tx_process` and `tcp_rx_process` of
`tcp.h` choose the chain, in the MTP build (`MTP_ON` and `BYPASS_RL` defined).
-/

namespace MtpXdp.Ebpf

/-! ## Sequence windows -/

def seqInRange (seq start fin : U32) (excluding : Bool) : Bool :=
  if start ≤ fin then
    if excluding then start < seq && seq ≤ fin else start ≤ seq && seq < fin
  else
    if excluding then start < seq || seq ≤ fin else start ≤ seq || seq < fin

/-- The test `valid` of `tcp_valid_rxseq_ooo`: the interval that starts at `seq` overlaps the
    receive window. -/
def rxseqOverlaps (c : BpfTcpConn) (seq len : U32) : Bool :=
  let expSeqFirst := c.rxNextSeq
  let expSeqLast := c.rxNextSeq + c.rxAvail
  let pktSeqFirst := seq
  let pktSeqLast := seq + len
  seqInRange pktSeqFirst expSeqFirst expSeqLast false ||
    seqInRange pktSeqLast expSeqFirst expSeqLast true ||
    seqInRange expSeqFirst pktSeqFirst pktSeqLast false ||
    seqInRange expSeqLast pktSeqFirst pktSeqLast true

def rxseqTrimStart (c : BpfTcpConn) (seq : U32) : U32 :=
  if seqInRange seq c.rxNextSeq (c.rxNextSeq + c.rxAvail) false then 0#32 else c.rxNextSeq - seq

def rxseqTrimEnd (c : BpfTcpConn) (seq len : U32) : U32 :=
  if seqInRange (seq + len) c.rxNextSeq (c.rxNextSeq + c.rxAvail) true then 0#32
  else seq + len - (c.rxNextSeq + c.rxAvail)

/-- `tcp_valid_rxseq_ooo`: the bytes to trim at both ends, `none` for its error. -/
def tcpValidRxseqOoo (c : BpfTcpConn) (seq len : U32) : Option (U32 × U32) :=
  if rxseqOverlaps c seq len then some (rxseqTrimStart c seq, rxseqTrimEnd c seq len) else none

/-! ## Packet generation -/

def xskBudgetAvail (c : BpfTcpConn) : U32 := c.rxRemoteAvail

def advanceBuf (c : BpfTcpConn) (dataSize : U32) : BpfTcpConn :=
  let pos := c.txNextPos + dataSize
  { c with
    bufCurrSeq := c.bufCurrSeq + dataSize
    txNextPos := if c.txBufSize ≤ pos then pos - c.txBufSize else pos }

def rewindBuf (c : BpfTcpConn) (seqNum : U32) : BpfTcpConn :=
  let goBackBytes := c.bufCurrSeq - seqNum
  { c with
    bufCurrSeq := c.bufCurrSeq - goBackBytes
    txNextPos :=
      if goBackBytes ≤ c.txNextPos then c.txNextPos - goBackBytes
      else c.txBufSize - (goBackBytes - c.txNextPos) }

def goBackMeta (c : BpfTcpConn) (evType : EvType) (md : RxMeta) : RxMeta :=
  -- `go_back_pos` and `ack_bytes` are one field of the union
  let md := { md with
    ackBytes := c.txNextPos
    xskBudgetAvail := xskBudgetAvail c
    rxPos := poison32
    poff := poison16
    plen := poison16 }
  match evType with
  | .timerEvent => { md with
      qid := poison32
      conn := c.opaqueConnection
      ackBytes := md.ackBytes ||| recoveryMask
      oooBump := poison32 }
  | .netEvent => { md with ackBytes := md.ackBytes ||| recoveryMask }
  | .appEvent => md

/-- `mtp_pkt_gen_wrapper`. Header pointers are `none` for `NULL`, through which stores have no
    effect. -/
def mtpPktGenWrapper (segData : Bool) (bp : TCPBP) (c : BpfTcpConn) (p : Option Pkt)
    (dataSize seqNum : U32) (evType : EvType) (md : RxMeta) :
    BpfTcpConn × Option Pkt × RxMeta :=
  -- an unsigned comparison: a go-back across the wrap-around takes this half too
  if segData || c.bufCurrSeq < seqNum then
    let c := advanceBuf c dataSize
    let p := p.map fun p =>
      let p := mtpFillTcpHdr p c 0#16 bp
      { p with ip := fillIpHdr p.ip dataSize c.ecnEnable }
    (c, p, md)
  else
    let c := rewindBuf c seqNum
    (c, p, goBackMeta c evType md)

/-! ## Egress -/

structure EgressCtx where
  ev : AppTimerEvent
  c : BpfTcpConn
  md : RxMeta
  cc : BpfCc
  pkt : Pkt
deriving Inhabited

/-- The pacing step: the earliest departure of a packet of `len` bytes not before `ref`. -/
def desiredTxTs (cc : BpfCc) (ref : U64) (len : U32) : U64 :=
  let nsDelta := 1000000000#64 * len.setWidth 64 / cc.rate.setWidth 64
  let desired := cc.prevDesiredTxTs + nsDelta
  if desired ≤ ref then ref else desired

def sendBp (c : BpfTcpConn) (desired : U64) : TCPBP where
  srcPort := c.localPort
  destPort := c.remotePort
  seqNum := c.txNextSeq
  ackSeq := c.rxNextSeq
  isAck := false
  rwndSize := c.rxAvail.setWidth 16
  desiredTxTs := desired.setWidth 32

def txpOf (c : BpfTcpConn) : U32 := if c.txNextSeq != c.sendUna then 1#32 else 0#32

def sendEp (x : EgressCtx) : EgressCtx :=
  let c := { x.c with dataEnd := x.c.dataEnd + x.ev.dataSize }
  let desired := desiredTxTs x.cc (x.ev.timestamp.setWidth 64) x.ev.dataSize
  let cc := { x.cc with prevDesiredTxTs := desired }
  let (c, p, md) :=
    mtpPktGenWrapper true (sendBp c desired) c (some x.pkt) x.ev.dataSize 0#32 .timerEvent x.md
  let c := { c with txNextSeq := c.txNextSeq + x.ev.dataSize }
  { x with c := c, cc := { cc with txp := txpOf c }, pkt := p.getD x.pkt, md := md }

/-- The flow reset of both go-backs: the outstanding segments count as never sent. -/
def resetConn (c : BpfTcpConn) : BpfTcpConn :=
  let goBackBytes := c.txNextSeq - c.sendUna
  { c with
    txNextSeq := c.txNextSeq - goBackBytes
    rxRemoteAvail := c.rxRemoteAvail + goBackBytes
    dataEnd := c.dataEnd - goBackBytes }

def resetCc (cc : BpfCc) : BpfCc :=
  { cc with
    txp := 0#32
    rate := if cc.cntTxDrops = 0#16 then cc.rate >>> 1 else cc.rate
    cntTxDrops := cc.cntTxDrops + 1#16 }

inductive XdpAction where
  | drop
  | pass
  | tx
  | redirect
deriving DecidableEq

def ackTimeoutXdpEp (x : EgressCtx) : EgressCtx × XdpAction :=
  if x.c.txNextSeq = x.c.sendUna then (x, .drop)
  else
    let c := resetConn { x.c with rxDupackCnt := 0#16 }
    let (c, _, md) := mtpPktGenWrapper false TCPBP.zero c none 0#32 c.sendUna .timerEvent x.md
    ({ x with c := c, cc := resetCc x.cc, md := md }, .pass)

/-! ## Ingress: ACKs -/

structure NetCtx where
  ev : NetEvent
  c : BpfTcpConn
  io : IntermOut
  md : RxMeta
  cc : BpfCc
  ring : AckRing
  ktime : U64
deriving Inhabited

def ackRejected (expAckFirst expAckLast ack : U32) : Bool :=
  if expAckFirst ≤ expAckLast then ack < expAckFirst || expAckLast < ack
  else ack < expAckFirst && expAckLast < ack

def NetEvent.scaledWnd (ev : NetEvent) : U32 := ev.rwndSize <<< tcpWndScale

def countAcked (cc : BpfCc) (c : BpfTcpConn) (numAcked : U32) (ecnMark : Bool) : BpfCc :=
  { cc with
    cntRxAckBytes := cc.cntRxAckBytes + numAcked
    cntRxEcnBytes := if ecnMark then cc.cntRxEcnBytes + numAcked else cc.cntRxEcnBytes
    txp := txpOf c }

def fastRetrRecEp (x : NetCtx) : NetCtx :=
  if ackRejected x.c.sendUna x.c.txNextSeq x.ev.ackSeq then
    -- `num_acked_bytes` keeps what the stack variable held
    { x with io := { x.io with drop := true } }
  else
    let numAcked := x.ev.ackSeq - x.c.sendUna
    let io := { x.io with numAckedBytes := numAcked, drop := false, changeCwnd := true }
    let cc := countAcked x.cc x.c numAcked x.ev.ecnMark
    if numAcked ≠ 0#32 then
      { x with c := { x.c with rxDupackCnt := 0#16 }, io := io, cc := cc }
    else if x.c.rxRemoteAvail = x.ev.scaledWnd then
      -- `++c->rx_dupack_cnt == 3` is evaluated only when the window matches
      let c := { x.c with rxDupackCnt := x.c.rxDupackCnt + 1#16 }
      if c.rxDupackCnt = 3#16 then
        { x with c := resetConn c, io := { io with changeCwnd := false }, cc := resetCc cc }
      else { x with c := c, io := io, cc := cc }
    else { x with io := io, cc := cc }

def rttSample (ktime : U64) (tsEcr numAcked : U32) : U32 :=
  let rtt := (ktime.setWidth 32 - tsEcr) / 1000#32
  rtt - ((numAcked * 1000000#32).setWidth 64 / linkBandwidth).setWidth 32

def rttUpdate (rttEst rtt : U32) : U32 :=
  if rtt < tcpMaxRtt then
    if rttEst ≠ 0#32 then (rttEst * 7#32 + rtt) / 8#32 else rtt
  else rttEst

def ackNetAccepted (x : NetCtx) : NetCtx :=
  let c :=
    if x.io.numAckedBytes ≠ 0#32 ∨ x.c.rxRemoteAvail < x.ev.scaledWnd then
      { x.c with rxRemoteAvail := x.ev.scaledWnd }
    else x.c
  let cc :=
    if x.ev.tsEcr ≠ 0#32 ∧ x.io.numAckedBytes ≠ 0#32 then
      { x.cc with
        rttEst := rttUpdate x.cc.rttEst (rttSample x.ktime x.ev.tsEcr x.io.numAckedBytes) }
    else x.cc
  { x with c := c, cc := cc }

def mtpTxDataFlush (rmlen : U32) (x : NetCtx) : NetCtx :=
  if 0#32 < rmlen ∨ xskBudgetAvail x.c ≠ 0#32 then
    { x with
      io := { x.io with drop := false }
      md := { x.md with
        ackBytes := rmlen
        xskBudgetAvail := xskBudgetAvail x.c
        rxPos := poison32
        poff := poison16
        plen := poison16 } }
  else x

/-- `ack_net_ep`. The acknowledged length is read from `int_out` whether or not the ACK was
    accepted. -/
def ackNetEp (x : NetCtx) : NetCtx :=
  if x.c.rxDupackCnt = 3#16 then
    -- fast retransmit: user space is told to go back to `send_una`
    let c := { x.c with rxDupackCnt := 0#16 }
    let (c, _, md) := mtpPktGenWrapper false TCPBP.zero c none 0#32 c.sendUna .netEvent x.md
    { x with c := c, io := { x.io with drop := false }, md := md }
  else
    let x := if x.io.drop then x else ackNetAccepted x
    -- from here on the source no longer tests `drop`
    let rmlen := x.io.numAckedBytes
    let c := if 0#32 < rmlen then { x.c with sendUna := x.ev.ackSeq } else x.c
    mtpTxDataFlush rmlen { x with c := c }

/-! ## Ingress: data -/

def verifyTrimDataEp (x : NetCtx) : NetCtx :=
  let io := { x.io with skipDataEps := false, drop := true, triggerAck := true }
  match tcpValidRxseqOoo x.c x.ev.seqNum x.ev.dataLen with
  | none =>
    -- `data_len` stays as it is, although the segment is outside the window
    { x with io := { io with skipDataEps := true, triggerAck := false } }
  | some (trimStart, trimEnd) =>
    let dataLen :=
      if trimStart + trimEnd ≤ x.ev.dataLen then x.ev.dataLen - (trimStart + trimEnd)
      else x.ev.dataLen
    { x with
      io := io
      md := { x.md with
        poff := (BitVec.ofNat 32 headersLen + trimStart).setWidth 16
        plen := dataLen.setWidth 16 }
      ev := { x.ev with dataLen := dataLen, seqNum := x.ev.seqNum + trimStart } }

def detectOooDataEp (x : NetCtx) : NetCtx :=
  if x.io.skipDataEps then x
  else if x.ev.seqNum = x.c.rxNextSeq then x
  else
    let io := { x.io with skipDataEps := true }
    if x.ev.dataLen = 0#32 then { x with io := io }
    else if x.c.rxOooLen = 0#32 then
      -- the first out-of-order segment
      { x with io := io, c := { x.c with rxOooStart := x.ev.seqNum, rxOooLen := x.ev.dataLen } }
    else if x.ev.seqNum + x.ev.dataLen = x.c.rxOooStart then
      -- it joins the interval on the left
      { x with
        io := io
        c := { x.c with rxOooStart := x.ev.seqNum, rxOooLen := x.c.rxOooLen + x.ev.dataLen } }
    else if x.c.rxOooStart + x.c.rxOooLen = x.ev.seqNum then
      -- or on the right
      { x with io := io, c := { x.c with rxOooLen := x.c.rxOooLen + x.ev.dataLen } }
    else
      -- the payload cannot be kept
      { x with io := io, ev := { x.ev with dataLen := 0#32 }, md := { x.md with plen := poison16 } }

def mergeOoo (x : NetCtx) : NetCtx :=
  match tcpValidRxseqOoo x.c x.c.rxOooStart x.c.rxOooLen with
  | none => { x with io := { x.io with triggerAck := false } }
  | some (trimStart, trimEnd) =>
    let c := { x.c with
      rxOooStart := x.c.rxOooStart + trimStart
      rxOooLen := x.c.rxOooLen - (trimStart + trimEnd) }
    if c.rxOooLen ≠ 0#32 ∧ c.rxOooStart = c.rxNextSeq then
      -- the gap is closed: the interval becomes part of the stream
      { x with c := { c with
          rxAvail := c.rxAvail - c.rxOooLen
          rxNextSeq := c.rxNextSeq + c.rxOooLen
          rxOooLen := 0#32 } }
    else { x with c := c }

/-- `flush_ooo_data_ep`, which runs on every segment: its test of `skip_data_eps` is commented out.
    -/
def flushOooDataEp (x : NetCtx) : NetCtx :=
  let c :=
    if x.c.rxRemoteAvail < x.ev.scaledWnd then { x.c with rxRemoteAvail := x.ev.scaledWnd }
    else x.c
  let c :=
    if x.ev.dataLen ≠ 0#32 ∧ c.txNextTs = 0#32 then { c with txNextTs := x.ev.tsVal } else c
  if x.ev.dataLen ≠ 0#32 then
    -- also for a segment that was rejected or recorded as out of order
    let c := { c with
      rxAvail := c.rxAvail - x.ev.dataLen
      rxNextSeq := c.rxNextSeq + x.ev.dataLen }
    if c.rxOooLen ≠ 0#32 then mergeOoo { x with c := c } else { x with c := c }
  else { x with c := c }

def mtpAddDataSegWrapper (dataLen offset : U32) (x : NetCtx) : NetCtx :=
  if dataLen ≠ 0#32 ∨ xskBudgetAvail x.c ≠ 0#32 then
    let md := { x.md with rxPos := offset, xskBudgetAvail := xskBudgetAvail x.c }
    { x with
      io := { x.io with drop := false }
      md := if dataLen = 0#32 then { md with rxPos := poison32, poff := poison16, plen := poison16 }
            else md }
  else x

def dataNetEp (x : NetCtx) : NetCtx :=
  mtpAddDataSegWrapper x.ev.dataLen (x.ev.seqNum - x.c.recvInitSeq) x

def ackBp (c : BpfTcpConn) (timestamp : U32) : TCPBP where
  srcPort := c.localPort
  destPort := c.remotePort
  seqNum := c.txNextSeq
  ackSeq := c.rxNextSeq
  isAck := true
  rwndSize := c.rxAvail.setWidth 16
  desiredTxTs := timestamp

def sendAck (x : NetCtx) : NetCtx :=
  if x.io.triggerAck then
    let (c, ring) := mtpPktGenForXdpGen (ackBp x.c x.ev.timestamp) x.c x.ring
    { x with c := c, ring := ring }
  else x

/-! ## Chains -/

def ackChain (x : NetCtx) : NetCtx := ackNetEp (fastRetrRecEp x)

def dataChain (x : NetCtx) : NetCtx :=
  sendAck (dataNetEp (flushOooDataEp (detectOooDataEp (verifyTrimDataEp x))))

/-! ## Dispatch -/

structure TxEnv where
  refTs : U64
  nrPktsInTw : U32
deriving Inhabited

structure Flow where
  c : BpfTcpConn
  cc : BpfCc
deriving Inhabited

structure TxResult where
  flow : Flow
  action : XdpAction
  md : RxMeta
  pkt : Pkt

def ccGetDesiredTxTs (cc : BpfCc) (refTs : U64) (payloadLen : U32) : U64 × BpfCc :=
  let desired := desiredTxTs cc refTs payloadLen
  (desired, { cc with prevDesiredTxTs := desired })

/-- `parse_req_to_timer_event`, which leaves its other fields unset, or `parse_req_to_app_event`. -/
def parseReqToEvent (m : TxMeta) : AppTimerEvent :=
  if m.flag &&& flagTo ≠ 0#64 then { type := .timerEvent, dataSize := 0#32, timestamp := 0#32 }
  else { type := .appEvent, dataSize := m.plen, timestamp := 0#32 }

def bumpRxAvail (c : BpfTcpConn) (rxBump : U32) : BpfTcpConn :=
  if rxBump ≠ 0#32 then { c with rxAvail := c.rxAvail + rxBump } else c

/-- The `FLAG_SYNC` branch: a window update if nothing is pending to be sent. -/
def txSync (f : Flow) (env : TxEnv) (wndUpd : Bool) (m : TxMeta) (p : Pkt) : TxResult :=
  if wndUpd then
    let p := fillTcpHdr p f.c (env.refTs.setWidth 32) tcpFlagAck
    { flow := f, action := .tx, md := m.asRx, pkt := { p with ip := fillIpHdr p.ip 0#32 false } }
  else { flow := f, action := .drop, md := m.asRx, pkt := p }

def txAction (f : Flow) (env : TxEnv) (desired : U64) (payloadLen : U32) : XdpAction :=
  if linkBandwidth ≤ f.cc.rate.setWidth 64 ∧ env.nrPktsInTw = 0#32 then .tx
  else if (env.nrPktsInTw = 0#32 ∨ f.c.txNextSeq - f.c.sendUna = payloadLen) ∧ desired ≤ env.refTs
  then .tx
  else .redirect

/-- `tcp_tx_process` after the `FLAG_SYNC` branch. A packet whose `tx_pos` is not the next one is
    dropped. -/
def txDispatch (f : Flow) (env : TxEnv) (m : TxMeta) (ev : AppTimerEvent) (p : Pkt) : TxResult :=
  -- ahead of the dispatch on the event
  if m.txPos ≠ f.c.txNextPos then { flow := f, action := .drop, md := m.asRx, pkt := p }
  else
    let (desired, cc) := ccGetDesiredTxTs f.cc env.refTs m.plen
    let x : EgressCtx :=
      { ev := { ev with timestamp := env.refTs.setWidth 32 }
        c := f.c, md := m.asRx, cc := cc, pkt := p }
    match ev.type with
    | .appEvent =>
      let x := sendEp x
      let f : Flow := { c := x.c, cc := x.cc }
      { flow := f, action := txAction f env desired m.plen, md := x.md, pkt := x.pkt }
    | .timerEvent =>
      let (x, action) := ackTimeoutXdpEp x
      { flow := { c := x.c, cc := x.cc }, action := action, md := x.md, pkt := x.pkt }

def tcpTxProcess (f : Flow) (env : TxEnv) (m : TxMeta) (ev : AppTimerEvent) (p : Pkt) : TxResult :=
  let wndUpd := m.rxBump ≠ 0#32 ∧ f.c.txPending = 0#32
  -- applied also when the packet is dropped below
  let f := { f with c := bumpRxAvail f.c m.rxBump }
  if m.flag &&& flagSync ≠ 0#64 then txSync f env (decide wndUpd) m p
  else txDispatch f env m ev p

def xdpEgressProg (f : Flow) (env : TxEnv) (m : TxMeta) (p : Pkt) : TxResult :=
  if m.slowpath ≠ 0#64 ∧ m.flag &&& flagTo = 0#64 then
    { flow := f, action := .tx, md := m.asRx, pkt := p }
  else tcpTxProcess f env m (parseReqToEvent m) p

/-! ## Ingress -/

/-- `tcp_rx_process`. `x.io` is the uninitialised stack variable; `now` the reference time. -/
def tcpRxProcess (now : U32) (x : NetCtx) : NetCtx × XdpAction :=
  let x := { x with ev := { x.ev with timestamp := now } }
  match x.ev.minorType with
  | .ack =>
    let x := ackChain { x with cc := { x.cc with cntRxAcks := x.cc.cntRxAcks + 1#16 } }
    (x, if x.io.drop then .drop else .redirect)
  | .data =>
    let x := dataChain x
    (x, if x.io.drop then .drop else .redirect)

end MtpXdp.Ebpf

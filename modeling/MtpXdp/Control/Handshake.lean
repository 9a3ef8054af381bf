import MtpXdp.Control.Commands
import MtpXdp.Control.RetransmitTimer

/-!
# The Handshakes of the Control Plane

The packets that reach the micro kernel: `tcp_packet` of `micro_kernel/tcp.cc`, the listeners and
their backlogs, and the packets of a connection.

* `Kernel` is the control plane of `Commands` with the handshake fields of a connection and the
  backlog of a listener, each by address.
* A listener's address is its place in the list of all listeners; a deleted one is marked.
* A pointer to a deleted connection is passed over where the source would read freed memory.
* What goes to `slow_path_send_tcp` is recorded with the connection it was sent for.
-/

namespace MtpXdp.Control

open MtpXdp.Core Ebpf List BitVec

/-! ## Packets -/

def tcpFin : U16 := 0x001#16
def tcpSyn : U16 := 0x002#16
def tcpRst : U16 := 0x004#16
def tcpAck : U16 := 0x010#16
def tcpEce : U16 := 0x040#16
def tcpCwr : U16 := 0x080#16

def tcpMss : U16 := 1460#16
def maxNrConn : Nat := 65536
def ecnEnable : U32 := 1#32

structure TcpOpts where
  mss : Option U16
  ts : Option U32
deriving DecidableEq

/-- `struct pkt_tcp` in host byte order. `opts` is the part of the header after the fixed one. -/
structure PktTcp where
  srcIp : U32
  destIp : U32
  src : U16
  dest : U16
  seqno : U32
  ackno : U32
  flags : U16
  opts : List U8

def PktTcp.tuple (p : PktTcp) : FlowTuple where
  remoteIp := p.srcIp
  remotePort := p.src
  localIp := p.destIp
  localPort := p.dest

def PktTcp.hash (p : PktTcp) : U32 :=
  p.srcIp ^^^ p.destIp ^^^ p.src.setWidth 32 ^^^ p.dest.setWidth 32

def be16 (l : List U8) : U16 := (l.getD 0 0#8 ++ l.getD 1 0#8 : BitVec (8 + 8))
def be32 (l : List U8) : U32 :=
  (l.getD 0 0#8 ++ l.getD 1 0#8 ++ l.getD 2 0#8 ++ l.getD 3 0#8 : BitVec (8 + 8 + 8 + 8))

def parseTcpOptsLoop : Nat → List U8 → TcpOpts → Option TcpOpts
  | 0, _, opts => some opts
  | _ + 1, [], opts => some opts
  | fuel + 1, kind :: rest, opts =>
    if kind = 0#8 then some opts
    else if kind = 1#8 then parseTcpOptsLoop fuel rest opts
    else if kind = 2#8 then
      if rest.getD 0 0#8 ≠ 4#8 then none
      else parseTcpOptsLoop fuel (rest.drop 3) { opts with mss := some (be16 (rest.drop 1)) }
    else if kind = 8#8 then
      if rest.getD 0 0#8 ≠ 10#8 then none
      else parseTcpOptsLoop fuel (rest.drop 9) { opts with ts := some (be32 (rest.drop 1)) }
    else none

def PktTcp.parseTcpOpts (p : PktTcp) : Option TcpOpts :=
  parseTcpOptsLoop p.opts.length p.opts ⟨none, none⟩

structure TcpControl where
  tuple : FlowTuple
  seqno : U32
  ackno : U32
  flags : U16
  tsEcho : Option U32
  mss : Option U16

/-! ## State -/

structure BacklogSlot where
  pkt : PktTcp
  qid : U32

structure SynState where
  synTs : U32
  synAttempts : U16
  nextTimeoutTsc : U64
  listenFd : U32
deriving DecidableEq, Inhabited

/-- In its port's list in `tcp_listeners`, only in its thread's list, or deleted. -/
inductive Listing where
  | listed
  | unlisted
  | deleted
deriving DecidableEq

/-- `APPIN_TCP_CONN_ACCEPT`, `APPIN_TCP_EVENT_NEWCONN`, and `APPIN_TCP_CONN_OPEN` with status 1. -/
inductive HandshakeIn where
  | accept (opaqueConnection : U64) (fd newfd : U32) (status : Int) (rxBufSize txBufSize : U32)
      (remoteIp : U32) (remotePort : U16) (qid : U32) (backlog : Bool)
  | newconn (opaqueListener : U64) (fd : U32) (remoteIp : U32) (remotePort : U16)
  | opened (opaqueConnection : U64) (fd localIp : U32) (localPort : U16)
      (rxBufSize txBufSize qid : U32)

structure Kernel extends ControlPlane where
  syn : Nat → SynState
  backlog : Nat → List BacklogSlot
  listing : Nat → Listing
  sent : List (Nat × TcpControl)
  handshakeOut : List (Tctx × HandshakeIn)

namespace PortPool

theorem nodup_map_ofNat {w first n : Nat} (h : first + n ≤ 2 ^ w) :
    ((range' first n).map (BitVec.ofNat w)).Nodup := by
  refine List.Nodup.map_on ?_ nodup_range'
  intro a ha b hb hab
  rw [mem_range'_1] at ha hb
  have h := congrArg BitVec.toNat hab
  rwa [toNat_ofNat, toNat_ofNat, Nat.mod_eq_of_lt (by omega), Nat.mod_eq_of_lt (by omega)] at h

theorem inRange_range_ports :
    ∀ p ∈ (range' 1000 59001).map (BitVec.ofNat 16), portInRange p := by
  intro p hp
  obtain ⟨a, ha, rfl⟩ := mem_map.mp hp
  rw [mem_range'_1] at ha
  simp only [portInRange, portMin, portMax, Bool.and_eq_true, decide_eq_true_eq, le_def,
    toNat_ofNat]
  omega

def all : PortPool where
  ports := (range' 1000 59001).map (BitVec.ofNat 16)
  nodup := nodup_map_ofNat (by decide)
  inRange := inRange_range_ports

theorem mem_all {p : U16} : p ∈ all.ports ↔ portInRange p := by
  constructor
  · exact all.inRange p
  · intro hp
    simp only [portInRange, portMin, portMax, Bool.and_eq_true, decide_eq_true_eq, le_def,
      toNat_ofNat] at hp
    refine mem_map.mpr ⟨p.toNat, ?_, by simp⟩
    rw [mem_range'_1]
    omega

end PortPool

def ccIdxs : List U32 := (range' 0 65536).map (BitVec.ofNat 32)

def Kernel.boot : Kernel where
  heap := Heap.empty
  tcpConnections := Table.empty
  tcpListeners := []
  tcpHandshakeList := []
  tcpConnectionMap _ := none
  availCcIdxs := ccIdxs
  availablePorts := PortPool.all
  ports _ := ∅
  kernelOut := []
  resets := []
  syn _ := default
  backlog _ := []
  listing _ := .listed
  sent := []
  handshakeOut := []

namespace Kernel

/-! ## Small writes -/

def onPlane (k : Kernel) (f : ControlPlane → ControlPlane) : Kernel :=
  { k with toControlPlane := f k.toControlPlane }

def modifyConn (k : Kernel) (i : Nat) (f : TcpConnection → TcpConnection) : Kernel :=
  { k with heap := k.heap.modify i f }

def modifySyn (k : Kernel) (i : Nat) (f : SynState → SynState) : Kernel :=
  { k with syn := Function.update k.syn i (f (k.syn i)) }

def setPending (k : Kernel) (n : Nat) (pending : Option Nat) : Kernel :=
  { k with tcpListeners := k.tcpListeners.modify n fun l => { l with pendingConn := pending } }

def setBacklog (k : Kernel) (n : Nat) (slots : List BacklogSlot) : Kernel :=
  { k with backlog := Function.update k.backlog n slots }

def pushHandshake (k : Kernel) (i : Nat) : Kernel :=
  { k with tcpHandshakeList := k.tcpHandshakeList ++ [i] }

def notifyHandshake (k : Kernel) (tctx : Tctx) (m : HandshakeIn) : Kernel :=
  { k with handshakeOut := k.handshakeOut ++ [(tctx, m)] }

/-- The packet of `send_tcp_control`. An `mss_opt` of 0 leaves the option out. -/
def controlPkt (c : TcpConnection) (flags : U16) (tsEcho : Option U32) (mss : U16) :
    TcpControl where
  tuple := c.tuple
  seqno := c.localSeq
  ackno := c.remoteSeq
  flags := flags
  tsEcho := tsEcho
  mss := if mss ≠ 0#16 then some mss else none

def sendTcpControl (k : Kernel) (i : Nat) (c : TcpConnection) (flags : U16) (tsEcho : Option U32)
    (mss : U16) : Kernel :=
  { k with sent := k.sent ++ [(i, controlPkt c flags tsEcho mss)] }

/-! ## eBPF state of a connection -/

/-- The map entry `reg_tcp_conn_ebpf` makes, as far as the data path model reads it. -/
def ebpfConn (cfg : Config) (c : TcpConnection) (listen : Bool) (ccIdx : U32) : EbpfConn :=
  let firstSeq := if listen then c.localSeq + 1#32 else c.localSeq
  let maxWnd : U32 := 0xffff#32 <<< tcpWndScale
  let wnd := if maxWnd < cfg.rxBufSize then maxWnd else cfg.rxBufSize
  { conn :=
      { (default : BpfTcpConn) with
        opaqueConnection := c.opaqueConnection
        localIp := c.localIp
        remoteIp := c.remoteIp
        localPort := c.localPort
        remotePort := c.remotePort
        txBufSize := cfg.txBufSize
        rxAvail := wnd
        rxRemoteAvail := wnd
        rxNextSeq := c.remoteSeq
        txNextSeq := firstSeq
        ecnEnable := c.flags &&& ecnEnable ≠ 0#32
        sendUna := firstSeq
        bufCurrSeq := firstSeq
        recvInitSeq := c.remoteSeq }
    ccIdx := ccIdx }

def withCc (ccIdx : U32) (c : TcpConnection) : TcpConnection :=
  { c with
    ccIdx := ccIdx
    algorithm := .dctcpWnd
    ccRate := (windowToRate 2896#32 tcpRttInit).getD 0#32
    dctcpWnd := { ecnRate := 0#32, window := 2896#32, slowstart := true } }

/-- `reg_tcp_conn_ebpf`, and its success if the map takes the entry; an existing one is overwritten.
    -/
def regTcpConnEbpf (cfg : Config) (k : Kernel) (i : Nat) (c : TcpConnection) (listen mapOk : Bool) :
    Kernel × Bool :=
  match k.availCcIdxs with
  | [] => (k, false)
  | idx :: idxs =>
    if mapOk then
      ({ k with
          availCcIdxs := idxs
          tcpConnectionMap :=
            Function.update k.tcpConnectionMap c.tuple (some (ebpfConn cfg c listen idx))
          heap := k.heap.modify i (withCc idx) }, true)
    else ({ k with availCcIdxs := idxs ++ [idx] }, false)

/-! ## Listeners -/

def listenersOn (k : Kernel) (port : U16) : List Nat :=
  (List.range k.tcpListeners.length).filter fun n =>
    k.listing n = .listed ∧ (k.tcpListeners[n]?).map TcpListener.listenPort = some port

def tcpListenerLookup (cfg : Config) (k : Kernel) (p : PktTcp) : Option Nat :=
  if p.destIp ≠ cfg.localIp then none
  else (k.listenersOn p.dest)[p.hash.toNat % (k.listenersOn p.dest).length]?

def takeSyn (cfg : Config) (l : TcpListener) (slot : BacklogSlot) (c : TcpConnection) :
    TcpConnection :=
  { c with
    qid := slot.qid
    remoteIp := slot.pkt.srcIp
    remotePort := slot.pkt.src
    localIp := cfg.localIp
    localPort := l.listenPort
    remoteSeq := slot.pkt.seqno + 1#32
    localSeq := 1#32
    flags :=
      if slot.pkt.flags &&& (tcpEce ||| tcpCwr) = tcpEce ||| tcpCwr then c.flags ||| ecnEnable
      else c.flags }

def awaitTxSynack (k : Kernel) (slot n i : Nat) (l : TcpListener) (c : TcpConnection) : Kernel :=
  let k := k.onPlane fun s => s.regTcpConn slot i c
  let k := k.modifyConn i fun c => { c with status := .waitTxSynack }
  let k := k.modifySyn i fun y => { y with listenFd := l.fd }
  (k.setPending n none).pushHandshake i

def acceptSyn (cfg : Config) (k : Kernel) (slot : Nat) (mapOk : Bool) (n i : Nat) (l : TcpListener)
    (b : BacklogSlot) (ts : U32) : Kernel :=
  let k := k.modifyConn i (takeSyn cfg l b)
  let k := k.modifySyn i fun y => { y with synTs := ts }
  match k.heap.cells i with
  | none => k
  | some c =>
    match k.regTcpConnEbpf cfg i c true mapOk with
    | (k, false) => k
    | (k, true) => k.awaitTxSynack slot n i l c

/-- `tcp_listener_accept`. The two options must be there; the slot is gone even if they are not. -/
def tcpListenerAccept (cfg : Config) (k : Kernel) (slot : Nat) (mapOk : Bool) (n : Nat) : Kernel :=
  match k.tcpListeners[n]?, k.backlog n with
  | some l, b :: rest =>
    match l.pendingConn with
    | none => k
    | some i =>
      match b.pkt.parseTcpOpts with
      | some ⟨some _, some ts⟩ => (k.setBacklog n rest).acceptSyn cfg slot mapOk n i l b ts
      | _ => k.setBacklog n rest
  | _, _ => k

def tcpListenerPkt (cfg : Config) (k : Kernel) (slot : Nat) (mapOk : Bool) (n : Nat) (p : PktTcp)
    (qid : U32) : Kernel :=
  match k.tcpListeners[n]? with
  | none => k
  | some l =>
    if p.flags &&& ~~~(tcpEce ||| tcpCwr) ≠ tcpSyn then k
    else if l.maxBacklogSize.toNat ≤ (k.backlog n).length then k
    -- this listener's backlog has the 4-tuple already
    else if ∃ b ∈ k.backlog n, b.pkt.tuple = p.tuple then k
    else
      let k := k.setBacklog n (k.backlog n ++ [⟨p, qid⟩])
      let k := k.notifyHandshake l.tctx (.newconn l.opaqueListener l.fd p.srcIp p.src)
      if l.pendingConn.isSome then k.tcpListenerAccept cfg slot mapOk n else k

/-! ## Packets of a connection -/

/-- The end of `tcp_synack_pkt` on failure: the connection's state is restored and the timer armed
    again. -/
def synackFailed (k : Kernel) (i : Nat) (deadline : U64) : Kernel :=
  let k := k.modifyConn i fun c => { c with remoteSeq := 0#32, localSeq := 0#32, flags := 0#32 }
  k.modifySyn i fun y => { y with synTs := 0#32, nextTimeoutTsc := deadline }

def takeSynack (p : PktTcp) (c : TcpConnection) : TcpConnection :=
  { c with
    remoteSeq := p.seqno + 1#32
    localSeq := p.ackno
    flags := if p.flags &&& (tcpEce ||| tcpCwr) = tcpEce then c.flags ||| ecnEnable else c.flags }

def openClient (k : Kernel) (i : Nat) (c : TcpConnection) (ts : U32) : Kernel :=
  let k := k.modifyConn i fun c => { c with status := .open }
  let k := k.notifyHandshake c.tctx
    (.opened c.opaqueConnection c.fd c.localIp c.localPort c.rxBufSize c.txBufSize c.qid)
  k.sendTcpControl i c tcpAck (some ts) 0#16

def tcpSynackPkt (cfg : Config) (k : Kernel) (mapOk : Bool) (i : Nat) (p : PktTcp) (opts : TcpOpts)
    (deadline : U64) : Kernel :=
  -- stop timer
  let k := k.modifySyn i fun y => { y with nextTimeoutTsc := 0#64 }
  if p.flags &&& (tcpSyn ||| tcpAck) ≠ tcpSyn ||| tcpAck then k.synackFailed i deadline
  else
    match opts.ts with
    | none => k.synackFailed i deadline
    | some ts =>
      let k := k.modifyConn i (takeSynack p)
      let k := k.modifySyn i fun y => { y with synTs := ts }
      match k.heap.cells i with
      | none => k
      | some c =>
        match k.regTcpConnEbpf cfg i c false mapOk with
        | (k, false) => k.synackFailed i deadline
        | (k, true) => k.openClient i c ts

def tcpConnPut (k : Kernel) (i : Nat) : Kernel :=
  match k.heap.cells i with
  | none => k
  | some c => k.onPlane fun s => s.tcpConnPut i c

def synackFlags (c : TcpConnection) : U16 :=
  if c.flags &&& ecnEnable ≠ 0#32 then tcpSyn ||| tcpAck ||| tcpEce else tcpSyn ||| tcpAck

def tcpConnectionPkt (cfg : Config) (k : Kernel) (mapOk : Bool) (i : Nat) (c : TcpConnection)
    (p : PktTcp) (qid : U32) (opts : TcpOpts) (deadline : U64) : Kernel :=
  -- still 0 where the flags are compared
  let ecnFlags : U16 := 0#16
  if c.status = .waitRxSynack then
    (k.modifyConn i fun c => { c with qid := qid }).tcpSynackPkt cfg mapOk i p opts deadline
  else if c.status = .open ∧ p.flags &&& ~~~ecnFlags = tcpSyn then
    match opts.ts with
    | none => k.tcpConnPut i
    | some ts => k.sendTcpControl i c (synackFlags c) (some ts) tcpMss
  else if c.status = .open ∧ p.flags &&& tcpSyn ≠ 0#16 then k
  else if c.status = .open ∧ p.flags &&& tcpRst ≠ 0#16 then
    (k.onPlane fun s =>
      s.notifyApp c.tctx (.statusClose c.opaqueConnection c.fd 0)).tcpConnPut i
  else if c.status = .closed ∧ p.flags &&& tcpFin ≠ 0#16 then
    k.sendTcpControl i c tcpAck (some 0#32) 0#16
  else k

/-- What the environment decides: the slot of a new entry, the success of a map update, the
    deadline. -/
structure Ambient where
  slot : Nat
  mapOk : Bool
  deadline : U64

def tcpPacket (cfg : Config) (k : Kernel) (a : Ambient) (p : PktTcp) (qid : U32) : Kernel :=
  match p.parseTcpOpts with
  | none => k
  | some opts =>
    match k.tcpConnections.lookup p.tuple with
    | some i =>
      match k.heap.cells i with
      | none => k
      | some c => k.tcpConnectionPkt cfg a.mapOk i c p qid opts a.deadline
    | none =>
      match k.tcpListenerLookup cfg p with
      | some n => k.tcpListenerPkt cfg a.slot a.mapOk n p qid
      | none =>
        -- no connection and no listener: a reset, unless the packet is one
        if p.flags &&& tcpRst ≠ 0#16 then k
        else { k with resets := k.resets ++ [p.tuple] }

end Kernel

end MtpXdp.Control

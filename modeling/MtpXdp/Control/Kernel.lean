import Mathlib.Data.Finset.Sort
import MtpXdp.Control.Handshake

/-!
# The Micro Kernel

The rest of what the control thread does: `tcp_accept` and the dispatch of commands, its polls, and
what happens to an application's connections, listeners and ports when it exits. `Kernel.step` puts
them together: a run of the micro kernel is a list of events.
-/

namespace MtpXdp.Control

open Ebpf

namespace Kernel

/-! ## Commands -/

structure AcceptMsg where
  opaqueListener : U64
  opaqueConnection : U64
  fd : U32
  newfd : U32
  localPort : U16

def acceptedConn (cfg : Config) (tctx : Tctx) (n : Nat) (l : TcpListener) (m : AcceptMsg) :
    TcpConnection :=
  { TcpConnection.new with
    type := .normal
    tctx := tctx
    listener := some n
    opaqueConnection := m.opaqueConnection
    localIp := cfg.localIp
    localPort := l.listenPort
    rxBufSize := cfg.rxBufSize
    txBufSize := cfg.txBufSize
    status := .waitRxSyn
    algorithm := .none
    ccIdx := 0#32
    ccLastRtt := tcpRttInit
    ccRate := ccTimelyInitRate
    qid := poison32
    fd := m.newfd }

def findListener (k : Kernel) (tctx : Tctx) (m : AcceptMsg) : Option Nat :=
  (List.range k.tcpListeners.length).find? fun n =>
    k.listing n ≠ .deleted ∧ ∃ l ∈ k.tcpListeners[n]?,
      l.tctx = tctx ∧ l.listenPort = m.localPort ∧ l.opaqueListener = m.opaqueListener

def tcpAccept (cfg : Config) (k : Kernel) (a : Ambient) (tctx : Tctx) (m : AcceptMsg) :
    Option Kernel :=
  match k.findListener tctx m with
  | none => none
  | some n =>
    match k.tcpListeners[n]? with
    | none => none
    | some l =>
      if l.pendingConn.isSome then none
      else if maxNrConn < k.tcpConnections.entries.length then none
      else
        let i := k.heap.next
        let k := { k with heap := k.heap.alloc (acceptedConn cfg tctx n l m) }
        let k := k.setPending n (some i)
        some (if k.backlog n ≠ [] then k.tcpListenerAccept cfg a.slot a.mapOk n else k)

inductive KernelCmd where
  | tcp (c : TcpCmd)
  | accept (m : AcceptMsg)

def processTcpCmd (cfg : Config) (k : Kernel) (a : Ambient) (tctx : Tctx) : KernelCmd → Kernel
  | .tcp c => k.onPlane fun s => s.processTcpCmd cfg a.slot tctx c
  | .accept m =>
    match k.tcpAccept cfg a tctx m with
    | some k => k
    | none =>
      k.notifyHandshake tctx
        (.accept m.opaqueConnection m.fd m.newfd (-1) 0#32 0#32 0#32 0#16 0#32 false)

/-! ## Polls of the control thread -/

def handshakeEvent (deadline : U64) (k : Kernel) (i : Nat) : Kernel :=
  match k.heap.cells i with
  | none => k
  | some c =>
    match c.status with
    | .waitTxSyn =>
      let k := k.modifyConn i fun c => { c with status := .waitRxSynack }
      let k := k.modifySyn i fun y => { y with nextTimeoutTsc := deadline }
      k.sendTcpControl i c (tcpSyn ||| tcpEce ||| tcpCwr) (some 0#32) tcpMss
    | .waitTxSynack =>
      let k := k.modifyConn i fun c => { c with status := .open }
      let k := k.sendTcpControl i c (synackFlags c) (some (k.syn i).synTs) tcpMss
      k.notifyHandshake c.tctx
        (.accept c.opaqueConnection (k.syn i).listenFd c.fd 0 c.rxBufSize c.txBufSize c.remoteIp
          c.remotePort c.qid (c.listener.any fun n => k.backlog n ≠ []))
    | _ => k

def pollTcpHandshakeEvents (k : Kernel) (deadline : U64) : Kernel :=
  k.tcpHandshakeList.foldl (handshakeEvent deadline) { k with tcpHandshakeList := [] }

structure CcPoll where
  now : U64
  polls : Nat → Poll

/-- The connections `poll_tcp_cc_to` gives up: the handshake timer ran out too often. -/
def TimedOut (k : Kernel) (now : U64) (i : Nat) (c : TcpConnection) : Prop :=
  c.type ≠ .fake ∧ c.status ≠ .open ∧ (k.syn i).nextTimeoutTsc ≠ 0#64 ∧
    (k.syn i).nextTimeoutTsc ≤ now ∧
    ¬ (c.status = .waitRxSynack ∧ (k.syn i).synAttempts ≤ 3#16) ∧ 3#16 < (k.syn i).synAttempts
deriving Decidable

def SynDue (k : Kernel) (now : U64) (i : Nat) (c : TcpConnection) : Prop :=
  c.type ≠ .fake ∧ c.status = .waitRxSynack ∧ (k.syn i).nextTimeoutTsc ≠ 0#64 ∧
    (k.syn i).nextTimeoutTsc ≤ now ∧ (k.syn i).synAttempts ≤ 3#16
deriving Decidable

/-- The loop body of `poll_tcp_cc_to` for the connection at `i`; a failed assertion ends the
    program. -/
def ccToEvent (toUs : U64 → U32) (q : CcPoll) (acc : Kernel × List Nat) (i : Nat) :
    Kernel × List Nat :=
  match acc.1.heap.cells i with
  | none => acc
  | some c =>
    if acc.1.SynDue q.now i c then
      let k := acc.1.modifyConn i fun c => { c with status := .waitTxSyn }
      let k := k.modifySyn i fun y => { y with synAttempts := y.synAttempts + 1#16 }
      (k.pushHandshake i, acc.2)
    else if acc.1.TimedOut q.now i c then (acc.1, acc.2 ++ [i])
    else if c.type ≠ .fake ∧ c.status = .open then
      (acc.1.modifyConn i fun c => ((pollMtp toUs c (q.polls i)).map Polled.conn).getD c, acc.2)
    else acc

def pollTcpCcTo (toUs : U64 → U32) (k : Kernel) (q : CcPoll) : Kernel :=
  let acc := (k.tcpConnections.entries.map Prod.snd).foldl (ccToEvent toUs q) (k, [])
  acc.2.foldl tcpConnPut acc.1

/-! ## Exit of an application -/

def connectionsOf (k : Kernel) (actx : Nat) : List Nat :=
  (k.tcpConnections.entries.map Prod.snd).filter fun i =>
    (k.heap.cells i).map (fun c => c.tctx.actx) = some actx

def freeConnections (k : Kernel) (actx : Nat) : Kernel :=
  (k.connectionsOf actx).foldl tcpConnPut k

def listenersOf (k : Kernel) (actx : Nat) : List Nat :=
  (List.range k.tcpListeners.length).filter fun n =>
    k.listing n = .listed ∧ (k.tcpListeners[n]?).map (fun l => l.tctx.actx) = some actx

/-- `free_listeners` for one listener: its pending connection is deleted with it. -/
def freeListener (k : Kernel) (n : Nat) : Kernel :=
  let pending := (k.tcpListeners[n]?).bind TcpListener.pendingConn
  let k := { k with
    listing := Function.update k.listing n .deleted
    heap := pending.elim k.heap k.heap.free }
  (k.setBacklog n []).setPending n none

/-- The list of a port goes as a whole once one of its listeners was deleted, whoever owns the
    others. -/
def dropPortLists (k : Kernel) (ports : List U16) : Kernel :=
  { k with
    listing := fun n =>
      if k.listing n = .listed ∧ ∃ l ∈ k.tcpListeners[n]?, l.listenPort ∈ ports then .unlisted
      else k.listing n }

def freeListeners (k : Kernel) (actx : Nat) : Kernel :=
  let ns := k.listenersOf actx
  (ns.foldl freeListener k).dropPortLists
    (ns.filterMap fun n => (k.tcpListeners[n]?).map TcpListener.listenPort)

def freePorts (k : Kernel) (actx : Nat) : Kernel :=
  { k with
    availablePorts := (k.ports actx).sort.foldl PortPool.free k.availablePorts
    ports := Function.update k.ports actx ∅ }

/-- `free_app_resources`. It returns early, with the ports taken, when a queue has no socket
    (`xskOk`). -/
def freeAppResources (k : Kernel) (actx : Nat) (xskOk : Bool) : Kernel :=
  let k := (k.freeConnections actx).freeListeners actx
  if xskOk then k.freePorts actx else k

/-! ## Runs -/

inductive Event where
  | command (a : Ambient) (tctx : Tctx) (c : KernelCmd)
  | packet (a : Ambient) (p : PktTcp) (qid : U32)
  | pollHandshakes (deadline : U64)
  | pollCcTo (q : CcPoll)
  | exit (actx : Nat) (xskOk : Bool)

structure Platform where
  cfg : Config
  toUs : U64 → U32

def step (pf : Platform) (k : Kernel) : Event → Kernel
  | .command a tctx c => k.processTcpCmd pf.cfg a tctx c
  | .packet a p qid => k.tcpPacket pf.cfg a p qid
  | .pollHandshakes deadline => k.pollTcpHandshakeEvents deadline
  | .pollCcTo q => k.pollTcpCcTo pf.toUs q
  | .exit actx xskOk => k.freeAppResources actx xskOk

end Kernel

/-! ## A small site

A server on port 1000 of a NIC with address 10.0.0.1 and a client at 10.0.0.2: the events of the
concrete runs. -/

namespace Site

open Kernel

def nic : Platform where
  cfg := { localIp := 0x0A000001#32, rxBufSize := 0x20000#32, txBufSize := 0x20000#32 }
  toUs t := (t / 2000#64).setWidth 32

def ambient : Ambient := { slot := 0, mapOk := true, deadline := 0#64 }

def syn (src flags : U16) : PktTcp where
  srcIp := 0x0A000002#32
  destIp := 0x0A000001#32
  src := src
  dest := 1000#16
  seqno := 41#32
  ackno := 0#32
  flags := flags
  opts := [2#8, 4#8, 5#8, 0xB4#8, 8#8, 10#8, 0#8, 0#8, 0#8, 9#8, 0#8, 0#8, 0#8, 0#8, 0#8, 0#8]

def synReceived (src flags : U16) : Event := .packet ambient (syn src flags) 0#32

def command (actx : Nat) (cmd : KernelCmd) : Event := .command ambient ⟨0, actx⟩ cmd

def bind (actx : Nat) (socket : U64) (reuseport : Bool) : Event :=
  command actx (.tcp (.bind ⟨socket, 3#32, reuseport, 0#32, 1000#16⟩))

def listen (actx : Nat) (socket listener : U64) : Event :=
  command actx (.tcp (.listen ⟨socket, listener, 3#32, 8#32⟩))

def accept (actx : Nat) (listener conn : U64) : Event :=
  command actx (.accept ⟨listener, conn, 3#32, 4#32, 1000#16⟩)

def «open» (actx : Nat) (conn : U64) : Event :=
  command actx (.tcp (.open ⟨conn, 4#32, 0x0A000002#32, 80#16⟩))

def close (actx : Nat) (conn : U64) : Event :=
  command actx (.tcp (.close ⟨conn, 4#32⟩))

end Site

end MtpXdp.Control

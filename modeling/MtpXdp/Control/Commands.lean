import Mathlib.Data.Finset.Erase
import Mathlib.Data.Finset.Insert
import MtpXdp.Core.Store
import MtpXdp.Control.CongestionControl

/-!
# The Commands of the Control Plane

The micro kernel's handlers for the commands of applications (`micro_kernel/tcp.cc`), the release of
a connection, and the port allocation of `control_plane.cc`.

* `struct tcp_connection *` is an address of the heap, not handed out again after a release; a
  lookup passes over an entry that refers to a released one (the source would read freed memory).
* Where a new entry comes in the iteration order of `tcp_connections` is an argument (`slot`).
* `port_is_available[p]` is membership in `available_ports`: the source changes both together.
* `tctx->listeners` and the lists in `tcp_listeners` are one list of all listeners.
-/

namespace MtpXdp.Control

open MtpXdp.Core Ebpf List

variable {pool pool' : PortPool} {port : U16}

/-! ## State -/

def portMin : U16 := 1000#16
def portMax : U16 := 60000#16
def ccTimelyInitRate : U32 := 500000#32

def eaddrinuse : Int := 98

def portInRange (p : U16) : Bool := portMin ≤ p && p ≤ portMax

structure PortPool where
  ports : List U16
  nodup : ports.Nodup
  inRange : ∀ p ∈ ports, portInRange p

structure TcpListener where
  opaqueListener : U64
  tctx : Tctx
  maxBacklogSize : U32
  listenPort : U16
  pendingConn : Option Nat
  c : Nat
  fd : U32

structure EbpfConn where
  conn : BpfTcpConn
  ccIdx : U32

inductive AppIn where
  | connOpen (opaqueConnection : U64) (fd : U32) (status : Int) (localIp : U32) (localPort : U16)
  | statusBind (opaqueConnection : U64) (fd : U32) (status : Int)
  | statusListen (opaqueListener : U64) (fd : U32) (status : Int)
  | statusClose (opaqueConnection : U64) (fd : U32) (status : Int)

structure Config where
  localIp : U32
  rxBufSize : U32
  txBufSize : U32

structure ControlPlane where
  heap : Heap TcpConnection
  tcpConnections : Table FlowTuple Nat
  tcpListeners : List TcpListener
  tcpHandshakeList : List Nat
  tcpConnectionMap : FlowTuple → Option EbpfConn
  availCcIdxs : List U32
  availablePorts : PortPool
  ports : Nat → Finset U16
  kernelOut : List (Tctx × AppIn)
  resets : List FlowTuple

/-! ## Ports -/

namespace PortPool

def alloc (pool : PortPool) (port : U16) : Option PortPool :=
  if ¬ portInRange port then none
  else if port ∉ pool.ports then none
  else
    some
      { ports := pool.ports.filter (· ≠ port)
        nodup := pool.nodup.filter _
        inRange := fun p hp => pool.inRange p (mem_of_mem_filter hp) }

theorem mem_of_alloc (h : pool.alloc port = some pool')
    (p : U16) : p ∈ pool'.ports ↔ p ∈ pool.ports ∧ p ≠ port := by
  unfold alloc at h
  split_ifs at h
  cases h
  simp

theorem not_mem_of_alloc (h : pool.alloc port = some pool') :
    port ∉ pool'.ports := fun hmem => ((mem_of_alloc h port).mp hmem).2 rfl

theorem not_mem_of_alloc_eq_none (h : pool.alloc port = none) : port ∉ pool.ports := by
  intro hmem
  unfold alloc at h
  rw [if_neg (not_not.mpr (pool.inRange port hmem)), if_neg (not_not.mpr hmem)] at h
  cases h

def allocAny (pool : PortPool) : Option (U16 × PortPool) :=
  match pool with
  | ⟨[], _, _⟩ => none
  | ⟨p :: ps, hnodup, hrange⟩ =>
    some (p, ⟨ps, hnodup.of_cons, fun q hq => hrange q (mem_cons_of_mem p hq)⟩)

theorem mem_of_allocAny (h : pool.allocAny = some (port, pool')) (p : U16) :
    p ∈ pool'.ports ↔ p ∈ pool.ports ∧ p ≠ port := by
  obtain ⟨_ | ⟨q, qs⟩, hnodup, hrange⟩ := pool
  · cases h
  · cases h
    have hq := (nodup_cons.mp hnodup).1
    simp only [mem_cons]
    constructor
    · intro hp
      exact ⟨.inr hp, fun heq => hq (heq ▸ hp)⟩
    · rintro ⟨rfl | hp, hne⟩
      · exact absurd rfl hne
      · exact hp

theorem inRange_of_allocAny (h : pool.allocAny = some (port, pool')) : portInRange port := by
  obtain ⟨_ | ⟨q, qs⟩, hnodup, hrange⟩ := pool
  · cases h
  · cases h
    exact hrange _ mem_cons_self

def free (pool : PortPool) (port : U16) : PortPool :=
  if hrange : ¬ portInRange port then pool
  else if hfree : port ∈ pool.ports then pool
  else
    { ports := pool.ports ++ [port]
      nodup := List.nodup_append.mpr
        ⟨pool.nodup, nodup_singleton port, fun p hp q hq h =>
          hfree (List.mem_singleton.mp hq ▸ h ▸ hp)⟩
      inRange := by
        intro p hp
        rcases List.mem_append.mp hp with hp | hp
        · exact pool.inRange p hp
        · rw [List.mem_singleton.mp hp]
          exact not_not.mp hrange }

theorem mem_free {p : U16} :
    p ∈ (pool.free port).ports ↔ p ∈ pool.ports ∨ (portInRange port ∧ p = port) := by
  unfold free
  split_ifs with hrange hfree
  · constructor
    · exact .inl
    · rintro (hp | ⟨-, rfl⟩)
      · exact hp
      · exact hfree
  · simp [hrange]
  · simp [hrange]

theorem mem_foldl_free {ports : List U16} {p : U16} :
    p ∈ (ports.foldl free pool).ports ↔ p ∈ pool.ports ∨ (portInRange p ∧ p ∈ ports) := by
  induction ports generalizing pool with
  | nil => simp
  | cons q qs ih =>
    rw [foldl_cons, ih, mem_free, mem_cons, or_assoc]
    apply or_congr_right
    constructor
    · rintro (⟨hq, rfl⟩ | ⟨hp, hmem⟩)
      · exact ⟨hq, .inl rfl⟩
      · exact ⟨hp, .inr hmem⟩
    · rintro ⟨hp, rfl | hmem⟩
      · exact .inl ⟨hp, rfl⟩
      · exact .inr ⟨hp, hmem⟩

end PortPool

namespace ControlPlane

def recordPort (s : ControlPlane) (actx : Nat) (port : U16) : ControlPlane :=
  { s with ports := Function.update s.ports actx (insert port (s.ports actx)) }

def unrecordPort (s : ControlPlane) (actx : Nat) (port : U16) : ControlPlane :=
  { s with ports := Function.update s.ports actx ((s.ports actx).erase port) }

def freePort (s : ControlPlane) (port : U16) : ControlPlane :=
  { s with availablePorts := s.availablePorts.free port }

/-! ## Lookup, registration and notification -/

/-- `find_tcp_conn_slowpath`: the first connection, of whichever application, with this
    `opaque_connection`. -/
def findTcpConn (s : ControlPlane) (opaqueConnection : U64) : Option (Nat × TcpConnection) :=
  s.tcpConnections.entries.findSome? fun e =>
    match s.heap.cells e.2 with
    | some c => if c.opaqueConnection = opaqueConnection then some (e.2, c) else none
    | none => none

def regTcpConn (s : ControlPlane) (slot i : Nat) (c : TcpConnection) : ControlPlane :=
  { s with tcpConnections := s.tcpConnections.insert slot c.tuple i }

def unregTcpConn (s : ControlPlane) (i : Nat) : ControlPlane :=
  { s with tcpConnections := s.tcpConnections.eraseVal i }

/-- `unreg_tcp_conn_ebpf`. When the lookup fails the zeroed `ebpf_c` makes it free index 0. -/
def unregTcpConnEbpf (s : ControlPlane) (c : TcpConnection) : ControlPlane :=
  { s with
    availCcIdxs := s.availCcIdxs ++ [((s.tcpConnectionMap c.tuple).map EbpfConn.ccIdx).getD 0#32]
    tcpConnectionMap := Function.update s.tcpConnectionMap c.tuple none }

def notifyApp (s : ControlPlane) (tctx : Tctx) (m : AppIn) : ControlPlane :=
  { s with kernelOut := s.kernelOut ++ [(tctx, m)] }

/-! ## Release of a connection -/

/-- `_tcp_connection_close(c, CONN_CLOSED, true)` for a connection made by `tcp_bind`. -/
def closeFake (s : ControlPlane) (i : Nat) (c : TcpConnection) : ControlPlane :=
  let s := (s.unrecordPort c.tctx.actx c.localPort).freePort c.localPort
  -- erased by key, where the other case erases by pointer
  { s with
    tcpConnections := s.tcpConnections.eraseKey c.tuple
    heap := s.heap.free i }

def HasEbpfState (c : TcpConnection) : Prop :=
  c.status = .open ∨ c.status = .waitTxSynack
deriving Decidable

/-- Step 3 of `_tcp_connection_close`: a connection made by `connect()` gives its port back. -/
def releasePort (s : ControlPlane) (c : TcpConnection) : ControlPlane :=
  if c.listener.isNone then (s.unrecordPort c.tctx.actx c.localPort).freePort c.localPort else s

def closeNormal (s : ControlPlane) (i : Nat) (c : TcpConnection) : ControlPlane :=
  let s := s.unregTcpConn i
  let s := if HasEbpfState c then s.unregTcpConnEbpf c else s
  let s := s.releasePort c
  { s with
    resets := s.resets ++ [c.tuple]
    heap := s.heap.free i }

def tcpConnectionClose (s : ControlPlane) (i : Nat) (c : TcpConnection) : ControlPlane :=
  match c.type with
  | .fake => s.closeFake i c
  | .normal => s.closeNormal i c

def tcpConnPut (s : ControlPlane) (i : Nat) (c : TcpConnection) : ControlPlane :=
  let s := { s with heap := s.heap.modify i fun c => { c with ref := c.ref - 1#32 } }
  if c.ref - 1#32 = 0#32 then s.tcpConnectionClose i { c with ref := c.ref - 1#32 } else s

end ControlPlane

/-! ## Command handlers -/

structure OpenMsg where
  opaqueConnection : U64
  fd : U32
  remoteIp : U32
  remotePort : U16

structure BindMsg where
  opaqueConnection : U64
  fd : U32
  reuseport : Bool
  localIp : U32
  localPort : U16

structure ListenMsg where
  opaqueConnection : U64
  opaqueListener : U64
  fd : U32
  backlog : U32

structure CloseMsg where
  opaqueConnection : U64
  fd : U32

/-- The commands of `process_tcp_cmd` other than `APPOUT_TCP_ACCEPT`. -/
inductive TcpCmd where
  | open (m : OpenMsg)
  | bind (m : BindMsg)
  | listen (m : ListenMsg)
  | close (m : CloseMsg)

def TcpConnection.new : TcpConnection := { (default : TcpConnection) with ref := 1#32 }

def TcpConnection.openWith (c : TcpConnection) (cfg : Config) (tctx : Tctx) (m : OpenMsg)
    (localPort : U16) : TcpConnection :=
  { c with
    type := .normal
    tctx := tctx
    listener := none
    reuseport := false
    opaqueConnection := m.opaqueConnection
    fd := m.fd
    remoteIp := m.remoteIp
    remotePort := m.remotePort
    localIp := cfg.localIp
    localPort := if localPort ≠ 0#16 then localPort else c.localPort
    rxBufSize := cfg.rxBufSize
    txBufSize := cfg.txBufSize
    status := .waitTxSyn
    algorithm := .none
    ccIdx := poison32
    ccLastRtt := tcpRttInit
    ccRate := ccTimelyInitRate
    qid := poison32
    flags := 0#32
    remoteSeq := 0#32
    localSeq := 0#32 }

/-- The connection `tcp_bind` makes. Its addresses are cut out of the opaque value. -/
def TcpConnection.bound (tctx : Tctx) (m : BindMsg) : TcpConnection :=
  { TcpConnection.new with
    type := .fake
    reuseport := m.reuseport
    fd := m.fd
    tctx := tctx
    localPort := m.localPort
    remotePort := m.opaqueConnection.setWidth 16
    localIp := ((m.opaqueConnection >>> 32).setWidth 16).setWidth 32
    remoteIp := ((m.opaqueConnection >>> 16).setWidth 16).setWidth 32
    opaqueConnection := m.opaqueConnection
    flags := 0#32 }

def TcpListener.for (tctx : Tctx) (m : ListenMsg) (i : Nat) (c : TcpConnection) : TcpListener where
  opaqueListener := m.opaqueListener
  tctx := tctx
  maxBacklogSize := m.backlog
  listenPort := c.localPort
  pendingConn := none
  c := i
  fd := c.fd

namespace ControlPlane

def startHandshake (s : ControlPlane) (slot : Nat) (tctx : Tctx) (i : Nat) (c : TcpConnection) :
    ControlPlane :=
  let s := s.regTcpConn slot i c
  let s := { s with tcpHandshakeList := s.tcpHandshakeList ++ [i] }
  s.notifyApp tctx (.connOpen c.opaqueConnection c.fd 0 c.localIp c.localPort)

def tcpOpen (cfg : Config) (s : ControlPlane) (slot : Nat) (tctx : Tctx) (m : OpenMsg) :
    ControlPlane × Int :=
  match s.findTcpConn m.opaqueConnection with
  | some (i, c) =>
    -- whoever owns the connection found, the sender's thread becomes its owner
    let s' := { s with heap := s.heap.modify i fun c => c.openWith cfg tctx m 0#16 }
    (s'.startHandshake slot tctx i (c.openWith cfg tctx m 0#16), 0)
  | none =>
    -- no bind() called for this connection before
    match s.availablePorts.allocAny with
    | none => (s, -1)
    | some (port, pool) =>
      let c := TcpConnection.new.openWith cfg tctx m port
      let s' := { s with availablePorts := pool, heap := s.heap.alloc c }
      ((s'.recordPort tctx.actx port).startHandshake slot tctx s.heap.next c, 0)

def bindConn (s : ControlPlane) (slot : Nat) (tctx : Tctx) (m : BindMsg) : ControlPlane :=
  let c := TcpConnection.bound tctx m
  let s' := { s with heap := s.heap.alloc c }
  let s' := s'.recordPort tctx.actx m.localPort
  let s' := s'.regTcpConn slot s.heap.next c
  s'.notifyApp tctx (.statusBind m.opaqueConnection m.fd 0)

def tcpBind (s : ControlPlane) (slot : Nat) (tctx : Tctx) (m : BindMsg) : ControlPlane × Int :=
  match s.findTcpConn m.opaqueConnection with
  | some _ => (s, -eaddrinuse)
  | none =>
    match s.availablePorts.alloc m.localPort with
    | some pool => ({ s with availablePorts := pool }.bindConn slot tctx m, 0)
    | none =>
      -- the port may be shared with the application's own connections only
      if m.reuseport ∧ m.localPort ∈ s.ports tctx.actx then (s.bindConn slot tctx m, 0)
      else (s, -eaddrinuse)

def tcpListen (s : ControlPlane) (tctx : Tctx) (m : ListenMsg) : ControlPlane × Int :=
  match s.findTcpConn m.opaqueConnection with
  | none => (s, -1)
  | some (i, c) =>
    -- only a connection made by bind() can be listened on
    if c.type ≠ .fake then (s, -1)
    else
      let s' := { s with tcpListeners := s.tcpListeners ++ [TcpListener.for tctx m i c] }
      (s'.notifyApp tctx (.statusListen m.opaqueListener c.fd 0), 0)

def tcpClose (s : ControlPlane) (tctx : Tctx) (m : CloseMsg) : ControlPlane × Int :=
  match s.findTcpConn m.opaqueConnection with
  | none => (s, -1)
  | some (i, c) =>
    ((s.tcpConnPut i c).notifyApp tctx (.statusClose m.opaqueConnection m.fd 1), 0)

def reportFailure (r : ControlPlane × Int) (tctx : Tctx) (m : AppIn) : ControlPlane :=
  if r.2 ≠ 0 then r.1.notifyApp tctx m else r.1

def processTcpCmd (cfg : Config) (s : ControlPlane) (slot : Nat) (tctx : Tctx) :
    TcpCmd → ControlPlane
  | .open m =>
    reportFailure (s.tcpOpen cfg slot tctx m) tctx
      (.connOpen m.opaqueConnection m.fd (-1) 0#32 0#16)
  | .bind m => reportFailure (s.tcpBind slot tctx m) tctx (.statusBind m.opaqueConnection m.fd (-1))
  | .listen m => reportFailure (s.tcpListen tctx m) tctx (.statusListen m.opaqueListener m.fd (-1))
  | .close m => reportFailure (s.tcpClose tctx m) tctx (.statusClose m.opaqueConnection m.fd (-1))

end ControlPlane

end MtpXdp.Control

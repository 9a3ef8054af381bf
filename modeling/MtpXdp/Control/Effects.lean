import MtpXdp.Control.Kernel

/-!
# What an Event Can Do to the Micro Kernel

One inversion per handler: the cases in which it ends, and the state it leaves
in each. The invariants of the micro kernel are proved over these cases and do
not look into the handlers.
-/

namespace MtpXdp.Control

open MtpXdp.Core Ebpf Function Kernel

variable {r : ControlPlane → ControlPlane × Int}

structure Stage where
  type : TcpConnectionType
  status : ConnectionStatus
  listener : Option Nat
  localPort : U16
  localSeq : U32
  remoteSeq : U32

def TcpConnection.stage (c : TcpConnection) : Stage where
  type := c.type
  status := c.status
  listener := c.listener
  localPort := c.localPort
  localSeq := c.localSeq
  remoteSeq := c.remoteSeq

structure TcpConnection.SameFlow (c' c : TcpConnection) : Prop where
  stage : c'.stage = c.stage
  tctx : c'.tctx = c.tctx
  tuple : c'.tuple = c.tuple
  opaqueConnection : c'.opaqueConnection = c.opaqueConnection
  ccIdx : c'.ccIdx = c.ccIdx

theorem TcpConnection.SameFlow.refl (c : TcpConnection) : c.SameFlow c := ⟨rfl, rfl, rfl, rfl, rfl⟩

theorem TcpConnection.SameFlow.trans {c'' c' c : TcpConnection} (h : c''.SameFlow c')
    (h' : c'.SameFlow c) : c''.SameFlow c :=
  ⟨h.stage.trans h'.stage, h.tctx.trans h'.tctx, h.tuple.trans h'.tuple,
    h.opaqueConnection.trans h'.opaqueConnection, h.ccIdx.trans h'.ccIdx⟩

variable {k k' : Kernel} {i n slot : Nat} {c : TcpConnection} {cfg : Config}

theorem ControlPlane.findTcpConn_registered {s : ControlPlane} {op : U64}
    (h : s.findTcpConn op = some (i, c)) :
    (∃ t, (t, i) ∈ s.tcpConnections.entries) ∧ s.heap.cells i = some c ∧
      c.opaqueConnection = op := by
  obtain ⟨⟨t, j⟩, he, hc⟩ := List.exists_of_findSome?_eq_some h
  split at hc
  · split_ifs at hc with hop
    cases hc
    exact ⟨⟨t, he⟩, by assumption, hop⟩
  · cases hc

/-! ## Release -/

/-- A bound connection is erased by its key, the others by address; the eBPF entry goes with it, and
    the port if no listener accepted it. -/
structure Released (k : Kernel) (i : Nat) (c : TcpConnection) (k' : Kernel) : Prop where
  heap : k'.heap = k.heap.free i
  table : k'.tcpConnections =
    if c.type = .fake then k.tcpConnections.eraseKey c.tuple else k.tcpConnections.eraseVal i
  listeners : k'.tcpListeners = k.tcpListeners
  handshakes : k'.tcpHandshakeList = k.tcpHandshakeList
  backlog : k'.backlog = k.backlog
  listing : k'.listing = k.listing
  syn : k'.syn = k.syn
  sent : k'.sent = k.sent
  map : k'.tcpConnectionMap =
    if c.type ≠ .fake ∧ ControlPlane.HasEbpfState c then
      update k.tcpConnectionMap c.tuple none
    else k.tcpConnectionMap
  idxs : k'.availCcIdxs =
    if c.type ≠ .fake ∧ ControlPlane.HasEbpfState c then
      k.availCcIdxs ++ [((k.tcpConnectionMap c.tuple).map EbpfConn.ccIdx).getD 0#32]
    else k.availCcIdxs
  pool : k'.availablePorts =
    if c.type = .fake ∨ c.listener = none then k.availablePorts.free c.localPort
    else k.availablePorts
  ports : k'.ports =
    if c.type = .fake ∨ c.listener = none then
      update k.ports c.tctx.actx ((k.ports c.tctx.actx).erase c.localPort)
    else k.ports

inductive PutCase (k : Kernel) (i : Nat) : Kernel → Prop
  | gone (hc : k.heap.cells i = none) : PutCase k i k
  | counted (c : TcpConnection) (hc : k.heap.cells i = some c) (href : c.ref ≠ 1#32) :
      PutCase k i (k.modifyConn i fun c => { c with ref := c.ref - 1#32 })
  | released (c : TcpConnection) (k' : Kernel) (hc : k.heap.cells i = some c)
      (href : c.ref = 1#32) (h : Released k i c k') : PutCase k i k'

theorem released_close (k : Kernel) (i : Nat) (c : TcpConnection)
    (f : TcpConnection → TcpConnection) :
    Released k i c ((k.modifyConn i f).onPlane fun s => s.tcpConnectionClose i c) := by
  unfold ControlPlane.tcpConnectionClose
  cases htype : c.type with
  | fake =>
    constructor <;>
      simp [onPlane, modifyConn, ControlPlane.closeFake, ControlPlane.unrecordPort,
        ControlPlane.freePort, htype, Heap.free_modify]
  | normal =>
    by_cases hebpf : ControlPlane.HasEbpfState c <;> cases hlis : c.listener <;>
      constructor <;>
      simp [onPlane, modifyConn, ControlPlane.closeNormal, ControlPlane.releasePort,
        ControlPlane.unregTcpConn, ControlPlane.unregTcpConnEbpf, ControlPlane.unrecordPort,
        ControlPlane.freePort, htype, hebpf, hlis, Heap.free_modify]

theorem Released.of_ref {r : U32} (h : Released k i { c with ref := r } k') : Released k i c k' :=
  { h with }

theorem putCase (k : Kernel) (i : Nat) : PutCase k i (k.tcpConnPut i) := by
  unfold tcpConnPut
  cases hc : k.heap.cells i with
  | none => exact .gone hc
  | some c =>
    dsimp only [onPlane, ControlPlane.tcpConnPut]
    split_ifs with href
    · exact .released c _ hc (by bv_omega) (released_close k i _ _).of_ref
    · exact .counted c hc (by bv_omega)

/-! ## Commands -/

inductive CmdCase (cfg : Config) (slot : Nat) (tctx : Tctx) (k : Kernel) :
    TcpCmd → Kernel → Prop
  | failed (cmd : TcpCmd) (out : List (Tctx × AppIn)) :
      CmdCase cfg slot tctx k cmd { k with kernelOut := out }
  | reopened (m : OpenMsg) (i : Nat) (c : TcpConnection) (out : List (Tctx × AppIn))
      (hfind : k.findTcpConn m.opaqueConnection = some (i, c)) :
      CmdCase cfg slot tctx k (.open m)
        { k with
          heap := k.heap.modify i fun c => c.openWith cfg tctx m 0#16
          tcpConnections := k.tcpConnections.insert slot (c.openWith cfg tctx m 0#16).tuple i
          tcpHandshakeList := k.tcpHandshakeList ++ [i]
          kernelOut := out }
  | opened (m : OpenMsg) (port : U16) (pool : PortPool) (out : List (Tctx × AppIn))
      (hfind : k.findTcpConn m.opaqueConnection = none)
      (hport : k.availablePorts.allocAny = some (port, pool)) :
      CmdCase cfg slot tctx k (.open m)
        { k with
          heap := k.heap.alloc (TcpConnection.new.openWith cfg tctx m port)
          availablePorts := pool
          ports := update k.ports tctx.actx (insert port (k.ports tctx.actx))
          tcpConnections := k.tcpConnections.insert slot
            (TcpConnection.new.openWith cfg tctx m port).tuple k.heap.next
          tcpHandshakeList := k.tcpHandshakeList ++ [k.heap.next]
          kernelOut := out }
  | bound (m : BindMsg) (pool : PortPool) (out : List (Tctx × AppIn))
      (hfind : k.findTcpConn m.opaqueConnection = none)
      (hport : k.availablePorts.alloc m.localPort = some pool ∨
        (k.availablePorts.alloc m.localPort = none ∧ pool = k.availablePorts ∧
          m.reuseport = true ∧ m.localPort ∈ k.ports tctx.actx)) :
      CmdCase cfg slot tctx k (.bind m)
        { k with
          heap := k.heap.alloc (TcpConnection.bound tctx m)
          availablePorts := pool
          ports := update k.ports tctx.actx (insert m.localPort (k.ports tctx.actx))
          tcpConnections := k.tcpConnections.insert slot (TcpConnection.bound tctx m).tuple
            k.heap.next
          kernelOut := out }
  | listening (m : ListenMsg) (i : Nat) (c : TcpConnection) (out : List (Tctx × AppIn))
      (hfind : k.findTcpConn m.opaqueConnection = some (i, c)) (htype : c.type = .fake) :
      CmdCase cfg slot tctx k (.listen m)
        { k with
          tcpListeners := k.tcpListeners ++ [TcpListener.for tctx m i c]
          kernelOut := out }
  | closed (m : CloseMsg) (i : Nat) (c : TcpConnection) (k' : Kernel) (out : List (Tctx × AppIn))
      (hfind : k.findTcpConn m.opaqueConnection = some (i, c)) (hput : PutCase k i k') :
      CmdCase cfg slot tctx k (.close m) { k' with kernelOut := out }

theorem onPlane_reportFailure_zero (k : Kernel) {tctx : Tctx}
    {m : AppIn} {s : ControlPlane} (hr : r k.toControlPlane = (s, 0)) :
    (k.onPlane fun s => ControlPlane.reportFailure (r s) tctx m) =
      { k with toControlPlane := s } := by
  simp [onPlane, ControlPlane.reportFailure, hr]

theorem onPlane_reportFailure_failed (k : Kernel)
    {tctx : Tctx} {m : AppIn} {err : Int} (hr : r k.toControlPlane = (k.toControlPlane, err))
    (herr : err ≠ 0) : (k.onPlane fun s => ControlPlane.reportFailure (r s) tctx m) =
      { k with kernelOut := k.kernelOut ++ [(tctx, m)] } := by
  simp [onPlane, ControlPlane.reportFailure, hr, herr, ControlPlane.notifyApp]

section

variable (cfg : Config) (slot : Nat) (tctx : Tctx)

theorem cmdCase_open (k : Kernel) (m : OpenMsg) : CmdCase cfg slot tctx k (.open m)
      (k.onPlane fun s => s.processTcpCmd cfg slot tctx (.open m)) := by
  simp only [ControlPlane.processTcpCmd]
  cases hfind : k.findTcpConn m.opaqueConnection with
  | some ic =>
    rw [onPlane_reportFailure_zero k (by simp only [ControlPlane.tcpOpen, hfind]; rfl)]
    exact .reopened m ic.1 ic.2 _ hfind
  | none =>
    cases hport : k.availablePorts.allocAny with
    | none =>
      rw [onPlane_reportFailure_failed k (by simp only [ControlPlane.tcpOpen, hfind, hport]; rfl)
        (by decide)]
      exact .failed (.open m) _
    | some pp =>
      rw [onPlane_reportFailure_zero k (by simp only [ControlPlane.tcpOpen, hfind, hport]; rfl)]
      exact .opened m pp.1 pp.2 _ hfind hport

theorem cmdCase_bind (k : Kernel) (m : BindMsg) : CmdCase cfg slot tctx k (.bind m)
      (k.onPlane fun s => s.processTcpCmd cfg slot tctx (.bind m)) := by
  simp only [ControlPlane.processTcpCmd]
  cases hfind : k.findTcpConn m.opaqueConnection with
  | some ic =>
    rw [onPlane_reportFailure_failed k (by simp only [ControlPlane.tcpBind, hfind]; rfl)
      (by decide)]
    exact .failed (.bind m) _
  | none =>
    cases hport : k.availablePorts.alloc m.localPort with
    | some pool =>
      rw [onPlane_reportFailure_zero k (by simp only [ControlPlane.tcpBind, hfind, hport]; rfl)]
      exact .bound m pool _ hfind (.inl hport)
    | none =>
      by_cases hown : m.reuseport ∧ m.localPort ∈ k.ports tctx.actx
      · rw [onPlane_reportFailure_zero k
          (by simp only [ControlPlane.tcpBind, hfind, hport, if_pos hown]; rfl)]
        exact .bound m k.availablePorts _ hfind (.inr ⟨hport, rfl, hown.1, hown.2⟩)
      · rw [onPlane_reportFailure_failed k
          (by simp only [ControlPlane.tcpBind, hfind, hport, if_neg hown]; rfl) (by decide)]
        exact .failed (.bind m) _

theorem cmdCase_listen (k : Kernel) (m : ListenMsg) : CmdCase cfg slot tctx k (.listen m)
      (k.onPlane fun s => s.processTcpCmd cfg slot tctx (.listen m)) := by
  simp only [ControlPlane.processTcpCmd]
  cases hfind : k.findTcpConn m.opaqueConnection with
  | none =>
    rw [onPlane_reportFailure_failed k (by simp only [ControlPlane.tcpListen, hfind]; rfl)
      (by decide)]
    exact .failed (.listen m) _
  | some ic =>
    by_cases htype : ic.2.type ≠ .fake
    · rw [onPlane_reportFailure_failed k
        (by simp only [ControlPlane.tcpListen, hfind, if_pos htype]; rfl) (by decide)]
      exact .failed (.listen m) _
    · rw [onPlane_reportFailure_zero k
        (by simp only [ControlPlane.tcpListen, hfind, if_neg htype]; rfl)]
      exact .listening m ic.1 ic.2 _ hfind (not_not.mp htype)

theorem cmdCase_close (k : Kernel) (m : CloseMsg) : CmdCase cfg slot tctx k (.close m)
      (k.onPlane fun s => s.processTcpCmd cfg slot tctx (.close m)) := by
  simp only [ControlPlane.processTcpCmd]
  cases hfind : k.findTcpConn m.opaqueConnection with
  | none =>
    rw [onPlane_reportFailure_failed k (by simp only [ControlPlane.tcpClose, hfind]; rfl)
      (by decide)]
    exact .failed (.close m) _
  | some ic =>
    have hput := putCase k ic.1
    rw [tcpConnPut, (ControlPlane.findTcpConn_registered hfind).2.1] at hput
    rw [onPlane_reportFailure_zero k (by simp only [ControlPlane.tcpClose, hfind]; rfl)]
    exact .closed m ic.1 ic.2 _ _ hfind hput

theorem cmdCase (k : Kernel) (cmd : TcpCmd) :
    CmdCase cfg slot tctx k cmd (k.onPlane fun s => s.processTcpCmd cfg slot tctx cmd) := by
  cases cmd with
  | «open» m => exact cmdCase_open cfg slot tctx k m
  | bind m => exact cmdCase_bind cfg slot tctx k m
  | listen m => exact cmdCase_listen cfg slot tctx k m
  | close m => exact cmdCase_close cfg slot tctx k m

end

theorem step_bind (k : Kernel) (pf : Kernel.Platform) (a : Kernel.Ambient) (tctx : Tctx)
    {m : BindMsg}
    {pool : PortPool} (hfind : k.findTcpConn m.opaqueConnection = none)
    (hport : k.availablePorts.alloc m.localPort = some pool ∨
      (m.localPort ∉ k.availablePorts.ports ∧ pool = k.availablePorts ∧ m.reuseport = true ∧
        m.localPort ∈ k.ports tctx.actx)) : k.step pf (.command a tctx (.tcp (.bind m))) =
      { k with availablePorts := pool }.onPlane fun s => s.bindConn a.slot tctx m := by
  simp only [step, processTcpCmd, ControlPlane.processTcpCmd]
  rcases hport with halloc | ⟨htaken, rfl, hreuse, hown⟩
  · rw [onPlane_reportFailure_zero k
      (by simp only [ControlPlane.tcpBind, hfind, halloc]; rfl)]
    rfl
  · have halloc : k.availablePorts.alloc m.localPort = none := by
      unfold PortPool.alloc
      rw [if_pos htaken, ite_self]
    rw [onPlane_reportFailure_zero k
      (by simp only [ControlPlane.tcpBind, hfind, halloc, if_pos (And.intro hreuse hown)]; rfl)]
    rfl

/-! ## eBPF state -/

def SameIdxs (idxs idxs' : List U32) : Prop :=
  idxs' = idxs ∨ ∃ x xs, idxs = x :: xs ∧ idxs' = xs ++ [x]

inductive RegCase (cfg : Config) (k : Kernel) (i : Nat) (c : TcpConnection) (listen : Bool) :
    Kernel × Bool → Prop
  | failed (idxs : List U32) (hidxs : SameIdxs k.availCcIdxs idxs) :
      RegCase cfg k i c listen ({ k with availCcIdxs := idxs }, false)
  | done (idx : U32) (idxs : List U32) (hidxs : k.availCcIdxs = idx :: idxs) :
      RegCase cfg k i c listen
        ({ k with
            availCcIdxs := idxs
            tcpConnectionMap := update k.tcpConnectionMap c.tuple
              (some (Kernel.ebpfConn cfg c listen idx))
            heap := k.heap.modify i (Kernel.withCc idx) }, true)

theorem regCase (cfg : Config) (k : Kernel) (i : Nat) (c : TcpConnection) (listen mapOk : Bool) :
    RegCase cfg k i c listen (k.regTcpConnEbpf cfg i c listen mapOk) := by
  unfold regTcpConnEbpf
  split
  next => exact .failed k.availCcIdxs (.inl rfl)
  next idx idxs hidxs =>
    cases mapOk with
    | true => exact .done idx idxs hidxs
    | false => exact .failed (idxs ++ [idx]) (.inr ⟨idx, idxs, hidxs, rfl⟩)

/-! ## Accepting a SYN -/

/-- After `tcp_listener_accept` has made the connection `c` of listener `n` from the slot `b`. -/
def Kernel.accepted (cfg : Config) (k : Kernel) (slot n i : Nat) (l : TcpListener) (b : BacklogSlot)
    (rest : List BacklogSlot) (c : TcpConnection) (idx : U32) (idxs : List U32)
    (syn : Nat → SynState) : Kernel :=
  { k with
    heap := k.heap.modify i fun c =>
      { Kernel.withCc idx (Kernel.takeSyn cfg l b c) with status := .waitTxSynack }
    tcpConnections := k.tcpConnections.insert slot (Kernel.takeSyn cfg l b c).tuple i
    tcpConnectionMap := update k.tcpConnectionMap (Kernel.takeSyn cfg l b c).tuple
      (some (Kernel.ebpfConn cfg (Kernel.takeSyn cfg l b c) true idx))
    availCcIdxs := idxs
    tcpListeners := k.tcpListeners.modify n fun l => { l with pendingConn := none }
    tcpHandshakeList := k.tcpHandshakeList ++ [i]
    backlog := update k.backlog n rest
    syn := syn }

inductive AcceptCase (cfg : Config) (slot n : Nat) (k : Kernel) : Kernel → Prop
  | ignored : AcceptCase cfg slot n k k
  | dropped (b : BacklogSlot) (rest : List BacklogSlot) (hb : k.backlog n = b :: rest) :
      AcceptCase cfg slot n k { k with backlog := update k.backlog n rest }
  | failed (l : TcpListener) (i : Nat) (b : BacklogSlot) (rest : List BacklogSlot)
      (idxs : List U32) (syn : Nat → SynState) (hl : k.tcpListeners[n]? = some l)
      (hi : l.pendingConn = some i) (hb : k.backlog n = b :: rest)
      (hidxs : SameIdxs k.availCcIdxs idxs) :
      AcceptCase cfg slot n k
        { k with
          heap := k.heap.modify i (Kernel.takeSyn cfg l b)
          availCcIdxs := idxs
          backlog := update k.backlog n rest
          syn := syn }
  | accepted (l : TcpListener) (i : Nat) (b : BacklogSlot) (rest : List BacklogSlot)
      (c : TcpConnection) (idx : U32) (idxs : List U32) (syn : Nat → SynState)
      (hl : k.tcpListeners[n]? = some l) (hi : l.pendingConn = some i)
      (hb : k.backlog n = b :: rest) (hc : k.heap.cells i = some c)
      (hidxs : k.availCcIdxs = idx :: idxs) :
      AcceptCase cfg slot n k (k.accepted cfg slot n i l b rest c idx idxs syn)

theorem acceptCase (cfg : Config) (slot n : Nat) (mapOk : Bool) (k : Kernel) :
    AcceptCase cfg slot n k (k.tcpListenerAccept cfg slot mapOk n) := by
  unfold tcpListenerAccept
  split
  next l b rest hl hb =>
    cases hi : l.pendingConn with
    | none => exact .ignored
    | some i =>
      dsimp only
      split
      next ts hopts =>
        cases hc : k.heap.cells i with
        | none =>
          have hc' : (((k.setBacklog n rest).modifyConn i (takeSyn cfg l b)).modifySyn i
              fun y => { y with synTs := ts }).heap.cells i = none := by
            simp [modifySyn, modifyConn, setBacklog, hc]
          simp only [acceptSyn, hc']
          exact .failed l i b rest _ _ hl hi hb (.inl rfl)
        | some c =>
          have hc' : (((k.setBacklog n rest).modifyConn i (takeSyn cfg l b)).modifySyn i
              fun y => { y with synTs := ts }).heap.cells i = some (takeSyn cfg l b c) := by
            simp [modifySyn, modifyConn, setBacklog, hc]
          simp only [acceptSyn, hc']
          have hreg := regCase cfg (((k.setBacklog n rest).modifyConn i
            (takeSyn cfg l b)).modifySyn i fun y => { y with synTs := ts }) i
            (takeSyn cfg l b c) true mapOk
          revert hreg
          generalize regTcpConnEbpf cfg _ i (takeSyn cfg l b c) true mapOk = r
          rintro (⟨idxs, hidxs⟩ | ⟨idx, idxs, hidxs⟩)
          · exact .failed l i b rest idxs _ hl hi hb hidxs
          · -- the three writes to the connection are one
            have hacc : ∀ syn, AcceptCase cfg slot n k
                (k.accepted cfg slot n i l b rest c idx idxs syn) := fun syn =>
              .accepted l i b rest c idx idxs syn hl hi hb hc hidxs
            simp only [awaitTxSynack, onPlane, ControlPlane.regTcpConn,
              modifyConn, modifySyn, setPending, pushHandshake,
              setBacklog, Heap.modify_modify]
            exact hacc _
      next => exact .dropped b rest hb
  next => exact .ignored

/-- How `tcp_listener_pkt` can end. A SYN that is queued may be accepted at once. -/
inductive ListenerCase (cfg : Config) (slot n : Nat) (p : PktTcp) (k : Kernel) : Kernel → Prop
  | ignored : ListenerCase cfg slot n p k k
  | queued (l : TcpListener) (b : BacklogSlot) (out : List (Tctx × HandshakeIn)) (k' : Kernel)
      (hl : k.tcpListeners[n]? = some l) (hp : b.pkt = p)
      (hnew : ∀ b' ∈ k.backlog n, b'.pkt.tuple ≠ p.tuple)
      (hacc : AcceptCase cfg slot n
        { k with
          backlog := update k.backlog n (k.backlog n ++ [b])
          handshakeOut := out } k') :
      ListenerCase cfg slot n p k k'

theorem listenerCase (cfg : Config) (slot n : Nat) (mapOk : Bool) (p : PktTcp) (qid : U32)
    (k : Kernel) : ListenerCase cfg slot n p k (k.tcpListenerPkt cfg slot mapOk n p qid) := by
  unfold tcpListenerPkt
  split
  next => exact .ignored
  next l hl =>
    split_ifs with hsyn hfull hdup
    · exact .ignored
    · exact .ignored
    · exact .ignored
    all_goals
      refine .queued l ⟨p, qid⟩
        (k.handshakeOut ++ [(l.tctx, .newconn l.opaqueListener l.fd p.srcIp p.src)]) _ hl rfl
        (fun b hb h => hdup ⟨b, hb, h⟩) ?_
    · exact acceptCase cfg slot n mapOk _
    · exact .ignored

theorem tcpAccept_eq_some {a : Kernel.Ambient} {tctx : Tctx} {m : Kernel.AcceptMsg}
    (h : k.tcpAccept cfg a tctx m = some k') :
    ∃ n l, k.findListener tctx m = some n ∧ k.tcpListeners[n]? = some l ∧ l.pendingConn = none ∧
      AcceptCase cfg a.slot n
        (({ k with heap := k.heap.alloc (Kernel.acceptedConn cfg tctx n l m) }).setPending n
          (some k.heap.next)) k' := by
  unfold tcpAccept at h
  split at h
  next => cases h
  next n hn =>
    split at h
    next => cases h
    next l hl =>
      split_ifs at h with hpend hmax
      cases h
      refine ⟨n, l, hn, hl, by simpa using hpend, ?_⟩
      split_ifs
      · exact acceptCase cfg a.slot n a.mapOk _
      · exact .ignored

/-! ## Packets of a connection -/

/-- The packets that close an open connection: a bare SYN without a timestamp, a reset that is no
    SYN. -/
def PktTcp.Closes (p : PktTcp) (opts : TcpOpts) : Prop :=
  (p.flags = tcpSyn ∧ opts.ts = none) ∨ (p.flags &&& tcpSyn = 0#16 ∧ p.flags &&& tcpRst ≠ 0#16)
deriving Decidable

inductive ConnCase (cfg : Config) (k : Kernel) (i : Nat) (c : TcpConnection) (p : PktTcp)
    (opts : TcpOpts) : Kernel → Prop
  | ignored : ConnCase cfg k i c p opts k
  | synackFailed (qid : U32) (idxs : List U32) (syn : Nat → SynState)
      (hstatus : c.status = .waitRxSynack) (hidxs : SameIdxs k.availCcIdxs idxs) :
      ConnCase cfg k i c p opts
        { k with
          heap := k.heap.modify i fun c =>
            { c with qid := qid, remoteSeq := 0#32, localSeq := 0#32, flags := 0#32 }
          availCcIdxs := idxs
          syn := syn }
  | opened (qid : U32) (idx : U32) (idxs : List U32) (syn : Nat → SynState)
      (reply : TcpControl) (out : List (Tctx × HandshakeIn))
      (hstatus : c.status = .waitRxSynack)
      (hflags : p.flags &&& (tcpSyn ||| tcpAck) = tcpSyn ||| tcpAck)
      (hidxs : k.availCcIdxs = idx :: idxs) (hreply : reply.flags = tcpAck) :
      ConnCase cfg k i c p opts
        { k with
          heap := k.heap.modify i fun c =>
            { Kernel.withCc idx (Kernel.takeSynack p { c with qid := qid }) with status := .open }
          availCcIdxs := idxs
          tcpConnectionMap := update k.tcpConnectionMap c.tuple
            (some (Kernel.ebpfConn cfg (Kernel.takeSynack p { c with qid := qid }) false idx))
          syn := syn
          sent := k.sent ++ [(i, reply)]
          handshakeOut := out }
  | resent (ts : U32) (hstatus : c.status = .open) (hflags : p.flags = tcpSyn)
      (hts : opts.ts = some ts) :
      ConnCase cfg k i c p opts
        (k.sendTcpControl i c (Kernel.synackFlags c) (some ts) tcpMss)
  | put (out : List (Tctx × AppIn)) (k' : Kernel) (hstatus : c.status = .open)
      (hwhy : p.Closes opts)
      (hput : PutCase { k with kernelOut := out } i k') : ConnCase cfg k i c p opts k'
  | acked (hstatus : c.status = .closed) :
      ConnCase cfg k i c p opts (k.sendTcpControl i c tcpAck (some 0#32) 0#16)

theorem connCase_synack {mapOk : Bool} {p : PktTcp} {qid : U32} {opts : TcpOpts} {deadline : U64}
    (hc : k.heap.cells i = some c) (hstatus : c.status = .waitRxSynack) : ConnCase cfg k i c p opts
      ((k.modifyConn i fun c => { c with qid := qid }).tcpSynackPkt cfg mapOk i p opts
        deadline) := by
  -- on every way out, the writes to the connection are one
  have hfail : ∀ idxs syn, SameIdxs k.availCcIdxs idxs → ConnCase cfg k i c p opts _ :=
    fun idxs syn hidxs => .synackFailed qid idxs syn hstatus hidxs
  unfold tcpSynackPkt
  split_ifs with hflags
  · simp only [synackFailed, modifyConn, modifySyn, Heap.modify_modify]
    exact hfail _ _ (.inl rfl)
  · split
    next =>
      simp only [synackFailed, modifyConn, modifySyn, Heap.modify_modify]
      exact hfail _ _ (.inl rfl)
    next ts hts =>
      simp only [modifyConn, modifySyn, Heap.modify_modify, Heap.cells_modify_self, hc,
        Option.map_some]
      generalize hr : regTcpConnEbpf cfg _ i _ false mapOk = r
      have hreg := hr ▸ regCase cfg _ i _ false mapOk
      rcases hreg with ⟨idxs, hidxs⟩ | ⟨idx, idxs, hidxs⟩
      · simp only [synackFailed, modifyConn, modifySyn, Heap.modify_modify]
        exact hfail _ _ hidxs
      · simp only [openClient, modifyConn, notifyHandshake,
          sendTcpControl, Heap.modify_modify]
        exact .opened qid idx idxs _ _ _ hstatus (not_not.mp hflags) hidxs rfl

theorem connCase {mapOk : Bool} {p : PktTcp} {qid : U32} {opts : TcpOpts} {deadline : U64}
    (hc : k.heap.cells i = some c) :
    ConnCase cfg k i c p opts (k.tcpConnectionPkt cfg mapOk i c p qid opts deadline) := by
  unfold tcpConnectionPkt
  dsimp only
  split_ifs with hsynack hsyn hsyn' hrst hfin
  · exact connCase_synack hc hsynack
  · have hflags : p.flags = tcpSyn := by
      have h := hsyn.2
      rwa [show ~~~0#16 = BitVec.allOnes 16 from rfl, BitVec.and_allOnes] at h
    split
    next hts => exact .put k.kernelOut _ hsyn.1 (.inl ⟨hflags, hts⟩) (putCase k i)
    next ts hts => exact .resent ts hsyn.1 hflags hts
  · exact .ignored
  · have hnosyn : p.flags &&& tcpSyn = 0#16 := by simpa [hrst.1] using hsyn'
    exact .put _ _ hrst.1 (.inr ⟨hnosyn, hrst.2⟩) (putCase _ i)
  · exact .acked hfin.1
  · exact .ignored

inductive PacketCase (cfg : Config) (slot : Nat) (p : PktTcp) (k : Kernel) : Kernel → Prop
  | none (resets : List FlowTuple) : PacketCase cfg slot p k { k with resets := resets }
  | conn (i : Nat) (c : TcpConnection) (opts : TcpOpts) (k' : Kernel)
      (hopts : p.parseTcpOpts = some opts) (hi : k.tcpConnections.lookup p.tuple = some i)
      (hc : k.heap.cells i = some c) (h : ConnCase cfg k i c p opts k') :
      PacketCase cfg slot p k k'
  | listener (n : Nat) (k' : Kernel) (hi : k.tcpConnections.lookup p.tuple = none)
      (hn : k.tcpListenerLookup cfg p = some n) (h : ListenerCase cfg slot n p k k') :
      PacketCase cfg slot p k k'

theorem packetCase (cfg : Config) (a : Kernel.Ambient) (p : PktTcp) (qid : U32) (k : Kernel) :
    PacketCase cfg a.slot p k (k.tcpPacket cfg a p qid) := by
  unfold tcpPacket
  split
  next => exact .none k.resets
  next opts hopts =>
    split
    next i hi =>
      split
      next => exact .none k.resets
      next c hc => exact .conn i c opts _ hopts hi hc (connCase hc)
    next hi =>
      split
      next n hn => exact .listener n _ hi hn (listenerCase cfg a.slot n a.mapOk p qid k)
      next =>
        split_ifs
        · exact .none k.resets
        · exact .none _

/-! ## Polls -/

inductive HandshakeCase (k : Kernel) (i : Nat) : Kernel → Prop
  | ignored : HandshakeCase k i k
  | synSent (c : TcpConnection) (syn : Nat → SynState) (p : TcpControl)
      (hc : k.heap.cells i = some c) (hstatus : c.status = .waitTxSyn)
      (hp : p.flags = tcpSyn ||| tcpEce ||| tcpCwr) :
      HandshakeCase k i
        { k with
          heap := k.heap.modify i fun c => { c with status := .waitRxSynack }
          syn := syn
          sent := k.sent ++ [(i, p)] }
  | synackSent (c : TcpConnection) (p : TcpControl) (out : List (Tctx × HandshakeIn))
      (hc : k.heap.cells i = some c) (hstatus : c.status = .waitTxSynack)
      (hp : p.flags = Kernel.synackFlags c ∧ p.seqno = c.localSeq ∧ p.ackno = c.remoteSeq) :
      HandshakeCase k i
        { k with
          heap := k.heap.modify i fun c => { c with status := .open }
          sent := k.sent ++ [(i, p)]
          handshakeOut := out }

theorem handshakeCase (deadline : U64) (k : Kernel) (i : Nat) :
    HandshakeCase k i (k.handshakeEvent deadline i) := by
  unfold handshakeEvent
  split
  next => exact .ignored
  next c hc =>
    split
    next hstatus => exact .synSent c _ _ hc hstatus rfl
    next hstatus => exact .synackSent c _ _ hc hstatus ⟨rfl, rfl, rfl⟩
    next => exact .ignored

theorem pollTcpHandshakeEvents_induct {P : Kernel → Prop} (deadline : U64)
    (h : P { k with tcpHandshakeList := [] })
    (hstep : ∀ k i k', P k → HandshakeCase k i k' → P k') :
    P (k.pollTcpHandshakeEvents deadline) := by
  unfold pollTcpHandshakeEvents
  generalize { k with tcpHandshakeList := [] } = k₀ at h ⊢
  generalize k.tcpHandshakeList = is
  induction is generalizing k₀ with
  | nil => exact h
  | cons i is ih => exact ih _ (hstep k₀ i _ h (handshakeCase deadline k₀ i))

inductive CcToCase (now : U64) (k : Kernel) (toPut : List Nat) (i : Nat) : Kernel × List Nat → Prop
  | ignored : CcToCase now k toPut i (k, toPut)
  | resent (c : TcpConnection) (syn : Nat → SynState) (hc : k.heap.cells i = some c)
      (hdue : k.SynDue now i c) (hsyn : ∀ j, j ≠ i → syn j = k.syn j) :
      CcToCase now k toPut i
        ({ k with
            heap := k.heap.modify i fun c => { c with status := .waitTxSyn }
            syn := syn
            tcpHandshakeList := k.tcpHandshakeList ++ [i] }, toPut)
  | timedOut (c : TcpConnection) (hc : k.heap.cells i = some c) (hout : k.TimedOut now i c) :
      CcToCase now k toPut i (k, toPut ++ [i])
  | controlled (f : TcpConnection → TcpConnection)
      (hf : ∀ c, (f c).SameFlow c) :
      CcToCase now k toPut i ({ k with heap := k.heap.modify i f }, toPut)

/-! Congestion control leaves the flow of a connection alone. -/

theorem sameFlow_slowsCongcEp {c' : TcpConnection} {out : CcIntermOut}
    (h : slowsCongcEp c = some (c', out)) : c'.SameFlow c := by
  unfold slowsCongcEp at h
  dsimp only at h
  split at h
  next => cases h
  next =>
    cases h
    exact ⟨rfl, rfl, rfl, rfl, rfl⟩

theorem sameFlow_setTxRateEp {c' : TcpConnection} {out : CcIntermOut} {rate : U32}
    (h : setTxRateEp c out = some (c', rate)) : c'.SameFlow c := by
  unfold setTxRateEp at h
  split at h
  next => cases h
  next =>
    cases h
    exact ⟨rfl, rfl, rfl, rfl, rfl⟩

theorem sameFlow_ackTimeoutEp (toUs : U64 → U32) (ev : TimerEvent) (c : TcpConnection) :
    (ackTimeoutEp toUs ev c).1.SameFlow c := by
  unfold ackTimeoutEp
  dsimp only
  split_ifs <;> exact ⟨rfl, rfl, rfl, rfl, rfl⟩

theorem sameFlow_pollMtp (toUs : U64 → U32) (c : TcpConnection) (q : Poll) :
    (((pollMtp toUs c q).map Polled.conn).getD c).SameFlow c := by
  unfold pollMtp pollWith
  split_ifs with hdue
  · unfold mtpChain
    dsimp only [mtpSnapshotCc]
    split
    next => exact .refl c
    next c₁ out h₁ =>
      split
      next => exact .refl c
      next c₂ rate h₂ =>
        -- the processors one after the other, each on the connection the last one left
        have h₁₂ := (sameFlow_setTxRateEp h₂).trans (sameFlow_slowsCongcEp h₁)
        have h := (sameFlow_ackTimeoutEp toUs ⟨q.entry.currTsc⟩ c₂).trans h₁₂
        exact { h with }
  · exact .refl c

theorem ccToCase (toUs : U64 → U32) (q : Kernel.CcPoll) (k : Kernel) (toPut : List Nat) (i : Nat) :
    CcToCase q.now k toPut i (Kernel.ccToEvent toUs q (k, toPut) i) := by
  unfold ccToEvent
  split
  next => exact .ignored
  next c hc =>
    split_ifs with hdue hout hopen
    · exact .resent c _ hc hdue fun j hj => update_of_ne hj ..
    · exact .timedOut c hc hout
    · exact .controlled _ fun c => sameFlow_pollMtp toUs c (q.polls i)
    · exact .ignored

/-! ## A port with two sockets

The pool of a concrete run is not searched: that the port is taken follows from its allocation. -/

namespace Site

open Kernel PortPool

def sharedBinds : List Event := [bind 0 1#64 true, bind 0 0x10001#64 true]

def bound : Kernel :=
  { boot with availablePorts := (PortPool.all.alloc 1000#16).getD PortPool.all }.onPlane fun s =>
    s.bindConn 0 ⟨0, 0⟩ ⟨1#64, 3#32, true, 0#32, 1000#16⟩

def shared : Kernel :=
  bound.onPlane fun s => s.bindConn 0 ⟨0, 0⟩ ⟨0x10001#64, 3#32, true, 0#32, 1000#16⟩

theorem alloc_1000 : all.alloc 1000#16 = some ((all.alloc 1000#16).getD all) := by
  have hmem : 1000#16 ∈ all.ports := mem_all.mpr (by decide)
  rw [alloc, if_neg (by decide), if_neg (not_not.mpr hmem), Option.getD_some]

theorem run_sharedBinds : run (step nic) boot sharedBinds = shared := by
  have hfirst : step nic boot (bind 0 1#64 true) = bound :=
    step_bind boot nic ambient ⟨0, 0⟩ (m := ⟨1#64, 3#32, true, 0#32, 1000#16⟩) rfl
      (.inl alloc_1000)
  have htaken : 1000#16 ∉ bound.availablePorts.ports :=
    not_mem_of_alloc alloc_1000
  have hsecond : step nic bound (bind 0 0x10001#64 true) = shared :=
    step_bind bound nic ambient ⟨0, 0⟩ (m := ⟨0x10001#64, 3#32, true, 0#32, 1000#16⟩)
      (by decide +kernel) (.inr ⟨htaken, rfl, rfl, by decide +kernel⟩)
  rw [sharedBinds, run_cons, run_cons, run_nil, hfirst, hsecond]

end Site

end MtpXdp.Control

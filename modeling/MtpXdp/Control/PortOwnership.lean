import MtpXdp.Core.Holding
import MtpXdp.Control.Accepting

/-!
# Ownership of Local Ports

A port may have several users (`reuseport`, accepted connections), and is to be freed when the last
one goes. The release of a connection frees the port of every connection that no listener accepted;
the exit of an application frees the ports recorded for it. `ReleasesPorts` says when that comes to
the same.
-/

namespace MtpXdp.Control

open MtpXdp.Core Ebpf List Function Option PortPool

variable {tctx : Tctx} {actx : Nat}

def TcpConnection.FreesPort (c : TcpConnection) : Prop := c.type = .fake ∨ c.listener = none
deriving Decidable

namespace Kernel

variable {k k' : Kernel} {i j n slot : Nat} {c : TcpConnection} {cfg : Config}

/-! ## The invariant -/

def portOf (k : Kernel) (i : Nat) : Option U16 := (k.heap.cells i).map TcpConnection.localPort

def usersOf (k : Kernel) (p : U16) : List Nat :=
  (List.range k.heap.next).filter fun i => k.portOf i = some p

theorem portOf_eq_some {p : U16} :
    k.portOf i = some p ↔ ∃ c, k.heap.cells i = some c ∧ c.localPort = p :=
  map_eq_some_iff

theorem mem_usersOf {p : U16} : i ∈ k.usersOf p ↔ k.portOf i = some p := by
  simp only [usersOf, mem_filter, mem_range, decide_eq_true_eq, and_iff_right_iff_imp]
  intro hp
  obtain ⟨c, hc, -⟩ := portOf_eq_some.mp hp
  exact lt_next_of_some hc

def PortsOwned (k : Kernel) : Prop :=
  ∀ p, portInRange p →
    (p ∈ k.availablePorts.ports ↔ ¬ ∃ i c, k.heap.cells i = some c ∧ c.localPort = p)

structure Ported (k : Kernel) : Prop where
  owned : FreeIffUnheld (portInRange · = true) (· ∈ k.availablePorts.ports) k.portOf
  ref : ∀ i c, k.heap.cells i = some c → c.ref = 1#32

theorem Ported.portsOwned (h : k.Ported) : k.PortsOwned := by
  intro p hp
  refine (h.owned p hp).trans ?_
  rw [not_exists]
  exact forall_congr' fun i => not_congr portOf_eq_some

namespace Ported

theorem of_modify (h : k.Ported) {f : TcpConnection → TcpConnection}
    (hheap : k'.heap = k.heap.modify i f) (hpool : k'.availablePorts = k.availablePorts)
    (hf : ∀ c, k.heap.cells i = some c → (f c).localPort = c.localPort ∧ (f c).ref = c.ref) :
    k'.Ported where
  owned := by
    have hport : k'.portOf = k.portOf := by
      funext j
      rw [portOf, hheap]
      exact Heap.map_cells_modify fun c hc => (hf c hc).1
    rw [hpool, hport]
    exact h.owned
  ref j d hd := by
    rw [hheap, Heap.cells_modify_eq_some] at hd
    have href := h.ref j
    grind

theorem quiet (h : k.Ported) (hheap : k'.heap = k.heap)
    (hpool : k'.availablePorts = k.availablePorts) : k'.Ported where
  owned := by
    have hport : k'.portOf = k.portOf := by
      funext j
      rw [portOf, hheap, portOf]
    rw [hpool, hport]
    exact h.owned
  ref j d hd := h.ref j d (hheap ▸ hd)

theorem of_alloc (h : k.Ported) (hheap : k'.heap = k.heap.alloc c) (href : c.ref = 1#32)
    (hpool : ∀ p, portInRange p →
      (p ∈ k'.availablePorts.ports ↔ p ∈ k.availablePorts.ports ∧ p ≠ c.localPort)) :
    k'.Ported where
  owned := by
    have hport : k'.portOf = update k.portOf k.heap.next (some c.localPort) := by
      funext j
      grind [portOf]
    have hnext : k.portOf k.heap.next = none := by
      rw [portOf, k.heap.next_free _ (Nat.le_refl _), map_none]
    rw [hport]
    exact h.owned.join hnext hpool
  ref j d hd := by
    have hold := h.ref j
    grind

end Ported

/-! ## Release of a connection -/

/-- The release frees the port iff nobody else uses it. -/
def ReleasesLast (k : Kernel) (i : Nat) (c : TcpConnection) : Prop :=
  c.FreesPort ↔ ∀ j ∈ k.usersOf c.localPort, j = i
deriving Decidable

theorem portOf_released (hrel : Released k i c k') (j : Nat) :
    k'.portOf j = if j = i then none else k.portOf j := by
  rw [portOf, hrel.heap]
  grind [portOf]

theorem mem_ports_released (hrel : Released k i c k') {p : U16} (hp : portInRange p) :
    p ∈ k'.availablePorts.ports ↔ p ∈ k.availablePorts.ports ∨ (c.FreesPort ∧ p = c.localPort) := by
  rw [hrel.pool]
  split_ifs with hfrees
  · rw [mem_free]
    refine or_congr_right ⟨fun h => ⟨hfrees, h.2⟩, fun h => ⟨h.2 ▸ hp, h.2⟩⟩
  · simp [TcpConnection.FreesPort, hfrees]

namespace Ported

theorem released (h : k.Ported) (hc : k.heap.cells i = some c) (hrel : Released k i c k')
    (hlast : k.ReleasesLast i c) : k'.Ported where
  owned := by
    refine h.owned.leave (portOf_released hrel) (fun p hp => mem_ports_released hrel hp) ?_
    intro j p hj _
    have hi : k.portOf i = some c.localPort := portOf_eq_some.mpr ⟨c, hc, rfl⟩
    constructor
    · rintro ⟨hfrees, rfl⟩ j' hj'
      exact hlast.mp hfrees j' (mem_usersOf.mpr hj')
    · intro hall
      -- the user `j` is the connection itself, so the port is its port
      have hp : p = c.localPort := by
        rw [hall j hj, hi] at hj
        exact (some.inj hj).symm
      subst hp
      exact ⟨hlast.mpr fun j' hj' => hall j' (mem_usersOf.mp hj'), rfl⟩
  ref j d hd := by
    rw [hrel.heap, Heap.cells_free_eq_some] at hd
    exact h.ref j d hd.2

theorem put (h : k.Ported) (hput : PutCase k i k')
    (hlast : ∀ c, k.heap.cells i = some c → k.ReleasesLast i c) : k'.Ported := by
  cases hput with
  | gone => exact h
  | counted c hc href => exact absurd (h.ref i c hc) href
  | released c _ hc _ hrel => exact h.released hc hrel (hlast c hc)

/-! ## Commands -/

section

variable (h : k.Ported)
include h

theorem bound {m : BindMsg} {pool : PortPool}
    (hheap : k'.heap = k.heap.alloc (TcpConnection.bound tctx m)) (hpool : k'.availablePorts = pool)
    (hport : k.availablePorts.alloc m.localPort = some pool ∨
      (k.availablePorts.alloc m.localPort = none ∧ pool = k.availablePorts ∧
        m.reuseport = true ∧ m.localPort ∈ k.ports tctx.actx)) : k'.Ported := by
  refine h.of_alloc hheap rfl fun p _ => ?_
  rw [hpool]
  rcases hport with halloc | ⟨hnone, rfl, -, -⟩
  · exact mem_of_alloc halloc p
  · refine ⟨fun hp => ⟨hp, ?_⟩, And.left⟩
    rintro rfl
    exact not_mem_of_alloc_eq_none hnone hp

theorem opened {m : OpenMsg} {port : U16} {pool : PortPool}
    (hheap : k'.heap = k.heap.alloc (TcpConnection.new.openWith cfg tctx m port))
    (hpool : k'.availablePorts = pool)
    (hport : k.availablePorts.allocAny = some (port, pool)) : k'.Ported := by
  have hlocal : (TcpConnection.new.openWith cfg tctx m port).localPort = port := by
    -- 0 is not in the range
    have hne : port ≠ 0#16 := by
      rintro rfl
      exact absurd (inRange_of_allocAny hport) (by decide)
    exact if_pos hne
  refine h.of_alloc hheap rfl fun p _ => ?_
  rw [hpool, hlocal]
  exact mem_of_allocAny hport p

theorem cmdCase {cmd : TcpCmd} (hcase : CmdCase cfg slot tctx k cmd k')
    (hclose : ∀ m, cmd = .close m → ∀ ic ∈ k.findTcpConn m.opaqueConnection,
      k.ReleasesLast ic.1 ic.2) : k'.Ported := by
  cases hcase with
  | failed => exact h.quiet rfl rfl
  | reopened m i c out hfind => exact h.of_modify rfl rfl fun d _ => ⟨rfl, rfl⟩
  | opened m port pool out hfind hport => exact h.opened rfl rfl hport
  | bound m pool out hfind hport => exact h.bound rfl rfl hport
  | listening => exact h.quiet rfl rfl
  | closed m i c k' out hfind hput =>
    have hc := (ControlPlane.findTcpConn_registered hfind).2.1
    have h' : k'.Ported := h.put hput fun d hd => by
      obtain rfl := some.inj (hc.symm.trans hd)
      exact hclose m rfl (i, c) hfind
    exact h'.quiet rfl rfl

/-! ## Accepting and packets -/

theorem acceptCase (hk : k.Accepting) (hcase : AcceptCase cfg slot n k k') : k'.Ported := by
  -- a connection that waits at a listener has the listener's port already
  have hwaits : ∀ l i, k.tcpListeners[n]? = some l → l.pendingConn = some i →
      ∀ c, k.heap.cells i = some c → l.listenPort = c.localPort := by
    intro l i hl hi c hc
    obtain ⟨-, d, hd, -, -, -, hport⟩ := hk.pending n l i hl hi
    rw [some.inj (hc.symm.trans hd), hport]
  cases hcase with
  | ignored => exact h
  | dropped => exact h.quiet rfl rfl
  | failed l i b rest idxs syn hl hi =>
    exact h.of_modify rfl rfl fun c hc => ⟨hwaits l i hl hi c hc, rfl⟩
  | accepted l i b rest c idx idxs syn hl hi =>
    exact h.of_modify rfl rfl fun c hc => ⟨hwaits l i hl hi c hc, rfl⟩

theorem connCase {p : PktTcp} {opts : TcpOpts}
    (hc : k.heap.cells i = some c) (hcase : ConnCase cfg k i c p opts k')
    (hlast : c.status = .open → p.Closes opts → k.ReleasesLast i c) : k'.Ported := by
  cases hcase with
  | ignored => exact h
  | synackFailed => exact h.of_modify rfl rfl fun c _ => ⟨rfl, rfl⟩
  | opened => exact h.of_modify rfl rfl fun c _ => ⟨rfl, rfl⟩
  | resent => exact h.quiet rfl rfl
  | put out k' hstatus hwhy hput =>
    have hsame : Ported { k with kernelOut := out } := h.quiet rfl rfl
    refine hsame.put hput fun d hd => ?_
    obtain rfl := some.inj (hc.symm.trans hd)
    exact hlast hstatus hwhy
  | acked => exact h.quiet rfl rfl

theorem packetCase (hk : k.Accepting) {p : PktTcp}
    (hcase : PacketCase cfg slot p k k')
    (hlast : ∀ opts ∈ p.parseTcpOpts, ∀ i ∈ k.tcpConnections.lookup p.tuple,
      ∀ c ∈ k.heap.cells i, c.status = .open → p.Closes opts → k.ReleasesLast i c) :
    k'.Ported := by
  cases hcase with
  | none => exact h.quiet rfl rfl
  | conn i c opts k' hopts hi hc hcase =>
    exact h.connCase hc hcase (hlast opts hopts i hi c hc)
  | listener n k' hi hn hcase =>
    cases hcase with
    | ignored => exact h
    | queued l b out k' hl hp hnew hacc =>
      have h' : Ported { k with
          backlog := update k.backlog n (k.backlog n ++ [b])
          handshakeOut := out } := h.quiet rfl rfl
      exact h'.acceptCase (hk.keeps (.queueSyn k n b out)) hacc

theorem handshakeCase (hcase : HandshakeCase k i k') : k'.Ported := by
  cases hcase with
  | ignored => exact h
  | synSent => exact h.of_modify rfl rfl fun c _ => ⟨rfl, rfl⟩
  | synackSent => exact h.of_modify rfl rfl fun c _ => ⟨rfl, rfl⟩

end

end Ported

/-! ## Exit of an application -/

def pendingOf (k : Kernel) (n : Nat) : Option Nat :=
  (k.tcpListeners[n]?).bind TcpListener.pendingConn

def releasedOnExit (k : Kernel) (actx : Nat) : List Nat :=
  k.connectionsOf actx ++ (k.listenersOf actx).filterMap k.pendingOf

def GivesBack (k : Kernel) (actx : Nat) (p : U16) : Prop :=
  p ∈ k.availablePorts.ports ∨ p ∈ k.ports actx

/-- The connections in `s` are gone from `k'`; the application gives back the ports it gave back
    before. -/
structure Frees (actx : Nat) (k : Kernel) (s : Nat → Prop) (k' : Kernel) : Prop where
  gone : ∀ j, s j → k'.heap.cells j = none
  kept : ∀ j, ¬ s j → k'.heap.cells j = k.heap.cells j
  ports : ∀ p, portInRange p → (k'.GivesBack actx p ↔ k.GivesBack actx p)
  pending : ∀ n, k'.pendingOf n = k.pendingOf n
  listeners : k'.listenersOf actx = k.listenersOf actx

theorem listenersOf_congr (hlis : k'.tcpListeners = k.tcpListeners)
    (hlisting : k'.listing = k.listing) : k'.listenersOf actx = k.listenersOf actx := by
  rw [listenersOf, hlis, hlisting, listenersOf]

theorem Frees.put (hput : PutCase k i k')
    (hi : ∀ c, k.heap.cells i = some c → c.ref = 1#32 ∧ c.tctx.actx = actx ∧
      (portInRange c.localPort → k.GivesBack actx c.localPort)) : Frees actx k (· = i) k' := by
  cases hput with
  | gone hc =>
    refine ⟨?_, fun _ _ => rfl, fun _ _ => Iff.rfl, fun _ => rfl, rfl⟩
    rintro j rfl
    exact hc
  | counted c hc href => exact absurd (hi c hc).1 href
  | released c k' hc href hrel =>
    obtain ⟨-, rfl, hback⟩ := hi c hc
    refine ⟨?_, ?_, fun p hp => ?_, ?_, listenersOf_congr hrel.listeners hrel.listing⟩
    · rintro j rfl
      rw [hrel.heap, Heap.cells_free_self]
    · intro j hj
      rw [hrel.heap, Heap.cells_free_of_ne hj]
    · rw [GivesBack, mem_ports_released hrel hp, hrel.ports]
      by_cases hfrees : c.type = .fake ∨ c.listener = none
      · -- the port goes from the record to the pool
        grind [GivesBack, TcpConnection.FreesPort]
      · rw [if_neg hfrees]
        grind [GivesBack, TcpConnection.FreesPort]
    · intro m
      rw [pendingOf, hrel.listeners, pendingOf]

theorem Frees.foldl_put {is : List Nat}
    (his : ∀ i ∈ is, ∀ c, k.heap.cells i = some c → c.ref = 1#32 ∧ c.tctx.actx = actx ∧
      (portInRange c.localPort → k.GivesBack actx c.localPort)) :
    Frees actx k (· ∈ is) (is.foldl tcpConnPut k) := by
  induction is generalizing k with
  | nil =>
    refine ⟨?_, fun _ _ => rfl, fun _ _ => Iff.rfl, fun _ => rfl, rfl⟩
    intro j hj
    cases hj
  | cons i is ih =>
    have hfirst := Frees.put (putCase k i) (his i mem_cons_self)
    -- what holds of the others in `k` holds after the first release
    have hrest := ih (k := k.tcpConnPut i) fun j hj c hc => by
      by_cases hji : j = i
      · rw [hfirst.gone j hji] at hc
        cases hc
      · rw [hfirst.kept j hji] at hc
        obtain ⟨href, hactx, hback⟩ := his j (mem_cons_of_mem i hj) c hc
        exact ⟨href, hactx, fun hp => (hfirst.ports _ hp).mpr (hback hp)⟩
    obtain ⟨hgone, hkept, hports, hpending, hlis⟩ := hfirst
    obtain ⟨hgone', hkept', hports', hpending', hlis'⟩ := hrest
    refine ⟨fun j hj => ?_, fun j hj => ?_, fun p hp => (hports' p hp).trans (hports p hp),
      fun n => (hpending' n).trans (hpending n), hlis'.trans hlis⟩ <;> grind

theorem cells_freeListener (k : Kernel) (n j : Nat) : (k.freeListener n).heap.cells j =
      if k.pendingOf n = some j then none else k.heap.cells j := by
  have hheap : (k.freeListener n).heap = (k.pendingOf n).elim k.heap k.heap.free := rfl
  rw [hheap]
  cases k.pendingOf n with
  | none => rfl
  | some i =>
    grind

theorem pendingOf_freeListener (k : Kernel) (n m : Nat) :
    (k.freeListener n).pendingOf m = if m = n then none else k.pendingOf m := by
  have hlis : (k.freeListener n).tcpListeners = (k.setPending n none).tcpListeners := rfl
  rw [pendingOf, hlis, getElem?_setPending]
  by_cases hm : m = n
  · rw [if_pos hm.symm, if_pos hm]
    cases k.tcpListeners[m]? <;> rfl
  · rw [if_neg (Ne.symm hm), if_neg hm, pendingOf]

theorem cells_foldl_freeListener (k : Kernel) (ns : List Nat) (j : Nat) :
    (ns.foldl freeListener k).heap.cells j =
      if j ∈ ns.filterMap k.pendingOf then none else k.heap.cells j := by
  induction ns generalizing k with
  | nil => rfl
  | cons n ns ih =>
    -- the listeners other than `n` have what they had
    have hmem : j ∈ (n :: ns).filterMap k.pendingOf ↔
        j ∈ ns.filterMap (k.freeListener n).pendingOf ∨ k.pendingOf n = some j := by
      simp only [mem_filterMap, pendingOf_freeListener, mem_cons]
      grind
    rw [foldl_cons, ih, cells_freeListener]
    grind

theorem foldl_freeListener_ports (k : Kernel) (ns : List Nat) :
    (ns.foldl freeListener k).availablePorts = k.availablePorts ∧
      (ns.foldl freeListener k).ports = k.ports := by
  induction ns generalizing k with
  | nil => exact ⟨rfl, rfl⟩
  | cons n ns ih => exact ih (k.freeListener n)

/-- The ports recorded for the application are those of the connections its exit deletes; and the
    exit ends. -/
def ExitsClean (k : Kernel) (actx : Nat) (xskOk : Bool) : Prop :=
  xskOk = true ∧ ∀ i < k.heap.next, ∀ c ∈ k.heap.cells i,
    (c.localPort ∈ k.ports actx ↔ i ∈ k.releasedOnExit actx)

instance (k : Kernel) (actx : Nat) (xskOk : Bool) : Decidable (k.ExitsClean actx xskOk) :=
  inferInstanceAs (Decidable (_ ∧ _))

theorem Ported.freeAppResources (h : k.Ported) {xskOk : Bool}
    (hclean : k.ExitsClean actx xskOk) : (k.freeAppResources actx xskOk).Ported := by
  obtain ⟨rfl, hports⟩ := hclean
  have hown : ∀ i c, k.heap.cells i = some c →
      (c.localPort ∈ k.ports actx ↔ i ∈ k.releasedOnExit actx) := fun i c hc =>
    hports i (lt_next_of_some hc) c hc
  have hconns : Frees actx k (· ∈ k.connectionsOf actx) (k.freeConnections actx) := by
    apply Frees.foldl_put
    intro i hi c hc
    have hactx := (mem_filter.mp hi).2
    rw [hc] at hactx
    refine ⟨h.ref i c hc, by simpa using hactx, fun _ => .inr ?_⟩
    exact (hown i c hc).mpr (mem_append_left _ hi)
  generalize hk₁ : k.freeConnections actx = k₁ at hconns
  have hcells : ∀ j, (k.freeAppResources actx true).heap.cells j =
      if j ∈ k.releasedOnExit actx then none else k.heap.cells j := by
    intro j
    have hheap : (k.freeAppResources actx true).heap =
        ((k₁.listenersOf actx).foldl freeListener k₁).heap := by rw [← hk₁]; rfl
    have hpending : k₁.pendingOf = k.pendingOf := funext hconns.pending
    rw [hheap, cells_foldl_freeListener, hconns.listeners, hpending, releasedOnExit]
    by_cases hconn : j ∈ k.connectionsOf actx
    · rw [hconns.gone j hconn, ite_self, if_pos (mem_append_left _ hconn)]
    · rw [hconns.kept j hconn]
      simp only [mem_append, hconn, false_or]
  constructor
  · refine h.owned.leave (s := (· ∈ k.releasedOnExit actx)) (t := (· ∈ k.ports actx)) ?_ ?_ ?_
    · intro j
      rw [portOf, hcells]
      split_ifs <;> rfl
    · intro p hp
      have hpool : (k.freeAppResources actx true).availablePorts =
          ((((k₁.listenersOf actx).foldl freeListener k₁).ports actx).sort).foldl free
            ((k₁.listenersOf actx).foldl freeListener k₁).availablePorts := by rw [← hk₁]; rfl
      obtain ⟨havail, hrec⟩ := foldl_freeListener_ports k₁ (k₁.listenersOf actx)
      rw [hpool, mem_foldl_free, Finset.mem_sort, havail, hrec, and_iff_right hp]
      exact hconns.ports p hp
    · intro j p hj _
      obtain ⟨c, hc, rfl⟩ := portOf_eq_some.mp hj
      constructor
      · intro hmem j' hj'
        obtain ⟨d, hd, hport⟩ := portOf_eq_some.mp hj'
        exact (hown j' d hd).mp (hport ▸ hmem)
      · intro hall
        exact (hown j c hc).mpr (hall j hj)
  · intro j d hd
    rw [hcells] at hd
    split_ifs at hd
    exact h.ref j d hd

/-! ## Runs -/

def Event.NoCcTo : Event → Prop
  | .pollCcTo _ => False
  | _ => True

instance : (e : Event) → Decidable e.NoCcTo
  | .pollCcTo _ => .isFalse id
  | .command .. | .packet .. | .pollHandshakes _ | .exit .. => .isTrue trivial

/-- A release frees the port iff the last user goes; an exit deletes the users of the ports it
    frees. -/
def ReleasesPorts (k : Kernel) : Event → Prop
  | .command _ _ (.tcp (.close m)) =>
    ∀ ic ∈ k.findTcpConn m.opaqueConnection, k.ReleasesLast ic.1 ic.2
  | .command _ tctx (.accept m) =>
    ∀ n ∈ k.findListener tctx m, ∀ l ∈ k.tcpListeners[n]?, k.usersOf l.listenPort ≠ []
  | .packet _ p _ =>
    ∀ opts ∈ p.parseTcpOpts, ∀ i ∈ k.tcpConnections.lookup p.tuple, ∀ c ∈ k.heap.cells i,
      c.status = .open → p.Closes opts → k.ReleasesLast i c
  | .exit actx xskOk => k.ExitsClean actx xskOk
  | _ => True

instance (k : Kernel) (e : Event) : Decidable (k.ReleasesPorts e) := by
  rcases e with ⟨_, _, ⟨⟨⟩⟩ | _⟩ | _ <;> unfold ReleasesPorts <;> infer_instance

theorem Ported.waiting (h : k.Ported) {l : TcpListener} {m : AcceptMsg}
    (hused : k.usersOf l.listenPort ≠ []) :
    (({ k with heap := k.heap.alloc (acceptedConn cfg tctx n l m) }).setPending n
      (some k.heap.next)).Ported := by
  refine h.of_alloc (c := acceptedConn cfg tctx n l m) rfl rfl fun p hp => ?_
  refine ⟨fun hmem => ⟨hmem, ?_⟩, And.left⟩
  intro heq
  obtain ⟨i, hi⟩ := exists_mem_of_ne_nil _ hused
  have hi' : k.portOf i = some p := heq ▸ mem_usersOf.mp hi
  exact (h.owned p hp).mp hmem i hi'

theorem ported_step (pf : Platform) {e : Event} (h : k.Ported) (hk : k.Accepting)
    (he : e.NoCcTo) (hclean : k.ReleasesPorts e) : (k.step pf e).Ported := by
  cases e with
  | command a tctx cmd =>
    cases cmd with
    | tcp cmd =>
      refine h.cmdCase (Control.cmdCase pf.cfg a.slot tctx k cmd) ?_
      rintro m rfl
      exact hclean
    | accept m =>
      unfold Kernel.step Kernel.processTcpCmd
      dsimp only
      split
      next k' hk' =>
        obtain ⟨n, l, hn, hl, -, hcase⟩ := tcpAccept_eq_some hk'
        exact (h.waiting (hclean n hn l hl)).acceptCase (hk.waiting hl) hcase
      next => exact h.quiet rfl rfl
  | packet a p qid => exact h.packetCase hk (Control.packetCase pf.cfg a p qid k) hclean
  | pollHandshakes deadline =>
    have h0 : Ported { k with tcpHandshakeList := [] } := h.quiet rfl rfl
    exact pollTcpHandshakeEvents_induct deadline h0 fun _ _ _ h => h.handshakeCase
  | pollCcTo => exact he.elim
  | exit actx xskOk => exact h.freeAppResources hclean

theorem ported_boot : boot.Ported where
  owned p hp := by
    refine ⟨fun _ i hi => ?_, fun _ => mem_all.mpr hp⟩
    cases hi
  ref i c hc := by cases hc

end Kernel

open Kernel

/-- In a run that meets `ReleasesPorts`, a port is available if and only if nobody uses it. -/
theorem ports_owned (pf : Platform) (es : List Event) (hno : ∀ e ∈ es, e.NoCcTo)
    (hclean : Meets (step pf) ReleasesPorts boot es) : Always (step pf) PortsOwned boot es := by
  have hall : Always (step pf) (fun k => k.Ported ∧ k.Accepting) boot es :=
    always_of_meets (fun k e hk he =>
      ⟨ported_step pf hk.1 hk.2 he.1 he.2, accepting_step pf k e hk.2⟩)
      ⟨ported_boot, accepting_boot⟩ ((meets_of_forall_mem hno).and hclean)
  exact hall.mono fun k hk => hk.1.portsOwned

theorem ports_owned_at :
    Always (step Site.nic) PortsOwned boot
      [Site.bind 0 1#64 false, Site.listen 0 1#64 2#64, Site.open 1 7#64,
        Site.synReceived 7#16 tcpSyn, Site.accept 0 2#64 5#64, .pollHandshakes 0#64,
        Site.close 0 5#64, .exit 0 true] :=
  ports_owned Site.nic _ (by decide) (by decide +kernel)

/-- One of two sockets on a port is closed. The port is available, and the other socket's. -/
theorem shared_port_freed :
    ¬ Always (step Site.nic) PortsOwned boot (Site.sharedBinds ++ [Site.close 0 1#64]) := by
  intro h
  have hlast := h.last
  rw [run_append, Site.run_sharedBinds, run_cons, run_nil] at hlast
  have hpool : ∀ pool, (step Site.nic { Site.shared with availablePorts := pool }
      (Site.close 0 1#64)).availablePorts = pool.free 1000#16 := fun pool => rfl
  have hcell : ((step Site.nic Site.shared (Site.close 0 1#64)).heap.cells 1).map
      TcpConnection.localPort = some 1000#16 := by
    decide +kernel
  obtain ⟨c, hc, hport⟩ := map_eq_some_iff.mp hcell
  refine (hlast 1000#16 (by decide)).mp ?_ ⟨1, c, hc, hport⟩
  have hmem : 1000#16 ∈ (Site.shared.availablePorts.free 1000#16).ports :=
    PortPool.mem_free.mpr (.inr ⟨by decide, rfl⟩)
  rwa [← hpool] at hmem

end MtpXdp.Control

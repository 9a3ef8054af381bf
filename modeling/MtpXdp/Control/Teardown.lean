import MtpXdp.Control.Effects

/-!
# The Listeners of an Application That Exits

`free_listeners` erases the list of a port from `tcp_listeners` once it has deleted a listener of
the list, so that the other listeners of the port are no longer found, whoever they belong to.
-/

namespace MtpXdp.Control

open Ebpf Function List

namespace Kernel

def freeTcpResources (k : Kernel) (actx : Nat) : Kernel :=
  (k.freeConnections actx).freeListeners actx

def Listens (k : Kernel) (n : Nat) (l : TcpListener) : Prop :=
  k.tcpListeners[n]? = some l ∧ k.listing n = .listed

/-- **The property**: the exit deletes the application's listeners only, and a SYN for another's
    port finds one. -/
structure LeavesOthers (cfg : Config) (k : Kernel) (actx : Nat) : Prop where
  listing : ∀ n l, k.Listens n l →
    (k.freeTcpResources actx).listing n = if l.tctx.actx = actx then .deleted else .listed
  lookup : ∀ n l (p : PktTcp), k.Listens n l → l.tctx.actx ≠ actx → p.destIp = cfg.localIp →
    p.dest = l.listenPort →
    ∃ n' ∈ (k.freeTcpResources actx).tcpListenerLookup cfg p,
      (k.freeTcpResources actx).listing n' = .listed

def PortsApart (k : Kernel) (actx : Nat) : Prop :=
  ∀ n l n' l', k.Listens n l → k.Listens n' l' → l.tctx.actx = actx → l'.tctx.actx ≠ actx →
    l'.listenPort ≠ l.listenPort

variable {k k' : Kernel} {actx n i : Nat} {l : TcpListener}

def owners (k : Kernel) : List (U16 × Nat) :=
  k.tcpListeners.map fun l => (l.listenPort, l.tctx.actx)

theorem listing_freeConnections (k : Kernel) (actx : Nat) :
    (k.freeConnections actx).listing = k.listing ∧
      (k.freeConnections actx).tcpListeners = k.tcpListeners := by
  unfold freeConnections
  generalize k.connectionsOf actx = is
  induction is generalizing k with
  | nil => exact ⟨rfl, rfl⟩
  | cons i is ih =>
    have hput : (k.tcpConnPut i).listing = k.listing ∧
        (k.tcpConnPut i).tcpListeners = k.tcpListeners := by
      have hcase := putCase k i
      generalize k.tcpConnPut i = k' at hcase
      cases hcase with
      | gone | counted => exact ⟨rfl, rfl⟩
      | released c k' hc href h => exact ⟨h.listing, h.listeners⟩
    exact ⟨(ih _).1.trans hput.1, (ih _).2.trans hput.2⟩

theorem foldl_freeListener (ns : List Nat) (k : Kernel) :
    (ns.foldl freeListener k).owners = k.owners ∧
      ∀ n, (ns.foldl freeListener k).listing n = if n ∈ ns then .deleted else k.listing n := by
  induction ns generalizing k with
  | nil => simp
  | cons m ns ih =>
    obtain ⟨howners, hlisting⟩ := ih (k.freeListener m)
    rw [foldl_cons]
    constructor
    · have hlis : (k.freeListener m).tcpListeners =
          k.tcpListeners.modify m fun l => { l with pendingConn := none } := rfl
      rw [howners, owners, hlis, owners]
      refine ext_getElem? fun n => ?_
      rw [getElem?_map, getElem?_map, getElem?_modify]
      cases k.tcpListeners[n]? with
      | none => rfl
      | some l => by_cases hm : m = n <;> simp [hm]
    · intro n
      rw [hlisting]
      have hfree : (k.freeListener m).listing = update k.listing m .deleted := rfl
      split_ifs <;> simp_all

theorem getElem?_owners (k : Kernel) (n : Nat) :
    k.owners[n]? = (k.tcpListeners[n]?).map fun l => (l.listenPort, l.tctx.actx) := getElem?_map ..

theorem mem_listenersOf : n ∈ k.listenersOf actx ↔ ∃ l, k.Listens n l ∧ l.tctx.actx = actx := by
  simp only [listenersOf, mem_filter, mem_range, decide_eq_true_eq, Option.map_eq_some_iff, Listens]
  constructor
  · rintro ⟨-, hlisted, l, hl, hactx⟩
    exact ⟨l, ⟨hl, hlisted⟩, hactx⟩
  · rintro ⟨l, ⟨hl, hlisted⟩, hactx⟩
    exact ⟨(List.getElem?_eq_some_iff.mp hl).1, hlisted, l, hl, hactx⟩

theorem listing_freeTcpResources (h : k.Listens n l) : (k.freeTcpResources actx).owners = k.owners ∧
      (l.tctx.actx = actx → (k.freeTcpResources actx).listing n = .deleted) ∧
      (l.tctx.actx ≠ actx → ((k.freeTcpResources actx).listing n = .listed ↔
        ∀ n' l', k.Listens n' l' → l'.tctx.actx = actx → l'.listenPort ≠ l.listenPort)) := by
  obtain ⟨hlisting, hlis⟩ := listing_freeConnections k actx
  have hns : (k.freeConnections actx).listenersOf actx = k.listenersOf actx := by
    rw [listenersOf, hlisting, hlis, listenersOf]
  obtain ⟨howners, hafter⟩ := foldl_freeListener (k.listenersOf actx) (k.freeConnections actx)
  have howners' : (k.freeConnections actx).owners = k.owners := by rw [owners, hlis, owners]
  unfold freeTcpResources freeListeners
  dsimp only [dropPortLists]
  rw [hns]
  refine ⟨howners.trans howners', ?_⟩
  -- the ports whose lists go
  have hports {port : U16} : port ∈ (k.listenersOf actx).filterMap (fun n =>
      ((k.freeConnections actx).tcpListeners[n]?).map TcpListener.listenPort) ↔
      ∃ n' l', k.Listens n' l' ∧ l'.tctx.actx = actx ∧ l'.listenPort = port := by
    simp only [mem_filterMap, mem_listenersOf, hlis, Option.map_eq_some_iff]
    constructor
    · rintro ⟨n', ⟨l', hl', hactx⟩, l'', hl'', rfl⟩
      obtain rfl := Option.some.inj (hl'.1.symm.trans hl'')
      exact ⟨n', l', hl', hactx, rfl⟩
    · rintro ⟨n', l', hl', hactx, rfl⟩
      exact ⟨n', ⟨l', hl', hactx⟩, l', hl'.1, rfl⟩
  have hport := congrArg (fun o => o[n]?) (howners.trans howners')
  simp only [getElem?_owners, h.1, Option.map_some, Option.map_eq_some_iff, Prod.mk.injEq] at hport
  obtain ⟨l₁, hl₁, hport, -⟩ := hport
  have hmem : n ∈ k.listenersOf actx ↔ l.tctx.actx = actx := by
    rw [mem_listenersOf]
    constructor
    · rintro ⟨l', hl', hactx⟩
      rwa [Option.some.inj (h.1.symm.trans hl'.1)]
    · exact fun hactx => ⟨l, h, hactx⟩
  rw [hafter, hlisting, h.2, hl₁]
  constructor
  · intro hown
    rw [if_pos (hmem.mpr hown), if_neg fun h => Listing.noConfusion h.1]
  · intro hother
    rw [if_neg (mt hmem.mp hother)]
    by_cases hshared : ∃ n' l', k.Listens n' l' ∧ l'.tctx.actx = actx ∧ l'.listenPort = l.listenPort
    · rw [if_pos ⟨rfl, l₁, rfl, hports.mpr (hport.symm ▸ hshared)⟩]
      obtain ⟨n', l', hl', hactx, heq⟩ := hshared
      exact iff_of_false (by decide) fun hapart => hapart n' l' hl' hactx heq
    · rw [if_neg]
      · exact iff_of_true rfl fun n' l' hl' hactx heq => hshared ⟨n', l', hl', hactx, heq⟩
      · rintro ⟨-, l₂, hl₂, hmem⟩
        cases hl₂
        exact hshared (hport ▸ hports.mp hmem)

/-- **An exit leaves the listeners of the others alone if and only if it shares no port with
    them.** -/
theorem leavesOthers_iff (cfg : Config) (k : Kernel) (actx : Nat) :
    LeavesOthers cfg k actx ↔ PortsApart k actx := by
  constructor
  · intro h n l n' l' hl hl' hactx hother hport
    have hlisting := h.listing n' l' hl'
    rw [if_neg hother] at hlisting
    exact ((listing_freeTcpResources hl').2.2 hother).mp hlisting n l hl hactx hport.symm
  · intro h
    have hkeep {n : Nat} {l : TcpListener} (hl : k.Listens n l) (hother : l.tctx.actx ≠ actx) :
        (k.freeTcpResources actx).listing n = .listed :=
      ((listing_freeTcpResources hl).2.2 hother).mpr fun n' l' hl' hactx hport =>
        h n' l' n l hl' hl hactx hother hport.symm
    constructor
    · intro n l hl
      split_ifs with hactx
      · exact (listing_freeTcpResources hl).2.1 hactx
      · exact hkeep hl hactx
    · intro n l p hl hother hip hport
      -- the list of the port is not empty, and has live listeners only
      have howner := getElem?_owners (k.freeTcpResources actx) n
      rw [(listing_freeTcpResources (k := k) hl).1, getElem?_owners, hl.1] at howner
      obtain ⟨l₁, hl₁, hl₁'⟩ := Option.map_eq_some_iff.mp howner.symm
      simp only [Prod.mk.injEq] at hl₁'
      have hmem : n ∈ (k.freeTcpResources actx).listenersOn p.dest := by
        simp only [listenersOn, mem_filter, mem_range, decide_eq_true_eq, Option.map_eq_some_iff]
        exact ⟨(List.getElem?_eq_some_iff.mp hl₁).1, hkeep hl hother, l₁, hl₁,
          hl₁'.1.trans hport.symm⟩
      rw [tcpListenerLookup, if_neg (not_not.mpr hip)]
      have hlt := Nat.mod_lt p.hash.toNat (length_pos_of_mem hmem)
      refine ⟨_, getElem?_eq_getElem hlt, ?_⟩
      have hfound := getElem_mem hlt
      simp only [listenersOn, mem_filter, decide_eq_true_eq] at hfound
      exact hfound.2.1

end Kernel

/-- Closing one of two sockets on port 1000 frees it, so another application can listen there. -/
def twoServers : Kernel :=
  { Kernel.boot with
    tcpListeners := [0, 1].map fun actx =>
      TcpListener.for ⟨0, actx⟩ ⟨1#64, 2#64, 3#32, 8#32⟩ actx
        { TcpConnection.new with localPort := 1000#16 } }

/-- The exit of the first takes the port from the second. -/
theorem exit_unlists_other :
    (twoServers.tcpListenerLookup Site.nic.cfg (Site.syn 7#16 tcpSyn)).isSome ∧
      (twoServers.freeTcpResources 0).tcpListenerLookup Site.nic.cfg (Site.syn 7#16 tcpSyn) = none ∧
      ¬ Kernel.LeavesOthers Site.nic.cfg twoServers 0 := by
  refine ⟨by decide +kernel, by decide +kernel, fun h => ?_⟩
  have hlisting := h.listing 1 _ ⟨rfl, rfl⟩
  exact absurd hlisting (by decide +kernel)

end MtpXdp.Control

import MtpXdp.Core.Run
import MtpXdp.Control.Commands

/-!
# Isolation Between Applications

The handlers find a connection by its `opaque_connection`, a value that the application sends; the
lookup ranges over the connections of all applications, and no handler compares owner and sender.
-/

namespace MtpXdp.Control

open MtpXdp.Core Ebpf Option ControlPlane

variable {s s' : ControlPlane} {i A j : Nat} {c : TcpConnection} {tctx : Tctx} {m : OpenMsg}
  {cfg : Config}

/-! ## The view of a connection -/

/-- A connection: its record, its eBPF entry, its keys in the table, and its listeners. -/
structure ConnRecord where
  type : TcpConnectionType
  status : ConnectionStatus
  tuple : FlowTuple
  owner : Tctx
  ref : U32
  ccIdx : U32
  entry : Option EbpfConn
  keys : List FlowTuple
  listeners : List TcpListener

def ControlPlane.listenersOf (s : ControlPlane) (i : Nat) : List TcpListener :=
  s.tcpListeners.filter (·.c = i)

def ControlPlane.recordOf (s : ControlPlane) (i : Nat) (c : TcpConnection) : ConnRecord where
  type := c.type
  status := c.status
  tuple := c.tuple
  owner := c.tctx
  ref := c.ref
  ccIdx := c.ccIdx
  entry := s.tcpConnectionMap c.tuple
  keys := s.tcpConnections.keysOf i
  listeners := s.listenersOf i

/-- The view of address `i`, `none` once the connection is deleted. -/
def ControlPlane.view (s : ControlPlane) (i : Nat) : Option ConnRecord :=
  (s.heap.cells i).map (s.recordOf i)

def Foreign (A : Nat) (s : ControlPlane) (i : Nat) : Prop :=
  ∃ c, s.heap.cells i = some c ∧ c.tctx.actx ≠ A

/-- **Isolation.** Every connection that other applications own in `s` is in `s'` as it was. -/
def OthersKept (A : Nat) (s s' : ControlPlane) : Prop :=
  ∀ i, Foreign A s i → s'.view i = s.view i

/-! ## Frames -/

structure SameConn (s s' : ControlPlane) (i : Nat) : Prop where
  cell : s'.heap.cells i = s.heap.cells i
  entry : ∀ c, s.heap.cells i = some c → s'.tcpConnectionMap c.tuple = s.tcpConnectionMap c.tuple
  keys : s'.tcpConnections.keysOf i = s.tcpConnections.keysOf i
  listeners : s'.listenersOf i = s.listenersOf i

theorem SameConn.view_eq (h : SameConn s s' i) : s'.view i = s.view i := by
  unfold view
  rw [h.cell]
  cases hc : s.heap.cells i with
  | none => rfl
  | some c => simp [recordOf, h.entry c hc, h.keys, h.listeners]

theorem foreign_iff_view : Foreign A s i ↔ ∃ r, s.view i = some r ∧ r.owner.actx ≠ A := by
  simp [Foreign, view, recordOf]

theorem Foreign.ne_of_own (hj : Foreign A s j) (hi : s.heap.cells i = some c)
    (hA : c.tctx.actx = A) : j ≠ i := by
  grind [Foreign]

theorem Foreign.ne_next (hj : Foreign A s j) : j ≠ s.heap.next := by
  obtain ⟨c, hc, _⟩ := hj
  exact Heap.ne_next_of_some hc

@[simp] theorem view_notifyApp (s : ControlPlane) (tctx : Tctx) (m : AppIn) (i : Nat) :
    (s.notifyApp tctx m).view i = s.view i := rfl

@[simp] theorem view_reportFailure (r : ControlPlane × Int) (tctx : Tctx) (m : AppIn) (i : Nat) :
    (reportFailure r tctx m).view i = r.1.view i := by
  unfold reportFailure
  split_ifs <;> rfl

theorem Foreign.of_reportFailure {r : ControlPlane × Int} {m : AppIn}
    (h : Foreign A (reportFailure r tctx m) i) : Foreign A r.1 i := by
  rwa [foreign_iff_view, view_reportFailure, ← foreign_iff_view] at h

theorem findTcpConn_spec {op : U64}
    (h : s.findTcpConn op = some (i, c)) : s.heap.cells i = some c := by
  obtain ⟨e, _, he⟩ := List.exists_of_findSome?_eq_some h
  split at he
  next d hd =>
    split_ifs at he
    cases he
    exact hd
  next => cases he

/-! ## Commands of one application -/

structure AppCmd where
  tid : Nat
  slot : Nat
  cmd : TcpCmd

def appStep (cfg : Config) (A : Nat) (s : ControlPlane) (e : AppCmd) : ControlPlane :=
  s.processTcpCmd cfg e.slot ⟨e.tid, A⟩ e.cmd

/-- Deleting `A`'s connection `c` removes no entry of others. -/
def ReleaseStaysOwn (A : Nat) (s : ControlPlane) (c : TcpConnection) : Prop :=
  match c.type with
  | .fake => ∀ j, (c.tuple, j) ∈ s.tcpConnections.entries → ¬ Foreign A s j
  | .normal =>
    ControlPlane.HasEbpfState c → s.tcpConnectionMap c.tuple ≠ none →
      ∀ j d, s.heap.cells j = some d → d.tctx.actx ≠ A → d.tuple ≠ c.tuple

/-- **The condition on a command**: what it acts on, and what its release would remove, is the
    sender's own. -/
def StaysOwn (A : Nat) (s : ControlPlane) (e : AppCmd) : Prop :=
  match e.cmd with
  | .open m => ∀ i c, s.findTcpConn m.opaqueConnection = some (i, c) → c.tctx.actx = A
  | .bind _ => True
  | .listen m =>
    ∀ i c, s.findTcpConn m.opaqueConnection = some (i, c) → c.type = .fake → c.tctx.actx = A
  | .close m =>
    ∀ i c, s.findTcpConn m.opaqueConnection = some (i, c) →
      c.tctx.actx = A ∧ (c.ref = 1#32 → ReleaseStaysOwn A s c)

section

variable {slot tid : Nat}

/-! ### `tcp_open` and `tcp_bind` -/

theorem sameConn_startHandshake (hj : j ≠ i) :
    SameConn s (s.startHandshake slot tctx i c) j where
  cell := rfl
  entry _ _ := rfl
  keys := Table.keysOf_insert_of_ne hj
  listeners := rfl

theorem view_tcpOpen_found (h : s.findTcpConn m.opaqueConnection = some (i, c)) :
    ((s.tcpOpen cfg slot ⟨tid, A⟩ m).1.view i).map (·.owner.actx) = some A := by
  have hc := findTcpConn_spec h
  simp [tcpOpen, h, view, startHandshake, notifyApp, regTcpConn, hc, recordOf,
    TcpConnection.openWith]

theorem view_tcpOpen_other (hj : Foreign A s j)
    (hne : ∀ i c, s.findTcpConn m.opaqueConnection = some (i, c) → j ≠ i) :
    (s.tcpOpen cfg slot ⟨tid, A⟩ m).1.view j = s.view j := by
  unfold tcpOpen
  split
  next i c h =>
    -- the fields of another connection are overwritten, and that one is registered
    have hji := hne i c h
    refine (sameConn_startHandshake hji).view_eq.trans (SameConn.view_eq ?_)
    exact ⟨Heap.cells_modify_of_ne hji, fun _ _ => rfl, rfl, rfl⟩
  next h =>
    split
    next => rfl
    next port pool hp =>
      -- the new connection has a fresh address
      refine (sameConn_startHandshake hj.ne_next).view_eq.trans (SameConn.view_eq ?_)
      exact ⟨Heap.cells_alloc_of_ne hj.ne_next, fun _ _ => rfl, rfl, rfl⟩

theorem sameConn_bindConn {m : BindMsg} (hj : Foreign A s j) :
    SameConn s (s.bindConn slot tctx m) j where
  cell := Heap.cells_alloc_of_ne hj.ne_next
  entry _ _ := rfl
  keys := Table.keysOf_insert_of_ne hj.ne_next
  listeners := rfl

theorem view_tcpBind_other {m : BindMsg} (hj : Foreign A s j) :
    (s.tcpBind slot tctx m).1.view j = s.view j := by
  unfold tcpBind
  split
  next => rfl
  next =>
    split
    next pool _ =>
      -- taking the port does not show in the heap
      have hj' : Foreign A { s with availablePorts := pool } j := hj
      exact (sameConn_bindConn hj').view_eq
    next =>
      split_ifs
      · exact (sameConn_bindConn hj).view_eq
      · rfl

/-! ### `tcp_listen` -/

theorem view_tcpListen_found {m : ListenMsg}
    (h : s.findTcpConn m.opaqueConnection = some (i, c)) (hfake : c.type = .fake) :
    (s.tcpListen tctx m).1.view i ≠ s.view i := by
  have hc := findTcpConn_spec h
  simp [tcpListen, h, hfake, view, hc, recordOf,
    notifyApp, listenersOf, TcpListener.for]

theorem view_tcpListen_other {m : ListenMsg}
    (hne : ∀ i c, s.findTcpConn m.opaqueConnection = some (i, c) → c.type = .fake → j ≠ i) :
    (s.tcpListen tctx m).1.view j = s.view j := by
  unfold tcpListen
  split
  next => rfl
  next i c h =>
    split_ifs with hfake
    · rfl
    · have hji := hne i c h (not_not.mp hfake)
      refine SameConn.view_eq ⟨rfl, fun _ _ => rfl, rfl, ?_⟩
      simp [notifyApp, listenersOf, TcpListener.for, Ne.symm hji]

/-! ### `tcp_close` -/

theorem closeNormal_spec (s : ControlPlane) (i : Nat) (c : TcpConnection) :
    (s.closeNormal i c).heap = s.heap.free i
      ∧ (s.closeNormal i c).tcpConnections = s.tcpConnections.eraseVal i
      ∧ (s.closeNormal i c).tcpListeners = s.tcpListeners ∧ (s.closeNormal i c).tcpConnectionMap =
          if ControlPlane.HasEbpfState c then Function.update s.tcpConnectionMap c.tuple none
          else s.tcpConnectionMap := by
  unfold closeNormal releasePort
  split_ifs <;> exact ⟨rfl, rfl, rfl, rfl⟩

theorem heap_tcpConnectionClose (s : ControlPlane) (i : Nat) (c : TcpConnection) :
    (s.tcpConnectionClose i c).heap = s.heap.free i := by
  unfold tcpConnectionClose
  split
  next => rfl
  next => exact (closeNormal_spec s i c).1

theorem view_tcpConnectionClose_iff (hi : s.heap.cells i = some c) (hA : c.tctx.actx = A) :
    OthersKept A s (s.tcpConnectionClose i c) ↔ ReleaseStaysOwn A s c := by
  unfold tcpConnectionClose ReleaseStaysOwn
  cases c.type with
  | fake =>
    constructor
    · intro h j hmem hj
      -- the erased key is one of `j`'s
      have hview := h j hj
      obtain ⟨d, hd, _⟩ := hj
      have hji : j ≠ i := Foreign.ne_of_own ⟨d, hd, ‹_›⟩ hi hA
      have hcell : (s.closeFake i c).heap.cells j = some d := (Heap.cells_free_of_ne hji).trans hd
      simp only [view, hcell, hd, map_some, some.injEq] at hview
      exact Table.keysOf_eraseKey_eq_iff.mp (congrArg ConnRecord.keys hview) hmem
    · intro h j hj
      refine SameConn.view_eq ⟨Heap.cells_free_of_ne (hj.ne_of_own hi hA), fun _ _ => rfl, ?_, rfl⟩
      exact Table.keysOf_eraseKey_eq_iff.mpr fun hmem => h j hmem hj
  | normal =>
    obtain ⟨hheap, hconns, hlist, hmap⟩ := closeNormal_spec s i c
    have hcell : ∀ j, Foreign A s j → (s.closeNormal i c).heap.cells j = s.heap.cells j :=
      fun j hj => by rw [hheap, Heap.cells_free_of_ne (hj.ne_of_own hi hA)]
    constructor
    · intro h hst hsome j d hd hne htup
      -- the deleted eBPF entry is `j`'s
      have hview := h j ⟨d, hd, hne⟩
      simp only [view, hcell j ⟨d, hd, hne⟩, hd, map_some, some.injEq] at hview
      have hentry := congrArg ConnRecord.entry hview
      simp only [recordOf, hmap, if_pos hst, htup, Function.update_self] at hentry
      exact hsome hentry.symm
    · intro h j hj
      refine SameConn.view_eq ⟨hcell j hj, ?_, ?_, ?_⟩
      · intro d hd
        rw [hmap]
        split_ifs with hst
        · -- an entry at the same tuple may go only if there is none
          grind [Foreign]
        · rfl
      · rw [hconns, Table.keysOf_eraseVal_of_ne (hj.ne_of_own hi hA)]
      · rw [listenersOf, hlist]
        rfl

theorem view_tcpConnPut_self (hi : s.heap.cells i = some c) :
    (s.tcpConnPut i c).view i ≠ s.view i := by
  unfold tcpConnPut
  split_ifs with hzero
  · simp [view, heap_tcpConnectionClose, hi]
  · have hne : c.ref - 1#32 ≠ c.ref := by bv_omega
    simp [view, hi, recordOf, hne]

def ControlPlane.dropRef (s : ControlPlane) (i : Nat) : ControlPlane :=
  { s with heap := s.heap.modify i fun c => { c with ref := c.ref - 1#32 } }

theorem foreign_dropRef : Foreign A (s.dropRef i) j ↔ Foreign A s j := by
  unfold Foreign dropRef
  rcases eq_or_ne j i with rfl | hji
  · simp only [Heap.cells_modify_self]
    cases s.heap.cells j <;> simp
  · rw [Heap.cells_modify_of_ne hji]

theorem view_dropRef_other (hji : j ≠ i) : (s.dropRef i).view j = s.view j :=
  SameConn.view_eq ⟨Heap.cells_modify_of_ne hji, fun _ _ => rfl, rfl, rfl⟩

section

variable (hi : s.heap.cells i = some c) (hA : c.tctx.actx = A)
include hi hA

theorem othersKept_dropRef_iff : OthersKept A (s.dropRef i) s' ↔ OthersKept A s s' := by
  refine forall_congr' fun j => ?_
  rw [foreign_dropRef]
  refine imp_congr_right fun hj => ?_
  rw [view_dropRef_other (hj.ne_of_own hi hA)]

theorem releaseStaysOwn_dropRef :
    ReleaseStaysOwn A (s.dropRef i) { c with ref := c.ref - 1#32 } ↔ ReleaseStaysOwn A s c := by
  unfold ReleaseStaysOwn
  cases c.type with
  | fake => simp only [foreign_dropRef]; rfl
  | normal =>
    refine imp_congr_right fun _ => imp_congr_right fun _ => forall_congr' fun j => ?_
    simp only [dropRef, Heap.cells_modify]
    split_ifs with hji
    · -- the connection itself is `A`'s before and after
      subst hji
      simp [hi, hA]
    · rfl

theorem othersKept_tcpConnPut_iff :
    OthersKept A s (s.tcpConnPut i c) ↔ (c.ref = 1#32 → ReleaseStaysOwn A s c) := by
  have hput : s.tcpConnPut i c =
      if c.ref - 1#32 = 0#32 then (s.dropRef i).tcpConnectionClose i { c with ref := c.ref - 1#32 }
      else s.dropRef i := rfl
  have hone : c.ref - 1#32 = 0#32 ↔ c.ref = 1#32 := by bv_omega
  -- the release function runs after the count has been written
  rw [hput, ← othersKept_dropRef_iff hi hA, ← releaseStaysOwn_dropRef hi hA]
  split_ifs with hzero
  · have hi' : (s.dropRef i).heap.cells i = some { c with ref := c.ref - 1#32 } := by
      simp [dropRef, hi]
    rw [view_tcpConnectionClose_iff hi' hA]
    exact ⟨fun h _ => h, fun h => h (hone.mp hzero)⟩
  · exact ⟨fun _ h => absurd (hone.mpr h) hzero, fun _ _ _ => rfl⟩

end

end

/-! ## One command -/

theorem Foreign.of_alloc (h : Foreign A s' j) (hheap : s'.heap = s.heap.alloc c)
    (hA : c.tctx.actx = A) :
    Foreign A s j := by
  obtain ⟨d, hd, hne⟩ := h
  exact ⟨d, by grind, hne⟩

theorem Foreign.of_free (h : Foreign A s' j) (hheap : s'.heap = s.heap.free i) : Foreign A s j := by
  obtain ⟨d, hd, hne⟩ := h
  exact ⟨d, by grind, hne⟩

theorem foreign_of_foreign_tcpOpen {slot tid : Nat}
    (h : Foreign A (s.tcpOpen cfg slot ⟨tid, A⟩ m).1 j) : Foreign A s j := by
  unfold tcpOpen at h
  split at h
  next i c hfind =>
    obtain ⟨d, hd, hne⟩ := h
    change (s.heap.modify i fun c => c.openWith cfg ⟨tid, A⟩ m 0#16).cells j = some d at hd
    -- the connection found is now `A`'s
    exact ⟨d, by grind [findTcpConn_spec hfind, TcpConnection.openWith], hne⟩
  next =>
    split at h
    next => exact h
    next => exact h.of_alloc rfl rfl

theorem foreign_of_foreign_tcpBind {slot tid : Nat} {m : BindMsg}
    (h : Foreign A (s.tcpBind slot ⟨tid, A⟩ m).1 j) : Foreign A s j := by
  unfold tcpBind at h
  split at h
  next => exact h
  next =>
    split at h
    next => exact h.of_alloc rfl rfl
    next =>
      split_ifs at h
      · exact h.of_alloc rfl rfl
      · exact h

theorem foreign_of_foreign_tcpConnPut (h : Foreign A (s.tcpConnPut i c) j) : Foreign A s j := by
  unfold tcpConnPut at h
  split_ifs at h
  · exact foreign_dropRef.mp (h.of_free (heap_tcpConnectionClose _ i _))
  · exact foreign_dropRef.mp h

theorem foreign_of_foreign_step {e : AppCmd}
    (h : Foreign A (appStep cfg A s e) j) : Foreign A s j := by
  obtain ⟨tid, slot, cmd⟩ := e
  cases cmd with
  | «open» m =>
    exact foreign_of_foreign_tcpOpen h.of_reportFailure
  | bind m =>
    exact foreign_of_foreign_tcpBind h.of_reportFailure
  | listen m =>
    have hlisten := h.of_reportFailure
    unfold tcpListen at hlisten
    split at hlisten
    next => exact hlisten
    next => split_ifs at hlisten <;> exact hlisten
  | close m =>
    have hclose := h.of_reportFailure
    unfold tcpClose at hclose
    split at hclose
    next => exact hclose
    next => exact foreign_of_foreign_tcpConnPut hclose

theorem othersKept_step_iff {e : AppCmd} : OthersKept A s (appStep cfg A s e) ↔ StaysOwn A s e := by
  obtain ⟨tid, slot, cmd⟩ := e
  unfold OthersKept appStep StaysOwn
  cases cmd with
  | «open» m =>
    simp only [processTcpCmd, view_reportFailure]
    constructor
    · intro h i c hfind
      by_contra hA
      -- a foreign connection would have changed its owner
      have hc := findTcpConn_spec hfind
      have hview : ((s.tcpOpen cfg slot ⟨tid, A⟩ m).1.view i).map (·.owner.actx) = some A :=
        view_tcpOpen_found hfind
      rw [h i ⟨c, hc, hA⟩] at hview
      simp [view, hc, recordOf] at hview
      exact hA hview
    · intro h j hj
      exact view_tcpOpen_other hj fun i c hfind =>
        hj.ne_of_own (findTcpConn_spec hfind) (h i c hfind)
  | bind m =>
    simp only [processTcpCmd, view_reportFailure]
    exact ⟨fun _ => trivial, fun _ j hj => view_tcpBind_other hj⟩
  | listen m =>
    simp only [processTcpCmd, view_reportFailure]
    constructor
    · -- a foreign connection would have one more listener
      intro h i c hfind hfake
      by_contra hA
      exact view_tcpListen_found hfind hfake (h i ⟨c, findTcpConn_spec hfind, hA⟩)
    · intro h j hj
      exact view_tcpListen_other fun i c hfind hfake =>
        hj.ne_of_own (findTcpConn_spec hfind) (h i c hfind hfake)
  | close m =>
    simp only [processTcpCmd, view_reportFailure, tcpClose]
    cases hfind : s.findTcpConn m.opaqueConnection with
    | none => simp
    | some ic =>
      obtain ⟨i, c⟩ := ic
      have hc := findTcpConn_spec hfind
      constructor
      · intro h i' c' heq
        cases heq
        -- a foreign connection would have lost a reference
        have hA : c.tctx.actx = A := by
          by_contra hA
          exact view_tcpConnPut_self hc (h i ⟨c, hc, hA⟩)
        exact ⟨hA, (othersKept_tcpConnPut_iff hc hA).mp h⟩
      · intro h
        obtain ⟨hA, hrel⟩ := h i c rfl
        exact (othersKept_tcpConnPut_iff hc hA).mpr hrel

/-! ## Runs -/

theorem OthersKept.congr_left {s₀ : ControlPlane} (h : OthersKept A s₀ s)
    (hback : ∀ i, Foreign A s i → Foreign A s₀ i) : OthersKept A s₀ s' ↔ OthersKept A s s' := by
  have hiff : ∀ i, Foreign A s₀ i ↔ Foreign A s i := fun i =>
    ⟨fun hi => by rwa [foreign_iff_view, h i hi, ← foreign_iff_view], hback i⟩
  refine forall_congr' fun i => ?_
  rw [← hiff i]
  refine imp_congr_right fun hi => ?_
  rw [h i hi]

/-- **Isolation over runs**: the others' connections stay as they are iff every command of `A` stays
    with its own. -/
theorem othersKept_always_iff (cfg : Config) (A : Nat) (s₀ : ControlPlane) (es : List AppCmd) :
    Always (appStep cfg A) (OthersKept A s₀) s₀ es ↔ Meets (appStep cfg A) (StaysOwn A) s₀ es := by
  -- the others' connections in the states reached are those of the start, as they were
  let Inv := fun s => OthersKept A s₀ s ∧ ∀ i, Foreign A s i → Foreign A s₀ i
  have hstep : ∀ s e, Inv s → (OthersKept A s₀ (appStep cfg A s e) ↔ StaysOwn A s e) :=
    fun s e hs => (hs.1.congr_left hs.2).trans othersKept_step_iff
  have hkeep : ∀ s e, Inv s → True → StaysOwn A s e → Inv (appStep cfg A s e) :=
    fun s e hs _ hown =>
      ⟨(hstep s e hs).mpr hown, fun i hi => hs.2 i (foreign_of_foreign_step hi)⟩
  have h0 : Inv s₀ := ⟨fun _ _ => rfl, fun _ hi => hi⟩
  exact always_iff_meets hkeep (fun s e hs _ h => (hstep s e hs).mp h) (fun s hs => hs.1) h0
    meets_true

/-! ### A command on another application's connection -/

def bootState : ControlPlane where
  heap := Heap.empty
  tcpConnections := Table.empty
  tcpListeners := []
  tcpHandshakeList := []
  tcpConnectionMap _ := none
  availCcIdxs := []
  availablePorts := ⟨[5000#16], List.nodup_singleton _, by simp [portInRange, portMin, portMax]⟩
  ports _ := ∅
  kernelOut := []
  resets := []

def exampleConfig : Config := ⟨0x0A000001#32, 0x80000#32, 0x80000#32⟩

def secondOpened : ControlPlane :=
  appStep exampleConfig 2 bootState ⟨0, 0, .open ⟨0x7F0000001000#64, 7#32, 0x0A000002#32, 80#16⟩⟩

def closeByFirst : AppCmd := ⟨0, 0, .close ⟨0x7F0000001000#64, 3#32⟩⟩

/-- The other application's connection is deleted. -/
theorem othersKept_fails :
    (secondOpened.view 0).map (·.owner) = some ⟨0, 2⟩
      ∧ (appStep exampleConfig 1 secondOpened closeByFirst).view 0 = none
      ∧ ¬ Always (appStep exampleConfig 1) (OthersKept 1 secondOpened) secondOpened
          [closeByFirst] := by
  have howner : (secondOpened.view 0).map (·.owner) = some ⟨0, 2⟩ := by decide
  have hgone : (appStep exampleConfig 1 secondOpened closeByFirst).view 0 = none := by decide
  refine ⟨howner, hgone, fun h => ?_⟩
  obtain ⟨r, hr, hown⟩ := map_eq_some_iff.mp howner
  have hforeign : Foreign 1 secondOpened 0 := foreign_iff_view.mpr ⟨r, hr, by simp [hown]⟩
  have hkept := h.2 0 hforeign
  rw [hgone, hr] at hkept
  cases hkept

end MtpXdp.Control

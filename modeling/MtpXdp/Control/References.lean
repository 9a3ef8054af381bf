import MtpXdp.Control.Accepting

/-!
# References to Connections

The micro kernel holds addresses of connections in `tcp_handshake_list`, `tcp_connections`, and
`pending_conn` and `c` of its listeners. `tcp_connection_close` takes a connection out of the table
under one key only, so it may only be released when it waits for no handshake step, no listener was
made for it, and it has one key.
-/

namespace MtpXdp.Control

open MtpXdp.Core Ebpf Kernel List Option

variable {k k' : Kernel} {i j slot n : Nat} {c : TcpConnection} {cfg : Config} {now : U64}
  {d : TcpConnection} {f : TcpConnection → TcpConnection}

/-! ## Integrity -/

def Kernel.Live (k : Kernel) (i : Nat) : Prop := (k.heap.cells i).isSome
deriving Decidable

theorem Kernel.live_of_some (hc : k.heap.cells i = some c) : k.Live i := by rw [Live, hc]; rfl

structure Kernel.Refs (k : Kernel) : Prop where
  table : ∀ i, k.Registered i → k.Live i
  handshakes : ∀ i ∈ k.tcpHandshakeList, k.Live i
  listened : ∀ l ∈ k.tcpListeners, k.Live l.c

structure Kernel.Intact (k : Kernel) : Prop extends k.Refs where
  pending : ∀ l ∈ k.tcpListeners, ∀ i ∈ l.pendingConn, k.Live i

theorem Kernel.Accepting.pending_live (hk : k.Accepting) :
    ∀ l ∈ k.tcpListeners, ∀ i ∈ l.pendingConn, k.Live i := by
  intro l hl i hi
  obtain ⟨n, hn⟩ := mem_iff_getElem?.mp hl
  obtain ⟨-, c, hc, -⟩ := hk.pending n l i hn hi
  exact live_of_some hc

/-! ## Steps that delete nothing -/

structure Grows (k k' : Kernel) : Prop where
  live : ∀ i, k.Live i → k'.Live i
  table : ∀ i, k'.Registered i → k.Registered i ∨ k'.Live i
  handshakes : ∀ i ∈ k'.tcpHandshakeList, i ∈ k.tcpHandshakeList ∨ k'.Live i
  listened : ∀ l' ∈ k'.tcpListeners, (∃ l ∈ k.tcpListeners, l.c = l'.c) ∨ k'.Live l'.c

theorem Kernel.Refs.grows (h : k.Refs) (hg : Grows k k') : k'.Refs where
  table i hi := (hg.table i hi).elim (fun hi => hg.live i (h.table i hi)) id
  handshakes i hi := (hg.handshakes i hi).elim (fun hi => hg.live i (h.handshakes i hi)) id
  listened l' hl' := by
    rcases hg.listened l' hl' with ⟨l, hl, hc⟩ | hlive
    · exact hc ▸ hg.live l.c (h.listened l hl)
    · exact hlive

namespace Grows

theorem of_heap (hlive : ∀ i, k.Live i → k'.Live i) (htable : k'.tcpConnections = k.tcpConnections)
    (hhs : ∀ i ∈ k'.tcpHandshakeList, i ∈ k.tcpHandshakeList ∨ k'.Live i)
    (hlis : k'.tcpListeners = k.tcpListeners) : Grows k k' where
  live := hlive
  table i hi := by
    rw [Registered, htable] at hi
    exact .inl hi
  handshakes := hhs
  listened l hl := .inl ⟨l, hlis ▸ hl, rfl⟩

theorem quiet (hheap : k'.heap = k.heap) (htable : k'.tcpConnections = k.tcpConnections)
    (hhs : k'.tcpHandshakeList = k.tcpHandshakeList) (hlis : k'.tcpListeners = k.tcpListeners) :
    Grows k k' :=
  of_heap (fun i hi => by rwa [Live, hheap]) htable (fun i hi => .inl (hhs ▸ hi)) hlis

theorem live_modify (hheap : k'.heap = k.heap.modify i f) (j : Nat)
    (hj : k.Live j) : k'.Live j := by
  grind [Live, isSome_map]

theorem live_alloc (hheap : k'.heap = k.heap.alloc c) (j : Nat) (hj : k.Live j) : k'.Live j := by
  grind [Live]

theorem modify (hheap : k'.heap = k.heap.modify i f) (htable : k'.tcpConnections = k.tcpConnections)
    (hhs : k'.tcpHandshakeList = k.tcpHandshakeList) (hlis : k'.tcpListeners = k.tcpListeners) :
    Grows k k' :=
  of_heap (live_modify hheap) htable (fun _ hi => .inl (hhs ▸ hi)) hlis

theorem register {t : FlowTuple} (hlive : ∀ j, k.Live j → k'.Live j) (hi : k'.Live i)
    (htable : k'.tcpConnections = k.tcpConnections.insert slot t i)
    (hhs : k'.tcpHandshakeList = k.tcpHandshakeList ∨
      k'.tcpHandshakeList = k.tcpHandshakeList ++ [i])
    (hlis : ∀ l' ∈ k'.tcpListeners, ∃ l ∈ k.tcpListeners, l.c = l'.c) : Grows k k' where
  live := hlive
  table j hj := by grind [registered_insert]
  handshakes j hj := by grind
  listened l' hl' := .inl (hlis l' hl')

end Grows

theorem exists_of_mem_modify {ls : List TcpListener} {pending : Option Nat} {l' : TcpListener}
    (h : l' ∈ ls.modify n fun l => { l with pendingConn := pending }) : ∃ l ∈ ls, l.c = l'.c := by
  obtain ⟨m, hm⟩ := mem_iff_getElem?.mp h
  rw [getElem?_modify] at hm
  obtain ⟨l, hl, rfl⟩ := map_eq_some_iff.mp hm
  refine ⟨l, mem_of_getElem? hl, ?_⟩
  split_ifs <;> rfl

/-! ## Releases -/

/-- The one reference to the connection `c` at `i` is the entry of the table that goes with it. -/
def Kernel.Releasable (k : Kernel) (i : Nat) (c : TcpConnection) : Prop :=
  i ∉ k.tcpHandshakeList ∧ (∀ l ∈ k.tcpListeners, l.c ≠ i) ∧
    if c.type = .fake then ∀ t ∈ k.tcpConnections.keysOf i, t = c.tuple
    else (k.tcpConnections.keysOf i).length ≤ 1
deriving Decidable

theorem Releasable.not_registered (h : k.Releasable i c) (hrel : Released k i c k') :
    ¬ k'.Registered i := by
  rintro ⟨t, ht⟩
  have hkeys := h.2.2
  rw [hrel.table] at ht
  split_ifs at ht hkeys
  · obtain ⟨hmem, hne⟩ := Table.mem_eraseKey.mp ht
    exact hne (hkeys t (Table.mem_keysOf.mpr hmem))
  · exact Table.ne_of_mem_eraseVal hkeys ht rfl

theorem Kernel.Refs.released (h : k.Refs) (hrel : Released k i c k') (hi : k.Releasable i c) :
    k'.Refs := by
  have hlive : ∀ j, j ≠ i → k.Live j → k'.Live j := fun j hj hl => by
    rwa [Live, hrel.heap, Heap.cells_free_of_ne hj]
  refine ⟨fun j hj => hlive j ?_ (h.table j (hrel.registered hj)), fun j hj => ?_, fun l hl => ?_⟩
  · rintro rfl
    exact Releasable.not_registered hi hrel hj
  · rw [hrel.handshakes] at hj
    exact hlive j (fun hji => hi.1 (hji ▸ hj)) (h.handshakes j hj)
  · rw [hrel.listeners] at hl
    exact hlive l.c (hi.2.1 l hl) (h.listened l hl)

theorem Kernel.Refs.put (h : k.Refs) (hput : PutCase k i k')
    (hi : ∀ c, k.heap.cells i = some c → k.Releasable i c) : k'.Refs := by
  cases hput with
  | gone hc => exact h
  | counted c hc href => exact h.grows (.modify rfl rfl rfl rfl)
  | released c k' hc href hrel => exact h.released hrel (hi c hc)

/-! ## Commands and packets -/

theorem Kernel.Refs.cmdCase {tctx : Tctx} {cmd : TcpCmd} (h : k.Refs)
    (hcase : CmdCase cfg slot tctx k cmd k')
    (hclean : ∀ m, cmd = .close m → ∀ ic ∈ k.findTcpConn m.opaqueConnection,
      k.Releasable ic.1 ic.2) : k'.Refs := by
  cases hcase with
  | failed out => exact h.grows (.quiet rfl rfl rfl rfl)
  | reopened m i c out hfind =>
    obtain ⟨-, hc, -⟩ := ControlPlane.findTcpConn_registered hfind
    refine h.grows (.register (Grows.live_modify rfl) ?_ rfl (.inr rfl) fun l hl => ⟨l, hl, rfl⟩)
    exact Grows.live_modify rfl i (live_of_some hc)
  | opened m port pool out hfind hport =>
    refine h.grows (.register (Grows.live_alloc rfl) ?_ rfl (.inr rfl) fun l hl => ⟨l, hl, rfl⟩)
    exact live_of_some (Heap.cells_alloc_next ..)
  | bound m pool out hfind hport =>
    refine h.grows (.register (Grows.live_alloc rfl) ?_ rfl (.inl rfl) fun l hl => ⟨l, hl, rfl⟩)
    exact live_of_some (Heap.cells_alloc_next ..)
  | listening m i c out hfind htype =>
    obtain ⟨-, hc, -⟩ := ControlPlane.findTcpConn_registered hfind
    refine h.grows ⟨fun _ hj => hj, fun _ hj => .inl hj, fun _ hj => .inl hj, fun l hl => ?_⟩
    rcases mem_append.mp hl with hl | hl
    · exact .inl ⟨l, hl, rfl⟩
    · rw [mem_singleton.mp hl]
      exact .inr (live_of_some hc)
  | closed m i c k' out hfind hput =>
    obtain ⟨-, hc, -⟩ := ControlPlane.findTcpConn_registered hfind
    have hrefs : k'.Refs := h.put hput fun d hd => by
      obtain rfl := some.inj (hc.symm.trans hd)
      exact hclean m rfl (i, c) hfind
    exact hrefs.grows (.quiet rfl rfl rfl rfl)

theorem Kernel.Refs.acceptCase (h : k.Refs) (hcase : AcceptCase cfg slot n k k') : k'.Refs := by
  cases hcase with
  | ignored => exact h
  | dropped b rest hb => exact h.grows (.quiet rfl rfl rfl rfl)
  | failed l i b rest idxs syn hl hi hb hidxs => exact h.grows (.modify rfl rfl rfl rfl)
  | accepted l i b rest c idx idxs syn hl hi hb hc hidxs =>
    refine h.grows (.register (Grows.live_modify rfl) ?_ rfl (.inr rfl) fun l' hl' => ?_)
    · exact Grows.live_modify rfl i (live_of_some hc)
    · exact exists_of_mem_modify hl'

theorem Kernel.Refs.packetCase {p : PktTcp} (h : k.Refs) (hcase : PacketCase cfg slot p k k')
    (hclean : ∀ opts ∈ p.parseTcpOpts, ∀ i ∈ k.tcpConnections.lookup p.tuple,
      ∀ c ∈ k.heap.cells i, c.status = .open → p.Closes opts → k.Releasable i c) : k'.Refs := by
  cases hcase with
  | none resets => exact h.grows (.quiet rfl rfl rfl rfl)
  | conn i c opts k' hopts hi hc hconn =>
    cases hconn with
    | ignored => exact h
    | synackFailed qid idxs syn hstatus hidxs => exact h.grows (.modify rfl rfl rfl rfl)
    | opened qid idx idxs syn reply out hstatus hflags hidxs hreply =>
      exact h.grows (.modify rfl rfl rfl rfl)
    | resent ts hstatus hflags hts => exact h.grows (.quiet rfl rfl rfl rfl)
    | put out k' hstatus hwhy hput =>
      have hout : Refs { k with kernelOut := out } := h.grows (.quiet rfl rfl rfl rfl)
      refine hout.put hput fun d hd => ?_
      obtain rfl := some.inj (hc.symm.trans hd)
      exact hclean opts hopts i hi c hc hstatus hwhy
    | acked hstatus => exact h.grows (.quiet rfl rfl rfl rfl)
  | listener n k' hi hn hlis =>
    cases hlis with
    | ignored => exact h
    | queued l b out k' hl hp hnew hacc =>
      have hq : Refs { k with
          backlog := Function.update k.backlog n (k.backlog n ++ [b])
          handshakeOut := out } := h.grows (.quiet rfl rfl rfl rfl)
      exact hq.acceptCase hacc

/-! ## The handshake poll -/

theorem Kernel.Refs.handshakeCase (h : k.Refs) (hcase : HandshakeCase k i k') : k'.Refs := by
  cases hcase with
  | ignored => exact h
  | synSent c syn p hc hstatus hp => exact h.grows (.modify rfl rfl rfl rfl)
  | synackSent c p out hc hstatus hp => exact h.grows (.modify rfl rfl rfl rfl)

/-! ## The poll of timers

The loop writes to a connection when its SYN is due again, and collects those
that timed out. A connection that stands in the table once is looked at once, so
what the loop decides on is what it found at its start. -/

def Kernel.RanOut (k : Kernel) (now : U64) (i : Nat) (c : TcpConnection) : Prop :=
  k.SynDue now i c ∨ k.TimedOut now i c
deriving Decidable

def Kernel.timer (k : Kernel) (i : Nat) :
    Option (TcpConnectionType × ConnectionStatus) × SynState :=
  ((k.heap.cells i).map fun c => (c.type, c.status), k.syn i)

theorem exists_of_timer_eq (h : k'.timer i = k.timer i) (hd : k'.heap.cells i = some d) :
    ∃ c, k.heap.cells i = some c ∧ d.type = c.type ∧ d.status = c.status ∧ k'.syn i = k.syn i := by
  simp only [timer, hd, map_some, Prod.mk.injEq] at h
  obtain ⟨c, hc, hview⟩ := map_eq_some_iff.mp h.1.symm
  rw [Prod.mk.injEq] at hview
  exact ⟨c, hc, hview.1.symm, hview.2.symm, h.2⟩

theorem synDue_congr (htype : d.type = c.type)
    (hstatus : d.status = c.status) (hsyn : k'.syn i = k.syn i) :
    k'.SynDue now i d ↔ k.SynDue now i c := by
  rw [SynDue, SynDue, htype, hstatus, hsyn]

theorem timedOut_congr (htype : d.type = c.type)
    (hstatus : d.status = c.status) (hsyn : k'.syn i = k.syn i) :
    k'.TimedOut now i d ↔ k.TimedOut now i c := by
  rw [TimedOut, TimedOut, htype, hstatus, hsyn]

theorem not_synDue_of_timedOut (h : k.TimedOut now i c) : ¬ k.SynDue now i c :=
  fun hdue => h.2.2.2.2.1 ⟨hdue.2.1, hdue.2.2.2.2⟩

structure CcToRefs (now : U64) (k : Kernel) (done : List Nat) (acc : Kernel × List Nat) : Prop where
  refs : acc.1.Refs
  table : acc.1.tcpConnections = k.tcpConnections
  listeners : acc.1.tcpListeners = k.tcpListeners
  timers : ∀ i, acc.1.timer i = k.timer i ∨
    (i ∈ done ∧ ∃ c, k.heap.cells i = some c ∧ k.SynDue now i c)
  handshakes : ∀ i ∈ acc.1.tcpHandshakeList, i ∈ k.tcpHandshakeList ∨
    ∃ c, k.heap.cells i = some c ∧ k.SynDue now i c
  toPut : ∀ i ∈ acc.2, i ∈ done ∧ ∃ c, k.heap.cells i = some c ∧ k.TimedOut now i c

theorem CcToRefs.step {done : List Nat} {acc acc' : Kernel × List Nat}
    (h : CcToRefs now k done acc) (hi : acc.1.timer i = k.timer i)
    (hcase : CcToCase now acc.1 acc.2 i acc') : CcToRefs now k (done ++ [i]) acc' := by
  have htimers : ∀ j, acc.1.timer j = k.timer j ∨
      (j ∈ done ++ [i] ∧ ∃ c, k.heap.cells j = some c ∧ k.SynDue now j c) := fun j =>
    (h.timers j).imp_right fun hj => ⟨mem_append_left _ hj.1, hj.2⟩
  have htoPut : ∀ j ∈ acc.2, j ∈ done ++ [i] ∧ ∃ c, k.heap.cells j = some c ∧ k.TimedOut now j c :=
    fun j hj => ⟨mem_append_left _ (h.toPut j hj).1, (h.toPut j hj).2⟩
  cases hcase with
  | ignored => exact { h with timers := htimers, toPut := htoPut }
  | resent d syn hd hdue hsyn =>
    obtain ⟨c, hc, htype, hstatus, hsame⟩ := exists_of_timer_eq hi hd
    have hdue₀ := (synDue_congr htype hstatus hsame).mp hdue
    refine ⟨h.refs.grows (.of_heap (Grows.live_modify rfl) rfl (fun j hj => ?_) rfl), h.table,
      h.listeners, fun j => ?_, fun j hj => ?_, htoPut⟩
    · rcases mem_append.mp hj with hj | hj
      · exact .inl hj
      · rw [mem_singleton.mp hj]
        exact .inr (Grows.live_modify rfl i (live_of_some hd))
    · rcases eq_or_ne j i with rfl | hji
      · exact .inr ⟨mem_append_right _ (mem_singleton_self j), c, hc, hdue₀⟩
      · refine (htimers j).imp_left fun hj => Eq.trans ?_ hj
        simp only [timer, Heap.cells_modify_of_ne hji, hsyn j hji]
    · grind [h.handshakes]
  | timedOut d hd hout =>
    obtain ⟨c, hc, htype, hstatus, hsame⟩ := exists_of_timer_eq hi hd
    have hout₀ := (timedOut_congr htype hstatus hsame).mp hout
    refine { h with timers := htimers, toPut := fun j hj => ?_ }
    grind
  | controlled f hf =>
    refine ⟨h.refs.grows (.modify rfl rfl rfl rfl), h.table, h.listeners, fun j => ?_, h.handshakes,
      htoPut⟩
    refine (htimers j).imp_left fun hj => Eq.trans ?_ hj
    -- congestion control writes neither the type nor the status
    refine Prod.ext (Heap.map_cells_modify fun d _ => ?_) rfl
    rw [Prod.mk.injEq]
    exact ⟨congrArg Stage.type (hf d).stage, congrArg Stage.status (hf d).stage⟩

theorem CcToRefs.foldl {q : CcPoll} (toUs : U64 → U32) {done rest : List Nat}
    {acc : Kernel × List Nat} (h : CcToRefs q.now k done acc)
    (honce : ∀ i c, k.heap.cells i = some c → k.SynDue q.now i c → (done ++ rest).count i ≤ 1) :
    CcToRefs q.now k (done ++ rest) (rest.foldl (ccToEvent toUs q) acc) := by
  induction rest generalizing done acc with
  | nil => rwa [append_nil]
  | cons i rest ih =>
    have hi : acc.1.timer i = k.timer i := by
      rcases h.timers i with hi | ⟨hdone, c, hc, hdue⟩
      · exact hi
      · -- it would have been looked at before
        have hcount := honce i c hc hdue
        rw [count_append, count_cons_self] at hcount
        have hpos : 0 < done.count i := count_pos_iff.mpr hdone
        omega
    have hstep := h.step hi (ccToCase toUs q acc.1 acc.2 i)
    rw [append_cons] at honce ⊢
    exact ih hstep honce

theorem releasable_of_normal (h : c.type ≠ .fake) :
    k.Releasable i c ↔ i ∉ k.tcpHandshakeList ∧ (∀ l ∈ k.tcpListeners, l.c ≠ i) ∧
      (k.tcpConnections.keysOf i).length ≤ 1 := by
  rw [Releasable, if_neg h]

theorem Kernel.Refs.foldl_put (h : k.Refs) {is : List Nat}
    (his : ∀ i ∈ is, ∀ c, k.heap.cells i = some c → c.type ≠ .fake ∧ k.Releasable i c) :
    (is.foldl tcpConnPut k).Refs := by
  induction is generalizing k with
  | nil => exact h
  | cons i is ih =>
    have hput := putCase k i
    refine ih (h.put hput fun c hc => (his i mem_cons_self c hc).2) fun j hj d hd => ?_
    generalize k.tcpConnPut i = k' at hput hd
    have hrest := his j (mem_cons_of_mem i hj)
    cases hput with
    | gone hc => exact hrest d hd
    | counted c hc href =>
      obtain ⟨d₀, hd₀, rfl⟩ := Heap.cells_modify_eq_some.mp hd
      obtain ⟨htype, hrel⟩ := hrest d₀ hd₀
      have htype' : (if j = i then { d₀ with ref := d₀.ref - 1#32 } else d₀).type ≠ .fake := by
        split_ifs <;> exact htype
      exact ⟨htype', (releasable_of_normal htype').mpr ((releasable_of_normal htype).mp hrel)⟩
    | released c k' hc href hrel =>
      rw [hrel.heap, Heap.cells_free_eq_some] at hd
      obtain ⟨htype, hrel'⟩ := hrest d hd.2
      refine ⟨htype, (releasable_of_normal htype).mpr ?_⟩
      obtain ⟨hhs, hlis, hkeys⟩ := (releasable_of_normal htype).mp hrel'
      refine ⟨hrel.handshakes ▸ hhs, hrel.listeners ▸ hlis, ?_⟩
      have hnormal : c.type ≠ .fake := (his i mem_cons_self c hc).1
      rwa [hrel.table, if_neg hnormal, Table.keysOf_eraseVal_of_ne hd.1]

/-! ## Runs -/

def Kernel.ReleasesClean (k : Kernel) : Event → Prop
  | .command _ _ (.tcp (.close m)) =>
    ∀ ic ∈ k.findTcpConn m.opaqueConnection, k.Releasable ic.1 ic.2
  | .packet _ p _ =>
    ∀ opts ∈ p.parseTcpOpts, ∀ i ∈ k.tcpConnections.lookup p.tuple, ∀ c ∈ k.heap.cells i,
      c.status = .open → p.Closes opts → k.Releasable i c
  | .pollCcTo q =>
    ∀ e ∈ k.tcpConnections.entries, ∀ c ∈ k.heap.cells e.2, k.RanOut q.now e.2 c →
      (k.tcpConnections.keysOf e.2).length ≤ 1 ∧ (k.TimedOut q.now e.2 c → k.Releasable e.2 c)
  | _ => True

instance (k : Kernel) (e : Event) : Decidable (k.ReleasesClean e) := by
  rcases e with ⟨_, _, ⟨⟨⟩⟩ | _⟩ | _ <;> unfold ReleasesClean <;> infer_instance

def Kernel.Event.NoExit : Event → Prop
  | .exit _ _ => False
  | _ => True

instance : (e : Event) → Decidable e.NoExit
  | .exit .. => .isFalse id
  | .command .. | .packet .. | .pollHandshakes _ | .pollCcTo _ => .isTrue trivial

theorem Kernel.Refs.pollTcpCcTo (h : k.Refs) (toUs : U64 → U32) (q : CcPoll)
    (hclean : k.ReleasesClean (.pollCcTo q)) : (k.pollTcpCcTo toUs q).Refs := by
  have honce : ∀ i c, k.heap.cells i = some c → k.SynDue q.now i c →
      (k.tcpConnections.entries.map Prod.snd).count i ≤ 1 := by
    intro i c hc hdue
    by_cases hi : i ∈ k.tcpConnections.entries.map Prod.snd
    · obtain ⟨e, he, rfl⟩ := mem_map.mp hi
      rw [← Table.length_keysOf]
      exact (hclean e he c hc (.inl hdue)).1
    · rw [count_eq_zero_of_not_mem hi]
      exact Nat.zero_le 1
  have hloop : CcToRefs q.now k ([] ++ k.tcpConnections.entries.map Prod.snd)
      ((k.tcpConnections.entries.map Prod.snd).foldl (ccToEvent toUs q) (k, [])) :=
    .foldl toUs ⟨h, rfl, rfl, fun _ => .inl rfl, fun _ hi => .inl hi, fun _ hi => nomatch hi⟩ honce
  refine hloop.refs.foldl_put fun i hi d hd => ?_
  obtain ⟨hmem, c, hc, hout⟩ := hloop.toPut i hi
  obtain ⟨e, he, rfl⟩ := mem_map.mp hmem
  have hnot := not_synDue_of_timedOut hout
  -- a connection that times out is not written to, and not queued, in the loop
  have htimer := (hloop.timers e.2).resolve_right fun ⟨_, c', hc', hdue⟩ =>
    hnot (some.inj (hc'.symm.trans hc) ▸ hdue)
  obtain ⟨c', hc', htype, -, -⟩ := exists_of_timer_eq htimer hd
  obtain rfl := some.inj (hc.symm.trans hc')
  have hd' : d.type ≠ .fake := htype ▸ hout.1
  obtain ⟨hhs, hlis, hkeys⟩ :=
    (releasable_of_normal hout.1).mp ((hclean e he c hc (.inr hout)).2 hout)
  refine ⟨hd', (releasable_of_normal hd').mpr ⟨fun hmem => ?_, by rwa [hloop.listeners],
    by rwa [hloop.table]⟩⟩
  rcases hloop.handshakes e.2 hmem with hold | ⟨c', hc', hdue⟩
  · exact hhs hold
  · exact hnot (some.inj (hc'.symm.trans hc) ▸ hdue)

theorem refs_step (pf : Platform) (k : Kernel) (e : Event) (h : k.Refs) (hno : e.NoExit)
    (hclean : k.ReleasesClean e) : (k.step pf e).Refs := by
  cases e with
  | command a tctx cmd =>
    cases cmd with
    | tcp cmd =>
      refine h.cmdCase (cmdCase pf.cfg a.slot tctx k cmd) fun m hm => ?_
      subst hm
      exact hclean
    | accept m =>
      unfold Kernel.step Kernel.processTcpCmd
      dsimp only
      split
      next k' hk' =>
        obtain ⟨n, l, -, hl, -, hcase⟩ := tcpAccept_eq_some hk'
        have hwait : Grows k (({ k with
            heap := k.heap.alloc (acceptedConn pf.cfg tctx n l m) }).setPending n
              (some k.heap.next)) :=
          ⟨Grows.live_alloc rfl, fun _ hi => .inl hi, fun _ hi => .inl hi,
            fun l' hl' => .inl (exists_of_mem_modify hl')⟩
        exact (h.grows hwait).acceptCase hcase
      next => exact h.grows (.quiet rfl rfl rfl rfl)
  | packet a p qid => exact h.packetCase (packetCase pf.cfg a p qid k) hclean
  | pollHandshakes deadline =>
    have h0 : Refs { k with tcpHandshakeList := [] } :=
      h.grows (.of_heap (fun _ hi => hi) rfl (fun _ hi => nomatch hi) rfl)
    exact pollTcpHandshakeEvents_induct deadline h0 fun _ _ _ h => h.handshakeCase
  | pollCcTo q => exact h.pollTcpCcTo pf.toUs q hclean
  | exit actx xskOk => exact hno.elim

/-- In a run without exits whose events release cleanly, no reference dangles. -/
theorem references_intact (pf : Platform) (es : List Event) (hno : ∀ e ∈ es, e.NoExit)
    (hclean : Meets (step pf) Kernel.ReleasesClean boot es) :
    Always (step pf) Kernel.Intact boot es := by
  have hboot : boot.Accepting ∧ boot.Refs := by
    refine ⟨accepting_boot, ?_, ?_, ?_⟩
    · rintro i ⟨t, ht⟩
      cases ht
    · exact fun _ hi => nomatch hi
    · exact fun _ hl => nomatch hl
  have hall : Always (step pf) (fun k => k.Accepting ∧ k.Refs) boot es :=
    always_of_meets (fun k e hk he =>
      ⟨accepting_step pf k e hk.1, refs_step pf k e hk.2 he.1 he.2⟩) hboot
      ((meets_of_forall_mem hno).and hclean)
  exact hall.mono fun k hk => ⟨hk.2, hk.1.pending_live⟩

def acceptAndClose : List Event :=
  [Site.bind 0 1#64 false, Site.listen 0 1#64 2#64, Site.synReceived 7#16 0xC2#16,
    Site.accept 0 2#64 5#64, .pollHandshakes 0#64, Site.close 0 5#64]

theorem references_intact_at : Always (step Site.nic) Kernel.Intact boot acceptAndClose :=
  references_intact Site.nic acceptAndClose (by decide) (by decide +kernel)

def openAndClose : List Event := [Site.open 0 5#64, Site.close 0 5#64]

/-- The handshake list keeps the address of the connection that was deleted. -/
theorem closed_conn_in_handshake_list :
    ¬ Always (step Site.nic) Kernel.Intact boot openAndClose := by
  intro h
  have hmem : 0 ∈ (run (step Site.nic) boot openAndClose).tcpHandshakeList := by decide +kernel
  have hlive : ¬ (run (step Site.nic) boot openAndClose).Live 0 := by decide +kernel
  exact hlive (h.last.handshakes 0 hmem)

end MtpXdp.Control

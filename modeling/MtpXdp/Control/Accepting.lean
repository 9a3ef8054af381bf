import MtpXdp.Control.Effects

/-!
# Connections That Are Being Accepted

In every run of the micro kernel, a listener's `pending_conn` is a live connection in
`CONN_WAIT_RX_SYN` that nothing else refers to, and an accepted connection has sent no SYN-ACK
before it is open, and one with its own sequence numbers when it is.
-/

namespace MtpXdp.Control

open MtpXdp.Core Ebpf List Option

variable {k k₀ k' : Kernel} {i j n : Nat} {c : TcpConnection} {p : TcpControl}

/-! ## The invariant -/

def TcpControl.IsSynack (p : TcpControl) : Prop :=
  p.flags &&& (tcpSyn ||| tcpAck) = tcpSyn ||| tcpAck
deriving Decidable

namespace Kernel

def synacks (k : Kernel) (i : Nat) : List TcpControl :=
  (k.sent.filter fun s => s.1 = i ∧ s.2.IsSynack).map Prod.snd

def Registered (k : Kernel) (i : Nat) : Prop := ∃ t, (t, i) ∈ k.tcpConnections.entries

def ServerStage (k : Kernel) (i : Nat) (c : TcpConnection) : Prop :=
  ((c.status = .waitRxSyn ∨ c.status = .waitTxSynack) ∧ k.synacks i = []) ∨
    (c.status = .open ∧ ∃ first, (k.synacks i).head? = some first ∧
      first.seqno = c.localSeq ∧ first.ackno = c.remoteSeq)

/-- The connection at `i` waits for a SYN on behalf of listener `n`. -/
def Waits (k : Kernel) (n : Nat) (l : TcpListener) (i : Nat) : Prop :=
  ¬ k.Registered i ∧ ∃ c, k.heap.cells i = some c ∧
    c.type = .normal ∧ c.status = .waitRxSyn ∧ c.listener = some n ∧ c.localPort = l.listenPort

structure Accepting (k : Kernel) : Prop where
  fresh : ∀ i, k.heap.next ≤ i → k.synacks i = []
  registered_lt : ∀ i, k.Registered i → i < k.heap.next
  pending : ∀ (n : Nat) (l : TcpListener) (i : Nat), k.tcpListeners[n]? = some l →
    l.pendingConn = some i → k.Waits n l i
  server : ∀ i c, k.heap.cells i = some c → c.listener ≠ none → k.ServerStage i c

@[grind →] theorem lt_next_of_some (hc : k.heap.cells i = some c) : i < k.heap.next := by
  by_contra hi
  rw [k.heap.next_free i (Nat.le_of_not_lt hi)] at hc
  cases hc

theorem Accepting.pending_inj (h : k.Accepting) {n n' : Nat} {l l' : TcpListener}
    (hl : k.tcpListeners[n]? = some l) (hi : l.pendingConn = some i)
    (hl' : k.tcpListeners[n']? = some l') (hi' : l'.pendingConn = some i) : n = n' := by
  obtain ⟨-, c, hc, -, -, hn, -⟩ := h.pending n l i hl hi
  obtain ⟨-, c', hc', -, -, hn', -⟩ := h.pending n' l' i hl' hi'
  rw [hc, some.injEq] at hc'
  exact some.inj (hn.symm.trans (hc' ▸ hn'))

end Kernel

open Kernel

/-! ## Steps that leave the servers alone -/

theorem Released.registered {k' : Kernel} (h : Released k i c k')
    (hj : k'.Registered j) : k.Registered j := by
  obtain ⟨t, ht⟩ := hj
  rw [h.table] at ht
  split_ifs at ht
  · exact ⟨t, (Table.mem_eraseKey.mp ht).1⟩
  · exact ⟨t, Table.mem_of_mem_eraseVal ht⟩

/-- By writes to clients, new connections without a listener, and deletions of registered ones. -/
structure Keeps (k k' : Kernel) : Prop where
  next_le : k.heap.next ≤ k'.heap.next
  registered : ∀ i, k'.Registered i → k.Registered i ∨ (k.heap.next ≤ i ∧ i < k'.heap.next)
  pending : ∀ (n : Nat) (l' : TcpListener) (i : Nat), k'.tcpListeners[n]? = some l' →
    l'.pendingConn = some i →
    ∃ l : TcpListener, k.tcpListeners[n]? = some l ∧ l.pendingConn = some i ∧
      l.listenPort = l'.listenPort
  kept : ∀ i, (k.heap.cells i).isSome → ¬ k.Registered i → (k'.heap.cells i).isSome
  old : ∀ i c', i < k.heap.next → k'.heap.cells i = some c' →
    ∃ c, k.heap.cells i = some c ∧
      (c'.stage = c.stage ∨ c'.listener = none ∧ (c.listener = none ∨ k.Registered i))
  new : ∀ i c', k.heap.next ≤ i → k'.heap.cells i = some c' → c'.listener = none
  sent : ∀ i, k'.synacks i = k.synacks i

namespace Keeps

variable {k'' : Kernel}

theorem refl (k : Kernel) : Keeps k k where
  next_le := Nat.le_refl _
  registered _ h := .inl h
  pending _ l _ hl hi := ⟨l, hl, hi, rfl⟩
  kept _ h _ := h
  old _ c _ hc := ⟨c, hc, .inl rfl⟩
  new _ _ hi hc := absurd (lt_next_of_some hc) (Nat.not_lt.mpr hi)
  sent _ := rfl

theorem not_registered (h : Keeps k k') (hi : i < k.heap.next) (hreg : ¬ k.Registered i) :
    ¬ k'.Registered i := fun hreg' =>
  (h.registered i hreg').elim hreg fun hnew => absurd hi (Nat.not_lt.mpr hnew.1)

theorem trans (h : Keeps k k') (h' : Keeps k' k'') : Keeps k k'' := by
  obtain ⟨hnext, hreg, hpend, hkept, hold, hnew, hsent⟩ := h
  obtain ⟨hnext', hreg', hpend', hkept', hold', hnew', hsent'⟩ := h'
  refine ⟨hnext.trans hnext', ?_, ?_, ?_, ?_, ?_, fun i => (hsent' i).trans (hsent i)⟩
  · grind
  · grind
  · grind [isSome_iff_exists]
  · grind [TcpConnection.stage]
  · grind [TcpConnection.stage]

def SamePending (k k' : Kernel) : Prop :=
  ∀ (n : Nat) (l' : TcpListener) (i : Nat), k'.tcpListeners[n]? = some l' →
    l'.pendingConn = some i → ∃ l : TcpListener, k.tcpListeners[n]? = some l ∧
      l.pendingConn = some i ∧ l.listenPort = l'.listenPort

theorem samePending_of_eq (h : k'.tcpListeners = k.tcpListeners) : SamePending k k' :=
  fun _ l _ hl hi => ⟨l, h ▸ hl, hi, rfl⟩

theorem of_same_heap (hheap : k'.heap = k.heap) (hreg : ∀ j, k'.Registered j → k.Registered j)
    (hpend : SamePending k k') (hsent : ∀ j, k'.synacks j = k.synacks j) : Keeps k k' where
  next_le := Nat.le_of_eq (congrArg Heap.next hheap).symm
  registered i hi := .inl (hreg i hi)
  pending := hpend
  kept i hi _ := by rwa [hheap]
  old i c' _ hc' := ⟨c', hheap ▸ hc', .inl rfl⟩
  new i c' hi hc' := by
    rw [hheap] at hc'
    exact absurd (lt_next_of_some hc') (Nat.not_lt.mpr hi)
  sent := hsent

theorem quiet (hheap : k'.heap = k.heap) (htable : k'.tcpConnections = k.tcpConnections)
    (hlis : k'.tcpListeners = k.tcpListeners) (hsent : k'.sent = k.sent) : Keeps k k' :=
  of_same_heap hheap (fun _ ⟨t, ht⟩ => ⟨t, htable ▸ ht⟩) (samePending_of_eq hlis)
    fun _ => by rw [synacks, hsent, synacks]

theorem of_modify {f : TcpConnection → TcpConnection} (hheap : k'.heap = k.heap.modify i f)
    (hf : ∀ c, k.heap.cells i = some c →
      (f c).stage = c.stage ∨ (f c).listener = none ∧ (c.listener = none ∨ k.Registered i))
    (hreg : ∀ j, k'.Registered j → k.Registered j) (hpend : SamePending k k')
    (hsent : ∀ j, k'.synacks j = k.synacks j) : Keeps k k' where
  next_le := by rw [hheap]; exact Nat.le_refl _
  registered i hi := .inl (hreg i hi)
  pending := hpend
  kept j hj _ := by grind [isSome_map]
  old j c' _ hc' := by
    rw [hheap, Heap.cells_modify_eq_some] at hc'
    grind
  new j c' hj hc' := by
    rw [hheap, Heap.cells_modify_eq_some] at hc'
    grind
  sent := hsent

theorem of_alloc (hheap : k'.heap = k.heap.alloc c) (hc : c.listener = none)
    (hreg : ∀ j, k'.Registered j → k.Registered j ∨ j = k.heap.next)
    (hpend : SamePending k k') (hsent : ∀ j, k'.synacks j = k.synacks j) : Keeps k k' := by
  have hnext : k'.heap.next = k.heap.next + 1 := by rw [hheap]; rfl
  refine ⟨by omega, fun j hj => (hreg j hj).imp_right fun h => by omega, hpend, ?_, ?_, ?_, hsent⟩
  · grind
  · grind
  · grind

/-! ### Deleting connections -/

theorem released (h : Keeps k₀ k) (hi : k₀.Registered i)
    (hrel : Released k i c k') : Keeps k₀ k' where
  next_le := by rw [hrel.heap]; exact h.next_le
  registered j hj := by
    rw [hrel.heap]
    exact h.registered j (hrel.registered hj)
  pending := by rw [hrel.listeners]; exact h.pending
  kept j hj hreg := by grind [hrel.heap, h.kept]
  old j d hj hd := by grind [hrel.heap, h.old]
  new j d hj hd := by grind [hrel.heap, h.new]
  sent j := by
    rw [← h.sent j, synacks, synacks, hrel.sent]

theorem put (h : Keeps k₀ k) (hi : k₀.Registered i) (hput : PutCase k i k') : Keeps k₀ k' := by
  cases hput with
  | gone hc => exact h
  | counted c hc href =>
    exact h.trans (of_modify rfl (fun _ _ => .inl rfl) (fun _ hj => hj) (samePending_of_eq rfl)
      fun _ => rfl)
  | released c k' hc href hrel => exact h.released hi hrel

theorem queueSyn (k : Kernel) (n : Nat) (b : BacklogSlot) (out : List (Tctx × HandshakeIn)) :
    Keeps k { k with
      backlog := Function.update k.backlog n (k.backlog n ++ [b])
      handshakeOut := out } :=
  .quiet rfl rfl rfl rfl

end Keeps

namespace Kernel

variable {slot : Nat} {cfg : Config}

theorem Accepting.keeps (hk : k.Accepting) (h : Keeps k k') : k'.Accepting where
  fresh i hi := (h.sent i).trans (hk.fresh i (h.next_le.trans hi))
  registered_lt i hi :=
    (h.registered i hi).elim (fun hi => (hk.registered_lt i hi).trans_le h.next_le) And.right
  pending n l' i hl' hi := by
    obtain ⟨l, hl, hi, hport⟩ := h.pending n l' i hl' hi
    obtain ⟨hreg, c, hc, htype, hstatus, hlis, hlocal⟩ := hk.pending n l i hl hi
    obtain ⟨c', hc'⟩ := isSome_iff_exists.mp (h.kept i (by rw [hc]; rfl) hreg)
    have hold := h.old i c' (lt_next_of_some hc) hc'
    refine ⟨h.not_registered (lt_next_of_some hc) hreg, c', hc', ?_⟩
    grind [TcpConnection.stage]
  server i c' hc' hlis := by
    have hold := h.old i c'
    have hnew := h.new i c'
    have hserver := hk.server i
    unfold ServerStage at hserver ⊢
    rw [h.sent i]
    grind [TcpConnection.stage]

/-! ## Packets sent -/

theorem synacks_append (k' k : Kernel) (h : k'.sent = k.sent ++ [(i, p)]) (j : Nat) :
    k'.synacks j = k.synacks j ++ if i = j ∧ p.IsSynack then [p] else [] := by
  rw [synacks, h, filter_append, map_append, ← synacks]
  by_cases hp : i = j ∧ p.IsSynack <;> simp [hp]

theorem synacks_eq_of_not_synack (h : k'.sent = k.sent ++ [(i, p)])
    (hp : ¬ p.IsSynack) (j : Nat) : k'.synacks j = k.synacks j := by
  rw [synacks_append k' k h, if_neg fun h => hp h.2, append_nil]

theorem not_isSynack (flags : U16) (h : p.flags = flags)
    (hflags : flags &&& (tcpSyn ||| tcpAck) ≠ tcpSyn ||| tcpAck) : ¬ p.IsSynack := by
  unfold TcpControl.IsSynack
  rwa [h]

theorem isSynack_synackFlags (h : p.flags = synackFlags c) : p.IsSynack := by
  unfold TcpControl.IsSynack
  rw [h, synackFlags]
  split_ifs <;> decide

theorem Accepting.listener_eq_none (hk : k.Accepting) (hc : k.heap.cells i = some c)
    (h : c.status ≠ .waitRxSyn) (h' : c.status ≠ .waitTxSynack) (h'' : c.status ≠ .open) :
    c.listener = none := by
  by_contra hlis
  rcases hk.server i c hc hlis with ⟨hst | hst, -⟩ | ⟨hst, -⟩
  · exact h hst
  · exact h' hst
  · exact h'' hst

/-! ## The handlers that leave the servers alone -/

theorem registered_insert {t : FlowTuple}
    (htable : k'.tcpConnections = k.tcpConnections.insert slot t i) (hj : k'.Registered j) :
    k.Registered j ∨ j = i := by
  obtain ⟨u, hu⟩ := hj
  rw [htable, Table.mem_insert] at hu
  rcases hu with hu | ⟨-, hu⟩
  · exact .inl ⟨u, hu⟩
  · exact .inr (congrArg Prod.snd hu)

theorem keeps_cmdCase {tctx : Tctx} {cmd : TcpCmd} (h : CmdCase cfg slot tctx k cmd k') :
    Keeps k k' := by
  cases h with
  | failed out =>
    exact .quiet rfl rfl rfl rfl
  | reopened m i c out hfind =>
    obtain ⟨hreg, hc, -⟩ := ControlPlane.findTcpConn_registered hfind
    refine .of_modify rfl (fun _ _ => .inr ⟨rfl, .inr hreg⟩) (fun j hj => ?_)
      (Keeps.samePending_of_eq rfl) fun _ => rfl
    rcases registered_insert rfl hj with hj | rfl
    · exact hj
    · exact hreg
  | opened m port pool out hfind hport =>
    exact .of_alloc rfl rfl (fun j hj => registered_insert rfl hj) (Keeps.samePending_of_eq rfl)
      fun _ => rfl
  | bound m pool out hfind hport =>
    exact .of_alloc rfl rfl (fun j hj => registered_insert rfl hj) (Keeps.samePending_of_eq rfl)
      fun _ => rfl
  | listening m i c out hfind htype =>
    refine .of_same_heap rfl (fun _ hj => hj) ?_ fun _ => rfl
    intro n l' i hl' hi
    -- the listener that was added waits with no connection
    rw [getElem?_append] at hl'
    split_ifs at hl' with hn
    · exact ⟨l', hl', hi, rfl⟩
    · rw [getElem?_singleton] at hl'
      split_ifs at hl'
      cases hl'
      cases hi
  | closed m i c k' out hfind hput =>
    obtain ⟨hreg, -, -⟩ := ControlPlane.findTcpConn_registered hfind
    exact ((Keeps.refl k).put hreg hput).trans (.quiet rfl rfl rfl rfl)

theorem Accepting.resent {ts : Option U32} {flags mss : U16} (hk : k.Accepting)
    (hc : k.heap.cells i = some c) (hstatus : c.status = .open)
    (hk' : k' = k.sendTcpControl i c flags ts mss) : k'.Accepting := by
  have hsyn := synacks_append k' k (by rw [hk']; rfl)
  have hheap : k'.heap = k.heap := by rw [hk']; rfl
  subst hk'
  refine ⟨fun j hj => ?_, hk.registered_lt, hk.pending, fun j d hd hlis => ?_⟩
  · rw [hheap] at hj
    grind [hk.fresh]
  · rw [hheap] at hd
    have hserver := hk.server j d hd hlis
    unfold ServerStage at hserver ⊢
    grind [head?_append]

theorem Accepting.synackSent (hk : k.Accepting) (hc : k.heap.cells i = some c)
    (hstatus : c.status = .waitTxSynack) (hflags : p.flags = synackFlags c)
    (hnums : p.seqno = c.localSeq ∧ p.ackno = c.remoteSeq)
    (hheap : k'.heap = k.heap.modify i fun c => { c with status := .open })
    (htable : k'.tcpConnections = k.tcpConnections) (hlis : k'.tcpListeners = k.tcpListeners)
    (hsent : k'.sent = k.sent ++ [(i, p)]) : k'.Accepting := by
  have hsyn := synacks_append k' k hsent
  have hnext : k'.heap.next = k.heap.next := by rw [hheap]; rfl
  have hreg : ∀ j, k'.Registered j ↔ k.Registered j := fun j => by
    rw [Registered, htable, Registered]
  refine ⟨fun j hj => ?_, fun j hj => ?_, fun n l j hl hj => ?_, fun j d hd hlis => ?_⟩
  · grind [hk.fresh]
  · rw [hnext]
    exact hk.registered_lt j ((hreg j).mp hj)
  · obtain ⟨hfree, d, hd, htype, hst, hrest⟩ := hk.pending n l j (hlis ▸ hl) hj
    have hji : j ≠ i := by grind
    refine ⟨fun h => hfree ((hreg j).mp h), d, ?_, htype, hst, hrest⟩
    rw [hheap, Heap.cells_modify_of_ne hji, hd]
  · have hserver := hk.server j
    unfold ServerStage at hserver ⊢
    grind [isSynack_synackFlags, map_eq_some_iff, head?_append]

theorem Accepting.connCase {p : PktTcp} {opts : TcpOpts} (hk : k.Accepting) (hreg : k.Registered i)
    (hc : k.heap.cells i = some c) (h : ConnCase cfg k i c p opts k') : k'.Accepting := by
  cases h with
  | ignored => exact hk
  | synackFailed qid idxs syn hstatus hidxs =>
    have hlis := hk.listener_eq_none hc (by simp [hstatus]) (by simp [hstatus]) (by simp [hstatus])
    refine hk.keeps (.of_modify rfl (fun d hd => ?_) (fun _ hj => hj) (Keeps.samePending_of_eq rfl)
      fun _ => rfl)
    obtain rfl := some.inj (hc.symm.trans hd)
    exact .inr ⟨hlis, .inl hlis⟩
  | opened qid idx idxs syn reply out hstatus hflags hidxs hreply =>
    have hlis := hk.listener_eq_none hc (by simp [hstatus]) (by simp [hstatus]) (by simp [hstatus])
    refine hk.keeps (.of_modify rfl (fun d hd => ?_) (fun _ hj => hj) (Keeps.samePending_of_eq rfl)
      (synacks_eq_of_not_synack rfl (not_isSynack _ hreply (by decide))))
    obtain rfl := some.inj (hc.symm.trans hd)
    exact .inr ⟨hlis, .inl hlis⟩
  | resent ts hstatus hflags hts => exact hk.resent hc hstatus rfl
  | put out k' hstatus hwhy hput =>
    have hout : Keeps k { k with kernelOut := out } := .quiet rfl rfl rfl rfl
    exact hk.keeps (hout.put hreg hput)
  | acked hstatus =>
    exact hk.keeps (.of_same_heap rfl (fun _ hj => hj) (Keeps.samePending_of_eq rfl)
      (synacks_eq_of_not_synack rfl (not_isSynack tcpAck rfl (by decide))))

theorem Accepting.handshakeCase (hk : k.Accepting) (h : HandshakeCase k i k') : k'.Accepting := by
  cases h with
  | ignored => exact hk
  | synSent c syn p hc hstatus hp =>
    have hlis := hk.listener_eq_none hc (by simp [hstatus]) (by simp [hstatus]) (by simp [hstatus])
    refine hk.keeps (.of_modify rfl (fun d hd => ?_) (fun _ hj => hj) (Keeps.samePending_of_eq rfl)
      (synacks_eq_of_not_synack rfl (not_isSynack _ hp (by decide))))
    obtain rfl := some.inj (hc.symm.trans hd)
    exact .inr ⟨hlis, .inl hlis⟩
  | synackSent c p out hc hstatus hp =>
    exact hk.synackSent hc hstatus hp.1 hp.2 rfl rfl rfl rfl

/-! ## Accepting a SYN -/

section

variable {l : TcpListener} {f : TcpConnection → TcpConnection} (hk : k.Accepting)
  (hl : k.tcpListeners[n]? = some l) (hi : l.pendingConn = some i)
  (hheap : k'.heap = k.heap.modify i f)
include hk hl hi hheap

theorem Accepting.server_of_pending (hlis : ∀ c, (f c).listener = c.listener)
    (hst : ∀ c, c.status = .waitRxSyn → (f c).status = .waitRxSyn ∨ (f c).status = .waitTxSynack)
    (hsent : k'.sent = k.sent) (j : Nat) (d : TcpConnection) (hd : k'.heap.cells j = some d)
    (hd' : d.listener ≠ none) : k'.ServerStage j d := by
  have hs : k'.synacks j = k.synacks j := by rw [synacks, hsent, synacks]
  rw [hheap, Heap.cells_modify_eq_some] at hd
  obtain ⟨d₀, hd₀, rfl⟩ := hd
  obtain ⟨-, c, hc, -, hstatus, -⟩ := hk.pending n l i hl hi
  have hserver := hk.server j d₀ hd₀
  unfold ServerStage at hserver ⊢
  grind

theorem Accepting.waits_of_ne (hreg : ∀ j, k'.Registered j → k.Registered j ∨ j = i) {n' : Nat}
    {l' : TcpListener} (hn : n' ≠ n) (hl' : k.tcpListeners[n']? = some l')
    (hj : l'.pendingConn = some j) : k'.Waits n' l' j := by
  obtain ⟨hfree, d, hd, hrest⟩ := hk.pending n' l' j hl' hj
  have hji : j ≠ i := fun h => hn (hk.pending_inj hl' (h ▸ hj) hl hi)
  refine ⟨fun h => (hreg j h).elim hfree hji, d, ?_, hrest⟩
  rw [hheap, Heap.cells_modify_of_ne hji, hd]

end

theorem Accepting.acceptCase (hk : k.Accepting) (h : AcceptCase cfg slot n k k') :
    k'.Accepting := by
  cases h with
  | ignored => exact hk
  | dropped b rest hb =>
    exact hk.keeps (.quiet rfl rfl rfl rfl)
  | failed l i b rest idxs syn hl hi hb hidxs =>
    refine ⟨hk.fresh, hk.registered_lt, fun n' l' j hl' hj => ?_,
      hk.server_of_pending hl hi rfl (fun _ => rfl) (fun c hc => .inl hc) rfl⟩
    rcases eq_or_ne n' n with rfl | hn
    · -- the SYN's fields do not include what makes the connection a pending one
      obtain rfl := some.inj (hl.symm.trans hl')
      obtain rfl := some.inj (hi.symm.trans hj)
      obtain ⟨hfree, d, hd, htype, hst, hlis, -⟩ := hk.pending n' l i hl hi
      refine ⟨hfree, takeSyn cfg l b d, ?_, htype, hst, hlis, rfl⟩
      exact (Heap.cells_modify_self ..).trans (by rw [hd]; rfl)
    · refine hk.waits_of_ne hl hi (f := takeSyn cfg l b) ?_ ?_ hn hl' hj
      · rfl
      · exact fun _ h => .inl h
  | accepted l i b rest c idx idxs syn hl hi hb hc hidxs =>
    have hreg : ∀ j, (k.accepted cfg slot n i l b rest c idx idxs syn).Registered j →
        k.Registered j ∨ j = i := fun j hj => registered_insert rfl hj
    refine ⟨hk.fresh, fun j hj => ?_, fun n' l' j hl' hj => ?_,
      hk.server_of_pending hl hi rfl (fun _ => rfl) (fun _ _ => .inr rfl) rfl⟩
    · rcases hreg j hj with hj | rfl
      · exact hk.registered_lt j hj
      · have hlt : j < k.heap.next := lt_next_of_some hc
        exact hlt
    · -- the listener that accepted waits with no connection
      have hl'' : (k.tcpListeners.modify n fun l => { l with pendingConn := none })[n']? =
        some l' :=
        hl'
      rw [getElem?_modify] at hl''
      split_ifs at hl'' with hn
      · obtain ⟨l₀, -, rfl⟩ := map_eq_some_iff.mp hl''
        cases hj
      · rw [id_map'] at hl''
        exact hk.waits_of_ne hl hi rfl hreg (Ne.symm hn) hl'' hj

theorem getElem?_setPending {pending : Option Nat} (n' : Nat) :
    (k.setPending n pending).tcpListeners[n']? =
      if n = n' then (k.tcpListeners[n']?).map fun l => { l with pendingConn := pending }
      else k.tcpListeners[n']? := by
  rw [setPending, getElem?_modify]
  split_ifs
  · rfl
  · exact id_map' _

theorem Accepting.waiting {l : TcpListener} {tctx : Tctx} {m : AcceptMsg} (hk : k.Accepting)
    (hl : k.tcpListeners[n]? = some l) :
    (({ k with heap := k.heap.alloc (acceptedConn cfg tctx n l m) }).setPending n
      (some k.heap.next)).Accepting := by
  refine ⟨fun i hi => hk.fresh i (Nat.le_of_succ_le hi),
    fun i hi => Nat.lt_succ_of_lt (hk.registered_lt i hi), fun n' l' i hl' hi => ?_,
    fun i c hc hlis => ?_⟩
  · rw [getElem?_setPending] at hl'
    split_ifs at hl' with hn
    · subst hn
      rw [hl] at hl'
      cases hl'
      cases hi
      exact ⟨fun h => Nat.lt_irrefl _ (hk.registered_lt _ h), acceptedConn cfg tctx n l m,
        Heap.cells_alloc_next .., rfl, rfl, rfl, rfl⟩
    · obtain ⟨hfree, c, hc, hrest⟩ := hk.pending n' l' i hl' hi
      exact ⟨hfree, c, (Heap.cells_alloc_of_ne (Heap.ne_next_of_some hc)).trans hc, hrest⟩
  · rcases Heap.cells_alloc_eq_some.mp hc with ⟨rfl, rfl⟩ | hc
    · exact .inl ⟨.inl rfl, hk.fresh _ (Nat.le_refl _)⟩
    · exact hk.server i c hc hlis

theorem Accepting.listenerCase {p : PktTcp} (hk : k.Accepting)
    (h : ListenerCase cfg slot n p k k') : k'.Accepting := by
  cases h with
  | ignored => exact hk
  | queued l b out k' hl hp hnew hacc =>
    exact (hk.keeps (.queueSyn k n b out)).acceptCase hacc

theorem Accepting.packetCase {p : PktTcp} (hk : k.Accepting) (h : PacketCase cfg slot p k k') :
    k'.Accepting := by
  cases h with
  | none resets =>
    exact hk.keeps (.quiet rfl rfl rfl rfl)
  | conn i c opts k' hopts hi hc h => exact hk.connCase ⟨_, Table.lookup_eq_some.mp hi⟩ hc h
  | listener n k' hi hn h => exact hk.listenerCase h

/-! ## Polls and exit -/

theorem Keeps.foldl_put {is : List Nat} (his : ∀ i ∈ is, k₀.Registered i)
    (h : Keeps k₀ k) : Keeps k₀ (is.foldl tcpConnPut k) := by
  induction is generalizing k with
  | nil => exact h
  | cons i is ih =>
    refine ih (fun j hj => his j (mem_cons_of_mem i hj)) ?_
    exact h.put (his i mem_cons_self) (putCase k i)

/-- What `poll_tcp_cc_to` leaves alone while it goes through the table. -/
structure CcToKeeps (k : Kernel) (acc : Kernel × List Nat) : Prop where
  accepting : acc.1.Accepting
  table : acc.1.tcpConnections = k.tcpConnections
  toPut : ∀ i ∈ acc.2, k.Registered i

theorem CcToKeeps.step {now : U64} {acc acc' : Kernel × List Nat} (h : CcToKeeps k acc)
    (hi : k.Registered i) (hcase : CcToCase now acc.1 acc.2 i acc') : CcToKeeps k acc' := by
  obtain ⟨hacc, htable, htoPut⟩ := h
  cases hcase with
  | ignored => exact ⟨hacc, htable, htoPut⟩
  | resent c syn hc hdue hsyn =>
    have hlis := hacc.listener_eq_none hc (by simp [hdue.2.1]) (by simp [hdue.2.1])
      (by simp [hdue.2.1])
    refine ⟨hacc.keeps (.of_modify rfl (fun d hd => ?_) (fun _ hj => hj)
      (Keeps.samePending_of_eq rfl) fun _ => rfl), htable, htoPut⟩
    obtain rfl := some.inj (hc.symm.trans hd)
    exact .inr ⟨hlis, .inl hlis⟩
  | timedOut c hc hout =>
    refine ⟨hacc, htable, fun j hj => ?_⟩
    rcases mem_append.mp hj with hj | hj
    · exact htoPut j hj
    · exact mem_singleton.mp hj ▸ hi
  | controlled f hf =>
    exact ⟨hacc.keeps (.of_modify rfl (fun d _ => .inl (hf d).stage) (fun _ hj => hj)
      (Keeps.samePending_of_eq rfl) fun _ => rfl), htable, htoPut⟩

theorem CcToKeeps.foldl (toUs : U64 → U32) (q : CcPoll) {acc : Kernel × List Nat} {is : List Nat}
    (his : ∀ i ∈ is, k.Registered i) (h : CcToKeeps k acc) :
    CcToKeeps k (is.foldl (ccToEvent toUs q) acc) := by
  induction is generalizing acc with
  | nil => exact h
  | cons i is ih =>
    refine ih (fun j hj => his j (mem_cons_of_mem i hj)) ?_
    exact h.step (his i mem_cons_self) (ccToCase toUs q acc.1 acc.2 i)

theorem registered_of_mem_map (hi : i ∈ k.tcpConnections.entries.map Prod.snd) :
    k.Registered i := by
  obtain ⟨⟨t, j⟩, he, rfl⟩ := mem_map.mp hi
  exact ⟨t, he⟩

theorem Accepting.pollTcpCcTo (hk : k.Accepting) (toUs : U64 → U32) (q : CcPoll) :
    (k.pollTcpCcTo toUs q).Accepting := by
  have h : CcToKeeps k ((k.tcpConnections.entries.map Prod.snd).foldl (ccToEvent toUs q) (k, [])) :=
    CcToKeeps.foldl toUs q (fun i hi => registered_of_mem_map hi) ⟨hk, rfl, by simp⟩
  -- what is put was registered when the loop began, and the loop leaves the table alone
  refine h.accepting.keeps (Keeps.foldl_put (fun i hi => ?_) (.refl _))
  rw [Registered, h.table]
  exact h.toPut i hi

theorem Accepting.freeListener (hk : k.Accepting) (n : Nat) : (k.freeListener n).Accepting := by
  have hlis : ∀ n' : Nat, (k.freeListener n).tcpListeners[n']? =
      if n = n' then (k.tcpListeners[n']?).map fun l => { l with pendingConn := none }
      else k.tcpListeners[n']? := getElem?_setPending
  have hne : ∀ (n' : Nat) (l' : TcpListener) (i : Nat), (k.freeListener n).tcpListeners[n']? =
    some l' →
      l'.pendingConn = some i → n' ≠ n ∧ k.tcpListeners[n']? = some l' := by
    intro n' l' i hl' hi
    rw [hlis] at hl'
    split_ifs at hl' with hn
    · obtain ⟨l, -, rfl⟩ := map_eq_some_iff.mp hl'
      cases hi
    · exact ⟨Ne.symm hn, hl'⟩
  cases hpend : (k.tcpListeners[n]?).bind TcpListener.pendingConn with
  | none =>
    have hheap : (k.freeListener n).heap = k.heap := by
      simp [Kernel.freeListener, setPending, setBacklog, hpend]
    exact hk.keeps (.of_same_heap hheap (fun _ hj => hj)
      (fun n' l' i hl' hi => ⟨l', (hne n' l' i hl' hi).2, hi, rfl⟩) fun _ => rfl)
  | some i =>
    have hheap : (k.freeListener n).heap = k.heap.free i := by
      simp [Kernel.freeListener, setPending, setBacklog, hpend]
    have hpending := hk.pending
    unfold Waits at hpending
    refine ⟨fun j hj => hk.fresh j (by rwa [hheap] at hj), fun j hj => ?_,
      fun n' l' j hl' hj => ?_, fun j c hc hlis => ?_⟩
    · rw [hheap]
      exact hk.registered_lt j hj
    · obtain ⟨hn, hl'⟩ := hne n' l' j hl' hj
      obtain ⟨hfree, c, hc, hrest⟩ := hpending n' l' j hl' hj
      exact ⟨hfree, c, by grind, hrest⟩
    · rw [hheap, Heap.cells_free_eq_some] at hc
      exact hk.server j c hc.2 hlis

theorem Accepting.foldl_freeListener (hk : k.Accepting) (ns : List Nat) :
    (ns.foldl Kernel.freeListener k).Accepting := by
  induction ns generalizing k with
  | nil => exact hk
  | cons n ns ih => exact ih (hk.freeListener n)

theorem Accepting.freeAppResources (hk : k.Accepting) (actx : Nat) (xskOk : Bool) :
    (k.freeAppResources actx xskOk).Accepting := by
  have hconns : (k.freeConnections actx).Accepting :=
    hk.keeps (Keeps.foldl_put
      (fun i hi => registered_of_mem_map (mem_of_mem_filter hi)) (.refl k))
  have hlis : ((k.freeConnections actx).freeListeners actx).Accepting :=
    (hconns.foldl_freeListener _).keeps (.quiet rfl rfl rfl rfl)
  unfold Kernel.freeAppResources
  split_ifs
  · exact hlis.keeps (.quiet rfl rfl rfl rfl)
  · exact hlis

/-! ## Runs -/

theorem accepting_boot : boot.Accepting where
  fresh _ _ := rfl
  registered_lt _ := by rintro ⟨t, ht⟩; cases ht
  pending _ _ _ hl := by cases hl
  server _ _ hc := by cases hc

theorem accepting_step (pf : Platform) (k : Kernel) (e : Event) (hk : k.Accepting) :
    (k.step pf e).Accepting := by
  cases e with
  | command a tctx cmd =>
    cases cmd with
    | tcp c => exact hk.keeps (keeps_cmdCase (cmdCase pf.cfg a.slot tctx k c))
    | accept m =>
      unfold Kernel.step Kernel.processTcpCmd
      dsimp only
      split
      next k' hk' =>
        obtain ⟨n, l, -, hl, -, hcase⟩ := tcpAccept_eq_some hk'
        exact (hk.waiting hl).acceptCase hcase
      next => exact hk.keeps (.quiet rfl rfl rfl rfl)
  | packet a p qid => exact hk.packetCase (Control.packetCase pf.cfg a p qid k)
  | pollHandshakes deadline =>
    have h0 : Keeps k { k with tcpHandshakeList := [] } := .quiet rfl rfl rfl rfl
    exact pollTcpHandshakeEvents_induct deadline (hk.keeps h0) fun _ _ _ hk => hk.handshakeCase
  | pollCcTo q => exact hk.pollTcpCcTo pf.toUs q
  | exit actx xskOk => exact hk.freeAppResources actx xskOk

theorem accepting_run (pf : Platform) (es : List Event) : (run (step pf) boot es).Accepting :=
  run_of_meets (fun k e hk _ => accepting_step pf k e hk) accepting_boot meets_true

/-- **Accepting**, at every point of every run: a waiting connection belongs to one listener and is
    not in the table, and the first SYN-ACK of an open one has its numbers. -/
theorem accepting_always (pf : Platform) (es : List Event) : Always (step pf) Accepting boot es :=
  always_of_meets (fun k e hk _ => accepting_step pf k e hk) accepting_boot meets_true

end Kernel

end MtpXdp.Control

import MtpXdp.Control.Effects

/-!
# Agreement of the Handshake

Two micro kernels, one of clients and one of servers, and the control packets they have sent, each
delivered any number of times, in any order, or never. A client starts at 0 and a server at 1, so
there is one pair of numbers that the two sides can arrive at.
-/

namespace MtpXdp.Control

open MtpXdp.Core Ebpf Function Kernel

/-- The side of a kernel in the handshakes: its applications connect, or they listen and accept. -/
inductive Side where
  | client
  | server
deriving DecidableEq

def Side.peer : Side → Side
  | .client => .server
  | .server => .client

def Side.firstSeq : Side → U32
  | .client => 1#32
  | .server => 2#32

def Side.Numbers : Side → U16 → U32 → U32 → Prop
  | .client, flags, seqno, _ => flags &&& ~~~(tcpEce ||| tcpCwr) = tcpSyn → seqno = 0#32
  | .server, flags, seqno, ackno =>
      flags &&& (tcpSyn ||| tcpAck) = tcpSyn ||| tcpAck → seqno = 1#32 ∧ ackno = 1#32

structure Stage.Fits (side : Side) (st : Stage) : Prop where
  connecting : st.status = .waitTxSyn ∨ st.status = .waitRxSynack →
    side = .client ∧ st.localSeq = 0#32
  accepting : st.status = .waitTxSynack → side = .server
  accepted : side = .server → st.status = .waitTxSynack ∨ st.status = .open →
    st.localSeq = 1#32 ∧ st.remoteSeq = 1#32

structure Kernel.Fits (side : Side) (k : Kernel) : Prop where
  listeners : side = .client → k.tcpListeners = []
  conn : ∀ i c, k.heap.cells i = some c → c.stage.Fits side
  entry : ∀ t e, k.tcpConnectionMap t = some e →
    e.conn.txNextSeq = side.firstSeq ∧ e.conn.rxNextSeq = side.peer.firstSeq
  sent : ∀ x ∈ k.sent, side.Numbers x.2.flags x.2.seqno x.2.ackno
  queued : ∀ n, ∀ b ∈ k.backlog n, b.pkt.seqno = 0#32

def Side.Owns (side : Side) : Event → Prop
  | .command _ _ (.tcp (.open _)) => side = .client
  | .command _ _ (.tcp (.listen _)) => side = .server
  | .command _ _ (.accept _) => side = .server
  | .packet _ _ _ | .exit _ _ => False
  | _ => True

instance (side : Side) (e : Event) : Decidable (side.Owns e) := by
  unfold Side.Owns
  split <;> infer_instance

section

variable {side : Side} {k k' : Kernel} {cfg : Config} {i n slot : Nat} {c : TcpConnection}

theorem fits_of_idle {st : Stage} (h : st.status = .waitRxSyn) : st.Fits side := by
  constructor <;> simp [h]

namespace Kernel.Fits

variable (hk : k.Fits side)
include hk

theorem conn_modify {f : TcpConnection → TcpConnection}
    (hf : ∀ c, k.heap.cells i = some c → (f c).stage.Fits side) (j : Nat) (c : TcpConnection)
    (hc : (k.heap.modify i f).cells j = some c) : c.stage.Fits side := by
  obtain ⟨c₀, hc₀, rfl⟩ := Heap.cells_modify_eq_some.mp hc
  split_ifs with hj
  · exact hf c₀ (hj ▸ hc₀)
  · exact hk.conn j c₀ hc₀

theorem conn_alloc {c₀ : TcpConnection} (h₀ : c₀.stage.Fits side) (j : Nat) (c : TcpConnection)
    (hc : (k.heap.alloc c₀).cells j = some c) : c.stage.Fits side := by
  rcases Heap.cells_alloc_eq_some.mp hc with ⟨-, rfl⟩ | hc
  · exact h₀
  · exact hk.conn j c hc

theorem entry_update {t₀ : FlowTuple} {e₀ : EbpfConn}
    (h₀ : e₀.conn.txNextSeq = side.firstSeq ∧ e₀.conn.rxNextSeq = side.peer.firstSeq)
    (t : FlowTuple)
    (e : EbpfConn) (he : update k.tcpConnectionMap t₀ (some e₀) t = some e) :
    e.conn.txNextSeq = side.firstSeq ∧ e.conn.rxNextSeq = side.peer.firstSeq := by
  rw [update_apply] at he
  split_ifs at he
  · cases he
    exact h₀
  · exact hk.entry t e he

theorem sent_append {t : TcpControl} (ht : side.Numbers t.flags t.seqno t.ackno)
    (x : Nat × TcpControl) (hx : x ∈ k.sent ++ [(i, t)]) :
    side.Numbers x.2.flags x.2.seqno x.2.ackno := by
  rcases List.mem_append.mp hx with hx | hx
  · exact hk.sent x hx
  · rw [List.mem_singleton.mp hx]
    exact ht

theorem put (h : PutCase k i k') : k'.Fits side := by
  cases h with
  | gone => exact hk
  | counted c hc href =>
    exact { hk with conn := hk.conn_modify fun c hc => hk.conn i c hc }
  | released c k' hc href h =>
    refine ⟨fun hr => h.listeners.trans (hk.listeners hr), fun j d hd => ?_, fun t e he => ?_,
      h.sent ▸ hk.sent, h.backlog ▸ hk.queued⟩
    · rw [h.heap] at hd
      exact hk.conn j d (Heap.cells_free_eq_some.mp hd).2
    · rw [h.map] at he
      split_ifs at he
      · rw [update_apply] at he
        split_ifs at he
        exact hk.entry t e he
      · exact hk.entry t e he

theorem foldl_put (is : List Nat) : (is.foldl tcpConnPut k).Fits side := by
  induction is generalizing k with
  | nil => exact hk
  | cons i is ih => exact ih (hk.put (putCase k i))

theorem cmd {tctx : Tctx} {cmd : TcpCmd} {a : Ambient}
    (hallow : side.Owns (.command a tctx (.tcp cmd))) (h : CmdCase cfg slot tctx k cmd k') :
    k'.Fits side := by
  have hopen (c : TcpConnection) (m : OpenMsg) (port : U16) (hr : side = .client) :
      (c.openWith cfg tctx m port).stage.Fits side := by
    subst hr
    constructor <;> simp [TcpConnection.openWith, TcpConnection.stage]
  cases h with
  | failed => exact { hk with }
  | reopened m i c out hfind =>
    exact { hk with conn := hk.conn_modify fun c _ => hopen c m _ hallow }
  | opened m port pool out hfind hport =>
    exact { hk with conn := hk.conn_alloc (hopen _ m _ hallow) }
  | bound m pool out hfind hport =>
    exact { hk with conn := hk.conn_alloc (fits_of_idle rfl) }
  | listening m i c out hfind htype =>
    exact { hk with listeners := fun hr => Side.noConfusion (hr.symm.trans hallow) }
  | closed m i c k' out hfind hput =>
    have hk' := hk.put hput
    exact { hk' with }

theorem queued_update {bs : List BacklogSlot}
    (hbs : ∀ b ∈ bs, b ∈ k.backlog n ∨ b.pkt.seqno = 0#32) (m : Nat) (b : BacklogSlot)
    (hb : b ∈ update k.backlog n bs m) : b.pkt.seqno = 0#32 := by
  rw [update_apply] at hb
  split_ifs at hb
  · exact (hbs b hb).elim (hk.queued n b) id
  · exact hk.queued m b hb

theorem eq_server {l : TcpListener} (hl : k.tcpListeners[n]? = some l) : side = .server := by
  cases side with
  | client => simp [hk.listeners rfl] at hl
  | server => rfl

theorem acceptCase (h : AcceptCase cfg slot n k k') : k'.Fits side := by
  have hqueued {b : BacklogSlot} {rest : List BacklogSlot} (hb : k.backlog n = b :: rest) :
      ∀ b' ∈ rest, b' ∈ k.backlog n ∨ b'.pkt.seqno = 0#32 :=
    fun b' hb' => .inl (hb ▸ List.mem_cons_of_mem b hb')
  have hseq {b : BacklogSlot} {rest : List BacklogSlot} (hb : k.backlog n = b :: rest) :
      b.pkt.seqno + 1#32 = 1#32 := by
    rw [hk.queued n b (hb ▸ List.mem_cons_self)]
    rfl
  cases h with
  | ignored => exact hk
  | dropped b rest hb => exact { hk with queued := hk.queued_update (hqueued hb) }
  | failed l i b rest idxs syn hl hi hb hidxs =>
    obtain rfl := hk.eq_server hl
    refine { hk with conn := hk.conn_modify fun c hc => ?_, queued :=
      hk.queued_update (hqueued hb) }
    exact ⟨fun hst => Side.noConfusion ((hk.conn i c hc).connecting hst).1, fun _ => rfl,
      fun _ _ => ⟨rfl, hseq hb⟩⟩
  | accepted l i b rest c idx idxs syn hl hi hb hc hidxs =>
    obtain rfl := hk.eq_server hl
    refine ⟨fun hr => Side.noConfusion hr, hk.conn_modify fun c hc => ⟨fun hst => ?_, fun _ => rfl,
      fun _ _ => ⟨rfl, hseq hb⟩⟩, hk.entry_update ⟨rfl, hseq hb⟩, hk.sent,
      hk.queued_update (hqueued hb)⟩
    rcases hst with hst | hst <;> cases hst

theorem connCase {p : PktTcp} {opts : TcpOpts} (hc : k.heap.cells i = some c)
    (hp : side.peer.Numbers p.flags p.seqno p.ackno)
    (h : ConnCase cfg k i c p opts k') : k'.Fits side := by
  have hfits := hk.conn i c hc
  have hack {t : TcpControl} (ht : t.flags = tcpAck) : side.Numbers t.flags t.seqno t.ackno := by
    rw [ht]
    cases side <;> exact fun h => absurd h (by decide)
  cases h with
  | ignored => exact hk
  | synackFailed qid idxs syn hstatus hidxs =>
    obtain ⟨rfl, -⟩ := hfits.connecting (.inr hstatus)
    refine { hk with conn := hk.conn_modify fun c hc => ?_ }
    exact ⟨fun _ => ⟨rfl, rfl⟩, (hk.conn i c hc).accepting, fun h => Side.noConfusion h⟩
  | opened qid idx idxs syn reply out hstatus hflags hidxs hreply =>
    obtain ⟨rfl, -⟩ := hfits.connecting (.inr hstatus)
    obtain ⟨hseq, hackno⟩ := hp hflags
    have hnext : p.seqno + 1#32 = 2#32 := by
      rw [hseq]
      rfl
    refine ⟨hk.listeners, hk.conn_modify fun c hc => ⟨fun hst => ?_, fun hst => ?_,
      fun h => Side.noConfusion h⟩, hk.entry_update ⟨hackno, hnext⟩, hk.sent_append (hack hreply),
      hk.queued⟩
    · rcases hst with hst | hst <;> cases hst
    · cases hst
  | resent ts hstatus hflags hts =>
    refine { hk with sent := hk.sent_append ?_ }
    cases side with
    | client =>
      refine fun h => absurd h ?_
      change synackFlags c &&& ~~~(tcpEce ||| tcpCwr) ≠ tcpSyn
      unfold synackFlags
      split_ifs <;> decide
    | server => exact fun _ => hfits.accepted rfl (.inr hstatus)
  | put out k' hstatus hwhy hput =>
    have hk' : Fits side { k with kernelOut := out } :=
      { hk with }
    exact hk'.put hput
  | acked => exact { hk with sent := hk.sent_append (hack rfl) }

theorem packet (a : Ambient) (p : PktTcp) (qid : U32)
    (hp : side.peer.Numbers p.flags p.seqno p.ackno) : (k.tcpPacket cfg a p qid).Fits side := by
  unfold tcpPacket
  split
  next => exact hk
  next opts hopts =>
    split
    next i hi =>
      split
      next => exact hk
      next c hc => exact hk.connCase hc hp (Control.connCase hc)
    next =>
      split
      next n hn =>
        -- only a SYN is queued, and only at a server
        have hcase := listenerCase cfg a.slot n a.mapOk p qid k
        by_cases hsyn : p.flags &&& ~~~(tcpEce ||| tcpCwr) = tcpSyn
        · generalize k.tcpListenerPkt cfg a.slot a.mapOk n p qid = k' at hcase
          cases hcase with
          | ignored => exact hk
          | queued l b out k' hl hb hnew hacc =>
            obtain rfl := hk.eq_server hl
            have hk' : Fits .server { k with
                backlog := update k.backlog n (k.backlog n ++ [b]), handshakeOut := out } := by
              refine { hk with queued := hk.queued_update fun b' hb' => ?_ }
              refine (List.mem_append.mp hb').imp_right fun hb' => ?_
              rw [List.mem_singleton.mp hb', hb]
              exact hp hsyn
            exact hk'.acceptCase hacc
        · rw [tcpListenerPkt]
          split
          next => exact hk
          next => rwa [if_pos hsyn]
      next => split_ifs <;> exact { hk with }

theorem handshakeEvent (deadline : U64) (i : Nat) : (k.handshakeEvent deadline i).Fits side := by
  unfold Kernel.handshakeEvent
  split
  next => exact hk
  next c hc =>
    have hfits := hk.conn i c hc
    split
    next hst =>
      obtain ⟨rfl, hseq⟩ := hfits.connecting (.inl hst)
      refine { hk with conn := hk.conn_modify fun d hd => ?_, sent := hk.sent_append fun _ => hseq }
      cases hc.symm.trans hd
      exact ⟨fun _ => ⟨rfl, hseq⟩, fun hst => ConnectionStatus.noConfusion hst,
        fun hr => Side.noConfusion hr⟩
    next hst =>
      obtain rfl := hfits.accepting hst
      have hseq := hfits.accepted rfl (.inl hst)
      refine ⟨hk.listeners, hk.conn_modify fun d hd => ?_, hk.entry,
        hk.sent_append fun _ => hseq, hk.queued⟩
      cases hc.symm.trans hd
      refine ⟨fun hst => ?_, fun _ => rfl, fun _ _ => hseq⟩
      rcases hst with hst | hst <;> cases hst
    next => exact hk

theorem pollHandshakes (deadline : U64) : (k.pollTcpHandshakeEvents deadline).Fits side := by
  unfold pollTcpHandshakeEvents
  have hk₀ : Fits side { k with tcpHandshakeList := [] } :=
    { hk with }
  generalize { k with tcpHandshakeList := [] } = k₀ at hk₀
  generalize k.tcpHandshakeList = is
  induction is generalizing k₀ with
  | nil => exact hk₀
  | cons i is ih => exact ih _ (hk₀.handshakeEvent deadline i)

omit hk in
theorem ccTo (toUs : U64 → U32) (q : CcPoll) (is : List Nat) (acc : Kernel × List Nat)
    (hk : acc.1.Fits side) : (is.foldl (ccToEvent toUs q) acc).1.Fits side := by
  induction is generalizing acc with
  | nil => exact hk
  | cons i is ih =>
    refine ih _ ?_
    have hcase := ccToCase toUs q acc.1 acc.2 i
    generalize ccToEvent toUs q acc i = acc' at hcase
    cases hcase with
    | ignored | timedOut => exact hk
    | resent c syn hc hdue hsyn =>
      obtain ⟨rfl, hseq⟩ := (hk.conn i c hc).connecting (.inr hdue.2.1)
      refine { hk with conn := hk.conn_modify fun d hd => ?_ }
      cases hc.symm.trans hd
      exact ⟨fun _ => ⟨rfl, hseq⟩, fun hst => ConnectionStatus.noConfusion hst,
        fun hr => Side.noConfusion hr⟩
    | controlled f hf =>
      refine { hk with conn := hk.conn_modify fun d hd => ?_ }
      rw [(hf d).stage]
      exact hk.conn i d hd

theorem step (pf : Platform) (e : Event) (he : side.Owns e) : (k.step pf e).Fits side := by
  cases e with
  | command a tctx cmd =>
    cases cmd with
    | tcp cmd => exact hk.cmd he (cmdCase pf.cfg a.slot tctx k cmd)
    | accept m =>
      simp only [Kernel.step, processTcpCmd]
      cases hacc : k.tcpAccept pf.cfg a tctx m with
      | none => exact { hk with }
      | some k' =>
        obtain ⟨n, l, -, hl, -, hcase⟩ := tcpAccept_eq_some hacc
        have hk' : Fits side (({ k with heap := k.heap.alloc (acceptedConn pf.cfg tctx n l m) }
            ).setPending n (some k.heap.next)) :=
          ⟨fun hr => Side.noConfusion (hr.symm.trans he), hk.conn_alloc (fits_of_idle rfl),
            hk.entry,
            hk.sent, hk.queued⟩
        exact hk'.acceptCase hcase
  | packet | exit => exact he.elim
  | pollHandshakes deadline => exact hk.pollHandshakes deadline
  | pollCcTo q => exact (Fits.ccTo pf.toUs q _ (k, []) hk).foldl_put _

end Kernel.Fits

end

/-! ## Two kernels -/

def bytesOf (x : U32) : List U8 :=
  [(x >>> 24).setWidth 8, (x >>> 16).setWidth 8, (x >>> 8).setWidth 8, x.setWidth 8]

def TcpControl.options (t : TcpControl) : List U8 :=
  let opts := (t.mss.elim [] fun mss => [2#8, 4#8] ++ (bytesOf (mss.setWidth 32)).drop 2) ++
    t.tsEcho.elim [] fun ts => [8#8, 10#8] ++ bytesOf 0#32 ++ bytesOf ts
  opts ++ .replicate (3 - (opts.length + 3) % 4) 0#8

def TcpControl.packet (t : TcpControl) : PktTcp where
  srcIp := t.tuple.localIp
  destIp := t.tuple.remoteIp
  src := t.tuple.localPort
  dest := t.tuple.remotePort
  seqno := t.seqno
  ackno := t.ackno
  flags := t.flags
  opts := t.options

/-- **The options of a control packet are read back** by `parse_tcp_opts`: the MSS as it was sent,
    and the timestamp, if there is one, as zero, whatever is echoed. -/
theorem parseTcpOpts_packet (t : TcpControl) :
    t.packet.parseTcpOpts = some ⟨t.mss, t.tsEcho.map fun _ => 0#32⟩ := by
  have hmss (x : U16) (l : List U8) :
      be16 ((x.setWidth 32 >>> 8).setWidth 8 :: x.setWidth 8 :: l) = x := by
    change ((x.setWidth 32 >>> 8).setWidth 8 ++ x.setWidth 8 : BitVec (8 + 8)) = x
    grind
  have hts (l : List U8) : be32 (0#8 :: 0#8 :: 0#8 :: 0#8 :: l) = 0#32 := by simp [be32]
  obtain ⟨tuple, seqno, ackno, flags, ts, mss⟩ := t
  cases ts <;> cases mss <;> simp [TcpControl.packet, TcpControl.options, PktTcp.parseTcpOpts,
    parseTcpOptsLoop, bytesOf, List.replicate, hmss, hts]

inductive DuplexEvent where
  | own (side : Side) (e : Event)
  | deliver (side : Side) (a : Ambient) (n : Nat) (qid : U32)

def duplexStep (pf : Side → Platform) (s : Side → Kernel) : DuplexEvent → Side → Kernel
  | .own side e => if side.Owns e then update s side ((s side).step (pf side) e) else s
  | .deliver side a n qid =>
    match (s side.peer).sent[n]? with
    | none => s
    | some (_, t) => update s side ((s side).step (pf side) (.packet a t.packet qid))

def FlowTuple.mirror (t : FlowTuple) : FlowTuple :=
  ⟨t.localIp, t.localPort, t.remoteIp, t.remotePort⟩

/-- **The property**: open connections of one flow are registered with the same numbers. -/
def NumbersAgree (s : Side → Kernel) : Prop :=
  ∀ i j c d, (s .client).heap.cells i = some c → c.status = .open →
    (s .server).heap.cells j = some d → d.status = .open → d.tuple = c.tuple.mirror →
    ∀ e ∈ (s .client).tcpConnectionMap c.tuple, ∀ e' ∈ (s .server).tcpConnectionMap d.tuple,
      e.conn.txNextSeq = e'.conn.rxNextSeq ∧ e'.conn.txNextSeq = e.conn.rxNextSeq

theorem fits_duplexStep (pf : Side → Platform) {s : Side → Kernel} (hs : ∀ side, (s side).Fits side)
    (e : DuplexEvent) (side : Side) : (duplexStep pf s e side).Fits side := by
  have hset {k : Kernel} {r : Side} (hk : k.Fits r) : (update s r k side).Fits side := by
    by_cases hr : side = r
    · subst hr
      rwa [update_self]
    · rw [update_of_ne hr]
      exact hs side
  cases e with
  | own r e =>
    simp only [duplexStep]
    split_ifs with howns
    · exact hset ((hs r).step (pf r) e howns)
    · exact hs side
  | deliver r a n qid =>
    simp only [duplexStep]
    cases ht : (s r.peer).sent[n]? with
    | none => exact hs side
    | some x =>
      exact hset ((hs r).packet a x.2.packet qid ((hs r.peer).sent x (List.mem_of_getElem? ht)))

/-- **Both sides of an open connection have the same sequence numbers**, whatever the network does
    with the packets. -/
theorem handshake_agreement (pf : Side → Platform) (es : List DuplexEvent) :
    Always (duplexStep pf) NumbersAgree (fun _ => boot) es := by
  have h0 (side : Side) : boot.Fits side := by
    refine ⟨fun _ => rfl, fun _ _ h => ?_, fun _ _ h => ?_, fun _ h => ?_, fun _ _ h => ?_⟩ <;>
      cases h
  have hall : Always (duplexStep pf) (fun s => ∀ side, (s side).Fits side) (fun _ => boot) es :=
    always_of_meets (fun s e hs _ => fits_duplexStep pf hs e) h0 meets_true
  refine hall.mono ?_
  intro s hs i j c d _ _ _ _ _ e he e' he'
  have hclient := (hs .client).entry c.tuple e he
  have hserver := (hs .server).entry d.tuple e' he'
  exact ⟨hclient.1.trans hserver.2.symm, hserver.1.trans hclient.2.symm⟩

end MtpXdp.Control

import MtpXdp.Control.Accepting

/-!
# Recovery From a Lost SYN-ACK

A client that does not get the SYN-ACK sends its SYN again, to a connection that is already open.
`tcp_connection_pkt` compares the flags after masking `ecn_flags`, which is still 0 there, so only a
SYN with neither `TCP_ECE` nor `TCP_CWR` is answered. The stack's own clients set both.
-/

namespace MtpXdp.Control

open MtpXdp.Core Ebpf Kernel List Option

variable {p : PktTcp}

def PktTcp.IsSyn (p : PktTcp) : Prop := p.flags &&& ~~~(tcpEce ||| tcpCwr) = tcpSyn
deriving Decidable

def PktTcp.NoEcn (p : PktTcp) : Prop := p.flags &&& (tcpEce ||| tcpCwr) = 0#16
deriving Decidable

theorem PktTcp.IsSyn.noEcn_iff (h : p.IsSyn) : p.NoEcn ↔ p.flags = tcpSyn := by
  constructor
  · intro hno
    calc p.flags = p.flags &&& ~~~(tcpEce ||| tcpCwr) ||| p.flags &&& (tcpEce ||| tcpCwr) := by
          rw [← BitVec.and_or_distrib_left, BitVec.or_comm, BitVec.or_not_self, BitVec.and_allOnes]
      _ = tcpSyn := by rw [h, hno, BitVec.or_zero]
  · intro hflags
    rw [PktTcp.NoEcn, hflags]
    decide

theorem PktTcp.IsSyn.has_syn (h : p.IsSyn) : p.flags &&& tcpSyn ≠ 0#16 := by
  have hmask : ~~~(tcpEce ||| tcpCwr) &&& tcpSyn = tcpSyn := by decide
  rw [← hmask, ← BitVec.and_assoc, h]
  decide

/-- The SYN `p` is answered as the first one was, and the connection at `i` stays open. -/
def Kernel.Recovers (cfg : Config) (k : Kernel) (a : Ambient) (p : PktTcp) (qid : U32)
    (deadline : U64) (i : Nat) : Prop :=
  let k' := (k.tcpPacket cfg a p qid).pollTcpHandshakeEvents deadline
  (∃ c, k'.heap.cells i = some c ∧ c.status = .open) ∧
    ∃ first, (k.synacks i).head? = some first ∧
      ∃ r ∈ (k'.synacks i).drop (k.synacks i).length,
        r.seqno = first.seqno ∧ r.ackno = first.ackno

variable {cfg : Config} {k k' : Kernel} {i j slot : Nat} {c : TcpConnection}

/-! ## What leaves an open connection alone -/

structure Undisturbed (i : Nat) (k k' : Kernel) : Prop where
  cell : k'.heap.cells i = k.heap.cells i
  synacks : k'.synacks i = k.synacks i

namespace Undisturbed

theorem refl (i : Nat) (k : Kernel) : Undisturbed i k k := ⟨rfl, rfl⟩

theorem trans {k'' : Kernel} (h : Undisturbed i k k') (h' : Undisturbed i k' k'') :
    Undisturbed i k k'' :=
  ⟨h'.cell.trans h.cell, h'.synacks.trans h.synacks⟩

theorem of_eq (hheap : k'.heap = k.heap) (hsent : k'.sent = k.sent) : Undisturbed i k k' :=
  ⟨by rw [hheap], by rw [Kernel.synacks, hsent, Kernel.synacks]⟩

theorem of_modify {f : TcpConnection → TcpConnection} (hij : i ≠ j)
    (hheap : k'.heap = k.heap.modify j f) (hsent : k'.sent = k.sent) : Undisturbed i k k' :=
  ⟨by rw [hheap, Heap.cells_modify_of_ne hij], by rw [Kernel.synacks, hsent, Kernel.synacks]⟩

theorem of_send {p : TcpControl} (hij : i ≠ j) (hcell : k'.heap.cells i = k.heap.cells i)
    (hsent : k'.sent = k.sent ++ [(j, p)]) : Undisturbed i k k' := by
  refine ⟨hcell, ?_⟩
  rw [synacks_append k' k hsent, if_neg fun h => hij h.1.symm, append_nil]

theorem put (hij : i ≠ j) (h : PutCase k j k') : Undisturbed i k k' := by
  cases h with
  | gone hc => exact .refl i k
  | counted c hc href => exact .of_modify hij rfl rfl
  | released c k' hc href hrel =>
    refine ⟨by rw [hrel.heap, Heap.cells_free_of_ne hij], ?_⟩
    rw [Kernel.synacks, hrel.sent, Kernel.synacks]

end Undisturbed

section

variable (hc : k.heap.cells i = some c) (hopen : c.status = .open)
include hc hopen

theorem undisturbed_handshakeCase (h : HandshakeCase k j k') : Undisturbed i k k' := by
  have hij : ∀ d, k.heap.cells j = some d → d.status ≠ .open → i ≠ j := by
    rintro d hd hne rfl
    obtain rfl := some.inj (hc.symm.trans hd)
    exact hne hopen
  cases h with
  | ignored => exact .refl i k
  | synSent d syn p hd hstatus hp =>
    have hne := hij d hd (by simp [hstatus])
    exact .of_send hne (Heap.cells_modify_of_ne hne) rfl
  | synackSent d p out hd hstatus hp =>
    have hne := hij d hd (by simp [hstatus])
    exact .of_send hne (Heap.cells_modify_of_ne hne) rfl

theorem handshakeEvents_of_open (deadline : U64) (is : List Nat) :
    Undisturbed i k (is.foldl (handshakeEvent deadline) k) := by
  induction is generalizing k with
  | nil => exact .refl i k
  | cons j is ih =>
    have h := undisturbed_handshakeCase hc hopen (handshakeCase deadline k j)
    exact h.trans (ih (h.cell.trans hc))

theorem undisturbed_poll
    (deadline : U64) : Undisturbed i k (k.pollTcpHandshakeEvents deadline) := by
  have h0 : Undisturbed i k { k with tcpHandshakeList := [] } := .of_eq rfl rfl
  exact h0.trans (handshakeEvents_of_open (h0.cell.trans hc) hopen deadline k.tcpHandshakeList)

end

theorem undisturbed_connCase {d : TcpConnection} {opts : TcpOpts} (hij : i ≠ j)
    (h : ConnCase cfg k j d p opts k') : Undisturbed i k k' := by
  cases h with
  | ignored => exact .refl i k
  | synackFailed qid idxs syn hstatus hidxs => exact .of_modify hij rfl rfl
  | opened qid idx idxs syn reply out hstatus hflags hidxs hreply =>
    exact .of_send hij (Heap.cells_modify_of_ne hij) rfl
  | resent ts hstatus hflags hts => exact .of_send hij rfl rfl
  | put out k' hstatus hwhy hput =>
    have hout : Undisturbed i k { k with kernelOut := out } := .of_eq rfl rfl
    exact hout.trans (.put hij hput)
  | acked hstatus => exact .of_send hij rfl rfl

theorem undisturbed_acceptCase {n : Nat} (hk : k.Accepting) (hc : k.heap.cells i = some c)
    (hopen : c.status = .open) (h : AcceptCase cfg slot n k k') : Undisturbed i k k' := by
  have hij : ∀ l j, k.tcpListeners[n]? = some l → l.pendingConn = some j → i ≠ j := by
    rintro l j hl hj rfl
    obtain ⟨-, d, hd, -, hst, -⟩ := hk.pending n l i hl hj
    obtain rfl := some.inj (hc.symm.trans hd)
    exact absurd (hopen.symm.trans hst) (by decide)
  cases h with
  | ignored => exact .refl i k
  | dropped b rest hb => exact .of_eq rfl rfl
  | failed l j b rest idxs syn hl hj hb hidxs => exact .of_modify (hij l j hl hj) rfl rfl
  | accepted l j b rest d idx idxs syn hl hj hb hd hidxs => exact .of_modify (hij l j hl hj) rfl rfl

theorem packet_of_other {opts : TcpOpts} (hk : k.Accepting)
    (hc : k.heap.cells i = some c) (hopen : c.status = .open) (hsyn : p.IsSyn)
    (hopts : p.parseTcpOpts = some opts) (hts : opts.ts ≠ none)
    (hother : ¬ (p.NoEcn ∧ k.tcpConnections.lookup p.tuple = some i))
    (h : PacketCase cfg slot p k k') : Undisturbed i k k' := by
  cases h with
  | none resets => exact .of_eq rfl rfl
  | conn j d opts' k' hopts' hj hd h =>
    obtain rfl := some.inj (hopts.symm.trans hopts')
    rcases eq_or_ne i j with rfl | hij
    · obtain rfl := some.inj (hc.symm.trans hd)
      have hecn : ¬ p.NoEcn := fun hno => hother ⟨hno, hj⟩
      cases h with
      | ignored => exact .refl i k
      | synackFailed qid idxs syn hstatus hidxs =>
        exact absurd (hopen.symm.trans hstatus) (by decide)
      | opened qid idx idxs syn reply out hstatus hflags hidxs hreply =>
        exact absurd (hopen.symm.trans hstatus) (by decide)
      | resent ts hstatus hflags hts => exact absurd (hsyn.noEcn_iff.mpr hflags) hecn
      | put out k' hstatus hwhy hput =>
        rcases hwhy with hnone | hnosyn
        · exact absurd hnone.2 hts
        · exact absurd hnosyn.1 hsyn.has_syn
      | acked hstatus => exact absurd (hopen.symm.trans hstatus) (by decide)
    · exact undisturbed_connCase hij h
  | listener n k' hi hn h =>
    cases h with
    | ignored => exact .refl i k
    | queued l b out k' hl hp hnew hacc =>
      have hq : Undisturbed i k { k with
          backlog := Function.update k.backlog n (k.backlog n ++ [b])
          handshakeOut := out } := .of_eq rfl rfl
      have hkq : Keeps k { k with
          backlog := Function.update k.backlog n (k.backlog n ++ [b])
          handshakeOut := out } := .quiet rfl rfl rfl rfl
      exact hq.trans (undisturbed_acceptCase (hk.keeps hkq) hc hopen hacc)

/-! ## The answer -/

theorem tcpPacket_eq_sendTcpControl {a : Ambient} {qid ts : U32} {opts : TcpOpts}
    (hc : k.heap.cells i = some c) (hopen : c.status = .open) (hflags : p.flags = tcpSyn)
    (hopts : p.parseTcpOpts = some opts) (hts : opts.ts = some ts)
    (hi : k.tcpConnections.lookup p.tuple = some i) :
    k.tcpPacket cfg a p qid = k.sendTcpControl i c (synackFlags c) (some ts) tcpMss := by
  have hmask : tcpSyn &&& 65535#16 = tcpSyn := by decide
  simp [tcpPacket, hopts, hi, hc, tcpConnectionPkt, hopen, hflags, hmask, hts]

theorem synack_recovery_iff (pf : Platform) (es : List Event) (i : Nat) (c : TcpConnection)
    (a : Ambient) (p : PktTcp) (qid : U32) (deadline : U64) (opts : TcpOpts)
    (hc : (run (step pf) boot es).heap.cells i = some c) (hserver : c.listener ≠ none)
    (hopen : c.status = .open) (htuple : p.tuple = c.tuple) (hsyn : p.IsSyn)
    (hopts : p.parseTcpOpts = some opts) (hts : opts.ts ≠ none) :
    (run (step pf) boot es).Recovers pf.cfg a p qid deadline i ↔
      p.NoEcn ∧ (run (step pf) boot es).tcpConnections.lookup c.tuple = some i := by
  have hk := accepting_run pf es
  generalize run (step pf) boot es = k at *
  rw [← htuple]
  constructor
  · rintro ⟨-, first, -, r, hr, -⟩
    by_contra hother
    -- the packet and the poll leave the connection's SYN-ACKs as they were
    have hpkt := packet_of_other hk hc hopen hsyn hopts hts hother (packetCase pf.cfg a p qid k)
    have hboth := hpkt.trans (undisturbed_poll (hpkt.cell.trans hc) hopen deadline)
    rw [hboth.synacks, drop_length] at hr
    cases hr
  · rintro ⟨hno, hi⟩
    obtain ⟨ts, hts⟩ := ne_none_iff_exists'.mp hts
    have hpkt : k.tcpPacket pf.cfg a p qid = _ :=
      tcpPacket_eq_sendTcpControl hc hopen (hsyn.noEcn_iff.mp hno) hopts hts hi
    generalize hk' : k.tcpPacket pf.cfg a p qid = k' at hpkt
    have hc' : k'.heap.cells i = some c := by rw [hpkt]; exact hc
    -- the answer is the one SYN-ACK that is new, and the poll adds none
    have hsynacks : k'.synacks i = k.synacks i ++
      [controlPkt c (synackFlags c) (some ts) tcpMss] := by
      rw [hpkt, synacks_append _ k rfl, if_pos ⟨rfl, isSynack_synackFlags rfl⟩]
    have hpoll := undisturbed_poll hc' hopen deadline
    rcases hk.server i c hc hserver with ⟨hst | hst, -⟩ | ⟨-, first, hfirst, hseq, hack⟩
    · exact absurd (hopen.symm.trans hst) (by decide)
    · exact absurd (hopen.symm.trans hst) (by decide)
    · unfold Kernel.Recovers
      dsimp only
      rw [hk', hpoll.synacks, hsynacks, drop_left, hpoll.cell]
      exact ⟨⟨c, hc', hopen⟩, first, hfirst, _, mem_singleton_self _, hseq.symm, hack.symm⟩

def serverEvents : List Event :=
  [Site.bind 0 1#64 false, Site.listen 0 1#64 2#64, Site.accept 0 2#64 5#64,
    Site.synReceived 7#16 0xC2#16, .pollHandshakes 0#64]

def serverOpened : Kernel := run (step Site.nic) boot serverEvents

theorem serverOpened_isSome : (serverOpened.heap.cells 1).isSome := by decide +kernel

def serverConn : TcpConnection := (serverOpened.heap.cells 1).get serverOpened_isSome

theorem synack_recovery_bare :
    serverOpened.Recovers Site.nic.cfg Site.ambient (Site.syn 7#16 0x02#16) 0#32 0#64 1 :=
  (synack_recovery_iff Site.nic serverEvents 1 serverConn Site.ambient (Site.syn 7#16 0x02#16) 0#32
    0#64 ⟨some 1460#16, some 9#32⟩ (some_get _).symm (by decide +kernel) (by decide +kernel)
    (by decide +kernel) (by decide) (by decide) (by decide)).mpr ⟨by decide, by decide +kernel⟩

/-- The first SYN-ACK was lost and the client sends its SYN again: as it was, it gets no answer. -/
theorem ecn_syn_not_answered :
    serverOpened.heap.cells 1 = some serverConn ∧ serverConn.listener ≠ none ∧
      serverConn.status = .open ∧ (Site.syn 7#16 0xC2#16).tuple = serverConn.tuple ∧
      (Site.syn 7#16 0xC2#16).IsSyn ∧
      (Site.syn 7#16 0xC2#16).parseTcpOpts = some ⟨some 1460#16, some 9#32⟩ ∧
      ¬ serverOpened.Recovers Site.nic.cfg Site.ambient (Site.syn 7#16 0xC2#16) 0#32 0#64 1 := by
  refine ⟨(some_get _).symm, by decide +kernel, by decide +kernel, by decide +kernel,
    by decide, by decide, ?_⟩
  rintro ⟨-, first, -, r, hr, -⟩
  have hnone : ((((serverOpened.tcpPacket Site.nic.cfg Site.ambient (Site.syn 7#16 0xC2#16)
      0#32).pollTcpHandshakeEvents 0#64).synacks 1).drop (serverOpened.synacks 1).length) = [] := by
    decide +kernel
  rw [hnone] at hr
  cases hr

end MtpXdp.Control

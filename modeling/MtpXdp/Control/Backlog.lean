import MtpXdp.Control.PortOwnership

/-!
# Backlogs

A SYN waits in the backlog of its listener for an accept, and an accept in `pending_conn` for a SYN.
`tcp_listener_accept` takes one SYN and may give up on it; then the SYNs behind it wait beside the
accept. The second half is about the bytes of a SYN: `backlog_slot` copies as many as the IP header
says.
-/

namespace MtpXdp.Control

open MtpXdp.Core Ebpf Function Option

namespace Kernel

def Paired (k : Kernel) : Prop := ∀ n, k.pendingOf n ≠ none → k.backlog n = []

def Usable (k : Kernel) (mapOk : Bool) (b : BacklogSlot) : Prop :=
  (∃ opts ∈ b.pkt.parseTcpOpts, opts.mss.isSome ∧ opts.ts.isSome) ∧ k.availCcIdxs ≠ [] ∧
    mapOk = true
deriving Decidable

def TakesUsable (k : Kernel) : Event → Prop
  | .command a tctx (.accept m) => ∀ n ∈ k.findListener tctx m, k.pendingOf n = none →
      k.tcpConnections.entries.length ≤ maxNrConn →
      ∀ b ∈ (k.backlog n).head?, (k.backlog n).tail ≠ [] → k.Usable a.mapOk b
  | _ => True

instance (k : Kernel) (e : Event) : Decidable (TakesUsable k e) := by
  rcases e with ⟨_, _, ⟨⟨⟩⟩ | _⟩ | _ <;> unfold TakesUsable <;> infer_instance

/-! ## What leaves the pairing alone -/

structure SamePairing (k k' : Kernel) : Prop where
  pending : k'.pendingOf = k.pendingOf
  backlog : k'.backlog = k.backlog

section

variable {k k' k'' : Kernel} {cfg : Config} {n i slot : Nat} {l : TcpListener} {mapOk : Bool}
  {b : BacklogSlot} {rest : List BacklogSlot}

theorem SamePairing.refl (k : Kernel) : SamePairing k k := ⟨rfl, rfl⟩

theorem SamePairing.trans (h : SamePairing k k') (h' : SamePairing k' k'') : SamePairing k k'' :=
  ⟨h'.pending.trans h.pending, h'.backlog.trans h.backlog⟩

theorem SamePairing.of_listeners (h : k'.tcpListeners = k.tcpListeners)
    (hb : k'.backlog = k.backlog) : SamePairing k k' := by
  refine ⟨?_, hb⟩
  funext n
  rw [pendingOf, h, pendingOf]

theorem Paired.congr (hk : k.Paired) (h : SamePairing k k') : k'.Paired := by
  intro n hn
  rw [h.backlog]
  exact hk n (h.pending ▸ hn)

theorem samePairing_put (h : PutCase k i k') : SamePairing k k' := by
  cases h with
  | gone => exact .refl k
  | counted => exact .of_listeners rfl rfl
  | released c k' hc href h => exact .of_listeners h.listeners h.backlog

theorem samePairing_foldl_put (is : List Nat) (k : Kernel) :
    SamePairing k (is.foldl tcpConnPut k) := by
  induction is generalizing k with
  | nil => exact .refl k
  | cons i is ih => exact (samePairing_put (putCase k i)).trans (ih _)

theorem samePairing_cmd {tctx : Tctx} {cmd : TcpCmd} (h : CmdCase cfg slot tctx k cmd k') :
    SamePairing k k' := by
  cases h with
  | closed m i c k' out hfind hput => exact (samePairing_put hput).trans (.of_listeners rfl rfl)
  | listening m i c out hfind htype =>
    -- a new listener waits for nothing
    refine ⟨funext fun n => ?_, rfl⟩
    simp only [pendingOf, List.getElem?_append, List.getElem?_singleton]
    split_ifs with hlt heq
    · rfl
    · rw [List.getElem?_eq_none (Nat.not_lt.mp hlt)]
      rfl
    · rw [List.getElem?_eq_none (Nat.not_lt.mp hlt)]
  | failed | reopened | opened | bound => exact .of_listeners rfl rfl

theorem samePairing_handshakes (k : Kernel) (deadline : U64) :
    SamePairing k (k.pollTcpHandshakeEvents deadline) := by
  refine pollTcpHandshakeEvents_induct deadline (.of_listeners rfl rfl) fun k₁ i k₂ h hcase => ?_
  cases hcase <;> exact h.trans (.of_listeners rfl rfl)

theorem samePairing_ccTo (toUs : U64 → U32) (q : CcPoll) (is : List Nat) (acc : Kernel × List Nat) :
    SamePairing acc.1 (is.foldl (ccToEvent toUs q) acc).1 := by
  induction is generalizing acc with
  | nil => exact .refl _
  | cons i is ih =>
    refine SamePairing.trans ?_ (ih _)
    have hcase := ccToCase toUs q acc.1 acc.2 i
    generalize ccToEvent toUs q acc i = acc' at hcase
    cases hcase <;> exact .of_listeners rfl rfl

/-! ## What pairs -/

theorem pendingOf_of_modify {pending : Option Nat}
    (h : k'.tcpListeners = k.tcpListeners.modify n fun l => { l with pendingConn := pending })
    (n' : Nat) :
    k'.pendingOf n' =
      if n = n' ∧ n' < k.tcpListeners.length then pending else k.pendingOf n' := by
  unfold pendingOf
  rw [h, List.getElem?_modify]
  by_cases hlt : n' < k.tcpListeners.length
  · rw [List.getElem?_eq_getElem hlt]
    split_ifs <;> simp_all
  · rw [List.getElem?_eq_none (Nat.not_lt.mp hlt), if_neg fun h => hlt h.2]
    rfl

section

variable (hl : k.tcpListeners[n]? = some l) (hi : l.pendingConn = some i)
include hl hi

theorem tcpListenerAccept_spec (hb : k.backlog n = b :: rest) :
    (k.tcpListenerAccept cfg slot mapOk n).backlog = update k.backlog n rest ∧
      (∀ n' ≠ n, (k.tcpListenerAccept cfg slot mapOk n).pendingOf n' = k.pendingOf n') ∧
      ((k.heap.cells i).isSome →
        ((k.tcpListenerAccept cfg slot mapOk n).pendingOf n = none ↔ k.Usable mapOk b)) := by
  have hlt : n < k.tcpListeners.length := (List.getElem?_eq_some_iff.mp hl).1
  have hpend : k.pendingOf n = some i := by rw [pendingOf, hl, bind_some, hi]
  -- a call that gives up leaves the accept in place
  have hgiveUp {k' : Kernel} (hlis : k'.tcpListeners = k.tcpListeners)
      (hback : k'.backlog = update k.backlog n rest) (hnot : ¬ k.Usable mapOk b) :
      k'.backlog = update k.backlog n rest ∧ (∀ n' ≠ n, k'.pendingOf n' = k.pendingOf n') ∧
        ((k.heap.cells i).isSome → (k'.pendingOf n = none ↔ k.Usable mapOk b)) := by
    have hsame : k'.pendingOf = k.pendingOf := by
      funext n'
      rw [pendingOf, hlis, pendingOf]
    exact ⟨hback, fun n' _ => by rw [hsame], fun _ => by simp [hsame, hpend, hnot]⟩
  simp only [tcpListenerAccept, hl, hb, hi]
  split
  next mss ts hopts =>
    simp only [acceptSyn, setBacklog, modifyConn, modifySyn]
    split
    next hnone =>
      refine ⟨rfl, fun _ _ => rfl, fun hsome => ?_⟩
      simp only [Heap.cells_modify_self, map_eq_none_iff] at hnone
      simp [hnone] at hsome
    next c hc =>
      unfold regTcpConnEbpf
      cases hidx : k.availCcIdxs with
      | nil => exact hgiveUp rfl rfl fun h => h.2.1 hidx
      | cons idx idxs =>
        cases mapOk with
        | false => exact hgiveUp rfl rfl fun h => Bool.noConfusion h.2.2
        | true =>
          have husable : k.Usable true b :=
            ⟨⟨⟨some mss, some ts⟩, hopts, rfl, rfl⟩, by simp [hidx], rfl⟩
          refine ⟨rfl, fun n' hn' => ?_, fun _ => iff_of_true ?_ husable⟩
          · rw [pendingOf_of_modify rfl, if_neg fun h => hn' h.1.symm]
            rfl
          · rw [pendingOf_of_modify rfl, if_pos ⟨rfl, hlt⟩]
  next hopts =>
    refine hgiveUp rfl rfl fun h => ?_
    obtain ⟨⟨⟨mss, ts⟩, hp, hmss, hts⟩, -⟩ := h
    obtain ⟨mss, rfl⟩ := isSome_iff_exists.mp hmss
    obtain ⟨ts, rfl⟩ := isSome_iff_exists.mp hts
    exact hopts mss ts hp

theorem paired_tcpListenerAccept
    (hb : k.backlog n = [b]) (hk : ∀ n' ≠ n, k.pendingOf n' ≠ none → k.backlog n' = []) :
    (k.tcpListenerAccept cfg slot mapOk n).Paired := by
  obtain ⟨hback, hother, -⟩ := tcpListenerAccept_spec hl hi hb
  intro n' hn'
  rw [hback]
  by_cases hne : n' = n
  · rw [hne, update_self]
  · rw [update_of_ne hne]
    exact hk n' hne (hother n' hne ▸ hn')

theorem paired_tcpListenerAccept_iff (hcell : (k.heap.cells i).isSome)
    (hb : k.backlog n = b :: rest)
    (hk : ∀ n' ≠ n, k.pendingOf n' ≠ none → k.backlog n' = []) :
    (k.tcpListenerAccept cfg slot mapOk n).Paired ↔ (rest ≠ [] → k.Usable mapOk b) := by
  constructor
  · intro h hrest
    obtain ⟨hback, -, husable⟩ := tcpListenerAccept_spec hl hi hb
    refine (husable hcell).mp ?_
    by_contra hwaits
    have hempty := h n hwaits
    rw [hback, update_self] at hempty
    exact hrest hempty
  · intro h
    cases rest with
    | nil => exact paired_tcpListenerAccept hl hi hb hk
    | cons b' rest =>
      obtain ⟨hback, hother, husable⟩ := tcpListenerAccept_spec hl hi hb
      intro n' hn'
      have hne : n' ≠ n := by
        rintro rfl
        exact hn' ((husable hcell).mpr (h (by simp)))
      rw [hback, update_of_ne hne]
      exact hk n' hne (hother n' hne ▸ hn')

end

theorem paired_tcpListenerPkt (hk : k.Paired) (n : Nat) (p : PktTcp) (qid : U32) :
    (k.tcpListenerPkt cfg slot mapOk n p qid).Paired := by
  unfold tcpListenerPkt
  split
  next => exact hk
  next l hl =>
    have hpend : k.pendingOf n = l.pendingConn := by rw [pendingOf, hl, bind_some]
    have hother (n' : Nat) (hne : n' ≠ n) (hn' : k.pendingOf n' ≠ none) :
        update k.backlog n (k.backlog n ++ [⟨p, qid⟩]) n' = [] := by
      rw [update_of_ne hne]
      exact hk n' hn'
    split_ifs with hsyn hfull hdup hsome
    · exact hk
    · exact hk
    · exact hk
    · -- the accept that waits takes the SYN, or the SYN is dropped
      obtain ⟨i, hi⟩ := isSome_iff_exists.mp hsome
      refine paired_tcpListenerAccept (b := ⟨p, qid⟩) hl hi ?_ hother
      have hempty : k.backlog n = [] := hk n (by simp [hpend, hi])
      simp [notifyHandshake, setBacklog, hempty]
    · intro n' hn'
      have hwaits : k.pendingOf n' ≠ none := hn'
      refine hother n' ?_ hwaits
      rintro rfl
      exact hwaits (by simpa [hpend] using hsome)

theorem samePairing_conn {c : TcpConnection} {p : PktTcp} {opts : TcpOpts}
    (h : ConnCase cfg k i c p opts k') : SamePairing k k' := by
  cases h with
  | put out k' hstatus hwhy hput =>
    have hsame := samePairing_put hput
    exact ⟨hsame.pending, hsame.backlog⟩
  | ignored | synackFailed | opened | resent | acked => exact .of_listeners rfl rfl

theorem paired_tcpPacket (hk : k.Paired) (a : Ambient) (p : PktTcp) (qid : U32) :
    (k.tcpPacket cfg a p qid).Paired := by
  unfold tcpPacket
  split
  next => exact hk
  next opts hopts =>
    split
    next i hi =>
      split
      next => exact hk
      next c hc => exact hk.congr (samePairing_conn (connCase hc))
    next =>
      split
      next n hn => exact paired_tcpListenerPkt hk n p qid
      next => split_ifs <;> exact hk.congr (.of_listeners rfl rfl)

theorem paired_accept_iff (hk : k.Paired) (a : Ambient) (tctx : Tctx) (m : AcceptMsg) :
    (k.processTcpCmd cfg a tctx (.accept m)).Paired ↔
      TakesUsable k (.command a tctx (.accept m)) := by
  have hquiet {k' : Kernel} (h : SamePairing k k') {q : Prop} (hq : q) : k'.Paired ↔ q :=
    iff_of_true (hk.congr h) hq
  simp only [processTcpCmd, tcpAccept, TakesUsable]
  cases hfind : k.findListener tctx m with
  | none => exact hquiet (.of_listeners rfl rfl) (by simp)
  | some n =>
    have hfound := List.find?_some hfind
    obtain ⟨-, l, hl, -⟩ := of_decide_eq_true hfound
    have hl : k.tcpListeners[n]? = some l := hl
    have hpend : k.pendingOf n = l.pendingConn := by rw [pendingOf, hl, bind_some]
    simp only [hl, mem_some_iff, forall_eq', hpend]
    by_cases hsome : l.pendingConn.isSome
    · rw [if_pos hsome]
      exact hquiet (.of_listeners rfl rfl) fun h => by simp [h] at hsome
    · have hnone : l.pendingConn = none := by simpa using hsome
      rw [if_neg hsome]
      by_cases hmany : maxNrConn < k.tcpConnections.entries.length
      · rw [if_pos hmany]
        exact hquiet (.of_listeners rfl rfl) fun _ h => absurd hmany (Nat.not_lt.mpr h)
      · rw [if_neg hmany]
        simp only [hnone, Nat.not_lt.mp hmany, true_imp_iff]
        -- the accept waits at the listener, and nothing else has changed
        generalize hk₁ : setPending _ n (some k.heap.next) = k₁
        have hlis : k₁.tcpListeners[n]? = some { l with pendingConn := some k.heap.next } := by
          simp [← hk₁, setPending, hl]
        have hback : k₁.backlog = k.backlog := by rw [← hk₁]; rfl
        have hother : ∀ n' ≠ n, k₁.pendingOf n' = k.pendingOf n' := by
          intro n' hne
          rw [← hk₁, pendingOf_of_modify rfl, if_neg fun h => hne h.1.symm]
          rfl
        cases hb : k.backlog n with
        | nil =>
          rw [if_neg (by simp [hback, hb])]
          refine iff_of_true (fun n' hn' => ?_) (by simp)
          rw [hback]
          by_cases hne : n' = n
          · rw [hne, hb]
          · exact hk n' (hother n' hne ▸ hn')
        | cons b rest =>
          rw [if_pos (by simp [hback, hb])]
          have hcell : (k₁.heap.cells k.heap.next).isSome := by simp [← hk₁, setPending]
          have hk' : ∀ n' ≠ n, k₁.pendingOf n' ≠ none → k₁.backlog n' = [] := by
            intro n' hne hn'
            rw [hback]
            exact hk n' (hother n' hne ▸ hn')
          rw [paired_tcpListenerAccept_iff hlis rfl hcell (hback ▸ hb) hk']
          have husable : k₁.Usable a.mapOk b ↔ k.Usable a.mapOk b := by rw [← hk₁]; rfl
          simp [husable]

theorem paired_freeListener (hk : k.Paired) (n : Nat) : (k.freeListener n).Paired := by
  intro n' hn'
  have hback : (k.freeListener n).backlog = update k.backlog n [] := rfl
  rw [hback]
  by_cases hne : n' = n
  · rw [hne, update_self]
  · rw [pendingOf_freeListener, if_neg hne] at hn'
    rw [update_of_ne hne]
    exact hk n' hn'

theorem paired_freeAppResources (hk : k.Paired) (actx : Nat) (xskOk : Bool) :
    (k.freeAppResources actx xskOk).Paired := by
  have hfree : ∀ (ns : List Nat) (k : Kernel), k.Paired → (ns.foldl freeListener k).Paired := by
    intro ns
    induction ns with
    | nil => exact fun k hk => hk
    | cons n ns ih => exact fun k hk => ih _ (paired_freeListener hk n)
  have hafter := hfree ((k.freeConnections actx).listenersOf actx) _
    (hk.congr (samePairing_foldl_put (k.connectionsOf actx) k))
  unfold freeAppResources freeListeners
  split_ifs <;> exact hafter.congr (.of_listeners rfl rfl)

end

theorem paired_step_iff (pf : Platform) (k : Kernel) (e : Event) (hk : k.Paired) :
    (k.step pf e).Paired ↔ TakesUsable k e := by
  cases e with
  | command a tctx cmd =>
    cases cmd with
    | tcp cmd =>
      exact iff_of_true (hk.congr (samePairing_cmd (cmdCase pf.cfg a.slot tctx k cmd))) trivial
    | accept m => exact paired_accept_iff hk a tctx m
  | packet a p qid => exact iff_of_true (paired_tcpPacket hk a p qid) trivial
  | pollHandshakes deadline =>
    exact iff_of_true (hk.congr (samePairing_handshakes k deadline)) trivial
  | pollCcTo q =>
    refine iff_of_true (hk.congr ?_) trivial
    exact (samePairing_ccTo pf.toUs q _ (k, [])).trans (samePairing_foldl_put _ _)
  | exit actx xskOk => exact iff_of_true (paired_freeAppResources hk actx xskOk) trivial

end Kernel

open Kernel

/-- **A waiting accept and a queued SYN coexist** iff an accept finds several SYNs and cannot use
    the first. -/
theorem accept_paired_iff (pf : Platform) (es : List Event) :
    Always (step pf) Paired boot es ↔ Meets (step pf) TakesUsable boot es :=
  always_iff_meets (fun k e hk _ hok => (paired_step_iff pf k e hk).mpr hok)
    (fun k e hk _ h => (paired_step_iff pf k e hk).mp h) (fun _ hk => hk) (fun _ _ => rfl)
    meets_true

def malformedFirst : List Event :=
  [Site.bind 0 1#64 false, Site.listen 0 1#64 2#64,
    .packet Site.ambient { Site.syn 7#16 tcpSyn with opts := [] } 0#32,
    Site.synReceived 8#16 tcpSyn, Site.accept 0 2#64 5#64]

theorem accept_unpaired : ¬ Always (step Site.nic) Paired boot malformedFirst := by
  intro h
  exact absurd (h.last 0) (by decide +kernel)

/-! ## The copy of a SYN -/

def backlogPktSize : Nat := 256

structure FrameLen where
  ipLen : U16
  received : Nat

def FrameLen.copied (f : FrameLen) : Nat := (14#16 + f.ipLen).toNat

/-- What `tcp_packet` copies when it comes to the constructor of `backlog_slot`. -/
def Kernel.copies (cfg : Config) (k : Kernel) (p : PktTcp) (f : FrameLen) : Option Nat := do
  let _ ← p.parseTcpOpts
  guard (k.tcpConnections.lookup p.tuple = none)
  let n ← k.tcpListenerLookup cfg p
  let l ← k.tcpListeners[n]?
  guard (p.flags &&& ~~~(tcpEce ||| tcpCwr) = tcpSyn ∧
    (k.backlog n).length < l.maxBacklogSize.toNat ∧ ∀ b ∈ k.backlog n, b.pkt.tuple ≠ p.tuple)
  return f.copied

structure Copying where
  kernel : Kernel := boot
  copies : List (Nat × Nat) := []

def Copying.step (pf : Platform) (s : Copying) (e : Event × FrameLen) : Copying where
  kernel := s.kernel.step pf e.1
  copies :=
    match e.1 with
    | .packet _ p _ => s.copies ++ ((s.kernel.copies pf.cfg p e.2).map (·, e.2.received)).toList
    | _ => s.copies

def Copying.Fit (s : Copying) : Prop := ∀ c ∈ s.copies, c.1 ≤ backlogPktSize ∧ c.1 ≤ c.2
deriving Decidable

structure Kernel.Queues (cfg : Config) (k : Kernel) (p : PktTcp) (n : Nat) (l : TcpListener) :
    Prop where
  parsed : p.parseTcpOpts.isSome
  unknown : k.tcpConnections.lookup p.tuple = none
  found : k.tcpListenerLookup cfg p = some n
  listener : k.tcpListeners[n]? = some l
  syn : p.flags &&& ~~~(tcpEce ||| tcpCwr) = tcpSyn
  room : (k.backlog n).length < l.maxBacklogSize.toNat
  fresh : ∀ b ∈ k.backlog n, b.pkt.tuple ≠ p.tuple

/-- `ip.len` of a SYN that is queued is at most 242 (or wraps around) and not more than was
    received. -/
def Copying.SaysTruth (pf : Platform) (s : Copying) (e : Event × FrameLen) : Prop :=
  ∀ a p qid n l, e.1 = .packet a p qid → s.kernel.Queues pf.cfg p n l →
    (14 + e.2.ipLen.toNat) % 2 ^ 16 ≤ backlogPktSize ∧
      (14 + e.2.ipLen.toNat) % 2 ^ 16 ≤ e.2.received

theorem Kernel.mem_copies {cfg : Config} {k : Kernel} {p : PktTcp} {f : FrameLen} {len : Nat} :
    len ∈ k.copies cfg p f ↔ (∃ n l, k.Queues cfg p n l) ∧ len = (14 + f.ipLen.toNat) % 2 ^ 16 := by
  have hlen : f.copied = (14 + f.ipLen.toNat) % 2 ^ 16 := BitVec.toNat_add ..
  simp only [copies, mem_def, bind_eq_bind, bind_eq_some_iff,
    guard_eq_some', pure_def, some.injEq, hlen]
  constructor
  · rintro ⟨opts, hopts, -, hnone, n, hn, l, hl, -, ⟨hsyn, hroom, hfresh⟩, rfl⟩
    exact ⟨⟨n, l, by simp [hopts], hnone, hn, hl, hsyn, hroom, hfresh⟩, rfl⟩
  · rintro ⟨⟨n, l, hq⟩, rfl⟩
    obtain ⟨opts, hopts⟩ := isSome_iff_exists.mp hq.parsed
    exact ⟨opts, hopts, (), hq.unknown, n, hq.found, l, hq.listener, (),
      ⟨hq.syn, hq.room, hq.fresh⟩, rfl⟩

theorem Copying.fit_step_iff (pf : Platform) (s : Copying) (e : Event × FrameLen) (hs : s.Fit) :
    (s.step pf e).Fit ↔ s.SaysTruth pf e := by
  obtain ⟨e, f⟩ := e
  cases e with
  | packet a p qid =>
    have hmem {c : Nat × Nat} : c ∈ (s.step pf (.packet a p qid, f)).copies ↔
        c ∈ s.copies ∨ c.1 ∈ s.kernel.copies pf.cfg p f ∧ c.2 = f.received := by
      obtain ⟨len, received⟩ := c
      simp [step, eq_comm]
    simp only [Fit, hmem, Kernel.mem_copies, SaysTruth]
    constructor
    · rintro h a' p' qid' n l heq hq
      cases heq
      exact h ((14 + f.ipLen.toNat) % 2 ^ 16, f.received) (.inr ⟨⟨⟨n, l, hq⟩, rfl⟩, rfl⟩)
    · rintro h c (hc | ⟨⟨⟨n, l, hq⟩, hlen⟩, hrec⟩)
      · exact hs c hc
      · rw [hlen, hrec]
        exact h a p qid n l rfl hq
  | command | pollHandshakes | pollCcTo | exit =>
    exact iff_of_true hs fun _ _ _ _ _ h => Event.noConfusion h

/-- **The copies into backlog slots fit, and are of received bytes, iff `ip.len` of every queued SYN
    says so.** -/
theorem backlog_copies_fit_iff (pf : Platform) (es : List (Event × FrameLen)) :
    Always (Copying.step pf) Copying.Fit {} es ↔
      Meets (Copying.step pf) (Copying.SaysTruth pf) {} es :=
  always_iff_meets (fun s e hs _ hok => (s.fit_step_iff pf e hs).mpr hok)
    (fun s e hs _ h => (s.fit_step_iff pf e hs).mp h) (fun _ hs => hs) (by simp [Copying.Fit])
    meets_true

def longSyn : List (Event × FrameLen) :=
  [Site.bind 0 1#64 false, Site.listen 0 1#64 2#64, Site.synReceived 8#16 tcpSyn].map
    (·, ⟨300#16, 74⟩)

/-- 314 bytes are copied into a slot of 256. -/
theorem backlog_overflow : ¬ Always (Copying.step Site.nic) Copying.Fit {} longSyn := by
  intro h
  exact absurd h.last (by decide +kernel)

end MtpXdp.Control

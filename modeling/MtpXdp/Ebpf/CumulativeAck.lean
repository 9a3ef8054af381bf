import MtpXdp.Ebpf.Flow
import MtpXdp.Ebpf.SeqWindow

/-!
# Cumulative Acknowledgement

The receive path may only move `rx_next_seq` over bytes that some segment carried.
`flush_ooo_data_ep` adds the segment's length without looking at `skip_data_eps`, so it also moves
over bytes that never arrived. The property holds in runs in which every segment with payload
contains the next expected byte.
-/

namespace MtpXdp.Ebpf

open MtpXdp.Core List

/-! ## Segments and what they carry -/

structure Segment where
  seq : U32
  len : U32

def Segment.Carries (g : Segment) (x : U32) : Prop := ahead g.seq x < g.len.toNat

def CarriedUpTo (segs : List Segment) (init fin : U32) : Prop :=
  ∀ x, ahead init x < ahead init fin → ∃ g ∈ segs, g.Carries x

theorem CarriedUpTo.append {segs more : List Segment} {init fin : U32}
    (h : CarriedUpTo segs init fin) : CarriedUpTo (segs ++ more) init fin := by
  intro x hx
  obtain ⟨g, hg, hcar⟩ := h x hx
  exact ⟨g, mem_append_left _ hg, hcar⟩

theorem CarriedUpTo.extend {segs : List Segment} {init fin n : U32} (h : CarriedUpTo segs init fin)
    {g : Segment} (hg : g ∈ segs) (hcar : ∀ x, ahead fin x < n.toNat → g.Carries x) :
    CarriedUpTo segs init (fin + n) := by
  intro x hx
  by_cases hold : ahead init x < ahead init fin
  · exact h x hold
  · -- `x` is not before `fin`, so it is one of the new bytes
    refine ⟨g, hg, hcar x ?_⟩
    have hsplit := ahead_trans init fin x
    rw [ahead_add] at hx
    have hd32 := ahead_lt fin x
    omega

/-! ## The receive path -/

def queuedAcks (before after : AckRing) : List U32 :=
  -- nothing was produced, or the queue was full
  if after.prod = before.prod ∨ before.cons = ringNext before.prod then []
  else [(after.slots before.prod).ack]

structure RecvState where
  c : BpfTcpConn
  segs : List Segment
  acks : List U32

structure SegEvent where
  ev : NetEvent
  env : NetEnv
  cc : BpfCc
deriving Inhabited

def SegEvent.ctx (e : SegEvent) (c : BpfTcpConn) : NetCtx :=
  Flow.net { c := c, cc := e.cc } e.ev e.env

def recvStep (s : RecvState) (e : SegEvent) : RecvState where
  c := (dataChain (e.ctx s.c)).c
  segs := s.segs ++ [{ seq := e.ev.seqNum, len := e.ev.dataLen }]
  acks := s.acks ++ queuedAcks e.env.ring (dataChain (e.ctx s.c)).ring

/-- **Only carried bytes are acknowledged**, by `rx_next_seq` and by every ACK queued so far. -/
structure AckedSafe (s : RecvState) : Prop where
  next : CarriedUpTo s.segs s.c.recvInitSeq s.c.rxNextSeq
  acks : ∀ a ∈ s.acks, CarriedUpTo s.segs s.c.recvInitSeq a

/-- The segment is empty, or contains the next expected byte and does not start at a later one of
    the window. -/
def SegInOrder (s : RecvState) (e : SegEvent) : Prop :=
  e.ev.dataLen = 0#32 ∨ Covers s.c e.ev.seqNum e.ev.dataLen
deriving Decidable

/-! ## The receiving side -/

structure RxSide where
  next : U32
  avail : U32
  oooLen : U32
  initSeq : U32

def BpfTcpConn.rxSide (c : BpfTcpConn) : RxSide where
  next := c.rxNextSeq
  avail := c.rxAvail
  oooLen := c.rxOooLen
  initSeq := c.recvInitSeq

def RxSide.accept (r : RxSide) (n : U32) : RxSide :=
  { r with next := r.next + n, avail := r.avail - n }

@[simp] theorem RxSide.accept_zero (r : RxSide) : r.accept 0#32 = r := by
  simp [RxSide.accept]

/-! ## Effects of the processors on the receiving side -/

section

variable {x : NetCtx}

theorem verifyTrimDataEp_dataLen_of_empty (h : x.ev.dataLen = 0#32) :
    (verifyTrimDataEp x).ev.dataLen = 0#32 := by
  unfold verifyTrimDataEp
  split
  · exact h
  · dsimp only
    split_ifs with hle
    · rw [h] at hle ⊢
      bv_omega
    · exact h

theorem verifyTrimDataEp_of_covers (h : Covers x.c x.ev.seqNum x.ev.dataLen) :
    (verifyTrimDataEp x).ev.seqNum = x.c.rxNextSeq ∧ (verifyTrimDataEp x).ev.dataLen.toNat ≤
        x.ev.dataLen.toNat - ahead x.ev.seqNum x.c.rxNextSeq := by
  obtain ⟨hle, hrest⟩ := trims_of_covers h
  rw [rxseqTrimStart_of_covers h] at hle hrest
  unfold verifyTrimDataEp
  simp only [tcpValidRxseqOoo_of_covers h, if_pos hle]
  refine ⟨?_, hrest⟩
  rw [BitVec.add_comm, BitVec.sub_add_cancel]

theorem detectOooDataEp_accepted (h : x.ev.dataLen = 0#32 ∨ Covers x.c x.ev.seqNum x.ev.dataLen) :
    (detectOooDataEp (verifyTrimDataEp x)).c = x.c ∧
      (detectOooDataEp (verifyTrimDataEp x)).ev = (verifyTrimDataEp x).ev ∧
      (detectOooDataEp (verifyTrimDataEp x)).md = (verifyTrimDataEp x).md := by
  rcases h with hempty | hcov
  · have hlen := verifyTrimDataEp_dataLen_of_empty hempty
    unfold detectOooDataEp
    split_ifs <;> exact ⟨verifyTrimDataEp_c x, rfl, rfl⟩
  · have hseq := (verifyTrimDataEp_of_covers hcov).1
    unfold detectOooDataEp
    rw [if_pos (hseq.trans (congrArg BpfTcpConn.rxNextSeq (verifyTrimDataEp_c x)).symm), ite_self]
    exact ⟨verifyTrimDataEp_c x, rfl, rfl⟩

theorem flushOooDataEp_rxSide (hooo : x.c.rxOooLen = 0#32) :
    (flushOooDataEp x).c.rxSide = x.c.rxSide.accept x.ev.dataLen := by
  rw [flushOooDataEp_eq]
  by_cases hlen : x.ev.dataLen = 0#32
  · rw [if_neg (not_not_intro hlen), hlen, RxSide.accept_zero]
    rfl
  · rw [if_pos hlen, if_neg (not_not_intro hooo)]
    rfl

theorem sendAck_dataNet_rxSide (y : NetCtx) : (sendAck (dataNetEp y)).c.rxSide = y.c.rxSide := by
  rcases sendAck_c (dataNetEp y) with h | h
  · rw [h, dataNetEp_c]
  · rw [h, dataNetEp_c]
    rfl

theorem dataChain_rxSide_trimmed (hooo : x.c.rxOooLen = 0#32)
    (h : x.ev.dataLen = 0#32 ∨ Covers x.c x.ev.seqNum x.ev.dataLen) :
    (dataChain x).c.rxSide = x.c.rxSide.accept (verifyTrimDataEp x).ev.dataLen := by
  obtain ⟨hc, hev, -⟩ := detectOooDataEp_accepted h
  unfold dataChain
  rw [sendAck_dataNet_rxSide, flushOooDataEp_rxSide (by rw [hc]; exact hooo), hc, hev]

theorem carries_of_trimmed (h : x.ev.dataLen = 0#32 ∨ Covers x.c x.ev.seqNum x.ev.dataLen)
    {y : U32} (hy : ahead x.c.rxNextSeq y < (verifyTrimDataEp x).ev.dataLen.toNat) :
    ({ seq := x.ev.seqNum, len := x.ev.dataLen } : Segment).Carries y := by
  rcases h with hempty | hcov
  · rw [verifyTrimDataEp_dataLen_of_empty hempty] at hy
    exact absurd hy (Nat.not_lt_zero _)
  · -- the accepted bytes lie between the next expected byte and the end of the segment
    have hlen := (verifyTrimDataEp_of_covers hcov).2
    have hsplit := ahead_trans x.ev.seqNum x.c.rxNextSeq y
    change ahead x.ev.seqNum y < x.ev.dataLen.toNat
    omega

end

/-! ## Queued ACKs -/

section

variable (x : NetCtx)

theorem eq_rxNextSeq_of_queued {a : U32} (ha : a ∈ queuedAcks x.ring (sendAck x).ring) :
    a = x.c.rxNextSeq := by
  unfold queuedAcks sendAck at ha
  by_cases htrig : x.io.triggerAck = true
  · simp only [htrig, if_true] at ha
    by_cases hfull : x.ring.cons = ringNext x.ring.prod
    · -- a full queue takes no entry
      simp [hfull] at ha
    · by_cases hprod : x.ring.prod < napiBatchSize
      · simp only [mtpPktGenForXdpGen, hfull, if_false, AckRing.lookup, hprod, if_true,
          AckRing.write, or_false] at ha
        split_ifs at ha
        · cases ha
        · simpa [ackEntry, ackBp] using ha
      · -- the map lookup fails
        simp [mtpPktGenForXdpGen, hfull, AckRing.lookup, hprod] at ha
  · simp [htrig] at ha

theorem eq_rxNextSeq_of_dataChain {a : U32} (ha : a ∈ queuedAcks x.ring (dataChain x).ring) :
    a = (dataChain x).c.rxNextSeq := by
  let y := dataNetEp (flushOooDataEp (detectOooDataEp (verifyTrimDataEp x)))
  have hring : y.ring = x.ring := congrArg Prod.snd (shared_before_sendAck x)
  rw [← hring] at ha
  have heq : a = y.c.rxNextSeq := eq_rxNextSeq_of_queued y ha
  have htail := congrArg RxSide.next
    (sendAck_dataNet_rxSide (flushOooDataEp (detectOooDataEp (verifyTrimDataEp x))))
  rw [heq]
  simp only [y, dataNetEp_c]
  exact htail.symm

end

/-! ## One segment, and runs -/

structure RecvInv (s : RecvState) : Prop extends AckedSafe s where
  ooo : s.c.rxOooLen = 0#32

theorem recvStep_inv (s : RecvState) (e : SegEvent) (h : RecvInv s) (hok : SegInOrder s e) :
    RecvInv (recvStep s e) := by
  -- the chain moves `rx_next_seq` over bytes that the segment carries
  generalize hn : (verifyTrimDataEp (e.ctx s.c)).ev.dataLen = n
  have hside : (recvStep s e).c.rxSide = s.c.rxSide.accept n :=
    hn ▸ dataChain_rxSide_trimmed (x := e.ctx s.c) h.ooo hok
  have hcar : ∀ y, ahead s.c.rxNextSeq y < n.toNat →
      ({ seq := e.ev.seqNum, len := e.ev.dataLen } : Segment).Carries y :=
    fun y hy => carries_of_trimmed (x := e.ctx s.c) hok (hn.symm ▸ hy)
  have hkeep : CarriedUpTo (recvStep s e).segs s.c.recvInitSeq s.c.rxNextSeq := h.next.append
  have hnew : CarriedUpTo (recvStep s e).segs s.c.recvInitSeq (s.c.rxNextSeq + n) :=
    hkeep.extend (mem_append_right _ mem_cons_self) hcar
  have hinit' : (recvStep s e).c.recvInitSeq = s.c.recvInitSeq := congrArg RxSide.initSeq hside
  have hnext' : (recvStep s e).c.rxNextSeq = s.c.rxNextSeq + n := congrArg RxSide.next hside
  refine ⟨⟨?_, ?_⟩, (congrArg RxSide.oooLen hside).trans h.ooo⟩
  · rw [hinit', hnext']
    exact hnew
  · intro a ha
    rw [hinit']
    rcases mem_append.mp ha with hold | hqueued
    · exact (h.acks a hold).append
    · -- the ACK of this segment has the new `rx_next_seq`
      have heq : a = (recvStep s e).c.rxNextSeq := eq_rxNextSeq_of_dataChain (e.ctx s.c) hqueued
      rw [heq, hnext']
      exact hnew

/-- **Cumulative-ACK safety, over runs** whose segments are empty or contain the next expected byte.
    -/
theorem ackedSafe_always (c : BpfTcpConn) (hnext : c.rxNextSeq = c.recvInitSeq)
    (hooo : c.rxOooLen = 0#32) (es : List SegEvent)
    (hok : Meets recvStep SegInOrder { c := c, segs := [], acks := [] } es) :
    Always recvStep AckedSafe { c := c, segs := [], acks := [] } es := by
  have hfresh : RecvInv { c := c, segs := [], acks := [] } := by
    refine ⟨⟨?_, ?_⟩, hooo⟩
    · -- nothing is below `rx_next_seq` yet
      intro x hx
      rw [hnext, ahead_self] at hx
      exact absurd hx (Nat.not_lt_zero _)
    · intro a ha
      cases ha
  exact (always_of_meets recvStep_inv hfresh hok).mono fun _ h => h.toAckedSafe

def freshRx : BpfTcpConn := { (default : BpfTcpConn) with rxAvail := 1000 }

def segAt (seq len : U32) : SegEvent :=
  { (default : SegEvent) with ev := { (default : NetEvent) with seqNum := seq, dataLen := len } }

theorem ackedSafe_always_at :
    Always recvStep AckedSafe { c := freshRx, segs := [], acks := [] }
      [segAt 0 100, segAt 50 100] :=
  ackedSafe_always freshRx rfl rfl _ (by decide)

/-- One out-of-order segment, bytes 100 to 149: `rx_next_seq` becomes 50 although byte 0 was not
    received. -/
theorem ackedSafe_fails :
    ¬ Always recvStep AckedSafe { c := freshRx, segs := [], acks := [] } [segAt 100 50] := by
  intro h
  obtain ⟨g, hg, hcar⟩ := h.2.next 0#32 (by decide)
  have hseg : g = { seq := 100, len := 50 } := by simpa [recvStep, segAt] using hg
  rw [hseg] at hcar
  exact absurd hcar (by unfold Segment.Carries; decide)

/-! ## Both ends -/

def transferStep (s : Flow × RecvState) : FlowEvent ⊕ SegEvent → Flow × RecvState
  | .inl e => (flowStep s.1 e, s.2)
  | .inr e => (s.1, recvStep s.2 e)

/-- The network may lose, delay, repeat and reorder ACKs; it does not invent any. -/
def TransferOk (s : Flow × RecvState) : FlowEvent ⊕ SegEvent → Prop
  | .inl e => ∀ ev env, e = .ack ev env → ev.ackSeq ∈ s.2.acks
  | .inr e => SegInOrder s.2 e

def FreedCarried (s : Flow × RecvState) : Prop :=
  CarriedUpTo s.2.segs s.2.c.recvInitSeq s.1.c.sendUna

theorem carriedUpTo_self (segs : List Segment) (a : U32) : CarriedUpTo segs a a := by
  intro x hx
  rw [ahead_self] at hx
  cases hx

theorem goBackConn_sendUna (c : BpfTcpConn) : (goBackConn c).sendUna = c.sendUna := by
  unfold goBackConn
  split <;> rfl

theorem sendUna_flowStep (f : Flow) (e : FlowEvent) : (flowStep f e).c.sendUna = f.c.sendUna ∨
    ∃ ev env, e = .ack ev env ∧ (flowStep f e).c.sendUna = ev.ackSeq := by
  cases e with
  | send n env => simp [flowStep, sendEp_c, advanceBuf, Flow.egress]
  | ack ev env =>
    have h := ackOutcome (f.net ev env)
    rw [show (flowStep f (.ack ev env)).c = (ackChain (f.net ev env)).c from rfl]
    generalize (ackChain (f.net ev env)).c = c at h
    cases h with
    -- also a rejected ACK can move `send_una`
    | stray | advanced => exact .inr ⟨ev, env, rfl, rfl⟩
    | stale | third => exact .inl (goBackConn_sendUna _)
    | _ => exact .inl rfl
  | data ev env => exact .inl (congrArg TxPart.sendUna (dataChain_txPart _))
  | timeout env =>
    left
    by_cases hidle : f.c.txNextSeq = f.c.sendUna
    · exact congrArg _ (ackTimeoutXdpEp_c_of_idle hidle)
    · exact (congrArg _ (ackTimeoutXdpEp_c_of_outstanding hidle)).trans (goBackConn_sendUna _)

/-- **The sender only frees what the receiver has**: every byte below `send_una` was carried by a
    segment, for any order of the events of both sides. -/
theorem freedCarried_always {f : Flow} {c : BpfTcpConn} (hnext : c.rxNextSeq = c.recvInitSeq)
    (hooo : c.rxOooLen = 0#32) (huna : f.c.sendUna = c.recvInitSeq)
    {es : List (FlowEvent ⊕ SegEvent)} (hok : Meets transferStep TransferOk (f, ⟨c, [], []⟩) es) :
    Always transferStep FreedCarried (f, ⟨c, [], []⟩) es := by
  have hstep (s) (e : FlowEvent ⊕ SegEvent) (h : RecvInv s.2 ∧ FreedCarried s)
      (hok : TransferOk s e) : RecvInv (transferStep s e).2 ∧ FreedCarried (transferStep s e) := by
    obtain ⟨hr, hf⟩ := h
    cases e with
    | inl e =>
      refine ⟨hr, ?_⟩
      rw [FreedCarried, transferStep]
      -- `send_una` only moves to a number that the receiver has queued
      rcases sendUna_flowStep s.1 e with hsame | ⟨ev, env, rfl, hack⟩
      · rwa [hsame]
      · rw [hack]
        exact hr.acks _ (hok ev env rfl)
    | inr e =>
      have hinit : (recvStep s.2 e).c.recvInitSeq = s.2.c.recvInitSeq :=
        congrArg RxSide.initSeq (dataChain_rxSide_trimmed (x := e.ctx s.2.c) hr.ooo hok)
      refine ⟨recvStep_inv s.2 e hr hok, ?_⟩
      rw [FreedCarried, transferStep, hinit]
      exact hf.append
  have hfresh : RecvInv ⟨c, [], []⟩ := ⟨⟨hnext ▸ carriedUpTo_self [] _, by simp⟩, hooo⟩
  have hnone : FreedCarried (f, ⟨c, [], []⟩) := by
    rw [FreedCarried, huna]
    exact carriedUpTo_self [] _
  exact (always_of_meets hstep ⟨hfresh, hnone⟩ hok).mono fun _ h => h.2

theorem freedCarried_acked :
    let s : Flow × RecvState := (⟨{ freshRx with txBufSize := 1000 }, default⟩, ⟨freshRx, [], []⟩)
    let es := [.inl (.send 100 default), .inr (segAt 0 100),
      .inl (.ack { (default : NetEvent) with ackSeq := 100 } default)]
    (run transferStep s es).1.c.sendUna = 100#32 ∧ Always transferStep FreedCarried s es := by
  refine ⟨rfl, freedCarried_always rfl rfl rfl ⟨nofun, ?_, ?_, trivial⟩⟩
  · exact (by decide : SegInOrder ⟨freshRx, [], []⟩ (segAt 0 100))
  · rintro ev env ⟨⟩
    decide

end MtpXdp.Ebpf

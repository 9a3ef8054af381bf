import MtpXdp.Ebpf.SenderEffects

/-!
# Round-Trip Samples

`ack_net_ep` takes the time since the echoed timestamp and subtracts the time the acknowledged bytes
spend on the link, computed in 32 bits: from 4295 bytes on the product wraps, and the sample comes
out too large. A negative sample wraps to a value above `TCP_MAX_RTT`, which is ignored.
-/

namespace MtpXdp.Ebpf

open MtpXdp.Core BitVec

/-! ## Samples over the integers -/

/-- The age of the echoed timestamp in microseconds, without the time of the bytes on the link. -/
def exactSample (ktime : U64) (tsEcr n : U32) : Int :=
  ((ktime.toNat : Int) - tsEcr.toNat) % 2 ^ 32 / 1000 -
    (n.toNat : Int) * 1000000 / linkBandwidth.toNat

def rttSpec (rttEst : Nat) (sample : Int) : Int :=
  if sample < 0 ∨ (tcpMaxRtt.toNat : Int) ≤ sample then rttEst
  else if rttEst = 0 then sample
  else (7 * rttEst + sample) / 8

def ackedBytes (c : BpfTcpConn) (ev : NetEvent) : U32 := ev.ackSeq - c.sendUna

/-- The ACK is accepted, echoes a timestamp, and acknowledges a byte or more, as the largest window
    allows. -/
def Sampled (c : BpfTcpConn) (ev : NetEvent) : Prop :=
  AckAccepted c ev.ackSeq ∧ ev.tsEcr ≠ 0#32 ∧ 1 ≤ (ackedBytes c ev).toNat ∧
    (ackedBytes c ev).toNat ≤ 0xFFFF * 8
deriving Decidable

structure RttExact (f : Flow) (ev : NetEvent) (env : NetEnv) : Prop where
  sample : rttSample env.ktime ev.tsEcr (ackedBytes f.c ev) =
    BitVec.ofInt 32 (exactSample env.ktime ev.tsEcr (ackedBytes f.c ev))
  estimate : ((flowStep f (.ack ev env)).cc.rttEst.toNat : Int) =
    rttSpec f.cc.rttEst.toNat (exactSample env.ktime ev.tsEcr (ackedBytes f.c ev))

/-- **The estimate stays below `TCP_MAX_RTT`, and a sampled ACK is sampled exactly.** -/
def RttStepOk (f : Flow) (e : FlowEvent) : Prop :=
  (flowStep f e).cc.rttEst < tcpMaxRtt ∧
    ∀ ev env, e = .ack ev env → Sampled f.c ev → RttExact f ev env

def SmallSample (f : Flow) : FlowEvent → Prop
  | .ack ev _ => Sampled f.c ev → (ackedBytes f.c ev).toNat ≤ 4294
  | _ => True

instance (f : Flow) : (e : FlowEvent) → Decidable (SmallSample f e)
  | .ack .. => inferInstanceAs (Decidable (_ → _))
  | .send .. | .data .. | .timeout _ => .isTrue trivial

/-! ## The machine's sample -/

theorem rttSample_eq_ofInt (ktime : U64) (tsEcr n : U32) : rttSample ktime tsEcr n = BitVec.ofInt 32
      (((ktime.toNat : Int) - tsEcr.toNat) % 2 ^ 32 / 1000 -
        ((n.toNat * 1000000 % 2 ^ 32 / 3125000000 : Nat) : Int)) := by
  have hband : linkBandwidth.toNat = 3125000000 := rfl
  have hlink : (((n * 1000000#32).setWidth 64 / linkBandwidth).setWidth 32).toNat =
      n.toNat * 1000000 % 2 ^ 32 / 3125000000 := by
    rw [toNat_setWidth, toNat_udiv, hband, toNat_setWidth, toNat_mul, toNat_ofNat]
    generalize n.toNat * (1000000 % 2 ^ 32) = product
    omega
  have hage : ((ktime.setWidth 32 - tsEcr) / 1000#32).toNat =
      (2 ^ 32 - tsEcr.toNat + ktime.toNat % 2 ^ 32) % 2 ^ 32 / 1000 := by
    rw [toNat_udiv, toNat_sub, toNat_setWidth, toNat_ofNat]
  -- both sides are now arithmetic modulo `2 ^ 32`, over the same two terms
  apply eq_of_toNat_eq
  rw [rttSample, toNat_sub, hlink, hage, toNat_ofInt]
  omega

theorem linkTime_eq_iff {n : Nat} (hn : n ≤ 0xFFFF * 8) :
    n * 1000000 % 2 ^ 32 / 3125000000 = n * 1000000 / 3125000000 ↔ n ≤ 4294 := by
  constructor
  · intro heq
    by_contra hlarge
    rcases Nat.lt_or_ge n 6250 with hsmall | hbig
    · -- the first wrap takes away the one microsecond that is due
      have hmod : n * 1000000 % 2 ^ 32 = n * 1000000 - 2 ^ 32 := by omega
      omega
    · omega
  · intro hsmall
    rw [Nat.mod_eq_of_lt (by omega)]

theorem rttSample_eq_iff (ktime : U64) (tsEcr : U32) {n : U32} (hn : n.toNat ≤ 0xFFFF * 8) :
    rttSample ktime tsEcr n = BitVec.ofInt 32 (exactSample ktime tsEcr n) ↔ n.toNat ≤ 4294 := by
  have hband : linkBandwidth.toNat = 3125000000 := rfl
  have hdue : ((n.toNat : Int) * 1000000 / (3125000000 : Nat)) =
      ((n.toNat * 1000000 / 3125000000 : Nat) : Int) := by omega
  rw [← linkTime_eq_iff hn, rttSample_eq_ofInt, exactSample, ← toNat_inj,
    toNat_ofInt, toNat_ofInt, hband, hdue]
  have hlt' : n.toNat * 1000000 / 3125000000 < 168 := by omega
  omega

/-! ## The estimate -/

theorem toNat_smoothed {rttEst rtt : U32} (h : rttEst < tcpMaxRtt) (hrtt : rtt < tcpMaxRtt) :
    ((rttEst * 7#32 + rtt) / 8#32).toNat = (rttEst.toNat * 7 + rtt.toNat) / 8 := by
  have h' : rttEst.toNat < 100000 := h
  have hrtt' : rtt.toNat < 100000 := hrtt
  have hmul : (rttEst * 7#32).toNat = rttEst.toNat * 7 := by
    exact Nat.mod_eq_of_lt (by simp only [toNat_ofNat, Nat.reducePow, Nat.reduceMod]; omega)
  rw [toNat_udiv, toNat_add, hmul, Nat.mod_eq_of_lt (by omega)]
  rfl

theorem rttUpdate_lt {rttEst : U32} (h : rttEst < tcpMaxRtt) (rtt : U32) :
    rttUpdate rttEst rtt < tcpMaxRtt := by
  unfold rttUpdate
  split_ifs with hrtt
  · rw [lt_def, toNat_smoothed h hrtt]
    rw [lt_def] at h hrtt
    omega
  · exact hrtt
  · exact h

theorem rttUpdate_spec {rttEst : U32} (h : rttEst < tcpMaxRtt) {sample : Int}
    (hlo : -168 ≤ sample) (hhi : sample < 2 ^ 32) :
    ((rttUpdate rttEst (BitVec.ofInt 32 sample)).toNat : Int) = rttSpec rttEst.toNat sample := by
  have hmax : tcpMaxRtt.toNat = 100000 := rfl
  have hval : ((BitVec.ofInt 32 sample).toNat : Int) = sample % 2 ^ 32 := by
    rw [toNat_ofInt]
    omega
  have hlt : BitVec.ofInt 32 sample < tcpMaxRtt ↔ 0 ≤ sample ∧ sample < 100000 := by
    rw [lt_def, hmax]
    omega
  unfold rttUpdate rttSpec
  rw [hmax]
  by_cases hkept : 0 ≤ sample ∧ sample < 100000
  · have hexact : ((BitVec.ofInt 32 sample).toNat : Int) = sample := by omega
    have hin : ¬ (sample < 0 ∨ ((100000 : Nat) : Int) ≤ sample) := by omega
    rw [if_pos (hlt.mpr hkept), if_neg hin]
    by_cases hzero : rttEst = 0#32
    · rw [if_neg (not_not_intro hzero), if_pos (by rw [hzero]; rfl), hexact]
    · have hnat : rttEst.toNat ≠ 0 := fun h0 => hzero (eq_of_toNat_eq h0)
      rw [if_pos hzero, if_neg hnat, toNat_smoothed h (hlt.mpr hkept)]
      omega
  · have hout : sample < 0 ∨ ((100000 : Nat) : Int) ≤ sample := by omega
    rw [if_neg (mt hlt.mp hkept), if_pos hout]

/-! ## One event -/

section

variable {f : Flow}

theorem ackChain_rttEst_of_same {x : NetCtx} (hack : x.ev.ackSeq = x.c.sendUna) :
    (ackChain x).cc.rttEst = x.cc.rttEst := by
  have hacc : AckAccepted x.c x.ev.ackSeq := hack ▸ ackAccepted_sendUna x.c
  have hfast : (fastRetrRecEp x).cc.rttEst = x.cc.rttEst := by
    rw [fastRetrRecEp_cc_of_accepted hacc]
    split_ifs <;> rfl
  rw [ackChain]
  by_cases hdup : (fastRetrRecEp x).c.rxDupackCnt = 3#16
  · rw [ackNetEp_cc_of_third hdup, hfast]
  · have hnum : (fastRetrRecEp x).io.numAckedBytes = 0#32 := by
      rw [fastRetrRecEp_numAcked_of_accepted hacc, hack, BitVec.sub_self]
    rw [ackNetEp_cc_of_accepted hdup (fastRetrRecEp_drop_of_accepted hacc),
      if_neg fun h => h.2 hnum, hfast]

theorem rttEst_lt_step (h : f.cc.rttEst < tcpMaxRtt) (e : FlowEvent) :
    (flowStep f e).cc.rttEst < tcpMaxRtt := by
  cases e with
  | send dataSize env =>
    exact h
  | data ev env =>
    simp only [flowStep, dataChain_cc]
    exact h
  | timeout env =>
    simp only [flowStep]
    by_cases hidle : f.c.txNextSeq = f.c.sendUna
    · rw [ackTimeoutXdpEp_cc_of_idle hidle]
      exact h
    · rw [ackTimeoutXdpEp_cc_of_outstanding hidle]
      exact h
  | ack ev env =>
    simp only [flowStep]
    by_cases hacc : AckAccepted f.c ev.ackSeq
    · by_cases hack : ev.ackSeq = f.c.sendUna
      · rw [ackChain_rttEst_of_same (x := f.net ev env) hack]
        exact h
      · -- only here a sample may be taken
        rw [ackChain_cc_of_news (x := f.net ev env) hacc hack, sampledCc]
        split_ifs
        · exact rttUpdate_lt h _
        · exact h
    · rw [ackChain_cc_of_rejected (x := f.net ev env) hacc]
      exact h

theorem rttEst_of_sampled {ev : NetEvent} (env : NetEnv) (hs : Sampled f.c ev) :
    (flowStep f (.ack ev env)).cc.rttEst =
      rttUpdate f.cc.rttEst (rttSample env.ktime ev.tsEcr (ackedBytes f.c ev)) := by
  obtain ⟨hacc, hecr, hpos, -⟩ := hs
  have hnew : ev.ackSeq ≠ f.c.sendUna := by
    intro heq
    rw [ackedBytes, heq, sub_self] at hpos
    exact absurd hpos (by decide)
  have hecr' : (f.net ev env).ev.tsEcr ≠ 0#32 := hecr
  simp only [flowStep]
  rw [ackChain_cc_of_news (x := f.net ev env) hacc hnew, sampledCc, if_pos hecr']
  rfl

theorem exactSample_bounds (ktime : U64) (tsEcr : U32) {n : U32} (hn : n.toNat ≤ 0xFFFF * 8) :
    -168 ≤ exactSample ktime tsEcr n ∧ exactSample ktime tsEcr n < 2 ^ 32 := by
  have hband : linkBandwidth.toNat = 3125000000 := rfl
  rw [exactSample, hband]
  omega

theorem rttExact_iff (h : f.cc.rttEst < tcpMaxRtt) {ev : NetEvent} (env : NetEnv)
    (hs : Sampled f.c ev) : RttExact f ev env ↔ (ackedBytes f.c ev).toNat ≤ 4294 := by
  have hn := hs.2.2.2
  rw [← rttSample_eq_iff env.ktime ev.tsEcr hn]
  constructor
  · intro hexact
    exact hexact.sample
  · intro hsample
    refine ⟨hsample, ?_⟩
    obtain ⟨hlo, hhi⟩ := exactSample_bounds env.ktime ev.tsEcr hn
    rw [rttEst_of_sampled env hs, hsample]
    exact rttUpdate_spec h hlo hhi

theorem rttStepOk_iff (h : f.cc.rttEst < tcpMaxRtt) (e : FlowEvent) :
    RttStepOk f e ↔ SmallSample f e := by
  constructor
  · intro hok
    cases e with
    | ack ev env => exact fun hs => (rttExact_iff h env hs).mp (hok.2 ev env rfl hs)
    | send dataSize env => trivial
    | data ev env => trivial
    | timeout env => trivial
  · intro hsmall
    refine ⟨rttEst_lt_step h e, ?_⟩
    rintro ev env rfl hs
    exact (rttExact_iff h env hs).mpr (hsmall hs)

end

/-! ## Runs -/

/-- **The estimate stays below `TCP_MAX_RTT`, and samples are exact iff every sampled ACK
    acknowledges at most 4294 bytes.** -/
theorem rtt_exact_iff {f : Flow} (h : f.cc.rttEst < tcpMaxRtt) (es : List FlowEvent) :
    Always flowStep (fun f => f.cc.rttEst < tcpMaxRtt) f es ∧
      (Meets flowStep RttStepOk f es ↔ Meets flowStep SmallSample f es) := by
  constructor
  · exact always_of_meets (fun _ e h _ => rttEst_lt_step h e) h meets_true
  · exact meets_iff_of_inv (fun _ e h _ => rttEst_lt_step h e) (fun _ e h => rttStepOk_iff h e) h

def echoingAck (ack : U32) : FlowEvent :=
  .ack { (default : NetEvent) with ackSeq := ack, tsEcr := 1#32 }
    { (default : NetEnv) with ktime := 20001#64 }

theorem rtt_exact_segment :
    Meets flowStep RttStepOk default [.send 1448#32 default, echoingAck 1448#32] :=
  (rtt_exact_iff (by decide) _).2.mpr (by decide)

/-- Five thousand bytes are acknowledged at once: the sample is 20 microseconds and not 19. -/
theorem rtt_inexact_batch :
    ¬ Meets flowStep RttStepOk default [.send 5000#32 default, echoingAck 5000#32] := by
  rintro ⟨-, ⟨-, hexact⟩, -⟩
  exact absurd (hexact _ _ rfl (by decide)).sample (by decide)

end MtpXdp.Ebpf

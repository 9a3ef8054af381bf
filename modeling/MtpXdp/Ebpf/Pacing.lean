import MtpXdp.Ebpf.SenderEffects

/-!
# Pacing

A packet departs no earlier than the previous one, later by the time its payload takes at the
connection's rate. `tcp_tx_process` charges the packet for that time, and `send_ep` once more,
against a reference time that has lost its upper half.
-/

namespace MtpXdp.Ebpf

open MtpXdp.Core BitVec

/-! ## Data packets -/

/-- A data packet with room for its timestamp option, the CPU that sends it, and the rate set by
    then. -/
structure PacedPacket where
  rate : U32
  env : TxEnv
  len : U32
  rxBump : U32
  pkt : Pkt
  ts : TsOpt
deriving Inhabited

namespace PacedPacket

def flow (e : PacedPacket) (f : Flow) : Flow := { f with cc := { f.cc with rate := e.rate } }

def txMeta (e : PacedPacket) (f : Flow) : TxMeta where
  slowpath := 0#64
  flag := 0#64
  rxBump := e.rxBump
  txPending := 0#32
  txPos := f.c.txNextPos
  plen := e.len

def egress (e : PacedPacket) (f : Flow) : TxResult :=
  xdpEgressProg (e.flow f) e.env (e.txMeta f) { e.pkt with ts := some e.ts }

def wheelTs (e : PacedPacket) (f : Flow) : U64 :=
  (ccGetDesiredTxTs (e.flow f).cc e.env.refTs e.len).1

def charge (e : PacedPacket) : Nat := 1000000000 * e.len.toNat / e.rate.toNat

def due (e : PacedPacket) (f : Flow) : Nat :=
  max e.env.refTs.toNat (f.cc.prevDesiredTxTs.toNat + e.charge)

end PacedPacket

def pacedStep (f : Flow) (e : PacedPacket) : Flow := (e.egress f).flow

/-- **The packet is charged once**: in the latest departure, its time in the wheel and its
    timestamp. -/
structure Paced (f : Flow) (e : PacedPacket) : Prop where
  prev : (pacedStep f e).cc.prevDesiredTxTs.toNat = e.due f
  wheel : (e.wheelTs f).toNat = e.due f
  tsVal : (e.egress f).pkt.ts.map (fun t => (bpfNtohl t.tsVal).toNat) = some (e.due f % 2 ^ 32)

/-! ## One charge -/

theorem charge_lt (e : PacedPacket) : e.charge < 2 ^ 63 := by
  calc e.charge ≤ 1000000000 * e.len.toNat := Nat.div_le_self _ _
    _ < 2 ^ 63 := by omega

theorem toNat_desiredTxTs (cc : BpfCc) (ref : U64) (e : PacedPacket) (hrate : cc.rate = e.rate) :
    (desiredTxTs cc ref e.len).toNat =
      max ref.toNat ((cc.prevDesiredTxTs.toNat + e.charge) % 2 ^ 64) := by
  have hdelta : (1000000000#64 * e.len.setWidth 64 / cc.rate.setWidth 64).toNat = e.charge := by
    have hmul : (1000000000#64 * e.len.setWidth 64).toNat = 1000000000 * e.len.toNat := by
      rw [toNat_mul, toNat_setWidth_of_le (by decide)]
      exact Nat.mod_eq_of_lt (by simp only [toNat_ofNat, Nat.reducePow, Nat.reduceMod]; omega)
    rw [toNat_udiv, hmul, toNat_setWidth_of_le (by decide), hrate, PacedPacket.charge]
  have hsum : (cc.prevDesiredTxTs +
      1000000000#64 * e.len.setWidth 64 / cc.rate.setWidth 64).toNat =
      (cc.prevDesiredTxTs.toNat + e.charge) % 2 ^ 64 := by
    rw [toNat_add, hdelta]
  unfold desiredTxTs
  dsimp only
  split_ifs with hle
  · rw [le_def, hsum] at hle
    exact (max_eq_left hle).symm
  · rw [le_def, hsum] at hle
    rw [hsum, max_eq_right (by omega)]

/-! ## The two charges of a packet -/

section

variable (f : Flow) (e : PacedPacket)

def PacedPacket.chargedTwice (e : PacedPacket) (f : Flow) : U64 :=
  desiredTxTs (ccGetDesiredTxTs (e.flow f).cc e.env.refTs e.len).2
    ((e.env.refTs.setWidth 32).setWidth 64) e.len

def PacedPacket.sendCtx (e : PacedPacket) (f : Flow) : EgressCtx where
  ev := { type := .appEvent, dataSize := e.len, timestamp := e.env.refTs.setWidth 32 }
  c := bumpRxAvail f.c e.rxBump
  md := (e.txMeta f).asRx
  cc := (ccGetDesiredTxTs (e.flow f).cc e.env.refTs e.len).2
  pkt := { e.pkt with ts := some e.ts }

theorem egress_sendEp : (e.egress f).flow.cc = (sendEp (e.sendCtx f)).cc ∧
    (e.egress f).pkt = (sendEp (e.sendCtx f)).pkt := by
  have hpos : (bumpRxAvail f.c e.rxBump).txNextPos = f.c.txNextPos := by
    unfold bumpRxAvail
    split_ifs <;> rfl
  simp [PacedPacket.egress, PacedPacket.txMeta, PacedPacket.flow, xdpEgressProg, parseReqToEvent,
    tcpTxProcess, txDispatch, hpos, PacedPacket.sendCtx]

theorem egress_charged : (pacedStep f e).cc.prevDesiredTxTs = e.chargedTwice f ∧
    ∃ ecr, (e.egress f).pkt.ts = some (tsOptOf ((e.chargedTwice f).setWidth 32) ecr) := by
  obtain ⟨hcc, hpkt⟩ := egress_sendEp f e
  constructor
  · rw [pacedStep, hcc, sendEp_cc]
    rfl
  · rw [hpkt]
    exact ⟨_, rfl⟩

theorem toNat_charges : (e.wheelTs f).toNat =
      max e.env.refTs.toNat ((f.cc.prevDesiredTxTs.toNat + e.charge) % 2 ^ 64) ∧
    (e.chargedTwice f).toNat =
      max (e.env.refTs.toNat % 2 ^ 32) (((e.wheelTs f).toNat + e.charge) % 2 ^ 64) := by
  constructor
  · exact toNat_desiredTxTs _ _ e rfl
  · rw [PacedPacket.chargedTwice, toNat_desiredTxTs _ _ e rfl, toNat_setWidth_of_le (by decide),
      toNat_setWidth]
    rfl

theorem paced_step_iff : Paced f e ↔ e.charge = 0 := by
  obtain ⟨hprev, ecr, hts⟩ := egress_charged f e
  obtain ⟨hwheel, htwice⟩ := toNat_charges f e
  have hcharge := charge_lt e
  have hlast := f.cc.prevDesiredTxTs.isLt
  constructor
  · intro h
    have hsame : (e.chargedTwice f).toNat = (e.wheelTs f).toNat := by
      rw [← hprev, h.prev, h.wheel]
    omega
  · intro hzero
    -- without a charge the second computation repeats the first
    have hdue : (e.wheelTs f).toNat = e.due f := by
      rw [hwheel, PacedPacket.due, hzero, Nat.add_zero, Nat.mod_eq_of_lt hlast]
    have hsame : (e.chargedTwice f).toNat = e.due f := by
      omega
    refine ⟨by rw [hprev, hsame], hdue, ?_⟩
    rw [hts, Option.map_some, ← hsame]
    simp [tsOptOf, bpfNtohl, bpfHtonl]

end

/-! ## Runs -/

/-- **Data packets are paced as they should be precisely when every packet costs less than a
    nanosecond.** -/
theorem paced_iff (f : Flow) (es : List PacedPacket) :
    Meets pacedStep Paced f es ↔ ∀ e ∈ es, e.charge = 0 := by
  induction es generalizing f with
  | nil => simp
  | cons e es ih =>
    rw [meets_cons, ih, List.forall_mem_cons, paced_step_iff]

def fullSegment : PacedPacket :=
  { (default : PacedPacket) with
    rate := 3125000000#32
    env := { refTs := 1000000#64, nrPktsInTw := 0#32 }
    len := 1448#32 }

/-- The segment is due at once; the second charge dates it 463 nanoseconds later. -/
theorem full_segment_charged_twice : 0 < fullSegment.rate.toNat ∧
    ¬ Meets pacedStep Paced default [fullSegment] := by
  refine ⟨by decide, ?_⟩
  rintro ⟨hpaced, -⟩
  exact absurd hpaced.prev (by decide)

end MtpXdp.Ebpf

import Mathlib.Algebra.BigOperators.Fin
import MtpXdp.Core.Run
import MtpXdp.Homa.Egress

/-!
# The Pacer

One RPC that sends: calls of `client_request` and `server_response` on any number of CPUs, the
callback that holds the pacer lock, and `grant_pkt`. Steps are the atomic operations and
lock-protected sections of the source; a plain read or write is part of the section next to it,
unless another party can come between the two.

`nr_pkts_in_rl` should be the number of packets in the RPC's queue or on the way there. A call
increments it before three steps that can fail, and none of the failing branches takes that back;
the callback subtracts only the packets it has sent; and the first packet of a response sets the
count to 0.
-/

namespace MtpXdp.Homa

open Ebpf (U8 U16 U32 U64)
def maxPktSend : Nat := 16

inductive TxPhase where
  | idle
  | ready (d : DataHeader)
  /-- `cc.granted` has been read. -/
  | credit (d : DataHeader) (granted : U64)
  | direct (d : DataHeader)
  | slow (d : DataHeader)
  /-- `nr_pkts_in_rl` is incremented. -/
  | counted (d : DataHeader)
  | allocated (d : DataHeader)
  | inserted (d : DataHeader)
  /-- `XDP_REDIRECT`, but the packet is not in the queue yet. -/
  | redirecting (d : DataHeader)
deriving DecidableEq

inductive PacerPhase where
  | idle
  | taken
  | loop (work nrTx : Nat)
  | inHand (d : DataHeader) (work nrTx : Nat)
  | allowed (d : DataHeader) (work nrTx : Nat)
  | refused (d : DataHeader) (nrTx : Nat)
  | closing (needEnqueue : Bool) (nrTx : Nat)
  | deciding (needEnqueue : Bool)
  | reinserting
deriving DecidableEq

inductive GrantPhase where
  | idle
  /-- `cc.granted` is raised. -/
  | raised
  | qidSeen
  /-- `GET_POINTER` has taken the pointer out of the map. -/
  | holding
  | added
deriving DecidableEq

/-- `check_nic_queue`, `allocate_qid`, whether objects are to be had, and whether the queue takes
    the packet. -/
structure TxChoice where
  nicFree : Bool
  qid : U64
  objOk : Bool
  redirectOk : Bool

/-- Whether `bpf_dynptr_from_xdp_frame` with its slice, and `bpf_packet_send`, succeed. -/
structure PacerChoice where
  frameOk : Bool
  sendOk : Bool

/-- Whether the RPC is in `rpc_tbl`, its queue, its node and the pointer to it, and the packets
    `handed` and `sent`. -/
structure PacedRpc where
  key : RpcKey
  known : Bool
  rpc : RpcState
  queue : List DataHeader
  inTree : Bool
  ccNode : Bool
  pacer : PacerPhase
  grant : GrantPhase
  handed : List DataHeader
  sent : List DataHeader

namespace PacedRpc

def start (s : PacedRpc) (r : RpcState) (d : DataHeader) : PacedRpc × TxPhase :=
  let s := { s with known := true, rpc := r }
  if d.singlePacket then ({ s with sent := s.sent ++ [d] }, .idle) else (s, .ready d)

def call (s : PacedRpc) (d : DataHeader) (bufferAddr : U64) (mapOk : Bool) : PacedRpc × TxPhase :=
  let s := { s with handed := s.handed ++ [d] }
  if d.seq = 0 then
    if rpcIsClient s.key.rpcid then
      if s.known = false ∧ mapOk = true then
        { s with ccNode := false }.start (newClientRpc s.key d bufferAddr) d
      else (s, .idle)
    else if s.known then s.start (startOutgoing s.rpc d bufferAddr) d
    else (s, .idle)
  else if s.known then (s, .ready d)
  else (s, .idle)

/-- It drops its packet, or goes on with the RPC as it is, or with one that the packet has set up.
    -/
inductive CallCase (s : PacedRpc) (d : DataHeader) (bufferAddr : U64) (mapOk : Bool) :
    PacedRpc × TxPhase → Prop
  | dropped (hknown : s.known = true → d.seq = 0 ∧ rpcIsClient s.key.rpcid = true)
      (hnew : s.known = false → d.seq = 0 → rpcIsClient s.key.rpcid = true → mapOk = false) :
      CallCase s d bufferAddr mapOk ({ s with handed := s.handed ++ [d] }, .idle)
  | later (hseq : d.seq ≠ 0) (hknown : s.known = true) :
      CallCase s d bufferAddr mapOk ({ s with handed := s.handed ++ [d] }, .ready d)
  | request (hseq : d.seq = 0) (hclient : rpcIsClient s.key.rpcid = true)
      (hknown : s.known = false) : CallCase s d bufferAddr mapOk
        ({ s with handed := s.handed ++ [d], ccNode := false }.start
          (newClientRpc s.key d bufferAddr) d)
  | response (hseq : d.seq = 0) (hserver : rpcIsClient s.key.rpcid = false)
      (hknown : s.known = true) : CallCase s d bufferAddr mapOk
        ({ s with handed := s.handed ++ [d] }.start (startOutgoing s.rpc d bufferAddr) d)

theorem call_cases (s : PacedRpc) (d : DataHeader) (bufferAddr : U64) (mapOk : Bool) :
    CallCase s d bufferAddr mapOk (s.call d bufferAddr mapOk) := by
  unfold call
  dsimp only
  split_ifs with hseq hclient hnew hknown hknown
  · exact .request hseq hclient hnew.1
  · refine .dropped (fun _ => ⟨hseq, hclient⟩) fun hfalse _ _ => ?_
    simpa [hfalse] using hnew
  · exact .response hseq (Bool.eq_false_iff.mpr hclient) hknown
  · exact .dropped (fun h => absurd h hknown) fun _ _ h => absurd h hclient
  · exact .later hseq hknown
  · exact .dropped (fun h => absurd h hknown) fun _ h => absurd h hseq

/-- A step of a call. The read of `qid` and the store of a new id are one step: two calls of the RPC
    that race between them are left out. -/
def txStep (s : PacedRpc) (env : TxChoice) : TxPhase → PacedRpc × TxPhase
  | .idle => (s, .idle)
  | .ready d => (s, .credit d s.rpc.cc.granted)
  | .credit d granted =>
    if maySend { s.rpc with cc := { s.rpc.cc with granted := granted } } d env.nicFree then
      (s, .direct d)
    else (s, .slow d)
  | .direct d =>
    ({ s with rpc := { s.rpc with nextXmitOffset := d.fin64 }, sent := s.sent ++ [d] }, .idle)
  | .slow d => ({ s with rpc := { s.rpc with nrPktsInRl := s.rpc.nrPktsInRl + 1 } }, .counted d)
  | .counted d =>
    if s.rpc.qid = maxBucketSize then
      ({ s with rpc := { s.rpc with qid := env.qid } },
        if env.qid = maxBucketSize then .idle else .allocated d)
    else (s, .redirecting d)
  | .allocated d => if env.objOk then ({ s with inTree := true }, .inserted d) else (s, .idle)
  | .inserted d => ({ s with ccNode := true }, .redirecting d)
  | .redirecting d =>
    (if env.redirectOk then { s with queue := s.queue ++ [d] } else s, .idle)

def completed (s : PacedRpc) : Prop := s.rpc.messageLength.setWidth 64 ≤ s.rpc.nextXmitOffset
deriving Decidable

def pacerStep (s : PacedRpc) (env : PacerChoice) : PacedRpc :=
  match s.pacer with
  | .idle => if s.inTree then { s with inTree := false, pacer := .taken } else s
  | .taken =>
    { s with
      pacer :=
        if s.known ∧ s.rpc.state = .outgoing ∧ s.rpc.qid ≠ maxBucketSize ∧ ¬ s.completed then
          .loop 0 0
        else .idle }
  | .loop work nrTx =>
    if work + 1 > maxPktSend - 1 then { s with pacer := .closing true nrTx }
    else
      match s.queue with
      | [] => { s with pacer := .closing true nrTx }
      | d :: rest =>
        { s with
          queue := rest
          pacer := if env.frameOk then .inHand d (work + 1) nrTx else .closing true nrTx }
  | .inHand d work nrTx =>
    { s with
      pacer := if s.rpc.cc.granted < d.fin64 then .refused d nrTx else .allowed d work nrTx }
  | .allowed d work nrTx =>
    if env.sendOk then
      { s with
        rpc := { s.rpc with nextXmitOffset := d.fin64 }
        sent := s.sent ++ [d]
        pacer := .loop work (nrTx + 1) }
    else { s with pacer := .closing true nrTx }
  | .refused d nrTx => { s with queue := d :: s.queue, pacer := .closing false nrTx }
  | .closing needEnqueue nrTx =>
    { s with
      rpc := { s.rpc with nrPktsInRl := s.rpc.nrPktsInRl - BitVec.ofNat 64 nrTx }
      pacer := .deciding needEnqueue }
  | .deciding needEnqueue =>
    { s with pacer := if needEnqueue ∧ ¬ s.completed then .reinserting else .idle }
  -- `bpf_rbtree_add` does nothing for a node that is in the tree
  | .reinserting => { s with inTree := true, pacer := .idle }

/-- `grant_pkt` up to the new credit. While the RPC sends, nobody else writes `cc.granted`. -/
def grantPkt (s : PacedRpc) (offset : U32) (priority : U8) : PacedRpc :=
  if s.grant = .idle ∧ s.known ∧ s.rpc.state = .outgoing then
    let cc := { s.rpc.cc with schedPrio := priority.setWidth 64 }
    if cc.granted < offset.setWidth 64 then
      { s with
        rpc := { s.rpc with cc := { cc with granted := offset.setWidth 64 } }
        grant := .raised }
    else { s with rpc := { s.rpc with cc := cc } }
  else s

def grantStep (s : PacedRpc) (refOk : Bool) : PacedRpc :=
  match s.grant with
  | .idle => s
  | .raised => { s with grant := if s.rpc.qid = maxBucketSize then .idle else .qidSeen }
  | .qidSeen =>
    if s.ccNode then { s with ccNode := false, grant := .holding } else { s with grant := .idle }
  | .holding =>
    if refOk then { s with inTree := true, grant := .added }
    else { s with ccNode := true, grant := .idle }
  | .added => { s with ccNode := true, grant := .idle }

/-! A first packet makes the RPC known, and nothing makes it unknown. -/

@[simp] theorem known_start (s : PacedRpc) (r : RpcState) (d : DataHeader) :
    (s.start r d).1.known = true := by
  unfold start
  split_ifs <;> rfl

@[simp] theorem known_txStep (s : PacedRpc) (env : TxChoice) (ph : TxPhase) :
    (s.txStep env ph).1.known = s.known := by
  cases ph <;> grind [txStep]

@[simp] theorem known_pacerStep (s : PacedRpc) (env : PacerChoice) :
    (s.pacerStep env).known = s.known := by
  unfold pacerStep
  grind

@[simp] theorem known_grantPkt (s : PacedRpc) (offset : U32) (priority : U8) :
    (s.grantPkt offset priority).known = s.known := by
  unfold grantPkt
  grind

@[simp] theorem known_grantStep (s : PacedRpc) (refOk : Bool) :
    (s.grantStep refOk).known = s.known := by
  unfold grantStep
  grind

end PacedRpc

structure Pacing (n : Nat) where
  shared : PacedRpc
  tx : Fin (n + 1) → TxPhase

inductive PacingEvent (n : Nat) where
  | call (c : Fin (n + 1)) (d : DataHeader) (bufferAddr : U64) (mapOk : Bool)
  | tx (c : Fin (n + 1)) (env : TxChoice)
  | pacer (env : PacerChoice)
  | grantPkt (offset : U32) (priority : U8)
  | grant (refOk : Bool)

variable {n : Nat}

def Pacing.put (s : Pacing n) (c : Fin (n + 1)) (p : PacedRpc × TxPhase) : Pacing n :=
  ⟨p.1, Function.update s.tx c p.2⟩

def pacingStep (s : Pacing n) : PacingEvent n → Pacing n
  | .call c d bufferAddr mapOk =>
    if s.tx c = .idle then s.put c (s.shared.call d bufferAddr mapOk) else s
  | .tx c env => s.put c (s.shared.txStep env (s.tx c))
  | .pacer env => { s with shared := s.shared.pacerStep env }
  | .grantPkt offset priority => { s with shared := s.shared.grantPkt offset priority }
  | .grant refOk => { s with shared := s.shared.grantStep refOk }

def NoFailure : PacingEvent n → Prop
  | .call _ _ _ mapOk => mapOk = true
  | .tx _ env => env.qid ≠ maxBucketSize ∧ env.objOk = true ∧ env.redirectOk = true
  | .pacer env => env.frameOk = true ∧ env.sendOk = true
  | .grantPkt .. => True
  | .grant refOk => refOk = true

def freshRequest (n : Nat) : Pacing n where
  shared :=
    { key := ⟨2, 7, 9, 1⟩
      known := false
      rpc := .zero
      queue := []
      inTree := false
      ccNode := false
      pacer := .idle
      grant := .idle
      handed := []
      sent := [] }
  tx _ := .idle

def packetAt (seq : U16) (offset : U32) : DataHeader :=
  { (default : DataHeader) with
    sport := 7
    dport := 9
    senderId := 2
    seq := seq
    messageLength := 3000
    segOffset := offset
    segmentLength := 1000 }

open MtpXdp.Core BitVec Finset PacedRpc

def TxPhase.waiting : TxPhase → Nat
  | .counted _ | .allocated _ | .inserted _ | .redirecting _ => 1
  | _ => 0

def PacerPhase.unaccounted : PacerPhase → Nat
  | .loop _ nrTx | .closing _ nrTx => nrTx
  | .inHand _ _ nrTx | .allowed _ _ nrTx | .refused _ nrTx => nrTx + 1
  | _ => 0

def PacedRpc.Balanced (s : PacedRpc) (x : Nat) : Prop :=
  s.rpc.nrPktsInRl = BitVec.ofNat 64 (s.queue.length + s.pacer.unaccounted + x)

/-- `nr_pkts_in_rl` counts the packets in the queue, on the way there, or in a running callback. -/
def Counted (s : Pacing n) : Prop := s.shared.Balanced (∑ c, (s.tx c).waiting)

/-! ## Steps that lose the count -/

def PacedRpc.CallKeeps (s : PacedRpc) (d : DataHeader) : Prop :=
  rpcIsClient s.key.rpcid = false → s.known = true → d.seq = 0 → s.rpc.nrPktsInRl = 0

/-- The step loses no packet that has been counted. -/
def PacedRpc.TxKeeps (s : PacedRpc) (env : TxChoice) : TxPhase → Prop
  | .counted _ => s.rpc.qid = maxBucketSize → env.qid ≠ maxBucketSize
  | .allocated _ => env.objOk = true
  | .redirecting _ => env.redirectOk = true
  | _ => True

def PacedRpc.PacerKeeps (s : PacedRpc) (env : PacerChoice) : Prop :=
  match s.pacer with
  | .loop work _ => work + 1 ≤ maxPktSend - 1 → s.queue ≠ [] → env.frameOk = true
  | .allowed .. => env.sendOk = true
  | _ => True

/-- No event loses a packet that is counted, or the count itself. -/
def NothingLost (s : Pacing n) : PacingEvent n → Prop
  | .call c d _ _ => s.tx c = .idle → s.shared.CallKeeps d
  | .tx c env => s.shared.TxKeeps env (s.tx c)
  | .pacer env => s.shared.PacerKeeps env
  | _ => True

/-! ## The count after a step -/

section

variable {s : PacedRpc} {x : Nat}

theorem balanced_iff : s.Balanced x ↔
    s.rpc.nrPktsInRl.toNat = (s.queue.length + s.pacer.unaccounted + x) % 2 ^ 64 := by
  rw [PacedRpc.Balanced, ← toNat_inj, toNat_ofNat]

theorem balanced_call (hs : s.Balanced x) (hnew : s.known = false → s.rpc.nrPktsInRl = 0)
    (d : DataHeader) (buf : U64) (mapOk : Bool) :
    (s.call d buf mapOk).1.Balanced (x + (s.call d buf mapOk).2.waiting) ↔ s.CallKeeps d := by
  have hcase := s.call_cases d buf mapOk
  generalize s.call d buf mapOk = p at hcase ⊢
  unfold PacedRpc.Balanced at hs ⊢
  cases hcase <;>
    grind [start, PacedRpc.CallKeeps, TxPhase.waiting, newClientRpc, startOutgoing]

theorem balanced_txStep (env : TxChoice) {ph : TxPhase} (hs : s.Balanced (x + ph.waiting)) :
    (s.txStep env ph).1.Balanced (x + (s.txStep env ph).2.waiting) ↔ s.TxKeeps env ph := by
  rw [balanced_iff] at hs ⊢
  cases ph <;> grind [txStep, PacedRpc.TxKeeps, TxPhase.waiting]

theorem balanced_pacerStep (env : PacerChoice) (hs : s.Balanced x) :
    (s.pacerStep env).Balanced x ↔ s.PacerKeeps env := by
  cases hp : s.pacer with
  | closing need nrTx =>
    unfold PacedRpc.Balanced at hs ⊢
    rw [hp, PacerPhase.unaccounted, Nat.add_right_comm, ofNat_add] at hs
    simp [pacerStep, PacedRpc.PacerKeeps, hp, hs, PacerPhase.unaccounted, add_sub_cancel]
  | _ =>
    rw [balanced_iff] at hs ⊢
    unfold pacerStep PacedRpc.PacerKeeps
    grind [PacerPhase.unaccounted]

end

/-! ## Runs -/

structure Pacing.Untouched (s : Pacing n) : Prop where
  queue : s.shared.queue = []
  inTree : s.shared.inTree = false
  pacer : s.shared.pacer = .idle
  grant : s.shared.grant = .idle
  count : s.shared.rpc.nrPktsInRl = 0
  idle : ∀ c, s.tx c = .idle

section

variable {s : Pacing n} {e : PacingEvent n}

theorem Pacing.Untouched.counted (h : s.Untouched) : Counted s := by
  simp [Counted, PacedRpc.Balanced, h.queue, h.pacer, h.count, h.idle, TxPhase.waiting,
    PacerPhase.unaccounted]

theorem counted_put (s : Pacing n) (c : Fin (n + 1)) (p : PacedRpc × TxPhase) :
    Counted (s.put c p) ↔
      p.1.Balanced (∑ c' ∈ Finset.univ.erase c, (s.tx c').waiting + p.2.waiting) := by
  unfold Counted Pacing.put
  dsimp only
  rw [← sum_erase_add _ _ (mem_univ c), Function.update_self,
    sum_congr rfl fun c' hc' => by rw [Function.update_of_ne (ne_of_mem_erase hc')]]

theorem Counted.others (hs : Counted s) (c : Fin (n + 1)) :
    s.shared.Balanced (∑ c' ∈ Finset.univ.erase c, (s.tx c').waiting + (s.tx c).waiting) := by
  have hself : s.put c (s.shared, s.tx c) = s := by simp [Pacing.put]
  rw [← hself] at hs
  exact (counted_put ..).mp hs

theorem counted_step_iff (hs : Counted s)
    (hnew : s.shared.known = false → s.shared.rpc.nrPktsInRl = 0) :
    Counted (pacingStep s e) ↔ NothingLost s e := by
  cases e with
  | call c d buf mapOk =>
    have hc := hs.others c
    by_cases hidle : s.tx c = .idle
    · simp only [pacingStep, NothingLost, hidle, if_true, forall_true_left, counted_put]
      rw [hidle] at hc
      exact balanced_call hc hnew d buf mapOk
    · simp [pacingStep, NothingLost, hidle, hs]
  | tx c env =>
    simp only [pacingStep, NothingLost, counted_put]
    exact balanced_txStep env (hs.others c)
  | pacer env => exact balanced_pacerStep env hs
  | grantPkt offset priority =>
    refine iff_of_true ?_ trivial
    simp only [pacingStep, Counted, grantPkt]
    split_ifs <;> exact hs
  | grant refOk =>
    refine iff_of_true ?_ trivial
    simp only [pacingStep, Counted]
    cases hg : s.shared.grant <;> simp only [grantStep, hg]
    case idle | raised | added => exact hs
    all_goals split_ifs <;> exact hs

theorem put_idle {c : Fin (n + 1)} (hc : s.tx c = .idle) (r : PacedRpc) :
    s.put c (r, .idle) = { s with shared := r } := by
  simp [Pacing.put, ← hc]

theorem untouched_step (h : s.shared.known = false → s.Untouched)
    (hknown : (pacingStep s e).shared.known = false) : (pacingStep s e).Untouched := by
  cases e with
  | call c d buf mapOk =>
    simp only [pacingStep] at hknown ⊢
    split_ifs at hknown ⊢ with hc
    · have hcase := s.shared.call_cases d buf mapOk
      generalize s.shared.call d buf mapOk = p at hcase hknown ⊢
      cases hcase with
      | dropped =>
        rw [put_idle hc] at hknown ⊢
        obtain ⟨hq, ht, hp, hg, hnr, hidle⟩ := h hknown
        exact ⟨hq, ht, hp, hg, hnr, hidle⟩
      | later _ hk | response _ _ hk => simp [Pacing.put, hk] at hknown
      | request => simp [Pacing.put] at hknown
    · exact h hknown
  | tx c env =>
    have hu := h (by simpa [pacingStep, Pacing.put] using hknown)
    rw [pacingStep, hu.idle c, txStep, put_idle (hu.idle c)]
    exact hu
  | pacer env =>
    have hu := h (by simpa [pacingStep] using hknown)
    simpa [pacingStep, pacerStep, hu.pacer, hu.inTree] using hu
  | grantPkt offset priority =>
    have hk : s.shared.known = false := by simpa [pacingStep] using hknown
    simpa [pacingStep, grantPkt, hk] using h hk
  | grant refOk =>
    have hu := h (by simpa [pacingStep] using hknown)
    simpa [pacingStep, grantStep, hu.grant] using hu

end

/-- **The count of packets in the rate limiter** is right precisely when no counted packet is lost,
    and no response starts meanwhile. -/
theorem counted_always_iff {s : Pacing n} (h : s.Untouched) (es : List (PacingEvent n)) :
    Always pacingStep Counted s es ↔ Meets pacingStep NothingLost s es := by
  have hkeep : ∀ (s : Pacing n) (e : PacingEvent n),
      (Counted s ∧ (s.shared.known = false → s.Untouched)) → True → NothingLost s e →
      Counted (pacingStep s e) ∧
        ((pacingStep s e).shared.known = false → (pacingStep s e).Untouched) :=
    fun _ _ hinv _ hok => ⟨(counted_step_iff hinv.1 fun hk => (hinv.2 hk).count).mpr hok,
      untouched_step hinv.2⟩
  exact always_iff_meets hkeep
    (fun _ _ hinv _ hc => (counted_step_iff hinv.1 fun hk => (hinv.2 hk).count).mp hc)
    (fun _ hinv => hinv.1) ⟨h.counted, fun _ => h⟩ meets_true

theorem counted_always_request :
    Always pacingStep Counted (freshRequest 0)
      (.call 0 (packetAt 0 0) 0x100 true :: List.replicate 7 (.tx 0 ⟨false, 5, true, true⟩) ++
        List.replicate 6 (.pacer ⟨true, true⟩)) := by
  refine (counted_always_iff ⟨rfl, rfl, rfl, rfl, rfl, fun _ => rfl⟩ _).mpr ?_
  simp only [List.replicate, List.cons_append, List.nil_append, meets_cons]
  exact ⟨fun _ h => absurd h (by decide), trivial, trivial, trivial, fun _ => by decide, rfl,
    trivial, rfl, trivial, trivial, fun _ _ => rfl, trivial, rfl, fun _ _ => rfl, trivial⟩

/-- There is no queue id: the call drops the packet and leaves the count at 1, with nothing in the
    queue. -/
theorem counted_lost_on_drop :
    let s := run pacingStep (freshRequest 0)
      (.call 0 (packetAt 0 0) 0x100 true ::
        List.replicate 4 (.tx 0 ⟨false, maxBucketSize, true, true⟩))
    s.shared.rpc.nrPktsInRl = 1 ∧ s.shared.queue = [] ∧ s.shared.pacer = .idle ∧
      s.tx 0 = .idle ∧ ¬ Counted s := by
  refine ⟨by decide, by decide, by decide, by decide, ?_⟩
  unfold Counted PacedRpc.Balanced
  decide

end MtpXdp.Homa

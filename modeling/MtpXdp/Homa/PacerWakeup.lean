import MtpXdp.Homa.PacedOrder

/-!
# No Lost Wakeup

A callback removes the node of the RPC before it looks at the credit, and `grant_pkt` inserts the
node after raising the credit, so one of the two sees what the other has done. The first packet for
the rate limiter sets the queue id before it inserts the node, so the calls must come one at a time,
in the order of the offsets.
-/

namespace MtpXdp.Homa

open Ebpf (U8 U32 U64)
open MtpXdp.Core

/-- The callback holds the node and has not decided to drop it, which comes with `need_enqueue =
    false`. -/
@[grind] def PacerPhase.undecided : PacerPhase → Bool
  | .idle => false
  | .closing needEnqueue _ | .deciding needEnqueue => needEnqueue
  | _ => true

@[grind] def GrantPhase.holds : GrantPhase → Bool
  | .holding | .added => true
  | _ => false

namespace PacedRpc

@[grind] def AboutToInsert (s : PacedRpc) : Prop :=
  s.grant = .holding ∨ s.ccNode = true ∧
    (s.grant = .qidSeen ∨ s.grant = .raised ∧ s.rpc.qid ≠ maxBucketSize)

@[grind] def Watched (s : PacedRpc) : Prop :=
  s.inTree = true ∨ s.pacer.undecided = true ∨ s.AboutToInsert

def NoLostWakeup (s : PacedRpc) : Prop :=
  s.rpc.state = .outgoing → ¬ s.completed → ∀ d rest, s.queue = d :: rest →
    d.fin64 ≤ s.rpc.cc.granted → s.Watched

@[grind] structure Nodeless (s : PacedRpc) : Prop where
  inTree : s.inTree = false
  pacer : s.pacer = .idle
  ccNode : s.ccNode = false
  grant : s.grant.holds = false
  queue : s.queue = []

@[grind] def Refused (s : PacedRpc) : Prop :=
  ∃ d rest, s.queue = d :: rest ∧ s.rpc.cc.granted < d.fin64

structure Woken (s : PacedRpc) (ph : TxPhase) : Prop where
  started : s.rpc.state = .outgoing ↔ s.handed ≠ []
  known : s.rpc.state = .outgoing → s.known = true
  quiet : s.rpc.state ≠ .outgoing → s.Nodeless ∧ s.grant = .idle ∧ ph = .idle
  unentered : s.rpc.qid = maxBucketSize ∨ (∃ d, ph = .allocated d) →
    s.rpc.state = .outgoing → s.Nodeless
  entering : ∀ d, ph = .inserted d →
    s.ccNode = false ∧ s.grant.holds = false ∧ s.queue = [] ∧ s.pacer.frames = []
  queued : ∀ d, ph = .allocated d ∨ ph = .inserted d ∨ ph = .redirecting d →
    s.rpc.qid ≠ maxBucketSize
  pointer : s.rpc.state = .outgoing → s.rpc.qid ≠ maxBucketSize →
    (∀ d, ph ≠ .allocated d ∧ ph ≠ .inserted d) → s.ccNode = true ∨ s.grant.holds = true
  watched : s.rpc.state = .outgoing → s.rpc.qid ≠ maxBucketSize → (∀ d, ph ≠ .allocated d) →
    s.Watched ∨ s.completed ∨ s.Refused
  refused : ∀ d nrTx, s.pacer = .refused d nrTx →
    s.rpc.cc.granted < d.fin64 ∨ s.inTree = true ∨ s.AboutToInsert

theorem Woken.noLostWakeup {s : PacedRpc} {ph : TxPhase} (h : s.Woken ph) : s.NoLostWakeup := by
  intro hstate hopen d rest hq hcredit
  have hentered : ¬ (s.rpc.qid = maxBucketSize ∨ ∃ d, ph = .allocated d) := by
    intro hun
    simpa [hq] using (h.unentered hun hstate).queue
  rw [not_or, not_exists] at hentered
  rcases h.watched hstate hentered.1 hentered.2 with hw | hdone | ⟨d', rest', hq', hlt⟩
  · exact hw
  · exact absurd hdone hopen
  · obtain ⟨rfl, -⟩ := List.cons.inj (hq.symm.trans hq')
    exact absurd hcredit (BitVec.not_le.mpr hlt)

section

variable {s : PacedRpc} {ph : TxPhase}

theorem Woken.grantStep (h : s.Woken ph) : (s.grantStep true).Woken ph := by
  unfold PacedRpc.grantStep
  cases hg : s.grant with
  | idle => exact h
  | raised | qidSeen | holding | added =>
    cases h
    constructor <;> grind [completed]

theorem Woken.grantPkt (h : s.Woken ph) (offset : U32) (priority : U8) :
    (s.grantPkt offset priority).Woken ph := by
  cases h
  unfold PacedRpc.grantPkt
  constructor <;> grind [completed, PacerPhase.frames]

theorem Woken.pacerStep (h : s.Woken ph) (env : PacerChoice) (hframe : env.frameOk = true)
    (hsend : env.sendOk = true) (hnext : s.completed → (s.pacerStep env).completed) :
    (s.pacerStep env).Woken ph := by
  unfold PacedRpc.pacerStep at hnext ⊢
  cases h
  cases hp : s.pacer with
  | idle | taken | closing | deciding | reinserting =>
    simp only [hp] at hnext ⊢
    constructor <;> grind -ring -linarith [completed, PacerPhase.frames]
  -- the queue changes, and the frame in hand is at its head again after a refusal
  | loop | inHand | allowed | refused =>
    simp only [hp, hframe, hsend, if_true] at hnext ⊢
    constructor <;> grind -ring -linarith [completed, PacerPhase.frames]

theorem Woken.txStep (h : s.Woken ph) (env : TxChoice) (hqid : env.qid ≠ maxBucketSize)
    (hobj : env.objOk = true) (hredirect : env.redirectOk = true)
    (hnext : s.completed → (s.txStep env ph).1.completed) :
    (s.txStep env ph).1.Woken (s.txStep env ph).2 := by
  cases h
  cases ph with
  | idle | ready | credit | direct | slow =>
    simp only [PacedRpc.txStep] at hnext ⊢
    constructor <;> grind -ring -linarith [completed]
  -- the queue id is there before the node
  | counted =>
    simp only [PacedRpc.txStep, hqid, if_false] at hnext ⊢
    constructor <;> grind -ring -linarith [completed]
  | allocated | inserted | redirecting =>
    simp only [PacedRpc.txStep, hobj, hredirect, if_true] at hnext ⊢
    constructor <;> grind -ring -linarith [completed, PacerPhase.frames]

theorem Woken.call (h : s.Woken .idle) (hord : Ordered s .idle) {d : DataHeader} (hd : s.Next d)
    (buf : U64) : (s.call d buf true).1.Woken (s.call d buf true).2 := by
  have happend : s.handed ++ [d] ≠ [] := by simp
  have hstarted := h.started
  rcases hord.call_cases hd buf with ⟨hne, hk, heq⟩ | ⟨hnil, ccNode, r, hcc, hstate, -, hqid, -,
    heq⟩ <;>
    rw [heq]
  · have hstate := hstarted.mpr hne
    cases h
    constructor <;> grind [completed]
  · cases h
    unfold PacedRpc.start
    dsimp only
    split_ifs <;> constructor <;> grind

theorem completed_of_le {s' : PacedRpc} (hlength : s'.rpc.messageLength = s.rpc.messageLength)
    (hnext : s.rpc.nextXmitOffset ≤ s'.rpc.nextXmitOffset) (h : s.completed) : s'.completed := by
  rw [completed, hlength]
  exact BitVec.le_trans h hnext

theorem messageLength_txStep (env : TxChoice) :
    (s.txStep env ph).1.rpc.messageLength = s.rpc.messageLength := by
  cases ph <;> grind [PacedRpc.txStep]

theorem messageLength_pacerStep (env : PacerChoice) :
    (s.pacerStep env).rpc.messageLength = s.rpc.messageLength := by
  unfold PacedRpc.pacerStep
  grind

end

theorem keeps_woken : Keeps (fun s ph => Ordered s ph ∧ s.Woken ph) fun _ _ => True where
  refl _ := trivial
  call h hd buf := ⟨⟨(h.1.call hd buf).1, h.2.call h.1 hd buf⟩, trivial⟩
  tx h env hqid hobj hredirect := by
    obtain ⟨hord, hnext⟩ := h.1.txStep env hqid hobj hredirect
    exact ⟨⟨hord, h.2.txStep env hqid hobj hredirect
      (completed_of_le (messageLength_txStep env) hnext)⟩, trivial⟩
  pacer h env hframe hsend := by
    obtain ⟨hord, hnext⟩ := h.1.pacerStep env hframe hsend
    exact ⟨⟨hord, h.2.pacerStep env hframe hsend
      (completed_of_le (messageLength_pacerStep env) hnext)⟩, trivial⟩
  grantPkt h offset priority :=
    ⟨⟨(h.1.grantPkt offset priority).1, h.2.grantPkt offset priority⟩, trivial⟩
  grant h := ⟨⟨(h.1.grantStep true).1, h.2.grantStep⟩, trivial⟩

end PacedRpc

/-! ## Runs -/

theorem Pacing.Fresh.woken {s : Pacing n} (h : s.Fresh) : s.shared.Woken (s.tx 0) := by
  have hidle := h.idle 0
  have hnode : s.shared.Nodeless :=
    { h with grant := by rw [h.grant]; rfl }
  constructor <;> grind [Pacing.Fresh, Pacing.Untouched]

/-- **No lost wakeup**: a packet with credit at the head of the queue is watched, if calls come one
    at a time and in order. -/
theorem noLostWakeup_always {s : Pacing n} (h : s.Fresh) {es : List (PacingEvent n)}
    (hdom : Meets pacingStep InOrder s es) :
    Always pacingStep (fun s => s.shared.NoLostWakeup) s es := by
  have hstart : Serially (fun s ph => Ordered s ph ∧ s.Woken ph) s :=
    ⟨0, ⟨h.ordered _ (h.idle 0), h.woken⟩, fun c _ => h.idle c⟩
  have hstep := fun s e hs hdom => (PacedRpc.keeps_woken.step (n := n) (s := s) (e := e) hs hdom).1
  refine (always_of_meets hstep hstart hdom).mono ?_
  rintro s ⟨c, ⟨-, hwoken⟩, -⟩
  exact hwoken.noLostWakeup

theorem noLostWakeup_always_two :
    Always pacingStep (fun s => s.shared.NoLostWakeup) (freshRequest 0) (twoPacketRun 0) :=
  noLostWakeup_always (freshRequest_fresh 0) meets_twoPacketRun

/-- The first of two calls has the queue id when the second queues its packet: it has credit, and
    nobody has the node. -/
theorem wakeup_lost_concurrent :
    let es : List (PacingEvent 1) :=
      [.call 0 (packetAt 0 0) 0x100 true] ++ List.replicate 4 (.tx 0 ⟨false, 5, true, true⟩) ++
        [.call 1 (packetAt 1 1000) 0x100 true] ++ List.replicate 5 (.tx 1 ⟨true, 5, true, true⟩)
    (∀ e ∈ es, NoFailure e) ∧ ¬ (run pacingStep (freshRequest 1) es).shared.NoLostWakeup := by
  constructor
  · simp [NoFailure, maxBucketSize]
  · intro h
    rcases h (by decide) (by decide) (packetAt 1 1000) [] (by decide) (by decide) with
      h | h | h | ⟨h, -⟩ <;> exact absurd h (by decide)

end MtpXdp.Homa

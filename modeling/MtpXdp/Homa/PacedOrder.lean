import MtpXdp.Homa.Pacer

/-!
# Packets Leave in Order

The packets of an RPC come one at a time and in order, while the pacer and `grant_pkt` interleave
with the calls. A packet takes the direct way only if `nr_pkts_in_rl` is 0: `sent`, the packet in
the callback's hands, the queue and the packet of the call are the packets so far, in this order.
-/

namespace MtpXdp.Homa

open Ebpf (U8 U32 U64)
open MtpXdp.Core List BitVec PacedRpc TxPhase PacerPhase

/-! ## A line of packets -/

def Precedes (p d : DataHeader) : Prop := p.segOffset < d.segOffset ∧ p.fin ≤ d.fin

/-- The packets so far, those sent first. `next` is the end of one, and the others have reached it.
    -/
structure InLine (handed sent unsent : List DataHeader) (next : U64) : Prop where
  line : handed = sent ++ unsent
  sorted : handed.Pairwise Precedes
  ahead : ∀ p ∈ unsent, next ≤ p.fin64
  reached : next = 0 ∨ ∃ p ∈ handed, next = p.fin64

section

variable {handed sent unsent : List DataHeader} {d : DataHeader} {next : U64}

theorem Precedes.fin64_le {p : DataHeader} (h : Precedes p d) : p.fin64 ≤ d.fin64 := by
  have hle := le_def.mp h.2
  simp only [DataHeader.fin64, le_def, toNat_setWidth]
  omega

theorem InLine.send (h : InLine handed sent (d :: unsent) next) :
    InLine handed (sent ++ [d]) unsent d.fin64 where
  line := by rw [h.line, List.append_assoc, singleton_append]
  sorted := h.sorted
  ahead := by
    have hsorted := h.sorted
    rw [h.line, pairwise_append, List.pairwise_cons] at hsorted
    exact fun p hp => (hsorted.2.1.1 p hp).fin64_le
  reached := .inr ⟨d, by simp [h.line], rfl⟩

theorem InLine.hand (h : InLine handed sent unsent next) (hd : ∀ p ∈ handed, Precedes p d) :
    InLine (handed ++ [d]) sent (unsent ++ [d]) next where
  line := by rw [h.line, List.append_assoc]
  sorted := List.pairwise_append.mpr ⟨h.sorted, pairwise_singleton .., by simpa using hd⟩
  ahead := by
    have hnext : next ≤ d.fin64 := by
      rcases h.reached with hzero | ⟨p, hp, hnext⟩
      · rw [hzero]
        exact le_def.mpr (Nat.zero_le _)
      · exact hnext ▸ (hd p hp).fin64_le
    simpa [or_imp, forall_and] using ⟨h.ahead, hnext⟩
  reached := h.reached.imp_right fun ⟨p, hp, hnext⟩ => ⟨p, mem_append_left _ hp, hnext⟩

theorem inLine_first (d : DataHeader) : InLine [d] [] [d] d.fin64 :=
  ⟨rfl, pairwise_singleton .., by simp, .inr ⟨d, by simp, rfl⟩⟩

theorem fin64_first (hd : d.segOffset = 0) : d.fin64 = d.segmentLength.setWidth 64 := by
  simp [DataHeader.fin64, DataHeader.fin, hd]

theorem InLine.length_le (h : InLine handed sent unsent next) :
    sent.length + unsent.length ≤ 2 ^ 32 := by
  have hnodup : (handed.map (·.segOffset.toNat)).Nodup :=
    pairwise_map.mpr (h.sorted.imp fun hlt => (lt_def.mp hlt.1).ne)
  have hsub : (handed.map (·.segOffset.toNat)).toFinset ⊆ Finset.range (2 ^ 32) := by
    intro x hx
    obtain ⟨p, -, rfl⟩ := List.mem_map.mp (List.mem_toFinset.mp hx)
    exact Finset.mem_range.mpr p.segOffset.isLt
  have hcard := Finset.card_le_card hsub
  rwa [List.toFinset_card_of_nodup hnodup, length_map, Finset.card_range, h.line,
    length_append] at hcard

end

/-! ## One call at a time -/

structure PacedRpc.Next (s : PacedRpc) (d : DataHeader) : Prop where
  first : d.seq = 0 ↔ s.handed = []
  zero : s.handed = [] → d.segOffset = 0
  after : ∀ p ∈ s.handed, Precedes p d

def InOrder (s : Pacing n) : PacingEvent n → Prop
  | .call _ d _ mapOk => mapOk = true ∧ (∀ c, s.tx c = .idle) ∧ s.shared.Next d
  | e => NoFailure e

def Serially (P : PacedRpc → TxPhase → Prop) (s : Pacing n) : Prop :=
  ∃ c, P s.shared (s.tx c) ∧ ∀ c', c' ≠ c → s.tx c' = .idle

structure Keeps (P : PacedRpc → TxPhase → Prop) (R : PacedRpc → PacedRpc → Prop) : Prop where
  refl : ∀ s, R s s
  call : ∀ {s d}, P s .idle → s.Next d → ∀ buf,
    P (s.call d buf true).1 (s.call d buf true).2 ∧ R s (s.call d buf true).1
  tx : ∀ {s ph}, P s ph → ∀ env : TxChoice, env.qid ≠ maxBucketSize → env.objOk = true →
    env.redirectOk = true → P (s.txStep env ph).1 (s.txStep env ph).2 ∧ R s (s.txStep env ph).1
  pacer : ∀ {s ph}, P s ph → ∀ env : PacerChoice, env.frameOk = true → env.sendOk = true →
    P (s.pacerStep env) ph ∧ R s (s.pacerStep env)
  grantPkt : ∀ {s ph}, P s ph → ∀ offset priority,
    P (s.grantPkt offset priority) ph ∧ R s (s.grantPkt offset priority)
  grant : ∀ {s ph}, P s ph → P (s.grantStep true) ph ∧ R s (s.grantStep true)

theorem Keeps.step {P : PacedRpc → TxPhase → Prop} {R : PacedRpc → PacedRpc → Prop}
    (h : Keeps P R) {s : Pacing n} {e : PacingEvent n} (hs : Serially P s) (hdom : InOrder s e) :
    Serially P (pacingStep s e) ∧ R s.shared (pacingStep s e).shared := by
  obtain ⟨c, hP, hothers⟩ := hs
  have hput : ∀ {c' : Fin (n + 1)} {p : PacedRpc × TxPhase}, (∀ u, u ≠ c' → s.tx u = .idle) →
      P p.1 p.2 → Serially P (s.put c' p) := by
    intro c' p hidle hp
    refine ⟨c', ?_, fun u hu => ?_⟩
    · simpa [Pacing.put] using hp
    · simpa [Pacing.put, hu] using hidle u hu
  cases e with
  | call c' d buf mapOk =>
    obtain ⟨rfl, hidle, hnext⟩ := hdom
    rw [hidle c] at hP
    have hcall := h.call hP hnext buf
    simp only [pacingStep, hidle c', if_true]
    exact ⟨hput (fun u _ => hidle u) hcall.1, hcall.2⟩
  | tx c' env =>
    obtain ⟨hqid, hobj, hredirect⟩ := hdom
    by_cases hc : c' = c
    · subst hc
      have htx := h.tx hP env hqid hobj hredirect
      exact ⟨hput hothers htx.1, htx.2⟩
    · -- no call is in progress on this CPU
      rw [pacingStep, hothers c' hc, txStep, put_idle (hothers c' hc)]
      exact ⟨⟨c, hP, hothers⟩, h.refl _⟩
  | pacer env =>
    have hpacer := h.pacer hP env hdom.1 hdom.2
    exact ⟨⟨c, hpacer.1, hothers⟩, hpacer.2⟩
  | grantPkt offset priority =>
    have hgrant := h.grantPkt hP offset priority
    exact ⟨⟨c, hgrant.1, hothers⟩, hgrant.2⟩
  | grant refOk =>
    obtain rfl : refOk = true := hdom
    have hgrant := h.grant hP
    exact ⟨⟨c, hgrant.1, hothers⟩, hgrant.2⟩

/-! ## The line is kept -/

def TxPhase.packet : TxPhase → List DataHeader
  | .idle => []
  | .ready d | .credit d _ | .direct d | .slow d | .counted d | .allocated d | .inserted d
  | .redirecting d => [d]

def PacerPhase.frames : PacerPhase → List DataHeader
  | .inHand d _ _ | .allowed d _ _ | .refused d _ => [d]
  | _ => []

structure Ordered (s : PacedRpc) (ph : TxPhase) : Prop where
  line : InLine s.handed s.sent (s.pacer.frames ++ s.queue ++ ph.packet) s.rpc.nextXmitOffset
  count : s.Balanced ph.waiting
  paid : s.pacer.unaccounted ≤ s.pacer.frames.length + s.sent.length
  alone : ∀ d, ph = .direct d → s.pacer.frames = [] ∧ s.queue = []
  unknown : s.known = false ↔ s.handed = [] ∧ rpcIsClient s.key.rpcid = true

section

variable {s : PacedRpc} {ph : TxPhase}

theorem Ordered.empty (h : Ordered s ph) (hph : ph.waiting = 0) (hnr : s.rpc.nrPktsInRl = 0) :
    s.pacer.frames = [] ∧ s.queue = [] := by
  have hle := h.line.length_le
  have hpaid := h.paid
  have hframes : s.pacer.frames.length ≤ s.pacer.unaccounted := by
    cases s.pacer <;> simp [frames, unaccounted]
  have hcount : 0 = (s.queue.length + s.pacer.unaccounted + ph.waiting) % 2 ^ 64 := by
    simpa [hnr] using congrArg BitVec.toNat h.count
  simp only [length_append] at hle
  have hzero : s.pacer.frames.length = 0 ∧ s.queue.length = 0 := by omega
  exact ⟨length_eq_zero_iff.mp hzero.1, length_eq_zero_iff.mp hzero.2⟩

theorem Ordered.txStep (h : Ordered s ph) (env : TxChoice) (hqid : env.qid ≠ maxBucketSize)
    (hobj : env.objOk = true) (hredirect : env.redirectOk = true) :
    Ordered (s.txStep env ph).1 (s.txStep env ph).2 ∧
      s.rpc.nextXmitOffset ≤ (s.txStep env ph).1.rpc.nextXmitOffset := by
  have hkeeps : s.TxKeeps env ph := by
    cases ph <;> simp [PacedRpc.TxKeeps, hqid, hobj, hredirect]
  have hcount := (balanced_txStep env (x := 0) (by simpa using h.count)).mpr hkeeps
  rw [Nat.zero_add] at hcount
  have hempty := h.empty
  obtain ⟨hline, -, hpaid, halone, hunknown⟩ := h
  cases ph with
  | credit d granted =>
    simp only [txStep] at hcount ⊢
    split_ifs at hcount ⊢ with hsend
    · have hnr : s.rpc.nrPktsInRl = 0 := by
        simp only [maySend, Bool.and_eq_true, beq_iff_eq] at hsend
        exact hsend.1.2
      exact ⟨⟨hline, hcount, hpaid, fun _ _ => hempty rfl hnr, hunknown⟩, BitVec.le_refl _⟩
    · exact ⟨⟨hline, hcount, hpaid, fun _ h => TxPhase.noConfusion h, hunknown⟩, BitVec.le_refl _⟩
  | direct d =>
    obtain ⟨hframes, hqueue⟩ := halone d rfl
    simp only [hframes, hqueue, packet, nil_append] at hline
    refine ⟨⟨?_, hcount, ?_, fun _ h => TxPhase.noConfusion h, hunknown⟩, hline.ahead d (by simp)⟩
    · simpa [txStep, hframes, hqueue, packet] using hline.send
    · simpa [txStep] using hpaid.trans (by omega)
  | counted d =>
    simp only [txStep, hqid, if_false] at hcount ⊢
    split_ifs at hcount ⊢ <;>
      exact ⟨⟨hline, hcount, hpaid, fun _ h => TxPhase.noConfusion h, hunknown⟩, BitVec.le_refl _⟩
  | redirecting d =>
    simp only [txStep, hredirect, if_true] at hcount ⊢
    refine ⟨⟨?_, hcount, hpaid, fun _ h => TxPhase.noConfusion h, hunknown⟩, BitVec.le_refl _⟩
    simpa [packet] using hline
  | allocated d =>
    simp only [txStep, hobj, if_true] at hcount ⊢
    exact ⟨⟨hline, hcount, hpaid, fun _ h => TxPhase.noConfusion h, hunknown⟩, BitVec.le_refl _⟩
  | _ => exact ⟨⟨hline, hcount, hpaid, fun _ h => TxPhase.noConfusion h, hunknown⟩,
      BitVec.le_refl _⟩

theorem Ordered.moved {s' : PacedRpc} (h : Ordered s ph)
    (hlist : s'.pacer.frames ++ s'.queue = s.pacer.frames ++ s.queue)
    (hhanded : s'.handed = s.handed) (hsent : s'.sent = s.sent) (hkey : s'.key = s.key)
    (hknown : s'.known = s.known) (hnext : s'.rpc.nextXmitOffset = s.rpc.nextXmitOffset)
    (hcount : s'.Balanced ph.waiting)
    (hpaid : s'.pacer.unaccounted ≤ s'.pacer.frames.length + s.sent.length) :
    Ordered s' ph ∧ s.rpc.nextXmitOffset ≤ s'.rpc.nextXmitOffset := by
  refine ⟨⟨?_, hcount, by rwa [hsent], fun d hd => ?_, ?_⟩, by rw [hnext]; exact BitVec.le_refl _⟩
  · rw [hhanded, hsent, hlist, hnext]
    exact h.line
  · have hempty := h.alone d hd
    rwa [← append_eq_nil_iff, ← hlist, append_eq_nil_iff] at hempty
  · rw [hhanded, hkey, hknown]
    exact h.unknown

theorem pacerStep_moved (s : PacedRpc) {env : PacerChoice} (hframe : env.frameOk = true)
    (hsend : ∀ d work nrTx, s.pacer ≠ .allowed d work nrTx) :
    (s.pacerStep env).pacer.frames ++ (s.pacerStep env).queue = s.pacer.frames ++ s.queue ∧
      (s.pacerStep env).handed = s.handed ∧ (s.pacerStep env).sent = s.sent ∧
      (s.pacerStep env).key = s.key ∧ (s.pacerStep env).rpc.nextXmitOffset = s.rpc.nextXmitOffset ∧
      (s.pacerStep env).pacer.unaccounted + s.pacer.frames.length ≤
        s.pacer.unaccounted + (s.pacerStep env).pacer.frames.length := by
  unfold pacerStep
  cases hp : s.pacer <;> grind [frames, unaccounted]

theorem Ordered.pacerStep (h : Ordered s ph) (env : PacerChoice) (hframe : env.frameOk = true)
    (hsend : env.sendOk = true) : Ordered (s.pacerStep env) ph ∧
      s.rpc.nextXmitOffset ≤ (s.pacerStep env).rpc.nextXmitOffset := by
  have hkeeps : s.PacerKeeps env := by
    unfold PacedRpc.PacerKeeps
    split <;> simp [hframe, hsend]
  have hcount := (balanced_pacerStep env h.count).mpr hkeeps
  by_cases hallowed : ∃ d work nrTx, s.pacer = .allowed d work nrTx
  · obtain ⟨d, work, nrTx, hp⟩ := hallowed
    obtain ⟨hline, -, hpaid, halone, hunknown⟩ := h
    simp only [PacedRpc.pacerStep, hp, hsend, if_true] at hcount ⊢
    simp only [hp, frames, unaccounted, List.cons_append, nil_append,
      length_singleton] at hline hpaid halone
    refine ⟨⟨hline.send, hcount, ?_, fun d hd => absurd (halone d hd).1 (cons_ne_nil _ _),
      hunknown⟩, hline.ahead d List.mem_cons_self⟩
    simp only [frames, unaccounted, length_append, length_nil,
      length_singleton]
    omega
  · simp only [not_exists] at hallowed
    obtain ⟨hlist, hhanded, hsent, hkey, hnext, hle⟩ := pacerStep_moved s hframe hallowed
    have hpaid := h.paid
    exact h.moved hlist hhanded hsent hkey (by simp) hnext hcount (by omega)

theorem Ordered.grantPkt (h : Ordered s ph) (offset : U32) (priority : U8) :
    Ordered (s.grantPkt offset priority) ph ∧
      s.rpc.nextXmitOffset ≤ (s.grantPkt offset priority).rpc.nextXmitOffset := by
  simp only [PacedRpc.grantPkt]
  split_ifs
  · exact h.moved rfl rfl rfl rfl rfl rfl h.count h.paid
  · exact h.moved rfl rfl rfl rfl rfl rfl h.count h.paid
  · exact ⟨h, BitVec.le_refl _⟩

theorem Ordered.grantStep (h : Ordered s ph) (refOk : Bool) : Ordered (s.grantStep refOk) ph ∧
      s.rpc.nextXmitOffset ≤ (s.grantStep refOk).rpc.nextXmitOffset := by
  simp only [PacedRpc.grantStep]
  split <;> (try split_ifs) <;> exact h.moved rfl rfl rfl rfl rfl rfl h.count h.paid

theorem Ordered.call_cases (h : Ordered s ph) {d : DataHeader} (hd : s.Next d) (buf : U64) :
    (s.handed ≠ [] ∧ s.known = true ∧
      s.call d buf true = ({ s with handed := s.handed ++ [d] }, .ready d)) ∨
    s.handed = [] ∧ ∃ (ccNode : Bool) (r : RpcState), (ccNode = false ∨ ccNode = s.ccNode) ∧
      r.state = .outgoing ∧ r.nrPktsInRl = 0 ∧ r.qid = maxBucketSize ∧
      r.nextXmitOffset = d.segmentLength.setWidth 64 ∧
      s.call d buf true = { s with handed := s.handed ++ [d], ccNode := ccNode }.start r d := by
  have hcase := s.call_cases d buf true
  generalize s.call d buf true = p at hcase ⊢
  cases hcase with
  | dropped hknown hnew =>
    exfalso
    cases hk : s.known with
    | false =>
      obtain ⟨hnil, hclient⟩ := h.unknown.mp hk
      cases hnew hk (hd.first.mpr hnil) hclient
    | true =>
      obtain ⟨hseq, hclient⟩ := hknown hk
      rw [h.unknown.mpr ⟨hd.first.mp hseq, hclient⟩] at hk
      cases hk
  | later hseq hknown => exact .inl ⟨mt hd.first.mpr hseq, hknown, rfl⟩
  | request hseq =>
    exact .inr ⟨hd.first.mp hseq, false, _, .inl rfl, rfl, rfl, rfl, rfl, rfl⟩
  | response hseq =>
    exact .inr ⟨hd.first.mp hseq, s.ccNode, _, .inr rfl, rfl, rfl, rfl, rfl, rfl⟩

theorem Ordered.call (h : Ordered s .idle) {d : DataHeader} (hd : s.Next d) (buf : U64) :
    Ordered (s.call d buf true).1 (s.call d buf true).2 ∧
      s.rpc.nextXmitOffset ≤ (s.call d buf true).1.rpc.nextXmitOffset := by
  have hcase := h.call_cases hd buf
  obtain ⟨hline, hcount, hpaid, halone, hunknown⟩ := h
  rcases hcase with ⟨-, hknown, heq⟩ | ⟨hnil, ccNode, r, -, -, hnr, -, hnext, heq⟩ <;> rw [heq]
  · refine ⟨⟨?_, hcount, hpaid, fun _ h => TxPhase.noConfusion h, by simp [hknown]⟩,
      BitVec.le_refl _⟩
    simpa [packet] using hline.hand hd.after
  · -- before the first packet there is nothing
    have hlist := hline.line.symm.trans hnil
    simp only [append_eq_nil_iff] at hlist
    obtain ⟨hsent, ⟨hframes, hqueue⟩, -⟩ := hlist
    have hzero : s.pacer.unaccounted = 0 := by simpa [hframes, hsent] using hpaid
    have hoffset : s.rpc.nextXmitOffset = 0 := hline.reached.resolve_right (by simp [hnil])
    rw [← fin64_first (hd.zero hnil)] at hnext
    have hbalanced : ∀ ph : TxPhase, ph.waiting = 0 →
        r.nrPktsInRl = BitVec.ofNat 64 (s.queue.length + s.pacer.unaccounted + ph.waiting) := by
      intro ph hph
      rw [hqueue, hzero, hph, hnr]
      rfl
    have hknown : true = false ↔ s.handed ++ [d] = [] ∧ rpcIsClient s.key.rpcid = true := by simp
    have hle : s.rpc.nextXmitOffset ≤ r.nextXmitOffset := by
      rw [hoffset]
      exact le_def.mpr (Nat.zero_le _)
    unfold start
    split_ifs
    · refine ⟨⟨?_, hbalanced _ rfl, by simp [hzero], fun _ h => TxPhase.noConfusion h, hknown⟩, hle⟩
      simpa [hnil, hsent, hframes, hqueue, hnext, packet] using (inLine_first d).send
    · refine ⟨⟨?_, hbalanced _ rfl, by simp [hzero], fun _ h => TxPhase.noConfusion h, hknown⟩, hle⟩
      simpa [hnil, hsent, hframes, hqueue, hnext, packet] using inLine_first d

end

theorem keeps_ordered :
    Keeps Ordered fun s s' => s.rpc.nextXmitOffset ≤ s'.rpc.nextXmitOffset where
  refl _ := BitVec.le_refl _
  call h hd := h.call hd
  tx := Ordered.txStep
  pacer := Ordered.pacerStep
  grantPkt := Ordered.grantPkt
  grant h := h.grantStep true

/-! ## Runs -/

/-- Before the first packet: a request that is not in the table, or a response for one that is. -/
structure Pacing.Fresh (s : Pacing n) : Prop extends s.Untouched where
  ccNode : s.shared.ccNode = false
  handed : s.shared.handed = []
  sent : s.shared.sent = []
  known : s.shared.known = !rpcIsClient s.shared.key.rpcid
  state : s.shared.rpc.state ≠ .outgoing
  offset : s.shared.rpc.nextXmitOffset = 0

theorem Pacing.Fresh.ordered {s : Pacing n} (h : s.Fresh) (ph : TxPhase) (hph : ph = .idle) :
    Ordered s.shared ph := by
  subst hph
  constructor
  · simp only [h.handed, h.sent, h.pacer, h.queue, h.offset]
    exact ⟨rfl, .nil, by simp [frames, packet], .inl rfl⟩
  · simp [PacedRpc.Balanced, h.count, h.queue, h.pacer, unaccounted, waiting]
  · simp [h.pacer, unaccounted]
  · exact fun _ h => TxPhase.noConfusion h
  · simp [h.known, h.handed]

theorem Pacing.Fresh.serially {s : Pacing n} (h : s.Fresh) : Serially Ordered s :=
  ⟨0, h.ordered _ (h.idle 0), fun c _ => h.idle c⟩

/-- **Packets leave in order**, and `next_xmit_offset` never decreases, in every interleaving. -/
theorem sent_inOrder_always {s : Pacing n} (h : s.Fresh) {es : List (PacingEvent n)}
    (hdom : Meets pacingStep InOrder s es) :
    Always pacingStep (fun s => s.shared.sent.Pairwise (·.segOffset < ·.segOffset)) s es ∧
      Meets pacingStep (fun s e =>
        s.shared.rpc.nextXmitOffset ≤ (pacingStep s e).shared.rpc.nextXmitOffset) s es := by
  have hstep := fun s e hs hdom => (keeps_ordered.step (n := n) (s := s) (e := e) hs hdom)
  constructor
  · refine (always_of_meets (fun s e hs hd => (hstep s e hs hd).1) h.serially hdom).mono ?_
    rintro s ⟨c, hord, -⟩
    have hsorted := hord.line.sorted
    rw [hord.line.line, pairwise_append] at hsorted
    exact hsorted.1.imp fun hp => hp.1
  · exact meets_of_inv (fun s e hs hd => (hstep s e hs hd).1) (fun s e hs hd => (hstep s e hs hd).2)
      h.serially hdom

theorem meets_replicate {e : PacingEvent n} (he : ∀ s, InOrder s e) (s : Pacing n) (k : Nat) :
    Meets pacingStep InOrder s (List.replicate k e) := by
  induction k generalizing s with
  | zero => trivial
  | succ k ih => exact ⟨he s, ih _⟩

/-- The NIC has no room for the first packet, the second waits behind it, and a callback sends both.
    -/
def twoPacketRun (n : Nat) : List (PacingEvent n) :=
  [.call 0 (packetAt 0 0) 0x100 true] ++ List.replicate 7 (.tx 0 ⟨false, 5, true, true⟩) ++
    [.call 0 (packetAt 1 1000) 0x100 true] ++ List.replicate 5 (.tx 0 ⟨true, 5, true, true⟩) ++
    List.replicate 8 (.pacer ⟨true, true⟩)

theorem freshRequest_fresh (n : Nat) : (freshRequest n).Fresh :=
  { queue := rfl, inTree := rfl, pacer := rfl, grant := rfl, count := rfl, idle := fun _ => rfl
    ccNode := rfl, handed := rfl, sent := rfl, offset := rfl
    known := show false = !rpcIsClient 2 by decide
    state := show RpcPhase.dead ≠ .outgoing by decide }

theorem meets_twoPacketRun : Meets pacingStep InOrder (freshRequest 0) (twoPacketRun 0) := by
  have htx : ∀ (free : Bool) (s : Pacing 0), InOrder s (.tx 0 ⟨free, 5, true, true⟩) :=
    fun _ _ => ⟨show (5 : U64) ≠ maxBucketSize by decide, rfl, rfl⟩
  have hpacer : ∀ s : Pacing 0, InOrder s (.pacer ⟨true, true⟩) := fun _ => ⟨rfl, rfl⟩
  simp only [twoPacketRun, meets_append, meets_cons, meets_nil, and_true]
  refine ⟨⟨⟨⟨⟨rfl, fun _ => rfl, ⟨by decide, fun _ => rfl, fun _ h => by cases h⟩⟩,
    meets_replicate (htx _) _ _⟩, rfl, by decide, ⟨by decide, fun _ => ?_, ?_⟩⟩,
    meets_replicate (htx _) _ _⟩, meets_replicate hpacer _ _⟩
  · contradiction
  · exact forall_mem_singleton.mpr (show Precedes (packetAt 0 0) _ from ⟨by decide, by decide⟩)

theorem sent_inOrder_always_two :
    Always pacingStep (fun s => s.shared.sent.Pairwise (·.segOffset < ·.segOffset)) (freshRequest 0)
      (twoPacketRun 0) ∧
    (run pacingStep (freshRequest 0) (twoPacketRun 0)).shared.sent =
      [packetAt 0 0, packetAt 1 1000] :=
  ⟨(sent_inOrder_always (freshRequest_fresh 0) meets_twoPacketRun).1, by decide⟩

end MtpXdp.Homa

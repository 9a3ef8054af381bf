import MtpXdp.Ebpf.SenderEffects

/-!
# Fast Retransmission

Three duplicate ACKs in a row, while data is outstanding, mean that a segment was lost. The counter
of `fast_retr_rec_ep` counts duplicates of an idle connection too, and neither a rejected ACK nor
one with another window interrupts the count.
-/

namespace MtpXdp.Ebpf

open MtpXdp.Core

variable {ev : NetEvent}

/-! ## The sender with the ACKs it has seen -/

/-- An ACK as the sender found it: whether it was valid, whether it acknowledged new data, and
    its window. -/
structure AckSeen where
  valid : Bool
  news : Bool
  wnd : U32

def BpfTcpConn.sees (c : BpfTcpConn) (ev : NetEvent) : AckSeen where
  valid := decide (AckAccepted c ev.ackSeq)
  news := decide (ev.ackSeq ≠ c.sendUna)
  wnd := ev.scaledWnd

def AckSeen.Duplicate (a : AckSeen) (avail : U32) : Prop :=
  a.valid = true ∧ a.news = false ∧ a.wnd = avail

structure DupState where
  flow : Flow
  seen : List AckSeen

def dupStep (s : DupState) (e : SenderEvent) : DupState where
  flow := senderStep s.flow e
  seen := match e with
    | .ack ev _ => s.flow.c.sees ev :: s.seen
    | _ => s.seen

def Retreats (f f' : Flow) : Prop :=
  f'.cc.cntTxDrops ≠ f.cc.cntTxDrops ∨ f'.cc.rate ≠ f.cc.rate ∨
    f'.c.txNextSeq ≠ f.c.txNextSeq ∨ f'.c.bufCurrSeq ≠ f.c.bufCurrSeq ∨
    f'.c.txNextPos ≠ f.c.txNextPos

def ThreeDuplicates (seen : List AckSeen) (avail : U32) : Prop :=
  3 ≤ seen.length ∧ ∀ a ∈ seen.take 3, a.Duplicate avail

/-- **Fast retransmission happens on three duplicates while data is outstanding; other valid ACKs
    restart the count.** -/
def FastRetransmitOk (s : DupState) : SenderEvent → Prop
  | .ack ev env =>
    (Retreats s.flow (senderStep s.flow (.ack ev env)) →
      s.flow.c.txNextSeq ≠ s.flow.c.sendUna ∧
        ThreeDuplicates (dupStep s (.ack ev env)).seen s.flow.c.rxRemoteAvail) ∧
    ((s.flow.c.sees ev).valid = true → ¬ (s.flow.c.sees ev).Duplicate s.flow.c.rxRemoteAvail →
      (senderStep s.flow (.ack ev env)).c.rxDupackCnt = 0#16)
  | _ => True

/-- A third duplicate finds data outstanding; an ACK rejected, or with just another window, finds
    the counter at zero. -/
def CountsDuplicates (s : DupState) : SenderEvent → Prop
  | .ack ev _ =>
    if ThirdDuplicate s.flow.c ev then s.flow.c.txNextSeq ≠ s.flow.c.sendUna
    else if ev.ackSeq = s.flow.c.sendUna then
      s.flow.c.rxRemoteAvail = ev.scaledWnd ∨ s.flow.c.rxDupackCnt = 0#16
    else AckAccepted s.flow.c ev.ackSeq ∨ s.flow.c.rxDupackCnt = 0#16
  | _ => True

instance (s : DupState) (e : SenderEvent) : Decidable (CountsDuplicates s e) := by
  unfold CountsDuplicates
  split <;> infer_instance

/-! ## What the counter stands for -/

/-- The counter is below three, and as many of the most recent ACKs are duplicates with the
    current window. -/
structure DupInv (s : DupState) : Prop where
  dup_lt : s.flow.c.rxDupackCnt < 3#16
  counted : s.flow.c.rxDupackCnt.toNat ≤ s.seen.length
  recent : ∀ a ∈ s.seen.take s.flow.c.rxDupackCnt.toNat, a.Duplicate s.flow.c.rxRemoteAvail

theorem DupInv.of_zero {s : DupState} (h : s.flow.c.rxDupackCnt = 0#16) : DupInv s where
  dup_lt := by rw [h]; decide
  counted := by rw [h]; exact Nat.zero_le _
  recent := by
    intro a ha
    simp [h] at ha

theorem DupInv.congr {s t : DupState} (h : DupInv s)
    (hcnt : t.flow.c.rxDupackCnt = s.flow.c.rxDupackCnt)
    (hwnd : t.flow.c.rxRemoteAvail = s.flow.c.rxRemoteAvail) (hseen : t.seen = s.seen) :
    DupInv t where
  dup_lt := hcnt ▸ h.dup_lt
  counted := by rw [hcnt, hseen]; exact h.counted
  recent := by rw [hcnt, hseen, hwnd]; exact h.recent

theorem duplicates_cons {seen : List AckSeen} {n : Nat} {avail : U32} {a : AckSeen}
    (ha : a.Duplicate avail) (h : ∀ b ∈ seen.take n, b.Duplicate avail) :
    ∀ b ∈ (a :: seen).take (n + 1), b.Duplicate avail := by
  intro b hb
  rcases List.mem_cons.mp hb with rfl | hb
  · exact ha
  · exact h b hb

theorem sees_duplicate {c : BpfTcpConn} (hack : ev.ackSeq = c.sendUna)
    (hwnd : c.rxRemoteAvail = ev.scaledWnd) : (c.sees ev).Duplicate c.rxRemoteAvail := by
  have hacc : AckAccepted c ev.ackSeq := hack ▸ ackAccepted_sendUna c
  exact ⟨decide_eq_true hacc, decide_eq_false (not_not_intro hack), hwnd.symm⟩

theorem not_retreats {f f' : Flow} (hdrops : f'.cc.cntTxDrops = f.cc.cntTxDrops)
    (hrate : f'.cc.rate = f.cc.rate) (hnxt : f'.c.txNextSeq = f.c.txNextSeq)
    (hbuf : f'.c.bufCurrSeq = f.c.bufCurrSeq) (hpos : f'.c.txNextPos = f.c.txNextPos) :
    ¬ Retreats f f' := by
  simp [Retreats, hdrops, hrate, hnxt, hbuf, hpos]

/-! ## One event -/

section

variable {s : DupState}

theorem restarted {env : NetEnv} {f : Flow}
    (hstep : senderStep s.flow (.ack ev env) = f) (hzero : f.c.rxDupackCnt = 0#16)
    (hkeep : ¬ Retreats s.flow f) :
    DupInv (dupStep s (.ack ev env)) ∧ FastRetransmitOk s (.ack ev env) := by
  subst hstep
  exact ⟨.of_zero hzero, fun hback => absurd hback hkeep, fun _ _ => hzero⟩

theorem CountsDuplicates.of_rejected {env : NetEnv}
    (hok : CountsDuplicates s (.ack ev env)) (hrej : ¬ AckAccepted s.flow.c ev.ackSeq) :
    s.flow.c.rxDupackCnt = 0#16 := by
  have hack : ev.ackSeq ≠ s.flow.c.sendUna := fun heq => hrej (heq ▸ ackAccepted_sendUna _)
  simp only [CountsDuplicates] at hok
  rw [if_neg fun hthird => hack hthird.1, if_neg hack] at hok
  exact hok.resolve_left hrej

theorem DupInv.ack (h : DupInv s) {env : NetEnv} (hok : CountsDuplicates s (.ack ev env)) :
    DupInv (dupStep s (.ack ev env)) ∧ FastRetransmitOk s (.ack ev env) := by
  obtain ⟨c', cc', hstep, heff⟩ : ∃ c' cc', senderStep s.flow (.ack ev env) = ⟨c', cc'⟩ ∧
    AckEffect (s.flow.net ev env) c' cc' := ackStep_effect h.dup_lt ev env
  have hseen : (dupStep s (.ack ev env)).seen = s.flow.c.sees ev :: s.seen := rfl
  have hflow : (dupStep s (.ack ev env)).flow = senderStep s.flow (.ack ev env) := rfl
  cases heff with
  | ignored hrej _ =>
    exact restarted hstep (hok.of_rejected hrej) (not_retreats rfl rfl rfl rfl rfl)
  | stray hrej _ =>
    exact restarted hstep (hok.of_rejected hrej) (not_retreats rfl rfl rfl rfl rfl)
  | advanced hacc hnew =>
    have hcc := sampledCc_drops (s.flow.net ev env)
    exact restarted hstep rfl (not_retreats hcc.1 hcc.2 rfl rfl rfl)
  | duplicate hack hwnd hnext =>
    have hdup := sees_duplicate (c := s.flow.c) hack hwnd
    have hcnt : (senderStep s.flow (.ack ev env)).c.rxDupackCnt.toNat =
        s.flow.c.rxDupackCnt.toNat + 1 := by
      have hlt := h.dup_lt
      rw [hstep]
      change (s.flow.c.rxDupackCnt + 1#16).toNat = _
      bv_omega
    refine ⟨⟨dup_lt_step h.dup_lt (.ack ev env), ?_, ?_⟩, ?_, fun _ hno => absurd hdup hno⟩
    · rw [hflow, hcnt, hseen]
      exact Nat.succ_le_succ h.counted
    · rw [hflow, hcnt, hseen, hstep]
      exact duplicates_cons hdup h.recent
    · exact fun hback => absurd hback (by rw [hstep]; exact not_retreats rfl rfl rfl rfl rfl)
  | third hthird =>
    have hdup := sees_duplicate (c := s.flow.c) hthird.1 hthird.2.1
    have hthird' : ThirdDuplicate s.flow.c ev := hthird
    simp only [CountsDuplicates] at hok
    rw [if_pos hthird'] at hok
    -- the counter stood at two
    have htwo : s.flow.c.rxDupackCnt.toNat = 2 := by
      have hnext : s.flow.c.rxDupackCnt + 1#16 = 3#16 := hthird.2.2
      bv_omega
    have hrecent := h.recent
    have hcounted := h.counted
    rw [htwo] at hrecent hcounted
    refine ⟨.of_zero ?_, fun _ => ⟨hok, ?_, ?_⟩, fun _ hno => absurd hdup hno⟩
    · rw [hflow, hstep]
      exact goBackConn_rxDupackCnt _
    · rw [hseen]
      exact Nat.succ_le_succ hcounted
    · rw [hseen]
      exact duplicates_cons hdup hrecent
  | window hack hwnd =>
    have hack' : ev.ackSeq = s.flow.c.sendUna := hack
    simp only [CountsDuplicates] at hok
    rw [if_neg fun hthird => hwnd hthird.2.1, if_pos hack'] at hok
    exact restarted hstep (hok.resolve_left hwnd) (not_retreats rfl rfl rfl rfl rfl)

theorem DupInv.step (h : DupInv s) {e : SenderEvent} (hok : CountsDuplicates s e) :
    DupInv (dupStep s e) := by
  cases e with
  | send dataSize env =>
    refine h.congr ?_ ?_ rfl
    · simp only [dupStep, senderStep, SenderEvent.flow, flowStep, sendEp_c]
      rfl
    · simp only [dupStep, senderStep, SenderEvent.flow, flowStep, sendEp_c]
      rfl
  | ack ev env => exact (h.ack hok).1
  | timeout env =>
    by_cases hidle : s.flow.c.txNextSeq = s.flow.c.sendUna
    · have hsame : (dupStep s (.timeout env)).flow.c = s.flow.c :=
        ackTimeoutXdpEp_c_of_idle hidle
      exact h.congr (by rw [hsame]) (by rw [hsame]) rfl
    · -- the timeout clears the counter
      have hback : (dupStep s (.timeout env)).flow.c =
          goBackConn (resetConn { s.flow.c with rxDupackCnt := 0#16 }) :=
        ackTimeoutXdpEp_c_of_outstanding hidle
      exact .of_zero (by rw [hback]; exact goBackConn_rxDupackCnt _)

end

/-! ## Runs -/

/-- **Fast retransmission happens as it should in every run whose ACKs meet the condition.** -/
theorem fastRetransmitOk_of_counts {f : Flow} (hcnt : f.c.rxDupackCnt = 0#16)
    (es : List SenderEvent) (hok : Meets dupStep CountsDuplicates { flow := f, seen := [] } es) :
    Meets dupStep FastRetransmitOk { flow := f, seen := [] } es := by
  refine meets_of_inv (fun _ _ h he => DupInv.step h he) ?_ (DupInv.of_zero hcnt) hok
  intro s e h he
  cases e with
  | send dataSize env => trivial
  | ack ev env => exact (h.ack he).2
  | timeout env => trivial

def windowFlow : Flow :=
  { (default : Flow) with c := { (default : BpfTcpConn) with
      txBufSize := 2048, rxRemoteAvail := 1000 } }

def repeatedAck : SenderEvent := .ack { (default : NetEvent) with rwndSize := 125 } default

theorem fastRetransmitOk_at :
    Meets dupStep FastRetransmitOk { flow := windowFlow, seen := [] }
      [.send 500 default, repeatedAck, repeatedAck, repeatedAck] :=
  fastRetransmitOk_of_counts rfl _ (by decide)

/-- Three ACKs of an idle connection: a drop is counted and the rate halved. -/
theorem idle_retransmission :
    ¬ Meets dupStep FastRetransmitOk { flow := windowFlow, seen := [] }
      [repeatedAck, repeatedAck, repeatedAck] := by
  rintro ⟨-, -, hthird, -⟩
  exact absurd (hthird.1 (Or.inl (by decide))).1 (by decide)

end MtpXdp.Ebpf

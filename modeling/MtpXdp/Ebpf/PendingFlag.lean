import MtpXdp.Ebpf.SenderEffects

/-!
# The Flag of Pending Transmissions

`cc->txp` tells the control plane that data is outstanding. `fast_retr_rec_ep` computes the flag
before `ack_net_ep` moves `send_una`, so that the ACK for the last outstanding byte leaves it set. A
rejected ACK can also make it wrong, when the count left in `int_out` moves `send_una`.
-/

namespace MtpXdp.Ebpf

open MtpXdp.Core

def PendingAccurate (f : Flow) : Prop := f.cc.txp ≠ 0#32 ↔ f.c.txNextSeq ≠ f.c.sendUna
deriving Decidable

/-- An accepted ACK leaves a byte outstanding, and a rejected one that moves `send_una` meets
    outstanding data. -/
def FlagOk (f : Flow) : SenderEvent → Prop
  | .send _ _ => True
  | .ack ev env =>
    if AckAccepted f.c ev.ackSeq then ¬ (ev.ackSeq = f.c.txNextSeq ∧ ev.ackSeq ≠ f.c.sendUna)
    else env.io.numAckedBytes = 0#32 ∨ f.c.txNextSeq ≠ f.c.sendUna
  | .timeout _ => True

instance (f : Flow) : (e : SenderEvent) → Decidable (FlagOk f e)
  | .ack .. => inferInstanceAs (Decidable (ite _ _ _))
  | .send .. | .timeout _ => .isTrue trivial

/-! ## What the flag says after a step -/

theorem txpOf_ne_zero_iff (c : BpfTcpConn) : txpOf c ≠ 0#32 ↔ c.txNextSeq ≠ c.sendUna := by
  unfold txpOf
  by_cases h : c.txNextSeq = c.sendUna <;> simp [h]

theorem PendingAccurate.of_txpOf {f : Flow} {c : BpfTcpConn} (htxp : f.cc.txp = txpOf c)
    (hnxt : f.c.txNextSeq = c.txNextSeq) (huna : f.c.sendUna = c.sendUna) : PendingAccurate f := by
  rw [PendingAccurate, htxp, hnxt, huna]
  exact txpOf_ne_zero_iff c

theorem PendingAccurate.of_reset (c : BpfTcpConn) (cc : BpfCc) :
    PendingAccurate { c := goBackConn (resetConn c), cc := resetCc cc } := by
  have hkeep : (goBackConn (resetConn c)).txNextSeq = (resetConn c).txNextSeq ∧
      (goBackConn (resetConn c)).sendUna = c.sendUna := by
    unfold goBackConn
    split <;> exact ⟨rfl, rfl⟩
  have hnone : (resetConn c).txNextSeq = c.sendUna := by
    simp only [resetConn]
    bv_omega
  simp [PendingAccurate, resetCc, hkeep.1, hkeep.2, hnone]

/-! ## One event -/

section

variable {f : Flow}

private theorem pendingAccurate_ack_iff (h : PendingAccurate f) (hdup : f.c.rxDupackCnt < 3#16)
    (ev : NetEvent) (env : NetEnv) :
    PendingAccurate (senderStep f (.ack ev env)) ↔ FlagOk f (.ack ev env) := by
  obtain ⟨c', cc', hstep, heff⟩ := ackStep_effect hdup ev env
  rw [senderStep, SenderEvent.flow, hstep]
  -- an ACK for nothing new meets the condition
  have hquiet (hack : ev.ackSeq = f.c.sendUna) : FlagOk f (.ack ev env) := by
    have hself : AckAccepted f.c ev.ackSeq := hack ▸ ackAccepted_sendUna f.c
    rw [FlagOk, if_pos hself]
    exact fun hlast => hlast.2 hack
  cases heff with
  | ignored hrej hnum =>
    have hrej' : ¬ AckAccepted f.c ev.ackSeq := hrej
    rw [FlagOk, if_neg hrej']
    exact iff_of_true h (Or.inl hnum)
  | stray hrej hnum =>
    have hrej' : ¬ AckAccepted f.c ev.ackSeq := hrej
    have hnum' : env.io.numAckedBytes ≠ 0#32 := hnum
    -- `tx_next_seq` would have been acceptable, so `send_una` has moved away from it
    have hmoved : f.c.txNextSeq ≠ ev.ackSeq := by
      intro heq
      exact hrej' (heq ▸ Nat.le_refl _)
    rw [FlagOk, if_neg hrej']
    simp only [hnum', false_or]
    exact Iff.trans ⟨fun hacc => hacc.mpr hmoved, fun htxp => iff_of_true htxp hmoved⟩ h
  | advanced hacc hnew =>
    have hacc' : AckAccepted f.c ev.ackSeq := hacc
    have hnew' : ev.ackSeq ≠ f.c.sendUna := hnew
    -- the flag still speaks of the connection before the ACK, which had data outstanding
    have hout : f.c.txNextSeq ≠ f.c.sendUna := by
      intro heq
      have hle : ahead f.c.sendUna ev.ackSeq ≤ ahead f.c.sendUna f.c.txNextSeq := hacc'
      rw [heq, ahead_self] at hle
      exact hnew' (ahead_eq_zero_iff.mp (Nat.le_zero.mp hle))
    have hset : (sampledCc (f.net ev env)).txp ≠ 0#32 := by
      rw [sampledCc_txp]
      exact (txpOf_ne_zero_iff f.c).mpr hout
    rw [FlagOk, if_pos hacc']
    simp only [hnew', ne_eq, not_false_eq_true, and_true]
    constructor
    · intro hacc hlast
      exact hacc.mp hset hlast.symm
    · intro hlast
      exact iff_of_true hset (Ne.symm hlast)
  | duplicate hack => exact iff_of_true (.of_txpOf (c := f.c) rfl rfl rfl) (hquiet hack)
  | third hthird => exact iff_of_true (.of_reset _ _) (hquiet hthird.1)
  | window hack => exact iff_of_true (.of_txpOf (c := f.c) rfl rfl rfl) (hquiet hack)

theorem pendingAccurate_step_iff (h : PendingAccurate f) (hdup : f.c.rxDupackCnt < 3#16)
    (e : SenderEvent) : PendingAccurate (senderStep f e) ↔ FlagOk f e := by
  cases e with
  | send dataSize env =>
    apply iff_of_true _ trivial
    apply PendingAccurate.of_txpOf (c := (senderStep f (.send dataSize env)).c) _ rfl rfl
    simp only [senderStep, SenderEvent.flow, flowStep, sendEp_cc]
  | ack ev env => exact pendingAccurate_ack_iff h hdup ev env
  | timeout env =>
    apply iff_of_true _ trivial
    simp only [senderStep, SenderEvent.flow, flowStep]
    by_cases hidle : f.c.txNextSeq = f.c.sendUna
    · rw [ackTimeoutXdpEp_c_of_idle hidle, ackTimeoutXdpEp_cc_of_idle hidle]
      exact h
    · rw [ackTimeoutXdpEp_c_of_outstanding hidle, ackTimeoutXdpEp_cc_of_outstanding hidle]
      exact .of_reset _ _

end

/-! ## Runs -/

/-- **The flag is right in every state of a run precisely when all its events meet the
    condition.** -/
theorem pendingAccurate_always_iff {f : Flow} (h : PendingAccurate f)
    (hdup : f.c.rxDupackCnt < 3#16) (es : List SenderEvent) :
    Always senderStep PendingAccurate f es ↔ Meets senderStep FlagOk f es := by
  -- the invariant of the run: the flag is right and the counter below three
  have hkeep (f : Flow) (e : SenderEvent) (hinv : PendingAccurate f ∧ f.c.rxDupackCnt < 3#16)
      (_ : True) (hok : FlagOk f e) :
      PendingAccurate (senderStep f e) ∧ (senderStep f e).c.rxDupackCnt < 3#16 :=
    ⟨(pendingAccurate_step_iff hinv.1 hinv.2 e).mpr hok, dup_lt_step hinv.2 e.flow⟩
  have hneed (f : Flow) (e : SenderEvent) (hinv : PendingAccurate f ∧ f.c.rxDupackCnt < 3#16)
      (_ : True) (hacc : PendingAccurate (senderStep f e)) : FlagOk f e :=
    (pendingAccurate_step_iff hinv.1 hinv.2 e).mp hacc
  exact always_iff_meets hkeep hneed (fun _ hinv => hinv.1) ⟨h, hdup⟩ meets_true

def ackNumbered (ack : U32) : SenderEvent :=
  .ack { (default : NetEvent) with ackSeq := ack } default

theorem pendingAccurate_always_at :
    Always senderStep PendingAccurate default
      [.send 100#32 default, ackNumbered 50#32, ackNumbered 50#32, .timeout default] :=
  (pendingAccurate_always_iff (by decide) (by decide) _).mpr (by decide)

/-- A hundred bytes are sent and all of them acknowledged: the flag stays set. -/
theorem pending_after_last_ack :
    ¬ Always senderStep PendingAccurate default [.send 100#32 default, ackNumbered 100#32] := by
  rintro ⟨-, -, hlast⟩
  exact absurd hlast.head (by decide)

end MtpXdp.Ebpf

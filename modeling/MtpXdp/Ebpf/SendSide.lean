import MtpXdp.Core.Ring
import MtpXdp.Ebpf.Flow

/-!
# The Sending Side

`tx_next_seq`, `buf_curr_seq` and `tx_next_pos` all describe the next byte to send. The connection
refines the abstract sender as long as no go-back happens while the outstanding bytes straddle the
wrap-around of the sequence space, where `mtp_pkt_gen_wrapper` compares `buf_curr_seq < send_una` as
plain numbers.
-/

namespace MtpXdp.Ebpf

open MtpXdp.Core BitVec Nat

variable {ack : U32} {c : BpfTcpConn} {f : Flow}

/-! ## The abstract sender -/

/-- Stream bytes acknowledged (`una`) and sent (`nxt`) from `s0`; a go-back makes bytes unsent. -/
structure Sender where
  s0 : U32
  una : Nat
  nxt : Nat

namespace Sender

def seq (g : Sender) (k : Nat) : U32 := g.s0 + BitVec.ofNat 32 k

def ackOffset (g : Sender) (ack : U32) : Nat := g.una + ahead (g.seq g.una) ack

def goBack (g : Sender) : Sender := { g with nxt := g.una }

def step (g : Sender) (c : BpfTcpConn) : FlowEvent → Sender
  | .send dataSize _ => { g with nxt := g.nxt + dataSize.toNat }
  | .ack ev _ => if ThirdDuplicate c ev then g.goBack else { g with una := g.ackOffset ev.ackSeq }
  | .data _ _ => g
  | .timeout _ => g.goBack

end Sender

structure SendState where
  flow : Flow
  snd : Sender

def sendStep (s : SendState) (e : FlowEvent) : SendState where
  flow := flowStep s.flow e
  snd := s.snd.step s.flow.c e

/-- A send leaves at most `tx_buf_size` bytes outstanding; an ACK acknowledges at most what was
    sent. -/
def SendDom (s : SendState) : FlowEvent → Prop
  | .send dataSize _ => s.snd.nxt + dataSize.toNat ≤ s.snd.una + s.flow.c.txBufSize.toNat
  | .ack ev _ => s.snd.ackOffset ev.ackSeq ≤ s.snd.nxt
  | .data _ _ => True
  | .timeout _ => True

instance (s : SendState) : (e : FlowEvent) → Decidable (SendDom s e)
  | .send .. | .ack .. => inferInstanceAs (Decidable (_ ≤ _))
  | .data .. | .timeout _ => .isTrue trivial

structure InSync (s : SendState) : Prop where
  una_le_nxt : s.snd.una ≤ s.snd.nxt
  sendUna : s.flow.c.sendUna = s.snd.seq s.snd.una
  txNextSeq : s.flow.c.txNextSeq = s.snd.seq s.snd.nxt
  bufCurrSeq : s.flow.c.bufCurrSeq = s.flow.c.txNextSeq
  pos_lt : s.flow.c.txNextPos.toNat < s.flow.c.txBufSize.toNat
  pos_eq : s.flow.c.txNextPos.toNat = s.snd.nxt % s.flow.c.txBufSize.toNat
  outstanding : ahead s.flow.c.sendUna s.flow.c.txNextSeq = s.snd.nxt - s.snd.una
  fits : s.snd.nxt - s.snd.una ≤ s.flow.c.txBufSize.toNat

/-- The condition on a step: when the sender goes back, `send_una` is not numerically above
    `buf_curr_seq`. -/
def GoBackUnwrapped (s : SendState) (e : FlowEvent) : Prop :=
  GoesBack s.flow.c e → s.flow.c.sendUna ≤ s.flow.c.bufCurrSeq

instance (s : SendState) (e : FlowEvent) : Decidable (GoBackUnwrapped s e) := by
  unfold GoBackUnwrapped
  infer_instance

/-- The inductive invariant: in sync, with a usable buffer and fewer than three recorded
    duplicates. -/
structure SendInv (s : SendState) : Prop extends InSync s where
  size_le : s.flow.c.txBufSize.toNat ≤ 2 ^ 31
  dup_lt : s.flow.c.rxDupackCnt < 3#16

/-! ## Sequence arithmetic of the abstract sender -/

section

variable (g : Sender)

theorem Sender.seq_add (k : Nat) (n : U32) : g.seq k + n = g.seq (k + n.toNat) := by
  simp [Sender.seq, add_assoc, ofNat_add]

theorem Sender.seq_ackOffset (ack : U32) : g.seq (g.ackOffset ack) = ack := by
  have h := add_ofNat_ahead (g.seq g.una) ack
  simp only [Sender.seq, Sender.ackOffset, ofNat_add, add_assoc] at h ⊢
  exact h

theorem Sender.ahead_seq {u n : Nat} (hle : u ≤ n) (hlt : n - u < 2 ^ 32) :
    ahead (g.seq u) (g.seq n) = n - u := by
  rw [Sender.seq, Sender.seq, ahead_add_ofNat g.s0 hle, mod_eq_of_lt hlt]

end

theorem ackAccepted_of_dom {s : SendState} (h : InSync s)
    (hdom : s.snd.ackOffset ack ≤ s.snd.nxt) : AckAccepted s.flow.c ack := by
  rw [AckAccepted, h.outstanding, h.sendUna]
  unfold Sender.ackOffset at hdom
  omega

/-! ## Position bookkeeping -/

theorem toNat_txNextPos_advanceBuf {n : U32} (h : c.txNextPos.toNat + n.toNat < 2 ^ 32) :
    (advanceBuf c n).txNextPos.toNat = advancePos c.txBufSize.toNat c.txNextPos.toNat n.toNat := by
  have hsum : (c.txNextPos + n).toNat = c.txNextPos.toNat + n.toNat := by
    rw [toNat_add, mod_eq_of_lt h]
  unfold advanceBuf advancePos
  dsimp only
  by_cases hwrap : c.txBufSize ≤ c.txNextPos + n
  · rw [if_pos hwrap, toNat_sub_of_le hwrap, hsum]
    rw [le_def, hsum] at hwrap
    rw [if_pos hwrap]
  · rw [if_neg hwrap, hsum]
    rw [le_def, hsum] at hwrap
    rw [if_neg hwrap]

theorem toNat_txNextPos_rewindBuf {seqNum : U32}
    (h : ahead seqNum c.bufCurrSeq ≤ c.txBufSize.toNat) : (rewindBuf c seqNum).txNextPos.toNat =
      rewindPos c.txBufSize.toNat c.txNextPos.toNat (ahead seqNum c.bufCurrSeq) := by
  unfold rewindBuf rewindPos
  dsimp only
  have hgb : (c.bufCurrSeq - seqNum).toNat = ahead seqNum c.bufCurrSeq := rfl
  by_cases hle : c.bufCurrSeq - seqNum ≤ c.txNextPos
  · rw [if_pos hle, toNat_sub_of_le hle, hgb]
    rw [le_def, hgb] at hle
    rw [if_pos hle]
  · -- back across the start of the buffer; `h` keeps both subtractions from wrapping
    rw [if_neg hle]
    have hlt : c.txNextPos < c.bufCurrSeq - seqNum := BitVec.not_le.mp hle
    have hback : (c.bufCurrSeq - seqNum - c.txNextPos).toNat =
        ahead seqNum c.bufCurrSeq - c.txNextPos.toNat := by
      rw [toNat_sub_of_le (BitVec.le_of_lt hlt), hgb]
    have hsub : c.bufCurrSeq - seqNum - c.txNextPos ≤ c.txBufSize := by
      rw [le_def, hback]
      omega
    rw [toNat_sub_of_le hsub, hback]
    rw [le_def, hgb] at hle
    rw [if_neg hle]

/-! ## Going back -/

structure WentBack (c c' : BpfTcpConn) : Prop where
  sendUna : c'.sendUna = c.sendUna
  txNextSeq : c'.txNextSeq = c.sendUna
  bufCurrSeq : c'.bufCurrSeq = c.sendUna
  txNextPos : c'.txNextPos = (rewindBuf c c.sendUna).txNextPos
  txBufSize : c'.txBufSize = c.txBufSize
  rxDupackCnt : c'.rxDupackCnt = 0#16

def resetAndGoBack (c : BpfTcpConn) : BpfTcpConn :=
  goBackConn (resetConn { c with rxDupackCnt := 0#16 })

theorem wentBack_resetAndGoBack (h : c.sendUna ≤ c.bufCurrSeq) : WentBack c (resetAndGoBack c) := by
  have hnlt : ¬ c.bufCurrSeq < c.sendUna := BitVec.not_lt.mpr h
  have hgo : resetAndGoBack c =
      rewindBuf (resetConn { c with rxDupackCnt := 0#16 }) c.sendUna := if_neg hnlt
  rw [hgo]
  constructor <;> simp [rewindBuf, resetConn]

theorem resetAndGoBack_of_lt (h : c.bufCurrSeq < c.sendUna) :
    (resetAndGoBack c).bufCurrSeq ≠ (resetAndGoBack c).txNextSeq := by
  have hgo : resetAndGoBack c =
      advanceBuf (resetConn { c with rxDupackCnt := 0#16 }) 0#32 := if_pos h
  have hbuf : (resetAndGoBack c).bufCurrSeq = c.bufCurrSeq := by
    rw [hgo]
    simp [advanceBuf, resetConn]
  have hseq : (resetAndGoBack c).txNextSeq = c.sendUna := by
    rw [hgo]
    simp [advanceBuf, resetConn]
  rw [hbuf, hseq]
  exact BitVec.ne_of_lt h

theorem sendInv_of_wentBack {s : SendState} (h : SendInv s)
    (hback : WentBack s.flow.c f.c) : SendInv { flow := f, snd := s.snd.goBack } := by
  have hsize : 0 < s.flow.c.txBufSize.toNat := lt_of_le_of_lt (zero_le _) h.pos_lt
  have hgb : ahead s.flow.c.sendUna s.flow.c.bufCurrSeq = s.snd.nxt - s.snd.una := by
    rw [h.bufCurrSeq, h.outstanding]
  have hpos : f.c.txNextPos.toNat = s.snd.una % s.flow.c.txBufSize.toNat := by
    rw [hback.txNextPos, toNat_txNextPos_rewindBuf (hgb ▸ h.fits), hgb,
      rewindPos_eq_mod hsize h.pos_eq h.fits (Nat.sub_le _ _), Nat.sub_sub_self h.una_le_nxt]
  exact {
    una_le_nxt := le_refl _
    sendUna := hback.sendUna.trans h.sendUna
    txNextSeq := hback.txNextSeq.trans h.sendUna
    bufCurrSeq := hback.bufCurrSeq.trans hback.txNextSeq.symm
    pos_lt := by
      rw [hpos, hback.txBufSize]
      exact mod_lt _ hsize
    pos_eq := by rw [hpos, hback.txBufSize]; rfl
    outstanding := by
      rw [hback.sendUna, hback.txNextSeq, ahead_self]
      exact (Nat.sub_self _).symm
    fits := by
      exact (Nat.sub_self s.snd.una).symm ▸ Nat.zero_le _
    size_le := by rw [hback.txBufSize]; exact h.size_le
    dup_lt := by rw [hback.rxDupackCnt]; decide }

/-! ## One step -/

section

variable {s : SendState}

theorem sendInv_of_txPart (h : SendInv s) (hpart : f.c.txPart = s.flow.c.txPart) :
    SendInv { flow := f, snd := s.snd } := by
  simp only [BpfTcpConn.txPart, TxPart.mk.injEq] at hpart
  obtain ⟨hseq, huna, hbuf, hpos, hsize, hdup⟩ := hpart
  obtain ⟨⟨h1, h2, h3, h4, h5, h6, h7, h8⟩, h9, h10⟩ := h
  rw [← hseq] at h3 h4 h7
  rw [← huna] at h2 h7
  rw [← hbuf] at h4
  rw [← hpos] at h5 h6
  rw [← hsize] at h5 h6 h8 h9
  rw [← hdup] at h10
  exact ⟨⟨h1, h2, h3, h4, h5, h6, h7, h8⟩, h9, h10⟩

theorem sendInv_send (h : SendInv s) (dataSize : U32) (env : EgressEnv)
    (hdom : SendDom s (.send dataSize env)) : SendInv (sendStep s (.send dataSize env)) := by
  have hfit : s.snd.nxt + dataSize.toNat ≤ s.snd.una + s.flow.c.txBufSize.toNat := hdom
  have hsize : 0 < s.flow.c.txBufSize.toNat := lt_of_le_of_lt (zero_le _) h.pos_lt
  have hle := h.una_le_nxt
  have hn : dataSize.toNat ≤ s.flow.c.txBufSize.toNat := by omega
  -- at most two buffers of at most `2 ^ 31` bytes
  have hnowrap : s.flow.c.txNextPos.toNat + dataSize.toNat < 2 ^ 32 := by
    have := h.pos_lt
    have := h.size_le
    omega
  have hseq : s.flow.c.txNextSeq + dataSize = s.snd.seq (s.snd.nxt + dataSize.toNat) := by
    rw [h.txNextSeq, Sender.seq_add]
  have hpos : (advanceBuf s.flow.c dataSize).txNextPos.toNat =
      (s.snd.nxt + dataSize.toNat) % s.flow.c.txBufSize.toNat := by
    rw [toNat_txNextPos_advanceBuf hnowrap, advancePos_eq_mod hsize h.pos_eq hn]
  exact {
    una_le_nxt := le_add_right_of_le hle
    sendUna := h.sendUna
    txNextSeq := hseq
    bufCurrSeq := congrArg (· + dataSize) h.bufCurrSeq
    pos_lt := hpos ▸ mod_lt _ hsize
    pos_eq := hpos
    outstanding := by
      change ahead s.flow.c.sendUna (s.flow.c.txNextSeq + dataSize) = _
      rw [hseq, h.sendUna]
      exact Sender.ahead_seq _ (by omega) (by omega)
    fits := by
      change s.snd.nxt + dataSize.toNat - s.snd.una ≤ s.flow.c.txBufSize.toNat
      omega
    size_le := h.size_le
    dup_lt := h.dup_lt }

theorem sendInv_acked (h : SendInv s) {k : Nat} (hlo : s.snd.una ≤ k)
    (hhi : k ≤ s.snd.nxt) (huna : f.c.sendUna = s.snd.seq k)
    (hrest : f.c.txNextSeq = s.flow.c.txNextSeq ∧ f.c.bufCurrSeq = s.flow.c.bufCurrSeq ∧
      f.c.txNextPos = s.flow.c.txNextPos ∧ f.c.txBufSize = s.flow.c.txBufSize)
    (hdup : f.c.rxDupackCnt < 3#16) :
    SendInv { flow := f, snd := { s.snd with una := k } } := by
  obtain ⟨hseq, hbuf, hpos, hsize⟩ := hrest
  have hfits := h.fits
  exact {
    una_le_nxt := hhi
    sendUna := huna
    txNextSeq := hseq.trans h.txNextSeq
    bufCurrSeq := by rw [hbuf, hseq, h.bufCurrSeq]
    pos_lt := by rw [hpos, hsize]; exact h.pos_lt
    pos_eq := by rw [hpos, hsize]; exact h.pos_eq
    outstanding := by
      rw [huna, hseq, h.txNextSeq]
      exact Sender.ahead_seq _ hhi (by omega)
    fits := by
      rw [hsize]
      change s.snd.nxt - k ≤ _
      omega
    size_le := by rw [hsize]; exact h.size_le
    dup_lt := hdup }

theorem ackOffset_of_duplicate (h : InSync s) (hack : ack = s.flow.c.sendUna) :
    s.snd.ackOffset ack = s.snd.una := by
  rw [hack, h.sendUna, Sender.ackOffset, ahead_self, add_zero]

theorem sendInv_nothingAcked (h : SendInv s) (hack : ack = s.flow.c.sendUna)
    (huna : f.c.sendUna = s.flow.c.sendUna)
    (hrest : f.c.txNextSeq = s.flow.c.txNextSeq ∧ f.c.bufCurrSeq = s.flow.c.bufCurrSeq ∧
      f.c.txNextPos = s.flow.c.txNextPos ∧ f.c.txBufSize = s.flow.c.txBufSize)
    (hdup : f.c.rxDupackCnt < 3#16) :
    SendInv { flow := f, snd := { s.snd with una := s.snd.ackOffset ack } } := by
  have hsame : s.snd.ackOffset ack = s.snd.una := ackOffset_of_duplicate h.toInSync hack
  rw [hsame]
  exact sendInv_acked h (le_refl _) h.una_le_nxt (huna.trans h.sendUna) hrest hdup

theorem sendInv_ack (h : SendInv s) (ev : NetEvent) (env : NetEnv)
    (hdom : SendDom s (.ack ev env)) (hok : GoBackUnwrapped s (.ack ev env)) :
    SendInv (sendStep s (.ack ev env)) := by
  have hacc : AckAccepted s.flow.c ev.ackSeq := ackAccepted_of_dom h.toInSync hdom
  have hlo : s.snd.una ≤ s.snd.ackOffset ev.ackSeq := le_add_right _ _
  have hseq := s.snd.seq_ackOffset ev.ackSeq
  have hout := ackOutcome (s.flow.net ev env)
  have hconn : (flowStep s.flow (.ack ev env)).c = (ackChain (s.flow.net ev env)).c := rfl
  unfold sendStep
  generalize flowStep s.flow (.ack ev env) = f at hconn ⊢
  rw [← hconn] at hout
  generalize hf : f.c = c' at hout
  cases hout with
  -- the run's ACKs are acceptable, so the two rejecting cases do not arise
  | ignored hrej _ _ => exact absurd hacc hrej
  | stray hrej _ _ => exact absurd hacc hrej
  | stale hdup _ =>
    -- the invariant keeps the counter below three between events
    have hlt : s.flow.c.rxDupackCnt < 3#16 := h.dup_lt
    rw [show s.flow.c.rxDupackCnt = 3#16 from hdup] at hlt
    exact absurd hlt (by decide)
  | advanced _ hnew =>
    have hnot : ¬ ThirdDuplicate s.flow.c ev := fun h3 => hnew h3.1
    rw [Sender.step, if_neg hnot]
    refine sendInv_acked h hlo hdom ?_ ?_ ?_
    · rw [hf, hseq]
      rfl
    · rw [hf]
      exact ⟨rfl, rfl, rfl, rfl⟩
    · rw [hf]
      exact (by decide : 0#16 < 3#16)
  | duplicate hack hwnd hdup =>
    have hnot : ¬ ThirdDuplicate s.flow.c ev := fun h3 => hdup h3.2.2
    rw [Sender.step, if_neg hnot]
    refine sendInv_nothingAcked h hack ?_ ?_ ?_
    · rw [hf]
      rfl
    · rw [hf]
      exact ⟨rfl, rfl, rfl, rfl⟩
    · rw [hf]
      have hlt : s.flow.c.rxDupackCnt < 3#16 := h.dup_lt
      have hne : s.flow.c.rxDupackCnt + 1#16 ≠ 3#16 := hdup
      change s.flow.c.rxDupackCnt + 1#16 < 3#16
      bv_omega
  | third hack hwnd hdup =>
    have hthird : ThirdDuplicate s.flow.c ev := ⟨hack, hwnd, hdup⟩
    rw [Sender.step, if_pos hthird]
    refine sendInv_of_wentBack h ?_
    rw [hf]
    exact wentBack_resetAndGoBack (hok hthird)
  | window hack hwnd hdup =>
    have hnot : ¬ ThirdDuplicate s.flow.c ev := fun h3 => hwnd h3.2.1
    rw [Sender.step, if_neg hnot]
    refine sendInv_nothingAcked h hack ?_ ?_ ?_
    · rw [hf]
      rfl
    · rw [hf]
      exact ⟨rfl, rfl, rfl, rfl⟩
    · rw [hf]
      exact h.dup_lt

theorem sendInv_timeout (h : SendInv s) (env : EgressEnv)
    (hok : GoBackUnwrapped s (.timeout env)) : SendInv (sendStep s (.timeout env)) := by
  by_cases hidle : s.flow.c.txNextSeq = s.flow.c.sendUna
  · -- nothing is outstanding, so the abstract sender has nothing to take back either
    have hconn : (flowStep s.flow (.timeout env)).c = s.flow.c := ackTimeoutXdpEp_c_of_idle hidle
    have hback : s.snd.goBack = s.snd := by
      have hout := h.outstanding
      have hle := h.una_le_nxt
      rw [hidle, ahead_self] at hout
      have heq : s.snd.una = s.snd.nxt := by omega
      exact congrArg (Sender.mk s.snd.s0 s.snd.una) heq
    unfold sendStep Sender.step
    rw [hback]
    exact sendInv_of_txPart h (congrArg BpfTcpConn.txPart hconn)
  · -- the condition excludes the wrapper's segmenting half
    have hconn : (flowStep s.flow (.timeout env)).c = resetAndGoBack s.flow.c :=
      ackTimeoutXdpEp_c_of_outstanding hidle
    exact sendInv_of_wentBack h (hconn ▸ wentBack_resetAndGoBack (hok hidle))

theorem sendStep_sendInv (s : SendState) (e : FlowEvent) (h : SendInv s) (hdom : SendDom s e)
    (hok : GoBackUnwrapped s e) : SendInv (sendStep s e) := by
  cases e with
  | send dataSize env => exact sendInv_send h dataSize env hdom
  | ack ev env => exact sendInv_ack h ev env hdom hok
  | data ev env => exact sendInv_of_txPart h (dataChain_txPart _)
  | timeout env => exact sendInv_timeout h env hok

theorem flowStep_c_of_thirdDuplicate {ev : NetEvent} (env : NetEnv)
    (h : ThirdDuplicate f.c ev) : (flowStep f (.ack ev env)).c = resetAndGoBack f.c := by
  obtain ⟨hack, hwnd, hdup⟩ := h
  have hout := ackOutcome (f.net ev env)
  have hconn : (flowStep f (.ack ev env)).c = (ackChain (f.net ev env)).c := rfl
  rw [hconn]
  generalize (ackChain (f.net ev env)).c = c' at hout ⊢
  cases hout with
  | ignored hrej _ _ => exact absurd (hack ▸ ackAccepted_sendUna f.c) hrej
  | stray hrej _ _ => exact absurd (hack ▸ ackAccepted_sendUna f.c) hrej
  | stale hdup3 _ =>
    rw [show f.c.rxDupackCnt = 3#16 from hdup3] at hdup
    exact absurd hdup (by decide)
  | advanced _ hnew => exact absurd hack hnew
  | duplicate _ _ hne => exact absurd hdup hne
  | third _ _ _ => rfl
  | window _ hne _ => exact absurd hwnd hne

theorem goBackUnwrapped_of_inSync (s : SendState) (e : FlowEvent) (h : InSync (sendStep s e)) :
    GoBackUnwrapped s e := by
  intro hgo
  by_contra hlt
  -- whichever event goes back, it leaves the same connection behind
  have hlt' : s.flow.c.bufCurrSeq < s.flow.c.sendUna := BitVec.not_le.mp hlt
  have hconn : (flowStep s.flow e).c = resetAndGoBack s.flow.c := by
    cases e with
    | send _ _ => exact hgo.elim
    | ack ev env => exact flowStep_c_of_thirdDuplicate env hgo
    | data _ _ => exact hgo.elim
    | timeout env => exact ackTimeoutXdpEp_c_of_outstanding hgo
  have hsync : (flowStep s.flow e).c.bufCurrSeq = (flowStep s.flow e).c.txNextSeq := h.bufCurrSeq
  rw [hconn] at hsync
  exact resetAndGoBack_of_lt hlt' hsync

end

/-! ## Runs -/

/-- A connection as `reg_tcp_conn_ebpf` sets up its sending side. -/
structure FreshTx (c : BpfTcpConn) (s0 : U32) : Prop where
  txNextSeq : c.txNextSeq = s0
  sendUna : c.sendUna = s0
  bufCurrSeq : c.bufCurrSeq = s0
  txNextPos : c.txNextPos = 0#32
  rxDupackCnt : c.rxDupackCnt = 0#16
  size_pos : 0 < c.txBufSize.toNat
  size_le : c.txBufSize.toNat ≤ 2 ^ 31

theorem sendInv_fresh {s0 : U32} (h : FreshTx f.c s0) :
    SendInv { flow := f, snd := { s0 := s0, una := 0, nxt := 0 } } where
  una_le_nxt := le_refl _
  sendUna := by simp [Sender.seq, h.sendUna]
  txNextSeq := by simp [Sender.seq, h.txNextSeq]
  bufCurrSeq := by rw [h.bufCurrSeq, h.txNextSeq]
  pos_lt := by simpa [h.txNextPos] using h.size_pos
  pos_eq := by simp [h.txNextPos]
  outstanding := by simp [h.sendUna, h.txNextSeq]
  fits := zero_le _
  size_le := h.size_le
  dup_lt := by rw [h.rxDupackCnt]; decide

/-- **Sequence numbers and positions are in sync** precisely when no go-back finds `buf_curr_seq`
    numerically below `send_una`. -/
theorem inSync_always_iff {f : Flow} {s0 : U32} (hfresh : FreshTx f.c s0) (es : List FlowEvent)
    (hdom : Meets sendStep SendDom
      { flow := f, snd := { s0 := s0, una := 0, nxt := 0 } } es) :
    Always sendStep InSync { flow := f, snd := { s0 := s0, una := 0, nxt := 0 } } es ↔
      Meets sendStep GoBackUnwrapped
        { flow := f, snd := { s0 := s0, una := 0, nxt := 0 } } es :=
  always_iff_meets (fun s e => sendStep_sendInv s e)
    (fun s e _ _ => goBackUnwrapped_of_inSync s e) (fun _ h => h.toInSync)
    (sendInv_fresh hfresh) hdom

def freshFlow (s0 : U32) : Flow :=
  { (default : Flow) with c := { (default : BpfTcpConn) with
      txBufSize := 2048, txNextSeq := s0, sendUna := s0, bufCurrSeq := s0 } }

theorem freshTx_freshFlow (s0 : U32) : FreshTx (freshFlow s0).c s0 := by
  constructor <;> simp [freshFlow] <;> rfl

theorem inSync_always_at :
    Always sendStep InSync { flow := freshFlow 7, snd := { s0 := 7, una := 0, nxt := 0 } }
      [.send 1000 default, .send 500 default,
       .ack { (default : NetEvent) with ackSeq := 607 } default, .timeout default] :=
  (inSync_always_iff (freshTx_freshFlow 7) _ (by decide)).mpr (by decide)

/-- Initial sequence number `2 ^ 32 - 100`, 200 bytes sent across the wrap-around, then three
    duplicate ACKs. -/
def wrapRun : List FlowEvent :=
  .send 200 default ::
    List.replicate 3 (.ack { (default : NetEvent) with ackSeq := 4294967196 } default)

/-- At the third duplicate `tx_next_seq` returns to `send_una` but `buf_curr_seq` stays at 100. -/
theorem inSync_fails_at_wrap :
    FreshTx (freshFlow 4294967196).c 4294967196 ∧
    Meets sendStep SendDom
      { flow := freshFlow 4294967196, snd := { s0 := 4294967196, una := 0, nxt := 0 } } wrapRun ∧
    ¬ Always sendStep InSync
      { flow := freshFlow 4294967196, snd := { s0 := 4294967196, una := 0, nxt := 0 } }
        wrapRun := by
  refine ⟨freshTx_freshFlow _, by decide, ?_⟩
  intro h
  exact absurd h.2.2.2.2.bufCurrSeq (by decide)

end MtpXdp.Ebpf

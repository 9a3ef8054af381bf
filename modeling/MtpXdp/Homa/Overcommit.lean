import MtpXdp.Homa.GrantRound

/-!
# The Overcommitment Bound of a Grant Round

A round computes what is left of `Homa_max_incoming` from `total_incoming`, which it updates only
when it ends. Each of its RPCs is therefore offered the same bytes.
-/

namespace MtpXdp.Homa

open Ebpf (U32 U64)
open List BitVec

variable {available : U32}

/-! ## Offering the same bytes to several takers -/

section

variable {h : Nat}

theorem sum_map_min_eq_sum {l : List Nat} (hlt : (l.map (min · h)).sum < h) :
    (l.map (min · h)).sum = l.sum := by
  induction l with
  | nil => rfl
  | cons a l ih =>
    simp only [map_cons, sum_cons] at hlt ⊢
    omega

theorem sum_map_min_le_sum (l : List Nat) : (l.map (min · h)).sum ≤ l.sum := by
  induction l with
  | nil => exact le_rfl
  | cons a l ih =>
    simp only [map_cons, sum_cons]
    omega

theorem length_filter_pos_eq_zero_iff (l : List Nat) :
    (l.filter (0 < ·)).length = 0 ↔ l.sum = 0 := by
  induction l with
  | nil => simp
  | cons a l ih =>
    rcases Nat.eq_zero_or_pos a with rfl | ha
    · simpa using ih
    · rw [filter_cons_of_pos (by simpa using ha), length_cons, sum_cons]
      omega

theorem sum_map_min_le_iff (hpos : 0 < h) (l : List Nat) :
    (l.map (min · h)).sum ≤ h ↔ l.sum ≤ h ∨ (l.filter (0 < ·)).length ≤ 1 := by
  induction l with
  | nil => simp
  | cons a l ih =>
    rcases Nat.eq_zero_or_pos a with rfl | ha
    · simpa using ih
    · rw [filter_cons_of_pos (by simpa using ha), map_cons, sum_cons, sum_cons, length_cons]
      have hle := sum_map_min_le_sum (h := h) l
      have hzero := length_filter_pos_eq_zero_iff l
      rcases Nat.eq_zero_or_pos (l.map (min · h)).sum with hsum | hsum
      · -- nobody else takes anything
        have : l.sum = 0 := by
          rw [← sum_map_min_eq_sum (h := h) (by omega)]
          exact hsum
        omega
      · -- somebody else does, so this one's lack is below the offer, and so is everybody's
        constructor
        · intro hall
          have := sum_map_min_eq_sum (h := h) (l := l) (by omega)
          omega
        · intro hall
          omega

end

/-! ## What a round adds -/

def lack (n : RpcStateCc) : Nat := (windowOffset n - n.incoming).toNat

def roundVisits (available : U32) : Nat → RoundState → List RpcStateCc
  | 0, _ => []
  | k + 1, st =>
    match st.next with
    | none => []
    | some (a, n) => n :: roundVisits available k (roundStep available st a n)

theorem toNat_availableBytes {total : U64} (h : total.toNat ≤ homaMaxIncoming.toNat) :
    (availableBytes total).toNat = homaMaxIncoming.toNat - total.toNat := by
  have : homaMaxIncoming.toNat = 480000 := rfl
  have hwide : (homaMaxIncoming.setWidth 64 : U64).toNat = 480000 := rfl
  unfold availableBytes
  rw [toNat_setWidth, toNat_sub_of_le (by rw [le_def, hwide]; omega), hwide]
  omega

theorem slt_zero_iff (hav : 2 * available.toNat < 2 ^ 32) :
    (0#32).slt available = true ↔ 0 < available.toNat := by
  have hint : available.toInt = available.toNat := toInt_eq_toNat_of_lt hav
  simp [BitVec.slt, hint]

def incrementOf (available : U32) (n : RpcStateCc) : U32 :=
  (grantOf available n).elim 0#32 Prod.snd

theorem toNat_offer {available inc : U32} (hav : 2 * available.toNat < 2 ^ 32) :
    (if 0#32 < inc ∧ (0#32).slt available = true then if available < inc then available else inc
      else 0#32).toNat = min inc.toNat available.toNat := by
  simp only [slt_zero_iff hav, lt_def, toNat_ofNat, Nat.zero_mod]
  split_ifs with h1 h2
  · exact (Nat.min_eq_right h2.le).symm
  · exact (Nat.min_eq_left (Nat.le_of_not_lt h2)).symm
  · -- either nothing is lacking or nothing is available
    simp only [toNat_ofNat]
    omega

theorem toNat_incrementOf (hav : 2 * available.toNat < 2 ^ 32)
    (n : RpcStateCc) : (incrementOf available n).toNat = min (lack n) available.toNat := by
  rw [lack, ← toNat_offer hav]
  unfold incrementOf grantOf
  dsimp only
  split_ifs <;> rfl

theorem totalIncrement_roundStep (available : U32) (st : RoundState) (a : Nat) (n : RpcStateCc) :
    (roundStep available st a n).totalIncrement = st.totalIncrement + incrementOf available n := by
  unfold roundStep incrementOf
  cases grantOf available n with
  | none => exact (BitVec.add_zero _).symm
  | some g => rfl

theorem toNat_totalIncrement_roundLoop (hav : 2 * available.toNat < 2 ^ 32)
    (k : Nat) (st : RoundState) (hk : st.totalIncrement.toNat + k * available.toNat < 2 ^ 32) :
    (roundLoop available k st).totalIncrement.toNat = st.totalIncrement.toNat +
      (((roundVisits available k st).map lack).map (min · available.toNat)).sum := by
  induction k generalizing st with
  | zero => rfl
  | succ k ih =>
    unfold roundLoop roundVisits
    cases hnext : st.next with
    | none => rfl
    | some x =>
      obtain ⟨a, n⟩ := x
      have hmin := toNat_incrementOf hav n
      rw [Nat.succ_mul] at hk
      have hstep : (roundStep available st a n).totalIncrement.toNat =
          st.totalIncrement.toNat + (incrementOf available n).toNat := by
        rw [totalIncrement_roundStep, toNat_add_of_lt (by omega)]
      simp only [map_cons, sum_cons]
      rw [ih _ (by rw [hstep]; omega), hstep, hmin, Nat.add_assoc]

/-! ## The bound -/

/-- The headroom suffices for what the visited RPCs lack, at most one lacks anything, or there is
    none. -/
def RoundFits (s : HomaState) (cpu : Nat) : Prop :=
  let headroom := homaMaxIncoming.toNat - s.totalIncoming.toNat
  let lacks := (roundVisits (availableBytes s.totalIncoming) homaOvercommitment
    (.start s cpu)).map lack
  headroom = 0 ∨ lacks.sum ≤ headroom ∨ (lacks.filter (0 < ·)).length ≤ 1

theorem totalIncoming_chooseRpcToGrantProg (s : HomaState) (cpu : Nat) :
    (chooseRpcToGrantProg s cpu true).1.totalIncoming =
      s.totalIncoming + (roundEnd s cpu).totalIncrement.setWidth 64 := by
  unfold chooseRpcToGrantProg
  rw [if_pos rfl]
  dsimp only
  split_ifs <;> rfl

/-- **Overcommitment.** A round ends within the bound exactly when it fits: the bytes left are
    offered to each RPC in full. -/
theorem round_within_bound_iff (s : HomaState) (cpu : Nat) (ok : Bool)
    (h : s.totalIncoming.toNat ≤ homaMaxIncoming.toNat) :
    (chooseRpcToGrantProg s cpu ok).1.totalIncoming.toNat ≤ homaMaxIncoming.toNat ↔
      (ok = true → RoundFits s cpu) := by
  cases ok with
  | false => exact ⟨nofun, fun _ => h⟩
  | true =>
    have hmax : homaMaxIncoming.toNat = 480000 := rfl
    have hav := toNat_availableBytes h
    have hstart : (RoundState.start s cpu).totalIncrement.toNat = 0 := rfl
    have hsmall : 2 * (availableBytes s.totalIncoming).toNat < 2 ^ 32 := by omega
    have hloop := toNat_totalIncrement_roundLoop hsmall homaOvercommitment (.start s cpu)
      (by rw [hstart, show homaOvercommitment = 8 from rfl]; omega)
    rw [hstart, Nat.zero_add, hav] at hloop
    have htotal : (chooseRpcToGrantProg s cpu true).1.totalIncoming.toNat =
        s.totalIncoming.toNat + (roundEnd s cpu).totalIncrement.toNat := by
      rw [totalIncoming_chooseRpcToGrantProg, toNat_add, toNat_setWidth]
      have := (roundEnd s cpu).totalIncrement.isLt
      omega
    rw [htotal, show roundEnd s cpu = roundLoop _ _ _ from rfl, hloop]
    simp only [RoundFits, true_implies]
    rcases Nat.eq_zero_or_pos (homaMaxIncoming.toNat - s.totalIncoming.toNat) with hz | hpos
    · -- without headroom nobody is granted anything
      have hnone : ∀ l : List Nat, (l.map (min · 0)).sum = 0 := by
        intro l
        simp
      rw [hz, hnone]
      simp [h]
    · rw [← sum_map_min_le_iff hpos]
      omega

/-! ## Peers and little headroom -/

/-- A node of an RPC of a million bytes of which one segment has arrived, with the unscheduled bytes
    granted. -/
def longRpc (tree : TreeId) (peer : Nat) : RpcStateCc where
  treeId := tree
  peerId := BitVec.ofNat 16 peer
  bytesRemaining := 998580
  incoming := 60000
  hkey := ⟨5, 9, 7, BitVec.ofNat 32 peer⟩
  birth := 1001
  messageLength := 1000000

/-- `n` peers with such an RPC each, and all but `headroom` of the bytes given out. -/
def peers (n headroom : Nat) : HomaState :=
  { HomaState.initial with
    groot :=
      { nodes := (List.range (2 * n)).map fun i =>
          (i, longRpc (if i < n then .rpc else .peer) (i % n + 1))
        nodup := by simp [Function.comp_def, List.nodup_range] }
    totalIncoming := BitVec.ofNat 64 (480000 - headroom) }

/-- Ten thousand bytes are left, and each of the two RPCs gets them. -/
theorem round_exceeds_bound :
    ¬ ((peers 2 10000).totalIncoming.toNat ≤ homaMaxIncoming.toNat →
      (chooseRpcToGrantProg (peers 2 10000) 0 true).1.totalIncoming.toNat ≤
        homaMaxIncoming.toNat) := by
  decide +kernel

theorem round_within_bound_at :
    (chooseRpcToGrantProg (peers 2 100000) 0 true).1.totalIncoming.toNat ≤
        homaMaxIncoming.toNat ↔ (true = true → RoundFits (peers 2 100000) 0) :=
  round_within_bound_iff (peers 2 100000) 0 true (by decide)

end MtpXdp.Homa

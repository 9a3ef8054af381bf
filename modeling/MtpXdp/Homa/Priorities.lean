import Mathlib.Tactic.IntervalCases
import MtpXdp.Homa.Egress
import MtpXdp.Homa.Overcommit

/-!
# Packet Priorities

Unscheduled packets get a priority from a table of message lengths, scheduled ones from their place
in the grant round. `get_prio` looks at the first column of its table only, and loops forever on a
length beyond it; and a round that grants fewer than four RPCs does not store the lowest priority,
which is zero.
-/

namespace MtpXdp.Homa

open Ebpf (U8 U32)
open List BitVec

/-! ## Unscheduled packets -/

def workloadCutoff (w p : Nat) : Nat :=
  let table :=
    [[1000000, 12288, 2112, 1280, 832, 576, 384, 192],
     [1000000, 1000000, 1000000, 7168, 1920, 640, 448, 320],
     [1000000, 1000000, 1000000, 1000000, 1000000, 63488, 12288, 3008],
     [1000000, 1000000, 1000000, 1000000, 1000000, 1000000, 1000000, 68608],
     [1000000, 1000000, 1000000, 1000000, 1000000, 1000000, 1000000, 1000000]]
  (table.getD w []).getD p 0

def getPrioLoop (workloadType : U8) (messageLength : U32) : (fuel : Nat) → (i idx : U8) → Option U8
  | 0, _, _ => none
  | fuel + 1, i, idx =>
    if 0 ≤ i.toNat then
      let idx := idx &&& 7#8
      let w := (workloadType - 1#8) &&& 7#8
      if messageLength.toNat ≤ workloadCutoff w.toNat idx.toNat then some i
      else getPrioLoop workloadType messageLength fuel (i - 1#8) idx
    else some 0#8

def getPrio (workloadType : U8) (messageLength : U32) (fuel : Nat) : Option U8 :=
  getPrioLoop workloadType messageLength fuel (homaMaxPriority - 1#8) 0#8

/-- `p` is the highest priority whose cutoff is not below the length, and 0 if there is none. -/
def IsUnscheduledPrio (w length p : Nat) : Prop :=
  (p < homaMaxPriority.toNat ∧ length ≤ workloadCutoff w p ∨
      p = 0 ∧ ∀ q < homaMaxPriority.toNat, workloadCutoff w q < length) ∧
    ∀ q < homaMaxPriority.toNat, length ≤ workloadCutoff w q → q ≤ p

theorem toNat_workload {t : U8} (h : 1 ≤ t.toNat ∧ t.toNat ≤ 5) :
    ((t - 1#8) &&& 7#8).toNat = t.toNat - 1 := by
  rw [toNat_and, show (7#8).toNat = 2 ^ 3 - 1 from rfl, Nat.and_two_pow_sub_one_eq_mod,
    toNat_sub]
  simp
  omega

theorem workloadCutoff_zero {w : Nat} (h : w < 5) : workloadCutoff w 0 = 1000000 := by
  interval_cases w <;> rfl

theorem getPrioLoop_of_gt {t : U8} (h : 1 ≤ t.toNat ∧ t.toNat ≤ 5) {len : U32}
    (hlen : 1000000 < len.toNat) (fuel : Nat) (i : U8) : getPrioLoop t len fuel i 0#8 = none := by
  induction fuel generalizing i with
  | zero => rfl
  | succ fuel ih =>
    have hzero : (0#8 &&& 7#8 : U8) = 0#8 := by decide
    simp only [getPrioLoop, toNat_workload h, hzero, toNat_zero, Nat.zero_le, if_true,
      workloadCutoff_zero (show t.toNat - 1 < 5 by omega), if_neg (not_le.mpr hlen)]
    exact ih (i - 1#8)

theorem getPrio_of_le {t : U8} (h : 1 ≤ t.toNat ∧ t.toNat ≤ 5) {len : U32}
    (hlen : len.toNat ≤ 1000000) (fuel : Nat) : getPrio t len (fuel + 1) = some 7#8 := by
  have hzero : (0#8 &&& 7#8 : U8) = 0#8 := by decide
  simp [getPrio, getPrioLoop, toNat_workload h, hzero, homaMaxPriority,
    workloadCutoff_zero (show t.toNat - 1 < 5 by omega), hlen]

theorem workloadCutoff_last_le {w : Nat} (h : w < 5) : workloadCutoff w 7 ≤ 1000000 := by
  interval_cases w <;> decide

/-- **The priority of an unscheduled packet** is right precisely for the lengths that get the
    highest one. -/
theorem getPrio_correct_iff (workloadType : U8)
    (h : 1 ≤ workloadType.toNat ∧ workloadType.toNat ≤ 5) (messageLength : U32) :
    (∃ fuel p, getPrio workloadType messageLength fuel = some p ∧
      IsUnscheduledPrio (workloadType.toNat - 1) messageLength.toNat p.toNat) ↔
    messageLength.toNat ≤ workloadCutoff (workloadType.toNat - 1) 7 := by
  have hrow : workloadType.toNat - 1 < 5 := by omega
  constructor
  · rintro ⟨fuel, p, hp, hbest⟩
    by_cases hlen : messageLength.toNat ≤ 1000000
    · cases fuel with
      | zero => simp [getPrio, getPrioLoop] at hp
      | succ fuel =>
        rw [getPrio_of_le h hlen, Option.some.injEq] at hp
        subst hp
        exact hbest.1.elim And.right fun hzero => absurd hzero.1 (by decide)
    · simp [getPrio, getPrioLoop_of_gt h (not_le.mp hlen)] at hp
  · intro hlen
    refine ⟨1, 7#8, getPrio_of_le h (hlen.trans (workloadCutoff_last_le hrow)) 0, .inl ?_, ?_⟩
    · exact ⟨by decide, hlen⟩
    · intro q hq _
      exact Nat.le_of_lt_succ hq

theorem getPrio_correct_fifth :
    ∃ fuel p, getPrio 5#8 100000#32 fuel = some p ∧ IsUnscheduledPrio 4 100000 p.toNat :=
  (getPrio_correct_iff 5#8 (by decide) 100000#32).mpr (by decide)

/-- 1000 bytes in the first workload get priority 7 and not 3, and more than 1000000 bytes none. -/
theorem getPrio_wrong :
    getPrio 1#8 1000#32 1 = some 7#8 ∧ IsUnscheduledPrio 0 1000 3 ∧
      ∀ fuel, getPrio 1#8 1000001#32 fuel = none := by
  refine ⟨by decide, ⟨.inl (by decide), ?_⟩, fun fuel =>
    getPrioLoop_of_gt (by decide) (by decide) _ _⟩
  intro q hq hle
  change q < 8 at hq
  interval_cases q <;> revert hle <;> decide

/-! ## Scheduled packets -/

def grantedEntries (ri : Nat → RemoveInfo) (n : Nat) : List Nat :=
  (List.range n).filter fun i => (ri i).newgrant ≠ 0#32

/-- Within the levels, falling along the list, and the lowest levels if there is one for each RPC.
    -/
def ScheduledPriorities (ps : List Nat) : Prop :=
  (∀ p ∈ ps, p ≤ homaMaxSchedPrio) ∧ ps.Pairwise (· ≥ ·) ∧
    (ps.length ≤ homaMaxSchedPrio + 1 → ps = (List.range ps.length).map (ps.length - 1 - ·))
deriving Decidable

def schedPrio (k j : Nat) : Nat :=
  if k ≤ homaMaxSchedPrio + 1 then
    if j + 1 = k then homaMaxSchedPrio + 1 - k else k - 1 - j
  else homaMaxSchedPrio - j

section

variable {ri : Nat → RemoveInfo}

theorem grantedEntries_succ (ri : Nat → RemoveInfo) (n : Nat) : grantedEntries ri (n + 1) =
      if (ri n).newgrant ≠ 0#32 then grantedEntries ri n ++ [n] else grantedEntries ri n := by
  rw [grantedEntries, range_succ, filter_append]
  split_ifs with h <;> simp [grantedEntries, h]

theorem length_grantedEntries_le (ri : Nat → RemoveInfo) (n : Nat) :
    (grantedEntries ri n).length ≤ n :=
  (length_filter_le ..).trans_eq length_range

theorem map_grantedEntries {α : Type} (f : Nat → α) (ri : Nat → RemoveInfo) (n : Nat) :
    (grantedEntries ri n).map (fun i => f (grantedEntries ri i).length) =
      (List.range (grantedEntries ri n).length).map f := by
  induction n with
  | zero => rfl
  | succ n ih =>
    rw [grantedEntries_succ]
    split_ifs
    · rw [map_append, ih, length_append, length_singleton, range_succ, map_append]
      rfl
    · exact ih

theorem assignPriorities_spec (ri : Nat → RemoveInfo) (n : Nat) :
    (assignPriorities n ri).2 = (grantedEntries ri n).length ∧
      ∀ i, (assignPriorities n ri).1 i = if i < n ∧ (ri i).newgrant ≠ 0#32 then
        { ri i with priority := BitVec.ofNat 8 (homaMaxSchedPrio - (grantedEntries ri i).length) }
      else ri i := by
  induction n with
  | zero => exact ⟨rfl, fun i => by simp [assignPriorities]⟩
  | succ n ih =>
    have hstep : assignPriorities (n + 1) ri =
        if ((assignPriorities n ri).1 n).newgrant ≠ 0#32 then
          (Function.update (assignPriorities n ri).1 n { (assignPriorities n ri).1 n with
            priority := BitVec.ofNat 8 (homaMaxSchedPrio - (assignPriorities n ri).2) },
            (assignPriorities n ri).2 + 1)
        else assignPriorities n ri := by
      conv_lhs => rw [assignPriorities, List.range_succ, foldl_append]
      rfl
    have hn : (assignPriorities n ri).1 n = ri n := by simp [ih.2 n]
    rw [hstep, grantedEntries_succ, hn, ih.1]
    split_ifs with hg
    · refine ⟨by simp, fun i => ?_⟩
      grind
    · refine ⟨ih.1, fun i => ?_⟩
      grind

theorem lowerPriorities_spec (ri : Nat → RemoveInfo) (n : Nat) {k : Nat}
    (hk : k ≤ homaMaxSchedPrio + 1) (i : Nat) :
    lowerPriorities n k ri i =
      if i < n ∧ (ri i).newgrant ≠ 0#32 ∧
          ((ri i).priority.toNat : Int) - (homaMaxSchedPrio + 1 - k) ≠ 0 then
        { ri i with
          priority := BitVec.ofInt 8 ((ri i).priority.toNat - (homaMaxSchedPrio + 1 - k)) }
      else ri i := by
  have hextra : (0 : Int) ≤ homaMaxSchedPrio + 1 - k := by omega
  simp only [lowerPriorities, hextra, if_true]
  induction n generalizing i with
  | zero => simp
  | succ n ih =>
    have hn := (ih n).trans (if_neg fun h => lt_irrefl n h.1)
    have hi := ih i
    rw [range_succ, foldl_append, foldl_cons, foldl_nil, hn]
    by_cases hin : i = n
    · subst hin
      split_ifs <;> simp_all
    · rw [apply_ite (fun ri' : Nat → RemoveInfo => ri' i),
        apply_ite (fun ri' : Nat → RemoveInfo => ri' i),
        Function.update_of_ne hin, hi]
      grind

end

theorem nrRpc_roundLoop_le (available : U32) (k : Nat) (st : RoundState) :
    (roundLoop available k st).nrRpc ≤ st.nrRpc + k := by
  induction k generalizing st with
  | zero => exact le_rfl
  | succ k ih =>
    rw [roundLoop]
    cases st.next with
    | none => exact Nat.le_add_right _ _
    | some x =>
      have hstep : (roundStep available st x.1 x.2).nrRpc = st.nrRpc + 1 := by
        unfold roundStep
        cases grantOf available x.2 <;> rfl
      have hle := ih (roundStep available st x.1 x.2)
      dsimp only
      omega

theorem length_grantedEntries_lt (ri : Nat → RemoveInfo) {i n : Nat} (hi : i < n)
    (hg : (ri i).newgrant ≠ 0#32) : (grantedEntries ri i).length <
    (grantedEntries ri n).length := by
  have hsucc : (grantedEntries ri (i + 1)).length = (grantedEntries ri i).length + 1 := by
    rw [grantedEntries_succ, if_pos hg, length_append, length_singleton]
  have hsub := ((range_sublist.mpr hi).filter fun i => (ri i).newgrant ≠ 0#32).length_le
  exact lt_of_lt_of_le (Nat.lt_of_succ_le hsucc.ge) hsub

theorem priority_lowerPriorities (ri : Nat → RemoveInfo) {i n : Nat} (hi : i < n)
    (hg : (ri i).newgrant ≠ 0#32) :
    (lowerPriorities n (grantedEntries ri n).length (assignPriorities n ri).1 i).priority.toNat =
      schedPrio (grantedEntries ri n).length (grantedEntries ri i).length := by
  have hlt := length_grantedEntries_lt ri hi hg
  have hfirst := (assignPriorities_spec ri n).2 i
  rw [if_pos ⟨hi, hg⟩] at hfirst
  generalize (grantedEntries ri n).length = k at hlt ⊢
  generalize (grantedEntries ri i).length = j at hlt hfirst ⊢
  by_cases hk : k ≤ homaMaxSchedPrio + 1
  · rw [lowerPriorities_spec _ _ hk, hfirst]
    simp only [hi, hg, ne_eq, not_false_eq_true, true_and]
    unfold homaMaxSchedPrio at hk
    interval_cases k <;> interval_cases j <;> rfl
  · have hneg : ¬ (0 : Int) ≤ homaMaxSchedPrio + 1 - k := by omega
    have hsmall : homaMaxSchedPrio - j < 2 ^ 8 := (Nat.sub_le _ _).trans_lt (by decide)
    simp only [lowerPriorities, hneg, if_false, hfirst, schedPrio, hk, toNat_ofNat]
    exact Nat.mod_eq_of_lt hsmall

theorem newgrant_passes (ri : Nat → RemoveInfo) (n k i : Nat) :
    (lowerPriorities n k (assignPriorities n ri).1 i).newgrant = (ri i).newgrant := by
  have hfirst : ((assignPriorities n ri).1 i).newgrant = (ri i).newgrant := by
    rw [(assignPriorities_spec ri n).2 i]
    split_ifs <;> rfl
  by_cases hk : k ≤ homaMaxSchedPrio + 1
  · rw [lowerPriorities_spec _ _ hk]
    split_ifs <;> exact hfirst
  · have hneg : ¬ (0 : Int) ≤ homaMaxSchedPrio + 1 - k := by omega
    simpa only [lowerPriorities, hneg, if_false] using hfirst

def GrantCpu.priorities (c : GrantCpu) : List Nat :=
  (grantedEntries c.ri c.nrGrantCandidate).map fun i => (c.ri i).priority.toNat

theorem priorities_chooseRpcToGrantProg (s : HomaState) (cpu : Nat) (ok : Bool)
    (h : (chooseRpcToGrantProg s cpu ok).2.2 = true) : ∃ k, 1 ≤ k ∧ k ≤ homaOvercommitment ∧
      ((chooseRpcToGrantProg s cpu ok).1.grantCpu cpu).priorities =
        (List.range k).map (schedPrio k) := by
  have hle := nrRpc_roundLoop_le (availableBytes s.totalIncoming) homaOvercommitment (.start s cpu)
  unfold chooseRpcToGrantProg at h ⊢
  cases ok with
  | false => simp at h
  | true =>
    have hcount := (assignPriorities_spec (roundEnd s cpu).ri (roundEnd s cpu).nrRpc).1
    by_cases hn : (roundEnd s cpu).nrRpc = 0
    · simp [hn] at h
    · by_cases hk : (assignPriorities (roundEnd s cpu).nrRpc (roundEnd s cpu).ri).2 = 0
      · simp [hn, hk] at h
      · rw [hcount] at hk
        refine ⟨(grantedEntries (roundEnd s cpu).ri (roundEnd s cpu).nrRpc).length,
          Nat.one_le_iff_ne_zero.mpr hk, ?_, ?_⟩
        · exact (length_grantedEntries_le _ _).trans (hle.trans_eq (Nat.zero_add _))
        · simp only [if_true, hn, hcount, hk, if_false, GrantCpu.priorities, Function.update_self]
          have hsame : grantedEntries (lowerPriorities (roundEnd s cpu).nrRpc
              (grantedEntries (roundEnd s cpu).ri (roundEnd s cpu).nrRpc).length
              (assignPriorities (roundEnd s cpu).nrRpc (roundEnd s cpu).ri).1)
              (roundEnd s cpu).nrRpc = grantedEntries (roundEnd s cpu).ri (roundEnd s cpu).nrRpc :=
            filter_congr fun i _ => by rw [newgrant_passes]
          rw [hsame, ← map_grantedEntries]
          refine map_congr_left fun i hi => ?_
          have hmem := mem_filter.mp hi
          exact priority_lowerPriorities _ (mem_range.mp hmem.1) (of_decide_eq_true hmem.2)

/-- **Scheduled priorities** follow the round, on the lowest levels, precisely when it grants at
    least four RPCs. -/
theorem scheduledPriorities_iff (s : HomaState) (cpu : Nat) (ok : Bool)
    (h : (chooseRpcToGrantProg s cpu ok).2.2 = true) :
    ScheduledPriorities ((chooseRpcToGrantProg s cpu ok).1.grantCpu cpu).priorities ↔
      homaMaxSchedPrio + 1 ≤
        ((chooseRpcToGrantProg s cpu ok).1.grantCpu cpu).priorities.length := by
  obtain ⟨k, hpos, hle, heq⟩ := priorities_chooseRpcToGrantProg s cpu ok h
  rw [heq]
  unfold homaOvercommitment at hle
  interval_cases k <;> decide

theorem scheduledPriorities_iff_five :
    ScheduledPriorities ((chooseRpcToGrantProg (peers 5 300000) 0 true).1.grantCpu 0).priorities :=
  (scheduledPriorities_iff (peers 5 300000) 0 true (by decide +kernel)).mpr (by decide +kernel)

/-- The first of two granted RPCs gets priority 1, the second one keeps priority 2. -/
theorem priorities_rise_of_two :
    (chooseRpcToGrantProg (peers 2 100000) 0 true).2.2 = true ∧
      ((chooseRpcToGrantProg (peers 2 100000) 0 true).1.grantCpu 0).priorities = [1, 2] ∧
      ¬ ScheduledPriorities [1, 2] := by
  decide +kernel

end MtpXdp.Homa

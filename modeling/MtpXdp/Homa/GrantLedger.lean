import MtpXdp.Homa.ListUpkeep
import MtpXdp.Homa.Overcommit

/-!
# A Ledger of Grants

Beside the receiver's state runs a ledger: for each message its length, its unscheduled bytes, and
the grants computed for it. The list `Covers` the ledger when every RPC in it has been granted what
the ledger says, and less than its length. `roundLoop_induction` is the rule for what a round keeps
from RPC to RPC.
-/

namespace MtpXdp.Homa

open Ebpf (U32 U64)
open MtpXdp.Core List BitVec Option

variable {L : Ledger} {a : Nat} {n : RpcStateCc} {available : U32} {g : U32 × U32}

/-! ## The ledger -/

structure MsgHistory where
  length : U32
  unscheduled : U32
  grants : List (U32 × U64)
deriving DecidableEq

def lastOffset (first : U32) : List (U32 × U64) → U32
  | [] => first
  | (off, _) :: _ => off

def MsgHistory.granted (h : MsgHistory) : U32 := lastOffset h.unscheduled h.grants

abbrev Ledger := RpcKey → Option MsgHistory

def Ledger.record (L : Ledger) (g : Grant) : Ledger :=
  Function.update L g.rpc
    ((L g.rpc).map fun h => { h with grants := (g.offset, g.increment) :: h.grants })

def Ledger.recordAll (L : Ledger) (gs : List Grant) : Ledger := gs.foldl Ledger.record L

@[simp] theorem Ledger.recordAll_nil (L : Ledger) : L.recordAll [] = L := rfl

theorem Ledger.recordAll_append_singleton (L : Ledger) (gs : List Grant) (g : Grant) :
    L.recordAll (gs ++ [g]) = (L.recordAll gs).record g := by
  simp [Ledger.recordAll]

theorem Ledger.record_of_ne (L : Ledger) {g : Grant} {k : RpcKey} (hk : k ≠ g.rpc) :
    L.record g k = L k := Function.update_of_ne hk ..

theorem Ledger.record_self {L : Ledger} {g : Grant} {h : MsgHistory} (hL : L g.rpc = some h) :
    L.record g g.rpc = some { h with grants := (g.offset, g.increment) :: h.grants } := by
  rw [Ledger.record, Function.update_self, hL, map_some]

def increments (gs : List Grant) : Nat := (gs.map (·.increment.toNat)).sum

/-- An RPC in the list has been granted what the ledger says, and not yet its whole message. -/
def Covers (L : Ledger) (t : RbTree RpcStateCc) : Prop :=
  ∀ k ml inc, Listed t k ml inc →
    (∃ h, L k = some h ∧ h.length = ml ∧ h.granted = inc) ∧ inc.toNat < ml.toNat ∧
      ml.toNat ≤ 1090560

section

variable {t t' : RbTree RpcStateCc}

theorem Covers.mono (h : Covers L t)
    (hl : ∀ k ml inc, Listed t' k ml inc → Listed t k ml inc) : Covers L t' :=
  fun k ml inc hlisted => h k ml inc (hl k ml inc hlisted)

theorem Covers.node (h : Covers L t) (hn : (a, n) ∈ t) (hauth : n.Authoritative) :
    (∃ m, L n.hkey = some m ∧ m.length = n.messageLength ∧ m.granted = n.incoming) ∧
      n.incoming.toNat < n.messageLength.toNat ∧ n.messageLength.toNat ≤ 1090560 :=
  h n.hkey n.messageLength n.incoming ⟨a, n, hn, hauth, rfl, rfl, rfl⟩

theorem Covers.grant (h : Covers L t) (hn : (a, n) ∈ t) (hauth : n.Authoritative) {g : Grant}
    (hg : g.rpc = n.hkey) (hl : ∀ k ml inc, Listed t' k ml inc →
      (k = n.hkey ∧ ml = n.messageLength ∧ inc = g.offset ∧
        g.offset.toNat < n.messageLength.toNat) ∨ (k ≠ n.hkey ∧ Listed t k ml inc)) :
    Covers (L.record g) t' := by
  intro k ml inc hlisted
  obtain ⟨⟨m, hm, hlen, -⟩, -, hmax⟩ := h.node hn hauth
  rcases hl k ml inc hlisted with ⟨rfl, rfl, rfl, hlt⟩ | ⟨hne, hold⟩
  · rw [← hg] at hm ⊢
    exact ⟨⟨_, Ledger.record_self hm, hlen, rfl⟩, hlt, hmax⟩
  · rw [L.record_of_ne (hg ▸ hne)]
    exact h k ml inc hold

end

/-! ## One grant of a round -/

theorem pos_of_slt {x : U32} (h : (0#32).slt x = true) : 0 < x.toNat ∧ x.toNat < 2 ^ 31 := by
  have hlt : (0 : Int) < x.toInt := by simpa [BitVec.slt] using h
  rw [toInt_eq_toNat_cond] at hlt
  split_ifs at hlt with hsmall
  · omega
  · omega

theorem grantOf_cases (h : grantOf available n = some g) :
    0 < available.toNat ∧ available.toNat < 2 ^ 31 ∧ 0 < (windowOffset n - n.incoming).toNat ∧
    ((available.toNat < (windowOffset n - n.incoming).toNat ∧
        g = (n.incoming + available, available)) ∨
      ((windowOffset n - n.incoming).toNat ≤ available.toNat ∧
        g = (windowOffset n, windowOffset n - n.incoming))) := by
  unfold grantOf at h
  dsimp only at h
  split_ifs at h with hpos hclamp
  all_goals
    obtain ⟨havpos, hav⟩ := pos_of_slt hpos.2
    refine ⟨havpos, hav, hpos.1, ?_⟩
  · exact .inl ⟨hclamp, (some.inj h).symm⟩
  · exact .inr ⟨Nat.le_of_not_lt hclamp, (some.inj h).symm⟩

theorem grantOf_increment (h : grantOf available n = some g) :
    0 < g.2.toNat ∧ g.2.toNat ≤ available.toNat := by
  obtain ⟨hpos, -, hinc, ⟨-, rfl⟩ | ⟨hle, rfl⟩⟩ := grantOf_cases h
  · exact ⟨hpos, le_rfl⟩
  · exact ⟨hinc, hle⟩

theorem grantOf_add (h : grantOf available n = some g) (hsmall : n.incoming.toNat ≤ 1090560) :
    g.1.toNat = n.incoming.toNat + g.2.toNat := by
  obtain ⟨-, hav, -, ⟨-, rfl⟩ | ⟨hle, rfl⟩⟩ := grantOf_cases h
  · exact toNat_add_of_lt (by omega)
  · dsimp only at hle ⊢
    bv_omega

theorem windowOffset_le (n : RpcStateCc) : (windowOffset n).toNat ≤ n.messageLength.toNat := by
  unfold windowOffset
  dsimp only
  split_ifs with hlt
  · exact le_rfl
  · exact Nat.le_of_not_lt hlt

theorem grantOf_le_window (h : grantOf available n = some g)
    (hwin : n.incoming.toNat ≤ (windowOffset n).toNat) : g.1.toNat ≤ (windowOffset n).toNat := by
  obtain ⟨-, hav, -, ⟨hlt, rfl⟩ | ⟨-, rfl⟩⟩ := grantOf_cases h
  · dsimp only
    bv_omega
  · dsimp only
    exact le_rfl

/-! ## A round -/

theorem RoundState.mem_of_next {st : RoundState} {a : Nat} {n : RpcStateCc}
    (h : st.next = some (a, n)) : (a, n) ∈ st.tree ∧ n.treeId = .peer := by
  refine ⟨RbTree.mem_of_lowerBound h, ?_⟩
  have hless := RbTree.less_of_lowerBound h
  cases htree : n.treeId with
  | peer => rfl
  | rpc => simp [srptLessPeer, htree, TreeId.less] at hless

theorem roundLoop_induction {available : U32} {P : RoundState → Prop}
    (hstep : ∀ st a n, P st → (a, n) ∈ st.tree → n.treeId = .peer →
      P (roundStep available st a n)) (k : Nat) {st : RoundState} (h : P st) :
    P (roundLoop available k st) := by
  induction k generalizing st with
  | zero => exact h
  | succ k ih =>
    unfold roundLoop
    cases hnext : st.next with
    | none => exact h
    | some x =>
      obtain ⟨hmem, hp⟩ := RoundState.mem_of_next hnext
      exact ih (hstep st x.1 x.2 h hmem hp)

structure RoundOk (L : Ledger) (t₀ : RbTree RpcStateCc) (st : RoundState) : Prop where
  trees : TwoTrees none st.tree
  covers : Covers (L.recordAll st.grants) st.tree
  inherits : Inherits st.tree t₀

section

variable {t₀ : RbTree RpcStateCc} {st : RoundState}

theorem grants_roundStep (available : U32) (st : RoundState) (a : Nat) (n : RpcStateCc) :
    (roundStep available st a n).grants = st.grants ++
      (grantOf available n).elim [] fun g => [⟨n.hkey, g.1, g.2.setWidth 64⟩] := by
  unfold roundStep
  cases grantOf available n with
  | none => exact (append_nil _).symm
  | some g => rfl

theorem tree_roundStep (hg : grantOf available n = some g) : (roundStep available st a n).tree =
      if n.messageLength ≤ g.1 then
        removeGranted (st.tree.write a fun n => { n with incoming := g.1 }) a
          { n with incoming := g.1 }
      else st.tree.write a fun n => { n with incoming := g.1 } := by
  unfold roundStep applyGrant
  rw [hg]
  simp only [elim_some, decide_eq_true_eq]
  rfl

theorem roundOk_roundStep (h : RoundOk L t₀ st) (hn : (a, n) ∈ st.tree) (hp : n.treeId = .peer) :
    RoundOk L t₀ (roundStep available st a n) := by
  have hgrants := grants_roundStep available st a n
  cases hg : grantOf available n with
  | none =>
    rw [hg] at hgrants
    have htree : (roundStep available st a n).tree = st.tree := by
      unfold roundStep
      rw [hg]
      rfl
    constructor
    · rw [htree]
      exact h.trees
    · rw [hgrants, htree, elim_none, append_nil]
      exact h.covers
    · rw [htree]
      exact h.inherits
  | some g =>
    rw [hg, elim_some] at hgrants
    have hwritten : (a, { n with incoming := g.1 }) ∈
        st.tree.write a fun n => { n with incoming := g.1 } :=
      RbTree.mem_write.mpr ⟨n, hn, (if_pos rfl).symm⟩
    have htrees := h.trees.grant a g.1
    have hlisted {k : RpcKey} {ml inc : U32} (hl : Listed _ k ml inc) :=
      h.trees.listed_grant hn (.inl hp) hl (x := g.1)
    -- the RPCs that are listed after the grant
    have hl (k : RpcKey) (ml inc : U32)
        (hl : Listed (roundStep available st a n).tree k ml inc) :
        (k = n.hkey ∧ ml = n.messageLength ∧ inc = g.1 ∧ g.1.toNat < n.messageLength.toNat) ∨
          (k ≠ n.hkey ∧ Listed st.tree k ml inc) := by
      rw [tree_roundStep hg] at hl
      split_ifs at hl with hfull
      · obtain ⟨hne, hl⟩ := (htrees.removeGranted hwritten hp).2 k ml inc hl
        rcases hlisted hl with ⟨hk, -, -⟩ | hold
        · exact absurd hk hne
        · exact .inr hold
      · rcases hlisted hl with ⟨hk, hml, hinc⟩ | hold
        · exact .inl ⟨hk, hml, hinc, Nat.lt_of_not_le hfull⟩
        · exact .inr hold
    constructor
    · rw [tree_roundStep hg]
      split_ifs
      · exact (htrees.removeGranted hwritten hp).1
      · exact htrees
    · rw [hgrants, Ledger.recordAll_append_singleton]
      exact h.covers.grant hn (.inl hp) rfl hl
    · rw [tree_roundStep hg]
      split_ifs
      · exact (inherits_removeGranted _ _ _).trans ((inherits_grant _ _ _).trans h.inherits)
      · exact (inherits_grant _ _ _).trans h.inherits

theorem roundOk_roundLoop (h : RoundOk L t₀ st) (k : Nat) :
    RoundOk L t₀ (roundLoop available k st) :=
  roundLoop_induction (fun _ _ _ hst hn hp => roundOk_roundStep hst hn hp) k h

theorem roundOk_start {s : HomaState} (h : ListOk s) (hc : Covers L s.groot) (cpu : Nat) :
    RoundOk L s.groot (.start s cpu) := ⟨h.trees, hc, .refl _⟩

/-! ## What a round adds to the total -/

theorem increments_append (gs gs' : List Grant) :
    increments (gs ++ gs') = increments gs + increments gs' := by
  simp [increments]

theorem totalIncrement_eq_increments {k : Nat}
    (h : st.totalIncrement = BitVec.ofNat 32 (increments st.grants)) :
    (roundLoop available k st).totalIncrement =
      BitVec.ofNat 32 (increments (roundLoop available k st).grants) := by
  refine roundLoop_induction (P := fun st =>
    st.totalIncrement = BitVec.ofNat 32 (increments st.grants)) ?_ k h
  intro st a n hst _ _
  rw [grants_roundStep, increments_append, ofNat_add, ← hst]
  unfold roundStep
  cases grantOf available n with
  | none => exact (BitVec.add_zero _).symm
  | some g =>
    apply eq_of_toNat_eq
    simp [increments, applyGrant, visitNode]

theorem length_grants_roundLoop (available : U32) (k : Nat) (st : RoundState) :
    (roundLoop available k st).grants.length ≤ st.grants.length + k := by
  induction k generalizing st with
  | zero => exact le_rfl
  | succ k ih =>
    unfold roundLoop
    cases hnext : st.next with
    | none => exact Nat.le_add_right _ _
    | some x =>
      refine (ih _).trans ?_
      rw [grants_roundStep, length_append]
      cases grantOf available x.2 with
      | none => simp
      | some g =>
        simp only [elim_some, length_singleton]
        omega

theorem increments_le {gs : List Grant} {b : Nat} (h : ∀ g ∈ gs, g.increment.toNat ≤ b) :
    increments gs ≤ gs.length * b := by
  induction gs with
  | nil => exact Nat.zero_le _
  | cons g gs ih =>
    have hhead := h g mem_cons_self
    have htail := ih fun x hx => h x (mem_cons_of_mem g hx)
    simp only [increments, map_cons, sum_cons, length_cons, Nat.add_mul] at htail ⊢
    omega

theorem totalIncoming_round {s : HomaState} {cpu : Nat} {b : Nat} (hb : 8 * b < 2 ^ 32)
    (h : ∀ g ∈ (roundEnd s cpu).grants, g.increment.toNat ≤ b) :
    (chooseRpcToGrantProg s cpu true).1.totalIncoming =
      s.totalIncoming + BitVec.ofNat 64 (increments (roundEnd s cpu).grants) := by
  have hlen : (roundEnd s cpu).grants.length ≤ 8 := by
    have := length_grants_roundLoop (availableBytes s.totalIncoming) homaOvercommitment
      (.start s cpu)
    simpa [RoundState.start, homaOvercommitment, roundEnd] using this
  have hsum : increments (roundEnd s cpu).grants < 2 ^ 32 :=
    ((increments_le h).trans (Nat.mul_le_mul_right b hlen)).trans_lt hb
  have htotal : (roundEnd s cpu).totalIncrement =
      BitVec.ofNat 32 (increments (roundEnd s cpu).grants) :=
    totalIncrement_eq_increments rfl
  rw [totalIncoming_chooseRpcToGrantProg, htotal]
  congr 1
  apply eq_of_toNat_eq
  rw [toNat_setWidth, toNat_ofNat, toNat_ofNat, Nat.mod_eq_of_lt hsum]

end

/-! ## The round as a program -/

section

variable (s : HomaState) (cpu : Nat)

theorem groot_chooseRpcToGrantProg :
    (chooseRpcToGrantProg s cpu true).1.groot = (roundEnd s cpu).tree := by
  unfold chooseRpcToGrantProg
  rw [if_pos rfl]
  dsimp only
  split_ifs <;> rfl

theorem rpcTbl_chooseRpcToGrantProg (ok : Bool) :
    (chooseRpcToGrantProg s cpu ok).1.rpcTbl = s.rpcTbl := by
  unfold chooseRpcToGrantProg
  split_ifs
  · dsimp only
    split_ifs <;> rfl
  · rfl

theorem grants_chooseRpcToGrantProg :
    (chooseRpcToGrantProg s cpu true).2.1 = (roundEnd s cpu).grants := by
  unfold chooseRpcToGrantProg
  rw [if_pos rfl]
  dsimp only
  split_ifs <;> rfl

end

/-! ## FIFO grants -/

def fifoGrants (s : HomaState) (a : Nat) : List Grant :=
  ((s.groot.get? a).map fun n => ⟨n.hkey, (fifoGrant n).1, (fifoGrant n).2⟩).toList

section

variable {s : HomaState}

section

variable (hlt : n.incoming.toNat < n.messageLength.toNat) (hmax : n.messageLength.toNat ≤ 1090560)
include hlt hmax

theorem toNat_fifoOffset :
    (grantFifoIncrement + n.incoming.setWidth 64 : U64).toNat = 10000 + n.incoming.toNat := by
  have hfifo : grantFifoIncrement.toNat = 10000 := rfl
  rw [toNat_add, toNat_setWidth, hfifo]
  omega

theorem fifoGrant_spec : (fifoGrant n).1.toNat = n.incoming.toNat + (fifoGrant n).2.toNat ∧
      (fifoGrant n).1.toNat ≤ n.messageLength.toNat := by
  have hinc := toNat_fifoOffset hlt hmax
  have hfifo : grantFifoIncrement.toNat = 10000 := rfl
  have hml := toNat_setWidth_64 n.messageLength
  unfold fifoGrant
  dsimp only
  split_ifs with hfull
  · -- the rest of the message
    refine ⟨?_, le_rfl⟩
    have hover : (grantFifoIncrement + n.incoming.setWidth 64 -
      n.messageLength.setWidth 64 : U64).toNat
        = 10000 + n.incoming.toNat - n.messageLength.toNat := by
      rw [toNat_sub_of_le (by rw [le_def, hml, hinc]; omega), hinc, hml]
    dsimp only
    rw [toNat_sub_of_le (by rw [le_def, hover, hfifo]; omega), hover, hfifo]
    omega
  · dsimp only
    rw [toNat_setWidth, hinc, hfifo, Nat.mod_eq_of_lt (by omega)]
    omega

end

theorem FifoFound.node (h : FifoFound s.groot a) :
    ∃ n, (a, n) ∈ s.groot ∧ n.treeId = .rpc ∧ n.inPeerTree = false := by
  obtain ⟨n, hn, hless⟩ := h
  refine ⟨n, hn, ?_⟩
  unfold lessBirthGrant at hless
  split_ifs at hless with hp hmark
  refine ⟨?_, by simpa using hmark⟩
  cases htree : n.treeId with
  | rpc => rfl
  | peer => exact absurd htree hp

theorem fifoGrants_of_mem (hn : (a, n) ∈ s.groot) :
    fifoGrants s a = [⟨n.hkey, (fifoGrant n).1, (fifoGrant n).2⟩] := by
  rw [fifoGrants, RbTree.get?_eq_some_iff.mpr hn]
  rfl

theorem rpcTbl_grantFifoRpc (s : HomaState) (a : Nat) : (grantFifoRpc s a).1.rpcTbl = s.rpcTbl := by
  unfold grantFifoRpc
  split <;> rfl

theorem totalIncoming_grantFifoRpc (hn : (a, n) ∈ s.groot) :
    (grantFifoRpc s a).1.totalIncoming = s.totalIncoming + (fifoGrant n).2 := by
  unfold grantFifoRpc
  rw [RbTree.get?_eq_some_iff.mpr hn]

theorem fifoGrant_full_iff (hlt : n.incoming.toNat < n.messageLength.toNat)
    (hmax : n.messageLength.toNat ≤ 1090560) :
    n.messageLength.toNat ≤ (grantFifoIncrement + n.incoming.setWidth 64 : U64).toNat ↔
      n.messageLength.toNat ≤ (fifoGrant n).1.toNat := by
  have hinc := toNat_fifoOffset hlt hmax
  unfold fifoGrant
  dsimp only
  split_ifs with hfull
  · exact ⟨fun _ => le_rfl, fun _ => hfull⟩
  · dsimp only
    rw [toNat_setWidth, hinc, Nat.mod_eq_of_lt (by omega)]

theorem groot_grantFifoRpc (hn : (a, n) ∈ s.groot)
    (hlt : n.incoming.toNat < n.messageLength.toNat) (hmax : n.messageLength.toNat ≤ 1090560) :
    (grantFifoRpc s a).1.groot = if n.messageLength.toNat ≤ (fifoGrant n).1.toNat then
        (s.groot.write a fun m => { m with incoming := (fifoGrant n).1 }).remove a
      else s.groot.write a fun m => { m with incoming := (fifoGrant n).1 } := by
  unfold grantFifoRpc
  rw [RbTree.get?_eq_some_iff.mpr hn]
  simp only [fifoGrant_full_iff hlt hmax]

theorem listOk_grantFifoRpc (h : ListOk s) (hc : Covers L s.groot) (hf : FifoFound s.groot a) :
    ListOk (grantFifoRpc s a).1 ∧
      Covers (L.recordAll (fifoGrants s a)) (grantFifoRpc s a).1.groot := by
  obtain ⟨n, hn, hr, hun⟩ := hf.node
  obtain ⟨-, hlt, hmax⟩ := hc.node hn (.inr hun)
  have hgroot := groot_grantFifoRpc hn hlt hmax
  have hwritten : (a, { n with incoming := (fifoGrant n).1 }) ∈
      s.groot.write a fun m => { m with incoming := (fifoGrant n).1 } :=
    RbTree.mem_write.mpr ⟨n, hn, (if_pos rfl).symm⟩
  have htrees := h.trees.grant a (fifoGrant n).1
  have hlisted {k : RpcKey} {ml inc : U32} (hl : Listed _ k ml inc) :=
    h.trees.listed_grant hn (.inr hun) hl (x := (fifoGrant n).1)
  have hl (k : RpcKey) (ml inc : U32) (hl : Listed (grantFifoRpc s a).1.groot k ml inc) :
      (k = n.hkey ∧ ml = n.messageLength ∧ inc = (fifoGrant n).1 ∧
        (fifoGrant n).1.toNat < n.messageLength.toNat) ∨
        (k ≠ n.hkey ∧ Listed s.groot k ml inc) := by
    rw [hgroot] at hl
    split_ifs at hl with hfull
    · obtain ⟨hne, hl⟩ := htrees.listed_removeUnmarked hwritten hun hl
      rcases hlisted hl with ⟨hk, -, -⟩ | hold
      · exact absurd hk hne
      · exact .inr hold
    · rcases hlisted hl with ⟨hk, hml, hinc⟩ | hold
      · exact .inl ⟨hk, hml, hinc, Nat.lt_of_not_le hfull⟩
      · exact .inr hold
  have htbl := rpcTbl_grantFifoRpc s a
  refine ⟨⟨?_, ?_⟩, ?_⟩
  · rw [hgroot]
    split_ifs
    · exact htrees.removeUnmarked hwritten hr hun
    · exact htrees
  · rw [htbl]
    refine h.lagging.of_inherits ?_ fun k r hk => ⟨r, hk, le_rfl⟩
    rw [hgroot]
    split_ifs
    · exact (inherits_remove _ _).trans (inherits_grant _ _ _)
    · exact inherits_grant _ _ _
  · rw [fifoGrants_of_mem hn]
    exact hc.grant hn (.inr hun) rfl hl

end

end MtpXdp.Homa

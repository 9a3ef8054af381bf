import MtpXdp.Core.Holding
import MtpXdp.Core.Run
import MtpXdp.Homa.Receiver

/-!
# Accounting for the Incoming Bytes

`total_incoming` should be the bytes granted and not arrived. Three ends of a message leave its
balance in the total: `client_response` returns with the last segment before it subtracts, an RPC
that a timer removes is not settled, and neither is a request that is complete before all of it was
granted.
-/

namespace MtpXdp.Homa

open Ebpf (U32 U64)
open MtpXdp.Core BitVec Function Option Finset

variable {R : Receiver} {k : RpcKey} {r : RpcState} {net : RpcKey → Option Message} {s : HomaState}
  {L : Ledger}

/-! ## Balances -/

noncomputable instance : Fintype RpcKey :=
  have : Finite RpcKey :=
    Finite.of_injective (fun k => (⟨k.memOrder, k.memOrder_lt⟩ : Fin (2 ^ 128)))
      fun _ _ h => RpcKey.memOrder_injective (Fin.mk.inj h)
  Fintype.ofFinite RpcKey

def outstanding (R : Receiver) (k : RpcKey) : Int :=
  match R.homa.rpcTbl k, R.ledger k with
  | some r, some h =>
    if r.state = .incoming then
      (h.granted.toNat : Int) - ((r.messageLength.toNat : Int) - r.cc.bytesRemaining.toNat)
    else 0
  | _, _ => 0

def Balanced (R : Receiver) : Prop :=
  R.homa.totalIncoming = BitVec.ofInt 64 (∑ k, outstanding R k)

def LastMissing (r : RpcState) (d : DataHeader) : Prop :=
  r.cc.bytesRemaining = d.segLength ∧ (setBitmap r d.seq).2 ≠ .error

structure BytesCond (R : Receiver) (e : Event) : Prop where
  start : StartOk R e
  last : ∀ d ip env, e = .data d ip env → ∀ r, R.homa.rpcTbl (d.hkey ip) = some r →
    r.state = .incoming → LastMissing r d → rpcIsClient (d.hkey ip).rpcid = false ∧
      ∃ h, R.ledger (d.hkey ip) = some h ∧ h.granted = h.length
  removed : ∀ k, e = .remove k → ∀ r, R.homa.rpcTbl k = some r → r.state ≠ .incoming
  headroom : ∀ cpu ok, e = .round cpu ok →
    (availableBytes R.homa.totalIncoming).toInt < 2 ^ 29

section

variable {R' : Receiver} {h : MsgHistory}

theorem outstanding_of_incoming (hr : R.homa.rpcTbl k = some r) (hstate : r.state = .incoming)
    (hh : R.ledger k = some h) : outstanding R k =
      (h.granted.toNat : Int) - ((r.messageLength.toNat : Int) - r.cc.bytesRemaining.toNat) := by
  simp only [outstanding, hr, hh, hstate, if_true]

theorem outstanding_eq_zero (h : ∀ r, R.homa.rpcTbl k = some r → r.state ≠ .incoming) :
    outstanding R k = 0 := by
  unfold outstanding
  grind

theorem outstanding_congr
    (hr : (R'.homa.rpcTbl k).map RpcState.core = (R.homa.rpcTbl k).map RpcState.core)
    (hl : R'.ledger k = R.ledger k) : outstanding R' k = outstanding R k := by
  unfold outstanding
  rw [hl]
  cases hr' : R'.homa.rpcTbl k with
  | none =>
    rw [hr', map_none] at hr
    rw [map_eq_none_iff.mp hr.symm]
  | some r' =>
    rw [hr', map_some] at hr
    obtain ⟨r, hr, hcore⟩ := map_eq_some_iff.mp hr.symm
    have hstate : r.core.state = r'.core.state := by rw [hcore]
    have hlen : r.core.messageLength = r'.core.messageLength := by rw [hcore]
    have hbytes : r.core.cc.bytesRemaining = r'.core.cc.bytesRemaining := by rw [hcore]
    simp only [RpcState.core] at hstate hlen hbytes
    rw [hr]
    cases R.ledger k with
    | none => rfl
    | some h => simp only [hstate, hlen, hbytes]

theorem ofInt_sub (x y : U64) : BitVec.ofInt 64 ((x.toNat : Int) - y.toNat) = x - y := by
  have hsum : BitVec.ofInt 64 ((x.toNat : Int) - y.toNat) + y = x := by
    have hy : BitVec.ofInt 64 (y.toNat : Int) = y := by simp
    calc BitVec.ofInt 64 ((x.toNat : Int) - y.toNat) + y
        = BitVec.ofInt 64 ((x.toNat : Int) - y.toNat) + BitVec.ofInt 64 (y.toNat : Int) := by
          rw [hy]
      _ = BitVec.ofInt 64 (((x.toNat : Int) - y.toNat) + y.toNat) := (ofInt_add _ _).symm
      _ = x := by simp
  exact (BitVec.sub_eq_iff_eq_add.mpr hsum.symm).symm

theorem ofInt_neg (x : U64) : BitVec.ofInt 64 (-(x.toNat : Int)) = -x := by
  have h := ofInt_sub 0#64 x
  rw [BitVec.zero_sub] at h
  rw [← h]
  simp

theorem Balanced.change (hb : Balanced R) (k : RpcKey) (δ : Int)
    (hothers : ∀ k', k' ≠ k → outstanding R' k' = outstanding R k')
    (hk : outstanding R' k = outstanding R k + δ)
    (htotal : R'.homa.totalIncoming = R.homa.totalIncoming + BitVec.ofInt 64 δ) : Balanced R' := by
  have hsum := sum_add_of_others hothers
  have hsum' : ∑ k, outstanding R' k = ∑ k, outstanding R k + δ := by
    omega
  unfold Balanced at hb ⊢
  rw [htotal, hb, hsum', ofInt_add]

theorem Balanced.same (hb : Balanced R) (hall : ∀ k, outstanding R' k = outstanding R k)
    (htotal : R'.homa.totalIncoming = R.homa.totalIncoming) : Balanced R' := by
  unfold Balanced at hb ⊢
  rw [htotal, hb, sum_congr rfl fun k _ => hall k]

theorem Balanced.eq_zero (hb : Balanced R)
    (hnone : ∀ k r, R.homa.rpcTbl k = some r → r.state ≠ .incoming) :
    R.homa.totalIncoming = 0#64 := by
  rw [hb, sum_eq_zero fun k _ => outstanding_eq_zero (hnone k)]
  rfl

end

/-! ## Live RPCs -/

/-- Every RPC in the list is receiving, and every RPC that is receiving has its entry in the
    ledger. -/
structure Live (R : Receiver) : Prop where
  nodes : ∀ a n, (a, n) ∈ R.homa.groot → ∃ r, R.homa.rpcTbl n.hkey = some r ∧ r.state = .incoming
  entries : ∀ k r, R.homa.rpcTbl k = some r → r.state = .incoming →
    ∃ h, R.ledger k = some h ∧ h.length = r.messageLength

section

variable {s' : HomaState}

theorem Live.ne_of_not_incoming (h : Live R)
    (hk : ∀ r, R.homa.rpcTbl k = some r → r.state ≠ .incoming) {a : Nat} {n : RpcStateCc}
    (hn : (a, n) ∈ R.homa.groot) : n.hkey ≠ k := by
  rintro rfl
  obtain ⟨r, hr, hstate⟩ := h.nodes a n hn
  exact hk r hr hstate

theorem GrantListOnly.lookup (h : GrantListOnly s s') (hr : s.rpcTbl k = some r) :
    ∃ r', s'.rpcTbl k = some r' ∧ r'.state = r.state ∧ r'.messageLength = r.messageLength := by
  obtain ⟨r', hr', hcore⟩ := h.exists_rpc hr
  have hstate : r'.core.state = r.core.state := by rw [hcore]
  have hlen : r'.core.messageLength = r.core.messageLength := by rw [hcore]
  exact ⟨r', hr', hstate, hlen⟩

theorem GrantListOnly.symm (h : GrantListOnly s s') : GrantListOnly s' s :=
  ⟨fun k => (h.rpcs k).symm, h.total.symm, h.grantCpu.symm, h.nonfifo.symm, h.acks.symm,
    h.qids.symm⟩

theorem Live.upkeep (h : Live ⟨s, L⟩) (hu : Upkeep s s') : Live ⟨s', L⟩ := by
  refine ⟨?_, ?_⟩
  · intro a n hn
    obtain ⟨ml, inc, hl⟩ := hu.ok.trees.listed_of_mem hn
    obtain ⟨b, m, hm, -, hk, -⟩ := hu.listed _ ml inc hl
    obtain ⟨r, hr, hstate⟩ := h.nodes b m hm
    obtain ⟨r', hr', hstate', -⟩ := hu.only.lookup hr
    rw [hk] at hr'
    exact ⟨r', hr', hstate'.trans hstate⟩
  · intro k r' hr' hstate'
    obtain ⟨r, hr, hstate, hlen⟩ := hu.only.symm.lookup hr'
    obtain ⟨m, hm, hml⟩ := h.entries k r hr (hstate.trans hstate')
    exact ⟨m, hm, hml.trans hlen⟩

theorem Balanced.grantListOnly (h : Balanced ⟨s, L⟩) (ho : GrantListOnly s s') : Balanced ⟨s', L⟩ :=
  h.same (fun k => outstanding_congr (ho.rpcs k) rfl) ho.total

theorem Live.record (h : Live R) {r' : RpcState} {x : U64} (hr : R.homa.rpcTbl k = some r)
    (hstate : r.state = .incoming) (hstate' : r'.state = .incoming)
    (hlen : r'.messageLength = r.messageLength) :
    Live ⟨{ R.homa.setRpc k r' with totalIncoming := x }, R.ledger⟩ := by
  refine ⟨?_, ?_⟩
  · intro a n hn
    by_cases hk : n.hkey = k
    · rw [hk]
      exact ⟨r', update_self .., hstate'⟩
    · obtain ⟨q, hq, hqs⟩ := h.nodes a n hn
      exact ⟨q, (rpcTbl_setRpc_of_ne _ _ hk).trans hq, hqs⟩
  · intro k' q hq hqs
    by_cases hk : k' = k
    · subst hk
      cases (rpcTbl_setRpc R.homa k' r').symm.trans hq
      obtain ⟨m, hm, hml⟩ := h.entries k' r hr hstate
      exact ⟨m, hm, hml.trans hlen.symm⟩
    · exact h.entries k' q ((rpcTbl_setRpc_of_ne _ _ hk).symm.trans hq) hqs

theorem Live.leave (h : Live R) {s' : HomaState} (hgroot : s'.groot = R.homa.groot)
    (hothers : ∀ k', k' ≠ k → s'.rpcTbl k' = R.homa.rpcTbl k')
    (hk : ∀ r, s'.rpcTbl k = some r → r.state ≠ .incoming)
    (habsent : ∀ a n, (a, n) ∈ R.homa.groot → n.hkey ≠ k) : Live ⟨s', R.ledger⟩ := by
  refine ⟨?_, ?_⟩
  · intro a n hn
    rw [hgroot] at hn
    rw [hothers _ (habsent a n hn)]
    exact h.nodes a n hn
  · intro k' r hr hstate
    by_cases hkk : k' = k
    · subst hkk
      exact absurd hstate (hk r hr)
    · exact h.entries k' r ((hothers k' hkk).symm.trans hr) hstate

theorem Balanced.leave (h : Balanced R) {s' : HomaState}
    (hothers : ∀ k', k' ≠ k → s'.rpcTbl k' = R.homa.rpcTbl k')
    (hbefore : ∀ r, R.homa.rpcTbl k = some r → r.state ≠ .incoming)
    (hafter : ∀ r, s'.rpcTbl k = some r → r.state ≠ .incoming)
    (htotal : s'.totalIncoming = R.homa.totalIncoming) : Balanced ⟨s', R.ledger⟩ := by
  refine h.same ?_ htotal
  intro k'
  by_cases hk : k' = k
  · subst hk
    rw [outstanding_eq_zero hbefore, outstanding_eq_zero hafter]
  · exact outstanding_congr (congrArg _ (hothers k' hk)) rfl

end

/-! ## Arrivals -/

section

variable {m : Message} {i : Nat} {S : Finset Nat} {r' : RpcState} {d : DataHeader} {ip : U32}
  {env : Env}

theorem NewSegment.bytesRemaining_eq (h : NewSegment net k m i S r d) {T : Finset Nat}
    (hT : T = insert i S) (hholds : Holds m T r') :
    r.cc.bytesRemaining.toNat = r'.cc.bytesRemaining.toNat + d.segLength.toNat := by
  have hbefore := h.holds.remaining
  have hafter := hholds.remaining
  rw [hT, sum_insert h.new] at hafter
  rw [h.segment.toNat_segLength]
  omega

theorem NewSegment.lastMissing (h : NewSegment net k m i S r d)
    (hfull : insert i S = Finset.range m.n) : LastMissing r d := by
  constructor
  · have hbefore := h.holds.remaining
    have hall := m.sum_segLen
    rw [← hfull, sum_insert h.new] at hall
    apply eq_of_toNat_eq
    rw [h.segment.toNat_segLength]
    omega
  · have hmem : d.seq.toNat ∉ S := by
      rw [h.segment.seq]
      exact h.new
    have hlt : d.seq.toNat < m.n := by
      rw [h.segment.seq]
      exact h.segment.lt
    obtain ⟨bm, rd, heq, -⟩ := setBitmap_of_not_mem h.holds.recorded m.le hlt hmem
    rw [heq]
    split_ifs <;> simp

theorem Holds.messageLength_eq {T : Finset Nat} (h : Holds m S r) (h' : Holds m T r') :
    r'.messageLength = r.messageLength :=
  eq_of_toNat_eq (h'.length.trans h.length.symm)

theorem Balanced.record (hb : Balanced R) (hl : Live R) (hr : R.homa.rpcTbl k = some r)
    (hstate : r.state = .incoming) (hnew : NewSegment net k m i S r d)
    (hstate' : r'.state = .incoming) (hholds : Holds m (insert i S) r') :
    Balanced ⟨{ R.homa.setRpc k r' with totalIncoming := R.homa.totalIncoming - d.segLength },
      R.ledger⟩ := by
  obtain ⟨h, hh, -⟩ := hl.entries k r hr hstate
  refine hb.change k (-(d.segLength.toNat : Int)) ?_ ?_ ?_
  · intro k' hk
    exact outstanding_congr (congrArg _ (rpcTbl_setRpc_of_ne _ _ hk)) rfl
  · refine (outstanding_of_incoming
      (R := ⟨{ R.homa.setRpc k r' with totalIncoming := R.homa.totalIncoming - d.segLength },
        R.ledger⟩) (rpcTbl_setRpc R.homa k r') hstate' hh).trans ?_
    rw [outstanding_of_incoming hr hstate hh, hnew.holds.messageLength_eq hholds,
      hnew.bytesRemaining_eq rfl hholds]
    omega
  · rw [ofInt_neg, ← sub_eq_add_neg]

theorem Balanced.start (hb : Balanced R)
    (hbefore : ∀ r₀, R.homa.rpcTbl k = some r₀ → r₀.state ≠ .incoming) (hseg : IsSegment m i d)
    (hstate : r.state = .incoming) (hholds : Holds m {i} r) :
    Balanced ⟨{ R.homa.setRpc k r with
        totalIncoming := R.homa.totalIncoming + (d.incoming.setWidth 64 - d.segLength) },
      R.ledger.start k d⟩ := by
  have hwide := toNat_setWidth_64 d.incoming
  refine hb.change k ((d.incoming.setWidth 64 : U64).toNat - d.segLength.toNat) ?_ ?_ ?_
  · intro k' hk
    exact outstanding_congr (congrArg _ (rpcTbl_setRpc_of_ne _ _ hk)) (update_of_ne hk ..)
  · refine (outstanding_of_incoming
      (R := ⟨{ R.homa.setRpc k r with
          totalIncoming := R.homa.totalIncoming + (d.incoming.setWidth 64 - d.segLength) },
        R.ledger.start k d⟩) (rpcTbl_setRpc R.homa k r) hstate (update_self ..)).trans ?_
    have hsum := hholds.remaining
    rw [Finset.sum_singleton] at hsum
    rw [outstanding_eq_zero hbefore, hseg.toNat_segLength, hholds.length, hwide]
    show (d.incoming.toNat : Int) - _ = _
    omega
  · rw [ofInt_sub]

theorem Live.start (h : Inv net R) (hl : Live R) {x : U64} (he : Enterable R.homa.groot k)
    (hseg : IsSegment m i d) (hstate : r.state = .incoming) (hholds : Holds m {i} r) :
    Live ⟨(schedule { R.homa.setRpc k r with totalIncoming := x } k r d true env).1,
      R.ledger.start k d⟩ := by
  obtain ⟨hok, hlisted⟩ := h.listed_start (x := x) (d := d) he hholds
  have honly := grantListOnly_schedule { R.homa.setRpc k r with totalIncoming := x } k r d true env
  refine ⟨?_, ?_⟩
  · intro a n hn
    obtain ⟨ml, inc, hln⟩ := TwoTrees.listed_of_mem (ListOk.trees hok) hn
    rcases hlisted _ ml inc hln with ⟨hk, -⟩ | ⟨b, y, hy, -, hk, -⟩
    · obtain ⟨r', hr', hstate', -⟩ := honly.lookup (rpcTbl_setRpc R.homa k r)
      rw [hk]
      exact ⟨r', hr', hstate'.trans hstate⟩
    · -- an RPC that was in the list before is another one
      obtain ⟨q, hq, hqs⟩ := hl.nodes b y hy
      have hother : (R.homa.setRpc k r).rpcTbl y.hkey = some q :=
        (rpcTbl_setRpc_of_ne _ _ (he.absent b y hy)).trans hq
      obtain ⟨r', hr', hstate', -⟩ := honly.lookup hother
      rw [hk] at hr'
      exact ⟨r', hr', hstate'.trans hqs⟩
  · intro k' q hq hqs
    obtain ⟨q₁, hq₁, hstate₁, hlen₁⟩ := honly.symm.lookup hq
    by_cases hk : k' = k
    · subst hk
      cases (rpcTbl_setRpc R.homa k' r).symm.trans hq₁
      refine ⟨_, update_self .., ?_⟩
      rw [← hlen₁]
      exact eq_of_toNat_eq (hseg.messageLength.trans hholds.length.symm)
    · obtain ⟨hist, hh, hlen⟩ := hl.entries k' q₁
        ((rpcTbl_setRpc_of_ne _ _ hk).symm.trans hq₁) (hstate₁.trans hqs)
      exact ⟨hist, (update_of_ne hk ..).trans hh, hlen.trans hlen₁⟩

theorem Inv.absent_of_granted (h : Inv net R) {hist : MsgHistory} (hh : R.ledger k = some hist)
    (hgranted : hist.granted = hist.length) {a : Nat} {n : RpcStateCc}
    (hn : (a, n) ∈ R.homa.groot) :
    n.hkey ≠ k := by
  rintro rfl
  obtain ⟨ml, inc, hl⟩ := h.list.trees.listed_of_mem hn
  obtain ⟨⟨hist', hh', hlen, hinc⟩, hlt, -⟩ := h.covers _ ml inc hl
  cases hh.symm.trans hh'
  rw [← hlen, ← hinc, hgranted] at hlt
  exact lt_irrefl _ hlt

theorem balanced_served (h : Inv net R) (hl : Live R) (hb : Balanced R)
    (hr : R.homa.rpcTbl k = some r) (hstate : r.state = .incoming)
    (hnew : NewSegment net k m i S r d) (hfull : insert i S = Finset.range m.n)
    (hstate' : r'.state = .inService) {hist : MsgHistory} (hh : R.ledger k = some hist)
    (hgranted : hist.granted = hist.length) :
    Live ⟨{ R.homa.setRpc k r' with totalIncoming := R.homa.totalIncoming - d.segLength },
      R.ledger⟩ ∧
    Balanced ⟨{ R.homa.setRpc k r' with totalIncoming := R.homa.totalIncoming - d.segLength },
      R.ledger⟩ := by
  have hothers (k' : RpcKey) (hk : k' ≠ k) := rpcTbl_setRpc_of_ne R.homa r' hk
  have hafter (q : RpcState) (hq : (R.homa.setRpc k r').rpcTbl k = some q) :
      q.state ≠ .incoming := by
    cases (rpcTbl_setRpc R.homa k r').symm.trans hq
    rw [hstate']
    decide
  refine ⟨hl.leave rfl hothers hafter fun a n hn => h.absent_of_granted hh hgranted hn, ?_⟩
  refine hb.change k (-(d.segLength.toNat : Int)) ?_ ?_ ?_
  · intro k' hk
    exact outstanding_congr (congrArg _ (hothers k' hk)) rfl
  · -- what was outstanding is the last segment
    obtain ⟨hist', hh', hlen⟩ := hl.entries k r hr hstate
    cases hh.symm.trans hh'
    obtain ⟨hbytes, -⟩ := hnew.lastMissing hfull
    refine (outstanding_eq_zero hafter).trans ?_
    rw [outstanding_of_incoming hr hstate hh, hgranted, hlen, hbytes]
    omega
  · rw [ofInt_neg, ← sub_eq_add_neg]

theorem balanced_data (h : Inv net R) (hl : Live R) (hb : Balanced R)
    (hd : EventDom net R (.data d ip env)) (hc : BytesCond R (.data d ip env)) :
    Live (step R (.data d ip env)) ∧ Balanced (step R (.data d ip env)) := by
  have heffect : DataEffect net R.homa d ip env (receiveData R.homa d ip env).1 :=
    receiveData_effect (h.slots (d.hkey ip)) hd
  have hlast := hc.last d ip env rfl
  unfold step
  dsimp only
  generalize (receiveData R.homa d ip env).1 = s' at heffect ⊢
  cases heffect with
  | dropped hstart =>
    rw [hstart]
    exact ⟨hl, hb⟩
  | single r hstart hnone hslot hstate hbytes =>
    rw [hstart]
    have hothers (k' : RpcKey) (hk : k' ≠ d.hkey ip) := rpcTbl_setRpc_of_ne R.homa r hk
    have hbefore (r₀ : RpcState) (hr₀ : R.homa.rpcTbl (d.hkey ip) = some r₀) :
        r₀.state ≠ .incoming := absurd (hnone.symm.trans hr₀) (by simp)
    have hafter (r' : RpcState) (hr' : (R.homa.setRpc (d.hkey ip) r).rpcTbl (d.hkey ip) = some r') :
        r'.state ≠ .incoming := by
      cases (rpcTbl_setRpc R.homa (d.hkey ip) r).symm.trans hr'
      rw [hstate]
      decide
    exact ⟨hl.leave rfl hothers hafter fun a n hn => hl.ne_of_not_incoming hbefore hn,
      hb.leave hothers hbefore hafter rfl⟩
  | start m i r hstart hnet hseg hbefore hstate hholds hincoming =>
    rw [if_pos hstart]
    have hbefore' (r₀ : RpcState) (hr₀ : R.homa.rpcTbl (d.hkey ip) = some r₀) :
        r₀.state ≠ .incoming := by
      rw [hbefore r₀ hr₀]
      decide
    exact ⟨hl.start h (hc.start hstart) hseg hstate hholds,
      (hb.start hbefore' hseg hstate hholds).grantListOnly (grantListOnly_schedule ..)⟩
  | more m i S r r' hstart hr hstate hnew hstate' hholds =>
    rw [hstart]
    have hinv := h.record (x := R.homa.totalIncoming - d.segLength) hr
      (hnew.bytesRemaining_le rfl hholds) (.receiving m _ hnew.net hstate' hholds)
    have hlive := hl.record (x := R.homa.totalIncoming - d.segLength) hr hstate hstate'
      (hnew.holds.messageLength_eq hholds)
    exact ⟨hlive.upkeep (upkeep_schedule_more hinv.list _ r' d env),
      (hb.record hl hr hstate hnew hstate' hholds).grantListOnly (grantListOnly_schedule ..)⟩
  | served m i S r r' hstart hr hserver hstate hnew hfull hstate' hholds =>
    rw [hstart]
    obtain ⟨-, hist, hh, hgranted⟩ := hlast r hr hstate (hnew.lastMissing hfull)
    exact balanced_served h hl hb hr hstate hnew hfull hstate' hh hgranted
  | finished r r' hstart hclient hr hphase =>
    rw [hstart]
    have hstate : r.state ≠ .incoming := by
      rcases hphase with hout | ⟨hin, m, i, S, hnew, hfull⟩
      · rw [hout]
        decide
      · obtain ⟨hserver, -⟩ := hlast r hr hin (hnew.lastMissing hfull)
        exact absurd (hclient.symm.trans hserver) (by decide)
    have hbefore (r₀ : RpcState) (hr₀ : R.homa.rpcTbl (d.hkey ip) = some r₀) :
        r₀.state ≠ .incoming := by
      cases hr.symm.trans hr₀
      exact hstate
    obtain ⟨htbl, hgroot, htotal⟩ := finishClientRpc_spec R.homa (d.hkey ip) r'
    have hothers (k' : RpcKey) (hk : k' ≠ d.hkey ip) :
        (finishClientRpc R.homa (d.hkey ip) r').1.rpcTbl k' = R.homa.rpcTbl k' := by
      rw [htbl]
      exact update_of_ne hk ..
    have hafter (q : RpcState)
        (hq : (finishClientRpc R.homa (d.hkey ip) r').1.rpcTbl (d.hkey ip) = some q) :
        q.state ≠ .incoming := by
      rw [htbl, update_self] at hq
      cases hq
    exact ⟨hl.leave hgroot hothers hafter
        fun a n hn => hl.ne_of_not_incoming hbefore hn,
      hb.leave hothers hbefore hafter htotal⟩

end

/-! ## Grants -/

section

variable {t₀ : RbTree RpcStateCc} {st : RoundState} {available : U32} {a : Nat} {n : RpcStateCc}
  {g : Grant}

theorem sum_outstanding_record {r : RpcState} {h : MsgHistory} (hr : s.rpcTbl g.rpc = some r)
    (hstate : r.state = .incoming) (hh : L g.rpc = some h)
    (hadd : g.offset.toNat = h.granted.toNat + g.increment.toNat) :
    ∑ k, outstanding ⟨s, L.record g⟩ k = ∑ k, outstanding ⟨s, L⟩ k + g.increment.toNat := by
  have hothers (k : RpcKey) (hk : k ≠ g.rpc) :
      outstanding ⟨s, L.record g⟩ k = outstanding ⟨s, L⟩ k :=
    outstanding_congr rfl (L.record_of_ne hk)
  have hsum := sum_add_of_others hothers
  have hbefore : outstanding ⟨s, L⟩ g.rpc = _ := outstanding_of_incoming hr hstate hh
  have hafter : outstanding ⟨s, L.record g⟩ g.rpc = _ :=
    outstanding_of_incoming hr hstate (Ledger.record_self hh)
  have hgranted : ({ h with grants := (g.offset, g.increment) :: h.grants } : MsgHistory).granted =
      g.offset := rfl
  rw [hgranted] at hafter
  omega

theorem length_recordAll (gs : List Grant) {k : RpcKey} {h : MsgHistory} (hh : L k = some h) :
    ∃ h', L.recordAll gs k = some h' ∧ h'.length = h.length := by
  induction gs generalizing L h with
  | nil => exact ⟨h, hh, rfl⟩
  | cons g gs ih =>
    by_cases hk : k = g.rpc
    · subst hk
      obtain ⟨h', hh', hlen⟩ := ih (Ledger.record_self hh)
      exact ⟨h', hh', hlen⟩
    · exact ih ((L.record_of_ne hk).trans hh)

theorem RoundOk.key_mem (h : RoundOk L t₀ st) (hn : (a, n) ∈ st.tree) :
    ∃ b m, (b, m) ∈ t₀ ∧ m.hkey = n.hkey := by
  cases htree : n.treeId with
  | rpc =>
    obtain ⟨b, m, hm, -, hk, -⟩ := h.inherits a n hn htree
    exact ⟨b, m, hm, hk⟩
  | peer =>
    obtain ⟨c, x, hx, hcopy, -⟩ := h.trees.copies a n hn htree
    obtain ⟨b, m, hm, -, hk, -⟩ := h.inherits c x hx hcopy.rpc
    exact ⟨b, m, hm, hk.trans hcopy.hkey⟩

structure RoundBalance (s : HomaState) (L : Ledger) (available : U32) (st : RoundState) : Prop
    extends RoundOk L s.groot st where
  sum : ∑ k, outstanding ⟨s, L.recordAll st.grants⟩ k =
    ∑ k, outstanding ⟨s, L⟩ k + increments st.grants
  small : ∀ g ∈ st.grants, g.increment.toNat ≤ available.toNat ∧ available.toNat < 2 ^ 31

theorem roundBalance_roundStep
    (hlive : ∀ a n, (a, n) ∈ s.groot → ∃ r, s.rpcTbl n.hkey = some r ∧ r.state = .incoming)
    (h : RoundBalance s L available st) (hn : (a, n) ∈ st.tree) (hp : n.treeId = .peer) :
    RoundBalance s L available (roundStep available st a n) := by
  have hok : RoundOk L s.groot (roundStep available st a n) :=
    roundOk_roundStep h.toRoundOk hn hp
  have hgrants := grants_roundStep available st a n
  cases hg : grantOf available n with
  | none =>
    rw [hg, elim_none, List.append_nil] at hgrants
    refine ⟨hok, ?_, ?_⟩
    · rw [hgrants]
      exact h.sum
    · rw [hgrants]
      exact h.small
  | some g =>
    rw [hg, elim_some] at hgrants
    obtain ⟨⟨hist, hh, -, hinc⟩, hlt, hmax⟩ := h.covers.node hn (.inl hp)
    obtain ⟨b, m, hm, hk⟩ := h.toRoundOk.key_mem hn
    obtain ⟨r, hr, hstate⟩ := hlive b m hm
    have hadd := grantOf_add hg (by omega)
    have hwide := toNat_setWidth_64 g.2
    refine ⟨hok, ?_, ?_⟩
    · rw [hgrants, Ledger.recordAll_append_singleton, increments_append,
        sum_outstanding_record (hk ▸ hr) hstate hh ?_, h.sum]
      · simp only [increments, List.map_cons, List.map_nil, List.sum_cons, List.sum_nil]
        omega
      · rw [hinc, hwide]
        exact hadd
    · rw [hgrants]
      intro x hx
      rcases List.mem_append.mp hx with hx | hx
      · exact h.small x hx
      · obtain rfl := List.mem_singleton.mp hx
        exact ⟨hwide.trans_le (grantOf_increment hg).2, (grantOf_cases hg).2.1⟩

theorem balanced_round (h : Inv net R) (hl : Live R) (hb : Balanced R) (cpu : Nat)
    (hroom : (availableBytes R.homa.totalIncoming).toInt < 2 ^ 29) :
    Live (step R (.round cpu true)) ∧ Balanced (step R (.round cpu true)) := by
  have hround : RoundBalance R.homa R.ledger (availableBytes R.homa.totalIncoming)
      (roundEnd R.homa cpu) := by
    refine roundLoop_induction (fun _ _ _ hst hn hp => roundBalance_roundStep hl.nodes hst hn hp)
      homaOvercommitment ⟨roundOk_start h.list h.covers cpu, ?_, ?_⟩
    · simp [RoundState.start, increments]
    · exact fun _ hg => absurd hg List.not_mem_nil
  have hsmall (g : Grant) (hg : g ∈ (roundEnd R.homa cpu).grants) :
      g.increment.toNat ≤ 2 ^ 29 - 1 := by
    obtain ⟨hle, hpos⟩ := hround.small g hg
    rw [toInt_eq_toNat_of_lt (by omega)] at hroom
    omega
  have htotal := totalIncoming_round (by decide) hsmall
  refine ⟨⟨?_, ?_⟩, ?_⟩
  · intro a n hn
    have hn' : (a, n) ∈ (roundEnd R.homa cpu).tree := by
      rw [← groot_chooseRpcToGrantProg]
      exact hn
    obtain ⟨b, m, hm, hk⟩ := hround.toRoundOk.key_mem hn'
    show ∃ r, (chooseRpcToGrantProg R.homa cpu true).1.rpcTbl n.hkey = some r ∧ _
    rw [rpcTbl_chooseRpcToGrantProg, ← hk]
    exact hl.nodes b m hm
  · intro k r hr hstate
    rw [step, rpcTbl_chooseRpcToGrantProg] at hr
    obtain ⟨hist, hh, hlen⟩ := hl.entries k r hr hstate
    obtain ⟨hist', hh', hlen'⟩ :=
      length_recordAll (chooseRpcToGrantProg R.homa cpu true).2.1 hh
    exact ⟨hist', hh', hlen'.trans hlen⟩
  · have hall (k : RpcKey) : outstanding (step R (.round cpu true)) k =
        outstanding ⟨R.homa, R.ledger.recordAll (roundEnd R.homa cpu).grants⟩ k := by
      refine outstanding_congr ?_ ?_
      · exact congrArg (fun t => (t k).map RpcState.core) (rpcTbl_chooseRpcToGrantProg ..)
      · exact congrArg (fun gs => R.ledger.recordAll gs k) (grants_chooseRpcToGrantProg ..)
    unfold Balanced at hb ⊢
    rw [sum_congr rfl fun k _ => hall k, hround.sum, ofInt_add, ← hb, ofInt_natCast]
    exact htotal

theorem balanced_fifo (h : Inv net R) (hl : Live R) (hb : Balanced R)
    (hd : EventDom net R (.fifo a)) : Live (step R (.fifo a)) ∧ Balanced (step R (.fifo a)) := by
  obtain ⟨n, hn, hrpc, hun⟩ := FifoFound.node hd
  obtain ⟨⟨hist, hh, -, hinc⟩, hlt, hmax⟩ := h.covers.node hn (.inr hun)
  obtain ⟨hadd, -⟩ := fifoGrant_spec hlt hmax
  obtain ⟨r, hr, hstate⟩ := hl.nodes a n hn
  have htbl : (grantFifoRpc R.homa a).1.rpcTbl = R.homa.rpcTbl := rpcTbl_grantFifoRpc R.homa a
  refine ⟨⟨?_, ?_⟩, ?_⟩
  · intro b y hy
    have hy' : ∃ x, (b, x) ∈ R.homa.groot ∧ x.hkey = y.hkey := by
      have hmem : (b, y) ∈ R.homa.groot.write a fun m =>
        { m with incoming := (fifoGrant n).1 } := by
        have hgroot := groot_grantFifoRpc hn hlt hmax
        rw [step, hgroot] at hy
        split_ifs at hy
        · exact (RbTree.mem_remove.mp hy).2
        · exact hy
      obtain ⟨x, hx, rfl⟩ := RbTree.mem_write.mp hmem
      refine ⟨x, hx, ?_⟩
      split_ifs <;> rfl
    obtain ⟨x, hx, hk⟩ := hy'
    show ∃ r, (grantFifoRpc R.homa a).1.rpcTbl y.hkey = some r ∧ _
    rw [htbl, ← hk]
    exact hl.nodes b x hx
  · intro k q hq hqs
    rw [step, htbl] at hq
    obtain ⟨hist', hh', hlen'⟩ := hl.entries k q hq hqs
    obtain ⟨hist'', hh'', hlen''⟩ := length_recordAll (fifoGrants R.homa a) hh'
    exact ⟨hist'', hh'', hlen''.trans hlen'⟩
  · have hall (k : RpcKey) : outstanding (step R (.fifo a)) k =
        outstanding ⟨R.homa, R.ledger.record ⟨n.hkey, (fifoGrant n).1, (fifoGrant n).2⟩⟩ k := by
      refine outstanding_congr ?_ ?_
      · exact congrArg (fun t => (t k).map RpcState.core) htbl
      · exact congrArg (fun gs => R.ledger.recordAll gs k) (fifoGrants_of_mem hn)
    unfold Balanced at hb ⊢
    rw [sum_congr rfl fun k _ => hall k, sum_outstanding_record hr hstate hh ?_, ofInt_add, ← hb]
    · rw [step, totalIncoming_grantFifoRpc hn]
      simp
    · rw [hinc]
      exact hadd

end

/-! ## Runs -/

section

variable {e : Event}

theorem balanced_step (h : Inv net R) (hl : Live R) (hb : Balanced R) (hd : EventDom net R e)
    (hc : BytesCond R e) : Live (step R e) ∧ Balanced (step R e) := by
  cases e with
  | data d ip env => exact balanced_data h hl hb hd hc
  | round cpu ok =>
    cases ok with
    | false => exact ⟨hl, hb⟩
    | true => exact balanced_round h hl hb cpu (hc.headroom cpu true rfl)
  | fifo a => exact balanced_fifo h hl hb hd
  | completeGrant cpu i ok =>
    have hu := upkeep_completeGrantProg h.list cpu i ok
    exact ⟨hl.upkeep hu, hb.grantListOnly hu.only⟩
  | updateCached cpu ok =>
    have hu := upkeep_updateGrantForCachedRpc h.list cpu ok
    exact ⟨hl.upkeep hu, hb.grantListOnly hu.only⟩
  | request k r =>
    obtain ⟨hnone, -, hstate, habsent⟩ := hd
    have hothers (k' : RpcKey) (hk : k' ≠ k) := rpcTbl_setRpc_of_ne R.homa r hk
    have hafter (q : RpcState) (hq : (R.homa.setRpc k r).rpcTbl k = some q) :
        q.state ≠ .incoming := by
      cases (rpcTbl_setRpc R.homa k r).symm.trans hq
      rw [hstate]
      decide
    have hbefore (q : RpcState) (hq : R.homa.rpcTbl k = some q) : q.state ≠ .incoming :=
      absurd (hnone.symm.trans hq) (by simp)
    exact ⟨hl.leave rfl hothers hafter habsent, hb.leave hothers hbefore hafter rfl⟩
  | remove k =>
    have hbefore := hc.removed k rfl
    have hothers (k' : RpcKey) (hk : k' ≠ k) :
        (R.homa.deleteRpc k).rpcTbl k' = R.homa.rpcTbl k' := update_of_ne hk ..
    have hafter (q : RpcState) (hq : (R.homa.deleteRpc k).rpcTbl k = some q) :
        q.state ≠ .incoming := by
      cases (update_self (f := R.homa.rpcTbl) ..).symm.trans hq
    exact ⟨hl.leave rfl hothers hafter fun a n hn => hl.ne_of_not_incoming hbefore hn,
      hb.leave hothers hbefore hafter rfl⟩

theorem balanced_initial : Balanced .initial := by
  unfold Balanced
  have hnone (k : RpcKey) : outstanding .initial k = 0 := rfl
  rw [sum_eq_zero fun k _ => hnone k]
  rfl

/-- **Incoming bytes.** `total_incoming` is the sum of what was granted and has not arrived, if each
    step meets the condition. -/
theorem incoming_bytes_balanced (net : RpcKey → Option Message) (es : List Event)
    (hdom : Meets step (EventDom net) .initial es) (hcond : Meets step BytesCond .initial es) :
    Always step Balanced .initial es := by
  have hstep (R : Receiver) (e : Event) (h : Inv net R ∧ Live R ∧ Balanced R)
      (hok : EventDom net R e ∧ BytesCond R e) :
      Inv net (step R e) ∧ Live (step R e) ∧ Balanced (step R e) :=
    ⟨inv_step h.1 hok.1 hok.2.start, balanced_step h.1 h.2.1 h.2.2 hok.1 hok.2⟩
  have hinit : Inv net .initial ∧ Live .initial ∧ Balanced .initial :=
    ⟨inv_initial net, ⟨fun _ _ hn => absurd hn (RbTree.not_mem_empty _), fun _ _ hr => nomatch hr⟩,
      balanced_initial⟩
  exact (always_of_meets hstep hinit (hdom.and hcond)).mono fun _ h => h.2.2

end

/-! ## A message with a grant -/

def hundredArrive (i : Nat) : Event :=
  .data (segmentOf hundredSegments 4 i) 1 ⟨0, 1000, true, true, true⟩

/-- Two segments of a long message arrive, and a round grants more of it. -/
def grantRun : List Event := [hundredArrive 0, hundredArrive 2, .round 0 true]

theorem eventDom_grantRun : Meets step (EventDom fun _ => some hundredSegments) .initial grantRun :=
  ⟨⟨0, isSegment_segmentOf hundredSegments 4 (by decide)⟩,
    ⟨2, isSegment_segmentOf hundredSegments 4 (by decide)⟩, trivial, trivial⟩

theorem bytesCond_grantRun : Meets step BytesCond .initial grantRun := by
  refine ⟨⟨?_, ?_, nofun, nofun⟩, ⟨?_, ?_, nofun, nofun⟩, ⟨trivial, nofun, nofun, ?_⟩, trivial⟩
  · intro _
    exact ⟨by decide, fun _ _ hn => absurd hn (RbTree.not_mem_empty _),
      fun _ _ hn => absurd hn (RbTree.not_mem_empty _)⟩
  · rintro _ _ _ ⟨⟩ r hr
    cases hr
  · have hstarted : startsMessage (step .initial (hundredArrive 0)).homa
        (segmentOf hundredSegments 4 2) 1 ⟨0, 1000, true, true, true⟩ = false := by
      decide +kernel
    intro hstart
    cases hstarted.symm.trans hstart
  · rintro _ _ _ ⟨⟩ r hr - hmissing
    have hleft : ((step .initial (hundredArrive 0)).homa.rpcTbl
        ((segmentOf hundredSegments 4 2).hkey 1)).map (·.cc.bytesRemaining) = some 140580#64 := by
      decide +kernel
    rw [hr, map_some, hmissing.1] at hleft
    exact absurd hleft (by decide)
  · rintro _ _ ⟨⟩
    decide +kernel

theorem incoming_bytes_balanced_grantRun :
    (run step .initial grantRun).homa.totalIncoming = 98580#64 ∧
      Always step Balanced .initial grantRun :=
  ⟨by decide +kernel, incoming_bytes_balanced _ _ eventDom_grantRun bytesCond_grantRun⟩

/-- **The receiver stays in order**: the grant list is sorted, with one entry for each peer, and
    says what was granted; the bitmap and the counters of an RPC describe the same segments. -/
theorem receiver_inv_always {net : RpcKey → Option Message} {es : List Event}
    (hdom : Meets step (EventDom net) .initial es) (hok : Meets step StartOk .initial es) :
    Always step (Inv net) .initial es :=
  always_of_meets (fun _ _ h he => inv_step h he.1 he.2) (inv_initial net) (hdom.and hok)

theorem receiver_inv_grantRun : (run step .initial grantRun).homa.groot.nodes.length = 2 ∧
    Always step (Inv fun _ => some hundredSegments) .initial grantRun :=
  ⟨by decide +kernel, receiver_inv_always eventDom_grantRun
    (bytesCond_grantRun.mono fun _ _ h => h.start)⟩

/-! ## A response of two packets -/

def twoSegmentsArrive (senderId i : Nat) : Event :=
  .data (segmentOf twoPackets senderId i) 1 ⟨0, 1000, true, true, true⟩

def allTwoSegments : RpcKey → Option Message := fun _ => some twoPackets

theorem eventDom_twoSegmentsArrive (R : Receiver) (senderId : Nat) {i : Nat} (hi : i < 2) :
    EventDom allTwoSegments R (twoSegmentsArrive senderId i) := by
  show Arrives allTwoSegments (segmentOf twoPackets senderId i) 1
  exact arrives_of_segment rfl (isSegment_segmentOf twoPackets senderId hi)

def twoPacketResponse : List Event :=
  [.request ⟨4, 9, 7, 1⟩ { RpcState.zero with state := .outgoing },
    twoSegmentsArrive 5 0, twoSegmentsArrive 5 1]

theorem rpcTbl_none_of_ne {R : Receiver} (h : Inv allTwoSegments R) (senderId : Nat) {i : Nat}
    (hi : i < 2) {k : RpcKey} (hk : k ≠ (segmentOf twoPackets senderId i).hkey 1)
    (hnone : R.homa.rpcTbl k = none) :
    (step R (twoSegmentsArrive senderId i)).homa.rpcTbl k = none := by
  have heffect : DataEffect allTwoSegments R.homa (segmentOf twoPackets senderId i) 1
      ⟨0, 1000, true, true, true⟩ (step R (twoSegmentsArrive senderId i)).homa :=
    receiveData_effect (h.slots _) (eventDom_twoSegmentsArrive R senderId hi)
  have hcore := heffect.core_of_ne hk
  rw [hnone] at hcore
  exact map_eq_none_iff.mp hcore

/-- Both packets have arrived and no RPC is left, but the 580 bytes of the second one are still
    counted. -/
theorem response_leaves_bytes :
    ¬ (Meets step (EventDom allTwoSegments) .initial twoPacketResponse →
      Always step Balanced .initial twoPacketResponse) := by
  intro h
  have hrequest : EventDom allTwoSegments .initial
      (.request ⟨4, 9, 7, 1⟩ { RpcState.zero with state := .outgoing }) :=
    ⟨rfl, by decide, rfl, fun _ _ hn => absurd hn (RbTree.not_mem_empty _)⟩
  have hdom : Meets step (EventDom allTwoSegments) .initial twoPacketResponse :=
    ⟨hrequest, eventDom_twoSegmentsArrive _ 5 (by decide),
      eventDom_twoSegmentsArrive _ 5 (by decide), trivial⟩
  have hinv₁ := inv_step (inv_initial allTwoSegments) hrequest trivial
  have hinv₂ := inv_step hinv₁ (eventDom_twoSegmentsArrive _ 5 (i := 0) (by decide)) fun _ =>
    ⟨by decide, fun _ _ hn => absurd hn (RbTree.not_mem_empty _),
      fun _ _ hn => absurd hn (RbTree.not_mem_empty _)⟩
  -- no RPC is left
  have hgone (k : RpcKey) (r : RpcState)
      (hr : (run step .initial twoPacketResponse).homa.rpcTbl k = some r) :
      r.state ≠ .incoming := by
    by_cases hk : k = ⟨4, 9, 7, 1⟩
    · subst hk
      have hnone : ((run step .initial twoPacketResponse).homa.rpcTbl ⟨4, 9, 7, 1⟩).isNone =
        true := by
        decide +kernel
      rw [hr] at hnone
      cases hnone
    · have hnone := rpcTbl_none_of_ne hinv₂ 5 (i := 1) (by decide) hk
        (rpcTbl_none_of_ne hinv₁ 5 (i := 0) (by decide) hk (update_of_ne hk ..))
      cases hnone.symm.trans hr
  have hend : Balanced (run step .initial twoPacketResponse) := (h hdom).2.2.2
  have hzero : (run step .initial twoPacketResponse).homa.totalIncoming ≠ 0#64 := by
    decide +kernel
  exact hzero (hend.eq_zero hgone)

end MtpXdp.Homa

import MtpXdp.Core.Holding
import MtpXdp.Core.Run
import MtpXdp.Homa.Egress
import MtpXdp.Homa.Receive

/-!
# Conservation of Queue Ids

An RPC takes a queue id from `avail_pacing_idx` with its first packet and is to give it back when it
is deleted; `MAX_BUCKET_SIZE` says that it has none. A request that arrives creates its RPC from
zeroed memory and so claims the id 0; UNKNOWN packets and the timer delete an RPC without giving its
id back; and the first packet of a response overwrites the id.
-/

namespace MtpXdp.Homa

open Ebpf (U16 U32 U64)
open MtpXdp.Core List Function Option HomaState RpcState

/-! ## RPCs that end without a response -/

structure HomaAck where
  rpcid : U64
  sport : U16
  dport : U16

def HomaAck.hkey (ack : HomaAck) (remoteIp : U32) : RpcKey where
  rpcid := localId ack.rpcid
  localPort := ack.dport
  remotePort := ack.sport
  remoteIp := remoteIp

def HomaState.releaseQid (s : HomaState) (r : RpcState) : HomaState :=
  if r.qid ≠ maxBucketSize then s.freeQid r.qid else s

def reclaimRpc (s : HomaState) (ack : HomaAck) (remoteIp : U32) : HomaState × U64 :=
  if ack.rpcid = 0 ∧ ack.dport = 0 ∧ ack.sport = 0 then (s, poison64)
  else
    let k := ack.hkey remoteIp
    match s.rpcTbl k with
    | none => (s, poison64)
    | some r =>
      if r.state = .dead then (s, poison64)
      else ((s.releaseQid r).deleteRpc k, r.bufferHead)

structure CommonHeader where
  sport : U16
  dport : U16
  senderId : U64

def CommonHeader.hkey (h : CommonHeader) (remoteIp : U32) : RpcKey where
  rpcid := localId h.senderId
  localPort := h.dport
  remotePort := h.sport
  remoteIp := remoteIp

/-- The types that `unknown_pkt` can leave in the header. -/
inductive PacketType where
  | resend
  | unknown

structure UnknownResult where
  type : PacketType
  reapClientBufferAddr : U64
  reapServerBufferAddr : U64

def UnknownResult.unchanged : UnknownResult := ⟨.unknown, poison64, poison64⟩

/-- `unknown_pkt`. The client asks for everything again, if it can (`tailOk`); the server deletes
    the RPC. -/
def unknownPkt (s : HomaState) (h : CommonHeader) (remoteIp : U32) (tailOk : Bool) :
    HomaState × UnknownResult :=
  let k := h.hkey remoteIp
  match s.rpcTbl k with
  | none => (s, .unchanged)
  | some r =>
    if r.state = .dead then (s, .unchanged)
    else if rpcIsClient k.rpcid then
      if r.state = .outgoing then
        -- the address is written before the packet is extended
        (s, ⟨if tailOk then .resend else .unknown, poison64, r.bufferHead⟩)
      else (s, .unchanged)
    else (s.deleteRpc k, ⟨.resend, r.bufferHead, poison64⟩)

theorem unknownPkt_cases (s : HomaState) (h : CommonHeader) (ip : U32) (tailOk : Bool) :
    ((unknownPkt s h ip tailOk).1 = s ∧
      (unknownPkt s h ip tailOk).2.reapClientBufferAddr = poison64) ∨
    ∃ r, s.rpcTbl (h.hkey ip) = some r ∧ r.state ≠ .dead ∧ rpcIsClient (h.hkey ip).rpcid = false ∧
      unknownPkt s h ip tailOk = (s.deleteRpc (h.hkey ip), ⟨.resend, r.bufferHead, poison64⟩) := by
  cases hr : s.rpcTbl (h.hkey ip) with
  | none => exact .inl (by simp [unknownPkt, hr, UnknownResult.unchanged])
  | some r =>
    by_cases hdead : r.state = .dead
    · exact .inl (by simp [unknownPkt, hr, hdead, UnknownResult.unchanged])
    · cases hclient : rpcIsClient (h.hkey ip).rpcid with
      | true =>
        refine .inl ?_
        simp only [unknownPkt, hr, hdead, hclient, if_true, if_false]
        split_ifs <;> exact ⟨rfl, rfl⟩
      | false => exact .inr ⟨r, rfl, hdead, rfl, by simp [unknownPkt, hr, hdead, hclient]⟩

/-- The timer of `poll_homa_to` deletes an RPC, with `bpf_map_delete_batch`. -/
def abortRpc (s : HomaState) (k : RpcKey) : HomaState := s.deleteRpc k

variable {s s' : HomaState} {k : RpcKey} {q : U64} {r : RpcState}

/-! ## Ids and their owners -/

def queueIds : List U64 := (List.range maxBucketSize.toNat).map (BitVec.ofNat 64)

def RpcState.queueId (r : RpcState) : Option U64 :=
  if r.qid = maxBucketSize then none else some r.qid

def HomaState.heldId (s : HomaState) (k : RpcKey) : Option U64 :=
  (s.rpcTbl k).bind RpcState.queueId

def IdsConserved (s : HomaState) : Prop :=
  ∀ q ∈ queueIds, (s.availPacingIdx.count q = 1 ∧ ∀ k, s.heldId k ≠ some q) ∨
    (q ∉ s.availPacingIdx ∧ ∃! k, s.heldId k = some q)

structure IdInv (s : HomaState) : Prop where
  leased : Leased queueIds s.availPacingIdx s.heldId
  free_mem : ∀ q ∈ s.availPacingIdx, q ∈ queueIds
  held_mem : ∀ k q, s.heldId k = some q → q ∈ queueIds

theorem mem_queueIds {q : U64} : q ∈ queueIds ↔ q.toNat < maxBucketSize.toNat := by
  simp only [queueIds, List.mem_map, List.mem_range]
  constructor
  · rintro ⟨i, hi, rfl⟩
    rw [BitVec.toNat_ofNat, Nat.mod_eq_of_lt (hi.trans (by decide))]
    exact hi
  · intro hq
    exact ⟨q.toNat, hq, by rw [BitVec.ofNat_toNat, BitVec.setWidth_eq]⟩

theorem length_queueIds : queueIds.length = maxBucketSize.toNat := by
  rw [queueIds, length_map, length_range]

theorem nodup_queueIds : queueIds.Nodup := by
  apply List.Nodup.map_on _ List.nodup_range
  intro i hi j hj heq
  have hbound : ∀ n ∈ List.range maxBucketSize.toNat, n < 2 ^ 64 := fun n hn =>
    (List.mem_range.mp hn).trans (by decide)
  have hnat := congrArg BitVec.toNat heq
  rwa [BitVec.toNat_ofNat, BitVec.toNat_ofNat, Nat.mod_eq_of_lt (hbound i hi),
    Nat.mod_eq_of_lt (hbound j hj)] at hnat

theorem ne_maxBucketSize_of_mem {q : U64} (hq : q ∈ queueIds) : q ≠ maxBucketSize := by
  rintro rfl
  exact absurd (mem_queueIds.mp hq) (lt_irrefl _)

namespace IdInv

theorem initial (hfree : s.availPacingIdx.Perm queueIds) (hheld : ∀ k, s.heldId k = none) :
    IdInv s where
  leased := by
    rw [show s.heldId = fun _ => none from funext hheld]
    exact (Leased.initial nodup_queueIds).perm hfree
  free_mem _ hq := hfree.mem_iff.mp hq
  held_mem k q hk := absurd ((hheld k).symm.trans hk) (some_ne_none q).symm

theorem length_lt (h : IdInv s) (hk : s.heldId k = some q) :
    s.availPacingIdx.length < maxBucketSize.toNat := by
  have hnodup : (q :: s.availPacingIdx).Nodup :=
    nodup_cons.mpr ⟨h.leased.not_free k q hk, h.leased.nodup⟩
  have hsub : q :: s.availPacingIdx ⊆ queueIds :=
    cons_subset.mpr ⟨h.held_mem k q hk, h.free_mem⟩
  have hle := (hnodup.subperm hsub).length_le
  rwa [length_queueIds] at hle

theorem conserved (h : IdInv s) : IdsConserved s := by
  intro q hq
  by_cases hfree : q ∈ s.availPacingIdx
  · exact .inl ⟨count_eq_one_of_mem h.leased.nodup hfree, fun k hk =>
      h.leased.not_free k q hk hfree⟩
  · rcases h.leased.covered q hq with hmem | ⟨k, hk⟩
    · exact absurd hmem hfree
    · exact .inr ⟨hfree, k, hk, fun k' hk' => h.leased.distinct hk' hk⟩

end IdInv

/-! ## Reading the owners -/

theorem heldId_eq (h : s.rpcTbl k = some r) : s.heldId k = r.queueId := by
  rw [heldId, h]
  rfl

theorem heldId_setRpc (s : HomaState) (k : RpcKey) (r : RpcState) :
    (s.setRpc k r).heldId = update s.heldId k r.queueId := by
  funext k'
  by_cases hk : k' = k
  · subst hk
    rw [update_self, heldId_eq (rpcTbl_setRpc s k' r)]
  · rw [update_of_ne hk, heldId, rpcTbl_setRpc_of_ne s r hk]
    rfl

theorem heldId_setRpc_same {r' : RpcState} (h : s.rpcTbl k = some r) (hq : r'.qid = r.qid) :
    (s.setRpc k r').heldId = s.heldId := by
  have hid : r'.queueId = s.heldId k := by rw [heldId_eq h, queueId, hq]; rfl
  rw [heldId_setRpc, hid, update_eq_self]

theorem heldId_deleteRpc (s : HomaState) (k : RpcKey) :
    (s.deleteRpc k).heldId = update s.heldId k none := by
  funext k'
  by_cases hk : k' = k
  · subst hk
    simp only [heldId, deleteRpc, update_self, bind_none]
  · rw [update_of_ne hk]
    simp only [heldId, deleteRpc, update_of_ne hk]

theorem heldId_freeQid (s : HomaState) (q : U64) : (s.freeQid q).heldId = s.heldId := by
  unfold freeQid
  split_ifs <;> rfl

theorem GrantListOnly.heldId (h : GrantListOnly s s') : s'.heldId = s.heldId := by
  funext k
  have hcore : ∀ t : HomaState, t.heldId k = ((t.rpcTbl k).map core).bind
      queueId := by
    intro t
    rw [HomaState.heldId, bind_map]
    rfl
  rw [hcore, hcore, h.rpcs]

/-! ## Taking an id and giving it back -/

/-- Nothing to the ids, or the RPC `k` takes one, or it gives its own back. -/
inductive IdEffect (k : RpcKey) (s s' : HomaState) : Prop where
  | kept (hfree : s'.availPacingIdx = s.availPacingIdx) (hheld : s'.heldId = s.heldId)
  | taken (q : U64) (hfree : s.availPacingIdx = q :: s'.availPacingIdx)
      (hnone : s.heldId k = none) (hheld : s'.heldId = update s.heldId k (some q))
  | returned (q : U64) (hhad : s.heldId k = some q)
      (hfree : s'.availPacingIdx = s.availPacingIdx ++ [q])
      (hheld : s'.heldId = update s.heldId k none)

section

variable {s₁ : HomaState}

theorem IdEffect.refl (k : RpcKey) (s : HomaState) : IdEffect k s s := .kept rfl rfl

theorem IdEffect.of_same (h : IdEffect k s₁ s') (hfree : s₁.availPacingIdx = s.availPacingIdx)
    (hheld : s₁.heldId = s.heldId) : IdEffect k s s' := by
  cases h with
  | kept hf hh => exact .kept (hf.trans hfree) (hh.trans hheld)
  | taken q hf hn hh => exact .taken q (hfree ▸ hf) (hheld ▸ hn) (hheld ▸ hh)
  | returned q hhad hf hh => exact .returned q (hheld ▸ hhad) (hfree ▸ hf) (hheld ▸ hh)

theorem IdEffect.inv (h : IdEffect k s s') (hinv : IdInv s) : IdInv s' := by
  cases h with
  | kept hfree hheld =>
    exact ⟨hfree ▸ hheld ▸ hinv.leased, hfree ▸ hinv.free_mem, hheld ▸ hinv.held_mem⟩
  | taken q hfree hnone hheld =>
    have hmem := hinv.free_mem
    have hl := hinv.leased
    rw [hfree] at hl hmem
    refine ⟨hheld ▸ hl.take hnone, fun p hp => hmem p (mem_cons_of_mem q hp), ?_⟩
    intro k' p hp
    rw [hheld] at hp
    grind [hinv.held_mem k' p]
  | returned q hhad hfree hheld =>
    refine ⟨hfree ▸ hheld ▸ hinv.leased.giveBack hhad, ?_, ?_⟩
    · grind [hinv.free_mem, hinv.held_mem k q hhad]
    · intro k' p hp
      rw [hheld] at hp
      grind [hinv.held_mem k' p]

theorem effect_release (hinv : IdInv s) (hr : s.heldId k = r.queueId)
    (hfree : s'.availPacingIdx = (s.releaseQid r).availPacingIdx)
    (hheld : s'.heldId = update s.heldId k none) : IdEffect k s s' := by
  unfold releaseQid at hfree
  by_cases hq : r.qid = maxBucketSize
  · have hnone : s.heldId k = none := by rw [hr, queueId, if_pos hq]
    rw [if_neg (not_not.mpr hq)] at hfree
    rw [← hnone, update_eq_self] at hheld
    exact .kept hfree hheld
  · have hsome : s.heldId k = some r.qid := by rw [hr, queueId, if_neg hq]
    rw [if_pos hq, freeQid, if_pos (hinv.length_lt hsome)] at hfree
    exact .returned r.qid hsome hfree hheld

theorem heldId_releaseQid (s : HomaState) (r : RpcState) : (s.releaseQid r).heldId = s.heldId := by
  unfold releaseQid
  split_ifs
  · exact heldId_freeQid s r.qid
  · rfl

/-! ## The calls that keep the account -/

theorem effect_clientResponse (hinv : IdInv s) (d : DataHeader) (ip : U32) (env : Env) :
    IdEffect (d.hkey ip) s (clientResponse s d ip env).1 := by
  have hcase := clientResponse_cases s d ip env
  generalize clientResponse s d ip env = p at hcase ⊢
  cases hcase with
  | refused => exact .refl _ s
  | recorded r r' x v s' hr hqid _ hgrant =>
    exact .kept hgrant.qids (hgrant.heldId.trans (heldId_setRpc_same hr hqid))
  | finished r r' hr hqid =>
    have hheld : s.heldId (d.hkey ip) = r'.queueId := by
      rw [heldId_eq hr, queueId, queueId, hqid]
    refine effect_release hinv hheld rfl ?_
    -- the acknowledgement that is queued in between does not concern the ids
    rw [← heldId_releaseQid s r']
    exact heldId_deleteRpc ((s.releaseQid r').enqueueDeadCrpc (d.hkey ip)) (d.hkey ip)

theorem effect_reclaimRpc (hinv : IdInv s) (ack : HomaAck) (ip : U32) :
    IdEffect (ack.hkey ip) s (reclaimRpc s ack ip).1 := by
  unfold reclaimRpc
  split_ifs
  · exact .refl _ s
  · dsimp only
    cases hr : s.rpcTbl (ack.hkey ip) with
    | none => exact .refl _ s
    | some r =>
      dsimp only
      split_ifs
      · exact .refl _ s
      · refine effect_release hinv (heldId_eq hr) rfl ?_
        rw [heldId_deleteRpc, heldId_releaseQid]

theorem heldId_none_of_absent (h : s.rpcTbl k = none) : s.heldId k = none := by
  rw [heldId, h, bind_none]

theorem effect_sendOrThrottle {t : TxState} (hfree : ∀ q ∈ t.homa.availPacingIdx, q ≠ maxBucketSize)
    (hr : t.homa.rpcTbl k = some r) (d : DataHeader) (env : TxEnv) :
    IdEffect k t.homa (sendOrThrottle t k r d env).1.homa := by
  rw [homa_sendOrThrottle]
  split_ifs with hsend hqid
  · exact .kept rfl (heldId_setRpc_same hr rfl)
  · have hnone : t.homa.heldId k = none := by rw [heldId_eq hr, queueId, if_pos hqid]
    cases havail : t.homa.availPacingIdx with
    | nil =>
      simp only [allocateQid, havail]
      exact .kept rfl (heldId_setRpc_same hr hqid.symm)
    | cons q rest =>
      simp only [allocateQid, havail]
      refine .taken q havail hnone ((heldId_setRpc ..).trans ?_)
      rw [queueId, if_neg (hfree q (havail ▸ mem_cons_self))]
      rfl
  · exact .kept rfl (heldId_setRpc_same hr rfl)

theorem effect_clientRequest {t : TxState} (hinv : IdInv t.homa) (d : DataHeader) (daddr : U32)
    (buf : U64) (env : TxEnv) :
    IdEffect (d.txKey daddr) t.homa (clientRequest t d daddr buf env).1.homa := by
  have hfree : ∀ q ∈ t.homa.availPacingIdx, q ≠ maxBucketSize := fun q hq =>
    ne_maxBucketSize_of_mem (hinv.free_mem q hq)
  cases hr : t.homa.rpcTbl (d.txKey daddr) with
  | none =>
    -- a new RPC has no id
    have hheld : (t.homa.setRpc (d.txKey daddr) (newClientRpc (d.txKey daddr) d buf)).heldId =
        t.homa.heldId := by
      rw [heldId_setRpc]
      exact (congrArg _ (heldId_none_of_absent hr).symm).trans (update_eq_self ..)
    simp only [clientRequest, hr]
    split_ifs
    · exact .kept rfl hheld
    · have heffect := effect_sendOrThrottle (t := { t with
        homa := t.homa.setRpc (d.txKey daddr) (newClientRpc (d.txKey daddr) d buf)
        ccNode := update t.ccNode (d.txKey daddr) none }) hfree (rpcTbl_setRpc ..) d env
      exact heffect.of_same rfl hheld
    · exact .refl _ _
  | some r =>
    simp only [clientRequest, hr]
    split_ifs
    · exact .refl _ _
    · exact effect_sendOrThrottle hfree hr d env

end

/-! ## Runs -/

inductive IdEvent where
  | clientRequest (d : DataHeader) (daddr : U32) (bufferAddr : U64) (env : TxEnv)
  | serverResponse (d : DataHeader) (daddr : U32) (bufferAddr : U64) (env : TxEnv)
  | serverRequest (d : DataHeader) (remoteIp : U32) (env : Env)
  | clientResponse (d : DataHeader) (remoteIp : U32) (env : Env)
  | reclaim (ack : HomaAck) (remoteIp : U32)
  | unknown (h : CommonHeader) (remoteIp : U32) (tailOk : Bool)
  | abort (k : RpcKey)

/-- The object of an RPC goes when the RPC is deleted or starts to receive. -/
def TxState.withHoma (s : TxState) (h : HomaState) : TxState :=
  { s with
    homa := h
    ccNode := fun k => if (h.rpcTbl k).any (·.state = .outgoing) then s.ccNode k else none }

def idStep (s : TxState) : IdEvent → TxState
  | .clientRequest d daddr buf env => (Homa.clientRequest s d daddr buf env).1
  | .serverResponse d daddr buf env => (Homa.serverResponse s d daddr buf env).1
  | .serverRequest d ip env => s.withHoma (Homa.serverRequest s.homa d ip env).1
  | .clientResponse d ip env => s.withHoma (Homa.clientResponse s.homa d ip env).1
  | .reclaim ack ip => s.withHoma (reclaimRpc s.homa ack ip).1
  | .unknown h ip tailOk => s.withHoma (unknownPkt s.homa h ip tailOk).1
  | .abort k => s.withHoma (abortRpc s.homa k)

/-- No request creates an RPC, and no response or deletion other than a reclaim meets one with an
    id. -/
def KeepsIds (s : TxState) : IdEvent → Prop
  | .serverResponse d daddr _ _ => d.seq = 0 → s.homa.heldId (d.txKey daddr) = none
  | .serverRequest d ip env =>
    s.homa.rpcTbl (d.hkey ip) = none → d.retransmit = true ∨ env.mapOk = false
  | .unknown h ip _ => ∀ r, s.homa.rpcTbl (h.hkey ip) = some r → r.state ≠ .dead →
      rpcIsClient (h.hkey ip).rpcid = false → r.queueId = none
  | .abort k => s.homa.heldId k = none
  | _ => True

def Lost (q : U64) (s : HomaState) : Prop :=
  q ∈ queueIds ∧ q ∉ s.availPacingIdx ∧ ∀ k, s.heldId k ≠ some q

theorem Lost.not_conserved (h : Lost q s) : ¬ IdsConserved s := by
  obtain ⟨hq, hfree, hheld⟩ := h
  intro hc
  rcases hc q hq with ⟨hone, -⟩ | ⟨-, k, hk, -⟩
  · rw [count_eq_zero_of_not_mem hfree] at hone
    cases hone
  · exact hheld k hk

theorem Lost.effect (h : Lost q s) (he : IdEffect k s s') : Lost q s' := by
  obtain ⟨hq, hfree, hheld⟩ := h
  cases he with
  | kept hf hh => exact ⟨hq, hf ▸ hfree, hh ▸ hheld⟩
  | taken p hf _ hh =>
    refine ⟨hq, by grind, ?_⟩
    rw [hh]
    grind
  | returned p hhad hf hh =>
    refine ⟨hq, by grind, ?_⟩
    rw [hh]
    grind

theorem lost_of_forgotten (hinv : IdInv s) (hk : s.heldId k = some q)
    (hfree : s'.availPacingIdx = s.availPacingIdx)
    (hheld : s'.heldId = update s.heldId k none) : Lost q s' := by
  refine ⟨hinv.held_mem k q hk, hfree ▸ hinv.leased.not_free k q hk, fun k' hk' => ?_⟩
  rw [hheld, update_apply] at hk'
  split_ifs at hk' with hne
  exact hne (hinv.leased.distinct hk' hk)

theorem effect_deleteRpc (hk : s.heldId k = none) : IdEffect k s (s.deleteRpc k) := by
  refine .kept rfl ?_
  rw [heldId_deleteRpc, ← hk, update_eq_self]

theorem not_conserved_of_claim (hinv : IdInv s) (hk : s.heldId k = none)
    (hfree : s'.availPacingIdx = s.availPacingIdx)
    (hheld : s'.heldId = update s.heldId k (some 0)) : ¬ IdsConserved s' := by
  have hzero : (0 : U64) ∈ queueIds := mem_queueIds.mpr (by decide)
  have hnew : s'.heldId k = some 0 := by rw [hheld, update_self]
  intro hc
  rcases hc 0 hzero with ⟨-, hnone⟩ | ⟨hnot, k', -, huniq⟩
  · exact hnone k hnew
  · rcases hinv.leased.covered 0 hzero with hmem | ⟨owner, ho⟩
    · exact hnot (hfree ▸ hmem)
    · have hne : owner ≠ k := by grind
      have ho' : s'.heldId owner = some 0 := by rw [hheld, update_of_ne hne, ho]
      exact hne ((huniq owner ho').trans (huniq k hnew).symm)

section

variable {s : TxState} {e : IdEvent}

theorem serverResponse_effect (hinv : IdInv s.homa) (d : DataHeader) (daddr : U32) (buf : U64)
    (env : TxEnv) : ∃ s₁, IdEffect (d.txKey daddr) s₁ (serverResponse s d daddr buf env).1.homa ∧
      s₁.availPacingIdx = s.homa.availPacingIdx ∧
      s₁.heldId = if d.seq = 0 then update s.homa.heldId (d.txKey daddr) none
        else s.homa.heldId := by
  have hfree : ∀ q ∈ s.homa.availPacingIdx, q ≠ maxBucketSize := fun q hq =>
    ne_maxBucketSize_of_mem (hinv.free_mem q hq)
  cases hr : s.homa.rpcTbl (d.txKey daddr) with
  | none =>
    refine ⟨s.homa, ?_, rfl, ?_⟩
    · simp only [serverResponse, hr]
      exact .refl _ _
    · rw [← heldId_none_of_absent hr, update_eq_self, ite_self]
  | some r =>
    simp only [serverResponse, hr]
    split_ifs
    · exact ⟨_, .refl _ _, rfl, heldId_setRpc ..⟩
    · exact ⟨_, effect_sendOrThrottle (t := { s with homa := s.homa.setRpc _ _ }) hfree
        (rpcTbl_setRpc ..) d env, rfl, heldId_setRpc ..⟩
    · exact ⟨_, effect_sendOrThrottle hfree hr d env, rfl, rfl⟩

theorem idInv_step (hinv : IdInv s.homa) (hok : KeepsIds s e) : IdInv (idStep s e).homa := by
  cases e with
  | clientRequest d daddr buf env => exact (effect_clientRequest hinv d daddr buf env).inv hinv
  | serverResponse d daddr buf env =>
    obtain ⟨s₁, heffect, hfree, hheld⟩ := serverResponse_effect hinv d daddr buf env
    refine (heffect.of_same hfree (hheld.trans ?_)).inv hinv
    split_ifs with hseq
    · rw [← hok hseq, update_eq_self]
    · rfl
  | serverRequest d ip env =>
    have hcase := serverRequest_cases s.homa d ip env
    simp only [idStep, TxState.withHoma]
    generalize serverRequest s.homa d ip env = p at hcase ⊢
    cases hcase with
    | refused => exact hinv
    | created x v s' hnone hnew => simpa [hnew] using hok hnone
    | recorded r r' x v s' hr hqid _ hgrant =>
      have heffect : IdEffect (d.hkey ip) s.homa s' :=
        .kept hgrant.qids (hgrant.heldId.trans (heldId_setRpc_same hr hqid))
      exact heffect.inv hinv
  | clientResponse d ip env => exact (effect_clientResponse hinv d ip env).inv hinv
  | reclaim ack ip => exact (effect_reclaimRpc hinv ack ip).inv hinv
  | unknown h ip tailOk =>
    simp only [idStep, TxState.withHoma]
    rcases unknownPkt_cases s.homa h ip tailOk with ⟨hsame, -⟩ | ⟨r, hr, hdead, hclient, heq⟩
    · rw [hsame]
      exact hinv
    · have hnone := (heldId_eq hr).trans (hok r hr hdead hclient)
      rw [heq]
      exact (effect_deleteRpc hnone).inv hinv
  | abort k => exact (effect_deleteRpc hok).inv hinv

theorem keepsIds_of_conserved (hinv : IdInv s.homa) (hc : IdsConserved (idStep s e).homa) :
    KeepsIds s e := by
  cases e with
  | clientRequest | clientResponse | reclaim => trivial
  | serverResponse d daddr buf env =>
    intro hseq
    obtain ⟨s₁, heffect, hfree, hheld⟩ := serverResponse_effect hinv d daddr buf env
    rw [if_pos hseq] at hheld
    by_contra hne
    obtain ⟨q, hq⟩ := ne_none_iff_exists'.mp hne
    exact ((lost_of_forgotten hinv hq hfree hheld).effect heffect).not_conserved hc
  | serverRequest d ip env =>
    intro hnone
    by_contra hnew
    rw [not_or, Bool.not_eq_true, Bool.not_eq_false] at hnew
    obtain ⟨x, v, s', hgrant, heq⟩ := serverRequest_created hnone hnew.1 hnew.2
    have hres : (idStep s (.serverRequest d ip env)).homa = s' := congrArg Prod.fst heq
    rw [hres] at hc
    have hzero : (newServerRpc (d.hkey ip) d).queueId = some 0 := by
      rw [queueId, newServerRpc, (startMessage_kept ..).1]
      rfl
    refine not_conserved_of_claim hinv (heldId_none_of_absent hnone) hgrant.qids ?_ hc
    rw [hgrant.heldId, ← hzero]
    exact heldId_setRpc ..
  | unknown h ip tailOk =>
    intro r hr hdead hclient
    by_contra hne
    obtain ⟨q, hq⟩ := ne_none_iff_exists'.mp hne
    have hres : (idStep s (.unknown h ip tailOk)).homa = s.homa.deleteRpc (h.hkey ip) := by
      simp [idStep, TxState.withHoma, unknownPkt, hr, hdead, hclient]
    rw [hres] at hc
    have hlost : Lost q (s.homa.deleteRpc (h.hkey ip)) :=
      lost_of_forgotten hinv ((heldId_eq hr).trans hq) rfl (heldId_deleteRpc ..)
    exact hlost.not_conserved hc
  | abort k =>
    by_contra hne
    obtain ⟨q, hq⟩ := ne_none_iff_exists'.mp hne
    have hlost : Lost q (s.homa.deleteRpc k) :=
      lost_of_forgotten hinv hq rfl (heldId_deleteRpc ..)
    exact hlost.not_conserved hc

end

/-- **The queue ids are conserved** precisely when no request creates an RPC and none with an id is
    overwritten or deleted. -/
theorem idsConserved_always_iff {s : TxState} (hfree : s.homa.availPacingIdx.Perm queueIds)
    (hheld : ∀ k, s.homa.heldId k = none) (es : List IdEvent) :
    Always idStep (fun s => IdsConserved s.homa) s es ↔ Meets idStep KeepsIds s es :=
  always_iff_meets (fun _ _ hinv _ hok => idInv_step hinv hok)
    (fun _ _ hinv _ hc => keepsIds_of_conserved hinv hc) (fun _ hinv => hinv.conserved)
    (IdInv.initial hfree hheld) meets_true

def firstHeader (senderId : U64) : DataHeader :=
  { (default : DataHeader) with
    sport := 7, dport := 9, senderId := senderId, messageLength := 2000, segmentLength := 1000 }

theorem free_initial : TxState.initial.homa.availPacingIdx.Perm queueIds := by
  simp only [TxState.initial, initial, queueIds, List.Perm.refl]

theorem idsConserved_always_request :
    Always idStep (fun s => IdsConserved s.homa) .initial
      [.clientRequest (firstHeader 2) 1 0x100 ⟨0, true, false, some 0, true, 0⟩,
        .clientResponse { firstHeader 3 with sport := 9, dport := 7, messageLength := 1000 } 1
          default] :=
  (idsConserved_always_iff free_initial (fun _ => rfl) _).mpr ⟨trivial, trivial, trivial⟩

/-- A request arrives and its RPC is created: the id 0 is free, and the new RPC owns it. -/
theorem idsConserved_lost_on_request :
    ¬ IdsConserved
      (idStep .initial (.serverRequest (firstHeader 2) 1 ⟨0, 0, true, true, true⟩)).homa := by
  intro hc
  have hok := keepsIds_of_conserved (IdInv.initial free_initial fun _ => rfl) hc
  rcases hok rfl with h | h <;> cases h

end MtpXdp.Homa

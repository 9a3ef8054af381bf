import MtpXdp.Homa.GrantLedger
import MtpXdp.Homa.Message

/-!
# The Receiver

The receiving side of Homa as one system: segments arrive, grants are made, RPCs are created by the
sending side and removed by timers. The ledger of grants runs beside it. What arrives for an RPC is
fixed by `net`: the segments of one message of several packets, or one packet.
-/

namespace MtpXdp.Homa

open Ebpf (U32 U64)
open MtpXdp.Core BitVec Function

variable {d : DataHeader} {ip : U32} {m : Message} {i : Nat} {r' r : RpcState} {env : Env} {x : U64}
  {net : RpcKey → Option Message} {s : HomaState}

/-! ## The system -/

structure Receiver where
  homa : HomaState
  ledger : Ledger

inductive Event where
  | data (d : DataHeader) (remoteIp : U32) (env : Env)
  | round (cpu : Nat) (ok : Bool)
  | completeGrant (cpu i : Nat) (ok : Bool)
  | fifo (a : Nat)
  | updateCached (cpu : Nat) (ok : Bool)
  | request (k : RpcKey) (r : RpcState)
  | remove (k : RpcKey)

def startsMessage (s : HomaState) (d : DataHeader) (remoteIp : U32) (env : Env) : Bool :=
  !d.singlePacket &&
    match s.rpcTbl (d.hkey remoteIp) with
    | none => !rpcIsClient (localId d.senderId) && !d.retransmit && env.mapOk
    | some r => rpcIsClient (localId d.senderId) && decide (r.state = .outgoing)

def Ledger.start (L : Ledger) (k : RpcKey) (d : DataHeader) : Ledger :=
  update L k (some ⟨d.messageLength, d.incoming, []⟩)

def step (R : Receiver) : Event → Receiver
  | .data d ip env =>
    { homa := (receiveData R.homa d ip env).1
      ledger := if startsMessage R.homa d ip env then R.ledger.start (d.hkey ip) d else R.ledger }
  | .round cpu ok =>
    { homa := (chooseRpcToGrantProg R.homa cpu ok).1
      ledger := R.ledger.recordAll (chooseRpcToGrantProg R.homa cpu ok).2.1 }
  | .completeGrant cpu i ok => { R with homa := completeGrantProg R.homa cpu i ok }
  | .fifo a =>
    { homa := (grantFifoRpc R.homa a).1, ledger := R.ledger.recordAll (fifoGrants R.homa a) }
  | .updateCached cpu ok => { R with homa := updateGrantForCachedRpc R.homa cpu ok }
  | .request k r => { R with homa := R.homa.setRpc k r }
  | .remove k => { R with homa := R.homa.deleteRpc k }

def Receiver.initial : Receiver := ⟨.initial, fun _ => none⟩

structure IsOnly (d : DataHeader) : Prop where
  single : d.singlePacket = true
  nonempty : 0 < d.messageLength.toNat
  seq : d.seq = 0#16
  segmentLength : d.segmentLength = d.messageLength
  incoming : d.incoming = d.messageLength

def Arrives (net : RpcKey → Option Message) (d : DataHeader) (remoteIp : U32) : Prop :=
  match net (d.hkey remoteIp) with
  | some m => ∃ i, IsSegment m i d
  | none => IsOnly d

section

variable {net : RpcKey → Option Message}

theorem arrives_of_segment (hnet : net (d.hkey ip) = some m) (h : IsSegment m i d) :
    Arrives net d ip := by
  simp only [Arrives, hnet]
  exact ⟨i, h⟩

theorem Arrives.segment (h : Arrives net d ip) (hnet : net (d.hkey ip) = some m) :
    ∃ i, IsSegment m i d := by
  rwa [Arrives, hnet] at h

theorem Arrives.exists_segment (h : Arrives net d ip) (hmulti : ¬ d.singlePacket = true) :
    ∃ m i, net (d.hkey ip) = some m ∧ IsSegment m i d := by
  unfold Arrives at h
  split at h
  next m hnet => exact ⟨m, h.imp fun i hi => ⟨hnet, hi⟩⟩
  next => exact absurd h.single hmulti

end

def EventDom (net : RpcKey → Option Message) (R : Receiver) : Event → Prop
  | .data d ip _ => Arrives net d ip
  | .fifo a => FifoFound R.homa.groot a
  | .request k r => R.homa.rpcTbl k = none ∧ rpcIsClient k.rpcid = true ∧ r.state = .outgoing ∧
      ∀ a n, (a, n) ∈ R.homa.groot → n.hkey ≠ k
  | _ => True

def StartOk (R : Receiver) : Event → Prop
  | .data d ip env => startsMessage R.homa d ip env = true → Enterable R.homa.groot (d.hkey ip)
  | _ => True

/-! ## Phases of an RPC -/

inductive SlotOk (net : RpcKey → Option Message) (k : RpcKey) (r : RpcState) : Prop where
  | waiting (hclient : rpcIsClient k.rpcid = true) (hstate : r.state = .outgoing)
  | receiving (m : Message) (S : Finset Nat) (hnet : net k = some m) (hstate : r.state = .incoming)
      (hholds : Holds m S r)
  | served (m : Message) (hserver : rpcIsClient k.rpcid = false) (hnet : net k = some m)
      (hstate : r.state = .inService) (hholds : Holds m (Finset.range m.n) r)
  | single (hserver : rpcIsClient k.rpcid = false) (hnet : net k = none)
      (hstate : r.state = .inService) (hrec : Recorded 1 {0} r)

theorem SlotOk.of_core {net : RpcKey → Option Message} {k : RpcKey} {r : RpcState}
    (h : SlotOk net k r) (hcore : r'.core = r.core) : SlotOk net k r' := by
  have hphase : r'.state = r.state :=
    (congrArg RpcState.state hcore : r'.core.state = r.core.state)
  cases h with
  | waiting hclient hstate => exact .waiting hclient (hphase.trans hstate)
  | receiving m S hnet hstate hholds =>
    exact .receiving m S hnet (hphase.trans hstate) (hholds.of_core hcore)
  | served m hserver hnet hstate hholds =>
    exact .served m hserver hnet (hphase.trans hstate) (hholds.of_core hcore)
  | single hserver hnet hstate hrec =>
    exact .single hserver hnet (hphase.trans hstate) (hrec.of_core hcore)

/-! ## What an arriving segment does -/

structure NewSegment (net : RpcKey → Option Message) (k : RpcKey) (m : Message) (i : Nat)
    (S : Finset Nat) (r : RpcState) (d : DataHeader) : Prop where
  net : net k = some m
  segment : IsSegment m i d
  holds : Holds m S r
  new : i ∉ S

inductive DataEffect (net : RpcKey → Option Message) (s : HomaState) (d : DataHeader) (ip : U32)
    (env : Env) : HomaState → Prop where
  | dropped (hstart : startsMessage s d ip env = false) : DataEffect net s d ip env s
  | single (r : RpcState) (hstart : startsMessage s d ip env = false)
      (hnone : s.rpcTbl (d.hkey ip) = none) (hslot : SlotOk net (d.hkey ip) r)
      (hstate : r.state = .inService) (hbytes : r.cc.bytesRemaining = 0#64) :
      DataEffect net s d ip env (s.setRpc (d.hkey ip) r)
  | start (m : Message) (i : Nat) (r : RpcState) (hstart : startsMessage s d ip env = true)
      (hnet : net (d.hkey ip) = some m) (hseg : IsSegment m i d)
      (hbefore : ∀ r₀, s.rpcTbl (d.hkey ip) = some r₀ → r₀.state = .outgoing)
      (hstate : r.state = .incoming) (hholds : Holds m {i} r)
      (hincoming : r.cc.incoming = d.incoming.setWidth 64) :
      DataEffect net s d ip env
        (schedule
          { s.setRpc (d.hkey ip) r with
            totalIncoming := s.totalIncoming + (d.incoming.setWidth 64 - d.segLength) }
          (d.hkey ip) r d true env).1
  | more (m : Message) (i : Nat) (S : Finset Nat) (r r' : RpcState)
      (hstart : startsMessage s d ip env = false) (hr : s.rpcTbl (d.hkey ip) = some r)
      (hstate : r.state = .incoming) (hnew : NewSegment net (d.hkey ip) m i S r d)
      (hstate' : r'.state = .incoming) (hholds : Holds m (insert i S) r') :
      DataEffect net s d ip env
        (schedule
          { s.setRpc (d.hkey ip) r' with totalIncoming := s.totalIncoming - d.segLength }
          (d.hkey ip) r' d false env).1
  | served (m : Message) (i : Nat) (S : Finset Nat) (r r' : RpcState)
      (hstart : startsMessage s d ip env = false) (hr : s.rpcTbl (d.hkey ip) = some r)
      (hserver : rpcIsClient (d.hkey ip).rpcid = false) (hstate : r.state = .incoming)
      (hnew : NewSegment net (d.hkey ip) m i S r d) (hfull : insert i S = Finset.range m.n)
      (hstate' : r'.state = .inService) (hholds : Holds m (Finset.range m.n) r') :
      DataEffect net s d ip env
        { s.setRpc (d.hkey ip) r' with totalIncoming := s.totalIncoming - d.segLength }
  | finished (r r' : RpcState) (hstart : startsMessage s d ip env = false)
      (hclient : rpcIsClient (d.hkey ip).rpcid = true) (hr : s.rpcTbl (d.hkey ip) = some r)
      (hphase : r.state = .outgoing ∨ r.state = .incoming ∧
        ∃ m i S, NewSegment net (d.hkey ip) m i S r d ∧ insert i S = Finset.range m.n) :
      DataEffect net s d ip env (finishClientRpc s (d.hkey ip) r').1

theorem slotOk_newServerRpc_single (hd : IsOnly d) (hserver : rpcIsClient (d.hkey ip).rpcid = false)
    (hnet : net (d.hkey ip) = none) :
    SlotOk net (d.hkey ip) (newServerRpc (d.hkey ip) d) ∧
      (newServerRpc (d.hkey ip) d).state = .inService ∧
      (newServerRpc (d.hkey ip) d).cc.bytesRemaining = 0#64 := by
  have hle : d.messageLength.toNat ≤ homaMss := of_decide_eq_true hd.single
  have hmss : homaMss = 1420 := rfl
  have hwidth : (segmentCount d.messageLength).toNat = 1 := by
    have hpos := hd.nonempty
    have hsum : (d.messageLength + BitVec.ofNat 32 homaMss - 1#32).toNat =
        d.messageLength.toNat + 1419 := by
      bv_omega
    unfold segmentCount
    rw [toNat_setWidth, toNat_udiv, hsum]
    show (d.messageLength.toNat + 1419) / 1420 % 2 ^ 16 = 1
    omega
  obtain ⟨hrec, hstate, -⟩ := recorded_startMessage hwidth (by decide)
    (by rw [hd.seq]; decide)
    { RpcState.zero with
      remoteIp := (d.hkey ip).remoteIp, remotePort := (d.hkey ip).remotePort,
      localPort := (d.hkey ip).localPort, id := (d.hkey ip).rpcid,
      state := if d.singlePacket then .inService else .incoming, bufferHead := poison64 }
  rw [hd.seq] at hrec
  have hphase : (newServerRpc (d.hkey ip) d).state = .inService := by
    refine hstate.trans ?_
    simp [hd.single]
  refine ⟨.single hserver hnet hphase hrec, hphase, ?_⟩
  show d.messageLength.setWidth 64 - d.segLength = 0#64
  rw [DataHeader.segLength, hd.segmentLength, BitVec.sub_self]

theorem IsOnly.credit (hd : IsOnly d) (x : U64) :
    x + (d.incoming.setWidth 64 - d.segLength) = x := by
  rw [DataHeader.segLength, hd.segmentLength, hd.incoming, BitVec.sub_self, BitVec.add_zero]

theorem clientResponse_effect (hcl : rpcIsClient (localId d.senderId) = true)
    (hslot : ∀ r, s.rpcTbl (d.hkey ip) = some r → SlotOk net (d.hkey ip) r)
    (hd : Arrives net d ip) : DataEffect net s d ip env (clientResponse s d ip env).1 := by
  cases hr : s.rpcTbl (d.hkey ip) with
  | none =>
    have hstart : startsMessage s d ip env = false := by simp [startsMessage, hr, hcl]
    simp only [clientResponse, hr]
    exact .dropped hstart
  | some r =>
    cases hslot r hr with
    | waiting _ hstate =>
      simp only [clientResponse, hr, hstate]
      split_ifs with hsingle
      · exact .finished r r (by simp [startsMessage, hsingle]) hcl hr (.inl hstate)
      · obtain ⟨m, i, hnet, hi⟩ := hd.exists_segment hsingle
        obtain ⟨hholds, hphase, -⟩ := holds_startMessage hi { r with state := .incoming }
        refine .start m i _ ?_ hnet hi ?_ hphase hholds rfl
        · simp [startsMessage, hr, hcl, hstate, hsingle]
        · intro r₀ hr₀
          cases hr.symm.trans hr₀
          exact hstate
    | receiving m S hnet hstate hholds =>
      obtain ⟨i, hi⟩ := hd.segment hnet
      have hstart : startsMessage s d ip env = false := by simp [startsMessage, hr, hstate]
      by_cases hmem : i ∈ S
      · simp only [clientResponse, hr, hstate, recordSegment_of_mem hholds hi hmem]
        exact .dropped hstart
      · obtain ⟨r', hrec, hholds', hphase⟩ := recordSegment_of_not_mem hholds hi hmem
        have hnew : NewSegment net (d.hkey ip) m i S r d := ⟨hnet, hi, hholds, hmem⟩
        simp only [clientResponse, hr, hstate, hrec]
        split_ifs with hfull
        · exact .finished r r' hstart hcl hr (.inr ⟨hstate, m, i, S, hnew, hfull⟩)
        · exact .more m i S r r' hstart hr hstate hnew (hphase.trans hstate) hholds'
    | served _ hserver => exact absurd (hcl.symm.trans hserver) (by decide)
    | single hserver => exact absurd (hcl.symm.trans hserver) (by decide)

theorem serverRequest_effect (hcl : rpcIsClient (localId d.senderId) = false)
    (hslot : ∀ r, s.rpcTbl (d.hkey ip) = some r → SlotOk net (d.hkey ip) r)
    (hd : Arrives net d ip) : DataEffect net s d ip env (serverRequest s d ip env).1 := by
  cases hr : s.rpcTbl (d.hkey ip) with
  | none =>
    simp only [serverRequest, hr]
    split_ifs with hre hmap hsingle
    · exact .dropped (by simp [startsMessage, hr, hre])
    · -- the packet is the whole request
      cases hnet : net (d.hkey ip) with
      | some m =>
        obtain ⟨i, hi⟩ := hd.segment hnet
        rw [hi.not_singlePacket] at hsingle
        cases hsingle
      | none =>
        simp only [Arrives, hnet] at hd
        obtain ⟨hok, hphase, hbytes⟩ := slotOk_newServerRpc_single hd hcl hnet
        have heffect : DataEffect net s d ip env (s.setRpc (d.hkey ip) _) :=
          .single _ (by simp [startsMessage, hsingle]) hr hok hphase hbytes
        rw [hd.credit]
        exact heffect
    · obtain ⟨m, i, hnet, hi⟩ := hd.exists_segment hsingle
      obtain ⟨hholds, hphase, -⟩ := holds_startMessage hi
        { RpcState.zero with
          remoteIp := (d.hkey ip).remoteIp, remotePort := (d.hkey ip).remotePort,
          localPort := (d.hkey ip).localPort, id := (d.hkey ip).rpcid,
          state := if d.singlePacket then .inService else .incoming, bufferHead := poison64 }
      refine .start m i _ ?_ hnet hi ?_ (hphase.trans ?_) hholds rfl
      · simp [startsMessage, hr, hcl, hre, hmap, hsingle]
      · intro r₀ hr₀
        cases hr.symm.trans hr₀
      · simp [hsingle]
    · exact .dropped (by simp [startsMessage, hr, hmap])
  | some r =>
    have hstart : startsMessage s d ip env = false := by simp [startsMessage, hr, hcl]
    cases hslot r hr with
    | waiting hclient => exact absurd (hclient.symm.trans hcl) (by decide)
    | receiving m S hnet hstate hholds =>
      obtain ⟨i, hi⟩ := hd.segment hnet
      by_cases hmem : i ∈ S
      · simp only [serverRequest, hr, hstate, recordSegment_of_mem hholds hi hmem, reduceCtorEq,
          if_false]
        exact .dropped hstart
      · obtain ⟨r', hrec, hholds', hphase⟩ := recordSegment_of_not_mem hholds hi hmem
        have hnew : NewSegment net (d.hkey ip) m i S r d := ⟨hnet, hi, hholds, hmem⟩
        simp only [serverRequest, hr, hstate, hrec, hi.not_singlePacket, reduceCtorEq, if_false,
          Bool.false_eq_true]
        split_ifs with hfull
        · rw [hfull] at hholds'
          exact .served m i S r _ hstart hr hcl hstate hnew hfull rfl (hholds'.setState _)
        · exact .more m i S r r' hstart hr hstate hnew (hphase.trans hstate) hholds'
    | served m _ hnet hstate hholds =>
      obtain ⟨i, hi⟩ := hd.segment hnet
      simp only [serverRequest, hr, hstate, reduceCtorEq, if_false,
        recordSegment_of_mem hholds hi (Finset.mem_range.mpr hi.lt)]
      exact .dropped hstart
    | single _ hnet hstate hrec =>
      simp only [Arrives, hnet] at hd
      have hmem : d.seq.toNat ∈ ({0} : Finset Nat) := by
        rw [hd.seq]
        decide
      have hrefused : recordSegment r d = (r, .error) := by
        simp only [recordSegment, setBitmap_of_mem hrec (by decide) hmem]
      simp only [serverRequest, hr, hstate, hrefused, reduceCtorEq, if_false]
      exact .dropped hstart

theorem receiveData_effect (hslot : ∀ r, s.rpcTbl (d.hkey ip) = some r → SlotOk net (d.hkey ip) r)
    (hd : Arrives net d ip) : DataEffect net s d ip env (receiveData s d ip env).1 := by
  unfold receiveData
  cases hcl : rpcIsClient (localId d.senderId) with
  | true => exact clientResponse_effect hcl hslot hd
  | false => exact serverRequest_effect hcl hslot hd

/-! ## The invariant -/

structure Inv (net : RpcKey → Option Message) (R : Receiver) : Prop where
  list : ListOk R.homa
  covers : Covers R.ledger R.homa.groot
  slots : ∀ k r, R.homa.rpcTbl k = some r → SlotOk net k r

section

variable {R : Receiver} {s' : HomaState} {k : RpcKey}

theorem inv_initial (net : RpcKey → Option Message) : Inv net .initial where
  list := ⟨TwoTrees.empty, fun _ _ _ hn => absurd hn (RbTree.not_mem_empty _)⟩
  covers := fun _ _ _ ⟨_, _, hn, _⟩ => absurd hn (RbTree.not_mem_empty _)
  slots := fun _ _ hr => nomatch hr

theorem GrantListOnly.slots (h : GrantListOnly s s')
    (hs : ∀ k r, s.rpcTbl k = some r → SlotOk net k r) (k : RpcKey) (r' : RpcState)
    (hr' : s'.rpcTbl k = some r') : SlotOk net k r' := by
  have hk := h.rpcs k
  rw [hr', Option.map_some] at hk
  obtain ⟨r, hr, hcore⟩ := Option.map_eq_some_iff.mp hk.symm
  exact (hs k r hr).of_core hcore.symm

theorem slots_setRpc (hs : ∀ k r, s.rpcTbl k = some r → SlotOk net k r) (hr : SlotOk net k r)
    (k' : RpcKey) (r' : RpcState) (hr' : (s.setRpc k r).rpcTbl k' = some r') :
    SlotOk net k' r' := by
  by_cases hk : k' = k
  · subst hk
    cases (update_self (f := s.rpcTbl) ..).symm.trans hr'
    exact hr
  · exact hs k' r' ((update_of_ne hk _ _).symm.trans hr')

theorem slots_delete (hs : ∀ k r, s.rpcTbl k = some r → SlotOk net k r) (k' : RpcKey)
    (r' : RpcState) (hr' : update s.rpcTbl k none k' = some r') : SlotOk net k' r' := by
  grind

theorem Lagging.setRpc {t : RbTree RpcStateCc} (h : Lagging s.rpcTbl t)
    (hk : ∀ a n, (a, n) ∈ t → n.treeId = .rpc → n.hkey = k →
      r.cc.bytesRemaining.toNat ≤ n.bytesRemaining.toNat) : Lagging (s.setRpc k r).rpcTbl t := by
  intro a n r' hn hrpc hr'
  by_cases hkey : n.hkey = k
  · rw [hkey] at hr'
    cases (update_self (f := s.rpcTbl) ..).symm.trans hr'
    exact hk a n hn hrpc hkey
  · exact h a n r' hn hrpc ((update_of_ne hkey _ _).symm.trans hr')

theorem Lagging.delete {t : RbTree RpcStateCc} (h : Lagging s.rpcTbl t) :
    Lagging (update s.rpcTbl k none) t := by
  intro a n r' hn hrpc hr'
  by_cases hkey : n.hkey = k
  · rw [hkey] at hr'
    cases (update_self (f := s.rpcTbl) ..).symm.trans hr'
  · exact h a n r' hn hrpc ((update_of_ne hkey _ _).symm.trans hr')

theorem Inv.upkeep (h : Inv net R) (hu : Upkeep R.homa s') : Inv net { R with homa := s' } where
  list := hu.ok
  covers := h.covers.mono hu.listed
  slots := hu.only.slots h.slots

theorem NewSegment.bytesRemaining_le {S : Finset Nat}
    (h : NewSegment net k m i S r d) {T : Finset Nat} (hT : T = insert i S)
    (hholds : Holds m T r') : r'.cc.bytesRemaining.toNat ≤ r.cc.bytesRemaining.toNat := by
  have hbefore := h.holds.remaining
  have hafter := hholds.remaining
  rw [hT, Finset.sum_insert h.new] at hafter
  omega

theorem finishClientRpc_spec (s : HomaState) (k : RpcKey) (r : RpcState) :
    (finishClientRpc s k r).1.rpcTbl = update s.rpcTbl k none ∧
      (finishClientRpc s k r).1.groot = s.groot ∧
      (finishClientRpc s k r).1.totalIncoming = s.totalIncoming := by
  unfold finishClientRpc HomaState.enqueueDeadCrpc HomaState.freeQid HomaState.deleteRpc
  split_ifs <;> exact ⟨rfl, rfl, rfl⟩

theorem Inv.finish (h : Inv net R) (k : RpcKey) (r : RpcState) :
    Inv net { R with homa := (finishClientRpc R.homa k r).1 } := by
  obtain ⟨htbl, hgroot, -⟩ := finishClientRpc_spec R.homa k r
  refine ⟨⟨?_, ?_⟩, ?_, ?_⟩
  · exact hgroot ▸ h.list.trees
  · dsimp only
    rw [htbl, hgroot]
    exact h.list.lagging.delete
  · exact hgroot ▸ h.covers
  · intro k' r' hr'
    exact slots_delete h.slots k' r' (by rwa [← htbl])

theorem Inv.listed_start (h : Inv net R)  (he : Enterable R.homa.groot k) (hholds : Holds m {i} r) :
    ListOk (schedule { R.homa.setRpc k r with totalIncoming := x } k r d true env).1 ∧
    ∀ k' ml inc,
      Listed (schedule { R.homa.setRpc k r with totalIncoming := x } k r d true env).1.groot
        k' ml inc →
      (k' = k ∧ ml = d.messageLength ∧ inc = r.cc.incoming.setWidth 32 ∧
        r.cc.incoming.toNat < d.messageLength.toNat) ∨ Listed R.homa.groot k' ml inc := by
  have hlist : ListOk { R.homa.setRpc k r with totalIncoming := x } :=
    ⟨h.list.trees, h.list.lagging.setRpc fun a n hn _ hk => absurd hk (he.absent a n hn)⟩
  have hbr : r.cc.bytesRemaining.toNat < 2 ^ 32 := by
    have hsum := hholds.remaining
    have hle := m.length_le
    omega
  exact listOk_schedule_start hlist he (update_self ..) hbr d env

theorem DataEffect.core_of_ne (h : DataEffect net s d ip env s') (hk : k ≠ d.hkey ip) :
    (s'.rpcTbl k).map RpcState.core = (s.rpcTbl k).map RpcState.core := by
  cases h with
  | dropped => rfl
  | single r => rw [rpcTbl_setRpc_of_ne s r hk]
  | start m i r =>
    rw [(grantListOnly_schedule _ _ r d true env).rpcs k, rpcTbl_setRpc_of_ne s r hk]
  | more m i S r r' =>
    rw [(grantListOnly_schedule _ _ r' d false env).rpcs k, rpcTbl_setRpc_of_ne s r' hk]
  | served m i S r r' => rw [rpcTbl_setRpc_of_ne s r' hk]
  | finished r r' => rw [(finishClientRpc_spec ..).1, update_of_ne hk]

theorem Inv.start (h : Inv net R)
    (he : Enterable R.homa.groot k) (hnet : net k = some m) (hseg : IsSegment m i d)
    (hstate : r.state = .incoming) (hholds : Holds m {i} r)
    (hincoming : r.cc.incoming = d.incoming.setWidth 64) :
    Inv net
      { homa := (schedule { R.homa.setRpc k r with totalIncoming := x } k r d true env).1
        ledger := R.ledger.start k d } := by
  have hslots := slots_setRpc h.slots (.receiving m {i} hnet hstate hholds)
  obtain ⟨hok, hl⟩ := h.listed_start (x := x) (d := d) he hholds
  refine ⟨hok, ?_, (grantListOnly_schedule _ k r d true env).slots hslots⟩
  intro k' ml inc hlisted
  rcases hl k' ml inc hlisted with ⟨rfl, rfl, rfl, hlt⟩ | hold
  · have hwide : (r.cc.incoming.setWidth 32 : U32) = d.incoming := by
      rw [hincoming]
      exact setWidth_setWidth_of_le _ (by decide)
    have hnat : r.cc.incoming.toNat = d.incoming.toNat := by
      rw [hincoming, toNat_setWidth]
      exact Nat.mod_eq_of_lt (by have := d.incoming.isLt; omega)
    rw [hwide]
    refine ⟨⟨_, update_self .., rfl, rfl⟩, hnat ▸ hlt, ?_⟩
    rw [hseg.messageLength]
    exact m.length_le
  · -- an RPC that was listed before is another one
    have hne : k' ≠ k := by
      obtain ⟨a, n, hn, -, hk, -⟩ := hold
      exact hk ▸ he.absent a n hn
    have hsame : R.ledger.start k d k' = R.ledger k' := update_of_ne hne ..
    dsimp only
    rw [hsame]
    exact h.covers k' ml inc hold

theorem Inv.record (h : Inv net R) (hr : R.homa.rpcTbl k = some r)
    (hle : r'.cc.bytesRemaining.toNat ≤ r.cc.bytesRemaining.toNat) (hslot : SlotOk net k r') :
    Inv net { R with homa := { R.homa.setRpc k r' with totalIncoming := x } } := by
  refine ⟨⟨h.list.trees, h.list.lagging.setRpc ?_⟩, h.covers, slots_setRpc h.slots hslot⟩
  intro a n hn hrpc hk
  subst hk
  exact hle.trans (h.list.lagging a n r hn hrpc hr)

theorem inv_data (h : Inv net R)
    (hd : EventDom net R (.data d ip env)) (hok : StartOk R (.data d ip env)) :
    Inv net (step R (.data d ip env)) := by
  have heffect : DataEffect net R.homa d ip env (receiveData R.homa d ip env).1 :=
    receiveData_effect (h.slots (d.hkey ip)) hd
  unfold step
  dsimp only
  generalize (receiveData R.homa d ip env).1 = s' at heffect ⊢
  cases heffect with
  | dropped hstart =>
    rw [hstart]
    exact h
  | single r hstart hnone hslot hstate hbytes =>
    rw [hstart]
    refine ⟨⟨h.list.trees, h.list.lagging.setRpc ?_⟩, h.covers, slots_setRpc h.slots hslot⟩
    intro a n _ _ _
    rw [hbytes]
    exact Nat.zero_le _
  | start m i r hstart hnet hseg _ hstate hholds hincoming =>
    rw [if_pos hstart]
    exact h.start (hok hstart) hnet hseg hstate hholds hincoming
  | more m i S r r' hstart hr hstate hnew hstate' hholds =>
    rw [hstart]
    have hrecord := h.record (x := R.homa.totalIncoming - d.segLength) hr
      (hnew.bytesRemaining_le rfl hholds) (.receiving m _ hnew.net hstate' hholds)
    exact hrecord.upkeep (upkeep_schedule_more hrecord.list _ r' d env)
  | served m i S r r' hstart hr hserver hstate hnew hfull hstate' hholds =>
    rw [hstart]
    exact h.record hr (hnew.bytesRemaining_le hfull.symm hholds)
      (.served m hserver hnew.net hstate' hholds)
  | finished r r' hstart =>
    rw [hstart]
    exact h.finish (d.hkey ip) r'

theorem inv_step {e : Event} (h : Inv net R) (hd : EventDom net R e) (hok : StartOk R e) :
    Inv net (step R e) := by
  cases e with
  | data d ip env => exact inv_data h hd hok
  | round cpu ok =>
    cases ok with
    | false => exact h
    | true =>
      have hround : RoundOk R.ledger R.homa.groot (roundEnd R.homa cpu) :=
        roundOk_roundLoop (roundOk_start h.list h.covers cpu) homaOvercommitment
      refine ⟨⟨?_, ?_⟩, ?_, ?_⟩
      · show TwoTrees none (chooseRpcToGrantProg R.homa cpu true).1.groot
        rw [groot_chooseRpcToGrantProg]
        exact hround.trees
      · show Lagging (chooseRpcToGrantProg R.homa cpu true).1.rpcTbl
          (chooseRpcToGrantProg R.homa cpu true).1.groot
        rw [groot_chooseRpcToGrantProg, rpcTbl_chooseRpcToGrantProg]
        exact h.list.lagging.of_inherits hround.inherits fun _ r hr => ⟨r, hr, le_rfl⟩
      · show Covers (R.ledger.recordAll (chooseRpcToGrantProg R.homa cpu true).2.1)
          (chooseRpcToGrantProg R.homa cpu true).1.groot
        rw [groot_chooseRpcToGrantProg, grants_chooseRpcToGrantProg]
        exact hround.covers
      · intro k r hr
        exact h.slots k r (by rwa [← rpcTbl_chooseRpcToGrantProg R.homa cpu true])
  | completeGrant cpu i ok => exact h.upkeep (upkeep_completeGrantProg h.list cpu i ok)
  | fifo a =>
    obtain ⟨hlist, hcovers⟩ := listOk_grantFifoRpc h.list h.covers hd
    refine ⟨hlist, hcovers, ?_⟩
    intro k r hr
    exact h.slots k r (by rwa [← rpcTbl_grantFifoRpc R.homa a])
  | updateCached cpu ok => exact h.upkeep (upkeep_updateGrantForCachedRpc h.list cpu ok)
  | request k r =>
    obtain ⟨-, hclient, hstate, habsent⟩ := hd
    exact ⟨⟨h.list.trees, h.list.lagging.setRpc fun a n hn _ hk => absurd hk (habsent a n hn)⟩,
      h.covers, slots_setRpc h.slots (.waiting hclient hstate)⟩
  | remove k => exact ⟨⟨h.list.trees, h.list.lagging.delete⟩, h.covers, slots_delete h.slots⟩

end

end MtpXdp.Homa

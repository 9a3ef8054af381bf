import MtpXdp.Homa.GrantListOps
import MtpXdp.Homa.Receive

/-!
# Upkeep of the Grant List

The receive path keeps the grant list in order: it brings the node of the cached RPC up to date,
enters an RPC with its first segment, and the `complete_grant` programs put the next RPC of a peer
into the peer tree. `ListOk`: the two trees are in order, and a node never has fewer bytes to come
than the table of RPCs says.
-/

namespace MtpXdp.Homa

open Ebpf (U32)
open MtpXdp.Core RbTree

variable {t : RbTree RpcStateCc}

/-! ## Nodes and their bytes -/

def Inherits (t' t : RbTree RpcStateCc) : Prop :=
  ∀ a n', (a, n') ∈ t' → n'.treeId = .rpc →
    ∃ b n, (b, n) ∈ t ∧ n.treeId = .rpc ∧ n.hkey = n'.hkey ∧ n.bytesRemaining = n'.bytesRemaining

section

variable {t t' t'' : RbTree RpcStateCc} {a : Nat} {n : RpcStateCc}

theorem Inherits.refl (t : RbTree RpcStateCc) : Inherits t t :=
  fun a n hn hr => ⟨a, n, hn, hr, rfl, rfl⟩

theorem Inherits.trans (h' : Inherits t'' t') (h : Inherits t' t) : Inherits t'' t := by
  intro a n'' hn'' hr
  obtain ⟨b, n', hn', hr', hk', hb'⟩ := h' a n'' hn'' hr
  obtain ⟨c, n, hn, hr, hk, hb⟩ := h b n' hn' hr'
  exact ⟨c, n, hn, hr, hk.trans hk', hb.trans hb'⟩

theorem inherits_remove (t : RbTree RpcStateCc) (a : Nat) : Inherits (t.remove a) t := by
  intro b n hn hr
  exact ⟨b, n, (mem_remove.mp hn).2, hr, rfl, rfl⟩

theorem inherits_write {f : RpcStateCc → RpcStateCc}
    (hf : ∀ m, (a, m) ∈ t → (f m).treeId = m.treeId ∧ (f m).hkey = m.hkey ∧
      (f m).bytesRemaining = m.bytesRemaining) : Inherits (t.write a f) t := by
  intro b n' hn' hr
  obtain ⟨n, hn, rfl⟩ := mem_write.mp hn'
  split_ifs at hr ⊢ with hb
  · obtain ⟨htree, hk, hbr⟩ := hf n (hb ▸ hn)
    exact ⟨b, n, hn, htree.symm.trans hr, hk.symm, hbr.symm⟩
  · exact ⟨b, n, hn, hr, rfl, rfl⟩

theorem inherits_grant (t : RbTree RpcStateCc) (a : Nat) (x : U32) :
    Inherits (t.write a fun n => { n with incoming := x }) t :=
  inherits_write fun _ _ => ⟨rfl, rfl, rfl⟩

theorem inherits_add_peer {less : RpcStateCc → RpcStateCc → Bool} (hp : n.treeId = .peer) :
    Inherits (t.add less a n) t := by
  intro b n' hn' hr
  rcases mem_of_mem_add hn' with heq | hn
  · cases heq
    exact absurd (hp.symm.trans hr) (by decide)
  · exact ⟨b, n', hn, hr, rfl, rfl⟩

theorem inherits_enterPeerTree (t : RbTree RpcStateCc) (a₀ a₁ : Nat) :
    Inherits (enterPeerTree t a₀ a₁) t := by
  unfold enterPeerTree
  cases hget : t.get? a₀ with
  | none => exact .refl t
  | some n =>
    refine (inherits_add_peer rfl).trans (inherits_write ?_)
    intro m hm
    rw [eq_of_mem hm (get?_eq_some_iff.mp hget)]
    exact ⟨rfl, rfl, rfl⟩

theorem inherits_promote (t : RbTree RpcStateCc) (a₀ : Nat) (n₀ : RpcStateCc) (a₁ : Nat) :
    Inherits (promote t a₀ n₀ a₁) t := by
  have hunmark (a : Nat) :
      Inherits (t.write a fun n => { n with birth := n.birth &&& ~~~1#64 }) t :=
    inherits_write fun _ _ => ⟨rfl, rfl, rfl⟩
  unfold promote
  dsimp only
  split
  · exact .refl t
  · split_ifs
    · exact .refl t
    · split
      · exact inherits_enterPeerTree t a₀ a₁
      · split_ifs
        · -- the next RPC of the peer leaves the peer tree, or is left unmarked
          split
          · exact hunmark _
          · split_ifs
            · exact (inherits_enterPeerTree _ _ _).trans
                ((inherits_grant _ _ _).trans ((inherits_remove _ _).trans (hunmark _)))
            · exact hunmark _
        · exact inherits_enterPeerTree t a₀ a₁
    · exact .refl t

theorem inherits_removeGranted (t : RbTree RpcStateCc) (a : Nat) (n : RpcStateCc) :
    Inherits (removeGranted t a n) t := by
  unfold removeGranted
  dsimp only
  split
  · exact inherits_remove t a
  · exact (inherits_remove _ _).trans (inherits_remove t a)

end

/-! ## The invariant -/

/-- Where an RPC is in both, the table has at most as many bytes to come as the node. -/
def Lagging (tbl : RpcKey → Option RpcState) (t : RbTree RpcStateCc) : Prop :=
  ∀ a n r, (a, n) ∈ t → n.treeId = .rpc → tbl n.hkey = some r →
    r.cc.bytesRemaining.toNat ≤ n.bytesRemaining.toNat

structure ListOk (s : HomaState) : Prop where
  trees : TwoTrees none s.groot
  lagging : Lagging s.rpcTbl s.groot

/-- From `s` to `s'` the list stays in order, and nothing is listed that was not listed before. -/
structure Upkeep (s s' : HomaState) : Prop where
  only : GrantListOnly s s'
  ok : ListOk s'
  listed : ∀ k ml inc, Listed s'.groot k ml inc → Listed s.groot k ml inc

section

variable {s s' s'' : HomaState} {k : RpcKey} {r : RpcState}

theorem Upkeep.refl (h : ListOk s) : Upkeep s s := ⟨.refl s, h, fun _ _ _ hl => hl⟩

theorem Upkeep.trans (h : Upkeep s s') (h' : Upkeep s' s'') : Upkeep s s'' :=
  ⟨h.only.trans h'.only, h'.ok, fun k ml inc hl => h.listed k ml inc (h'.listed k ml inc hl)⟩

theorem GrantListOnly.bytesRemaining (h : GrantListOnly s s') {r' : RpcState}
    (hr' : s'.rpcTbl k = some r') :
    ∃ r, s.rpcTbl k = some r ∧ r.cc.bytesRemaining = r'.cc.bytesRemaining := by
  have hk := h.rpcs k
  rw [hr', Option.map_some] at hk
  obtain ⟨r, hr, hcore⟩ := Option.map_eq_some_iff.mp hk.symm
  have hcc : r.core.cc.bytesRemaining = r'.core.cc.bytesRemaining := by rw [hcore]
  exact ⟨r, hr, hcc⟩

theorem Lagging.of_inherits {tbl tbl' : RpcKey → Option RpcState} {t t' : RbTree RpcStateCc}
    (h : Lagging tbl t) (hin : Inherits t' t) (htbl : ∀ k r', tbl' k = some r' →
      ∃ r, tbl k = some r ∧ r'.cc.bytesRemaining.toNat ≤ r.cc.bytesRemaining.toNat) :
    Lagging tbl' t' := by
  intro a n' r' hn' hr' htab
  obtain ⟨b, n, hn, hr, hk, hb⟩ := hin a n' hn' hr'
  obtain ⟨r, htab, hle⟩ := htbl n'.hkey r' htab
  rw [← hk] at htab
  rw [← hb]
  exact hle.trans (h b n r hn hr htab)

theorem GrantListOnly.bytesRemaining_le (h : GrantListOnly s s') (k : RpcKey) (r' : RpcState)
    (hr' : s'.rpcTbl k = some r') :
    ∃ r, s.rpcTbl k = some r ∧ r'.cc.bytesRemaining.toNat ≤ r.cc.bytesRemaining.toNat := by
  obtain ⟨r, hr, heq⟩ := h.bytesRemaining hr'
  exact ⟨r, hr, by rw [heq]⟩

theorem Upkeep.of_trees (h : ListOk s) (honly : GrantListOnly s s')
    (htrees : TwoTrees none s'.groot) (hin : Inherits s'.groot s.groot)
    (hl : ∀ k ml inc, Listed s'.groot k ml inc → Listed s.groot k ml inc) : Upkeep s s' :=
  ⟨honly, ⟨htrees, h.lagging.of_inherits hin honly.bytesRemaining_le⟩, hl⟩

theorem upkeep_cache (h : ListOk s) (c : Nat → CachedRpc) : Upkeep s { s with cache := c } :=
  Upkeep.of_trees h (.cache s c) h.trees (.refl _) fun _ _ _ hl => hl

theorem upkeep_completeGrantProg (h : ListOk s) (cpu i : Nat) (ok : Bool) :
    Upkeep s (completeGrantProg s cpu i ok) := by
  unfold completeGrantProg
  dsimp only
  split_ifs
  · split
    · exact .refl h
    · next a n hfound =>
      split_ifs with hc
      · obtain ⟨htrees, hl⟩ := h.trees.completeGrant hfound hc.1 hc.2.1 hc.2.2
        exact .of_trees h (.groot s _) htrees (inherits_enterPeerTree _ _ _) hl
      · exact .refl h
  · exact .refl h

/-! ## The cached RPC -/

theorem Lagging.move {tbl : RpcKey → Option RpcState} (h : Lagging tbl t)
    {a : Nat} {n' : RpcStateCc}
    (hn' : ∀ r, tbl n'.hkey = some r → r.cc.bytesRemaining.toNat ≤ n'.bytesRemaining.toNat) :
    Lagging tbl ((t.remove a).add srptLessRpc a n') := by
  intro b y r hy hyr hr
  rcases mem_of_mem_add hy with heq | hy
  · cases heq
    exact hn' r hr
  · exact h b y r (mem_remove.mp hy).2 hyr hr

def movedTree (t : RbTree RpcStateCc) (a : Nat) (n : RpcStateCc) (br : U32) : RbTree RpcStateCc :=
  let t₁ := (t.remove a).add srptLessRpc a { n with bytesRemaining := br }
  if n.inPeerTree then
    match t₁.lowerBound srptLessPeer { n with treeId := .peer } with
    | none => t₁
    | some (b, m) =>
      if m.treeId = .peer ∧ m.peerId = n.peerId then
        (t₁.remove b).add srptLessPeer b { m with bytesRemaining := br }
      else t₁
  else promote t₁ a { n with bytesRemaining := br } t₁.fresh

theorem groot_updateNode (s : HomaState) (k : RpcKey) (r : RpcState) :
    (updateNode s k r).groot = s.groot ∨ ∃ a n, (a, n) ∈ s.groot ∧ n.treeId = .rpc ∧ n.hkey = k ∧
      (updateNode s k r).groot = movedTree s.groot a n (r.cc.bytesRemaining.setWidth 32) := by
  unfold updateNode movedTree
  dsimp only
  split
  · exact .inl rfl
  next a n hfound =>
  split_ifs with hother hsame hmark
  · exact .inl rfl
  · exact .inl rfl
  all_goals
    simp only [not_or, ne_eq, not_not] at hother
    refine .inr ⟨a, n, mem_of_lowerBound hfound, hother.1, hother.2.2, ?_⟩
  · have hin : n.inPeerTree = true := hmark
    rw [if_pos hin]
    dsimp only [HomaState.setRpc]
    -- both sides look for the copy of the node in the peer tree
    cases ((s.groot.remove a).add srptLessRpc a
        { n with bytesRemaining := r.cc.bytesRemaining.setWidth 32 }).lowerBound srptLessPeer
          { n with treeId := .peer } with
    | none => rfl
    | some found =>
      dsimp only
      split_ifs <;> rfl
  · have hout : ¬ n.inPeerTree = true := hmark
    rw [if_neg hout]
    rfl

theorem TwoTrees.movedTree {a : Nat} {n : RpcStateCc}
    (h : TwoTrees none t) (hn : (a, n) ∈ t) (hr : n.treeId = .rpc) {br : U32}
    (hbr : br.toNat ≤ n.bytesRemaining.toNat) : TwoTrees none (Homa.movedTree t a n br) ∧
    (∀ k ml inc, Listed (Homa.movedTree t a n br) k ml inc → Listed t k ml inc) ∧
    Inherits (Homa.movedTree t a n br)
      ((t.remove a).add srptLessRpc a { n with bytesRemaining := br }) := by
  unfold Homa.movedTree
  cases hmark : n.inPeerTree with
  | true =>
    obtain ⟨b, m, hm, hp, hcopy, hfound⟩ := h.lowerBound_copy hn hr hmark
      { n with bytesRemaining := br } { n with treeId := .peer } hr rfl rfl rfl rfl
    rw [if_pos rfl, hfound]
    dsimp only
    rw [if_pos ⟨hp, hcopy.peerId.symm⟩]
    obtain ⟨htrees, hl⟩ := h.updateMarked hn hm hp hcopy hbr rfl rfl rfl
    refine ⟨htrees, hl, Inherits.trans ?_ (inherits_remove _ b)⟩
    apply inherits_add_peer
    exact hp
  | false =>
    obtain ⟨htrees, hl⟩ := h.updateUnmarked hn hr hmark br rfl
    exact ⟨htrees, hl, inherits_promote _ _ _ _⟩

theorem upkeep_updateNode (h : ListOk s) (hr : s.rpcTbl k = some r) :
    Upkeep s (updateNode s k r) := by
  have honly := grantListOnly_updateNode hr
  rcases groot_updateNode s k r with hsame | ⟨a, n, hn, hrpc, rfl, hmoved⟩
  · refine .of_trees h honly (hsame ▸ h.trees) (hsame ▸ .refl _) ?_
    intro k ml inc hl
    exact hsame ▸ hl
  · have hle := h.lagging a n r hn hrpc hr
    have hbr : (r.cc.bytesRemaining.setWidth 32 : U32).toNat = r.cc.bytesRemaining.toNat := by
      exact Nat.mod_eq_of_lt (hle.trans_lt n.bytesRemaining.isLt)
    obtain ⟨htrees, hl, hin⟩ := h.trees.movedTree hn hrpc (hbr.trans_le hle)
    rw [← hmoved] at htrees hl hin
    refine ⟨honly, ⟨htrees, Lagging.of_inherits (h.lagging.move ?_) hin
      honly.bytesRemaining_le⟩, hl⟩
    intro r' hr'
    cases hr.symm.trans hr'
    exact hbr.ge

theorem upkeep_updateGrantForCachedRpc (h : ListOk s) (cpu : Nat) (ok : Bool) :
    Upkeep s (updateGrantForCachedRpc s cpu ok) := by
  unfold updateGrantForCachedRpc
  dsimp only
  split
  · -- the cache is cleared first
    have hcache := upkeep_cache h (Function.update s.cache cpu
      { s.cache cpu with hasRpc := false, delayPackets := 0#64 })
    split
    · exact hcache
    · next r hr =>
      split_ifs
      · exact hcache
      · exact hcache.trans (upkeep_updateNode hcache.ok hr)
      · exact hcache
  · exact .refl h

theorem upkeep_cacheThisRpc (h : ListOk s) (k : RpcKey) (env : Env) :
    Upkeep s (cacheThisRpc s k env) := by
  unfold cacheThisRpc
  dsimp only
  split_ifs
  · exact upkeep_cache h _
  · have hupdate := upkeep_updateGrantForCachedRpc h env.cpu env.cacheObjOk
    exact hupdate.trans (upkeep_cache hupdate.ok _)
  · exact .refl h

/-! ## A new message -/

theorem TwoTrees.listed_of_mem (h : TwoTrees none t) {a : Nat}
    {n : RpcStateCc} (hn : (a, n) ∈ t) : ∃ ml inc, Listed t n.hkey ml inc := by
  cases htree : n.treeId with
  | peer => exact ⟨_, _, a, n, hn, .inl htree, rfl, rfl, rfl⟩
  | rpc =>
    cases hmark : n.inPeerTree with
    | false => exact ⟨_, _, a, n, hn, .inr hmark, rfl, rfl, rfl⟩
    | true =>
      obtain ⟨b, m, hm, hp, hk⟩ := h.marked a n hn htree hmark
      exact ⟨_, _, b, m, hm, .inl hp, hk, rfl, rfl⟩

/-- The address of `k` does not end in 255, no other has its peer id there, and the list has no node
    of `k`. -/
structure Enterable (t : RbTree RpcStateCc) (k : RpcKey) : Prop where
  lowByte : k.remoteIp.toNat % 256 ≠ 255
  address : ∀ a n, (a, n) ∈ t → n.peerId = getPeerid k.remoteIp → n.hkey.remoteIp = k.remoteIp
  absent : ∀ a n, (a, n) ∈ t → n.hkey ≠ k

theorem Upkeep.enterable (h : Upkeep s s') (hs : ListOk s) (he : Enterable s.groot k) :
    Enterable s'.groot k := by
  have hnode (a : Nat) (n : RpcStateCc) (hn : (a, n) ∈ s'.groot) :
      ∃ b m, (b, m) ∈ s.groot ∧ m.hkey = n.hkey ∧ m.peerId = n.peerId := by
    obtain ⟨ml, inc, hl⟩ := h.ok.trees.listed_of_mem hn
    obtain ⟨b, m, hm, -, hk, -⟩ := h.listed _ ml inc hl
    refine ⟨b, m, hm, hk, ?_⟩
    rw [hs.trees.peer b m hm, h.ok.trees.peer a n hn, hk]
  refine ⟨he.lowByte, ?_, ?_⟩
  · intro a n hn hp
    obtain ⟨b, m, hm, hk, hpeer⟩ := hnode a n hn
    rw [← hk]
    exact he.address b m hm (hpeer.trans hp)
  · intro a n hn
    obtain ⟨b, m, hm, hk, -⟩ := hnode a n hn
    rw [← hk]
    exact he.absent b m hm

theorem listOk_insertGrantList (h : ListOk s) (he : Enterable s.groot k)
    (hr : s.rpcTbl k = some r) (hbr : r.cc.bytesRemaining.toNat < 2 ^ 32) (ml : U32) (env : Env) :
    ListOk (insertGrantList s k ml env).1 ∧
    ∀ k' ml' inc, Listed (insertGrantList s k ml env).1.groot k' ml' inc →
      (k' = k ∧ ml' = ml ∧ inc = r.cc.incoming.setWidth 32) ∨ Listed s.groot k' ml' inc := by
  have honly := grantListOnly_insertGrantList s k ml env
  unfold insertGrantList at honly ⊢
  rw [hr] at honly ⊢
  split_ifs at honly ⊢
  · have hfresh : ∀ m, (s.groot.fresh, m) ∉ s.groot := fun m hm => lt_irrefl _ (lt_fresh hm)
    obtain ⟨htrees, hl⟩ := h.trees.insert (a := s.groot.fresh) (n := newNode r k ml env.now) rfl
      (RpcStateCc.inPeerTree_unmark { newNode r k ml env.now with birth := env.now }) rfl he.lowByte
      he.address (fun b m hm _ => he.absent b m hm) hfresh
    refine ⟨⟨htrees, Lagging.of_inherits ?_ (inherits_promote _ _ _ _) honly.bytesRemaining_le⟩, hl⟩
    intro b y r' hy hyr hr'
    rcases mem_of_mem_add hy with heq | hy
    · obtain rfl := congrArg Prod.snd heq
      cases hr.symm.trans hr'
      show _ ≤ (r.cc.bytesRemaining.setWidth 32 : U32).toNat
      rw [BitVec.toNat_setWidth, Nat.mod_eq_of_lt hbr]
    · exact h.lagging b y r' hy hyr hr'
  · exact ⟨h, fun _ _ _ hl => .inr hl⟩

theorem upkeep_schedule_more (h : ListOk s) (k : RpcKey) (r : RpcState) (d : DataHeader)
    (env : Env) : Upkeep s (schedule s k r d false env).1 := by
  unfold schedule
  cases needSchedule r d with
  | true => exact upkeep_cacheThisRpc h k env
  | false => exact .refl h

theorem listOk_schedule_start (h : ListOk s) (he : Enterable s.groot k) (hr : s.rpcTbl k = some r)
    (hbr : r.cc.bytesRemaining.toNat < 2 ^ 32) (d : DataHeader) (env : Env) :
    ListOk (schedule s k r d true env).1 ∧
    ∀ k' ml inc, Listed (schedule s k r d true env).1.groot k' ml inc →
      (k' = k ∧ ml = d.messageLength ∧ inc = r.cc.incoming.setWidth 32 ∧
        r.cc.incoming.toNat < d.messageLength.toNat) ∨ Listed s.groot k' ml inc := by
  unfold schedule
  cases hneed : needSchedule r d with
  | true =>
    -- the cached RPC is brought up to date first
    have hcache := upkeep_cacheThisRpc h k env
    obtain ⟨r', hr', hcore⟩ := hcache.only.exists_rpc hr
    have hbytes : r'.core.cc.bytesRemaining = r.core.cc.bytesRemaining := by rw [hcore]
    have hinc : r'.core.cc.incoming = r.core.cc.incoming := by rw [hcore]
    have hbr' : r'.cc.bytesRemaining.toNat < 2 ^ 32 := (congrArg BitVec.toNat hbytes).trans_lt hbr
    obtain ⟨hok, hl⟩ := listOk_insertGrantList hcache.ok (hcache.enterable h he) hr' hbr'
      d.messageLength env
    refine ⟨hok, ?_⟩
    intro k' ml inc hlisted
    rcases hl k' ml inc hlisted with ⟨hk, hml, hi⟩ | hold
    · exact .inl ⟨hk, hml, hi.trans (congrArg (BitVec.setWidth 32) hinc), of_decide_eq_true hneed⟩
    · exact .inr (hcache.listed k' ml inc hold)
  | false => exact ⟨h, fun _ _ _ hl => .inr hl⟩

end

end MtpXdp.Homa

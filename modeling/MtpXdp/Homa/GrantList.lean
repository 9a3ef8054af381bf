import MtpXdp.Homa.State

/-!
# The Grant List

The receiver's list of RPCs that wait for grants, `groot` of `eBPF/homa`. One search tree holds two:
all RPCs, by peer and remaining bytes, and the peers, with a copy of the shortest RPC of each.
`bpf_rbtree_lower_bound`, a helper of the kernel, is taken to return the least node not less than
the key; the comparisons answer true on equal keys. What `bpf_rbtree_search_less` finds is an
argument of `grantFifoRpc`.
-/

namespace MtpXdp.Homa

open Ebpf (U8 U16 U32 U64)
open MtpXdp.Core

/-! ## Comparisons -/

/-- The number whose base 256 digits, most significant first, are the `n` bytes of `x` in memory. -/
def memOrder : (n : Nat) → (x : Nat) → Nat
  | 0, _ => 0
  | n + 1, x => x % 256 * 256 ^ n + memOrder n (x / 256)

def RpcKey.memOrder (k : RpcKey) : Nat :=
  ((Homa.memOrder 8 k.rpcid.toNat * 256 ^ 2 + Homa.memOrder 2 k.localPort.toNat) * 256 ^ 2 +
    Homa.memOrder 2 k.remotePort.toNat) * 256 ^ 4 + Homa.memOrder 4 k.remoteIp.toNat

def TreeId.less : TreeId → TreeId → Bool
  | .rpc, .peer => true
  | _, _ => false

def srptLessRpc (a b : RpcStateCc) : Bool :=
  if a.treeId ≠ b.treeId then a.treeId.less b.treeId
  else if a.peerId ≠ b.peerId then a.peerId < b.peerId
  else if a.bytesRemaining ≠ b.bytesRemaining then a.bytesRemaining < b.bytesRemaining
  else a.hkey.memOrder ≤ b.hkey.memOrder

def srptLessPeer (a b : RpcStateCc) : Bool :=
  if a.treeId ≠ b.treeId then a.treeId.less b.treeId
  else if a.bytesRemaining ≠ b.bytesRemaining then a.bytesRemaining < b.bytesRemaining
  else if a.peerId ≠ b.peerId then a.peerId < b.peerId
  else true

/-- `less_birth_grant`: a key never comes before a node that takes part in the grant rounds. -/
def lessBirthGrant (a b : RpcStateCc) : Bool :=
  if b.treeId = .peer then true
  else if b.inPeerTree then true
  else a.birth < b.birth

/-! ## The peer tree -/

def firstOfPeer (peer : U16) : RpcStateCc where
  treeId := .rpc
  peerId := peer
  bytesRemaining := 0
  incoming := 0
  hkey := ⟨0, 0, 0, 0⟩
  birth := 0
  messageLength := 0

/-- Mark the RPC at `a₀` and put a copy of its node into the peer tree, at the address `a₁`. -/
def enterPeerTree (t : RbTree RpcStateCc) (a₀ a₁ : Nat) : RbTree RpcStateCc :=
  match t.get? a₀ with
  | none => t
  | some n =>
    let n := { n with birth := n.birth ||| 1#64 }
    (t.write a₀ fun _ => n).add srptLessPeer a₁ { n with treeId := .peer }

/-- If the RPC at `a₀` is now the first of its peer, it takes the other's place in the peer tree, as
    the copy `a₁`. -/
def promote (t : RbTree RpcStateCc) (a₀ : Nat) (n₀ : RpcStateCc) (a₁ : Nat) : RbTree RpcStateCc :=
  match t.lowerBound srptLessRpc (firstOfPeer n₀.peerId) with
  | none => t
  | some (_, first) =>
    if first.treeId ≠ .rpc ∨ first.peerId ≠ n₀.peerId then t
    else if first.hkey = n₀.hkey then
      -- the search key for the next RPC: one more than this one's address
      let above := { n₀ with hkey := { n₀.hkey with remoteIp := n₀.hkey.remoteIp + 1#32 } }
      match t.lowerBound srptLessRpc above with
      | none => enterPeerTree t a₀ a₁
      | some (aOld, old) =>
        if old.treeId = .rpc ∧ old.peerId = n₀.peerId then
          let t := t.write aOld fun n => { n with birth := n.birth &&& ~~~1#64 }
          match t.lowerBound srptLessPeer { old with treeId := .peer } with
          | none => t
          | some (b₁, m) =>
            if m.treeId = .peer ∧ m.peerId = old.peerId then
              let t := t.remove b₁
              -- the grants were made on the copy
              let t := t.write aOld fun n => { n with incoming := m.incoming }
              enterPeerTree t a₀ b₁
            else t
        else enterPeerTree t a₀ a₁
    else t

/-! ## The receive path's side -/

def newNode (r : RpcState) (k : RpcKey) (messageLength : U32) (now : U64) : RpcStateCc where
  treeId := .rpc
  peerId := getPeerid k.remoteIp
  bytesRemaining := r.cc.bytesRemaining.setWidth 32
  incoming := r.cc.incoming.setWidth 32
  hkey := k
  birth := now &&& ~~~1#64
  messageLength := messageLength

def insertGrantList (s : HomaState) (k : RpcKey) (messageLength : U32) (env : Env) :
    HomaState × Verdict :=
  if env.objOk then
    match s.rpcTbl k with
    | none => (s, .redirect)
    | some r =>
      let n := newNode r k messageLength env.now
      let s := s.setRpc k
        { r with cc := { r.cc with lastBytesRemaining := n.bytesRemaining.setWidth 64 } }
      let a₀ := s.groot.fresh
      let t := s.groot.add srptLessRpc a₀ n
      ({ s with groot := promote t a₀ n t.fresh }, .redirect)
  else (s, .drop)

/-- `update_grant_for_cached_rpc` under the lock: the nodes of `k` follow the bytes that remain. -/
def updateNode (s : HomaState) (k : RpcKey) (r : RpcState) : HomaState :=
  let key : RpcStateCc :=
    { firstOfPeer (getPeerid k.remoteIp) with
      bytesRemaining := r.cc.lastBytesRemaining.setWidth 32, hkey := k }
  match s.groot.lowerBound srptLessRpc key with
  | none => s
  | some (a, n) =>
    if n.treeId ≠ .rpc ∨ n.peerId ≠ getPeerid k.remoteIp ∨ n.hkey ≠ k then s
    else
      let newBr : U32 := r.cc.bytesRemaining.setWidth 32
      let oldBr := n.bytesRemaining
      if oldBr = newBr then s
      else
        let s := s.setRpc k { r with cc := { r.cc with lastBytesRemaining := newBr.setWidth 64 } }
        let n := { n with bytesRemaining := newBr }
        let t := (s.groot.remove a).add srptLessRpc a n
        if n.inPeerTree then
          match t.lowerBound srptLessPeer { n with treeId := .peer, bytesRemaining := oldBr } with
          | none => { s with groot := t }
          | some (b, m) =>
            if m.treeId = .peer ∧ m.peerId = n.peerId then
              { s with groot := (t.remove b).add srptLessPeer b { m with bytesRemaining := newBr } }
            else { s with groot := t }
        else { s with groot := promote t a n t.fresh }

def updateGrantForCachedRpc (s : HomaState) (cpu : Nat) (objOk : Bool) : HomaState :=
  let c := s.cache cpu
  if c.hasRpc then
    let cleared := { c with hasRpc := false, delayPackets := 0#64 }
    let s := { s with cache := Function.update s.cache cpu cleared }
    match s.rpcTbl c.rpc with
    | none => s
    | some r =>
      if r.messageLength.toNat ≤ r.cc.incoming.toNat then s
      else if objOk then updateNode s c.rpc r
      else s
  else s

def cacheThisRpc (s : HomaState) (k : RpcKey) (env : Env) : HomaState :=
  if env.cpu < maxCpu then
    let c := s.cache env.cpu
    -- packets of the cached RPC are only counted, up to the bound
    let same := c.hasRpc && decide (c.rpc = k)
    let counted := { c with delayPackets := c.delayPackets + 1#64 }
    if same && decide (counted.delayPackets < maxUpdateDelayPackets) then
      { s with cache := Function.update s.cache env.cpu counted }
    else
      let s := updateGrantForCachedRpc s env.cpu env.cacheObjOk
      { s with cache := Function.update s.cache env.cpu ⟨true, k, 1#64⟩ }
  else s

/-! ## FIFO grants -/

structure RetGrantInfo where
  sport : U16
  dport : U16
  rpcid : U64
  newgrant : U32
  remoteIp : U32
  priority : U8

def anyBirth : RpcStateCc := { firstOfPeer 0 with birth := poison64 }

def FifoFound (t : RbTree RpcStateCc) (a : Nat) : Prop :=
  ∃ n, (a, n) ∈ t ∧ lessBirthGrant anyBirth n = false

/-- `newgrant` and `increment` of `grant_fifo_rpc`, for a node with the given `incoming`. -/
def fifoGrant (n : RpcStateCc) : U32 × U64 :=
  let newgrant : U64 := grantFifoIncrement + n.incoming.setWidth 64
  if n.messageLength.toNat ≤ newgrant.toNat then
    (n.messageLength, grantFifoIncrement - (newgrant - n.messageLength.setWidth 64))
  else (newgrant.setWidth 32, grantFifoIncrement)

def grantFifoRpc (s : HomaState) (a : Nat) : HomaState × Option RetGrantInfo :=
  match s.groot.get? a with
  | none => (s, none)
  | some n =>
    let newgrant : U64 := grantFifoIncrement + n.incoming.setWidth 64
    let g := fifoGrant n
    let t := s.groot.write a fun n => { n with incoming := g.1 }
    let t := if n.messageLength.toNat ≤ newgrant.toNat then t.remove a else t
    ({ s with groot := t, totalIncoming := s.totalIncoming + g.2 },
      some ⟨n.hkey.localPort, n.hkey.remotePort, n.hkey.rpcid, g.1, n.hkey.remoteIp,
        BitVec.ofNat 8 homaMaxSchedPrio⟩)

/-! ## What the receive path's side leaves alone -/

def RpcState.core (r : RpcState) : RpcState :=
  { r with cc := { r.cc with lastBytesRemaining := 0#64 } }

structure GrantListOnly (s s' : HomaState) : Prop where
  rpcs : ∀ k, (s'.rpcTbl k).map RpcState.core = (s.rpcTbl k).map RpcState.core
  total : s'.totalIncoming = s.totalIncoming
  grantCpu : s'.grantCpu = s.grantCpu
  nonfifo : s'.grantNonfifoLeft = s.grantNonfifoLeft
  acks : s'.peerAck = s.peerAck
  qids : s'.availPacingIdx = s.availPacingIdx

namespace GrantListOnly

variable {s s' s'' : HomaState} {k : RpcKey} {r : RpcState}

theorem refl (s : HomaState) : GrantListOnly s s := ⟨fun _ => rfl, rfl, rfl, rfl, rfl, rfl⟩

theorem trans (h : GrantListOnly s s') (h' : GrantListOnly s' s'') : GrantListOnly s s'' :=
  ⟨fun k => (h'.rpcs k).trans (h.rpcs k), h'.total.trans h.total, h'.grantCpu.trans h.grantCpu,
    h'.nonfifo.trans h.nonfifo, h'.acks.trans h.acks, h'.qids.trans h.qids⟩

theorem groot (s : HomaState) (t : RbTree RpcStateCc) : GrantListOnly s { s with groot := t } :=
  ⟨fun _ => rfl, rfl, rfl, rfl, rfl, rfl⟩

theorem cache (s : HomaState) (c : Nat → CachedRpc) : GrantListOnly s { s with cache := c } :=
  ⟨fun _ => rfl, rfl, rfl, rfl, rfl, rfl⟩

theorem setRpc (h : s.rpcTbl k = some r) (x : U64) :
    GrantListOnly s (s.setRpc k { r with cc := { r.cc with lastBytesRemaining := x } }) where
  rpcs k' := by
    by_cases hk : k' = k
    · subst hk
      simp [HomaState.setRpc, h, RpcState.core]
    · simp [HomaState.setRpc, Function.update_of_ne hk]
  total := rfl
  grantCpu := rfl
  nonfifo := rfl
  acks := rfl
  qids := rfl

end GrantListOnly

theorem grantListOnly_insertGrantList (s : HomaState) (k : RpcKey) (ml : U32) (env : Env) :
    GrantListOnly s (insertGrantList s k ml env).1 := by
  unfold insertGrantList
  split_ifs
  · cases hr : s.rpcTbl k with
    | none => exact .refl s
    | some r => exact (GrantListOnly.setRpc hr _).trans (.groot _ _)
  · exact .refl s

theorem grantListOnly_updateNode {s : HomaState} {k : RpcKey} {r : RpcState}
    (h : s.rpcTbl k = some r) : GrantListOnly s (updateNode s k r) := by
  unfold updateNode
  -- every branch writes `last_bytes_remaining`, then the tree, or nothing
  have hset := fun x t => (GrantListOnly.setRpc h x).trans (.groot _ t)
  dsimp only
  split
  · exact .refl s
  · split_ifs
    · exact .refl s
    · exact .refl s
    · split
      · exact hset _ _
      · split_ifs <;> exact hset _ _
    · exact hset _ _

theorem grantListOnly_updateGrantForCachedRpc (s : HomaState) (cpu : Nat) (ok : Bool) :
    GrantListOnly s (updateGrantForCachedRpc s cpu ok) := by
  unfold updateGrantForCachedRpc
  dsimp only
  split
  · split
    · exact .cache s _
    · rename_i r hr
      split
      · exact .cache s _
      · split
        · exact (GrantListOnly.cache s _).trans (grantListOnly_updateNode hr)
        · exact .cache s _
  · exact .refl s

theorem grantListOnly_cacheThisRpc (s : HomaState) (k : RpcKey) (env : Env) :
    GrantListOnly s (cacheThisRpc s k env) := by
  unfold cacheThisRpc
  dsimp only
  split_ifs
  · exact .cache s _
  · exact (grantListOnly_updateGrantForCachedRpc s env.cpu env.cacheObjOk).trans (.cache _ _)
  · exact .refl s

end MtpXdp.Homa

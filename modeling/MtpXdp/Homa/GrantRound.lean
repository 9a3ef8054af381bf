import MtpXdp.Homa.GrantList

/-!
# Grant Rounds

`choose_rpc_to_grant_prog` of `eBPF/homa/main.c` walks the peer tree from the shortest RPC on and
grants up to `HOMA_OVERCOMMITMENT` RPCs; the `complete_grant` programs then put the next RPC of a
peer into the peer tree. The eight copies of the program text for the eight RPCs are one definition
here.
-/

namespace MtpXdp.Homa

open Ebpf (U16 U32 U64)
open MtpXdp.Core Function

/-! ## One RPC -/

def windowOffset (n : RpcStateCc) : U32 :=
  let newGrant := n.messageLength - n.bytesRemaining + homaGrantWindow
  if n.messageLength < newGrant then n.messageLength else newGrant

def availableBytes (totalIncoming : U64) : U32 :=
  (homaMaxIncoming.setWidth 64 - totalIncoming).setWidth 32

/-- `new_grant` and `increment` for a node, if it gets a grant. The increment is unsigned. -/
def grantOf (available : U32) (n : RpcStateCc) : Option (U32 × U32) :=
  let newGrant := windowOffset n
  let increment := newGrant - n.incoming
  if 0#32 < increment ∧ (0#32).slt available then
    if available < increment then some (n.incoming + available, available)
    else some (newGrant, increment)
  else none

structure Grant where
  rpc : RpcKey
  offset : U32
  increment : U64

/-- The variables of the program, the entries of `remove_info` and `remove`, and the grants in
    order. -/
structure RoundState where
  tree : RbTree RpcStateCc
  minLastBytesRemaining : U32
  nextPeerId : U16
  nrRpc : Nat
  totalIncrement : U32
  ri : Nat → RemoveInfo
  remove : Nat → Bool
  grants : List Grant

def RoundState.next (st : RoundState) : Option (Nat × RpcStateCc) :=
  st.tree.lowerBound srptLessPeer
    { firstOfPeer st.nextPeerId with treeId := .peer, bytesRemaining := st.minLastBytesRemaining }

/-- Take an RPC out of both trees; its node in the tree of RPCs is found by the copy's contents. -/
def removeGranted (t : RbTree RpcStateCc) (a : Nat) (n : RpcStateCc) : RbTree RpcStateCc :=
  let t := t.remove a
  match t.lowerBound srptLessRpc { n with treeId := .rpc } with
  | none => t
  | some (b, _) => t.remove b

/-- The entry of `remove_info` names the RPC of `n`, and the search goes on behind it. -/
def visitNode (st : RoundState) (n : RpcStateCc) : RoundState :=
  let ri := { st.ri st.nrRpc with
    rpcid := n.hkey.rpcid, localPort := n.hkey.localPort, remotePort := n.hkey.remotePort,
    remoteIp := n.hkey.remoteIp }
  { st with
    minLastBytesRemaining := n.bytesRemaining
    nextPeerId := getPeerid n.hkey.remoteIp + 1#16
    nrRpc := st.nrRpc + 1
    ri := update st.ri st.nrRpc ri }

def applyGrant (i a : Nat) (n : RpcStateCc) (st : RoundState) (g : U32 × U32) : RoundState :=
  let full := decide (n.messageLength ≤ g.1)
  let t := st.tree.write a fun n => { n with incoming := g.1 }
  { st with
    tree := if full then removeGranted t a { n with incoming := g.1 } else t
    remove := update st.remove i full
    totalIncrement := st.totalIncrement + g.2
    ri := update st.ri i { st.ri i with newgrant := g.1 }
    grants := st.grants ++ [⟨n.hkey, g.1, g.2.setWidth 64⟩] }

def roundStep (available : U32) (st : RoundState) (a : Nat) (n : RpcStateCc) : RoundState :=
  (grantOf available n).elim (visitNode st n) (applyGrant st.nrRpc a n (visitNode st n))

def roundLoop (available : U32) : Nat → RoundState → RoundState
  | 0, st => st
  | k + 1, st =>
    match st.next with
    | none => st
    | some (a, n) => roundLoop available k (roundStep available st a n)

def RoundState.start (s : HomaState) (cpu : Nat) : RoundState where
  tree := s.groot
  minLastBytesRemaining := 0
  nextPeerId := 0
  nrRpc := 0
  totalIncrement := 0
  ri := (s.grantCpu cpu).ri
  remove := (s.grantCpu cpu).remove
  grants := []

def roundEnd (s : HomaState) (cpu : Nat) : RoundState :=
  roundLoop (availableBytes s.totalIncoming) homaOvercommitment (.start s cpu)

/-! ## The program -/

/-- The first pass: priorities downwards from the highest one, and the number of entries with a
    grant. -/
def assignPriorities (nrRpc : Nat) (ri : Nat → RemoveInfo) : (Nat → RemoveInfo) × Nat :=
  (List.range nrRpc).foldl
    (fun (ri, prioIdx) i =>
      if (ri i).newgrant ≠ 0#32 then
        let priority := homaMaxSchedPrio - prioIdx
        (update ri i { ri i with priority := BitVec.ofNat 8 priority }, prioIdx + 1)
      else (ri, prioIdx))
    (ri, 0)

/-- The second pass: down by the unused levels. A priority that would become zero stays as it was.
    -/
def lowerPriorities (nrRpc actualRpc : Nat) (ri : Nat → RemoveInfo) : Nat → RemoveInfo :=
  let extraLevels : Int := homaMaxSchedPrio + 1 - actualRpc
  if 0 ≤ extraLevels then
    (List.range nrRpc).foldl
      (fun ri i =>
        if (ri i).newgrant ≠ 0#32 then
          let priority : Int := (ri i).priority.toNat - extraLevels
          if priority ≠ 0 then
            update ri i { ri i with priority := BitVec.ofInt 8 priority }
          else ri
        else ri)
      ri
  else ri

/-- `choose_rpc_to_grant_prog` with its grants, and whether it goes on to `complete_grant`. `ok`: it
    got the lock and its objects. -/
def chooseRpcToGrantProg (s : HomaState) (cpu : Nat) (ok : Bool) :
    HomaState × List Grant × Bool :=
  if ok then
    let st := roundEnd s cpu
    let left := s.grantNonfifoLeft - st.totalIncrement
    let fifo := decide (left.toInt ≤ 0)
    let c := s.grantCpu cpu
    let c := { c with
      ri := st.ri, remove := st.remove, needGrantFifo := fifo || c.needGrantFifo }
    let s := { s with
      groot := st.tree
      totalIncoming := s.totalIncoming + st.totalIncrement.setWidth 64
      grantNonfifoLeft := if fifo then left + grantNonfifo else left }
    if st.nrRpc = 0 then
      ({ s with grantCpu := update s.grantCpu cpu c }, st.grants, false)
    else
      let (ri, actualRpc) := assignPriorities st.nrRpc c.ri
      let ri := if actualRpc = 0 then ri else lowerPriorities st.nrRpc actualRpc ri
      let c := { c with ri := ri, nrGrantCandidate := st.nrRpc, nrGrantReady := actualRpc }
      ({ s with grantCpu := update s.grantCpu cpu c }, st.grants, decide (actualRpc ≠ 0))
  else (s, [], false)

/-- The `complete_grant` program of the `i`-th RPC: if it was removed, its peer's first RPC enters
    the peer tree. -/
def completeGrantProg (s : HomaState) (cpu i : Nat) (ok : Bool) : HomaState :=
  let c := s.grantCpu cpu
  if i < c.nrGrantCandidate ∧ c.remove i = true ∧ ok = true then
    let peer := getPeerid (c.ri i).remoteIp
    match s.groot.lowerBound srptLessRpc (firstOfPeer peer) with
    | none => s
    | some (a, n) =>
      if n.treeId = .rpc ∧ n.peerId = peer ∧ n.inPeerTree = false then
        { s with groot := enterPeerTree s.groot a s.groot.fresh }
      else s
  else s

end MtpXdp.Homa

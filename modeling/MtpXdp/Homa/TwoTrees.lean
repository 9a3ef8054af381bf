import MtpXdp.Homa.GrantOrder

/-!
# The Two Trees of the Grant List

The peer tree has at most one RPC of each peer, a copy of the one that comes first in the tree of
RPCs and is marked there. Grants are made on the copy, and on a node itself as long as it is not
marked. In `TwoTrees ex t` the node at `ex` has just got its place and may come before the RPC of
its peer that is in the peer tree; `promote` exchanges the two. Two RPCs of one peer id must have
one address, whose lowest byte is not 255.
-/

namespace MtpXdp.Homa

open Ebpf (U16 U32)
open MtpXdp.Core RbTree RpcStateCc

variable {n m x old n₀ : RpcStateCc} {t t' : RbTree RpcStateCc} {b aOld a₀ a₁ : Nat} {P : Prop}
  {ex : Option Nat}

/-! ## Marks -/

namespace RpcStateCc

def mark (n : RpcStateCc) : RpcStateCc := { n with birth := n.birth ||| 1#64 }

def unmark (n : RpcStateCc) : RpcStateCc := { n with birth := n.birth &&& ~~~1#64 }

@[simp] theorem inPeerTree_mark (n : RpcStateCc) : n.mark.inPeerTree = true := by
  simp [mark, inPeerTree]

@[simp] theorem inPeerTree_unmark (n : RpcStateCc) : n.unmark.inPeerTree = false := by
  simp [unmark, inPeerTree]

theorem unmark_of_not_inPeerTree (h : n.inPeerTree = false) : n.unmark = n := by
  have hbirth : n.birth &&& ~~~1#64 = n.birth := by
    apply BitVec.eq_of_getLsbD_eq
    intro i hi
    rw [BitVec.getLsbD_and, BitVec.getLsbD_not, BitVec.getLsbD_one]
    rcases Nat.eq_zero_or_pos i with rfl | hpos
    · simpa [inPeerTree] using h
    · simp [hi, hpos.ne']
  rw [unmark, hbirth]

def Authoritative (n : RpcStateCc) : Prop := n.treeId = .peer ∨ n.inPeerTree = false

def strip (n : RpcStateCc) : RpcStateCc := { n with incoming := 0 }

theorem fields_of_strip (h : n.strip = m.strip) :
    n.rank = m.rank ∧ n.treeId = m.treeId ∧ n.peerId = m.peerId ∧ n.hkey = m.hkey ∧
    n.inPeerTree = m.inPeerTree ∧ n.messageLength = m.messageLength ∧
    n.bytesRemaining = m.bytesRemaining := by
  have hc {α : Type} (f : RpcStateCc → α) : f n.strip = f m.strip := congrArg f h
  exact ⟨hc rank, hc treeId, hc peerId, hc hkey, hc inPeerTree, hc messageLength, hc bytesRemaining⟩

end RpcStateCc

structure CopyOf (m n : RpcStateCc) : Prop where
  rpc : n.treeId = .rpc
  marked : n.inPeerTree = true
  hkey : n.hkey = m.hkey
  peerId : n.peerId = m.peerId
  bytesRemaining : n.bytesRemaining = m.bytesRemaining
  messageLength : n.messageLength = m.messageLength

theorem CopyOf.false_of_unmarked (h : CopyOf m x) (hx : (b, x) ∈ t) (hn : (b, n) ∈ t)
    (hun : n.inPeerTree = false) : False := by
  simpa [eq_of_mem hx hn, hun] using h.marked

def FirstOfPeer (ex : Option Nat) (t : RbTree RpcStateCc) (n : RpcStateCc) : Prop :=
  ∀ c x, (c, x) ∈ t → ex ≠ some c → x.treeId = .rpc → x.peerId = n.peerId → n.rank ≤ x.rank

/-- The peer id is that of the address, one for all RPCs of the peer, and an RPC is in its tree
    once. -/
structure Named (t : RbTree RpcStateCc) : Prop where
  peer : ∀ a n, (a, n) ∈ t → n.peerId = getPeerid n.hkey.remoteIp
  lowByte : ∀ a n, (a, n) ∈ t → n.hkey.remoteIp.toNat % 256 ≠ 255
  address : ∀ a n b m, (a, n) ∈ t → (b, m) ∈ t → n.peerId = m.peerId →
    n.hkey.remoteIp = m.hkey.remoteIp
  keys : ∀ a n b m, (a, n) ∈ t → (b, m) ∈ t → n.treeId = .rpc → m.treeId = .rpc →
    n.hkey = m.hkey → a = b

structure TwoTrees (ex : Option Nat) (t : RbTree RpcStateCc) : Prop extends Named t where
  ranked : t.Ranked RpcStateCc.rank
  copies : ∀ b m, (b, m) ∈ t → m.treeId = .peer →
    ∃ a n, (a, n) ∈ t ∧ CopyOf m n ∧ FirstOfPeer ex t n
  marked : ∀ a n, (a, n) ∈ t → n.treeId = .rpc → n.inPeerTree = true →
    ∃ b m, (b, m) ∈ t ∧ m.treeId = .peer ∧ m.hkey = n.hkey
  exempt : ∀ a n, ex = some a → (a, n) ∈ t → n.treeId = .rpc ∧ n.inPeerTree = false

/-- The RPC `k` is in the grant list, with a message of length `ml` of which `inc` bytes are
    granted. -/
def Listed (t : RbTree RpcStateCc) (k : RpcKey) (ml inc : U32) : Prop :=
  ∃ a n, (a, n) ∈ t ∧ n.Authoritative ∧ n.hkey = k ∧ n.messageLength = ml ∧ n.incoming = inc

theorem FirstOfPeer.mono {ex : Option Nat} {n' : RpcStateCc}
    (h : FirstOfPeer ex t n) (hrank : n'.rank ≤ n.rank) (hpeer : n'.peerId = n.peerId)
    (hto : ∀ c y, (c, y) ∈ t' → y.treeId = .rpc → y.peerId = n.peerId →
      ∃ x, (c, x) ∈ t ∧ x.treeId = .rpc ∧ x.peerId = y.peerId ∧ x.rank ≤ y.rank) :
    FirstOfPeer ex t' n' := by
  intro c y hy hc hrpc hsame
  obtain ⟨x, hx, htree, hp, hle⟩ := hto c y hy hrpc (hsame.trans hpeer)
  exact hrank.trans ((h c x hx hc htree (hp.trans (hsame.trans hpeer))).trans hle)

theorem Named.of_names (h : Named t)
    (hname : ∀ a n', (a, n') ∈ t' → ∃ b n, (b, n) ∈ t ∧ n.hkey = n'.hkey ∧ n.peerId = n'.peerId)
    (hrpc : ∀ a n', (a, n') ∈ t' → n'.treeId = .rpc →
      ∃ n, (a, n) ∈ t ∧ n.treeId = .rpc ∧ n.hkey = n'.hkey) : Named t' where
  peer a n' hn' := by grind [h.peer]
  lowByte a n' hn' := by grind [h.lowByte]
  address a n' b m' hn' hm' heq := by
    obtain ⟨c, n, hn, hk, hp⟩ := hname a n' hn'
    obtain ⟨d, m, hm, hk', hp'⟩ := hname b m' hm'
    grind [h.address c n d m hn hm]
  keys a n' b m' hn' hm' hrn hrm heq := by
    obtain ⟨n, hn, htn, hk⟩ := hrpc a n' hn' hrn
    obtain ⟨m, hm, htm, hk'⟩ := hrpc b m' hm' hrm
    exact h.keys a n b m hn hm htn htm (hk.trans (heq.trans hk'.symm))

theorem ne_of_trees {a : Nat} (hn : (a, n) ∈ t)
    (hr : n.treeId = .rpc) (hm : (b, m) ∈ t) (hp : m.treeId = .peer) : a ≠ b := by
  grind [eq_of_mem]

namespace TwoTrees

variable {a : Nat}

theorem empty : TwoTrees none (empty : RbTree RpcStateCc) where
  ranked := ranked_empty
  peer _ _ h := absurd h (not_mem_empty _)
  lowByte _ _ h := absurd h (not_mem_empty _)
  address _ _ _ _ h := absurd h (not_mem_empty _)
  keys _ _ _ _ h := absurd h (not_mem_empty _)
  copies _ _ h := absurd h (not_mem_empty _)
  marked _ _ h := absurd h (not_mem_empty _)
  exempt _ _ _ h := absurd h (not_mem_empty _)

theorem copy_unique (h : TwoTrees ex t) (hb : (b, m) ∈ t) (hm : m.treeId = .peer)
    {b' : Nat} {m' : RpcStateCc} (hb' : (b', m') ∈ t) (hm' : m'.treeId = .peer)
    (hpeer : m.peerId = m'.peerId) : b = b' := by
  obtain ⟨a, n, ha, hcopy, hfirst⟩ := h.copies b m hb hm
  obtain ⟨a', n', ha', hcopy', hfirst'⟩ := h.copies b' m' hb' hm'
  -- a marked node is not exempt
  have hex {c : Nat} {x : RpcStateCc} (hx : (c, x) ∈ t) (hmark : x.inPeerTree = true) :
      ex ≠ some c := by
    intro he
    simpa [hmark] using (h.exempt c x he hx).2
  have hsame : n.peerId = n'.peerId := hcopy.peerId.trans (hpeer.trans hcopy'.peerId.symm)
  have hle := hfirst a' n' ha' (hex ha' hcopy'.marked) hcopy'.rpc hsame.symm
  have hle' := hfirst' a n ha (hex ha hcopy.marked) hcopy.rpc hsame
  obtain rfl := h.ranked.eq_of_rank ha ha' (le_antisymm hle hle')
  obtain rfl := eq_of_mem ha ha'
  refine h.ranked.eq_of_rank hb hb' ?_
  rw [rank_peer hm, rank_peer hm', ← hcopy.bytesRemaining, hcopy'.bytesRemaining, hpeer]

theorem unexempt (h : TwoTrees (some a) t) (ha : (a, n) ∈ t)
    (hfirst : ∀ b m c x, (b, m) ∈ t → m.treeId = .peer → (c, x) ∈ t → CopyOf m x →
      FirstOfPeer (some a) t x → n.peerId = x.peerId → x.rank ≤ n.rank) : TwoTrees none t := by
  refine { h with copies := ?_, exempt := fun _ _ he => nomatch he }
  intro b m hb hm
  obtain ⟨c, x, hc, hcopy, hx⟩ := h.copies b m hb hm
  refine ⟨c, x, hc, hcopy, ?_⟩
  intro d y hd _ hrpc hpeer
  rcases eq_or_ne a d with rfl | hne
  · obtain rfl := eq_of_mem ha hd
    exact hfirst b m c x hb hm hc hcopy hx hpeer
  · exact hx d y hd (fun he => hne (Option.some.inj he)) hrpc hpeer

theorem of_strip (h : TwoTrees ex t) (hranked : t'.Ranked rank)
    (hto : ∀ a n', (a, n') ∈ t' → ∃ n, (a, n) ∈ t ∧ n.strip = n'.strip)
    (hfrom : ∀ a n, (a, n) ∈ t → ∃ n', (a, n') ∈ t' ∧ n.strip = n'.strip) : TwoTrees ex t' := by
  -- what the fields look at is the same in nodes that agree but for the grants
  refine { h.toNamed.of_names ?_ ?_ with
    ranked := hranked, copies := ?_, marked := ?_, exempt := ?_ }
  · intro a n' hn'
    obtain ⟨n, hn, heq⟩ := hto a n' hn'
    obtain ⟨-, -, hp, hk, -⟩ := fields_of_strip heq
    exact ⟨a, n, hn, hk, hp⟩
  · intro a n' hn' hrpc
    obtain ⟨n, hn, heq⟩ := hto a n' hn'
    obtain ⟨-, htree, -, hk, -⟩ := fields_of_strip heq
    exact ⟨n, hn, htree.trans hrpc, hk⟩
  · intro b m' hm' hp
    obtain ⟨m, hm, heq⟩ := hto b m' hm'
    have hm'' := fields_of_strip heq
    obtain ⟨a, n, hn, hcopy, hfirst⟩ := h.copies b m hm (hm''.2.1.trans hp)
    obtain ⟨n', hn', heq'⟩ := hfrom a n hn
    have hn'' := fields_of_strip heq'
    refine ⟨a, n', hn', ?_, hfirst.mono hn''.1.ge hn''.2.2.1.symm ?_⟩
    · obtain ⟨_, _, _, _, _, _⟩ := hcopy
      constructor <;> grind
    · intro c y hy hyr _
      obtain ⟨x, hx, hxy⟩ := hto c y hy
      obtain ⟨hr, htree, hp', -⟩ := fields_of_strip hxy
      exact ⟨x, hx, htree.trans hyr, hp', hr.le⟩
  · intro a n' hn' hrpc hmarked
    obtain ⟨n, hn, heq⟩ := hto a n' hn'
    obtain ⟨-, htree, -, hkey, hmark, -⟩ := fields_of_strip heq
    obtain ⟨b, m, hm, hp, hk⟩ := h.marked a n hn (htree.trans hrpc) (hmark.trans hmarked)
    obtain ⟨m', hm', heq'⟩ := hfrom b m hm
    have hm'' := fields_of_strip heq'
    exact ⟨b, m', hm', by grind⟩
  · intro a n' hex hn'
    obtain ⟨n, hn, heq⟩ := hto a n' hn'
    grind [fields_of_strip heq, h.exempt a n hex hn]

theorem grant (h : TwoTrees ex t) (a : Nat) (x : U32) :
    TwoTrees ex (t.write a fun n => { n with incoming := x }) := by
  refine h.of_strip (h.ranked.write a fun _ => rfl) ?_ ?_
  · intro b n' hn'
    obtain ⟨n, hn, rfl⟩ := mem_write.mp hn'
    refine ⟨n, hn, ?_⟩
    split_ifs <;> rfl
  · intro b n hn
    refine ⟨_, mem_write.mpr ⟨n, hn, rfl⟩, ?_⟩
    split_ifs <;> rfl

end TwoTrees

/-! ## Entering and leaving the peer tree -/

def RpcStateCc.copy (n : RpcStateCc) : RpcStateCc := { n.mark with treeId := .peer }

theorem enterPeerTree_eq (h0 : (a₀, n) ∈ t) :
    enterPeerTree t a₀ a₁ = (t.write a₀ mark).add srptLessPeer a₁ n.copy := by
  have hwrite : t.write a₀ mark = t.write a₀ fun _ => n.mark := by
    refine write_congr ?_
    intro m hm
    rw [eq_of_mem hm h0]
  rw [enterPeerTree, get?_eq_some_iff.mpr h0, hwrite]
  rfl

theorem mem_enterPeerTree (h0 : (a₀, n) ∈ t) (h1 : ∀ m, (a₁, m) ∉ t) {y : RpcStateCc} :
    (b, y) ∈ enterPeerTree t a₀ a₁ ↔
      (b = a₁ ∧ y = n.copy) ∨ ∃ m, (b, m) ∈ t ∧ y = if b = a₀ then m.mark else m := by
  have h1' : ∀ m, (a₁, m) ∉ t.write a₀ mark := by
    intro m hm
    obtain ⟨x, hx, -⟩ := mem_write.mp hm
    exact h1 x hx
  rw [enterPeerTree_eq h0, mem_add h1', Prod.mk.injEq, mem_write]

theorem mark_or_self [Decidable P] (m : RpcStateCc) :
    (if P then m.mark else m).rank = m.rank ∧ (if P then m.mark else m).treeId = m.treeId ∧
    (if P then m.mark else m).peerId = m.peerId ∧ (if P then m.mark else m).hkey = m.hkey ∧
    (if P then m.mark else m).bytesRemaining = m.bytesRemaining ∧
    (if P then m.mark else m).messageLength = m.messageLength ∧
    (if P then m.mark else m).incoming = m.incoming := by
  split_ifs <;> exact ⟨rfl, rfl, rfl, rfl, rfl, rfl, rfl⟩

theorem CopyOf.mark_or_self [Decidable P] (h : CopyOf m x) :
    CopyOf m (if P then x.mark else x) := by
  split_ifs
  · exact { h with marked := x.inPeerTree_mark }
  · exact h

theorem TwoTrees.enter (h : TwoTrees none t) (h0 : (a₀, n) ∈ t) (hrpc : n.treeId = .rpc)
    (hfirst : FirstOfPeer none t n)
    (hno : ∀ b m, (b, m) ∈ t → m.treeId = .peer → m.peerId ≠ n.peerId) (h1 : ∀ m, (a₁, m) ∉ t) :
    TwoTrees none (enterPeerTree t a₀ a₁) := by
  have hmem {b : Nat} {y : RpcStateCc} := mem_enterPeerTree h0 h1 (b := b) (y := y)
  -- the nodes in the tree of RPCs keep name and place
  have hold (c : Nat) (y : RpcStateCc) (hy : (c, y) ∈ enterPeerTree t a₀ a₁)
      (hyr : y.treeId = .rpc) :
      ∃ x, (c, x) ∈ t ∧ y = if c = a₀ then x.mark else x := by
    rcases hmem.mp hy with ⟨-, rfl⟩ | hx
    · cases hyr
    · exact hx
  have hkeep (x : RpcStateCc) (hx : FirstOfPeer none t x) (y : RpcStateCc) (hrank : y.rank ≤ x.rank)
      (hpeer : y.peerId = x.peerId) : FirstOfPeer none (enterPeerTree t a₀ a₁) y := by
    refine hx.mono hrank hpeer ?_
    intro c z hz hzr _
    obtain ⟨w, hw, rfl⟩ := hold c z hz hzr
    obtain ⟨hr, htr, hp, -⟩ := mark_or_self (P := c = a₀) w
    exact ⟨w, hw, htr.symm.trans hzr, hp.symm, hr.symm.le⟩
  refine { h.toNamed.of_names ?_ ?_ with
    ranked := ?_, copies := ?_, marked := ?_, exempt := fun _ _ he => nomatch he }
  · intro b y hy
    rcases hmem.mp hy with ⟨-, rfl⟩ | ⟨m, hm, rfl⟩
    · exact ⟨a₀, n, h0, rfl, rfl⟩
    · obtain ⟨-, -, hp, hk, -⟩ := mark_or_self (P := b = a₀) m
      exact ⟨b, m, hm, hk.symm, hp.symm⟩
  · intro b y hy hyr
    obtain ⟨m, hm, rfl⟩ := hold b y hy hyr
    obtain ⟨-, htr, -, hk, -⟩ := mark_or_self (P := b = a₀) m
    exact ⟨m, hm, htr.symm.trans hyr, hk.symm⟩
  · rw [enterPeerTree_eq h0]
    have hwrite : (t.write a₀ mark).Ranked rank :=
      h.ranked.write a₀ fun _ => rfl
    refine hwrite.add (fun _ _ _ => srptLessPeer_iff rfl) ?_
    intro b m hm heq
    obtain ⟨x, hx, rfl⟩ := mem_write.mp hm
    rw [(mark_or_self x).1] at heq
    cases htree : x.treeId with
    | rpc =>
      have hlt := rank_rpc_lt htree
      rw [heq, rank_peer rfl] at hlt
      omega
    | peer =>
      rw [rank_peer htree, rank_peer rfl] at heq
      have hp := (digits_inj x.peerId.isLt n.copy.peerId.isLt (Nat.add_left_cancel heq)).2
      exact hno b x hx htree (BitVec.eq_of_toNat_eq hp)
  · intro b y hy hyp
    rcases hmem.mp hy with ⟨-, rfl⟩ | ⟨m, hm, rfl⟩
    · refine ⟨a₀, n.mark, hmem.mpr (.inr ⟨n, h0, (if_pos rfl).symm⟩), ?_, ?_⟩
      · exact ⟨hrpc, n.inPeerTree_mark, rfl, rfl, rfl, rfl⟩
      · exact hkeep n hfirst n.mark le_rfl rfl
    · obtain ⟨-, htr, hp, hk, hbr, hml, -⟩ := mark_or_self (P := b = a₀) m
      obtain ⟨c, x, hc, hcopy, hx⟩ := h.copies b m hm (htr.symm.trans hyp)
      obtain ⟨hr', -, hp', -⟩ := mark_or_self (P := c = a₀) x
      have hcopy' : CopyOf (if b = a₀ then m.mark else m) x :=
        ⟨hcopy.rpc, hcopy.marked, hcopy.hkey.trans hk.symm, hcopy.peerId.trans hp.symm,
          hcopy.bytesRemaining.trans hbr.symm, hcopy.messageLength.trans hml.symm⟩
      exact ⟨c, _, hmem.mpr (.inr ⟨x, hc, rfl⟩), hcopy'.mark_or_self, hkeep x hx _ hr'.le hp'⟩
  · intro b y hy hyr hmark
    obtain ⟨m, hm, rfl⟩ := hold b y hy hyr
    by_cases hb : b = a₀
    · subst hb
      obtain rfl := eq_of_mem hm h0
      exact ⟨a₁, m.copy, hmem.mpr (.inl ⟨rfl, rfl⟩), rfl, by rw [if_pos rfl]; rfl⟩
    · rw [if_neg hb] at hyr hmark ⊢
      obtain ⟨c, x, hc, hp, hk⟩ := h.marked b m hm hyr hmark
      obtain ⟨-, htr, -, hk', -⟩ := mark_or_self (P := c = a₀) x
      exact ⟨c, _, hmem.mpr (.inr ⟨x, hc, rfl⟩), htr.trans hp, hk'.trans hk⟩

theorem listed_enterPeerTree (h0 : (a₀, n) ∈ t) (hun : n.inPeerTree = false)
    (h1 : ∀ m, (a₁, m) ∉ t) {k : RpcKey} {ml inc : U32}
    (h : Listed (enterPeerTree t a₀ a₁) k ml inc) : Listed t k ml inc := by
  obtain ⟨b, y, hy, hauth, hk, hml, hinc⟩ := h
  rcases (mem_enterPeerTree h0 h1).mp hy with ⟨-, rfl⟩ | ⟨m, hm, rfl⟩
  · exact ⟨a₀, n, h0, .inr hun, hk, hml, hinc⟩
  · grind [Listed, RpcStateCc.Authoritative, eq_of_mem, mark]

section

variable {b₁ : Nat}

def leavePeerTree (t : RbTree RpcStateCc) (aOld b₁ : Nat) : RbTree RpcStateCc :=
  (t.write aOld RpcStateCc.unmark).remove b₁

theorem mem_leavePeerTree {y : RpcStateCc} : (b, y) ∈ leavePeerTree t aOld b₁ ↔
      b ≠ b₁ ∧ ∃ x, (b, x) ∈ t ∧ y = if b = aOld then x.unmark else x := by
  rw [leavePeerTree, mem_remove, mem_write]

theorem unmark_or_self [Decidable P] (x : RpcStateCc) :
    (if P then x.unmark else x).rank = x.rank ∧ (if P then x.unmark else x).treeId = x.treeId ∧
    (if P then x.unmark else x).peerId = x.peerId ∧ (if P then x.unmark else x).hkey = x.hkey := by
  split_ifs <;> exact ⟨rfl, rfl, rfl, rfl⟩

theorem TwoTrees.demote (h : TwoTrees (some a₀) t) (h0 : (a₀, n₀) ∈ t) (hold : (aOld, old) ∈ t)
    (hb : (b₁, m) ∈ t) (hm : m.treeId = .peer) (hcopy : CopyOf m old)
    (hpeer : n₀.peerId = old.peerId) :
    TwoTrees none (leavePeerTree t aOld b₁) ∧
    ∀ b x, (b, x) ∈ leavePeerTree t aOld b₁ → x.treeId = .peer → x.peerId ≠ old.peerId := by
  have hranked : (t.write aOld unmark).Ranked rank :=
    h.ranked.write aOld fun _ => rfl
  -- a node of the peer tree that is still there is not the copy of the peer
  have hother (b : Nat) (x : RpcStateCc) (hx : (b, x) ∈ t) (hxp : x.treeId = .peer) (hne : b ≠ b₁) :
      x.peerId ≠ old.peerId := by
    intro heq
    exact hne (h.copy_unique hx hxp hb hm (heq.trans hcopy.peerId))
  have hpeerTree (b : Nat) (x : RpcStateCc) (hx : (b, x) ∈ t) (hxp : x.treeId = .peer) :
      b ≠ aOld :=
    (ne_of_trees hold hcopy.rpc hx hxp).symm
  have hrpcTree (b : Nat) (x : RpcStateCc) (hx : (b, x) ∈ t) (hxr : x.treeId = .rpc) : b ≠ b₁ :=
    ne_of_trees hx hxr hb hm
  refine ⟨?_, ?_⟩
  · refine { h.toNamed.of_names ?_ ?_ with
      ranked := hranked.remove b₁
      copies := ?_, marked := ?_, exempt := fun _ _ he => nomatch he }
    · intro b y hy
      obtain ⟨-, x, hx, rfl⟩ := mem_leavePeerTree.mp hy
      obtain ⟨-, -, hp, hk⟩ := unmark_or_self (P := b = aOld) x
      exact ⟨b, x, hx, hk.symm, hp.symm⟩
    · intro b y hy hyr
      obtain ⟨-, x, hx, rfl⟩ := mem_leavePeerTree.mp hy
      obtain ⟨-, htr, -, hk⟩ := unmark_or_self (P := b = aOld) x
      exact ⟨x, hx, htr.symm.trans hyr, hk.symm⟩
    · intro b y hy hyp
      obtain ⟨hne, x, hx, rfl⟩ := mem_leavePeerTree.mp hy
      rw [(unmark_or_self x).2.1] at hyp
      have hbOld := hpeerTree b x hx hyp
      rw [if_neg hbOld]
      obtain ⟨c, z, hz, hcz, hfirst⟩ := h.copies b x hx hyp
      have hzpeer : z.peerId ≠ old.peerId := by
        rw [hcz.peerId]
        exact hother b x hx hyp hne
      have hcOld : c ≠ aOld := by
        rintro rfl
        exact hzpeer (by rw [eq_of_mem hz hold])
      refine ⟨c, z, mem_leavePeerTree.mpr ⟨hrpcTree c z hz hcz.rpc, z, hz, (if_neg hcOld).symm⟩,
        hcz, ?_⟩
      intro d w hw _ hwr hwp
      obtain ⟨-, v, hv, rfl⟩ := mem_leavePeerTree.mp hw
      obtain ⟨hr, htr, hp, -⟩ := unmark_or_self (P := d = aOld) v
      rw [hr]
      refine hfirst d v hv ?_ (htr.symm.trans hwr) (hp.symm.trans hwp)
      -- the exempt node is of the peer that has lost its copy
      intro hd
      obtain rfl := Option.some.inj hd
      obtain rfl := eq_of_mem hv h0
      exact hzpeer (hwp.symm.trans (hp.trans hpeer))
    · intro a y hy hyr hmark
      obtain ⟨-, x, hx, rfl⟩ := mem_leavePeerTree.mp hy
      by_cases ha : a = aOld
      · simp [ha] at hmark
      · rw [if_neg ha] at hyr hmark ⊢
        obtain ⟨b, z, hz, hzp, hk⟩ := h.marked a x hx hyr hmark
        refine ⟨b, z, mem_leavePeerTree.mpr ⟨?_, z, hz, (if_neg (hpeerTree b z hz hzp)).symm⟩,
          hzp, hk⟩
        rintro rfl
        rw [eq_of_mem hz hb, ← hcopy.hkey] at hk
        exact ha (h.keys a x aOld old hx hold hyr hcopy.rpc hk.symm)
  · intro b y hy hyp
    obtain ⟨hne, x, hx, rfl⟩ := mem_leavePeerTree.mp hy
    obtain ⟨-, htr, hp, -⟩ := unmark_or_self (P := b = aOld) x
    rw [hp]
    exact hother b x hx (htr.symm.trans hyp) hne

theorem listed_leavePeerTree (hold : (aOld, old) ∈ t) (hb : (b₁, m) ∈ t) (hm : m.treeId = .peer)
    (hcopy : CopyOf m old) {k : RpcKey} {ml inc : U32}
    (h : Listed ((leavePeerTree t aOld b₁).write aOld fun n => { n with incoming := m.incoming })
      k ml inc) : Listed t k ml inc := by
  obtain ⟨b, y, hy, hauth, hk, hml, hinc⟩ := h
  obtain ⟨w, hw, rfl⟩ := mem_write.mp hy
  obtain ⟨-, x, hx, rfl⟩ := mem_leavePeerTree.mp hw
  grind [Listed, RpcStateCc.Authoritative, eq_of_mem, unmark, hcopy.hkey,
    hcopy.messageLength]

end

/-! ## Exchanging the first RPC of a peer -/

section

theorem rank_firstOfPeer (p : U16) : (firstOfPeer p).rank = p.toNat * 2 ^ 160 := by
  have hbytes : (firstOfPeer p).bytesRemaining.toNat = 0 := rfl
  have hzero : (⟨0, 0, 0, 0⟩ : RpcKey).memOrder = 0 := by decide +kernel
  have hkey : (firstOfPeer p).hkey.memOrder = 0 := hzero
  have hpeer : (firstOfPeer p).peerId = p := rfl
  rw [rank_rpc rfl, hbytes, hkey, hpeer]
  omega

theorem peer_of_rank_le {p : U16} (hn : n.treeId = .rpc) (hp : n.peerId = p)
    (hlow : (firstOfPeer p).rank ≤ x.rank) (hhigh : x.rank ≤ n.rank) :
    x.treeId = .rpc ∧ x.peerId = p := by
  have hlt := rank_rpc_lt hn
  have htree : x.treeId = .rpc := by
    cases hx : x.treeId with
    | rpc => rfl
    | peer =>
      rw [rank_peer hx] at hhigh
      omega
  refine ⟨htree, BitVec.eq_of_toNat_eq ?_⟩
  subst hp
  have h3 := x.hkey.memOrder_lt
  have h4 := n.hkey.memOrder_lt
  rw [rank_firstOfPeer] at hlow
  rw [rank_rpc htree] at hlow hhigh
  rw [rank_rpc hn] at hhigh
  omega

theorem rank_firstOfPeer_le (hn : n.treeId = .rpc) : (firstOfPeer n.peerId).rank ≤ n.rank := by
  rw [rank_firstOfPeer, rank_rpc hn]
  omega

theorem lowerBound_firstOfPeer (h : TwoTrees ex t) (h0 : (a₀, n₀) ∈ t) (hrpc : n₀.treeId = .rpc) :
    ∃ a n, t.lowerBound srptLessRpc (firstOfPeer n₀.peerId) = some (a, n) ∧ (a, n) ∈ t ∧
      n.treeId = .rpc ∧ n.peerId = n₀.peerId ∧
      ∀ c x, (c, x) ∈ t → x.treeId = .rpc → x.peerId = n₀.peerId → n.rank ≤ x.rank := by
  have hless (b : Nat) (m : RpcStateCc) (_ : (b, m) ∈ t) :
      srptLessRpc (firstOfPeer n₀.peerId) m = true ↔ (firstOfPeer n₀.peerId).rank ≤ m.rank :=
    srptLessRpc_iff rfl
  cases hlb : t.lowerBound srptLessRpc (firstOfPeer n₀.peerId) with
  | none =>
    have hno := lowerBound_eq_none_iff.mp hlb a₀ n₀ h0
    rw [(hless a₀ n₀ h0).mpr (rank_firstOfPeer_le hrpc)] at hno
    cases hno
  | some x =>
    obtain ⟨a, n⟩ := x
    obtain ⟨hmem, hle, hleast⟩ := (lowerBound_eq_some_iff h.ranked hless).mp hlb
    have hn := peer_of_rank_le hrpc rfl hle (hleast a₀ n₀ h0 (rank_firstOfPeer_le hrpc))
    refine ⟨a, n, rfl, hmem, hn.1, hn.2, ?_⟩
    intro c x hx hxr hxp
    exact hleast c x hx (hxp ▸ rank_firstOfPeer_le hxr)

section

variable (h : TwoTrees (some a₀) t)
include h

theorem TwoTrees.unexempt_of_no_copy (h0 : (a₀, n₀) ∈ t)
    (hno : ∀ b m, (b, m) ∈ t → m.treeId = .peer → m.peerId ≠ n₀.peerId) : TwoTrees none t := by
  refine h.unexempt h0 ?_
  intro b m c x hb hm _ hcopy _ hp
  exact absurd (hcopy.peerId.symm.trans hp.symm) (hno b m hb hm)

theorem TwoTrees.ne_exempt {c : Nat} (hx : (c, x) ∈ t) (hcopy : CopyOf m x) : c ≠ a₀ := by
  rintro rfl
  simpa [hcopy.marked] using (h.exempt c x rfl hx).2

section

variable (h0 : (a₀, n₀) ∈ t) (hleast : ∀ c x, (c, x) ∈ t → x.treeId = .rpc → x.peerId = n₀.peerId →
  n₀.rank ≤ x.rank)
include h0 hleast

theorem TwoTrees.enter_exempt (hno : ∀ b m, (b, m) ∈ t → m.treeId = .peer → m.peerId ≠ n₀.peerId)
    (h1 : ∀ m, (a₁, m) ∉ t) : TwoTrees none (enterPeerTree t a₀ a₁) ∧
    ∀ k ml inc, Listed (enterPeerTree t a₀ a₁) k ml inc → Listed t k ml inc := by
  obtain ⟨hrpc, hun⟩ := h.exempt a₀ n₀ rfl h0
  refine ⟨(h.unexempt_of_no_copy h0 hno).enter h0 hrpc ?_ hno h1, ?_⟩
  · intro c x hx _ hxr hxp
    exact hleast c x hx hxr hxp
  · intro k ml inc hl
    exact listed_enterPeerTree h0 hun h1 hl

theorem TwoTrees.exchange {b₁ : Nat} (hold : (aOld, old) ∈ t) (hb : (b₁, m) ∈ t)
    (hm : m.treeId = .peer) (hcopy : CopyOf m old) (hpeer : n₀.peerId = old.peerId) :
    TwoTrees none (enterPeerTree
      ((leavePeerTree t aOld b₁).write aOld fun n => { n with incoming := m.incoming }) a₀ b₁) ∧
    ∀ k ml inc, Listed (enterPeerTree
      ((leavePeerTree t aOld b₁).write aOld fun n => { n with incoming := m.incoming }) a₀ b₁)
      k ml inc → Listed t k ml inc := by
  obtain ⟨hrpc, hun⟩ := h.exempt a₀ n₀ rfl h0
  obtain ⟨hleave, hno⟩ := h.demote h0 hold hb hm hcopy hpeer
  have hne : a₀ ≠ aOld := (h.ne_exempt hold hcopy).symm
  have hb₁ : a₀ ≠ b₁ := ne_of_trees h0 hrpc hb hm
  -- the nodes of the tree before the RPC enters
  have hmem {b : Nat} {y : RpcStateCc}
      (hy : (b, y) ∈ (leavePeerTree t aOld b₁).write aOld fun n =>
        { n with incoming := m.incoming }) :
      b ≠ b₁ ∧ ∃ x, (b, x) ∈ t ∧ y.treeId = x.treeId ∧ y.peerId = x.peerId ∧ y.rank = x.rank := by
    obtain ⟨w, hw, rfl⟩ := mem_write.mp hy
    obtain ⟨hne, x, hx, rfl⟩ := mem_leavePeerTree.mp hw
    refine ⟨hne, x, hx, ?_⟩
    split_ifs <;> exact ⟨rfl, rfl, rfl⟩
  have h0' : (a₀, n₀) ∈ (leavePeerTree t aOld b₁).write aOld fun n =>
      { n with incoming := m.incoming } := by
    refine mem_write.mpr ⟨n₀, mem_leavePeerTree.mpr ⟨hb₁, n₀, h0, ?_⟩, ?_⟩
    · rw [if_neg hne]
    · rw [if_neg hne]
  have h1' : ∀ x, (b₁, x) ∉ (leavePeerTree t aOld b₁).write aOld fun n =>
      { n with incoming := m.incoming } := fun x hx => (hmem hx).1 rfl
  refine ⟨(hleave.grant aOld m.incoming).enter h0' hrpc ?_ ?_ h1', ?_⟩
  · intro c y hy _ hyr hyp
    obtain ⟨-, x, hx, htr, hp, hr⟩ := hmem hy
    rw [hr]
    exact hleast c x hx (htr.symm.trans hyr) (hp.symm.trans hyp)
  · intro b y hy hyp
    obtain ⟨w, hw, rfl⟩ := mem_write.mp hy
    rw [hpeer]
    split_ifs at hyp ⊢
    · exact hno b w hw hyp
    · exact hno b w hw hyp
  · intro k ml inc hl
    exact listed_leavePeerTree hold hb hm hcopy (listed_enterPeerTree h0' hun h1' hl)

end

theorem TwoTrees.copyOf_next {b₁ : Nat} (hold : (aOld, old) ∈ t) (hne : aOld ≠ a₀)
    (holdr : old.treeId = .rpc) (hpeer : old.peerId = n₀.peerId)
    (hnext : ∀ c x, (c, x) ∈ t → c ≠ a₀ → x.treeId = .rpc → x.peerId = n₀.peerId →
      old.rank ≤ x.rank)
    (hb : (b₁, m) ∈ t) (hm : m.treeId = .peer) (hmp : m.peerId = n₀.peerId) : CopyOf m old := by
  obtain ⟨c, x, hx, hcopy, hfirst⟩ := h.copies b₁ m hb hm
  have hxp : x.peerId = n₀.peerId := hcopy.peerId.trans hmp
  have hle := hfirst aOld old hold (fun he => hne (Option.some.inj he).symm) holdr
    (hpeer.trans hxp.symm)
  have hge := hnext c x hx (h.ne_exempt hx hcopy) hcopy.rpc hxp
  obtain rfl := h.ranked.eq_of_rank hx hold (le_antisymm hle hge)
  rwa [← eq_of_mem hx hold]

theorem TwoTrees.promote_next (h0 : (a₀, n₀) ∈ t)
    (hleast : ∀ c x, (c, x) ∈ t → x.treeId = .rpc → x.peerId = n₀.peerId → n₀.rank ≤ x.rank)
    (hold : (aOld, old) ∈ t) (hne : aOld ≠ a₀)
    (holdr : old.treeId = .rpc) (hpeer : old.peerId = n₀.peerId)
    (hnext : ∀ c x, (c, x) ∈ t → c ≠ a₀ → x.treeId = .rpc → x.peerId = n₀.peerId →
      old.rank ≤ x.rank)
    (ht' : t' =
      match (t.write aOld unmark).lowerBound srptLessPeer { old with treeId := .peer } with
      | none => t.write aOld unmark
      | some (b₁, m) =>
        if m.treeId = .peer ∧ m.peerId = old.peerId then
          enterPeerTree ((leavePeerTree t aOld b₁).write aOld fun n =>
            { n with incoming := m.incoming }) a₀ b₁
        else t.write aOld unmark) :
    TwoTrees none t' ∧ ∀ k ml inc, Listed t' k ml inc → Listed t k ml inc := by
  by_cases hex : ∃ b m, (b, m) ∈ t ∧ m.treeId = .peer ∧ m.peerId = n₀.peerId
  · -- the search in the peer tree finds the copy of the next RPC
    obtain ⟨b₁, m, hb, hm, hmp⟩ := hex
    have hcopy := h.copyOf_next hold hne holdr hpeer hnext hb hm hmp
    have hfound : (t.write aOld unmark).lowerBound srptLessPeer
        { old with treeId := .peer } = some (b₁, m) := by
      have hranked : (t.write aOld unmark).Ranked rank :=
        h.ranked.write aOld fun _ => rfl
      have hb₁ : b₁ ≠ aOld := (ne_of_trees hold holdr hb hm).symm
      have hrank : ({ old with treeId := .peer } : RpcStateCc).rank = m.rank := by
        rw [rank_peer rfl, rank_peer hm, ← hcopy.bytesRemaining, ← hcopy.peerId]
      refine (lowerBound_eq_some_iff hranked fun _ _ _ => srptLessPeer_iff rfl).mpr
        ⟨mem_write.mpr ⟨m, hb, (if_neg hb₁).symm⟩, hrank.le, ?_⟩
      intro c x _ hle
      exact hrank ▸ hle
    rw [hfound] at ht'
    simp only [hm, hmp, hpeer, and_self, if_true] at ht'
    rw [ht']
    exact h.exchange h0 hleast hold hb hm hcopy hpeer.symm
  · -- without a copy the next RPC is not marked either, and nothing is to be done
    have hno (b : Nat) (m : RpcStateCc) (hb : (b, m) ∈ t) (hm : m.treeId = .peer) :
        m.peerId ≠ n₀.peerId := fun hmp => hex ⟨b, m, hb, hm, hmp⟩
    have hun : old.inPeerTree = false := by
      by_contra hmark
      obtain ⟨b, m, hb, hm, hk⟩ := h.marked aOld old hold holdr (by simpa using hmark)
      refine hno b m hb hm ?_
      rw [h.peer b m hb, hk, ← h.peer aOld old hold, hpeer]
    have hself : t.write aOld unmark = t := by
      refine write_eq_self ?_
      intro x hx
      rw [eq_of_mem hx hold]
      exact unmark_of_not_inPeerTree hun
    rw [hself] at ht'
    have hsame : t' = t := by
      rw [ht']
      split
      · rfl
      · next b₁ m hfound =>
        have hb := mem_of_lowerBound hfound
        exact if_neg fun hc => hno b₁ m hb hc.1 (hc.2.trans hpeer)
    rw [hsame]
    exact ⟨h.unexempt_of_no_copy h0 hno, fun _ _ _ hl => hl⟩

theorem TwoTrees.promote (h0 : (a₀, n₀) ∈ t) (h1 : ∀ m, (a₁, m) ∉ t) :
    TwoTrees none (Homa.promote t a₀ n₀ a₁) ∧
    ∀ k ml inc, Listed (Homa.promote t a₀ n₀ a₁) k ml inc → Listed t k ml inc := by
  obtain ⟨hrpc, hun⟩ := h.exempt a₀ n₀ rfl h0
  obtain ⟨a, first, hlb, hfm, hfr, hfp, hleast⟩ := lowerBound_firstOfPeer h h0 hrpc
  rw [Homa.promote, hlb]
  simp only [hfr, hfp, ne_eq, not_true_eq_false, or_self, if_false]
  split_ifs with hkey
  · obtain rfl := h.keys a first a₀ n₀ hfm h0 hfr hrpc hkey
    obtain rfl := eq_of_mem hfm h0
    -- the RPCs of the peer behind the first one are not below the search key
    obtain ⟨hgt, hnext⟩ := rank_above hrpc (h.lowByte a first h0)
    have hbehind (c : Nat) (x : RpcStateCc) (hx : (c, x) ∈ t) (hc : c ≠ a) (hxr : x.treeId = .rpc)
        (hxp : x.peerId = first.peerId) :
        ({ first with hkey := first.hkey.above } : RpcStateCc).rank ≤ x.rank := by
      refine hnext x hxr (h.address c x a first hx h0 hxp)
        (lt_of_le_of_ne (hleast c x hx hxr hxp) ?_)
      intro heq
      exact hc (h.ranked.eq_of_rank hx h0 heq.symm)
    have hless (b : Nat) (m : RpcStateCc) (_ : (b, m) ∈ t) :
        srptLessRpc { first with hkey := first.hkey.above } m = true ↔
          ({ first with hkey := first.hkey.above } : RpcStateCc).rank ≤ m.rank :=
      srptLessRpc_iff hrpc
    cases hfound : t.lowerBound srptLessRpc { first with hkey := first.hkey.above } with
    | none =>
      have hno (b : Nat) (m : RpcStateCc) (hb : (b, m) ∈ t) (hm : m.treeId = .peer) :
          m.peerId ≠ first.peerId := by
        intro hmp
        obtain ⟨c, x, hx, hcopy, -⟩ := h.copies b m hb hm
        have hnot := lowerBound_eq_none_iff.mp hfound c x hx
        rw [(hless c x hx).mpr (hbehind c x hx (h.ne_exempt hx hcopy) hcopy.rpc
          (hcopy.peerId.trans hmp))] at hnot
        cases hnot
      simp only [RpcKey.above] at hfound
      rw [hfound]
      exact h.enter_exempt h0 hleast hno h1
    | some y =>
      obtain ⟨aOld, old⟩ := y
      obtain ⟨hold, hge, hnextOld⟩ := (lowerBound_eq_some_iff h.ranked hless).mp hfound
      simp only [RpcKey.above] at hfound
      rw [hfound]
      simp only
      split_ifs with hsame
      · have hne : aOld ≠ a := by
          rintro rfl
          rw [eq_of_mem hold h0] at hge
          omega
        have hnextPeer (c : Nat) (x : RpcStateCc) (hx : (c, x) ∈ t) (hc : c ≠ a)
            (hxr : x.treeId = .rpc) (hxp : x.peerId = first.peerId) : old.rank ≤ x.rank :=
          hnextOld c x hx (hbehind c x hx hc hxr hxp)
        exact h.promote_next h0 hleast hold hne hsame.1 hsame.2 hnextPeer rfl
      · -- the next RPC is not of this peer
        refine h.enter_exempt h0 hleast ?_ h1
        intro b m hb hm hmp
        obtain ⟨c, x, hx, hcopy, -⟩ := h.copies b m hb hm
        have hxp := hcopy.peerId.trans hmp
        have hle := hnextOld c x hx (hbehind c x hx (h.ne_exempt hx hcopy) hcopy.rpc hxp)
        have hlow := (rank_firstOfPeer_le hrpc).trans (hgt.le.trans hge)
        exact hsame (peer_of_rank_le hcopy.rpc hxp hlow hle)
  · -- another RPC comes first, so the one in the peer tree comes before the node as well
    refine ⟨h.unexempt h0 ?_, fun _ _ _ hl => hl⟩
    intro b m c x hb hm hx hcopy hfirst hp
    have hne : a ≠ a₀ := by
      rintro rfl
      exact hkey (congrArg RpcStateCc.hkey (eq_of_mem hfm h0))
    refine (hfirst a first hfm (fun he => hne (Option.some.inj he).symm) hfr ?_).trans
      (hleast a₀ n₀ h0 hrpc rfl)
    rw [hfp, hp]

end

end

end MtpXdp.Homa

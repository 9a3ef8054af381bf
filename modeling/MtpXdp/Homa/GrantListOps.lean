import MtpXdp.Homa.GrantRound
import MtpXdp.Homa.TwoTrees

/-!
# Operations on the Grant List

Each operation of the receive path and of the grant programs keeps the two trees in order. The
second half of each lemma says which RPCs are listed afterwards and with how many bytes granted:
only a grant changes that, and only for its own RPC.
-/

namespace MtpXdp.Homa

open Ebpf (U16 U32)
open MtpXdp.Core RbTree

namespace TwoTrees

variable {ex : Option Nat} {t : RbTree RpcStateCc} {a b : Nat} {n m : RpcStateCc}

/-! ## Grants -/

section

variable (h : TwoTrees none t) (hn : (a, n) ∈ t)
include h hn

theorem authoritative_unique (hna : n.Authoritative)
    (hm : (b, m) ∈ t) (hma : m.Authoritative) (hk : n.hkey = m.hkey) : a = b := by
  have hpeer : n.peerId = m.peerId := by rw [h.peer a n hn, h.peer b m hm, hk]
  -- an unmarked node has no copy
  have hmixed {a b : Nat} {n m : RpcStateCc} (hn : (a, n) ∈ t) (hp : n.treeId = .peer)
      (hm : (b, m) ∈ t) (hr : m.treeId = .rpc) (hun : m.inPeerTree = false)
      (hk : n.hkey = m.hkey) : False := by
    obtain ⟨c, x, hx, hcopy, -⟩ := h.copies a n hn hp
    obtain rfl := h.keys c x b m hx hm hcopy.rpc hr (hcopy.hkey.trans hk)
    exact hcopy.false_of_unmarked hx hm hun
  cases hnt : n.treeId with
  | peer =>
    cases hmt : m.treeId with
    | peer => exact h.copy_unique hn hnt hm hmt hpeer
    | rpc =>
      have hun : m.inPeerTree = false := hma.resolve_left (by rw [hmt]; decide)
      exact (hmixed hn hnt hm hmt hun hk).elim
  | rpc =>
    have hun : n.inPeerTree = false := hna.resolve_left (by rw [hnt]; decide)
    cases hmt : m.treeId with
    | peer => exact (hmixed hm hmt hn hnt hun hk.symm).elim
    | rpc => exact h.keys a n b m hn hm hnt hmt hk

theorem listed_grant (hna : n.Authoritative) {x : U32} {k : RpcKey} {ml inc : U32}
    (hl : Listed (t.write a fun n => { n with incoming := x }) k ml inc) :
    (k = n.hkey ∧ ml = n.messageLength ∧ inc = x) ∨ (k ≠ n.hkey ∧ Listed t k ml inc) := by
  obtain ⟨b, y, hy, hauth, hk, hml, hinc⟩ := hl
  obtain ⟨m, hm, rfl⟩ := mem_write.mp hy
  by_cases hb : b = a
  · subst hb
    obtain rfl := eq_of_mem hm hn
    rw [if_pos rfl] at hk hml hinc
    exact .inl ⟨hk.symm, hml.symm, hinc.symm⟩
  · rw [if_neg hb] at hauth hk hml hinc
    refine .inr ⟨?_, b, m, hm, hauth, hk, hml, hinc⟩
    rintro rfl
    exact hb (h.authoritative_unique hm hauth hn hna hk)

theorem removeUnmarked (hr : n.treeId = .rpc)
    (hun : n.inPeerTree = false) : TwoTrees none (t.remove a) := by
  refine { h.toNamed.of_names ?_ ?_ with
    ranked := h.ranked.remove a, copies := ?_, marked := ?_, exempt := fun _ _ he => nomatch he }
  · intro b m hm
    exact ⟨b, m, (mem_remove.mp hm).2, rfl, rfl⟩
  · intro b m hm hmr
    exact ⟨m, (mem_remove.mp hm).2, hmr, rfl⟩
  · intro b m hm hmp
    obtain ⟨c, x, hx, hcopy, hfirst⟩ := h.copies b m (mem_remove.mp hm).2 hmp
    have hc : c ≠ a := by
      rintro rfl
      exact hcopy.false_of_unmarked hx hn hun
    refine ⟨c, x, mem_remove.mpr ⟨hc, hx⟩, hcopy, ?_⟩
    exact fun d y hy => hfirst d y (mem_remove.mp hy).2
  · intro b m hm hmr hmark
    obtain ⟨c, x, hx, hp, hk⟩ := h.marked b m (mem_remove.mp hm).2 hmr hmark
    exact ⟨c, x, mem_remove.mpr ⟨(ne_of_trees hn hr hx hp).symm, hx⟩, hp, hk⟩

theorem removeGranted (hp : n.treeId = .peer) :
    TwoTrees none (Homa.removeGranted t a n) ∧
    ∀ k ml inc, Listed (Homa.removeGranted t a n) k ml inc → k ≠ n.hkey ∧ Listed t k ml inc := by
  obtain ⟨b, x, hx, hcopy, hfirst⟩ := h.copies a n hn hp
  have hab : b ≠ a := ne_of_trees hx hcopy.rpc hn hp
  -- the search for the copy's contents finds the RPC itself
  have hfound : (t.remove a).lowerBound srptLessRpc { n with treeId := .rpc } = some (b, x) := by
    have hrank : ({ n with treeId := .rpc } : RpcStateCc).rank = x.rank := by
      rw [rank_rpc rfl, rank_rpc hcopy.rpc, hcopy.peerId, hcopy.bytesRemaining, hcopy.hkey]
    refine (lowerBound_eq_some_iff (h.ranked.remove a) fun _ _ _ =>
      srptLessRpc_iff rfl).mpr ⟨mem_remove.mpr ⟨hab, hx⟩, hrank.le, ?_⟩
    intro c y _ hle
    exact hrank ▸ hle
  have hmem {c : Nat} {y : RpcStateCc} :
      (c, y) ∈ Homa.removeGranted t a n ↔ c ≠ b ∧ c ≠ a ∧ (c, y) ∈ t := by
    simp only [Homa.removeGranted, hfound]
    rw [mem_remove, mem_remove]
  have hranked : (Homa.removeGranted t a n).Ranked RpcStateCc.rank := by
    simp only [Homa.removeGranted, hfound]
    exact (h.ranked.remove a).remove b
  refine ⟨?_, ?_⟩
  · refine { h.toNamed.of_names ?_ ?_ with
      ranked := hranked, copies := ?_, marked := ?_, exempt := fun _ _ he => nomatch he }
    · intro c y hy
      exact ⟨c, y, (hmem.mp hy).2.2, rfl, rfl⟩
    · intro c y hy hyr
      exact ⟨y, (hmem.mp hy).2.2, hyr, rfl⟩
    · intro c y hy hyp
      obtain ⟨-, hca, hyt⟩ := hmem.mp hy
      obtain ⟨d, z, hz, hcz, hz1⟩ := h.copies c y hyt hyp
      have hda : d ≠ a := ne_of_trees hz hcz.rpc hn hp
      refine ⟨d, z, hmem.mpr ⟨?_, hda, hz⟩, hcz, fun e w hw => hz1 e w (hmem.mp hw).2.2⟩
      -- another RPC of the peer has no copy
      rintro rfl
      obtain rfl := eq_of_mem hz hx
      exact hca (h.copy_unique hyt hyp hn hp (hcz.peerId.symm.trans hcopy.peerId))
    · intro c y hy hyr hmark
      obtain ⟨hcb, -, hyt⟩ := hmem.mp hy
      obtain ⟨d, z, hz, hzp, hk⟩ := h.marked c y hyt hyr hmark
      have hdb : d ≠ b := (ne_of_trees hx hcopy.rpc hz hzp).symm
      refine ⟨d, z, hmem.mpr ⟨hdb, ?_, hz⟩, hzp, hk⟩
      rintro rfl
      rw [eq_of_mem hz hn, ← hcopy.hkey] at hk
      exact hcb (h.keys c y b x hyt hx hyr hcopy.rpc hk.symm)
  · rintro k ml inc ⟨c, y, hy, hauth, hk, hml, hinc⟩
    obtain ⟨hcb, hca, hyt⟩ := hmem.mp hy
    refine ⟨?_, c, y, hyt, hauth, hk, hml, hinc⟩
    rintro rfl
    exact hca (h.authoritative_unique hyt hauth hn (.inl hp) hk)

theorem listed_removeUnmarked
    (hun : n.inPeerTree = false) {k : RpcKey} {ml inc : U32} (hl : Listed (t.remove a) k ml inc) :
    k ≠ n.hkey ∧ Listed t k ml inc := by
  obtain ⟨c, y, hy, hauth, hk, hml, hinc⟩ := hl
  obtain ⟨hca, hyt⟩ := mem_remove.mp hy
  refine ⟨?_, c, y, hyt, hauth, hk, hml, hinc⟩
  rintro rfl
  exact hca (h.authoritative_unique hyt hauth hn (.inr hun) hk)

end

/-! ## The next RPC of a peer -/

theorem completeGrant (h : TwoTrees none t) {p : U16}
    (hfound : t.lowerBound srptLessRpc (firstOfPeer p) = some (a, n)) (hr : n.treeId = .rpc)
    (hp : n.peerId = p) (hun : n.inPeerTree = false) : TwoTrees none (enterPeerTree t a t.fresh) ∧
    ∀ k ml inc, Listed (enterPeerTree t a t.fresh) k ml inc → Listed t k ml inc := by
  obtain ⟨hn, -, hleast⟩ := (lowerBound_eq_some_iff h.ranked fun _ _ _ =>
    srptLessRpc_iff rfl).mp hfound
  have hfirst (c : Nat) (x : RpcStateCc) (hx : (c, x) ∈ t) (hxr : x.treeId = .rpc)
      (hxp : x.peerId = n.peerId) : n.rank ≤ x.rank := by
    refine hleast c x hx ?_
    rw [← hp, ← hxp]
    exact rank_firstOfPeer_le hxr
  have hfresh : ∀ m, (t.fresh, m) ∉ t := fun m hm => (lt_fresh hm).false
  have hno (b : Nat) (m : RpcStateCc) (hb : (b, m) ∈ t) (hm : m.treeId = .peer) :
      m.peerId ≠ n.peerId := by
    intro hmp
    obtain ⟨c, x, hx, hcopy, hx1⟩ := h.copies b m hb hm
    have hxp := hcopy.peerId.trans hmp
    have hle := hx1 a n hn (fun he => nomatch he) hr hxp.symm
    obtain rfl := h.ranked.eq_of_rank hx hn (le_antisymm hle (hfirst c x hx hcopy.rpc hxp))
    exact hcopy.false_of_unmarked hx hn hun
  refine ⟨h.enter hn hr (fun c x hx _ hxr hxp => hfirst c x hx hxr hxp) hno hfresh, ?_⟩
  intro k ml inc hl
  exact listed_enterPeerTree hn hun hfresh hl

/-! ## Places in the tree of RPCs -/

theorem named_add (h : Named t) (hpeer : n.peerId = getPeerid n.hkey.remoteIp)
    (hlow : n.hkey.remoteIp.toNat % 256 ≠ 255)
    (haddr : ∀ b m, (b, m) ∈ t → m.peerId = n.peerId → m.hkey.remoteIp = n.hkey.remoteIp)
    (hkey : ∀ b m, (b, m) ∈ t → m.treeId = .rpc → m.hkey ≠ n.hkey)
    (hmem : ∀ b y, (b, y) ∈ t.add srptLessRpc a n → (b = a ∧ y = n) ∨ (b, y) ∈ t) :
    Named (t.add srptLessRpc a n) where
  peer b y hy := by
    rcases hmem b y hy with ⟨-, rfl⟩ | hy
    · exact hpeer
    · exact h.peer b y hy
  lowByte b y hy := by
    rcases hmem b y hy with ⟨-, rfl⟩ | hy
    · exact hlow
    · exact h.lowByte b y hy
  address b y c z hy hz hp := by
    rcases hmem b y hy with ⟨-, rfl⟩ | hy' <;> rcases hmem c z hz with ⟨-, rfl⟩ | hz'
    · rfl
    · exact (haddr c z hz' hp.symm).symm
    · exact haddr b y hy' hp
    · exact h.address b y c z hy' hz' hp
  keys b y c z hy hz hyr hzr hk := by
    rcases hmem b y hy with ⟨rfl, rfl⟩ | hy' <;> rcases hmem c z hz with ⟨rfl, rfl⟩ | hz'
    · rfl
    · exact absurd hk.symm (hkey c z hz' hzr)
    · exact absurd hk (hkey b y hy' hyr)
    · exact h.keys b y c z hy' hz' hyr hzr hk

theorem add (h : TwoTrees none t) (hr : n.treeId = .rpc) (hun : n.inPeerTree = false)
    (hpeer : n.peerId = getPeerid n.hkey.remoteIp) (hlow : n.hkey.remoteIp.toNat % 256 ≠ 255)
    (haddr : ∀ b m, (b, m) ∈ t → m.peerId = n.peerId → m.hkey.remoteIp = n.hkey.remoteIp)
    (hkey : ∀ b m, (b, m) ∈ t → m.treeId = .rpc → m.hkey ≠ n.hkey) (ha : ∀ m, (a, m) ∉ t) :
    TwoTrees (some a) (t.add srptLessRpc a n) := by
  have hmem {b : Nat} {y : RpcStateCc} :
      (b, y) ∈ t.add srptLessRpc a n ↔ (b = a ∧ y = n) ∨ (b, y) ∈ t := by
    rw [mem_add ha, Prod.mk.injEq]
  have hsub {b : Nat} {y : RpcStateCc} (hy : (b, y) ∈ t) : (b, y) ∈ t.add srptLessRpc a n :=
    hmem.mpr (.inr hy)
  constructor
  case toNamed => exact named_add h.toNamed hpeer hlow haddr hkey fun _ _ => hmem.mp
  case ranked =>
    refine h.ranked.add (fun _ _ _ => srptLessRpc_iff hr) ?_
    intro b m hm heq
    cases htree : m.treeId with
    | rpc => exact hkey b m hm htree (hkey_eq_of_rank_eq htree hr heq)
    | peer =>
      have hlt := rank_rpc_lt hr
      rw [← heq, rank_peer htree] at hlt
      omega
  case copies =>
    intro b m hm hmp
    rcases hmem.mp hm with ⟨-, rfl⟩ | hm
    · rw [hr] at hmp
      cases hmp
    · obtain ⟨c, x, hx, hcopy, hfirst⟩ := h.copies b m hm hmp
      refine ⟨c, x, hsub hx, hcopy, ?_⟩
      intro d y hy hd hyr hyp
      rcases hmem.mp hy with ⟨rfl, rfl⟩ | hy
      · exact absurd rfl hd
      · exact hfirst d y hy (fun he => nomatch he) hyr hyp
  case marked =>
    intro b m hm hmr hmark
    rcases hmem.mp hm with ⟨-, rfl⟩ | hm
    · rw [hun] at hmark
      cases hmark
    · obtain ⟨c, x, hx, hp, hk⟩ := h.marked b m hm hmr hmark
      exact ⟨c, x, hsub hx, hp, hk⟩
  case exempt =>
    intro b m hb hm
    obtain rfl := Option.some.inj hb
    rcases hmem.mp hm with ⟨-, rfl⟩ | hm
    · exact ⟨hr, hun⟩
    · exact absurd hm (ha m)

theorem listed_add {k : RpcKey} {ml inc : U32} (ha : ∀ m, (a, m) ∉ t)
    (hl : Listed (t.add srptLessRpc a n) k ml inc) :
    (k = n.hkey ∧ ml = n.messageLength ∧ inc = n.incoming) ∨ Listed t k ml inc := by
  obtain ⟨b, y, hy, hauth, hk, hml, hinc⟩ := hl
  rcases (mem_add ha).mp hy with hy | hy
  · cases hy
    exact .inl ⟨hk.symm, hml.symm, hinc.symm⟩
  · exact .inr ⟨b, y, hy, hauth, hk, hml, hinc⟩

theorem insert (h : TwoTrees none t) (hr : n.treeId = .rpc) (hun : n.inPeerTree = false)
    (hpeer : n.peerId = getPeerid n.hkey.remoteIp) (hlow : n.hkey.remoteIp.toNat % 256 ≠ 255)
    (haddr : ∀ b m, (b, m) ∈ t → m.peerId = n.peerId → m.hkey.remoteIp = n.hkey.remoteIp)
    (hkey : ∀ b m, (b, m) ∈ t → m.treeId = .rpc → m.hkey ≠ n.hkey) (ha : ∀ m, (a, m) ∉ t) :
    TwoTrees none (Homa.promote (t.add srptLessRpc a n) a n (t.add srptLessRpc a n).fresh) ∧
    ∀ k ml inc,
      Listed (Homa.promote (t.add srptLessRpc a n) a n (t.add srptLessRpc a n).fresh) k ml inc →
      (k = n.hkey ∧ ml = n.messageLength ∧ inc = n.incoming) ∨ Listed t k ml inc := by
  have hadd := h.add hr hun hpeer hlow haddr hkey ha
  have hfresh : ∀ m, ((t.add srptLessRpc a n).fresh, m) ∉ t.add srptLessRpc a n :=
    fun m hm => (lt_fresh hm).false
  obtain ⟨htwo, hlisted⟩ := hadd.promote ((mem_add ha).mpr (.inl rfl)) hfresh
  refine ⟨htwo, ?_⟩
  intro k ml inc hl
  exact listed_add ha (hlisted k ml inc hl)

/-! ## Remaining bytes -/

theorem updateUnmarked (h : TwoTrees none t) (hn : (a, n) ∈ t) (hr : n.treeId = .rpc)
    (hun : n.inPeerTree = false) (br : U32) {t₁ : RbTree RpcStateCc}
    (ht₁ : t₁ = (t.remove a).add srptLessRpc a { n with bytesRemaining := br }) :
    TwoTrees none (Homa.promote t₁ a { n with bytesRemaining := br } t₁.fresh) ∧
    ∀ k ml inc, Listed (Homa.promote t₁ a { n with bytesRemaining := br } t₁.fresh) k ml inc →
      Listed t k ml inc := by
  have ha : ∀ m, (a, m) ∉ t.remove a := fun m hm => (mem_remove.mp hm).1 rfl
  have haddr (b : Nat) (m : RpcStateCc) (hm : (b, m) ∈ t.remove a) (hp : m.peerId = n.peerId) :
      m.hkey.remoteIp = n.hkey.remoteIp :=
    h.address b m a n (mem_remove.mp hm).2 hn hp
  have hkey (b : Nat) (m : RpcStateCc) (hm : (b, m) ∈ t.remove a) (hmr : m.treeId = .rpc) :
      m.hkey ≠ n.hkey := by
    intro hk
    obtain ⟨hne, hm⟩ := mem_remove.mp hm
    exact hne (h.keys b m a n hm hn hmr hr hk)
  subst ht₁
  obtain ⟨htwo, hlisted⟩ := (h.removeUnmarked hn hr hun).insert
    (n := { n with bytesRemaining := br }) hr hun (h.peer a n hn) (h.lowByte a n hn) haddr hkey ha
  refine ⟨htwo, ?_⟩
  intro k ml inc hl
  rcases hlisted k ml inc hl with ⟨rfl, rfl, rfl⟩ | hl
  · exact ⟨a, n, hn, .inr hun, rfl, rfl, rfl⟩
  · exact (h.listed_removeUnmarked hn hun hl).2

theorem rank_ne {x y : RpcStateCc} (hx : x.treeId = .rpc) (hy : y.treeId = .peer) :
    x.rank ≠ y.rank := by
  have hlt := rank_rpc_lt hx
  rw [rank_peer hy]
  omega

section

variable (h : TwoTrees none t) (hn : (a, n) ∈ t)
include h hn

theorem ranked_move (hr : n.treeId = .rpc)
    {n' : RpcStateCc} (hn' : n'.treeId = .rpc) (hkey : n'.hkey = n.hkey) :
    ((t.remove a).add srptLessRpc a n').Ranked RpcStateCc.rank := by
  refine (h.ranked.remove a).add (fun _ _ _ => srptLessRpc_iff hn') ?_
  intro c y hy heq
  obtain ⟨hca, hy⟩ := mem_remove.mp hy
  cases htree : y.treeId with
  | rpc =>
    have hk := (hkey_eq_of_rank_eq htree hn' heq).trans hkey
    exact hca (h.keys c y a n hy hn htree hr hk)
  | peer => exact rank_ne hn' htree heq.symm

theorem lowerBound_copy (hr : n.treeId = .rpc)
    (hmark : n.inPeerTree = true) (n' key : RpcStateCc) (hn' : n'.treeId = .rpc)
    (hkey : n'.hkey = n.hkey) (hkt : key.treeId = .peer)
    (hkb : key.bytesRemaining = n.bytesRemaining) (hkp : key.peerId = n.peerId) :
    ∃ b m, (b, m) ∈ t ∧ m.treeId = .peer ∧ CopyOf m n ∧
      ((t.remove a).add srptLessRpc a n').lowerBound srptLessPeer key = some (b, m) := by
  obtain ⟨b, m, hm, hp, hmk⟩ := h.marked a n hn hr hmark
  obtain ⟨c, x, hx, hcopy, -⟩ := h.copies b m hm hp
  obtain rfl := h.keys c x a n hx hn hcopy.rpc hr (hcopy.hkey.trans hmk)
  obtain rfl := eq_of_mem hx hn
  refine ⟨b, m, hm, hp, hcopy, ?_⟩
  have hbc : b ≠ c := (ne_of_trees hn hr hm hp).symm
  have hrank : key.rank = m.rank := by
    rw [rank_peer hkt, rank_peer hp, hkb, hkp, hcopy.bytesRemaining, hcopy.peerId]
  refine (lowerBound_eq_some_iff (h.ranked_move hn hr hn' hkey)
    fun _ _ _ => srptLessPeer_iff hkt).mpr
    ⟨mem_remove_add.mpr (.inr ⟨hbc, hm⟩), hrank.le, ?_⟩
  intro d y _ hle
  exact hrank ▸ hle

theorem ranked_update (hm : (b, m) ∈ t)
    (hp : m.treeId = .peer) (hcopy : CopyOf m n) {n' m' : RpcStateCc} (hn' : n'.treeId = .rpc)
    (hkey : n'.hkey = n.hkey) (hm' : m'.treeId = .peer) (hpeer : m'.peerId = m.peerId) :
    ((((t.remove a).add srptLessRpc a n').remove b).add srptLessPeer b m').Ranked
      RpcStateCc.rank := by
  refine ((h.ranked_move hn hcopy.rpc hn' hkey).remove b).add
    (fun _ _ _ => srptLessPeer_iff hm') ?_
  intro c y hy heq
  obtain ⟨hcb, hy⟩ := mem_remove.mp hy
  rcases mem_remove_add.mp hy with ⟨-, rfl⟩ | ⟨-, hyt⟩
  · exact rank_ne hn' hm' heq
  · cases htree : y.treeId with
    | rpc => exact rank_ne htree hm' heq
    | peer =>
      rw [rank_peer htree, rank_peer hm'] at heq
      have hsame := (digits_inj y.peerId.isLt m'.peerId.isLt (Nat.add_left_cancel heq)).2
      exact hcb (h.copy_unique hyt htree hm hp ((BitVec.eq_of_toNat_eq hsame).trans hpeer))

theorem updateMarked (hm : (b, m) ∈ t)
    (hp : m.treeId = .peer) (hcopy : CopyOf m n) {br : U32}
    (hbr : br.toNat ≤ n.bytesRemaining.toNat) {n' m' : RpcStateCc}
    (hn' : n' = { n with bytesRemaining := br }) (hm' : m' = { m with bytesRemaining := br })
    {t₁ : RbTree RpcStateCc}
    (ht₁ : t₁ = (((t.remove a).add srptLessRpc a n').remove b).add srptLessPeer b m') :
    TwoTrees none t₁ ∧ ∀ k ml inc, Listed t₁ k ml inc → Listed t k ml inc := by
  have hab : a ≠ b := ne_of_trees hn hcopy.rpc hm hp
  have hrpc' : n'.treeId = .rpc := by rw [hn', ← hcopy.rpc]
  have hpeer' : m'.treeId = .peer := by rw [hm', ← hp]
  have hcopy' : CopyOf m' n' := by
    rw [hn', hm']
    exact { hcopy with bytesRemaining := rfl }
  have hpid : n'.peerId = n.peerId := by rw [hn']
  have hrank : n'.rank ≤ n.rank := by
    rw [rank_rpc hrpc', rank_rpc hcopy.rpc, hn']
    simp only
    omega
  have hmem {c : Nat} {y : RpcStateCc} : (c, y) ∈ t₁ ↔
      (c = b ∧ y = m') ∨ (c = a ∧ y = n') ∨ (c ≠ a ∧ c ≠ b ∧ (c, y) ∈ t) := by
    rw [ht₁, mem_remove_add, mem_remove_add]
    constructor
    · rintro (hnew | ⟨hcb, hnew | ⟨hca, hy⟩⟩)
      · exact .inl hnew
      · exact .inr (.inl hnew)
      · exact .inr (.inr ⟨hca, hcb, hy⟩)
    · rintro (hnew | ⟨rfl, rfl⟩ | ⟨hca, hcb, hy⟩)
      · exact .inl hnew
      · exact .inr ⟨hab, .inl ⟨rfl, rfl⟩⟩
      · exact .inr ⟨hcb, .inr ⟨hca, hy⟩⟩
  -- a node of the tree of RPCs that has not moved
  have hkept (c : Nat) (y : RpcStateCc) (hy : (c, y) ∈ t₁) (hyr : y.treeId = .rpc) :
      (c = a ∧ y = n') ∨ (c ≠ a ∧ (c, y) ∈ t) := by
    rcases hmem.mp hy with ⟨-, rfl⟩ | hnew | ⟨hca, -, hy⟩
    · exact absurd (hpeer'.symm.trans hyr) (by decide)
    · exact .inl hnew
    · exact .inr ⟨hca, hy⟩
  refine ⟨{ h.toNamed.of_names ?_ ?_ with
    ranked := ?_, copies := ?_, marked := ?_, exempt := fun _ _ he => nomatch he }, ?_⟩
  · intro c y hy
    rcases hmem.mp hy with ⟨-, rfl⟩ | ⟨-, rfl⟩ | ⟨-, -, hy⟩
    · exact ⟨b, m, hm, by rw [hm'], by rw [hm']⟩
    · exact ⟨a, n, hn, by rw [hn'], by rw [hn']⟩
    · exact ⟨c, y, hy, rfl, rfl⟩
  · intro c y hy hyr
    rcases hkept c y hy hyr with ⟨rfl, rfl⟩ | ⟨-, hy⟩
    · exact ⟨n, hn, hcopy.rpc, by rw [hn']⟩
    · exact ⟨y, hy, hyr, rfl⟩
  · rw [ht₁]
    exact h.ranked_update hn hm hp hcopy hrpc' (by rw [hn']) hpeer' (by rw [hm'])
  · intro c y hy hyp
    rcases hmem.mp hy with ⟨-, rfl⟩ | ⟨-, rfl⟩ | ⟨hca, hcb, hy⟩
    · obtain ⟨d, x, hx, hcx, hfirst⟩ := h.copies b m hm hp
      obtain rfl := h.keys d x a n hx hn hcx.rpc hcopy.rpc (hcx.hkey.trans hcopy.hkey.symm)
      obtain rfl := eq_of_mem hx hn
      refine ⟨d, n', hmem.mpr (.inr (.inl ⟨rfl, rfl⟩)), hcopy', ?_⟩
      intro e z hz he hzr hzp
      rcases hkept e z hz hzr with ⟨-, rfl⟩ | ⟨-, hz⟩
      · exact le_rfl
      · exact hrank.trans (hfirst e z hz he hzr (hzp.trans hpid))
    · exact absurd (hrpc'.symm.trans hyp) (by decide)
    · -- the RPC of another peer has stayed where it was
      obtain ⟨d, x, hx, hcx, hfirst⟩ := h.copies c y hy hyp
      have hxp : x.peerId ≠ n.peerId := by
        intro heq
        exact hcb (h.copy_unique hy hyp hm hp
          (hcx.peerId.symm.trans (heq.trans hcopy.peerId)))
      have hda : d ≠ a := by
        rintro rfl
        exact hxp (by rw [eq_of_mem hx hn])
      have hdb : d ≠ b := ne_of_trees hx hcx.rpc hm hp
      refine ⟨d, x, hmem.mpr (.inr (.inr ⟨hda, hdb, hx⟩)), hcx, ?_⟩
      intro e z hz he hzr hzp
      rcases hkept e z hz hzr with ⟨-, rfl⟩ | ⟨-, hz⟩
      · exact absurd (hzp.symm.trans hpid) hxp
      · exact hfirst e z hz he hzr hzp
  · intro c y hy hyr hmark
    rcases hkept c y hy hyr with ⟨-, rfl⟩ | ⟨hca, hy⟩
    · exact ⟨b, m', hmem.mpr (.inl ⟨rfl, rfl⟩), hpeer', hcopy'.hkey.symm⟩
    · obtain ⟨d, z, hz, hzp, hk⟩ := h.marked c y hy hyr hmark
      have hda : d ≠ a := (ne_of_trees hn hcopy.rpc hz hzp).symm
      refine ⟨d, z, hmem.mpr (.inr (.inr ⟨hda, ?_, hz⟩)), hzp, hk⟩
      rintro rfl
      rw [eq_of_mem hz hm, ← hcopy.hkey] at hk
      exact hca (h.keys c y a n hy hn hyr hcopy.rpc hk.symm)
  · rintro k ml inc ⟨c, y, hy, hauth, hk, hml, hinc⟩
    rcases hmem.mp hy with ⟨-, rfl⟩ | ⟨-, rfl⟩ | ⟨-, -, hy⟩
    · rw [hm'] at hk hml hinc
      exact ⟨b, m, hm, .inl hp, hk, hml, hinc⟩
    · rcases hauth with htree | hun
      · exact absurd (hrpc'.symm.trans htree) (by decide)
      · exact absurd (hcopy'.marked.symm.trans hun) (by decide)
    · exact ⟨c, y, hy, hauth, hk, hml, hinc⟩

end

end TwoTrees

end MtpXdp.Homa

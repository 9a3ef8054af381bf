import MtpXdp.Homa.GrantList

/-!
# The Order of the Grant List

Both comparisons agree with one order of the nodes, `RpcStateCc.rank`: first the tree of RPCs, then
the peer tree. The search for the RPC behind the first one of a peer adds one to the address in the
key. Addresses are compared by their bytes, the lowest first, so that is a larger key only if that
byte is not 255, and below the next RPC of the peer only if its RPCs have one address.
-/

namespace MtpXdp.Homa

open BitVec Nat

variable {n m : RpcStateCc}

/-! ## Keys in memory -/

theorem memOrder_lt (n x : Nat) : memOrder n x < 256 ^ n := by
  induction n generalizing x with
  | zero => simp [memOrder]
  | succ n ih =>
    have hbyte : x % 256 < 256 := mod_lt _ (by decide)
    calc memOrder (n + 1) x = x % 256 * 256 ^ n + memOrder n (x / 256) := rfl
      _ < x % 256 * 256 ^ n + 256 ^ n := Nat.add_lt_add_left (ih _) _
      _ = (x % 256 + 1) * 256 ^ n := (succ_mul _ _).symm
      _ ≤ 256 * 256 ^ n := mul_le_mul_right _ hbyte
      _ = 256 ^ (n + 1) := (Nat.pow_succ').symm

theorem digits_inj {a a' b b' c : Nat} (hb : b < c) (hb' : b' < c)
    (h : a * c + b = a' * c + b') : a = a' ∧ b = b' := by
  have hc : 0 < c := zero_lt_of_lt hb
  have hdiv : a = a' := by
    have h' := congrArg (· / c) h
    simpa [mul_comm _ c, mul_add_div hc, div_eq_of_lt hb, div_eq_of_lt hb']
      using h'
  subst hdiv
  exact ⟨rfl, add_left_cancel h⟩

theorem memOrder_inj {n x y : Nat} (hx : x < 256 ^ n) (hy : y < 256 ^ n)
    (h : memOrder n x = memOrder n y) : x = y := by
  induction n generalizing x y with
  | zero =>
    simp only [Nat.pow_zero, Nat.lt_one_iff] at hx hy
    rw [hx, hy]
  | succ n ih =>
    obtain ⟨hlow, hhigh⟩ := digits_inj (memOrder_lt n _) (memOrder_lt n _) h
    rw [Nat.pow_succ'] at hx hy
    have hrest := ih (Nat.div_lt_of_lt_mul hx) (Nat.div_lt_of_lt_mul hy) hhigh
    rw [← Nat.div_add_mod x 256, ← Nat.div_add_mod y 256, hlow, hrest]

namespace RpcKey

def hostOrder (k : RpcKey) : Nat :=
  (Homa.memOrder 8 k.rpcid.toNat * 256 ^ 2 + Homa.memOrder 2 k.localPort.toNat) * 256 ^ 2 +
    Homa.memOrder 2 k.remotePort.toNat

theorem memOrder_eq (k : RpcKey) :
    k.memOrder = k.hostOrder * 256 ^ 4 + Homa.memOrder 4 k.remoteIp.toNat := rfl

theorem hostOrder_lt (k : RpcKey) : k.hostOrder < 256 ^ 12 := by
  have h1 := memOrder_lt 8 k.rpcid.toNat
  have h2 := memOrder_lt 2 k.localPort.toNat
  have h3 := memOrder_lt 2 k.remotePort.toNat
  simp only [hostOrder]
  omega

theorem memOrder_lt (k : RpcKey) : k.memOrder < 2 ^ 128 := by
  have h1 := k.hostOrder_lt
  have h2 := Homa.memOrder_lt 4 k.remoteIp.toNat
  rw [memOrder_eq]
  omega

theorem memOrder_injective : Function.Injective memOrder := by
  intro k k' h
  obtain ⟨h, hip⟩ := digits_inj (Homa.memOrder_lt 4 _) (Homa.memOrder_lt 4 _) h
  obtain ⟨h, hrp⟩ := digits_inj (Homa.memOrder_lt 2 _) (Homa.memOrder_lt 2 _) h
  obtain ⟨hid, hlp⟩ := digits_inj (Homa.memOrder_lt 2 _) (Homa.memOrder_lt 2 _) h
  have hid := eq_of_toNat_eq (memOrder_inj k.rpcid.isLt k'.rpcid.isLt hid)
  have hlp := eq_of_toNat_eq (memOrder_inj k.localPort.isLt k'.localPort.isLt hlp)
  have hrp := eq_of_toNat_eq (memOrder_inj k.remotePort.isLt k'.remotePort.isLt hrp)
  have hip := eq_of_toNat_eq (memOrder_inj k.remoteIp.isLt k'.remoteIp.isLt hip)
  cases k
  cases k'
  subst hid hlp hrp hip
  rfl

def above (k : RpcKey) : RpcKey := { k with remoteIp := k.remoteIp + 1#32 }

theorem memOrder_above {k : RpcKey} (h : k.remoteIp.toNat % 256 ≠ 255) :
    k.above.memOrder = k.memOrder + 256 ^ 3 := by
  have hip : k.above.remoteIp.toNat = k.remoteIp.toNat + 1 := by
    simp only [above, toNat_add, toNat_ofNat]
    omega
  have hbyte : (k.remoteIp.toNat + 1) % 256 = k.remoteIp.toNat % 256 + 1 := by omega
  have hrest : (k.remoteIp.toNat + 1) / 256 = k.remoteIp.toNat / 256 := by omega
  have hstep : Homa.memOrder 4 (k.remoteIp.toNat + 1) =
      Homa.memOrder 4 k.remoteIp.toNat + 256 ^ 3 := by
    have hdigit (x : Nat) : Homa.memOrder 4 x = x % 256 * 256 ^ 3 + Homa.memOrder 3 (x / 256) := rfl
    rw [hdigit, hdigit, hbyte, hrest, Nat.succ_mul, Nat.add_right_comm]
  have hhost : k.above.hostOrder = k.hostOrder := rfl
  rw [memOrder_eq, memOrder_eq, hip, hstep, hhost, add_assoc]

theorem memOrder_gap {k k' : RpcKey} (hip : k.remoteIp = k'.remoteIp)
    (h : k.memOrder < k'.memOrder) : k.memOrder + 256 ^ 4 ≤ k'.memOrder := by
  rw [memOrder_eq, memOrder_eq, hip] at *
  omega

end RpcKey

/-! ## Ranks -/

def RpcStateCc.rank (n : RpcStateCc) : Nat :=
  match n.treeId with
  | .rpc => (n.peerId.toNat * 2 ^ 32 + n.bytesRemaining.toNat) * 2 ^ 128 + n.hkey.memOrder
  | .peer => 2 ^ 200 + (n.bytesRemaining.toNat * 2 ^ 16 + n.peerId.toNat)

theorem rank_rpc (h : n.treeId = .rpc) :
    n.rank = (n.peerId.toNat * 2 ^ 32 + n.bytesRemaining.toNat) * 2 ^ 128 + n.hkey.memOrder := by
  rw [RpcStateCc.rank, h]

theorem rank_peer (h : n.treeId = .peer) :
    n.rank = 2 ^ 200 + (n.bytesRemaining.toNat * 2 ^ 16 + n.peerId.toNat) := by
  rw [RpcStateCc.rank, h]

theorem rank_rpc_lt (h : n.treeId = .rpc) : n.rank < 2 ^ 200 := by
  have h3 := n.hkey.memOrder_lt
  rw [rank_rpc h]
  omega

theorem rank_le_rank_rpc (hn : n.treeId = .rpc) (hm : m.treeId = .rpc) :
    n.rank ≤ m.rank ↔ n.peerId.toNat < m.peerId.toNat ∨ n.peerId = m.peerId ∧
      (n.bytesRemaining.toNat < m.bytesRemaining.toNat ∨ n.bytesRemaining = m.bytesRemaining ∧
        n.hkey.memOrder ≤ m.hkey.memOrder) := by
  have h3 := n.hkey.memOrder_lt
  have h4 := m.hkey.memOrder_lt
  rw [rank_rpc hn, rank_rpc hm, ← toNat_inj, ← toNat_inj]
  omega

theorem rank_le_rank_peer (hn : n.treeId = .peer) (hm : m.treeId = .peer) :
    n.rank ≤ m.rank ↔ n.bytesRemaining.toNat < m.bytesRemaining.toNat ∨
      n.bytesRemaining = m.bytesRemaining ∧ n.peerId.toNat ≤ m.peerId.toNat := by
  rw [rank_peer hn, rank_peer hm, ← toNat_inj]
  omega

theorem srptLessRpc_iff {a b : RpcStateCc} (ha : a.treeId = .rpc) :
    srptLessRpc a b = true ↔ a.rank ≤ b.rank := by
  cases hb : b.treeId with
  | peer =>
    have hlt := rank_rpc_lt ha
    rw [rank_peer hb]
    simp only [srptLessRpc, ha, hb, TreeId.less]
    exact iff_of_true (by simp) (by omega)
  | rpc =>
    rw [rank_le_rank_rpc ha hb]
    simp only [srptLessRpc, ha, hb, ne_eq, not_true_eq_false, if_false]
    by_cases hp : a.peerId = b.peerId
    · by_cases hr : a.bytesRemaining = b.bytesRemaining
      · simp [hp, hr]
      · simp [hp, hr, lt_def]
    · have hne : a.peerId.toNat ≠ b.peerId.toNat := fun h => hp (eq_of_toNat_eq h)
      simp [hp, lt_def]

theorem srptLessPeer_iff {a b : RpcStateCc} (ha : a.treeId = .peer) :
    srptLessPeer a b = true ↔ a.rank ≤ b.rank := by
  cases hb : b.treeId with
  | rpc =>
    have hlt := rank_rpc_lt hb
    rw [rank_peer ha]
    simp only [srptLessPeer, ha, hb, TreeId.less]
    exact iff_of_false (by simp) (by omega)
  | peer =>
    rw [rank_le_rank_peer ha hb]
    simp only [srptLessPeer, ha, hb, ne_eq, not_true_eq_false, if_false]
    by_cases hr : a.bytesRemaining = b.bytesRemaining
    · by_cases hp : a.peerId = b.peerId
      · simp [hp, hr]
      · have hne : a.peerId.toNat ≠ b.peerId.toNat := fun h => hp (eq_of_toNat_eq h)
        simp only [hp, hr, not_false_eq_true, not_true_eq_false, if_true, if_false, lt_def,
          decide_eq_true_eq, lt_irrefl, false_or, true_and]
        omega
    · simp [hr, lt_def]

theorem hkey_eq_of_rank_eq (hn : n.treeId = .rpc) (hm : m.treeId = .rpc)
    (h : n.rank = m.rank) : n.hkey = m.hkey := by
  rw [rank_rpc hn, rank_rpc hm] at h
  exact RpcKey.memOrder_injective (digits_inj n.hkey.memOrder_lt m.hkey.memOrder_lt h).2

theorem rank_above (hn : n.treeId = .rpc) (hip : n.hkey.remoteIp.toNat % 256 ≠ 255) :
    n.rank < ({ n with hkey := n.hkey.above } : RpcStateCc).rank ∧
    ∀ m : RpcStateCc, m.treeId = .rpc → m.hkey.remoteIp = n.hkey.remoteIp → n.rank < m.rank →
      ({ n with hkey := n.hkey.above } : RpcStateCc).rank ≤ m.rank := by
  have habove := RpcKey.memOrder_above hip
  have hrank : ({ n with hkey := n.hkey.above } : RpcStateCc).rank = n.rank + 256 ^ 3 := by
    rw [rank_rpc hn, rank_rpc (show ({ n with hkey := n.hkey.above } : RpcStateCc).treeId = .rpc
      from hn), habove, add_assoc]
  refine ⟨by omega, ?_⟩
  intro m hm hmip hlt
  rw [hrank]
  have h1 := n.hkey.above.memOrder_lt
  have h2 := m.hkey.memOrder_lt
  rw [rank_rpc hn, rank_rpc hm] at hlt ⊢
  by_cases hkey : n.hkey.memOrder < m.hkey.memOrder
  · have hgap := RpcKey.memOrder_gap hmip.symm hkey
    omega
  · omega

end MtpXdp.Homa

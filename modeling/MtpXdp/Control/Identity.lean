import MtpXdp.Core.Holding
import MtpXdp.Control.Accepting

/-!
# Identity of Connections

A server's connection is identified by its 4-tuple, its key in `tcp_connections` and in the eBPF
map, and owns an index of the congestion-control map. Here are runs of `bind`, `listen`, `accept`,
`close`, SYNs and polls.
-/

namespace MtpXdp.Control

open MtpXdp.Core Ebpf List Function Option TcpConnection TcpListener Table

variable {c : TcpConnection} {t : FlowTuple} {x : U32} {slot n : Nat} {p : PktTcp} {l : TcpListener}
  {b : BacklogSlot} {tctx : Tctx} {rest : List BacklogSlot}

/-! ## Roles -/

/-- A bound socket's connection, one that waits for a SYN, one with eBPF state, or none of these. -/
inductive Role where
  | bound (t : FlowTuple)
  | pending
  | serving (t : FlowTuple) (ccIdx : U32)
  | other

def TcpConnection.role (c : TcpConnection) : Role :=
  match c.type with
  | .fake => if c.status = .waitRxSyn then .bound c.tuple else .other
  | .normal =>
    if c.status = .waitRxSyn then .pending
    else if ControlPlane.HasEbpfState c then .serving c.tuple c.ccIdx
    else .other

def Role.ccIdx : Role → Option U32
  | .serving _ x => some x
  | _ => none

/-- The roles of a server's connections; the addresses of bound sockets are cut to 16 bits. -/
def Role.OnNic (cfg : Config) : Role → Prop
  | .bound t => t.localIp.toNat < 2 ^ 16
  | .pending => True
  | .serving t _ => t.localIp = cfg.localIp
  | .other => False

theorem TcpConnection.role_eq_bound :
    c.role = .bound t ↔ c.type = .fake ∧ c.status = .waitRxSyn ∧ c.tuple = t := by
  unfold role
  cases c.type <;> dsimp only <;> split_ifs <;> simp [*]

theorem TcpConnection.role_eq_pending :
    c.role = .pending ↔ c.type = .normal ∧ c.status = .waitRxSyn := by
  unfold role
  cases c.type <;> dsimp only <;> split_ifs <;> simp [*]

theorem TcpConnection.role_eq_serving : c.role = .serving t x ↔
      c.type = .normal ∧ ControlPlane.HasEbpfState c ∧ c.tuple = t ∧ c.ccIdx = x := by
  unfold role
  cases htype : c.type with
  | fake =>
    split_ifs <;> simp
  | normal =>
    split_ifs with hwait hebpf
    · simp [ControlPlane.HasEbpfState, hwait]
    · simp [hebpf]
    · simp [hebpf]

theorem SameIdxs.perm {idxs idxs' : List U32} (h : SameIdxs idxs idxs') : idxs'.Perm idxs := by
  rcases h with rfl | ⟨x, xs, rfl, rfl⟩
  · exact List.Perm.refl _
  · exact perm_append_comm

namespace Kernel

def role (k : Kernel) (i : Nat) : Option Role := (k.heap.cells i).map TcpConnection.role

def ccIdxOf (k : Kernel) (i : Nat) : Option U32 := (k.role i).bind Role.ccIdx

variable {k k' : Kernel} {i j : Nat} {cfg : Config}

theorem role_eq_some {r : Role} : k.role i = some r ↔ ∃ c, k.heap.cells i = some c ∧ c.role = r :=
  map_eq_some_iff

theorem ccIdxOf_eq_some : k.ccIdxOf i = some x ↔ ∃ t, k.role i = some (.serving t x) := by
  unfold ccIdxOf
  rcases k.role i with _ | _ | _ | _ | _ <;> simp [Role.ccIdx]

/-! The roles after an operation on the heap. -/

theorem role_modify {f : TcpConnection → TcpConnection} (hheap : k'.heap = k.heap.modify i f)
    (hf : ∀ c, k.heap.cells i = some c → (f c).role = c.role) (j : Nat) : k'.role j = k.role j := by
  rw [role, hheap]
  exact Heap.map_cells_modify hf

theorem role_alloc (hheap : k'.heap = k.heap.alloc c) :
    k'.role = update k.role k.heap.next (some c.role) := by
  funext j
  grind [role]

theorem role_free (hheap : k'.heap = k.heap.free i) : k'.role = update k.role i none := by
  funext j
  grind [role]

theorem role_next (k : Kernel) : k.role k.heap.next = none := by
  rw [role, k.heap.next_free _ (Nat.le_refl _), map_none]

/-! ## The table of connections -/

/-- `tcp_connections` holds serving and bound connections, each under its own tuple. -/
structure Placed (cfg : Config) (k : Kernel) : Prop where
  onNic : ∀ i r, k.role i = some r → r.OnNic cfg
  sound : ∀ t i, (t, i) ∈ k.tcpConnections.entries →
    k.role i = some (.bound t) ∨ ∃ x, k.role i = some (.serving t x)
  serving : ∀ i t x, k.role i = some (.serving t x) → (t, i) ∈ k.tcpConnections.entries

namespace Placed

variable {y : U32}

section

variable (h : Placed cfg k)
include h

theorem tuple_inj (hi : k.role i = some (.serving t x))
    (hj : k.role j = some (.serving t y)) : i = j :=
  val_unique (h.serving i t x hi) (h.serving j t y hj)

theorem of_same (hrole : ∀ j, k'.role j = k.role j)
    (htable : k'.tcpConnections = k.tcpConnections) : Placed cfg k' := by
  obtain ⟨honNic, hsound, hserves⟩ := h
  constructor <;> grind

theorem enter {r : Role} (hi : k.role i = none ∨ k.role i = some .pending)
    (hrole : k'.role = update k.role i (some r)) (hr : r.OnNic cfg)
    (hold : ∀ e ∈ k.tcpConnections.entries, e ∈ k'.tcpConnections.entries)
    (hnew : ∀ t j, (t, j) ∈ k'.tcpConnections.entries → (t, j) ∈ k.tcpConnections.entries ∨
      (j = i ∧ (r = .bound t ∨ ∃ x, r = .serving t x)))
    (hserving : ∀ t x, r = .serving t x → (t, i) ∈ k'.tcpConnections.entries) : Placed cfg k' := by
  obtain ⟨honNic, hsound, hserves⟩ := h
  constructor <;> simp only [hrole] <;> grind

theorem bind (hrole : k'.role = update k.role k.heap.next (some (.bound t)))
    (ht : t.localIp.toNat < 2 ^ 16)
    (htable : k'.tcpConnections = k.tcpConnections.insert slot t k.heap.next) : Placed cfg k' := by
  apply h.enter (.inl k.role_next) hrole ht <;> grind [mem_insert]

theorem pending (hrole : k'.role = update k.role k.heap.next (some .pending))
    (htable : k'.tcpConnections = k.tcpConnections) : Placed cfg k' := by
  apply h.enter (.inl k.role_next) hrole trivial <;> grind

theorem serve (hi : k.role i = some .pending)
    (hrole : k'.role = update k.role i (some (.serving t x)))
    (ht : t.localIp = cfg.localIp) (hnew : k.tcpConnections.lookup t = none)
    (htable : k'.tcpConnections = k.tcpConnections.insert slot t i) : Placed cfg k' := by
  apply h.enter (.inr hi) hrole ht <;> grind [mem_insert]

theorem drop (hrole : k'.role = update k.role i none)
    (htable : ∀ e, e ∈ k'.tcpConnections.entries ↔ e ∈ k.tcpConnections.entries ∧ e.2 ≠ i) :
    Placed cfg k' := by
  obtain ⟨honNic, hsound, hserves⟩ := h
  constructor <;> simp only [hrole] <;> grind

end

end Placed

/-! ## eBPF entries and congestion-control indices -/

/-- The eBPF map has entries for the serving connections only; the other indices are free. -/
structure Owned (k : Kernel) : Prop where
  entry : ∀ i t x, k.role i = some (.serving t x) →
    (k.tcpConnectionMap t).map EbpfConn.ccIdx = some x
  owner : ∀ t, k.tcpConnectionMap t ≠ none → ∃ i x, k.role i = some (.serving t x)
  idxs : Leased ccIdxs k.availCcIdxs k.ccIdxOf

namespace Owned

theorem of_serving (h : Owned k)
    (hrole : ∀ j t x, k'.role j = some (.serving t x) ↔ k.role j = some (.serving t x))
    (hmap : k'.tcpConnectionMap = k.tcpConnectionMap)
    (hidxs : k'.availCcIdxs.Perm k.availCcIdxs) : Owned k' where
  entry j t x hj := by
    rw [hmap]
    exact h.entry j t x ((hrole j t x).mp hj)
  owner t ht := by
    obtain ⟨j, x, hj⟩ := h.owner t (hmap ▸ ht)
    exact ⟨j, x, (hrole j t x).mpr hj⟩
  idxs := by
    have hheld : k'.ccIdxOf = k.ccIdxOf := by
      funext j
      apply ext
      intro x
      simp only [ccIdxOf_eq_some, hrole]
    rw [hheld]
    exact h.idxs.perm hidxs

theorem of_role (h : Owned k) (hrole : ∀ j, k'.role j = k.role j)
    (hmap : k'.tcpConnectionMap = k.tcpConnectionMap)
    (hidxs : k'.availCcIdxs.Perm k.availCcIdxs) : Owned k' :=
  h.of_serving (fun j t x => by rw [hrole]) hmap hidxs

theorem of_update (h : Owned k) {r : Option Role}
    (hrole : k'.role = update k.role i r) (hi : k.ccIdxOf i = none)
    (hr : r.bind Role.ccIdx = none) (hmap : k'.tcpConnectionMap = k.tcpConnectionMap)
    (hidxs : k'.availCcIdxs = k.availCcIdxs) : Owned k' := by
  refine h.of_serving (fun j t x => ?_) hmap (List.Perm.of_eq hidxs)
  rw [hrole, update_apply]
  grind [ccIdxOf, Role.ccIdx]

theorem drop (h : Owned k) (hplaced : Placed cfg k) (hi : k.role i = some (.serving t x))
    (hrole : k'.role = update k.role i none)
    (hmap : k'.tcpConnectionMap = update k.tcpConnectionMap t none)
    (hidxs : k'.availCcIdxs = k.availCcIdxs ++ [x]) : Owned k' where
  entry j u y hj := by
    have hentry := h.entry j u y
    rw [hrole] at hj
    rw [hmap]
    grind [Placed.tuple_inj]
  owner u hu := by
    rw [hmap] at hu
    obtain ⟨j, y, hj⟩ := h.owner u (by grind)
    exact ⟨j, y, by rw [hrole]; grind⟩
  idxs := by
    have hheld : k'.ccIdxOf = update k.ccIdxOf i none := by
      funext j
      rw [ccIdxOf, hrole, update_apply, update_apply]
      split_ifs <;> rfl
    rw [hheld, hidxs]
    exact h.idxs.giveBack (ccIdxOf_eq_some.mpr ⟨t, hi⟩)

theorem serve (h : Owned k) (hplaced : Placed cfg k) (hi : k.role i = some .pending)
    (hrole : k'.role = update k.role i (some (.serving t x)))
    (hnew : k.tcpConnections.lookup t = none) {e : EbpfConn} (he : e.ccIdx = x)
    (hmap : k'.tcpConnectionMap = update k.tcpConnectionMap t (some e))
    (hidxs : k.availCcIdxs = x :: k'.availCcIdxs) : Owned k' where
  entry j u y hj := by
    -- who serves already is registered, unlike `t`
    have hentry := h.entry j u y
    have hserving := hplaced.serving j u y
    rw [hrole] at hj
    rw [hmap]
    grind [lookup_eq_none]
  owner u hu := by
    rw [hmap] at hu
    by_cases hut : u = t
    · exact ⟨i, x, by rw [hrole, update_self, hut]⟩
    · obtain ⟨j, y, hj⟩ := h.owner u (by grind)
      exact ⟨j, y, by rw [hrole]; grind⟩
  idxs := by
    have hheld : k'.ccIdxOf = update k.ccIdxOf i (some x) := by
      funext j
      rw [ccIdxOf, hrole, update_apply, update_apply]
      split_ifs <;> rfl
    rw [hheld]
    have hidxs' := h.idxs
    rw [hidxs] at hidxs'
    exact hidxs'.take (by rw [ccIdxOf, hi]; rfl)

end Owned

/-! ## Backlogs -/

theorem tcpListenerLookup_congr {q : PktTcp} (h : p.tuple = q.tuple) :
    k.tcpListenerLookup cfg p = k.tcpListenerLookup cfg q := by
  simp only [PktTcp.tuple, FlowTuple.mk.injEq] at h
  obtain ⟨hsrcIp, hsrc, hdestIp, hdest⟩ := h
  simp only [tcpListenerLookup, PktTcp.hash, hsrcIp, hsrc, hdestIp, hdest]

theorem tcpListenerLookup_eq_some (h : k.tcpListenerLookup cfg p = some n) :
    p.destIp = cfg.localIp ∧ n ∈ k.listenersOn p.dest := by
  unfold tcpListenerLookup at h
  split_ifs at h with hip
  exact ⟨not_not.mp hip, mem_of_getElem? h⟩

theorem mem_listenersOn {port : U16} : n ∈ k.listenersOn port ↔
      k.listing n = .listed ∧ ∃ l, k.tcpListeners[n]? = some l ∧ l.listenPort = port := by
  unfold listenersOn
  simp only [mem_filter, mem_range, decide_eq_true_eq, map_eq_some_iff]
  refine ⟨fun h => h.2, fun h => ⟨?_, h⟩⟩
  obtain ⟨-, l, hl, -⟩ := h
  exact (List.getElem?_eq_some_iff.mp hl).1

theorem listenersOn_congr (hlisting : k'.listing = k.listing)
    (hports : k'.tcpListeners.map listenPort = k.tcpListeners.map listenPort)
    (port : U16) : k'.listenersOn port = k.listenersOn port := by
  have hlen : k'.tcpListeners.length = k.tcpListeners.length := by
    simpa using congrArg length hports
  unfold listenersOn
  simp only [← getElem?_map, hlisting, hports, hlen]

theorem listenersOn_append (hlisting : k'.listing = k.listing)
    (hlis : k'.tcpListeners = k.tcpListeners ++ [l]) {port : U16} (hport : l.listenPort ≠ port) :
    k'.listenersOn port = k.listenersOn port := by
  unfold listenersOn
  rw [hlis, length_append, length_singleton, range_succ, filter_append,
    hlisting]
  have hnew : filter (fun n => k.listing n = .listed ∧
      ((k.tcpListeners ++ [l])[n]?).map listenPort = some port)
      [k.tcpListeners.length] = [] := by
    simp [hport]
  rw [hnew, append_nil]
  apply filter_congr
  intro n hn
  rw [getElem?_append_left (mem_range.mp hn)]

/-- Each waiting SYN is at the listener where its 4-tuple would be looked for, once, and without a
    connection. -/
structure Queued (cfg : Config) (k : Kernel) : Prop where
  slot : ∀ n b, b ∈ k.backlog n → k.tcpConnections.lookup b.pkt.tuple = none ∧
    k.tcpListenerLookup cfg b.pkt = some n
  nodup : ∀ n, ((k.backlog n).map fun b => b.pkt.tuple).Nodup

namespace Queued

theorem backlog_inj (h : Queued cfg k) {m : Nat} {d : BacklogSlot} (hb : b ∈ k.backlog n)
    (hd : d ∈ k.backlog m) (ht : b.pkt.tuple = d.pkt.tuple) : n = m := by
  have hn := (h.slot n b hb).2
  rw [tcpListenerLookup_congr ht, (h.slot m d hd).2] at hn
  exact (some.inj hn).symm

theorem of_lookup (h : Queued cfg k)
    (htable : ∀ n, ∀ b ∈ k'.backlog n, k.tcpConnections.lookup b.pkt.tuple = none →
      k'.tcpConnections.lookup b.pkt.tuple = none)
    (hlis : ∀ n, ∀ b ∈ k'.backlog n, k'.listenersOn b.pkt.dest = k.listenersOn b.pkt.dest)
    (hbacklog : ∀ n, (k'.backlog n).Sublist (k.backlog n)) : Queued cfg k' where
  slot n b hb := by
    obtain ⟨hnew, hn⟩ := h.slot n b ((hbacklog n).subset hb)
    refine ⟨htable n b hb hnew, ?_⟩
    rwa [tcpListenerLookup, hlis n b hb]
  nodup n := (h.nodup n).sublist ((hbacklog n).map _)

section

variable (h : Queued cfg k) (htable : k'.tcpConnections = k.tcpConnections)
  (hlisting : k'.listing = k.listing)
include h htable hlisting

theorem of_same (hports : k'.tcpListeners.map listenPort = k.tcpListeners.map listenPort)
    (hbacklog : ∀ n, (k'.backlog n).Sublist (k.backlog n)) : Queued cfg k' :=
  h.of_lookup (fun _ _ _ hb => htable ▸ hb) (fun _ _ _ => listenersOn_congr hlisting hports _)
    hbacklog

theorem push (hlis : k'.tcpListeners = k.tcpListeners)
    (hbacklog : k'.backlog = update k.backlog n (k.backlog n ++ [b]))
    (hnone : k.tcpConnections.lookup b.pkt.tuple = none)
    (hn : k.tcpListenerLookup cfg b.pkt = some n)
    (hnew : ∀ b' ∈ k.backlog n, b'.pkt.tuple ≠ b.pkt.tuple) : Queued cfg k' where
  slot m d hd := by
    have hports := congrArg (map listenPort) hlis
    rw [htable, tcpListenerLookup, listenersOn_congr hlisting hports]
    rw [hbacklog, update_apply] at hd
    split_ifs at hd with hm
    · rcases mem_append.mp hd with hd | hd
      · exact hm ▸ h.slot n d hd
      · rw [mem_singleton.mp hd, hm]
        exact ⟨hnone, hn⟩
    · exact h.slot m d hd
  nodup m := by
    rw [hbacklog, update_apply]
    have hnodup := h.nodup
    grind [nodup_append]

end

end Queued

/-! ## The invariant -/

structure Identified (cfg : Config) (k : Kernel) : Prop where
  placed : Placed cfg k
  owned : Owned k
  queued : Queued cfg k

theorem Identified.of_same (h : Identified cfg k) (hrole : ∀ j, k'.role j = k.role j)
    (htable : k'.tcpConnections = k.tcpConnections)
    (hmap : k'.tcpConnectionMap = k.tcpConnectionMap)
    (hidxs : k'.availCcIdxs.Perm k.availCcIdxs) (hlisting : k'.listing = k.listing)
    (hlis : k'.tcpListeners = k.tcpListeners)
    (hbacklog : ∀ n, (k'.backlog n).Sublist (k.backlog n)) : Identified cfg k' where
  placed := h.placed.of_same hrole htable
  owned := h.owned.of_role hrole hmap hidxs
  queued := h.queued.of_same htable hlisting (congrArg _ hlis) hbacklog

theorem Identified.quiet (h : Identified cfg k) (hheap : k'.heap = k.heap)
    (htable : k'.tcpConnections = k.tcpConnections)
    (hmap : k'.tcpConnectionMap = k.tcpConnectionMap) (hidxs : k'.availCcIdxs = k.availCcIdxs)
    (hlisting : k'.listing = k.listing) (hlis : k'.tcpListeners = k.tcpListeners)
    (hbacklog : k'.backlog = k.backlog) : Identified cfg k' :=
  h.of_same (fun j => by rw [role, hheap, role]) htable hmap (List.Perm.of_eq hidxs) hlisting hlis
    fun n => by rw [hbacklog]

/-! ### Release -/

section

variable (h : Placed cfg k) (hc : k.heap.cells i = some c)
include h hc

theorem Placed.role_of_registered
    (hreg : k.Registered i) : c.role = .bound c.tuple ∨ c.role = .serving c.tuple c.ccIdx := by
  obtain ⟨t, ht⟩ := hreg
  have hrole : k.role i = some c.role := role_eq_some.mpr ⟨c, hc, rfl⟩
  rcases h.sound t i ht with hr | ⟨x, hr⟩
  · have hb := some.inj (hrole.symm.trans hr)
    exact .inl ((role_eq_bound.mp hb).2.2 ▸ hb)
  · have hs := some.inj (hrole.symm.trans hr)
    obtain ⟨-, -, ht, hx⟩ := role_eq_serving.mp hs
    exact .inr (ht ▸ hx ▸ hs)

theorem Placed.key_eq (ht : (t, i) ∈ k.tcpConnections.entries) : t = c.tuple := by
  have hrole : k.role i = some c.role := role_eq_some.mpr ⟨c, hc, rfl⟩
  rcases h.sound t i ht with hr | ⟨x, hr⟩
  · exact (role_eq_bound.mp (some.inj (hrole.symm.trans hr))).2.2.symm
  · exact (role_eq_serving.mp (some.inj (hrole.symm.trans hr))).2.2.1.symm

theorem Placed.length_keysOf_le : (k.tcpConnections.keysOf i).length ≤ 1 := by
  have hsub : k.tcpConnections.keysOf i ⊆ [c.tuple] := by
    intro t ht
    rw [h.key_eq hc (mem_keysOf.mp ht)]
    exact mem_singleton_self _
  exact (List.Nodup.subperm (k.tcpConnections.nodup_keysOf i) hsub).length_le

theorem Placed.mem_released
    (hreg : k.Registered i) (hrel : Released k i c k') (e : FlowTuple × Nat) :
    e ∈ k'.tcpConnections.entries ↔ e ∈ k.tcpConnections.entries ∧ e.2 ≠ i := by
  obtain ⟨t, ht⟩ := hreg
  obtain rfl := h.key_eq hc ht
  rw [hrel.table]
  split_ifs with htype
  · rw [mem_eraseKey]
    refine and_congr_right fun he => not_congr ⟨fun h' => ?_, fun h' => ?_⟩
    · exact val_unique (h' ▸ he : (c.tuple, e.2) ∈ _) ht
    · exact h.key_eq hc (h' ▸ he : (e.1, i) ∈ _)
  · refine ⟨fun he => ⟨mem_of_mem_eraseVal he, ?_⟩, fun he => ?_⟩
    · exact ne_of_mem_eraseVal (h.length_keysOf_le hc) he
    · exact (mem_eraseVal_of_ne he.2).mpr he.1

end

theorem Identified.released (h : Identified cfg k) (hc : k.heap.cells i = some c)
    (hreg : k.Registered i) (hrel : Released k i c k') : Identified cfg k' where
  placed := h.placed.drop (role_free hrel.heap) (h.placed.mem_released hc hreg hrel)
  owned := by
    have hrole : k.role i = some c.role := role_eq_some.mpr ⟨c, hc, rfl⟩
    have hmap := hrel.map
    have hidxs := hrel.idxs
    rcases h.placed.role_of_registered hc hreg with hr | hr
    · -- a bound socket's connection has no eBPF state
      have htype := (role_eq_bound.mp hr).1
      rw [if_neg (fun hn => hn.1 htype)] at hmap hidxs
      refine h.owned.of_update (role_free hrel.heap) ?_ rfl hmap hidxs
      rw [ccIdxOf, hrole, hr]
      rfl
    · rw [hr] at hrole
      obtain ⟨htype, hebpf, -, -⟩ := role_eq_serving.mp hr
      have hcond : c.type ≠ .fake ∧ ControlPlane.HasEbpfState c := ⟨by simp [htype], hebpf⟩
      rw [if_pos hcond] at hmap hidxs
      rw [h.owned.entry i _ _ hrole, getD_some] at hidxs
      exact h.owned.drop h.placed hrole (role_free hrel.heap) hmap hidxs
  queued := by
    refine h.queued.of_lookup (fun n b _ hnone => ?_)
      (fun n b _ => listenersOn_congr hrel.listing (congrArg _ hrel.listeners) _)
      (fun n => by rw [hrel.backlog])
    rw [lookup_eq_none] at hnone ⊢
    intro j hj
    exact hnone j ((h.placed.mem_released hc hreg hrel _).mp hj).1

theorem Identified.put (h : Identified cfg k) (hreg : k.Registered i) (hput : PutCase k i k') :
    Identified cfg k' := by
  cases hput with
  | gone => exact h
  | counted c hc =>
    have hrole : ∀ j, (k.modifyConn i fun c => { c with ref := c.ref - 1#32 }).role j = k.role j :=
      role_modify rfl fun _ _ => rfl
    exact h.of_same hrole rfl rfl (List.Perm.refl _) rfl rfl fun _ => List.Sublist.refl _
  | released c _ hc _ hrel => exact h.released hc hreg hrel

/-! ### Commands -/

theorem lookup_insert {u : FlowTuple}
    (htable : k'.tcpConnections = k.tcpConnections.insert slot t i)
    (hu : k.tcpConnections.lookup u = none) (hne : u ≠ t) : k'.tcpConnections.lookup u = none := by
  grind [lookup_eq_none, mem_insert]

theorem toNat_localIp_bound (tctx : Tctx) (m : BindMsg) :
    (bound tctx m).tuple.localIp.toNat < 2 ^ 16 := by
  simp only [tuple, bound, BitVec.toNat_setWidth]
  omega

theorem role_bound (tctx : Tctx) (m : BindMsg) :
    (bound tctx m).role = .bound (bound tctx m).tuple :=
  role_eq_bound.mpr ⟨rfl, rfl, rfl⟩

theorem Identified.bound (h : Identified cfg k) (hnic : 2 ^ 16 ≤ cfg.localIp.toNat)
    {m : BindMsg} (hheap : k'.heap = k.heap.alloc (bound tctx m))
    (htable : k'.tcpConnections = k.tcpConnections.insert slot (bound tctx m).tuple
      k.heap.next)
    (hmap : k'.tcpConnectionMap = k.tcpConnectionMap) (hidxs : k'.availCcIdxs = k.availCcIdxs)
    (hlisting : k'.listing = k.listing) (hlis : k'.tcpListeners = k.tcpListeners)
    (hbacklog : k'.backlog = k.backlog) : Identified cfg k' where
  placed := h.placed.bind (role_bound tctx m ▸ role_alloc hheap) (toNat_localIp_bound tctx m) htable
  owned := by
    refine h.owned.of_update (role_alloc hheap) ?_ ?_ hmap hidxs
    · rw [ccIdxOf, role_next, bind_none]
    · rw [role_bound]
      rfl
  queued := by
    refine h.queued.of_lookup (fun n b hb hnone => lookup_insert htable hnone ?_)
      (fun n b _ => listenersOn_congr hlisting (congrArg _ hlis) _) (fun n => by rw [hbacklog])
    intro ht
    rw [hbacklog] at hb
    have hip := (tcpListenerLookup_eq_some (h.queued.slot n b hb).2).1
    have hlt := toNat_localIp_bound tctx m
    rw [← ht] at hlt
    have hle : 2 ^ 16 ≤ b.pkt.tuple.localIp.toNat := by rwa [PktTcp.tuple, hip]
    exact absurd hle (Nat.not_le.mpr hlt)

theorem Identified.listening (h : Identified cfg k) (hheap : k'.heap = k.heap)
    (htable : k'.tcpConnections = k.tcpConnections)
    (hmap : k'.tcpConnectionMap = k.tcpConnectionMap) (hidxs : k'.availCcIdxs = k.availCcIdxs)
    (hlisting : k'.listing = k.listing) (hlis : k'.tcpListeners = k.tcpListeners ++ [l])
    (hbacklog : k'.backlog = k.backlog)
    (hidle : ∀ n ∈ k.listenersOn l.listenPort, k.backlog n = []) : Identified cfg k' := by
  have hrole : ∀ j, k'.role j = k.role j := fun j => by rw [role, hheap, role]
  refine ⟨h.placed.of_same hrole htable, h.owned.of_role hrole hmap (List.Perm.of_eq hidxs), ?_⟩
  refine h.queued.of_lookup (fun n b _ hnone => htable ▸ hnone) (fun n b hb => ?_)
    (fun n => by rw [hbacklog])
  rw [hbacklog] at hb
  apply listenersOn_append hlisting hlis
  -- the port of a SYN that waits is another one
  intro hport
  have hn := (tcpListenerLookup_eq_some (h.queued.slot n b hb).2).2
  rw [hidle n (hport ▸ hn)] at hb
  cases hb

/-- The condition on `tcp_listen`: the listeners that the port has already have no SYN queued. -/
def ListensClean (k : Kernel) : Event → Prop
  | .command _ _ (.tcp (.listen m)) =>
    ∀ ic ∈ k.findTcpConn m.opaqueConnection, ic.2.type = .fake →
      ∀ n ∈ k.listenersOn ic.2.localPort, k.backlog n = []
  | _ => True

instance (k : Kernel) (e : Event) : Decidable (k.ListensClean e) := by
  rcases e with ⟨_, _, ⟨⟨⟩⟩ | _⟩ | _ <;> unfold ListensClean <;> infer_instance

theorem Identified.cmdCase (h : Identified cfg k) (hnic : 2 ^ 16 ≤ cfg.localIp.toNat)
    {a : Ambient} {cmd : TcpCmd} (hcmd : ∀ m, cmd ≠ .open m)
    (hclean : k.ListensClean (.command a tctx (.tcp cmd)))
    (hcase : CmdCase cfg a.slot tctx k cmd k') : Identified cfg k' := by
  cases hcase with
  | failed => exact h.quiet rfl rfl rfl rfl rfl rfl rfl
  | reopened m => exact absurd rfl (hcmd m)
  | opened m => exact absurd rfl (hcmd m)
  | bound m pool out _ _ => exact h.bound hnic rfl rfl rfl rfl rfl rfl rfl
  | listening m i c out hfind htype =>
    exact h.listening rfl rfl rfl rfl rfl rfl rfl (hclean (i, c) hfind htype)
  | closed m i c k' out hfind hput =>
    have h' := h.put (ControlPlane.findTcpConn_registered hfind).1 hput
    exact h'.quiet rfl rfl rfl rfl rfl rfl rfl

/-! ### Accepting a SYN -/

theorem map_listenPort_modify (ls : List TcpListener) (n : Nat) (pending : Option Nat) :
    (ls.modify n fun l => { l with pendingConn := pending }).map listenPort =
      ls.map listenPort := by
  apply ext_getElem?
  intro m
  rw [getElem?_map, getElem?_map, getElem?_modify]
  split_ifs
  · cases ls[m]? <;> rfl
  · rw [id_map']

theorem sublist_popped (hb : k.backlog n = b :: rest) (m : Nat) :
    (update k.backlog n rest m).Sublist (k.backlog m) := by
  rw [update_apply]
  split_ifs with hm
  · rw [hm, hb]
    exact sublist_cons_self b rest
  · exact List.Sublist.refl _

theorem Waits.role_eq (h : k.Waits n l i) : k.role i = some .pending := by
  obtain ⟨-, c, hc, htype, hstatus, -, -⟩ := h
  exact role_eq_some.mpr ⟨c, hc, role_eq_pending.mpr ⟨htype, hstatus⟩⟩

theorem Queued.tuple_takeSyn (h : Queued cfg k)
    (hl : k.tcpListeners[n]? = some l) (hb : b ∈ k.backlog n) (c : TcpConnection) :
    (takeSyn cfg l b c).tuple = b.pkt.tuple := by
  obtain ⟨hip, hn⟩ := tcpListenerLookup_eq_some (h.slot n b hb).2
  obtain ⟨-, l', hl', hport⟩ := mem_listenersOn.mp hn
  obtain rfl := some.inj (hl.symm.trans hl')
  simp only [tuple, takeSyn, PktTcp.tuple, hip, hport]

theorem Queued.tuple_ne_popped (h : Queued cfg k) {m : Nat} {d : BacklogSlot}
    (hb : k.backlog n = b :: rest)
    (hd : d ∈ update k.backlog n rest m) : d.pkt.tuple ≠ b.pkt.tuple := by
  intro ht
  have hmem : b ∈ k.backlog n := hb ▸ mem_cons_self
  have hm : m = n := h.backlog_inj ((sublist_popped hb m).subset hd) hmem ht
  rw [hm, update_self] at hd
  have hnodup := h.nodup n
  rw [hb, map_cons, nodup_cons] at hnodup
  exact hnodup.1 (ht ▸ mem_map_of_mem hd)

theorem Identified.accepted (h : Identified cfg k)
    {idx : U32} {idxs : List U32} {syn : Nat → SynState}
    (hwaits : k.Waits n l i) (hl : k.tcpListeners[n]? = some l) (hb : k.backlog n = b :: rest)
    (hc : k.heap.cells i = some c) (hidxs : k.availCcIdxs = idx :: idxs) :
    Identified cfg (k.accepted cfg slot n i l b rest c idx idxs syn) := by
  have hmem : b ∈ k.backlog n := hb ▸ mem_cons_self
  have htuple := h.queued.tuple_takeSyn hl hmem c
  obtain ⟨hnone, hlookup⟩ := h.queued.slot n b hmem
  have hpending := hwaits.role_eq
  have hlocal : (takeSyn cfg l b c).tuple.localIp = cfg.localIp := rfl
  rw [← htuple] at hnone
  have hrole : (k.accepted cfg slot n i l b rest c idx idxs syn).role =
      update k.role i (some (.serving (takeSyn cfg l b c).tuple idx)) := by
    funext j
    rw [update_apply]
    split_ifs with hj
    · -- the connection was pending, so it is a normal one
      obtain ⟨-, d, hd, htype, -⟩ := hwaits
      obtain rfl := some.inj (hc.symm.trans hd)
      have hcell : (k.accepted cfg slot n i l b rest c idx idxs syn).heap.cells i =
          some { withCc idx (takeSyn cfg l b c) with status := .waitTxSynack } := by
        rw [Kernel.accepted, Heap.cells_modify_self, hc, map_some]
      rw [hj, role_eq_some]
      exact ⟨_, hcell, role_eq_serving.mpr ⟨htype, .inr rfl, rfl, rfl⟩⟩
    · rw [role, role, Kernel.accepted, Heap.cells_modify_of_ne hj]
  have hports : (k.accepted cfg slot n i l b rest c idx idxs syn).tcpListeners.map
      listenPort = k.tcpListeners.map listenPort :=
    map_listenPort_modify _ _ _
  refine ⟨h.placed.serve hpending hrole hlocal hnone rfl,
    h.owned.serve h.placed hpending hrole hnone rfl rfl hidxs, ?_⟩
  have hlisting : (k.accepted cfg slot n i l b rest c idx idxs syn).listing = k.listing := rfl
  refine h.queued.of_lookup (fun m d hd hd' => lookup_insert rfl hd' ?_)
    (fun m d _ => listenersOn_congr hlisting hports _) (sublist_popped hb)
  rw [htuple]
  exact h.queued.tuple_ne_popped hb hd

theorem Identified.acceptCase (h : Identified cfg k) (hk : k.Accepting)
    (hcase : AcceptCase cfg slot n k k') : Identified cfg k' := by
  cases hcase with
  | ignored => exact h
  | dropped b rest hb =>
    exact h.of_same (fun _ => rfl) rfl rfl (List.Perm.refl _) rfl rfl (sublist_popped hb)
  | failed l i b rest idxs syn hl hi hb hidxs =>
    have hrole : ∀ j, role { k with heap := k.heap.modify i (takeSyn cfg l b) } j = k.role j :=
      role_modify rfl fun c hc => by
        obtain ⟨-, d, hd, htype, hstatus, -⟩ := hk.pending n l i hl hi
        obtain rfl := some.inj (hc.symm.trans hd)
        rw [role_eq_pending.mpr ⟨htype, hstatus⟩]
        exact role_eq_pending.mpr ⟨htype, hstatus⟩
    exact h.of_same hrole rfl rfl hidxs.perm rfl rfl (sublist_popped hb)
  | accepted l i b rest c idx idxs syn hl hi hb hc hidxs =>
    exact h.accepted (hk.pending n l i hl hi) hl hb hc hidxs

theorem Identified.waiting (h : Identified cfg k)  {m : AcceptMsg} :
    Identified cfg (({ k with heap := k.heap.alloc (acceptedConn cfg tctx n l m) }).setPending n
      (some k.heap.next)) := by
  have hrole : (({ k with heap := k.heap.alloc (acceptedConn cfg tctx n l m) }).setPending n
      (some k.heap.next)).role = update k.role k.heap.next (some .pending) :=
    role_alloc (c := acceptedConn cfg tctx n l m) rfl
  refine ⟨h.placed.pending hrole rfl, h.owned.of_update hrole ?_ rfl rfl rfl,
    h.queued.of_same rfl rfl (map_listenPort_modify _ _ _) fun _ => List.Sublist.refl _⟩
  rw [ccIdxOf, role_next, bind_none]

/-! ### Packets and polls -/

theorem Identified.listenerCase (h : Identified cfg k) (hk : k.Accepting)
    (hnone : k.tcpConnections.lookup p.tuple = none)
    (hn : k.tcpListenerLookup cfg p = some n) (hcase : ListenerCase cfg slot n p k k') :
    Identified cfg k' := by
  cases hcase with
  | ignored => exact h
  | queued l b out k' hl hp hnew hacc =>
    subst hp
    have hqueued : Identified cfg { k with
        backlog := update k.backlog n (k.backlog n ++ [b])
        handshakeOut := out } :=
      ⟨h.placed.of_same (fun _ => rfl) rfl,
        h.owned.of_role (fun _ => rfl) rfl (List.Perm.refl _),
        h.queued.push rfl rfl rfl rfl hnone hn hnew⟩
    exact hqueued.acceptCase (hk.keeps (.queueSyn k n b out)) hacc

theorem Placed.status_of_registered (h : Placed cfg k) (hc : k.heap.cells i = some c)
    (hreg : k.Registered i) : c.status = .waitRxSyn ∨ ControlPlane.HasEbpfState c := by
  rcases h.role_of_registered hc hreg with hr | hr
  · exact .inl (role_eq_bound.mp hr).2.1
  · exact .inr (role_eq_serving.mp hr).2.1

theorem Identified.connCase (h : Identified cfg k) (hc : k.heap.cells i = some c)
    (hreg : k.Registered i) {opts : TcpOpts} (hcase : ConnCase cfg k i c p opts k') :
    Identified cfg k' := by
  have hstatus := h.placed.status_of_registered hc hreg
  cases hcase with
  | ignored => exact h
  | synackFailed _ _ _ hwait => simp [ControlPlane.HasEbpfState, hwait] at hstatus
  | opened _ _ _ _ _ _ hwait => simp [ControlPlane.HasEbpfState, hwait] at hstatus
  | resent => exact h.quiet rfl rfl rfl rfl rfl rfl rfl
  | put out k' _ _ hput =>
    have hsame : Identified cfg { k with kernelOut := out } := h.quiet rfl rfl rfl rfl rfl rfl rfl
    exact hsame.put hreg hput
  | acked => exact h.quiet rfl rfl rfl rfl rfl rfl rfl

theorem Identified.packetCase (h : Identified cfg k) (hk : k.Accepting)
    (hcase : PacketCase cfg slot p k k') : Identified cfg k' := by
  cases hcase with
  | none => exact h.quiet rfl rfl rfl rfl rfl rfl rfl
  | conn i c opts k' _ hi hc hcase => exact h.connCase hc ⟨_, lookup_eq_some.mp hi⟩ hcase
  | listener n k' hi hn hcase => exact h.listenerCase hk hi hn hcase

theorem Identified.handshakeCase (h : Identified cfg k) (hcase : HandshakeCase k i k') :
    Identified cfg k' := by
  cases hcase with
  | ignored => exact h
  | synSent c syn p hc hstatus =>
    -- no client is among the connections
    have hrole : k.role i = some .other := by
      refine role_eq_some.mpr ⟨c, hc, ?_⟩
      unfold TcpConnection.role
      cases c.type <;> simp [ControlPlane.HasEbpfState, hstatus]
    exact (h.placed.onNic i _ hrole).elim
  | synackSent c p out hc hstatus =>
    have hrole : ∀ j, ({ k with heap := k.heap.modify i fun c => { c with status := .open } } :
        Kernel).role j = k.role j := by
      refine role_modify rfl fun d hd => ?_
      obtain rfl := some.inj (hc.symm.trans hd)
      -- a bound socket's connection waits for a SYN, so this one is a server's
      have htype : c.type = .normal := by
        cases htype : c.type with
        | normal => rfl
        | fake =>
          have hother : c.role = .other := by simp [TcpConnection.role, htype, hstatus]
          exact (h.placed.onNic i _ (role_eq_some.mpr ⟨c, hc, hother⟩)).elim
      rw [TcpConnection.role_eq_serving.mpr ⟨htype, .inr hstatus, rfl, rfl⟩]
      exact TcpConnection.role_eq_serving.mpr ⟨htype, .inl rfl, rfl, rfl⟩
    exact h.of_same hrole rfl rfl (List.Perm.refl _) rfl rfl fun _ => List.Sublist.refl _

/-! ## Runs -/

/-- The events of servers: commands other than `open`, packets, and the poll of the handshakes. -/
def Event.Serves : Event → Prop
  | .command _ _ (.tcp (.open _)) => False
  | .command .. => True
  | .packet .. => True
  | .pollHandshakes _ => True
  | .pollCcTo _ => False
  | .exit .. => False

instance (e : Event) : Decidable e.Serves := by
  rcases e with ⟨_, _, ⟨⟨⟩⟩ | _⟩ | _ <;> unfold Event.Serves <;> infer_instance

theorem identified_boot (cfg : Config) : Identified cfg boot where
  placed := by
    constructor
    · intro i r h
      cases h
    · intro t i h
      cases h
    · intro i t x h
      cases h
  owned := by
    refine ⟨?_, fun t h => absurd rfl h, Leased.initial (PortPool.nodup_map_ofNat (by decide))⟩
    intro i t x h
    cases h
  queued := by
    refine ⟨?_, fun n => nodup_nil⟩
    intro n b h
    cases h

theorem identified_step (pf : Platform) (hnic : 2 ^ 16 ≤ pf.cfg.localIp.toNat) {e : Event}
    (h : Identified pf.cfg k) (hk : k.Accepting) (he : e.Serves) (hclean : k.ListensClean e) :
    Identified pf.cfg (k.step pf e) := by
  cases e with
  | command a tctx cmd =>
    cases cmd with
    | tcp cmd =>
      refine h.cmdCase hnic ?_ hclean (Control.cmdCase pf.cfg a.slot tctx k cmd)
      rintro m rfl
      exact he
    | accept m =>
      unfold Kernel.step Kernel.processTcpCmd
      dsimp only
      split
      next k' hk' =>
        obtain ⟨n, l, -, hl, -, hcase⟩ := tcpAccept_eq_some hk'
        exact h.waiting.acceptCase (hk.waiting hl) hcase
      next => exact h.quiet rfl rfl rfl rfl rfl rfl rfl
  | packet a p qid => exact h.packetCase hk (Control.packetCase pf.cfg a p qid k)
  | pollHandshakes deadline =>
    have h0 : Identified pf.cfg { k with tcpHandshakeList := [] } :=
      h.quiet rfl rfl rfl rfl rfl rfl rfl
    exact pollTcpHandshakeEvents_induct deadline h0 fun _ _ _ h => h.handshakeCase
  | pollCcTo => exact he.elim
  | exit => exact he.elim

def Connected (k : Kernel) (i : Nat) (c : TcpConnection) : Prop :=
  k.heap.cells i = some c ∧ c.type = .normal ∧ c.status ≠ .waitRxSyn

/-- Live connections differ in their 4-tuples, eBPF entries and indices; the other indices are free.
    -/
structure Unique (k : Kernel) : Prop where
  tuples : ∀ i j c d, k.Connected i c → k.Connected j d → c.tuple = d.tuple → i = j
  entries : ∀ i c, k.Connected i c →
    (k.tcpConnectionMap c.tuple).map EbpfConn.ccIdx = some c.ccIdx
  indices : ∀ x ∈ ccIdxs,
    (x ∈ k.availCcIdxs ∧ ¬ ∃ i c, k.Connected i c ∧ c.ccIdx = x) ∨
      (x ∉ k.availCcIdxs ∧ ∃! i, ∃ c, k.Connected i c ∧ c.ccIdx = x)
  free : k.availCcIdxs.Nodup

theorem Identified.role_connected (h : Identified cfg k) (hc : k.Connected i c) :
    k.role i = some (.serving c.tuple c.ccIdx) := by
  obtain ⟨hcell, htype, hstatus⟩ := hc
  refine role_eq_some.mpr ⟨c, hcell, TcpConnection.role_eq_serving.mpr ⟨htype, ?_, rfl, rfl⟩⟩
  by_contra hebpf
  have hother : c.role = .other := by simp [TcpConnection.role, htype, hstatus, hebpf]
  exact h.placed.onNic i _ (role_eq_some.mpr ⟨c, hcell, hother⟩)

theorem ccIdxOf_connected (h : k.ccIdxOf i = some x) : ∃ c, k.Connected i c ∧ c.ccIdx = x := by
  obtain ⟨t, ht⟩ := ccIdxOf_eq_some.mp h
  obtain ⟨c, hc, hrole⟩ := role_eq_some.mp ht
  obtain ⟨htype, hebpf, -, hx⟩ := role_eq_serving.mp hrole
  refine ⟨c, ⟨hc, htype, fun hwait => ?_⟩, hx⟩
  simp [ControlPlane.HasEbpfState, hwait] at hebpf

theorem Identified.unique (h : Identified cfg k) : k.Unique where
  tuples i j c d hc hd ht := by
    have hi := h.role_connected hc
    rw [ht] at hi
    exact h.placed.tuple_inj hi (h.role_connected hd)
  entries i c hc := h.owned.entry i _ _ (h.role_connected hc)
  indices x hx := by
    -- whoever is connected with the index `x` holds it
    have hheld : ∀ i, (∃ c, k.Connected i c ∧ c.ccIdx = x) → k.ccIdxOf i = some x := by
      rintro i ⟨c, hc, rfl⟩
      exact ccIdxOf_eq_some.mpr ⟨_, h.role_connected hc⟩
    rcases h.owned.idxs.covered x hx with hfree | ⟨i, hi⟩
    · refine .inl ⟨hfree, fun ⟨i, hi⟩ => ?_⟩
      exact h.owned.idxs.not_free i x (hheld i hi) hfree
    · refine .inr ⟨h.owned.idxs.not_free i x hi, i, ccIdxOf_connected hi, fun j hj => ?_⟩
      exact h.owned.idxs.distinct (hheld j hj) hi
  free := h.owned.idxs.nodup

end Kernel

open Kernel

/-- In a run of servers whose `tcp_listen` finds no SYN queued, connections have identities of their
    own. -/
theorem identity_unique (pf : Platform) (es : List Event)
    (hnic : 2 ^ 16 ≤ pf.cfg.localIp.toNat) (hserves : ∀ e ∈ es, e.Serves)
    (hclean : Meets (step pf) ListensClean boot es) : Always (step pf) Unique boot es := by
  have hserve : Meets (step pf) (fun _ e => e.Serves) boot es := meets_of_forall_mem hserves
  have hmeets := hclean.and hserve
  have hinv : Always (step pf) (fun k => Identified pf.cfg k ∧ k.Accepting) boot es := by
    refine always_of_meets ?_ ⟨identified_boot pf.cfg, accepting_boot⟩ hmeets
    rintro k e ⟨h, hk⟩ ⟨hclean, he⟩
    exact ⟨identified_step pf hnic h hk he hclean, accepting_step pf k e hk⟩
  exact hinv.mono fun k h => h.1.unique

theorem identity_unique_served :
    Always (step Site.nic) Unique boot
      [Site.bind 0 1#64 true, Site.listen 0 1#64 2#64, Site.synReceived 7#16 tcpSyn,
        Site.accept 0 2#64 5#64, .pollHandshakes 0#64, Site.close 0 5#64] :=
  identity_unique Site.nic _ (by decide) (by decide) (by decide +kernel)

/-! ## A listener that comes late -/

def Site.lateListener : List Event :=
  [Site.listen 0 1#64 2#64, Site.synReceived 6#16 tcpSyn, Site.listen 0 0x10001#64 3#64,
    Site.synReceived 6#16 tcpSyn, Site.accept 0 2#64 5#64, Site.accept 0 3#64 6#64]

theorem Site.lateListener_cells : ∀ i ∈ [2, 3],
    ((run (step Site.nic) Site.shared Site.lateListener).heap.cells i).map
      (fun c => (c.type, c.status, c.tuple)) =
        some (.normal, .waitTxSynack, (Site.syn 6#16 tcpSyn).tuple) := by
  decide +kernel

/-- Two live connections with one 4-tuple. -/
theorem late_listener_duplicates :
    (∀ e ∈ Site.sharedBinds ++ Site.lateListener, e.Serves) ∧
      ¬ Always (step Site.nic) Unique boot (Site.sharedBinds ++ Site.lateListener) := by
  refine ⟨by decide, fun h => ?_⟩
  have hlast := h.last
  rw [run_append, Site.run_sharedBinds] at hlast
  obtain ⟨c, hc, hc'⟩ := map_eq_some_iff.mp (Site.lateListener_cells 2 (by decide))
  obtain ⟨d, hd, hd'⟩ := map_eq_some_iff.mp (Site.lateListener_cells 3 (by decide))
  simp only [Prod.mk.injEq] at hc' hd'
  have heq := hlast.tuples 2 3 c d ⟨hc, hc'.1, by simp [hc'.2.1]⟩ ⟨hd, hd'.1, by simp [hd'.2.1]⟩
    (hc'.2.2.trans hd'.2.2.symm)
  exact absurd heq (by decide)

end MtpXdp.Control

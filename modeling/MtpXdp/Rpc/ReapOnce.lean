import Mathlib.Algebra.BigOperators.Group.List.Basic
import Mathlib.Data.List.Perm.Subperm
import MtpXdp.Rpc.Reaping

/-!
# Every Buffer Is Returned Once

A message that is handed over while it waits for its retransmission goes to the backlog at once: its
buffers are returned and sent afterwards, or, if the retransmission finds `FLAG_UNDER_REAP`, the
address goes to the backlog a second time. `poll_nic_rx_block` does not look at the flags at all. If
the packets keep the two apart, every buffer is returned once.
-/

namespace MtpXdp.Rpc

open MtpXdp.Core
open Ebpf (U32)
open List Function Option

namespace ReapState

variable {s t : ReapState} {es : List ReapEntry} {h a : Nat} {x : Nat}

/-! ## How much is left to reap -/

def pending (s : ReapState) (es : List ReapEntry) : Nat :=
  (es.map fun en => (s.rest en.head).length).sum

theorem pending_cons (s : ReapState) (en : ReapEntry) (es : List ReapEntry) :
    s.pending (en :: es) = (s.rest en.head).length + s.pending es := by
  rw [pending, pending, map_cons, sum_cons]

theorem pending_perm {es' : List ReapEntry} (hp : es.Perm es') : s.pending es = s.pending es' :=
  (hp.map _).sum_eq

theorem Chains.pending_le (hc : Chains s) (hw : Waiting s es) : s.pending es ≤ umemSize := by
  have hpair : es.Pairwise fun x y => (s.rest x.head).Disjoint (s.rest y.head) := by
    refine (pairwise_map.mp hw.nodup).imp ?_
    exact fun hxy => hc.disjoint _ _ hxy
  have hnodup : (es.flatMap fun en => s.rest en.head).Nodup :=
    List.nodup_flatMap.mpr ⟨fun en _ => hc.rest_nodup en.head, hpair⟩
  have hsub : (es.flatMap fun en => s.rest en.head) ⊆ List.range umemSize := by
    intro x hx
    obtain ⟨en, -, hx⟩ := List.mem_flatMap.mp hx
    exact List.mem_range.mpr (hc.range en.head x hx)
  have hle := (List.subperm_of_subset hnodup hsub).length_le
  rw [List.length_range, List.length_flatMap] at hle
  exact hle

theorem pending_returnBuffer (hc : Chains s) (hw : Waiting s (⟨a, h⟩ :: es)) :
    (s.returnBuffer h a).pending (frontier (s.mem a).bufferNext h es) + 1 =
      s.pending (⟨a, h⟩ :: es) := by
  obtain ⟨-, ha⟩ := hw.entry _ mem_cons_self
  obtain ⟨-, hnext⟩ := hc.linked_tail ha
  have hlen : (s.rest h).length = (s.rest h).tail.length + 1 := by
    rw [← cons_head?_tail ha, length_cons, tail_cons]
  have hself : (s.returnBuffer h a).rest h = (s.rest h).tail := by
    rw [rest_returnBuffer, update_self]
  -- the other entries are for other messages
  have hothers : (s.returnBuffer h a).pending es = s.pending es := by
    refine congrArg sum (map_congr_left fun en hen => ?_)
    have hne : en.head ≠ h := fun heq =>
      (nodup_cons.mp hw.nodup).1 (mem_map.mpr ⟨en, hen, heq⟩)
    rw [rest_returnBuffer, update_of_ne hne]
  rw [pending_cons, hlen]
  cases hb : (s.mem a).bufferNext with
  | none =>
    rw [hb] at hnext
    rw [head?_eq_none_iff.mp hnext.symm, length_nil]
    change (s.returnBuffer h a).pending es + 1 = _
    omega
  | some b =>
    change (s.returnBuffer h a).pending (⟨b, h⟩ :: es) + 1 = _
    rw [pending_cons, hself]
    omega

/-! ## `reap_rpc_buffers` -/

structure ReapsOnly (h : Nat) (s t : ReapState) : Prop where
  backlog : t.reapBacklog = s.reapBacklog
  queue : t.retransmissionQueue = s.retransmissionQueue
  buffers : t.buffers = s.buffers
  handed : t.handed = s.handed
  returned : ∀ x, x ≠ h → t.returned x = s.returned x

theorem ReapsOnly.refl (h : Nat) (s : ReapState) : ReapsOnly h s s :=
  ⟨rfl, rfl, rfl, rfl, fun _ _ => rfl⟩

theorem ReapsOnly.trans {u : ReapState} (h₁ : ReapsOnly h s t) (h₂ : ReapsOnly h t u) :
    ReapsOnly h s u where
  backlog := h₂.backlog.trans h₁.backlog
  queue := h₂.queue.trans h₁.queue
  buffers := h₂.buffers.trans h₁.buffers
  handed := h₂.handed.trans h₁.handed
  returned x hx := (h₂.returned x hx).trans (h₁.returned x hx)

theorem reapsOnly_returnBuffer (s : ReapState) (h a : Nat) :
    ReapsOnly h s (s.returnBuffer h a) where
  backlog := rfl
  queue := rfl
  buffers := rfl
  handed := rfl
  returned x hx := by simp [returnBuffer, clearAll, hx]

/-- The rest of the chain is where the loop stopped, and each round has returned one buffer. -/
structure Reaped (h : Nat) (es : List ReapEntry) (s : ReapState) (next : Option Nat)
    (r : Option Nat × Nat × ReapState) : Prop where
  chains : Chains r.2.2
  waiting : Waiting r.2.2 (frontier r.1 h es)
  only : ReapsOnly h s r.2.2
  count : r.2.2.pending (frontier r.1 h es) + r.2.1 = s.pending (frontier next h es)
  progress : next.isSome → 1 ≤ r.2.1

theorem reapLoop_spec {next : Option Nat} (hc : Chains s) (hw : Waiting s (frontier next h es))
    (more : Nat) : Reaped h es s next (reapLoop h more next s) := by
  induction more generalizing s next with
  | zero =>
    cases next with
    | none => exact ⟨hc, hw, .refl h s, rfl, nofun⟩
    | some a =>
      obtain ⟨hh, ha⟩ := hw.entry _ mem_cons_self
      exact ⟨hc.returnBuffer hh ha, hw.returnBuffer hc, reapsOnly_returnBuffer s h a,
        pending_returnBuffer hc hw, fun _ => le_rfl⟩
  | succ more ih =>
    cases next with
    | none => exact ⟨hc, hw, .refl h s, rfl, nofun⟩
    | some a =>
      have hw' : Waiting s (⟨a, h⟩ :: es) := hw
      obtain ⟨hh, ha⟩ := hw'.entry _ mem_cons_self
      -- one buffer is returned, then the rounds that are left
      have hrest := ih (hc.returnBuffer hh ha) (hw'.returnBuffer hc)
      have hone : (s.returnBuffer h a).pending (frontier (s.mem a).bufferNext h es) + 1 =
          s.pending (frontier (some a) h es) := pending_returnBuffer hc hw'
      refine ⟨hrest.chains, hrest.waiting, (reapsOnly_returnBuffer s h a).trans hrest.only, ?_,
        fun _ => Nat.le_add_left 1 _⟩
      rw [← hone, ← hrest.count]
      rfl

theorem addrOfInt_of_lt {next : Option Nat} (hlt : ∀ a, next = some a → a < umemSize) :
    addrOfInt next = next := by
  cases next with
  | none => rfl
  | some a =>
    have ha : a < 64 * 2048 * 4096 := hlt a rfl
    have hval : ((BitVec.ofNat 32 a).signExtend 64).toNat = a := by
      have hmsb : (BitVec.ofNat 32 a).msb = false := by
        rw [BitVec.msb_eq_false_iff_two_mul_lt, BitVec.toNat_ofNat]
        omega
      rw [BitVec.signExtend_eq_setWidth_of_msb_false hmsb, BitVec.toNat_setWidth,
        BitVec.toNat_ofNat]
      omega
    have hne : (BitVec.ofNat 32 a).signExtend 64 ≠ BitVec.allOnes 64 := by
      intro heq
      rw [heq, BitVec.toNat_allOnes] at hval
      omega
    simp only [addrOfInt, if_neg hne, hval]

/-! ## The flags -/

@[simp] theorem setFlag_bufferNext (s : ReapState) (a : Nat) (flag : U32) (x : Nat) :
    ((s.setFlag a flag).mem x).bufferNext = (s.mem x).bufferNext := by
  rcases eq_or_ne x a with rfl | hx
  · simp [setFlag]
  · simp [setFlag, hx]

theorem setFlag_mem_of_ne {flag : U32} (hx : x ≠ a) : (s.setFlag a flag).mem x = s.mem x := by
  simp [setFlag, hx]

@[simp] theorem setFlag_underReap_self (s : ReapState) (a : Nat) (flag : U32) :
    ((s.setFlag a flag).mem a).underReap = decide (flag &&& flagUnderReap ≠ 0) := by
  simp [setFlag]

theorem enqueueReapBacklog_eq (en : ReapEntry)
    (hroom : s.reapBacklog.length ≠ reapBacklogCapacity) : s.enqueueReapBacklog en =
      { s.setFlag en.addr flagUnderReap with reapBacklog := s.reapBacklog ++ [en] } := by
  have hflag : (s.setFlag en.addr flagUnderReap).getFlag en.addr &&&
    flagUnderRetransmission = 0 := by
    simp only [getFlag, setFlag, update_self]
    decide
  simp only [enqueueReapBacklog]
  rw [if_neg (not_not_intro hflag)]
  exact if_neg hroom

theorem Chains.setFlag (hc : Chains s) {flag : U32}
    (hflag : decide (flag &&& flagUnderReap ≠ 0) = (s.mem a).underReap) :
    Chains (s.setFlag a flag) := by
  refine hc.reflag rfl rfl (setFlag_bufferNext s a flag) (fun _ => id) ?_
  intro h hb hr
  rcases eq_or_ne h a with rfl | hne
  · rw [setFlag_underReap_self, hflag]
    exact hc.flagged h hb hr
  · rw [setFlag_mem_of_ne hne]
    exact hc.flagged h hb hr

/-! ## The invariant -/

/-- **The invariant**: messages have chains of their own, under reaping in the backlog, others in
    the retransmission queue. -/
structure Separate (s : ReapState) : Prop where
  chains : Chains s
  waiting : Waiting s s.reapBacklog
  room : s.reapBacklog.length ≤ reapBacklogCapacity
  queued : ∀ rm ∈ s.retransmissionQueue, s.buffers rm.origAddr ≠ [] ∧ s.handed rm.origAddr = false

theorem Fresh.separate (hf : Fresh s) : Separate s := by
  have hrest : s.rest = s.buffers := funext fun h => rest_eq_of_returned_nil (hf.returned h)
  refine ⟨⟨hf.head, hf.nodup, ?_, ?_, ?_, ?_, ?_, ?_⟩, ⟨?_, ?_, ?_⟩, ?_, ?_⟩
  · intro h
    rw [hf.returned h]
    exact nil_prefix
  · exact hrest ▸ hf.disjoint
  · exact hrest ▸ hf.range
  · exact hrest ▸ hf.linked
  · exact fun h _ => hf.returned h
  · intro h hb _
    rw [hf.handed h]
    exact hf.unflagged h hb
  all_goals simp [hf.backlog, hf.handed, hf.queue]

theorem Separate.returnedOnce (h : Separate s) : ReturnedOnce s where
  nodup := h.chains.nodup
  initial := h.chains.initial
  reaped := h.chains.unreaped
  kept x hx hne := by
    refine Or.inl (h.waiting.covers x hx ?_)
    intro hnil
    have hall := h.chains.returned_append_rest x
    rw [hnil, append_nil] at hall
    exact hne hall

/-! ## `flush_reap_backlog` -/

structure Flushed (s t : ReapState) : Prop where
  queue : t.retransmissionQueue = s.retransmissionQueue
  buffers : t.buffers = s.buffers
  handed : t.handed = s.handed
  returned : ∀ h, t.returned h ≠ s.returned h → s.handed h = true

theorem Flushed.trans {u : ReapState} (h₁ : Flushed s t) (h₂ : Flushed t u) : Flushed s u where
  queue := h₂.queue.trans h₁.queue
  buffers := h₂.buffers.trans h₁.buffers
  handed := h₂.handed.trans h₁.handed
  returned h hne := by
    by_cases hst : t.returned h = s.returned h
    · rw [← h₁.handed]
      exact h₂.returned h (hst ▸ hne)
    · exact h₁.returned h hst

structure Reduced (s t : ReapState) : Prop where
  separate : Separate t
  flushed : Flushed s t
  less : t.pending t.reapBacklog < s.pending s.reapBacklog

theorem Reduced.trans {u : ReapState} (h₁ : Reduced s t) (h₂ : Reduced t u) : Reduced s u :=
  ⟨h₂.separate, h₁.flushed.trans h₂.flushed, h₂.less.trans h₁.less⟩

section

variable {en : ReapEntry} {n : Nat} {next : Option Nat}

theorem Separate.reapFirst (hs : Separate s) (hb : s.reapBacklog = en :: es) (more : Nat) :
    Reaped en.head es { s with reapBacklog := es } (some en.addr)
      (reapLoop en.head more (some en.addr) { s with reapBacklog := es }) := by
  have hw : Waiting s (frontier (some en.addr) en.head es) := by
    have hwait := hs.waiting
    rw [hb] at hwait
    exact hwait
  have hpopped : Waiting { s with reapBacklog := es } (frontier (some en.addr) en.head es) :=
    hw.congr rfl rfl rfl
  refine reapLoop_spec ?_ hpopped more
  exact hs.chains.reflag rfl rfl (fun _ => rfl) (fun _ => id) hs.chains.flagged

theorem Reaped.less (hb : s.reapBacklog = en :: es)
    (hr : Reaped en.head es { s with reapBacklog := es } (some en.addr) (next, n, t)) :
    t.pending (frontier next en.head es) < s.pending s.reapBacklog := by
  have hcount : t.pending (frontier next en.head es) + n = s.pending (en :: es) := hr.count
  have hpos : 1 ≤ n := hr.progress rfl
  rw [hb]
  omega

theorem Reaped.flushed (hs : Separate s) (hb : s.reapBacklog = en :: es)
    (hr : Reaped en.head es { s with reapBacklog := es } (some en.addr) (next, n, t)) :
    Flushed s t where
  queue := hr.only.queue
  buffers := hr.only.buffers
  handed := hr.only.handed
  returned h hne := by
    rcases eq_or_ne h en.head with rfl | hx
    · exact (hs.waiting.entry en (hb ▸ mem_cons_self)).1
    · exact absurd (hr.only.returned h hx) hne

theorem Flushed.queued (hs : Separate s) (hf : Flushed s t) (rm : ResendMeta)
    (hrm : rm ∈ t.retransmissionQueue) :
    t.buffers rm.origAddr ≠ [] ∧ t.handed rm.origAddr = false := by
  rw [hf.buffers, hf.handed]
  exact hs.queued rm (hf.queue ▸ hrm)

theorem Reaped.done (hs : Separate s) (hb : s.reapBacklog = en :: es)
    (hr : Reaped en.head es { s with reapBacklog := es } (some en.addr) (none, n, t)) :
    Reduced s t := by
  have hbacklog : t.reapBacklog = es := hr.only.backlog
  have hroom := hs.room
  rw [hb, length_cons] at hroom
  refine ⟨⟨hr.chains, ?_, ?_, (hr.flushed hs hb).queued hs⟩, hr.flushed hs hb, ?_⟩
  · rw [hbacklog]
    exact hr.waiting
  · rw [hbacklog]
    omega
  · rw [hbacklog]
    exact hr.less hb

theorem Reaped.again (hs : Separate s) (hb : s.reapBacklog = en :: es) {a : Nat}
    (hr : Reaped en.head es { s with reapBacklog := es } (some en.addr) (some a, n, t)) :
    Reduced s (t.enqueueReapBacklog ⟨a, en.head⟩) := by
  have hbacklog : t.reapBacklog = es := hr.only.backlog
  have hroom := hs.room
  rw [hb, length_cons] at hroom
  have hwait : Waiting t (⟨a, en.head⟩ :: es) := hr.waiting
  obtain ⟨hh, ha⟩ := hwait.entry _ mem_cons_self
  have hperm : (⟨a, en.head⟩ :: es : List ReapEntry).Perm (es ++ [⟨a, en.head⟩]) :=
    (perm_append_singleton _ _).symm
  have hf := hr.flushed hs hb
  rw [enqueueReapBacklog_eq _ (by rw [hbacklog]; omega), hbacklog]
  refine ⟨⟨?_, ?_, ?_, ?_⟩, ?_, ?_⟩
  · refine Chains.reflag (s := t) hr.chains rfl rfl (setFlag_bufferNext t a _) (fun _ => id) ?_
    intro h hbuf hret
    rcases eq_or_ne h a with rfl | hne
    · -- a first buffer in this chain is the one of this message
      have hself := hr.chains.mem_rest_self hbuf hret
      have heq : h = en.head := by
        by_contra hne
        exact hr.chains.disjoint h en.head hne hself (mem_of_head? ha)
      change ((t.setFlag h flagUnderReap).mem h).underReap = t.handed h
      rw [setFlag_underReap_self, heq, hh]
      rfl
    · change ((t.setFlag a flagUnderReap).mem h).underReap = t.handed h
      rw [setFlag_mem_of_ne hne]
      exact hr.chains.flagged h hbuf hret
  · exact (hwait.perm hperm).congr rfl rfl rfl
  · rw [length_append, length_singleton]
    omega
  · exact fun rm hrm => hf.queued hs rm hrm
  · exact { hf with }
  · have hless : t.pending (⟨a, en.head⟩ :: es) < s.pending s.reapBacklog := hr.less hb
    rw [pending_perm hperm] at hless
    exact hless

end

theorem flushLoop_nil {batch fuel m : Nat} (hb : s.reapBacklog = []) :
    flushLoop batch fuel m s = some s := by
  cases fuel <;> simp [flushLoop, hb]

theorem flushLoop_spec (batch : Nat) {fuel m : Nat} (hs : Separate s)
    (hfuel : s.pending s.reapBacklog ≤ fuel) :
    ∃ t, flushLoop batch fuel m s = some t ∧ (Reduced s t ∨ s.reapBacklog = [] ∧ t = s) := by
  induction fuel generalizing s m with
  | zero =>
    cases hb : s.reapBacklog with
    | nil => exact ⟨s, flushLoop_nil hb, Or.inr ⟨rfl, rfl⟩⟩
    | cons en es =>
      -- an entry has at least one buffer to return, which the fuel would count
      have hless := (hs.reapFirst hb 0).less hb
      omega
  | succ fuel ih =>
    cases hb : s.reapBacklog with
    | nil => exact ⟨s, flushLoop_nil hb, Or.inr ⟨rfl, rfl⟩⟩
    | cons en es =>
      have hr := hs.reapFirst hb ((batch <<< 2) - 1)
      -- the rounds after this one start from a state with less to reap
      have hloop : ∀ t m, Reduced s t →
          ∃ u, flushLoop batch fuel m t = some u ∧ (Reduced s u ∨ en :: es = [] ∧ u = s) := by
        intro t m hred
        obtain ⟨u, hu, hmore | ⟨-, rfl⟩⟩ := ih (m := m) hred.separate
          (Nat.le_of_lt_succ (hred.less.trans_le hfuel))
        · exact ⟨u, hu, Or.inl (hred.trans hmore)⟩
        · exact ⟨u, hu, Or.inl hred⟩
      rw [flushLoop, hb]
      dsimp only
      generalize reapLoop en.head ((batch <<< 2) - 1) (some en.addr)
        { s with reapBacklog := es } = r at hr ⊢
      obtain ⟨next, n, t⟩ := r
      -- the return type of `reap_rpc_buffers` does not cut the address off
      have hrange : ∀ a, next = some a → a < umemSize := by
        rintro a rfl
        have hwait : Waiting t (⟨a, en.head⟩ :: es) := hr.waiting
        exact hr.chains.range en.head a
          (mem_of_head? (hwait.entry _ mem_cons_self).2)
      rw [addrOfInt_of_lt hrange]
      cases next with
      | none => exact hloop t (m + n) (hr.done hs hb)
      | some a =>
        have hred := hr.again hs hb
        dsimp only
        split
        · exact ⟨_, rfl, Or.inl hred⟩
        · exact hloop _ 0 hred

theorem Separate.flushReapBacklog (hs : Separate s) (batch : Nat) :
    ∃ t, s.flushReapBacklog batch = some t ∧ (Reduced s t ∨ s.reapBacklog = [] ∧ t = s) :=
  flushLoop_spec batch hs (hs.chains.pending_le hs.waiting)

/-! ## `flush_rpc_retransmission_queue` -/

theorem Separate.messageTxRetransmission (hs : Separate s) {rm : ResendMeta}
    {queue : List ResendMeta} (hq : s.retransmissionQueue = rm :: queue) (room : Nat)
    (ht : s.messageTxRetransmission rm room = some t) :
    Separate { t with retransmissionQueue := queue } ∧ t.returned = s.returned := by
  obtain ⟨hb, hh⟩ := hs.queued rm (hq ▸ mem_cons_self)
  have hr := hs.chains.unreaped _ hh
  have hflag : (s.mem rm.origAddr).underReap = false := (hs.chains.flagged _ hb hr).trans hh
  -- so `message_tx_retransmission` does not find `FLAG_UNDER_REAP`
  have hword : s.getFlag rm.origAddr &&& flagUnderReap = 0 := by
    rw [getFlag, hflag]
    cases s.underRetransmission rm.origAddr <;> decide
  simp only [ReapState.messageTxRetransmission, map_eq_some_iff] at ht
  obtain ⟨ds, -, rfl⟩ := ht
  rw [if_neg (not_not_intro hword)]
  have hcleared : decide
      ((~~~flagUnderRetransmission &&& s.getFlag rm.origAddr) &&& flagUnderReap ≠ 0) =
        (s.mem rm.origAddr).underReap := by
    rw [BitVec.and_assoc, hword, hflag]
    rfl
  refine ⟨⟨?_, hs.waiting.congr rfl rfl rfl, hs.room, ?_⟩, rfl⟩
  · exact (hs.chains.setFlag hcleared).reflag rfl rfl (fun _ => rfl) (fun _ => id)
      (hs.chains.setFlag hcleared).flagged
  · exact fun rm' hrm' => hs.queued rm' (hq ▸ mem_cons_of_mem _ hrm')

theorem Separate.flushRpcRetransmissionQueue (hs : Separate s) (rooms : List Nat) :
    Separate (s.flushRpcRetransmissionQueue rooms) ∧
      (s.flushRpcRetransmissionQueue rooms).returned = s.returned ∧
      (s.flushRpcRetransmissionQueue rooms).retransmissionQueue.length ≤
        s.retransmissionQueue.length := by
  induction rooms with
  | nil => exact ⟨hs, rfl, le_rfl⟩
  | cons room rooms ih =>
    rw [ReapState.flushRpcRetransmissionQueue]
    cases hq : s.retransmissionQueue with
    | nil => exact ⟨hs, rfl, le_of_eq (congrArg length hq)⟩
    | cons rm queue =>
      dsimp only
      cases ht : s.messageTxRetransmission rm room with
      | none => exact hq ▸ ih
      | some t =>
        obtain ⟨hsep, hret⟩ := hs.messageTxRetransmission hq room ht
        exact ⟨hsep, hret, Nat.le_succ _⟩

/-! ## Packets -/

theorem Separate.handOver (hs : Separate s) (ha : s.Reapable a)
    (hroom : s.reapBacklog.length < reapBacklogCapacity) : Separate (s.handOver a) := by
  obtain ⟨hb, hh, hq⟩ := ha
  have hr := hs.chains.unreaped a hh
  have hself : (s.rest a).head? = some a := by
    rw [rest_eq_of_returned_nil hr]
    exact hs.chains.head a hb
  -- what the backlog has is handed over, and this message is not
  have hnew : ∀ en ∈ s.reapBacklog, en.head ≠ a := by
    rintro en hen rfl
    exact absurd ((hs.waiting.entry en hen).1.symm.trans hh) (by decide)
  rw [ReapState.handOver, enqueueReapBacklog_eq _ hroom.ne]
  refine ⟨?chains, ⟨?nodup, ?entry, ?covers⟩, ?room, ?queued⟩
  case chains =>
    refine Chains.reflag (s := s) hs.chains rfl rfl (setFlag_bufferNext s a _) ?_ ?_
    · intro h hh'
      rcases eq_or_ne h a with rfl | hne
      · exact hh
      · simpa [ReapState.setFlag, hne] using hh'
    · intro h hbuf hret
      have hflag : decide (flagUnderReap &&& flagUnderReap ≠ 0) = true := by decide
      grind [setFlag_underReap_self, setFlag_mem_of_ne, hs.chains.flagged h hbuf hret]
  case nodup =>
    have hnodup := hs.waiting.nodup
    grind
  case entry =>
    intro en hen
    change update s.handed a true en.head = true ∧ (s.rest en.head).head? = some en.addr
    have hentry := hs.waiting.entry
    grind
  case covers =>
    intro h hh' hne
    rcases eq_or_ne h a with rfl | hx
    · exact ⟨⟨h, h⟩, mem_append_right _ mem_cons_self, rfl⟩
    · have hold : s.handed h = true := by simpa [ReapState.setFlag, hx] using hh'
      obtain ⟨en, hen, rfl⟩ := hs.waiting.covers h hold hne
      exact ⟨en, mem_append_left _ hen, rfl⟩
  case room =>
    rw [length_append, length_singleton]
    exact hroom
  case queued =>
    intro rm hrm
    change s.buffers rm.origAddr ≠ [] ∧ update s.handed a true rm.origAddr = false
    rw [update_of_ne (hq rm hrm)]
    exact hs.queued rm hrm

structure HandsOver (as : List Nat) (s t : ReapState) : Prop where
  queue : t.retransmissionQueue = s.retransmissionQueue
  buffers : t.buffers = s.buffers
  returned : t.returned = s.returned
  handed : ∀ h, h ∉ as → t.handed h = s.handed h

theorem handsOver_handOver (hroom : s.reapBacklog.length < reapBacklogCapacity) :
    HandsOver [a] s (s.handOver a) ∧ (s.handOver a).reapBacklog = s.reapBacklog ++ [⟨a, a⟩] := by
  rw [ReapState.handOver, enqueueReapBacklog_eq _ hroom.ne]
  refine ⟨⟨rfl, rfl, rfl, ?_⟩, rfl⟩
  grind

theorem Separate.handOverAll (hs : Separate s) {as : List Nat} (has : s.CanHandOver as) :
    Separate (s.handOverAll as) ∧ HandsOver as s (s.handOverAll as) := by
  induction as generalizing s with
  | nil => exact ⟨hs, rfl, rfl, rfl, fun _ _ => rfl⟩
  | cons a as ih =>
    have hroom := has.room
    rw [length_cons] at hroom
    obtain ⟨hnew, hnodup⟩ := nodup_cons.mp has.nodup
    obtain ⟨hone, hback⟩ := handsOver_handOver (s := s) (a := a) (by omega)
    have hsep := hs.handOver (has.reapable a mem_cons_self) (by omega)
    -- the other addresses of the packet can still be handed over
    have hrest : (s.handOver a).CanHandOver as := by
      refine ⟨hnodup, ?_, ?_⟩
      · intro b hb
        have hold := has.reapable b (mem_cons_of_mem _ hb)
        grind [Reapable, hone.buffers, hone.handed b, hone.queue]
      · rw [hback, length_append, length_singleton]
        omega
    obtain ⟨hfin, hmore⟩ := ih hsep hrest
    refine ⟨hfin, hmore.queue.trans hone.queue, hmore.buffers.trans hone.buffers,
      hmore.returned.trans hone.returned, ?_⟩
    intro h hh
    rw [List.mem_cons, not_or] at hh
    exact (hmore.handed h hh.2).trans (hone.handed h (by simpa using hh.1))

/-! ## RESEND -/

section

variable {free copies : List Nat} {res : Umem × Option ResendMeta}

structure Appended (s t : ReapState) (a : Nat) (free copies : List Nat)
    (res : Umem × Option ResendMeta) : Prop where
  separate : Separate s
  message : s.buffers a ≠ []
  unhanded : s.handed a = false
  unused : s.Unused free
  extended : Extended s.mem free a (s.buffers a) copies res
  mem : t.mem = res.1
  buffers : t.buffers = Function.update s.buffers a (s.buffers a ++ copies)
  returned : t.returned = s.returned
  handed : t.handed = s.handed

namespace Appended

variable (happ : Appended s t a free copies res)
include happ

theorem returned_nil : s.returned a = [] := happ.separate.chains.unreaped a happ.unhanded

theorem rest_self : t.rest a = s.buffers a ++ copies := by
  have hnil : t.returned a = [] := by rw [happ.returned, happ.returned_nil]
  rw [rest_eq_of_returned_nil hnil, happ.buffers, update_self]

theorem rest_of_ne (hx : x ≠ a) : t.rest x = s.rest x := by
  rw [rest, rest, happ.buffers, happ.returned, update_of_ne hx]

theorem mem_rest (hx : x ∈ s.buffers a) : x ∈ s.rest a := by
  rwa [rest_eq_of_returned_nil happ.returned_nil]

theorem fresh (hx : x ∈ copies) (y : Nat) : x ∉ s.rest y :=
  happ.unused.fresh x (happ.extended.taken.subset hx) y

theorem disjoint_rest (hx : x ≠ a) : (t.rest a).Disjoint (s.rest x) := by
  intro y hy hyx
  rw [happ.rest_self] at hy
  rcases mem_append.mp hy with hy | hy
  · exact happ.separate.chains.disjoint a x hx.symm (happ.mem_rest hy) hyx
  · exact happ.fresh hy x hyx

theorem chains : Chains t := by
  have hc := happ.separate.chains
  have hsubset := happ.extended.taken.subset
  -- field by field: the chain of `a` has grown, the others are as before
  refine { head := ?head, nodup := ?nodup, initial := ?initial, disjoint := ?disjoint,
           range := ?range, linked := ?linked, unreaped := ?unreaped, flagged := ?flagged }
  case head =>
    intro x hne
    rw [happ.buffers] at hne ⊢
    grind [head?_append_of_ne_nil, happ.message, hc.head x]
  case nodup =>
    -- the copies come from buffers that no chain has
    intro x
    rw [happ.buffers]
    rcases eq_or_ne x a with rfl | hx
    · have hcopies : copies.Nodup := happ.extended.taken.sublist.nodup happ.unused.nodup
      rw [update_self]
      refine nodup_append.mpr ⟨hc.nodup x, hcopies, ?_⟩
      rintro y hy z hz rfl
      exact happ.fresh hz x (happ.mem_rest hy)
    · rw [update_of_ne hx]
      exact hc.nodup x
  case initial =>
    intro x
    rw [happ.buffers, happ.returned]
    grind [happ.returned_nil, hc.initial x]
  case disjoint =>
    intro x y hxy
    rcases eq_or_ne x a with rfl | hx
    · rw [happ.rest_of_ne hxy.symm]
      exact happ.disjoint_rest hxy.symm
    · rw [happ.rest_of_ne hx]
      rcases eq_or_ne y a with rfl | hy
      · exact fun z hz hza => happ.disjoint_rest hx hza hz
      · rw [happ.rest_of_ne hy]
        exact hc.disjoint x y hxy
  case range =>
    intro x y hy
    rcases eq_or_ne x a with rfl | hx
    · rw [happ.rest_self] at hy
      rcases mem_append.mp hy with hy | hy
      · exact hc.range x y (happ.mem_rest hy)
      · exact happ.unused.range y (hsubset hy)
    · rw [happ.rest_of_ne hx] at hy
      exact hc.range x y hy
  case linked =>
    -- the links of the other chains are not written
    intro x
    rw [happ.mem]
    rcases eq_or_ne x a with rfl | hx
    · rw [happ.rest_self, head?_append_of_ne_nil _ happ.message, hc.head x happ.message]
      exact happ.extended.linked
    · rw [happ.rest_of_ne hx]
      refine (hc.linked x).congr fun y hy => happ.extended.kept y ?_ ?_
      · exact fun hya => hc.disjoint x a hx hy (happ.mem_rest hya)
      · exact fun hyc => happ.fresh hyc x hy
  case unreaped =>
    rw [happ.returned, happ.handed]
    exact hc.unreaped
  case flagged =>
    intro x hne hnil
    have hne' : s.buffers x ≠ [] := by
      rcases eq_or_ne x a with rfl | hx
      · exact happ.message
      · rwa [happ.buffers, update_of_ne hx] at hne
    rw [happ.mem, happ.extended.underReap, happ.handed]
    exact hc.flagged x hne' (happ.returned ▸ hnil)

theorem waiting : Waiting t s.reapBacklog := by
  have hw := happ.separate.waiting
  have hne : ∀ x, s.handed x = true → x ≠ a := by
    rintro x hx rfl
    exact absurd (hx.symm.trans happ.unhanded) (by decide)
  refine ⟨hw.nodup, ?_, ?_⟩
  · intro en hen
    rw [happ.handed, happ.rest_of_ne (hne _ (hw.entry en hen).1)]
    exact hw.entry en hen
  · intro x hx hrest
    rw [happ.handed] at hx
    rw [happ.rest_of_ne (hne x hx)] at hrest
    exact hw.covers x hx hrest

end Appended

/-- At most entries are queued for the message it names, which is not handed over. -/
structure Resent (s t : ReapState) : Prop where
  separate : Separate t
  returned : t.returned = s.returned
  queue : ∃ new, t.retransmissionQueue = s.retransmissionQueue ++ new ∧
    ∀ rm ∈ new, t.handed rm.origAddr = false

theorem Separate.prepareRetransmission (hs : Separate s) (r : ResendHeader)
    (hb : s.buffers a ≠ []) (hh : s.handed a = false) (hu : s.Unused free)
    (henough : askedFor r 0 (s.buffers a).length ≤ free.length) :
    ∃ t, s.prepareRetransmission r a free = some t ∧ Resent s t := by
  have hr := hs.chains.unreaped a hh
  have hrest : s.rest a = s.buffers a := rest_eq_of_returned_nil hr
  have hlink : LinkedFrom s.mem (some a) (s.buffers a) := by
    have hlinked := hs.chains.linked a
    rwa [hrest, hs.chains.head a hb] at hlinked
  -- different frames of the UMEM: the walk along the chain ends within the fuel
  have hfuel : (s.buffers a).length ≤ umemSize := by
    have hsub : s.buffers a ⊆ range umemSize := fun x hx =>
      mem_range.mpr (hs.chains.range a x (hrest.symm ▸ hx))
    have hle := (subperm_of_subset (hs.chains.nodup a) hsub).length_le
    rwa [length_range] at hle
  have hdisj : ∀ x ∈ s.buffers a, x ∉ free := fun x hx hxf =>
    hu.fresh x hxf a (hrest.symm ▸ hx)
  obtain ⟨⟨mem', entry⟩, copies, hres, hext⟩ := prepareRetransmission_spec r hlink
    (hs.chains.nodup a) hfuel hu.nodup hdisj henough
  rw [ReapState.prepareRetransmission, hres, map_some]
  refine ⟨_, rfl, ?_⟩
  cases entry with
  | none =>
    have hcopies : s.buffers = update s.buffers a (s.buffers a ++ copies) := by
      rw [hext.nothing rfl, append_nil, update_eq_self]
    have happ : Appended s { s with mem := mem' } a free copies (mem', none) :=
      ⟨hs, hb, hh, hu, hext, rfl, hcopies, rfl, rfl⟩
    refine ⟨⟨happ.chains, happ.waiting, hs.room, hs.queued⟩, rfl, [], ?_, nofun⟩
    exact (append_nil _).symm
  | some rm =>
    obtain ⟨horig, htake⟩ := hext.entry rm rfl
    dsimp only
    rw [htake]
    have happ : Appended s
        { s with
          mem := mem'
          retransmissionQueue := s.retransmissionQueue ++ [rm]
          buffers := update s.buffers a (s.buffers a ++ copies) }
        a free copies (mem', some rm) := ⟨hs, hb, hh, hu, hext, rfl, rfl, rfl, rfl⟩
    have hnew : ∀ x, s.buffers x ≠ [] →
        update s.buffers a (s.buffers a ++ copies) x ≠ [] := by
      intro x hx
      rcases eq_or_ne x a with rfl | hne
      · rw [update_self]
        exact append_ne_nil_of_left_ne_nil hx copies
      · rwa [update_of_ne hne]
    refine ⟨⟨happ.chains, happ.waiting, hs.room, ?_⟩, rfl, [rm], rfl, ?_⟩
    · intro rm' hrm'
      grind [hs.queued]
    · grind

theorem Separate.resendServer (hs : Separate s) {block : Bool} (r : ResendHeader)
    (hb : s.buffers a ≠ []) (hr : s.returned a = []) (hblock : block = true → s.handed a = false)
    (hu : s.Unused free) (henough : askedFor r 0 (s.buffers a).length ≤ free.length) :
    ∃ t, s.resendServer block r a free = some t ∧ Resent s t := by
  rw [ReapState.resendServer]
  split_ifs with hbl hflags
  · exact hs.prepareRetransmission r hb (hblock hbl) hu henough
  · exact ⟨s, rfl, hs, rfl, [], (append_nil _).symm, nofun⟩
  · -- no flag is set, so the message is not handed over
    have hflag : (s.mem a).underReap = false := by
      by_contra htrue
      rw [getFlag, Bool.eq_true_of_not_eq_false htrue] at hflags
      have hset : ∀ b : Bool, ((if true then flagUnderReap else 0) |||
          (if b then flagUnderRetransmission else 0)) &&&
            (flagUnderReap ||| flagUnderRetransmission) ≠ 0 := by decide
      exact hflags (hset _)
    have hh : s.handed a = false := (hs.chains.flagged a hb hr).symm.trans hflag
    have hmarked : Separate (s.setFlag a flagUnderRetransmission) :=
      ⟨hs.chains.setFlag hflag.symm, hs.waiting.congr rfl rfl rfl, hs.room, hs.queued⟩
    obtain ⟨t, ht, hres⟩ := hmarked.prepareRetransmission r hb hh
      { hu with } henough
    exact ⟨t, ht, hres.separate, hres.returned, hres.queue⟩

end

/-! ## One event -/

theorem queuesUnreaped_of_eq (hq : t.retransmissionQueue = s.retransmissionQueue) :
    QueuesUnreaped s t := by
  intro new hnew rm hrm
  rw [hq, self_eq_append_right] at hnew
  rw [hnew] at hrm
  exact absurd hrm not_mem_nil

theorem Resent.queuesUnreaped (hr : Resent s t) : QueuesUnreaped s t := by
  obtain ⟨new, hnew, hall⟩ := hr.queue
  intro new' hnew' rm hrm
  obtain rfl := append_cancel_left (hnew.symm.trans hnew')
  exact hall rm hrm

theorem returnsUnqueued_of_eq (hr : t.returned = s.returned) : ReturnsUnqueued s t :=
  fun _ hne => absurd (congrFun hr _) hne

theorem Separate.handle (hs : Separate s) {e : ReapEvent} (he : s.Separated e) :
    ∃ t, s.handle e = some t ∧ Separate t ∧ ReturnsUnqueued s t ∧ QueuesUnreaped s t := by
  cases e with
  | data client server =>
    obtain ⟨hsep, hover⟩ := hs.handOverAll he
    exact ⟨_, rfl, hsep, returnsUnqueued_of_eq hover.returned, queuesUnreaped_of_eq hover.queue⟩
  | resend block client server r free =>
    obtain ⟨hcan, hserver⟩ := he
    obtain ⟨hsep, hover⟩ := hs.handOverAll hcan
    cases server with
    | none =>
      exact ⟨_, rfl, hsep, returnsUnqueued_of_eq hover.returned, queuesUnreaped_of_eq hover.queue⟩
    | some a =>
      obtain ⟨hb, hr, hblock, hu, henough⟩ := hserver a rfl
      have hrest := rest_congr hover.buffers hover.returned
      have hunhanded : block = true → (s.handOverAll client.toList).handed a = false := by
        intro hbl
        obtain ⟨hh, hne⟩ := hblock hbl
        rw [hover.handed a (by simpa using hne)]
        exact hh
      have hunused : (s.handOverAll client.toList).Unused free :=
        ⟨hu.nodup, hu.range, hrest ▸ hu.fresh⟩
      obtain ⟨t, ht, hres⟩ := hsep.resendServer r (hover.buffers ▸ hb) (hover.returned ▸ hr)
        hunhanded hunused (hover.buffers ▸ henough)
      refine ⟨t, ht, hres.separate, ?_, ?_⟩
      · exact returnsUnqueued_of_eq (hres.returned.trans hover.returned)
      · have hqueue := hres.queuesUnreaped
        rwa [QueuesUnreaped, hover.queue] at hqueue
  | flushReap batch =>
    obtain ⟨t, ht, hred | ⟨-, rfl⟩⟩ := hs.flushReapBacklog batch
    · refine ⟨t, ht, hred.separate, ?_, queuesUnreaped_of_eq hred.flushed.queue⟩
      -- only messages that are handed over are reaped, and they have no entry
      rintro h hne rm hrm rfl
      have hh := hred.flushed.returned _ hne
      exact absurd (hh.symm.trans (hs.queued rm hrm).2) (by decide)
    · exact ⟨t, ht, hs, returnsUnqueued_of_eq rfl, queuesUnreaped_of_eq rfl⟩
  | flushRetransmission rooms =>
    obtain ⟨hsep, hret, hlen⟩ := hs.flushRpcRetransmissionQueue rooms
    refine ⟨_, rfl, hsep, returnsUnqueued_of_eq hret, ?_⟩
    intro new hnew rm hrm
    rw [hnew, length_append] at hlen
    obtain rfl : new = [] := length_eq_zero_iff.mp (by omega)
    exact absurd hrm not_mem_nil

/-! ## Runs -/

def Running (s : Option ReapState) : Prop :=
  ∃ s₀, s = some s₀ ∧ Separate s₀

theorem Running.step {s : Option ReapState} (hs : Running s) {e : ReapEvent}
    (he : SeparatedAt s e) : Running (step s e) ∧ NoOverlap s e := by
  obtain ⟨s, rfl, hsep⟩ := hs
  obtain ⟨t, ht, hsep', hret, hqueue⟩ := hsep.handle (he s rfl)
  exact ⟨⟨t, ht, hsep'⟩, s, t, rfl, ht, hret, hqueue, hsep'.returnedOnce⟩

theorem Separate.drain (hs : Separate s) (batch : Nat) {n : Nat}
    (hn : s.pending s.reapBacklog ≤ n) :
    ∃ t, run step (some s) (List.replicate n (.flushReap batch)) = some t ∧
      ∀ h, t.handed h = true → t.returned h = t.buffers h := by
  induction n generalizing s with
  | zero =>
    refine ⟨s, rfl, fun h hh => ?_⟩
    have hnil : s.rest h = [] := by
      by_contra hne
      obtain ⟨en, hen, -⟩ := hs.waiting.covers h hh hne
      cases hb : s.reapBacklog with
      | nil => exact absurd (hb ▸ hen) not_mem_nil
      | cons first es =>
        have hless := (hs.reapFirst hb 0).less hb
        omega
    have hall := hs.chains.returned_append_rest h
    rwa [hnil, append_nil] at hall
  | succ n ih =>
    obtain ⟨t, ht, hred | ⟨hnil, rfl⟩⟩ := hs.flushReapBacklog batch
    · rw [List.replicate_succ, run_cons]
      have hstep : step (some s) (.flushReap batch) = some t := ht
      rw [hstep]
      exact ih hred.separate (Nat.le_of_lt_succ (hred.less.trans_le hn))
    · rw [List.replicate_succ, run_cons]
      have hstep : step (some t) (.flushReap batch) = some t := ht
      rw [hstep]
      refine ih hs ?_
      rw [hnil]
      exact Nat.zero_le n

end ReapState

open ReapState

/-- **Reaping and retransmission do not overlap**, and every buffer is returned, if messages are
    handed over once, not while an entry is queued, and no RESEND names one under reaping. -/
theorem noOverlap_of_separated {s : ReapState} (hf : Fresh s) (es : List ReapEvent)
    (hok : Meets step SeparatedAt (some s) es) :
    Meets step NoOverlap (some s) es ∧
      ∀ batch, ∃ t, run step (some s) (es ++ List.replicate umemSize (.flushReap batch)) = some t ∧
        ∀ h, t.handed h = true → t.returned h = t.buffers h := by
  have h0 : Running (some s) := ⟨s, rfl, hf.separate⟩
  have hstep : ∀ s e, Running s → SeparatedAt s e → Running (step s e) :=
    fun _ _ hs he => (hs.step he).1
  refine ⟨meets_of_inv hstep (fun _ _ hs he => (hs.step he).2) h0 hok, ?_⟩
  intro batch
  obtain ⟨t, ht, hsep⟩ := run_of_meets hstep h0 hok
  rw [run_append, ht]
  exact hsep.drain batch (hsep.chains.pending_le hsep.waiting)

def oneMessage : ReapState where
  mem := emptyUmem
  underRetransmission _ := false
  reapBacklog := []
  retransmissionQueue := []
  buffers h := if h = 4096 then [4096] else []
  returned _ := []
  handed _ := false
  sent := []

theorem fresh_oneMessage : Fresh oneMessage := by
  have hone : ∀ h x, x ∈ oneMessage.buffers h → x = 4096 ∧ h = 4096 := by
    intro h x hx
    simp only [oneMessage] at hx
    split_ifs at hx with hh
    · exact ⟨mem_singleton.mp hx, hh⟩
    · exact absurd hx not_mem_nil
  refine ⟨?_, ?_, ?_, ?_, ?_, fun _ _ => rfl, rfl, rfl, fun _ => rfl, fun _ => rfl⟩
  · intro h
    simp only [oneMessage]
    split_ifs
    · exact ⟨rfl, rfl⟩
    · rfl
  · intro h hne
    simp only [oneMessage] at hne ⊢
    split_ifs at hne ⊢ with hh
    · rw [hh]
      rfl
    · exact absurd rfl hne
  · intro h
    simp only [oneMessage]
    split_ifs
    · exact nodup_singleton _
    · exact nodup_nil
  · intro h h' hne x hx hx'
    exact hne ((hone h x hx).2.trans (hone h' x hx').2.symm)
  · intro h x hx
    rw [(hone h x hx).1]
    decide

def resendMessage (block : Bool) : ReapEvent :=
  .resend block none (some 4096) ⟨0#32, 100#32, 0#8⟩ [8192]

/-- A message is handed over while it waits: its buffers are returned with the entry still queued.
    -/
theorem shared_flag_word :
    Fresh oneMessage ∧ ¬ Meets step NoOverlap (some oneMessage)
      [resendMessage false, .data none (some 4096), .flushReap 32] := by
  refine ⟨fresh_oneMessage, ?_⟩
  rintro ⟨-, -, ⟨s, t, hs, ht, hret, -⟩, -⟩
  have hbefore : (run step (some oneMessage) [resendMessage false, .data none (some 4096)]).map
      (fun s => (s.returned 4096, s.retransmissionQueue.map ResendMeta.origAddr)) =
      some ([], [4096]) := by decide +kernel
  have hafter : (run step (some oneMessage)
      [resendMessage false, .data none (some 4096), .flushReap 32]).map
        (fun s => s.returned 4096) = some [4096, 8192] := by decide +kernel
  have hs' : run step (some oneMessage) [resendMessage false, .data none (some 4096)] = some s := hs
  rw [show [resendMessage false, .data none (some 4096), .flushReap 32] =
    [resendMessage false, .data none (some 4096)] ++ [.flushReap 32] from rfl, run_append, hs',
    run_cons, step, bind_some, ht] at hafter
  rw [hs', map_some, some.injEq, Prod.mk.injEq] at hbefore
  obtain ⟨rm, hrm, horig⟩ := mem_map.mp (hbefore.2 ▸ mem_cons_self)
  have hreturned : t.returned 4096 = [4096, 8192] := some.inj hafter
  refine hret 4096 ?_ rm hrm horig
  rw [hreturned, hbefore.1]
  exact cons_ne_nil _ _

def resentThenReaped : List ReapEvent :=
  [resendMessage false, .flushRetransmission [1], .data none (some 4096), .flushReap 32]

theorem separated_resentThenReaped : Meets step SeparatedAt (some oneMessage) resentThenReaped := by
  refine ⟨?_, ?_, ?_, ?_, trivial⟩
  · intro s hs
    obtain rfl := some.inj hs
    refine ⟨⟨nodup_nil, fun _ ha => absurd ha not_mem_nil, by decide⟩, ?_⟩
    intro a ha
    obtain rfl := some.inj ha
    refine ⟨by decide, rfl, fun hb => absurd hb Bool.false_ne_true, ⟨by decide, by decide, ?_⟩,
      by decide⟩
    intro x hx h hxh
    obtain rfl := mem_singleton.mp hx
    simp only [rest, oneMessage, length_nil, drop_zero] at hxh
    split_ifs at hxh
    · exact absurd hxh (by decide)
    · exact absurd hxh not_mem_nil
  · exact fun _ _ => trivial
  · intro s hs
    have hstate : (run step (some oneMessage)
        [resendMessage false, .flushRetransmission [1]]).map
          (fun s => (s.buffers 4096, s.handed 4096, s.retransmissionQueue.length,
            s.reapBacklog.length)) = some ([4096, 8192], false, 0, 0) := by decide +kernel
    have hs' : run step (some oneMessage) [resendMessage false, .flushRetransmission [1]] =
        some s := hs
    rw [hs', map_some, some.injEq] at hstate
    simp only [Prod.mk.injEq, length_eq_zero_iff] at hstate
    obtain ⟨hb, hh, hq, hback⟩ := hstate
    refine ⟨by decide, ?_, ?_⟩
    · intro a ha
      obtain rfl := mem_singleton.mp ha
      refine ⟨hb ▸ cons_ne_nil _ _, hh, ?_⟩
      rw [hq]
      exact fun _ hrm => absurd hrm not_mem_nil
    · rw [hback]
      decide
  · exact fun _ _ => trivial

theorem noOverlap_resentThenReaped :
    Fresh oneMessage ∧ Meets step NoOverlap (some oneMessage) resentThenReaped :=
  ⟨fresh_oneMessage,
    (noOverlap_of_separated fresh_oneMessage _ separated_resentThenReaped).1⟩

end MtpXdp.Rpc

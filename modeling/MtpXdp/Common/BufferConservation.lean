import Mathlib.Algebra.Order.BigOperators.Group.Finset
import MtpXdp.Core.Holding
import MtpXdp.Core.Run
import MtpXdp.Ebpf.State

/-!
# The Buffer Pool Conserves Buffers

`common/xskbp/xsk_buffer_pool.cc`: the frames of a UMEM are handed out through slabs that the pool
and the caches of the threads swap; the table holds the full slabs in front. A call is cut at the
end of its critical section; what the thread does with its new slab is a step of its own (`finish`).
Each call moves buffers from one place to another; so the places hold every buffer once.
-/

namespace MtpXdp.Common

open MtpXdp.Core List Function Finset

def umemFrameSize : Nat := 4096

structure BufferPoolParams where
  nrBuffers : Nat
  nrUsersMax : Nat
  nrBuffersPerSlab : Nat

def initBpParams : BufferPoolParams :=
  { nrBuffers := 64 * 2048, nrUsersMax := 32, nrBuffersPerSlab := 2048 * 2 }

structure BufferPool where
  mem : Nat → Nat → Nat
  slabs : Nat → Nat
  slabsSwap : Nat → Nat
  nrSlabs : Nat
  nrSlabsSwap : Nat
  nrSlabsAvail : Nat
  nrSlabsSwapAvail : Nat

def BufferPoolParams.nrSlabs (p : BufferPoolParams) : Nat :=
  (p.nrBuffers + p.nrBuffersPerSlab - 1) / p.nrBuffersPerSlab

/-- `bp_init`: the slabs of the table hold all frames, those for the caches come after them. -/
def bpInit (p : BufferPoolParams) : BufferPool where
  mem slab k := if slab < p.nrSlabs then (slab * p.nrBuffersPerSlab + k) * umemFrameSize else 0
  slabs i := i
  slabsSwap i := p.nrSlabs + i
  nrSlabs := p.nrSlabs
  nrSlabsSwap := p.nrUsersMax * 2
  nrSlabsAvail := p.nrSlabs
  nrSlabsSwapAvail := p.nrUsersMax * 2

/-! ## The caches of the threads -/

inductive BcachePc where
  | idle
  | gotFull (slab nrReqBuffers : Nat)
  | gotEmpty (slab buffer : Nat)

/-- `struct thread_bcache`, where its thread is, and what its last `check` returned. -/
structure ThreadBcache where
  slabsCons : Nat
  slabsProd : Nat
  nrBuffersCons : Nat
  nrBuffersProd : Nat
  pc : BcachePc
  lastCheck : Nat

structure PoolSystem (τ : Type) where
  params : BufferPoolParams
  bp : BufferPool
  caches : τ → Option ThreadBcache
  outstanding : List Nat

def fixUmemOffset (addr : Nat) : Nat := addr / umemFrameSize * umemFrameSize

def threadBcacheCreate (bp : BufferPool) : BufferPool × Option ThreadBcache :=
  if bp.nrSlabsSwapAvail < 2 then (bp, none)
  else
    ({ bp with nrSlabsSwapAvail := bp.nrSlabsSwapAvail - 2 },
      some
        { slabsCons := bp.slabsSwap (bp.nrSlabsSwapAvail - 1)
          slabsProd := bp.slabsSwap (bp.nrSlabsSwapAvail - 2)
          nrBuffersCons := 0, nrBuffersProd := 0, pc := .idle, lastCheck := 0 })

/-- `thread_bcache_check`: the fast path, or the slow path to the end of its critical section. -/
def threadBcacheCheck (bp : BufferPool) (bc : ThreadBcache) (nrReqBuffers : Nat) :
    BufferPool × ThreadBcache :=
  if bc.nrBuffersCons ≠ 0 then
    (bp, { bc with lastCheck :=
      if bc.nrBuffersCons < nrReqBuffers then bc.nrBuffersCons else nrReqBuffers })
  else if bp.nrSlabsAvail = 0 then (bp, { bc with lastCheck := 0 })
  else
    let avail := bp.nrSlabsAvail - 1
    -- the empty slab of the cache takes the place of the full one
    ({ bp with nrSlabsAvail := avail, slabs := Function.update bp.slabs avail bc.slabsCons },
      { bc with pc := .gotFull (bp.slabs avail) nrReqBuffers })

def threadBcacheCons (bp : BufferPool) (bc : ThreadBcache) : Option (ThreadBcache × Nat) :=
  if 0 < bc.nrBuffersCons then
    let n := bc.nrBuffersCons - 1
    some ({ bc with nrBuffersCons := n, lastCheck := 0 }, bp.mem bc.slabsCons n)
  else none

def BufferPool.store (bp : BufferPool) (slab k buffer : Nat) : BufferPool :=
  { bp with mem := Function.update bp.mem slab (Function.update (bp.mem slab) k buffer) }

def threadBcacheProd (p : BufferPoolParams) (bp : BufferPool) (bc : ThreadBcache)
    (addr : Nat) : BufferPool × ThreadBcache :=
  let buffer := fixUmemOffset addr
  if bc.nrBuffersProd < p.nrBuffersPerSlab then
    (bp.store bc.slabsProd bc.nrBuffersProd buffer,
      { bc with nrBuffersProd := bc.nrBuffersProd + 1 })
  else
    let avail := bp.nrSlabsAvail
    ({ bp with nrSlabsAvail := avail + 1, slabs := Function.update bp.slabs avail bc.slabsProd },
      { bc with pc := .gotEmpty (bp.slabs avail) buffer })

def bcacheFinish (p : BufferPoolParams) (bp : BufferPool) (bc : ThreadBcache) :
    BufferPool × ThreadBcache :=
  match bc.pc with
  | .idle => (bp, bc)
  | .gotFull slab nrReqBuffers =>
    (bp, { bc with
      slabsCons := slab, nrBuffersCons := p.nrBuffersPerSlab, pc := .idle
      lastCheck := nrReqBuffers })
  | .gotEmpty slab buffer =>
    (bp.store slab 0 buffer, { bc with slabsProd := slab, nrBuffersProd := 1, pc := .idle })

/-! ## Interleavings -/

inductive PoolEvent (τ : Type) where
  | create (t : τ)
  | check (t : τ) (nrReqBuffers : Nat)
  | cons (t : τ)
  | prod (t : τ) (addr : Nat)
  | finish (t : τ)

variable {τ : Type} [DecidableEq τ]

def PoolSystem.set (s : PoolSystem τ) (t : τ) (r : BufferPool × ThreadBcache) : PoolSystem τ :=
  { s with bp := r.1, caches := Function.update s.caches t (some r.2) }

def poolStep (s : PoolSystem τ) : PoolEvent τ → PoolSystem τ
  | .create t =>
    let r := threadBcacheCreate s.bp
    { s with bp := r.1, caches := Function.update s.caches t r.2 }
  | .check t n =>
    match s.caches t with
    | none => s
    | some bc => s.set t (threadBcacheCheck s.bp bc n)
  | .cons t =>
    match s.caches t with
    | none => s
    | some bc =>
      match threadBcacheCons s.bp bc with
      | none => s
      | some (bc, buffer) =>
        { s.set t (s.bp, bc) with outstanding := buffer :: s.outstanding }
  | .prod t addr =>
    match s.caches t with
    | none => s
    | some bc =>
      { s.set t (threadBcacheProd s.params s.bp bc addr) with
        outstanding := s.outstanding.erase (fixUmemOffset addr) }
  | .finish t =>
    match s.caches t with
    | none => s
    | some bc => s.set t (bcacheFinish s.params s.bp bc)

def poolInit (p : BufferPoolParams) : PoolSystem τ :=
  { params := p, bp := bpInit p, caches := fun _ => none, outstanding := [] }

def PoolSystem.Ready (s : PoolSystem τ) (t : τ) : Prop :=
  ∃ bc, s.caches t = some bc ∧ bc.pc = .idle

/-- One cache and one call at a time for each thread, `cons` after a successful `check`, and `prod`
    of a buffer that is at a user. -/
def PoolDom (s : PoolSystem τ) : PoolEvent τ → Prop
  | .create t => s.caches t = none
  | .check t _ => s.Ready t
  | .cons t => ∃ bc, s.caches t = some bc ∧ bc.pc = .idle ∧ 1 ≤ bc.lastCheck
  | .prod t addr => s.Ready t ∧ fixUmemOffset addr ∈ s.outstanding
  | .finish _ => True

open ThreadBcache PoolSystem

variable {slab k buffer : Nat} {bc' : ThreadBcache} {bp' bp : BufferPool} {out' : List Nat}
  {τ : Type} {p : BufferPoolParams}

/-! ## Who holds what -/

/-- The slab a cache takes from, which a running `thread_bcache_check` may only have in a local
    variable. -/
def ThreadBcache.consSlab (bc : ThreadBcache) : Nat :=
  match bc.pc with
  | .gotFull slab _ => slab
  | _ => bc.slabsCons

def ThreadBcache.prodSlab (bc : ThreadBcache) : Nat :=
  match bc.pc with
  | .gotEmpty slab _ => slab
  | _ => bc.slabsProd

inductive Holder (τ : Type) where
  | table (i : Nat)
  | swap (i : Nat)
  | cons (t : τ)
  | prod (t : τ)
deriving DecidableEq

def PoolSystem.slabOf (s : PoolSystem τ) : Holder τ → Option Nat
  | .table i => if i < s.bp.nrSlabs then some (s.bp.slabs i) else none
  | .swap i => if i < s.bp.nrSlabsSwapAvail then some (s.bp.slabsSwap i) else none
  | .cons t => (s.caches t).map ThreadBcache.consSlab
  | .prod t => (s.caches t).map ThreadBcache.prodSlab

def slabBuffers (mem : Nat → Nat → Nat) (slab n : Nat) : Multiset Nat :=
  (Multiset.range n).map (mem slab)

def BufferPool.fullBuffers (p : BufferPoolParams) (bp : BufferPool) : Multiset Nat :=
  ∑ i ∈ Finset.range bp.nrSlabsAvail, slabBuffers bp.mem (bp.slabs i) p.nrBuffersPerSlab

def ThreadBcache.consBuffers (p : BufferPoolParams) (mem : Nat → Nat → Nat) (bc : ThreadBcache) :
    Multiset Nat :=
  match bc.pc with
  | .gotFull slab _ => slabBuffers mem slab p.nrBuffersPerSlab
  | _ => slabBuffers mem bc.slabsCons bc.nrBuffersCons

def ThreadBcache.prodBuffers (mem : Nat → Nat → Nat) (bc : ThreadBcache) : Multiset Nat :=
  match bc.pc with
  | .gotEmpty _ buffer => {buffer}
  | _ => slabBuffers mem bc.slabsProd bc.nrBuffersProd

def cacheBuffers (p : BufferPoolParams) (mem : Nat → Nat → Nat) : Option ThreadBcache → Multiset Nat
  | none => 0
  | some bc => bc.consBuffers p mem + bc.prodBuffers mem

def PoolSystem.buffers [Fintype τ] (s : PoolSystem τ) : Multiset Nat :=
  s.bp.fullBuffers s.params + ∑ t, cacheBuffers s.params s.bp.mem (s.caches t) + ↑s.outstanding

def BufferPoolParams.frames (p : BufferPoolParams) : Multiset Nat :=
  (Multiset.range (p.nrSlabs * p.nrBuffersPerSlab)).map (· * umemFrameSize)

/-! ## The invariant -/

/-- The counts stay within the slabs, and after a successful `check` there is a buffer. -/
structure CacheInv (p : BufferPoolParams) (bc : ThreadBcache) : Prop where
  cons_le : bc.nrBuffersCons ≤ p.nrBuffersPerSlab
  prod_le : bc.nrBuffersProd ≤ p.nrBuffersPerSlab
  checked : 1 ≤ bc.lastCheck → 0 < bc.nrBuffersCons
  full : ∀ slab n, bc.pc = .gotFull slab n → bc.nrBuffersCons = 0

structure PoolInv {τ : Type} [Fintype τ] (p : BufferPoolParams) (s : PoolSystem τ) : Prop where
  params : s.params = p
  nrSlabs : s.bp.nrSlabs = p.nrSlabs
  avail_le : s.bp.nrSlabsAvail ≤ s.bp.nrSlabs
  distinct : Distinct s.slabOf
  caches : ∀ t bc, s.caches t = some bc → CacheInv p bc
  buffers : s.buffers = p.frames

section

variable [Fintype τ] [DecidableEq τ] {s : PoolSystem τ}

theorem slabBuffers_store_of_ne (bp : BufferPool) {slab' : Nat} (n : Nat) (hne : slab' ≠ slab) :
    slabBuffers (bp.store slab k buffer).mem slab' n = slabBuffers bp.mem slab' n := by
  simp [slabBuffers, BufferPool.store, update_of_ne hne]

theorem slabBuffers_store_self (bp : BufferPool) (slab n buffer : Nat) :
    slabBuffers (bp.store slab n buffer).mem slab (n + 1) =
      slabBuffers bp.mem slab n + {buffer} := by
  have hold : (Multiset.range n).map (update (bp.mem slab) n buffer) =
      (Multiset.range n).map (bp.mem slab) := by
    apply Multiset.map_congr rfl
    intro k hk
    have hne : k ≠ n := Nat.ne_of_lt (Multiset.mem_range.mp hk)
    rw [update_of_ne hne]
  simp only [slabBuffers, BufferPool.store, update_self, Multiset.range_succ,
    Multiset.map_cons, hold]
  rw [← Multiset.singleton_add, add_comm]

theorem buffers_set (t : τ) (bp' : BufferPool) (c' : Option ThreadBcache) (out' : List Nat)
    (hothers : ∀ u, u ≠ t →
      cacheBuffers s.params bp'.mem (s.caches u) = cacheBuffers s.params s.bp.mem (s.caches u))
    (hbal : bp'.fullBuffers s.params + cacheBuffers s.params bp'.mem c' + ↑out' =
      s.bp.fullBuffers s.params + cacheBuffers s.params s.bp.mem (s.caches t) + ↑s.outstanding) :
    buffers { s with
      bp := bp', caches := update s.caches t c', outstanding := out' } = s.buffers := by
  have hsum := sum_update_add s.caches t c' (cacheBuffers s.params s.bp.mem)
    (cacheBuffers s.params bp'.mem) hothers
  simp only [buffers]
  -- add what the thread held before to both sides, where it cancels
  apply add_right_cancel (b := cacheBuffers s.params s.bp.mem (s.caches t))
  calc bp'.fullBuffers s.params
        + ∑ u, cacheBuffers s.params bp'.mem (update s.caches t c' u) + ↑out'
        + cacheBuffers s.params s.bp.mem (s.caches t)
      = bp'.fullBuffers s.params + (∑ u, cacheBuffers s.params bp'.mem
          (update s.caches t c' u) + cacheBuffers s.params s.bp.mem (s.caches t))
        + ↑out' := by ac_rfl
    _ = (bp'.fullBuffers s.params + cacheBuffers s.params bp'.mem c' + ↑out')
        + ∑ u, cacheBuffers s.params s.bp.mem (s.caches u) := by
      rw [hsum]
      ac_rfl
    _ = _ := by
      rw [hbal]
      ac_rfl

end

/-! ## Calls without a change of slabs -/

section

variable [Fintype τ] [DecidableEq τ] {s : PoolSystem τ} {t : τ} {bc : ThreadBcache}

@[simp] theorem slabBuffers_zero (mem : Nat → Nat → Nat) (slab : Nat) :
    slabBuffers mem slab 0 = 0 := by
  simp [slabBuffers]

theorem slabBuffers_succ (mem : Nat → Nat → Nat) (slab n : Nat) :
    slabBuffers mem slab (n + 1) = slabBuffers mem slab n + {mem slab n} := by
  simp only [slabBuffers, Multiset.range_succ, Multiset.map_cons]
  rw [← Multiset.singleton_add, add_comm]

theorem cacheInv_update (h : PoolInv p s) (hbc' : CacheInv p bc') :
    ∀ u c, update s.caches t (some bc') u = some c → CacheInv p c := by
  intro u c hc
  grind [h.caches u c]

omit [Fintype τ] in
theorem distinct_set (h : Distinct s.slabOf) (hbc : s.caches t = some bc)
    (hslabs : bp'.slabs = s.bp.slabs)
    (hswap : bp'.slabsSwap = s.bp.slabsSwap) (hnr : bp'.nrSlabs = s.bp.nrSlabs)
    (havail : bp'.nrSlabsSwapAvail = s.bp.nrSlabsSwapAvail)
    (hcons : bc'.consSlab = bc.consSlab) (hprod : bc'.prodSlab = bc.prodSlab) :
    Distinct (slabOf { s with
      bp := bp', caches := update s.caches t (some bc'), outstanding := out' }) := by
  have hsame : slabOf { s with
      bp := bp', caches := update s.caches t (some bc'), outstanding := out' } =
      s.slabOf := by
    funext holder
    cases holder with
    | table i => simp [slabOf, hslabs, hnr]
    | swap i => simp [slabOf, hswap, havail]
    | cons u | prod u => grind [slabOf]
  rw [hsame]
  exact h

/-- A thread changes its cache and keeps its slabs; buffers go between the cache and the users. -/
theorem PoolInv.setCache (h : PoolInv p s) (hbc : s.caches t = some bc)
    (hcons : bc'.consSlab = bc.consSlab) (hprod : bc'.prodSlab = bc.prodSlab)
    (hinv : CacheInv p bc')
    (hbal : cacheBuffers p s.bp.mem (some bc') + ↑out' =
      cacheBuffers p s.bp.mem (some bc) + ↑s.outstanding) :
    PoolInv p { s with caches := update s.caches t (some bc'), outstanding := out' } := by
  refine ⟨h.params, h.nrSlabs, h.avail_le, ?_, cacheInv_update h hinv, ?_⟩
  · exact distinct_set h.distinct hbc rfl rfl rfl rfl hcons hprod
  · rw [← h.buffers]
    refine buffers_set t _ _ _ (fun _ _ => rfl) ?_
    rw [hbc, h.params, add_assoc, hbal, add_assoc]

theorem poolInv_setCheck (h : PoolInv p s) (hbc : s.caches t = some bc) (n : Nat)
    (hn : 1 ≤ n → 0 < bc.nrBuffersCons) :
    PoolInv p (s.set t (s.bp, { bc with lastCheck := n })) := by
  have hinv := h.caches t bc hbc
  exact h.setCache hbc rfl rfl ⟨hinv.cons_le, hinv.prod_le, hn, hinv.full⟩ rfl

theorem poolInv_cons (h : PoolInv p s) (hbc : s.caches t = some bc) (hidle : bc.pc = .idle)
    (hpos : 0 < bc.nrBuffersCons) :
    PoolInv p { s.set t (s.bp, { bc with nrBuffersCons := bc.nrBuffersCons - 1, lastCheck := 0 })
      with outstanding := s.bp.mem bc.slabsCons (bc.nrBuffersCons - 1) :: s.outstanding } := by
  have hinv := h.caches t bc hbc
  refine h.setCache hbc rfl rfl ⟨?_, hinv.prod_le, ?_, ?_⟩ ?_
  · have := hinv.cons_le
    dsimp only
    omega
  · intro hcheck
    simp at hcheck
  · intro slab n hpc
    rw [show bc.pc = _ from hidle] at hpc
    cases hpc
  · obtain ⟨n, hn⟩ : ∃ n, bc.nrBuffersCons = n + 1 := ⟨bc.nrBuffersCons - 1, by omega⟩
    simp only [cacheBuffers, consBuffers, prodBuffers, hidle, hn,
      slabBuffers_succ, Nat.add_sub_cancel]
    rw [← Multiset.cons_coe, ← Multiset.singleton_add]
    ac_rfl

/-! ## Stores into a slab -/

theorem consBuffers_store (hne : bc.consSlab ≠ slab) :
    bc.consBuffers p (bp.store slab k buffer).mem = bc.consBuffers p bp.mem := by
  unfold consBuffers
  cases hpc : bc.pc <;> simp only [consSlab, hpc] at hne <;>
    exact slabBuffers_store_of_ne bp _ hne

theorem prodBuffers_store (hne : bc.prodSlab ≠ slab) :
    bc.prodBuffers (bp.store slab k buffer).mem = bc.prodBuffers bp.mem := by
  unfold prodBuffers
  cases hpc : bc.pc <;> simp only [prodSlab, hpc] at hne
  · exact slabBuffers_store_of_ne bp _ hne
  · exact slabBuffers_store_of_ne bp _ hne
  · rfl

theorem fullBuffers_store (hne : ∀ i < bp.nrSlabsAvail, bp.slabs i ≠ slab) :
    (bp.store slab k buffer).fullBuffers p = bp.fullBuffers p := by
  apply sum_congr rfl
  intro i hi
  exact slabBuffers_store_of_ne bp _ (hne i (Finset.mem_range.mp hi))

theorem poolInv_store (h : PoolInv p s) (hbc : s.caches t = some bc)
    (hslab : bc.prodSlab = slab)
    (hcons : bc'.consSlab = bc.consSlab) (hprod : bc'.prodSlab = bc.prodSlab)
    (hsame : ∀ mem, bc'.consBuffers p mem = bc.consBuffers p mem) (hinv : CacheInv p bc')
    (hbal : bc'.prodBuffers (s.bp.store slab k buffer).mem + ↑out' =
      bc.prodBuffers s.bp.mem + ↑s.outstanding) :
    PoolInv p { s with
      bp := s.bp.store slab k buffer
      caches := update s.caches t (some bc')
      outstanding := out' } := by
  subst hslab
  have hmine : s.slabOf (.prod t) = some bc.prodSlab := by simp [slabOf, hbc]
  -- the places of the other slabs
  have htable : ∀ i < s.bp.nrSlabsAvail, s.bp.slabs i ≠ bc.prodSlab := by
    intro i hi heq
    have hlt : i < s.bp.nrSlabs := Nat.lt_of_lt_of_le hi h.avail_le
    cases h.distinct (show s.slabOf (.table i) = some bc.prodSlab by
      simp [slabOf, hlt, heq]) hmine
  have hothersCons : ∀ u c, s.caches u = some c → c.consSlab ≠ bc.prodSlab := by
    intro u c hc heq
    cases h.distinct (show s.slabOf (.cons u) = some bc.prodSlab by
      simp [slabOf, hc, heq]) hmine
  have hothersProd : ∀ u c, u ≠ t → s.caches u = some c → c.prodSlab ≠ bc.prodSlab := by
    intro u c hu hc heq
    have hholder := h.distinct (show s.slabOf (.prod u) = some bc.prodSlab by
      simp [slabOf, hc, heq]) hmine
    cases hholder
    exact hu rfl
  refine ⟨h.params, h.nrSlabs, h.avail_le, ?_, cacheInv_update h hinv, ?_⟩
  · exact distinct_set h.distinct hbc rfl rfl rfl rfl hcons hprod
  · rw [← h.buffers]
    apply buffers_set t
    · intro u hu
      cases hc : s.caches u with
      | none => rfl
      | some c =>
        rw [cacheBuffers, cacheBuffers, consBuffers_store (hothersCons u c hc),
          prodBuffers_store (hothersProd u c hu hc)]
    · rw [hbc, fullBuffers_store htable]
      simp only [cacheBuffers, h.params]
      rw [hsame, consBuffers_store (hothersCons t bc hbc)]
      calc s.bp.fullBuffers p + (bc.consBuffers p s.bp.mem
            + bc'.prodBuffers (s.bp.store bc.prodSlab k buffer).mem) + ↑out'
          = s.bp.fullBuffers p + bc.consBuffers p s.bp.mem
            + (bc'.prodBuffers (s.bp.store bc.prodSlab k buffer).mem + ↑out') := by ac_rfl
        _ = _ := by
          rw [hbal]
          ac_rfl

theorem coe_eq_add_erase {out : List Nat} (hout : buffer ∈ out) :
    (↑out : Multiset Nat) = {buffer} + ↑(out.erase buffer) := by
  exact Multiset.coe_eq_coe.mpr (perm_cons_erase hout)

theorem poolInv_prodFast (h : PoolInv p s) (hbc : s.caches t = some bc) (hidle : bc.pc = .idle)
    (hlt : bc.nrBuffersProd < p.nrBuffersPerSlab) (hout : buffer ∈ s.outstanding) :
    PoolInv p { s.set t (s.bp.store bc.slabsProd bc.nrBuffersProd buffer,
        { bc with nrBuffersProd := bc.nrBuffersProd + 1 }) with
      outstanding := s.outstanding.erase buffer } := by
  have hslab : bc.prodSlab = bc.slabsProd := by simp [prodSlab, hidle]
  have hinv := h.caches t bc hbc
  refine poolInv_store h hbc hslab rfl rfl (fun mem => rfl)
    ⟨hinv.cons_le, hlt, hinv.checked, hinv.full⟩ ?_
  simp only [prodBuffers, hidle]
  rw [slabBuffers_store_self, coe_eq_add_erase hout, add_assoc]

theorem poolInv_finish (h : PoolInv p s) (hpos : 0 < p.nrBuffersPerSlab)
    (hbc : s.caches t = some bc) : PoolInv p (s.set t (bcacheFinish p s.bp bc)) := by
  have hinv := h.caches t bc hbc
  unfold bcacheFinish
  cases hpc : bc.pc with
  | idle => exact h.setCache hbc rfl rfl hinv rfl
  | gotFull slab n =>
    refine h.setCache hbc ?_ ?_ ⟨Nat.le_refl _, hinv.prod_le, fun _ => hpos, ?_⟩ ?_
    · simp [consSlab, hpc]
    · simp [prodSlab, hpc]
    · intro slab' n' hpc'
      cases hpc'
    · simp only [cacheBuffers, consBuffers, prodBuffers, hpc]
  | gotEmpty slab buffer =>
    refine poolInv_store h hbc ?_ ?_ ?_ ?_ ⟨hinv.cons_le, hpos, hinv.checked, ?_⟩ ?_
    · simp [prodSlab, hpc]
    · simp [consSlab, hpc]
    · simp [prodSlab, hpc]
    · intro mem
      simp [consBuffers, hpc]
    · intro slab' n' hpc'
      cases hpc'
    · simp only [prodBuffers, hpc]
      rw [show (1 : Nat) = 0 + 1 from rfl, slabBuffers_store_self, slabBuffers_zero, zero_add]

/-! ## Exchanges of slabs -/

theorem fullBuffers_of_lt (bp : BufferPool) {a : Nat} (havail : bp'.nrSlabsAvail = a)
    (hmem : bp'.mem = bp.mem) (hslabs : ∀ i < a, bp'.slabs i = bp.slabs i) : bp'.fullBuffers p =
      ∑ i ∈ Finset.range a, slabBuffers bp.mem (bp.slabs i) p.nrBuffersPerSlab := by
  unfold BufferPool.fullBuffers
  rw [havail, hmem]
  apply sum_congr rfl
  intro i hi
  rw [hslabs i (Finset.mem_range.mp hi)]

theorem poolInv_create (h : PoolInv p s) (hnone : s.caches t = none) :
    PoolInv p (poolStep s (.create t)) := by
  simp only [poolStep, threadBcacheCreate]
  by_cases hfew : s.bp.nrSlabsSwapAvail < 2
  · -- no slabs left: the thread stays without a cache
    rw [if_pos hfew, show (none : Option ThreadBcache) = s.caches t from hnone.symm, update_eq_self]
    exact h
  · rw [if_neg hfew]
    refine ⟨h.params, h.nrSlabs, h.avail_le, ?_, ?_, ?_⟩
    · -- each slab of the cache stands for the place in the swap table it comes from
      have hcons : ∀ holder : Holder τ, holder ≠ .cons t →
        holder ≠ .swap (s.bp.nrSlabsSwapAvail - 1) →
          Equiv.swap (.cons t) (.swap (s.bp.nrSlabsSwapAvail - 1)) holder = holder :=
        fun holder => Equiv.swap_apply_of_ne_of_ne
      have hprod : ∀ holder : Holder τ, holder ≠ .prod t →
        holder ≠ .swap (s.bp.nrSlabsSwapAvail - 2) →
          Equiv.swap (.prod t) (.swap (s.bp.nrSlabsSwapAvail - 2)) holder = holder :=
        fun holder => Equiv.swap_apply_of_ne_of_ne
      apply h.distinct.rename fun holder =>
        Equiv.swap (.cons t) (.swap (s.bp.nrSlabsSwapAvail - 1))
          (Equiv.swap (.prod t) (.swap (s.bp.nrSlabsSwapAvail - 2)) holder)
      · intro holder a ha
        cases holder with
        | table i =>
          exact ha
        | swap i =>
          have hi : i < s.bp.nrSlabsSwapAvail - 2 := by
            by_contra hge
            simp [slabOf, hge] at ha
          rw [hprod _ (by simp) (by simp; omega), hcons _ (by simp) (by simp; omega)]
          simpa [slabOf, hi, show i < s.bp.nrSlabsSwapAvail by omega] using ha
        | cons u =>
          rw [hprod _ (by simp) (by simp)]
          by_cases hu : u = t
          · subst hu
            simpa [slabOf, consSlab, show
              s.bp.nrSlabsSwapAvail - 1 < s.bp.nrSlabsSwapAvail by omega] using ha
          · rw [hcons _ (by simpa using hu) (by simp)]
            simpa [slabOf, update_of_ne hu] using ha
        | prod u =>
          by_cases hu : u = t
          · subst hu
            rw [Equiv.swap_apply_left, hcons _ (by simp) (by simp; omega)]
            simpa [slabOf, prodSlab, show
              s.bp.nrSlabsSwapAvail - 2 < s.bp.nrSlabsSwapAvail by omega] using ha
          · rw [hprod _ (by simpa using hu) (by simp), hcons _ (by simp) (by simp)]
            simpa [slabOf, update_of_ne hu] using ha
      · intro holder holder' a _ _ heq
        exact (Equiv.injective _) ((Equiv.injective _) heq)
    · exact cacheInv_update h ⟨Nat.zero_le _, Nat.zero_le _, by simp, by simp⟩
    · rw [← h.buffers]
      refine buffers_set t _ _ _ (fun _ _ => rfl) ?_
      rw [hnone]
      simp [cacheBuffers, consBuffers, prodBuffers, BufferPool.fullBuffers]

omit [Fintype τ] in
theorem distinct_exchange {i : Nat}
    {holder : Holder τ} (h : Distinct s.slabOf) (hbc : s.caches t = some bc)
    (hi : i < s.bp.nrSlabs) (hslabs : bp'.slabs = update s.bp.slabs i slab)
    (hswap : bp'.slabsSwap = s.bp.slabsSwap) (hnr : bp'.nrSlabs = s.bp.nrSlabs)
    (havail : bp'.nrSlabsSwapAvail = s.bp.nrSlabsSwapAvail)
    (hside : (holder = .cons t ∧ bc.consSlab = slab ∧ bc'.consSlab = s.bp.slabs i ∧
        bc'.prodSlab = bc.prodSlab) ∨
      (holder = .prod t ∧ bc.prodSlab = slab ∧ bc'.prodSlab = s.bp.slabs i ∧
        bc'.consSlab = bc.consSlab)) :
    Distinct (slabOf { s with
      bp := bp', caches := update s.caches t (some bc'), outstanding := out' }) := by
  apply h.exchange (.table i) holder
  intro place
  have hfix : ∀ place : Holder τ, place ≠ .table i → place ≠ holder →
      Equiv.swap (.table i) holder place = place := fun _ => Equiv.swap_apply_of_ne_of_ne
  cases place with
  | table j =>
    by_cases hj : j = i
    · subst hj
      rcases hside with ⟨rfl, hold, -, -⟩ | ⟨rfl, hold, -, -⟩ <;>
        simp [slabOf, hnr, hi, hslabs, hbc, hold]
    · rw [hfix _ (by simpa using hj) (by rcases hside with ⟨rfl, -⟩ | ⟨rfl, -⟩ <;> simp)]
      simp [slabOf, hnr, hslabs, update_of_ne hj]
  | swap j =>
    rw [hfix _ (by simp) (by rcases hside with ⟨rfl, -⟩ | ⟨rfl, -⟩ <;> simp)]
    simp [slabOf, hswap, havail]
  | cons u =>
    by_cases hu : u = t
    · subst hu
      rcases hside with ⟨rfl, -, hnew, -⟩ | ⟨rfl, -, -, hsame⟩
      · rw [Equiv.swap_apply_right]
        simp [slabOf, hi, hnew]
      · rw [hfix _ (by simp) (by simp)]
        simp [slabOf, hbc, hsame]
    · rw [hfix _ (by simp) (by rcases hside with ⟨rfl, -⟩ | ⟨rfl, -⟩ <;> simp [hu])]
      simp [slabOf, update_of_ne hu]
  | prod u =>
    by_cases hu : u = t
    · subst hu
      rcases hside with ⟨rfl, -, -, hsame⟩ | ⟨rfl, -, hnew, -⟩
      · rw [hfix _ (by simp) (by simp)]
        simp [slabOf, hbc, hsame]
      · rw [Equiv.swap_apply_right]
        simp [slabOf, hi, hnew]
    · rw [hfix _ (by simp) (by rcases hside with ⟨rfl, -⟩ | ⟨rfl, -⟩ <;> simp [hu])]
      simp [slabOf, update_of_ne hu]

theorem poolInv_check (h : PoolInv p s) (hbc : s.caches t = some bc) (hidle : bc.pc = .idle)
    (n : Nat) : PoolInv p (s.set t (threadBcacheCheck s.bp bc n)) := by
  have hinv := h.caches t bc hbc
  unfold threadBcacheCheck
  by_cases hcons : bc.nrBuffersCons ≠ 0
  · rw [if_pos hcons]
    exact poolInv_setCheck h hbc _ fun _ => Nat.pos_of_ne_zero hcons
  rw [if_neg hcons]
  by_cases hnone : s.bp.nrSlabsAvail = 0
  · rw [if_pos hnone]
    exact poolInv_setCheck h hbc 0 (by simp)
  rw [if_neg hnone]
  have hzero : bc.nrBuffersCons = 0 := by simpa using hcons
  obtain ⟨a, ha⟩ : ∃ a, s.bp.nrSlabsAvail = a + 1 := ⟨s.bp.nrSlabsAvail - 1, by omega⟩
  have hle := h.avail_le
  rw [ha, Nat.add_sub_cancel]
  refine ⟨h.params, h.nrSlabs, by dsimp only [PoolSystem.set]; omega, ?_, cacheInv_update h ?_, ?_⟩
  · refine distinct_exchange h.distinct hbc (show a < s.bp.nrSlabs by omega) rfl rfl rfl rfl
      (.inl ⟨rfl, ?_, rfl, ?_⟩)
    · simp [consSlab, hidle]
    · simp [prodSlab, hidle]
  · exact ⟨hinv.cons_le, hinv.prod_le, hinv.checked, fun _ _ _ => hzero⟩
  · rw [← h.buffers]
    refine buffers_set t _ _ _ (fun _ _ => rfl) ?_
    have hnew : BufferPool.fullBuffers s.params { s.bp with
        nrSlabsAvail := a, slabs := update s.bp.slabs a bc.slabsCons } = _ :=
      fullBuffers_of_lt s.bp rfl rfl fun i (hi : i < a) =>
        update_of_ne (Nat.ne_of_lt hi) _ _
    have hold : s.bp.fullBuffers s.params = _ := fullBuffers_of_lt s.bp ha rfl fun _ _ => rfl
    rw [hbc, hnew, hold, Finset.sum_range_succ]
    simp only [cacheBuffers, consBuffers, prodBuffers, hidle, hzero,
      slabBuffers_zero]
    ac_rfl

theorem poolInv_prodSlow (h : PoolInv p s) (hbc : s.caches t = some bc) (hidle : bc.pc = .idle)
    (hfull : bc.nrBuffersProd = p.nrBuffersPerSlab)
    (hroom : s.bp.nrSlabsAvail < s.bp.nrSlabs) (hout : buffer ∈ s.outstanding) :
    PoolInv p { s.set t ({ s.bp with
          nrSlabsAvail := s.bp.nrSlabsAvail + 1
          slabs := update s.bp.slabs s.bp.nrSlabsAvail bc.slabsProd },
        { bc with pc := .gotEmpty (s.bp.slabs s.bp.nrSlabsAvail) buffer }) with
      outstanding := s.outstanding.erase buffer } := by
  have hinv := h.caches t bc hbc
  refine ⟨h.params, h.nrSlabs, hroom, ?_, cacheInv_update h ?_, ?_⟩
  · refine distinct_exchange h.distinct hbc hroom rfl rfl rfl rfl (.inr ⟨rfl, ?_, rfl, ?_⟩)
    · simp [prodSlab, hidle]
    · simp [consSlab, hidle]
  · refine ⟨hinv.cons_le, hinv.prod_le, hinv.checked, ?_⟩
    intro slab n hpc
    cases hpc
  · rw [← h.buffers]
    refine buffers_set t _ _ _ (fun _ _ => rfl) ?_
    have hnew : BufferPool.fullBuffers s.params { s.bp with
        nrSlabsAvail := s.bp.nrSlabsAvail + 1
        slabs := update s.bp.slabs s.bp.nrSlabsAvail bc.slabsProd } =
        s.bp.fullBuffers s.params +
          slabBuffers s.bp.mem bc.slabsProd s.params.nrBuffersPerSlab := by
      unfold BufferPool.fullBuffers
      dsimp only
      rw [Finset.sum_range_succ, update_self]
      congr 1
      apply sum_congr rfl
      intro i hi
      rw [update_of_ne (Nat.ne_of_lt (Finset.mem_range.mp hi))]
    dsimp only [PoolSystem.set]
    rw [hbc, hnew, coe_eq_add_erase hout]
    simp only [cacheBuffers, consBuffers, prodBuffers, hidle, hfull,
      h.params]
    ac_rfl

omit [DecidableEq τ] in
theorem avail_lt (h : PoolInv p s) (hout : s.outstanding ≠ []) :
    s.bp.nrSlabsAvail < s.bp.nrSlabs := by
  have hcard := congrArg Multiset.card h.buffers
  have hslab : ∀ mem slab n, (slabBuffers mem slab n).card = n := by
    simp [slabBuffers]
  have hfullCard : (s.bp.fullBuffers s.params).card = s.bp.nrSlabsAvail * p.nrBuffersPerSlab := by
    rw [BufferPool.fullBuffers, Multiset.card_sum, h.params]
    simp only [hslab, sum_const, card_range]
    rfl
  have hpositive : 0 < s.outstanding.length := length_pos_of_ne_nil hout
  simp only [buffers, BufferPoolParams.frames, Multiset.card_add, Multiset.coe_card,
    Multiset.card_map, Multiset.card_range, hfullCard] at hcard
  rw [h.nrSlabs]
  by_contra hge
  have := Nat.mul_le_mul_right p.nrBuffersPerSlab (Nat.not_lt.mp hge)
  omega

/-! ## Interleavings -/

theorem poolInv_prod (h : PoolInv p s) (hbc : s.caches t = some bc) (hidle : bc.pc = .idle)
    {addr : Nat}
    (hout : fixUmemOffset addr ∈ s.outstanding) :
    PoolInv p { s.set t (threadBcacheProd s.params s.bp bc addr) with
      outstanding := s.outstanding.erase (fixUmemOffset addr) } := by
  have hinv := h.caches t bc hbc
  unfold threadBcacheProd
  rw [h.params]
  by_cases hlt : bc.nrBuffersProd < p.nrBuffersPerSlab
  · rw [if_pos hlt]
    exact poolInv_prodFast h hbc hidle hlt hout
  · rw [if_neg hlt]
    have hfull : bc.nrBuffersProd = p.nrBuffersPerSlab := by
      have := hinv.prod_le
      omega
    exact poolInv_prodSlow h hbc hidle hfull (avail_lt h (ne_nil_of_mem hout)) hout

theorem poolInv_step (h : PoolInv p s) (hpos : 0 < p.nrBuffersPerSlab) {e : PoolEvent τ}
    (hdom : PoolDom s e) : PoolInv p (poolStep s e) := by
  cases e with
  | create t => exact poolInv_create h hdom
  | check t n =>
    obtain ⟨bc, hbc, hidle⟩ := hdom
    simp only [poolStep, hbc]
    exact poolInv_check h hbc hidle n
  | cons t =>
    obtain ⟨bc, hbc, hidle, hcheck⟩ := hdom
    have hcons := (h.caches t bc hbc).checked hcheck
    simp only [poolStep, hbc, threadBcacheCons, if_pos hcons]
    exact poolInv_cons h hbc hidle hcons
  | prod t addr =>
    obtain ⟨⟨bc, hbc, hidle⟩, hout⟩ := hdom
    simp only [poolStep, hbc]
    exact poolInv_prod h hbc hidle hout
  | finish t =>
    cases hbc : s.caches t with
    | none =>
      simp only [poolStep, hbc]
      exact h
    | some bc =>
      simp only [poolStep, hbc, h.params]
      exact poolInv_finish h hpos hbc

omit [DecidableEq τ] in
theorem poolInv_init (p : BufferPoolParams) : PoolInv p (poolInit p : PoolSystem τ) where
  params := rfl
  nrSlabs := rfl
  avail_le := Nat.le_refl _
  distinct := by
    intro holder holder' a ha ha'
    -- the slabs of the table come before those of the swap table
    cases holder <;> cases holder' <;>
      simp only [slabOf, poolInit, bpInit, Option.map_none, reduceCtorEq] at ha ha' <;> grind
  caches := by
    intro t bc hbc
    cases hbc
  buffers := by
    have hcaches : ∑ t : τ, cacheBuffers p (bpInit p).mem ((fun _ => none) t) = 0 :=
      sum_eq_zero fun _ _ => rfl
    have hfull : ∀ n ≤ p.nrSlabs, ∑ i ∈ range n,
        slabBuffers (bpInit p).mem ((bpInit p).slabs i) p.nrBuffersPerSlab =
        (Multiset.range (n * p.nrBuffersPerSlab)).map (· * umemFrameSize) := by
      intro n
      induction n with
      | zero => simp
      | succ n ih =>
        intro hn
        have hslab : slabBuffers (bpInit p).mem ((bpInit p).slabs n) p.nrBuffersPerSlab =
            (Multiset.range p.nrBuffersPerSlab).map
              (fun k => (n * p.nrBuffersPerSlab + k) * umemFrameSize) := by
          simp [slabBuffers, bpInit, show n < p.nrSlabs from hn]
        rw [Finset.sum_range_succ, ih (by omega), hslab, Nat.succ_mul, Multiset.range_add,
          Multiset.map_add, Multiset.map_map]
        rfl
    simp only [buffers, poolInit, hcaches, Multiset.coe_nil, add_zero]
    exact hfull p.nrSlabs (Nat.le_refl _)

end

theorem nodup_frames (p : BufferPoolParams) : p.frames.Nodup := by
  apply Multiset.Nodup.map _ (Multiset.nodup_range _)
  intro i j hij
  exact Nat.eq_of_mul_eq_mul_right (by decide) hij

/-! ## What is asked of the pool -/

section

variable [Fintype τ] [DecidableEq τ]

structure Conserved (p : BufferPoolParams) (s : PoolSystem τ) : Prop where
  frames : s.buffers = p.frames
  once : s.buffers.Nodup
  slabs : Distinct s.slabOf

/-- There is room for a slab stored by `thread_bcache_prod`, and `thread_bcache_cons` finds a
    buffer. -/
def PoolSafe (s : PoolSystem τ) : PoolEvent τ → Prop
  | .cons t => ∀ bc, s.caches t = some bc → 0 < bc.nrBuffersCons
  | .prod t _ => ∀ bc, s.caches t = some bc → ¬ bc.nrBuffersProd < s.params.nrBuffersPerSlab →
      s.bp.nrSlabsAvail < s.bp.nrSlabs
  | _ => True

omit [DecidableEq τ] in
theorem poolSafe_of_inv {p : BufferPoolParams} {s : PoolSystem τ} (h : PoolInv p s)
    {e : PoolEvent τ} (hdom : PoolDom s e) : PoolSafe s e := by
  cases e with
  | create | check | finish => trivial
  | cons t =>
    obtain ⟨bc, hbc, -, hcheck⟩ := hdom
    intro bc' hbc'
    obtain rfl : bc = bc' := Option.some.inj (hbc.symm.trans hbc')
    exact (h.caches t bc hbc).checked hcheck
  | prod t addr => exact fun _ _ _ => avail_lt h (ne_nil_of_mem hdom.2)

/-- **The buffer pool conserves buffers**: every frame is in one place, no slab is held twice, and
    no assertion fails. -/
theorem pool_conserves_buffers (p : BufferPoolParams) (hpos : 0 < p.nrBuffersPerSlab)
    (es : List (PoolEvent τ)) (hdom : Meets poolStep PoolDom (poolInit p) es) :
    Always poolStep (Conserved p) (poolInit p) es ∧ Meets poolStep PoolSafe (poolInit p) es := by
  have hstep : ∀ (s : PoolSystem τ) e, PoolInv p s → PoolDom s e → PoolInv p (poolStep s e) :=
    fun s e h hdom => poolInv_step h hpos hdom
  constructor
  · refine (always_of_meets hstep (poolInv_init p) hdom).mono fun s h => ⟨h.buffers, ?_, h.distinct⟩
    rw [h.buffers]
    exact nodup_frames p
  · exact meets_of_inv hstep (fun s e h hdom => poolSafe_of_inv h hdom) (poolInv_init p) hdom

end

theorem pool_conserves_buffers_at :
    let es : List (PoolEvent (Fin 2)) := [.create 0, .check 0 1, .finish 0, .cons 0, .create 1,
      .prod 1 (131071 * 4096 + 256)]
    Always poolStep (Conserved initBpParams) (poolInit initBpParams) es ∧
      Meets poolStep PoolSafe (poolInit initBpParams) es := by
  refine pool_conserves_buffers initBpParams (by decide) _ ?_
  refine ⟨rfl, ⟨_, rfl, rfl⟩, trivial, ⟨_, rfl, rfl, by decide⟩, rfl, ⟨⟨_, rfl, rfl⟩, ?_⟩, trivial⟩
  decide

end MtpXdp.Common

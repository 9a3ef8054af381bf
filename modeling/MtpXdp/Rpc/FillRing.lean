import MtpXdp.Core.Run
import MtpXdp.Ebpf.State

/-!
# Replenishment of the Fill Rings

Each frame that `poll_nic_rx` receives leaves a gap in its fill ring. At the end of a call the
thread reserves `need_fill` descriptors, writes a buffer to each, and submits. When the cache runs
dry after `j` of them, `cached_prod` is set back by `need_fill - j`, but `eTran_fq__submit`
publishes `need_fill` descriptors: the kernel sees some that were not written, and its producer
index stays ahead of the library's.
-/

namespace MtpXdp.Rpc

open MtpXdp.Core
open Ebpf (U32 U64)
open List BitVec Function

/-! ## The ring -/

/-- `xsk_ring_prod` of a fill ring, with the producer index it shares with the kernel. -/
structure FillRing where
  cachedProd : U32
  cachedCons : U32
  mask : U32
  size : U32
  producer : U32
  slots : U32 → U64
  /-- history: the number of descriptors given to `eTran_fq__submit` -/
  published : Nat
  written : List U64

namespace FillRing

/-- `xsk_prod_nb_free`; `consumer` is the index that the kernel has reached. -/
def nbFree (r : FillRing) (nb consumer : U32) : FillRing × U32 :=
  let freeEntries := r.cachedCons - r.cachedProd
  if nb ≤ freeEntries then (r, freeEntries)
  else
    let r := { r with cachedCons := consumer + r.size }
    (r, r.cachedCons - r.cachedProd)

/-- `eTran_fq__reserve`: the first of the `nb` descriptors, if there is room. -/
def reserve (r : FillRing) (nb consumer : U32) : FillRing × Option U32 :=
  let (r, free) := r.nbFree nb consumer
  if free < nb then (r, none) else ({ r with cachedProd := r.cachedProd + nb }, some r.cachedProd)

/-- Tried again until it succeeds; `consumers` has the kernel's index at each attempt. `none`: no
    room so far. -/
def reserveLoop (nb : U32) : List U32 → FillRing → Option (FillRing × U32)
  | [], _ => none
  | consumer :: consumers, r =>
    match r.reserve nb consumer with
    | (r, none) => reserveLoop nb consumers r
    | (r, some idx) => some (r, idx)

def fillAddr (r : FillRing) (idx : U32) (addr : U64) : FillRing :=
  { r with
    slots := update r.slots (idx &&& r.mask) addr
    written := r.written ++ [addr] }

/-- The ring and the buffers written, with `n` descriptors left; `supply` is for
    `thread_bcache_cons`. -/
def fillLoop : Nat → U32 → List U64 → FillRing → FillRing × Nat
  | 0, _, _, r => (r, 0)
  | _ + 1, _, [], r => (r, 0)
  | n + 1, idx, addr :: supply, r =>
    let (r, j) := fillLoop n (idx + 1) supply (r.fillAddr idx addr)
    (r, j + 1)

def submit (r : FillRing) (nb : U32) : FillRing :=
  { r with producer := r.producer + nb, published := r.published + nb.toNat }

end FillRing

/-- The kernel's index at each attempt to reserve, and the buffers that the cache can give. -/
structure Fill where
  consumers : List U32
  supply : List U64

def replenish (r : FillRing) (needFill : U32) (f : Fill) : Option (FillRing × U32) :=
  match r.reserveLoop needFill f.consumers with
  | none => none
  | some (r, idx) =>
    let (r, n) := r.fillLoop needFill.toNat idx f.supply
    let j : U32 := BitVec.ofNat 32 n
    -- the rollback does not change what is submitted
    let r := if j < needFill then { r with cachedProd := r.cachedProd - (needFill - j) } else r
    some (r.submit needFill, j)

/-! ## Threads -/

/-- `fixed_size_vector_32` keeps one of its 32 places free. -/
def fqidxCapacity : Nat := 31

structure RxThread where
  cachedNeedfill : Nat → U32
  cachedFqidx : List Nat
  received : Nat → Nat
  replenished : Nat → Nat

structure RxApp where
  qid2idx : U32 → Nat
  rings : Nat → FillRing
  threads : Nat → RxThread

namespace RxThread

/-- A received frame leaves a gap; `push` fails on a full queue. -/
def noteFrame (t : RxThread) (q : Nat) : RxThread :=
  { t with
    cachedNeedfill := update t.cachedNeedfill q (t.cachedNeedfill q + 1)
    cachedFqidx :=
      if t.cachedNeedfill q = 0 ∧ t.cachedFqidx.length < fqidxCapacity then t.cachedFqidx ++ [q]
      else t.cachedFqidx
    received := update t.received q (t.received q + 1) }

/-- `j` gaps of the first ring are filled. `cancel_pop` leaves the ring there when there are more.
    -/
def noteFill (t : RxThread) (q : Nat) (rest : List Nat) (j : U32) : RxThread :=
  { t with
    cachedNeedfill := update t.cachedNeedfill q (t.cachedNeedfill q - j)
    cachedFqidx := if t.cachedNeedfill q - j = 0 then rest else t.cachedFqidx
    replenished := update t.replenished q (t.replenished q + j.toNat) }

end RxThread

namespace RxApp

def noteFrame (s : RxApp) (t : Nat) (qid : U32) : RxApp :=
  { s with threads := update s.threads t ((s.threads t).noteFrame (s.qid2idx qid)) }

/-- One round, and whether there is another; a reservation that fails keeps the thread in this one.
    -/
def refillQueue (s : RxApp) (t : Nat) (f : Fill) : RxApp × Bool :=
  match (s.threads t).cachedFqidx with
  | [] => (s, false)
  | q :: rest =>
    match replenish (s.rings q) ((s.threads t).cachedNeedfill q) f with
    | none => (s, false)
    | some (r, j) =>
      ({ s with
          rings := update s.rings q r
          threads := update s.threads t ((s.threads t).noteFill q rest j) },
        (s.threads t).cachedNeedfill q - j = 0)

def refillLoop (t : Nat) : List Fill → RxApp → RxApp
  | [], s => s
  | f :: fs, s => if (s.refillQueue t f).2 then refillLoop t fs (s.refillQueue t f).1
    else (s.refillQueue t f).1

def pollNicRx (s : RxApp) (t : Nat) (active : List (List U32)) (fills : List Fill) : RxApp :=
  if active = [] then s
  else refillLoop t fills (active.flatten.foldl (fun s qid => s.noteFrame t qid) s)

end RxApp

/-! ## Single steps -/

/-- Those of two threads may alternate: only a round of the loop is under the lock of its ring. -/
inductive RxStep where
  | frame (t : Nat) (qid : U32)
  | refill (t : Nat) (f : Fill)

def rxStep (s : RxApp) : RxStep → RxApp
  | .frame t qid => s.noteFrame t qid
  | .refill t f => (s.refillQueue t f).1

section

variable (s : RxApp) (t : Nat)

theorem foldl_noteFrame (qids : List U32) :
    qids.foldl (fun s qid => s.noteFrame t qid) s = run rxStep s (qids.map (.frame t)) := by
  induction qids generalizing s with
  | nil => rfl
  | cons qid qids ih => exact ih (s.noteFrame t qid)

theorem refillLoop_eq_run (fills : List Fill) :
    ∃ n, s.refillLoop t fills = run rxStep s ((fills.take n).map (.refill t)) := by
  induction fills generalizing s with
  | nil => exact ⟨0, rfl⟩
  | cons f fs ih =>
    unfold RxApp.refillLoop
    split_ifs with hmore
    · obtain ⟨n, hn⟩ := ih (s.refillQueue t f).1
      exact ⟨n + 1, hn⟩
    · exact ⟨1, rfl⟩

theorem pollNicRx_eq_run (active : List (List U32)) (fills : List Fill) :
    ∃ n, s.pollNicRx t active fills =
      run rxStep s (active.flatten.map (.frame t) ++ (fills.take n).map (.refill t)) := by
  unfold RxApp.pollNicRx
  split_ifs with hnone
  · exact ⟨0, by rw [hnone]; rfl⟩
  · obtain ⟨n, hn⟩ := refillLoop_eq_run
      (active.flatten.foldl (fun s qid => s.noteFrame t qid) s) t fills
    exact ⟨n, by rw [hn, foldl_noteFrame, run_append]⟩

end

/-! ## What a round does -/

section

variable {r r' : FillRing} {nb idx : U32}

theorem reserveLoop_spec {consumers : List U32} (h : r.reserveLoop nb consumers = some (r', idx)) :
    r'.cachedProd = r.cachedProd + nb ∧ r'.producer = r.producer ∧
      r'.published = r.published ∧ r'.written = r.written := by
  induction consumers generalizing r with
  | nil => exact absurd h (by simp [FillRing.reserveLoop])
  | cons consumer consumers ih =>
    have hfree : ∀ c, (r.nbFree nb c).1.cachedProd = r.cachedProd ∧
        (r.nbFree nb c).1.producer = r.producer ∧ (r.nbFree nb c).1.published = r.published ∧
        (r.nbFree nb c).1.written = r.written := by
      intro c
      unfold FillRing.nbFree
      dsimp only
      split_ifs <;> exact ⟨rfl, rfl, rfl, rfl⟩
    obtain ⟨hprod, hproducer, hpublished, hwritten⟩ := hfree consumer
    unfold FillRing.reserveLoop FillRing.reserve at h
    by_cases hroom : (r.nbFree nb consumer).2 < nb
    · simp only [hroom, if_true] at h
      obtain ⟨h1, h2, h3, h4⟩ := ih h
      exact ⟨h1.trans (congrArg (· + nb) hprod), h2.trans hproducer, h3.trans hpublished,
        h4.trans hwritten⟩
    · simp only [hroom, if_false, Option.some.injEq, Prod.mk.injEq] at h
      rw [← h.1]
      exact ⟨congrArg (· + nb) hprod, hproducer, hpublished, hwritten⟩

theorem fillLoop_spec (n : Nat) (idx : U32) (supply : List U64) (r : FillRing) :
    (r.fillLoop n idx supply).2 = min n supply.length ∧
      (r.fillLoop n idx supply).1.written = r.written ++ supply.take n ∧
      (r.fillLoop n idx supply).1.cachedProd = r.cachedProd ∧
      (r.fillLoop n idx supply).1.producer = r.producer ∧
      (r.fillLoop n idx supply).1.published = r.published := by
  induction n generalizing idx supply r with
  | zero => simp [FillRing.fillLoop]
  | succ n ih =>
    cases supply with
    | nil => simp [FillRing.fillLoop]
    | cons addr supply =>
      obtain ⟨hcount, hwritten, hprod, hproducer, hpublished⟩ :=
        ih (idx + 1) supply (r.fillAddr idx addr)
      refine ⟨?_, ?_, hprod, hproducer, hpublished⟩
      · change _ + 1 = _
        rw [hcount, length_cons]
        omega
      · refine hwritten.trans ?_
        rw [take_succ_cons, FillRing.fillAddr, List.append_assoc]
        rfl

theorem replenish_spec {need j : U32} {f : Fill} (h : replenish r need f = some (r', j)) :
    j.toNat = min need.toNat f.supply.length ∧ r'.cachedProd = r.cachedProd + j ∧
      r'.producer = r.producer + need ∧ r'.published = r.published + need.toNat ∧
      r'.written.length = r.written.length + j.toNat := by
  unfold replenish at h
  cases hres : r.reserveLoop need f.consumers with
  | none => simp [hres] at h
  | some x =>
    obtain ⟨r₁, idx⟩ := x
    obtain ⟨hprod₁, hproducer₁, hpublished₁, hwritten₁⟩ := reserveLoop_spec hres
    obtain ⟨hcount, hwritten₂, hprod₂, hproducer₂, hpublished₂⟩ :=
      fillLoop_spec need.toNat idx f.supply r₁
    simp only [hres, Option.some.injEq, Prod.mk.injEq] at h
    generalize r₁.fillLoop need.toNat idx f.supply = x at *
    obtain ⟨r₂, n⟩ := x
    obtain ⟨hr, hj⟩ := h
    have hn : n = min need.toNat f.supply.length := hcount
    have hjn : j.toNat = n := by
      rw [← hj, toNat_ofNat]
      exact Nat.mod_eq_of_lt (by have := need.isLt; omega)
    rw [hj] at hr
    refine ⟨hjn.trans hn, ?_⟩
    rw [← hr]
    have hwritten : r₂.written.length = r.written.length + j.toNat := by
      rw [show r₂.written = _ from hwritten₂, hwritten₁, length_append, length_take, hjn, hn]
    have hprod : r₂.cachedProd = r.cachedProd + need := hprod₂.trans hprod₁
    have hproducer : r₂.producer = r.producer := hproducer₂.trans hproducer₁
    have hpublished : r₂.published = r.published := hpublished₂.trans hpublished₁
    unfold FillRing.submit
    split_ifs with hshort
    · refine ⟨?_, congrArg (· + need) hproducer, congrArg (· + need.toNat) hpublished, hwritten⟩
      change r₂.cachedProd - (need - j) = _
      rw [hprod]
      bv_omega
    · have hall : j = need := by
        have hle : j.toNat ≤ need.toNat := by omega
        exact eq_of_toNat_eq (le_antisymm hle (by rw [lt_def] at hshort; omega))
      refine ⟨?_, congrArg (· + need) hproducer, congrArg (· + need.toNat) hpublished, hwritten⟩
      exact hprod.trans (congrArg _ hall.symm)

end

/-! ## Conservation -/

structure RingConserved (r : FillRing) : Prop where
  published : r.published = r.written.length
  cachedProd : r.cachedProd = r.producer

instance (r : FillRing) : Decidable (RingConserved r) :=
  decidable_of_iff (r.published = r.written.length ∧ r.cachedProd = r.producer)
    ⟨fun h => ⟨h.1, h.2⟩, fun h => ⟨h.published, h.cachedProd⟩⟩

structure GapsCounted (t : RxThread) (q : Nat) : Prop where
  le : t.replenished q ≤ t.received q
  needfill : t.cachedNeedfill q = BitVec.ofNat 32 (t.received q - t.replenished q)

structure Conserved (s : RxApp) : Prop where
  rings : ∀ q, RingConserved (s.rings q)
  threads : ∀ t q, GapsCounted (s.threads t) q

def NoShortage (s : RxApp) : RxStep → Prop
  | .frame _ _ => True
  | .refill t f =>
    ∀ q ∈ (s.threads t).cachedFqidx.head?,
      (replenish (s.rings q) ((s.threads t).cachedNeedfill q) f).isSome →
        ((s.threads t).cachedNeedfill q).toNat ≤ f.supply.length

instance (s : RxApp) (e : RxStep) : Decidable (NoShortage s e) := by
  unfold NoShortage
  split <;> infer_instance

section

variable {s : RxApp}

theorem gapsCounted_noteFrame {t : RxThread} (h : ∀ q, GapsCounted t q) (q p : Nat) :
    GapsCounted (t.noteFrame q) p := by
  obtain ⟨hle, hneed⟩ := h p
  by_cases hp : p = q
  · subst hp
    constructor
    · simp only [RxThread.noteFrame, update_self]
      omega
    · simp only [RxThread.noteFrame, update_self]
      rw [hneed, Nat.sub_add_comm hle, ofNat_add]
      rfl
  · constructor <;> simp only [RxThread.noteFrame, update_of_ne hp]
    · exact hle
    · exact hneed

theorem gapsCounted_noteFill {t : RxThread} (h : ∀ q, GapsCounted t q) (q : Nat)
    (rest : List Nat) {j : U32} (hj : j.toNat ≤ (t.cachedNeedfill q).toNat) (p : Nat) :
    GapsCounted (t.noteFill q rest j) p := by
  obtain ⟨hle, hneed⟩ := h p
  by_cases hp : p = q
  · subst hp
    have hgaps : j.toNat ≤ t.received p - t.replenished p := by
      rw [hneed, toNat_ofNat] at hj
      exact hj.trans (Nat.mod_le _ _)
    constructor
    · simp only [RxThread.noteFill, update_self]
      omega
    · simp only [RxThread.noteFill, update_self]
      rw [hneed, ← Nat.sub_sub, sub_eq_iff_eq_add]
      nth_rewrite 2 [← ofNat_toNat 32 j |>.trans (setWidth_eq j)]
      rw [← ofNat_add, Nat.sub_add_cancel hgaps]
  · constructor <;> simp only [RxThread.noteFill, update_of_ne hp]
    · exact hle
    · exact hneed

theorem threads_update {threads : Nat → RxThread} (h : ∀ t q, GapsCounted (threads t) q) {t : Nat}
    {new : RxThread} (hnew : ∀ q, GapsCounted new q) (a q : Nat) :
    GapsCounted (update threads t new a) q := by
  grind

theorem refillQueue_cases (s : RxApp) (t : Nat) (f : Fill) :
    ((s.refillQueue t f).1 = s ∧
      ∀ q ∈ (s.threads t).cachedFqidx.head?,
        replenish (s.rings q) ((s.threads t).cachedNeedfill q) f = none) ∨
    ∃ q rest r j, (s.threads t).cachedFqidx = q :: rest ∧
      replenish (s.rings q) ((s.threads t).cachedNeedfill q) f = some (r, j) ∧
      (s.refillQueue t f).1 =
        { s with
          rings := update s.rings q r
          threads := update s.threads t ((s.threads t).noteFill q rest j) } := by
  unfold RxApp.refillQueue
  cases hq : (s.threads t).cachedFqidx with
  | nil => exact .inl ⟨rfl, by simp⟩
  | cons q rest =>
    dsimp only
    cases hrep : replenish (s.rings q) ((s.threads t).cachedNeedfill q) f with
    | none => exact .inl ⟨rfl, by simpa using hrep⟩
    | some x => exact .inr ⟨q, rest, x.1, x.2, rfl, hrep, rfl⟩

theorem conserved_refill_iff (h : Conserved s) (t : Nat) (f : Fill) :
    Conserved (rxStep s (.refill t f)) ↔ NoShortage s (.refill t f) := by
  change Conserved (s.refillQueue t f).1 ↔ _
  rcases refillQueue_cases s t f with ⟨hsame, hnone⟩ | ⟨q, rest, r, j, hq, hrep, heq⟩
  · rw [hsame]
    refine iff_of_true h fun q hq hsome => ?_
    rw [hnone q hq] at hsome
    exact absurd hsome (by decide)
  · obtain ⟨hj, hprod, hproducer, hpublished, hwritten⟩ := replenish_spec hrep
    have hring := h.rings q
    rw [heq]
    have hcond : NoShortage s (.refill t f) ↔
        ((s.threads t).cachedNeedfill q).toNat ≤ f.supply.length := by
      unfold NoShortage
      simp [hq, hrep]
    rw [hcond]
    constructor
    · intro hnew
      have hpub := (hnew.rings q).published
      simp only [update_self] at hpub
      rw [hpublished, hwritten, hring.published] at hpub
      omega
    · intro henough
      have hall : j = (s.threads t).cachedNeedfill q :=
        eq_of_toNat_eq (hj.trans (min_eq_left henough))
      constructor
      · intro p
        by_cases hp : p = q
        · subst hp
          simp only [update_self]
          constructor
          · rw [hpublished, hwritten, hring.published, hall]
          · rw [hprod, hproducer, hring.cachedProd, hall]
        · simp only [update_of_ne hp]
          exact h.rings p
      · exact threads_update h.threads
          (gapsCounted_noteFill (h.threads t) q rest (hall ▸ le_rfl))

end

/-! ## Runs -/

/-- **The fill rings are conserved** throughout a run exactly when the cache never runs dry in a
    round. -/
theorem conserved_always_iff {s : RxApp} (h : Conserved s) (es : List RxStep) :
    Always rxStep Conserved s es ↔ Meets rxStep NoShortage s es := by
  refine always_iff_meets ?_ ?_ (fun _ h => h) h meets_true
  · intro s e h _ hok
    cases e with
    | frame t qid =>
      exact ⟨h.rings, threads_update h.threads (gapsCounted_noteFrame (h.threads t) _)⟩
    | refill t f => exact (conserved_refill_iff h t f).mpr hok
  · intro s e h _ hnext
    cases e with
    | frame t qid => trivial
    | refill t f => exact (conserved_refill_iff h t f).mp hnext

/-! ### A cache that runs dry -/

def fullRing : FillRing where
  cachedProd := 8#32
  cachedCons := 8#32
  mask := 7#32
  size := 8#32
  producer := 8#32
  slots := fun i => i.setWidth 64
  published := 8
  written := (List.range 8).map (BitVec.ofNat 64)

def freshApp : RxApp where
  qid2idx := BitVec.toNat
  rings := fun _ => fullRing
  threads := fun _ => ⟨fun _ => 0#32, [], fun _ => 0, fun _ => 0⟩

theorem freshApp_conserved : Conserved freshApp :=
  ⟨fun _ => (by decide : RingConserved fullRing), fun _ _ => ⟨le_rfl, rfl⟩⟩

theorem conserved_always_two_threads :
    Always rxStep Conserved freshApp
      [.frame 0 0#32, .frame 1 0#32, .frame 0 1#32, .frame 0 0#32,
        .refill 0 ⟨[1#32, 2#32], [0x100#64, 0x200#64]⟩, .refill 1 ⟨[3#32], [0x300#64]⟩,
        .refill 0 ⟨[1#32], [0x400#64]⟩] :=
  (conserved_always_iff freshApp_conserved _).mpr (by decide)

/-- Two frames are received, and the cache has one buffer: one of the kernel's two descriptors was
    written. -/
theorem conserved_lost_on_shortage :
    Conserved freshApp ∧
      ((freshApp.pollNicRx 0 [[0#32, 0#32]] [⟨[2#32], [0x100#64]⟩]).rings 0).published = 10 ∧
      ((freshApp.pollNicRx 0 [[0#32, 0#32]] [⟨[2#32], [0x100#64]⟩]).rings 0).written.length = 9 ∧
      ((freshApp.pollNicRx 0 [[0#32, 0#32]] [⟨[2#32], [0x100#64]⟩]).rings 0).cachedProd = 9#32 ∧
      ((freshApp.pollNicRx 0 [[0#32, 0#32]] [⟨[2#32], [0x100#64]⟩]).rings 0).producer = 10#32 :=
  ⟨freshApp_conserved, by decide, by decide, by decide, by decide⟩

end MtpXdp.Rpc

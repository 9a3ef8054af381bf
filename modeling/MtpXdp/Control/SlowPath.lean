import Mathlib.Logic.Function.Basic
import MtpXdp.Ebpf.State

/-!
# Slow-Path Packets and the Fill Rings

`process_packet` counts a received frame in `needfill` of the queue it came from, and then refills
the rings of the application's queues under their locks. On a shortage of ring entries it goes on to
the next queue without `spin_unlock`.
-/

namespace MtpXdp.Control

open Ebpf Function

/-- `needfill` of the queues, the locks this call holds, and the frames it put into the rings. -/
structure SlowPath where
  needfill : Nat → U32
  held : Nat → Bool := fun _ => false
  filled : Nat → U32 := fun _ => 0#32

/-- A queue as the refill loop finds it: its lock, the free entries of the ring, and the frames to
    be had. -/
structure QueueVisit where
  qid : Nat
  taken : Bool
  room : Nat
  buffers : Nat

namespace SlowPath

def receive (s : SlowPath) (qid : Nat) : SlowPath :=
  { s with needfill := update s.needfill qid (s.needfill qid + 1#32) }

/-- An iteration of the refill loop, `none` if the assertion on the cache fails. -/
def refill (s : SlowPath) (v : QueueVisit) : Option SlowPath :=
  if s.needfill v.qid = 0#32 then some s
  else if v.taken ∨ s.held v.qid then some s
  else if v.room < (s.needfill v.qid).toNat then
    -- `continue` with the lock held
    some { s with held := update s.held v.qid true }
  else if v.buffers < (s.needfill v.qid).toNat then none
  else
    some { s with
      filled := update s.filled v.qid (s.filled v.qid + s.needfill v.qid)
      needfill := update s.needfill v.qid 0#32 }

def processPacket (needfill : Nat → U32) (rx : List Nat) (visits : List QueueVisit) :
    Option SlowPath :=
  if rx = [] then some { needfill } else visits.foldlM refill (rx.foldl receive { needfill })

/-- **The property**: no lock is held, and the counts are right for the frames received and put
    back. -/
structure Settled (needfill : Nat → U32) (rx : List Nat) (s : SlowPath) : Prop where
  released : ∀ q, s.held q = false
  counted : ∀ q, s.needfill q = needfill q + BitVec.ofNat 32 (rx.count q) - s.filled q

def HasRoom (s : SlowPath) (v : QueueVisit) : Prop :=
  s.needfill v.qid ≠ 0#32 → v.taken = false → (s.needfill v.qid).toNat ≤ v.room
deriving Decidable

def NoShortage (s : SlowPath) : List QueueVisit → Prop
  | [] => True
  | v :: vs => s.HasRoom v ∧ ∀ s' ∈ s.refill v, s'.NoShortage vs

variable {s s' : SlowPath} {v : QueueVisit} {rx : List Nat} {needfill : Nat → U32}

theorem foldl_receive (rx : List Nat) (s : SlowPath) :
    (rx.foldl receive s).held = s.held ∧ (rx.foldl receive s).filled = s.filled ∧
      ∀ q, (rx.foldl receive s).needfill q = s.needfill q + BitVec.ofNat 32 (rx.count q) := by
  induction rx generalizing s with
  | nil => simp
  | cons p rx ih =>
    obtain ⟨hheld, hfilled, hneed⟩ := ih (s.receive p)
    refine ⟨hheld, hfilled, fun q => ?_⟩
    rw [List.foldl_cons, hneed, List.count_cons]
    by_cases hq : q = p
    · subst hq
      simp [receive, BitVec.ofNat_add, BitVec.add_assoc, BitVec.add_comm]
    · simp [receive, hq, Ne.symm hq]

theorem refill_balance (h : s.refill v = some s') (q : Nat) :
    s'.needfill q + s'.filled q = s.needfill q + s.filled q := by
  unfold refill at h
  split_ifs at h <;> cases h
  · rfl
  · rfl
  · rfl
  · by_cases hq : q = v.qid
    · subst hq
      simp [BitVec.add_comm]
    · simp [hq]

theorem released_refill_iff (h : s.refill v = some s') :
    (∀ q, s'.held q = false) ↔ (∀ q, s.held q = false) ∧ s.HasRoom v := by
  unfold refill at h
  split_ifs at h with hzero htaken hshort hbuf
  · cases h
    exact (and_iff_left fun h => absurd hzero h).symm
  · cases h
    refine ⟨fun hs => ⟨hs, fun _ hfree => ?_⟩, And.left⟩
    simp [hfree, hs] at htaken
  · cases h
    refine iff_of_false (fun hall => ?_) fun ⟨_, hroom⟩ => ?_
    · simpa using hall v.qid
    · have hfree : v.taken = false := by simpa using fun h => htaken (.inl h)
      exact Nat.not_le.mpr hshort (hroom hzero hfree)
  · cases h
    exact (and_iff_left fun _ _ => Nat.not_lt.mp hshort).symm

theorem foldlM_refill_spec {vs : List QueueVisit} (h : vs.foldlM refill s = some s') :
    ((∀ q, s'.held q = false) ↔ (∀ q, s.held q = false) ∧ s.NoShortage vs) ∧
      ∀ q, s'.needfill q + s'.filled q = s.needfill q + s.filled q := by
  induction vs generalizing s with
  | nil =>
    cases h
    exact ⟨(and_iff_left trivial).symm, fun _ => rfl⟩
  | cons v vs ih =>
    obtain ⟨s₁, h₁, h⟩ := Option.bind_eq_some_iff.mp h
    obtain ⟨hiff, hsum⟩ := ih h
    refine ⟨?_, fun q => (hsum q).trans (refill_balance h₁ q)⟩
    rw [hiff, released_refill_iff h₁, and_assoc, NoShortage, h₁]
    simp

end SlowPath

open SlowPath

theorem process_packet_settled_iff (needfill : Nat → U32) (rx : List Nat) (visits : List QueueVisit)
    (s : SlowPath) (h : processPacket needfill rx visits = some s) :
    s.Settled needfill rx ↔ (rx ≠ [] → (rx.foldl receive { needfill }).NoShortage visits) := by
  unfold processPacket at h
  split_ifs at h with hrx
  · cases h
    refine iff_of_true ⟨fun _ => rfl, fun q => ?_⟩ (absurd hrx)
    simp [hrx]
  · obtain ⟨hheld, hfilled, hneed⟩ := foldl_receive rx { needfill }
    obtain ⟨hiff, hsum⟩ := foldlM_refill_spec h
    rw [hheld, and_iff_right fun _ => rfl] at hiff
    have hcounted (q : Nat) :
        s.needfill q = needfill q + BitVec.ofNat 32 (rx.count q) - s.filled q := by
      have hq := hsum q
      rw [hneed, hfilled, BitVec.add_zero] at hq
      rw [← hq, BitVec.add_sub_cancel]
    rw [imp_iff_right hrx, ← hiff]
    exact ⟨fun hs => hs.released, fun hs => ⟨hs, hcounted⟩⟩

theorem process_packet_settled_room :
    ∃ s, processPacket (fun _ => 0#32) [3, 5, 3] [⟨3, false, 8, 2⟩, ⟨5, true, 0, 0⟩] = some s ∧
      s.Settled (fun _ => 0#32) [3, 5, 3] := by
  refine ⟨_, rfl, (process_packet_settled_iff _ [3, 5, 3] [⟨3, false, 8, 2⟩, ⟨5, true, 0, 0⟩] _
    rfl).mpr fun _ => ⟨by decide, ?_⟩⟩
  rintro _ ⟨⟩
  exact ⟨by decide, fun _ _ => trivial⟩

theorem process_packet_keeps_lock :
    ∃ s, processPacket (fun _ => 0#32) [3] [⟨3, false, 0, 1⟩] = some s ∧
      s.held 3 = true ∧ ¬ s.Settled (fun _ => 0#32) [3] :=
  ⟨_, rfl, by decide, fun h => absurd (h.released 3) (by decide)⟩

end MtpXdp.Control

import MtpXdp.Core.Run
import MtpXdp.Ebpf.State

/-!
# The Estimate of the NIC Queue

`check_nic_queue` of `eBPF/homa/rpc.h` admits a packet if the queue of the NIC is short, by the
estimate
`link_idle_time` that all CPUs share, and adds the time of the packet to it with a compare-and-swap.
A call that loses the race twice admits its packet as well, but does not count it.
-/

namespace MtpXdp.Homa

open Ebpf (U32 U64)
open MtpXdp.Core

def nsPerPacket (packetBytes : U32) : U64 := (packetBytes + 94#32).setWidth 64 * 323#64 / 1000#64

def maxNicQueueNs : U64 := 3000#64

inductive NicPc
  | clock
  | load (now : U64)
  | swap (now idle : U64)
deriving DecidableEq

structure NicCall where
  nsPerPacket : U64
  tryCnt : Nat
  pc : NicPc
deriving DecidableEq

/-- One atomic operation of a call at `time`: the new `link_idle_time`, and the rest of the call or
    its result. -/
def NicCall.next (c : NicCall) (link time : U64) : U64 × (NicCall ⊕ Bool) :=
  match c.pc with
  | .clock => (link, .inl { c with pc := .load time })
  | .load now =>
    if now + maxNicQueueNs < link then (link, .inr false)
    else (link, .inl { c with pc := .swap now link })
  | .swap now idle =>
    let newIdle := if idle < now then now + c.nsPerPacket else idle + c.nsPerPacket
    if link = idle then (newIdle, .inr true)
    else
      match c.tryCnt with
      | 0 => (link, .inr true)
      | n + 1 => (link, .inl { c with tryCnt := n, pc := .clock })

structure NicState where
  linkIdleTime : U64
  calls : Nat → Option NicCall

inductive NicEvent
  | call (cpu : Nat) (packetBytes : U32)
  | step (cpu : Nat) (time : U64)

def nicStep (s : NicState) : NicEvent → NicState
  | .call cpu packetBytes =>
    if (s.calls cpu).isSome then s
    else { s with calls := Function.update s.calls cpu (some ⟨nsPerPacket packetBytes, 1, .clock⟩) }
  | .step cpu time =>
    match s.calls cpu with
    | none => s
    | some c =>
      ⟨(c.next s.linkIdleTime time).1,
        Function.update s.calls cpu (c.next s.linkIdleTime time).2.getLeft?⟩

def admitted (s : NicState) : NicEvent → Option NicCall
  | .call _ _ => none
  | .step cpu time => (s.calls cpu).filter fun c => (c.next s.linkIdleTime time).2 = .inr true

def NicPc.wonAt (link : U64) : NicPc → Option U64
  | .swap now idle => if link = idle then some now else none
  | _ => none

theorem NicPc.wonAt_eq_some {pc : NicPc} {link now : U64} :
    pc.wonAt link = some now ↔ pc = .swap now link := by
  cases pc <;> grind [NicPc.wonAt]

/-- A call that returns 1 does so with a swap of `link_idle_time` that succeeds and adds its
    packet. -/
def Advances (s : NicState) (e : NicEvent) : Prop :=
  ∀ c ∈ admitted s e, ∃ now ∈ c.pc.wonAt s.linkIdleTime,
    (nicStep s e).linkIdleTime.toNat =
      max now.toNat s.linkIdleTime.toNat + c.nsPerPacket.toNat

/-- A call about to make its last swap still finds the estimate it loaded, and a swap that finds it
    stays within 64 bits. -/
def NicCall.WinsRace (c : NicCall) (link : U64) : Prop :=
  match c.pc with
  | .swap now idle => (c.tryCnt = 0 → link = idle) ∧
      (link = idle → max now.toNat idle.toNat + c.nsPerPacket.toNat < 2 ^ 64)
  | _ => True

instance (c : NicCall) (link : U64) : Decidable (c.WinsRace link) :=
  match c with
  | ⟨_, _, .clock⟩ | ⟨_, _, .load _⟩ => instDecidableTrue
  | ⟨_, _, .swap _ _⟩ => instDecidableAnd

def WinsRace (s : NicState) : NicEvent → Prop
  | .call _ _ => True
  | .step cpu _ => ∀ c ∈ s.calls cpu, c.WinsRace s.linkIdleTime

instance (s : NicState) : DecidablePred (WinsRace s)
  | .call _ _ => instDecidableTrue
  | .step _ _ => Option.decidableForallMem _

section

variable {s : NicState} {e : NicEvent} {c : NicCall}

theorem next_of_swap {now link time : U64} (h : c.pc = .swap now link) :
    (c.next link time).1.toNat = (max now.toNat link.toNat + c.nsPerPacket.toNat) % 2 ^ 64 := by
  simp only [NicCall.next, h, if_true]
  by_cases hlt : link < now
  · rw [if_pos hlt, BitVec.toNat_add, max_eq_left (BitVec.lt_def.mp hlt).le]
  · rw [if_neg hlt, BitVec.toNat_add, max_eq_right (not_lt.mp fun h' => hlt (BitVec.lt_def.mpr h'))]

theorem next_eq_or (c : NicCall) (link time : U64) :
    (c.next link time).1 = link ∨ (c.next link time).2 = .inr true := by
  unfold NicCall.next
  grind

theorem next_snd_eq_true_iff {link time : U64} : (c.next link time).2 = .inr true ↔
    ∃ now idle, c.pc = .swap now idle ∧ (link = idle ∨ c.tryCnt = 0) := by
  unfold NicCall.next
  grind

theorem linkIdleTime_nicStep_of_admitted (h : admitted s e = some c) {now : U64}
    (hpc : c.pc = .swap now s.linkIdleTime) : (nicStep s e).linkIdleTime.toNat =
      (max now.toNat s.linkIdleTime.toNat + c.nsPerPacket.toNat) % 2 ^ 64 := by
  cases e with
  | call cpu packetBytes => cases h
  | step cpu time =>
    obtain ⟨hc, -⟩ := Option.filter_eq_some_iff.mp h
    simp only [nicStep, hc]
    exact next_of_swap hpc

theorem linkIdleTime_nicStep_of_none (h : admitted s e = none) :
    (nicStep s e).linkIdleTime = s.linkIdleTime := by
  cases e with
  | call cpu packetBytes =>
    rw [nicStep]
    split_ifs <;> rfl
  | step cpu time =>
    rw [nicStep]
    cases hc : s.calls cpu with
    | none => rfl
    | some c =>
      refine (next_eq_or c s.linkIdleTime time).resolve_right fun hret => ?_
      simp [admitted, hc, hret] at h

theorem advances_iff : Advances s e ↔ WinsRace s e := by
  cases e with
  | call cpu packetBytes => simp [Advances, WinsRace, admitted]
  | step cpu time =>
    cases hc : s.calls cpu with
    | none => simp [Advances, WinsRace, admitted, hc]
    | some c =>
      have hret := @next_snd_eq_true_iff c s.linkIdleTime time
      have hmod (hadm) {now} := @linkIdleTime_nicStep_of_admitted s (.step cpu time) c hadm now
      simp only [Advances, WinsRace, admitted, hc, Option.mem_def, Option.some.injEq, forall_eq',
        Option.filter_eq_some_iff, decide_eq_true_iff, NicPc.wonAt_eq_some, and_imp, true_and,
        NicCall.WinsRace] at hmod ⊢
      -- only the swap can return 1: after it has succeeded, or with no try left
      cases hpc : c.pc with
      | clock | load => grind
      | swap now idle => grind

theorem WinsRace.add_le (h : WinsRace s e) :
    s.linkIdleTime.toNat + ((admitted s e).toList.map fun c => c.nsPerPacket.toNat).sum ≤
      (nicStep s e).linkIdleTime.toNat := by
  cases hc : admitted s e with
  | none => simp [linkIdleTime_nicStep_of_none hc]
  | some c =>
    obtain ⟨now, -, hlink⟩ := advances_iff.mpr h c hc
    simp only [hlink, Option.toList_some, List.map_cons, List.map_nil, List.sum_singleton]
    omega

end

/-- **Every admitted packet is counted** precisely when no call loses the race twice, nor the
    estimate leaves 64 bits. -/
theorem admitted_counted (s : NicState) (es : List NicEvent) :
    (Meets nicStep Advances s es ↔ Meets nicStep WinsRace s es) ∧
      (Meets nicStep WinsRace s es →
        s.linkIdleTime.toNat +
            ((trace nicStep admitted s es).map fun c => c.nsPerPacket.toNat).sum ≤
          (run nicStep s es).linkIdleTime.toNat) := by
  constructor
  · have hstep : ∀ s e, True → WinsRace s e → True := fun _ _ _ _ => trivial
    exact meets_iff_of_inv hstep (fun _ _ _ => advances_iff) trivial
  · intro h
    induction es generalizing s with
    | nil => simp [trace]
    | cons e es ih =>
      have hone := h.1.add_le
      have hrest := ih (nicStep s e) h.2
      rw [trace, List.map_append, List.sum_append, run_cons]
      omega

def NicState.idle : NicState := ⟨0#64, fun _ => none⟩

/-- CPU 0 loads the estimate, then CPU 1 has its packet admitted, and CPU 0 needs a second try. -/
def onceBeaten : List NicEvent :=
  [.call 0 1420#32, .step 0 100#64, .step 0 100#64, .call 1 1420#32, .step 1 100#64, .step 1 100#64,
    .step 1 100#64, .step 0 100#64, .step 0 100#64, .step 0 100#64]

theorem admitted_counted_onceBeaten :
    (NicState.idle).linkIdleTime.toNat + 489 + 489 ≤
      (run nicStep .idle (onceBeaten ++ [.step 0 100#64])).linkIdleTime.toNat := by
  have hwins : Meets nicStep WinsRace .idle (onceBeaten ++ [.step 0 100#64]) := by
    decide +kernel
  exact (admitted_counted .idle (onceBeaten ++ [.step 0 100#64])).2 hwins

/-- CPU 1 wins again before the second swap of CPU 0: three packets are admitted, two are
    counted. -/
theorem admitted_not_counted :
    let es := onceBeaten ++ [.call 1 1420#32, .step 1 100#64, .step 1 100#64, .step 1 100#64,
      .step 0 100#64]
    (trace nicStep admitted .idle es).length = 3 ∧
      (run nicStep .idle es).linkIdleTime = 100#64 + nsPerPacket 1420#32 + nsPerPacket 1420#32 := by
  decide +kernel

end MtpXdp.Homa

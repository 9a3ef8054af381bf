import MtpXdp.Core.Run
import MtpXdp.Homa.State

/-!
# Piggybacked Acknowledgements

A client RPC that is complete is put into a queue of `peer_tbl`, and the next data packets to its
server carry the entries of the queue. The queue is found by five bits of the server's address, and
half of the places of `peer_tbl` have no queue.
-/

namespace MtpXdp.Homa

open Ebpf (U32)
open MtpXdp.Core Function List HomaState

def HomaState.dequeueDeadCrpc (s : HomaState) (remoteIp : U32) :
    HomaState × Option DeadClientRpcInfo :=
  if (getPeerid remoteIp).toNat < 16 then
    let q := s.peerAck (getPeerid remoteIp)
    ({ s with peerAck := update s.peerAck (getPeerid remoteIp) q.tail }, q.head?)
  else (s, none)

/-- The completion of a client RPC, and a data packet that gets as far as the acknowledgement. -/
inductive AckEvent
  | complete (k : RpcKey)
  | packet (daddr : U32)

def AckEvent.host : AckEvent → U32
  | .complete k => k.remoteIp
  | .packet daddr => daddr

def ackStep (s : HomaState) : AckEvent → HomaState
  | .complete k => s.enqueueDeadCrpc k
  | .packet daddr => (s.dequeueDeadCrpc daddr).1

def ackOut (s : HomaState) : AckEvent → Option (U32 × Option DeadClientRpcInfo)
  | .complete _ => none
  | .packet daddr => some (daddr, (s.dequeueDeadCrpc daddr).2)

/-! ## What should happen -/

/-- For each host the client RPCs complete and not acknowledged, in the order of completion. -/
abbrev Unacked := U32 → List RpcKey

def Unacked.step (w : Unacked) : AckEvent → Unacked
  | .complete k => update w k.remoteIp (w k.remoteIp ++ [k])
  | .packet daddr => update w daddr (w daddr).tail

def RpcKey.deadInfo (k : RpcKey) : DeadClientRpcInfo :=
  ⟨k.remoteIp, k.remotePort, k.localPort, k.rpcid⟩

def Unacked.out (w : Unacked) : AckEvent → Option (U32 × Option DeadClientRpcInfo)
  | .complete _ => none
  | .packet daddr => some (daddr, (w daddr).head?.map RpcKey.deadInfo)

/-- At most `QUEUE_SIZE` acknowledgements wait for each host. -/
def Unacked.Fits (w : Unacked) : Prop := ∀ H, (w H).length ≤ 2048

theorem Unacked.length_step_le (w : Unacked) (e : AckEvent) (H : U32) :
    (w.step e H).length ≤ (w H).length + 1 := by
  cases e <;> simp only [Unacked.step, update_apply] <;> grind

theorem Unacked.always_fits {w : Unacked} {es : List AckEvent}
    (h : ∀ H, (w H).length + es.length ≤ 2048) : Always Unacked.step Unacked.Fits w es := by
  induction es generalizing w with
  | nil => exact h
  | cons e es ih =>
    refine ⟨fun H => (Nat.le_add_right ..).trans (h H), ih fun H => ?_⟩
    have hstep := w.length_step_le e H
    have hroom := h H
    rw [length_cons] at hroom
    omega

section

variable {hosts : Set U32} {s : HomaState} {w : Unacked} {e : AckEvent} {es : List AckEvent}

/-- Every host has a queue, and shares it with no other. -/
def Separate (hosts : Set U32) : Prop :=
  (∀ H ∈ hosts, (getPeerid H).toNat < 16) ∧ hosts.InjOn getPeerid

/-- The queue of each host holds what is still to be acknowledged to it. -/
def Queued (hosts : Set U32) (s : HomaState) (w : Unacked) : Prop :=
  ∀ H ∈ hosts, s.peerAck (getPeerid H) = (w H).map RpcKey.deadInfo

section

variable (h : Queued hosts s w) (hsep : Separate hosts)
include h hsep

theorem Queued.step (hin : e.host ∈ hosts)
    (hfits : (w.step e).Fits) : Queued hosts (ackStep s e) (w.step e) := by
  intro H hH
  have hold := h H hH
  have hown := h e.host hin
  have hsame : getPeerid H = getPeerid e.host → H = e.host := fun heq => hsep.2 hH hin heq
  have hlen := hfits e.host
  cases e with
  | complete k =>
    have hroom : (w k.remoteIp).length < 2048 := by
      rw [Unacked.step, AckEvent.host, update_self, length_append] at hlen
      exact hlen
    simp only [ackStep, enqueueDeadCrpc, AckEvent.host] at hown hsame hin ⊢
    simp only [Unacked.step, if_pos (hsep.1 _ hin), hown, length_map, if_pos hroom, update_apply]
    grind [RpcKey.deadInfo]
  | packet daddr =>
    simp only [ackStep, dequeueDeadCrpc, AckEvent.host] at hown hsame hin ⊢
    simp only [Unacked.step, if_pos (hsep.1 _ hin), hown, update_apply]
    grind [map_tail]

theorem Queued.out (hin : e.host ∈ hosts) : ackOut s e = w.out e := by
  cases e with
  | complete k => rfl
  | packet daddr =>
    have hqueue : (getPeerid daddr).toNat < 16 := hsep.1 daddr hin
    have hown : s.peerAck (getPeerid daddr) = (w daddr).map RpcKey.deadInfo := h daddr hin
    simp only [ackOut, Unacked.out, dequeueDeadCrpc, if_pos hqueue, hown, head?_map]

theorem Queued.trace (hin : ∀ e ∈ es, e.host ∈ hosts)
    (hfits : Always Unacked.step Unacked.Fits w es) :
    trace ackStep ackOut s es = trace Unacked.step Unacked.out w es := by
  induction es generalizing s w with
  | nil => rfl
  | cons e es ih =>
    have he := hin e mem_cons_self
    rw [Core.trace, Core.trace, h.out hsep he,
      ih (h.step hsep he hfits.2.head) (fun e' he' => hin e' (mem_cons_of_mem e he')) hfits.2]

end

/-- The queue of each host holds only RPCs of `done` that have it as their server. -/
def OwnQueued (hosts : Set U32) (done : RpcKey → Prop) (s : HomaState) : Prop :=
  ∀ H ∈ hosts, ∀ info ∈ s.peerAck (getPeerid H), ∃ k, done k ∧ k.remoteIp = H ∧ info = k.deadInfo

section

variable {done : RpcKey → Prop} (h : OwnQueued hosts done s) (hsep : Separate hosts)
include h hsep

theorem OwnQueued.step (hin : e.host ∈ hosts) (hdone : ∀ k, e = .complete k → done k) :
    OwnQueued hosts done (ackStep s e) := by
  intro H hH info hinfo
  have hsame : getPeerid H = getPeerid e.host → H = e.host := fun heq => hsep.2 hH hin heq
  have hold := h H hH info
  cases e with
  | complete k =>
    -- a full queue drops its oldest entry, which leaves entries of the same host
    have htail := @mem_of_mem_tail _ info (s.peerAck (getPeerid H))
    simp only [ackStep, enqueueDeadCrpc, AckEvent.host] at hinfo hsame hin
    grind [RpcKey.deadInfo]
  | packet daddr =>
    simp only [ackStep, dequeueDeadCrpc, AckEvent.host] at hinfo hsame hin
    simp only [if_pos (hsep.1 _ hin), update_apply] at hinfo
    grind [mem_of_mem_tail]

theorem OwnQueued.trace (hin : ∀ e ∈ es, e.host ∈ hosts) (hdone : ∀ k, .complete k ∈ es → done k)
    {H : U32} {info : DeadClientRpcInfo} (hout : (H, some info) ∈ trace ackStep ackOut s es) :
    ∃ k, done k ∧ k.remoteIp = H ∧ info = k.deadInfo := by
  induction es generalizing s with
  | nil => cases hout
  | cons e es ih =>
    rw [forall_mem_cons] at hin
    rw [Core.trace, mem_append, Option.mem_toList] at hout
    rcases hout with hout | hout
    · cases e with
      | complete k => cases hout
      | packet daddr =>
        have hqueue : (getPeerid daddr).toNat < 16 := hsep.1 daddr hin.1
        simp only [ackOut, dequeueDeadCrpc, if_pos hqueue, Option.some.injEq,
          Prod.mk.injEq] at hout
        exact hout.1 ▸ h daddr hin.1 info (mem_of_mem_head? hout.2)
    · refine ih (h.step hsep hin.1 fun k hk => hdone k (hk ▸ mem_cons_self)) hin.2 ?_ hout
      exact fun k hk => hdone k (mem_cons_of_mem e hk)

end

end

/-- **Acknowledgements reach the right server**, in order, precisely when all hosts have a queue of
    their own. They then never reach another one, however many wait. -/
theorem acks_reach_servers_iff (hosts : Set U32) :
    ((∀ es : List AckEvent, (∀ e ∈ es, e.host ∈ hosts) →
      Always Unacked.step Unacked.Fits (fun _ => []) es →
      trace ackStep ackOut .initial es = trace Unacked.step Unacked.out (fun _ => []) es) ↔
    Separate hosts) ∧
    (Separate hosts → ∀ es : List AckEvent, (∀ e ∈ es, e.host ∈ hosts) →
      ∀ H info, (H, some info) ∈ trace ackStep ackOut .initial es →
        ∃ k, .complete k ∈ es ∧ k.remoteIp = H ∧ info = k.deadInfo) := by
  refine ⟨⟨?_, ?_⟩, fun hsep es hin H info =>
    OwnQueued.trace (fun _ _ _ hnone => absurd hnone not_mem_nil) hsep hin fun _ hk => hk⟩
  · intro h
    -- one RPC of `H` is complete, and one packet goes to `H'`
    have hpair : ∀ H ∈ hosts, ∀ H' ∈ hosts,
        trace ackStep ackOut .initial [.complete ⟨0, 0, 0, H⟩, .packet H'] =
          trace Unacked.step Unacked.out (fun _ => []) [.complete ⟨0, 0, 0, H⟩, .packet H'] := by
      intro H hH H' hH'
      exact h _ (by simp [AckEvent.host, hH, hH']) (Unacked.always_fits fun _ => by simp)
    have hqueue : ∀ H ∈ hosts, (getPeerid H).toNat < 16 := by
      intro H hH
      by_contra hge
      have hown := hpair H hH H hH
      simp [trace, ackStep, ackOut, Unacked.step, Unacked.out, dequeueDeadCrpc, hge] at hown
    refine ⟨hqueue, fun H hH H' hH' heq => ?_⟩
    by_contra hne
    have hother := hpair H hH H' hH'
    simp [trace, ackStep, ackOut, Unacked.step, Unacked.out, dequeueDeadCrpc,
      enqueueDeadCrpc, heq, hqueue H' hH', initial, Ne.symm hne] at hother
  · intro hsep es hin hfits
    exact Queued.trace (fun _ _ => rfl) hsep hin hfits

theorem acks_reach_two_servers :
    let es : List AckEvent := [.complete ⟨2, 4000, 5000, 0x0a000001⟩,
      .complete ⟨4, 4000, 5000, 0x0a000002⟩, .packet 0x0a000002]
    trace ackStep ackOut .initial es = trace Unacked.step Unacked.out (fun _ => []) es := by
  refine (acks_reach_servers_iff {0x0a000001, 0x0a000002}).1.mpr ⟨?_, ?_⟩ _ ?_
    (Unacked.always_fits fun _ => by simp)
  · simp only [Set.mem_insert_iff, Set.mem_singleton_iff, forall_eq_or_imp, forall_eq]
    decide
  · rw [Set.injOn_pair]
    decide
  · simp [AckEvent.host]

/-- 10.0.0.33 and 10.0.0.1 share a queue, and 10.0.0.16 has none. -/
theorem ack_to_wrong_server :
    trace ackStep ackOut .initial [.complete ⟨2, 4000, 5000, 0x0a000021⟩, .packet 0x0a000001] =
        [(0x0a000001, some ⟨0x0a000021, 5000, 4000, 2⟩)] ∧
      trace ackStep ackOut .initial [.complete ⟨2, 4000, 5000, 0x0a000010⟩, .packet 0x0a000010] =
        [(0x0a000010, none)] := by
  decide

end MtpXdp.Homa

import MtpXdp.Core.Run
import MtpXdp.Homa.Receiver

/-!
# Grant Offsets

The offsets granted for a message should grow from the unscheduled bytes up to its length, and
`total_incoming` by the same steps. FIFO grants do so always. A round computes with unsigned
numbers, so an RPC that FIFO grants have brought beyond its window is granted all that is available,
past the end of the message.
-/

namespace MtpXdp.Homa

open Ebpf (U32 U64)
open MtpXdp.Core List

/-! ## Offsets -/

/-- Latest first: each offset is at least the one before, the increment is the difference, the
    length the bound. -/
def OffsetsOk (length first : U32) : List (U32 × U64) → Prop
  | [] => True
  | (off, inc) :: gs =>
    (lastOffset first gs).toNat ≤ off.toNat ∧ off.toNat ≤ length.toNat ∧
      inc.toNat = off.toNat - (lastOffset first gs).toNat ∧ OffsetsOk length first gs

def Sound (L : Ledger) : Prop :=
  ∀ k h, L k = some h → OffsetsOk h.length h.unscheduled h.grants

def grantsOf (R : Receiver) : Event → List Grant
  | .round cpu ok => (chooseRpcToGrantProg R.homa cpu ok).2.1
  | .fifo a => fifoGrants R.homa a
  | _ => []

/-- The grants of every message are in order, and `total_incoming` has grown by the increments. -/
structure GrantsOk (R : Receiver) (e : Event) : Prop where
  offsets : Sound (step R e).ledger
  total : (∃ cpu ok, e = .round cpu ok) ∨ (∃ a, e = .fifo a) →
    (step R e).homa.totalIncoming =
      R.homa.totalIncoming + BitVec.ofNat 64 (increments (grantsOf R e))

def PeerWindows (t : RbTree RpcStateCc) : Prop :=
  ∀ a n, (a, n) ∈ t → n.treeId = .peer → n.incoming.toNat ≤ (windowOffset n).toNat

def WithinWindow (R : Receiver) : Event → Prop
  | .round _ _ => PeerWindows R.homa.groot
  | _ => True

structure OffsetsCond (R : Receiver) (e : Event) : Prop where
  start : StartOk R e
  window : WithinWindow R e

section

variable {L : Ledger} {t : RbTree RpcStateCc} {a : Nat} {n : RpcStateCc} {g : Grant}

theorem Sound.start (h : Sound L) (k : RpcKey) (d : DataHeader) : Sound (L.start k d) := by
  intro k' m hm
  by_cases hk : k' = k
  · subst hk
    cases (Function.update_self (f := L) ..).symm.trans hm
    trivial
  · exact h k' m ((Function.update_of_ne hk _ _).symm.trans hm)

theorem Sound.record (h : Sound L) (hc : Covers L t) (hn : (a, n) ∈ t) (hauth : n.Authoritative)
    (hg : g.rpc = n.hkey) (hadd : g.offset.toNat = n.incoming.toNat + g.increment.toNat)
    (hle : g.offset.toNat ≤ n.messageLength.toNat) : Sound (L.record g) := by
  obtain ⟨⟨m, hm, hlen, hgranted⟩, -⟩ := hc.node hn hauth
  intro k h' hk'
  by_cases hk : k = g.rpc
  · subst hk
    rw [← hg] at hm
    cases (Ledger.record_self hm).symm.trans hk'
    have hlast : (lastOffset m.unscheduled m.grants).toNat = n.incoming.toNat := by
      rw [← hgranted]
      rfl
    refine ⟨?_, ?_, ?_, h g.rpc m hm⟩
    · dsimp only
      omega
    · dsimp only
      rw [hlen]
      exact hle
    · dsimp only
      omega
  · exact h k h' ((L.record_of_ne hk).symm.trans hk')

end

/-! ## A round within the windows -/

section

variable {L : Ledger} {t t₀ : RbTree RpcStateCc} {st : RoundState} {available : U32} {a b : Nat}
  {n y : RpcStateCc}

theorem mem_of_mem_removeGranted (h : (b, y) ∈ removeGranted t a n) : (b, y) ∈ t := by
  unfold removeGranted at h
  dsimp only at h
  split at h
  · exact (RbTree.mem_remove.mp h).2
  · exact (RbTree.mem_remove.mp (RbTree.mem_remove.mp h).2).2

structure RoundSound (L : Ledger) (t₀ : RbTree RpcStateCc) (st : RoundState) : Prop extends
    RoundOk L t₀ st where
  sound : Sound (L.recordAll st.grants)
  windows : PeerWindows st.tree
  small : ∀ g ∈ st.grants, g.increment.toNat ≤ 1090560

theorem roundSound_roundStep (h : RoundSound L t₀ st) (hn : (a, n) ∈ st.tree)
    (hp : n.treeId = .peer) : RoundSound L t₀ (roundStep available st a n) := by
  have hok : RoundOk L t₀ (roundStep available st a n) := roundOk_roundStep h.toRoundOk hn hp
  have hgrants := grants_roundStep available st a n
  obtain ⟨-, hlt, hmax⟩ := h.covers.node hn (.inl hp)
  cases hg : grantOf available n with
  | none =>
    rw [hg, Option.elim_none, append_nil] at hgrants
    have htree : (roundStep available st a n).tree = st.tree := by
      unfold roundStep
      rw [hg]
      rfl
    refine ⟨hok, ?_, ?_, ?_⟩
    · rw [hgrants]
      exact h.sound
    · rw [htree]
      exact h.windows
    · rw [hgrants]
      exact h.small
  | some g =>
    rw [hg, Option.elim_some] at hgrants
    have hadd := grantOf_add hg (by omega)
    have hwin := grantOf_le_window hg (h.windows a n hn hp)
    have hle := hwin.trans (windowOffset_le n)
    refine ⟨hok, ?_, ?_, ?_⟩
    · rw [hgrants, Ledger.recordAll_append_singleton]
      refine h.sound.record h.covers hn (.inl hp) rfl ?_ hle
      exact hadd
    · -- the node that was granted is within its window, the others are as before
      intro b y hy hyp
      have hwritten : (b, y) ∈ st.tree.write a fun n => { n with incoming := g.1 } := by
        rw [tree_roundStep hg] at hy
        split_ifs at hy
        · exact mem_of_mem_removeGranted hy
        · exact hy
      obtain ⟨x, hx, rfl⟩ := RbTree.mem_write.mp hwritten
      split_ifs at hyp ⊢ with hb
      · subst hb
        obtain rfl := RbTree.eq_of_mem hx hn
        exact hwin
      · exact h.windows b x hx hyp
    · rw [hgrants]
      intro x hx
      rcases mem_append.mp hx with hx | hx
      · exact h.small x hx
      · obtain rfl := mem_singleton.mp hx
        rw [toNat_setWidth_64]
        omega

theorem roundSound_roundEnd {s : HomaState} (h : ListOk s) (hc : Covers L s.groot)
    (hsound : Sound L) (hwin : PeerWindows s.groot) (cpu : Nat) :
    RoundSound L s.groot (roundEnd s cpu) :=
  roundLoop_induction (fun _ _ _ hst hn hp => roundSound_roundStep hst hn hp) homaOvercommitment
    ⟨roundOk_start h hc cpu, hsound, hwin, fun _ hg => absurd hg not_mem_nil⟩

end

/-! ## Runs -/

section

variable {net : RpcKey → Option Message} {R : Receiver} {e : Event}

theorem grantsOk_step (h : Inv net R) (hsound : Sound R.ledger) (hd : EventDom net R e)
    (hc : OffsetsCond R e) : GrantsOk R e := by
  cases e with
  | data d ip env =>
    constructor
    · show Sound (if startsMessage R.homa d ip env then R.ledger.start (d.hkey ip) d else R.ledger)
      split_ifs
      · exact hsound.start _ _
      · exact hsound
    · rintro (⟨cpu, ok, he⟩ | ⟨a, he⟩) <;> cases he
  | round cpu ok =>
    cases ok with
    | false => exact ⟨hsound, fun _ => (BitVec.add_zero _).symm⟩
    | true =>
      have hround := roundSound_roundEnd h.list h.covers hsound hc.window cpu
      constructor
      · show Sound (R.ledger.recordAll (chooseRpcToGrantProg R.homa cpu true).2.1)
        rw [grants_chooseRpcToGrantProg]
        exact hround.sound
      · intro _
        show (chooseRpcToGrantProg R.homa cpu true).1.totalIncoming = R.homa.totalIncoming +
          BitVec.ofNat 64 (increments (chooseRpcToGrantProg R.homa cpu true).2.1)
        rw [grants_chooseRpcToGrantProg]
        exact totalIncoming_round (by decide) hround.small
  | fifo a =>
    obtain ⟨n, hn, hrpc, hun⟩ := FifoFound.node hd
    obtain ⟨-, hlt, hmax⟩ := h.covers.node hn (.inr hun)
    obtain ⟨hadd, hle⟩ := fifoGrant_spec hlt hmax
    constructor
    · show Sound (R.ledger.recordAll (fifoGrants R.homa a))
      rw [fifoGrants_of_mem hn]
      exact hsound.record h.covers hn (.inr hun) rfl hadd hle
    · intro _
      show (grantFifoRpc R.homa a).1.totalIncoming =
        R.homa.totalIncoming + BitVec.ofNat 64 (increments (fifoGrants R.homa a))
      rw [totalIncoming_grantFifoRpc hn, fifoGrants_of_mem hn]
      simp [increments]
  | completeGrant | updateCached | request | remove =>
    refine ⟨hsound, ?_⟩
    rintro (⟨cpu, ok, he⟩ | ⟨a, he⟩) <;> cases he

/-- **Grant offsets** grow from the unscheduled bytes to the length, and `total_incoming` by the
    differences. -/
theorem grant_offsets_sound (net : RpcKey → Option Message) (es : List Event)
    (hdom : Meets step (EventDom net) .initial es) (hcond : Meets step OffsetsCond .initial es) :
    Meets step GrantsOk .initial es := by
  have hstep (R : Receiver) (e : Event) (h : Inv net R ∧ Sound R.ledger)
      (hok : EventDom net R e ∧ OffsetsCond R e) :
      Inv net (step R e) ∧ Sound (step R e).ledger :=
    ⟨inv_step h.1 hok.1 hok.2.start, (grantsOk_step h.1 h.2 hok.1 hok.2).offsets⟩
  refine meets_of_inv hstep ?_ ⟨inv_initial net, fun _ _ hm => nomatch hm⟩ (hdom.and hcond)
  intro R e h hok
  exact grantsOk_step h.1 h.2 hok.1 hok.2

theorem sound_run {es : List Event} (h : Meets step GrantsOk .initial es) :
    Sound (run step .initial es).ledger := by
  have hstep (R : Receiver) (e : Event) (_ : Sound R.ledger) (hok : GrantsOk R e) :
      Sound (step R e).ledger := hok.offsets
  exact run_of_meets hstep (fun _ _ hm => nomatch hm) h

end

/-! ## FIFO grants beyond the window -/

def shortRequest : Message := ⟨72, 102000, by decide, by decide, by decide, by decide⟩

def waitingRequest : Message := ⟨106, 150000, by decide, by decide, by decide, by decide⟩

def longRequest : Message := ⟨423, 600000, by decide, by decide, by decide, by decide⟩

def threeRequests (k : RpcKey) : Option Message :=
  if k = ⟨11, 9, 7, 1⟩ then some shortRequest
  else if k = ⟨13, 9, 7, 1⟩ then some waitingRequest
  else if k = ⟨15, 9, 7, 2⟩ then some longRequest
  else none

def shortArrives (i : Nat) : Event :=
  .data (segmentOf shortRequest 10 i) 1 ⟨0, 1000, true, true, true⟩
def waitingArrives (i : Nat) : Event :=
  .data (segmentOf waitingRequest 12 i) 1 ⟨0, 1000, true, true, true⟩
def longArrives (i : Nat) : Event :=
  .data (segmentOf longRequest 14 i) 2 ⟨0, 1000, true, true, true⟩

def grantRound : List Event := [.updateCached 0 true, .round 0 true]

/-- Segments `i`, .., `i + n - 1` of the long request are granted; a FIFO grant goes to address 3.
    -/
def longBurst (i n : Nat) : List Event :=
  (range n).map (fun j => longArrives (i + j)) ++ grantRound ++ [.fifo 3]

def fifoOverrun : List Event :=
  [shortArrives 0, waitingArrives 0] ++ longBurst 0 1 ++ longBurst 1 6 ++ longBurst 7 63 ++
    longBurst 70 63 ++ longBurst 133 64 ++ [shortArrives 1] ++ grantRound ++
    [.completeGrant 0 0 true] ++ grantRound

def SentByThree : Event → Prop
  | .data d ip _ => Arrives threeRequests d ip
  | .request _ _ => False
  | _ => True

def fifoFound (R : Receiver) : Event → Bool
  | .fifo a => (R.homa.groot.get? a).any fun n => !lessBirthGrant anyBirth n
  | _ => true

theorem eventDom_of_sent {R : Receiver} {e : Event} (h : SentByThree e)
    (hf : fifoFound R e = true) :
    EventDom threeRequests R e := by
  cases e with
  | data => exact h
  | request => exact h.elim
  | fifo a =>
    cases hget : R.homa.groot.get? a with
    | none => simp [fifoFound, hget] at hf
    | some n =>
      exact ⟨n, RbTree.get?_eq_some_iff.mp hget, by simpa [fifoFound, hget] using hf⟩
  | round | completeGrant | updateCached | remove => trivial

theorem meets_eventDom {es : List Event} (h : ∀ e ∈ es, SentByThree e)
    (hf : Meets step (fun R e => fifoFound R e = true) .initial es) :
    Meets step (EventDom threeRequests) .initial es :=
  ((meets_of_forall_mem h).and hf).mono fun _ _ hok => eventDom_of_sent hok.1 hok.2

theorem sentByThree_short {i : Nat} (hi : i < 72) : SentByThree (shortArrives i) := by
  have hnet : threeRequests ⟨localId 10#64, 9, 7, 1⟩ = some shortRequest := if_pos (by decide)
  exact arrives_of_segment hnet (isSegment_segmentOf shortRequest 10 hi)

theorem sentByThree_waiting {i : Nat} (hi : i < 106) : SentByThree (waitingArrives i) := by
  have hnet : threeRequests ⟨localId 12#64, 9, 7, 1⟩ = some waitingRequest := by
    rw [threeRequests, if_neg (by decide), if_pos (by decide)]
  exact arrives_of_segment hnet (isSegment_segmentOf waitingRequest 12 hi)

theorem sentByThree_long {i : Nat} (hi : i < 423) : SentByThree (longArrives i) := by
  have hnet : threeRequests ⟨localId 14#64, 9, 7, 2⟩ = some longRequest := by
    rw [threeRequests, if_neg (by decide), if_neg (by decide), if_pos (by decide)]
  exact arrives_of_segment hnet (isSegment_segmentOf longRequest 14 hi)

theorem sentByThree_longBurst {i n : Nat} (h : i + n ≤ 423) :
    ∀ e ∈ longBurst i n, SentByThree e := by
  intro e he
  simp only [longBurst, grantRound, mem_append, mem_map, mem_range, mem_cons,
    not_mem_nil, or_false] at he
  rcases he with (⟨j, hj, rfl⟩ | rfl | rfl) | rfl
  · exact sentByThree_long (by omega)
  all_goals trivial

theorem sentByThree_fifoOverrun : ∀ e ∈ fifoOverrun, SentByThree e := by
  intro e he
  simp only [fifoOverrun, grantRound, mem_append, mem_cons, not_mem_nil,
    or_false] at he
  rcases he with ((((((((( rfl | rfl) | he) | he) | he) | he) | he) | rfl) | rfl | rfl) | rfl)
    | rfl | rfl
  · exact sentByThree_short (by decide)
  · exact sentByThree_waiting (by decide)
  · exact sentByThree_longBurst (by decide) e he
  · exact sentByThree_longBurst (by decide) e he
  · exact sentByThree_longBurst (by decide) e he
  · exact sentByThree_longBurst (by decide) e he
  · exact sentByThree_longBurst (by decide) e he
  · exact sentByThree_short (by decide)
  all_goals trivial

theorem grant_offsets_sound_at :
    Meets step GrantsOk .initial ([shortArrives 0] ++ grantRound) := by
  have hsent : ∀ e ∈ [shortArrives 0] ++ grantRound, SentByThree e := by
    intro e he
    simp only [grantRound, mem_append, mem_cons, not_mem_nil, or_false] at he
    rcases he with rfl | rfl | rfl
    · exact sentByThree_short (by decide)
    all_goals trivial
  refine grant_offsets_sound threeRequests _ (meets_eventDom hsent (by decide +kernel)) ?_
  refine ⟨⟨fun _ => ⟨by decide, ?_, ?_⟩, trivial⟩, ⟨trivial, trivial⟩, ⟨trivial, ?_⟩, trivial⟩
  · exact fun _ _ hn => absurd hn (RbTree.not_mem_empty _)
  · exact fun _ _ hn => absurd hn (RbTree.not_mem_empty _)
  · have hall : ∀ x ∈ (run step .initial [shortArrives 0, .updateCached 0 true]).homa.groot.nodes,
        x.2.treeId = .peer → x.2.incoming.toNat ≤ (windowOffset x.2).toNat := by
      decide +kernel
    exact fun a n hn => hall (a, n) hn

def overrunHistory : MsgHistory where
  length := 150000
  unscheduled := 60000
  grants := [(282260, 172260), (110000, 10000), (100000, 10000), (90000, 10000), (80000, 10000),
    (70000, 10000)]

theorem fifoOverrun_eval : Meets step (fun R e => fifoFound R e = true) .initial fifoOverrun ∧
      (run step .initial fifoOverrun).ledger ⟨13, 9, 7, 1⟩ = some overrunHistory := by
  decide +kernel

/-- The last round of the run grants more than the message has. -/
theorem round_grants_past_end :
    ¬ (Meets step (EventDom threeRequests) .initial fifoOverrun →
      Meets step GrantsOk .initial fifoOverrun) := by
  intro h
  obtain ⟨hfifo, hend⟩ := fifoOverrun_eval
  have hdom := meets_eventDom sentByThree_fifoOverrun hfifo
  have hoffsets := sound_run (h hdom) _ _ hend
  exact absurd hoffsets.2.1 (by decide)

end MtpXdp.Homa

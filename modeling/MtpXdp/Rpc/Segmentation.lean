import MtpXdp.Rpc.Reaping

/-!
# Segmentation of a Message

`message_tx_segmentation` cuts a message into packets, each in a buffer of its own, and chains the
buffers. It stops when a batch is out, when the buffer cache is dry or when the TX ring is full; the
next call goes on from `seq` and `prev_buffer_addr`.
-/

namespace MtpXdp.Rpc

open MtpXdp.Core
open Ebpf (U8)
open Homa (homaMss)
open List Function Prod

variable {supply : List Nat} {s : Segmenting}

/-! ## The loop with its buffers -/

/-- `InternalReqMeta` of a message, the memory, and what the calls for it gave. -/
structure Segmenting where
  mem : Umem
  m : ReqMeta
  prevBufferAddr : Option Nat
  sent : List (Nat × Packet)
  finished : Bool

def linkBuffer (mem : Umem) (prev : Option Nat) (addr : Nat) : Umem :=
  let mem := update mem addr { mem addr with bufferNext := none, underReap := false }
  match prev with
  | none => mem
  | some prev => Umem.setNext mem prev (some addr)

/-- `memcpy(pkt + HOMA_PAYLOAD_OFFSET, payload)`. The header before it is in the `Packet`. -/
def Frame.putPayload (f : Frame) (payload : List U8) : Frame :=
  { f with
    data := fun k =>
      if homaPayloadOffset ≤ k ∧ k < homaPayloadOffset + payload.length then
        payload.getD (k - homaPayloadOffset) 0
      else f.data k }

def Segmenting.round (s : Segmenting) (slot copyOffset size addr : Nat) : Segmenting :=
  let pkt := buildPacket slot copyOffset size s.m
  let mem := linkBuffer s.mem s.prevBufferAddr addr
  { s with
    mem := update mem addr ((mem addr).putPayload pkt.payload)
    m := { s.m with seq := s.m.seq + 1 }
    prevBufferAddr := some addr
    sent := s.sent ++ [(addr, pkt)] }

/-- With `n` rounds to go: `copy_offset` and the state. `supply` is for the rounds that get a place
    in the ring. -/
def segmentRounds (slot : Nat) : Nat → List Nat → Nat → Nat → Segmenting → Nat × Segmenting
  | 0, _, copyOffset, _, s => (copyOffset, s)
  | _ + 1, [], copyOffset, _, s => (copyOffset, s)
  | n + 1, addr :: supply, copyOffset, size, s =>
    let plen := min homaMss size
    segmentRounds slot n supply (copyOffset + plen) (size - plen)
      (s.round slot copyOffset size addr)

def Segmenting.call (s : Segmenting) (slot : Nat) (supply : List Nat) : Segmenting :=
  -- continue from the last segment
  let copyOffset := s.m.seq.toNat * homaMss
  let size := s.m.req.buffer.length - copyOffset
  let nrBuffers := min (homaGetNrBuffersFromLen size) txBatchSize
  let r := segmentRounds slot nrBuffers supply copyOffset size s
  { r.2 with finished := s.m.req.buffer.length ≤ r.1 }

/-- A call of `message_tx_segmentation`, or anything else that leaves the memory as `mem`. -/
inductive SegEvent where
  | call (supply : List Nat)
  | others (mem : Umem)

def segStep (slot : Nat) (s : Segmenting) : SegEvent → Segmenting
  | .call supply => s.call slot supply
  | .others mem => { s with mem := mem }

/-! ## Packets -/

section

variable (slot : Nat)

theorem segmentRounds_eq (n : Nat) (supply : List Nat) (copyOffset size : Nat) (s : Segmenting) :
    let r := segmentRounds slot n supply copyOffset size s
    let l := segmentLoop slot (min n supply.length) copyOffset size s.m
    r.2.sent.map snd = s.sent.map snd ++ l.1 ∧ r.1 = l.2.1 ∧ r.2.m = l.2.2 ∧
      r.2.sent.map fst = s.sent.map fst ++ supply.take n := by
  induction n generalizing supply copyOffset size s with
  | zero => simp [segmentRounds, segmentLoop]
  | succ n ih =>
    cases supply with
    | nil => simp [segmentRounds, segmentLoop]
    | cons addr supply =>
      obtain ⟨hpackets, hoffset, hmeta, haddrs⟩ := ih supply (copyOffset + min homaMss size)
        (size - min homaMss size) (s.round slot copyOffset size addr)
      rw [length_cons, Nat.succ_min_succ]
      refine ⟨hpackets.trans ?_, hoffset, hmeta, haddrs.trans ?_⟩
      · simp only [Segmenting.round, map_append, List.map_cons, map_nil,
          List.append_assoc]
        rfl
      · simp only [Segmenting.round, map_append, List.append_assoc]
        rfl

theorem call_eq (s : Segmenting) (supply : List Nat) :
    let r := messageTxSegmentation s.m slot supply.length
    (s.call slot supply).sent.map snd = s.sent.map snd ++ r.1 ∧
      (s.call slot supply).m = r.2.1 ∧ (s.call slot supply).finished = r.2.2 := by
  obtain ⟨hpackets, hoffset, hmeta, -⟩ := segmentRounds_eq slot
    (min (homaGetNrBuffersFromLen (s.m.req.buffer.length - s.m.seq.toNat * homaMss))
      txBatchSize) supply (s.m.seq.toNat * homaMss)
    (s.m.req.buffer.length - s.m.seq.toNat * homaMss) s
  refine ⟨hpackets, hmeta, ?_⟩
  unfold Segmenting.call messageTxSegmentation
  dsimp only
  rw [hoffset]

theorem call_length (s : Segmenting) (supply : List Nat) :
    (s.call slot supply).sent.length = s.sent.length + min (min (homaGetNrBuffersFromLen
      (s.m.req.buffer.length - s.m.seq.toNat * homaMss)) txBatchSize) supply.length := by
  obtain ⟨-, -, -, haddrs⟩ := segmentRounds_eq slot
    (min (homaGetNrBuffersFromLen (s.m.req.buffer.length - s.m.seq.toNat * homaMss))
      txBatchSize) supply (s.m.seq.toNat * homaMss)
    (s.m.req.buffer.length - s.m.seq.toNat * homaMss) s
  have hlen := congrArg length haddrs
  rw [length_map, length_append, length_map, length_take] at hlen
  exact hlen

end

/-! ## Buffers -/

/-- `addrs` are the buffers of a message in order, chained, with `prev` as the last. -/
structure Chained (mem : Umem) (prev : Option Nat) (addrs : List Nat) : Prop where
  linked : LinkedFrom mem addrs.head? addrs
  nodup : addrs.Nodup
  last : prev = addrs.getLast?

def Stored (mem : Umem) (x : Nat × Packet) : Prop :=
  ∀ j < x.2.payload.length, x.2.payload[j]? = some ((mem x.1).data (homaPayloadOffset + j))

section

variable {mem mem' : Umem} {prev : Option Nat} {addrs : List Nat} {addr : Nat}

theorem linkBuffer_bufferNext_self (hne : prev ≠ some addr) :
    (linkBuffer mem prev addr addr).bufferNext = none := by
  unfold linkBuffer
  cases prev with
  | none => simp
  | some p =>
    have hp : addr ≠ p := fun h => hne (congrArg some h.symm)
    simp [Umem.setNext, update_of_ne hp]

theorem linkBuffer_bufferNext_prev {p : Nat} :
    (linkBuffer mem (some p) addr p).bufferNext = some addr := by
  simp [linkBuffer, Umem.setNext]

theorem linkBuffer_bufferNext_of_ne {a : Nat} (ha : a ≠ addr) (hprev : prev ≠ some a) :
    (linkBuffer mem prev addr a).bufferNext = (mem a).bufferNext := by
  unfold linkBuffer
  cases prev with
  | none => simp [ha]
  | some p =>
    have hp : a ≠ p := fun h => hprev (congrArg some h.symm)
    simp [Umem.setNext, update_of_ne hp, ha]

theorem linkBuffer_data (a : Nat) : (linkBuffer mem prev addr a).data = (mem a).data := by
  have hclear : (update mem addr { mem addr with bufferNext := none, underReap := false }
      a).data = (mem a).data := by
    by_cases ha : a = addr
    · rw [ha, update_self]
    · rw [update_of_ne ha]
  unfold linkBuffer
  cases prev with
  | none => exact hclear
  | some p =>
    by_cases hp : a = p
    · subst hp
      simpa [Umem.setNext] using hclear
    · simpa [Umem.setNext, update_of_ne hp] using hclear

theorem Chained.link (h : Chained mem prev addrs) (hnew : addr ∉ addrs)
    (hmem : ∀ a, (mem' a).bufferNext = (linkBuffer mem prev addr a).bufferNext) :
    Chained mem' (some addr) (addrs ++ [addr]) := by
  have hprev : prev ≠ some addr := by
    rw [h.last]
    exact fun hlast => hnew (mem_of_getLast? hlast)
  have hend : LinkedFrom mem' (some addr) [addr] :=
    ⟨rfl, (hmem addr).trans (linkBuffer_bufferNext_self hprev)⟩
  refine ⟨?_, nodup_append.mpr ⟨h.nodup, nodup_singleton addr, ?_⟩, by simp⟩
  · cases hlast : addrs.getLast? with
    | none =>
      rw [getLast?_eq_none_iff.mp hlast]
      exact hend
    | some last =>
      have hp : prev = some last := h.last.trans hlast
      have hhead : (addrs ++ [addr]).head? = addrs.head? := by
        rw [head?_append_of_ne_nil _ (by rintro rfl; cases hlast)]
      rw [hhead]
      refine h.linked.append hlast ?_ ?_ hend h.nodup
      · intro a ha hal
        refine (hmem a).trans (linkBuffer_bufferNext_of_ne ?_ ?_)
        · rintro rfl
          exact hnew ha
        · rw [hp]
          exact fun heq => hal (Option.some.inj heq).symm
      · rw [hmem, hp]
        exact linkBuffer_bufferNext_prev
  · intro a ha b hb hab
    rw [mem_singleton] at hb
    exact hnew (hb ▸ hab ▸ ha)

theorem Chained.congr (h : Chained mem prev addrs)
    (heq : ∀ a ∈ addrs, (mem' a).bufferNext = (mem a).bufferNext) : Chained mem' prev addrs :=
  ⟨h.linked.of_bufferNext heq, h.nodup, h.last⟩

theorem Stored.congr {x : Nat × Packet} (h : Stored mem x)
    (heq : ∀ k, homaPayloadOffset ≤ k → (mem' x.1).data k = (mem x.1).data k) : Stored mem' x := by
  intro j hj
  rw [heq _ (Nat.le_add_right _ _)]
  exact h j hj

theorem putPayload_data (f : Frame) (payload : List U8) {j : Nat} (hj : j < payload.length) :
    payload[j]? = some ((f.putPayload payload).data (homaPayloadOffset + j)) := by
  unfold Frame.putPayload
  dsimp only
  rw [if_pos ⟨Nat.le_add_right _ _, by omega⟩, Nat.add_sub_cancel_left, getD_eq_getElem?_getD,
    List.getElem?_eq_getElem hj]
  rfl

end

structure Buffered (s : Segmenting) : Prop where
  chained : Chained s.mem s.prevBufferAddr (s.sent.map Prod.fst)
  stored : ∀ x ∈ s.sent, Stored s.mem x

section

variable (slot : Nat)

theorem Buffered.round (h : Buffered s) (copyOffset size : Nat) {addr : Nat}
    (hnew : addr ∉ s.sent.map fst) : Buffered (s.round slot copyOffset size addr) := by
  unfold Segmenting.round
  generalize buildPacket slot copyOffset size s.m = pkt
  generalize hmem : linkBuffer s.mem s.prevBufferAddr addr = mem
  have hnext (a : Nat) : (update mem addr ((mem addr).putPayload pkt.payload)
      a).bufferNext = (linkBuffer s.mem s.prevBufferAddr addr a).bufferNext := by
    rw [hmem]
    by_cases ha : a = addr
    · rw [ha, update_self]
      rfl
    · rw [update_of_ne ha]
  constructor
  · dsimp only
    rw [map_append]
    exact h.chained.link hnew hnext
  · intro x hx
    dsimp only at hx ⊢
    rcases mem_append.mp hx with hx | hx
    · have hne : x.1 ≠ addr := fun heq => hnew (heq ▸ mem_map_of_mem hx)
      refine (h.stored x hx).congr fun k _ => ?_
      rw [update_of_ne hne, ← hmem, linkBuffer_data]
    · rw [mem_singleton.mp hx]
      intro j hj
      rw [update_self]
      exact putPayload_data _ _ hj

theorem Buffered.rounds (h : Buffered s) (n : Nat)
    (hfresh : (s.sent.map fst ++ supply).Nodup) (copyOffset size : Nat) :
    Buffered (segmentRounds slot n supply copyOffset size s).2 := by
  induction n generalizing supply copyOffset size s with
  | zero => exact h
  | succ n ih =>
    cases supply with
    | nil => exact h
    | cons addr supply =>
      have hnew : addr ∉ s.sent.map fst := fun hmem =>
        (nodup_append.mp hfresh).2.2 addr hmem addr mem_cons_self rfl
      refine ih (h.round slot copyOffset size hnew) ?_ _ _
      rw [Segmenting.round, map_append, List.append_assoc]
      exact hfresh

theorem Buffered.call (h : Buffered s)
    (hfresh : (s.sent.map fst ++ supply).Nodup) : Buffered (s.call slot supply) := by
  obtain ⟨hchained, hstored⟩ := h.rounds slot
    (min (homaGetNrBuffersFromLen (s.m.req.buffer.length - s.m.seq.toNat * homaMss)) txBatchSize)
    hfresh (s.m.seq.toNat * homaMss) (s.m.req.buffer.length - s.m.seq.toNat * homaMss)
  exact ⟨hchained, hstored⟩

end

/-! ## Exactness -/

structure IsSegment (w : Started) (i : Nat) (p : Packet) : Prop where
  seq : p.seq.toNat = i
  offset : p.offset = i * homaMss
  segmentLength : p.segmentLength = min homaMss (w.req.buffer.length - i * homaMss)
  payload : p.payload = (w.req.buffer.drop (i * homaMss)).take p.segmentLength
  messageLength : p.messageLength = w.req.buffer.length
  senderId : p.senderId = w.rpcid

/-- **What is out is an exact part of the message**: its first packets in one chain; the last call
    returned 1 exactly when all are out. -/
structure Exact (w : Started) (s : Segmenting) : Prop where
  count_le : s.sent.length ≤ homaGetNrBuffersFromLen w.req.buffer.length
  segments : ∀ i x, s.sent[i]? = some x → IsSegment w i x.2 ∧ Stored s.mem x
  linked : LinkedFrom s.mem (s.sent.map Prod.fst).head? (s.sent.map Prod.fst)
  finished : s.finished = true ↔ s.sent.length = homaGetNrBuffersFromLen w.req.buffer.length

structure Unsent (w : Started) (s : Segmenting) : Prop where
  m : s.m = ⟨w.req, w.rpcid, 0⟩
  prevBufferAddr : s.prevBufferAddr = none
  sent : s.sent = []
  finished : s.finished = false

/-- A finished message is not segmented again, the cache gives unused buffers, and the others are
    not touched. -/
def Sensible (s : Segmenting) : SegEvent → Prop
  | .call supply => s.finished = false ∧ (s.sent.map Prod.fst ++ supply).Nodup
  | .others mem => ∀ x ∈ s.sent, (mem x.1).bufferNext = (s.mem x.1).bufferNext ∧
      ∀ k, homaPayloadOffset ≤ k → (mem x.1).data k = (s.mem x.1).data k

/-- A call submits as many of the packets that are left as a batch, the buffers and the TX ring
    allow. -/
def Progress (w : Started) (s : Segmenting) : SegEvent → Prop
  | .call supply => (s.call w.slot supply).sent.length = s.sent.length +
      min (min (homaGetNrBuffersFromLen w.req.buffer.length - s.sent.length) txBatchSize)
        supply.length
  | .others _ => True

structure Partial (w : Started) (s : Segmenting) : Prop where
  m : s.m = ⟨w.req, w.rpcid, BitVec.ofNat 16 s.sent.length⟩
  count_le : s.sent.length ≤ w.packets.length
  packets : s.sent.map Prod.snd = w.packets.take s.sent.length
  finished : s.finished = true ↔ s.sent.length = w.packets.length
  buffered : Buffered s

section

variable {w : Started}

theorem Started.isSegment_packet (w : Started) {i : Nat} (hi : i < w.packets.length) :
    IsSegment w i (w.packet i) where
  seq := by
    change (BitVec.ofNat 16 i).toNat = i
    exact Nat.mod_eq_of_lt (hi.trans w.length_packets_lt)
  offset := rfl
  segmentLength := rfl
  payload := rfl
  messageLength := rfl
  senderId := rfl

theorem Partial.exact (h : Partial w s) : Exact w s where
  count_le := w.length_packets ▸ h.count_le
  segments := by
    intro i x hx
    refine ⟨?_, h.buffered.stored x (mem_of_getElem? hx)⟩
    -- the packet is the one of the same number in the list of all
    have hi : i < s.sent.length := (List.getElem?_eq_some_iff.mp hx).1
    have hmap : (s.sent.map snd)[i]? = some x.2 := by rw [getElem?_map, hx]; rfl
    rw [h.packets, getElem?_take_of_lt hi, Started.packets, getElem?_map,
      getElem?_range (by have := h.count_le; rw [w.length_packets] at this; omega)] at hmap
    rw [← Option.some.inj hmap]
    exact w.isSegment_packet (hi.trans_le h.count_le)
  linked := h.buffered.chained.linked
  finished := w.length_packets ▸ h.finished

theorem Unsent.isPartial (h : Unsent w s) (hpos : 0 < w.req.buffer.length) : Partial w s := by
  have hsome : 0 < w.packets.length := by
    by_contra hzero
    rw [w.length_packets, Nat.not_lt, homaGetNrBuffersFromLen_le_iff, Nat.zero_mul] at hzero
    omega
  constructor
  · rw [h.m, h.sent]
    rfl
  · rw [h.sent]
    exact Nat.zero_le _
  · rw [h.sent]
    rfl
  · rw [h.finished, h.sent, length_nil]
    exact iff_of_false Bool.false_ne_true hsome.ne
  · constructor
    · rw [h.sent, h.prevBufferAddr]
      exact ⟨rfl, nodup_nil, rfl⟩
    · rw [h.sent]
      exact fun x hx => absurd hx not_mem_nil

theorem Partial.call (h : Partial w s) (hopen : s.finished = false)
    (hfresh : (s.sent.map fst ++ supply).Nodup) : Partial w (s.call w.slot supply) := by
  have hlt : s.sent.length < w.packets.length := by
    refine lt_of_le_of_ne h.count_le fun heq => ?_
    rw [h.finished.mpr heq] at hopen
    exact absurd hopen (by decide)
  obtain ⟨i, hle, heq⟩ := messageTxSegmentation_eq w (.inr hlt) supply.length
  obtain ⟨hpackets, hmeta, hfinished⟩ := call_eq w.slot s supply
  rw [h.m, heq] at hpackets hmeta hfinished
  rw [h.packets, ← take_add] at hpackets
  have hcount : (s.call w.slot supply).sent.length = s.sent.length + i := by
    have hlen := congrArg length hpackets
    rw [length_map, length_take, min_eq_left hle] at hlen
    exact hlen
  constructor
  · rw [hmeta, hcount]
  · rw [hcount]
    exact hle
  · rw [hcount]
    exact hpackets
  · rw [hfinished, hcount, decide_eq_true_iff]
    omega
  · exact h.buffered.call w.slot hfresh

theorem Partial.others (h : Partial w s) {mem : Umem} (hkeep : Sensible s (.others mem)) :
    Partial w { s with mem := mem } where
  m := h.m
  count_le := h.count_le
  packets := h.packets
  finished := h.finished
  buffered := by
    constructor
    · refine h.buffered.chained.congr fun a ha => ?_
      obtain ⟨x, hx, rfl⟩ := mem_map.mp ha
      exact (hkeep x hx).1
    · exact fun x hx => (h.buffered.stored x hx).congr (hkeep x hx).2

theorem Partial.step (h : Partial w s) {e : SegEvent} (he : Sensible s e) :
    Partial w (segStep w.slot s e) := by
  cases e with
  | call supply => exact h.call he.1 he.2
  | others mem => exact h.others he

theorem Partial.progress (h : Partial w s) (e : SegEvent) : Progress w s e := by
  cases e with
  | call supply =>
    have hseq : (BitVec.ofNat 16 s.sent.length).toNat = s.sent.length := by
      exact Nat.mod_eq_of_lt (h.count_le.trans_lt w.length_packets_lt)
    have hleft : homaGetNrBuffersFromLen (w.req.buffer.length - s.sent.length * homaMss) =
        homaGetNrBuffersFromLen w.req.buffer.length - s.sent.length := by
      simp only [homaGetNrBuffersFromLen, homaMss]
      omega
    refine (call_length w.slot s supply).trans ?_
    rw [h.m]
    rw [hseq, hleft]
  | others mem => trivial

/-- **Segmentation is an exact partition** in every run of calls, and every call gets as far as it
    can. -/
theorem exact_always (h : Unsent w s) (hpos : 0 < w.req.buffer.length) {es : List SegEvent}
    (hes : Meets (segStep w.slot) Sensible s es) :
    Always (segStep w.slot) (Exact w) s es ∧ Meets (segStep w.slot) (Progress w) s es := by
  have hpartial := h.isPartial hpos
  constructor
  · exact (always_of_meets (fun _ _ h he => h.step he) hpartial hes).mono fun _ h => h.exact
  · exact meets_of_inv (fun _ _ h he => h.step he) (fun _ _ h _ => h.progress _) hpartial hes

end

/-! ### A message of three packets -/

theorem threePackets_size : (List.replicate 3000 (7 : U8)).length ≤ maxClassSize := by
  rw [length_replicate]
  decide

def threePackets : Started where
  req := ⟨List.replicate 3000 7, threePackets_size, 0, 0, 0⟩
  slot := 5
  rpcid := 2

def threePacketsUnsent : Segmenting where
  mem := fun _ => ⟨fun _ => 0, none, true⟩
  m := ⟨threePackets.req, 2, 0⟩
  prevBufferAddr := none
  sent := []
  finished := false

theorem exact_always_threePackets :
    Always (segStep threePackets.slot) (Exact threePackets) threePacketsUnsent
        [.call [0x1000], .call [], .call [0x2000, 0x3000, 0x4000]] ∧
      Meets (segStep threePackets.slot) (Progress threePackets) threePacketsUnsent
        [.call [0x1000], .call [], .call [0x2000, 0x3000, 0x4000]] :=
  exact_always ⟨rfl, rfl, rfl, rfl⟩ (by decide +kernel)
    ⟨⟨rfl, by decide⟩, ⟨by decide +kernel, by decide +kernel⟩,
      ⟨by decide +kernel, by decide +kernel⟩, trivial⟩

end MtpXdp.Rpc

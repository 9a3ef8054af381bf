import MtpXdp.Rpc.MessageAssembly

/-!
# Every Message Is Handled Once

The segments of a message arrive in any order and mixed with those of others. Its handler is called
once, when the last segment arrives, with its bytes; and the slot of a request is returned once,
after the handler of its response. `Kept` is what the sending side leaves alone while a handler
runs.
-/

namespace MtpXdp.Rpc

open MtpXdp.Core
open Ebpf (U8 U32 U64)
open Homa (homaMss)
open List Function Option RecvSocket

variable {m : RespMeta} {id : Nat} {s s' : RecvSocket} {d : DataSegment}

/-! ## Messages and their segments -/

structure Message where
  bytes : List U8
  pos : 0 < bytes.length
  le : bytes.length ≤ maxClassSize

def Message.count (m : Message) : Nat := pieceCount homaMss m.bytes.length

structure IsPiece (m : Message) (i : Nat) (d : DataSegment) : Prop where
  index : i < m.count
  messageLength : d.messageLength.toNat = m.bytes.length
  offset : d.offset.toNat = i * homaMss
  segmentLength : d.segmentLength.toNat = min homaMss (m.bytes.length - i * homaMss)
  data : ∀ j < d.segmentLength.toNat, m.bytes[i * homaMss + j]? = some (d.data j)

theorem homaMss_pos : 0 < homaMss := by decide

section

variable {m : Message} {i : Nat}

theorem map_range_eq {l : List U8} {f : Nat → U8} (h : ∀ j < l.length, l[j]? = some (f j)) :
    (List.range l.length).map f = l := by
  refine ext_getElem (by simp) fun j hj _ => ?_
  have hlt : j < l.length := by simpa using hj
  simpa [getElem?_eq_getElem hlt] using (h j hlt).symm

theorem Message.count_pos (m : Message) : 0 < m.count := by
  rw [Message.count, lt_pieceCount_iff homaMss_pos, Nat.zero_mul]
  exact m.pos

theorem Message.count_le_iff (m : Message) : m.count ≤ 1 ↔ m.bytes.length ≤ homaMss := by
  rw [Message.count, pieceCount_le_iff homaMss_pos, Nat.one_mul]

namespace IsPiece

theorem single_iff (h : IsPiece m i d) : d.Single ↔ m.bytes.length ≤ homaMss := by
  rw [DataSegment.Single, BitVec.le_def, h.messageLength]
  rfl

theorem payload_eq (h : IsPiece m i d) (hsingle : d.Single) :
    d.payload d.messageLength.toNat = m.bytes := by
  have hle := h.single_iff.mp hsingle
  have hi : i = 0 := by
    have := h.index
    have := (m.count_le_iff).mpr hle
    omega
  subst hi
  have hseg : d.segmentLength.toNat = m.bytes.length := by
    rw [h.segmentLength]
    omega
  rw [h.messageLength]
  refine map_range_eq fun j hj => ?_
  simpa using h.data j (hseg ▸ hj)

theorem missing_toNat (h : IsPiece m i d) : d.missing.toNat = m.count - 1 := by
  have hle := m.le
  have hpos := m.count_pos
  have hlen := h.messageLength
  simp only [maxClassSize] at hle
  have hsum : (d.messageLength + BitVec.ofNat 32 homaMss - 1).toNat =
      m.bytes.length + homaMss - 1 := by
    simp only [homaMss] at *
    bv_omega
  have hdiv : ((d.messageLength + BitVec.ofNat 32 homaMss - 1) / BitVec.ofNat 32 homaMss).toNat =
      m.count := by
    rw [BitVec.toNat_udiv, hsum]
    rfl
  have hsmall : m.count < 2 ^ 32 := by
    rw [← hdiv]
    exact BitVec.isLt _
  unfold DataSegment.missing
  bv_omega

theorem copied {msg : MsgKey → Message} {k : MsgKey} (h : IsPiece (msg k) i d)
    (mem : Nat → Nat → U8) (b : Nat) :
    PieceCopied homaMss (fun k => (msg k).bytes) mem
      (copyTo mem b d.offset.toNat d.segmentLength.toNat d.data) k i b := by
  have hoff := h.offset
  have hseg := h.segmentLength
  constructor
  · intro x hx
    exact update_of_ne hx _ _
  · intro j hj
    rw [copyTo, update_self, if_neg]
    rintro ⟨hlo, hhi⟩
    refine hj (Nat.div_eq_of_lt_le ?_ ?_)
    · rwa [hoff] at hlo
    · rw [Nat.succ_mul]
      omega
  · intro j hj hlt
    have hlo : i * homaMss ≤ j := hj ▸ Nat.div_mul_le_self j homaMss
    have hhi : j < i * homaMss + homaMss := by
      have := Nat.lt_mul_div_succ j homaMss_pos
      rw [hj, Nat.mul_succ, Nat.mul_comm] at this
      exact this
    have hin : j - i * homaMss < d.segmentLength.toNat := by omega
    have hdata := h.data _ hin
    rw [Nat.add_sub_cancel' hlo] at hdata
    rw [copyTo, update_self, if_pos (by omega), hoff]
    exact hdata

end IsPiece

theorem Message.contents_eq (m : Message) {mem : Nat → Nat → U8} {b : Nat}
    (h : ∀ j < m.bytes.length, m.bytes[j]? = some (mem b j)) :
    (⟨some b, m.bytes.length⟩ : Buffer).contents mem = m.bytes :=
  map_range_eq h

end

/-! ## The sending side -/

def slotCount : Nat := maxOutstandingRpc - 1

structure SlotsOk (s : RecvSocket) : Prop where
  nodup : s.availableSlots.Nodup
  mem_iff : ∀ k, k ∈ s.availableSlots ↔ k < slotCount ∧ (s.reqmetaSlots k).stage = .idle
  busy : ∀ k, (s.reqmetaSlots k).stage ≠ .idle → k < slotCount ∧
    (s.reqmetaSlots k).owner < s.started ∧ s.slotOf (s.reqmetaSlots k).owner = k

structure Kept (s s' : RecvSocket) : Prop where
  mem : s'.mem = s.mem
  reqHandleMap : s'.reqHandleMap = s.reqHandleMap
  arrived : s'.arrived = s.arrived
  log : s'.log = s.log
  held : s'.held = s.held
  waiting : ∀ k, (s.reqmetaSlots k).stage = .waiting → s'.reqmetaSlots k = s.reqmetaSlots k
  receiving : ∀ k, (s'.reqmetaSlots k).stage = .waiting →
    (s'.reqmetaSlots k).buffer.actualSize ≠ 0 → s'.reqmetaSlots k = s.reqmetaSlots k
  started_le : s.started ≤ s'.started
  slotOf : ∀ id < s.started, s'.slotOf id = s.slotOf id
  owner : ∀ k, (s'.reqmetaSlots k).owner = (s.reqmetaSlots k).owner ∧
      ((s.reqmetaSlots k).stage = .idle → (s'.reqmetaSlots k).stage = .idle) ∨
    s.started ≤ (s'.reqmetaSlots k).owner

section

variable {s'' : RecvSocket}

theorem RespMeta.held_of_stage (h : m.stage ≠ .waiting) (id : Nat) : m.held id = none :=
  if_neg fun hx => h hx.2.1

theorem Kept.refl (s : RecvSocket) : Kept s s where
  mem := rfl
  reqHandleMap := rfl
  arrived := rfl
  log := rfl
  held := rfl
  waiting _ _ := rfl
  receiving _ _ _ := rfl
  started_le := le_rfl
  slotOf _ _ := rfl
  owner _ := .inl ⟨rfl, id⟩

theorem Kept.trans (h : Kept s s') (h' : Kept s' s'') : Kept s s'' where
  mem := h'.mem.trans h.mem
  reqHandleMap := h'.reqHandleMap.trans h.reqHandleMap
  arrived := h'.arrived.trans h.arrived
  log := h'.log.trans h.log
  held := h'.held.trans h.held
  waiting k hk := by
    have heq := h.waiting k hk
    exact (h'.waiting k (heq ▸ hk)).trans heq
  receiving k hk hsize := by
    have heq := h'.receiving k hk hsize
    exact heq.trans (h.receiving k (heq ▸ hk) (heq ▸ hsize))
  started_le := h.started_le.trans h'.started_le
  slotOf id hid := (h'.slotOf id (hid.trans_le h.started_le)).trans (h.slotOf id hid)
  owner k := by
    grind [h.owner k, h'.owner k, h.started_le]

theorem SlotsOk.length_lt (h : SlotsOk s) {k : Nat} (hk : (s.reqmetaSlots k).stage ≠ .idle) :
    s.availableSlots.length < slotCount := by
  have hnew : k ∉ s.availableSlots := fun hmem => hk ((h.mem_iff k).mp hmem).2
  have hsub : (k :: s.availableSlots).toFinset ⊆ Finset.range slotCount := by
    intro x hx
    rw [Finset.mem_range]
    rcases List.mem_cons.mp (List.mem_toFinset.mp hx) with rfl | hx
    · exact (h.busy x hk).1
    · exact ((h.mem_iff x).mp hx).1
  have hcard := Finset.card_le_card hsub
  rw [toFinset_card_of_nodup (nodup_cons.mpr ⟨hnew, h.nodup⟩), Finset.card_range,
    length_cons] at hcard
  exact hcard

theorem kept_start (h : SlotsOk s) {slot : Nat} {rest : List Nat}
    (havail : s.availableSlots = slot :: rest) (m : RespMeta) (hstage : m.stage = .sending)
    (howner : m.owner = s.started) {s' : RecvSocket} (hs' : s' = { s with
      availableSlots := rest, nextRpcid := s.nextRpcid + 2
      reqmetaSlots := update s.reqmetaSlots slot m
      started := s.started + 1, slotOf := update s.slotOf s.started slot }) :
    SlotsOk s' ∧ Kept s s' := by
  subst hs'
  obtain ⟨hlt, hidle⟩ := (h.mem_iff slot).mp (havail ▸ mem_cons_self)
  have hnodup := nodup_cons.mp (havail ▸ h.nodup)
  have hmem := h.mem_iff
  have hbusy := h.busy
  refine ⟨⟨hnodup.2, ?_, ?_⟩, ⟨rfl, rfl, rfl, rfl, ?held, ?_, ?_, Nat.le_succ _, ?_, ?_⟩⟩
  case held =>
    -- nobody waits for a response to the new request
    funext key
    cases key with
    | request t => rfl
    | response id => grind [held, RespMeta.held]
  all_goals grind

theorem kept_segmented (h : SlotsOk s) {slot : Nat}
    (hsending : (s.reqmetaSlots slot).stage = .sending) {s' : RecvSocket} (hs' : s' = { s with
      reqmetaSlots := update s.reqmetaSlots slot { s.reqmetaSlots slot with
        buffer := { (s.reqmetaSlots slot).buffer with actualSize := 0 }, stage := .waiting } }) :
    SlotsOk s' ∧ Kept s s' := by
  subst hs'
  have hmem := h.mem_iff
  have hbusy := h.busy
  refine ⟨⟨h.nodup, ?_, ?_⟩, ⟨rfl, rfl, rfl, rfl, ?held, ?_, ?_, le_rfl, fun _ _ => rfl, ?_⟩⟩
  case held =>
    funext key
    cases key with
    | request t => rfl
    | response id => grind [held, RespMeta.held]
  all_goals grind

theorem kept_localStep (h : SlotsOk s) (e : LocalEvent) :
    SlotsOk (localStep s e) ∧ Kept s (localStep s e) := by
  cases e with
  | start buffer dest contHandler =>
    unfold localStep
    cases havail : s.availableSlots with
    | nil => exact ⟨h, Kept.refl s⟩
    | cons slot rest => exact kept_start h havail _ rfl rfl rfl
  | segmented slot =>
    unfold localStep
    dsimp only
    split_ifs with hsending
    · exact kept_segmented h hsending rfl
    · exact ⟨h, Kept.refl s⟩

theorem kept_run (h : SlotsOk s) (es : List LocalEvent) :
    SlotsOk (run localStep s es) ∧ Kept s (run localStep s es) := by
  induction es generalizing s with
  | nil => exact ⟨h, Kept.refl s⟩
  | cons e es ih =>
    obtain ⟨hslots, hkept⟩ := kept_localStep h e
    obtain ⟨hslots', hkept'⟩ := ih hslots
    exact ⟨hslots', hkept.trans hkept'⟩

end

/-! ## The property -/

def RecvSocket.Complete (s : RecvSocket) (msg : MsgKey → Message) (k : MsgKey) : Prop :=
  (s.arrived k).length = (msg k).count
deriving Decidable

/-- Its handler is called with its bytes, and after that of a response the slot is returned. -/
def expected (msg : MsgKey → Message) : MsgKey → List (Option (List U8))
  | .request t => [some (msg (.request t)).bytes]
  | .response id => [some (msg (.response id)).bytes, none]

def RecvSocket.done (s : RecvSocket) (k : MsgKey) : List (Option (List U8)) :=
  (s.log.filter fun x => x.key = k).map Invocation.contents

/-- **Every message is handled once**, as soon as it is complete, and the slot of a response is
    returned once. -/
structure HandledOnce (msg : MsgKey → Message) (s : RecvSocket) : Prop where
  done : ∀ k, s.done k = if s.Complete msg k then expected msg k else []
  nodup : s.availableSlots.Nodup
  returned : ∀ id, s.Complete msg (.response id) →
    (s.reqmetaSlots (s.slotOf id)).owner = id → s.slotOf id ∈ s.availableSlots

/-- A segment of `k` that has not arrived before; a buffer allocated for it is not in use. -/
structure NewPiece (msg : MsgKey → Message) (s : RecvSocket) (k : MsgKey) (d : DataSegment)
    (fresh : Nat) : Prop where
  piece : IsPiece (msg k) (d.offset.toNat / homaMss) d
  new : d.offset.toNat / homaMss ∉ s.arrived k
  fresh : ¬ d.Single → s.held k = none → ∀ l c, s.held l ≠ some (fresh, c)

/-- Honest header fields, responses to segmented requests, and nothing else touches the bounce
    buffers. -/
def Honest (msg : MsgKey → Message) (s : RecvSocket) : RecvEvent → Prop
  | .request _ d remoteIp rpcid fresh =>
    NewPiece msg s (.request ⟨remoteIp, d.sport, rpcid⟩) d fresh
  | .response id _ d fresh _ => NewPiece msg s (.response id) d fresh ∧
    d.unused1.toNat = s.slotOf id ∧ (s.reqmetaSlots (s.slotOf id)).owner = id ∧
    (s.reqmetaSlots (s.slotOf id)).stage = .waiting
  | .sender _ => True
  | .others mem => ∀ k b c, s.held k = some (b, c) → mem b = s.mem b

/-! ## The invariant -/

structure ReceiveInv (msg : MsgKey → Message) (s : RecvSocket) : Prop where
  assembling : Assembling homaMss (fun k => (msg k).bytes) s.arrived s.mem s.held
  handle : ∀ t h, s.reqHandleMap t = some h →
    ∃ b, h.buffer = ⟨some b, (msg (.request t)).bytes.length⟩
  slot : ∀ k, (s.reqmetaSlots k).stage = .waiting → (s.reqmetaSlots k).buffer.actualSize ≠ 0 →
    ∃ b, (s.reqmetaSlots k).buffer =
      ⟨some b, (msg (.response (s.reqmetaSlots k).owner)).bytes.length⟩
  slots : SlotsOk s
  unstarted : ∀ id, s.started ≤ id → s.arrived (.response id) = []
  finished : ∀ id, s.Complete msg (.response id) → (s.reqmetaSlots (s.slotOf id)).owner = id →
    s.slotOf id < slotCount ∧ (s.reqmetaSlots (s.slotOf id)).stage = .idle
  done : ∀ k, s.done k = if s.Complete msg k then expected msg k else []

section

variable {msg : MsgKey → Message} {k : MsgKey} {fresh : Nat}

theorem ReceiveInv.handledOnce (h : ReceiveInv msg s) : HandledOnce msg s :=
  ⟨h.done, h.slots.nodup, fun id hc ho => (h.slots.mem_iff _).mpr (h.finished id hc ho)⟩

theorem not_complete_of_nil (h : s.arrived k = []) : ¬ s.Complete msg k := by
  intro hc
  rw [RecvSocket.Complete, h, length_nil] at hc
  exact absurd hc (msg k).count_pos.ne

theorem ReceiveInv.kept (h : ReceiveInv msg s) (hslots : SlotsOk s') (hkept : Kept s s') :
    ReceiveInv msg s' where
  assembling := by
    rw [hkept.arrived, hkept.mem, hkept.held]
    exact h.assembling
  handle := hkept.reqHandleMap ▸ h.handle
  slot k hwait hsize := by
    have heq := hkept.receiving k hwait hsize
    rw [heq] at hwait hsize ⊢
    exact h.slot k hwait hsize
  slots := hslots
  unstarted id hid := by
    rw [hkept.arrived]
    exact h.unstarted id (hkept.started_le.trans hid)
  finished id hc ho := by
    have hc : s.Complete msg (.response id) := by
      rwa [RecvSocket.Complete, hkept.arrived] at hc
    have hid : id < s.started := by
      by_contra hge
      exact not_complete_of_nil (h.unstarted id (Nat.le_of_not_lt hge)) hc
    rw [hkept.slotOf id hid] at ho ⊢
    have howner := hkept.owner (s.slotOf id)
    have hbefore := h.finished id hc
    grind
  done k := by
    have hdone : s'.done k = s.done k := by rw [RecvSocket.done, RecvSocket.done, hkept.log]
    have hc : s'.Complete msg k ↔ s.Complete msg k := by
      rw [RecvSocket.Complete, RecvSocket.Complete, hkept.arrived]
    rw [hdone, h.done k]
    simp only [hc]

theorem ReceiveInv.others (h : ReceiveInv msg s) {mem : Nat → Nat → U8}
    (hmem : ∀ k b c, s.held k = some (b, c) → mem b = s.mem b) :
    ReceiveInv msg { s with mem := mem } :=
  ⟨h.assembling.congr hmem, h.handle, h.slot, ⟨h.slots.nodup, h.slots.mem_iff, h.slots.busy⟩,
    h.unstarted, h.finished, h.done⟩

theorem ReceiveInv.done_arrive (h : ReceiveInv msg s) (hnew : NewPiece msg s k d fresh)
    (log : List Invocation) (hlog : s'.log = s.log ++ log) (hkeys : ∀ x ∈ log, x.key = k)
    (harrived : s'.arrived = update s.arrived k (d.offset.toNat / homaMss :: s.arrived k))
    (hdone : log.map Invocation.contents = if s'.Complete msg k then expected msg k else [])
    (l : MsgKey) : s'.done l = if s'.Complete msg l then expected msg l else [] := by
  have hbefore := h.done l
  unfold RecvSocket.done at hbefore ⊢
  rw [hlog, filter_append, map_append, hbefore]
  by_cases hl : l = k
  · subst hl
    have hlt := h.assembling.length_lt hnew.piece.index hnew.new
    have hopen : ¬ s.Complete msg l := fun hc => absurd hc (ne_of_lt hlt)
    rw [if_neg hopen, nil_append, filter_eq_self.mpr fun x hx =>
      decide_eq_true (hkeys x hx)]
    exact hdone
  · have hsame : s'.Complete msg l ↔ s.Complete msg l := by
      rw [RecvSocket.Complete, RecvSocket.Complete, harrived, update_of_ne hl]
    have hnone : (log.filter fun x => x.key = l) = [] := by
      refine filter_eq_nil_iff.mpr fun x hx => ?_
      rw [hkeys x hx, decide_eq_true_iff]
      exact fun hkl => hl hkl.symm
    rw [hnone, map_nil, append_nil]
    simp only [hsame]

/-! ### Copying a segment -/

theorem count_sub_one {c : U32} {a n : Nat} (h : c.toNat + a = n) (hlt : a < n) :
    (c - 1 = 0 ↔ a + 1 = n) ∧ (c - 1).toNat = n - (a + 1) := by
  have hsub : (c - 1).toNat = c.toNat - 1 := by bv_omega
  refine ⟨?_, by omega⟩
  rw [← BitVec.toNat_inj, hsub]
  change c.toNat - 1 = 0 ↔ _
  omega

section

variable (h : ReceiveInv msg s) (hnew : NewPiece msg s k d fresh)
include h hnew

theorem ReceiveInv.put_single (hsingle : d.Single) : Assembling homaMss (fun k => (msg k).bytes)
        (update s.arrived k (d.offset.toNat / homaMss :: s.arrived k)) s.mem s.held ∧
      (s.arrived k).length + 1 = (msg k).count := by
  have hle := hnew.piece.single_iff.mp hsingle
  refine ⟨h.assembling.single hnew.piece.index hnew.new hle, ?_⟩
  have hone := (msg k).count_le_iff.mpr hle
  have hlt : (s.arrived k).length < (msg k).count :=
    h.assembling.length_lt hnew.piece.index hnew.new
  omega

theorem ReceiveInv.put_first (hmulti : ¬ d.Single) (hheld : s.held k = none) :
    Assembling homaMss (fun k => (msg k).bytes)
        (update s.arrived k (d.offset.toNat / homaMss :: s.arrived k))
        (copyTo s.mem fresh d.offset.toNat d.segmentLength.toNat d.data)
        (update s.held k (some (fresh, d.missing.toNat))) ∧
      (s.arrived k).length + 1 ≠ (msg k).count := by
  have hm : homaMss < (msg k).bytes.length := by
    rw [hnew.piece.single_iff] at hmulti
    omega
  have hnil := h.assembling.arrived_nil hnew.piece.index hnew.new hm hheld
  have hmore : (s.arrived k).length + 1 < pieceCount homaMss (msg k).bytes.length := by
    rw [hnil]
    exact one_lt_pieceCount homaMss_pos hm
  refine ⟨?_, hmore.ne⟩
  have hput := h.assembling.put hnew.piece.index hnew.new hm
    (fun x c hx => absurd hx (by rw [hheld]; simp)) (fun l _ c => hnew.fresh hmulti hheld l c)
    (hnew.piece.copied s.mem fresh)
  rw [if_pos hmore] at hput
  rw [hnew.piece.missing_toNat]
  rw [hnil] at hput ⊢
  exact hput

theorem ReceiveInv.put_later {b : Nat} {c : U32} (hheld : s.held k = some (b, c.toNat)) :
    Assembling homaMss (fun k => (msg k).bytes)
        (update s.arrived k (d.offset.toNat / homaMss :: s.arrived k))
        (copyTo s.mem b d.offset.toNat d.segmentLength.toNat d.data)
        (update s.held k (if c - 1 = 0 then none else some (b, (c - 1).toNat))) ∧
      (c - 1 = 0 ↔ (s.arrived k).length + 1 = (msg k).count) ∧
      (c - 1 = 0 → (⟨some b, (msg k).bytes.length⟩ : Buffer).contents
        (copyTo s.mem b d.offset.toNat d.segmentLength.toNat d.data) = (msg k).bytes) := by
  have hm := ((h.assembling.held_iff k).mp (by rw [hheld]; rfl)).1
  have hlt := h.assembling.length_lt hnew.piece.index hnew.new
  obtain ⟨hzero, hcount⟩ := count_sub_one (h.assembling.missing k b _ hheld) hlt
  have hcopy := hnew.piece.copied s.mem b
  refine ⟨?_, hzero, fun hlast => (msg k).contents_eq ?_⟩
  · have hput := h.assembling.put hnew.piece.index hnew.new hm
      (fun x c hx => (Prod.mk.inj (some.inj (hx.symm.trans hheld))).1)
      (fun l hl c hx => hl (h.assembling.distinct l k b _ _ hx hheld)) hcopy
    by_cases hlast : c - 1 = 0
    · rw [if_neg (by have := hzero.mp hlast; omega)] at hput
      rw [if_pos hlast]
      exact hput
    · rw [if_pos (lt_of_le_of_ne hlt fun heq => hlast (hzero.mpr heq)), ← hcount] at hput
      rw [if_neg hlast]
      exact hput
  · exact h.assembling.complete hnew.piece.index hnew.new homaMss_pos hheld hcopy (hzero.mp hlast)

end

theorem complete_arrive (harrived : s'.arrived =
    update s.arrived k (d.offset.toNat / homaMss :: s.arrived k)) :
    s'.Complete msg k ↔ (s.arrived k).length + 1 = (msg k).count := by
  rw [RecvSocket.Complete, harrived, update_self, length_cons]

/-! ### Requests -/

theorem held_setHandle {t : RpcTuple} {v : Option InternalReqHandle}
    (hmap : s'.reqHandleMap = update s.reqHandleMap t v)
    (hslots : s'.reqmetaSlots = s.reqmetaSlots) (hslotOf : s'.slotOf = s.slotOf) :
    s'.held = update s.held (.request t) (v.bind InternalReqHandle.held) := by
  funext key
  cases key <;>
    simp only [held, hmap, hslots, hslotOf, update_apply] <;> grind

theorem ReceiveInv.request_of (h : ReceiveInv msg s) {t : RpcTuple}
    (hnew : NewPiece msg s (.request t) d fresh) (hslots : s'.reqmetaSlots = s.reqmetaSlots)
    (havail : s'.availableSlots = s.availableSlots) (hstarted : s'.started = s.started)
    (hslotOf : s'.slotOf = s.slotOf)
    (harrived : s'.arrived = update s.arrived (.request t)
      (d.offset.toNat / homaMss :: s.arrived (.request t)))
    (v : Option InternalReqHandle) (hmap : s'.reqHandleMap = update s.reqHandleMap t v)
    (hv : ∀ g, v = some g → ∃ b, g.buffer = ⟨some b, (msg (.request t)).bytes.length⟩)
    (hassembling : Assembling homaMss (fun k => (msg k).bytes) s'.arrived s'.mem
      (update s.held (.request t) (v.bind InternalReqHandle.held)))
    {log : List Invocation} (hlog : s'.log = s.log ++ log) (hkeys : ∀ x ∈ log, x.key = .request t)
    (hdone : log.map Invocation.contents =
      if (s.arrived (.request t)).length + 1 = (msg (.request t)).count then
        [some (msg (.request t)).bytes] else []) : ReceiveInv msg s' where
  assembling := by
    rw [held_setHandle hmap hslots hslotOf]
    exact hassembling
  handle u g hu := by
    have hbefore := h.handle u g
    rw [hmap] at hu
    grind
  slot := hslots ▸ h.slot
  slots := by
    refine ⟨havail ▸ h.slots.nodup, ?_, ?_⟩
    · rw [havail, hslots]
      exact h.slots.mem_iff
    · rw [hslots, hstarted, hslotOf]
      exact h.slots.busy
  unstarted id hid := by
    rw [harrived, update_of_ne MsgKey.noConfusion]
    exact h.unstarted id (hstarted ▸ hid)
  finished id hc ho := by
    rw [RecvSocket.Complete, harrived, update_of_ne MsgKey.noConfusion] at hc
    rw [hslotOf, hslots] at ho ⊢
    exact h.finished id hc ho
  done := by
    refine h.done_arrive hnew log hlog hkeys harrived ?_
    simp only [complete_arrive harrived, expected]
    exact hdone

theorem ReceiveInv.request (h : ReceiveInv msg s) (qidx : U8) {remoteIp : U32} {rpcid : U64}
    (hnew : NewPiece msg s (.request ⟨remoteIp, d.sport, rpcid⟩) d fresh) :
    ReceiveInv msg (recvStep s (.request qidx d remoteIp rpcid fresh)) := by
  unfold recvStep serverRequest
  dsimp only
  generalize ht : (⟨remoteIp, d.sport, rpcid⟩ : RpcTuple) = t at hnew
  split_ifs with hsingle
  · -- the entry is left as it is
    obtain ⟨hassembling, hlast⟩ := h.put_single hnew hsingle
    refine h.request_of hnew rfl rfl rfl rfl rfl (s.reqHandleMap t)
      (update_eq_self t s.reqHandleMap).symm (h.handle t) ?_ rfl
      (by simp [Invocation.key]) ?_
    · rw [show (s.reqHandleMap t).bind InternalReqHandle.held = s.held (.request t) from rfl,
        update_eq_self]
      exact hassembling
    · rw [if_pos hlast, hnew.piece.payload_eq hsingle |>.symm]
      rfl
  · cases hmap : s.reqHandleMap t with
    | none =>
      have hheld : s.held (.request t) = none := by rw [held, hmap]; rfl
      obtain ⟨hassembling, hmore⟩ := h.put_first hnew hsingle hheld
      refine h.request_of hnew rfl rfl rfl rfl rfl (some _) rfl ?_ hassembling
        (append_nil _).symm (by simp) (if_neg hmore).symm
      intro g hg
      obtain rfl := some.inj hg
      exact ⟨fresh, by rw [hnew.piece.messageLength]⟩
    | some g =>
      obtain ⟨b, hb⟩ := h.handle t g hmap
      have hheld : s.held (.request t) = some (b, g.count.toNat) := by
        rw [held, hmap, bind_some, InternalReqHandle.held, hb]
        rfl
      obtain ⟨hassembling, hzero, hcontents⟩ := h.put_later hnew hheld
      have hcopy : g.buffer.copy s.mem d =
          copyTo s.mem b d.offset.toNat d.segmentLength.toNat d.data := by
        rw [hb]
        rfl
      dsimp only
      rw [hcopy]
      split_ifs with hlast
      · rw [if_pos hlast] at hassembling
        refine h.request_of hnew rfl rfl rfl rfl rfl none rfl (by simp) hassembling rfl
          (by simp [Invocation.key]) ?_
        rw [if_pos (hzero.mp hlast), ← hcontents hlast, ← hb]
        rfl
      · rw [if_neg hlast] at hassembling
        refine h.request_of hnew rfl rfl rfl rfl rfl (some { g with count := g.count - 1 }) rfl
          ?_ ?_ (append_nil _).symm (by simp) (if_neg fun heq => hlast (hzero.mpr heq)).symm
        · intro g' hg'
          obtain rfl := some.inj hg'
          exact ⟨b, hb⟩
        · rw [bind_some, InternalReqHandle.held, hb]
          exact hassembling

/-! ### Responses -/

structure SlotSet (s s' : RecvSocket) (id : Nat) (m : RespMeta) : Prop where
  owner : m.owner = id
  stage : m.stage = .waiting
  reqmetaSlots : s'.reqmetaSlots = update s.reqmetaSlots (s.slotOf id) m
  reqHandleMap : s'.reqHandleMap = s.reqHandleMap
  availableSlots : s'.availableSlots = s.availableSlots
  started : s'.started = s.started
  slotOf : s'.slotOf = s.slotOf

structure SlotReturned (s s' : RecvSocket) (id : Nat) (d : DataSegment) : Prop where
  stage : (s'.reqmetaSlots (s.slotOf id)).stage = .idle
  owner : (s'.reqmetaSlots (s.slotOf id)).owner = id
  others : ∀ k, k ≠ s.slotOf id → s'.reqmetaSlots k = s.reqmetaSlots k
  reqHandleMap : s'.reqHandleMap = s.reqHandleMap
  availableSlots : s'.availableSlots = ringPush s.availableSlots (s.slotOf id)
  started : s'.started = s.started
  slotOf : s'.slotOf = s.slotOf
  log : s'.log = s.log ++ [.slotFree id (s.slotOf id)]
  mem : s'.mem = s.mem
  arrived : s'.arrived = update s.arrived (.response id)
    (d.offset.toNat / homaMss :: s.arrived (.response id))

theorem held_setSlot (hmap : s'.reqHandleMap = s.reqHandleMap) (hslotOf : s'.slotOf = s.slotOf)
    (hslots : s'.reqmetaSlots = update s.reqmetaSlots (s.slotOf id) m)
    (howner : m.owner = id) (hbefore : (s.reqmetaSlots (s.slotOf id)).owner = id) :
    s'.held = update s.held (.response id) (m.held id) := by
  -- the slot is not in use for another request
  funext key
  cases key <;>
    simp only [held, hmap, hslots, hslotOf, update_apply] <;> grind [RespMeta.held]

namespace SlotSet

variable (h : SlotSet s s' id m) (hown : (s.reqmetaSlots (s.slotOf id)).owner = id)
  (hwait : (s.reqmetaSlots (s.slotOf id)).stage = .waiting)

include h hown hwait

omit hwait in
theorem held_eq : s'.held = update s.held (.response id) (m.held id) :=
  held_setSlot h.reqHandleMap h.slotOf h.reqmetaSlots h.owner hown

theorem use_eq (k : Nat) : (s'.reqmetaSlots k).stage = (s.reqmetaSlots k).stage ∧
    (s'.reqmetaSlots k).owner = (s.reqmetaSlots k).owner := by
  have howner := h.owner
  have hstage := h.stage
  rw [h.reqmetaSlots]
  grind

theorem slotsOk (hs : SlotsOk s) : SlotsOk s' := by
  have huse := h.use_eq hown hwait
  refine ⟨h.availableSlots ▸ hs.nodup, fun k => ?_, fun k hk => ?_⟩
  · rw [h.availableSlots, (huse k).1]
    exact hs.mem_iff k
  · rw [(huse k).1] at hk
    rw [(huse k).2, h.started, h.slotOf]
    exact hs.busy k hk

end SlotSet

theorem slotReturned_pushSlot {s₂ : RecvSocket} (hslotOf : s₂.slotOf id = s.slotOf id)
    (hm : m.owner = id) :
    SlotReturned s₂ (((s₂.setSlot (s.slotOf id) m).pushSlot (s.slotOf id)).arrive (.response id) d)
      id d := by
  have hset : (s₂.setSlot (s.slotOf id) m).reqmetaSlots (s.slotOf id) = m :=
    update_self _ _ _
  have hpush : (((s₂.setSlot (s.slotOf id) m).pushSlot (s.slotOf id)).arrive (.response id)
      d).reqmetaSlots (s.slotOf id) = { m with stage := .idle } := by
    change update _ (s.slotOf id) _ (s.slotOf id) = _
    rw [update_self, hset]
  constructor
  case stage => rw [hslotOf, hpush]
  case owner => rwa [hslotOf, hpush]
  case others =>
    intro k hk
    rw [hslotOf] at hk
    exact (update_of_ne hk _ _).trans (update_of_ne hk _ _)
  case log =>
    change s₂.log ++ [.slotFree ((s₂.setSlot (s.slotOf id) m).reqmetaSlots (s.slotOf id)).owner _] =
      _
    rw [hset, hm, hslotOf]
  all_goals rw [← hslotOf]; rfl

theorem slotSet_callHandler (hm : m.owner = id) (hstage : m.stage = .waiting)
    (mem : Nat → Nat → U8) (c : List U8) :
    ∃ s₁ : RecvSocket, SlotSet s s₁ id m ∧
      s₁.log = s.log ++ [.response id m.contHandler ⟨c, m.dest, m.rpcid⟩] ∧
      s₁.arrived = s.arrived ∧ s₁.mem = mem ∧
      ∀ inner, ({ s with mem := mem }.setSlot (s.slotOf id) m).callHandler (s.slotOf id) c inner =
        run localStep s₁ inner := by
  have hset : ({ s with mem := mem }.setSlot (s.slotOf id) m).reqmetaSlots (s.slotOf id) = m :=
    update_self _ _ _
  refine ⟨{ { s with mem := mem }.setSlot (s.slotOf id) m with
    log := s.log ++ [.response id m.contHandler ⟨c, m.dest, m.rpcid⟩] },
    ⟨hm, hstage, rfl, rfl, rfl, rfl, rfl⟩, rfl, rfl, rfl, fun inner => ?_⟩
  unfold callHandler
  rw [hset]
  dsimp only
  rw [hm]
  rfl

section

variable (h : ReceiveInv msg s) (hnew : NewPiece msg s (.response id) d fresh)
  (hown : (s.reqmetaSlots (s.slotOf id)).owner = id)
  (hwait : (s.reqmetaSlots (s.slotOf id)).stage = .waiting)

include h hnew hown hwait

omit hnew in
theorem ReceiveInv.slot_lt : s.slotOf id < slotCount ∧ id < s.started := by
  obtain ⟨hlt, hstarted, -⟩ := h.slots.busy (s.slotOf id) (by rw [hwait]; decide)
  exact ⟨hlt, hown ▸ hstarted⟩

theorem ReceiveInv.response_more (hset : SlotSet s s' id m)
    (hbuffer : ∃ b, m.buffer = ⟨some b, (msg (.response id)).bytes.length⟩) (hlog : s'.log = s.log)
    (harrived : s'.arrived = update s.arrived (.response id)
      (d.offset.toNat / homaMss :: s.arrived (.response id)))
    (hmore : (s.arrived (.response id)).length + 1 ≠ (msg (.response id)).count)
    (hassembling : Assembling homaMss (fun k => (msg k).bytes) s'.arrived s'.mem
      (update s.held (.response id) (m.held id))) : ReceiveInv msg s' := by
  obtain ⟨-, hid⟩ := h.slot_lt hown hwait
  have huse := hset.use_eq hown hwait
  refine ⟨?_, hset.reqHandleMap ▸ h.handle, ?_, hset.slotsOk hown hwait h.slots, ?_, ?_, ?_⟩
  · rw [hset.held_eq hown]
    exact hassembling
  · intro k hk hsize
    have hbefore := h.slot k
    have howner := hset.owner
    rw [hset.reqmetaSlots] at hk hsize ⊢
    grind
  · intro i hi
    have hbefore := h.unstarted i
    rw [hset.started] at hi
    rw [harrived]
    grind
  · intro i hc
    have hbefore := h.finished i
    rw [RecvSocket.Complete, harrived] at hc
    rw [hset.slotOf, (huse _).1, (huse _).2]
    grind [RecvSocket.Complete]
  · refine h.done_arrive hnew [] (hlog.trans (append_nil _).symm) (by simp) harrived ?_
    rw [if_neg fun hc => hmore ((complete_arrive harrived).mp hc)]
    rfl

theorem ReceiveInv.response_last {s₁ s₂ : RecvSocket} (hset : SlotSet s s₁ id m)
    {handler : Nat} {c : ContHandle} (hlog : s₁.log = s.log ++ [.response id handler c])
    (hcontents : c.contents = (msg (.response id)).bytes) (harrived₁ : s₁.arrived = s.arrived)
    (hinner : SlotsOk s₁ → SlotsOk s₂ ∧ Kept s₁ s₂) (hret : s₂.slotOf id = s.slotOf id →
      s₂.reqmetaSlots (s.slotOf id) = m → SlotReturned s₂ s' id d)
    (hlast : (s.arrived (.response id)).length + 1 = (msg (.response id)).count)
    (hassembling : Assembling homaMss (fun k => (msg k).bytes)
      (update s.arrived (.response id)
        (d.offset.toNat / homaMss :: s.arrived (.response id))) s₁.mem
      (update s.held (.response id) none)) : ReceiveInv msg s' := by
  obtain ⟨hlt, hid⟩ := h.slot_lt hown hwait
  have huse := hset.use_eq hown hwait
  obtain ⟨hok, hkept⟩ := hinner (hset.slotsOk hown hwait h.slots)
  -- the handler does not touch the slot
  have hslotOf (i : Nat) (hi : i < s.started) : s₂.slotOf i = s.slotOf i := by
    rw [hkept.slotOf i (hset.started ▸ hi), hset.slotOf]
  have hslot : s₂.reqmetaSlots (s.slotOf id) = m := by
    rw [hkept.waiting _ ((huse _).1.trans hwait), hset.reqmetaSlots, update_self]
  obtain ⟨hstage, howner, hothers, hmap, havail, hstarted, hslots, hfree, hmem, harrived⟩ :=
    hret (hslotOf id hid) hslot
  rw [hslotOf id hid] at hstage howner hothers havail hfree
  have hbusy : (s₂.reqmetaSlots (s.slotOf id)).stage ≠ .idle := by
    rw [hslot, hset.stage]
    decide
  -- there is room for the slot
  have havail : s'.availableSlots = s₂.availableSlots ++ [s.slotOf id] := by
    exact havail.trans (if_neg (ne_of_lt (hok.length_lt hbusy)))
  have hnotin : s.slotOf id ∉ s₂.availableSlots := fun hin => hbusy ((hok.mem_iff _).mp hin).2
  have harrived : s'.arrived = update s.arrived (.response id)
      (d.offset.toNat / homaMss :: s.arrived (.response id)) := by
    rw [harrived, hkept.arrived, harrived₁]
  refine ⟨?_, ?_, ?_, ⟨?_, ?_, ?_⟩, ?_, ?_, ?_⟩
  · have hheld : s'.held = update s₂.held (.response id)
        ((s'.reqmetaSlots (s.slotOf id)).held id) := by
      refine held_setSlot hmap hslots ?_ howner ?_
      · funext k
        grind
      · rw [hslotOf id hid, hslot, hset.owner]
    rw [hheld, hkept.held, hset.held_eq hown, update_idem,
      RespMeta.held_of_stage (by rw [hstage]; decide) id, harrived, hmem, hkept.mem]
    exact hassembling
  · rw [hmap, hkept.reqHandleMap, hset.reqHandleMap]
    exact h.handle
  · intro k
    have hbefore := h.slot k
    have hreceiving := hkept.receiving k
    rw [hset.reqmetaSlots] at hreceiving
    grind
  · have hnodup := hok.nodup
    grind
  · intro k
    have hmem := hok.mem_iff k
    grind
  · intro k hk
    have hbusy := hok.busy k
    grind
  · intro i hi
    have hbefore := h.unstarted i
    have hle := hkept.started_le
    rw [hset.started] at hle
    rw [harrived]
    grind
  · intro i hc ho
    by_cases hi : i = id
    · grind
    · have hc : s.Complete msg (.response i) := by
        rw [RecvSocket.Complete, harrived] at hc
        grind [RecvSocket.Complete]
      have hlti : i < s.started := by
        by_contra hge
        exact not_complete_of_nil (h.unstarted i (Nat.le_of_not_lt hge)) hc
      -- the slot of another request was not touched, unless it is in use again
      have hfinished := h.finished i hc
      have howner' := hkept.owner (s.slotOf i)
      rw [hset.started] at howner'
      grind
  · refine h.done_arrive hnew [.response id handler c, .slotFree id (s.slotOf id)] ?_ ?_
      harrived ?_
    · rw [hfree, hkept.log, hlog, List.append_assoc]
      rfl
    · simp [Invocation.key]
    · rw [if_pos ((complete_arrive harrived).mpr hlast), expected, ← hcontents]
      rfl

theorem ReceiveInv.response (qidx : U8) (inner : List LocalEvent)
    (hslot : d.unused1.toNat = s.slotOf id) :
    ReceiveInv msg (recvStep s (.response id qidx d fresh inner)) := by
  unfold recvStep clientResponse
  dsimp only
  rw [hslot]
  generalize hm : s.reqmetaSlots (s.slotOf id) = m
  have hmown : m.owner = id := hm ▸ hown
  have hmwait : m.stage = .waiting := hm ▸ hwait
  by_cases hsingle : d.Single
  · rw [if_pos hsingle]
    obtain ⟨hassembling, hcount⟩ := h.put_single hnew hsingle
    obtain ⟨s₁, hset, hlog, harrived, hmem, hcall⟩ := slotSet_callHandler (s := s)
      (m := { m with buffer := ⟨none, d.messageLength.toNat⟩ }) hmown hmwait s.mem
      (d.payload d.messageLength.toNat)
    rw [show s.setSlot (s.slotOf id) { m with buffer := ⟨none, d.messageLength.toNat⟩ } =
      { s with mem := s.mem }.setSlot (s.slotOf id)
        { m with buffer := ⟨none, d.messageLength.toNat⟩ } from rfl, hcall]
    refine h.response_last hnew hown hwait hset hlog (hnew.piece.payload_eq hsingle) harrived
      (fun hok => kept_run hok inner) ?_ hcount ?_
    · intro hslotOf hslot₂
      exact slotReturned_pushSlot hslotOf (by rw [hslot₂]; exact hmown)
    · -- no buffer is held for a message of one packet
      have hnone : s.held (.response id) = none := by
        rw [← not_isSome_iff_eq_none, h.assembling.held_iff]
        exact fun hx => absurd hx.1 (Nat.not_lt.mpr (hnew.piece.single_iff.mp hsingle))
      rw [← hnone, update_eq_self, hmem]
      exact hassembling
  rw [if_neg hsingle]
  by_cases hfirst : m.buffer.actualSize = 0
  · rw [if_pos hfirst]
    have hheld : s.held (.response id) = none := by
      rw [held, hm]
      exact if_neg fun hx => hx.2.2 hfirst
    obtain ⟨hassembling, hmore⟩ := h.put_first hnew hsingle hheld
    have hlen := hnew.piece.messageLength
    refine h.response_more hnew hown hwait
      (m := { m with buffer := ⟨some fresh, d.messageLength.toNat⟩, recvCount := d.missing })
      ⟨hmown, hmwait, rfl, rfl, rfl, rfl, rfl⟩ ⟨fresh, by rw [hlen]⟩ rfl rfl hmore ?_
    have hsize : d.messageLength.toNat ≠ 0 := hlen ▸ (msg (.response id)).pos.ne'
    rw [RespMeta.held, if_pos ⟨hmown, hmwait, hsize⟩]
    exact hassembling
  · rw [if_neg hfirst]
    obtain ⟨b, hb⟩ := h.slot (s.slotOf id) hwait (by rw [hm]; exact hfirst)
    rw [hm, hmown] at hb
    have hheld : s.held (.response id) = some (b, m.recvCount.toNat) := by
      rw [held, hm, RespMeta.held, if_pos ⟨hmown, hmwait, hfirst⟩, hb]
      rfl
    obtain ⟨hassembling, hzero, hcontents⟩ := h.put_later hnew hheld
    have hcopy : m.buffer.copy s.mem d =
        copyTo s.mem b d.offset.toNat d.segmentLength.toNat d.data := by
      rw [hb]
      rfl
    split_ifs with hlast
    · rw [if_pos hlast] at hassembling
      obtain ⟨s₁, hset, hlog, harrived, hmem, hcall⟩ := slotSet_callHandler (s := s)
        (m := { m with recvCount := m.recvCount - 1 }) hmown hmwait (m.buffer.copy s.mem d)
        (m.buffer.contents (m.buffer.copy s.mem d))
      rw [hcall]
      refine h.response_last hnew hown hwait hset hlog ?_ harrived
        (fun hok => kept_run hok inner) ?_ (hzero.mp hlast) ?_
      · rw [← hcontents hlast, hcopy, ← hb]
      · intro hslotOf hslot₂
        have hsame : (run localStep s₁ inner).setSlot (s.slotOf id)
            ((run localStep s₁ inner).reqmetaSlots (s.slotOf id)) = run localStep s₁ inner := by
          unfold setSlot
          rw [update_eq_self]
        have howner : ((run localStep s₁ inner).reqmetaSlots (s.slotOf id)).owner = id := by
          rw [hslot₂]
          exact hmown
        have hret := slotReturned_pushSlot (d := d) hslotOf howner
        rwa [hsame] at hret
      · rw [hmem, hcopy]
        exact hassembling
    · rw [if_neg hlast] at hassembling
      refine h.response_more hnew hown hwait (m := { m with recvCount := m.recvCount - 1 })
        ⟨hmown, hmwait, rfl, rfl, rfl, rfl, rfl⟩ ⟨b, hb⟩ rfl rfl
        (fun heq => hlast (hzero.mpr heq)) ?_
      rw [RespMeta.held, if_pos ⟨hmown, hmwait, hfirst⟩, hb]
      exact hassembling

end

end

/-! ## Runs -/

structure FreshSocket (s : RecvSocket) : Prop where
  reqHandleMap : ∀ t, s.reqHandleMap t = none
  availableSlots : s.availableSlots = (List.range maxOutstandingRpc).foldl ringPush []
  stage : ∀ k, (s.reqmetaSlots k).stage = .idle
  arrived : ∀ k, s.arrived k = []
  log : s.log = []

theorem FreshSocket.held_none (h : FreshSocket s) (k : MsgKey) : s.held k = none := by
  cases k with
  | request t =>
    rw [held, h.reqHandleMap]
    rfl
  | response id => exact RespMeta.held_of_stage (by rw [h.stage]; decide) id

theorem FreshSocket.inv (h : FreshSocket s) (msg : MsgKey → Message) : ReceiveInv msg s := by
  have hopen (k : MsgKey) : ¬ s.Complete msg k := not_complete_of_nil (h.arrived k)
  constructor
  · exact Assembling.empty h.arrived h.held_none
  · simp [h.reqHandleMap]
  · simp [h.stage]
  · have havail : s.availableSlots = List.range slotCount :=
      h.availableSlots.trans foldl_ringPush_all
    refine ⟨havail ▸ List.nodup_range, ?_, ?_⟩
    · intro k
      rw [havail, List.mem_range, h.stage]
      exact (and_iff_left rfl).symm
    · exact fun k hk => absurd (h.stage k) hk
  · exact fun id _ => h.arrived _
  · exact fun id hc => absurd hc (hopen _)
  · intro k
    rw [if_neg (hopen k), done, h.log]
    rfl

theorem ReceiveInv.step {msg : MsgKey → Message} (h : ReceiveInv msg s)
    {e : RecvEvent} (he : Honest msg s e) : ReceiveInv msg (recvStep s e) := by
  cases e with
  | request qidx d remoteIp rpcid fresh => exact h.request qidx he
  | response id qidx d fresh inner =>
    obtain ⟨hnew, hslot, hown, hwait⟩ := he
    exact h.response hnew hown hwait qidx inner hslot
  | sender e =>
    obtain ⟨hslots, hkept⟩ := kept_localStep h.slots e
    exact h.kept hslots hkept
  | others mem => exact h.others he

/-- **Every message is handled once**, in every state of every run of honest events. -/
theorem handledOnce_always {msg : MsgKey → Message} {s : RecvSocket} (h : FreshSocket s)
    {es : List RecvEvent} (hes : Meets recvStep (Honest msg) s es) :
    Always recvStep (HandledOnce msg) s es :=
  (always_of_meets (fun _ _ h he => h.step he) (h.inv msg) hes).mono fun _ h => h.handledOnce

/-! ### A request and a response -/

theorem length_sevens (n : Nat) : (List.replicate n (7 : U8)).length = n := length_replicate

def sevens (n : Nat) (h : 0 < n ∧ n ≤ maxClassSize) : Message where
  bytes := List.replicate n 7
  pos := (length_sevens n).symm ▸ h.1
  le := (length_sevens n).symm ▸ h.2

theorem twoSegments_size : 0 < 1500 ∧ 1500 ≤ maxClassSize := by decide

theorem oneSegment_size : 0 < 100 ∧ 100 ≤ maxClassSize := by decide

def sevensOf : MsgKey → Message
  | .request _ => sevens 1500 twoSegments_size
  | .response _ => sevens 100 oneSegment_size

def sevensPacket (messageLength offset segmentLength : U32) : DataSegment :=
  ⟨80, messageLength, offset, segmentLength, 0, fun _ => 7⟩

theorem isPiece_sevens {n : Nat} (h : 0 < n ∧ n ≤ maxClassSize) {i : Nat}
    {messageLength offset segmentLength : U32} (hi : i < pieceCount homaMss n)
    (hlen : messageLength.toNat = n) (hoff : offset.toNat = i * homaMss)
    (hseg : segmentLength.toNat = min homaMss (n - i * homaMss)) :
    IsPiece (sevens n h) i (sevensPacket messageLength offset segmentLength) := by
  have hn : (sevens n h).bytes.length = n := length_sevens n
  constructor
  · rw [Message.count, hn]
    exact hi
  · exact hlen.trans hn.symm
  · exact hoff
  · rw [hn]
    exact hseg
  · intro j hj
    have hj : j < segmentLength.toNat := hj
    refine getElem?_replicate_of_lt ?_
    omega

def freshRecv : RecvSocket where
  mem := fun _ _ => 0
  reqHandleMap := fun _ => none
  reqmetaSlots := fun _ => ⟨⟨none, 0⟩, (0, 0), 0, 0, 0, 0, 0, .idle⟩
  availableSlots := (List.range maxOutstandingRpc).foldl ringPush []
  nextRpcid := 0
  started := 0
  slotOf := fun _ => 0
  arrived := fun _ => []
  log := []

theorem freshRecv_fresh : FreshSocket freshRecv :=
  ⟨fun _ => rfl, by simp only [freshRecv], fun _ => rfl, fun _ => rfl, rfl⟩

/-- The second segment of a request arrives before the first, and in between a request gets its
    response. -/
def twoMessages : List RecvEvent :=
  [.request 1 (sevensPacket 1500 1420 80) 9 3 10,
    .sender (.start ⟨some 20, 50⟩ (9, 80) 4),
    .sender (.segmented 0),
    .response 0 1 (sevensPacket 100 0 100) 11 [],
    .request 1 (sevensPacket 1500 0 1420) 9 3 12]

theorem freshRecv_eq : freshRecv = { freshRecv with availableSlots := List.range slotCount } := by
  rw [slotCount, ← foldl_ringPush_all, freshRecv]

theorem handledOnce_always_twoMessages :
    Always recvStep (HandledOnce sevensOf) freshRecv twoMessages := by
  have hfresh := freshRecv_fresh
  -- the free slots written out, for the evaluations below
  rw [freshRecv_eq] at hfresh ⊢
  refine handledOnce_always hfresh ⟨⟨?_, by decide, ?_⟩, trivial, trivial,
    ⟨⟨?_, by decide +kernel, ?_⟩, by decide +kernel, by decide +kernel, by decide +kernel⟩,
    ⟨?_, by decide +kernel, ?_⟩, trivial⟩
  · exact isPiece_sevens twoSegments_size (by decide) (by decide) (by decide) (by decide)
  · intro _ _ l c
    rw [hfresh.held_none]
    exact (some_ne_none _).symm
  · exact isPiece_sevens oneSegment_size (by decide) (by decide) (by decide) (by decide)
  · exact fun hmulti => absurd (by decide) hmulti
  · exact isPiece_sevens twoSegments_size (by decide) (by decide) (by decide) (by decide)
  · exact fun _ hnone => absurd hnone (by decide +kernel)

end MtpXdp.Rpc

import MtpXdp.Rpc.Submission

/-!
# What a Retransmission Sends

`message_tx_retransmission` leaves the Homa data header out of the length of a descriptor, and
`prepare_retransmission` copies as many bytes as it believes there is payload. So a packet of full
size is never sent again as it was, and a short last one only by coincidence.

A frame is named by the address of its packet, `POISON_64` is `none`; the room in the TX ring is an
input.
-/

namespace MtpXdp.Rpc

open Ebpf (U8 U32)
open Homa (homaMss)
open List Function Option

/-! ## Data -/

/-- The packet's bytes, and of the metadata the next buffer and `FLAG_UNDER_REAP`. -/
structure Frame where
  data : Nat → U8
  bufferNext : Option Nat
  underReap : Bool

abbrev Umem := Nat → Frame

def Umem.setNext (mem : Umem) (a : Nat) (next : Option Nat) : Umem :=
  Function.update mem a { mem a with bufferNext := next }

def tosOffset : Nat := 14 + 1
def retransmitOffset : Nat := 14 + 20 + 38

/-- What `prepare_retransmission` writes to `pkt`: `n` bytes of the old one, the priority and the
    mark. -/
def copyPacket (pkt old : Nat → U8) (n : Nat) (priority : U8) : Nat → U8 :=
  Function.update
    (Function.update (fun k => if k < n then old k else pkt k) tosOffset (priority <<< 5))
    retransmitOffset 1

/-- `InternalResendMeta`; there is no `addr` before the first packet is copied. -/
structure ResendMeta where
  origAddr : Nat
  addr : Option Nat
  len : Nat
  nrPkt : Nat

structure Prepare where
  mem : Umem
  free : List Nat
  length : U32
  bufferTail : Option Nat
  origBufferTail : Option Nat
  rm : ResendMeta

structure Descriptor where
  addr : Option Nat
  len : Nat
deriving DecidableEq

/-! ## `prepare_retransmission` -/

def Prepare.copy (p : Prepare) (addr new : Nat) (free : List Nat) (priority : U8) : Prepare :=
  let n := min homaMss p.length.toNat
  -- put the new buffer to the tail of the chain
  let mem := match p.bufferTail with
    | none => p.mem
    | some tail => p.mem.setNext tail (some new)
  let mem := mem.setNext new none
  { p with
    mem := Function.update mem new
      { mem new with data := copyPacket (mem new).data (mem addr).data n priority }
    free := free
    bufferTail := some new
    rm := { p.rm with addr := p.rm.addr.or (some new), len := n, nrPkt := p.rm.nrPkt + 1 }
    length := if homaMss < p.length.toNat then p.length - BitVec.ofNat 32 homaMss else p.length }

def Prepare.noteTail (p : Prepare) (addr : Nat) (bufferNext : Option Nat) : Prepare :=
  if bufferNext = none then { p with origBufferTail := some addr } else p

/-- The loop of `prepare_retransmission`, at packet `seq`; none when `fuel` runs out. -/
def prepareLoop (firstSeq lastSeq : Nat) (priority : U8) :
    Nat → Nat → Option Nat → Prepare → Option Prepare
  | _, _, none, p => some p
  | 0, _, some _, _ => none
  | fuel + 1, seq, some addr, p =>
    let bufferNext := (p.mem addr).bufferNext
    let p := p.noteTail addr bufferNext
    if firstSeq ≤ seq ∧ seq ≤ lastSeq then
      match p.free with
      -- no buffer: the loop ends
      | [] => some p
      | new :: free =>
        prepareLoop firstSeq lastSeq priority fuel (seq + 1) bufferNext
          (p.copy addr new free priority)
    else prepareLoop firstSeq lastSeq priority fuel (seq + 1) bufferNext p

def Prepare.start (mem : Umem) (free : List Nat) (length : U32) (bufferAddr : Nat) : Prepare :=
  ⟨mem, free, length, none, none, ⟨bufferAddr, none, 0, 0⟩⟩

/-- The new buffers are chained to the message, to be reaped with it. A write to `POISON_64` is
    undefined. -/
def Prepare.finish (p : Prepare) : Option (Umem × Option ResendMeta) :=
  match p.rm.addr, p.origBufferTail with
  | none, _ => some (p.mem, none)
  | some _, none => none
  | some new, some tail => some (p.mem.setNext tail (some new), some p.rm)

def prepareRetransmission (fuel : Nat) (mem : Umem) (free : List Nat) (bufferAddr : Nat)
    (offset length : U32) (priority : U8) : Option (Umem × Option ResendMeta) :=
  let firstSeq := offset.toNat / homaMss
  let lastSeq := (offset + length - 1).toNat / homaMss
  (prepareLoop firstSeq lastSeq priority fuel 0 (some bufferAddr)
    (Prepare.start mem free length bufferAddr)).bind Prepare.finish

/-! ## `message_tx_retransmission` -/

def resendDescriptors (mem : Umem) (len : Nat) : Nat → Option Nat → List Descriptor
  | 0, _ => []
  | n + 1, addr =>
    ⟨addr, 14 + 20 + if n = 0 then len else homaMss⟩ ::
      resendDescriptors mem len n (addr.bind fun a => (mem a).bufferNext)

/-- `message_tx_retransmission` with room for `room` descriptors: those submitted, or none for -1.
    -/
def messageTxRetransmission (mem : Umem) (rm : ResendMeta) (room : Nat) :
    Option (List Descriptor) :=
  if (mem rm.origAddr).underReap then some []
  else if room < rm.nrPkt then none
  else some (resendDescriptors mem rm.len rm.nrPkt rm.addr)

/-- Calls of `message_tx_retransmission` until one succeeds; `rooms` has the room that each call
    finds. -/
def retransmitUntil (mem : Umem) (rm : ResendMeta) : List Nat → List Descriptor
  | [] => []
  | room :: rooms =>
    match messageTxRetransmission mem rm room with
    | some ds => ds
    | none => retransmitUntil mem rm rooms

/-- For the message whose first buffer is `bufferAddr`: the UMEM afterwards and the descriptors. -/
def resend (fuel : Nat) (mem : Umem) (free : List Nat) (bufferAddr : Nat) (offset length : U32)
    (priority : U8) (rooms : List Nat) : Option (Umem × List Descriptor) :=
  (prepareRetransmission fuel mem free bufferAddr offset length priority).map fun r =>
    (r.1, r.2.elim [] fun rm => retransmitUntil r.1 rm rooms)

open Prepare Umem

variable {mem mem' : Umem} {next : Option Nat} {addrs free : List Nat} {x n seq i : Nat}
  {p : Prepare}

/-! ## The buffers of a message -/

def LinkedFrom (mem : Umem) : Option Nat → List Nat → Prop
  | next, [] => next = none
  | next, addr :: addrs => next = some addr ∧ LinkedFrom mem (mem addr).bufferNext addrs

theorem LinkedFrom.of_bufferNext (h : LinkedFrom mem next addrs)
    (heq : ∀ a ∈ addrs, (mem' a).bufferNext = (mem a).bufferNext) : LinkedFrom mem' next addrs := by
  induction addrs generalizing next with
  | nil => exact h
  | cons a addrs ih =>
    refine ⟨h.1, ?_⟩
    rw [heq a mem_cons_self]
    exact ih h.2 fun x hx => heq x (mem_cons_of_mem _ hx)

theorem LinkedFrom.congr (h : LinkedFrom mem next addrs) (heq : ∀ a ∈ addrs, mem' a = mem a) :
    LinkedFrom mem' next addrs :=
  h.of_bufferNext fun a ha => by rw [heq a ha]

theorem LinkedFrom.eq_head? (h : LinkedFrom mem next addrs) : next = addrs.head? := by
  cases addrs with
  | nil => exact h
  | cons a addrs => exact h.1

@[simp] theorem Umem.setNext_data (mem : Umem) (a x : Nat) (next : Option Nat) :
    (mem.setNext a next x).data = (mem x).data := by
  rcases eq_or_ne x a with rfl | hx
  · simp [setNext]
  · simp [setNext, hx]

@[simp] theorem Umem.setNext_underReap (mem : Umem) (a x : Nat) (next : Option Nat) :
    (mem.setNext a next x).underReap = (mem x).underReap := by
  rcases eq_or_ne x a with rfl | hx
  · simp [setNext]
  · simp [setNext, hx]

theorem Umem.setNext_of_ne {a : Nat} (hx : x ≠ a) (next : Option Nat) :
    mem.setNext a next x = mem x := by
  rw [setNext, update_of_ne hx]

theorem copyPacket_of_lt {pkt old : Nat → U8} {k : Nat} {priority : U8} (hk : k < n)
    (htos : k ≠ tosOffset) (hret : k ≠ retransmitOffset) :
    copyPacket pkt old n priority k = old k := by
  rw [copyPacket, update_of_ne hret, update_of_ne htos, if_pos hk]

theorem copyPacket_of_le {pkt old : Nat → U8} {k : Nat} {priority : U8} (hk : n ≤ k)
    (htos : k ≠ tosOffset) (hret : k ≠ retransmitOffset) :
    copyPacket pkt old n priority k = pkt k := by
  rw [copyPacket, update_of_ne hret, update_of_ne htos,
    if_neg (Nat.not_lt.mpr hk)]

namespace Prepare

variable {addr new : Nat} {priority : U8}

section

variable (next : Option Nat)

@[simp] theorem noteTail_mem : (p.noteTail addr next).mem = p.mem := by
  simp only [noteTail]
  split_ifs <;> rfl

@[simp] theorem noteTail_free : (p.noteTail addr next).free = p.free := by
  simp only [noteTail]
  split_ifs <;> rfl

@[simp] theorem noteTail_bufferTail : (p.noteTail addr next).bufferTail = p.bufferTail := by
  simp only [noteTail]
  split_ifs <;> rfl

@[simp] theorem noteTail_rm : (p.noteTail addr next).rm = p.rm := by
  simp only [noteTail]
  split_ifs <;> rfl

@[simp] theorem noteTail_length : (p.noteTail addr next).length = p.length := by
  simp only [noteTail]
  split_ifs <;> rfl

end

theorem copy_mem_of_ne (hnew : x ≠ new) (htail : x ∉ p.bufferTail) :
    (p.copy addr new free priority).mem x = p.mem x := by
  simp only [copy]
  rw [update_of_ne hnew, setNext_of_ne hnew]
  cases ht : p.bufferTail with
  | none => rfl
  | some tail =>
    refine setNext_of_ne ?_ _
    rintro rfl
    exact htail ht

theorem copy_mem_new : ((p.copy addr new free priority).mem new).data =
      copyPacket (p.mem new).data (p.mem addr).data (min homaMss p.length.toNat) priority := by
  simp only [copy, update_self, setNext_data]
  cases p.bufferTail with
  | none => rfl
  | some tail => simp only [setNext_data]

end Prepare

/-! ## The walk as a recursion on the list of buffers -/

def prepareList (firstSeq lastSeq : Nat) (priority : U8) : Nat → List Nat → Prepare → Prepare
  | _, [], p => p
  | seq, addr :: addrs, p =>
    let p := p.noteTail addr addrs.head?
    if firstSeq ≤ seq ∧ seq ≤ lastSeq then
      match p.free with
      | [] => p
      | new :: free =>
        prepareList firstSeq lastSeq priority (seq + 1) addrs (p.copy addr new free priority)
    else prepareList firstSeq lastSeq priority (seq + 1) addrs p

section

variable {firstSeq lastSeq : Nat} {priority : U8}

theorem prepareLoop_eq {fuel : Nat}
    (hlink : LinkedFrom p.mem next addrs) (hfuel : addrs.length ≤ fuel)
    (hfree : ∀ a ∈ addrs, a ∉ p.free) (htail : ∀ a ∈ addrs, a ∉ p.bufferTail) :
    prepareLoop firstSeq lastSeq priority fuel seq next p =
      some (prepareList firstSeq lastSeq priority seq addrs p) := by
  induction addrs generalizing fuel seq next p with
  | nil =>
    obtain rfl : next = none := hlink
    cases fuel <;> rfl
  | cons addr addrs ih =>
    obtain ⟨rfl, hrest⟩ := hlink
    cases fuel with
    | zero => simp at hfuel
    | succ fuel =>
      have hfuel' : addrs.length ≤ fuel := Nat.le_of_succ_le_succ hfuel
      have hmem {x : Nat} (hx : x ∈ addrs) : x ∈ addr :: addrs := mem_cons_of_mem _ hx
      simp only [prepareLoop, prepareList, hrest.eq_head?, noteTail_free]
      rw [hrest.eq_head?] at hrest
      split_ifs
      · cases hnew : p.free with
        | nil => rfl
        | cons new free =>
          rw [hnew] at hfree
          have hne {x : Nat} (hx : x ∈ addr :: addrs) : x ≠ new := by
            rintro rfl
            exact hfree x hx mem_cons_self
          apply ih _ hfuel'
          · intro x hx hxf
            exact hfree x (hmem hx) (mem_cons_of_mem _ hxf)
          · intro x hx hxt
            exact hne (hmem hx) (some.inj hxt).symm
          · refine hrest.congr ?_
            intro x hx
            rw [copy_mem_of_ne (hne (hmem hx)) (by simpa using htail x (hmem hx)), noteTail_mem]
      · apply ih _ hfuel'
        · intro x hx
          simpa using hfree x (hmem hx)
        · intro x hx
          simpa using htail x (hmem hx)
        · simpa using hrest

theorem prepareList_skip {addr : Nat} {before after : List Nat}
    (h : seq + before.length = firstSeq) :
    prepareList firstSeq lastSeq priority seq (before ++ addr :: after) p =
      prepareList firstSeq lastSeq priority firstSeq (addr :: after) p := by
  induction before generalizing seq with
  | nil =>
    obtain rfl : seq = firstSeq := h
    rfl
  | cons b before ih =>
    rw [length_cons] at h
    have hhead : (before ++ addr :: after).head? ≠ none := by simp
    rw [cons_append, prepareList, if_neg (by omega), noteTail, if_neg hhead]
    exact ih (by omega)

theorem prepareList_nrPkt (seq : Nat) (addrs : List Nat) (p : Prepare) :
    p.rm.nrPkt ≤ (prepareList firstSeq lastSeq priority seq addrs p).rm.nrPkt ∧
    ((prepareList firstSeq lastSeq priority seq addrs p).rm.nrPkt = p.rm.nrPkt →
      (prepareList firstSeq lastSeq priority seq addrs p).rm = p.rm ∧
      (prepareList firstSeq lastSeq priority seq addrs p).mem = p.mem) := by
  induction addrs generalizing seq p with
  | nil => exact ⟨le_rfl, fun _ => ⟨rfl, rfl⟩⟩
  | cons addr addrs ih =>
    rw [prepareList]
    split_ifs
    · split
      · simp
      · next new free _ =>
        -- a copy makes the count larger for good
        have hle := (ih (seq + 1) ((p.noteTail addr addrs.head?).copy addr new free priority)).1
        have hcopy : ((p.noteTail addr addrs.head?).copy addr new free priority).rm.nrPkt =
            p.rm.nrPkt + 1 := by
          simp [copy]
        exact ⟨by omega, fun h => absurd h (by omega)⟩
    · simpa using ih (seq + 1) (p.noteTail addr addrs.head?)

variable (firstSeq lastSeq priority) in
theorem prepareList_origAddr (seq : Nat) (addrs : List Nat) (p : Prepare) :
    (prepareList firstSeq lastSeq priority seq addrs p).rm.origAddr = p.rm.origAddr := by
  induction addrs generalizing seq p with
  | nil => rfl
  | cons addr addrs ih =>
    rw [prepareList]
    split_ifs
    · split
      · simp
      · rw [ih]
        simp [copy]
    · rw [ih, noteTail_rm]

variable (firstSeq lastSeq priority) in
theorem prepareList_mem (seq : Nat) (addrs : List Nat) (hfree : x ∉ p.free)
    (htail : x ∉ p.bufferTail) :
    (prepareList firstSeq lastSeq priority seq addrs p).mem x = p.mem x := by
  induction addrs generalizing seq p with
  | nil => rfl
  | cons addr addrs ih =>
    rw [prepareList]
    split_ifs
    · split
      · simp
      · next new free hnew =>
        rw [noteTail_free] at hnew
        rw [hnew] at hfree
        have hne : x ≠ new := fun h => hfree (h ▸ mem_cons_self)
        rw [ih]
        · rw [copy_mem_of_ne hne (by simpa using htail), noteTail_mem]
        · exact fun h => hfree (mem_cons_of_mem _ h)
        · exact fun h => hne (some.inj h).symm
    · rw [ih _ (by simpa using hfree) (by simpa using htail), noteTail_mem]

end

/-! ## The descriptors -/

@[simp] theorem length_resendDescriptors (mem : Umem) (len n : Nat) (addr : Option Nat) :
    (resendDescriptors mem len n addr).length = n := by
  induction n generalizing addr with
  | zero => rfl
  | succ n ih => rw [resendDescriptors, length_cons, ih]

theorem retransmitUntil_eq {rm : ResendMeta}
    (hreap : (mem rm.origAddr).underReap = false) (rooms : List Nat) :
    retransmitUntil mem rm rooms =
      if ∃ room ∈ rooms, rm.nrPkt ≤ room then resendDescriptors mem rm.len rm.nrPkt rm.addr
      else [] := by
  induction rooms with
  | nil => simp [retransmitUntil]
  | cons room rooms ih =>
    rw [retransmitUntil, messageTxRetransmission, hreap]
    by_cases hroom : room < rm.nrPkt
    · have hmore : (∃ r ∈ room :: rooms, rm.nrPkt ≤ r) ↔ ∃ r ∈ rooms, rm.nrPkt ≤ r := by
        simp only [mem_cons, exists_eq_or_imp]
        exact or_iff_right (by omega)
      simp only [hroom, hmore, if_true, ih, Bool.false_eq_true, if_false]
    · have hnow : ∃ r ∈ room :: rooms, rm.nrPkt ≤ r := ⟨room, mem_cons_self, by omega⟩
      simp only [hroom, hnow, if_true, Bool.false_eq_true, if_false]

/-! ## Fidelity -/

def requested (w : Started) (offset length : U32) : List Nat :=
  let first := offset.toNat / homaMss
  let last := (offset.toNat + length.toNat - 1) / homaMss
  List.range' first (min (last + 1) w.packets.length - first)

/-- `d` submits packet `i` of the message as it was, but for the priority and the retransmit mark.
    -/
def IsCopy (mem mem' : Umem) (w : Started) (addrs : List Nat) (d : Descriptor) (i : Nat) : Prop :=
  d.len = (w.packet i).descLen ∧
  ∃ old new, addrs[i]? = some old ∧ d.addr = some new ∧
    ∀ k < (w.packet i).descLen, k ≠ tosOffset → k ≠ retransmitOffset →
      (mem' new).data k = (mem old).data k

def ResentFaithfully (fuel : Nat) (mem : Umem) (free : List Nat) (w : Started) (head : Nat)
    (rest : List Nat) (offset length : U32) (priority : U8) (rooms : List Nat) : Prop :=
  ∃ mem' ds, resend fuel mem free head offset length priority rooms = some (mem', ds) ∧
    List.Forall₂ (IsCopy mem mem' w (head :: rest)) ds (requested w offset length)

/-- The packets are in a chain of buffers, none of them free, and the message is not being reaped.
    -/
structure Resendable (mem : Umem) (free : List Nat) (w : Started) (head : Nat)
    (rest : List Nat) : Prop where
  linked : LinkedFrom mem (some head) (head :: rest)
  length : (head :: rest).length = w.packets.length
  disjoint : ∀ a ∈ head :: rest, a ∉ free
  notReaped : (mem head).underReap = false

/-- Only the last packet is asked for, with a data header too much, and the new buffer already has
    its last bytes. -/
def LastPacketOnly (mem : Umem) (free : List Nat) (w : Started) (addrs : List Nat)
    (offset length : U32) (rooms : List Nat) : Prop :=
  let i := offset.toNat / homaMss
  let plen := (w.packet i).segmentLength
  i + 1 = w.packets.length ∧
  i ≤ (offset + length - 1).toNat / homaMss ∧
  min homaMss length.toNat = plen + 60 ∧
  (∃ room ∈ rooms, 1 ≤ room) ∧
  ∃ old new, addrs[i]? = some old ∧ free.head? = some new ∧
    ∀ k, plen + 60 ≤ k → k < homaPayloadOffset + plen → k ≠ retransmitOffset →
      (mem new).data k = (mem old).data k

section

variable {fuel : Nat} {w : Started} {head : Nat} {rest : List Nat} {offset length : U32}
  {priority : U8} {rooms : List Nat}

theorem Started.descLen_packet (w : Started) (i : Nat) :
    (w.packet i).descLen = homaPayloadOffset + (w.packet i).segmentLength := rfl

theorem Started.segmentLength_packet (w : Started) (hi : i + 1 < w.packets.length) :
    (w.packet i).segmentLength = homaMss := by
  have hlt : ¬ w.req.buffer.length ≤ (i + 1) * homaMss := by
    rw [← homaGetNrBuffersFromLen_le_iff, ← w.length_packets]
    omega
  rw [Nat.succ_mul] at hlt
  exact min_eq_left (by omega)

theorem div_homaMss_lt_length (hoff : offset.toNat < w.req.buffer.length) :
    offset.toNat / homaMss < w.packets.length := by
  rw [w.length_packets, ← not_le, homaGetNrBuffersFromLen_le_iff]
  simp only [homaMss]
  omega

theorem requested_eq_cons (hoff : offset.toNat < w.req.buffer.length) (hlen : 0 < length.toNat) :
    requested w offset length = offset.toNat / homaMss :: List.range' (offset.toNat / homaMss + 1)
        (min ((offset.toNat + length.toNat - 1) / homaMss) (w.packets.length - 1) -
          offset.toNat / homaMss) := by
  have hlt := div_homaMss_lt_length hoff
  have hle : offset.toNat / homaMss ≤ (offset.toNat + length.toNat - 1) / homaMss :=
    Nat.div_le_div_right (by omega)
  simp only [requested]
  generalize offset.toNat / homaMss = i at hlt hle
  rw [← range'_succ]
  congr 1
  omega

theorem prepareList_rm_of_lt {firstSeq lastSeq : Nat} (h : lastSeq < seq) (addrs : List Nat)
    (p : Prepare) : (prepareList firstSeq lastSeq priority seq addrs p).rm = p.rm := by
  induction addrs generalizing seq p with
  | nil => rfl
  | cons addr addrs ih =>
    rw [prepareList, if_neg (by omega), ih (by omega), noteTail_rm]

theorem prepareList_first {firstSeq lastSeq addr : Nat} {before after : List Nat}
    (hbefore : before.length = firstSeq)
    (hcopied : (prepareList firstSeq lastSeq priority 0 (before ++ addr :: after) p).rm.nrPkt ≠
      p.rm.nrPkt) : firstSeq ≤ lastSeq ∧ ∃ new free, p.free = new :: free ∧
      prepareList firstSeq lastSeq priority 0 (before ++ addr :: after) p =
        prepareList firstSeq lastSeq priority (firstSeq + 1) after
          ((p.noteTail addr after.head?).copy addr new free priority) := by
  rw [prepareList_skip (by omega)] at hcopied ⊢
  have hlast : firstSeq ≤ lastSeq := by
    by_contra hlt
    exact hcopied (by rw [prepareList_rm_of_lt (by omega)])
  rw [prepareList, if_pos ⟨le_rfl, hlast⟩] at hcopied ⊢
  rw [noteTail_free] at hcopied ⊢
  cases hfree : p.free with
  | nil =>
    rw [hfree] at hcopied
    simp at hcopied
  | cons new free => exact ⟨hlast, new, free, rfl, rfl⟩

variable (offset length priority rooms) in
theorem resend_eq (h : Resendable mem free w head rest) (hfuel : w.packets.length ≤ fuel) :
    resend fuel mem free head offset length priority rooms =
      (prepareList (offset.toNat / homaMss) ((offset + length - 1).toNat / homaMss) priority 0
        (head :: rest) (start mem free length head)).finish.map fun r =>
          (r.1, r.2.elim [] fun rm =>
            if ∃ room ∈ rooms, rm.nrPkt ≤ room then
              resendDescriptors r.1 rm.len rm.nrPkt rm.addr
            else []) := by
  have hwalk : prepareLoop (offset.toNat / homaMss) ((offset + length - 1).toNat / homaMss)
      priority fuel 0 (some head) (start mem free length head) =
      some (prepareList (offset.toNat / homaMss) ((offset + length - 1).toNat / homaMss)
        priority 0 (head :: rest) (start mem free length head)) :=
    prepareLoop_eq h.linked (h.length ▸ hfuel) h.disjoint (fun _ _ h => nomatch h)
  have horig := prepareList_origAddr (offset.toNat / homaMss)
    ((offset + length - 1).toNat / homaMss) priority 0 (head :: rest)
    (start mem free length head)
  have hmem := prepareList_mem (offset.toNat / homaMss)
    ((offset + length - 1).toNat / homaMss) priority (p := start mem free length head) 0
    (head :: rest) (h.disjoint head mem_cons_self) (fun h => nomatch h)
  rw [resend, prepareRetransmission, hwalk, bind_some]
  generalize prepareList (offset.toNat / homaMss) ((offset + length - 1).toNat / homaMss)
    priority 0 (head :: rest) (start mem free length head) = q at horig hmem
  simp only [finish]
  cases q.rm.addr with
  | none => rfl
  | some new =>
    cases q.origBufferTail with
    | none => rfl
    | some tail =>
      have hreap : (q.mem.setNext tail (some new) q.rm.origAddr).underReap = false := by
        rw [setNext_underReap, horig]
        show (q.mem head).underReap = false
        rw [hmem]
        exact h.notReaped
      simp only [map_some, elim_some, retransmitUntil_eq hreap]

theorem resend_inv (h : Resendable mem free w head rest) (hfuel : w.packets.length ≤ fuel)
    {d : Descriptor} {ds : List Descriptor}
    (hres : resend fuel mem free head offset length priority rooms = some (mem', d :: ds)) :
    let q := prepareList (offset.toNat / homaMss) ((offset + length - 1).toNat / homaMss) priority 0
      (head :: rest) (start mem free length head)
    ds.length + 1 = q.rm.nrPkt ∧ (∃ room ∈ rooms, q.rm.nrPkt ≤ room) ∧
      d = ⟨q.rm.addr, 14 + 20 + if ds = [] then q.rm.len else homaMss⟩ ∧
      ∀ x, (mem' x).data = (q.mem x).data := by
  rw [resend_eq _ _ _ _ h hfuel] at hres
  intro q
  obtain ⟨r, hfin, hr⟩ := map_eq_some_iff.mp hres
  change q.finish = some r at hfin
  obtain ⟨rfl, hds⟩ := Prod.mk.inj hr
  rw [finish] at hfin
  split at hfin
  · cases hfin
    simp at hds
  · cases hfin
  · next new tail hnew htail =>
    cases hfin
    simp only [elim_some] at hds
    split_ifs at hds with hroom
    have hlen := congrArg List.length hds
    rw [length_resendDescriptors, List.length_cons] at hlen
    refine ⟨hlen.symm, hroom, ?_, fun x => setNext_data _ _ _ _⟩
    rw [hlen, resendDescriptors] at hds
    obtain ⟨rfl, -⟩ := cons.inj hds
    simp only [length_eq_zero_iff]

theorem eq_take_append_drop {l : List Nat} (hi : i < l.length) :
    l = l.take i ++ l[i] :: l.drop (i + 1) := by
  rw [← drop_eq_getElem_cons hi, take_append_drop]

theorem ds_eq_nil_of_isCopy {d : Descriptor} {ds : List Descriptor} {j : Nat} {rm : ResendMeta}
    (hd : d = ⟨rm.addr, 14 + 20 + if ds = [] then rm.len else homaMss⟩)
    (hcopy : IsCopy mem mem' w addrs d i) (hrest : List.Forall₂ (IsCopy mem mem' w addrs) ds
      (List.range' (i + 1) (min j (w.packets.length - 1) - i))) : ds = [] := by
  by_contra hne
  have hlen := hrest.length_eq
  rw [length_range'] at hlen
  have hpos : 0 < ds.length := length_pos_iff.mpr hne
  have hfull := w.segmentLength_packet (i := i) (by omega)
  have hdlen := hcopy.1
  rw [hd, w.descLen_packet, hfull] at hdlen
  simp only [if_neg hne, homaPayloadOffset] at hdlen
  omega

theorem rm_firstCopy (addr new : Nat) (next : Option Nat) (free' : List Nat) :
    (((start mem free length head).noteTail addr next).copy addr new free' priority).rm =
      ⟨head, some new, min homaMss length.toNat, 1⟩ := by
  simp [copy, start]

theorem data_firstCopy (addr new : Nat) (next : Option Nat) (free' : List Nat) :
    ((((start mem free length head).noteTail addr next).copy addr new free'
      priority).mem new).data =
      copyPacket (mem new).data (mem addr).data (min homaMss length.toNat) priority := by
  rw [copy_mem_new, noteTail_mem, noteTail_length]
  rfl

theorem finish_firstCopy (addr new : Nat) (free' : List Nat) :
    (((start mem free length head).noteTail addr none).copy addr new free' priority).finish =
      some ((((start mem free length head).noteTail addr none).copy addr new free'
        priority).mem.setNext addr (some new),
        some ⟨head, some new, min homaMss length.toNat, 1⟩) := by
  rfl

section

variable (h : Resendable mem free w head rest) (hfuel : w.packets.length ≤ fuel)
  (hoff : offset.toNat < w.req.buffer.length)
include h hfuel hoff

theorem lastPacketOnly_of_faithful (hlen : 0 < length.toNat)
    (hf : ResentFaithfully fuel mem free w head rest offset length priority rooms) :
    LastPacketOnly mem free w (head :: rest) offset length rooms := by
  have hlt := div_homaMss_lt_length (w := w) hoff
  have hi : offset.toNat / homaMss < (head :: rest).length := h.length ▸ hlt
  obtain ⟨mem', ds, hres, hall⟩ := hf
  rw [requested_eq_cons hoff hlen] at hall
  obtain ⟨d, ds, hcopy, hrest, rfl⟩ := forall₂_cons_right_iff.mp hall
  obtain ⟨hcount, hroom, hd, hdata⟩ := resend_inv h hfuel hres
  obtain rfl := ds_eq_nil_of_isCopy hd hcopy hrest
  rw [eq_take_append_drop hi] at hcount hroom hd hdata
  obtain ⟨hlast, new, free', hfree, hq⟩ := prepareList_first (length_take_of_le hi.le)
    (hcount.symm.trans_ne Nat.one_ne_zero)
  rw [hq] at hcount hroom hd hdata
  -- one packet was copied, so the walk did nothing after it
  obtain ⟨hrm, hmem⟩ := (prepareList_nrPkt _ _ _).2 (hcount.symm.trans (by rw [rm_firstCopy]; rfl))
  rw [hrm, rm_firstCopy] at hroom hd
  rw [hmem] at hdata
  obtain ⟨hdlen, old, new', hold, hnew, hsame⟩ := hcopy
  obtain rfl : new = new' := by simpa [hd] using hnew
  have hsize : min homaMss length.toNat =
      (w.packet (offset.toNat / homaMss)).segmentLength + 60 := by
    rw [hd, w.descLen_packet] at hdlen
    simp only [if_true, homaPayloadOffset] at hdlen
    omega
  refine ⟨?_, hlast, hsize, hroom, old, new, hold, ?_, ?_⟩
  · by_contra hne
    rw [w.segmentLength_packet (by omega)] at hsize
    omega
  · exact (congrArg head? hfree).trans rfl
  · intro k hk hk' hret
    have htos : k ≠ tosOffset := by
      simp only [tosOffset]
      omega
    have hbyte := hsame k (w.descLen_packet _ ▸ hk') htos hret
    rw [hdata, data_firstCopy, copyPacket_of_le (by omega) htos hret] at hbyte
    exact hbyte

theorem faithful_of_lastPacketOnly (hlen : 0 < length.toNat)
    (hl : LastPacketOnly mem free w (head :: rest) offset length rooms) :
    ResentFaithfully fuel mem free w head rest offset length priority rooms := by
  have hi : offset.toNat / homaMss < (head :: rest).length :=
    h.length ▸ div_homaMss_lt_length hoff
  obtain ⟨hend, hlast, hsize, hroom, old, new, hold, hnew, hstale⟩ := hl
  have holdi : (head :: rest)[offset.toNat / homaMss] = old := by
    rw [getElem?_eq_getElem hi] at hold
    exact some.inj hold
  have hafter : (head :: rest).drop (offset.toNat / homaMss + 1) = [] := by
    rw [hend, ← h.length]
    exact drop_length
  obtain ⟨free', hfree⟩ : ∃ free', free = new :: free' := by
    cases free with
    | nil => cases hnew
    | cons b free' => exact ⟨free', by rw [some.inj hnew]⟩
  -- the walk skips all packets but the last and copies that one
  have hq : prepareList (offset.toNat / homaMss) ((offset + length - 1).toNat / homaMss) priority 0
      (head :: rest) (start mem free length head) =
      ((start mem free length head).noteTail old none).copy old new free' priority := by
    rw [eq_take_append_drop hi, prepareList_skip (by rw [length_take_of_le hi.le, Nat.zero_add]),
      hafter, holdi, prepareList, if_pos ⟨le_rfl, hlast⟩, noteTail_free]
    rw [hfree]
    rfl
  have hres := resend_eq offset length priority rooms h hfuel
  rw [hq, finish_firstCopy, map_some, elim_some, if_pos hroom] at hres
  have hnone : min ((offset.toNat + length.toNat - 1) / homaMss) (w.packets.length - 1) -
      offset.toNat / homaMss = 0 := by
    rw [← hend]
    exact Nat.sub_eq_zero_of_le (min_le_right _ _)
  refine ⟨_, _, hres, ?_⟩
  rw [requested_eq_cons hoff hlen, hnone]
  refine .cons ⟨?_, old, new, hold, rfl, ?_⟩ .nil
  · rw [w.descLen_packet, homaPayloadOffset]
    simp only [if_true, hsize]
    omega
  · intro k hk htos hret
    rw [setNext_data, data_firstCopy]
    rcases Nat.lt_or_ge k (min homaMss length.toNat) with hcopied | hkept
    · exact copyPacket_of_lt hcopied htos hret
    · rw [copyPacket_of_le hkept htos hret]
      exact hstale k (hsize ▸ hkept) hk hret

end

/-- **Fidelity.** A RESEND submits the packets as they were precisely when only a short last packet
    is requested, and lengths and buffer happen to fit. -/
theorem resend_faithful_iff (h : Resendable mem free w head rest)
    (hfuel : w.packets.length ≤ fuel) (hoff : offset.toNat < w.req.buffer.length)
    (hlen : 0 < length.toNat) :
    ResentFaithfully fuel mem free w head rest offset length priority rooms ↔
      LastPacketOnly mem free w (head :: rest) offset length rooms :=
  ⟨lastPacketOnly_of_faithful h hfuel hoff hlen, faithful_of_lastPacketOnly h hfuel hoff hlen⟩

end

def emptyUmem : Umem := fun _ => ⟨fun _ => 0, none, false⟩

def shortMessage (n : Nat) : Started :=
  ⟨⟨List.replicate (min n homaMss) 0, by
    rw [List.length_replicate]
    exact (min_le_right _ _).trans (by decide), 0, 0, 0⟩, 0, 1⟩

theorem resendable_shortMessage (hpos : 0 < n) :
    Resendable emptyUmem [1] (shortMessage n) 0 [] where
  linked := ⟨rfl, rfl⟩
  length := by
    simp only [Started.length_packets, shortMessage, length_replicate,
      homaGetNrBuffersFromLen, homaMss, length_singleton]
    omega
  disjoint := by decide
  notReaped := rfl

theorem resend_faithful_at :
    Resendable emptyUmem [1] (shortMessage 10) 0 [] ∧
    ResentFaithfully 1 emptyUmem [1] (shortMessage 10) 0 [] 0 70 7 [1] :=
  ⟨resendable_shortMessage (by decide),
    (resend_faithful_iff (resendable_shortMessage (by decide)) (by decide) (by decide)
      (by decide)).mpr
      ⟨by decide, by decide, by decide, ⟨1, by decide, le_rfl⟩, 0, 1, rfl, rfl,
        fun _ _ _ _ => rfl⟩⟩

/-- A receiver that has got nothing asks for 100 bytes: of a message of 200 it is sent 134 bytes
    instead of 294. -/
theorem resend_truncates :
    Resendable emptyUmem [1] (shortMessage 200) 0 [] ∧
    ((shortMessage 200).packet 0).descLen = 294 ∧
    (resend 1 emptyUmem [1] 0 0 100 7 [1]).map Prod.snd = some [⟨some 1, 134⟩] ∧
    ¬ ResentFaithfully 1 emptyUmem [1] (shortMessage 200) 0 [] 0 100 7 [1] := by
  have hlen : ((shortMessage 200).packet 0).descLen = 294 := by decide +kernel
  have hreq : requested (shortMessage 200) 0 100 = [0] := by decide +kernel
  have hds : (resend 1 emptyUmem [1] 0 0 100 7 [1]).map Prod.snd = some [⟨some 1, 134⟩] := by
    decide
  refine ⟨resendable_shortMessage (by decide), hlen, hds, ?_⟩
  rintro ⟨mem', ds, hres, hall⟩
  rw [hres, map_some, some.injEq] at hds
  obtain rfl : ds = [⟨some 1, 134⟩] := hds
  rw [hreq] at hall
  cases hall with
  | cons hcopy _ => exact absurd (hcopy.1.trans hlen) (by decide)

end MtpXdp.Rpc

import MtpXdp.Rpc.ResendFidelity

/-!
# Reaping of Transmitted Messages

`enqueue_reap_backlog` puts the first buffer of a complete message into the reap backlog;
`flush_reap_backlog` gives the buffers of the chains back, within a budget. A RESEND makes
`prepare_retransmission` copy packets and queue an entry for `flush_rpc_retransmission_queue`. Two
flags in the first buffer are to keep the two apart, but `homa_txmeta_set_flag` assigns the flag
word.
-/

namespace MtpXdp.Rpc

open MtpXdp.Core Function
open Ebpf (U8 U32)
open Homa (homaMss)

/-! ## Data -/

def flagUnderReap : U32 := 0x1

def flagUnderRetransmission : U32 := 0x2

/-- The size of the UMEM: `umem_num_frames` frames of `XSK_UMEM__DEFAULT_FRAME_SIZE` bytes. -/
def umemSize : Nat := 64 * 2048 * 4096

def reapBacklogCapacity : Nat := 65536 - 1

/-- An address in the backlog; `head` is history: the first buffer of the message. -/
structure ReapEntry where
  addr : Nat
  head : Nat

structure ReapState where
  /-- the frames, with the next buffer and `FLAG_UNDER_REAP` of each -/
  mem : Umem
  /-- the other bit of the flag word, `FLAG_UNDER_RETRANSMISSION` -/
  underRetransmission : Nat → Bool
  reapBacklog : List ReapEntry
  retransmissionQueue : List ResendMeta
  buffers : Nat → List Nat
  returned : Nat → List Nat
  handed : Nat → Bool
  sent : List Descriptor

structure ResendHeader where
  offset : U32
  length : U32
  priority : U8

/-- `POISON_64` is `none`; `free` is for `thread_bcache_cons`, `rooms` the room in the TX ring at
    each attempt. -/
inductive ReapEvent
  | data (client server : Option Nat)
  | resend (block : Bool) (client server : Option Nat) (r : ResendHeader) (free : List Nat)
  | flushReap (batch : Nat)
  | flushRetransmission (rooms : List Nat)

namespace ReapState

/-! ## Metadata -/

def getFlag (s : ReapState) (a : Nat) : U32 :=
  (if (s.mem a).underReap then flagUnderReap else 0) |||
    (if s.underRetransmission a then flagUnderRetransmission else 0)

/-- `homa_txmeta_set_flag`: the flag word is assigned. -/
def setFlag (s : ReapState) (a : Nat) (flag : U32) : ReapState :=
  { s with
    mem := update s.mem a { s.mem a with underReap := flag &&& flagUnderReap ≠ 0 }
    underRetransmission :=
      update s.underRetransmission a (flag &&& flagUnderRetransmission ≠ 0) }

/-- `homa_txmeta_clear_all`: all metadata is zero, so the next buffer is at address zero. -/
def clearAll (s : ReapState) (a : Nat) : ReapState :=
  { s with
    mem := update s.mem a { s.mem a with bufferNext := some 0, underReap := false }
    underRetransmission := update s.underRetransmission a false }

/-! ## Reaping -/

def enqueueReapBacklog (s : ReapState) (en : ReapEntry) : ReapState :=
  let s := s.setFlag en.addr flagUnderReap
  if s.getFlag en.addr &&& flagUnderRetransmission ≠ 0 then s
  else if s.reapBacklog.length = reapBacklogCapacity then s
  else { s with reapBacklog := s.reapBacklog ++ [en] }

def returnBuffer (s : ReapState) (head a : Nat) : ReapState :=
  let s := s.clearAll a
  { s with returned := update s.returned head (s.returned head ++ [a]) }

/-- `reap_rpc_buffers` with `more` rounds left: where it stops, the number of rounds and the state.
    -/
def reapLoop (head : Nat) : Nat → Option Nat → ReapState → Option Nat × Nat × ReapState
  | _, none, s => (none, 0, s)
  | 0, some a, s => ((s.mem a).bufferNext, 1, s.returnBuffer head a)
  | more + 1, some a, s =>
    let r := reapLoop head more (s.mem a).bufferNext (s.returnBuffer head a)
    (r.1, r.2.1 + 1, r.2.2)

/-- The conversion of the result of `reap_rpc_buffers`, an `int`, back to an address. -/
def addrOfInt : Option Nat → Option Nat
  | none => none
  | some a =>
    let x := (BitVec.ofNat 32 a).signExtend 64
    if x = BitVec.allOnes 64 then none else some x.toNat

/-- The loop of `flush_reap_backlog`; none when `fuel` runs out. -/
def flushLoop (batch : Nat) : Nat → Nat → ReapState → Option ReapState
  | 0, _, s => if s.reapBacklog = [] then some s else none
  | fuel + 1, totalBudgetUse, s =>
    match s.reapBacklog with
    | [] => some s
    | en :: rest =>
      let r := reapLoop en.head ((batch <<< 2) - 1) (some en.addr) { s with reapBacklog := rest }
      match addrOfInt r.1 with
      | none => flushLoop batch fuel (totalBudgetUse + r.2.1) r.2.2
      | some a =>
        let s := r.2.2.enqueueReapBacklog ⟨a, en.head⟩
        if s.reapBacklog.length < 20 ∧ batch <<< 3 ≤ totalBudgetUse + r.2.1 then some s
        -- too many buffers to reap: the loop continues even if the budget is exhausted
        else flushLoop batch fuel 0 s

def flushReapBacklog (s : ReapState) (batch : Nat) : Option ReapState :=
  flushLoop batch umemSize 0 s

/-! ## Retransmission -/

def messageTxRetransmission (s : ReapState) (rm : ResendMeta) (room : Nat) : Option ReapState :=
  let cleared := s.setFlag rm.origAddr (~~~flagUnderRetransmission &&& s.getFlag rm.origAddr)
  (Rpc.messageTxRetransmission s.mem rm room).map fun ds =>
    if s.getFlag rm.origAddr &&& flagUnderReap ≠ 0 then
      -- the RPC has completed in the meantime: it is not retransmitted but reaped
      cleared.enqueueReapBacklog ⟨rm.origAddr, rm.origAddr⟩
    else { cleared with sent := s.sent ++ ds }

def flushRpcRetransmissionQueue (s : ReapState) : List Nat → ReapState
  | [] => s
  | room :: rooms =>
    match s.retransmissionQueue with
    | [] => s
    | rm :: queue =>
      match s.messageTxRetransmission rm room with
      | none => s.flushRpcRetransmissionQueue rooms
      | some s => { s with retransmissionQueue := queue }

def prepareRetransmission (s : ReapState) (r : ResendHeader) (bufferAddr : Nat)
    (free : List Nat) : Option ReapState :=
  (Rpc.prepareRetransmission umemSize s.mem free bufferAddr r.offset r.length r.priority).map
    fun res =>
      match res.2 with
      | none => { s with mem := res.1 }
      | some rm =>
        { s with
          mem := res.1
          retransmissionQueue := s.retransmissionQueue ++ [rm]
          buffers := update s.buffers bufferAddr
            (s.buffers bufferAddr ++ free.take rm.nrPkt) }

/-! ## Packets -/

def handOver (s : ReapState) (a : Nat) : ReapState :=
  { s.enqueueReapBacklog ⟨a, a⟩ with handed := update s.handed a true }

def handOverAll (s : ReapState) (as : List Nat) : ReapState :=
  as.foldl handOver s

/-- A RESEND for a server RPC in `poll_nic_rx`; `poll_nic_rx_block` neither tests nor sets the
    flags. -/
def resendServer (s : ReapState) (block : Bool) (r : ResendHeader) (a : Nat) (free : List Nat) :
    Option ReapState :=
  if block then s.prepareRetransmission r a free
  else if s.getFlag a &&& (flagUnderReap ||| flagUnderRetransmission) ≠ 0 then some s
  else (s.setFlag a flagUnderRetransmission).prepareRetransmission r a free

def handle (s : ReapState) : ReapEvent → Option ReapState
  | .data client server => some (s.handOverAll (client.toList ++ server.toList))
  | .resend block client server r free =>
    let s := s.handOverAll client.toList
    server.elim (some s) fun a => s.resendServer block r a free
  | .flushReap batch => s.flushReapBacklog batch
  | .flushRetransmission rooms => some (s.flushRpcRetransmissionQueue rooms)

def step (s : Option ReapState) (e : ReapEvent) : Option ReapState :=
  s.bind fun s => s.handle e

/-! ## The property -/

def rest (s : ReapState) (head : Nat) : List Nat :=
  (s.buffers head).drop (s.returned head).length

def ReturnsUnqueued (s s' : ReapState) : Prop :=
  ∀ h, s'.returned h ≠ s.returned h → ∀ rm ∈ s.retransmissionQueue, rm.origAddr ≠ h

def QueuesUnreaped (s s' : ReapState) : Prop :=
  ∀ new, s'.retransmissionQueue = s.retransmissionQueue ++ new →
    ∀ rm ∈ new, s'.handed rm.origAddr = false

/-- Of a reaped message the first buffers are returned, and the others wait in the backlog or for a
    retransmission. -/
structure ReturnedOnce (s : ReapState) : Prop where
  nodup : ∀ h, (s.buffers h).Nodup
  initial : ∀ h, s.returned h <+: s.buffers h
  reaped : ∀ h, s.handed h = false → s.returned h = []
  kept : ∀ h, s.handed h = true → s.returned h ≠ s.buffers h →
    (∃ en ∈ s.reapBacklog, en.head = h) ∨ ∃ rm ∈ s.retransmissionQueue, rm.origAddr = h

def NoOverlap (s : Option ReapState) (e : ReapEvent) : Prop :=
  ∃ s₀ s₁, s = some s₀ ∧ s₀.handle e = some s₁ ∧ ReturnsUnqueued s₀ s₁ ∧ QueuesUnreaped s₀ s₁ ∧
    ReturnedOnce s₁

/-! ## The condition -/

/-- The message was not handed over before and has no entry in the retransmission queue. -/
def Reapable (s : ReapState) (a : Nat) : Prop :=
  s.buffers a ≠ [] ∧ s.handed a = false ∧ ∀ rm ∈ s.retransmissionQueue, rm.origAddr ≠ a

structure CanHandOver (s : ReapState) (as : List Nat) : Prop where
  nodup : as.Nodup
  reapable : ∀ a ∈ as, s.Reapable a
  room : s.reapBacklog.length + as.length ≤ reapBacklogCapacity

structure Unused (s : ReapState) (free : List Nat) : Prop where
  nodup : free.Nodup
  range : ∀ x ∈ free, x < umemSize
  fresh : ∀ x ∈ free, ∀ h, x ∉ s.rest h

def askedFor (r : ResendHeader) (seq n : Nat) : Nat :=
  min ((r.offset + r.length - 1).toNat / homaMss + 1) (seq + n) -
    max (r.offset.toNat / homaMss) seq

/-- No buffer is returned, for `poll_nic_rx_block` it is not handed over either; and there are
    buffers. -/
structure CanResend (s : ReapState) (block : Bool) (client : Option Nat) (r : ResendHeader)
    (a : Nat) (free : List Nat) : Prop where
  message : s.buffers a ≠ []
  unreturned : s.returned a = []
  unreaped : block = true → s.handed a = false ∧ client ≠ some a
  unused : s.Unused free
  enough : askedFor r 0 (s.buffers a).length ≤ free.length

def Separated (s : ReapState) : ReapEvent → Prop
  | .data client server => s.CanHandOver (client.toList ++ server.toList)
  | .resend block client server r free =>
    s.CanHandOver client.toList ∧ ∀ a, server = some a → s.CanResend block client r a free
  | .flushReap _ => True
  | .flushRetransmission _ => True

def SeparatedAt (s : Option ReapState) (e : ReapEvent) : Prop :=
  ∀ s₀, s = some s₀ → s₀.Separated e

structure Fresh (s : ReapState) : Prop where
  linked : ∀ h, LinkedFrom s.mem (s.buffers h).head? (s.buffers h)
  head : ∀ h, s.buffers h ≠ [] → (s.buffers h).head? = some h
  nodup : ∀ h, (s.buffers h).Nodup
  disjoint : ∀ h h', h ≠ h' → (s.buffers h).Disjoint (s.buffers h')
  range : ∀ h, ∀ x ∈ s.buffers h, x < umemSize
  unflagged : ∀ h, s.buffers h ≠ [] → (s.mem h).underReap = false
  backlog : s.reapBacklog = []
  queue : s.retransmissionQueue = []
  returned : ∀ h, s.returned h = []
  handed : ∀ h, s.handed h = false

end ReapState

open List Option Prepare

/-! ## Chains in the UMEM -/

theorem LinkedFrom.append {mem mem' : Umem} {next : Option Nat} {addrs more : List Nat} {last : Nat}
    (h : LinkedFrom mem next addrs) (hlast : addrs.getLast? = some last)
    (hkept : ∀ a ∈ addrs, a ≠ last → (mem' a).bufferNext = (mem a).bufferNext)
    (hset : (mem' last).bufferNext = more.head?) (hmore : LinkedFrom mem' more.head? more)
    (hnodup : addrs.Nodup) : LinkedFrom mem' next (addrs ++ more) := by
  induction addrs generalizing next with
  | nil => cases hlast
  | cons a addrs ih =>
    refine ⟨h.1, ?_⟩
    cases addrs with
    | nil =>
      obtain rfl : a = last := some.inj hlast
      rw [hset]
      exact hmore
    | cons b addrs =>
      have hlast' : (b :: addrs).getLast? = some last := by
        rwa [getLast?_cons_cons] at hlast
      -- the last buffer is further on, so the link of this one is kept
      have hne : a ≠ last := by
        rintro rfl
        exact (nodup_cons.mp hnodup).1 (mem_of_getLast? hlast')
      rw [hkept a mem_cons_self hne]
      exact ih h.2 hlast' (fun x hx => hkept x (mem_cons_of_mem _ hx))
        (nodup_cons.mp hnodup).2

@[simp] theorem Umem.setNext_bufferNext_self (mem : Umem) (a : Nat) (next : Option Nat) :
    (mem.setNext a next a).bufferNext = next := by
  simp [Umem.setNext]

/-! ## The copies of a retransmission -/

namespace Prepare

variable {p : Prepare} {addr new : Nat} {free : List Nat} {priority : U8}

theorem copy_bufferNext_new : ((p.copy addr new free priority).mem new).bufferNext = none := by
  simp [copy]

theorem copy_bufferNext_tail {tail : Nat} (htail : p.bufferTail = some tail) (hne : tail ≠ new) :
    ((p.copy addr new free priority).mem tail).bufferNext = some new := by
  simp [copy, htail, update_of_ne hne, Umem.setNext_of_ne hne]

@[simp] theorem copy_underReap (x : Nat) :
    ((p.copy addr new free priority).mem x).underReap = (p.mem x).underReap := by
  rcases eq_or_ne x new with rfl | hx
  · cases htail : p.bufferTail <;> simp [copy, htail]
  · cases htail : p.bufferTail <;> simp [copy, htail, update_of_ne hx]

end Prepare

structure Copied (mem : Umem) (free copies : List Nat) (p : Prepare) : Prop where
  taken : free = copies ++ p.free
  count : p.rm.nrPkt = copies.length
  linked : LinkedFrom p.mem copies.head? copies
  first : p.rm.addr = copies.head?
  tail : p.bufferTail = copies.getLast?
  kept : ∀ x ∉ copies, p.mem x = mem x
  underReap : ∀ x, (p.mem x).underReap = (mem x).underReap

namespace Copied

variable {mem : Umem} {free copies : List Nat} {p : Prepare}

theorem start (mem : Umem) (free : List Nat) (length : U32) (addr : Nat) :
    Copied mem free [] (start mem free length addr) where
  taken := rfl
  count := rfl
  linked := rfl
  first := rfl
  tail := rfl
  kept _ _ := rfl
  underReap _ := rfl

theorem noteTail (h : Copied mem free copies p) (addr : Nat) (next : Option Nat) :
    Copied mem free copies (p.noteTail addr next) where
  taken := by rw [noteTail_free]; exact h.taken
  count := by rw [noteTail_rm]; exact h.count
  linked := by rw [noteTail_mem]; exact h.linked
  first := by rw [noteTail_rm]; exact h.first
  tail := by rw [noteTail_bufferTail]; exact h.tail
  kept := by rw [noteTail_mem]; exact h.kept
  underReap := by rw [noteTail_mem]; exact h.underReap

theorem copy (h : Copied mem free copies p) (hnodup : free.Nodup) {new : Nat} {free' : List Nat}
    (hnew : p.free = new :: free') (addr : Nat) (priority : U8) :
    Copied mem free (copies ++ [new]) (p.copy addr new free' priority) := by
  have htaken : free = copies ++ new :: free' := hnew ▸ h.taken
  have hcopies : (copies ++ [new]).Nodup := by
    rw [htaken, append_cons] at hnodup
    exact hnodup.of_append_left
  have hne : ∀ x ∈ copies, x ≠ new := by
    rintro x hx rfl
    exact (nodup_append.mp hcopies).2.2 x hx x mem_cons_self rfl
  have hkept : ∀ x, x ≠ new → x ∉ p.bufferTail →
      (p.copy addr new free' priority).mem x = p.mem x := fun x hx => Prepare.copy_mem_of_ne hx
  refine ⟨?_, ?_, ?_, ?_, ?_, ?_, ?_⟩
  · simpa [Prepare.copy] using htaken
  · simp [Prepare.copy, h.count]
  · -- the new buffer is linked behind the last copy, or is the first
    have hend : LinkedFrom (p.copy addr new free' priority).mem (some new) [new] :=
      ⟨rfl, Prepare.copy_bufferNext_new⟩
    cases hlast : copies.getLast? with
    | none =>
      obtain rfl := getLast?_eq_none_iff.mp hlast
      exact hend
    | some last =>
      have hmem : last ∈ copies := mem_of_getLast? hlast
      have hhead : (copies ++ [new]).head? = copies.head? :=
        head?_append_of_ne_nil _ (ne_nil_of_mem hmem)
      rw [hhead]
      refine h.linked.append hlast ?_ ?_ hend hcopies.of_append_left
      · intro x hx hxl
        rw [hkept x (hne x hx)]
        rw [h.tail, hlast]
        exact fun hxt => hxl (some.inj hxt).symm
      · exact Prepare.copy_bufferNext_tail (h.tail.trans hlast) (hne last hmem)
  · simp only [Prepare.copy, h.first]
    cases copies <;> rfl
  · simp [Prepare.copy]
  · intro x hx
    grind [h.kept x, h.tail]
  · intro x
    rw [copy_underReap, h.underReap]

theorem prepareList (hnodup : free.Nodup) {firstSeq lastSeq : Nat} (priority : U8) (seq : Nat)
    (addrs : List Nat) (h : Copied mem free copies p)
    (henough : min (lastSeq + 1) (seq + addrs.length) - max firstSeq seq ≤ p.free.length) :
    ∃ copies', Copied mem free copies' (prepareList firstSeq lastSeq priority seq addrs p) ∧
      (Rpc.prepareList firstSeq lastSeq priority seq addrs p).origBufferTail =
        addrs.getLast?.or p.origBufferTail := by
  induction addrs generalizing copies seq p with
  | nil => exact ⟨copies, h, rfl⟩
  | cons addr addrs ih =>
    have htail : addrs.getLast?.or (p.noteTail addr addrs.head?).origBufferTail =
        (addr :: addrs).getLast?.or p.origBufferTail := by
      cases addrs with
      | nil => rfl
      | cons b addrs => simp [getLast?_cons]
    rw [length_cons] at henough
    rw [Rpc.prepareList]
    split_ifs with hasked
    · cases hnew : (p.noteTail addr addrs.head?).free with
      | nil =>
        rw [noteTail_free] at hnew
        rw [hnew, length_nil] at henough
        omega
      | cons new free' =>
        have hcopy := (h.noteTail addr addrs.head?).copy hnodup hnew addr priority
        rw [noteTail_free] at hnew
        rw [hnew, length_cons] at henough
        rw [← htail]
        exact ih (seq + 1) hcopy (show _ ≤ free'.length by omega)
    · rw [← htail]
      exact ih (seq + 1) (h.noteTail addr addrs.head?) (by rw [noteTail_free]; omega)

end Copied

structure Extended (mem : Umem) (free : List Nat) (head : Nat) (addrs copies : List Nat)
    (res : Umem × Option ResendMeta) : Prop where
  taken : copies <+: free
  linked : LinkedFrom res.1 (some head) (addrs ++ copies)
  kept : ∀ x ∉ addrs, x ∉ copies → res.1 x = mem x
  underReap : ∀ x, (res.1 x).underReap = (mem x).underReap
  nothing : res.2 = none → copies = []
  entry : ∀ rm, res.2 = some rm → rm.origAddr = head ∧ free.take rm.nrPkt = copies

theorem Copied.finish {mem : Umem} {free copies addrs : List Nat} {head : Nat} {p : Prepare}
    (h : Copied mem free copies p) (hlink : LinkedFrom mem (some head) addrs) (haddrs : addrs.Nodup)
    (hdisj : ∀ a ∈ addrs, a ∉ free) (htail : p.origBufferTail = addrs.getLast?)
    (horig : p.rm.origAddr = head) :
    ∃ res, p.finish = some res ∧ Extended mem free head addrs copies res := by
  have htaken : copies <+: free := ⟨p.free, h.taken.symm⟩
  have hmem : ∀ a ∈ addrs, p.mem a = mem a := fun a ha =>
    h.kept a fun hac => hdisj a ha (htaken.subset hac)
  cases hc : copies with
  | nil =>
    have hfinish : p.finish = some (p.mem, none) := by
      rw [Prepare.finish, h.first, hc]
      rfl
    refine ⟨_, hfinish, hc ▸ htaken, ?_, ?_, h.underReap, fun _ => rfl, ?_⟩
    · rw [append_nil]
      exact hlink.congr hmem
    · exact fun x _ hx => h.kept x (hc ▸ hx)
    · exact fun rm hrm => absurd hrm.symm (some_ne_none rm)
  | cons new more =>
    obtain ⟨last, hlast⟩ : ∃ last, addrs.getLast? = some last := by
      cases addrs with
      | nil => cases hlink
      | cons a addrs => exact ⟨_, getLast?_eq_some_getLast (cons_ne_nil a addrs)⟩
    have hlastMem : last ∈ addrs := mem_of_getLast? hlast
    have hnotLast : ∀ x ∈ copies, x ≠ last := by
      rintro x hx rfl
      exact hdisj x hlastMem (htaken.subset hx)
    have hfinish : p.finish = some (p.mem.setNext last (some new), some p.rm) := by
      rw [Prepare.finish, h.first, hc, htail, hlast]
      rfl
    have hset : ∀ x, x ≠ last → p.mem.setNext last (some new) x = p.mem x := fun x hx =>
      Umem.setNext_of_ne hx _
    rw [← hc]
    refine ⟨_, hfinish, htaken, ?_, ?_, ?_, fun hrm => absurd hrm (some_ne_none p.rm), ?_⟩
    · -- the copies are linked behind the last buffer of the message
      refine hlink.append hlast ?_ ?_ ?_ haddrs
      · exact fun a ha hal => congrArg Frame.bufferNext ((hset a hal).trans (hmem a ha))
      · rw [Umem.setNext_bufferNext_self, hc]
        rfl
      · exact h.linked.congr fun x hx => hset x (hnotLast x hx)
    · intro x hx hxc
      have hne : x ≠ last := by
        rintro rfl
        exact hx hlastMem
      exact (hset x hne).trans (h.kept x hxc)
    · intro x
      rw [Umem.setNext_underReap, h.underReap]
    · rintro rm hrm
      obtain rfl := some.inj hrm
      refine ⟨horig, ?_⟩
      rw [h.count]
      exact (prefix_iff_eq_take.mp htaken).symm

theorem prepareRetransmission_spec {mem : Umem} {free addrs : List Nat} {head fuel : Nat}
    (r : ResendHeader) (hlink : LinkedFrom mem (some head) addrs) (haddrs : addrs.Nodup)
    (hfuel : addrs.length ≤ fuel) (hfree : free.Nodup) (hdisj : ∀ a ∈ addrs, a ∉ free)
    (henough : ReapState.askedFor r 0 addrs.length ≤ free.length) :
    ∃ res copies, prepareRetransmission fuel mem free head r.offset r.length r.priority = some res ∧
      Extended mem free head addrs copies res := by
  obtain ⟨copies, hc, htail⟩ := (Copied.start mem free r.length head).prepareList hfree r.priority
    0 addrs henough
  have horig := prepareList_origAddr (r.offset.toNat / homaMss)
    ((r.offset + r.length - 1).toNat / homaMss) r.priority 0 addrs
    (start mem free r.length head)
  have htail' : addrs.getLast?.or none = addrs.getLast? := or_none
  obtain ⟨res, hres, hext⟩ := hc.finish hlink haddrs hdisj (htail.trans htail') horig
  refine ⟨res, copies, ?_, hext⟩
  simp only [prepareRetransmission]
  have hnotTail : ∀ a ∈ addrs, a ∉ (start mem free r.length head).bufferTail :=
    fun a _ => not_mem_none a
  rw [prepareLoop_eq hlink hfuel hdisj hnotTail, bind_some, hres]

namespace ReapState

/-! ## The chains of all messages -/

/-- The messages are in chains of their own; until a buffer is returned the flag tells whether one
    was handed over. -/
structure Chains (s : ReapState) : Prop where
  head : ∀ h, s.buffers h ≠ [] → (s.buffers h).head? = some h
  nodup : ∀ h, (s.buffers h).Nodup
  initial : ∀ h, s.returned h <+: s.buffers h
  disjoint : ∀ h h', h ≠ h' → (s.rest h).Disjoint (s.rest h')
  range : ∀ h, ∀ x ∈ s.rest h, x < umemSize
  linked : ∀ h, LinkedFrom s.mem (s.rest h).head? (s.rest h)
  unreaped : ∀ h, s.handed h = false → s.returned h = []
  flagged : ∀ h, s.buffers h ≠ [] → s.returned h = [] → (s.mem h).underReap = s.handed h

/-- The entries `es` are those of the messages that are handed over and not all returned. -/
structure Waiting (s : ReapState) (es : List ReapEntry) : Prop where
  nodup : (es.map ReapEntry.head).Nodup
  entry : ∀ en ∈ es, s.handed en.head = true ∧ (s.rest en.head).head? = some en.addr
  covers : ∀ h, s.handed h = true → s.rest h ≠ [] → ∃ en ∈ es, en.head = h

variable {s t : ReapState} {es : List ReapEntry} {h a : Nat}

theorem rest_eq_of_returned_nil (hr : s.returned h = []) : s.rest h = s.buffers h := by
  rw [rest, hr, length_nil, drop_zero]

theorem rest_congr (hb : t.buffers = s.buffers) (hr : t.returned = s.returned) :
    t.rest = s.rest := by
  funext h
  rw [rest, rest, hb, hr]

theorem Chains.rest_nodup (hc : Chains s) (h : Nat) : (s.rest h).Nodup :=
  (drop_sublist _ _).nodup (hc.nodup h)

theorem Chains.returned_append_rest (hc : Chains s) (h : Nat) :
    s.returned h ++ s.rest h = s.buffers h := by
  obtain ⟨more, hmore⟩ := hc.initial h
  rw [rest, ← hmore, drop_left]

theorem Chains.mem_rest_self (hc : Chains s) (hb : s.buffers h ≠ []) (hr : s.returned h = []) :
    h ∈ s.rest h := by
  rw [rest_eq_of_returned_nil hr]
  exact mem_of_head? (hc.head h hb)

theorem Chains.reflag (hc : Chains s) (hb : t.buffers = s.buffers) (hr : t.returned = s.returned)
    (hnext : ∀ x, (t.mem x).bufferNext = (s.mem x).bufferNext)
    (hhanded : ∀ h, t.handed h = false → s.handed h = false)
    (hflag : ∀ h, s.buffers h ≠ [] → s.returned h = [] → (t.mem h).underReap = t.handed h) :
    Chains t := by
  have hrest := rest_congr hb hr
  refine ⟨hb ▸ hc.head, hb ▸ hc.nodup, ?_, hrest ▸ hc.disjoint, hrest ▸ hc.range, ?_, ?_, ?_⟩
  · rw [hb, hr]
    exact hc.initial
  · intro h
    rw [hrest]
    exact (hc.linked h).of_bufferNext fun x _ => hnext x
  · intro h hh
    rw [hr]
    exact hc.unreaped h (hhanded h hh)
  · rw [hb, hr]
    exact hflag

theorem Waiting.congr (hw : Waiting s es) (hb : t.buffers = s.buffers)
    (hr : t.returned = s.returned) (hh : t.handed = s.handed) : Waiting t es := by
  have hrest := rest_congr hb hr
  refine ⟨hw.nodup, ?_, ?_⟩
  · rw [hh, hrest]
    exact hw.entry
  · rw [hh, hrest]
    exact hw.covers

theorem Waiting.perm {es' : List ReapEntry} (hw : Waiting s es) (hp : es.Perm es') :
    Waiting s es' := by
  refine ⟨(hp.map _).nodup_iff.mp hw.nodup, fun en hen => hw.entry en (hp.mem_iff.mpr hen), ?_⟩
  intro h hh hne
  obtain ⟨en, hen, rfl⟩ := hw.covers h hh hne
  exact ⟨en, hp.mem_iff.mp hen, rfl⟩

/-! ## One buffer is returned -/

theorem rest_returnBuffer (s : ReapState) (h a : Nat) :
    (s.returnBuffer h a).rest = update s.rest h (s.rest h).tail := by
  funext x
  rcases eq_or_ne x h with rfl | hx
  · simp [rest, returnBuffer, clearAll, tail_drop]
  · simp [rest, returnBuffer, clearAll, hx]

theorem rest_returnBuffer_subset (s : ReapState) (h a x : Nat) :
    (s.returnBuffer h a).rest x ⊆ s.rest x := by
  rw [rest_returnBuffer]
  grind [tail_subset]

theorem mem_returnBuffer_of_ne {x : Nat} (hx : x ≠ a) : (s.returnBuffer h a).mem x = s.mem x := by
  simp [returnBuffer, clearAll, hx]

theorem Chains.linked_tail (hc : Chains s) (ha : (s.rest h).head? = some a) :
    LinkedFrom s.mem (s.mem a).bufferNext (s.rest h).tail ∧
      (s.mem a).bufferNext = (s.rest h).tail.head? := by
  have hlink := hc.linked h
  rw [← cons_head?_tail ha] at hlink
  exact ⟨hlink.2, hlink.2.eq_head?⟩

theorem Chains.returnBuffer (hc : Chains s) (hh : s.handed h = true)
    (ha : (s.rest h).head? = some a) : Chains (s.returnBuffer h a) := by
  have hmem : a ∈ s.rest h := mem_of_head? ha
  have hcons : s.rest h = a :: (s.rest h).tail := (cons_head?_tail ha).symm
  have hother : ∀ x h', h' ≠ h → x ∈ s.rest h' → x ≠ a := by
    rintro x h' hne hx rfl
    exact hc.disjoint h' h hne hx hmem
  have hsub := rest_returnBuffer_subset s h a
  refine ⟨hc.head, hc.nodup, ?_, ?_, fun x y hy => hc.range x y (hsub x hy), ?_, ?_, ?_⟩
  · intro x
    rcases eq_or_ne x h with rfl | hx
    · refine ⟨(s.rest x).tail, ?_⟩
      simp only [ReapState.returnBuffer, clearAll, update_self]
      rw [append_assoc, singleton_append, ← hcons, hc.returned_append_rest]
    · simpa [ReapState.returnBuffer, clearAll, hx] using hc.initial x
  · exact fun x y hxy z hzx hzy => hc.disjoint x y hxy (hsub x hzx) (hsub y hzy)
  · intro x
    rw [rest_returnBuffer]
    rcases eq_or_ne x h with rfl | hx
    · -- the buffer itself is not in the rest of its chain
      obtain ⟨hlink, hnext⟩ := hc.linked_tail ha
      have hnotMem : a ∉ (s.rest x).tail := by
        have hnodup := hc.rest_nodup x
        rw [hcons] at hnodup
        exact (nodup_cons.mp hnodup).1
      rw [update_self, ← hnext]
      refine hlink.congr fun y hy => mem_returnBuffer_of_ne ?_
      rintro rfl
      exact hnotMem hy
    · rw [update_of_ne hx]
      exact (hc.linked x).congr fun y hy => mem_returnBuffer_of_ne (hother y x hx hy)
  · intro x hx
    have hne : x ≠ h := by
      rintro rfl
      exact absurd (hh.symm.trans hx) (by decide)
    simpa [ReapState.returnBuffer, clearAll, hne] using hc.unreaped x hx
  · intro x hb hr
    have hne : x ≠ h := by
      rintro rfl
      simp [ReapState.returnBuffer] at hr
    have hr' : s.returned x = [] := by simpa [ReapState.returnBuffer, clearAll, hne] using hr
    rw [mem_returnBuffer_of_ne (hother x x hne (hc.mem_rest_self hb hr'))]
    exact hc.flagged x hb hr'

def frontier (next : Option Nat) (h : Nat) (es : List ReapEntry) : List ReapEntry :=
  (next.map fun a => ⟨a, h⟩).toList ++ es

theorem Waiting.returnBuffer (hc : Chains s) (hw : Waiting s (⟨a, h⟩ :: es)) :
    Waiting (s.returnBuffer h a) (frontier (s.mem a).bufferNext h es) := by
  obtain ⟨hh, ha⟩ := hw.entry _ mem_cons_self
  obtain ⟨hnew, hnodup⟩ := nodup_cons.mp hw.nodup
  obtain ⟨-, hnext⟩ := hc.linked_tail ha
  have hne : ∀ en ∈ es, en.head ≠ h := by
    intro en hen heq
    exact hnew (mem_map.mpr ⟨en, hen, heq⟩)
  have hrest : ∀ x, x ≠ h → (s.returnBuffer h a).rest x = s.rest x := fun x hx => by
    rw [rest_returnBuffer, update_of_ne hx]
  have hself : (s.returnBuffer h a).rest h = (s.rest h).tail := by
    rw [rest_returnBuffer, update_self]
  have hentry : ∀ en ∈ es, (s.returnBuffer h a).handed en.head = true ∧
      ((s.returnBuffer h a).rest en.head).head? = some en.addr := by
    intro en hen
    rw [hrest _ (hne en hen)]
    exact hw.entry en (mem_cons_of_mem _ hen)
  have hcovers : ∀ x, x ≠ h → s.handed x = true → (s.returnBuffer h a).rest x ≠ [] →
      ∃ en ∈ es, en.head = x := by
    intro x hx hhx hrx
    rw [hrest x hx] at hrx
    obtain ⟨en, hen, rfl⟩ := hw.covers x hhx hrx
    rcases mem_cons.mp hen with rfl | hen
    · exact absurd rfl hx
    · exact ⟨en, hen, rfl⟩
  cases hb : (s.mem a).bufferNext with
  | none =>
    refine ⟨hnodup, hentry, fun x hhx hrx => hcovers x ?_ hhx hrx⟩
    -- the chain has come to its end
    rintro rfl
    rw [hself] at hrx
    rw [hb] at hnext
    exact hrx (head?_eq_none_iff.mp hnext.symm)
  | some b =>
    refine ⟨hw.nodup, ?_, ?_⟩
    · intro en hen
      rcases mem_cons.mp hen with rfl | hen
      · exact ⟨hh, by rw [hself, ← hnext, hb]⟩
      · exact hentry en hen
    · intro x hhx hrx
      rcases eq_or_ne x h with rfl | hx
      · exact ⟨_, mem_cons_self, rfl⟩
      · obtain ⟨en, hen, hx'⟩ := hcovers x hx hhx hrx
        exact ⟨en, mem_cons_of_mem _ hen, hx'⟩

end ReapState

end MtpXdp.Rpc

import Mathlib.Data.Fintype.Basic
import MtpXdp.Core.Ring
import MtpXdp.Core.Run
import MtpXdp.Ebpf.State

/-!
# LRPC Channels are Bounded Queues

The shared memory channel of `common/base/lrpc.h` and `lrpc.cc`. One event is one load or store of
shared memory; `memcpy` moves single bytes, in any order. Calls of the two sides interleave freely.
A message counts as sent with the store that makes it visible, and as received with the store that
publishes the receiver's head.

An entry carries the parity of the lap on which it was written. The receiver takes it for new when
the parity is that of its own lap; the sender does not overwrite it before the receiver has
published that it is past it.
-/

namespace MtpXdp.Common

open Ebpf MtpXdp.Core List BitVec Function

abbrev LrpcByte := Fin 56

structure LrpcMsg where
  cmd : U64
  data : LrpcByte → U8

def lrpcDoneParity : U64 := 1#64 <<< 63

def lrpcCmdMask : U64 := ~~~lrpcDoneParity

structure LrpcChanOut where
  sendHead : U32
  sendTail : U32
  size : U32

structure LrpcChanIn where
  recvHead : U32
  size : U32

def isPowerOfTwo (x : U32) : Bool := x ≠ 0#32 ∧ x &&& (x - 1#32) = 0#32

def lrpcInitOut (size : U32) : Option LrpcChanOut :=
  if isPowerOfTwo size then some { sendHead := 0#32, sendTail := 0#32, size := size } else none

def lrpcInitIn (size : U32) : Option LrpcChanIn :=
  if isPowerOfTwo size then some { recvHead := 0#32, size := size } else none

def lrpcParity (head size : U32) : U64 := if head &&& size ≠ 0#32 then 0#64 else lrpcDoneParity

/-! ## Where the two sides are -/

/-- Where the sender is. The lists hold the bytes that `memcpy` has moved. -/
inductive LrpcSendPc where
  | idle
  /-- In `__lrpc_send`, before the load of the write-back word. -/
  | loadWb (msg : LrpcMsg)
  | copyFast (msg : LrpcMsg) (dst : U32) (cmd : U64) (copied : List LrpcByte)
  | copySlow (msg : LrpcMsg) (dst : U32) (copied : List LrpcByte)
  | aborted

/-- Where the receiver is; `msg` is the buffer of its caller. -/
inductive LrpcRecvPc where
  | idle
  | copy (msg : LrpcMsg) (src : U32) (copied : List LrpcByte)

structure Lrpc where
  tbl : U32 → LrpcMsg
  recvHeadWb : U32
  out : LrpcChanOut
  sendPc : LrpcSendPc
  inn : LrpcChanIn
  recvPc : LrpcRecvPc
  sent : List LrpcMsg
  sendFailures : Nat
  received : List LrpcMsg
  recvFailures : Nat

def lrpcInit (size : U32) : Option Lrpc := do
  let out ← lrpcInitOut size
  let inn ← lrpcInitIn size
  some
    { tbl := fun _ => { cmd := 0#64, data := fun _ => 0#8 }, recvHeadWb := 0#32
      out := out, sendPc := .idle, inn := inn, recvPc := .idle
      sent := [], sendFailures := 0, received := [], recvFailures := 0 }

/-! ## Sending -/

def lrpcSend (c : LrpcChanOut) (msg : LrpcMsg) : LrpcChanOut × LrpcSendPc :=
  if msg.cmd &&& lrpcDoneParity ≠ 0#64 then (c, .aborted)
  else if c.sendHead - c.sendTail ≥ c.size then
    if c.sendHead - c.sendTail = c.size then (c, .loadWb msg) else (c, .aborted)
  else
    ({ c with sendHead := c.sendHead + 1#32 },
      .copyFast msg (c.sendHead &&& (c.size - 1#32))
        (msg.cmd ||| lrpcParity c.sendHead c.size) [])

def Lrpc.storeByte (s : Lrpc) (dst : U32) (msg : LrpcMsg) (i : LrpcByte) : Lrpc :=
  let m := s.tbl dst
  let m := { m with data := Function.update m.data i (msg.data i) }
  { s with tbl := Function.update s.tbl dst m }

/-- The `store_release` that makes a message visible; the call returns 0. -/
def Lrpc.publish (s : Lrpc) (dst : U32) (cmd : U64) (msg : LrpcMsg) : Lrpc :=
  { s with
    tbl := Function.update s.tbl dst { s.tbl dst with cmd := cmd }
    sendPc := .idle
    sent := s.sent ++ [msg] }

def Lrpc.sendStep (s : Lrpc) (i : LrpcByte) : Lrpc :=
  match s.sendPc with
  | .idle | .aborted => s
  | .loadWb msg =>
    let out := { s.out with sendTail := s.recvHeadWb }
    if out.sendHead - out.sendTail = out.size then
      { s with out := out, sendPc := .idle, sendFailures := s.sendFailures + 1 }
    else
      { s with out := out, sendPc := .copySlow msg (out.sendHead &&& (out.size - 1#32)) [] }
  | .copyFast msg dst cmd copied =>
    if ∀ j, j ∈ copied then s.publish dst cmd msg
    else { s.storeByte dst msg i with sendPc := .copyFast msg dst cmd (i :: copied) }
  | .copySlow msg dst copied =>
    if ∀ j, j ∈ copied then
      let cmd := msg.cmd ||| lrpcParity s.out.sendHead s.out.size
      { s.publish dst cmd msg with out := { s.out with sendHead := s.out.sendHead + 1#32 } }
    else { s.storeByte dst msg i with sendPc := .copySlow msg dst (i :: copied) }

/-! ## Receiving -/

def Lrpc.recv (s : Lrpc) (msg : LrpcMsg) : Lrpc :=
  let src := s.inn.recvHead &&& (s.inn.size - 1#32)
  let cmd := (s.tbl src).cmd
  if cmd &&& lrpcDoneParity ≠ lrpcParity s.inn.recvHead s.inn.size then
    { s with recvFailures := s.recvFailures + 1 }
  else
    { s with
      inn := { s.inn with recvHead := s.inn.recvHead + 1#32 }
      recvPc := .copy { msg with cmd := cmd &&& lrpcCmdMask } src [] }

def Lrpc.recvStep (s : Lrpc) (i : LrpcByte) : Lrpc :=
  match s.recvPc with
  | .idle => s
  | .copy msg src copied =>
    if ∀ j, j ∈ copied then
      { s with recvHeadWb := s.inn.recvHead, recvPc := .idle, received := s.received ++ [msg] }
    else
      let msg := { msg with data := Function.update msg.data i ((s.tbl src).data i) }
      { s with recvPc := .copy msg src (i :: copied) }

/-! ## Interleavings -/

inductive LrpcEvent where
  | send (msg : LrpcMsg)
  | sendStep (i : LrpcByte)
  | recv (msg : LrpcMsg)
  | recvStep (i : LrpcByte)

def lrpcStep (s : Lrpc) : LrpcEvent → Lrpc
  | .send msg =>
    match s.sendPc with
    | .idle => { s with out := (lrpcSend s.out msg).1, sendPc := (lrpcSend s.out msg).2 }
    | _ => s
  | .sendStep i => s.sendStep i
  | .recv msg =>
    match s.recvPc with
    | .idle => s.recv msg
    | .copy .. => s
  | .recvStep i => s.recvStep i

def LrpcEvent.CmdOk : LrpcEvent → Prop
  | .send msg => msg.cmd.toNat < 2 ^ 63
  | _ => True

open Lrpc

variable {m msg : LrpcMsg}

/-! ## Commands and parities -/

def parityOf (k n : Nat) : U64 := if oddLap k n then 0#64 else lrpcDoneParity

def entry (k n : Nat) (m : LrpcMsg) : LrpcMsg := { m with cmd := m.cmd ||| parityOf k n }

def LrpcMsg.Clean (m : LrpcMsg) : Prop := m.cmd &&& lrpcDoneParity = 0#64

theorem clean_of_lt (h : m.cmd.toNat < 2 ^ 63) : m.Clean := by
  apply eq_of_toNat_eq
  rw [toNat_and, show lrpcDoneParity.toNat = 2 ^ 63 from rfl, Nat.and_two_pow,
    Nat.testBit_lt_two_pow h]
  rfl

theorem lrpcParity_ofNat {k : Nat} (hk : k < 32) (n : Nat) :
    lrpcParity (BitVec.ofNat 32 n) (ringSize k) = parityOf k n := by
  unfold lrpcParity parityOf
  by_cases hodd : oddLap k n = true
  · rw [if_pos ((and_size_ne_zero_iff hk n).mpr hodd), if_pos hodd]
  · rw [if_neg (fun h => hodd ((and_size_ne_zero_iff hk n).mp h)), if_neg hodd]

theorem parityOf_add_size (k n : Nat) : parityOf k (n + 2 ^ k) ≠ parityOf k n := by
  unfold parityOf
  rw [oddLap_add_size]
  cases oddLap k n <;> decide

theorem parityOf_and_parity (k n : Nat) : parityOf k n &&& lrpcDoneParity = parityOf k n := by
  unfold parityOf
  cases oddLap k n <;> decide

theorem parityOf_and_mask (k n : Nat) : parityOf k n &&& lrpcCmdMask = 0#64 := by
  unfold parityOf
  cases oddLap k n <;> decide

theorem entry_cmd_and_parity (hm : m.Clean) (k n : Nat) :
    (entry k n m).cmd &&& lrpcDoneParity = parityOf k n := by
  rw [entry, BitVec.and_comm, BitVec.and_or_distrib_left, BitVec.and_comm _ m.cmd, hm,
    BitVec.and_comm, parityOf_and_parity, BitVec.zero_or]

theorem entry_cmd_and_mask (hm : m.Clean) (k n : Nat) :
    (entry k n m).cmd &&& lrpcCmdMask = m.cmd := by
  have hsplit : m.cmd &&& lrpcCmdMask = m.cmd := by
    calc m.cmd &&& lrpcCmdMask
        = (m.cmd &&& lrpcCmdMask) ||| (m.cmd &&& lrpcDoneParity) := by rw [hm, or_zero]
      _ = m.cmd &&& (lrpcCmdMask ||| lrpcDoneParity) := (and_or_distrib_left ..).symm
      _ = m.cmd := by
        rw [show lrpcCmdMask ||| lrpcDoneParity = allOnes 64 from by decide, and_allOnes]
  rw [entry, BitVec.and_comm, BitVec.and_or_distrib_left, BitVec.and_comm _ m.cmd, hsplit,
    BitVec.and_comm, parityOf_and_mask, BitVec.or_zero]

/-! ## The table -/

/-- Between `p` and `sent` the entries are there; the slots after them show the parity of the lap
    before. -/
structure TableInv (k : Nat) (tbl : U32 → LrpcMsg) (sent : List LrpcMsg) (p : Nat) : Prop where
  full : ∀ n m, p ≤ n → sent[n]? = some m → tbl (slot k n) = entry k n m
  free : ∀ n, sent.length ≤ n → n < p + 2 ^ k →
    (tbl (slot k n)).cmd &&& lrpcDoneParity ≠ parityOf k n

section

variable {k p : Nat} {tbl : U32 → LrpcMsg} {sent : List LrpcMsg}

theorem TableInv.init (k : Nat) :
    TableInv k (fun _ => { cmd := 0#64, data := fun _ => 0#8 }) [] 0 where
  full := by
    intro n m _ hm
    simp at hm
  free := by
    intro n _ hn
    rw [parityOf, oddLap_of_lt (by omega)]
    decide

theorem slot_ne_of_lt (hk : k < 32) (hroom : sent.length < p + 2 ^ k) {n : Nat}
    (hp : p ≤ n) (hm : sent[n]? = some m) : slot k n ≠ slot k sent.length := by
  have hn : n < sent.length := (List.getElem?_eq_some_iff.mp hm).1
  intro h
  have := slot_inj hk hp (by omega) (by omega) hroom h
  omega

theorem TableInv.storeData (h : TableInv k tbl sent p) (hk : k < 32)
    (hroom : sent.length < p + 2 ^ k) (data : LrpcByte → U8) :
    TableInv k (update tbl (slot k sent.length)
      { tbl (slot k sent.length) with data := data }) sent p where
  full := by
    intro n m hp hm
    rw [update_of_ne (slot_ne_of_lt hk hroom hp hm)]
    exact h.full n m hp hm
  free := by
    intro n hn hlt
    have hfree := h.free n hn hlt
    grind

theorem TableInv.publish (h : TableInv k tbl sent p) (hk : k < 32) (hp : p ≤ sent.length)
    (hroom : sent.length < p + 2 ^ k) (hdata : (tbl (slot k sent.length)).data = msg.data) :
    TableInv k (update tbl (slot k sent.length)
      { tbl (slot k sent.length) with cmd := (entry k sent.length msg).cmd })
      (sent ++ [msg]) p where
  full := by
    intro n m hpn hm
    rcases Nat.lt_or_ge n sent.length with hn | hn
    · rw [getElem?_append_left hn] at hm
      rw [update_of_ne (slot_ne_of_lt hk hroom hpn hm)]
      exact h.full n m hpn hm
    · -- the only entry past the old ones is the new one
      obtain ⟨hlt, hval⟩ := List.getElem?_eq_some_iff.mp hm
      have hn0 : n = sent.length := by
        simp at hlt
        omega
      subst hn0
      have hmsg : msg = m := by simpa using hval
      rw [update_self]
      dsimp only
      rw [hdata, ← hmsg]
      rfl
  free := by
    intro n hn hlt
    rw [length_append, length_singleton] at hn
    have hslot : slot k n ≠ slot k sent.length := by
      intro heq
      have := slot_inj hk (show p ≤ n by omega) hlt hp hroom heq
      omega
    rw [update_of_ne hslot]
    exact h.free n (by omega) hlt

theorem TableInv.consume (h : TableInv k tbl sent p) (hp : p < sent.length)
    (hclean : ∀ m ∈ sent, m.Clean) : TableInv k tbl sent (p + 1) where
  full := fun n m hpn hm => h.full n m (by omega) hm
  free := by
    intro n hn hlt
    by_cases hlast : n = p + 2 ^ k
    · -- one lap after the entry that was consumed
      have hentry := h.full p sent[p] (Nat.le_refl p) (getElem?_eq_getElem hp)
      rw [hlast, slot_add_size, hentry,
        entry_cmd_and_parity (hclean _ (getElem_mem hp))]
      exact (parityOf_add_size k p).symm
    · exact h.free n hn (by omega)

end

/-! ## The invariant -/

def LrpcSendPc.ahead : LrpcSendPc → Nat
  | .copyFast .. => 1
  | _ => 0

def LrpcSendPc.claimed : LrpcSendPc → Nat
  | .copyFast .. | .copySlow .. => 1
  | _ => 0

def LrpcRecvPc.ahead : LrpcRecvPc → Nat
  | .copy .. => 1
  | _ => 0

structure Writing (k : Nat) (s : Lrpc) (msg : LrpcMsg) (dst : U32) (copied : List LrpcByte) :
    Prop where
  clean : msg.Clean
  atSlot : dst = slot k s.sent.length
  room : s.sent.length < s.received.length + 2 ^ k
  data : ∀ i ∈ copied, (s.tbl dst).data i = msg.data i

def SenderInv (k : Nat) (s : Lrpc) : Prop :=
  match s.sendPc with
  | .idle => True
  | .loadWb msg => msg.Clean
  | .copyFast msg dst cmd copied =>
    Writing k s msg dst copied ∧ cmd = (entry k s.sent.length msg).cmd
  | .copySlow msg dst copied => Writing k s msg dst copied
  | .aborted => False

def ReceiverInv (k : Nat) (s : Lrpc) : Prop :=
  match s.recvPc with
  | .idle => True
  | .copy msg src copied => ∃ m, s.sent[s.received.length]? = some m ∧
      src = slot k s.received.length ∧ msg.cmd = m.cmd ∧ ∀ i ∈ copied, msg.data i = m.data i

/-- The counters stand for the messages sent and received, the table for those in between. -/
structure LrpcInv (k : Nat) (s : Lrpc) : Prop where
  outSize : s.out.size = ringSize k
  innSize : s.inn.size = ringSize k
  recvHeadWb : s.recvHeadWb = BitVec.ofNat 32 s.received.length
  sendHead : s.out.sendHead = BitVec.ofNat 32 (s.sent.length + s.sendPc.ahead)
  recvHead : s.inn.recvHead = BitVec.ofNat 32 (s.received.length + s.recvPc.ahead)
  sendTail : ∃ t ≤ s.received.length, s.out.sendTail = BitVec.ofNat 32 t ∧
    t ≤ s.sent.length ∧ s.sent.length + s.sendPc.claimed ≤ t + 2 ^ k
  consumed : s.received <+: s.sent
  clean : ∀ m ∈ s.sent, m.Clean
  table : TableInv k s.tbl s.sent s.received.length
  sender : SenderInv k s
  receiver : ReceiverInv k s

section

variable {k : Nat} {s : Lrpc}

theorem two_pow_lt (hk : k < 32) : 2 ^ k < 2 ^ 32 := Nat.pow_lt_pow_right (by omega) hk

theorem LrpcInv.toNat_occupied (h : LrpcInv k s) (hk : k < 32) (hpc : s.sendPc.ahead = 0)
    {t : Nat} (ht : t ≤ s.sent.length) (hle : s.sent.length ≤ t + 2 ^ k) :
    (s.out.sendHead - BitVec.ofNat 32 t).toNat = s.sent.length - t := by
  have := two_pow_lt hk
  rw [h.sendHead, hpc, Nat.add_zero]
  exact toNat_ofNat_sub_ofNat ht (by omega)

theorem LrpcInv.bounded (h : LrpcInv k s) :
    s.received.length ≤ s.sent.length ∧ s.sent.length ≤ s.received.length + 2 ^ k := by
  obtain ⟨t, ht, -, -, hle⟩ := h.sendTail
  exact ⟨h.consumed.length_le, by omega⟩

theorem lrpcInv_send (h : LrpcInv k s) (hk : k < 32) (hmsg : msg.Clean) :
    LrpcInv k (lrpcStep s (.send msg)) := by
  cases hpc : s.sendPc with
  | loadWb | copyFast | copySlow | aborted => simpa [lrpcStep, hpc] using h
  | idle =>
    obtain ⟨t, ht, htail, htsent, hle⟩ := h.sendTail
    have hahead : s.sendPc.ahead = 0 := by rw [hpc]; rfl
    rw [hpc] at hle
    have hocc := h.toNat_occupied hk hahead htsent hle
    have hhead := h.sendHead
    rw [hahead, Nat.add_zero] at hhead
    have hassert : ¬ msg.cmd &&& lrpcDoneParity ≠ 0#64 := by
      rw [LrpcMsg.Clean] at hmsg
      simpa using hmsg
    rcases Nat.lt_or_ge (s.sent.length - t) (2 ^ k) with hroom | hfull
    · -- the fast path
      have hnot : ¬ s.out.sendHead - s.out.sendTail ≥ s.out.size := by
        rw [ge_iff_le, le_def, htail, hocc, h.outSize, toNat_ringSize hk]
        omega
      have hsend : lrpcSend s.out msg = ({ s.out with sendHead := s.out.sendHead + 1#32 },
          .copyFast msg (slot k s.sent.length) (entry k s.sent.length msg).cmd []) := by
        have hdst : s.out.sendHead &&& (s.out.size - 1#32) = slot k s.sent.length := by
          rw [h.outSize, hhead, and_mask_eq_slot hk]
        have hparity : lrpcParity s.out.sendHead s.out.size = parityOf k s.sent.length := by
          rw [h.outSize, hhead, lrpcParity_ofNat hk]
        unfold lrpcSend
        rw [if_neg hassert, if_neg hnot, hdst, hparity]
        rfl
      simp only [lrpcStep, hpc, hsend]
      refine { h with sendHead := ?_, sendTail := ?_, sender := ?_ }
      · dsimp only
        rw [hhead, ofNat_add_one]
        rfl
      · exact ⟨t, ht, htail, htsent, by dsimp only [LrpcSendPc.claimed]; omega⟩
      · exact ⟨⟨hmsg, rfl, by dsimp only; omega, by simp⟩, rfl⟩
    · -- the slow path: the assertion of `__lrpc_send` holds
      have heq : s.out.sendHead - s.out.sendTail = s.out.size := by
        apply eq_of_toNat_eq
        rw [htail, hocc, h.outSize, toNat_ringSize hk]
        omega
      have hsend : lrpcSend s.out msg = (s.out, .loadWb msg) := by
        unfold lrpcSend
        rw [if_neg hassert, if_pos (by rw [heq]; exact BitVec.le_refl _), if_pos heq]
      simp only [lrpcStep, hpc, hsend]
      exact { h with
        sendHead := hhead
        sendTail := ⟨t, ht, htail, htsent, hle⟩
        sender := hmsg }

theorem lrpcInv_loadWb (h : LrpcInv k s) (hk : k < 32)
    (hpc : s.sendPc = .loadWb msg) (i : LrpcByte) :
    LrpcInv k (s.sendStep i) ∧
      ((s.sendStep i).sendFailures ≠ s.sendFailures →
        s.sent.length = s.received.length + 2 ^ k) := by
  obtain ⟨hmin, hmax⟩ := h.bounded
  have hahead : s.sendPc.ahead = 0 := by rw [hpc]; rfl
  have hmsg : msg.Clean := by
    have := h.sender
    rw [SenderInv, hpc] at this
    exact this
  have hhead := h.sendHead
  rw [hahead, Nat.add_zero] at hhead
  have hocc := h.toNat_occupied hk hahead hmin hmax
  rw [← h.recvHeadWb] at hocc
  have hiff : s.out.sendHead - s.recvHeadWb = s.out.size ↔
      s.sent.length = s.received.length + 2 ^ k := by
    rw [← toNat_inj, hocc, h.outSize, toNat_ringSize hk]
    omega
  unfold sendStep
  rw [hpc]
  dsimp only
  by_cases hfull : s.out.sendHead - s.recvHeadWb = s.out.size
  · rw [if_pos hfull]
    refine ⟨{ h with sendHead := hhead, sendTail := ?_, sender := trivial }, fun _ =>
      hiff.mp hfull⟩
    exact ⟨_, Nat.le_refl _, h.recvHeadWb, hmin, hmax⟩
  · rw [if_neg hfull]
    have hne : s.sent.length ≠ s.received.length + 2 ^ k := fun heq => hfull (hiff.mpr heq)
    have hroom : s.sent.length < s.received.length + 2 ^ k := by omega
    refine ⟨{ h with sendHead := hhead, sendTail := ?_, sender := ?_ }, fun hne =>
      absurd rfl hne⟩
    · exact ⟨_, Nat.le_refl _, h.recvHeadWb, hmin, hroom⟩
    · refine ⟨hmsg, ?_, hroom, by simp⟩
      rw [h.outSize, hhead, and_mask_eq_slot hk]

theorem LrpcInv.table_storeByte (h : LrpcInv k s) (hk : k < 32) {dst : U32}
    {copied : List LrpcByte} (hw : Writing k s msg dst copied) (i : LrpcByte) :
    TableInv k (s.storeByte dst msg i).tbl s.sent s.received.length ∧
      Writing k (s.storeByte dst msg i) msg dst (i :: copied) := by
  obtain ⟨hclean, rfl, hroom, hdata⟩ := hw
  refine ⟨h.table.storeData hk hroom _, hclean, rfl, hroom, ?_⟩
  simp only [storeByte, update_self]
  grind

theorem ReceiverInv.sent_append {s' : Lrpc} (h : ReceiverInv k s)
    (hpc : s'.recvPc = s.recvPc) (hrecv : s'.received = s.received)
    (hsent : s'.sent = s.sent ++ [msg]) : ReceiverInv k s' := by
  unfold ReceiverInv at h ⊢
  grind

theorem LrpcInv.publish (h : LrpcInv k s) (hk : k < 32) {dst : U32}
    {copied : List LrpcByte} (hw : Writing k s msg dst copied) (hall : ∀ j, j ∈ copied)
    {out : LrpcChanOut} (hsize : out.size = s.out.size) (htail : out.sendTail = s.out.sendTail)
    (hhead : out.sendHead = BitVec.ofNat 32 (s.sent.length + 1)) (hclaim : s.sendPc.claimed = 1) :
    LrpcInv k { s.publish dst (entry k s.sent.length msg).cmd msg with out := out } := by
  obtain ⟨hclean, rfl, hroom, hdata⟩ := hw
  obtain ⟨t, ht, hteq, htsent, hbound⟩ := h.sendTail
  have hcopied : (s.tbl (slot k s.sent.length)).data = msg.data :=
    funext fun j => hdata j (hall j)
  refine ⟨hsize.trans h.outSize, h.innSize, h.recvHeadWb, ?_, h.recvHead, ?_, ?_, ?_, ?_, trivial,
    ?_⟩
  · simpa [Lrpc.publish, LrpcSendPc.ahead] using hhead
  · refine ⟨t, ht, htail.trans hteq, ?_, ?_⟩
    · simp only [Lrpc.publish, length_append, length_singleton]
      omega
    · rw [hclaim] at hbound
      simpa [Lrpc.publish, LrpcSendPc.claimed] using hbound
  · exact h.consumed.trans (prefix_append _ _)
  · intro m hm
    rcases mem_append.mp hm with hold | hnew
    · exact h.clean m hold
    · rw [mem_singleton.mp hnew]
      exact hclean
  · exact h.table.publish hk h.bounded.1 hroom hcopied
  · exact h.receiver.sent_append rfl rfl rfl

theorem lrpcInv_sendStep (h : LrpcInv k s) (hk : k < 32) (i : LrpcByte) :
    LrpcInv k (s.sendStep i) := by
  have hsender := h.sender
  cases hpc : s.sendPc with
  | idle => simpa [sendStep, hpc] using h
  | aborted => simpa [sendStep, hpc] using h
  | loadWb msg => exact (lrpcInv_loadWb h hk hpc i).1
  | copyFast msg dst cmd copied =>
    rw [SenderInv, hpc] at hsender
    obtain ⟨hw, rfl⟩ := hsender
    have hhead := h.sendHead
    have htail := h.sendTail
    rw [hpc] at hhead htail
    unfold sendStep
    rw [hpc]
    dsimp only
    by_cases hall : ∀ j, j ∈ copied
    · rw [if_pos hall]
      exact h.publish hk hw hall rfl rfl hhead (by rw [hpc]; rfl)
    · rw [if_neg hall]
      obtain ⟨htable, hw'⟩ := h.table_storeByte hk hw i
      exact { h with
        sendHead := hhead, sendTail := htail, table := htable, sender :=
          ⟨⟨hw'.1, hw'.2, hw'.3, hw'.4⟩, rfl⟩ }
  | copySlow msg dst copied =>
    rw [SenderInv, hpc] at hsender
    have hw : Writing k s msg dst copied := hsender
    have hhead := h.sendHead
    have htail := h.sendTail
    rw [hpc] at hhead htail
    unfold sendStep
    rw [hpc]
    dsimp only
    by_cases hall : ∀ j, j ∈ copied
    · rw [if_pos hall]
      have hcmd : msg.cmd ||| lrpcParity s.out.sendHead s.out.size =
          (entry k s.sent.length msg).cmd := by
        rw [hhead, h.outSize, lrpcParity_ofNat hk]
        rfl
      rw [hcmd]
      refine h.publish hk hw hall rfl rfl ?_ (by rw [hpc]; rfl)
      rw [hhead, ofNat_add_one]
      rfl
    · rw [if_neg hall]
      obtain ⟨htable, hw'⟩ := h.table_storeByte hk hw i
      exact { h with
        sendHead := hhead, sendTail := htail, table := htable, sender :=
          ⟨hw'.1, hw'.2, hw'.3, hw'.4⟩ }

/-! ## The receiver -/

theorem SenderInv.of_received {s' : Lrpc} (h : SenderInv k s) (htbl : s'.tbl = s.tbl)
    (hpc : s'.sendPc = s.sendPc) (hsent : s'.sent = s.sent)
    (hle : s.received.length ≤ s'.received.length) : SenderInv k s' := by
  have hwriting : ∀ {msg dst copied}, Writing k s msg dst copied → Writing k s' msg dst copied := by
    intro msg dst copied hw
    have hroom := hw.room
    refine ⟨hw.clean, ?_, ?_, ?_⟩
    · rw [hsent]
      exact hw.atSlot
    · rw [hsent]
      omega
    · rw [htbl]
      exact hw.data
  unfold SenderInv at h ⊢
  grind

theorem lrpcInv_recv (h : LrpcInv k s) (hk : k < 32) (hpc : s.recvPc = .idle) (msg : LrpcMsg) :
    LrpcInv k (s.recv msg) ∧
      ((s.recv msg).recvFailures ≠ s.recvFailures → s.received.length = s.sent.length) := by
  obtain ⟨hmin, hmax⟩ := h.bounded
  have hhead := h.recvHead
  rw [hpc] at hhead
  change s.inn.recvHead = BitVec.ofNat 32 s.received.length at hhead
  have hsrc : s.inn.recvHead &&& (s.inn.size - 1#32) = slot k s.received.length := by
    rw [h.innSize, hhead, and_mask_eq_slot hk]
  have hparity : lrpcParity s.inn.recvHead s.inn.size = parityOf k s.received.length := by
    rw [h.innSize, hhead, lrpcParity_ofNat hk]
  have hreceiver : ReceiverInv k { s with recvFailures := s.recvFailures + 1 } := by
    rw [ReceiverInv, hpc]
    trivial
  unfold recv
  rw [hsrc, hparity]
  dsimp only
  rcases Nat.lt_or_ge s.received.length s.sent.length with hlt | hge
  · -- the next message is in its slot, with the parity of this lap
    have hmem := List.getElem?_eq_getElem hlt
    have hclean := h.clean _ (getElem_mem hlt)
    rw [h.table.full _ _ (Nat.le_refl _) hmem, entry_cmd_and_parity hclean, if_neg (by simp)]
    refine ⟨{ h with recvHead := ?_, sender := ?_, receiver := ?_ }, fun hne => absurd rfl hne⟩
    · dsimp only
      rw [hhead, ofNat_add_one]
      rfl
    · exact h.sender.of_received rfl rfl rfl (Nat.le_refl _)
    · exact ⟨_, hmem, rfl, entry_cmd_and_mask hclean _ _, by simp⟩
  · -- all messages are consumed: the slot shows the other parity
    have hne := h.table.free s.received.length hge (by have := Nat.two_pow_pos k; omega)
    rw [if_pos hne]
    refine ⟨{ h with sender := ?_, receiver := hreceiver }, fun _ => by omega⟩
    exact h.sender.of_received rfl rfl rfl (Nat.le_refl _)

theorem lrpcInv_recvStep (h : LrpcInv k s) (i : LrpcByte) : LrpcInv k (s.recvStep i) := by
  have hreceiver := h.receiver
  cases hpc : s.recvPc with
  | idle => simpa [recvStep, hpc] using h
  | copy msg src copied =>
    rw [ReceiverInv, hpc] at hreceiver
    obtain ⟨m, hm, rfl, hcmd, hdata⟩ := hreceiver
    have hlt : s.received.length < s.sent.length := (List.getElem?_eq_some_iff.mp hm).1
    have hhead := h.recvHead
    rw [hpc] at hhead
    unfold recvStep
    rw [hpc]
    dsimp only
    by_cases hall : ∀ j, j ∈ copied
    · -- the whole message was copied; its slot is handed back
      rw [if_pos hall]
      obtain ⟨t, ht, htail, htsent, hle⟩ := h.sendTail
      have hmsg : msg = m := by
        obtain ⟨cmd, data⟩ := msg
        obtain ⟨cmd', data'⟩ := m
        simp only at hcmd hdata
        rw [hcmd, show data = data' from funext fun j => hdata j (hall j)]
      have hlen : (s.received ++ [msg]).length = s.received.length + 1 := by simp
      refine { h with recvHeadWb := ?_, recvHead := ?_, sendTail := ?_, consumed := ?_,
                      table := ?_, sender := ?_, receiver := trivial }
      · dsimp only
        rw [hhead, hlen]
        rfl
      · dsimp only
        rw [hhead, hlen]
        rfl
      · exact ⟨t, by dsimp only; omega, htail, htsent, hle⟩
      · dsimp only
        rw [hmsg]
        obtain ⟨rest, hrest⟩ := h.consumed
        rw [← hrest, getElem?_append_right (Nat.le_refl _), Nat.sub_self] at hm
        obtain ⟨x, rest, rfl⟩ : ∃ x xs, rest = x :: xs := by
          cases rest with
          | nil => simp at hm
          | cons x xs => exact ⟨x, xs, rfl⟩
        obtain rfl : x = m := by simpa using hm
        exact ⟨rest, by simpa using hrest⟩
      · dsimp only
        rw [hlen]
        exact h.table.consume hlt h.clean
      · exact h.sender.of_received rfl rfl rfl (by dsimp only; omega)
    · rw [if_neg hall]
      refine { h with recvHead := hhead, sender := ?_, receiver := ⟨m, hm, rfl, hcmd, ?_⟩ }
      · exact h.sender.of_received rfl rfl rfl (Nat.le_refl _)
      intro j hj
      dsimp only
      by_cases hji : j = i
      · -- the slot holds the message as long as it is not handed back
        rw [hji, update_self, h.table.full _ m (Nat.le_refl _) hm]
        rfl
      · rw [update_of_ne hji]
        exact hdata j ((mem_cons.mp hj).resolve_left hji)

/-! ## Interleavings -/

theorem lrpcInv_step (h : LrpcInv k s) (hk : k < 32) {e : LrpcEvent} (he : e.CmdOk) :
    LrpcInv k (lrpcStep s e) := by
  cases e with
  | send msg => exact lrpcInv_send h hk (clean_of_lt he)
  | sendStep i => exact lrpcInv_sendStep h hk i
  | recv msg =>
    cases hpc : s.recvPc with
    | idle => simpa [lrpcStep, hpc] using (lrpcInv_recv h hk hpc msg).1
    | copy => simpa [lrpcStep, hpc] using h
  | recvStep i => exact lrpcInv_recvStep h i

def SendFailsWhenFull (k : Nat) (s : Lrpc) (e : LrpcEvent) : Prop :=
  (lrpcStep s e).sendFailures ≠ s.sendFailures → s.sent.length = s.received.length + 2 ^ k

def RecvFailsWhenEmpty (s : Lrpc) (e : LrpcEvent) : Prop :=
  (lrpcStep s e).recvFailures ≠ s.recvFailures → s.received.length = s.sent.length

theorem sendFailsWhenFull_of_inv (h : LrpcInv k s) (hk : k < 32) (e : LrpcEvent) :
    SendFailsWhenFull k s e := by
  intro hne
  cases e with
  | send msg => cases hpc : s.sendPc <;> simp [lrpcStep, hpc] at hne
  | recv msg => grind [lrpcStep, recv]
  | recvStep i => grind [lrpcStep, recvStep]
  | sendStep i =>
    cases hpc : s.sendPc with
    | loadWb msg => exact (lrpcInv_loadWb h hk hpc i).2 hne
    | idle | aborted | copyFast | copySlow => grind [lrpcStep, sendStep, publish, storeByte]

theorem recvFailsWhenEmpty_of_inv (h : LrpcInv k s) (hk : k < 32) (e : LrpcEvent) :
    RecvFailsWhenEmpty s e := by
  intro hne
  cases e with
  | send msg => cases hpc : s.sendPc <;> simp [lrpcStep, hpc] at hne
  | recv msg =>
    cases hpc : s.recvPc with
    | idle =>
      simp only [lrpcStep, hpc] at hne
      exact (lrpcInv_recv h hk hpc msg).2 hne
    | copy => simp [lrpcStep, hpc] at hne
  | recvStep i => grind [lrpcStep, recvStep]
  | sendStep i => grind [lrpcStep, sendStep, publish, storeByte]

theorem LrpcInv.not_aborted (h : LrpcInv k s) : s.sendPc ≠ .aborted := by
  intro hpc
  have := h.sender
  rw [SenderInv, hpc] at this
  exact this

end

theorem lrpcInit_spec {k : Nat} (hk : k < 32) :
    ∃ s, lrpcInit (ringSize k) = some s ∧ LrpcInv k s := by
  have hpow : ∀ k : Fin 32, isPowerOfTwo (ringSize k) = true := by decide
  have hsize : isPowerOfTwo (ringSize k) = true := hpow ⟨k, hk⟩
  simp only [lrpcInit, lrpcInitOut, lrpcInitIn, hsize, if_true, Option.bind_eq_bind,
    Option.bind_some]
  refine ⟨_, rfl, rfl, rfl, rfl, rfl, rfl, ⟨0, Nat.le_refl _, rfl, Nat.le_refl _, ?_⟩,
    prefix_refl _, by simp, TableInv.init k, trivial, trivial⟩
  simp [LrpcSendPc.claimed]

/-- **The channel is a lossless bounded queue.** A send fails only when the table is full, and a
    receive only when there is no message. -/
theorem lrpc_lossless_fifo {k : Nat} (hk : k ≤ 31) (es : List LrpcEvent)
    (hcmd : ∀ e ∈ es, e.CmdOk) :
    ∃ s, lrpcInit (ringSize k) = some s ∧
      Always lrpcStep (fun s => s.received <+: s.sent ∧ s.sendPc ≠ .aborted) s es ∧
      Meets lrpcStep (fun s e => SendFailsWhenFull k s e ∧ RecvFailsWhenEmpty s e) s es := by
  have hk' : k < 32 := Nat.lt_succ_of_le hk
  obtain ⟨s, hs, h0⟩ := lrpcInit_spec hk'
  have hmeets : Meets lrpcStep (fun _ e => e.CmdOk) s es := meets_of_forall_mem hcmd
  have hstep : ∀ s e, LrpcInv k s → LrpcEvent.CmdOk e → LrpcInv k (lrpcStep s e) :=
    fun s e h he => lrpcInv_step h hk' he
  refine ⟨s, hs, ?_, ?_⟩
  · exact (always_of_meets hstep h0 hmeets).mono fun s h => ⟨h.consumed, h.not_aborted⟩
  · exact meets_of_inv hstep (fun s e h _ => ⟨sendFailsWhenFull_of_inv h hk' e,
      recvFailsWhenEmpty_of_inv h hk' e⟩) h0 hmeets

def msgOf (cmd : U64) : LrpcMsg := ⟨cmd, fun i => BitVec.ofNat 8 i⟩

/-- The second send finds the only slot taken. -/
def oneMessage (msg : LrpcMsg) : List LrpcEvent :=
  [.send msg] ++ (finRange 56).map .sendStep ++ [.sendStep 0, .recv msg, .send msg, .sendStep 0]
    ++ (finRange 56).map .recvStep ++ [.recvStep 0]

theorem lrpc_lossless_fifo_at :
    ∃ s, lrpcInit (ringSize 0) = some s ∧
      Always lrpcStep (fun s => s.received <+: s.sent ∧ s.sendPc ≠ .aborted) s
        ([msgOf 7#64, msgOf 9#64].flatMap oneMessage) ∧
      Meets lrpcStep (fun s e => SendFailsWhenFull 0 s e ∧ RecvFailsWhenEmpty s e) s
        ([msgOf 7#64, msgOf 9#64].flatMap oneMessage) := by
  apply lrpc_lossless_fifo (by decide)
  intro e he
  obtain ⟨m, hm, he⟩ := mem_flatMap.mp he
  have hlt : ∀ m ∈ [msgOf 7#64, msgOf 9#64], m.cmd.toNat < 2 ^ 63 := by decide
  simp only [oneMessage, mem_append, List.mem_map, List.mem_cons, not_mem_nil,
    or_false] at he
  rcases he with (((rfl | ⟨i, -, rfl⟩) | rfl | rfl | rfl | rfl) | ⟨i, -, rfl⟩) | rfl <;>
    first | trivial | exact hlt m hm

end MtpXdp.Common

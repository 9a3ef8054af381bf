import MtpXdp.Core.Run
import MtpXdp.Homa.Bitmap
import MtpXdp.Homa.Receiver

/-!
# The Timer

`poll_homa_to` of `micro_kernel/homa.cc` looks at every RPC once per tick. If nothing has happened
for a while, `check_timeout` asks the peer for missing segments (RESEND) or for an acknowledgement
(NEED_ACK), and after `ABORT_RESEND` tries the RPC is deleted. A try counts whether or not the
packet was transmitted.

The timer asks for the first gap in the bitmap of an RPC. As long as only sequence numbers of the
message were recorded, it is the first gap in the received segments. `set_bitmap` does not compare a
number with the width of the bitmap, and computes the word in eight bits.
-/

namespace MtpXdp.Homa

open Ebpf (U8 U16 U32 U64)
open MtpXdp.Core List

variable {n : Nat} {S : Finset Nat} {r : RpcState} {seq : U16}

def RpcState.received (r : RpcState) (i : Nat) : Bool :=
  if h : i / 64 < 12 then (r.bitmap ⟨i / 64, h⟩).getLsbD (i % 64) else false

def bitmapStep (r : RpcState) (seq : U16) : RpcState := (setBitmap r seq).1

theorem Recorded.received (h : Recorded n S r) (hn : n ≤ 768) (i : Nat) :
    r.received i = decide (i ∈ S) := by
  unfold RpcState.received
  split_ifs with hi
  · rw [h.bit _ _ (Nat.mod_lt _ (by decide)), Nat.div_add_mod]
  · have hout : i ∉ S := fun hmem => by
      have hlt := h.below i hmem
      omega
    rw [decide_eq_false hout]

theorem Recorded.step (h : Recorded n S r) (hn : n ≤ 768) (hlt : seq.toNat < n) :
    Recorded n (insert seq.toNat S) (bitmapStep r seq) := by
  by_cases hmem : seq.toNat ∈ S
  · rw [bitmapStep, setBitmap_of_mem h hn hmem, Finset.insert_eq_of_mem hmem]
    exact h
  · obtain ⟨bm, rd, heq, hrec⟩ := setBitmap_of_not_mem h hn hlt hmem
    rw [bitmapStep, heq]
    exact hrec

theorem Recorded.run {seqs : List U16} (h : Recorded n S r) (hn : n ≤ 768)
    (hlt : ∀ q ∈ seqs, q.toNat < n) :
    Recorded n (S ∪ (seqs.map BitVec.toNat).toFinset) (run bitmapStep r seqs) := by
  induction seqs generalizing S r with
  | nil => simpa using h
  | cons q seqs ih =>
    have hstep := ih (h.step hn (hlt q mem_cons_self)) fun x hx =>
      hlt x (mem_cons_of_mem q hx)
    rwa [Finset.insert_union, ← Finset.union_insert, ← toFinset_cons] at hstep

/-! ## The first gap -/

/-- The loops of `find_first_zero_segment` as one; `none` stands for `{-1, -1}`. -/
def zeroSegmentLoop (bit : Nat → Bool) (bitWidth : Nat) :
    (rounds totalBits : Nat) → Option (Nat × Nat) → Option (Nat × Nat)
  | 0, _, seg => seg
  | rounds + 1, totalBits, seg =>
    if totalBits = bitWidth then seg
    else if bit totalBits = false then
      zeroSegmentLoop bit bitWidth rounds (totalBits + 1)
        (some (seg.elim totalBits Prod.fst, totalBits))
    else if seg.isSome then seg
    else zeroSegmentLoop bit bitWidth rounds (totalBits + 1) none

def findFirstZeroSegment (r : RpcState) : Option (Nat × Nat) :=
  zeroSegmentLoop r.received r.bitWidth.toNat (12 * 64) 0 none

structure ResendRange where
  offset : U32
  length : U32
  priority : U8
deriving DecidableEq

def getResendRange (r : RpcState) : Option ResendRange :=
  if r.state = .outgoing then some ⟨0, 100, 7⟩
  else (findFirstZeroSegment r).map fun hole =>
    ⟨BitVec.ofNat 32 (hole.1 * homaMss), BitVec.ofNat 32 ((hole.2 - hole.1 + 1) * homaMss), 7⟩

structure FirstGap (got : Nat → Prop) (n a b : Nat) : Prop where
  le : a ≤ b
  lt : b < n
  before : ∀ i < a, got i
  inside : ∀ i, a ≤ i → i ≤ b → ¬ got i
  behind : b + 1 < n → got (b + 1)

section

variable {bit : Nat → Bool}

theorem zeroSegmentLoop_open {rounds k a : Nat} (hr : rounds + k = 768) (hn : n ≤ 768) (hk : k ≤ n)
    (ha : a < k) (hbefore : ∀ i < a, bit i = true) (hopen : ∀ i, a ≤ i → i < k → bit i = false) :
    ∃ b, zeroSegmentLoop bit n rounds k (some (a, k - 1)) = some (a, b) ∧
      FirstGap (fun i => bit i = true) n a b := by
  induction rounds generalizing k with
  | zero =>
    exact ⟨k - 1, rfl, by omega, by omega, hbefore, fun i h1 h2 => by simp [hopen i h1 (by omega)],
      fun h => by omega⟩
  | succ rounds ih =>
    rw [zeroSegmentLoop]
    by_cases hend : k = n
    · rw [if_pos hend]
      exact ⟨k - 1, rfl, by omega, by omega, hbefore,
        fun i h1 h2 => by simp [hopen i h1 (by omega)],
        fun h => by omega⟩
    · rw [if_neg hend]
      cases hbit : bit k with
      | false =>
        refine ih (by omega) (by omega) (by omega) fun i h1 h2 => ?_
        by_cases hi : i = k
        · rw [hi, hbit]
        · exact hopen i h1 (by omega)
      | true =>
        refine ⟨k - 1, rfl, by omega, by omega, hbefore, fun i h1 h2 => ?_, fun _ => ?_⟩
        · simp [hopen i h1 (by omega)]
        · rwa [Nat.sub_add_cancel (by omega)]

theorem zeroSegmentLoop_none {rounds k : Nat} (hr : rounds + k = 768) (hn : n ≤ 768) (hk : k ≤ n)
    (hbefore : ∀ i < k, bit i = true) :
    (zeroSegmentLoop bit n rounds k none = none ∧ ∀ i < n, bit i = true) ∨
      ∃ a b, zeroSegmentLoop bit n rounds k none = some (a, b) ∧
        FirstGap (fun i => bit i = true) n a b := by
  induction rounds generalizing k with
  | zero => exact .inl ⟨rfl, fun i hi => hbefore i (by omega)⟩
  | succ rounds ih =>
    rw [zeroSegmentLoop]
    by_cases hend : k = n
    · rw [if_pos hend]
      exact .inl ⟨rfl, fun i hi => hbefore i (by omega)⟩
    · rw [if_neg hend]
      cases hbit : bit k with
      | false =>
        refine .inr ⟨k, zeroSegmentLoop_open (k := k + 1) (a := k) (by omega) hn (by omega)
          (by omega) hbefore
          fun i h1 h2 => ?_⟩
        rwa [show i = k by omega]
      | true =>
        refine ih (by omega) (by omega) fun i hi => ?_
        by_cases hik : i = k
        · rw [hik, hbit]
        · exact hbefore i (by omega)

end

theorem findFirstZeroSegment_of_recorded {n : Nat} {S : Finset Nat} {r : RpcState}
    (h : Recorded n S r) (hn : n ≤ 768) : (findFirstZeroSegment r = none ∧ ∀ i < n, i ∈ S) ∨
      ∃ a b, findFirstZeroSegment r = some (a, b) ∧ FirstGap (· ∈ S) n a b := by
  have hnone : ∀ i < 0, r.received i = true := fun i hi => absurd hi (Nat.not_lt_zero i)
  have hgap := zeroSegmentLoop_none (show 768 + 0 = 768 from rfl) hn (Nat.zero_le n) hnone
  simpa only [h.received hn, decide_eq_true_eq, findFirstZeroSegment, h.width] using hgap

theorem getResendRange_of_gap {r : RpcState} {n a b : Nat} (hstate : r.state ≠ .outgoing)
    (hgap : findFirstZeroSegment r = some (a, b)) (hab : a ≤ b) (hb : b < n) (hn : n ≤ 768) :
    ∃ rng, getResendRange r = some rng ∧ rng.offset.toNat = a * homaMss ∧
      rng.length.toNat = (b - a + 1) * homaMss := by
  have hfit : ∀ x ≤ 768, (BitVec.ofNat 32 (x * homaMss)).toNat = x * homaMss := fun x hx => by
    exact Nat.mod_eq_of_lt ((Nat.mul_le_mul_right homaMss hx).trans_lt (by decide))
  rw [getResendRange, if_neg hstate, hgap]
  exact ⟨_, rfl, hfit a (by omega), hfit _ (by omega)⟩

/-- **Missing-range detection is exact**: the search finds the first gap, or nothing when all were
    received. -/
theorem missingRange_exact (r : RpcState) (hpos : 1 ≤ r.bitWidth.toNat)
    (hwidth : r.bitWidth.toNat ≤ 768) (seqs : List U16)
    (hseqs : ∀ q ∈ seqs, q.toNat < r.bitWidth.toNat) :
    let got := fun i => ∃ q ∈ seqs, q.toNat = i
    let r' := run bitmapStep (clearAllBitmaps r) seqs
    (findFirstZeroSegment r' = none ∧ ∀ i < r.bitWidth.toNat, got i) ∨
      ∃ a b, findFirstZeroSegment r' = some (a, b) ∧ FirstGap got r.bitWidth.toNat a b ∧
        (r'.state ≠ .outgoing → ∃ rng, getResendRange r' = some rng ∧
          rng.offset.toNat = a * homaMss ∧ rng.length.toNat = (b - a + 1) * homaMss) := by
  intro got r'
  have hrec := (recorded_clearAllBitmaps (r := r) rfl hpos).run hwidth hseqs
  have hgot : ∀ i, i ∈ ∅ ∪ (seqs.map BitVec.toNat).toFinset ↔ got i := fun i => by simp [got]
  rcases findFirstZeroSegment_of_recorded hrec hwidth with ⟨hnone, hall⟩ | ⟨a, b, hsome, hgap⟩
  · exact .inl ⟨hnone, fun i hi => (hgot i).mp (hall i hi)⟩
  · refine .inr ⟨a, b, hsome, ?_, fun hstate =>
      getResendRange_of_gap hstate hsome hgap.le hgap.lt hwidth⟩
    simpa only [hgot] using hgap

def threeSegments : RpcState := { RpcState.zero with state := .incoming, bitWidth := 3 }

theorem missingRange_exact_three :
    ∃ a b, findFirstZeroSegment (run bitmapStep (clearAllBitmaps threeSegments) [2, 0]) =
      some (a, b) ∧
      FirstGap (fun i => ∃ q ∈ ([2, 0] : List U16), q.toNat = i) 3 a b := by
  rcases missingRange_exact threeSegments (by decide) (by decide) [2, 0]
    (forall_mem_cons.mpr ⟨by decide, forall_mem_singleton.mpr (by decide)⟩) with
    ⟨hnone, -⟩ | ⟨a, b, hsome, hgap, -⟩
  · exact absurd hnone (by decide)
  · exact ⟨a, b, hsome, hgap⟩

/-! ## Malformed sequence numbers -/

/-- A number outside the message changes nothing; completion is reported with the last missing
    segment. -/
def CallOk (r : RpcState) (seq : U16) : Prop :=
  (r.bitWidth.toNat ≤ seq.toNat → setBitmap r seq = (r, .error)) ∧
    ((setBitmap r seq).2 = .complete ↔ seq.toNat < r.bitWidth.toNat ∧
      r.received seq.toNat = false ∧ ∀ i < r.bitWidth.toNat, i ≠ seq.toNat → r.received i = true)

/-- A number of the message, or one refused: its word is none of the bitmap's, or its bit is set. -/
def WellNumbered (r : RpcState) (seq : U16) : Prop :=
  seq.toNat < r.bitWidth.toNat ∨ 12 * 64 ≤ seq.toNat % 2 ^ 14 ∨
    r.received (seq.toNat % 2 ^ 14) = true

theorem setBitmap_eq_error_iff (r : RpcState) (seq : U16) : setBitmap r seq = (r, .error) ↔
      12 * 64 ≤ seq.toNat % 2 ^ 14 ∨ r.received (seq.toNat % 2 ^ 14) = true := by
  have hword : ((seq / 64#16).setWidth 8 : U8).toNat = seq.toNat % 2 ^ 14 / 64 := by
    simp
    omega
  have hbit : seq.toNat % 2 ^ 14 % 64 = seq.toNat % 64 := by omega
  unfold setBitmap
  by_cases h12 : seq.toNat % 2 ^ 14 / 64 < 12
  · have hsmall : ¬ 12 * 64 ≤ seq.toNat % 2 ^ 14 := by omega
    simp only [hword, h12, dif_pos, hsmall, false_or, RpcState.received, hbit]
    rw [← and_seqBit_ne_zero_iff]
    split_ifs with hset
    · exact iff_of_true rfl hset
    all_goals exact iff_of_false (fun h => by simp at h) hset
  · have hlarge : 12 * 64 ≤ seq.toNat % 2 ^ 14 := by omega
    simp only [hword, h12, dif_neg, not_false_eq_true, hlarge, true_or]

theorem Recorded.callOk_of_lt (h : Recorded n S r) (hn : n ≤ 768) (hlt : seq.toNat < n) :
    CallOk r seq := by
  refine ⟨fun hge => absurd (h.width ▸ hge) (not_le.mpr hlt), ?_⟩
  simp only [h.received hn, h.width, hlt, true_and, decide_eq_true_eq, decide_eq_false_iff_not]
  by_cases hmem : seq.toNat ∈ S
  · rw [setBitmap_of_mem h hn hmem]
    exact iff_of_false (by simp) fun hmissing => hmissing.1 hmem
  · obtain ⟨bm, rd, heq, hrec⟩ := setBitmap_of_not_mem h hn hlt hmem
    have hfull : insert seq.toNat S = Finset.range n ↔ ∀ i < n, i ≠ seq.toNat → i ∈ S := by
      constructor
      · intro hall i hi hne
        exact Finset.mem_of_mem_insert_of_ne (hall ▸ Finset.mem_range.mpr hi) hne
      · intro hall
        ext i
        have hbelow := hrec.below i
        grind
    rw [heq]
    simp only [ite_eq_left_iff, reduceCtorEq, imp_false, not_not, hfull, hmem, not_false_eq_true,
      true_and]

theorem Recorded.callOk_iff (h : Recorded n S r) (hn : n ≤ 768) : CallOk r seq ↔
    WellNumbered r seq := by
  by_cases hlt : seq.toNat < n
  · exact iff_of_true (h.callOk_of_lt hn hlt) (.inl (h.width.symm ▸ hlt))
  · have hge : r.bitWidth.toNat ≤ seq.toNat := h.width.symm ▸ not_lt.mp hlt
    rw [WellNumbered, or_iff_right (not_lt.mpr hge), ← setBitmap_eq_error_iff]
    refine ⟨fun hok => hok.1 hge, fun herr => ⟨fun _ => herr, ?_⟩⟩
    rw [herr]
    exact iff_of_false (by simp) fun hmissing => not_lt.mpr hge hmissing.1

/-- **Completion with malformed sequence numbers**: all calls are as they should be precisely when
    every number is well numbered. -/
theorem callOk_meets_iff (r : RpcState) (hpos : 1 ≤ r.bitWidth.toNat)
    (hwidth : r.bitWidth.toNat ≤ 768) (seqs : List U16) :
    Meets bitmapStep CallOk (clearAllBitmaps r) seqs ↔
      Meets bitmapStep WellNumbered (clearAllBitmaps r) seqs := by
  have hstep : ∀ (r' : RpcState) (seq : U16), (∃ S, Recorded r.bitWidth.toNat S r') →
      WellNumbered r' seq → ∃ S, Recorded r.bitWidth.toNat S (bitmapStep r' seq) := by
    rintro r' seq ⟨S, hrec⟩ hok
    by_cases hlt : seq.toNat < r.bitWidth.toNat
    · exact ⟨_, hrec.step hwidth hlt⟩
    · have herr := (setBitmap_eq_error_iff r' seq).mpr
        (hok.resolve_left fun h => hlt (hrec.width ▸ h))
      exact ⟨S, by rwa [bitmapStep, herr]⟩
  exact meets_iff_of_inv hstep (fun r' seq ⟨S, hrec⟩ => hrec.callOk_iff hwidth)
    ⟨∅, recorded_clearAllBitmaps rfl hpos⟩

theorem callOk_meets_three :
    Meets bitmapStep CallOk (clearAllBitmaps threeSegments) [0, 768, 16384, 1, 2] :=
  (callOk_meets_iff threeSegments (by decide) (by decide) _).mpr (by
    simp only [Meets, WellNumbered]
    decide)

/-- Number 3 of three segments is recorded, and then the last missing segment completes nothing. -/
theorem setBitmap_accepts_malformed :
    (setBitmap (clearAllBitmaps threeSegments) 3).2 = .more ∧
      (setBitmap (run bitmapStep (clearAllBitmaps threeSegments) [3, 0, 1]) 2).2 = .more := by
  decide +kernel

/-! ## `check_timeout` -/

structure Progress where
  bytesRemaining : U64
  granted : U64
  incoming : U64
  resendCount : U16
deriving DecidableEq

structure TimerRpc extends RpcState where
  busyCount : U8
  resendCount : U16

def TimerRpc.progress (r : TimerRpc) : Progress :=
  ⟨r.cc.bytesRemaining, r.cc.granted, r.cc.incoming, r.resendCount⟩

structure Shadow where
  data : Progress
  busyCount : U8
  doneTimerTicks : U32
  silentTicks : U32
  resendTry : U32

def Shadow.reset (sh : Shadow) : Shadow := { sh with silentTicks := 0, resendTry := 0 }

inductive ControlPkt
  | needAck
  | resend (range : ResendRange)
deriving DecidableEq

/-- It has unused credit, has received what it granted, or is a server's that is not receiving. -/
def TimerRpc.NotWaiting (r : TimerRpc) : Prop :=
  (r.state = .outgoing ∧ r.nextXmitOffset.toNat < r.messageLength.toNat ∧
      r.nextXmitOffset.toNat + min (r.messageLength.toNat - r.nextXmitOffset.toNat) homaMss ≤
        r.cc.granted.toNat) ∨
    (r.state = .incoming ∧
      let received := r.messageLength.setWidth 64 - r.cc.bytesRemaining
      let whole := r.cc.incoming / BitVec.ofNat 64 homaMss * BitVec.ofNat 64 homaMss
      (whole < received ∨ received = whole ∧ r.cc.incoming ≠ r.messageLength.setWidth 64)) ∨
    r.state ≠ .incoming ∧ rpcIsClient r.id = false
deriving Decidable

/-- A response that is sent waits for its acknowledgement. -/
def TimerRpc.AwaitsAck (r : TimerRpc) : Prop :=
  rpcIsClient r.id = false ∧ r.state = .outgoing ∧ r.messageLength.toNat ≤ r.nextXmitOffset.toNat
deriving Decidable

def checkTimeout (globalTick : U32) (r : TimerRpc) (sh : Shadow) (xmitOk : Bool) :
    Shadow × Option ControlPkt :=
  if r.AwaitsAck then
    if sh.doneTimerTicks = 0 then ({ sh with doneTimerTicks := globalTick, resendTry := 0 }, none)
    else if (sh.doneTimerTicks + 15 - 1 - globalTick).msb then
      -- the result of `xmit_need_ack_pkt` is not looked at
      ({ sh with resendTry := sh.resendTry + 1 }, if xmitOk then some .needAck else none)
    else (sh, none)
  else if r.NotWaiting then (sh.reset, none)
  else if r.progress ≠ sh.data then ({ sh.reset with data := r.progress }, none)
  else if sh.silentTicks < 14 then (sh, none)
  else
    let sh := { sh with resendTry := sh.resendTry + 1 }
    match getResendRange r.toRpcState with
    | none => (sh, none)
    | some range =>
      if xmitOk then ({ sh with silentTicks := 0 }, some (.resend range)) else (sh, none)

/-- The visit of tick `globalTick` counts a try: a NEED_ACK is due, or a RESEND after 14 ticks
    without
    any change. -/
def TryDue (globalTick : U32) (r : TimerRpc) (sh : Shadow) : Prop :=
  if r.AwaitsAck then sh.doneTimerTicks ≠ 0 ∧ (sh.doneTimerTicks + 15 - 1 - globalTick).msb
  else ¬ r.NotWaiting ∧ r.progress = sh.data ∧ 14 ≤ sh.silentTicks
deriving Decidable

/-- The visit takes the tries counted so far back. -/
def TriesCleared (r : TimerRpc) (sh : Shadow) : Prop :=
  if r.AwaitsAck then sh.doneTimerTicks = 0 else r.NotWaiting ∨ r.progress ≠ sh.data
deriving Decidable

/-- A packet can be sent for the try: transmission works, and for a RESEND a segment is missing. -/
def CanTry (r : TimerRpc) (xmitOk : Bool) : Prop :=
  xmitOk = true ∧ (r.AwaitsAck ∨ (getResendRange r.toRpcState).isSome)
deriving Decidable

section

variable {globalTick : U32} {r : TimerRpc} {sh : Shadow} {xmitOk : Bool}

theorem resendTry_checkTimeout (h : TryDue globalTick r sh → CanTry r xmitOk) :
    (checkTimeout globalTick r sh xmitOk).1.resendTry = sh.resendTry ∨
      (checkTimeout globalTick r sh xmitOk).1.resendTry = 0 ∨
      (checkTimeout globalTick r sh xmitOk).1.resendTry = sh.resendTry + 1 ∧
        (checkTimeout globalTick r sh xmitOk).2.isSome := by
  unfold TryDue CanTry at h
  unfold checkTimeout Shadow.reset
  grind

theorem resendTry_checkTimeout_of_cleared (h : TriesCleared r sh) :
    (checkTimeout globalTick r sh xmitOk).1.resendTry = 0 := by
  unfold TriesCleared at h
  unfold checkTimeout Shadow.reset
  grind

end

theorem getResendRange_of_checkTimeout {globalTick : U32} {r : TimerRpc} {sh : Shadow}
    {xmitOk : Bool} {range : ResendRange}
    (h : (checkTimeout globalTick r sh xmitOk).2 = some (.resend range)) :
    getResendRange r.toRpcState = some range := by
  unfold checkTimeout at h
  grind

/-! ## What a RESEND asks for -/

section

variable {net : RpcKey → Option Message} {R : Receiver} {k : RpcKey} {r : RpcState}

def SlotsOk (net : RpcKey → Option Message) (R : Receiver) : Prop :=
  ∀ k r, R.homa.rpcTbl k = some r → SlotOk net k r

theorem slotsOk_step (e : Event) (hs : SlotsOk net R) (hd : EventDom net R e) :
    SlotsOk net (step R e) := by
  cases e with
  | data d ip env =>
    have heffect : DataEffect net R.homa d ip env (receiveData R.homa d ip env).1 :=
      receiveData_effect (hs (d.hkey ip)) hd
    change ∀ k r, (receiveData R.homa d ip env).1.rpcTbl k = some r → SlotOk net k r
    generalize (receiveData R.homa d ip env).1 = s' at heffect
    cases heffect with
    | dropped => exact hs
    | single r _ _ hslot => exact slots_setRpc hs hslot
    | start m i r _ hnet _ _ hstate hholds =>
      have hslots := slots_setRpc hs (.receiving m {i} hnet hstate hholds)
      exact (grantListOnly_schedule ..).slots hslots
    | more m i S r r' _ _ _ hnew hstate hholds =>
      have hslots := slots_setRpc hs (.receiving m (insert i S) hnew.net hstate hholds)
      exact (grantListOnly_schedule ..).slots hslots
    | served m i S r r' _ _ hserver _ hnew _ hstate hholds =>
      exact slots_setRpc hs (.served m hserver hnew.net hstate hholds)
    | finished r r' =>
      rw [(finishClientRpc_spec ..).1]
      exact slots_delete hs
  | round cpu ok =>
    intro k r hr
    exact hs k r (by rwa [← rpcTbl_chooseRpcToGrantProg R.homa cpu ok])
  | completeGrant cpu i ok =>
    intro k r hr
    have hsame : (completeGrantProg R.homa cpu i ok).rpcTbl = R.homa.rpcTbl := by
      unfold completeGrantProg
      grind
    exact hs k r (hsame ▸ hr)
  | fifo a =>
    intro k r hr
    exact hs k r (by rwa [← rpcTbl_grantFifoRpc R.homa a])
  | updateCached cpu ok => exact (grantListOnly_updateGrantForCachedRpc ..).slots hs
  | request k r => exact slots_setRpc hs (.waiting hd.2.1 hd.2.2.1)
  | remove k => exact slots_delete hs

theorem exists_holds {es : List Event} (hdom : Meets step (EventDom net) .initial es)
    (hr : (run step .initial es).homa.rpcTbl k = some r) (hstate : r.state = .incoming) :
    ∃ m S, net k = some m ∧ Holds m S r := by
  have hinit : SlotsOk net .initial := fun k r h => by cases h
  have hslots := run_of_meets (fun R e hs hd => slotsOk_step e hs hd) hinit hdom
  cases hslots k r hr with
  | receiving m S hnet _ hholds => exact ⟨m, S, hnet, hholds⟩
  | waiting _ h => exact absurd (hstate.symm.trans h) (by decide)
  | served _ _ _ h => exact absurd (hstate.symm.trans h) (by decide)
  | single _ _ h => exact absurd (hstate.symm.trans h) (by decide)

def roundUpMss (x : Nat) : Nat := (x + homaMss - 1) / homaMss * homaMss

/-- **What a RESEND asks for**: bytes not received, and not beyond the grant precisely when the last
    segment of the first gap starts within it. -/
theorem resend_within_grant_iff {es : List Event} (hdom : Meets step (EventDom net) .initial es)
    (hr : (run step .initial es).homa.rpcTbl k = some r) (hstate : r.state = .incoming)
    (globalTick : U32) (busyCount : U8) (resendCount : U16) (sh : Shadow) (xmitOk : Bool)
    {range : ResendRange}
    (hsent : (checkTimeout globalTick ⟨r, busyCount, resendCount⟩ sh xmitOk).2 =
      some (.resend range)) : ∃ m S a b, net k = some m ∧ Holds m S r ∧ FirstGap (· ∈ S) m.n a b ∧
      (∀ x, range.offset.toNat ≤ x → x < range.offset.toNat + range.length.toNat →
        x / homaMss ∉ S) ∧
      (range.offset.toNat + range.length.toNat ≤ roundUpMss r.cc.incoming.toNat ↔
        b * homaMss < r.cc.incoming.toNat) := by
  obtain ⟨m, S, hnet, hholds⟩ := exists_holds hdom hr hstate
  have hrange : getResendRange r = some range := getResendRange_of_checkTimeout hsent
  have hout : r.state ≠ .outgoing := by simp [hstate]
  rcases findFirstZeroSegment_of_recorded hholds.recorded m.le with ⟨hnone, -⟩ | ⟨a, b, hsome, hgap⟩
  · rw [getResendRange, if_neg hout, hnone] at hrange
    cases hrange
  · obtain ⟨range', hrange', hoff, hlen⟩ := getResendRange_of_gap hout hsome hgap.le hgap.lt m.le
    obtain rfl := Option.some.inj (hrange.symm.trans hrange')
    have hend : range.offset.toNat + range.length.toNat = (b + 1) * homaMss := by
      have hle := hgap.le
      rw [hoff, hlen, ← add_mul]
      congr 1
      omega
    refine ⟨m, S, a, b, hnet, hholds, hgap, fun x hlo hhi => ?_, ?_⟩
    · rw [hend] at hhi
      rw [hoff] at hlo
      exact hgap.inside _ ((Nat.le_div_iff_mul_le (by decide)).mpr hlo)
        (Nat.le_of_lt_succ (Nat.div_lt_of_lt_mul (by rwa [mul_comm])))
    · have hmss : homaMss = 1420 := rfl
      rw [hend, roundUpMss]
      simp only [hmss]
      omega

end

def arrivals (l : List Nat) : List Event :=
  l.map fun i => .data (segmentOf hundredSegments 2 i) 1 ⟨0, 0, true, true, true⟩

def hundredRpc (l : List Nat) : RpcState :=
  ((run step .initial (arrivals l)).homa.rpcTbl ((segmentOf hundredSegments 2 0).hkey 1)).getD .zero

def watched (l : List Nat) : Shadow := ⟨TimerRpc.progress ⟨hundredRpc l, 0, 0⟩, 0, 0, 14, 0⟩

/-- Segment 1 is lost: the RESEND asks for it only, and it is granted. -/
theorem resend_within_grant_gap :
    ∃ S a b, Holds hundredSegments S (hundredRpc [0, 2]) ∧ FirstGap (· ∈ S) 100 a b ∧
      (∀ x, 1420 ≤ x → x < 1420 + 1420 → x / homaMss ∉ S) ∧
      1420 + 1420 ≤ roundUpMss (hundredRpc [0, 2]).cc.incoming.toNat ∧
      b * homaMss < (hundredRpc [0, 2]).cc.incoming.toNat := by
  have hdom : Meets step (EventDom fun _ => some hundredSegments) .initial (arrivals [0, 2]) :=
    ⟨⟨0, isSegment_segmentOf hundredSegments 2 (by decide)⟩,
      ⟨2, isSegment_segmentOf hundredSegments 2 (by decide)⟩, trivial⟩
  have hsome : ((run step .initial (arrivals [0, 2])).homa.rpcTbl
      ((segmentOf hundredSegments 2 0).hkey 1)).isSome := by decide +kernel
  have hrpc := (Option.some_get hsome).symm.trans
    (congrArg some (@Option.get_eq_getD _ RpcState.zero _ hsome))
  have hsent : (checkTimeout 20 ⟨hundredRpc [0, 2], 0, 0⟩ (watched [0, 2]) true).2 =
      some (.resend ⟨1420, 1420, 7⟩) := by decide +kernel
  have hend : 1420 + 1420 ≤ roundUpMss (hundredRpc [0, 2]).cc.incoming.toNat := by decide +kernel
  obtain ⟨m, S, a, b, hm, hholds, hgap, hmissing, hiff⟩ := resend_within_grant_iff hdom hrpc
    (by decide +kernel) 20 0 0 (watched [0, 2]) true hsent
  cases hm
  exact ⟨S, a, b, hholds, hgap, hmissing, hend, hiff.mp hend⟩

/-- The RESEND asks for all of the 142000 bytes, of which 60000 are granted. -/
theorem resend_beyond_grant :
    (checkTimeout 20 ⟨hundredRpc [0], 0, 0⟩ (watched [0]) true).2 =
        some (.resend ⟨1420, 140580, 7⟩) ∧
      (hundredRpc [0]).state = .incoming ∧
      roundUpMss (hundredRpc [0]).cc.incoming.toNat < 1420 + 140580 := by
  decide +kernel

/-! ## Aborts -/

/-- Whether the RPC has a socket, its state, and whether a packet can be transmitted. -/
structure Visit where
  globalTick : U32
  sockOk : Bool
  rpc : TimerRpc
  xmitOk : Bool

/-- The part of a visit before `check_timeout`: a BUSY restarts the silent ticks. -/
def Shadow.ticked (sh : Shadow) (busyCount : U8) : Shadow :=
  if busyCount ≠ sh.busyCount then { sh with silentTicks := 0, busyCount := busyCount }
  else { sh with silentTicks := sh.silentTicks + 1 }

@[simp] theorem resendTry_ticked (sh : Shadow) (busyCount : U8) :
    (sh.ticked busyCount).resendTry = sh.resendTry := by
  unfold Shadow.ticked
  split_ifs <;> rfl

structure Polled where
  shadow : Option Shadow
  sent : Option ControlPkt
  aborted : Bool

def pollRpc (shadow : Option Shadow) (v : Visit) : Polled :=
  if v.sockOk = false ∨ v.rpc.state = .dead then ⟨none, none, false⟩
  else
    match shadow with
    | none => ⟨some ⟨v.rpc.progress, v.rpc.busyCount, 0, 0, 0⟩, none, false⟩
    | some sh =>
      let sh := sh.ticked v.rpc.busyCount
      if sh.resendTry = 10 then ⟨none, none, true⟩
      else
        let out := checkTimeout v.globalTick v.rpc sh v.xmitOk
        ⟨some out.1, out.2, false⟩

/-- The shadow state of an RPC, what the last tick saw, and the packets transmitted since progress.
    -/
structure TimerRun where
  shadow : Option Shadow
  seen : Option (Progress × U8)
  transmitted : Nat

inductive TimerEvent
  | visit (v : Visit)
  | absent

def TimerRun.SeesProgress (s : TimerRun) (v : Visit) : Prop :=
  s.seen ≠ some (v.rpc.progress, v.rpc.busyCount)
deriving Decidable

def TimerRun.since (s : TimerRun) (v : Visit) : Nat := if s.SeesProgress v then 0 else s.transmitted

def timerStep (s : TimerRun) : TimerEvent → TimerRun
  | .absent => ⟨none, none, 0⟩
  | .visit v =>
    let p := pollRpc s.shadow v
    ⟨p.shadow, some (v.rpc.progress, v.rpc.busyCount),
      s.since v + if p.sent.isSome then 1 else 0⟩

def AbortJustified (s : TimerRun) : TimerEvent → Prop
  | .absent => True
  | .visit v => (pollRpc s.shadow v).aborted = true → 10 ≤ s.since v

/-- Each try that falls due can be made, and progress finds tries that it clears, before the
    tenth. -/
def TriesCounted (s : TimerRun) : TimerEvent → Prop
  | .absent => True
  | .visit v => v.sockOk = true → v.rpc.state ≠ .dead → ∀ sh ∈ s.shadow,
      (TryDue v.globalTick v.rpc (sh.ticked v.rpc.busyCount) → CanTry v.rpc v.xmitOk) ∧
      (s.SeesProgress v → sh.resendTry ≠ 0 →
        sh.resendTry ≠ 10 ∧ TriesCleared v.rpc (sh.ticked v.rpc.busyCount))

instance (s : TimerRun) (e : TimerEvent) : Decidable (TriesCounted s e) := by
  unfold TriesCounted
  split <;> infer_instance

def TriesLe (s : TimerRun) : Prop := ∀ sh ∈ s.shadow, sh.resendTry.toNat ≤ s.transmitted

/-- A visit under `TriesCounted` aborts after ten tries without progress only, and has transmitted
    what it counts. -/
theorem TriesCounted.spec {s : TimerRun} {v : Visit} {sh : Shadow} (hok : TriesCounted s (.visit v))
    (hs : s.shadow = some sh) :
    ((pollRpc (some sh) v).aborted = true → sh.resendTry = 10 ∧ ¬ s.SeesProgress v) ∧
      ∀ sh' ∈ (pollRpc (some sh) v).shadow, sh'.resendTry = 0 ∨
        (s.SeesProgress v → sh.resendTry = 0) ∧ (sh'.resendTry = sh.resendTry ∨
          sh'.resendTry = sh.resendTry + 1 ∧ (pollRpc (some sh) v).sent.isSome) := by
  by_cases hgone : v.sockOk = false ∨ v.rpc.state = .dead
  · simp [pollRpc, hgone]
  · obtain ⟨hsock, hdead⟩ := not_or.mp hgone
    obtain ⟨htry, hclear⟩ := hok (Bool.eq_true_of_not_eq_false hsock) hdead sh hs
    by_cases hten : sh.resendTry = 10
    · have hno : ¬ s.SeesProgress v := fun hp => (hclear hp (by simp [hten])).1 hten
      simp [pollRpc, hgone, hten, hno]
    · simp only [pollRpc, if_neg hgone, resendTry_ticked, if_neg hten, Option.mem_some_iff,
        forall_eq']
      have hcount := resendTry_checkTimeout htry
      have hzero hp h :=
        @resendTry_checkTimeout_of_cleared v.globalTick v.rpc _ v.xmitOk (hclear hp h).2
      rw [resendTry_ticked] at hcount
      grind

theorem pollRpc_none (v : Visit) : (pollRpc none v).aborted = false ∧
    ∀ sh' ∈ (pollRpc none v).shadow, sh'.resendTry = 0 := by
  unfold pollRpc
  grind

theorem TriesLe.step {s : TimerRun} {e : TimerEvent} (h : TriesLe s) (hok : TriesCounted s e) :
    TriesLe (timerStep s e) := by
  cases e with
  | absent => exact fun sh hsh => by cases hsh
  | visit v =>
    intro sh' hsh'
    change sh' ∈ (pollRpc s.shadow v).shadow at hsh'
    change sh'.resendTry.toNat ≤ s.since v + if (pollRpc s.shadow v).sent.isSome then 1 else 0
    cases hs : s.shadow with
    | none =>
      rw [hs] at hsh'
      rw [(pollRpc_none v).2 sh' hsh']
      exact Nat.zero_le _
    | some sh =>
      rw [hs] at hsh'
      have hle := h sh hs
      unfold TimerRun.since
      rcases (hok.spec hs).2 sh' hsh' with hzero | ⟨hclear, hsame | ⟨hone, hsent⟩⟩
      · simp [hzero]
      · grind
      · grind

theorem TriesLe.abortJustified {s : TimerRun} {e : TimerEvent} (h : TriesLe s)
    (hok : TriesCounted s e) : AbortJustified s e := by
  cases e with
  | absent => trivial
  | visit v =>
    intro habort
    cases hs : s.shadow with
    | none =>
      rw [hs, (pollRpc_none v).1] at habort
      cases habort
    | some sh =>
      rw [hs] at habort
      obtain ⟨htry, hno⟩ := (hok.spec hs).1 habort
      have hle := h sh hs
      rw [htry] at hle
      rw [TimerRun.since, if_neg hno]
      exact hle

/-- **No premature abort** in runs whose counted tries have been transmitted and whose progress
    clears them. -/
theorem aborts_justified (es : List TimerEvent)
    (h : Meets timerStep TriesCounted ⟨none, none, 0⟩ es) :
    Meets timerStep AbortJustified ⟨none, none, 0⟩ es := by
  have hstart : TriesLe ⟨none, none, 0⟩ := fun _ hsh => by cases hsh
  exact meets_of_inv (fun _ _ hle hok => TriesLe.step hle hok)
    (fun _ _ hle hok => TriesLe.abortJustified hle hok) hstart h

def unackedRpc : TimerRpc :=
  ⟨{ RpcState.zero with state := .outgoing, id := 1, messageLength := 100, nextXmitOffset := 100 },
    0, 0⟩

def visitsUntilAbort (xmitOk : Bool) : List TimerEvent :=
  .visit ⟨1, true, unackedRpc, xmitOk⟩ :: .visit ⟨2, true, unackedRpc, xmitOk⟩ ::
    replicate 10 (.visit ⟨20, true, unackedRpc, xmitOk⟩)

theorem aborts_justified_needAck : Meets timerStep AbortJustified ⟨none, none, 0⟩
      (visitsUntilAbort true ++ [.visit ⟨20, true, unackedRpc, true⟩]) :=
  aborts_justified _ (by decide +kernel)

/-- The tenth packet that could not be transmitted counts as much as the tenth that was. -/
theorem aborted_unheard :
    let s := run timerStep ⟨none, none, 0⟩ (visitsUntilAbort false)
    s.transmitted = 0 ∧ (pollRpc s.shadow ⟨20, true, unackedRpc, true⟩).aborted = true := by
  decide +kernel

end MtpXdp.Homa

import Mathlib.Order.Interval.Finset.Nat
import MtpXdp.Homa.State

/-!
# The Bitmap of Received Segments

`set_bitmap` of `eBPF/homa/rpc.h`. The twelve words of the bitmap are called rounds, and
`bitmap_round` counts the words that are complete; the message is complete when all of its
words are.
-/

namespace MtpXdp.Homa

open Ebpf (U8 U16 U32 U64)
open Finset Nat
open BitVec hiding or_comm

variable {S : Finset Nat}

/-- The results of `set_bitmap`: `-1`, `0` and `1`. -/
inductive BitmapResult where
  | error
  | more
  | complete
deriving DecidableEq

def incRound (r : RpcState) (round : Fin 12) (lastRound : U8) : RpcState :=
  if round.val < lastRound.toNat ∨ r.bitWidth &&& 63#16 = 0#16 then
    if r.bitmap round = allOnes 64 then { r with bitmapRound := r.bitmapRound + 1#16 } else r
  else if round.val = lastRound.toNat then
    if r.bitmap round = (1#64 <<< (r.bitWidth &&& 63#16).toNat) - 1#64 then
      { r with bitmapRound := r.bitmapRound + 1#16 }
    else r
  else r

def seqBit (seq : U16) : U64 := 1#64 <<< (seq &&& 63#16).toNat

def setBitmap (r : RpcState) (seq : U16) : RpcState × BitmapResult :=
  let tmp := if 0 < r.bitWidth.toNat then r.bitWidth - 1#16 else r.bitWidth
  let lastRound : U8 := (tmp / 64#16).setWidth 8
  let round : U8 := (seq / 64#16).setWidth 8
  if h : round.toNat < 12 then
    let i : Fin 12 := ⟨round.toNat, h⟩
    if r.bitmap i &&& seqBit seq ≠ 0#64 then (r, .error)
    else
      let r := { r with bitmap := Function.update r.bitmap i (r.bitmap i ||| seqBit seq) }
      let r := incRound r i lastRound
      (r, if r.bitmapRound.toNat = tmp.toNat / 64 + 1 then .complete else .more)
  else (r, .error)

def clearAllBitmaps (r : RpcState) : RpcState :=
  { r with bitmap := fun _ => 0#64, bitmapRound := 0#16 }

/-- `DIV_ROUND_UP(message_length, HOMA_MSS)`, stored in 16 bits. -/
def segmentCount (messageLength : U32) : U16 :=
  ((messageLength + BitVec.ofNat 32 homaMss - 1#32) / BitVec.ofNat 32 homaMss).setWidth 16

/-! ## What the bitmap records -/

def filledWords (n : Nat) (S : Finset Nat) : Finset Nat :=
  (range ((n - 1) / 64 + 1)).filter fun j => ∀ i < n, i / 64 = j → i ∈ S

/-- The bitmap of an RPC of `n` segments records exactly the segments in `S`. -/
structure Recorded (n : Nat) (S : Finset Nat) (r : RpcState) : Prop where
  width : r.bitWidth.toNat = n
  bit : ∀ (j : Fin 12) (b : Nat), b < 64 → (r.bitmap j).getLsbD b = decide (64 * j.val + b ∈ S)
  below : ∀ i ∈ S, i < n
  rounds : r.bitmapRound.toNat = (filledWords n S).card

theorem filledWords_empty {n : Nat} (hn : 0 < n) : filledWords n ∅ = ∅ := by
  refine filter_eq_empty_iff.mpr fun j hj hfull => ?_
  -- the first segment of word `j` is missing
  have hj' := mem_range.mp hj
  exact notMem_empty _ (hfull (64 * j) (by omega) (by omega))

theorem card_filledWords_eq_iff {n : Nat} (hn : 0 < n) (hS : ∀ i ∈ S, i < n) :
    (filledWords n S).card = (n - 1) / 64 + 1 ↔ S = range n := by
  constructor
  · intro hcard
    have hall : filledWords n S = range ((n - 1) / 64 + 1) := by
      refine eq_of_subset_of_card_le (filter_subset _ _) ?_
      rw [card_range, hcard]
    refine Finset.Subset.antisymm (fun i hi => mem_range.mpr (hS i hi)) fun i hi => ?_
    have hi' := mem_range.mp hi
    have hmem : i / 64 ∈ filledWords n S := by
      rw [hall]
      exact mem_range.mpr (by omega)
    exact (mem_filter.mp hmem).2 i hi' rfl
  · rintro rfl
    have hall : filledWords n (range n) = range ((n - 1) / 64 + 1) :=
      filter_eq_self.mpr fun j _ i hi _ => mem_range.mpr hi
    rw [hall, card_range]

theorem filledWords_insert {n q : Nat} (hq : q < n) (hqS : q ∉ S) : filledWords n (insert q S) =
      if ∀ i < n, i / 64 = q / 64 → i ∈ insert q S then insert (q / 64) (filledWords n S)
      else filledWords n S := by
  have hother : ∀ j, j ≠ q / 64 →
      ((∀ i < n, i / 64 = j → i ∈ insert q S) ↔ ∀ i < n, i / 64 = j → i ∈ S) := by
    intro j hj
    refine forall_congr' fun i => forall_congr' fun _ => forall_congr' fun hij => ?_
    refine ⟨fun h => ?_, mem_insert_of_mem⟩
    rcases mem_insert.mp h with rfl | h
    · exact absurd hij.symm hj
    · exact h
  ext j
  by_cases hj : j = q / 64
  · subst hj
    have hr : q / 64 ∈ range ((n - 1) / 64 + 1) := mem_range.mpr (by omega)
    split_ifs with hfull
    · exact ⟨fun _ => mem_insert_self _ _, fun _ => mem_filter.mpr ⟨hr, hfull⟩⟩
    · refine ⟨fun h => absurd (mem_filter.mp h).2 hfull, fun h => ?_⟩
      exact absurd ((mem_filter.mp h).2 q hq rfl) hqS
  · have hiff : j ∈ filledWords n (insert q S) ↔ j ∈ filledWords n S := by
      simp only [filledWords, mem_filter, hother j hj]
    split_ifs with hfull
    · rw [hiff, mem_insert, or_iff_right hj]
    · exact hiff

theorem not_mem_filledWords {n q : Nat} (hq : q < n) (hqS : q ∉ S) :
    q / 64 ∉ filledWords n S := fun h => hqS ((mem_filter.mp h).2 q hq rfl)

/-! ## The words -/

theorem toNat_and_63 (w : U16) : (w &&& 63#16).toNat = w.toNat % 64 := by
  exact and_two_pow_sub_one_eq_mod w.toNat 6

theorem getLsbD_seqBit (seq : U16) {b : Nat} (hb : b < 64) :
    (seqBit seq).getLsbD b = decide (b = seq.toNat % 64) := by
  simp only [seqBit, toNat_and_63, getLsbD_shiftLeft, getLsbD_one, hb, decide_true,
    Bool.true_and]
  rw [Bool.eq_iff_iff]
  simp
  omega

theorem and_seqBit_ne_zero_iff (w : U64) (seq : U16) :
    w &&& seqBit seq ≠ 0#64 ↔ w.getLsbD (seq.toNat % 64) = true := by
  have hlt : seq.toNat % 64 < 64 := mod_lt _ (by decide)
  constructor
  · intro h
    by_contra hbit
    refine h (eq_of_getLsbD_eq fun b hb => ?_)
    rw [getLsbD_and, getLsbD_seqBit seq hb, getLsbD_zero]
    by_cases hbs : b = seq.toNat % 64
    · rw [hbs, Bool.eq_false_iff.mpr hbit, Bool.false_and]
    · simp [hbs]
  · intro hbit h
    have := congrArg (·.getLsbD (seq.toNat % 64)) h
    simp [getLsbD_seqBit seq hlt, hbit] at this

theorem eq_allOnes_iff (w : U64) : w = allOnes 64 ↔ ∀ b < 64, w.getLsbD b = true := by
  constructor
  · rintro rfl b hb
    rw [getLsbD_allOnes, decide_eq_true hb]
  · intro h
    refine eq_of_getLsbD_eq fun b hb => ?_
    rw [h b hb, getLsbD_allOnes, decide_eq_true hb]

theorem getLsbD_lowMask {m b : Nat} (hm : m < 64) :
    ((1#64 <<< m) - 1#64).getLsbD b = decide (b < m) := by
  have hpow : 2 ^ m < 2 ^ 64 := Nat.pow_lt_pow_right (by decide) hm
  have hshift : (1#64 <<< m).toNat = 2 ^ m := by
    rw [toNat_shiftLeft, toNat_ofNat, one_mod_two_pow (by decide),
      one_shiftLeft, mod_eq_of_lt hpow]
  have hval : ((1#64 <<< m) - 1#64).toNat = 2 ^ m - 1 := by
    have hpos : 0 < 2 ^ m := Nat.two_pow_pos m
    rw [toNat_sub_of_le (by rw [le_def, hshift]; exact hpos), hshift]
    rfl
  rw [getLsbD, hval, testBit_two_pow_sub_one]

theorem word_full_iff {n : Nat} {w : U64} {j : Nat} (hS : ∀ i ∈ S, i < n)
    (hw : ∀ b < 64, w.getLsbD b = decide (64 * j + b ∈ S)) (hj : j ≤ (n - 1) / 64) (hn : 0 < n) :
    (if j < (n - 1) / 64 ∨ n % 64 = 0 then w = allOnes 64
      else w = (1#64 <<< (n % 64)) - 1#64) ↔ ∀ i < n, i / 64 = j → i ∈ S := by
  split_ifs with hcase
  · rw [eq_allOnes_iff]
    constructor
    · rintro h i - rfl
      have := h (i % 64) (mod_lt _ (by decide))
      rw [hw _ (mod_lt _ (by decide)), div_add_mod, decide_eq_true_eq] at this
      exact this
    · intro h b hb
      rw [hw b hb]
      exact decide_eq_true (h (64 * j + b) (by omega) (by omega))
  · have hm : n % 64 < 64 := mod_lt _ (by decide)
    constructor
    · rintro rfl i hi rfl
      have := hw (i % 64) (mod_lt _ (by decide))
      rw [getLsbD_lowMask hm, div_add_mod] at this
      exact of_decide_eq_true (this ▸ decide_eq_true (by omega))
    · intro h
      refine eq_of_getLsbD_eq fun b hb => ?_
      rw [hw b hb, getLsbD_lowMask hm, decide_eq_decide]
      refine ⟨fun hmem => ?_, fun hlt => h _ (by omega) (by omega)⟩
      have := hS _ hmem
      omega

/-! ## Recording a segment -/

section

variable {n : Nat} {r : RpcState} {seq : U16}

theorem incRound_eq (hwidth : r.bitWidth.toNat = n)
    (hbit : ∀ (j : Fin 12) (b : Nat), b < 64 → (r.bitmap j).getLsbD b = decide (64 * j.val + b ∈ S))
    (hS : ∀ i ∈ S, i < n) (hn : 0 < n) (j : Fin 12) (last : U8)
    (hlast : last.toNat = (n - 1) / 64) (hj : j.val ≤ (n - 1) / 64) : incRound r j last =
      if ∀ i < n, i / 64 = j.val → i ∈ S then { r with bitmapRound := r.bitmapRound + 1#16 }
      else r := by
  have hzero : r.bitWidth &&& 63#16 = 0#16 ↔ n % 64 = 0 := by
    rw [← toNat_inj, toNat_and_63, hwidth]
    rfl
  have hfull := word_full_iff hS (hbit j) hj hn
  unfold incRound
  simp only [hlast, hzero, toNat_and_63, hwidth]
  split_ifs at hfull ⊢ <;> simp_all
  omega

theorem toNat_word {x : U16} (hx : x.toNat < 768) :
    ((x / 64#16).setWidth 8 : U8).toNat = x.toNat / 64 := by
  exact mod_eq_of_lt (by simp; omega)

theorem setBitmap_of_mem (h : Recorded n S r) (hn : n ≤ 768) (hmem : seq.toNat ∈ S) :
    setBitmap r seq = (r, .error) := by
  have hlt := h.below _ hmem
  have hround := toNat_word (hlt.trans_le hn)
  have h12 : ((seq / 64#16).setWidth 8 : U8).toNat < 12 := by omega
  unfold setBitmap
  simp only [dif_pos h12]
  rw [if_pos]
  rw [and_seqBit_ne_zero_iff, h.bit _ _ (mod_lt _ (by decide))]
  simp only [hround, div_add_mod]
  exact decide_eq_true hmem

theorem bit_insert
    (hbit : ∀ (i : Fin 12) (b : Nat), b < 64 → (r.bitmap i).getLsbD b = decide (64 * i.val + b ∈ S))
    {j : Fin 12} (hj : j.val = seq.toNat / 64) (i : Fin 12) (b : Nat) (hb : b < 64) :
    (Function.update r.bitmap j (r.bitmap j ||| seqBit seq) i).getLsbD b =
      decide (64 * i.val + b ∈ insert seq.toNat S) := by
  by_cases hij : i = j
  · subst hij
    simp only [Function.update_self, getLsbD_or, hbit _ b hb, getLsbD_seqBit seq hb,
      ← Bool.decide_or, mem_insert, decide_eq_decide]
    rw [or_comm]
    refine or_congr_left ?_
    omega
  · have hne : 64 * i.val + b ≠ seq.toNat := by
      omega
    simp only [Function.update_of_ne hij, hbit i b hb, mem_insert, hne, false_or]

theorem card_filledWords_le : (filledWords n S).card ≤ (n - 1) / 64 + 1 := by
  have hsub := card_le_card (filter_subset
    (fun j => ∀ i < n, i / 64 = j → i ∈ S) (range ((n - 1) / 64 + 1)))
  rwa [card_range] at hsub

theorem rounds_insert {rd : U16} (hrounds : rd.toNat = (filledWords n S).card) (hn : n ≤ 768)
    (hlt : seq.toNat < n) (hmem : seq.toNat ∉ S) :
    (if ∀ i < n, i / 64 = seq.toNat / 64 → i ∈ insert seq.toNat S then rd + 1#16 else rd).toNat =
      (filledWords n (insert seq.toNat S)).card := by
  have hcard := card_filledWords_le (n := n) (S := insert seq.toNat S)
  rw [filledWords_insert hlt hmem] at hcard ⊢
  split_ifs at hcard ⊢
  · rw [card_insert_of_notMem (not_mem_filledWords hlt hmem)] at hcard ⊢
    bv_omega
  · exact hrounds

theorem setBitmap_of_not_mem (h : Recorded n S r) (hn : n ≤ 768) (hlt : seq.toNat < n)
    (hmem : seq.toNat ∉ S) :
    ∃ bm rd, setBitmap r seq = ({ r with bitmap := bm, bitmapRound := rd },
        if insert seq.toNat S = range n then .complete else .more) ∧
      Recorded n (insert seq.toNat S) { r with bitmap := bm, bitmapRound := rd } := by
  have hpos : 0 < n := by omega
  have hround := toNat_word (hlt.trans_le hn)
  have h12 : ((seq / 64#16).setWidth 8 : U8).toNat < 12 := by omega
  set j : Fin 12 := ⟨((seq / 64#16).setWidth 8 : U8).toNat, h12⟩ with hj
  have hjq : j.val = seq.toNat / 64 := hround
  have hwpos : 0 < r.bitWidth.toNat := by rw [h.width]; exact hpos
  have htmp : (r.bitWidth - 1#16).toNat = n - 1 := by
    have := h.width
    bv_omega
  have hlast : (((r.bitWidth - 1#16) / 64#16).setWidth 8 : U8).toNat = (n - 1) / 64 := by
    rw [toNat_word (by omega), htmp]
  have hfree : ¬ (r.bitmap j &&& seqBit seq ≠ 0#64) := by
    rw [and_seqBit_ne_zero_iff, h.bit _ _ (mod_lt _ (by decide)), hjq, div_add_mod,
      decide_eq_true_eq]
    exact hmem
  have hbelow : ∀ i ∈ insert seq.toNat S, i < n := by
    intro i hi
    rcases mem_insert.mp hi with rfl | hi
    · exact hlt
    · exact h.below i hi
  -- the state with the bit set, before the word is counted
  set r₁ : RpcState :=
    { r with bitmap := Function.update r.bitmap j (r.bitmap j ||| seqBit seq) } with hr₁
  have hbit := bit_insert h.bit hjq
  -- counting changes the number of complete words only
  set rd := if ∀ i < n, i / 64 = seq.toNat / 64 → i ∈ insert seq.toNat S
    then r.bitmapRound + 1#16 else r.bitmapRound with hrd
  have hinc : incRound r₁ j (((r.bitWidth - 1#16) / 64#16).setWidth 8) =
      { r₁ with bitmapRound := rd } := by
    rw [incRound_eq (r := r₁) h.width hbit hbelow hpos j _ hlast (by omega)]
    simp only [hrd, hjq]
    split_ifs <;> rfl
  have hcount : rd.toNat = (filledWords n (insert seq.toNat S)).card :=
    rounds_insert h.rounds hn hlt hmem
  refine ⟨r₁.bitmap, rd, ?_, ⟨h.width, hbit, hbelow, hcount⟩⟩
  have heval : setBitmap r seq =
      ({ r₁ with bitmapRound := rd },
        if rd.toNat = (n - 1) / 64 + 1 then .complete else .more) := by
    unfold setBitmap
    simp only [dif_pos h12, if_pos hwpos]
    rw [if_neg hfree, ← hj, ← hr₁, hinc, htmp]
  have hcomplete : rd.toNat = (n - 1) / 64 + 1 ↔ insert seq.toNat S = range n := by
    rw [← card_filledWords_eq_iff hpos hbelow, ← hcount]
  rw [heval]
  simp only [hcomplete, hr₁]

theorem recorded_clearAllBitmaps (hwidth : r.bitWidth.toNat = n) (hn : 0 < n) :
    Recorded n ∅ (clearAllBitmaps r) where
  width := hwidth
  bit j b _ := by simp [clearAllBitmaps]
  below i hi := absurd hi (notMem_empty i)
  rounds := by rw [filledWords_empty hn]; rfl

end

end MtpXdp.Homa

import Mathlib.Data.Nat.Bitwise
import Mathlib.Data.Nat.ModEq

/-!
# Rings

Code that walks a circular buffer adds or subtracts and corrects once by the
buffer's size. As long as no step is longer than the buffer this is arithmetic
modulo the size, applied to the byte count the position stands for.

A ring of `2 ^ k` slots is indexed with counters that wrap at `2 ^ 32`: the low bits select the
slot, the bit above them tells even laps from odd ones. Both can be read off the number the counter
stands for.
-/

namespace MtpXdp.Core

variable {size pos n k : Nat}

def advancePos (size pos n : Nat) : Nat := if size ≤ pos + n then pos + n - size else pos + n

def rewindPos (size pos n : Nat) : Nat := if n ≤ pos then pos - n else size - (n - pos)

theorem advancePos_eq_mod (hsize : 0 < size) (hpos : pos = k % size) (hn : n ≤ size) :
    advancePos size pos n = (k + n) % size := by
  have hlt : pos < size := hpos ▸ Nat.mod_lt k hsize
  have hmod : (k + n) % size = (pos + n) % size := by rw [hpos, Nat.mod_add_mod]
  rw [hmod, advancePos]
  by_cases hwrap : size ≤ pos + n
  · rw [if_pos hwrap, Nat.mod_eq_sub_mod hwrap, Nat.mod_eq_of_lt (by omega)]
  · rw [if_neg hwrap, Nat.mod_eq_of_lt (by omega)]

theorem rewindPos_eq_mod (hsize : 0 < size) (hpos : pos = k % size) (hn : n ≤ size)
    (hnk : n ≤ k) : rewindPos size pos n = (k - n) % size := by
  have hlt : pos < size := hpos ▸ Nat.mod_lt k hsize
  -- the result is below `size`, and going forward again leads back to `pos`
  have hres : rewindPos size pos n < size := by
    unfold rewindPos
    split <;> omega
  have hback : (rewindPos size pos n + n) % size = k % size := by
    unfold rewindPos
    by_cases hle : n ≤ pos
    · rw [if_pos hle, Nat.sub_add_cancel hle, hpos, Nat.mod_mod]
    · rw [if_neg hle, show size - (n - pos) + n = pos + size by omega, Nat.add_mod_right, hpos,
        Nat.mod_mod]
  have hcongr : rewindPos size pos n ≡ k - n [MOD size] := by
    apply Nat.ModEq.add_right_cancel' n
    rw [Nat.sub_add_cancel hnk]
    exact hback
  rw [← hcongr, Nat.mod_eq_of_lt hres]

open List BitVec Nat

def ringSize (k : Nat) : BitVec 32 := BitVec.ofNat 32 (2 ^ k)

def slot (k n : Nat) : BitVec 32 := BitVec.ofNat 32 (n % 2 ^ k)

def oddLap (k n : Nat) : Bool := n.testBit k

variable {m p : Nat}

theorem toNat_ringSize (hk : k < 32) : (ringSize k).toNat = 2 ^ k := by
  have hlt : 2 ^ k < 2 ^ 32 := Nat.pow_lt_pow_right (by omega) hk
  rw [ringSize, toNat_ofNat, mod_eq_of_lt hlt]

theorem toNat_ringMask (hk : k < 32) : (ringSize k - 1#32).toNat = 2 ^ k - 1 := by
  have hpos : 1#32 ≤ ringSize k := by
    rw [le_def, toNat_ringSize hk]
    exact Nat.two_pow_pos k
  rw [toNat_sub_of_le hpos, toNat_ringSize hk]
  rfl

theorem toNat_slot (hk : k < 32) : (slot k n).toNat = n % 2 ^ k := by
  have hlt : 2 ^ k < 2 ^ 32 := Nat.pow_lt_pow_right (by omega) hk
  rw [slot, toNat_ofNat, mod_eq_of_lt (by omega)]

theorem and_mask_eq_slot (hk : k < 32) (n : Nat) :
    BitVec.ofNat 32 n &&& (ringSize k - 1#32) = slot k n := by
  apply eq_of_toNat_eq
  rw [toNat_and, toNat_ringMask hk, and_two_pow_sub_one_eq_mod, toNat_ofNat, toNat_slot hk,
    mod_mod_of_dvd _ (pow_dvd_pow 2 (le_of_lt hk))]

theorem and_size_ne_zero_iff (hk : k < 32) (n : Nat) :
    BitVec.ofNat 32 n &&& ringSize k ≠ 0#32 ↔ oddLap k n = true := by
  have hand : (BitVec.ofNat 32 n &&& ringSize k).toNat = (n.testBit k).toNat * 2 ^ k := by
    rw [toNat_and, toNat_ringSize hk, and_two_pow, toNat_ofNat,
      testBit_mod_two_pow]
    simp [hk]
  rw [oddLap, ne_eq, ← toNat_inj, hand]
  cases n.testBit k <;> simp

theorem slot_inj (hk : k < 32) (hm : p ≤ m) (hm' : m < p + 2 ^ k) (hn : p ≤ n)
    (hn' : n < p + 2 ^ k) (h : slot k m = slot k n) : m = n := by
  have hmod : m % 2 ^ k = n % 2 ^ k := by rw [← toNat_slot hk, ← toNat_slot hk, h]
  have hclose : ∀ a b, a ≤ b → b < a + 2 ^ k → a % 2 ^ k = b % 2 ^ k → a = b := by
    intro a b hab hlt heq
    have hdvd : 2 ^ k ∣ b - a := (modEq_iff_dvd' hab).mp heq
    have hzero : b - a = 0 := eq_zero_of_dvd_of_lt hdvd (by omega)
    omega
  rcases le_total m n with hmn | hnm
  · exact hclose m n hmn (by omega) hmod
  · exact (hclose n m hnm (by omega) hmod.symm).symm

theorem slot_add_size (k n : Nat) : slot k (n + 2 ^ k) = slot k n := by
  rw [slot, slot, add_mod_right]

theorem oddLap_add_size (k n : Nat) : oddLap k (n + 2 ^ k) = !oddLap k n := by
  rw [oddLap, oddLap, add_comm, testBit_two_pow_add_eq]

theorem oddLap_of_lt (hn : n < 2 ^ k) : oddLap k n = false := Nat.testBit_lt_two_pow hn

theorem toNat_ofNat_sub_ofNat (hmn : m ≤ n) (hlt : n - m < 2 ^ 32) :
    (BitVec.ofNat 32 n - BitVec.ofNat 32 m).toNat = n - m := by
  rw [toNat_sub, toNat_ofNat, toNat_ofNat]
  omega

theorem ofNat_add_one (n : Nat) : BitVec.ofNat 32 n + 1#32 = BitVec.ofNat 32 (n + 1) := by
  rw [ofNat_add]

theorem slot_succ (hk : k < 32) (n : Nat) :
    (slot k n + 1#32) &&& (ringSize k - 1#32) = slot k (n + 1) := by
  rw [← and_mask_eq_slot hk (n + 1), slot, ofNat_add_one]
  apply eq_of_toNat_eq
  have hdvd : 2 ^ k ∣ 2 ^ 32 := pow_dvd_pow 2 (le_of_lt hk)
  simp only [toNat_and, toNat_ringMask hk, and_two_pow_sub_one_eq_mod, toNat_ofNat,
    mod_mod_of_dvd _ hdvd, mod_add_mod]

/-! ## A ring that holds the tail of a log -/

section

variable {α : Type*} {slots : BitVec 32 → α} {log : List α}

/-- The log from `p` on lies in the ring, each entry in its slot, and the ring is not full. -/
structure RingLog (k : Nat) (slots : BitVec 32 → α) (log : List α) (p : Nat) : Prop where
  popped : p ≤ log.length
  bounded : log.length < p + 2 ^ k
  entries : ∀ n (hn : n < log.length), p ≤ n → slots (slot k n) = log[n]

theorem RingLog.nil (k : Nat) (slots : BitVec 32 → α) : RingLog k slots [] 0 where
  popped := Nat.le_refl 0
  bounded := Nat.lt_add_of_pos_right (Nat.two_pow_pos k)
  entries n hn := absurd hn (not_lt_zero n)

section

variable (h : RingLog k slots log p)
include h

theorem RingLog.empty_iff (hk : k < 32) : slot k log.length = slot k p ↔ p = log.length := by
  constructor
  · intro heq
    have hp : p < p + 2 ^ k := Nat.lt_add_of_pos_right (Nat.two_pow_pos k)
    exact (slot_inj hk h.popped h.bounded (le_refl p) hp heq).symm
  · rintro rfl
    rfl

theorem RingLog.full_iff (hk : k < 32) :
    slot k p = slot k (log.length + 1) ↔ log.length + 1 = p + 2 ^ k := by
  constructor
  · intro heq
    by_contra hne
    have hlt : log.length + 1 < p + 2 ^ k := by have := h.bounded; omega
    have hpop := h.popped
    have := slot_inj hk (le_refl p) (by omega) (by omega) hlt heq
    omega
  · intro hfull
    rw [hfull, slot_add_size]

theorem RingLog.push (hk : k < 32)
    (hroom : log.length + 1 < p + 2 ^ k) (a : α) :
    RingLog k (fun j => if j = slot k log.length then a else slots j) (log ++ [a]) p where
  popped := by
    have := h.popped
    simp only [length_append, length_singleton]
    omega
  bounded := by simpa using hroom
  entries n hn hp := by
    simp only [length_append, length_singleton] at hn
    by_cases hlast : n = log.length
    · subst hlast
      simp
    · -- an older entry lies less than a lap behind, in another slot
      have hold : n < log.length := by omega
      have hother : slot k n ≠ slot k log.length := fun heq =>
        hlast (slot_inj hk hp (by omega) h.popped (by omega) heq)
      rw [if_neg hother, getElem_append_left hold]
      exact h.entries n hold hp

theorem RingLog.pop (hne : p < log.length) :
    RingLog k slots log (p + 1) where
  popped := hne
  bounded := by have := h.bounded; omega
  entries n hn hp := h.entries n hn (by omega)

end

end

end MtpXdp.Core

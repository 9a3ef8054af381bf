import Mathlib.Algebra.BigOperators.Group.List.Basic
import Mathlib.Data.BitVec

/-!
# One's-Complement Sums of Machine Words

Addition with an end-around carry, the sum of Internet checksums, and its computation in a wider
accumulator that is folded at the end. Both are arithmetic modulo `2 ^ w - 1` with two names for
zero.
-/

namespace MtpXdp.Core

open Nat

variable {w : Nat}

/-! ## Addition with an end-around carry -/

def onesAdd (a b : BitVec w) : BitVec w :=
  if a.toNat + b.toNat < 2 ^ w then a + b else a + b + 1#w

def onesSum (ws : List (BitVec w)) : BitVec w := ws.foldl onesAdd 0#w

theorem toNat_onesAdd (a b : BitVec w) : (onesAdd a b).toNat =
      if a.toNat + b.toNat < 2 ^ w then a.toNat + b.toNat else a.toNat + b.toNat - (2 ^ w - 1) := by
  unfold onesAdd
  split_ifs with hcarry
  · rw [BitVec.toNat_add, mod_eq_of_lt hcarry]
  · -- the carry is one, so the low end takes it without a second carry
    rcases Nat.eq_zero_or_pos w with rfl | hw
    · simp at hcarry
      omega
    · have hone : (1#w).toNat = 1 := by
        rw [BitVec.toNat_ofNat, Nat.mod_eq_of_lt (Nat.one_lt_two_pow hw.ne')]
      rw [BitVec.toNat_add, BitVec.toNat_add, hone, mod_eq_sub_mod (not_lt.mp hcarry),
        mod_eq_of_lt (show a.toNat + b.toNat - 2 ^ w < 2 ^ w by omega), mod_eq_of_lt]
      · omega
      · omega

theorem onesAdd_modEq (a b : BitVec w) :
    (onesAdd a b).toNat ≡ a.toNat + b.toNat [MOD 2 ^ w - 1] := by
  rw [toNat_onesAdd]
  split_ifs with hcarry
  · rfl
  · have hle : 2 ^ w - 1 ≤ a.toNat + b.toNat := by omega
    calc a.toNat + b.toNat - (2 ^ w - 1)
        ≡ a.toNat + b.toNat - (2 ^ w - 1) + (2 ^ w - 1) [MOD 2 ^ w - 1] :=
          add_modEq_right.symm
      _ = a.toNat + b.toNat := Nat.sub_add_cancel hle

theorem onesAdd_eq_zero_iff (a b : BitVec w) : onesAdd a b = 0#w ↔ a = 0#w ∧ b = 0#w := by
  simp only [← BitVec.toNat_inj, toNat_onesAdd, BitVec.toNat_ofNat, zero_mod]
  split_ifs with hcarry
  · omega
  · have hpos := Nat.two_pow_pos w
    omega

/-! ## Sums -/

section

variable (ws : List (BitVec w))

theorem foldl_onesAdd_modEq (a : BitVec w) :
    (ws.foldl onesAdd a).toNat ≡ a.toNat + (ws.map BitVec.toNat).sum [MOD 2 ^ w - 1] := by
  induction ws generalizing a with
  | nil => rfl
  | cons b ws ih =>
    rw [List.foldl_cons, List.map_cons, List.sum_cons, ← add_assoc]
    exact (ih (onesAdd a b)).trans ((onesAdd_modEq a b).add_right _)

theorem onesSum_modEq : (onesSum ws).toNat ≡ (ws.map BitVec.toNat).sum [MOD 2 ^ w - 1] := by
  simpa [onesSum] using foldl_onesAdd_modEq ws 0#w

theorem foldl_onesAdd_eq_zero_iff (a : BitVec w) :
    ws.foldl onesAdd a = 0#w ↔ a = 0#w ∧ ∀ b ∈ ws, b = 0#w := by
  induction ws generalizing a with
  | nil => simp
  | cons b ws ih => simp [ih, onesAdd_eq_zero_iff, and_assoc]

theorem onesSum_eq_zero_iff : onesSum ws = 0#w ↔ ∀ b ∈ ws, b = 0#w := by
  simp [onesSum, foldl_onesAdd_eq_zero_iff]

end

/-! ## Words that stand for sums -/

section

variable {x y s t : Nat}

/-- `x` stands for the sum `s`: it is the same modulo `2 ^ w - 1`, and zero only if the sum is. -/
structure StandsFor (w x s : Nat) : Prop where
  modEq : x ≡ s [MOD 2 ^ w - 1]
  zero_iff : x = 0 ↔ s = 0

namespace StandsFor

protected theorem refl (w x : Nat) : StandsFor w x x := ⟨rfl, Iff.rfl⟩

theorem trans (h : StandsFor w x s) (h' : StandsFor w s t) : StandsFor w x t :=
  ⟨h.modEq.trans h'.modEq, h.zero_iff.trans h'.zero_iff⟩

protected theorem symm (h : StandsFor w x s) : StandsFor w s x := ⟨h.modEq.symm, h.zero_iff.symm⟩

theorem add (h : StandsFor w x s) (h' : StandsFor w y t) : StandsFor w (x + y) (s + t) :=
  ⟨h.modEq.add h'.modEq, by rw [Nat.add_eq_zero_iff, h.zero_iff, h'.zero_iff, Nat.add_eq_zero_iff]⟩

protected theorem onesSum (ws : List (BitVec w)) :
    StandsFor w (onesSum ws).toNat (ws.map BitVec.toNat).sum where
  modEq := onesSum_modEq ws
  zero_iff := by
    have hzero : (onesSum ws).toNat = 0 ↔ onesSum ws = 0#w := by simp [← BitVec.toNat_inj]
    rw [hzero, onesSum_eq_zero_iff, List.sum_eq_zero_iff_forall_eq_nat, List.forall_mem_map]
    simp [← BitVec.toNat_inj]

theorem unique (h : StandsFor w x s) (h' : StandsFor w y s) (hx : x < 2 ^ w) (hy : y < 2 ^ w) :
    x = y := by
  have hzero : x = 0 ↔ y = 0 := h.zero_iff.trans h'.zero_iff.symm
  have hmod : x ≡ y [MOD 2 ^ w - 1] := h.modEq.trans h'.modEq.symm
  by_cases hx0 : x = 0
  · rw [hx0, hzero.mp hx0]
  · have hy0 : y ≠ 0 := fun hy0 => hx0 (hzero.mpr hy0)
    -- both are in `1, ..., 2 ^ w - 1`
    have hpred : x - 1 ≡ y - 1 [MOD 2 ^ w - 1] :=
      Nat.ModEq.add_right_cancel' 1
        (by rwa [Nat.sub_add_cancel (by omega), Nat.sub_add_cancel (by omega)])
    have heq := hpred.eq_of_lt_of_lt (by omega) (by omega)
    omega

end StandsFor

end

theorem onesSum_eq_allOnes_iff (hw : 0 < w) (ws : List (BitVec w)) :
    onesSum ws = BitVec.allOnes w ↔
      2 ^ w - 1 ∣ (ws.map BitVec.toNat).sum ∧ (ws.map BitVec.toNat).sum ≠ 0 := by
  have hmod := onesSum_modEq ws
  have hone := Nat.one_lt_two_pow hw.ne'
  rw [ne_eq, ← (StandsFor.onesSum ws).zero_iff, ← hmod.dvd_iff dvd_rfl, ← BitVec.toNat_inj,
    BitVec.toNat_allOnes]
  constructor
  · intro h
    rw [h]
    exact ⟨dvd_rfl, by omega⟩
  · -- the only positive multiple below `2 ^ w`
    rintro ⟨hdvd, hne⟩
    obtain ⟨k, hk⟩ := hdvd
    rcases k with _ | _ | k
    · omega
    · omega
    · rw [Nat.mul_add, Nat.mul_add] at hk
      omega

/-! ## Folding a wide accumulator -/

def foldOnce (w n : Nat) : Nat := n % 2 ^ w + n / 2 ^ w

theorem foldOnce_modEq (w n : Nat) : foldOnce w n ≡ n [MOD 2 ^ w - 1] := by
  have hpos := Nat.two_pow_pos w
  have hsplit : foldOnce w n + (2 ^ w - 1) * (n / 2 ^ w) = n := by
    have hdiv := Nat.mod_add_div n (2 ^ w)
    rw [Nat.sub_mul, Nat.one_mul]
    have hle := Nat.le_mul_of_pos_left (n / 2 ^ w) hpos
    unfold foldOnce
    omega
  calc foldOnce w n ≡ foldOnce w n + (2 ^ w - 1) * (n / 2 ^ w) [MOD 2 ^ w - 1] :=
        (Nat.modEq_of_dvd (by simp)).symm
    _ = n := hsplit

theorem foldOnce_pos {n : Nat} (w : Nat) (h : 0 < n) : 0 < foldOnce w n := by
  have hdiv := mod_add_div n (2 ^ w)
  unfold foldOnce
  rcases Nat.eq_zero_or_pos (n / 2 ^ w) with h0 | h0
  · rw [h0] at hdiv
    omega
  · omega

theorem standsFor_foldOnce (w n : Nat) : StandsFor w (foldOnce w n) n where
  modEq := foldOnce_modEq w n
  zero_iff := by
    constructor
    · intro h
      by_contra hn
      exact (foldOnce_pos w (Nat.pos_of_ne_zero hn)).ne' h
    · rintro rfl
      simp [foldOnce]

end MtpXdp.Core

import Mathlib.Data.BitVec

/-!
# Distances on the Ring of Machine Words

Wrap-around comparisons of machine words are statements about the distance
`ahead a x` from `a` upwards to `x`. Each of the comparison patterns that code
writes with a case split on `a ≤ b` is one inequality between distances.
-/

namespace MtpXdp.Core

open BitVec

variable {w : Nat}

/-- The distance from `a` upwards to `x`, going around the ring if needed. -/
def ahead (a x : BitVec w) : Nat := (x - a).toNat

theorem ahead_lt (a x : BitVec w) : ahead a x < 2 ^ w := (x - a).isLt

@[simp] theorem ahead_self (a : BitVec w) : ahead a a = 0 := by simp [ahead]

theorem ahead_of_le {a x : BitVec w} (h : a ≤ x) : ahead a x = x.toNat - a.toNat :=
  toNat_sub_of_le h

theorem ahead_of_not_le {a x : BitVec w} (h : ¬ a ≤ x) : ahead a x = 2 ^ w - (a.toNat - x.toNat) :=
  toNat_sub_of_lt (BitVec.not_le.mp h)

theorem ahead_eq_zero_iff {a x : BitVec w} : ahead a x = 0 ↔ x = a := by
  constructor
  · intro h
    have hsub : x - a = 0#w := eq_of_toNat_eq (by simpa [ahead] using h)
    calc x = x - a + a := (BitVec.sub_add_cancel x a).symm
      _ = a := by rw [hsub, BitVec.zero_add]
  · intro h
    rw [h, ahead_self]

theorem ahead_add (a b n : BitVec w) : ahead a (b + n) = (ahead a b + n.toNat) % 2 ^ w := by
  rw [ahead, ahead, ← toNat_add]
  rw [sub_eq_add_neg, sub_eq_add_neg, add_assoc, add_comm n,
    add_assoc]

@[simp] theorem ahead_add_self (a n : BitVec w) : ahead a (a + n) = n.toNat := by
  rw [ahead_add, ahead_self, Nat.zero_add, Nat.mod_eq_of_lt n.isLt]

theorem ahead_trans (a b x : BitVec w) : ahead a x = (ahead a b + ahead b x) % 2 ^ w := by
  have hstop : b + (x - b) = x := by rw [add_comm, sub_add_cancel]
  calc ahead a x = ahead a (b + (x - b)) := by rw [hstop]
    _ = (ahead a b + ahead b x) % 2 ^ w := ahead_add a b (x - b)

theorem ahead_of_ahead_le {a b x : BitVec w} (h : ahead a b ≤ ahead a x) :
    ahead b x = ahead a x - ahead a b := by
  have hax := ahead_trans a b x
  have hbx := ahead_lt b x
  by_cases hwrap : ahead a b + ahead b x < 2 ^ w
  · rw [Nat.mod_eq_of_lt hwrap] at hax
    omega
  · rw [Nat.mod_eq_sub_mod (Nat.not_lt.mp hwrap), Nat.mod_eq_of_lt (by omega)] at hax
    omega

theorem ahead_add_of_lt {a b n : BitVec w} (h : ahead a b + n.toNat < 2 ^ w) :
    ahead a (b + n) = ahead a b + n.toNat := by
  rw [ahead_add, Nat.mod_eq_of_lt h]

theorem ahead_add_ahead {a b : BitVec w} (h : a ≠ b) : ahead a b + ahead b a = 2 ^ w := by
  have hback := ahead_trans a b a
  have hab := ahead_lt a b
  have hba := ahead_lt b a
  have hpos : ahead a b ≠ 0 := fun hz => h (ahead_eq_zero_iff.mp hz).symm
  rw [ahead_self] at hback
  by_cases hwrap : ahead a b + ahead b a < 2 ^ w
  · rw [Nat.mod_eq_of_lt hwrap] at hback
    omega
  · rw [Nat.mod_eq_sub_mod (Nat.not_lt.mp hwrap), Nat.mod_eq_of_lt (by omega)] at hback
    omega

theorem add_ofNat_ahead (a x : BitVec w) : a + BitVec.ofNat w (ahead a x) = x := by
  rw [ahead, ofNat_toNat, setWidth_eq, add_comm, sub_add_cancel]

theorem ahead_add_ofNat (s : BitVec w) {u n : Nat} (h : u ≤ n) :
    ahead (s + BitVec.ofNat w u) (s + BitVec.ofNat w n) = (n - u) % 2 ^ w := by
  have hsum : s + BitVec.ofNat w n = s + BitVec.ofNat w u + BitVec.ofNat w (n - u) := by
    rw [BitVec.add_assoc, ← ofNat_add, Nat.add_sub_cancel' h]
  rw [hsum, ahead_add, ahead_self, Nat.zero_add, toNat_ofNat, Nat.mod_mod]

/-! ## Comparison patterns -/

section

variable {a b x : BitVec w}

theorem ahead_lt_iff_of_le (h : a ≤ b) : ahead a x < ahead a b ↔ a ≤ x ∧ x < b := by
  by_cases hax : a ≤ x
  · simp only [ahead_of_le h, ahead_of_le hax, le_def, lt_def] at *
    omega
  · simp only [ahead_of_le h, ahead_of_not_le hax, le_def, lt_def] at *
    omega

theorem ahead_lt_iff_of_not_le (h : ¬ a ≤ b) : ahead a x < ahead a b ↔ a ≤ x ∨ x < b := by
  by_cases hax : a ≤ x
  · simp only [ahead_of_not_le h, ahead_of_le hax, le_def, lt_def] at *
    omega
  · simp only [ahead_of_not_le h, ahead_of_not_le hax, le_def, lt_def] at *
    omega

theorem ahead_le_iff_of_le (h : a ≤ b) : ahead a x ≤ ahead a b ↔ a ≤ x ∧ x ≤ b := by
  by_cases hax : a ≤ x
  · simp only [ahead_of_le h, ahead_of_le hax, le_def] at *
    omega
  · simp only [ahead_of_le h, ahead_of_not_le hax, le_def] at *
    omega

theorem ahead_le_iff_of_not_le (h : ¬ a ≤ b) : ahead a x ≤ ahead a b ↔ a ≤ x ∨ x ≤ b := by
  by_cases hax : a ≤ x
  · simp only [ahead_of_not_le h, ahead_of_le hax, le_def] at *
    omega
  · simp only [ahead_of_not_le h, ahead_of_not_le hax, le_def] at *
    omega

end

/-! ## Two arcs

The points `x` with `ahead a x < m` form the arc of length `m` that starts at `a`. -/

section

variable {a b : BitVec w} {m n : Nat}

theorem ahead_le_or_ahead_le (a b x : BitVec w) :
    ahead a b ≤ ahead a x ∨ ahead b a ≤ ahead b x := by
  rcases eq_or_ne a b with rfl | hne
  · exact Or.inl (by simp)
  · have hring := ahead_add_ahead hne
    have hax := ahead_trans a b x
    by_cases hwrap : ahead a b + ahead b x < 2 ^ w
    · left
      rw [Nat.mod_eq_of_lt hwrap] at hax
      omega
    · -- going over `b` passes `x`, so `a` lies between `b` and `x`
      right
      omega

theorem exists_mem_both_iff (hm : 0 < m) (hn : 0 < n) :
    (∃ x, ahead a x < m ∧ ahead b x < n) ↔ ahead a b < m ∨ ahead b a < n := by
  constructor
  · rintro ⟨x, ha, hb⟩
    apply (ahead_le_or_ahead_le a b x).imp
    · exact fun h => lt_of_le_of_lt h ha
    · exact fun h => lt_of_le_of_lt h hb
  · rintro (h | h)
    · exact ⟨b, h, by rwa [ahead_self]⟩
    · exact ⟨a, by rwa [ahead_self], h⟩

theorem mem_both_iff (hfit : m + n ≤ 2 ^ w) (h : ahead a b < m) (x : BitVec w) :
    ahead a x < m ∧ ahead b x < n ↔ ahead b x < min n (m - ahead a b) := by
  have hax := ahead_trans a b x
  rw [lt_min_iff]
  constructor
  · rintro ⟨ha, hb⟩
    rw [Nat.mod_eq_of_lt (by omega)] at hax
    omega
  · rintro ⟨hb, hcut⟩
    rw [Nat.mod_eq_of_lt (by omega)] at hax
    omega

end

end MtpXdp.Core

import Mathlib.Algebra.BigOperators.Group.List.Basic
import Mathlib.Algebra.Ring.Nat

/-!
# Streams Cut into Pieces

A byte stream that is handed on in pieces is a list of pieces with a length
each. An offset in the stream is a *boundary* when a piece ends there.
-/

namespace MtpXdp.Core

universe u

variable {α : Type u} (len : α → Nat)

def total (l : List α) : Nat := (l.map len).sum

/-- The first `a` units of the stream are whole pieces. -/
def Boundary (l : List α) (a : Nat) : Prop := ∃ n, total len (l.take n) = a

/-- The pieces that lie completely in the first `a` units of the stream. -/
def covered : List α → Nat → List α
  | [], _ => []
  | x :: xs, a => if len x ≤ a then x :: covered xs (a - len x) else []

variable {len} {l m : List α} {x : α} {a b : Nat}

@[simp] theorem total_nil : total len [] = 0 := rfl

@[simp] theorem total_cons : total len (x :: l) = len x + total len l := by
  simp [total]

@[simp] theorem total_append : total len (l ++ m) = total len l + total len m := by
  simp [total]

theorem len_le_total (h : x ∈ l) : len x ≤ total len l := by
  induction l with
  | nil => exact absurd h List.not_mem_nil
  | cons y l ih =>
    rcases List.mem_cons.mp h with rfl | hmem
    · exact Nat.le_add_right _ _
    · exact Nat.le_add_left_of_le (ih hmem)

theorem total_pos (hne : l ≠ []) (hpos : ∀ x ∈ l, 0 < len x) : 0 < total len l := by
  obtain ⟨y, hy⟩ := List.exists_mem_of_ne_nil l hne
  exact Nat.lt_of_lt_of_le (hpos y hy) (len_le_total hy)

@[simp] theorem covered_nil : covered len [] a = [] := rfl

@[simp] theorem boundary_zero : Boundary len l 0 := ⟨0, by simp⟩

@[simp] theorem boundary_nil : Boundary len [] a ↔ a = 0 := by
  constructor
  · rintro ⟨n, rfl⟩
    simp
  · rintro rfl
    exact boundary_zero

theorem boundary_cons :
    Boundary len (x :: l) a ↔ a = 0 ∨ len x ≤ a ∧ Boundary len l (a - len x) := by
  constructor
  · rintro ⟨n, rfl⟩
    cases n with
    | zero => simp
    | succ n =>
      refine .inr ⟨?_, n, ?_⟩
      · rw [List.take_succ_cons, total_cons]
        exact Nat.le_add_right _ _
      · rw [List.take_succ_cons, total_cons, Nat.add_sub_cancel_left]
  · rintro (rfl | ⟨hle, n, hn⟩)
    · exact boundary_zero
    · refine ⟨n + 1, ?_⟩
      rw [List.take_succ_cons, total_cons, hn]
      omega

theorem boundary_tail (h : Boundary len (x :: l) a) (hx : len x ≤ a) :
    Boundary len l (a - len x) := by
  rcases boundary_cons.mp h with rfl | ⟨-, hb⟩
  · simp
  · exact hb

theorem boundary_eq_zero_of_lt (h : Boundary len (x :: l) a) (hx : a < len x) : a = 0 := by
  rcases boundary_cons.mp h with rfl | ⟨hle, -⟩
  · rfl
  · exact absurd hle (Nat.not_le.mpr hx)

instance decidableBoundary : (l : List α) → (a : Nat) → Decidable (Boundary len l a)
  | [], a => decidable_of_iff (a = 0) boundary_nil.symm
  | x :: xs, a =>
    have := decidableBoundary xs (a - len x)
    decidable_of_iff (a = 0 ∨ len x ≤ a ∧ Boundary len xs (a - len x)) boundary_cons.symm

theorem covered_of_lt (hx : a < len x) : covered len (x :: l) a = [] := by
  rw [covered, if_neg (Nat.not_le.mpr hx)]

theorem covered_of_le (hx : len x ≤ a) :
    covered len (x :: l) a = x :: covered len l (a - len x) := by
  rw [covered, if_pos hx]

theorem covered_zero (hpos : ∀ x ∈ l, 0 < len x) : covered len l 0 = [] := by
  cases l with
  | nil => rfl
  | cons x xs => exact covered_of_lt (hpos x List.mem_cons_self)

theorem covered_add (h : Boundary len l a) (b : Nat) : covered len l (a + b) =
      covered len l a ++ covered len (l.drop (covered len l a).length) b := by
  induction l generalizing a with
  | nil => simp
  | cons x xs ih =>
    by_cases hx : len x ≤ a
    · have hrest := boundary_tail h hx
      rw [covered_of_le hx, covered_of_le (Nat.le_add_right_of_le hx), Nat.sub_add_comm hx,
        ih hrest]
      simp
    · -- a boundary before the end of the first piece is the start of the stream
      obtain rfl := boundary_eq_zero_of_lt h (Nat.not_le.mp hx)
      rw [covered_of_lt (Nat.not_le.mp hx)]
      simp

theorem total_covered (h : Boundary len l a) : total len (l.take (covered len l a).length) = a := by
  induction l generalizing a with
  | nil => simpa using (boundary_nil.mp h).symm
  | cons x xs ih =>
    by_cases hx : len x ≤ a
    · rw [covered_of_le hx, List.length_cons, List.take_succ_cons, total_cons,
        ih (boundary_tail h hx), Nat.add_sub_cancel' hx]
    · obtain rfl := boundary_eq_zero_of_lt h (Nat.not_le.mp hx)
      rw [covered_of_lt (Nat.not_le.mp hx)]
      simp

theorem boundary_add (h : Boundary len l a) (b : Nat) :
    Boundary len l (a + b) ↔ Boundary len (l.drop (covered len l a).length) b := by
  induction l generalizing a with
  | nil =>
    have ha : a = 0 := boundary_nil.mp h
    simp [ha]
  | cons x xs ih =>
    by_cases hx : len x ≤ a
    · have hrest := boundary_tail h hx
      rw [covered_of_le hx, List.length_cons, List.drop_succ_cons, ← ih hrest, boundary_cons,
        Nat.sub_add_comm hx]
      constructor
      · rintro (h0 | ⟨-, hb⟩)
        · have : a - len x + b = 0 := by omega
          rw [this]
          exact boundary_zero
        · exact hb
      · intro hb
        exact .inr ⟨Nat.le_add_right_of_le hx, hb⟩
    · obtain rfl := boundary_eq_zero_of_lt h (Nat.not_le.mp hx)
      rw [covered_of_lt (Nat.not_le.mp hx)]
      simp

end MtpXdp.Core

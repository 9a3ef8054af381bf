import Mathlib.Algebra.BigOperators.Group.Finset.Basic
import Mathlib.Data.Nat.ModEq

/-!
# Timing Wheels

Items wait for numbered time slots in a ring of `n` buckets: slot `s` uses bucket `s % n`. A front
runs over the slots, up to the current one, and takes what it finds. It tells a slot from the one a
lap later only if no item waits for a slot `n` or more ahead.
-/

namespace MtpXdp.Core

open List Nat

universe u

structure Wheel (α : Type u) where
  front : Nat
  bucket : Nat → List α

namespace Wheel

variable {α : Type u}

def nearest (n : Nat) (w : Wheel α) (s : Nat) : Nat :=
  if s ≤ w.front then w.front else if w.front + n - 1 < s then w.front + n - 1 else s

def setBucket (w : Wheel α) (i : Nat) (l : List α) : Wheel α :=
  { w with bucket := Function.update w.bucket i l }

def push (w : Wheel α) (i : Nat) (x : α) : Wheel α := w.setBucket i (w.bucket i ++ [x])

/-- Let the front run over at most `fuel` slots, up to the current one, until it finds an item. -/
def advance (n now : Nat) : Nat → Wheel α → Option α × Wheel α
  | 0, w => (none, w)
  | fuel + 1, w =>
    if now < w.front then (none, w)
    else
      match w.bucket (w.front % n) with
      | [] => advance n now fuel { w with front := w.front + 1 }
      | x :: xs => (some x, w.setBucket (w.front % n) xs)

def size (n : Nat) (w : Wheel α) : Nat := ∑ i ∈ Finset.range n, (w.bucket i).length

structure Placed (n : Nat) (slot : α → Nat) (w : Wheel α) : Prop where
  mod_eq : ∀ i, ∀ x ∈ w.bucket i, slot x % n = i
  lt : ∀ i, ∀ x ∈ w.bucket i, slot x < w.front + n

def All (P : α → Prop) (w : Wheel α) : Prop := ∀ i, ∀ x ∈ w.bucket i, P x

variable {n now fuel : Nat} {slot : α → Nat} {w w' : Wheel α} {x : α} {i : Nat} {P : α → Prop}

@[simp] theorem setBucket_bucket_self (w : Wheel α) (i : Nat) (l : List α) :
    (w.setBucket i l).bucket i = l := Function.update_self ..

theorem setBucket_bucket_of_ne {j : Nat} (w : Wheel α) (l : List α) (h : j ≠ i) :
    (w.setBucket i l).bucket j = w.bucket j := Function.update_of_ne h ..

theorem mem_push {j : Nat} {y : α} (h : y ∈ (w.push i x).bucket j) :
    y ∈ w.bucket j ∨ (y = x ∧ j = i) := by
  unfold push at h
  by_cases hj : j = i
  · subst hj
    rw [setBucket_bucket_self, mem_append, mem_singleton] at h
    exact h.imp_right (fun heq => ⟨heq, rfl⟩)
  · rw [setBucket_bucket_of_ne _ _ hj] at h
    exact Or.inl h

theorem mem_setBucket {j : Nat} {y : α} {l : List α} (hsub : ∀ y ∈ l, y ∈ w.bucket i)
    (h : y ∈ (w.setBucket i l).bucket j) : y ∈ w.bucket j := by
  by_cases hj : j = i
  · subst hj
    rw [setBucket_bucket_self] at h
    exact hsub y h
  · rwa [setBucket_bucket_of_ne w l hj] at h

/-- The front passes `k` empty buckets, and stops there or takes the first item of the next one. -/
theorem advance_spec (n now fuel : Nat) (w : Wheel α) :
    ∃ k, (∀ j < k, w.bucket ((w.front + j) % n) = []) ∧
      (w.advance n now fuel = (none, { w with front := w.front + k }) ∨
        ∃ x xs, w.front + k ≤ now ∧ w.bucket ((w.front + k) % n) = x :: xs ∧
          w.advance n now fuel =
            (some x, setBucket { w with front := w.front + k } ((w.front + k) % n) xs)) := by
  induction fuel generalizing w with
  | zero => exact ⟨0, nofun, .inl rfl⟩
  | succ fuel ih =>
    unfold Wheel.advance
    split_ifs with hnow
    · exact ⟨0, nofun, .inl rfl⟩
    · cases hbucket : w.bucket (w.front % n) with
      | nil =>
        obtain ⟨k, hempty, hr⟩ := ih { w with front := w.front + 1 }
        refine ⟨k + 1, fun j hj => ?_, ?_⟩
        · cases j with
          | zero => exact hbucket
          | succ j =>
            rw [add_comm j, ← add_assoc]
            exact hempty j (lt_of_succ_lt_succ hj)
        · rwa [add_comm k, ← add_assoc]
      | cons x xs => exact ⟨0, nofun, .inr ⟨x, xs, Nat.le_of_not_lt hnow, hbucket, rfl⟩⟩

/-! ## Slots in reach -/

theorem front_le_nearest (hn : 0 < n) (w : Wheel α) (s : Nat) : w.front ≤ w.nearest n s := by
  unfold nearest
  split_ifs <;> omega

theorem nearest_lt (hn : 0 < n) (w : Wheel α) (s : Nat) : w.nearest n s < w.front + n := by
  unfold nearest
  split_ifs <;> omega

theorem le_nearest {s : Nat} (h : s ≤ w.front + n - 1) : s ≤ w.nearest n s := by
  unfold nearest
  split_ifs <;> omega

/-! ## Nothing is taken early -/

section

variable (h : Placed n slot w)
include h

theorem Placed.slot_le_front (hx : x ∈ w.bucket (w.front % n)) : slot x ≤ w.front := by
  by_contra hlt
  have hmod : w.front ≡ slot x [MOD n] := (h.mod_eq _ x hx).symm
  have hdvd := (Nat.modEq_iff_dvd' (Nat.le_of_not_le hlt)).mp hmod
  have hle := le_of_dvd (by omega) hdvd
  have hlap := h.lt _ x hx
  omega

theorem Placed.setBucket {l : List α} (hsub : ∀ y ∈ l, y ∈ w.bucket i) :
    Placed n slot (w.setBucket i l) :=
  ⟨fun j y hy => h.mod_eq j y (mem_setBucket hsub hy),
    fun j y hy => h.lt j y (mem_setBucket hsub hy)⟩

theorem Placed.push (hlt : slot x < w.front + n) : Placed n slot (w.push (slot x % n) x) := by
  constructor
  · intro j y hy
    rcases mem_push hy with hold | ⟨rfl, rfl⟩
    · exact h.mod_eq j y hold
    · rfl
  · intro j y hy
    rcases mem_push hy with hold | ⟨rfl, rfl⟩
    · exact h.lt j y hold
    · exact hlt

theorem Placed.setFront {front : Nat} (hle : w.front ≤ front) :
    Placed n slot { w with front := front } :=
  ⟨h.mod_eq, fun j y hy => Nat.lt_of_lt_of_le (h.lt j y hy) (Nat.add_le_add_right hle n)⟩

theorem Placed.advance : Placed n slot (w.advance n now fuel).2 := by
  obtain ⟨k, -, hr | ⟨x, xs, -, hbucket, hr⟩⟩ := advance_spec n now fuel w
  · rw [hr]
    exact h.setFront (Nat.le_add_right ..)
  · rw [hr]
    refine (h.setFront (Nat.le_add_right ..)).setBucket fun y hy => ?_
    rw [hbucket]
    exact mem_cons_of_mem x hy

theorem slot_le_of_advance (ht : w.advance n now fuel = (some x, w')) : slot x ≤ now := by
  obtain ⟨k, -, hr | ⟨y, ys, hnow, hbucket, hr⟩⟩ := advance_spec n now fuel w
  · rw [hr] at ht
    cases ht
  · obtain rfl : y = x := by simpa [hr] using congrArg Prod.fst ht
    have hplaced := h.setFront (le_add_right w.front k)
    exact (hplaced.slot_le_front (x := y) (by rw [hbucket]; exact mem_cons_self)).trans hnow

end

/-! ## Properties of the items -/

theorem All.push (h : All P w) (hx : P x) (i : Nat) : All P (w.push i x) := by
  intro j y hy
  rcases mem_push hy with hold | ⟨rfl, -⟩
  · exact h j y hold
  · exact hx

theorem All.advance (n now fuel : Nat) (h : All P w) :
    All P (w.advance n now fuel).2 ∧ ∀ x ∈ (w.advance n now fuel).1, P x := by
  obtain ⟨k, -, hr | ⟨x, xs, -, hbucket, hr⟩⟩ := advance_spec n now fuel w
  · rw [hr]
    exact ⟨h, by simp⟩
  · have hmem : ∀ y ∈ x :: xs, y ∈ w.bucket ((w.front + k) % n) := by
      rw [hbucket]
      exact fun y hy => hy
    rw [hr]
    refine ⟨fun j y hy => h j y ?_, fun y hy => ?_⟩
    · exact mem_setBucket (w := w) (fun z hz => hmem z (mem_cons_of_mem x hz)) hy
    · obtain rfl : x = y := by simpa using hy
      exact h _ x (hmem x mem_cons_self)

/-! ## Nothing is lost -/

theorem size_setBucket (hi : i < n) (w : Wheel α) (l : List α) :
    (w.setBucket i l).size n + (w.bucket i).length = w.size n + l.length := by
  have hmem := Finset.mem_range.mpr hi
  unfold size
  rw [← Finset.add_sum_erase _ _ hmem, ← Finset.add_sum_erase _ (fun j => (w.bucket j).length) hmem,
    setBucket_bucket_self]
  have hrest : ∑ j ∈ (Finset.range n).erase i, ((w.setBucket i l).bucket j).length =
      ∑ j ∈ (Finset.range n).erase i, (w.bucket j).length := by
    apply Finset.sum_congr rfl
    intro j hj
    rw [setBucket_bucket_of_ne w l (Finset.ne_of_mem_erase hj)]
  omega

theorem size_push (hi : i < n) (w : Wheel α) (x : α) : (w.push i x).size n = w.size n + 1 := by
  have h := size_setBucket hi w (w.bucket i ++ [x])
  rw [length_append, length_singleton] at h
  unfold push
  omega

theorem size_advance (hn : 0 < n) (w : Wheel α) :
    (w.advance n now fuel).2.size n + (w.advance n now fuel).1.toList.length = w.size n := by
  obtain ⟨k, -, hr | ⟨x, xs, -, hbucket, hr⟩⟩ := advance_spec n now fuel w
  · rw [hr]
    rfl
  · have h := size_setBucket (mod_lt (w.front + k) hn) w xs
    rw [hbucket, length_cons] at h
    rw [hr]
    change (w.setBucket ((w.front + k) % n) xs).size n + 1 = w.size n
    omega

theorem advance_sublist (n now fuel : Nat) (w : Wheel α) (j : Nat) :
    ((w.advance n now fuel).2.bucket j).Sublist (w.bucket j) := by
  obtain ⟨k, -, hr | ⟨x, xs, -, hbucket, hr⟩⟩ := advance_spec n now fuel w
  · rw [hr]
  · rw [hr]
    by_cases hj : j = (w.front + k) % n
    · rw [hj, setBucket_bucket_self, hbucket]
      exact sublist_cons_self x xs
    · rw [setBucket_bucket_of_ne _ xs hj]

/-! ## Slots in order -/

/-- No item is for a slot that the front has passed. -/
structure Within (n : Nat) (slot : α → Nat) (w : Wheel α) : Prop extends Placed n slot w where
  ge : ∀ i, ∀ x ∈ w.bucket i, w.front ≤ slot x

/-- The items for slot `s`, in the order they came. -/
def queue (n : Nat) (slot : α → Nat) (w : Wheel α) (s : Nat) : List α :=
  (w.bucket (s % n)).filter (slot · = s)

theorem queue_push (s : Nat) (w : Wheel α) (x : α) :
    (w.push (slot x % n) x).queue n slot s = w.queue n slot s ++ [x].filter (slot · = s) := by
  unfold queue push
  by_cases hs : s % n = slot x % n
  · rw [hs, setBucket_bucket_self, filter_append]
  · have hne : slot x ≠ s := fun h => hs (h ▸ rfl)
    rw [setBucket_bucket_of_ne _ _ hs, filter_cons_of_neg (by simpa using hne), filter_nil,
      append_nil]

theorem queue_setBucket {xs : List α} (hx : slot x = w.front)
    (hbucket : w.bucket (w.front % n) = x :: xs) (s : Nat) :
    [x].filter (slot · = s) ++ (w.setBucket (w.front % n) xs).queue n slot s =
      w.queue n slot s := by
  unfold queue
  by_cases hs : s % n = w.front % n
  · rw [hs, setBucket_bucket_self, hbucket, ← filter_append, singleton_append]
  · have hne : slot x ≠ s := fun h => hs (by rw [← h, hx])
    rw [setBucket_bucket_of_ne _ _ hs, filter_cons_of_neg (by simpa using hne), filter_nil,
      nil_append]

section

variable (h : Within n slot w)
include h

theorem Within.slot_eq_front (hx : x ∈ w.bucket (w.front % n)) : slot x = w.front :=
  le_antisymm (h.slot_le_front hx) (h.ge _ x hx)

theorem Within.push (hle : w.front ≤ slot x) (hlt : slot x < w.front + n) :
    Within n slot (w.push (slot x % n) x) where
  toPlaced := h.toPlaced.push hlt
  ge j y hy := by
    rcases mem_push hy with hold | ⟨rfl, rfl⟩
    · exact h.ge j y hold
    · exact hle

/-- The front may leave empty buckets: the items for their slots would be there. -/
theorem Within.pass {k : Nat} (hempty : ∀ j < k, w.bucket ((w.front + j) % n) = []) :
    Within n slot { w with front := w.front + k } where
  toPlaced := h.setFront (Nat.le_add_right ..)
  ge i y hy := by
    by_contra hlt
    obtain ⟨j, hj⟩ := Nat.exists_eq_add_of_le (h.ge i y hy)
    have hmod := h.mod_eq i y hy
    rw [hj] at hmod hlt
    rw [← hmod, hempty j (Nat.lt_of_add_lt_add_left (Nat.lt_of_not_le hlt))] at hy
    exact not_mem_nil hy

/-- What one call does: the front moves on, and the item it takes is the first one for its slot. -/
theorem Within.advance (now fuel : Nat) : Within n slot (w.advance n now fuel).2 ∧
      w.front ≤ (w.advance n now fuel).2.front ∧
      (∀ x ∈ (w.advance n now fuel).1, slot x = (w.advance n now fuel).2.front) ∧
      ∀ s, (w.advance n now fuel).1.toList.filter (slot · = s) ++
        (w.advance n now fuel).2.queue n slot s = w.queue n slot s := by
  obtain ⟨k, hempty, hr | ⟨x, xs, -, hbucket, hr⟩⟩ := advance_spec n now fuel w
  · rw [hr]
    exact ⟨h.pass hempty, Nat.le_add_right .., by simp, fun _ => rfl⟩
  · have hpass := h.pass hempty
    have hmem : ∀ y ∈ x :: xs, y ∈ w.bucket ((w.front + k) % n) := by
      rw [hbucket]
      exact fun y hy => hy
    have hfront : slot x = w.front + k := hpass.slot_eq_front (hmem x mem_cons_self)
    have hsub : ∀ y ∈ xs, y ∈ w.bucket ((w.front + k) % n) := fun y hy =>
      hmem y (mem_cons_of_mem x hy)
    rw [hr]
    refine ⟨⟨hpass.setBucket hsub, fun i y hy => hpass.ge i y (mem_setBucket hsub hy)⟩,
      Nat.le_add_right .., ?_,
      queue_setBucket (w := { w with front := w.front + k }) hfront hbucket⟩
    rintro y ⟨⟩
    exact hfront

end

/-! ## The way of the front -/

theorem advance_of_empty (fuel : Nat) {d : Nat} (w : Wheel α)
    (hempty : ∀ k < d, w.bucket ((w.front + k) % n) = []) (hnow : w.front + d ≤ now + 1) :
    w.advance n now (d + fuel) = Wheel.advance n now fuel { w with front := w.front + d } := by
  induction d generalizing w with
  | zero => rw [zero_add, add_zero]
  | succ d ih =>
    have hfirst : w.bucket (w.front % n) = [] := hempty 0 (succ_pos d)
    have hrest : ∀ k < d, w.bucket ((w.front + 1 + k) % n) = [] := by
      intro k hk
      rw [show w.front + 1 + k = w.front + (k + 1) by omega]
      exact hempty (k + 1) (succ_lt_succ hk)
    rw [show d + 1 + fuel = d + fuel + 1 by omega, Wheel.advance, if_neg (by omega), hfirst]
    rw [ih { w with front := w.front + 1 } hrest (by dsimp only; omega)]
    rw [show w.front + 1 + d = w.front + (d + 1) by omega]

theorem advance_of_found {xs : List α} (hnow : w.front ≤ now)
    (hbucket : w.bucket (w.front % n) = x :: xs) :
    w.advance n now (fuel + 1) = (some x, w.setBucket (w.front % n) xs) := by
  rw [Wheel.advance, if_neg (by omega), hbucket]

end Wheel

end MtpXdp.Core

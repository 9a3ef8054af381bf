import Mathlib.Data.Finset.Card

/-!
# Messages Put Together from Pieces

Messages are cut into pieces of size `m`, which arrive in any order and mixed. The first piece of a
longer message gets a buffer, the others are copied to it, and a count of the missing pieces tells
when the message is complete. `Assembling` relates the buffers to what has arrived.
-/

namespace MtpXdp.Core

open List Function Option

universe u v

def pieceCount (m len : Nat) : Nat := (len + m - 1) / m

theorem pieceCount_le_iff {m : Nat} (hm : 0 < m) (len k : Nat) :
    pieceCount m len ≤ k ↔ len ≤ k * m := by
  unfold pieceCount
  rw [← Nat.lt_succ_iff, Nat.div_lt_iff_lt_mul hm, Nat.succ_mul]
  omega

theorem lt_pieceCount_iff {m : Nat} (hm : 0 < m) (len k : Nat) :
    k < pieceCount m len ↔ k * m < len := by
  rw [← Nat.not_le, pieceCount_le_iff hm, Nat.not_le]

theorem div_lt_pieceCount {m : Nat} (hm : 0 < m) {len j : Nat} (hj : j < len) :
    j / m < pieceCount m len := by
  rw [lt_pieceCount_iff hm]
  exact (Nat.div_mul_le_self j m).trans_lt hj

theorem one_lt_pieceCount {m : Nat} (hm : 0 < m) {len : Nat} (h : m < len) :
    1 < pieceCount m len := by
  rwa [lt_pieceCount_iff hm, Nat.one_mul]

variable {κ : Type u} {α : Type v} {m : Nat} {msg : κ → List α} {arrived : κ → List Nat}
  {mem mem' : Nat → Nat → α} {held : κ → Option (Nat × Nat)} {k : κ} {i b c : Nat}

structure PieceCopied (m : Nat) (msg : κ → List α) (mem mem' : Nat → Nat → α) (k : κ) (i b : Nat) :
    Prop where
  others : ∀ x, x ≠ b → mem' x = mem x
  outside : ∀ j, j / m ≠ i → mem' b j = mem b j
  inside : ∀ j, j / m = i → j < (msg k).length → (msg k)[j]? = some (mem' b j)

/-- `held` has the buffers of the messages in part there, with the pieces that have arrived and the
    number of those missing. -/
structure Assembling (m : Nat) (msg : κ → List α) (arrived : κ → List Nat)
    (mem : Nat → Nat → α) (held : κ → Option (Nat × Nat)) : Prop where
  nodup : ∀ k, (arrived k).Nodup
  bound : ∀ k, ∀ i ∈ arrived k, i < pieceCount m (msg k).length
  held_iff : ∀ k, (held k).isSome = true ↔ m < (msg k).length ∧ arrived k ≠ [] ∧
    (arrived k).length < pieceCount m (msg k).length
  missing : ∀ k b c, held k = some (b, c) →
    c + (arrived k).length = pieceCount m (msg k).length
  stored : ∀ k b c, held k = some (b, c) → ∀ j < (msg k).length, j / m ∈ arrived k →
    (msg k)[j]? = some (mem b j)
  distinct : ∀ k l b c d, held k = some (b, c) → held l = some (b, d) → k = l

namespace Assembling

theorem empty (harrived : ∀ k, arrived k = []) (hheld : ∀ k, held k = none) :
    Assembling m msg arrived mem held where
  nodup k := harrived k ▸ nodup_nil
  bound k i hi := absurd hi (harrived k ▸ not_mem_nil)
  held_iff k := by
    rw [hheld k]
    exact iff_of_false (by simp) fun h => h.2.1 (harrived k)
  missing k b c h := absurd h (by rw [hheld k]; simp)
  stored k b c h := absurd h (by rw [hheld k]; simp)
  distinct k l b c d h := absurd h (by rw [hheld k]; simp)

section

variable (h : Assembling m msg arrived mem held) (hi : i < pieceCount m (msg k).length)
  (hnew : i ∉ arrived k)

include h hi hnew

omit hnew in
theorem arrive_subset : (i :: arrived k).toFinset ⊆ Finset.range (pieceCount m (msg k).length) := by
  intro x hx
  rw [Finset.mem_range]
  rcases List.mem_cons.mp (List.mem_toFinset.mp hx) with rfl | hx
  · exact hi
  · exact h.bound k x hx

theorem length_lt : (arrived k).length < pieceCount m (msg k).length := by
  have hcard := Finset.card_le_card (h.arrive_subset hi)
  rw [toFinset_card_of_nodup (nodup_cons.mpr ⟨hnew, h.nodup k⟩), Finset.card_range,
    length_cons] at hcard
  exact hcard

theorem arrived_nil (hm : m < (msg k).length) (hnone : held k = none) : arrived k = [] := by
  by_contra hne
  have hsome := (h.held_iff k).mpr ⟨hm, hne, h.length_lt hi hnew⟩
  rw [hnone] at hsome
  exact absurd hsome (by simp)

variable [DecidableEq κ]

omit hi in
theorem arrive_nodup (l : κ) : (update arrived k (i :: arrived k) l).Nodup := by
  grind [h.nodup l]

omit hnew in
theorem arrive_bound (l : κ) : ∀ x ∈ update arrived k (i :: arrived k) l,
    x < pieceCount m (msg l).length := by
  intro x hx
  by_cases hl : l = k
  · subst hl
    rw [update_self] at hx
    rcases mem_cons.mp hx with rfl | hx
    · exact hi
    · exact h.bound l x hx
  · rw [update_of_ne hl] at hx
    exact h.bound l x hx

theorem single (hm : (msg k).length ≤ m) :
    Assembling m msg (update arrived k (i :: arrived k)) mem held := by
  have hfree (b c : Nat) : held k ≠ some (b, c) := by
    intro hk
    have := (h.held_iff k).mp (by rw [hk]; rfl)
    omega
  refine ⟨h.arrive_nodup hnew, h.arrive_bound hi, ?_, ?_, ?_, h.distinct⟩
  · intro l
    grind [h.held_iff l]
  · intro l b c hheld
    grind [h.missing l b c hheld]
  · intro l b c hheld
    grind [h.stored l b c hheld]

theorem put (hm : m < (msg k).length) (hown : ∀ x c, held k = some (x, c) → x = b)
    (hothers : ∀ l, l ≠ k → ∀ c, held l ≠ some (b, c)) (hcopy : PieceCopied m msg mem mem' k i b) :
    Assembling m msg (update arrived k (i :: arrived k)) mem' (update held k
        (if (arrived k).length + 1 < pieceCount m (msg k).length then
          some (b, pieceCount m (msg k).length - ((arrived k).length + 1)) else none)) := by
  refine ⟨h.arrive_nodup hnew, h.arrive_bound hi, ?_, ?_, ?_, ?_⟩
  · intro l
    grind [h.held_iff l]
  · intro l x c hheld
    grind [h.missing l x c]
  · intro l x c hheld j hj hmem
    by_cases hl : l = k
    · subst hl
      rw [update_self] at hheld hmem
      split_ifs at hheld with hmore
      obtain ⟨rfl, -⟩ := Prod.mk.inj (some.inj hheld)
      by_cases hji : j / m = i
      · exact hcopy.inside j hji hj
      · -- an earlier piece, which is in the same buffer
        have hmem := (mem_cons.mp hmem).resolve_left hji
        have hsome := (h.held_iff l).mpr
          ⟨hm, ne_nil_of_mem hmem, h.length_lt hi hnew⟩
        obtain ⟨⟨x, d⟩, hx⟩ := isSome_iff_exists.mp hsome
        obtain rfl := hown x d hx
        rw [hcopy.outside j hji]
        exact h.stored l x d hx j hj hmem
    · rw [update_of_ne hl] at hheld hmem
      grind [hcopy.others x, h.stored l x c hheld j hj hmem]
  · intro l l' x c d hheld hheld'
    grind [h.distinct l l' x c d, hothers l, hothers l']

omit [DecidableEq κ] in
theorem complete (hpos : 0 < m)
    (hown : held k = some (b, c)) (hcopy : PieceCopied m msg mem mem' k i b)
    (hlast : (arrived k).length + 1 = pieceCount m (msg k).length) :
    ∀ j < (msg k).length, (msg k)[j]? = some (mem' b j) := by
  have hcard : (Finset.range (pieceCount m (msg k).length)).card ≤
      (i :: arrived k).toFinset.card := by
    rw [List.toFinset_card_of_nodup (List.nodup_cons.mpr ⟨hnew, h.nodup k⟩), Finset.card_range,
      length_cons, hlast]
  have hall := Finset.eq_of_subset_of_card_le (h.arrive_subset hi) hcard
  intro j hj
  -- every place belongs to a piece that is there
  have hmem : j / m ∈ (i :: arrived k).toFinset := by
    rw [hall, Finset.mem_range]
    exact div_lt_pieceCount hpos hj
  by_cases hji : j / m = i
  · exact hcopy.inside j hji hj
  · rw [hcopy.outside j hji]
    exact h.stored k b c hown j hj ((mem_cons.mp (mem_toFinset.mp hmem)).resolve_left hji)

end

theorem congr (h : Assembling m msg arrived mem held)
    (hmem : ∀ k b c, held k = some (b, c) → mem' b = mem b) :
    Assembling m msg arrived mem' held where
  nodup := h.nodup
  bound := h.bound
  held_iff := h.held_iff
  missing := h.missing
  stored k b c hheld := hmem k b c hheld ▸ h.stored k b c hheld
  distinct := h.distinct

end Assembling

end MtpXdp.Core

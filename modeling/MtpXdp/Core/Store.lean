import Mathlib.Data.List.Nodup
import Mathlib.Data.List.TakeDrop

/-!
# Objects and the Tables That Refer to Them

Two containers of a program with manual memory management: a heap of objects
named by their addresses, and a keyed table of references in the order in which
it is iterated.
-/

namespace MtpXdp.Core

open List Function Option

universe u v

/-! ## Heap -/

structure Heap (α : Type u) where
  cells : Nat → Option α
  next : Nat
  next_free : ∀ i, next ≤ i → cells i = none

namespace Heap

variable {α : Type u} {h : Heap α} {i j : Nat} {a b : α}

def empty : Heap α where
  cells _ := none
  next := 0
  next_free _ _ := rfl

def alloc (h : Heap α) (a : α) : Heap α where
  cells := update h.cells h.next (some a)
  next := h.next + 1
  next_free i hi := by
    rw [update_of_ne (by omega)]
    exact h.next_free i (by omega)

def modify (h : Heap α) (i : Nat) (f : α → α) : Heap α where
  cells := update h.cells i ((h.cells i).map f)
  next := h.next
  next_free j hj := by
    rcases eq_or_ne j i with rfl | hji
    · rw [update_self, h.next_free j hj, map_none]
    · rw [update_of_ne hji]
      exact h.next_free j hj

def free (h : Heap α) (i : Nat) : Heap α where
  cells := update h.cells i none
  next := h.next
  next_free j hj := by
    rcases eq_or_ne j i with rfl | hji
    · exact update_self ..
    · rw [update_of_ne hji]
      exact h.next_free j hj

theorem ne_next_of_some (hi : h.cells i = some a) : i ≠ h.next := by
  rintro rfl
  rw [h.next_free h.next (Nat.le_refl _)] at hi
  cases hi

@[simp] theorem cells_alloc_next (h : Heap α) (a : α) : (h.alloc a).cells h.next = some a :=
  update_self ..

theorem cells_alloc_of_ne (hi : i ≠ h.next) : (h.alloc a).cells i = h.cells i :=
  update_of_ne hi ..

@[simp] theorem cells_modify_self (h : Heap α) (i : Nat) (f : α → α) :
    (h.modify i f).cells i = (h.cells i).map f :=
  update_self ..

theorem cells_modify_of_ne {f : α → α} (hj : j ≠ i) : (h.modify i f).cells j = h.cells j :=
  update_of_ne hj ..

@[simp] theorem cells_free_self (h : Heap α) (i : Nat) : (h.free i).cells i = none :=
  update_self ..

theorem cells_free_of_ne (hj : j ≠ i) : (h.free i).cells j = h.cells j :=
  update_of_ne hj ..

/-! The same for any address. -/

@[grind =] theorem cells_alloc (h : Heap α) (a : α) (j : Nat) :
    (h.alloc a).cells j = if j = h.next then some a else h.cells j := update_apply ..

@[grind =] theorem cells_modify (h : Heap α) (i j : Nat) (f : α → α) :
    (h.modify i f).cells j = if j = i then (h.cells i).map f else h.cells j := update_apply ..

@[grind =] theorem cells_free (h : Heap α) (i j : Nat) :
    (h.free i).cells j = if j = i then none else h.cells j := update_apply ..

/-! Operations on one address in a row. -/

theorem modify_modify (h : Heap α) (i : Nat) (f g : α → α) :
    (h.modify i f).modify i g = h.modify i fun a => g (f a) := by
  simp [modify, comp_def]

theorem free_modify (h : Heap α) (i : Nat) (f : α → α) : (h.modify i f).free i = h.free i := by
  simp [free, modify]

/-! What can be found in a heap after an operation. -/

theorem cells_alloc_eq_some :
    (h.alloc a).cells j = some b ↔ (j = h.next ∧ b = a) ∨ h.cells j = some b := by
  rcases eq_or_ne j h.next with rfl | hj
  · simp [h.next_free h.next (Nat.le_refl _), eq_comm]
  · simp [cells_alloc_of_ne hj, hj]

theorem cells_modify_eq_some {f : α → α} : (h.modify i f).cells j = some b ↔
      ∃ a, h.cells j = some a ∧ b = if j = i then f a else a := by
  rcases eq_or_ne j i with rfl | hj
  · rw [cells_modify_self, map_eq_some_iff]
    simp only [if_true]
    exact exists_congr fun a => and_congr_right' eq_comm
  · simp [cells_modify_of_ne hj, hj]

theorem map_cells_modify {β : Type v} {f : α → α} {g : α → β}
    (hg : ∀ a, h.cells i = some a → g (f a) = g a) :
    ((h.modify i f).cells j).map g = (h.cells j).map g := by
  rcases eq_or_ne j i with rfl | hj
  · rw [cells_modify_self]
    cases hc : h.cells j with
    | none => rfl
    | some a => simp [hg a hc]
  · rw [cells_modify_of_ne hj]

theorem cells_free_eq_some : (h.free i).cells j = some b ↔ j ≠ i ∧ h.cells j = some b := by
  rcases eq_or_ne j i with rfl | hj
  · simp
  · simp [cells_free_of_ne hj, hj]

end Heap

/-! ## Table -/

structure Table (κ : Type u) (ν : Type v) where
  entries : List (κ × ν)
  nodup : (entries.map Prod.fst).Nodup

namespace Table

variable {κ : Type u} {ν : Type v} [DecidableEq ν] {t : Table κ ν} {k : κ} {v w : ν}

def empty : Table κ ν := ⟨[], nodup_nil⟩

def eraseVal (t : Table κ ν) (v : ν) : Table κ ν where
  entries := t.entries.eraseP (·.2 = v)
  nodup := t.nodup.sublist (List.eraseP_sublist.map _)

def keysOf (t : Table κ ν) (v : ν) : List κ :=
  (t.entries.filter (·.2 = v)).map Prod.fst

theorem mem_keysOf : k ∈ t.keysOf v ↔ (k, v) ∈ t.entries := by
  simp [keysOf]

theorem nodup_keysOf (t : Table κ ν) (v : ν) : (t.keysOf v).Nodup :=
  t.nodup.sublist (filter_sublist.map _)

theorem length_keysOf : (t.keysOf v).length = (t.entries.map Prod.snd).count v := by
  rw [keysOf, length_map, count, countP_map, countP_eq_length_filter]
  rfl

theorem keysOf_eraseVal_of_ne (hw : w ≠ v) : (t.eraseVal v).keysOf w = t.keysOf w := by
  have h : ∀ l : List (κ × ν), (l.eraseP (·.2 = v)).filter (·.2 = w) = l.filter (·.2 = w) := by
    intro l
    induction l with
    | nil => rfl
    | cons e l ih =>
      by_cases he : e.2 = v
      · -- the erased entry is not one of `w`'s
        rw [eraseP_cons_of_pos (by simpa using he),
          filter_cons_of_neg (by simpa [he] using Ne.symm hw)]
      · rw [eraseP_cons_of_neg (by simpa using he), filter_cons, filter_cons, ih]
  exact congrArg (map Prod.fst) (h t.entries)

theorem mem_eraseVal_of_ne {e : κ × ν} (he : e.2 ≠ v) :
    e ∈ (t.eraseVal v).entries ↔ e ∈ t.entries :=
  mem_eraseP_of_neg (by simpa using he)

theorem mem_of_mem_eraseVal {e : κ × ν} (he : e ∈ (t.eraseVal v).entries) : e ∈ t.entries :=
  mem_of_mem_eraseP he

theorem ne_of_mem_eraseVal (hv : (t.keysOf v).length ≤ 1) {e : κ × ν}
    (he : e ∈ (t.eraseVal v).entries) : e.2 ≠ v := by
  have h : ∀ l : List (κ × ν), (l.filter (·.2 = v)).length ≤ 1 →
      ∀ e ∈ l.eraseP (·.2 = v), e.2 ≠ v := by
    intro l
    induction l with
    | nil => simp
    | cons e l ih =>
      intro hl e' he'
      by_cases hev : e.2 = v
      · -- the first entry of `v` is also the last one
        rw [eraseP_cons_of_pos (by simpa using hev)] at he'
        rw [filter_cons_of_pos (by simpa using hev), length_cons] at hl
        have hnil := eq_nil_of_length_eq_zero (Nat.le_zero.mp (Nat.le_of_succ_le_succ hl))
        simpa using filter_eq_nil_iff.mp hnil e' he'
      · rw [eraseP_cons_of_neg (by simpa using hev)] at he'
        rw [filter_cons_of_neg (by simpa using hev)] at hl
        rcases mem_cons.mp he' with rfl | he'
        · exact hev
        · exact ih hl e' he'
  exact h t.entries (by simpa [keysOf] using hv) e he

variable [DecidableEq κ]

def insert (t : Table κ ν) (slot : Nat) (k : κ) (v : ν) : Table κ ν :=
  if hk : k ∈ t.entries.map Prod.fst then t
  else
    { entries := t.entries.take slot ++ (k, v) :: t.entries.drop slot
      nodup := by
        rw [map_append, List.map_cons, nodup_middle, ← map_append,
          take_append_drop]
        exact List.nodup_cons.mpr ⟨hk, t.nodup⟩ }

def eraseKey (t : Table κ ν) (k : κ) : Table κ ν where
  entries := t.entries.filter (·.1 ≠ k)
  nodup := t.nodup.sublist (List.filter_sublist.map _)

def lookup (t : Table κ ν) (k : κ) : Option ν :=
  (t.entries.find? (·.1 = k)).map Prod.snd

omit [DecidableEq ν] in
theorem lookup_eq_some : t.lookup k = some v ↔ (k, v) ∈ t.entries := by
  constructor
  · intro h
    obtain ⟨⟨k', v'⟩, he, rfl⟩ := map_eq_some_iff.mp h
    have hk : k' = k := by simpa using find?_some he
    exact hk ▸ mem_of_find?_eq_some he
  · intro h
    cases hf : t.entries.find? (·.1 = k) with
    | none => exact absurd (find?_eq_none.mp hf _ h) (by simp)
    | some e =>
      -- keys are unique, so the entry found is this one
      have hk : e.1 = k := by simpa using find?_some hf
      have he := inj_on_of_nodup_map t.nodup (mem_of_find?_eq_some hf) h hk
      rw [lookup, hf, he, map_some]

omit [DecidableEq ν] in
theorem lookup_eq_none : t.lookup k = none ↔ ∀ v, (k, v) ∉ t.entries := by
  constructor
  · intro h v hv
    rw [lookup_eq_some.mpr hv] at h
    cases h
  · intro h
    cases hl : t.lookup k with
    | none => rfl
    | some v => exact absurd (lookup_eq_some.mp hl) (h v)

omit [DecidableEq ν] in
theorem val_unique (hv : (k, v) ∈ t.entries) (hw : (k, w) ∈ t.entries) : v = w := by
  rw [← lookup_eq_some] at hv hw
  exact some.inj (hv.symm.trans hw)

omit [DecidableEq ν] in
theorem mem_insert {slot : Nat} {e : κ × ν} :
    e ∈ (t.insert slot k v).entries ↔ e ∈ t.entries ∨ (t.lookup k = none ∧ e = (k, v)) := by
  have hkey : k ∈ t.entries.map Prod.fst ↔ t.lookup k ≠ none := by
    rw [Ne, lookup_eq_none]
    simp
  unfold insert
  split_ifs with hk
  · simp [hkey.mp hk]
  · have hnone : t.lookup k = none := by simpa [hkey] using hk
    have hsplit : e ∈ t.entries ↔ e ∈ t.entries.take slot ∨ e ∈ t.entries.drop slot := by
      rw [← mem_append, take_append_drop]
    simp only [hnone, true_and, hsplit, mem_append, mem_cons]
    tauto

omit [DecidableEq ν] in
theorem mem_eraseKey {e : κ × ν} : e ∈ (t.eraseKey k).entries ↔ e ∈ t.entries ∧ e.1 ≠ k := by
  simp [eraseKey]

theorem keysOf_insert_of_ne {slot : Nat} (hw : w ≠ v) :
    (t.insert slot k v).keysOf w = t.keysOf w := by
  unfold insert
  split_ifs with hk
  · rfl
  · simp only [keysOf, filter_append]
    rw [filter_cons_of_neg (by simpa using Ne.symm hw), ← filter_append, take_append_drop]

theorem keysOf_eraseKey_eq_iff : (t.eraseKey k).keysOf v = t.keysOf v ↔ (k, v) ∉ t.entries := by
  constructor
  · intro h hmem
    rw [← mem_keysOf, ← h, mem_keysOf] at hmem
    simp [eraseKey] at hmem
  · intro hmem
    unfold keysOf eraseKey
    simp only [List.filter_filter]
    refine congrArg _ (List.filter_congr fun e he => ?_)
    by_cases hv : e.2 = v
    · have : e.1 ≠ k := by
        rintro rfl
        exact hmem (hv ▸ he)
      simp [hv, this]
    · simp [hv]

end Table

end MtpXdp.Core

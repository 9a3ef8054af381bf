import Mathlib.Data.List.Sort

/-!
# Search Trees of Addressed Nodes

A search tree that a program uses through pointers to its nodes, given by its nodes in traversal
order. The comparison is an argument of each operation, as for intrusive trees in C. Several
comparisons may be used on one tree if they agree with one order of the nodes, which a proof
supplies as a rank.
-/

namespace MtpXdp.Core

open List

universe u v

structure RbTree (ν : Type u) where
  nodes : List (Nat × ν)
  nodup : (nodes.map Prod.fst).Nodup

namespace RbTree

variable {ν : Type u} {t : RbTree ν} {a b : Nat} {m n : ν}

instance : Membership (Nat × ν) (RbTree ν) := ⟨fun t x => x ∈ t.nodes⟩

theorem mem_def {x : Nat × ν} : x ∈ t ↔ x ∈ t.nodes := Iff.rfl

def empty : RbTree ν := ⟨[], nodup_nil⟩

@[simp] theorem not_mem_empty (x : Nat × ν) : x ∉ (empty : RbTree ν) := not_mem_nil

def get? (t : RbTree ν) (a : Nat) : Option ν := (t.nodes.find? (·.1 == a)).map Prod.snd

/-- The first node that `key` does not come after, with its address. -/
def lowerBound (less : ν → ν → Bool) (key : ν) (t : RbTree ν) : Option (Nat × ν) :=
  t.nodes.find? fun x => less key x.2

def add (less : ν → ν → Bool) (a : Nat) (n : ν) (t : RbTree ν) : RbTree ν :=
  if h : a ∈ t.nodes.map Prod.fst then t
  else
    { nodes := t.nodes.orderedInsert (fun x y => less x.2 y.2) (a, n)
      nodup := by
        have hperm := (perm_orderedInsert (fun x y : Nat × ν => less x.2 y.2 = true) (a, n)
          t.nodes).map Prod.fst
        exact hperm.nodup_iff.mpr (List.nodup_cons.mpr ⟨h, t.nodup⟩) }

def remove (t : RbTree ν) (a : Nat) : RbTree ν where
  nodes := t.nodes.filter (·.1 ≠ a)
  nodup := t.nodup.sublist (List.filter_sublist.map _)

/-- A write through the address `a`. The node keeps its place. -/
def write (t : RbTree ν) (a : Nat) (f : ν → ν) : RbTree ν where
  nodes := t.nodes.map fun x => if x.1 = a then (x.1, f x.2) else x
  nodup := by
    have h : (Prod.fst ∘ fun x : Nat × ν => if x.1 = a then (x.1, f x.2) else x) = Prod.fst := by
      funext x
      by_cases hx : x.1 = a <;> simp [hx]
    rw [map_map, h]
    exact t.nodup

def fresh (t : RbTree ν) : Nat := (t.nodes.map Prod.fst).foldr max 0 + 1

/-! ## What each operation does to the nodes -/

theorem eq_of_mem (hn : (a, n) ∈ t) (hm : (a, m) ∈ t) : n = m := by
  have h := inj_on_of_nodup_map t.nodup hn hm rfl
  exact congrArg Prod.snd h

theorem lt_fresh (h : (a, n) ∈ t) : a < t.fresh := by
  have hle : ∀ l : List Nat, ∀ x ∈ l, x ≤ l.foldr max 0 := by
    intro l x hx
    induction l with
    | nil => cases hx
    | cons y l ih =>
      rcases mem_cons.mp hx with rfl | hx
      · exact Nat.le_max_left ..
      · exact (ih hx).trans (Nat.le_max_right ..)
  exact Nat.lt_succ_of_le (hle _ a (mem_map_of_mem h))

theorem get?_eq_some_iff : t.get? a = some n ↔ (a, n) ∈ t := by
  unfold get?
  constructor
  · intro h
    obtain ⟨x, hx, rfl⟩ := Option.map_eq_some_iff.mp h
    have hxa : x.1 = a := by simpa using find?_some hx
    exact hxa ▸ mem_of_find?_eq_some hx
  · intro h
    cases hf : t.nodes.find? (·.1 == a) with
    | none =>
      have hne := find?_eq_none.mp hf _ h
      simp at hne
    | some x =>
      have hxa : x.1 = a := by simpa using find?_some hf
      have hx : (a, x.2) ∈ t := hxa ▸ mem_of_find?_eq_some hf
      rw [Option.map_some, eq_of_mem hx h]

theorem mem_remove : (b, n) ∈ t.remove a ↔ b ≠ a ∧ (b, n) ∈ t := by
  simp only [mem_def, remove, mem_filter, ne_eq, decide_not, Bool.not_eq_eq_eq_not,
    Bool.not_true, decide_eq_false_iff_not, and_comm]

theorem mem_write {f : ν → ν} :
    (b, n) ∈ t.write a f ↔ ∃ m, (b, m) ∈ t ∧ n = if b = a then f m else m := by
  simp only [mem_def, write, mem_map, Prod.exists]
  constructor
  · rintro ⟨c, m, hm, heq⟩
    split at heq <;> cases heq <;> exact ⟨_, hm, by simp_all⟩
  · rintro ⟨m, hm, rfl⟩
    exact ⟨b, m, hm, by split <;> rfl⟩

theorem write_congr {f g : ν → ν} (h : ∀ m, (a, m) ∈ t → f m = g m) :
    t.write a f = t.write a g := by
  have hnodes : (t.write a f).nodes = (t.write a g).nodes := by
    refine map_congr_left ?_
    rintro ⟨b, m⟩ hm
    split_ifs with hb
    · exact congrArg (Prod.mk b) (h m (hb ▸ hm))
    · rfl
  cases ht : t.write a f
  cases ht' : t.write a g
  rw [ht, ht'] at hnodes
  subst hnodes
  rfl

theorem write_eq_self {f : ν → ν} (h : ∀ m, (a, m) ∈ t → f m = m) : t.write a f = t := by
  have hnodes : (t.write a f).nodes = t.nodes := by
    rw [write_congr (g := id) h]
    simp [write]
  cases t
  cases ht : RbTree.write _ a f
  rw [ht] at hnodes
  subst hnodes
  rfl

theorem mem_add {less : ν → ν → Bool} {x : Nat × ν} (ha : ∀ m, (a, m) ∉ t) :
    x ∈ t.add less a n ↔ x = (a, n) ∨ x ∈ t := by
  have h : a ∉ t.nodes.map Prod.fst := by
    intro hmem
    obtain ⟨⟨b, m⟩, hm, rfl⟩ := mem_map.mp hmem
    exact ha m hm
  simp only [mem_def, add, dif_neg h, mem_orderedInsert]

theorem mem_of_mem_add {less : ν → ν → Bool} {x : Nat × ν} (h : x ∈ t.add less a n) :
    x = (a, n) ∨ x ∈ t := by
  unfold add at h
  split_ifs at h
  · exact .inr h
  · simpa only [mem_def, mem_orderedInsert] using h

theorem mem_remove_add {less : ν → ν → Bool} {m : ν} :
    (b, m) ∈ (t.remove a).add less a n ↔ (b = a ∧ m = n) ∨ (b ≠ a ∧ (b, m) ∈ t) := by
  have ha : ∀ m, (a, m) ∉ t.remove a := fun m hm => (mem_remove.mp hm).1 rfl
  rw [mem_add ha, mem_remove, Prod.mk.injEq]

theorem mem_of_lowerBound {less : ν → ν → Bool} {key : ν} {x : Nat × ν}
    (h : t.lowerBound less key = some x) : x ∈ t :=
  mem_of_find?_eq_some h

theorem less_of_lowerBound {less : ν → ν → Bool} {key : ν} {x : Nat × ν}
    (h : t.lowerBound less key = some x) : less key x.2 = true := by
  have := find?_some (p := fun y : Nat × ν => less key y.2) h
  exact this

theorem lowerBound_eq_none_iff {less : ν → ν → Bool} {key : ν} :
    t.lowerBound less key = none ↔ ∀ a n, (a, n) ∈ t → less key n = false := by
  simp only [lowerBound, find?_eq_none, Bool.not_eq_true, Prod.forall, mem_def]

/-! ## Ranked trees -/

variable {κ : Type v} [LinearOrder κ] {rank : ν → κ}

def Ranked (rank : ν → κ) (t : RbTree ν) : Prop :=
  t.nodes.Pairwise fun x y => rank x.2 < rank y.2

theorem ranked_empty : Ranked rank (empty : RbTree ν) := List.Pairwise.nil

section

variable (h : Ranked rank t)
include h

theorem Ranked.eq_of_rank (hn : (a, n) ∈ t) (hm : (b, m) ∈ t) (hr : rank n = rank m) : a = b := by
  by_contra hab
  have hne : ((a, n) : Nat × ν) ≠ (b, m) := fun he => hab (congrArg Prod.fst he)
  have hp := pairwise_iff_getElem.mp h
  obtain ⟨i, hi, hxi⟩ := mem_iff_getElem.mp hn
  obtain ⟨j, hj, hxj⟩ := mem_iff_getElem.mp hm
  rcases Nat.lt_trichotomy i j with hij | rfl | hij
  · have := hp i j hi hj hij
    rw [hxi, hxj] at this
    exact absurd hr this.ne
  · exact hne (hxi.symm.trans hxj)
  · have := hp j i hj hi hij
    rw [hxi, hxj] at this
    exact absurd hr.symm this.ne

theorem Ranked.remove (a : Nat) : Ranked rank (t.remove a) :=
  h.sublist filter_sublist

theorem Ranked.write {f : ν → ν} (a : Nat) (hf : ∀ n, rank (f n) = rank n) :
    Ranked rank (t.write a f) := by
  refine pairwise_map.mpr (h.imp fun {x y} hxy => ?_)
  have hrank : ∀ z : Nat × ν, rank (if z.1 = a then (z.1, f z.2) else z).2 = rank z.2 := by
    intro z
    split
    · exact hf z.2
    · rfl
  rw [hrank, hrank]
  exact hxy

theorem Ranked.add {less : ν → ν → Bool}
    (hless : ∀ b m, (b, m) ∈ t → (less n m = true ↔ rank n ≤ rank m))
    (hnew : ∀ b m, (b, m) ∈ t → rank m ≠ rank n) : Ranked rank (t.add less a n) := by
  unfold RbTree.add
  split_ifs with ha
  · exact h
  · have key : ∀ l : List (Nat × ν), l.Pairwise (fun x y => rank x.2 < rank y.2) →
        (∀ x ∈ l, less n x.2 = true ↔ rank n ≤ rank x.2) → (∀ x ∈ l, rank x.2 ≠ rank n) →
        (l.orderedInsert (fun x y => less x.2 y.2 = true) (a, n)).Pairwise
          fun x y => rank x.2 < rank y.2 := by
      intro l
      induction l with
      | nil => intros; exact pairwise_singleton ..
      | cons x l ih =>
        intro hl hle hne
        have hl' := pairwise_cons.mp hl
        rw [orderedInsert_cons]
        split_ifs with hx
        · -- the new node comes first: it is below `x`, hence below everything
          have hlt : rank n < rank x.2 :=
            lt_of_le_of_ne ((hle x mem_cons_self).mp hx) (hne x mem_cons_self).symm
          refine pairwise_cons.mpr ⟨fun y hy => ?_, hl⟩
          rcases mem_cons.mp hy with rfl | hy
          · exact hlt
          · exact hlt.trans (hl'.1 y hy)
        · have hgt : rank x.2 < rank n :=
            not_le.mp fun hle' => hx ((hle x mem_cons_self).mpr hle')
          refine pairwise_cons.mpr ⟨fun y hy => ?_, ?_⟩
          · rcases (mem_orderedInsert _).mp hy with rfl | hy
            · exact hgt
            · exact hl'.1 y hy
          · exact ih hl'.2 (fun y hy => hle y (mem_cons_of_mem _ hy))
              (fun y hy => hne y (mem_cons_of_mem _ hy))
    exact key t.nodes h (fun x hx => hless x.1 x.2 hx) (fun x hx => hnew x.1 x.2 hx)

theorem Ranked.le_of_lowerBound {less : ν → ν → Bool} {k : ν} {x : Nat × ν}
    (hless : ∀ b m, (b, m) ∈ t → (less k m = true ↔ rank k ≤ rank m))
    (hlb : t.lowerBound less k = some x) (hm : (b, m) ∈ t) (hkm : rank k ≤ rank m) :
    rank x.2 ≤ rank m := by
  have hbm := (hless b m hm).mpr hkm
  obtain ⟨-, l₁, l₂, hsplit, hbefore⟩ := find?_eq_some_iff_append.mp hlb
  rw [Ranked, hsplit] at h
  rw [mem_def, hsplit, mem_append, mem_cons] at hm
  rcases hm with hm | rfl | hm
  · have := hbefore _ hm
    simp [hbm] at this
  · exact le_rfl
  · exact ((pairwise_cons.mp (pairwise_append.mp h).2.1).1 _ hm).le

theorem lowerBound_eq_some_iff {less : ν → ν → Bool} {k : ν}
    (hless : ∀ b m, (b, m) ∈ t → (less k m = true ↔ rank k ≤ rank m)) :
    t.lowerBound less k = some (a, n) ↔
      (a, n) ∈ t ∧ rank k ≤ rank n ∧ ∀ b m, (b, m) ∈ t → rank k ≤ rank m → rank n ≤ rank m := by
  constructor
  · intro hlb
    have hmem := mem_of_lowerBound hlb
    exact ⟨hmem, (hless a n hmem).mp (less_of_lowerBound hlb),
      fun b m hm hkm => h.le_of_lowerBound hless hlb hm hkm⟩
  · rintro ⟨hmem, hkn, hleast⟩
    cases hlb : t.lowerBound less k with
    | none =>
      have := lowerBound_eq_none_iff.mp hlb a n hmem
      rw [(hless a n hmem).mpr hkn] at this
      cases this
    | some x =>
      obtain ⟨c, m⟩ := x
      have hx := mem_of_lowerBound hlb
      have hkx := (hless c m hx).mp (less_of_lowerBound hlb)
      have hrank : rank m = rank n :=
        le_antisymm (h.le_of_lowerBound hless hlb hmem hkn) (hleast c m hx hkx)
      obtain rfl := h.eq_of_rank hx hmem hrank
      rw [eq_of_mem hx hmem]

end

end RbTree

end MtpXdp.Core

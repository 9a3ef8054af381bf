import Mathlib.Algebra.BigOperators.Group.Finset.Basic

/-!
# Things with One Holder Each

A fixed supply of things is passed among holders. `Distinct`: no thing has two holders. `Leased` is
the same for a supply with a free list. `FreeIffUnheld` is for things that several may hold
together. `sum_update_add` is the bookkeeping for amounts.
-/

namespace MtpXdp.Core

open List Function Option Finset

universe u v w

section

variable {η : Type u} {α : Type v}

def Distinct (f : η → Option α) : Prop := ∀ ⦃h h' a⦄, f h = some a → f h' = some a → h = h'

theorem Distinct.rename {f g : η → Option α} (hf : Distinct f) (σ : η → η)
    (hσ : ∀ h a, g h = some a → f (σ h) = some a)
    (hinj : ∀ h h' a, g h = some a → g h' = some a → σ h = σ h' → h = h') : Distinct g := by
  intro h h' a hg hg'
  exact hinj h h' a hg hg' (hf (hσ h a hg) (hσ h' a hg'))

theorem Distinct.exchange [DecidableEq η] {f g : η → Option α} (hf : Distinct f) (h₁ h₂ : η)
    (hg : ∀ h, g h = f (Equiv.swap h₁ h₂ h)) : Distinct g := by
  apply hf.rename (Equiv.swap h₁ h₂)
  · intro h a ha
    rw [← hg]
    exact ha
  · intro h h' a _ _ heq
    exact (Equiv.swap h₁ h₂).injective heq

end

section

variable {η : Type u} {α : Type v} {all free : List α} {held : η → Option α}
  {h : η} {a : α}

/-- Everything of the supply `all` is free, and then once, or has one holder. -/
structure Leased (all free : List α) (held : η → Option α) : Prop where
  nodup : free.Nodup
  distinct : Distinct held
  not_free : ∀ h a, held h = some a → a ∉ free
  covered : ∀ a ∈ all, a ∈ free ∨ ∃ h, held h = some a

namespace Leased

theorem initial (hall : all.Nodup) : Leased all all fun _ : η => none where
  nodup := hall
  distinct := by
    intro h h' a ha
    cases ha
  not_free _ _ ha := by cases ha
  covered _ ha := .inl ha

theorem perm {free' : List α} (hl : Leased all free held) (hp : free'.Perm free) :
    Leased all free' held where
  nodup := hp.nodup_iff.mpr hl.nodup
  distinct := hl.distinct
  not_free h a ha hfree := hl.not_free h a ha (hp.mem_iff.mp hfree)
  covered a ha := (hl.covered a ha).imp_left hp.mem_iff.mpr

variable [DecidableEq η]

theorem take (hl : Leased all (a :: free) held) (hh : held h = none) :
    Leased all free (update held h (some a)) where
  nodup := hl.nodup.of_cons
  distinct := by
    -- whoever held something before does not hold `a`
    have hother : ∀ h' b, held h' = some b → b ≠ a := by
      rintro h' b hb rfl
      exact hl.not_free h' b hb mem_cons_self
    intro h₁ h₂ b h₁b h₂b
    rw [update_apply] at h₁b h₂b
    split_ifs at h₁b h₂b with heq₁ heq₂ heq₂
    · exact heq₁.trans heq₂.symm
    · exact absurd (some.inj h₁b).symm (hother h₂ b h₂b)
    · exact absurd (some.inj h₂b).symm (hother h₁ b h₁b)
    · exact hl.distinct h₁b h₂b
  not_free h' b hb := by
    rw [update_apply] at hb
    split_ifs at hb
    · obtain rfl := some.inj hb
      exact (nodup_cons.mp hl.nodup).1
    · exact fun hfree => hl.not_free h' b hb (mem_cons_of_mem a hfree)
  covered b hb := by
    rcases hl.covered b hb with hfree | ⟨h', hb'⟩
    · rcases mem_cons.mp hfree with rfl | hfree
      · exact .inr ⟨h, update_self ..⟩
      · exact .inl hfree
    · have hne : h' ≠ h := by
        rintro rfl
        rw [hh] at hb'
        cases hb'
      exact .inr ⟨h', (update_of_ne hne ..).trans hb'⟩

theorem giveBack (hl : Leased all free held) (hh : held h = some a) :
    Leased all (free ++ [a]) (update held h none) where
  nodup := by
    apply List.Nodup.append hl.nodup (List.nodup_singleton a)
    rw [List.disjoint_singleton]
    exact hl.not_free h a hh
  distinct := by
    intro h₁ h₂ b h₁b h₂b
    rw [update_apply] at h₁b h₂b
    split_ifs at h₁b h₂b
    exact hl.distinct h₁b h₂b
  not_free h' b hb := by
    rw [update_apply] at hb
    split_ifs at hb with hne
    rw [mem_append, List.mem_singleton, not_or]
    refine ⟨hl.not_free h' b hb, ?_⟩
    rintro rfl
    exact hne (hl.distinct hb hh)
  covered b hb := by
    rcases hl.covered b hb with hfree | ⟨h', hb'⟩
    · exact .inl (mem_append_left [a] hfree)
    · by_cases hne : h' = h
      · subst hne
        obtain rfl := Option.some.inj (hh.symm.trans hb')
        exact .inl (mem_append_right free (List.mem_singleton_self a))
      · exact .inr ⟨h', (update_of_ne hne ..).trans hb'⟩

end Leased

end

section

variable {η : Type u} {α : Type v} {q free free' : α → Prop} {held held' : η → Option α}

/-- Of the things in `q`, those are free that nobody holds. Several may hold one thing. -/
def FreeIffUnheld (q free : α → Prop) (held : η → Option α) : Prop :=
  ∀ a, q a → (free a ↔ ∀ h, held h ≠ some a)

theorem FreeIffUnheld.join [DecidableEq η] (hf : FreeIffUnheld q free held) {h : η} {a : α}
    (hh : held h = none) (hfree : ∀ b, q b → (free' b ↔ free b ∧ b ≠ a)) :
    FreeIffUnheld q free' (update held h (some a)) := by
  intro b hb
  rw [hfree b hb, hf b hb]
  constructor
  · rintro ⟨hunheld, hne⟩ h'
    rw [update_apply]
    split_ifs
    · exact fun heq => hne (some.inj heq).symm
    · exact hunheld h'
  · intro hunheld
    refine ⟨fun h' hb' => ?_, ?_⟩
    · have hne : h' ≠ h := by
        rintro rfl
        rw [hh] at hb'
        cases hb'
      exact hunheld h' ((update_of_ne hne ..).trans hb')
    · rintro rfl
      exact hunheld h (update_self ..)

theorem FreeIffUnheld.leave (hf : FreeIffUnheld q free held) {s : η → Prop} [DecidablePred s]
    {t : α → Prop} (hheld : ∀ h, held' h = if s h then none else held h)
    (hfree : ∀ b, q b → (free' b ↔ free b ∨ t b))
    (hlast : ∀ h b, held h = some b → q b → (t b ↔ ∀ h', held h' = some b → s h')) :
    FreeIffUnheld q free' held' := by
  have hheld' : ∀ h b, held' h = some b ↔ ¬ s h ∧ held h = some b := by
    intro h b
    rw [hheld]
    split_ifs with hs <;> simp [hs]
  intro b hb
  rw [hfree b hb, hf b hb]
  constructor
  · rintro hfree h hh
    obtain ⟨hs, hh⟩ := (hheld' h b).mp hh
    rcases hfree with hunheld | ht
    · exact hunheld h hh
    · exact hs ((hlast h b hh hb).mp ht h hh)
  · intro hunheld
    -- whoever holds it leaves
    have hall : ∀ h, held h = some b → s h := by
      intro h hh
      by_contra hs
      exact hunheld h ((hheld' h b).mpr ⟨hs, hh⟩)
    by_cases hex : ∃ h, held h = some b
    · obtain ⟨h, hh⟩ := hex
      exact .inr ((hlast h b hh hb).mpr hall)
    · exact .inl fun h hh => hex ⟨h, hh⟩

end

section

variable {τ : Type u} [Fintype τ] [DecidableEq τ] {β : Type v} {M : Type w} [AddCommMonoid M]

theorem sum_update_add (f : τ → β) (t : τ) (b : β) (F G : β → M)
    (hothers : ∀ u, u ≠ t → G (f u) = F (f u)) :
    ∑ u, G (update f t b u) + F (f t) = ∑ u, F (f u) + G b := by
  rw [← add_sum_erase univ (fun u => F (f u)) (mem_univ t),
    ← add_sum_erase univ (fun u => G (update f t b u)) (mem_univ t),
    update_self]
  have hrest : ∑ u ∈ univ.erase t, G (update f t b u) =
      ∑ u ∈ univ.erase t, F (f u) := by
    apply sum_congr rfl
    intro u hu
    have hne : u ≠ t := ne_of_mem_erase hu
    rw [update_of_ne hne, hothers u hne]
  rw [hrest]
  ac_rfl

theorem sum_add_of_others {f g : τ → M} {t : τ} (hothers : ∀ u, u ≠ t → g u = f u) :
    ∑ u, g u + f t = ∑ u, f u + g t := by
  have hg : update f t (g t) = g := by
    funext u
    by_cases hu : u = t
    · subst hu
      exact update_self ..
    · rw [update_of_ne hu, hothers u hu]
  have hsum := sum_update_add f t (g t) id id fun _ _ => rfl
  rwa [hg] at hsum

end

end MtpXdp.Core

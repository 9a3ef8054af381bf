import Mathlib.Data.List.Nodup
import Mathlib.Data.List.Perm.Basic

/-!
# Things Kept in Places

A supply of things is kept in places, each of which is a list. A component keeps `Parted` when every
operation adds a new thing to a place, moves things, or hands things out; the order within a place
does not matter.
-/

namespace MtpXdp.Core

open List

universe u v

/-- Each of the things `all` is in one of the places, and there once. -/
structure Parted {π : Type u} {α : Type v} (all : List α) (held : π → List α) : Prop where
  nodup : ∀ p, (held p).Nodup
  unique : ∀ p q a, a ∈ held p → a ∈ held q → p = q
  mem_iff : ∀ a, a ∈ all ↔ ∃ p, a ∈ held p

namespace Parted

variable {π : Type u} {α : Type v} {all all' : List α} {held held' : π → List α}
  {p q : π} {a : α}

theorem single (hall : all.Nodup) (hp : held p = all) (hothers : ∀ q, q ≠ p → held q = []) :
    Parted all held := by
  have hplace {q : π} {a : α} (h : a ∈ held q) : q = p := by
    by_contra hne
    rw [hothers q hne] at h
    cases h
  refine ⟨fun q => ?_, fun q r a hq hr => (hplace hq).trans (hplace hr).symm, fun a => ?_⟩
  · by_cases hq : q = p
    · rwa [hq, hp]
    · rw [hothers q hq]
      exact nodup_nil
  · rw [← hp]
    exact ⟨fun ha => ⟨p, ha⟩, fun ⟨q, hq⟩ => hplace hq ▸ hq⟩

theorem exists_place (h : Parted all held) (ha : a ∈ all) : ∃ p, a ∈ held p := (h.mem_iff a).mp ha

theorem insert (h : Parted all held) (ha : a ∉ all) (hp : (held' p).Perm (a :: held p))
    (hothers : ∀ q, q ≠ p → held' q = held q) : Parted (all ++ [a]) held' := by
  have hnew : ∀ q, a ∉ held q := fun q hq => ha ((h.mem_iff a).mpr ⟨q, hq⟩)
  -- whatever is in a place was there before or is the new thing
  have hmem : ∀ q b, b ∈ held' q ↔ b ∈ held q ∨ b = a ∧ q = p := by
    intro q b
    by_cases hq : q = p
    · subst hq
      rw [hp.mem_iff, mem_cons, or_comm, and_iff_left rfl]
    · rw [hothers q hq]
      exact (or_iff_left fun hb => hq hb.2).symm
  constructor
  · intro q
    by_cases hq : q = p
    · subst hq
      exact hp.nodup_iff.mpr (nodup_cons.mpr ⟨hnew q, h.nodup q⟩)
    · rw [hothers q hq]
      exact h.nodup q
  · intro q r b hq hr
    rcases (hmem q b).mp hq with hq | ⟨rfl, rfl⟩
    · rcases (hmem r b).mp hr with hr | ⟨rfl, rfl⟩
      · exact h.unique q r b hq hr
      · exact absurd hq (hnew q)
    · rcases (hmem r b).mp hr with hr | ⟨-, rfl⟩
      · exact absurd hr (hnew r)
      · rfl
  · intro b
    rw [mem_append, mem_singleton, h.mem_iff]
    constructor
    · rintro (⟨q, hq⟩ | rfl)
      · exact ⟨q, (hmem q b).mpr (Or.inl hq)⟩
      · exact ⟨p, (hmem p b).mpr (Or.inr ⟨rfl, rfl⟩)⟩
    · rintro ⟨q, hq⟩
      rcases (hmem q b).mp hq with hq | ⟨rfl, -⟩
      · exact Or.inl ⟨q, hq⟩
      · exact Or.inr rfl

theorem takeOut (h : Parted all held) (gone : List α) (hp : (held p).Perm (gone ++ held' p))
    (hothers : ∀ q, q ≠ p → held' q = held q)
    (hall : ∀ a, a ∈ all' ↔ a ∈ all ∧ a ∉ gone) : Parted all' held' := by
  have hnodup := hp.nodup_iff.mp (h.nodup p)
  have hsub : ∀ q b, b ∈ held' q → b ∈ held q := by
    intro q b hb
    by_cases hq : q = p
    · subst hq
      exact hp.mem_iff.mpr (mem_append_right gone hb)
    · rwa [hothers q hq] at hb
  have hgone : ∀ b ∈ gone, b ∈ held p := fun b hb =>
    hp.mem_iff.mpr (mem_append_left _ hb)
  constructor
  · intro q
    by_cases hq : q = p
    · subst hq
      exact (nodup_append.mp hnodup).2.1
    · rw [hothers q hq]
      exact h.nodup q
  · exact fun q r b hq hr => h.unique q r b (hsub q b hq) (hsub r b hr)
  · intro b
    rw [hall, h.mem_iff]
    constructor
    · rintro ⟨⟨q, hq⟩, hb⟩
      refine ⟨q, ?_⟩
      by_cases hqp : q = p
      · subst hqp
        exact (mem_append.mp (hp.mem_iff.mp hq)).resolve_left hb
      · rwa [hothers q hqp]
    · rintro ⟨q, hq⟩
      refine ⟨⟨q, hsub q b hq⟩, fun hb => ?_⟩
      -- what is handed out was in `p`, and there only once
      obtain rfl := h.unique q p b (hsub q b hq) (hgone b hb)
      exact (nodup_append.mp hnodup).2.2 b hb b hq rfl

theorem move (h : Parted all held) (hpq : p ≠ q) (moved : List α)
    (hp : (held p).Perm (moved ++ held' p))
    (hq : (held' q).Perm (held q ++ moved)) (hothers : ∀ r, r ≠ p → r ≠ q → held' r = held r) :
    Parted all held' := by
  have hnodup := hp.nodup_iff.mp (h.nodup p)
  have hmoved : ∀ b ∈ moved, b ∈ held p := fun b hb =>
    hp.mem_iff.mpr (mem_append_left _ hb)
  have hkept : ∀ b ∈ held' p, b ∈ held p ∧ b ∉ moved := fun b hb =>
    ⟨hp.mem_iff.mpr (mem_append_right _ hb),
      fun hm => (nodup_append.mp hnodup).2.2 b hm b hb rfl⟩
  -- where a thing is afterwards
  have hmem : ∀ r b, b ∈ held' r ↔ b ∈ held r ∧ b ∉ moved ∨ b ∈ moved ∧ r = q := by
    intro r b
    by_cases hrp : r = p
    · subst hrp
      constructor
      · exact fun hb => Or.inl (hkept b hb)
      · rintro (⟨hb, hm⟩ | ⟨-, hrq⟩)
        · exact (mem_append.mp (hp.mem_iff.mp hb)).resolve_left hm
        · exact absurd hrq hpq
    · by_cases hrq : r = q
      · subst hrq
        rw [hq.mem_iff, mem_append]
        constructor
        · rintro (hb | hb)
          · exact Or.inl ⟨hb, fun hm => hrp (h.unique r p b hb (hmoved b hm))⟩
          · exact Or.inr ⟨hb, rfl⟩
        · rintro (⟨hb, -⟩ | ⟨hb, -⟩)
          · exact Or.inl hb
          · exact Or.inr hb
      · rw [hothers r hrp hrq]
        constructor
        · exact fun hb => Or.inl ⟨hb, fun hm => hrp (h.unique r p b hb (hmoved b hm))⟩
        · rintro (⟨hb, -⟩ | ⟨-, hr⟩)
          · exact hb
          · exact absurd hr hrq
  constructor
  · intro r
    by_cases hrp : r = p
    · subst hrp
      exact (nodup_append.mp hnodup).2.1
    · by_cases hrq : r = q
      · subst hrq
        refine hq.nodup_iff.mpr (nodup_append.mpr
          ⟨h.nodup r, (nodup_append.mp hnodup).1, ?_⟩)
        rintro b hb c hc rfl
        exact hrp (h.unique r p b hb (hmoved b hc))
      · rw [hothers r hrp hrq]
        exact h.nodup r
  · intro r r' b hr hr'
    rcases (hmem r b).mp hr with ⟨hr, hm⟩ | ⟨hm, rfl⟩
    · rcases (hmem r' b).mp hr' with ⟨hr', -⟩ | ⟨hm', -⟩
      · exact h.unique r r' b hr hr'
      · exact absurd hm' hm
    · rcases (hmem r' b).mp hr' with ⟨-, hm'⟩ | ⟨-, rfl⟩
      · exact absurd hm hm'
      · rfl
  · intro b
    rw [h.mem_iff]
    constructor
    · rintro ⟨r, hr⟩
      by_cases hm : b ∈ moved
      · exact ⟨q, (hmem q b).mpr (Or.inr ⟨hm, rfl⟩)⟩
      · exact ⟨r, (hmem r b).mpr (Or.inl ⟨hr, hm⟩)⟩
    · rintro ⟨r, hr⟩
      rcases (hmem r b).mp hr with ⟨hr, -⟩ | ⟨hm, -⟩
      · exact ⟨r, hr⟩
      · exact ⟨p, hmoved b hm⟩

end Parted

end MtpXdp.Core

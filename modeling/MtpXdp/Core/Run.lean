import Mathlib.Data.List.Infix

/-!
# Runs of Step Functions

A component is a step function `step : σ → ε → σ`; a run is a list of events.
This file packages the inductions over runs once, so that a result about a
component reduces to a statement about one step.
-/

namespace MtpXdp.Core

open List

universe u v w x

/-! ## Runs and their states -/

section

variable {σ : Type u} {ε : Type v}

def run (step : σ → ε → σ) : σ → List ε → σ
  | s, [] => s
  | s, e :: es => run step (step s e) es

/-- Every event of the run meets `ok` in the state in which it is processed. -/
def Meets (step : σ → ε → σ) (ok : σ → ε → Prop) : σ → List ε → Prop
  | _, [] => True
  | s, e :: es => ok s e ∧ Meets step ok (step s e) es

/-- `P` holds of the initial state and of the state after every event. -/
def Always (step : σ → ε → σ) (P : σ → Prop) : σ → List ε → Prop
  | s, [] => P s
  | s, e :: es => P s ∧ Always step P (step s e) es

instance decidableMeets (step : σ → ε → σ) (ok : σ → ε → Prop) [∀ s e, Decidable (ok s e)] :
    (s : σ) → (es : List ε) → Decidable (Meets step ok s es)
  | _, [] => .isTrue trivial
  | s, e :: es =>
    have := decidableMeets step ok (step s e) es
    inferInstanceAs (Decidable (ok s e ∧ Meets step ok (step s e) es))

variable {step : σ → ε → σ} {ok dom : σ → ε → Prop} {P Inv : σ → Prop} {s : σ} {es : List ε}

section

variable (step : σ → ε → σ) (s : σ)

@[simp] theorem run_nil : run step s [] = s := rfl

@[simp] theorem run_cons (e : ε) (es : List ε) :
    run step s (e :: es) = run step (step s e) es := rfl

theorem run_append (es fs : List ε) : run step s (es ++ fs) = run step (run step s es) fs := by
  induction es generalizing s with
  | nil => rfl
  | cons e es ih => exact ih (step s e)

end

@[simp] theorem meets_nil : Meets step ok s [] := trivial

@[simp] theorem meets_cons {e : ε} :
    Meets step ok s (e :: es) ↔ ok s e ∧ Meets step ok (step s e) es := Iff.rfl

theorem meets_append {fs : List ε} :
    Meets step ok s (es ++ fs) ↔ Meets step ok s es ∧ Meets step ok (run step s es) fs := by
  induction es generalizing s with
  | nil => simp
  | cons e es ih => simp only [cons_append, meets_cons, run_cons, ih, and_assoc]

theorem meets_of_forall_mem {q : ε → Prop} (h : ∀ e ∈ es, q e) :
    Meets step (fun _ e => q e) s es := by
  induction es generalizing s with
  | nil => trivial
  | cons e es ih =>
    exact ⟨h e mem_cons_self, ih fun e' he' => h e' (mem_cons_of_mem _ he')⟩

theorem meets_true : Meets step (fun _ _ => True) s es := meets_of_forall_mem fun _ _ => trivial

@[simp] theorem always_nil : Always step P s [] ↔ P s := Iff.rfl

theorem Always.head (h : Always step P s es) : P s := by
  cases es with
  | nil => exact h
  | cons e es => exact h.1

theorem Always.last (h : Always step P s es) : P (run step s es) := by
  induction es generalizing s with
  | nil => exact h
  | cons e es ih => exact ih h.2

/-! ## Invariant rules -/

section

variable (hstep : ∀ s e, Inv s → ok s e → Inv (step s e))
include hstep

theorem run_of_meets (h0 : Inv s) (h : Meets step ok s es) : Inv (run step s es) := by
  induction es generalizing s with
  | nil => exact h0
  | cons e es ih => exact ih (hstep s e h0 h.1) h.2

theorem always_of_meets (h0 : Inv s) (h : Meets step ok s es) : Always step Inv s es := by
  induction es generalizing s with
  | nil => exact h0
  | cons e es ih => exact ⟨h0, ih (hstep s e h0 h.1) h.2⟩

theorem meets_of_inv {q : σ → ε → Prop}
    (hq : ∀ s e, Inv s → ok s e → q s e) (h0 : Inv s) (h : Meets step ok s es) :
    Meets step q s es := by
  induction es generalizing s with
  | nil => trivial
  | cons e es ih => exact ⟨hq s e h0 h.1, ih (hstep s e h0 h.1) h.2⟩

theorem meets_iff_of_inv {q : σ → ε → Prop} (hiff : ∀ s e, Inv s → (q s e ↔ ok s e)) (h0 : Inv s) :
    Meets step q s es ↔ Meets step ok s es := by
  induction es generalizing s with
  | nil => exact Iff.rfl
  | cons e es ih =>
    constructor
    · intro h
      have hok := (hiff s e h0).mp h.1
      exact ⟨hok, (ih (hstep s e h0 hok)).mp h.2⟩
    · intro h
      exact ⟨(hiff s e h0).mpr h.1, (ih (hstep s e h0 h.1)).mpr h.2⟩

end

theorem always_iff_meets (hkeep : ∀ s e, Inv s → dom s e → ok s e → Inv (step s e))
    (hneed : ∀ s e, Inv s → dom s e → P (step s e) → ok s e) (hP : ∀ s, Inv s → P s)
    (h0 : Inv s) (hdom : Meets step dom s es) : Always step P s es ↔ Meets step ok s es := by
  induction es generalizing s with
  | nil => simp [hP s h0]
  | cons e es ih =>
    constructor
    · intro h
      have hok := hneed s e h0 hdom.1 h.2.head
      exact ⟨hok, (ih (hkeep s e h0 hdom.1 hok) hdom.2).mp h.2⟩
    · intro h
      exact ⟨hP s h0, (ih (hkeep s e h0 hdom.1 h.1) hdom.2).mpr h.2⟩

theorem Always.mono {Q : σ → Prop} (hPQ : ∀ s, P s → Q s) (h : Always step P s es) :
    Always step Q s es := by
  induction es generalizing s with
  | nil => exact hPQ _ h
  | cons e es ih => exact ⟨hPQ _ h.1, ih h.2⟩

theorem Meets.mono {ok' : σ → ε → Prop} (himp : ∀ s e, ok s e → ok' s e)
    (h : Meets step ok s es) : Meets step ok' s es := by
  induction es generalizing s with
  | nil => trivial
  | cons e es ih => exact ⟨himp s e h.1, ih h.2⟩

theorem Meets.and {ok' : σ → ε → Prop} (h : Meets step ok s es) (h' : Meets step ok' s es) :
    Meets step (fun s e => ok s e ∧ ok' s e) s es := by
  induction es generalizing s with
  | nil => trivial
  | cons e es ih => exact ⟨⟨h.1, h'.1⟩, ih h.2 h'.2⟩

end

/-! ## Runs of a component -/

section

variable {σ : Type u} {ε : Type v} {τ : Type w} {δ : Type x}

theorem meets_map_iff {step : σ → ε → σ} {step' : τ → δ → τ} {ok : τ → δ → Prop} {proj : σ → τ}
    {f : ε → δ} (h : ∀ s e, proj (step s e) = step' (proj s) (f e)) {s : σ} {es : List ε} :
    Meets step' ok (proj s) (es.map f) ↔ Meets step (fun s e => ok (proj s) (f e)) s es := by
  induction es generalizing s with
  | nil => exact Iff.rfl
  | cons e es ih =>
    rw [map_cons, meets_cons, meets_cons, ← h, ih]

end

/-! ## Two runs seen by one observer -/

section

variable {σ : Type u} {ε : Type v} {α ω ν : Type*}

def trace (step : σ → ε → σ) (out : σ → ε → Option ω) : σ → List ε → List ω
  | _, [] => []
  | s, e :: es => (out s e).toList ++ trace step out (step s e) es

variable {step : σ → ε → σ} {out : σ → ε → Option ω} {ok : σ → ε → Prop}
  {view : σ → ν} {low : ε → Option α}

theorem trace_append (s : σ) (es fs : List ε) :
    trace step out s (es ++ fs) = trace step out s es ++ trace step out (run step s es) fs := by
  induction es generalizing s with
  | nil => rfl
  | cons e es ih => simp only [cons_append, trace, run_cons, ih, append_assoc]

theorem view_run_of_hidden
    (hhid : ∀ s e, low e = none → ok s e → view (step s e) = view s ∧ out s e = none)
    {s : σ} {es : List ε} (hes : ∀ e ∈ es, low e = none) (hok : Meets step ok s es) :
    view (run step s es) = view s ∧ trace step out s es = [] := by
  induction es generalizing s with
  | nil => exact ⟨rfl, rfl⟩
  | cons e es ih =>
    have he := hhid s e (hes e mem_cons_self) hok.1
    have ht := ih (fun e' he' => hes e' (mem_cons_of_mem _ he')) hok.2
    exact ⟨ht.1.trans he.1, by simp [trace, he.2, ht.2]⟩

variable (view low)

theorem trace_eq_of_unwinding
    (hhid : ∀ s e, low e = none → ok s e → view (step s e) = view s ∧ out s e = none)
    (hlow : ∀ s s' e e' a, low e = some a → low e' = some a → ok s e → ok s' e' →
      view s = view s' → view (step s e) = view (step s' e') ∧ out s e = out s' e')
    {s s' : σ} {es es' : List ε} (hview : view s = view s')
    (hlows : es.filterMap low = es'.filterMap low)
    (hok : Meets step ok s es) (hok' : Meets step ok s' es') :
    trace step out s es = trace step out s' es' := by
  -- Induction on the first run; the second one is split at its next observable event.
  induction es generalizing s s' es' with
  | nil =>
    have hes' : ∀ e ∈ es', low e = none := filterMap_eq_nil_iff.mp hlows.symm
    exact (view_run_of_hidden hhid hes' hok').2.symm
  | cons e es ih =>
    cases he : low e with
    | none =>
      obtain ⟨hv, ho⟩ := hhid s e he hok.1
      have hrest := ih (hv.trans hview) (by simpa [filterMap_cons, he] using hlows) hok.2 hok'
      simpa [trace, ho] using hrest
    | some a =>
      have hcons : es'.filterMap low = a :: es.filterMap low := by
        simpa [filterMap_cons, he] using hlows.symm
      obtain ⟨hs, e', rest, rfl, hhs, he', hrest⟩ := filterMap_eq_cons_iff.mp hcons
      obtain ⟨hokh, hoke, hokr⟩ := meets_append.mp hok'
      obtain ⟨hv, ht⟩ := view_run_of_hidden hhid hhs hokh
      obtain ⟨hv', ho⟩ := hlow s (run step s' hs) e e' a he he' hok.1 hoke (hview.trans hv.symm)
      rw [trace_append, ht, nil_append, trace, trace, ho, ih hv' hrest.symm hok.2 hokr]

end

end MtpXdp.Core

import Mathlib.Order.Basic
import Mathlib.Data.Option.Basic

namespace Framework

universe u v
variable {σ : Type u} {ε : Type v}

/-- A finite run of a labelled system: every label is a step enabled in the state the
previous one left. A label carries all choices of its step, so a step is a partial function. -/
def run (step : σ → ε → Option σ) : σ → List ε → Option σ
  | s, [] => some s
  | s, e :: es => (step s e).bind fun t => run step t es

/-- Every label of the run meets `ok`, a condition on the label and the state before it. -/
def Along (step : σ → ε → Option σ) (ok : σ → ε → Prop) : σ → List ε → Prop
  | _, [] => True
  | s, e :: es => ok s e ∧ ∀ t, step s e = some t → Along step ok t es

variable {step : σ → ε → Option σ} {ok : σ → ε → Prop} {I : σ → Prop}

@[simp] theorem run_nil (s : σ) : run step s [] = some s := rfl

theorem run_cons_eq_some {s u : σ} {e : ε} {es : List ε} :
    run step s (e :: es) = some u ↔ ∃ t, step s e = some t ∧ run step t es = some u := by
  simp [run, Option.bind_eq_some_iff]

theorem run_append {s u : σ} {xs ys : List ε} :
    run step s (xs ++ ys) = some u ↔
      ∃ t, run step s xs = some t ∧ run step t ys = some u := by
  induction xs generalizing s with
  | nil => simp
  | cons e xs ih =>
    simp only [List.cons_append, run_cons_eq_some, ih]
    constructor
    · rintro ⟨t, he, r, hx, hy⟩
      exact ⟨r, ⟨t, he, hx⟩, hy⟩
    · rintro ⟨r, ⟨t, he, hx⟩, hy⟩
      exact ⟨t, he, r, hx, hy⟩

theorem run_single {s t : σ} {e : ε} : run step s [e] = some t ↔ step s e = some t := by
  simp [run]

theorem along_true (s : σ) (es : List ε) : Along step (fun _ _ => True) s es := by
  induction es generalizing s with
  | nil => trivial
  | cons e es ih => exact ⟨trivial, fun t _ => ih t⟩

theorem Along.cons {s t : σ} {e : ε} {es : List ε} (h : step s e = some t) (hok : ok s e)
    (ha : Along step ok t es) : Along step ok s (e :: es) :=
  ⟨hok, fun _ hu => Option.some.inj (h.symm.trans hu) ▸ ha⟩

instance decidableAlong [∀ s e, Decidable (ok s e)] :
    ∀ (s : σ) (es : List ε), Decidable (Along step ok s es)
  | _, [] => .isTrue trivial
  | s, e :: es =>
    match h : step s e with
    | none => decidable_of_iff (ok s e)
        ⟨fun hok => ⟨hok, fun t ht => by rw [h] at ht; cases ht⟩, fun ha => ha.1⟩
    | some t =>
      have := decidableAlong t es
      decidable_of_iff (ok s e ∧ Along step ok t es)
        ⟨fun ha => .cons h ha.1 ha.2, fun ha => ⟨ha.1, ha.2 t h⟩⟩

theorem Along.mono {ok' : σ → ε → Prop} (h : ∀ s e, ok s e → ok' s e) {s : σ} {es : List ε}
    (ha : Along step ok s es) : Along step ok' s es := by
  induction es generalizing s with
  | nil => trivial
  | cons e es ih => exact ⟨h s e ha.1, fun t ht => ih (ha.2 t ht)⟩

theorem Along.and {ok' : σ → ε → Prop} {s : σ} {es : List ε} (ha : Along step ok s es)
    (ha' : Along step ok' s es) : Along step (fun s e => ok s e ∧ ok' s e) s es := by
  induction es generalizing s with
  | nil => trivial
  | cons e es ih => exact ⟨⟨ha.1, ha'.1⟩, fun t ht => ih (ha.2 t ht) (ha'.2 t ht)⟩

/-- What every step under the condition preserves, every run under it preserves. -/
theorem run_invariant_along (hstep : ∀ s e t, I s → ok s e → step s e = some t → I t)
    {s u : σ} {es : List ε} (hs : I s) (ha : Along step ok s es)
    (h : run step s es = some u) : I u := by
  induction es generalizing s with
  | nil => simpa using (Option.some.inj h) ▸ hs
  | cons e es ih =>
    obtain ⟨t, ht, hu⟩ := run_cons_eq_some.mp h
    exact ih (hstep s e t hs ha.1 ht) (ha.2 t ht) hu

theorem run_invariant (hstep : ∀ s e t, I s → step s e = some t → I t)
    {s u : σ} {es : List ε} (hs : I s) (h : run step s es = some u) : I u :=
  run_invariant_along (fun s e t hi _ ht => hstep s e t hi ht) hs (along_true s es) h

end Framework

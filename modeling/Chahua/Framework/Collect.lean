import Mathlib.Data.List.Forall2

namespace Framework

universe u v w
variable {α : Type u} {β : Type v} {ε : Type w}

/-- `iter().map(f).collect::<Result<Vec<_>, _>>()`: the first error ends it. -/
def collect (f : α → Except ε β) : List α → Except ε (List β)
  | [] => .ok []
  | x :: xs =>
      match f x with
      | .error e => .error e
      | .ok y => (collect f xs).map (y :: ·)

theorem collect_eq_ok {f : α → Except ε β} {xs : List α} {ys : List β} :
    collect f xs = .ok ys ↔ List.Forall₂ (fun x y => f x = .ok y) xs ys := by
  induction xs generalizing ys with
  | nil => cases ys <;> simp [collect]
  | cons x xs ih =>
    cases hx : f x with
    | error e => cases ys <;> simp [collect, hx]
    | ok y =>
      cases hxs : collect f xs with
      | error e =>
        have hno : ∀ ys, ¬ List.Forall₂ (fun x y => f x = .ok y) xs ys := by
          intro ys h
          rw [ih.mpr h] at hxs
          cases hxs
        cases ys <;> simp [collect, hx, hxs, Except.map, hno]
      | ok zs =>
        cases ys with
        | nil => simp [collect, hx, hxs, Except.map]
        | cons z ys => simp [collect, hx, hxs, Except.map, ← ih]

theorem bind_eq_ok {γ : Type u} {x : Except ε α} {f : α → Except ε γ} {b : γ} :
    x >>= f = .ok b ↔ ∃ a, x = .ok a ∧ f a = .ok b := by
  cases x <;> simp [bind, Except.bind]

end Framework

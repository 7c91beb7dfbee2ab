import Chahua.Framework.Run
import Mathlib.Data.Finset.Max
import Mathlib.Order.WellFounded

namespace Framework

section LockOrder

variable {ι α : Type*} [LinearOrder α]

/-- Parties that take resources in ascending order never wait for one another in a circle: the
holder of the greatest resource waited for waits for nothing. -/
theorem exists_not_waiting {parties : Finset ι} (hne : parties.Nonempty)
    {holds waits : ι → α → Prop}
    (hascending : ∀ i ∈ parties, ∀ a b, holds i a → waits i b → a < b)
    (hheld : ∀ i ∈ parties, ∀ a, waits i a → ∃ j ∈ parties, holds j a) :
    ∃ i ∈ parties, ∀ a, ¬waits i a := by
  by_contra hnone
  push Not at hnone
  obtain ⟨first, hfirst⟩ := hne
  obtain ⟨a, -⟩ := hnone first hfirst
  have : Nonempty α := ⟨a⟩
  choose! wanted hwanted using hnone
  obtain ⟨i, hi, hmax⟩ := parties.exists_max_image wanted ⟨first, hfirst⟩
  obtain ⟨j, hj, hholds⟩ := hheld i hi _ (hwanted i hi)
  have hlt := hascending j hj _ _ hholds (hwanted j hj)
  exact absurd (hmax j hj) (not_le.mpr hlt)

end LockOrder

section Drain

variable {σ ε μ : Type*} [Preorder μ] [WellFoundedLT μ] {step : σ → ε → Option σ}

/-- A condition on the labels alone holds along every run. -/
theorem along_of_forall {ok : ε → Prop} {es : List ε} (s : σ) (h : ∀ e ∈ es, ok e) :
    Along step (fun _ e => ok e) s es := by
  induction es generalizing s with
  | nil => trivial
  | cons e es ih =>
    exact ⟨h e (by simp), fun t _ => ih t fun x hx => h x (List.mem_cons_of_mem e hx)⟩

/-- When every unfinished state has a step that lowers a measure, some run finishes. -/
theorem exists_run_of_progress {I done : σ → Prop} {ok : ε → Prop} (measure : σ → μ)
    (hprogress : ∀ s, I s → ¬done s →
      ∃ e t, ok e ∧ step s e = some t ∧ I t ∧ measure t < measure s)
    {s : σ} (hs : I s) : ∃ es u, (∀ e ∈ es, ok e) ∧ run step s es = some u ∧ done u := by
  induction hm : measure s using WellFoundedLT.induction generalizing s with
  | ind m ih =>
    by_cases hdone : done s
    · exact ⟨[], s, by simp, rfl, hdone⟩
    · obtain ⟨e, t, hok, hstep, ht, hlt⟩ := hprogress s hs hdone
      obtain ⟨es, u, hoks, hrun, hu⟩ := ih (measure t) (hm ▸ hlt) ht rfl
      refine ⟨e :: es, u, ?_, run_cons_eq_some.mpr ⟨t, hstep, hrun⟩, hu⟩
      intro x hx
      rcases List.mem_cons.mp hx with rfl | hx
      · exact hok
      · exact hoks x hx

end Drain

end Framework

import Mathlib.Data.List.Basic
import Mathlib.Data.List.TakeDrop

namespace Framework

universe u v w

namespace Layers

variable {C : Type u} {F : Type v} {V : F → Type w} {effect effect' : C → ∀ f, Option (V f)}
  {base base' : ∀ f, V f} {layers : List C} {f : F} {i : Nat} {c c' : C}

/-- What a field shows: the value of the last layer that sets it, or else its base value. -/
def shown (effect : C → ∀ f, Option (V f)) (base : ∀ f, V f) (layers : List C) (f : F) : V f :=
  layers.foldl (fun v c => (effect c f).getD v) (base f)

/-- A layer after the `i`-th sets the field. -/
def Covered (effect : C → ∀ f, Option (V f)) (layers : List C) (i : Nat) (f : F) : Prop :=
  ∃ c ∈ layers.drop (i + 1), (effect c f).isSome

instance : Decidable (Covered effect layers i f) :=
  inferInstanceAs (Decidable (∃ c ∈ layers.drop (i + 1), (effect c f).isSome))

@[simp] theorem shown_nil : shown effect base [] f = base f := rfl

@[simp] theorem shown_concat :
    shown effect base (layers ++ [c]) f = (effect c f).getD (shown effect base layers f) := by
  simp [shown]

theorem shown_append (xs ys : List C) :
    shown effect base (xs ++ ys) f = shown effect (shown effect base xs) ys f := by
  simp [shown]

theorem shown_cons :
    shown effect base (c :: layers) f =
      shown effect (fun g => (effect c g).getD (base g)) layers f := rfl

theorem shown_congr (h : ∀ c ∈ layers, effect c f = effect' c f) :
    shown effect base layers f = shown effect' base layers f := by
  induction layers generalizing base with
  | nil => rfl
  | cons c layers ih =>
    simp only [List.mem_cons, forall_eq_or_imp] at h
    rw [shown_cons, shown_cons, ih h.2]
    simp [shown, h.1]

theorem shown_of_clear (h : ∀ c ∈ layers, effect c f = none) :
    shown effect base layers f = base f := by
  have hnone : shown effect base layers f = shown (fun _ _ => none) base layers f := shown_congr h
  rw [hnone]
  clear hnone
  induction layers with
  | nil => rfl
  | cons c layers ih => exact ih fun c hc => h c (.tail _ hc)

/-- A field that some layer sets shows nothing of its base value. -/
theorem shown_of_set (h : ∃ c ∈ layers, (effect c f).isSome) :
    shown effect base layers f = shown effect base' layers f := by
  induction layers generalizing base base' with
  | nil => simp at h
  | cons c layers ih =>
    by_cases hlater : ∃ c ∈ layers, (effect c f).isSome
    · rw [shown_cons, shown_cons]
      exact ih hlater
    · obtain ⟨d, hd, hset⟩ := h
      rcases List.mem_cons.mp hd with rfl | hd
      · obtain ⟨v, hv⟩ := Option.isSome_iff_exists.mp hset
        simp [shown, hv]
      · exact absurd ⟨d, hd, hset⟩ hlater

theorem eq_append (hi : layers[i]? = some c) :
    layers = layers.take i ++ c :: layers.drop (i + 1) := by
  obtain ⟨hlt, rfl⟩ := List.getElem?_eq_some_iff.mp hi
  rw [← List.drop_eq_getElem_cons hlt, List.take_append_drop]

theorem set_eq_append (hi : layers[i]? = some c) :
    layers.set i c' = layers.take i ++ c' :: layers.drop (i + 1) := by
  obtain ⟨hlt, -⟩ := List.getElem?_eq_some_iff.mp hi
  exact List.set_eq_take_append_cons_drop.trans (if_pos hlt)

theorem clear_of_not_covered (h : ¬ Covered effect layers i f) :
    ∀ c ∈ layers.drop (i + 1), effect c f = none := by
  intro c hc
  by_contra hset
  exact h ⟨c, hc, Option.isSome_iff_ne_none.mpr hset⟩

theorem shown_of_not_covered (hi : layers[i]? = some c) (h : ¬ Covered effect layers i f) :
    shown effect base layers f = (effect c f).getD (shown effect base (layers.take i) f) := by
  conv_lhs => rw [eq_append hi]
  rw [shown_append, shown_cons, shown_of_clear (clear_of_not_covered h)]

theorem shown_set_of_not_covered (hi : layers[i]? = some c) (h : ¬ Covered effect layers i f) :
    shown effect base (layers.set i c') f =
      (effect c' f).getD (shown effect base (layers.take i) f) := by
  rw [set_eq_append hi, shown_append, shown_cons, shown_of_clear (clear_of_not_covered h)]

/-- Nothing of a layer shows under a later one that sets the field. -/
theorem shown_set_of_covered (hi : layers[i]? = some c) (h : Covered effect layers i f) :
    shown effect base (layers.set i c') f = shown effect base layers f := by
  conv_rhs => rw [eq_append hi]
  rw [set_eq_append hi, shown_append, shown_append, shown_cons, shown_cons]
  exact shown_of_set h

theorem shown_set_of_effect (hi : layers[i]? = some c) (h : effect c' f = effect c f) :
    shown effect base (layers.set i c') f = shown effect base layers f := by
  by_cases hcov : Covered effect layers i f
  · exact shown_set_of_covered hi hcov
  · rw [shown_set_of_not_covered hi hcov, shown_of_not_covered hi hcov, h]

theorem covered_set_of_effect (hi : layers[i]? = some c) (h : effect c' f = effect c f) (j : Nat) :
    Covered effect (layers.set i c') j f ↔ Covered effect layers j f := by
  have hsame : (layers.set i c').map (effect · f) = layers.map (effect · f) := by
    obtain ⟨hlt, rfl⟩ := List.getElem?_eq_some_iff.mp hi
    rw [List.map_set, h, ← List.map_set, List.set_getElem_self]
  have hmap : ∀ ls : List C, Covered effect ls j f ↔
      ∃ o ∈ (ls.map (effect · f)).drop (j + 1), o.isSome := by
    intro ls
    simp [Covered, ← List.map_drop]
  rw [hmap, hmap, hsame]

/-- What became of a write to some fields; a success carries the values it left. -/
inductive Outcome (V : F → Type w)
  | pending
  | failed
  | succeeded (values : ∀ f, V f)

namespace Outcome

variable (change : ∀ f, Option (V f))

/-- What a write shows in a field as long as it has not failed. -/
def shows (f : F) : Outcome V → Option (V f)
  | pending => change f
  | failed => none
  | succeeded values => (change f).map fun _ => values f

/-- What a write that succeeded left in a field. -/
def left (f : F) : Outcome V → Option (V f)
  | succeeded values => (change f).map fun _ => values f
  | _ => none

def isPending : Outcome V → Bool
  | pending => true
  | _ => false

theorem shows_eq_left {o : Outcome V} (h : o.isPending = false) :
    o.shows change f = o.left change f := by
  cases o with
  | pending => simp [isPending] at h
  | failed => rfl
  | succeeded values => rfl

theorem shows_eq_none {o : Outcome V} (h : change f = none) : o.shows change f = none := by
  cases o <;> simp [shows, h]

end Outcome

end Layers

end Framework

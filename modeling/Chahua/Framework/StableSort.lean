import Mathlib

namespace Framework

variable {T : Type} {cmp : T → T → Int} {xs ys : List T} {x : T}

/-- A comparator that orders different elements of a list; an element is not compared with
itself. -/
structure Consistent (cmp : T → T → Int) (xs : List T) : Prop where
  antisymm : ∀ a ∈ xs, ∀ b ∈ xs, a ≠ b → (cmp a b < 0 ↔ 0 < cmp b a)
  trans : ∀ a ∈ xs, ∀ b ∈ xs, ∀ c ∈ xs, a ≠ b → b ≠ c → a ≠ c →
    cmp a b ≤ 0 → cmp b c ≤ 0 → cmp a c ≤ 0

/-- Two elements as a stable sort leaves them. -/
def InOrder (cmp : T → T → Int) (xs : List T) (a b : T) : Prop :=
  cmp a b < 0 ∨ cmp a b = 0 ∧ [a, b].Sublist xs

/-- A sort that permutes, and is correct and stable where its comparator is consistent. -/
structure CorrectSort (sort : (T → T → Int) → List T → List T) : Prop where
  perm : ∀ cmp xs, (sort cmp xs).Perm xs
  ordered : ∀ cmp xs, xs.Nodup → Consistent cmp xs → (sort cmp xs).Pairwise (InOrder cmp xs)

theorem Consistent.of_cons (h : Consistent cmp (x :: xs)) : Consistent cmp xs where
  antisymm a ha b hb := h.antisymm a (List.mem_cons_of_mem _ ha) b (List.mem_cons_of_mem _ hb)
  trans a ha b hb c hc := h.trans a (List.mem_cons_of_mem _ ha) b (List.mem_cons_of_mem _ hb) c
    (List.mem_cons_of_mem _ hc)

theorem InOrder.cons {a b : T} (h : InOrder cmp xs a b) : InOrder cmp (x :: xs) a b := by
  obtain h | ⟨h, hsub⟩ := h
  · exact .inl h
  · exact .inr ⟨h, hsub.cons x⟩

theorem InOrder.le {a b : T} (h : InOrder cmp xs a b) : cmp a b ≤ 0 := by
  obtain h | ⟨h, -⟩ := h <;> omega

theorem inOrder_head {b : T} (h : cmp x b ≤ 0) (hb : b ∈ xs) : InOrder cmp (x :: xs) x b := by
  obtain hlt | heq := lt_or_eq_of_le h
  · exact .inl hlt
  · exact .inr ⟨heq, (List.singleton_sublist.mpr hb).cons_cons x⟩

/-- An order in which every two elements differ is the only result of a correct sort. -/
theorem CorrectSort.eq_of_pairwise {sort : (T → T → Int) → List T → List T}
    (hsort : CorrectSort sort) (hnodup : xs.Nodup) (hc : Consistent cmp xs) (hperm : ys.Perm xs)
    (hys : ys.Pairwise fun a b => cmp a b < 0) : sort cmp xs = ys := by
  refine ((hsort.perm cmp xs).trans hperm.symm).eq_of_pairwise ?_
    ((hsort.ordered cmp xs hnodup hc).imp InOrder.le) (hys.imp le_of_lt)
  intro a b ha hb hab hba
  by_contra hne
  have ha' : a ∈ xs := (hsort.perm cmp xs).mem_iff.mp ha
  have hb' : b ∈ xs := hperm.mem_iff.mp hb
  have hstrict : a ∈ ys → b ∈ ys → a ≠ b → cmp a b < 0 ∨ cmp b a < 0 := by
    intro ha hb hne
    have hsymm : Std.Symm fun a b => cmp a b < 0 ∨ cmp b a < 0 := ⟨fun _ _ h => Or.symm h⟩
    have hpair : ys.Pairwise fun a b => cmp a b < 0 ∨ cmp b a < 0 := hys.imp Or.inl
    exact hpair.forall ha hb hne
  have h1 := hc.antisymm a ha' b hb' hne
  have h2 := hc.antisymm b hb' a ha' (Ne.symm hne)
  obtain h | h := hstrict (hperm.mem_iff.mpr ha') hb hne
  · have := h1.mp h
    omega
  · have := h2.mp h
    omega

def insertBy (cmp : T → T → Int) (x : T) : List T → List T
  | [] => [x]
  | y :: ys => if cmp x y ≤ 0 then x :: y :: ys else y :: insertBy cmp x ys

def insertionSortBy (cmp : T → T → Int) : List T → List T
  | [] => []
  | x :: xs => insertBy cmp x (insertionSortBy cmp xs)

theorem insertBy_perm (cmp : T → T → Int) (x : T) (ys : List T) :
    (insertBy cmp x ys).Perm (x :: ys) := by
  induction ys with
  | nil => exact .refl _
  | cons y ys ih =>
    unfold insertBy
    split
    · exact .refl _
    · exact (ih.cons y).trans (.swap x y ys)

theorem insertionSortBy_perm (cmp : T → T → Int) (xs : List T) :
    (insertionSortBy cmp xs).Perm xs := by
  induction xs with
  | nil => exact .refl _
  | cons x xs ih => exact (insertBy_perm cmp x _).trans (ih.cons x)

theorem insertBy_inOrder (hc : Consistent cmp (x :: xs)) (hx : x ∉ xs) (hnodup : ys.Nodup)
    (hsub : ∀ y ∈ ys, y ∈ xs) (h : ys.Pairwise (InOrder cmp xs)) :
    (insertBy cmp x ys).Pairwise (InOrder cmp (x :: xs)) := by
  induction ys with
  | nil => exact List.pairwise_singleton _ _
  | cons y ys ih =>
    obtain ⟨hy, hys⟩ := List.pairwise_cons.mp h
    obtain ⟨hynot, hnodup'⟩ := List.nodup_cons.mp hnodup
    have hne : ∀ z ∈ y :: ys, x ≠ z := fun z hz heq => hx (heq ▸ hsub z hz)
    have hmem : ∀ z ∈ y :: ys, z ∈ x :: xs := fun z hz => List.mem_cons_of_mem _ (hsub z hz)
    unfold insertBy
    split
    · next hle =>
      refine List.pairwise_cons.mpr ⟨?_, h.imp InOrder.cons⟩
      intro b hb
      refine inOrder_head ?_ (hsub b hb)
      obtain rfl | hb' := List.mem_cons.mp hb
      · exact hle
      · have hyb : y ≠ b := fun heq => hynot (heq ▸ hb')
        exact hc.trans x List.mem_cons_self y (hmem y List.mem_cons_self) b (hmem b hb)
          (hne y List.mem_cons_self) hyb (hne b hb) hle (hy b hb').le
    · next hgt =>
      refine List.pairwise_cons.mpr
        ⟨?_, ih hnodup' (fun z hz => hsub z (List.mem_cons_of_mem _ hz)) hys⟩
      intro b hb
      obtain rfl | hb := List.mem_cons.mp ((insertBy_perm cmp x ys).mem_iff.mp hb)
      · refine .inl ((hc.antisymm y (hmem y List.mem_cons_self) _ List.mem_cons_self
          (Ne.symm (hne y List.mem_cons_self))).mpr ?_)
        omega
      · exact (hy b hb).cons

/-- Insertion sort is correct and stable. -/
theorem correctSort_insertionSortBy : CorrectSort (T := T) insertionSortBy where
  perm := insertionSortBy_perm
  ordered cmp xs hnodup hc := by
    induction xs with
    | nil => exact .nil
    | cons x xs ih =>
      obtain ⟨hx, hnodup⟩ := List.nodup_cons.mp hnodup
      have hperm := insertionSortBy_perm cmp xs
      exact insertBy_inOrder hc hx (hperm.nodup_iff.mpr hnodup)
        (fun y hy => hperm.mem_iff.mp hy) (ih hnodup hc.of_cons)

end Framework

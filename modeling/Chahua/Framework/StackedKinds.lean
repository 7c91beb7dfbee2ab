import Mathlib.Data.List.Basic
import Mathlib.Data.List.Induction
import Mathlib.Data.List.Nodup

namespace Framework

universe u v
variable {α : Type u} {κ : Type v}

/-- A new top layer: the layers of other kinds stay, and of its own kind those below it. -/
def layer [DecidableEq κ] (kind : α → κ) (below : α → α → Bool) (stack : List α) (top : α) :
    List α :=
  stack.filter (fun entry => decide (kind entry ≠ kind top)) ++
    stack.filter (fun entry => decide (kind entry = kind top) && below entry top) ++ [top]

/-- Layers of one kind stand together, each below the later ones. -/
structure Layered (kind : α → κ) (below : α → α → Bool) (stack : List α) : Prop where
  chained : stack.Pairwise fun a b => kind a = kind b → below a b = true
  together : ∀ a b c, [a, b, c].Sublist stack → kind a = kind c → kind b = kind a

variable {kind : α → κ} {below : α → α → Bool} {stack : List α}

theorem layered_nil : Layered kind below ([] : List α) :=
  ⟨.nil, fun a b c h => by cases h⟩

theorem Layered.sublist {part : List α} (h : Layered kind below stack)
    (hpart : part.Sublist stack) : Layered kind below part :=
  ⟨h.chained.sublist hpart, fun a b c habc => h.together a b c (habc.trans hpart)⟩

variable [DecidableEq κ]

theorem Layered.layer (h : Layered kind below stack) (top : α) :
    Layered kind below (layer kind below stack top) := by
  have hothers : ∀ a ∈ stack.filter (fun entry => decide (kind entry ≠ kind top)),
      kind a ≠ kind top := fun a ha => of_decide_eq_true (List.mem_filter.mp ha).2
  have hown : ∀ a ∈ stack.filter (fun entry => decide (kind entry = kind top) && below entry top),
      kind a = kind top ∧ below a top = true := by
    intro a ha
    obtain ⟨hkind, hbelow⟩ := Bool.and_eq_true_iff.mp (List.mem_filter.mp ha).2
    exact ⟨of_decide_eq_true hkind, hbelow⟩
  have htail : ∀ a ∈ stack.filter (fun entry => decide (kind entry = kind top) &&
      below entry top) ++ [top], kind a = kind top := by
    intro a ha
    obtain ha | ha := List.mem_append.mp ha
    · exact (hown a ha).1
    · rw [List.mem_singleton.mp ha]
  unfold Framework.layer
  rw [List.append_assoc]
  constructor
  · refine List.pairwise_append.mpr ⟨h.chained.filter _, ?_, ?_⟩
    · refine List.pairwise_append.mpr ⟨h.chained.filter _, List.pairwise_singleton _ _, ?_⟩
      intro a ha b hb _
      rw [List.mem_singleton.mp hb]
      exact (hown a ha).2
    · intro a ha b hb hkind
      exact absurd (hkind.trans (htail b hb)) (hothers a ha)
  · intro a b c habc hac
    obtain ⟨first, last, hsplit, hfirst, hlast⟩ := List.sublist_append_iff.mp habc
    obtain hnil | ⟨pre, x, rfl⟩ := List.eq_nil_or_concat' last
    · rw [hnil, List.append_nil] at hsplit
      exact h.together a b c ((hsplit ▸ hfirst).trans List.filter_sublist) hac
    · have hx : c = x := by
        have := congrArg List.getLast? hsplit
        simpa [← List.append_assoc] using this
      have hc : kind c = kind top := htail c (hlast.subset (by simp [hx]))
      obtain rfl | ⟨y, rest, rfl⟩ : first = [] ∨ ∃ y rest, first = y :: rest := by
        cases first <;> simp
      · have hb : b ∈ pre ++ [x] := by
          rw [List.nil_append] at hsplit
          rw [← hsplit]
          simp
        rw [htail b (hlast.subset hb), hac, hc]
      · have ha : a = y := by
          have := congrArg List.head? hsplit
          simpa using this
        exact absurd (hac.trans hc) (hothers a (hfirst.subset (by simp [ha])))

/-- Where no other kind stands behind a kind, its layers are the end of the stack. -/
theorem filter_append_filter {k : κ}
    (h : ∀ a b, [a, b].Sublist stack → kind a = k → kind b = k) :
    stack.filter (fun entry => decide (kind entry ≠ k)) ++
      stack.filter (fun entry => decide (kind entry = k)) = stack := by
  induction stack with
  | nil => rfl
  | cons x stack ih =>
    have hrest := ih fun a b hab => h a b (hab.cons x)
    by_cases hx : kind x = k
    · have hall : ∀ b ∈ stack, kind b = k := fun b hb =>
        h x b ((List.singleton_sublist.mpr hb).cons_cons x) hx
      have hnone : (x :: stack).filter (fun entry => decide (kind entry ≠ k)) = [] := by
        refine List.filter_eq_nil_iff.mpr fun b hb => ?_
        obtain rfl | hb := List.mem_cons.mp hb
        · simpa using hx
        · simpa using hall b hb
      have hevery : (x :: stack).filter (fun entry => decide (kind entry = k)) = x :: stack := by
        refine List.filter_eq_self.mpr fun b hb => decide_eq_true ?_
        obtain rfl | hb := List.mem_cons.mp hb
        · exact hx
        · exact hall b hb
      rw [hnone, hevery, List.nil_append]
    · rw [List.filter_cons_of_pos (by simpa using hx), List.filter_cons_of_neg (by simpa using hx),
        List.cons_append, hrest]

/-- Layering a stack anew, from the bottom up, gives it back. -/
theorem Layered.foldl_layer (h : Layered kind below stack) :
    stack.foldl (Framework.layer kind below) [] = stack := by
  induction stack using List.reverseRecOn with
  | nil => rfl
  | append_singleton stack top ih =>
    have hbelow := ih (h.sublist (List.sublist_append_left _ _))
    have hown : stack.filter (fun entry => decide (kind entry = kind top) && below entry top) =
        stack.filter fun entry => decide (kind entry = kind top) := by
      refine List.filter_congr fun a ha => ?_
      by_cases hkind : kind a = kind top
      · have := (List.pairwise_append.mp h.chained).2.2 a ha top (List.mem_singleton_self top) hkind
        simp [hkind, this]
      · simp [hkind]
    have hends : ∀ a b, [a, b].Sublist stack → kind a = kind top → kind b = kind top := by
      intro a b hab ha
      rw [← ha]
      exact h.together a b top (hab.append (List.Sublist.refl [top])) ha
    rw [List.foldl_append, hbelow, List.foldl_cons, List.foldl_nil, Framework.layer, hown,
      filter_append_filter hends]

/-- An entry joins the group of its kind, or opens one at the end. -/
def addToGroup (kind : α → κ) : List (κ × List α) → α → List (κ × List α)
  | [], entry => [(kind entry, [entry])]
  | (k, own) :: rest, entry =>
      if k = kind entry then (k, own ++ [entry]) :: rest
      else (k, own) :: addToGroup kind rest entry

/-- The groups of a list, in the order of their first entries. -/
def kindGroups (kind : α → κ) (stack : List α) : List (κ × List α) :=
  stack.foldl (addToGroup kind) []

theorem addToGroup_append {front back : List (κ × List α)} {entry : α}
    (h : ∀ group ∈ front, group.1 ≠ kind entry) :
    addToGroup kind (front ++ back) entry = front ++ addToGroup kind back entry := by
  induction front with
  | nil => rfl
  | cons group front ih =>
    have hrest := ih fun other hother => h other (List.mem_cons_of_mem _ hother)
    rw [List.cons_append, addToGroup, if_neg (h group List.mem_cons_self), hrest,
      List.cons_append]

/-- Every group has entries, all of its kind, and no two groups have the same kind. -/
structure Grouped (kind : α → κ) (parts : List (κ × List α)) (stack : List α) : Prop where
  entries : parts.flatMap Prod.snd = stack
  own : ∀ group ∈ parts, group.2 ≠ [] ∧ ∀ entry ∈ group.2, kind entry = group.1
  once : (parts.map Prod.fst).Nodup

theorem Grouped.extend {parts : List (κ × List α)} (h : Grouped kind parts stack) {top : α}
    (hfresh : ∀ group ∈ parts, group.1 ≠ kind top) :
    Grouped kind (addToGroup kind parts top) (stack ++ [top]) := by
  have happend : addToGroup kind parts top = parts ++ [(kind top, [top])] := by
    have := @addToGroup_append _ _ kind _ parts [] top hfresh
    simpa [addToGroup] using this
  rw [happend]
  refine ⟨by simp [h.entries], fun group hgroup => ?_, ?_⟩
  · obtain hgroup | hgroup := List.mem_append.mp hgroup
    · exact h.own group hgroup
    · simp [List.mem_singleton.mp hgroup]
  · have hnot : kind top ∉ parts.map Prod.fst := by
      intro hmem
      obtain ⟨group, hgroup, heq⟩ := List.mem_map.mp hmem
      exact hfresh group hgroup heq
    rw [List.map_append]
    exact List.nodup_append.mpr ⟨h.once, List.nodup_singleton _, by
      intro k hk other hother heq
      simp only [List.map_cons, List.map_nil, List.mem_singleton] at hother
      exact hnot (hother ▸ heq ▸ hk)⟩

theorem Grouped.join {front : List (κ × List α)} {own : List α} {top : α}
    (h : Grouped kind (front ++ [(kind top, own)]) stack) :
    Grouped kind (addToGroup kind (front ++ [(kind top, own)]) top) (stack ++ [top]) := by
  have honce := h.once
  rw [List.map_append, List.nodup_append] at honce
  have hother : ∀ group ∈ front, group.1 ≠ kind top := fun group hgroup =>
    honce.2.2 _ (List.mem_map_of_mem hgroup) _ (by simp)
  have hentries := h.entries
  rw [addToGroup_append hother, addToGroup, if_pos rfl]
  refine ⟨by simp [← hentries], fun group hgroup => ?_, by simpa using h.once⟩
  obtain hgroup | hgroup := List.mem_append.mp hgroup
  · exact h.own group (List.mem_append_left _ hgroup)
  · have hlast := (h.own (kind top, own) (by simp)).2
    rw [List.mem_singleton.mp hgroup]
    refine ⟨by simp, fun entry hentry => ?_⟩
    obtain hentry | hentry := List.mem_append.mp hentry
    · exact hlast entry hentry
    · rw [List.mem_singleton.mp hentry]

/-- Grouping a layered stack keeps its order: one group a kind, and the groups one after another
are the stack. -/
theorem Layered.grouped (h : Layered kind below stack) :
    Grouped kind (kindGroups kind stack) stack := by
  induction stack using List.reverseRecOn with
  | nil => exact ⟨rfl, fun group hgroup => (List.not_mem_nil hgroup).elim, List.nodup_nil⟩
  | append_singleton stack top ih =>
    have hstack := ih (h.sublist (List.sublist_append_left _ _))
    have hstep : kindGroups kind (stack ++ [top]) =
        addToGroup kind (kindGroups kind stack) top := by simp [kindGroups]
    rw [hstep]
    generalize kindGroups kind stack = parts at hstack
    obtain rfl | ⟨front, ⟨k, own⟩, rfl⟩ := List.eq_nil_or_concat' parts
    · exact hstack.extend fun group hgroup => (List.not_mem_nil hgroup).elim
    · by_cases hk : k = kind top
      · subst hk
        exact hstack.join
      · refine hstack.extend fun group hgroup heq => ?_
        obtain hgroup | hgroup := List.mem_append.mp hgroup
        · -- an entry of the last group would stand between two of the kind of `top`
          obtain ⟨hne, hkinds⟩ := hstack.own group (List.mem_append_left _ hgroup)
          obtain ⟨hlast, hlastKinds⟩ := hstack.own (k, own) (by simp)
          obtain ⟨a, ha⟩ := List.exists_mem_of_ne_nil _ hne
          obtain ⟨b, hb⟩ := List.exists_mem_of_ne_nil _ hlast
          have hab : [a, b].Sublist stack := by
            rw [← hstack.entries, List.flatMap_append, List.flatMap_singleton]
            exact (List.singleton_sublist.mpr (List.mem_flatMap.mpr ⟨group, hgroup, ha⟩)).append
              (List.singleton_sublist.mpr hb)
          have hkind : kind a = kind top := (hkinds a ha).trans heq
          have hbetween := h.together a b top (hab.append (List.Sublist.refl [top])) hkind
          exact hk (((hlastKinds b hb).symm.trans hbetween).trans hkind)
        · exact hk (by simpa [List.mem_singleton.mp hgroup] using heq)

theorem layered_foldl (paths : List α) (h : Layered kind below stack) :
    Layered kind below (paths.foldl (Framework.layer kind below) stack) := by
  induction paths generalizing stack with
  | nil => exact h
  | cons path paths ih => exact ih (h.layer path)

theorem getLast_foldl_layer (paths : List α) :
    (paths.foldl (Framework.layer kind below) []).getLast? = paths.getLast? := by
  obtain rfl | ⟨rest, top, rfl⟩ := List.eq_nil_or_concat' paths
  · rfl
  · rw [List.foldl_append, List.foldl_cons, List.foldl_nil, Framework.layer]
    simp

end Framework

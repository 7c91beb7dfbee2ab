import Chahua.Stickers.Reorder
import Mathlib

namespace Chahua.Stickers

open Framework

section lookups

variable {order : List StickerPackOrderItem} {packs : List StickerPackSummary}

theorem lastUsed_eq_none_of_not_mem {packId : String}
    (h : packId ∉ order.map (·.stickerPackId)) : lastUsed order packId = none := by
  refine lastUsed_eq_none fun hany => h ?_
  obtain ⟨item, hitem, hid⟩ := List.any_eq_true.mp hany
  exact List.mem_map.mpr ⟨item, hitem, by simpa using hid⟩

/-- In an order without repeated packs the last entry of a pack is its first. -/
theorem lastUsedById_eq (h : (order.map (·.stickerPackId)).Nodup) (packId : String) :
    lastUsedById order packId = lastUsed order packId := by
  unfold lastUsedById
  induction order with
  | nil => rfl
  | cons item order ih =>
    rw [List.map_cons, List.nodup_cons] at h
    rw [List.reverse_cons, lastUsed_append, ih h.2, lastUsed_cons, lastUsed_cons, lastUsed_nil]
    split
    · next heq =>
      rw [lastUsed_eq_none_of_not_mem (heq ▸ h.1)]
      rfl
    · simp

theorem lastUsed_upsert (item : StickerPackOrderItem) (packId : String) :
    lastUsed (upsertStickerPackOrderItem order item) packId =
      if packId = item.stickerPackId then some item.lastUsedOn else lastUsed order packId := by
  unfold upsertStickerPackOrderItem
  rw [lastUsed_cons]
  by_cases h : packId = item.stickerPackId
  · rw [if_pos h.symm, if_pos h]
  · rw [if_neg (Ne.symm h), if_neg h]
    refine lastUsed_filter fun existing hid => ?_
    simpa [hid] using h

theorem upsert_nodup (item : StickerPackOrderItem) (h : (order.map (·.stickerPackId)).Nodup) :
    ((upsertStickerPackOrderItem order item).map (·.stickerPackId)).Nodup := by
  unfold upsertStickerPackOrderItem
  rw [List.map_cons, List.nodup_cons]
  refine ⟨?_, h.sublist (List.filter_sublist.map _)⟩
  intro hin
  obtain ⟨existing, hmem, hid⟩ := List.mem_map.mp hin
  simpa [hid] using (List.mem_filter.mp hmem).2

theorem lastUsed_replace (order : List StickerPackOrderItem) (packId : String) :
    lastUsed (replaceStickerPackOrder order) packId = lastUsed order packId := by
  induction order with
  | nil => rfl
  | cons item order ih =>
    have h := @lastUsed_upsert (replaceStickerPackOrder order) item packId
    rw [ih] at h
    rw [lastUsed_cons]
    simp only [eq_comm (a := item.stickerPackId)]
    exact h

theorem replace_nodup (order : List StickerPackOrderItem) :
    ((replaceStickerPackOrder order).map (·.stickerPackId)).Nodup := by
  induction order with
  | nil => exact .nil
  | cons item order ih => exact upsert_nodup item ih

theorem originalIndex_eq_none {packId : String} (h : packId ∉ packs.map (·.id)) (k : Nat) :
    originalIndex packId packs k = none := by
  induction packs generalizing k with
  | nil => rfl
  | cons pack packs ih =>
    rw [List.map_cons, List.mem_cons, not_or] at h
    rw [originalIndex, ih h.2, if_neg (Ne.symm h.1)]
    rfl

theorem originalIndex_eq (h : (packs.map (·.id)).Nodup) {pack : StickerPackSummary}
    (hpack : pack ∈ packs) (k : Nat) :
    originalIndex pack.id packs k = some (packs.idxOf pack + k) := by
  induction packs generalizing k with
  | nil => cases hpack
  | cons first packs ih =>
    rw [List.map_cons, List.nodup_cons] at h
    unfold originalIndex
    by_cases heq : first = pack
    · rw [← heq, originalIndex_eq_none h.1]
      simp
    · have hin : pack ∈ packs := (List.mem_cons.mp hpack).resolve_left (Ne.symm heq)
      rw [ih h.2 hin, List.idxOf_cons_ne _ heq]
      simp only [Option.some_or, Option.some.injEq]
      omega

theorem nodup_of_ids (h : (packs.map (·.id)).Nodup) : packs.Nodup := h.of_map _

end lookups

/-- The first pack is used later than the second, which may have no time. -/
def Above (t : String → Option Int) (a b : StickerPackSummary) : Prop :=
  match t a.id, t b.id with
  | some x, some y => y < x
  | none, some _ => False
  | _, none => True

/-- Packs without a time keep their order. -/
def Ranks (t : String → Option Int) (packs : List StickerPackSummary) (a b : StickerPackSummary) :
    Prop :=
  Above t a b ∧ (t a.id = none → t b.id = none → packs.idxOf a < packs.idxOf b)

/-- No two packs have the same time. -/
def NoTies (t : String → Option Int) (packs : List StickerPackSummary) : Prop :=
  ∀ a ∈ packs, ∀ b ∈ packs, a ≠ b → ∀ x, t a.id = some x → t b.id ≠ some x

/-- The comparator over the times and positions of two packs. -/
def compareTimes (i j : Int) : Option Int → Option Int → Int
  | some x, some y => if x ≠ y then y - x else -1
  | some _, none => -1
  | none, some _ => 1
  | none, none => i - j

theorem compareTimes_neg {x y : Option Int} {i j : Int} (h : ∀ v, x = some v → y ≠ some v) :
    compareTimes i j x y < 0 ↔ 0 < compareTimes j i y x := by
  cases x with
  | none =>
    cases y with
    | none =>
      show i - j < 0 ↔ 0 < j - i
      omega
    | some y =>
      show (1 : Int) < 0 ↔ (0 : Int) < -1
      omega
  | some x =>
    cases y with
    | none =>
      show (-1 : Int) < 0 ↔ (0 : Int) < 1
      omega
    | some y =>
      have hxy : x ≠ y := fun heq => h x rfl (heq ▸ rfl)
      simp only [compareTimes, if_pos hxy, if_pos hxy.symm]
      omega

theorem compareTimes_trans {x y z : Option Int} {i j k : Int} (hxy : ∀ v, x = some v → y ≠ some v)
    (hyz : ∀ v, y = some v → z ≠ some v) (hxz : ∀ v, x = some v → z ≠ some v)
    (h : compareTimes i j x y ≤ 0) (h' : compareTimes j k y z ≤ 0) :
    compareTimes i k x z ≤ 0 := by
  cases x with
  | none =>
    cases y with
    | none =>
      cases z with
      | none =>
        have h : i - j ≤ 0 := h
        have h' : j - k ≤ 0 := h'
        show i - k ≤ 0
        omega
      | some z => exact h'
    | some y => exact absurd h (by show ¬(1 : Int) ≤ 0; decide)
  | some x =>
    cases z with
    | none => exact (by decide : (-1 : Int) ≤ 0)
    | some z =>
      cases y with
      | none => exact absurd h' (by show ¬(1 : Int) ≤ 0; decide)
      | some y =>
        have hxy : x ≠ y := fun heq => hxy x rfl (heq ▸ rfl)
        have hyz : y ≠ z := fun heq => hyz y rfl (heq ▸ rfl)
        have hxz : x ≠ z := fun heq => hxz x rfl (heq ▸ rfl)
        simp only [compareTimes, if_pos hxy, if_pos hyz, if_pos hxz] at h h' ⊢
        omega

section sorting

variable {order : List StickerPackOrderItem} {packs out : List StickerPackSummary}
  {t u : String → Option Int} {a b : StickerPackSummary} {sort : EngineSort}

theorem Above.congr (ha : u a.id = t a.id) (hb : u b.id = t b.id) (h : Above t a b) :
    Above u a b := by
  unfold Above at h ⊢
  rwa [ha, hb]

theorem Ranks.congr (ha : u a.id = t a.id) (hb : u b.id = t b.id) (h : Ranks t packs a b) :
    Ranks u packs a b :=
  ⟨h.1.congr ha hb, fun h1 h2 => h.2 (ha ▸ h1) (hb ▸ h2)⟩

theorem comparePacks_eq (hids : (packs.map (·.id)).Nodup)
    (horder : (order.map (·.stickerPackId)).Nodup) (ha : a ∈ packs) (hb : b ∈ packs) :
    comparePacks order packs a b = compareTimes (packs.idxOf a) (packs.idxOf b)
      (lastUsed order a.id) (lastUsed order b.id) := by
  unfold comparePacks
  rw [lastUsedById_eq horder, lastUsedById_eq horder, originalIndex_eq hids ha,
    originalIndex_eq hids hb]
  cases lastUsed order a.id <;> cases lastUsed order b.id <;> rfl

theorem idxOf_ne (ha : a ∈ packs) (hne : a ≠ b) : packs.idxOf a ≠ packs.idxOf b :=
  fun heq => hne ((List.idxOf_inj ha).mp heq)

/-- The comparator is one exactly where no two packs have the same time. -/
theorem consistent_iff (hids : (packs.map (·.id)).Nodup)
    (horder : (order.map (·.stickerPackId)).Nodup) :
    Consistent (comparePacks order packs) packs ↔ NoTies (lastUsed order) packs := by
  constructor
  · intro h a ha b hb hne x hx hy
    have hanti := h.antisymm a ha b hb hne
    rw [comparePacks_eq hids horder ha hb, comparePacks_eq hids horder hb ha, hx, hy] at hanti
    simp [compareTimes] at hanti
  · intro h
    refine ⟨?_, ?_⟩
    · intro a ha b hb hne
      rw [comparePacks_eq hids horder ha hb, comparePacks_eq hids horder hb ha]
      exact compareTimes_neg (h a ha b hb hne)
    · intro a ha b hb c hc hab hbc hac
      rw [comparePacks_eq hids horder ha hb, comparePacks_eq hids horder hb hc,
        comparePacks_eq hids horder ha hc]
      exact compareTimes_trans (h a ha b hb hab) (h b hb c hc hbc) (h a ha c hc hac)

theorem ranks_of_le (hids : (packs.map (·.id)).Nodup)
    (horder : (order.map (·.stickerPackId)).Nodup) (hties : NoTies (lastUsed order) packs)
    (ha : a ∈ packs) (hb : b ∈ packs) (hne : a ≠ b) (h : comparePacks order packs a b ≤ 0) :
    Ranks (lastUsed order) packs a b := by
  rw [comparePacks_eq hids horder ha hb] at h
  have hidx := idxOf_ne ha hne
  have hties := hties a ha b hb hne
  unfold Ranks Above
  cases hx : lastUsed order a.id <;> cases hy : lastUsed order b.id <;> rw [hx, hy] at h
  · have h : (packs.idxOf a : Int) - packs.idxOf b ≤ 0 := h
    exact ⟨trivial, fun _ _ => by omega⟩
  · exact absurd h (by show ¬(1 : Int) ≤ 0; decide)
  · exact ⟨trivial, fun h => by cases h⟩
  · next x y =>
    have hxy : x ≠ y := fun heq => hties x hx (heq ▸ hy)
    simp only [compareTimes, if_pos hxy] at h
    refine ⟨?_, fun h => by cases h⟩
    show y < x
    omega

theorem Ranks.neg (hids : (packs.map (·.id)).Nodup)
    (horder : (order.map (·.stickerPackId)).Nodup) (ha : a ∈ packs) (hb : b ∈ packs)
    (h : Ranks (lastUsed order) packs a b) : comparePacks order packs a b < 0 := by
  rw [comparePacks_eq hids horder ha hb]
  unfold Ranks Above at h
  cases hx : lastUsed order a.id <;> cases hy : lastUsed order b.id <;> rw [hx, hy] at h
  · have hlt := h.2 rfl rfl
    show (packs.idxOf a : Int) - packs.idxOf b < 0
    omega
  · exact h.1.elim
  · exact (by decide : (-1 : Int) < 0)
  · next x y =>
    have hlt : y < x := h.1
    have hxy : x ≠ y := by omega
    simp only [compareTimes, if_pos hxy]
    omega

theorem noTies_of_pairwise (h : out.Pairwise (Above t)) : NoTies t out := by
  intro a ha b hb hne x hx hy
  have hsymm : Std.Symm fun a b => Above t a b ∨ Above t b a := ⟨fun _ _ h => Or.symm h⟩
  have hpair : out.Pairwise fun a b => Above t a b ∨ Above t b a := h.imp Or.inl
  have hor := hpair.forall ha hb hne
  simp [Above, hx, hy] at hor

theorem NoTies.perm (hperm : out.Perm packs) (h : NoTies t out) : NoTies t packs :=
  fun a ha b hb => h a (hperm.mem_iff.mpr ha) b (hperm.mem_iff.mpr hb)

/-- The sorted packs: those with a time first, the latest in front. -/
theorem ranks_sorted (hsort : CorrectSort sort) (hids : (packs.map (·.id)).Nodup)
    (horder : (order.map (·.stickerPackId)).Nodup) (hties : NoTies (lastUsed order) packs) :
    (sortStickerPacksByPreference sort packs order).Pairwise
      (Ranks (lastUsed order) packs) := by
  have hperm := hsort.perm (comparePacks order packs) packs
  have hnodup := hperm.nodup_iff.mpr (nodup_of_ids hids)
  have hordered := hsort.ordered _ _ (nodup_of_ids hids) ((consistent_iff hids horder).mpr hties)
  refine (hordered.and hnodup).imp_of_mem ?_
  intro a b ha hb h
  exact ranks_of_le hids horder hties (hperm.mem_iff.mp ha) (hperm.mem_iff.mp hb) h.2 h.1.le

/-- A list in this order is what any correct sort returns. -/
theorem sorted_eq (hsort : CorrectSort sort) (hids : (packs.map (·.id)).Nodup)
    (horder : (order.map (·.stickerPackId)).Nodup) (hperm : out.Perm packs)
    (hout : out.Pairwise (Ranks (lastUsed order) packs)) :
    sortStickerPacksByPreference sort packs order = out := by
  have hties : NoTies (lastUsed order) packs := (noTies_of_pairwise (hout.imp And.left)).perm hperm
  refine hsort.eq_of_pairwise (nodup_of_ids hids) ((consistent_iff hids horder).mpr hties) hperm ?_
  refine hout.imp_of_mem ?_
  intro a b ha hb h
  exact h.neg hids horder (hperm.mem_iff.mp ha) (hperm.mem_iff.mp hb)

theorem pairwise_idxOf (h : out.Nodup) : out.Pairwise fun a b => out.idxOf a < out.idxOf b := by
  rw [List.pairwise_iff_getElem]
  intro i j hi hj hij
  rw [h.idxOf_getElem, h.idxOf_getElem]
  exact hij

/-- In a list that is in order already, its own positions keep the packs without a time. -/
theorem ranks_self (h : out.Nodup) (hout : out.Pairwise (Above t)) :
    out.Pairwise (Ranks t out) :=
  (hout.and (pairwise_idxOf h)).imp fun h => ⟨h.1, fun _ _ => h.2⟩

end sorting

end Chahua.Stickers

import Mathlib.Data.Finset.Card
import Mathlib.Data.Finset.Union
import Mathlib.Data.Finset.Option
import Mathlib.Data.Finset.Max
import Mathlib.Tactic.Common

namespace Framework

universe u v

/-- A finite table: at most one row under each key. -/
structure Table (K : Type u) (V : Type v) where
  keys : Finset K
  row : K → Option V
  mem_keys : ∀ k, k ∈ keys ↔ (row k).isSome = true

namespace Table

variable {K : Type u} {V : Type v}

@[ext] theorem ext {a b : Table K V} (h : ∀ k, a.row k = b.row k) : a = b := by
  have hrow : a.row = b.row := funext h
  have hkeys : a.keys = b.keys := by
    ext k
    rw [a.mem_keys, b.mem_keys, h k]
  cases a
  cases b
  simp_all

def empty : Table K V := ⟨∅, fun _ => none, by simp⟩

@[simp] theorem empty_row (k : K) : (empty : Table K V).row k = none := rfl

/-- The keys of the rows that satisfy a predicate. -/
def select (t : Table K V) (p : K → V → Bool) : Finset K :=
  t.keys.filter fun k => (t.row k).any (p k)

theorem mem_select {t : Table K V} {p : K → V → Bool} {k : K} :
    k ∈ t.select p ↔ ∃ v, t.row k = some v ∧ p k v = true := by
  simp only [select, Finset.mem_filter, t.mem_keys, Option.any_eq_true]
  constructor
  · rintro ⟨-, v, hv, hp⟩
    exact ⟨v, hv, hp⟩
  · rintro ⟨v, hv, hp⟩
    exact ⟨by simp [hv], v, hv, hp⟩

/-- A selection only depends on whether each key holds a row with the property. -/
theorem select_congr {W : Type*} {a : Table K V} {b : Table K W} {p : K → V → Bool}
    {q : K → W → Bool} (h : ∀ k, (a.row k).any (p k) = (b.row k).any (q k)) :
    a.select p = b.select q := by
  ext k
  have hk := h k
  simp only [mem_select, ← Option.any_eq_true, hk]

theorem card_select_le {t t' : Table K V} {p : K → V → Bool}
    (h : ∀ k v, t'.row k = some v → p k v = true → ∃ w, t.row k = some w ∧ p k w = true) :
    (t'.select p).card ≤ (t.select p).card := by
  refine Finset.card_le_card fun k hk => ?_
  obtain ⟨v, hv, hp⟩ := mem_select.mp hk
  exact mem_select.mpr (h k v hv hp)

/-- The values an expression takes over the rows that satisfy a predicate. -/
def image {β : Type*} [DecidableEq β] (t : Table K V) (p : K → V → Bool) (f : K → V → β) :
    Finset β :=
  (t.select p).biUnion fun k => ((t.row k).map (f k)).toFinset

theorem mem_image {β : Type*} [DecidableEq β] {t : Table K V} {p : K → V → Bool}
    {f : K → V → β} {b : β} :
    b ∈ t.image p f ↔ ∃ k v, t.row k = some v ∧ p k v = true ∧ f k v = b := by
  simp only [image, Finset.mem_biUnion, mem_select, Option.mem_toFinset, Option.mem_def,
    Option.map_eq_some_iff]
  constructor
  · rintro ⟨k, ⟨v, hv, hp⟩, w, hw, rfl⟩
    exact ⟨k, w, hw, Option.some.inj (hv.symm.trans hw) ▸ hp, rfl⟩
  · rintro ⟨k, v, hv, hp, rfl⟩
    exact ⟨k, ⟨v, hv, hp⟩, v, hv, rfl⟩

section DecidableEq

variable [DecidableEq K]

/-- Insert a row, or replace the row stored under the key. -/
def upsert (t : Table K V) (k : K) (v : V) : Table K V :=
  ⟨insert k t.keys, fun j => if j = k then some v else t.row j, by
    intro j
    by_cases h : j = k <;> simp [h, t.mem_keys]⟩

theorem upsert_row (t : Table K V) (k : K) (v : V) (j : K) :
    (t.upsert k v).row j = if j = k then some v else t.row j := rfl

@[simp] theorem upsert_row_self (t : Table K V) (k : K) (v : V) :
    (t.upsert k v).row k = some v := by simp [upsert_row]

theorem upsert_row_ne (t : Table K V) {k j : K} (v : V) (h : j ≠ k) :
    (t.upsert k v).row j = t.row j := by simp [upsert_row, h]

theorem upsert_of_row {t : Table K V} {k : K} {v : V} (h : t.row k = some v) :
    t.upsert k v = t := by
  ext1 j
  by_cases hj : j = k
  · simp [hj, h]
  · simp [upsert_row, hj]

/-- A new row enters a selection or stays out of it. -/
theorem card_select_upsert {t : Table K V} {p : K → V → Bool} {k : K} {v : V}
    (h : t.row k = none) :
    ((t.upsert k v).select p).card = (t.select p).card + if p k v then 1 else 0 := by
  have hk : k ∉ t.select p := by
    intro hmem
    obtain ⟨w, hw, -⟩ := mem_select.mp hmem
    rw [h] at hw
    cases hw
  have hsel : (t.upsert k v).select p = if p k v then insert k (t.select p) else t.select p := by
    ext j
    rw [mem_select]
    by_cases hj : j = k
    · subst hj
      by_cases hp : p j v = true <;> simp [hp, hk]
    · rw [upsert_row_ne t v hj, ← mem_select]
      by_cases hp : p k v = true <;> simp [hp, hj]
  rw [hsel]
  by_cases hp : p k v = true
  · rw [if_pos hp, if_pos hp, Finset.card_insert_of_notMem hk]
  · rw [if_neg hp, if_neg hp, Nat.add_zero]

def erase (t : Table K V) (k : K) : Table K V :=
  ⟨t.keys.erase k, fun j => if j = k then none else t.row j, by
    intro j
    by_cases h : j = k <;> simp [h, t.mem_keys]⟩

theorem erase_row (t : Table K V) (k j : K) :
    (t.erase k).row j = if j = k then none else t.row j := rfl

@[simp] theorem erase_row_self (t : Table K V) (k : K) : (t.erase k).row k = none := by
  simp [erase_row]

theorem erase_row_ne (t : Table K V) {k j : K} (h : j ≠ k) :
    (t.erase k).row j = t.row j := by simp [erase_row, h]

theorem row_of_erase {t : Table K V} {k j : K} {v : V} (h : (t.erase k).row j = some v) :
    j ≠ k ∧ t.row j = some v := by
  rw [erase_row] at h
  split at h
  · cases h
  · next hne => exact ⟨hne, h⟩

theorem upsert_erase (t : Table K V) (k : K) (v : V) : (t.erase k).upsert k v = t.upsert k v := by
  ext1 j
  by_cases hj : j = k
  · simp [hj]
  · simp [upsert_row, erase_row, hj]

/-- A removed row leaves the selections it was in. -/
theorem card_select_erase {t : Table K V} {p : K → V → Bool} {k : K} {v : V}
    (h : t.row k = some v) :
    ((t.erase k).select p).card + (if p k v then 1 else 0) = (t.select p).card := by
  have hback : (t.erase k).upsert k v = t := by
    ext1 j
    by_cases hj : j = k
    · simp [hj, h]
    · simp [upsert_row, erase_row, hj]
  rw [← card_select_upsert (erase_row_self t k), hback]

/-- A replaced row may enter or leave a selection. -/
theorem card_select_replace {t : Table K V} {p : K → V → Bool} {k : K} {v w : V}
    (h : t.row k = some v) :
    ((t.upsert k w).select p).card + (if p k v then 1 else 0) =
      (t.select p).card + if p k w then 1 else 0 := by
  have hold := @card_select_erase _ _ _ t p k v h
  have hnew := @card_select_upsert _ _ _ (t.erase k) p k w (erase_row_self t k)
  rw [upsert_erase] at hnew
  omega

/-- Values stored one by one: under a key whose values all agree stands that value. -/
theorem foldl_upsert_row {α : Type*} {key : α → K} {value : α → V} {xs : List α} {t : Table K V}
    {k : K} {v : V} (hsame : ∀ x ∈ xs, key x = k → value x = v)
    (h : t.row k = some v ∨ ∃ x ∈ xs, key x = k) :
    (xs.foldl (fun t x => t.upsert (key x) (value x)) t).row k = some v := by
  induction xs generalizing t with
  | nil => simpa using h
  | cons x xs ih =>
    refine ih (fun y hy => hsame y (List.mem_cons_of_mem _ hy)) ?_
    by_cases hx : key x = k
    · left
      rw [← hx, upsert_row_self, hsame x List.mem_cons_self hx]
    · rw [upsert_row_ne _ _ (Ne.symm hx)]
      refine h.imp id fun hk => ?_
      obtain ⟨y, hy, hkey⟩ := hk
      rcases List.mem_cons.mp hy with rfl | hy
      · exact absurd hkey hx
      · exact ⟨y, hy, hkey⟩

/-- The table of a list of rows; of two rows under one key the first is kept. -/
def ofList (rows : List (K × V)) : Table K V :=
  rows.foldr (fun r t => t.upsert r.1 r.2) empty

@[simp] theorem ofList_nil : (ofList [] : Table K V) = empty := rfl

theorem ofList_cons_row (r : K × V) (rows : List (K × V)) (k : K) :
    (ofList (r :: rows)).row k = if k = r.1 then some r.2 else (ofList rows).row k := rfl

theorem ofList_row_eq_none {rows : List (K × V)} {k : K} :
    (ofList rows).row k = none ↔ k ∉ rows.map Prod.fst := by
  induction rows with
  | nil => simp
  | cons r rows ih =>
    rw [ofList_cons_row]
    by_cases h : k = r.1 <;> simp [h, ih]

theorem mem_of_ofList_row {rows : List (K × V)} {k : K} {v : V}
    (h : (ofList rows).row k = some v) : (k, v) ∈ rows := by
  induction rows with
  | nil => cases h
  | cons r rows ih =>
    rw [ofList_cons_row] at h
    split at h
    · next hk => simp [hk, ← Option.some.inj h]
    · exact List.mem_cons_of_mem _ (ih h)

theorem ofList_append_row (a b : List (K × V)) (k : K) :
    (ofList (a ++ b)).row k = ((ofList a).row k).or ((ofList b).row k) := by
  induction a with
  | nil => simp
  | cons r a ih =>
    rw [List.cons_append, ofList_cons_row, ofList_cons_row, ih]
    by_cases h : k = r.1 <;> simp [h]

theorem ofList_map_row {W : Type*} (f : V → W) (rows : List (K × V)) (k : K) :
    (ofList (rows.map fun r => (r.1, f r.2))).row k = ((ofList rows).row k).map f := by
  induction rows with
  | nil => rfl
  | cons r rows ih =>
    rw [List.map_cons, ofList_cons_row, ofList_cons_row, ih]
    by_cases h : k = r.1 <;> simp [h]

theorem ofList_const_row (v : V) (keys : List K) (k : K) :
    (ofList (keys.map fun j => (j, v))).row k = if k ∈ keys then some v else none := by
  induction keys with
  | nil => rfl
  | cons j keys ih =>
    rw [List.map_cons, ofList_cons_row, ih]
    by_cases h : k = j <;> simp [h]

/-- The table of a function over finitely many keys. -/
def tabulate (keys : Finset K) (f : K → V) : Table K V :=
  ⟨keys, fun k => if k ∈ keys then some (f k) else none, by
    intro k
    by_cases h : k ∈ keys <;> simp [h]⟩

theorem tabulate_row (keys : Finset K) (f : K → V) (k : K) :
    (tabulate keys f).row k = if k ∈ keys then some (f k) else none := rfl

/-- The rows of `upper` replace those of `t`; a key that `upper` maps to `none` is removed. -/
def overlay (t : Table K V) (upper : Table K (Option V)) : Table K V :=
  ⟨(t.keys ∪ upper.keys).filter fun k => ((upper.row k).getD (t.row k)).isSome,
    fun k => (upper.row k).getD (t.row k), by
    intro k
    simp only [Finset.mem_filter, Finset.mem_union, t.mem_keys, upper.mem_keys]
    cases upper.row k <;> simp⟩

theorem overlay_row (t : Table K V) (upper : Table K (Option V)) (k : K) :
    (t.overlay upper).row k = (upper.row k).getD (t.row k) := rfl

/-- The rows under some of the keys. -/
def restrict (t : Table K V) (keys : Finset K) : Table K V :=
  ⟨t.keys ∩ keys, fun k => if k ∈ keys then t.row k else none, by
    intro k
    by_cases h : k ∈ keys <;> simp [h, t.mem_keys]⟩

theorem restrict_row (t : Table K V) (keys : Finset K) (k : K) :
    (t.restrict keys).row k = if k ∈ keys then t.row k else none := rfl

/-- Every row of `upper` is stored over what `t` holds under its key. -/
def union (t upper : Table K V) : Table K V :=
  ⟨t.keys ∪ upper.keys, fun k => (upper.row k).or (t.row k), by
    intro k
    simp [t.mem_keys, upper.mem_keys, or_comm]⟩

theorem union_row (t upper : Table K V) (k : K) :
    (t.union upper).row k = (upper.row k).or (t.row k) := rfl

end DecidableEq

/-- `UPDATE … SET … WHERE`: rewrite the rows that satisfy the predicate. -/
def updateWhere (t : Table K V) (p : K → V → Bool) (f : K → V → V) : Table K V :=
  ⟨t.keys, fun k => (t.row k).map fun v => if p k v then f k v else v, by
    intro k
    simp [t.mem_keys]⟩

theorem updateWhere_row (t : Table K V) (p : K → V → Bool) (f : K → V → V) (k : K) :
    (t.updateWhere p f).row k = (t.row k).map fun v => if p k v then f k v else v := rfl

theorem updateWhere_row_some {t : Table K V} {p : K → V → Bool} {f : K → V → V} {k : K} {v : V}
    (h : t.row k = some v) :
    (t.updateWhere p f).row k = some (if p k v then f k v else v) := by
  simp [updateWhere_row, h]

/-- `DELETE … WHERE`. -/
def deleteWhere (t : Table K V) (p : K → V → Bool) : Table K V :=
  ⟨t.keys.filter fun k => (t.row k).any (fun v => !p k v),
    fun k => (t.row k).filter fun v => !p k v, by
    intro k
    cases hk : t.row k <;> simp [t.mem_keys, hk, Option.filter]⟩

theorem deleteWhere_row (t : Table K V) (p : K → V → Bool) (k : K) :
    (t.deleteWhere p).row k = (t.row k).filter fun v => !p k v := rfl

/-- The rows a function keeps, with what it makes of them. -/
def filterMap {W : Type*} (t : Table K V) (f : K → V → Option W) : Table K W where
  keys := t.keys.filter fun k => ((t.row k).bind (f k)).isSome
  row k := (t.row k).bind (f k)
  mem_keys k := by
    rw [Finset.mem_filter, t.mem_keys]
    cases t.row k <;> simp

@[simp] theorem filterMap_row {W : Type*} (t : Table K V) (f : K → V → Option W) (k : K) :
    (t.filterMap f).row k = (t.row k).bind (f k) := rfl

/-- `ORDER BY key DESC LIMIT 1` over the rows that satisfy a predicate. -/
def newest [LinearOrder K] (t : Table K V) (p : K → V → Bool) : Option K :=
  (t.select p).max

theorem newest_eq_some [LinearOrder K] {t : Table K V} {p : K → V → Bool} {k : K} :
    t.newest p = some k ↔ k ∈ t.select p ∧ ∀ j ∈ t.select p, j ≤ k := by
  constructor
  · intro h
    exact ⟨Finset.mem_of_max h, fun j hj => Finset.le_max_of_eq hj h⟩
  · rintro ⟨hk, hle⟩
    obtain ⟨m, hm⟩ := Finset.max_of_mem hk
    have hmk : m = k := le_antisymm (hle m (Finset.mem_of_max hm)) (Finset.le_max_of_eq hk hm)
    exact hmk ▸ hm

theorem newest_eq_none [LinearOrder K] {t : Table K V} {p : K → V → Bool} :
    t.newest p = none ↔ t.select p = ∅ :=
  Finset.max_eq_bot

/-- `ORDER BY key ASC LIMIT 1`. -/
def oldest [LinearOrder K] (t : Table K V) (p : K → V → Bool) : Option K :=
  (t.select p).min

theorem oldest_mem [LinearOrder K] {t : Table K V} {p : K → V → Bool} {k : K}
    (h : t.oldest p = some k) : k ∈ t.select p := Finset.mem_of_min h

end Table

section Ascending

variable {K : Type u} [LinearOrder K]

/-- The first `limit` elements in ascending order. -/
def ascendingUpTo : Nat → Finset K → List K
  | 0, _ => []
  | limit + 1, s =>
      match (s.min : Option K) with
      | some k => k :: ascendingUpTo limit (s.erase k)
      | none => []

def ascending (s : Finset K) : List K := ascendingUpTo s.card s

theorem mem_of_mem_ascendingUpTo {limit : Nat} {s : Finset K} {k : K}
    (h : k ∈ ascendingUpTo limit s) : k ∈ s := by
  induction limit generalizing s with
  | zero => simp [ascendingUpTo] at h
  | succ limit ih =>
    simp only [ascendingUpTo] at h
    split at h
    · next j hj =>
      rcases List.mem_cons.mp h with rfl | h
      · exact Finset.mem_of_min hj
      · exact Finset.mem_of_mem_erase (ih h)
    · simp at h

theorem nodup_ascendingUpTo (limit : Nat) (s : Finset K) : (ascendingUpTo limit s).Nodup := by
  induction limit generalizing s with
  | zero => simp [ascendingUpTo]
  | succ limit ih =>
    simp only [ascendingUpTo]
    split
    · next j hj =>
      refine List.nodup_cons.mpr ⟨fun hmem => ?_, ih _⟩
      exact Finset.notMem_erase j s (mem_of_mem_ascendingUpTo hmem)
    · simp

theorem mem_ascendingUpTo {limit : Nat} {s : Finset K} {k : K} (hcard : s.card ≤ limit) :
    k ∈ ascendingUpTo limit s ↔ k ∈ s := by
  refine ⟨mem_of_mem_ascendingUpTo, fun h => ?_⟩
  induction limit generalizing s with
  | zero => simp [Finset.card_eq_zero.mp (Nat.le_zero.mp hcard)] at h
  | succ limit ih =>
    simp only [ascendingUpTo]
    split
    · next j hj =>
      have hj' : j ∈ s := Finset.mem_of_min hj
      by_cases hk : k = j
      · simp [hk]
      · refine List.mem_cons_of_mem _ (ih ?_ (Finset.mem_erase.mpr ⟨hk, h⟩))
        rw [Finset.card_erase_of_mem hj']
        omega
    · next hnone =>
      rw [Finset.min_eq_top.mp hnone] at h
      simp at h

@[simp] theorem mem_ascending {s : Finset K} {k : K} : k ∈ ascending s ↔ k ∈ s :=
  mem_ascendingUpTo le_rfl

theorem nodup_ascending (s : Finset K) : (ascending s).Nodup := nodup_ascendingUpTo _ s

theorem pairwise_ascendingUpTo (limit : Nat) (s : Finset K) :
    (ascendingUpTo limit s).Pairwise (· < ·) := by
  induction limit generalizing s with
  | zero => simp [ascendingUpTo]
  | succ limit ih =>
    simp only [ascendingUpTo]
    split
    · next j hj =>
      refine List.pairwise_cons.mpr ⟨fun k hk => ?_, ih _⟩
      have hmem := Finset.mem_erase.mp (mem_of_mem_ascendingUpTo hk)
      exact lt_of_le_of_ne (Finset.min_le_of_eq hmem.2 hj) hmem.1.symm
    · simp

theorem pairwise_ascending (s : Finset K) : (ascending s).Pairwise (· < ·) :=
  pairwise_ascendingUpTo _ s

/-- The one ascending list of the elements. -/
theorem ascending_eq_of_pairwise {s : Finset K} {keys : List K} (h : keys.Pairwise (· < ·))
    (hmem : ∀ k, k ∈ keys ↔ k ∈ s) : ascending s = keys := by
  have hperm : (ascending s).Perm keys := by
    refine (List.perm_ext_iff_of_nodup (nodup_ascending s) (h.imp ne_of_lt)).mpr fun k => ?_
    rw [mem_ascending, hmem]
  exact hperm.eq_of_pairwise (fun a b _ _ hab hba => absurd hba hab.not_gt)
    (pairwise_ascending s) h

end Ascending

end Framework

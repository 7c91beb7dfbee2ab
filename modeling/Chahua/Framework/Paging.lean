import Mathlib.Order.Basic
import Mathlib.Data.List.Sort
import Mathlib.Tactic.Common
import Mathlib.Tactic.Ring

namespace Framework

universe u v
variable {α : Type u} {κ : Type v}

/-- One page of a listing: the rows it shows and the cursor of the page after it. -/
structure Chunk (α : Type u) (κ : Type v) where
  rows : List α
  next : Option κ

/-- A page of `limit` rows is cut from one more: the extra row says that a page follows. -/
def chunk (cursor : α → κ) (limit : Nat) (rows : List α) : Chunk α κ where
  rows := rows.take limit
  next := if limit < rows.length then ((rows.take limit).getLast?).map cursor else none

/-- The pages a reader sees who passes each cursor on while there is one. -/
inductive Walk (fetch : Option κ → Chunk α κ) : Option κ → List (Chunk α κ) → Prop
  | last {c : Option κ} (h : (fetch c).next = none) : Walk fetch c [fetch c]
  | more {c : Option κ} {k : κ} {pages : List (Chunk α κ)} (h : (fetch c).next = some k)
      (later : Walk fetch (some k) pages) : Walk fetch c (fetch c :: pages)

/-- The pages end each time their cursor does, and only then. -/
def EndsWith (rows : List α) (page : Chunk α κ) : Prop :=
  page.next = none ↔ ∀ x ∈ rows.getLast?, x ∈ page.rows

variable {cursor : α → κ} {limit : Nat}

theorem chunk_take {n : Nat} (hn : n = limit + 1) (rows : List α) :
    chunk cursor limit (rows.take n) = chunk cursor limit rows := by
  subst hn
  simp [chunk, List.take_take]

theorem chunk_of_le {rows : List α} (h : rows.length ≤ limit) :
    chunk cursor limit rows = ⟨rows, none⟩ := by
  simp [chunk, List.take_of_length_le h, Nat.not_lt.mpr h]

/-- A longer listing is cut after its row number `limit`. -/
theorem chunk_split (cursor : α → κ) (hl : 0 < limit) {rows : List α} (h : limit < rows.length) :
    ∃ pre x, rows.take limit = pre ++ [x] ∧
      chunk cursor limit rows = ⟨pre ++ [x], some (cursor x)⟩ := by
  obtain hnil | ⟨pre, x, hx⟩ := List.eq_nil_or_concat' (rows.take limit)
  · have hlen : (rows.take limit).length = limit := List.length_take_of_le h.le
    rw [hnil] at hlen
    exact absurd hlen.symm hl.ne'
  · exact ⟨pre, x, hx, by simp [chunk, h, hx]⟩

namespace Walk

variable {fetch : Option κ → Chunk α κ} {c : Option κ} {pages : List (Chunk α κ)}

theorem unique (h : Walk fetch c pages) : ∀ {others}, Walk fetch c others → others = pages := by
  induction h with
  | last h =>
    intro others ho
    cases ho with
    | last => rfl
    | more hk => simp [h] at hk
  | more h _ ih =>
    intro others ho
    cases ho with
    | last hn => simp [h] at hn
    | more hk later =>
      obtain rfl := Option.some.inj (h.symm.trans hk)
      rw [ih later]

end Walk

/-- `rest c` lists what follows a cursor: after the cursor of one of its rows, what stands
behind that row. -/
def Follows (cursor : α → κ) (rest : Option κ → List α) : Prop :=
  ∀ c pre x suf, rest c = pre ++ x :: suf → rest (some (cursor x)) = suf

theorem Follows.map {β : Type*} {rest : Option κ → List α} {cursor' : β → κ} {f : α → β}
    (h : Follows cursor rest) (hf : ∀ a, cursor' (f a) = cursor a) :
    Follows cursor' fun c => (rest c).map f := by
  intro c pre y suf hs
  obtain ⟨l, l', hl, rfl, hl'⟩ := List.map_eq_append_iff.mp hs
  obtain ⟨a, l, rfl, rfl, rfl⟩ := List.map_eq_cons_iff.mp hl'
  simp only [hf, h c _ a l hl]

/-- Pages cut from such a listing are all of it, in its order, and the last page is the one that
holds its last row. -/
theorem walk_of_follows {fetch : Option κ → Chunk α κ} {rest : Option κ → List α}
    (hl : 0 < limit) (hf : ∀ k, fetch (some k) = chunk cursor limit (rest (some k)))
    (hr : Follows cursor rest) {c : Option κ} (hfirst : fetch c = chunk cursor limit (rest c))
    (hn : (rest c).Nodup) :
    ∃ pages, Walk fetch c pages ∧ pages.flatMap Chunk.rows = rest c ∧
      ∀ page ∈ pages, EndsWith (rest c) page := by
  induction hk : (rest c).length using Nat.strong_induction_on generalizing c with
  | _ n ih =>
    subst hk
    by_cases hle : (rest c).length ≤ limit
    · have hc : fetch c = ⟨rest c, none⟩ := hfirst.trans (chunk_of_le hle)
      refine ⟨[fetch c], .last (by rw [hc]), by simp [hc], ?_⟩
      intro page hp
      rw [List.mem_singleton.mp hp, hc]
      simp only [EndsWith, true_iff]
      intro x hx
      exact List.mem_of_getLast? hx
    · have hlt : limit < (rest c).length := Nat.lt_of_not_le hle
      obtain ⟨pre, x, htake, hcut⟩ := chunk_split cursor hl hlt
      have hsplit : rest c = pre ++ x :: (rest c).drop limit := by
        calc rest c = (rest c).take limit ++ (rest c).drop limit :=
              (List.take_append_drop limit _).symm
          _ = pre ++ x :: (rest c).drop limit := by rw [htake]; simp
      have hnext := hr c pre x _ hsplit
      have hc : fetch c = ⟨pre ++ [x], some (cursor x)⟩ := hfirst.trans hcut
      obtain ⟨pages, hw, hrows, hends⟩ := ih ((rest c).drop limit).length
        (by rw [List.length_drop]; omega) (hf (cursor x))
        (by rw [hnext]; exact hn.sublist (List.drop_sublist _ _)) (by rw [hnext])
      have hlast : (rest c).getLast? = ((rest c).drop limit).getLast? := by
        rw [List.getLast?_drop, if_neg (by omega)]
      refine ⟨fetch c :: pages, .more (by rw [hc]) hw, ?_, ?_⟩
      · rw [List.flatMap_cons, hrows, hnext, hc]
        simpa using hsplit.symm
      · intro page hp
        obtain rfl | hp := List.mem_cons.mp hp
        · simp only [EndsWith, hc, reduceCtorEq, false_iff, hlast]
          intro hall
          have hne : (rest c).drop limit ≠ [] := by simpa using hlt
          have hy := List.getLast?_eq_some_getLast hne
          have hdisj := List.disjoint_take_drop hn (le_refl limit)
          exact hdisj (by rw [htake]; exact hall _ hy) (List.getLast_mem hne)
        · simpa only [EndsWith, hnext, hlast] using hends page hp

/-- No two neighbours of a list are equal where a page of it ends. -/
def ApartAt {β : Type*} (limit : Nat) (keys : List β) : Prop :=
  ∀ j a b, keys[limit * (j + 1) - 1]? = some a → keys[limit * (j + 1)]? = some b → a ≠ b

theorem apartAt_of_le {β : Type*} {keys : List β} (h : keys.length ≤ limit) :
    ApartAt limit keys := by
  intro j a b _ hb
  have hlt := (List.getElem?_eq_some_iff.mp hb).1
  have hle : limit * 1 ≤ limit * (j + 1) := Nat.mul_le_mul_left _ (by omega)
  omega

/-- The first page ends between two keys, and the others are pages of what stands behind it. -/
theorem apartAt_append {β : Type*} {pre suf : List β} {x y : β} (h : pre.length + 1 = limit) :
    ApartAt limit (pre ++ x :: y :: suf) ↔ x ≠ y ∧ ApartAt limit (y :: suf) := by
  have hbehind : ∀ i, (pre ++ x :: y :: suf)[limit + i]? = (y :: suf)[i]? := by
    intro i
    rw [← h, List.getElem?_append_right (by omega)]
    have hi : pre.length + 1 + i - pre.length = i + 1 := by omega
    rw [hi, List.getElem?_cons_succ]
  have hx : (pre ++ x :: y :: suf)[limit - 1]? = some x := by
    rw [← h, List.getElem?_append_right (by omega)]
    simp
  constructor
  · intro ha
    refine ⟨ha 0 x y (by simpa using hx) (by simpa using hbehind 0), fun j a b hja hjb => ?_⟩
    have hj : limit * (j + 1 + 1) = limit + limit * (j + 1) := by ring
    have hpos : 1 ≤ limit * (j + 1) := Nat.mul_pos (by omega) (by omega)
    refine ha (j + 1) a b ?_ ?_
    · rw [hj, Nat.add_sub_assoc hpos, hbehind, hja]
    · rw [hj, hbehind, hjb]
  · intro ha j a b hja hjb
    cases j with
    | zero =>
      simp only [Nat.zero_add, Nat.mul_one, hx, Option.some.injEq] at hja
      have hy := hbehind 0
      simp only [Nat.add_zero, List.getElem?_cons_zero] at hy
      simp only [Nat.zero_add, Nat.mul_one, hy, Option.some.injEq] at hjb
      exact hja ▸ hjb ▸ ha.1
    | succ j =>
      have hj : limit * (j + 1 + 1) = limit + limit * (j + 1) := by ring
      have hpos : 1 ≤ limit * (j + 1) := Nat.mul_pos (by omega) (by omega)
      rw [hj, Nat.add_sub_assoc hpos, hbehind] at hja
      rw [hj, hbehind] at hjb
      exact ha.2 j a b hja hjb

/-- `rest` lists, in descending order of a key that several rows may share, the rows below a
cursor. -/
structure Narrows {β : Type*} [LinearOrder β] (key : α → β) (rest : Option β → List α) :
    Prop where
  sorted : ∀ c, (rest c).Pairwise fun a b => key b ≤ key a
  below : ∀ c, ∀ x ∈ rest c,
    (rest (some (key x))).Perm ((rest c).filter fun a => decide (key a < key x))

/-- Pages that go on below the last key shown list each row once exactly when no page ends
between two rows of one key. -/
theorem walk_of_narrows {β : Type*} [LinearOrder β] {key : α → β}
    {fetch : Option β → Chunk α β} {rest : Option β → List α} (hl : 0 < limit)
    (hf : ∀ c, fetch c = chunk key limit (rest c)) (hr : Narrows key rest) (c : Option β) :
    ∃ pages, Walk fetch c pages ∧ (pages.flatMap Chunk.rows).length ≤ (rest c).length ∧
      ((pages.flatMap Chunk.rows).Perm (rest c) ↔ ApartAt limit ((rest c).map key)) := by
  induction hk : (rest c).length using Nat.strong_induction_on generalizing c with
  | _ n ih =>
    subst hk
    by_cases hle : (rest c).length ≤ limit
    · have hc : fetch c = ⟨rest c, none⟩ := (hf c).trans (chunk_of_le hle)
      refine ⟨[fetch c], .last (by rw [hc]), by simp [hc], ?_⟩
      simp [hc, apartAt_of_le (show ((rest c).map key).length ≤ limit by simpa using hle)]
    · have hlt : limit < (rest c).length := Nat.lt_of_not_le hle
      obtain ⟨pre, x, htake, hcut⟩ := chunk_split key hl hlt
      have hpre : pre.length + 1 = limit := by
        have := congrArg List.length htake
        simp only [List.length_take, List.length_append, List.length_singleton] at this
        omega
      obtain ⟨y, suf, hdrop⟩ : ∃ y suf, (rest c).drop limit = y :: suf :=
        List.exists_cons_of_ne_nil (by simpa using hlt)
      have hsplit : rest c = pre ++ x :: y :: suf := by
        calc rest c = (rest c).take limit ++ (rest c).drop limit :=
              (List.take_append_drop limit _).symm
          _ = pre ++ x :: y :: suf := by rw [htake, hdrop]; simp
      have hc : fetch c = ⟨pre ++ [x], some (key x)⟩ := (hf c).trans hcut
      have hsorted := hsplit ▸ hr.sorted c
      obtain ⟨-, hxs, hpx⟩ := List.pairwise_append.mp hsorted
      have hbelow : (rest (some (key x))).Perm
          ((y :: suf).filter fun a => decide (key a < key x)) := by
        have h := hr.below c x (by rw [hsplit]; simp)
        have hnone : (pre.filter fun a => decide (key a < key x)) = [] := by
          refine List.filter_eq_nil_iff.mpr fun a ha => ?_
          simpa using hpx a ha x List.mem_cons_self
        rwa [hsplit, List.filter_append, hnone, List.nil_append, List.filter_cons_of_neg (by simp)]
          at h
      have hshort : (rest (some (key x))).length ≤ (y :: suf).length :=
        hbelow.length_eq.trans_le (List.length_filter_le _ _)
      have hlen : (rest c).length = limit + (y :: suf).length := by
        rw [hsplit, ← hpre]
        simp
        omega
      obtain ⟨pages, hw, hle', hperm⟩ := ih (rest (some (key x))).length (by omega)
        (some (key x)) rfl
      refine ⟨fetch c :: pages, .more (by rw [hc]) hw, ?_, ?_⟩
      · simp only [List.flatMap_cons, hc, List.length_append, List.length_singleton]
        omega
      · have hflat : ((fetch c :: pages).flatMap Chunk.rows).Perm (rest c) ↔
            (pages.flatMap Chunk.rows).Perm (y :: suf) := by
          have hrow : rest c = (pre ++ [x]) ++ (y :: suf) := by rw [hsplit]; simp
          rw [List.flatMap_cons, hc, hrow]
          exact List.perm_append_left_iff _
        rw [hflat, hsplit, List.map_append, List.map_cons, List.map_cons,
          apartAt_append (by simpa using hpre)]
        have hyx : key y ≤ key x := (List.pairwise_cons.mp hxs).1 y List.mem_cons_self
        obtain hlt' | heq := hyx.lt_or_eq
        · have hall : ((y :: suf).filter fun a => decide (key a < key x)) = y :: suf := by
            refine List.filter_eq_self.mpr fun a ha => decide_eq_true ?_
            obtain rfl | ha := List.mem_cons.mp ha
            · exact hlt'
            · have htail := (List.pairwise_cons.mp (List.pairwise_cons.mp hxs).2).1 a ha
              exact htail.trans_lt hlt'
          rw [hall] at hbelow
          have hkeys : (rest (some (key x))).map key = (y :: suf).map key := by
            refine (hbelow.map key).eq_of_pairwise
              (fun a b _ _ (hab : b ≤ a) hba => le_antisymm hba hab) ?_ ?_
            · exact List.pairwise_map.mpr (hr.sorted _)
            · exact List.pairwise_map.mpr (List.pairwise_cons.mp hxs).2
          rw [hkeys, List.map_cons] at hperm
          rw [← hperm]
          exact ⟨fun h => ⟨hlt'.ne', h.trans hbelow.symm⟩, fun h => h.2.trans hbelow⟩
        · refine ⟨fun h => absurd h.length_eq ?_, fun h => absurd heq.symm h.1⟩
          have hcut : ((y :: suf).filter fun a => decide (key a < key x)).length <
              (y :: suf).length := by
            rw [List.filter_cons_of_neg (by simp [heq])]
            exact Nat.lt_succ_of_le (List.length_filter_le _ _)
          have := hbelow.length_eq
          omega

/-- The pages behind a cursor that a page may have left. -/
def Continues (fetch : Option κ → Chunk α κ) : Option κ → List (Chunk α κ) → Prop
  | none, pages => pages = []
  | some k, pages => Walk fetch (some k) pages

/-- A page cut from a listing of its own, whose rows are followed as in `rest`, is continued by
the pages of what it left out. -/
theorem continues_of_follows {fetch : Option κ → Chunk α κ} {rest : Option κ → List α}
    (hl : 0 < limit) (hf : ∀ k, fetch (some k) = chunk cursor limit (rest (some k)))
    (hr : Follows cursor rest) {k : Nat} {rows : List α} (hk : 0 < k ∨ rows = [])
    (hn : rows.Nodup)
    (hrows : ∀ pre x suf, rows = pre ++ x :: suf → rest (some (cursor x)) = suf) :
    ∃ pages, Continues fetch (chunk cursor k rows).next pages ∧
      pages.flatMap Chunk.rows = rows.drop k := by
  by_cases hle : rows.length ≤ k
  · rw [chunk_of_le hle]
    exact ⟨[], rfl, by simp [List.drop_eq_nil_of_le hle]⟩
  · have hlt : k < rows.length := Nat.lt_of_not_le hle
    have hpos : 0 < k := hk.resolve_right (by rintro rfl; simp at hlt)
    obtain ⟨pre, x, htake, hcut⟩ := chunk_split cursor hpos hlt
    have hsplit : rows = pre ++ x :: rows.drop k := by
      calc rows = rows.take k ++ rows.drop k := (List.take_append_drop k _).symm
        _ = pre ++ x :: rows.drop k := by rw [htake]; simp
    have hnext := hrows pre x _ hsplit
    obtain ⟨pages, hw, hflat, -⟩ := walk_of_follows hl hf hr (hf (cursor x))
      (by rw [hnext]; exact hn.sublist (List.drop_sublist _ _))
    rw [hcut]
    exact ⟨pages, hw, hflat.trans hnext⟩

theorem chunk_next_isSome {k : Nat} {rows : List α} (hk : 0 < k ∨ rows = []) :
    (chunk cursor k rows).next.isSome = true ↔ rows.drop k ≠ [] := by
  by_cases hle : rows.length ≤ k
  · simp [chunk_of_le hle, hle]
  · have hlt : k < rows.length := Nat.lt_of_not_le hle
    have hpos : 0 < k := hk.resolve_right (by rintro rfl; simp at hlt)
    obtain ⟨pre, x, -, hcut⟩ := chunk_split cursor hpos hlt
    simp [hcut, hlt]

/-- A part of a strictly descending list that holds all below its elements, cut at one of them:
behind it stands what the whole list holds below it. -/
theorem filter_below {β : Type*} [LinearOrder β] {rank : α → β} {p : α → Bool}
    {rows pre suf : List α} {x : α} (hs : rows.Pairwise fun a b => rank b < rank a)
    (hp : ∀ a b, p a = true → rank b < rank a → p b = true)
    (h : rows.filter p = pre ++ x :: suf) :
    (rows.filter fun a => decide (rank a < rank x)) = suf := by
  have hx : p x = true := (List.mem_filter.mp (by rw [h]; simp : x ∈ rows.filter p)).2
  have hcut : (pre ++ x :: suf).Pairwise fun a b => rank b < rank a := h ▸ hs.filter p
  obtain ⟨-, hsuf, hpre⟩ := List.pairwise_append.mp hcut
  have hbefore : (pre.filter fun a => decide (rank a < rank x)) = [] := by
    refine List.filter_eq_nil_iff.mpr fun a ha => ?_
    simpa using (hpre a ha x List.mem_cons_self).le
  have hbehind : (suf.filter fun a => decide (rank a < rank x)) = suf :=
    List.filter_eq_self.mpr fun a ha => decide_eq_true ((List.pairwise_cons.mp hsuf).1 a ha)
  calc (rows.filter fun a => decide (rank a < rank x))
      = (rows.filter p).filter fun a => decide (rank a < rank x) := by
        rw [List.filter_filter]
        refine List.filter_congr fun a _ => ?_
        by_cases hb : rank a < rank x
        · simp [hb, hp x a hx hb]
        · simp [hb]
    _ = suf := by simp [h, List.filter_append, hbefore, hbehind]

/-- `ORDER BY rank DESC`. -/
def orderDesc {β : Type*} [LinearOrder β] (rank : α → β) (rows : List α) : List α :=
  rows.mergeSort fun a b => decide (rank b ≤ rank a)

section orderDesc

variable {β : Type*} [LinearOrder β] {rank : α → β} {rows : List α}

theorem orderDesc_perm (rank : α → β) (rows : List α) : (orderDesc rank rows).Perm rows :=
  List.mergeSort_perm rows _

@[simp] theorem mem_orderDesc {a : α} : a ∈ orderDesc rank rows ↔ a ∈ rows :=
  (orderDesc_perm rank rows).mem_iff

theorem orderDesc_sorted (rank : α → β) (rows : List α) :
    (orderDesc rank rows).Pairwise fun a b => rank b ≤ rank a := by
  refine (List.pairwise_mergeSort ?_ ?_ rows).imp fun h => by simpa using h
  · intro a b c hab hbc
    simp only [decide_eq_true_eq] at hab hbc ⊢
    exact hbc.trans hab
  · intro a b
    simpa using le_total (rank b) (rank a)

/-- Rows of different ranks stand strictly ordered. -/
theorem orderDesc_strict (hd : (rows.map rank).Nodup) :
    (orderDesc rank rows).Pairwise fun a b => rank b < rank a := by
  have hn : ((orderDesc rank rows).map rank).Nodup :=
    ((orderDesc_perm rank rows).map rank).nodup_iff.mpr hd
  have hne : (orderDesc rank rows).Pairwise fun a b => rank a ≠ rank b := List.pairwise_map.mp hn
  exact ((orderDesc_sorted rank rows).and hne).imp fun h => lt_of_le_of_ne h.1 h.2.symm

end orderDesc

end Framework

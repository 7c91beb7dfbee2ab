import Chahua.Framework.Paging

namespace Framework

universe u v
variable {α : Type u} {κ : Type v}

/-- What a reader holds who passes each page's cursor on, fetching every page from the listing of
its own time. -/
structure Reader (α : Type u) (κ : Type v) where
  rows : List α
  cursor : Option κ
  ended : Bool

/-- A descending list is given by its elements. -/
theorem descending_ext {β : Type*} [LinearOrder β] (rank : α → β) {l l' : List α}
    (h : l.Pairwise fun a b => rank b < rank a) (h' : l'.Pairwise fun a b => rank b < rank a)
    (hmem : ∀ a, a ∈ l ↔ a ∈ l') : l = l' := by
  have hn : ∀ {m : List α}, (m.Pairwise fun a b => rank b < rank a) → m.Nodup := by
    intro m hm
    exact hm.imp fun {a b} hab heq => absurd (heq ▸ hab) (lt_irrefl _)
  refine ((List.perm_ext_iff_of_nodup (hn h) (hn h')).mpr hmem).eq_of_pairwise ?_ h h'
  intro a b _ _ hab hba
  exact absurd hab hba.asymm

theorem orderDesc_cons {α β : Type*} [LinearOrder β] (rank : α → β) (a : α) (rows : List α) :
    ∃ before after, orderDesc rank (a :: rows) = before ++ a :: after ∧
      orderDesc rank rows = before ++ after ∧
      ∀ b ∈ before, (!decide (rank b ≤ rank a)) = true := by
  refine List.mergeSort_cons ?_ ?_ a rows
  · intro a b c hab hbc
    exact decide_eq_true ((of_decide_eq_true hbc).trans (of_decide_eq_true hab))
  · intro a b
    simpa using le_total (rank b) (rank a)

/-- The order can be computed by insertion. -/
theorem orderDesc_eq_insertionSort {α β : Type*} [LinearOrder β] (rank : α → β) (rows : List α) :
    orderDesc rank rows = rows.insertionSort fun a b => rank b ≤ rank a := by
  induction rows with
  | nil => simp [orderDesc]
  | cons a rows ih =>
    have hsorted := orderDesc_sorted rank (a :: rows)
    obtain ⟨before, after, hcons, hrows, hbefore⟩ :=
      orderDesc_cons rank a rows
    rw [List.insertionSort_cons, ← ih, List.orderedInsert_eq_take_drop]
    have hafter : ∀ b ∈ after, rank b ≤ rank a := by
      rw [hcons] at hsorted
      exact (List.pairwise_cons.mp (List.pairwise_append.mp hsorted).2.1).1
    have hbefore' : ∀ b ∈ before, decide ¬rank b ≤ rank a = true := by
      intro b hb
      simpa using hbefore b hb
    rw [hcons, hrows, List.takeWhile_append_of_pos hbefore', List.dropWhile_append_of_pos hbefore']
    cases after with
    | nil => simp
    | cons b after =>
      have hb : rank b ≤ rank a := hafter b List.mem_cons_self
      simp [hb]

namespace Reader

def start : Reader α κ := ⟨[], none, false⟩

def read (r : Reader α κ) (page : Chunk α κ) : Reader α κ :=
  ⟨r.rows ++ page.rows, page.next, page.next.isNone⟩

variable {β : Type*} [LinearOrder β] {rank : α → β} {cursor : α → κ} {limit : Nat}
  {r : Reader α κ}

/-- Below the last row that was shown. -/
def Behind (rank : α → β) (r : Reader α κ) (b : β) : Prop := ∀ x ∈ r.rows.getLast?, b < rank x

instance (rank : α → β) (r : Reader α κ) (b : β) : Decidable (r.Behind rank b) := by
  unfold Behind
  infer_instance

/-- The rows descend, and the cursor is that of the last one. -/
structure Descends (rank : α → β) (cursor : α → κ) (r : Reader α κ) : Prop where
  sorted : r.rows.Pairwise fun a b => rank b < rank a
  cursor : r.ended = false → r.cursor = r.rows.getLast?.map cursor

/-- The row of this rank was shown, or is still to come. -/
def Covers (rank : α → β) (r : Reader α κ) (b : β) : Prop :=
  b ∈ r.rows.map rank ∨ r.ended = false ∧ r.Behind rank b

theorem start_descends : (start : Reader α κ).Descends rank cursor :=
  ⟨List.Pairwise.nil, fun _ => rfl⟩

theorem start_covers (b : β) : (start : Reader α κ).Covers rank b :=
  Or.inr ⟨rfl, fun x hx => by cases hx⟩

theorem Covers.shown {b : β} (h : r.Covers rank b) (hr : r.ended = true) :
    b ∈ r.rows.map rank := by
  obtain h | ⟨hf, -⟩ := h
  · exact h
  · rw [hf] at hr
    cases hr

/-- The rows of a listing behind what was shown, in the order of the pages. -/
def listing (rank : α → β) (r : Reader α κ) (rows : List α) : List α :=
  (orderDesc rank rows).filter fun a => decide (r.Behind rank (rank a))

theorem mem_listing {rows : List α} {a : α} :
    a ∈ r.listing rank rows ↔ a ∈ rows ∧ r.Behind rank (rank a) := by
  simp [listing]

/-- Rows of different ranks in any listing: a page keeps the order of all that was shown. -/
theorem read_descends {rows : List α} (hl : 0 < limit) (hr : r.Descends rank cursor)
    (hn : (rows.map rank).Nodup) :
    (r.read (chunk cursor limit (r.listing rank rows))).Descends rank cursor := by
  have hstrict : (r.listing rank rows).Pairwise fun a b => rank b < rank a :=
    (orderDesc_strict hn).filter _
  have hsub : ((r.listing rank rows).take limit).Sublist (r.listing rank rows) :=
    List.take_sublist _ _
  constructor
  · refine List.pairwise_append.mpr ⟨hr.sorted, hstrict.sublist hsub, ?_⟩
    intro a ha b hb
    have hbehind := (mem_listing.mp (hsub.subset hb)).2
    obtain ⟨pre, x, hx⟩ := (List.eq_nil_or_concat' r.rows).resolve_left (List.ne_nil_of_mem ha)
    have hbx : rank b < rank x := hbehind x (by simp [hx])
    have hsorted := hr.sorted
    rw [hx] at ha hsorted
    obtain ha | ha := List.mem_append.mp ha
    · exact hbx.trans ((List.pairwise_append.mp hsorted).2.2 a ha x (List.mem_singleton_self x))
    · rwa [List.mem_singleton.mp ha]
  · intro hended
    by_cases hle : (r.listing rank rows).length ≤ limit
    · simp [read, chunk_of_le hle] at hended
    · obtain ⟨pre, x, -, hcut⟩ := chunk_split cursor hl (Nat.lt_of_not_le hle)
      simp [read, hcut]

/-- A row that stands in the listing of a page's time is on the page or behind it. -/
theorem read_covers {rows : List α} {a : α} (hl : 0 < limit) (hn : (rows.map rank).Nodup)
    (ha : a ∈ rows) (hr : r.Covers rank (rank a)) :
    (r.read (chunk cursor limit (r.listing rank rows))).Covers rank (rank a) := by
  obtain hshown | ⟨-, hbehind⟩ := hr
  · exact Or.inl (by rw [read, List.map_append]; exact List.mem_append_left _ hshown)
  · have hlisted : a ∈ r.listing rank rows := mem_listing.mpr ⟨ha, hbehind⟩
    by_cases hle : (r.listing rank rows).length ≤ limit
    · left
      rw [chunk_of_le hle, read, List.map_append]
      exact List.mem_append_right _ (List.mem_map_of_mem hlisted)
    · obtain ⟨pre, x, htake, hcut⟩ := chunk_split cursor hl (Nat.lt_of_not_le hle)
      have hstrict : (r.listing rank rows).Pairwise fun a b => rank b < rank a :=
        (orderDesc_strict hn).filter _
      rw [← List.take_append_drop limit (r.listing rank rows), htake] at hlisted hstrict
      rw [hcut]
      obtain hon | hafter := List.mem_append.mp hlisted
      · left
        rw [read, List.map_append]
        exact List.mem_append_right _ (List.mem_map_of_mem hon)
      · right
        refine ⟨rfl, fun y hy => ?_⟩
        have hyx : y = x := by simpa [read] using hy.symm
        rw [hyx]
        exact (List.pairwise_append.mp hstrict).2.2 x (by simp) a hafter

end Reader

end Framework

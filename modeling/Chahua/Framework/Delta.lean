import Chahua.Framework.Table

namespace Framework

universe u v

namespace Delta

variable {K : Type u} {R : Type v} [DecidableEq K] {key : R → K}

/-- Store the rows one after the other. -/
def store (key : R → K) (t : Table K R) (rows : List R) : Table K R :=
  rows.foldl (fun t r => t.upsert (key r) r) t

def index (key : R → K) (rows : List R) : Table K R := store key .empty rows

/-- The rows that differ from what was sent before, or all of them. -/
def changes [DecidableEq R] (key : R → K) (full : Bool) (previous : Table K R) (rows : List R) :
    List R :=
  rows.filter fun r => full || decide (previous.row (key r) ≠ some r)

/-- The copy after some changes; a full publication replaces it. -/
def apply (key : R → K) (full : Bool) (copy : Table K R) (rows : List R) : Table K R :=
  store key (if full then .empty else copy) rows

@[simp] theorem store_nil (t : Table K R) : store key t [] = t := rfl

theorem store_row_of_notMem {rows : List R} {k : K} (h : k ∉ rows.map key) (t : Table K R) :
    (store key t rows).row k = t.row k := by
  induction rows generalizing t with
  | nil => rfl
  | cons r rows ih =>
    simp only [List.map_cons, List.mem_cons, not_or] at h
    exact (ih h.2 (t.upsert (key r) r)).trans (Table.upsert_row_ne t r h.1)

theorem store_row_of_mem {rows : List R} (hkeys : (rows.map key).Nodup) {r : R} (h : r ∈ rows)
    (t : Table K R) : (store key t rows).row (key r) = some r := by
  induction rows generalizing t with
  | nil => simp at h
  | cons r' rows ih =>
    obtain ⟨hfresh, hkeys⟩ := List.nodup_cons.mp hkeys
    rcases List.mem_cons.mp h with rfl | h
    · exact (store_row_of_notMem hfresh _).trans (Table.upsert_row_self t _ _)
    · exact ih hkeys h _

theorem index_row_of_mem {rows : List R} (hkeys : (rows.map key).Nodup) {r : R} (h : r ∈ rows) :
    (index key rows).row (key r) = some r := store_row_of_mem hkeys h _

theorem index_row_of_notMem {rows : List R} {k : K} (h : k ∉ rows.map key) :
    (index key rows).row k = none := store_row_of_notMem h _

variable [DecidableEq R]

/-- A full publication carries the whole table. -/
theorem apply_full (copy previous : Table K R) (rows : List R) :
    apply key true copy (changes key true previous rows) = index key rows := by
  simp [apply, changes, index]

/-- The copy of the last rows becomes, by the changes to the new ones, the copy of these. -/
theorem apply_changes {old rows : List R} (hold : (old.map key).Nodup)
    (hsame : rows.map key = old.map key) :
    apply key false (index key old) (changes key false (index key old) rows) =
      index key rows := by
  have hkeys : (rows.map key).Nodup := hsame ▸ hold
  have hsub : ((changes key false (index key old) rows).map key).Sublist (rows.map key) :=
    List.filter_sublist.map key
  ext1 k
  by_cases hk : k ∈ rows.map key
  · obtain ⟨r, hr, rfl⟩ := List.mem_map.mp hk
    rw [index_row_of_mem hkeys hr]
    by_cases hchanged : r ∈ changes key false (index key old) rows
    · exact store_row_of_mem (hsub.nodup hkeys) hchanged _
    · have hkept : (index key old).row (key r) = some r := by
        by_contra hne
        exact hchanged (List.mem_filter.mpr ⟨hr, by simpa using hne⟩)
      refine (store_row_of_notMem ?_ _).trans hkept
      intro hmem
      obtain ⟨r', hr', heq⟩ := List.mem_map.mp hmem
      obtain ⟨hin, -⟩ := List.mem_filter.mp hr'
      obtain rfl : r' = r := List.inj_on_of_nodup_map hkeys hin hr heq
      exact hchanged hr'
  · rw [index_row_of_notMem hk]
    refine (store_row_of_notMem (fun h => hk (hsub.subset h)) _).trans ?_
    exact index_row_of_notMem (hsame ▸ hk)

/-- No change to send: the copy is right already. -/
theorem index_eq_of_changes_nil {old rows : List R} (hold : (old.map key).Nodup)
    (hsame : rows.map key = old.map key)
    (h : changes key false (index key old) rows = []) : index key old = index key rows := by
  rw [← apply_changes hold hsame, h]
  rfl

end Delta

end Framework

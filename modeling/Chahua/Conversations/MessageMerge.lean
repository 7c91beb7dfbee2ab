import Mathlib.Data.List.Basic
import Mathlib.Data.List.Sort

namespace Chahua.Conversations

universe u

/-- What the timeline reads of a message: its id, and `isVisibleMessage`. -/
class TimelineMessage (M : Type u) where
  messageId : M → Nat
  isVisible : M → Bool

variable {M : Type u} [TimelineMessage M]

open TimelineMessage (messageId)

def ids (messages : List M) : List Nat := messages.map messageId

/-- `Map.set` under the message's id, which keeps the place of an entry that is there. -/
def setMessage (entries : List M) (message : M) : List M :=
  if messageId message ∈ ids entries then
    entries.map fun entry => if messageId entry = messageId message then message else entry
  else entries ++ [message]

def addMessage (entries : List M) (message : M) : List M :=
  if messageId message ∈ ids entries then entries else entries ++ [message]

/-- The comparison of the sort. -/
def Earlier (a b : M) : Prop := messageId a ≤ messageId b

instance : DecidableRel (@Earlier M _) := fun a b =>
  inferInstanceAs (Decidable (messageId a ≤ messageId b))

instance : Std.Total (@Earlier M _) := ⟨fun a b => Nat.le_total (messageId a) (messageId b)⟩

instance : IsTrans M Earlier := ⟨fun _ _ _ => Nat.le_trans⟩

def mergeMessages (current incoming : List M) : List M :=
  (incoming.foldl addMessage (current.foldl setMessage [])).insertionSort Earlier

/-- Strictly ascending by id. -/
def Ascending (messages : List M) : Prop := (ids messages).Pairwise (· < ·)

@[simp] theorem ids_append (xs ys : List M) : ids (xs ++ ys) = ids xs ++ ids ys := by
  simp [ids]

@[simp] theorem ids_cons (m : M) (ms : List M) : ids (m :: ms) = messageId m :: ids ms := rfl

@[simp] theorem ids_nil : ids ([] : List M) = [] := rfl

theorem foldl_setMessage (entries messages : List M) (h : (ids (entries ++ messages)).Nodup) :
    messages.foldl setMessage entries = entries ++ messages := by
  induction messages generalizing entries with
  | nil => simp
  | cons m messages ih =>
    have hfresh : messageId m ∉ ids entries := by
      intro hm
      rw [ids_append, List.nodup_append] at h
      exact h.2.2 _ hm _ (by simp) rfl
    rw [List.foldl_cons, setMessage, if_neg hfresh, ih _ (by simpa using h)]
    simp

theorem ids_foldl_addMessage (entries incoming : List M) (h : (ids entries).Nodup) :
    (ids (incoming.foldl addMessage entries)).Nodup ∧
      ∀ x, x ∈ ids (incoming.foldl addMessage entries) ↔ x ∈ ids entries ∨ x ∈ ids incoming := by
  induction incoming generalizing entries with
  | nil => exact ⟨h, by simp⟩
  | cons m incoming ih =>
    rw [List.foldl_cons]
    by_cases hm : messageId m ∈ ids entries
    · have hadd : addMessage entries m = entries := if_pos hm
      rw [hadd]
      refine ⟨(ih entries h).1, fun x => ?_⟩
      rw [(ih entries h).2, ids_cons, List.mem_cons]
      constructor
      · rintro (hx | hx)
        · exact .inl hx
        · exact .inr (.inr hx)
      · rintro (hx | rfl | hx)
        · exact .inl hx
        · exact .inl hm
        · exact .inr hx
    · have hadd : addMessage entries m = entries ++ [m] := if_neg hm
      have hnodup : (ids (entries ++ [m])).Nodup := by
        rw [ids_append, List.nodup_append]
        refine ⟨h, List.nodup_singleton _, fun x hx y hy hxy => ?_⟩
        obtain rfl : y = messageId m := by simpa using hy
        exact hm (hxy ▸ hx)
      rw [hadd]
      refine ⟨(ih _ hnodup).1, fun x => ?_⟩
      rw [(ih _ hnodup).2, ids_append, List.mem_append, or_assoc]
      simp

theorem pairwise_lt_of_nodup {xs : List Nat} (hsorted : xs.Pairwise (· ≤ ·)) (h : xs.Nodup) :
    xs.Pairwise (· < ·) :=
  hsorted.imp₂ (fun _ _ hle hne => Nat.lt_of_le_of_ne hle hne) h

/-- The merge of an ascending page has the ids of both, ascending. -/
theorem mergeMessages_spec {current : List M} (h : Ascending current) (incoming : List M) :
    Ascending (mergeMessages current incoming) ∧
      ∀ x, x ∈ ids (mergeMessages current incoming) ↔ x ∈ ids current ∨ x ∈ ids incoming := by
  have hnodup : (ids current).Nodup := h.imp fun hlt => Nat.ne_of_lt hlt
  have hmap : current.foldl setMessage [] = current := foldl_setMessage [] current hnodup
  obtain ⟨hadded, hmem⟩ := ids_foldl_addMessage current incoming hnodup
  have hperm := List.perm_insertionSort Earlier (incoming.foldl addMessage current)
  have hsorted := List.pairwise_insertionSort Earlier (incoming.foldl addMessage current)
  unfold mergeMessages
  rw [hmap]
  constructor
  · apply pairwise_lt_of_nodup
    · unfold ids
      rw [List.pairwise_map]
      exact hsorted
    · exact (hperm.map messageId).nodup_iff.mpr hadded
  · intro x
    rw [← hmem]
    exact (hperm.map messageId).mem_iff

/-- The last id of an ascending list is its largest. -/
theorem Ascending.mem_getLast? {messages : List M} (h : Ascending messages) {x : Nat} :
    x ∈ (ids messages).getLast? ↔ x ∈ ids messages ∧ ∀ y ∈ ids messages, y ≤ x := by
  rcases List.eq_nil_or_concat (ids messages) with hnil | ⟨front, last, hlast⟩
  · simp [hnil]
  · unfold Ascending at h
    rw [hlast, List.concat_eq_append, List.pairwise_append] at h
    have hbelow : ∀ y ∈ front, y < last := fun y hy => h.2.2 y hy last (by simp)
    simp only [hlast, List.concat_eq_append, List.getLast?_concat, Option.mem_def,
      Option.some.injEq, List.mem_append, List.mem_singleton]
    constructor
    · rintro rfl
      refine ⟨.inr rfl, fun y hy => ?_⟩
      obtain hy | rfl := hy
      · exact Nat.le_of_lt (hbelow y hy)
      · exact Nat.le_refl y
    · rintro ⟨hx | rfl, hle⟩
      · exact absurd (hle last (.inr rfl)) (Nat.not_le.mpr (hbelow x hx))
      · rfl

/-- The first id of an ascending list is its smallest. -/
theorem Ascending.mem_head? {messages : List M} (h : Ascending messages) {x : Nat} :
    x ∈ (ids messages).head? ↔ x ∈ ids messages ∧ ∀ y ∈ ids messages, x ≤ y := by
  unfold Ascending at h
  cases hids : ids messages with
  | nil => simp
  | cons first rest =>
    rw [hids, List.pairwise_cons] at h
    simp only [List.head?_cons, Option.mem_def, Option.some.injEq, List.mem_cons]
    constructor
    · rintro rfl
      refine ⟨.inl rfl, fun y hy => ?_⟩
      obtain rfl | hy := hy
      · exact Nat.le_refl y
      · exact Nat.le_of_lt (h.1 y hy)
    · rintro ⟨rfl | hx, hle⟩
      · rfl
      · exact absurd (hle first (.inl rfl)) (Nat.not_le.mpr (h.1 x hx))

end Chahua.Conversations

import Chahua.Models

namespace Chahua.Unread

open Framework

/-- A statement on `messages`, with the rows it writes. An update gives the key each
old row had, the key it gets and its new version. -/
inductive Statement where
  | insert (rows : List (Int × Message))
  | update (rows : List (Int × Int × Message))
  | delete (ids : List Int)

/-- `reply_root_id IS NULL AND is_published AND deleted_at IS NULL`. -/
def eligible (m : Message) : Bool := m.isTopLevel && m.isPublished && m.deletedAt.isNone

/-- The columns of the trigger's `IS DISTINCT FROM` test; `id` joins the two versions. -/
def tracked (m : Message) :
    Int × Option Int × Bool × Option Int × Option SystemMessageKind :=
  (m.chatId, m.replyRootId, m.isPublished, m.deletedAt, m.systemKind)

/-- `SELECT array_agg(DISTINCT chat_id) … WHERE` eligible, over one transition table. -/
def eligibleChatIds (rows : Table Int Message) : Finset Int :=
  rows.image (fun _ m => eligible m) fun _ m => m.chatId

/-- One row of `old_messages FULL JOIN new_messages USING (id)` passes the `changed` filter. -/
def changed (previous following : Option Message) : Bool :=
  (previous.any eligible || following.any eligible) &&
    decide (previous.map tracked ≠ following.map tracked)

/-- `affected_chat_ids` of an update: both chats of every changed row. -/
def changedChatIds (old new : Table Int Message) : Finset Int :=
  ((old.keys ∪ new.keys).filter fun id => changed (old.row id) (new.row id)).biUnion
    fun id => ((old.row id).map Message.chatId).toFinset ∪
      ((new.row id).map Message.chatId).toFinset

/-- The transition table of the rows a statement found under some keys. -/
def transition (view : Int → Option Message) (ids : List Int) : Table Int Message :=
  Table.ofList (ids.filterMap fun id => (view id).map fun m => (id, m))

/-- `affected_chat_ids` in `advance_chat_unread_revisions`. The trigger's join with `groups`
keeps every id: `messages.chat_id` references `groups(id)`. -/
def affectedChatIds (view : Int → Option Message) : Statement → Finset Int
  | .insert rows => eligibleChatIds (Table.ofList rows)
  | .delete ids => eligibleChatIds (transition view ids)
  | .update rows =>
      changedChatIds (transition view (rows.map fun r => r.1))
        (Table.ofList (rows.map fun r => r.2))

/-- The keys a statement removes a row from. -/
def Statement.removed : Statement → List Int
  | .insert _ => []
  | .delete ids => ids
  | .update rows => rows.map fun r => r.1

/-- The row versions a statement stores. -/
def Statement.stored : Statement → List (Int × Message)
  | .insert rows => rows
  | .delete _ => []
  | .update rows => rows.map fun r => r.2

/-- Every key a statement writes, with the version it leaves there. -/
def Statement.writes (s : Statement) : Table Int (Option Message) :=
  Table.ofList (s.stored.map (fun r => (r.1, some r.2)) ++ s.removed.map fun id => (id, none))

/-- The primary key: removed rows exist, stored keys are distinct and free. -/
def Statement.valid (view : Int → Option Message) (s : Statement) : Bool :=
  s.removed.all (fun id => (view id).isSome) &&
    decide ((s.stored.map Prod.fst).Nodup) &&
    s.stored.all fun r => decide (r.1 ∈ s.removed) || (view r.1).isNone

/-- What a main count reads of the row under a key, for one chat. -/
def counted (chatId : Int) (row : Option Message) : Option (Option SystemMessageKind) :=
  row.bind fun m => if eligible m && decide (m.chatId = chatId) then some m.systemKind else none

@[simp] theorem counted_none (chatId : Int) : counted chatId none = none := rfl

theorem counted_eq_none {chatId : Int} {m : Message} (h : eligible m = true → m.chatId ≠ chatId) :
    counted chatId (some m) = none := by
  simp only [counted, Option.bind_some]
  rw [if_neg]
  simp only [Bool.and_eq_true, decide_eq_true_eq, not_and]
  exact h

/-- The tracked columns determine what the count reads. -/
theorem counted_congr {chatId : Int} {a b : Option Message}
    (h : a.map tracked = b.map tracked) : counted chatId a = counted chatId b := by
  cases a with
  | none => cases b with
    | none => rfl
    | some m => simp at h
  | some m => cases b with
    | none => simp at h
    | some n =>
      simp only [Option.map_some, Option.some.injEq, tracked, Prod.mk.injEq] at h
      obtain ⟨hc, hr, hp, hd, hk⟩ := h
      simp [counted, eligible, Message.isTopLevel, hc, hr, hp, hd, hk]

theorem mem_eligibleChatIds {rows : Table Int Message} {c : Int} :
    c ∈ eligibleChatIds rows ↔ ∃ id m, rows.row id = some m ∧ eligible m = true ∧ m.chatId = c :=
  Table.mem_image

theorem mem_changedChatIds {old new : Table Int Message} {c : Int} :
    c ∈ changedChatIds old new ↔ ∃ id, changed (old.row id) (new.row id) = true ∧
      ((old.row id).map Message.chatId = some c ∨ (new.row id).map Message.chatId = some c) := by
  simp only [changedChatIds, Finset.mem_biUnion, Finset.mem_filter, Finset.mem_union,
    Option.mem_toFinset, Option.mem_def, old.mem_keys, new.mem_keys]
  constructor
  · rintro ⟨id, ⟨-, hch⟩, hc⟩
    exact ⟨id, hch, hc⟩
  · rintro ⟨id, hch, hc⟩
    refine ⟨id, ⟨?_, hch⟩, hc⟩
    rcases hc with h | h
    · left; cases ho : old.row id <;> simp_all
    · right; cases hn : new.row id <;> simp_all

/-- The trigger's test covers every column the count reads: a row whose counted content
changes for a chat puts that chat among the affected ones. -/
theorem counted_eq_of_not_mem_changed {old new : Table Int Message} {c : Int}
    (h : c ∉ changedChatIds old new) (id : Int) :
    counted c (old.row id) = counted c (new.row id) := by
  by_cases ht : (old.row id).map tracked = (new.row id).map tracked
  · exact counted_congr ht
  have hno : ∀ m, (old.row id = some m ∨ new.row id = some m) → eligible m = true →
      m.chatId ≠ c := by
    intro m hm he hc
    apply h
    rw [mem_changedChatIds]
    refine ⟨id, ?_, ?_⟩
    · rcases hm with hm | hm <;> simp [changed, hm, he] at ht ⊢
      · exact fun hmap => ht hmap
      · exact fun hmap => ht hmap
    · rcases hm with hm | hm <;> simp [hm, hc]
  have hold : counted c (old.row id) = none := by
    cases ho : old.row id with
    | none => rfl
    | some m => exact counted_eq_none (hno m (Or.inl ho))
  have hnew : counted c (new.row id) = none := by
    cases hn : new.row id with
    | none => rfl
    | some m => exact counted_eq_none (hno m (Or.inr hn))
  rw [hold, hnew]

theorem transition_row (view : Int → Option Message) (ids : List Int) (id : Int) :
    (transition view ids).row id = if id ∈ ids then view id else none := by
  induction ids with
  | nil => rfl
  | cons j ids ih =>
    cases hj : view j with
    | none =>
      have hcons : transition view (j :: ids) = transition view ids := by
        simp [transition, hj]
      rw [hcons, ih]
      by_cases hid : id = j <;> simp [hid, hj]
    | some m =>
      have hcons : (transition view (j :: ids)).row id =
          if id = j then some m else (transition view ids).row id := by
        simp [transition, hj, Table.ofList_cons_row]
      rw [hcons, ih]
      by_cases hid : id = j <;> simp [hid, hj]

theorem Statement.writes_row (s : Statement) (id : Int) :
    s.writes.row id = (((Table.ofList s.stored).row id).map some).or
      (if id ∈ s.removed then some none else none) := by
  rw [Statement.writes, Table.ofList_append_row, Table.ofList_map_row, Table.ofList_const_row]

theorem Statement.valid_stored {view : Int → Option Message} {s : Statement}
    (h : s.valid view = true) {id : Int} {m : Message}
    (hm : (Table.ofList s.stored).row id = some m) : id ∈ s.removed ∨ view id = none := by
  simp only [Statement.valid, Bool.and_eq_true, List.all_eq_true, Bool.or_eq_true,
    decide_eq_true_eq, Option.isNone_iff_eq_none] at h
  by_contra hno
  push Not at hno
  have hkey : id ∈ s.stored.map Prod.fst := by
    by_contra hmem
    rw [Table.ofList_row_eq_none.mpr hmem] at hm
    cases hm
  obtain ⟨r, hr, rfl⟩ := List.mem_map.mp hkey
  rcases h.2 r hr with hin | hnone
  · exact hno.1 hin
  · exact hno.2 hnone

/-- A statement whose trigger does not bump a chat leaves what the chat's counts read. -/
theorem Statement.counted_eq {view : Int → Option Message} {s : Statement}
    (hv : s.valid view = true) {c : Int} (hc : c ∉ affectedChatIds view s) (id : Int) :
    counted c (view id) = counted c ((s.writes.row id).getD (view id)) := by
  rw [Statement.writes_row]
  cases s with
  | insert rows =>
    cases hm : (Table.ofList rows).row id with
    | none => simp [Statement.stored, Statement.removed, hm]
    | some m =>
      have hnone : view id = none := by
        simpa [Statement.removed] using Statement.valid_stored hv hm
      have hno : counted c (some m) = none :=
        counted_eq_none fun he hcm => hc (mem_eligibleChatIds.mpr ⟨id, m, hm, he, hcm⟩)
      simp [Statement.stored, hm, hnone, hno]
  | delete ids =>
    by_cases hid : id ∈ ids
    · have hold : counted c (view id) = none := by
        cases hm : view id with
        | none => rfl
        | some m =>
          refine counted_eq_none fun he hcm => hc (mem_eligibleChatIds.mpr ⟨id, m, ?_, he, hcm⟩)
          rw [transition_row, if_pos hid, hm]
      simp [Statement.stored, Statement.removed, hid, hold]
    · simp [Statement.stored, Statement.removed, hid]
  | update rows =>
    have hrow := counted_eq_of_not_mem_changed hc id
    rw [transition_row] at hrow
    by_cases hid : id ∈ rows.map fun r => r.1
    · rw [if_pos hid] at hrow
      rw [hrow]
      cases hm : (Table.ofList (rows.map fun r => r.2)).row id <;>
        simp [Statement.stored, Statement.removed, hm, hid]
    · cases hm : (Table.ofList (rows.map fun r => r.2)).row id with
      | none => simp [Statement.stored, Statement.removed, hm, hid]
      | some m =>
        have hnone : view id = none := (Statement.valid_stored hv hm).resolve_left hid
        rw [if_neg hid, hm] at hrow
        simp only [Statement.stored, Statement.removed, hm, hid, hnone, Option.map_some,
          Option.some_or, Option.getD_some]
        exact hrow

end Chahua.Unread

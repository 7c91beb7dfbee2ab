import Chahua.Messages.Threads

namespace Chahua.Messages

open Framework

/-- When a message is a surviving reply of the thread: the time it counts with. -/
def replyAt (rootId : Int) (m : Message) : Option Int :=
  if m.replyRootId = some rootId ∧ m.isLive = true then some m.createdAt else none

namespace Database

/-- The time a row counts with in a thread. -/
def replyRow (db : Database) (rootId id : Int) : Option Int :=
  (db.messages.row id).bind (replyAt rootId)

/-- The row of `thread_meta` that the messages call for. -/
def threadStats (db : Database) (rootId : Int) : Option ThreadMeta :=
  if db.liveReplies rootId = ∅ then none
  else
    some { replyCount := (db.liveReplies rootId).card, lastReplyAt := db.lastReplyAt rootId }

variable {db db' : Database} {rootId id at' : Int}

theorem replyRow_eq_some : db.replyRow rootId id = some at' ↔
    ∃ m, db.messages.row id = some m ∧ m.replyRootId = some rootId ∧ m.isLive = true ∧
      m.createdAt = at' := by
  simp only [replyRow, Option.bind_eq_some_iff, replyAt]
  constructor
  · rintro ⟨m, hm, h⟩
    split at h
    · next hlive => exact ⟨m, hm, hlive.1, hlive.2, Option.some.inj h⟩
    · cases h
  · rintro ⟨m, hm, hroot, hlive, rfl⟩
    exact ⟨m, hm, by simp [hroot, hlive]⟩

theorem mem_liveReplies : id ∈ db.liveReplies rootId ↔ ∃ at', db.replyRow rootId id = some at' := by
  simp only [liveReplies, Table.mem_select, Bool.and_eq_true, decide_eq_true_eq, replyRow_eq_some]
  constructor
  · rintro ⟨m, hm, hroot, hlive⟩
    exact ⟨m.createdAt, m, hm, hroot, hlive, rfl⟩
  · rintro ⟨_, m, hm, hroot, hlive, -⟩
    exact ⟨m, hm, hroot, hlive⟩

theorem notMem_liveReplies : id ∉ db.liveReplies rootId ↔ db.replyRow rootId id = none := by
  rw [mem_liveReplies, not_exists, Option.eq_none_iff_forall_ne_some]

theorem mem_replyTimes {t : Int} : t ∈ db.messages.image
    (fun _ m => decide (m.replyRootId = some rootId) && m.isLive) (fun _ m => m.createdAt) ↔
      ∃ id, db.replyRow rootId id = some t := by
  simp only [Table.mem_image, Bool.and_eq_true, decide_eq_true_eq, replyRow_eq_some]
  refine exists_congr fun k => exists_congr fun m => ?_
  simp only [and_assoc]

/-- The newest time any surviving reply counts with. -/
theorem lastReplyAt_eq_some : db.lastReplyAt rootId = some at' ↔
    (∃ id, db.replyRow rootId id = some at') ∧
      ∀ id t, db.replyRow rootId id = some t → t ≤ at' := by
  constructor
  · intro h
    refine ⟨mem_replyTimes.mp (Finset.mem_of_max h), fun id t ht => ?_⟩
    exact Finset.le_max_of_eq (mem_replyTimes.mpr ⟨id, ht⟩) h
  · rintro ⟨hex, hle⟩
    obtain ⟨t, ht⟩ := Finset.max_of_mem (mem_replyTimes.mpr hex)
    obtain ⟨id, hid⟩ := mem_replyTimes.mp (Finset.mem_of_max ht)
    have hat : at' ≤ t := Finset.le_max_of_eq (mem_replyTimes.mpr hex) ht
    exact le_antisymm (hle id t hid) hat ▸ ht

theorem exists_lastReplyAt (h : db.replyRow rootId id = some at') :
    ∃ last, db.lastReplyAt rootId = some last :=
  Finset.max_of_mem (mem_replyTimes.mpr ⟨id, h⟩)

theorem liveReplies_congr (h : ∀ id, db'.replyRow rootId id = db.replyRow rootId id) :
    db'.liveReplies rootId = db.liveReplies rootId := by
  ext id
  rw [mem_liveReplies, mem_liveReplies, h id]

theorem lastReplyAt_congr (h : ∀ id, db'.replyRow rootId id = db.replyRow rootId id) :
    db'.lastReplyAt rootId = db.lastReplyAt rootId := by
  refine Option.ext fun t => ?_
  rw [lastReplyAt_eq_some, lastReplyAt_eq_some]
  simp only [h]

/-- The statistics only depend on the surviving replies and their times. -/
theorem threadStats_congr (h : ∀ id, db'.replyRow rootId id = db.replyRow rootId id) :
    db'.threadStats rootId = db.threadStats rootId := by
  rw [threadStats, threadStats, liveReplies_congr h, lastReplyAt_congr h]

theorem threadStats_eq_none : db.threadStats rootId = none ↔ db.liveReplies rootId = ∅ := by
  simp [threadStats]

/-- A reply that did not count now does, with the newest time. -/
theorem threadStats_insert (hold : db.replyRow rootId id = none)
    (hnew : db'.replyRow rootId id = some at')
    (hother : ∀ j, j ≠ id → db'.replyRow rootId j = db.replyRow rootId j)
    (hlatest : ∀ j t, db.replyRow rootId j = some t → t ≤ at') :
    db'.threadStats rootId = some
      { replyCount := (db.threadStats rootId).elim 0 (·.replyCount) + 1
        lastReplyAt := some at' } := by
  have hlive : db'.liveReplies rootId = insert id (db.liveReplies rootId) := by
    ext j
    rw [Finset.mem_insert, mem_liveReplies, mem_liveReplies]
    by_cases hj : j = id
    · subst hj
      simp [hnew]
    · simp [hj, hother j hj]
  have hcard : (db'.liveReplies rootId).card = (db.liveReplies rootId).card + 1 := by
    rw [hlive, Finset.card_insert_of_notMem (notMem_liveReplies.mpr hold)]
  have hlast : db'.lastReplyAt rootId = some at' := by
    refine lastReplyAt_eq_some.mpr ⟨⟨id, hnew⟩, fun j t ht => ?_⟩
    by_cases hj : j = id
    · subst hj
      exact (Option.some.inj (ht.symm.trans hnew)).le
    · exact hlatest j t ((hother j hj).symm.trans ht)
  have hne : db'.liveReplies rootId ≠ ∅ := by
    rw [hlive]
    exact Finset.insert_ne_empty _ _
  have hcount : (db.threadStats rootId).elim 0 (·.replyCount) = (db.liveReplies rootId).card := by
    unfold threadStats
    split
    · next hempty => simp [hempty]
    · rfl
  rw [threadStats, if_neg hne, hcard, hlast, hcount]

theorem setHasThread_row (db : Database) (messageId : Int) (hasThread : Bool) (id : Int) :
    (db.setHasThread messageId hasThread).messages.row id =
      (db.messages.row id).map fun m =>
        if id = messageId then { m with hasThread := hasThread } else m := by
  simp [setHasThread, Table.updateWhere_row]

theorem setHasThread_replyRow (db : Database) (messageId : Int) (hasThread : Bool)
    (rootId id : Int) :
    (db.setHasThread messageId hasThread).replyRow rootId id = db.replyRow rootId id := by
  rw [replyRow, replyRow, setHasThread_row]
  cases db.messages.row id with
  | none => rfl
  | some m => by_cases hid : id = messageId <;> simp [hid, replyAt, Message.isLive]

theorem recalculateThreadMeta_threadMeta (db : Database) (chatId rootId : Int) (key : Int × Int) :
    (db.recalculateThreadMeta chatId rootId).threadMeta.row key =
      if key = (chatId, rootId) then db.threadStats rootId else db.threadMeta.row key := by
  unfold recalculateThreadMeta threadStats
  by_cases hempty : db.liveReplies rootId = ∅
  · simp [hempty, setHasThread, Table.erase_row]
  · simp [hempty, Finset.card_pos, Finset.nonempty_iff_ne_empty, Table.upsert_row]

theorem recalculateThreadMeta_messages (db : Database) (chatId rootId id : Int) :
    (db.recalculateThreadMeta chatId rootId).messages.row id =
      (db.messages.row id).map fun m =>
        if id = rootId ∧ db.liveReplies rootId = ∅ then { m with hasThread := false } else m := by
  unfold recalculateThreadMeta
  by_cases hempty : db.liveReplies rootId = ∅
  · simp [hempty, setHasThread_row]
  · simp [hempty, Finset.card_pos, Finset.nonempty_iff_ne_empty]

theorem recalculateThreadMeta_replyRow (db : Database) (chatId rootId root id : Int) :
    (db.recalculateThreadMeta chatId rootId).replyRow root id = db.replyRow root id := by
  rw [replyRow, replyRow, recalculateThreadMeta_messages]
  cases db.messages.row id with
  | none => rfl
  | some m =>
    simp only [Option.map_some, Option.bind_some]
    split <;> rfl

/-- What neither recalculation of a thread nor a shift of its read pointers touches. -/
structure SameBesidesThreads (db db' : Database) : Prop where
  attachments : db'.attachments = db.attachments
  messageMentions : db'.messageMentions = db.messageMentions
  groupMembership : db'.groupMembership = db.groupMembership
  groups : db'.groups = db.groups
  pinnedMessages : db'.pinnedMessages = db.pinnedMessages

theorem recalculateThreadMeta_same (db : Database) (chatId rootId : Int) :
    SameBesidesThreads db (db.recalculateThreadMeta chatId rootId) ∧
      (db.recalculateThreadMeta chatId rootId).threadUserStates = db.threadUserStates := by
  unfold recalculateThreadMeta
  by_cases hcount : 0 < (db.liveReplies rootId).card
  · rw [if_pos hcount]
    exact ⟨⟨rfl, rfl, rfl, rfl, rfl⟩, rfl⟩
  · rw [if_neg hcount]
    exact ⟨⟨rfl, rfl, rfl, rfl, rfl⟩, rfl⟩

theorem previousInThread_congr (h : ∀ id, db'.replyRow rootId id = db.replyRow rootId id) :
    db'.previousInThread rootId = db.previousInThread rootId := by
  funext last
  unfold previousInThread Table.newest
  congr 1
  ext id
  have hid : id ∈ db'.liveReplies rootId ↔ id ∈ db.liveReplies rootId := by
    rw [liveReplies_congr h]
  simp only [liveReplies, Table.mem_select, Bool.and_eq_true, decide_eq_true_eq] at hid ⊢
  constructor
  · rintro ⟨m, hm, ⟨hroot, hlt⟩, hlive⟩
    obtain ⟨m', hm', hroot', hlive'⟩ := hid.mp ⟨m, hm, hroot, hlive⟩
    exact ⟨m', hm', ⟨hroot', hlt⟩, hlive'⟩
  · rintro ⟨m, hm, ⟨hroot, hlt⟩, hlive⟩
    obtain ⟨m', hm', hroot', hlive'⟩ := hid.mpr ⟨m, hm, hroot, hlive⟩
    exact ⟨m', hm', ⟨hroot', hlt⟩, hlive'⟩

/-- The state of a reader after the replies `deletedMessageIds` of the thread were deleted. -/
def shiftedState (db : Database) (rootId : Int) (deletedMessageIds : List Int)
    (state : ThreadUserState) : ThreadUserState :=
  if state.lastReadMessageId.any fun last => decide (last ∈ deletedMessageIds) then
    { state with
      lastReadMessageId := state.lastReadMessageId.bind (db.previousInThread rootId) }
  else state

theorem shiftThread_row (db : Database) (rootId : Int) (deletedMessageIds : List Int)
    (key : Int × Int × Int) :
    (db.shiftThreadReadPointersOnDelete rootId deletedMessageIds).threadUserStates.row key =
      (db.threadUserStates.row key).map fun state =>
        if key.2.1 = rootId then db.shiftedState rootId deletedMessageIds state else state := by
  unfold shiftThreadReadPointersOnDelete shiftedState
  by_cases hnil : deletedMessageIds = []
  · subst hnil
    rw [if_pos rfl]
    cases db.threadUserStates.row key with
    | none => rfl
    | some state => simp
  · rw [if_neg hnil]
    change (db.threadUserStates.updateWhere _ _).row key = _
    rw [Table.updateWhere_row]
    cases db.threadUserStates.row key with
    | none => rfl
    | some state => by_cases hkey : key.2.1 = rootId <;> simp [hkey]

theorem shiftThread_same (db : Database) (rootId : Int) (deletedMessageIds : List Int) :
    SameBesidesThreads db (db.shiftThreadReadPointersOnDelete rootId deletedMessageIds) ∧
      (db.shiftThreadReadPointersOnDelete rootId deletedMessageIds).messages = db.messages ∧
      (db.shiftThreadReadPointersOnDelete rootId deletedMessageIds).threadMeta = db.threadMeta := by
  unfold shiftThreadReadPointersOnDelete
  by_cases hnil : deletedMessageIds = []
  · rw [if_pos hnil]
    exact ⟨⟨rfl, rfl, rfl, rfl, rfl⟩, rfl, rfl⟩
  · rw [if_neg hnil]
    exact ⟨⟨rfl, rfl, rfl, rfl, rfl⟩, rfl, rfl⟩

end Database

end Chahua.Messages

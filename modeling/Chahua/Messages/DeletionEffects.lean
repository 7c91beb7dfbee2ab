import Chahua.Messages.Deletion
import Chahua.Messages.Replies

namespace Chahua.Messages

open Framework

/-- What the bookkeeping of a deletion knows of its targets. -/
structure Describes (impact : DeletionImpact) (targets : List DeletionTarget) : Prop where
  messageIds : impact.messageIds = targets.map (·.id)
  replyIds : ∀ root id, id ∈ (impact.replyIds.row root).getD [] ↔
    ∃ t ∈ targets, t.replyRootId = some root ∧ t.id = id
  replyRoots : ∀ root, root ∈ impact.replyIds.keys ↔ ∃ t ∈ targets, t.replyRootId = some root
  chatMessageIds : ∀ id, id ∈ impact.chatMessageIds ↔
    ∃ t ∈ targets, t.replyRootId = none ∧ t.id = id
  threadRootIds : ∀ root, root ∈ impact.threadRootIds ↔
    (∃ t ∈ targets, t.replyRootId = some root) ∨
      ∃ t ∈ targets, t.replyRootId = none ∧ t.hasThread = true ∧ t.id = root

theorem describes_empty : Describes .empty [] where
  messageIds := rfl
  replyIds := by simp [DeletionImpact.empty]
  replyRoots := by simp [DeletionImpact.empty, Table.empty]
  chatMessageIds := by simp [DeletionImpact.empty]
  threadRootIds := by simp [DeletionImpact.empty]

theorem exists_mem_snoc {α : Type*} {xs : List α} {x : α} {P : α → Prop} :
    (∃ t ∈ xs ++ [x], P t) ↔ (∃ t ∈ xs, P t) ∨ P x := by
  simp [or_and_right, exists_or]

theorem exists_mem_append {α : Type*} {xs ys : List α} {P : α → Prop} :
    (∃ t ∈ xs ++ ys, P t) ↔ (∃ t ∈ xs, P t) ∨ ∃ t ∈ ys, P t := by
  simp [or_and_right, exists_or]

theorem Describes.add {impact : DeletionImpact} {targets : List DeletionTarget}
    (h : Describes impact targets) (message : DeletionTarget) :
    Describes (impact.add message) (targets ++ [message]) := by
  unfold DeletionImpact.add
  split
  · next root hroot =>
    constructor
    · simp [h.messageIds]
    · intro r id
      rw [exists_mem_snoc, hroot, Table.upsert_row]
      by_cases hr : r = root
      · simp [hr, h.replyIds, eq_comm]
      · simp [hr, Ne.symm hr, h.replyIds]
    · intro r
      rw [exists_mem_snoc, hroot, ← h.replyRoots]
      simp [Table.upsert, or_comm, eq_comm]
    · intro id
      rw [exists_mem_snoc, hroot, ← h.chatMessageIds]
      simp
    · intro r
      rw [exists_mem_snoc, exists_mem_snoc, hroot, Finset.mem_insert, h.threadRootIds]
      simp only [Option.some.injEq, reduceCtorEq, false_and, or_false]
      rw [eq_comm, ← or_assoc, @or_comm (root = r)]
  · next hroot =>
    constructor
    · simp [h.messageIds]
    · intro r id
      rw [exists_mem_snoc, hroot, ← h.replyIds]
      simp
    · intro r
      rw [exists_mem_snoc, hroot, ← h.replyRoots]
      simp
    · intro id
      rw [exists_mem_snoc, hroot, ← h.chatMessageIds]
      simp [eq_comm]
    · intro r
      rw [exists_mem_snoc, exists_mem_snoc, hroot]
      by_cases hthread : message.hasThread = true
      · rw [if_pos hthread, Finset.mem_insert, h.threadRootIds]
        simp only [reduceCtorEq, or_false, true_and, hthread]
        rw [or_comm, or_assoc, @eq_comm _ r message.id]
      · simp [hthread, h.threadRootIds]

theorem describes_foldl (targets : List DeletionTarget) :
    Describes (targets.foldl DeletionImpact.add .empty) targets := by
  induction targets using List.reverseRecOn with
  | nil => exact describes_empty
  | append_singleton targets message ih =>
    rw [List.foldl_append]
    exact ih.add message

/-- The lists of one table appended to those of another, over some of its keys. -/
theorem foldl_upsert_row (a b : Table Int (List Int)) {roots : List Int} (hroots : roots.Nodup)
    (root : Int) :
    ((roots.foldl (fun t r => t.upsert r ((t.row r).getD [] ++ (b.row r).getD [])) a).row root) =
      if root ∈ roots then some ((a.row root).getD [] ++ (b.row root).getD []) else a.row root := by
  induction roots generalizing a with
  | nil => rfl
  | cons r roots ih =>
    obtain ⟨hnot, hnodup⟩ := List.nodup_cons.mp hroots
    rw [List.foldl_cons, ih _ hnodup, Table.upsert_row]
    by_cases hr : root = r
    · subst hr
      simp [hnot]
    · simp [hr]

theorem Describes.merge {impact batch : DeletionImpact} {targets targets' : List DeletionTarget}
    (h : Describes impact targets) (h' : Describes batch targets') :
    Describes (impact.merge batch) (targets ++ targets') := by
  have hrow := fun root => foldl_upsert_row impact.replyIds batch.replyIds
    (nodup_ascending batch.replyIds.keys) root
  have hkeys : ∀ root, batch.replyIds.row root = none ↔ root ∉ batch.replyIds.keys := by
    intro root
    rw [batch.replyIds.mem_keys, Option.not_isSome_iff_eq_none]
  constructor
  · simp [DeletionImpact.merge, h.messageIds, h'.messageIds]
  · intro root id
    rw [exists_mem_append, ← h.replyIds, ← h'.replyIds]
    simp only [DeletionImpact.merge, hrow, mem_ascending]
    by_cases hroot : root ∈ batch.replyIds.keys
    · simp [hroot]
    · simp [hroot, (hkeys root).mpr hroot]
  · intro root
    rw [exists_mem_append, ← h.replyRoots, ← h'.replyRoots]
    rw [Table.mem_keys, Table.mem_keys]
    simp only [DeletionImpact.merge, hrow, mem_ascending]
    by_cases hroot : root ∈ batch.replyIds.keys <;> simp [hroot]
  · intro id
    rw [exists_mem_append, ← h.chatMessageIds, ← h'.chatMessageIds]
    simp [DeletionImpact.merge]
  · intro root
    rw [exists_mem_append, exists_mem_append, or_or_or_comm, ← h.threadRootIds,
      ← h'.threadRootIds]
    simp [DeletionImpact.merge]

/-- Messages were deleted and nothing was reconciled yet. Their mentions and attachments are left
out: no other table depends on them. -/
structure SoftDeleted (db db' : Database) (ids : List Int) : Prop where
  messages : ∃ time : Int → Int, ∀ id, db'.messages.row id = (db.messages.row id).map fun m =>
    if id ∈ ids ∧ m.deletedAt = none then { m with deletedAt := some (time id) } else m
  threadMeta : db'.threadMeta = db.threadMeta
  threadUserStates : db'.threadUserStates = db.threadUserStates
  groupMembership : db'.groupMembership = db.groupMembership
  groups : db'.groups = db.groups
  pinnedMessages : db'.pinnedMessages = db.pinnedMessages

theorem softDeleted_refl (db : Database) : SoftDeleted db db [] where
  messages := ⟨fun _ => 0, fun id => by cases db.messages.row id <;> simp⟩
  threadMeta := rfl
  threadUserStates := rfl
  groupMembership := rfl
  groups := rfl
  pinnedMessages := rfl

theorem softDelete_softDeleted (db : Database) (now : Int) (ids : List Int) :
    SoftDeleted db (db.softDelete now ids) ids where
  messages := ⟨fun _ => now, fun id => by
    change (db.messages.updateWhere _ _).row id = _
    rw [Table.updateWhere_row]
    cases db.messages.row id with
    | none => rfl
    | some m => simp⟩
  threadMeta := rfl
  threadUserStates := rfl
  groupMembership := rfl
  groups := rfl
  pinnedMessages := rfl

theorem markDeleted_softDeleted {db : Database} (now : Int) {messageId : Int} {m : Message}
    (hrow : db.messages.row messageId = some m) (hdeleted : m.deletedAt = none) :
    SoftDeleted db (db.markDeleted now messageId) [messageId] where
  messages := ⟨fun _ => now, fun id => by
    change (db.messages.updateWhere _ _).row id = _
    rw [Table.updateWhere_row]
    by_cases hid : id = messageId
    · subst hid
      simp [hrow, hdeleted]
    · cases db.messages.row id <;> simp [hid]⟩
  threadMeta := rfl
  threadUserStates := rfl
  groupMembership := rfl
  groups := rfl
  pinnedMessages := rfl

theorem SoftDeleted.trans {a b c : Database} {ids ids' : List Int} (h : SoftDeleted a b ids)
    (h' : SoftDeleted b c ids') : SoftDeleted a c (ids ++ ids') where
  messages := by
    obtain ⟨time, ht⟩ := h.messages
    obtain ⟨time', ht'⟩ := h'.messages
    refine ⟨fun id => if id ∈ ids then time id else time' id, fun id => ?_⟩
    rw [ht' id, ht id]
    cases a.messages.row id with
    | none => rfl
    | some m =>
      by_cases hid : id ∈ ids <;> cases hd : m.deletedAt <;> simp [hid, hd]
  threadMeta := h'.threadMeta.trans h.threadMeta
  threadUserStates := h'.threadUserStates.trans h.threadUserStates
  groupMembership := h'.groupMembership.trans h.groupMembership
  groups := h'.groups.trans h.groups
  pinnedMessages := h'.pinnedMessages.trans h.pinnedMessages

theorem SoftDeleted.row {db db' : Database} {ids : List Int} (h : SoftDeleted db db' ids)
    {id : Int} {m : Message} (hrow : db.messages.row id = some m) :
    ∃ deletedAt, db'.messages.row id = some { m with deletedAt := deletedAt } ∧
      (deletedAt.isSome ↔ id ∈ ids ∨ m.deletedAt.isSome) := by
  obtain ⟨time, ht⟩ := h.messages
  rw [ht id, hrow, Option.map_some]
  by_cases hid : id ∈ ids ∧ m.deletedAt = none
  · rw [if_pos hid]
    exact ⟨some (time id), rfl, by simp [hid.1]⟩
  · rw [if_neg hid]
    refine ⟨m.deletedAt, rfl, ?_⟩
    constructor
    · exact .inr
    · rintro (hmem | hsome)
      · by_contra hnone
        exact hid ⟨hmem, by simpa using hnone⟩
      · exact hsome

theorem SoftDeleted.replyRow_of_notMem {db db' : Database} {ids : List Int} (h : SoftDeleted db db' ids) {id : Int}
    (hid : id ∉ ids) (rootId : Int) : db'.replyRow rootId id = db.replyRow rootId id := by
  obtain ⟨time, ht⟩ := h.messages
  rw [Database.replyRow, Database.replyRow, ht id]
  cases db.messages.row id <;> simp [hid]

/-- A deletion adds no reply. -/
theorem SoftDeleted.replyRow_le {db db' : Database} {ids : List Int} (h : SoftDeleted db db' ids)
    {rootId id at' : Int}
    (hrow : db'.replyRow rootId id = some at') : db.replyRow rootId id = some at' := by
  obtain ⟨m', hm', hroot, hlive, hat⟩ := Database.replyRow_eq_some.mp hrow
  obtain ⟨time, ht⟩ := h.messages
  rw [ht id] at hm'
  obtain ⟨m, hm, hif⟩ := Option.map_eq_some_iff.mp hm'
  split at hif
  · subst hif
    simp [Message.isLive] at hlive
  · subst hif
    exact Database.replyRow_eq_some.mpr ⟨m, hm, hroot, hlive, hat⟩

/-- The surviving replies are those that were not deleted. -/
theorem SoftDeleted.mem_liveReplies {db db' : Database} {ids : List Int}
    (h : SoftDeleted db db' ids) {rootId id : Int} :
    id ∈ db'.liveReplies rootId ↔ id ∈ db.liveReplies rootId ∧ id ∉ ids := by
  rw [Database.mem_liveReplies, Database.mem_liveReplies]
  constructor
  · rintro ⟨at', hat⟩
    refine ⟨⟨at', h.replyRow_le hat⟩, fun hid => ?_⟩
    obtain ⟨m', hm', -, hlive, -⟩ := Database.replyRow_eq_some.mp hat
    obtain ⟨m, hm, -⟩ := Database.replyRow_eq_some.mp (h.replyRow_le hat)
    obtain ⟨deletedAt, hrow, hdeleted⟩ := h.row hm
    obtain rfl := Option.some.inj (hrow.symm.trans hm')
    have hsome := hdeleted.mpr (.inl hid)
    simp [Message.isLive, Option.isSome_iff_ne_none.mp hsome] at hlive
  · rintro ⟨⟨at', hat⟩, hid⟩
    exact ⟨at', (h.replyRow_of_notMem hid rootId).trans hat⟩

/-- The threads with these roots were recalculated and their readers shifted. -/
structure RepliesReconciled (db db' : Database) (chatId : Int) (roots : List Int)
    (idsOf : Int → List Int) : Prop where
  messages : ∀ id, db'.messages.row id = (db.messages.row id).map fun m =>
    if id ∈ roots ∧ db.liveReplies id = ∅ then { m with hasThread := false } else m
  threadMeta : ∀ key, db'.threadMeta.row key =
    if key.1 = chatId ∧ key.2 ∈ roots then db.threadStats key.2 else db.threadMeta.row key
  threadUserStates : ∀ key, db'.threadUserStates.row key =
    (db.threadUserStates.row key).map fun state =>
      if key.2.1 ∈ roots then db.shiftedState key.2.1 (idsOf key.2.1) state else state
  same : db.SameBesidesThreads db'

theorem repliesReconciled_nil (db : Database) (chatId : Int) (idsOf : Int → List Int) :
    RepliesReconciled db db chatId [] idsOf where
  messages := fun id => by cases db.messages.row id <;> simp
  threadMeta := fun key => by simp
  threadUserStates := fun key => by cases db.threadUserStates.row key <;> simp
  same := ⟨rfl, rfl, rfl, rfl, rfl⟩

theorem RepliesReconciled.replyRow {db db' : Database} {chatId : Int} {roots : List Int}
    {idsOf : Int → List Int} (h : RepliesReconciled db db' chatId roots idsOf) (root id : Int) :
    db'.replyRow root id = db.replyRow root id := by
  rw [Database.replyRow, Database.replyRow, h.messages id]
  cases db.messages.row id with
  | none => rfl
  | some m =>
    simp only [Option.map_some, Option.bind_some]
    split <;> rfl

/-- One thread: its statistics, then its readers. -/
theorem repliesReconciled_one (db : Database) (chatId root : Int) (ids : List Int) :
    RepliesReconciled db
      ((db.recalculateThreadMeta chatId root).shiftThreadReadPointersOnDelete root ids) chatId
      [root] fun _ => ids := by
  obtain ⟨hsame, hstates⟩ := db.recalculateThreadMeta_same chatId root
  obtain ⟨hsame', hmessages, hmeta⟩ :=
    (db.recalculateThreadMeta chatId root).shiftThread_same root ids
  constructor
  · intro id
    rw [hmessages, Database.recalculateThreadMeta_messages]
    by_cases hid : id = root
    · subst hid
      simp
    · simp [hid]
  · intro key
    rw [hmeta, Database.recalculateThreadMeta_threadMeta]
    by_cases hkey : key = (chatId, root)
    · simp [hkey]
    · have hne : ¬(key.1 = chatId ∧ key.2 ∈ [root]) := by
        rintro ⟨h1, h2⟩
        exact hkey (Prod.ext h1 (List.mem_singleton.mp h2))
      rw [if_neg hkey, if_neg hne]
  · intro key
    have hprevious := Database.previousInThread_congr
      (db.recalculateThreadMeta_replyRow chatId root root)
    rw [Database.shiftThread_row, hstates]
    by_cases hkey : key.2.1 = root
    · simp only [hkey, if_true, List.mem_singleton, Database.shiftedState, hprevious]
    · simp [hkey]
  · exact
      { attachments := hsame'.attachments.trans hsame.attachments
        messageMentions := hsame'.messageMentions.trans hsame.messageMentions
        groupMembership := hsame'.groupMembership.trans hsame.groupMembership
        groups := hsame'.groups.trans hsame.groups
        pinnedMessages := hsame'.pinnedMessages.trans hsame.pinnedMessages }

theorem RepliesReconciled.cons {a b c : Database} {chatId root : Int} {roots : List Int}
    {idsOf : Int → List Int} (h : RepliesReconciled a b chatId [root] idsOf)
    (h' : RepliesReconciled b c chatId roots idsOf) (hroot : root ∉ roots) :
    RepliesReconciled a c chatId (root :: roots) idsOf where
  messages := fun id => by
    rw [h'.messages id, h.messages id, Database.liveReplies_congr (h.replyRow id)]
    cases a.messages.row id with
    | none => rfl
    | some m =>
      by_cases hid : id = root
      · subst hid
        simp [hroot]
      · simp [hid]
  threadMeta := fun key => by
    rw [h'.threadMeta key, h.threadMeta key, Database.threadStats_congr (h.replyRow key.2)]
    by_cases hkey : key.2 = root
    · rw [hkey]
      simp [hroot]
    · simp [hkey]
  threadUserStates := fun key => by
    rw [h'.threadUserStates key, h.threadUserStates key]
    have hprevious := Database.previousInThread_congr (h.replyRow key.2.1)
    cases a.threadUserStates.row key with
    | none => rfl
    | some state =>
      by_cases hkey : key.2.1 = root
      · rw [hkey]
        simp [hroot]
      · simp [hkey, Database.shiftedState, hprevious]
  same :=
    { attachments := h'.same.attachments.trans h.same.attachments
      messageMentions := h'.same.messageMentions.trans h.same.messageMentions
      groupMembership := h'.same.groupMembership.trans h.same.groupMembership
      groups := h'.same.groups.trans h.same.groups
      pinnedMessages := h'.same.pinnedMessages.trans h.same.pinnedMessages }

theorem reconcileReplies_reconciled (db : Database) (chatId : Int)
    (replyIds : Table Int (List Int)) :
    RepliesReconciled db (db.reconcileReplies chatId replyIds) chatId (ascending replyIds.keys)
      fun root => (replyIds.row root).getD [] := by
  have hall : ∀ (roots : List Int) (db : Database), roots.Nodup →
      RepliesReconciled db
        (roots.foldl (fun db rootId =>
          (db.recalculateThreadMeta chatId rootId).shiftThreadReadPointersOnDelete rootId
            ((replyIds.row rootId).getD [])) db) chatId roots
        fun root => (replyIds.row root).getD [] := by
    intro roots
    induction roots with
    | nil => exact fun db _ => repliesReconciled_nil db chatId _
    | cons root roots ih =>
      intro db hnodup
      obtain ⟨hnot, hnodup⟩ := List.nodup_cons.mp hnodup
      have hone := repliesReconciled_one db chatId root ((replyIds.row root).getD [])
      have hone' : RepliesReconciled db _ chatId [root] fun root => (replyIds.row root).getD [] :=
        { hone with
          threadUserStates := fun key => by
            rw [hone.threadUserStates key]
            by_cases hkey : key.2.1 = root <;> simp [hkey] }
      exact hone'.cons (ih _ hnodup) hnot
  exact hall _ db (nodup_ascending _)

/-- The state of a chat reader after the messages were hidden. -/
def Database.shiftedMembership (db : Database) (chatId : Int) (deletedMessageIds : List Int)
    (gm : Membership) : Membership :=
  if gm.lastReadMessageId.any fun last => decide (last ∈ deletedMessageIds) then
    { gm with lastReadMessageId := gm.lastReadMessageId.bind (db.previousInChat chatId) }
  else gm

theorem shiftChat_row (db : Database) (chatId : Int) (deletedMessageIds : List Int)
    (key : Int × Int) :
    (db.shiftChatReadPointersOnDelete chatId deletedMessageIds).groupMembership.row key =
      (db.groupMembership.row key).map fun gm =>
        if key.1 = chatId then db.shiftedMembership chatId deletedMessageIds gm else gm := by
  unfold Database.shiftChatReadPointersOnDelete Database.shiftedMembership
  by_cases hnil : deletedMessageIds = []
  · subst hnil
    rw [if_pos rfl]
    cases db.groupMembership.row key with
    | none => rfl
    | some gm => simp
  · rw [if_neg hnil]
    change (db.groupMembership.updateWhere _ _).row key = _
    rw [Table.updateWhere_row]
    cases db.groupMembership.row key with
    | none => rfl
    | some gm => by_cases hkey : key.1 = chatId <;> simp [hkey]

/-- What no shift of chat read pointers touches. -/
structure SameBesidesMembership (db db' : Database) : Prop where
  messages : db'.messages = db.messages
  attachments : db'.attachments = db.attachments
  messageMentions : db'.messageMentions = db.messageMentions
  threadMeta : db'.threadMeta = db.threadMeta
  threadUserStates : db'.threadUserStates = db.threadUserStates
  groups : db'.groups = db.groups
  pinnedMessages : db'.pinnedMessages = db.pinnedMessages

theorem shiftChat_same (db : Database) (chatId : Int) (deletedMessageIds : List Int) :
    SameBesidesMembership db (db.shiftChatReadPointersOnDelete chatId deletedMessageIds) := by
  unfold Database.shiftChatReadPointersOnDelete
  split <;> exact ⟨rfl, rfl, rfl, rfl, rfl, rfl, rfl⟩

/-- What no change of a chat's last message touches. -/
structure SameBesidesGroups (db db' : Database) : Prop where
  messages : db'.messages = db.messages
  attachments : db'.attachments = db.attachments
  messageMentions : db'.messageMentions = db.messageMentions
  threadMeta : db'.threadMeta = db.threadMeta
  threadUserStates : db'.threadUserStates = db.threadUserStates
  groupMembership : db'.groupMembership = db.groupMembership
  pinnedMessages : db'.pinnedMessages = db.pinnedMessages

theorem recalculateGroupLastMessage_same (db : Database) (chatId : Int) :
    SameBesidesGroups db (db.recalculateGroupLastMessage chatId) :=
  ⟨rfl, rfl, rfl, rfl, rfl, rfl, rfl⟩

theorem reconcileLastMessage_same {db db' : Database} {chatId : Int} {messageIds : List Int}
    (h : db.reconcileLastMessage chatId messageIds = .ok db') : SameBesidesGroups db db' := by
  unfold Database.reconcileLastMessage at h
  split at h
  · cases h
  · split at h
    · exact Except.ok.inj h ▸ recalculateGroupLastMessage_same db chatId
    · exact Except.ok.inj h ▸ ⟨rfl, rfl, rfl, rfl, rfl, rfl, rfl⟩

end Chahua.Messages

import Chahua.Messages.DeletionEffects

namespace Chahua.Messages

open Framework

/-- Each target is a row of the chat as it was loaded. -/
def Targets (db : Database) (chatId : Int) (targets : List DeletionTarget) : Prop :=
  ∀ t ∈ targets, ∃ m, db.messages.row t.id = some m ∧ m.chatId = chatId ∧
    m.replyRootId = t.replyRootId ∧ m.hasThread = t.hasThread

/-- A deletion as its three parts: the messages are marked, the threads they were replies of are
reconciled, the chat readers on the `shifted` messages move back. -/
structure DeletionSteps (db marked reconciled db' : Database) (chatId : Int)
    (targets : List DeletionTarget) (shifted : List Int) : Prop where
  rows : Targets db chatId targets
  soft : SoftDeleted db marked (targets.map (·.id))
  replies : ∃ roots idsOf, RepliesReconciled marked reconciled chatId roots idsOf ∧
    (∀ root, root ∈ roots ↔ ∃ t ∈ targets, t.replyRootId = some root) ∧
    ∀ root id, id ∈ idsOf root ↔ ∃ t ∈ targets, t.replyRootId = some root ∧ t.id = id
  messages : db'.messages = reconciled.messages
  threadMeta : db'.threadMeta = reconciled.threadMeta
  threadUserStates : db'.threadUserStates = reconciled.threadUserStates
  groupMembership : ∀ key, db'.groupMembership.row key =
    (db.groupMembership.row key).map fun gm =>
      if key.1 = chatId then reconciled.shiftedMembership chatId shifted gm else gm

theorem shiftedMembership_nil (db : Database) (chatId : Int) (gm : Membership) :
    db.shiftedMembership chatId [] gm = gm := by simp [Database.shiftedMembership]

theorem targets_of_deletionTarget {db : Database} {chatId : Int} {s : List Int}
    (h : ∀ id ∈ s, ∃ m, db.messages.row id = some m ∧ m.chatId = chatId) :
    Targets db chatId (s.filterMap db.deletionTarget) := by
  intro t ht
  obtain ⟨id, hid, ht⟩ := List.mem_filterMap.mp ht
  obtain ⟨m, hm, hchat⟩ := h id hid
  simp only [Database.deletionTarget, hm, Option.map_some, Option.some.injEq] at ht
  subst ht
  exact ⟨m, hm, hchat, rfl, rfl⟩

theorem selectTargets_targets (db : Database) (chatId : Int) (ids : List Int) :
    Targets db chatId (db.selectTargets chatId ids) := by
  refine targets_of_deletionTarget fun id hid => ?_
  obtain ⟨m, hm, hp⟩ := Table.mem_select.mp (mem_ascending.mp hid)
  simp only [Bool.and_eq_true, decide_eq_true_eq] at hp
  exact ⟨m, hm, hp.1⟩

theorem bulkDeleteTargets_targets (db : Database) (now chatId targetUid : Int)
    (scope : DeleteScope) : Targets db chatId (db.bulkDeleteTargets now chatId targetUid scope) := by
  refine targets_of_deletionTarget fun id hid => ?_
  obtain ⟨m, hm, hp⟩ := Table.mem_select.mp (mem_of_mem_ascendingUpTo hid)
  simp only [Bool.and_eq_true, decide_eq_true_eq] at hp
  exact ⟨m, hm, hp.1.1.1.1⟩

theorem Targets.of_softDeleted {db db' : Database} {chatId : Int} {ids : List Int}
    {targets : List DeletionTarget} (h : SoftDeleted db db' ids)
    (ht : Targets db' chatId targets) : Targets db chatId targets := by
  intro t hmem
  obtain ⟨m', hm', hrest⟩ := ht t hmem
  cases hm : db.messages.row t.id with
  | none =>
    obtain ⟨time, htime⟩ := h.messages
    rw [htime t.id, hm] at hm'
    cases hm'
  | some m =>
    obtain ⟨deletedAt, hrow, -⟩ := h.row hm
    obtain rfl : _ = m' := Option.some.inj (hrow.symm.trans hm')
    exact ⟨m, rfl, hrest⟩

theorem softDeleteBatch_spec {db db' : Database} {now : Int} {targets : List DeletionTarget}
    {impact : DeletionImpact} (h : db.softDeleteBatch now targets = .ok (db', impact)) :
    SoftDeleted db db' (targets.map (·.id)) ∧ Describes impact targets := by
  unfold Database.softDeleteBatch at h
  split at h
  · cases h
  · obtain ⟨rfl, rfl⟩ := Prod.mk.inj (Except.ok.inj h)
    have hdescribes := describes_foldl targets
    rw [← hdescribes.messageIds]
    exact ⟨softDelete_softDeleted db now _, hdescribes⟩

theorem reconcileDeletions_steps {db marked db' : Database} {chatId : Int}
    {targets : List DeletionTarget} {impact : DeletionImpact} (hrows : Targets db chatId targets)
    (hsoft : SoftDeleted db marked (targets.map (·.id))) (hdescribes : Describes impact targets)
    (h : marked.reconcileDeletions chatId impact = .ok db') :
    DeletionSteps db marked (marked.reconcileReplies chatId impact.replyIds) db' chatId targets
      ((marked.reconcileReplies chatId impact.replyIds).hiddenChatIds
        (impact.chatMessageIds ++ ascending impact.threadRootIds)) := by
  have hreconciled := reconcileReplies_reconciled marked chatId impact.replyIds
  have hshift := shiftChat_same (marked.reconcileReplies chatId impact.replyIds) chatId
    ((marked.reconcileReplies chatId impact.replyIds).hiddenChatIds
      (impact.chatMessageIds ++ ascending impact.threadRootIds))
  have hlast := reconcileLastMessage_same h
  refine
    { rows := hrows
      soft := hsoft
      replies := ⟨_, _, hreconciled, ?_, hdescribes.replyIds⟩
      messages := hlast.messages.trans hshift.messages
      threadMeta := hlast.threadMeta.trans hshift.threadMeta
      threadUserStates := hlast.threadUserStates.trans hshift.threadUserStates
      groupMembership := ?_ }
  · intro root
    rw [mem_ascending, hdescribes.replyRoots]
  · intro key
    rw [hlast.groupMembership, shiftChat_row, hreconciled.same.groupMembership,
      hsoft.groupMembership]

theorem deleteSelection_steps {db db' : Database} {now chatId uid : Int} {isAdmin : Bool}
    {ids : List Int} (h : db.deleteSelection now chatId uid isAdmin ids = .ok db') :
    ∃ marked impact,
      SoftDeleted db marked ((db.selectTargets chatId ids).map (·.id)) ∧
      Describes impact (db.selectTargets chatId ids) ∧
      marked.reconcileDeletions chatId impact = .ok db' := by
  simp only [Database.deleteSelection] at h
  split at h
  · cases h
  · split at h
    · cases h
    · next marked impact hbatch =>
      obtain ⟨hsoft, hdescribes⟩ := softDeleteBatch_spec hbatch
      exact ⟨marked, impact, hsoft, hdescribes, h⟩

theorem bulkDeleteBatch_spec {db db' : Database} {now chatId targetUid : Int}
    {scope : DeleteScope} {batch : DeletionImpact}
    (h : db.bulkDeleteBatch now chatId targetUid scope = .ok (db', batch)) :
    ∃ targets, Targets db chatId targets ∧ SoftDeleted db db' (targets.map (·.id)) ∧
      Describes batch targets := by
  unfold Database.bulkDeleteBatch at h
  have htargets := bulkDeleteTargets_targets db now chatId targetUid scope
  split at h
  · obtain ⟨rfl, rfl⟩ := Prod.mk.inj (Except.ok.inj h)
    exact ⟨[], by simp [Targets], softDeleted_refl db, describes_empty⟩
  · obtain ⟨hsoft, hdescribes⟩ := softDeleteBatch_spec h
    exact ⟨_, htargets, hsoft, hdescribes⟩

/-- The batches of a loop add up to one deletion. -/
theorem bulkDeleteBatches_spec {start db db' : Database} {impact impact' : DeletionImpact}
    {chatId targetUid : Int} {scope : DeleteScope} {clock : List Int}
    {targets : List DeletionTarget} (hrows : Targets start chatId targets)
    (hsoft : SoftDeleted start db (targets.map (·.id))) (hdescribes : Describes impact targets)
    (h : db.bulkDeleteBatches impact chatId targetUid scope clock = .ok (db', impact')) :
    ∃ targets', Targets start chatId targets' ∧ SoftDeleted start db' (targets'.map (·.id)) ∧
      Describes impact' targets' := by
  induction clock generalizing db impact targets with
  | nil => cases h
  | cons now clock ih =>
    simp only [Database.bulkDeleteBatches] at h
    split at h
    · cases h
    · next next batch hbatch =>
      obtain ⟨more, hmore, hsoft', hdescribes'⟩ := bulkDeleteBatch_spec hbatch
      have hrows' : Targets start chatId (targets ++ more) := by
        intro t ht
        rcases List.mem_append.mp ht with ht | ht
        · exact hrows t ht
        · exact hmore.of_softDeleted hsoft t ht
      have hsoft'' : SoftDeleted start next ((targets ++ more).map (·.id)) := by
        rw [List.map_append]
        exact hsoft.trans hsoft'
      have hmerge := hdescribes.merge hdescribes'
      split at h
      · next hlength =>
        obtain ⟨rfl, rfl⟩ := Prod.mk.inj (Except.ok.inj h)
        have hnil : more = [] := by
          rw [hdescribes'.messageIds, List.length_map] at hlength
          exact List.length_eq_zero_iff.mp hlength
        rw [hnil, List.append_nil] at hrows' hsoft''
        exact ⟨targets, hrows', hsoft'', hdescribes⟩
      · split at h
        · obtain ⟨rfl, rfl⟩ := Prod.mk.inj (Except.ok.inj h)
          exact ⟨_, hrows', hsoft'', hmerge⟩
        · exact ih hrows' hsoft'' hmerge h

theorem processBulkDelete_steps {db db' : Database} {clock : List Int} {chatId targetUid : Int}
    {scope : DeleteScope} (h : db.processBulkDelete clock chatId targetUid scope = .ok db') :
    ∃ marked impact targets, Targets db chatId targets ∧
      SoftDeleted db marked (targets.map (·.id)) ∧ Describes impact targets ∧
      (targets = [] ∧ db' = marked ∨ marked.reconcileDeletions chatId impact = .ok db') := by
  unfold Database.processBulkDelete at h
  split at h
  · cases h
  · next marked impact hbatches =>
    have hnone : Targets db chatId [] := by simp [Targets]
    obtain ⟨targets, hrows, hsoft, hdescribes⟩ :=
      bulkDeleteBatches_spec hnone (softDeleted_refl db) describes_empty hbatches
    refine ⟨marked, impact, targets, hrows, hsoft, hdescribes, ?_⟩
    split at h
    · next hnil =>
      rw [hdescribes.messageIds, List.map_eq_nil_iff] at hnil
      exact .inl ⟨hnil, (Except.ok.inj h).symm⟩
    · exact .inr h

theorem deletionSteps_nil {db db' : Database} (chatId : Int) (h : SoftDeleted db db' []) :
    DeletionSteps db db' db' db' chatId [] [] where
  rows := by simp [Targets]
  soft := h
  replies := ⟨[], fun _ => [], repliesReconciled_nil db' chatId _, by simp, by simp⟩
  messages := rfl
  threadMeta := rfl
  threadUserStates := rfl
  groupMembership := fun key => by
    rw [h.groupMembership]
    cases db.groupMembership.row key <;> simp [shiftedMembership_nil]

/-- A message that passes the checks of `delete_message`. -/
theorem checkDeleteMessage_spec {db : Database} {uid chatId messageId : Int}
    (h : db.checkDeleteMessage uid chatId messageId = .ok ()) :
    ∃ m, db.messages.row messageId = some m ∧ m.chatId = chatId ∧ m.deletedAt = none ∧
      m.isPublished = true ∧ m.messageType ≠ .system := by
  unfold Database.checkDeleteMessage at h
  split at h
  · cases h
  · split at h
    · cases h
    · next m hm =>
      obtain ⟨hrow, hchat⟩ := Option.filter_eq_some_iff.mp hm
      split at h
      · cases h
      · split at h
        · cases h
        · next htype =>
          split at h
          · cases h
          · next hdeleted =>
            split at h
            · cases h
            · next hpublished =>
              refine ⟨m, hrow, by simpa using hchat, by simpa using hdeleted,
                by simpa using hpublished, fun hsystem => ?_⟩
              simp [validateDeletableMessageType, hsystem] at htype

def targetOf (messageId : Int) (m : Message) : DeletionTarget where
  id := messageId
  senderUid := m.senderUid
  isPublished := m.isPublished
  messageType := m.messageType
  replyRootId := m.replyRootId
  hasThread := m.hasThread

namespace Database

/-- The part of `delete_message` that concerns threads. -/
def reconcileOne (marked : Database) (chatId messageId : Int) (m : Message) : Database :=
  match m.replyRootId with
  | some root =>
      (marked.recalculateThreadMeta chatId root).shiftThreadReadPointersOnDelete root [messageId]
  | none => marked

/-- The messages whose chat readers `delete_message` moves back. -/
def shiftedOne (messageId : Int) (m : Message) : List Int :=
  if m.replyRootId = none ∧ m.hasThread = false then [messageId] else []

end Database

theorem markDeleted_row {db : Database} (now : Int) {messageId : Int} {m : Message}
    (h : db.messages.row messageId = some m) :
    (db.markDeleted now messageId).messages.row messageId =
      some { m with deletedAt := some now } := by
  change (db.messages.updateWhere _ _).row messageId = _
  simp [Table.updateWhere_row_some h]

theorem deleteMessageTransaction_steps {db db' : Database} {now chatId messageId : Int}
    {m : Message} (hrow : db.messages.row messageId = some m) (hchat : m.chatId = chatId)
    (hdeleted : m.deletedAt = none)
    (h : db.deleteMessageTransaction now chatId messageId = .ok db') :
    DeletionSteps db (db.markDeleted now messageId)
      ((db.markDeleted now messageId).reconcileOne chatId messageId m) db' chatId
      [targetOf messageId m] (Database.shiftedOne messageId m) := by
  have hsoft := markDeleted_softDeleted now hrow hdeleted
  have hrows : Targets db chatId [targetOf messageId m] := by
    intro t ht
    obtain rfl := List.mem_singleton.mp ht
    exact ⟨m, hrow, hchat, rfl, rfl⟩
  simp only [Database.deleteMessageTransaction, markDeleted_row now hrow] at h
  cases hroot : m.replyRootId with
  | some root =>
    simp only [hroot] at h
    split at h
    · cases h
    · next g _ =>
      have hone := repliesReconciled_one (db.markDeleted now messageId) chatId root [messageId]
      have hsame := hone.same
      have hreconciled : (db.markDeleted now messageId).reconcileOne chatId messageId m =
          ((db.markDeleted now messageId).recalculateThreadMeta chatId
            root).shiftThreadReadPointersOnDelete root [messageId] := by
        simp [Database.reconcileOne, hroot]
      have hshifted : Database.shiftedOne messageId m = [] := by
        simp [Database.shiftedOne, hroot]
      have heq := Except.ok.inj h
      rw [hreconciled, hshifted]
      refine
        { rows := hrows
          soft := hsoft
          replies := ⟨[root], fun r => if r = root then [messageId] else [],
            { hone with threadUserStates := fun key => ?_ }, ?_, ?_⟩
          messages := ?_
          threadMeta := ?_
          threadUserStates := ?_
          groupMembership := fun key => ?_ }
      · rw [hone.threadUserStates key]
        by_cases hkey : key.2.1 = root <;> simp [hkey]
      · simp [targetOf, hroot, eq_comm]
      · intro r id
        by_cases hr : r = root
        · simp [hr, targetOf, hroot, eq_comm]
        · simp [hr, targetOf, hroot, Ne.symm hr]
      · rw [← heq]
        split <;> rfl
      · rw [← heq]
        split <;> rfl
      · rw [← heq]
        split <;> rfl
      · rw [← heq]
        have hbefore : ((db.markDeleted now messageId).recalculateThreadMeta chatId
            root).groupMembership = db.groupMembership :=
          ((db.markDeleted now messageId).recalculateThreadMeta_same chatId root).1.groupMembership
        have hafter : ∀ d : Database,
            (d.shiftThreadReadPointersOnDelete root [messageId]).groupMembership =
              d.groupMembership := fun d => (d.shiftThread_same root [messageId]).1.groupMembership
        rw [hafter]
        split
        · change ((db.markDeleted now messageId).recalculateThreadMeta chatId
            root).groupMembership.row key = _
          rw [hbefore]
          cases db.groupMembership.row key <;> simp [shiftedMembership_nil]
        · rw [hbefore]
          cases db.groupMembership.row key <;> simp [shiftedMembership_nil]
  | none =>
    simp only [hroot] at h
    split at h
    · cases h
    · next g _ =>
      have hreconciled : (db.markDeleted now messageId).reconcileOne chatId messageId m =
          db.markDeleted now messageId := by
        simp [Database.reconcileOne, hroot]
      have heq := Except.ok.inj h
      rw [hreconciled]
      refine
        { rows := hrows
          soft := hsoft
          replies := ⟨[], fun _ => [], repliesReconciled_nil _ chatId _, ?_, ?_⟩
          messages := ?_
          threadMeta := ?_
          threadUserStates := ?_
          groupMembership := fun key => ?_ }
      · simp [targetOf, hroot]
      · simp [targetOf, hroot]
      · rw [← heq]
        split <;> split <;> rfl
      · rw [← heq]
        split <;> split <;> rfl
      · rw [← heq]
        split <;> split <;> rfl
      · rw [← heq]
        by_cases hthread : m.hasThread = true
        · have hshifted : Database.shiftedOne messageId m = [] := by
            simp [Database.shiftedOne, hthread]
          rw [if_pos hthread, hshifted]
          split <;>
            · change db.groupMembership.row key = _
              cases db.groupMembership.row key <;> simp [shiftedMembership_nil]
        · have hshifted : Database.shiftedOne messageId m = [messageId] := by
            simp [Database.shiftedOne, hroot, hthread]
          rw [if_neg hthread, hshifted, shiftChat_row]
          by_cases hlast : g.lastMessageId = some messageId
          · rw [if_pos hlast]
            rfl
          · rw [if_neg hlast]
            rfl

theorem deleteMessage_steps {db db' : Database} {now uid chatId messageId : Int}
    (h : db.deleteMessage now uid chatId messageId = .ok db') :
    ∃ m, db.messages.row messageId = some m ∧ m.chatId = chatId ∧ m.deletedAt = none ∧
      m.isPublished = true ∧ db.deleteMessageTransaction now chatId messageId = .ok db' := by
  unfold Database.deleteMessage at h
  split at h
  · cases h
  · next hcheck =>
    obtain ⟨m, hrow, hchat, hdeleted, hpublished, -⟩ := checkDeleteMessage_spec hcheck
    exact ⟨m, hrow, hchat, hdeleted, hpublished, h⟩

/-- A selection and a cleanup run through the same three parts. -/
theorem deleteSelection_deletion {db db' : Database} {now chatId uid : Int} {isAdmin : Bool}
    {ids : List Int} (h : db.deleteSelection now chatId uid isAdmin ids = .ok db') :
    ∃ marked reconciled targets shifted,
      DeletionSteps db marked reconciled db' chatId targets shifted := by
  obtain ⟨marked, impact, hsoft, hdescribes, hreconcile⟩ := deleteSelection_steps h
  exact ⟨_, _, _, _, reconcileDeletions_steps (selectTargets_targets db chatId ids) hsoft
    hdescribes hreconcile⟩

theorem processBulkDelete_deletion {db db' : Database} {clock : List Int}
    {chatId targetUid : Int} {scope : DeleteScope}
    (h : db.processBulkDelete clock chatId targetUid scope = .ok db') :
    ∃ marked reconciled targets shifted,
      DeletionSteps db marked reconciled db' chatId targets shifted := by
  obtain ⟨marked, impact, targets, hrows, hsoft, hdescribes, ⟨rfl, rfl⟩ | hreconcile⟩ :=
    processBulkDelete_steps h
  · exact ⟨_, _, _, _, deletionSteps_nil chatId hsoft⟩
  · exact ⟨_, _, _, _, reconcileDeletions_steps hrows hsoft hdescribes hreconcile⟩

theorem deleteMessage_deletion {db db' : Database} {now uid chatId messageId : Int}
    (h : db.deleteMessage now uid chatId messageId = .ok db') :
    ∃ marked reconciled targets shifted,
      DeletionSteps db marked reconciled db' chatId targets shifted := by
  obtain ⟨m, hrow, hchat, hdeleted, -, htx⟩ := deleteMessage_steps h
  exact ⟨_, _, _, _, deleteMessageTransaction_steps hrow hchat hdeleted htx⟩

/-- What a deletion leaves of a row: when it was deleted and whether its thread remains. -/
theorem DeletionSteps.row_inv {db marked reconciled db' : Database} {chatId : Int}
    {targets : List DeletionTarget} {shifted : List Int}
    (h : DeletionSteps db marked reconciled db' chatId targets shifted)
    {id : Int} {m' : Message} (hrow : db'.messages.row id = some m') :
    ∃ m deletedAt, db.messages.row id = some m ∧ m' = { m with
      deletedAt := deletedAt
      hasThread := m'.hasThread } ∧
      (deletedAt.isSome ↔ id ∈ targets.map (·.id) ∨ m.deletedAt.isSome) ∧
      (m'.hasThread = if (∃ t ∈ targets, t.replyRootId = some id) ∧ marked.liveReplies id = ∅
        then false else m.hasThread) := by
  obtain ⟨roots, idsOf, hreplies, hroots, -⟩ := h.replies
  rw [h.messages, hreplies.messages id] at hrow
  obtain ⟨mm, hmm, hif⟩ := Option.map_eq_some_iff.mp hrow
  obtain ⟨time, ht⟩ := h.soft.messages
  have hmm' := hmm
  rw [ht id] at hmm'
  obtain ⟨m, hm, -⟩ := Option.map_eq_some_iff.mp hmm'
  obtain ⟨deletedAt, hmarked, hdeleted⟩ := h.soft.row hm
  obtain rfl : { m with deletedAt := deletedAt } = mm := Option.some.inj (hmarked.symm.trans hmm)
  refine ⟨m, deletedAt, hm, ?_, hdeleted, ?_⟩
  · rw [← hif]
    split <;> rfl
  · rw [← hif]
    simp only [hroots id]
    split <;> rfl

/-- What a deletion makes of a row. -/
theorem DeletionSteps.row_fwd {db marked reconciled db' : Database} {chatId : Int}
    {targets : List DeletionTarget} {shifted : List Int}
    (h : DeletionSteps db marked reconciled db' chatId targets shifted)
    {id : Int} {m : Message} (hrow : db.messages.row id = some m) :
    ∃ m', db'.messages.row id = some m' ∧
      m' = { m with
        deletedAt := m'.deletedAt
        hasThread := m'.hasThread } ∧
      (m'.deletedAt.isSome ↔ id ∈ targets.map (·.id) ∨ m.deletedAt.isSome) ∧
      m'.hasThread = if (∃ t ∈ targets, t.replyRootId = some id) ∧ marked.liveReplies id = ∅
        then false else m.hasThread := by
  obtain ⟨roots, idsOf, hreplies, hroots, -⟩ := h.replies
  obtain ⟨deletedAt, hmarked, hdeleted⟩ := h.soft.row hrow
  rw [h.messages, hreplies.messages id, hmarked, Option.map_some]
  refine ⟨_, rfl, ?_, ?_, ?_⟩
  · split <;> rfl
  · split <;> exact hdeleted
  · simp only [hroots id]
    split <;> rfl

end Chahua.Messages

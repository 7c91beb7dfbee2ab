import Chahua.Messages.DeletionSteps
import Chahua.Messages.System

namespace Chahua.Messages

open Framework

/-- A row with the time of its deletion left out. -/
def undate (m : Message) : Message := { m with deletedAt := m.deletedAt.map fun _ => 0 }

def undateAttachment (a : Attachment) : Attachment :=
  { a with deletedAt := a.deletedAt.map fun _ => 0 }

def Database.undated (db : Database) : Database :=
  { db with
    messages := db.messages.updateWhere (fun _ _ => true) fun _ m => undate m
    attachments := db.attachments.updateWhere (fun _ _ => true) fun _ a => undateAttachment a }

/-- Two tables hold the same messages, whenever those were deleted. -/
def SameMessages (a b : Table Int Message) : Prop :=
  ∀ id, (a.row id).map undate = (b.row id).map undate

section SameMessages

variable {a b : Table Int Message}

theorem SameMessages.bind {β : Type*} (h : SameMessages a b) {f : Message → Option β}
    (hf : ∀ m, f (undate m) = f m) (id : Int) : (a.row id).bind f = (b.row id).bind f := by
  have hmap : ∀ r : Option Message, (r.map undate).bind f = r.bind f := fun r => by
    cases r with
    | none => rfl
    | some m => exact hf m
  rw [← hmap, h id, hmap]

theorem SameMessages.any (h : SameMessages a b) {p : Message → Bool}
    (hp : ∀ m, p (undate m) = p m) (id : Int) : (a.row id).any p = (b.row id).any p := by
  have hmap : ∀ r : Option Message, (r.map undate).any p = r.any p := fun r => by
    cases r with
    | none => rfl
    | some m => exact hp m
  rw [← hmap, h id, hmap]

theorem SameMessages.select (h : SameMessages a b) {p : Int → Message → Bool}
    (hp : ∀ id m, p id (undate m) = p id m) : a.select p = b.select p :=
  Table.select_congr fun id => h.any (hp id) id

theorem SameMessages.newest (h : SameMessages a b) {p : Int → Message → Bool}
    (hp : ∀ id m, p id (undate m) = p id m) : a.newest p = b.newest p :=
  congrArg Finset.max (h.select hp)

end SameMessages

@[simp] theorem undate_isLive (m : Message) : (undate m).isLive = m.isLive := by
  simp [undate, Message.isLive]

@[simp] theorem undate_inChatWindow (chatId : Int) (m : Message) :
    inChatWindow chatId (undate m) = inChatWindow chatId m := by
  have hdeleted : (undate m).deletedAt.isNone = m.deletedAt.isNone := by simp [undate]
  unfold inChatWindow
  rw [hdeleted]
  rfl

@[simp] theorem undate_replyAt (rootId : Int) (m : Message) :
    replyAt rootId (undate m) = replyAt rootId m := by
  simp only [replyAt, undate_isLive]
  rfl

section Congruence

variable {a b : Database}

theorem SameMessages.replyRow (h : SameMessages a.messages b.messages) (rootId id : Int) :
    a.replyRow rootId id = b.replyRow rootId id :=
  h.bind (undate_replyAt rootId) id

theorem SameMessages.previousInChat (h : SameMessages a.messages b.messages) (chatId : Int) :
    a.previousInChat chatId = b.previousInChat chatId := by
  funext last
  exact h.newest fun id m => by simp

theorem SameMessages.recalculateGroupLastMessage (h : SameMessages a.messages b.messages)
    (hgroups : a.groups = b.groups) (chatId : Int) :
    (a.recalculateGroupLastMessage chatId).groups =
      (b.recalculateGroupLastMessage chatId).groups := by
  have hnewest : (a.messages.newest fun _ m =>
      decide (m.chatId = chatId) && m.isLive && m.isTopLevel) =
        b.messages.newest fun _ m => decide (m.chatId = chatId) && m.isLive && m.isTopLevel :=
    h.newest fun id m => by
      rw [undate_isLive]
      rfl
  have hat : ∀ id, (a.messages.row id).map (·.createdAt) = (b.messages.row id).map (·.createdAt) :=
    fun id => by
      have hbind := h.bind (f := fun m => some m.createdAt) (fun _ => rfl) id
      simpa [Option.map_eq_bind] using hbind
  unfold Database.recalculateGroupLastMessage
  simp only [hnewest, hat, hgroups]

/-- The same messages deleted at different times. -/
theorem SoftDeleted.sameMessages {db : Database} {ids : List Int} (ha : SoftDeleted db a ids)
    (hb : SoftDeleted db b ids) : SameMessages a.messages b.messages := by
  obtain ⟨time, ht⟩ := ha.messages
  obtain ⟨time', ht'⟩ := hb.messages
  intro id
  rw [ht id, ht' id]
  cases db.messages.row id with
  | none => rfl
  | some m =>
    simp only [Option.map_some]
    split <;> rfl

end Congruence

theorem DeletionSteps.reconciled_groups {db marked reconciled db' : Database} {chatId : Int}
    {targets : List DeletionTarget} {shifted : List Int}
    (h : DeletionSteps db marked reconciled db' chatId targets shifted) :
    reconciled.groups = db.groups := by
  obtain ⟨_, _, hreplies, -, -⟩ := h.replies
  exact hreplies.same.groups.trans h.soft.groups

section SameTargets

variable {db m m' r r' d d' : Database} {chatId : Int} {targets : List DeletionTarget}
  {shifted shifted' : List Int}

/-- Two deletions of the same messages leave the same messages, statistics and thread readers. -/
theorem DeletionSteps.reconciled_unique (h : DeletionSteps db m r d chatId targets shifted)
    (h' : DeletionSteps db m' r' d' chatId targets shifted') :
    SameMessages r.messages r'.messages ∧ d.threadMeta = d'.threadMeta ∧
      d.threadUserStates = d'.threadUserStates := by
  obtain ⟨roots, idsOf, hreplies, hroots, hids⟩ := h.replies
  obtain ⟨roots', idsOf', hreplies', hroots', hids'⟩ := h'.replies
  have hmarked := h.soft.sameMessages h'.soft
  have hmem : ∀ root, root ∈ roots ↔ root ∈ roots' := fun root =>
    (hroots root).trans (hroots' root).symm
  have hmemIds : ∀ root id, id ∈ idsOf root ↔ id ∈ idsOf' root := fun root id =>
    (hids root id).trans (hids' root id).symm
  refine ⟨fun id => ?_, ?_, ?_⟩
  · rw [hreplies.messages, hreplies'.messages, ← Database.liveReplies_congr (hmarked.replyRow id)]
    simp only [hmem id]
    have hid := hmarked id
    cases hm : m.messages.row id with
    | none =>
      rw [hm] at hid
      rw [Option.map_eq_none_iff.mp hid.symm]
    | some x =>
      rw [hm] at hid
      obtain ⟨y, hy, hxy⟩ := Option.map_eq_some_iff.mp hid.symm
      rw [hy, Option.map_some, Option.map_some, Option.map_some, Option.map_some]
      have hthread : undate { x with hasThread := false } = undate { y with hasThread := false } :=
        congrArg (fun z : Message => { z with hasThread := false }) hxy.symm
      split
      · exact congrArg some hthread
      · exact congrArg some hxy.symm
  · ext1 key
    rw [h.threadMeta, h'.threadMeta, hreplies.threadMeta, hreplies'.threadMeta, h.soft.threadMeta,
      h'.soft.threadMeta, Database.threadStats_congr (hmarked.replyRow key.2)]
    simp only [hmem]
  · ext1 key
    rw [h.threadUserStates, h'.threadUserStates, hreplies.threadUserStates,
      hreplies'.threadUserStates, h.soft.threadUserStates, h'.soft.threadUserStates]
    simp only [Database.shiftedState, hmem, hmemIds,
      Database.previousInThread_congr (hmarked.replyRow key.2.1)]

end SameTargets

section One

variable {db : Database} {now chatId messageId : Int} {m : Message} {g : Group}

/-- What the two deletions of one message do to the tables that depend on no thread. -/
structure DeletedAlone (db reconciled db' : Database) (chatId messageId : Int) (g : Group) :
    Prop where
  messageMentions : db'.messageMentions =
    db.messageMentions.deleteWhere fun key _ => decide (key.1 = messageId)
  pinnedMessages : db'.pinnedMessages = db.pinnedMessages
  groups : db'.groups =
    if g.lastMessageId = some messageId then (reconciled.recalculateGroupLastMessage chatId).groups
    else db.groups

theorem shiftThread_recalculateGroup (db : Database) (root : Int) (ids : List Int) :
    ((db.shiftThreadReadPointersOnDelete root ids).recalculateGroupLastMessage chatId).groups =
      (db.recalculateGroupLastMessage chatId).groups := by
  unfold Database.shiftThreadReadPointersOnDelete
  split <;> rfl

theorem shiftChat_recalculateGroup (db : Database) (ids : List Int) :
    ((db.shiftChatReadPointersOnDelete chatId ids).recalculateGroupLastMessage chatId).groups =
      (db.recalculateGroupLastMessage chatId).groups := by
  unfold Database.shiftChatReadPointersOnDelete
  split <;> rfl

theorem deleteMessageTransaction_ok (hrow : db.messages.row messageId = some m)
    (hgroup : db.groups.row chatId = some g) :
    ∃ a, db.deleteMessageTransaction now chatId messageId = .ok a ∧
      a.attachments = db.attachments ∧
      DeletedAlone db ((db.markDeleted now messageId).reconcileOne chatId messageId m) a chatId
        messageId g := by
  cases hroot : m.replyRootId with
  | some root =>
    have hrecalc := ((db.markDeleted now messageId).recalculateThreadMeta_same chatId root).1
    have hrecalcGroup : ((db.markDeleted now messageId).recalculateThreadMeta chatId
        root).groups.row chatId = some g := by rw [hrecalc.groups]; exact hgroup
    have hshift := fun d : Database => (d.shiftThread_same root [messageId]).1
    simp only [Database.deleteMessageTransaction, markDeleted_row now hrow, Database.reconcileOne,
      hroot, hrecalcGroup]
    refine ⟨_, rfl, ?_, ?_, ?_, ?_⟩
    · rw [(hshift _).attachments]
      split <;> exact hrecalc.attachments
    · rw [(hshift _).messageMentions]
      split <;> exact hrecalc.messageMentions
    · rw [(hshift _).pinnedMessages]
      split <;> exact hrecalc.pinnedMessages
    · rw [(hshift _).groups, shiftThread_recalculateGroup]
      split
      · rfl
      · exact hrecalc.groups
  | none =>
    have hmarked : (db.markDeleted now messageId).groups.row chatId = some g := hgroup
    simp only [Database.deleteMessageTransaction, markDeleted_row now hrow, Database.reconcileOne,
      hroot, hmarked]
    refine ⟨_, rfl, ?_, ?_, ?_, ?_⟩
    · split <;> split <;> rfl
    · split <;> split <;> rfl
    · split <;> split <;> rfl
    · split <;> split <;> rfl

theorem ascending_singleton (k : Int) : ascending {k} = [k] := by
  simp [ascending, ascendingUpTo]

theorem selectTargets_one (hrow : db.messages.row messageId = some m) (hchat : m.chatId = chatId) :
    db.selectTargets chatId [messageId] = [targetOf messageId m] := by
  have hselect : db.messages.select (fun id m =>
      decide (m.chatId = chatId) && decide (id ∈ [messageId])) = {messageId} := by
    ext id
    simp only [Table.mem_select, Bool.and_eq_true, decide_eq_true_eq, List.mem_singleton,
      Finset.mem_singleton]
    constructor
    · rintro ⟨-, -, -, rfl⟩
      rfl
    · rintro rfl
      exact ⟨m, hrow, hchat, rfl⟩
  have htarget : db.deletionTarget messageId = some (targetOf messageId m) := by
    simp [Database.deletionTarget, hrow, targetOf]
  rw [Database.selectTargets, hselect, ascending_singleton, List.filterMap_cons, htarget]
  rfl

/-- A reconciliation in a chat that exists succeeds. -/
theorem reconcileDeletions_ok {marked : Database} (impact : DeletionImpact)
    (hgroup : marked.groups.row chatId = some g) :
    ∃ b, marked.reconcileDeletions chatId impact = .ok b ∧
      b.attachments = marked.attachments ∧ b.messageMentions = marked.messageMentions ∧
      b.pinnedMessages = marked.pinnedMessages ∧
      b.groups =
        if g.lastMessageId.any fun id => decide (id ∈ impact.messageIds) then
          ((marked.reconcileReplies chatId impact.replyIds).recalculateGroupLastMessage
            chatId).groups
        else marked.groups := by
  have hreplies := (reconcileReplies_reconciled marked chatId impact.replyIds).same
  simp only [Database.reconcileDeletions]
  generalize marked.reconcileReplies chatId impact.replyIds = replies at hreplies ⊢
  generalize replies.hiddenChatIds (impact.chatMessageIds ++ ascending impact.threadRootIds) =
    hidden
  have hshift := shiftChat_same replies chatId hidden
  have hrecalc := @shiftChat_recalculateGroup chatId replies hidden
  have hrow : (replies.shiftChatReadPointersOnDelete chatId hidden).groups.row chatId = some g := by
    rw [hshift.groups, hreplies.groups, hgroup]
  simp only [Database.reconcileLastMessage, hrow]
  by_cases hlast : (g.lastMessageId.any fun id => decide (id ∈ impact.messageIds)) = true
  · rw [if_pos hlast, if_pos hlast]
    exact ⟨_, rfl, hshift.attachments.trans hreplies.attachments,
      hshift.messageMentions.trans hreplies.messageMentions,
      hshift.pinnedMessages.trans hreplies.pinnedMessages, hrecalc⟩
  · rw [if_neg hlast, if_neg hlast]
    exact ⟨_, rfl, hshift.attachments.trans hreplies.attachments,
      hshift.messageMentions.trans hreplies.messageMentions,
      hshift.pinnedMessages.trans hreplies.pinnedMessages, hshift.groups.trans hreplies.groups⟩

theorem deleteSelection_ok {uid : Int} {isAdmin : Bool}
    (hrow : db.messages.row messageId = some m) (hchat : m.chatId = chatId)
    (hpublished : m.isPublished = true) (htype : m.messageType ≠ .system)
    (hallowed : isAdmin = true ∨ m.senderUid = uid) (hgroup : db.groups.row chatId = some g) :
    ∃ b impact, db.deleteSelection now chatId uid isAdmin [messageId] = .ok b ∧
      b.attachments = (db.softDelete now [messageId]).attachments ∧
      Describes impact [targetOf messageId m] ∧
      (db.softDelete now [messageId]).reconcileDeletions chatId impact = .ok b ∧
      DeletedAlone db ((db.softDelete now [messageId]).reconcileReplies chatId impact.replyIds) b
        chatId messageId g := by
  have hdescribes := describes_foldl [targetOf messageId m]
  have hids := hdescribes.messageIds
  have hcheck : Database.checkSelection [targetOf messageId m] uid isAdmin [messageId] = .ok () := by
    rcases hallowed with hallowed | hallowed <;>
      simp [Database.checkSelection, targetOf, hpublished, hallowed]
  have hbatch : db.softDeleteBatch now [targetOf messageId m] =
      .ok (db.softDelete now [messageId], [targetOf messageId m].foldl DeletionImpact.add .empty) := by
    simp only [Database.softDeleteBatch, hids]
    simp [validateDeletable, validateDeletableMessageType, targetOf, htype]
  simp only [Database.deleteSelection, selectTargets_one hrow hchat, hcheck, hbatch]
  generalize [targetOf messageId m].foldl DeletionImpact.add .empty = impact at hdescribes hids
  obtain ⟨b, hok, hattachments, hmentions, hpinned, hgroups⟩ :=
    @reconcileDeletions_ok chatId g (db.softDelete now [messageId]) impact hgroup
  have hlast : (g.lastMessageId.any fun id => decide (id ∈ impact.messageIds)) = true ↔
      g.lastMessageId = some messageId := by
    rw [hids]
    cases g.lastMessageId <;> simp [targetOf]
  refine ⟨b, impact, hok, hattachments, hdescribes, hok, ?_, hpinned, ?_⟩
  · rw [hmentions]
    simp [Database.softDelete]
  · rw [hgroups]
    simp only [hlast]
    rfl

end One

/-- A pointer that moves back holds an older message. -/
theorem shiftedMembership_eq {db : Database} {chatId : Int} {ids : List Int} {gm : Membership} :
    db.shiftedMembership chatId ids gm = gm ↔
      (gm.lastReadMessageId.any fun last => decide (last ∈ ids)) = false := by
  unfold Database.shiftedMembership
  split
  · next hany =>
    refine iff_of_false (fun heq => ?_) (by simp [hany])
    obtain ⟨last, hlast, -⟩ := (Option.any_eq_true _ _).mp hany
    have hpointer : db.previousInChat chatId last = some last := by
      have hfield := congrArg Membership.lastReadMessageId heq
      simpa [hlast] using hfield
    obtain ⟨m, -, hp⟩ := Table.mem_select.mp (Table.newest_eq_some.mp hpointer).1
    simp at hp
  · next hany => exact iff_of_true rfl (by simpa using hany)

/-- The deletion takes the last reply of a deleted root, and a reader stands on that root. -/
def Database.HidesAnchoredRoot (db : Database) (messageId : Int) (m : Message) : Prop :=
  ∃ rootId root uid gm, m.replyRootId = some rootId ∧ db.messages.row rootId = some root ∧
    (root.deletedAt.isSome = true ∨ rootId = messageId) ∧
    (root.hasThread = false ∨ ∀ id ∈ db.liveReplies rootId, id = messageId) ∧
    db.groupMembership.row (m.chatId, uid) = some gm ∧ gm.lastReadMessageId = some rootId

/-- A row that a deletion of one message leaves deleted and without a thread. -/
theorem hidden_row {db marked reconciled db' : Database} {chatId messageId : Int} {m : Message}
    {shifted : List Int} (h : DeletionSteps db marked reconciled db' chatId [targetOf messageId m]
      shifted) (last : Int) :
    ((reconciled.messages.row last).any fun row => !row.hasThread && row.deletedAt.isSome) = true ↔
      ∃ row, db.messages.row last = some row ∧ (row.deletedAt.isSome = true ∨ last = messageId) ∧
        (row.hasThread = false ∨
          m.replyRootId = some last ∧ ∀ id ∈ db.liveReplies last, id = messageId) := by
  have hempty : marked.liveReplies last = ∅ ↔ ∀ id ∈ db.liveReplies last, id = messageId := by
    rw [Finset.eq_empty_iff_forall_notMem]
    refine forall_congr' fun id => ?_
    rw [h.soft.mem_liveReplies]
    simp [targetOf]
  rw [← h.messages]
  cases hrow : db.messages.row last with
  | none =>
    refine iff_of_false (fun hany => ?_) (by simp)
    obtain ⟨row', hrow', -⟩ := (Option.any_eq_true _ _).mp hany
    obtain ⟨row, -, hsome, -⟩ := h.row_inv hrow'
    rw [hrow] at hsome
    cases hsome
  | some row =>
    obtain ⟨row', hrow', -, hdeleted, hthread⟩ := h.row_fwd hrow
    have hdeleted' : row'.deletedAt.isSome = true ↔
        row.deletedAt.isSome = true ∨ last = messageId := by
      rw [hdeleted]
      simp [targetOf, or_comm]
    have hthread' : row'.hasThread = false ↔ row.hasThread = false ∨
        m.replyRootId = some last ∧ ∀ id ∈ db.liveReplies last, id = messageId := by
      rw [hthread, ← hempty]
      simp only [targetOf, List.mem_singleton, exists_eq_left]
      split
      · next hlost => exact iff_of_true rfl (.inr hlost)
      · next hkept => simp [hkept]
    rw [hrow', Option.any_some, Bool.and_eq_true, hdeleted', Bool.not_eq_true', hthread']
    simp [and_comm]

/-- What a deletion of one message hides of the chat. -/
theorem mem_hidden_one {db marked reconciled db' : Database} {chatId messageId : Int} {m : Message}
    {shifted : List Int} {impact : DeletionImpact} {last : Int}
    (h : DeletionSteps db marked reconciled db' chatId [targetOf messageId m] shifted)
    (hrow : db.messages.row messageId = some m)
    (hdescribes : Describes impact [targetOf messageId m]) :
    last ∈ reconciled.hiddenChatIds (impact.chatMessageIds ++ ascending impact.threadRootIds) ↔
      last ∈ Database.shiftedOne messageId m ∨
        ∃ root, m.replyRootId = some last ∧ db.messages.row last = some root ∧
          (root.deletedAt.isSome = true ∨ last = messageId) ∧
          (root.hasThread = false ∨ ∀ id ∈ db.liveReplies last, id = messageId) := by
  have hlisted : last ∈ impact.chatMessageIds ++ ascending impact.threadRootIds ↔
      m.replyRootId = none ∧ last = messageId ∨ m.replyRootId = some last := by
    rw [List.mem_append, mem_ascending, hdescribes.chatMessageIds, hdescribes.threadRootIds]
    simp only [List.mem_singleton, exists_eq_left, targetOf]
    constructor
    · rintro (⟨hroot, rfl⟩ | hroot | ⟨hroot, -, rfl⟩)
      · exact .inl ⟨hroot, rfl⟩
      · exact .inr hroot
      · exact .inl ⟨hroot, rfl⟩
    · rintro (⟨hroot, rfl⟩ | hroot)
      · exact .inl ⟨hroot, rfl⟩
      · exact .inr (.inl hroot)
  rw [Database.hiddenChatIds, List.mem_filter, hlisted, hidden_row h]
  constructor
  · rintro ⟨⟨hroot, rfl⟩ | hroot, row, hlast, hdeleted, hthread⟩
    · obtain rfl := Option.some.inj (hrow.symm.trans hlast)
      left
      simpa [Database.shiftedOne, hroot] using hthread
    · exact .inr ⟨row, hroot, hlast, hdeleted, hthread.imp_right And.right⟩
  · rintro (hone | ⟨row, hroot, hlast, hdeleted, hthread⟩)
    · unfold Database.shiftedOne at hone
      split at hone
      · next htop =>
        obtain rfl := List.mem_singleton.mp hone
        exact ⟨.inl ⟨htop.1, rfl⟩, m, hrow, .inr rfl, .inl htop.2⟩
      · cases hone
    · exact ⟨.inr hroot, row, hlast, hdeleted, hthread.imp_right fun hall => ⟨hroot, hall⟩⟩

theorem undate_table {a b : Table Int Message} :
    a.updateWhere (fun _ _ => true) (fun _ m => undate m) =
      b.updateWhere (fun _ _ => true) (fun _ m => undate m) ↔ SameMessages a b :=
  ⟨fun h id => congrArg (fun t => t.row id) h, fun h => Table.ext h⟩

/-- Databases that differ in the times of deletions only, table by table. -/
theorem undated_eq_iff {a b : Database} : a.undated = b.undated ↔
    SameMessages a.messages b.messages ∧
      (∀ id, (a.attachments.row id).map undateAttachment =
        (b.attachments.row id).map undateAttachment) ∧
      a.messageMentions = b.messageMentions ∧ a.threadMeta = b.threadMeta ∧
      a.threadUserStates = b.threadUserStates ∧ a.groupMembership = b.groupMembership ∧
      a.groups = b.groups ∧ a.pinnedMessages = b.pinnedMessages := by
  have hattachments : a.attachments.updateWhere (fun _ _ => true) (fun _ x => undateAttachment x) =
      b.attachments.updateWhere (fun _ _ => true) (fun _ x => undateAttachment x) ↔
        ∀ id, (a.attachments.row id).map undateAttachment =
          (b.attachments.row id).map undateAttachment :=
    ⟨fun h id => congrArg (fun t => t.row id) h, fun h => Table.ext h⟩
  rw [Database.undated, Database.undated, Database.mk.injEq, undate_table, hattachments]

/-- The selection also marks the attachments; it adds nothing when none is left. -/
theorem attachments_agree_iff (db : Database) (now messageId : Int) :
    (∀ id, (db.attachments.row id).map undateAttachment =
        ((db.softDelete now [messageId]).attachments.row id).map undateAttachment) ↔
      ∀ id a, db.attachments.row id = some a → a.messageId = some messageId →
        a.deletedAt.isSome = true := by
  have hrow : ∀ id, (db.softDelete now [messageId]).attachments.row id =
      (db.attachments.row id).map fun a =>
        if a.messageId = some messageId ∧ a.deletedAt = none then { a with deletedAt := some now }
        else a := by
    intro id
    change (db.attachments.updateWhere _ _).row id = _
    rw [Table.updateWhere_row]
    cases db.attachments.row id with
    | none => rfl
    | some a => cases hm : a.messageId <;> simp [hm]
  constructor
  · intro h id a ha hmessage
    by_contra hlive
    have hid := h id
    rw [hrow, ha, Option.map_some, Option.map_some, Option.map_some,
      if_pos ⟨hmessage, by simpa using hlive⟩] at hid
    have hdeleted := congrArg Attachment.deletedAt (Option.some.inj hid)
    simp only [undateAttachment, Option.map_some, Option.map_eq_some_iff] at hdeleted
    obtain ⟨time, htime, -⟩ := hdeleted
    simp [htime] at hlive
  · intro h id
    rw [hrow]
    cases ha : db.attachments.row id with
    | none => rfl
    | some a =>
      have hkeep : ¬(a.messageId = some messageId ∧ a.deletedAt = none) := fun hand => by
        have hsome := h id a ha hand.1
        simp [hand.2] at hsome
      simp [hkeep]

theorem shiftedMembership_congr {a b : Database} (h : SameMessages a.messages b.messages)
    {ids ids' : List Int} (hids : ∀ id, id ∈ ids ↔ id ∈ ids') (chatId : Int) (gm : Membership) :
    a.shiftedMembership chatId ids gm = b.shiftedMembership chatId ids' gm := by
  simp only [Database.shiftedMembership, hids, h.previousInChat chatId]

section Agreement

variable {db ra rb a b : Database} {ma mb : Database} {chatId messageId : Int} {m : Message}
  {impact : DeletionImpact}

/-- The readers of the chat agree unless the selection also moves those of an anchored root. -/
theorem membership_agrees_iff
    (ha : DeletionSteps db ma ra a chatId [targetOf messageId m] (Database.shiftedOne messageId m))
    (hb : DeletionSteps db mb rb b chatId [targetOf messageId m]
      (rb.hiddenChatIds (impact.chatMessageIds ++ ascending impact.threadRootIds)))
    (hrow : db.messages.row messageId = some m) (hchat : m.chatId = chatId)
    (hdescribes : Describes impact [targetOf messageId m]) :
    a.groupMembership = b.groupMembership ↔ ¬db.HidesAnchoredRoot messageId m := by
  have hsame := (ha.reconciled_unique hb).1
  have hhidden := fun last => @mem_hidden_one _ _ _ _ _ _ _ _ impact last hb hrow hdescribes
  by_cases hroot : m.replyRootId = none
  · refine iff_of_true (Table.ext fun key => ?_) ?_
    · rw [ha.groupMembership, hb.groupMembership]
      refine congrArg (fun f => (db.groupMembership.row key).map f) (funext fun gm => ?_)
      rw [shiftedMembership_congr hsame fun id => ?_]
      rw [hhidden]
      simp [hroot]
    · rintro ⟨rootId, root, uid, gm, hsome, -⟩
      rw [hroot] at hsome
      cases hsome
  · have hone : Database.shiftedOne messageId m = [] := by simp [Database.shiftedOne, hroot]
    have hkept : ∀ key, a.groupMembership.row key = db.groupMembership.row key := by
      intro key
      rw [ha.groupMembership, hone]
      cases db.groupMembership.row key <;> simp [shiftedMembership_nil]
    constructor
    · rintro heq ⟨rootId, root, uid, gm, hreply, hrootRow, hdeleted, hthread, hgm, hlast⟩
      have hmoved := hb.groupMembership (m.chatId, uid)
      rw [← heq, hkept, hgm, Option.map_some, if_pos hchat] at hmoved
      have hany := shiftedMembership_eq.mp (Option.some.inj hmoved).symm
      rw [hlast, Option.any_some, decide_eq_false_iff_not, hhidden] at hany
      exact hany (.inr ⟨root, hreply, hrootRow, hdeleted, hthread⟩)
    · intro hnone
      refine Table.ext fun key => ?_
      rw [hkept, hb.groupMembership]
      cases hgm : db.groupMembership.row key with
      | none => rfl
      | some gm =>
        rw [Option.map_some]
        split
        · next hkey =>
          have hany : (gm.lastReadMessageId.any fun last => decide (last ∈ rb.hiddenChatIds
              (impact.chatMessageIds ++ ascending impact.threadRootIds))) = false := by
            cases hlast : gm.lastReadMessageId with
            | none => rfl
            | some last =>
              rw [Option.any_some, decide_eq_false_iff_not, hhidden, hone]
              rintro (hnil | ⟨root, hreply, hrootRow, hanchored⟩)
              · cases hnil
              · refine hnone ⟨last, root, key.2, gm, hreply, hrootRow, hanchored.1, hanchored.2, ?_,
                  hlast⟩
                rw [hchat, ← hkey]
                exact hgm
          rw [shiftedMembership_eq.mpr hany]
        · rfl

end Agreement

/-- The transaction of `delete_message` does what a selection of the one message does, unless the
message has attachments or was the last reply of a deleted root some reader stands on. -/
theorem delete_message_agrees_iff {db : Database} (now now' : Int) {uid messageId : Int}
    {isAdmin : Bool} {m : Message} {g : Group} (hrow : db.messages.row messageId = some m)
    (hpublished : m.isPublished = true) (hdeleted : m.deletedAt = none)
    (htype : m.messageType ≠ .system) (hallowed : isAdmin = true ∨ m.senderUid = uid)
    (hgroup : db.groups.row m.chatId = some g) :
    ∃ a b, db.deleteMessageTransaction now m.chatId messageId = .ok a ∧
      db.deleteSelection now' m.chatId uid isAdmin [messageId] = .ok b ∧
      (a.undated = b.undated ↔
        (∀ id x, db.attachments.row id = some x → x.messageId = some messageId →
          x.deletedAt.isSome = true) ∧ ¬db.HidesAnchoredRoot messageId m) := by
  obtain ⟨a, hok, hattachments, halone⟩ :=
    @deleteMessageTransaction_ok _ now _ _ _ _ hrow hgroup
  obtain ⟨b, impact, hok', hattachments', hdescribes, hreconcile, halone'⟩ :=
    @deleteSelection_ok _ now' _ _ _ _ _ _ hrow rfl hpublished htype hallowed hgroup
  have ha := deleteMessageTransaction_steps hrow rfl hdeleted hok
  have hb := reconcileDeletions_steps ha.rows (softDelete_softDeleted db now' [messageId]) hdescribes
    hreconcile
  refine ⟨a, b, hok, hok', ?_⟩
  obtain ⟨hsame, hmeta, hstates⟩ := ha.reconciled_unique hb
  have hmessages : SameMessages a.messages b.messages := by
    rw [ha.messages, hb.messages]
    exact hsame
  have hmentions : a.messageMentions = b.messageMentions :=
    halone.messageMentions.trans halone'.messageMentions.symm
  have hpinned : a.pinnedMessages = b.pinnedMessages :=
    halone.pinnedMessages.trans halone'.pinnedMessages.symm
  have hgroups : a.groups = b.groups := by
    rw [halone.groups, halone'.groups]
    split
    · exact hsame.recalculateGroupLastMessage
        (ha.reconciled_groups.trans hb.reconciled_groups.symm) m.chatId
    · rfl
  have hmembership := membership_agrees_iff ha hb hrow rfl hdescribes
  rw [undated_eq_iff, hattachments, hattachments', attachments_agree_iff]
  constructor
  · rintro ⟨-, hmarked, -, -, -, hreaders, -, -⟩
    exact ⟨hmarked, hmembership.mp hreaders⟩
  · rintro ⟨hmarked, hanchored⟩
    exact ⟨hmessages, hmarked, hmentions, hmeta, hstates, hmembership.mpr hanchored, hgroups,
      hpinned⟩

/-- A thread of one reply, whose root was deleted first. -/
def orphanedReply : List Event :=
  [.postMessage 100 10 7 1 false ⟨some "a", .text, none, []⟩,
    .postThreadMessage 200 11 7 1 10 ⟨some "b", .text, none, []⟩, .deleteMessage 300 7 1 10]

/-- A top-level message without attachments is deleted the same either way. -/
theorem delete_message_agrees_top_level :
    ∃ t m a b, run System.step (.start (.newGroup 1 [(7, .admin)]))
        [.postMessage 100 10 7 1 false ⟨some "a", .text, none, []⟩] = some t ∧
      t.db.messages.row 10 = some m ∧ t.db.deleteMessageTransaction 200 1 10 = .ok a ∧
      t.db.deleteSelection 300 1 7 true [10] = .ok b ∧ a.undated = b.undated := by
  obtain ⟨a, b, ha, hb, hiff⟩ := @delete_message_agrees_iff
    ((run System.step (.start (.newGroup 1 [(7, .admin)]))
      [.postMessage 100 10 7 1 false ⟨some "a", .text, none, []⟩]).get rfl).db 200 300 7 10 true _ _
    rfl rfl rfl (by decide) (.inl rfl) rfl
  refine ⟨_, _, a, b, rfl, rfl, ha, hb, hiff.mpr ⟨?_, ?_⟩⟩
  · rintro id x hx -
    cases hx
  · rintro ⟨_, _, _, _, ⟨⟩, _⟩

/-- The single delete leaves the reader on a message that the chat no longer shows. -/
theorem delete_message_leaves_anchored_root :
    ∃ t m a b, run System.step (.start (.newGroup 1 [(7, .admin)])) orphanedReply = some t ∧
      t.db.messages.row 11 = some m ∧ m.isPublished = true ∧ m.deletedAt = none ∧
      m.messageType ≠ .system ∧ m.senderUid = 7 ∧
      t.db.deleteMessageTransaction 400 1 11 = .ok a ∧
      t.db.deleteSelection 400 1 7 true [11] = .ok b ∧ a.undated ≠ b.undated := by
  refine ⟨_, _, _, _, rfl, rfl, rfl, rfl, by decide, rfl, rfl, rfl, fun h => ?_⟩
  have hrow := congrArg (fun db => ((db.groupMembership.row (1, 7)).bind
    Membership.lastReadMessageId)) h
  revert hrow
  decide

end Chahua.Messages

import Chahua.Messages.Requests
import Chahua.Messages.Steps

namespace Chahua.Messages

open Framework

/-- What a repeated send is compared with. -/
structure MessagePayload where
  chatId : Int
  senderUid : Int
  message : Option String
  messageType : MessageType
  systemKind : Option SystemMessageKind
  stickerId : Option Int
  replyToId : Option Int
  replyRootId : Option Int
  forwardedFromMessageId : Option Int
  forwardedBundleId : Option Int
  attachmentIds : List Int
  deriving DecidableEq, Repr

def SendRequest.payload (p : SendRequest) : MessagePayload where
  chatId := p.chatId
  senderUid := p.senderUid
  message := p.storedMessage
  messageType := p.messageType
  systemKind := p.systemKind
  stickerId := p.stickerId
  replyToId := p.replyToId
  replyRootId := p.replyRootId
  forwardedFromMessageId := p.forwardedFromMessageId
  forwardedBundleId := p.forwardedBundleId
  attachmentIds := p.attachmentIds

def rowPayload (m : Message) (columns : SendColumns) (attachmentIds : List Int) :
    MessagePayload where
  chatId := m.chatId
  senderUid := m.senderUid
  message := m.message
  messageType := m.messageType
  systemKind := m.systemKind
  stickerId := columns.stickerId
  replyToId := m.replyToId
  replyRootId := m.replyRootId
  forwardedFromMessageId := columns.forwardedFromMessageId
  forwardedBundleId := columns.forwardedBundleId
  attachmentIds := attachmentIds

/-- What no operation changes about a row. -/
def rowIdentity (m : Message) : MessagePayload :=
  { rowPayload m ⟨"", none, none, none⟩ [] with message := none }

theorem rowIdentity_of_payload {m m' : Message} (h : rowPayload m' = rowPayload m) :
    rowIdentity m' = rowIdentity m := by
  simp only [rowIdentity, h]

theorem validateIdempotentMessagePayload_eq (m : Message) (columns : SendColumns)
    (p : SendRequest) (attachmentIds : List Int) :
    validateIdempotentMessagePayload m columns p attachmentIds =
      if rowPayload m columns attachmentIds = p.payload then .ok ()
      else .error (.conflict "clientGeneratedId already exists with different payload") := by
  simp only [validateIdempotentMessagePayload, rowPayload, SendRequest.payload,
    MessagePayload.mk.injEq]

/-- The rows keep everything a repeated send is compared with. -/
def SameContent (db db' : Database) : Prop :=
  ∀ id m, db.messages.row id = some m → ∃ m', db'.messages.row id = some m' ∧
    rowPayload m' = rowPayload m

theorem SameContent.trans {a b c : Database} (h : SameContent a b) (h' : SameContent b c) :
    SameContent a c := by
  intro id m hm
  obtain ⟨m', hm', hp⟩ := h id m hm
  obtain ⟨m'', hm'', hp'⟩ := h' id m' hm'
  exact ⟨m'', hm'', hp'.trans hp⟩

theorem SameContent.identity {db db' : Database} (h : SameContent db db') (id : Int)
    (m : Message) (hm : db.messages.row id = some m) :
    ∃ m', db'.messages.row id = some m' ∧ rowIdentity m' = rowIdentity m := by
  obtain ⟨m', hm', hp⟩ := h id m hm
  exact ⟨m', hm', rowIdentity_of_payload hp⟩

theorem sameContent_of_messages {db db' : Database} (h : db'.messages = db.messages) :
    SameContent db db' :=
  fun id m hm => ⟨m, by rw [h, hm], rfl⟩

theorem sameContent_of_map {db db' : Database} {f : Int → Message → Message}
    (h : ∀ id, db'.messages.row id = (db.messages.row id).map (f id))
    (hf : ∀ id m, rowPayload (f id m) = rowPayload m) : SameContent db db' :=
  fun id m hm => ⟨f id m, by rw [h, hm, Option.map_some], hf id m⟩

theorem sameContent_insert {db db' : Database} {id : Int} {m : Message}
    (hfresh : db.messages.row id = none) (h : db'.messages = db.messages.upsert id m) :
    SameContent db db' := by
  intro k row hk
  have hne : k ≠ id := fun heq => by
    rw [heq, hfresh] at hk
    cases hk
  exact ⟨row, by rw [h, Table.upsert_row_ne _ m hne, hk], rfl⟩

theorem setHasThread_sameContent (db : Database) (messageId : Int) (hasThread : Bool) :
    SameContent db (db.setHasThread messageId hasThread) := by
  refine sameContent_of_map (db.setHasThread_row messageId hasThread) fun id m => ?_
  split <;> rfl

theorem DeletionSteps.sameContent {db marked reconciled db' : Database} {chatId : Int}
    {targets : List DeletionTarget} {shifted : List Int}
    (h : DeletionSteps db marked reconciled db' chatId targets shifted) : SameContent db db' := by
  intro id m hm
  obtain ⟨m', hm', heq, -⟩ := h.row_fwd hm
  exact ⟨m', hm', by rw [heq]; rfl⟩

theorem publishAudio_sameContent {db db' : Database} {messageId : Int}
    {message updated : Message} {outcome : AudioPublishOutcome}
    (h : db.publishAudio messageId message outcome = .ok (db', updated)) :
    SameContent db db' := by
  have hrow : SameContent db ((db.swapAttachment outcome).setPublished messageId outcome) := by
    refine sameContent_of_map (setPublished_row db messageId outcome) fun id m => ?_
    split <;> rfl
  obtain ⟨m, -, -, ⟨-, rfl⟩ | ⟨-, -, rfl⟩ | ⟨-, rootId, -, rfl⟩⟩ := publishAudio_spec h
  · exact hrow
  · exact hrow.trans (sameContent_of_messages rfl)
  · exact hrow.trans ((setHasThread_sameContent _ rootId true).trans
      (sameContent_of_messages rfl))

theorem recordThreadSend_sameContent (db : Database) (now : Int) (response : MessageResponse)
    (memberUids : List Int) (threadId : Int) (root : Message)
    (publishImmediately notifyMentions : Bool) :
    SameContent db (db.recordThreadSend now response memberUids threadId root publishImmediately
      notifyMentions).1 := by
  have hreaders := sameContent_of_messages (readersRecorded_same db now response memberUids
    threadId root notifyMentions).messages
  rw [recordThreadSend_eq]
  split
  · exact hreaders.trans ((sameContent_of_messages rfl).trans
      (setHasThread_sameContent _ threadId true))
  · exact hreaders

namespace Database

/-- The position of an attachment among the live ones of a message. -/
def livePosition (db : Database) (messageId a : Int) : Option Int :=
  ((db.attachments.row a).filter fun row =>
    decide (row.messageId = some messageId) && row.deletedAt.isNone).map (·.order)

theorem livePosition_eq_some {db : Database} {messageId a position : Int} :
    db.livePosition messageId a = some position ↔ ∃ row, db.attachments.row a = some row ∧
      row.messageId = some messageId ∧ row.deletedAt = none ∧ row.order = position := by
  simp only [livePosition, Option.map_eq_some_iff, Option.filter_eq_some_iff, Bool.and_eq_true,
    decide_eq_true_eq, Option.isNone_iff_eq_none]
  constructor
  · rintro ⟨row, ⟨hrow, hid, hlive⟩, hposition⟩
    exact ⟨row, hrow, hid, hlive, hposition⟩
  · rintro ⟨row, hrow, hid, hlive, hposition⟩
    exact ⟨row, ⟨hrow, hid, hlive⟩, hposition⟩

/-- The live attachments with their positions, as they are ordered. -/
def liveKeys (db : Database) (messageId : Int) : Finset (Int ×ₗ Int) :=
  db.attachments.image
    (fun _ a => decide (a.messageId = some messageId) && a.deletedAt.isNone)
    fun id a => toLex (a.order, id)

theorem mem_liveKeys {db : Database} {messageId : Int} {key : Int ×ₗ Int} :
    key ∈ db.liveKeys messageId ↔
      db.livePosition messageId (ofLex key).2 = some (ofLex key).1 := by
  simp only [liveKeys, Table.mem_image, livePosition_eq_some, Bool.and_eq_true, decide_eq_true_eq,
    Option.isNone_iff_eq_none]
  constructor
  · rintro ⟨a, row, hrow, ⟨hid, hlive⟩, rfl⟩
    exact ⟨row, hrow, hid, hlive, rfl⟩
  · rintro ⟨row, hrow, hid, hlive, hposition⟩
    exact ⟨(ofLex key).2, row, hrow, ⟨hid, hlive⟩, by rw [hposition]; rfl⟩

theorem loadMessageAttachmentIds_eq (db : Database) (messageId : Int) :
    db.loadMessageAttachmentIds messageId =
      (ascending (db.liveKeys messageId)).map fun key => (ofLex key).2 := rfl

theorem loadMessageAttachmentIds_congr {db db' : Database} {messageId : Int}
    (h : ∀ a, db'.livePosition messageId a = db.livePosition messageId a) :
    db'.loadMessageAttachmentIds messageId = db.loadMessageAttachmentIds messageId := by
  have hkeys : db'.liveKeys messageId = db.liveKeys messageId := by
    ext key
    rw [mem_liveKeys, mem_liveKeys, h]
  rw [loadMessageAttachmentIds_eq, loadMessageAttachmentIds_eq, hkeys]

theorem mem_loadMessageAttachmentIds {db : Database} {messageId a : Int} :
    a ∈ db.loadMessageAttachmentIds messageId ↔ (db.livePosition messageId a).isSome := by
  simp only [loadMessageAttachmentIds_eq, List.mem_map, mem_ascending, mem_liveKeys,
    Option.isSome_iff_exists]
  constructor
  · rintro ⟨key, hkey, rfl⟩
    exact ⟨_, hkey⟩
  · rintro ⟨position, hposition⟩
    exact ⟨toLex (position, a), hposition, rfl⟩

/-- Attachments that sit at their positions in a list are loaded in its order. -/
theorem loadMessageAttachmentIds_of_idxOf {db : Database} {messageId : Int}
    {attachmentIds : List Int} (hnodup : attachmentIds.Nodup)
    (h : ∀ a, db.livePosition messageId a =
      if a ∈ attachmentIds then some (attachmentIds.idxOf a : Int) else none) :
    db.loadMessageAttachmentIds messageId = attachmentIds := by
  have hkeys : ascending (db.liveKeys messageId) =
      attachmentIds.map fun a => toLex ((attachmentIds.idxOf a : Int), a) := by
    refine ascending_eq_of_pairwise ?_ fun key => ?_
    · rw [List.pairwise_map]
      refine List.pairwise_iff_getElem.mpr fun i j hi hj hij => ?_
      rw [Prod.Lex.toLex_lt_toLex]
      left
      rw [hnodup.idxOf_getElem i hi, hnodup.idxOf_getElem j hj]
      exact Int.ofNat_lt.mpr hij
    · rw [mem_liveKeys, h, List.mem_map]
      constructor
      · rintro ⟨a, ha, rfl⟩
        exact if_pos ha
      · intro hkey
        split at hkey
        · next ha => exact ⟨(ofLex key).2, ha, by rw [Option.some.inj hkey]; rfl⟩
        · cases hkey
  rw [loadMessageAttachmentIds_eq, hkeys, List.map_map]
  exact List.map_id _

end Database

/-- No attachment changes its message; only those of some messages may stop being live. -/
structure AttachmentsStay (db db' : Database) (touched : List Int) : Prop where
  messageId : ∀ a row', db'.attachments.row a = some row' →
    ∃ row, db.attachments.row a = some row ∧ row'.messageId = row.messageId
  live : ∀ id a, db'.livePosition id a = db.livePosition id a ∨
    id ∈ touched ∧ db'.livePosition id a = none

theorem attachmentsStay_of_eq {db db' : Database} {touched : List Int}
    (h : db'.attachments = db.attachments) : AttachmentsStay db db' touched where
  messageId := fun a row' hrow => ⟨row', by rw [← h, hrow], rfl⟩
  live := fun id a => .inl (by simp only [Database.livePosition, h])

theorem AttachmentsStay.trans_eq {a b c : Database} {touched : List Int}
    (h : AttachmentsStay a b touched) (h' : c.attachments = b.attachments) :
    AttachmentsStay a c touched where
  messageId := fun id row' hrow => h.messageId id row' (by rw [← h', hrow])
  live := fun id at' => by
    have heq : c.livePosition id at' = b.livePosition id at' := by
      simp only [Database.livePosition, h']
    rw [heq]
    exact h.live id at'

/-- A message keeps its attachments unless it is touched while it has some. -/
theorem AttachmentsStay.load {db db' : Database} {touched : List Int}
    (h : AttachmentsStay db db' touched) {id : Int}
    (hid : id ∈ touched → db.loadMessageAttachmentIds id = []) :
    db'.loadMessageAttachmentIds id = db.loadMessageAttachmentIds id := by
  refine Database.loadMessageAttachmentIds_congr fun a => ?_
  rcases h.live id a with heq | ⟨htouched, hnone⟩
  · exact heq
  · have hempty : a ∉ db.loadMessageAttachmentIds id := by simp [hid htouched]
    rw [Database.mem_loadMessageAttachmentIds] at hempty
    rw [hnone, Option.not_isSome_iff_eq_none.mp hempty]

theorem softDelete_attachments (db : Database) (now : Int) (ids : List Int) :
    AttachmentsStay db (db.softDelete now ids) ids where
  messageId := by
    intro a row' hrow
    change (db.attachments.updateWhere _ _).row a = some row' at hrow
    rw [Table.updateWhere_row] at hrow
    obtain ⟨row, hrow', rfl⟩ := Option.map_eq_some_iff.mp hrow
    exact ⟨row, hrow', by split <;> rfl⟩
  live := by
    intro id a
    simp only [Database.livePosition]
    change ((db.attachments.updateWhere _ _).row a |>.filter _).map _ = _ ∨ id ∈ ids ∧
      ((db.attachments.updateWhere _ _).row a |>.filter _).map _ = _
    rw [Table.updateWhere_row]
    cases db.attachments.row a with
    | none => exact .inl rfl
    | some row =>
      by_cases hid : row.messageId = some id
      · by_cases hmem : id ∈ ids
        · right
          cases hdeleted : row.deletedAt <;> simp [hid, hmem, hdeleted]
        · left
          simp [hid, hmem]
      · left
        simp only [Option.map_some]
        split
        · simp [Option.filter, hid]
        · rfl

theorem AttachmentsStay.mono {db db' : Database} {touched touched' : List Int}
    (h : AttachmentsStay db db' touched) (hsub : ∀ id ∈ touched, id ∈ touched') :
    AttachmentsStay db db' touched' where
  messageId := h.messageId
  live := fun id a => (h.live id a).imp_right fun hid => ⟨hsub id hid.1, hid.2⟩

theorem deleteMessage_attachments {db db' : Database} {now uid chatId messageId : Int}
    (h : db.deleteMessage now uid chatId messageId = .ok db') :
    db'.attachments = db.attachments := by
  obtain ⟨m, hrow, -, -, -, htx⟩ := deleteMessage_steps h
  have hthread : ∀ d : Database, ∀ root,
      (d.recalculateThreadMeta chatId root).attachments = d.attachments :=
    fun d root => (d.recalculateThreadMeta_same chatId root).1.attachments
  have hshift : ∀ d : Database, ∀ root,
      (d.shiftThreadReadPointersOnDelete root [messageId]).attachments = d.attachments :=
    fun d root => (d.shiftThread_same root [messageId]).1.attachments
  have hchat : ∀ d : Database,
      (d.shiftChatReadPointersOnDelete chatId [messageId]).attachments = d.attachments :=
    fun d => (shiftChat_same d chatId [messageId]).attachments
  have hlast : ∀ d : Database,
      (d.recalculateGroupLastMessage chatId).attachments = d.attachments := fun d => rfl
  simp only [Database.deleteMessageTransaction, markDeleted_row now hrow] at htx
  cases hroot : m.replyRootId with
  | some root =>
    simp only [hroot] at htx
    split at htx
    · cases htx
    · rw [← Except.ok.inj htx, hshift]
      split
      · rw [hlast, hthread]
        rfl
      · rw [hthread]
        rfl
  | none =>
    simp only [hroot] at htx
    split at htx
    · cases htx
    · rw [← Except.ok.inj htx]
      split
      · split <;> rfl
      · rw [hchat]
        split <;> rfl

theorem reconcileDeletions_attachments {db db' : Database} {chatId : Int}
    {impact : DeletionImpact} (h : db.reconcileDeletions chatId impact = .ok db') :
    db'.attachments = db.attachments := by
  have hlast := reconcileLastMessage_same h
  have hshift := shiftChat_same (db.reconcileReplies chatId impact.replyIds) chatId
    ((db.reconcileReplies chatId impact.replyIds).hiddenChatIds
      (impact.chatMessageIds ++ ascending impact.threadRootIds))
  exact (hlast.attachments.trans hshift.attachments).trans
    (reconcileReplies_reconciled db chatId impact.replyIds).same.attachments

theorem deleteSelection_attachments {db db' : Database} {now chatId uid : Int} {isAdmin : Bool}
    {ids : List Int} (h : db.deleteSelection now chatId uid isAdmin ids = .ok db') :
    AttachmentsStay db db' ids := by
  simp only [Database.deleteSelection, Database.softDeleteBatch] at h
  split at h
  · cases h
  · split at h
    · cases h
    · next marked impact hbatch =>
      split at hbatch
      · cases hbatch
      · obtain ⟨rfl, rfl⟩ := Prod.mk.inj (Except.ok.inj hbatch)
        have hids := (describes_foldl (db.selectTargets chatId ids)).messageIds
        refine ((softDelete_attachments db now _).trans_eq
          (reconcileDeletions_attachments h)).mono fun id hid => ?_
        rw [hids] at hid
        obtain ⟨t, ht, rfl⟩ := List.mem_map.mp hid
        obtain ⟨k, hk, hkt⟩ := List.mem_filterMap.mp ht
        obtain ⟨m, -, hp⟩ := Table.mem_select.mp (mem_ascending.mp hk)
        simp only [Bool.and_eq_true, decide_eq_true_eq] at hp
        obtain ⟨row, -, rfl⟩ := Option.map_eq_some_iff.mp hkt
        exact hp.2

theorem swapAttachment_attachments (db : Database) (messageId : Int)
    (outcome : AudioPublishOutcome) :
    AttachmentsStay db ((db.swapAttachment outcome).setPublished messageId outcome) [] := by
  unfold Database.swapAttachment
  split
  · exact attachmentsStay_of_eq rfl
  · next id new _ =>
    have hrow : ∀ a, ((db.attachments.updateWhere (fun a _ => decide (a = id)) fun _ row =>
        { row with
          fileName := new.fileName
          kind := new.kind
          externalReference := new.externalReference
          size := new.size
          width := new.width
          height := new.height }).row a) = (db.attachments.row a).map fun row =>
            if a = id then
              { row with
                fileName := new.fileName
                kind := new.kind
                externalReference := new.externalReference
                size := new.size
                width := new.width
                height := new.height }
            else row := by
      intro a
      rw [Table.updateWhere_row]
      simp only [decide_eq_true_eq]
    constructor
    · intro a row' hrow'
      obtain ⟨row, hold, rfl⟩ := Option.map_eq_some_iff.mp ((hrow a).symm.trans hrow')
      exact ⟨row, hold, by split <;> rfl⟩
    · intro messageId' a
      left
      simp only [Database.livePosition]
      change ((Table.updateWhere _ _ _).row a |>.filter _).map _ = _
      rw [hrow]
      cases db.attachments.row a with
      | none => rfl
      | some row =>
        simp only [Option.map_some]
        split <;> simp only [Option.filter, Option.map_if]

theorem publishAudio_attachments {db db' : Database} {messageId : Int}
    {message updated : Message} {outcome : AudioPublishOutcome}
    (h : db.publishAudio messageId message outcome = .ok (db', updated)) :
    AttachmentsStay db db' [] := by
  have hswap := swapAttachment_attachments db messageId outcome
  obtain ⟨m, -, -, ⟨-, rfl⟩ | ⟨-, -, rfl⟩ | ⟨-, rootId, -, rfl⟩⟩ := publishAudio_spec h
  · exact hswap
  · exact hswap.trans_eq rfl
  · exact hswap.trans_eq rfl

end Chahua.Messages

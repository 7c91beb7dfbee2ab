import Chahua.Messages.Payloads
import Chahua.Messages.MessageStore

namespace Chahua.Messages

open Framework

/-- Neither the messages nor the attachments change. -/
structure SameRows (db db' : Database) : Prop where
  messages : db'.messages = db.messages
  attachments : db'.attachments = db.attachments

theorem SameRows.trans {a b c : Database} (h : SameRows a b) (h' : SameRows b c) :
    SameRows a c where
  messages := h'.messages.trans h.messages
  attachments := h'.attachments.trans h.attachments

theorem sameRows_foldl {α : Type*} {f : Database → α → Database}
    (h : ∀ db x, SameRows db (f db x)) (xs : List α) (db : Database) :
    SameRows db (xs.foldl f db) := by
  induction xs generalizing db with
  | nil => exact ⟨rfl, rfl⟩
  | cons x xs ih => exact (h db x).trans (ih _)

theorem addMentions_sameRows (db : Database) (editedAt messageId : Int) (message : Message)
    (added : List Int) : SameRows db (db.addMentions editedAt messageId message added) := by
  have hmentions := @sameRows_foldl _ (fun db uid => db.upsertMention messageId uid
    { chatId := message.chatId
      threadRootId := message.replyRootId
      createdAt := editedAt
      kind := .mention }) (fun _ _ => ⟨rfl, rfl⟩) added db
  unfold Database.addMentions
  split
  · exact hmentions
  · next root _ =>
    refine hmentions.trans (sameRows_foldl (fun d uid => ?_) added _)
    have hsame := ensureThreadSubscription_same d editedAt message.chatId root uid
    exact ⟨hsame.messages, hsame.attachments⟩

theorem syncEditedMessageMentions_sameRows (db : Database) (editedAt messageId : Int)
    (message : Message) (newText : String) (editorUid : Int) :
    SameRows db (db.syncEditedMessageMentions editedAt messageId message newText editorUid) := by
  have hdrop : ∀ removed, SameRows db (db.dropMentions messageId message removed) :=
    fun removed => ⟨rfl, rfl⟩
  exact (hdrop _).trans (addMentions_sameRows _ _ _ _ _)

theorem checkPatch_spec {db : Database} {columns : Table Int SendColumns}
    {uid chatId messageId : Int} {body : UpdateMessageBody} {message : Message}
    (h : db.checkPatch columns uid chatId messageId body = .ok message) :
    db.messages.row messageId = some message ∧
      db.editable uid messageId body.attachmentIds = true := by
  unfold Database.checkPatch at h
  split at h
  · cases h
  · split at h
    · cases h
    · next m hm =>
      simp only at h
      split at h
      · cases h
      split at h
      · cases h
      split at h
      · cases h
      split at h
      · cases h
      split at h
      · cases h
      split at h
      · next heditable =>
        split at h
        · cases h
        · obtain rfl := Except.ok.inj h
          exact ⟨(Option.filter_eq_some_iff.mp hm).1, heditable⟩
      · cases h

theorem editable_spec {db : Database} {uid messageId : Int} {attachmentIds : List Int}
    (h : db.editable uid messageId attachmentIds = true) :
    attachmentIds.Nodup ∧ ∀ a ∈ attachmentIds, ∃ row, db.attachments.row a = some row ∧
      row.deletedAt = none ∧ (row.messageId = some messageId ∨ row.messageId = none) := by
  simp only [Database.editable, Bool.and_eq_true, decide_eq_true_eq, List.all_eq_true,
    Option.any_eq_true, Option.isNone_iff_eq_none, Bool.or_eq_true] at h
  refine ⟨h.1, fun a ha => ?_⟩
  obtain ⟨row, hrow, hlive, hid⟩ := h.2 a ha
  exact ⟨row, hrow, hlive, hid.imp_right And.left⟩

theorem attachable_spec {db : Database} {senderUid : Int} {attachmentIds : List Int}
    (h : db.attachable senderUid attachmentIds = true) :
    attachmentIds.Nodup ∧ ∀ a ∈ attachmentIds, ∃ row, db.attachments.row a = some row ∧
      row.deletedAt = none ∧ row.messageId = none := by
  simp only [Database.attachable, Bool.and_eq_true, decide_eq_true_eq, List.all_eq_true,
    Option.any_eq_true, Option.isNone_iff_eq_none] at h
  refine ⟨h.1, fun a ha => ?_⟩
  obtain ⟨row, hrow, ⟨hlive, hid⟩, -⟩ := h.2 a ha
  exact ⟨row, hrow, hlive, hid⟩

theorem checkSend_attachable {db : Database} {id : Int} {p : PreparedMessageSend}
    (h : db.checkSend id p = .ok ()) : db.attachable p.senderUid p.attachmentIds = true := by
  unfold Database.checkSend at h
  split at h
  · cases h
  · split at h
    · cases h
    · split at h
      · cases h
      · split at h
        · assumption
        · cases h

/-- Attachments that nobody holds, or only the message itself, become those of the message. -/
structure Claims (db db' : Database) (messageId : Int) (attachmentIds : List Int) : Prop where
  nodup : attachmentIds.Nodup
  free : ∀ a ∈ attachmentIds, ∃ row, db.attachments.row a = some row ∧
    row.deletedAt = none ∧ (row.messageId = some messageId ∨ row.messageId = none)
  claimed : ∀ a row, db.attachments.row a = some row → a ∈ attachmentIds →
    ∃ row', db'.attachments.row a = some row' ∧ row'.messageId = some messageId ∧
      row'.deletedAt = row.deletedAt ∧ row'.order = (attachmentIds.idxOf a : Int)
  released : ∀ a row, db.attachments.row a = some row → a ∉ attachmentIds →
    ∃ row', db'.attachments.row a = some row' ∧ row'.deletedAt = row.deletedAt ∧
      row'.order = row.order ∧
      row'.messageId = if row.messageId = some messageId then none else row.messageId
  absent : ∀ a, db.attachments.row a = none → db'.attachments.row a = none

theorem Claims.position_self {db db' : Database} {messageId : Int} {attachmentIds : List Int}
    (h : Claims db db' messageId attachmentIds) (a : Int) :
    db'.livePosition messageId a =
      if a ∈ attachmentIds then some (attachmentIds.idxOf a : Int) else none := by
  split
  · next ha =>
    obtain ⟨row, hrow, hlive, -⟩ := h.free a ha
    obtain ⟨row', hrow', hid, hdeleted, horder⟩ := h.claimed a row hrow ha
    exact Database.livePosition_eq_some.mpr ⟨row', hrow', hid, hdeleted.trans hlive, horder⟩
  · next ha =>
    rw [Option.eq_none_iff_forall_ne_some]
    intro position hposition
    obtain ⟨row', hrow', hid, -, -⟩ := Database.livePosition_eq_some.mp hposition
    cases hrow : db.attachments.row a with
    | none =>
      rw [h.absent a hrow] at hrow'
      cases hrow'
    | some row =>
      obtain ⟨row'', hrow'', -, -, hid''⟩ := h.released a row hrow ha
      obtain rfl := Option.some.inj (hrow''.symm.trans hrow')
      rw [hid''] at hid
      split at hid
      · cases hid
      · contradiction

theorem Claims.position_ne {db db' : Database} {messageId : Int} {attachmentIds : List Int}
    (h : Claims db db' messageId attachmentIds) {id : Int} (hne : id ≠ messageId) (a : Int) :
    db'.livePosition id a = db.livePosition id a := by
  cases hrow : db.attachments.row a with
  | none => simp [Database.livePosition, hrow, h.absent a hrow]
  | some row =>
    by_cases ha : a ∈ attachmentIds
    · obtain ⟨row', hrow', hid', -, -⟩ := h.claimed a row hrow ha
      obtain ⟨row'', hrow'', -, hid⟩ := h.free a ha
      obtain rfl := Option.some.inj (hrow''.symm.trans hrow)
      have hother : row''.messageId ≠ some id := by
        rcases hid with hid | hid <;> simp [hid, hne.symm]
      simp [Database.livePosition, hrow, hrow', hid', hother, hne.symm, Option.filter]
    · obtain ⟨row', hrow', hdeleted, horder, hid⟩ := h.released a row hrow ha
      by_cases hself : row.messageId = some messageId
      · simp [Database.livePosition, hrow, hrow', hid, hself, hne.symm, Option.filter]
      · rw [if_neg hself] at hid
        simp only [Database.livePosition, hrow, hrow', hid, hdeleted, Option.filter]
        split <;> simp [horder]

/-- The claimed attachments are loaded in the order they were asked for. -/
theorem Claims.load_self {db db' : Database} {messageId : Int} {attachmentIds : List Int}
    (h : Claims db db' messageId attachmentIds) :
    db'.loadMessageAttachmentIds messageId = attachmentIds :=
  Database.loadMessageAttachmentIds_of_idxOf h.nodup h.position_self

theorem Claims.load_ne {db db' : Database} {messageId : Int} {attachmentIds : List Int}
    (h : Claims db db' messageId attachmentIds) {id : Int} (hne : id ≠ messageId) :
    db'.loadMessageAttachmentIds id = db.loadMessageAttachmentIds id :=
  Database.loadMessageAttachmentIds_congr (h.position_ne hne)

theorem Claims.reference {db db' : Database} {messageId : Int} {attachmentIds : List Int}
    (h : Claims db db' messageId attachmentIds) {a id : Int} {row' : Attachment}
    (hrow' : db'.attachments.row a = some row') (hid : row'.messageId = some id) :
    id = messageId ∨ ∃ row, db.attachments.row a = some row ∧ row.messageId = some id := by
  cases hrow : db.attachments.row a with
  | none =>
    rw [h.absent a hrow] at hrow'
    cases hrow'
  | some row =>
    by_cases ha : a ∈ attachmentIds
    · obtain ⟨row'', hrow'', hid'', -, -⟩ := h.claimed a row hrow ha
      obtain rfl := Option.some.inj (hrow''.symm.trans hrow')
      exact .inl (Option.some.inj (hid.symm.trans hid''))
    · obtain ⟨row'', hrow'', -, -, hid''⟩ := h.released a row hrow ha
      obtain rfl := Option.some.inj (hrow''.symm.trans hrow')
      rw [hid] at hid''
      split at hid''
      · cases hid''
      · exact .inr ⟨row, rfl, hid''.symm⟩

theorem replaceAttachments_claims {db : Database} {uid messageId : Int} {attachmentIds : List Int}
    (h : db.editable uid messageId attachmentIds = true) :
    Claims db (db.replaceAttachments messageId attachmentIds) messageId attachmentIds := by
  obtain ⟨hnodup, hfree⟩ := editable_spec h
  have hdetached : ∀ a row, db.attachments.row a = some row →
      (db.attachments.updateWhere (fun _ a => decide (a.messageId = some messageId)) fun _ a =>
        { a with messageId := none }).row a = some { row with
          messageId := if row.messageId = some messageId then none else row.messageId } := by
    intro a row hrow
    rw [Table.updateWhere_row_some hrow]
    by_cases hself : row.messageId = some messageId <;> simp [hself]
  refine ⟨hnodup, hfree, fun a row hrow ha => ?_, fun a row hrow ha => ?_, fun a hrow => ?_⟩
  · obtain ⟨row', hrow', -, hid⟩ := hfree a ha
    obtain rfl := Option.some.inj (hrow'.symm.trans hrow)
    have hreleased : (if row'.messageId = some messageId then none else row'.messageId) = none := by
      rcases hid with hid | hid <;> simp [hid]
    refine ⟨_, Table.updateWhere_row_some (hdetached a row' hrow), ?_⟩
    simp [ha, hreleased]
  · refine ⟨_, Table.updateWhere_row_some (hdetached a row hrow), ?_⟩
    simp [ha]
  · simp [Database.replaceAttachments, Table.updateWhere_row, hrow]

theorem insertMessage_claims {db : Database} {now id : Int} {p : PreparedMessageSend}
    (h : db.attachable p.senderUid p.attachmentIds = true)
    (hfree : ∀ a row, db.attachments.row a = some row → row.messageId ≠ some id) :
    Claims db (db.insertMessage now id p) id p.attachmentIds := by
  obtain ⟨hnodup, hunclaimed⟩ := attachable_spec h
  refine ⟨hnodup, fun a ha => ?_, fun a row hrow ha => ?_, fun a row hrow ha => ?_,
    fun a hrow => ?_⟩
  · obtain ⟨row, hrow, hlive, hid⟩ := hunclaimed a ha
    exact ⟨row, hrow, hlive, .inr hid⟩
  · refine ⟨_, Table.updateWhere_row_some hrow, ?_⟩
    simp [ha]
  · refine ⟨_, Table.updateWhere_row_some hrow, ?_⟩
    simp [ha, hfree a row hrow]
  · simp [Database.insertMessage, Table.updateWhere_row, hrow]

end Chahua.Messages

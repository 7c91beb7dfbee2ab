import Chahua.Captures.Captures
import Chahua.Messages.ForwardNesting

namespace Chahua.Captures

open Framework Messages

/-- The row that was read of a source still says the same. -/
structure Matches (s : MessageStore) (source : SourceMessage) : Prop where
  row : ∃ m, s.system.db.messages.row source.id = some m ∧
    rowPayload m = rowPayload source.message
  columns : s.columns.row source.id = some source.columns

theorem message_of_payload {m m' : Message} (h : rowPayload m' = rowPayload m) :
    m'.message = m.message :=
  congrArg (fun payload => (payload ⟨"", none, none, none⟩ []).message) h

theorem messageType_of_payload {m m' : Message} (h : rowPayload m' = rowPayload m) :
    m'.messageType = m.messageType :=
  congrArg (fun payload => (payload ⟨"", none, none, none⟩ []).messageType) h

/-- What is read of the attachments now goes with a row that still says the same. -/
theorem Matches.version {s : MessageStore} {source : SourceMessage} (h : Matches s source) :
    version s source.id = some (rowVersion s source.message source.columns
      (media (loadAttachments s.system.db source.id))) := by
  obtain ⟨m, hm, hpayload⟩ := h.row
  simp only [Captures.version, hm, h.columns, rowVersion, message_of_payload hpayload,
    messageType_of_payload hpayload]

theorem matches_source {s : CaptureStore} {messageId : Int} {source : SourceMessage}
    (h : s.source messageId = some source) : source.id = messageId ∧ Matches s.store source := by
  unfold CaptureStore.source at h
  split at h
  · next message columns hm hc =>
    obtain rfl := Option.some.inj h
    exact ⟨rfl, ⟨message, hm, rfl⟩, hc⟩
  · cases h

/-- What a transaction leaves of the rows; `edited` is the row it edits. -/
structure Advance (s t : MessageStore) (edited : Option Int) : Prop where
  content : ∀ id m, s.system.db.messages.row id = some m → some id ≠ edited →
    ∃ m', t.system.db.messages.row id = some m' ∧ rowPayload m' = rowPayload m
  columns : ∀ id c, s.columns.row id = some c → t.columns.row id = some c
  stickers : t.stickers = s.stickers

theorem Matches.advance {s t : MessageStore} {edited : Option Int} {source : SourceMessage}
    (h : Matches s source) (ha : Advance s t edited) (hne : some source.id ≠ edited) :
    Matches t source := by
  obtain ⟨m, hm, hpayload⟩ := h.row
  obtain ⟨m', hm', hsame⟩ := ha.content source.id m hm hne
  exact ⟨⟨m', hm', hsame.trans hpayload⟩, ha.columns _ _ h.columns⟩

theorem exists_of_forall₂ {α β : Type*} {R : α → β → Prop} {xs : List α} {ys : List β}
    (h : List.Forall₂ R xs ys) {y : β} (hy : y ∈ ys) : ∃ x ∈ xs, R x y := by
  induction h with
  | nil => cases hy
  | cons hxy _ ih =>
    obtain rfl | hy := List.mem_cons.mp hy
    · exact ⟨_, List.mem_cons_self, hxy⟩
    · obtain ⟨x, hx, hr⟩ := ih hy
      exact ⟨x, List.mem_cons_of_mem _ hx, hr⟩

theorem snapshotMedia_load (db : Database) (messageId : Int) :
    (db.loadForwardedAttachmentSnapshots messageId).map snapshotMedia =
      media (loadAttachments db messageId) := by
  simp only [Database.loadForwardedAttachmentSnapshots, media, loadAttachments,
    List.map_filterMap, Option.map_map]
  rfl

theorem savedMedia_load (attachments : List (Int × Attachment)) :
    (attachments.map CaptureStore.savedAttachment).map
      (fun a => snapshotMedia a.toAttachmentSnapshot) = media attachments := by
  rw [List.map_map]
  rfl

/-- An item that is no placeholder holds its row with the attachments as they are now. -/
theorem itemVersion_captureItem {s : MessageStore} {preview : Int → Option ForwardedMessagesPreviewSnapshot}
    {selected : List Int} {source : SourceMessage} {reason : Option ForwardPlaceholder}
    {item : ForwardedBundlePayloadItem} {v : Version}
    (h : captureItem s.system.db s.stickers preview selected source reason = .ok item)
    (hv : itemVersion item = some v) : item.originalMessageId = source.id ∧
      v = rowVersion s source.message source.columns
        (media (loadAttachments s.system.db source.id)) := by
  unfold captureItem at h
  cases reason with
  | some reason =>
    obtain rfl := Except.ok.inj h
    simp [itemVersion, buildPlaceholderSnapshot] at hv
  | none =>
    dsimp only at h
    split at h
    · cases hr : buildForwardedBundleRefSnapshot source preview selected with
      | error e => simp [hr, Except.map] at h
      | ok ref =>
        obtain rfl : _ = item := by simpa [hr, Except.map] using h
        cases hv
    · cases hr : buildForwardedMessageSnapshot source
          (s.system.db.loadForwardedAttachmentSnapshots source.id) s.stickers selected with
      | error e => simp [hr, Except.map] at h
      | ok snapshot =>
        obtain rfl : _ = item := by simpa [hr, Except.map] using h
        unfold buildForwardedMessageSnapshot at hr
        dsimp only at hr
        split at hr
        · next hnone =>
          obtain rfl := Except.ok.inj hr
          simp only [itemVersion] at hv
          split at hv
          · cases hv
          · refine ⟨rfl, ?_⟩
            obtain rfl := Option.some.inj hv
            simp [rowVersion, stickerOf, hnone, snapshotMedia_load]
        · next stickerId hsome =>
          split at hr
          · next sticker hsticker =>
            obtain rfl := Except.ok.inj hr
            simp only [itemVersion] at hv
            split at hv
            · cases hv
            · refine ⟨rfl, ?_⟩
              obtain rfl := Option.some.inj hv
              simp [rowVersion, stickerOf, hsome, hsticker, snapshotMedia_load]
          · cases hr

theorem itemVersion_capture {s : MessageStore} {sources : List SourceMessage} {allow : Bool}
    {items : List ForwardedBundlePayloadItem} {item : ForwardedBundlePayloadItem} {v : Version}
    (h : captureForwardedBundleItems s.system.db s.forwardedBundles s.stickers sources allow =
      .ok items) (hitem : item ∈ items) (hv : itemVersion item = some v) :
    ∃ source ∈ sources, item.originalMessageId = source.id ∧
      v = rowVersion s source.message source.columns
        (media (loadAttachments s.system.db source.id)) := by
  unfold captureForwardedBundleItems at h
  split at h
  · cases h
  · next marked hmarked =>
    obtain ⟨entry, hentry, hcapture⟩ := exists_of_forall₂ (collect_eq_ok.mp h) hitem
    obtain ⟨source, hsource, heq, -⟩ :=
      exists_of_forall₂ (capturePlaceholders_spec hmarked) hentry
    obtain ⟨hid, hversion⟩ := itemVersion_captureItem hcapture hv
    rw [heq] at hid hversion
    exact ⟨source, hsource, hid, hversion⟩

/-- A saved row holds its source with the attachments as they are now, or with none if the row
that was read has none. -/
theorem version_buildNewSavedMessage {s : MessageStore} {savedAt : Int} {source : SourceMessage}
    {hasAttachments : Bool} {row : SavedMessage}
    (h : CaptureStore.buildNewSavedMessage s savedAt source hasAttachments = .ok row) :
    row.version = rowVersion s source.message source.columns
      (if hasAttachments then media (loadAttachments s.system.db source.id) else []) := by
  unfold CaptureStore.buildNewSavedMessage at h
  split at h
  · cases h
  · obtain rfl := Except.ok.inj h
    cases hasAttachments
    · simp only [SavedMessage.version, rowVersion, stickerOf, Option.map_map, Bool.false_eq_true,
        if_false, List.map_nil]
      rfl
    · simp only [SavedMessage.version, rowVersion, stickerOf, Option.map_map, if_true,
        savedMedia_load]
      rfl

/-- The insert of a message: the new row is what was sent, the others stay. -/
structure Inserted (s t : MessageStore) (id : Int) (p : SendRequest) : Prop where
  fresh : s.system.db.messages.row id = none
  content : SameContent s.system.db t.system.db
  columns : t.columns = s.columns.upsert id p.columns
  stores : t.Stores id p
  load : ∀ k, (s.system.db.messages.row k).isSome →
    t.system.db.loadMessageAttachmentIds k = s.system.db.loadMessageAttachmentIds k
  constraints : t.Constraints
  media : ∀ a, (t.system.db.attachments.row a).map attachmentMedia =
    (s.system.db.attachments.row a).map attachmentMedia
  stickers : t.stickers = s.stickers
  row : ∃ m, t.system.db.messages.row id = some m ∧ m.messageType = p.messageType ∧
    m.message = p.storedMessage

theorem media_updateWhere {t : Table Int Attachment} {p : Int → Attachment → Bool}
    {f : Int → Attachment → Attachment}
    (hf : ∀ id a, attachmentMedia (f id a) = attachmentMedia a) (a : Int) :
    ((t.updateWhere p f).row a).map attachmentMedia = (t.row a).map attachmentMedia := by
  rw [Table.updateWhere_row, Option.map_map]
  congr 1
  funext row
  simp only [Function.comp_apply]
  split
  · exact hf a row
  · rfl

theorem inserted_of_send {s t : MessageStore} {now id : Int} {p : SendRequest}
    {sent : SendMessageResult} (hs : s.Constraints)
    (h : s.sendPreparedMessage now id p = .ok (t, .created sent)) : Inserted s t id p := by
  obtain ⟨-, ⟨response, hduplicate⟩, -⟩ | ⟨-, hnew, hinsert⟩ :=
    MessageStore.sendPreparedMessage_cases h
  · cases hduplicate
  · obtain ⟨heffect, hstores⟩ :=
      MessageStore.insertSend_effect hs hnew hinsert fun _ => True
    obtain ⟨db, sent', hsend, -, rfl⟩ := MessageStore.insertSend_spec hinsert
    obtain ⟨hcheck, hsame, -⟩ := sendPreparedMessage_spec hsend
    refine ⟨(checkSend_spec hcheck).1, fun k m hm => heffect.content k m trivial hm, rfl, hstores,
      fun k hk => heffect.attachments k trivial hk, heffect.constraints hs, fun a => ?_, rfl, ?_⟩
    · change (db.attachments.row a).map attachmentMedia = _
      rw [hsame.attachments]
      exact @media_updateWhere _ _ (fun a row => { row with
        messageId := some id
        order := p.attachmentIds.idxOf a }) (fun _ _ => rfl) a
    · obtain ⟨m, hm, hpayload⟩ := hstores.payload
      exact ⟨m, hm, congrArg MessagePayload.messageType hpayload,
        congrArg MessagePayload.message hpayload⟩

theorem Inserted.advance {s t : MessageStore} {id : Int} {p : SendRequest}
    (h : Inserted s t id p) (hs : s.Constraints) : Advance s t none where
  content k m hm _ := h.content k m hm
  columns k c hc := by
    have hne : k ≠ id := by
      intro heq
      have hsome := hs.columns k c hc
      rw [heq, h.fresh] at hsome
      cases hsome
    rw [h.columns, Table.upsert_row_ne _ _ hne, hc]
  stickers := h.stickers

/-- The row an event edits with another text. -/
def rewritten (s : MessageStore) : StoreEvent → Option Int
  | .edit _ _ _ messageId body =>
      if (s.system.db.messages.row messageId).any fun m => decide (m.message = some body.message)
      then none
      else some messageId
  | _ => none

theorem checkPatch_text {db : Database} {columns : Table Int SendColumns}
    {uid chatId messageId : Int} {body : UpdateMessageBody} {message : Message}
    (h : db.checkPatch columns uid chatId messageId body = .ok message) :
    message.messageType = .text ∧
      (columns.row messageId).bind (·.forwardedFromMessageId) = none := by
  unfold Database.checkPatch at h
  split at h
  · cases h
  split at h
  · cases h
  dsimp only at h
  split at h
  · cases h
  split at h
  · cases h
  split at h
  · cases h
  split at h
  · cases h
  next hforward =>
  split at h
  · cases h
  next htype =>
  split at h
  · split at h
    · cases h
    · obtain rfl := Except.ok.inj h
      exact ⟨not_not.mp htype, Option.not_isSome_iff_eq_none.mp (not_or.mp hforward).1⟩
  · cases h

theorem patchMessage_spec {s t : MessageStore} {now uid chatId messageId : Int}
    {body : UpdateMessageBody} (h : s.patchMessage now uid chatId messageId body = .ok t) :
    ∃ m, s.system.db.messages.row messageId = some m ∧ m.messageType = .text ∧
      (s.columns.row messageId).bind (·.forwardedFromMessageId) = none ∧
      (∀ id, t.system.db.messages.row id = (s.system.db.messages.row id).map fun m =>
        if id = messageId then { m with message := some body.message } else m) ∧
      t.system.db.loadMessageAttachmentIds messageId = body.attachmentIds ∧
      (∀ id, id ≠ messageId → t.system.db.loadMessageAttachmentIds id =
        s.system.db.loadMessageAttachmentIds id) ∧
      t.columns = s.columns ∧ t.stickers = s.stickers := by
  cases hr : s.system.db.patchMessage s.columns now uid chatId messageId body with
  | error e => simp [MessageStore.patchMessage, hr, Except.map] at h
  | ok db =>
    obtain rfl : _ = t := by simpa [MessageStore.patchMessage, hr, Except.map] using h
    unfold Database.patchMessage at hr
    split at hr
    · cases hr
    · next message hcheck =>
      obtain ⟨hrow, heditable⟩ := checkPatch_spec hcheck
      have hclaims := replaceAttachments_claims heditable
      have hsync := syncEditedMessageMentions_sameRows
        ((s.system.db.replaceAttachments messageId body.attachmentIds).setMessageText messageId
          body.message) now messageId message body.message uid
      rw [Except.ok.inj hr] at hsync
      have hload : ∀ id, db.loadMessageAttachmentIds id =
          (s.system.db.replaceAttachments messageId body.attachmentIds).loadMessageAttachmentIds
            id := by
        intro id
        simp only [Database.loadMessageAttachmentIds, hsync.attachments]
        rfl
      obtain ⟨htype, hforward⟩ := checkPatch_text hcheck
      refine ⟨message, hrow, htype, hforward, fun id => ?_, (hload messageId).trans hclaims.load_self,
        fun id hid => (hload id).trans (hclaims.load_ne hid), rfl, rfl⟩
      change db.messages.row id = _
      rw [hsync.messages]
      change (s.system.db.messages.updateWhere _ _).row id = _
      simp only [Table.updateWhere_row, decide_eq_true_eq]

theorem keepsMessages_stickers {s t : MessageStore} {e : Event} (h : s.step (.system e) = some t) :
    t.columns = s.columns ∧ t.stickers = s.stickers := by
  simp only [MessageStore.step] at h
  split at h
  · obtain ⟨system, -, rfl⟩ := Option.map_eq_some_iff.mp h
    exact ⟨rfl, rfl⟩
  · cases h

theorem send_stickers {s t : MessageStore} {now id : Int} {p : SendRequest}
    {outcome : SendMessageOutcome} (h : s.sendPreparedMessage now id p = .ok (t, outcome)) :
    t.stickers = s.stickers := by
  obtain ⟨rfl, -⟩ | ⟨-, -, hinsert⟩ := MessageStore.sendPreparedMessage_cases h
  · rfl
  · obtain ⟨db, sent, -, -, rfl⟩ := MessageStore.insertSend_spec hinsert
    rfl

theorem step_send {s t : MessageStore} {now id : Int} {p : SendRequest}
    (h : s.step (.send now id p) = some t) :
    ∃ outcome, s.sendPreparedMessage now id p = .ok (t, outcome) := by
  cases hr : s.sendPreparedMessage now id p with
  | error e => simp [MessageStore.step, hr, Except.toOption] at h
  | ok r =>
    obtain rfl : r.1 = t := by simpa [MessageStore.step, hr, Except.toOption] using h
    exact ⟨r.2, rfl⟩

theorem step_edit {s t : MessageStore} {now uid chatId messageId : Int} {body : UpdateMessageBody}
    (h : s.step (.edit now uid chatId messageId body) = some t) :
    s.patchMessage now uid chatId messageId body = .ok t := by
  cases hr : s.patchMessage now uid chatId messageId body with
  | error e => simp [MessageStore.step, hr, Except.toOption] at h
  | ok r =>
    obtain rfl : r = t := by simpa [MessageStore.step, hr, Except.toOption] using h
    rfl

theorem step_system {s t : MessageStore} {e : Event} (h : s.step (.system e) = some t) :
    SameContent s.system.db t.system.db ∧
      AttachmentsStay s.system.db t.system.db e.touched := by
  simp only [MessageStore.step] at h
  split at h
  · next hkeeps =>
    obtain ⟨system, hsystem, rfl⟩ := Option.map_eq_some_iff.mp h
    exact System.step_keeps hkeeps hsystem
  · cases h

theorem patched_same {m : Message} {text : String} (h : m.message = some text) :
    { m with message := some text } = m := by
  rw [← h]

/-- An edit that leaves the text, a deletion, a publication and a send leave every row as it was. -/
theorem advance_of_step {s t : MessageStore} {e : StoreEvent} (hs : s.Constraints)
    (he : isOrdinary e = true) (h : s.step e = some t) : Advance s t (rewritten s e) := by
  cases e with
  | send now id p =>
    obtain ⟨outcome, hsend⟩ := step_send h
    have heffect := MessageStore.sendPreparedMessage_effect hs hsend fun _ => True
    refine ⟨fun k m hm _ => heffect.content k m trivial hm, fun k c hc => ?_, send_stickers hsend⟩
    obtain ⟨m, hm⟩ := Option.isSome_iff_exists.mp (hs.columns k c hc)
    exact heffect.columns_row hm hc
  | forward now id bundleId uid destinationChatId hidden body => cases he
  | edit now uid chatId messageId body =>
    obtain ⟨m, hm, -, -, hrow, -, -, hcolumns, hstickers⟩ := patchMessage_spec (step_edit h)
    refine ⟨fun id row hid hne => ?_, fun id c hc => hcolumns ▸ hc, hstickers⟩
    refine ⟨_, (hrow id).trans (by rw [hid]; rfl), ?_⟩
    dsimp only
    by_cases heq : id = messageId
    · subst heq
      obtain rfl := Option.some.inj (hid.symm.trans hm)
      rw [if_pos rfl]
      by_cases htext : row.message = some body.message
      · rw [patched_same htext]
      · simp [rewritten, hm, htext] at hne
    · rw [if_neg heq]
  | system e =>
    obtain ⟨hcolumns, hstickers⟩ := keepsMessages_stickers h
    exact ⟨fun id m hm _ => (step_system h).1 id m hm, fun id c hc => hcolumns ▸ hc, hstickers⟩
  | leave chatId uid =>
    obtain rfl := Option.some.inj h
    exact ⟨fun id m hm _ => ⟨m, hm, rfl⟩, fun id c hc => hc, rfl⟩

end Chahua.Captures

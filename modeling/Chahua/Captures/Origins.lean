import Chahua.Captures.Versions

namespace Chahua.Captures

open Framework Messages

/-- A text that a message had in a committed state. -/
def Said (committed : List MessageStore) (id : Int) (text : Option String) : Prop :=
  ∃ s ∈ committed, ∃ m, s.system.db.messages.row id = some m ∧ m.message = text

theorem Said.append {committed : List MessageStore} {id : Int} {text : Option String}
    (h : Said committed id text) (more : List MessageStore) : Said (committed ++ more) id text := by
  obtain ⟨s, hs, hm⟩ := h
  exact ⟨s, List.mem_append_left _ hs, hm⟩

/-- An origin is no forward, and its words are those a forward of it repeats. -/
structure Attributed (s : MessageStore) (committed : List MessageStore) (origin : Int)
    (messageType : MessageType) (text : Option String) : Prop where
  root : ∃ c, s.columns.row origin = some c ∧ c.forwardedFromMessageId = none
  said : messageType ≠ .placeholder → Said committed origin text

/-- What holds of every committed state: the tables' constraints, stickers without a text, flags
that tell the truth when they say there is nothing, and the attribution of every forward. -/
structure Base (s : MessageStore) (committed : List MessageStore) (flags : Table Int Bool) :
    Prop where
  constraints : s.Constraints
  stickers : ∀ past ∈ committed, past.stickers = s.stickers
  plain : ∀ id c, s.columns.row id = some c → ∃ m, s.system.db.messages.row id = some m ∧
    (m.messageType = .sticker → m.message = none)
  flags : ∀ id, flags.row id = some false → (s.system.db.messages.row id).isSome ∧
    s.system.db.loadMessageAttachmentIds id = []
  origins : ∀ id c origin, s.columns.row id = some c → c.forwardedFromMessageId = some origin →
    ∃ m, s.system.db.messages.row id = some m ∧
      Attributed s committed origin m.messageType m.message

theorem Attributed.advance {s t : MessageStore} {committed more : List MessageStore} {origin : Int}
    {messageType : MessageType} {text : Option String} {edited : Option Int}
    (h : Attributed s committed origin messageType text) (ha : Advance s t edited) :
    Attributed t (committed ++ more) origin messageType text := by
  obtain ⟨c, hc, hnone⟩ := h.root
  exact ⟨⟨c, ha.columns _ _ hc, hnone⟩, fun htype => (h.said htype).append more⟩

/-- The insert of a message whose attribution is right. -/
theorem Base.inserted {s t : MessageStore} {committed : List MessageStore} {flags : Table Int Bool}
    {id : Int} {p : SendRequest} (h : Base s committed flags) (hi : Inserted s t id p)
    (horigin : ∀ origin, p.forwardedFromMessageId = some origin →
      Attributed s committed origin p.messageType p.storedMessage) :
    Base t (committed ++ [t]) (flags.upsert id (decide (p.attachmentIds ≠ []))) := by
  have ha := hi.advance h.constraints
  obtain ⟨m, hm, htype, htext⟩ := hi.row
  have hcases : ∀ k c, t.columns.row k = some c →
      (k = id ∧ c = p.columns) ∨ s.columns.row k = some c := by
    intro k c hc
    rw [hi.columns, Table.upsert_row] at hc
    split at hc
    · next heq => exact .inl ⟨heq, (Option.some.inj hc).symm⟩
    · exact .inr hc
  refine ⟨hi.constraints, fun past hpast => ?_, fun k c hc => ?_, fun k hk => ?_,
    fun k c origin hc hforward => ?_⟩
  · obtain hpast | hpast := List.mem_append.mp hpast
    · exact (h.stickers past hpast).trans hi.stickers.symm
    · rw [List.mem_singleton.mp hpast]
  · obtain ⟨rfl, rfl⟩ | hold := hcases k c hc
    · refine ⟨m, hm, fun hsticker => ?_⟩
      rw [htext, SendRequest.storedMessage, if_pos (htype.symm.trans hsticker)]
    · obtain ⟨row, hrow, hplain⟩ := h.plain k c hold
      obtain ⟨row', hrow', hpayload⟩ := hi.content k row hrow
      refine ⟨row', hrow', fun hsticker => ?_⟩
      rw [message_of_payload hpayload]
      exact hplain ((messageType_of_payload hpayload).symm.trans hsticker)
  · by_cases heq : k = id
    · subst heq
      rw [Table.upsert_row_self] at hk
      refine ⟨by simp [hm], ?_⟩
      obtain ⟨m', hm', hpayload⟩ := hi.stores.payload
      have hload := congrArg MessagePayload.attachmentIds hpayload
      simp only [Option.some.injEq, decide_eq_false_iff_not, not_not] at hk
      exact hload.trans hk
    · rw [Table.upsert_row_ne _ _ heq] at hk
      obtain ⟨hsome, hnone⟩ := h.flags k hk
      obtain ⟨row, hrow⟩ := Option.isSome_iff_exists.mp hsome
      obtain ⟨row', hrow', -⟩ := hi.content k row hrow
      exact ⟨by simp [hrow'], (hi.load k hsome).trans hnone⟩
  · obtain ⟨rfl, rfl⟩ | hold := hcases k c hc
    · refine ⟨m, hm, ?_⟩
      rw [htype, htext]
      exact (horigin origin hforward).advance ha
    · obtain ⟨row, hrow, hattributed⟩ := h.origins k c origin hold hforward
      obtain ⟨row', hrow', hpayload⟩ := hi.content k row hrow
      refine ⟨row', hrow', ?_⟩
      rw [messageType_of_payload hpayload, message_of_payload hpayload]
      exact hattributed.advance ha

/-- A step that inserts nothing and edits no forward. -/
theorem Base.advanced {s t : MessageStore} {committed : List MessageStore}
    {flags flags' : Table Int Bool} {edited : Option Int} (h : Base s committed flags)
    (ha : Advance s t edited) (hconstraints : t.Constraints) (hcolumns : t.columns = s.columns)
    (hedited : ∀ id, some id = edited → (s.columns.row id).bind (·.forwardedFromMessageId) = none ∧
      ∃ m, t.system.db.messages.row id = some m ∧ m.messageType = .text)
    (hflags : ∀ id, flags'.row id = some false → (t.system.db.messages.row id).isSome ∧
      t.system.db.loadMessageAttachmentIds id = []) :
    Base t (committed ++ [t]) flags' := by
  refine ⟨hconstraints, fun past hpast => ?_, fun k c hc => ?_, hflags,
    fun k c origin hc hforward => ?_⟩
  · obtain hpast | hpast := List.mem_append.mp hpast
    · exact (h.stickers past hpast).trans ha.stickers.symm
    · rw [List.mem_singleton.mp hpast]
  · rw [hcolumns] at hc
    by_cases heq : some k = edited
    · obtain ⟨-, m, hm, htext⟩ := hedited k heq
      refine ⟨m, hm, fun hsticker => ?_⟩
      rw [htext] at hsticker
      cases hsticker
    · obtain ⟨row, hrow, hplain⟩ := h.plain k c hc
      obtain ⟨row', hrow', hpayload⟩ := ha.content k row hrow heq
      refine ⟨row', hrow', fun hsticker => ?_⟩
      rw [message_of_payload hpayload]
      exact hplain ((messageType_of_payload hpayload).symm.trans hsticker)
  · rw [hcolumns] at hc
    have hne : some k ≠ edited := by
      intro heq
      have hnone := (hedited k heq).1
      rw [hc, Option.bind_some, hforward] at hnone
      cases hnone
    obtain ⟨row, hrow, hattributed⟩ := h.origins k c origin hc hforward
    obtain ⟨row', hrow', hpayload⟩ := ha.content k row hrow hne
    refine ⟨row', hrow', ?_⟩
    rw [messageType_of_payload hpayload, message_of_payload hpayload]
    exact hattributed.advance ha

theorem noteAttachments_send_same {flags : Table Int Bool} {s : MessageStore} {now id : Int}
    {p : SendRequest} : noteAttachments flags s s (.send now id p) = flags := by
  simp only [noteAttachments]
  cases s.columns.row id <;> rfl

theorem noteAttachments_inserted {flags : Table Int Bool} {s t : MessageStore} {now id : Int}
    {p : SendRequest} (hs : s.Constraints) (hi : Inserted s t id p) :
    noteAttachments flags s t (.send now id p) =
      flags.upsert id (decide (p.attachmentIds ≠ [])) := by
  have hnone : s.columns.row id = none := by
    cases hc : s.columns.row id with
    | none => rfl
    | some c =>
      have hsome := hs.columns id c hc
      rw [hi.fresh] at hsome
      cases hsome
  simp only [noteAttachments, hnone, hi.columns, Table.upsert_row_self, Option.isNone_none,
    Option.isSome_some, Bool.and_self, if_true]

/-- The attribution of forwards outlives every ordinary transaction. -/
theorem Base.write {s t : MessageStore} {committed : List MessageStore} {flags : Table Int Bool}
    {e : StoreEvent} (h : Base s committed flags) (he : isOrdinary e = true)
    (hstep : s.step e = some t) :
    Base t (committed ++ [t]) (noteAttachments flags s t e) := by
  have ha := advance_of_step h.constraints he hstep
  have hconstraints := (MessageStore.step_effect h.constraints hstep).constraints h.constraints
  have hsame : t = s → Base t (committed ++ [t]) flags := by
    intro heq
    subst heq
    exact @Base.advanced t t committed flags flags none h
      ⟨fun id m hm _ => ⟨m, hm, rfl⟩, fun id c hc => hc, rfl⟩ h.constraints rfl
      (fun id hid => by cases hid) h.flags
  cases e with
  | send now id p =>
    obtain ⟨outcome, hsend⟩ := step_send hstep
    cases outcome with
    | created sent =>
      have hi := inserted_of_send h.constraints hsend
      rw [noteAttachments_inserted h.constraints hi]
      refine h.inserted hi fun origin horigin => ?_
      rw [isOrdinary, horigin] at he
      cases he
    | duplicate response =>
      obtain ⟨rfl, -⟩ | ⟨-, -, hinsert⟩ := MessageStore.sendPreparedMessage_cases hsend
      · rw [noteAttachments_send_same]
        exact hsame rfl
      · obtain ⟨_, _, _, hcreated, -⟩ := MessageStore.insertSend_spec hinsert
        cases hcreated
  | forward now id bundleId uid destinationChatId hidden body => cases he
  | edit now uid chatId messageId body =>
    obtain ⟨m, hm, htype, hforward, hrow, hload, hother, hcolumns, -⟩ :=
      patchMessage_spec (step_edit hstep)
    refine h.advanced ha hconstraints hcolumns (fun id hid => ?_) fun id hid => ?_
    · simp only [rewritten] at hid
      split at hid
      · cases hid
      · obtain rfl := Option.some.inj hid
        exact ⟨hforward, _, (hrow id).trans (by rw [hm]; rfl), by simpa using htype⟩
    · simp only [noteAttachments] at hid
      by_cases heq : id = messageId
      · subst heq
        rw [Table.upsert_row_self] at hid
        simp only [Option.some.injEq, decide_eq_false_iff_not, not_not] at hid
        exact ⟨by simp [hrow, hm], hload.trans hid⟩
      · rw [Table.upsert_row_ne _ _ heq] at hid
        obtain ⟨hsome, hnone⟩ := h.flags id hid
        exact ⟨by simpa [hrow] using hsome, (hother id heq).trans hnone⟩
  | system e =>
    obtain ⟨hcontent, hstay⟩ := step_system hstep
    refine h.advanced ha hconstraints (keepsMessages_stickers hstep).1
      (fun id hid => by cases hid) fun id hid => ?_
    obtain ⟨hsome, hnone⟩ := h.flags id hid
    obtain ⟨m, hm⟩ := Option.isSome_iff_exists.mp hsome
    obtain ⟨m', hm', -⟩ := hcontent id m hm
    exact ⟨by simp [hm'], (hstay.load fun _ => hnone).trans hnone⟩
  | leave chatId uid =>
    obtain rfl := Option.some.inj hstep
    exact h.advanced ha hconstraints rfl (fun id hid => by cases hid) h.flags

theorem bulkDeleteBatch_rows {db db' : Database} {now chatId targetUid : Int}
    {scope : DeleteScope} {impact : DeletionImpact}
    (h : db.bulkDeleteBatch now chatId targetUid scope = .ok (db', impact)) :
    SameContent db db' ∧ ∃ ids, AttachmentsStay db db' ids := by
  unfold Database.bulkDeleteBatch at h
  split at h
  · obtain ⟨rfl, -⟩ := Prod.mk.inj (Except.ok.inj h)
    exact ⟨sameContent_of_messages rfl, [], attachmentsStay_of_eq rfl⟩
  · unfold Database.softDeleteBatch at h
    split at h
    · cases h
    · obtain ⟨rfl, -⟩ := Prod.mk.inj (Except.ok.inj h)
      refine ⟨sameContent_of_map (fun id => Table.updateWhere_row _ _ _ id) fun id m => ?_, _,
        softDelete_attachments db now _⟩
      split <;> rfl

/-- A cleanup takes rows and attachments away and changes no words. -/
theorem Base.cleanup {s : MessageStore} {committed : List MessageStore} {flags : Table Int Bool}
    {db : Database} {ids : List Int} (h : Base s committed flags)
    (hcontent : SameContent s.system.db db) (hstay : AttachmentsStay s.system.db db ids) :
    Advance s { s with system := { s.system with db := db } } none ∧
      Base { s with system := { s.system with db := db } }
        (committed ++ [{ s with system := { s.system with db := db } }]) flags := by
  have ha : Advance s { s with system := { s.system with db := db } } none :=
    ⟨fun id m hm _ => hcontent id m hm, fun id c hc => hc, rfl⟩
  have heffect : MessageStore.Effect s { s with system := { s.system with db := db } } fun id =>
      s.system.db.loadMessageAttachmentIds id = [] :=
    MessageStore.effect_of_rows h.constraints hcontent hstay (fun id hempty _ => hempty) rfl
  refine ⟨ha, h.advanced ha (heffect.constraints h.constraints) rfl
    (fun id hid => by cases hid) fun id hid => ?_⟩
  obtain ⟨hsome, hnone⟩ := h.flags id hid
  exact ⟨heffect.rows hsome, (heffect.attachments id hnone hsome).trans hnone⟩

end Chahua.Captures

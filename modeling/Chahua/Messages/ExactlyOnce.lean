import Chahua.Messages.Retries

namespace Chahua.Messages

open Framework

namespace MessageStore

/-- The constraints of the tables: client ids are unique, every column record and every attachment
of a message refers to a row. -/
structure Constraints (s : MessageStore) : Prop where
  unique : ∀ i j ci cj, s.columns.row i = some ci → s.columns.row j = some cj →
    ci.clientGeneratedId = cj.clientGeneratedId → i = j
  columns : ∀ i c, s.columns.row i = some c → (s.system.db.messages.row i).isSome
  attachments : ∀ a row i, s.system.db.attachments.row a = some row → row.messageId = some i →
    (s.system.db.messages.row i).isSome

theorem existing_eq_some {s : MessageStore} {clientGeneratedId : String} {id : Int}
    (h : s.existing clientGeneratedId = some id) :
    ∃ c, s.columns.row id = some c ∧ c.clientGeneratedId = clientGeneratedId := by
  obtain ⟨c, hc, hp⟩ := Table.mem_select.mp (Table.oldest_mem h)
  exact ⟨c, hc, by simpa using hp⟩

theorem existing_eq_none {s : MessageStore} {clientGeneratedId : String}
    (h : s.existing clientGeneratedId = none) {id : Int} {c : SendColumns}
    (hc : s.columns.row id = some c) : c.clientGeneratedId ≠ clientGeneratedId := by
  intro heq
  have hmem : id ∈ s.columns.select fun _ c => decide (c.clientGeneratedId = clientGeneratedId) :=
    Table.mem_select.mpr ⟨c, hc, by simpa using heq⟩
  rw [Finset.min_eq_top.mp h] at hmem
  simp at hmem

/-- A client's id finds the one message that was sent under it. -/
theorem Constraints.existing {s : MessageStore} (hs : s.Constraints) {id : Int} {c : SendColumns}
    (hc : s.columns.row id = some c) : s.existing c.clientGeneratedId = some id := by
  cases h : s.existing c.clientGeneratedId with
  | none => exact absurd rfl (existing_eq_none h hc)
  | some j =>
    obtain ⟨cj, hcj, heq⟩ := existing_eq_some h
    rw [hs.unique j id cj c hcj hc heq]

/-- What was sent of a message is what is stored of it, attachments included. -/
structure Stores (s : MessageStore) (id : Int) (p : SendRequest) : Prop where
  columns : s.columns.row id = some p.columns
  payload : ∃ m, s.system.db.messages.row id = some m ∧
    rowPayload m p.columns (s.system.db.loadMessageAttachmentIds id) = p.payload

/-- What a step does to the messages that it keeps. -/
structure Effect (s t : MessageStore) (kept : Int → Prop) : Prop where
  content : ∀ id m, kept id → s.system.db.messages.row id = some m →
    ∃ m', t.system.db.messages.row id = some m' ∧ rowPayload m' = rowPayload m
  attachments : ∀ id, kept id → (s.system.db.messages.row id).isSome →
    t.system.db.loadMessageAttachmentIds id = s.system.db.loadMessageAttachmentIds id
  identity : ∀ id m, s.system.db.messages.row id = some m →
    ∃ m', t.system.db.messages.row id = some m' ∧ rowIdentity m' = rowIdentity m
  references : ∀ a row i, t.system.db.attachments.row a = some row → row.messageId = some i →
    (t.system.db.messages.row i).isSome
  columns : t.columns = s.columns ∨ ∃ (id : Int) (p : SendRequest), s.system.db.messages.row id = none ∧
    s.existing p.clientGeneratedId = none ∧ (t.system.db.messages.row id).isSome ∧
    t.columns = s.columns.upsert id p.columns

theorem Effect.rows {s t : MessageStore} {kept : Int → Prop} (h : Effect s t kept) {id : Int}
    (hid : (s.system.db.messages.row id).isSome) : (t.system.db.messages.row id).isSome := by
  obtain ⟨m, hm⟩ := Option.isSome_iff_exists.mp hid
  obtain ⟨m', hm', -⟩ := h.identity id m hm
  simp [hm']

theorem Effect.columns_row {s t : MessageStore} {kept : Int → Prop} (h : Effect s t kept)
    {id : Int} {m : Message} {c : SendColumns} (hm : s.system.db.messages.row id = some m)
    (hc : s.columns.row id = some c) : t.columns.row id = some c := by
  rcases h.columns with heq | ⟨fresh, q, hfresh, -, -, heq⟩
  · rw [heq, hc]
  · have hne : id ≠ fresh := fun heq => by
      rw [← heq, hm] at hfresh
      cases hfresh
    rw [heq, Table.upsert_row_ne _ _ hne, hc]

theorem Effect.constraints {s t : MessageStore} {kept : Int → Prop} (h : Effect s t kept)
    (hs : s.Constraints) : t.Constraints := by
  rcases h.columns with heq | ⟨id, p, hfresh, hnew, hrow, heq⟩
  · refine ⟨?_, ?_, h.references⟩
    · rw [heq]
      exact hs.unique
    · intro i c hc
      exact h.rows (hs.columns i c (heq ▸ hc))
  · have hother : ∀ i c, s.columns.row i = some c →
        c.clientGeneratedId ≠ p.columns.clientGeneratedId := fun i c hc => existing_eq_none hnew hc
    refine ⟨fun i j ci cj hi hj hid => ?_, fun i c hc => ?_, h.references⟩
    · rw [heq, Table.upsert_row] at hi hj
      split at hi <;> split at hj
      · next hi' hj' => rw [hi', hj']
      · obtain rfl := Option.some.inj hi
        exact absurd hid.symm (hother j cj hj)
      · obtain rfl := Option.some.inj hj
        exact absurd hid (hother i ci hi)
      · exact hs.unique i j ci cj hi hj hid
    · rw [heq, Table.upsert_row] at hc
      split at hc
      · next hi => exact hi ▸ hrow
      · exact h.rows (hs.columns i c hc)

theorem Effect.stores {s t : MessageStore} {kept : Int → Prop} (h : Effect s t kept) {id : Int}
    {p : SendRequest} (hkept : kept id) (hp : s.Stores id p) : t.Stores id p := by
  obtain ⟨m, hm, hpayload⟩ := hp.payload
  obtain ⟨m', hm', heq⟩ := h.content id m hkept hm
  refine ⟨h.columns_row hm hp.columns, m', hm', ?_⟩
  rw [heq, h.attachments id hkept (by simp [hm]), hpayload]

/-- A step that inserts nothing. -/
theorem effect_of_rows {s t : MessageStore} {kept : Int → Prop} {touched : List Int}
    (hs : s.Constraints) (hcontent : SameContent s.system.db t.system.db)
    (hattachments : AttachmentsStay s.system.db t.system.db touched)
    (hkept : ∀ id, kept id → id ∈ touched → s.system.db.loadMessageAttachmentIds id = [])
    (hcolumns : t.columns = s.columns) : Effect s t kept := by
  have hrows : ∀ id, (s.system.db.messages.row id).isSome →
      (t.system.db.messages.row id).isSome := by
    intro id hid
    obtain ⟨m, hm⟩ := Option.isSome_iff_exists.mp hid
    obtain ⟨m', hm', -⟩ := hcontent id m hm
    simp [hm']
  have hidentity := hcontent.identity
  refine ⟨fun id m _ hm => hcontent id m hm, fun id hid _ => hattachments.load (hkept id hid),
    hidentity, fun a row i hrow hi => ?_, .inl hcolumns⟩
  obtain ⟨row', hrow', hid⟩ := hattachments.messageId a row hrow
  exact hrows i (hs.attachments a row' i hrow' (hid ▸ hi))

/-- What follows a step and keeps rows and attachments adds nothing to its effect. -/
theorem Effect.trans_same {s t u : MessageStore} {kept : Int → Prop} (h : Effect s t kept)
    (hcontent : SameContent t.system.db u.system.db)
    (hattachments : u.system.db.attachments = t.system.db.attachments)
    (hcolumns : u.columns = t.columns) : Effect s u kept := by
  have hrows : ∀ id, (t.system.db.messages.row id).isSome →
      (u.system.db.messages.row id).isSome := by
    intro id hid
    obtain ⟨m, hm⟩ := Option.isSome_iff_exists.mp hid
    obtain ⟨m', hm', -⟩ := hcontent id m hm
    simp [hm']
  have hload : ∀ id, u.system.db.loadMessageAttachmentIds id =
      t.system.db.loadMessageAttachmentIds id := by
    intro id
    simp only [Database.loadMessageAttachmentIds, hattachments]
  refine ⟨fun id m hkept hm => ?_, fun id hkept hm => ?_, fun id m hm => ?_,
    fun a row i hrow hi => ?_, ?_⟩
  · obtain ⟨m', hm', hp⟩ := h.content id m hkept hm
    obtain ⟨m'', hm'', hp'⟩ := hcontent id m' hm'
    exact ⟨m'', hm'', hp'.trans hp⟩
  · rw [hload, h.attachments id hkept hm]
  · obtain ⟨m', hm', hp⟩ := h.identity id m hm
    obtain ⟨m'', hm'', hp'⟩ := hcontent.identity id m' hm'
    exact ⟨m'', hm'', hp'.trans hp⟩
  · exact hrows i (h.references a row i (hattachments ▸ hrow) hi)
  · rw [hcolumns]
    exact h.columns.imp_right fun ⟨id, p, hfresh, hnew, hrow, heq⟩ =>
      ⟨id, p, hfresh, hnew, hrows id hrow, heq⟩

theorem insertSend_spec {s t : MessageStore} {now id : Int} {p : SendRequest}
    {outcome : SendMessageOutcome} (h : s.insertSend now id p = .ok (t, outcome)) :
    ∃ db sent, s.system.db.sendPreparedMessage now id p.toPreparedMessageSend = .ok (db, sent) ∧
      outcome = .created sent ∧
      t = { s with
        system := { s.system with db := db }
        columns := s.columns.upsert id p.columns } := by
  unfold insertSend at h
  split at h
  · cases h
  · next db sent hsend =>
    split at h
    · cases h
    · obtain ⟨rfl, rfl⟩ := Prod.mk.inj (Except.ok.inj h)
      exact ⟨db, sent, hsend, rfl, rfl⟩

theorem repeatSend_spec {s t : MessageStore} {existing : Int} {p : SendRequest}
    {outcome : SendMessageOutcome} (h : s.repeatSend existing p = .ok (t, outcome)) :
    t = s ∧ ∃ response, outcome = .duplicate response := by
  unfold repeatSend at h
  split at h
  · split at h
    · cases h
    · obtain ⟨rfl, rfl⟩ := Prod.mk.inj (Except.ok.inj h)
      exact ⟨rfl, _, rfl⟩
  · cases h

/-- A send answers a duplicate and changes nothing, or inserts under a new client id. -/
theorem sendPreparedMessage_cases {s t : MessageStore} {now id : Int} {p : SendRequest}
    {outcome : SendMessageOutcome} (h : s.sendPreparedMessage now id p = .ok (t, outcome)) :
    (t = s ∧ (∃ response, outcome = .duplicate response) ∧
        (s.existing p.clientGeneratedId).isSome) ∨
      s.checkRequest p = .ok () ∧ s.existing p.clientGeneratedId = none ∧
        s.insertSend now id p = .ok (t, outcome) := by
  unfold sendPreparedMessage at h
  split at h
  · cases h
  · next hcheck =>
    split at h
    · next existing hexisting =>
      obtain ⟨hsame, hduplicate⟩ := repeatSend_spec h
      exact .inl ⟨hsame, hduplicate, by simp [hexisting]⟩
    · next hnone => exact .inr ⟨hcheck, hnone, h⟩

/-- The rows after an insert: the new one, with the attachments it claimed. -/
theorem insertSend_effect {s t : MessageStore} {now id : Int} {p : SendRequest}
    {outcome : SendMessageOutcome} (hs : s.Constraints)
    (hnew : s.existing p.clientGeneratedId = none)
    (h : s.insertSend now id p = .ok (t, outcome)) (kept : Int → Prop) :
    Effect s t kept ∧ t.Stores id p := by
  obtain ⟨db, sent, hsend, -, rfl⟩ := insertSend_spec h
  obtain ⟨hcheck, hsame, -⟩ := sendPreparedMessage_spec hsend
  have hfresh := (checkSend_spec hcheck).1
  have hfree : ∀ a row, s.system.db.attachments.row a = some row → row.messageId ≠ some id := by
    intro a row hrow hid
    have hsome := hs.attachments a row id hrow hid
    rw [hfresh] at hsome
    cases hsome
  have hclaims := @insertMessage_claims _ now _ _ (checkSend_attachable hcheck) hfree
  have hmessages : db.messages = s.system.db.messages.upsert id (p.newMessage now) := hsame.messages
  have hrow : db.messages.row id = some (p.newMessage now) := by
    rw [hmessages, Table.upsert_row_self]
  have hcontent := sameContent_insert hfresh hmessages
  have hload : ∀ k, db.loadMessageAttachmentIds k =
      (s.system.db.insertMessage now id p.toPreparedMessageSend).loadMessageAttachmentIds k := by
    intro k
    simp only [Database.loadMessageAttachmentIds, hsame.attachments]
  have hrows : ∀ k, (s.system.db.messages.row k).isSome → (db.messages.row k).isSome := by
    intro k hk
    obtain ⟨m, hm⟩ := Option.isSome_iff_exists.mp hk
    obtain ⟨m', hm', -⟩ := hcontent k m hm
    simp [hm']
  refine ⟨⟨fun k m _ hm => hcontent k m hm, fun k _ hk => ?_, hcontent.identity,
    fun a row i ha hi => ?_, .inr ⟨id, p, hfresh, hnew, by simp [hrow], rfl⟩⟩, ?_, ?_⟩
  · have hne : k ≠ id := fun heq => by
      rw [heq, hfresh] at hk
      cases hk
    rw [hload k, hclaims.load_ne hne]
  · change db.attachments.row a = some row at ha
    rw [hsame.attachments] at ha
    rcases hclaims.reference ha hi with rfl | ⟨row', hrow', hi'⟩
    · simp [hrow]
    · exact hrows i (hs.attachments a row' i hrow' hi')
  · exact Table.upsert_row_self _ _ _
  · exact ⟨p.newMessage now, hrow, by rw [hload id, hclaims.load_self]; rfl⟩

theorem effect_of_same {s t : MessageStore} {kept : Int → Prop} (hs : s.Constraints)
    (h : SameRows s.system.db t.system.db) (hcolumns : t.columns = s.columns) :
    Effect s t kept :=
  @effect_of_rows s t kept [] hs (sameContent_of_messages h.messages)
    (attachmentsStay_of_eq h.attachments) (by simp) hcolumns

theorem sendPreparedMessage_effect {s t : MessageStore} {now id : Int} {p : SendRequest}
    {outcome : SendMessageOutcome} (hs : s.Constraints)
    (h : s.sendPreparedMessage now id p = .ok (t, outcome)) (kept : Int → Prop) :
    Effect s t kept := by
  rcases sendPreparedMessage_cases h with ⟨rfl, -⟩ | ⟨-, hnew, hinsert⟩
  · exact effect_of_same hs ⟨rfl, rfl⟩ rfl
  · exact (insertSend_effect hs hnew hinsert kept).1

/-- Preparing a forward stores a bundle at most. -/
theorem prepareForwardMessage_same {s t : MessageStore} {now bundleId uid destinationChatId : Int}
    {body : ForwardMessagesBody} {prepared : PreparedForward}
    (h : s.prepareForwardMessage now bundleId uid destinationChatId body = .ok (t, prepared)) :
    t.system = s.system ∧ t.columns = s.columns := by
  unfold prepareForwardMessage at h
  split at h
  · cases h
  · split at h
    · next existing _ =>
      cases hr : s.repeatForward existing uid destinationChatId body _ with
      | error e =>
        rw [hr] at h
        cases h
      | ok prepared' =>
        rw [hr] at h
        obtain ⟨rfl, -⟩ := Prod.mk.inj (Except.ok.inj h)
        exact ⟨rfl, rfl⟩
    · simp only [captureForward] at h
      split at h
      · cases h
      split at h
      · cases h
      split at h
      · cases h
      split at h
      · cases h
      obtain ⟨rfl, -⟩ := Prod.mk.inj (Except.ok.inj h)
      exact ⟨rfl, rfl⟩

/-- A forward is a preparation, a send, and for a new message what its readers need. -/
theorem forwardMessages_spec {s t : MessageStore} {now id bundleId uid destinationChatId : Int}
    {hidden : Bool} {body : ForwardMessagesBody}
    (h : s.forwardMessages now id bundleId uid destinationChatId hidden body = .ok t) :
    ∃ captured prepared sent outcome,
      s.prepareForwardMessage now bundleId uid destinationChatId body = .ok (captured, prepared) ∧
      captured.sendPreparedMessage now id prepared.request = .ok (sent, outcome) ∧
      SameContent sent.system.db t.system.db ∧
      t.system.db.attachments = sent.system.db.attachments ∧ t.columns = sent.columns ∧
      t.forwardedBundles = sent.forwardedBundles := by
  unfold forwardMessages at h
  split at h
  · cases h
  · next root hroot =>
    split at h
    · cases h
    · next captured prepared hprepare =>
      split at h
      · cases h
      · next sent response hsend =>
        obtain rfl := Except.ok.inj h
        exact ⟨captured, prepared, _, _, hprepare, hsend, sameContent_of_messages rfl, rfl, rfl,
          rfl⟩
      · next sent result hsend =>
        obtain rfl := Except.ok.inj h
        refine ⟨captured, prepared, sent, _, hprepare, hsend, ?_, ?_, rfl, rfl⟩
        · dsimp only
          split
          · exact recordThreadSend_sameContent _ _ _ _ _ _ _ _
          · exact sameContent_of_messages rfl
        · dsimp only
          split
          · next m threadId _ =>
            rw [recordThreadSend_eq]
            exact (readersRecorded_same sent.system.db now result.response result.memberUids
              threadId m false).attachments
          · rfl

theorem forwardMessages_effect {s t : MessageStore}
    {now id bundleId uid destinationChatId : Int} {hidden : Bool} {body : ForwardMessagesBody}
    (hs : s.Constraints)
    (h : s.forwardMessages now id bundleId uid destinationChatId hidden body = .ok t)
    (kept : Int → Prop) : Effect s t kept := by
  obtain ⟨captured, prepared, sent, outcome, hprepare, hsend, hcontent, hattachments, hcolumns, -⟩ :=
    forwardMessages_spec h
  obtain ⟨hsystem, hsame⟩ := prepareForwardMessage_same hprepare
  have hcaptured : Effect s captured kept :=
    effect_of_same hs (by rw [hsystem]; exact ⟨rfl, rfl⟩) hsame
  have hsent := sendPreparedMessage_effect (hcaptured.constraints hs) hsend kept
  have hexisting : ∀ clientGeneratedId, captured.existing clientGeneratedId =
      s.existing clientGeneratedId := by
    intro clientGeneratedId
    simp only [existing, hsame]
  have hfrom : Effect s sent kept := by
    have hcontent := hsent.content
    have hload := hsent.attachments
    have hidentity := hsent.identity
    have hnew := hsent.columns
    rw [hsystem] at hcontent hload hidentity hnew
    simp only [hexisting, hsame] at hnew
    exact ⟨hcontent, hload, hidentity, hsent.references, hnew⟩
  exact hfrom.trans_same hcontent hattachments hcolumns

end MessageStore

/-- The messages whose attachments an event may delete. -/
def Event.touched : Event → List Int
  | .deleteSelection _ _ _ _ ids => ids
  | _ => []

theorem System.step_keeps {s t : System} {e : Event} (hkeeps : e.keepsMessages = true)
    (h : s.step e = some t) :
    SameContent s.db t.db ∧ AttachmentsStay s.db t.db e.touched := by
  cases e with
  | deleteMessage now uid chatId messageId =>
    obtain ⟨db, hr, rfl⟩ := commitDelete_spec h
    obtain ⟨marked, reconciled, targets, shifted, hsteps⟩ := deleteMessage_deletion hr
    exact ⟨hsteps.sameContent, attachmentsStay_of_eq (deleteMessage_attachments hr)⟩
  | deleteSelection now chatId uid isAdmin ids =>
    obtain ⟨db, hr, rfl⟩ := commitDelete_spec h
    obtain ⟨marked, reconciled, targets, shifted, hsteps⟩ := deleteSelection_deletion hr
    exact ⟨hsteps.sameContent, deleteSelection_attachments hr⟩
  | loadAudio job messageId transcoded =>
    simp only [step] at h
    split at h
    · cases h
    · obtain ⟨loaded, -, rfl⟩ := Option.map_eq_some_iff.mp h
      exact ⟨sameContent_of_messages rfl, attachmentsStay_of_eq rfl⟩
  | publishAudio job =>
    simp only [step, publish] at h
    split at h
    · next messageId message attachment outcome _ =>
      cases hr : s.db.publishAudio messageId message outcome with
      | error e => simp [hr, Except.toOption] at h
      | ok r =>
        obtain rfl : _ = t := by simpa [hr, Except.toOption] using h
        exact ⟨publishAudio_sameContent hr, publishAudio_attachments hr⟩
    · cases h
  | finishAudio job =>
    simp only [step, finish] at h
    split at h
    · next messageId message updated attachment outcome _ =>
      obtain rfl := Option.some.inj h
      have hsame := audioSideEffects_same s.db messageId message updated attachment outcome
      exact ⟨sameContent_of_messages hsame.messages, attachmentsStay_of_eq hsame.attachments⟩
    · cases h
  | _ => cases hkeeps

namespace MessageStore

/-- An event leaves what was sent of a message as it is: an edit of it changes neither its text nor
its attachments, and no selection it is deleted with takes attachments from it. -/
def Keeps (messageId : Int) (s : MessageStore) : StoreEvent → Prop
  | .edit _ _ _ id body => id = messageId →
      (∀ m, s.system.db.messages.row messageId = some m → m.message = some body.message) ∧
        s.system.db.loadMessageAttachmentIds messageId = body.attachmentIds
  | .system (.deleteSelection _ _ _ _ ids) => messageId ∈ ids →
      s.system.db.loadMessageAttachmentIds messageId = []
  | _ => True

theorem patchMessage_effect {s t : MessageStore} {now uid chatId messageId : Int}
    {body : UpdateMessageBody} (hs : s.Constraints)
    (h : s.patchMessage now uid chatId messageId body = .ok t) :
    Effect s t fun id => Keeps id s (.edit now uid chatId messageId body) := by
  cases hr : s.system.db.patchMessage s.columns now uid chatId messageId body with
  | error e => simp [patchMessage, hr, Except.map] at h
  | ok db =>
    obtain rfl : _ = t := by simpa [patchMessage, hr, Except.map] using h
    unfold Database.patchMessage at hr
    split at hr
    · cases hr
    · next message hcheck =>
      obtain ⟨hrow, heditable⟩ := checkPatch_spec hcheck
      have hclaims := replaceAttachments_claims heditable
      have hsync := syncEditedMessageMentions_sameRows
        ((s.system.db.replaceAttachments messageId body.attachmentIds).setMessageText messageId
          body.message) now messageId message body.message uid
      rw [Except.ok.inj hr] at hsync
      have hmessages : ∀ id, db.messages.row id = (s.system.db.messages.row id).map fun m =>
          if id = messageId then { m with message := some body.message } else m := by
        intro id
        rw [hsync.messages]
        change (s.system.db.messages.updateWhere _ _).row id = _
        simp only [Table.updateWhere_row, decide_eq_true_eq]
      have hload : ∀ id, db.loadMessageAttachmentIds id =
          (s.system.db.replaceAttachments messageId body.attachmentIds).loadMessageAttachmentIds
            id := by
        intro id
        simp only [Database.loadMessageAttachmentIds, hsync.attachments]
        rfl
      have hrows : ∀ id, (s.system.db.messages.row id).isSome → (db.messages.row id).isSome := by
        intro id hid
        simpa [hmessages id] using hid
      refine ⟨fun id m hkept hm => ?_, fun id hkept _ => ?_, fun id m hm => ?_,
        fun a row i ha hi => ?_, .inl rfl⟩
      · refine ⟨_, (hmessages id).trans (by rw [hm]; rfl), ?_⟩
        by_cases hid : id = messageId
        · have htext := (hkept hid.symm).1 m hm
          simp only [if_pos hid]
          funext columns attachmentIds
          simp only [rowPayload, htext]
        · simp only [if_neg hid]
      · change db.loadMessageAttachmentIds id = s.system.db.loadMessageAttachmentIds id
        rw [hload id]
        by_cases hid : id = messageId
        · rw [(hkept hid.symm).2, hid, hclaims.load_self]
        · exact hclaims.load_ne hid
      · refine ⟨_, (hmessages id).trans (by rw [hm]; rfl), ?_⟩
        by_cases hid : id = messageId
        · simp only [if_pos hid]
          rfl
        · simp only [if_neg hid]
      · change db.attachments.row a = some row at ha
        rw [hsync.attachments] at ha
        rcases hclaims.reference ha hi with rfl | ⟨row', hrow', hi'⟩
        · exact hrows i (by simp [hrow])
        · exact hrows i (hs.attachments a row' i hrow' hi')

/-- What a step does to every message that it keeps. -/
theorem step_effect {s t : MessageStore} {e : StoreEvent} (hs : s.Constraints)
    (h : s.step e = some t) : Effect s t fun id => Keeps id s e := by
  cases e with
  | send now id p =>
    cases hr : s.sendPreparedMessage now id p with
    | error e => simp [step, hr, Except.toOption] at h
    | ok r =>
      obtain rfl : r.1 = t := by simpa [step, hr, Except.toOption] using h
      exact sendPreparedMessage_effect hs hr _
  | forward now id bundleId uid destinationChatId hidden body =>
    cases hr : s.forwardMessages now id bundleId uid destinationChatId hidden body with
    | error e => simp [step, hr, Except.toOption] at h
    | ok r =>
      obtain rfl : r = t := by simpa [step, hr, Except.toOption] using h
      exact forwardMessages_effect hs hr _
  | edit now uid chatId messageId body =>
    cases hr : s.patchMessage now uid chatId messageId body with
    | error e => simp [step, hr, Except.toOption] at h
    | ok r =>
      obtain rfl : r = t := by simpa [step, hr, Except.toOption] using h
      exact patchMessage_effect hs hr
  | system e =>
    simp only [step] at h
    split at h
    · next hkeeps =>
      obtain ⟨system, hsystem, rfl⟩ := Option.map_eq_some_iff.mp h
      obtain ⟨hcontent, hattachments⟩ := System.step_keeps hkeeps hsystem
      refine effect_of_rows hs hcontent hattachments (fun id hkept hid => ?_) rfl
      cases e with
      | deleteSelection now chatId uid isAdmin ids => exact hkept hid
      | _ => simp [Event.touched] at hid
    · cases h
  | leave chatId uid =>
    obtain rfl := Option.some.inj h
    exact effect_of_same hs ⟨rfl, rfl⟩ rfl

theorem run_constraints {s t : MessageStore} {es : List StoreEvent} (hs : s.Constraints)
    (h : run step s es = some t) : t.Constraints :=
  run_invariant (fun _ _ _ hs h => (step_effect hs h).constraints hs) hs h

/-- What was sent stays stored in every run whose steps keep it. -/
theorem run_stores {s t : MessageStore} {es : List StoreEvent} {id : Int} {p : SendRequest}
    (hs : s.Constraints) (hp : s.Stores id p) (hes : Along step (Keeps id) s es)
    (h : run step s es = some t) : t.Stores id p :=
  (run_invariant_along (I := fun s => s.Constraints ∧ s.Stores id p)
    (fun _ _ _ hi hok he => ⟨(step_effect hi.1 he).constraints hi.1,
      (step_effect hi.1 he).stores hok hi.2⟩) ⟨hs, hp⟩ hes h).2

theorem Stores.repeatSend_same {s : MessageStore} {id : Int} {p : SendRequest}
    (hp : s.Stores id p) : ∃ m, s.repeatSend id p =
      .ok (s, .duplicate (s.system.db.attachMetadata id m)) := by
  obtain ⟨m, hm, hpayload⟩ := hp.payload
  refine ⟨m, ?_⟩
  unfold repeatSend
  simp only [hm, hp.columns, validateIdempotentMessagePayload_eq, hpayload, if_true]

theorem Stores.repeatSend_other {s : MessageStore} {id : Int} {p q : SendRequest}
    (hp : s.Stores id p) (hother : q.payload ≠ p.payload) : s.repeatSend id q =
      .error (.conflict "clientGeneratedId already exists with different payload") := by
  obtain ⟨m, hm, hpayload⟩ := hp.payload
  have hne : rowPayload m p.columns (s.system.db.loadMessageAttachmentIds id) ≠ q.payload :=
    fun heq => hother (heq.symm.trans hpayload)
  unfold repeatSend
  simp only [hm, hp.columns, validateIdempotentMessagePayload_eq, if_neg hne]

theorem checkRequest_shape {s : MessageStore} {p : SendRequest} (h : s.checkRequest p = .ok ()) :
    ¬ (p.messageType = .placeholder ∧ (p.attachmentIds ≠ [] ∨ p.forwardedBundleId.isSome)) ∧
      validateMessageShape p.messageType p.message p.stickerId = .ok () := by
  unfold checkRequest at h
  split at h
  · cases h
  · next hplaceholder =>
    split at h
    · cases h
    · exact ⟨hplaceholder, h⟩

/-- As long as no edit changes a message and no selection takes its attachments, its request is
answered with it, and any other request under its client id is refused. -/
theorem retry_exactly_once {s created t : MessageStore} {now id : Int} {p : SendRequest}
    {sent : SendMessageResult} {es : List StoreEvent} (hs : s.Constraints)
    (hcreate : s.sendPreparedMessage now id p = .ok (created, .created sent))
    (hes : Along step (Keeps id) created es) (h : run step created es = some t) :
    (∀ now' id', p.replyToId.elim (.ok ()) (t.system.db.validateReplyTarget p.chatId
        p.replyRootId) = .ok () →
      ∃ response, t.sendPreparedMessage now' id' p = .ok (t, .duplicate response) ∧
        response.id = sent.response.id) ∧
    ∀ now' id' q, q.clientGeneratedId = p.clientGeneratedId → q.payload ≠ p.payload →
      ∃ e, t.sendPreparedMessage now' id' q = .error e ∧ (t.checkRequest q = .ok () →
        e = .conflict "clientGeneratedId already exists with different payload") := by
  rcases sendPreparedMessage_cases hcreate with
    ⟨-, ⟨response, hduplicate⟩, -⟩ | ⟨hcheck, hnew, hinsert⟩
  · cases hduplicate
  obtain ⟨heffect, hstores⟩ := insertSend_effect hs hnew hinsert fun _ => True
  have hconstraints := heffect.constraints hs
  have ht := run_stores hconstraints hstores hes h
  have hexisting : t.existing p.clientGeneratedId = some id :=
    (run_constraints hconstraints h).existing ht.columns
  have hid : sent.response.id = id := by
    obtain ⟨db, sent', hsend, houtcome, -⟩ := insertSend_spec hinsert
    obtain rfl := SendMessageOutcome.created.inj houtcome
    obtain ⟨-, -, hresponse⟩ := sendPreparedMessage_spec hsend
    rw [hresponse]
    rfl
  refine ⟨fun now' id' hreply => ?_, fun now' id' q hclient hother => ?_⟩
  · obtain ⟨hplaceholder, hshape⟩ := checkRequest_shape hcheck
    have hagain : t.checkRequest p = .ok () := by
      unfold checkRequest
      rw [if_neg hplaceholder, hreply]
      exact hshape
    obtain ⟨m, hrepeat⟩ := ht.repeatSend_same
    refine ⟨t.system.db.attachMetadata id m, ?_, hid.symm⟩
    unfold sendPreparedMessage
    simp only [hagain, hexisting, hrepeat]
  · unfold sendPreparedMessage
    rw [hclient, hexisting]
    cases hq : t.checkRequest q with
    | error e => exact ⟨e, rfl, fun hok => by cases hok⟩
    | ok _ => exact ⟨_, ht.repeatSend_other hother, fun _ => rfl⟩

/-- A chat of two, and a text by the first of them. -/
def retryStart : MessageStore where
  system := .start (.newGroup 1 [(7, .member), (8, .member)])
  columns := .empty
  forwardedBundles := .empty
  stickers := .empty

def retryRequest : SendRequest where
  systemKind := none
  forwardedFromMessageId := none
  chatId := 1
  senderUid := 7
  message := some "hello"
  messageType := .text
  replyToId := none
  replyRootId := none
  attachmentIds := []
  publishImmediately := true
  clientGeneratedId := "client-1"
  stickerId := none
  forwardedBundleId := none

theorem retryStart_constraints : retryStart.Constraints where
  unique := fun i j ci cj hi => by cases hi
  columns := fun i c hi => by cases hi
  attachments := fun a row i ha => by cases ha

/-- A retry after the message was recalled. -/
theorem retry_exactly_once_recalled : ∃ created sent t,
    retryStart.sendPreparedMessage 5 10 retryRequest = .ok (created, .created sent) ∧
    run step created [.system (.deleteMessage 6 7 1 10)] = some t ∧
    ∃ response, t.sendPreparedMessage 7 11 retryRequest = .ok (t, .duplicate response) ∧
      response.id = sent.response.id :=
  ⟨_, _, _, rfl, rfl, (@retry_exactly_once retryStart _ _ 5 10 retryRequest _
    [.system (.deleteMessage 6 7 1 10)] retryStart_constraints rfl
    (.cons rfl trivial trivial) rfl).1 7 11 rfl⟩

/-- An edit makes the same request a conflict. -/
theorem retry_after_edit_conflicts : ∃ created sent t,
    retryStart.sendPreparedMessage 5 10 retryRequest = .ok (created, .created sent) ∧
    run step created [.edit 6 7 1 10 ⟨"hello!", []⟩] = some t ∧
    t.sendPreparedMessage 7 11 retryRequest =
      .error (.conflict "clientGeneratedId already exists with different payload") :=
  ⟨_, _, _, rfl, rfl, rfl⟩

end MessageStore

end Chahua.Messages

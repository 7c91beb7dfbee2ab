import Chahua.Messages.ThreadMeta
import Chahua.Messages.SingleDelete

namespace Chahua.Messages

open Framework

/-- A message a chat reader can be on. -/
def ChatAddressable (db : Database) (chatId id : Int) : Prop :=
  ∃ m, db.messages.row id = some m ∧ inChatWindow chatId m = true

/-- A message a thread reader can be on. -/
def ThreadAddressable (db : Database) (rootId id : Int) : Prop :=
  ∃ m, db.messages.row id = some m ∧ m.replyRootId = some rootId ∧ m.isLive = true

namespace Database

def chatPointer (db : Database) (key : Int × Int) : Option Int :=
  (db.groupMembership.row key).bind (·.lastReadMessageId)

def threadPointer (db : Database) (key : Int × Int × Int) : Option Int :=
  (db.threadUserStates.row key).bind (·.lastReadMessageId)

end Database

structure PointersAddressable (db : Database) : Prop where
  chat : ∀ chatId uid last, db.chatPointer (chatId, uid) = some last →
    ChatAddressable db chatId last
  thread : ∀ chatId rootId uid last, db.threadPointer (chatId, rootId, uid) = some last →
    ThreadAddressable db rootId last

/-- The root of every reply is a message of its chat. -/
def RepliesInChat (db : Database) : Prop :=
  ∀ id m rootId, db.messages.row id = some m → m.replyRootId = some rootId →
    ∃ root, db.messages.row rootId = some root ∧ root.chatId = m.chatId

/-- No row becomes less visible. -/
structure RowGrows (m m' : Message) : Prop where
  deletedAt : m'.deletedAt = m.deletedAt
  hasThread : m.hasThread = true → m'.hasThread = true
  published : m.isPublished = true → m'.isPublished = true
  chatId : m'.chatId = m.chatId
  replyRootId : m'.replyRootId = m.replyRootId

theorem rowGrows_refl (m : Message) : RowGrows m m := ⟨rfl, fun h => h, fun h => h, rfl, rfl⟩

theorem RowGrows.trans {a b c : Message} (h : RowGrows a b) (h' : RowGrows b c) : RowGrows a c where
  deletedAt := h'.deletedAt.trans h.deletedAt
  hasThread := fun hx => h'.hasThread (h.hasThread hx)
  published := fun hx => h'.published (h.published hx)
  chatId := h'.chatId.trans h.chatId
  replyRootId := h'.replyRootId.trans h.replyRootId

theorem RowGrows.inChatWindow {m m' : Message} (h : RowGrows m m') {chatId : Int}
    (hm : inChatWindow chatId m = true) : inChatWindow chatId m' = true := by
  obtain ⟨hchat, hroot, hshown, hpublished⟩ := inChatWindow_iff.mp hm
  exact inChatWindow_iff.mpr ⟨h.chatId.trans hchat, h.replyRootId.trans hroot,
    hshown.imp h.deletedAt.trans h.hasThread, h.published hpublished⟩

theorem RowGrows.isLive {m m' : Message} (h : RowGrows m m') (hm : m.isLive = true) :
    m'.isLive = true := by
  simp only [Message.isLive, Bool.and_eq_true] at hm ⊢
  exact ⟨h.deletedAt ▸ hm.1, h.published hm.2⟩

/-- Rows grow, and a new one is no reply or a reply to a message of its chat. -/
structure RowsGrow (db db' : Database) : Prop where
  old : ∀ id m, db.messages.row id = some m → ∃ m', db'.messages.row id = some m' ∧ RowGrows m m'
  new : ∀ id m', db.messages.row id = none → db'.messages.row id = some m' →
    ∀ rootId, m'.replyRootId = some rootId →
      ∃ root, db.messages.row rootId = some root ∧ root.chatId = m'.chatId

section Grow

variable {db db' : Database}

theorem rowsGrow_of_messages (h : db'.messages = db.messages) : RowsGrow db db' where
  old := fun id m hm => ⟨m, by rw [h, hm], rowGrows_refl m⟩
  new := fun id m' hnone hsome => by
    rw [h, hnone] at hsome
    cases hsome

theorem rowsGrow_of_map {f : Int → Message → Message}
    (h : ∀ id, db'.messages.row id = (db.messages.row id).map (f id))
    (hf : ∀ id m, RowGrows m (f id m)) : RowsGrow db db' where
  old := fun id m hm => ⟨f id m, by rw [h, hm, Option.map_some], hf id m⟩
  new := fun id m' hnone hsome => by
    rw [h, hnone] at hsome
    cases hsome

theorem rowsGrow_insert {id : Int} {m : Message} (hfresh : db.messages.row id = none)
    (h : db'.messages = db.messages.upsert id m)
    (hroot : ∀ rootId, m.replyRootId = some rootId →
      ∃ root, db.messages.row rootId = some root ∧ root.chatId = m.chatId) : RowsGrow db db' where
  old := fun k row hk => by
    have hne : k ≠ id := fun heq => by
      rw [heq, hfresh] at hk
      cases hk
    exact ⟨row, by rw [h, Table.upsert_row_ne _ m hne, hk], rowGrows_refl row⟩
  new := fun k m' hnone hsome => by
    rw [h, Table.upsert_row] at hsome
    split at hsome
    · exact Option.some.inj hsome ▸ hroot
    · rw [hnone] at hsome
      cases hsome

/-- Rows that were added or grew grow again. -/
theorem RowsGrow.map {a b c : Database} (h : RowsGrow a b) {f : Int → Message → Message}
    (hmap : ∀ id, c.messages.row id = (b.messages.row id).map (f id))
    (hf : ∀ id m, RowGrows m (f id m)) : RowsGrow a c where
  old := fun id m hm => by
    obtain ⟨m', hm', hgrows⟩ := h.old id m hm
    exact ⟨f id m', by rw [hmap, hm', Option.map_some], hgrows.trans (hf id m')⟩
  new := fun id m'' hnone hsome rootId hroot => by
    rw [hmap] at hsome
    obtain ⟨m', hm', rfl⟩ := Option.map_eq_some_iff.mp hsome
    rw [(hf id m').replyRootId] at hroot
    obtain ⟨root, hrow, hchat⟩ := h.new id m' hnone hm' rootId hroot
    exact ⟨root, hrow, hchat.trans (hf id m').chatId.symm⟩

theorem RowsGrow.setHasThread {a b : Database} (h : RowsGrow a b) (rootId : Int) :
    RowsGrow a (b.setHasThread rootId true) := by
  refine h.map (b.setHasThread_row rootId true) fun id m => ?_
  split
  · exact ⟨rfl, fun _ => rfl, fun h => h, rfl, rfl⟩
  · exact rowGrows_refl m

theorem RowsGrow.congr {a b c : Database} (h : RowsGrow a b) (hmessages : c.messages = b.messages) :
    RowsGrow a c where
  old := by
    rw [hmessages]
    exact h.old
  new := by
    rw [hmessages]
    exact h.new

theorem RowsGrow.repliesInChat (h : RowsGrow db db') (hdb : RepliesInChat db) :
    RepliesInChat db' := by
  intro id m' rootId hm' hroot
  have hold : ∃ root, db.messages.row rootId = some root ∧ root.chatId = m'.chatId := by
    cases hm : db.messages.row id with
    | none => exact h.new id m' hm hm' rootId hroot
    | some m =>
      obtain ⟨m'', hm'', hgrows⟩ := h.old id m hm
      obtain rfl := Option.some.inj (hm''.symm.trans hm')
      obtain ⟨root, hrow, hchat⟩ := hdb id m rootId hm (hgrows.replyRootId.symm.trans hroot)
      exact ⟨root, hrow, hchat.trans hgrows.chatId.symm⟩
  obtain ⟨root, hrow, hchat⟩ := hold
  obtain ⟨root', hrow', hgrows⟩ := h.old rootId root hrow
  exact ⟨root', hrow', hgrows.chatId.trans hchat⟩

theorem RowsGrow.chatAddressable (h : RowsGrow db db') {chatId id : Int}
    (hid : ChatAddressable db chatId id) : ChatAddressable db' chatId id := by
  obtain ⟨m, hm, hwindow⟩ := hid
  obtain ⟨m', hm', hgrows⟩ := h.old id m hm
  exact ⟨m', hm', hgrows.inChatWindow hwindow⟩

theorem RowsGrow.threadAddressable (h : RowsGrow db db') {rootId id : Int}
    (hid : ThreadAddressable db rootId id) : ThreadAddressable db' rootId id := by
  obtain ⟨m, hm, hroot, hlive⟩ := hid
  obtain ⟨m', hm', hgrows⟩ := h.old id m hm
  exact ⟨m', hm', hgrows.replyRootId.trans hroot, hgrows.isLive hlive⟩

end Grow

section Sends

variable {db db' : Database} {now id : Int} {p : PreparedMessageSend} {outputs : List Output}

theorem sendToThread_rowsGrow {threadId : Int} {notifyMentions : Bool}
    (h : db.sendToThread now id threadId notifyMentions p = .ok (db', outputs)) :
    RowsGrow db db' := by
  obtain ⟨root, sent, result, hroot, hwindow, hcheck, hsame, -, rfl⟩ := sendToThread_spec h
  have hinsert : RowsGrow db (sent.readersRecorded now result.response result.memberUids threadId
      root notifyMentions) := by
    refine rowsGrow_insert (checkSend_spec hcheck).1
      ((readersRecorded_same _ _ _ _ _ _ _).messages.trans hsame.messages) fun rootId hreply => ?_
    obtain rfl := Option.some.inj hreply
    exact ⟨root, hroot, (inChatWindow_iff.mp hwindow).1⟩
  rw [recordThreadSend_eq]
  split
  · refine RowsGrow.setHasThread ?_ threadId
    exact hinsert.congr rfl
  · exact hinsert

/-- A thread announcement is a reply to a message of its chat. -/
theorem sendPinSystemMessage_rowsGrow {announcementId : Option Int}
    (hreply : p.replyToId = p.replyRootId)
    (h : db.sendPinSystemMessage now announcementId p = (db', outputs)) : RowsGrow db db' := by
  unfold Database.sendPinSystemMessage at h
  split at h
  · obtain ⟨rfl, -⟩ := Prod.mk.inj h
    exact rowsGrow_of_messages rfl
  · split at h
    · obtain ⟨rfl, -⟩ := Prod.mk.inj h
      exact rowsGrow_of_messages rfl
    · next sent result hsend =>
      obtain ⟨rfl, -⟩ := Prod.mk.inj h
      obtain ⟨hcheck, hsame, -⟩ := sendPreparedMessage_spec hsend
      obtain ⟨hfresh, htarget⟩ := checkSend_spec hcheck
      refine rowsGrow_insert hfresh hsame.messages fun rootId hroot => ?_
      obtain ⟨root, hrow, hchat, -⟩ := htarget rootId (hreply.trans hroot)
      exact ⟨root, hrow, hchat⟩

theorem publishAudio_rowsGrow {messageId : Int} {message updated : Message}
    {outcome : AudioPublishOutcome}
    (h : db.publishAudio messageId message outcome = .ok (db', updated)) : RowsGrow db db' := by
  have hrow : RowsGrow db ((db.swapAttachment outcome).setPublished messageId outcome) := by
    refine rowsGrow_of_map (setPublished_row db messageId outcome) fun id m => ?_
    split
    · exact ⟨rfl, fun h => h, fun _ => rfl, rfl, rfl⟩
    · exact rowGrows_refl m
  obtain ⟨m, -, -, ⟨-, rfl⟩ | ⟨-, -, rfl⟩ | ⟨-, rootId, -, rfl⟩⟩ := publishAudio_spec h
  · exact hrow
  · exact hrow.congr rfl
  · refine RowsGrow.setHasThread ?_ rootId
    exact hrow.congr rfl

/-- Only deletions make a message less visible. -/
theorem System.Next.rowsGrow {s t : System} {e : Event} (h : s.Next e t)
    (hdelete : e.isDelete = false) : RowsGrow s.db t.db := by
  cases h with
  | toChat now id hidden p db outputs sends sent =>
    obtain ⟨db₁, hcheck, hsame, rfl⟩ := sendToChat_spec sent
    exact rowsGrow_insert (checkSend_spec hcheck).1 hsame.messages fun rootId hroot => nomatch hroot
  | toThread now id threadId notifyMentions p db outputs sends sent =>
    exact sendToThread_rowsGrow sent
  | pin now announcementId p pins db outputs sends announces reply announced =>
    have hpins : RowsGrow { s.db with pinnedMessages := pins } db :=
      sendPinSystemMessage_rowsGrow reply.2.2 announced
    exact ⟨hpins.old, hpins.new⟩
  | delete chatId marked reconciled db targets shifted deletes deleted =>
    rw [hdelete] at deletes
    cases deletes
  | load => exact rowsGrow_of_messages rfl
  | publish job messageId message updated attachment outcome db loaded published =>
    exact publishAudio_rowsGrow published
  | finish job messageId message updated attachment outcome published =>
    exact rowsGrow_of_messages (audioSideEffects_same _ _ _ _ _ _).messages

end Sends

section Readers

variable {db : Database} {now chatId rootId uid : Int}

theorem ensureThreadUserState_pointer (subscribed : Bool) (key : Int × Int × Int) :
    (db.ensureThreadUserState now chatId rootId uid subscribed).1.threadPointer key =
      db.threadPointer key := by
  unfold Database.ensureThreadUserState
  split
  · rfl
  · next hnone =>
    simp only [Database.threadPointer, Table.upsert_row]
    split
    · next hkey => simp [hkey, hnone]
    · rfl

theorem ensureThreadSubscription_pointer (key : Int × Int × Int) :
    (db.ensureThreadSubscription now chatId rootId uid).1.threadPointer key =
      db.threadPointer key := by
  unfold Database.ensureThreadSubscription
  split
  · next state hstate =>
    split
    · rfl
    · simp only [Database.threadPointer, Table.upsert_row]
      split
      · next hkey => simp [hkey, hstate]
      · rfl
  · exact ensureThreadUserState_pointer true key

theorem subscribeMentioned_pointer (memberUids mentioned : List Int) (key : Int × Int × Int) :
    (db.subscribeMentioned now chatId rootId uid memberUids mentioned).1.threadPointer key =
      db.threadPointer key := by
  induction mentioned generalizing db with
  | nil => rfl
  | cons m mentioned ih =>
    unfold Database.subscribeMentioned
    split
    · exact ih.trans (ensureThreadSubscription_pointer key)
    · exact ih

theorem markThreadAsRead_pointer (messageId : Int) (key : Int × Int × Int) :
    (db.markThreadAsRead chatId rootId uid messageId).threadPointer key = db.threadPointer key ∨
      key = (chatId, rootId, uid) ∧ advances (db.threadPointer key) messageId = true ∧
        (db.markThreadAsRead chatId rootId uid messageId).threadPointer key = some messageId := by
  change ((db.threadUserStates.updateWhere _ _).row key).bind _ = _ ∨ _ ∧ _ ∧
    ((db.threadUserStates.updateWhere _ _).row key).bind _ = _
  rw [Table.updateWhere_row, Database.threadPointer]
  cases db.threadUserStates.row key with
  | none => exact .inl rfl
  | some state =>
    simp only [Option.map_some, Option.bind_some, Bool.and_eq_true, decide_eq_true_eq]
    split
    · next hadvance => exact .inr ⟨hadvance.1, hadvance.2, rfl⟩
    · exact .inl rfl

/-- A thread send moves its sender's pointer at most. -/
theorem readersRecorded_pointer (response : MessageResponse) (memberUids : List Int) (root : Message)
    (notifyMentions : Bool) (key : Int × Int × Int) :
    (db.readersRecorded now response memberUids rootId root notifyMentions).threadPointer key =
        db.threadPointer key ∨
      key = (response.chatId, rootId, response.senderUid) ∧
        advances (db.threadPointer key) response.id = true ∧
        (db.readersRecorded now response memberUids rootId root notifyMentions).threadPointer key =
          some response.id := by
  have hmark := @markThreadAsRead_pointer
    (db.ensureThreadSubscription now response.chatId rootId response.senderUid).1 response.chatId
    rootId response.senderUid response.id key
  rw [ensureThreadSubscription_pointer] at hmark
  have hrest : (db.readersRecorded now response memberUids rootId root
      notifyMentions).threadPointer key =
        ((db.ensureThreadSubscription now response.chatId rootId
          response.senderUid).1.markThreadAsRead response.chatId rootId response.senderUid
            response.id).threadPointer key := by
    unfold Database.readersRecorded
    dsimp only
    split <;> split <;>
      simp only [subscribeMentioned_pointer, ensureThreadUserState_pointer]
  rw [hrest]
  exact hmark

theorem markChatAsRead_pointer (hidden : Bool) (messageId : Int) (key : Int × Int) :
    (db.markChatAsRead hidden chatId uid messageId).chatPointer key = db.chatPointer key ∨
      key = (chatId, uid) ∧ (db.groupMembership.row key).isSome = true ∧
        advances (db.chatPointer key) (db.readBoundary hidden chatId messageId) = true ∧
        (db.markChatAsRead hidden chatId uid messageId).chatPointer key =
          some (db.readBoundary hidden chatId messageId) := by
  change ((db.groupMembership.updateWhere _ _).row key).bind _ = _ ∨ _ ∧ _ ∧ _ ∧
    ((db.groupMembership.updateWhere _ _).row key).bind _ = _
  rw [Table.updateWhere_row, Database.chatPointer]
  cases db.groupMembership.row key with
  | none => exact .inl rfl
  | some gm =>
    simp only [Option.map_some, Option.bind_some, Bool.and_eq_true, decide_eq_true_eq]
    split
    · next hadvance => exact .inr ⟨hadvance.1, rfl, hadvance.2, rfl⟩
    · exact .inl rfl

/-- The read boundary of a message is the message or a message of the window. -/
theorem readBoundary_addressable (hidden : Bool) (messageId : Int) :
    db.readBoundary hidden chatId messageId = messageId ∨
      ChatAddressable db chatId (db.readBoundary hidden chatId messageId) := by
  unfold Database.readBoundary
  split
  · unfold Database.skipHiddenMembershipTail
    dsimp only
    generalize (db.messages.oldest _).getD _ = bound
    cases hnewest : db.messages.newest fun id m => decide (messageId < id) &&
        decide (id < bound) && inChatWindow chatId m with
    | none => exact .inl rfl
    | some last =>
      obtain ⟨m, hm, hp⟩ := Table.mem_select.mp (Table.newest_eq_some.mp hnewest).1
      simp only [Bool.and_eq_true] at hp
      exact .inr ⟨m, hm, hp.2⟩
  · exact .inl rfl

/-- A row outside the window moves no boundary. -/
theorem readBoundary_insert {db' : Database} {id : Int} {m : Message}
    (hfresh : db.messages.row id = none) (h : db'.messages = db.messages.upsert id m)
    (hm : inChatWindow chatId m = false) (hidden : Bool) (messageId : Int) :
    db'.readBoundary hidden chatId messageId = db.readBoundary hidden chatId messageId := by
  have hselect : ∀ p : Int → Message → Bool, p id m = false →
      db'.messages.select p = db.messages.select p := by
    intro p hp
    rw [h]
    refine Table.select_congr fun k => ?_
    rw [Table.upsert_row]
    split
    · next heq => simp [heq, hfresh, hp]
    · rfl
  have hnewest : ∀ p : Int → Message → Bool, p id m = false →
      db'.messages.newest p = db.messages.newest p := fun p hp => congrArg Finset.max (hselect p hp)
  have holdest : ∀ p : Int → Message → Bool, p id m = false →
      db'.messages.oldest p = db.messages.oldest p := fun p hp => congrArg Finset.min (hselect p hp)
  unfold Database.readBoundary Database.skipHiddenMembershipTail
  dsimp only
  rw [holdest _ (by simp [hm]), hnewest _ (by simp [hm])]

end Readers

namespace Send

/-- A message that waits for its transcode does not become its sender's read pointer. -/
def KeepsPointer (db : Database) : Send → Prop
  | .toChat _ id hidden p =>
      p.publishImmediately = false → db.readBoundary hidden p.chatId id = id →
        ∀ gm, db.groupMembership.row (p.chatId, p.senderUid) = some gm →
          advances gm.lastReadMessageId id = false
  | .toThread _ id threadId _ p =>
      p.publishImmediately = false →
        advances (db.threadPointer (p.chatId, threadId, p.senderUid)) id = false

end Send

section SendPointers

variable {db db' : Database} {now id : Int} {p : PreparedMessageSend} {outputs : List Output}

theorem newMessage_inChatWindow (h : p.publishImmediately = true) :
    inChatWindow p.chatId (PreparedMessageSend.newMessage { p with replyRootId := none } now) =
      true :=
  inChatWindow_iff.mpr ⟨rfl, rfl, .inl rfl, h⟩

theorem sendToChat_pointers {hidden : Bool} (hdb : PointersAddressable db)
    (hgrow : RowsGrow db db') (hkeeps : (Send.toChat now id hidden p).KeepsPointer db)
    (h : db.sendToChat now id hidden p = .ok (db', outputs)) : PointersAddressable db' := by
  obtain ⟨sent, hcheck, hsame, rfl⟩ := sendToChat_spec h
  have hmessages : (sent.markChatAsRead hidden p.chatId p.senderUid id).messages = sent.messages :=
    rfl
  have hnew : sent.messages.row id =
      some (PreparedMessageSend.newMessage { p with replyRootId := none } now) := by
    rw [hsame.messages]
    exact Table.upsert_row_self _ _ _
  have hpointer : ∀ key, sent.chatPointer key = db.chatPointer key := fun key => by
    rw [Database.chatPointer, hsame.groupMembership]
    rfl
  constructor
  · intro chatId uid last hlast
    rcases markChatAsRead_pointer hidden id (chatId, uid) with hkept | ⟨hkey, hrow, hadvance, hmoved⟩
    · rw [hkept, hpointer] at hlast
      exact hgrow.chatAddressable (hdb.chat chatId uid last hlast)
    · rw [hmoved] at hlast
      obtain rfl := Option.some.inj hlast
      obtain ⟨rfl, rfl⟩ := Prod.mk.inj hkey
      rcases @readBoundary_addressable sent p.chatId hidden id with hself | hother
      · rw [hself] at hadvance ⊢
        cases hpublish : p.publishImmediately with
        | true => exact ⟨_, hnew, newMessage_inChatWindow hpublish⟩
        | false =>
          have hboundary := @readBoundary_insert db p.chatId sent id _ (checkSend_spec hcheck).1
            hsame.messages (by simp [inChatWindow, PreparedMessageSend.newMessage, hpublish])
            hidden id
          obtain ⟨gm, hgm⟩ := Option.isSome_iff_exists.mp hrow
          have hgm' : db.groupMembership.row (p.chatId, p.senderUid) = some gm := by
            rw [← hgm, hsame.groupMembership]
            rfl
          have hstays := hkeeps hpublish (hboundary.symm.trans hself) gm hgm'
          rw [hpointer, Database.chatPointer, hgm', Option.bind_some] at hadvance
          rw [hadvance] at hstays
          cases hstays
      · exact hother
  · intro chatId rootId uid last hlast
    have hstates : (sent.markChatAsRead hidden p.chatId p.senderUid id).threadUserStates =
        db.threadUserStates := hsame.threadUserStates
    rw [Database.threadPointer, hstates] at hlast
    exact hgrow.threadAddressable (hdb.thread chatId rootId uid last hlast)

theorem sendToThread_pointers {threadId : Int} {notifyMentions : Bool}
    (hdb : PointersAddressable db) (hgrow : RowsGrow db db')
    (hkeeps : (Send.toThread now id threadId notifyMentions p).KeepsPointer db)
    (h : db.sendToThread now id threadId notifyMentions p = .ok (db', outputs)) :
    PointersAddressable db' := by
  obtain ⟨root, sent, result, hroot, hwindow, hcheck, hsame, hresponse, rfl⟩ := sendToThread_spec h
  have hreaders := readersRecorded_same sent now result.response result.memberUids threadId root
    notifyMentions
  have hrecorded : ∀ d : Database, d = (sent.recordThreadSend now result.response result.memberUids
      threadId root p.publishImmediately notifyMentions).1 →
      RowsGrow sent d ∧ d.groupMembership = db.groupMembership ∧ ∀ key, d.threadPointer key =
        (sent.readersRecorded now result.response result.memberUids threadId root
          notifyMentions).threadPointer key := by
    rintro d rfl
    have hgrows := rowsGrow_of_messages hreaders.messages
    rw [recordThreadSend_eq]
    split
    · refine ⟨RowsGrow.setHasThread ?_ threadId,
        hreaders.groupMembership.trans hsame.groupMembership, fun key => rfl⟩
      exact hgrows.congr rfl
    · exact ⟨hgrows, hreaders.groupMembership.trans hsame.groupMembership, fun key => rfl⟩
  generalize (sent.recordThreadSend now result.response result.memberUids threadId root
    p.publishImmediately notifyMentions).1 = d at hgrow hrecorded
  obtain ⟨hrows, hmembership, hpointers⟩ := hrecorded d rfl
  have hpointer : ∀ key, sent.threadPointer key = db.threadPointer key := fun key => by
    rw [Database.threadPointer, hsame.threadUserStates]
    rfl
  constructor
  · intro chatId uid last hlast
    rw [Database.chatPointer, hmembership] at hlast
    exact hgrow.chatAddressable (hdb.chat chatId uid last hlast)
  · intro chatId rootId uid last hlast
    rw [hpointers] at hlast
    rcases readersRecorded_pointer result.response result.memberUids root notifyMentions
      (chatId, rootId, uid) with hkept | ⟨hkey, hadvance, hmoved⟩
    · rw [hkept, hpointer] at hlast
      exact hgrow.threadAddressable (hdb.thread chatId rootId uid last hlast)
    · rw [hmoved, hresponse] at hlast
      rw [hpointer, hkey, hresponse] at hadvance
      obtain rfl : id = last := Option.some.inj hlast
      have hkeyRoot : rootId = threadId := (Prod.mk.inj (Prod.mk.inj hkey).2).1
      cases hpublish : p.publishImmediately with
      | true =>
        rw [hkeyRoot]
        refine hrows.threadAddressable
          ⟨PreparedMessageSend.newMessage { p with replyRootId := some threadId } now, ?_, rfl, ?_⟩
        · rw [hsame.messages]
          exact Table.upsert_row_self _ _ _
        · simp [PreparedMessageSend.newMessage, Message.isLive, hpublish]
      | false =>
        have hstays := hkeeps hpublish
        exact absurd (hstays.symm.trans hadvance) Bool.false_ne_true

end SendPointers

/-- A deletion moves no pointer, or moves it to the newest addressable message before its old value. -/
def MovedBack (addressable : Int → Prop) (before after : Option Int) : Prop :=
  after ≠ before → ∃ last, before = some last ∧
    (∀ id, after = some id → IsGreatest {k | k < last ∧ addressable k} id) ∧
    (after = none → ∀ k, k < last → ¬addressable k)

section Previous

variable {db : Database} {chatId rootId last id : Int}

theorem newest_isGreatest {p : Int → Message → Bool} (h : db.messages.newest p = some id) :
    IsGreatest {k | ∃ m, db.messages.row k = some m ∧ p k m = true} id := by
  obtain ⟨hmem, hle⟩ := Table.newest_eq_some.mp h
  exact ⟨Table.mem_select.mp hmem, fun k hk => hle k (Table.mem_select.mpr hk)⟩

theorem newest_none {p : Int → Message → Bool} (h : db.messages.newest p = none) (k : Int) :
    ¬∃ m, db.messages.row k = some m ∧ p k m = true := by
  intro hk
  have hmem := Table.mem_select.mpr hk
  rw [Table.newest_eq_none.mp h] at hmem
  exact Finset.notMem_empty k hmem

/-- A pointer that goes back to the newest row of some kind before it. -/
theorem movedBack_newest {addressable : Int → Prop} {p : Int → Message → Bool}
    (hp : ∀ k, (∃ m, db.messages.row k = some m ∧ p k m = true) ↔ k < last ∧ addressable k) :
    MovedBack addressable (some last) (db.messages.newest p) := by
  refine fun _ => ⟨last, rfl, fun id hid => ?_, fun hnone k hk haddressable => ?_⟩
  · have hgreatest := newest_isGreatest hid
    simpa only [hp] using hgreatest
  · exact newest_none hnone k ((hp k).mpr ⟨hk, haddressable⟩)

theorem previousInChat_movedBack :
    MovedBack (ChatAddressable db chatId) (some last) (db.previousInChat chatId last) := by
  refine movedBack_newest fun k => ?_
  simp only [Bool.and_eq_true, decide_eq_true_eq, ChatAddressable]
  constructor
  · rintro ⟨m, hm, hlt, hwindow⟩
    exact ⟨hlt, m, hm, hwindow⟩
  · rintro ⟨hlt, m, hm, hwindow⟩
    exact ⟨m, hm, hlt, hwindow⟩

theorem previousInThread_movedBack :
    MovedBack (ThreadAddressable db rootId) (some last) (db.previousInThread rootId last) := by
  refine movedBack_newest fun k => ?_
  simp only [Bool.and_eq_true, decide_eq_true_eq, ThreadAddressable]
  constructor
  · rintro ⟨m, hm, ⟨hroot, hlt⟩, hlive⟩
    exact ⟨hlt, m, hm, hroot, hlive⟩
  · rintro ⟨hlt, m, hm, hroot, hlive⟩
    exact ⟨m, hm, ⟨hroot, hlt⟩, hlive⟩

theorem movedBack_self {addressable : Int → Prop} (pointer : Option Int) :
    MovedBack addressable pointer pointer := fun hne => absurd rfl hne

end Previous

section Deletes

variable {db marked reconciled db' : Database} {chatId : Int} {targets : List DeletionTarget}
  {shifted : List Int}

/-- The chat pointers after a deletion. -/
theorem DeletionSteps.chatPointer
    (h : DeletionSteps db marked reconciled db' chatId targets shifted) (key : Int × Int) :
    db'.chatPointer key =
      if key.1 = chatId ∧ ∃ last ∈ shifted, db.chatPointer key = some last then
        (db.chatPointer key).bind (db'.previousInChat chatId)
      else db.chatPointer key := by
  have hprevious : db'.previousInChat chatId = reconciled.previousInChat chatId := by
    funext last
    rw [Database.previousInChat, h.messages]
    rfl
  simp only [Database.chatPointer, h.groupMembership, hprevious]
  cases hrow : db.groupMembership.row key with
  | none => simp
  | some gm =>
    simp only [Option.map_some, Option.bind_some]
    by_cases hkey : key.1 = chatId
    · rw [if_pos hkey]
      cases hlast : gm.lastReadMessageId with
      | none => simp [Database.shiftedMembership, hlast]
      | some last =>
        by_cases hmem : last ∈ shifted <;>
          simp [Database.shiftedMembership, hlast, hmem, hkey]
    · simp [hkey]

theorem DeletionSteps.threadPointer
    (h : DeletionSteps db marked reconciled db' chatId targets shifted) (key : Int × Int × Int) :
    db'.threadPointer key =
      if ∃ t ∈ targets, t.replyRootId = some key.2.1 ∧ db.threadPointer key = some t.id then
        (db.threadPointer key).bind (db'.previousInThread key.2.1)
      else db.threadPointer key := by
  obtain ⟨roots, idsOf, hreplies, hroots, hids⟩ := h.replies
  have hprevious := Database.previousInThread_congr (h.replyRow key.2.1)
  simp only [Database.threadPointer, h.threadUserStates, hreplies.threadUserStates,
    h.soft.threadUserStates, hprevious]
  cases hrow : db.threadUserStates.row key with
  | none => simp
  | some state =>
    simp only [Option.map_some, Option.bind_some]
    cases hlast : state.lastReadMessageId with
    | none => split <;> simp [Database.shiftedState, hlast]
    | some last =>
      by_cases hmem : ∃ t ∈ targets, t.replyRootId = some key.2.1 ∧ t.id = last
      · obtain ⟨t, ht, hroot, rfl⟩ := hmem
        rw [if_pos ((hroots key.2.1).mpr ⟨t, ht, hroot⟩), if_pos ⟨t, ht, hroot, rfl⟩]
        have hids' := (hids key.2.1 t.id).mpr ⟨t, ht, hroot, rfl⟩
        simp [Database.shiftedState, hlast, hids']
      · have hnot : ¬∃ t ∈ targets, t.replyRootId = some key.2.1 ∧ some last = some t.id := by
          intro hexists
          obtain ⟨t, ht, hroot, heq⟩ := hexists
          exact hmem ⟨t, ht, hroot, (Option.some.inj heq).symm⟩
        rw [if_neg hnot]
        have hids' : last ∉ idsOf key.2.1 := fun hid => hmem ((hids key.2.1 last).mp hid)
        split <;> simp [Database.shiftedState, hlast, hids']

theorem DeletionSteps.chat_movedBack
    (h : DeletionSteps db marked reconciled db' chatId targets shifted) (c uid : Int) :
    MovedBack (ChatAddressable db' c) (db.chatPointer (c, uid)) (db'.chatPointer (c, uid)) := by
  rw [h.chatPointer]
  split
  · next hmoved =>
    obtain ⟨rfl, last, -, hlast⟩ := hmoved
    rw [hlast, Option.bind_some]
    exact previousInChat_movedBack
  · exact movedBack_self _

theorem DeletionSteps.thread_movedBack
    (h : DeletionSteps db marked reconciled db' chatId targets shifted) (c rootId uid : Int) :
    MovedBack (ThreadAddressable db' rootId) (db.threadPointer (c, rootId, uid))
      (db'.threadPointer (c, rootId, uid)) := by
  rw [h.threadPointer]
  split
  · next hmoved =>
    obtain ⟨t, -, -, hlast⟩ := hmoved
    rw [hlast, Option.bind_some]
    exact previousInThread_movedBack
  · exact movedBack_self _

/-- A pointer that moved back is on an addressable message. -/
theorem MovedBack.addressable {addressable : Int → Prop} {before after : Option Int} {id : Int}
    (h : MovedBack addressable before after) (hid : after = some id)
    (hkept : before = some id → addressable id) : addressable id := by
  by_cases heq : after = before
  · exact hkept (heq ▸ hid)
  · obtain ⟨last, -, hgreatest, -⟩ := h heq
    exact (hgreatest id hid).1.2

/-- A deletion hides nothing outside its chat. -/
theorem DeletionSteps.other_chat
    (h : DeletionSteps db marked reconciled db' chatId targets shifted) (hdb : RepliesInChat db)
    {c id : Int} (hc : c ≠ chatId) (hid : ChatAddressable db c id) : ChatAddressable db' c id := by
  obtain ⟨m, hm, hwindow⟩ := hid
  obtain ⟨hchat, htop, hshown, hpublished⟩ := inChatWindow_iff.mp hwindow
  obtain ⟨m', hm', heq, hdeleted, hthread⟩ := h.row_fwd hm
  have hnotTarget : id ∉ targets.map (·.id) := by
    intro hmem
    obtain ⟨t, ht, rfl⟩ := List.mem_map.mp hmem
    obtain ⟨mt, hmt, hmtchat, -⟩ := h.rows t ht
    obtain rfl := Option.some.inj (hm.symm.trans hmt)
    exact hc (hchat.symm.trans hmtchat)
  have hnotRoot : ¬∃ t ∈ targets, t.replyRootId = some id := by
    rintro ⟨t, ht, hroot⟩
    obtain ⟨mt, hmt, hmtchat, hreply, -⟩ := h.rows t ht
    obtain ⟨root, hrow, hrootchat⟩ := hdb t.id mt id hmt (hreply.trans hroot)
    obtain rfl := Option.some.inj (hm.symm.trans hrow)
    exact hc (hchat.symm.trans (hrootchat.trans hmtchat))
  refine ⟨m', hm', inChatWindow_iff.mpr ⟨?_, ?_, ?_, ?_⟩⟩
  · rw [heq]
    exact hchat
  · rw [heq]
    exact htop
  · rw [if_neg fun hand => hnotRoot hand.1] at hthread
    refine hshown.imp (fun hnone => ?_) fun hthread' => hthread.trans hthread'
    by_contra hsome
    rcases hdeleted.mp (Option.isSome_iff_ne_none.mpr hsome) with hmem | hmem
    · exact hnotTarget hmem
    · simp [hnone] at hmem
  · rw [heq]
    exact hpublished

/-- A reply that is no target stays. -/
theorem DeletionSteps.reply_kept
    (h : DeletionSteps db marked reconciled db' chatId targets shifted) {rootId id : Int}
    (hid : ThreadAddressable db rootId id)
    (hnot : ¬∃ t ∈ targets, t.replyRootId = some rootId ∧ t.id = id) :
    ThreadAddressable db' rootId id := by
  obtain ⟨m, hm, hroot, hlive⟩ := hid
  obtain ⟨m', hm', heq, hdeleted, -⟩ := h.row_fwd hm
  simp only [Message.isLive, Bool.and_eq_true, Option.isNone_iff_eq_none] at hlive
  refine ⟨m', hm', by rw [heq]; exact hroot, ?_⟩
  have hkept : m'.deletedAt = none := by
    by_contra hsome
    rcases hdeleted.mp (Option.isSome_iff_ne_none.mpr hsome) with hmem | hmem
    · obtain ⟨t, ht, rfl⟩ := List.mem_map.mp hmem
      obtain ⟨mt, hmt, -, hreply, -⟩ := h.rows t ht
      obtain rfl := Option.some.inj (hm.symm.trans hmt)
      exact hnot ⟨t, ht, hreply.symm.trans hroot, rfl⟩
    · simp [hlive.1] at hmem
  have hpublished : m'.isPublished = true := by
    rw [heq]
    exact hlive.2
  simp [Message.isLive, hkept, hpublished]

/-- Every chat reader whose message left the window is moved. -/
def Covers (db db' : Database) (chatId : Int) (shifted : List Int) : Prop :=
  ∀ uid last, db.chatPointer (chatId, uid) = some last → ChatAddressable db chatId last →
    ¬ChatAddressable db' chatId last → last ∈ shifted

theorem DeletionSteps.pointersAddressable
    (h : DeletionSteps db marked reconciled db' chatId targets shifted)
    (hdb : PointersAddressable db) (hroots : RepliesInChat db)
    (hcovers : Covers db db' chatId shifted) : PointersAddressable db' where
  chat := fun c uid last hlast => by
    refine (h.chat_movedBack c uid).addressable hlast fun hbefore => ?_
    have hold := hdb.chat c uid last hbefore
    by_cases hc : c = chatId
    · subst hc
      by_contra hgone
      have hmem := hcovers uid last hbefore hold hgone
      rw [h.chatPointer, if_pos ⟨rfl, last, hmem, hbefore⟩, hbefore, Option.bind_some] at hlast
      obtain ⟨m, -, hp⟩ := (newest_isGreatest hlast).1
      simp at hp
    · exact h.other_chat hroots hc hold
  thread := fun c rootId uid last hlast => by
    refine (h.thread_movedBack c rootId uid).addressable hlast fun hbefore => ?_
    refine h.reply_kept (hdb.thread c rootId uid last hbefore) ?_
    rintro ⟨t, ht, hroot, rfl⟩
    rw [h.threadPointer, if_pos ⟨t, ht, hroot, hbefore⟩, hbefore, Option.bind_some] at hlast
    obtain ⟨m, -, hp⟩ := (newest_isGreatest hlast).1
    simp at hp

/-- A message that left the window of its chat is deleted and has no thread any more. -/
theorem DeletionSteps.left_window
    (h : DeletionSteps db marked reconciled db' chatId targets shifted) {id : Int}
    (hid : ChatAddressable db chatId id) (hgone : ¬ChatAddressable db' chatId id) :
    (reconciled.messages.row id).any (fun m => !m.hasThread && m.deletedAt.isSome) = true ∧
      ((∃ t ∈ targets, t.replyRootId = none ∧ t.id = id) ∨
        ∃ t ∈ targets, t.replyRootId = some id) := by
  obtain ⟨m, hm, hwindow⟩ := hid
  obtain ⟨hchat, htop, hshown, hpublished⟩ := inChatWindow_iff.mp hwindow
  obtain ⟨m', hm', heq, hdeleted, hthread⟩ := h.row_fwd hm
  have hhidden : m'.deletedAt.isSome = true ∧ m'.hasThread = false := by
    by_contra hshown'
    refine hgone ⟨m', hm', inChatWindow_iff.mpr ⟨?_, ?_, ?_, ?_⟩⟩
    · rw [heq]
      exact hchat
    · rw [heq]
      exact htop
    · by_contra hnot
      rw [not_or] at hnot
      exact hshown' ⟨Option.isSome_iff_ne_none.mpr hnot.1, by simpa using hnot.2⟩
    · rw [heq]
      exact hpublished
  refine ⟨?_, ?_⟩
  · rw [← h.messages, hm']
    simp [hhidden.1, hhidden.2]
  · by_contra hnone
    rw [not_or] at hnone
    rw [if_neg fun hand => hnone.2 hand.1] at hthread
    have hdeletedAt : m.deletedAt = none :=
      hshown.resolve_right (by rw [← hthread, hhidden.2]; exact Bool.false_ne_true)
    rcases hdeleted.mp hhidden.1 with hmem | hsome
    · obtain ⟨t, ht, rfl⟩ := List.mem_map.mp hmem
      obtain ⟨mt, hmt, -, hreply, -⟩ := h.rows t ht
      obtain rfl := Option.some.inj (hm.symm.trans hmt)
      exact hnone.1 ⟨t, ht, hreply.symm.trans htop, rfl⟩
    · simp [hdeletedAt] at hsome

/-- The reconciliation of a selection or a cleanup moves every reader it has to. -/
theorem covers_hidden {impact : DeletionImpact}
    (h : DeletionSteps db marked reconciled db' chatId targets
      (reconciled.hiddenChatIds (impact.chatMessageIds ++ ascending impact.threadRootIds)))
    (hdescribes : Describes impact targets) :
    Covers db db' chatId
      (reconciled.hiddenChatIds (impact.chatMessageIds ++ ascending impact.threadRootIds)) := by
  rintro uid last - hold hgone
  obtain ⟨hhidden, htarget⟩ := h.left_window hold hgone
  refine List.mem_filter.mpr ⟨?_, hhidden⟩
  rw [List.mem_append, mem_ascending, hdescribes.chatMessageIds, hdescribes.threadRootIds]
  rcases htarget with htarget | htarget
  · exact .inl htarget
  · exact .inr (.inl htarget)

theorem covers_nil (h : DeletionSteps db marked reconciled db' chatId [] shifted) :
    Covers db db' chatId shifted := by
  rintro uid last - hold hgone
  obtain ⟨-, ⟨t, ht, -⟩ | ⟨t, ht, -⟩⟩ := h.left_window hold hgone
  · cases ht
  · cases ht

/-- The single delete does unless it hides a root that a reader stands on. -/
theorem covers_one {messageId : Int} {m : Message}
    (h : DeletionSteps db marked reconciled db' chatId [targetOf messageId m]
      (Database.shiftedOne messageId m))
    (hrow : db.messages.row messageId = some m) (hchat : m.chatId = chatId)
    (hanchored : ¬db.HidesAnchoredRoot messageId m) :
    Covers db db' chatId (Database.shiftedOne messageId m) := by
  intro uid last hpointer hold hgone
  obtain ⟨hhidden, -⟩ := h.left_window hold hgone
  obtain ⟨row, hlast, hdeleted, hthread⟩ := (hidden_row h last).mp hhidden
  obtain ⟨gm, hgm, hread⟩ := Option.bind_eq_some_iff.mp hpointer
  by_cases hreply : m.replyRootId = some last
  · exact absurd ⟨last, row, uid, gm, hreply, hlast, hdeleted, hthread.imp_right And.right,
      by rw [hchat]; exact hgm, hread⟩ hanchored
  · obtain ⟨row', hlast', hwindow⟩ := hold
    obtain rfl := Option.some.inj (hlast.symm.trans hlast')
    obtain ⟨-, htop, hshown, -⟩ := inChatWindow_iff.mp hwindow
    have hnoThread : row.hasThread = false := hthread.resolve_right fun hand => hreply hand.1
    have hlive : row.deletedAt = none :=
      hshown.resolve_right (by rw [hnoThread]; exact Bool.false_ne_true)
    obtain rfl : last = messageId := hdeleted.resolve_left (by simp [hlive])
    obtain rfl := Option.some.inj (hrow.symm.trans hlast)
    simp [Database.shiftedOne, htop, hnoThread]

end Deletes

namespace System

/-- No send waits with its sender's pointer on it, no single delete hides a root that a reader
stands on. -/
def KeepsPointers (s : System) (e : Event) : Prop :=
  (∀ send, e.send = some send → send.KeepsPointer s.db) ∧
    ∀ now uid chatId messageId m, e = .deleteMessage now uid chatId messageId →
      s.db.messages.row messageId = some m → ¬s.db.HidesAnchoredRoot messageId m

/-- Every pointer that a step moves goes back to the newest addressable message before it. -/
def MovesBack (s t : System) : Prop :=
  (∀ chatId uid, MovedBack (ChatAddressable t.db chatId) (s.db.chatPointer (chatId, uid))
      (t.db.chatPointer (chatId, uid))) ∧
    ∀ chatId rootId uid, MovedBack (ThreadAddressable t.db rootId)
      (s.db.threadPointer (chatId, rootId, uid)) (t.db.threadPointer (chatId, rootId, uid))

theorem movesBack_of_delete {s t : System} {e : Event} (hdelete : e.isDelete = true)
    (h : s.step e = some t) : s.MovesBack t := by
  cases e with
  | deleteMessage now uid chatId messageId =>
    obtain ⟨db, hr, rfl⟩ := commitDelete_spec h
    obtain ⟨marked, reconciled, targets, shifted, hsteps⟩ := deleteMessage_deletion hr
    exact ⟨hsteps.chat_movedBack, hsteps.thread_movedBack⟩
  | deleteSelection now chatId uid isAdmin ids =>
    obtain ⟨db, hr, rfl⟩ := commitDelete_spec h
    obtain ⟨marked, reconciled, targets, shifted, hsteps⟩ := deleteSelection_deletion hr
    exact ⟨hsteps.chat_movedBack, hsteps.thread_movedBack⟩
  | memberCleanup clock chatId targetUid scope =>
    obtain ⟨db, hr, rfl⟩ := commitDelete_spec h
    obtain ⟨marked, reconciled, targets, shifted, hsteps⟩ := processBulkDelete_deletion hr
    exact ⟨hsteps.chat_movedBack, hsteps.thread_movedBack⟩
  | _ => cases hdelete

/-- What holds in every state of a run that keeps its pointers. -/
structure PointersSound (s : System) : Prop where
  inChat : RepliesInChat s.db
  addressable : PointersAddressable s.db

theorem PointersSound.delete {s : System} (hs : PointersSound s) {marked reconciled db' : Database}
    {chatId : Int} {targets : List DeletionTarget} {shifted : List Int}
    (h : DeletionSteps s.db marked reconciled db' chatId targets shifted)
    (hcovers : Covers s.db db' chatId shifted) : PointersSound { s with db := db' } where
  inChat := by
    intro id m' rootId hm' hroot
    obtain ⟨m, deletedAt, hm, heq, -⟩ := h.row_inv hm'
    rw [heq] at hroot ⊢
    obtain ⟨root, hrow, hchat⟩ := hs.inChat id m rootId hm hroot
    obtain ⟨root', hrow', hpersists⟩ := h.persists rootId root hrow
    exact ⟨root', hrow', hpersists.chatId.trans hchat⟩
  addressable := h.pointersAddressable hs.addressable hs.inChat hcovers

theorem PointersSound.deletes {s t : System} {e : Event} (hs : PointersSound s)
    (hdelete : e.isDelete = true) (hkeeps : KeepsPointers s e) (h : s.step e = some t) :
    PointersSound t := by
  cases e with
  | deleteMessage now uid chatId messageId =>
    obtain ⟨db, hr, rfl⟩ := commitDelete_spec h
    obtain ⟨m, hrow, hchat, hdeleted, -, htx⟩ := deleteMessage_steps hr
    have hsteps := deleteMessageTransaction_steps hrow hchat hdeleted htx
    exact hs.delete hsteps (covers_one hsteps hrow hchat (hkeeps.2 _ _ _ _ m rfl hrow))
  | deleteSelection now chatId uid isAdmin ids =>
    obtain ⟨db, hr, rfl⟩ := commitDelete_spec h
    obtain ⟨marked, impact, hsoft, hdescribes, hreconcile⟩ := deleteSelection_steps hr
    have hsteps := reconcileDeletions_steps (selectTargets_targets s.db chatId ids) hsoft hdescribes
      hreconcile
    exact hs.delete hsteps (covers_hidden hsteps hdescribes)
  | memberCleanup clock chatId targetUid scope =>
    obtain ⟨db, hr, rfl⟩ := commitDelete_spec h
    obtain ⟨marked, impact, targets, hrows, hsoft, hdescribes, ⟨rfl, rfl⟩ | hreconcile⟩ :=
      processBulkDelete_steps hr
    · have hsteps := deletionSteps_nil chatId hsoft
      exact hs.delete hsteps (covers_nil hsteps)
    · have hsteps := reconcileDeletions_steps hrows hsoft hdescribes hreconcile
      exact hs.delete hsteps (covers_hidden hsteps hdescribes)
  | _ => cases hdelete

/-- A step that leaves the readers alone. -/
theorem pointersAddressable_same {db db' : Database} (h : PointersAddressable db)
    (hgrow : RowsGrow db db') (hchat : db'.groupMembership = db.groupMembership)
    (hthread : db'.threadUserStates = db.threadUserStates) : PointersAddressable db' where
  chat := fun chatId uid last hlast => by
    rw [Database.chatPointer, hchat] at hlast
    exact hgrow.chatAddressable (h.chat chatId uid last hlast)
  thread := fun chatId rootId uid last hlast => by
    rw [Database.threadPointer, hthread] at hlast
    exact hgrow.threadAddressable (h.thread chatId rootId uid last hlast)

theorem publishAudio_readers {db db' : Database} {messageId : Int} {message updated : Message}
    {outcome : AudioPublishOutcome}
    (h : db.publishAudio messageId message outcome = .ok (db', updated)) :
    db'.groupMembership = db.groupMembership ∧ db'.threadUserStates = db.threadUserStates := by
  obtain ⟨-, -, hstates, hmembership, -⟩ := setPublished_same db messageId outcome
  obtain ⟨m, -, -, ⟨-, rfl⟩ | ⟨-, -, rfl⟩ | ⟨-, rootId, -, rfl⟩⟩ := publishAudio_spec h <;>
    exact ⟨hmembership, hstates⟩

theorem sendPinSystemMessage_readers {db db' : Database} {now : Int} {id : Option Int}
    {p : PreparedMessageSend} {outputs : List Output}
    (h : db.sendPinSystemMessage now id p = (db', outputs)) :
    db'.groupMembership = db.groupMembership ∧ db'.threadUserStates = db.threadUserStates := by
  unfold Database.sendPinSystemMessage at h
  split at h
  · obtain ⟨rfl, -⟩ := Prod.mk.inj h
    exact ⟨rfl, rfl⟩
  · split at h
    · obtain ⟨rfl, -⟩ := Prod.mk.inj h
      exact ⟨rfl, rfl⟩
    · next sent result hsend =>
      obtain ⟨rfl, -⟩ := Prod.mk.inj h
      obtain ⟨-, hsame, -⟩ := sendPreparedMessage_spec hsend
      exact ⟨hsame.groupMembership, hsame.threadUserStates⟩

theorem PointersSound.next {s t : System} {e : Event} (hs : PointersSound s)
    (hkeeps : KeepsPointers s e) (h : s.step e = some t) : PointersSound t := by
  cases hdelete : e.isDelete with
  | true => exact hs.deletes hdelete hkeeps h
  | false =>
    have hnext := next_of_step h
    have hgrow := hnext.rowsGrow hdelete
    refine ⟨hgrow.repliesInChat hs.inChat, ?_⟩
    cases hnext with
    | toChat now id hidden p db outputs sends sent =>
      exact sendToChat_pointers hs.addressable hgrow (hkeeps.1 _ sends) sent
    | toThread now id threadId notifyMentions p db outputs sends sent =>
      exact sendToThread_pointers hs.addressable hgrow (hkeeps.1 _ sends) sent
    | pin now announcementId p pins db outputs sends announces reply announced =>
      obtain ⟨hmembership, hstates⟩ := sendPinSystemMessage_readers announced
      exact pointersAddressable_same hs.addressable hgrow hmembership hstates
    | delete chatId marked reconciled db targets shifted deletes deleted =>
      rw [hdelete] at deletes
      cases deletes
    | load => exact pointersAddressable_same hs.addressable hgrow rfl rfl
    | publish job messageId message updated attachment outcome db loaded published =>
      obtain ⟨hmembership, hstates⟩ := publishAudio_readers published
      exact pointersAddressable_same hs.addressable hgrow hmembership hstates
    | finish job messageId message updated attachment outcome published =>
      have hsame := audioSideEffects_same s.db messageId message updated attachment outcome
      exact pointersAddressable_same hs.addressable hgrow hsame.groupMembership
        hsame.threadUserStates

/-- In a run that keeps its pointers every pointer is on an addressable message, and each delete
that follows moves pointers only back to the newest addressable message before them. -/
theorem read_pointers_addressable {s t : System} {es : List Event} (hinChat : RepliesInChat s.db)
    (hstart : PointersAddressable s.db) (hkeeps : Along step KeepsPointers s es)
    (h : run step s es = some t) :
    PointersAddressable t.db ∧
      ∀ e u, e.isDelete = true → t.step e = some u → t.MovesBack u := by
  have hsound : PointersSound t := run_invariant_along
    (fun _ _ _ hs hok hstep => hs.next hok hstep) ⟨hinChat, hstart⟩ hkeeps h
  exact ⟨hsound.addressable, fun e u hdelete hstep => movesBack_of_delete hdelete hstep⟩

theorem repliesInChat_newGroup (chatId : Int) (members : List (Int × GroupRole)) :
    RepliesInChat (.newGroup chatId members) := by
  rintro id m rootId ⟨⟩

/-- Nobody has read anything yet. -/
theorem pointersAddressable_newGroup (chatId : Int) (members : List (Int × GroupRole)) :
    PointersAddressable (.newGroup chatId members) where
  chat := fun c uid last hlast => by
    obtain ⟨gm, hgm, hread⟩ := Option.bind_eq_some_iff.mp hlast
    obtain ⟨member, -, heq⟩ := List.mem_map.mp (Table.mem_of_ofList_row hgm)
    rw [← (Prod.mk.inj heq).2] at hread
    cases hread
  thread := fun c rootId uid last hlast => by cases hlast

/-- A sender whose last message is deleted. -/
theorem read_pointers_addressable_after_delete :
    ∃ t, run step (start (.newGroup 1 [(7, .admin)]))
        [.postMessage 100 10 7 1 false (textBody "a"), .postMessage 200 11 7 1 false (textBody "b"),
          .deleteMessage 300 7 1 11] = some t ∧ PointersAddressable t.db ∧
      t.db.chatPointer (1, 7) = some 10 := by
  have hsend : ∀ (s : System) (now id : Int) (text : String),
      KeepsPointers s (.postMessage now id 7 1 false (textBody text)) := by
    refine fun s now id text => ⟨?_, fun _ _ _ _ _ heq => nomatch heq⟩
    rintro send ⟨⟩ hpublish
    cases hpublish
  refine ⟨_, rfl, ?_, by decide⟩
  refine (@read_pointers_addressable (start (.newGroup 1 [(7, .admin)])) _
    [.postMessage 100 10 7 1 false (textBody "a"), .postMessage 200 11 7 1 false (textBody "b"),
      .deleteMessage 300 7 1 11] (repliesInChat_newGroup 1 _) (pointersAddressable_newGroup 1 _) ?_
      rfl).1
  refine .cons rfl (hsend _ _ _ _) (.cons rfl (hsend _ _ _ _) (.cons rfl ?_ trivial))
  refine ⟨fun _ heq => (nomatch heq), ?_⟩
  rintro now uid chatId messageId m ⟨⟩ hrow ⟨rootId, _, _, _, hreply, -⟩
  have htop : (some m).bind Message.replyRootId = none := by
    rw [← hrow]
    rfl
  rw [Option.bind_some, hreply] at htop
  cases htop

/-- The reader of a deleted root stays on it when the last reply is deleted. -/
theorem deleted_root_keeps_reader :
    RepliesInChat (Database.newGroup 1 [(7, .admin)]) ∧
      PointersAddressable (Database.newGroup 1 [(7, .admin)]) ∧
      ∃ t, run step (start (.newGroup 1 [(7, .admin)]))
          (orphanedReply ++ [.deleteMessage 400 7 1 11]) = some t ∧
        ¬PointersAddressable t.db := by
  refine ⟨repliesInChat_newGroup 1 _, pointersAddressable_newGroup 1 _, _, rfl, fun h => ?_⟩
  obtain ⟨m, hm, hwindow⟩ := h.chat 1 7 10 (by decide)
  have hany : (some m).any (inChatWindow 1) = false := by
    rw [← hm]
    decide
  rw [Option.any_some, hwindow] at hany
  cases hany

end System

end Chahua.Messages

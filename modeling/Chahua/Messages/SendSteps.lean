import Chahua.Messages.System
import Chahua.Messages.Replies

namespace Chahua.Messages

open Framework

theorem checkSend_spec {db : Database} {id : Int} {p : PreparedMessageSend}
    (h : db.checkSend id p = .ok ()) :
    db.messages.row id = none ∧
      ∀ replyToId, p.replyToId = some replyToId → ∃ m, db.messages.row replyToId = some m ∧
        m.chatId = p.chatId ∧ m.isLive = true ∧
        inThreadContext p.replyRootId replyToId m = true := by
  unfold Database.checkSend at h
  split at h
  · cases h
  · split at h
    · cases h
    · next hreply =>
      split at h
      · cases h
      · next hfresh =>
        refine ⟨by simpa using hfresh, fun replyToId hto => ?_⟩
        rw [hto, Option.elim_some] at hreply
        unfold Database.validateReplyTarget at hreply
        split at hreply
        · cases hreply
        · next m hm =>
          obtain ⟨hrow, hp⟩ := Option.filter_eq_some_iff.mp hm
          simp only [Bool.and_eq_true, decide_eq_true_eq] at hp
          split at hreply
          · cases hreply
          · split at hreply
            · next hcontext => exact ⟨m, hrow, hp.1, hp.2, hcontext⟩
            · cases hreply

/-- A send inserts its row; its mentions are all that follows in the tables. -/
theorem sendPreparedMessage_spec {db db' : Database} {now id : Int} {p : PreparedMessageSend}
    {sent : SendMessageResult} (h : db.sendPreparedMessage now id p = .ok (db', sent)) :
    db.checkSend id p = .ok () ∧ SameBesidesMentions (db.insertMessage now id p) db' ∧
      sent.response = (db.insertMessage now id p).attachMetadata id (p.newMessage now) := by
  unfold Database.sendPreparedMessage at h
  split at h
  · cases h
  · next hcheck =>
    refine ⟨hcheck, ?_⟩
    dsimp only at h
    split at h
    · obtain ⟨rfl, rfl⟩ := Prod.mk.inj (Except.ok.inj h)
      exact ⟨buildMessageSideEffects_same _ _ _ _ _ _, rfl⟩
    · obtain ⟨rfl, rfl⟩ := Prod.mk.inj (Except.ok.inj h)
      exact ⟨⟨rfl, rfl, rfl, rfl, rfl, rfl, rfl⟩, rfl⟩

theorem authorizeMessageSend_thread {db : Database} {chatId threadId uid : Int}
    {root : Option Message}
    (h : db.authorizeMessageSend chatId (some threadId) uid = .ok root) :
    ∃ m, root = some m ∧ db.messages.row threadId = some m ∧ inChatWindow chatId m = true := by
  unfold Database.authorizeMessageSend at h
  split at h
  · cases h
  · split at h
    · next hnone => cases hnone
    · next heq =>
      obtain rfl := Option.some.inj heq
      split at h
      · cases h
      · next m hm =>
        obtain ⟨hrow, hp⟩ := Option.filter_eq_some_iff.mp hm
        split at h
        · exact ⟨m, (Except.ok.inj h).symm, hrow, hp⟩
        · cases h

theorem inChatWindow_iff {chatId : Int} {m : Message} : inChatWindow chatId m = true ↔
    m.chatId = chatId ∧ m.replyRootId = none ∧ (m.deletedAt = none ∨ m.hasThread = true) ∧
      m.isPublished = true := by
  simp [inChatWindow, Message.isTopLevel, and_assoc]

/-- A send to the main channel: the row, then the sender's read pointer. -/
theorem sendToChat_spec {db db' : Database} {now id : Int} {hidden : Bool}
    {p : PreparedMessageSend} {outputs : List Output}
    (h : db.sendToChat now id hidden p = .ok (db', outputs)) :
    ∃ sent, db.checkSend id { p with replyRootId := none } = .ok () ∧
      SameBesidesMentions (db.insertMessage now id { p with replyRootId := none }) sent ∧
      db' = sent.markChatAsRead hidden p.chatId p.senderUid id := by
  unfold Database.sendToChat at h
  split at h
  · cases h
  · split at h
    · cases h
    · next sent result hsend =>
      obtain ⟨hcheck, hsame, -⟩ := sendPreparedMessage_spec hsend
      exact ⟨sent, hcheck, hsame, (Prod.mk.inj (Except.ok.inj h)).1.symm⟩

theorem sendToThread_spec {db db' : Database} {now id threadId : Int} {notifyMentions : Bool}
    {p : PreparedMessageSend} {outputs : List Output}
    (h : db.sendToThread now id threadId notifyMentions p = .ok (db', outputs)) :
    ∃ (root : Message) (sent : Database) (result : SendMessageResult),
      db.messages.row threadId = some root ∧
      inChatWindow p.chatId root = true ∧
      db.checkSend id { p with replyRootId := some threadId } = .ok () ∧
      SameBesidesMentions (db.insertMessage now id { p with replyRootId := some threadId }) sent ∧
      result.response = (db.insertMessage now id
        { p with replyRootId := some threadId }).attachMetadata id
          (PreparedMessageSend.newMessage { p with replyRootId := some threadId } now) ∧
      db' = (sent.recordThreadSend now result.response result.memberUids threadId root
        p.publishImmediately notifyMentions).1 := by
  unfold Database.sendToThread at h
  split at h
  · cases h
  · cases h
  · next root hauthorize =>
    obtain ⟨m, hm, hrow, hwindow⟩ := authorizeMessageSend_thread hauthorize
    obtain rfl := Option.some.inj hm
    split at h
    · cases h
    · next sent result hsend =>
      obtain ⟨hcheck, hsame, hresponse⟩ := sendPreparedMessage_spec hsend
      exact ⟨root, sent, result, hrow, hwindow, hcheck, hsame, hresponse,
        (Prod.mk.inj (Except.ok.inj h)).1.symm⟩

/-- What no change of the readers of a thread touches. -/
structure SameBesidesReaders (db db' : Database) : Prop where
  messages : db'.messages = db.messages
  attachments : db'.attachments = db.attachments
  messageMentions : db'.messageMentions = db.messageMentions
  threadMeta : db'.threadMeta = db.threadMeta
  groupMembership : db'.groupMembership = db.groupMembership
  groups : db'.groups = db.groups
  pinnedMessages : db'.pinnedMessages = db.pinnedMessages

theorem sameBesidesReaders_refl (db : Database) : SameBesidesReaders db db :=
  ⟨rfl, rfl, rfl, rfl, rfl, rfl, rfl⟩

theorem SameBesidesReaders.trans {a b c : Database} (h : SameBesidesReaders a b)
    (h' : SameBesidesReaders b c) : SameBesidesReaders a c where
  messages := h'.messages.trans h.messages
  attachments := h'.attachments.trans h.attachments
  messageMentions := h'.messageMentions.trans h.messageMentions
  threadMeta := h'.threadMeta.trans h.threadMeta
  groupMembership := h'.groupMembership.trans h.groupMembership
  groups := h'.groups.trans h.groups
  pinnedMessages := h'.pinnedMessages.trans h.pinnedMessages

theorem ensureThreadUserState_same (db : Database) (now chatId root uid : Int)
    (subscribed : Bool) :
    SameBesidesReaders db (db.ensureThreadUserState now chatId root uid subscribed).1 := by
  unfold Database.ensureThreadUserState
  split <;> exact ⟨rfl, rfl, rfl, rfl, rfl, rfl, rfl⟩

theorem ensureThreadSubscription_same (db : Database) (now chatId root uid : Int) :
    SameBesidesReaders db (db.ensureThreadSubscription now chatId root uid).1 := by
  unfold Database.ensureThreadSubscription
  split
  · split <;> exact ⟨rfl, rfl, rfl, rfl, rfl, rfl, rfl⟩
  · exact ensureThreadUserState_same db now chatId root uid true

theorem subscribeMentioned_same (db : Database) (now chatId root uid : Int)
    (memberUids mentioned : List Int) :
    SameBesidesReaders db (db.subscribeMentioned now chatId root uid memberUids mentioned).1 := by
  induction mentioned generalizing db with
  | nil => exact sameBesidesReaders_refl db
  | cons m mentioned ih =>
    unfold Database.subscribeMentioned
    split
    · exact (ensureThreadSubscription_same db now chatId root m).trans (ih _)
    · exact ih db

/-- The tables a thread send records itself in, before it counts as a reply. -/
def Database.readersRecorded (db : Database) (now : Int) (response : MessageResponse)
    (memberUids : List Int) (threadId : Int) (root : Message) (notifyMentions : Bool) : Database :=
  let chatId := response.chatId
  let uid := response.senderUid
  let db := (db.ensureThreadSubscription now chatId threadId uid).1
  let db := db.markThreadAsRead chatId threadId uid response.id
  let db :=
    if root.senderUid ≠ uid ∧ root.senderUid ∈ memberUids then
      (db.ensureThreadUserState now chatId threadId root.senderUid true).1
    else db
  if notifyMentions then
    (db.subscribeMentioned now chatId threadId uid memberUids
      (response.message.elim [] extractMentionUids)).1
  else db

theorem recordThreadSend_eq (db : Database) (now : Int) (response : MessageResponse)
    (memberUids : List Int) (threadId : Int) (root : Message)
    (publishImmediately notifyMentions : Bool) :
    (db.recordThreadSend now response memberUids threadId root publishImmediately
        notifyMentions).1 =
      if publishImmediately then
        ((db.readersRecorded now response memberUids threadId root
          notifyMentions).incrementThreadMeta response.chatId threadId
            response.createdAt).setHasThread threadId true
      else db.readersRecorded now response memberUids threadId root notifyMentions := by
  unfold Database.recordThreadSend Database.readersRecorded
  by_cases hroot : root.senderUid ≠ response.senderUid ∧ root.senderUid ∈ memberUids <;>
    cases notifyMentions <;> simp [hroot]

theorem readersRecorded_same (db : Database) (now : Int) (response : MessageResponse)
    (memberUids : List Int) (threadId : Int) (root : Message) (notifyMentions : Bool) :
    SameBesidesReaders db
      (db.readersRecorded now response memberUids threadId root notifyMentions) := by
  have hfirst := ensureThreadSubscription_same db now response.chatId threadId response.senderUid
  have hmark : SameBesidesReaders (db.ensureThreadSubscription now response.chatId threadId
      response.senderUid).1 ((db.ensureThreadSubscription now response.chatId threadId
        response.senderUid).1.markThreadAsRead response.chatId threadId response.senderUid
          response.id) := ⟨rfl, rfl, rfl, rfl, rfl, rfl, rfl⟩
  have htwo := hfirst.trans hmark
  unfold Database.readersRecorded
  dsimp only
  split <;> split
  · exact (htwo.trans (ensureThreadUserState_same _ _ _ _ _ _)).trans
      (subscribeMentioned_same _ _ _ _ _ _ _)
  · exact htwo.trans (subscribeMentioned_same _ _ _ _ _ _ _)
  · exact htwo.trans (ensureThreadUserState_same _ _ _ _ _ _)
  · exact htwo

/-- A pin changes nothing but the pins when it is not announced. -/
theorem sendPinSystemMessage_silent {db : Database} {now : Int} {id : Option Int}
    {p : PreparedMessageSend} (h : ∀ i, id = some i → db.checkSend i p ≠ .ok ()) :
    db.sendPinSystemMessage now id p = (db, []) := by
  unfold Database.sendPinSystemMessage
  split
  · rfl
  · next i =>
    split
    · rfl
    · next sent result hsend => exact absurd (sendPreparedMessage_spec hsend).1 (h i rfl)

end Chahua.Messages

import Chahua.Messages.Store
import Chahua.Messages.Mentions

namespace Chahua.Messages

open Framework

/-- What a response says of the message it replies to. -/
structure ReplyPreview where
  senderUid : Int
  messageType : MessageType
  deriving DecidableEq, Repr

structure MessageResponse where
  id : Int
  message : Option String
  messageType : MessageType
  systemKind : Option SystemMessageKind
  replyRootId : Option Int
  senderUid : Int
  chatId : Int
  createdAt : Int
  isDeleted : Bool
  replyToMessage : Option ReplyPreview
  deriving DecidableEq, Repr

structure PushJob where
  chatId : Int
  senderUid : Int
  messageId : Int
  threadRootId : Option Int
  mentionedUids : List Int
  replyTargetUid : Option Int
  deriving DecidableEq, Repr

structure NotificationPayload where
  notificationType : MentionKind
  chatId : Int
  messageId : Int
  threadRootId : Option Int
  actorUid : Int
  deriving DecidableEq, Repr

structure ThreadUpdatePayload where
  threadRootId : Int
  chatId : Int
  lastReplyAt : Int
  replyCount : Nat
  deriving DecidableEq, Repr

inductive ServerWsMessage where
  | message (response : MessageResponse)
  | messageUpdated (response : MessageResponse)
  | notification (payload : NotificationPayload)
  | threadUpdate (payload : ThreadUpdatePayload)
  deriving DecidableEq, Repr

/-- What leaves the process: broadcasts, push jobs and deletions of stored objects. -/
inductive Output where
  | broadcast (uids : List Int) (msg : ServerWsMessage)
  | push (job : PushJob)
  | deleteObject (externalReference : String)
  deriving DecidableEq, Repr

structure PendingSideEffects where
  wsMsg : ServerWsMessage
  broadcastUids : List Int
  pushJob : Option PushJob
  notifications : List (Int × ServerWsMessage)

/-- Adjacent equal payloads go out in one broadcast. -/
def batchNotifications : List (Int × ServerWsMessage) → List (List Int × ServerWsMessage)
  | [] => []
  | (uid, msg) :: rest =>
      match batchNotifications rest with
      | (uids, next) :: tail =>
          if next = msg then (uid :: uids, msg) :: tail else ([uid], msg) :: (uids, next) :: tail
      | [] => [([uid], msg)]

def PendingSideEffects.fire (effects : PendingSideEffects) : List Output :=
  [.broadcast effects.broadcastUids effects.wsMsg] ++ effects.pushJob.toList.map .push ++
    (batchNotifications effects.notifications).map fun batch => .broadcast batch.1 batch.2

/-- The root of a thread or one of its replies; without a thread, any top-level message. -/
def inThreadContext (threadId : Option Int) (id : Int) (m : Message) : Bool :=
  match threadId with
  | some threadId => decide (id = threadId) || decide (m.replyRootId = some threadId)
  | none => m.isTopLevel

namespace Database

def replyToMessage (db : Database) (m : Message) : Option ReplyPreview :=
  m.replyToId.bind fun replyToId =>
    ((db.messages.row replyToId).filter fun target =>
      target.isPublished && target.nonMembership && decide (target.chatId = m.chatId) &&
        inThreadContext m.replyRootId replyToId target).map fun target =>
          { senderUid := target.senderUid, messageType := target.messageType }

/-- The text of a deleted message is redacted. -/
def attachMetadata (db : Database) (id : Int) (m : Message) : MessageResponse where
  id := id
  message := if m.deletedAt.isSome then none else m.message
  messageType := m.messageType
  systemKind := m.systemKind
  replyRootId := m.replyRootId
  senderUid := m.senderUid
  chatId := m.chatId
  createdAt := m.createdAt
  isDeleted := m.deletedAt.isSome
  replyToMessage := db.replyToMessage m

/-- `MEMBERSHIP_ALLOWED_PREDICATE`. -/
def membershipAllowed (g : Group) (gm : Membership) : Bool :=
  decide (g.kind = .dm) || decide (g.membershipMessageVisibility = .members) ||
    decide (g.membershipMessageVisibility = .admins) && decide (gm.role = .admin)

def mentionedMemberUids (db : Database) (response : MessageResponse) (senderUid chatId : Int)
    (notifyMentions : Bool) : List Int :=
  if response.messageType = .system ∨ notifyMentions = false then []
  else
    (response.message.elim [] extractMentionUids).filter fun uid =>
      decide (uid ≠ senderUid) && decide (uid ∈ db.memberUids chatId)

def replyTargetUid (db : Database) (response : MessageResponse) (senderUid chatId : Int) :
    Option Int :=
  if response.messageType = .system then none
  else
    ((response.replyToMessage.filter fun target => decide (target.messageType ≠ .system)).map
      (·.senderUid)).filter fun uid =>
        decide (uid ≠ senderUid) && decide (uid ∈ db.memberUids chatId)

/-- `INSERT … ON CONFLICT DO NOTHING`. -/
def insertMention (db : Database) (messageId uid : Int) (mention : Mention) : Database :=
  match db.messageMentions.row (messageId, uid) with
  | some _ => db
  | none =>
      { db with messageMentions := db.messageMentions.upsert (messageId, uid) mention }

def insertMentions (db : Database) (response : MessageResponse) (chatId : Int)
    (kind : MentionKind) (uids : List Int) : Database :=
  uids.foldl (fun db uid => db.insertMention response.id uid
    { chatId := chatId
      threadRootId := response.replyRootId
      createdAt := response.createdAt
      kind := kind }) db

def buildMessageSideEffects (db : Database) (response : MessageResponse) (senderUid chatId : Int)
    (enqueuePush notifyMentions : Bool) : Database × PendingSideEffects :=
  let memberUids := db.memberUids chatId
  let mentionedMemberUids := db.mentionedMemberUids response senderUid chatId notifyMentions
  let replyTargetUid := db.replyTargetUid response senderUid chatId
  let replyNotificationUid := replyTargetUid.filter fun uid =>
    decide (uid ∉ mentionedMemberUids)
  let notification (kind : MentionKind) : ServerWsMessage :=
    .notification
      { notificationType := kind
        chatId := chatId
        messageId := response.id
        threadRootId := response.replyRootId
        actorUid := senderUid }
  ((db.insertMentions response chatId .mention mentionedMemberUids).insertMentions response chatId
      .reply replyNotificationUid.toList,
    { wsMsg := .message response
      broadcastUids :=
        if response.systemKind.any (·.isMembership) then
          memberUids.filter fun uid => (db.groups.row chatId).any fun g =>
            (db.groupMembership.row (chatId, uid)).any (membershipAllowed g)
        else memberUids
      pushJob :=
        if enqueuePush && decide (response.messageType ≠ .system) then
          some
            { chatId := chatId
              senderUid := senderUid
              messageId := response.id
              threadRootId := response.replyRootId
              mentionedUids := mentionedMemberUids
              replyTargetUid := replyTargetUid }
        else none
      notifications :=
        (mentionedMemberUids.map fun uid => (uid, notification .mention)) ++
          replyNotificationUid.toList.map fun uid => (uid, notification .reply) })

end Database

/-- Everything but the mentions of a message. -/
structure SameBesidesMentions (db db' : Database) : Prop where
  messages : db'.messages = db.messages
  attachments : db'.attachments = db.attachments
  threadMeta : db'.threadMeta = db.threadMeta
  threadUserStates : db'.threadUserStates = db.threadUserStates
  groupMembership : db'.groupMembership = db.groupMembership
  groups : db'.groups = db.groups
  pinnedMessages : db'.pinnedMessages = db.pinnedMessages

theorem insertMention_same (db : Database) (messageId uid : Int) (mention : Mention) :
    SameBesidesMentions db (db.insertMention messageId uid mention) := by
  unfold Database.insertMention
  split <;> exact ⟨rfl, rfl, rfl, rfl, rfl, rfl, rfl⟩

theorem SameBesidesMentions.trans {a b c : Database} (h : SameBesidesMentions a b)
    (h' : SameBesidesMentions b c) : SameBesidesMentions a c where
  messages := h'.messages.trans h.messages
  attachments := h'.attachments.trans h.attachments
  threadMeta := h'.threadMeta.trans h.threadMeta
  threadUserStates := h'.threadUserStates.trans h.threadUserStates
  groupMembership := h'.groupMembership.trans h.groupMembership
  groups := h'.groups.trans h.groups
  pinnedMessages := h'.pinnedMessages.trans h.pinnedMessages

theorem insertMentions_same (db : Database) (response : MessageResponse) (chatId : Int)
    (kind : MentionKind) (uids : List Int) :
    SameBesidesMentions db (db.insertMentions response chatId kind uids) := by
  unfold Database.insertMentions
  induction uids generalizing db with
  | nil => exact ⟨rfl, rfl, rfl, rfl, rfl, rfl, rfl⟩
  | cons uid uids ih => exact (insertMention_same db response.id uid _).trans (ih _)

theorem buildMessageSideEffects_same (db : Database) (response : MessageResponse)
    (senderUid chatId : Int) (enqueuePush notifyMentions : Bool) :
    SameBesidesMentions db
      (db.buildMessageSideEffects response senderUid chatId enqueuePush notifyMentions).1 :=
  (insertMentions_same db response chatId .mention _).trans (insertMentions_same _ response chatId _ _)

end Chahua.Messages

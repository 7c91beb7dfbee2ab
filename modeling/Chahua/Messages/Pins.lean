import Chahua.Messages.Sends

namespace Chahua.Messages

open Framework

def MAX_PINS_PER_SCOPE : Nat := 50

/-- Chat pins and the pins of each thread are independent lists. -/
inductive PinScope where
  | chat
  | thread (threadRootId : Int)
  deriving DecidableEq, Repr

def PinScope.threadRootId : PinScope → Option Int
  | .chat => none
  | .thread threadRootId => some threadRootId

inductive PinAction where
  | pinned | unpinned
  deriving DecidableEq, Repr

def pinAnnouncement : PinScope → PinAction → SystemMessageKind × String
  | .chat, .pinned => (.messagePinned, "pinned a message")
  | .chat, .unpinned => (.messageUnpinned, "unpinned a message")
  | .thread _, .pinned => (.threadMessagePinned, "pinned a message in this thread")
  | .thread _, .unpinned => (.threadMessageUnpinned, "unpinned a message in this thread")

/-- `system_messages::with_message`. -/
def withMessage (text : String) (messageId : Int) : String :=
  "\x7b\"links\":\x7b\"messageId\":\"" ++ toString messageId ++ "\"\x7d,\"text\":\"" ++ text ++
    "\"\x7d"

/-- The announcement of a thread pin is a reply of the thread. -/
def pinSystemMessage (uid chatId : Int) (scope : PinScope) (action : PinAction) (messageId : Int) :
    PreparedMessageSend where
  systemKind := some (pinAnnouncement scope action).1
  forwardedFromMessageId := none
  chatId := chatId
  senderUid := uid
  message := some (withMessage (pinAnnouncement scope action).2 messageId)
  messageType := .system
  replyToId := scope.threadRootId
  replyRootId := scope.threadRootId
  attachmentIds := []
  publishImmediately := true

def messageBelongsToThread (messageId : Int) (replyRootId : Option Int) (threadRootId : Int) :
    Bool :=
  decide (messageId = threadRootId) || decide (replyRootId = some threadRootId)

namespace Database

/-- Best effort: without an id, or for a target that cannot be replied to, nothing is sent. -/
def sendPinSystemMessage (db : Database) (now : Int) (id : Option Int) (p : PreparedMessageSend) :
    Database × List Output :=
  match id with
  | none => (db, [])
  | some id =>
      match db.sendPreparedMessage now id p with
      | .error _ => (db, [])
      | .ok (db, sent) => (db, sent.sideEffects.fire)

def requirePinPermission (db : Database) (chatId uid : Int) : Except AppError Unit :=
  match db.groups.row chatId with
  | none => .error .dbQuery
  | some g =>
      match g.kind, (db.groupMembership.row (chatId, uid)).map Membership.role with
      | _, none => .error (.forbidden "Not a member of this chat")
      | .group, some .member => .error (.forbidden "Admin role required")
      | _, some _ => .ok ()

/-- A thread pin needs a root that is not deleted and a message of its thread. -/
def checkPinScope (db : Database) (chatId messageId : Int) (msg : Message) :
    PinScope → Except AppError Unit
  | .chat => .ok ()
  | .thread threadRootId =>
      if (db.messages.row threadRootId).any fun root =>
          decide (root.chatId = chatId) && root.deletedAt.isNone then
        if messageBelongsToThread messageId msg.replyRootId threadRootId then .ok ()
        else .error (.badRequest "Message is not part of this thread")
      else .error (.notFound "Thread not found")

def pinsInScope (db : Database) (now chatId : Int) (scope : PinScope) : Finset Int :=
  db.pinnedMessages.select fun _ pin =>
    decide (pin.chatId = chatId) && decide (pin.threadRootId = scope.threadRootId) &&
      pin.expiresAt.all fun expiresAt => decide (now < expiresAt)

def alreadyPinned (db : Database) (chatId messageId : Int) (scope : PinScope) : Bool :=
  decide (db.pinnedMessages.select (fun _ pin =>
    decide (pin.chatId = chatId) && decide (pin.threadRootId = scope.threadRootId) &&
      decide (pin.messageId = messageId)) ≠ ∅)

def checkCreatePin (db : Database) (now pinId uid chatId : Int) (scope : PinScope)
    (messageId : Int) : Except AppError Unit :=
  match db.requirePinPermission chatId uid with
  | .error e => .error e
  | .ok () =>
      match (db.messages.row messageId).filter fun m => decide (m.chatId = chatId) && m.isLive with
      | none => .error (.notFound "Message not found")
      | some msg =>
          if !msg.nonMembership then .error (.badRequest "Cannot pin membership messages")
          else
            match db.checkPinScope chatId messageId msg scope with
            | .error e => .error e
            | .ok () =>
                if MAX_PINS_PER_SCOPE ≤ (db.pinsInScope now chatId scope).card then
                  .error (.conflict "Maximum number of pins reached")
                else if db.alreadyPinned chatId messageId scope then
                  .error (.conflict "Message is already pinned")
                else if (db.pinnedMessages.row pinId).isSome then .error (.internal "Database error")
                else .ok ()

/-- `announcementId` is the id generated for the announcement, if one was. -/
def createPinInScope (db : Database) (now pinId : Int) (announcementId : Option Int)
    (uid chatId : Int) (scope : PinScope) (messageId : Int) :
    Except AppError (Database × List Output) :=
  match db.checkCreatePin now pinId uid chatId scope messageId with
  | .error e => .error e
  | .ok () =>
      let db := { db with
        pinnedMessages := db.pinnedMessages.upsert pinId
          { chatId := chatId
            messageId := messageId
            pinnedBy := uid
            pinnedAt := now
            expiresAt := none
            threadRootId := scope.threadRootId } }
      .ok (db.sendPinSystemMessage now announcementId
        (pinSystemMessage uid chatId scope .pinned messageId))

def deletePinInScope (db : Database) (now pinId : Int) (announcementId : Option Int)
    (uid chatId : Int) (scope : PinScope) : Except AppError (Database × List Output) :=
  match db.requirePinPermission chatId uid with
  | .error e => .error e
  | .ok () =>
      match (db.pinnedMessages.row pinId).filter fun pin =>
          decide (pin.chatId = chatId) && decide (pin.threadRootId = scope.threadRootId) with
      | none => .error (.notFound "Pin not found")
      | some pin =>
          let db := { db with pinnedMessages := db.pinnedMessages.erase pinId }
          .ok (db.sendPinSystemMessage now announcementId
            (pinSystemMessage uid chatId scope .unpinned pin.messageId))

def createThreadPin (db : Database) (now pinId : Int) (announcementId : Option Int)
    (uid chatId threadRootId messageId : Int) : Except AppError (Database × List Output) :=
  db.createPinInScope now pinId announcementId uid chatId (.thread threadRootId) messageId

def deleteThreadPin (db : Database) (now pinId : Int) (announcementId : Option Int)
    (uid chatId threadRootId : Int) : Except AppError (Database × List Output) :=
  db.deletePinInScope now pinId announcementId uid chatId (.thread threadRootId)

end Database

end Chahua.Messages

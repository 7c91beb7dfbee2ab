import Chahua.Messages.Chats
import Chahua.Messages.Threads

namespace Chahua.Messages

open Framework

structure PreparedMessageSend where
  systemKind : Option SystemMessageKind
  forwardedFromMessageId : Option Int
  chatId : Int
  senderUid : Int
  message : Option String
  messageType : MessageType
  replyToId : Option Int
  replyRootId : Option Int
  attachmentIds : List Int
  publishImmediately : Bool
  deriving DecidableEq, Repr

/-- What a successful send hands back to its caller. -/
structure SendMessageResult where
  response : MessageResponse
  memberUids : List Int
  sideEffects : PendingSideEffects

/-- The row as it is inserted. A sticker never persists text. -/
def PreparedMessageSend.newMessage (p : PreparedMessageSend) (now : Int) : Message where
  message := if p.messageType = .sticker then none else p.message
  messageType := p.messageType
  replyToId := p.replyToId
  replyRootId := p.replyRootId
  senderUid := p.senderUid
  chatId := p.chatId
  createdAt := now
  deletedAt := none
  hasThread := false
  isPublished := p.publishImmediately
  transcodeStatus :=
    if p.messageType = .audio then (if p.publishImmediately then .done else .pending) else .none
  systemKind := p.systemKind

namespace Database

def validateReplyTarget (db : Database) (chatId : Int) (threadId : Option Int) (replyToId : Int) :
    Except AppError Unit :=
  match (db.messages.row replyToId).filter fun m => decide (m.chatId = chatId) && m.isLive with
  | none => .error (.notFound "Reply target message not found")
  | some replyMsg =>
      if !replyMsg.nonMembership then
        .error (.badRequest "Cannot reply to membership messages")
      else if inThreadContext threadId replyToId replyMsg then .ok ()
      else .error (.notFound "Reply target message not found")

def attachable (db : Database) (senderUid : Int) (attachmentIds : List Int) : Bool :=
  decide attachmentIds.Nodup && attachmentIds.all fun id =>
    (db.attachments.row id).any fun a =>
      a.deletedAt.isNone && a.messageId.isNone && decide (a.uploaderUid = some senderUid)

/-- What a send can be rejected for; `id` is the generated one. -/
def checkSend (db : Database) (id : Int) (p : PreparedMessageSend) : Except AppError Unit :=
  if p.messageType = .placeholder ∧ p.attachmentIds ≠ [] then
    .error (.badRequest "Placeholder messages cannot reference media or bundles")
  else
    match p.replyToId.elim (.ok ()) (db.validateReplyTarget p.chatId p.replyRootId) with
    | .error e => .error e
    | .ok () =>
        if (db.messages.row id).isSome then .error .dbQuery
        else if db.attachable p.senderUid p.attachmentIds then .ok ()
        else .error (.badRequest "Invalid attachment selection")

/-- The message with its attachments, and the chat's last message if it is published there. -/
def insertMessage (db : Database) (now id : Int) (p : PreparedMessageSend) : Database :=
  { db with
    messages := db.messages.upsert id (p.newMessage now)
    groups :=
      if p.publishImmediately && p.replyRootId.isNone then
        db.groups.updateWhere (fun chatId _ => decide (chatId = p.chatId)) fun _ g =>
          { g with lastMessageId := some id, lastMessageAt := some now }
      else db.groups
    attachments := db.attachments.updateWhere (fun a _ => decide (a ∈ p.attachmentIds)) fun a row =>
      { row with messageId := some id, order := p.attachmentIds.idxOf a } }

def sendPreparedMessage (db : Database) (now id : Int) (p : PreparedMessageSend) :
    Except AppError (Database × SendMessageResult) :=
  match db.checkSend id p with
  | .error e => .error e
  | .ok () =>
      let db := db.insertMessage now id p
      let response := db.attachMetadata id (p.newMessage now)
      if p.publishImmediately then
        let (db, sideEffects) := db.buildMessageSideEffects response p.senderUid p.chatId
          (decide (p.messageType ≠ .system)) p.forwardedFromMessageId.isNone
        .ok (db,
          { response := response
            memberUids := sideEffects.broadcastUids
            sideEffects := sideEffects })
      else
        .ok (db,
          { response := response
            memberUids := []
            sideEffects :=
              { wsMsg := .message response
                broadcastUids := []
                pushJob := none
                notifications := [] } })

/-- Only members send; the root of a thread is a text message that is still in its chat's window. -/
def authorizeMessageSend (db : Database) (chatId : Int) (threadId : Option Int) (uid : Int) :
    Except AppError (Option Message) :=
  if (db.groups.row chatId).isNone ∨ (db.groupMembership.row (chatId, uid)).isNone then
    .error (.forbidden "Not a member of this chat")
  else
    match threadId with
    | none => .ok none
    | some threadId =>
        match (db.messages.row threadId).filter (inChatWindow chatId) with
        | none => .error (.notFound "Thread root message not found")
        | some root =>
            if root.messageType = .text then .ok (some root)
            else .error (.badRequest "Threads can only be created on text messages")

/-- A send to the main channel moves the sender's read pointer to the message. -/
def sendToChat (db : Database) (now id : Int) (hidden : Bool) (p : PreparedMessageSend) :
    Except AppError (Database × List Output) :=
  match db.authorizeMessageSend p.chatId none p.senderUid with
  | .error e => .error e
  | .ok _ =>
      match db.sendPreparedMessage now id { p with replyRootId := none } with
      | .error e => .error e
      | .ok (db, sent) =>
          .ok (db.markChatAsRead hidden p.chatId p.senderUid id, sent.sideEffects.fire)

def sendToThread (db : Database) (now id threadId : Int) (notifyMentions : Bool)
    (p : PreparedMessageSend) : Except AppError (Database × List Output) :=
  match db.authorizeMessageSend p.chatId (some threadId) p.senderUid with
  | .error e => .error e
  | .ok none => .error (.internal "Thread authorization did not return a thread root")
  | .ok (some root) =>
      match db.sendPreparedMessage now id { p with replyRootId := some threadId } with
      | .error e => .error e
      | .ok (db, sent) =>
          .ok ((db.recordThreadSend now sent.response sent.memberUids threadId root
            p.publishImmediately notifyMentions).1, sent.sideEffects.fire)

end Database

structure CreateMessageBody where
  message : Option String
  messageType : MessageType
  replyToId : Option Int
  attachmentIds : List Int
  deriving DecidableEq, Repr

def validateClientMessageType : MessageType → Except AppError Unit
  | .system => .error (.badRequest "System messages cannot be sent by clients")
  | .invite => .error (.badRequest "Invite messages must be sent through invite APIs")
  | .forwarded => .error (.badRequest "Forwarded messages must be sent through forward APIs")
  | .placeholder => .error (.badRequest "Placeholder messages must be created through forward APIs")
  | _ => .ok ()

/-- Audio is published when it has been transcoded. -/
def CreateMessageBody.prepared (body : CreateMessageBody) (uid chatId : Int) :
    PreparedMessageSend where
  systemKind := none
  forwardedFromMessageId := none
  chatId := chatId
  senderUid := uid
  message := body.message
  messageType := body.messageType
  replyToId := body.replyToId
  replyRootId := none
  attachmentIds := body.attachmentIds
  publishImmediately := decide (body.messageType ≠ .audio)

/-- The copy a forward sends: the content of its source, or a bundle of several. -/
structure ForwardBody where
  message : Option String
  messageType : MessageType
  attachmentIds : List Int
  forwardedFromMessageId : Option Int
  deriving DecidableEq, Repr

def ForwardBody.prepared (body : ForwardBody) (uid chatId : Int) : PreparedMessageSend where
  systemKind := none
  forwardedFromMessageId := body.forwardedFromMessageId
  chatId := chatId
  senderUid := uid
  message := body.message
  messageType := body.messageType
  replyToId := none
  replyRootId := none
  attachmentIds := body.attachmentIds
  publishImmediately := true

namespace Database

def postMessage (db : Database) (now id uid chatId : Int) (hidden : Bool)
    (body : CreateMessageBody) : Except AppError (Database × List Output) :=
  match validateClientMessageType body.messageType with
  | .error e => .error e
  | .ok () => db.sendToChat now id hidden (body.prepared uid chatId)

def postThreadMessage (db : Database) (now id uid chatId threadId : Int)
    (body : CreateMessageBody) : Except AppError (Database × List Output) :=
  match validateClientMessageType body.messageType with
  | .error e => .error e
  | .ok () => db.sendToThread now id threadId true (body.prepared uid chatId)

def forwardMessage (db : Database) (now id uid chatId : Int) (threadId : Option Int)
    (hidden : Bool) (body : ForwardBody) : Except AppError (Database × List Output) :=
  match threadId with
  | none => db.sendToChat now id hidden (body.prepared uid chatId)
  | some threadId => db.sendToThread now id threadId false (body.prepared uid chatId)

end Database

end Chahua.Messages

import Chahua.Messages.Composition
import Chahua.Messages.System

namespace Chahua.Messages

open Framework

/-- The columns of a message row that only a repeated send and a forward read. -/
structure SendColumns where
  clientGeneratedId : String
  stickerId : Option Int
  forwardedFromMessageId : Option Int
  forwardedBundleId : Option Int
  deriving DecidableEq, Repr

structure SendRequest extends PreparedMessageSend where
  clientGeneratedId : String
  stickerId : Option Int
  forwardedBundleId : Option Int
  deriving DecidableEq, Repr

def SendRequest.columns (p : SendRequest) : SendColumns where
  clientGeneratedId := p.clientGeneratedId
  stickerId := p.stickerId
  forwardedFromMessageId := p.forwardedFromMessageId
  forwardedBundleId := p.forwardedBundleId

/-- A sticker never persists text. -/
def SendRequest.storedMessage (p : SendRequest) : Option String :=
  if p.messageType = .sticker then none else p.message

inductive SendMessageOutcome where
  | created (result : SendMessageResult)
  | duplicate (response : MessageResponse)

structure UpdateMessageBody where
  message : String
  attachmentIds : List Int
  deriving DecidableEq, Repr

def validateIdempotentMessagePayload (existing : Message) (columns : SendColumns)
    (p : SendRequest) (existingAttachmentIds : List Int) : Except AppError Unit :=
  if existing.chatId = p.chatId ∧ existing.senderUid = p.senderUid ∧
      existing.message = p.storedMessage ∧ existing.messageType = p.messageType ∧
      existing.systemKind = p.systemKind ∧ columns.stickerId = p.stickerId ∧
      existing.replyToId = p.replyToId ∧ existing.replyRootId = p.replyRootId ∧
      columns.forwardedFromMessageId = p.forwardedFromMessageId ∧
      columns.forwardedBundleId = p.forwardedBundleId ∧
      existingAttachmentIds = p.attachmentIds then .ok ()
  else .error (.conflict "clientGeneratedId already exists with different payload")

namespace Database

/-- The live attachments of a message by position, then id. -/
def loadMessageAttachmentIds (db : Database) (messageId : Int) : List Int :=
  let keys : Finset (Int ×ₗ Int) := db.attachments.image
    (fun _ a => decide (a.messageId = some messageId) && a.deletedAt.isNone)
    fun id a => toLex (a.order, id)
  (ascending keys).map fun key => (ofLex key).2

/-- The rows of a selection, locked in ascending order. -/
def lockedAttachments (db : Database) (attachmentIds : List Int) : List Attachment :=
  (ascending attachmentIds.toFinset).filterMap db.attachments.row

/-- An edit keeps attachments of its message and takes unclaimed ones of its author. -/
def editable (db : Database) (uid messageId : Int) (attachmentIds : List Int) : Bool :=
  decide attachmentIds.Nodup && attachmentIds.all fun id =>
    (db.attachments.row id).any fun a =>
      a.deletedAt.isNone && (decide (a.messageId = some messageId) ||
        a.messageId.isNone && decide (a.uploaderUid = some uid))

/-- Every attachment of the message is let go, then the requested ones are claimed in order. -/
def replaceAttachments (db : Database) (messageId : Int) (attachmentIds : List Int) : Database :=
  let detached := db.attachments.updateWhere (fun _ a => decide (a.messageId = some messageId))
    fun _ a => { a with messageId := none }
  { db with
    attachments := detached.updateWhere (fun id a => decide (id ∈ attachmentIds) && a.messageId.isNone)
      fun id a => { a with messageId := some messageId, order := attachmentIds.idxOf id } }

def setMessageText (db : Database) (messageId : Int) (text : String) : Database :=
  { db with
    messages := db.messages.updateWhere (fun id _ => decide (id = messageId)) fun _ m =>
      { m with message := some text } }

/-- The mentions an edit takes away: that of the member replied to becomes a reply again. -/
def dropMentions (db : Database) (messageId : Int) (message : Message) (removed : List Int) :
    Database :=
  let replyTargetUid := message.replyToId.bind fun replyToId =>
    (db.messages.row replyToId).map (·.senderUid)
  { db with
    messageMentions := (db.messageMentions.updateWhere
        (fun key _ => decide (key.1 = messageId) && decide (key.2 ∈ removed) &&
          decide (some key.2 = replyTargetUid))
        fun _ mention => { mention with kind := .reply }).deleteWhere
      fun key _ => decide (key.1 = messageId) && decide (key.2 ∈ removed) &&
        decide (some key.2 ≠ replyTargetUid) }

/-- `INSERT … ON CONFLICT DO UPDATE SET kind`. -/
def upsertMention (db : Database) (messageId uid : Int) (mention : Mention) : Database :=
  { db with
    messageMentions := db.messageMentions.upsert (messageId, uid)
      (((db.messageMentions.row (messageId, uid)).map fun row =>
        { row with kind := mention.kind }).getD mention) }

/-- The mentions an edit adds; in a thread they subscribe the members they name. -/
def addMentions (db : Database) (editedAt messageId : Int) (message : Message)
    (added : List Int) : Database :=
  let db := added.foldl (fun db uid => db.upsertMention messageId uid
    { chatId := message.chatId
      threadRootId := message.replyRootId
      createdAt := editedAt
      kind := .mention }) db
  match message.replyRootId with
  | none => db
  | some threadRootId => added.foldl (fun db uid =>
      (db.ensureThreadSubscription editedAt message.chatId threadRootId uid).1) db

def syncEditedMessageMentions (db : Database) (editedAt messageId : Int) (message : Message)
    (newText : String) (editorUid : Int) : Database :=
  let oldUids := message.message.elim [] extractMentionUids
  let newUids := extractMentionUids newText
  (db.dropMentions messageId message (oldUids.filter fun uid => decide (uid ∉ newUids))).addMentions
    editedAt messageId message (newUids.filter fun uid =>
      decide (uid ∉ oldUids) && decide (uid ≠ editorUid) &&
        decide (uid ∈ db.memberUids message.chatId))

/-- What an edit is rejected for, and the row it edits. -/
def checkPatch (db : Database) (columns : Table Int SendColumns) (uid chatId messageId : Int)
    (body : UpdateMessageBody) : Except AppError Message :=
  if (db.groupMembership.row (chatId, uid)).isNone then
    .error (.forbidden "Not a member of this chat")
  else
    match (db.messages.row messageId).filter fun m => decide (m.chatId = chatId) with
    | none => .error (.notFound "Message not found")
    | some message =>
        let row := columns.row messageId
        if message.senderUid ≠ uid then
          .error (.forbidden "You can only edit your own messages")
        else if message.deletedAt.isSome then .error (.badRequest "Cannot edit deleted message")
        else if !message.isPublished then .error (.badRequest "Cannot edit unpublished message")
        else if (row.bind (·.forwardedFromMessageId)).isSome ∨ message.messageType = .placeholder then
          .error (.forbidden "Forwarded messages cannot be edited")
        else if message.messageType ≠ .text then
          .error (.badRequest "This message type cannot be edited")
        else if db.editable uid messageId body.attachmentIds then
          match validateMessage message.messageType (some body.message) (row.bind (·.stickerId))
              (db.lockedAttachments body.attachmentIds) with
          | .error e => .error e
          | .ok () => .ok message
        else .error (.badRequest "Invalid attachment selection")

def patchMessage (db : Database) (columns : Table Int SendColumns) (now uid chatId messageId : Int)
    (body : UpdateMessageBody) : Except AppError Database :=
  match db.checkPatch columns uid chatId messageId body with
  | .error e => .error e
  | .ok message =>
      .ok (((db.replaceAttachments messageId body.attachmentIds).setMessageText messageId
        body.message).syncEditedMessageMentions now messageId message body.message uid)

end Database

end Chahua.Messages

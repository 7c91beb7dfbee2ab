import Chahua.Messages.Chats
import Chahua.Messages.Threads

namespace Chahua.Messages

open Framework

/-- The columns that authorization and deletion bookkeeping read. -/
structure DeletionTarget where
  id : Int
  senderUid : Int
  isPublished : Bool
  messageType : MessageType
  replyRootId : Option Int
  hasThread : Bool
  deriving DecidableEq, Repr

structure DeletionImpact where
  messageIds : List Int
  threadRootIds : Finset Int
  replyIds : Table Int (List Int)
  chatMessageIds : List Int

namespace DeletionImpact

def empty : DeletionImpact := ⟨[], ∅, .empty, []⟩

def merge (impact batch : DeletionImpact) : DeletionImpact where
  messageIds := impact.messageIds ++ batch.messageIds
  threadRootIds := impact.threadRootIds ∪ batch.threadRootIds
  replyIds := (ascending batch.replyIds.keys).foldl (fun replyIds rootId =>
    replyIds.upsert rootId
      ((replyIds.row rootId).getD [] ++ (batch.replyIds.row rootId).getD [])) impact.replyIds
  chatMessageIds := impact.chatMessageIds ++ batch.chatMessageIds

def add (impact : DeletionImpact) (message : DeletionTarget) : DeletionImpact :=
  match message.replyRootId with
  | some rootId =>
      { impact with
        messageIds := impact.messageIds ++ [message.id]
        threadRootIds := insert rootId impact.threadRootIds
        replyIds := impact.replyIds.upsert rootId
          ((impact.replyIds.row rootId).getD [] ++ [message.id]) }
  | none =>
      { impact with
        messageIds := impact.messageIds ++ [message.id]
        threadRootIds :=
          if message.hasThread then insert message.id impact.threadRootIds
          else impact.threadRootIds
        chatMessageIds := impact.chatMessageIds ++ [message.id] }

end DeletionImpact

def validateDeletableMessageType (messageType : MessageType) : Except AppError Unit :=
  if messageType = .system then .error (.badRequest "Cannot delete system message") else .ok ()

def validateDeletable : List DeletionTarget → Except AppError Unit
  | [] => .ok ()
  | message :: targets =>
      match validateDeletableMessageType message.messageType with
      | .error e => .error e
      | .ok () => validateDeletable targets

namespace Database

def deletionTarget (db : Database) (id : Int) : Option DeletionTarget :=
  (db.messages.row id).map fun m =>
    { id := id
      senderUid := m.senderUid
      isPublished := m.isPublished
      messageType := m.messageType
      replyRootId := m.replyRootId
      hasThread := m.hasThread }

/-- The three statements of a batch: the messages, their mentions, their attachments. -/
def softDelete (db : Database) (now : Int) (ids : List Int) : Database :=
  { db with
    messages := db.messages.updateWhere
      (fun id m => decide (id ∈ ids) && m.deletedAt.isNone) fun _ m =>
        { m with deletedAt := some now }
    messageMentions := db.messageMentions.deleteWhere fun key _ => decide (key.1 ∈ ids)
    attachments := db.attachments.updateWhere
      (fun _ a => a.messageId.any (fun id => decide (id ∈ ids)) && a.deletedAt.isNone) fun _ a =>
        { a with deletedAt := some now } }

def softDeleteBatch (db : Database) (now : Int) (targets : List DeletionTarget) :
    Except AppError (Database × DeletionImpact) :=
  match validateDeletable targets with
  | .error e => .error e
  | .ok () =>
      let impact := targets.foldl DeletionImpact.add .empty
      .ok (db.softDelete now impact.messageIds, impact)

def reconcileReplies (db : Database) (chatId : Int) (replyIds : Table Int (List Int)) : Database :=
  (ascending replyIds.keys).foldl (fun db rootId =>
    (db.recalculateThreadMeta chatId rootId).shiftThreadReadPointersOnDelete rootId
      ((replyIds.row rootId).getD [])) db

/-- The deleted messages of the list that are no longer shown for their thread. -/
def hiddenChatIds (db : Database) (chatIds : List Int) : List Int :=
  chatIds.filter fun id => (db.messages.row id).any fun m => !m.hasThread && m.deletedAt.isSome

def reconcileLastMessage (db : Database) (chatId : Int) (messageIds : List Int) :
    Except AppError Database :=
  match db.groups.row chatId with
  | none => .error .dbQuery
  | some g =>
      if g.lastMessageId.any fun id => decide (id ∈ messageIds) then
        .ok (db.recalculateGroupLastMessage chatId)
      else .ok db

def reconcileDeletions (db : Database) (chatId : Int) (impact : DeletionImpact) :
    Except AppError Database :=
  let db := db.reconcileReplies chatId impact.replyIds
  let hidden := db.hiddenChatIds (impact.chatMessageIds ++ ascending impact.threadRootIds)
  (db.shiftChatReadPointersOnDelete chatId hidden).reconcileLastMessage chatId impact.messageIds

/-- The rows of a selection in the chat, locked in ascending order. -/
def selectTargets (db : Database) (chatId : Int) (ids : List Int) : List DeletionTarget :=
  (ascending (db.messages.select fun id m =>
    decide (m.chatId = chatId) && decide (id ∈ ids))).filterMap db.deletionTarget

def checkSelection (selected : List DeletionTarget) (uid : Int) (isAdmin : Bool) (ids : List Int) :
    Except AppError Unit :=
  if selected.length ≠ ids.length then .error (.notFound "Message not found")
  else if !isAdmin && selected.any fun message => decide (message.senderUid ≠ uid) then
    .error (.forbidden "You can only delete your own messages")
  else if selected.any fun message => !message.isPublished then
    .error (.badRequest "Cannot delete unpublished message")
  else .ok ()

def deleteSelection (db : Database) (now chatId uid : Int) (isAdmin : Bool) (ids : List Int) :
    Except AppError Database :=
  let selected := db.selectTargets chatId ids
  match checkSelection selected uid isAdmin ids with
  | .error e => .error e
  | .ok () =>
      match db.softDeleteBatch now selected with
      | .error e => .error e
      | .ok (db, impact) => db.reconcileDeletions chatId impact

/-- What `delete_message` checks before its transaction. -/
def checkDeleteMessage (db : Database) (uid chatId messageId : Int) : Except AppError Unit :=
  match db.groupMembership.row (chatId, uid) with
  | none => .error (.forbidden "Not a member of this chat")
  | some gm =>
      match (db.messages.row messageId).filter fun m => decide (m.chatId = chatId) with
      | none => .error (.notFound "Message not found")
      | some message =>
          if message.senderUid ≠ uid ∧ gm.role ≠ .admin then
            .error (.forbidden "You can only delete your own messages")
          else
            match validateDeletableMessageType message.messageType with
            | .error e => .error e
            | .ok () =>
                if message.deletedAt.isSome then .error (.gone "Message already deleted")
                else if !message.isPublished then
                  .error (.badRequest "Cannot delete unpublished message")
                else .ok ()

/-- The row is marked and its mentions go; its attachments stay as they are. -/
def markDeleted (db : Database) (now messageId : Int) : Database :=
  { db with
    messages := db.messages.updateWhere (fun id _ => decide (id = messageId)) fun _ m =>
      { m with deletedAt := some now }
    messageMentions := db.messageMentions.deleteWhere fun key _ => decide (key.1 = messageId) }

/-- The transaction of `delete_message`. -/
def deleteMessageTransaction (db : Database) (now chatId messageId : Int) :
    Except AppError Database :=
  let db := db.markDeleted now messageId
  match db.messages.row messageId with
  | none => .error .dbQuery
  | some deletedMessage =>
      let db := match deletedMessage.replyRootId with
        | some replyRootId => db.recalculateThreadMeta chatId replyRootId
        | none => db
      match db.groups.row chatId with
      | none => .error .dbQuery
      | some g =>
          let db :=
            if g.lastMessageId = some messageId then db.recalculateGroupLastMessage chatId else db
          .ok (match deletedMessage.replyRootId with
            | some threadRootId => db.shiftThreadReadPointersOnDelete threadRootId [messageId]
            | none =>
                if deletedMessage.hasThread then db
                else db.shiftChatReadPointersOnDelete chatId [messageId])

def deleteMessage (db : Database) (now uid chatId messageId : Int) : Except AppError Database :=
  match db.checkDeleteMessage uid chatId messageId with
  | .error e => .error e
  | .ok () => db.deleteMessageTransaction now chatId messageId

end Database

def BATCH_SIZE : Nat := 500

inductive DeleteScope where
  | all | last24Hours
  deriving DecidableEq, Repr

def DAY : Int := 86400000000

namespace Database

/-- The messages of a member that a batch may take, unpublished ones included. -/
def bulkDeleteTargets (db : Database) (now chatId targetUid : Int) (scope : DeleteScope) :
    List DeletionTarget :=
  (ascendingUpTo BATCH_SIZE (db.messages.select fun _ m =>
    decide (m.chatId = chatId) && decide (m.senderUid = targetUid) &&
      decide (m.messageType ≠ .system) && m.deletedAt.isNone &&
      (decide (scope = .all) || decide (now - DAY ≤ m.createdAt)))).filterMap db.deletionTarget

/-- One transaction of the loop. -/
def bulkDeleteBatch (db : Database) (now chatId targetUid : Int) (scope : DeleteScope) :
    Except AppError (Database × DeletionImpact) :=
  match db.bulkDeleteTargets now chatId targetUid scope with
  | [] => .ok (db, .empty)
  | targets => db.softDeleteBatch now targets

/-- The loop over batches; `clock` holds the time of each of them, and a loop the clock does not
outlast did not complete. -/
def bulkDeleteBatches (db : Database) (impact : DeletionImpact) (chatId targetUid : Int)
    (scope : DeleteScope) : List Int → Except AppError (Database × DeletionImpact)
  | [] => .error (.internal "not completed")
  | now :: clock =>
      match db.bulkDeleteBatch now chatId targetUid scope with
      | .error e => .error e
      | .ok (db, batch) =>
          if batch.messageIds.length = 0 then .ok (db, impact)
          else if batch.messageIds.length < BATCH_SIZE then .ok (db, impact.merge batch)
          else db.bulkDeleteBatches (impact.merge batch) chatId targetUid scope clock

/-- A member cleanup: all batches, then one reconciliation. -/
def processBulkDelete (db : Database) (clock : List Int) (chatId targetUid : Int)
    (scope : DeleteScope) : Except AppError Database :=
  match db.bulkDeleteBatches .empty chatId targetUid scope clock with
  | .error e => .error e
  | .ok (db, impact) =>
      if impact.messageIds = [] then .ok db else db.reconcileDeletions chatId impact

end Database

end Chahua.Messages

import Chahua.Messages.Store

namespace Chahua.Messages

open Framework

/-- What the window around a chat message holds: deleted messages stay while they have a thread. -/
def inChatWindow (chatId : Int) (m : Message) : Bool :=
  decide (m.chatId = chatId) && m.isTopLevel && (m.deletedAt.isNone || m.hasThread) && m.isPublished

namespace Database

def recalculateGroupLastMessage (db : Database) (chatId : Int) : Database :=
  let prevMessage := db.messages.newest fun _ m =>
    decide (m.chatId = chatId) && m.isLive && m.isTopLevel
  { db with
    groups := db.groups.updateWhere (fun id _ => decide (id = chatId)) fun _ g =>
      { g with
        lastMessageId := prevMessage
        lastMessageAt := prevMessage.bind fun id => (db.messages.row id).map (·.createdAt) } }

/-- The newest message of the window before a read pointer. -/
def previousInChat (db : Database) (chatId last : Int) : Option Int :=
  db.messages.newest fun id m => decide (id < last) && inChatWindow chatId m

def shiftChatReadPointersOnDelete (db : Database) (chatId : Int) (deletedMessageIds : List Int) :
    Database :=
  if deletedMessageIds = [] then db
  else
    { db with
      groupMembership := db.groupMembership.updateWhere
        (fun key gm => decide (key.1 = chatId) &&
          gm.lastReadMessageId.any fun last => decide (last ∈ deletedMessageIds))
        fun _ gm =>
          { gm with lastReadMessageId := gm.lastReadMessageId.bind (db.previousInChat chatId) } }

/-- The last message of a run of hidden membership messages after `messageId`. -/
def skipHiddenMembershipTail (db : Database) (chatId messageId : Int) : Int :=
  let nextVisible := db.messages.oldest fun id m =>
    decide (messageId < id) && inChatWindow chatId m && m.nonMembership
  (db.messages.newest fun id m => decide (messageId < id) &&
    decide (id < nextVisible.getD 9223372036854775807) && inChatWindow chatId m).getD messageId

/-- `hidden` is what `load_membership_message_filter` reads from the user's settings. -/
def readBoundary (db : Database) (hidden : Bool) (chatId messageId : Int) : Int :=
  if hidden then db.skipHiddenMembershipTail chatId messageId else messageId

def markChatAsRead (db : Database) (hidden : Bool) (chatId uid messageId : Int) : Database :=
  let boundary := db.readBoundary hidden chatId messageId
  { db with
    groupMembership := db.groupMembership.updateWhere
      (fun key gm => decide (key = (chatId, uid)) && advances gm.lastReadMessageId boundary)
      fun _ gm => { gm with lastReadMessageId := some boundary } }

end Database

end Chahua.Messages

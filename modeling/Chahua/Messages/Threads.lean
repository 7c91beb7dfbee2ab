import Chahua.Messages.SideEffects

namespace Chahua.Messages

open Framework

namespace Database

def incrementThreadMeta (db : Database) (chatId threadRootId replyAt : Int) : Database :=
  { db with
    threadMeta := db.threadMeta.upsert (chatId, threadRootId)
      { replyCount := ((db.threadMeta.row (chatId, threadRootId)).elim 0 (·.replyCount)) + 1
        lastReplyAt := some replyAt } }

def recalculateThreadMeta (db : Database) (chatId threadRootId : Int) : Database :=
  let count := (db.liveReplies threadRootId).card
  if 0 < count then
    { db with
      threadMeta := db.threadMeta.upsert (chatId, threadRootId)
        { replyCount := count, lastReplyAt := db.lastReplyAt threadRootId } }
  else
    { db with threadMeta := db.threadMeta.erase (chatId, threadRootId) }.setHasThread
      threadRootId false

/-- The newest surviving reply before a read pointer. -/
def previousInThread (db : Database) (threadRootId last : Int) : Option Int :=
  db.messages.newest fun id m =>
    decide (m.replyRootId = some threadRootId) && decide (id < last) && m.isLive

def shiftThreadReadPointersOnDelete (db : Database) (threadRootId : Int)
    (deletedMessageIds : List Int) : Database :=
  if deletedMessageIds = [] then db
  else
    { db with
      threadUserStates := db.threadUserStates.updateWhere
        (fun key state => decide (key.2.1 = threadRootId) &&
          state.lastReadMessageId.any fun last => decide (last ∈ deletedMessageIds))
        fun _ state =>
          { state with
            lastReadMessageId := state.lastReadMessageId.bind (db.previousInThread threadRootId) } }

/-- Insert-only: a row that exists keeps its subscription, archive and read state. -/
def ensureThreadUserState (db : Database) (now chatId threadRootId uid : Int) (subscribed : Bool) :
    Database × Bool :=
  match db.threadUserStates.row (chatId, threadRootId, uid) with
  | some _ => (db, false)
  | none =>
      ({ db with
        threadUserStates := db.threadUserStates.upsert (chatId, threadRootId, uid)
          { lastReadMessageId := none
            subscribedAt := if subscribed then now else 0
            subscribed := subscribed
            archived := false } }, true)

def ensureThreadSubscription (db : Database) (now chatId threadRootId uid : Int) :
    Database × Bool :=
  match db.threadUserStates.row (chatId, threadRootId, uid) with
  | some state =>
      if state.subscribed then (db, false)
      else
        ({ db with
          threadUserStates := db.threadUserStates.upsert (chatId, threadRootId, uid)
            { state with subscribedAt := now, subscribed := true } }, true)
  | none => db.ensureThreadUserState now chatId threadRootId uid true

def markThreadAsRead (db : Database) (chatId threadRootId uid messageId : Int) : Database :=
  { db with
    threadUserStates := db.threadUserStates.updateWhere
      (fun key state => decide (key = (chatId, threadRootId, uid)) &&
        advances state.lastReadMessageId messageId)
      fun _ state => { state with lastReadMessageId := some messageId } }

def subscribeMentioned (db : Database) (now chatId threadRootId uid : Int)
    (memberUids : List Int) : List Int → Database × List Int
  | [] => (db, [])
  | mentioned :: rest =>
      if mentioned ≠ uid ∧ mentioned ∈ memberUids then
        let (db, subscribed) := db.ensureThreadSubscription now chatId threadRootId mentioned
        let (db, changes) := db.subscribeMentioned now chatId threadRootId uid memberUids rest
        (db, if subscribed then mentioned :: changes else changes)
      else db.subscribeMentioned now chatId threadRootId uid memberUids rest

/-- The state of a thread after a message was inserted into it, and whose subscription changed. -/
def recordThreadSend (db : Database) (now : Int) (response : MessageResponse)
    (memberUids : List Int) (threadId : Int) (root : Message)
    (publishImmediately notifyMentions : Bool) : Database × List Int :=
  let chatId := response.chatId
  let uid := response.senderUid
  let (db, senderSubscribed) := db.ensureThreadSubscription now chatId threadId uid
  let db := db.markThreadAsRead chatId threadId uid response.id
  let (db, rootSubscribed) :=
    if root.senderUid ≠ uid ∧ root.senderUid ∈ memberUids then
      db.ensureThreadUserState now chatId threadId root.senderUid true
    else (db, false)
  let (db, mentioned) :=
    if notifyMentions then
      db.subscribeMentioned now chatId threadId uid memberUids
        (response.message.elim [] extractMentionUids)
    else (db, [])
  let db :=
    if publishImmediately then
      (db.incrementThreadMeta chatId threadId response.createdAt).setHasThread threadId true
    else db
  (db, (if senderSubscribed then [uid] else []) ++
    (if rootSubscribed then [root.senderUid] else []) ++ mentioned)

end Database

end Chahua.Messages

import Chahua.ReadStates.Store

namespace Chahua.ReadStates

open Framework

structure ReadStateResponse where
  lastReadMessageId : Option Int
  unreadCount : Nat
  unreadMentions : Nat
  unreadReactions : Nat
  deriving DecidableEq, Repr

/-- The pointer is null or behind the message. -/
def advances (pointer : Option Int) (messageId : Int) : Bool :=
  pointer.all fun last => decide (last < messageId)

namespace Database

variable (db : Database)

def validateChatReadTarget (chatId messageId : Int) : Except AppError Unit :=
  if (db.messages.row messageId).any fun m =>
      decide (m.chatId = chatId) && m.replyRootId.isNone && m.isPublished then .ok ()
  else .error (.badRequest "Read target must be a published top-level message in this chat")

/-- The target of a client that reads a thread with no replies. -/
def validateThreadRootReadTarget (chatId threadRootId : Int) : Except AppError Unit :=
  db.validateChatReadTarget chatId threadRootId

def validateThreadReadTarget (chatId threadRootId messageId : Int) : Except AppError Unit :=
  if (db.messages.row messageId).any fun m => decide (m.chatId = chatId) &&
      decide (m.replyRootId = some threadRootId) && m.isPublished then .ok ()
  else .error (.badRequest "Read target must be a published reply in this thread")

/-- The last message of a run of hidden membership messages after `messageId`. -/
def skipHiddenMembershipTail (chatId messageId : Int) : Int :=
  let nextVisible := db.messages.oldest fun id m =>
    decide (messageId < id) && inChatWindow chatId m && m.nonMembership
  (db.messages.newest fun id m => decide (messageId < id) &&
    decide (id < nextVisible.getD 9223372036854775807) && inChatWindow chatId m).getD messageId

def updateMembership (chatId uid : Int) (f : Membership → Membership) : Database :=
  { db with
    groupMembership := db.groupMembership.updateWhere (fun key _ => decide (key = (chatId, uid)))
      fun _ gm => f gm }

def updateThreadState (chatId threadRootId uid : Int) (f : ThreadUserState → ThreadUserState) :
    Database :=
  { db with
    threadUserStates := db.threadUserStates.updateWhere
      (fun key _ => decide (key = (chatId, threadRootId, uid))) fun _ state => f state }

def markChatAsRead (hide : Bool) (chatId uid messageId : Int) : Database :=
  let messageId := if hide then db.skipHiddenMembershipTail chatId messageId else messageId
  db.updateMembership chatId uid fun gm =>
    if advances gm.lastReadMessageId messageId then { gm with lastReadMessageId := some messageId }
    else gm

def advanceChatReadReceipt (chatId uid messageId : Int) : Database :=
  db.updateMembership chatId uid fun gm =>
    if advances gm.lastReadReceiptMessageId messageId then
      { gm with lastReadReceiptMessageId := some messageId }
    else gm

def getChatLastReadMessageId (chatId uid : Int) : Except AppError (Option Int) :=
  match db.groupMembership.row (chatId, uid) with
  | none => .error .dbQuery
  | some gm => .ok gm.lastReadMessageId

def getChatUnreadCount (uid chatId : Int) : Except AppError ReadStateResponse := do
  db.checkMembership chatId uid
  let lastReadMessageId ← db.getChatLastReadMessageId chatId uid
  let unreadCount ← db.countChatUnread uid chatId lastReadMessageId
  return {
    lastReadMessageId
    unreadCount
    unreadMentions := db.countChatUnreadMentions uid chatId lastReadMessageId none
    unreadReactions := db.countChatUnreadReactions uid chatId none }

def markAsRead (uid chatId messageId : Int) : Except AppError (Database × ReadStateResponse) := do
  db.checkMembership chatId uid
  db.validateChatReadTarget chatId messageId
  let hide ← db.loadMembershipMessageFilter uid chatId
  let db := (db.markChatAsRead hide chatId uid messageId).advanceChatReadReceipt chatId uid messageId
  let lastReadMessageId ← db.getChatLastReadMessageId chatId uid
  let unreadCount ← db.countChatUnread uid chatId lastReadMessageId
  return (db, {
    lastReadMessageId
    unreadCount
    unreadMentions := db.countChatUnreadMentions uid chatId lastReadMessageId none
    unreadReactions := db.countChatUnreadReactions uid chatId none })

/-- The messages `mark_as_unread` chooses between: visible, live, top level. -/
def publicMessages (hide : Bool) (chatId : Int) : Finset Int :=
  db.messages.select fun _ m => (!hide || m.nonMembership) && decide (m.chatId = chatId) &&
    m.replyRootId.isNone && m.deletedAt.isNone && m.isPublished

/-- `ORDER BY id DESC LIMIT 2`. -/
def lastTwo (hide : Bool) (chatId : Int) : List Int :=
  match (db.publicMessages hide chatId).max with
  | none => []
  | some last =>
    match ((db.publicMessages hide chatId).erase last).max with
    | none => [last]
    | some second => [last, second]

def markAsUnread (uid chatId : Int) (explicitId : Option Int) :
    Except AppError (Database × ReadStateResponse) := do
  db.checkMembership chatId uid
  let (db, newReadId, unreadCount) ←
    match explicitId with
    | some messageId => do
      let db := db.updateMembership chatId uid fun gm => { gm with lastReadMessageId := some messageId }
      let unreadCount ← db.countChatUnread uid chatId (some messageId)
      pure (db, some messageId, unreadCount)
    | none => do
      let hide ← db.loadMembershipMessageFilter uid chatId
      let lastTwo := db.lastTwo hide chatId
      let newReadId := lastTwo[1]?
      let db := db.updateMembership chatId uid fun gm => { gm with lastReadMessageId := newReadId }
      pure (db, newReadId, if newReadId.isSome then 1 else lastTwo.length)
  return (db, {
    lastReadMessageId := newReadId
    unreadCount
    unreadMentions := db.countChatUnreadMentions uid chatId newReadId none
    unreadReactions := db.countChatUnreadReactions uid chatId none })

/-- Insert-only: a row that exists keeps its state. `now` is the default of the reaction cursor. -/
def ensureThreadUserState (now chatId threadRootId uid : Int) (subscribed : Bool) : Database :=
  match db.threadUserStates.row (chatId, threadRootId, uid) with
  | some _ => db
  | none =>
    { db with
      threadUserStates := db.threadUserStates.upsert (chatId, threadRootId, uid)
        ⟨none, none, false, subscribed, now⟩ }

def markThreadAsRead (chatId threadRootId uid messageId : Int) : Database :=
  db.updateThreadState chatId threadRootId uid fun state =>
    if advances state.lastReadMessageId messageId then
      { state with lastReadMessageId := some messageId }
    else state

def advanceThreadReadReceipt (chatId threadRootId uid messageId : Int) : Database :=
  db.updateThreadState chatId threadRootId uid fun state =>
    if advances state.lastReadReceiptMessageId messageId then
      { state with lastReadReceiptMessageId := some messageId }
    else state

def loadThreadReadState (chatId threadRootId uid : Int) : ReadStateResponse :=
  let lastReadMessageId := db.getThreadLastReadMessageId chatId threadRootId uid
  { lastReadMessageId
    unreadCount := db.getThreadUnreadCount threadRootId uid lastReadMessageId
    unreadMentions := db.countChatUnreadMentions uid chatId lastReadMessageId (some threadRootId)
    unreadReactions := db.countChatUnreadReactions uid chatId (some threadRootId) }

def applyThreadRead (now chatId threadRootId uid messageId : Int) :
    Except AppError (Database × ReadStateResponse) :=
  if messageId = threadRootId then do
    db.validateThreadRootReadTarget chatId threadRootId
    return (db, {
      lastReadMessageId := none
      unreadCount := 0
      unreadMentions := 0
      unreadReactions := db.countChatUnreadReactions uid chatId (some threadRootId) })
  else do
    db.validateThreadReadTarget chatId threadRootId messageId
    let db := db.ensureThreadUserState now chatId threadRootId uid false
    let db := (db.markThreadAsRead chatId threadRootId uid messageId).advanceThreadReadReceipt
      chatId threadRootId uid messageId
    let lastReadMessageId := db.getThreadLastReadMessageId chatId threadRootId uid
    return (db, {
      lastReadMessageId
      unreadCount := db.getThreadUnreadCount threadRootId uid lastReadMessageId
      unreadMentions := db.countChatUnreadMentions uid chatId lastReadMessageId (some threadRootId)
      unreadReactions := db.countChatUnreadReactions uid chatId (some threadRootId) })

def resolveChatIdForThread (threadRootId : Int) : Except AppError Int :=
  match db.messages.row threadRootId with
  | none => .error (.notFound "Thread root message not found")
  | some m => .ok m.chatId

def authorizeThreadInChat (chatId threadRootId uid : Int) : Except AppError Unit := do
  db.checkMembership chatId uid
  if (db.messages.row threadRootId).any fun m =>
      decide (m.chatId = chatId) && m.replyRootId.isNone then return ()
  else .error (.notFound "Thread root message not found")

def markThreadRead (now uid threadRootId messageId : Int) :
    Except AppError (Database × ReadStateResponse) := do
  let chatId ← db.resolveChatIdForThread threadRootId
  db.checkMembership chatId uid
  db.applyThreadRead now chatId threadRootId uid messageId

def markThreadReadInChat (now uid chatId threadRootId messageId : Int) :
    Except AppError (Database × ReadStateResponse) := do
  db.authorizeThreadInChat chatId threadRootId uid
  db.applyThreadRead now chatId threadRootId uid messageId

def getThreadReadState (uid threadRootId : Int) : Except AppError ReadStateResponse := do
  let chatId ← db.resolveChatIdForThread threadRootId
  db.checkMembership chatId uid
  return db.loadThreadReadState chatId threadRootId uid

end Database

end Chahua.ReadStates

import Chahua.Framework.Collect
import Chahua.Models
import Mathlib

namespace Chahua.ReadStates

open Framework

inductive GroupRole where
  | member | admin
  deriving DecidableEq, Repr

inductive GroupKind where
  | group | dm
  deriving DecidableEq, Repr

inductive MembershipMessageVisibility where
  | members | admins | nobody
  deriving DecidableEq, Repr

def MembershipMessageVisibility.allows : MembershipMessageVisibility → Option GroupRole → Bool
  | .members, role => role.isSome
  | .admins, role => decide (role = some .admin)
  | .nobody, _ => false

structure Group where
  kind : GroupKind
  membershipMessageVisibility : MembershipMessageVisibility
  deriving DecidableEq, Repr

structure Membership where
  role : GroupRole
  lastReadMessageId : Option Int
  lastReadReceiptMessageId : Option Int
  archived : Bool
  mutedUntil : Option Int
  muteOverride : Option Bool
  lastReactionsReadAt : Int
  deriving DecidableEq, Repr

structure ThreadUserState where
  lastReadMessageId : Option Int
  lastReadReceiptMessageId : Option Int
  archived : Bool
  subscribed : Bool
  lastReactionsReadAt : Int
  deriving DecidableEq, Repr

structure Mention where
  chatId : Int
  threadRootId : Option Int
  deriving DecidableEq, Repr

structure Reaction where
  messageAuthorUid : Int
  createdAt : Int
  deriving DecidableEq, Repr

structure UserExtra where
  showMembershipMessages : Bool
  muteGroupChatsByDefault : Bool
  muteDirectChatsByDefault : Bool
  deriving DecidableEq, Repr

/-- The tables that unread counts read, each under its primary key; message ids are positive. -/
structure Database where
  messages : Table Int Message
  mentions : Table (Int × Int) Mention
  reactions : Table (Int × Int × String) Reaction
  groups : Table Int Group
  groupMembership : Table (Int × Int) Membership
  threadUserStates : Table (Int × Int × Int) ThreadUserState
  userExtra : Table Int UserExtra
  positive : ∀ id ∈ messages.keys, 0 < id

inductive AppError where
  | dbQuery
  | badRequest (text : String)
  | forbidden (text : String)
  | notFound (text : String)
  deriving DecidableEq, Repr

def MAX_UNREAD_COUNT : Nat := 1000

/-- A missing cursor is before every id. -/
def unreadCursor (lastReadMessageId : Option Int) : Int := lastReadMessageId.getD (-(2 ^ 63))

def hidesMembershipMessages (showMembershipMessages : Bool) (kind : GroupKind)
    (threadId : Option Int) : Bool :=
  !showMembershipMessages && decide (kind = .group) && threadId.isNone

/-- The rows that the unread count of a chat runs over. -/
def countsUnread (hide : Bool) (chatId cursor id : Int) (m : Message) : Bool :=
  decide (m.chatId = chatId) && decide (cursor < id) && m.deletedAt.isNone && m.isPublished &&
    m.replyRootId.isNone && (m.deletedAt.isNone || m.hasThread) && (!hide || m.nonMembership)

/-- `deleted_at IS NULL OR has_thread`, published, top level: what a chat's window lists. -/
def inChatWindow (chatId : Int) (m : Message) : Bool :=
  decide (m.chatId = chatId) && m.isPublished && m.replyRootId.isNone &&
    (m.deletedAt.isNone || m.hasThread)

namespace Database

variable (db : Database)

def loadMembershipMessageFilter (uid chatId : Int) : Except AppError Bool :=
  match db.groups.row chatId with
  | none => .error .dbQuery
  | some group =>
    let shown := (db.userExtra.row uid).elim true (·.showMembershipMessages)
    let role := (db.groupMembership.row (chatId, uid)).map (·.role)
    let canView := decide (group.kind = .dm) || group.membershipMessageVisibility.allows role
    .ok (hidesMembershipMessages (shown && canView) group.kind none)

/-- `count_chat_unread_cursors` for one cursor. -/
def countCursor (hide : Bool) (chatId cursor : Int) : Nat :=
  min (db.messages.select (countsUnread hide chatId cursor)).card MAX_UNREAD_COUNT

def countChatUnread (uid chatId : Int) (lastReadMessageId : Option Int) : Except AppError Nat :=
  (db.loadMembershipMessageFilter uid chatId).map fun hide =>
    db.countCursor hide chatId (unreadCursor lastReadMessageId)

def countChatUnreadMentions (uid chatId : Int) (lastReadMessageId threadRootId : Option Int) : Nat :=
  min (db.mentions.select fun key mention => decide (key.2 = uid) &&
    decide (mention.chatId = chatId) && decide (mention.threadRootId = threadRootId) &&
      decide (lastReadMessageId.getD 0 < key.1)).card MAX_UNREAD_COUNT

/-- The user's messages of the scope with a reaction of somebody else after the cursor. -/
def countChatUnreadReactions (uid chatId : Int) (threadRootId : Option Int) : Nat :=
  let cursor := match threadRootId with
    | none => (db.groupMembership.row (chatId, uid)).map fun gm : Membership => gm.lastReactionsReadAt
    | some root =>
      (db.threadUserStates.row (chatId, root, uid)).map fun ts : ThreadUserState => ts.lastReactionsReadAt
  min (db.reactions.image
    (fun key reaction => decide (reaction.messageAuthorUid = uid) && decide (key.2.1 ≠ uid) &&
      (db.messages.row key.1).any (fun m => decide (m.chatId = chatId) && m.deletedAt.isNone &&
        m.isPublished && decide (m.replyRootId = threadRootId)) &&
      cursor.all fun readAt => decide (readAt < reaction.createdAt))
    fun key _ => key.1).card MAX_UNREAD_COUNT

/-- The live replies of a thread after a pointer. -/
def repliesAfter (threadRootId : Int) (pointer : Option Int) : Finset Int :=
  db.messages.select fun id m => decide (m.replyRootId = some threadRootId) &&
    m.deletedAt.isNone && m.isPublished && decide (pointer.getD 0 < id)

/-- The join runs over the user's states of the thread, in any chat. -/
def getThreadUnreadCount (threadRootId uid : Int) (lastReadMessageId : Option Int) : Nat :=
  min ((db.threadUserStates.select fun key _ =>
    decide (key.2.1 = threadRootId) && decide (key.2.2 = uid)).card *
      (db.repliesAfter threadRootId lastReadMessageId).card) MAX_UNREAD_COUNT

def getThreadLastReadMessageId (chatId threadRootId uid : Int) : Option Int :=
  (db.threadUserStates.row (chatId, threadRootId, uid)).bind (·.lastReadMessageId)

def checkMembership (chatId uid : Int) : Except AppError Unit :=
  if (db.groupMembership.row (chatId, uid)).isSome then .ok ()
  else .error (.forbidden "Not a member of this chat")

end Database

end Chahua.ReadStates

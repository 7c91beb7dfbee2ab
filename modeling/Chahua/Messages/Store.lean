import Chahua.Models

namespace Chahua.Messages

open Framework

structure Attachment where
  messageId : Option Int
  uploaderUid : Option Int
  fileName : String
  kind : String
  externalReference : String
  size : Int
  width : Option Int
  height : Option Int
  order : Int
  deletedAt : Option Int
  deriving DecidableEq, Repr

inductive MentionKind where
  | mention | reply
  deriving DecidableEq, Repr

structure Mention where
  chatId : Int
  threadRootId : Option Int
  createdAt : Int
  kind : MentionKind
  deriving DecidableEq, Repr

structure ThreadMeta where
  replyCount : Nat
  lastReplyAt : Option Int
  deriving DecidableEq, Repr

structure ThreadUserState where
  lastReadMessageId : Option Int
  subscribedAt : Int
  subscribed : Bool
  archived : Bool
  deriving DecidableEq, Repr

inductive GroupRole where
  | member | admin
  deriving DecidableEq, Repr

structure Membership where
  role : GroupRole
  lastReadMessageId : Option Int
  deriving DecidableEq, Repr

inductive GroupKind where
  | group | dm
  deriving DecidableEq, Repr

inductive MembershipMessageVisibility where
  | members | admins | nobody
  deriving DecidableEq, Repr

structure Group where
  kind : GroupKind
  membershipMessageVisibility : MembershipMessageVisibility
  lastMessageId : Option Int
  lastMessageAt : Option Int
  deriving DecidableEq, Repr

structure PinnedMessage where
  chatId : Int
  messageId : Int
  pinnedBy : Int
  pinnedAt : Int
  expiresAt : Option Int
  threadRootId : Option Int
  deriving DecidableEq, Repr

/-- One committed state of the tables that messages touch, each under its primary key. -/
structure Database where
  messages : Table Int Message
  attachments : Table Int Attachment
  messageMentions : Table (Int × Int) Mention
  threadMeta : Table (Int × Int) ThreadMeta
  threadUserStates : Table (Int × Int × Int) ThreadUserState
  groupMembership : Table (Int × Int) Membership
  groups : Table Int Group
  pinnedMessages : Table Int PinnedMessage

inductive AppError where
  | dbQuery
  | badRequest (text : String)
  | forbidden (text : String)
  | notFound (text : String)
  | conflict (text : String)
  | gone (text : String)
  | internal (text : String)
  deriving DecidableEq, Repr

/-- The read pointers only advance: a pointer is null or behind the message. -/
def advances (pointer : Option Int) (messageId : Int) : Bool :=
  pointer.all fun last => decide (last < messageId)

namespace Database

/-- The published replies of a thread that are not deleted. -/
def liveReplies (db : Database) (rootId : Int) : Finset Int :=
  db.messages.select fun _ m => decide (m.replyRootId = some rootId) && m.isLive

/-- The newest `created_at` of these replies. -/
def lastReplyAt (db : Database) (rootId : Int) : Option Int :=
  (db.messages.image (fun _ m => decide (m.replyRootId = some rootId) && m.isLive)
    fun _ m => m.createdAt).max

def setHasThread (db : Database) (messageId : Int) (hasThread : Bool) : Database :=
  { db with
    messages := db.messages.updateWhere (fun id _ => decide (id = messageId)) fun _ m =>
      { m with hasThread := hasThread } }

def memberUids (db : Database) (chatId : Int) : List Int :=
  ascending ((db.groupMembership.select fun key _ => decide (key.1 = chatId)).image Prod.snd)

end Database

end Chahua.Messages

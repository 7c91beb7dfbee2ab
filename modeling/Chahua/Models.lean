import Chahua.Framework.Table

namespace Chahua

open Framework

inductive MessageType where
  | text | audio | file | sticker | invite | system | forwarded | placeholder
  deriving DecidableEq, Repr

inductive SystemMessageKind where
  | memberJoined | memberLeft | memberAdded | memberRemoved
  | messagePinned | messageUnpinned | threadMessagePinned | threadMessageUnpinned
  | friendRequestAccepted | unknown
  deriving DecidableEq, Repr

def SystemMessageKind.isMembership : SystemMessageKind → Bool
  | .memberJoined | .memberLeft | .memberAdded | .memberRemoved => true
  | _ => false

inductive TranscodeStatus where
  | none | pending | done | failed
  deriving DecidableEq, Repr

/-- A row of `messages` without its primary key. Timestamps count microseconds. -/
structure Message where
  message : Option String
  messageType : MessageType
  replyToId : Option Int
  replyRootId : Option Int
  senderUid : Int
  chatId : Int
  createdAt : Int
  deletedAt : Option Int
  hasThread : Bool
  isPublished : Bool
  transcodeStatus : TranscodeStatus
  systemKind : Option SystemMessageKind
  deriving DecidableEq, Repr

namespace Message

/-- `deleted_at IS NULL AND is_published`. -/
def isLive (m : Message) : Bool := m.deletedAt.isNone && m.isPublished

def isTopLevel (m : Message) : Bool := m.replyRootId.isNone

/-- `NON_MEMBERSHIP_PREDICATE`: no system kind, or one outside the membership kinds. -/
def nonMembership (m : Message) : Bool := !(m.systemKind.any SystemMessageKind.isMembership)

end Message

end Chahua

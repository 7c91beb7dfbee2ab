import Chahua.Messages.Store
import Chahua.Framework.Paging
import Mathlib

namespace Chahua.Lists

open Framework Messages

/-- The membership columns that the chat list reads. -/
structure ListedMembership where
  role : GroupRole
  lastReadMessageId : Option Int
  archived : Bool
  deriving DecidableEq, Repr

/-- One committed state of the tables under the lists; memberships are keyed by chat and user. -/
structure ListTables where
  messages : Table Int Message
  groups : Table Int Group
  groupMembership : Table (Int × Int) ListedMembership
  showMembershipMessages : Table Int Bool

def validateLimit (limit : Option Int) (maximum : Int) : Int :=
  max ((limit.map fun l => min l maximum).getD maximum) 1

theorem validateLimit_pos (limit : Option Int) (maximum : Int) :
    0 < (validateLimit limit maximum).toNat := by
  have h : 1 ≤ validateLimit limit maximum := le_max_right _ _
  omega

/-- `MEMBERSHIP_ALLOWED_PREDICATE`. -/
def membershipAllowed (g : Group) (role : GroupRole) : Bool :=
  decide (g.kind = .dm) || decide (g.membershipMessageVisibility = .members) ||
    decide (g.membershipMessageVisibility = .admins) && decide (role = .admin)

structure ChatListRow where
  chatId : Int
  lastMessageAt : Option Int
  lastReadMessageId : Option Int
  lastMessage : Option Message
  archived : Bool
  kind : GroupKind
  membershipVisibility : MembershipMessageVisibility
  membershipAllowed : Bool
  deriving DecidableEq, Repr

structure MembershipMessagePolicy where
  visibility : MembershipMessageVisibility
  canView : Bool
  deriving DecidableEq, Repr

structure ChatListItem where
  membershipMessagePolicy : MembershipMessagePolicy
  id : Int
  lastMessageAt : Option Int
  lastReadMessageId : Option Int
  archived : Bool
  kind : GroupKind
  deriving DecidableEq, Repr

structure ListChatsResponse where
  chats : List ChatListItem
  nextCursor : Option Int
  showMembershipMessages : Bool
  deriving DecidableEq, Repr

namespace ListTables

def loadChatSettings (t : ListTables) (uid : Int) : Bool :=
  (t.showMembershipMessages.row uid).getD true

/-- The newest message of a chat besides membership messages. -/
def newestShown (t : ListTables) (chatId : Int) : Option Int :=
  (t.messages.select fun _ m => decide (m.chatId = chatId) && m.isPublished &&
    m.replyRootId.isNone && m.deletedAt.isNone && m.nonMembership).max

/-- The `CASE` over the chat's kind, the user's setting and the group's policy. -/
def lastId (t : ListTables) (hideMembershipMessages : Bool) (chatId : Int) (g : Group)
    (role : GroupRole) : Option Int :=
  if g.kind = .group ∧ (hideMembershipMessages = true ∨ membershipAllowed g role = false) then
    t.newestShown chatId
  else g.lastMessageId

/-- The row that `messages` is left-joined with. -/
def lastMessage (t : ListTables) (hideMembershipMessages : Bool) (chatId : Int) (g : Group)
    (role : GroupRole) : Option Message :=
  (t.lastId hideMembershipMessages chatId g role).bind t.messages.row

/-- The row of one membership. -/
def chatRow (t : ListTables) (uid : Int) (hideMembershipMessages : Bool) (chatId : Int) :
    Option ChatListRow :=
  match t.groups.row chatId, t.groupMembership.row (chatId, uid) with
  | some g, some m =>
      let message := t.lastMessage hideMembershipMessages chatId g m.role
      some
        { chatId := chatId
          lastMessageAt := message.map Message.createdAt
          lastReadMessageId := m.lastReadMessageId
          lastMessage := message
          archived := m.archived
          kind := g.kind
          membershipVisibility := g.membershipMessageVisibility
          membershipAllowed := Lists.membershipAllowed g m.role }
  | _, _ => none

def baseQuery (t : ListTables) (uid : Int) (hideMembershipMessages : Bool) : List ChatListRow :=
  (ascending ((t.groupMembership.select fun key _ => decide (key.2 = uid)).image
    Prod.fst)).filterMap (t.chatRow uid hideMembershipMessages)

end ListTables

/-- `created_at DESC NULLS LAST, id DESC`. -/
def chatRank (createdAt : Option Int) (id : Int) : WithBot Int ×ₗ Int :=
  toLex (createdAt.elim ⊥ fun time => (time : WithBot Int), id)

def ChatListRow.rank (row : ChatListRow) : WithBot Int ×ₗ Int :=
  chatRank row.lastMessageAt row.chatId

/-- The filter behind the cursor's row, whose time is null or not. -/
def behind (cursor : Option Int) (id : Int) (row : ChatListRow) : Bool :=
  match cursor with
  | some time =>
      row.lastMessageAt.any (fun createdAt => decide (createdAt < time)) ||
        row.lastMessageAt.any (fun createdAt => decide (createdAt = time)) &&
          decide (row.chatId < id) ||
        row.lastMessageAt.isNone
  | none => row.lastMessageAt.isNone && decide (row.chatId < id)

namespace ListTables

end ListTables

/-- The page a response shows. -/
def ListChatsResponse.page (response : ListChatsResponse) : Chunk ChatListItem Int :=
  ⟨response.chats, response.nextCursor⟩

namespace ListTables

variable {t : ListTables} {uid : Int} {hide : Bool}

end ListTables

namespace ListTables

variable (t : ListTables) (uid : Int) (hide archived : Bool)

/-- The rows of an archive state, in the order of the list. -/
def listed : List ChatListRow :=
  orderDesc ChatListRow.rank ((t.baseQuery uid hide).filter fun row =>
    decide (row.archived = archived))

variable {t uid hide archived}

end ListTables

end Chahua.Lists

import Chahua.ReadStates.Store

namespace Chahua.ReadStates

open Framework

structure ChatUnreadMembership where
  chatId : Int
  lastReadMessageId : Option Int
  archived : Bool
  isMuted : Bool
  hideMembershipMessages : Bool
  deriving DecidableEq, Repr

structure UserChatUnreadMembership extends ChatUnreadMembership where
  uid : Int
  deriving DecidableEq, Repr

structure UnreadSummaryCounts where
  unreadCount : Nat
  archivedUnreadCount : Nat
  unreadChatCount : Nat
  archivedUnreadChatCount : Nat
  deriving DecidableEq, Repr

structure ChatUnreadCursor where
  hideMembershipMessages : Bool
  chatId : Int
  lastReadMessageId : Int
  deriving DecidableEq, Repr

def ChatUnreadMembership.cursor (m : ChatUnreadMembership) : ChatUnreadCursor :=
  ⟨m.hideMembershipMessages, m.chatId, unreadCursor m.lastReadMessageId⟩

structure NotificationDefaults where
  groupChatsMuted : Bool
  directChatsMuted : Bool
  deriving DecidableEq, Repr

def NotificationDefaults.default : NotificationDefaults := ⟨false, false⟩

def UserExtra.notificationDefaults (extra : UserExtra) : NotificationDefaults :=
  ⟨extra.muteGroupChatsByDefault, extra.muteDirectChatsByDefault⟩

def Membership.isMuted (gm : Membership) (kind : GroupKind) (defaults : NotificationDefaults)
    (now : Int) : Bool :=
  (gm.mutedUntil.any fun till => decide (now < till)) ||
    gm.muteOverride.getD (match kind with
      | .group => defaults.groupChatsMuted
      | .dm => defaults.directChatsMuted)

/-- `MEMBERSHIP_ALLOWED_PREDICATE`. -/
def membershipAllowed (group : Group) (role : GroupRole) : Bool :=
  decide (group.kind = .dm) || decide (group.membershipMessageVisibility = .members) ||
    decide (group.membershipMessageVisibility = .admins) && decide (role = .admin)

def cappedAdd (current delta : Nat) : Nat := min (current + delta) MAX_UNREAD_COUNT

/-- One membership of `summarize_membership_unreads`. -/
def UnreadSummaryCounts.add (summary : UnreadSummaryCounts) (m : ChatUnreadMembership)
    (count : Nat) : UnreadSummaryCounts :=
  if m.archived then
    { summary with
      archivedUnreadCount := cappedAdd summary.archivedUnreadCount count
      archivedUnreadChatCount :=
        if 0 < count then cappedAdd summary.archivedUnreadChatCount 1
        else summary.archivedUnreadChatCount }
  else if !m.isMuted then
    { summary with
      unreadCount := cappedAdd summary.unreadCount count
      unreadChatCount :=
        if 0 < count then cappedAdd summary.unreadChatCount 1 else summary.unreadChatCount }
  else summary

inductive ConversationCategory where
  | group | dm | groupThread | dmThread
  deriving DecidableEq, Repr

structure ConversationRef where
  chatId : Int
  threadId : Option Int
  deriving DecidableEq, Repr

structure ConversationSelector where
  categories : List ConversationCategory
  inclusions : List ConversationRef
  exclusions : List ConversationRef
  archived : Bool
  deriving DecidableEq, Repr

structure Scope where
  membershipAllowed : Bool
  chatId : Int
  threadId : Option Int
  isDm : Bool
  archived : Bool
  muted : Bool
  lastReadMessageId : Option Int
  deriving DecidableEq, Repr

def Scope.category (scope : Scope) : ConversationCategory :=
  match scope.isDm, scope.threadId.isSome with
  | false, false => .group
  | true, false => .dm
  | false, true => .groupThread
  | true, true => .dmThread

/-- A collection counts its muted chats as well. -/
def Scope.membership (showMembershipMessages : Bool) (scope : Scope) : ChatUnreadMembership where
  chatId := scope.chatId
  lastReadMessageId := scope.lastReadMessageId
  archived := scope.archived
  isMuted := false
  hideMembershipMessages := hidesMembershipMessages
    (showMembershipMessages && scope.membershipAllowed) (if scope.isDm then .dm else .group)
    scope.threadId

def ConversationSelector.contains (selector : ConversationSelector) (scope : Scope) : Bool :=
  decide (scope.archived = selector.archived) &&
    !decide (⟨scope.chatId, scope.threadId⟩ ∈ selector.exclusions) &&
      (decide (scope.category ∈ selector.categories) ||
        decide (⟨scope.chatId, scope.threadId⟩ ∈ selector.inclusions))

namespace Database

variable (db : Database)

def loadNotificationDefaults (uid : Int) : NotificationDefaults :=
  ((db.userExtra.row uid).map (·.notificationDefaults)).getD .default

def loadNotificationDefaultsForUsers (uids : List Int) : Table Int NotificationDefaults :=
  db.userExtra.filterMap fun uid extra =>
    if uid ∈ uids then some extra.notificationDefaults else none

def loadChatSettings (uid : Int) : Bool :=
  ((db.userExtra.row uid).map (·.showMembershipMessages)).getD true

/-- `group_membership JOIN groups` for one user; the rows come in no particular order. -/
def userChats (uid : Int) : List (Int × Membership × Group) :=
  (ascending ((db.groupMembership.keys.filter (·.2 = uid)).image Prod.fst)).filterMap fun chatId =>
    (db.groupMembership.row (chatId, uid)).bind fun gm =>
      (db.groups.row chatId).map fun group => (chatId, gm, group)

def loadUserChatMemberships (now uid : Int) : List ChatUnreadMembership :=
  let defaults := db.loadNotificationDefaults uid
  let showMembershipMessages := db.loadChatSettings uid
  (db.userChats uid).map fun (chatId, gm, group) =>
    { chatId
      lastReadMessageId := gm.lastReadMessageId
      archived := gm.archived
      isMuted := gm.isMuted group.kind defaults now
      hideMembershipMessages := hidesMembershipMessages
        (showMembershipMessages && membershipAllowed group gm.role) group.kind none }

def loadUsersChatMemberships (now : Int) (targetUids : List Int) :
    List UserChatUnreadMembership :=
  let defaults := db.loadNotificationDefaultsForUsers targetUids
  (ascending targetUids.toFinset).flatMap fun uid =>
    (db.userChats uid).map fun (chatId, gm, group) =>
      { uid
        chatId
        lastReadMessageId := gm.lastReadMessageId
        archived := gm.archived
        isMuted := gm.isMuted group.kind ((defaults.row uid).getD .default) now
        hideMembershipMessages := hidesMembershipMessages
          (((db.userExtra.row uid).map (·.showMembershipMessages)).getD true &&
            membershipAllowed group gm.role) group.kind none }

def countChatUnreadCursors (cursors : List ChatUnreadCursor) : Table ChatUnreadCursor Nat :=
  .tabulate cursors.toFinset fun cursor =>
    db.countCursor cursor.hideMembershipMessages cursor.chatId cursor.lastReadMessageId

def countMembershipUnreads (memberships : List ChatUnreadMembership) : Table Int Nat :=
  let counts := db.countChatUnreadCursors (memberships.map (·.cursor))
  memberships.foldl (fun unreads m => unreads.upsert m.chatId ((counts.row m.cursor).getD 0)) .empty

def summarizeMembershipUnreads (memberships : List ChatUnreadMembership)
    (counts : Table ChatUnreadCursor Nat) : UnreadSummaryCounts :=
  memberships.foldl (fun summary m => summary.add m ((counts.row m.cursor).getD 0)) ⟨0, 0, 0, 0⟩

def countUserUnreadSummary (now uid : Int) : UnreadSummaryCounts :=
  let memberships := db.loadUserChatMemberships now uid
  summarizeMembershipUnreads memberships (db.countChatUnreadCursors (memberships.map (·.cursor)))

def countUserMembershipUnreadTotals (targetUids : List Int)
    (memberships : List UserChatUnreadMembership) : Table Int Nat :=
  let totals := .tabulate targetUids.toFinset fun _ => 0
  let counting := memberships.filter fun m =>
    (totals.row m.uid).isSome && !m.archived && !m.isMuted
  let counts := db.countChatUnreadCursors (counting.map (·.cursor))
  counting.foldl (fun totals m =>
    totals.upsert m.uid
      (cappedAdd ((totals.row m.uid).getD 0) ((counts.row m.cursor).getD 0))) totals

/-- The numbers of the push badges. -/
def countUsersUnreadTotals (now : Int) (targetUids : List Int) : Table Int Nat :=
  db.countUserMembershipUnreadTotals targetUids (db.loadUsersChatMemberships now targetUids)

def chatScope (now uid : Int) : Int × Membership × Group → Scope
  | (chatId, gm, group) =>
    let defaults := db.loadNotificationDefaults uid
    { membershipAllowed := membershipAllowed group gm.role
      chatId
      threadId := none
      isDm := decide (group.kind = .dm)
      archived := gm.archived
      muted := (gm.mutedUntil.any fun till => decide (now < till)) ||
        gm.muteOverride.getD
          (if group.kind = .dm then defaults.directChatsMuted else defaults.groupChatsMuted)
      lastReadMessageId := gm.lastReadMessageId }

/-- The chats of the `UNION` that `conversation_summaries_and_badge` reads. -/
def chatScopes (now uid : Int) : List Scope := (db.userChats uid).map (db.chatScope now uid)

/-- Its subscribed threads, under a published top-level root of the chat. -/
def threadScopes (uid : Int) : List Scope :=
  (db.userChats uid).flatMap fun (chatId, _, group) =>
    (ascending ((db.threadUserStates.select fun key state =>
        decide (key.1 = chatId) && decide (key.2.2 = uid) && state.subscribed &&
          (db.messages.row key.2.1).any fun root => decide (root.chatId = chatId) &&
            root.replyRootId.isNone && root.hasThread && root.isPublished).image (·.2.1))).filterMap
      fun root => (db.threadUserStates.row (chatId, root, uid)).map fun state =>
        { membershipAllowed := true
          chatId
          threadId := some root
          isDm := decide (group.kind = .dm)
          archived := state.archived
          muted := state.archived
          lastReadMessageId := state.lastReadMessageId }

/-- The badge of `conversation_summaries_and_badge`. -/
def appBadge (now uid : Int) (views : List ConversationSelector) : Nat :=
  let scopes := (db.chatScopes now uid ++ db.threadScopes uid).filter fun scope =>
    scope.threadId.isNone || views.any fun view => view.contains scope
  let showMembershipMessages := db.loadChatSettings uid
  let memberships := (scopes.filter (·.threadId.isNone)).map (·.membership showMembershipMessages)
  let mainCounts := db.countMembershipUnreads memberships
  (scopes.filter fun scope => scope.threadId.isNone && !scope.archived && !scope.muted).foldl
    (fun total scope => cappedAdd total ((mainCounts.row scope.chatId).getD 0)) 0

end Database

end Chahua.ReadStates

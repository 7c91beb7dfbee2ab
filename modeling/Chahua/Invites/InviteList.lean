import Chahua.Framework.Reader
import Chahua.Framework.Text
import Chahua.Invites.AdmitOnce
import Chahua.Stickers.PackOrder

namespace Chahua.Invites

open Framework Stickers

def DEFAULT_INVITES_LIMIT : Int := 100
def MAX_INVITES_LIMIT : Int := 100

def inviteLimit (limit : Option Int) : Int :=
  max 1 (min (limit.getD DEFAULT_INVITES_LIMIT) MAX_INVITES_LIMIT)

structure ListInvitesQuery where
  groupId : Option Int
  limit : Option Int
  activeOnly : Option Bool
  after : Option String
  deriving DecidableEq, Repr

structure InviteResponse where
  id : Int
  code : String
  chatId : Int
  inviteType : InviteType
  creatorUid : Option Int
  targetUid : Option Int
  targetName : Option String
  requiredChatName : Option String
  requiredChatId : Option Int
  createdAt : Int
  expiresAt : Option Int
  revokedAt : Option Int
  usedAt : Option Int
  deriving DecidableEq, Repr

structure ListInvitesResponse where
  invites : List InviteResponse
  nextCursor : Option String
  deriving DecidableEq, Repr

def inviteToResponse (invite : Invite) : InviteResponse where
  id := invite.id
  code := invite.code
  chatId := invite.chatId
  inviteType := invite.inviteType
  creatorUid := invite.creatorUid
  targetUid := invite.targetUid
  targetName := none
  requiredChatName := none
  requiredChatId := invite.requiredChatId
  createdAt := invite.createdAt
  expiresAt := invite.expiresAt
  revokedAt := invite.revokedAt
  usedAt := invite.usedAt

/-- What the listing takes from elsewhere: the time format, and the names it looks up. -/
structure InviteLookups where
  toRfc3339 : Int → String
  parseTime : String → Option Int
  username : Int → Option String
  groupName : Int → Option String

namespace InviteLookups

variable (c : InviteLookups)

def parseInviteCursor (value : String) : Except InviteError (Int × Int) :=
  match splitOnce '|' value with
  | none => .error (.badRequest "Invalid invite cursor")
  | some (time, id) =>
      match c.parseTime time, parseI64 id with
      | some createdAt, some id => .ok (createdAt, id)
      | _, _ => .error (.badRequest "Invalid invite cursor")

def cursor (row : InviteResponse) : String :=
  c.toRfc3339 row.createdAt ++ "|" ++ toString row.id

/-- Times are read back as they were written, without a bar. -/
structure RoundTrips : Prop where
  time : ∀ t, c.parseTime (c.toRfc3339 t) = some t
  bar : ∀ t, '|' ∉ (c.toRfc3339 t).toList

/-- The names that are filled in after `invite_to_response`. -/
def withNames (response : InviteResponse) : InviteResponse :=
  { response with
    targetName := response.targetUid.bind c.username
    requiredChatName := response.requiredChatId.bind c.groupName }

theorem parseInviteCursor_cursor {c : InviteLookups} (hc : c.RoundTrips) {row : InviteResponse}
    (hid : inI64 row.id = true) :
    c.parseInviteCursor (c.cursor row) = .ok (row.createdAt, row.id) := by
  have hsplit : splitOnce '|' (c.cursor row) = some (c.toRfc3339 row.createdAt, toString row.id) :=
    splitOnce_append (hc.bar row.createdAt)
  simp only [parseInviteCursor, hsplit, hc.time, parseI64_toString hid]

end InviteLookups

/-- `(created_at, id)`, compared as the listing is ordered. -/
def inviteRank (createdAt id : Int) : Int ×ₗ Int := toLex (createdAt, id)

def InviteResponse.rank (row : InviteResponse) : Int ×ₗ Int := inviteRank row.createdAt row.id

/-- The filter of `after`. -/
def behindCursor (cursor : Int × Int) (invite : Invite) : Bool :=
  decide (invite.createdAt < cursor.1) ||
    decide (invite.createdAt = cursor.1) && decide (invite.id < cursor.2)

/-- The filter of a query's cursor. -/
def InviteLookups.afterFilter (c : InviteLookups) : Option String →
    Except InviteError (Invite → Bool)
  | some after => (c.parseInviteCursor after).map behindCursor
  | none => .ok fun _ => true

/-- The invites of a group, or those that the user created. -/
def ListInvitesQuery.scope (query : ListInvitesQuery) (uid : Int) (invite : Invite) : Bool :=
  match query.groupId with
  | some groupId => decide (invite.chatId = groupId)
  | none => decide (invite.creatorUid = some uid)

/-- The filters of the scope and of `active_only`. -/
def ListInvitesQuery.selects (query : ListInvitesQuery) (uid now : Int) (invite : Invite) : Bool :=
  query.scope uid invite && (!query.activeOnly.getD false || invite.revokedAt.isNone &&
    invite.usedAt.isNone && invite.expiresAt.all fun expiresAt => decide (now < expiresAt))

namespace InviteTables

variable (db : InviteTables)

/-- The rows a filter selects, before they are ordered. -/
def selectInvites (p : Invite → Bool) : List Invite :=
  (ascending (db.invites.select fun _ invite => p invite)).filterMap db.invites.row

/-- The invites of a group are listed for its admins. -/
def requireScope (groupId : Option Int) (uid : Int) : Except InviteError Unit :=
  match groupId with
  | some groupId => db.requireAdminRole groupId uid
  | none => .ok ()

def getInvites (c : InviteLookups) (uid : Int) (query : ListInvitesQuery) (now : Int) :
    Except InviteError ListInvitesResponse := do
  let limit := inviteLimit query.limit
  db.requireScope query.groupId uid
  let behind ← c.afterFilter query.after
  let rows := (orderDesc (fun invite => inviteRank invite.createdAt invite.id)
    (db.selectInvites fun invite => query.selects uid now invite && behind invite)).take
      (limit + 1).toNat
  let page := rows.take limit.toNat
  return {
    invites := page.map fun row => c.withNames (inviteToResponse row)
    nextCursor := if limit.toNat < rows.length then
      page.getLast?.map fun row => c.cursor (inviteToResponse row) else none }

end InviteTables

end Chahua.Invites

import Chahua.Framework.Table

namespace Chahua.Invites

open Framework

inductive GroupKind where
  | group
  | dm
  deriving DecidableEq, Repr

inductive GroupRole where
  | member
  | admin
  deriving DecidableEq, Repr

inductive InviteType where
  | generic
  | targeted
  | membership
  deriving DecidableEq, Repr

structure Group where
  kind : GroupKind
  lastMessageId : Option Int
  deriving DecidableEq, Repr

structure Invite where
  id : Int
  code : String
  chatId : Int
  inviteType : InviteType
  creatorUid : Option Int
  targetUid : Option Int
  requiredChatId : Option Int
  createdAt : Int
  expiresAt : Option Int
  revokedAt : Option Int
  usedAt : Option Int
  deriving DecidableEq, Repr

/-- `join_reason`, with what `join_reason_extra` keeps of the invite. -/
inductive JoinReason where
  | inviteCode (inviteId : Int) (code : String) (creatorUid : Option Int)
  | other
  deriving DecidableEq, Repr

structure GroupMembership where
  role : GroupRole
  joinedAt : Int
  joinReason : JoinReason
  lastReadMessageId : Option Int
  deriving DecidableEq, Repr

inductive InviteError where
  | badRequest (text : String)
  | forbidden (text : String)
  | notFound (text : String)
  | conflict (text : String)
  | gone (text : String)
  | internal (text : String)
  | dbQuery
  deriving DecidableEq, Repr

/-- The groups, the invites, and the memberships by `(chat_id, uid)`. -/
structure InviteTables where
  groups : Table Int Group
  invites : Table Int Invite
  members : Table (Int × Int) GroupMembership

structure NewInviteInput where
  chatId : Int
  inviteType : InviteType
  creatorUid : Option Int
  targetUid : Option Int
  requiredChatId : Option Int
  expiresAt : Option Int
  deriving DecidableEq, Repr

structure CreateInviteBody where
  chatId : Int
  inviteType : InviteType
  targetUid : Option Int
  requiredChatId : Option Int
  expiresAt : Option Int
  deriving DecidableEq, Repr

def validateInviteIsActive (invite : Invite) (now : Int) : Bool :=
  invite.revokedAt.isNone && invite.expiresAt.all fun expiresAt => decide (now < expiresAt)

def validateCreateBody (body : CreateInviteBody) : Except InviteError Unit :=
  match body.inviteType with
  | .generic =>
      if body.targetUid.isSome ∨ body.requiredChatId.isSome then
        .error (.badRequest "Generic invites cannot have target_uid or required_chat_id")
      else .ok ()
  | .targeted =>
      if body.targetUid.isNone ∨ body.requiredChatId.isSome then
        .error (.badRequest
          "Targeted invites require target_uid and cannot have required_chat_id")
      else .ok ()
  | .membership =>
      if body.targetUid.isSome ∨ body.requiredChatId.isNone then
        .error (.badRequest
          "Membership invites require required_chat_id and cannot have target_uid")
      else .ok ()

/-- The table's checks on the targeting columns and the length of the code. -/
def Invite.satisfiesChecks (invite : Invite) : Bool :=
  (match invite.inviteType with
    | .generic => invite.targetUid.isNone && invite.requiredChatId.isNone
    | .targeted => invite.targetUid.isSome && invite.requiredChatId.isNone
    | .membership => invite.targetUid.isNone && invite.requiredChatId.isSome) &&
    decide (8 ≤ invite.code.length) && decide (invite.code.length ≤ 12)

namespace InviteTables

variable (db : InviteTables)

def requireAdminRole (chatId uid : Int) : Except InviteError Unit :=
  match db.members.row (chatId, uid) with
  | some membership =>
      if membership.role = .admin then .ok () else .error (.forbidden "Admin role required")
  | none => .error (.forbidden "Not a member of this chat")

/-- The row of `invites.code`, which is unique. -/
def byCode (code : String) : Option Invite :=
  (db.invites.oldest fun _ invite => decide (invite.code = code)).bind db.invites.row

/-- `insert_invite_with_codes` over the codes it draws, at most eight: a code that is taken is
drawn again, any other conflict fails. -/
def insertInviteWithCodes (id now : Int) (input : NewInviteInput) :
    List String → Except InviteError (InviteTables × Invite)
  | [] => .error (.internal "Failed to create invite")
  | code :: codes =>
      let invite : Invite := ⟨id, code, input.chatId, input.inviteType, input.creatorUid,
        input.targetUid, input.requiredChatId, now, input.expiresAt, none, none⟩
      if (db.byCode code).isSome then insertInviteWithCodes id now input codes
      else if invite.satisfiesChecks = true ∧ (db.invites.row id).isNone then
        .ok ({ db with invites := db.invites.upsert id invite }, invite)
      else .error (.internal "Failed to create invite")

def createInvite (id now : Int) (input : NewInviteInput) (codes : List String) :
    Except InviteError (InviteTables × Invite) :=
  match db.groups.row input.chatId with
  | none => .error .dbQuery
  | some group =>
      if group.kind = .dm then .error (.badRequest "DM chats cannot have invites")
      else db.insertInviteWithCodes id now input (codes.take 8)

def postInvite (uid : Int) (body : CreateInviteBody) (id now : Int) (codes : List String) :
    Except InviteError (InviteTables × Invite) := do
  validateCreateBody body
  db.requireAdminRole body.chatId uid
  db.createInvite id now
    ⟨body.chatId, body.inviteType, some uid, body.targetUid, body.requiredChatId,
      body.expiresAt⟩ codes

def loadInviteById (inviteId : Int) : Except InviteError Invite :=
  match db.invites.row inviteId with
  | some invite => .ok invite
  | none => .error (.badRequest "Invalid invite")

/-- `expires_at` is absent from the body, null, or a time. -/
def patchInvite (uid inviteId : Int) (expiresAt : Option (Option Int)) :
    Except InviteError InviteTables := do
  let invite ← db.loadInviteById inviteId
  db.requireAdminRole invite.chatId uid
  match expiresAt with
  | none => .error (.badRequest "expires_at is required")
  | some next =>
      .ok { db with invites := db.invites.upsert inviteId { invite with expiresAt := next } }

def deleteInvite (uid inviteId now : Int) : Except InviteError InviteTables := do
  let invite ← db.loadInviteById inviteId
  db.requireAdminRole invite.chatId uid
  return { db with invites := db.invites.upsert inviteId { invite with revokedAt := some now } }

/-- The invite of `load_preview_invite`, before the eligibility is looked up. -/
def loadActiveInvite (code : String) (now : Int) : Except InviteError Invite :=
  if code.isEmpty then .error (.badRequest "Invalid invite code")
  else
    match db.byCode code with
    | none => .error (.notFound "Invite not found")
    | some invite =>
        if validateInviteIsActive invite now then .ok invite
        else .error (.gone "Invite is no longer active")

/-- `preview_eligibility` and the errors `post_redeem_invite` makes of it. -/
def checkEligibility (invite : Invite) (uid : Int) : Except InviteError Unit :=
  if (db.members.row (invite.chatId, uid)).isSome then
    .error (.conflict "Already a member of this chat")
  else
    match invite.inviteType with
    | .generic => .ok ()
    | .targeted =>
        if invite.targetUid ≠ some uid then .error (.forbidden "Not eligible for this invite")
        else if invite.usedAt.isSome then .error (.conflict "Invite already used")
        else .ok ()
    | .membership =>
        match invite.requiredChatId with
        | none => .error (.internal "Invalid membership invite")
        | some required =>
            if (db.members.row (required, uid)).isSome then .ok ()
            else .error (.forbidden "Not eligible for this invite")

end InviteTables

end Chahua.Invites

import Chahua.Framework.Run
import Chahua.Invites.Store

namespace Chahua.Invites

open Framework

/-- The statement a redemption runs next. -/
inductive RedeemStage where
  | opened
  | eligible
  | joined (membership : GroupMembership)
  | used (membership : GroupMembership)
  deriving DecidableEq, Repr

/-- A redemption in flight, with the invite as its first query read it. -/
structure Redemption where
  uid : Int
  invite : Invite
  openedAt : Int
  stage : RedeemStage
  deriving DecidableEq, Repr

namespace Redemption

def key (r : Redemption) : Int × Int := (r.invite.chatId, r.uid)

/-- The membership row is inserted but not committed. -/
def holdsMember (r : Redemption) : Bool :=
  match r.stage with
  | .joined _ => true
  | .used _ => true
  | _ => false

/-- The invite row is updated but not committed. -/
def holdsInvite (r : Redemption) : Bool :=
  match r.stage with
  | .used _ => decide (r.invite.inviteType = .targeted)
  | _ => false

end Redemption

/-- A committed redemption. -/
structure Join where
  inviteId : Int
  chatId : Int
  uid : Int
  openedAt : Int
  joinedAt : Int
  deriving DecidableEq, Repr

structure InviteSystem where
  now : Int
  db : InviteTables
  redemptions : Table Nat Redemption
  joins : List Join
  errors : List (Int × InviteError)

inductive InviteEvent where
  | group (chatId : Int) (kind : GroupKind)
  | message (chatId messageId : Int)
  | addMember (chatId uid : Int) (role : GroupRole) (now : Int)
  | leave (chatId uid : Int)
  | post (uid : Int) (body : CreateInviteBody) (id now : Int) (codes : List String)
  | create (input : NewInviteInput) (id now : Int) (codes : List String)
  | patch (uid inviteId : Int) (expiresAt : Option (Option Int))
  | revoke (uid inviteId now : Int)
  | redeem (k : Nat) (uid : Int) (code : String) (now : Int)
  | check (k : Nat)
  | join (k : Nat) (now : Int)
  | useInvite (k : Nat)
  | commit (k : Nat)
  | rollback (k : Nat)
  deriving DecidableEq, Repr

namespace InviteSystem

variable (s : InviteSystem)

def othersHold (k : Nat) (p : Redemption → Bool) : Bool :=
  decide (s.redemptions.select fun j r => decide (j ≠ k) && p r).Nonempty

/-- Another transaction has inserted the membership and not committed. -/
def memberLocked (k : Nat) (key : Int × Int) : Bool :=
  s.othersHold k fun r => r.holdsMember && decide (r.key = key)

def inviteLocked (k : Nat) (inviteId : Int) : Bool :=
  s.othersHold k fun r => r.holdsInvite && decide (r.invite.id = inviteId)

/-- Some redemption holds the row. -/
def memberHeld (key : Int × Int) : Bool :=
  decide (s.redemptions.select fun _ r => r.holdsMember && decide (r.key = key)).Nonempty

def inviteHeld (inviteId : Int) : Bool :=
  decide (s.redemptions.select fun _ r => r.holdsInvite && decide (r.invite.id = inviteId)).Nonempty

def fail (k : Nat) (r : Redemption) (e : InviteError) : InviteSystem :=
  { s with redemptions := s.redemptions.erase k, errors := s.errors ++ [(r.uid, e)] }

/-- A transaction of one statement: an error leaves the tables as they were. -/
def settle (uid : Int) : Except InviteError InviteTables → InviteSystem
  | .ok db => { s with db := db }
  | .error e => { s with errors := s.errors ++ [(uid, e)] }

def tick (now : Int) : Option InviteSystem :=
  if s.now ≤ now then some { s with now := now } else none

def redeemInvite (k : Nat) (uid : Int) (code : String) (now : Int) : InviteSystem :=
  match s.db.loadActiveInvite code now with
  | .ok invite => { s with redemptions := s.redemptions.upsert k ⟨uid, invite, now, .opened⟩ }
  | .error e => { s with errors := s.errors ++ [(uid, e)] }

def checkRedemption (k : Nat) (r : Redemption) : InviteSystem :=
  match s.db.checkEligibility r.invite r.uid with
  | .ok _ => { s with redemptions := s.redemptions.upsert k { r with stage := .eligible } }
  | .error e => s.fail k r e

/-- The insert waits for an uncommitted row of the same key; a committed one is a conflict. -/
def joinGroup (k : Nat) (r : Redemption) (now : Int) : Option InviteSystem :=
  match s.db.groups.row r.invite.chatId with
  | none => some (s.fail k r (.internal "Failed to redeem invite"))
  | some group =>
      if s.memberLocked k r.key then none
      else if (s.db.members.row r.key).isSome then
        some (s.fail k r (.conflict "Already a member of this chat"))
      else
        let membership : GroupMembership := ⟨.member, now,
          .inviteCode r.invite.id r.invite.code r.invite.creatorUid, group.lastMessageId⟩
        some { s with redemptions := s.redemptions.upsert k { r with stage := .joined membership } }

/-- `UPDATE … WHERE used_at IS NULL` waits for the row and looks at what was committed. -/
def useTargeted (k : Nat) (r : Redemption) (membership : GroupMembership) : Option InviteSystem :=
  if r.invite.inviteType ≠ .targeted then
    some { s with redemptions := s.redemptions.upsert k { r with stage := .used membership } }
  else if s.inviteLocked k r.invite.id then none
  else if (s.db.invites.row r.invite.id).any fun invite => invite.usedAt.isNone then
    some { s with redemptions := s.redemptions.upsert k { r with stage := .used membership } }
  else some (s.fail k r (.conflict "Invite already used"))

def commitJoin (k : Nat) (r : Redemption) (membership : GroupMembership) : InviteSystem :=
  { s with
    db := { s.db with
      members := s.db.members.upsert r.key membership
      invites := s.db.invites.updateWhere
        (fun id _ => decide (id = r.invite.id ∧ r.invite.inviteType = .targeted))
        fun _ invite => { invite with usedAt := some membership.joinedAt } }
    redemptions := s.redemptions.erase k
    joins := s.joins ++ [⟨r.invite.id, r.invite.chatId, r.uid, r.openedAt, membership.joinedAt⟩] }

def step (s : InviteSystem) : InviteEvent → Option InviteSystem
  | .group chatId kind =>
      if (s.db.groups.row chatId).isSome then none
      else some { s with db := { s.db with groups := s.db.groups.upsert chatId ⟨kind, none⟩ } }
  | .message chatId messageId =>
      (s.db.groups.row chatId).map fun group => { s with db := { s.db with
        groups := s.db.groups.upsert chatId { group with lastMessageId := some messageId } } }
  | .addMember chatId uid role now =>
      if (s.db.members.row (chatId, uid)).isSome ∨ s.memberHeld (chatId, uid) = true then none
      else (s.tick now).map fun s => { s with db := { s.db with
        members := s.db.members.upsert (chatId, uid) ⟨role, now, .other, none⟩ } }
  | .leave chatId uid =>
      some { s with db := { s.db with members := s.db.members.erase (chatId, uid) } }
  | .post uid body id now codes =>
      (s.tick now).map fun s => s.settle uid ((s.db.postInvite uid body id now codes).map Prod.fst)
  | .create input id now codes =>
      (s.tick now).map fun s =>
        s.settle (input.creatorUid.getD 0) ((s.db.createInvite id now input codes).map Prod.fst)
  | .patch uid inviteId expiresAt =>
      if s.inviteHeld inviteId then none
      else some (s.settle uid (s.db.patchInvite uid inviteId expiresAt))
  | .revoke uid inviteId now =>
      if s.inviteHeld inviteId then none
      else (s.tick now).map fun s => s.settle uid (s.db.deleteInvite uid inviteId now)
  | .redeem k uid code now =>
      if (s.redemptions.row k).isSome then none
      else (s.tick now).map fun s => s.redeemInvite k uid code now
  | .check k => (s.redemptions.row k).bind fun r =>
      if r.stage = .opened then some (s.checkRedemption k r) else none
  | .join k now => (s.redemptions.row k).bind fun r =>
      if r.stage = .eligible then (s.tick now).bind fun s => s.joinGroup k r now else none
  | .useInvite k => (s.redemptions.row k).bind fun r =>
      match r.stage with
      | .joined membership => s.useTargeted k r membership
      | _ => none
  | .commit k => (s.redemptions.row k).bind fun r =>
      match r.stage with
      | .used membership => some (s.commitJoin k r membership)
      | _ => none
  | .rollback k =>
      if (s.redemptions.row k).isSome then some { s with redemptions := s.redemptions.erase k }
      else none

/-- No invites and no redemptions yet, whatever the groups and members. -/
def initial (groups : Table Int Group) (members : Table (Int × Int) GroupMembership) :
    InviteSystem := ⟨0, ⟨groups, Table.empty, members⟩, Table.empty, [], []⟩

end InviteSystem

end Chahua.Invites

import Chahua.Framework.Collect
import Chahua.Framework.Run
import Chahua.Framework.Table
import Chahua.Framework.Text

namespace Chahua.Social

open Framework

inductive FriendRequestStatus where
  | pending | archived | accepted | rejected
  deriving DecidableEq, Repr

/-- `UNRESOLVED_FRIEND_REQUEST_STATUSES`. -/
def FriendRequestStatus.isUnresolved : FriendRequestStatus → Bool
  | .pending | .archived => true
  | .accepted | .rejected => false

structure FriendRequest where
  fromUid : Int
  toUid : Int
  status : FriendRequestStatus
  createdAt : Int
  decidedAt : Option Int
  message : Option String
  question : Option String
  deriving DecidableEq, Repr

structure Friendship where
  initiatedBy : Int
  createdAt : Int
  deriving DecidableEq, Repr

inductive GroupKind where
  | group | dm
  deriving DecidableEq, Repr

structure Group where
  name : String
  kind : GroupKind
  dmUid1 : Option Int
  dmUid2 : Option Int
  deriving DecidableEq, Repr

inductive FriendAddVerificationMode where
  | forbid | direct | needMessage | question
  deriving DecidableEq, Repr

inductive AppError where
  | badRequest (text : String)
  | forbidden (text : String)
  | notFound (text : String)
  | conflict (text : String)
  | internal (text : String)
  | dbQuery
  deriving DecidableEq, Repr

/-- The tables of the social graph and the account data its calls read. -/
structure Database where
  friendRequests : Table Int FriendRequest
  friendships : Table (Int × Int) Friendship
  groups : Table Int Group
  groupMembership : Finset (Int × Int)
  blocks : Finset (Int × Int)
  usernames : Table Int String
  friendSettings : Table Int (FriendAddVerificationMode × Option String)

def canonicalPair (a b : Int) : Int × Int := if a < b then (a, b) else (b, a)

def FriendRequest.pair (r : FriendRequest) : Int × Int := canonicalPair r.fromUid r.toUid

def FriendRequest.isUnresolved (r : FriendRequest) : Bool := r.status.isUnresolved

def trim (s : String) : String :=
  String.ofList (((s.toList.dropWhile isWhitespace).reverse.dropWhile isWhitespace).reverse)

/-- An empty text is none. -/
def trimmed (message : Option String) : Option String :=
  message.bind fun m => if trim m = "" then none else some (trim m)

def normalizeRequestMessage (mode : FriendAddVerificationMode) (message : Option String)
    (targetQuestion : Option String) : Except AppError (Option String × Option String) :=
  match mode with
  | .forbid => .error (.forbidden "对方已设置拒绝添加好友")
  | .direct => .ok (none, none)
  | .needMessage =>
    match trimmed message with
    | some m => .ok (some m, none)
    | none => .error (.badRequest "验证消息不能为空")
  | .question =>
    match trimmed message, targetQuestion with
    | some answer, some q => .ok (some answer, some q)
    | some _, none => .error (.internal "Question missing for question mode")
    | none, _ => .error (.badRequest "请回答问题")

namespace Database

variable (db : Database)

def isBlockedEitherDirection (a b : Int) : Bool :=
  decide ((a, b) ∈ db.blocks) || decide ((b, a) ∈ db.blocks)

def areMutualFriends (a b : Int) : Bool := (db.friendships.row (canonicalPair a b)).isSome

def unresolvedBetween (a b : Int) : Finset Int :=
  db.friendRequests.select fun _ r => r.isUnresolved && decide (r.pair = canonicalPair a b)

/-- `first()` without an order: the index leaves at most one row to choose. -/
def findUnresolvedRequestBetween (a b : Int) : Option (Int × FriendRequest) :=
  ((db.unresolvedBetween a b).min : Option Int).bind fun id =>
    (db.friendRequests.row id).map fun r => (id, r)

def getFriendSettings (uid : Int) : FriendAddVerificationMode × Option String :=
  (db.friendSettings.row uid).getD (.direct, none)

/-- `ON CONFLICT DO NOTHING`. -/
def insertFriendship (a b initiatedBy now : Int) : Database :=
  if db.areMutualFriends a b then db
  else { db with
    friendships := db.friendships.upsert (canonicalPair a b) ⟨initiatedBy, now⟩ }

def isDmOf (pair : Int × Int) (group : Group) : Bool :=
  decide (group.kind = .dm) && decide (group.dmUid1 = some pair.1) &&
    decide (group.dmUid2 = some pair.2)

def dmsOf (pair : Int × Int) : Finset Int := db.groups.select fun _ group => isDmOf pair group

/-- The insert conflicts on the id and on the pair of a DM; only a new group gets members. -/
def createDmForFriendship (id userA userB : Int) : Except AppError (Database × Int) :=
  let pair := canonicalPair userA userB
  match db.usernames.row pair.1, db.usernames.row pair.2 with
  | some usernameA, some usernameB =>
    if (db.groups.row id).isSome || decide (db.dmsOf pair).Nonempty then
      match (db.dmsOf pair).min with
      | some existing => .ok (db, existing)
      | none => .error (.internal "Concurrent DM disappeared")
    else if (id, userA) ∈ db.groupMembership ∨ (id, userB) ∈ db.groupMembership then
      .error .dbQuery
    else
      .ok ({ db with
        groups := db.groups.upsert id
          ⟨usernameA ++ " - " ++ usernameB, .dm, some pair.1, some pair.2⟩
        groupMembership := insert (id, userA) (insert (id, userB) db.groupMembership) }, id)
  | _, _ => .error (.internal "DM participant username missing")

/-- The `UPDATE` that decides a request. -/
def decideRequest (id now : Int) (status : FriendRequestStatus) (r : FriendRequest) : Database :=
  { db with
    friendRequests := db.friendRequests.upsert id { r with status, decidedAt := some now } }

/-- The rest of the transaction of an acceptance, for the users in the order of the call. -/
def acceptRequest (id : Int) (r : FriendRequest) (userA userB initiatedBy now dmGroupId : Int) :
    Except AppError Database :=
  (((db.decideRequest id now .accepted r).insertFriendship userA userB initiatedBy
    now).createDmForFriendship dmGroupId userA userB).map Prod.fst

end Database

inductive Outcome where
  | created (id : Int)
  | autoAccepted (id : Int)
  | alreadyPending
  | alreadyFriends
  | resolved (id : Int)
  | rejectedWhileFriends (id : Int)
  | done
  deriving DecidableEq, Repr

/-- The statement that `create_friend_request` executes next. -/
inductive CreatePhase where
  | checkBlocked
  | checkFriends
  | findUnresolved
  | accepting (existing : Int)
  | readSettings
  | inserting (message question : Option String)
  deriving DecidableEq, Repr

structure CreateCall where
  fromUid : Int
  toUid : Int
  message : Option String
  phase : CreatePhase
  deriving DecidableEq, Repr

namespace Database

variable (db : Database)

/-- The acceptance of a reciprocal request by its recipient, who calls. -/
def acceptReciprocal (fromUid toUid existing now dmGroupId : Int) : Except AppError Database :=
  match db.friendRequests.row existing with
  | some r =>
    if r.fromUid = toUid ∧ r.toUid = fromUid ∧ r.isUnresolved then
      db.acceptRequest existing r fromUid toUid fromUid now dmGroupId
    else .error (.conflict "Friend request is no longer pending")
  | none => .error (.conflict "Friend request is no longer pending")

/-- The insert, under the unique index on unresolved pairs. -/
def insertRequest (id : Int) (r : FriendRequest) : Except AppError Database :=
  if (db.friendRequests.row id).isSome || decide (db.unresolvedBetween r.fromUid r.toUid).Nonempty
  then .error (.conflict "Friend request already pending")
  else .ok { db with friendRequests := db.friendRequests.upsert id r }

def advance (c : CreateCall) (now id : Int) :
    Except AppError (Database × (CreatePhase ⊕ Outcome)) :=
  match c.phase with
  | .checkBlocked =>
    if c.fromUid = c.toUid then .error (.badRequest "Cannot send a friend request to yourself")
    else if db.isBlockedEitherDirection c.fromUid c.toUid then
      .error (.forbidden "Cannot send a friend request to a blocked user")
    else .ok (db, .inl .checkFriends)
  | .checkFriends =>
    .ok (db, if db.areMutualFriends c.fromUid c.toUid then .inr .alreadyFriends
      else .inl .findUnresolved)
  | .findUnresolved =>
    match db.findUnresolvedRequestBetween c.fromUid c.toUid with
    | none => .ok (db, .inl .readSettings)
    | some (existing, r) =>
      .ok (db, if r.fromUid = c.fromUid then .inr .alreadyPending else .inl (.accepting existing))
  | .accepting existing =>
    (db.acceptReciprocal c.fromUid c.toUid existing now id).map fun after =>
      (after, .inr (.autoAccepted existing))
  | .readSettings =>
    let settings := db.getFriendSettings c.toUid
    (normalizeRequestMessage settings.1 c.message settings.2).map fun texts =>
      (db, .inl (.inserting texts.1 texts.2))
  | .inserting message question =>
    (db.insertRequest id ⟨c.fromUid, c.toUid, .pending, now, none, message, question⟩).map
      fun after => (after, .inr (.created id))

def resolveFriendRequest (resolverUid requestId : Int) (accept : Bool) (now dmGroupId : Int) :
    Except AppError (Database × Outcome) :=
  match db.friendRequests.row requestId with
  | none => .error (.notFound "Friend request not found")
  | some r =>
    if r.toUid ≠ resolverUid then
      .error (.forbidden "Only the recipient can respond to this friend request")
    else if !r.isUnresolved then .error (.conflict "Friend request is no longer pending")
    else if accept then
      (db.acceptRequest requestId r r.fromUid r.toUid r.fromUid now dmGroupId).map fun after =>
        (after, .resolved requestId)
    else
      .ok (db.decideRequest requestId now .rejected r,
        if db.areMutualFriends r.fromUid r.toUid then .rejectedWhileFriends requestId
        else .resolved requestId)

def archiveFriendRequest (uid requestId : Int) : Except AppError Database :=
  match db.friendRequests.row requestId with
  | some r =>
    if r.toUid = uid ∧ r.status = .pending then
      .ok { db with friendRequests := db.friendRequests.upsert requestId { r with status := .archived } }
    else .error (.notFound "Pending friend request not found")
  | none => .error (.notFound "Pending friend request not found")

def removeFriendship (a b : Int) : Database :=
  { db with friendships := db.friendships.erase (canonicalPair a b) }

def blockUser (blocker blocked : Int) : Except AppError Database :=
  if blocker = blocked then .error (.badRequest "Cannot block yourself")
  else .ok { db with blocks := insert (blocker, blocked) db.blocks }

def unblockUser (blocker blocked : Int) : Database :=
  { db with blocks := db.blocks.erase (blocker, blocked) }

end Database

structure State where
  db : Database
  calls : Nat → Option CreateCall

/-- The calls, the next statement of a call with the clock and the id it draws, and changes of
account data from outside. -/
inductive Event where
  | createFriendRequest (call : Nat) (fromUid toUid : Int) (message : Option String)
  | next (call : Nat) (now id : Int)
  | resolveFriendRequest (resolverUid requestId : Int) (accept : Bool) (now dmGroupId : Int)
  | archiveFriendRequest (uid requestId : Int)
  | removeFriendship (a b : Int)
  | blockUser (blocker blocked : Int)
  | unblockUser (blocker blocked : Int)
  | account (usernames : Table Int String)
      (friendSettings : Table Int (FriendAddVerificationMode × Option String))

def State.withCall (s : State) (call : Nat) (c : Option CreateCall) : State :=
  { s with calls := fun other => if other = call then c else s.calls other }

/-- A transaction that fails leaves the tables to the next one. -/
def State.answer (s : State) (result : Except AppError (Database × Outcome)) :
    State × Option (Except AppError Outcome) :=
  match result with
  | .ok (db, outcome) => ({ s with db }, some (.ok outcome))
  | .error e => (s, some (.error e))

/-- A step, with the answer of the call if it ends it. -/
def execute (s : State) : Event → Option (State × Option (Except AppError Outcome))
  | .createFriendRequest call fromUid toUid message =>
    match s.calls call with
    | none => some (s.withCall call (some ⟨fromUid, toUid, message, .checkBlocked⟩), none)
    | some _ => none
  | .next call now id =>
    (s.calls call).map fun c =>
      match s.db.advance c now id with
      | .ok (db, .inl phase) => ({ s with db }.withCall call (some { c with phase }), none)
      | .ok (db, .inr outcome) => ({ s with db }.withCall call none, some (.ok outcome))
      | .error e => (s.withCall call none, some (.error e))
  | .resolveFriendRequest resolverUid requestId accept now dmGroupId =>
    some (s.answer (s.db.resolveFriendRequest resolverUid requestId accept now dmGroupId))
  | .archiveFriendRequest uid requestId =>
    some (s.answer ((s.db.archiveFriendRequest uid requestId).map fun db => (db, .done)))
  | .removeFriendship a b => some (s.answer (.ok (s.db.removeFriendship a b, .done)))
  | .blockUser blocker blocked =>
    some (s.answer ((s.db.blockUser blocker blocked).map fun db => (db, .done)))
  | .unblockUser blocker blocked => some (s.answer (.ok (s.db.unblockUser blocker blocked, .done)))
  | .account usernames friendSettings =>
    some ({ s with db := { s.db with usernames, friendSettings } }, none)

def step (s : State) (event : Event) : Option State := (execute s event).map Prod.fst

end Chahua.Social

import Chahua.Framework.Run
import Chahua.Framework.Table

namespace Chahua.Speaking

open Framework

inductive GroupRole where
  | member | admin
  deriving DecidableEq, Repr

/-- In the order of the source: a later mode restricts more. -/
inductive SpeakingMode where
  | unrestricted | threadsOnly | repliesOnly | readOnly
  deriving DecidableEq, Repr

inductive SpeakingAction where
  | chatMessage | createThread | threadReply
  deriving DecidableEq, Repr

namespace SpeakingMode

def rank : SpeakingMode → Nat
  | unrestricted => 0
  | threadsOnly => 1
  | repliesOnly => 2
  | readOnly => 3

def max (a b : SpeakingMode) : SpeakingMode := if a.rank ≤ b.rank then b else a

end SpeakingMode

def effectiveMode (role : GroupRole) (groupMode memberMode : SpeakingMode) : SpeakingMode :=
  if role = .admin then .unrestricted else groupMode.max memberMode

def allows : SpeakingMode → SpeakingAction → Bool
  | .unrestricted, _ => true
  | .threadsOnly, action => decide (action ≠ .chatMessage)
  | .repliesOnly, action => decide (action = .threadReply)
  | .readOnly, _ => false

structure Member where
  role : GroupRole
  speakingMode : SpeakingMode
  deriving DecidableEq, Repr

structure MemberSpeakingModeResponse where
  uid : Int
  role : GroupRole
  speakingMode : SpeakingMode
  groupSpeakingMode : SpeakingMode
  effectiveSpeakingMode : SpeakingMode
  deriving DecidableEq, Repr

def memberState (uid : Int) (role : GroupRole) (groupSpeakingMode speakingMode : SpeakingMode) :
    MemberSpeakingModeResponse :=
  { uid, role, speakingMode, groupSpeakingMode
    effectiveSpeakingMode := effectiveMode role groupSpeakingMode speakingMode }

/-- The calls on one group. The thread a send goes to decides its action, and so does the place
of an edited message. -/
inductive Request where
  | send (uid : Int) (action : SpeakingAction)
  | edit (uid : Int) (inThread : Bool)
  | updateGroupMode (requester : Int) (mode : SpeakingMode)
  | updateMemberMode (requester target : Int) (mode : SpeakingMode)
  | updateMemberRole (requester target : Int) (role : GroupRole)
  | removeMember (requester target : Int)
  | joinByInvite (uid : Int)
  deriving DecidableEq, Repr

/-- What a transaction commits once its checks have passed. -/
inductive Write where
  | message (uid : Int) (action : SpeakingAction)
  | groupMode (mode : SpeakingMode)
  | memberMode (target : Int) (mode : SpeakingMode)
  | memberRole (target : Int) (role : GroupRole) (mode : SpeakingMode)
  | removal (target : Int)
  deriving DecidableEq, Repr

inductive Announcement where
  | groupMode
  | memberMode (uid : Int)
  deriving DecidableEq, Repr

/-- The enqueued events, with a mark for each join. -/
inductive Entry where
  | groupSpeakingModeChanged (mode : SpeakingMode)
  | memberSpeakingModeChanged (response : MemberSpeakingModeResponse)
  | joined (uid : Int)
  deriving DecidableEq, Repr

/-- Where a call stands: the statement it executes next. -/
inductive Phase where
  | idle
  | starting (request : Request)
  | authorizing (uid : Int) (action : SpeakingAction)
  | requiring (request : Request)
  | targeting (request : Request)
  | counting (target : Int)
  | writing (write : Write)
  | announcing (announcement : Announcement)
  | reading (announcement : Announcement)
  | enqueuing (entry : Entry)
  deriving DecidableEq, Repr

/-- One group: its committed rows, the advisory lock, the calls and the events, newest first. -/
structure State where
  speakingMode : SpeakingMode
  members : Table Int Member
  shared : Finset Nat
  exclusive : Option Nat
  phase : Nat → Phase
  events : List Entry

inductive Event where
  | call (id : Nat) (request : Request)
  | next (id : Nat)
  deriving DecidableEq, Repr

namespace State

def goTo (s : State) (id : Nat) (phase : Phase) : State :=
  { s with phase := fun other => if other = id then phase else s.phase other }

/-- The transaction ends and with it its lock. -/
def release (s : State) (id : Nat) : State :=
  { s with
    shared := s.shared.erase id
    exclusive := if s.exclusive = some id then none else s.exclusive }

/-- `lock_chat(…, exclusive)`; a call that has to wait takes no step. -/
def lockShared (s : State) (id : Nat) (phase : Phase) : Option State :=
  if s.exclusive = none then some ({ s with shared := insert id s.shared }.goTo id phase) else none

def lockExclusive (s : State) (id : Nat) (phase : Phase) : Option State :=
  if s.exclusive = none ∧ s.shared = ∅ then some ({ s with exclusive := some id }.goTo id phase)
  else none

def abort (s : State) (id : Nat) : State := (s.release id).goTo id .idle

def isAdmin (s : State) (uid : Int) : Bool := (s.members.row uid).any (decide <| ·.role = .admin)

/-- A member whose effective mode allows the action. -/
def allowed (s : State) (uid : Int) (action : SpeakingAction) : Bool :=
  (s.members.row uid).any fun m =>
    allows (effectiveMode m.role s.speakingMode m.speakingMode) action

def start (s : State) (id : Nat) : Request → Option State
  | .send uid action => s.lockShared id (.authorizing uid action)
  | .edit uid inThread =>
    s.lockShared id (.authorizing uid (if inThread then .threadReply else .chatMessage))
  | .joinByInvite uid =>
    match s.members.row uid with
    | some _ => some (s.goTo id .idle)
    | none =>
      some ({ s with
        members := s.members.upsert uid ⟨.member, .unrestricted⟩
        events := .joined uid :: s.events }.goTo id .idle)
  | request => s.lockExclusive id (.requiring request)

/-- `require_admin_role` to remove another member, `check_membership` to leave. -/
def mayRemove (s : State) (requester target : Int) : Bool :=
  if requester ≠ target then s.isAdmin requester else (s.members.row requester).isSome

/-- `require_group_admin`, or the check of the requester of a removal. -/
def require (s : State) (id : Nat) : Request → State
  | .updateGroupMode requester mode =>
    if s.isAdmin requester then s.goTo id (.writing (.groupMode mode)) else s.abort id
  | .updateMemberMode requester target mode =>
    if s.isAdmin requester then s.goTo id (.targeting (.updateMemberMode requester target mode))
    else s.abort id
  | .updateMemberRole requester target role =>
    if s.isAdmin requester && decide (requester ≠ target) then
      s.goTo id (.targeting (.updateMemberRole requester target role))
    else s.abort id
  | .removeMember requester target =>
    if s.mayRemove requester target then
      s.goTo id (.targeting (.removeMember requester target))
    else s.abort id
  | _ => s.abort id

/-- The target's row is read and checked. -/
def target (s : State) (id : Nat) : Request → State
  | .updateMemberMode _ target mode =>
    match s.members.row target with
    | some m =>
      if m.role = .admin then s.abort id else s.goTo id (.writing (.memberMode target mode))
    | none => s.abort id
  | .updateMemberRole _ target role =>
    match s.members.row target with
    | some m =>
      s.goTo id (.writing (.memberRole target role
        (if role = .admin then .unrestricted else m.speakingMode)))
    | none => s.abort id
  | .removeMember _ target =>
    match s.members.row target with
    | some m =>
      if m.role = .admin then s.goTo id (.counting target)
      else s.goTo id (.writing (.removal target))
    | none => s.abort id
  | _ => s.abort id

def admins (s : State) : Finset Int := s.members.select fun _ m => decide (m.role = .admin)

def updateMember (s : State) (uid : Int) (f : Member → Member) : State :=
  { s with members := s.members.updateWhere (fun key _ => decide (key = uid)) fun _ m => f m }

/-- The write and the commit; a mode or role change is announced afterwards. -/
def commit (s : State) (id : Nat) : Write → State
  | .message _ _ => (s.release id).goTo id .idle
  | .groupMode mode =>
    ({ s with speakingMode := mode }.release id).goTo id (.announcing .groupMode)
  | .memberMode target mode =>
    ((s.updateMember target fun m => { m with speakingMode := mode }).release id).goTo id
      (.announcing (.memberMode target))
  | .memberRole target role mode =>
    ((s.updateMember target fun _ => ⟨role, mode⟩).release id).goTo id
      (.announcing (.memberMode target))
  | .removal target => ({ s with members := s.members.erase target }.release id).goTo id .idle

/-- The read of `broadcast_group_mode` or `broadcast_member_mode`; a removed member has no event. -/
def read (s : State) (id : Nat) : Announcement → State
  | .groupMode => s.goTo id (.enqueuing (.groupSpeakingModeChanged s.speakingMode))
  | .memberMode uid =>
    match s.members.row uid with
    | some m => s.goTo id
        (.enqueuing (.memberSpeakingModeChanged (memberState uid m.role s.speakingMode m.speakingMode)))
    | none => s.abort id

def execute (s : State) (id : Nat) : Phase → Option State
  | .idle => none
  | .starting request => s.start id request
  | .authorizing uid action =>
    some (if s.allowed uid action then s.goTo id (.writing (.message uid action)) else s.abort id)
  | .requiring request => some (s.require id request)
  | .targeting request => some (s.target id request)
  | .counting target =>
    some (if s.admins.card ≤ 1 then s.abort id else s.goTo id (.writing (.removal target)))
  | .writing write => some (s.commit id write)
  | .announcing announcement => s.lockShared id (.reading announcement)
  | .reading announcement => some (s.read id announcement)
  | .enqueuing entry => some ({ s with events := entry :: s.events }.abort id)

end State

def step (s : State) : Event → Option State
  | .call id request => if s.phase id = .idle then some (s.goTo id (.starting request)) else none
  | .next id => s.execute id (s.phase id)

end Chahua.Speaking

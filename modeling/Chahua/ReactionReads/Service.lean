import Chahua.Framework.Run
import Chahua.Framework.Table
import Mathlib.Data.Finset.Sort

namespace Chahua.ReactionReads

open Framework

structure Message where
  chatId : Int
  senderUid : Int
  replyRootId : Option Int
  deletedAt : Option Int
  isPublished : Bool
  deriving DecidableEq, Repr

structure MessageReaction where
  createdAt : Int
  messageAuthorUid : Int
  deriving DecidableEq, Repr

/-- Reactions by message, reactor and emoji; of memberships and thread states, their
`last_reactions_read_at`. -/
structure Database where
  messages : Table Int Message
  messageReactions : Table (Int × Int × String) MessageReaction
  groupMembership : Table (Int × Int) Int
  threadUserStates : Table (Int × Int × Int) Int

def maxUnreadCount : Nat := 1000

namespace Database

variable (db : Database)

/-- The read cursor of a scope; `-infinity` is none. -/
def cursor (chatId uid : Int) : Option Int → Option Int
  | none => db.groupMembership.row (chatId, uid)
  | some threadRootId => db.threadUserStates.row (chatId, threadRootId, uid)

/-- `UNREAD_REACTIONS_FILTER` with the tail of the scope. -/
def isUnread (uid chatId : Int) (threadRootId : Option Int) (key : Int × Int × String)
    (reaction : MessageReaction) : Bool :=
  match db.messages.row key.1 with
  | some message =>
    decide (reaction.messageAuthorUid = uid) && decide (key.2.1 ≠ uid) &&
      decide (message.chatId = chatId) && message.deletedAt.isNone && message.isPublished &&
      decide (message.replyRootId = threadRootId) &&
      (db.cursor chatId uid threadRootId).all (· < reaction.createdAt)
  | none => false

def unreadMessages (uid chatId : Int) (threadRootId : Option Int) : Finset Int :=
  db.messageReactions.image (db.isUnread uid chatId threadRootId) fun key _ => key.1

def countChatUnreadReactions (uid chatId : Int) (threadRootId : Option Int) : Nat :=
  min (db.unreadMessages uid chatId threadRootId).card maxUnreadCount

/-- The messages of a snapshot before its limit. -/
def listed (uid chatId : Int) (threadRootId : Option Int) (readThrough : Int)
    (after : Option Int) : Finset Int :=
  db.messageReactions.image
    (fun key reaction => db.isUnread uid chatId threadRootId key reaction &&
      decide (reaction.createdAt ≤ readThrough) && after.all (· < reaction.createdAt))
    fun key _ => key.1

def listChatUnreadReactions (uid chatId : Int) (threadRootId : Option Int) (limit : Nat)
    (readThrough : Int) (after : Option Int) : List Int :=
  ((db.listed uid chatId threadRootId readThrough after).sort (· ≥ ·)).take limit

/-- The row of `ensure_thread_user_state` and `ensure_thread_subscription`, if there is none: its
cursor is the column's default, the `NOW()` of the transaction. -/
def ensureThreadUserState (chatId threadRootId uid now : Int) : Database :=
  match db.threadUserStates.row (chatId, threadRootId, uid) with
  | some _ => db
  | none => { db with
      threadUserStates := db.threadUserStates.upsert (chatId, threadRootId, uid) now }

/-- An acknowledgement overwrites the cursor of a row that it inserts. -/
def acknowledge (uid chatId : Int) (threadRootId : Option Int) (readThrough : Int) : Database :=
  match threadRootId with
  | some rootId => { db with
      threadUserStates := db.threadUserStates.upsert (chatId, rootId, uid)
        (match db.threadUserStates.row (chatId, rootId, uid) with
          | some cursor => max cursor readThrough
          | none => readThrough) }
  | none =>
    match db.groupMembership.row (chatId, uid) with
    | some cursor => { db with
        groupMembership := db.groupMembership.upsert (chatId, uid) (max cursor readThrough) }
    | none => db

/-- `ON CONFLICT DO NOTHING`. -/
def insertReaction (key : Int × Int × String) (reaction : MessageReaction) : Database :=
  match db.messageReactions.row key with
  | some _ => db
  | none => { db with messageReactions := db.messageReactions.upsert key reaction }

end Database

/-- Writes that take no scope lock. A post is a message at the top level or the announcement of a
pin, which may be in a thread; the others of a thread send are those of its root's author and the
mentioned users who are members. -/
inductive Statement where
  | deleteReaction (key : Int × Int × String)
  | deleteMessage (messageId now : Int)
  | publishMessage (messageId : Int)
  | postMessage (id : Int) (message : Message)
  | sendToThread (id chatId uid threadRootId : Int) (isPublished : Bool) (others : List Int)
      (now : Int)
  | markChatRead (chatId uid : Int)
  | markThreadRead (chatId threadRootId uid now : Int)
  | subscribe (chatId threadRootId uid now : Int)

/-- The thread states that a statement ensures, and its `NOW()`. -/
def Statement.ensures : Statement → List (Int × Int × Int) × Int
  | .sendToThread _ chatId uid threadRootId _ others now =>
    ((uid :: others).map fun user => (chatId, threadRootId, user), now)
  | .markThreadRead chatId threadRootId uid now => ([(chatId, threadRootId, uid)], now)
  | .subscribe chatId threadRootId uid now => ([(chatId, threadRootId, uid)], now)
  | _ => ([], 0)

namespace Database

variable (db : Database)

def ensureAll (keys : List (Int × Int × Int)) (now : Int) : Database :=
  keys.foldl (fun db key => db.ensureThreadUserState key.1 key.2.1 key.2.2 now) db

def insertMessage (id : Int) (message : Message) : Database :=
  match db.messages.row id with
  | some _ => db
  | none => { db with messages := db.messages.upsert id message }

def updateMessage (id : Int) (f : Message → Message) : Database :=
  match db.messages.row id with
  | some message => { db with messages := db.messages.upsert id (f message) }
  | none => db

def write (statement : Statement) : Database :=
  match statement with
  | .deleteReaction key => { db with messageReactions := db.messageReactions.erase key }
  | .deleteMessage messageId now =>
    db.updateMessage messageId fun m => { m with deletedAt := some (m.deletedAt.getD now) }
  | .publishMessage messageId => db.updateMessage messageId fun m => { m with isPublished := true }
  | .postMessage id message => db.insertMessage id message
  | .sendToThread id chatId uid threadRootId isPublished _ _ =>
    (db.insertMessage id ⟨chatId, uid, some threadRootId, none, isPublished⟩).ensureAll
      statement.ensures.1 statement.ensures.2
  | .markChatRead _ _ => db
  | .markThreadRead _ _ _ _ | .subscribe _ _ _ _ =>
    db.ensureAll statement.ensures.1 statement.ensures.2

end Database

inductive Work where
  | insertReaction (key : Int × Int × String)
  | snapshot (threadRootId : Option Int) (limit : Nat) (after : Option Int)
  | acknowledge (threadRootId readThrough : Option Int)
  deriving DecidableEq, Repr

/-- A transaction after `lock_scope`, with the timestamp it drew. -/
structure Transaction where
  chatId : Int
  uid : Int
  now : Int
  work : Work
  deriving DecidableEq, Repr

def Transaction.scope (t : Transaction) : Int × Int := (t.chatId, t.uid)

/-- `read_through.unwrap_or(now).min(now)`. -/
def Transaction.boundary (t : Transaction) (readThrough : Option Int) : Int :=
  min (readThrough.getD t.now) t.now

/-- The holder of a scope's lock, the transactions that are under way and the last time seen. -/
structure State where
  db : Database
  clock : Int
  locks : Int × Int → Option Nat
  transactions : Nat → Option Transaction

inductive Event where
  | insertReaction (tx : Nat) (key : Int × Int × String) (now : Int)
  | snapshot (tx : Nat) (uid chatId : Int) (threadRootId : Option Int) (limit : Nat)
      (after : Option Int) (now : Int)
  | acknowledge (tx : Nat) (uid chatId : Int) (threadRootId readThrough : Option Int) (now : Int)
  | commit (tx : Nat)
  | rollback (tx : Nat)
  | write (statement : Statement)
  | tick (now : Int)

inductive Answer where
  | inserted
  | snapshot (readThrough : Int) (messageIds : List Int)
  | acknowledged (unreadReactions : Nat)
  deriving DecidableEq, Repr

def Transaction.commit (t : Transaction) (db : Database) : Database × Answer :=
  match t.work with
  | .insertReaction key => (db.insertReaction key ⟨t.now, t.uid⟩, .inserted)
  | .snapshot threadRootId limit after =>
    (db, .snapshot t.now
      (db.listChatUnreadReactions t.uid t.chatId threadRootId limit t.now after))
  | .acknowledge threadRootId readThrough =>
    let acknowledged := db.acknowledge t.uid t.chatId threadRootId (t.boundary readThrough)
    (acknowledged,
      .acknowledged (acknowledged.countChatUnreadReactions t.uid t.chatId threadRootId))

namespace State

variable (s : State)

def setTransaction (tx : Nat) (t : Option Transaction) : State :=
  { s with transactions := fun other => if other = tx then t else s.transactions other }

def setLock (scope : Int × Int) (holder : Option Nat) : State :=
  { s with locks := fun other => if other = scope then holder else s.locks other }

/-- Waits for the lock of a member; without a membership row there is nothing to lock. -/
def lockScope (tx : Nat) (t : Transaction) : Option State :=
  if s.clock < t.now ∧ s.transactions tx = none then
    if (s.db.groupMembership.row t.scope).isSome then
      if s.locks t.scope = none then
        some ({ s with clock := t.now }.setLock t.scope (some tx) |>.setTransaction tx (some t))
      else none
    else some ({ s with clock := t.now }.setTransaction tx (some t))
  else none

/-- The end of a transaction and of its lock. -/
def close (tx : Nat) (t : Transaction) (db : Database) : State :=
  if s.locks t.scope = some tx then
    ({ s with db }.setLock t.scope none).setTransaction tx none
  else { s with db }.setTransaction tx none

end State

def execute (s : State) : Event → Option (State × Option Answer)
  | .insertReaction tx key now =>
    (s.db.messages.row key.1).bind fun m =>
      (s.lockScope tx ⟨m.chatId, m.senderUid, now, .insertReaction key⟩).map (·, none)
  | .snapshot tx uid chatId threadRootId limit after now =>
    (s.lockScope tx ⟨chatId, uid, now, .snapshot threadRootId limit after⟩).map (·, none)
  | .acknowledge tx uid chatId threadRootId readThrough now =>
    (s.lockScope tx ⟨chatId, uid, now, .acknowledge threadRootId readThrough⟩).map (·, none)
  | .commit tx =>
    (s.transactions tx).map fun t =>
      (s.close tx t (t.commit s.db).1, some (t.commit s.db).2)
  | .rollback tx => (s.transactions tx).map fun t => (s.close tx t s.db, none)
  | .write statement =>
    if statement.ensures.1 = [] ∨ statement.ensures.2 ≤ s.clock then
      some ({ s with db := s.db.write statement }, none)
    else none
  | .tick now => if s.clock < now then some ({ s with clock := now }, none) else none

def step (s : State) (event : Event) : Option State := (execute s event).map Prod.fst

end Chahua.ReactionReads

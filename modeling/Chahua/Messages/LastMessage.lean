import Chahua.Messages.System

namespace Chahua.Messages

open Framework

/-- `last_message_id` and `last_message_at` of a chat. -/
abbrev LastMessage := Option Int × Option Int

namespace Database

/-- The query of `recalculate_group_last_message`. -/
def newestMessage (db : Database) (chatId : Int) : LastMessage :=
  let prevMessage := db.messages.newest fun _ m =>
    decide (m.chatId = chatId) && m.isLive && m.isTopLevel
  (prevMessage, prevMessage.bind fun id => (db.messages.row id).map (·.createdAt))

def lastMessage (db : Database) (chatId : Int) : LastMessage :=
  ((db.groups.row chatId).bind (·.lastMessageId), (db.groups.row chatId).bind (·.lastMessageAt))

def setLastMessage (db : Database) (chatId : Int) (last : LastMessage) : Database :=
  { db with
    groups := db.groups.updateWhere (fun id _ => decide (id = chatId)) fun _ g =>
      { g with lastMessageId := last.1, lastMessageAt := last.2 } }

end Database

/-- What a transaction still owes the chat's last message. -/
inductive Bookkeeping where
  | nothing
  | assign (last : LastMessage)
  | recalculate
  | reconcile (deletedMessageIds : List Int)

/-- The statements a transaction has behind it: deletions look at `last_message_id` first, then the
newest message is selected, then the row of the group is updated, and locked until the end. -/
inductive Phase where
  | todo (bookkeeping : Bookkeeping)
  | unmatched (deletedMessageIds : List Int)
  | selected (last : LastMessage)
  | assigned (last : LastMessage)
  | recalculated (last : LastMessage)

/-- What a cleanup has after the transaction. -/
inductive CleanupStep where
  | none
  | batch (cleanup : Nat) (messageIds : List Int)
  | reconciled (cleanup : Nat)

/-- A transaction with the message rows it has written, which it keeps locked. -/
structure Transaction where
  writes : Table Int Message
  phase : Phase
  cleanup : CleanupStep

/-- The transactions of one chat under way, the deletions of cleanups that were not reconciled yet
and the audio jobs between load and publication. -/
structure Concurrent where
  db : Database
  transactions : Table Nat Transaction
  cleanups : Table Nat (List Int)
  jobs : Table Nat (Int × Bool)

inductive TransactionEvent where
  | send (tx : Nat) (now id : Int) (p : PreparedMessageSend)
  | load (job : Nat) (messageId : Int)
  | publish (tx job : Nat) (outcome : AudioPublishOutcome)
  | deleteMessage (tx : Nat) (now messageId : Int)
  | deleteSelection (tx : Nat) (now uid : Int) (isAdmin : Bool) (ids : List Int)
  | cleanupBatch (tx cleanup : Nat) (now targetUid : Int) (scope : DeleteScope)
  | cleanupReconcile (tx cleanup : Nat)
  | check (tx : Nat)
  | select (tx : Nat)
  | update (tx : Nat)
  | commit (tx : Nat)
  | rollback (tx : Nat)

def Phase.holdsGroup : Phase → Bool
  | .assigned _ | .recalculated _ => true
  | _ => false

def CleanupStep.of (cleanup : Nat) : CleanupStep → Bool
  | .none => false
  | .batch k _ | .reconciled k => decide (k = cleanup)

namespace Concurrent

def start (db : Database) : Concurrent := ⟨db, .empty, .empty, .empty⟩

/-- No other transaction keeps these message rows. -/
def RowsFree (s : Concurrent) (ids : Finset Int) : Prop :=
  s.transactions.select (fun _ t => decide (¬Disjoint t.writes.keys ids)) = ∅

def GroupFree (s : Concurrent) : Prop :=
  s.transactions.select (fun _ t => t.phase.holdsGroup) = ∅

/-- The worker of a cleanup runs one transaction after the other. -/
def CleanupFree (s : Concurrent) (cleanup : Nat) : Prop :=
  s.transactions.select (fun _ t => t.cleanup.of cleanup) = ∅

instance (s : Concurrent) (ids : Finset Int) : Decidable (s.RowsFree ids) :=
  inferInstanceAs (Decidable (_ = _))

instance (s : Concurrent) : Decidable s.GroupFree := inferInstanceAs (Decidable (_ = _))

instance (s : Concurrent) (cleanup : Nat) : Decidable (s.CleanupFree cleanup) :=
  inferInstanceAs (Decidable (_ = _))

/-- A transaction after its first statements, once the rows they lock are free. -/
def opened (s : Concurrent) (tx : Nat) (t : Transaction) : Option Concurrent :=
  if (s.transactions.row tx).isNone ∧ s.RowsFree t.writes.keys then
    some { s with transactions := s.transactions.upsert tx t }
  else none

/-- What a transaction reads: what is committed and its own rows. -/
def view (s : Concurrent) (t : Transaction) : Database :=
  { s.db with messages := s.db.messages.union t.writes }

def setPhase (s : Concurrent) (tx : Nat) (t : Transaction) (phase : Phase) : Concurrent :=
  { s with transactions := s.transactions.upsert tx { t with phase := phase } }

/-- Rows and group become visible and the cleanup notes what the transaction was for. -/
def committed (s : Concurrent) (chatId : Int) (tx : Nat) (t : Transaction) : Concurrent where
  db := match t.phase with
    | .assigned last | .recalculated last => (s.view t).setLastMessage chatId last
    | _ => s.view t
  transactions := s.transactions.erase tx
  cleanups := match t.cleanup with
    | .none => s.cleanups
    | .batch cleanup ids =>
        s.cleanups.upsert cleanup (((s.cleanups.row cleanup).getD []) ++ ids)
    | .reconciled cleanup => s.cleanups.erase cleanup
  jobs := s.jobs

/-- `send_prepared_message` inserts its row before it updates the group. -/
def send (s : Concurrent) (chatId : Int) (tx : Nat) (now id : Int) (p : PreparedMessageSend) :
    Option Concurrent :=
  if p.chatId = chatId ∧ (s.db.messages.row id).isNone then
    s.opened tx
      { writes := Table.empty.upsert id (p.newMessage now)
        phase := .todo
          (if p.publishImmediately && p.replyRootId.isNone then .assign (some id, some now)
           else .nothing)
        cleanup := .none }
  else none

/-- The publish transaction of `process_message`; whether the row was published was loaded before. -/
def publish (s : Concurrent) (chatId : Int) (tx job : Nat) (outcome : AudioPublishOutcome) :
    Option Concurrent :=
  (s.jobs.row job).bind fun loaded =>
    ((s.db.messages.row loaded.1).filter fun m => decide (m.chatId = chatId)).bind fun m =>
      s.opened tx
        { writes := (((s.db.swapAttachment outcome).setPublished loaded.1
            outcome).messages).restrict {loaded.1}
          phase := .todo (if !loaded.2 && m.replyRootId.isNone then .recalculate else .nothing)
          cleanup := .none }

/-- `delete_message` checked the row before its transaction, when it was not deleted yet. -/
def deleteMessage (s : Concurrent) (chatId : Int) (tx : Nat) (now messageId : Int) :
    Option Concurrent :=
  if (s.db.messages.row messageId).any fun m =>
      decide (m.chatId = chatId) && m.isPublished && decide (m.messageType ≠ .system) then
    s.opened tx
      { writes := (s.db.markDeleted now messageId).messages.restrict {messageId}
        phase := .todo (.reconcile [messageId])
        cleanup := .none }
  else none

def deleteSelection (s : Concurrent) (chatId : Int) (tx : Nat) (now uid : Int) (isAdmin : Bool)
    (ids : List Int) : Option Concurrent :=
  match Database.checkSelection (s.db.selectTargets chatId ids) uid isAdmin ids,
    s.db.softDeleteBatch now (s.db.selectTargets chatId ids) with
  | .ok (), .ok (marked, impact) =>
      s.opened tx
        { writes := marked.messages.restrict impact.messageIds.toFinset
          phase := .todo (.reconcile impact.messageIds)
          cleanup := .none }
  | _, _ => none

def cleanupBatch (s : Concurrent) (chatId : Int) (tx cleanup : Nat) (now targetUid : Int)
    (scope : DeleteScope) : Option Concurrent :=
  match s.db.bulkDeleteBatch now chatId targetUid scope with
  | .ok (marked, batch) =>
      if s.CleanupFree cleanup then
        s.opened tx
          { writes := marked.messages.restrict batch.messageIds.toFinset
            phase := .todo .nothing
            cleanup := .batch cleanup batch.messageIds }
      else none
  | .error _ => none

def cleanupReconcile (s : Concurrent) (tx cleanup : Nat) : Option Concurrent :=
  (s.cleanups.row cleanup).bind fun ids =>
    if s.CleanupFree cleanup then
      s.opened tx
        { writes := .empty
          phase := .todo (.reconcile ids)
          cleanup := .reconciled cleanup }
    else none

/-- `SELECT last_message_id`, which sees what is committed. -/
def check (s : Concurrent) (chatId : Int) (tx : Nat) : Option Concurrent :=
  (s.transactions.row tx).bind fun t =>
    match t.phase with
    | .todo (.reconcile ids) =>
        some (s.setPhase tx t
          (if (s.db.lastMessage chatId).1.any fun id => decide (id ∈ ids) then .todo .recalculate
           else .unmatched ids))
    | _ => none

def select (s : Concurrent) (chatId : Int) (tx : Nat) : Option Concurrent :=
  (s.transactions.row tx).bind fun t =>
    match t.phase with
    | .todo .recalculate => some (s.setPhase tx t (.selected ((s.view t).newestMessage chatId)))
    | _ => none

/-- The update waits until no other transaction keeps the row of the group. -/
def update (s : Concurrent) (tx : Nat) : Option Concurrent :=
  (s.transactions.row tx).bind fun t =>
    if s.GroupFree then
      match t.phase with
      | .todo (.assign last) => some (s.setPhase tx t (.assigned last))
      | .selected last => some (s.setPhase tx t (.recalculated last))
      | _ => none
    else none

/-- Only a transaction that is done commits. -/
def commit (s : Concurrent) (chatId : Int) (tx : Nat) : Option Concurrent :=
  (s.transactions.row tx).bind fun t =>
    match t.phase with
    | .todo .nothing | .unmatched _ | .assigned _ | .recalculated _ =>
        some (s.committed chatId tx t)
    | _ => none

def step (chatId : Int) (s : Concurrent) : TransactionEvent → Option Concurrent
  | .send tx now id p => s.send chatId tx now id p
  | .load job messageId =>
      (s.db.messages.row messageId).map fun m =>
        { s with jobs := s.jobs.upsert job (messageId, m.isPublished) }
  | .publish tx job outcome => s.publish chatId tx job outcome
  | .deleteMessage tx now messageId => s.deleteMessage chatId tx now messageId
  | .deleteSelection tx now uid isAdmin ids => s.deleteSelection chatId tx now uid isAdmin ids
  | .cleanupBatch tx cleanup now targetUid scope =>
      s.cleanupBatch chatId tx cleanup now targetUid scope
  | .cleanupReconcile tx cleanup => s.cleanupReconcile tx cleanup
  | .check tx => s.check chatId tx
  | .select tx => s.select chatId tx
  | .update tx => s.update tx
  | .commit tx => s.commit chatId tx
  | .rollback tx =>
      (s.transactions.row tx).map fun _ => { s with transactions := s.transactions.erase tx }

/-- Nothing is under way: no transaction, no cleanup that has not reconciled. -/
def Quiescent (s : Concurrent) : Prop :=
  s.transactions = .empty ∧ s.cleanups = .empty

end Concurrent

end Chahua.Messages

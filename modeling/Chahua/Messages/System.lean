import Chahua.Messages.Pins
import Chahua.Messages.Deletion
import Chahua.Messages.Audio
import Chahua.Framework.Run

namespace Chahua.Messages

open Framework

/-- The committed tables, the audio jobs under way and what was sent out so far. -/
structure System where
  db : Database
  jobs : Table Nat AudioJob
  outputs : List Output

/-- Each operation commits at once, but an audio job takes three steps. Ids and times that an
operation draws are part of its event. -/
inductive Event where
  | postMessage (now id uid chatId : Int) (hidden : Bool) (body : CreateMessageBody)
  | postThreadMessage (now id uid chatId threadId : Int) (body : CreateMessageBody)
  | forwardMessage (now id uid chatId : Int) (threadId : Option Int) (hidden : Bool)
      (body : ForwardBody)
  | createThreadPin (now pinId : Int) (announcementId : Option Int)
      (uid chatId threadRootId messageId : Int)
  | deleteThreadPin (now pinId : Int) (announcementId : Option Int)
      (uid chatId threadRootId : Int)
  | deleteMessage (now uid chatId messageId : Int)
  | deleteSelection (now chatId uid : Int) (isAdmin : Bool) (ids : List Int)
  | memberCleanup (clock : List Int) (chatId targetUid : Int) (scope : DeleteScope)
  | loadAudio (job : Nat) (messageId : Int) (transcoded : Option TranscodedObject)
  | publishAudio (job : Nat)
  | finishAudio (job : Nat)

/-- A group right after its creation. -/
def Database.newGroup (chatId : Int) (members : List (Int × GroupRole)) : Database where
  messages := .empty
  attachments := .empty
  messageMentions := .empty
  threadMeta := .empty
  threadUserStates := .empty
  groupMembership := .ofList (members.map fun member =>
    ((chatId, member.1), { role := member.2, lastReadMessageId := none }))
  groups := .ofList [(chatId,
    { kind := .group
      membershipMessageVisibility := .members
      lastMessageId := none
      lastMessageAt := none })]
  pinnedMessages := .empty

namespace System

/-- Nothing runs and nothing was sent out. -/
def start (db : Database) : System := ⟨db, .empty, []⟩

/-- A failed operation leaves no trace. -/
def commit (s : System) (result : Except AppError (Database × List Output)) : Option System :=
  result.toOption.map fun r => { s with db := r.1, outputs := s.outputs ++ r.2 }

def commitDelete (s : System) (result : Except AppError Database) : Option System :=
  result.toOption.map fun db => { s with db := db }

def publish (s : System) (job : Nat) : Option System :=
  match s.jobs.row job with
  | some (.loaded messageId message attachment outcome) =>
      (s.db.publishAudio messageId message outcome).toOption.map fun r =>
        { s with
          db := r.1
          jobs := s.jobs.upsert job (.published messageId message r.2 attachment outcome) }
  | _ => none

def finish (s : System) (job : Nat) : Option System :=
  match s.jobs.row job with
  | some (.published messageId message updated attachment outcome) =>
      let r := s.db.audioSideEffects messageId message updated attachment outcome
      some { db := r.1, jobs := s.jobs.upsert job .finished, outputs := s.outputs ++ r.2 }
  | _ => none

def step (s : System) : Event → Option System
  | .postMessage now id uid chatId hidden body =>
      s.commit (s.db.postMessage now id uid chatId hidden body)
  | .postThreadMessage now id uid chatId threadId body =>
      s.commit (s.db.postThreadMessage now id uid chatId threadId body)
  | .forwardMessage now id uid chatId threadId hidden body =>
      s.commit (s.db.forwardMessage now id uid chatId threadId hidden body)
  | .createThreadPin now pinId announcementId uid chatId threadRootId messageId =>
      s.commit (s.db.createThreadPin now pinId announcementId uid chatId threadRootId messageId)
  | .deleteThreadPin now pinId announcementId uid chatId threadRootId =>
      s.commit (s.db.deleteThreadPin now pinId announcementId uid chatId threadRootId)
  | .deleteMessage now uid chatId messageId =>
      s.commitDelete (s.db.deleteMessage now uid chatId messageId)
  | .deleteSelection now chatId uid isAdmin ids =>
      s.commitDelete (s.db.deleteSelection now chatId uid isAdmin ids)
  | .memberCleanup clock chatId targetUid scope =>
      s.commitDelete (s.db.processBulkDelete clock chatId targetUid scope)
  | .loadAudio job messageId transcoded =>
      if (s.jobs.row job).isSome then none
      else
        (s.db.loadAudio messageId transcoded).toOption.map fun loaded =>
          { s with jobs := s.jobs.upsert job loaded }
  | .publishAudio job => s.publish job
  | .finishAudio job => s.finish job

end System

end Chahua.Messages

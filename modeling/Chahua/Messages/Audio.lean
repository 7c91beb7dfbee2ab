import Chahua.Messages.Chats
import Chahua.Messages.Threads
import Mathlib.Data.Prod.Lex

namespace Chahua.Messages

open Framework

/-- `Path::file_name`: the last component that is neither empty nor `.`, unless it is `..`. -/
def pathFileName (path : List Char) : Option (List Char) :=
  match ((path.splitOn '/').filter fun part => decide (part ≠ [] ∧ part ≠ ['.'])).getLast? with
  | none => none
  | some part => if part = ['.', '.'] then none else some part

/-- `Path::file_stem` and `Path::extension`: a dot at the start begins no extension. -/
def splitExtension (path : List Char) : Option (List Char × Option (List Char)) :=
  (pathFileName path).map fun name =>
    let extension := name.reverse.takeWhile (· ≠ '.')
    let stem := (name.reverse.drop (extension.length + 1)).reverse
    if '.' ∈ name ∧ stem ≠ [] then (stem, some extension.reverse) else (name, none)

def isCanonicalAttachment (a : Attachment) : Bool :=
  decide (a.kind = "audio/ogg") && ((splitExtension a.fileName.toList).bind (·.2)).any fun ext =>
    decide (ext.map Char.toLower = ['o', 'g', 'g'])

def canonicalFileName (originalFileName : String) : String :=
  match (splitExtension originalFileName.toList).map (·.1) with
  | some stem => String.ofList (stem ++ ".ogg".toList)
  | none => "audio.ogg"

/-- A stored object a transcode produced. -/
structure TranscodedObject where
  externalReference : String
  size : Int
  deriving DecidableEq, Repr

def transcodeAttachment (a : Attachment) (object : TranscodedObject) : Attachment :=
  { a with
    fileName := canonicalFileName a.fileName
    kind := "audio/ogg"
    externalReference := object.externalReference
    size := object.size
    width := none
    height := none }

inductive AudioPublishOutcome where
  | done (swapAttachment : Option (Int × Attachment))
  | failed
  deriving DecidableEq, Repr

def AudioPublishOutcome.swap : AudioPublishOutcome → Option (Int × Attachment)
  | .done swapAttachment => swapAttachment
  | .failed => none

/-- `transcoded` is what the media store and ffmpeg made of the attachment, if they did. -/
def audioOutcome (currentAttachment : Option (Int × Attachment))
    (transcoded : Option TranscodedObject) : AudioPublishOutcome :=
  match currentAttachment with
  | none => .failed
  | some (id, a) =>
      if isCanonicalAttachment a then .done none
      else
        match transcoded with
        | some object => .done (some (id, transcodeAttachment a object))
        | none => .failed

/-- A job over one message: between its load and its publication, between its publication and its
side effects. -/
inductive AudioJob where
  | loaded (messageId : Int) (message : Message) (attachment : Option (Int × Attachment))
      (outcome : AudioPublishOutcome)
  | published (messageId : Int) (message updated : Message)
      (attachment : Option (Int × Attachment)) (outcome : AudioPublishOutcome)
  | finished

namespace Database

/-- The first attachment by position, then id. -/
def loadPrimaryAttachment (db : Database) (messageId : Int) : Option (Int × Attachment) :=
  let ids := db.attachments.select fun _ a =>
    decide (a.messageId = some messageId) && a.deletedAt.isNone
  let first := (ids.image fun id =>
    toLex (((db.attachments.row id).elim 0 (·.order)), id)).min
  match (first : Option (Int ×ₗ Int)) with
  | none => none
  | some key => (db.attachments.row (ofLex key).2).map fun a => ((ofLex key).2, a)

/-- The load, and the transcode of what was loaded. -/
def loadAudio (db : Database) (messageId : Int) (transcoded : Option TranscodedObject) :
    Except AppError AudioJob :=
  match db.messages.row messageId with
  | none => .error (.notFound "Message not found")
  | some message =>
      if message.deletedAt.isSome ∨ message.messageType ≠ .audio then .ok .finished
      else if message.transcodeStatus = .done ∨ message.transcodeStatus = .failed then .ok .finished
      else
        let attachment := db.loadPrimaryAttachment messageId
        .ok (.loaded messageId message attachment (audioOutcome attachment transcoded))

def swapAttachment (db : Database) (outcome : AudioPublishOutcome) : Database :=
  match outcome.swap with
  | none => db
  | some (id, new) =>
      { db with
        attachments := db.attachments.updateWhere (fun a _ => decide (a = id)) fun _ row =>
          { row with
            fileName := new.fileName
            kind := new.kind
            externalReference := new.externalReference
            size := new.size
            width := new.width
            height := new.height } }

def setPublished (db : Database) (messageId : Int) (outcome : AudioPublishOutcome) : Database :=
  { db with
    messages := db.messages.updateWhere (fun id _ => decide (id = messageId)) fun _ m =>
      { m with
        isPublished := true
        transcodeStatus := match outcome with
          | .done _ => .done
          | .failed => .failed } }

/-- The publish transaction; whether the row was published or deleted was read at the load. -/
def publishAudio (db : Database) (messageId : Int) (message : Message)
    (outcome : AudioPublishOutcome) : Except AppError (Database × Message) :=
  let db := (db.swapAttachment outcome).setPublished messageId outcome
  match db.messages.row messageId with
  | none => .error .dbQuery
  | some updated =>
      if message.isPublished then .ok (db, updated)
      else
        match updated.replyRootId with
        | none => .ok (db.recalculateGroupLastMessage updated.chatId, updated)
        | some replyRootId =>
            .ok ((db.incrementThreadMeta updated.chatId replyRootId updated.createdAt).setHasThread
              replyRootId true, updated)

def buildThreadUpdatePayload (db : Database) (chatId threadRootId : Int) :
    Option ThreadUpdatePayload :=
  ((db.messages.row threadRootId).filter fun m =>
    decide (m.chatId = chatId) && m.isTopLevel && m.isPublished).map fun root =>
      let row := db.threadMeta.row (chatId, threadRootId)
      { threadRootId := threadRootId
        chatId := chatId
        lastReplyAt := (row.bind (·.lastReplyAt)).getD root.createdAt
        replyCount := row.elim 0 (·.replyCount) }

def threadSubscriberUids (db : Database) (chatId threadRootId : Int) : List Int :=
  ascending ((db.threadUserStates.select fun key state =>
    decide (key.1 = chatId) && decide (key.2.1 = threadRootId) && state.subscribed).image
      fun key => key.2.2)

/-- The root of the thread with its new count, and the thread's subscribers. -/
def threadOutputs (db : Database) (chatId threadRootId : Int) (memberUids : List Int) :
    List Output :=
  (((db.messages.row threadRootId).filter fun root => root.isLive).toList.map fun root =>
      Output.broadcast memberUids (.messageUpdated (db.attachMetadata threadRootId root))) ++
    (if db.threadSubscriberUids chatId threadRootId = [] then []
     else (db.buildThreadUpdatePayload chatId threadRootId).toList.map fun payload =>
      Output.broadcast (db.threadSubscriberUids chatId threadRootId) (.threadUpdate payload))

/-- What a job does after its publish transaction. -/
def audioSideEffects (db : Database) (messageId : Int) (message updated : Message)
    (attachment : Option (Int × Attachment)) (outcome : AudioPublishOutcome) :
    Database × List Output :=
  let replaced := match attachment, outcome.swap with
    | some (_, previous), some _ => [Output.deleteObject previous.externalReference]
    | _, _ => []
  let response := db.attachMetadata messageId updated
  if message.isPublished then
    (db, replaced ++ if outcome.swap.isSome then
      [.broadcast (db.memberUids response.chatId) (.messageUpdated response)] else [])
  else
    let (db, sideEffects) :=
      db.buildMessageSideEffects response message.senderUid message.chatId true true
    (db, replaced ++ sideEffects.fire ++ response.replyRootId.elim [] fun threadRootId =>
      db.threadOutputs message.chatId threadRootId sideEffects.broadcastUids)

end Database

end Chahua.Messages

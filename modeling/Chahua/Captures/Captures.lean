import Chahua.Messages.ExactlyOnce

namespace Chahua.Captures

open Framework Messages

/-- The columns of an attachment that a copy of it shares. -/
structure Media where
  fileName : String
  kind : String
  externalReference : String
  size : Int
  width : Option Int
  height : Option Int
  deriving DecidableEq, Repr

/-- What a message says at one time. -/
structure Version where
  message : Option String
  messageType : MessageType
  sticker : Option Int
  attachments : List Media
  deriving DecidableEq, Repr

def attachmentMedia (a : Attachment) : Media where
  fileName := a.fileName
  kind := a.kind
  externalReference := a.externalReference
  size := a.size
  width := a.width
  height := a.height

/-- The live attachments of a message in their order. -/
def loadAttachments (db : Database) (messageId : Int) : List (Int × Attachment) :=
  (db.loadMessageAttachmentIds messageId).filterMap fun id =>
    (db.attachments.row id).map fun a => (id, a)

def media (attachments : List (Int × Attachment)) : List Media :=
  attachments.map fun a => attachmentMedia a.2

def stickerOf (stickers : Table Int ForwardedStickerSnapshot) (columns : SendColumns) :
    Option Int :=
  (columns.stickerId.bind stickers.row).map (·.id)

def rowVersion (s : MessageStore) (message : Message) (columns : SendColumns)
    (attachments : List Media) : Version where
  message := message.message
  messageType := message.messageType
  sticker := stickerOf s.stickers columns
  attachments := attachments

def version (s : MessageStore) (id : Int) : Option Version :=
  match s.system.db.messages.row id, s.columns.row id with
  | some message, some columns =>
      some (rowVersion s message columns (media (loadAttachments s.system.db id)))
  | _, _ => none

structure SavedAttachmentSnapshot extends AttachmentSnapshot where
  order : Int
  deriving DecidableEq, Repr

structure SavedStickerSnapshot where
  id : Int
  emoji : String
  name : Option String
  mediaStorageKey : String
  mediaContentType : String
  deriving DecidableEq, Repr

/-- A row of `saved_messages`, stored under its reader and its message. -/
structure SavedMessage where
  originalChatId : Int
  originalThreadRootId : Option Int
  originalReplyToMessageId : Option Int
  originalSenderUid : Int
  originalCreatedAt : Int
  savedAt : Int
  snapshotMessage : Option String
  snapshotMessageType : MessageType
  snapshotAttachments : List SavedAttachmentSnapshot
  snapshotSticker : Option SavedStickerSnapshot
  snapshotMentions : List Int
  forwardedBundleId : Option Int
  deriving DecidableEq, Repr

def snapshotMedia (a : AttachmentSnapshot) : Media where
  fileName := a.fileName
  kind := a.kind
  externalReference := a.externalReference
  size := a.size
  width := a.width
  height := a.height

def SavedMessage.version (saved : SavedMessage) : Version where
  message := saved.snapshotMessage
  messageType := saved.snapshotMessageType
  sticker := saved.snapshotSticker.map (·.id)
  attachments := saved.snapshotAttachments.map fun a => snapshotMedia a.toAttachmentSnapshot

/-- The version an item of a bundle holds; placeholders and references to bundles hold none. -/
def itemVersion : ForwardedBundlePayloadItem → Option Version
  | .messageSnapshot snapshot =>
      if snapshot.messageType = .placeholder then none
      else
        some
          { message := snapshot.message
            messageType := snapshot.messageType
            sticker := snapshot.sticker.map (·.id)
            attachments := snapshot.attachments.map snapshotMedia }
  | .forwardedBundleRef _ => none

structure ForwardMessageBody where
  sourceChatId : Int
  clientGeneratedId : String
  threadId : Option Int
  allowPlaceholders : Bool
  deriving DecidableEq, Repr

/-- What a call is going to write once it has read everything. -/
inductive PendingWrite where
  | bundle (uid destinationChatId : Int) (body : ForwardMessagesBody)
      (items : List ForwardedBundlePayloadItem)
  | copy (uid destinationChatId : Int) (body : ForwardMessageBody) (source : SourceMessage)
      (attachments : List (Int × Attachment))
  | placeholder (uid destinationChatId : Int) (body : ForwardMessageBody) (source : SourceMessage)
      (reason : ForwardPlaceholder)
  | saved (uid messageId : Int) (row : SavedMessage)

/-- A call between two of its statements: what its first read returned, then its write. `since`
counts the states that were committed before that read. -/
inductive Capture where
  | selected (uid destinationChatId : Int) (body : ForwardMessagesBody)
      (sources : List SourceMessage) (since : Nat)
  | locked (uid destinationChatId : Int) (body : ForwardMessageBody) (source : SourceMessage)
      (since : Nat)
  | loaded (uid : Int) (source : SourceMessage) (hasAttachments : Bool) (since : Nat)
  | pending (write : PendingWrite) (since : Nat)

/-- A copy that was made of a message; `copyId` is the row of a single forward, and the states
committed from the call's first read up to its end are those from `since` up to `ended`. -/
structure CapturedItem where
  source : Int
  version : Version
  copyId : Option Int
  since : Nat
  ended : Nat
  deriving DecidableEq, Repr

/-- The committed tables, the calls under way, every state committed so far, and the copies. -/
structure CaptureStore where
  store : MessageStore
  hasAttachments : Table Int Bool
  saved : Table (Int × Int) SavedMessage
  captures : Table Nat Capture
  committed : List MessageStore
  captured : List CapturedItem

/-- The row a forward has locked. -/
def Capture.lockedSource : Capture → Option Int
  | .locked _ _ _ source _ => some source.id
  | .pending (.copy _ _ _ source _) _ => some source.id
  | .pending (.placeholder _ _ _ source _) _ => some source.id
  | _ => none

def CaptureStore.isLocked (s : CaptureStore) (messageId : Int) : Bool :=
  decide (s.captures.select fun _ capture =>
    decide (capture.lockedSource = some messageId)).Nonempty

/-- The messages whose rows a transaction locks. -/
def lockedRows (s : MessageStore) : StoreEvent → List Int
  | .edit _ _ _ messageId _ => [messageId]
  | .system (.deleteMessage _ _ _ messageId) => [messageId]
  | .system (.deleteSelection _ _ _ _ ids) => ids
  | .system (.publishAudio job) =>
      match s.system.jobs.row job with
      | some (.loaded messageId _ _ _) => [messageId]
      | _ => []
  | _ => []

/-- `has_attachments` as the insert or the edit of a row leaves it. -/
def noteAttachments (flags : Table Int Bool) (before after : MessageStore) :
    StoreEvent → Table Int Bool
  | .send _ id p =>
      if (before.columns.row id).isNone && (after.columns.row id).isSome then
        flags.upsert id (decide (p.attachmentIds ≠ []))
      else flags
  | .edit _ _ _ messageId body => flags.upsert messageId (decide (body.attachmentIds ≠ []))
  | _ => flags

/-- The ordinary send makes no forwards; forwards of bundles are calls here. -/
def isOrdinary : StoreEvent → Bool
  | .send _ _ p => p.forwardedFromMessageId.isNone
  | .forward .. => false
  | _ => true

/-- A forward of a forward names the origin of the first. -/
def originId (source : SourceMessage) : Int :=
  source.columns.forwardedFromMessageId.getD source.id

/-- A repeated single forward is of the same origin and bundle, to the same place. -/
def validateRetry (existing : Message) (columns : SendColumns) (uid destinationChatId : Int)
    (threadId : Option Int) (originId : Int) (bundleId : Option Int) : Except AppError Unit :=
  if existing.senderUid = uid ∧ existing.chatId = destinationChatId ∧
      existing.replyRootId = threadId ∧ columns.forwardedFromMessageId = some originId ∧
      columns.forwardedBundleId = bundleId then .ok ()
  else .error FORWARD_REQUEST_CONFLICT

namespace CaptureStore

def start (store : MessageStore) (hasAttachments : Table Int Bool) : CaptureStore where
  store := store
  hasAttachments := hasAttachments
  saved := .empty
  captures := .empty
  committed := [store]
  captured := []

def commit (s : CaptureStore) (store : MessageStore) : CaptureStore :=
  { s with store := store, committed := s.committed ++ [store] }

/-- The states before the current one. -/
def now (s : CaptureStore) : Nat := s.committed.length - 1

def source (s : CaptureStore) (messageId : Int) : Option SourceMessage :=
  match s.store.system.db.messages.row messageId, s.store.columns.row messageId with
  | some message, some columns => some { id := messageId, message := message, columns := columns }
  | _, _ => none

/-- Another transaction commits; it waits as long as a row it locks is locked by a forward. -/
def write (s : CaptureStore) (e : StoreEvent) : Option CaptureStore :=
  if isOrdinary e && !(lockedRows s.store e).any s.isLocked then
    (s.store.step e).map fun store =>
      { s.commit store with hasAttachments := noteAttachments s.hasAttachments s.store store e }
  else none

/-- A batch of a member cleanup commits; it waits for locked rows too. -/
def cleanupBatch (s : CaptureStore) (now chatId targetUid : Int) (scope : DeleteScope) :
    Option CaptureStore :=
  match s.store.system.db.bulkDeleteBatch now chatId targetUid scope with
  | .error _ => none
  | .ok (db, impact) =>
      if impact.messageIds.any s.isLocked then none
      else some (s.commit { s.store with system := { s.store.system with db := db } })

/-- The rows of a bundle's sources are read; a repeated forward is answered and captures nothing. -/
def selectSources (s : CaptureStore) (call : Nat) (uid destinationChatId : Int)
    (body : ForwardMessagesBody) : Except AppError CaptureStore :=
  match s.store.system.db.authorizeMessageSend destinationChatId body.threadId uid with
  | .error e => .error e
  | .ok _ =>
      match canonicalForwardMessageIds body.messageIds with
      | .error e => .error e
      | .ok canonicalMessageIds =>
          match s.store.existing body.clientGeneratedId with
          | some existing =>
              (s.store.repeatForward existing uid destinationChatId body canonicalMessageIds).map
                fun _ => s
          | none =>
              if (s.store.system.db.groupMembership.row (body.sourceChatId, uid)).isNone then
                .error (.forbidden "Not a member of this chat")
              else
                let sources := s.store.sourceMessages uid body.sourceChatId canonicalMessageIds
                if sources.length ≠ canonicalMessageIds.length then
                  .error (.badRequest "Invalid message IDs")
                else
                  .ok { s with
                    captures := s.captures.upsert call
                      (.selected uid destinationChatId body sources s.now) }

/-- What `prepare_single_forward` may take as a source. -/
def forwardable (uid sourceChatId : Int) (m : Message) : Bool :=
  decide (m.chatId = sourceChatId) && m.deletedAt.isNone &&
    (m.isPublished || decide (m.senderUid = uid) && decide (m.messageType = .audio) &&
      (decide (m.transcodeStatus = .none) || decide (m.transcodeStatus = .pending)))

/-- The source of a single forward is read and locked; a repetition is answered. -/
def lockSource (s : CaptureStore) (call : Nat) (uid destinationChatId messageId : Int)
    (body : ForwardMessageBody) : Except AppError CaptureStore :=
  match s.store.system.db.authorizeMessageSend destinationChatId body.threadId uid with
  | .error e => .error e
  | .ok _ =>
      if (s.store.system.db.groupMembership.row (body.sourceChatId, uid)).isNone then
        .error (.forbidden "Not a member of this chat")
      else
        match (s.source messageId).filter fun source =>
            forwardable uid body.sourceChatId source.message with
        | none => .error (.notFound "Message not found")
        | some source =>
            match s.store.existing body.clientGeneratedId with
            | some existing =>
                match s.store.system.db.messages.row existing, s.store.columns.row existing with
                | some message, some columns =>
                    (validateRetry message columns uid destinationChatId body.threadId
                      (originId source) source.columns.forwardedBundleId).map fun _ => s
                | _, _ => .error .dbQuery
            | none =>
                match sourcePlaceholder source.message body.allowPlaceholders with
                | .error e => .error e
                | .ok (some reason) =>
                    .ok { s with
                      captures := s.captures.upsert call
                        (.pending (.placeholder uid destinationChatId body source reason) s.now) }
                | .ok none =>
                    .ok { s with
                      captures := s.captures.upsert call
                        (.locked uid destinationChatId body source s.now) }

def ensureMessageCanBeSaved (message : Message) : Except AppError Unit :=
  if message.deletedAt.isSome then .error (.badRequest "Cannot save deleted message")
  else if !message.isPublished then .error (.badRequest "Cannot save unpublished message")
  else if message.messageType = .system then .error (.badRequest "Cannot save system message")
  else .ok ()

/-- The row of a message that is to be saved is read. -/
def loadSource (s : CaptureStore) (call : Nat) (uid messageId : Int) :
    Except AppError CaptureStore :=
  match s.source messageId, s.hasAttachments.row messageId with
  | some source, some hasAttachments =>
      match ensureMessageCanBeSaved source.message with
      | .error e => .error e
      | .ok () =>
          if (s.store.system.db.groupMembership.row (source.message.chatId, uid)).isNone then
            .error (.forbidden "Not a member of this group")
          else if (s.saved.row (uid, messageId)).isSome then .ok s
          else
            .ok { s with
              captures := s.captures.upsert call (.loaded uid source hasAttachments s.now) }
  | _, _ => .error (.notFound "Message not found")

def savedAttachment (entry : Int × Attachment) : SavedAttachmentSnapshot where
  id := entry.1
  externalReference := entry.2.externalReference
  kind := entry.2.kind
  size := entry.2.size
  fileName := entry.2.fileName
  width := entry.2.width
  height := entry.2.height
  order := entry.2.order

/-- The row to save; without attachments in the row that was read none are looked for. -/
def buildNewSavedMessage (s : MessageStore) (savedAt : Int) (source : SourceMessage)
    (hasAttachments : Bool) : Except AppError SavedMessage :=
  if source.message.messageType = .forwarded ∧ source.columns.forwardedBundleId.isNone then
    .error (.notFound "Forwarded messages not found")
  else
    .ok
      { originalChatId := source.message.chatId
        originalThreadRootId := source.message.replyRootId
        originalReplyToMessageId := source.message.replyToId
        originalSenderUid := source.message.senderUid
        originalCreatedAt := source.message.createdAt
        savedAt := savedAt
        snapshotMessage := source.message.message
        snapshotMessageType := source.message.messageType
        snapshotAttachments :=
          if hasAttachments then (loadAttachments s.system.db source.id).map savedAttachment else []
        snapshotSticker := (source.columns.stickerId.bind s.stickers.row).map fun sticker =>
          { id := sticker.id
            emoji := sticker.emoji
            name := sticker.name
            mediaStorageKey := sticker.mediaStorageKey
            mediaContentType := sticker.contentType }
        snapshotMentions := source.message.message.elim [] extractMentionUids
        forwardedBundleId :=
          if source.message.messageType = .forwarded then source.columns.forwardedBundleId
          else none }

/-- The second read of a call: the attachments as they are committed now. -/
def capture (s : CaptureStore) (call : Nat) (savedAt : Int) : Option CaptureStore :=
  let next (write : PendingWrite) (since : Nat) : Option CaptureStore :=
    some { s with captures := s.captures.upsert call (.pending write since) }
  match s.captures.row call with
  | some (.selected uid destinationChatId body sources since) =>
      match captureForwardedBundleItems s.store.system.db s.store.forwardedBundles
          s.store.stickers sources body.allowPlaceholders with
      | .error _ => none
      | .ok items => next (.bundle uid destinationChatId body items) since
  | some (.locked uid destinationChatId body source since) =>
      next (.copy uid destinationChatId body source
        (loadAttachments s.store.system.db source.id)) since
  | some (.loaded uid source hasAttachments since) =>
      match buildNewSavedMessage s.store savedAt source hasAttachments with
      | .error _ => none
      | .ok row => next (.saved uid source.id row) since
  | _ => none

/-- The copies of attachments before the send claims them. -/
def cloneAttachments (attachments : Table Int Attachment) (uid : Int)
    (clones : List (Int × Int × Attachment)) : Table Int Attachment :=
  clones.foldl (fun table clone => table.upsert clone.1
    { clone.2.2 with messageId := none, uploaderUid := some uid, deletedAt := none }) attachments

def copyRequest (uid destinationChatId : Int) (body : ForwardMessageBody) (source : SourceMessage)
    (attachmentIds : List Int) : SendRequest where
  systemKind := none
  forwardedFromMessageId := some (originId source)
  chatId := destinationChatId
  senderUid := uid
  message := source.message.message
  messageType := source.message.messageType
  replyToId := none
  replyRootId := body.threadId
  attachmentIds := attachmentIds
  publishImmediately := true
  clientGeneratedId := body.clientGeneratedId
  stickerId := source.columns.stickerId
  forwardedBundleId := source.columns.forwardedBundleId

def placeholderRequest (uid destinationChatId : Int) (body : ForwardMessageBody)
    (source : SourceMessage) (reason : ForwardPlaceholder) : SendRequest where
  systemKind := none
  forwardedFromMessageId := some (originId source)
  chatId := destinationChatId
  senderUid := uid
  message := some reason.asStr
  messageType := .placeholder
  replyToId := none
  replyRootId := body.threadId
  attachmentIds := []
  publishImmediately := true
  clientGeneratedId := body.clientGeneratedId
  stickerId := none
  forwardedBundleId := none

def insertClones (s : MessageStore) (uid : Int) (clones : List (Int × Int × Attachment)) :
    MessageStore :=
  { s with
    system := { s.system with
      db := { s.system.db with
        attachments := cloneAttachments s.system.db.attachments uid clones } } }

/-- The new rows are committed and the call is over. -/
def commitSend (s : CaptureStore) (call : Nat) (store : MessageStore) (now id : Int)
    (p : SendRequest) (items : MessageStore → List CapturedItem) : Option CaptureStore :=
  match store.sendPreparedMessage now id p with
  | .ok (sent, .created _) =>
      some { s.commit sent with
        hasAttachments := s.hasAttachments.upsert id (decide (p.attachmentIds ≠ []))
        captures := s.captures.erase call
        captured := s.captured ++ items sent }
  | _ => none

/-- The write of a call and its commit. -/
def finish (s : CaptureStore) (call : Nat) (now id bundleId : Int) (cloneIds : List Int) :
    Option CaptureStore :=
  match s.captures.row call with
  | some (.pending (.bundle uid destinationChatId body items) since) =>
      if (s.store.forwardedBundles.row bundleId).isSome then none
      else
        let bundle := MessageStore.newBundle now uid items
        s.commitSend call
          { s.store with forwardedBundles := s.store.forwardedBundles.upsert bundleId bundle }
          now id
          (preparedForwardMessage destinationChatId uid body bundleId bundle.previewSnapshot).request
          fun _ => items.filterMap fun item =>
            (itemVersion item).map fun version =>
              ⟨item.originalMessageId, version, none, since, s.committed.length⟩
  | some (.pending (.copy uid destinationChatId body source attachments) since) =>
      if cloneIds.Nodup ∧ cloneIds.length = attachments.length ∧
          ∀ cloneId ∈ cloneIds, s.store.system.db.attachments.row cloneId = none then
        s.commitSend call (insertClones s.store uid (cloneIds.zip attachments)) now id
          (copyRequest uid destinationChatId body source cloneIds)
          fun sent => (version sent id).toList.map fun version =>
            ⟨source.id, version, some id, since, s.committed.length⟩
      else none
  | some (.pending (.placeholder uid destinationChatId body source reason) _) =>
      s.commitSend call s.store now id
        (placeholderRequest uid destinationChatId body source reason) fun _ => []
  | some (.pending (.saved uid messageId row) since) =>
      if (s.saved.row (uid, messageId)).isSome then
        some { s with captures := s.captures.erase call }
      else
        some { s with
          saved := s.saved.upsert (uid, messageId) row
          captures := s.captures.erase call
          captured := s.captured ++ [⟨messageId, row.version, none, since, s.committed.length⟩] }
  | _ => none

end CaptureStore

inductive CaptureEvent where
  | write (e : StoreEvent)
  | cleanupBatch (now chatId targetUid : Int) (scope : DeleteScope)
  | selectSources (call : Nat) (uid destinationChatId : Int) (body : ForwardMessagesBody)
  | lockSource (call : Nat) (uid destinationChatId messageId : Int) (body : ForwardMessageBody)
  | loadSource (call : Nat) (uid messageId : Int)
  | capture (call : Nat) (savedAt : Int)
  | finish (call : Nat) (now id bundleId : Int) (cloneIds : List Int)
  | abort (call : Nat)

namespace CaptureStore

def step (s : CaptureStore) : CaptureEvent → Option CaptureStore
  | .write e => s.write e
  | .cleanupBatch now chatId targetUid scope => s.cleanupBatch now chatId targetUid scope
  | .selectSources call uid destinationChatId body =>
      if (s.captures.row call).isSome then none
      else (s.selectSources call uid destinationChatId body).toOption
  | .lockSource call uid destinationChatId messageId body =>
      if (s.captures.row call).isSome || s.isLocked messageId then none
      else (s.lockSource call uid destinationChatId messageId body).toOption
  | .loadSource call uid messageId =>
      if (s.captures.row call).isSome then none else (s.loadSource call uid messageId).toOption
  | .capture call savedAt => s.capture call savedAt
  | .finish call now id bundleId cloneIds => s.finish call now id bundleId cloneIds
  | .abort call => some { s with captures := s.captures.erase call }

end CaptureStore

end Chahua.Captures

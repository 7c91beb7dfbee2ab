import Chahua.Messages.Requests
import Chahua.Framework.Collect
import Mathlib.Data.List.Sort

namespace Chahua.Messages

open Framework

structure AttachmentSnapshot where
  id : Int
  externalReference : String
  kind : String
  size : Int
  fileName : String
  width : Option Int
  height : Option Int
  deriving DecidableEq, Repr

/-- A sticker joined with its media row. -/
structure ForwardedStickerSnapshot where
  id : Int
  mediaId : Int
  mediaStorageKey : String
  emoji : String
  name : Option String
  description : Option String
  createdAt : Int
  contentType : String
  size : Int
  width : Option Int
  height : Option Int
  deriving DecidableEq, Repr

/-- A forwarded reply only names another member of its immediate bundle. -/
inductive ForwardedReplySnapshot where
  | redacted
  | internal (originalMessageId : Int)
  deriving DecidableEq, Repr

structure ForwardedMessagePreviewSnapshot where
  originalMessageId : Int
  originalChatId : Int
  message : Option String
  messageType : MessageType
  senderUid : Int
  originalCreatedAt : Int
  attachments : List String
  sticker : Option String
  mentionUids : List Int
  deriving DecidableEq, Repr

structure ForwardedMessagesPreviewSnapshot where
  total : Nat
  containsForwardedMessages : Bool
  messages : List ForwardedMessagePreviewSnapshot
  deriving DecidableEq, Repr

structure ForwardedMessageSnapshot where
  originalMessageId : Int
  originalChatId : Int
  message : Option String
  messageType : MessageType
  senderUid : Int
  originalCreatedAt : Int
  sticker : Option ForwardedStickerSnapshot
  reply : Option ForwardedReplySnapshot
  attachments : List AttachmentSnapshot
  mentionUids : List Int
  deriving DecidableEq, Repr

structure ForwardedBundleRefSnapshot where
  originalMessageId : Int
  originalChatId : Int
  forwardedBundleId : Int
  message : Option String
  messageType : MessageType
  senderUid : Int
  originalCreatedAt : Int
  reply : Option ForwardedReplySnapshot
  preview : ForwardedMessagesPreviewSnapshot
  deriving DecidableEq, Repr

inductive ForwardedBundlePayloadItem where
  | messageSnapshot (snapshot : ForwardedMessageSnapshot)
  | forwardedBundleRef (bundleRef : ForwardedBundleRefSnapshot)
  deriving DecidableEq, Repr

namespace ForwardedBundlePayloadItem

def originalMessageId : ForwardedBundlePayloadItem → Int
  | messageSnapshot snapshot => snapshot.originalMessageId
  | forwardedBundleRef bundleRef => bundleRef.originalMessageId

def originalChatId : ForwardedBundlePayloadItem → Int
  | messageSnapshot snapshot => snapshot.originalChatId
  | forwardedBundleRef bundleRef => bundleRef.originalChatId

def reply : ForwardedBundlePayloadItem → Option ForwardedReplySnapshot
  | messageSnapshot snapshot => snapshot.reply
  | forwardedBundleRef bundleRef => bundleRef.reply

def bundleReference : ForwardedBundlePayloadItem → Option Int
  | messageSnapshot _ => none
  | forwardedBundleRef bundleRef => some bundleRef.forwardedBundleId

end ForwardedBundlePayloadItem

/-- A row of `forwarded_bundles`; the payload is its own JSON. -/
structure ForwardedBundle where
  createdByUid : Int
  createdAt : Int
  itemCount : Nat
  payload : List ForwardedBundlePayloadItem
  childBundleIds : List Int
  preview : List ForwardedMessagePreviewSnapshot
  deriving DecidableEq, Repr

/-- A message that is being forwarded, with its key and the columns kept apart. -/
structure SourceMessage where
  id : Int
  message : Message
  columns : SendColumns
  deriving DecidableEq, Repr

def validateForwardableSource (messageType : MessageType) (transcodeStatus : TranscodeStatus) :
    Except AppError Unit :=
  if messageType = .system then .error (.badRequest "System messages cannot be forwarded")
  else if messageType = .invite then .error (.badRequest "Invite messages cannot be forwarded")
  else if messageType = .audio ∧ transcodeStatus ≠ .done ∧ transcodeStatus ≠ .failed then
    .error (.badRequest "Audio messages cannot be forwarded until transcoding finishes")
  else .ok ()

/-- Audio that is not final, if the user agreed; what was captured as a placeholder stays one. -/
def sourcePlaceholder (message : Message) (allowPlaceholders : Bool) :
    Except AppError (Option ForwardPlaceholder) :=
  if message.messageType = .audio ∧ message.transcodeStatus ≠ .done ∧
      message.transcodeStatus ≠ .failed ∧ allowPlaceholders = true then
    .ok (some .pendingAudio)
  else
    match validateForwardableSource message.messageType message.transcodeStatus with
    | .error e => .error e
    | .ok () =>
        if message.messageType = .placeholder then
          match message.message.bind ForwardPlaceholder.fromCode with
          | some reason => .ok (some reason)
          | none => .error (.internal "Invalid stored placeholder reason")
        else .ok none

def buildForwardedReplySnapshot (replyToId : Option Int) (selectedMessageIds : List Int) :
    Option ForwardedReplySnapshot :=
  replyToId.map fun originalMessageId =>
    if originalMessageId ∈ selectedMessageIds then .internal originalMessageId else .redacted

namespace Database

/-- The live attachments of a message as they are stored now. -/
def loadForwardedAttachmentSnapshots (db : Database) (messageId : Int) : List AttachmentSnapshot :=
  (db.loadMessageAttachmentIds messageId).filterMap fun id =>
    (db.attachments.row id).map fun a =>
      { id := id
        externalReference := a.externalReference
        kind := a.kind
        size := a.size
        fileName := a.fileName
        width := a.width
        height := a.height }

end Database

def ForwardedBundle.previewSnapshot (bundle : ForwardedBundle) :
    ForwardedMessagesPreviewSnapshot where
  total := bundle.itemCount
  containsForwardedMessages := !bundle.childBundleIds.isEmpty
  messages := bundle.preview

/-- The previews of the bundles that forwarded messages of the selection reference. -/
def referencedBundlePreview (forwardedBundles : Table Int ForwardedBundle)
    (sources : List SourceMessage) (bundleId : Int) : Option ForwardedMessagesPreviewSnapshot :=
  if sources.any fun source => decide (source.message.messageType = .forwarded) &&
      decide (source.columns.forwardedBundleId = some bundleId) then
    (forwardedBundles.row bundleId).map (·.previewSnapshot)
  else none

/-- A forwarded message of a bundle that holds forwarded messages itself. -/
def nestsForward (forwardedBundles : Table Int ForwardedBundle) (sources : List SourceMessage)
    (source : SourceMessage) : Bool :=
  (source.columns.forwardedBundleId.bind (referencedBundlePreview forwardedBundles sources)).any
    (·.containsForwardedMessages)

def buildPlaceholderSnapshot (source : SourceMessage) (reason : ForwardPlaceholder)
    (selectedMessageIds : List Int) : ForwardedMessageSnapshot where
  originalMessageId := source.id
  originalChatId := source.message.chatId
  message := some reason.asStr
  messageType := .placeholder
  senderUid := source.message.senderUid
  originalCreatedAt := source.message.createdAt
  sticker := none
  reply := buildForwardedReplySnapshot source.message.replyToId selectedMessageIds
  attachments := []
  mentionUids := []

def buildForwardedMessageSnapshot (source : SourceMessage) (attachments : List AttachmentSnapshot)
    (stickers : Table Int ForwardedStickerSnapshot) (selectedMessageIds : List Int) :
    Except AppError ForwardedMessageSnapshot :=
  let snapshot (sticker : Option ForwardedStickerSnapshot) : ForwardedMessageSnapshot :=
    { originalMessageId := source.id
      originalChatId := source.message.chatId
      message := source.message.message
      messageType := source.message.messageType
      senderUid := source.message.senderUid
      originalCreatedAt := source.message.createdAt
      sticker := sticker
      reply := buildForwardedReplySnapshot source.message.replyToId selectedMessageIds
      attachments := attachments
      mentionUids := source.message.message.elim [] extractMentionUids }
  match source.columns.stickerId with
  | none => .ok (snapshot none)
  | some stickerId =>
      match stickers.row stickerId with
      | some sticker => .ok (snapshot (some sticker))
      | none => .error (.internal "Forwarded sticker snapshot missing")

def buildForwardedBundleRefSnapshot (source : SourceMessage)
    (preview : Int → Option ForwardedMessagesPreviewSnapshot) (selectedMessageIds : List Int) :
    Except AppError ForwardedBundleRefSnapshot :=
  match source.columns.forwardedBundleId with
  | none => .error (.badRequest "Forwarded source message has no bundle")
  | some forwardedBundleId =>
      match preview forwardedBundleId with
      | none => .error (.badRequest "Forwarded source bundle not found")
      | some preview =>
          .ok
            { originalMessageId := source.id
              originalChatId := source.message.chatId
              forwardedBundleId := forwardedBundleId
              message := source.message.message
              messageType := source.message.messageType
              senderUid := source.message.senderUid
              originalCreatedAt := source.message.createdAt
              reply := buildForwardedReplySnapshot source.message.replyToId selectedMessageIds
              preview := preview }

/-- One item; `reason` is set if the source is captured as a placeholder. -/
def captureItem (db : Database) (stickers : Table Int ForwardedStickerSnapshot)
    (preview : Int → Option ForwardedMessagesPreviewSnapshot) (selectedMessageIds : List Int)
    (source : SourceMessage) (reason : Option ForwardPlaceholder) :
    Except AppError ForwardedBundlePayloadItem :=
  match reason with
  | some reason =>
      .ok (.messageSnapshot (buildPlaceholderSnapshot source reason selectedMessageIds))
  | none =>
      if source.message.messageType = .forwarded then
        (buildForwardedBundleRefSnapshot source preview selectedMessageIds).map
          .forwardedBundleRef
      else
        (buildForwardedMessageSnapshot source (db.loadForwardedAttachmentSnapshots source.id)
          stickers selectedMessageIds).map .messageSnapshot

/-- Every source, in order, with the placeholder it is captured as. -/
def capturePlaceholders (forwardedBundles : Table Int ForwardedBundle)
    (sources : List SourceMessage) (allowPlaceholders : Bool) :
    Except AppError (List (SourceMessage × Option ForwardPlaceholder)) :=
  match collect (fun source => (sourcePlaceholder source.message allowPlaceholders).map
      fun reason => (source, reason)) sources with
  | .error e => .error e
  | .ok marked =>
      if sources.any fun source => decide (source.message.messageType = .forwarded) &&
          source.columns.forwardedBundleId.any fun id => (forwardedBundles.row id).isNone then
        .error (.badRequest "Forwarded source bundle not found")
      else if (sources.any (nestsForward forwardedBundles sources)) && !allowPlaceholders then
        .error (.badRequest "Forwarded messages cannot include nested forwarded messages")
      else
        .ok (marked.map fun entry =>
          (entry.1,
            if nestsForward forwardedBundles sources entry.1 then some .nestedForward else entry.2))

def captureForwardedBundleItems (db : Database) (forwardedBundles : Table Int ForwardedBundle)
    (stickers : Table Int ForwardedStickerSnapshot) (sources : List SourceMessage)
    (allowPlaceholders : Bool) : Except AppError (List ForwardedBundlePayloadItem) :=
  match capturePlaceholders forwardedBundles sources allowPlaceholders with
  | .error e => .error e
  | .ok marked =>
      collect (fun entry => captureItem db stickers
        (referencedBundlePreview forwardedBundles sources) (sources.map (·.id)) entry.1 entry.2)
        marked

def MAX_FORWARD_MESSAGES : Nat := 100

def hasEqualNeighbours : List Int → Bool
  | a :: b :: ids => decide (a = b) || hasEqualNeighbours (b :: ids)
  | _ => false

def canonicalForwardMessageIds (messageIds : List Int) : Except AppError (List Int) :=
  if messageIds.length < 2 then
    .error (.badRequest "Select at least two messages to forward")
  else if MAX_FORWARD_MESSAGES < messageIds.length then
    .error (.badRequest "Too many messages to forward")
  else
    let canonicalIds := messageIds.insertionSort (· ≤ ·)
    if hasEqualNeighbours canonicalIds then
      .error (.badRequest "Message IDs cannot contain duplicates")
    else .ok canonicalIds

def forwardedPayloadMatchesSelection (items : List ForwardedBundlePayloadItem)
    (sourceChatId : Int) (canonicalMessageIds : List Int) : Bool :=
  decide (items.length = canonicalMessageIds.length) &&
    (items.zip canonicalMessageIds).all fun pair =>
      decide (pair.1.originalChatId = sourceChatId) && decide (pair.1.originalMessageId = pair.2)

/-- `Vec::dedup`: of equal neighbours one is kept. -/
def dropRepeats : List Int → List Int
  | a :: b :: ids => if a = b then dropRepeats (b :: ids) else a :: dropRepeats (b :: ids)
  | ids => ids

def directChildBundleIds (items : List ForwardedBundlePayloadItem) : List Int :=
  dropRepeats ((items.filterMap (·.bundleReference)).insertionSort (· ≤ ·))

def FORWARDED_PREVIEW_LIMIT : Nat := 3

def previewSnapshotFromItem : ForwardedBundlePayloadItem → ForwardedMessagePreviewSnapshot
  | .messageSnapshot snapshot =>
      { originalMessageId := snapshot.originalMessageId
        originalChatId := snapshot.originalChatId
        message := snapshot.message
        messageType := snapshot.messageType
        senderUid := snapshot.senderUid
        originalCreatedAt := snapshot.originalCreatedAt
        attachments := snapshot.attachments.map (·.kind)
        sticker := snapshot.sticker.map (·.emoji)
        mentionUids := snapshot.mentionUids }
  | .forwardedBundleRef bundleRef =>
      { originalMessageId := bundleRef.originalMessageId
        originalChatId := bundleRef.originalChatId
        message := bundleRef.message
        messageType := bundleRef.messageType
        senderUid := bundleRef.senderUid
        originalCreatedAt := bundleRef.originalCreatedAt
        attachments := []
        sticker := none
        mentionUids := [] }

def buildForwardedPreviewItems (items : List ForwardedBundlePayloadItem) :
    List ForwardedMessagePreviewSnapshot :=
  (items.take FORWARDED_PREVIEW_LIMIT).map previewSnapshotFromItem

end Chahua.Messages

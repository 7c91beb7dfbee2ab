import Chahua.Messages.ForwardedBundles

namespace Chahua.Messages

open Framework

/-- The message tables with the columns and tables that sends by clients and forwards use. -/
structure MessageStore where
  system : System
  columns : Table Int SendColumns
  forwardedBundles : Table Int ForwardedBundle
  stickers : Table Int ForwardedStickerSnapshot

structure ForwardMessagesBody where
  sourceChatId : Int
  messageIds : List Int
  clientGeneratedId : String
  threadId : Option Int
  allowPlaceholders : Bool
  deriving DecidableEq, Repr

/-- What `prepare_forward_message` hands to the send. -/
structure PreparedForward where
  request : SendRequest
  preview : ForwardedMessagesPreviewSnapshot
  deriving DecidableEq, Repr

def forwardedWrapperText (messageCount : Nat) : String := s!"Forwarded {messageCount} messages"

def preparedForwardMessage (chatId senderUid : Int) (body : ForwardMessagesBody) (bundleId : Int)
    (preview : ForwardedMessagesPreviewSnapshot) : PreparedForward where
  request :=
    { systemKind := none
      forwardedFromMessageId := none
      chatId := chatId
      senderUid := senderUid
      message := some (forwardedWrapperText preview.total)
      messageType := .forwarded
      replyToId := none
      replyRootId := body.threadId
      attachmentIds := []
      publishImmediately := true
      clientGeneratedId := body.clientGeneratedId
      stickerId := none
      forwardedBundleId := some bundleId }
  preview := preview

def FORWARD_REQUEST_CONFLICT : AppError :=
  .conflict "clientGeneratedId already exists with different payload"

namespace MessageStore

/-- The message that was sent under a client's id. -/
def existing (s : MessageStore) (clientGeneratedId : String) : Option Int :=
  s.columns.oldest fun _ c => decide (c.clientGeneratedId = clientGeneratedId)

/-- What a send is checked for before it inserts its row. -/
def checkRequest (s : MessageStore) (p : SendRequest) : Except AppError Unit :=
  if p.messageType = .placeholder ∧ (p.attachmentIds ≠ [] ∨ p.forwardedBundleId.isSome) then
    .error (.badRequest "Placeholder messages cannot reference media or bundles")
  else
    match p.replyToId.elim (.ok ()) (s.system.db.validateReplyTarget p.chatId p.replyRootId) with
    | .error e => .error e
    | .ok () => validateMessageShape p.messageType p.message p.stickerId

/-- The client's id is taken: nothing is inserted. -/
def repeatSend (s : MessageStore) (existing : Int) (p : SendRequest) :
    Except AppError (MessageStore × SendMessageOutcome) :=
  match s.system.db.messages.row existing, s.columns.row existing with
  | some message, some columns =>
      match validateIdempotentMessagePayload message columns p
          (s.system.db.loadMessageAttachmentIds existing) with
      | .error e => .error e
      | .ok () => .ok (s, .duplicate (s.system.db.attachMetadata existing message))
  | _, _ => .error (.conflict "Duplicate client generated id")

/-- The insert; what the attachments are of is only checked once they are locked. -/
def insertSend (s : MessageStore) (now id : Int) (p : SendRequest) :
    Except AppError (MessageStore × SendMessageOutcome) :=
  match s.system.db.sendPreparedMessage now id p.toPreparedMessageSend with
  | .error e => .error e
  | .ok (db, sent) =>
      match validateMessage p.messageType p.message p.stickerId
          (s.system.db.lockedAttachments p.attachmentIds) with
      | .error e => .error e
      | .ok () =>
          .ok ({ s with
            system := { s.system with db := db }
            columns := s.columns.upsert id p.columns }, .created sent)

def sendPreparedMessage (s : MessageStore) (now id : Int) (p : SendRequest) :
    Except AppError (MessageStore × SendMessageOutcome) :=
  match s.checkRequest p with
  | .error e => .error e
  | .ok () =>
      match s.existing p.clientGeneratedId with
      | some existing => s.repeatSend existing p
      | none => s.insertSend now id p

/-- The messages of a selection that their forwarder may see, in the order of their ids. -/
def sourceMessages (s : MessageStore) (uid sourceChatId : Int) (messageIds : List Int) :
    List SourceMessage :=
  (ascending (s.system.db.messages.select fun id m =>
    decide (m.chatId = sourceChatId) && decide (id ∈ messageIds) && m.deletedAt.isNone &&
      (m.isPublished || decide (m.senderUid = uid) && decide (m.messageType = .audio) &&
        (decide (m.transcodeStatus = .none) || decide (m.transcodeStatus = .pending))))).filterMap
    fun id =>
      match s.system.db.messages.row id, s.columns.row id with
      | some m, some c => some { id := id, message := m, columns := c }
      | _, _ => none

/-- A repeated forward is answered from what was stored for it. -/
def repeatForward (s : MessageStore) (existing uid destinationChatId : Int)
    (body : ForwardMessagesBody) (canonicalMessageIds : List Int) :
    Except AppError PreparedForward :=
  match s.system.db.messages.row existing, s.columns.row existing with
  | some message, some columns =>
      if message.senderUid ≠ uid ∨ message.chatId ≠ destinationChatId ∨
          message.replyRootId ≠ body.threadId ∨ message.messageType ≠ .forwarded then
        .error FORWARD_REQUEST_CONFLICT
      else
        match columns.forwardedBundleId with
        | none => .error FORWARD_REQUEST_CONFLICT
        | some bundleId =>
            match s.forwardedBundles.row bundleId with
            | none => .error FORWARD_REQUEST_CONFLICT
            | some bundle =>
                if forwardedPayloadMatchesSelection bundle.payload body.sourceChatId
                    canonicalMessageIds then
                  .ok (preparedForwardMessage destinationChatId uid body bundleId
                    { total := bundle.itemCount
                      containsForwardedMessages := !bundle.childBundleIds.isEmpty
                      messages := buildForwardedPreviewItems bundle.payload })
                else .error FORWARD_REQUEST_CONFLICT
  | _, _ => .error FORWARD_REQUEST_CONFLICT

/-- The bundle a capture is stored as. -/
def newBundle (now uid : Int) (items : List ForwardedBundlePayloadItem) : ForwardedBundle where
  createdByUid := uid
  createdAt := now
  itemCount := items.length
  payload := items
  childBundleIds := directChildBundleIds items
  preview := buildForwardedPreviewItems items

def captureForward (s : MessageStore) (now bundleId uid destinationChatId : Int)
    (body : ForwardMessagesBody) (canonicalMessageIds : List Int) :
    Except AppError (MessageStore × PreparedForward) :=
  if (s.system.db.groupMembership.row (body.sourceChatId, uid)).isNone then
    .error (.forbidden "Not a member of this chat")
  else
    let sources := s.sourceMessages uid body.sourceChatId canonicalMessageIds
    if sources.length ≠ canonicalMessageIds.length then
      .error (.badRequest "Invalid message IDs")
    else
      match captureForwardedBundleItems s.system.db s.forwardedBundles s.stickers sources
          body.allowPlaceholders with
      | .error e => .error e
      | .ok items =>
          if (s.forwardedBundles.row bundleId).isSome then .error .dbQuery
          else
            let bundle := newBundle now uid items
            .ok ({ s with forwardedBundles := s.forwardedBundles.upsert bundleId bundle },
              preparedForwardMessage destinationChatId uid body bundleId
                { total := items.length
                  containsForwardedMessages := !bundle.childBundleIds.isEmpty
                  messages := bundle.preview })

def prepareForwardMessage (s : MessageStore) (now bundleId uid destinationChatId : Int)
    (body : ForwardMessagesBody) : Except AppError (MessageStore × PreparedForward) :=
  match canonicalForwardMessageIds body.messageIds with
  | .error e => .error e
  | .ok canonicalMessageIds =>
      match s.existing body.clientGeneratedId with
      | some existing =>
          (s.repeatForward existing uid destinationChatId body canonicalMessageIds).map
            fun prepared => (s, prepared)
      | none => s.captureForward now bundleId uid destinationChatId body canonicalMessageIds

/-- The transaction of `forward_messages`: nothing follows a duplicate. -/
def forwardMessages (s : MessageStore) (now id bundleId uid destinationChatId : Int)
    (hidden : Bool) (body : ForwardMessagesBody) : Except AppError MessageStore :=
  match s.system.db.authorizeMessageSend destinationChatId body.threadId uid with
  | .error e => .error e
  | .ok root =>
      match s.prepareForwardMessage now bundleId uid destinationChatId body with
      | .error e => .error e
      | .ok (s, prepared) =>
          match s.sendPreparedMessage now id prepared.request with
          | .error e => .error e
          | .ok (s, .duplicate _) => .ok s
          | .ok (s, .created sent) =>
              let db := match root, body.threadId with
                | some root, some threadId => (s.system.db.recordThreadSend now sent.response
                    sent.memberUids threadId root true false).1
                | _, _ => s.system.db.markChatAsRead hidden destinationChatId uid id
              .ok { s with system := { s.system with db := db } }

def patchMessage (s : MessageStore) (now uid chatId messageId : Int) (body : UpdateMessageBody) :
    Except AppError MessageStore :=
  (s.system.db.patchMessage s.columns now uid chatId messageId body).map fun db =>
    { s with system := { s.system with db := db } }

end MessageStore

/-- The events of the message tables that insert no message. -/
def Event.keepsMessages : Event → Bool
  | .deleteMessage .. | .deleteSelection .. | .loadAudio .. | .publishAudio .. |
    .finishAudio .. => true
  | _ => false

/-- What happens to a store; a membership can end between two operations. -/
inductive StoreEvent where
  | send (now id : Int) (p : SendRequest)
  | forward (now id bundleId uid destinationChatId : Int) (hidden : Bool)
      (body : ForwardMessagesBody)
  | edit (now uid chatId messageId : Int) (body : UpdateMessageBody)
  | system (e : Event)
  | leave (chatId uid : Int)

namespace MessageStore

def step (s : MessageStore) : StoreEvent → Option MessageStore
  | .send now id p => (s.sendPreparedMessage now id p).toOption.map (·.1)
  | .forward now id bundleId uid destinationChatId hidden body =>
      (s.forwardMessages now id bundleId uid destinationChatId hidden body).toOption
  | .edit now uid chatId messageId body =>
      (s.patchMessage now uid chatId messageId body).toOption
  | .system e =>
      if e.keepsMessages then (s.system.step e).map fun system => { s with system := system }
      else none
  | .leave chatId uid =>
      some { s with
        system := { s.system with
          db := { s.system.db with
            groupMembership := s.system.db.groupMembership.erase (chatId, uid) } } }

end MessageStore

end Chahua.Messages

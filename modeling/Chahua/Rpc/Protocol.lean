import Mathlib.Logic.Basic

namespace Chahua.Rpc

/-- Numeric ids denote values: `from_value` turns an integral float into the integer. -/
inductive RpcId where
  | string (value : String)
  | number (value : Rat)
  | null
  deriving DecidableEq, Repr

inductive RpcErrorCode where
  | parseError | invalidRequest | methodNotFound | invalidParams | dispatcherInternal
  | badRequest | unauthorized | forbidden | notFound | conflict | gone | payloadTooLarge
  | speakingRestricted | unavailable | internal | overloaded
  deriving DecidableEq, Repr

namespace RpcErrorCode

def message : RpcErrorCode → String
  | .parseError => "Parse error"
  | .invalidRequest => "Invalid Request"
  | .methodNotFound => "Method not found"
  | .invalidParams => "Invalid params"
  | .dispatcherInternal => "Internal error"
  | .badRequest => "Bad request"
  | .unauthorized => "Unauthorized"
  | .forbidden => "Forbidden"
  | .notFound => "Not found"
  | .conflict => "Conflict"
  | .gone => "Gone"
  | .payloadTooLarge => "Payload too large"
  | .speakingRestricted => "Speaking is restricted"
  | .unavailable => "Service unavailable"
  | .internal => "Internal error"
  | .overloaded => "Too many requests"

end RpcErrorCode

inductive RpcLifecycleFailure where
  | revoked | authLookupUnavailable
  deriving DecidableEq, Repr

structure RpcError where
  code : RpcErrorCode
  message : String
  lifecycle : Option RpcLifecycleFailure
  deriving DecidableEq, Repr

namespace RpcError

def new (code : RpcErrorCode) : RpcError := ⟨code, code.message, none⟩

def withMessage (code : RpcErrorCode) (message : String) : RpcError := ⟨code, message, none⟩

def ofLifecycle : RpcLifecycleFailure → RpcError
  | .revoked => ⟨.unauthorized, "Session revoked", some .revoked⟩
  | .authLookupUnavailable =>
      ⟨.unavailable, "Auth lookup unavailable", some .authLookupUnavailable⟩

end RpcError

inductive RpcOutcome where
  | success
  | failure (error : RpcError)
  deriving DecidableEq, Repr

structure RpcResponse where
  id : RpcId
  outcome : RpcOutcome
  deriving DecidableEq, Repr

namespace RpcResponse

def error (id : RpcId) (e : RpcError) : RpcResponse := ⟨id, .failure e⟩

def invalidRequest : RpcResponse := error .null (.new .invalidRequest)

def success (r : RpcResponse) : Bool :=
  match r.outcome with
  | .success => true
  | .failure _ => false

def lifecycleFailure (r : RpcResponse) : Option RpcLifecycleFailure :=
  match r.outcome with
  | .success => none
  | .failure e => e.lifecycle

end RpcResponse

/-- `id = none` is a notification; `some .null` is a request that needs a reply. -/
structure RpcCall where
  id : Option RpcId
  method : String
  deriving DecidableEq, Repr

inductive RpcItem where
  | call (call : RpcCall)
  | invalid (response : RpcResponse)
  | response
  deriving DecidableEq, Repr

inductive RpcMessage where
  | single (item : RpcItem)
  | batch (items : List RpcItem)
  deriving DecidableEq, Repr

/-- The id of the response an item is owed, if any. -/
def RpcItem.owed : RpcItem → Option RpcId
  | .call c => c.id
  | .invalid r => some r.id
  | .response => none

def RpcItem.call? : RpcItem → Option RpcCall
  | .call c => some c
  | _ => none

inductive ExecutionClass where
  | read | mutation | session | control
  deriving DecidableEq, Repr

/-- The registry, in the source's order. -/
def methodMetadata : List (String × ExecutionClass) :=
  [("session.open", .session), ("auth.createDevSession", .session), ("auth.refresh", .session),
    ("session.ping", .control), ("session.setAppState", .control), ("presence.watch", .control),
    ("conversations.watchUnread", .control), ("conversations.watchStates", .control),
    ("messages.list", .read), ("messages.send", .mutation), ("messages.search", .read),
    ("messages.get", .read), ("messages.edit", .mutation), ("messages.delete", .mutation),
    ("messages.deleteMany", .mutation), ("messages.forward", .mutation),
    ("messages.forwardOne", .mutation), ("messages.listForwardedMessages", .read),
    ("messages.listForwardedBundleMessages", .read), ("messages.sendInThread", .mutation),
    ("reactions.list", .read), ("reactions.add", .mutation), ("reactions.remove", .mutation),
    ("pins.list", .read), ("pins.create", .mutation), ("pins.delete", .mutation),
    ("pins.listForThread", .read), ("pins.createForThread", .mutation),
    ("pins.deleteForThread", .mutation), ("savedMessages.listForChat", .read),
    ("savedMessages.list", .read), ("savedMessages.save", .mutation),
    ("savedMessages.deleteByMessage", .mutation), ("savedMessages.delete", .mutation),
    ("savedMessages.listForwardedMessages", .read),
    ("savedMessages.listForwardedBundleMessages", .read), ("chats.list", .read),
    ("chats.getTotalUnreadCount", .read), ("chats.archive", .mutation),
    ("chats.unarchive", .mutation), ("chats.markAsRead", .mutation),
    ("chats.markAsUnread", .mutation), ("chats.getUnreadCount", .read),
    ("chats.getReadReceipt", .read), ("chats.listMentions", .read),
    ("chats.listUnreadReactions", .read), ("chats.acknowledgeReactions", .mutation),
    ("threads.list", .read), ("threads.getUnreadCount", .read), ("threads.listForChat", .read),
    ("threads.listParticipants", .read), ("threads.markAsRead", .mutation),
    ("threads.getReadState", .read), ("threads.getSubscriptionStatus", .read),
    ("threads.subscribe", .mutation), ("threads.unsubscribe", .mutation),
    ("threads.archive", .mutation), ("threads.unarchive", .mutation),
    ("attachments.listForChat", .read), ("attachments.createUploadUrl", .mutation),
    ("attachments.getConfig", .read), ("groups.list", .read), ("groups.create", .mutation),
    ("groups.get", .read), ("groups.update", .mutation),
    ("groups.createAvatarUploadUrl", .mutation), ("groups.mute", .mutation),
    ("groups.unmute", .mutation), ("groups.updateNotificationSetting", .mutation),
    ("groups.updateSpeakingMode", .mutation), ("groups.listMembers", .read),
    ("groups.addMember", .mutation), ("groups.removeMember", .mutation),
    ("groups.updateMember", .mutation), ("groups.updateMemberSpeakingMode", .mutation),
    ("invites.list", .read), ("invites.create", .mutation), ("invites.send", .mutation),
    ("invites.get", .read), ("invites.getByCode", .read), ("invites.update", .mutation),
    ("invites.delete", .mutation), ("invites.redeem", .mutation), ("friends.list", .read),
    ("friends.getRelationship", .read), ("friends.remove", .mutation),
    ("friends.createRequest", .mutation), ("friends.listRequests", .read),
    ("friends.getPendingRequestCount", .read), ("friends.acceptRequest", .mutation),
    ("friends.rejectRequest", .mutation), ("friends.archiveRequest", .mutation),
    ("friends.getSettings", .read), ("friends.updateSettings", .mutation),
    ("friends.getAddInfo", .read), ("friends.getPresenceSettings", .read),
    ("friends.updatePresenceSettings", .mutation), ("friends.getReadReceiptSettings", .read),
    ("friends.updateReadReceiptSettings", .mutation), ("privacy.getPresenceSettings", .read),
    ("privacy.updatePresenceSettings", .mutation), ("privacy.getReadReceiptSettings", .read),
    ("privacy.updateReadReceiptSettings", .mutation), ("privacy.listExceptions", .read),
    ("privacy.clearExceptions", .mutation), ("blocks.list", .read), ("blocks.create", .mutation),
    ("blocks.delete", .mutation), ("users.getMe", .read),
    ("users.updateStickerPackOrder", .mutation), ("users.updateChatSettings", .mutation),
    ("users.search", .read), ("users.getNotificationSettings", .read),
    ("users.updateNotificationSettings", .mutation), ("users.listNotificationExceptions", .read),
    ("users.clearNotificationExceptions", .mutation), ("push.getVapidPublicKey", .read),
    ("push.getSubscriptionStatus", .read), ("push.subscribe", .mutation),
    ("push.unsubscribe", .mutation), ("stickers.listPacks", .read),
    ("stickers.createFromMessage", .mutation), ("stickers.createPack", .mutation),
    ("stickers.getPack", .read), ("stickers.updatePack", .mutation),
    ("stickers.deletePack", .mutation), ("stickers.listSubscribedPacks", .read),
    ("stickers.listOwnedPacks", .read), ("stickers.subscribeToPack", .mutation),
    ("stickers.unsubscribeFromPack", .mutation), ("stickers.addToPack", .mutation),
    ("stickers.removeFromPack", .mutation), ("stickers.get", .read),
    ("stickers.favorite", .mutation), ("stickers.unfavorite", .mutation),
    ("stickers.listFavorites", .read), ("serviceTokens.create", .mutation),
    ("serviceTokens.list", .read), ("serviceTokens.delete", .mutation),
    ("serviceTokens.rotate", .mutation), ("sessions.listClients", .read)]

def methodClass (method : String) : Option ExecutionClass :=
  (methodMetadata.find? fun entry => entry.1 = method).map Prod.snd

/-- `matches!(method, "session.open" | "auth.createDevSession")`. -/
def isHandshake (method : String) : Bool :=
  decide (method = "session.open") || decide (method = "auth.createDevSession")

end Chahua.Rpc

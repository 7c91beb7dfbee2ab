import Chahua.Framework.Table

namespace Chahua.Receipts

open Framework

inductive GroupKind where
  | group | dm
  deriving DecidableEq, Repr

inductive ReadReceiptVisibility where
  | friends | nobody
  deriving DecidableEq, Repr

structure Group where
  kind : GroupKind
  dmUid1 : Option Int
  dmUid2 : Option Int
  deriving DecidableEq, Repr

/-- `none` inherits the owner's global setting. -/
structure Friendship where
  uid1SharesReadReceipts : Option Bool
  uid2SharesReadReceipts : Option Bool
  deriving DecidableEq, Repr

/-- What a membership or a thread state keeps of reading. -/
structure ReadState where
  lastReadMessageId : Option Int
  lastReadReceiptMessageId : Option Int
  deriving DecidableEq, Repr

structure Message where
  chatId : Int
  replyRootId : Option Int
  deriving DecidableEq, Repr

/-- The tables that read receipts touch, each under its primary key. -/
structure Database where
  groups : Table Int Group
  friendships : Table (Int × Int) Friendship
  blocks : Table (Int × Int) Unit
  userExtra : Table Int ReadReceiptVisibility
  groupMembership : Table (Int × Int) ReadState
  threadUserStates : Table (Int × Int × Int) ReadState
  messages : Table Int Message

inductive AppError where
  | notFound (text : String)
  deriving DecidableEq, Repr

structure DmParticipants where
  first : Int
  second : Int

def DmParticipants.peerFor (participants : DmParticipants) (uid : Int) : Option Int :=
  if uid = participants.first then some participants.second
  else if uid = participants.second then some participants.first
  else none

def canonicalPair (a b : Int) : Int × Int := if a < b then (a, b) else (b, a)

def sharesReadReceipts (visibility : ReadReceiptVisibility) (overrideValue : Option Bool) : Bool :=
  overrideValue.getD (match visibility with
    | .friends => true
    | .nobody => false)

def readReceiptIsVisible (isFriend isBlocked : Bool) (viewerVisibility : ReadReceiptVisibility)
    (viewerOverride : Option Bool) (peerVisibility : ReadReceiptVisibility)
    (peerOverride : Option Bool) : Bool :=
  isFriend && !isBlocked && sharesReadReceipts viewerVisibility viewerOverride &&
    sharesReadReceipts peerVisibility peerOverride

namespace Database

variable (db : Database)

def dmParticipants (chatId : Int) : Option DmParticipants :=
  ((db.groups.row chatId).filter fun g => decide (g.kind = .dm)).bind fun g =>
    g.dmUid1.bind fun first => g.dmUid2.map fun second => ⟨first, second⟩

def dmPeerForMember (chatId uid : Int) : Option Int :=
  (db.dmParticipants chatId).bind fun participants => participants.peerFor uid

/-- The receipt the peer has stored in the chat or in one of its threads. -/
def storedReceipt (chatId : Int) (threadRootId : Option Int) (peerUid : Int) : Option Int :=
  match threadRootId with
  | some threadRootId =>
    (db.threadUserStates.row (chatId, threadRootId, peerUid)).bind (·.lastReadReceiptMessageId)
  | none => (db.groupMembership.row (chatId, peerUid)).bind (·.lastReadReceiptMessageId)

def getReadReceipt (viewerUid chatId : Int) (threadRootId : Option Int) :
    Except AppError (Option Int) :=
  match db.dmPeerForMember chatId viewerUid with
  | none => .error (.notFound "Read receipts are only available for direct messages")
  | some peerUid =>
    let pair := canonicalPair viewerUid peerUid
    match db.friendships.row pair with
    | none => .ok none
    | some friendship =>
      let blocked := (db.blocks.row (viewerUid, peerUid)).isSome ||
        (db.blocks.row (peerUid, viewerUid)).isSome
      let viewerVisibility := (db.userExtra.row viewerUid).getD .friends
      let peerVisibility := (db.userExtra.row peerUid).getD .friends
      let (viewerOverride, peerOverride) :=
        if viewerUid = pair.1 then
          (friendship.uid1SharesReadReceipts, friendship.uid2SharesReadReceipts)
        else (friendship.uid2SharesReadReceipts, friendship.uid1SharesReadReceipts)
      if readReceiptIsVisible true blocked viewerVisibility viewerOverride peerVisibility
          peerOverride then
        .ok (db.storedReceipt chatId threadRootId peerUid)
      else .ok none

/-- The DMs of the list that the viewer takes part in, with the other participant. -/
def dmPeers (viewerUid : Int) (chatIds : List Int) : Table Int Int :=
  db.groups.filterMap fun chatId g =>
    if chatId ∈ chatIds ∧ g.kind = .dm then
      g.dmUid1.bind fun first => g.dmUid2.bind fun second =>
        if first = viewerUid then some second
        else if second = viewerUid then some first
        else none
    else none

def peerUids (peers : Table Int Int) : Finset Int := peers.image (fun _ _ => true) fun _ peer => peer

def friendshipMap (viewerUid : Int) (peers : Finset Int) :
    Table (Int × Int) (Option Bool × Option Bool) :=
  db.friendships.filterMap fun key friendship =>
    if key.1 = viewerUid ∧ key.2 ∈ peers ∨ key.2 = viewerUid ∧ key.1 ∈ peers then
      some (friendship.uid1SharesReadReceipts, friendship.uid2SharesReadReceipts)
    else none

def blockedPairs (viewerUid : Int) (peers : Finset Int) : Finset (Int × Int) :=
  db.blocks.image
    (fun key _ => decide (key.1 = viewerUid ∧ key.2 ∈ peers ∨ key.1 ∈ peers ∧ key.2 = viewerUid))
    fun key _ => canonicalPair key.1 key.2

def visibilityMap (viewerUid : Int) (peers : Finset Int) : Table Int ReadReceiptVisibility :=
  db.userExtra.filterMap fun uid visibility =>
    if uid ∈ peers ∨ uid = viewerUid then some visibility else none

/-- The test that `retain` makes of one peer, on the maps loaded for all of them. -/
def retained (viewerUid : Int) (peers : Finset Int) (peer : Int) : Bool :=
  let pair := canonicalPair viewerUid peer
  let viewerVisibility := ((db.visibilityMap viewerUid peers).row viewerUid).getD .friends
  match (db.friendshipMap viewerUid peers).row pair with
  | none => false
  | some (uid1Override, uid2Override) =>
    let (viewerOverride, peerOverride) :=
      if pair.1 = viewerUid then (uid1Override, uid2Override) else (uid2Override, uid1Override)
    let peerVisibility := ((db.visibilityMap viewerUid peers).row peer).getD .friends
    readReceiptIsVisible true (decide (pair ∈ db.blockedPairs viewerUid peers)) viewerVisibility
      viewerOverride peerVisibility peerOverride

def visibleDmPeers (viewerUid : Int) (chatIds : List Int) : Table Int Int :=
  let peers := db.dmPeers viewerUid chatIds
  peers.filterMap fun _ peer => if db.retained viewerUid (peerUids peers) peer then some peer else none

/-- The entries of the returned map, keyed by chat. -/
def visibleChatReceipts (viewerUid : Int) (chatIds : List Int) : Finset (Int × Int) :=
  let peers := db.visibleDmPeers viewerUid chatIds
  db.groupMembership.image
    (fun key state => decide (key.1 ∈ peers.keys ∧ key.2 ∈ peerUids peers ∧
      peers.row key.1 = some key.2) && state.lastReadReceiptMessageId.isSome)
    fun key state => (key.1, state.lastReadReceiptMessageId.getD 0)

/-- The entries of the returned map, keyed by thread root. -/
def visibleThreadReceipts (viewerUid : Int) (scopes : List (Int × Int)) : Finset (Int × Int) :=
  let peers := db.visibleDmPeers viewerUid (scopes.map Prod.fst)
  db.threadUserStates.image
    (fun key state => decide (key.1 ∈ peers.keys ∧ key.2.1 ∈ scopes.map Prod.snd ∧
      key.2.2 ∈ peerUids peers ∧ peers.row key.1 = some key.2.2) &&
        state.lastReadReceiptMessageId.isSome)
    fun key state => (key.2.1, state.lastReadReceiptMessageId.getD 0)

/-- The receipts only advance: the stored one is null or behind the message. -/
def behind (messageId : Int) (state : ReadState) : Bool :=
  state.lastReadReceiptMessageId.all fun last => decide (last < messageId)

def advanceChatReadReceipt (chatId uid messageId : Int) : Database :=
  { db with
    groupMembership := db.groupMembership.updateWhere
      (fun key state => decide (key = (chatId, uid)) && behind messageId state)
      fun _ state => { state with lastReadReceiptMessageId := some messageId } }

def advanceThreadReadReceipt (chatId threadRootId uid messageId : Int) : Database :=
  { db with
    threadUserStates := db.threadUserStates.updateWhere
      (fun key state => decide (key = (chatId, threadRootId, uid)) && behind messageId state)
      fun _ state => { state with lastReadReceiptMessageId := some messageId } }

/-- What `mark_as_unread` writes, with or without a message id. -/
def markAsUnread (chatId uid : Int) (newReadId : Option Int) : Database :=
  { db with
    groupMembership := db.groupMembership.updateWhere (fun key _ => decide (key = (chatId, uid)))
      fun _ state => { state with lastReadMessageId := newReadId } }

/-- `previous` is the message before a deleted one, as the messages table has it. -/
def shiftChatReadPointersOnDelete (chatId : Int) (deletedMessageIds : List Int)
    (previous : Int → Option Int) : Database :=
  { db with
    groupMembership := db.groupMembership.updateWhere
      (fun key state => decide (key.1 = chatId) &&
        state.lastReadMessageId.any fun last => decide (last ∈ deletedMessageIds))
      fun _ state => { state with lastReadMessageId := state.lastReadMessageId.bind previous } }

def shiftThreadReadPointersOnDelete (threadRootId : Int) (deletedMessageIds : List Int)
    (previous : Int → Option Int) : Database :=
  { db with
    threadUserStates := db.threadUserStates.updateWhere
      (fun key state => decide (key.2.1 = threadRootId) &&
        state.lastReadMessageId.any fun last => decide (last ∈ deletedMessageIds))
      fun _ state => { state with lastReadMessageId := state.lastReadMessageId.bind previous } }

/-- One write to the read states. -/
inductive Write where
  | advanceChat (chatId uid messageId : Int)
  | advanceThread (chatId threadRootId uid messageId : Int)
  | markAsUnread (chatId uid : Int) (newReadId : Option Int)
  | shiftChat (chatId : Int) (deletedMessageIds : List Int) (previous : Int → Option Int)
  | shiftThread (threadRootId : Int) (deletedMessageIds : List Int) (previous : Int → Option Int)

def write : Write → Database
  | .advanceChat chatId uid messageId => db.advanceChatReadReceipt chatId uid messageId
  | .advanceThread chatId threadRootId uid messageId =>
    db.advanceThreadReadReceipt chatId threadRootId uid messageId
  | .markAsUnread chatId uid newReadId => db.markAsUnread chatId uid newReadId
  | .shiftChat chatId deleted previous => db.shiftChatReadPointersOnDelete chatId deleted previous
  | .shiftThread threadRootId deleted previous =>
    db.shiftThreadReadPointersOnDelete threadRootId deleted previous

end Database

end Chahua.Receipts

import Chahua.Framework.Run
import Chahua.Framework.Table
import Chahua.Stickers.PackOrder

namespace Chahua.Stickers

open Framework

inductive StickerPackVisibility where
  | Public
  | Private
  deriving DecidableEq, Repr

structure StickerPack where
  id : Int
  ownerUid : Int
  name : String
  description : Option String
  createdAt : Int
  updatedAt : Int
  visibility : StickerPackVisibility
  deriving DecidableEq, Repr

structure UpdateStickerPack where
  name : Option String
  description : Option String
  updatedAt : Int
  visibility : Option StickerPackVisibility
  deriving DecidableEq, Repr

inductive PackError where
  | dbQuery
  | badRequest (text : String)
  | forbidden (text : String)
  | notFound (text : String)
  deriving DecidableEq, Repr

structure OrderUpdate where
  uid : Int
  order : List StickerPackOrderItem
  deriving DecidableEq, Repr

/-- The rows the sticker pack services read and write: `sticker_packs`, the subscription time of
each `(uid, pack_id)`, and `user_extra.sticker_pack_order`. -/
structure PackTables where
  packs : Table Int StickerPack
  subscriptions : Table (Int × Int) Int
  userExtra : Table Int (List StickerPackOrderItem)

namespace PackTables

variable (db : PackTables)

/-- `sticker_order::lock_user`: the row is created empty when there is none. -/
def lockUser (uid : Int) : List StickerPackOrderItem := (db.userExtra.row uid).getD []

def save (uid : Int) (order : List StickerPackOrderItem) : PackTables :=
  { db with userExtra := db.userExtra.upsert uid order }

def saveAll (orders : List OrderUpdate) : PackTables :=
  orders.foldl (fun t update => t.save update.uid update.order) db

def subscribe (uid packId time : Int) : PackTables :=
  { db with subscriptions := db.subscriptions.upsert (uid, packId) time }

def unsubscribe (uids : List Int) (packId : Int) : PackTables :=
  { db with subscriptions := db.subscriptions.deleteWhere fun key _ =>
      decide (key.2 = packId) && decide (key.1 ∈ uids) }

def lockPack (packId : Int) : Except PackError StickerPack :=
  match db.packs.row packId with
  | some pack => .ok pack
  | none => .error (.notFound "Sticker pack not found")

def subscribers (packId : Int) : Finset Int :=
  db.subscriptions.image (fun key _ => decide (key.2 = packId)) fun key _ => key.1

/-- The users of `revoke_subscriptions`, sorted and without repetitions. -/
def revokedUids (pack : StickerPack) (includeOwner : Bool) : List Int :=
  ascending (if includeOwner then insert pack.ownerUid (db.subscribers pack.id)
    else (db.subscribers pack.id).erase pack.ownerUid)

/-- The filter of `accessible_pack_ids`. -/
def accessible (uid packId : Int) : Bool :=
  (db.packs.row packId).any fun pack => decide (pack.ownerUid = uid) ||
    (decide (pack.visibility = .Public) && (db.subscriptions.row (uid, packId)).isSome)

def accessiblePackIds (uid : Int) (ids : List Int) : Finset Int :=
  ids.toFinset.filter fun id => db.accessible uid id = true

end PackTables

def checkOwner (pack : StickerPack) (uid : Int) : Except PackError Unit :=
  if pack.ownerUid = uid then .ok () else .error (.forbidden "Sticker pack owner required")

def addOrder (order : List StickerPackOrderItem) (packId now : Int) : List StickerPackOrderItem :=
  put order (toString packId) now

def removeOrder (order : List StickerPackOrderItem) (packId : Int) : List StickerPackOrderItem :=
  order.filter fun item => decide (item.stickerPackId ≠ toString packId)

def UpdateStickerPack.apply (changes : UpdateStickerPack) (pack : StickerPack) : StickerPack :=
  { pack with
    name := changes.name.getD pack.name
    description := changes.description.or pack.description
    updatedAt := changes.updatedAt
    visibility := changes.visibility.getD pack.visibility }

def parseIds {α : Type} (text : α → String) (items : List α) : List Int :=
  items.filterMap fun item => parseI64 (text item)

/-- A transaction's result: the pack it wrote, if it returns one, and the orders to broadcast. -/
structure PackChange where
  pack : Option StickerPack
  orders : List OrderUpdate
  deriving DecidableEq, Repr

namespace PackTables

variable (db : PackTables)

/-- `sticker_order::remove_pack`: every order is read before any is replaced. -/
def removePack (uids : List Int) (packId : Int) : List OrderUpdate :=
  uids.map fun uid => ⟨uid, removeOrder (db.lockUser uid) packId⟩

def revokeSubscriptions (pack : StickerPack) (includeOwner : Bool) :
    PackTables × List OrderUpdate :=
  let uids := db.revokedUids pack includeOwner
  let orders := db.removePack uids pack.id
  ((db.saveAll orders).unsubscribe uids pack.id, orders)

/-- A primary key that is taken fails the transaction. -/
def createPack (newPack : StickerPack) (now : Int) : Except PackError (PackTables × PackChange) :=
  if (db.packs.row newPack.id).isSome ∨
      (db.subscriptions.row (newPack.ownerUid, newPack.id)).isSome then .error .dbQuery
  else
    let inserted := { db with packs := db.packs.upsert newPack.id newPack }.subscribe
      newPack.ownerUid newPack.id newPack.createdAt
    let order := addOrder (inserted.lockUser newPack.ownerUid) newPack.id now
    .ok (inserted.save newPack.ownerUid order, ⟨some newPack, [⟨newPack.ownerUid, order⟩]⟩)

def updatePack (uid packId : Int) (changes : UpdateStickerPack) :
    Except PackError (PackTables × PackChange) := do
  let pack ← db.lockPack packId
  checkOwner pack uid
  let (revoked, orders) := if changes.visibility = some .Private
    then db.revokeSubscriptions pack false else (db, [])
  let pack := changes.apply pack
  return ({ revoked with packs := revoked.packs.upsert packId pack }, ⟨some pack, orders⟩)

def deletePack (uid packId : Int) : Except PackError (PackTables × PackChange) := do
  let pack ← db.lockPack packId
  checkOwner pack uid
  let (revoked, orders) := db.revokeSubscriptions pack true
  return ({ revoked with packs := revoked.packs.erase packId }, ⟨none, orders⟩)

/-- `ON CONFLICT DO NOTHING` keeps the time of a subscription that exists. -/
def subscribePack (uid packId now : Int) : Except PackError (PackTables × PackChange) := do
  let pack ← db.lockPack packId
  if pack.visibility = .Private ∧ pack.ownerUid ≠ uid then
    throw (.notFound "Sticker pack not found")
  let subscribed := if (db.subscriptions.row (uid, packId)).isSome then db
    else db.subscribe uid packId now
  let order := addOrder (subscribed.lockUser uid) packId now
  return (subscribed.save uid order, ⟨none, [⟨uid, order⟩]⟩)

def unsubscribePack (uid packId : Int) : Except PackError (PackTables × PackChange) := do
  let pack ← db.lockPack packId
  if pack.ownerUid = uid then
    throw (.badRequest "Pack owner cannot unsubscribe")
  let removed := db.unsubscribe [uid] packId
  let order := removeOrder (removed.lockUser uid) packId
  return (removed.save uid order, ⟨none, [⟨uid, order⟩]⟩)

def reorderPacks (uid : Int) (requested : List UpdateStickerPackOrderItem) :
    Except PackError (PackTables × PackChange) :=
  let current := db.lockUser uid
  let ids := parseIds (·.stickerPackId) current ++ parseIds (·.stickerPackId) requested
  let order := updateOrder current requested (db.accessiblePackIds uid ids)
  .ok (db.save uid order, ⟨none, [⟨uid, order⟩]⟩)

end PackTables

/-- The transactions on sticker packs and orders. `now` is the clock the transaction reads. -/
inductive PackRequest where
  | create (newPack : StickerPack) (now : Int)
  | update (uid packId : Int) (changes : UpdateStickerPack)
  | delete (uid packId : Int)
  | subscribe (uid packId now : Int)
  | unsubscribe (uid packId : Int)
  | reorder (uid : Int) (requested : List UpdateStickerPackOrderItem)
  deriving DecidableEq, Repr

/-- One transaction run alone. -/
def PackTables.serial (db : PackTables) : PackRequest → Except PackError (PackTables × PackChange)
  | .create newPack now => db.createPack newPack now
  | .update uid packId changes => db.updatePack uid packId changes
  | .delete uid packId => db.deletePack uid packId
  | .subscribe uid packId now => db.subscribePack uid packId now
  | .unsubscribe uid packId => db.unsubscribePack uid packId
  | .reorder uid requested => db.reorderPacks uid requested

/-- What the types of a request promise: a pack id is an `i64`. -/
def PackRequest.Typed : PackRequest → Prop
  | .create newPack _ => inI64 newPack.id = true
  | _ => True

end Chahua.Stickers

import Chahua.Stickers.Packs

namespace Chahua.Stickers

open Framework

namespace PackRequest

/-- Reordering shares the locks of the packs; the other requests lock one pack for update. -/
def exclusive : PackRequest → Bool
  | .reorder _ _ => false
  | _ => true

/-- The pack that the request locks for update. -/
def target : PackRequest → Int
  | .create newPack _ => newPack.id
  | .update _ packId _ => packId
  | .delete _ packId => packId
  | .subscribe _ packId _ => packId
  | .unsubscribe _ packId => packId
  | .reorder _ _ => 0

end PackRequest

namespace PackTables

variable (db : PackTables)

/-- The packs a transaction locks: for `update_order` those its first query finds. -/
def lockedPacks : PackRequest → List Int
  | .reorder _ requested =>
      ascending ((parseIds (·.stickerPackId) requested).toFinset.filter
        fun id => (db.packs.row id).isSome = true)
  | request => [request.target]

/-- Inserting or locking the pack, and what is read of it. -/
def openPack : PackRequest → Except PackError (Option StickerPack)
  | .create newPack _ =>
      if (db.packs.row newPack.id).isSome ∨
        (db.subscriptions.row (newPack.ownerUid, newPack.id)).isSome then .error .dbQuery
      else .ok (some newPack)
  | .reorder _ _ => .ok none
  | request => (db.lockPack request.target).map some

/-- The checks after the pack is locked, and the users whose rows are locked next. -/
def plan (pack : Option StickerPack) : PackRequest → Except PackError (List Int)
  | .create newPack _ => .ok [newPack.ownerUid]
  | .reorder uid _ => .ok [uid]
  | request =>
      match pack with
      | none => .error (.notFound "Sticker pack not found")
      | some pack =>
        match request with
        | .update uid _ changes => do
            checkOwner pack uid
            return if changes.visibility = some .Private then db.revokedUids pack false else []
        | .delete uid _ => do
            checkOwner pack uid
            return db.revokedUids pack true
        | .subscribe uid _ _ =>
            if pack.visibility = .Private ∧ pack.ownerUid ≠ uid then
              .error (.notFound "Sticker pack not found")
            else .ok [uid]
        | .unsubscribe uid _ =>
            if pack.ownerUid = uid then .error (.badRequest "Pack owner cannot unsubscribe")
            else .ok [uid]
        | _ => .ok []

/-- The order of a user as a locked row. -/
def read (uid : Int) : OrderUpdate := ⟨uid, db.lockUser uid⟩

/-- The query of `accessible_pack_ids`, made by `update_order` only. -/
def readAccessible (orders : List OrderUpdate) : PackRequest → Finset Int
  | .reorder uid requested => db.accessiblePackIds uid
      ((orders.flatMap fun update => parseIds (·.stickerPackId) update.order) ++
        parseIds (·.stickerPackId) requested)
  | _ => ∅

end PackTables

/-- The statement a transaction runs next, with the rows it still has to lock. -/
inductive TxStage where
  | packs (todo : List Int)
  | inserting (todo : List Int)
  | locking (todo : List Int)
  | reading
  | ready
  deriving DecidableEq, Repr

/-- A transaction in flight: the rows it has locked and what it has read. -/
structure PackTx where
  request : PackRequest
  stage : TxStage
  held : List Int
  pack : Option StickerPack
  uids : List Int
  inserted : List Int
  orders : List OrderUpdate
  accessible : Finset Int

namespace PackTx

/-- The rows of `user_extra` that the transaction keeps others from. -/
def rows (tx : PackTx) : List Int := tx.inserted ++ tx.orders.map (·.uid)

def opening (db : PackTables) (request : PackRequest) : PackTx :=
  ⟨request, .packs (db.lockedPacks request), [], none, [], [], [], ∅⟩

/-- The new order of a locked row. -/
def newOrder (tx : PackTx) (order : List StickerPackOrderItem) : List StickerPackOrderItem :=
  match tx.request with
  | .create newPack now => addOrder order newPack.id now
  | .update _ packId _ => removeOrder order packId
  | .delete _ packId => removeOrder order packId
  | .subscribe _ packId now => addOrder order packId now
  | .unsubscribe _ packId => removeOrder order packId
  | .reorder _ requested => updateOrder order requested tx.accessible

def newOrders (tx : PackTx) : List OrderUpdate :=
  tx.orders.map fun update => ⟨update.uid, tx.newOrder update.order⟩

/-- The writes to the packs and the subscriptions. -/
def writePacks (db : PackTables) (tx : PackTx) : PackTables :=
  match tx.request with
  | .create newPack _ =>
      { db with packs := db.packs.upsert newPack.id newPack }.subscribe
        newPack.ownerUid newPack.id newPack.createdAt
  | .update _ packId changes =>
      let revoked := if changes.visibility = some .Private then db.unsubscribe tx.uids packId
        else db
      match tx.pack with
      | some pack => { revoked with packs := revoked.packs.upsert packId (changes.apply pack) }
      | none => revoked
  | .delete _ packId =>
      let revoked := db.unsubscribe tx.uids packId
      { revoked with packs := revoked.packs.erase packId }
  | .subscribe uid packId now =>
      if (db.subscriptions.row (uid, packId)).isSome then db else db.subscribe uid packId now
  | .unsubscribe uid packId => db.unsubscribe [uid] packId
  | .reorder _ _ => db

def returned (tx : PackTx) : Option StickerPack :=
  match tx.request with
  | .create newPack _ => some newPack
  | .update _ _ changes => tx.pack.map changes.apply
  | _ => none

end PackTx

/-- What one statement of a transaction does: it waits for a row, goes on, or ends the
transaction with the tables it leaves and its result. -/
inductive TxOutcome where
  | blocked
  | next (tx : PackTx)
  | finish (db : PackTables) (result : Except PackError PackChange)

/-- The committed tables, the transactions in flight, and the finished ones in commit order. -/
structure PackSystem where
  db : PackTables
  txs : Table Nat PackTx
  log : List (PackRequest × Except PackError PackChange)

namespace PackSystem

variable (s : PackSystem)

def others (k : Nat) (p : PackTx → Bool) : Bool :=
  decide (s.txs.select fun j tx => decide (j ≠ k) && p tx).Nonempty

def packBlocked (k : Nat) (tx : PackTx) (packId : Int) : Bool :=
  s.others k fun other => decide (packId ∈ other.held) &&
    (tx.request.exclusive || other.request.exclusive)

def rowBlocked (k : Nat) (uid : Int) : Bool :=
  s.others k fun other => decide (uid ∈ other.rows)

/-- A row that is gone when `FOR SHARE` reaches it is skipped. -/
def lockNext (k : Nat) (tx : PackTx) (packId : Int) (todo : List Int) : TxOutcome :=
  if s.packBlocked k tx packId then .blocked
  else if tx.request.exclusive then
    match s.db.openPack tx.request with
    | .ok pack => .next { tx with held := [packId], pack := pack, stage := .packs todo }
    | .error e => .finish s.db (.error e)
  else if (s.db.packs.row packId).isSome then
    .next { tx with held := tx.held ++ [packId], stage := .packs todo }
  else .next { tx with stage := .packs todo }

def planNext (tx : PackTx) : TxOutcome :=
  match s.db.plan tx.pack tx.request with
  | .ok uids => .next { tx with uids := uids, stage := .inserting uids }
  | .error e => .finish s.db (.error e)

/-- `ON CONFLICT DO NOTHING` skips a committed row and waits for one in flight. -/
def insertNext (k : Nat) (tx : PackTx) (uid : Int) (todo : List Int) : TxOutcome :=
  if (s.db.userExtra.row uid).isSome then .next { tx with stage := .inserting todo }
  else if s.rowBlocked k uid then .blocked
  else .next { tx with inserted := tx.inserted ++ [uid], stage := .inserting todo }

def readNext (k : Nat) (tx : PackTx) (uid : Int) (todo : List Int) : TxOutcome :=
  if s.rowBlocked k uid then .blocked
  else .next { tx with orders := tx.orders ++ [s.db.read uid], stage := .locking todo }

def commit (tx : PackTx) : TxOutcome :=
  .finish ((tx.writePacks s.db).saveAll tx.newOrders) (.ok ⟨tx.returned, tx.newOrders⟩)

def outcome (k : Nat) (tx : PackTx) : TxOutcome :=
  match tx.stage with
  | .packs [] => s.planNext tx
  | .packs (packId :: todo) => s.lockNext k tx packId todo
  | .inserting [] => .next { tx with stage := .locking tx.uids }
  | .inserting (uid :: todo) => s.insertNext k tx uid todo
  | .locking [] => .next { tx with stage := .reading }
  | .locking (uid :: todo) => s.readNext k tx uid todo
  | .reading => .next { tx with
      accessible := s.db.readAccessible tx.orders tx.request, stage := .ready }
  | .ready => s.commit tx

end PackSystem

/-- Any transaction may start, run its next statement or be rolled back at any time. -/
inductive PackEvent where
  | start (k : Nat) (request : PackRequest)
  | advance (k : Nat)
  | rollback (k : Nat)
  deriving DecidableEq, Repr

def PackEvent.Typed : PackEvent → Prop
  | .start _ request => request.Typed
  | _ => True

namespace PackSystem

def afterOutcome (s : PackSystem) (k : Nat) (request : PackRequest) : TxOutcome → Option PackSystem
  | .blocked => none
  | .next tx => some { s with txs := s.txs.upsert k tx }
  | .finish db result => some ⟨db, s.txs.erase k, s.log ++ [(request, result)]⟩

def step (s : PackSystem) : PackEvent → Option PackSystem
  | .start k request =>
      if (s.txs.row k).isSome then none
      else some { s with txs := s.txs.upsert k (PackTx.opening s.db request) }
  | .advance k => (s.txs.row k).bind fun tx => s.afterOutcome k tx.request (s.outcome k tx)
  | .rollback k =>
      if (s.txs.row k).isSome then some { s with txs := s.txs.erase k } else none

def initial (db : PackTables) : PackSystem := ⟨db, Table.empty, []⟩

end PackSystem

/-- The finished transactions run one after another, each with the result it gave. -/
def PackTables.replay (db : PackTables) (entry : PackRequest × Except PackError PackChange) :
    Option PackTables :=
  match db.serial entry.1, entry.2 with
  | .ok (db', change), .ok result => if change = result then some db' else none
  | .error e, .error result => if e = result then some db else none
  | _, _ => none

end Chahua.Stickers

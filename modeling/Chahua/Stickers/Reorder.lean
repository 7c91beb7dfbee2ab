import Chahua.Framework.Run
import Chahua.Framework.StableSort
import Chahua.Stickers.PackOrder
import Mathlib

namespace Chahua.Stickers

open Framework

structure StickerPackSummary where
  id : String
  name : String
  deriving DecidableEq, Repr

/-- A `Map` of the entries keeps the last one of a pack. -/
def lastUsedById (order : List StickerPackOrderItem) (packId : String) : Option Int :=
  lastUsed order.reverse packId

/-- The last index of a pack, counted from `k`. -/
def originalIndex (packId : String) : List StickerPackSummary → Nat → Option Nat
  | [], _ => none
  | pack :: packs, k =>
      (originalIndex packId packs (k + 1)).or (if pack.id = packId then some k else none)

/-- The comparator of `sortByKeyedOrder`. -/
def comparePacks (order : List StickerPackOrderItem) (items : List StickerPackSummary)
    (a b : StickerPackSummary) : Int :=
  match lastUsedById order a.id, lastUsedById order b.id with
  | some aTime, some bTime => if aTime ≠ bTime then bTime - aTime else -1
  | some _, none => -1
  | none, some _ => 1
  | none, none =>
      ((originalIndex a.id items 0).getD 0 : Int) - ((originalIndex b.id items 0).getD 0 : Int)

/-- `sort` is the sort of the engine. -/
abbrev EngineSort := (StickerPackSummary → StickerPackSummary → Int) → List StickerPackSummary →
  List StickerPackSummary

def sortStickerPacksByPreference (sort : EngineSort) (packs : List StickerPackSummary)
    (order : List StickerPackOrderItem) : List StickerPackSummary :=
  sort (comparePacks order packs) packs

def replaceStickerPackOrder : List StickerPackOrderItem → List StickerPackOrderItem
  | [] => []
  | item :: order => item :: (replaceStickerPackOrder order).filter fun existing =>
      existing.stickerPackId ≠ item.stickerPackId

def upsertStickerPackOrderItem (order : List StickerPackOrderItem) (item : StickerPackOrderItem) :
    List StickerPackOrderItem :=
  item :: order.filter fun existing => existing.stickerPackId ≠ item.stickerPackId

/-- The list with the element at `from` moved to `to`, as the reorder event completes it. -/
def move (packs : List StickerPackSummary) (i j : Nat) : List StickerPackSummary :=
  (packs.eraseIdx i).take j ++ packs[i]?.toList ++ (packs.eraseIdx i).drop j

/-- The packs before and after a place. -/
def neighbours (items : List StickerPackSummary) (place : Nat) :
    Option StickerPackSummary × Option StickerPackSummary :=
  (if 0 < place then items[place - 1]? else none,
    if place < items.length - 1 then items[place + 1]? else none)

/-- The sum of two numbers below 2^53: an odd sum past 2^53 is rounded to a multiple of four. -/
def addTimes (a b : Int) : Int :=
  if (-(2 ^ 53) ≤ a + b ∧ a + b ≤ 2 ^ 53) ∨ (a + b) % 2 = 0 then a + b
  else if (a + b) % 4 = 1 then a + b - 1
  else a + b + 1

/-- The time of a pack dropped between two others; `none` inside is a pack without a time. -/
def newTime (now : Int) (prev next : Option (Option Int)) : Int :=
  match prev, next with
  | some pLast, some nLast =>
      if pLast = nLast then addTimes (pLast.getD 0) (-10000)
      else addTimes (pLast.getD 0) (nLast.getD 0) / 2
  | some pLast, none => addTimes (pLast.getD 0) (-10000)
  | none, some nLast => addTimes (nLast.getD 0) 10000
  | none, none => now

/-- An order item on its way: `stored` once the server has it and has not answered yet. -/
inductive Saving where
  | idle
  | sent (item : StickerPackOrderItem)
  | stored (item : StickerPackOrderItem)
  deriving DecidableEq, Repr

/-- The page of the packs, with the order of the session and the one the server has. -/
structure StickerSettings where
  packs : List StickerPackSummary
  packOrder : List StickerPackOrderItem
  storedOrder : List StickerPackOrderItem
  saving : Saving

inductive SettingsEvent where
  | reorder (i j : Nat) (now : Int)
  | store
  | saved
  | reread
  deriving DecidableEq, Repr

namespace StickerSettings

def start (packs : List StickerPackSummary) (storedOrder : List StickerPackOrderItem) :
    StickerSettings :=
  ⟨packs, replaceStickerPackOrder storedOrder, storedOrder, .idle⟩

def orderedPacks (sort : EngineSort) (s : StickerSettings) : List StickerPackSummary :=
  sortStickerPacksByPreference sort s.packs s.packOrder

def timeOf (s : StickerSettings) (pack : StickerPackSummary) : Option Int :=
  lastUsed s.packOrder pack.id

/-- The entry of the pack dropped at a place of `items`. -/
def droppedItem (s : StickerSettings) (items : List StickerPackSummary) (place : Nat) (now : Int)
    (pack : StickerPackSummary) : StickerPackOrderItem :=
  ⟨pack.id, newTime now ((neighbours items place).1.map s.timeOf)
    ((neighbours items place).2.map s.timeOf)⟩

def step (sort : EngineSort) (accessible : Finset Int) (s : StickerSettings) :
    SettingsEvent → Option StickerSettings
  | .reorder i j now =>
      let packs := s.orderedPacks sort
      match s.saving, packs[i]? with
      | .idle, some pack =>
          if packs.length ≤ j then none
          else
            let item := s.droppedItem (move packs i j) j now pack
            some { s with
              packs := move packs i j
              packOrder := upsertStickerPackOrderItem s.packOrder item
              saving := .sent item }
      | _, _ => none
  | .store =>
      match s.saving with
      | .sent item =>
          some { s with
            storedOrder :=
              updateOrder s.storedOrder [⟨item.stickerPackId, item.lastUsedOn, none⟩] accessible
            saving := .stored item }
      | _ => none
  | .saved =>
      match s.saving with
      | .stored item =>
          some { s with
            packOrder := upsertStickerPackOrderItem s.packOrder item
            saving := .idle }
      | _ => none
  | .reread =>
      match s.saving with
      | .sent _ => none
      | _ => some { s with packOrder := replaceStickerPackOrder s.storedOrder }

end StickerSettings

/-- What an event does to a displayed list. -/
def dragged (packs : List StickerPackSummary) : SettingsEvent → List StickerPackSummary
  | .reorder i j _ => move packs i j
  | _ => packs

end Chahua.Stickers

import Mathlib

namespace Chahua.Stickers

structure StickerPackOrderItem where
  stickerPackId : String
  lastUsedOn : Int
  deriving DecidableEq, Repr

structure UpdateStickerPackOrderItem where
  stickerPackId : String
  lastUsedOn : Int
  isAutoSort : Option Bool
  deriving DecidableEq, Repr

def MAX_AUTO_SORT_LIMIT : Nat := 20

def inI64 (n : Int) : Bool := decide (-(2 ^ 63) ≤ n) && decide (n < 2 ^ 63)

def digitsValue (digits : List Char) : Option Nat :=
  if digits ≠ [] ∧ digits.all Char.isDigit then some (Nat.ofDigitChars 10 digits 0) else none

/-- `parse::<i64>`: an optional sign and decimal digits, in range. -/
def parseI64 (text : String) : Option Int :=
  (match text.toList with
  | '-' :: digits => (digitsValue digits).map fun n : Nat => -(n : Int)
  | '+' :: digits => (digitsValue digits).map fun n : Nat => (n : Int)
  | digits => (digitsValue digits).map fun n : Nat => (n : Int)).filter inI64

theorem digitsValue_toString (n : Nat) : digitsValue (toString n).toList = some n := by
  have hdigits : (toString n).toList = Nat.toDigits 10 n := Nat.toList_repr
  have hall : (Nat.toDigits 10 n).all Char.isDigit = true := by
    rw [List.all_eq_true]
    intro c hc
    exact Nat.isDigit_of_mem_toDigits (by decide) (by decide) hc
  rw [hdigits, digitsValue, if_pos ⟨Nat.toDigits_ne_nil, hall⟩, Nat.ofDigitChars_ten_toDigits]

theorem parseI64_toString {id : Int} (h : inI64 id = true) : parseI64 (toString id) = some id := by
  cases id with
  | ofNat n =>
    have htext : (toString (Int.ofNat n)).toList = (toString n).toList := rfl
    have hvalue := digitsValue_toString n
    unfold parseI64
    rw [htext]
    split
    · next digits hd =>
      rw [hd] at hvalue
      simp [digitsValue] at hvalue
    · next digits hd =>
      rw [hd] at hvalue
      simp [digitsValue] at hvalue
    · rw [hvalue]
      simpa [Option.filter] using h
  | negSucc n =>
    have htext : (toString (Int.negSucc n)).toList = '-' :: (toString (n + 1)).toList := by
      show ("-" ++ Nat.repr (n + 1)).toList = _
      rw [String.toList_append]
      rfl
    unfold parseI64
    rw [htext]
    show ((digitsValue (toString (n + 1)).toList).map fun m : Nat => -(m : Int)).filter inI64 = _
    have hid : -((n + 1 : Nat) : Int) = Int.negSucc n := rfl
    rw [digitsValue_toString, Option.map_some, hid]
    simpa [Option.filter] using h

/-- The first item of the pack gets the time. -/
def touch (packId : String) (time : Int) : List StickerPackOrderItem → List StickerPackOrderItem
  | [] => []
  | item :: order =>
    if item.stickerPackId = packId then { item with lastUsedOn := time } :: order
    else item :: touch packId time order

def put (order : List StickerPackOrderItem) (packId : String) (time : Int) :
    List StickerPackOrderItem :=
  if order.any fun item => item.stickerPackId == packId then touch packId time order
  else order ++ [⟨packId, time⟩]

/-- `sort_by_key(Reverse(last_used_on))`, which is stable. -/
def sortByUse (order : List StickerPackOrderItem) : List StickerPackOrderItem :=
  order.mergeSort fun a b => decide (b.lastUsedOn ≤ a.lastUsedOn)

def rank (order : List StickerPackOrderItem) (packId : String) : Option Nat :=
  order.findIdx? fun item => item.stickerPackId == packId

/-- One turn of the loop of `merge_order`, with `current` and `sorted`. -/
def mergeItem (accessible : Finset Int) (current sorted : List StickerPackOrderItem)
    (incoming : UpdateStickerPackOrderItem) :
    List StickerPackOrderItem × List StickerPackOrderItem :=
  match parseI64 incoming.stickerPackId with
  | none => (current, sorted)
  | some id =>
    if id ∉ accessible then (current, sorted)
    else
      let next := put current (toString id) incoming.lastUsedOn
      if incoming.isAutoSort.getD false then
        match rank sorted (toString id) with
        | none => (current, sorted)
        | some position =>
          if MAX_AUTO_SORT_LIMIT ≤ position then (current, sorted) else (next, sortByUse next)
      else (next, sortByUse next)

def mergeOrder (current : List StickerPackOrderItem) (requested : List UpdateStickerPackOrderItem)
    (accessible : Finset Int) : List StickerPackOrderItem :=
  (requested.foldl (fun order incoming => mergeItem accessible order.1 order.2 incoming)
    (current, sortByUse current)).1

/-- `update_order` of the order it has locked: entries the user may not use are dropped first. -/
def updateOrder (current : List StickerPackOrderItem) (requested : List UpdateStickerPackOrderItem)
    (accessible : Finset Int) : List StickerPackOrderItem :=
  mergeOrder (current.filter fun item =>
    (parseI64 item.stickerPackId).any fun id => decide (id ∈ accessible)) requested accessible

/-- The time of the first entry of a pack. -/
def lastUsed (order : List StickerPackOrderItem) (packId : String) : Option Int :=
  (order.find? fun item => item.stickerPackId == packId).map (·.lastUsedOn)

@[simp] theorem lastUsed_nil (packId : String) : lastUsed [] packId = none := rfl

theorem lastUsed_cons (item : StickerPackOrderItem) (order : List StickerPackOrderItem)
    (packId : String) : lastUsed (item :: order) packId =
      if item.stickerPackId = packId then some item.lastUsedOn else lastUsed order packId := by
  unfold lastUsed
  by_cases h : item.stickerPackId = packId <;> simp [h]

theorem lastUsed_touch (order : List StickerPackOrderItem) (packId other : String) (time : Int) :
    lastUsed (touch packId time order) other =
      if other = packId ∧ order.any (fun item => item.stickerPackId == packId) = true then some time
      else lastUsed order other := by
  induction order with
  | nil => simp [touch]
  | cons item order ih =>
    unfold touch
    by_cases h : item.stickerPackId = packId
    · rw [if_pos h]
      by_cases ho : other = packId
      · simp [lastUsed_cons, h, ho]
      · have hne : item.stickerPackId ≠ other := fun heq => ho (heq.symm.trans h)
        simp [lastUsed_cons, hne, ho]
    · rw [if_neg h, lastUsed_cons, ih, lastUsed_cons]
      by_cases ho : other = packId
      · simp [h, ho]
      · simp [ho]

theorem lastUsed_append (a b : List StickerPackOrderItem) (packId : String) :
    lastUsed (a ++ b) packId = (lastUsed a packId).or (lastUsed b packId) := by
  induction a with
  | nil => rfl
  | cons item a ih =>
    rw [List.cons_append, lastUsed_cons, lastUsed_cons, ih]
    split <;> rfl

theorem lastUsed_eq_none {order : List StickerPackOrderItem} {packId : String}
    (h : order.any (fun item => item.stickerPackId == packId) ≠ true) :
    lastUsed order packId = none := by
  induction order with
  | nil => rfl
  | cons item order ih =>
    rw [List.any_cons, ne_eq, Bool.or_eq_true, not_or, beq_iff_eq] at h
    rw [lastUsed_cons, if_neg h.1]
    exact ih h.2

theorem lastUsed_put (order : List StickerPackOrderItem) (packId other : String) (time : Int) :
    lastUsed (put order packId time) other =
      if other = packId then some time else lastUsed order other := by
  unfold put
  split
  · next hany => simp [lastUsed_touch, hany]
  · next hany =>
    rw [lastUsed_append, lastUsed_cons, lastUsed_nil]
    by_cases h : other = packId
    · rw [if_pos h, h, lastUsed_eq_none hany]
      simp
    · have hne : ¬packId = other := fun heq => h heq.symm
      simp [h, hne]

/-- The times of the kept packs stay. -/
theorem lastUsed_filter {order : List StickerPackOrderItem} {p : StickerPackOrderItem → Bool}
    {packId : String} (h : ∀ item, item.stickerPackId = packId → p item = true) :
    lastUsed (order.filter p) packId = lastUsed order packId := by
  induction order with
  | nil => rfl
  | cons item order ih =>
    by_cases hp : p item = true
    · rw [List.filter_cons_of_pos hp, lastUsed_cons, lastUsed_cons, ih]
    · rw [List.filter_cons_of_neg hp, lastUsed_cons, ih, if_neg fun heq => hp (h item heq)]

/-- A pack the user may use, under the text of its id. -/
def Accessible (accessible : Finset Int) (packId : String) : Prop :=
  ∃ id ∈ accessible, inI64 id = true ∧ packId = toString id

/-- Storing one item that is not sorted automatically sets the time of its pack. -/
theorem lastUsed_updateOrder {current : List StickerPackOrderItem} {accessible : Finset Int}
    {packId other : String} {time : Int} (h : Accessible accessible packId)
    (hother : Accessible accessible other) :
    lastUsed (updateOrder current [⟨packId, time, none⟩] accessible) other =
      if other = packId then some time else lastUsed current other := by
  obtain ⟨id, hid, hrange, rfl⟩ := h
  have hmerge : ∀ order : List StickerPackOrderItem,
      mergeOrder order [⟨toString id, time, none⟩] accessible = put order (toString id) time := by
    intro order
    simp only [mergeOrder, mergeItem, parseI64_toString hrange, List.foldl_cons, List.foldl_nil,
      hid, not_true_eq_false, if_false, Option.getD_none, Bool.false_eq_true]
  unfold updateOrder
  rw [hmerge, lastUsed_put]
  congr 1
  obtain ⟨n, hn, hnrange, rfl⟩ := hother
  refine lastUsed_filter fun item hitem => ?_
  rw [hitem, parseI64_toString hnrange]
  simpa using hn

end Chahua.Stickers

import Mathlib

namespace Chahua.Session

/-- A decoded value, of a frame or of the payload of a token. An object's entries are in the order
of `Object.values`. -/
inductive Data where
  | null
  | bool (value : Bool)
  | number (value : Rat)
  | string (value : String)
  | array (items : List Data)
  | object (entries : List (String × Data))

abbrev Entries := List (String × Data)

def hasKey (entries : Entries) (key : String) : Bool := (entries.lookup key).isSome

/-- `entries.key ?? undefined`: a null counts as absent. -/
def nonNull (entries : Entries) (key : String) : Option Data :=
  match entries.lookup key with
  | some .null => none
  | value => value

/-- `data.uid === uid`. -/
def hasUid (uid : Int) (entries : Entries) : Bool :=
  match entries.lookup "uid" with
  | some (.number value) => decide (value = uid)
  | _ => false

def isProfile (entries : Entries) : Bool :=
  hasKey entries "gender" || hasKey entries "avatarUrl" || hasKey entries "name" ||
    hasKey entries "username"

mutual

/-- The first object in the value that is a profile of the user. -/
def findOwnProfile (uid : Int) : Data → Option Entries
  | .object entries =>
    if hasUid uid entries && isProfile entries then some entries else findInEntries uid entries
  | .array items => findInItems uid items
  | _ => none

def findInItems (uid : Int) : List Data → Option Entries
  | [] => none
  | item :: items => (findOwnProfile uid item).or (findInItems uid items)

def findInEntries (uid : Int) : List (String × Data) → Option Entries
  | [] => none
  | (_, value) :: entries => (findOwnProfile uid value).or (findInEntries uid entries)

end

mutual

theorem findOwnProfile_hasUid {uid : Int} {p : Entries} :
    ∀ {d : Data}, findOwnProfile uid d = some p → hasUid uid p = true
  | .object entries, h => by
    rw [findOwnProfile] at h
    split at h
    · next hown =>
      obtain rfl := Option.some.inj h
      exact (Bool.and_eq_true_iff.mp hown).1
    · exact findInEntries_hasUid h
  | .array items, h => by
    rw [findOwnProfile] at h
    exact findInItems_hasUid h
  | .null, h | .bool _, h | .number _, h | .string _, h => by simp [findOwnProfile] at h

theorem findInItems_hasUid {uid : Int} {p : Entries} :
    ∀ {ds : List Data}, findInItems uid ds = some p → hasUid uid p = true
  | [], h => by simp [findInItems] at h
  | d :: ds, h => by
    rw [findInItems, Option.or_eq_some_iff] at h
    obtain h | ⟨-, h⟩ := h
    · exact findOwnProfile_hasUid h
    · exact findInItems_hasUid h

theorem findInEntries_hasUid {uid : Int} {p : Entries} :
    ∀ {es : List (String × Data)}, findInEntries uid es = some p → hasUid uid p = true
  | [], h => by simp [findInEntries] at h
  | (_, d) :: es, h => by
    rw [findInEntries, Option.or_eq_some_iff] at h
    obtain h | ⟨-, h⟩ := h
    · exact findOwnProfile_hasUid h
    · exact findInEntries_hasUid h

end

/-- A token, as `split('.')` gives it. -/
structure Token where
  segments : List String
  deriving DecidableEq, Repr

/-- Not the empty string. -/
def Token.truthy (token : Token) : Bool := decide (token.segments ≠ [""])

structure Identity where
  uid : Int
  gen : Int
  deriving DecidableEq, Repr

def isSafeInteger (value : Rat) : Bool :=
  decide (value.den = 1) && decide (value.num.natAbs ≤ 2 ^ 53 - 1)

def identityOf : Option Data → Option Identity
  | some (.object entries) =>
    match entries.lookup "uid", entries.lookup "gen" with
    | some (.number uid), some (.number gen) =>
      if isSafeInteger uid && isSafeInteger gen then some ⟨uid.num, gen.num⟩ else none
    | _, _ => none
  | _ => none

/-- `decodePayload` is `JSON.parse` of `atob` of the payload in the plain alphabet, absent where
one of them throws. -/
def tokenIdentity (decodePayload : String → Option Data) (token : Token) : Option Identity :=
  match token.segments[1]? with
  | some payload => if payload = "" then none else identityOf (decodePayload payload)
  | none => none

structure StickerPackOrderItem where
  stickerPackId : String
  lastUsedOn : Rat
  deriving DecidableEq, Repr

/-- The signed-in user: the fields the store reads or writes. -/
structure User where
  uid : Int
  username : Data
  gender : Data
  avatarUrl : Option Data
  userGroup : Option Data
  showMembershipMessages : Bool
  stickerPackOrder : List StickerPackOrderItem

/-- What `updateProfile` makes of the user with an own profile. -/
def User.withProfile (current : User) (profile : Entries) : User :=
  { current with
    username := ((nonNull profile "username").or (nonNull profile "name")).getD current.username
    gender := (nonNull profile "gender").getD current.gender
    avatarUrl :=
      if hasKey profile "avatarUrl" then profile.lookup "avatarUrl" else current.avatarUrl
    userGroup :=
      if hasKey profile "userGroup" ||
          (hasKey profile "gender" && !hasKey profile "permissions") then
        profile.lookup "userGroup"
      else current.userGroup }

@[simp] theorem User.withProfile_uid (u : User) (p : Entries) : (u.withProfile p).uid = u.uid :=
  rfl

/-- `Math.trunc`. -/
def trunc (value : Rat) : Rat := value.num.tdiv value.den

/-- The items without later ones of a pack already listed. -/
def mergedOrder (order : List StickerPackOrderItem) : List StickerPackOrderItem :=
  (order.foldl (fun seen item =>
    if seen.any fun other => other.stickerPackId == item.stickerPackId then seen
    else seen ++ [item]) []).map fun item => { item with lastUsedOn := trunc item.lastUsedOn }

end Chahua.Session

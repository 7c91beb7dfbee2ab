import Chahua.Framework.Table
import Mathlib.Data.List.Dedup
import Mathlib.Data.List.Sort

namespace Chahua.Presence

open Framework

inductive PresenceVisibility where
  | everyone | friends | nobody
  deriving DecidableEq, Repr

inductive AppPresenceState where
  | active | inactive
  deriving DecidableEq, Repr

inductive LastSeenBucket where
  | recently | withinWeek | withinMonth | longAgo
  deriving DecidableEq, Repr

inductive GroupKind where
  | group | dm
  deriving DecidableEq, Repr

/-- A friendship under its pair, the lesser uid first. -/
structure Friendship where
  createdAt : Int
  uid1SharesPresence : Option Bool
  uid2SharesPresence : Option Bool
  deriving DecidableEq, Repr

structure UserExtra where
  lastSeenAt : Int
  presenceVisibility : PresenceVisibility
  deriving DecidableEq, Repr

structure Database where
  friendships : Table (Int × Int) Friendship
  blocks : Table (Int × Int) Unit
  groups : Table Int GroupKind
  groupMembership : Table (Int × Int) Unit
  userExtra : Table Int UserExtra

/-- What the presence snapshot reads of a relationship. -/
structure PeerRelationship where
  friendsSince : Option Int
  blocking : Bool
  blockedBy : Bool
  sharesPresence : Option Bool
  peerSharesPresence : Option Bool
  deriving DecidableEq, Repr

structure UserPresenceResponse where
  uid : Int
  online : Bool
  away : Option Bool
  lastSeenAt : Option Int
  lastSeenBucket : Option LastSeenBucket
  deriving DecidableEq, Repr

/-- A connection of a user; times are seconds. -/
structure Connection where
  isClosed : Bool
  lastPingAt : Nat
  state : AppPresenceState
  lastTransitionAt : Nat
  deriving DecidableEq, Repr

def staleConnectionTimeoutSecs : Nat := 300
def awayTimeoutSecs : Nat := 300

/-- Observations of one day of the buffer. -/
structure Observation where
  uid : Int
  at' : Int
  deriving DecidableEq, Repr

/-- All a snapshot reads. The buffer of observations is read before and after the policies, and a
flush may come between; times are nanoseconds. -/
structure World where
  db : Database
  connections : Int → List Connection
  nowSecs : Nat
  observedBefore : List Observation
  observedAfter : List Observation
  now : Int

/-- `personal_presence_at`: one active connection is enough, else a recent change to away. -/
def personalPresenceAt (entries : List Connection) (now : Nat) : Option AppPresenceState :=
  let fresh := entries.filter fun entry =>
    !entry.isClosed && decide (now - entry.lastPingAt ≤ staleConnectionTimeoutSecs)
  if fresh.any (·.state = .active) then some .active
  else if fresh.any fun entry => decide (entry.lastTransitionAt ≠ 0) &&
      decide (now - entry.lastTransitionAt < awayTimeoutSecs) then some .inactive
  else none

/-- `LastSeen::latest`. -/
def latest (pending : List Observation) (uid : Int) (persisted : Option Int) : Option Int :=
  (pending.filter (·.uid = uid)).foldl
    (fun latest observed => some (latest.elim observed.at' (max · observed.at'))) persisted

def directionalPresenceOverrides (viewerIsUid1 : Bool)
    (uid1SharesPresence uid2SharesPresence : Option Bool) : Option Bool × Option Bool :=
  if viewerIsUid1 then (uid1SharesPresence, uid2SharesPresence)
  else (uid2SharesPresence, uid1SharesPresence)

/-- What the queries for the peers on one side of the uid find for a peer. -/
def relationshipRow (db : Database) (uid peer : Int) : Option Friendship :=
  if peer > uid then db.friendships.row (uid, peer)
  else if peer < uid then db.friendships.row (peer, uid)
  else none

def peerRelationships (db : Database) (uid : Int) (peers : List Int) (peer : Int) :
    Option PeerRelationship :=
  if peer ∈ peers then
    let friendship := relationshipRow db uid peer
    let overrides := friendship.map fun f =>
      directionalPresenceOverrides (decide (peer > uid)) f.uid1SharesPresence f.uid2SharesPresence
    some
      { friendsSince := friendship.map (·.createdAt)
        blocking := (db.blocks.row (uid, peer)).isSome
        blockedBy := (db.blocks.row (peer, uid)).isSome
        sharesPresence := overrides.bind (·.1)
        peerSharesPresence := overrides.bind (·.2) }
  else none

def sharesPresence (visibility : PresenceVisibility) (isFriend : Bool)
    (overrideValue : Option Bool) : Bool :=
  overrideValue.getD (match visibility with
    | .everyone => true
    | .friends => isFriend
    | .nobody => false)

def presenceIsVisible (isSelf isAuthorized isFriend : Bool) (viewerVisibility : PresenceVisibility)
    (viewerOverride : Option Bool) (peerVisibility : PresenceVisibility)
    (peerOverride : Option Bool) : Bool :=
  isSelf || (isAuthorized && sharesPresence viewerVisibility isFriend viewerOverride &&
    sharesPresence peerVisibility isFriend peerOverride)

def blockedPresence (uid : Int) (peer : PeerRelationship) : Option UserPresenceResponse :=
  if peer.blocking || peer.blockedBy then some ⟨uid, false, none, none, some .longAgo⟩ else none

/-- `num_days` drops the part of a day towards zero. -/
def numDays (duration : Int) : Int := duration.tdiv 86400000000000

/-- The coarse bucket of what is known of a user. -/
def lastSeenBucket (state : Option AppPresenceState) (lastSeenAt : Option Int) (now : Int) :
    Option LastSeenBucket :=
  if state.isSome then some .recently
  else lastSeenAt.map fun lastSeen =>
    let days := numDays (now - lastSeen)
    if days < 3 then .recently
    else if days < 7 then .withinWeek
    else if days < 30 then .withinMonth
    else .longAgo

def userPresence (uid : Int) (exact : Bool) (state : Option AppPresenceState)
    (lastSeenAt : Option Int) (now : Int) : UserPresenceResponse where
  uid := uid
  online := exact && decide (state = some .active)
  away := if exact && decide (state = some .inactive) then some true else none
  lastSeenAt := if exact then lastSeenAt else none
  lastSeenBucket := if exact then none else lastSeenBucket state lastSeenAt now

namespace World

variable (w : World)

/-- The chats of the first membership query, and who of the listed users is in one of them. -/
def sharedMember (viewerUid : Int) (userIds : List Int) (uid : Int) : Bool :=
  decide (uid ∈ userIds) &&
    decide ((w.db.groups.select fun chatId kind => decide (kind = .group) &&
      (w.db.groupMembership.row (chatId, viewerUid)).isSome &&
      (w.db.groupMembership.row (chatId, uid)).isSome).Nonempty)

def candidate (viewerUid : Int) (userIds : List Int) (uid : Int) : Bool :=
  decide (uid = viewerUid) ||
    (peerRelationships w.db viewerUid (userIds.filter (· ≠ viewerUid)) uid).any fun relationship =>
      relationship.friendsSince.isSome || w.sharedMember viewerUid userIds uid

def policyUids (viewerUid : Int) (userIds : List Int) : List Int :=
  let unblocked := (userIds.filter (w.candidate viewerUid userIds)).filter fun uid =>
    !(peerRelationships w.db viewerUid (userIds.filter (· ≠ viewerUid)) uid).any fun peer =>
      peer.blocking || peer.blockedBy
  if viewerUid ∈ unblocked then unblocked else unblocked ++ [viewerUid]

def presenceByUid (viewerUid : Int) (userIds : List Int) (uid : Int) : Option UserExtra :=
  if uid ∈ w.policyUids viewerUid userIds then w.db.userExtra.row uid else none

def observedByUid (viewerUid : Int) (userIds : List Int) (uid : Int) : Option Int :=
  if uid ∈ w.policyUids viewerUid userIds then latest w.observedBefore uid none else none

def visibilityOf (viewerUid : Int) (userIds : List Int) (uid : Int) : PresenceVisibility :=
  ((w.presenceByUid viewerUid userIds uid).map UserExtra.presenceVisibility).getD .everyone

/-- The later of two times, an unknown one being the earliest. -/
def later : Option Int → Option Int → Option Int
  | some a, some b => some (max a b)
  | some a, none => some a
  | none, b => b

def loadVisibleUser (viewerUid : Int) (userIds : List Int) (uid : Int) : UserPresenceResponse :=
  let relationship := peerRelationships w.db viewerUid (userIds.filter (· ≠ viewerUid)) uid
  match relationship.bind (blockedPresence uid) with
  | some blocked => blocked
  | none =>
    let exact := decide (uid = viewerUid) || relationship.any fun relationship =>
      presenceIsVisible false true relationship.friendsSince.isSome
        (w.visibilityOf viewerUid userIds viewerUid) relationship.sharesPresence
        (w.visibilityOf viewerUid userIds uid) relationship.peerSharesPresence
    let persisted := later ((w.presenceByUid viewerUid userIds uid).map (·.lastSeenAt))
      (w.observedByUid viewerUid userIds uid)
    userPresence uid exact (personalPresenceAt (w.connections uid) w.nowSecs)
      (latest w.observedAfter uid persisted) w.now

def loadVisibleUsers (viewerUid : Int) (userIds : List Int) : List UserPresenceResponse :=
  (userIds.filter (w.candidate viewerUid userIds)).map (w.loadVisibleUser viewerUid userIds)

end World

def uniqueI32 (values : List Int) : List Int := (values.mergeSort (· ≤ ·)).dedup

/-- The users of a snapshot. -/
def World.loadSnapshot (w : World) (viewerUid : Int) (userIds : List Int) :
    List UserPresenceResponse :=
  w.loadVisibleUsers viewerUid (uniqueI32 userIds)

/-- The friendship of a pair, whoever asks. -/
def Database.friendship (db : Database) (a b : Int) : Option Friendship :=
  if a < b then db.friendships.row (a, b) else if b < a then db.friendships.row (b, a) else none

def Database.SharesGroup (db : Database) (a b : Int) : Prop :=
  ∃ chatId, db.groups.row chatId = some .group ∧
    (db.groupMembership.row (chatId, a)).isSome = true ∧
    (db.groupMembership.row (chatId, b)).isSome = true

/-- Who may appear in the snapshots of a user. -/
def Database.Visible (db : Database) (viewer peer : Int) : Prop :=
  (db.friendship viewer peer).isSome = true ∨ db.SharesGroup viewer peer

def Database.Blocks (db : Database) (a b : Int) : Prop :=
  (db.blocks.row (a, b)).isSome = true ∨ (db.blocks.row (b, a)).isSome = true

/-- The override of a user for a peer. -/
def Database.presenceOverride (db : Database) (uid peer : Int) : Option Bool :=
  (db.friendship uid peer).bind fun f =>
    if uid < peer then f.uid1SharesPresence else f.uid2SharesPresence

/-- A user lets a peer see their presence. -/
def Database.Shares (db : Database) (uid peer : Int) : Prop :=
  match db.presenceOverride uid peer with
  | some value => value = true
  | none =>
    match (db.userExtra.row uid).map UserExtra.presenceVisibility with
    | none | some .everyone => True
    | some .friends => (db.friendship uid peer).isSome = true
    | some .nobody => False

/-- A viewer sees exactly when a peer is there. -/
def Database.SeesExactly (db : Database) (viewer peer : Int) : Prop :=
  ¬db.Blocks viewer peer ∧ db.Shares viewer peer ∧ db.Shares peer viewer

/-- What is known of a user's activity. -/
def World.lastSeenOf (w : World) (uid : Int) : Option Int :=
  latest w.observedAfter uid
    (World.later ((w.db.userExtra.row uid).map (·.lastSeenAt)) (latest w.observedBefore uid none))

def World.personalPresence (w : World) (uid : Int) : Option AppPresenceState :=
  personalPresenceAt (w.connections uid) w.nowSecs

def World.coarseBucket (w : World) (uid : Int) : Option LastSeenBucket :=
  lastSeenBucket (w.personalPresence uid) (w.lastSeenOf uid) w.now

/-- A connection of a user that is open and was heard of lately. -/
def World.Fresh (w : World) (uid : Int) (connection : Connection) : Prop :=
  connection ∈ w.connections uid ∧ connection.isClosed = false ∧
    w.nowSecs - connection.lastPingAt ≤ staleConnectionTimeoutSecs

def World.Active (w : World) (uid : Int) : Prop :=
  ∃ connection, w.Fresh uid connection ∧ connection.state = .active

/-- No connection is active, but one changed its state a short time ago. -/
def World.Away (w : World) (uid : Int) : Prop :=
  ¬w.Active uid ∧ ∃ connection, w.Fresh uid connection ∧ connection.lastTransitionAt ≠ 0 ∧
    w.nowSecs - connection.lastTransitionAt < awayTimeoutSecs

/-- The times at which a user was seen: the stored one and those that are not yet flushed. -/
def World.SeenAt (w : World) (uid time : Int) : Prop :=
  (w.db.userExtra.row uid).map UserExtra.lastSeenAt = some time ∨
    ⟨uid, time⟩ ∈ w.observedBefore ∨ ⟨uid, time⟩ ∈ w.observedAfter

/-- The greatest of some times, if there is one. -/
def Newest (times : Int → Prop) : Option Int → Prop
  | some time => times time ∧ ∀ other, times other → other ≤ time
  | none => ∀ other, ¬times other

/-- `86400` seconds, in nanoseconds. -/
def day : Int := 86400000000000

def bucketAfter (elapsed : Int) : LastSeenBucket :=
  if elapsed < 3 * day then .recently
  else if elapsed < 7 * day then .withinWeek
  else if elapsed < 30 * day then .withinMonth
  else .longAgo

/-- The coarse bucket of a user: `recently` while active or away, else by the whole days since the
user was last seen. -/
def World.Bucket (w : World) (uid : Int) (bucket : Option LastSeenBucket) : Prop :=
  (w.Active uid ∨ w.Away uid) ∧ bucket = some .recently ∨
    ¬(w.Active uid ∨ w.Away uid) ∧ ∃ seen, Newest (w.SeenAt uid) seen ∧
      bucket = seen.map fun time => bucketAfter (w.now - time)

/-- A response that shows the activity of its user as it is. -/
structure World.ShowsExactly (w : World) (response : UserPresenceResponse) : Prop where
  online : response.online = true ↔ w.Active response.uid
  away : response.away = some true ↔ w.Away response.uid
  notAway : response.away = none ↔ ¬w.Away response.uid
  lastSeenAt : Newest (w.SeenAt response.uid) response.lastSeenAt
  lastSeenBucket : response.lastSeenBucket = none

/-- A response that shows the coarse bucket and nothing else. -/
structure World.ShowsCoarsely (w : World) (response : UserPresenceResponse) : Prop where
  online : response.online = false
  away : response.away = none
  lastSeenAt : response.lastSeenAt = none
  lastSeenBucket : w.Bucket response.uid response.lastSeenBucket

/-- Two worlds differ at most in the activity of a user: their connections, their observations and
when they were last seen. -/
structure SameBut (uid : Int) (w w' : World) : Prop where
  friendships : w'.db.friendships = w.db.friendships
  blocks : w'.db.blocks = w.db.blocks
  groups : w'.db.groups = w.db.groups
  memberships : w'.db.groupMembership = w.db.groupMembership
  visibility : ∀ other, (w'.db.userExtra.row other).map UserExtra.presenceVisibility =
    (w.db.userExtra.row other).map UserExtra.presenceVisibility
  userExtra : ∀ other, other ≠ uid → w'.db.userExtra.row other = w.db.userExtra.row other
  connections : ∀ other, other ≠ uid → w'.connections other = w.connections other
  observedBefore : w'.observedBefore.filter (·.uid ≠ uid) = w.observedBefore.filter (·.uid ≠ uid)
  observedAfter : w'.observedAfter.filter (·.uid ≠ uid) = w.observedAfter.filter (·.uid ≠ uid)
  nowSecs : w'.nowSecs = w.nowSecs
  now : w'.now = w.now

variable {w w' : World} {viewer peer : Int} {userIds : List Int}

theorem friendship_comm (db : Database) (a b : Int) : db.friendship a b = db.friendship b a := by
  unfold Database.friendship
  rcases lt_trichotomy a b with hlt | rfl | hlt
  · rw [if_pos hlt, if_neg (not_lt_of_gt hlt), if_pos hlt]
  · rfl
  · rw [if_neg (not_lt_of_gt hlt), if_pos hlt, if_pos hlt]

theorem relationshipRow_eq (db : Database) (uid peer : Int) :
    relationshipRow db uid peer = db.friendship uid peer := rfl

/-- Both directions of a relationship, whichever uid is the lesser. -/
theorem peerRelationships_eq (db : Database) {uid peer : Int} {peers : List Int}
    (hpeer : peer ∈ peers) (hne : peer ≠ uid) :
    peerRelationships db uid peers peer = some
      { friendsSince := (db.friendship uid peer).map (·.createdAt)
        blocking := (db.blocks.row (uid, peer)).isSome
        blockedBy := (db.blocks.row (peer, uid)).isSome
        sharesPresence := db.presenceOverride uid peer
        peerSharesPresence := db.presenceOverride peer uid } := by
  unfold peerRelationships Database.presenceOverride
  rw [if_pos hpeer, friendship_comm db peer uid, relationshipRow_eq]
  rcases lt_or_gt_of_ne hne with hlt | hgt
  · simp only [if_pos hlt, if_neg (not_lt_of_gt hlt), gt_iff_lt]
    cases db.friendship uid peer with
    | none => rfl
    | some f => simp [directionalPresenceOverrides, not_lt_of_gt hlt]
  · simp only [if_pos hgt, if_neg (not_lt_of_gt hgt), gt_iff_lt]
    cases db.friendship uid peer with
    | none => rfl
    | some f => simp [directionalPresenceOverrides, hgt]

theorem sharedMember_iff : w.sharedMember viewer userIds peer = true ↔
    peer ∈ userIds ∧ w.db.SharesGroup viewer peer := by
  unfold World.sharedMember Database.SharesGroup
  rw [Bool.and_eq_true, decide_eq_true_iff, decide_eq_true_iff]
  refine and_congr_right fun _ => ⟨fun h => ?_, fun h => ?_⟩
  · obtain ⟨chatId, hselect⟩ := h
    obtain ⟨kind, hkind, hboth⟩ := Table.mem_select.mp hselect
    simp only [Bool.and_eq_true, decide_eq_true_eq] at hboth
    obtain ⟨⟨rfl, hviewer⟩, hpeer⟩ := hboth
    exact ⟨chatId, hkind, hviewer, hpeer⟩
  · obtain ⟨chatId, hkind, hviewer, hpeer⟩ := h
    refine ⟨chatId, Table.mem_select.mpr ⟨.group, hkind, ?_⟩⟩
    simp [hviewer, hpeer]

theorem mem_peers (hmem : peer ∈ userIds) (hne : peer ≠ viewer) :
    peer ∈ userIds.filter (· ≠ viewer) := by
  rw [List.mem_filter]
  exact ⟨hmem, decide_eq_true hne⟩

theorem candidate_iff (hmem : peer ∈ userIds) : w.candidate viewer userIds peer = true ↔
    peer = viewer ∨ w.db.Visible viewer peer := by
  by_cases hself : peer = viewer
  · simp [World.candidate, hself]
  · have hshared : w.sharedMember viewer userIds peer = true ↔ w.db.SharesGroup viewer peer :=
      sharedMember_iff.trans (and_iff_right hmem)
    unfold World.candidate Database.Visible
    rw [peerRelationships_eq w.db (mem_peers hmem hself) hself, ← hshared]
    simp [hself]

theorem mem_policyUids (hmem : peer ∈ userIds) (hcandidate : w.candidate viewer userIds peer = true)
    (hunblocked : peer = viewer ∨ ¬w.db.Blocks viewer peer) : peer ∈ w.policyUids viewer userIds := by
  by_cases hself : peer = viewer
  · subst hself
    unfold World.policyUids
    dsimp only
    split
    · next hfound => exact hfound
    · simp
  · have hblocks := hunblocked.resolve_left hself
    have hfound : peer ∈ (userIds.filter (w.candidate viewer userIds)).filter fun uid =>
        !(peerRelationships w.db viewer (userIds.filter (· ≠ viewer)) uid).any fun peer =>
          peer.blocking || peer.blockedBy := by
      rw [List.mem_filter, List.mem_filter, peerRelationships_eq w.db (mem_peers hmem hself) hself]
      refine ⟨⟨hmem, hcandidate⟩, ?_⟩
      simpa [Database.Blocks] using hblocks
    unfold World.policyUids
    dsimp only
    split
    · exact hfound
    · exact List.mem_append_left _ hfound

theorem viewer_mem_policyUids : viewer ∈ w.policyUids viewer userIds := by
  unfold World.policyUids
  dsimp only
  split
  · next hfound => exact hfound
  · simp

theorem visibilityOf_eq (h : peer ∈ w.policyUids viewer userIds) :
    w.visibilityOf viewer userIds peer =
      ((w.db.userExtra.row peer).map UserExtra.presenceVisibility).getD .everyone := by
  rw [World.visibilityOf, World.presenceByUid, if_pos h]

/-- The side of a user is what their override or their visibility says. -/
theorem sharesPresence_iff (db : Database) (uid peer : Int) :
    sharesPresence (((db.userExtra.row uid).map UserExtra.presenceVisibility).getD .everyone)
      ((db.friendship uid peer).map (·.createdAt)).isSome (db.presenceOverride uid peer) = true ↔
    db.Shares uid peer := by
  unfold Database.Shares sharesPresence
  cases db.presenceOverride uid peer with
  | some value => simp
  | none =>
    cases hrow : (db.userExtra.row uid).map UserExtra.presenceVisibility with
    | none => simp
    | some visibility => cases visibility <;> simp

end Chahua.Presence

import Chahua.Framework.Run
import Chahua.Presence.Policies

namespace Chahua.Presence

open Framework

/-- A committed change of policies. -/
inductive PresenceChange where
  | userPolicy (uid : Int)
  | pairPolicy (a b : Int)
  deriving DecidableEq, Repr

def PresenceChange.affects (viewerUid : Int) (userIds : List Int) : PresenceChange → Bool
  | .userPolicy uid => !userIds.isEmpty && (decide (viewerUid = uid) || decide (uid ∈ userIds))
  | .pairPolicy a b => !userIds.isEmpty &&
      (decide (viewerUid = a ∧ b ∈ userIds) || decide (viewerUid = b ∧ a ∈ userIds))

/-- The writes of policies: of a user's visibility, of all of a user's overrides, of the friendship
of a pair with its overrides, and of a block. -/
inductive PolicyWrite where
  | visibility (uid : Int) (visibility : PresenceVisibility) (now : Int)
  | clearOverrides (uid : Int)
  | friendship (a b : Int) (row : Option Friendship)
  | block (blocker blocked : Int) (blocks : Bool)
  deriving DecidableEq, Repr

/-- What is announced after the commit. -/
def PolicyWrite.announcement : PolicyWrite → PresenceChange
  | .visibility uid _ _ | .clearOverrides uid => .userPolicy uid
  | .friendship a b _ | .block a b _ => .pairPolicy a b

/-- Writes that are announced to nobody. -/
inductive OtherWrite where
  | lastSeen (uid time : Int)
  | group (chatId : Int) (kind : Option GroupKind)
  | membership (chatId uid : Int) (member : Bool)
  deriving DecidableEq, Repr

namespace Database

def canonicalPair (a b : Int) : Int × Int := (min a b, max a b)

def writePolicy (db : Database) : PolicyWrite → Database
  | .visibility uid visibility now => { db with
      userExtra := db.userExtra.upsert uid
        ⟨((db.userExtra.row uid).map UserExtra.lastSeenAt).getD now, visibility⟩ }
  | .clearOverrides uid => { db with
      friendships := db.friendships.updateWhere (fun pair _ => decide (pair.1 = uid ∨ pair.2 = uid))
        fun pair friendship =>
          if pair.1 = uid then { friendship with uid1SharesPresence := none }
          else { friendship with uid2SharesPresence := none } }
  | .friendship a b (some row) =>
      { db with friendships := db.friendships.upsert (canonicalPair a b) row }
  | .friendship a b none => { db with friendships := db.friendships.erase (canonicalPair a b) }
  | .block blocker blocked true => { db with blocks := db.blocks.upsert (blocker, blocked) () }
  | .block blocker blocked false => { db with blocks := db.blocks.erase (blocker, blocked) }

def writeOther (db : Database) : OtherWrite → Database
  | .lastSeen uid time => { db with
      userExtra := db.userExtra.upsert uid
        ⟨time, ((db.userExtra.row uid).map UserExtra.presenceVisibility).getD .everyone⟩ }
  | .group chatId (some kind) => { db with groups := db.groups.upsert chatId kind }
  | .group chatId none => { db with groups := db.groups.erase chatId }
  | .membership chatId uid true =>
      { db with groupMembership := db.groupMembership.upsert (chatId, uid) () }
  | .membership chatId uid false =>
      { db with groupMembership := db.groupMembership.erase (chatId, uid) }

/-- Before anything is read. -/
def unread : Database := ⟨.empty, .empty, .empty, .empty, .empty⟩

def visibilityOf (db : Database) (uid : Int) : PresenceVisibility :=
  ((db.userExtra.row uid).map UserExtra.presenceVisibility).getD .everyone

end Database

/-- The queries of a snapshot, in their order. The queries of one table for the peers on either side
of the viewer are one statement. -/
inductive ReadStage where
  | friendships | blocks | memberships | policies | done
  deriving DecidableEq, Repr

inductive RefreshPhase where
  | draining
  | loading (stage : ReadStage) (read : Database)
  | checking (refresh : Bool) (snapshot : Option (List UserPresenceResponse))
  | returned (snapshot : Option (List UserPresenceResponse))

/-- `snapshot_after_pending_changes` beside the writes of others. `sent` is all that the channel
ever carried and `next` the place of the receiver in it. -/
structure Refresh where
  db : Database
  unannounced : List PresenceChange
  sent : List PresenceChange
  next : Nat
  phase : RefreshPhase

/-- `activity` holds the connections, the observations and the clocks a snapshot finds. -/
inductive RefreshEvent where
  | writePolicy (write : PolicyWrite)
  | writeOther (write : OtherWrite)
  | announce (change : PresenceChange)
  | receive
  | read
  | loaded (activity : World)
  | failed

namespace Refresh

/-- The changes that the channel keeps for a receiver. -/
def capacity : Nat := 64

def start (db : Database) : Refresh := ⟨db, [], [], 0, .draining⟩

/-- One `try_recv` of `take_pending_changes`: where the receiver stands then, and whether what it
found asks for a new snapshot; `none` where the channel is empty. -/
def tryRecv (s : Refresh) (viewerUid : Int) (userIds : List Int) : Option (Nat × Bool) :=
  if capacity < s.sent.length - s.next then
    some (s.sent.length - capacity, !userIds.isEmpty)
  else s.sent[s.next]?.map fun change => (s.next + 1, change.affects viewerUid userIds)

def receive (s : Refresh) (viewerUid : Int) (userIds : List Int) : Option Refresh :=
  match s.phase with
  | .draining =>
    match s.tryRecv viewerUid userIds with
    | some (next, _) => some { s with next := next }
    | none => some { s with phase := .loading .friendships .unread }
  | .checking refresh snapshot =>
    match s.tryRecv viewerUid userIds with
    | some (next, again) =>
      some { s with next := next, phase := .checking (refresh || again) snapshot }
    | none => some { s with phase := if refresh then .draining else .returned snapshot }
  | _ => none

/-- The next query of the snapshot. -/
def readNext (s : Refresh) : Option Refresh :=
  match s.phase with
  | .loading .friendships read =>
    some { s with phase := .loading .blocks { read with friendships := s.db.friendships } }
  | .loading .blocks read =>
    some { s with phase := .loading .memberships { read with blocks := s.db.blocks } }
  | .loading .memberships read => some { s with
      phase := .loading .policies
        { read with groups := s.db.groups, groupMembership := s.db.groupMembership } }
  | .loading .policies read =>
    some { s with phase := .loading .done { read with userExtra := s.db.userExtra } }
  | _ => none

def step (viewerUid : Int) (userIds : List Int) (s : Refresh) : RefreshEvent → Option Refresh
  | .writePolicy write => some { s with
      db := s.db.writePolicy write
      unannounced := write.announcement :: s.unannounced }
  | .writeOther write => some { s with db := s.db.writeOther write }
  | .announce change =>
    if change ∈ s.unannounced then
      some { s with unannounced := s.unannounced.erase change, sent := s.sent ++ [change] }
    else none
  | .receive => s.receive viewerUid userIds
  | .read => s.readNext
  | .loaded activity =>
    match s.phase with
    | .loading .done read => some { s with
        phase := .checking false
          (some ({ activity with db := read }.loadSnapshot viewerUid userIds)) }
    | _ => none
  | .failed =>
    match s.phase with
    | .loading _ _ => some { s with phase := .checking false none }
    | _ => none

end Refresh

/-- A change of what a viewer may see of a peer. -/
def PresenceChange.Concerns (viewer peer : Int) : PresenceChange → Prop
  | .userPolicy uid => uid = viewer ∨ uid = peer
  | .pairPolicy a b => a = viewer ∧ b = peer ∨ a = peer ∧ b = viewer

/-- Two databases let a viewer see the same of a peer. -/
structure SamePolicy (viewer peer : Int) (db db' : Database) : Prop where
  friendship : db'.friendship viewer peer = db.friendship viewer peer
  blocking : db'.blocks.row (viewer, peer) = db.blocks.row (viewer, peer)
  blockedBy : db'.blocks.row (peer, viewer) = db.blocks.row (peer, viewer)
  viewerVisibility : db'.visibilityOf viewer = db.visibilityOf viewer
  peerVisibility : db'.visibilityOf peer = db.visibilityOf peer

namespace Refresh

variable {viewer peer : Int} {userIds : List Int} {s t : Refresh}

/-- A change of what the viewer may see of the peer is still to be announced or received. -/
def Outstanding (viewer peer : Int) (s : Refresh) : Prop :=
  ∃ change ∈ s.unannounced ++ s.sent.drop s.next, change.Concerns viewer peer

/-- What has been read for a peer is what is stored. -/
def ReadSo (viewer peer : Int) (db read : Database) : ReadStage → Prop
  | .friendships => True
  | .blocks => read.friendship viewer peer = db.friendship viewer peer
  | .memberships | .policies =>
    read.friendship viewer peer = db.friendship viewer peer ∧
      read.blocks.row (viewer, peer) = db.blocks.row (viewer, peer) ∧
      read.blocks.row (peer, viewer) = db.blocks.row (peer, viewer)
  | .done => SamePolicy viewer peer db read

/-- The snapshot was built for the viewer, and shows of each peer what may be seen now unless a
change of that is still on its way. -/
def Built (viewer : Int) (userIds : List Int) (s : Refresh) (users : List UserPresenceResponse) :
    Prop :=
  ∃ w : World, users = w.loadSnapshot viewer userIds ∧
    ∀ peer ∈ userIds, s.Outstanding viewer peer ∨ SamePolicy viewer peer s.db w.db

def At (viewer : Int) (userIds : List Int) (s : Refresh) : RefreshPhase → Prop
  | .draining | .returned _ => True
  | .loading stage read =>
    ∀ peer ∈ userIds, s.Outstanding viewer peer ∨ ReadSo viewer peer s.db read stage
  | .checking refresh snapshot =>
    refresh = true ∨ ∀ users, snapshot = some users → s.Built viewer userIds users

structure Inv (viewer : Int) (userIds : List Int) (s : Refresh) : Prop where
  position : s.next ≤ s.sent.length
  place : s.At viewer userIds s.phase

end Refresh

theorem SamePolicy.refl (db : Database) (viewer peer : Int) : SamePolicy viewer peer db db :=
  ⟨rfl, rfl, rfl, rfl, rfl⟩

variable {viewer peer : Int} {userIds : List Int} {db db' : Database}

theorem friendship_upsert_ne {a b : Int} (row : Friendship)
    (h : ¬(a = viewer ∧ b = peer ∨ a = peer ∧ b = viewer)) (hdb : db'.friendships =
      db.friendships.upsert (Database.canonicalPair a b) row) :
    db'.friendship viewer peer = db.friendship viewer peer := by
  have hkeys : viewer < peer → (viewer, peer) ≠ Database.canonicalPair a b := by
    intro hlt heq
    simp only [Database.canonicalPair, Prod.mk.injEq] at heq
    omega
  have hkeys' : peer < viewer → (peer, viewer) ≠ Database.canonicalPair a b := by
    intro hlt heq
    simp only [Database.canonicalPair, Prod.mk.injEq] at heq
    omega
  unfold Database.friendship
  rw [hdb]
  split
  · next hlt => rw [Table.upsert_row_ne _ _ (hkeys hlt)]
  · split
    · next hlt => rw [Table.upsert_row_ne _ _ (hkeys' hlt)]
    · rfl

theorem friendship_erase_ne {a b : Int} (h : ¬(a = viewer ∧ b = peer ∨ a = peer ∧ b = viewer))
    (hdb : db'.friendships = db.friendships.erase (Database.canonicalPair a b)) :
    db'.friendship viewer peer = db.friendship viewer peer := by
  have hkeys : viewer < peer → (viewer, peer) ≠ Database.canonicalPair a b := by
    intro hlt heq
    simp only [Database.canonicalPair, Prod.mk.injEq] at heq
    omega
  have hkeys' : peer < viewer → (peer, viewer) ≠ Database.canonicalPair a b := by
    intro hlt heq
    simp only [Database.canonicalPair, Prod.mk.injEq] at heq
    omega
  unfold Database.friendship
  rw [hdb]
  split
  · next hlt => rw [Table.erase_row_ne _ (hkeys hlt)]
  · split
    · next hlt => rw [Table.erase_row_ne _ (hkeys' hlt)]
    · rfl

/-- A write that is announced as a change of others leaves what the viewer may see of the peer. -/
theorem samePolicy_writePolicy (db : Database) {write : PolicyWrite}
    (h : ¬write.announcement.Concerns viewer peer) :
    SamePolicy viewer peer db (db.writePolicy write) := by
  cases write with
  | visibility uid visibility now =>
    obtain ⟨hviewer, hpeer⟩ := not_or.mp h
    refine ⟨rfl, rfl, rfl, ?_, ?_⟩
    · simp only [Database.visibilityOf, Database.writePolicy,
        Table.upsert_row_ne _ _ (Ne.symm hviewer)]
    · simp only [Database.visibilityOf, Database.writePolicy,
        Table.upsert_row_ne _ _ (Ne.symm hpeer)]
  | clearOverrides uid =>
    obtain ⟨hviewer, hpeer⟩ := not_or.mp h
    refine ⟨?_, rfl, rfl, rfl, rfl⟩
    have hrow : ∀ a b, uid ≠ a → uid ≠ b →
        (db.writePolicy (.clearOverrides uid)).friendships.row (a, b) =
          db.friendships.row (a, b) := by
      intro a b ha hb
      simp only [Database.writePolicy, Table.updateWhere_row]
      cases db.friendships.row (a, b) with
      | none => rfl
      | some friendship => simp [Ne.symm ha, Ne.symm hb]
    unfold Database.friendship
    rw [hrow viewer peer hviewer hpeer, hrow peer viewer hpeer hviewer]
  | friendship a b row =>
    cases row with
    | some row => exact ⟨friendship_upsert_ne row h rfl, rfl, rfl, rfl, rfl⟩
    | none => exact ⟨friendship_erase_ne h rfl, rfl, rfl, rfl, rfl⟩
  | block blocker blocked blocks =>
    have hkey : (viewer, peer) ≠ (blocker, blocked) := by
      intro heq
      obtain ⟨rfl, rfl⟩ := Prod.mk.inj heq
      exact h (.inl ⟨rfl, rfl⟩)
    have hkey' : (peer, viewer) ≠ (blocker, blocked) := by
      intro heq
      obtain ⟨rfl, rfl⟩ := Prod.mk.inj heq
      exact h (.inr ⟨rfl, rfl⟩)
    cases blocks with
    | true => exact ⟨rfl, Table.upsert_row_ne _ _ hkey, Table.upsert_row_ne _ _ hkey', rfl, rfl⟩
    | false => exact ⟨rfl, Table.erase_row_ne _ hkey, Table.erase_row_ne _ hkey', rfl, rfl⟩

theorem samePolicy_writeOther (db : Database) (write : OtherWrite) :
    SamePolicy viewer peer db (db.writeOther write) := by
  cases write with
  | lastSeen uid time =>
    have hvisibility : ∀ other, (db.writeOther (.lastSeen uid time)).visibilityOf other =
        db.visibilityOf other := by
      intro other
      unfold Database.visibilityOf Database.writeOther
      dsimp only
      rw [Table.upsert_row]
      split
      · next heq => rw [heq]; rfl
      · rfl
    exact ⟨rfl, rfl, rfl, hvisibility viewer, hvisibility peer⟩
  | group chatId kind => cases kind <;> exact ⟨rfl, rfl, rfl, rfl, rfl⟩
  | membership chatId uid member => cases member <;> exact ⟨rfl, rfl, rfl, rfl, rfl⟩

theorem affects_of_concerns {change : PresenceChange} (h : change.Concerns viewer peer)
    (hpeer : peer ∈ userIds) : change.affects viewer userIds = true := by
  have hne : userIds.isEmpty = false := by
    cases userIds with
    | nil => cases hpeer
    | cons uid userIds => rfl
  cases change with
  | userPolicy uid =>
    rcases h with rfl | rfl
    · simp [PresenceChange.affects, hne]
    · simp [PresenceChange.affects, hne, hpeer]
  | pairPolicy a b =>
    rcases h with ⟨rfl, rfl⟩ | ⟨rfl, rfl⟩
    · simp [PresenceChange.affects, hne, hpeer]
    · simp [PresenceChange.affects, hne, hpeer]

namespace Refresh

variable {s t : Refresh}

theorem ReadSo.of_same {read : Database} {stage : ReadStage}
    (hread : ReadSo viewer peer db read stage) (h : SamePolicy viewer peer db db') :
    ReadSo viewer peer db' read stage := by
  cases stage with
  | friendships => trivial
  | blocks => exact hread.trans h.friendship.symm
  | memberships =>
    exact ⟨hread.1.trans h.friendship.symm, hread.2.1.trans h.blocking.symm,
      hread.2.2.trans h.blockedBy.symm⟩
  | policies =>
    exact ⟨hread.1.trans h.friendship.symm, hread.2.1.trans h.blocking.symm,
      hread.2.2.trans h.blockedBy.symm⟩
  | done =>
    exact ⟨hread.friendship.trans h.friendship.symm, hread.blocking.trans h.blocking.symm,
      hread.blockedBy.trans h.blockedBy.symm, hread.viewerVisibility.trans h.viewerVisibility.symm,
      hread.peerVisibility.trans h.peerVisibility.symm⟩

/-- Writes of others and announcements keep what holds at a place of the loop. -/
theorem At.mono {phase : RefreshPhase} (h : s.At viewer userIds phase)
    (hstep : ∀ peer ∈ userIds, t.Outstanding viewer peer ∨
      SamePolicy viewer peer s.db t.db ∧ (s.Outstanding viewer peer → t.Outstanding viewer peer)) :
    t.At viewer userIds phase := by
  cases phase with
  | draining => trivial
  | returned snapshot => trivial
  | loading stage read =>
    intro peer hpeer
    rcases hstep peer hpeer with hout | ⟨hsame, hout⟩
    · exact .inl hout
    · exact (h peer hpeer).imp hout fun hread => hread.of_same hsame
  | checking refresh snapshot =>
    refine h.imp id fun hbuilt users husers => ?_
    obtain ⟨w, hw, hpeers⟩ := hbuilt users husers
    refine ⟨w, hw, fun peer hpeer => ?_⟩
    rcases hstep peer hpeer with hout | ⟨hsame, hout⟩
    · exact .inl hout
    · refine (hpeers peer hpeer).imp hout fun hread => ?_
      have hdone : ReadSo viewer peer s.db w.db .done := hread
      exact hdone.of_same hsame

theorem Inv.writePolicy (h : s.Inv viewer userIds) (write : PolicyWrite) :
    ({ s with
      db := s.db.writePolicy write
      unannounced := write.announcement :: s.unannounced } : Refresh).Inv viewer userIds where
  position := h.position
  place := by
    refine h.place.mono fun peer _ => ?_
    by_cases hconcerns : write.announcement.Concerns viewer peer
    · exact .inl ⟨_, List.mem_cons_self, hconcerns⟩
    · refine .inr ⟨samePolicy_writePolicy s.db hconcerns, fun hout => ?_⟩
      obtain ⟨change, hmem, hchange⟩ := hout
      exact ⟨change, List.mem_cons_of_mem _ hmem, hchange⟩

theorem Inv.writeOther (h : s.Inv viewer userIds) (write : OtherWrite) :
    ({ s with db := s.db.writeOther write } : Refresh).Inv viewer userIds where
  position := h.position
  place := h.place.mono fun _ _ => .inr ⟨samePolicy_writeOther s.db write, id⟩

theorem Inv.announce (h : s.Inv viewer userIds) {change : PresenceChange}
    (hmem : change ∈ s.unannounced) :
    ({ s with
      unannounced := s.unannounced.erase change
      sent := s.sent ++ [change] } : Refresh).Inv viewer userIds where
  position := by
    have := h.position
    simp only [List.length_append, List.length_singleton]
    omega
  place := by
    refine h.place.mono fun peer _ => .inr ⟨SamePolicy.refl _ _ _, fun hout => ?_⟩
    obtain ⟨other, hother, hconcerns⟩ := hout
    refine ⟨other, ?_, hconcerns⟩
    rw [List.drop_append_of_le_length h.position, List.mem_append, List.mem_append,
      List.mem_singleton]
    rcases List.mem_append.mp hother with hfirst | hsent
    · by_cases heq : other = change
      · exact .inr (.inr heq)
      · exact .inl ((List.mem_erase_of_ne heq).mpr hfirst)
    · exact .inr (.inl hsent)

/-- The receiver has gone past nothing that concerns a listed peer, or asks for a new snapshot. -/
theorem tryRecv_some {next : Nat} {again : Bool} (hpos : s.next ≤ s.sent.length)
    (h : s.tryRecv viewer userIds = some (next, again)) : next ≤ s.sent.length ∧
      ∀ peer ∈ userIds, again = true ∨ (s.Outstanding viewer peer →
        ∃ change ∈ s.unannounced ++ s.sent.drop next, change.Concerns viewer peer) := by
  unfold tryRecv at h
  split at h
  · cases h
    refine ⟨Nat.sub_le _ _, fun peer hpeer => .inl ?_⟩
    cases userIds with
    | nil => cases hpeer
    | cons uid userIds => rfl
  · obtain ⟨change, hchange, heq⟩ := Option.map_eq_some_iff.mp h
    cases heq
    obtain ⟨hlt, hget⟩ := List.getElem?_eq_some_iff.mp hchange
    refine ⟨hlt, fun peer hpeer => ?_⟩
    by_cases hconcerns : change.Concerns viewer peer
    · exact .inl (affects_of_concerns hconcerns hpeer)
    · refine .inr fun hout => ?_
      obtain ⟨other, hother, hconcerns'⟩ := hout
      refine ⟨other, ?_, hconcerns'⟩
      rw [List.drop_eq_getElem_cons hlt, hget] at hother
      rcases List.mem_append.mp hother with hfirst | hsent
      · exact List.mem_append_left _ hfirst
      · rcases List.mem_cons.mp hsent with rfl | hrest
        · exact absurd hconcerns' hconcerns
        · exact List.mem_append_right _ hrest

theorem tryRecv_none (h : s.tryRecv viewer userIds = none) : s.sent.drop s.next = [] := by
  unfold tryRecv at h
  split at h
  · cases h
  · exact List.drop_eq_nil_of_le (List.getElem?_eq_none_iff.mp (Option.map_eq_none_iff.mp h))

theorem Inv.receive (h : s.Inv viewer userIds) (ht : s.receive viewer userIds = some t) :
    t.Inv viewer userIds := by
  have hplace := h.place
  unfold Refresh.receive at ht
  split at ht
  · next hphase =>
    split at ht
    · next next again hrecv =>
      cases ht
      refine ⟨(tryRecv_some h.position hrecv).1, ?_⟩
      simp only [hphase]
      trivial
    · cases ht
      exact ⟨h.position, fun _ _ => .inr trivial⟩
  · next refresh snapshot hphase =>
    rw [hphase] at hplace
    split at ht
    · next next again hrecv =>
      cases ht
      obtain ⟨hnext, hkeeps⟩ := tryRecv_some h.position hrecv
      refine ⟨hnext, ?_⟩
      rcases hplace with hrefresh | hbuilt
      · exact .inl (by rw [hrefresh, Bool.true_or])
      · cases hagain : again with
        | true => exact .inl (Bool.or_true _)
        | false =>
          refine .inr fun users husers => ?_
          obtain ⟨w, hw, hpeers⟩ := hbuilt users husers
          refine ⟨w, hw, fun peer hpeer => ?_⟩
          have hkeep := (hkeeps peer hpeer).resolve_left (by simp [hagain])
          exact (hpeers peer hpeer).imp_left hkeep
    · cases ht
      refine ⟨h.position, ?_⟩
      cases refresh <;> trivial
  · cases ht

theorem Inv.readNext (h : s.Inv viewer userIds) (ht : s.readNext = some t) :
    t.Inv viewer userIds := by
  have hplace := h.place
  unfold Refresh.readNext at ht
  split at ht
  · cases ht
    exact ⟨h.position, fun _ _ => .inr rfl⟩
  · next read hphase =>
    rw [hphase] at hplace
    cases ht
    exact ⟨h.position, fun peer hpeer => (hplace peer hpeer).imp id fun hread => ⟨hread, rfl, rfl⟩⟩
  · next read hphase =>
    rw [hphase] at hplace
    cases ht
    exact ⟨h.position, hplace⟩
  · next read hphase =>
    rw [hphase] at hplace
    cases ht
    refine ⟨h.position, fun peer hpeer => (hplace peer hpeer).imp id fun hread => ?_⟩
    exact ⟨hread.1, hread.2.1, hread.2.2, rfl, rfl⟩
  · cases ht

theorem inv_step (s : Refresh) (e : RefreshEvent) (t : Refresh) (h : s.Inv viewer userIds)
    (ht : s.step viewer userIds e = some t) : t.Inv viewer userIds := by
  cases e with
  | writePolicy write => exact Option.some.inj ht ▸ h.writePolicy write
  | writeOther write => exact Option.some.inj ht ▸ h.writeOther write
  | announce change =>
    simp only [step] at ht
    split at ht
    · next hmem => exact Option.some.inj ht ▸ h.announce hmem
    · cases ht
  | receive => exact h.receive ht
  | read => exact h.readNext ht
  | loaded activity =>
    have hplace := h.place
    simp only [step] at ht
    split at ht
    · next read hphase =>
      rw [hphase] at hplace
      cases ht
      refine ⟨h.position, .inr fun users husers => ?_⟩
      cases husers
      exact ⟨{ activity with db := read }, rfl, hplace⟩
    · cases ht
  | failed =>
    simp only [step] at ht
    split at ht
    · cases ht
      exact ⟨h.position, .inr fun users husers => by cases husers⟩
    · cases ht

theorem inv_start (viewer : Int) (userIds : List Int) (db : Database) :
    (start db).Inv viewer userIds := ⟨Nat.le_refl 0, trivial⟩

/-- The snapshot that the loop returns. -/
theorem built_of_returned {users : List UserPresenceResponse} (h : s.Inv viewer userIds)
    (ht : s.step viewer userIds .receive = some t) (hreturned : t.phase = .returned (some users)) :
    s.Built viewer userIds users ∧ s.sent.drop s.next = [] := by
  have hplace := h.place
  simp only [step] at ht
  unfold Refresh.receive at ht
  split at ht
  · next hphase =>
    split at ht
    · cases ht
      rw [hphase] at hreturned
      cases hreturned
    · cases ht
      cases hreturned
  · next refresh snapshot hphase =>
    rw [hphase] at hplace
    split at ht
    · cases ht
      cases hreturned
    · next hrecv =>
      cases ht
      split at hreturned
      · cases hreturned
      · next hfresh =>
        cases hreturned
        exact ⟨(hplace.resolve_left hfresh) users rfl, tryRecv_none hrecv⟩
  · cases ht

end Refresh

theorem SamePolicy.shares_iff {a b : Int} (hfriendship : db'.friendship a b = db.friendship a b)
    (hvisibility : db'.visibilityOf a = db.visibilityOf a) : db'.Shares a b ↔ db.Shares a b := by
  rw [← sharesPresence_iff, ← sharesPresence_iff]
  unfold Database.visibilityOf at hvisibility
  unfold Database.presenceOverride
  rw [hfriendship, hvisibility]

theorem SamePolicy.seesExactly_iff (h : SamePolicy viewer peer db db') :
    db'.SeesExactly viewer peer ↔ db.SeesExactly viewer peer := by
  have hback : db'.friendship peer viewer = db.friendship peer viewer := by
    rw [friendship_comm, h.friendship, friendship_comm]
  unfold Database.SeesExactly Database.Blocks
  rw [h.blocking, h.blockedBy, SamePolicy.shares_iff h.friendship h.viewerVisibility,
    SamePolicy.shares_iff hback h.peerVisibility]

/-- A snapshot shows the viewer and the listed peers it may see, each once; their activity as it is
exactly to who may see it, in both directions alike; nothing of it under a block, and nothing but
the coarse bucket to anyone else. The loop returns a snapshot built on the policies that are
committed when it returns, but for changes that are still to be announced. -/
theorem presence_policy (w : World) (viewer : Int) (userIds : List Int) :
    (((w.loadSnapshot viewer userIds).map UserPresenceResponse.uid).Nodup ∧
      ∀ uid, uid ∈ (w.loadSnapshot viewer userIds).map UserPresenceResponse.uid ↔
        uid ∈ userIds ∧ (uid = viewer ∨ w.db.Visible viewer uid)) ∧
    (∀ response ∈ w.loadSnapshot viewer userIds,
      (response.uid = viewer ∨ w.db.SeesExactly viewer response.uid → w.ShowsExactly response) ∧
      (response.uid ≠ viewer → w.db.Blocks viewer response.uid →
        response = ⟨response.uid, false, none, none, some .longAgo⟩) ∧
      (response.uid ≠ viewer → ¬w.db.Blocks viewer response.uid →
        ¬w.db.SeesExactly viewer response.uid → w.ShowsCoarsely response)) ∧
    (∀ peer, w.db.SeesExactly viewer peer ↔ w.db.SeesExactly peer viewer) ∧
    (∀ peer w', peer ≠ viewer → SameBut peer w w' →
      ∀ response ∈ w.loadSnapshot viewer userIds, ∀ response' ∈ w'.loadSnapshot viewer userIds,
        response.uid = peer → response'.uid = peer →
        (w.db.Blocks viewer peer → response' = response) ∧
        (¬w.db.SeesExactly viewer peer →
          (∃ bucket, w.Bucket peer bucket ∧ w'.Bucket peer bucket) → response' = response)) ∧
    ∀ db events s t users, run (Refresh.step viewer userIds) (Refresh.start db) events = some s →
      s.step viewer userIds .receive = some t → t.phase = .returned (some users) →
      ∃ w' : World, users = w'.loadSnapshot viewer userIds ∧
        ∀ peer ∈ userIds, (∀ change ∈ s.unannounced, ¬change.Concerns viewer peer) →
          SamePolicy viewer peer s.db w'.db ∧
            (w'.db.SeesExactly viewer peer ↔ s.db.SeesExactly viewer peer) := by
  refine ⟨⟨?_, fun uid => ?_⟩, fun response hresponse => ⟨fun hsees => ?_, ?_, ?_⟩,
    fun peer => seesExactly_comm w.db viewer peer,
    fun peer w' hne hsame response hresponse response' hresponse' huid huid' =>
      response_sameBut hne hsame hresponse hresponse' huid huid',
    fun db events s t users hrun ht hreturned => ?_⟩
  · rw [loadSnapshot_uids]
    exact (nodup_uniqueI32 userIds).filter _
  · rw [loadSnapshot_uids, List.mem_filter, mem_uniqueI32]
    exact and_congr_right fun hmem => candidate_iff (mem_uniqueI32.mpr hmem)
  · by_cases hself : response.uid = viewer
    · exact response_self hresponse hself
    · exact (response_shown hresponse hself).1 (hsees.resolve_left hself)
  · exact fun hne => (response_shown hresponse hne).2.1
  · exact fun hne => (response_shown hresponse hne).2.2
  · have hinv : s.Inv viewer userIds :=
      run_invariant Refresh.inv_step (Refresh.inv_start viewer userIds db) hrun
    obtain ⟨⟨w', husers, hpeers⟩, hreceived⟩ := Refresh.built_of_returned hinv ht hreturned
    refine ⟨w', husers, fun peer hpeer hannounced => ?_⟩
    have hsame : SamePolicy viewer peer s.db w'.db := by
      refine (hpeers peer hpeer).resolve_left fun hout => ?_
      obtain ⟨change, hmem, hconcerns⟩ := hout
      rw [hreceived, List.append_nil] at hmem
      exact hannounced change hmem hconcerns
    exact ⟨hsame, hsame.seesExactly_iff⟩

/-- Two friends, one of whom is listed twice and connected. -/
def listedTwice : World where
  db :=
    { friendships := Table.empty.upsert (1, 2) ⟨0, none, none⟩
      blocks := .empty
      groups := .empty
      groupMembership := .empty
      userExtra := .empty }
  connections := fun uid => if uid = 2 then [⟨false, 0, .active, 0⟩] else []
  nowSecs := 0
  observedBefore := []
  observedAfter := []
  now := 0

/-- The friend blocks the viewer after the friendship was read; the announcement comes while the
snapshot is checked, so another one is loaded. -/
def blockedMeanwhile : List RefreshEvent :=
  [.receive, .read, .writePolicy (.block 2 1 true), .read, .read, .read, .loaded listedTwice,
    .announce (.pairPolicy 2 1), .receive, .receive, .receive, .read, .read, .read, .read,
    .loaded listedTwice]

theorem presence_policy_friends :
    ((listedTwice.loadSnapshot 1 [2, 2]).map UserPresenceResponse.uid).Nodup ∧
    (∃ response ∈ listedTwice.loadSnapshot 1 [2, 2], response.uid = 2 ∧ response.online = true) ∧
    ∃ s t users, run (Refresh.step 1 [2, 2]) (Refresh.start listedTwice.db) blockedMeanwhile =
        some s ∧ s.step 1 [2, 2] .receive = some t ∧ t.phase = .returned (some users) ∧
      ∃ w' : World, users = w'.loadSnapshot 1 [2, 2] ∧ ¬w'.db.SeesExactly 1 2 := by
  obtain ⟨⟨hnodup, hmem⟩, hshown, -, -, hloop⟩ := presence_policy listedTwice 1 [2, 2]
  refine ⟨hnodup, ?_, ?_⟩
  · obtain ⟨response, hresponse, huid⟩ :=
      List.mem_map.mp ((hmem 2).mpr ⟨by decide, .inr (.inl rfl)⟩)
    have hsees : listedTwice.db.SeesExactly 1 2 := by
      refine ⟨?_, ?_, ?_⟩
      · intro hblocks
        rcases hblocks with hblocks | hblocks <;> cases hblocks
      · exact trivial
      · exact trivial
    refine ⟨response, hresponse, huid, ?_⟩
    refine ((hshown response hresponse).1 (.inr (huid ▸ hsees))).online.mpr ?_
    rw [huid]
    exact ⟨⟨false, 0, .active, 0⟩, ⟨List.mem_singleton_self _, rfl, by decide⟩, rfl⟩
  · obtain ⟨s, t, users, hs, ht, hreturned, hblocked, hannounced⟩ : ∃ s t users,
        run (Refresh.step 1 [2, 2]) (Refresh.start listedTwice.db) blockedMeanwhile = some s ∧
        s.step 1 [2, 2] .receive = some t ∧ t.phase = .returned (some users) ∧
        s.db.Blocks 1 2 ∧ s.unannounced = [] :=
      ⟨_, _, _, rfl, rfl, rfl, .inr rfl, rfl⟩
    obtain ⟨w', husers, hpeers⟩ := hloop _ _ s t users hs ht hreturned
    have hpeer := (hpeers 2 (by decide) (by simp [hannounced])).2
    exact ⟨s, t, users, hs, ht, hreturned, w', husers, fun hsees => (hpeer.mp hsees).1 hblocked⟩

theorem loadVisibleUsers_repeats :
    (listedTwice.loadVisibleUsers 1 [2, 2]).map UserPresenceResponse.uid = [2, 2] := by
  decide +kernel

end Chahua.Presence

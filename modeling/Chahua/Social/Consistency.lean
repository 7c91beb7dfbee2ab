import Chahua.Social.Requests

namespace Chahua.Social

open Framework

theorem canonicalPair_comm (a b : Int) : canonicalPair a b = canonicalPair b a := by
  unfold canonicalPair
  split <;> split
  · omega
  · rfl
  · rfl
  · have heq : a = b := by omega
    rw [heq]

theorem canonicalPair_lt {a b : Int} (h : a ≠ b) : (canonicalPair a b).1 < (canonicalPair a b).2 := by
  unfold canonicalPair
  split
  · next hlt => exact hlt
  · show b < a
    omega

theorem canonicalPair_members (a b : Int) :
    canonicalPair a b = (a, b) ∨ canonicalPair a b = (b, a) := by
  unfold canonicalPair
  split
  · exact .inl rfl
  · exact .inr rfl

namespace Database

structure RequestsOk (db : Database) : Prop where
  distinct : ∀ id r, db.friendRequests.row id = some r → r.fromUid ≠ r.toUid
  decided : ∀ id r, db.friendRequests.row id = some r → r.decidedAt.isSome = !r.isUnresolved
  one : ∀ id id' r r', db.friendRequests.row id = some r → db.friendRequests.row id' = some r' →
    r.isUnresolved = true → r'.isUnresolved = true → r.pair = r'.pair → id = id'

structure DmsOk (db : Database) : Prop where
  members : ∀ pair, ∀ id ∈ db.dmsOf pair,
    (id, pair.1) ∈ db.groupMembership ∧ (id, pair.2) ∈ db.groupMembership
  one : ∀ pair, ∀ id ∈ db.dmsOf pair, ∀ id' ∈ db.dmsOf pair, id = id'

/-- What holds of the four tables in every committed state. -/
structure Consistent (db : Database) : Prop where
  requests : db.RequestsOk
  dms : db.DmsOk
  canonical : ∀ pair f, db.friendships.row pair = some f → pair.1 < pair.2
  linked : ∀ pair f, db.friendships.row pair = some f → (db.dmsOf pair).Nonempty

variable {db after : Database}

theorem mem_dmsOf {pair : Int × Int} {id : Int} :
    id ∈ db.dmsOf pair ↔ ∃ group, db.groups.row id = some group ∧ isDmOf pair group = true :=
  Table.mem_select

theorem isDmOf_unique {pair pair' : Int × Int} {group : Group} (h : isDmOf pair group = true)
    (h' : isDmOf pair' group = true) : pair = pair' := by
  simp only [isDmOf, Bool.and_eq_true, decide_eq_true_eq] at h h'
  have hfst : pair.1 = pair'.1 := Option.some.inj (h.1.2.symm.trans h'.1.2)
  have hsnd : pair.2 = pair'.2 := Option.some.inj (h.2.symm.trans h'.2)
  exact Prod.ext hfst hsnd

theorem isDmOf_dm (pair : Int × Int) (name : String) :
    isDmOf pair ⟨name, .dm, some pair.1, some pair.2⟩ = true := by
  simp [isDmOf]

/-- A new group is the one DM of its pair, and both users are in it. -/
theorem newDm_ok {id a b : Int} {name : String} (hdms : db.DmsOk) (hid : db.groups.row id = none)
    (hnone : db.dmsOf (canonicalPair a b) = ∅) :
    let after : Database := { db with
      groups := db.groups.upsert id
        ⟨name, .dm, some (canonicalPair a b).1, some (canonicalPair a b).2⟩
      groupMembership := insert (id, a) (insert (id, b) db.groupMembership) }
    after.DmsOk ∧ (after.dmsOf (canonicalPair a b)).Nonempty ∧
      (∀ pair, (db.dmsOf pair).Nonempty → (after.dmsOf pair).Nonempty) ∧
      after.friendRequests = db.friendRequests ∧ after.friendships = db.friendships := by
  intro after
  have hnew : ∀ pair, id ∈ after.dmsOf pair ↔ pair = canonicalPair a b := by
    intro pair
    rw [mem_dmsOf]
    constructor
    · intro h
      obtain ⟨group, hgroup, hdm⟩ := h
      have heq := Option.some.inj ((Table.upsert_row_self _ _ _).symm.trans hgroup)
      exact isDmOf_unique hdm (heq ▸ isDmOf_dm (canonicalPair a b) name)
    · intro h
      exact ⟨_, Table.upsert_row_self _ _ _, h ▸ isDmOf_dm (canonicalPair a b) name⟩
  have hold : ∀ pair, ∀ other ≠ id, other ∈ after.dmsOf pair ↔ other ∈ db.dmsOf pair := by
    intro pair other hne
    rw [mem_dmsOf, mem_dmsOf]
    simp only [after, Table.upsert_row_ne _ _ hne]
  have hne : ∀ pair, ∀ other ∈ db.dmsOf pair, other ≠ id := by
    intro pair other hother heq
    obtain ⟨group, hgroup, -⟩ := mem_dmsOf.mp hother
    rw [heq, hid] at hgroup
    cases hgroup
  refine ⟨⟨fun pair other hother => ?_, fun pair other hother other' hother' => ?_⟩, ?_, ?_, rfl, rfl⟩
  · by_cases heq : other = id
    · subst heq
      obtain rfl := (hnew pair).mp hother
      rcases canonicalPair_members a b with hpair | hpair
      · rw [hpair]
        simp [after]
      · rw [hpair]
        simp [after]
    · have hmembers := hdms.members pair other ((hold pair other heq).mp hother)
      exact ⟨Finset.mem_insert_of_mem (Finset.mem_insert_of_mem hmembers.1),
        Finset.mem_insert_of_mem (Finset.mem_insert_of_mem hmembers.2)⟩
  · have hself : ∀ x ∈ after.dmsOf pair, x ≠ id → pair ≠ canonicalPair a b := by
      intro x hx hxid heq
      have hmem := (hold pair x hxid).mp hx
      rw [heq, hnone] at hmem
      exact Finset.notMem_empty x hmem
    by_cases heq : other = id <;> by_cases heq' : other' = id
    · rw [heq, heq']
    · exact absurd ((hnew pair).mp (heq ▸ hother)) (hself other' hother' heq')
    · exact absurd ((hnew pair).mp (heq' ▸ hother')) (hself other hother heq)
    · exact hdms.one pair other ((hold pair other heq).mp hother) other'
        ((hold pair other' heq').mp hother')
  · exact ⟨id, (hnew _).mpr rfl⟩
  · intro pair hpair
    obtain ⟨other, hother⟩ := hpair
    exact ⟨other, (hold pair other (hne pair other hother)).mpr hother⟩

/-- The DM of an acceptance: an existing one of the pair or a new one with both members. -/
theorem createDmForFriendship_ok {id dmId : Int} {a b : Int}
    (h : db.createDmForFriendship id a b = .ok (after, dmId)) (hdms : db.DmsOk) :
    after.DmsOk ∧ (after.dmsOf (canonicalPair a b)).Nonempty ∧
      (∀ pair, (db.dmsOf pair).Nonempty → (after.dmsOf pair).Nonempty) ∧
      after.friendRequests = db.friendRequests ∧ after.friendships = db.friendships := by
  unfold createDmForFriendship at h
  simp only at h
  split at h
  · split at h
    · split at h
      · next existing hexisting =>
        cases h
        exact ⟨hdms, ⟨_, Finset.mem_of_min hexisting⟩, fun _ hne => hne, rfl, rfl⟩
      · cases h
    · next hfree =>
      split at h
      · cases h
      · cases h
        simp only [Bool.or_eq_true, decide_eq_true_eq, not_or, Bool.not_eq_true,
          Option.isSome_eq_false_iff, Option.isNone_iff_eq_none,
          Finset.not_nonempty_iff_eq_empty] at hfree
        obtain ⟨hid, hnone⟩ := hfree
        exact newDm_ok hdms hid hnone
  · cases h

theorem RequestsOk.upsert (h : db.RequestsOk) {id : Int} {r : FriendRequest}
    (hdistinct : r.fromUid ≠ r.toUid) (hdecided : r.decidedAt.isSome = !r.isUnresolved)
    (hone : r.isUnresolved = true → ∀ other ≠ id, ∀ r', db.friendRequests.row other = some r' →
      r'.isUnresolved = true → r'.pair ≠ r.pair) :
    ({ db with friendRequests := db.friendRequests.upsert id r } : Database).RequestsOk := by
  have hrow : ∀ other r', (db.friendRequests.upsert id r).row other = some r' →
      other = id ∧ r' = r ∨ other ≠ id ∧ db.friendRequests.row other = some r' := by
    intro other r' hr'
    by_cases heq : other = id
    · rw [heq, Table.upsert_row_self] at hr'
      exact .inl ⟨heq, (Option.some.inj hr').symm⟩
    · rw [Table.upsert_row_ne _ _ heq] at hr'
      exact .inr ⟨heq, hr'⟩
  refine ⟨fun other r' hr' => ?_, fun other r' hr' => ?_, fun other other' r₁ r₂ h₁ h₂ hu₁ hu₂ hp => ?_⟩
  · rcases hrow other r' hr' with ⟨-, rfl⟩ | ⟨-, hold⟩
    · exact hdistinct
    · exact h.distinct other r' hold
  · rcases hrow other r' hr' with ⟨-, rfl⟩ | ⟨-, hold⟩
    · exact hdecided
    · exact h.decided other r' hold
  · rcases hrow other r₁ h₁ with ⟨rfl, rfl⟩ | ⟨hne₁, hold₁⟩ <;>
      rcases hrow other' r₂ h₂ with ⟨rfl, rfl⟩ | ⟨hne₂, hold₂⟩
    · rfl
    · exact absurd hp.symm (hone hu₁ other' hne₂ r₂ hold₂ hu₂)
    · exact absurd hp (hone hu₂ other hne₁ r₁ hold₁ hu₁)
    · exact h.one other other' r₁ r₂ hold₁ hold₂ hu₁ hu₂ hp

/-- The four tables a failed call must leave alone. -/
def SameTables (before after : Database) : Prop :=
  after.friendRequests = before.friendRequests ∧ after.friendships = before.friendships ∧
    after.groups = before.groups ∧ after.groupMembership = before.groupMembership

/-- A decided request stays as it is; one that is not may be archived or decided. -/
def RequestsFollow (before after : Database) : Prop :=
  ∀ id r, before.friendRequests.row id = some r → ∃ r', after.friendRequests.row id = some r' ∧
    r'.fromUid = r.fromUid ∧ r'.toUid = r.toUid ∧ (r.isUnresolved = false → r' = r)

/-- A new friendship comes with the acceptance of one request of the pair by its recipient, and
no other request changes. -/
def Befriends (before after : Database) (caller : Option Int) : Prop :=
  ∀ pair, before.friendships.row pair = none → (after.friendships.row pair).isSome = true →
    ∃ id r now, before.friendRequests.row id = some r ∧ r.isUnresolved = true ∧ r.pair = pair ∧
      caller = some r.toUid ∧ after.friendRequests =
        before.friendRequests.upsert id { r with status := .accepted, decidedAt := some now }

structure Follows (before after : Database) (caller : Option Int) : Prop where
  consistent : after.Consistent
  requests : before.RequestsFollow after
  befriends : before.Befriends after caller

theorem RequestsFollow.of_eq (h : after.friendRequests = db.friendRequests) :
    db.RequestsFollow after := by
  intro id r hr
  exact ⟨r, h ▸ hr, rfl, rfl, fun _ => rfl⟩

theorem RequestsFollow.upsert {id : Int} {r r' : FriendRequest}
    (hr : db.friendRequests.row id = some r) (hunresolved : r.isUnresolved = true)
    (hfrom : r'.fromUid = r.fromUid) (hto : r'.toUid = r.toUid)
    (h : after.friendRequests = db.friendRequests.upsert id r') : db.RequestsFollow after := by
  intro other r₁ hr₁
  by_cases heq : other = id
  · subst heq
    cases hr.symm.trans hr₁
    refine ⟨r', by rw [h, Table.upsert_row_self], hfrom, hto, fun hdecided => ?_⟩
    rw [hunresolved] at hdecided
    cases hdecided
  · exact ⟨r₁, by rw [h, Table.upsert_row_ne _ _ heq, hr₁], rfl, rfl, fun _ => rfl⟩

theorem Befriends.of_le {caller : Option Int}
    (h : ∀ pair, db.friendships.row pair = none → after.friendships.row pair = none) :
    db.Befriends after caller := by
  intro pair hnone hsome
  rw [h pair hnone] at hsome
  cases hsome

theorem SameTables.follows (h : db.SameTables after) (hdb : db.Consistent) (caller : Option Int) :
    db.Follows after caller := by
  obtain ⟨hrequests, hfriendships, hgroups, hmembers⟩ := h
  have hdms : after.dmsOf = db.dmsOf := by
    funext pair
    simp only [dmsOf, hgroups]
  refine ⟨⟨⟨?_, ?_, ?_⟩, ⟨?_, ?_⟩, ?_, ?_⟩, .of_eq hrequests, .of_le fun pair hnone => ?_⟩
  · rw [hrequests]
    exact hdb.requests.distinct
  · rw [hrequests]
    exact hdb.requests.decided
  · rw [hrequests]
    exact hdb.requests.one
  · rw [hdms, hmembers]
    exact hdb.dms.members
  · rw [hdms]
    exact hdb.dms.one
  · rw [hfriendships]
    exact hdb.canonical
  · rw [hfriendships, hdms]
    exact hdb.linked
  · rw [hfriendships, hnone]

/-- A change of one undecided request and of nothing else. -/
theorem Follows.upsert (h : db.Consistent) {id : Int} {r : FriendRequest} (r' : FriendRequest)
    (hr : db.friendRequests.row id = some r) (hunresolved : r.isUnresolved = true)
    (hfrom : r'.fromUid = r.fromUid) (hto : r'.toUid = r.toUid)
    (hdecided : r'.decidedAt.isSome = !r'.isUnresolved) (caller : Option Int) :
    db.Follows { db with friendRequests := db.friendRequests.upsert id r' } caller := by
  have hpair : r'.pair = r.pair := by rw [FriendRequest.pair, hfrom, hto, FriendRequest.pair]
  refine ⟨⟨h.requests.upsert ?_ hdecided ?_, ⟨h.dms.members, h.dms.one⟩, h.canonical,
    h.linked⟩,
    .upsert hr hunresolved hfrom hto rfl, .of_le fun _ hnone => hnone⟩
  · rw [hfrom, hto]
    exact h.requests.distinct id r hr
  · intro _ other hne r₁ hr₁ hu₁ hp
    exact hne (h.requests.one other id r₁ r hr₁ hr hu₁ hunresolved (hp.trans hpair))

theorem insertFriendship_row (db : Database) (a b initiatedBy now : Int) (pair : Int × Int) :
    (db.insertFriendship a b initiatedBy now).friendships.row pair =
      if pair = canonicalPair a b then
        some ((db.friendships.row pair).getD ⟨initiatedBy, now⟩)
      else db.friendships.row pair := by
  unfold insertFriendship areMutualFriends
  split
  · next hfriends =>
    split
    · next heq =>
      obtain ⟨f, hf⟩ := Option.isSome_iff_exists.mp hfriends
      rw [heq, hf]
      rfl
    · rfl
  · next hfriends =>
    rw [Table.upsert_row]
    split
    · next heq =>
      rw [heq, Option.not_isSome_iff_eq_none.mp hfriends]
      rfl
    · rfl

theorem insertFriendship_rest (db : Database) (a b initiatedBy now : Int) :
    (db.insertFriendship a b initiatedBy now).friendRequests = db.friendRequests ∧
      (db.insertFriendship a b initiatedBy now).groups = db.groups ∧
      (db.insertFriendship a b initiatedBy now).groupMembership = db.groupMembership := by
  unfold insertFriendship
  split <;> exact ⟨rfl, rfl, rfl⟩

/-- An acceptance by the recipient: the request, the friendship and the DM in one transaction. -/
theorem acceptRequest_follows (h : db.Consistent) {id a b initiatedBy now dmGroupId : Int}
    {r : FriendRequest} (hr : db.friendRequests.row id = some r)
    (hunresolved : r.isUnresolved = true) (hpair : r.pair = canonicalPair a b)
    (hok : db.acceptRequest id r a b initiatedBy now dmGroupId = .ok after) :
    db.Follows after (some r.toUid) := by
  unfold acceptRequest at hok
  cases hdm : ((db.decideRequest id now .accepted r).insertFriendship a b initiatedBy
      now).createDmForFriendship dmGroupId a b with
  | error e => simp [hdm, Except.map] at hok
  | ok result =>
    obtain ⟨created, dmId⟩ := result
    rw [hdm] at hok
    obtain rfl : created = after := by simpa [Except.map] using hok
    have hdecide : db.Follows (db.decideRequest id now .accepted r) (some r.toUid) :=
      Follows.upsert h { r with status := .accepted, decidedAt := some now } hr hunresolved rfl rfl
        rfl _
    obtain ⟨hrequests, hgroups, hmembers⟩ :=
      insertFriendship_rest (db.decideRequest id now .accepted r) a b initiatedBy now
    have hsame : ((db.decideRequest id now .accepted r).insertFriendship a b initiatedBy
        now).dmsOf = db.dmsOf := by
      funext pair
      simp only [dmsOf, hgroups]
      rfl
    have hdms : ((db.decideRequest id now .accepted r).insertFriendship a b initiatedBy
        now).DmsOk := by
      refine ⟨?_, ?_⟩
      · rw [hsame, hmembers]
        exact h.dms.members
      · rw [hsame]
        exact h.dms.one
    obtain ⟨hcreated, hnonempty, hkept, hrequests', hfriendships⟩ :=
      createDmForFriendship_ok hdm hdms
    have htable : created.friendRequests = (db.decideRequest id now .accepted r).friendRequests :=
      hrequests'.trans hrequests
    have hfriend : ∀ pair, created.friendships.row pair = if pair = canonicalPair a b then
        some ((db.friendships.row pair).getD ⟨initiatedBy, now⟩) else db.friendships.row pair := by
      intro pair
      rw [hfriendships, insertFriendship_row]
      rfl
    refine ⟨⟨⟨?_, ?_, ?_⟩, hcreated, fun pair f hf => ?_, fun pair f hf => ?_⟩, ?_, ?_⟩
    · rw [htable]
      exact hdecide.consistent.requests.distinct
    · rw [htable]
      exact hdecide.consistent.requests.decided
    · rw [htable]
      exact hdecide.consistent.requests.one
    · rw [hfriend] at hf
      split at hf
      · next heq =>
        rw [heq, ← hpair]
        exact canonicalPair_lt (h.requests.distinct id r hr)
      · exact h.canonical pair f hf
    · rw [hfriend] at hf
      split at hf
      · next heq => exact heq ▸ hnonempty
      · exact hkept pair (hsame ▸ h.linked pair f hf)
    · intro other r₁ hr₁
      obtain ⟨r', hr', hrest⟩ := hdecide.requests other r₁ hr₁
      exact ⟨r', htable ▸ hr', hrest⟩
    · intro pair hnone hsome
      rw [hfriend] at hsome
      split at hsome
      · next heq => exact ⟨id, r, now, hr, hunresolved, hpair.trans heq.symm, rfl, htable⟩
      · rw [hnone] at hsome
        cases hsome

end Database

end Chahua.Social

import Chahua.Presence.Snapshots

namespace Chahua.Presence

open Framework

variable {w w' : World} {viewer peer : Int} {userIds : List Int}

theorem mem_uniqueI32 {values : List Int} {value : Int} :
    value ∈ uniqueI32 values ↔ value ∈ values := by
  rw [uniqueI32, List.mem_dedup, List.mem_mergeSort]

theorem nodup_uniqueI32 (values : List Int) : (uniqueI32 values).Nodup := List.nodup_dedup _

theorem personalPresence_active : w.personalPresence peer = some .active ↔ w.Active peer := by
  have hany : ((w.connections peer).filter fun entry => !entry.isClosed &&
      decide (w.nowSecs - entry.lastPingAt ≤ staleConnectionTimeoutSecs)).any
        (fun entry => decide (entry.state = .active)) = true ↔ w.Active peer := by
    simp [World.Active, World.Fresh, and_assoc]
  unfold World.personalPresence personalPresenceAt
  dsimp only
  split
  · next h => exact ⟨fun _ => hany.mp h, fun _ => rfl⟩
  · next h =>
    refine ⟨fun heq => ?_, fun hactive => absurd (hany.mpr hactive) h⟩
    split at heq <;> cases heq

theorem personalPresence_inactive : w.personalPresence peer = some .inactive ↔ w.Away peer := by
  have hany : ((w.connections peer).filter fun entry => !entry.isClosed &&
      decide (w.nowSecs - entry.lastPingAt ≤ staleConnectionTimeoutSecs)).any
        (fun entry => decide (entry.lastTransitionAt ≠ 0) &&
          decide (w.nowSecs - entry.lastTransitionAt < awayTimeoutSecs)) = true ↔
      ∃ connection, w.Fresh peer connection ∧ connection.lastTransitionAt ≠ 0 ∧
        w.nowSecs - connection.lastTransitionAt < awayTimeoutSecs := by
    simp [World.Fresh, and_assoc]
  have hactive : w.personalPresence peer = some .active ↔ w.Active peer :=
    personalPresence_active
  unfold World.Away
  rw [← hactive, ← hany]
  unfold World.personalPresence personalPresenceAt
  dsimp only
  split
  · exact ⟨fun heq => (by cases heq), fun h => absurd rfl h.1⟩
  · split
    · next h => exact ⟨fun _ => ⟨fun heq => (by cases heq), h⟩, fun _ => rfl⟩
    · next h => exact ⟨fun heq => (by cases heq), fun hboth => absurd hboth.2 h⟩

theorem personalPresence_isSome :
    (w.personalPresence peer).isSome = true ↔ w.Active peer ∨ w.Away peer := by
  rw [← personalPresence_active, ← personalPresence_inactive, Option.isSome_iff_exists]
  constructor
  · intro h
    obtain ⟨state, hstate⟩ := h
    cases state with
    | active => exact .inl hstate
    | inactive => exact .inr hstate
  · intro h
    rcases h with h | h
    · exact ⟨_, h⟩
    · exact ⟨_, h⟩

theorem Newest.unique {times : Int → Prop} {a b : Option Int} (ha : Newest times a)
    (hb : Newest times b) : a = b := by
  cases a with
  | none =>
    cases b with
    | none => rfl
    | some b => exact absurd hb.1 (ha b)
  | some a =>
    cases b with
    | none => exact absurd ha.1 (hb a)
    | some b => rw [le_antisymm (hb.2 a ha.1) (ha.2 b hb.1)]

theorem Newest.of_iff {times times' : Int → Prop} {a : Option Int} (h : Newest times a)
    (hiff : ∀ time, times time ↔ times' time) : Newest times' a := by
  obtain rfl : times = times' := funext fun time => propext (hiff time)
  exact h

theorem newest_later {times times' : Int → Prop} {a b : Option Int} (ha : Newest times a)
    (hb : Newest times' b) : Newest (fun time => times time ∨ times' time) (World.later a b) := by
  cases a with
  | none =>
    have hnone : ∀ time, times' time ↔ times time ∨ times' time := fun time =>
      ⟨.inr, fun h => h.resolve_left (ha time)⟩
    exact hb.of_iff hnone
  | some a =>
    cases b with
    | none =>
      have hnone : ∀ time, times time ↔ times time ∨ times' time := fun time =>
        ⟨.inl, fun h => h.resolve_right (hb time)⟩
      exact ha.of_iff hnone
    | some b =>
      refine ⟨?_, fun other hother => ?_⟩
      · show times (max a b) ∨ times' (max a b)
        rcases le_total a b with hle | hle
        · rw [max_eq_right hle]
          exact .inr hb.1
        · rw [max_eq_left hle]
          exact .inl ha.1
      · rcases hother with hother | hother
        · exact (ha.2 other hother).trans (le_max_left a b)
        · exact (hb.2 other hother).trans (le_max_right a b)

theorem newest_latest {pending : List Observation} {times : Int → Prop} {persisted : Option Int}
    (h : Newest times persisted) (uid : Int) :
    Newest (fun time => times time ∨ ⟨uid, time⟩ ∈ pending) (latest pending uid persisted) := by
  induction pending generalizing times persisted with
  | nil => exact h.of_iff fun time => by simp
  | cons observed pending ih =>
    by_cases huid : observed.uid = uid
    · have hfirst : Newest (fun time => time = observed.at') (some observed.at') :=
        ⟨rfl, fun other heq => heq.le⟩
      have hnext := ih (newest_later h hfirst)
      have hlatest : latest (observed :: pending) uid persisted =
          latest pending uid (World.later persisted (some observed.at')) := by
        unfold latest
        rw [List.filter_cons_of_pos (by simpa using huid), List.foldl_cons]
        cases persisted <;> rfl
      rw [hlatest]
      refine hnext.of_iff fun time => ?_
      have hobserved : (⟨uid, time⟩ : Observation) = observed ↔ time = observed.at' := by
        subst huid
        cases observed
        simp
      rw [List.mem_cons, hobserved, or_assoc]
    · have hlatest : latest (observed :: pending) uid persisted = latest pending uid persisted := by
        unfold latest
        rw [List.filter_cons_of_neg (by simpa using huid)]
      rw [hlatest]
      refine (ih h).of_iff fun time => ?_
      have hne : (⟨uid, time⟩ : Observation) ≠ observed := by
        intro heq
        exact huid (heq ▸ rfl)
      simp [hne]

theorem newest_lastSeenOf (w : World) (uid : Int) : Newest (w.SeenAt uid) (w.lastSeenOf uid) := by
  have hstored : Newest (fun time => (w.db.userExtra.row uid).map UserExtra.lastSeenAt = some time)
      ((w.db.userExtra.row uid).map (·.lastSeenAt)) := by
    cases (w.db.userExtra.row uid).map UserExtra.lastSeenAt with
    | none => exact fun other hother => by cases hother
    | some time => exact ⟨rfl, fun other hother => (Option.some.inj hother).ge⟩
  have hnone : Newest (fun _ => False) none := fun _ h => h
  have hbefore : Newest (fun time => False ∨ ⟨uid, time⟩ ∈ w.observedBefore)
      (latest w.observedBefore uid none) := newest_latest hnone uid
  refine (newest_latest (newest_later hstored hbefore) uid).of_iff fun time => ?_
  unfold World.SeenAt
  rw [false_or, or_assoc]

theorem numDays_lt {elapsed days : Int} (h : 0 < days) : numDays elapsed < days ↔
    elapsed < days * day := by
  have hday : (0 : Int) < 86400000000000 := by decide
  unfold numDays day
  rcases le_or_gt 0 elapsed with hle | hlt
  · rw [Int.tdiv_eq_ediv_of_nonneg hle, Int.ediv_lt_iff_lt_mul hday]
  · have hneg : elapsed.tdiv 86400000000000 ≤ 0 := by
      have := Int.tdiv_nonneg (a := -elapsed) (by omega) hday.le
      rw [Int.neg_tdiv] at this
      omega
    constructor
    · intro _
      omega
    · intro _
      omega

theorem bucket_coarseBucket (w : World) (uid : Int) : w.Bucket uid (w.coarseBucket uid) := by
  unfold World.coarseBucket lastSeenBucket World.Bucket
  rw [← personalPresence_isSome]
  split
  · next h => exact .inl ⟨h, rfl⟩
  · next h =>
    refine .inr ⟨h, w.lastSeenOf uid, newest_lastSeenOf w uid, congrArg (Option.map · _) ?_⟩
    funext time
    unfold bucketAfter
    simp only [← numDays_lt (show (0 : Int) < 3 by decide),
      ← numDays_lt (show (0 : Int) < 7 by decide), ← numDays_lt (show (0 : Int) < 30 by decide)]

theorem World.Bucket.unique {uid : Int} {a b : Option LastSeenBucket} (ha : w.Bucket uid a)
    (hb : w.Bucket uid b) : a = b := by
  obtain ⟨hthere, rfl⟩ | ⟨hgone, seen, hseen, rfl⟩ := ha
  · obtain ⟨-, rfl⟩ | ⟨hnot, -⟩ := hb
    · rfl
    · exact absurd hthere hnot
  · obtain ⟨hthere, -⟩ | ⟨-, seen', hseen', rfl⟩ := hb
    · exact absurd hthere hgone
    · rw [hseen.unique hseen']

theorem showsExactly (w : World) (uid : Int) : w.ShowsExactly
    (userPresence uid true (w.personalPresence uid) (w.lastSeenOf uid) w.now) where
  online := by simp [userPresence, personalPresence_active]
  away := by simp [userPresence, personalPresence_inactive]
  notAway := by simp [userPresence, personalPresence_inactive]
  lastSeenAt := newest_lastSeenOf w uid
  lastSeenBucket := rfl

theorem showsCoarsely (w : World) (uid : Int) : w.ShowsCoarsely
    (userPresence uid false (w.personalPresence uid) (w.lastSeenOf uid) w.now) where
  online := rfl
  away := rfl
  lastSeenAt := rfl
  lastSeenBucket := bucket_coarseBucket w uid

theorem loadVisibleUser_self (hmem : viewer ∈ userIds) : w.loadVisibleUser viewer userIds viewer =
    userPresence viewer true (w.personalPresence viewer) (w.lastSeenOf viewer) w.now := by
  have hnone : peerRelationships w.db viewer (userIds.filter (· ≠ viewer)) viewer = none := by
    simp [peerRelationships]
  have hlastSeen : latest w.observedAfter viewer (World.later
      ((w.presenceByUid viewer userIds viewer).map (·.lastSeenAt))
      (w.observedByUid viewer userIds viewer)) = w.lastSeenOf viewer := by
    rw [World.presenceByUid, World.observedByUid, if_pos viewer_mem_policyUids,
      if_pos viewer_mem_policyUids]
    rfl
  unfold World.loadVisibleUser
  rw [hnone]
  dsimp only [Option.bind_none]
  rw [hlastSeen, decide_eq_true rfl, Bool.true_or]
  rfl

theorem loadVisibleUser_blocked (hmem : peer ∈ userIds) (hne : peer ≠ viewer)
    (hblocks : w.db.Blocks viewer peer) :
    w.loadVisibleUser viewer userIds peer = ⟨peer, false, none, none, some .longAgo⟩ := by
  have hboth : (w.db.blocks.row (viewer, peer)).isSome || (w.db.blocks.row (peer, viewer)).isSome :=
    by simpa [Database.Blocks] using hblocks
  unfold World.loadVisibleUser
  rw [peerRelationships_eq w.db (mem_peers hmem hne) hne]
  dsimp only [Option.bind_some, blockedPresence]
  rw [if_pos hboth]

/-- An unblocked peer is shown exactly when both sides share, with what is known of them. -/
theorem loadVisibleUser_unblocked (hmem : peer ∈ userIds) (hne : peer ≠ viewer)
    (hcandidate : w.candidate viewer userIds peer = true) (hblocks : ¬w.db.Blocks viewer peer) :
    ∃ exact : Bool, (exact = true ↔ w.db.Shares viewer peer ∧ w.db.Shares peer viewer) ∧
      w.loadVisibleUser viewer userIds peer =
        userPresence peer exact (w.personalPresence peer) (w.lastSeenOf peer) w.now := by
  have hpolicy := mem_policyUids hmem hcandidate (.inr hblocks)
  have hnone : ¬((w.db.blocks.row (viewer, peer)).isSome ||
      (w.db.blocks.row (peer, viewer)).isSome) = true := by
    simpa [Database.Blocks] using hblocks
  have hlastSeen : latest w.observedAfter peer (World.later
      ((w.presenceByUid viewer userIds peer).map (·.lastSeenAt))
      (w.observedByUid viewer userIds peer)) = w.lastSeenOf peer := by
    rw [World.presenceByUid, World.observedByUid, if_pos hpolicy, if_pos hpolicy]
    rfl
  have hpeer : ((w.db.friendship viewer peer).map (·.createdAt)).isSome =
      ((w.db.friendship peer viewer).map (·.createdAt)).isSome := by
    rw [friendship_comm]
  refine ⟨sharesPresence (w.visibilityOf viewer userIds viewer)
      ((w.db.friendship viewer peer).map (·.createdAt)).isSome (w.db.presenceOverride viewer peer) &&
    sharesPresence (w.visibilityOf viewer userIds peer)
      ((w.db.friendship viewer peer).map (·.createdAt)).isSome (w.db.presenceOverride peer viewer),
    ?_, ?_⟩
  · rw [Bool.and_eq_true, visibilityOf_eq viewer_mem_policyUids, visibilityOf_eq hpolicy,
      sharesPresence_iff, hpeer, sharesPresence_iff]
  · unfold World.loadVisibleUser
    rw [peerRelationships_eq w.db (mem_peers hmem hne) hne]
    dsimp only [Option.bind_some, blockedPresence]
    rw [if_neg hnone]
    dsimp only
    rw [hlastSeen, decide_eq_false hne]
    rfl

/-- The users of a snapshot, with their responses. -/
theorem mem_loadSnapshot {response : UserPresenceResponse} :
    response ∈ w.loadSnapshot viewer userIds ↔
      ∃ uid ∈ userIds, (uid = viewer ∨ w.db.Visible viewer uid) ∧
        w.loadVisibleUser viewer (uniqueI32 userIds) uid = response := by
  unfold World.loadSnapshot World.loadVisibleUsers
  simp only [List.mem_map, List.mem_filter, mem_uniqueI32]
  constructor
  · intro h
    obtain ⟨uid, ⟨hmem, hcandidate⟩, heq⟩ := h
    exact ⟨uid, hmem, (candidate_iff (mem_uniqueI32.mpr hmem)).mp hcandidate, heq⟩
  · intro h
    obtain ⟨uid, hmem, hvisible, heq⟩ := h
    exact ⟨uid, ⟨hmem, (candidate_iff (mem_uniqueI32.mpr hmem)).mpr hvisible⟩, heq⟩

theorem loadVisibleUser_uid (w : World) (viewer : Int) (userIds : List Int) (uid : Int) :
    (w.loadVisibleUser viewer userIds uid).uid = uid := by
  unfold World.loadVisibleUser
  dsimp only
  split
  · next blocked hblocked =>
    obtain ⟨relationship, -, hresponse⟩ := Option.bind_eq_some_iff.mp hblocked
    unfold blockedPresence at hresponse
    split at hresponse
    · obtain rfl := Option.some.inj hresponse
      rfl
    · cases hresponse
  · rfl

theorem loadSnapshot_uids (w : World) (viewer : Int) (userIds : List Int) :
    (w.loadSnapshot viewer userIds).map UserPresenceResponse.uid =
      (uniqueI32 userIds).filter (w.candidate viewer (uniqueI32 userIds)) := by
  unfold World.loadSnapshot World.loadVisibleUsers
  rw [List.map_map]
  refine (List.map_congr_left fun uid _ => ?_).trans (List.map_id _)
  exact loadVisibleUser_uid w viewer (uniqueI32 userIds) uid

/-- The viewer's own response. -/
theorem response_self {response : UserPresenceResponse}
    (hresponse : response ∈ w.loadSnapshot viewer userIds) (hself : response.uid = viewer) :
    w.ShowsExactly response := by
  obtain ⟨uid, hmem, -, rfl⟩ := mem_loadSnapshot.mp hresponse
  rw [loadVisibleUser_uid] at hself
  subst hself
  rw [loadVisibleUser_self (mem_uniqueI32.mpr hmem)]
  exact showsExactly w uid

/-- The response for a listed peer that is not the viewer. -/
theorem response_cases {response : UserPresenceResponse}
    (hresponse : response ∈ w.loadSnapshot viewer userIds) (hne : response.uid ≠ viewer) :
    w.db.Visible viewer response.uid ∧
    ((w.db.Blocks viewer response.uid ∧ response = ⟨response.uid, false, none, none, some .longAgo⟩) ∨
      ¬w.db.Blocks viewer response.uid ∧ ∃ exact : Bool,
        (exact = true ↔ w.db.Shares viewer response.uid ∧ w.db.Shares response.uid viewer) ∧
        response = userPresence response.uid exact (w.personalPresence response.uid)
          (w.lastSeenOf response.uid) w.now) := by
  obtain ⟨uid, hmem, hvisible, heq⟩ := mem_loadSnapshot.mp hresponse
  have huid : response.uid = uid := by
    rw [← heq]
    exact loadVisibleUser_uid w viewer (uniqueI32 userIds) uid
  rw [huid] at hne ⊢
  have hlisted := mem_uniqueI32.mpr hmem
  refine ⟨hvisible.resolve_left hne, ?_⟩
  by_cases hblocks : w.db.Blocks viewer uid
  · exact .inl ⟨hblocks, heq.symm.trans (loadVisibleUser_blocked hlisted hne hblocks)⟩
  · obtain ⟨exact, hexact, hload⟩ :=
      loadVisibleUser_unblocked hlisted hne ((candidate_iff hlisted).mpr hvisible) hblocks
    exact .inr ⟨hblocks, exact, hexact, heq.symm.trans hload⟩

theorem SameBut.friendship (h : SameBut peer w w') (a b : Int) :
    w'.db.friendship a b = w.db.friendship a b := by
  rw [Database.friendship, Database.friendship, h.friendships]

theorem SameBut.blocks_iff (h : SameBut peer w w') (a b : Int) :
    w'.db.Blocks a b ↔ w.db.Blocks a b := by
  rw [Database.Blocks, Database.Blocks, h.blocks]

theorem SameBut.shares_iff (h : SameBut peer w w') (a b : Int) :
    w'.db.Shares a b ↔ w.db.Shares a b := by
  unfold Database.Shares Database.presenceOverride
  rw [h.friendship, h.visibility]

theorem blocks_comm (db : Database) (a b : Int) : db.Blocks a b ↔ db.Blocks b a := or_comm

theorem seesExactly_comm (db : Database) (a b : Int) : db.SeesExactly a b ↔ db.SeesExactly b a := by
  unfold Database.SeesExactly
  rw [blocks_comm db a b, and_comm (a := db.Shares a b)]

/-- What a response shows of a peer: its activity to who may see it exactly, a constant under a
block, and else the coarse bucket. -/
theorem response_shown {response : UserPresenceResponse}
    (hresponse : response ∈ w.loadSnapshot viewer userIds) (hne : response.uid ≠ viewer) :
    (w.db.SeesExactly viewer response.uid → w.ShowsExactly response) ∧
    (w.db.Blocks viewer response.uid → response = ⟨response.uid, false, none, none, some .longAgo⟩) ∧
    (¬w.db.Blocks viewer response.uid → ¬w.db.SeesExactly viewer response.uid →
      w.ShowsCoarsely response) := by
  obtain ⟨-, ⟨hblocks, heq⟩ | ⟨hblocks, exact, hexact, heq⟩⟩ := response_cases hresponse hne
  · exact ⟨fun hsees => absurd hblocks hsees.1, fun _ => heq, fun hnot => absurd hblocks hnot⟩
  · refine ⟨fun hsees => ?_, fun hblocked => absurd hblocked hblocks, fun _ hnot => ?_⟩
    · rw [heq, hexact.mpr hsees.2]
      exact showsExactly w response.uid
    · have hfalse : exact = false := Bool.eq_false_iff.mpr fun htrue =>
        hnot ⟨hblocks, hexact.mp htrue⟩
      rw [heq, hfalse]
      exact showsCoarsely w response.uid

theorem World.ShowsCoarsely.unique {response response' : UserPresenceResponse}
    (h : w.ShowsCoarsely response) (h' : w'.ShowsCoarsely response')
    (huid : response'.uid = response.uid) {bucket : Option LastSeenBucket}
    (hbucket : w.Bucket response.uid bucket) (hbucket' : w'.Bucket response.uid bucket) :
    response' = response := by
  have heq : response'.lastSeenBucket = response.lastSeenBucket := by
    rw [h.lastSeenBucket.unique hbucket]
    exact World.Bucket.unique h'.lastSeenBucket (huid ▸ hbucket')
  obtain ⟨uid, online, away, lastSeenAt, bucketShown⟩ := response
  obtain ⟨uid', online', away', lastSeenAt', bucketShown'⟩ := response'
  simp only [UserPresenceResponse.mk.injEq]
  exact ⟨huid, h'.online.trans h.online.symm, h'.away.trans h.away.symm,
    h'.lastSeenAt.trans h.lastSeenAt.symm, heq⟩

/-- Nothing of a peer's activity but the bucket makes a difference to who may not see it exactly, and
not even that under a block. -/
theorem response_sameBut (hne : peer ≠ viewer) (hsame : SameBut peer w w')
    {response response' : UserPresenceResponse}
    (hresponse : response ∈ w.loadSnapshot viewer userIds)
    (hresponse' : response' ∈ w'.loadSnapshot viewer userIds) (huid : response.uid = peer)
    (huid' : response'.uid = peer) :
    (w.db.Blocks viewer peer → response' = response) ∧
    (¬w.db.SeesExactly viewer peer → (∃ bucket, w.Bucket peer bucket ∧ w'.Bucket peer bucket) →
      response' = response) := by
  subst huid
  obtain ⟨-, hblocked, hcoarse⟩ := response_shown hresponse hne
  obtain ⟨-, hblocked', hcoarse'⟩ := response_shown hresponse' (huid'.trans_ne hne)
  rw [huid', hsame.blocks_iff] at hblocked' hcoarse'
  have hsees : w'.db.SeesExactly viewer response.uid ↔ w.db.SeesExactly viewer response.uid := by
    unfold Database.SeesExactly
    rw [hsame.blocks_iff, hsame.shares_iff, hsame.shares_iff]
  rw [hsees] at hcoarse'
  have hconstant : w.db.Blocks viewer response.uid → response' = response := fun hblocks =>
    (hblocked' hblocks).trans (hblocked hblocks).symm
  refine ⟨hconstant, fun hnot hbucket => ?_⟩
  by_cases hblocks : w.db.Blocks viewer response.uid
  · exact hconstant hblocks
  · obtain ⟨bucket, hbucket, hbucket'⟩ := hbucket
    exact (hcoarse hblocks hnot).unique (hcoarse' hblocks hnot) huid' hbucket hbucket'

end Chahua.Presence

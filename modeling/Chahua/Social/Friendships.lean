import Chahua.Social.Consistency

namespace Chahua.Social

open Framework

namespace Database

variable {db after : Database}

theorem SameTables.rfl : db.SameTables db := ⟨Eq.refl _, Eq.refl _, Eq.refl _, Eq.refl _⟩

theorem acceptReciprocal_follows (h : db.Consistent) {fromUid toUid existing now dmGroupId : Int}
    (hok : db.acceptReciprocal fromUid toUid existing now dmGroupId = .ok after) :
    db.Follows after (some fromUid) := by
  unfold acceptReciprocal at hok
  split at hok
  · next r hr =>
    split at hok
    · next hguard =>
      obtain ⟨hfrom, hto, hunresolved⟩ := hguard
      have hpair : r.pair = canonicalPair fromUid toUid := by
        rw [FriendRequest.pair, hfrom, hto, canonicalPair_comm]
      exact hto ▸ acceptRequest_follows h hr hunresolved hpair hok
    · cases hok
  · cases hok

theorem insertRequest_follows (h : db.Consistent) {id : Int} {r : FriendRequest}
    (hdistinct : r.fromUid ≠ r.toUid) (hpending : r.status = .pending) (hnew : r.decidedAt = none)
    (hok : db.insertRequest id r = .ok after) (caller : Option Int) : db.Follows after caller := by
  unfold insertRequest at hok
  split at hok
  · cases hok
  · next hfree =>
    cases hok
    simp only [Bool.or_eq_true, decide_eq_true_eq, not_or, Bool.not_eq_true,
      Option.isSome_eq_false_iff, Option.isNone_iff_eq_none,
      Finset.not_nonempty_iff_eq_empty] at hfree
    obtain ⟨hid, hnone⟩ := hfree
    have hunresolved : r.isUnresolved = true := by simp [FriendRequest.isUnresolved, hpending,
      FriendRequestStatus.isUnresolved]
    refine ⟨⟨h.requests.upsert hdistinct ?_ ?_, ⟨h.dms.members, h.dms.one⟩, h.canonical, h.linked⟩,
      ?_, .of_le fun _ hnone => hnone⟩
    · rw [hnew, hunresolved]
      rfl
    · intro _ other hne r' hr' hu hp
      have hmem : other ∈ db.unresolvedBetween r.fromUid r.toUid :=
        Table.mem_select.mpr ⟨r', hr', by
          rw [hu, Bool.true_and, decide_eq_true_eq, hp]
          rfl⟩
      rw [hnone] at hmem
      exact Finset.notMem_empty other hmem
    · intro other r' hr'
      have hne : other ≠ id := by
        intro heq
        rw [heq, hid] at hr'
        cases hr'
      exact ⟨r', (Table.upsert_row_ne _ _ hne).trans hr', rfl, rfl, fun _ => rfl⟩

theorem archiveFriendRequest_follows (h : db.Consistent) {uid requestId : Int}
    (hok : db.archiveFriendRequest uid requestId = .ok after) (caller : Option Int) :
    db.Follows after caller := by
  unfold archiveFriendRequest at hok
  split at hok
  · next r hr =>
    split at hok
    · next hguard =>
      cases hok
      have hunresolved : r.isUnresolved = true := by
        simp [FriendRequest.isUnresolved, hguard.2, FriendRequestStatus.isUnresolved]
      have hdecided := h.requests.decided requestId r hr
      rw [hunresolved] at hdecided
      exact Follows.upsert h { r with status := .archived } hr hunresolved rfl rfl hdecided _
    · cases hok
  · cases hok

theorem removeFriendship_follows (h : db.Consistent) (a b : Int) (caller : Option Int) :
    db.Follows (db.removeFriendship a b) caller := by
  refine ⟨⟨⟨h.requests.distinct, h.requests.decided, h.requests.one⟩,
    ⟨h.dms.members, h.dms.one⟩, fun pair f hf => ?_, fun pair f hf => ?_⟩, .of_eq rfl,
    .of_le fun pair hnone => ?_⟩
  · exact h.canonical pair f (Table.row_of_erase hf).2
  · exact h.linked pair f (Table.row_of_erase hf).2
  · rw [removeFriendship, Table.erase_row, hnone, ite_self]

theorem resolveFriendRequest_follows (h : db.Consistent) {resolverUid requestId now dmGroupId : Int}
    {accept : Bool} {outcome : Outcome}
    (hok : db.resolveFriendRequest resolverUid requestId accept now dmGroupId =
      .ok (after, outcome)) : db.Follows after (some resolverUid) := by
  unfold resolveFriendRequest at hok
  split at hok
  · cases hok
  · next r hr =>
    split at hok
    · cases hok
    · next hrecipient =>
      split at hok
      · cases hok
      · next hundecided =>
        have hto : r.toUid = resolverUid := by simpa using hrecipient
        have hunresolved : r.isUnresolved = true := by simpa using hundecided
        split at hok
        · cases haccept : db.acceptRequest requestId r r.fromUid r.toUid r.fromUid now dmGroupId with
          | error e => simp [haccept, Except.map] at hok
          | ok created =>
            rw [haccept] at hok
            obtain ⟨rfl, -⟩ : created = after ∧ _ := by simpa [Except.map] using hok
            exact hto ▸ acceptRequest_follows h hr hunresolved rfl haccept
        · obtain ⟨rfl, -⟩ := Prod.mk.inj (Except.ok.inj hok)
          exact Follows.upsert h { r with status := .rejected, decidedAt := some now } hr
            hunresolved rfl rfl rfl _

theorem map_eq_ok {ε α β : Type} {f : α → β} {x : Except ε α} {y : β} (h : x.map f = .ok y) :
    ∃ a, x = .ok a ∧ f a = y := by
  cases x with
  | error e => cases h
  | ok a => exact ⟨a, Eq.refl _, Except.ok.inj h⟩

/-- A statement of `create_friend_request` that does not end the call only reads. -/
theorem advance_reads {c : CreateCall} {now id : Int} {phase : CreatePhase}
    (hok : db.advance c now id = .ok (after, .inl phase)) :
    after = db ∧ (c.phase = .checkBlocked → c.fromUid ≠ c.toUid) := by
  unfold advance at hok
  split at hok
  · split at hok
    · cases hok
    · next hdistinct =>
      split at hok
      · cases hok
      · exact ⟨(Prod.mk.inj (Except.ok.inj hok)).1.symm, fun _ => hdistinct⟩
  · next hphase => exact ⟨(Prod.mk.inj (Except.ok.inj hok)).1.symm, by simp [hphase]⟩
  · next hphase =>
    split at hok
    · exact ⟨(Prod.mk.inj (Except.ok.inj hok)).1.symm, by simp [hphase]⟩
    · exact ⟨(Prod.mk.inj (Except.ok.inj hok)).1.symm, by simp [hphase]⟩
  · obtain ⟨created, -, heq⟩ := map_eq_ok hok
    cases heq
  · next hphase =>
    obtain ⟨texts, -, heq⟩ := map_eq_ok hok
    exact ⟨(Prod.mk.inj heq).1.symm, by simp [hphase]⟩
  · obtain ⟨created, -, heq⟩ := map_eq_ok hok
    cases heq

theorem advance_follows (h : db.Consistent) {c : CreateCall} {now id : Int}
    {next : CreatePhase ⊕ Outcome} (hdistinct : c.phase ≠ .checkBlocked → c.fromUid ≠ c.toUid)
    (hok : db.advance c now id = .ok (after, next)) : db.Follows after (some c.fromUid) := by
  have hsame : after = db → db.Follows after (some c.fromUid) := by
    intro heq
    subst heq
    exact SameTables.rfl.follows h _
  cases next with
  | inl phase => exact hsame (advance_reads hok).1
  | inr outcome =>
    unfold advance at hok
    split at hok
    · split at hok
      · cases hok
      · split at hok
        · cases hok
        · cases hok
    · exact hsame (Prod.mk.inj (Except.ok.inj hok)).1.symm
    · split at hok
      · cases hok
      · exact hsame (Prod.mk.inj (Except.ok.inj hok)).1.symm
    · obtain ⟨created, hcreated, heq⟩ := map_eq_ok hok
      obtain rfl : created = after := (Prod.mk.inj heq).1
      exact acceptReciprocal_follows h hcreated
    · obtain ⟨texts, -, heq⟩ := map_eq_ok hok
      cases heq
    · next hphase =>
      have hne : c.fromUid ≠ c.toUid := hdistinct (by rw [hphase]; simp)
      obtain ⟨created, hcreated, heq⟩ := map_eq_ok hok
      obtain rfl : created = after := (Prod.mk.inj heq).1
      exact insertRequest_follows h hne (Eq.refl _) (Eq.refl _) hcreated _

end Database

/-- Who a step acts for. -/
def State.caller (s : State) : Event → Option Int
  | .next call _ _ => (s.calls call).map (·.fromUid)
  | .resolveFriendRequest resolverUid _ _ _ _ => some resolverUid
  | _ => none

/-- What the request handlers make of an outcome. -/
def respond : Except AppError Outcome → Except AppError Outcome
  | .ok (.rejectedWhileFriends _) => .error (.conflict "You are already friends with this user")
  | answer => answer

@[simp] theorem State.withCall_db (s : State) (call : Nat) (c : Option CreateCall) :
    (s.withCall call c).db = s.db := rfl

theorem State.withCall_calls (s : State) (call : Nat) (c : Option CreateCall) (other : Nat) :
    (s.withCall call c).calls other = if other = call then c else s.calls other := rfl

/-- Calls past their first statement are between two users. -/
structure State.Inv (s : State) : Prop where
  consistent : s.db.Consistent
  distinct : ∀ call c, s.calls call = some c → c.phase ≠ .checkBlocked → c.fromUid ≠ c.toUid

variable {s t : State} {event : Event} {answer : Option (Except AppError Outcome)}

theorem State.Inv.withCall (h : s.Inv) {db : Database} (hdb : db.Consistent) {call : Nat}
    {c : Option CreateCall}
    (hc : ∀ c', c = some c' → c'.phase ≠ .checkBlocked → c'.fromUid ≠ c'.toUid) :
    ({ s with db }.withCall call c).Inv := by
  refine ⟨hdb, fun other c' hother => ?_⟩
  rw [State.withCall_calls] at hother
  split at hother
  · exact hc c' hother
  · exact h.distinct other c' hother

theorem State.answer_follows (h : s.Inv) {result : Except AppError (Database × Outcome)}
    {caller : Option Int}
    (hok : ∀ db outcome, result = .ok (db, outcome) → s.db.Follows db caller)
    (heq : s.answer result = (t, answer)) : t.Inv ∧ s.db.Follows t.db caller := by
  cases result with
  | error e =>
    obtain rfl : s = t := (Prod.mk.inj heq).1
    exact ⟨h, Database.SameTables.rfl.follows h.consistent _⟩
  | ok after =>
    obtain rfl : { s with db := after.1 } = t := (Prod.mk.inj heq).1
    have hfollows := hok after.1 after.2 rfl
    exact ⟨⟨hfollows.consistent, h.distinct⟩, hfollows⟩

theorem next_follows (h : s.Inv) {call : Nat} {now id : Int}
    (hexecute : execute s (.next call now id) = some (t, answer)) :
    t.Inv ∧ s.db.Follows t.db (s.caller (.next call now id)) := by
  obtain ⟨c, hc, heq⟩ := Option.map_eq_some_iff.mp hexecute
  have hcaller : s.caller (.next call now id) = some c.fromUid := by
    simp only [State.caller, hc, Option.map_some]
  rw [hcaller]
  have hdistinct := h.distinct call c hc
  cases hadvance : s.db.advance c now id with
  | error e =>
    rw [hadvance] at heq
    obtain rfl := (Prod.mk.inj heq).1
    exact ⟨h.withCall h.consistent (fun _ hnone => by cases hnone),
      Database.SameTables.rfl.follows h.consistent _⟩
  | ok result =>
    obtain ⟨db, next⟩ := result
    have hfollows := Database.advance_follows h.consistent hdistinct hadvance
    rw [hadvance] at heq
    cases next with
    | inl phase =>
      obtain rfl := (Prod.mk.inj heq).1
      refine ⟨h.withCall hfollows.consistent ?_, hfollows⟩
      intro c' hc' _
      cases hc'
      by_cases hphase : c.phase = .checkBlocked
      · exact (Database.advance_reads hadvance).2 hphase
      · exact hdistinct hphase
    | inr outcome =>
      obtain rfl := (Prod.mk.inj heq).1
      exact ⟨h.withCall hfollows.consistent (fun _ hnone => by cases hnone), hfollows⟩

theorem execute_follows (h : s.Inv) (hexecute : execute s event = some (t, answer)) :
    t.Inv ∧ s.db.Follows t.db (s.caller event) := by
  have hsame : ∀ db : Database, s.db.SameTables db → s.db.Follows db (s.caller event) :=
    fun db hdb => hdb.follows h.consistent _
  cases event with
  | createFriendRequest call fromUid toUid message =>
    unfold execute at hexecute
    simp only at hexecute
    split at hexecute
    · obtain rfl := (Prod.mk.inj (Option.some.inj hexecute)).1
      refine ⟨h.withCall h.consistent ?_, hsame _ .rfl⟩
      intro c' hc' hphase
      cases hc'
      exact absurd rfl hphase
    · cases hexecute
  | next call now id => exact next_follows h hexecute
  | resolveFriendRequest resolverUid requestId accept now dmGroupId =>
    apply State.answer_follows h _ (Option.some.inj hexecute)
    intro db outcome hok
    exact Database.resolveFriendRequest_follows h.consistent hok
  | archiveFriendRequest uid requestId =>
    apply State.answer_follows h _ (Option.some.inj hexecute)
    intro db outcome hok
    obtain ⟨after, hafter, heq⟩ := Database.map_eq_ok hok
    obtain rfl : after = db := (Prod.mk.inj heq).1
    exact Database.archiveFriendRequest_follows h.consistent hafter _
  | removeFriendship a b =>
    apply State.answer_follows h _ (Option.some.inj hexecute)
    intro db outcome hok
    obtain rfl := (Prod.mk.inj (Except.ok.inj hok)).1
    exact Database.removeFriendship_follows h.consistent a b _
  | blockUser blocker blocked =>
    apply State.answer_follows h _ (Option.some.inj hexecute)
    intro db outcome hok
    obtain ⟨after, hafter, heq⟩ := Database.map_eq_ok hok
    obtain rfl : after = db := (Prod.mk.inj heq).1
    unfold Database.blockUser at hafter
    split at hafter
    · cases hafter
    · cases hafter
      exact hsame _ ⟨rfl, rfl, rfl, rfl⟩
  | unblockUser blocker blocked =>
    apply State.answer_follows h _ (Option.some.inj hexecute)
    intro db outcome hok
    obtain rfl := (Prod.mk.inj (Except.ok.inj hok)).1
    exact hsame _ ⟨rfl, rfl, rfl, rfl⟩
  | account usernames friendSettings =>
    obtain rfl := (Prod.mk.inj (Option.some.inj hexecute)).1
    have hfollows := hsame { s.db with usernames, friendSettings } ⟨rfl, rfl, rfl, rfl⟩
    exact ⟨⟨hfollows.consistent, h.distinct⟩, hfollows⟩

theorem State.answer_failed {result : Except AppError (Database × Outcome)} {e : AppError}
    (heq : s.answer result = (t, answer)) (hanswer : answer = some (.error e)) : t = s := by
  cases result with
  | error _ => exact (Prod.mk.inj heq).1.symm
  | ok after =>
    obtain ⟨-, heq⟩ := Prod.mk.inj heq
    rw [hanswer] at heq
    cases heq

/-- A step that ends no call or fails it leaves the four tables as they are. -/
theorem execute_failed (hexecute : execute s event = some (t, answer))
    (hanswer : answer = none ∨ ∃ e, answer = some (.error e)) : s.db.SameTables t.db := by
  have hkept : ∀ {result}, s.answer result = (t, answer) → s.db.SameTables t.db := by
    intro result heq
    rcases hanswer with hnone | ⟨e, he⟩
    · cases result with
      | error _ => exact (Prod.mk.inj heq).1 ▸ .rfl
      | ok after =>
        obtain ⟨-, heq⟩ := Prod.mk.inj heq
        rw [hnone] at heq
        cases heq
    · exact State.answer_failed heq he ▸ .rfl
  cases event with
  | createFriendRequest call fromUid toUid message =>
    unfold execute at hexecute
    simp only at hexecute
    split at hexecute
    · exact (Prod.mk.inj (Option.some.inj hexecute)).1 ▸ .rfl
    · cases hexecute
  | next call now id =>
    obtain ⟨c, hc, heq⟩ := Option.map_eq_some_iff.mp hexecute
    cases hadvance : s.db.advance c now id with
    | error e =>
      rw [hadvance] at heq
      exact (Prod.mk.inj heq).1 ▸ .rfl
    | ok result =>
      obtain ⟨db, next⟩ := result
      rw [hadvance] at heq
      cases next with
      | inl phase =>
        obtain ⟨rfl, -⟩ := Database.advance_reads hadvance
        exact (Prod.mk.inj heq).1 ▸ .rfl
      | inr outcome =>
        obtain ⟨-, heq⟩ := Prod.mk.inj heq
        subst heq
        rcases hanswer with hnone | ⟨e, he⟩
        · cases hnone
        · cases he
  | resolveFriendRequest resolverUid requestId accept now dmGroupId =>
    exact hkept (Option.some.inj hexecute)
  | archiveFriendRequest uid requestId => exact hkept (Option.some.inj hexecute)
  | removeFriendship a b => exact hkept (Option.some.inj hexecute)
  | blockUser blocker blocked => exact hkept (Option.some.inj hexecute)
  | unblockUser blocker blocked => exact hkept (Option.some.inj hexecute)
  | account usernames friendSettings =>
    exact (Prod.mk.inj (Option.some.inj hexecute)).1 ▸ ⟨rfl, rfl, rfl, rfl⟩

/-- A rejection of a request between friends: the request is rejected and nothing else changes. -/
def State.RejectsWhileFriends (s t : State) (event : Event) : Prop :=
  ∃ resolverUid requestId now dmGroupId r,
    event = .resolveFriendRequest resolverUid requestId false now dmGroupId ∧
      s.db.friendRequests.row requestId = some r ∧ r.toUid = resolverUid ∧
      r.isUnresolved = true ∧ s.db.areMutualFriends r.fromUid r.toUid = true ∧
      t = { s with db := s.db.decideRequest requestId now .rejected r }

theorem advance_outcome {db after : Database} {c : CreateCall} {now id : Int} {outcome : Outcome}
    (hok : db.advance c now id = .ok (after, .inr outcome)) (request : Int) :
    outcome ≠ .rejectedWhileFriends request := by
  intro heq
  subst heq
  unfold Database.advance at hok
  split at hok
  · split at hok
    · cases hok
    · split at hok
      · cases hok
      · cases hok
  · have hphase := (Prod.mk.inj (Except.ok.inj hok)).2
    split at hphase
    · cases hphase
    · cases hphase
  · split at hok
    · cases hok
    · have hphase := (Prod.mk.inj (Except.ok.inj hok)).2
      split at hphase
      · cases hphase
      · cases hphase
  · obtain ⟨created, -, heq⟩ := Database.map_eq_ok hok
    cases heq
  · obtain ⟨texts, -, heq⟩ := Database.map_eq_ok hok
    cases heq
  · obtain ⟨created, -, heq⟩ := Database.map_eq_ok hok
    cases heq

theorem State.answer_ok {result : Except AppError (Database × Outcome)} {outcome : Outcome}
    (heq : s.answer result = (t, answer)) (hanswer : answer = some (.ok outcome)) :
    ∃ db, result = .ok (db, outcome) ∧ t = { s with db } := by
  cases result with
  | error e =>
    obtain ⟨-, heq⟩ := Prod.mk.inj heq
    rw [hanswer] at heq
    cases heq
  | ok after =>
    obtain ⟨hstate, heq⟩ := Prod.mk.inj heq
    rw [hanswer] at heq
    cases heq
    exact ⟨after.1, rfl, hstate.symm⟩

theorem execute_rejects {request : Int} (hexecute : execute s event = some (t, answer))
    (hanswer : answer = some (.ok (.rejectedWhileFriends request))) :
    s.RejectsWhileFriends t event := by
  have hdone : ∀ {x : Except AppError Database},
      s.answer (x.map fun db => (db, .done)) = (t, answer) → s.RejectsWhileFriends t event := by
    intro x heq
    obtain ⟨db, hok, -⟩ := State.answer_ok heq hanswer
    obtain ⟨after, -, heq⟩ := Database.map_eq_ok hok
    cases heq
  cases event with
  | createFriendRequest call fromUid toUid message =>
    unfold execute at hexecute
    simp only at hexecute
    split at hexecute
    · obtain ⟨-, heq⟩ := Prod.mk.inj (Option.some.inj hexecute)
      rw [hanswer] at heq
      cases heq
    · cases hexecute
  | next call now id =>
    obtain ⟨c, hc, heq⟩ := Option.map_eq_some_iff.mp hexecute
    rw [hanswer] at heq
    split at heq
    · cases heq
    · next db outcome hadvance =>
      cases heq
      exact absurd rfl (advance_outcome hadvance request)
    · cases heq
  | resolveFriendRequest resolverUid requestId accept now dmGroupId =>
    obtain ⟨db, hok, ht⟩ := State.answer_ok (Option.some.inj hexecute) hanswer
    unfold Database.resolveFriendRequest at hok
    split at hok
    · cases hok
    · next r hr =>
      split at hok
      · cases hok
      · next hrecipient =>
        split at hok
        · cases hok
        · next hundecided =>
          split at hok
          · obtain ⟨created, -, heq⟩ := Database.map_eq_ok hok
            cases heq
          · next haccept =>
            obtain ⟨hdb, houtcome⟩ := Prod.mk.inj (Except.ok.inj hok)
            split at houtcome
            · next hfriends =>
              subst hdb
              exact ⟨resolverUid, requestId, now, dmGroupId, r, by simpa using haccept, hr,
                by simpa using hrecipient, by simpa using hundecided, hfriends, ht⟩
            · cases houtcome
  | archiveFriendRequest uid requestId => exact hdone (Option.some.inj hexecute)
  | removeFriendship a b => exact hdone (x := .ok _) (Option.some.inj hexecute)
  | blockUser blocker blocked => exact hdone (Option.some.inj hexecute)
  | unblockUser blocker blocked => exact hdone (x := .ok _) (Option.some.inj hexecute)
  | account usernames friendSettings =>
    obtain ⟨-, heq⟩ := Prod.mk.inj (Option.some.inj hexecute)
    rw [hanswer] at heq
    cases heq

theorem run_inv {history : List Event} (h : s.Inv) (hrun : run step s history = some t) :
    t.Inv := by
  apply run_invariant _ h hrun
  intro s e t hs hstep
  obtain ⟨⟨after, answer⟩, hexecute, heq⟩ := Option.map_eq_some_iff.mp hstep
  exact heq ▸ (execute_follows hs hexecute).1

/-- Before the first request, whatever groups there are besides DMs. -/
theorem State.Inv.start (hrequests : ∀ id, s.db.friendRequests.row id = none)
    (hfriendships : ∀ pair, s.db.friendships.row pair = none) (hdms : ∀ pair, s.db.dmsOf pair = ∅)
    (hcalls : ∀ call, s.calls call = none) : s.Inv := by
  have hrequest : ∀ {id r}, s.db.friendRequests.row id ≠ some r := by
    intro id r hr
    rw [hrequests] at hr
    cases hr
  have hfriend : ∀ {pair f}, s.db.friendships.row pair ≠ some f := by
    intro pair f hf
    rw [hfriendships] at hf
    cases hf
  have hdm : ∀ {pair id}, id ∉ s.db.dmsOf pair := by
    intro pair id
    rw [hdms]
    exact Finset.notMem_empty id
  refine ⟨⟨⟨?_, ?_, ?_⟩, ⟨?_, ?_⟩, ?_, ?_⟩, ?_⟩
  · exact fun id r hr => absurd hr hrequest
  · exact fun id r hr => absurd hr hrequest
  · exact fun id id' r r' hr _ _ _ _ => absurd hr hrequest
  · exact fun pair id hid => absurd hid hdm
  · exact fun pair id hid _ _ => absurd hid hdm
  · exact fun pair f hf => absurd hf hfriend
  · exact fun pair f hf => absurd hf hfriend
  · intro call c hc
    rw [hcalls] at hc
    cases hc

theorem social_graph_consistent {s₀ : State} {history : List Event} (hdb : s₀.db.Consistent)
    (hcalls : ∀ call, s₀.calls call = none) (hrun : run step s₀ history = some s) :
    (∀ id id' r r', s.db.friendRequests.row id = some r → s.db.friendRequests.row id' = some r' →
      r.isUnresolved = true → r'.isUnresolved = true → r.pair = r'.pair → id = id') ∧
    (∀ id r, s.db.friendRequests.row id = some r → r.decidedAt.isSome = !r.isUnresolved) ∧
    (∀ pair f, s.db.friendships.row pair = some f → pair.1 < pair.2 ∧
      ∃ id, (∀ other, other ∈ s.db.dmsOf pair ↔ other = id) ∧
        (id, pair.1) ∈ s.db.groupMembership ∧ (id, pair.2) ∈ s.db.groupMembership) ∧
    ∀ event t answer, execute s event = some (t, answer) →
      s.db.RequestsFollow t.db ∧ s.db.Befriends t.db (s.caller event) ∧
      (answer = none → s.db.SameTables t.db) ∧
      ∀ result e, answer = some result → respond result = .error e →
        s.db.SameTables t.db ∨ s.RejectsWhileFriends t event ∧
          e = .conflict "You are already friends with this user" := by
  have hinv : s.Inv := by
    apply run_inv ⟨hdb, _⟩ hrun
    intro call c hc
    rw [hcalls] at hc
    cases hc
  have hok := hinv.consistent
  refine ⟨hok.requests.one, hok.requests.decided, fun pair f hf => ⟨hok.canonical pair f hf, ?_⟩,
    fun event t answer hexecute => ?_⟩
  · obtain ⟨id, hid⟩ := hok.linked pair f hf
    refine ⟨id, fun other => ⟨fun hother => hok.dms.one pair other hother id hid, ?_⟩,
      hok.dms.members pair id hid⟩
    intro heq
    exact heq ▸ hid
  · obtain ⟨-, hfollows⟩ := execute_follows hinv hexecute
    refine ⟨hfollows.requests, hfollows.befriends,
      fun hnone => execute_failed hexecute (.inl hnone), fun result e hresult hrespond => ?_⟩
    unfold respond at hrespond
    split at hrespond
    · cases hrespond
      exact .inr ⟨execute_rejects hexecute hresult, rfl⟩
    · exact .inl (execute_failed hexecute (.inr ⟨e, hrespond ▸ hresult⟩))

/-- Two users without any row of the social graph. -/
def strangers : State where
  db := ⟨.empty, .empty, .empty, ∅, ∅, .ofList [(1, "ann"), (2, "bob")], .empty⟩
  calls := fun _ => none

theorem strangers_consistent : strangers.db.Consistent := by
  have hstart : strangers.Inv := by
    apply State.Inv.start
    · exact fun _ => rfl
    · exact fun _ => rfl
    · intro pair
      apply Finset.eq_empty_of_forall_notMem
      intro id hid
      obtain ⟨group, hgroup, -⟩ := Database.mem_dmsOf.mp hid
      cases hgroup
    · exact fun _ => rfl
  exact hstart.consistent

/-- A request of user 1 that user 2 accepts. -/
def acceptedHistory : List Event :=
  [.createFriendRequest 0 1 2 none, .next 0 10 7, .next 0 10 7, .next 0 10 7, .next 0 10 7,
    .next 0 10 7, .resolveFriendRequest 2 7 true 11 9]

theorem social_graph_consistent_accepted : ∃ s, run step strangers acceptedHistory = some s ∧
    (s.db.friendships.row (1, 2)).isSome = true ∧
    ∃ id, (∀ other, other ∈ s.db.dmsOf (1, 2) ↔ other = id) ∧
      (id, 1) ∈ s.db.groupMembership ∧ (id, 2) ∈ s.db.groupMembership := by
  have hrun : run step strangers acceptedHistory =
      some ((run step strangers acceptedHistory).get (by decide)) := (Option.some_get _).symm
  have hfriends : ((((run step strangers acceptedHistory).get (by decide)).db.friendships.row
      (1, 2)).isSome) = true := by decide
  obtain ⟨f, hf⟩ := Option.isSome_iff_exists.mp hfriends
  exact ⟨_, hrun, hfriends,
    ((social_graph_consistent strangers_consistent (fun _ => rfl) hrun).2.2.1 (1, 2) f hf).2⟩

end Chahua.Social

import Chahua.ReactionReads.Ordering

namespace Chahua.ReactionReads

open Framework

namespace Database

def cursorAt (db : Database) (p : Place) : Option Int := db.cursor p.chatId p.uid p.threadRootId

/-- The cursor leaves a reaction of this time unread. -/
def LeavesUnread (db : Database) (p : Place) (createdAt : Int) : Prop :=
  (db.cursorAt p).all (· < createdAt) = true

variable {db after : Database} {p : Place}

theorem LeavesUnread.mono {createdAt createdAt' : Int} (h : db.LeavesUnread p createdAt)
    (hle : createdAt ≤ createdAt') : db.LeavesUnread p createdAt' := by
  unfold LeavesUnread at h ⊢
  cases hc : db.cursorAt p with
  | none => rfl
  | some c =>
    rw [hc, Option.all_some, decide_eq_true_eq] at h
    rw [Option.all_some, decide_eq_true_eq]
    omega

theorem cursorAt_congr (hmembers : after.groupMembership = db.groupMembership)
    (hthreads : after.threadUserStates = db.threadUserStates) (p : Place) :
    after.cursorAt p = db.cursorAt p := by
  unfold cursorAt cursor
  rw [hmembers, hthreads]

theorem insertReaction_cursorAt (db : Database) (key : Int × Int × String)
    (reaction : MessageReaction) (p : Place) :
    (db.insertReaction key reaction).cursorAt p = db.cursorAt p := by
  obtain ⟨-, hmembers, hthreads⟩ := insertReaction_rest db key reaction
  exact cursorAt_congr hmembers hthreads p

theorem isDeleted_congr (hmessages : after.messages = db.messages) (id : Int) :
    after.isDeleted id = db.isDeleted id := by
  unfold isDeleted
  rw [hmessages]

theorem place_congr (hmessages : after.messages = db.messages) (id : Int) :
    after.place id = db.place id := by
  unfold place
  rw [hmessages]

/-- An insert of a thread state is the one way for a write without the lock to move a cursor. -/
theorem Effect.cursorAt {ensures : List (Int × Int × Int) × Int} (h : db.Effect after ensures)
    (p : Place) : after.cursorAt p = db.cursorAt p ∨
      ∃ rootId, p.threadRootId = some rootId ∧ (p.chatId, rootId, p.uid) ∈ ensures.1 ∧
        db.threadUserStates.row (p.chatId, rootId, p.uid) = none ∧
        after.cursorAt p = some ensures.2 := by
  unfold Database.cursorAt
  cases hroot : p.threadRootId with
  | none =>
    refine .inl ?_
    rw [cursor, cursor, h.memberships]
  | some rootId =>
    rcases h.threads (p.chatId, rootId, p.uid) with heq | ⟨hnone, hmem, hnew⟩
    · exact .inl heq
    · exact .inr ⟨rootId, rfl, hmem, hnone, hnew⟩

theorem Effect.not_deleted {ensures : List (Int × Int × Int) × Int} (h : db.Effect after ensures)
    {id : Int} (hlive : after.isDeleted id = false) : db.isDeleted id = false := by
  cases hdeleted : db.isDeleted id with
  | false => rfl
  | true => exact (h.deleted id hdeleted).symm.trans hlive

end Database

namespace State

/-- A thread state is inserted only with a `NOW()` before every foreign reaction, committed or
about to be, on a message of its user in the thread. -/
def KeepsUnread (s : State) (event : Event) : Prop :=
  ∀ statement, event = .write statement → ∀ chatId rootId uid,
    (chatId, rootId, uid) ∈ statement.ensures.1 →
    s.db.threadUserStates.row (chatId, rootId, uid) = none →
    ∀ key, s.db.place key.1 = some ⟨chatId, uid, some rootId⟩ → s.db.isDeleted key.1 = false →
      key.2.1 ≠ uid →
      (∀ r, s.db.messageReactions.row key = some r → statement.ensures.2 < r.createdAt) ∧
      ∀ tx T, s.transactions tx = some T → T.work = .insertReaction key →
        statement.ensures.2 < T.now

/-- The event commits an acknowledgement of the place's scope that covers the time. -/
def Acknowledges (s : State) (p : Place) (createdAt : Int) (event : Event) : Prop :=
  ∃ tx T readThrough, event = .commit tx ∧ s.transactions tx = some T ∧ T.scope = p.scope ∧
    T.work = .acknowledge p.threadRootId readThrough ∧ createdAt ≤ T.boundary readThrough

/-- Reactions that are about to be committed will be unread. -/
def Pending (s : State) : Prop :=
  ∀ tx T key p, s.transactions tx = some T → s.isMember T.scope → T.work = .insertReaction key →
    s.db.place key.1 = some p → s.db.isDeleted key.1 = false → key.2.1 ≠ p.uid →
    s.db.LeavesUnread p T.now

/-- What is known of a committed reaction while no acknowledgement covers it. -/
structure Tracked (key : Int × Int × String) (r : MessageReaction) (p : Place) (s : State) :
    Prop where
  clock : r.createdAt ≤ s.clock
  later : ∀ tx T, s.transactions tx = some T → T.work = .insertReaction key → r.createdAt < T.now
  place : s.db.place key.1 = some p
  unread : s.db.isDeleted key.1 = false → s.db.messageReactions.row key = some r →
    s.db.LeavesUnread p r.createdAt

variable {s u : State} {event : Event} {p : Place}

theorem Inv.cursorAt_le (h : s.Inv) {c : Int} (hc : s.db.cursorAt p = some c) : c ≤ s.clock := by
  unfold Database.cursorAt Database.cursor at hc
  split at hc
  · exact h.memberCursors _ c hc
  · exact h.threadCursors _ c hc

theorem Inv.leavesUnread_of_clock_lt (h : s.Inv) {createdAt : Int} (hlt : s.clock < createdAt) :
    s.db.LeavesUnread p createdAt := by
  unfold Database.LeavesUnread
  cases hc : s.db.cursorAt p with
  | none => rfl
  | some c =>
    rw [Option.all_some, decide_eq_true_eq]
    exact (h.cursorAt_le hc).trans_lt hlt

/-- What a committed transaction does to the cursor of a member's place. -/
theorem commit_cursorAt {T : Transaction} (hmember : s.isMember p.scope) :
    (T.commit s.db).1.cursorAt p = s.db.cursorAt p ∨
      ∃ readThrough, T.scope = p.scope ∧ T.work = .acknowledge p.threadRootId readThrough ∧
        (T.commit s.db).1.cursorAt p = some (((s.db.cursorAt p).map
          (max · (T.boundary readThrough))).getD (T.boundary readThrough)) := by
  cases hwork : T.work with
  | insertReaction key =>
    simp only [Transaction.commit, hwork]
    exact .inl (Database.insertReaction_cursorAt s.db key _ p)
  | snapshot threadRootId limit after =>
    refine .inl ?_
    simp only [Transaction.commit, hwork]
  | acknowledge threadRootId readThrough =>
    simp only [Transaction.commit, hwork, Database.cursorAt]
    by_cases heq : p.chatId = T.chatId ∧ p.uid = T.uid ∧ p.threadRootId = threadRootId
    · obtain ⟨hchat, huid, rfl⟩ := heq
      have hscope : T.scope = p.scope := by rw [Transaction.scope, Place.scope, hchat, huid]
      have hmember : s.isMember T.scope := hscope ▸ hmember
      refine .inr ⟨readThrough, hscope, rfl, ?_⟩
      rw [hchat, huid]
      exact Database.acknowledge_cursor s.db _ hmember
    · exact .inl (Database.acknowledge_cursor_ne s.db _ heq)

theorem commit_messages (T : Transaction) (db : Database) :
    (T.commit db).1.messages = db.messages := by
  cases hwork : T.work with
  | insertReaction key =>
    simp only [Transaction.commit, hwork]
    exact (Database.insertReaction_rest db key _).1
  | snapshot threadRootId limit after => simp only [Transaction.commit, hwork]
  | acknowledge threadRootId readThrough =>
    simp only [Transaction.commit, hwork]
    exact (Database.acknowledge_rest db _ _ _ _).1

theorem commit_reaction {T : Transaction} {db : Database} {key : Int × Int × String}
    {r : MessageReaction} (h : (T.commit db).1.messageReactions.row key = some r) :
    db.messageReactions.row key = some r ∨
      T.work = .insertReaction key ∧ r = ⟨T.now, T.uid⟩ ∧ db.messageReactions.row key = none := by
  cases hwork : T.work with
  | insertReaction other =>
    simp only [Transaction.commit, hwork] at h
    rcases Database.insertReaction_row h with hold | ⟨rfl, hnew, hnone⟩
    · exact .inl hold
    · exact .inr ⟨rfl, hnew, hnone⟩
  | snapshot threadRootId limit after =>
    simp only [Transaction.commit, hwork] at h
    exact .inl h
  | acknowledge threadRootId readThrough =>
    simp only [Transaction.commit, hwork, (Database.acknowledge_rest db _ _ _ _).2] at h
    exact .inl h

theorem isMember_next (hnext : Next s event u) (scope : Int × Int) :
    u.isMember scope ↔ s.isMember scope := by
  cases hnext with
  | begin _ tx T u hclock hfree hkey hlock hdb hnow htransactions hlocks => rw [isMember, hdb, isMember]
  | commit tx T hT =>
    rw [isMember, close_db, isMember]
    cases hwork : T.work with
    | insertReaction key =>
      simp only [Transaction.commit, hwork, (Database.insertReaction_rest s.db key _).2.1]
    | snapshot threadRootId limit after => simp only [Transaction.commit, hwork]
    | acknowledge threadRootId readThrough =>
      simp only [Transaction.commit, hwork, Database.acknowledge_members]
  | rollback tx T hT => rw [isMember, close_db, isMember]
  | write statement hnow =>
    rw [isMember, isMember, (Database.write_effect s.db statement).memberships]
  | tick now hnow => rfl

/-- A write outside a transaction leaves a reaction unread under the condition. -/
theorem write_leavesUnread {statement : Statement} {key : Int × Int × String} {createdAt : Int}
    (hplace : s.db.place key.1 = some p) (hlive : s.db.isDeleted key.1 = false)
    (hbefore : ∀ rootId, p.threadRootId = some rootId →
      (p.chatId, rootId, p.uid) ∈ statement.ensures.1 →
      s.db.threadUserStates.row (p.chatId, rootId, p.uid) = none →
      s.db.place key.1 = some ⟨p.chatId, p.uid, some rootId⟩ → s.db.isDeleted key.1 = false →
      statement.ensures.2 < createdAt)
    (h : s.db.LeavesUnread p createdAt) : (s.db.write statement).LeavesUnread p createdAt := by
  unfold Database.LeavesUnread at h ⊢
  rcases (Database.write_effect s.db statement).cursorAt p with heq | ⟨rootId, hroot, hmem, hnone, hnew⟩
  · rw [heq]
    exact h
  · rw [hnew, Option.all_some, decide_eq_true_eq]
    exact hbefore rootId hroot hmem hnone (by rw [hplace, ← hroot]) hlive

theorem Pending.next (h : s.Pending) (hinv : s.Inv) (hkeeps : s.KeepsUnread event)
    (hnext : Next s event u) : u.Pending := by
  intro tx T key p hT hmember hwork hplace hlive hforeign
  replace hmember := (isMember_next hnext T.scope).mp hmember
  cases hnext with
  | begin _ tx' T' u hclock hfree hkey hlock hdb hnow htransactions hlocks =>
    rw [hdb] at hplace hlive ⊢
    rw [htransactions] at hT
    split at hT
    · obtain rfl := Option.some.inj hT
      exact hinv.leavesUnread_of_clock_lt hclock
    · exact h tx T key p hT hmember hwork hplace hlive hforeign
  | commit tx' T' hT' =>
    rw [close_db, Database.place_congr (commit_messages T' s.db)] at hplace
    rw [close_db, Database.isDeleted_congr (commit_messages T' s.db)] at hlive
    obtain ⟨hne, hT⟩ := of_close_transactions hT
    have hunread := h tx T key p hT hmember hwork hplace hlive hforeign
    obtain ⟨p', hp', hscope⟩ := hinv.inserts tx T key hT hwork
    obtain rfl := Option.some.inj (hplace.symm.trans hp')
    unfold Database.LeavesUnread at hunread ⊢
    rw [close_db]
    rcases commit_cursorAt (T := T') (hscope ▸ hmember) with heq | ⟨readThrough, hscope', -, -⟩
    · rw [heq]
      exact hunread
    · exact absurd (hinv.unique hT hT' hmember (hscope'.trans hscope)).symm hne
  | rollback tx' T' hT' =>
    rw [close_db] at hplace hlive ⊢
    exact h tx T key p (of_close_transactions hT).2 hmember hwork hplace hlive hforeign
  | write statement hnow =>
    have heffect := Database.write_effect s.db statement
    obtain ⟨p', hp', -⟩ := hinv.inserts tx T key hT hwork
    obtain rfl := Option.some.inj ((heffect.place _ p' hp').symm.trans hplace)
    have hlive := heffect.not_deleted hlive
    apply write_leavesUnread hp' hlive _ (h tx T key p' hT hmember hwork hp' hlive hforeign)
    intro rootId hroot hmem hnone hplace hlive
    exact (hkeeps statement rfl _ rootId _ hmem hnone key hplace hlive hforeign).2 tx T hT hwork
  | tick now hnow => exact h tx T key p hT hmember hwork hplace hlive hforeign

theorem Tracked.next {key : Int × Int × String} {r : MessageReaction} (h : Tracked key r p s)
    (hmember : s.isMember p.scope) (hforeign : key.2.1 ≠ p.uid)
    (hkeeps : s.KeepsUnread event) (hnot : ¬s.Acknowledges p r.createdAt event)
    (hnext : Next s event u) : Tracked key r p u := by
  cases hnext with
  | begin _ tx T u hclock hfree hkey hlock hdb hnow htransactions hlocks =>
    refine ⟨hnow ▸ h.clock.trans hclock.le, fun other T' hT' hwork => ?_, hdb ▸ h.place,
      hdb ▸ h.unread⟩
    rw [htransactions] at hT'
    split at hT'
    · obtain rfl := Option.some.inj hT'
      exact h.clock.trans_lt hclock
    · exact h.later other T' hT' hwork
  | commit tx T hT =>
    refine ⟨by rw [close_clock]; exact h.clock, fun other T' hT' hwork => ?_, ?_, fun hlive hr => ?_⟩
    · exact h.later other T' (of_close_transactions hT').2 hwork
    · rw [close_db, Database.place_congr (commit_messages T s.db)]
      exact h.place
    · rw [close_db, Database.isDeleted_congr (commit_messages T s.db)] at hlive
      rw [close_db] at hr
      rcases commit_reaction hr with hold | ⟨hwork, hnew, -⟩
      · have hunread := h.unread hlive hold
        unfold Database.LeavesUnread at hunread ⊢
        rw [close_db]
        rcases commit_cursorAt (T := T) hmember with heq | ⟨readThrough, hscope, hwork, heq⟩
        · rw [heq]
          exact hunread
        · have hlt : T.boundary readThrough < r.createdAt := by
            by_contra hge
            exact hnot ⟨tx, T, readThrough, rfl, hT, hscope, hwork, not_lt.mp hge⟩
          rw [heq, Option.all_some, decide_eq_true_eq]
          cases hc : s.db.cursorAt p with
          | none => exact hlt
          | some c =>
            rw [hc, Option.all_some, decide_eq_true_eq] at hunread
            exact max_lt hunread hlt
      · have hlt := h.later tx T hT hwork
        rw [hnew] at hlt
        exact absurd hlt (lt_irrefl _)
  | rollback tx T hT =>
    refine ⟨by rw [close_clock]; exact h.clock, fun other T' hT' hwork => ?_, ?_, ?_⟩
    · exact h.later other T' (of_close_transactions hT').2 hwork
    · rw [close_db]
      exact h.place
    · rw [close_db]
      exact h.unread
  | write statement hnow =>
    have heffect := Database.write_effect s.db statement
    refine ⟨h.clock, h.later, heffect.place _ p h.place, fun hlive hr => ?_⟩
    have hlive := heffect.not_deleted hlive
    have hold := heffect.reactions key r hr
    apply write_leavesUnread h.place hlive _ (h.unread hlive hold)
    intro rootId hroot hmem hnone hplace hlive
    exact (hkeeps statement rfl _ rootId _ hmem hnone key hplace hlive hforeign).1 r hold
  | tick now hnow => exact ⟨h.clock.trans hnow.le, h.later, h.place, h.unread⟩

/-- The cursor of the place covers the time. -/
def Covered (p : Place) (createdAt : Int) (s : State) : Prop :=
  ∃ c, s.db.cursorAt p = some c ∧ createdAt ≤ c

theorem Covered.next {createdAt : Int} (h : Covered p createdAt s) (hmember : s.isMember p.scope)
    (hnext : Next s event u) : Covered p createdAt u := by
  obtain ⟨c, hc, hle⟩ := h
  cases hnext with
  | begin _ tx T u hclock hfree hkey hlock hdb hnow htransactions hlocks => exact ⟨c, hdb ▸ hc, hle⟩
  | commit tx T hT =>
    unfold Covered
    rw [close_db]
    rcases commit_cursorAt (T := T) hmember with heq | ⟨readThrough, -, -, heq⟩
    · exact ⟨c, heq.trans hc, hle⟩
    · rw [hc] at heq
      exact ⟨_, heq, hle.trans (le_max_left _ _)⟩
  | rollback tx T hT =>
    unfold Covered
    rw [close_db]
    exact ⟨c, hc, hle⟩
  | write statement hnow =>
    rcases (Database.write_effect s.db statement).cursorAt p with heq | ⟨rootId, hroot, -, hnone, -⟩
    · exact ⟨c, heq.trans hc, hle⟩
    · simp only [Database.cursorAt, Database.cursor, hroot, hnone] at hc
      cases hc
  | tick now hnow => exact ⟨c, hc, hle⟩

/-- Reactions of the scope that are not of the snapshot's database are later than its boundary. -/
structure AfterSnapshot (scope : Int × Int) (readThrough : Int) (before : Database) (s : State) :
    Prop where
  clock : readThrough ≤ s.clock
  pending : ∀ tx T, s.transactions tx = some T → T.scope = scope → readThrough < T.now
  reactions : ∀ key r p, s.db.messageReactions.row key = some r → s.db.place key.1 = some p →
    p.scope = scope → before.messageReactions.row key = some r ∨ readThrough < r.createdAt

theorem AfterSnapshot.next {scope : Int × Int} {readThrough : Int} {before : Database}
    (h : AfterSnapshot scope readThrough before s) (hinv : s.Inv) (hnext : Next s event u) :
    AfterSnapshot scope readThrough before u := by
  cases hnext with
  | begin _ tx T u hclock hfree hkey hlock hdb hnow htransactions hlocks =>
    refine ⟨hnow ▸ h.clock.trans hclock.le, fun other T' hT' hscope => ?_, hdb ▸ h.reactions⟩
    rw [htransactions] at hT'
    split at hT'
    · obtain rfl := Option.some.inj hT'
      exact h.clock.trans_lt hclock
    · exact h.pending other T' hT' hscope
  | commit tx T hT =>
    refine ⟨by rw [close_clock]; exact h.clock, fun other T' hT' hscope => ?_,
      fun key r p hr hp hscope => ?_⟩
    · exact h.pending other T' (of_close_transactions hT').2 hscope
    · rw [close_db] at hr
      rw [close_db, Database.place_congr (commit_messages T s.db)] at hp
      rcases commit_reaction hr with hold | ⟨hwork, hnew, -⟩
      · exact h.reactions key r p hold hp hscope
      · obtain ⟨p', hp', hscope'⟩ := hinv.inserts tx T key hT hwork
        obtain rfl := Option.some.inj (hp.symm.trans hp')
        rw [hnew]
        exact .inr (h.pending tx T hT (hscope'.symm.trans hscope))
  | rollback tx T hT =>
    refine ⟨by rw [close_clock]; exact h.clock, fun other T' hT' hscope => ?_, ?_⟩
    · exact h.pending other T' (of_close_transactions hT').2 hscope
    · rw [close_db]
      exact h.reactions
  | write statement hnow =>
    have heffect := Database.write_effect s.db statement
    refine ⟨h.clock, h.pending, fun key r p hr hp hscope => ?_⟩
    have hold := heffect.reactions key r hr
    obtain ⟨p', hp', -⟩ := hinv.authored key r hold
    obtain rfl := Option.some.inj ((heffect.place _ p' hp').symm.trans hp)
    exact h.reactions key r p' hold hp' hscope
  | tick now hnow => exact ⟨h.clock.trans hnow.le, h.pending, h.reactions⟩

/-- No call is under way, and no timestamp is ahead of the clock. -/
structure Start (s : State) : Prop where
  idle : ∀ tx, s.transactions tx = none
  authored : ∀ key r, s.db.messageReactions.row key = some r →
    ∃ p, s.db.place key.1 = some p ∧ p.uid = r.messageAuthorUid ∧ r.createdAt ≤ s.clock
  memberCursors : ∀ scope c, s.db.groupMembership.row scope = some c → c ≤ s.clock
  threadCursors : ∀ key c, s.db.threadUserStates.row key = some c → c ≤ s.clock

theorem Start.inv (h : s.Start) : s.Inv := by
  have hidle : ∀ {tx T}, s.transactions tx ≠ some T := by
    intro tx T hT
    rw [h.idle] at hT
    cases hT
  exact ⟨fun _ _ hT => absurd hT hidle, fun _ _ hT => absurd hT hidle,
    fun _ _ _ hT => absurd hT hidle, h.authored, fun _ _ _ _ _ hT => absurd hT hidle,
    h.memberCursors, fun _ _ _ hT => absurd hT hidle, h.threadCursors⟩

theorem Start.pending (h : s.Start) : s.Pending := by
  intro tx T key p hT
  rw [h.idle] at hT
  cases hT

/-- A snapshot that its limit does not cut lists the messages of its scope with an unread foreign
reaction, later than `after` where it has one. -/
def SnapshotsExact (s : State) : Prop :=
  ∀ tx T threadRootId limit after readThrough ids u, s.transactions tx = some T →
    s.isMember T.scope → T.work = .snapshot threadRootId limit after →
    execute s (.commit tx) = some (u, some (.snapshot readThrough ids)) →
    (s.db.listed T.uid T.chatId threadRootId readThrough after).card ≤ limit →
    ∀ id, id ∈ ids ↔ ∃ key r, s.db.messageReactions.row key = some r ∧ key.1 = id ∧
      s.db.isUnread T.uid T.chatId threadRootId key r = true ∧
      after.all (· < r.createdAt) = true

/-- An acknowledgement up to a snapshot's boundary, whenever it comes, reads no reaction that was
committed after the snapshot. -/
def AcknowledgesSnapshotOnly (s : State) : Prop :=
  ∀ tx T threadRootId limit after readThrough ids t, s.transactions tx = some T →
    s.isMember T.scope → T.work = .snapshot threadRootId limit after →
    execute s (.commit tx) = some (t, some (.snapshot readThrough ids)) →
    ∀ later u tx' T' u', run step t later = some u → u.transactions tx' = some T' →
    T'.work = .acknowledge threadRootId (some readThrough) → T'.scope = T.scope →
    step u (.commit tx') = some u' →
    ∀ key r, u.db.messageReactions.row key = some r → t.db.messageReactions.row key ≠ some r →
      u.db.isUnread T.uid T.chatId threadRootId key r = true →
      u'.db.isUnread T.uid T.chatId threadRootId key r = true

/-- A foreign reaction counts as unread from its commit, while it and its message are there, until
an acknowledgement of its scope covers it, and not afterwards. -/
def UnreadUntilAcknowledged (ok : State → Event → Prop) (s : State) : Prop :=
  ∀ tx T key p t, s.transactions tx = some T → s.isMember T.scope →
    T.work = .insertReaction key → s.db.place key.1 = some p → key.2.1 ≠ T.uid →
    s.db.messageReactions.row key = none → step s (.commit tx) = some t →
    ∀ later u, run step t later = some u → Along step ok t later →
    u.db.messageReactions.row key = some ⟨T.now, T.uid⟩ →
    (Along step (fun v event => ¬v.Acknowledges p T.now event) t later →
      (∃ m, u.db.messages.row key.1 = some m ∧ m.deletedAt = none ∧ m.isPublished = true) →
      u.db.isUnread T.uid T.chatId p.threadRootId key ⟨T.now, T.uid⟩ = true ∧
        key.1 ∈ u.db.unreadMessages T.uid T.chatId p.threadRootId) ∧
    ∀ before event after v, later = before ++ event :: after → run step t before = some v →
      v.Acknowledges p T.now event →
      u.db.isUnread T.uid T.chatId p.threadRootId key ⟨T.now, T.uid⟩ = false

theorem Inv.place_of_isUnread (h : s.Inv) {uid chatId : Int} {threadRootId : Option Int}
    {key : Int × Int × String} {r : MessageReaction}
    (hr : s.db.messageReactions.row key = some r)
    (hunread : s.db.isUnread uid chatId threadRootId key r = true) :
    s.db.place key.1 = some ⟨chatId, uid, threadRootId⟩ := by
  obtain ⟨hauthor, -, ⟨m, hm, hchat, hroot, -, -⟩, -⟩ := Database.isUnread_iff.mp hunread
  obtain ⟨p, hp, huid, -⟩ := h.authored key r hr
  have hplace : s.db.place key.1 = some m.place := by rw [Database.place, hm, Option.map_some]
  obtain rfl := Option.some.inj (hplace.symm.trans hp)
  have hsender : m.senderUid = uid := huid.trans hauthor
  rw [hplace, Message.place, hchat, hroot, hsender]

theorem Inv.listed_iff (h : s.Inv) {tx : Nat} {T : Transaction} (hT : s.transactions tx = some T)
    (hmember : s.isMember T.scope) (threadRootId after : Option Int) (id : Int) :
    id ∈ s.db.listed T.uid T.chatId threadRootId T.now after ↔
      ∃ key r, s.db.messageReactions.row key = some r ∧ key.1 = id ∧
        s.db.isUnread T.uid T.chatId threadRootId key r = true ∧
        after.all (· < r.createdAt) = true := by
  rw [Database.listed, Table.mem_image]
  constructor
  · intro hlisted
    obtain ⟨key, r, hr, hconditions, hid⟩ := hlisted
    simp only [Bool.and_eq_true] at hconditions
    exact ⟨key, r, hr, hid, hconditions.1.1, hconditions.2⟩
  · intro hunread
    obtain ⟨key, r, hr, hid, hunread, hafter⟩ := hunread
    have hplace := h.place_of_isUnread hr hunread
    have hlt := h.ordered tx T key r _ hT hmember hr hplace rfl
    refine ⟨key, r, hr, ?_, hid⟩
    rw [hunread, hafter, decide_eq_true hlt.le]
    rfl

theorem commit_answer {tx : Nat} {T : Transaction} {answer : Option Answer}
    (hT : s.transactions tx = some T) (h : execute s (.commit tx) = some (u, answer)) :
    u = s.close tx T (T.commit s.db).1 ∧ answer = some (T.commit s.db).2 := by
  simp only [execute, hT, Option.map_some, Option.some.injEq, Prod.mk.injEq] at h
  exact ⟨h.1.symm, h.2.symm⟩

theorem commit_step {tx : Nat} {T : Transaction} (hT : s.transactions tx = some T)
    (h : step s (.commit tx) = some u) : u = s.close tx T (T.commit s.db).1 := by
  obtain ⟨⟨after, answer⟩, hexecute, rfl⟩ := Option.map_eq_some_iff.mp h
  exact (commit_answer hT hexecute).1

theorem snapshot_answer {tx : Nat} {T : Transaction} {threadRootId after : Option Int}
    {limit : Nat} {readThrough : Int} {ids : List Int} (hT : s.transactions tx = some T)
    (hwork : T.work = .snapshot threadRootId limit after)
    (h : execute s (.commit tx) = some (u, some (.snapshot readThrough ids))) :
    u = s.close tx T s.db ∧ readThrough = T.now ∧
      ids = s.db.listChatUnreadReactions T.uid T.chatId threadRootId limit T.now after := by
  obtain ⟨hu, hanswer⟩ := commit_answer hT h
  simp only [Transaction.commit, hwork, Option.some.injEq, Answer.snapshot.injEq] at hu hanswer
  exact ⟨hu, hanswer⟩

theorem Inv.snapshotsExact (h : s.Inv) : s.SnapshotsExact := by
  intro tx T threadRootId limit after readThrough ids u hT hmember hwork hexecute hlimit id
  obtain ⟨-, rfl, rfl⟩ := snapshot_answer hT hwork hexecute
  have hwhole : s.db.listChatUnreadReactions T.uid T.chatId threadRootId limit T.now after =
      (s.db.listed T.uid T.chatId threadRootId T.now after).sort (· ≥ ·) := by
    apply List.take_of_length_le
    rw [Finset.length_sort]
    exact hlimit
  rw [hwhole, Finset.mem_sort]
  exact h.listed_iff hT hmember threadRootId after id

theorem run_isMember {later : List Event} (hrun : run step s later = some u) {scope : Int × Int}
    (hmember : s.isMember scope) : u.isMember scope :=
  run_invariant (I := fun v => v.isMember scope)
    (fun _ _ _ hv hstep => (isMember_next (next_of_step hstep) scope).mpr hv) hmember hrun

theorem Inv.afterSnapshot (h : s.Inv) {tx : Nat} {T : Transaction}
    (hT : s.transactions tx = some T) (hmember : s.isMember T.scope) :
    AfterSnapshot T.scope T.now s.db (s.close tx T s.db) := by
  refine ⟨by rw [close_clock]; exact h.drawn tx T hT, fun other T' hT' hscope => ?_, ?_⟩
  · obtain ⟨hne, hT'⟩ := of_close_transactions hT'
    exact absurd (h.unique hT hT' hmember hscope) hne
  · rw [close_db]
    exact fun key r p hr _ _ => .inl hr

theorem Inv.acknowledgesSnapshotOnly (h : s.Inv) : s.AcknowledgesSnapshotOnly := by
  intro tx T threadRootId limit after readThrough ids t hT hmember hwork hexecute later u tx' T' u'
    hrun hT' hwork' hscope hstep key r hr hnew hunread
  have ht : t.Inv := h.next (next_of_execute hexecute)
  obtain ⟨rfl, rfl, -⟩ := snapshot_answer hT hwork hexecute
  have hafter : u.Inv ∧ AfterSnapshot T.scope T.now s.db u := by
    apply run_invariant (I := fun v => v.Inv ∧ AfterSnapshot T.scope T.now s.db v) _
      ⟨ht, h.afterSnapshot hT hmember⟩ hrun
    intro v event w hv hstep
    have hnext := next_of_step hstep
    exact ⟨hv.1.next hnext, hv.2.next hv.1 hnext⟩
  have hplace := hafter.1.place_of_isUnread hr hunread
  have hlater : T.now < r.createdAt := by
    rcases hafter.2.reactions key r _ hr hplace rfl with hold | hlater
    · rw [close_db] at hnew
      exact absurd hold hnew
    · exact hlater
  have hmember' : u.isMember T.scope := by
    apply run_isMember hrun
    rw [isMember, close_db]
    exact hmember
  obtain rfl := commit_step hT' hstep
  rw [close_db]
  obtain ⟨hauthor, hforeign, hlive, hcursor⟩ := Database.isUnread_iff.mp hunread
  refine Database.isUnread_iff.mpr ⟨hauthor, hforeign, ?_, ?_⟩
  · rw [commit_messages]
    exact hlive
  · have hboundary : T'.boundary (some T.now) < r.createdAt :=
      (min_le_left _ _).trans_lt hlater
    rcases commit_cursorAt (T := T') (p := ⟨T.chatId, T.uid, threadRootId⟩) hmember' with
      heq | ⟨readThrough, -, hack, heq⟩
    · exact (congrArg (Option.all (· < r.createdAt)) heq).trans hcursor
    · rw [hwork'] at hack
      obtain ⟨-, rfl⟩ := Work.acknowledge.inj hack
      refine (congrArg (Option.all (· < r.createdAt)) heq).trans ?_
      rw [Option.all_some, decide_eq_true_eq]
      cases hc : u.db.cursorAt ⟨T.chatId, T.uid, threadRootId⟩ with
      | none => exact hboundary
      | some c =>
        have hc' : u.db.cursor T.chatId T.uid threadRootId = some c := hc
        rw [hc', Option.all_some, decide_eq_true_eq] at hcursor
        exact max_lt hcursor hboundary

/-- At its commit a foreign reaction is unread. -/
theorem Pending.tracked (h : s.Pending) (hinv : s.Inv) {tx : Nat} {T : Transaction}
    {key : Int × Int × String} (hT : s.transactions tx = some T) (hmember : s.isMember T.scope)
    (hwork : T.work = .insertReaction key) (hplace : s.db.place key.1 = some p)
    (hforeign : key.2.1 ≠ p.uid) :
    Tracked key ⟨T.now, T.uid⟩ p (s.close tx T (T.commit s.db).1) := by
  refine ⟨by rw [close_clock]; exact hinv.drawn tx T hT, fun other T' hT' hwork' => ?_, ?_,
    fun hlive _ => ?_⟩
  · obtain ⟨hne, hT'⟩ := of_close_transactions hT'
    obtain ⟨q, hq, hscope⟩ := hinv.inserts tx T key hT hwork
    obtain ⟨q', hq', hscope'⟩ := hinv.inserts other T' key hT' hwork'
    obtain rfl := Option.some.inj (hq.symm.trans hq')
    exact absurd (hinv.unique hT hT' hmember (hscope'.symm.trans hscope)) hne
  · rw [close_db, Database.place_congr (commit_messages T s.db)]
    exact hplace
  · rw [close_db, Database.isDeleted_congr (commit_messages T s.db)] at hlive
    have hunread := h tx T key p hT hmember hwork hplace hlive hforeign
    rw [close_db]
    simp only [Transaction.commit, hwork]
    unfold Database.LeavesUnread at hunread ⊢
    rw [Database.insertReaction_cursorAt]
    exact hunread

theorem Pending.unreadUntilAcknowledged (h : s.Pending) (hinv : s.Inv) :
    s.UnreadUntilAcknowledged KeepsUnread := by
  intro tx T key p t hT hmember hwork hplace hforeign _ hstep later u hrun hkeeps hr
  obtain ⟨q, hq, hscope⟩ := hinv.inserts tx T key hT hwork
  obtain rfl := Option.some.inj (hplace.symm.trans hq)
  have huid : p.uid = T.uid := (Prod.mk.inj hscope).2
  have hchat : p.chatId = T.chatId := (Prod.mk.inj hscope).1
  have hforeign' : key.2.1 ≠ p.uid := huid ▸ hforeign
  have hnext := next_of_step hstep
  have htmember : t.isMember p.scope := (isMember_next hnext _).mpr (hscope ▸ hmember)
  have htracked : Tracked key ⟨T.now, T.uid⟩ p t :=
    commit_step hT hstep ▸ h.tracked hinv hT hmember hwork hplace hforeign'
  refine ⟨fun hacknowledges hlive => ?_, fun before event after v hlater hbefore hacknowledged => ?_⟩
  · have hend : u.isMember p.scope ∧ Tracked key ⟨T.now, T.uid⟩ p u := by
      apply run_invariant_along (I := fun v => v.isMember p.scope ∧
        Tracked key ⟨T.now, T.uid⟩ p v) _ ⟨htmember, htracked⟩ (hkeeps.and hacknowledges) hrun
      intro v event w hv hok hstep
      have hnext := next_of_step hstep
      exact ⟨(isMember_next hnext _).mpr hv.1, hv.2.next hv.1 hforeign' hok.1 hok.2 hnext⟩
    obtain ⟨m, hm, hdeleted, hpublished⟩ := hlive
    have hlive : u.db.isDeleted key.1 = false := by
      rw [Database.isDeleted, hm, Option.any_some, hdeleted]
      rfl
    have hmplace : m.place = p := by
      have hp := hend.2.place
      rw [Database.place, hm] at hp
      exact Option.some.inj hp
    have hunread : u.db.isUnread T.uid T.chatId p.threadRootId key ⟨T.now, T.uid⟩ = true := by
      refine Database.isUnread_iff.mpr ⟨rfl, hforeign, ⟨m, hm, ?_, ?_, hdeleted, hpublished⟩, ?_⟩
      · rw [← hchat, ← hmplace]
        rfl
      · rw [← hmplace]
        rfl
      · rw [← hchat, ← huid]
        exact hend.2.unread hlive hr
    exact ⟨hunread, Table.mem_image.mpr ⟨key, _, hr, hunread, rfl⟩⟩
  · subst hlater
    obtain ⟨v', hv', hrest⟩ := run_append.mp hrun
    obtain rfl := Option.some.inj (hbefore.symm.trans hv')
    obtain ⟨w, hw, hrest⟩ := run_cons_eq_some.mp hrest
    have hvmember : v.isMember p.scope := run_isMember hbefore htmember
    have hcovered : Covered p T.now w := by
      obtain ⟨tx', T', readThrough, rfl, hT', hscope', hack, hle⟩ := hacknowledged
      obtain rfl := commit_step hT' hw
      obtain ⟨hchat', huid'⟩ := Prod.mk.inj hscope'
      unfold Covered
      rw [close_db]
      simp only [Transaction.commit, hack, Database.cursorAt]
      have hvmember : v.isMember T'.scope := hscope' ▸ hvmember
      rw [← hchat', ← huid', Database.acknowledge_cursor v.db _ hvmember]
      cases hc : v.db.cursor T'.chatId T'.uid p.threadRootId with
      | none => exact ⟨_, rfl, hle⟩
      | some c => exact ⟨_, rfl, hle.trans (le_max_right _ _)⟩
    have hwmember : w.isMember p.scope := (isMember_next (next_of_step hw) _).mpr hvmember
    have hend : u.isMember p.scope ∧ Covered p T.now u := by
      apply run_invariant (I := fun v => v.isMember p.scope ∧ Covered p T.now v) _
        ⟨hwmember, hcovered⟩ hrest
      intro v event w hv hstep
      have hnext := next_of_step hstep
      exact ⟨(isMember_next hnext _).mpr hv.1, hv.2.next hv.1 hnext⟩
    obtain ⟨c, hc, hle⟩ := hend.2
    rw [Bool.eq_false_iff]
    intro hunread
    obtain ⟨-, -, -, hcursor⟩ := Database.isUnread_iff.mp hunread
    have hc' : u.db.cursor T.chatId T.uid p.threadRootId = some c := hchat ▸ huid ▸ hc
    rw [hc', Option.all_some, decide_eq_true_eq] at hcursor
    exact absurd hcursor (not_lt.mpr hle)

end State

theorem reactions_read_by_acknowledgement {s₀ s : State} {history : List Event}
    (hstart : s₀.Start) (hkeeps : Along step State.KeepsUnread s₀ history)
    (hrun : run step s₀ history = some s) :
    s.SnapshotsExact ∧ s.AcknowledgesSnapshotOnly ∧
      s.UnreadUntilAcknowledged State.KeepsUnread := by
  have hend : s.Inv ∧ s.Pending := by
    apply run_invariant_along (I := fun v => v.Inv ∧ v.Pending) _
      ⟨hstart.inv, hstart.pending⟩ hkeeps hrun
    intro v event w hv hok hstep
    have hnext := next_of_step hstep
    exact ⟨hv.1.next hnext, hv.2.next hv.1 hok hnext⟩
  exact ⟨hend.1.snapshotsExact, hend.1.acknowledgesSnapshotOnly,
    hend.2.unreadUntilAcknowledged hend.1⟩

/-- Users 1 and 2 of chat 5, before the first message. -/
def members : State where
  db := ⟨.empty, .empty, .ofList [((5, 1), 0), ((5, 2), 0)], .empty⟩
  clock := 0
  locks := fun _ => none
  transactions := fun _ => none

theorem members_start : members.Start := by
  refine ⟨fun _ => rfl, fun _ _ hr => (by cases hr), fun scope c hc => ?_,
    fun _ _ hc => (by cases hc)⟩
  have hc : (if scope = (5, 1) then some 0 else if scope = (5, 2) then some 0 else none) = some c := hc
  split at hc
  · exact (Option.some.inj hc).ge
  · split at hc
    · exact (Option.some.inj hc).ge
    · cases hc

/-- User 1 announces a pin in the thread of user 2, and user 2 reacts to the announcement. -/
def reactedAnnouncement : List Event :=
  [.write (.postMessage 10 ⟨5, 2, none, none, true⟩),
    .write (.postMessage 11 ⟨5, 1, some 10, none, true⟩), .insertReaction 0 (11, 2, "👍") 3]

theorem reactions_read_by_acknowledgement_announcement :
    ∃ s, run step members reactedAnnouncement = some s ∧
      s.UnreadUntilAcknowledged State.KeepsUnread := by
  have hpost : ∀ (v : State) (id : Int) (m : Message),
      v.KeepsUnread (.write (.postMessage id m)) := by
    intro v id m statement heq chatId rootId uid hmem
    cases heq
    cases hmem
  have hinsert : ∀ (v : State) (key : Int × Int × String), v.KeepsUnread (.insertReaction 0 key 3) := by
    intro v key statement heq
    cases heq
  have hrun : run step members reactedAnnouncement =
      some ((run step members reactedAnnouncement).get (by decide)) := (Option.some_get _).symm
  refine ⟨_, hrun, (reactions_read_by_acknowledgement members_start ?_ hrun).2.2⟩
  exact ⟨hpost _ _ _, fun _ _ => ⟨hpost _ _ _, fun _ _ => ⟨hinsert _ _, fun _ _ => trivial⟩⟩⟩

/-- Opening the thread reads the reaction: the thread state that it inserts starts at `NOW()`. -/
theorem thread_read_acknowledges : ∃ s, run step members reactedAnnouncement = some s ∧
    ¬s.UnreadUntilAcknowledged fun _ _ => True := by
  have hrun : run step members reactedAnnouncement =
      some ((run step members reactedAnnouncement).get (by decide)) := (Option.some_get _).symm
  refine ⟨_, hrun, fun h => ?_⟩
  have hunread := h 0 ⟨5, 1, 3, .insertReaction (11, 2, "👍")⟩ (11, 2, "👍") ⟨5, 1, some 10⟩
    ((step ((run step members reactedAnnouncement).get (by decide)) (.commit 0)).get (by decide))
    (by decide) (by decide) rfl (by decide) (by decide) (by decide) (Option.some_get _).symm
    [.tick 4, .write (.markThreadRead 5 10 1 4)]
    ((run step ((step ((run step members reactedAnnouncement).get (by decide)) (.commit 0)).get
      (by decide)) [.tick 4, .write (.markThreadRead 5 10 1 4)]).get (by decide))
    (Option.some_get _).symm (along_true _ _) (by decide)
  have htick : ∀ (v : State) (p : Place) (createdAt now : Int),
      ¬v.Acknowledges p createdAt (.tick now) := by
    intro v p createdAt now hack
    obtain ⟨tx, T, readThrough, heq, -⟩ := hack
    cases heq
  have hwrite : ∀ (v : State) (p : Place) (createdAt : Int) (statement : Statement),
      ¬v.Acknowledges p createdAt (.write statement) := by
    intro v p createdAt statement hack
    obtain ⟨tx, T, readThrough, heq, -⟩ := hack
    cases heq
  have hread := (hunread.1 ⟨htick _ _ _ _, fun _ _ => ⟨hwrite _ _ _ _, fun _ _ => trivial⟩⟩
    ⟨⟨5, 1, some 10, none, true⟩, by decide, rfl, rfl⟩).1
  revert hread
  decide

end Chahua.ReactionReads

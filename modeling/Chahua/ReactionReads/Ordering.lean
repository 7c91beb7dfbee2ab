import Chahua.ReactionReads.Service

namespace Chahua.ReactionReads

open Framework

/-- Where a message stands: what no write changes of it. -/
structure Place where
  chatId : Int
  uid : Int
  threadRootId : Option Int
  deriving DecidableEq, Repr

def Message.place (m : Message) : Place := ⟨m.chatId, m.senderUid, m.replyRootId⟩

def Place.scope (p : Place) : Int × Int := (p.chatId, p.uid)

namespace Database

variable {db after : Database}

def place (db : Database) (id : Int) : Option Place := (db.messages.row id).map Message.place

def isDeleted (db : Database) (id : Int) : Bool :=
  (db.messages.row id).any (·.deletedAt.isSome)

theorem isUnread_iff {uid chatId : Int} {threadRootId : Option Int} {key : Int × Int × String}
    {r : MessageReaction} : db.isUnread uid chatId threadRootId key r = true ↔
      r.messageAuthorUid = uid ∧ key.2.1 ≠ uid ∧
        (∃ m, db.messages.row key.1 = some m ∧ m.chatId = chatId ∧ m.replyRootId = threadRootId ∧
          m.deletedAt = none ∧ m.isPublished = true) ∧
        (db.cursor chatId uid threadRootId).all (· < r.createdAt) = true := by
  unfold isUnread
  cases hm : db.messages.row key.1 with
  | none => simp
  | some m =>
    simp only [Bool.and_eq_true, decide_eq_true_eq, Option.isNone_iff_eq_none, Option.some.injEq,
      exists_eq_left']
    constructor
    · intro h
      obtain ⟨⟨⟨⟨⟨⟨hauthor, hforeign⟩, hchat⟩, hdeleted⟩, hpublished⟩, hroot⟩, hcursor⟩ := h
      exact ⟨hauthor, hforeign, ⟨hchat, hroot, hdeleted, hpublished⟩, hcursor⟩
    · intro h
      obtain ⟨hauthor, hforeign, ⟨hchat, hroot, hdeleted, hpublished⟩, hcursor⟩ := h
      exact ⟨⟨⟨⟨⟨⟨hauthor, hforeign⟩, hchat⟩, hdeleted⟩, hpublished⟩, hroot⟩, hcursor⟩

/-- What a write without the lock can do: it keeps the places of messages, creates no reaction and
moves no cursor; a thread state it inserts has its `NOW()`. -/
structure Effect (db after : Database) (ensures : List (Int × Int × Int) × Int) : Prop where
  place : ∀ id p, db.place id = some p → after.place id = some p
  deleted : ∀ id, db.isDeleted id = true → after.isDeleted id = true
  reactions : ∀ key r, after.messageReactions.row key = some r →
    db.messageReactions.row key = some r
  memberships : after.groupMembership = db.groupMembership
  threads : ∀ key, after.threadUserStates.row key = db.threadUserStates.row key ∨
    db.threadUserStates.row key = none ∧ key ∈ ensures.1 ∧
      after.threadUserStates.row key = some ensures.2

variable {ensures : List (Int × Int × Int) × Int}

theorem Effect.refl (db : Database) : db.Effect db ensures :=
  ⟨fun _ _ h => h, fun _ h => h, fun _ _ h => h, rfl, fun _ => .inl rfl⟩

theorem Effect.trans {middle : Database} (h : db.Effect middle ensures)
    (h' : middle.Effect after ensures) : db.Effect after ensures := by
  refine ⟨fun id p hp => h'.place id p (h.place id p hp),
    fun id hid => h'.deleted id (h.deleted id hid),
    fun key r hr => h.reactions key r (h'.reactions key r hr),
    h'.memberships.trans h.memberships, fun key => ?_⟩
  rcases h'.threads key with heq | ⟨hnone, hmem, hnew⟩
  · rcases h.threads key with heq' | ⟨hnone, hmem, hnew⟩
    · exact .inl (heq.trans heq')
    · exact .inr ⟨hnone, hmem, heq.trans hnew⟩
  · rcases h.threads key with heq' | ⟨_, _, hsome⟩
    · exact .inr ⟨heq' ▸ hnone, hmem, hnew⟩
    · rw [hnone] at hsome
      cases hsome

theorem insertMessage_effect (id : Int) (m : Message) : db.Effect (db.insertMessage id m) ensures := by
  unfold insertMessage
  split
  · exact .refl db
  · next hnone =>
    have hne : ∀ other m', db.messages.row other = some m' → other ≠ id := by
      intro other m' hm' heq
      rw [heq, hnone] at hm'
      cases hm'
    refine ⟨fun other p hp => ?_, fun other hother => ?_, fun _ _ h => h, rfl, fun _ => .inl rfl⟩
    · obtain ⟨m', hm', -⟩ := Option.map_eq_some_iff.mp hp
      simpa [place, Table.upsert_row_ne _ _ (hne other m' hm')] using hp
    · cases hm : db.messages.row other with
      | none => simp [isDeleted, hm] at hother
      | some m' => simpa [isDeleted, Table.upsert_row_ne _ _ (hne other m' hm)] using hother

theorem updateMessage_effect (id : Int) {f : Message → Message}
    (hplace : ∀ m, (f m).place = m.place)
    (hdeleted : ∀ m, m.deletedAt.isSome = true → (f m).deletedAt.isSome = true) :
    db.Effect (db.updateMessage id f) ensures := by
  unfold updateMessage
  split
  · next m hm =>
    refine ⟨fun other p hp => ?_, fun other hother => ?_, fun _ _ h => h, rfl, fun _ => .inl rfl⟩
    · by_cases heq : other = id
      · subst heq
        simp only [place, hm, Option.map_some] at hp
        simp only [place, Table.upsert_row_self, Option.map_some, hplace, hp]
      · simpa only [place, Table.upsert_row_ne _ _ heq] using hp
    · by_cases heq : other = id
      · subst heq
        simp only [isDeleted, hm, Option.any_some] at hother
        simp only [isDeleted, Table.upsert_row_self, Option.any_some, hdeleted m hother]
      · simpa only [isDeleted, Table.upsert_row_ne _ _ heq] using hother
  · exact .refl db

theorem ensureThreadUserState_effect {key : Int × Int × Int} (hkey : key ∈ ensures.1) :
    db.Effect (db.ensureThreadUserState key.1 key.2.1 key.2.2 ensures.2) ensures := by
  unfold ensureThreadUserState
  split
  · exact .refl db
  · next hnone =>
    refine ⟨fun _ _ h => h, fun _ h => h, fun _ _ h => h, rfl, fun other => ?_⟩
    by_cases heq : other = key
    · subst heq
      exact .inr ⟨hnone, hkey, Table.upsert_row_self _ _ _⟩
    · exact .inl (Table.upsert_row_ne _ _ heq)

theorem ensureAll_effect {keys : List (Int × Int × Int)} (hkeys : ∀ key ∈ keys, key ∈ ensures.1) :
    db.Effect (db.ensureAll keys ensures.2) ensures := by
  induction keys generalizing db with
  | nil => exact .refl db
  | cons key keys ih =>
    have hfirst : db.Effect (db.ensureThreadUserState key.1 key.2.1 key.2.2 ensures.2) ensures :=
      ensureThreadUserState_effect (hkeys key List.mem_cons_self)
    exact hfirst.trans (ih fun other hother => hkeys other (List.mem_cons_of_mem _ hother))

theorem write_effect (db : Database) (statement : Statement) :
    db.Effect (db.write statement) statement.ensures := by
  cases statement with
  | deleteReaction key =>
    exact ⟨fun _ _ h => h, fun _ h => h, fun _ _ h => (Table.row_of_erase h).2, rfl,
      fun _ => .inl rfl⟩
  | deleteMessage messageId now =>
    exact updateMessage_effect messageId (fun _ => rfl) (fun _ _ => rfl)
  | publishMessage messageId =>
    exact updateMessage_effect messageId (fun _ => rfl) (fun _ hdeleted => hdeleted)
  | postMessage id message => exact insertMessage_effect id message
  | sendToThread id chatId uid threadRootId isPublished others now =>
    exact (insertMessage_effect id _).trans (ensureAll_effect fun _ hkey => hkey)
  | markChatRead chatId uid => exact .refl db
  | markThreadRead chatId threadRootId uid now => exact ensureAll_effect fun _ hkey => hkey
  | subscribe chatId threadRootId uid now => exact ensureAll_effect fun _ hkey => hkey

theorem insertReaction_row {key other : Int × Int × String} {reaction r : MessageReaction}
    (h : (db.insertReaction key reaction).messageReactions.row other = some r) :
    db.messageReactions.row other = some r ∨
      other = key ∧ r = reaction ∧ db.messageReactions.row key = none := by
  unfold insertReaction at h
  split at h
  · exact .inl h
  · next hnone =>
    by_cases heq : other = key
    · subst heq
      exact .inr ⟨rfl, (Option.some.inj ((Table.upsert_row_self _ _ _).symm.trans h)).symm, hnone⟩
    · exact .inl ((Table.upsert_row_ne _ _ heq).symm.trans h)

theorem insertReaction_rest (db : Database) (key : Int × Int × String) (reaction : MessageReaction) :
    (db.insertReaction key reaction).messages = db.messages ∧
      (db.insertReaction key reaction).groupMembership = db.groupMembership ∧
      (db.insertReaction key reaction).threadUserStates = db.threadUserStates := by
  unfold insertReaction
  split <;> exact ⟨rfl, rfl, rfl⟩

theorem acknowledge_rest (db : Database) (uid chatId : Int) (threadRootId : Option Int)
    (readThrough : Int) :
    (db.acknowledge uid chatId threadRootId readThrough).messages = db.messages ∧
      (db.acknowledge uid chatId threadRootId readThrough).messageReactions =
        db.messageReactions := by
  unfold acknowledge
  split
  · exact ⟨rfl, rfl⟩
  · split <;> exact ⟨rfl, rfl⟩

/-- An acknowledgement raises the cursor of its scope to the boundary, and no other. -/
theorem acknowledge_cursor (db : Database) {uid chatId : Int} {threadRootId : Option Int}
    (readThrough : Int) (hmember : (db.groupMembership.row (chatId, uid)).isSome = true) :
    (db.acknowledge uid chatId threadRootId readThrough).cursor chatId uid threadRootId =
      some (((db.cursor chatId uid threadRootId).map (max · readThrough)).getD readThrough) := by
  unfold acknowledge
  cases threadRootId with
  | some rootId =>
    simp only [cursor, Table.upsert_row_self]
    split
    · next hrow => simp [hrow]
    · next hrow => simp [hrow]
  | none =>
    obtain ⟨c, hc⟩ := Option.isSome_iff_exists.mp hmember
    simp [cursor, hc]

theorem acknowledge_cursor_ne (db : Database) {uid chatId uid' chatId' : Int}
    {threadRootId threadRootId' : Option Int} (readThrough : Int)
    (hne : ¬(chatId' = chatId ∧ uid' = uid ∧ threadRootId' = threadRootId)) :
    (db.acknowledge uid chatId threadRootId readThrough).cursor chatId' uid' threadRootId' =
      db.cursor chatId' uid' threadRootId' := by
  unfold acknowledge
  cases threadRootId with
  | some rootId =>
    cases threadRootId' with
    | none => rfl
    | some rootId' =>
      apply Table.upsert_row_ne
      intro heq
      simp only [Prod.mk.injEq] at heq
      exact hne ⟨heq.1, heq.2.2, by rw [heq.2.1]⟩
  | none =>
    dsimp only
    split
    · cases threadRootId' with
      | some rootId' => rfl
      | none =>
        apply Table.upsert_row_ne
        intro heq
        simp only [Prod.mk.injEq] at heq
        exact hne ⟨heq.1, heq.2, rfl⟩
    · rfl

theorem acknowledge_members (db : Database) (uid chatId : Int) (threadRootId : Option Int)
    (readThrough : Int) (scope : Int × Int) :
    ((db.acknowledge uid chatId threadRootId readThrough).groupMembership.row scope).isSome =
      (db.groupMembership.row scope).isSome := by
  unfold acknowledge
  split
  · rfl
  · split
    · next c hc =>
      rw [Table.upsert_row]
      split
      · next heq => rw [heq, hc, Option.isSome_some, Option.isSome_some]
      · rfl
    · rfl

theorem acknowledge_bounded (uid chatId : Int) (threadRootId : Option Int) {readThrough bound : Int}
    (hbound : readThrough ≤ bound)
    (hmembers : ∀ scope c, db.groupMembership.row scope = some c → c ≤ bound)
    (hthreads : ∀ key c, db.threadUserStates.row key = some c → c ≤ bound) :
    (∀ scope c,
      (db.acknowledge uid chatId threadRootId readThrough).groupMembership.row scope = some c →
        db.groupMembership.row scope = some c ∨ scope = (chatId, uid) ∧ c ≤ bound) ∧
    ∀ key c,
      (db.acknowledge uid chatId threadRootId readThrough).threadUserStates.row key = some c →
        db.threadUserStates.row key = some c ∨ c ≤ bound := by
  unfold acknowledge
  cases threadRootId with
  | some rootId =>
    refine ⟨fun _ _ hc => .inl hc, fun key c hc => ?_⟩
    by_cases heq : key = (chatId, rootId, uid)
    · subst heq
      have hc := (Table.upsert_row_self _ _ _).symm.trans hc
      split at hc
      · next old hold =>
        have hle := hthreads _ old hold
        obtain rfl := Option.some.inj hc
        exact .inr (max_le hle hbound)
      · exact .inr (Option.some.inj hc ▸ hbound)
    · exact .inl ((Table.upsert_row_ne _ _ heq).symm.trans hc)
  | none =>
    dsimp only
    split
    · next old hold =>
      refine ⟨fun scope c hc => ?_, fun _ _ hc => .inl hc⟩
      by_cases heq : scope = (chatId, uid)
      · subst heq
        have hc := (Table.upsert_row_self _ _ _).symm.trans hc
        have hle := hmembers _ old hold
        obtain rfl := Option.some.inj hc
        exact .inr ⟨rfl, max_le hle hbound⟩
      · exact .inl ((Table.upsert_row_ne _ _ heq).symm.trans hc)
    · exact ⟨fun _ _ hc => .inl hc, fun _ _ hc => .inl hc⟩

end Database

/-- The transitions: a transaction takes its lock, ends with its work or without it, and anything
else happens beside. -/
inductive Next (s : State) : Event → State → Prop
  | begin (event : Event) (tx : Nat) (T : Transaction) (u : State) (hclock : s.clock < T.now)
      (hfree : s.transactions tx = none)
      (hkey : ∀ key, T.work = .insertReaction key →
        ∃ p, s.db.place key.1 = some p ∧ p.scope = T.scope)
      (hlock : (s.db.groupMembership.row T.scope).isSome = true → s.locks T.scope = none)
      (hdb : u.db = s.db) (hnow : u.clock = T.now)
      (htransactions : ∀ other, u.transactions other =
        if other = tx then some T else s.transactions other)
      (hlocks : ∀ scope, (s.db.groupMembership.row scope).isSome = true →
        u.locks scope = if scope = T.scope then some tx else s.locks scope) : Next s event u
  | commit (tx : Nat) (T : Transaction) (hT : s.transactions tx = some T) :
      Next s (.commit tx) (s.close tx T (T.commit s.db).1)
  | rollback (tx : Nat) (T : Transaction) (hT : s.transactions tx = some T) :
      Next s (.rollback tx) (s.close tx T s.db)
  | write (statement : Statement)
      (hnow : statement.ensures.1 = [] ∨ statement.ensures.2 ≤ s.clock) :
      Next s (.write statement) { s with db := s.db.write statement }
  | tick (now : Int) (hnow : s.clock < now) : Next s (.tick now) { s with clock := now }

theorem next_of_lockScope {s u : State} {tx : Nat} {T : Transaction} {event : Event}
    (hkey : ∀ key, T.work = .insertReaction key →
      ∃ p, s.db.place key.1 = some p ∧ p.scope = T.scope)
    (h : s.lockScope tx T = some u) : Next s event u := by
  unfold State.lockScope at h
  split at h
  · next hguard =>
    split at h
    · split at h
      · next hlock =>
        obtain rfl := Option.some.inj h
        exact .begin event tx T _ hguard.1 hguard.2 hkey (fun _ => hlock) rfl rfl (fun _ => rfl)
          fun _ _ => rfl
      · cases h
    · next hmember =>
      obtain rfl := Option.some.inj h
      refine .begin event tx T _ hguard.1 hguard.2 hkey (fun hsome => absurd hsome hmember) rfl rfl
        (fun _ => rfl) fun scope hscope => ?_
      have hne : scope ≠ T.scope := fun heq => hmember (heq ▸ hscope)
      rw [if_neg hne]
      rfl
  · cases h

theorem next_of_execute {s u : State} {event : Event} {answer : Option Answer}
    (h : execute s event = some (u, answer)) : Next s event u := by
  cases event with
  | insertReaction tx key now =>
    obtain ⟨m, hm, h⟩ := Option.bind_eq_some_iff.mp h
    obtain ⟨v, hv, heq⟩ := Option.map_eq_some_iff.mp h
    obtain rfl := (Prod.mk.inj heq).1
    apply next_of_lockScope _ hv
    intro other hother
    cases hother
    exact ⟨m.place, by rw [Database.place, hm, Option.map_some], rfl⟩
  | snapshot tx uid chatId threadRootId limit after now =>
    obtain ⟨v, hv, heq⟩ := Option.map_eq_some_iff.mp h
    obtain rfl := (Prod.mk.inj heq).1
    exact next_of_lockScope (fun key hkey => by cases hkey) hv
  | acknowledge tx uid chatId threadRootId readThrough now =>
    obtain ⟨v, hv, heq⟩ := Option.map_eq_some_iff.mp h
    obtain rfl := (Prod.mk.inj heq).1
    exact next_of_lockScope (fun key hkey => by cases hkey) hv
  | commit tx =>
    obtain ⟨T, hT, heq⟩ := Option.map_eq_some_iff.mp h
    obtain rfl := (Prod.mk.inj heq).1
    exact .commit tx T hT
  | rollback tx =>
    obtain ⟨T, hT, heq⟩ := Option.map_eq_some_iff.mp h
    obtain rfl := (Prod.mk.inj heq).1
    exact .rollback tx T hT
  | write statement =>
    simp only [execute] at h
    split at h
    · next hnow =>
      obtain rfl := (Prod.mk.inj (Option.some.inj h)).1
      exact .write statement hnow
    · cases h
  | tick now =>
    simp only [execute] at h
    split at h
    · next hnow =>
      obtain rfl := (Prod.mk.inj (Option.some.inj h)).1
      exact .tick now hnow
    · cases h

namespace State

variable {s u : State}

@[simp] theorem close_db (s : State) (tx : Nat) (T : Transaction) (db : Database) :
    (s.close tx T db).db = db := by
  unfold close
  split <;> rfl

@[simp] theorem close_clock (s : State) (tx : Nat) (T : Transaction) (db : Database) :
    (s.close tx T db).clock = s.clock := by
  unfold close
  split <;> rfl

theorem close_transactions (s : State) (tx : Nat) (T : Transaction) (db : Database) (other : Nat) :
    (s.close tx T db).transactions other = if other = tx then none else s.transactions other := by
  unfold close
  split <;> rfl

theorem of_close_transactions {tx other : Nat} {T T' : Transaction} {db : Database}
    (h : (s.close tx T db).transactions other = some T') :
    other ≠ tx ∧ s.transactions other = some T' := by
  rw [close_transactions] at h
  split at h
  · cases h
  · next hne => exact ⟨hne, h⟩

theorem close_locks_ne (s : State) {tx other : Nat} (T : Transaction) (db : Database)
    {scope : Int × Int} (hne : other ≠ tx) (h : s.locks scope = some other) :
    (s.close tx T db).locks scope = some other := by
  unfold close
  split
  · next hheld =>
    have hscope : scope ≠ T.scope := by
      intro heq
      rw [← heq, h] at hheld
      exact hne (Option.some.inj hheld)
    show (if scope = T.scope then none else s.locks scope) = some other
    rw [if_neg hscope, h]
  · exact h

def isMember (s : State) (scope : Int × Int) : Prop :=
  (s.db.groupMembership.row scope).isSome = true

instance (s : State) (scope : Int × Int) : Decidable (s.isMember scope) :=
  inferInstanceAs (Decidable (_ = true))

/-- The lock gives the transactions on a member's scope an order, and their timestamps follow it. -/
structure Inv (s : State) : Prop where
  locked : ∀ tx T, s.transactions tx = some T → s.isMember T.scope → s.locks T.scope = some tx
  drawn : ∀ tx T, s.transactions tx = some T → T.now ≤ s.clock
  inserts : ∀ tx T key, s.transactions tx = some T → T.work = .insertReaction key →
    ∃ p, s.db.place key.1 = some p ∧ p.scope = T.scope
  authored : ∀ key r, s.db.messageReactions.row key = some r →
    ∃ p, s.db.place key.1 = some p ∧ p.uid = r.messageAuthorUid ∧ r.createdAt ≤ s.clock
  ordered : ∀ tx T key r p, s.transactions tx = some T → s.isMember T.scope →
    s.db.messageReactions.row key = some r → s.db.place key.1 = some p → p.scope = T.scope →
    r.createdAt < T.now
  memberCursors : ∀ scope c, s.db.groupMembership.row scope = some c → c ≤ s.clock
  memberOrdered : ∀ tx T c, s.transactions tx = some T →
    s.db.groupMembership.row T.scope = some c → c < T.now
  threadCursors : ∀ key c, s.db.threadUserStates.row key = some c → c ≤ s.clock

theorem Inv.unique (h : s.Inv) {tx other : Nat} {T T' : Transaction}
    (hT : s.transactions tx = some T) (hT' : s.transactions other = some T')
    (hmember : s.isMember T.scope) (hscope : T'.scope = T.scope) : other = tx := by
  have hlock := h.locked tx T hT hmember
  have hlock' := h.locked other T' hT' (hscope ▸ hmember)
  rw [hscope, hlock] at hlock'
  exact (Option.some.inj hlock').symm

/-- Ending a transaction: the others keep their order over what it leaves. -/
theorem Inv.close (h : s.Inv) {tx : Nat} {T : Transaction} {db : Database}
    (hplace : ∀ id, db.place id = s.db.place id)
    (hmembers : ∀ scope, (db.groupMembership.row scope).isSome =
      (s.db.groupMembership.row scope).isSome)
    (hreactions : ∀ key r, db.messageReactions.row key = some r →
      s.db.messageReactions.row key = some r ∨
        r.createdAt = T.now ∧ ∃ p, s.db.place key.1 = some p ∧ p.scope = T.scope ∧
          p.uid = r.messageAuthorUid)
    (hmember : ∀ scope c, db.groupMembership.row scope = some c →
      s.db.groupMembership.row scope = some c ∨ scope = T.scope ∧ c ≤ s.clock)
    (hthread : ∀ key c, db.threadUserStates.row key = some c →
      s.db.threadUserStates.row key = some c ∨ c ≤ s.clock)
    (hT : s.transactions tx = some T) : (s.close tx T db).Inv := by
  have hisMember : ∀ {scope}, (s.close tx T db).isMember scope → s.isMember scope := by
    intro scope hscope
    rw [isMember, close_db, hmembers] at hscope
    exact hscope
  have hscopes : ∀ {other T'}, other ≠ tx → s.transactions other = some T' →
      s.isMember T'.scope → T'.scope ≠ T.scope := by
    intro other T' hne hT' hmem heq
    exact hne (h.unique hT hT' (heq ▸ hmem) heq)
  refine ⟨?_, ?_, ?_, ?_, ?_, ?_, ?_, ?_⟩
  · intro other T' hT' hmem
    obtain ⟨hne, hT'⟩ := of_close_transactions hT'
    exact close_locks_ne s T db hne (h.locked other T' hT' (hisMember hmem))
  · intro other T' hT'
    rw [close_clock]
    exact h.drawn other T' (of_close_transactions hT').2
  · intro other T' key hT' hwork
    rw [close_db, hplace]
    exact h.inserts other T' key (of_close_transactions hT').2 hwork
  · intro key r hr
    rw [close_db] at hr ⊢
    rw [close_clock, hplace]
    rcases hreactions key r hr with hold | ⟨hnow, p, hp, -, huid⟩
    · exact h.authored key r hold
    · exact ⟨p, hp, huid, hnow ▸ h.drawn tx T hT⟩
  · intro other T' key r p hT' hmem hr hp hscope
    obtain ⟨hne, hT'⟩ := of_close_transactions hT'
    rw [close_db] at hr hp
    rw [hplace] at hp
    rcases hreactions key r hr with hold | ⟨-, p', hp', hscope', -⟩
    · exact h.ordered other T' key r p hT' (hisMember hmem) hold hp hscope
    · obtain rfl := Option.some.inj (hp.symm.trans hp')
      exact absurd (hscope.symm.trans hscope') (hscopes hne hT' (hisMember hmem))
  · intro scope c hc
    rw [close_db] at hc
    rw [close_clock]
    rcases hmember scope c hc with hold | ⟨-, hle⟩
    · exact h.memberCursors scope c hold
    · exact hle
  · intro other T' c hT' hc
    obtain ⟨hne, hT'⟩ := of_close_transactions hT'
    rw [close_db] at hc
    have hmem : s.isMember T'.scope := by
      rw [isMember, ← hmembers, hc]
      rfl
    rcases hmember T'.scope c hc with hold | ⟨heq, -⟩
    · exact h.memberOrdered other T' c hT' hold
    · exact absurd heq (hscopes hne hT' hmem)
  · intro key c hc
    rw [close_db] at hc
    rw [close_clock]
    rcases hthread key c hc with hold | hle
    · exact h.threadCursors key c hold
    · exact hle

theorem Inv.commit (h : s.Inv) {tx : Nat} {T : Transaction} (hT : s.transactions tx = some T) :
    (s.close tx T (T.commit s.db).1).Inv := by
  cases hwork : T.work with
  | insertReaction key =>
    obtain ⟨hmessages, hmembers, hthreads⟩ :=
      Database.insertReaction_rest s.db key ⟨T.now, T.uid⟩
    simp only [Transaction.commit, hwork]
    apply h.close _ _ _ _ _ hT
    · intro id
      rw [Database.place, hmessages, Database.place]
    · intro scope
      rw [hmembers]
    · intro other r hr
      rcases Database.insertReaction_row hr with hold | ⟨rfl, rfl, -⟩
      · exact .inl hold
      · obtain ⟨p, hp, hscope⟩ := h.inserts tx T other hT hwork
        exact .inr ⟨rfl, p, hp, hscope, (Prod.mk.inj hscope).2⟩
    · intro scope c hc
      exact .inl (hmembers ▸ hc)
    · intro other c hc
      exact .inl (hthreads ▸ hc)
  | snapshot threadRootId limit after =>
    simp only [Transaction.commit, hwork]
    exact h.close (fun _ => rfl) (fun _ => rfl) (fun _ _ hr => .inl hr) (fun _ _ hc => .inl hc)
      (fun _ _ hc => .inl hc) hT
  | acknowledge threadRootId readThrough =>
    have hbound : T.boundary readThrough ≤ s.clock :=
      (min_le_right _ _).trans (h.drawn tx T hT)
    obtain ⟨hmessages, hreactions⟩ :=
      Database.acknowledge_rest s.db T.uid T.chatId threadRootId (T.boundary readThrough)
    obtain ⟨hmember, hthread⟩ := Database.acknowledge_bounded T.uid T.chatId threadRootId hbound
      h.memberCursors h.threadCursors
    simp only [Transaction.commit, hwork]
    apply h.close _ _ _ hmember hthread hT
    · intro id
      rw [Database.place, hmessages, Database.place]
    · exact Database.acknowledge_members s.db T.uid T.chatId threadRootId (T.boundary readThrough)
    · intro key r hr
      exact .inl (hreactions ▸ hr)

theorem Inv.begin (h : s.Inv) {tx : Nat} {T : Transaction} (hclock : s.clock < T.now)
    (hfree : s.transactions tx = none)
    (hkey : ∀ key, T.work = .insertReaction key →
      ∃ p, s.db.place key.1 = some p ∧ p.scope = T.scope)
    (hlock : s.isMember T.scope → s.locks T.scope = none) (hdb : u.db = s.db)
    (hnow : u.clock = T.now)
    (htransactions : ∀ other, u.transactions other =
      if other = tx then some T else s.transactions other)
    (hlocks : ∀ scope, s.isMember scope →
      u.locks scope = if scope = T.scope then some tx else s.locks scope) : u.Inv := by
  have hcases : ∀ {other T'}, u.transactions other = some T' →
      other = tx ∧ T' = T ∨ other ≠ tx ∧ s.transactions other = some T' := by
    intro other T' hT'
    rw [htransactions] at hT'
    split at hT'
    · next heq => exact .inl ⟨heq, (Option.some.inj hT').symm⟩
    · next hne => exact .inr ⟨hne, hT'⟩
  have hmem : ∀ {scope}, u.isMember scope → s.isMember scope := by
    intro scope hscope
    rw [isMember, hdb] at hscope
    exact hscope
  have hscopes : ∀ {other T'}, s.transactions other = some T' → s.isMember T'.scope →
      T'.scope ≠ T.scope := by
    intro other T' hT' hmember heq
    have hheld := h.locked other T' hT' hmember
    rw [heq, hlock (heq ▸ hmember)] at hheld
    cases hheld
  refine ⟨?_, ?_, ?_, ?_, ?_, ?_, ?_, ?_⟩
  · intro other T' hT' hmember
    rw [hlocks _ (hmem hmember)]
    rcases hcases hT' with ⟨rfl, rfl⟩ | ⟨-, hold⟩
    · rw [if_pos rfl]
    · rw [if_neg (hscopes hold (hmem hmember)), h.locked other T' hold (hmem hmember)]
  · intro other T' hT'
    rw [hnow]
    rcases hcases hT' with ⟨-, rfl⟩ | ⟨-, hold⟩
    · exact le_refl _
    · exact (h.drawn other T' hold).trans hclock.le
  · intro other T' key hT' hwork
    rw [hdb]
    rcases hcases hT' with ⟨-, rfl⟩ | ⟨-, hold⟩
    · exact hkey key hwork
    · exact h.inserts other T' key hold hwork
  · intro key r hr
    rw [hdb] at hr ⊢
    obtain ⟨p, hp, huid, hle⟩ := h.authored key r hr
    exact ⟨p, hp, huid, hnow ▸ hle.trans hclock.le⟩
  · intro other T' key r p hT' hmember hr hp hscope
    rw [hdb] at hr hp
    rcases hcases hT' with ⟨-, rfl⟩ | ⟨-, hold⟩
    · obtain ⟨-, -, -, hle⟩ := h.authored key r hr
      exact hle.trans_lt hclock
    · exact h.ordered other T' key r p hold (hmem hmember) hr hp hscope
  · intro scope c hc
    rw [hdb] at hc
    exact hnow ▸ (h.memberCursors scope c hc).trans hclock.le
  · intro other T' c hT' hc
    rw [hdb] at hc
    rcases hcases hT' with ⟨-, rfl⟩ | ⟨-, hold⟩
    · exact (h.memberCursors _ c hc).trans_lt hclock
    · exact h.memberOrdered other T' c hold hc
  · intro key c hc
    rw [hdb] at hc
    exact hnow ▸ (h.threadCursors key c hc).trans hclock.le

theorem Inv.write (h : s.Inv) {statement : Statement}
    (hnow : statement.ensures.1 = [] ∨ statement.ensures.2 ≤ s.clock) :
    ({ s with db := s.db.write statement } : State).Inv := by
  have heffect := Database.write_effect s.db statement
  have hmem : ∀ {scope}, ({ s with db := s.db.write statement } : State).isMember scope →
      s.isMember scope := by
    intro scope hscope
    rw [isMember, heffect.memberships] at hscope
    exact hscope
  refine ⟨?_, h.drawn, ?_, ?_, ?_, ?_, ?_, ?_⟩
  · intro tx T hT hmember
    exact h.locked tx T hT (hmem hmember)
  · intro tx T key hT hwork
    obtain ⟨p, hp, hscope⟩ := h.inserts tx T key hT hwork
    exact ⟨p, heffect.place _ p hp, hscope⟩
  · intro key r hr
    obtain ⟨p, hp, hrest⟩ := h.authored key r (heffect.reactions key r hr)
    exact ⟨p, heffect.place _ p hp, hrest⟩
  · intro tx T key r p hT hmember hr hp hscope
    have hold := heffect.reactions key r hr
    obtain ⟨p', hp', -⟩ := h.authored key r hold
    obtain rfl := Option.some.inj ((heffect.place _ p' hp').symm.trans hp)
    exact h.ordered tx T key r p' hT (hmem hmember) hold hp' hscope
  · intro scope c hc
    exact h.memberCursors scope c (heffect.memberships ▸ hc)
  · intro tx T c hT hc
    exact h.memberOrdered tx T c hT (heffect.memberships ▸ hc)
  · intro key c hc
    rcases heffect.threads key with heq | ⟨-, hmem, hnew⟩
    · exact h.threadCursors key c (heq ▸ hc)
    · rcases hnow with hnil | hle
      · rw [hnil] at hmem
        cases hmem
      · obtain rfl := Option.some.inj (hnew.symm.trans hc)
        exact hle

theorem Inv.next (h : s.Inv) {event : Event} (hnext : Next s event u) : u.Inv := by
  cases hnext with
  | begin _ tx T u hclock hfree hkey hlock hdb hnow htransactions hlocks =>
    exact h.begin hclock hfree hkey hlock hdb hnow htransactions hlocks
  | commit tx T hT => exact h.commit hT
  | rollback tx T hT =>
    exact h.close (fun _ => rfl) (fun _ => rfl) (fun _ _ hr => .inl hr) (fun _ _ hc => .inl hc)
      (fun _ _ hc => .inl hc) hT
  | write statement hnow => exact h.write hnow
  | tick now hnow =>
    refine ⟨h.locked, fun tx T hT => (h.drawn tx T hT).trans hnow.le, h.inserts, ?_, h.ordered,
      fun scope c hc => (h.memberCursors scope c hc).trans hnow.le, h.memberOrdered,
      fun key c hc => (h.threadCursors key c hc).trans hnow.le⟩
    intro key r hr
    obtain ⟨p, hp, huid, hle⟩ := h.authored key r hr
    exact ⟨p, hp, huid, hle.trans hnow.le⟩

end State

theorem next_of_step {s u : State} {event : Event} (h : step s event = some u) : Next s event u := by
  obtain ⟨⟨after, answer⟩, hexecute, heq⟩ := Option.map_eq_some_iff.mp h
  exact heq ▸ next_of_execute hexecute

theorem State.Inv.run {s u : State} {history : List Event} (h : s.Inv)
    (hrun : Framework.run step s history = some u) : u.Inv :=
  run_invariant (fun _ _ _ hs hstep => hs.next (next_of_step hstep)) h hrun

end Chahua.ReactionReads

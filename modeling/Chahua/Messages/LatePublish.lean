import Chahua.Messages.ThreadMeta

namespace Chahua.Messages

open Framework

/-- The system with member cleanups that have deleted some batches and not reconciled them yet. -/
structure Interleaved where
  system : System
  cleanups : Table Nat DeletionImpact

/-- A cleanup commits every batch of `process_bulk_delete` and the reconciliation on its own. -/
inductive InterleavedEvent where
  | operation (e : Event)
  | cleanupBatch (cleanup : Nat) (now chatId targetUid : Int) (scope : DeleteScope)
  | cleanupReconcile (cleanup : Nat) (chatId : Int)

namespace Interleaved

def start (db : Database) : Interleaved := ⟨.start db, .empty⟩

def step (s : Interleaved) : InterleavedEvent → Option Interleaved
  | .operation e => (s.system.step e).map fun t => { s with system := t }
  | .cleanupBatch cleanup now chatId targetUid scope =>
      (s.system.db.bulkDeleteBatch now chatId targetUid scope).toOption.map fun r =>
        { system := { s.system with db := r.1 }
          cleanups := s.cleanups.upsert cleanup
            (((s.cleanups.row cleanup).getD .empty).merge r.2) }
  | .cleanupReconcile cleanup chatId =>
      (s.cleanups.row cleanup).bind fun impact =>
        (s.system.db.reconcileDeletions chatId impact).toOption.map fun db =>
          { system := { s.system with db := db }, cleanups := s.cleanups.erase cleanup }

/-- What a step can do to the tables, the jobs and the outputs. -/
inductive Next (s : Interleaved) : InterleavedEvent → Interleaved → Prop where
  | operation (e : Event) (t : System) (stepped : s.system.step e = some t) :
      Next s (.operation e) { s with system := t }
  | cleanup {e : InterleavedEvent} (db : Database) (cleanups : Table Nat DeletionImpact)
      (notOperation : ∀ o, e ≠ .operation o) (persists : Persists s.system.db db) :
      Next s e { system := { s.system with db := db }, cleanups := cleanups }

theorem softDeleted_persists {db db' : Database} {ids : List Int} (h : SoftDeleted db db' ids) :
    Persists db db' := by
  obtain ⟨time, ht⟩ := h.messages
  refine persists_of_map ht fun id m => ?_
  split
  · exact ⟨fun h => h, fun _ => rfl, rfl, rfl, rfl⟩
  · exact rowPersists_refl m

theorem reconcileDeletions_persists {db db' : Database} {chatId : Int} {impact : DeletionImpact}
    (h : db.reconcileDeletions chatId impact = .ok db') : Persists db db' := by
  have hreplies := reconcileReplies_reconciled db chatId impact.replyIds
  have hshift := shiftChat_same (db.reconcileReplies chatId impact.replyIds) chatId
    ((db.reconcileReplies chatId impact.replyIds).hiddenChatIds
      (impact.chatMessageIds ++ ascending impact.threadRootIds))
  have hlast := reconcileLastMessage_same h
  have hreconciled : Persists db (db.reconcileReplies chatId impact.replyIds) := by
    refine persists_of_map hreplies.messages fun id m => ?_
    split <;> exact ⟨fun h => h, fun h => h, rfl, rfl, rfl⟩
  exact hreconciled.trans (persists_of_messages (hlast.messages.trans hshift.messages))

theorem next_of_step {s t : Interleaved} {e : InterleavedEvent} (h : s.step e = some t) :
    s.Next e t := by
  cases e with
  | operation e =>
    obtain ⟨u, hu, rfl⟩ := Option.map_eq_some_iff.mp h
    exact .operation e u hu
  | cleanupBatch cleanup now chatId targetUid scope =>
    obtain ⟨⟨db, batch⟩, hr, rfl⟩ := Option.map_eq_some_iff.mp h
    refine .cleanup db _ (fun o heq => by cases heq) ?_
    cases hb : s.system.db.bulkDeleteBatch now chatId targetUid scope with
    | error e => simp [hb, Except.toOption] at hr
    | ok r =>
      rw [hb] at hr
      obtain rfl := Option.some.inj hr
      obtain ⟨targets, -, hsoft, -⟩ := bulkDeleteBatch_spec hb
      exact softDeleted_persists hsoft
  | cleanupReconcile cleanup chatId =>
    obtain ⟨impact, -, h⟩ := Option.bind_eq_some_iff.mp h
    obtain ⟨db, hr, rfl⟩ := Option.map_eq_some_iff.mp h
    refine .cleanup db _ (fun o heq => by cases heq) ?_
    cases hb : s.system.db.reconcileDeletions chatId impact with
    | error e => simp [hb, Except.toOption] at hr
    | ok r =>
      rw [hb] at hr
      obtain rfl := Option.some.inj hr
      exact reconcileDeletions_persists hb

theorem Next.persists {s t : Interleaved} {e : InterleavedEvent} (h : s.Next e t) :
    Persists s.system.db t.system.db := by
  cases h with
  | operation e t stepped => exact (System.next_of_step stepped).persists
  | cleanup db cleanups notOperation persists => exact persists

/-- A step that publishes nothing: the row, the statistics, the flags, the chat's last message and
the mentions stay as they are and nothing is sent out. -/
structure Quiet (s t : Interleaved) (messageId : Int) : Prop where
  published : (t.system.db.messages.row messageId).map (·.isPublished) =
    (s.system.db.messages.row messageId).map (·.isPublished)
  threadMeta : t.system.db.threadMeta = s.system.db.threadMeta
  hasThread : ∀ id, (t.system.db.messages.row id).map (·.hasThread) =
    (s.system.db.messages.row id).map (·.hasThread)
  groups : t.system.db.groups = s.system.db.groups
  messageMentions : t.system.db.messageMentions = s.system.db.messageMentions
  outputs : t.system.outputs = s.system.outputs

/-- The event is a step of the job, which processes the message. -/
def IsStep (s : Interleaved) (job : Nat) (messageId : Int) : InterleavedEvent → Prop
  | .operation (.loadAudio job' messageId' _) => job' = job ∧ messageId' = messageId
  | .operation (.publishAudio job') => job' = job ∧ ∃ message attachment outcome,
      s.system.jobs.row job = some (.loaded messageId message attachment outcome)
  | .operation (.finishAudio job') => job' = job ∧ ∃ message updated attachment outcome,
      s.system.jobs.row job = some (.published messageId message updated attachment outcome)
  | _ => False

/-- A job has nothing to publish: its row was published before and keeps its attachment. -/
def NothingToPublish (message : Message) (outcome : AudioPublishOutcome) : Prop :=
  message.isPublished = true ∧ outcome.swap = none

/-- What was loaded as published is published. -/
def LoadedPublished (s : Interleaved) : Prop :=
  ∀ job id message attachment outcome,
    s.system.jobs.row job = some (.loaded id message attachment outcome) →
    message.isPublished = true → ∃ m, s.system.db.messages.row id = some m ∧ m.isPublished = true

/-- The message is deleted and the job has nothing left to publish of it. -/
structure Silenced (job : Nat) (messageId : Int) (s : Interleaved) : Prop where
  deleted : ∃ m, s.system.db.messages.row messageId = some m ∧ m.deletedAt.isSome = true
  loaded : ∀ message attachment outcome,
    s.system.jobs.row job = some (.loaded messageId message attachment outcome) →
      NothingToPublish message outcome
  published : ∀ message updated attachment outcome,
    s.system.jobs.row job = some (.published messageId message updated attachment outcome) →
      NothingToPublish message outcome

theorem LoadedPublished.next {s t : Interleaved} {e : InterleavedEvent} (hs : LoadedPublished s)
    (h : s.Next e t) : LoadedPublished t := by
  intro job id message attachment outcome hjob hp
  have hrow : ∃ m, s.system.db.messages.row id = some m ∧ m.isPublished = true := by
    cases h with
    | operation e t stepped =>
      rcases System.loaded_step (System.next_of_step stepped) hjob with hold | ⟨hrow, -⟩
      · exact hs job id message attachment outcome hold hp
      · exact ⟨message, hrow, hp⟩
    | cleanup => exact hs job id message attachment outcome hjob hp
  obtain ⟨m, hm, hmp⟩ := hrow
  obtain ⟨m', hm', hpersists⟩ := h.persists id m hm
  exact ⟨m', hm', hpersists.published hmp⟩

/-- A job that published its message had loaded it. -/
theorem published_step {s t : System} {e : Event} (h : s.Next e t) {job : Nat} {messageId : Int}
    {message updated : Message} {attachment : Option (Int × Attachment)}
    {outcome : AudioPublishOutcome}
    (hjob : t.jobs.row job = some (.published messageId message updated attachment outcome)) :
    s.jobs.row job = some (.published messageId message updated attachment outcome) ∨
      s.jobs.row job = some (.loaded messageId message attachment outcome) := by
  cases h with
  | load job' messageId' transcoded loaded free load =>
    simp only [Table.upsert_row] at hjob
    split at hjob
    · obtain rfl := Option.some.inj hjob
      unfold Database.loadAudio at load
      split at load
      · cases load
      · split at load
        · cases load
        · split at load <;> cases load
    · exact .inl hjob
  | publish job' messageId' message' updated' attachment' outcome' db loaded published =>
    simp only [Table.upsert_row] at hjob
    split at hjob
    · next heq =>
      cases hjob
      exact .inr (heq ▸ loaded)
    · exact .inl hjob
  | finish job' messageId' message' updated' attachment' outcome' published =>
    simp only [Table.upsert_row] at hjob
    split at hjob
    · cases hjob
    · exact .inl hjob
  | _ => exact .inl hjob

theorem Silenced.next {s t : Interleaved} {e : InterleavedEvent} {job : Nat} {messageId : Int}
    (hs : Silenced job messageId s) (h : s.Next e t) : Silenced job messageId t := by
  obtain ⟨m, hm, hdeleted⟩ := hs.deleted
  obtain ⟨m', hm', hpersists⟩ := h.persists messageId m hm
  refine ⟨⟨m', hm', hpersists.deleted hdeleted⟩, ?_, ?_⟩
  · intro message attachment outcome hjob
    cases h with
    | operation e t stepped =>
      rcases System.loaded_step (System.next_of_step stepped) hjob with hold | ⟨hrow, hlive⟩
      · exact hs.loaded message attachment outcome hold
      · obtain rfl := Option.some.inj (hm.symm.trans hrow)
        rw [hlive] at hdeleted
        cases hdeleted
    | cleanup => exact hs.loaded message attachment outcome hjob
  · intro message updated attachment outcome hjob
    cases h with
    | operation e t stepped =>
      rcases published_step (System.next_of_step stepped) hjob with hold | hold
      · exact hs.published message updated attachment outcome hold
      · exact hs.loaded message attachment outcome hold
    | cleanup => exact hs.published message updated attachment outcome hjob

theorem publishAudio_step {s : System} {job : Nat} {messageId : Int} {message : Message}
    {attachment : Option (Int × Attachment)} {outcome : AudioPublishOutcome}
    (hjob : s.jobs.row job = some (.loaded messageId message attachment outcome)) (t : System) :
    s.step (.publishAudio job) = some t ↔ ∃ db updated,
      s.db.publishAudio messageId message outcome = .ok (db, updated) ∧
        t = { s with
          db := db
          jobs := s.jobs.upsert job (.published messageId message updated attachment outcome) } := by
  simp only [System.step, System.publish, hjob]
  cases s.db.publishAudio messageId message outcome with
  | error e => simp [Except.toOption]
  | ok r => simp [Except.toOption, Prod.ext_iff, eq_comm]

theorem finishAudio_step {s : System} {job : Nat} {messageId : Int} {message updated : Message}
    {attachment : Option (Int × Attachment)} {outcome : AudioPublishOutcome}
    (hjob : s.jobs.row job = some (.published messageId message updated attachment outcome)) :
    s.step (.finishAudio job) = some
      { db := (s.db.audioSideEffects messageId message updated attachment outcome).1
        jobs := s.jobs.upsert job .finished
        outputs := s.outputs ++
          (s.db.audioSideEffects messageId message updated attachment outcome).2 } := by
  simp only [System.step, System.finish, hjob]

/-- The publication of a row that was published, with the attachment it has, changes no other row. -/
theorem Silenced.quiet {s t : Interleaved} {e : InterleavedEvent} {job : Nat} {messageId : Int}
    (hs : Silenced job messageId s) (hloaded : LoadedPublished s) (he : s.IsStep job messageId e)
    (h : s.step e = some t) : Quiet s t messageId := by
  cases e with
  | cleanupBatch => cases he
  | cleanupReconcile => cases he
  | operation e =>
    obtain ⟨u, hu, rfl⟩ := Option.map_eq_some_iff.mp h
    cases e with
    | loadAudio job' messageId' transcoded =>
      simp only [System.step] at hu
      split at hu
      · cases hu
      · obtain ⟨loaded, -, rfl⟩ := Option.map_eq_some_iff.mp hu
        exact ⟨rfl, rfl, fun _ => rfl, rfl, rfl, rfl⟩
    | publishAudio job' =>
      obtain ⟨rfl, message, attachment, outcome, hjob⟩ := he
      obtain ⟨db, updated, published, rfl⟩ := (publishAudio_step hjob u).mp hu
      have hnothing := hs.loaded message attachment outcome hjob
      obtain ⟨hmentions, hmeta, -, -, hgroups⟩ := setPublished_same s.system.db messageId outcome
      have hrows := setPublished_row s.system.db messageId outcome
      obtain ⟨m, hm, hmp⟩ := hloaded job' messageId message attachment outcome hjob hnothing.1
      obtain ⟨-, -, -, ⟨-, rfl⟩ | ⟨hp, -⟩ | ⟨hp, -⟩⟩ := publishAudio_spec published
      · refine ⟨?_, hmeta, fun id => ?_, hgroups, hmentions, rfl⟩
        · rw [hrows, hm]
          simp [publishedRow, hmp]
        · rw [hrows]
          cases s.system.db.messages.row id with
          | none => rfl
          | some row =>
            rw [Option.map_some]
            split <;> rfl
      · rw [hnothing.1] at hp
        cases hp
      · rw [hnothing.1] at hp
        cases hp
    | finishAudio job' =>
      obtain ⟨rfl, message, updated, attachment, outcome, hjob⟩ := he
      obtain ⟨hp, hswap⟩ := hs.published message updated attachment outcome hjob
      have heffects : s.system.db.audioSideEffects messageId message updated attachment outcome =
          (s.system.db, []) := by
        simp [Database.audioSideEffects, hp, hswap]
      obtain rfl := Option.some.inj ((finishAudio_step hjob).symm.trans hu)
      rw [heffects]
      exact ⟨rfl, rfl, fun _ => rfl, rfl, rfl, by simp⟩
    | _ => cases he

end Interleaved

end Chahua.Messages

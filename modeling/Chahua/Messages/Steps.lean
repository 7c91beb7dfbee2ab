import Chahua.Messages.SendSteps
import Chahua.Messages.DeletionSteps

namespace Chahua.Messages

open Framework

/-- The send an event makes, to the main channel or to a thread. -/
inductive Send where
  | toChat (now id : Int) (hidden : Bool) (p : PreparedMessageSend)
  | toThread (now id threadId : Int) (notifyMentions : Bool) (p : PreparedMessageSend)

namespace Event

def send : Event → Option Send
  | .postMessage now id uid chatId hidden body =>
      some (.toChat now id hidden (body.prepared uid chatId))
  | .postThreadMessage now id uid chatId threadId body =>
      some (.toThread now id threadId true (body.prepared uid chatId))
  | .forwardMessage now id uid chatId none hidden body =>
      some (.toChat now id hidden (body.prepared uid chatId))
  | .forwardMessage now id uid chatId (some threadId) _ body =>
      some (.toThread now id threadId false (body.prepared uid chatId))
  | _ => none

def isDelete : Event → Bool
  | .deleteMessage .. | .deleteSelection .. | .memberCleanup .. => true
  | _ => false

/-- The announcement of a thread pin goes out: an id was drawn and the root can be replied to. -/
def Announces (db : Database) : Event → Prop
  | .createThreadPin _ _ (some id) uid chatId threadRootId messageId =>
      db.checkSend id (pinSystemMessage uid chatId (.thread threadRootId) .pinned messageId) =
        .ok ()
  | .deleteThreadPin _ pinId (some id) uid chatId threadRootId =>
      ∃ pin, db.pinnedMessages.row pinId = some pin ∧
        db.checkSend id
          (pinSystemMessage uid chatId (.thread threadRootId) .unpinned pin.messageId) = .ok ()
  | _ => False

end Event

namespace System

/-- What a step can do. -/
inductive Next (s : System) : Event → System → Prop where
  | toChat {e : Event} (now id : Int) (hidden : Bool) (p : PreparedMessageSend) (db : Database)
      (outputs : List Output) (sends : e.send = some (.toChat now id hidden p))
      (sent : s.db.sendToChat now id hidden p = .ok (db, outputs)) :
      Next s e { s with db := db, outputs := s.outputs ++ outputs }
  | toThread {e : Event} (now id threadId : Int) (notifyMentions : Bool)
      (p : PreparedMessageSend) (db : Database) (outputs : List Output)
      (sends : e.send = some (.toThread now id threadId notifyMentions p))
      (sent : s.db.sendToThread now id threadId notifyMentions p = .ok (db, outputs)) :
      Next s e { s with db := db, outputs := s.outputs ++ outputs }
  | pin {e : Event} (now : Int) (announcementId : Option Int) (p : PreparedMessageSend)
      (pins : Table Int PinnedMessage) (db : Database) (outputs : List Output)
      (sends : e.send = none)
      (announces : ∀ id, announcementId = some id → s.db.checkSend id p = .ok () →
        e.Announces s.db)
      (reply : p.publishImmediately = true ∧ p.replyRootId.isSome = true ∧
        p.replyToId = p.replyRootId)
      (announced : { s.db with pinnedMessages := pins }.sendPinSystemMessage now announcementId p =
        (db, outputs)) : Next s e { s with db := db, outputs := s.outputs ++ outputs }
  | delete {e : Event} (chatId : Int) (marked reconciled db : Database)
      (targets : List DeletionTarget) (shifted : List Int) (deletes : e.isDelete = true)
      (deleted : DeletionSteps s.db marked reconciled db chatId targets shifted) :
      Next s e { s with db := db }
  | load (job : Nat) (messageId : Int) (transcoded : Option TranscodedObject) (loaded : AudioJob)
      (free : s.jobs.row job = none) (load : s.db.loadAudio messageId transcoded = .ok loaded) :
      Next s (.loadAudio job messageId transcoded) { s with jobs := s.jobs.upsert job loaded }
  | publish (job : Nat) (messageId : Int) (message updated : Message)
      (attachment : Option (Int × Attachment)) (outcome : AudioPublishOutcome) (db : Database)
      (loaded : s.jobs.row job = some (.loaded messageId message attachment outcome))
      (published : s.db.publishAudio messageId message outcome = .ok (db, updated)) :
      Next s (.publishAudio job)
        { s with
          db := db
          jobs := s.jobs.upsert job (.published messageId message updated attachment outcome) }
  | finish (job : Nat) (messageId : Int) (message updated : Message)
      (attachment : Option (Int × Attachment)) (outcome : AudioPublishOutcome)
      (published : s.jobs.row job = some (.published messageId message updated attachment outcome)) :
      Next s (.finishAudio job)
        { db := (s.db.audioSideEffects messageId message updated attachment outcome).1
          jobs := s.jobs.upsert job .finished
          outputs := s.outputs ++
            (s.db.audioSideEffects messageId message updated attachment outcome).2 }

theorem commit_spec {s t : System} {result : Except AppError (Database × List Output)}
    (h : s.commit result = some t) : ∃ db outputs, result = .ok (db, outputs) ∧
      t = { s with db := db, outputs := s.outputs ++ outputs } := by
  cases result with
  | error e => simp [commit, Except.toOption] at h
  | ok r => exact ⟨r.1, r.2, rfl, by simpa [commit, Except.toOption] using h.symm⟩

theorem commitDelete_spec {s t : System} {result : Except AppError Database}
    (h : s.commitDelete result = some t) : ∃ db, result = .ok db ∧ t = { s with db := db } := by
  cases result with
  | error e => simp [commitDelete, Except.toOption] at h
  | ok db => exact ⟨db, rfl, by simpa [commitDelete, Except.toOption] using h.symm⟩

theorem postMessage_send {db db' : Database} {now id uid chatId : Int} {hidden : Bool}
    {body : CreateMessageBody} {outputs : List Output}
    (h : db.postMessage now id uid chatId hidden body = .ok (db', outputs)) :
    db.sendToChat now id hidden (body.prepared uid chatId) = .ok (db', outputs) := by
  unfold Database.postMessage at h
  split at h
  · cases h
  · exact h

theorem postThreadMessage_send {db db' : Database} {now id uid chatId threadId : Int}
    {body : CreateMessageBody} {outputs : List Output}
    (h : db.postThreadMessage now id uid chatId threadId body = .ok (db', outputs)) :
    db.sendToThread now id threadId true (body.prepared uid chatId) = .ok (db', outputs) := by
  unfold Database.postThreadMessage at h
  split at h
  · cases h
  · exact h

theorem createThreadPin_pin {db db' : Database} {now pinId : Int} {announcementId : Option Int}
    {uid chatId threadRootId messageId : Int} {outputs : List Output}
    (h : db.createThreadPin now pinId announcementId uid chatId threadRootId messageId =
      .ok (db', outputs)) :
    ∃ pins, { db with pinnedMessages := pins }.sendPinSystemMessage now announcementId
      (pinSystemMessage uid chatId (.thread threadRootId) .pinned messageId) = (db', outputs) := by
  unfold Database.createThreadPin Database.createPinInScope at h
  split at h
  · cases h
  · exact ⟨_, Except.ok.inj h⟩

theorem deleteThreadPin_pin {db db' : Database} {now pinId : Int} {announcementId : Option Int}
    {uid chatId threadRootId : Int} {outputs : List Output}
    (h : db.deleteThreadPin now pinId announcementId uid chatId threadRootId =
      .ok (db', outputs)) :
    ∃ pin pins, db.pinnedMessages.row pinId = some pin ∧
      { db with pinnedMessages := pins }.sendPinSystemMessage now announcementId
        (pinSystemMessage uid chatId (.thread threadRootId) .unpinned pin.messageId) =
          (db', outputs) := by
  unfold Database.deleteThreadPin Database.deletePinInScope at h
  split at h
  · cases h
  · split at h
    · cases h
    · next pin hpin =>
      exact ⟨pin, _, (Option.filter_eq_some_iff.mp hpin).1, Except.ok.inj h⟩

theorem next_of_step {s t : System} {e : Event} (h : s.step e = some t) : s.Next e t := by
  cases e with
  | postMessage now id uid chatId hidden body =>
    obtain ⟨db, outputs, hr, rfl⟩ := commit_spec h
    exact .toChat now id hidden _ db outputs rfl (postMessage_send hr)
  | postThreadMessage now id uid chatId threadId body =>
    obtain ⟨db, outputs, hr, rfl⟩ := commit_spec h
    exact .toThread now id threadId true _ db outputs rfl (postThreadMessage_send hr)
  | forwardMessage now id uid chatId threadId hidden body =>
    obtain ⟨db, outputs, hr, rfl⟩ := commit_spec h
    cases threadId with
    | none => exact .toChat now id hidden _ db outputs rfl hr
    | some threadId => exact .toThread now id threadId false _ db outputs rfl hr
  | createThreadPin now pinId announcementId uid chatId threadRootId messageId =>
    obtain ⟨db, outputs, hr, rfl⟩ := commit_spec h
    obtain ⟨pins, hpins⟩ := createThreadPin_pin hr
    refine .pin now announcementId _ pins db outputs rfl ?_ ⟨rfl, rfl, rfl⟩ hpins
    rintro id rfl hcheck
    exact hcheck
  | deleteThreadPin now pinId announcementId uid chatId threadRootId =>
    obtain ⟨db, outputs, hr, rfl⟩ := commit_spec h
    obtain ⟨pin, pins, hrow, hpins⟩ := deleteThreadPin_pin hr
    refine .pin now announcementId _ pins db outputs rfl ?_ ⟨rfl, rfl, rfl⟩ hpins
    rintro id rfl hcheck
    exact ⟨pin, hrow, hcheck⟩
  | deleteMessage now uid chatId messageId =>
    obtain ⟨db, hr, rfl⟩ := commitDelete_spec h
    obtain ⟨marked, reconciled, targets, shifted, hsteps⟩ := deleteMessage_deletion hr
    exact .delete chatId marked reconciled db targets shifted rfl hsteps
  | deleteSelection now chatId uid isAdmin ids =>
    obtain ⟨db, hr, rfl⟩ := commitDelete_spec h
    obtain ⟨marked, reconciled, targets, shifted, hsteps⟩ := deleteSelection_deletion hr
    exact .delete chatId marked reconciled db targets shifted rfl hsteps
  | memberCleanup clock chatId targetUid scope =>
    obtain ⟨db, hr, rfl⟩ := commitDelete_spec h
    obtain ⟨marked, reconciled, targets, shifted, hsteps⟩ := processBulkDelete_deletion hr
    exact .delete chatId marked reconciled db targets shifted rfl hsteps
  | loadAudio job messageId transcoded =>
    simp only [step] at h
    split at h
    · cases h
    · next hfree =>
      obtain ⟨loaded, hloaded, rfl⟩ := Option.map_eq_some_iff.mp h
      refine .load job messageId transcoded loaded (by simpa using hfree) ?_
      cases hr : s.db.loadAudio messageId transcoded with
      | error e => simp [hr, Except.toOption] at hloaded
      | ok r => simpa [hr, Except.toOption] using hloaded
  | publishAudio job =>
    simp only [step, publish] at h
    split at h
    · next messageId message attachment outcome hjob =>
      obtain ⟨⟨db, updated⟩, hr, rfl⟩ := Option.map_eq_some_iff.mp h
      refine .publish job messageId message updated attachment outcome db hjob ?_
      cases hr' : s.db.publishAudio messageId message outcome with
      | error e => simp [hr', Except.toOption] at hr
      | ok r => simpa [hr', Except.toOption] using hr
    · cases h
  | finishAudio job =>
    simp only [step, finish] at h
    split at h
    · next messageId message updated attachment outcome hjob =>
      exact Option.some.inj h ▸ .finish job messageId message updated attachment outcome hjob
    · cases h

end System

/-- The row after the publish transaction. -/
def publishedRow (outcome : AudioPublishOutcome) (m : Message) : Message :=
  { m with
    isPublished := true
    transcodeStatus := match outcome with
      | .done _ => .done
      | .failed => .failed }

theorem setPublished_row (db : Database) (messageId : Int) (outcome : AudioPublishOutcome)
    (id : Int) : ((db.swapAttachment outcome).setPublished messageId outcome).messages.row id =
      (db.messages.row id).map fun m =>
        if id = messageId then publishedRow outcome m else m := by
  change ((db.swapAttachment outcome).messages.updateWhere _ _).row id = _
  have hswap : (db.swapAttachment outcome).messages = db.messages := by
    unfold Database.swapAttachment
    split <;> rfl
  rw [Table.updateWhere_row, hswap]
  simp only [decide_eq_true_eq]
  rfl

/-- The swap and the row touch no other table than theirs. -/
theorem setPublished_same (db : Database) (messageId : Int) (outcome : AudioPublishOutcome) :
    ((db.swapAttachment outcome).setPublished messageId outcome).messageMentions =
        db.messageMentions ∧
      ((db.swapAttachment outcome).setPublished messageId outcome).threadMeta = db.threadMeta ∧
      ((db.swapAttachment outcome).setPublished messageId outcome).threadUserStates =
        db.threadUserStates ∧
      ((db.swapAttachment outcome).setPublished messageId outcome).groupMembership =
        db.groupMembership ∧
      ((db.swapAttachment outcome).setPublished messageId outcome).groups = db.groups := by
  unfold Database.swapAttachment
  split <;> exact ⟨rfl, rfl, rfl, rfl, rfl⟩

/-- The three ends of the publish transaction. -/
theorem publishAudio_spec {db db' : Database} {messageId : Int} {message updated : Message}
    {outcome : AudioPublishOutcome}
    (h : db.publishAudio messageId message outcome = .ok (db', updated)) :
    ∃ m, db.messages.row messageId = some m ∧ updated = publishedRow outcome m ∧
      (message.isPublished = true ∧
          db' = (db.swapAttachment outcome).setPublished messageId outcome ∨
        message.isPublished = false ∧ m.replyRootId = none ∧
          db' = ((db.swapAttachment outcome).setPublished messageId
            outcome).recalculateGroupLastMessage m.chatId ∨
        message.isPublished = false ∧ ∃ rootId, m.replyRootId = some rootId ∧
          db' = (((db.swapAttachment outcome).setPublished messageId
            outcome).incrementThreadMeta m.chatId rootId m.createdAt).setHasThread rootId true) := by
  have hrow := setPublished_row db messageId outcome messageId
  simp only [Database.publishAudio] at h
  cases hm : db.messages.row messageId with
  | none =>
    rw [hm] at hrow
    simp [hrow] at h
  | some m =>
    rw [hm, Option.map_some, if_pos rfl] at hrow
    simp only [hrow] at h
    refine ⟨m, rfl, ?_⟩
    by_cases hpublished : message.isPublished = true
    · rw [if_pos hpublished] at h
      obtain ⟨rfl, rfl⟩ := Prod.mk.inj (Except.ok.inj h)
      exact ⟨rfl, .inl ⟨hpublished, rfl⟩⟩
    · rw [if_neg hpublished] at h
      have hpublished' : message.isPublished = false := by simpa using hpublished
      cases hroot : m.replyRootId with
      | none =>
        simp only [publishedRow, hroot] at h
        obtain ⟨rfl, rfl⟩ := Prod.mk.inj (Except.ok.inj h)
        exact ⟨by simp [publishedRow, hroot], .inr (.inl ⟨hpublished', rfl, rfl⟩)⟩
      | some rootId =>
        simp only [publishedRow, hroot] at h
        obtain ⟨rfl, rfl⟩ := Prod.mk.inj (Except.ok.inj h)
        exact ⟨by simp [publishedRow, hroot], .inr (.inr ⟨hpublished', rootId, rfl, rfl⟩)⟩

/-- Rows stay; a message stays published, stays deleted and keeps its place. -/
structure RowPersists (m m' : Message) : Prop where
  published : m.isPublished = true → m'.isPublished = true
  deleted : m.deletedAt.isSome → m'.deletedAt.isSome
  chatId : m'.chatId = m.chatId
  replyRootId : m'.replyRootId = m.replyRootId
  createdAt : m'.createdAt = m.createdAt

def Persists (db db' : Database) : Prop :=
  ∀ id m, db.messages.row id = some m →
    ∃ m', db'.messages.row id = some m' ∧ RowPersists m m'

theorem rowPersists_refl (m : Message) : RowPersists m m :=
  ⟨fun h => h, fun h => h, rfl, rfl, rfl⟩

theorem Persists.trans {a b c : Database} (h : Persists a b) (h' : Persists b c) :
    Persists a c := by
  intro id m hm
  obtain ⟨m', hm', hp⟩ := h id m hm
  obtain ⟨m'', hm'', hp'⟩ := h' id m' hm'
  exact ⟨m'', hm'', fun hx => hp'.published (hp.published hx),
    fun hx => hp'.deleted (hp.deleted hx), hp'.chatId.trans hp.chatId,
    hp'.replyRootId.trans hp.replyRootId, hp'.createdAt.trans hp.createdAt⟩

theorem persists_of_messages {db db' : Database} (h : db'.messages = db.messages) :
    Persists db db' :=
  fun id m hm => ⟨m, by rw [h, hm], rowPersists_refl m⟩

theorem persists_insert {db db' : Database} {id : Int} {m : Message}
    (hfresh : db.messages.row id = none) (h : db'.messages = db.messages.upsert id m) :
    Persists db db' := by
  intro k row hk
  have hne : k ≠ id := fun heq => by
    rw [heq, hfresh] at hk
    cases hk
  exact ⟨row, by rw [h, Table.upsert_row_ne _ m hne, hk], rowPersists_refl row⟩

/-- Rows are only rewritten in ways that persist. -/
theorem persists_of_map {db db' : Database} {f : Int → Message → Message}
    (h : ∀ id, db'.messages.row id = (db.messages.row id).map (f id))
    (hf : ∀ id m, RowPersists m (f id m)) : Persists db db' :=
  fun id m hm => ⟨f id m, by rw [h, hm, Option.map_some], hf id m⟩

theorem setHasThread_persists (db : Database) (messageId : Int) (hasThread : Bool) :
    Persists db (db.setHasThread messageId hasThread) := by
  refine persists_of_map (db.setHasThread_row messageId hasThread) fun id m => ?_
  split <;> exact ⟨fun h => h, fun h => h, rfl, rfl, rfl⟩

theorem DeletionSteps.persists {db marked reconciled db' : Database} {chatId : Int}
    {targets : List DeletionTarget} {shifted : List Int}
    (h : DeletionSteps db marked reconciled db' chatId targets shifted) : Persists db db' := by
  obtain ⟨roots, idsOf, hreplies, -, -⟩ := h.replies
  obtain ⟨time, ht⟩ := h.soft.messages
  have hmarked : Persists db marked := by
    refine persists_of_map ht fun id m => ?_
    split
    · exact ⟨fun h => h, fun _ => rfl, rfl, rfl, rfl⟩
    · exact rowPersists_refl m
  have hreconciled : Persists marked reconciled := by
    refine persists_of_map hreplies.messages fun id m => ?_
    split <;> exact ⟨fun h => h, fun h => h, rfl, rfl, rfl⟩
  exact (hmarked.trans hreconciled).trans (persists_of_messages h.messages)

theorem publishAudio_persists {db db' : Database} {messageId : Int} {message updated : Message}
    {outcome : AudioPublishOutcome}
    (h : db.publishAudio messageId message outcome = .ok (db', updated)) : Persists db db' := by
  have hrow : Persists db ((db.swapAttachment outcome).setPublished messageId outcome) := by
    refine persists_of_map (setPublished_row db messageId outcome) fun id m => ?_
    split
    · exact ⟨fun _ => rfl, fun h => h, rfl, rfl, rfl⟩
    · exact rowPersists_refl m
  obtain ⟨m, -, -, ⟨-, rfl⟩ | ⟨-, -, rfl⟩ | ⟨-, rootId, -, rfl⟩⟩ := publishAudio_spec h
  · exact hrow
  · exact hrow.trans (persists_of_messages rfl)
  · have hcount : Persists ((db.swapAttachment outcome).setPublished messageId outcome)
        (((db.swapAttachment outcome).setPublished messageId outcome).incrementThreadMeta m.chatId
          rootId m.createdAt) := persists_of_messages rfl
    exact (hrow.trans hcount).trans (setHasThread_persists _ rootId true)

theorem sendToThread_persists {db db' : Database} {now id threadId : Int} {notifyMentions : Bool}
    {p : PreparedMessageSend} {outputs : List Output}
    (h : db.sendToThread now id threadId notifyMentions p = .ok (db', outputs)) :
    Persists db db' := by
  obtain ⟨root, sent, result, -, -, hcheck, hsame, -, rfl⟩ := sendToThread_spec h
  have hinsert : Persists db sent := persists_insert (checkSend_spec hcheck).1 hsame.messages
  have hreaders := persists_of_messages (readersRecorded_same sent now result.response
    result.memberUids threadId root notifyMentions).messages
  rw [recordThreadSend_eq]
  split
  · have hcount : Persists (sent.readersRecorded now result.response result.memberUids threadId
        root notifyMentions) ((sent.readersRecorded now result.response result.memberUids threadId
          root notifyMentions).incrementThreadMeta result.response.chatId threadId
            result.response.createdAt) := persists_of_messages rfl
    exact ((hinsert.trans hreaders).trans hcount).trans (setHasThread_persists _ threadId true)
  · exact hinsert.trans hreaders

theorem sendPinSystemMessage_persists {db db' : Database} {now : Int} {id : Option Int}
    {p : PreparedMessageSend} {outputs : List Output}
    (h : db.sendPinSystemMessage now id p = (db', outputs)) : Persists db db' := by
  unfold Database.sendPinSystemMessage at h
  split at h
  · obtain ⟨rfl, -⟩ := Prod.mk.inj h
    exact persists_of_messages rfl
  · split at h
    · obtain ⟨rfl, -⟩ := Prod.mk.inj h
      exact persists_of_messages rfl
    · next sent result hsend =>
      obtain ⟨rfl, -⟩ := Prod.mk.inj h
      obtain ⟨hcheck, hsame, -⟩ := sendPreparedMessage_spec hsend
      exact persists_insert (checkSend_spec hcheck).1 hsame.messages

theorem audioSideEffects_same (db : Database) (messageId : Int) (message updated : Message)
    (attachment : Option (Int × Attachment)) (outcome : AudioPublishOutcome) :
    SameBesidesMentions db
      (db.audioSideEffects messageId message updated attachment outcome).1 := by
  unfold Database.audioSideEffects
  dsimp only
  split
  · exact ⟨rfl, rfl, rfl, rfl, rfl, rfl, rfl⟩
  · exact buildMessageSideEffects_same db _ _ _ true true

theorem System.Next.persists {s t : System} {e : Event} (h : s.Next e t) :
    Persists s.db t.db := by
  cases h with
  | toChat now id hidden p db outputs sends sent =>
    obtain ⟨db₁, hcheck, hsame, rfl⟩ := sendToChat_spec sent
    exact persists_insert (checkSend_spec hcheck).1 hsame.messages
  | toThread now id threadId notifyMentions p db outputs sends sent =>
    exact sendToThread_persists sent
  | pin now announcementId p pins db outputs sends announces reply announced =>
    have hpins : Persists s.db { s.db with pinnedMessages := pins } := persists_of_messages rfl
    exact hpins.trans (sendPinSystemMessage_persists announced)
  | delete chatId marked reconciled db targets shifted deletes deleted => exact deleted.persists
  | load => exact persists_of_messages rfl
  | publish job messageId message updated attachment outcome db loaded published =>
    exact publishAudio_persists published
  | finish job messageId message updated attachment outcome published =>
    exact persists_of_messages (audioSideEffects_same _ _ _ _ _ _).messages

end Chahua.Messages

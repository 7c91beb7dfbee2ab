import Chahua.Messages.Retries
import Mathlib

namespace Chahua.Messages

open Framework

namespace Database

/-- What counts of a row of `message_mentions`. -/
def mentionRow (db : Database) (messageId uid : Int) : Option (MentionKind × Option Int) :=
  (db.messageMentions.row (messageId, uid)).map fun row => (row.kind, row.threadRootId)

/-- A message as it is sent: its row, and the mentions it is sent with. -/
def sendMentions (db : Database) (messageId : Int) (m : Message) : Database :=
  let db := { db with messages := db.messages.upsert messageId m }
  (db.buildMessageSideEffects (db.attachMetadata messageId m) m.senderUid m.chatId true true).1

/-- A text edit of a message by its sender, at some time. -/
def editMessageText (db : Database) (messageId : Int) (edit : Int × String) : Database :=
  match db.messages.row messageId with
  | none => db
  | some message =>
      (db.setMessageText messageId edit.2).syncEditedMessageMentions edit.1 messageId message edit.2
        message.senderUid

/-- The message replied to. -/
def replyTarget (db : Database) (m : Message) : Option Message := m.replyToId.bind db.messages.row

/-- A member other than the sender. -/
def Notifiable (db : Database) (m : Message) (uid : Int) : Prop :=
  uid ≠ m.senderUid ∧ uid ∈ db.memberUids m.chatId

instance (db : Database) (m : Message) (uid : Int) : Decidable (db.Notifiable m uid) :=
  inferInstanceAs (Decidable (_ ∧ _))

/-- The row of a member mentioned in a text, or replied to by a message that is not a system
message. -/
def freshMention (db : Database) (m : Message) (mentioned : List Int) (uid : Int) :
    Option (MentionKind × Option Int) :=
  if ¬db.Notifiable m uid then none
  else if uid ∈ mentioned then some (.mention, m.replyRootId)
  else if (db.replyTarget m).any fun target =>
    decide (target.messageType ≠ .system) && decide (target.senderUid = uid) then
    some (.reply, m.replyRootId)
  else none

end Database

/-- The members a text of the message mentions. -/
def mentionUids (m : Message) : List Int := m.message.elim [] extractMentionUids

/-- The message after some edits. -/
def edited (m : Message) (edits : List (Int × String)) : Message :=
  edits.foldl (fun m edit => { m with message := some edit.2 }) m

/-- The members some text of the message has mentioned. -/
def everMentioned (m : Message) (edits : List (Int × String)) : List Int :=
  mentionUids m ++ edits.flatMap fun edit => extractMentionUids edit.2

/-- The row of a member after some edits: the author of a system message has one too, once
mentioned. -/
def Database.editedMention (db : Database) (m : Message) (edits : List (Int × String)) (uid : Int) :
    Option (MentionKind × Option Int) :=
  if ¬db.Notifiable m uid then none
  else if uid ∈ mentionUids (edited m edits) then some (.mention, m.replyRootId)
  else if (db.replyTarget m).any fun target =>
    (decide (target.messageType ≠ .system) || decide (uid ∈ everMentioned m edits)) &&
      decide (target.senderUid = uid) then
    some (.reply, m.replyRootId)
  else none

/-- The message was sent, and then edited. -/
structure Edited (db d : Database) (messageId : Int) (m : Message) (edits : List (Int × String)) :
    Prop where
  row : d.messages.row messageId = some (edited m edits)
  target : ∀ id, m.replyToId = some id → id ≠ messageId ∧ d.messages.row id = db.messages.row id
  members : d.groupMembership = db.groupMembership
  mentions : ∀ uid, d.mentionRow messageId uid = db.editedMention m edits uid

section rows

variable {db : Database} {messageId : Int}

/-- What each step of a fold keeps, the fold keeps. -/
theorem foldl_keeps {α β : Type*} {f : Database → α → Database} {g : Database → β}
    (h : ∀ d x, g (f d x) = g d) {xs : List α} {db : Database} :
    g (xs.foldl f db) = g db := by
  induction xs generalizing db with
  | nil => rfl
  | cons x xs ih => exact ih.trans (h db x)

theorem insertMentions_row (db : Database) (response : MessageResponse) (chatId : Int)
    (kind : MentionKind) (uids : List Int) (uid : Int) :
    (db.insertMentions response chatId kind uids).mentionRow response.id uid =
      (db.mentionRow response.id uid).or
        (if uid ∈ uids then some (kind, response.replyRootId) else none) := by
  unfold Database.insertMentions
  induction uids generalizing db with
  | nil => simp
  | cons u uids ih =>
    rw [List.foldl_cons, ih]
    have hstep : (db.insertMention response.id u ⟨chatId, response.replyRootId, response.createdAt,
        kind⟩).mentionRow response.id uid = (db.mentionRow response.id uid).or
          (if uid = u then some (kind, response.replyRootId) else none) := by
      unfold Database.insertMention Database.mentionRow
      by_cases heq : uid = u
      · subst heq
        cases hrow : db.messageMentions.row (response.id, uid) with
        | none => simp
        | some row => simp [hrow]
      · cases hrow : db.messageMentions.row (response.id, u) with
        | none =>
          have hne : (response.id, uid) ≠ (response.id, u) := by simpa using heq
          simp [Table.upsert_row_ne _ _ hne, heq]
        | some row => simp [heq]
    rw [hstep, Option.or_assoc]
    congr 1
    by_cases heq : uid = u
    · simp [heq]
    · simp [heq]

theorem upsertMention_row (db : Database) (messageId u : Int) (mention : Mention) (uid : Int) :
    (db.upsertMention messageId u mention).mentionRow messageId uid =
      if uid = u then
        some (mention.kind, ((db.mentionRow messageId uid).map Prod.snd).getD mention.threadRootId)
      else db.mentionRow messageId uid := by
  unfold Database.upsertMention Database.mentionRow
  by_cases heq : uid = u
  · subst heq
    cases hrow : db.messageMentions.row (messageId, uid) <;> simp
  · have hne : (messageId, uid) ≠ (messageId, u) := by simpa using heq
    simp [Table.upsert_row_ne _ _ hne, heq]

/-- An added mention wins over a reply. -/
theorem addMentions_row (db : Database) (editedAt messageId : Int) (message : Message)
    (added : List Int) (uid : Int)
    (hroot : ∀ row, db.mentionRow messageId uid = some row → row.2 = message.replyRootId) :
    (db.addMentions editedAt messageId message added).mentionRow messageId uid =
      if uid ∈ added then some (.mention, message.replyRootId)
      else db.mentionRow messageId uid := by
  have hfold : (added.foldl (fun db uid => db.upsertMention messageId uid
      ⟨message.chatId, message.replyRootId, editedAt, .mention⟩) db).mentionRow messageId uid =
        if uid ∈ added then some (.mention, message.replyRootId)
        else db.mentionRow messageId uid := by
    induction added generalizing db with
    | nil => simp
    | cons u added ih =>
      have hstep := upsertMention_row db messageId u
        ⟨message.chatId, message.replyRootId, editedAt, .mention⟩ uid
      have hvalue : (db.upsertMention messageId u
          ⟨message.chatId, message.replyRootId, editedAt, .mention⟩).mentionRow messageId uid =
            if uid = u then some (.mention, message.replyRootId)
            else db.mentionRow messageId uid := by
        rw [hstep]
        cases hrow : db.mentionRow messageId uid with
        | none => rfl
        | some row => simp [hroot row hrow]
      rw [List.foldl_cons, ih]
      · rw [hvalue]
        by_cases heq : uid = u
        · simp [heq]
        · simp [heq]
      · intro row hrow
        rw [hvalue] at hrow
        split at hrow
        · rw [← Option.some.inj hrow]
        · exact hroot row hrow
  unfold Database.addMentions
  split
  · exact hfold
  · next root _ =>
    rw [← hfold]
    unfold Database.mentionRow
    dsimp only
    rw [foldl_keeps (g := Database.messageMentions) fun d u =>
      (ensureThreadSubscription_same d editedAt message.chatId root u).messageMentions]

/-- A dropped mention of the member replied to becomes a reply, any other one goes. -/
theorem dropMentions_row (db : Database) (messageId : Int) (message : Message)
    (removed : List Int) (uid : Int) :
    (db.dropMentions messageId message removed).mentionRow messageId uid =
      if uid ∈ removed then
        if (db.replyTarget message).map (·.senderUid) = some uid then
          (db.mentionRow messageId uid).map fun row => (.reply, row.2)
        else none
      else db.mentionRow messageId uid := by
  have htarget : (message.replyToId.bind fun replyToId =>
      (db.messages.row replyToId).map (·.senderUid)) =
        (db.replyTarget message).map (·.senderUid) := by
    unfold Database.replyTarget
    cases message.replyToId <;> rfl
  unfold Database.dropMentions Database.mentionRow
  dsimp only
  rw [htarget, Table.deleteWhere_row, Table.updateWhere_row]
  by_cases hin : uid ∈ removed
  · by_cases heq : (db.replyTarget message).map (·.senderUid) = some uid
    · cases hrow : db.messageMentions.row (messageId, uid) <;> simp [hin, heq]
    · have hne : ¬some uid = (db.replyTarget message).map (·.senderUid) := fun h => heq h.symm
      cases hrow : db.messageMentions.row (messageId, uid) <;> simp [hin, heq, hne]
  · cases hrow : db.messageMentions.row (messageId, uid) <;> simp [hin]

theorem addMentions_groupMembership (db : Database) (editedAt messageId : Int) (message : Message)
    (added : List Int) :
    (db.addMentions editedAt messageId message added).groupMembership = db.groupMembership := by
  have hmentions : (added.foldl (fun db uid => db.upsertMention messageId uid
      ⟨message.chatId, message.replyRootId, editedAt, .mention⟩) db).groupMembership =
        db.groupMembership := by
    refine foldl_keeps (g := Database.groupMembership) ?_
    exact fun _ _ => rfl
  unfold Database.addMentions
  split
  · exact hmentions
  · next root _ =>
    refine (foldl_keeps (g := Database.groupMembership) fun d u => ?_).trans hmentions
    exact (ensureThreadSubscription_same d editedAt message.chatId root u).groupMembership

end rows

section send

variable {db : Database} {messageId : Int} {m : Message}

/-- A send shows the message it was checked to reply to. -/
theorem replyToMessage_sent (hfresh : db.messages.row messageId = none)
    (hreply : m.replyToId.elim (.ok ()) (db.validateReplyTarget m.chatId m.replyRootId) = .ok ()) :
    ({ db with messages := db.messages.upsert messageId m } : Database).replyToMessage m =
      (db.replyTarget m).map fun target => ⟨target.senderUid, target.messageType⟩ := by
  unfold Database.replyToMessage Database.replyTarget
  cases hid : m.replyToId with
  | none => rfl
  | some id =>
    rw [hid, Option.elim_some] at hreply
    unfold Database.validateReplyTarget at hreply
    split at hreply
    · cases hreply
    · next target htarget =>
      obtain ⟨hrow, hcond⟩ := Option.filter_eq_some_iff.mp htarget
      have hne : id ≠ messageId := by
        rintro rfl
        rw [hfresh] at hrow
        cases hrow
      split at hreply
      · cases hreply
      · next hkind =>
        split at hreply
        · next hcontext =>
          simp only [Bool.and_eq_true, decide_eq_true_eq, Message.isLive] at hcond
          simp only [Bool.not_eq_true', Bool.not_eq_false] at hkind
          simp [Table.upsert_row_ne _ _ hne, hrow, Option.filter, hcond.1, hcond.2.2, hkind,
            hcontext]
        · cases hreply

theorem buildMessageSideEffects_row (db : Database) (response : MessageResponse)
    (senderUid chatId uid : Int) (hnone : db.mentionRow response.id uid = none) :
    (db.buildMessageSideEffects response senderUid chatId true true).1.mentionRow response.id uid =
      if uid ∈ db.mentionedMemberUids response senderUid chatId true then
        some (.mention, response.replyRootId)
      else if db.replyTargetUid response senderUid chatId = some uid then
        some (.reply, response.replyRootId)
      else none := by
  unfold Database.buildMessageSideEffects
  dsimp only
  rw [insertMentions_row, insertMentions_row, hnone, Option.none_or]
  by_cases hmention : uid ∈ db.mentionedMemberUids response senderUid chatId true
  · rw [if_pos hmention, if_pos hmention]
    rfl
  · rw [if_neg hmention, if_neg hmention, Option.none_or]
    have hiff : uid ∈ ((db.replyTargetUid response senderUid chatId).filter fun uid =>
        decide (uid ∉ db.mentionedMemberUids response senderUid chatId true)).toList ↔
          db.replyTargetUid response senderUid chatId = some uid := by
      rw [Option.mem_toList, Option.filter_eq_some_iff, decide_eq_true_eq]
      exact ⟨And.left, fun h => ⟨h, hmention⟩⟩
    by_cases htarget : db.replyTargetUid response senderUid chatId = some uid
    · rw [if_pos (hiff.mpr htarget), if_pos htarget]
    · rw [if_neg fun h => htarget (hiff.mp h), if_neg htarget]

theorem mentionedMemberUids_sent {db' : Database}
    (hmembers : db'.groupMembership = db.groupMembership) (htype : m.messageType ≠ .system)
    (hlive : m.deletedAt = none) (messageId uid : Int) :
    uid ∈ db'.mentionedMemberUids (db'.attachMetadata messageId m) m.senderUid m.chatId true ↔
      db.Notifiable m uid ∧ uid ∈ mentionUids m := by
  have hmember : db'.memberUids m.chatId = db.memberUids m.chatId := by
    unfold Database.memberUids
    rw [hmembers]
  unfold Database.mentionedMemberUids Database.attachMetadata Database.Notifiable mentionUids
  simp only [htype, hlive, hmember]
  simp [and_comm]

theorem replyTargetUid_sent {db' : Database}
    (hmembers : db'.groupMembership = db.groupMembership) (htype : m.messageType ≠ .system)
    (hshown : db'.replyToMessage m =
      (db.replyTarget m).map fun target => ⟨target.senderUid, target.messageType⟩)
    (messageId uid : Int) :
    db'.replyTargetUid (db'.attachMetadata messageId m) m.senderUid m.chatId = some uid ↔
      db.Notifiable m uid ∧ (db.replyTarget m).any fun target =>
        decide (target.messageType ≠ .system) && decide (target.senderUid = uid) := by
  have hmember : db'.memberUids m.chatId = db.memberUids m.chatId := by
    unfold Database.memberUids
    rw [hmembers]
  unfold Database.replyTargetUid Database.attachMetadata Database.Notifiable
  simp only [htype, if_false, hshown, hmember, Option.filter_eq_some_iff]
  cases db.replyTarget m with
  | none => simp
  | some target =>
    by_cases hsystem : target.messageType = .system
    · simp [hsystem, Option.filter]
    · simp [hsystem, Option.filter, and_comm]

/-- The mentions of a message as it is sent. -/
theorem sendMentions_row (hfresh : db.messages.row messageId = none)
    (hnone : ∀ uid, db.messageMentions.row (messageId, uid) = none)
    (htype : m.messageType ≠ .system) (hlive : m.deletedAt = none)
    (hreply : m.replyToId.elim (.ok ()) (db.validateReplyTarget m.chatId m.replyRootId) = .ok ())
    (uid : Int) :
    (db.sendMentions messageId m).mentionRow messageId uid =
      db.freshMention m (mentionUids m) uid := by
  have hshown := replyToMessage_sent hfresh hreply
  unfold Database.sendMentions
  dsimp only
  generalize hdb' : ({ db with messages := db.messages.upsert messageId m } : Database) = db'
    at hshown ⊢
  have hmembers : db'.groupMembership = db.groupMembership := by rw [← hdb']
  have hempty : db'.mentionRow messageId uid = none := by
    rw [← hdb']
    simp [Database.mentionRow, hnone]
  have hmention := mentionedMemberUids_sent hmembers htype hlive messageId uid
  have htarget := replyTargetUid_sent hmembers htype hshown messageId uid
  refine (buildMessageSideEffects_row db' (db'.attachMetadata messageId m) m.senderUid m.chatId uid
    hempty).trans ?_
  simp only [hmention, htarget]
  unfold Database.freshMention
  by_cases hnotifiable : db.Notifiable m uid
  · simp only [hnotifiable, true_and, not_true_eq_false, if_false]
    rfl
  · simp only [hnotifiable, false_and, not_false_eq_true, if_true, if_false]

end send

section edits

variable {db d : Database} {messageId : Int} {m : Message} {edits : List (Int × String)}

theorem edited_append (m : Message) (edits : List (Int × String)) (edit : Int × String) :
    edited m (edits ++ [edit]) = { edited m edits with message := some edit.2 } := by
  unfold edited
  rw [List.foldl_append]
  rfl

/-- An edit keeps everything but the text. -/
theorem edited_eq (m : Message) (edits : List (Int × String)) :
    edited m edits = { m with message := (edited m edits).message } := by
  induction edits using List.reverseRecOn with
  | nil => rfl
  | append_singleton edits edit ih =>
    rw [edited_append]
    conv_lhs => rw [ih]

theorem mentionUids_append (m : Message) (edits : List (Int × String)) (edit : Int × String) :
    mentionUids (edited m (edits ++ [edit])) = extractMentionUids edit.2 := by
  rw [edited_append]
  rfl

theorem mem_everMentioned (m : Message) (edits : List (Int × String)) (uid : Int) :
    uid ∈ mentionUids (edited m edits) → uid ∈ everMentioned m edits := by
  unfold everMentioned
  induction edits using List.reverseRecOn with
  | nil => exact fun h => List.mem_append_left _ h
  | append_singleton edits edit ih =>
    intro h
    rw [mentionUids_append] at h
    simp [h]

theorem everMentioned_append (m : Message) (edits : List (Int × String)) (edit : Int × String)
    (uid : Int) : uid ∈ everMentioned m (edits ++ [edit]) ↔
      uid ∈ everMentioned m edits ∨ uid ∈ extractMentionUids edit.2 := by
  unfold everMentioned
  simp [or_assoc]

theorem replyTarget_ne (hfresh : db.messages.row messageId = none)
    (hreply : m.replyToId.elim (.ok ()) (db.validateReplyTarget m.chatId m.replyRootId) = .ok ())
    {id : Int} (hid : m.replyToId = some id) : id ≠ messageId := by
  intro heq
  rw [hid, Option.elim_some] at hreply
  unfold Database.validateReplyTarget at hreply
  rw [heq, hfresh] at hreply
  cases hreply

theorem Edited.replyTarget (h : Edited db d messageId m edits) :
    d.replyTarget m = db.replyTarget m := by
  unfold Database.replyTarget
  cases hid : m.replyToId with
  | none => rfl
  | some id => exact (h.target id hid).2

theorem editedMention_root {row : MentionKind × Option Int} {uid : Int}
    (h : db.editedMention m edits uid = some row) : row.2 = m.replyRootId := by
  unfold Database.editedMention at h
  split at h
  · cases h
  split at h
  · rw [← Option.some.inj h]
  split at h
  · rw [← Option.some.inj h]
  · cases h

theorem edited_sent (hfresh : db.messages.row messageId = none)
    (hnone : ∀ uid, db.messageMentions.row (messageId, uid) = none)
    (htype : m.messageType ≠ .system) (hlive : m.deletedAt = none)
    (hreply : m.replyToId.elim (.ok ()) (db.validateReplyTarget m.chatId m.replyRootId) = .ok ()) :
    Edited db (db.sendMentions messageId m) messageId m [] := by
  have hsame := buildMessageSideEffects_same { db with messages := db.messages.upsert messageId m }
    (Database.attachMetadata { db with messages := db.messages.upsert messageId m } messageId m)
    m.senderUid m.chatId true true
  refine ⟨?_, fun id hid => ?_, hsame.groupMembership, fun uid => ?_⟩
  · exact (congrArg (fun t : Table Int Message => t.row messageId) hsame.messages).trans
      (Table.upsert_row_self _ _ _)
  · have hne := replyTarget_ne hfresh hreply hid
    exact ⟨hne, (congrArg (fun t : Table Int Message => t.row id) hsame.messages).trans
      (Table.upsert_row_ne _ _ hne)⟩
  · rw [sendMentions_row hfresh hnone htype hlive hreply]
    unfold Database.freshMention Database.editedMention
    by_cases hmentioned : uid ∈ mentionUids m
    · simp [edited, hmentioned]
    · simp [edited, everMentioned, hmentioned]

/-- The two halves of an edit, on the row of a member. -/
theorem editedMention_append (db : Database) (m : Message) (edits : List (Int × String))
    (edit : Int × String) (uid : Int) :
    db.editedMention m (edits ++ [edit]) uid =
      if uid ∈ extractMentionUids edit.2 ∧ uid ∉ mentionUids (edited m edits) ∧
          db.Notifiable m uid then
        some (.mention, m.replyRootId)
      else if uid ∈ mentionUids (edited m edits) ∧ uid ∉ extractMentionUids edit.2 then
        if (db.replyTarget m).map (·.senderUid) = some uid then
          (db.editedMention m edits uid).map fun row => (.reply, row.2)
        else none
      else db.editedMention m edits uid := by
  have hever := everMentioned_append m edits edit uid
  have hmem := mem_everMentioned m edits uid
  unfold Database.editedMention
  rw [mentionUids_append]
  by_cases hnotifiable : db.Notifiable m uid
  · by_cases hnew : uid ∈ extractMentionUids edit.2
    · by_cases hold : uid ∈ mentionUids (edited m edits)
      · simp [hnotifiable, hnew, hold]
      · simp [hnotifiable, hnew, hold]
    · by_cases hold : uid ∈ mentionUids (edited m edits)
      · cases htarget : db.replyTarget m with
        | none => simp [hnotifiable, hnew, hold]
        | some target => simp [hnotifiable, hnew, hold, hever, hmem hold]
      · simp [hnotifiable, hnew, hold, hever]
  · simp [hnotifiable]

/-- What an edit does to the row of a member. -/
theorem Edited.mentions_edit (h : Edited db d messageId m edits) (edit : Int × String) (uid : Int) :
    (d.editMessageText messageId edit).mentionRow messageId uid =
      db.editedMention m (edits ++ [edit]) uid := by
  have hmessage := edited_eq m edits
  have hchat : (edited m edits).chatId = m.chatId := by rw [hmessage]
  have hroot : (edited m edits).replyRootId = m.replyRootId := by rw [hmessage]
  have hsender : (edited m edits).senderUid = m.senderUid := by rw [hmessage]
  have hreplyTo : (edited m edits).replyToId = m.replyToId := by rw [hmessage]
  have htarget : (d.setMessageText messageId edit.2).replyTarget (edited m edits) =
      db.replyTarget m := by
    rw [← h.replyTarget]
    unfold Database.replyTarget Database.setMessageText
    rw [hreplyTo]
    cases hid : m.replyToId with
    | none => rfl
    | some id =>
      simp only [Option.bind_some]
      rw [Table.updateWhere_row]
      simp [(h.target id hid).1]
  have hdropped := dropMentions_row (d.setMessageText messageId edit.2) messageId (edited m edits)
    (((edited m edits).message.elim [] extractMentionUids).filter fun uid =>
      decide (uid ∉ extractMentionUids edit.2)) uid
  have hrow : (d.setMessageText messageId edit.2).mentionRow messageId uid =
      db.editedMention m edits uid := h.mentions uid
  rw [htarget, hrow] at hdropped
  have hmember : uid ∈ d.memberUids m.chatId ↔ uid ∈ db.memberUids m.chatId := by
    unfold Database.memberUids
    rw [h.members]
  unfold Database.editMessageText
  rw [h.row]
  unfold Database.syncEditedMessageMentions
  dsimp only
  rw [addMentions_row _ _ _ _ _ _ ?_, hdropped, editedMention_append]
  · rw [hroot]
    refine if_congr ?_ rfl (if_congr ?_ rfl rfl)
    · rw [List.mem_filter, hchat, hsender]
      simp only [Bool.and_eq_true, decide_eq_true_eq, and_assoc]
      exact and_congr_right fun _ => and_congr_right fun _ => and_congr_right fun _ => hmember
    · rw [List.mem_filter, decide_eq_true_eq]
      rfl
  · intro row hdroppedRow
    rw [hdropped] at hdroppedRow
    rw [hroot]
    split at hdroppedRow
    · split at hdroppedRow
      · obtain ⟨old, hold, rfl⟩ := Option.map_eq_some_iff.mp hdroppedRow
        exact (editedMention_root hold : old.2 = m.replyRootId)
      · cases hdroppedRow
    · exact editedMention_root hdroppedRow

theorem Edited.edit (h : Edited db d messageId m edits) (edit : Int × String) :
    Edited db (d.editMessageText messageId edit) messageId m (edits ++ [edit]) := by
  have hedit : d.editMessageText messageId edit =
      (d.setMessageText messageId edit.2).syncEditedMessageMentions edit.1 messageId
        (edited m edits) edit.2 (edited m edits).senderUid := by
    unfold Database.editMessageText
    rw [h.row]
  have hmessages := (syncEditedMessageMentions_sameRows (d.setMessageText messageId edit.2) edit.1
    messageId (edited m edits) edit.2 (edited m edits).senderUid).messages
  refine ⟨?_, fun id hid => ⟨(h.target id hid).1, ?_⟩, ?_, h.mentions_edit edit⟩
  · rw [hedit, hmessages, edited_append]
    unfold Database.setMessageText
    rw [Table.updateWhere_row_some h.row]
    simp
  · rw [hedit, hmessages, ← (h.target id hid).2]
    unfold Database.setMessageText
    rw [Table.updateWhere_row]
    simp [(h.target id hid).1]
  · rw [hedit, ← h.members]
    unfold Database.syncEditedMessageMentions
    exact addMentions_groupMembership _ _ _ _ _

theorem Edited.run (h : Edited db d messageId m []) (edits : List (Int × String)) :
    Edited db (edits.foldl (·.editMessageText messageId ·) d) messageId m edits := by
  induction edits using List.reverseRecOn with
  | nil => exact h
  | append_singleton edits edit ih =>
    rw [List.foldl_append]
    exact ih.edit edit

/-- The rows after the edits are those of a fresh send exactly when no member is dropped from the
text who wrote the system message replied to. -/
theorem editedMention_eq_fresh_iff (db : Database) (m : Message) (edits : List (Int × String)) :
    (∀ uid, db.editedMention m edits uid =
        db.freshMention m (mentionUids (edited m edits)) uid) ↔
      ∀ uid, db.Notifiable m uid →
        (∃ target, db.replyTarget m = some target ∧ target.messageType = .system ∧
          target.senderUid = uid) →
        uid ∈ everMentioned m edits → uid ∈ mentionUids (edited m edits) := by
  refine forall_congr' fun uid => ?_
  unfold Database.editedMention Database.freshMention
  by_cases hnotifiable : db.Notifiable m uid
  · by_cases hmentioned : uid ∈ mentionUids (edited m edits)
    · simp [hnotifiable, hmentioned]
    · cases db.replyTarget m with
      | none => simp [hnotifiable, hmentioned]
      | some target =>
        by_cases hauthor : target.senderUid = uid
        · by_cases hsystem : target.messageType = .system
          · simp [hnotifiable, hmentioned, hauthor, hsystem]
          · simp [hnotifiable, hmentioned, hauthor, hsystem]
        · simp [hnotifiable, hmentioned, hauthor]
  · simp [hnotifiable]

theorem freshMention_edited (db : Database) (m : Message) (edits : List (Int × String)) :
    db.freshMention (edited m edits) = db.freshMention m := by
  unfold Database.freshMention Database.Notifiable Database.replyTarget
  rw [edited_eq m edits]
  rfl

/-- Sent and then edited, against sent as it reads now. -/
theorem editedMentions_fresh (hfresh : db.messages.row messageId = none)
    (hnone : ∀ uid, db.messageMentions.row (messageId, uid) = none)
    (htype : m.messageType ≠ .system) (hlive : m.deletedAt = none)
    (hreply : m.replyToId.elim (.ok ()) (db.validateReplyTarget m.chatId m.replyRootId) = .ok ())
    (edits : List (Int × String)) :
    (∀ uid, (db.sendMentions messageId (edited m edits)).mentionRow messageId uid =
        db.freshMention m (mentionUids (edited m edits)) uid) ∧
      ((∀ uid, (edits.foldl (·.editMessageText messageId ·)
            (db.sendMentions messageId m)).mentionRow messageId uid =
          (db.sendMentions messageId (edited m edits)).mentionRow messageId uid) ↔
        ∀ uid, db.Notifiable m uid →
          (∃ target, db.replyTarget m = some target ∧ target.messageType = .system ∧
            target.senderUid = uid) →
          uid ∈ everMentioned m edits → uid ∈ mentionUids (edited m edits)) := by
  have hsend : ∀ uid, (db.sendMentions messageId (edited m edits)).mentionRow messageId uid =
      db.freshMention m (mentionUids (edited m edits)) uid := by
    intro uid
    rw [← freshMention_edited db m edits]
    refine sendMentions_row hfresh hnone ?_ ?_ ?_ uid
    · rwa [edited_eq]
    · rwa [edited_eq]
    · rwa [edited_eq]
  refine ⟨hsend, ?_⟩
  rw [← editedMention_eq_fresh_iff]
  have hrun := (edited_sent hfresh hnone htype hlive hreply).run edits
  exact forall_congr' fun uid => by rw [hrun.mentions, hsend]

end edits

/-- Two members; member 2 has pinned a message. -/
def pinnedDatabase : Database where
  messages := Table.empty.upsert 10
    { message := none, messageType := .system, replyToId := none, replyRootId := none
      senderUid := 2, chatId := 1, createdAt := 0, deletedAt := none, hasThread := false
      isPublished := true
      transcodeStatus := .none, systemKind := some .messagePinned }
  attachments := Table.empty
  messageMentions := Table.empty
  threadMeta := Table.empty
  threadUserStates := Table.empty
  groupMembership := (Table.empty.upsert (1, 1) ⟨.member, none⟩).upsert (1, 2) ⟨.member, none⟩
  groups := Table.empty
  pinnedMessages := Table.empty

/-- Member 1 replies to the notice of the pin, and mentions member 2. -/
def pinReply : Message where
  message := some "@[uid:2]"
  messageType := .text
  replyToId := some 10
  replyRootId := none
  senderUid := 1
  chatId := 1
  createdAt := 1
  deletedAt := none
  hasThread := false
  isPublished := true
  transcodeStatus := .none
  systemKind := none

theorem editedMentions_fresh_pinReply :
    ([(2, "hi @[uid:2]"), (3, "@[uid:2]!")].foldl (·.editMessageText 11 ·)
        (pinnedDatabase.sendMentions 11 pinReply)).mentionRow 11 =
      (pinnedDatabase.sendMentions 11
        (edited pinReply [(2, "hi @[uid:2]"), (3, "@[uid:2]!")])).mentionRow 11 := by
  have hever : everMentioned pinReply [(2, "hi @[uid:2]"), (3, "@[uid:2]!")] = [2, 2, 2] := by
    decide
  have hnow : mentionUids (edited pinReply [(2, "hi @[uid:2]"), (3, "@[uid:2]!")]) = [2] := by
    decide
  have h := editedMentions_fresh (show pinnedDatabase.messages.row 11 = none by decide)
    (fun _ => rfl) (show pinReply.messageType ≠ .system by decide) (by decide) (by rfl)
    [(2, "hi @[uid:2]"), (3, "@[uid:2]!")]
  refine funext (h.2.mpr fun uid _ _ hmem => ?_)
  rw [hever] at hmem
  rw [hnow]
  simpa using hmem

/-- With the mention gone a reply to the notice stays; the same text sent afresh leaves no row. -/
theorem pinReply_edited_differs :
    pinnedDatabase.messages.row 11 = none ∧
      pinReply.replyToId.elim (.ok ())
        (pinnedDatabase.validateReplyTarget pinReply.chatId pinReply.replyRootId) = .ok () ∧
      ([(2, "hi")].foldl (·.editMessageText 11 ·)
        (pinnedDatabase.sendMentions 11 pinReply)).mentionRow 11 2 = some (.reply, none) ∧
      (pinnedDatabase.sendMentions 11 (edited pinReply [(2, "hi")])).mentionRow 11 2 = none :=
  ⟨by decide, by rfl, by decide, by decide⟩

end Chahua.Messages

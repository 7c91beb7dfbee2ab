import Chahua.Messages.Steps

namespace Chahua.Messages

open Framework

/-- The root of every reply is a top-level message of its chat; only messages have statistics. -/
structure Rooted (db : Database) : Prop where
  root : ∀ id m rootId, db.messages.row id = some m → m.replyRootId = some rootId →
    ∃ root, db.messages.row rootId = some root ∧ root.chatId = m.chatId ∧ root.replyRootId = none
  counted : ∀ chatId rootId, db.threadMeta.row (chatId, rootId) ≠ none →
    db.messages.row rootId ≠ none

/-- The row and the flag of one root are what its replies call for. -/
def Agrees (db : Database) (rootId : Int) (root : Message) : Prop :=
  db.threadMeta.row (root.chatId, rootId) = db.threadStats rootId ∧
    (root.hasThread = true ↔ db.liveReplies rootId ≠ ∅)

def ThreadMetaAgrees (db : Database) : Prop :=
  ∀ rootId root, db.messages.row rootId = some root → root.replyRootId = none →
    Agrees db rootId root

theorem agrees_congr {db db' : Database} {rootId : Int} {root root' : Message}
    (h : Agrees db rootId root) (hchat : root'.chatId = root.chatId)
    (hthread : root'.hasThread = root.hasThread)
    (hmeta : db'.threadMeta.row (root.chatId, rootId) = db.threadMeta.row (root.chatId, rootId))
    (hreplies : ∀ id, db'.replyRow rootId id = db.replyRow rootId id) :
    Agrees db' rootId root' := by
  rw [Agrees, hchat, hthread, hmeta, Database.threadStats_congr hreplies,
    Database.liveReplies_congr hreplies]
  exact h

theorem replyRow_of_messages {db db' : Database} (h : db'.messages = db.messages)
    (rootId id : Int) : db'.replyRow rootId id = db.replyRow rootId id := by
  rw [Database.replyRow, Database.replyRow, h]

/-- Nothing but these two tables matters. -/
theorem rooted_congr {db db' : Database} (h : Rooted db) (hmessages : db'.messages = db.messages)
    (hmeta : db'.threadMeta = db.threadMeta) : Rooted db' where
  root := by
    rw [hmessages]
    exact h.root
  counted := by
    rw [hmessages, hmeta]
    exact h.counted

theorem threadMetaAgrees_congr {db db' : Database} (h : ThreadMetaAgrees db)
    (hmessages : db'.messages = db.messages) (hmeta : db'.threadMeta = db.threadMeta) :
    ThreadMetaAgrees db' := by
  intro rootId root hrow htop
  rw [hmessages] at hrow
  exact agrees_congr (h rootId root hrow htop) rfl rfl (by rw [hmeta])
    (replyRow_of_messages hmessages rootId)

section Deletion

variable {db marked reconciled db' : Database} {chatId : Int} {targets : List DeletionTarget}
  {shifted : List Int}

theorem DeletionSteps.replyRow (h : DeletionSteps db marked reconciled db' chatId targets shifted)
    (rootId id : Int) : db'.replyRow rootId id = marked.replyRow rootId id := by
  obtain ⟨roots, idsOf, hreplies, -, -⟩ := h.replies
  rw [replyRow_of_messages h.messages, hreplies.replyRow]

/-- A thread that lost no reply keeps them all. -/
theorem DeletionSteps.replyRow_untouched
    (h : DeletionSteps db marked reconciled db' chatId targets shifted) {rootId : Int}
    (hroot : ¬∃ t ∈ targets, t.replyRootId = some rootId) (id : Int) :
    marked.replyRow rootId id = db.replyRow rootId id := by
  by_cases hid : id ∈ targets.map (·.id)
  · obtain ⟨t, ht, rfl⟩ := List.mem_map.mp hid
    obtain ⟨m, hm, -, hreply, -⟩ := h.rows t ht
    have hne : m.replyRootId ≠ some rootId := fun heq => hroot ⟨t, ht, hreply.symm.trans heq⟩
    have hnone : db.replyRow rootId t.id = none := by
      rw [Database.replyRow, hm]
      simp [replyAt, hne]
    cases hmarked : marked.replyRow rootId t.id with
    | none => exact hnone.symm
    | some at' =>
      rw [h.soft.replyRow_le hmarked] at hnone
      cases hnone
  · exact h.soft.replyRow_of_notMem hid rootId

theorem DeletionSteps.rooted (h : DeletionSteps db marked reconciled db' chatId targets shifted)
    (hdb : Rooted db) : Rooted db' := by
  obtain ⟨roots, idsOf, hreplies, hroots, -⟩ := h.replies
  have hrow : ∀ id, (db'.messages.row id).isSome = (db.messages.row id).isSome := by
    intro id
    obtain ⟨time, ht⟩ := h.soft.messages
    rw [h.messages, hreplies.messages id, ht id]
    simp
  constructor
  · intro id m' rootId hm' hroot
    obtain ⟨m, deletedAt, hm, hm'eq, -, -⟩ := h.row_inv hm'
    rw [hm'eq] at hroot ⊢
    obtain ⟨root, hrootrow, hchat, htop⟩ := hdb.root id m rootId hm hroot
    obtain ⟨root', hroot'⟩ := Option.isSome_iff_exists.mp ((hrow rootId).trans (by simp [hrootrow]))
    obtain ⟨root₀, d, hroot₀, hroot'eq, -, -⟩ := h.row_inv hroot'
    obtain rfl : root₀ = root := Option.some.inj (hroot₀.symm.trans hrootrow)
    refine ⟨root', hroot', ?_, ?_⟩
    · rw [hroot'eq]
      exact hchat
    · rw [hroot'eq]
      exact htop
  · intro c rootId hmeta
    rw [h.threadMeta, hreplies.threadMeta] at hmeta
    have hsome : (db.messages.row rootId).isSome → db'.messages.row rootId ≠ none := fun hs => by
      rw [← hrow rootId] at hs
      exact Option.isSome_iff_ne_none.mp hs
    split at hmeta
    · next hmem =>
      obtain ⟨t, ht, htroot⟩ := (hroots rootId).mp hmem.2
      obtain ⟨m, hm, -, hreply, -⟩ := h.rows t ht
      obtain ⟨root, hrootrow, -⟩ := hdb.root t.id m rootId hm (hreply.trans htroot)
      exact hsome (by simp [hrootrow])
    · rw [h.soft.threadMeta] at hmeta
      exact hsome (Option.isSome_iff_ne_none.mpr (hdb.counted c rootId hmeta))

/-- A reconciled deletion keeps the statistics of every thread. -/
theorem DeletionSteps.threadMetaAgrees
    (h : DeletionSteps db marked reconciled db' chatId targets shifted) (hdb : Rooted db)
    (hagrees : ThreadMetaAgrees db) : ThreadMetaAgrees db' := by
  intro rootId root' hroot' htop'
  obtain ⟨root, deletedAt, hroot, hroot'eq, -, hthread⟩ := h.row_inv hroot'
  have htop : root.replyRootId = none := by
    rw [hroot'eq] at htop'
    exact htop'
  have hchat : root'.chatId = root.chatId := by rw [hroot'eq]
  obtain ⟨roots, idsOf, hreplies, hroots, -⟩ := h.replies
  have hbefore := hagrees rootId root hroot htop
  by_cases hmem : ∃ t ∈ targets, t.replyRootId = some rootId
  · -- the thread lost a reply and was recalculated
    obtain ⟨t, ht, htroot⟩ := hmem
    obtain ⟨m, hm, hmchat, hreply, -⟩ := h.rows t ht
    obtain ⟨root₀, hroot₀, hrootchat, -⟩ := hdb.root t.id m rootId hm (hreply.trans htroot)
    obtain rfl : root₀ = root := Option.some.inj (hroot₀.symm.trans hroot)
    have hlive := Database.liveReplies_congr (h.replyRow rootId)
    constructor
    · rw [hchat, h.threadMeta, hreplies.threadMeta, if_pos, Database.threadStats_congr]
      · exact fun id => (h.replyRow rootId id).symm
      · exact ⟨hrootchat.trans hmchat, (hroots rootId).mpr ⟨t, ht, htroot⟩⟩
    · rw [hthread, hlive]
      by_cases hempty : marked.liveReplies rootId = ∅
      · rw [if_pos ⟨⟨t, ht, htroot⟩, hempty⟩]
        simp [hempty]
      · have hsub : db.liveReplies rootId ≠ ∅ := by
          obtain ⟨id, hid⟩ := Finset.nonempty_iff_ne_empty.mpr hempty
          obtain ⟨at', hat⟩ := Database.mem_liveReplies.mp hid
          exact Finset.nonempty_iff_ne_empty.mp
            ⟨id, Database.mem_liveReplies.mpr ⟨at', h.soft.replyRow_le hat⟩⟩
        simp [hempty, hbefore.2.mpr hsub]
  · refine agrees_congr hbefore hchat ?_ ?_ fun id => ?_
    · rw [hthread, if_neg fun hand => hmem hand.1]
    · rw [h.threadMeta, hreplies.threadMeta, if_neg, h.soft.threadMeta]
      exact fun hand => hmem ((hroots rootId).mp hand.2)
    · rw [h.replyRow, h.replyRow_untouched hmem]

end Deletion

section Insert

variable {db db' : Database} {id : Int} {m : Message}

/-- A new row; the root of a new reply is a top-level message of its chat. -/
theorem rooted_insert (h : Rooted db) (hfresh : db.messages.row id = none)
    (hmessages : db'.messages = db.messages.upsert id m) (hmeta : db'.threadMeta = db.threadMeta)
    (hroot : ∀ rootId, m.replyRootId = some rootId → ∃ root, db.messages.row rootId = some root ∧
      root.chatId = m.chatId ∧ root.replyRootId = none) : Rooted db' := by
  have hkeep : ∀ k row, db.messages.row k = some row → db'.messages.row k = some row := by
    intro k row hk
    have hne : k ≠ id := fun heq => by
      rw [heq, hfresh] at hk
      cases hk
    rw [hmessages, Table.upsert_row_ne _ m hne, hk]
  constructor
  · intro k row rootId hk hreply
    rw [hmessages, Table.upsert_row] at hk
    split at hk
    · obtain rfl := Option.some.inj hk
      obtain ⟨root, hrow, hrest⟩ := hroot rootId hreply
      exact ⟨root, hkeep rootId root hrow, hrest⟩
    · obtain ⟨root, hrow, hrest⟩ := h.root k row rootId hk hreply
      exact ⟨root, hkeep rootId root hrow, hrest⟩
  · intro chatId rootId hne
    rw [hmeta] at hne
    obtain ⟨row, hrow⟩ := Option.ne_none_iff_exists'.mp (h.counted chatId rootId hne)
    rw [hkeep rootId row hrow]
    exact Option.some_ne_none row

/-- No reply has a root that does not exist. -/
theorem Rooted.replyRow_fresh (h : Rooted db) (hfresh : db.messages.row id = none) (k : Int) :
    db.replyRow id k = none := by
  cases hk : db.replyRow id k with
  | none => rfl
  | some at' =>
    obtain ⟨row, hrow, hreply, -⟩ := Database.replyRow_eq_some.mp hk
    obtain ⟨root, hroot, -⟩ := h.root k row id hrow hreply
    rw [hfresh] at hroot
    cases hroot

theorem replyRow_insert (hmessages : db'.messages = db.messages.upsert id m) (rootId k : Int) :
    db'.replyRow rootId k = if k = id then replyAt rootId m else db.replyRow rootId k := by
  rw [Database.replyRow, hmessages, Table.upsert_row]
  split <;> rfl

/-- A new row that is no surviving reply. -/
theorem threadMetaAgrees_insert (h : Rooted db) (hagrees : ThreadMetaAgrees db)
    (hfresh : db.messages.row id = none) (hmessages : db'.messages = db.messages.upsert id m)
    (hmeta : db'.threadMeta = db.threadMeta) (hnew : m.hasThread = false)
    (hreply : ∀ rootId, replyAt rootId m = none) : ThreadMetaAgrees db' := by
  have hreplies : ∀ rootId k, db'.replyRow rootId k = db.replyRow rootId k := by
    intro rootId k
    rw [replyRow_insert hmessages, hreply rootId]
    split
    · next heq =>
      rw [heq, Database.replyRow, hfresh]
      rfl
    · rfl
  intro rootId root hrow htop
  rw [hmessages, Table.upsert_row] at hrow
  split at hrow
  · next heq =>
    subst heq
    obtain rfl := Option.some.inj hrow
    have hempty : db'.liveReplies rootId = ∅ := by
      refine Finset.eq_empty_of_forall_notMem fun k => ?_
      rw [Database.notMem_liveReplies, hreplies, h.replyRow_fresh hfresh]
    have hnone : db.threadMeta.row (m.chatId, rootId) = none := by
      by_contra hne
      exact h.counted m.chatId rootId hne hfresh
    refine ⟨?_, by simp [hempty, hnew]⟩
    rw [hmeta, hnone, Database.threadStats_eq_none.mpr hempty]
  · exact agrees_congr (hagrees rootId root hrow htop) rfl rfl (by rw [hmeta]) (hreplies rootId)

/-- A row becomes a surviving reply with the newest time, and the thread counts it. -/
theorem threadMetaAgrees_count {rootId at' : Int} {root : Message} (hagrees : ThreadMetaAgrees db)
    (hroot : db.messages.row rootId = some root) (htop : root.replyRootId = none)
    (hne : rootId ≠ id) (hother : ∀ k, k ≠ id → db'.messages.row k = db.messages.row k)
    (hnew : ∃ m, db'.messages.row id = some m ∧ m.replyRootId = some rootId)
    (hmeta : db'.threadMeta = db.threadMeta) (hbefore : db.replyRow rootId id = none)
    (hafter : db'.replyRow rootId id = some at')
    (hothers : ∀ r, r ≠ rootId → db'.replyRow r id = db.replyRow r id)
    (hlatest : ∀ k t, db.replyRow rootId k = some t → t ≤ at') :
    ThreadMetaAgrees ((db'.incrementThreadMeta root.chatId rootId at').setHasThread rootId true) := by
  have hreplies : ∀ r k, k ≠ id → db'.replyRow r k = db.replyRow r k := by
    intro r k hk
    rw [Database.replyRow, Database.replyRow, hother k hk]
  have hflag : ∀ r k, ((db'.incrementThreadMeta root.chatId rootId at').setHasThread rootId
      true).replyRow r k = db'.replyRow r k := fun r k =>
    Database.setHasThread_replyRow (db'.incrementThreadMeta root.chatId rootId at') rootId true r k
  have hstats := Database.threadStats_insert hbefore hafter (hreplies rootId) hlatest
  intro r row hrow hrtop
  rw [Database.setHasThread_row] at hrow
  obtain ⟨row', hrow', hif⟩ := Option.map_eq_some_iff.mp hrow
  change db'.messages.row r = some row' at hrow'
  by_cases hr : r = rootId
  · subst hr
    rw [hother r hne, hroot] at hrow'
    obtain rfl := Option.some.inj hrow'
    rw [if_pos rfl] at hif
    subst hif
    have hlive : db'.liveReplies r ≠ ∅ := by
      exact Finset.nonempty_iff_ne_empty.mp ⟨id, Database.mem_liveReplies.mpr ⟨at', hafter⟩⟩
    constructor
    · rw [Database.threadStats_congr (hflag r), hstats]
      change (db'.threadMeta.upsert (root.chatId, r) _).row (root.chatId, r) = _
      rw [Table.upsert_row_self, hmeta, (hagrees r root hroot htop).1]
    · rw [Database.liveReplies_congr (hflag r)]
      simp [hlive]
  · rw [if_neg hr] at hif
    subst hif
    have hrid : r ≠ id := by
      rintro rfl
      obtain ⟨m, hm, hmroot⟩ := hnew
      obtain rfl := Option.some.inj (hm.symm.trans hrow')
      rw [hmroot] at hrtop
      cases hrtop
    rw [hother r hrid] at hrow'
    refine agrees_congr (hagrees r row' hrow' hrtop) rfl rfl ?_ fun k => ?_
    · change (db'.threadMeta.upsert (root.chatId, rootId) _).row (row'.chatId, r) = _
      rw [Table.upsert_row_ne _ _ (fun heq => hr (Prod.mk.inj heq).2), hmeta]
    · rw [hflag]
      by_cases hk : k = id
      · rw [hk, hothers r hr]
      · exact hreplies r k hk

theorem rooted_count {chatId rootId at' : Int} (h : Rooted db)
    (hroot : db.messages.row rootId ≠ none) :
    Rooted ((db.incrementThreadMeta chatId rootId at').setHasThread rootId true) := by
  have hrows : ∀ k row', ((db.incrementThreadMeta chatId rootId at').setHasThread rootId
      true).messages.row k = some row' → ∃ row, db.messages.row k = some row ∧
        row'.chatId = row.chatId ∧ row'.replyRootId = row.replyRootId := by
    intro k row' hk
    rw [Database.setHasThread_row] at hk
    obtain ⟨row, hrow, hif⟩ := Option.map_eq_some_iff.mp hk
    refine ⟨row, hrow, ?_⟩
    split at hif <;> subst hif <;> exact ⟨rfl, rfl⟩
  have hkeep : ∀ k row, db.messages.row k = some row → ∃ row',
      ((db.incrementThreadMeta chatId rootId at').setHasThread rootId true).messages.row k =
        some row' ∧ row'.chatId = row.chatId ∧ row'.replyRootId = row.replyRootId := by
    intro k row hk
    have hk' : (db.incrementThreadMeta chatId rootId at').messages.row k = some row := hk
    rw [Database.setHasThread_row, hk']
    by_cases hkr : k = rootId
    · exact ⟨{ row with hasThread := true }, by rw [Option.map_some, if_pos hkr], rfl, rfl⟩
    · exact ⟨row, by rw [Option.map_some, if_neg hkr], rfl, rfl⟩
  constructor
  · intro k row' r hk hreply
    obtain ⟨row, hrow, hchat, hroot'⟩ := hrows k row' hk
    obtain ⟨root, hrootrow, hrchat, hrtop⟩ := h.root k row r hrow (hroot'.symm.trans hreply)
    obtain ⟨root', hroot'', hchat', htop'⟩ := hkeep r root hrootrow
    exact ⟨root', hroot'', hchat'.trans (hrchat.trans hchat.symm), htop'.trans hrtop⟩
  · intro c r hne
    have hrow : db.messages.row r ≠ none := by
      by_cases hr : r = rootId
      · rw [hr]
        exact hroot
      · refine h.counted c r ?_
        change (db.threadMeta.upsert (chatId, rootId) _).row (c, r) ≠ none at hne
        rwa [Table.upsert_row_ne _ _ (fun heq => hr (Prod.mk.inj heq).2)] at hne
    obtain ⟨row, hr⟩ := Option.ne_none_iff_exists'.mp hrow
    obtain ⟨row', hr', -⟩ := hkeep r row hr
    rw [hr']
    exact Option.some_ne_none row'

end Insert

theorem replyAt_newMessage (p : PreparedMessageSend) (now rootId : Int) :
    replyAt rootId (p.newMessage now) =
      if p.replyRootId = some rootId ∧ p.publishImmediately = true then some now else none := by
  simp [replyAt, PreparedMessageSend.newMessage, Message.isLive]

section Sends

variable {db db' : Database} {now id : Int} {p : PreparedMessageSend} {outputs : List Output}

theorem sendToChat_threadMeta {hidden : Bool} (hdb : Rooted db) (hagrees : ThreadMetaAgrees db)
    (h : db.sendToChat now id hidden p = .ok (db', outputs)) :
    Rooted db' ∧ ThreadMetaAgrees db' := by
  obtain ⟨sent, hcheck, hsame, rfl⟩ := sendToChat_spec h
  have hfresh := (checkSend_spec hcheck).1
  have hmark : (sent.markChatAsRead hidden p.chatId p.senderUid id).messages = sent.messages := rfl
  have hmark' : (sent.markChatAsRead hidden p.chatId p.senderUid id).threadMeta =
      sent.threadMeta := rfl
  refine ⟨rooted_insert hdb hfresh (hmark.trans hsame.messages) (hmark'.trans hsame.threadMeta) ?_,
    threadMetaAgrees_insert hdb hagrees hfresh (hmark.trans hsame.messages)
      (hmark'.trans hsame.threadMeta) rfl ?_⟩
  · intro rootId hroot
    cases hroot
  · intro rootId
    rw [replyAt_newMessage]
    simp

theorem sendToThread_threadMeta {threadId : Int} {notifyMentions : Bool} (hdb : Rooted db)
    (hagrees : ThreadMetaAgrees db)
    (hlatest : p.publishImmediately = true → ∀ k t, db.replyRow threadId k = some t → t ≤ now)
    (h : db.sendToThread now id threadId notifyMentions p = .ok (db', outputs)) :
    Rooted db' ∧ ThreadMetaAgrees db' := by
  obtain ⟨root, sent, result, hroot, hwindow, hcheck, hsame, hresponse, rfl⟩ := sendToThread_spec h
  obtain ⟨hchat, htop, -, -⟩ := inChatWindow_iff.mp hwindow
  have hfresh := (checkSend_spec hcheck).1
  have hreaders := readersRecorded_same sent now result.response result.memberUids threadId root
    notifyMentions
  have hmessages := hreaders.messages.trans hsame.messages
  have hmeta := hreaders.threadMeta.trans hsame.threadMeta
  have hrooted := rooted_insert hdb hfresh hmessages hmeta (fun rootId hr => by
    obtain rfl := Option.some.inj hr
    exact ⟨root, hroot, hchat, htop⟩)
  have hne : threadId ≠ id := fun heq => by
    rw [heq, hfresh] at hroot
    cases hroot
  rw [recordThreadSend_eq]
  by_cases hpublish : p.publishImmediately = true
  · rw [if_pos hpublish]
    have hchatId : result.response.chatId = root.chatId := by
      rw [hresponse]
      exact hchat.symm
    have hcreated : result.response.createdAt = now := by
      rw [hresponse]
      rfl
    have hnone : ∀ r, db.replyRow r id = none := fun r => by
      rw [Database.replyRow, hfresh]
      rfl
    rw [hchatId, hcreated]
    refine ⟨rooted_count hrooted ?_, threadMetaAgrees_count hagrees hroot htop hne ?_ ?_ hmeta
      (hnone threadId) ?_ ?_ (hlatest hpublish)⟩
    · rw [hmessages]
      change (db.messages.upsert id _).row threadId ≠ none
      rw [Table.upsert_row_ne _ _ hne, hroot]
      exact Option.some_ne_none root
    · intro k hk
      rw [hmessages]
      exact Table.upsert_row_ne _ _ hk
    · exact ⟨_, by rw [hmessages]; exact Table.upsert_row_self _ _ _, rfl⟩
    · rw [replyRow_insert hmessages, if_pos rfl, replyAt_newMessage, if_pos ⟨rfl, hpublish⟩]
    · intro r hr
      rw [replyRow_insert hmessages, if_pos rfl, replyAt_newMessage, hnone r, if_neg]
      exact fun hand => hr (Option.some.inj hand.1).symm
  · rw [if_neg hpublish]
    refine ⟨hrooted, threadMetaAgrees_insert hdb hagrees hfresh hmessages hmeta rfl fun r => ?_⟩
    rw [replyAt_newMessage, if_neg]
    exact fun hand => hpublish hand.2

end Sends

section Publish

variable {db db' : Database} {messageId : Int} {message updated : Message}
  {outcome : AudioPublishOutcome}

theorem rooted_setPublished (h : Rooted db) :
    Rooted ((db.swapAttachment outcome).setPublished messageId outcome) := by
  have hrows := setPublished_row db messageId outcome
  obtain ⟨-, hmeta, -, -, -⟩ := setPublished_same db messageId outcome
  constructor
  · intro id m' rootId hm' hreply
    rw [hrows] at hm'
    obtain ⟨m, hm, hif⟩ := Option.map_eq_some_iff.mp hm'
    have hsame : m'.replyRootId = m.replyRootId ∧ m'.chatId = m.chatId := by
      split at hif <;> subst hif <;> exact ⟨rfl, rfl⟩
    obtain ⟨root, hroot, hchat, htop⟩ := h.root id m rootId hm (hsame.1.symm.trans hreply)
    rw [hrows, hroot, Option.map_some]
    split
    · exact ⟨_, rfl, hchat.trans hsame.2.symm, htop⟩
    · exact ⟨_, rfl, hchat.trans hsame.2.symm, htop⟩
  · intro chatId rootId hne
    rw [hmeta] at hne
    obtain ⟨m, hm⟩ := Option.ne_none_iff_exists'.mp (h.counted chatId rootId hne)
    rw [hrows, hm, Option.map_some]
    exact Option.some_ne_none _

/-- A row that was published, or is no reply, changes no thread when it is published. -/
theorem threadMetaAgrees_setPublished (hagrees : ThreadMetaAgrees db)
    (hrow : ∀ m, db.messages.row messageId = some m → m.isPublished = true ∨ m.replyRootId = none) :
    ThreadMetaAgrees ((db.swapAttachment outcome).setPublished messageId outcome) := by
  have hrows := setPublished_row db messageId outcome
  obtain ⟨-, hmeta, -, -, -⟩ := setPublished_same db messageId outcome
  have hreplies : ∀ r k, ((db.swapAttachment outcome).setPublished messageId outcome).replyRow r k =
      db.replyRow r k := by
    intro r k
    rw [Database.replyRow, Database.replyRow, hrows]
    cases hk : db.messages.row k with
    | none => rfl
    | some m =>
      rw [Option.map_some]
      split
      · next heq =>
        rcases hrow m (heq ▸ hk) with hp | hp <;>
          simp [replyAt, publishedRow, Message.isLive, hp]
      · rfl
  intro rootId root' hroot' htop'
  rw [hrows] at hroot'
  obtain ⟨root, hroot, hif⟩ := Option.map_eq_some_iff.mp hroot'
  have hsame : root'.replyRootId = root.replyRootId ∧ root'.chatId = root.chatId ∧
      root'.hasThread = root.hasThread := by
    split at hif <;> subst hif <;> exact ⟨rfl, rfl, rfl⟩
  exact agrees_congr (hagrees rootId root hroot (hsame.1.symm.trans htop')) hsame.2.1 hsame.2.2
    (by rw [hmeta]) (hreplies rootId)

/-- A job that counts its message: the row is a reply that neither was published nor deleted since
the load, and no reply of the thread is newer. -/
def CountsReply (db : Database) (messageId : Int) (message : Message) : Prop :=
  message.isPublished = false → ∀ m, db.messages.row messageId = some m →
    ∀ rootId, m.replyRootId = some rootId → m.deletedAt = none ∧ m.isPublished = false ∧
      ∀ k t, db.replyRow rootId k = some t → t ≤ m.createdAt

theorem publishAudio_threadMeta (hdb : Rooted db) (hagrees : ThreadMetaAgrees db)
    (hloaded : message.isPublished = true → ∀ m, db.messages.row messageId = some m →
      m.isPublished = true)
    (hcounts : CountsReply db messageId message)
    (h : db.publishAudio messageId message outcome = .ok (db', updated)) :
    Rooted db' ∧ ThreadMetaAgrees db' := by
  obtain ⟨m, hm, -, ⟨hpublished, rfl⟩ | ⟨-, htop, rfl⟩ | ⟨hpublished, rootId, hroot, rfl⟩⟩ :=
    publishAudio_spec h
  · exact ⟨rooted_setPublished hdb, threadMetaAgrees_setPublished hagrees fun m' hm' =>
      .inl (hloaded hpublished m' hm')⟩
  · have hrow : ∀ m', db.messages.row messageId = some m' → m'.isPublished = true ∨
        m'.replyRootId = none := fun m' hm' => by
      obtain rfl := Option.some.inj (hm.symm.trans hm')
      exact .inr htop
    exact ⟨rooted_congr (rooted_setPublished hdb) rfl rfl,
      threadMetaAgrees_congr (threadMetaAgrees_setPublished hagrees hrow) rfl rfl⟩
  · obtain ⟨hdeleted, hunpublished, hlatest⟩ := hcounts hpublished m hm rootId hroot
    obtain ⟨root, hrootrow, hchat, htop⟩ := hdb.root messageId m rootId hm hroot
    have hrows := setPublished_row db messageId outcome
    have hmeta := (setPublished_same db messageId outcome).2.1
    have hne : rootId ≠ messageId := by
      rintro rfl
      obtain rfl := Option.some.inj (hm.symm.trans hrootrow)
      rw [hroot] at htop
      cases htop
    have hnew : ((db.swapAttachment outcome).setPublished messageId outcome).messages.row
        messageId = some (publishedRow outcome m) := by
      rw [hrows, hm, Option.map_some, if_pos rfl]
    have hafter : ∀ r, ((db.swapAttachment outcome).setPublished messageId outcome).replyRow r
        messageId = if r = rootId then some m.createdAt else none := by
      intro r
      rw [Database.replyRow, hnew, Option.bind_some]
      by_cases hr : r = rootId
      · simp [replyAt, publishedRow, Message.isLive, hroot, hdeleted, hr]
      · simp [replyAt, publishedRow, hroot, hr, Ne.symm hr]
    have hbefore : ∀ r, db.replyRow r messageId = none := by
      intro r
      rw [Database.replyRow, hm, Option.bind_some]
      simp [replyAt, Message.isLive, hunpublished]
    rw [← hchat]
    refine ⟨rooted_count (rooted_setPublished hdb) ?_,
      threadMetaAgrees_count hagrees hrootrow htop hne ?_ ⟨_, hnew, hroot⟩ hmeta
        (hbefore rootId) ?_ ?_ hlatest⟩
    · rw [hrows, hrootrow]
      exact Option.some_ne_none _
    · intro k hk
      rw [hrows]
      cases db.messages.row k <;> simp [hk]
    · rw [hafter, if_pos rfl]
    · intro r hr
      rw [hafter, if_neg hr, hbefore]

end Publish

namespace System

/-- No thread pin is announced; what a step counts is a new reply, and the newest one. -/
def CountsReplies (s : System) (e : Event) : Prop :=
  ¬e.Announces s.db ∧
    (∀ now id threadId notifyMentions p, e.send = some (.toThread now id threadId notifyMentions p) →
      p.publishImmediately = true → ∀ k t, s.db.replyRow threadId k = some t → t ≤ now) ∧
    ∀ job messageId message attachment outcome, e = .publishAudio job →
      s.jobs.row job = some (.loaded messageId message attachment outcome) →
      CountsReply s.db messageId message

/-- What holds in every state of a run whose steps count replies. -/
structure ThreadsSound (s : System) : Prop where
  rooted : Rooted s.db
  agrees : ThreadMetaAgrees s.db
  loaded : ∀ job messageId message attachment outcome,
    s.jobs.row job = some (.loaded messageId message attachment outcome) →
    message.isPublished = true → ∃ m, s.db.messages.row messageId = some m ∧ m.isPublished = true

theorem loadAudio_row {db : Database} {messageId id : Int} {transcoded : Option TranscodedObject}
    {message : Message} {attachment : Option (Int × Attachment)} {outcome : AudioPublishOutcome}
    (h : db.loadAudio messageId transcoded = .ok (.loaded id message attachment outcome)) :
    db.messages.row id = some message ∧ message.deletedAt = none := by
  unfold Database.loadAudio at h
  split at h
  · cases h
  · next m hm =>
    split at h
    · cases h
    · next hdeleted =>
      split at h
      · cases h
      · cases h
        exact ⟨hm, by simpa using (not_or.mp hdeleted).1⟩

/-- The rows of loaded jobs, when a step adds or ends a job at most. -/
theorem loaded_step {s t : System} {e : Event} (h : s.Next e t) {job : Nat} {messageId : Int}
    {message : Message} {attachment : Option (Int × Attachment)} {outcome : AudioPublishOutcome}
    (hjob : t.jobs.row job = some (.loaded messageId message attachment outcome)) :
    s.jobs.row job = some (.loaded messageId message attachment outcome) ∨
      s.db.messages.row messageId = some message ∧ message.deletedAt = none := by
  cases h with
  | load job' messageId' transcoded loaded free load =>
    simp only [Table.upsert_row] at hjob
    split at hjob
    · obtain rfl := Option.some.inj hjob
      exact .inr (loadAudio_row load)
    · exact .inl hjob
  | publish job' messageId' message' updated attachment' outcome' db loaded published =>
    simp only [Table.upsert_row] at hjob
    split at hjob
    · cases hjob
    · exact .inl hjob
  | finish job' messageId' message' updated attachment' outcome' published =>
    simp only [Table.upsert_row] at hjob
    split at hjob
    · cases hjob
    · exact .inl hjob
  | _ => exact .inl hjob

theorem ThreadsSound.next {s t : System} {e : Event} (hs : ThreadsSound s)
    (hok : CountsReplies s e) (h : s.Next e t) : ThreadsSound t := by
  obtain ⟨hannounce, hsend, hpublish⟩ := hok
  have hdb : Rooted t.db ∧ ThreadMetaAgrees t.db := by
    cases h with
    | toChat now id hidden p db outputs sends sent =>
      exact sendToChat_threadMeta hs.rooted hs.agrees sent
    | toThread now id threadId notifyMentions p db outputs sends sent =>
      exact sendToThread_threadMeta hs.rooted hs.agrees
        (hsend now id threadId notifyMentions p sends) sent
    | pin now announcementId p pins db outputs sends announces reply announced =>
      have hsilent := @sendPinSystemMessage_silent { s.db with pinnedMessages := pins } now _ _
        fun id hid hcheck => hannounce (announces id hid hcheck)
      obtain ⟨rfl, -⟩ := Prod.mk.inj (hsilent.symm.trans announced)
      exact ⟨rooted_congr hs.rooted rfl rfl, threadMetaAgrees_congr hs.agrees rfl rfl⟩
    | delete chatId marked reconciled db targets shifted deletes deleted =>
      exact ⟨deleted.rooted hs.rooted, deleted.threadMetaAgrees hs.rooted hs.agrees⟩
    | load => exact ⟨hs.rooted, hs.agrees⟩
    | publish job messageId message updated attachment outcome db loaded published =>
      refine publishAudio_threadMeta hs.rooted hs.agrees (fun hp m hm => ?_)
        (hpublish job messageId message attachment outcome rfl loaded) published
      obtain ⟨m', hm', hp'⟩ := hs.loaded job messageId message attachment outcome loaded hp
      exact Option.some.inj (hm'.symm.trans hm) ▸ hp'
    | finish job messageId message updated attachment outcome published =>
      have hsame := audioSideEffects_same s.db messageId message updated attachment outcome
      exact ⟨rooted_congr hs.rooted hsame.messages hsame.threadMeta,
        threadMetaAgrees_congr hs.agrees hsame.messages hsame.threadMeta⟩
  refine ⟨hdb.1, hdb.2, ?_⟩
  intro job messageId message attachment outcome hjob hp
  have hrow : ∃ m, s.db.messages.row messageId = some m ∧ m.isPublished = true := by
    rcases loaded_step h hjob with hold | ⟨hrow, -⟩
    · exact hs.loaded job messageId message attachment outcome hold hp
    · exact ⟨message, hrow, hp⟩
  obtain ⟨m, hm, hmp⟩ := hrow
  obtain ⟨m', hm', hpersists⟩ := h.persists messageId m hm
  exact ⟨m', hm', hpersists.published hmp⟩

/-- The times of the published replies of a thread that are not deleted. -/
def replyTimes (db : Database) (rootId : Int) : Set Int :=
  {t | ∃ id m, db.messages.row id = some m ∧ m.replyRootId = some rootId ∧ m.isLive = true ∧
    m.createdAt = t}

/-- What the statistics of a thread say of its replies. -/
structure ThreadCounted (db : Database) (rootId : Int) (root : Message) : Prop where
  row : (db.threadMeta.row (root.chatId, rootId)).isSome = true ↔ 0 < (db.liveReplies rootId).card
  counts : ∀ stats, db.threadMeta.row (root.chatId, rootId) = some stats →
    stats.replyCount = (db.liveReplies rootId).card ∧
      ∃ last, stats.lastReplyAt = some last ∧ IsGreatest (replyTimes db rootId) last
  flag : root.hasThread = true ↔ 0 < (db.liveReplies rootId).card

theorem isGreatest_replyTimes {db : Database} {rootId last : Int}
    (h : db.lastReplyAt rootId = some last) : IsGreatest (replyTimes db rootId) last := by
  obtain ⟨⟨id, hid⟩, hle⟩ := Database.lastReplyAt_eq_some.mp h
  obtain ⟨m, hm⟩ := Database.replyRow_eq_some.mp hid
  refine ⟨⟨id, m, hm⟩, ?_⟩
  rintro t ⟨k, mk, hk⟩
  exact hle k t (Database.replyRow_eq_some.mpr ⟨mk, hk⟩)

theorem Agrees.counted {db : Database} {rootId : Int} {root : Message}
    (h : Agrees db rootId root) : ThreadCounted db rootId root := by
  obtain ⟨hstats, hflag⟩ := h
  have hpos : 0 < (db.liveReplies rootId).card ↔ db.liveReplies rootId ≠ ∅ := by
    rw [Finset.card_pos, Finset.nonempty_iff_ne_empty]
  refine ⟨?_, ?_, hflag.trans hpos.symm⟩
  · rw [hstats, hpos, Option.isSome_iff_ne_none, ne_eq, Database.threadStats_eq_none]
  · intro stats hrow
    rw [hstats, Database.threadStats] at hrow
    split at hrow
    · cases hrow
    · next hne =>
      obtain rfl := Option.some.inj hrow
      obtain ⟨id, hid⟩ := Finset.nonempty_iff_ne_empty.mpr hne
      obtain ⟨t, ht⟩ := Database.mem_liveReplies.mp hid
      obtain ⟨last, hlast⟩ := Database.exists_lastReplyAt ht
      exact ⟨rfl, last, hlast, isGreatest_replyTimes hlast⟩

/-- Nothing was sent yet. -/
theorem threadsSound_start {db : Database} (hmessages : db.messages = .empty)
    (hmeta : db.threadMeta = .empty) : ThreadsSound (start db) where
  rooted := by
    constructor
    · intro id m rootId hrow
      rw [start, hmessages] at hrow
      cases hrow
    · intro chatId rootId hne
      rw [start, hmeta] at hne
      exact absurd rfl hne
  agrees := by
    intro rootId root hrow
    rw [start, hmessages] at hrow
    cases hrow
  loaded := by
    intro job messageId message attachment outcome hjob
    cases hjob

/-- As long as every step counts its replies, the statistics of every thread are exact. -/
theorem thread_meta_agrees {s t : System} {es : List Event} {rootId : Int} {root : Message}
    (hstart : ThreadsSound s) (hcounts : Along step CountsReplies s es)
    (h : run step s es = some t) (hrow : t.db.messages.row rootId = some root)
    (htop : root.replyRootId = none) : ThreadCounted t.db rootId root := by
  have hsound : ThreadsSound t := run_invariant_along
    (fun _ _ _ hs hok hstep => hs.next hok (next_of_step hstep)) hstart hcounts h
  exact Agrees.counted (hsound.agrees rootId root hrow htop)

def textBody (text : String) : CreateMessageBody where
  message := some text
  messageType := .text
  replyToId := none
  attachmentIds := []

/-- A thread of one reply, which is then deleted. -/
theorem thread_meta_agrees_after_delete :
    ∃ t root, run step (start (.newGroup 1 [(7, .admin)]))
        [.postMessage 100 10 7 1 false (textBody "a"),
          .postThreadMessage 200 11 7 1 10 (textBody "b"), .deleteMessage 300 7 1 11] = some t ∧
      t.db.messages.row 10 = some root ∧ ThreadCounted t.db 10 root := by
  have hother : ∀ (s : System) (e : Event), (∀ db, ¬e.Announces db) →
      (∀ now id threadId notifyMentions p,
        e.send ≠ some (.toThread now id threadId notifyMentions p)) →
      (∀ job, e ≠ .publishAudio job) → CountsReplies s e := fun s e hpin hsend hpublish =>
    ⟨hpin s.db, fun now id threadId notifyMentions p h => absurd h (hsend _ _ _ _ _),
      fun job _ _ _ _ h => absurd h (hpublish job)⟩
  have hreply : ∀ (s : System) (now id uid chatId threadId : Int) (body : CreateMessageBody),
      s.db.liveReplies threadId = ∅ →
      CountsReplies s (.postThreadMessage now id uid chatId threadId body) := by
    intro s now id uid chatId threadId body hempty
    refine ⟨fun h => h, ?_, fun _ _ _ _ _ h => nomatch h⟩
    rintro _ _ _ _ _ ⟨⟩ - k t hk
    have hmem := Database.mem_liveReplies.mpr ⟨t, hk⟩
    rw [hempty] at hmem
    exact absurd hmem (Finset.notMem_empty k)
  refine ⟨_, _, rfl, rfl, ?_⟩
  refine @thread_meta_agrees (start (.newGroup 1 [(7, .admin)])) _
    [.postMessage 100 10 7 1 false (textBody "a"),
      .postThreadMessage 200 11 7 1 10 (textBody "b"), .deleteMessage 300 7 1 11] 10 _
    (threadsSound_start rfl rfl) ?_ rfl rfl rfl
  refine .cons rfl (hother _ _ (fun _ h => h) (fun _ _ _ _ _ h => nomatch h)
    (fun _ h => nomatch h)) ?_
  refine .cons rfl (hreply _ _ _ _ _ _ _ (by decide)) ?_
  exact .cons rfl (hother _ _ (fun _ h => h) (fun _ _ _ _ _ h => nomatch h)
    (fun _ h => nomatch h)) trivial

/-- The announcement of a thread pin is a reply that no thread counts. -/
theorem thread_pin_uncounted :
    ∃ t root, run step (start (.newGroup 1 [(7, .admin)]))
        [.postMessage 100 10 7 1 false (textBody "a"),
          .createThreadPin 200 20 (some 11) 7 1 10 10] = some t ∧
      t.db.messages.row 10 = some root ∧ root.replyRootId = none ∧
      ¬ThreadCounted t.db 10 root := by
  refine ⟨_, _, rfl, rfl, rfl, fun h => ?_⟩
  have hflag := h.flag
  revert hflag
  decide

end System

end Chahua.Messages

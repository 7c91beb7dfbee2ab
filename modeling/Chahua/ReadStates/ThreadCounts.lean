import Chahua.ReadStates.FreshReads
import Chahua.ReadStates.UnreadTotals

namespace Chahua.ReadStates

open Framework

/-- What the counts of a thread list read of a row of `get_user_threads`. -/
structure ThreadListRow where
  chatId : Int
  threadRootId : Int
  archived : Bool
  lastReadMessageId : Option Int
  deriving DecidableEq, Repr

structure ThreadCounts where
  threadRootId : Int
  unreadCount : Nat
  unreadMentions : Nat
  unreadReactions : Nat
  deriving DecidableEq, Repr

structure UnreadThreadSummaryCounts where
  unreadThreadCount : Nat
  archivedUnreadThreadCount : Nat
  unreadMessageCount : Nat
  archivedUnreadMessageCount : Nat
  deriving DecidableEq, Repr

namespace Database

/-- The subscriptions that a thread list or a summary runs over: those whose root is a published
top-level message with a thread. -/
def qualifiedSubscriptions (db : Database) (uid : Int) (archived : Bool) :
    Finset (Int × Int × Int) :=
  db.threadUserStates.select fun key state => decide (key.2.2 = uid) && state.subscribed &&
    decide (state.archived = archived) && (db.messages.row key.2.1).any fun root =>
      root.replyRootId.isNone && root.hasThread && root.isPublished

/-- A row that `get_user_threads` may return on some page. -/
def ListsThread (db : Database) (uid : Int) (archived : Bool) (row : ThreadListRow) : Prop :=
  (row.chatId, row.threadRootId, uid) ∈ db.qualifiedSubscriptions uid archived ∧
    row.archived = archived ∧
    row.lastReadMessageId = db.getThreadLastReadMessageId row.chatId row.threadRootId uid

def pointer (db : Database) (key : Int × Int × Int) : Option Int :=
  (db.threadUserStates.row key).bind (·.lastReadMessageId)

/-- The unread rows of a thread list, grouped by root; each state is counted up to the cap. -/
def threadUnreadRows (db : Database) (uid : Int) (archived : Bool) (rootIds : List Int) :
    Table Int Nat :=
  let states := db.threadUserStates.select fun key state => decide (key.2.2 = uid) &&
    decide (state.archived = archived) && decide (key.2.1 ∈ rootIds)
  .tabulate (states.image (·.2.1)) fun root =>
    ∑ key ∈ states.filter (·.2.1 = root),
      min (db.repliesAfter root (db.pointer key)).card MAX_UNREAD_COUNT

/-- A root without unread mentions has no row; here it counts 0. -/
def threadMentionRows (db : Database) (uid : Int) (rootIds : List Int) : Table Int Nat :=
  .tabulate rootIds.toFinset fun root =>
    (db.mentions.select fun key mention => decide (key.2 = uid) &&
      decide (mention.threadRootId = some root) &&
        (db.threadUserStates.row (mention.chatId, root, uid)).any fun tus =>
          decide (tus.lastReadMessageId.getD 0 < key.1)).card

def threadReactionRows (db : Database) (uid : Int) (rootIds : List Int) : Table Int Nat :=
  .tabulate rootIds.toFinset fun root =>
    (db.reactions.image
      (fun key reaction => (db.messages.row key.1).any fun m =>
        decide (m.replyRootId = some root) && m.deletedAt.isNone && m.isPublished &&
          decide (m.senderUid = uid) && decide (key.2.1 ≠ m.senderUid) &&
            (db.threadUserStates.row (m.chatId, root, uid)).any fun tus =>
              decide (tus.lastReactionsReadAt < reaction.createdAt))
      fun key _ => key.1).card

/-- The counts of `enrich_thread_list`. -/
def enrichThreadList (db : Database) (uid : Int) (rows : List ThreadListRow) :
    List ThreadCounts :=
  let rootIds := rows.map (·.threadRootId)
  let unread := db.threadUnreadRows uid ((rows.head?.map (·.archived)).getD false) rootIds
  let mentions := db.threadMentionRows uid rootIds
  let reactions := db.threadReactionRows uid rootIds
  rows.map fun row =>
    { threadRootId := row.threadRootId
      unreadCount := (unread.row row.threadRootId).getD 0
      unreadMentions :=
        ((mentions.row row.threadRootId).map fun count => min count MAX_UNREAD_COUNT).getD 0
      unreadReactions :=
        ((reactions.row row.threadRootId).map fun count => min count MAX_UNREAD_COUNT).getD 0 }

def unreadThreads (db : Database) (uid : Int) (archived : Bool) : Nat :=
  ((db.qualifiedSubscriptions uid archived).filter fun key =>
    (db.repliesAfter key.2.1 (db.pointer key)).Nonempty).card

def unreadThreadMessages (db : Database) (uid : Int) (archived : Bool) : Nat :=
  min (∑ key ∈ db.qualifiedSubscriptions uid archived,
    min (db.repliesAfter key.2.1 (db.pointer key)).card MAX_UNREAD_COUNT) MAX_UNREAD_COUNT

def getUnreadSummaryCounts (db : Database) (uid : Int) : UnreadThreadSummaryCounts where
  unreadThreadCount := db.unreadThreads uid false
  archivedUnreadThreadCount := db.unreadThreads uid true
  unreadMessageCount := db.unreadThreadMessages uid false
  archivedUnreadMessageCount := db.unreadThreadMessages uid true

/-- The unread count of the thread of a state, from its own pointer. -/
def threadUnread (db : Database) (key : Int × Int × Int) : Nat :=
  db.getThreadUnreadCount key.2.1 key.2.2 (db.pointer key)

/-- A user has one state in a thread. -/
def OneState (db : Database) (uid : Int) : Prop :=
  ∀ root chatId chatId' state state',
    db.threadUserStates.row (chatId, root, uid) = some state →
    db.threadUserStates.row (chatId', root, uid) = some state' → chatId' = chatId

/-- A user has one state in a thread, and a reaction names the author of its message. -/
structure Consistent (db : Database) (uid : Int) : Prop where
  oneState : db.OneState uid
  authored : ∀ key reaction m, db.reactions.row key = some reaction →
    db.messages.row key.1 = some m → (reaction.messageAuthorUid = uid ↔ m.senderUid = uid)

variable {db : Database}

/-- With one state, the join of the single count runs over one row. -/
theorem getThreadUnreadCount_of_row {uid chatId root : Int} {state : ThreadUserState}
    (h : db.OneState uid) (hrow : db.threadUserStates.row (chatId, root, uid) = some state)
    (last : Option Int) :
    db.getThreadUnreadCount root uid last = min (db.repliesAfter root last).card MAX_UNREAD_COUNT := by
  have hone : (db.threadUserStates.select fun key _ =>
      decide (key.2.1 = root) && decide (key.2.2 = uid)) = {(chatId, root, uid)} := by
    ext key
    obtain ⟨chatId', root', uid'⟩ := key
    simp only [Table.mem_select, Finset.mem_singleton, Bool.and_eq_true, decide_eq_true_eq,
      Prod.mk.injEq]
    constructor
    · intro hkey
      obtain ⟨state', hrow', rfl, rfl⟩ := hkey
      exact ⟨h root' chatId chatId' state state' hrow hrow', rfl, rfl⟩
    · intro hkey
      obtain ⟨rfl, rfl, rfl⟩ := hkey
      exact ⟨state, hrow, rfl, rfl⟩
  rw [getThreadUnreadCount, hone, Finset.card_singleton, Nat.one_mul]

theorem mem_qualifiedSubscriptions {uid : Int} {archived : Bool} {key : Int × Int × Int}
    (h : key ∈ db.qualifiedSubscriptions uid archived) :
    key.2.2 = uid ∧ ∃ state, db.threadUserStates.row key = some state ∧
      state.archived = archived := by
  obtain ⟨state, hrow, hstate⟩ := Table.mem_select.mp h
  simp only [Bool.and_eq_true, decide_eq_true_eq] at hstate
  exact ⟨hstate.1.1.1, state, hrow, hstate.1.2⟩

theorem threadUnread_of_qualified {uid : Int} {archived : Bool} {key : Int × Int × Int}
    (h : db.OneState uid) (hkey : key ∈ db.qualifiedSubscriptions uid archived) :
    db.threadUnread key = min (db.repliesAfter key.2.1 (db.pointer key)).card MAX_UNREAD_COUNT := by
  obtain ⟨chatId, root, uid'⟩ := key
  obtain ⟨rfl, state, hrow, -⟩ := mem_qualifiedSubscriptions hkey
  exact getThreadUnreadCount_of_row h hrow _

theorem getUnreadSummaryCounts_eq {uid : Int} (h : db.OneState uid) :
    db.getUnreadSummaryCounts uid = {
      unreadThreadCount :=
        ((db.qualifiedSubscriptions uid false).filter (0 < db.threadUnread ·)).card
      archivedUnreadThreadCount :=
        ((db.qualifiedSubscriptions uid true).filter (0 < db.threadUnread ·)).card
      unreadMessageCount :=
        min (∑ key ∈ db.qualifiedSubscriptions uid false, db.threadUnread key) MAX_UNREAD_COUNT
      archivedUnreadMessageCount :=
        min (∑ key ∈ db.qualifiedSubscriptions uid true, db.threadUnread key) MAX_UNREAD_COUNT } := by
  have hthreads : ∀ archived, db.unreadThreads uid archived =
      ((db.qualifiedSubscriptions uid archived).filter (0 < db.threadUnread ·)).card := by
    intro archived
    rw [unreadThreads]
    congr 1
    refine Finset.filter_congr fun key hkey => ?_
    rw [threadUnread_of_qualified h hkey, ← Finset.card_pos]
    simp only [MAX_UNREAD_COUNT]
    omega
  have hmessages : ∀ archived, db.unreadThreadMessages uid archived =
      min (∑ key ∈ db.qualifiedSubscriptions uid archived, db.threadUnread key)
        MAX_UNREAD_COUNT := by
    intro archived
    rw [unreadThreadMessages]
    congr 1
    exact Finset.sum_congr rfl fun key hkey => (threadUnread_of_qualified h hkey).symm
  simp only [getUnreadSummaryCounts, hthreads, hmessages]

theorem threadUnreadRows_row {uid : Int} {archived : Bool} {rootIds : List Int}
    {row : ThreadListRow} (h : db.OneState uid) (hlists : db.ListsThread uid archived row)
    (hmem : row.threadRootId ∈ rootIds) :
    (db.threadUnreadRows uid archived rootIds).row row.threadRootId =
      some (db.getThreadUnreadCount row.threadRootId uid row.lastReadMessageId) := by
  obtain ⟨-, state, hrow, harchived⟩ := mem_qualifiedSubscriptions hlists.1
  have hstates : (db.threadUserStates.select fun key state => decide (key.2.2 = uid) &&
      decide (state.archived = archived) && decide (key.2.1 ∈ rootIds)).filter
        (·.2.1 = row.threadRootId) = {(row.chatId, row.threadRootId, uid)} := by
    ext key
    obtain ⟨chatId, root, uid'⟩ := key
    simp only [Finset.mem_filter, Table.mem_select, Finset.mem_singleton, Bool.and_eq_true,
      decide_eq_true_eq, Prod.mk.injEq]
    constructor
    · intro hkey
      obtain ⟨⟨state', hrow', ⟨rfl, -⟩, -⟩, rfl⟩ := hkey
      exact ⟨h _ row.chatId chatId state state' hrow hrow', rfl, rfl⟩
    · intro hkey
      obtain ⟨rfl, rfl, rfl⟩ := hkey
      exact ⟨⟨state, hrow, ⟨rfl, harchived⟩, hmem⟩, rfl⟩
  have hgroup : row.threadRootId ∈ (db.threadUserStates.select fun key state =>
      decide (key.2.2 = uid) && decide (state.archived = archived) &&
        decide (key.2.1 ∈ rootIds)).image (·.2.1) := by
    have hkey := Finset.mem_singleton_self (row.chatId, row.threadRootId, uid)
    rw [← hstates] at hkey
    exact Finset.mem_image.mpr ⟨_, (Finset.mem_filter.mp hkey).1, rfl⟩
  rw [threadUnreadRows, Table.tabulate_row, if_pos hgroup, hstates, Finset.sum_singleton,
    getThreadUnreadCount_of_row h hrow, hlists.2.2]
  rfl

theorem threadMentionRows_row {uid : Int} {archived : Bool} {rootIds : List Int}
    {row : ThreadListRow} (h : db.OneState uid) (hlists : db.ListsThread uid archived row)
    (hmem : row.threadRootId ∈ rootIds) :
    ((db.threadMentionRows uid rootIds).row row.threadRootId).map
        (fun count => min count MAX_UNREAD_COUNT) =
      some (db.countChatUnreadMentions uid row.chatId row.lastReadMessageId
        (some row.threadRootId)) := by
  obtain ⟨-, state, hrow, -⟩ := mem_qualifiedSubscriptions hlists.1
  have hlast : row.lastReadMessageId = state.lastReadMessageId := by
    rw [hlists.2.2, getThreadLastReadMessageId, hrow]
    rfl
  rw [threadMentionRows, Table.tabulate_row, if_pos (List.mem_toFinset.mpr hmem), Option.map_some,
    countChatUnreadMentions]
  congr 3
  ext key
  simp only [Table.mem_select, Bool.and_eq_true, decide_eq_true_eq, Option.any_eq_true]
  refine exists_congr fun mention => and_congr_right fun _ => ?_
  constructor
  · intro hkey
    obtain ⟨⟨huid, hroot⟩, state', hrow', hlt⟩ := hkey
    have hchat := h _ row.chatId mention.chatId state state' hrow hrow'
    rw [hchat, hrow] at hrow'
    cases hrow'
    exact ⟨⟨⟨huid, hchat⟩, hroot⟩, hlast ▸ hlt⟩
  · intro hkey
    obtain ⟨⟨⟨huid, hchat⟩, hroot⟩, hlt⟩ := hkey
    exact ⟨⟨huid, hroot⟩, state, hchat ▸ hrow, hlast ▸ hlt⟩

theorem threadReactionRows_row {uid : Int} {archived : Bool} {rootIds : List Int}
    {row : ThreadListRow} (h : db.Consistent uid) (hlists : db.ListsThread uid archived row)
    (hmem : row.threadRootId ∈ rootIds) :
    ((db.threadReactionRows uid rootIds).row row.threadRootId).map
        (fun count => min count MAX_UNREAD_COUNT) =
      some (db.countChatUnreadReactions uid row.chatId (some row.threadRootId)) := by
  obtain ⟨-, state, hrow, -⟩ := mem_qualifiedSubscriptions hlists.1
  rw [threadReactionRows, Table.tabulate_row, if_pos (List.mem_toFinset.mpr hmem), Option.map_some,
    countChatUnreadReactions]
  congr 3
  ext id
  simp only [Table.mem_image, Bool.and_eq_true, decide_eq_true_eq, Option.any_eq_true, hrow,
    Option.map_some, Option.all_some]
  refine exists_congr fun key => exists_congr fun reaction => and_congr_right fun hreaction =>
    and_congr_left fun _ => ?_
  constructor
  · intro hkey
    obtain ⟨m, hm, ⟨⟨⟨⟨hroot, hlive⟩, hpublished⟩, hsender⟩, hother⟩, state', hrow', hlt⟩ := hkey
    have hchat := h.oneState _ row.chatId m.chatId state state' hrow hrow'
    rw [hchat, hrow] at hrow'
    cases hrow'
    have hauthor := (h.authored key reaction m hreaction hm).mpr hsender
    exact ⟨⟨⟨hauthor, hsender ▸ hother⟩, m, hm, ⟨⟨hchat, hlive⟩, hpublished⟩, hroot⟩, hlt⟩
  · intro hkey
    obtain ⟨⟨⟨hauthor, hother⟩, m, hm, ⟨⟨hchat, hlive⟩, hpublished⟩, hroot⟩, hlt⟩ := hkey
    have hsender := (h.authored key reaction m hreaction hm).mp hauthor
    exact ⟨m, hm, ⟨⟨⟨⟨hroot, hlive⟩, hpublished⟩, hsender⟩, hsender ▸ hother⟩, state,
      hchat ▸ hrow, hlt⟩

theorem archived_of_lists {uid : Int} {archived : Bool} {rows : List ThreadListRow}
    (hlists : ∀ row ∈ rows, db.ListsThread uid archived row) {row : ThreadListRow}
    (hrow : row ∈ rows) : (rows.head?.map (·.archived)).getD false = archived := by
  cases rows with
  | nil => cases hrow
  | cons first rows => exact (hlists first List.mem_cons_self).2.1

/-- Unread replies and mentions need one state only. -/
theorem enrichThreadList_counts {uid : Int} {archived : Bool} {rows : List ThreadListRow}
    (h : db.OneState uid) (hlists : ∀ row ∈ rows, db.ListsThread uid archived row) :
    (db.enrichThreadList uid rows).map
        (fun counts => (counts.threadRootId, counts.unreadCount, counts.unreadMentions)) =
      rows.map fun row => (row.threadRootId,
        db.getThreadUnreadCount row.threadRootId uid row.lastReadMessageId,
        db.countChatUnreadMentions uid row.chatId row.lastReadMessageId
          (some row.threadRootId)) := by
  rw [enrichThreadList, List.map_map]
  refine List.map_congr_left fun row hrow => ?_
  have hmem : row.threadRootId ∈ rows.map (·.threadRootId) := List.mem_map_of_mem hrow
  rw [Function.comp_apply, archived_of_lists hlists hrow,
    threadUnreadRows_row h (hlists row hrow) hmem, threadMentionRows_row h (hlists row hrow) hmem]
  rfl

theorem enrichThreadList_eq {uid : Int} {archived : Bool} {rows : List ThreadListRow}
    (h : db.Consistent uid) (hlists : ∀ row ∈ rows, db.ListsThread uid archived row) :
    db.enrichThreadList uid rows = rows.map fun row =>
      { threadRootId := row.threadRootId
        unreadCount := db.getThreadUnreadCount row.threadRootId uid row.lastReadMessageId
        unreadMentions := db.countChatUnreadMentions uid row.chatId row.lastReadMessageId
          (some row.threadRootId)
        unreadReactions := db.countChatUnreadReactions uid row.chatId (some row.threadRootId) } := by
  rw [enrichThreadList]
  refine List.map_congr_left fun row hrow => ?_
  have hmem : row.threadRootId ∈ rows.map (·.threadRootId) := List.mem_map_of_mem hrow
  rw [archived_of_lists hlists hrow, threadUnreadRows_row h.oneState (hlists row hrow) hmem,
    threadMentionRows_row h.oneState (hlists row hrow) hmem,
    threadReactionRows_row h (hlists row hrow) hmem]
  rfl

end Database

/-- The push badge, the chat summary and the app badge are one total, a page of chats counts as
its chats do alone. So do the unread and mention counts of thread lists and the thread summaries
where the user has one state in a thread, and the reaction counts where the rows are consistent. -/
theorem unread_totals_agree (db : Database) (now uid : Int) :
    (∀ targetUids, uid ∈ targetUids →
      (db.countUsersUnreadTotals now targetUids).row uid = some (db.unreadTotal now uid)) ∧
    (db.countUserUnreadSummary now uid).unreadCount = db.unreadTotal now uid ∧
    (∀ views, db.appBadge now uid views = db.unreadTotal now uid) ∧
    (∀ memberships, (∀ m ∈ memberships, m ∈ db.loadUserChatMemberships now uid) →
      ∀ m ∈ memberships, ∃ n, (db.countMembershipUnreads memberships).row m.chatId = some n ∧
        db.countChatUnread uid m.chatId m.lastReadMessageId = .ok n) ∧
    (db.Consistent uid →
      ∀ archived rows, (∀ row ∈ rows, db.ListsThread uid archived row) →
        db.enrichThreadList uid rows = rows.map fun row =>
          { threadRootId := row.threadRootId
            unreadCount := db.getThreadUnreadCount row.threadRootId uid row.lastReadMessageId
            unreadMentions := db.countChatUnreadMentions uid row.chatId row.lastReadMessageId
              (some row.threadRootId)
            unreadReactions :=
              db.countChatUnreadReactions uid row.chatId (some row.threadRootId) }) ∧
    (db.OneState uid →
      (∀ archived rows, (∀ row ∈ rows, db.ListsThread uid archived row) →
        (db.enrichThreadList uid rows).map
            (fun counts => (counts.threadRootId, counts.unreadCount, counts.unreadMentions)) =
          rows.map fun row => (row.threadRootId,
            db.getThreadUnreadCount row.threadRootId uid row.lastReadMessageId,
            db.countChatUnreadMentions uid row.chatId row.lastReadMessageId
              (some row.threadRootId))) ∧
      db.getUnreadSummaryCounts uid = {
        unreadThreadCount :=
          ((db.qualifiedSubscriptions uid false).filter (0 < db.threadUnread ·)).card
        archivedUnreadThreadCount :=
          ((db.qualifiedSubscriptions uid true).filter (0 < db.threadUnread ·)).card
        unreadMessageCount :=
          min (∑ key ∈ db.qualifiedSubscriptions uid false, db.threadUnread key) MAX_UNREAD_COUNT
        archivedUnreadMessageCount :=
          min (∑ key ∈ db.qualifiedSubscriptions uid true, db.threadUnread key)
            MAX_UNREAD_COUNT }) := by
  refine ⟨fun targetUids h => Database.countUsersUnreadTotals_row now uid h,
    Database.countUserUnreadSummary_unreadCount now uid, Database.appBadge_eq now uid,
    fun memberships hsub m hm => Database.countMembershipUnreads_single now uid hsub hm,
    fun h archived rows hlists => Database.enrichThreadList_eq h hlists,
    fun h => ⟨fun archived rows hlists => Database.enrichThreadList_counts h hlists, ?_⟩⟩
  exact Database.getUnreadSummaryCounts_eq h

/-- The thread of `oneThread` under a root with a thread, and a reaction to the reply. -/
def listedThread (hasThread : Bool) (states : Table (Int × Int × Int) ThreadUserState)
    (reactions : Table (Int × Int × String) Reaction) : Database :=
  { oneThread states with
    messages := .ofList [(1, { plain 10 none with hasThread }), (2, plain 10 (some 1))]
    reactions
    positive := by intro id; cases hasThread <;> revert id <;> decide }

def unreadState (archived : Bool) : ThreadUserState := ⟨none, none, archived, true, 0⟩

theorem unread_totals_agree_listed :
    (listedThread true (.ofList [((10, 1, 7), unreadState false)]) .empty).enrichThreadList 7
        [⟨10, 1, false, none⟩] = [⟨1, 1, 0, 0⟩] ∧
      ((listedThread true (.ofList [((10, 1, 7), unreadState false)])
        .empty).countUsersUnreadTotals 0 [7]).row 7 = some 1 := by
  have h := unread_totals_agree
    (listedThread true (.ofList [((10, 1, 7), unreadState false)]) .empty) 0 7
  have hconsistent : (listedThread true (.ofList [((10, 1, 7), unreadState false)])
      .empty).Consistent 7 := by
    refine ⟨fun root chatId chatId' state state' hrow hrow' => ?_, fun key reaction m hrow => ?_⟩
    · have hmem := Table.mem_of_ofList_row hrow
      have hmem' := Table.mem_of_ofList_row hrow'
      simp at hmem hmem'
      omega
    · cases hrow
  refine ⟨h.2.2.2.2.1 hconsistent false [⟨10, 1, false, none⟩] ?_, h.1 [7] (by decide)⟩
  intro row hrow
  obtain rfl := List.mem_singleton.mp hrow
  exact ⟨by decide, rfl, rfl⟩

/-- A second state of the thread in another chat, a reaction row that names another author and a
subscription whose root has no thread each make the bulk and the single counts differ. -/
theorem thread_counts_differ :
    (listedThread true (.ofList [((10, 1, 7), unreadState false), ((20, 1, 7), unreadState true)])
        .empty).enrichThreadList 7 [⟨10, 1, false, none⟩] = [⟨1, 1, 0, 0⟩] ∧
      (listedThread true (.ofList [((10, 1, 7), unreadState false), ((20, 1, 7), unreadState true)])
        .empty).getThreadUnreadCount 1 7 none = 2 ∧
      (listedThread true (.ofList [((10, 1, 8), unreadState false)])
        (.ofList [((2, 9, "👍"), ⟨5, 1⟩)])).enrichThreadList 8 [⟨10, 1, false, none⟩] =
          [⟨1, 1, 0, 1⟩] ∧
      (listedThread true (.ofList [((10, 1, 8), unreadState false)])
        (.ofList [((2, 9, "👍"), ⟨5, 1⟩)])).countChatUnreadReactions 8 10 (some 1) = 0 ∧
      (listedThread false (.ofList [((10, 1, 7), unreadState false)])
        .empty).getUnreadSummaryCounts 7 = ⟨0, 0, 0, 0⟩ ∧
      (listedThread false (.ofList [((10, 1, 7), unreadState false)])
        .empty).getThreadUnreadCount 1 7 none = 1 := by
  decide

end Chahua.ReadStates

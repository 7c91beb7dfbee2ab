import Chahua.Messages.Store
import Chahua.Framework.Paging
import Mathlib

namespace Chahua.Lists

open Framework Messages

structure ThreadListRow where
  chatId : Int
  chatKind : GroupKind
  threadRootId : Int
  replyCount : Nat
  lastReplyAt : Int
  subscribedAt : Int
  archived : Bool
  lastReadMessageId : Option Int
  deriving DecidableEq, Repr

/-- `ORDER BY COALESCE(last_reply_at, subscribed_at) DESC`. How rows of one time are ordered is
left to the database, and may differ from one statement to the next. -/
structure ReplyOrder where
  sort : Option Int → List ThreadListRow → List ThreadListRow
  perm : ∀ before rows, (sort before rows).Perm rows
  sorted : ∀ before rows, (sort before rows).Pairwise fun a b => b.lastReplyAt ≤ a.lastReplyAt

/-- What the joins and the filters besides the cursor leave of one subscription. -/
def threadRow (db : Database) (uid : Int) (archived : Bool) (key : Int ×ₗ Int) :
    Option ThreadListRow :=
  let (chatId, threadRootId) := ofLex key
  match db.threadUserStates.row (chatId, threadRootId, uid), db.groups.row chatId,
      db.messages.row threadRootId with
  | some ts, some g, some root =>
      let tm := db.threadMeta.row (chatId, threadRootId)
      if ts.archived = archived ∧ ts.subscribed = true ∧ root.replyRootId = none ∧
          root.hasThread = true ∧ root.isPublished = true then
        some
          { chatId := chatId
            chatKind := g.kind
            threadRootId := threadRootId
            replyCount := tm.elim 0 ThreadMeta.replyCount
            lastReplyAt := (tm.bind ThreadMeta.lastReplyAt).getD ts.subscribedAt
            subscribedAt := ts.subscribedAt
            archived := ts.archived
            lastReadMessageId := ts.lastReadMessageId }
      else none
  | _, _, _ => none

/-- The subscribed threads of a user that qualify. -/
def userThreads (db : Database) (uid : Int) (archived : Bool) : List ThreadListRow :=
  (ascending ((db.threadUserStates.select fun key _ => decide (key.2.2 = uid)).image
    fun key => toLex (key.1, key.2.1))).filterMap (threadRow db uid archived)

def getUserThreads (db : Database) (order : ReplyOrder) (uid : Int) (limit : Nat)
    (beforeCursor : Option Int) (archived : Bool) (rootId : Option Int) : List ThreadListRow :=
  (order.sort beforeCursor ((userThreads db uid archived).filter fun row =>
    rootId.all (fun id => decide (row.threadRootId = id)) &&
      beforeCursor.all fun cursor => decide (row.lastReplyAt < cursor))).take limit

/-- `get_threads` asks for one row more than it shows, and continues at the last one shown. -/
def threadPage (db : Database) (order : ReplyOrder) (uid : Int) (archived : Bool) (limit : ℕ+)
    (before : Option Int) : Chunk ThreadListRow Int :=
  let rows := getUserThreads db order uid (limit + 1) before archived none
  let hasMore := decide ((limit : Nat) < rows.length)
  let shown := rows.take limit
  { rows := shown
    next := if hasMore then shown.getLast?.map ThreadListRow.lastReplyAt else none }

/-- The pages list every thread once. -/
def Complete (db : Database) (order : ReplyOrder) (uid : Int) (archived : Bool) (limit : ℕ+) :
    Prop :=
  ∃ pages, Walk (threadPage db order uid archived limit) none pages ∧
    (pages.flatMap Chunk.rows).Perm (userThreads db uid archived)

/-- The times the threads are ordered by. -/
def replyTimes (db : Database) (uid : Int) (archived : Bool) : List Int :=
  orderDesc id ((userThreads db uid archived).map ThreadListRow.lastReplyAt)

/-- What is listed below a cursor. -/
def threadsBefore (db : Database) (order : ReplyOrder) (uid : Int) (archived : Bool)
    (before : Option Int) : List ThreadListRow :=
  order.sort before ((userThreads db uid archived).filter fun row =>
    before.all fun cursor => decide (row.lastReplyAt < cursor))

variable {db : Database} {order : ReplyOrder} {uid : Int} {archived : Bool} {limit : ℕ+}

theorem threadPage_eq (before : Option Int) :
    threadPage db order uid archived limit before =
      chunk ThreadListRow.lastReplyAt limit (threadsBefore db order uid archived before) := by
  rw [← chunk_take (rfl : (limit : Nat) + 1 = limit + 1)]
  simp [threadPage, chunk, getUserThreads, threadsBefore]

theorem threadsBefore_narrows :
    Narrows ThreadListRow.lastReplyAt (threadsBefore db order uid archived) where
  sorted c := order.sorted c _
  below c x hx := by
    have hbelow : c.all (fun cursor => decide (x.lastReplyAt < cursor)) = true :=
      (List.mem_filter.mp ((order.perm c _).mem_iff.mp hx)).2
    calc threadsBefore db order uid archived (some x.lastReplyAt)
        = order.sort (some x.lastReplyAt) ((userThreads db uid archived).filter fun row =>
            decide (row.lastReplyAt < x.lastReplyAt)) := rfl
      List.Perm _ ((userThreads db uid archived).filter fun row =>
          decide (row.lastReplyAt < x.lastReplyAt)) := order.perm _ _
      List.Perm _ (((userThreads db uid archived).filter fun row =>
          c.all fun cursor => decide (row.lastReplyAt < cursor)).filter fun row =>
            decide (row.lastReplyAt < x.lastReplyAt)) := by
        rw [List.filter_filter]
        refine .of_eq (List.filter_congr fun a _ => ?_)
        cases c with
        | none => simp
        | some cursor =>
          have hc : x.lastReplyAt < cursor := by simpa using hbelow
          by_cases ha : a.lastReplyAt < x.lastReplyAt
          · simp [ha, ha.trans hc]
          · simp [ha]
      List.Perm _ _ := ((order.perm c _).filter _).symm

/-- However the database orders equal times, the keys of the list are the times in order. -/
theorem threadsBefore_times :
    (threadsBefore db order uid archived none).map ThreadListRow.lastReplyAt =
      replyTimes db uid archived := by
  have hperm : (threadsBefore db order uid archived none).Perm (userThreads db uid archived) := by
    simpa [threadsBefore] using order.perm none (userThreads db uid archived)
  refine ((hperm.map _).trans (orderDesc_perm id _).symm).eq_of_pairwise
    (fun a b _ _ (hab : b ≤ a) hba => le_antisymm hba hab) ?_ ?_
  · exact List.pairwise_map.mpr (order.sorted none _)
  · exact orderDesc_sorted id _

theorem complete_iff : Complete db order uid archived limit ↔
    ApartAt limit (replyTimes db uid archived) := by
  have hperm : (threadsBefore db order uid archived none).Perm (userThreads db uid archived) := by
    simpa [threadsBefore] using order.perm none (userThreads db uid archived)
  obtain ⟨pages, hw, -, hiff⟩ := walk_of_narrows limit.pos
    (@threadPage_eq db order uid archived limit)
    threadsBefore_narrows none
  rw [threadsBefore_times] at hiff
  rw [← hiff]
  constructor
  · intro h
    obtain ⟨others, hothers, hrows⟩ := h
    obtain rfl := hw.unique hothers
    exact hrows.trans hperm.symm
  · intro h
    exact ⟨pages, hw, h.trans hperm⟩

/-- Thread pages are complete and free of duplicates exactly when no page ends between two threads
of one time: the rest of such a tie is not below the cursor and is never listed. -/
theorem threads_listed_once_iff (db : Database) (order : ReplyOrder) (uid : Int)
    (archived : Bool) (limit : ℕ+) :
    Complete db order uid archived limit ↔ ApartAt limit (replyTimes db uid archived) :=
  complete_iff

/-- A database that keeps tied rows as they come. -/
def timeOrder : ReplyOrder where
  sort _ := orderDesc ThreadListRow.lastReplyAt
  perm _ := orderDesc_perm _
  sorted _ := orderDesc_sorted _

def threadRoot : Message where
  message := some "root"
  messageType := .text
  replyToId := none
  replyRootId := none
  senderUid := 7
  chatId := 1
  createdAt := 300
  deletedAt := none
  hasThread := true
  isPublished := true
  transcodeStatus := .none
  systemKind := none

/-- Two threads of a chat whose latest replies are of one time. -/
def tiedThreads : Database where
  messages := .ofList [(10, threadRoot), (20, threadRoot)]
  attachments := .empty
  messageMentions := .empty
  threadMeta := .ofList [((1, 10), ⟨1, some 500⟩), ((1, 20), ⟨1, some 500⟩)]
  threadUserStates := .ofList
    [((1, 10, 7), ⟨none, 400, true, false⟩), ((1, 20, 7), ⟨none, 450, true, false⟩)]
  groupMembership := .ofList [((1, 7), ⟨.member, none⟩)]
  groups := .ofList [(1, ⟨.group, .members, some 20, some 300⟩)]
  pinnedMessages := .empty

/-- One thread a page: after the first thread the second is behind no cursor. -/
theorem tied_thread_lost :
    ¬ ∀ (db : Database) (order : ReplyOrder) (uid : Int) (archived : Bool) (limit : ℕ+),
      Complete db order uid archived limit := by
  intro h
  have htimes : replyTimes tiedThreads 7 false = [500, 500] := by
    have hmap : (userThreads tiedThreads 7 false).map ThreadListRow.lastReplyAt = [500, 500] := by
      decide
    rw [replyTimes, hmap]
    exact List.mergeSort_of_pairwise (by simp)
  have happ := complete_iff.mp (h tiedThreads timeOrder 7 false 1)
  rw [htimes] at happ
  exact happ 0 500 500 rfl rfl rfl

end Chahua.Lists

import Chahua.ReadStates.Responses

namespace Chahua.ReadStates

open Framework

/-- The calls that answer with a read state. -/
inductive Request where
  | markAsRead (chatId messageId : Int)
  | markAsUnread (chatId : Int) (explicitId : Option Int)
  | markThreadRead (threadRootId messageId : Int)
  | markThreadReadInChat (chatId threadRootId messageId : Int)

namespace Database

variable {db : Database}

def respond (db : Database) (now uid : Int) :
    Request → Except AppError (Database × ReadStateResponse)
  | .markAsRead chatId messageId => db.markAsRead uid chatId messageId
  | .markAsUnread chatId explicitId => db.markAsUnread uid chatId explicitId
  | .markThreadRead threadRootId messageId => db.markThreadRead now uid threadRootId messageId
  | .markThreadReadInChat chatId threadRootId messageId =>
    db.markThreadReadInChat now uid chatId threadRootId messageId

/-- The read that the scope of the call has of its own. -/
def fresh (db : Database) (uid : Int) : Request → Except AppError ReadStateResponse
  | .markAsRead chatId _ | .markAsUnread chatId _ => db.getChatUnreadCount uid chatId
  | .markThreadRead threadRootId _ | .markThreadReadInChat _ threadRootId _ =>
    db.getThreadReadState uid threadRootId

/-- The user has no pointer in the thread, no live reply to count and no mention there. -/
def Untouched (db : Database) (uid threadRootId : Int) : Prop :=
  ∀ root, db.messages.row threadRootId = some root →
    db.getThreadLastReadMessageId root.chatId threadRootId uid = none ∧
    ((∀ chatId, db.threadUserStates.row (chatId, threadRootId, uid) = none) ∨
      db.repliesAfter threadRootId none = ∅) ∧
    ∀ messageId mention, db.mentions.row (messageId, uid) = some mention → 0 < messageId →
      mention.chatId = root.chatId → mention.threadRootId ≠ some threadRootId

/-- A read of a thread whose target is the root itself is of an untouched thread. -/
def Counted (db : Database) (uid : Int) : Request → Prop
  | .markThreadRead threadRootId messageId | .markThreadReadInChat _ threadRootId messageId =>
    messageId = threadRootId → db.Untouched uid threadRootId
  | _ => True

theorem checkMembership_ok {chatId uid : Int} {u : Unit}
    (h : db.checkMembership chatId uid = .ok u) :
    ∃ gm, db.groupMembership.row (chatId, uid) = some gm := by
  unfold checkMembership at h
  split at h
  · exact Option.isSome_iff_exists.mp ‹_›
  · cases h

theorem updateMembership_row {chatId uid : Int} {gm : Membership} (f : Membership → Membership)
    (h : db.groupMembership.row (chatId, uid) = some gm) :
    (db.updateMembership chatId uid f).groupMembership.row (chatId, uid) = some (f gm) := by
  rw [updateMembership, Table.updateWhere_row_some h]
  simp

/-- An update of read pointers leaves the role, so the filter stays. -/
theorem updateMembership_filter {chatId uid : Int} {f : Membership → Membership}
    (hf : ∀ gm, (f gm).role = gm.role) :
    (db.updateMembership chatId uid f).loadMembershipMessageFilter uid chatId =
      db.loadMembershipMessageFilter uid chatId := by
  unfold loadMembershipMessageFilter updateMembership
  simp only [Table.updateWhere_row]
  cases db.groupMembership.row (chatId, uid) with
  | none => rfl
  | some gm => simp [hf]

theorem countChatUnread_eq {uid chatId : Int} {last : Option Int} {n : Nat} :
    db.countChatUnread uid chatId last = .ok n ↔
      ∃ hide, db.loadMembershipMessageFilter uid chatId = .ok hide ∧
        n = db.countCursor hide chatId (unreadCursor last) := by
  unfold countChatUnread
  cases db.loadMembershipMessageFilter uid chatId <;> simp [Except.map, eq_comm]

/-- The fresh read of a member's chat, from the pointer the row holds. -/
theorem getChatUnreadCount_of_row {uid chatId : Int} {gm : Membership} {n : Nat}
    (hrow : db.groupMembership.row (chatId, uid) = some gm)
    (hcount : db.countChatUnread uid chatId gm.lastReadMessageId = .ok n) :
    db.getChatUnreadCount uid chatId = .ok {
      lastReadMessageId := gm.lastReadMessageId
      unreadCount := n
      unreadMentions := db.countChatUnreadMentions uid chatId gm.lastReadMessageId none
      unreadReactions := db.countChatUnreadReactions uid chatId none } := by
  have hmember : db.checkMembership chatId uid = .ok () := by simp [checkMembership, hrow]
  have hlast : db.getChatLastReadMessageId chatId uid = .ok gm.lastReadMessageId := by
    simp [getChatLastReadMessageId, hrow]
  simp [getChatUnreadCount, hmember, hlast, hcount, bind, Except.bind, pure, Except.pure]

/-- The answer of a read is what the fresh read computes from the state it leaves. -/
theorem markAsRead_fresh {uid chatId messageId : Int} {after : Database}
    {response : ReadStateResponse} (h : db.markAsRead uid chatId messageId = .ok (after, response)) :
    after.getChatUnreadCount uid chatId = .ok response := by
  simp only [markAsRead, bind_eq_ok] at h
  obtain ⟨-, -, -, -, hide, -, last, hlast, n, hcount, hend⟩ := h
  obtain ⟨rfl, rfl⟩ := Prod.mk.inj (Except.ok.inj hend)
  unfold getChatLastReadMessageId at hlast
  split at hlast
  · cases hlast
  · next gm hrow =>
    cases hlast
    exact getChatUnreadCount_of_row hrow hcount

/-- Past the second largest element of a set there is only the largest. -/
theorem filter_lt_max_erase {s : Finset Int} {last second : Int} (hlast : s.max = last)
    (hsecond : (s.erase last).max = second) : s.filter (second < ·) = {last} := by
  ext id
  rw [Finset.mem_filter, Finset.mem_singleton]
  constructor
  · intro h
    by_contra hne
    have hle := Finset.le_max_of_eq (Finset.mem_erase.mpr ⟨hne, h.1⟩) hsecond
    omega
  · intro h
    have hmem := Finset.mem_of_max hlast
    obtain ⟨hne, hsecondMem⟩ := Finset.mem_erase.mp (Finset.mem_of_max hsecond)
    have hle := Finset.le_max_of_eq hsecondMem hlast
    subst h
    exact ⟨hmem, by omega⟩

theorem select_countsUnread (hide : Bool) (chatId cursor : Int) :
    db.messages.select (countsUnread hide chatId cursor) =
      (db.publicMessages hide chatId).filter (cursor < ·) := by
  ext id
  rw [publicMessages, Finset.mem_filter, Table.mem_select, Table.mem_select]
  simp only [countsUnread, Bool.and_eq_true, Bool.or_eq_true, decide_eq_true_eq]
  grind

theorem publicMessages_pos {hide : Bool} {chatId id : Int} (h : id ∈ db.publicMessages hide chatId) :
    0 < id :=
  db.positive id (Finset.mem_filter.mp h).1

/-- The shortcut of `mark_as_unread` is the count from the pointer it writes. -/
theorem lastTwo_count (hide : Bool) (chatId : Int) :
    db.countCursor hide chatId (unreadCursor (db.lastTwo hide chatId)[1]?) =
      if (db.lastTwo hide chatId)[1]?.isSome then 1 else (db.lastTwo hide chatId).length := by
  have hfrom : (db.publicMessages hide chatId).filter (unreadCursor none < ·) =
      db.publicMessages hide chatId := by
    refine Finset.filter_true_of_mem fun id hid => ?_
    have hpos := publicMessages_pos hid
    simp only [unreadCursor, Option.getD_none]
    omega
  unfold countCursor lastTwo
  rw [select_countsUnread]
  split
  · next hmax =>
    have hempty := Finset.max_eq_bot.mp hmax
    simp [hempty]
  · next last hlast =>
    split
    · next hmax =>
      have hone : db.publicMessages hide chatId = {last} := by
        have hempty := Finset.max_eq_bot.mp hmax
        rw [← Finset.insert_erase (Finset.mem_of_max hlast), hempty]
        rfl
      simp only [List.getElem?_cons_succ, List.getElem?_nil, hfrom]
      simp [hone, MAX_UNREAD_COUNT]
    · next second hsecond =>
      have hone := filter_lt_max_erase hlast hsecond
      simp [unreadCursor, hone, MAX_UNREAD_COUNT]

theorem markAsUnread_fresh {uid chatId : Int} {explicitId : Option Int} {after : Database}
    {response : ReadStateResponse}
    (h : db.markAsUnread uid chatId explicitId = .ok (after, response)) :
    after.getChatUnreadCount uid chatId = .ok response := by
  cases explicitId with
  | some messageId =>
    simp only [markAsUnread, bind_eq_ok] at h
    obtain ⟨u, hmember, n, hcount, written, hwritten, hend⟩ := h
    cases hwritten
    obtain ⟨gm, hgm⟩ := checkMembership_ok hmember
    obtain ⟨rfl, rfl⟩ := Prod.mk.inj (Except.ok.inj hend)
    exact getChatUnreadCount_of_row (updateMembership_row _ hgm) hcount
  | none =>
    simp only [markAsUnread, bind_eq_ok] at h
    obtain ⟨u, hmember, hide, hhide, written, hwritten, hend⟩ := h
    cases hwritten
    obtain ⟨gm, hgm⟩ := checkMembership_ok hmember
    obtain ⟨rfl, rfl⟩ := Prod.mk.inj (Except.ok.inj hend)
    have hfilter := (updateMembership_filter (f := fun gm : Membership =>
      { gm with lastReadMessageId := (db.lastTwo hide chatId)[1]? }) fun _ => rfl).trans hhide
    refine getChatUnreadCount_of_row (updateMembership_row _ hgm) ?_
    refine countChatUnread_eq.mpr ⟨hide, hfilter, ?_⟩
    exact (lastTwo_count hide chatId).symm

theorem getThreadUnreadCount_eq_zero {threadRootId uid : Int} {last : Option Int} :
    db.getThreadUnreadCount threadRootId uid last = 0 ↔
      (∀ chatId, db.threadUserStates.row (chatId, threadRootId, uid) = none) ∨
        db.repliesAfter threadRootId last = ∅ := by
  have hstates : (db.threadUserStates.select fun key _ =>
      decide (key.2.1 = threadRootId) && decide (key.2.2 = uid)) = ∅ ↔
      ∀ chatId, db.threadUserStates.row (chatId, threadRootId, uid) = none := by
    simp only [Finset.eq_empty_iff_forall_notMem, Table.mem_select, not_exists, not_and,
      Option.eq_none_iff_forall_ne_some]
    constructor
    · intro h chatId state hrow
      simpa using h (chatId, threadRootId, uid) state hrow
    · intro h key state hrow hkey
      simp only [Bool.and_eq_true, decide_eq_true_eq] at hkey
      obtain ⟨rfl, rfl⟩ := hkey
      exact h key.1 state hrow
  rw [← hstates, getThreadUnreadCount, ← Finset.card_eq_zero, ← Finset.card_eq_zero,
    ← Nat.mul_eq_zero]
  simp only [MAX_UNREAD_COUNT]
  omega

theorem countChatUnreadMentions_eq_zero {uid chatId : Int} {last threadRootId : Option Int} :
    db.countChatUnreadMentions uid chatId last threadRootId = 0 ↔
      ∀ messageId mention, db.mentions.row (messageId, uid) = some mention →
        last.getD 0 < messageId → mention.chatId = chatId → mention.threadRootId ≠ threadRootId := by
  have hnone : ∀ n : Nat, min n MAX_UNREAD_COUNT = 0 ↔ n = 0 := by
    intro n
    simp only [MAX_UNREAD_COUNT]
    omega
  rw [countChatUnreadMentions, hnone, Finset.card_eq_zero]
  simp only [Finset.eq_empty_iff_forall_notMem, Table.mem_select, not_exists, not_and,
    Bool.and_eq_true, decide_eq_true_eq]
  constructor
  · intro h messageId mention hrow hlast hchat hroot
    exact h (messageId, uid) mention hrow ⟨⟨rfl, hchat⟩, hroot⟩ hlast
  · intro h key mention hrow hscope hlast
    obtain ⟨⟨rfl, hchat⟩, hroot⟩ := hscope
    exact h key.1 mention hrow hlast hchat hroot

/-- A thread read writes the user's state of the thread and nothing else. -/
theorem getThreadReadState_of_reply {now chatId threadRootId uid messageId : Int}
    {root : Message} (hroot : db.messages.row threadRootId = some root)
    (hchat : root.chatId = chatId) (hmember : db.checkMembership chatId uid = .ok ()) :
    let after := ((db.ensureThreadUserState now chatId threadRootId uid false).markThreadAsRead
      chatId threadRootId uid messageId).advanceThreadReadReceipt chatId threadRootId uid messageId
    after.getThreadReadState uid threadRootId =
      .ok (after.loadThreadReadState chatId threadRootId uid) := by
  intro after
  have hmessages : after.messages = db.messages := by
    simp only [after, advanceThreadReadReceipt, markThreadAsRead, updateThreadState,
      ensureThreadUserState]
    split <;> rfl
  have hmembership : after.groupMembership = db.groupMembership := by
    simp only [after, advanceThreadReadReceipt, markThreadAsRead, updateThreadState,
      ensureThreadUserState]
    split <;> rfl
  have hresolve : after.resolveChatIdForThread threadRootId = .ok chatId := by
    simp [resolveChatIdForThread, hmessages, hroot, hchat]
  have hcheck : after.checkMembership chatId uid = .ok () := by
    rw [checkMembership, hmembership, ← checkMembership, hmember]
  simp [getThreadReadState, hresolve, hcheck, bind, Except.bind, pure, Except.pure]

theorem getThreadReadState_of_root {chatId threadRootId uid : Int} {root : Message}
    (hroot : db.messages.row threadRootId = some root) (hchat : root.chatId = chatId)
    (hmember : db.checkMembership chatId uid = .ok ()) :
    db.getThreadReadState uid threadRootId = .ok (db.loadThreadReadState chatId threadRootId uid) := by
  have hresolve : db.resolveChatIdForThread threadRootId = .ok chatId := by
    simp [resolveChatIdForThread, hroot, hchat]
  simp [getThreadReadState, hresolve, hmember, bind, Except.bind, pure, Except.pure]

/-- The zeros of the root target are right of an untouched thread only. -/
theorem loadThreadReadState_zero {chatId threadRootId uid : Int} {root : Message}
    (hroot : db.messages.row threadRootId = some root) (hchat : root.chatId = chatId) :
    db.loadThreadReadState chatId threadRootId uid = {
      lastReadMessageId := none
      unreadCount := 0
      unreadMentions := 0
      unreadReactions := db.countChatUnreadReactions uid chatId (some threadRootId) } ↔
      db.Untouched uid threadRootId := by
  subst hchat
  rw [loadThreadReadState, ReadStateResponse.mk.injEq]
  constructor
  · intro h other hother
    obtain ⟨hlast, hunread, hmentions, -⟩ := h
    cases hroot.symm.trans hother
    rw [hlast] at hunread hmentions
    exact ⟨hlast, getThreadUnreadCount_eq_zero.mp hunread,
      countChatUnreadMentions_eq_zero.mp hmentions⟩
  · intro h
    obtain ⟨hlast, hunread, hmentions⟩ := h root hroot
    rw [hlast]
    exact ⟨rfl, getThreadUnreadCount_eq_zero.mpr hunread,
      countChatUnreadMentions_eq_zero.mpr hmentions, rfl⟩

theorem applyThreadRead_fresh {now chatId threadRootId uid messageId : Int} {root : Message}
    {after : Database} {response : ReadStateResponse}
    (hroot : db.messages.row threadRootId = some root) (hchat : root.chatId = chatId)
    (hmember : db.checkMembership chatId uid = .ok ())
    (h : db.applyThreadRead now chatId threadRootId uid messageId = .ok (after, response)) :
    after.getThreadReadState uid threadRootId = .ok response ↔
      (messageId = threadRootId → db.Untouched uid threadRootId) := by
  unfold applyThreadRead at h
  split at h
  · next htarget =>
    obtain ⟨-, -, hend⟩ := bind_eq_ok.mp h
    obtain ⟨rfl, rfl⟩ := Prod.mk.inj (Except.ok.inj hend)
    rw [getThreadReadState_of_root hroot hchat hmember, Except.ok.injEq,
      loadThreadReadState_zero hroot hchat]
    exact ⟨fun h _ => h, fun h => h htarget⟩
  · next htarget =>
    obtain ⟨-, -, hend⟩ := bind_eq_ok.mp h
    obtain ⟨rfl, rfl⟩ := Prod.mk.inj (Except.ok.inj hend)
    rw [getThreadReadState_of_reply hroot hchat hmember]
    exact ⟨fun _ hsame => absurd hsame htarget, fun _ => rfl⟩

/-- A chat read, an unread mark and a thread read up to a reply answer with the fresh read; a
thread read up to the root does so for an untouched thread only. -/
theorem response_is_fresh_read (db : Database) (now uid : Int) (request : Request)
    (after : Database) (response : ReadStateResponse)
    (h : db.respond now uid request = .ok (after, response)) :
    after.fresh uid request = .ok response ↔ db.Counted uid request := by
  cases request with
  | markAsRead chatId messageId => exact iff_of_true (markAsRead_fresh h) trivial
  | markAsUnread chatId explicitId => exact iff_of_true (markAsUnread_fresh h) trivial
  | markThreadRead threadRootId messageId =>
    obtain ⟨chatId, hresolve, h⟩ := bind_eq_ok.mp h
    obtain ⟨u, hmember, h⟩ := bind_eq_ok.mp h
    unfold resolveChatIdForThread at hresolve
    split at hresolve
    · cases hresolve
    · next root hroot => exact applyThreadRead_fresh hroot (Except.ok.inj hresolve) hmember h
  | markThreadReadInChat chatId threadRootId messageId =>
    obtain ⟨u, hauthorize, h⟩ := bind_eq_ok.mp h
    obtain ⟨v, hmember, hthread⟩ := bind_eq_ok.mp hauthorize
    split at hthread
    · next hany =>
      obtain ⟨root, hroot, hchat⟩ := (Option.any_eq_true _ _).mp hany
      simp only [Bool.and_eq_true, decide_eq_true_eq] at hchat
      exact applyThreadRead_fresh hroot hchat.1 hmember h
    · cases hthread

end Database

def plain (chatId : Int) (replyRootId : Option Int) : Message where
  message := some "hi"
  messageType := .text
  replyToId := none
  replyRootId := replyRootId
  senderUid := 8
  chatId := chatId
  createdAt := 0
  deletedAt := none
  hasThread := false
  isPublished := true
  transcodeStatus := .none
  systemKind := none

/-- A chat of user 7 with one thread: root 1 and reply 2. -/
def oneThread (state : Table (Int × Int × Int) ThreadUserState) : Database where
  messages := .ofList [(1, plain 10 none), (2, plain 10 (some 1))]
  mentions := .empty
  reactions := .empty
  groups := .ofList [(10, ⟨.group, .members⟩)]
  groupMembership := .ofList [((10, 7), ⟨.member, none, none, false, none, none, 0⟩)]
  threadUserStates := state
  userExtra := .empty
  positive := by decide

theorem response_is_fresh_read_reply :
    ∃ after response, (oneThread .empty).respond 0 7 (.markThreadRead 1 2) = .ok (after, response) ∧
      after.fresh 7 (.markThreadRead 1 2) = .ok response := by
  refine ⟨_, _, rfl, ?_⟩
  apply (Database.response_is_fresh_read (oneThread .empty) 0 7 (.markThreadRead 1 2) _ _ rfl).mpr
  intro hroot
  cases hroot

/-- The user of `oneThread` subscribes and has read nothing. -/
def subscribedThread : Database := oneThread (.ofList [((10, 1, 7), ⟨none, none, false, true, 0⟩)])

/-- A subscriber who reads the root is told of no unread reply. -/
theorem root_read_forgets_reply :
    ∃ response response', (subscribedThread.respond 0 7 (.markThreadRead 1 1)) =
        .ok (subscribedThread, response) ∧
      subscribedThread.fresh 7 (.markThreadRead 1 1) = .ok response' ∧
      response.unreadCount = 0 ∧ response'.unreadCount = 1 := by
  refine ⟨_, _, rfl, rfl, ?_⟩
  decide

end Chahua.ReadStates

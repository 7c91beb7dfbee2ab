import Chahua.Unread.Revisions

namespace Chahua.Unread

open Framework

def MAX_UNREAD_COUNT : Nat := 1000

structure ChatUnreadCursor where
  hideMembershipMessages : Bool
  chatId : Int
  lastReadMessageId : Int
  deriving DecidableEq, Repr

/-- The messages a cursor has not read: later main messages of its chat. -/
def unreadIds (messages : Table Int Message) (c : ChatUnreadCursor) : Finset Int :=
  messages.select fun id m =>
    decide (m.chatId = c.chatId) && decide (c.lastReadMessageId < id) && m.isLive &&
      m.isTopLevel && (!c.hideMembershipMessages || m.nonMembership)

/-- The `WHERE` clause of the counting statement; `predicate` is `TRUE` or the
non-membership filter. -/
def countPredicate (predicate : Message → Bool) (chatId lastReadMessageId : Int)
    (id : Int) (m : Message) : Bool :=
  decide (m.chatId = chatId) && decide (id > lastReadMessageId) && m.deletedAt.isNone &&
    m.isPublished && m.replyRootId.isNone && (m.deletedAt.isNone || m.hasThread) && predicate m

/-- `SELECT COUNT(*) FROM (SELECT 1 … LIMIT $3)` for one requested cursor. -/
def unreadCount (messages : Table Int Message) (c : ChatUnreadCursor) : Nat :=
  let predicate := if c.hideMembershipMessages then Message.nonMembership else fun _ => true
  min MAX_UNREAD_COUNT
    (messages.select (countPredicate predicate c.chatId c.lastReadMessageId)).card

theorem unreadCount_eq (messages : Table Int Message) (c : ChatUnreadCursor) :
    unreadCount messages c = min 1000 (unreadIds messages c).card := by
  have hsel : messages.select (countPredicate
      (if c.hideMembershipMessages then Message.nonMembership else fun _ => true)
      c.chatId c.lastReadMessageId) = unreadIds messages c := by
    apply Table.select_congr
    intro id
    cases messages.row id with
    | none => rfl
    | some m =>
      cases hd : m.deletedAt <;> cases hh : c.hideMembershipMessages <;>
        simp [countPredicate, Message.isLive, Message.isTopLevel, hd, Bool.and_assoc]
  simp [unreadCount, hsel, MAX_UNREAD_COUNT]

/-- A message counts for a cursor exactly when what the trigger guards says so. -/
theorem unread_eq_counted (c : ChatUnreadCursor) (id : Int) (row : Option Message) :
    (row.any fun m => decide (m.chatId = c.chatId) && decide (c.lastReadMessageId < id) &&
      m.isLive && m.isTopLevel && (!c.hideMembershipMessages || m.nonMembership)) =
    (counted c.chatId row).any fun kind => decide (c.lastReadMessageId < id) &&
      (!c.hideMembershipMessages || !kind.any SystemMessageKind.isMembership) := by
  cases row with
  | none => rfl
  | some m =>
    simp only [counted, Option.bind_some, Option.any_some]
    split
    · next h =>
      simp only [eligible, Bool.and_eq_true, decide_eq_true_eq] at h
      obtain ⟨⟨⟨htop, hpub⟩, hdel⟩, hc⟩ := h
      simp [Message.isLive, Message.nonMembership, htop, hpub, hdel, hc]
    · next h =>
      rw [Option.any_none, Bool.eq_false_iff]
      intro hall
      apply h
      simp only [Message.isLive, Bool.and_eq_true] at hall
      obtain ⟨⟨⟨⟨hc, -⟩, hdel, hpub⟩, htop⟩, -⟩ := hall
      simp only [eligible, htop, hpub, hdel, hc, Bool.and_self]

/-- Two contents that agree on what the trigger guards have the same unread messages. -/
theorem unreadIds_congr {a b : Table Int Message} {c : ChatUnreadCursor}
    (h : ∀ id, counted c.chatId (a.row id) = counted c.chatId (b.row id)) :
    unreadIds a c = unreadIds b c := by
  apply Table.select_congr
  intro id
  rw [unread_eq_counted, unread_eq_counted, h id]

theorem unreadCount_congr {a b : Table Int Message} {c : ChatUnreadCursor}
    (h : ∀ id, counted c.chatId (a.row id) = counted c.chatId (b.row id)) :
    unreadCount a c = unreadCount b c := by
  rw [unreadCount_eq, unreadCount_eq, unreadIds_congr h]

end Chahua.Unread

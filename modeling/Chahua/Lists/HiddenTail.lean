import Chahua.Framework.Run
import Chahua.Messages.ReadPointers
import Chahua.Unread.Counts
import Chahua.Lists.MessageWindow

namespace Chahua.Lists

open Framework Messages

/-- The message tables with the users' settings. -/
structure Inbox where
  db : Database
  showMembershipMessages : Table Int Bool

inductive InboxEvent where
  | markChatAsRead (chatId uid messageId : Int)
  | saveChatSettings (uid : Int) (showMembershipMessages : Bool)
  | changePolicy (chatId : Int) (visibility : MembershipMessageVisibility)
  | changeRole (chatId uid : Int) (role : GroupRole)
  | changeMessages (messages : Table Int Message)

namespace Inbox

/-- `load_membership_message_filter`; without the group the read fails. -/
def loadMembershipMessageFilter (s : Inbox) (uid chatId : Int) : Option Bool :=
  (s.db.groups.row chatId).map fun g =>
    let canView := decide (g.kind = .dm) || allows g.membershipMessageVisibility
      ((s.db.groupMembership.row (chatId, uid)).map Membership.role)
    hidesMembershipMessages ((s.showMembershipMessages.row uid).getD true && canView) g.kind none

def markChatAsRead (s : Inbox) (chatId uid messageId : Int) : Option Inbox :=
  (s.loadMembershipMessageFilter uid chatId).map fun hidden =>
    { s with db := s.db.markChatAsRead hidden chatId uid messageId }

/-- A read that fails changes nothing. -/
def step (s : Inbox) : InboxEvent → Option Inbox
  | .markChatAsRead chatId uid messageId =>
      some ((s.markChatAsRead chatId uid messageId).getD s)
  | .saveChatSettings uid show' =>
      some { s with showMembershipMessages := s.showMembershipMessages.upsert uid show' }
  | .changePolicy chatId visibility =>
      some { s with db := { s.db with
        groups := s.db.groups.updateWhere (fun id _ => decide (id = chatId)) fun _ g =>
          { g with membershipMessageVisibility := visibility } } }
  | .changeRole chatId uid role =>
      some { s with db := { s.db with
        groupMembership := s.db.groupMembership.updateWhere
          (fun key _ => decide (key = (chatId, uid))) fun _ gm => { gm with role := role } } }
  | .changeMessages messages => some { s with db := { s.db with messages := messages } }

end Inbox

/-- A read pointer that moves up to a message. -/
def advanced (pointer : Option Int) (messageId : Int) : Int :=
  pointer.elim messageId fun last => max last messageId

/-- A row of the chat's window. -/
def InWindow (db : Database) (chatId id : Int) : Prop :=
  ∃ m, db.messages.row id = some m ∧ inChatWindow chatId m = true

/-- A row of the window besides membership messages. -/
def ShownInWindow (db : Database) (chatId id : Int) : Prop :=
  ∃ m, db.messages.row id = some m ∧ inChatWindow chatId m = true ∧ m.nonMembership = true

section skipHiddenMembershipTail

variable {db : Database} {chatId messageId : Int}

theorem next_shown_iff {id : Int} :
    id ∈ db.messages.select (fun id m =>
      decide (messageId < id) && inChatWindow chatId m && m.nonMembership) ↔
      messageId < id ∧ ShownInWindow db chatId id := by
  simp only [Table.mem_select, ShownInWindow, Bool.and_eq_true, decide_eq_true_eq]
  constructor
  · intro h
    obtain ⟨m, hm, ⟨hlt, hw⟩, hn⟩ := h
    exact ⟨hlt, m, hm, hw, hn⟩
  · intro h
    obtain ⟨hlt, m, hm, hw, hn⟩ := h
    exact ⟨m, hm, ⟨hlt, hw⟩, hn⟩

/-- The boundary is the message, or the last row of the window before some bound below which no
shown message follows; every row of the window before the bound is up to it. -/
theorem skipHiddenMembershipTail_spec (db : Database) (chatId messageId : Int) :
    ∃ bound, (∀ v, messageId < v → ShownInWindow db chatId v → bound ≤ v) ∧
      (messageId < bound ∧ ShownInWindow db chatId bound ∨ bound = 9223372036854775807 ∧
        ∀ v, messageId < v → ¬ShownInWindow db chatId v) ∧
      messageId ≤ db.skipHiddenMembershipTail chatId messageId ∧
      (db.skipHiddenMembershipTail chatId messageId = messageId ∨
        db.skipHiddenMembershipTail chatId messageId < bound) ∧
      ∀ id, InWindow db chatId id → id < bound →
        id ≤ db.skipHiddenMembershipTail chatId messageId := by
  let next := db.messages.oldest fun id m =>
    decide (messageId < id) && inChatWindow chatId m && m.nonMembership
  let below := db.messages.newest fun id m => decide (messageId < id) &&
    decide (id < next.getD 9223372036854775807) && inChatWindow chatId m
  have htail : db.skipHiddenMembershipTail chatId messageId = below.getD messageId := rfl
  have hbelow : ∀ id, messageId < id → id < next.getD 9223372036854775807 →
      InWindow db chatId id → id ∈ db.messages.select fun id m => decide (messageId < id) &&
        decide (id < next.getD 9223372036854775807) && inChatWindow chatId m := by
    intro id hlt hb hw
    obtain ⟨m, hm, hin⟩ := hw
    exact Table.mem_select.mpr ⟨m, hm, by simp [hlt, hb, hin]⟩
  refine ⟨next.getD 9223372036854775807, ?_, ?_, ?_⟩
  · intro v hlt hv
    cases hn : next with
    | none =>
      have hempty := Finset.min_eq_top.mp hn
      exact absurd (next_shown_iff.mpr ⟨hlt, hv⟩) (by rw [hempty]; simp)
    | some n => exact Finset.min_le_of_eq (next_shown_iff.mpr ⟨hlt, hv⟩) hn
  · cases hn : next with
    | none =>
      refine .inr ⟨rfl, fun v hlt hv => ?_⟩
      have hempty := Finset.min_eq_top.mp hn
      exact absurd (next_shown_iff.mpr ⟨hlt, hv⟩) (by rw [hempty]; simp)
    | some n => exact .inl (next_shown_iff.mp (Finset.mem_of_min hn))
  · rw [htail]
    cases hb : below with
    | none =>
      refine ⟨le_rfl, .inl rfl, fun id hw hid => ?_⟩
      by_contra hlt
      have hempty := Table.newest_eq_none.mp hb
      exact absurd (hbelow id (not_le.mp hlt) hid hw) (by rw [hempty]; simp)
    | some last =>
      obtain ⟨hmem, hmax⟩ := Table.newest_eq_some.mp hb
      obtain ⟨m, -, hp⟩ := Table.mem_select.mp hmem
      simp only [Bool.and_eq_true, decide_eq_true_eq] at hp
      refine ⟨hp.1.1.le, .inr hp.1.2, fun id hw hid => ?_⟩
      by_cases hlt : messageId < id
      · exact hmax id (hbelow id hlt hid hw)
      · exact (not_lt.mp hlt).trans hp.1.1.le

/-- No shown message is swallowed. -/
theorem not_shown_of_le_tail {v : Int} (hlt : messageId < v)
    (hle : v ≤ db.skipHiddenMembershipTail chatId messageId) : ¬ShownInWindow db chatId v := by
  intro hv
  obtain ⟨bound, hbound, -, -, htail, -⟩ := skipHiddenMembershipTail_spec db chatId messageId
  have h := hbound v hlt hv
  obtain heq | hlt' := htail <;> omega

/-- Every row before the first shown message is skipped; where none follows, every row whose id
is below the largest one. -/
theorem le_tail {id : Int} (hid : InWindow db chatId id)
    (hfirst : ∀ v, messageId < v → ShownInWindow db chatId v → id < v)
    (hlast : (∃ v, messageId < v ∧ ShownInWindow db chatId v) ∨ id < 9223372036854775807) :
    id ≤ db.skipHiddenMembershipTail chatId messageId := by
  obtain ⟨bound, -, hbound, -, -, htail⟩ := skipHiddenMembershipTail_spec db chatId messageId
  refine htail id hid ?_
  obtain hb | ⟨rfl, hnone⟩ := hbound
  · exact hfirst bound hb.1 hb.2
  · obtain ⟨v, hlt, hv⟩ | hlt := hlast
    · exact absurd hv (hnone v hlt)
    · exact hlt

/-- The messages that are unread behind the tail are those unread behind the message. -/
theorem unreadIds_tail (pointer : Option Int) :
    Unread.unreadIds db.messages
        ⟨true, chatId, advanced pointer (db.skipHiddenMembershipTail chatId messageId)⟩ =
      Unread.unreadIds db.messages ⟨true, chatId, advanced pointer messageId⟩ := by
  have hle : messageId ≤ db.skipHiddenMembershipTail chatId messageId :=
    (skipHiddenMembershipTail_spec db chatId messageId).choose_spec.2.2.1
  have hadvanced : ∀ r id : Int, advanced pointer r < id ↔
      (∀ last, pointer = some last → last < id) ∧ r < id := by
    intro r id
    cases pointer <;> simp [advanced]
  unfold Unread.unreadIds
  refine Table.select_congr fun id => ?_
  cases hrow : db.messages.row id with
  | none => rfl
  | some m =>
    rw [Bool.eq_iff_iff]
    simp only [Option.any_some, Bool.and_eq_true, decide_eq_true_eq, hadvanced, Bool.not_true,
      Bool.false_or]
    constructor
    · intro h
      obtain ⟨⟨⟨⟨hc, hlast, hlt⟩, hlive⟩, htop⟩, hn⟩ := h
      exact ⟨⟨⟨⟨hc, hlast, lt_of_le_of_lt hle hlt⟩, hlive⟩, htop⟩, hn⟩
    · intro h
      obtain ⟨⟨⟨⟨hc, hlast, hlt⟩, hlive⟩, htop⟩, hn⟩ := h
      refine ⟨⟨⟨⟨hc, hlast, ?_⟩, hlive⟩, htop⟩, hn⟩
      by_contra hge
      refine not_shown_of_le_tail hlt (not_lt.mp hge) ⟨m, hrow, ?_, hn⟩
      simp only [Message.isLive, Bool.and_eq_true] at hlive
      simp [inChatWindow, hc, htop, hlive.1, hlive.2]

end skipHiddenMembershipTail

namespace Inbox

variable {s : Inbox} {chatId uid messageId : Int}

/-- The pointer of a member in a chat. -/
def pointer (s : Inbox) (chatId uid : Int) : Option Int := s.db.chatPointer (chatId, uid)

theorem pointer_markChatAsRead {gm : Membership} {hidden : Bool}
    (hgm : s.db.groupMembership.row (chatId, uid) = some gm) :
    (s.db.markChatAsRead hidden chatId uid messageId).chatPointer (chatId, uid) =
      some (advanced gm.lastReadMessageId (s.db.readBoundary hidden chatId messageId)) := by
  simp only [Database.chatPointer, Database.markChatAsRead, Table.updateWhere_row, hgm,
    Option.map_some, Option.bind_some, decide_true, Bool.true_and]
  cases hlast : gm.lastReadMessageId with
  | none => simp [advances, advanced]
  | some last =>
    by_cases hlt : last < s.db.readBoundary hidden chatId messageId
    · simp [advances, advanced, hlt, max_eq_right hlt.le]
    · simp [advances, advanced, hlt, hlast, max_eq_left (not_lt.mp hlt)]

theorem le_advanced {pointer : Option Int} {p : Int} (hp : pointer = some p) (id : Int) :
    p ≤ advanced pointer id := by
  subst hp
  exact le_max_left _ _

/-- Reading moves no pointer back, whoever reads and however much is hidden. -/
theorem pointer_step {t : Inbox} {e : InboxEvent} (h : s.step e = some t) {p : Int}
    (hp : s.pointer chatId uid = some p) : ∃ p', t.pointer chatId uid = some p' ∧ p ≤ p' := by
  cases e with
  | markChatAsRead c u m =>
    obtain rfl := Option.some.inj h
    cases hread : s.markChatAsRead c u m with
    | none => exact ⟨p, hp, le_rfl⟩
    | some t =>
      obtain ⟨hidden, -, rfl⟩ := Option.map_eq_some_iff.mp hread
      obtain ⟨gm, hgm, hlast⟩ := Option.bind_eq_some_iff.mp hp
      by_cases hkey : (chatId, uid) = (c, u)
      · obtain ⟨rfl, rfl⟩ := Prod.mk.inj hkey
        exact ⟨_, pointer_markChatAsRead hgm, le_advanced hlast _⟩
      · refine ⟨p, ?_, le_rfl⟩
        simp only [pointer, Database.chatPointer, Option.getD_some, Database.markChatAsRead,
          Table.updateWhere_row, hgm, hkey, decide_false, Bool.false_and, Option.map_some]
        exact hlast
  | saveChatSettings u show' =>
    obtain rfl := Option.some.inj h
    exact ⟨p, hp, le_rfl⟩
  | changePolicy c visibility =>
    obtain rfl := Option.some.inj h
    exact ⟨p, hp, le_rfl⟩
  | changeRole c u role =>
    obtain rfl := Option.some.inj h
    refine ⟨p, ?_, le_rfl⟩
    obtain ⟨gm, hgm, hlast⟩ := Option.bind_eq_some_iff.mp hp
    simp only [pointer, Database.chatPointer, Table.updateWhere_row, hgm, Option.map_some,
      Option.bind_some]
    split <;> exact hlast
  | changeMessages messages =>
    obtain rfl := Option.some.inj h
    exact ⟨p, hp, le_rfl⟩

theorem pointer_run {t : Inbox} {es : List InboxEvent} (h : run step s es = some t) {p : Int}
    (hp : s.pointer chatId uid = some p) : ∃ p', t.pointer chatId uid = some p' ∧ p ≤ p' := by
  refine run_invariant (I := fun t => ∃ p', t.pointer chatId uid = some p' ∧ p ≤ p') ?_
    ⟨p, hp, le_rfl⟩ h
  intro s e t hs he
  obtain ⟨q, hq, hpq⟩ := hs
  obtain ⟨q', hq', hle⟩ := pointer_step he hq
  exact ⟨q', hq', hpq.trans hle⟩

/-- Reading past hidden membership messages stores the later of the old pointer and the end of
the hidden run, which passes no shown message and every row before the next one; nothing unread
is lost by it. And over any reads, settings and policies in between no pointer moves back. -/
theorem hidden_tail_keeps_shown {gm : Membership}
    (hgm : s.db.groupMembership.row (chatId, uid) = some gm)
    (hhide : s.loadMembershipMessageFilter uid chatId = some true) (messageId : Int) :
    (∃ t, s.markChatAsRead chatId uid messageId = some t ∧ t.pointer chatId uid =
      some (advanced gm.lastReadMessageId (s.db.skipHiddenMembershipTail chatId messageId))) ∧
    messageId ≤ s.db.skipHiddenMembershipTail chatId messageId ∧
    (∀ v, messageId < v → v ≤ s.db.skipHiddenMembershipTail chatId messageId →
      ¬ShownInWindow s.db chatId v) ∧
    (∀ id, InWindow s.db chatId id →
      (∀ v, messageId < v → ShownInWindow s.db chatId v → id < v) →
        ((∃ v, messageId < v ∧ ShownInWindow s.db chatId v) ∨ id < 9223372036854775807) →
          id ≤ s.db.skipHiddenMembershipTail chatId messageId) ∧
    Unread.unreadCount s.db.messages ⟨true, chatId,
        advanced gm.lastReadMessageId (s.db.skipHiddenMembershipTail chatId messageId)⟩ =
      Unread.unreadCount s.db.messages
        ⟨true, chatId, advanced gm.lastReadMessageId messageId⟩ ∧
    ∀ (first last : Inbox) (es : List InboxEvent), run step first es = some last →
      ∀ c u p, first.pointer c u = some p → ∃ p', last.pointer c u = some p' ∧ p ≤ p' := by
  refine ⟨⟨{ s with db := s.db.markChatAsRead true chatId uid messageId },
    by rw [markChatAsRead, hhide]; rfl, pointer_markChatAsRead hgm⟩, ?_, ?_, ?_, ?_, ?_⟩
  · exact (skipHiddenMembershipTail_spec s.db chatId messageId).choose_spec.2.2.1
  · intro v hlt hle
    exact not_shown_of_le_tail hlt hle
  · intro id hid hfirst hlast
    exact le_tail hid hfirst hlast
  · rw [Unread.unreadCount_eq, Unread.unreadCount_eq, unreadIds_tail]
  · intro first last es h c u p hp
    exact pointer_run h hp

/-- A member joined after the message that is read; the user hides membership messages. -/
def joinedInbox : Inbox where
  db :=
    { messages := .ofList [(10, ListTables.chatMessage 100),
        (11, { ListTables.chatMessage 110 with
          messageType := .system
          systemKind := some .memberJoined }),
        (12, ListTables.chatMessage 120)]
      attachments := .empty
      messageMentions := .empty
      threadMeta := .empty
      threadUserStates := .empty
      groupMembership := .ofList [((1, 7), ⟨.member, some 9⟩)]
      groups := .ofList [(1, ⟨.group, .members, some 12, some 120⟩)]
      pinnedMessages := .empty }
  showMembershipMessages := .ofList [(7, false)]

theorem hidden_tail_keeps_shown_joined :
    10 ≤ joinedInbox.db.skipHiddenMembershipTail 1 10 ∧
      ∃ t, joinedInbox.markChatAsRead 1 7 10 = some t ∧ t.pointer 1 7 =
        some (advanced (some 9) (joinedInbox.db.skipHiddenMembershipTail 1 10)) := by
  have h := @hidden_tail_keeps_shown joinedInbox 1 7 ⟨.member, some 9⟩ (by decide) (by decide) 10
  exact ⟨h.2.1, h.1⟩

example : joinedInbox.db.skipHiddenMembershipTail 1 10 = 11 := by decide +kernel

end Inbox

end Chahua.Lists

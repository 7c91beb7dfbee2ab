import Chahua.Unread.Subscription
import Chahua.Framework.Delta

namespace Chahua.Unread

open Framework

structure ConversationUnreadSummary where
  key : String
  unreadMessageCount : Int
  unreadUnmutedMessageCount : Int
  unreadConversationCount : Int
  unreadUnmutedConversationCount : Int
  unreadAttentionCount : Int
  unreadUnmutedAttentionCount : Int
  deriving DecidableEq, Repr

/-- `views` are the keys of the watched views, unique by `validate_conversation_views`. -/
structure UnreadWatch where
  requestId : Nat
  generation : Nat
  views : List String
  appBadge : Bool
  unique : views.Nodup

/-- `expiry` is the time left until the first mute ends. -/
structure UnreadSnapshot where
  summaries : List ConversationUnreadSummary
  badge : Option Int
  expiry : Option Nat

structure ConversationUnreadPayload where
  requestId : Nat
  full : Bool
  summaries : List ConversationUnreadSummary
  appBadgeCount : Option Int

/-- `conversation_summaries_and_badge` has one summary for each view, and a badge when asked. -/
def UnreadWatch.answeredBy (watch : UnreadWatch) (snapshot : UnreadSnapshot) : Prop :=
  snapshot.summaries.map ConversationUnreadSummary.key = watch.views ∧
    snapshot.badge.isSome = watch.appBadge

structure Published where
  full : Bool
  summaries : Table String ConversationUnreadSummary
  appBadgeCount : Option Int

namespace Published

def default : Published := ⟨false, .empty, none⟩

def update (published : Published) (requestId : Nat) (snapshot : UnreadSnapshot) :
    Published × Option ConversationUnreadPayload :=
  let full := !published.full
  let changed := Delta.changes ConversationUnreadSummary.key full published.summaries
    snapshot.summaries
  let badgeChanged := full || decide (snapshot.badge ≠ published.appBadgeCount)
  (⟨true, Delta.index ConversationUnreadSummary.key snapshot.summaries, snapshot.badge⟩,
    if full || !changed.isEmpty || badgeChanged then
      some ⟨requestId, full, changed, if badgeChanged then snapshot.badge else none⟩
    else none)

end Published

/-- `unread::watch::run_with`. -/
def unreadPublisher : Publisher UnreadWatch UnreadSnapshot ConversationUnreadPayload Published where
  requestId watch := watch.requestId
  generation watch := watch.generation
  fresh := .default
  update := Published.update
  settle := id
  fail published := { published with full := false }
  expiry snapshot := snapshot.expiry

structure UnreadView where
  summaries : Table String ConversationUnreadSummary
  badge : Option Int

def UnreadSnapshot.content (snapshot : UnreadSnapshot) : UnreadView :=
  ⟨Delta.index ConversationUnreadSummary.key snapshot.summaries, snapshot.badge⟩

def unreadClient : Client ConversationUnreadPayload UnreadView where
  requestId payload := payload.requestId
  full payload := payload.full
  empty := ⟨.empty, none⟩
  apply payload view :=
    ⟨Delta.apply ConversationUnreadSummary.key payload.full view.summaries payload.summaries,
      if payload.full then payload.appBadgeCount else payload.appBadgeCount.or view.badge⟩

theorem unread_faithful : Faithful unreadPublisher unreadClient UnreadWatch.answeredBy
    UnreadSnapshot.content (fun published => published.full = false)
    (fun published snapshot => published.full = true ∧
      published.summaries = Delta.index ConversationUnreadSummary.key snapshot.summaries ∧
      published.appBadgeCount = snapshot.badge) where
  fresh := rfl
  fail _ := rfl
  first published watch id new hpending _ := by
    refine ⟨⟨rfl, rfl, rfl⟩, ?_⟩
    simp only [unreadPublisher, Published.update, hpending, Bool.not_false, Bool.true_or, if_true]
    refine ⟨_, rfl, rfl, rfl, fun view => ?_⟩
    simp only [unreadClient, Delta.apply_full, if_true, UnreadSnapshot.content]
  next published watch id old new htracks hold hnew := by
    obtain ⟨hfull, hsummaries, hbadge⟩ := htracks
    refine ⟨⟨rfl, rfl, rfl⟩, ?_⟩
    have hkeys : (old.summaries.map ConversationUnreadSummary.key).Nodup := hold.1 ▸ watch.unique
    have hsame := hnew.1.trans hold.1.symm
    simp only [unreadPublisher, Published.update, hfull, Bool.not_true, Bool.false_or, hsummaries,
      hbadge]
    split
    · refine Or.inr ⟨_, rfl, rfl, ?_⟩
      simp only [unreadClient, UnreadSnapshot.content, Delta.apply_changes hkeys hsame,
        Bool.false_eq_true, if_false]
      congr 1
      by_cases hb : new.badge = old.badge
      · simp [hb]
      · simp only [hb, ne_eq, not_false_eq_true, decide_true, if_true]
        have hsome : new.badge.isSome = old.badge.isSome := hnew.2.trans hold.2.symm
        cases hn : new.badge with
        | some badge => rfl
        | none =>
          rw [hn] at hsome hb
          have hnone : old.badge = none := by simpa using hsome.symm
          exact absurd hnone.symm hb
    · next hquiet =>
      left
      simp only [Bool.or_eq_true, not_or, Bool.not_eq_true, Bool.not_eq_false', List.isEmpty_iff,
        decide_eq_false_iff_not, not_not] at hquiet
      refine ⟨rfl, ?_⟩
      simp only [UnreadSnapshot.content, Delta.index_eq_of_changes_nil hkeys hsame hquiet.1,
        hquiet.2]

structure ConversationRef where
  chatId : Int
  threadId : Option Int
  deriving DecidableEq, Repr

structure ConversationState where
  conversation : ConversationRef
  accessible : Bool
  lastReadMessageId : Option Int
  unreadCount : Int
  unreadMentions : Int
  unreadReactions : Int
  deriving DecidableEq, Repr

/-- The watched conversations are unique by `valid_scopes`. -/
structure StateWatch where
  requestId : Nat
  generation : Nat
  conversations : List ConversationRef
  unique : conversations.Nodup

structure ConversationStatesPayload where
  requestId : Nat
  full : Bool
  states : List ConversationState

/-- `load_states` has one state for each conversation. -/
def StateWatch.answeredBy (watch : StateWatch) (rows : List ConversationState) : Prop :=
  rows.map ConversationState.conversation = watch.conversations

/-- The locals `previous` and `full`. -/
structure PublishedStates where
  previous : Table ConversationRef ConversationState
  full : Bool

def PublishedStates.update (published : PublishedStates) (requestId : Nat)
    (rows : List ConversationState) : PublishedStates × Option ConversationStatesPayload :=
  let states := Delta.changes ConversationState.conversation published.full published.previous rows
  ({ published with previous := Delta.index ConversationState.conversation rows },
    if published.full || !states.isEmpty then some ⟨requestId, published.full, states⟩ else none)

/-- `unread::states::run_with`, where `full` is cleared after the publication. -/
def statesPublisher :
    Publisher StateWatch (List ConversationState) ConversationStatesPayload PublishedStates where
  requestId watch := watch.requestId
  generation watch := watch.generation
  fresh := ⟨.empty, true⟩
  update := PublishedStates.update
  settle published := { published with full := false }
  fail published := { published with full := true }
  expiry _ := none

def statesClient :
    Client ConversationStatesPayload (Table ConversationRef ConversationState) where
  requestId payload := payload.requestId
  full payload := payload.full
  empty := .empty
  apply payload view :=
    Delta.apply ConversationState.conversation payload.full view payload.states

theorem states_faithful : Faithful statesPublisher statesClient StateWatch.answeredBy
    (Delta.index ConversationState.conversation) (fun published => published.full = true)
    (fun published rows => published.full = false ∧
      published.previous = Delta.index ConversationState.conversation rows) where
  fresh := rfl
  fail _ := rfl
  first published watch id new hpending _ := by
    refine ⟨⟨rfl, rfl⟩, ?_⟩
    simp only [statesPublisher, PublishedStates.update, hpending, Bool.true_or, if_true]
    exact ⟨_, rfl, rfl, rfl, fun view => Delta.apply_full _ _ _⟩
  next published watch id old new htracks hold hnew := by
    obtain ⟨hfull, hprevious⟩ := htracks
    refine ⟨⟨rfl, rfl⟩, ?_⟩
    have hkeys : (old.map ConversationState.conversation).Nodup := hold ▸ watch.unique
    have hsame := hnew.trans hold.symm
    simp only [statesPublisher, PublishedStates.update, hfull, Bool.false_or, hprevious]
    split
    · exact Or.inr ⟨_, rfl, rfl, Delta.apply_changes hkeys hsame⟩
    · next hquiet =>
      refine Or.inl ⟨rfl, Delta.index_eq_of_changes_nil hkeys hsame ?_⟩
      simpa using hquiet

/-- Both watch loops: whatever the loads, the dirty signals and the replacements, a client that
folds the payloads holds the last load of the current subscription, the first load after an
error is published in full, and nothing is published for a replaced subscription. -/
theorem watches_reconstruct_snapshots :
    (∀ es s, run (Watcher.step unreadPublisher) (Watcher.init unreadPublisher) es = some s →
      Along (Watcher.step unreadPublisher) (Watcher.Answers UnreadWatch.answeredBy)
        (Watcher.init unreadPublisher) es →
      Reconstructs unreadPublisher unreadClient UnreadSnapshot.content s) ∧
    ∀ es s, run (Watcher.step statesPublisher) (Watcher.init statesPublisher) es = some s →
      Along (Watcher.step statesPublisher) (Watcher.Answers StateWatch.answeredBy)
        (Watcher.init statesPublisher) es →
      Reconstructs statesPublisher statesClient (Delta.index ConversationState.conversation) s :=
  ⟨fun _ _ => Watcher.run_reconstructs unread_faithful,
    fun _ _ => Watcher.run_reconstructs states_faithful⟩

set_option maxRecDepth 4096 in
/-- An error between two equal snapshots, and a replacement while a load is in flight. -/
theorem watches_reconstruct_snapshots_after_error :
    let watch : UnreadWatch := ⟨1, 1, ["friends"], true, by decide⟩
    let snapshot : UnreadSnapshot := ⟨[⟨"friends", 8, 8, 1, 1, 0, 0⟩], some 7, none⟩
    let scope : ConversationRef := ⟨5, none⟩
    let rows (count : Int) : List ConversationState := [⟨scope, true, none, count, 0, 0⟩]
    let stateWatch : StateWatch := ⟨1, 1, [scope], by decide⟩
    let failing : List (LoopEvent UnreadWatch UnreadSnapshot) :=
      [.replace (some watch), .changed, .due, .loaded (some snapshot), .sent true, .notify,
        .dirty, .tick 150, .due, .loaded none, .sent true, .tick 1000, .due,
        .loaded (some snapshot), .sent true]
    let replaced : List (LoopEvent StateWatch (List ConversationState)) :=
      [.replace (some stateWatch), .changed, .due, .loaded (some (rows 1)), .sent true, .notify,
        .dirty, .tick 150, .due, .replace (some stateWatch), .loaded (some (rows 2)), .changed,
        .due, .loaded (some (rows 3)), .sent true]
    (∃ s, run (Watcher.step unreadPublisher) (Watcher.init unreadPublisher) failing = some s ∧
      s.output.length = 3 ∧ Reconstructs unreadPublisher unreadClient UnreadSnapshot.content s) ∧
    ∃ s, run (Watcher.step statesPublisher) (Watcher.init statesPublisher) replaced = some s ∧
      s.output.length = 2 ∧
      Reconstructs statesPublisher statesClient (Delta.index ConversationState.conversation) s := by
  intro watch snapshot scope rows stateWatch failing replaced
  have hload : ∀ w ∈ some watch, w.answeredBy snapshot := by
    rintro _ ⟨⟩
    exact ⟨rfl, rfl⟩
  have hrows : ∀ count, ∀ w ∈ some stateWatch, w.answeredBy (rows count) := by
    rintro count _ ⟨⟩
    rfl
  constructor
  · have h : run (Watcher.step unreadPublisher) (Watcher.init unreadPublisher) failing =
        some _ := rfl
    refine ⟨_, h, rfl, watches_reconstruct_snapshots.1 _ _ h ?_⟩
    exact .cons rfl trivial <| .cons rfl trivial <| .cons rfl trivial <| .cons rfl hload <|
      .cons rfl trivial <| .cons rfl trivial <| .cons rfl trivial <| .cons rfl trivial <|
      .cons rfl trivial <| .cons rfl trivial <| .cons rfl trivial <| .cons rfl trivial <|
      .cons rfl trivial <| .cons rfl hload <| .cons rfl trivial trivial
  · have h : run (Watcher.step statesPublisher) (Watcher.init statesPublisher) replaced =
        some _ := rfl
    refine ⟨_, h, rfl, watches_reconstruct_snapshots.2 _ _ h ?_⟩
    exact .cons rfl trivial <| .cons rfl trivial <| .cons rfl trivial <| .cons rfl (hrows 1) <|
      .cons rfl trivial <| .cons rfl trivial <| .cons rfl trivial <| .cons rfl trivial <|
      .cons rfl trivial <| .cons rfl trivial <| .cons rfl (hrows 2) <| .cons rfl trivial <|
      .cons rfl trivial <| .cons rfl (hrows 3) <| .cons rfl trivial trivial

end Chahua.Unread

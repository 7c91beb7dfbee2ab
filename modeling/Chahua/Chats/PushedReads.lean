import Chahua.Chats.ThreadReads

namespace Chahua.Chats

open Framework

theorem ChatReads.run_current {s t : ChatReads} {es : List ChatReads.Event} (hs : s.Fresh)
    (ht : run ChatReads.step s es = some t) (hok : Along ChatReads.step ChatReads.Reconciled s es) :
    t.Current :=
  run_invariant_along (fun _ _ _ h hok ht => h.step hok ht) hs.current hok ht

theorem ThreadReads.run_current {s t : ThreadReads} {es : List ThreadReads.Event} (hs : s.Fresh)
    (ht : run ThreadReads.step s es = some t)
    (hok : Along ThreadReads.step ThreadReads.Reconciled s es) : t.Current :=
  run_invariant_along (fun _ _ _ h hok ht => h.step hok ht) hs.current hok ht

/-- The watch is ready, nothing of it is on its way, and the cache has the published state. -/
def StateWatch.Shows (w : StateWatch ConversationState) (entry : Option ReadEntry) : Prop :=
  w.ready → w.inFlight = [] →
    ∃ published, w.published = some published ∧ entry.map (·.state) = some published.state

theorem StateWatch.Sound.shows {w : StateWatch ConversationState} {entry : Option ReadEntry}
    (h : w.Sound) (hsaid : w.Said fun last => last.map (·.state) = entry.map (·.state)) :
    w.Shows entry := by
  intro hr hq
  obtain ⟨hlast, hpublished⟩ := h.current hr hq
  refine ⟨w.server, hpublished, ?_⟩
  rw [← hsaid hr hq, hlast]
  rfl

/-- In a run whose operations are reconciled, the cached read state of a chat or a thread with no
operation pending is what the server has published last. -/
theorem pushed_state_kept (chat chat' : ChatReads) (chatEvents : List ChatReads.Event)
    (thread thread' : ThreadReads) (threadEvents : List ThreadReads.Event) :
    (chat.Fresh → run ChatReads.step chat chatEvents = some chat' →
      Along ChatReads.step ChatReads.Reconciled chat chatEvents →
      chat'.busy = false → chat'.watch.Shows chat'.entry) ∧
    (thread.Fresh → run ThreadReads.step thread threadEvents = some thread' →
      Along ThreadReads.step ThreadReads.Reconciled thread threadEvents →
      thread'.busy = false → thread'.watch.Shows thread'.entry) := by
  constructor
  · intro hs ht hok hfree
    have h := ChatReads.run_current hs ht hok
    exact h.watch.shows (h.heard hfree)
  · intro hs ht hok hfree
    have h := ThreadReads.run_current hs ht hok
    exact h.watch.shows (h.heard hfree)

/-- A watch before its first request. -/
def StateWatch.initial (server : ConversationState) : StateWatch ConversationState where
  connected := false
  inScopes := true
  requestId := 0
  fullRequestId := 0
  selected := false
  server := server
  published := none
  requests := []
  watching := none
  pushes := []
  last := none

def ChatReads.initial (server : ConversationState) : ChatReads where
  watch := .initial server
  version := 0
  entry := none
  accessible := true
  accessVersion := 0
  operationVersion := 0
  refresh := none
  read := none
  rewind := none
  scheduled := false
  destroyed := false

def ThreadReads.initial (server : ConversationState) : ThreadReads where
  rootId := 1
  watch := .initial server
  version := 0
  entry := none
  accessible := true
  chatAccessible := true
  accessVersion := 0
  refresh := none
  read := none
  destroyed := false

theorem ChatReads.fresh_initial (server : ConversationState) : (initial server).Fresh :=
  ⟨⟨rfl, rfl, rfl, rfl, rfl⟩, rfl⟩

theorem ThreadReads.fresh_initial (server : ConversationState) : (initial server).Fresh :=
  ⟨⟨rfl, rfl, rfl, rfl, rfl⟩, rfl⟩

/-- Read up to a message, with a count of unread ones. -/
def readUpTo (messageId unreadCount : Nat) : ConversationState :=
  ⟨true, some messageId, unreadCount, 0, 0⟩

/-- A push dropped behind a read comes back with the watch that the read renews. -/
theorem pushed_state_kept_renewed :
    (∃ t, run ChatReads.step (.initial (readUpTo 5 1))
        [.watch .connect, .watch .serve, .receive, .markRead 7, .watch (.change (readUpTo 5 2)),
          .receive, .wakeRead, .serveRead (readUpTo 7 0), .answerRead, .receive, .watch .serve,
          .receive] = some t ∧ t.entry.map (·.state) = some (readUpTo 7 0).state) ∧
    ∃ t, run ThreadReads.step (.initial (readUpTo 5 1))
        [.watch .connect, .watch .serve, .receive, .markThreadRead 7,
          .watch (.change (readUpTo 5 2)), .receive, .wakeRead, .serveRead (readUpTo 7 0),
          .answerRead, .receive, .watch .serve, .receive] = some t ∧
      t.entry.map (·.state) = some (readUpTo 7 0).state := by
  have h := fun chat' thread' => pushed_state_kept (.initial (readUpTo 5 1)) chat'
    [.watch .connect, .watch .serve, .receive, .markRead 7, .watch (.change (readUpTo 5 2)),
      .receive, .wakeRead, .serveRead (readUpTo 7 0), .answerRead, .receive, .watch .serve,
      .receive]
    (.initial (readUpTo 5 1)) thread'
    [.watch .connect, .watch .serve, .receive, .markThreadRead 7,
      .watch (.change (readUpTo 5 2)), .receive, .wakeRead, .serveRead (readUpTo 7 0),
      .answerRead, .receive, .watch .serve, .receive]
  constructor
  · have hchat := (h _ (.initial (readUpTo 5 1))).1 (ChatReads.fresh_initial _) rfl
      (.cons rfl trivial <| .cons rfl trivial <| .cons rfl trivial <| .cons rfl trivial <|
        .cons rfl trivial <| .cons rfl trivial <| .cons rfl (by rintro ⟨⟩) <|
        .cons rfl trivial <| .cons rfl (by rintro _ _ ⟨⟩ ⟨⟩) <| .cons rfl trivial <|
        .cons rfl trivial <| .cons rfl trivial trivial) rfl
    obtain ⟨published, ⟨⟩, hentry⟩ := hchat (by decide) rfl
    exact ⟨_, rfl, hentry⟩
  · have hthread := (h (.initial (readUpTo 5 1)) _).2 (ThreadReads.fresh_initial _) rfl
      (.cons rfl trivial <| .cons rfl trivial <| .cons rfl trivial <| .cons rfl trivial <|
        .cons rfl trivial <| .cons rfl trivial <| .cons rfl (by rintro ⟨⟩) <|
        .cons rfl trivial <| .cons rfl (by rintro _ _ ⟨⟩ ⟨⟩) <| .cons rfl trivial <|
        .cons rfl trivial <| .cons rfl trivial trivial) rfl
    obtain ⟨published, ⟨⟩, hentry⟩ := hthread (by decide) rfl
    exact ⟨_, rfl, hentry⟩

/-- A push dropped behind a read that fails is lost: the watch stays ready with the old count. -/
theorem failed_read_loses_push :
    (∃ t, run ChatReads.step (.initial (readUpTo 5 1))
        [.watch .connect, .watch .serve, .receive, .markRead 7, .watch (.change (readUpTo 5 2)),
          .receive, .wakeRead, .failRead] = some t ∧
      t.busy = false ∧ t.watch.ready ∧ t.watch.inFlight = [] ∧
      t.watch.published = some (readUpTo 5 2) ∧
      t.entry.map (·.state) = some (readUpTo 5 1).state) ∧
    ∃ t, run ThreadReads.step (.initial (readUpTo 5 1))
        [.watch .connect, .watch .serve, .receive, .markThreadRead 7,
          .watch (.change (readUpTo 5 2)), .receive, .wakeRead, .failRead] = some t ∧
      t.busy = false ∧ t.watch.ready ∧ t.watch.inFlight = [] ∧
      t.watch.published = some (readUpTo 5 2) ∧
      t.entry.map (·.state) = some (readUpTo 5 1).state :=
  ⟨⟨_, rfl, rfl, by decide, rfl, rfl, rfl⟩, ⟨_, rfl, rfl, by decide, rfl, rfl, rfl⟩⟩

end Chahua.Chats

import Chahua.Chats.ChatWrites
import Chahua.Chats.Subscriptions

namespace Chahua.Chats

open Framework Framework.Layers

theorem ChatCell.run_tracked {s t : ChatCell} {es : List ChatCell.ChatEvent} (hs : s.Settled)
    (ht : run ChatCell.step s es = some t) (hok : Along ChatCell.step ChatCell.Traceless s es) :
    ChatCell.Tracked s.settled t :=
  run_invariant_along (fun _ _ _ h hok ht => h.step hok ht) hs.tracked hok ht

theorem ThreadCell.run_tracked {s t : ThreadCell} {es : List ThreadCell.ThreadEvent}
    (hs : s.Settled) (ht : run ThreadCell.step s es = some t)
    (hok : Along ThreadCell.step ThreadCell.Traceless s es) :
    ThreadCell.Tracked s.settled t :=
  run_invariant_along (fun _ _ _ h hok ht => h.step hok ht) hs.tracked hok ht

theorem ChatCell.Tracked.read_value {S : ChatValues} {s t : ChatCell} {j : Nat}
    {answer : ChatState} (h : ChatCell.Tracked S s) (hok : s.Traceless (.finishRead j answer))
    (ht : s.step (.finishRead j answer) = some t) : t.value = s.value := by
  obtain ⟨r, hr, ht⟩ := Option.bind_eq_some_iff.mp ht
  split at ht
  · obtain rfl := Option.some.inj ht
    exact finishRead_value h hr ‹_› hok
  · simp at ht

/-- After any overlapping writes whose steps are traceless, every field of a chat and of a
thread has what the last-started successful write left there, and no read changes it. -/
theorem overlapping_writes_settle (chat chat' : ChatCell) (chatEvents : List ChatCell.ChatEvent)
    (thread thread' : ThreadCell) (threadEvents : List ThreadCell.ThreadEvent) :
    (chat.Settled → run ChatCell.step chat chatEvents = some chat' →
      Along ChatCell.step ChatCell.Traceless chat chatEvents →
      (chat'.Quiet → ∀ k, chat'.value k = Layers.shown ChangeCall.left chat.value chat'.calls k) ∧
      ∀ j answer u, chat'.Traceless (.finishRead j answer) →
        chat'.step (.finishRead j answer) = some u → u.value = chat'.value) ∧
    (thread.Settled → run ThreadCell.step thread threadEvents = some thread' →
      Along ThreadCell.step ThreadCell.Traceless thread threadEvents →
      (thread'.Quiet → thread'.entry.status =
        some (Layers.shown UpdateCall.left thread.settled thread'.calls)) ∧
      ∀ j answer u, thread'.Traceless (.finishRead j answer) →
        thread'.step (.finishRead j answer) = some u →
        u.entry.status = thread'.entry.status) := by
  constructor
  · intro hs ht hok
    have h := ChatCell.run_tracked hs ht hok
    exact ⟨fun hq => hs.value ▸ h.quiet hq, fun j answer u => h.read_value⟩
  · intro hs ht hok
    have h := ThreadCell.run_tracked hs ht hok
    exact ⟨h.quiet, fun j answer u hread hu => (h.finishRead hread hu).2⟩

/-- A chat with known values. -/
def ChatCell.ofValues (values : ChatValues) : ChatCell where
  settled := values
  version := 1
  value := values
  stateVersion := 1
  stateVersions _ := 1
  pendingStateWrites _ := none
  calls := []
  reads := []

theorem ChatCell.settled_ofValues (values : ChatValues) : (ofValues values).Settled :=
  ⟨rfl, rfl, fun _ => rfl, rfl, fun _ => Nat.le_refl 1⟩

/-- A thread with a known status. -/
def ThreadCell.ofStatus (status : ThreadSubscriptionStatus) : ThreadCell where
  settled := status
  subscriptionVersion := 1
  entry := ⟨some status, false, 1⟩
  calls := []
  reads := []

theorem ThreadCell.settled_ofStatus (status : ThreadSubscriptionStatus) :
    (ofStatus status).Settled := ⟨rfl, rfl, rfl, Nat.le_refl 1⟩

/-- An unarchived chat, unmuted. -/
def openChat : ChatValues
  | .archived => some false
  | .mutedUntil => (none : Option String)
  | .muteOverride => (none : Option Bool)

def archive (archived : Bool) : ChatState
  | .archived => some (some archived)
  | _ => none

def mute (time : String) : ChatState
  | .mutedUntil => some (some time)
  | _ => none

def subscribedThread : ThreadSubscriptionStatus
  | .subscribed => true
  | .archived => false

def setThreadArchived (archived : Bool) : StatusChange
  | .archived => some archived
  | .subscribed => none

def unsubscribeThread : StatusChange
  | .subscribed => some false
  | .archived => none

/-- A chat archived while it fails to be muted, and a thread unsubscribed after its archiving has
failed; a read of the chat comes back late. -/
theorem overlapping_writes_settle_late_read :
    (∃ t, run ChatCell.step (.ofValues openChat)
        [.start (archive true), .start (mute "2026-05-01"), .startRead, .fail 1, .succeed 0 none,
          .finishRead 0 (archive false)] = some t ∧
      ∀ k, t.value k = (archive true k).getD (openChat k)) ∧
    ∃ t, run ThreadCell.step (.ofStatus subscribedThread)
        [.start (setThreadArchived true), .fail 0,
          .start unsubscribeThread, .succeed 1] = some t ∧
      t.entry.status = some fun _ => false := by
  have h := fun chat' thread' => overlapping_writes_settle (.ofValues openChat) chat'
    [.start (archive true), .start (mute "2026-05-01"), .startRead, .fail 1, .succeed 0 none,
      .finishRead 0 (archive false)]
    (.ofStatus subscribedThread) thread'
    [.start (setThreadArchived true), .fail 0, .start unsubscribeThread, .succeed 1]
  refine ⟨⟨_, rfl, ?_⟩, ⟨_, rfl, ?_⟩⟩
  · have hchat := (h _ (.ofStatus subscribedThread)).1 (ChatCell.settled_ofValues openChat) rfl
      (.cons rfl trivial <| .cons rfl trivial <| .cons rfl trivial <| .cons rfl ?_ <|
        .cons rfl ?_ <| .cons rfl ?_ trivial)
    · intro k
      rw [hchat.1 (by decide)]
      cases k <;> rfl
    · rintro c ⟨⟩ k v hv
      cases k <;> cases hv
      rfl
    · rintro c ⟨⟩ k v hv
      cases k <;> cases hv
      exact .inl rfl
    · rintro r ⟨⟩ k v hv hun
      cases k <;> cases hv
      cases hun
  · have hthread := (h (.ofValues openChat) _).2 (ThreadCell.settled_ofStatus subscribedThread) rfl
      (.cons rfl trivial <| .cons rfl ?_ <| .cons rfl trivial <| .cons rfl trivial trivial)
    · rw [hthread.1 (by decide)]
      refine congrArg some (funext fun f => ?_)
      cases f <;> rfl
    · rintro c ⟨⟩ f
      cases f <;> rfl

/-- A chat archived and unarchived, a thread archived and unsubscribed, all in vain: both stay
archived. A list read during the archiving of a thread takes it back. -/
theorem overlapping_failures_leave_trace :
    (∃ t, run ChatCell.step (.ofValues openChat)
        [.start (archive true), .start (archive false), .fail 0, .fail 1] = some t ∧ t.Quiet ∧
      Layers.shown ChangeCall.left openChat t.calls .archived = some false ∧
      t.value .archived = some true) ∧
    (∃ t, run ThreadCell.step (.ofStatus subscribedThread)
        [.start (setThreadArchived true), .start unsubscribeThread, .fail 0, .fail 1] = some t ∧
      t.Quiet ∧ Layers.shown UpdateCall.left subscribedThread t.calls .archived = false ∧
      t.entry.status.map (fun status => status .archived) = some true) ∧
    ∃ t, run ThreadCell.step (.ofStatus subscribedThread)
        [.start (setThreadArchived true), .startRead, .succeed 0,
          .finishRead 0 (some subscribedThread)] = some t ∧
      t.Quiet ∧ Layers.shown UpdateCall.left subscribedThread t.calls .archived = true ∧
      t.entry.status.map (fun status => status .archived) = some false := by
  exact ⟨⟨_, rfl, by decide, rfl, rfl⟩, ⟨_, rfl, by decide, rfl, rfl⟩, ⟨_, rfl, by decide, rfl, rfl⟩⟩

end Chahua.Chats

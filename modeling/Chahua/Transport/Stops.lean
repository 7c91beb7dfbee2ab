import Chahua.Transport.Outcomes

namespace Chahua.Transport

namespace RpcTransport

variable {t u : RpcTransport}

/-- A session that ended: no socket and no call, and an epoch of its own. -/
structure Stopped (t u : RpcTransport) : Prop where
  socket : u.socket = none
  sockets : ∀ (i : Nat) (s : Socket), u.sockets[i]? = some s → s.readyState ≠ .closed →
    t.sockets[i]? = some s ∧ t.socket ≠ some i
  created : u.sockets.length = t.sockets.length
  epoch : u.epoch = t.epoch + 1
  reconnects : u.reconnects = t.reconnects.filter fun timer => some timer.1 ≠ t.reconnectTimer
  retryAllowed : u.retryAllowed = t.retryAllowed
  closeRequested : u.closeRequested = t.closeRequested
  invalidated : u.invalidated = t.invalidated
  subscriber : ∀ e, u.openSubscriber = some e → t.openSubscriber = some e
  calls : u.CallsOk
  stale : u.Stale
  epochs : ∀ (i : Nat) (c : PendingCall), t.calls[i]? = some c →
    ∃ c' : PendingCall, u.calls[i]? = some c' ∧ c'.epoch = c.epoch ∧ c'.owner = c.owner

theorem closeSocket_rest (t : RpcTransport) :
    t.closeSocket.socket = none ∧ t.closeSocket.calls = t.calls ∧
      t.closeSocket.pending = t.pending ∧ t.closeSocket.openSubscriber = t.openSubscriber ∧
      t.closeSocket.session = { t.session with
        socket := none, sockets := t.closeSocket.sockets } := by
  unfold closeSocket
  split
  · next hnone => exact ⟨hnone, rfl, rfl, rfl, by rw [session, hnone]⟩
  · exact ⟨rfl, rfl, rfl, rfl, rfl⟩

theorem closeSocket_sockets {i : Nat} {s : Socket} (h : t.closeSocket.sockets[i]? = some s)
    (hlive : s.readyState ≠ .closed) : t.sockets[i]? = some s ∧ t.socket ≠ some i := by
  unfold closeSocket at h
  split at h
  · next hnone =>
    rw [hnone]
    exact ⟨h, fun hsome => by cases hsome⟩
  · next socket hsocket =>
    obtain ⟨s', hs', heq⟩ := Option.map_eq_some_iff.mp ((List.getElem?_modify ..).symm.trans h)
    split at heq
    · subst heq
      exact absurd rfl hlive
    · next hne =>
      subst heq
      exact ⟨hs', fun hsome => hne (Option.some.inj (hsocket.symm.trans hsome))⟩

theorem closeSocket_length (t : RpcTransport) :
    t.closeSocket.sockets.length = t.sockets.length := by
  unfold closeSocket
  split
  · rfl
  · exact List.length_modify ..

theorem stopped_spec (h : t.CallsOk) (reconnect : Bool) : Stopped t (t.stopped reconnect) := by
  have hcleared : Keeps { t with
      reconnects := t.clearReconnect.reconnects, reconnectTimer := none }
      t.clearReconnect.clearHeartbeat.clearHandshakeDeadline := .of_eq rfl rfl rfl fun _ he => he
  have hok : t.clearReconnect.clearHeartbeat.clearHandshakeDeadline.CallsOk :=
    ⟨h.pending, h.made, h.epoch⟩
  have htaken := hcleared.trans
    (keeps_releaseAll t.pending t.clearReconnect.clearHeartbeat.clearHandshakeDeadline)
  have hidle := takePending_noActive hok
  have htakenOk : t.clearReconnect.clearHeartbeat.clearHandshakeDeadline.takePending.CallsOk :=
    htaken.calls ⟨h.pending, h.made, h.epoch⟩
  obtain ⟨hsocket, hcalls, hpending, hsubscriber, hsession⟩ := closeSocket_rest
    t.clearReconnect.clearHeartbeat.clearHandshakeDeadline.takePending
  have hepoch : t.clearReconnect.clearHeartbeat.clearHandshakeDeadline.takePending.epoch =
    t.epoch := htaken.epoch
  refine ⟨hsocket, fun i s hs hlive => ?_, ?_, rfl, ?_, ?_, ?_, ?_, fun e he => ?_, ⟨?_, ?_, ?_⟩,
    fun i c hc => ?_, fun i c hc => ?_⟩
  · obtain ⟨hs, hne⟩ := closeSocket_sockets hs hlive
    exact ⟨htaken.sockets ▸ hs, fun heq => hne (htaken.socket.trans heq)⟩
  · exact (closeSocket_length _).trans (congrArg List.length htaken.sockets)
  · exact (congrArg Session.reconnects hsession).trans htaken.reconnects
  · exact (congrArg Session.retryAllowed hsession).trans htaken.retryAllowed
  · exact (congrArg Session.closeRequested hsession).trans htaken.closeRequested
  · exact (congrArg Session.invalidated hsession).trans htaken.invalidated
  · exact htaken.subscriber e (hsubscriber ▸ he)
  · intro i c hc hactive
    exact hpending ▸ htakenOk.pending i c (hcalls ▸ hc) hactive
  · show (closeSocket _).pending.Nodup ∧ ∀ i ∈ (closeSocket _).pending, _
    rw [hpending]
    refine ⟨htakenOk.made.1, fun i hi => ?_⟩
    obtain ⟨c, hc, hactive⟩ := htakenOk.made.2 i hi
    exact ⟨c, (congrArg (·[i]?) hcalls).trans hc, hactive⟩
  · intro i c hc
    have hc := (congrArg (·[i]?) hcalls).symm.trans hc
    have hle := (htakenOk.epoch i c hc).1
    rw [hepoch] at hle
    refine ⟨Nat.le_succ_of_le hle, fun hactive => ?_⟩
    rw [hidle i c hc] at hactive
    cases hactive
  · have hc := (congrArg (·[i]?) hcalls).symm.trans hc
    have hle := (htakenOk.epoch i c hc).1
    rw [hepoch] at hle
    exact ⟨hidle i c hc, Nat.lt_succ_of_le hle⟩
  · obtain ⟨c', hc', heq⟩ := htaken.epochs i c hc
    exact ⟨c', (congrArg (·[i]?) hcalls).trans hc', heq⟩

/-- A stopped session does not change by what follows within `stopCurrent`. -/
theorem Stopped.of_session {v : RpcTransport} (h : Stopped t u)
    (hsession : v.session = { u.session with state := v.state }) (hcalls : v.calls = u.calls)
    (hpending : v.pending = u.pending) (hsubscriber : v.openSubscriber = u.openSubscriber) :
    Stopped t v := by
  have hsocket : v.socket = u.socket := congrArg Session.socket hsession
  have hsockets : v.sockets = u.sockets := congrArg Session.sockets hsession
  have hepoch : v.epoch = u.epoch := congrArg Session.epoch hsession
  refine ⟨hsocket.trans h.socket, fun i s hs => h.sockets i s (hsockets ▸ hs),
    (congrArg List.length hsockets).trans h.created, hepoch.trans h.epoch,
    (congrArg Session.reconnects hsession).trans h.reconnects,
    (congrArg Session.retryAllowed hsession).trans h.retryAllowed,
    (congrArg Session.closeRequested hsession).trans h.closeRequested,
    (congrArg Session.invalidated hsession).trans h.invalidated,
    fun e he => h.subscriber e (hsubscriber ▸ he), ⟨?_, ?_, ?_⟩, fun i c hc => ?_, fun i c hc => ?_⟩
  · intro i c hc hactive
    exact hpending ▸ h.calls.pending i c (hcalls ▸ hc) hactive
  · rw [hpending, hcalls]
    exact h.calls.made
  · intro i c hc
    exact hepoch ▸ h.calls.epoch i c (hcalls ▸ hc)
  · exact hepoch ▸ h.stale i c (hcalls ▸ hc)
  · obtain ⟨c', hc', heq⟩ := h.epochs i c hc
    exact ⟨c', (congrArg (·[i]?) hcalls).trans hc', heq⟩

/-- The two publications of a stop: without a retry, or with a timer to be armed. -/
theorem scheduleReconnect_cases (t : RpcTransport) :
    t.scheduleReconnect = (t.transition .closed, [.publish]) ∨
      t.retryAllowed = true ∧ ∃ appVersion, t.scheduleReconnect =
        (({ t with retryAttempt := t.retryAttempt + 1 }).transition .reconnecting,
          [.publish, .armReconnect appVersion]) := by
  unfold scheduleReconnect
  split
  · split
    · next hretry => exact .inr ⟨hretry.2.1, _, rfl⟩
    · exact .inl rfl
  · exact .inl rfl

theorem stopCurrent_spec (h : t.CallsOk) (error : CallError) (reconnect : Bool) :
    Stopped t (t.stopCurrent error reconnect).1 ∧
      ((t.stopCurrent error reconnect).1.state = .closed ∨
        (t.stopCurrent error reconnect).1.state = .reconnecting) ∧
      ∃ published, (t.stopCurrent error reconnect).2 = published ++ [.finishOpenError t.epoch error,
          .rejectPending (t.pending.filter fun call => !t.isAbandoned call) error] ∧
        (published = [.publish] ∨ reconnect = true ∧ t.retryAllowed = true ∧
          ∃ appVersion, published = [.publish, .armReconnect appVersion]) := by
  have hstopped := stopped_spec h reconnect
  unfold stopCurrent
  cases reconnect with
  | false =>
    exact ⟨hstopped.of_session rfl rfl rfl rfl, .inl rfl, [.publish], rfl, .inl rfl⟩
  | true =>
    simp only [if_true]
    rcases scheduleReconnect_cases (t.stopped true) with heq | ⟨hretry, appVersion, heq⟩
    · rw [heq]
      exact ⟨hstopped.of_session rfl rfl rfl rfl, .inl rfl, [.publish], rfl, .inl rfl⟩
    · rw [heq]
      exact ⟨hstopped.of_session rfl rfl rfl rfl, .inr rfl, _, rfl,
        .inr ⟨trivial, hstopped.retryAllowed ▸ hretry, appVersion, rfl⟩⟩

end RpcTransport

end Chahua.Transport

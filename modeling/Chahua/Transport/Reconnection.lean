import Chahua.Transport.LiveSocket

namespace Chahua.Transport

open Framework

variable {t u : RpcTransport} {stack rest tasks : List Task}

theorem socket_of_isCurrent {socket : Nat} (h : t.isCurrent socket = true) :
    t.socket = some socket ∧ ∃ s, t.sockets[socket]? = some s := by
  simp only [RpcTransport.isCurrent, Bool.and_eq_true, decide_eq_true_eq] at h
  refine ⟨h.1, ?_⟩
  cases hs : t.sockets[socket]? with
  | none => simp [hs] at h
  | some s => exact ⟨s, rfl⟩

theorem isReady_of_opened {socket : Nat} (h : t.isCurrent socket = true) :
    (t.modifySocket socket fun s => { s with readyState := .open }).isReady = true := by
  obtain ⟨howned, s, hs⟩ := socket_of_isCurrent h
  simp [RpcTransport.isReady, RpcTransport.modifySocket, howned, hs]

/-- A transport whose owned socket is open is in use. -/
theorem not_quiet_of_isCurrent {socket : Nat} {s : Socket} (h : t.isCurrent socket = true)
    (hs : t.sockets[socket]? = some s) (hopen : s.readyState = .open) : ¬t.Quiet := by
  intro hquiet
  obtain ⟨howned, -⟩ := socket_of_isCurrent h
  have hready := hquiet.ready
  simp [RpcTransport.isReady, howned, hs, hopen] at hready

theorem unsubscribe_outcome (t : RpcTransport) (call : Nat) :
    t.Outcome (t.operate (.unsubscribe call)) := by
  unfold RpcTransport.operate
  dsimp only
  split
  · exact .refl t
  · split
    · exact .refl t
    · split
      · exact .keeps (.of_modify
          (f := fun c => { c with abandoned := true, timer := c.timer && decide (c.lane = .control) })
          (fun _ => ⟨rfl, rfl⟩) (fun _ hactive => hactive) rfl rfl (.inl ⟨rfl, fun _ => rfl⟩)
          fun _ he => he) (by simp)
      · split
        · next hreleased =>
          exact .keeps (.of_release hreleased) (by simp [Task.isPlain, Task.isWork, Task.date])
        · exact .refl t

theorem call_outcome (t : RpcTransport) (method : String) (bytes : Nat) :
    t.Outcome (t.operate (.call method bytes)) := by
  unfold RpcTransport.operate
  dsimp only
  split
  · next hcall =>
    refine RpcTransport.createPending_outcome (fun hquiet => ?_) _ _ _
    rw [RpcTransport.canCall, hquiet.ready] at hcall
    cases hcall
  · exact .keeps (.refl t) (by simp [Task.isPlain, Task.date])

/-- Operations other than a stop do nothing but a callback where no call can be made. -/
theorem operate_quiet (hquiet : t.Quiet) {operation : Operation}
    (hopen : ∀ token appVersion, operation ≠ .open token appVersion) (hclose : operation ≠ .close)
    (hcancel : ∀ epoch, operation ≠ .cancelOpening epoch) :
    RpcTransport.Keeps t (t.operate operation).1 ∧
      ∀ task ∈ (t.operate operation).2, task = .publish := by
  cases operation with
  | «open» token appVersion => exact absurd rfl (hopen token appVersion)
  | close => exact absurd rfl hclose
  | cancelOpening epoch => exact absurd rfl (hcancel epoch)
  | setReconnectToken token =>
    exact ⟨.of_eq rfl rfl rfl fun _ he => he, fun task hmem => by cases hmem⟩
  | call method bytes =>
    have hcall : t.operate (.call method bytes) = (t, [.publish]) := by
      unfold RpcTransport.operate
      dsimp only
      rw [RpcTransport.canCall, hquiet.ready]
      rfl
    rw [hcall]
    exact ⟨.refl t, fun task hmem => List.mem_singleton.mp hmem⟩
  | unsubscribe call =>
    have hnothing : t.operate (.unsubscribe call) = (t, []) := by
      unfold RpcTransport.operate
      dsimp only
      split
      · rfl
      · next c hc => rw [if_pos (by rw [(hquiet.calls call c hc).1]; decide)]
    rw [hnothing]
    exact ⟨.refl t, fun task hmem => by cases hmem⟩

theorem Inv.open (h : Inv t stack) (hstack : ¬Critical stack) (token : Option String)
    (appVersion : String) : Inv (t.operate (.open token appVersion)).1
      ((t.operate (.open token appVersion)).2 ++ stack) := by
  have hbase : Base { t with closeRequested := false, invalidated := false }
      (.beginOpen token appVersion :: stack) := by
    refine ⟨⟨h.calls.pending, h.calls.made, h.calls.epoch⟩, ⟨fun hwork => (by cases hwork), h.ordered⟩,
      ?_, fun calls error hmem => ?_, h.live, h.timer, h.subscriber⟩
    · rw [List.filter_cons_of_pos rfl, filter_critical_nil hstack]
      exact Nat.le_refl 1
    · refine h.rejecting calls error ((List.mem_cons.mp hmem).resolve_left fun heq => ?_)
      cases heq
  have hstop := @Base.stop _ _ hbase (.transport .disconnected "A new RPC session was opened")
    false (fun hfalse => by cases hfalse) (fun _ _ => rfl)
    (fun hclosed => by cases hclosed) (fun hinvalid => by cases hinvalid)
  unfold RpcTransport.operate
  dsimp only
  rw [List.append_assoc]
  exact hstop

theorem Inv.close (h : Inv t stack) (hstack : ¬Reviving stack) :
    Inv (t.operate .close).1 ((t.operate .close).2 ++ stack) := by
  apply Base.stop
  · exact ⟨⟨h.calls.pending, h.calls.made, h.calls.epoch⟩, h.ordered, h.once, h.rejecting, h.live,
      h.timer, h.subscriber⟩
  · exact fun hfalse => by cases hfalse
  · exact fun appVersion hmem => absurd ⟨_, hmem, rfl⟩ hstack
  · exact fun _ => ⟨rfl, fun token appVersion hmem => hstack ⟨_, hmem, rfl⟩⟩
  · exact fun hinvalid => ⟨rfl, (h.invalid hinvalid).2.1⟩

theorem Inv.cancelOpening (h : Inv t stack) (epoch : Nat) :
    Inv (t.operate (.cancelOpening epoch)).1 ((t.operate (.cancelOpening epoch)).2 ++ stack) := by
  unfold RpcTransport.operate
  dsimp only
  split
  · next hcurrent =>
    apply Base.stop
    · exact ⟨⟨h.calls.pending, h.calls.made, h.calls.epoch⟩, h.ordered, h.once, h.rejecting, h.live,
        h.timer, fun e he => by cases he⟩
    · exact fun hfalse => by cases hfalse
    · exact fun appVersion hmem => (h.arming appVersion hmem).1
    · exact fun hclosed => ⟨rfl, (h.closing hclosed).2⟩
    · exact fun hinvalid => ⟨rfl, (h.invalid hinvalid).2.1⟩
  · exact h

/-- The call is one of `session.open`. -/
def RpcTransport.IsOpening (t : RpcTransport) (call : Nat) : Prop :=
  ∃ c, t.calls[call]? = some c ∧ c.owner = .sessionOpen

instance (t : RpcTransport) (call : Nat) : Decidable (t.IsOpening call) :=
  decidable_of_iff ((t.calls[call]?).any (·.owner = .sessionOpen) = true) (by
    simp [RpcTransport.IsOpening, Option.any_eq_true])

/-- What a function still has to do to whatever session there is then: it makes a socket, arms the
reconnect timer, starts the heartbeat or accepts a session. -/
def Unguarded (t : RpcTransport) : Task → Prop
  | .beginOpen _ _ | .makeSocket _ | .armReconnect _ | .startHeartbeat | .respond _ _ => True
  | .settle call (.result _) => ¬∃ c, t.calls[call]? = some c ∧ c.owner ≠ .sessionOpen
  | _ => False

instance (t : RpcTransport) : DecidablePred (Unguarded t) := fun task =>
  match task with
  | .beginOpen _ _ | .makeSocket _ | .armReconnect _ | .startHeartbeat | .respond _ _ =>
    .isTrue trivial
  | .settle call (.result _) =>
    decidable_of_iff (¬(t.calls[call]?).any (fun c => decide (c.owner ≠ .sessionOpen)) = true) (by
      simp [Unguarded, Option.any_eq_true])
  | .settle _ (.error _) | .settle _ .malformedError | .publish | .finishOpenError _ _
  | .rejectPending _ _ | .notifyInvalidated _ | .rejectCall _ _ | .admitCall _ | .send _ | .pump
  | .supersede _ | .sendAppState | .notifyOpen _ => .isFalse id

/-- The event ends the session: a stop by an observer, a frame that cannot be sent, or the end of
the call that opens the session. -/
def Ends (s : Machine) : Event → Prop
  | .operate (.open _ _) | .operate .close => True
  | .operate (.cancelOpening epoch) =>
    s.transport.openSubscriber = some epoch ∧ epoch = s.transport.epoch
  | .run outside =>
    match s.stack with
    | .send call :: _ =>
      outside.succeeds = false ∧ s.transport.isReady = true ∧ s.transport.isActive call = true
    | .rejectCall call _ :: _ | .settle call _ :: _ => s.transport.IsOpening call
    | _ => False
  | _ => False

instance (s : Machine) : DecidablePred (Ends s) := fun event =>
  match event with
  | .operate (.open _ _) | .operate .close => .isTrue trivial
  | .operate (.cancelOpening epoch) => inferInstanceAs (Decidable
      (s.transport.openSubscriber = some epoch ∧ epoch = s.transport.epoch))
  | .operate (.setReconnectToken _) | .operate (.call _ _) | .operate (.unsubscribe _)
  | .happen _ | .done => .isFalse id
  | .run outside =>
    match s with
    | ⟨t, .send call :: _⟩ => inferInstanceAs (Decidable
        (outside.succeeds = false ∧ t.isReady = true ∧ t.isActive call = true))
    | ⟨t, .rejectCall call _ :: _⟩ | ⟨t, .settle call _ :: _⟩ =>
      inferInstanceAs (Decidable (t.IsOpening call))
    | ⟨_, []⟩ | ⟨_, .publish :: _⟩ | ⟨_, .beginOpen _ _ :: _⟩ | ⟨_, .makeSocket _ :: _⟩
    | ⟨_, .armReconnect _ :: _⟩ | ⟨_, .finishOpenError _ _ :: _⟩ | ⟨_, .rejectPending _ _ :: _⟩
    | ⟨_, .notifyInvalidated _ :: _⟩ | ⟨_, .admitCall _ :: _⟩ | ⟨_, .pump :: _⟩
    | ⟨_, .supersede _ :: _⟩ | ⟨_, .sendAppState :: _⟩ | ⟨_, .startHeartbeat :: _⟩
    | ⟨_, .notifyOpen _ :: _⟩ | ⟨_, .respond _ _ :: _⟩ => .isFalse id

/-- What is left of the stack below what an event adds to it. -/
def kept (s : Machine) : Event → List Task
  | .operate _ => s.stack
  | _ => s.stack.tail

/-- Nothing ends the session while a function has still to make its socket, to arm its timer, to
start its heartbeat or to accept its session. -/
def Calm (s : Machine) (event : Event) : Prop :=
  Ends s event → ∀ task ∈ kept s event, ¬Unguarded s.transport task

instance (s : Machine) (event : Event) : Decidable (Calm s event) :=
  inferInstanceAs (Decidable (Ends s event → ∀ task ∈ kept s event, ¬Unguarded s.transport task))

theorem not_critical_of_guarded (h : ∀ task ∈ stack, ¬Unguarded t task) : ¬Critical stack := by
  intro hcritical
  obtain ⟨task, hmem, htask⟩ := hcritical
  cases task <;> first | exact h _ hmem trivial | cases htask

theorem not_reviving_of_guarded (h : ∀ task ∈ stack, ¬Unguarded t task) : ¬Reviving stack := by
  intro hreviving
  obtain ⟨task, hmem, htask⟩ := hreviving
  cases task <;> first | exact h _ hmem trivial | cases htask

theorem Inv.operate (h : Inv t stack) {operation : Operation}
    (hcalm : Calm ⟨t, stack⟩ (.operate operation)) :
    Inv (t.operate operation).1 ((t.operate operation).2 ++ stack) := by
  by_cases hopen : ∃ token appVersion, operation = .open token appVersion
  · obtain ⟨token, appVersion, rfl⟩ := hopen
    exact h.open (not_critical_of_guarded (hcalm trivial)) token appVersion
  by_cases hclose : operation = .close
  · subst hclose
    exact h.close (not_reviving_of_guarded (hcalm trivial))
  by_cases hcancel : ∃ epoch, operation = .cancelOpening epoch
  · obtain ⟨epoch, rfl⟩ := hcancel
    exact h.cancelOpening epoch
  by_cases hstack : Critical stack
  · obtain ⟨hkeeps, htasks⟩ := @operate_quiet t (h.parked (.inl hstack)).quiet operation
      (fun token appVersion heq => hopen ⟨token, appVersion, heq⟩) hclose
      fun epoch heq => hcancel ⟨epoch, heq⟩
    exact h.publishes hkeeps htasks
  · cases operation with
    | «open» token appVersion => exact absurd ⟨token, appVersion, rfl⟩ hopen
    | close => exact absurd rfl hclose
    | cancelOpening epoch => exact absurd ⟨epoch, rfl⟩ hcancel
    | setReconnectToken token =>
      exact h.outcome (.keeps (.of_eq rfl rfl rfl fun _ he => he) (by simp)) hstack
    | call method bytes => exact h.outcome (call_outcome t method bytes) hstack
    | unsubscribe call => exact h.outcome (unsubscribe_outcome t call) hstack

theorem handleMessage_outcome (hnot : ¬t.Quiet) (bytes : Nat) (frame : Frame) :
    t.Outcome (t.handleMessage bytes frame) := by
  unfold RpcTransport.handleMessage
  split
  · exact RpcTransport.protocolFailure_outcome t _
  · cases frame with
    | invalid message => exact RpcTransport.protocolFailure_outcome t message
    | notification method =>
      dsimp only
      unfold RpcTransport.handleNotification
      split
      · exact (RpcTransport.invalidateSession_outcome t _).append (by simp [Task.isPlain, Task.date])
      · split
        · exact (RpcTransport.Outcome.stopCurrent (.of_keeps (.refl t)) _ _).append
            (by simp [Task.isPlain, Task.date])
        · exact .keeps (.refl t) (by simp [Task.isPlain, Task.date])
    | response id body =>
      dsimp only
      split
      · exact .refl t
      · unfold RpcTransport.handleResponse
        split
        · exact RpcTransport.protocolFailure_outcome t _
        · exact .keeps (.refl t) (by simp [Task.isPlain, Task.isWork, Task.date])
        · split
          · split
            · exact .enters hnot (.of_eq rfl rfl rfl fun _ he => he)
                (by simp [Task.isPlain, Task.isWork, Task.date])
            · exact RpcTransport.protocolFailure_outcome t _
          · exact .keeps (.refl t) (by simp [Task.isPlain, Task.isWork, Task.date])

theorem requestTimeout_outcome (t : RpcTransport) (call : Nat) (c : PendingCall) :
    t.Outcome (t.requestTimeout call c) := by
  unfold RpcTransport.requestTimeout
  dsimp only
  split
  · exact .refl t
  · split
    · exact .stopCurrent (.of_keeps (.refl t)) _ _
    · split
      · exact .keeps (.of_modify (f := fun c => { c with abandoned := true, timer := false })
          (fun _ => ⟨rfl, rfl⟩) (fun _ hactive => hactive) rfl rfl (.inl ⟨rfl, fun _ => rfl⟩)
          fun _ he => he) (by simp [Task.isPlain, Task.isWork, Task.date])
      · split
        · next hreleased =>
          exact .keeps (.of_release hreleased) (by simp [Task.isPlain, Task.isWork, Task.date])
        · exact .refl t

/-- A socket that is still connecting opens. -/
theorem Inv.socketReady (h : Inv t stack) {socket : Nat} {s : Socket}
    (hs : t.sockets[socket]? = some s) (hconnecting : s.readyState = .connecting) :
    Inv (t.modifySocket socket fun s => { s with readyState := .open }) stack := by
  refine ⟨⟨⟨h.calls.pending, h.calls.made, h.calls.epoch⟩, h.ordered, h.once, h.rejecting,
    fun i s' hs' hlive => ?_, h.timer, h.subscriber⟩, fun hnear => ?_, h.armed, h.arming, h.closing,
    h.invalid⟩
  · obtain ⟨old, hold, heq⟩ := Option.map_eq_some_iff.mp ((List.getElem?_modify ..).symm.trans hs')
    split at heq
    · next hi =>
      subst hi
      refine h.live socket s hs ?_
      rw [hconnecting]
      decide
    · exact h.live i old hold (heq ▸ hlive)
  · obtain ⟨hsocket, hcalls, hstate⟩ := h.parked hnear
    exact ⟨hsocket, hcalls, hstate⟩

theorem Base.socketClosed (h : Base t stack) (socket : Nat) :
    Base (t.modifySocket socket fun s => { s with readyState := .closed }) stack := by
  refine ⟨⟨h.calls.pending, h.calls.made, h.calls.epoch⟩, h.ordered, h.once, h.rejecting,
    fun i s' hs' hlive => ?_, h.timer, h.subscriber⟩
  obtain ⟨old, hold, heq⟩ := Option.map_eq_some_iff.mp ((List.getElem?_modify ..).symm.trans hs')
  split at heq
  · subst heq
    exact absurd rfl hlive
  · exact h.live i old hold (heq ▸ hlive)

/-- The armed timer fires: it was the only one. -/
theorem Inv.reconnectTimeout (h : Inv t []) {timer : Nat} {armed : Nat × String}
    (harmed : t.reconnects.find? (·.1 = timer) = some armed) {result : RpcTransport × List Task}
    (hresult : t.happen (.reconnectTimeout timer) = some result) : Inv result.1 (result.2 ++ []) := by
  have hne : t.reconnects ≠ [] := by
    intro hnil
    rw [hnil] at harmed
    cases harmed
  have hnil : t.reconnects.filter (·.1 ≠ timer) = [] := by
    rcases h.timer with hnil | ⟨id, appVersion, hone, -⟩
    · exact absurd hnil hne
    · rw [hone] at harmed ⊢
      have hid : id = timer := by
        have hfound := List.find?_some harmed
        obtain rfl := List.mem_singleton.mp (List.mem_of_find?_eq_some harmed)
        simpa using hfound
      simp [hid]
  have hparked := h.parked (.inr hne)
  have hclose := (h.armed hne).2
  have hinvalid : t.invalidated = false := by
    cases hinvalid : t.invalidated with
    | false => rfl
    | true => exact absurd (h.invalid hinvalid).2.2 hne
  have hbase : Base { t with
      reconnects := t.reconnects.filter (·.1 ≠ timer), reconnectTimer := none } [] :=
    ⟨⟨h.calls.pending, h.calls.made, h.calls.epoch⟩, h.ordered, h.once, h.rejecting, h.live,
      .inl hnil, h.subscriber⟩
  simp only [RpcTransport.happen, harmed] at hresult
  split at hresult
  · obtain rfl := Option.some.inj hresult
    exact hbase.createSocket not_critical_nil ⟨hparked.socket, hparked.calls, hparked.state⟩ hnil
      (fun hclosed => absurd (hclose.symm.trans hclosed) (by decide)) hinvalid armed.2 true false
  · obtain rfl := Option.some.inj hresult
    exact ⟨hbase, fun hnear => absurd hnil (hnear.resolve_left not_critical_nil),
      fun hsome => absurd hnil hsome, h.arming, h.closing,
      fun hinvalid' => absurd (hinvalid.symm.trans hinvalid') (by decide)⟩

/-- The ready state of the socket that an event is about changes before the handler runs. -/
def SocketChange (t v : RpcTransport) : Prop :=
  v = t ∨
    (∃ socket s, t.sockets[socket]? = some s ∧ s.readyState = .connecting ∧
      v = t.modifySocket socket fun s => { s with readyState := .open }) ∨
    ∃ socket, v = t.modifySocket socket fun s => { s with readyState := .closed }

theorem Inv.socketChange (h : Inv t stack) {v : RpcTransport} (hchange : SocketChange t v) :
    Inv v stack := by
  obtain rfl | ⟨socket, s, hs, hconnecting, rfl⟩ | ⟨socket, rfl⟩ := hchange
  · exact h
  · exact h.socketReady hs hconnecting
  · refine ⟨h.toBase.socketClosed socket, fun hnear => ?_, h.armed, h.arming, h.closing, h.invalid⟩
    obtain ⟨hsocket, hcalls, hstate⟩ := h.parked hnear
    exact ⟨hsocket, hcalls, hstate⟩

/-- What an event other than the reconnect timer does. -/
theorem happen_outcome {event : External} {result : RpcTransport × List Task}
    (hresult : t.happen event = some result) (htimer : ∀ timer, event ≠ .reconnectTimeout timer) :
    ∃ v, SocketChange t v ∧ v.Outcome result := by
  have houtcome : t.Outcome result → ∃ v, SocketChange t v ∧ v.Outcome result :=
    fun houtcome => ⟨t, .inl rfl, houtcome⟩
  cases event with
  | socketOpen socket bytes =>
    simp only [RpcTransport.happen] at hresult
    split at hresult
    · next s hs =>
      split at hresult
      · next hconnecting =>
        have hopened : SocketChange t (t.modifySocket socket fun s => { s with readyState := .open }) :=
          .inr (.inl ⟨socket, s, hs, hconnecting, rfl⟩)
        split at hresult
        · next hcurrent =>
          obtain rfl := Option.some.inj hresult
          refine ⟨_, hopened, RpcTransport.createPending_outcome (fun hquiet => ?_) _ _ _⟩
          have hready : (t.modifySocket socket fun s => { s with readyState := .open }).isReady = true :=
            isReady_of_opened hcurrent
          rw [hquiet.ready] at hready
          cases hready
        · obtain rfl := Option.some.inj hresult
          exact ⟨_, hopened, .refl _⟩
      · cases hresult
    · cases hresult
  | socketMessage socket bytes frame =>
    simp only [RpcTransport.happen] at hresult
    split at hresult
    · next s hs =>
      split at hresult
      · next hopen =>
        split at hresult
        · next hcurrent =>
          obtain rfl := Option.some.inj hresult
          exact houtcome (handleMessage_outcome (not_quiet_of_isCurrent hcurrent hs hopen) bytes frame)
        · obtain rfl := Option.some.inj hresult
          exact houtcome (.refl t)
      · cases hresult
    · cases hresult
  | socketClose socket =>
    have hclosed : SocketChange t (t.modifySocket socket fun s => { s with readyState := .closed }) :=
      .inr (.inr ⟨socket, rfl⟩)
    simp only [RpcTransport.happen] at hresult
    split at hresult
    · split at hresult
      · cases hresult
      · split at hresult
        · obtain rfl := Option.some.inj hresult
          exact ⟨_, hclosed, .stopCurrent (.of_keeps (.refl _)) _ _⟩
        · obtain rfl := Option.some.inj hresult
          exact ⟨_, hclosed, .refl _⟩
    · cases hresult
  | handshakeTimeout timer =>
    simp only [RpcTransport.happen] at hresult
    split at hresult
    · obtain rfl := Option.some.inj hresult
      exact houtcome (.after (u := { t with handshakes := t.handshakes.filter (·.1 ≠ timer) })
        (.of_eq rfl rfl rfl fun _ he => he) (RpcTransport.rejectSessionOpen_outcome _ _ _))
    · cases hresult
  | reconnectTimeout timer => exact absurd rfl (htimer timer)
  | requestTimeout call =>
    simp only [RpcTransport.happen] at hresult
    split at hresult
    · split at hresult
      · obtain rfl := Option.some.inj hresult
        exact houtcome (.after (u := t.modifyCall call fun c => { c with timer := false })
          (.of_modify (f := fun c => { c with timer := false }) (fun _ => ⟨rfl, rfl⟩)
            (fun _ hactive => hactive) rfl rfl (.inl ⟨rfl, fun _ => rfl⟩) fun _ he => he)
          (requestTimeout_outcome _ _ _))
      · cases hresult
    · cases hresult
  | leaseTimeout call =>
    simp only [RpcTransport.happen] at hresult
    split at hresult
    · split at hresult
      · split at hresult
        · obtain rfl := Option.some.inj hresult
          exact houtcome (.stopCurrent (.of_keeps (.refl t)) _ _)
        · obtain rfl := Option.some.inj hresult
          exact houtcome (.keeps (.of_modify (f := fun c => { c with leaseTimer := false })
            (fun _ => ⟨rfl, rfl⟩) (fun _ hactive => hactive) rfl rfl (.inl ⟨rfl, fun _ => rfl⟩)
            fun _ he => he) (by simp))
      · cases hresult
    · cases hresult
  | heartbeat now bytes =>
    simp only [RpcTransport.happen] at hresult
    split at hresult
    · cases hresult
    · split at hresult
      · obtain rfl := Option.some.inj hresult
        exact houtcome (.refl t)
      · next hstate =>
        split at hresult
        · obtain rfl := Option.some.inj hresult
          exact houtcome (.stopCurrent (.of_keeps (.refl t)) _ _)
        · split at hresult
          · obtain rfl := Option.some.inj hresult
            exact houtcome (.refl t)
          · obtain rfl := Option.some.inj hresult
            refine houtcome (.after (u := { t with pingOutstanding := true })
              (.of_eq rfl rfl rfl fun _ he => he)
              (RpcTransport.createPending_outcome (fun hquiet => ?_) _ _ _))
            exact hquiet.state.1 (Decidable.not_not.mp hstate)
  | lifecycleChange foreground now bytes =>
    have hseen : RpcTransport.Keeps t { t with wasForeground := foreground } :=
      .of_eq rfl rfl rfl fun _ he => he
    simp only [RpcTransport.happen] at hresult
    split at hresult
    · obtain rfl := Option.some.inj hresult
      exact houtcome (.keeps hseen (by simp))
    · next hstate =>
      split at hresult
      · obtain rfl := Option.some.inj hresult
        exact houtcome (.stopCurrent (.of_keeps hseen) _ _)
      · split at hresult
        · obtain rfl := Option.some.inj hresult
          exact houtcome (.keeps hseen (by simp [Task.isPlain, Task.isWork, Task.date]))
        · obtain rfl := Option.some.inj hresult
          refine houtcome (.after hseen
            (RpcTransport.createPending_outcome (fun hquiet => ?_) _ _ _))
          exact hquiet.state.1 (Decidable.not_not.mp hstate)

theorem Inv.happen (h : Inv t []) {event : External} {result : RpcTransport × List Task}
    (hresult : t.happen event = some result) : Inv result.1 (result.2 ++ []) := by
  by_cases htimer : ∃ timer, event = .reconnectTimeout timer
  · obtain ⟨timer, rfl⟩ := htimer
    cases harmed : t.reconnects.find? (·.1 = timer) with
    | none => simp [RpcTransport.happen, harmed] at hresult
    | some armed => exact h.reconnectTimeout harmed hresult
  · obtain ⟨v, hchange, houtcome⟩ :=
      happen_outcome hresult fun timer heq => htimer ⟨timer, heq⟩
    exact (h.socketChange hchange).outcome houtcome not_critical_nil

end Chahua.Transport

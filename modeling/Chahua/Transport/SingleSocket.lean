import Chahua.Transport.OlderEpochs

namespace Chahua.Transport

open Framework

variable {s u : Machine} {event : Event}

theorem Inv.step (h : Inv s.transport s.stack) (hcalm : Calm s event)
    (hstep : step s event = some u) : Inv u.transport u.stack := by
  obtain ⟨t, stack⟩ := s
  cases event with
  | operate operation =>
    match stack, hstep with
    | [], hstep =>
      obtain rfl := Option.some.inj hstep
      have hinv := h.operate hcalm
      rwa [List.append_nil] at hinv
    | .publish :: rest, hstep =>
      obtain rfl := Option.some.inj hstep
      exact h.operate hcalm
  | happen event =>
    match stack, hstep with
    | [], hstep =>
      obtain ⟨result, hresult, rfl⟩ := Option.map_eq_some_iff.mp hstep
      have hinv := h.happen hresult
      rwa [List.append_nil] at hinv
  | run outside =>
    match stack, hstep with
    | task :: rest, hstep =>
      have hexec : u = ⟨(t.exec outside task).1, (t.exec outside task).2 ++ rest⟩ := by
        cases task <;> first | exact (Option.some.inj hstep).symm | cases hstep
      subst hexec
      exact h.exec outside
  | done =>
    match stack, hstep with
    | .publish :: rest, hstep =>
      obtain rfl := Option.some.inj hstep
      exact h.pop

/-- A transport before its first `open`. -/
def fresh : Machine where
  transport := {
    state := .closed, sockets := [], socket := none, attempt := none, epoch := 0
    requestNumber := 0, reconnectToken := none, reconnectTimer := none, reconnects := []
    handshakeTimer := none, handshakes := [], nextTimer := 0, heartbeatTimer := false
    calls := [], pending := [], ordinaryQueue := [], controlQueue := [], ordinarySent := 0
    controlSent := false, queuedBytes := 0, retryAttempt := 0, retryAllowed := false
    hasAuthenticatedSession := false, pingOutstanding := false, lastHeartbeat := 0
    wasForeground := true, openSubscriber := none, closeRequested := false, invalidated := false }
  stack := []

theorem inv_fresh : Inv fresh.transport fresh.stack := by
  refine ⟨⟨⟨fun i c hc => ?_, ⟨List.nodup_nil, fun i hi => ?_⟩, fun i c hc => ?_⟩, trivial,
    Nat.zero_le 1,
    fun calls error hmem => ?_, fun i s hs => ?_, .inl rfl, fun e he => ?_⟩, fun hnear => ?_,
    fun harmed => absurd rfl harmed, fun appVersion hmem => ?_, fun hclosed => ?_, fun hinvalid => ?_⟩
  · simp [fresh] at hc
  · cases hi
  · simp [fresh] at hc
  · cases hmem
  · simp [fresh] at hs
  · cases he
  · exact hnear.elim (fun hc => absurd hc not_critical_nil) fun harmed => absurd rfl harmed
  · cases hmem
  · cases hclosed
  · cases hinvalid

theorem inv_run {history : List Event} (hcalm : Along step Calm fresh history)
    (h : run step fresh history = some s) : Inv s.transport s.stack :=
  run_invariant_along (I := fun s => Inv s.transport s.stack)
    (fun _ _ _ hinv hcalm hstep => hinv.step hcalm hstep) inv_fresh hcalm h

/-- No socket is created, and an invalidation stays. -/
structure Resting (t u : RpcTransport) : Prop where
  sockets : u.sockets.length = t.sockets.length
  invalidated : t.invalidated = true → u.invalidated = true

section Resting

variable {t v w : RpcTransport} {result : RpcTransport × List Task}

theorem Resting.refl (t : RpcTransport) : Resting t t := ⟨rfl, fun h => h⟩

theorem Resting.trans (h : Resting t v) (h' : Resting v w) : Resting t w :=
  ⟨h'.sockets.trans h.sockets, fun hinvalid => h'.invalidated (h.invalidated hinvalid)⟩

theorem Resting.of_keeps (h : RpcTransport.Keeps t v) : Resting t v :=
  ⟨congrArg List.length h.sockets, fun hinvalid => h.invalidated.trans hinvalid⟩

theorem resting_stopCurrent (h : t.CallsOk) (error : CallError) (reconnect : Bool) :
    Resting t (t.stopCurrent error reconnect).1 := by
  obtain ⟨hstopped, -⟩ := RpcTransport.stopCurrent_spec h error reconnect
  exact ⟨hstopped.created, fun hinvalid => hstopped.invalidated.trans hinvalid⟩

theorem resting_outcome (h : t.CallsOk) (hresult : t.Outcome result) : Resting t result.1 := by
  cases hresult with
  | keeps hkeeps => exact .of_keeps hkeeps
  | enters hnot hkeeps =>
    have hrest := Resting.of_keeps hkeeps
    exact ⟨hrest.sockets, hrest.invalidated⟩
  | @stops v error reconnect tail hresets =>
    have hcalls := hresets.keeps.calls h
    have hstop := resting_stopCurrent (t := v) ⟨hcalls.pending, hcalls.made, hcalls.epoch⟩ error
      reconnect
    have hreset : Resting t v := ⟨congrArg List.length hresets.keeps.sockets, hresets.kept⟩
    exact hreset.trans hstop

theorem resting_socketChange (h : SocketChange t v) : Resting t v := by
  obtain rfl | ⟨socket, s, -, -, rfl⟩ | ⟨socket, rfl⟩ := h
  · exact .refl v
  · exact ⟨List.length_modify .., fun hinvalid => hinvalid⟩
  · exact ⟨List.length_modify .., fun hinvalid => hinvalid⟩

theorem resting_operate (h : t.CallsOk) {operation : Operation}
    (hopen : ∀ token appVersion, operation ≠ .open token appVersion) :
    Resting t (t.operate operation).1 := by
  cases operation with
  | «open» token appVersion => exact absurd rfl (hopen token appVersion)
  | cancelOpening epoch =>
    unfold RpcTransport.operate
    dsimp only
    split
    · have hstop := resting_stopCurrent
        (t := { t with openSubscriber := none, retryAllowed := false })
        ⟨h.pending, h.made, h.epoch⟩
        (.transport .disconnected "Opening the RPC session was cancelled") false
      exact ⟨hstop.sockets, hstop.invalidated⟩
    · exact .refl t
  | close =>
    have hstop := resting_stopCurrent
      (t := { t with
        closeRequested := true
        retryAllowed := false
        reconnectToken := none
        hasAuthenticatedSession := false })
      ⟨h.pending, h.made, h.epoch⟩ (.transport .disconnected "The RPC transport was closed") false
    exact ⟨hstop.sockets, hstop.invalidated⟩
  | setReconnectToken token => exact ⟨rfl, fun hinvalid => hinvalid⟩
  | call method bytes => exact resting_outcome h (call_outcome t method bytes)
  | unsubscribe call => exact resting_outcome h (unsubscribe_outcome t call)

theorem resting_happen (h : t.CallsOk) (hnil : t.reconnects = []) {event : External}
    (hresult : t.happen event = some result) : Resting t result.1 := by
  by_cases htimer : ∃ timer, event = .reconnectTimeout timer
  · obtain ⟨timer, rfl⟩ := htimer
    simp [RpcTransport.happen, hnil] at hresult
  · obtain ⟨v, hchange, houtcome⟩ :=
      happen_outcome hresult fun timer heq => htimer ⟨timer, heq⟩
    have hcalls : v.CallsOk := by
      obtain rfl | ⟨socket, s, -, -, rfl⟩ | ⟨socket, rfl⟩ := hchange
      · exact h
      · exact ⟨h.pending, h.made, h.epoch⟩
      · exact ⟨h.pending, h.made, h.epoch⟩
    exact (resting_socketChange hchange).trans (resting_outcome hcalls houtcome)

theorem resting_exec (h : t.CallsOk) (outside : Outside) {task : Task}
    (htask : task.isCritical = false) : Resting t (t.exec outside task).1 := by
  cases hwork : task.isWork with
  | true => exact resting_outcome h (t.exec_outcome outside hwork)
  | false =>
    cases task with
    | publish => exact .refl t
    | finishOpenError epoch error => exact .of_keeps (t.finishOpen_keeps epoch)
    | rejectPending calls error =>
      cases calls with
      | nil => exact .refl t
      | cons call calls =>
        have hreject := resting_outcome h (t.rejectCall_outcome call error)
        exact ⟨hreject.sockets, hreject.invalidated⟩
    | beginOpen token appVersion | makeSocket epoch | armReconnect appVersion => cases htask
    | notifyInvalidated stoppedEpoch | rejectCall call error | admitCall call | send call | pump
    | supersede call | sendAppState | startHeartbeat | notifyOpen epoch | respond call body
    | settle call body => cases hwork

end Resting

theorem resting_step (h : Inv s.transport s.stack) (hinvalid : s.transport.invalidated = true)
    (hopen : ∀ token appVersion, event ≠ .operate (.open token appVersion))
    (hstep : step s event = some u) : Resting s.transport u.transport := by
  obtain ⟨t, stack⟩ := s
  obtain ⟨-, hstack, hnil⟩ := h.invalid hinvalid
  cases event with
  | operate operation =>
    have hoperate : Resting t (t.operate operation).1 :=
      resting_operate h.calls fun token appVersion heq => hopen token appVersion (by rw [heq])
    match stack, hstep with
    | [], hstep =>
      obtain rfl := Option.some.inj hstep
      exact hoperate
    | .publish :: rest, hstep =>
      obtain rfl := Option.some.inj hstep
      exact hoperate
  | happen event =>
    match stack, hstep with
    | [], hstep =>
      obtain ⟨result, hresult, rfl⟩ := Option.map_eq_some_iff.mp hstep
      exact resting_happen h.calls hnil hresult
  | run outside =>
    match stack, hstep with
    | task :: rest, hstep =>
      have hexec : u = ⟨(t.exec outside task).1, (t.exec outside task).2 ++ rest⟩ := by
        cases task <;> first | exact (Option.some.inj hstep).symm | cases hstep
      subst hexec
      refine resting_exec h.calls outside ?_
      cases htask : task.isCritical with
      | false => rfl
      | true => exact absurd ⟨task, List.mem_cons_self, htask⟩ hstack
  | done =>
    match stack, hstep with
    | .publish :: rest, hstep =>
      obtain rfl := Option.some.inj hstep
      exact .refl t

def opens : Event → Bool
  | .operate (.open _ _) => true
  | _ => false

theorem resting_run (h : Inv s.transport s.stack) (hinvalid : s.transport.invalidated = true)
    {later : List Event} (hcalm : Along step Calm s later)
    (hopen : ∀ event ∈ later, opens event = false) (hrun : run step s later = some u) :
    Resting s.transport u.transport := by
  induction later generalizing s with
  | nil =>
    obtain rfl := Option.some.inj hrun
    exact .refl _
  | cons event later ih =>
    obtain ⟨r, hstep, hrun⟩ := run_cons_eq_some.mp hrun
    have hfirst : Resting s.transport r.transport := by
      apply resting_step h hinvalid _ hstep
      intro token appVersion heq
      have hnot := hopen event List.mem_cons_self
      rw [heq] at hnot
      cases hnot
    have hrest := ih (h.step hcalm.1 hstep) (hfirst.invalidated hinvalid) (hcalm.2 r hstep)
      (fun other hmem => hopen other (List.mem_cons_of_mem _ hmem)) hrun
    exact hfirst.trans hrest

/-- The event is about a socket, a handshake deadline or a call of another epoch. The reconnect
timer and the heartbeat are cleared with their epoch. -/
def Outdated (t : RpcTransport) : External → Prop
  | .socketOpen socket _ | .socketMessage socket _ _ | .socketClose socket =>
    ∀ s, t.sockets[socket]? = some s → s.epoch ≠ t.epoch
  | .handshakeTimeout timer => ∀ armed ∈ t.handshakes, armed.1 = timer → armed.2 ≠ t.epoch
  | .requestTimeout call | .leaseTimeout call => ∀ c, t.calls[call]? = some c → c.epoch ≠ t.epoch
  | _ => False

/-- The call without its timers. -/
def PendingCall.untimed (c : PendingCall) : PendingCall :=
  { c with timer := false, leaseTimer := false }

theorem untimed_modify {t : RpcTransport} {call : Nat} {f : PendingCall → PendingCall}
    (hf : ∀ c, (f c).untimed = c.untimed) :
    (t.calls.modify call f).map PendingCall.untimed = t.calls.map PendingCall.untimed := by
  apply List.ext_getElem?
  intro i
  rw [List.getElem?_map, List.getElem?_map, List.getElem?_modify]
  cases t.calls[i]? with
  | none => rfl
  | some c =>
    by_cases hi : call = i
    · simp [hi, hf]
    · simp [hi]

theorem isCurrent_of_outdated {t : RpcTransport} {socket : Nat}
    (h : ∀ s, t.sockets[socket]? = some s → s.epoch ≠ t.epoch) : t.isCurrent socket = false := by
  cases hs : t.sockets[socket]? with
  | none => simp [RpcTransport.isCurrent, hs]
  | some s => simp [RpcTransport.isCurrent, hs, h s hs]

/-- An outdated event changes the socket or the deadline it is about and the timers of calls. -/
structure Elapses (t : RpcTransport) (result : RpcTransport × List Task) : Prop where
  rest : result = ({ t with
    sockets := result.1.sockets, handshakes := result.1.handshakes, calls := result.1.calls }, [])
  calls : result.1.calls.map PendingCall.untimed = t.calls.map PendingCall.untimed

theorem happen_outdated {t : RpcTransport} {event : External} {result : RpcTransport × List Task}
    (hok : t.CallsOk) (h : Outdated t event) (hresult : t.happen event = some result) :
    Elapses t result := by
  have hended : ∀ {call : Nat} {c : PendingCall},
      (∀ c : PendingCall, t.calls[call]? = some c → c.epoch ≠ t.epoch) →
      t.calls[call]? = some c → ¬c.active = true := by
    intro call c hne hc hactive
    exact hne c hc ((hok.epoch call c hc).2 hactive)
  cases event with
  | socketOpen socket bytes =>
    have hcurrent := isCurrent_of_outdated h
    simp only [RpcTransport.happen, hcurrent] at hresult
    split at hresult
    · split at hresult
      · obtain rfl := Option.some.inj hresult
        exact ⟨rfl, rfl⟩
      · cases hresult
    · cases hresult
  | socketMessage socket bytes frame =>
    have hcurrent := isCurrent_of_outdated h
    simp only [RpcTransport.happen, hcurrent] at hresult
    split at hresult
    · split at hresult
      · obtain rfl := Option.some.inj hresult
        exact ⟨rfl, rfl⟩
      · cases hresult
    · cases hresult
  | socketClose socket =>
    have hcurrent := isCurrent_of_outdated h
    simp only [RpcTransport.happen, hcurrent] at hresult
    split at hresult
    · split at hresult
      · cases hresult
      · obtain rfl := Option.some.inj hresult
        exact ⟨rfl, rfl⟩
    · cases hresult
  | handshakeTimeout timer =>
    simp only [RpcTransport.happen] at hresult
    split at hresult
    · next armed hfound =>
      obtain rfl := Option.some.inj hresult
      have hne : armed.2 ≠ t.epoch :=
        h armed (List.mem_of_find?_eq_some hfound) (by simpa using List.find?_some hfound)
      unfold RpcTransport.rejectSessionOpen
      rw [if_pos hne]
      exact ⟨rfl, rfl⟩
    · cases hresult
  | requestTimeout call =>
    simp only [RpcTransport.happen] at hresult
    split at hresult
    · next c hc =>
      split at hresult
      · obtain rfl := Option.some.inj hresult
        unfold RpcTransport.requestTimeout
        dsimp only
        rw [if_pos (hended h hc)]
        exact ⟨rfl, untimed_modify fun _ => rfl⟩
      · cases hresult
    · cases hresult
  | leaseTimeout call =>
    simp only [RpcTransport.happen] at hresult
    split at hresult
    · next c hc =>
      rw [if_neg (hended h hc)] at hresult
      split at hresult
      · obtain rfl := Option.some.inj hresult
        exact ⟨rfl, untimed_modify fun _ => rfl⟩
      · cases hresult
    · cases hresult
  | reconnectTimeout timer | heartbeat now bytes | lifecycleChange foreground now bytes =>
    exact h.elim

theorem left_fresh : Left fresh [] :=
  ⟨List.nil_suffix, fun hne => absurd rfl hne, List.forall_mem_nil _, List.forall_mem_nil _,
    sheltered_of_guarded (List.forall_mem_nil _)⟩

theorem left_run {history : List Event} {old : List Task} (h : Left s old)
    (hinv : Inv s.transport s.stack) (hcalm : Along step Calm s history)
    (hrun : run step s history = some u) : Left u (older s old history) := by
  induction history generalizing s old with
  | nil =>
    obtain rfl := Option.some.inj hrun
    exact h
  | cons event history ih =>
    obtain ⟨r, hstep, hrun⟩ := run_cons_eq_some.mp hrun
    have hrest := ih (left_step h hinv hcalm.1 hstep) (hinv.step hcalm.1 hstep)
      (hcalm.2 r hstep) hrun
    unfold older
    rw [hstep]
    exact hrest

/-- However observers call back, as long as none ends the session while a function has still to make
its socket, to arm its timer or to start its heartbeat: the only socket that is not closed is the
owned one, the only reconnect timer waits for a transport without a socket that was not closed, what
belongs to another epoch (an event, a response, what a running function has still to do) changes
nothing, and an invalidated transport creates no socket until it is opened. -/
theorem single_socket {history : List Event} (hcalm : Along step Calm fresh history)
    (h : run step fresh history = some s) :
    (∀ (i : Nat) (x : Socket), s.transport.sockets[i]? = some x → x.readyState ≠ .closed →
      s.transport.socket = some i) ∧
    (s.transport.reconnects.length ≤ 1 ∧ (s.transport.reconnects ≠ [] →
      s.transport.socket = none ∧ s.transport.closeRequested = false)) ∧
    ((∀ event u, Outdated s.transport event → step s (.happen event) = some u →
      Elapses s.transport (u.transport, u.stack)) ∧
      (∀ call ∈ s.transport.pending, ∃ c : PendingCall, s.transport.calls[call]? = some c ∧
        c.epoch = s.transport.epoch) ∧
      (∀ (call : Nat) (c : PendingCall) (error : CallError), s.transport.calls[call]? = some c →
        c.epoch ≠ s.transport.epoch → (s.transport.rejectCall call error).1 = s.transport) ∧
      ∀ outside u, s.stack = older fresh [] history → step s (.run outside) = some u →
        Untouched s.transport u.transport) ∧
    (s.transport.invalidated = true → ∀ later u, Along step Calm s later →
      (∀ event ∈ later, opens event = false) → run step s later = some u →
      u.transport.sockets.length = s.transport.sockets.length) := by
  have hinv := inv_run hcalm h
  have hleft := left_run left_fresh inv_fresh hcalm h
  refine ⟨hinv.live,
    ⟨?_, fun harmed => ⟨(hinv.parked (.inr harmed)).socket, (hinv.armed harmed).2⟩⟩,
    ⟨?_, fun call hmem => ?_, fun call c error hc hne => rejectCall_outdated hc hne error, ?_⟩,
    fun hinvalid later u hcalm hopen hrun => (resting_run hinv hinvalid hcalm hopen hrun).sockets⟩
  · rcases hinv.timer with hnil | ⟨id, appVersion, hone, -⟩
    · simp [hnil]
    · simp [hone]
  · intro event u houtdated hstep
    obtain ⟨t, stack⟩ := s
    match stack, hstep with
    | [], hstep =>
      obtain ⟨result, hresult, rfl⟩ := Option.map_eq_some_iff.mp hstep
      exact happen_outdated hinv.calls houtdated hresult
  · obtain ⟨c, hc, hactive⟩ := hinv.calls.made.2 call hmem
    exact ⟨c, hc, (hinv.calls.epoch call c hc).2 hactive⟩
  · intro outside u hwhole hstep
    obtain ⟨t, stack⟩ := s
    match stack, hstep with
    | task :: rest, hstep =>
      have hexec : u = ⟨(t.exec outside task).1, (t.exec outside task).2 ++ rest⟩ := by
        cases task <;> first | exact (Option.some.inj hstep).symm | cases hstep
      subst hexec
      rw [← hwhole] at hleft
      obtain ⟨hguard, hdate⟩ := hleft.guarded task List.mem_cons_self
      exact (idles_exec (hleft.quiet (List.cons_ne_nil task rest)) hguard hdate outside).untouched

def succeeding : Outside := ⟨true, 0, 10⟩

/-- A session is opened and authenticated. -/
def authenticating : List Event :=
  [.operate (.open (some "token") "1"), .done, .run succeeding, .run succeeding, .run succeeding,
    .done, .run succeeding, .happen (.socketOpen 0 10), .run succeeding, .run succeeding,
    .happen (.socketMessage 0 10 (.response 1 (.result (.sessionOpen true)))), .run succeeding,
    .run succeeding, .run succeeding, .done, .run succeeding, .run succeeding, .run succeeding,
    .run succeeding, .run succeeding, .done]

/-- Its socket closes, and an observer of the state opens a new session. -/
def reopening : List Event :=
  [.happen (.socketClose 0), .operate (.open (some "token") "1"), .done, .run succeeding,
    .run succeeding, .run succeeding, .done, .run succeeding, .done, .run succeeding]

/-- It goes to the background, and an observer closes it when it is in the foreground again. -/
def closing : List Event :=
  [.happen (.lifecycleChange false 0 10), .run succeeding, .happen (.lifecycleChange true 0 10),
    .operate .close, .done, .run succeeding, .run succeeding, .run succeeding, .run succeeding,
    .done]

/-- The report of the state that the handler of the foreground had still to make changes nothing. -/
theorem single_socket_closed : ∃ s u, run step fresh (authenticating ++ closing) = some s ∧
    s.stack = [.sendAppState] ∧ step s (.run succeeding) = some u ∧
    Untouched s.transport u.transport ∧ s.transport.reconnects.length ≤ 1 := by
  have hcalm : Along step Calm fresh (authenticating ++ closing) := by decide +kernel
  have hrun : (run step fresh (authenticating ++ closing)).any (fun s =>
      decide (s.stack = [.sendAppState] ∧ older fresh [] (authenticating ++ closing) = s.stack) &&
        (step s (.run succeeding)).isSome) = true := by
    decide +kernel
  cases h : run step fresh (authenticating ++ closing) with
  | none =>
    rw [h] at hrun
    cases hrun
  | some s =>
    rw [h] at hrun
    obtain ⟨hstack, hu⟩ := Bool.and_eq_true_iff.mp hrun
    obtain ⟨hstack, hold⟩ := of_decide_eq_true hstack
    obtain ⟨u, hstep⟩ := Option.isSome_iff_exists.mp hu
    obtain ⟨-, ⟨hone, -⟩, ⟨-, -, -, hleft⟩, -⟩ := single_socket hcalm h
    exact ⟨s, u, rfl, hstack, hstep, hleft succeeding u hold.symm hstep, hone⟩

/-- `scheduleReconnect` arms its timer beside the socket that the observer's session owns. -/
theorem reopened_with_timer : ∃ history s, run step fresh history = some s ∧
    s.transport.socket = some 1 ∧ s.transport.reconnects ≠ [] := by
  have hrun : (run step fresh (authenticating ++ reopening)).any (fun s =>
      decide (s.transport.socket = some 1 ∧ s.transport.reconnects ≠ [])) = true := by
    decide +kernel
  cases h : run step fresh (authenticating ++ reopening) with
  | none =>
    rw [h] at hrun
    cases hrun
  | some s =>
    rw [h] at hrun
    exact ⟨_, s, h, of_decide_eq_true hrun⟩

end Chahua.Transport

import Chahua.Transport.Reconnection

namespace Chahua.Transport

variable {t u v : RpcTransport} {stack rest tasks : List Task}

/-- The rejection of a call of another epoch only runs its callback. -/
theorem rejectCall_outdated {call : Nat} {c : PendingCall}
    (hc : t.calls[call]? = some c) (h : c.epoch ≠ t.epoch) (error : CallError) :
    (t.rejectCall call error).1 = t := by
  unfold RpcTransport.rejectCall
  rw [hc]
  show (t.reject c.owner c.epoch error).1 = t
  cases c.owner with
  | subscriber | internal => rfl
  | sessionOpen =>
    show (t.rejectSessionOpen c.epoch error).1 = t
    unfold RpcTransport.rejectSessionOpen
    rw [if_pos h]
  | ping =>
    show { t with pingOutstanding := t.pingOutstanding && decide (c.epoch ≠ t.epoch) } = t
    rw [decide_eq_true h, Bool.and_true]

theorem not_isActive_of_quiet (h : t.Quiet) (call : Nat) : t.isActive call = false := by
  unfold RpcTransport.isActive
  cases hc : t.calls[call]? with
  | none => rfl
  | some c => exact (h.calls call c hc).1

theorem release_of_quiet (h : t.Quiet) (call : Nat) : t.release call = none := by
  unfold RpcTransport.release
  split
  · rfl
  · next c hc => rw [if_neg (by rw [(h.calls call c hc).1]; decide)]

theorem quiet_stopCurrent (h : t.CallsOk) (error : CallError) (reconnect : Bool) :
    (t.stopCurrent error reconnect).1.Quiet := by
  obtain ⟨hstopped, hstate, -⟩ := RpcTransport.stopCurrent_spec h error reconnect
  refine RpcTransport.Parked.quiet ⟨hstopped.socket, hstopped.stale, ?_⟩
  rcases hstate with hstate | hstate
  · rw [hstate]
    exact ⟨by decide, by decide⟩
  · rw [hstate]
    exact ⟨by decide, by decide⟩

theorem RpcTransport.Resets.callsOk (h : RpcTransport.Resets t v) (ht : t.CallsOk) : v.CallsOk := by
  have hcalls := h.keeps.calls ht
  exact ⟨hcalls.pending, hcalls.made, hcalls.epoch⟩

theorem quiet_outcome {result : RpcTransport × List Task} (hok : t.CallsOk) (h : t.Quiet)
    (hresult : t.Outcome result) : result.1.Quiet := by
  cases hresult with
  | keeps hkeeps => exact hkeeps.quiet h
  | enters hnot => exact absurd h hnot
  | @stops v error reconnect tail hresets =>
    exact quiet_stopCurrent (hresets.callsOk hok) error reconnect

/-- Whatever runs in a quiet transport leaves it quiet. -/
theorem quiet_exec (hok : t.CallsOk) (h : t.Quiet) (outside : Outside) (task : Task) :
    (t.exec outside task).1.Quiet := by
  cases hwork : task.isWork with
  | true => exact quiet_outcome hok h (t.exec_outcome outside hwork)
  | false =>
    cases task with
    | publish => exact h
    | beginOpen token appVersion =>
      exact ⟨h.ready, fun i c hc => ⟨(h.calls i c hc).1, Nat.lt_succ_of_lt (h.calls i c hc).2⟩,
        (by decide : RpcConnectionState.connecting ≠ .authenticated ∧
          RpcConnectionState.connecting ≠ .anonymous)⟩
    | makeSocket epoch =>
      show (t.makeSocket epoch outside).1.Quiet
      unfold RpcTransport.makeSocket
      split
      · exact ⟨by simp [RpcTransport.isReady], h.calls, h.state⟩
      · exact ⟨h.ready, h.calls, (by decide : RpcConnectionState.closed ≠ .authenticated ∧
          RpcConnectionState.closed ≠ .anonymous)⟩
    | armReconnect appVersion => exact ⟨h.ready, h.calls, h.state⟩
    | finishOpenError epoch error => exact (t.finishOpen_keeps epoch).quiet h
    | rejectPending calls error =>
      cases calls with
      | nil => exact h
      | cons call calls =>
        have hquiet := quiet_outcome hok h (t.rejectCall_outcome call error)
        exact ⟨hquiet.ready, hquiet.calls, hquiet.state⟩
    | notifyInvalidated stoppedEpoch | rejectCall call error | admitCall call | send call | pump
    | supersede call | sendAppState | startHeartbeat | notifyOpen epoch | respond call body
    | settle call body => cases hwork

/-- An operation that ends the session changes neither the calls nor the epoch before it stops. -/
theorem operate_ends {operation : Operation} (h : Ends ⟨t, stack⟩ (.operate operation)) :
    ∃ (v : RpcTransport) (error : CallError) (tail : List Task),
      (v.calls = t.calls ∧ v.pending = t.pending ∧ v.epoch = t.epoch) ∧
      (tail = [] ∨ ∃ token appVersion, tail = [.beginOpen token appVersion]) ∧
      t.operate operation =
        ((v.stopCurrent error false).1, (v.stopCurrent error false).2 ++ tail) := by
  cases operation with
  | «open» token appVersion =>
    exact ⟨{ t with closeRequested := false, invalidated := false },
      .transport .disconnected "A new RPC session was opened", [.beginOpen token appVersion],
      ⟨rfl, rfl, rfl⟩, .inr ⟨token, appVersion, rfl⟩, rfl⟩
  | close =>
    refine ⟨{ t with
        closeRequested := true
        retryAllowed := false
        reconnectToken := none
        hasAuthenticatedSession := false },
      .transport .disconnected "The RPC transport was closed", [], ⟨rfl, rfl, rfl⟩, .inl rfl, ?_⟩
    rw [List.append_nil]
    rfl
  | cancelOpening epoch =>
    refine ⟨{ t with openSubscriber := none, retryAllowed := false },
      .transport .disconnected "Opening the RPC session was cancelled", [], ⟨rfl, rfl, rfl⟩,
      .inl rfl, ?_⟩
    rw [List.append_nil]
    exact if_pos h
  | setReconnectToken token | call method bytes | unsubscribe call => exact h.elim

theorem callsOk_of_eq (h : t.CallsOk) (hcalls : v.calls = t.calls)
    (hpending : v.pending = t.pending) (hepoch : v.epoch = t.epoch) : v.CallsOk := by
  refine ⟨?_, ?_, ?_⟩
  · rw [hcalls, hpending]
    exact h.pending
  · rw [hcalls, hpending]
    exact h.made
  · rw [hcalls, hepoch]
    exact h.epoch

theorem reject_epoch {owner : Owner} (h : owner ≠ .sessionOpen) (epoch : Nat) (error : CallError) :
    (t.reject owner epoch error).1.epoch = t.epoch := by
  cases owner with
  | sessionOpen => exact absurd rfl h
  | subscriber | ping | internal => rfl

theorem createPending_epoch {owner : Owner} (h : owner ≠ .sessionOpen) (method : String)
    (bytes : Nat) : (t.createPending method bytes owner).1.epoch = t.epoch := by
  unfold RpcTransport.createPending
  dsimp only
  split
  · exact reject_epoch h _ _
  · split
    · next previous hprevious =>
      cases hreleased : RpcTransport.release _ previous with
      | none => rfl
      | some released =>
        exact (RpcTransport.Keeps.of_release hreleased).epoch
    · rfl

theorem respond_epoch (call : Nat) (body : Body) (outside : Outside) :
    (t.respond call body outside).1.epoch = t.epoch := by
  obtain ⟨u, hkeeps, ⟨v, hreleased, heq⟩ | heq⟩ := t.respond_cases call body outside
  · rw [heq]
    exact (RpcTransport.Keeps.of_release hreleased).epoch.trans hkeeps.epoch
  · rw [heq]
    exact hkeeps.epoch

theorem pump_epoch (t : RpcTransport) : t.pump.1.epoch = t.epoch := by
  have hcontrol : t.pumpControl.1.epoch = t.epoch := by
    unfold RpcTransport.pumpControl
    split
    · split <;> rfl
    · rfl
  unfold RpcTransport.pump
  split
  · split
    · rfl
    · exact hcontrol
  · exact hcontrol

theorem not_isOpening {call : Nat} {c : PendingCall} (h : ¬t.IsOpening call)
    (hc : t.calls[call]? = some c) : c.owner ≠ .sessionOpen :=
  fun howner => h ⟨c, hc, howner⟩

/-- Without an end of the session only the continuation of an `open` begins an epoch. -/
theorem exec_epoch {outside : Outside} {task : Task} (hinv : Inv t (task :: rest))
    (h : ¬Ends ⟨t, task :: rest⟩ (.run outside))
    (hbegin : ∀ token appVersion, task ≠ .beginOpen token appVersion) :
    (t.exec outside task).1.epoch = t.epoch := by
  cases task with
  | publish | armReconnect appVersion | notifyInvalidated stoppedEpoch | supersede call
  | startHeartbeat => rfl
  | beginOpen token appVersion => exact absurd rfl (hbegin token appVersion)
  | makeSocket epoch =>
    show (t.makeSocket epoch outside).1.epoch = t.epoch
    unfold RpcTransport.makeSocket
    split <;> rfl
  | finishOpenError epoch error => exact (t.finishOpen_keeps epoch).epoch
  | notifyOpen epoch => exact (t.finishOpen_keeps epoch).epoch
  | rejectPending calls error =>
    cases calls with
    | nil => rfl
    | cons call calls =>
      obtain ⟨c, hc, hstale⟩ := hinv.rejecting _ error List.mem_cons_self call List.mem_cons_self
      exact (rejectCall_stale hc hstale error).1.epoch
  | rejectCall call error =>
    show (t.rejectCall call error).1.epoch = t.epoch
    unfold RpcTransport.rejectCall
    split
    · next c hc => exact reject_epoch (not_isOpening h hc) _ _
    · rfl
  | admitCall call =>
    show (t.admitCall call).1.epoch = t.epoch
    unfold RpcTransport.admitCall
    split
    · rfl
    · split
      · rfl
      · split
        · split <;> rfl
        · split <;> rfl
  | send call =>
    show (t.send call outside).1.epoch = t.epoch
    unfold RpcTransport.send
    split
    · rfl
    · next c hc =>
      split
      · split
        · next hreleased => exact (RpcTransport.Keeps.of_release hreleased).epoch
        · rfl
      · next hready =>
        split
        · rfl
        · next hfails =>
          simp only [not_or, Bool.not_eq_true, Decidable.not_not] at hready
          refine absurd ⟨by simpa using hfails, by simpa using hready.2, ?_⟩ h
          simp only [RpcTransport.isActive, hc, Option.any_some]
          simpa using hready.1
  | pump => exact pump_epoch t
  | sendAppState =>
    show (t.sendAppState outside).1.epoch = t.epoch
    unfold RpcTransport.sendAppState
    split
    · exact createPending_epoch (by decide) _ _
    · rfl
  | respond call body => exact respond_epoch call body outside
  | settle call body =>
    show (t.settle call body outside).1.epoch = t.epoch
    unfold RpcTransport.settle
    split
    · rfl
    · next c hc =>
      have howner := not_isOpening h hc
      split
      · rfl
      · split
        · exact reject_epoch howner _ _
        · cases hc' : c.owner with
          | sessionOpen => exact absurd hc' howner
          | subscriber | ping | internal => rfl
        · rfl

theorem operate_epoch {operation : Operation} (h : ¬Ends ⟨t, stack⟩ (.operate operation)) :
    (t.operate operation).1.epoch = t.epoch := by
  cases operation with
  | «open» token appVersion | close => exact absurd trivial h
  | cancelOpening epoch =>
    have hnothing : t.operate (.cancelOpening epoch) = (t, []) := if_neg h
    rw [hnothing]
  | setReconnectToken token => rfl
  | call method bytes =>
    unfold RpcTransport.operate
    dsimp only
    split
    · exact createPending_epoch (by decide) method bytes
    · rfl
  | unsubscribe call =>
    unfold RpcTransport.operate
    dsimp only
    split
    · rfl
    · split
      · rfl
      · split
        · rfl
        · split
          · next hreleased => exact (RpcTransport.Keeps.of_release hreleased).epoch
          · rfl

/-- What any function does: epochs grow, calls keep their owners, what it leaves to do is no `open`
and is of no later epoch. -/
structure Follows (t : RpcTransport) (result : RpcTransport × List Task) : Prop where
  epoch : t.epoch ≤ result.1.epoch
  owners : ∀ (i : Nat) (c : PendingCall), t.calls[i]? = some c →
    ∃ c' : PendingCall, result.1.calls[i]? = some c' ∧ c'.owner = c.owner
  dated : ∀ task ∈ result.2, task.date ≤ result.1.epoch
  later : ∀ task ∈ result.2, ∀ token appVersion, task ≠ .beginOpen token appVersion

theorem follows_keeps (h : RpcTransport.Keeps t u)
    (htasks : ∀ task ∈ tasks, task.isPlain = true ∧ task.date ≤ t.epoch) :
    Follows t (u, tasks) := by
  refine ⟨Nat.le_of_eq h.epoch.symm, fun i c hc => ?_, fun task hmem => ?_,
    fun task hmem token appVersion heq => ?_⟩
  · obtain ⟨c', hc', -, howner⟩ := h.epochs i c hc
    exact ⟨c', hc', howner⟩
  · show task.date ≤ u.epoch
    rw [h.epoch]
    exact (htasks task hmem).2
  · obtain ⟨hplain, -⟩ := htasks task hmem
    rw [heq] at hplain
    cases hplain

theorem follows_stopCurrent (h : t.CallsOk) (error : CallError) (reconnect : Bool) :
    Follows t (t.stopCurrent error reconnect) := by
  obtain ⟨hstopped, -, published, htasks, hpublished⟩ :=
    RpcTransport.stopCurrent_spec h error reconnect
  have hmem : ∀ task ∈ (t.stopCurrent error reconnect).2, task.date ≤ t.epoch + 1 ∧
      ∀ token appVersion, task ≠ .beginOpen token appVersion := by
    rw [htasks]
    rcases hpublished with rfl | ⟨-, -, version, rfl⟩
    · simp [Task.date]
    · simp [Task.date]
  refine ⟨?_, fun i c hc => ?_, fun task htask => ?_, fun task htask => (hmem task htask).2⟩
  · rw [hstopped.epoch]
    exact Nat.le_succ t.epoch
  · obtain ⟨c', hc', -, howner⟩ := hstopped.epochs i c hc
    exact ⟨c', hc', howner⟩
  · rw [hstopped.epoch]
    exact (hmem task htask).1

theorem Follows.append {result : RpcTransport × List Task} (h : Follows t result)
    (htasks : ∀ task ∈ tasks, task.date ≤ t.epoch ∧
      ∀ token appVersion, task ≠ .beginOpen token appVersion) :
    Follows t (result.1, result.2 ++ tasks) := by
  refine ⟨h.epoch, h.owners, fun task hmem => ?_, fun task hmem => ?_⟩
  · rcases List.mem_append.mp hmem with hmem | hmem
    · exact h.dated task hmem
    · exact Nat.le_trans (htasks task hmem).1 h.epoch
  · rcases List.mem_append.mp hmem with hmem | hmem
    · exact h.later task hmem
    · exact (htasks task hmem).2

theorem follows_outcome {result : RpcTransport × List Task} (hok : t.CallsOk)
    (h : t.Outcome result) : Follows t result := by
  cases h with
  | keeps hkeeps htasks => exact follows_keeps hkeeps htasks
  | enters hnot hkeeps htasks =>
    obtain ⟨hepoch, howners, hdated, hlater⟩ := follows_keeps hkeeps htasks
    exact ⟨hepoch, howners, hdated, hlater⟩
  | @stops v error reconnect tail hresets htail =>
    have hepoch : v.epoch = t.epoch := hresets.keeps.epoch
    have hstop : Follows v ((v.stopCurrent error reconnect).1,
        (v.stopCurrent error reconnect).2 ++ tail) := by
      refine (follows_stopCurrent (hresets.callsOk hok) error reconnect).append fun task hmem => ?_
      obtain ⟨hplain, hdate⟩ := htail task hmem
      refine ⟨hepoch ▸ hdate, fun token appVersion heq => ?_⟩
      rw [heq] at hplain
      cases hplain
    refine ⟨hepoch ▸ hstop.epoch, fun i c hc => ?_, hstop.dated, hstop.later⟩
    obtain ⟨c', hc', -, howner⟩ := hresets.keeps.epochs i c hc
    obtain ⟨c'', hc'', howner'⟩ := hstop.owners i c' hc'
    exact ⟨c'', hc'', howner'.trans howner⟩

theorem follows_createSocket (appVersion : String) (reconnect subscriber : Bool) :
    Follows t (t.createSocket appVersion reconnect subscriber) := by
  refine ⟨Nat.le_succ t.epoch, fun i c hc => ⟨c, hc, rfl⟩, fun task hmem => ?_, fun task hmem => ?_⟩
  · simp only [RpcTransport.createSocket, List.mem_cons, List.not_mem_nil, or_false] at hmem
    rcases hmem with rfl | rfl
    · exact Nat.zero_le _
    · exact Nat.le_refl _
  · simp only [RpcTransport.createSocket, List.mem_cons, List.not_mem_nil, or_false] at hmem
    rcases hmem with rfl | rfl <;>
    · intro token appVersion heq
      cases heq

theorem follows_exec (hok : t.CallsOk) (outside : Outside) {task : Task}
    (hdate : task.date ≤ t.epoch) : Follows t (t.exec outside task) := by
  cases hwork : task.isWork with
  | true => exact follows_outcome hok (t.exec_outcome outside hwork)
  | false =>
    cases task with
    | publish => exact follows_keeps (.refl t) (List.forall_mem_nil _)
    | beginOpen token appVersion =>
      obtain ⟨hepoch, howners, hdated, hlater⟩ := @follows_createSocket { t with
        reconnectToken := token
        retryAllowed := true
        hasAuthenticatedSession := false
        retryAttempt := 0 } appVersion false true
      exact ⟨hepoch, howners, hdated, hlater⟩
    | makeSocket epoch =>
      show Follows t (t.makeSocket epoch outside)
      unfold RpcTransport.makeSocket
      split
      · exact ⟨Nat.le_refl _, fun i c hc => ⟨c, hc, rfl⟩,
        List.forall_mem_nil _, List.forall_mem_nil _⟩
      · exact ⟨Nat.le_refl _, fun i c hc => ⟨c, hc, rfl⟩,
          by simpa [Task.date, RpcTransport.transition] using hdate, by simp⟩
    | armReconnect appVersion => exact ⟨Nat.le_refl _, fun i c hc => ⟨c, hc, rfl⟩,
        List.forall_mem_nil _, List.forall_mem_nil _⟩
    | finishOpenError epoch error =>
      refine follows_keeps (t.finishOpen_keeps epoch) fun task hmem => ?_
      rw [t.finishOpen_tasks epoch task hmem]
      exact ⟨rfl, Nat.zero_le _⟩
    | rejectPending calls error =>
      cases calls with
      | nil => exact follows_keeps (.refl t) (List.forall_mem_nil _)
      | cons call calls =>
        exact (follows_outcome hok (t.rejectCall_outcome call error)).append (by simp [Task.date])
    | notifyInvalidated stoppedEpoch | rejectCall call error | admitCall call | send call | pump
    | supersede call | sendAppState | startHeartbeat | notifyOpen epoch | respond call body
    | settle call body => cases hwork

theorem quiet_operate (hok : t.CallsOk) (h : t.Quiet) (operation : Operation) :
    (t.operate operation).1.Quiet := by
  by_cases hends : Ends ⟨t, []⟩ (.operate operation)
  · obtain ⟨v, error, tail, ⟨hcalls, hpending, hepoch⟩, -, heq⟩ := operate_ends hends
    rw [heq]
    exact quiet_stopCurrent (callsOk_of_eq hok hcalls hpending hepoch) error false
  · cases operation with
    | «open» token appVersion | close => exact absurd trivial hends
    | cancelOpening epoch =>
      have hnothing : t.operate (.cancelOpening epoch) = (t, []) := if_neg hends
      rw [hnothing]
      exact h
    | setReconnectToken token => exact ⟨h.ready, h.calls, h.state⟩
    | call method bytes => exact quiet_outcome hok h (call_outcome t method bytes)
    | unsubscribe call => exact quiet_outcome hok h (unsubscribe_outcome t call)

theorem follows_happen (hok : t.CallsOk) {event : External} {result : RpcTransport × List Task}
    (hresult : t.happen event = some result) : Follows t result := by
  by_cases htimer : ∃ timer, event = .reconnectTimeout timer
  · obtain ⟨timer, rfl⟩ := htimer
    simp only [RpcTransport.happen] at hresult
    split at hresult
    · split at hresult
      · obtain rfl := Option.some.inj hresult
        obtain ⟨hepoch, howners, hdated, hlater⟩ := @follows_createSocket { t with
          reconnects := t.reconnects.filter (·.1 ≠ timer), reconnectTimer := none } _ true false
        exact ⟨hepoch, howners, hdated, hlater⟩
      · obtain rfl := Option.some.inj hresult
        exact ⟨Nat.le_refl _, fun i c hc => ⟨c, hc, rfl⟩,
        List.forall_mem_nil _, List.forall_mem_nil _⟩
    · cases hresult
  · obtain ⟨v, hchange, houtcome⟩ := happen_outcome hresult fun timer heq => htimer ⟨timer, heq⟩
    have hsame : v.calls = t.calls ∧ v.pending = t.pending ∧ v.epoch = t.epoch := by
      obtain rfl | ⟨socket, s, -, -, rfl⟩ | ⟨socket, rfl⟩ := hchange
      · exact ⟨rfl, rfl, rfl⟩
      · exact ⟨rfl, rfl, rfl⟩
      · exact ⟨rfl, rfl, rfl⟩
    obtain ⟨hepoch, howners, hdated, hlater⟩ :=
      follows_outcome (callsOk_of_eq hok hsame.1 hsame.2.1 hsame.2.2) houtcome
    rw [hsame.2.2] at hepoch
    rw [hsame.1] at howners
    exact ⟨hepoch, howners, hdated, hlater⟩

/-- Nothing changes but the subscription of an `open` of another epoch and what the queues hold of
calls that have ended. -/
structure Untouched (t u : RpcTransport) : Prop where
  rest : u = { t with
    openSubscriber := u.openSubscriber
    ordinaryQueue := u.ordinaryQueue
    controlQueue := u.controlQueue }
  subscriber : t.openSubscriber = some t.epoch → u.openSubscriber = t.openSubscriber
  queues : ∀ call, t.isActive call = true →
    (call ∈ t.ordinaryQueue → call ∈ u.ordinaryQueue) ∧
      (call ∈ t.controlQueue → call ∈ u.controlQueue)

theorem Untouched.refl (t : RpcTransport) : Untouched t t :=
  ⟨rfl, fun _ => rfl, fun _ _ => ⟨fun h => h, fun h => h⟩⟩

/-- Tasks of functions whose session has ended. -/
def Task.isIdle : Task → Bool
  | .publish | .pump | .rejectPending _ _ => true
  | _ => false

/-- What a function does and leaves to do once its session has ended. -/
structure Idles (t : RpcTransport) (result : RpcTransport × List Task) : Prop where
  untouched : Untouched t result.1
  tasks : ∀ task ∈ result.2, task.isIdle = true

theorem Idles.of_eq {result : RpcTransport × List Task} (h : result.1 = t)
    (htasks : ∀ task ∈ result.2, task = .publish) : Idles t result := by
  refine ⟨?_, fun task hmem => ?_⟩
  · rw [h]
    exact .refl t
  · rw [htasks task hmem]
    rfl

theorem Idles.nothing {result : RpcTransport × List Task} (h : result = (t, [])) :
    Idles t result := by
  rw [h]
  exact .of_eq rfl (List.forall_mem_nil _)

theorem idles_finishOpen {epoch : Nat} (h : epoch < t.epoch) : Idles t (t.finishOpen epoch) := by
  refine ⟨?_, fun task hmem => ?_⟩
  · unfold RpcTransport.finishOpen
    split
    · next hsubscriber =>
      refine ⟨rfl, fun hcurrent => ?_, fun _ _ => ⟨fun h => h, fun h => h⟩⟩
      rw [hsubscriber, Option.some.injEq] at hcurrent
      exact absurd hcurrent (Nat.ne_of_lt h)
    · exact .refl t
  · rw [t.finishOpen_tasks epoch task hmem]
    rfl

theorem idles_pump (h : t.Quiet) : Idles t t.pump := by
  have hended : ∀ call, t.isActive call ≠ true := by
    intro call
    rw [not_isActive_of_quiet h call]
    decide
  have hcontrol : Idles t t.pumpControl := by
    unfold RpcTransport.pumpControl
    split
    · split
      · exact .nothing rfl
      · refine ⟨⟨rfl, fun _ => rfl, fun call hactive => absurd hactive (hended call)⟩, ?_⟩
        rw [if_neg (hended _)]
        exact List.forall_mem_nil _
    · exact .nothing rfl
  unfold RpcTransport.pump
  split
  · split
    · refine ⟨⟨rfl, fun _ => rfl, fun call hactive => absurd hactive (hended call)⟩, ?_⟩
      rw [if_neg (hended _)]
      simp [Task.isIdle]
    · exact hcontrol
  · exact hcontrol

/-- The rejection of an ended call only runs its callback. -/
theorem idles_rejectCall (h : t.Quiet) (call : Nat) (error : CallError) :
    Idles t (t.rejectCall call error) := by
  cases hc : t.calls[call]? with
  | none =>
    apply Idles.nothing
    unfold RpcTransport.rejectCall
    rw [hc]
  | some c =>
    have hstale := (h.calls call c hc).2
    exact .of_eq (rejectCall_outdated hc (Nat.ne_of_lt hstale) error)
      (rejectCall_stale hc hstale error).2

theorem idles_settle (h : t.Quiet) {call : Nat} {body : Body}
    (hguard : ¬Unguarded t (.settle call body)) (outside : Outside) :
    Idles t (t.settle call body outside) := by
  unfold RpcTransport.settle
  split
  · exact .nothing rfl
  · next c hc =>
    split
    · exact .nothing rfl
    · cases body with
      | error code =>
        have hreject := idles_rejectCall h call (.rpc code)
        rw [RpcTransport.rejectCall, hc] at hreject
        exact hreject
      | malformedError => exact .nothing rfl
      | result value =>
        have hne : c.epoch ≠ t.epoch := Nat.ne_of_lt (h.calls call c hc).2
        obtain ⟨c', hc', howner⟩ := Decidable.not_not.mp hguard
        obtain rfl := Option.some.inj (hc.symm.trans hc')
        show Idles t (t.resolve c.owner c.epoch value outside.now)
        cases hcase : c.owner with
        | sessionOpen => exact absurd hcase howner
        | subscriber => exact .of_eq rfl fun task hmem => List.mem_singleton.mp hmem
        | internal => exact .nothing rfl
        | ping =>
          apply Idles.nothing
          show ({ t with pingOutstanding := t.pingOutstanding && decide (c.epoch ≠ t.epoch) }, []) =
            (t, [])
          rw [decide_eq_true hne, Bool.and_true]

/-- A function that its session has ended under changes nothing of what there is now. -/
theorem idles_exec (h : t.Quiet) {task : Task} (hguard : ¬Unguarded t task)
    (hdate : task.date < t.epoch) (outside : Outside) : Idles t (t.exec outside task) := by
  cases task with
  | publish => exact .nothing rfl
  | beginOpen token appVersion | makeSocket epoch | armReconnect appVersion | startHeartbeat
  | respond call body => exact absurd trivial hguard
  | finishOpenError epoch error => exact idles_finishOpen hdate
  | notifyOpen epoch => exact idles_finishOpen hdate
  | rejectPending calls error =>
    cases calls with
    | nil => exact .nothing rfl
    | cons call calls =>
      have hreject := idles_rejectCall h call error
      refine ⟨hreject.untouched, fun task hmem => ?_⟩
      rcases List.mem_append.mp hmem with hmem | hmem
      · exact hreject.tasks task hmem
      · rw [List.mem_singleton.mp hmem]
        rfl
  | notifyInvalidated stoppedEpoch =>
    refine .of_eq rfl fun task hmem => ?_
    simp only [RpcTransport.exec] at hmem
    split at hmem
    · exact List.mem_singleton.mp hmem
    · cases hmem
  | supersede call =>
    refine .of_eq rfl fun task hmem => ?_
    simp only [RpcTransport.exec, RpcTransport.supersede] at hmem
    split at hmem
    · exact List.mem_singleton.mp hmem
    · cases hmem
  | rejectCall call error => exact idles_rejectCall h call error
  | admitCall call =>
    refine .nothing ?_
    show t.admitCall call = (t, [])
    unfold RpcTransport.admitCall
    split
    · rfl
    · next c hc => rw [if_pos (by rw [(h.calls call c hc).1]; decide)]
  | send call =>
    refine .nothing ?_
    show t.send call outside = (t, [])
    unfold RpcTransport.send
    split
    · rfl
    · next c hc =>
      rw [if_pos (.inl (by rw [(h.calls call c hc).1]; decide)), release_of_quiet h call]
  | pump => exact idles_pump h
  | sendAppState =>
    refine .nothing ?_
    show t.sendAppState outside = (t, [])
    unfold RpcTransport.sendAppState
    rw [if_neg h.state.1]
  | settle call body => exact idles_settle h hguard outside

/-- The tasks at the bottom of the stack that were left by an epoch that has ended since. -/
def olderAfter (s : Machine) (old : List Task) (event : Event) (u : Machine) : List Task :=
  if u.transport.epoch ≠ s.transport.epoch then kept s event
  else match event with
    | .run _ | .done => if s.stack = old then u.stack else old
    | .operate _ | .happen _ => old

def older (s : Machine) (old : List Task) : List Event → List Task
  | [] => old
  | event :: history =>
    match step s event with
    | some u => older u (olderAfter s old event u) history
    | none => old

/-- Below an `open` no task acts on whatever session there is. -/
def Sheltered (t : RpcTransport) (stack : List Task) : Prop :=
  ∀ front token appVersion rest, stack = front ++ .beginOpen token appVersion :: rest →
    ∀ task ∈ rest, ¬Unguarded t task

/-- What is left of older epochs, while there is any, lies below what the stopped transport does. -/
structure Left (s : Machine) (old : List Task) : Prop where
  below : old <:+ s.stack
  quiet : old ≠ [] → s.transport.Quiet
  guarded : ∀ task ∈ old, ¬Unguarded s.transport task ∧ task.date < s.transport.epoch
  dated : ∀ task ∈ s.stack, task.date ≤ s.transport.epoch
  sheltered : Sheltered s.transport s.stack

theorem Follows.guarded {result : RpcTransport × List Task} (h : Follows t result) {task : Task}
    (htask : ¬Unguarded t task) : ¬Unguarded result.1 task := by
  cases task with
  | settle call body =>
    cases body with
    | result value =>
      obtain ⟨c, hc, howner⟩ := Decidable.not_not.mp htask
      obtain ⟨c', hc', heq⟩ := h.owners call c hc
      exact fun hnot => hnot ⟨c', hc', heq ▸ howner⟩
    | error code | malformedError => exact htask
  | publish | beginOpen | makeSocket | armReconnect | finishOpenError | rejectPending
  | notifyInvalidated | rejectCall | admitCall | send | pump | supersede | sendAppState
  | startHeartbeat | notifyOpen | respond => exact htask

theorem Follows.dated_append {result : RpcTransport × List Task} (h : Follows t result)
    (hstack : ∀ task ∈ stack, task.date ≤ t.epoch) :
    ∀ task ∈ result.2 ++ stack, task.date ≤ result.1.epoch := by
  intro task hmem
  rcases List.mem_append.mp hmem with hmem | hmem
  · exact h.dated task hmem
  · exact Nat.le_trans (hstack task hmem) h.epoch

theorem Follows.sheltered {result : RpcTransport × List Task} (h : Follows t result)
    (hstack : Sheltered t stack) : Sheltered result.1 (result.2 ++ stack) := by
  intro front token appVersion rest heq task hmem
  apply h.guarded
  rcases List.append_eq_append_iff.mp heq with ⟨front', -, hrest⟩ | ⟨tail, htasks, hrest⟩
  · exact hstack front' token appVersion rest hrest task hmem
  · cases tail with
    | nil => exact hstack [] token appVersion rest hrest.symm task hmem
    | cons other tail =>
      obtain ⟨rfl, -⟩ := List.cons.inj hrest
      refine absurd rfl (h.later _ ?_ token appVersion)
      rw [htasks]
      exact List.mem_append_right _ List.mem_cons_self

theorem Sheltered.tail {task : Task} (h : Sheltered t (task :: rest)) : Sheltered t rest :=
  fun front token appVersion below heq =>
    h (task :: front) token appVersion below (by rw [heq, List.cons_append])

theorem sheltered_of_guarded (h : ∀ task ∈ stack, ¬Unguarded t task) : Sheltered t stack := by
  intro front token appVersion rest heq task hmem
  exact h task (heq ▸ List.mem_append_right _ (List.mem_cons_of_mem _ hmem))

theorem sheltered_beginOpen (h : ∀ task ∈ stack, ¬Unguarded t task) (token : Option String)
    (appVersion : String) : Sheltered t (.beginOpen token appVersion :: stack) := by
  intro front token' appVersion' rest heq task hmem
  cases front with
  | nil =>
    obtain ⟨-, rfl⟩ := List.cons.inj heq
    exact h task hmem
  | cons first front =>
    obtain ⟨-, rfl⟩ := List.cons.inj heq
    exact h task (List.mem_append_right _ (List.mem_cons_of_mem _ hmem))

/-- The epoch of a running function ends with its session. -/
theorem quiet_of_epoch {outside : Outside} {task : Task} (h : Inv t (task :: rest))
    (hepoch : (t.exec outside task).1.epoch ≠ t.epoch) : (t.exec outside task).1.Quiet := by
  cases hwork : task.isWork with
  | true =>
    have houtcome := t.exec_outcome outside hwork
    generalize t.exec outside task = result at houtcome hepoch ⊢
    cases houtcome with
    | keeps hkeeps => exact absurd hkeeps.epoch hepoch
    | enters hnot hkeeps => exact absurd hkeeps.epoch hepoch
    | @stops v error reconnect tail hresets =>
      exact quiet_stopCurrent (hresets.callsOk h.calls) error reconnect
  | false =>
    by_cases hbegin : ∃ token appVersion, task = .beginOpen token appVersion
    · obtain ⟨token, appVersion, rfl⟩ := hbegin
      exact quiet_exec h.calls (h.parked (.inl (critical_cons.mpr (.inl rfl)))).quiet outside _
    · refine absurd (exec_epoch h (fun hends => ?_) fun token appVersion heq =>
        hbegin ⟨token, appVersion, heq⟩) hepoch
      cases task <;> first | exact hends | cases hwork

theorem Left.operate {old : List Task} {operation : Operation} (h : Left ⟨t, stack⟩ old)
    (hok : t.CallsOk) (hcalm : Calm ⟨t, stack⟩ (.operate operation)) {u : Machine}
    (hu : u = ⟨(t.operate operation).1, (t.operate operation).2 ++ stack⟩) :
    Left u (olderAfter ⟨t, stack⟩ old (.operate operation) u) := by
  subst hu
  by_cases hends : Ends ⟨t, stack⟩ (.operate operation)
  · obtain ⟨v, error, tail, ⟨hcalls, hpending, hepoch⟩, htail, heq⟩ := operate_ends hends
    have hvok := callsOk_of_eq hok hcalls hpending hepoch
    have hguarded : ∀ task ∈ stack, ¬Unguarded t task := hcalm hends
    have hv : ∀ task ∈ stack, ¬Unguarded v task := by
      intro task hmem
      have hsame : Follows t (v, []) := ⟨Nat.le_of_eq hepoch.symm,
        fun i c hc => ⟨c, (congrArg (·[i]?) hcalls).trans hc, rfl⟩,
        List.forall_mem_nil _, List.forall_mem_nil _⟩
      exact hsame.guarded (hguarded task hmem)
    have hstop := follows_stopCurrent hvok error false
    obtain ⟨hstopped, -⟩ := RpcTransport.stopCurrent_spec hvok error false
    have hlater : (v.stopCurrent error false).1.epoch = t.epoch + 1 := by
      rw [hstopped.epoch, hepoch]
    have hne : (v.stopCurrent error false).1.epoch ≠ t.epoch := by omega
    have hold : olderAfter ⟨t, stack⟩ old (.operate operation) ⟨(t.operate operation).1,
        (t.operate operation).2 ++ stack⟩ = stack := by
      rw [heq]
      exact if_pos hne
    have hdated : ∀ task ∈ tail ++ stack, task.date ≤ v.epoch := by
      intro task hmem
      rw [hepoch]
      rcases List.mem_append.mp hmem with hmem | hmem
      · obtain rfl | ⟨token, appVersion, rfl⟩ := htail
        · cases hmem
        · rw [List.mem_singleton.mp hmem]
          exact Nat.zero_le _
      · exact h.dated task hmem
    have hsheltered : Sheltered v (tail ++ stack) := by
      obtain rfl | ⟨token, appVersion, rfl⟩ := htail
      · exact sheltered_of_guarded hv
      · exact sheltered_beginOpen hv token appVersion
    rw [hold]
    rw [heq, List.append_assoc]
    refine ⟨⟨_, List.append_assoc ..⟩, fun _ => quiet_stopCurrent hvok error false,
      fun task hmem => ⟨hstop.guarded (hv task hmem), ?_⟩, hstop.dated_append hdated,
      hstop.sheltered hsheltered⟩
    show task.date < (v.stopCurrent error false).1.epoch
    rw [hlater]
    exact Nat.lt_succ_of_le (h.dated task hmem)
  · have hepoch := operate_epoch hends
    have hold : olderAfter ⟨t, stack⟩ old (.operate operation) ⟨(t.operate operation).1,
        (t.operate operation).2 ++ stack⟩ = old := if_neg (not_not_intro hepoch)
    have hfollows : Follows t (t.operate operation) := by
      cases operation with
      | «open» token appVersion | close => exact absurd trivial hends
      | cancelOpening epoch =>
        have hnothing : t.operate (.cancelOpening epoch) = (t, []) := if_neg hends
        rw [hnothing]
        exact follows_keeps (.refl t) (List.forall_mem_nil _)
      | setReconnectToken token =>
        exact ⟨Nat.le_refl _, fun i c hc => ⟨c, hc, rfl⟩,
        List.forall_mem_nil _, List.forall_mem_nil _⟩
      | call method bytes => exact follows_outcome hok (call_outcome t method bytes)
      | unsubscribe call => exact follows_outcome hok (unsubscribe_outcome t call)
    rw [hold]
    refine ⟨h.below.trans (List.suffix_append _ _),
      fun hne => quiet_operate hok (h.quiet hne) operation, fun task hmem => ?_,
      hfollows.dated_append h.dated, hfollows.sheltered h.sheltered⟩
    obtain ⟨hguarded, hdate⟩ := h.guarded task hmem
    exact ⟨hfollows.guarded hguarded, Nat.lt_of_lt_of_le hdate hfollows.epoch⟩

theorem Left.exec {old : List Task} {task : Task} {outside : Outside}
    (h : Left ⟨t, task :: rest⟩ old) (hinv : Inv t (task :: rest))
    (hcalm : Calm ⟨t, task :: rest⟩ (.run outside)) {u : Machine}
    (hu : u = ⟨(t.exec outside task).1, (t.exec outside task).2 ++ rest⟩) :
    Left u (olderAfter ⟨t, task :: rest⟩ old (.run outside) u) := by
  subst hu
  have hfollows := follows_exec hinv.calls outside (h.dated task List.mem_cons_self)
  have hdated : ∀ other ∈ rest, other.date ≤ t.epoch :=
    fun other hmem => h.dated other (List.mem_cons_of_mem _ hmem)
  have hsheltered := hfollows.sheltered h.sheltered.tail
  by_cases hepoch : (t.exec outside task).1.epoch = t.epoch
  · by_cases hwhole : task :: rest = old
    · -- The function that runs is itself of an older epoch.
      have hold : olderAfter ⟨t, task :: rest⟩ old (.run outside) ⟨(t.exec outside task).1,
          (t.exec outside task).2 ++ rest⟩ = (t.exec outside task).2 ++ rest := by
        rw [olderAfter, if_neg (not_not_intro hepoch)]
        exact if_pos hwhole
      have hquiet := h.quiet (hwhole ▸ List.cons_ne_nil task rest)
      obtain ⟨hguard, hdate⟩ := h.guarded task (hwhole ▸ List.mem_cons_self)
      have hidles := idles_exec hquiet hguard hdate outside
      rw [hold]
      refine ⟨List.suffix_rfl, fun _ => quiet_exec hinv.calls hquiet outside task,
        fun other hmem => ?_, hfollows.dated_append hdated, hsheltered⟩
      rcases List.mem_append.mp hmem with hmem | hmem
      · have hidle := hidles.tasks other hmem
        have hpositive : 0 < (t.exec outside task).1.epoch := by
          rw [hepoch]
          exact Nat.lt_of_le_of_lt (Nat.zero_le _) hdate
        cases other <;> first | exact ⟨id, hpositive⟩ | cases hidle
      · obtain ⟨hguarded, hbefore⟩ := h.guarded other (hwhole ▸ List.mem_cons_of_mem _ hmem)
        exact ⟨hfollows.guarded hguarded, Nat.lt_of_lt_of_le hbefore hfollows.epoch⟩
    · have hold : olderAfter ⟨t, task :: rest⟩ old (.run outside) ⟨(t.exec outside task).1,
          (t.exec outside task).2 ++ rest⟩ = old := by
        rw [olderAfter, if_neg (not_not_intro hepoch)]
        exact if_neg hwhole
      have hbelow : old <:+ rest := by
        rcases List.suffix_cons_iff.mp h.below with heq | hsuffix
        · exact absurd heq.symm hwhole
        · exact hsuffix
      rw [hold]
      refine ⟨hbelow.trans (List.suffix_append _ _),
        fun hne => quiet_exec hinv.calls (h.quiet hne) outside task, fun other hmem => ?_,
        hfollows.dated_append hdated, hsheltered⟩
      obtain ⟨hguarded, hbefore⟩ := h.guarded other hmem
      exact ⟨hfollows.guarded hguarded, Nat.lt_of_lt_of_le hbefore hfollows.epoch⟩
  · have hold : olderAfter ⟨t, task :: rest⟩ old (.run outside) ⟨(t.exec outside task).1,
        (t.exec outside task).2 ++ rest⟩ = rest := if_pos hepoch
    have hguarded : ∀ other ∈ rest, ¬Unguarded t other := by
      by_cases hends : Ends ⟨t, task :: rest⟩ (.run outside)
      · exact hcalm hends
      · by_contra hnot
        refine hepoch (exec_epoch hinv hends fun token appVersion heq => hnot ?_)
        exact h.sheltered [] token appVersion rest (by rw [heq]; rfl)
    rw [hold]
    refine ⟨List.suffix_append _ _, fun _ => quiet_of_epoch hinv hepoch, fun other hmem => ?_,
      hfollows.dated_append hdated, hsheltered⟩
    have hlater := Nat.lt_of_le_of_ne hfollows.epoch (Ne.symm hepoch)
    exact ⟨hfollows.guarded (hguarded other hmem), Nat.lt_of_le_of_lt (hdated other hmem) hlater⟩

theorem left_step {s u : Machine} {old : List Task} {event : Event} (h : Left s old)
    (hinv : Inv s.transport s.stack) (hcalm : Calm s event) (hstep : step s event = some u) :
    Left u (olderAfter s old event u) := by
  obtain ⟨t, stack⟩ := s
  cases event with
  | operate operation =>
    match stack, hstep with
    | [], hstep =>
      obtain rfl := Option.some.inj hstep
      exact h.operate hinv.calls hcalm (by rw [List.append_nil])
    | .publish :: rest, hstep =>
      obtain rfl := Option.some.inj hstep
      exact h.operate hinv.calls hcalm rfl
  | happen event =>
    match stack, hstep with
    | [], hstep =>
      obtain ⟨result, hresult, rfl⟩ := Option.map_eq_some_iff.mp hstep
      have hfollows := follows_happen hinv.calls hresult
      obtain rfl := List.suffix_nil.mp h.below
      have hold : olderAfter ⟨t, []⟩ [] (.happen event) ⟨result.1, result.2⟩ = [] := by
        unfold olderAfter
        split <;> rfl
      rw [hold]
      have hdated := hfollows.dated_append h.dated
      have hsheltered := hfollows.sheltered h.sheltered
      rw [List.append_nil] at hdated hsheltered
      exact ⟨List.nil_suffix, fun hne => absurd rfl hne, List.forall_mem_nil _, hdated, hsheltered⟩
  | run outside =>
    match stack, hstep with
    | task :: rest, hstep =>
      have hexec : u = ⟨(t.exec outside task).1, (t.exec outside task).2 ++ rest⟩ := by
        cases task <;> first | exact (Option.some.inj hstep).symm | cases hstep
      exact h.exec hinv hcalm hexec
  | done =>
    match stack, hstep with
    | .publish :: rest, hstep =>
      obtain rfl := Option.some.inj hstep
      have hdated : ∀ task ∈ rest, task.date ≤ t.epoch :=
        fun task hmem => h.dated task (List.mem_cons_of_mem _ hmem)
      by_cases hwhole : .publish :: rest = old
      · have hold : olderAfter ⟨t, .publish :: rest⟩ old .done ⟨t, rest⟩ = rest := by
          rw [olderAfter, if_neg (not_not_intro rfl)]
          exact if_pos hwhole
        rw [hold]
        exact ⟨List.suffix_rfl, fun _ => h.quiet (hwhole ▸ List.cons_ne_nil _ _),
          fun task hmem => h.guarded task (hwhole ▸ List.mem_cons_of_mem _ hmem), hdated,
          h.sheltered.tail⟩
      · have hold : olderAfter ⟨t, .publish :: rest⟩ old .done ⟨t, rest⟩ = old := by
          rw [olderAfter, if_neg (not_not_intro rfl)]
          exact if_neg hwhole
        rw [hold]
        refine ⟨?_, h.quiet, h.guarded, hdated, h.sheltered.tail⟩
        rcases List.suffix_cons_iff.mp h.below with heq | hsuffix
        · exact absurd heq.symm hwhole
        · exact hsuffix

end Chahua.Transport

import Chahua.Transport.Callbacks

namespace Chahua.Transport

namespace RpcTransport

variable {t u v : RpcTransport}

/-- What a function may change of the session before it stops it. -/
structure Resets (t v : RpcTransport) : Prop where
  keeps : Keeps t { v with retryAllowed := t.retryAllowed, invalidated := t.invalidated }
  retryAllowed : v.retryAllowed = true → t.retryAllowed = true
  invalidated : v.invalidated = true → t.invalidated = true ∨ v.retryAllowed = false
  kept : t.invalidated = true → v.invalidated = true

/-- What a function that is not critical does to the session. -/
inductive Outcome (t : RpcTransport) : RpcTransport × List Task → Prop
  | keeps {u : RpcTransport} {tasks : List Task} (hkeeps : Keeps t u)
      (htasks : ∀ task ∈ tasks, task.isPlain = true ∧ task.date ≤ t.epoch) : Outcome t (u, tasks)
  | enters {u : RpcTransport} {tasks : List Task} (hnot : ¬t.Quiet)
      (hkeeps : Keeps t { u with state := t.state })
      (htasks : ∀ task ∈ tasks, task.isPlain = true ∧ task.date ≤ t.epoch) : Outcome t (u, tasks)
  | stops {v : RpcTransport} {error : CallError} {reconnect : Bool} {tail : List Task}
      (hresets : Resets t v) (htail : ∀ task ∈ tail, task.isPlain = true ∧ task.date ≤ t.epoch) :
      Outcome t ((v.stopCurrent error reconnect).1, (v.stopCurrent error reconnect).2 ++ tail)

theorem Resets.of_keeps (h : Keeps t v) : Resets t v :=
  ⟨h.trans (.of_eq (by rw [session, session, h.retryAllowed, h.invalidated]) rfl rfl fun _ he => he),
    fun hretry => h.retryAllowed ▸ hretry, fun hinvalid => .inl (h.invalidated ▸ hinvalid),
    fun hinvalid => h.invalidated.trans hinvalid⟩

/-- The token and the permission to retry go. -/
theorem Resets.of_withdraw (t : RpcTransport) (token : Option String) :
    Resets t { t with retryAllowed := false, reconnectToken := token } :=
  ⟨.of_eq rfl rfl rfl fun _ he => he, fun hretry => (by cases hretry), fun _ => .inr rfl,
    fun hinvalid => hinvalid⟩

theorem Outcome.refl (t : RpcTransport) : Outcome t (t, []) :=
  .keeps (.refl t) fun task hmem => by cases hmem

theorem Outcome.stopCurrent (h : Resets t v) (error : CallError) (reconnect : Bool) :
    Outcome t (v.stopCurrent error reconnect) := by
  have hnone : ∀ task ∈ ([] : List Task), task.isPlain = true ∧ task.date ≤ t.epoch :=
    fun task hmem => by cases hmem
  have hstops : Outcome t ((v.stopCurrent error reconnect).1,
      (v.stopCurrent error reconnect).2 ++ []) := .stops h hnone
  rwa [List.append_nil] at hstops

/-- A function that keeps the session and then does what has an outcome. -/
theorem Outcome.after {result : RpcTransport × List Task} (hkeeps : Keeps t u)
    (h : Outcome u result) : Outcome t result := by
  cases h with
  | keeps hkeeps' htasks => exact .keeps (hkeeps.trans hkeeps') (hkeeps.epoch ▸ htasks)
  | enters hnot hkeeps' htasks =>
    refine .enters (fun hquiet => hnot (hkeeps.quiet hquiet)) ?_ (hkeeps.epoch ▸ htasks)
    rw [← hkeeps.state]
    exact hkeeps.trans hkeeps'
  | stops hresets htail =>
    rw [hkeeps.epoch] at htail
    refine .stops ⟨?_, fun hretry => ?_, fun hinvalid => ?_, fun hinvalid => ?_⟩ htail
    · rw [← hkeeps.retryAllowed, ← hkeeps.invalidated]
      exact hkeeps.trans hresets.keeps
    · exact hkeeps.retryAllowed ▸ hresets.retryAllowed hretry
    · exact hkeeps.invalidated ▸ hresets.invalidated hinvalid
    · exact hresets.kept (hkeeps.invalidated.trans hinvalid)

theorem Outcome.append {result : RpcTransport × List Task} {tail : List Task}
    (h : Outcome t result) (htail : ∀ task ∈ tail, task.isPlain = true ∧ task.date ≤ t.epoch) :
    Outcome t (result.1, result.2 ++ tail) := by
  cases h with
  | keeps hkeeps htasks =>
    refine .keeps hkeeps fun task hmem => ?_
    exact (List.mem_append.mp hmem).elim (htasks task) (htail task)
  | enters hnot hkeeps htasks =>
    refine .enters hnot hkeeps fun task hmem => ?_
    exact (List.mem_append.mp hmem).elim (htasks task) (htail task)
  | stops hresets htail' =>
    rw [List.append_assoc]
    refine .stops hresets fun task hmem => ?_
    exact (List.mem_append.mp hmem).elim (htail' task) (htail task)

theorem protocolFailure_outcome (t : RpcTransport) (message : String) :
    Outcome t (t.protocolFailure message) :=
  .stopCurrent (.of_withdraw t t.reconnectToken) _ _

theorem invalidateSession_outcome (t : RpcTransport) (error : CallError) :
    Outcome t (t.invalidateSession error) := by
  apply Outcome.stops
  · exact ⟨.of_eq rfl rfl rfl fun _ he => he, fun hretry => (by cases hretry), fun _ => .inr rfl,
      fun _ => rfl⟩
  · intro task hmem
    rw [List.mem_singleton.mp hmem]
    exact ⟨rfl, Nat.zero_le _⟩

theorem rejectSessionOpen_outcome (t : RpcTransport) (epoch : Nat) (error : CallError) :
    Outcome t (t.rejectSessionOpen epoch error) := by
  unfold rejectSessionOpen
  split
  · exact .refl t
  · split
    · split
      · exact invalidateSession_outcome t error
      · exact .stopCurrent (.of_withdraw t none) _ _
    · exact .stopCurrent (.of_keeps (.refl t)) _ _

theorem acceptSessionOpen_outcome (t : RpcTransport) {epoch : Nat} (value : ResultValue) (now : Int)
    (hcurrent : t.Quiet → epoch < t.epoch) : Outcome t (t.acceptSessionOpen epoch value now) := by
  unfold acceptSessionOpen
  split
  · split
    · exact protocolFailure_outcome t _
    · next hepoch =>
      have hnot : ¬t.Quiet := fun hquiet => hepoch (Nat.ne_of_lt (hcurrent hquiet))
      have hle : epoch ≤ t.epoch := Nat.le_of_eq (Decidable.not_not.mp hepoch)
      split
      · exact .enters hnot (.of_eq rfl rfl rfl fun _ he => he)
          (by simp [Task.isPlain, Task.isWork, Task.date, hle])
      · exact .enters hnot (.of_eq rfl rfl rfl fun _ he => he)
          (by simp [Task.isPlain, Task.isWork, Task.date, hle])
  · exact protocolFailure_outcome t _

theorem reject_outcome (t : RpcTransport) (owner : Owner) (epoch : Nat) (error : CallError) :
    Outcome t (t.reject owner epoch error) := by
  cases owner with
  | subscriber => exact .keeps (.refl t) (by simp [Task.isPlain, Task.date])
  | sessionOpen => exact rejectSessionOpen_outcome t epoch error
  | ping => exact .keeps (.of_eq rfl rfl rfl fun _ he => he) (by simp)
  | internal => exact .refl t

theorem resolve_outcome (t : RpcTransport) (owner : Owner) {epoch : Nat} (value : ResultValue)
    (now : Int) (hcurrent : t.Quiet → epoch < t.epoch) :
    Outcome t (t.resolve owner epoch value now) := by
  cases owner with
  | subscriber => exact .keeps (.refl t) (by simp [Task.isPlain, Task.date])
  | sessionOpen => exact acceptSessionOpen_outcome t value now hcurrent
  | ping => exact .keeps (.of_eq rfl rfl rfl fun _ he => he) (by simp)
  | internal => exact .refl t

theorem rejectCall_outcome (t : RpcTransport) (call : Nat) (error : CallError) :
    Outcome t (t.rejectCall call error) := by
  unfold rejectCall
  split
  · exact reject_outcome t _ _ error
  · exact .refl t

/-- A new call, pending and not yet admitted. -/
theorem created_keeps (hnot : ¬t.Quiet) {c : PendingCall} (hepoch : c.epoch = t.epoch)
    (hactive : c.active = true) (hsession : u.session = t.session) (hcalls : u.calls = t.calls ++ [c])
    (hpending : u.pending = t.pending ++ [t.calls.length])
    (hsubscriber : u.openSubscriber = t.openSubscriber) : Keeps t u := by
  have hu : u.epoch = t.epoch := congrArg Session.epoch hsession
  have hget : ∀ (i : Nat) (c' : PendingCall), u.calls[i]? = some c' →
      t.calls[i]? = some c' ∨ i = t.calls.length ∧ c' = c := by
    intro i c' hc'
    rw [hcalls, List.getElem?_append] at hc'
    split at hc'
    · exact .inl hc'
    · next hge =>
      obtain ⟨hi, heq⟩ := List.getElem?_eq_some_iff.mp hc'
      rw [List.length_singleton] at hi
      exact .inr ⟨by omega, by rw [← heq, List.getElem_singleton]⟩
  have hold : ∀ (i : Nat) (c' : PendingCall), t.calls[i]? = some c' → u.calls[i]? = some c' := by
    intro i c' hc'
    obtain ⟨hi, -⟩ := List.getElem?_eq_some_iff.mp hc'
    rw [hcalls, List.getElem?_append_left hi, hc']
  refine ⟨hsession, fun i c' hc' => ⟨c', hold i c' hc', rfl, rfl⟩, fun h => ⟨?_, ?_, ?_⟩,
    fun hquiet => absurd hquiet hnot, fun e he => hsubscriber ▸ he⟩
  · intro i c' hc' hlive
    rw [hpending]
    rcases hget i c' hc' with hc' | ⟨heq, -⟩
    · exact List.mem_append_left _ (h.pending i c' hc' hlive)
    · exact List.mem_append_right _ (List.mem_singleton.mpr heq)
  · obtain ⟨hnodup, hmade⟩ := h.made
    have hfresh : t.calls.length ∉ t.pending := by
      intro hmem
      obtain ⟨c', hc', -⟩ := hmade _ hmem
      obtain ⟨hlt, -⟩ := List.getElem?_eq_some_iff.mp hc'
      exact Nat.lt_irrefl _ hlt
    rw [hpending]
    refine ⟨List.nodup_append.mpr ⟨hnodup, by simp, fun i hi j hj heq => ?_⟩,
      fun i hi => ?_⟩
    · rw [heq, List.mem_singleton.mp hj] at hi
      exact hfresh hi
    · rcases List.mem_append.mp hi with hi | hi
      · obtain ⟨c', hc', hlive⟩ := hmade i hi
        exact ⟨c', hold i c' hc', hlive⟩
      · rw [List.mem_singleton.mp hi, hcalls]
        exact ⟨c, by simp, hactive⟩
  · intro i c' hc'
    rw [hu]
    rcases hget i c' hc' with hc' | ⟨-, rfl⟩
    · exact h.epoch i c' hc'
    · exact ⟨Nat.le_of_eq hepoch, fun _ => hepoch⟩

theorem createPending_outcome (hnot : ¬t.Quiet) (method : String) (bytes : Nat) (owner : Owner) :
    Outcome t (t.createPending method bytes owner) := by
  unfold createPending
  dsimp only
  split
  · exact .after (u := { t with requestNumber := t.requestNumber + 1 })
      (.of_eq rfl rfl rfl fun _ he => he) (reject_outcome _ owner t.epoch _)
  · have hcreated := created_keeps (u := { t with
        requestNumber := t.requestNumber + 1
        calls := t.calls ++ [⟨t.requestNumber + 1, method, t.epoch, bytes, laneFor method, owner,
          false, true, false, true, false⟩]
        pending := t.pending ++ [t.calls.length]
        queuedBytes := t.queuedBytes + bytes }) hnot rfl rfl rfl rfl rfl rfl
    split
    · next previous hprevious =>
      refine .keeps ?_ (by simp [Task.isPlain, Task.isWork, Task.date])
      cases hreleased : release _ previous with
      | none => exact hcreated
      | some released => exact hcreated.trans (.of_release hreleased)
    · exact .keeps hcreated (by simp [Task.isPlain, Task.isWork, Task.date])

theorem admitCall_outcome (t : RpcTransport) (call : Nat) : Outcome t (t.admitCall call) := by
  unfold admitCall
  split
  · exact .refl t
  · split
    · exact .refl t
    · split
      · split
        · exact .keeps (.of_eq rfl rfl rfl fun _ he => he) (by simp)
        · exact .keeps (.refl t) (by simp [Task.isPlain, Task.isWork, Task.date])
      · split
        · exact .keeps (.of_eq rfl rfl rfl fun _ he => he) (by simp)
        · exact .keeps (.refl t) (by simp [Task.isPlain, Task.isWork, Task.date])

theorem markSent_keeps (t : RpcTransport) (call : Nat) (lane : RpcLane) :
    Keeps t (t.markSent call lane) :=
  .of_modify (f := fun c => { c with sent := true, leaseTimer := decide (lane = .ordinary) })
    (fun _ => ⟨rfl, rfl⟩) (fun _ hactive => hactive) rfl rfl (.inl ⟨rfl, fun _ => rfl⟩)
    fun _ he => he

theorem send_outcome (t : RpcTransport) (call : Nat) (outside : Outside) :
    Outcome t (t.send call outside) := by
  unfold send
  split
  · exact .refl t
  · split
    · split
      · next hreleased =>
        exact .keeps (.of_release hreleased) (by simp [Task.isPlain, Task.isWork, Task.date])
      · exact .refl t
    · split
      · exact .keeps (markSent_keeps t call _) (by simp)
      · exact .stopCurrent (.of_keeps (markSent_keeps t call _)) _ _

theorem pumpControl_outcome (t : RpcTransport) : Outcome t t.pumpControl := by
  unfold pumpControl
  split
  · split
    · exact .refl t
    · refine .keeps (.of_eq rfl rfl rfl fun _ he => he) ?_
      split <;> simp [Task.isPlain, Task.isWork, Task.date]
  · exact .refl t

theorem pump_outcome (t : RpcTransport) : Outcome t t.pump := by
  unfold pump
  split
  · split
    · refine .keeps (.of_eq rfl rfl rfl fun _ he => he) ?_
      split <;> simp [Task.isPlain, Task.isWork, Task.date]
    · exact pumpControl_outcome t
  · exact pumpControl_outcome t

theorem sendAppState_outcome (t : RpcTransport) (outside : Outside) :
    Outcome t (t.sendAppState outside) := by
  unfold sendAppState
  split
  · next hstate => exact createPending_outcome (fun hquiet => hquiet.state.1 hstate) _ _ _
  · exact .refl t

theorem respond_cases (t : RpcTransport) (call : Nat) (body : Body) (outside : Outside) :
    ∃ u, Keeps t u ∧ ((∃ v, u.release call = some v ∧
        t.respond call body outside = (v, [.pump, .settle call body])) ∨
      t.respond call body outside = (u, [.settle call body])) := by
  have hheard : ∃ u, Keeps t u ∧ t.respond call body outside =
      ((u.release call).map fun v => (v, [Task.pump, .settle call body])).getD
        (u, [.settle call body]) := by
    unfold respond
    cases body with
    | error code | malformedError =>
      refine ⟨t, .refl t, ?_⟩
      cases hrelease : t.release call <;> simp [hrelease]
    | result value =>
      dsimp only
      by_cases hping : (t.calls[call]?).any (·.method = "session.ping") = true
      · rw [if_pos hping]
        refine ⟨{ t with lastHeartbeat := outside.now }, .of_eq rfl rfl rfl fun _ he => he, ?_⟩
        cases hrelease : ({ t with lastHeartbeat := outside.now }).release call <;>
          simp only [Option.map_none, Option.map_some, Option.getD_none, Option.getD_some]
      · rw [if_neg hping]
        refine ⟨t, .refl t, ?_⟩
        cases hrelease : t.release call <;>
          simp only [Option.map_none, Option.map_some, Option.getD_none, Option.getD_some]
  obtain ⟨u, hkeeps, heq⟩ := hheard
  refine ⟨u, hkeeps, ?_⟩
  cases hrelease : u.release call with
  | none =>
    rw [hrelease] at heq
    exact .inr heq
  | some v =>
    rw [hrelease] at heq
    exact .inl ⟨v, rfl, heq⟩

theorem respond_outcome (t : RpcTransport) (call : Nat) (body : Body) (outside : Outside) :
    Outcome t (t.respond call body outside) := by
  obtain ⟨u, hkeeps, ⟨v, hrelease, heq⟩ | heq⟩ := t.respond_cases call body outside
  · rw [heq]
    exact .keeps (hkeeps.trans (.of_release hrelease)) (by simp [Task.isPlain, Task.isWork, Task.date])
  · rw [heq]
    exact .keeps hkeeps (by simp [Task.isPlain, Task.isWork, Task.date])

theorem settle_outcome (t : RpcTransport) (call : Nat) (body : Body) (outside : Outside) :
    Outcome t (t.settle call body outside) := by
  unfold settle
  split
  · exact .refl t
  · next c hc =>
    split
    · exact .refl t
    · split
      · exact reject_outcome t _ _ _
      · exact resolve_outcome t _ _ _ fun hquiet => (hquiet.calls call c hc).2
      · exact .refl t

theorem finishOpen_keeps (t : RpcTransport) (epoch : Nat) : Keeps t (t.finishOpen epoch).1 := by
  unfold finishOpen
  split
  · exact .of_eq rfl rfl rfl fun e he => by cases he
  · exact .refl t

theorem finishOpen_tasks (t : RpcTransport) (epoch : Nat) :
    ∀ task ∈ (t.finishOpen epoch).2, task = .publish := by
  unfold finishOpen
  split <;> simp

/-- The tasks that are not critical and have no order among critical ones to keep. -/
theorem exec_outcome (t : RpcTransport) (outside : Outside) {task : Task} (h : task.isWork = true) :
    Outcome t (t.exec outside task) := by
  cases task with
  | publish | beginOpen token appVersion | makeSocket epoch | armReconnect appVersion
  | finishOpenError epoch error | rejectPending calls error => cases h
  | notifyInvalidated stoppedEpoch =>
    refine .keeps (.refl t) ?_
    split <;> simp [Task.isPlain, Task.date]
  | rejectCall call error => exact rejectCall_outcome t call error
  | admitCall call => exact admitCall_outcome t call
  | send call => exact send_outcome t call outside
  | pump => exact pump_outcome t
  | supersede call =>
    refine .keeps (.refl t) ?_
    unfold supersede
    split <;> simp [Task.isPlain, Task.date]
  | sendAppState => exact sendAppState_outcome t outside
  | startHeartbeat => exact .keeps (.of_eq rfl rfl rfl fun _ he => he) (by simp)
  | notifyOpen epoch =>
    refine .keeps (finishOpen_keeps t epoch) fun task hmem => ?_
    rw [finishOpen_tasks t epoch task hmem]
    exact ⟨rfl, Nat.zero_le _⟩
  | respond call body => exact respond_outcome t call body outside
  | settle call body => exact settle_outcome t call body outside

end RpcTransport

end Chahua.Transport

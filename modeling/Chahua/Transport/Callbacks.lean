import Chahua.Transport.RpcTransport

namespace Chahua.Transport

/-- A function that has yet to create a socket or to arm the reconnect timer. -/
def Task.isCritical : Task → Bool
  | .beginOpen _ _ | .makeSocket _ | .armReconnect _ => true
  | _ => false

/-- A critical task that also revives a closed transport. -/
def Task.isReviving : Task → Bool
  | .beginOpen _ _ | .armReconnect _ => true
  | _ => false

/-- Tasks that may end the session. -/
def Task.isWork : Task → Bool
  | .publish | .beginOpen _ _ | .makeSocket _ | .armReconnect _ | .finishOpenError _ _
  | .rejectPending _ _ => false
  | _ => true

/-- Tasks that are not critical, the rejections of a stop apart. -/
def Task.isPlain : Task → Bool
  | .publish | .finishOpenError _ _ => true
  | task => task.isWork

/-- The epoch that a task was left for, where it has one. -/
def Task.date : Task → Nat
  | .makeSocket epoch | .finishOpenError epoch _ | .notifyOpen epoch => epoch
  | _ => 0

def Critical (stack : List Task) : Prop := ∃ task ∈ stack, task.isCritical = true

def Reviving (stack : List Task) : Prop := ∃ task ∈ stack, task.isReviving = true

/-- No task that may end the session is inside a critical one. -/
def Ordered : List Task → Prop
  | [] => True
  | task :: rest => (task.isWork = true → ¬Critical rest) ∧ Ordered rest

theorem Task.not_isCritical_of_isPlain {task : Task} (h : task.isPlain = true) :
    task.isCritical = false := by
  cases task <;> first | rfl | cases h

theorem not_critical_nil : ¬Critical [] := by
  intro h
  obtain ⟨task, hmem, -⟩ := h
  cases hmem

theorem critical_cons {task : Task} {rest : List Task} :
    Critical (task :: rest) ↔ task.isCritical = true ∨ Critical rest := by
  simp [Critical]

theorem critical_append {front rest : List Task} :
    Critical (front ++ rest) ↔ Critical front ∨ Critical rest := by
  simp only [Critical, List.mem_append]
  constructor
  · intro h
    obtain ⟨task, hmem | hmem, htask⟩ := h
    · exact .inl ⟨task, hmem, htask⟩
    · exact .inr ⟨task, hmem, htask⟩
  · intro h
    rcases h with ⟨task, hmem, htask⟩ | ⟨task, hmem, htask⟩
    · exact ⟨task, .inl hmem, htask⟩
    · exact ⟨task, .inr hmem, htask⟩

theorem not_critical_of_plain {tasks : List Task} (h : ∀ task ∈ tasks, task.isPlain = true) :
    ¬Critical tasks := by
  intro hcritical
  obtain ⟨task, hmem, htask⟩ := hcritical
  rw [Task.not_isCritical_of_isPlain (h task hmem)] at htask
  cases htask

theorem ordered_append {front rest : List Task} (hrest : Ordered rest) (hfront : Ordered front)
    (hwork : ∀ task ∈ front, task.isWork = true → ¬Critical rest) : Ordered (front ++ rest) := by
  induction front with
  | nil => exact hrest
  | cons task front ih =>
    refine ⟨fun htask hcritical => ?_,
      ih hfront.2 fun other hmem => hwork other (List.mem_cons_of_mem _ hmem)⟩
    rcases critical_append.mp hcritical with hinner | houter
    · exact hfront.1 htask hinner
    · exact hwork task List.mem_cons_self htask houter

theorem ordered_of_plain {tasks : List Task} (h : ∀ task ∈ tasks, task.isPlain = true) :
    Ordered tasks := by
  induction tasks with
  | nil => trivial
  | cons task tasks ih =>
    have htasks : ∀ other ∈ tasks, other.isPlain = true :=
      fun other hmem => h other (List.mem_cons_of_mem _ hmem)
    exact ⟨fun _ => not_critical_of_plain htasks, ih htasks⟩

/-- What the sockets and the reconnect timer depend on. -/
structure Session where
  state : RpcConnectionState
  sockets : List Socket
  socket : Option Nat
  epoch : Nat
  reconnects : List (Nat × String)
  reconnectTimer : Option Nat
  retryAllowed : Bool
  closeRequested : Bool
  invalidated : Bool

namespace RpcTransport

def session (t : RpcTransport) : Session :=
  ⟨t.state, t.sockets, t.socket, t.epoch, t.reconnects, t.reconnectTimer, t.retryAllowed,
    t.closeRequested, t.invalidated⟩

/-- The pending calls are the active ones, and they belong to the current epoch. -/
structure CallsOk (t : RpcTransport) : Prop where
  pending : ∀ (i : Nat) (c : PendingCall), t.calls[i]? = some c → c.active = true → i ∈ t.pending
  made : t.pending.Nodup ∧ ∀ i ∈ t.pending, ∃ c : PendingCall, t.calls[i]? = some c ∧ c.active = true
  epoch : ∀ (i : Nat) (c : PendingCall), t.calls[i]? = some c →
    c.epoch ≤ t.epoch ∧ (c.active = true → c.epoch = t.epoch)

def NoActive (t : RpcTransport) : Prop :=
  ∀ (i : Nat) (c : PendingCall), t.calls[i]? = some c → c.active = false

/-- Every call has ended and belongs to an older epoch. -/
def Stale (t : RpcTransport) : Prop :=
  ∀ (i : Nat) (c : PendingCall), t.calls[i]? = some c → c.active = false ∧ c.epoch < t.epoch

/-- No call and no session, and no socket that is open. -/
structure Quiet (t : RpcTransport) : Prop where
  ready : t.isReady = false
  calls : t.Stale
  state : t.state ≠ .authenticated ∧ t.state ≠ .anonymous

/-- No socket, no call and no session. -/
structure Parked (t : RpcTransport) : Prop where
  socket : t.socket = none
  calls : t.Stale
  state : t.state ≠ .authenticated ∧ t.state ≠ .anonymous

theorem not_isReady_of_socket {t : RpcTransport} (h : t.socket = none) : t.isReady = false := by
  rw [isReady, h]
  rfl

theorem Parked.quiet {t : RpcTransport} (h : t.Parked) : t.Quiet :=
  ⟨not_isReady_of_socket h.socket, h.calls, h.state⟩

/-- A change of calls and timers that leaves the session as it is. -/
structure Keeps (t u : RpcTransport) : Prop where
  session : u.session = t.session
  epochs : ∀ (i : Nat) (c : PendingCall), t.calls[i]? = some c →
    ∃ c' : PendingCall, u.calls[i]? = some c' ∧ c'.epoch = c.epoch ∧ c'.owner = c.owner
  calls : t.CallsOk → u.CallsOk
  idle : t.Quiet → u.Stale
  subscriber : ∀ e, u.openSubscriber = some e → t.openSubscriber = some e

variable {t u v : RpcTransport}

theorem Keeps.refl (t : RpcTransport) : Keeps t t :=
  ⟨rfl, fun _ c hc => ⟨c, hc, rfl, rfl⟩, fun h => h, fun h => h.calls, fun _ h => h⟩

theorem Keeps.socket (h : Keeps t u) : u.socket = t.socket := congrArg Session.socket h.session
theorem Keeps.sockets (h : Keeps t u) : u.sockets = t.sockets := congrArg Session.sockets h.session
theorem Keeps.state (h : Keeps t u) : u.state = t.state := congrArg Session.state h.session
theorem Keeps.epoch (h : Keeps t u) : u.epoch = t.epoch := congrArg Session.epoch h.session
theorem Keeps.reconnects (h : Keeps t u) : u.reconnects = t.reconnects :=
  congrArg Session.reconnects h.session
theorem Keeps.reconnectTimer (h : Keeps t u) : u.reconnectTimer = t.reconnectTimer :=
  congrArg Session.reconnectTimer h.session
theorem Keeps.retryAllowed (h : Keeps t u) : u.retryAllowed = t.retryAllowed :=
  congrArg Session.retryAllowed h.session
theorem Keeps.closeRequested (h : Keeps t u) : u.closeRequested = t.closeRequested :=
  congrArg Session.closeRequested h.session
theorem Keeps.invalidated (h : Keeps t u) : u.invalidated = t.invalidated :=
  congrArg Session.invalidated h.session

theorem Keeps.parked (h : Keeps t u) (ht : t.Parked) : u.Parked :=
  ⟨h.socket.trans ht.socket, h.idle ht.quiet, h.state ▸ ht.state⟩

theorem Keeps.quiet (h : Keeps t u) (ht : t.Quiet) : u.Quiet := by
  refine ⟨?_, h.idle ht, h.state ▸ ht.state⟩
  rw [isReady, h.socket, h.sockets]
  exact ht.ready

theorem Keeps.trans (h : Keeps t u) (h' : Keeps u v) : Keeps t v := by
  refine ⟨h'.session.trans h.session, fun i c hc => ?_, fun ht => h'.calls (h.calls ht),
    fun ht => h'.idle (h.quiet ht), fun e he => h.subscriber e (h'.subscriber e he)⟩
  obtain ⟨c', hc', hepoch, howner⟩ := h.epochs i c hc
  obtain ⟨c'', hc'', hepoch', howner'⟩ := h'.epochs i c' hc'
  exact ⟨c'', hc'', hepoch'.trans hepoch, howner'.trans howner⟩

/-- Only fields that neither the session nor the calls depend on. -/
theorem Keeps.of_eq (hsession : u.session = t.session) (hcalls : u.calls = t.calls)
    (hpending : u.pending = t.pending)
    (hsubscriber : ∀ e, u.openSubscriber = some e → t.openSubscriber = some e) : Keeps t u := by
  have hepoch : u.epoch = t.epoch := congrArg Session.epoch hsession
  refine ⟨hsession, fun i c hc => ⟨c, hcalls ▸ hc, rfl, rfl⟩, fun h => ⟨?_, ?_, ?_⟩, ?_, hsubscriber⟩
  · intro i c hc hactive
    exact hpending ▸ h.pending i c (hcalls ▸ hc) hactive
  · rw [hcalls, hpending]
    exact h.made
  · intro i c hc
    exact hepoch ▸ h.epoch i c (hcalls ▸ hc)
  · intro h i c hc
    exact hepoch ▸ h.calls i c (hcalls ▸ hc)

theorem modifyCall_get {i j : Nat} {f : PendingCall → PendingCall} {c : PendingCall}
    (h : (t.calls.modify i f)[j]? = some c) :
    ∃ c', t.calls[j]? = some c' ∧ (c = c' ∧ i ≠ j ∨ i = j ∧ c = f c') := by
  rw [List.getElem?_modify] at h
  obtain ⟨c', hc', heq⟩ := Option.map_eq_some_iff.mp h
  refine ⟨c', hc', ?_⟩
  split at heq
  · next hij => exact .inr ⟨hij, heq.symm⟩
  · next hij => exact .inl ⟨heq.symm, hij⟩

/-- A call changes: it does not become active, and it ends where it is no longer pending. -/
theorem Keeps.of_modify {call : Nat} {f : PendingCall → PendingCall}
    (hepoch : ∀ c, (f c).epoch = c.epoch ∧ (f c).owner = c.owner)
    (hactive : ∀ c, (f c).active = true → c.active = true)
    (hsession : u.session = t.session) (hcalls : u.calls = t.calls.modify call f)
    (hpending : u.pending = t.pending ∧ (∀ c, (f c).active = c.active) ∨
      u.pending = t.pending.erase call ∧ ∀ c, (f c).active = false)
    (hsubscriber : ∀ e, u.openSubscriber = some e → t.openSubscriber = some e) : Keeps t u := by
  have hu : u.epoch = t.epoch := congrArg Session.epoch hsession
  have hget : ∀ (i : Nat) (c : PendingCall), u.calls[i]? = some c →
      ∃ c', t.calls[i]? = some c' ∧ (c = c' ∧ call ≠ i ∨ call = i ∧ c = f c') := by
    intro i c hc
    exact modifyCall_get (hcalls ▸ hc)
  have hold : ∀ (i : Nat) (c : PendingCall), t.calls[i]? = some c →
      ∃ c' : PendingCall, u.calls[i]? = some c' ∧ c'.epoch = c.epoch ∧ c'.owner = c.owner ∧
        (call ≠ i → c' = c) ∧ (call = i → c' = f c) := by
    intro i c hc
    rw [hcalls, List.getElem?_modify, hc]
    refine ⟨_, rfl, ?_⟩
    dsimp only
    by_cases hi : call = i
    · rw [if_pos hi]
      exact ⟨(hepoch c).1, (hepoch c).2, fun hne => absurd hi hne, fun _ => rfl⟩
    · rw [if_neg hi]
      exact ⟨rfl, rfl, fun _ => rfl, fun heq => absurd heq hi⟩
  refine ⟨hsession, fun i c hc => ?_, fun h => ⟨?_, ?_, ?_⟩, ?_, hsubscriber⟩
  · obtain ⟨c', hc', hsame, howner, -⟩ := hold i c hc
    exact ⟨c', hc', hsame, howner⟩
  · intro i c hc hc'
    obtain ⟨c', hget', ⟨rfl, hne⟩ | ⟨rfl, rfl⟩⟩ := hget i c hc
    · rcases hpending with ⟨hsame, -⟩ | ⟨herase, -⟩
      · exact hsame ▸ h.pending i c hget' hc'
      · rw [herase]
        exact (List.mem_erase_of_ne hne.symm).mpr (h.pending i c hget' hc')
    · rcases hpending with ⟨hsame, -⟩ | ⟨-, hended⟩
      · exact hsame ▸ h.pending call c' hget' (hactive c' hc')
      · rw [hended c'] at hc'
        cases hc'
  · obtain ⟨hnodup, hmade⟩ := h.made
    rcases hpending with ⟨hsame, hkept⟩ | ⟨herase, -⟩
    · rw [hsame]
      refine ⟨hnodup, fun i hi => ?_⟩
      obtain ⟨c, hc, hlive⟩ := hmade i hi
      obtain ⟨c', hc', -, -, hother, hchanged⟩ := hold i c hc
      refine ⟨c', hc', ?_⟩
      by_cases heq : call = i
      · rw [hchanged heq, hkept, hlive]
      · rw [hother heq, hlive]
    · rw [herase]
      refine ⟨hnodup.erase call, fun i hi => ?_⟩
      obtain ⟨hne, hi⟩ := (List.Nodup.mem_erase_iff hnodup).mp hi
      obtain ⟨c, hc, hlive⟩ := hmade i hi
      obtain ⟨c', hc', -, -, hother, -⟩ := hold i c hc
      exact ⟨c', hc', by rw [hother hne.symm, hlive]⟩
  · intro i c hc
    obtain ⟨c', hget', ⟨rfl, -⟩ | ⟨-, rfl⟩⟩ := hget i c hc
    · exact hu ▸ h.epoch i c hget'
    · rw [(hepoch c').1, hu]
      exact ⟨(h.epoch i c' hget').1, fun hlive => (h.epoch i c' hget').2 (hactive c' hlive)⟩
  · intro h i c hc
    obtain ⟨c', hget', ⟨rfl, -⟩ | ⟨-, rfl⟩⟩ := hget i c hc
    · exact hu ▸ h.calls i c hget'
    · obtain ⟨hidle, hstale⟩ := h.calls i c' hget'
      rw [(hepoch c').1, hu]
      refine ⟨?_, hstale⟩
      cases hended : (f c').active with
      | false => rfl
      | true => exact (hactive c' hended).symm.trans hidle

theorem Keeps.of_release {call : Nat} (h : t.release call = some u) : Keeps t u := by
  unfold release at h
  split at h
  · cases h
  · next c hc =>
    split at h
    · obtain rfl := Option.some.inj h
      exact Keeps.of_modify
        (f := fun c => { c with active := false, timer := false, leaseTimer := false })
        (fun _ => ⟨rfl, rfl⟩) (fun _ hactive => by cases hactive) rfl rfl
        (.inr ⟨rfl, fun _ => rfl⟩) fun _ he => he
    · cases h

theorem release_active {call i : Nat} {c : PendingCall} (h : t.release call = some u)
    (hc : u.calls[i]? = some c) (hactive : c.active = true) :
    i ≠ call ∧ ∃ c' : PendingCall, t.calls[i]? = some c' ∧ c'.active = true := by
  unfold release at h
  split at h
  · cases h
  · split at h
    · obtain rfl := Option.some.inj h
      obtain ⟨c', hc', heq⟩ := Option.map_eq_some_iff.mp ((List.getElem?_modify ..).symm.trans hc)
      split at heq
      · subst heq
        cases hactive
      · next hne =>
        subst heq
        exact ⟨fun heq => hne heq.symm, _, hc', hactive⟩
    · cases h

theorem release_isSome {call : Nat} {c : PendingCall} (hc : t.calls[call]? = some c)
    (hactive : c.active = true) : (t.release call).isSome = true := by
  unfold release
  rw [hc]
  simp only [hactive, if_true, Option.isSome_some]

theorem keeps_releaseAll (calls : List Nat) (t : RpcTransport) :
    Keeps t (calls.foldl (fun t call => (t.release call).getD t) t) := by
  induction calls generalizing t with
  | nil => exact .refl t
  | cons call calls ih =>
    cases h : t.release call with
    | none => simpa only [List.foldl_cons, h, Option.getD_none] using ih t
    | some u =>
      simpa only [List.foldl_cons, h, Option.getD_some] using (Keeps.of_release h).trans (ih u)

theorem active_of_releaseAll {calls : List Nat} {i : Nat} {c : PendingCall}
    (hc : (calls.foldl (fun t call => (RpcTransport.release t call).getD t) t).calls[i]? = some c)
    (hactive : c.active = true) :
    i ∉ calls ∧ ∃ c' : PendingCall, t.calls[i]? = some c' ∧ c'.active = true := by
  induction calls generalizing t with
  | nil => exact ⟨List.not_mem_nil, c, hc, hactive⟩
  | cons call calls ih =>
    obtain ⟨hrest, c', hc', hactive'⟩ := ih hc
    cases h : t.release call with
    | none =>
      simp only [h, Option.getD_none] at hc'
      have hne : i ≠ call := by
        intro heq
        subst heq
        have hsome := release_isSome hc' hactive'
        rw [h] at hsome
        cases hsome
      exact ⟨fun hmem => (List.mem_cons.mp hmem).elim hne hrest, c', hc', hactive'⟩
    | some u =>
      simp only [h, Option.getD_some] at hc'
      obtain ⟨hne, hold⟩ := release_active h hc' hactive'
      exact ⟨fun hmem => (List.mem_cons.mp hmem).elim hne hrest, hold⟩

theorem takePending_noActive (h : t.CallsOk) : t.takePending.NoActive := by
  intro i c hc
  cases hactive : c.active with
  | false => rfl
  | true =>
    obtain ⟨hnot, c', hc', hactive'⟩ := active_of_releaseAll hc hactive
    exact absurd (h.pending i c' hc' hactive') hnot

end RpcTransport

end Chahua.Transport

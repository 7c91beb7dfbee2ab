import Chahua.Transport.Stops

namespace Chahua.Transport

variable {t u : RpcTransport} {stack rest tasks : List Task}

/-- What the running functions leave intact wherever they call observers. -/
structure Base (t : RpcTransport) (stack : List Task) : Prop where
  calls : t.CallsOk
  ordered : Ordered stack
  once : (stack.filter Task.isCritical).length ≤ 1
  rejecting : ∀ calls error, .rejectPending calls error ∈ stack → ∀ call ∈ calls,
    ∃ c : PendingCall, t.calls[call]? = some c ∧ c.epoch < t.epoch
  live : ∀ (i : Nat) (s : Socket), t.sockets[i]? = some s → s.readyState ≠ .closed →
    t.socket = some i
  timer : t.reconnects = [] ∨
    ∃ id appVersion, t.reconnects = [(id, appVersion)] ∧ t.reconnectTimer = some id
  subscriber : ∀ e, t.openSubscriber = some e → e ≤ t.epoch

/-- While a socket or a timer is about to be made, or a timer is armed, there is nothing that could
make another one. -/
structure Inv (t : RpcTransport) (stack : List Task) : Prop extends Base t stack where
  parked : Critical stack ∨ t.reconnects ≠ [] → t.Parked
  armed : t.reconnects ≠ [] → ¬Critical stack ∧ t.closeRequested = false
  arming : ∀ appVersion, .armReconnect appVersion ∈ stack →
    t.closeRequested = false ∧ t.openSubscriber ≠ some t.epoch
  closing : t.closeRequested = true → t.retryAllowed = false ∧
    ∀ token appVersion, .beginOpen token appVersion ∉ stack
  invalid : t.invalidated = true → t.retryAllowed = false ∧ ¬Critical stack ∧ t.reconnects = []

theorem filter_critical_nil (h : ¬Critical tasks) : tasks.filter Task.isCritical = [] := by
  rw [List.filter_eq_nil_iff]
  exact fun task hmem htask => h ⟨task, hmem, htask⟩

theorem not_critical_of_filter (h : tasks.filter Task.isCritical = []) : ¬Critical tasks := by
  intro hcritical
  obtain ⟨task, hmem, htask⟩ := hcritical
  exact List.filter_eq_nil_iff.mp h task hmem htask

/-- Plain tasks on top of a stack that is not critical, or publications on top of any. -/
theorem Base.keeps (h : Base t stack) (hkeeps : RpcTransport.Keeps t u)
    (htasks : ∀ task ∈ tasks, task.isPlain = true)
    (hwork : ∀ task ∈ tasks, task.isWork = true → ¬Critical stack) : Base u (tasks ++ stack) := by
  refine ⟨hkeeps.calls h.calls, ordered_append h.ordered (ordered_of_plain htasks) hwork, ?_, ?_, ?_,
    ?_, ?_⟩
  · rw [List.filter_append, filter_critical_nil (not_critical_of_plain htasks), List.nil_append]
    exact h.once
  · intro calls error hmem call hcall
    rcases List.mem_append.mp hmem with hmem | hmem
    · cases htasks _ hmem
    · obtain ⟨c, hc, hlt⟩ := h.rejecting calls error hmem call hcall
      obtain ⟨c', hc', heq, -⟩ := hkeeps.epochs call c hc
      exact ⟨c', hc', by rw [heq, hkeeps.epoch]; exact hlt⟩
  · intro i s hs hlive
    rw [hkeeps.socket]
    exact h.live i s (hkeeps.sockets ▸ hs) hlive
  · rw [hkeeps.reconnects, hkeeps.reconnectTimer]
    exact h.timer
  · intro e he
    rw [hkeeps.epoch]
    exact h.subscriber e (hkeeps.subscriber e he)

theorem Inv.keeps (h : Inv t stack) (hkeeps : RpcTransport.Keeps t u)
    (htasks : ∀ task ∈ tasks, task.isPlain = true)
    (hwork : ∀ task ∈ tasks, task.isWork = true → ¬Critical stack) : Inv u (tasks ++ stack) := by
  have hcritical : Critical (tasks ++ stack) → Critical stack := by
    intro hcritical
    exact (critical_append.mp hcritical).resolve_left (not_critical_of_plain htasks)
  have hmem : ∀ {task}, task ∈ tasks ++ stack → task.isPlain = false → task ∈ stack := by
    intro task hmem hplain
    refine (List.mem_append.mp hmem).resolve_left fun hfront => ?_
    rw [htasks task hfront] at hplain
    cases hplain
  refine ⟨h.toBase.keeps hkeeps htasks hwork, ?_, ?_, ?_, ?_, ?_⟩
  · intro hnear
    rw [hkeeps.reconnects] at hnear
    exact hkeeps.parked (h.parked (hnear.imp_left hcritical))
  · intro harmed
    rw [hkeeps.reconnects] at harmed
    rw [hkeeps.closeRequested]
    exact ⟨fun hc => (h.armed harmed).1 (hcritical hc), (h.armed harmed).2⟩
  · intro appVersion harming
    obtain ⟨hclose, hsubscriber⟩ := h.arming appVersion (hmem harming rfl)
    rw [hkeeps.closeRequested, hkeeps.epoch]
    exact ⟨hclose, fun heq => hsubscriber (hkeeps.subscriber _ heq)⟩
  · intro hclose
    rw [hkeeps.closeRequested] at hclose
    rw [hkeeps.retryAllowed]
    exact ⟨(h.closing hclose).1, fun token appVersion hbegin =>
      (h.closing hclose).2 token appVersion (hmem hbegin rfl)⟩
  · intro hinvalid
    rw [hkeeps.invalidated] at hinvalid
    rw [hkeeps.retryAllowed, hkeeps.reconnects]
    obtain ⟨hretry, hnot, hnil⟩ := h.invalid hinvalid
    exact ⟨hretry, fun hc => hnot (hcritical hc), hnil⟩

theorem Inv.pop {task : Task} (h : Inv t (task :: rest)) : Inv t rest := by
  have hcritical : Critical rest → Critical (task :: rest) := fun hc => critical_cons.mpr (.inr hc)
  refine ⟨⟨h.calls, h.ordered.2, ?_, ?_, h.live, h.timer, h.subscriber⟩, ?_, ?_, ?_, ?_, ?_⟩
  · exact Nat.le_trans (List.Sublist.filter _ (List.sublist_cons_self task rest)).length_le h.once
  · exact fun calls error hmem => h.rejecting calls error (List.mem_cons_of_mem _ hmem)
  · exact fun hnear => h.parked (hnear.imp_left hcritical)
  · exact fun harmed => ⟨fun hc => (h.armed harmed).1 (hcritical hc), (h.armed harmed).2⟩
  · exact fun appVersion hmem => h.arming appVersion (List.mem_cons_of_mem _ hmem)
  · exact fun hclose => ⟨(h.closing hclose).1, fun token appVersion hmem =>
      (h.closing hclose).2 token appVersion (List.mem_cons_of_mem _ hmem)⟩
  · intro hinvalid
    obtain ⟨hretry, hnot, hnil⟩ := h.invalid hinvalid
    exact ⟨hretry, fun hc => hnot (hcritical hc), hnil⟩

/-- The rest of a stack whose top is critical is not. -/
theorem Base.rest_not_critical {task : Task} (h : Base t (task :: rest))
    (htask : task.isCritical = true) : ¬Critical rest := by
  have honce := h.once
  rw [List.filter_cons_of_pos htask, List.length_cons] at honce
  exact not_critical_of_filter (List.length_eq_zero_iff.mp (by omega))

/-- The state may change where nothing is critical and no timer is armed. -/
theorem Inv.enters (h : Inv t stack) (hstack : ¬Critical stack) (hnil : t.reconnects = [])
    (hkeeps : RpcTransport.Keeps t { u with state := t.state })
    (htasks : ∀ task ∈ tasks, task.isPlain = true) : Inv u (tasks ++ stack) := by
  have hu := h.keeps hkeeps htasks fun _ _ _ => hstack
  have hunil : u.reconnects = [] := hkeeps.reconnects.trans hnil
  have hustack : ¬Critical (tasks ++ stack) := by
    intro hc
    exact (critical_append.mp hc).elim (not_critical_of_plain htasks) hstack
  exact ⟨⟨⟨hu.calls.pending, hu.calls.made, hu.calls.epoch⟩, hu.ordered, hu.once, hu.rejecting,
      hu.live, hu.timer, hu.subscriber⟩,
    fun hnear => hnear.elim (fun hc => absurd hc hustack) (fun harmed => absurd hunil harmed),
    fun harmed => absurd hunil harmed, hu.arming, hu.closing, hu.invalid⟩

theorem Inv.reconnects_nil (h : Inv t stack) (hnot : ¬t.Quiet) : t.reconnects = [] := by
  by_contra harmed
  exact hnot (h.parked (.inr harmed)).quiet

theorem Inv.critical_reconnects (h : Inv t stack) (hstack : Critical stack) : t.reconnects = [] := by
  by_contra harmed
  exact (h.armed harmed).1 hstack

/-- A stop, wherever it is called: nothing is left of the session but what the functions around it
still have to do. -/
theorem Base.stop (h : Base t stack) (error : CallError) {reconnect : Bool}
    (hreconnect : reconnect = true → ¬Critical stack)
    (harming : ∀ appVersion, .armReconnect appVersion ∈ stack → t.closeRequested = false)
    (hclosing : t.closeRequested = true → t.retryAllowed = false ∧
      ∀ token appVersion, .beginOpen token appVersion ∉ stack)
    (hinvalid : t.invalidated = true → t.retryAllowed = false ∧ ¬Critical stack) :
    Inv (t.stopCurrent error reconnect).1 ((t.stopCurrent error reconnect).2 ++ stack) := by
  obtain ⟨hstopped, hstate, published, htasks, hpublished⟩ :=
    RpcTransport.stopCurrent_spec h.calls error reconnect
  generalize (t.stopCurrent error reconnect).1 = u at hstopped hstate ⊢
  rw [htasks]
  have hnil : u.reconnects = [] := by
    rw [hstopped.reconnects]
    rcases h.timer with hnil | ⟨id, appVersion, hone, htimer⟩
    · rw [hnil, List.filter_nil]
    · rw [hone, htimer]
      simp
  have hparked : u.Parked := by
    refine ⟨hstopped.socket, hstopped.stale, ?_⟩
    rcases hstate with hstate | hstate
    · rw [hstate]
      exact ⟨by decide, by decide⟩
    · rw [hstate]
      exact ⟨by decide, by decide⟩
  have hsubscriber : ∀ e, u.openSubscriber = some e → e < u.epoch := by
    intro e he
    rw [hstopped.epoch]
    exact Nat.lt_succ_of_le (h.subscriber e (hstopped.subscriber e he))
  -- The publication arms only where nothing is critical and the transport was not closed.
  have hfront : (published.filter Task.isCritical = []) ∨
      (∃ appVersion, published = [.publish, .armReconnect appVersion]) ∧ ¬Critical stack ∧
        t.retryAllowed = true := by
    rcases hpublished with rfl | ⟨hreconnects, hretry, hpublished⟩
    · exact .inl rfl
    · exact .inr ⟨hpublished, hreconnect hreconnects, hretry⟩
  have hnotWork : ∀ task ∈ published ++ [.finishOpenError t.epoch error,
      .rejectPending (t.pending.filter fun call => !t.isAbandoned call) error],
      task.isWork = false := by
    intro task hmem
    rcases hpublished with rfl | ⟨-, -, appVersion, rfl⟩
    · simp only [List.cons_append, List.nil_append, List.mem_cons, List.not_mem_nil, or_false] at hmem
      rcases hmem with rfl | rfl | rfl <;> rfl
    · simp only [List.cons_append, List.nil_append, List.mem_cons, List.not_mem_nil, or_false] at hmem
      rcases hmem with rfl | rfl | rfl | rfl <;> rfl
  have hordered : ∀ tasks : List Task, (∀ task ∈ tasks, task.isWork = false) → Ordered tasks := by
    intro tasks htasks
    induction tasks with
    | nil => trivial
    | cons task tasks ih =>
      refine ⟨fun hwork => ?_, ih fun other hmem => htasks other (List.mem_cons_of_mem _ hmem)⟩
      rw [htasks task List.mem_cons_self] at hwork
      cases hwork
  have honce : ((published ++ [Task.finishOpenError t.epoch error, Task.rejectPending
      (t.pending.filter fun call => !t.isAbandoned call) error] ++ stack).filter
        Task.isCritical).length ≤ 1 := by
    rw [List.filter_append, List.filter_append]
    rcases hfront with hnone | ⟨⟨appVersion, rfl⟩, hstack, -⟩
    · rw [hnone]
      exact h.once
    · rw [filter_critical_nil hstack]
      exact Nat.le_refl 1
  have hmem : ∀ {task}, task ∈ published ++ [.finishOpenError t.epoch error, .rejectPending
      (t.pending.filter fun call => !t.isAbandoned call) error] ++ stack → task.isCritical = true →
      task ∈ stack ∨ ∃ appVersion, task = .armReconnect appVersion ∧ ¬Critical stack ∧
        t.retryAllowed = true := by
    intro task hmem htask
    rcases List.mem_append.mp hmem with hmem | hmem
    · refine .inr ?_
      rcases List.mem_append.mp hmem with hmem | hmem
      · rcases hfront with hnone | ⟨⟨appVersion, rfl⟩, hstack, hretry⟩
        · exact absurd ⟨task, hmem, htask⟩ (not_critical_of_filter hnone)
        · simp only [List.mem_cons, List.not_mem_nil, or_false] at hmem
          rcases hmem with rfl | rfl
          · cases htask
          · exact ⟨appVersion, rfl, hstack, hretry⟩
      · simp only [List.mem_cons, List.not_mem_nil, or_false] at hmem
        rcases hmem with rfl | rfl <;> cases htask
    · exact .inl hmem
  refine ⟨⟨hstopped.calls, ordered_append h.ordered (hordered _ hnotWork) ?_, honce, ?_, ?_,
    .inl hnil, fun e he => Nat.le_of_lt (hsubscriber e he)⟩, fun _ => hparked,
    fun harmed => absurd hnil harmed, ?_, ?_, ?_⟩
  · intro task hmem hwork
    rw [hnotWork task hmem] at hwork
    cases hwork
  · intro calls error' hreject call hcall
    have hold : .rejectPending calls error' ∈ stack ∨
        calls = t.pending.filter fun call => !t.isAbandoned call := by
      rcases List.mem_append.mp hreject with hmem | hmem
      · refine .inr ?_
        rcases List.mem_append.mp hmem with hmem | hmem
        · rcases hpublished with rfl | ⟨-, -, appVersion, rfl⟩
          · simp at hmem
          · simp at hmem
        · simp only [List.mem_cons, List.not_mem_nil, or_false, reduceCtorEq, false_or,
            Task.rejectPending.injEq] at hmem
          exact hmem.1
      · exact .inl hmem
    rcases hold with hold | rfl
    · obtain ⟨c, hc, hlt⟩ := h.rejecting calls error' hold call hcall
      obtain ⟨c', hc', heq, -⟩ := hstopped.epochs call c hc
      rw [hstopped.epoch]
      exact ⟨c', hc', heq ▸ Nat.lt_succ_of_lt hlt⟩
    · obtain ⟨c, hc, -⟩ := h.calls.made.2 call (List.mem_filter.mp hcall).1
      obtain ⟨c', hc', heq, -⟩ := hstopped.epochs call c hc
      rw [hstopped.epoch]
      exact ⟨c', hc', heq ▸ Nat.lt_succ_of_le (h.calls.epoch call c hc).1⟩
  · intro i s hs hlive
    obtain ⟨hold, hne⟩ := hstopped.sockets i s hs hlive
    exact absurd (h.live i s hold hlive) hne
  · intro appVersion harm
    refine ⟨?_, fun heq => Nat.lt_irrefl _ (hsubscriber _ heq)⟩
    rw [hstopped.closeRequested]
    rcases hmem harm rfl with hold | ⟨_, -, -, hretry⟩
    · exact harming appVersion hold
    · cases hclose : t.closeRequested with
      | false => rfl
      | true => exact absurd hretry (by rw [(hclosing hclose).1]; decide)
  · intro hclose
    rw [hstopped.closeRequested] at hclose
    rw [hstopped.retryAllowed]
    refine ⟨(hclosing hclose).1, fun token appVersion hbegin => ?_⟩
    rcases hmem hbegin rfl with hold | ⟨_, heq, -⟩
    · exact (hclosing hclose).2 token appVersion hold
    · cases heq
  · intro hinvalidated
    rw [hstopped.invalidated] at hinvalidated
    rw [hstopped.retryAllowed]
    obtain ⟨hretry, hstack⟩ := hinvalid hinvalidated
    refine ⟨hretry, fun hc => ?_, hnil⟩
    obtain ⟨task, htask, hcritical⟩ := hc
    rcases hmem htask hcritical with hold | ⟨_, -, -, hallowed⟩
    · exact hstack ⟨task, hold, hcritical⟩
    · rw [hretry] at hallowed
      cases hallowed

theorem Inv.outcome (h : Inv t stack) {result : RpcTransport × List Task}
    (hresult : t.Outcome result) (hstack : ¬Critical stack) :
    Inv result.1 (result.2 ++ stack) := by
  cases hresult with
  | keeps hkeeps htasks =>
    exact h.keeps hkeeps (fun task hmem => (htasks task hmem).1) fun _ _ _ => hstack
  | enters hnot hkeeps htasks =>
    exact h.enters hstack (h.reconnects_nil hnot) hkeeps fun task hmem => (htasks task hmem).1
  | @stops v error reconnect tail hresets hplain =>
    have htail : ∀ task ∈ tail, task.isPlain = true := fun task hmem => (hplain task hmem).1
    have hbase := h.toBase.keeps hresets.keeps htail fun _ _ _ => hstack
    have hv : Base v (tail ++ stack) :=
      ⟨⟨hbase.calls.pending, hbase.calls.made, hbase.calls.epoch⟩, hbase.ordered, hbase.once,
        hbase.rejecting, hbase.live, hbase.timer, hbase.subscriber⟩
    have hnot : ¬Critical (tail ++ stack) := by
      intro hc
      exact (critical_append.mp hc).elim (not_critical_of_plain htail) hstack
    have hclose : v.closeRequested = t.closeRequested := hresets.keeps.closeRequested
    have hretry : t.retryAllowed = false → v.retryAllowed = false := by
      intro hfalse
      cases hv : v.retryAllowed with
      | false => rfl
      | true => exact (hresets.retryAllowed hv).symm.trans hfalse
    rw [List.append_assoc]
    apply hv.stop error (fun _ => hnot)
    · exact fun appVersion hmem => absurd ⟨_, hmem, rfl⟩ hnot
    · intro hclosed
      rw [hclose] at hclosed
      exact ⟨hretry (h.closing hclosed).1, fun token appVersion hmem => hnot ⟨_, hmem, rfl⟩⟩
    · intro hinvalid
      refine ⟨?_, hnot⟩
      rcases hresets.invalidated hinvalid with hold | hfalse
      · exact hretry (h.invalid hold).1
      · exact hfalse

/-- The first half of `createSocket`. -/
theorem Base.createSocket (h : Base t stack) (hstack : ¬Critical stack) (hparked : t.Parked)
    (hnil : t.reconnects = []) (hclosing : t.closeRequested = true → t.retryAllowed = false)
    (hinvalid : t.invalidated = false) (appVersion : String) (reconnect subscriber : Bool) :
    Inv (t.createSocket appVersion reconnect subscriber).1
      ((t.createSocket appVersion reconnect subscriber).2 ++ stack) := by
  have hnotBegin : ∀ token version, .beginOpen token version ∉ stack :=
    fun token version hmem => hstack ⟨_, hmem, rfl⟩
  refine ⟨⟨⟨h.calls.pending, h.calls.made, fun i c hc => ⟨Nat.le_succ_of_le (h.calls.epoch i c hc).1,
      fun hactive => absurd ((hparked.calls i c hc).1.symm.trans hactive) (by decide)⟩⟩,
    ⟨fun hwork => (by cases hwork), fun hwork => (by cases hwork), h.ordered⟩, ?_, ?_, h.live,
    h.timer, ?_⟩, fun _ => ⟨hparked.socket, fun i c hc => ?_, ?_⟩, 
    fun harmed => absurd hnil harmed, ?_, ?_, ?_⟩
  · show (List.filter Task.isCritical (.publish :: .makeSocket (t.epoch + 1) :: stack)).length ≤ 1
    rw [List.filter_cons_of_neg (by decide), List.filter_cons_of_pos rfl,
      filter_critical_nil hstack]
    exact Nat.le_refl 1
  · intro calls error hmem call hcall
    have hold : .rejectPending calls error ∈ stack := by simpa [RpcTransport.createSocket] using hmem
    obtain ⟨c, hc, hlt⟩ := h.rejecting calls error hold call hcall
    exact ⟨c, hc, Nat.lt_succ_of_lt hlt⟩
  · intro e he
    cases subscriber with
    | false => cases he
    | true => exact Nat.le_of_eq (Option.some.inj he).symm
  · obtain ⟨hidle, hlt⟩ := hparked.calls i c hc
    exact ⟨hidle, Nat.lt_succ_of_lt hlt⟩
  · cases reconnect with
    | false =>
      show RpcConnectionState.connecting ≠ .authenticated ∧ RpcConnectionState.connecting ≠ .anonymous
      decide
    | true =>
      show RpcConnectionState.reconnecting ≠ .authenticated ∧
        RpcConnectionState.reconnecting ≠ .anonymous
      decide
  · intro version hmem
    have hold : .armReconnect version ∈ stack := by simpa [RpcTransport.createSocket] using hmem
    exact absurd ⟨_, hold, rfl⟩ hstack
  · intro hclosed
    refine ⟨hclosing hclosed, fun token version hmem => hnotBegin token version ?_⟩
    simpa [RpcTransport.createSocket] using hmem
  · intro hinvalidated
    exact absurd (hinvalid.symm.trans hinvalidated) (by decide)

/-- No function that is about to make a socket or a timer runs after an invalidation or `close`. -/
theorem Inv.valid_of_critical (h : Inv t stack) (hstack : Critical stack) : t.invalidated = false := by
  cases hinvalid : t.invalidated with
  | false => rfl
  | true => exact absurd hstack (h.invalid hinvalid).2.1

theorem Inv.beginOpen {token : Option String} {appVersion : String}
    (h : Inv t (.beginOpen token appVersion :: rest)) :
    Inv (t.beginOpen token appVersion).1 ((t.beginOpen token appVersion).2 ++ rest) := by
  have hcritical : Critical (.beginOpen token appVersion :: rest) := critical_cons.mpr (.inl rfl)
  have hpop := h.pop
  have hparked := h.parked (.inl hcritical)
  have hopen : t.closeRequested = false := by
    cases hclosed : t.closeRequested with
    | false => rfl
    | true => exact absurd List.mem_cons_self ((h.closing hclosed).2 token appVersion)
  refine Base.createSocket (t := { t with
      reconnectToken := token
      retryAllowed := true
      hasAuthenticatedSession := false
      retryAttempt := 0 }) ?_ (h.rest_not_critical rfl)
    ⟨hparked.socket, hparked.calls, hparked.state⟩ (h.critical_reconnects hcritical) ?_
    (h.valid_of_critical hcritical) appVersion false true
  · exact ⟨⟨hpop.calls.pending, hpop.calls.made, hpop.calls.epoch⟩, hpop.ordered, hpop.once,
      hpop.rejecting, hpop.live, hpop.timer, hpop.subscriber⟩
  · intro hclosed
    exact absurd (hopen.symm.trans hclosed) (by decide)

theorem Inv.makeSocket {epoch : Nat} (h : Inv t (.makeSocket epoch :: rest)) (outside : Outside) :
    Inv (t.makeSocket epoch outside).1 ((t.makeSocket epoch outside).2 ++ rest) := by
  have hcritical : Critical (.makeSocket epoch :: rest) := critical_cons.mpr (.inl rfl)
  have hrest := h.rest_not_critical rfl
  have hnil := h.critical_reconnects hcritical
  have hparked := h.parked (.inl hcritical)
  have hpop := h.pop
  unfold RpcTransport.makeSocket
  split
  · refine ⟨⟨⟨hpop.calls.pending, hpop.calls.made, hpop.calls.epoch⟩, hpop.ordered, hpop.once,
      hpop.rejecting, fun i s hs hlive => ?_, .inl hnil, hpop.subscriber⟩, ?_, ?_, hpop.arming,
      hpop.closing, hpop.invalid⟩
    · have hget := hs
      dsimp only at hget
      rw [List.getElem?_append] at hget
      split at hget
      · have hold := h.live i s hget hlive
        rw [hparked.socket] at hold
        cases hold
      · next hge =>
        obtain ⟨hi, -⟩ := List.getElem?_eq_some_iff.mp hget
        rw [List.length_singleton] at hi
        exact congrArg some (by omega)
    · exact fun hnear => hnear.elim (fun hc => absurd hc hrest) fun harmed => absurd hnil harmed
    · exact fun harmed => absurd hnil harmed
  · exact hpop.enters hrest hnil (.of_eq rfl rfl rfl fun _ he => he) (by simp [Task.isPlain])

theorem Inv.armReconnect {appVersion : String} (h : Inv t (.armReconnect appVersion :: rest)) :
    Inv (t.armReconnect appVersion) rest := by
  have hcritical : Critical (.armReconnect appVersion :: rest) := critical_cons.mpr (.inl rfl)
  have hrest := h.rest_not_critical rfl
  have hnil := h.critical_reconnects hcritical
  have hparked := h.parked (.inl hcritical)
  have hclose := (h.arming appVersion List.mem_cons_self).1
  have hpop := h.pop
  refine ⟨⟨⟨hpop.calls.pending, hpop.calls.made, hpop.calls.epoch⟩, hpop.ordered, hpop.once,
    hpop.rejecting, hpop.live, .inr ⟨t.nextTimer, appVersion, ?_, rfl⟩, hpop.subscriber⟩,
    fun _ => ⟨hparked.socket, hparked.calls, hparked.state⟩, fun _ => ⟨hrest, hclose⟩, hpop.arming,
    hpop.closing, fun hinvalid => ?_⟩
  · show t.reconnects ++ [(t.nextTimer, appVersion)] = [(t.nextTimer, appVersion)]
    rw [hnil, List.nil_append]
  · exact absurd ((h.valid_of_critical hcritical).symm.trans hinvalid) (by decide)

/-- Rejecting a call of an older epoch only runs its callback. -/
theorem rejectCall_stale {call : Nat} {c : PendingCall} (hc : t.calls[call]? = some c)
    (hstale : c.epoch < t.epoch) (error : CallError) :
    RpcTransport.Keeps t (t.rejectCall call error).1 ∧
      ∀ task ∈ (t.rejectCall call error).2, task = .publish := by
  have heq : t.rejectCall call error = t.reject c.owner c.epoch error := by
    unfold RpcTransport.rejectCall
    rw [hc]
  rw [heq]
  cases c.owner with
  | subscriber => exact ⟨.refl t, fun task hmem => List.mem_singleton.mp hmem⟩
  | sessionOpen =>
    have hreject : t.reject .sessionOpen c.epoch error = (t, []) := by
      show t.rejectSessionOpen c.epoch error = (t, [])
      unfold RpcTransport.rejectSessionOpen
      rw [if_pos (Nat.ne_of_lt hstale)]
    rw [hreject]
    exact ⟨.refl t, fun task hmem => by cases hmem⟩
  | ping => exact ⟨.of_eq rfl rfl rfl fun _ he => he, fun task hmem => by cases hmem⟩
  | internal => exact ⟨.refl t, fun task hmem => by cases hmem⟩

theorem Inv.publishes (h : Inv t stack) (hkeeps : RpcTransport.Keeps t u)
    (htasks : ∀ task ∈ tasks, task = .publish) : Inv u (tasks ++ stack) := by
  apply h.keeps hkeeps
  · intro task hmem
    rw [htasks task hmem]
    rfl
  · intro task hmem hwork
    rw [htasks task hmem] at hwork
    cases hwork

theorem Inv.rejectPending {calls : List Nat} {error : CallError}
    (h : Inv t (.rejectPending calls error :: rest)) :
    Inv (t.rejectPending calls error).1 ((t.rejectPending calls error).2 ++ rest) := by
  cases calls with
  | nil => exact h.pop
  | cons call calls =>
    have hpop := h.pop
    have hcalls := h.rejecting (call :: calls) error List.mem_cons_self
    have hnext : Inv t (.rejectPending calls error :: rest) := by
      have hmem : ∀ {task : Task}, task ∈ .rejectPending calls error :: rest →
          task.isCritical = true → task ∈ rest := by
        intro task hmem htask
        rcases List.mem_cons.mp hmem with rfl | hmem
        · cases htask
        · exact hmem
      have hcritical : Critical (.rejectPending calls error :: rest) → Critical rest := by
        intro hc
        exact (critical_cons.mp hc).resolve_left fun hfalse => by cases hfalse
      refine ⟨⟨h.calls, ⟨fun hwork => (by cases hwork), hpop.ordered⟩, hpop.once, ?_, h.live, h.timer,
        h.subscriber⟩, fun hnear => hpop.parked (hnear.imp_left hcritical), ?_, ?_, ?_, ?_⟩
      · intro calls' error' hreject other hother
        rcases List.mem_cons.mp hreject with heq | hreject
        · obtain ⟨rfl, -⟩ := Task.rejectPending.inj heq
          exact hcalls other (List.mem_cons_of_mem _ hother)
        · exact hpop.rejecting calls' error' hreject other hother
      · exact fun harmed => ⟨fun hc => (hpop.armed harmed).1 (hcritical hc), (hpop.armed harmed).2⟩
      · exact fun appVersion harm => hpop.arming appVersion (hmem harm rfl)
      · exact fun hclosed => ⟨(hpop.closing hclosed).1, fun token appVersion hbegin =>
          (hpop.closing hclosed).2 token appVersion (hmem hbegin rfl)⟩
      · intro hinvalid
        obtain ⟨hretry, hnot, hnil⟩ := hpop.invalid hinvalid
        exact ⟨hretry, fun hc => hnot (hcritical hc), hnil⟩
    obtain ⟨c, hc, hstale⟩ := hcalls call List.mem_cons_self
    obtain ⟨hkeeps, htasks⟩ := rejectCall_stale hc hstale error
    have hinv := hnext.publishes hkeeps htasks
    rw [RpcTransport.rejectPending, List.append_assoc]
    exact hinv

theorem Inv.exec {task : Task} (h : Inv t (task :: rest)) (outside : Outside) :
    Inv (t.exec outside task).1 ((t.exec outside task).2 ++ rest) := by
  cases hwork : task.isWork with
  | true => exact h.pop.outcome (t.exec_outcome outside hwork) (h.ordered.1 hwork)
  | false =>
    cases task with
    | publish => exact h.pop
    | beginOpen token appVersion => exact h.beginOpen
    | makeSocket epoch => exact h.makeSocket outside
    | armReconnect appVersion => exact h.armReconnect
    | finishOpenError epoch error =>
      exact h.pop.publishes (t.finishOpen_keeps epoch) (t.finishOpen_tasks epoch)
    | rejectPending calls error => exact h.rejectPending
    | notifyInvalidated stoppedEpoch | rejectCall call error | admitCall call | send call | pump
    | supersede call | sendAppState | startHeartbeat | notifyOpen epoch | respond call body
    | settle call body => cases hwork

end Chahua.Transport

import Chahua.Rpc.Gate

namespace Chahua.Rpc

open Framework

namespace Session

variable {s t : Session} {good : Prop} {k : Nat}

theorem Schedules.gate (h : s.Schedules t) : t.gate = { s.gate with works := t.works } := by
  unfold Schedules at h
  rw [h]
  rfl

theorem shut_guarded (h : s.gate.Guarded good k) (hs : s.spawning = none) :
    s.shut.gate.Guarded good k := Gate.Guarded.shut h hs

theorem offer_sends (s : Session) (frame : Frame) (sendOk : Bool) :
    ∃ fs, (s.offer frame sendOk).gate = { s.gate with sent := s.gate.sent ++ fs } := by
  unfold offer
  split
  · exact ⟨[], by simp [gate]⟩
  · exact ⟨[frame], rfl⟩

theorem offer_guarded (h : s.gate.Guarded good k) (frame : Frame) (sendOk : Bool) :
    (s.offer frame sendOk).gate.Guarded good k := by
  obtain ⟨fs, hfs⟩ := s.offer_sends frame sendOk
  rw [hfs]
  exact h.send fs

theorem send_guarded (h : s.gate.Guarded good k) (hs : s.spawning = none) (frame : Frame)
    (sendOk : Bool) : (s.send frame sendOk).gate.Guarded good k := by
  unfold send
  split
  · exact shut_guarded h hs
  · exact h.send [frame]

theorem offerLast_sends (s : Session) (p : Option PreparedResponse) (sendOk : Bool) :
    ∃ fs, (s.offerLast p sendOk).gate =
      { s.gate with sent := s.gate.sent ++ fs, ended := true, bound := false } := by
  cases p with
  | none => exact ⟨[], by simp [offerLast, Session.shut, gate]⟩
  | some r =>
    obtain ⟨fs, hfs⟩ := s.offer_sends (.response r) sendOk
    exact ⟨fs, congrArg (fun g : Gate => { g with ended := true, bound := false }) hfs⟩

theorem offerLast_guarded (h : s.gate.Guarded good k) (hs : s.spawning = none)
    (p : Option PreparedResponse) (sendOk : Bool) :
    (s.offerLast p sendOk).gate.Guarded good k := by
  obtain ⟨fs, hfs⟩ := s.offerLast_sends p sendOk
  rw [hfs]
  exact (h.send fs).shut hs

theorem handleLifecycleFailure_guarded (h : s.gate.Guarded good k)
    (failure : RpcLifecycleFailure) (notifyOk : Bool) :
    (s.handleLifecycleFailure failure notifyOk).gate.Guarded good k := by
  unfold handleLifecycleFailure
  split
  · exact h
  · exact offer_guarded (s := { s with accepting := false, lifecycleNotified := true }) h _ _

theorem handleLifecycleFailure_spawning (s : Session) (failure : RpcLifecycleFailure)
    (notifyOk : Bool) : (s.handleLifecycleFailure failure notifyOk).spawning = s.spawning := by
  unfold handleLifecycleFailure offer
  split
  · rfl
  · dsimp only
    split <;> rfl

/-- A lifecycle failure ends the loop. -/
theorem failed_guarded (h : s.gate.Guarded good k) (hs : s.spawning = none)
    (failure : RpcLifecycleFailure) (notifyOk : Bool) :
    (s.handleLifecycleFailure failure notifyOk).shut.gate.Guarded good k :=
  shut_guarded (handleLifecycleFailure_guarded h failure notifyOk)
    ((handleLifecycleFailure_spawning s failure notifyOk).trans hs)

theorem forget_gate (s : Session) (id : Option RpcId) : (s.forget id).gate = s.gate := by
  cases id <;> rfl

/-- A worker's result is in the hands of the results arm, `k` counts its success. -/
structure Delivering (good : Prop) (k : Nat) (g : Gate) : Prop where
  guarded : g.Guarded good k
  running : g.ended = false
  idle : g.spawning = none
  empty : g.handshakePending = true → ∀ o, g.works.row o = none
  answered : g.handshakePending = false → g.Answered ∧ g.opened = true

namespace Delivering

theorem resume (h : Delivering good k s.gate) (hp : s.handshakePending = false) :
    s.resume.gate.Guarded good 0 := by
  have : s.resume.gate = s.gate := by simp [Session.resume, gate, hp]
  exact this ▸ h.guarded.weaken (Nat.zero_le _)

theorem shut (h : Delivering good k s.gate) : s.shut.gate.Guarded good 0 :=
  (shut_guarded h.guarded h.idle).weaken (Nat.zero_le _)

theorem fail (h : Delivering good k s.gate) (failure : RpcLifecycleFailure) (notifyOk : Bool) :
    (s.handleLifecycleFailure failure notifyOk).shut.gate.Guarded good 0 :=
  (failed_guarded h.guarded h.idle failure notifyOk).weaken (Nat.zero_le _)

theorem push (h : Delivering good k s.gate) (frame : Frame) :
    Delivering good k (s.push frame).gate where
  guarded := h.guarded.send [frame]
  running := h.running
  idle := h.idle
  empty := h.empty
  answered hp := ⟨(h.answered hp).1.send, (h.answered hp).2⟩

theorem activateThen {spawning : Spawning} (h : Delivering good k s.gate)
    (hg : s.gate.Answered ∧ s.opened = true) (hk : spawning.succeeded = true → 1 ≤ k) :
    (s.activateThen spawning).gate.Guarded good 0 := by
  unfold Session.activateThen activate
  split
  · exact h.guarded.spawn h.idle h.empty ⟨h.running, hg⟩ hk
  · next hn =>
    simp only [Bool.or_eq_true, not_or, Bool.not_eq_true] at hn
    refine (h.guarded.activate hg.1 hn.1.2).spawn h.idle h.empty ⟨h.running, ?_, hg.2⟩ hk
    exact hg.1

end Delivering

/-- The result of a single call is delivered. The first message has an id and closes the
session when it fails. -/
theorem deliverSingle_guarded {o : Origin} {w : Work} {result : WorkResult}
    {sendOk notifyOk : Bool}
    (h : Delivering good (w.carries result) s.gate)
    (hr : w.Reported o result) (ho : s.gate.handshakePending = true → s.gate.Opener o w) :
    (s.deliverSingle w result sendOk notifyOk).gate.Guarded good 0 := by
  rw [← forget_gate s w.call.id] at h ho
  unfold deliverSingle
  dsimp only
  generalize s.forget w.call.id = u at h ho
  have hidle : w.call.id = none → u.gate.handshakePending = false := by
    intro hid
    by_contra hp
    obtain ⟨-, -, hsome, -⟩ := ho (by simpa using hp)
    simp [hid] at hsome
  obtain ⟨hshape, hresponse⟩ := hr
  cases hres : result.response with
  | none =>
    rw [hres] at hshape
    have hp := hidle (Option.not_isSome_iff_eq_none.mp (by simp [← hshape]))
    dsimp only
    split
    · next hact => exact h.activateThen (h.answered hp) (Work.one_le_carries hact)
    · exact h.resume hp
  | some r =>
    obtain ⟨horigin, hsucceeded⟩ := hresponse r hres
    dsimp only
    have hsus : Delivering good (w.carries result)
        (if r.lifecycle.isSome = true then u.suspendAuthorizedWork else u).gate := by
      split <;> exact h
    have hosus : (if r.lifecycle.isSome = true then u.suspendAuthorizedWork else
        u).gate.handshakePending = true →
        (if r.lifecycle.isSome = true then u.suspendAuthorizedWork else u).gate.Opener o w := by
      split <;> exact ho
    generalize (if r.lifecycle.isSome = true then u.suspendAuthorizedWork else u) = v at hsus hosus
    split
    · exact hsus.shut
    have hpush := hsus.push (.response r)
    split
    · next hact =>
      simp only [Bool.and_eq_true] at hact
      have hk : result.succeeded = true := hsucceeded hact.2
      refine hpush.activateThen ?_ (Work.one_le_carries hact.1)
      by_cases hp : v.gate.handshakePending = true
      · obtain ⟨-, hmethod, -, -, hcall⟩ := hosus hp
        refine ⟨⟨.response r, by simp [gate, Session.push], r, by simp [Frame.responses],
          hact.2, w.call, horigin ▸ hcall, hact.1⟩, ?_⟩
        have := Work.one_le_carries hact.1 hk
        exact hpush.guarded.counted.known (by omega)
      · exact hpush.answered (Bool.not_eq_true _ ▸ hp)
    · next hact =>
      cases hl : r.lifecycle with
      | some failure => exact hpush.fail failure notifyOk
      | none =>
        dsimp only
        split
        · exact hpush.shut
        · next hclose =>
          refine hpush.resume ?_
          by_contra hp
          obtain ⟨-, hmethod, -, hcloses, -⟩ := hosus (by simpa [gate, Session.push] using hp)
          have hhand : w.activateAfterSuccess = true := by
            simp [Work.activateAfterSuccess, isHandshake, hmethod]
          simp [hhand] at hact
          simp [hcloses, hact] at hclose

theorem completeBatch_guarded {batch : BatchAssembly} {sendOk notifyOk : Bool}
    (h : Delivering good k s.gate) (hp : s.handshakePending = false)
    (hk : batch.succeeded = true → 1 ≤ k) :
    (s.completeBatch batch sendOk notifyOk).gate.Guarded good 0 := by
  unfold completeBatch
  cases hflush : s.flushBatch batch sendOk with
  | none => exact h.shut
  | some t =>
    have ht : Delivering good k t.gate ∧ t.handshakePending = false := by
      unfold flushBatch at hflush
      split at hflush
      · cases hflush
        exact ⟨h, hp⟩
      split at hflush
      · cases hflush
      · cases hflush
        exact ⟨h.push _, hp⟩
    obtain ⟨ht, hpt⟩ := ht
    have hr : Delivering good k (t.release batch).gate := ht
    dsimp only
    cases batch.lifecycle with
    | some failure => exact hr.fail failure notifyOk
    | none =>
      dsimp only
      split
      · exact hr.activateThen (hr.answered hpt) hk
      split
      · exact hr.shut
      · exact hr.resume hpt

theorem absorb_succeeded {batch : BatchAssembly} {w : Work} {result : WorkResult}
    (h : (absorb batch w result).succeeded = true) :
    batch.succeeded = true ∨ 1 ≤ w.carries result := by
  have hor : batch.succeeded = true ∨ w.activateAfterSuccess = true ∧ result.succeeded = true := by
    cases hres : result.response with
    | none => simpa [absorb, hres] using h
    | some r =>
      simp only [absorb, hres, BatchAssembly.push, Bool.or_eq_true, Bool.and_eq_true] at h
      exact h.imp_right fun h => ⟨h.1.1, h.2⟩
  exact hor.imp_right fun h => Work.one_le_carries h.1 h.2

/-- The result of a member of a batch is delivered. -/
theorem deliverBatch_guarded {b : Nat} {w : Work} {result : WorkResult} {sendOk notifyOk : Bool}
    (h : Delivering good (w.carries result) s.gate) (hp : s.handshakePending = false) :
    (s.deliverBatch b w result sendOk notifyOk).gate.Guarded good 0 := by
  unfold deliverBatch
  dsimp only
  have hsus : Delivering good (w.carries result)
      (if (result.response.bind PreparedResponse.lifecycle).isSome = true then
        s.suspendAuthorizedWork else s).gate := by
    split <;> exact h
  have hpsus : (if (result.response.bind PreparedResponse.lifecycle).isSome = true then
        s.suspendAuthorizedWork else s).handshakePending = false := by
    split <;> exact hp
  generalize (if (result.response.bind PreparedResponse.lifecycle).isSome = true then
    s.suspendAuthorizedWork else s) = u at hsus hpsus
  cases hrow : u.batches.row b with
  | none => exact hsus.resume hpsus
  | some batch =>
    dsimp only
    split
    · refine completeBatch_guarded (k := w.carries result + if batch.succeeded then 1 else 0)
        ⟨hsus.guarded.complete hrow, hsus.running, hsus.idle, hsus.empty, hsus.answered⟩ hpsus ?_
      intro hsucc
      rcases absorb_succeeded hsucc with hold | hnew
      · simp [hold]
      · omega
    · exact Delivering.resume (k := 0) ⟨hsus.guarded.absorb hrow absorb_succeeded, hsus.running,
        hsus.idle, hsus.empty, hsus.answered⟩ hpsus

theorem scheduleCall_works {call : RpcCall} {origin : Origin} {destination : ResultDestination}
    {close : Bool} {choice : Choice} {r : ScheduledCall}
    (h : s.scheduleCall call origin destination close choice = (t, r)) :
    t.gate = { s.gate with works := t.works } ∧
      (t.works = s.works ∨ t.works = s.works.upsert origin ⟨call, destination, close, none⟩) := by
  obtain ⟨hs, -, hcase⟩ := scheduleCall_cases h
  refine ⟨hs.gate, ?_⟩
  rcases hcase with ⟨p, -, rfl⟩ | ⟨-, ⟨-, -, hw, -⟩ | ⟨p, -, hrefused⟩⟩
  · exact Or.inl rfl
  · exact Or.inr hw
  · exact Or.inl hrefused.works

theorem scheduleCall_news {call : RpcCall} {origin : Origin} {destination : ResultDestination}
    {close : Bool} {choice : Choice} {r : ScheduledCall}
    (h : s.scheduleCall call origin destination close choice = (t, r)) {o : Origin} {w : Work}
    (hw : t.works.row o = some w) : w.result = none ∨ s.works.row o = some w := by
  rcases (scheduleCall_works h).2 with hsame | hnew
  · exact Or.inr (hsame ▸ hw)
  · rw [hnew, Table.upsert_row] at hw
    split at hw
    · cases hw
      exact Or.inl rfl
    · exact Or.inr hw

theorem settle_succeeded (batch : BatchAssembly) (call : RpcCall) (p : Option PreparedResponse) :
    ((batch.expect call).settle call p).succeeded = batch.succeeded := by
  unfold BatchAssembly.settle
  split
  · cases p <;> rfl
  · rfl

/-- Scheduling brings no results, neither to the workers nor to the batch. -/
theorem scheduleItems_news {b n : Nat} {choice : Nat → Choice} (items : List RpcItem) {k : Nat}
    {batch : BatchAssembly} {r : Option PreparedResponse ⊕ BatchAssembly}
    (h : scheduleItems b n choice s k batch items = (t, r)) (hb : batch.succeeded = false) :
    t.gate = { s.gate with works := t.works } ∧
      (∀ o w, t.works.row o = some w → w.result = none ∨ s.works.row o = some w) ∧
      ∀ batch', r = .inr batch' → batch'.succeeded = false := by
  induction items generalizing s k batch with
  | nil =>
    cases h
    exact ⟨rfl, fun o w hw => Or.inr hw, by rintro batch' ⟨⟩; exact hb⟩
  | cons item items ih =>
    cases item with
    | response => exact ih h hb
    | invalid response =>
      rw [scheduleItems] at h
      split at h
      · exact ih h hb
      · cases h
        exact ⟨rfl, fun o w hw => Or.inr hw, by simp⟩
    | call call =>
      rcases hcall : s.scheduleCall call ⟨n, k⟩ (.batch b) false (choice k) with ⟨u, q⟩
      have hnews : ∀ o w, u.works.row o = some w → w.result = none ∨ s.works.row o = some w :=
        fun o w => scheduleCall_news hcall
      have hgate := (scheduleCall_works hcall).1
      simp only [scheduleItems, hcall] at h
      cases q with
      | duplicate p =>
        cases h
        exact ⟨hgate, hnews, by simp⟩
      | pending =>
        obtain ⟨hg, hw, hb'⟩ := ih h hb
        exact ⟨by rw [hg, hgate], fun o w ho => (hw o w ho).elim Or.inl (hnews o w), hb'⟩
      | immediate p =>
        obtain ⟨hg, hw, hb'⟩ := ih h ((settle_succeeded batch call p).trans hb)
        exact ⟨by rw [hg, hgate], fun o w ho => (hw o w ho).elim Or.inl (hnews o w), hb'⟩

/-- A single item is received; the first one is the `session.open` call that opens. -/
theorem receiveItem_guarded {n : Nat} {opening sendOk : Bool} {choice : Choice} {item : RpcItem}
    (h : s.gate.Guarded good 0) (hs : s.spawning = none) (hf : s.firstMessage = false)
    (ho : s.handshakePending = true → (∀ o, s.works.row o = none) ∧ ∃ call, item = .call call ∧
      opening = true ∧ call.method = "session.open" ∧ call.id.isSome = true ∧
      callIn s.received ⟨n, 0⟩ = some call) :
    (s.receiveItem n opening choice sendOk item).gate.Guarded good 0 := by
  cases item with
  | response => exact h
  | invalid response =>
    unfold receiveItem
    dsimp only
    split
    · exact send_guarded h hs _ _
    · exact shut_guarded h hs
  | call call =>
    rcases hcall : s.scheduleCall call ⟨n, 0⟩ .single opening choice with ⟨t, r⟩
    obtain ⟨hgate, hworks⟩ := scheduleCall_works hcall
    have ht : t.gate.Guarded good 0 := by
      rw [hgate]
      refine h.works (fun o w => scheduleCall_news hcall) hf fun hp o w hw => ?_
      obtain ⟨hempty, call', hitem, hop, hmethod, hid, hat⟩ := ho hp
      cases hitem
      rcases hworks with hsame | hnew
      · rw [hsame, hempty o] at hw
        cases hw
      · rw [hnew, Table.upsert_row] at hw
        split at hw
        · next heq =>
          cases hw
          subst heq
          refine ⟨hs, ⟨rfl, hmethod, hid, hop, hat⟩, fun o' hne => ?_⟩
          rw [hnew, Table.upsert_row_ne _ _ hne, hempty o']
        · rw [hempty o] at hw
          cases hw
    have hst : t.spawning = none := (congrArg Gate.spawning hgate).trans hs
    simp only [receiveItem, hcall]
    cases r with
    | pending => exact ht
    | immediate p =>
      cases p with
      | none => exact ht
      | some r => exact send_guarded ht hst _ _
    | duplicate p => exact offerLast_guarded ht hst p sendOk

theorem finishBatch_guarded {batch : BatchAssembly} {sendOk notifyOk : Bool}
    (h : s.gate.Guarded good 0) (hs : s.spawning = none) :
    (s.finishBatch batch sendOk notifyOk).gate.Guarded good 0 := by
  unfold finishBatch
  cases hflush : s.flushBatch batch sendOk with
  | none => exact shut_guarded h hs
  | some t =>
    have ht : t.gate.Guarded good 0 ∧ t.spawning = none := by
      unfold flushBatch at hflush
      split at hflush
      · cases hflush
        exact ⟨h, hs⟩
      split at hflush
      · cases hflush
      · cases hflush
        exact ⟨h.send _, hs⟩
    dsimp only
    cases batch.lifecycle with
    | some failure => exact failed_guarded (s := t.release batch) ht.1 ht.2 failure notifyOk
    | none => exact ht.1

theorem receiveBatch_guarded {n : Nat} {choice : Nat → Choice} {sendOk notifyOk : Bool}
    {items : List RpcItem} (h : s.gate.Guarded good 0) (hs : s.spawning = none)
    (hf : s.firstMessage = false) (hp : s.handshakePending = false) :
    (s.receiveBatch n choice sendOk notifyOk items).gate.Guarded good 0 := by
  unfold receiveBatch
  dsimp only
  rcases hitems : scheduleItems s.nextBatch n choice
    { s with nextBatch := (s.nextBatch + 1) % 2 ^ 64 } 0 (.new n) items with ⟨t, r⟩
  obtain ⟨hgate, hnews, hb⟩ := scheduleItems_news items hitems rfl
  have ht : t.gate.Guarded good 0 := by
    rw [hgate]
    exact h.works hnews hf fun hpend => absurd hpend (by simp [gate, hp])
  have hst : t.spawning = none := (congrArg Gate.spawning hgate).trans hs
  cases r with
  | inl p => exact offerLast_guarded ht hst p sendOk
  | inr batch =>
    dsimp only
    split
    · exact finishBatch_guarded ht hst
    · exact ht.store ((congrArg Gate.firstMessage hgate).trans hf)
        ((congrArg Gate.handshakePending hgate).trans hp) (hb batch rfl)

theorem validOpen_call {message : RpcMessage} (h : validOpen message = true) :
    ∃ call, message = .single (.call call) ∧ call.method = "session.open" ∧
      call.id.isSome = true := by
  cases message with
  | batch items => cases h
  | single item =>
    cases item with
    | call call =>
      obtain ⟨id, method⟩ := call
      cases id with
      | none => cases h
      | some id =>
        cases id with
        | null => cases h
        | string v => exact ⟨_, rfl, of_decide_eq_true h, rfl⟩
        | number v => exact ⟨_, rfl, of_decide_eq_true h, rfl⟩
    | invalid r => cases h
    | response => cases h

/-- A message is received. -/
theorem receive_guarded {message : RpcMessage} {choice : Nat → Choice} {sendOk notifyOk : Bool}
    (h : s.gate.Guarded good 0) (hs : s.spawning = none) (hp : s.handshakePending = false) :
    (s.receive message choice sendOk notifyOk).gate.Guarded good 0 := by
  have hlog := h.log hp ⟨.message message, s.accepting⟩
  cases hf : s.firstMessage with
  | true =>
    cases hopen : validOpen message with
    | false =>
      simp only [receive, hf, hopen, Bool.not_false, Bool.and_self, if_true]
      obtain ⟨fs, hfs⟩ := offerLast_sends
        { s.log (.message message) with firstMessage := false } (if (choice 0).prepared = true then
          some (prepareResponse ⟨s.received.length, 0⟩ .invalidRequest false) else none) sendOk
      rw [hfs]
      exact (hlog.send fs).refuse hs
    | true =>
      obtain ⟨call, rfl, hmethod, hid⟩ := validOpen_call hopen
      simp only [receive, hf, hopen, Bool.not_true, Bool.and_false, Bool.false_eq_true, if_false,
        Bool.or_true]
      refine receiveItem_guarded (hlog.begin hf) hs rfl fun _ => ⟨(hlog.fresh hf).1, call, rfl,
        rfl, hmethod, hid, ?_⟩
      simp [log, callIn, Received.items, RpcItem.call?]
  | false =>
    have hsame : ({ s.log (.message message) with firstMessage := false } : Session) =
        s.log (.message message) := by
      simp [log, ← hf]
    simp only [receive, hf, Bool.false_and, Bool.false_eq_true, if_false, Bool.or_false, hsame]
    cases message with
    | single item =>
      exact receiveItem_guarded hlog hs hf fun hpend => absurd hpend (by simp [log, hp])
    | batch items => exact receiveBatch_guarded hlog hs hf hp

theorem handshake_cases {method : String} {succeeded authenticated : Bool}
    (h : s.handshake method succeeded authenticated = some t) :
    (t = s ∧ (isHandshake method && succeeded) = false) ∨
      (method = "session.open" ∧ s.opened = false ∧
        t = { s with opened := true, bound := s.bound || authenticated }) ∨
      (method = "auth.createDevSession" ∧ s.opened = true ∧ s.bound = false ∧
        t = { s with bound := true }) := by
  unfold handshake at h
  split at h
  · next hno =>
    cases h
    exact Or.inl ⟨rfl, by simpa using fun _ => hno⟩
  split at h
  · next hmethod =>
    split at h
    · cases h
    · next hguard =>
      cases h
      simp only [Bool.or_eq_true, not_or, Bool.not_eq_true] at hguard
      exact Or.inr (Or.inl ⟨hmethod, hguard.1, rfl⟩)
  split at h
  · next hmethod =>
    split at h
    · cases h
    · next hguard =>
      cases h
      simp only [Bool.or_eq_true, not_or, Bool.not_eq_true, Bool.not_eq_false'] at hguard
      exact Or.inr (Or.inr ⟨hmethod, hguard.1.1, hguard.1.2, rfl⟩)
  · next hopen hdev =>
    cases h
    exact Or.inl ⟨rfl, by simp [isHandshake, hopen, hdev]⟩

theorem finish_reported (w : Work) (o : Origin) (outcome : DispatchOutcome) :
    ∃ result, finish w o outcome = { w with result := some result } ∧ w.Reported o result ∧
      result.succeeded = decide (outcome.outcome = .success) := by
  refine ⟨_, rfl, ⟨by simp, ?_⟩, rfl⟩
  intro p hp
  obtain ⟨id, -, rfl⟩ := Option.map_eq_some_iff.mp hp
  refine ⟨rfl, fun hsucc => ?_⟩
  cases hov : outcome.oversized with
  | true => simp [prepareResponse, hov, PreparedResponse.success, RpcResponse.success,
      RpcResponse.error] at hsucc
  | false =>
    cases hout : outcome.outcome with
    | success => rfl
    | failure e => simp [prepareResponse, hov, PreparedResponse.success, RpcResponse.success,
        hout] at hsucc

theorem dispatch_guarded {o : Origin} {w : Work} {outcome : DispatchOutcome}
    (h : s.gate.Guarded good 0) (hw : s.works.row o = some w) (hn : w.result = none)
    (ht : s.handshake w.call.method (decide (outcome.outcome = .success))
      outcome.authenticated = some t) :
    ({ t with works := t.works.upsert o (finish w o outcome) } : Session).gate.Guarded good 0 := by
  obtain ⟨result, hfinish, hreported, hsucc⟩ := finish_reported w o outcome
  rw [hfinish]
  have hunwatched : s.bound = false → s.gate.tokens = 0 →
      s.ended = true ∨ (s.guards = 0 ∧ s.gate.tokens = 0) := by
    intro hb hzero
    by_cases hg : s.guards = 0
    · exact Or.inr ⟨hg, hzero⟩
    · rcases h.watched (Nat.pos_of_ne_zero hg) with hb' | he
      · exact absurd hb' (by simp [gate, hb])
      · exact Or.inl he
  rcases handshake_cases ht with ⟨rfl, hidle⟩ | ⟨hmethod, hclosed, rfl⟩ | ⟨hmethod, hop, hb, rfl⟩
  · exact h.report hw hn hreported id id h.identified fun hyes => by
      rw [hsucc, Work.activateAfterSuccess, hidle] at hyes
      cases hyes
  · have hunbound : s.bound = false := by
      by_contra hb
      exact absurd (h.identified (by simpa [gate] using hb)) (by simp [gate, hclosed])
    have hpending : s.handshakePending = true ∨ s.ended = true := by
      rcases h.settled with hf | hp | he | ⟨-, hopened⟩
      · exact absurd hw (by simp [(h.fresh hf).1 o, show s.works = s.gate.works from rfl])
      · exact Or.inl hp
      · exact Or.inr he
      · exact absurd hopened (by simp [gate, hclosed])
    refine h.report hw hn hreported (fun _ => rfl) (fun hb => by simp [gate] at hb; simp [hb])
      (fun _ => rfl) fun _ => ⟨rfl, Or.inr hpending, hunwatched hunbound ?_⟩
    by_contra hpos
    exact absurd (h.counted.known (Nat.pos_of_ne_zero hpos)) (by simp [gate, hclosed])
  · refine h.report hw hn hreported id (fun _ => rfl) (fun _ => hop)
      fun _ => ⟨hop, Or.inl rfl, ?_⟩
    by_cases hzero : s.gate.tokens = 0
    · exact hunwatched hb hzero
    · rcases h.counted.pending (Nat.pos_of_ne_zero hzero) with hb' | hp | he
      · exact absurd hb' (by simp [gate, hb])
      · obtain ⟨-, ⟨-, hopen, -⟩, -⟩ := (h.alone hp).2 o w hw
        rw [hmethod] at hopen
        simp at hopen
      · exact Or.inl he

/-- The arm that starts `generation_checks` follows a successful handshake, or no identity is
bound. -/
def ChecksAfterSuccess (s : Session) : SessionEvent → Prop
  | .spawn => ∀ spawning ∈ s.spawning, s.bound = true → spawning.succeeded = true
  | _ => True

theorem deliver_guarded {o : Origin} {w : Work} {result : WorkResult} {sendOk notifyOk : Bool}
    (h : s.gate.Guarded good 0) (hwait : s.waiting = true) (hw : s.works.row o = some w)
    (hr : w.result = some result) :
    ({ s with works := s.works.erase o }.deliver w result sendOk notifyOk).gate.Guarded good 0 := by
  simp only [waiting, Bool.and_eq_true, Bool.not_eq_true', Option.isNone_iff_eq_none] at hwait
  have hopener : s.handshakePending = true → s.gate.Opener o w ∧
      ∀ o', o' ≠ o → s.works.row o' = none := fun hp => ((h.alone hp).2 o w hw).2
  have hd : Delivering good (w.carries result)
      ({ s with works := s.works.erase o } : Session).gate := by
    refine ⟨h.take hw hr, hwait.1, hwait.2, fun hp o' => ?_, fun hp => ?_⟩
    · change (s.works.erase o).row o' = none
      rw [Table.erase_row]
      split
      · rfl
      · next hne => exact (hopener hp).2 o' hne
    · rcases h.settled with hf | hp' | he | ha
      · exact absurd hw (by simp [(h.fresh hf).1 o, show s.works = s.gate.works from rfl])
      · exact absurd hp' (by simpa [gate] using hp)
      · exact absurd he (by simp [gate, hwait.1])
      · exact ha
  unfold deliver
  cases hdest : w.destination with
  | single => exact deliverSingle_guarded hd (h.reported o w result hw hr) fun hp => (hopener hp).1
  | batch b =>
    refine deliverBatch_guarded hd ?_
    by_contra hp
    obtain ⟨hsingle, -⟩ := (hopener (by simpa using hp)).1
    rw [hdest] at hsingle
    cases hsingle

theorem step_guarded {e : SessionEvent} (h : s.gate.Guarded good 0)
    (hgood : good → s.ChecksAfterSuccess e) (ht : step s e = some t) :
    t.gate.Guarded good 0 := by
  have hwaiting : s.waiting = true → s.spawning = none := by
    intro hwait
    simp only [waiting, Bool.and_eq_true, Option.isNone_iff_eq_none] at hwait
    exact hwait.2
  have hinput : (s.waiting && !s.handshakePending) = true →
      s.spawning = none ∧ s.handshakePending = false := by
    intro hwait
    simp only [Bool.and_eq_true, Bool.not_eq_true'] at hwait
    exact ⟨hwaiting hwait.1, hwait.2⟩
  cases e with
  | input message choice sendOk notifyOk =>
    simp only [step] at ht
    split at ht
    · next hwait =>
      cases ht
      exact receive_guarded h (hinput hwait).1 (hinput hwait).2
    · cases ht
  | malformed code prepared sendOk =>
    simp only [step] at ht
    split at ht
    · next hwait =>
      cases ht
      have hlog := h.log (hinput hwait).2 ⟨.malformed, s.accepting⟩
      split
      · exact send_guarded (s := s.log .malformed) hlog (hinput hwait).1 _ _
      · exact shut_guarded (s := s.log .malformed) hlog (hinput hwait).1
    · cases ht
  | oversized id prepared sendOk =>
    simp only [step] at ht
    split at ht
    · next hwait =>
      cases ht
      have hlog := h.log (hinput hwait).2 ⟨.malformed, s.accepting⟩
      exact offerLast_guarded (s := s.log .malformed) hlog (hinput hwait).1 _ _
    · cases ht
  | dispatch o outcome =>
    obtain ⟨w, hw, ht⟩ := Option.bind_eq_some_iff.mp ht
    split at ht
    · cases ht
    · next hn =>
      obtain ⟨u, hu, rfl⟩ := Option.map_eq_some_iff.mp ht
      exact dispatch_guarded h hw (by simpa using hn) hu
  | abort o =>
    obtain ⟨w, hw, rfl⟩ := Option.map_eq_some_iff.mp ht
    exact h.abort hw
  | deliver o sendOk notifyOk =>
    simp only [step] at ht
    split at ht
    · next hwait =>
      obtain ⟨w, hw, ht⟩ := Option.bind_eq_some_iff.mp ht
      obtain ⟨result, hr, rfl⟩ := Option.map_eq_some_iff.mp ht
      exact deliver_guarded h hwait hw hr
    · cases ht
  | spawn =>
    obtain ⟨spawning, hs, rfl⟩ := Option.map_eq_some_iff.mp ht
    obtain ⟨hg, hbound, ha⟩ := h.watch hs fun hyes hb => hgood hyes spawning hs hb
    dsimp only
    split
    · exact shut_guarded (s := { s with
        spawning := none
        guards := if s.bound then s.guards + 1 else s.guards }) hg rfl
    · exact hg.resume hbound ha
  | guardFailure failure notifyOk =>
    simp only [step] at ht
    split at ht
    · next hwait =>
      cases ht
      exact failed_guarded h (hwaiting hwait) failure notifyOk
    · cases ht
  | leave =>
    simp only [step] at ht
    split at ht
    · next hwait =>
      cases ht
      exact shut_guarded h (hwaiting hwait)
    · cases ht
  | close =>
    cases ht
    exact h

theorem init_guarded : init.gate.Guarded good 0 where
  fresh _ := ⟨fun _ => rfl, fun _ => rfl, rfl⟩
  alone h := by cases h
  settled := Or.inl rfl
  spawned h := by cases h
  reported o w result h := by cases h
  once := Nat.zero_le _
  activated _ := rfl
  after h := absurd h (lt_irrefl 0)
  identified h := by cases h
  watched h := absurd h (lt_irrefl 0)
  counted := by
    have : init.gate.tokens = 0 := rfl
    rw [this]
    exact ⟨by simp, by simp, fun _ => ⟨Nat.zero_le 1, Or.inr (Nat.zero_le 1)⟩⟩

/-- A run with the condition starts `generation_checks` once at most; every run activates the
session once at most, after a successful handshake response was queued. -/
theorem generation_checks_spawned_once {es : List SessionEvent} (h : run step init es = some s) :
    (Along step ChecksAfterSuccess init es → s.guards ≤ 1) ∧ s.activations ≤ 1 ∧
      (0 < s.activations → s.gate.Answered) := by
  have hall : s.gate.Guarded False 0 :=
    run_invariant (I := fun s => s.gate.Guarded False 0)
      (fun _ _ _ hi ht => step_guarded hi (fun hf => hf.elim) ht) init_guarded h
  refine ⟨fun ha => ?_, hall.once, hall.after⟩
  have hgood : s.gate.Guarded True 0 :=
    run_invariant_along (I := fun s => s.gate.Guarded True 0)
      (fun _ _ _ hi hok ht => step_guarded hi (fun _ => hok) ht) init_guarded ha h
  exact (hgood.counted.one trivial).1

/-- A refused `session.open` and a malformed notification leave the guard alone. -/
theorem generation_checks_spawned_once_refused :
    let events := opening ++
      [.input (.single (.call ⟨some (.string "again"), "session.open"⟩)) (fun _ => free) true true,
        .dispatch ⟨1, 0⟩ ⟨.failure (.new .badRequest), true, false⟩, .deliver ⟨1, 0⟩ true true]
    ∃ s, run step init events = some s ∧ s.guards = 1 ∧ s.guards ≤ 1 ∧ s.activations ≤ 1 ∧
      s.gate.Answered := by
  intro events
  have h : run step init events = some _ := rfl
  have ha : Along step ChecksAfterSuccess init events :=
    .cons rfl trivial <| .cons rfl trivial <| .cons rfl trivial <|
      .cons rfl (by rintro _ ⟨⟩ _; rfl) <| .cons rfl trivial <| .cons rfl trivial <|
      .cons rfl trivial trivial
  obtain ⟨hguards, honce, hafter⟩ := generation_checks_spawned_once h
  exact ⟨_, h, rfl, hguards ha, honce, hafter Nat.one_pos⟩

/-- A `session.open` notification that fails starts `generation_checks` again. -/
theorem failed_notification_spawns_again :
    let events := opening ++
      [.input (.single (.call ⟨none, "session.open"⟩)) (fun _ => free) true true,
        .dispatch ⟨1, 0⟩ ⟨.failure (.new .badRequest), true, false⟩, .deliver ⟨1, 0⟩ true true,
        .spawn]
    ∃ s, run step init events = some s ∧ s.guards = 2 := by
  intro events
  exact ⟨_, rfl, rfl⟩

end Session

end Chahua.Rpc

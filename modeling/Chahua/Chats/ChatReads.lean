import Chahua.Chats.ConversationStates

namespace Chahua.Chats

structure ReadState where
  lastReadMessageId : Option Nat
  unreadCount : Nat
  unreadMentions : Nat
  unreadReactions : Nat
  deriving DecidableEq

structure ConversationState where
  accessible : Bool
  state : ReadState
  deriving DecidableEq

/-- A cached read state. -/
structure ReadEntry where
  state : ReadState
  version : Nat
  dirty : Bool

/-- A `markAsRead` or `markAsUnread` call in flight and what its caller closed over. -/
structure SentRead where
  target : Nat
  version : Nat
  accessVersion : Nat
  refreshing : Bool
  answer : Option ReadState

/-- Where the loop of `markRead` is: before its timer, in its call, or in `refreshUnread`. -/
inductive ReadPhase
  | timer
  | sent (request : SentRead)
  | refreshing (target : Nat)

structure ReadRequest where
  messageId : Nat
  phase : ReadPhase

/-- Where `markUnread` is; it may await a read that it has taken from the operation. -/
inductive RewindPhase
  | awaiting (reading : ReadPhase)
  | sent (request : SentRead)
  | refreshing

/-- The loop of `refreshUnread`; `missed` says that a push was dropped behind its answer. -/
structure Refresh where
  version : Nat
  answer : Option ReadState
  missed : Bool

/-- The read state of one chat in the store, its operation and its watch. -/
structure ChatReads where
  watch : StateWatch ConversationState
  version : Nat
  entry : Option ReadEntry
  accessible : Bool
  accessVersion : Nat
  operationVersion : Nat
  refresh : Option Refresh
  read : Option ReadRequest
  rewind : Option RewindPhase
  scheduled : Bool
  destroyed : Bool

namespace ChatReads

def snapshot (s : ChatReads) : ChatReads := { s with version := s.version + 1 }

def lastRead (s : ChatReads) : Option Nat := s.entry.bind (·.state.lastReadMessageId)

/-- A local read or rewind is pending. -/
def busy (s : ChatReads) : Bool := s.read.isSome || s.rewind.isSome

def applyReadState (state : ReadState) (s : ChatReads) : ChatReads :=
  { s with entry := some ⟨state, s.version + 1, false⟩, version := s.version + 1 }

def invalidateReads (s : ChatReads) : ChatReads :=
  { s with
    version := s.version + 1
    entry := s.entry.map fun read => { read with dirty := true, version := s.version + 1 }
    operationVersion := s.operationVersion + 1 }

/-- An inaccessible chat is noted with a new version. -/
def noteAccess (accessible : Bool) (s : ChatReads) : ChatReads :=
  if accessible then { s with accessible }
  else { s.snapshot with accessible, accessVersion := s.version + 1 }

/-- The state of one push; while an operation is pending, an accessible one is dropped. -/
def acceptReadState (p : ConversationState) (s : ChatReads) : ChatReads :=
  let noted := noteAccess p.accessible s
  if p.accessible && s.busy then
    { noted with refresh := s.refresh.map fun f => { f with missed := f.missed || f.answer.isSome } }
  else applyReadState p.state { noted with operationVersion := s.operationVersion + 1 }

def refreshUnread (s : ChatReads) : ChatReads :=
  if s.refresh.isSome then { s with operationVersion := s.operationVersion + 1 }
  else { s with
    operationVersion := s.operationVersion + 1
    refresh := some ⟨s.operationVersion + 1, none, false⟩ }

def cachedReadState (s : ChatReads) : Option ReadState :=
  (s.entry.filter fun read => !read.dirty).map (·.state)

def getReadState (s : ChatReads) : ChatReads :=
  if s.refresh.isSome then s
  else if s.cachedReadState.isSome then s
  else refreshUnread s

def scheduleReadState (s : ChatReads) : ChatReads :=
  if s.entry.isSome && decide s.watch.ready then s
  else { s with scheduled := true }

def markRead (messageId : Nat) (s : ChatReads) : ChatReads :=
  if s.rewind.isSome then s
  else match s.read with
    | some current =>
      if messageId > current.messageId then { s with read := some { current with messageId } } else s
    | none =>
      if s.lastRead.any fun lastRead => messageId ≤ lastRead then s
      else { s with read := some ⟨messageId, .timer⟩ }

/-- The call that a read or a rewind makes, with what it closes over. -/
def sendRead (target : Nat) (s : ChatReads) : SentRead :=
  ⟨target, s.operationVersion, s.version, s.refresh.isSome, none⟩

/-- The timer of `markRead`. -/
def wakeRead (request : ReadRequest) (s : ChatReads) : ChatReads :=
  if s.accessible then
    { s with read := some { request with phase := .sent (sendRead request.messageId s) } }
  else { s with read := none }

/-- The chat is not accessible any more, or was not at some time since the call. -/
def lostAccess (request : SentRead) (s : ChatReads) : Bool :=
  !s.accessible || decide (s.accessVersion > request.accessVersion)

/-- The answer of `markAsRead` is applied unless a later cursor is known. -/
def acceptRead (state : ReadState) (s : ChatReads) : ChatReads :=
  match s.lastRead with
  | none => applyReadState state s
  | some lastRead =>
    if state.lastReadMessageId.any fun id => id ≥ lastRead then applyReadState state s else s

def endRead (request : ReadRequest) (target : Nat) (state : ReadState) (s : ChatReads) : ChatReads :=
  if request.messageId ≤ state.lastReadMessageId.getD target then { s with read := none }
  else { s with read := some { request with phase := .timer } }

def answerRead (request : ReadRequest) (sent : SentRead) (state : ReadState) (s : ChatReads) :
    ChatReads :=
  if s.lostAccess sent then { s with read := none }
  else
    let s := acceptRead state s
    if s.watch.isSelected then endRead request sent.target state { s with watch := s.watch.publish }
    else if sent.refreshing || decide (sent.version ≠ s.operationVersion) then
      { refreshUnread s with read := some { request with phase := .refreshing sent.target } }
    else endRead request sent.target state s

/-- `markUnread` once the read before it has settled. -/
def sendRewind (s : ChatReads) : ChatReads := { s with rewind := some (.sent (sendRead 0 s)) }

/-- A sent read that a rewind awaits: its answer is applied, and nothing else. -/
def answerReading (sent : SentRead) (state : ReadState) (s : ChatReads) : ChatReads :=
  sendRewind (if s.lostAccess sent then s else acceptRead state s)

def markUnread (s : ChatReads) : ChatReads :=
  if s.rewind.isSome then s
  else match s.read with
    | some ⟨_, .sent request⟩ => { s with read := none, rewind := some (.awaiting (.sent request)) }
    | some ⟨_, .refreshing target⟩ =>
      { s with read := none, rewind := some (.awaiting (.refreshing target)) }
    | _ => sendRewind { s with read := none }

def answerRewind (sent : SentRead) (state : ReadState) (s : ChatReads) : ChatReads :=
  if s.lostAccess sent then { s with rewind := none }
  else
    let s := applyReadState state s
    if s.watch.isSelected then { s with watch := s.watch.publish, rewind := none }
    else if sent.refreshing || decide (sent.version ≠ s.operationVersion) then
      { refreshUnread s with rewind := some .refreshing }
    else { s with rewind := none }

/-- A read that awaits `refreshUnread` goes on with its state. -/
def resumeRead (state : ReadState) (s : ChatReads) : ChatReads :=
  match s.read with
  | some ⟨messageId, .refreshing target⟩ => endRead ⟨messageId, .refreshing target⟩ target state s
  | _ => s

/-- It fails with `refreshUnread`. -/
def abandonRead (s : ChatReads) : ChatReads :=
  match s.read with
  | some ⟨_, .refreshing _⟩ => { s with read := none }
  | _ => s

/-- A rewind that awaits `refreshUnread` ends; one that awaits a read behind it is sent. -/
def resumeRewind (s : ChatReads) : ChatReads :=
  match s.rewind with
  | some .refreshing => { s with rewind := none }
  | some (.awaiting (.refreshing _)) => sendRewind s
  | _ => s

def finishRefresh (state : ReadState) (s : ChatReads) : ChatReads :=
  resumeRewind (resumeRead state { s with refresh := none })

/-- An answer that something has overtaken is fetched again, unless the watch has the state. -/
def answerRefresh (f : Refresh) (state : ReadState) (s : ChatReads) : ChatReads :=
  if f.version ≠ s.operationVersion then
    match s.entry with
    | some live =>
      if s.watch.ready then finishRefresh live.state s
      else { s with refresh := some ⟨s.operationVersion, none, false⟩ }
    | none => { s with refresh := some ⟨s.operationVersion, none, false⟩ }
  else finishRefresh state (applyReadState state s)

def failRefresh (s : ChatReads) : ChatReads :=
  resumeRewind (abandonRead { s with refresh := none })

inductive Event
  | watch (event : StateWatch.Event ConversationState)
  | receive
  | tick
  | message
  | getReadState
  | scheduleReadState
  | wakeScheduled
  | serveRefresh
  | answerRefresh
  | failRefresh
  | markRead (messageId : Nat)
  | wakeRead
  | serveRead (next : ConversationState)
  | answerRead
  | failRead
  | serveReading (next : ConversationState)
  | answerReading
  | failReading
  | markUnread
  | serveRewind (next : ConversationState)
  | answerRewind
  | failRewind
  | destroy

/-- The server applies a read: its state changes, and its answer confirms the new one. -/
def serve (next : ConversationState) (s : ChatReads) : ChatReads :=
  { s with watch := (s.watch.change next).confirm }

def step (s : ChatReads) (e : Event) : Option ChatReads :=
  if s.destroyed then none
  else match e with
    | .watch event => (s.watch.step event).map fun watch => { s with watch }
    | .receive => s.watch.receive.map fun (watch, accepted) =>
        (accepted.map fun p => acceptReadState p { s with watch }).getD { s with watch }
    | .tick => some s.snapshot
    | .message => some s.invalidateReads
    | .getReadState => some s.getReadState
    | .scheduleReadState => some s.scheduleReadState
    | .wakeScheduled => if s.scheduled then some (getReadState { s with scheduled := false }) else none
    | .serveRefresh => match s.refresh with
      | some ⟨version, none, missed⟩ =>
        some { s with
          watch := s.watch.confirm, refresh := some ⟨version, some s.watch.server.state, missed⟩ }
      | _ => none
    | .answerRefresh => match s.refresh with
      | some ⟨version, some state, missed⟩ =>
        some (answerRefresh ⟨version, some state, missed⟩ state s)
      | _ => none
    | .failRefresh => if s.refresh.isSome then some s.failRefresh else none
    | .markRead messageId => some (s.markRead messageId)
    | .wakeRead => match s.read with
      | some ⟨messageId, .timer⟩ => some (wakeRead ⟨messageId, .timer⟩ s)
      | _ => none
    | .serveRead next => match s.read with
      | some ⟨messageId, .sent request⟩ =>
        if request.answer.isSome then none
        else some { serve next s with
          read := some ⟨messageId, .sent { request with answer := some next.state }⟩ }
      | _ => none
    | .answerRead => match s.read with
      | some ⟨messageId, .sent request⟩ => request.answer.map fun state =>
          answerRead ⟨messageId, .sent request⟩ request state s
      | _ => none
    | .failRead => match s.read with
      | some ⟨_, .sent _⟩ => some { s with read := none }
      | _ => none
    | .serveReading next => match s.rewind with
      | some (.awaiting (.sent request)) =>
        if request.answer.isSome then none
        else some { serve next s with
          rewind := some (.awaiting (.sent { request with answer := some next.state })) }
      | _ => none
    | .answerReading => match s.rewind with
      | some (.awaiting (.sent request)) =>
        request.answer.map fun state => answerReading request state s
      | _ => none
    | .failReading => match s.rewind with
      | some (.awaiting (.sent _)) => some s.sendRewind
      | _ => none
    | .markUnread => some s.markUnread
    | .serveRewind next => match s.rewind with
      | some (.sent request) =>
        if request.answer.isSome then none
        else some { serve next s with
          rewind := some (.sent { request with answer := some next.state }) }
      | _ => none
    | .answerRewind => match s.rewind with
      | some (.sent request) => request.answer.map fun state => answerRewind request state s
      | _ => none
    | .failRewind => match s.rewind with
      | some (.sent _) => some { s with rewind := none }
      | _ => none
    | .destroy => some { s with watch := s.watch.destroy, destroyed := true }

/-- A store that has not watched the chat yet. -/
structure Fresh (s : ChatReads) : Prop where
  watch : s.watch.Idle
  refresh : s.refresh = none

/-- The state is what the current watch said last, if it is ready and nothing is in flight. -/
abbrev Kept (s : ChatReads) (state : Option ReadState) : Prop :=
  s.watch.Said fun last => last.map (·.state) = state

/-- What the watch said last is cached, or no read or rewind ends here. -/
abbrev Heard (s : ChatReads) : Prop := s.Kept (s.entry.map (·.state))

/-- What the chat's events must meet: an operation that ends without a new watch, in failure, for
want of access or after `refreshUnread`, has dropped nothing that the watch said last; nor does
an answer of `getUnreadCount` replace what was dropped behind it. -/
def Reconciled (s : ChatReads) : Event → Prop
  | .wakeRead => s.accessible = false → s.Heard
  | .answerRead => ∀ messageId request, s.read = some ⟨messageId, .sent request⟩ →
    s.lostAccess request → s.Heard
  | .failRead => s.Heard
  | .answerRewind => ∀ request, s.rewind = some (.sent request) → s.lostAccess request → s.Heard
  | .failRewind => s.Heard
  | .failRefresh => s.busy → ¬ s.failRefresh.busy → s.Heard
  | .answerRefresh => ∀ f state, s.refresh = some f → f.answer = some state →
    if f.version = s.operationVersion then
      f.missed → ¬ (finishRefresh state s).busy → s.Kept (some state)
    else ∀ live, s.entry = some live → s.busy → ¬ (finishRefresh live.state s).busy → s.Heard
  | _ => True

variable {s t : ChatReads}

/-- What the operations of the chat lead to. -/
structure Current (s : ChatReads) : Prop where
  watch : s.watch.Sound
  heard : s.busy = false → s.Heard
  answer : ∀ f state, s.refresh = some f → f.answer = some state → f.missed = false →
    f.version = s.operationVersion → s.Kept (some state)
  version_le : ∀ f, s.refresh = some f → f.version ≤ s.operationVersion

theorem Fresh.current (h : s.Fresh) : s.Current where
  watch := h.watch.sound
  heard _ hr := by simpa [h.watch.selected] using hr.2.2
  answer := by simp [h.refresh]
  version_le := by simp [h.refresh]

/-- A step that leaves the watch alone and fetches no answer. -/
theorem Current.next (h : s.Current) (hwatch : t.watch = s.watch)
    (hversion : s.operationVersion ≤ t.operationVersion)
    (hrefresh : ∀ f, t.refresh = some f →
      s.refresh = some f ∨ f.answer = none ∧ f.version ≤ t.operationVersion)
    (hheard : t.busy = false → t.Heard) : t.Current := by
  refine ⟨hwatch ▸ h.watch, hheard, ?_, ?_⟩
  · intro f state hf hstate hmissed hv
    rcases hrefresh f hf with hf | ⟨hnone, -⟩
    · have hle := h.version_le f hf
      unfold Kept
      rw [hwatch]
      exact h.answer f state hf hstate hmissed (by omega)
    · simp [hnone] at hstate
  · intro f hf
    rcases hrefresh f hf with hf | ⟨-, hle⟩
    · exact (h.version_le f hf)|> (Nat.le_trans · hversion)
    · exact hle

/-- A watch that is not ready says nothing. -/
theorem current_of_not_ready (hw : t.watch.Sound) (hr : ¬ t.watch.ready)
    (hle : ∀ f, t.refresh = some f → f.version ≤ t.operationVersion) : t.Current :=
  ⟨hw, fun _ hready => absurd hready hr, fun _ _ _ _ _ _ hready => absurd hready hr, hle⟩

/-! What the functions leave alone. -/

theorem acceptRead_eq (state : ReadState) (s : ChatReads) :
    ∃ entry version, acceptRead state s = { s with entry, version } := by
  unfold acceptRead applyReadState
  split
  · exact ⟨_, _, rfl⟩
  · split
    · exact ⟨_, _, rfl⟩
    · exact ⟨_, _, rfl⟩

theorem endRead_eq (request : ReadRequest) (target : Nat) (state : ReadState) (s : ChatReads) :
    ∃ read, endRead request target state s = { s with read } := by
  unfold endRead
  split <;> exact ⟨_, rfl⟩

theorem refreshUnread_eq (s : ChatReads) :
    ∃ refresh, refreshUnread s = { s with operationVersion := s.operationVersion + 1, refresh } ∧
      ∀ f, refresh = some f → s.refresh = some f ∨
        f.answer = none ∧ f.version ≤ s.operationVersion + 1 := by
  unfold refreshUnread
  split
  · exact ⟨_, rfl, fun f hf => .inl hf⟩
  · refine ⟨_, rfl, fun f hf => .inr ?_⟩
    obtain rfl := Option.some.inj hf
    exact ⟨rfl, Nat.le_refl _⟩

theorem resumeRead_eq (state : ReadState) (s : ChatReads) :
    ∃ read, resumeRead state s = { s with read } := by
  unfold resumeRead
  split
  · exact endRead_eq _ _ _ _
  · exact ⟨_, rfl⟩

theorem abandonRead_eq (s : ChatReads) : ∃ read, abandonRead s = { s with read } := by
  unfold abandonRead
  split <;> exact ⟨_, rfl⟩

theorem resumeRewind_eq (s : ChatReads) : ∃ rewind, resumeRewind s = { s with rewind } := by
  unfold resumeRewind
  split <;> exact ⟨_, rfl⟩

theorem finishRefresh_eq (state : ReadState) (s : ChatReads) :
    ∃ read rewind, finishRefresh state s = { s with refresh := none, read, rewind } := by
  obtain ⟨read, hread⟩ := resumeRead_eq state { s with refresh := none }
  obtain ⟨rewind, hrewind⟩ := resumeRewind_eq { s with refresh := none, read }
  exact ⟨read, rewind, by rw [finishRefresh, hread, hrewind]⟩

theorem failRefresh_eq (s : ChatReads) :
    ∃ read rewind, failRefresh s = { s with refresh := none, read, rewind } := by
  obtain ⟨read, hread⟩ := abandonRead_eq { s with refresh := none }
  obtain ⟨rewind, hrewind⟩ := resumeRewind_eq { s with refresh := none, read }
  exact ⟨read, rewind, by rw [failRefresh, hread, hrewind]⟩

theorem Current.refreshUnread (h : s.Current) : (refreshUnread s).Current := by
  obtain ⟨refresh, heq, hf⟩ := refreshUnread_eq s
  rw [heq]
  exact h.next rfl (Nat.le_succ _) hf h.heard

theorem Current.getReadState (h : s.Current) : s.getReadState.Current := by
  unfold ChatReads.getReadState
  split
  · exact h
  · split
    · exact h
    · exact h.refreshUnread

/-! Reads. -/

theorem Current.markRead (h : s.Current) (messageId : Nat) : (s.markRead messageId).Current := by
  unfold ChatReads.markRead
  split
  · exact h
  · split
    · split
      · exact h.next rfl (Nat.le_refl _) (fun f hf => .inl hf) (by simp [busy])
      · exact h
    · split
      · exact h
      · exact h.next rfl (Nat.le_refl _) (fun f hf => .inl hf) (by simp [busy])

theorem Current.wakeRead (h : s.Current) (request : ReadRequest)
    (hok : s.accessible = false → s.Heard) : (wakeRead request s).Current := by
  unfold ChatReads.wakeRead
  split
  · exact h.next rfl (Nat.le_refl _) (fun f hf => .inl hf) (by simp [busy])
  · exact h.next rfl (Nat.le_refl _) (fun f hf => .inl hf) fun _ => hok (by simp_all)

/-- Reads that end where the watch is renewed or says nothing. -/
theorem Current.endRead (h : s.Current) (hr : ¬ s.watch.ready) (request : ReadRequest)
    (target : Nat) (state : ReadState) : (endRead request target state s).Current := by
  obtain ⟨read, heq⟩ := endRead_eq request target state s
  rw [heq]
  exact current_of_not_ready h.watch hr h.version_le

theorem Current.acceptRead (h : s.Current) (hbusy : s.busy) (state : ReadState) :
    (acceptRead state s).Current := by
  obtain ⟨entry, version, heq⟩ := acceptRead_eq state s
  rw [heq]
  exact h.next rfl (Nat.le_refl _) (fun f hf => .inl hf) fun hfree => by
    have hfree : s.busy = false := hfree
    simp [hfree] at hbusy

theorem Current.publish (h : s.Current) : { s with watch := s.watch.publish }.Current :=
  current_of_not_ready h.watch.publish (StateWatch.not_ready_publish _) h.version_le

theorem Current.answerRead (h : s.Current) {request : ReadRequest} {sent : SentRead}
    {state : ReadState} (hread : s.read = some request) (hok : s.lostAccess sent → s.Heard) :
    (answerRead request sent state s).Current := by
  have hbusy : s.busy := by simp [busy, hread]
  unfold ChatReads.answerRead
  split
  · exact h.next rfl (Nat.le_refl _) (fun f hf => .inl hf) fun _ => hok ‹_›
  · have ha := h.acceptRead hbusy state
    simp only
    split
    · exact ha.publish.endRead (StateWatch.not_ready_publish _) _ _ _
    · rename_i hsel
      have hr := StateWatch.not_ready_of_not_selected (by simpa using hsel)
      split
      · have hrefresh := ha.refreshUnread
        exact hrefresh.next rfl (Nat.le_refl _) (fun f hf => .inl hf) (by simp [busy])
      · exact ha.endRead hr _ _ _

/-! Rewinds. -/

theorem Current.sendRewind (h : s.Current) : (sendRewind s).Current :=
  h.next rfl (Nat.le_refl _) (fun f hf => .inl hf) (by simp [busy, ChatReads.sendRewind])

theorem Current.answerReading (h : s.Current) (hbusy : s.busy) (sent : SentRead)
    (state : ReadState) : (answerReading sent state s).Current := by
  unfold ChatReads.answerReading
  split
  · exact h.sendRewind
  · exact (h.acceptRead hbusy state).sendRewind

theorem Current.markUnread (h : s.Current) : (s.markUnread).Current := by
  unfold ChatReads.markUnread
  split
  · exact h
  · split
    · exact h.next rfl (Nat.le_refl _) (fun f hf => .inl hf) (by simp [busy])
    · exact h.next rfl (Nat.le_refl _) (fun f hf => .inl hf) (by simp [busy])
    · exact h.next rfl (Nat.le_refl _) (fun f hf => .inl hf) (by simp [busy, ChatReads.sendRewind])

theorem Current.answerRewind (h : s.Current) {sent : SentRead} (state : ReadState)
    (hbusy : s.busy) (hok : s.lostAccess sent → s.Heard) :
    (answerRewind sent state s).Current := by
  unfold ChatReads.answerRewind
  split
  · exact h.next rfl (Nat.le_refl _) (fun f hf => .inl hf) fun _ => hok ‹_›
  · have ha : (applyReadState state s).Current :=
      h.next rfl (Nat.le_refl _) (fun f hf => .inl hf) fun hfree => by
        have hfree : s.busy = false := hfree
        simp [hfree] at hbusy
    simp only
    split
    · exact current_of_not_ready ha.publish.watch (StateWatch.not_ready_publish _) ha.version_le
    · rename_i hsel
      have hr := StateWatch.not_ready_of_not_selected (by simpa using hsel)
      split
      · exact ha.refreshUnread.next rfl (Nat.le_refl _) (fun f hf => .inl hf) (by simp [busy])
      · exact current_of_not_ready ha.watch hr ha.version_le

/-! Answers of `getUnreadCount`. -/

/-- Whoever awaited the refresh goes on, with the state the watch said last in the cache. -/
theorem Current.finishRefresh (h : s.Current) (state : ReadState)
    (hheard : (finishRefresh state s).busy = false → s.Heard) :
    (finishRefresh state s).Current := by
  obtain ⟨read, rewind, heq⟩ := finishRefresh_eq state s
  rw [heq] at hheard ⊢
  exact h.next rfl (Nat.le_refl _) (by simp) hheard

theorem Current.failRefresh (h : s.Current)
    (hok : s.busy → ¬ s.failRefresh.busy → s.Heard) : s.failRefresh.Current := by
  have hheard : s.failRefresh.busy = false → s.Heard := by
    intro hfree
    by_cases hbusy : s.busy
    · exact hok hbusy (by simp [hfree])
    · exact h.heard (by simpa using hbusy)
  obtain ⟨read, rewind, heq⟩ := failRefresh_eq s
  rw [heq] at hheard ⊢
  exact h.next rfl (Nat.le_refl _) (by simp) hheard

theorem busy_resumeRewind (hread : s.read = t.read) (hrewind : s.rewind = t.rewind) :
    (resumeRewind s).busy = (resumeRewind t).busy := by
  unfold resumeRewind
  rw [hrewind]
  split <;> simp [busy, ChatReads.sendRewind, hread, hrewind]

theorem resumeRead_congr (state : ReadState) (hread : s.read = t.read)
    (hrewind : s.rewind = t.rewind) :
    (resumeRead state s).read = (resumeRead state t).read ∧
      (resumeRead state s).rewind = (resumeRead state t).rewind := by
  unfold resumeRead
  rw [hread]
  split
  · unfold ChatReads.endRead
    split <;> exact ⟨rfl, hrewind⟩
  · exact ⟨hread, hrewind⟩

/-- Whether an operation goes on does not depend on the cache. -/
theorem busy_finishRefresh (state : ReadState) (hread : s.read = t.read)
    (hrewind : s.rewind = t.rewind) :
    (ChatReads.finishRefresh state s).busy = (ChatReads.finishRefresh state t).busy := by
  obtain ⟨hr, hw⟩ := resumeRead_congr (s := { s with refresh := none })
    (t := { t with refresh := none }) state hread hrewind
  exact busy_resumeRewind hr hw

theorem Current.answerRefresh (h : s.Current) {f : Refresh} {state : ReadState}
    (hf : s.refresh = some f) (hstate : f.answer = some state)
    (hok : s.Reconciled .answerRefresh) : (answerRefresh f state s).Current := by
  have hok := hok f state hf hstate
  have hagain : { s with refresh := some ⟨s.operationVersion, none, false⟩ }.Current :=
    h.next rfl (Nat.le_refl _) (fun f hf => .inr (by simp [← Option.some.inj hf])) h.heard
  unfold ChatReads.answerRefresh
  split
  · rename_i hver
    rw [if_neg hver] at hok
    split
    · rename_i live hlive
      split
      · refine h.finishRefresh live.state fun hfree => ?_
        by_cases hbusy : s.busy
        · exact hok live hlive hbusy (by simp [hfree])
        · exact h.heard (by simpa using hbusy)
      · exact hagain
    · exact hagain
  · rename_i hver
    have hver : f.version = s.operationVersion := by simpa using hver
    rw [if_pos hver] at hok
    have hsame := busy_finishRefresh (s := applyReadState state s) (t := s) state rfl rfl
    obtain ⟨read, rewind, heq⟩ := finishRefresh_eq state (applyReadState state s)
    have hheard : (ChatReads.finishRefresh state (applyReadState state s)).busy = false →
        s.Kept (some state) := by
      intro hfree
      cases hmissed : f.missed
      · exact h.answer f state hf hstate hmissed hver
      · exact hok hmissed (by simp [← hsame, hfree])
    rw [heq] at hheard ⊢
    exact h.next rfl (Nat.le_refl _) (by simp) hheard

/-! The watch. -/

theorem noteAccess_eq (accessible : Bool) (s : ChatReads) :
    ∃ version accessVersion, noteAccess accessible s = { s with accessible, version, accessVersion } := by
  unfold noteAccess
  split <;> exact ⟨_, _, rfl⟩

theorem Current.receive {w : StateWatch ConversationState} {accepted : Option ConversationState}
    (h : s.Current) (hw : s.watch.receive = some (w, accepted)) :
    ((accepted.map fun p => acceptReadState p { s with watch := w }).getD
      { s with watch := w }).Current := by
  have hsound := h.watch.receive hw
  cases accepted with
  | none =>
    exact ⟨hsound, fun hfree => (h.heard hfree).receive_none hw,
      fun f state hf hs hm hv => (h.answer f state hf hs hm hv).receive_none hw, h.version_le⟩
  | some p =>
    obtain ⟨version, accessVersion, heq⟩ := noteAccess_eq p.accessible { s with watch := w }
    simp only [Option.map_some, Option.getD_some, acceptReadState, heq]
    split
    · rename_i hdropped
      refine ⟨hsound, fun hfree => ?_, ?_, ?_⟩
      · have hfree : s.busy = false := hfree
        simp [busy] at hdropped hfree
        simp [hfree] at hdropped
      · rintro f state hf hs hm -
        obtain ⟨f', -, rfl⟩ := Option.map_eq_some_iff.mp hf
        have hs : f'.answer = some state := hs
        simp [hs] at hm
      · intro f hf
        obtain ⟨f', hf', rfl⟩ := Option.map_eq_some_iff.mp hf
        exact h.version_le f' hf'
    · refine ⟨hsound, fun _ => StateWatch.said_receive hw rfl, ?_, ?_⟩
      · intro f state hf _ _ hv
        have hle := h.version_le f hf
        have hv : f.version = s.operationVersion + 1 := hv
        omega
      · exact fun f hf => Nat.le_succ_of_le (h.version_le f hf)

theorem Current.watchStep {w : StateWatch ConversationState}
    {e : StateWatch.Event ConversationState} (h : s.Current) (hw : s.watch.step e = some w) :
    { s with watch := w }.Current :=
  ⟨h.watch.step hw, fun hfree => (h.heard hfree).step h.watch hw,
    fun f state hf hs hm hv => (h.answer f state hf hs hm hv).step h.watch hw, h.version_le⟩

theorem Current.serve (h : s.Current) (next : ConversationState) : (serve next s).Current :=
  ⟨(h.watch.change next).confirm, fun hfree => (h.heard hfree).change next,
    fun f state hf hs hm hv => (h.answer f state hf hs hm hv).change next, h.version_le⟩

/-- The answer of `getUnreadCount` is what a quiet watch said last. -/
theorem Current.serveRefresh (h : s.Current) {version : Nat} {missed : Bool}
    (hf : s.refresh = some ⟨version, none, missed⟩) :
    { s with
      watch := s.watch.confirm
      refresh := some ⟨version, some s.watch.server.state, missed⟩ }.Current := by
  refine ⟨h.watch.confirm, h.heard, ?_, ?_⟩
  · intro f state hf' hstate _ _ hr hq
    obtain rfl := Option.some.inj hf'
    obtain rfl := Option.some.inj hstate
    change s.watch.last.map (·.state) = _
    rw [(h.watch.current hr hq).1]
    rfl
  · intro f hf'
    obtain rfl := Option.some.inj hf'
    have hle := h.version_le _ hf
    exact hle

theorem Current.destroy (h : s.Current) :
    { s with watch := s.watch.destroy, destroyed := true }.Current :=
  ⟨h.watch.destroy, fun _ => h.watch.said_destroy, fun _ _ _ _ _ _ => h.watch.said_destroy,
    h.version_le⟩

theorem Current.step {e : Event} (h : s.Current) (hok : s.Reconciled e)
    (ht : s.step e = some t) : t.Current := by
  unfold ChatReads.step at ht
  split at ht
  · simp at ht
  cases e with
  | watch event =>
    obtain ⟨w, hw, rfl⟩ := Option.map_eq_some_iff.mp ht
    exact h.watchStep hw
  | receive =>
    obtain ⟨⟨w, accepted⟩, hw, rfl⟩ := Option.map_eq_some_iff.mp ht
    exact h.receive hw
  | tick =>
    obtain rfl := Option.some.inj ht
    exact h.next rfl (Nat.le_refl _) (fun f hf => .inl hf) h.heard
  | message =>
    obtain rfl := Option.some.inj ht
    refine h.next rfl (Nat.le_succ _) (fun f hf => .inl hf) fun hfree hr hq => ?_
    have hsaid := h.heard hfree hr hq
    simpa [invalidateReads, Function.comp_def] using hsaid
  | getReadState =>
    obtain rfl := Option.some.inj ht
    exact h.getReadState
  | scheduleReadState =>
    obtain rfl := Option.some.inj ht
    unfold ChatReads.scheduleReadState
    split
    · exact h
    · exact h.next rfl (Nat.le_refl _) (fun f hf => .inl hf) h.heard
  | wakeScheduled =>
    simp only at ht
    split at ht
    · obtain rfl := Option.some.inj ht
      have hs : { s with scheduled := false }.Current :=
        h.next rfl (Nat.le_refl _) (fun f hf => .inl hf) h.heard
      exact hs.getReadState
    · simp at ht
  | serveRefresh =>
    simp only at ht
    split at ht
    · obtain rfl := Option.some.inj ht
      exact h.serveRefresh ‹_›
    · simp at ht
  | answerRefresh =>
    simp only at ht
    split at ht
    · obtain rfl := Option.some.inj ht
      exact h.answerRefresh ‹_› rfl hok
    · simp at ht
  | failRefresh =>
    simp only at ht
    split at ht
    · obtain rfl := Option.some.inj ht
      exact h.failRefresh hok
    · simp at ht
  | markRead messageId =>
    obtain rfl := Option.some.inj ht
    exact h.markRead messageId
  | wakeRead =>
    simp only at ht
    split at ht
    · obtain rfl := Option.some.inj ht
      exact h.wakeRead _ hok
    · simp at ht
  | serveRead next =>
    simp only at ht
    split at ht
    · split at ht
      · simp at ht
      · obtain rfl := Option.some.inj ht
        exact (h.serve next).next rfl (Nat.le_refl _) (fun f hf => .inl hf) (by simp [busy])
    · simp at ht
  | answerRead =>
    simp only at ht
    split at ht
    · rename_i messageId request hread
      obtain ⟨state, -, rfl⟩ := Option.map_eq_some_iff.mp ht
      exact h.answerRead hread (hok messageId request hread)
    · simp at ht
  | failRead =>
    simp only at ht
    split at ht
    · obtain rfl := Option.some.inj ht
      exact h.next rfl (Nat.le_refl _) (fun f hf => .inl hf) fun _ => hok
    · simp at ht
  | serveReading next =>
    simp only at ht
    split at ht
    · split at ht
      · simp at ht
      · obtain rfl := Option.some.inj ht
        exact (h.serve next).next rfl (Nat.le_refl _) (fun f hf => .inl hf) (by simp [busy])
    · simp at ht
  | answerReading =>
    simp only at ht
    split at ht
    · rename_i request hrewind
      obtain ⟨state, -, rfl⟩ := Option.map_eq_some_iff.mp ht
      exact h.answerReading (by simp [busy, hrewind]) request state
    · simp at ht
  | failReading =>
    simp only at ht
    split at ht
    · obtain rfl := Option.some.inj ht
      exact h.sendRewind
    · simp at ht
  | markUnread =>
    obtain rfl := Option.some.inj ht
    exact h.markUnread
  | serveRewind next =>
    simp only at ht
    split at ht
    · split at ht
      · simp at ht
      · obtain rfl := Option.some.inj ht
        exact (h.serve next).next rfl (Nat.le_refl _) (fun f hf => .inl hf) (by simp [busy])
    · simp at ht
  | answerRewind =>
    simp only at ht
    split at ht
    · rename_i request hrewind
      obtain ⟨state, -, rfl⟩ := Option.map_eq_some_iff.mp ht
      exact h.answerRewind state (by simp [busy, hrewind]) (hok request hrewind)
    · simp at ht
  | failRewind =>
    simp only at ht
    split at ht
    · obtain rfl := Option.some.inj ht
      exact h.next rfl (Nat.le_refl _) (fun f hf => .inl hf) fun _ => hok
    · simp at ht
  | destroy =>
    obtain rfl := Option.some.inj ht
    exact h.destroy

end ChatReads

end Chahua.Chats

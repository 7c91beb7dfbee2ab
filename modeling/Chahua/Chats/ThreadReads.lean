import Chahua.Chats.ChatReads

namespace Chahua.Chats

/-- A `markAsRead` call of a thread in flight. -/
structure SentThreadRead where
  target : Nat
  version : Nat
  answer : Option ReadState

/-- Where the loop of `markThreadRead` is: before its timer, in its call, or in
`getThreadReadState`. -/
inductive ThreadReadPhase
  | timer
  | sent (request : SentThreadRead)
  | refreshing (target : Nat)

structure ThreadReadRequest where
  messageId : Nat
  phase : ThreadReadPhase

/-- Where the loop of `getThreadReadState` is: before its timer, or in its call. -/
inductive ThreadRefresh
  | timer
  | sent (request : Refresh)

/-- The read state of one thread in the store, its requests and its watch. -/
structure ThreadReads where
  rootId : Nat
  watch : StateWatch ConversationState
  version : Nat
  entry : Option ReadEntry
  accessible : Bool
  chatAccessible : Bool
  accessVersion : Nat
  refresh : Option ThreadRefresh
  read : Option ThreadReadRequest
  destroyed : Bool

namespace ThreadReads

def snapshot (s : ThreadReads) : ThreadReads := { s with version := s.version + 1 }

def lastRead (s : ThreadReads) : Option Nat := s.entry.bind (·.state.lastReadMessageId)

def isAccessible (s : ThreadReads) : Bool := s.chatAccessible && s.accessible

/-- A local read is pending. -/
def busy (s : ThreadReads) : Bool := s.read.isSome

def setState (state : ReadState) (s : ThreadReads) : ThreadReads :=
  { s with entry := some ⟨state, s.version + 1, false⟩, version := s.version + 1 }

def invalidateThreadReads (s : ThreadReads) : ThreadReads :=
  { s with
    version := s.version + 1
    entry := s.entry.map fun read => { read with dirty := true, version := s.version + 1 } }

/-- An inaccessible thread is noted with a new version. -/
def noteAccess (accessible : Bool) (s : ThreadReads) : ThreadReads :=
  if accessible then { s with accessible }
  else { s.snapshot with accessible, accessVersion := s.version + 1 }

/-- A push of the thread's chat says whether that is accessible. -/
def noteChatAccess (chatAccessible : Bool) (s : ThreadReads) : ThreadReads :=
  if chatAccessible then { s with chatAccessible }
  else { s.snapshot with chatAccessible, accessVersion := s.version + 1 }

/-- A push was dropped behind the answer. -/
def missAnswer : ThreadRefresh → ThreadRefresh
  | .timer => .timer
  | .sent f => .sent { f with missed := f.missed || f.answer.isSome }

/-- The state of one push; while a read is pending, an accessible one is dropped. -/
def acceptReadState (p : ConversationState) (s : ThreadReads) : ThreadReads :=
  let noted := noteAccess p.accessible s
  if p.accessible && s.busy then { noted with refresh := s.refresh.map missAnswer }
  else setState p.state noted

/-- The cached state that `getThreadReadState` returns at once. -/
def freshReadState (s : ThreadReads) : Option ReadState :=
  (s.entry.filter fun read => !read.dirty || decide s.watch.ready).map (·.state)

def getThreadReadState (s : ThreadReads) : ThreadReads :=
  if s.refresh.isSome then s
  else if s.freshReadState.isSome then s
  else { s with refresh := some .timer }

def markThreadRead (messageId : Nat) (s : ThreadReads) : ThreadReads :=
  match s.read with
  | some current =>
    if messageId > current.messageId then { s with read := some { current with messageId } } else s
  | none =>
    if s.lastRead.any fun lastRead => messageId ≤ lastRead then s
    else { s with read := some ⟨messageId, .timer⟩ }

/-- The timer of `markThreadRead`. -/
def wakeRead (messageId : Nat) (s : ThreadReads) : ThreadReads :=
  if s.isAccessible then
    { s.snapshot with read := some ⟨messageId, .sent ⟨messageId, s.version + 1, none⟩⟩ }
  else { s with read := none }

/-- The thread is not accessible any more, or was not at some time since the call. -/
def lostAccess (request : SentThreadRead) (s : ThreadReads) : Bool :=
  !s.isAccessible || decide (s.accessVersion > request.version)

/-- A read that has its state caches it, renews the watch of a selected thread, and goes on while
a later message is to be read. -/
def concludeRead (messageId target : Nat) (state : ReadState) (s : ThreadReads) : ThreadReads :=
  let s := setState state s
  let s := if s.watch.isSelected then { s with watch := s.watch.publish } else s
  if messageId ≤ state.lastReadMessageId.getD target then { s with read := none }
  else { s with read := some ⟨messageId, .timer⟩ }

/-- Something has set the cached state since the version. -/
def overtaken (version : Nat) (s : ThreadReads) : Bool :=
  s.entry.any fun current => decide (current.version > version)

/-- The cached state is as good as the answer. -/
def keepsUp (state : ReadState) (s : ThreadReads) : Option ReadState :=
  (s.entry.filter fun current =>
    !current.dirty && decide (current.state.lastReadMessageId.getD s.rootId ≥
      state.lastReadMessageId.getD s.rootId)).map (·.state)

def answerRead (messageId : Nat) (sent : SentThreadRead) (state : ReadState) (s : ThreadReads) :
    ThreadReads :=
  if s.lostAccess sent then { s with read := none }
  else if !s.watch.isSelected && s.overtaken sent.version then
    match s.keepsUp state with
    | some current => concludeRead messageId sent.target current s
    | none =>
      if s.refresh.isSome then { s with read := some ⟨messageId, .refreshing sent.target⟩ }
      else match s.freshReadState with
        | some cached => concludeRead messageId sent.target cached s
        | none =>
          { s with refresh := some .timer, read := some ⟨messageId, .refreshing sent.target⟩ }
  else concludeRead messageId sent.target state s

/-- A read that awaits `getThreadReadState` goes on with its state. -/
def finishRefresh (state : ReadState) (s : ThreadReads) : ThreadReads :=
  match s.read with
  | some ⟨messageId, .refreshing target⟩ =>
    concludeRead messageId target state { s with refresh := none }
  | _ => { s with refresh := none }

/-- An answer that something has overtaken is dropped for it, or fetched again where it is dirty. -/
def answerRefresh (f : Refresh) (state : ReadState) (s : ThreadReads) : ThreadReads :=
  match s.entry.filter fun current => decide (current.version > f.version) with
  | some current =>
    if current.dirty then { s with refresh := some .timer } else finishRefresh current.state s
  | none => finishRefresh state (setState state s)

def failRefresh (s : ThreadReads) : ThreadReads :=
  match s.read with
  | some ⟨_, .refreshing _⟩ => { s with refresh := none, read := none }
  | _ => { s with refresh := none }

inductive Event
  | watch (event : StateWatch.Event ConversationState)
  | receive
  | chatAccess (accessible : Bool)
  | tick
  | message
  | getThreadReadState
  | wakeRefresh
  | serveRefresh
  | answerRefresh
  | failRefresh
  | markThreadRead (messageId : Nat)
  | wakeRead
  | serveRead (next : ConversationState)
  | answerRead
  | failRead
  | destroy

/-- The server applies a read: its state changes, and its answer confirms the new one. -/
def serve (next : ConversationState) (s : ThreadReads) : ThreadReads :=
  { s with watch := (s.watch.change next).confirm }

def step (s : ThreadReads) (e : Event) : Option ThreadReads :=
  if s.destroyed then none
  else match e with
    | .watch event => (s.watch.step event).map fun watch => { s with watch }
    | .receive => s.watch.receive.map fun (watch, accepted) =>
        (accepted.map fun p => acceptReadState p { s with watch }).getD { s with watch }
    | .chatAccess accessible => some (noteChatAccess accessible s)
    | .tick => some s.snapshot
    | .message => some s.invalidateThreadReads
    | .getThreadReadState => some s.getThreadReadState
    | .wakeRefresh => match s.refresh with
      | some .timer => some { s with refresh := some (.sent ⟨s.version, none, false⟩) }
      | _ => none
    | .serveRefresh => match s.refresh with
      | some (.sent ⟨version, none, missed⟩) =>
        some { s with
          watch := s.watch.confirm
          refresh := some (.sent ⟨version, some s.watch.server.state, missed⟩) }
      | _ => none
    | .answerRefresh => match s.refresh with
      | some (.sent ⟨version, some state, missed⟩) =>
        some (answerRefresh ⟨version, some state, missed⟩ state s)
      | _ => none
    | .failRefresh => match s.refresh with
      | some (.sent _) => some s.failRefresh
      | _ => none
    | .markThreadRead messageId => some (s.markThreadRead messageId)
    | .wakeRead => match s.read with
      | some ⟨messageId, .timer⟩ => some (wakeRead messageId s)
      | _ => none
    | .serveRead next => match s.read with
      | some ⟨messageId, .sent request⟩ =>
        if request.answer.isSome then none
        else some { serve next s with
          read := some ⟨messageId, .sent { request with answer := some next.state }⟩ }
      | _ => none
    | .answerRead => match s.read with
      | some ⟨messageId, .sent request⟩ =>
        request.answer.map fun state => answerRead messageId request state s
      | _ => none
    | .failRead => match s.read with
      | some ⟨_, .sent _⟩ => some { s with read := none }
      | _ => none
    | .destroy => some { s with watch := s.watch.destroy, destroyed := true }

/-- A store that has not watched the thread yet. -/
structure Fresh (s : ThreadReads) : Prop where
  watch : s.watch.Idle
  refresh : s.refresh = none

abbrev Kept (s : ThreadReads) (state : Option ReadState) : Prop :=
  s.watch.Said fun last => last.map (·.state) = state

/-- What the watch said last is cached. -/
abbrev Heard (s : ThreadReads) : Prop := s.Kept (s.entry.map (·.state))

/-- What the thread's events must meet: a read that ends in failure or for want of access has
dropped nothing that the watch said last; nor does an answer of `getReadState` replace what was
dropped behind it. -/
def Reconciled (s : ThreadReads) : Event → Prop
  | .wakeRead => s.isAccessible = false → s.Heard
  | .answerRead => ∀ messageId request, s.read = some ⟨messageId, .sent request⟩ →
    s.lostAccess request → s.Heard
  | .failRead => s.Heard
  | .failRefresh => ∀ messageId target, s.read = some ⟨messageId, .refreshing target⟩ → s.Heard
  | .answerRefresh => ∀ f state, s.refresh = some (.sent f) → f.answer = some state →
    f.missed → s.overtaken f.version = false → s.busy = false → s.Kept (some state)
  | _ => True

variable {s t : ThreadReads}

/-- What the operations of the thread lead to. -/
structure Current (s : ThreadReads) : Prop where
  watch : s.watch.Sound
  heard : s.busy = false → s.Heard
  answer : ∀ f state, s.refresh = some (.sent f) → f.answer = some state → f.missed = false →
    s.overtaken f.version = false → s.Kept (some state)
  version_le : ∀ f, s.refresh = some (.sent f) → f.version ≤ s.version

theorem Fresh.current (h : s.Fresh) : s.Current where
  watch := h.watch.sound
  heard _ hr := by simpa [h.watch.selected] using hr.2.2
  answer := by simp [h.refresh]
  version_le := by simp [h.refresh]

/-- A step that leaves the watch alone and fetches no answer. -/
theorem Current.next (h : s.Current) (hwatch : t.watch = s.watch) (hversion : s.version ≤ t.version)
    (hentry : t.entry = s.entry ∨ ∀ version ≤ s.version, t.overtaken version)
    (hrefresh : ∀ f, t.refresh = some (.sent f) →
      s.refresh = some (.sent f) ∨ f.answer = none ∧ f.version ≤ t.version)
    (hheard : t.busy = false → t.Heard) : t.Current := by
  refine ⟨hwatch ▸ h.watch, hheard, ?_, ?_⟩
  · intro f state hf hstate hmissed hover
    rcases hrefresh f hf with hf | ⟨hnone, -⟩
    · rcases hentry with hentry | hentry
      · unfold Kept
        rw [hwatch]
        refine h.answer f state hf hstate hmissed ?_
        unfold overtaken at hover ⊢
        rwa [← hentry]
      · simp [hentry f.version (h.version_le f hf)] at hover
    · simp [hnone] at hstate
  · intro f hf
    rcases hrefresh f hf with hf | ⟨-, hle⟩
    · exact Nat.le_trans (h.version_le f hf) hversion
    · exact hle

theorem current_of_not_ready (hw : t.watch.Sound) (hr : ¬ t.watch.ready)
    (hle : ∀ f, t.refresh = some (.sent f) → f.version ≤ t.version) : t.Current :=
  ⟨hw, fun _ hready => absurd hready hr, fun _ _ _ _ _ _ hready => absurd hready hr, hle⟩

theorem Current.snapshot (h : s.Current) : s.snapshot.Current :=
  h.next rfl (Nat.le_succ _) (.inl rfl) (fun _ hf => .inl hf) h.heard

theorem Current.getThreadReadState (h : s.Current) : s.getThreadReadState.Current := by
  unfold ThreadReads.getThreadReadState
  split
  · exact h
  · split
    · exact h
    · exact h.next rfl (Nat.le_refl _) (.inl rfl) (by simp) h.heard

theorem Current.markThreadRead (h : s.Current) (messageId : Nat) :
    (s.markThreadRead messageId).Current := by
  unfold ThreadReads.markThreadRead
  split
  · split
    · exact h.next rfl (Nat.le_refl _) (.inl rfl) (fun f hf => .inl hf) (by simp [busy])
    · exact h
  · split
    · exact h
    · exact h.next rfl (Nat.le_refl _) (.inl rfl) (fun f hf => .inl hf) (by simp [busy])

theorem Current.wakeRead (h : s.Current) (messageId : Nat)
    (hok : s.isAccessible = false → s.Heard) : (wakeRead messageId s).Current := by
  unfold ThreadReads.wakeRead
  split
  · exact h.snapshot.next rfl (Nat.le_refl _) (.inl rfl) (fun f hf => .inl hf) (by simp [busy])
  · exact h.next rfl (Nat.le_refl _) (.inl rfl) (fun f hf => .inl hf) fun _ => hok (by simp_all)

/-- A concluded read leaves a watch that is renewed, or that does not have the thread. -/
theorem Current.concludeRead (h : s.Current) (messageId target : Nat) (state : ReadState) :
    (concludeRead messageId target state s).Current := by
  have hle : ∀ f, s.refresh = some (.sent f) → f.version ≤ s.version + 1 := fun f hf =>
    Nat.le_succ_of_le (h.version_le f hf)
  unfold ThreadReads.concludeRead
  simp only
  split <;> split
  · exact current_of_not_ready h.watch.publish (StateWatch.not_ready_publish _) hle
  · rename_i hsel
    exact current_of_not_ready h.watch (StateWatch.not_ready_of_not_selected (by simpa using hsel)) hle
  · exact current_of_not_ready h.watch.publish (StateWatch.not_ready_publish _) hle
  · rename_i hsel
    exact current_of_not_ready h.watch (StateWatch.not_ready_of_not_selected (by simpa using hsel)) hle

theorem Current.answerRead (h : s.Current) {messageId : Nat} {sent : SentThreadRead}
    {state : ReadState} (hok : s.lostAccess sent → s.Heard) :
    (answerRead messageId sent state s).Current := by
  unfold ThreadReads.answerRead
  split
  · exact h.next rfl (Nat.le_refl _) (.inl rfl) (fun f hf => .inl hf) fun _ => hok ‹_›
  · split
    · split
      · exact h.concludeRead _ _ _
      · split
        · exact h.next rfl (Nat.le_refl _) (.inl rfl) (fun f hf => .inl hf) (by simp [busy])
        · split
          · exact h.concludeRead _ _ _
          · exact h.next rfl (Nat.le_refl _) (.inl rfl) (by simp) (by simp [busy])
    · exact h.concludeRead _ _ _

theorem Current.finishRefresh (h : s.Current) (state : ReadState) :
    (finishRefresh state s).Current := by
  have hdone : { s with refresh := none }.Current :=
    h.next rfl (Nat.le_refl _) (.inl rfl) (by simp) h.heard
  unfold ThreadReads.finishRefresh
  split
  · exact hdone.concludeRead _ _ _
  · exact hdone

theorem overtaken_setState {version : Nat} (h : version ≤ s.version) (state : ReadState) :
    (setState state s).overtaken version = true := by
  simp [overtaken, setState, Nat.lt_succ_of_le h]

theorem Current.answerRefresh (h : s.Current) {f : Refresh} {state : ReadState}
    (hf : s.refresh = some (.sent f)) (hstate : f.answer = some state)
    (hok : s.Reconciled .answerRefresh) : (answerRefresh f state s).Current := by
  unfold ThreadReads.answerRefresh
  split
  · split
    · exact h.next rfl (Nat.le_refl _) (.inl rfl) (by simp) h.heard
    · exact h.finishRefresh _
  · rename_i hnone
    have hover : s.overtaken f.version = false := by
      rw [Option.filter_eq_none_iff] at hnone
      unfold overtaken
      cases hentry : s.entry with
      | none => rfl
      | some current => simpa using hnone current hentry
    have hset : (setState state s).Current := by
      refine h.next rfl (Nat.le_succ _) (.inr fun version hle => overtaken_setState hle state)
        (fun f hf => .inl hf) fun hfree => ?_
      cases hmissed : f.missed
      · exact h.answer f state hf hstate hmissed hover
      · exact hok f state hf hstate hmissed hover hfree
    exact hset.finishRefresh _

theorem Current.failRefresh (h : s.Current) (hok : s.Reconciled .failRefresh) :
    s.failRefresh.Current := by
  unfold ThreadReads.failRefresh
  split
  · rename_i messageId target hread
    exact h.next rfl (Nat.le_refl _) (.inl rfl) (by simp) fun _ => hok messageId target hread
  · exact h.next rfl (Nat.le_refl _) (.inl rfl) (by simp) h.heard

theorem noteAccess_eq (accessible : Bool) (s : ThreadReads) :
    ∃ version accessVersion, s.version ≤ version ∧
      noteAccess accessible s = { s with accessible, version, accessVersion } := by
  unfold noteAccess
  split
  · exact ⟨_, _, Nat.le_refl _, rfl⟩
  · exact ⟨_, _, Nat.le_succ _, rfl⟩

theorem Current.noteChatAccess (h : s.Current) (accessible : Bool) :
    (noteChatAccess accessible s).Current := by
  unfold ThreadReads.noteChatAccess
  split
  · exact h.next rfl (Nat.le_refl _) (.inl rfl) (fun f hf => .inl hf) h.heard
  · exact h.next rfl (Nat.le_succ _) (.inl rfl) (fun f hf => .inl hf) h.heard

theorem missAnswer_sent {r : ThreadRefresh} {f : Refresh} (h : missAnswer r = .sent f) :
    ∃ f', r = .sent f' ∧ f = { f' with missed := f'.missed || f'.answer.isSome } := by
  cases r with
  | timer => simp [missAnswer] at h
  | sent f' => exact ⟨f', rfl, (ThreadRefresh.sent.inj h).symm⟩

theorem Current.receive {w : StateWatch ConversationState} {accepted : Option ConversationState}
    (h : s.Current) (hw : s.watch.receive = some (w, accepted)) :
    ((accepted.map fun p => acceptReadState p { s with watch := w }).getD
      { s with watch := w }).Current := by
  have hsound := h.watch.receive hw
  cases accepted with
  | none =>
    exact ⟨hsound, fun hfree => (h.heard hfree).receive_none hw,
      fun f state hf hs hm hv => (h.answer f state hf hs hm hv).receive_none hw, h.version_le⟩
  | some p =>
    obtain ⟨version, accessVersion, hle, heq⟩ := noteAccess_eq p.accessible { s with watch := w }
    simp only [Option.map_some, Option.getD_some, acceptReadState, heq]
    split
    · rename_i hdropped
      refine ⟨hsound, fun hfree => ?_, ?_, ?_⟩
      · have hfree : s.busy = false := hfree
        simp [busy] at hdropped hfree
        simp [hfree] at hdropped
      · rintro f state hf hs hm -
        obtain ⟨r, -, hr⟩ := Option.map_eq_some_iff.mp hf
        obtain ⟨f', -, rfl⟩ := missAnswer_sent hr
        have hs : f'.answer = some state := hs
        simp [hs] at hm
      · intro f hf
        obtain ⟨r, hr, hm⟩ := Option.map_eq_some_iff.mp hf
        obtain ⟨f', rfl, rfl⟩ := missAnswer_sent hm
        exact Nat.le_trans (h.version_le f' hr) hle
    · refine ⟨hsound, fun _ => StateWatch.said_receive hw rfl, ?_, ?_⟩
      · intro f state hf _ _ hover
        have hle' : f.version ≤ version := Nat.le_trans (h.version_le f hf) hle
        simp [overtaken, setState, Nat.lt_succ_of_le hle'] at hover
      · exact fun f hf => Nat.le_succ_of_le (Nat.le_trans (h.version_le f hf) hle)

theorem Current.watchStep {w : StateWatch ConversationState}
    {e : StateWatch.Event ConversationState} (h : s.Current) (hw : s.watch.step e = some w) :
    { s with watch := w }.Current :=
  ⟨h.watch.step hw, fun hfree => (h.heard hfree).step h.watch hw,
    fun f state hf hs hm hv => (h.answer f state hf hs hm hv).step h.watch hw, h.version_le⟩

theorem Current.serve (h : s.Current) (next : ConversationState) : (serve next s).Current :=
  ⟨(h.watch.change next).confirm, fun hfree => (h.heard hfree).change next,
    fun f state hf hs hm hv => (h.answer f state hf hs hm hv).change next, h.version_le⟩

/-- The answer of `getReadState` is what a quiet watch said last. -/
theorem Current.serveRefresh (h : s.Current) {version : Nat} {missed : Bool}
    (hf : s.refresh = some (.sent ⟨version, none, missed⟩)) :
    { s with
      watch := s.watch.confirm
      refresh := some (.sent ⟨version, some s.watch.server.state, missed⟩) }.Current := by
  refine ⟨h.watch.confirm, h.heard, ?_, ?_⟩
  · intro f state hf' hstate _ _ hr hq
    obtain rfl := ThreadRefresh.sent.inj (Option.some.inj hf')
    obtain rfl := Option.some.inj hstate
    change s.watch.last.map (·.state) = _
    rw [(h.watch.current hr hq).1]
    rfl
  · intro f hf'
    obtain rfl := ThreadRefresh.sent.inj (Option.some.inj hf')
    have hle := h.version_le _ hf
    exact hle

theorem Current.message (h : s.Current) : s.invalidateThreadReads.Current := by
  refine ⟨h.watch, fun hfree hr hq => ?_, ?_, fun f hf => Nat.le_succ_of_le (h.version_le f hf)⟩
  · have hsaid := h.heard hfree hr hq
    simpa [invalidateThreadReads, Function.comp_def] using hsaid
  · intro f state hf hs hm hover
    refine h.answer f state hf hs hm ?_
    cases hentry : s.entry with
    | none => simp [overtaken, hentry]
    | some current =>
      have hle := h.version_le f hf
      simp only [overtaken, invalidateThreadReads, hentry, Option.map_some, Option.any_some,
        decide_eq_false_iff_not] at hover
      omega

theorem Current.step {e : Event} (h : s.Current) (hok : s.Reconciled e)
    (ht : s.step e = some t) : t.Current := by
  unfold ThreadReads.step at ht
  split at ht
  · simp at ht
  cases e with
  | watch event =>
    obtain ⟨w, hw, rfl⟩ := Option.map_eq_some_iff.mp ht
    exact h.watchStep hw
  | receive =>
    obtain ⟨⟨w, accepted⟩, hw, rfl⟩ := Option.map_eq_some_iff.mp ht
    exact h.receive hw
  | chatAccess accessible =>
    obtain rfl := Option.some.inj ht
    exact h.noteChatAccess accessible
  | tick =>
    obtain rfl := Option.some.inj ht
    exact h.snapshot
  | message =>
    obtain rfl := Option.some.inj ht
    exact h.message
  | getThreadReadState =>
    obtain rfl := Option.some.inj ht
    exact h.getThreadReadState
  | wakeRefresh =>
    simp only at ht
    split at ht
    · obtain rfl := Option.some.inj ht
      exact h.next rfl (Nat.le_refl _) (.inl rfl)
        (fun f hf => .inr (by simp [← ThreadRefresh.sent.inj (Option.some.inj hf)])) h.heard
    · simp at ht
  | serveRefresh =>
    simp only at ht
    split at ht
    · obtain rfl := Option.some.inj ht
      exact h.serveRefresh ‹_›
    · simp at ht
  | answerRefresh =>
    simp only at ht
    split at ht
    · obtain rfl := Option.some.inj ht
      exact h.answerRefresh ‹_› rfl hok
    · simp at ht
  | failRefresh =>
    simp only at ht
    split at ht
    · obtain rfl := Option.some.inj ht
      exact h.failRefresh hok
    · simp at ht
  | markThreadRead messageId =>
    obtain rfl := Option.some.inj ht
    exact h.markThreadRead messageId
  | wakeRead =>
    simp only at ht
    split at ht
    · obtain rfl := Option.some.inj ht
      exact h.wakeRead _ hok
    · simp at ht
  | serveRead next =>
    simp only at ht
    split at ht
    · split at ht
      · simp at ht
      · obtain rfl := Option.some.inj ht
        exact (h.serve next).next rfl (Nat.le_refl _) (.inl rfl) (fun f hf => .inl hf)
          (by simp [busy])
    · simp at ht
  | answerRead =>
    simp only at ht
    split at ht
    · rename_i messageId request hread
      obtain ⟨state, -, rfl⟩ := Option.map_eq_some_iff.mp ht
      exact h.answerRead (hok messageId request hread)
    · simp at ht
  | failRead =>
    simp only at ht
    split at ht
    · obtain rfl := Option.some.inj ht
      exact h.next rfl (Nat.le_refl _) (.inl rfl) (fun f hf => .inl hf) fun _ => hok
    · simp at ht
  | destroy =>
    obtain rfl := Option.some.inj ht
    exact ⟨h.watch.destroy, fun _ => h.watch.said_destroy, fun _ _ _ _ _ _ => h.watch.said_destroy,
      h.version_le⟩

end ThreadReads

end Chahua.Chats

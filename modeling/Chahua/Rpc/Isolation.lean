import Chahua.Rpc.EventGate

namespace Chahua.Rpc

open Framework

namespace SessionShared

variable {s t : SessionShared} {a b : Actor} {pc : Pc} {frame : OutputFrame} {kind : WatchKind}
  {serial : Nat} {event watch : Watch}

/-- The replacement with this serial has been made: no older watch of its kind is installed. -/
def Replaced (s : SessionShared) (kind : WatchKind) (serial : Nat) : Prop :=
  serial ≤ s.installations ∧ ∀ watch, s.subscription kind = some watch → serial ≤ watch.serial

/-- What a task relies on while it sends. -/
def Ready (s : SessionShared) (a : Actor) : OutputFrame → Prop
  | .response => a = .session
  | .ack kind serial => a = .session ∧ s.Replaced kind serial
  | .watch kind event => s.accepting = true ∧ s.currentWatchMatches kind event = true ∧
      (kind, event) ∈ s.installed
  | .registry => s.accepting = true
  | .lifecycle _ => a = .session ∧ s.lifecycleNotified = true

/-- What a task at `pc` knows. -/
structure Knows (s : SessionShared) (a : Actor) (pc : Pc) : Prop where
  gate : pc.holdsGate = true → s.eventGate = some a
  lock : pc.holdsState = true → s.stateLock = some a
  allowed : ∀ task, pc = .gate task ∨ pc = .state task → s.allowed a task = true
  ready : ∀ frame, pc = .sending frame ∨ pc = .reserved frame → s.Ready a frame
  closing : pc = .closing → a = .session

/-- The lifecycle notification has been queued, or will be the next frame of the session. -/
def Pc.final : Pc → Bool
  | .sending (.lifecycle _) => true
  | .reserved (.lifecycle _) => true
  | .closing => true
  | .stopped => true
  | _ => false

/-- The invariant. The task in `hand` is between two of its program counters. -/
structure Consistent (hand : Option Actor) (s : SessionShared) : Prop where
  knows : ∀ a, hand ≠ some a → s.Knows a (s.pc a)
  serials : ∀ kind watch, (kind, watch) ∈ s.installed → watch.serial ≤ s.installations
  subscribed : ∀ kind watch, s.subscription kind = some watch → (kind, watch) ∈ s.installed
  replied : ∀ kind serial, (kind, serial) ∈ s.replies → s.Replaced kind serial
  acknowledged : ∀ q ∈ s.sent, ∀ kind serial, q.frame = .ack kind serial →
    s.Replaced kind serial
  generations : s.installations < 2 ^ 64 → s.nextWatchGeneration = s.installations ∧
    ∀ kind watch, (kind, watch) ∈ s.installed → watch.generation = watch.serial
  notified : s.lifecycleNotified = true → s.accepting = false ∧
    (hand ≠ some .session → Pc.final (s.pc .session) = true)
  failed : ∀ q ∈ s.sent, ∀ failure, q.frame = .lifecycle failure →
    s.lifecycleNotified = true ∧
      (hand ≠ some .session → s.pc .session = .closing ∨ s.pc .session = .stopped)
  suspended : s.accepting = false ↔ s.suspendedAt.isSome = true
  current : ∀ q ∈ s.sent, ∀ kind event, q.frame = .watch kind event →
    ∃ watch, q.subscriptions kind = some watch ∧ watch.generation = event.generation ∧
      watch.requestId = event.requestId
  ordered : s.installations < 2 ^ 64 → s.sent.Pairwise fun p q => ∀ kind serial event,
    p.frame = .ack kind serial → q.frame = .watch kind event → serial ≤ event.serial
  quiet : ∀ n, s.suspendedAt = some n → n ≤ s.sent.length ∧
    ∀ q ∈ s.sent.drop n, q.frame.isEvent = false
  last : s.sent.Pairwise fun p _ => ∀ failure, p.frame ≠ .lifecycle failure

theorem currentWatchMatches_eq_true : s.currentWatchMatches kind event = true ↔
    ∃ watch, s.subscription kind = some watch ∧ watch.generation = event.generation ∧
      watch.requestId = event.requestId := by
  simp [currentWatchMatches, Option.any_eq_true]

theorem goto_pc (s : SessionShared) (a b : Actor) (pc : Pc) :
    (s.goto a pc).pc b = if b = a then pc else s.pc b := by
  simp [goto, Function.update_apply]

/-- Two tasks do not hold the gate at once. -/
theorem Knows.exclusive (h : s.Knows a pc) (hb : s.eventGate ≠ some a) :
    pc.holdsGate = false := by
  by_contra hg
  exact hb (h.gate (by simpa using hg))

theorem holdsGate_of_holdsState (h : pc.holdsState = true) : pc.holdsGate = true := by
  cases pc with
  | sending frame => cases frame <;> first | rfl | cases h
  | reserved frame => cases frame <;> first | rfl | cases h
  | _ => cases h

/-- A task without the gate relies on nothing its holder changes. -/
theorem Knows.outside (h : s.Knows a pc) (hg : pc.holdsGate = false)
    (hallowed : ∀ task, s.allowed a task = true → t.allowed a task = true)
    (hreplaced : ∀ kind serial, s.Replaced kind serial → t.Replaced kind serial)
    (hnotified : s.lifecycleNotified = true → t.lifecycleNotified = true) :
    t.Knows a pc where
  gate hg' := by simp [hg] at hg'
  lock hl := by simp [holdsGate_of_holdsState hl] at hg
  allowed task ht := hallowed task (h.allowed task ht)
  ready frame hf := by
    have hr := h.ready frame hf
    cases frame with
    | response => exact hr
    | ack kind serial => exact ⟨hr.1, hreplaced kind serial hr.2⟩
    | lifecycle failure => exact ⟨hr.1, hnotified hr.2⟩
    | watch kind event => rcases hf with rfl | rfl <;> cases hg
    | registry => rcases hf with rfl | rfl <;> cases hg
  closing := h.closing

/-- Letting go of one's own locks takes nothing from another task. -/
theorem Knows.release (h : s.Knows a pc) (hne : a ≠ b) : (s.release b).Knows a pc where
  gate hg := by simp [SessionShared.release, h.gate hg, hne]
  lock hl := by simp [SessionShared.release, h.lock hl, hne]
  allowed := h.allowed
  ready := h.ready
  closing := h.closing

theorem Knows.goto {pc' : Pc} (h : s.Knows a pc) : (s.goto b pc').Knows a pc :=
  ⟨h.gate, h.lock, h.allowed, h.ready, h.closing⟩

theorem Knows.idle : s.Knows a .idle := by
  refine ⟨?_, ?_, ?_, ?_, ?_⟩ <;> simp [Pc.holdsGate, Pc.holdsState]

theorem Knows.stopped : s.Knows a .stopped := by
  refine ⟨?_, ?_, ?_, ?_, ?_⟩ <;> simp [Pc.holdsGate, Pc.holdsState]

theorem Knows.of_gate {task : GateTask} (h : s.allowed a task = true) :
    s.Knows a (.gate task) := by
  refine ⟨by simp [Pc.holdsGate], by simp [Pc.holdsState], ?_, by simp, by simp⟩
  rintro task' (⟨⟨⟩⟩ | ⟨⟨⟩⟩)
  exact h

theorem Knows.of_state {task : GateTask} (hg : s.eventGate = some a)
    (h : s.allowed a task = true) : s.Knows a (.state task) := by
  refine ⟨fun _ => hg, by simp [Pc.holdsState], ?_, by simp, by simp⟩
  rintro task' (⟨⟨⟩⟩ | ⟨⟨⟩⟩)
  exact h

theorem Knows.of_sending (hg : frame.gated = true → s.eventGate = some a)
    (hl : frame.locking = true → s.stateLock = some a) (h : s.Ready a frame) :
    s.Knows a (.sending frame) := by
  refine ⟨hg, hl, by simp, ?_, by simp⟩
  rintro frame' (⟨⟨⟩⟩ | ⟨⟨⟩⟩)
  exact h

theorem Knows.reserve (h : s.Knows a (.sending frame)) : s.Knows a (.reserved frame) := by
  refine ⟨h.gate, h.lock, by simp, ?_, by simp⟩
  rintro frame' (⟨⟨⟩⟩ | ⟨⟨⟩⟩)
  exact h.ready frame (Or.inl rfl)

theorem Knows.of_closing (hg : s.eventGate = some .session) : s.Knows .session .closing := by
  refine ⟨fun _ => hg, ?_, ?_, ?_, fun _ => rfl⟩ <;> simp [Pc.holdsState]

namespace Consistent

theorem take (h : Consistent none s) (a : Actor) : Consistent (some a) s :=
  { h with
    knows := fun b _ => h.knows b (by simp)
    notified := fun hn => ⟨(h.notified hn).1, fun _ => (h.notified hn).2 (by simp)⟩
    failed := fun q hq failure hf =>
      ⟨(h.failed q hq failure hf).1, fun _ => (h.failed q hq failure hf).2 (by simp)⟩ }

/-- No lifecycle failure while the session loop does something else. -/
theorem unnotified (h : Consistent none s) (hf : Pc.final (s.pc .session) = false) :
    s.lifecycleNotified = false ∧ ∀ q ∈ s.sent, ∀ failure, q.frame ≠ .lifecycle failure := by
  have hn : s.lifecycleNotified = false := by
    by_contra hn
    have := (h.notified (by simpa using hn)).2 (by simp)
    rw [hf] at this
    cases this
  refine ⟨hn, fun q hq failure heq => ?_⟩
  have := (h.failed q hq failure heq).1
  rw [hn] at this
  cases this

/-- The task in hand goes on. -/
theorem goto (h : Consistent (some a) s) (hk : s.Knows a pc)
    (hs : a = .session → (s.lifecycleNotified = true → Pc.final pc = true) ∧
      ∀ q ∈ s.sent, ∀ failure, q.frame = .lifecycle failure → pc = .closing ∨ pc = .stopped) :
    Consistent none (s.goto a pc) :=
  { h with
    knows := fun b _ => by
      rw [goto_pc]
      split
      · next heq =>
        subst heq
        exact hk.goto
      · next hne => exact (h.knows b (by simpa using Ne.symm hne)).goto
    notified := fun hn => by
      refine ⟨(h.notified hn).1, fun _ => ?_⟩
      rw [goto_pc]
      split
      · next heq => exact (hs heq.symm).1 hn
      · next hne => exact (h.notified hn).2 (by simpa using Ne.symm hne)
    failed := fun q hq failure hf => by
      obtain ⟨hn, hpc⟩ := h.failed q hq failure hf
      refine ⟨hn, fun _ => ?_⟩
      rw [goto_pc]
      split
      · next heq => exact (hs heq.symm).2 q hq failure hf
      · next hne => exact hpc (by simpa using Ne.symm hne) }

theorem release (h : Consistent (some a) s) : Consistent (some a) (s.release a) :=
  { h with
    knows := fun b hb => (h.knows b hb).release fun heq => hb (heq ▸ rfl) }

theorem close {hand : Option Actor} (h : Consistent hand s) :
    Consistent hand ({ s with closed := true } : SessionShared) :=
  { h with
    knows := fun b hb => ⟨(h.knows b hb).gate, (h.knows b hb).lock, (h.knows b hb).allowed,
      (h.knows b hb).ready, (h.knows b hb).closing⟩ }

theorem activate (h : Consistent none s) :
    Consistent none ({ s with activated := true } : SessionShared) :=
  { h with
    knows := fun b hb => ⟨(h.knows b hb).gate, (h.knows b hb).lock, fun task ht => by
      have := (h.knows b hb).allowed task ht
      cases b <;> cases task <;> simp_all [allowed], (h.knows b hb).ready, (h.knows b hb).closing⟩ }

theorem lockGate (h : Consistent (some a) s) (hg : s.eventGate = none) :
    Consistent (some a) ({ s with eventGate := some a } : SessionShared) :=
  { h with
    knows := fun b hb => (h.knows b hb).outside ((h.knows b hb).exclusive (by simp [hg]))
      (fun _ => id) (fun _ _ => id) id }

/-- No other task holds the gate. -/
theorem alone (h : Consistent (some a) s) (hg : s.eventGate = some a) (hb : some a ≠ some b) :
    (s.pc b).holdsGate = false :=
  (h.knows b hb).exclusive (hg ▸ hb)

theorem lockState (h : Consistent (some a) s) (hg : s.eventGate = some a) :
    Consistent (some a) ({ s with stateLock := some a } : SessionShared) :=
  { h with
    knows := fun b hb => (h.knows b hb).outside (h.alone hg hb) (fun _ => id) (fun _ _ => id) id }

theorem stopAccepting (h : Consistent (some a) s) (hg : s.eventGate = some a) :
    Consistent (some a) s.stopAccepting :=
  { h with
    knows := fun b hb => (h.knows b hb).outside (h.alone hg hb) (fun _ => id) (fun _ _ => id) id
    notified := fun hn => ⟨rfl, (h.notified hn).2⟩
    suspended := by simp [SessionShared.stopAccepting]
    quiet := fun n hn => by
      cases hat : s.suspendedAt with
      | some m =>
        have hnm : m = n := by simpa [SessionShared.stopAccepting, hat] using hn
        exact hnm ▸ h.quiet m hat
      | none =>
        have hlen : s.sent.length = n := by simpa [SessionShared.stopAccepting, hat] using hn
        subst hlen
        simp [SessionShared.stopAccepting] }

theorem notify (h : Consistent (some .session) s) (hg : s.eventGate = some .session)
    (ha : s.accepting = false) :
    Consistent (some .session) ({ s with lifecycleNotified := true } : SessionShared) :=
  { h with
    knows := fun b hb => (h.knows b hb).outside (h.alone hg hb) (fun _ => id) (fun _ _ => id)
      fun _ => rfl
    notified := fun _ => ⟨ha, by simp⟩
    failed := fun q hq failure hf => ⟨rfl, by simp⟩ }

/-- A frame is queued. -/
theorem send (h : Consistent (some a) s) (hr : s.Ready a frame)
    (hn : ∀ q ∈ s.sent, ∀ failure, q.frame ≠ .lifecycle failure) :
    Consistent (some a)
      ({ s with sent := s.sent ++ [⟨frame, s.subscription⟩] } : SessionShared) :=
  { h with
    knows := fun b hb => ⟨(h.knows b hb).gate, (h.knows b hb).lock, (h.knows b hb).allowed,
      (h.knows b hb).ready, (h.knows b hb).closing⟩
    acknowledged := fun q hq kind serial hf => by
      rcases List.mem_append.mp hq with hq | hq
      · exact h.acknowledged q hq kind serial hf
      · obtain rfl := List.mem_singleton.mp hq
        obtain rfl : frame = .ack kind serial := hf
        exact hr.2
    failed := fun q hq failure hf => by
      rcases List.mem_append.mp hq with hq | hq
      · exact absurd hf (hn q hq failure)
      · obtain rfl := List.mem_singleton.mp hq
        obtain rfl : frame = .lifecycle failure := hf
        exact ⟨hr.2, fun hand => absurd (hr.1 ▸ rfl) hand⟩
    current := fun q hq kind event hf => by
      rcases List.mem_append.mp hq with hq | hq
      · exact h.current q hq kind event hf
      · obtain rfl := List.mem_singleton.mp hq
        obtain rfl : frame = .watch kind event := hf
        exact currentWatchMatches_eq_true.mp hr.2.1
    ordered := fun hlt => by
      refine List.pairwise_append.mpr ⟨h.ordered hlt, List.pairwise_singleton _ _, ?_⟩
      intro p hp q hq kind serial event hack hwatch
      obtain rfl := List.mem_singleton.mp hq
      obtain rfl : frame = .watch kind event := hwatch
      obtain ⟨watch, hw, hgen, -⟩ := currentWatchMatches_eq_true.mp hr.2.1
      have hgens := (h.generations hlt).2
      have := (h.acknowledged p hp kind serial hack).2 watch hw
      rw [← hgens kind event hr.2.2, ← hgen, hgens kind watch (h.subscribed kind watch hw)]
      exact this
    quiet := fun n hat => by
      obtain ⟨hle, hquiet⟩ := h.quiet n hat
      refine ⟨by simp; omega, fun q hq => ?_⟩
      rw [List.drop_append_of_le_length hle] at hq
      rcases List.mem_append.mp hq with hq | hq
      · exact hquiet q hq
      · obtain rfl := List.mem_singleton.mp hq
        have ha : s.accepting = false := h.suspended.mpr (by rw [show s.suspendedAt = some n from hat]; rfl)
        cases frame with
        | watch kind event => simp [hr.1] at ha
        | registry => simp [show s.accepting = true from hr] at ha
        | _ => rfl
    last := List.pairwise_append.mpr ⟨h.last, List.pairwise_singleton _ _,
      fun p hp _ _ failure => hn p hp failure⟩ }

/-- Any change of the subscriptions that installs nothing. -/
theorem rebind {bound : Option (WatchKind → Option Watch)} (h : Consistent none s)
    (hnone : ∀ kind, bound.bind (fun subscriptions => subscriptions kind) = none)
    (hidle : ∀ b kind event, s.pc b = .sending (.watch kind event) ∨
      s.pc b = .reserved (.watch kind event) → False) :
    Consistent none ({ s with bound := bound } : SessionShared) := by
  have hreplaced : ∀ kind serial, s.Replaced kind serial →
      ({ s with bound := bound } : SessionShared).Replaced kind serial :=
    fun kind serial hr => ⟨hr.1, fun watch hw => by
      rw [subscription, hnone] at hw
      cases hw⟩
  exact
    { h with
      knows := fun b hb => ⟨(h.knows b hb).gate, (h.knows b hb).lock, (h.knows b hb).allowed,
        fun frame hf => by
          have hr := (h.knows b hb).ready frame hf
          cases frame with
          | watch kind event => exact (hidle b kind event hf).elim
          | ack kind serial => exact ⟨hr.1, hreplaced kind serial hr.2⟩
          | _ => exact hr, (h.knows b hb).closing⟩
      subscribed := fun kind watch hw => by
        rw [subscription, hnone] at hw
        cases hw
      replied := fun kind serial hm => hreplaced kind serial (h.replied kind serial hm)
      acknowledged := fun q hq kind serial hf =>
        hreplaced kind serial (h.acknowledged q hq kind serial hf) }

/-- `next_watch_generation` was called, and what was installed or replied has its number. -/
theorem install (h : Consistent (some a) s) (hg : s.eventGate = some a)
    (bound : Option (WatchKind → Option Watch)) (watches : List (WatchKind × Watch))
    (replies : List (WatchKind × Nat))
    (hbound : ∀ kind watch, bound.bind (fun subscriptions => subscriptions kind) = some watch →
      s.subscription kind = some watch ∨ (kind, watch) ∈ watches)
    (hwatches : ∀ kind watch, (kind, watch) ∈ watches →
      watch.serial = s.installations + 1 ∧
        watch.generation = nextGeneration s.nextWatchGeneration)
    (hreplies : ∀ kind serial, (kind, serial) ∈ replies → serial = s.installations + 1 ∧
      ∀ watch, bound.bind (fun subscriptions => subscriptions kind) = some watch →
        (kind, watch) ∈ watches) :
    Consistent (some a) ({ s with
      nextWatchGeneration := nextGeneration s.nextWatchGeneration
      installations := s.installations + 1
      bound := bound
      replies := s.replies ++ replies
      installed := s.installed ++ watches } : SessionShared) := by
  set t : SessionShared := { s with
    nextWatchGeneration := nextGeneration s.nextWatchGeneration
    installations := s.installations + 1
    bound := bound
    replies := s.replies ++ replies
    installed := s.installed ++ watches } with ht
  have hreplaced : ∀ kind serial, s.Replaced kind serial → t.Replaced kind serial := by
    intro kind serial hr
    refine ⟨Nat.le_succ_of_le hr.1, fun watch hw => ?_⟩
    rcases hbound kind watch hw with hold | hnew
    · exact hr.2 watch hold
    · rw [(hwatches kind watch hnew).1]
      exact Nat.le_succ_of_le hr.1
  have hallowed : ∀ b task, s.allowed b task = true → t.allowed b task = true := by
    intro b task hb
    cases b <;> cases task <;> simp_all [allowed]
  exact
    { h with
      knows := fun b hb => (h.knows b hb).outside (h.alone hg hb) (hallowed b) hreplaced id
      serials := fun kind watch hw => by
        rcases List.mem_append.mp hw with hold | hnew
        · exact Nat.le_succ_of_le (h.serials kind watch hold)
        · exact Nat.le_of_eq (hwatches kind watch hnew).1
      subscribed := fun kind watch hw => List.mem_append.mpr
        ((hbound kind watch hw).imp_left (h.subscribed kind watch))
      replied := fun kind serial hm => by
        rcases List.mem_append.mp hm with hold | hnew
        · exact hreplaced kind serial (h.replied kind serial hold)
        · obtain ⟨rfl, hown⟩ := hreplies kind serial hnew
          exact ⟨Nat.le_refl _, fun watch hw =>
            Nat.le_of_eq (hwatches kind watch (hown watch hw)).1.symm⟩
      acknowledged := fun q hq kind serial hf =>
        hreplaced kind serial (h.acknowledged q hq kind serial hf)
      generations := fun hlt => by
        have hlt' : s.installations < 2 ^ 64 := Nat.lt_of_succ_lt hlt
        obtain ⟨hnext, hgens⟩ := h.generations hlt'
        have hgen : nextGeneration s.nextWatchGeneration = s.installations + 1 := by
          rw [hnext, nextGeneration, Nat.mod_eq_of_lt hlt, if_neg (Nat.succ_ne_zero _)]
        refine ⟨hgen, fun kind watch hw => ?_⟩
        rcases List.mem_append.mp hw with hold | hnew
        · exact hgens kind watch hold
        · rw [(hwatches kind watch hnew).2, (hwatches kind watch hnew).1, hgen]
      ordered := fun hlt => h.ordered (Nat.lt_of_succ_lt hlt) }

/-- A replacement makes its watch the newest one. -/
theorem replaceWatch (h : Consistent (some a) s) (hg : s.eventGate = some a)
    (kind : WatchKind) (requestId : Option Nat) :
    Consistent (some a) (s.replaceWatch kind requestId) := by
  unfold SessionShared.replaceWatch
  split
  · exact h
  cases hb : s.bound with
  | none =>
    simpa [hb] using h.install hg none [] [] (by simp) (by simp) (by simp)
  | some subscriptions =>
    have hrow : ∀ kind' watch,
        Function.update subscriptions kind
          (requestId.map fun requestId => (⟨s.installations + 1,
            nextGeneration s.nextWatchGeneration, requestId⟩ : Watch)) kind' = some watch →
        (kind' ≠ kind ∧ s.subscription kind' = some watch) ∨
          (kind' = kind ∧ ∃ id, requestId = some id ∧ (⟨s.installations + 1,
            nextGeneration s.nextWatchGeneration, id⟩ : Watch) = watch) := by
      intro kind' watch hw
      rw [Function.update_apply] at hw
      split at hw
      · next heq =>
        obtain ⟨id, hid, rfl⟩ := Option.map_eq_some_iff.mp hw
        exact Or.inr ⟨heq, id, hid, rfl⟩
      · next hne => exact Or.inl ⟨hne, by simp [subscription, hb, hw]⟩
    refine h.install hg _ _ _ (fun kind' watch hw => ?_) (fun kind' watch hw => ?_) ?_
    · rcases hrow kind' watch hw with ⟨-, hold⟩ | ⟨rfl, id, rfl, rfl⟩
      · exact Or.inl hold
      · simp
    · cases requestId with
      | none => simp at hw
      | some id =>
        obtain ⟨rfl, rfl⟩ : kind' = kind ∧ watch = _ := by simpa using hw
        exact ⟨rfl, rfl⟩
    · intro kind' serial hm
      obtain ⟨rfl, rfl⟩ : kind' = kind ∧ serial = _ := by simpa using hm
      refine ⟨rfl, fun watch hw => ?_⟩
      rcases hrow kind' watch hw with ⟨hne, -⟩ | ⟨-, id, rfl, rfl⟩
      · exact absurd rfl hne
      · simp

/-- The session loop may do anything while it is not notified. -/
theorem goto_unnotified (h : Consistent (some a) s) (hk : s.Knows a pc)
    (hs : a = .session → s.lifecycleNotified = false ∧
      ∀ q ∈ s.sent, ∀ failure, q.frame ≠ .lifecycle failure) :
    Consistent none (s.goto a pc) :=
  h.goto hk fun ha => ⟨fun hn => by simp [(hs ha).1] at hn,
    fun q hq failure hf => absurd hf ((hs ha).2 q hq failure)⟩

theorem execute (h : Consistent none s) {task : GateTask} (hpc : s.pc a = .state task) :
    Consistent none (s.execute a task) := by
  have hk := h.knows a (by simp)
  rw [hpc] at hk
  have hg : s.eventGate = some a := hk.gate rfl
  have hallowed := hk.allowed task (Or.inr rfl)
  have hun : a = .session → s.lifecycleNotified = false ∧
      ∀ q ∈ s.sent, ∀ failure, q.frame ≠ .lifecycle failure :=
    fun ha => h.unnotified (by rw [← ha, hpc]; rfl)
  have htake := h.take a
  cases task with
  | replace kind requestId =>
    refine (htake.replaceWatch hg kind requestId).release.goto_unnotified .idle fun ha => ?_
    simp [ha, allowed] at hallowed
  | publish kind event =>
    simp only [SessionShared.execute]
    split
    · exact htake.release.goto_unnotified .idle hun
    · next hgo =>
      simp only [Bool.or_eq_true, not_or, Bool.not_eq_true, Bool.not_eq_false'] at hgo
      refine (htake.lockState hg).goto_unnotified (.of_sending (fun _ => hg) (fun _ => rfl)
        ⟨hgo.1.1.2, hgo.2, ?_⟩) hun
      cases a <;> simp_all [allowed]
  | forward =>
    simp only [SessionShared.execute]
    split
    · exact htake.release.goto_unnotified .idle hun
    · next hgo =>
      simp only [Bool.or_eq_true, not_or, Bool.not_eq_true, Bool.not_eq_false'] at hgo
      exact htake.goto_unnotified (.of_sending (fun _ => hg) (by simp [OutputFrame.locking]) hgo.2)
        hun
  | suspend => exact (htake.stopAccepting hg).release.goto_unnotified .idle hun
  | fail failure =>
    have ha : a = .session := by cases a <;> simp_all [allowed]
    subst ha
    simp only [SessionShared.execute, (hun rfl).1, Bool.false_eq_true, if_false]
    refine ((htake.stopAccepting hg).notify hg rfl).goto (.of_sending (fun _ => hg)
      (by simp [OutputFrame.locking]) ⟨rfl, rfl⟩) fun _ => ⟨fun _ => rfl, fun q hq failure hf => ?_⟩
    exact absurd hf ((hun rfl).2 q hq failure)

/-- Whoever is about to queue a frame finds no lifecycle notification before it. -/
theorem before (h : Consistent none s) (hpc : s.pc a = .reserved frame) :
    ∀ q ∈ s.sent, ∀ failure, q.frame ≠ .lifecycle failure := by
  intro q hq failure hf
  have hr := (h.knows a (by simp)).ready frame (Or.inr hpc)
  obtain ⟨hn, hfinal⟩ := h.failed q hq failure hf
  have hnot := (h.notified hn).1
  cases frame with
  | watch kind event => simp [hr.1] at hnot
  | registry => simp [show s.accepting = true from hr] at hnot
  | response =>
    obtain rfl : a = .session := hr
    simp [hpc] at hfinal
  | ack kind serial =>
    obtain rfl : a = .session := hr.1
    simp [hpc] at hfinal
  | lifecycle failure =>
    obtain rfl : a = .session := hr.1
    simp [hpc] at hfinal

theorem enqueue (h : Consistent none s) (hpc : s.pc a = .reserved frame) :
    Consistent none (s.enqueue a frame) := by
  have hk := h.knows a (by simp)
  rw [hpc] at hk
  have hr := hk.ready frame (Or.inr rfl)
  have hbefore := h.before hpc
  have hsend := (h.take a).send hr hbefore
  have hidle : (∀ failure, frame ≠ .lifecycle failure) → Consistent none
      ((({ s with sent := s.sent ++ [⟨frame, s.subscription⟩] } : SessionShared).release a).goto a
        .idle) := by
    intro hno
    refine hsend.release.goto_unnotified .idle fun ha => ⟨?_, fun q hq failure hf => ?_⟩
    · refine (h.unnotified ?_).1
      rw [← ha, hpc]
      cases frame <;> first | rfl | exact absurd rfl (hno _)
    · rcases List.mem_append.mp hq with hq | hq
      · exact hbefore q hq failure hf
      · obtain rfl := List.mem_singleton.mp hq
        exact hno failure hf
  cases frame with
  | lifecycle failure =>
    obtain ⟨rfl, hn⟩ := hr
    exact hsend.goto (.of_closing (hk.gate rfl)) fun _ => ⟨fun _ => rfl, fun _ _ _ _ => Or.inl rfl⟩
  | response => exact hidle (by simp)
  | ack kind serial => exact hidle (by simp)
  | watch kind event => exact hidle (by simp)
  | registry => exact hidle (by simp)

theorem sendFailed (h : Consistent none s) (hpc : s.pc a = .sending frame) :
    Consistent none (s.sendFailed a frame) := by
  have hk := h.knows a (by simp)
  rw [hpc] at hk
  have hclose := (h.take a).close
  have hstop : Consistent none
      ((({ s with closed := true } : SessionShared).release a).goto a .stopped) :=
    hclose.release.goto .stopped fun _ => ⟨fun _ => rfl, fun _ _ _ _ => Or.inr rfl⟩
  cases frame with
  | lifecycle failure =>
    obtain ⟨rfl, hn⟩ := hk.ready _ (Or.inl rfl)
    exact hclose.goto (.of_closing (hk.gate rfl)) fun _ => ⟨fun _ => rfl, fun _ _ _ _ => Or.inl rfl⟩
  | response => exact hstop
  | ack kind serial => exact hstop
  | watch kind event => exact hstop
  | registry => exact hstop

theorem reserve (h : Consistent none s) (hpc : s.pc a = .sending frame) :
    Consistent none (s.goto a (.reserved frame)) := by
  have hk := h.knows a (by simp)
  rw [hpc] at hk
  refine (h.take a).goto hk.reserve fun ha => ?_
  subst ha
  constructor
  · intro hn
    have := (h.notified hn).2 (by simp)
    rw [hpc] at this
    cases frame <;> first | rfl | cases this
  · intro q hq failure hf
    have := (h.failed q hq failure hf).2 (by simp)
    simp [hpc] at this

theorem takeReply (h : Consistent none s) (reply : WatchKind × Nat) :
    Consistent none ({ s with replies := s.replies.erase reply } : SessionShared) :=
  { h with
    knows := fun b hb => ⟨(h.knows b hb).gate, (h.knows b hb).lock, (h.knows b hb).allowed,
      (h.knows b hb).ready, (h.knows b hb).closing⟩
    replied := fun kind serial hm => h.replied kind serial (List.mem_of_mem_erase hm) }

/-- A task leaves its program counter without touching anything else. -/
theorem advance (h : Consistent none s) (hk : s.Knows a pc)
    (hs : a = .session → Pc.final (s.pc .session) = false) :
    Consistent none (s.goto a pc) :=
  (h.take a).goto_unnotified hk fun ha => h.unnotified (hs ha)

end Consistent

theorem step_consistent {e : GateEvent} (h : Consistent none s) (ht : step s e = some t) :
    Consistent none t := by
  cases e with
  | bind =>
    simp only [step] at ht
    split at ht
    · next hok =>
      cases ht
      refine h.rebind (fun _ => rfl) fun b kind event hpc => ?_
      have hr := (h.knows b (by simp)).ready _ hpc
      obtain ⟨watch, hw, -⟩ := currentWatchMatches_eq_true.mp hr.2.1
      simp [subscription, hok.2.2.2] at hw
    · cases ht
  | activate =>
    simp only [step] at ht
    split at ht
    · cases ht
      exact h.activate
    · cases ht
  | start a task =>
    simp only [step] at ht
    split at ht
    · next hok =>
      cases ht
      exact h.advance (.of_gate hok.2) fun ha => by rw [← ha, hok.1]; rfl
    · cases ht
  | lock a =>
    simp only [step] at ht
    split at ht
    · next task hpc =>
      split at ht
      · next hg =>
        cases ht
        have hallowed := (h.knows a (by simp)).allowed task (Or.inl hpc)
        exact ((h.take a).lockGate hg).goto_unnotified (.of_state rfl hallowed)
          fun ha => h.unnotified (by rw [← ha, hpc]; rfl)
      · cases ht
    · cases ht
  | run a =>
    simp only [step] at ht
    split at ht
    · next task hpc =>
      split at ht
      · cases ht
        exact h.execute hpc
      · cases ht
    · cases ht
  | respond ack =>
    simp only [step] at ht
    split at ht
    · next hidle =>
      cases ack with
      | none =>
        cases ht
        exact h.advance (.of_sending (by simp [OutputFrame.gated]) (by simp [OutputFrame.locking])
          rfl) fun _ => by rw [hidle]; rfl
      | some reply =>
        dsimp only at ht
        split at ht
        · next hmem =>
          cases ht
          exact (h.takeReply reply).advance (.of_sending (by simp [OutputFrame.gated])
            (by simp [OutputFrame.locking]) ⟨rfl, h.replied reply.1 reply.2 hmem⟩)
            fun _ => by
              change Pc.final (s.pc .session) = false
              rw [hidle]
              rfl
        · cases ht
    · cases ht
  | reserve a =>
    simp only [step] at ht
    split at ht
    · next frame hpc =>
      split at ht
      · cases ht
      · cases ht
        exact h.reserve hpc
    · cases ht
  | enqueue a =>
    simp only [step] at ht
    split at ht
    · next frame hpc =>
      cases ht
      exact h.enqueue hpc
    · cases ht
  | sendFails a =>
    simp only [step] at ht
    split at ht
    · next frame hpc =>
      cases ht
      exact h.sendFailed hpc
    · cases ht
  | finish =>
    simp only [step] at ht
    split at ht
    · cases ht
      exact (h.take .session).close.release.goto .stopped
        fun _ => ⟨fun _ => rfl, fun _ _ _ _ => Or.inr rfl⟩
    · cases ht
  | leave =>
    simp only [step] at ht
    split at ht
    · cases ht
      exact (h.take .session).close.goto .stopped
        fun _ => ⟨fun _ => rfl, fun _ _ _ _ => Or.inr rfl⟩
    · cases ht
  | deregister =>
    simp only [step] at ht
    split at ht
    · next hok =>
      cases ht
      refine h.rebind (fun _ => rfl) fun b kind event hpc => ?_
      have hl : s.stateLock = some b := (h.knows b (by simp)).lock (by
        rcases hpc with hpc | hpc <;> rw [hpc] <;> rfl)
      rw [hok.2] at hl
      cases hl
    · cases ht
  | close =>
    cases ht
    exact h.close

theorem init_consistent : Consistent none init where
  knows _ _ := .idle
  serials _ _ h := by cases h
  subscribed _ _ h := by cases h
  replied _ _ h := by cases h
  acknowledged _ h := by cases h
  generations _ := ⟨rfl, fun _ _ h => by cases h⟩
  notified h := by cases h
  failed _ h := by cases h
  suspended := by simp [init]
  current _ h := by cases h
  ordered _ := List.Pairwise.nil
  quiet _ h := by cases h
  last := List.Pairwise.nil

/-- What the gate promises about the output queue. -/
structure Isolated (s : SessionShared) : Prop where
  current : ∀ q ∈ s.sent, ∀ kind event, q.frame = .watch kind event →
    ∃ watch, q.subscriptions kind = some watch ∧ watch.generation = event.generation ∧
      watch.requestId = event.requestId
  ordered : s.installations < 2 ^ 64 → s.sent.Pairwise fun p q => ∀ kind serial event,
    p.frame = .ack kind serial → q.frame = .watch kind event → serial ≤ event.serial
  suspended : s.accepting = false → ∃ n, s.suspendedAt = some n ∧
    ∀ q ∈ s.sent.drop n, q.frame.isEvent = false
  last : s.sent.Pairwise fun p _ => ∀ failure, p.frame ≠ .lifecycle failure

end SessionShared

end Chahua.Rpc

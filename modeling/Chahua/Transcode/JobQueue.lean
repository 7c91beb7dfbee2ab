import Chahua.Framework.Progress
import Chahua.Framework.Table

namespace Chahua.Transcode

open Framework

def CHANNEL_BUFFER : Nat := 64

/-- How far a call of `enqueue` has come. -/
inductive CallStage where
  | fresh
  | unscheduled
  | free
  | scheduled
  | full
  deriving DecidableEq, Repr

structure EnqueueCall where
  messageId : Int
  stage : CallStage
  deriving DecidableEq, Repr

/-- The call has put its message into `scheduled` and not handed it on. -/
def EnqueueCall.owns (c : EnqueueCall) : Bool :=
  match c.stage with
  | .scheduled => true
  | .full => true
  | _ => false

/-- The worker between two of its steps; `finishing` and `clearing` hold the lock on
`processing`. -/
inductive Worker where
  | idle
  | received (messageId : Int)
  | running (messageId : Int)
  | finishing (messageId : Int)
  | panicked
  | clearing (messageId : Int)
  deriving DecidableEq, Repr

def Worker.locks : Worker → Bool
  | .finishing _ => true
  | .clearing _ => true
  | _ => false

/-- `AudioTranscodeService` with its calls and its worker, and what was queued and started. -/
structure Service where
  channel : List Int
  scheduled : Finset Int
  processing : Option Int
  calls : Table Nat EnqueueCall
  worker : Worker
  queued : List Int
  started : List Int

inductive Event where
  | enqueue (k : Nat) (messageId : Int)
  | advance (k : Nat)
  | recv
  | startProcessing
  | finishProcessing
  | panic
  | clearProcessing
  | unschedule
  deriving DecidableEq, Repr

namespace Service

variable (s : Service)

def endCall (k : Nat) : Service := { s with calls := s.calls.erase k }

def moveCall (k : Nat) (c : EnqueueCall) (stage : CallStage) : Service :=
  { s with calls := s.calls.upsert k { c with stage := stage } }

/-- The next step of a call: the checks and the insertion of `try_schedule`, `try_send`, and what a
full channel undoes. -/
def advanceCall (k : Nat) (c : EnqueueCall) : Option Service :=
  match c.stage with
  | .fresh =>
      if c.messageId ∈ s.scheduled then some (s.endCall k)
      else some (s.moveCall k c .unscheduled)
  | .unscheduled =>
      if s.worker.locks then none
      else if s.processing = some c.messageId then some (s.endCall k)
      else some (s.moveCall k c .free)
  | .free =>
      if c.messageId ∈ s.scheduled then some (s.endCall k)
      else some { s.moveCall k c .scheduled with scheduled := insert c.messageId s.scheduled }
  | .scheduled =>
      if s.channel.length < CHANNEL_BUFFER then
        some { s.endCall k with
          channel := s.channel ++ [c.messageId]
          queued := s.queued ++ [c.messageId] }
      else some (s.moveCall k c .full)
  | .full => some { s.endCall k with scheduled := s.scheduled.erase c.messageId }

def step (s : Service) : Event → Option Service
  | .enqueue k messageId =>
      if (s.calls.row k).isSome then none
      else some { s with calls := s.calls.upsert k ⟨messageId, .fresh⟩ }
  | .advance k => (s.calls.row k).bind fun c => s.advanceCall k c
  | .recv =>
      match s.worker, s.channel with
      | .idle, messageId :: rest =>
          some { s with worker := .received messageId, channel := rest }
      | _, _ => none
  | .startProcessing =>
      match s.worker with
      | .received messageId =>
          some { s with
            worker := .running messageId
            processing := some messageId
            started := s.started ++ [messageId] }
      | _ => none
  | .finishProcessing =>
      match s.worker with
      | .running messageId =>
          some { s with
            worker := .finishing messageId
            processing := if s.processing = some messageId then none else s.processing }
      | _ => none
  | .panic =>
      match s.worker with
      | .idle => some { s with worker := .panicked }
      | .running _ => some { s with worker := .panicked }
      | _ => none
  | .clearProcessing =>
      match s.worker, s.processing with
      | .panicked, some messageId =>
          some { s with worker := .clearing messageId, processing := none }
      | .panicked, none => some { s with worker := .idle }
      | _, _ => none
  | .unschedule =>
      match s.worker with
      | .finishing messageId =>
          some { s with worker := .idle, scheduled := s.scheduled.erase messageId }
      | .clearing messageId =>
          some { s with worker := .idle, scheduled := s.scheduled.erase messageId }
      | _ => none

def initial : Service := ⟨[], ∅, none, Table.empty, .idle, [], []⟩

/-- The message whose job the worker has. -/
def workerJob : Option Int :=
  match s.worker with
  | .idle => none
  | .received messageId => some messageId
  | .running messageId => some messageId
  | .finishing messageId => some messageId
  | .panicked => s.processing
  | .clearing messageId => some messageId

/-- A job that was taken and not started. -/
def received : List Int :=
  match s.worker with
  | .received messageId => [messageId]
  | _ => []

def callJobs (messageId : Int) : Nat :=
  (s.calls.select fun _ c => c.owns && decide (c.messageId = messageId)).card

/-- The jobs of a message: with a call, in the channel, or with the worker. -/
def jobs (messageId : Int) : Nat :=
  s.callJobs messageId + s.channel.count messageId +
    if s.workerJob = some messageId then 1 else 0

/-- What holds between any two steps. -/
structure Steady (s : Service) : Prop where
  jobs : ∀ messageId, s.jobs messageId = if messageId ∈ s.scheduled then 1 else 0
  running : ∀ messageId, s.worker = .running messageId → s.processing = some messageId
  processing : ∀ messageId, s.processing = some messageId →
    s.worker = .running messageId ∨ s.worker = .panicked
  room : s.channel.length ≤ CHANNEL_BUFFER
  order : s.queued = s.started ++ s.received ++ s.channel

variable {s}

theorem callJobs_endCall {k : Nat} {c : EnqueueCall} (hc : s.calls.row k = some c)
    (messageId : Int) :
    (s.endCall k).callJobs messageId +
      (if (c.owns && decide (c.messageId = messageId)) = true then 1 else 0) =
        s.callJobs messageId := Table.card_select_erase hc

theorem callJobs_moveCall {k : Nat} {c : EnqueueCall} (hc : s.calls.row k = some c)
    (stage : CallStage) (messageId : Int) :
    (s.moveCall k c stage).callJobs messageId +
      (if (c.owns && decide (c.messageId = messageId)) = true then 1 else 0) =
        s.callJobs messageId + if (({ c with stage := stage } : EnqueueCall).owns &&
          decide (c.messageId = messageId)) = true then 1 else 0 := Table.card_select_replace hc

/-- A call that owns no job ends or moves on without one. -/
theorem Steady.calls {t : Service} (h : s.Steady)
    (hjobs : ∀ messageId, t.callJobs messageId = s.callJobs messageId)
    (hcalls : t = { s with calls := t.calls }) : t.Steady := by
  rw [hcalls]
  refine ⟨fun messageId => ?_, h.running, h.processing, h.room, h.order⟩
  have hj := hjobs messageId
  rw [hcalls] at hj
  have hold := h.jobs messageId
  unfold Service.jobs at hold ⊢
  rw [hj]
  exact hold

theorem Steady.advanceCall {t : Service} {k : Nat} {c : EnqueueCall} (h : s.Steady)
    (hc : s.calls.row k = some c) (hstep : s.advanceCall k c = some t) : t.Steady := by
  obtain ⟨messageId, stage⟩ := c
  have hend := callJobs_endCall hc
  have hmove := callJobs_moveCall hc
  cases stage with
  | fresh =>
    simp only [Service.advanceCall] at hstep
    split at hstep
    · cases hstep
      exact h.calls (fun m => by simpa [EnqueueCall.owns] using hend m) rfl
    · cases hstep
      exact h.calls (fun m => by simpa [EnqueueCall.owns] using hmove .unscheduled m) rfl
  | unscheduled =>
    simp only [Service.advanceCall] at hstep
    split at hstep
    · cases hstep
    · split at hstep
      · cases hstep
        exact h.calls (fun m => by simpa [EnqueueCall.owns] using hend m) rfl
      · cases hstep
        exact h.calls (fun m => by simpa [EnqueueCall.owns] using hmove .free m) rfl
  | free =>
    simp only [Service.advanceCall] at hstep
    split at hstep
    · cases hstep
      exact h.calls (fun m => by simpa [EnqueueCall.owns] using hend m) rfl
    · next hfree =>
      cases hstep
      refine ⟨fun m => ?_, h.running, h.processing, h.room, h.order⟩
      have hold := h.jobs m
      have hnew := hmove .scheduled m
      simp only [EnqueueCall.owns, Bool.false_and, Bool.true_and, decide_eq_true_eq,
        Bool.false_eq_true, if_false, Nat.add_zero] at hnew
      change (s.moveCall k ⟨messageId, .free⟩ .scheduled).callJobs m + _ + _ = _
      change s.callJobs m + s.channel.count m + (if s.workerJob = some m then 1 else 0) = _ at hold
      change _ + s.channel.count m + (if s.workerJob = some m then 1 else 0) = _
      rw [hnew]
      by_cases hm : messageId = m
      · subst hm
        rw [if_neg hfree] at hold
        simp only [Finset.mem_insert_self, if_true]
        omega
      · rw [if_neg hm]
        have hmem : m ∈ insert messageId s.scheduled ↔ m ∈ s.scheduled := by
          simp [Ne.symm hm]
        simp only [hmem]
        omega
  | scheduled =>
    simp only [Service.advanceCall] at hstep
    split at hstep
    · next hroom =>
      cases hstep
      refine ⟨fun m => ?_, h.running, h.processing, ?_, ?_⟩
      · have hold := h.jobs m
        have hnew := hend m
        simp only [EnqueueCall.owns, Bool.true_and, decide_eq_true_eq] at hnew
        change s.callJobs m + s.channel.count m +
          (if s.workerJob = some m then 1 else 0) = _ at hold
        change (s.endCall k).callJobs m + (s.channel ++ [messageId]).count m +
          (if s.workerJob = some m then 1 else 0) = _
        rw [List.count_append, List.count_singleton]
        simp only [beq_iff_eq]
        refine Eq.trans ?_ hold
        omega
      · simp only [List.length_append, List.length_singleton]
        omega
      · change s.queued ++ [messageId] = s.started ++ s.received ++ (s.channel ++ [messageId])
        rw [h.order, List.append_assoc]
    · cases hstep
      exact h.calls (fun m => by simpa [EnqueueCall.owns] using hmove .full m) rfl
  | full =>
    cases hstep
    refine ⟨fun m => ?_, h.running, h.processing, h.room, h.order⟩
    have hold := h.jobs m
    have hnew := hend m
    simp only [EnqueueCall.owns, Bool.true_and, decide_eq_true_eq] at hnew
    change s.callJobs m + s.channel.count m + (if s.workerJob = some m then 1 else 0) = _ at hold
    change (s.endCall k).callJobs m + s.channel.count m +
      (if s.workerJob = some m then 1 else 0) = _
    by_cases hm : messageId = m
    · subst hm
      simp only [Finset.notMem_erase, if_false]
      rw [if_pos rfl] at hnew
      have hone : (if messageId ∈ s.scheduled then 1 else 0) ≤ 1 := by split <;> omega
      omega
    · rw [if_neg hm] at hnew
      have hmem : m ∈ s.scheduled.erase messageId ↔ m ∈ s.scheduled := by
        simp [Ne.symm hm]
      simp only [hmem]
      omega

theorem Steady.processing_eq_none (h : s.Steady)
    (hrunning : ∀ messageId, s.worker ≠ .running messageId) (hpanicked : s.worker ≠ .panicked) :
    s.processing = none := by
  cases hp : s.processing with
  | none => rfl
  | some messageId =>
    obtain hw | hw := h.processing messageId hp
    · exact absurd hw (hrunning messageId)
    · exact absurd hw hpanicked

/-- A step of the worker that leaves the calls, the channel and `scheduled` as they are. -/
theorem Steady.worker {worker : Worker} {processing : Option Int} {started : List Int}
    (h : s.Steady)
    (hjob : ({ s with worker := worker, processing := processing } : Service).workerJob =
      s.workerJob)
    (hrunning : ∀ messageId, worker = .running messageId → processing = some messageId)
    (hprocessing : ∀ messageId, processing = some messageId →
      worker = .running messageId ∨ worker = .panicked)
    (horder : s.started ++ s.received =
      started ++ ({ s with worker := worker } : Service).received) :
    Steady { s with worker := worker, processing := processing, started := started } := by
  refine ⟨fun m => ?_, hrunning, hprocessing, h.room, ?_⟩
  · have hold := h.jobs m
    unfold Service.jobs at hold
    rw [← hjob] at hold
    exact hold
  · rw [h.order, horder]
    rfl

theorem Steady.unschedule {messageId : Int} (h : s.Steady)
    (hworker : s.worker = .finishing messageId ∨ s.worker = .clearing messageId) :
    Steady { s with worker := .idle, scheduled := s.scheduled.erase messageId } := by
  have hjob : s.workerJob = some messageId := by
    obtain hw | hw := hworker <;> simp [workerJob, hw]
  have hreceived : s.received = [] := by
    obtain hw | hw := hworker <;> simp [received, hw]
  have hidle : s.processing = none := by
    obtain hw | hw := hworker
    · exact h.processing_eq_none (by simp [hw]) (by simp [hw])
    · exact h.processing_eq_none (by simp [hw]) (by simp [hw])
  refine ⟨fun m => ?_, nofun, ?_, h.room, ?_⟩
  · have hold := h.jobs m
    unfold Service.jobs at hold
    rw [hjob] at hold
    change s.callJobs m + s.channel.count m + (if (none : Option Int) = some m then 1 else 0) = _
    by_cases hm : messageId = m
    · subst hm
      have hone : (if messageId ∈ s.scheduled then 1 else 0) ≤ 1 := by split <;> omega
      simp only [if_true] at hold
      simp only [Finset.notMem_erase, if_false, reduceCtorEq]
      omega
    · have hmem : m ∈ s.scheduled.erase messageId ↔ m ∈ s.scheduled := by simp [Ne.symm hm]
      have hsome : (some messageId = some m) ↔ False := by simp [hm]
      simp only [hsome, if_false] at hold
      simp only [hmem, reduceCtorEq, if_false]
      exact hold
  · intro m hp
    rw [hidle] at hp
    cases hp
  · have horder := h.order
    rw [hreceived] at horder
    exact horder

theorem steady_step (s : Service) (e : Event) (t : Service) (h : s.Steady)
    (hstep : s.step e = some t) : t.Steady := by
  cases e with
  | enqueue k messageId =>
    simp only [step] at hstep
    split at hstep
    · cases hstep
    · next hnone =>
      cases hstep
      refine h.calls (fun m => ?_) rfl
      have hnew := @Table.card_select_upsert _ _ _ s.calls
        (fun _ c => c.owns && decide (c.messageId = m)) k ⟨messageId, .fresh⟩
        (by simpa using hnone)
      refine hnew.trans ?_
      simp [EnqueueCall.owns, callJobs]
  | advance k =>
    obtain ⟨c, hc, hadvance⟩ := Option.bind_eq_some_iff.mp hstep
    exact h.advanceCall hc hadvance
  | recv =>
    simp only [step] at hstep
    split at hstep
    · next messageId rest hworker hchannel =>
      cases hstep
      have hidle := h.processing_eq_none (by simp [hworker]) (by simp [hworker])
      refine ⟨fun m => ?_, nofun, ?_, ?_, ?_⟩
      · have hold := h.jobs m
        simp only [Service.jobs, workerJob, hworker, hchannel, List.count_cons] at hold
        simp only [Service.jobs, workerJob, Option.some.injEq]
        refine Eq.trans ?_ hold
        simp only [beq_iff_eq, reduceCtorEq, if_false, Nat.add_zero]
        exact Nat.add_assoc _ _ _
      · intro m hp
        rw [hidle] at hp
        cases hp
      · have hroom := h.room
        rw [hchannel] at hroom
        exact Nat.le_of_succ_le hroom
      · have horder := h.order
        simp only [received, hworker, hchannel, List.append_nil] at horder
        simp only [received, horder, List.append_assoc, List.singleton_append]
    · cases hstep
  | startProcessing =>
    simp only [step] at hstep
    split at hstep
    · next messageId hworker =>
      cases hstep
      refine h.worker (by simp [workerJob, hworker]) ?_ ?_ (by simp [received, hworker])
      · intro m hm
        cases hm
        rfl
      · intro m hm
        cases hm
        exact Or.inl rfl
    · cases hstep
  | finishProcessing =>
    simp only [step] at hstep
    split at hstep
    · next messageId hworker =>
      cases hstep
      rw [if_pos (h.running messageId hworker)]
      exact h.worker (by simp [workerJob, hworker]) nofun nofun (by simp [received, hworker])
    · cases hstep
  | panic =>
    simp only [step] at hstep
    split at hstep
    · next hworker =>
      cases hstep
      have hidle := h.processing_eq_none (by simp [hworker]) (by simp [hworker])
      exact h.worker (by simp [workerJob, hworker, hidle]) nofun (fun _ _ => Or.inr rfl)
        (by simp [received, hworker])
    · next messageId hworker =>
      cases hstep
      exact h.worker (by simp [workerJob, hworker, h.running messageId hworker]) nofun
        (fun _ _ => Or.inr rfl) (by simp [received, hworker])
    · cases hstep
  | clearProcessing =>
    simp only [step] at hstep
    split at hstep
    · next messageId hworker hprocessing =>
      cases hstep
      exact h.worker (by simp [workerJob, hworker, hprocessing]) nofun nofun
        (by simp [received, hworker])
    · next hworker hprocessing =>
      cases hstep
      exact h.worker (by simp [workerJob, hworker, hprocessing]) nofun
        (fun m hm => by rw [hprocessing] at hm; cases hm) (by simp [received, hworker])
    · cases hstep
  | unschedule =>
    simp only [step] at hstep
    split at hstep
    · next messageId hworker =>
      cases hstep
      exact h.unschedule (Or.inl hworker)
    · next messageId hworker =>
      cases hstep
      exact h.unschedule (Or.inr hworker)
    · cases hstep

theorem steady_initial : initial.Steady := by
  refine ⟨fun m => ?_, nofun, nofun, by decide, rfl⟩
  simp [initial, Service.jobs, callJobs, workerJob, Table.select]

/-- The steps of a worker that does not panic. -/
def Work : Event → Prop
  | .enqueue _ _ => False
  | .advance _ => False
  | .panic => False
  | _ => True

/-- The steps that are left until the worker is idle and the channel empty. -/
def left (s : Service) : Nat :=
  5 * s.channel.length +
    match s.worker with
    | .idle => 0
    | .received _ => 3
    | .running _ => 2
    | .finishing _ => 1
    | .panicked => 2
    | .clearing _ => 1

theorem exists_work (h : s.Steady) (hdone : ¬(s.worker = .idle ∧ s.channel = [])) :
    ∃ e t, Work e ∧ s.step e = some t ∧ (t.Steady ∧ t.calls = s.calls ∧ t.queued = s.queued) ∧
      t.left < s.left := by
  have hsteady : ∀ e t, s.step e = some t → t.Steady := fun e t => steady_step s e t h
  cases hworker : s.worker with
  | idle =>
    obtain ⟨messageId, rest, hchannel⟩ :=
      List.exists_cons_of_ne_nil fun hnil => hdone ⟨hworker, hnil⟩
    have hstep : s.step .recv =
        some { s with worker := .received messageId, channel := rest } := by
      simp [step, hworker, hchannel]
    refine ⟨.recv, _, trivial, hstep, ⟨hsteady _ _ hstep, rfl, rfl⟩, ?_⟩
    simp only [left, hworker, hchannel, List.length_cons]
    omega
  | received messageId =>
    have hstep : s.step .startProcessing = some { s with
        worker := .running messageId
        processing := some messageId
        started := s.started ++ [messageId] } := by simp [step, hworker]
    refine ⟨.startProcessing, _, trivial, hstep, ⟨hsteady _ _ hstep, rfl, rfl⟩, ?_⟩
    simp [left, hworker]
  | running messageId =>
    obtain ⟨t, hstep⟩ : ∃ t, s.step .finishProcessing = some t := by simp [step, hworker]
    refine ⟨.finishProcessing, t, trivial, hstep, ?_⟩
    have ht := hsteady _ _ hstep
    simp only [step, hworker, Option.some.injEq] at hstep
    subst hstep
    exact ⟨⟨ht, rfl, rfl⟩, by simp [left, hworker]⟩
  | finishing messageId =>
    have hstep : s.step .unschedule = some { s with
        worker := .idle, scheduled := s.scheduled.erase messageId } := by simp [step, hworker]
    refine ⟨.unschedule, _, trivial, hstep, ⟨hsteady _ _ hstep, rfl, rfl⟩, ?_⟩
    simp [left, hworker]
  | panicked =>
    cases hprocessing : s.processing with
    | none =>
      have hstep : s.step .clearProcessing = some { s with worker := .idle } := by
        simp [step, hworker, hprocessing]
      refine ⟨.clearProcessing, _, trivial, hstep, ⟨hsteady _ _ hstep, rfl, rfl⟩, ?_⟩
      simp [left, hworker]
    | some messageId =>
      have hstep : s.step .clearProcessing = some { s with
          worker := .clearing messageId, processing := none } := by
        simp [step, hworker, hprocessing]
      refine ⟨.clearProcessing, _, trivial, hstep, ⟨hsteady _ _ hstep, rfl, rfl⟩, ?_⟩
      simp [left, hworker]
  | clearing messageId =>
    have hstep : s.step .unschedule = some { s with
        worker := .idle, scheduled := s.scheduled.erase messageId } := by simp [step, hworker]
    refine ⟨.unschedule, _, trivial, hstep, ⟨hsteady _ _ hstep, rfl, rfl⟩, ?_⟩
    simp [left, hworker]

/-- The worker alone can start all that is queued. -/
theorem Steady.exists_drain (h : s.Steady) : ∃ work t, (∀ e ∈ work, Work e) ∧
    run step s work = some t ∧ (t.Steady ∧ t.calls = s.calls ∧ t.queued = s.queued) ∧
      t.worker = .idle ∧ t.channel = [] := by
  refine @exists_run_of_progress _ _ _ _ _ step
    (fun t => t.Steady ∧ t.calls = s.calls ∧ t.queued = s.queued)
    (fun t => (t.Steady ∧ t.calls = s.calls ∧ t.queued = s.queued) ∧
      t.worker = .idle ∧ t.channel = []) Work left ?_ s ⟨h, rfl, rfl⟩
  intro t ht hdone
  obtain ⟨e, u, hwork, hstep, ⟨hu, hcalls, hqueued⟩, hless⟩ :=
    exists_work ht.1 fun hend => hdone ⟨ht, hend⟩
  exact ⟨e, u, hwork, hstep, ⟨hu, hcalls.trans ht.2.1, hqueued.trans ht.2.2⟩, hless⟩

/-- A call that ends with nothing queued met a full channel, or a job of its message. -/
theorem Steady.turned_away {t : Service} {k : Nat} {c : EnqueueCall} (h : s.Steady)
    (hc : s.calls.row k = some c) (hstep : s.step (.advance k) = some t)
    (hended : t.calls.row k = none) (hqueued : t.queued = s.queued) :
    c.stage = .full ∨ s.jobs c.messageId = 1 := by
  simp only [step, hc, Option.bind_some] at hstep
  have hmoved : ∀ stage, (s.moveCall k c stage).calls.row k ≠ none := by
    intro stage
    simp [moveCall]
  obtain ⟨messageId, stage⟩ := c
  cases stage with
  | fresh =>
    simp only [Service.advanceCall] at hstep
    split at hstep
    · next hmem => exact Or.inr ((h.jobs messageId).trans (if_pos hmem))
    · cases hstep
      exact absurd hended (hmoved .unscheduled)
  | unscheduled =>
    simp only [Service.advanceCall] at hstep
    split at hstep
    · cases hstep
    · split at hstep
      · next hprocessing =>
        have hjob : s.workerJob = some messageId := by
          obtain hw | hw := h.processing messageId hprocessing <;> simp [workerJob, hw, hprocessing]
        have hjobs := h.jobs messageId
        have hone : (if messageId ∈ s.scheduled then 1 else 0) ≤ 1 := by split <;> omega
        right
        change s.jobs messageId = 1
        have hunfold : s.jobs messageId =
            s.callJobs messageId + s.channel.count messageId + 1 := by
          rw [Service.jobs, hjob, if_pos rfl]
        omega
      · cases hstep
        exact absurd hended (hmoved .free)
  | free =>
    simp only [Service.advanceCall] at hstep
    split at hstep
    · next hmem => exact Or.inr ((h.jobs messageId).trans (if_pos hmem))
    · cases hstep
      exact absurd hended (hmoved .scheduled)
  | scheduled =>
    simp only [Service.advanceCall] at hstep
    split at hstep
    · cases hstep
      simp at hqueued
    · cases hstep
      exact absurd hended (hmoved .full)
  | full => exact Or.inl rfl

end Service

/-- However calls, the worker and its panics interleave, a message is in `scheduled` exactly while
it has a job, and it has one job at most; the jobs are started in the order they were queued, each
once; a call that queues nothing met a full channel or the job of its message; and from any state
the worker alone starts all that is queued, after which only calls in flight keep a message
scheduled. -/
theorem audio_jobs_start_once {es : List Event} {s : Service}
    (hrun : run Service.step Service.initial es = some s) :
    (∀ messageId, s.jobs messageId = if messageId ∈ s.scheduled then 1 else 0) ∧
    s.queued = s.started ++ s.received ++ s.channel ∧ s.channel.length ≤ CHANNEL_BUFFER ∧
    (∀ k c t, s.calls.row k = some c → s.step (.advance k) = some t → t.calls.row k = none →
      t.queued = s.queued → c.stage = .full ∨ s.jobs c.messageId = 1) ∧
    ∃ work t, (∀ e ∈ work, Service.Work e) ∧ run Service.step s work = some t ∧
      t.started = s.queued ∧ t.processing = none ∧
      ∀ messageId ∈ t.scheduled, ∃ k c, s.calls.row k = some c ∧ c.messageId = messageId := by
  have h := run_invariant Service.steady_step Service.steady_initial hrun
  refine ⟨h.jobs, h.order, h.room, fun k c t hc => h.turned_away hc, ?_⟩
  obtain ⟨work, t, hwork, hdrain, ⟨ht, hcalls, hqueued⟩, hworker, hchannel⟩ := h.exists_drain
  refine ⟨work, t, hwork, hdrain, ?_, ?_, ?_⟩
  · have horder := ht.order
    simp only [Service.received, hworker, hchannel, List.append_nil] at horder
    exact horder.symm.trans hqueued
  · exact ht.processing_eq_none (by simp [hworker]) (by simp [hworker])
  · intro messageId hmem
    have hjobs := (ht.jobs messageId).trans (if_pos hmem)
    simp only [Service.jobs, Service.workerJob, hworker, hchannel, List.count_nil, reduceCtorEq,
      if_false, Nat.add_zero] at hjobs
    obtain ⟨k, hk⟩ := Finset.card_pos.mp (hjobs ▸ Nat.one_pos)
    obtain ⟨c, hc, howns⟩ := Table.mem_select.mp hk
    exact ⟨k, c, hcalls ▸ hc, of_decide_eq_true (Bool.and_eq_true_iff.mp howns).2⟩

/-- A message is offered twice while its job runs, and once more after the job panicked. -/
def offeredAgain : List Event :=
  [.enqueue 0 7, .advance 0, .advance 0, .advance 0, .advance 0, .recv, .enqueue 1 7,
    .startProcessing, .advance 1, .panic, .clearProcessing, .unschedule, .enqueue 2 7, .advance 2,
    .advance 2, .advance 2, .advance 2]

theorem offeredAgain_starts_once : ∃ s : Service,
    run Service.step Service.initial offeredAgain = some s ∧ s.queued = [7, 7] ∧
    s.started = [7] ∧
    (∀ messageId, s.jobs messageId = if messageId ∈ s.scheduled then 1 else 0) ∧
    ∃ work t, (∀ e ∈ work, Service.Work e) ∧ run Service.step s work = some t ∧
      t.started = s.queued ∧ t.processing = none ∧
      ∀ messageId ∈ t.scheduled, ∃ k c, s.calls.row k = some c ∧ c.messageId = messageId := by
  have hend : ((run Service.step Service.initial offeredAgain).map fun s =>
      (s.queued, s.started)) = some ([7, 7], [7]) := by decide +kernel
  obtain ⟨s, hrun, heq⟩ := Option.map_eq_some_iff.mp hend
  have hboth := Prod.mk.inj heq
  have h := audio_jobs_start_once hrun
  exact ⟨s, hrun, hboth.1, hboth.2, h.1, h.2.2.2.2⟩

end Chahua.Transcode

import Chahua.Framework.Run
import Chahua.Messages.DeletionSteps
import Mathlib

namespace Chahua.Messages

open Framework

inductive CleanupPhase where
  | batching | reconciling | done | failed
  deriving DecidableEq, Repr

/-- A cleanup between two transactions. `impact` is only kept in memory; `committed` is what the
batches left, and `times` when they ran. -/
structure CleanupJob where
  db : Database
  impact : DeletionImpact
  phase : CleanupPhase
  committed : Database
  times : List Int

/-- The transactions of the job; a step of the database may fail in each of them. -/
inductive CleanupEvent where
  | batch (now : Int) (fails : Bool)
  | reconcile (fails : Bool)
  deriving DecidableEq, Repr

namespace CleanupJob

def start (db : Database) : CleanupJob := ⟨db, .empty, .batching, db, []⟩

/-- The loop ends with the reconciliation of what was deleted, if anything was. -/
def afterLoop (impact : DeletionImpact) : CleanupPhase :=
  if impact.messageIds = [] then .done else .reconciling

def runBatch (s : CleanupJob) (chatId targetUid : Int) (scope : DeleteScope) (now : Int) :
    CleanupJob :=
  match s.db.bulkDeleteBatch now chatId targetUid scope with
  | .error _ => { s with phase := .failed }
  | .ok (db, batch) =>
      if batch.messageIds.length = 0 then
        { s with
          db := db
          committed := db
          times := s.times ++ [now]
          phase := afterLoop s.impact }
      else
        { db := db
          impact := s.impact.merge batch
          committed := db
          times := s.times ++ [now]
          phase :=
            if batch.messageIds.length < BATCH_SIZE then afterLoop (s.impact.merge batch)
            else .batching }

def runReconcile (s : CleanupJob) (chatId : Int) : CleanupJob :=
  match s.db.reconcileDeletions chatId s.impact with
  | .error _ => { s with phase := .failed }
  | .ok db => { s with db := db, phase := .done }

def step (chatId targetUid : Int) (scope : DeleteScope) (s : CleanupJob) :
    CleanupEvent → Option CleanupJob
  | .batch now fails =>
      if s.phase ≠ .batching then none
      else if fails then some { s with phase := .failed }
      else some (s.runBatch chatId targetUid scope now)
  | .reconcile fails =>
      if s.phase ≠ .reconciling then none
      else if fails then some { s with phase := .failed }
      else some (s.runReconcile chatId)

def Ended (s : CleanupJob) : Prop := s.phase = .done ∨ s.phase = .failed

/-- The bookkeeping is what reconciling the committed deletions leaves. -/
def Reconciled (chatId : Int) (s : CleanupJob) : Prop :=
  s.impact.messageIds = [] ∧ s.db = s.committed ∨
    s.committed.reconcileDeletions chatId s.impact = .ok s.db

/-- A step that fails the job. -/
def Fails (chatId targetUid : Int) (scope : DeleteScope) (s : CleanupJob) (e : CleanupEvent) :
    Prop :=
  ∃ t, step chatId targetUid scope s e = some t ∧ t.phase = .failed

/-- No step fails once a batch has deleted messages. -/
def FailsEarly (chatId targetUid : Int) (scope : DeleteScope) (s : CleanupJob)
    (e : CleanupEvent) : Prop :=
  Fails chatId targetUid scope s e → s.impact.messageIds = []

def Succeeds (chatId targetUid : Int) (scope : DeleteScope) (s : CleanupJob) (e : CleanupEvent) :
    Prop :=
  ¬Fails chatId targetUid scope s e

end CleanupJob

/-- What a batch at some time takes: the member's messages of the chat that are in scope. -/
def InScope (db : Database) (now chatId targetUid : Int) (scope : DeleteScope) (id : Int) : Prop :=
  ∃ m, db.messages.row id = some m ∧ m.chatId = chatId ∧ m.senderUid = targetUid ∧
    m.messageType ≠ .system ∧ m.deletedAt = none ∧ (scope = .all ∨ now - DAY ≤ m.createdAt)

/-- Two impacts that hold the same ids. -/
structure SameImpact (a b : DeletionImpact) : Prop where
  messageIds : ∀ id, id ∈ a.messageIds ↔ id ∈ b.messageIds
  threadRootIds : a.threadRootIds = b.threadRootIds
  replyRoots : a.replyIds.keys = b.replyIds.keys
  replyIds : ∀ root id,
    id ∈ (a.replyIds.row root).getD [] ↔ id ∈ (b.replyIds.row root).getD []
  chatMessageIds : ∀ id, id ∈ a.chatMessageIds ↔ id ∈ b.chatMessageIds

theorem Describes.same {a b : DeletionImpact} {targets targets' : List DeletionTarget}
    (ha : Describes a targets) (hb : Describes b targets')
    (h : ∀ t root thread id, (t ∈ targets ∧ t.replyRootId = root ∧ t.hasThread = thread ∧
      t.id = id) → ∃ t' ∈ targets', t'.replyRootId = root ∧ t'.hasThread = thread ∧ t'.id = id)
    (h' : ∀ t root thread id, (t ∈ targets' ∧ t.replyRootId = root ∧ t.hasThread = thread ∧
      t.id = id) → ∃ t' ∈ targets, t'.replyRootId = root ∧ t'.hasThread = thread ∧ t'.id = id) :
    SameImpact a b := by
  have hiff : ∀ p : Option Int → Bool → Int → Prop,
      (∃ t ∈ targets, p t.replyRootId t.hasThread t.id) ↔
        ∃ t ∈ targets', p t.replyRootId t.hasThread t.id := by
    intro p
    constructor
    · intro ht
      obtain ⟨t, ht, hp⟩ := ht
      obtain ⟨t', ht', h1, h2, h3⟩ := h t _ _ _ ⟨ht, rfl, rfl, rfl⟩
      exact ⟨t', ht', by rw [h1, h2, h3]; exact hp⟩
    · intro ht
      obtain ⟨t, ht, hp⟩ := ht
      obtain ⟨t', ht', h1, h2, h3⟩ := h' t _ _ _ ⟨ht, rfl, rfl, rfl⟩
      exact ⟨t', ht', by rw [h1, h2, h3]; exact hp⟩
  refine ⟨?_, ?_, ?_, ?_, ?_⟩
  · intro id
    rw [ha.messageIds, hb.messageIds, List.mem_map, List.mem_map]
    exact hiff fun _ _ i => i = id
  · ext root
    rw [ha.threadRootIds, hb.threadRootIds]
    exact or_congr (hiff fun r _ _ => r = some root)
      (hiff fun r thread i => r = none ∧ thread = true ∧ i = root)
  · ext root
    rw [ha.replyRoots, hb.replyRoots]
    exact hiff fun r _ _ => r = some root
  · intro root id
    rw [ha.replyIds, hb.replyIds]
    exact hiff fun r _ i => r = some root ∧ i = id
  · intro id
    rw [ha.chatMessageIds, hb.chatMessageIds]
    exact hiff fun r _ i => r = none ∧ i = id

section bulkDeleteTargets

variable {db : Database} {now chatId targetUid : Int} {scope : DeleteScope}

theorem inScope_iff {id : Int} : id ∈ db.messages.select (fun _ m =>
    decide (m.chatId = chatId) && decide (m.senderUid = targetUid) &&
      decide (m.messageType ≠ .system) && m.deletedAt.isNone &&
      (decide (scope = .all) || decide (now - DAY ≤ m.createdAt))) ↔
    InScope db now chatId targetUid scope id := by
  simp [Table.mem_select, InScope, and_assoc]

/-- The ids of the targets are those of a batch, each once. -/
theorem bulkDeleteTargets_ids : (db.bulkDeleteTargets now chatId targetUid scope).map (·.id) =
    ascendingUpTo BATCH_SIZE (db.messages.select fun _ m =>
      decide (m.chatId = chatId) && decide (m.senderUid = targetUid) &&
        decide (m.messageType ≠ .system) && m.deletedAt.isNone &&
        (decide (scope = .all) || decide (now - DAY ≤ m.createdAt))) := by
  unfold Database.bulkDeleteTargets
  have hall : ∀ id ∈ ascendingUpTo BATCH_SIZE (db.messages.select fun _ m =>
      decide (m.chatId = chatId) && decide (m.senderUid = targetUid) &&
        decide (m.messageType ≠ .system) && m.deletedAt.isNone &&
        (decide (scope = .all) || decide (now - DAY ≤ m.createdAt))),
      (db.deletionTarget id).map (·.id) = some id := by
    intro id hid
    obtain ⟨m, hm, -⟩ := inScope_iff.mp (mem_of_mem_ascendingUpTo hid)
    simp [Database.deletionTarget, hm]
  rw [List.map_filterMap]
  calc (ascendingUpTo BATCH_SIZE _).filterMap (fun id => (db.deletionTarget id).map (·.id))
      = (ascendingUpTo BATCH_SIZE _).filterMap some := List.filterMap_congr hall
    _ = _ := List.filterMap_some

theorem length_ascendingUpTo (limit : Nat) (s : Finset Int) :
    (ascendingUpTo limit s).length = min limit s.card := by
  induction limit generalizing s with
  | zero => simp [ascendingUpTo]
  | succ limit ih =>
    simp only [ascendingUpTo]
    split
    · next j hj =>
      have hmem : j ∈ s := Finset.mem_of_min hj
      have hpos : 0 < s.card := Finset.card_pos.mpr ⟨j, hmem⟩
      rw [List.length_cons, ih, Finset.card_erase_of_mem hmem]
      omega
    · next hnone =>
      have hempty : s = ∅ := Finset.min_eq_top.mp hnone
      simp [hempty]

/-- The validation of a batch never fails: the selection leaves out system messages. -/
theorem bulkDeleteBatch_ok : ∃ db' batch,
    db.bulkDeleteBatch now chatId targetUid scope = .ok (db', batch) ∧
      SoftDeleted db db'
        ((db.bulkDeleteTargets now chatId targetUid scope).map (·.id)) ∧
      Describes batch (db.bulkDeleteTargets now chatId targetUid scope) := by
  have hvalid : ∀ targets : List DeletionTarget, (∀ t ∈ targets, t.messageType ≠ .system) →
      validateDeletable targets = .ok () := by
    intro targets ht
    induction targets with
    | nil => rfl
    | cons t targets ih =>
      simp only [validateDeletable, validateDeletableMessageType,
        if_neg (ht t List.mem_cons_self)]
      exact ih fun t' ht' => ht t' (List.mem_cons_of_mem _ ht')
  have htypes : ∀ t ∈ db.bulkDeleteTargets now chatId targetUid scope,
      t.messageType ≠ .system := by
    intro t ht
    obtain ⟨id, hid, htarget⟩ := List.mem_filterMap.mp ht
    obtain ⟨m, hm, -, -, htype, -⟩ := inScope_iff.mp (mem_of_mem_ascendingUpTo hid)
    simp only [Database.deletionTarget, hm, Option.map_some, Option.some.injEq] at htarget
    rw [← htarget]
    exact htype
  unfold Database.bulkDeleteBatch
  split
  · next hnil =>
    rw [hnil]
    exact ⟨_, _, rfl, softDeleted_refl db, describes_empty⟩
  · have hok : db.softDeleteBatch now (db.bulkDeleteTargets now chatId targetUid scope) =
        .ok (db.softDelete now ((db.bulkDeleteTargets now chatId targetUid scope).foldl
          DeletionImpact.add .empty).messageIds,
        (db.bulkDeleteTargets now chatId targetUid scope).foldl DeletionImpact.add .empty) := by
      simp only [Database.softDeleteBatch, hvalid _ htypes]
    obtain ⟨hsoft, hdescribes⟩ := softDeleteBatch_spec hok
    exact ⟨_, _, hok, hsoft, hdescribes⟩

end bulkDeleteTargets

theorem InScope.of_softDeleted {db db' : Database} {ids : List Int} {now chatId targetUid : Int}
    {scope : DeleteScope} {id : Int} (hs : SoftDeleted db db' ids)
    (h : InScope db' now chatId targetUid scope id) :
    InScope db now chatId targetUid scope id ∧ id ∉ ids := by
  obtain ⟨m', hm', hchat, huid, htype, hlive, hscope⟩ := h
  cases hm : db.messages.row id with
  | none =>
    obtain ⟨time, htime⟩ := hs.messages
    rw [htime id, hm] at hm'
    cases hm'
  | some m =>
    obtain ⟨deletedAt, hrow, hdeleted⟩ := hs.row hm
    obtain rfl := Option.some.inj (hrow.symm.trans hm')
    have hnone : deletedAt = none := hlive
    rw [hnone] at hdeleted
    simp only [Option.isSome_none, Bool.false_eq_true, false_iff, not_or,
      Option.not_isSome_iff_eq_none] at hdeleted
    exact ⟨⟨m, hm, hchat, huid, htype, hdeleted.2, hscope⟩, hdeleted.1⟩

theorem InScope.to_softDeleted {db db' : Database} {ids : List Int} {now chatId targetUid : Int}
    {scope : DeleteScope} {id : Int} (hs : SoftDeleted db db' ids) (hid : id ∉ ids)
    (h : InScope db now chatId targetUid scope id) :
    InScope db' now chatId targetUid scope id := by
  obtain ⟨m, hm, hchat, huid, htype, hlive, hscope⟩ := h
  obtain ⟨deletedAt, hrow, hdeleted⟩ := hs.row hm
  have hnone : deletedAt = none := by
    rw [← Option.not_isSome_iff_eq_none, hdeleted]
    simp [hid, hlive]
  exact ⟨_, hrow, hchat, huid, htype, hnone, hscope⟩

theorem InScope.all {db : Database} {now chatId targetUid : Int} {scope : DeleteScope} {id : Int}
    (h : InScope db now chatId targetUid scope id) : InScope db 0 chatId targetUid .all id := by
  obtain ⟨m, hm, hchat, huid, htype, hlive, -⟩ := h
  exact ⟨m, hm, hchat, huid, htype, hlive, .inl rfl⟩

namespace CleanupJob

variable {db : Database} {chatId targetUid : Int} {scope : DeleteScope} {s t : CleanupJob}

/-- What a step of the job can be: one that fails, a batch, or the reconciliation. -/
theorem step_cases {e : CleanupEvent} (he : step chatId targetUid scope s e = some t) :
    ((s.phase = .batching ∨ s.phase = .reconciling) ∧ t = { s with phase := .failed }) ∨
    (∃ now, s.phase = .batching ∧ t = s.runBatch chatId targetUid scope now) ∨
    (s.phase = .reconciling ∧ t = s.runReconcile chatId) := by
  cases e with
  | batch now fails =>
    simp only [step] at he
    split at he
    · cases he
    · next hphase =>
      have hphase : s.phase = .batching := not_not.mp hphase
      split at he
      · exact .inl ⟨.inl hphase, (Option.some.inj he).symm⟩
      · exact .inr (.inl ⟨now, hphase, (Option.some.inj he).symm⟩)
  | reconcile fails =>
    simp only [step] at he
    split at he
    · cases he
    · next hphase =>
      have hphase : s.phase = .reconciling := not_not.mp hphase
      split at he
      · exact .inl ⟨.inr hphase, (Option.some.inj he).symm⟩
      · exact .inr (.inr ⟨hphase, (Option.some.inj he).symm⟩)

theorem afterLoop_cases (impact : DeletionImpact) :
    (impact.messageIds = [] ∧ afterLoop impact = .done) ∨
      (impact.messageIds ≠ [] ∧ afterLoop impact = .reconciling) := by
  by_cases h : impact.messageIds = []
  · exact .inl ⟨h, if_pos h⟩
  · exact .inr ⟨h, if_neg h⟩

/-- What the batches deleted, and when each message was in scope. -/
def Batched (db : Database) (chatId targetUid : Int) (scope : DeleteScope) (s : CleanupJob) :
    Prop :=
  ∃ targets, Targets db chatId targets ∧ SoftDeleted db s.committed (targets.map (·.id)) ∧
    Describes s.impact targets ∧
    ∀ target ∈ targets, ∃ now ∈ s.times, InScope db now chatId targetUid scope target.id

/-- The last batch left nothing in scope. -/
def Exhausted (chatId targetUid : Int) (scope : DeleteScope) (s : CleanupJob) : Prop :=
  ∃ last, s.times.getLast? = some last ∧
    ∀ id, ¬InScope s.committed last chatId targetUid scope id

/-- What each phase is in; a job that failed early deleted nothing. -/
structure Inv (db : Database) (chatId targetUid : Int) (scope : DeleteScope) (s : CleanupJob) :
    Prop where
  batched : Batched db chatId targetUid scope s
  unreconciled : s.phase ≠ .done → s.db = s.committed
  exhausted : s.phase = .reconciling ∨ s.phase = .done → Exhausted chatId targetUid scope s
  nonempty : s.phase = .reconciling → s.impact.messageIds ≠ []
  done : s.phase = .done → Reconciled chatId s
  failed : s.phase = .failed → s.impact.messageIds = []

theorem inv_start (db : Database) : Inv db chatId targetUid scope (start db) where
  batched := ⟨[], by simp [Targets], softDeleted_refl db, describes_empty, by simp⟩
  unreconciled _ := rfl
  exhausted h := by obtain h | h := h <;> cases h
  nonempty h := by cases h
  done h := by cases h
  failed h := by cases h

/-- A batch adds its targets to the deletion. -/
theorem batched_batch (h : Batched db chatId targetUid scope s) (hdb : s.db = s.committed)
    {next : Database} {batch : DeletionImpact} {now : Int}
    (hsoft : SoftDeleted s.db next
      ((s.db.bulkDeleteTargets now chatId targetUid scope).map (·.id)))
    (hdescribes : Describes batch (s.db.bulkDeleteTargets now chatId targetUid scope))
    (phase : CleanupPhase) :
    Batched db chatId targetUid scope
      ⟨next, s.impact.merge batch, phase, next, s.times ++ [now]⟩ := by
  obtain ⟨targets, hrows, hsoft', hdescribes', htimes⟩ := h
  rw [hdb] at hsoft hdescribes
  refine ⟨targets ++ s.committed.bulkDeleteTargets now chatId targetUid scope, ?_, ?_,
    hdescribes'.merge hdescribes, ?_⟩
  · intro target ht
    obtain ht | ht := List.mem_append.mp ht
    · exact hrows target ht
    · exact (bulkDeleteTargets_targets s.committed now chatId targetUid
        scope).of_softDeleted hsoft' target ht
  · rw [List.map_append]
    exact hsoft'.trans hsoft
  · intro target ht
    obtain ht | ht := List.mem_append.mp ht
    · obtain ⟨time, htime, hscope⟩ := htimes target ht
      exact ⟨time, List.mem_append_left _ htime, hscope⟩
    · refine ⟨now, by simp, ?_⟩
      have hid : target.id ∈
          (s.committed.bulkDeleteTargets now chatId targetUid scope).map (·.id) :=
        List.mem_map_of_mem ht
      rw [bulkDeleteTargets_ids] at hid
      exact (inScope_iff.mp (mem_of_mem_ascendingUpTo hid)).of_softDeleted hsoft' |>.1

/-- A batch with room left leaves nothing in scope. -/
theorem exhausted_batch {next : Database} {now : Int} (hsoft : SoftDeleted db next
      ((db.bulkDeleteTargets now chatId targetUid scope).map (·.id)))
    (hshort : (db.bulkDeleteTargets now chatId targetUid scope).length < BATCH_SIZE) (id : Int) :
    ¬InScope next now chatId targetUid scope id := by
  intro hid
  obtain ⟨hscope, hnot⟩ := hid.of_softDeleted hsoft
  refine hnot ?_
  rw [bulkDeleteTargets_ids]
  refine (mem_ascendingUpTo ?_).mpr (inScope_iff.mpr hscope)
  rw [← List.length_map (f := fun x : DeletionTarget => x.id), bulkDeleteTargets_ids,
    length_ascendingUpTo] at hshort
  omega

theorem merge_messageIds (a b : DeletionImpact) :
    (a.merge b).messageIds = a.messageIds ++ b.messageIds := rfl

theorem inv_batch (h : Inv db chatId targetUid scope s) (hphase : s.phase = .batching) (now : Int) :
    Inv db chatId targetUid scope (s.runBatch chatId targetUid scope now) ∧
      (s.runBatch chatId targetUid scope now).phase ≠ .failed := by
  have hdb : s.db = s.committed := h.unreconciled (by rw [hphase]; decide)
  obtain ⟨next, batch, hok, hsoft, hdescribes⟩ :=
    @bulkDeleteBatch_ok s.db now chatId targetUid scope
  have hlen : batch.messageIds.length =
      (s.db.bulkDeleteTargets now chatId targetUid scope).length := by
    rw [hdescribes.messageIds, List.length_map]
  simp only [runBatch, hok]
  split
  · next hzero =>
    have hnil : s.db.bulkDeleteTargets now chatId targetUid scope = [] :=
      List.length_eq_zero_iff.mp (hlen ▸ hzero)
    have hexhausted : ∀ id, ¬InScope next now chatId targetUid scope id :=
      exhausted_batch hsoft (by rw [hnil]; decide)
    have hbatched : Batched db chatId targetUid scope
        { s with
          db := next
          committed := next
          times := s.times ++ [now]
          phase := afterLoop s.impact } := by
      obtain ⟨targets, hrows, hsoft', hdescribes', htimes⟩ := h.batched
      rw [hnil, hdb] at hsoft
      refine ⟨targets, hrows, ?_, hdescribes', fun target ht => ?_⟩
      · have htrans := hsoft'.trans hsoft
        rwa [List.map_nil, List.append_nil] at htrans
      · obtain ⟨time, htime, hscope⟩ := htimes target ht
        exact ⟨time, List.mem_append_left _ htime, hscope⟩
    obtain ⟨hempty, hafter⟩ | ⟨hne, hafter⟩ := afterLoop_cases s.impact
    · rw [hafter] at hbatched ⊢
      refine ⟨⟨hbatched, fun _ => rfl, fun _ => ⟨now, by simp, hexhausted⟩, ?_,
        fun _ => .inl ⟨hempty, rfl⟩, fun _ => hempty⟩, CleanupPhase.noConfusion⟩
      intro hp
      cases hp
    · rw [hafter] at hbatched ⊢
      refine ⟨⟨hbatched, fun _ => rfl, fun _ => ⟨now, by simp, hexhausted⟩, fun _ => hne, ?_, ?_⟩,
        CleanupPhase.noConfusion⟩
      · intro hp
        cases hp
      · intro hp
        cases hp
  · next hpos =>
    have hne : (s.impact.merge batch).messageIds ≠ [] := by
      intro hnil
      rw [merge_messageIds, List.append_eq_nil_iff] at hnil
      rw [hnil.2] at hpos
      exact hpos rfl
    have hafter : afterLoop (s.impact.merge batch) = .reconciling := if_neg hne
    refine ⟨⟨batched_batch h.batched hdb hsoft hdescribes _, fun _ => rfl, ?_, fun _ => hne, ?_,
      ?_⟩, ?_⟩
    · intro hp
      simp only [hafter] at hp
      split at hp
      · next hshort => exact ⟨now, by simp, exhausted_batch hsoft (hlen ▸ hshort)⟩
      · obtain hp | hp := hp <;> cases hp
    · intro hp
      simp only [hafter] at hp
      split at hp <;> cases hp
    · intro hp
      simp only [hafter] at hp
      split at hp <;> cases hp
    · simp only [hafter]
      split <;> decide

theorem inv_step {e : CleanupEvent} (h : Inv db chatId targetUid scope s)
    (hearly : FailsEarly chatId targetUid scope s e)
    (he : step chatId targetUid scope s e = some t) : Inv db chatId targetUid scope t := by
  have hfail : t.phase = .failed → s.impact.messageIds = [] := fun hp => hearly ⟨t, he, hp⟩
  obtain ⟨hphase, rfl⟩ | ⟨now, hphase, rfl⟩ | ⟨hphase, rfl⟩ := step_cases he
  · have hdone : s.phase ≠ .done := by obtain hp | hp := hphase <;> rw [hp] <;> decide
    refine ⟨h.batched, fun _ => h.unreconciled hdone, ?_, ?_, ?_, hfail⟩
    · intro hp
      obtain hp | hp := hp <;> cases hp
    · intro hp
      cases hp
    · intro hp
      cases hp
  · exact (inv_batch h hphase now).1
  · have hne := h.nonempty hphase
    have hdb := h.unreconciled (by rw [hphase]; decide)
    unfold runReconcile at hfail ⊢
    split
    · next herror =>
      rw [herror] at hfail
      exact absurd (hfail rfl) hne
    · next next hok =>
      refine ⟨h.batched, fun hp => absurd rfl hp, fun _ => h.exhausted (.inl hphase), ?_, ?_, ?_⟩
      · intro hp
        cases hp
      · intro _
        rw [hdb] at hok
        exact .inr hok
      · intro hp
        cases hp

/-- What a batch may still take, whatever its time. -/
def remaining (db : Database) (chatId targetUid : Int) : Finset Int :=
  db.messages.select fun _ m => decide (m.chatId = chatId) && decide (m.senderUid = targetUid) &&
    decide (m.messageType ≠ .system) && m.deletedAt.isNone

/-- The steps a job can still take at most. -/
def work (chatId targetUid : Int) (s : CleanupJob) : Nat :=
  match s.phase with
  | .batching => (remaining s.db chatId targetUid).card + 2
  | .reconciling => 1
  | .done | .failed => 0

theorem mem_remaining {id : Int} : id ∈ remaining db chatId targetUid ↔
    InScope db 0 chatId targetUid .all id := by
  simp [remaining, Table.mem_select, InScope, and_assoc]

/-- A batch that takes something leaves less. -/
theorem card_remaining_lt {next : Database} {now : Int} (hsoft : SoftDeleted db next
      ((db.bulkDeleteTargets now chatId targetUid scope).map (·.id)))
    (hne : db.bulkDeleteTargets now chatId targetUid scope ≠ []) :
    (remaining next chatId targetUid).card < (remaining db chatId targetUid).card := by
  refine Finset.card_lt_card (Finset.ssubset_iff_subset_ne.mpr ⟨fun id hid => ?_, fun heq => ?_⟩)
  · exact mem_remaining.mpr ((mem_remaining.mp hid).of_softDeleted hsoft).1
  · obtain ⟨target, ht⟩ := List.exists_mem_of_ne_nil _ hne
    have hid : target.id ∈ (db.bulkDeleteTargets now chatId targetUid scope).map (·.id) :=
      List.mem_map_of_mem ht
    have hscope := hid
    rw [bulkDeleteTargets_ids] at hscope
    have hmem : target.id ∈ remaining db chatId targetUid :=
      mem_remaining.mpr (inScope_iff.mp (mem_of_mem_ascendingUpTo hscope)).all
    rw [← heq] at hmem
    exact ((mem_remaining.mp hmem).of_softDeleted hsoft).2 hid

theorem work_afterLoop (impact : DeletionImpact) (d c : Database) (i : DeletionImpact)
    (times : List Int) : work chatId targetUid ⟨d, i, afterLoop impact, c, times⟩ ≤ 1 := by
  unfold afterLoop
  split <;> simp [work]

theorem work_step {e : CleanupEvent} (he : step chatId targetUid scope s e = some t) :
    work chatId targetUid t < work chatId targetUid s := by
  have hbatching : s.phase = .batching →
      work chatId targetUid s = (remaining s.db chatId targetUid).card + 2 := by
    intro hphase
    simp [work, hphase]
  have hreconciling : s.phase = .reconciling → work chatId targetUid s = 1 := by
    intro hphase
    simp [work, hphase]
  obtain ⟨hphase, rfl⟩ | ⟨now, hphase, rfl⟩ | ⟨hphase, rfl⟩ := step_cases he
  · obtain hphase | hphase := hphase
    · rw [hbatching hphase]
      exact Nat.succ_pos _
    · rw [hreconciling hphase]
      exact Nat.one_pos
  · rw [hbatching hphase]
    obtain ⟨next, batch, hok, hsoft, hdescribes⟩ :=
      @bulkDeleteBatch_ok s.db now chatId targetUid scope
    simp only [runBatch, hok]
    split
    · have h := @work_afterLoop chatId targetUid s.impact next next s.impact (s.times ++ [now])
      omega
    · next hpos =>
      have hne : s.db.bulkDeleteTargets now chatId targetUid scope ≠ [] := by
        intro hnil
        rw [hdescribes.messageIds, hnil] at hpos
        exact hpos rfl
      have hlt := card_remaining_lt hsoft hne
      split
      · have h := @work_afterLoop chatId targetUid (s.impact.merge batch) next next
          (s.impact.merge batch) (s.times ++ [now])
        omega
      · simp only [work]
        omega
  · rw [hreconciling hphase]
    unfold runReconcile
    split <;> exact Nat.one_pos

theorem length_run_le {es : List CleanupEvent}
    (h : run (step chatId targetUid scope) s es = some t) :
    es.length ≤ work chatId targetUid s := by
  induction es generalizing s with
  | nil => exact Nat.zero_le _
  | cons e es ih =>
    obtain ⟨r, hr, ht⟩ := run_cons_eq_some.mp h
    have hlt := work_step hr
    have hle := ih ht
    rw [List.length_cons]
    omega

/-- A job that has not ended can take a step. -/
theorem step_of_not_ended (h : ¬s.Ended) :
    ∃ e, (step chatId targetUid scope s e).isSome = true := by
  unfold Ended at h
  cases hphase : s.phase with
  | batching => exact ⟨.batch 0 false, by simp [step, hphase]⟩
  | reconciling => exact ⟨.reconcile false, by simp [step, hphase]⟩
  | done => exact absurd (.inl hphase) h
  | failed => exact absurd (.inr hphase) h

/-- The messages that the committed batches deleted. -/
def Deleted (db : Database) (s : CleanupJob) (id : Int) : Prop :=
  ∃ m m', db.messages.row id = some m ∧ m.deletedAt = none ∧
    s.committed.messages.row id = some m' ∧ m'.deletedAt ≠ none

theorem deleted_iff {targets : List DeletionTarget}
    (hsoft : SoftDeleted db s.committed (targets.map (·.id)))
    (hscope : ∀ target ∈ targets, ∃ now ∈ s.times, InScope db now chatId targetUid scope target.id)
    {id : Int} : Deleted db s id ↔ id ∈ targets.map (·.id) := by
  constructor
  · intro h
    obtain ⟨m, m', hm, hlive, hm', hdeleted⟩ := h
    obtain ⟨deletedAt, hrow, hiff⟩ := hsoft.row hm
    obtain rfl := Option.some.inj (hrow.symm.trans hm')
    have hsome : deletedAt.isSome = true := Option.isSome_iff_ne_none.mpr hdeleted
    obtain hid | hd := hiff.mp hsome
    · exact hid
    · rw [hlive] at hd
      cases hd
  · intro h
    obtain ⟨target, ht, rfl⟩ := List.mem_map.mp h
    obtain ⟨now, -, m, hm, -, -, -, hlive, -⟩ := hscope target ht
    obtain ⟨deletedAt, hrow, hiff⟩ := hsoft.row hm
    exact ⟨m, _, hm, hlive, hrow, Option.isSome_iff_ne_none.mp (hiff.mpr (.inl h))⟩

/-- The impact of one batch over some messages, as they were loaded. -/
def singleBatch (db : Database) (ids : Finset Int) : DeletionImpact :=
  ((ascending ids).filterMap db.deletionTarget).foldl DeletionImpact.add .empty

/-- What the batches merged is what one batch over all of their messages gives. -/
theorem sameImpact_singleBatch {targets : List DeletionTarget} {impact : DeletionImpact}
    (hrows : Targets db chatId targets) (hdescribes : Describes impact targets) {ids : Finset Int}
    (hids : ∀ id, id ∈ ids ↔ id ∈ targets.map (·.id)) :
    SameImpact impact (singleBatch db ids) := by
  refine hdescribes.same (describes_foldl _) ?_ ?_
  · intro target root thread id h
    obtain ⟨ht, rfl, rfl, rfl⟩ := h
    obtain ⟨m, hm, -, hroot, hthread⟩ := hrows target ht
    have hmem : target.id ∈ ascending ids :=
      mem_ascending.mpr ((hids _).mpr (List.mem_map_of_mem ht))
    have htarget : ∃ t', db.deletionTarget target.id = some t' ∧
        t'.replyRootId = m.replyRootId ∧ t'.hasThread = m.hasThread ∧ t'.id = target.id := by
      simp [Database.deletionTarget, hm]
    obtain ⟨t', ht', h1, h2, h3⟩ := htarget
    exact ⟨t', List.mem_filterMap.mpr ⟨_, hmem, ht'⟩, h1.trans hroot, h2.trans hthread, h3⟩
  · intro t' root thread id h
    obtain ⟨ht', rfl, rfl, rfl⟩ := h
    obtain ⟨id, hid, htarget⟩ := List.mem_filterMap.mp ht'
    obtain ⟨target, ht, rfl⟩ := List.mem_map.mp ((hids id).mp (mem_ascending.mp hid))
    obtain ⟨m, hm, -, hroot, hthread⟩ := hrows target ht
    simp only [Database.deletionTarget, hm, Option.map_some, Option.some.injEq] at htarget
    subst htarget
    exact ⟨target, ht, hroot.symm, hthread.symm, rfl⟩

theorem inv_run {es : List CleanupEvent}
    (h : run (step chatId targetUid scope) (start db) es = some s)
    (hearly : Along (step chatId targetUid scope) (FailsEarly chatId targetUid scope)
      (start db) es) :
    Inv db chatId targetUid scope s :=
  run_invariant_along (fun _ _ _ hi hok he => inv_step hi hok he) (inv_start db) hearly h

/-- A job whose steps all succeed is not failed. -/
theorem not_failed_run {es : List CleanupEvent}
    (h : run (step chatId targetUid scope) (start db) es = some s)
    (hok : Along (step chatId targetUid scope) (Succeeds chatId targetUid scope) (start db) es) :
    s.phase ≠ .failed := by
  refine run_invariant_along (I := fun s : CleanupJob => s.phase ≠ .failed) ?_ ?_ hok h
  · intro s e t _ hsucceeds he hfailed
    exact hsucceeds ⟨t, he, hfailed⟩
  · simp [start]

/-- A member cleanup in which no step fails once a batch has deleted messages reconciles all it
deleted. It takes a bounded number of steps, and if none fails it deletes what is in scope, with
the impact of one batch over all of it. -/
theorem cleanup_reconciles {es : List CleanupEvent}
    (h : run (step chatId targetUid scope) (start db) es = some s)
    (hearly : Along (step chatId targetUid scope) (FailsEarly chatId targetUid scope)
      (start db) es) :
    (s.Ended → s.Reconciled chatId) ∧
    es.length ≤ (remaining db chatId targetUid).card + 2 ∧
    (¬s.Ended → ∃ e, (step chatId targetUid scope s e).isSome = true) ∧
    (Along (step chatId targetUid scope) (Succeeds chatId targetUid scope) (start db) es →
      s.Ended → ∃ last, s.times.getLast? = some last ∧
        (∀ id, InScope db last chatId targetUid scope id → Deleted db s id) ∧
        (∀ id, Deleted db s id → ∃ now ∈ s.times, InScope db now chatId targetUid scope id) ∧
        ∀ ids : Finset Int, (∀ id, id ∈ ids ↔ Deleted db s id) →
          SameImpact s.impact (singleBatch db ids)) := by
  have hinv := inv_run h hearly
  refine ⟨fun hend => ?_, length_run_le h, step_of_not_ended, fun hok hend => ?_⟩
  · obtain hdone | hfailed := hend
    · exact hinv.done hdone
    · exact .inl ⟨hinv.failed hfailed, hinv.unreconciled (by rw [hfailed]; decide)⟩
  · have hdone : s.phase = .done := hend.resolve_right (not_failed_run h hok)
    obtain ⟨targets, hrows, hsoft, hdescribes, hscope⟩ := hinv.batched
    obtain ⟨last, hlast, hnone⟩ := hinv.exhausted (.inr hdone)
    have hdeleted : ∀ id, Deleted db s id ↔ id ∈ targets.map (·.id) :=
      fun id => deleted_iff hsoft hscope
    refine ⟨last, hlast, fun id hid => ?_, fun id hid => ?_, fun ids hids => ?_⟩
    · rw [hdeleted]
      by_contra hnot
      exact hnone id (hid.to_softDeleted hsoft hnot)
    · obtain ⟨target, ht, rfl⟩ := List.mem_map.mp ((hdeleted id).mp hid)
      exact hscope target ht
    · exact sameImpact_singleBatch hrows hdescribes fun id => (hids id).trans (hdeleted id)

def spamMessage : Message where
  message := some "spam"
  messageType := .text
  replyToId := none
  replyRootId := none
  senderUid := 7
  chatId := 1
  createdAt := 100
  deletedAt := none
  hasThread := false
  isPublished := true
  transcodeStatus := .none
  systemKind := none

/-- The last message of the chat is the member's only one. -/
def spammedChat : Database where
  messages := .ofList [(10, spamMessage)]
  attachments := .empty
  messageMentions := .empty
  threadMeta := .empty
  threadUserStates := .empty
  groupMembership := .ofList [((1, 7), ⟨.member, none⟩)]
  groups := .ofList [(1, ⟨.group, .members, some 10, some 100⟩)]
  pinnedMessages := .empty

/-- The member also replied in another member's thread. -/
def spammedThread : Database := { spammedChat with
  messages := .ofList [(8, { spamMessage with senderUid := 5, hasThread := true }),
    (9, { spamMessage with replyRootId := some 8 }), (10, spamMessage)]
  threadMeta := .ofList [((1, 8), ⟨1, some 100⟩)]
  groupMembership := .ofList [((1, 5), ⟨.member, some 9⟩), ((1, 7), ⟨.member, none⟩)] }

/-- A batch and the reconciliation: the reply and the last message go, the thread is closed and the
chat names its root as the last message. -/
theorem cleanup_reconciles_thread :
    ∃ s, run (step 1 7 .all) (start spammedThread) [.batch 200 false, .reconcile false] = some s ∧
      s.impact.messageIds = [9, 10] ∧
      (s.db.groups.row 1).map Group.lastMessageId = some (some 8) ∧
      (s.db.messages.row 8).map Message.hasThread = some false ∧
      s.Reconciled 1 ∧ 2 ≤ (remaining spammedThread 1 7).card + 2 ∧
      (¬s.Ended → ∃ e, (step 1 7 .all s e).isSome = true) ∧
      ∃ last, s.times.getLast? = some last ∧
        (∀ id, InScope spammedThread last 1 7 .all id → Deleted spammedThread s id) ∧
        (∀ id, Deleted spammedThread s id →
          ∃ now ∈ s.times, InScope spammedThread now 1 7 .all id) ∧
        ∀ ids : Finset Int, (∀ id, id ∈ ids ↔ Deleted spammedThread s id) →
          SameImpact s.impact (singleBatch spammedThread ids) := by
  have hphase : ((step 1 7 .all (start spammedThread) (.batch 200 false)).map fun s =>
      s.phase) = some .reconciling := by decide +kernel
  obtain ⟨t, ht, htphase⟩ := Option.map_eq_some_iff.mp hphase
  have hresult : ((step 1 7 .all (start spammedThread) (.batch 200 false)).bind fun s =>
      (step 1 7 .all s (.reconcile false)).map fun s => (s.phase, s.impact.messageIds,
        (s.db.groups.row 1).map Group.lastMessageId, (s.db.messages.row 8).map Message.hasThread))
          = some (.done, [9, 10], some (some 8), some false) := by decide +kernel
  rw [ht, Option.bind_some] at hresult
  obtain ⟨s, hs, hvalue⟩ := Option.map_eq_some_iff.mp hresult
  obtain ⟨hdone, hids, hlast, hthread⟩ : s.phase = .done ∧ s.impact.messageIds = [9, 10] ∧
      (s.db.groups.row 1).map Group.lastMessageId = some (some 8) ∧
      (s.db.messages.row 8).map Message.hasThread = some false := by
    simpa only [Prod.mk.injEq] using hvalue
  have hrun : run (step 1 7 .all) (start spammedThread) [.batch 200 false, .reconcile false] =
      some s := by simp [run, ht, hs]
  have hbatch : ¬Fails 1 7 .all (start spammedThread) (.batch 200 false) := by
    intro hfails
    obtain ⟨t', ht', hfailed⟩ := hfails
    obtain rfl := Option.some.inj (ht.symm.trans ht')
    rw [htphase] at hfailed
    cases hfailed
  have hreconcile : ¬Fails 1 7 .all t (.reconcile false) := by
    intro hfails
    obtain ⟨s', hs', hfailed⟩ := hfails
    obtain rfl := Option.some.inj (hs.symm.trans hs')
    rw [hdone] at hfailed
    cases hfailed
  have hspec := cleanup_reconciles hrun
    (.cons ht (fun hfails => absurd hfails hbatch)
      (.cons hs (fun hfails => absurd hfails hreconcile) trivial))
  exact ⟨s, hrun, hids, hlast, hthread, hspec.1 (.inl hdone), hspec.2.1, hspec.2.2.1,
    hspec.2.2.2 (.cons ht hbatch (.cons hs hreconcile trivial)) (.inl hdone)⟩

/-- The batch is committed and the reconciliation fails: the chat still names the deleted message
as its last one. -/
theorem unreconciled_cleanup : ¬ ∀ (db : Database) (chatId targetUid : Int) (scope : DeleteScope)
    (es : List CleanupEvent) (s : CleanupJob),
      run (step chatId targetUid scope) (start db) es = some s → s.Ended → s.Reconciled chatId := by
  intro h
  obtain ⟨s, hs⟩ := Option.isSome_iff_exists.mp (rfl : (run (step 1 7 .all) (start spammedChat)
    [.batch 200 false, .reconcile true]).isSome = true)
  have hr := h spammedChat 1 7 .all _ s hs
  obtain rfl := Option.some.inj hs
  obtain hempty | hok := hr (.inr rfl)
  · exact absurd hempty.1 (by decide +kernel)
  · have hlast := congrArg (fun r : Except AppError Database =>
      r.toOption.map fun db => (db.groups.row 1).map Group.lastMessageId) hok
    revert hlast
    decide +kernel

end CleanupJob

end Chahua.Messages

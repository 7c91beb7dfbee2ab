import Chahua.Search.MessageSearch
import Chahua.Framework.Run

namespace Chahua.Search

open Framework

/-- A spawned index operation, with what it captured. -/
inductive IndexTask where
  | upsert (document : MessageSearchDocument)
  | delete (messageIds : List Int)
  deriving DecidableEq, Repr

def IndexTask.touches (id : Int) : IndexTask → Bool
  | .upsert document => decide (document.id = id)
  | .delete messageIds => decide (id ∈ messageIds)

def IndexTask.apply (index : Table Int MessageSearchDocument) :
    IndexTask → Table Int MessageSearchDocument
  | .upsert document => index.upsert document.id document
  | .delete messageIds => index.deleteWhere fun id _ => decide (id ∈ messageIds)

def upsertMessageBestEffort (message : Message) : List IndexTask :=
  match projectMessageDocument message with
  | some document => [.upsert document]
  | none => [.delete [message.id]]

def upsertResponseBestEffort (response : MessageResponse) : List IndexTask :=
  match projectMessageResponseDocument response with
  | some document => [.upsert document]
  | none => []

def deleteMessageIdsBestEffort (messageIds : List Int) : List IndexTask :=
  if messageIds = [] then [] else [.delete messageIds]

/-- The messages, the index and the tasks that were spawned and not applied, in the order of the
committed writes they are for. -/
structure SearchSystem where
  messages : Table Int Message
  index : Table Int MessageSearchDocument
  pending : List IndexTask

/-- Committed writes and applied tasks. A send in a thread indexes its response. -/
inductive SearchEvent where
  | send (id : Int) (message : Option String) (messageType : MessageType)
      (replyRootId : Option Int) (chatId createdAt : Int) (response : Bool)
  | edit (id : Int) (message : String) (now : Int)
  | delete (id now : Int)
  | bulkDelete (messageIds : List Int) (now : Int)
  | apply (task : Nat)
  deriving DecidableEq, Repr

/-- The row a send inserts: everything but audio is published at once. -/
def sentMessage (id : Int) (message : Option String) (messageType : MessageType)
    (replyRootId : Option Int) (chatId createdAt : Int) : Message where
  id := id
  message := message
  messageType := messageType
  replyRootId := replyRootId
  chatId := chatId
  createdAt := createdAt
  updatedAt := none
  deletedAt := none
  isPublished := decide (messageType ≠ .audio)

namespace SearchSystem

def empty : SearchSystem := ⟨Table.empty, Table.empty, []⟩

def sendMessage (s : SearchSystem) (message : Message) (response : Bool) : SearchSystem :=
  { s with
    messages := s.messages.upsert message.id message
    pending := s.pending ++
      if response then upsertResponseBestEffort message.response
      else upsertMessageBestEffort message }

def patchMessage (s : SearchSystem) (message : Message) : SearchSystem :=
  { s with
    messages := s.messages.upsert message.id message
    pending := s.pending ++ upsertMessageBestEffort message }

def deleteMessages (s : SearchSystem) (messageIds : List Int) (now : Int) : SearchSystem :=
  { s with
    messages := s.messages.updateWhere (fun id _ => decide (id ∈ messageIds)) fun _ message =>
      { message with deletedAt := some now }
    pending := s.pending ++ deleteMessageIdsBestEffort messageIds }

def step (s : SearchSystem) : SearchEvent → Option SearchSystem
  | .send id message messageType replyRootId chatId createdAt response =>
    if (s.messages.row id).isSome then none
    else some (s.sendMessage
      (sentMessage id message messageType replyRootId chatId createdAt) response)
  | .edit id message now =>
    match s.messages.row id with
    | none => none
    | some row =>
      if row.deletedAt.isSome ∨ ¬row.isPublished ∨ row.messageType ≠ .text then none
      else some (s.patchMessage { row with message := some message, updatedAt := some now })
  | .delete id now =>
    if (s.messages.row id).isSome then some (s.deleteMessages [id] now) else none
  | .bulkDelete messageIds now => some (s.deleteMessages messageIds now)
  | .apply task =>
    (s.pending[task]?).map fun next =>
      { s with index := next.apply s.index, pending := s.pending.eraseIdx task }

/-- The rows that the search loads for its candidates. -/
def loadRows (s : SearchSystem) (candidates : List SearchHitCandidate) : List Message :=
  (candidates.map SearchHitCandidate.messageId).dedup.filterMap s.messages.row

/-- A task of the message is only applied when no older one of it is pending. -/
def InOrder (id : Int) (s : SearchSystem) : SearchEvent → Prop
  | .apply task => ∀ next, s.pending[task]? = some next → next.touches id = true →
      ∀ older ∈ s.pending.take task, older.touches id = false
  | _ => True

end SearchSystem

variable {s u : SearchSystem} {id : Int}

/-- What a task does to the document of a message. -/
def IndexTask.settle (id : Int) (document : Option MessageSearchDocument) :
    IndexTask → Option MessageSearchDocument
  | .upsert newer => if newer.id = id then some newer else document
  | .delete messageIds => if id ∈ messageIds then none else document

theorem IndexTask.apply_row (task : IndexTask) (index : Table Int MessageSearchDocument) (id : Int) :
    (task.apply index).row id = task.settle id (index.row id) := by
  cases task with
  | upsert document =>
    simp only [IndexTask.apply, IndexTask.settle, Table.upsert_row]
    by_cases hid : id = document.id
    · rw [if_pos hid, if_pos hid.symm]
    · rw [if_neg hid, if_neg fun heq => hid heq.symm]
  | delete messageIds =>
    simp only [IndexTask.apply, IndexTask.settle, Table.deleteWhere_row]
    by_cases hid : id ∈ messageIds
    · cases index.row id <;> simp [hid]
    · cases index.row id <;> simp [hid]

theorem IndexTask.settle_of_not_touches {task : IndexTask} (h : task.touches id = false)
    (document : Option MessageSearchDocument) : task.settle id document = document := by
  cases task with
  | upsert newer =>
    exact if_neg (of_decide_eq_false h)
  | delete messageIds =>
    exact if_neg (of_decide_eq_false h)

/-- The document of a message once its pending tasks are applied in order. -/
def settled (id : Int) (document : Option MessageSearchDocument) (pending : List IndexTask) :
    Option MessageSearchDocument :=
  pending.foldl (fun document task => task.settle id document) document

theorem settled_append (id : Int) (document : Option MessageSearchDocument)
    (pending tasks : List IndexTask) :
    settled id document (pending ++ tasks) = settled id (settled id document pending) tasks :=
  List.foldl_append ..

theorem settled_of_not_touches {tasks : List IndexTask}
    (h : ∀ task ∈ tasks, task.touches id = false) (document : Option MessageSearchDocument) :
    settled id document tasks = document := by
  induction tasks generalizing document with
  | nil => rfl
  | cons task tasks ih =>
    show settled id (task.settle id document) tasks = document
    rw [IndexTask.settle_of_not_touches (h task List.mem_cons_self),
      ih fun other hmem => h other (List.mem_cons_of_mem _ hmem)]

/-- A task may be applied before older ones that are not of its message. -/
theorem settled_eraseIdx {pending : List IndexTask} {k : Nat} {task : IndexTask}
    (htask : pending[k]? = some task)
    (horder : task.touches id = true → ∀ older ∈ pending.take k, older.touches id = false)
    (document : Option MessageSearchDocument) :
    settled id (task.settle id document) (pending.eraseIdx k) = settled id document pending := by
  have hsplit : pending = pending.take k ++ task :: pending.drop (k + 1) := by
    obtain ⟨hk, heq⟩ := List.getElem?_eq_some_iff.mp htask
    rw [← heq, List.getElem_cons_drop, List.take_append_drop]
  have herase : pending.eraseIdx k = pending.take k ++ pending.drop (k + 1) :=
    List.eraseIdx_eq_take_drop_succ ..
  calc settled id (task.settle id document) (pending.eraseIdx k)
      = settled id (settled id (task.settle id document) (pending.take k)) (pending.drop (k + 1)) := by
        rw [herase, settled_append]
    _ = settled id (task.settle id (settled id document (pending.take k))) (pending.drop (k + 1)) := by
        cases htouch : task.touches id with
        | true =>
          rw [settled_of_not_touches (horder htouch), settled_of_not_touches (horder htouch)]
        | false =>
          rw [IndexTask.settle_of_not_touches htouch, IndexTask.settle_of_not_touches htouch]
    _ = settled id document pending := by
        conv_rhs => rw [hsplit, settled_append]
        rfl

theorem projectMessageDocument_id {message : Message} {document : MessageSearchDocument}
    (h : projectMessageDocument message = some document) :
    document.id = message.id ∧ document.version = messageVersion message := by
  unfold projectMessageDocument at h
  split at h
  · cases h
  · obtain ⟨text, -, rfl⟩ := Option.map_eq_some_iff.mp h
    exact ⟨rfl, rfl⟩

/-- The row of a send and the response to it project to one document. -/
theorem projectMessageResponseDocument_sent (id : Int) (message : Option String)
    (messageType : MessageType) (replyRootId : Option Int) (chatId createdAt : Int) :
    projectMessageResponseDocument
        (sentMessage id message messageType replyRootId chatId createdAt).response =
      projectMessageDocument (sentMessage id message messageType replyRootId chatId createdAt) := by
  unfold projectMessageResponseDocument projectMessageDocument
  cases messageType <;> rfl

/-- The tasks of a write leave the document of its row. -/
theorem settled_upsertMessage (message : Message) (document : Option MessageSearchDocument) :
    settled message.id document (upsertMessageBestEffort message) =
      projectMessageDocument message := by
  unfold upsertMessageBestEffort
  cases hdocument : projectMessageDocument message with
  | none => simp [settled, IndexTask.settle]
  | some newer => simp [settled, IndexTask.settle, (projectMessageDocument_id hdocument).1]

theorem upsertMessage_touches {message : Message} (h : message.id ≠ id) :
    ∀ task ∈ upsertMessageBestEffort message, task.touches id = false := by
  intro task hmem
  unfold upsertMessageBestEffort at hmem
  cases hdocument : projectMessageDocument message with
  | none =>
    rw [hdocument] at hmem
    rw [List.mem_singleton.mp hmem]
    simp [IndexTask.touches, Ne.symm h]
  | some newer =>
    rw [hdocument] at hmem
    rw [List.mem_singleton.mp hmem]
    simp [IndexTask.touches, (projectMessageDocument_id hdocument).1, h]

/-- Applying what is pending for a message makes its document that of its row. -/
def Converging (id : Int) (s : SearchSystem) : Prop :=
  settled id (s.index.row id) s.pending = (s.messages.row id).bind projectMessageDocument

theorem Converging.patchMessage (h : Converging id s) (message : Message) :
    Converging id (s.patchMessage message) := by
  unfold Converging SearchSystem.patchMessage
  rw [settled_append]
  by_cases hid : message.id = id
  · subst hid
    rw [settled_upsertMessage, Table.upsert_row_self]
    rfl
  · rw [settled_of_not_touches (upsertMessage_touches hid), Table.upsert_row_ne _ _ (Ne.symm hid)]
    exact h

theorem Converging.sendMessage (h : Converging id s) {sentId : Int} (message : Option String)
    (messageType : MessageType) (replyRootId : Option Int) (chatId createdAt : Int)
    (hnew : s.messages.row sentId = none) (response : Bool) :
    Converging id (s.sendMessage
      (sentMessage sentId message messageType replyRootId chatId createdAt) response) := by
  cases response with
  | false => exact h.patchMessage _
  | true =>
    generalize hsent : sentMessage sentId message messageType replyRootId chatId createdAt = sent
    have hproject : projectMessageResponseDocument sent.response = projectMessageDocument sent := by
      rw [← hsent]
      exact projectMessageResponseDocument_sent ..
    cases hdocument : projectMessageDocument sent with
    | some document =>
      have hsame : upsertResponseBestEffort sent.response = upsertMessageBestEffort sent := by
        unfold upsertResponseBestEffort upsertMessageBestEffort
        rw [hproject, hdocument]
      have hpatched := h.patchMessage sent
      unfold SearchSystem.patchMessage at hpatched
      unfold SearchSystem.sendMessage
      rw [if_pos rfl, hsame]
      exact hpatched
    | none =>
      have hnone : upsertResponseBestEffort sent.response = [] := by
        unfold upsertResponseBestEffort
        rw [hproject, hdocument]
      have hid : sent.id = sentId := by rw [← hsent]; rfl
      unfold Converging SearchSystem.sendMessage at *
      rw [if_pos rfl, hnone, List.append_nil]
      by_cases heq : sent.id = id
      · rw [← heq, Table.upsert_row_self, Option.bind_some, hdocument]
        rw [← heq, hid, hnew] at h
        rw [hid]
        exact h
      · rw [Table.upsert_row_ne _ _ (Ne.symm heq)]
        exact h

theorem Converging.deleteMessages (h : Converging id s) (messageIds : List Int) (now : Int) :
    Converging id (s.deleteMessages messageIds now) := by
  unfold Converging SearchSystem.deleteMessages
  rw [settled_append, Table.updateWhere_row]
  by_cases hid : id ∈ messageIds
  · have hne : messageIds ≠ [] := List.ne_nil_of_mem hid
    have hdeleted : ((s.messages.row id).map fun message =>
        if decide (id ∈ messageIds) = true then { message with deletedAt := some now }
        else message).bind projectMessageDocument = none := by
      cases s.messages.row id <;> simp [hid, projectMessageDocument]
    rw [hdeleted, deleteMessageIdsBestEffort, if_neg hne]
    simp [settled, IndexTask.settle, hid]
  · have hkept : ((s.messages.row id).map fun message =>
        if decide (id ∈ messageIds) = true then { message with deletedAt := some now }
        else message) = s.messages.row id := by
      cases s.messages.row id <;> simp [hid]
    rw [hkept, settled_of_not_touches]
    · exact h
    · intro task hmem
      unfold deleteMessageIdsBestEffort at hmem
      split at hmem
      · cases hmem
      · rw [List.mem_singleton.mp hmem]
        simp [IndexTask.touches, hid]

theorem Converging.step {event : SearchEvent} (h : Converging id s)
    (horder : s.InOrder id event) (hstep : s.step event = some u) : Converging id u := by
  cases event with
  | send sentId message messageType replyRootId chatId createdAt response =>
    simp only [SearchSystem.step] at hstep
    split at hstep
    · cases hstep
    · next hnew =>
      obtain rfl := Option.some.inj hstep
      exact h.sendMessage message messageType replyRootId chatId createdAt (by simpa using hnew)
        response
  | edit editedId message now =>
    simp only [SearchSystem.step] at hstep
    split at hstep
    · cases hstep
    · split at hstep
      · cases hstep
      · obtain rfl := Option.some.inj hstep
        exact h.patchMessage _
  | delete deletedId now =>
    simp only [SearchSystem.step] at hstep
    split at hstep
    · obtain rfl := Option.some.inj hstep
      exact h.deleteMessages [deletedId] now
    · cases hstep
  | bulkDelete messageIds now =>
    obtain rfl := Option.some.inj hstep
    exact h.deleteMessages messageIds now
  | apply k =>
    obtain ⟨task, htask, rfl⟩ := Option.map_eq_some_iff.mp hstep
    unfold Converging at h ⊢
    dsimp only
    rw [IndexTask.apply_row, settled_eraseIdx htask (horder task htask)]
    exact h

theorem Keyed.upsert {rows : Table Int Message} (h : Keyed rows) (message : Message) :
    Keyed (rows.upsert message.id message) := by
  intro id row hrow
  rw [Table.upsert_row] at hrow
  split at hrow
  · next hid =>
    obtain rfl := Option.some.inj hrow
    exact hid.symm
  · exact h id row hrow

theorem Keyed.step {event : SearchEvent} (h : Keyed s.messages) (hstep : s.step event = some u) :
    Keyed u.messages := by
  have hdelete : ∀ messageIds now, Keyed (s.deleteMessages messageIds now).messages := by
    intro messageIds now id message hrow
    obtain ⟨old, hold, rfl⟩ := Option.map_eq_some_iff.mp hrow
    rw [← h id old hold]
    split <;> rfl
  cases event with
  | send sentId message messageType replyRootId chatId createdAt response =>
    simp only [SearchSystem.step] at hstep
    split at hstep
    · cases hstep
    · obtain rfl := Option.some.inj hstep
      exact h.upsert _
  | edit editedId message now =>
    simp only [SearchSystem.step] at hstep
    split at hstep
    · cases hstep
    · split at hstep
      · cases hstep
      · obtain rfl := Option.some.inj hstep
        exact h.upsert _
  | delete deletedId now =>
    simp only [SearchSystem.step] at hstep
    split at hstep
    · obtain rfl := Option.some.inj hstep
      exact hdelete [deletedId] now
    · cases hstep
  | bulkDelete messageIds now =>
    obtain rfl := Option.some.inj hstep
    exact hdelete messageIds now
  | apply k =>
    obtain ⟨task, -, rfl⟩ := Option.map_eq_some_iff.mp hstep
    exact h

theorem keyed_run {history : List SearchEvent}
    (h : run SearchSystem.step SearchSystem.empty history = some s) : Keyed s.messages :=
  run_invariant (I := fun s : SearchSystem => Keyed s.messages)
    (fun _ _ _ hkeyed hstep => hkeyed.step hstep) (fun _ _ hrow => by cases hrow) h

/-- The rows loaded for candidates are those of the table that a candidate names. -/
theorem loadRows_row (hkeyed : Keyed s.messages) (candidates : List SearchHitCandidate) (id : Int) :
    ((s.loadRows candidates).foldl (fun table message => table.upsert message.id message)
      Table.empty).row id =
      if id ∈ candidates.map SearchHitCandidate.messageId then s.messages.row id else none := by
  have hmem : ∀ message, message ∈ s.loadRows candidates ↔
      message.id ∈ candidates.map SearchHitCandidate.messageId ∧
        s.messages.row message.id = some message := by
    intro message
    simp only [SearchSystem.loadRows, List.mem_filterMap, List.mem_dedup]
    constructor
    · intro h
      obtain ⟨named, hnamed, hrow⟩ := h
      rw [hkeyed named message hrow]
      exact ⟨hnamed, hrow⟩
    · exact fun h => ⟨message.id, h.1, h.2⟩
  have hnone : ∀ (rows : List Message) (table : Table Int Message), table.row id = none →
      (∀ row ∈ rows, row.id ≠ id) →
      (rows.foldl (fun table message => table.upsert message.id message) table).row id = none := by
    intro rows
    induction rows with
    | nil => exact fun _ htable _ => htable
    | cons row rows ih =>
      intro table htable hrows
      apply ih
      · rw [Table.upsert_row_ne _ _ (Ne.symm (hrows row List.mem_cons_self))]
        exact htable
      · exact fun other hother => hrows other (List.mem_cons_of_mem _ hother)
  split
  · next hnamed =>
    cases hrow : s.messages.row id with
    | none =>
      refine hnone _ _ rfl fun row hrows hid => ?_
      have hstored := ((hmem row).mp hrows).2
      rw [hid, hrow] at hstored
      cases hstored
    | some message =>
      have hid := hkeyed id message hrow
      refine Table.foldl_upsert_row (fun row hrows hrowId => ?_) (.inr ⟨message, ?_, hid⟩)
      · have hstored := ((hmem row).mp hrows).2
        rw [hrowId, hrow] at hstored
        exact (Option.some.inj hstored).symm
      · exact (hmem message).mpr ⟨hid ▸ hnamed, hid ▸ hrow⟩
  · next hnamed =>
    exact hnone _ _ rfl fun row hrows hid => hnamed (hid ▸ ((hmem row).mp hrows).1)

/-- A message whose tasks are applied in the order of its writes has its current document in the index
once nothing is pending, and hits of that document are kept; the filter only ever returns current rows
of the chat at their current version, and counts every other candidate. -/
theorem index_current {history : List SearchEvent}
    (h : run SearchSystem.step SearchSystem.empty history = some s) :
    (∀ id message document, Along SearchSystem.step (SearchSystem.InOrder id) SearchSystem.empty
        history → s.pending = [] → s.messages.row id = some message →
      projectMessageDocument message = some document →
      s.index.row id = some document ∧ document.version = messageVersion message ∧
      ∀ candidates : List SearchHitCandidate, (∃ candidate ∈ candidates, candidate.messageId = id) →
        (∀ candidate ∈ candidates, candidate.messageId = id →
          candidate.version = document.version) →
        message ∈ (filterAuthoritativeHitsWithCounts message.chatId candidates
          (s.loadRows candidates)).messages) ∧
    ∀ chatId candidates hits,
      hits = filterAuthoritativeHitsWithCounts chatId candidates (s.loadRows candidates) →
      (∀ message ∈ hits.messages, s.messages.row message.id = some message ∧
        ∃ candidate ∈ candidates, Hits chatId candidate message) ∧
      (hits.messages.map Message.id).Nodup ∧
      (hits.messages.map Message.id).Sublist (candidates.map SearchHitCandidate.messageId) ∧
      hits.messages.length + hits.drops.total = candidates.length := by
  have hkeyed := keyed_run h
  refine ⟨fun id message document horder hnone hrow hdocument => ?_,
    fun chatId candidates hits hfilter => ?_⟩
  · have hempty : Converging id SearchSystem.empty := by
      simp [Converging, settled, SearchSystem.empty]
    have hconverging : Converging id s := run_invariant_along (I := Converging id)
      (fun _ _ _ hconverging horder hstep => hconverging.step horder hstep) hempty horder h
    have hid := hkeyed id message hrow
    refine ⟨?_, (projectMessageDocument_id hdocument).2, fun candidates hnamed hversions => ?_⟩
    · unfold Converging at hconverging
      rw [hnone, hrow, Option.bind_some, hdocument] at hconverging
      exact hconverging
    · apply filter_keeps
      · rw [loadRows_row hkeyed, if_pos, hid, hrow]
        obtain ⟨candidate, hmem, heq⟩ := hnamed
        exact List.mem_map.mpr ⟨candidate, hmem, heq.trans hid.symm⟩
      · rwa [hid]
      · intro candidate hmem heq
        exact ⟨heq, rfl, document, hdocument, (hversions candidate hmem (heq.trans hid)).symm⟩
  · have hrows := loadRows_row hkeyed candidates
    have hloaded : Keyed ((s.loadRows candidates).foldl
        (fun table message => table.upsert message.id message) Table.empty) := by
      intro id message hrow
      rw [hrows] at hrow
      split at hrow
      · exact hkeyed id message hrow
      · cases hrow
    obtain ⟨found, hmessages, hsub, hnodup, hfound, hcount⟩ :=
      @filter_fold chatId candidates _ hloaded ⟨[], ⟨0, 0, 0, 0⟩⟩
    subst hfilter
    have hhits : (filterAuthoritativeHitsWithCounts chatId candidates
        (s.loadRows candidates)).messages = found := hmessages
    rw [hhits]
    refine ⟨fun message hmem => ?_, hnodup, hsub, hcount⟩
    obtain ⟨hrow, hcandidate⟩ := hfound message hmem
    rw [hrows] at hrow
    split at hrow
    · exact ⟨hrow, hcandidate⟩
    · cases hrow

/-- A message is sent and edited twice, and the tasks are applied in that order. -/
def editsInOrder : List SearchEvent :=
  [.send 1 (some "a") .text none 10 100 false, .edit 1 "b" 200, .edit 1 "c" 300, .apply 0, .apply 0,
    .apply 0]

theorem index_current_edits : ∃ s document, run SearchSystem.step SearchSystem.empty editsInOrder =
    some s ∧ s.index.row 1 = some document ∧ document.version = 300 := by
  have hrun : (run SearchSystem.step SearchSystem.empty editsInOrder).any (fun s =>
      decide (s.pending = [] ∧ s.messages.row 1 = some ⟨1, some "c", .text, none, 10, 100, some 300,
        none, true⟩)) = true := by
    decide +kernel
  have hproject : projectMessageDocument ⟨1, some "c", .text, none, 10, 100, some 300, none, true⟩ =
      some ⟨1, 10, none, 0, 300, "c"⟩ := by
    decide +kernel
  have horder : Along SearchSystem.step (SearchSystem.InOrder 1) SearchSystem.empty editsInOrder := by
    have happly : ∀ s : SearchSystem, s.InOrder 1 (.apply 0) := by
      intro s next _ _ older hmem
      cases hmem
    exact ⟨trivial, fun _ _ => ⟨trivial, fun _ _ => ⟨trivial, fun s _ => ⟨happly s, fun s _ =>
      ⟨happly s, fun s _ => ⟨happly s, fun _ _ => trivial⟩⟩⟩⟩⟩⟩
  cases h : run SearchSystem.step SearchSystem.empty editsInOrder with
  | none =>
    rw [h] at hrun
    cases hrun
  | some s =>
    rw [h] at hrun
    obtain ⟨hnone, hrow⟩ := of_decide_eq_true hrun
    obtain ⟨hcurrent, -⟩ := index_current h
    obtain ⟨hindex, hversion, -⟩ := hcurrent 1 _ _ horder hnone hrow hproject
    exact ⟨s, _, rfl, hindex, hversion⟩

/-- The task of the first edit is applied last: the index keeps a document whose hits are dropped. -/
theorem late_edit_hides_message : ∃ s document message,
    run SearchSystem.step SearchSystem.empty
      [.send 1 (some "a") .text none 10 100 false, .edit 1 "b" 200, .edit 1 "c" 300, .apply 0,
        .apply 1, .apply 0] = some s ∧
    s.pending = [] ∧ s.messages.row 1 = some message ∧
    (projectMessageDocument message).isSome = true ∧ s.index.row 1 = some document ∧
    document.version ≠ messageVersion message ∧
    (filterAuthoritativeHitsWithCounts 10 [⟨1, document.version⟩]
      (s.loadRows [⟨1, document.version⟩])).messages = [] :=
  ⟨_, ⟨1, 10, none, 0, 200, "b"⟩, ⟨1, some "c", .text, none, 10, 100, some 300, none, true⟩, rfl, rfl,
    by decide +kernel, by decide +kernel, by decide +kernel, by decide, by decide +kernel⟩

end Chahua.Search

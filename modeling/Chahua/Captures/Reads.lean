import Chahua.Captures.Origins

namespace Chahua.Captures

open Framework Messages

/-- A version that a message had in one of the states. -/
def Shown (states : List MessageStore) (id : Int) (v : Version) : Prop :=
  ∃ s ∈ states, version s id = some v

theorem Shown.append {states : List MessageStore} {since : Nat} {id : Int} {v : Version}
    (h : Shown (states.drop since) id v) (more : List MessageStore) :
    Shown ((states ++ more).drop since) id v := by
  obtain ⟨s, hs, hv⟩ := h
  rw [List.drop_append]
  exact ⟨s, List.mem_append_left _ hs, hv⟩

/-- A copy is what its source was in one state committed during its call. -/
def Faithful (s : CaptureStore) (item : CapturedItem) : Prop :=
  Shown ((s.committed.take item.ended).drop item.since) item.source item.version

/-- A later state of the tables; `edited` is the row that was given another text. -/
structure Moves (s t : CaptureStore) (edited : Option Int) : Prop where
  advance : Advance s.store t.store edited
  committed : ∃ more, t.committed = s.committed ++ more

theorem Moves.rfl_of_store {s t : CaptureStore} (hstore : t.store = s.store)
    (hcommitted : t.committed = s.committed) : Moves s t none :=
  ⟨hstore ▸ ⟨fun _ m hm _ => ⟨m, hm, rfl⟩, fun _ _ hc => hc, rfl⟩,
    [], hcommitted.trans (List.append_nil _).symm⟩

theorem Moves.shown {s t : CaptureStore} {edited : Option Int} (h : Moves s t edited) {since : Nat}
    {id : Int} {v : Version} (hv : Shown (s.committed.drop since) id v) :
    Shown (t.committed.drop since) id v := by
  obtain ⟨more, hmore⟩ := h.committed
  rw [hmore]
  exact hv.append more

theorem Moves.now {s t : CaptureStore} {edited : Option Int} (h : Moves s t edited) {since : Nat}
    (hsince : since ≤ s.now) : since ≤ t.now := by
  obtain ⟨more, hmore⟩ := h.committed
  simp only [CaptureStore.now, hmore, List.length_append] at hsince ⊢
  omega

theorem Moves.rowVersion {s t : CaptureStore} {edited : Option Int} (h : Moves s t edited)
    (message : Message) (columns : SendColumns) (attachments : List Media) :
    rowVersion t.store message columns attachments =
      rowVersion s.store message columns attachments := by
  simp only [Captures.rowVersion, h.advance.stickers]

theorem Moves.faithful {s t : CaptureStore} {edited : Option Int} (h : Moves s t edited)
    {item : CapturedItem} (hended : item.ended ≤ s.committed.length) (hi : Faithful s item) :
    Faithful t item ∧ item.ended ≤ t.committed.length := by
  obtain ⟨more, hmore⟩ := h.committed
  constructor
  · unfold Faithful
    rw [hmore, List.take_append_of_le_length hended]
    exact hi
  · rw [hmore, List.length_append]
    omega

/-- A call that ends takes the states up to its end. -/
theorem faithful_of_shown {s t : CaptureStore} {item : CapturedItem} {edited : Option Int}
    (h : Moves s t edited) (hended : item.ended = s.committed.length)
    (hv : Shown (s.committed.drop item.since) item.source item.version) :
    Faithful t item ∧ item.ended ≤ t.committed.length := by
  refine h.faithful (Nat.le_of_eq hended) ?_
  unfold Faithful
  rw [hended, List.take_length]
  exact hv

/-- What a single forward knows between its statements: it holds the lock of its source. -/
def LockHolds (s : CaptureStore) : Capture → Prop
  | .locked _ _ _ source since => since ≤ s.now ∧ Matches s.store source
  | .pending (.copy _ _ _ source attachments) since =>
      Matches s.store source ∧ Shown (s.committed.drop since) source.id
        (rowVersion s.store source.message source.columns (media attachments))
  | .pending (.placeholder _ _ _ source _) _ => Matches s.store source
  | _ => True

/-- What the other calls know as long as nobody gives their sources another text. -/
def ReadHolds (s : CaptureStore) : Capture → Prop
  | .selected _ _ _ sources since => since ≤ s.now ∧ ∀ source ∈ sources, Matches s.store source
  | .loaded _ source hasAttachments since => since ≤ s.now ∧ Matches s.store source ∧
      (hasAttachments = false → Shown (s.committed.drop since) source.id
        (rowVersion s.store source.message source.columns []))
  | .pending (.bundle _ _ _ items) since => ∀ item ∈ items, ∀ v, itemVersion item = some v →
      Shown (s.committed.drop since) item.originalMessageId v
  | .pending (.saved _ messageId row) since =>
      Shown (s.committed.drop since) messageId row.version
  | _ => True

/-- The rows a call without a lock has read and not yet the attachments. -/
def Capture.sources : Capture → List SourceMessage
  | .selected _ _ _ sources _ => sources
  | .loaded _ source _ _ => [source]
  | _ => []

theorem LockHolds.moves {s t : CaptureStore} {edited : Option Int} {capture : Capture}
    (h : LockHolds s capture) (hm : Moves s t edited)
    (hne : ∀ id, capture.lockedSource = some id → some id ≠ edited) : LockHolds t capture := by
  cases capture with
  | locked uid destinationChatId body source since =>
    exact ⟨hm.now h.1, h.2.advance hm.advance (hne source.id rfl)⟩
  | pending write since =>
    cases write with
    | copy uid destinationChatId body source attachments =>
      refine ⟨h.1.advance hm.advance (hne source.id rfl), ?_⟩
      rw [hm.rowVersion]
      exact hm.shown h.2
    | placeholder uid destinationChatId body source reason =>
      exact Matches.advance h hm.advance (hne source.id rfl)
    | bundle uid destinationChatId body items => trivial
    | saved uid messageId row => trivial
  | selected uid destinationChatId body sources since => trivial
  | loaded uid source hasAttachments since => trivial

theorem ReadHolds.moves {s t : CaptureStore} {edited : Option Int} {capture : Capture}
    (h : ReadHolds s capture) (hm : Moves s t edited)
    (hne : ∀ source ∈ capture.sources, some source.id ≠ edited) : ReadHolds t capture := by
  cases capture with
  | selected uid destinationChatId body sources since =>
    exact ⟨hm.now h.1, fun source hsource =>
      (h.2 source hsource).advance hm.advance (hne source hsource)⟩
  | loaded uid source hasAttachments since =>
    refine ⟨hm.now h.1, h.2.1.advance hm.advance (hne source List.mem_cons_self), fun hnone => ?_⟩
    rw [hm.rowVersion]
    exact hm.shown (h.2.2 hnone)
  | pending write since =>
    cases write with
    | bundle uid destinationChatId body items =>
      exact fun item hitem v hv => hm.shown (h item hitem v hv)
    | saved uid messageId row => exact hm.shown h
    | copy uid destinationChatId body source attachments => trivial
    | placeholder uid destinationChatId body source reason => trivial
  | locked uid destinationChatId body source since => trivial

/-- The invariant of every run. -/
structure Good (s : CaptureStore) : Prop where
  base : Base s.store s.committed s.hasAttachments
  current : ∃ past, s.committed = past ++ [s.store]
  locks : ∀ call capture, s.captures.row call = some capture → LockHolds s capture
  copies : ∀ item ∈ s.captured, item.copyId.isSome →
    Faithful s item ∧ item.ended ≤ s.committed.length

/-- The invariant of runs in which no source is given another text between two reads. -/
structure Calmed (s : CaptureStore) : Prop where
  reads : ∀ call capture, s.captures.row call = some capture → ReadHolds s capture
  items : ∀ item ∈ s.captured, Faithful s item ∧ item.ended ≤ s.committed.length

/-- What is committed now has been committed since any earlier read. -/
theorem Good.shown {s : CaptureStore} (h : Good s) {since : Nat} (hsince : since ≤ s.now)
    {id : Int} {v : Version} (hv : version s.store id = some v) :
    Shown (s.committed.drop since) id v := by
  obtain ⟨past, hpast⟩ := h.current
  refine ⟨s.store, ?_, hv⟩
  have hlength : since ≤ past.length := by
    simpa [CaptureStore.now, hpast] using hsince
  rw [hpast, List.drop_append_of_le_length hlength]
  exact List.mem_append_right _ (List.mem_singleton.mpr rfl)

theorem Good.of_moves {s t : CaptureStore} {edited : Option Int} (h : Good s)
    (hm : Moves s t edited) (hbase : Base t.store t.committed t.hasAttachments)
    (hcurrent : ∃ past, t.committed = past ++ [t.store])
    (hne : ∀ call capture id, s.captures.row call = some capture →
      capture.lockedSource = some id → some id ≠ edited)
    (hcaptures : ∀ call capture, t.captures.row call = some capture →
      s.captures.row call = some capture ∨ LockHolds t capture)
    (hitems : ∀ item ∈ t.captured, item ∈ s.captured ∨
      (item.copyId.isSome → Faithful t item ∧ item.ended ≤ t.committed.length)) : Good t where
  base := hbase
  current := hcurrent
  locks call capture hrow := by
    obtain hold | hnew := hcaptures call capture hrow
    · exact (h.locks call capture hold).moves hm (hne call capture · hold)
    · exact hnew
  copies item hitem hcopy := by
    obtain hold | hnew := hitems item hitem
    · obtain ⟨hfaithful, hended⟩ := h.copies item hold hcopy
      exact hm.faithful hended hfaithful
    · exact hnew hcopy

theorem Calmed.of_moves {s t : CaptureStore} {edited : Option Int} (h : Calmed s)
    (hm : Moves s t edited)
    (hne : ∀ call capture, s.captures.row call = some capture →
      ∀ source ∈ capture.sources, some source.id ≠ edited)
    (hcaptures : ∀ call capture, t.captures.row call = some capture →
      s.captures.row call = some capture ∨ ReadHolds t capture)
    (hitems : ∀ item ∈ t.captured, item ∈ s.captured ∨
      (Faithful t item ∧ item.ended ≤ t.committed.length)) : Calmed t where
  reads call capture hrow := by
    obtain hold | hnew := hcaptures call capture hrow
    · exact (h.reads call capture hold).moves hm (hne call capture hold)
    · exact hnew
  items item hitem := by
    obtain hold | hnew := hitems item hitem
    · obtain ⟨hfaithful, hended⟩ := h.items item hold
      exact hm.faithful hended hfaithful
    · exact hnew

/-- A step that only changes which calls are under way. -/
theorem Good.of_captures {s t : CaptureStore} (h : Good s) (hstore : t.store = s.store)
    (hcommitted : t.committed = s.committed) (hflags : t.hasAttachments = s.hasAttachments)
    (hcaptured : t.captured = s.captured)
    (hcaptures : ∀ call capture, t.captures.row call = some capture →
      s.captures.row call = some capture ∨ LockHolds t capture) : Good t := by
  refine h.of_moves (.rfl_of_store hstore hcommitted) ?_ ?_ ?_ hcaptures ?_
  · rw [hstore, hcommitted, hflags]
    exact h.base
  · rw [hstore, hcommitted]
    exact h.current
  · intro call capture id hrow hlocked heq
    cases heq
  · intro item hitem
    exact .inl (hcaptured ▸ hitem)

theorem Calmed.of_captures {s t : CaptureStore} (h : Calmed s) (hstore : t.store = s.store)
    (hcommitted : t.committed = s.committed) (hcaptured : t.captured = s.captured)
    (hcaptures : ∀ call capture, t.captures.row call = some capture →
      s.captures.row call = some capture ∨ ReadHolds t capture) : Calmed t := by
  refine h.of_moves (.rfl_of_store hstore hcommitted) ?_ hcaptures ?_
  · intro call capture hrow source hsource heq
    cases heq
  · intro item hitem
    exact .inl (hcaptured ▸ hitem)

/-- A call under way, or the one that was stored last. -/
theorem captures_upsert {s : CaptureStore} {call : Nat} {new : Capture} {k : Nat}
    {capture : Capture} (h : (s.captures.upsert call new).row k = some capture) :
    s.captures.row k = some capture ∨ capture = new := by
  rw [Table.upsert_row] at h
  split at h
  · exact .inr (Option.some.inj h).symm
  · exact .inl h

/-- A call reads a row, or the attachments after it. -/
theorem Good.starts {s : CaptureStore} (h : Good s) (call : Nat) {new : Capture}
    (hnew : LockHolds s new) : Good { s with captures := s.captures.upsert call new } := by
  have hsame : LockHolds { s with captures := s.captures.upsert call new } new := by
    cases new with
    | pending write since => cases write <;> exact hnew
    | _ => exact hnew
  refine h.of_captures rfl rfl rfl rfl fun k capture hk => ?_
  obtain hold | rfl := captures_upsert hk
  · exact .inl hold
  · exact .inr hsame

theorem Calmed.starts {s : CaptureStore} (h : Calmed s) (call : Nat) {new : Capture}
    (hnew : ReadHolds s new) : Calmed { s with captures := s.captures.upsert call new } := by
  have hsame : ReadHolds { s with captures := s.captures.upsert call new } new := by
    cases new with
    | pending write since => cases write <;> exact hnew
    | _ => exact hnew
  refine h.of_captures rfl rfl rfl fun k capture hk => ?_
  obtain hold | rfl := captures_upsert hk
  · exact .inl hold
  · exact .inr hsame

theorem isLocked_of_row {s : CaptureStore} {call : Nat} {capture : Capture} {id : Int}
    (hrow : s.captures.row call = some capture) (hlocked : capture.lockedSource = some id) :
    s.isLocked id = true :=
  decide_eq_true ⟨call, Table.mem_select.mpr ⟨capture, hrow, decide_eq_true hlocked⟩⟩

theorem rewritten_mem_lockedRows {s : MessageStore} {e : StoreEvent} {id : Int}
    (h : rewritten s e = some id) : id ∈ lockedRows s e := by
  cases e with
  | edit now uid chatId messageId body =>
    simp only [rewritten] at h
    split at h
    · cases h
    · obtain rfl := Option.some.inj h
      exact List.mem_singleton.mpr rfl
  | _ => cases h

theorem write_spec {s t : CaptureStore} {e : StoreEvent} (h : s.write e = some t) :
    isOrdinary e = true ∧ (∀ id ∈ lockedRows s.store e, s.isLocked id = false) ∧
      ∃ store, s.store.step e = some store ∧ t = { s.commit store with
        hasAttachments := noteAttachments s.hasAttachments s.store store e } := by
  unfold CaptureStore.write at h
  split at h
  · next hfree =>
    rw [Bool.and_eq_true, Bool.not_eq_true', List.any_eq_false] at hfree
    obtain ⟨store, hstep, rfl⟩ := Option.map_eq_some_iff.mp h
    exact ⟨hfree.1, fun id hid => by simpa using hfree.2 id hid, store, hstep, rfl⟩
  · cases h

theorem moves_write {s : CaptureStore} {e : StoreEvent} {store : MessageStore} (h : Good s)
    (he : isOrdinary e = true) (hstep : s.store.step e = some store) (flags : Table Int Bool) :
    Moves s { s.commit store with hasAttachments := flags } (rewritten s.store e) :=
  ⟨advance_of_step h.base.constraints he hstep, [store], rfl⟩

theorem Good.write {s t : CaptureStore} {e : StoreEvent} (h : Good s) (hw : s.write e = some t) :
    Good t := by
  obtain ⟨he, hfree, store, hstep, rfl⟩ := write_spec hw
  refine h.of_moves (moves_write h he hstep _) (h.base.write he hstep) ⟨s.committed, rfl⟩ ?_
    (fun _ _ hrow => .inl hrow) (fun _ hitem => .inl hitem)
  intro call capture id hrow hlocked heq
  have hunlocked := hfree id (rewritten_mem_lockedRows heq.symm)
  rw [isLocked_of_row hrow hlocked] at hunlocked
  cases hunlocked

theorem cleanupBatch_spec {s t : CaptureStore} {now chatId targetUid : Int} {scope : DeleteScope}
    (h : Good s) (hc : s.cleanupBatch now chatId targetUid scope = some t) :
    Moves s t none ∧ Base t.store t.committed t.hasAttachments ∧
      (∃ past, t.committed = past ++ [t.store]) ∧ t.captures = s.captures ∧
      t.captured = s.captured := by
  unfold CaptureStore.cleanupBatch at hc
  split at hc
  · cases hc
  · next db impact hbatch =>
    split at hc
    · cases hc
    · obtain rfl := Option.some.inj hc
      obtain ⟨hcontent, ids, hstay⟩ := bulkDeleteBatch_rows hbatch
      obtain ⟨hadvance, hbase⟩ := h.base.cleanup hcontent hstay
      exact ⟨⟨hadvance, _, rfl⟩, hbase, ⟨s.committed, rfl⟩, rfl, rfl⟩

theorem Good.cleanupBatch {s t : CaptureStore} {now chatId targetUid : Int} {scope : DeleteScope}
    (h : Good s) (hc : s.cleanupBatch now chatId targetUid scope = some t) : Good t := by
  obtain ⟨hm, hbase, hcurrent, hcaptures, hcaptured⟩ := cleanupBatch_spec h hc
  refine h.of_moves hm hbase hcurrent ?_ (fun k capture hk => .inl (hcaptures ▸ hk))
    fun item hitem => .inl (hcaptured ▸ hitem)
  intro k capture id _ _ heq
  cases heq

theorem Calmed.cleanupBatch {s t : CaptureStore} {now chatId targetUid : Int}
    {scope : DeleteScope} (hg : Good s) (h : Calmed s)
    (hc : s.cleanupBatch now chatId targetUid scope = some t) : Calmed t := by
  obtain ⟨hm, -, -, hcaptures, hcaptured⟩ := cleanupBatch_spec hg hc
  refine h.of_moves hm ?_ (fun k capture hk => .inl (hcaptures ▸ hk))
    fun item hitem => .inl (hcaptured ▸ hitem)
  intro k capture _ source _ heq
  cases heq

theorem unchanged_of_map {α : Type*} {s t : CaptureStore} {x : Except AppError α}
    (h : (x.map fun _ => s) = .ok t) : t = s := by
  cases x with
  | error e => cases h
  | ok a => exact (Except.ok.inj h).symm

theorem selectSources_spec {s t : CaptureStore} {call : Nat} {uid destinationChatId : Int}
    {body : ForwardMessagesBody}
    (h : s.selectSources call uid destinationChatId body = .ok t) :
    t = s ∨ ∃ canonical, t = { s with
      captures := s.captures.upsert call (.selected uid destinationChatId body
        (s.store.sourceMessages uid body.sourceChatId canonical) s.now) } := by
  unfold CaptureStore.selectSources at h
  split at h
  · cases h
  split at h
  · cases h
  split at h
  · exact .inl (unchanged_of_map h)
  split at h
  · cases h
  dsimp only at h
  split at h
  · cases h
  · exact .inr ⟨_, (Except.ok.inj h).symm⟩

theorem matches_sourceMessages {s : MessageStore} {uid sourceChatId : Int} {ids : List Int}
    {source : SourceMessage} (h : source ∈ s.sourceMessages uid sourceChatId ids) :
    Matches s source := by
  obtain ⟨-, -, hm, hc⟩ := MessageStore.mem_sourceMessages h
  exact ⟨⟨source.message, hm, rfl⟩, hc⟩

theorem lockSource_spec {s t : CaptureStore} {call : Nat}
    {uid destinationChatId messageId : Int} {body : ForwardMessageBody}
    (h : s.lockSource call uid destinationChatId messageId body = .ok t) :
    t = s ∨ ∃ source, Matches s.store source ∧
      ((∃ reason, t = { s with
          captures := s.captures.upsert call
            (.pending (.placeholder uid destinationChatId body source reason) s.now) }) ∨
        t = { s with
          captures := s.captures.upsert call
            (.locked uid destinationChatId body source s.now) }) := by
  unfold CaptureStore.lockSource at h
  split at h
  · cases h
  split at h
  · cases h
  split at h
  · cases h
  next source hsource =>
  have hmatches := (matches_source (Option.filter_eq_some_iff.mp hsource).1).2
  split at h
  · split at h
    · exact .inl (unchanged_of_map h)
    · cases h
  split at h
  · cases h
  · exact .inr ⟨source, hmatches, .inl ⟨_, (Except.ok.inj h).symm⟩⟩
  · exact .inr ⟨source, hmatches, .inr (Except.ok.inj h).symm⟩

theorem loadSource_spec {s t : CaptureStore} {call : Nat} {uid messageId : Int}
    (h : s.loadSource call uid messageId = .ok t) : t = s ∨
      ∃ source hasAttachments, s.source messageId = some source ∧
        s.hasAttachments.row messageId = some hasAttachments ∧
        t = { s with
          captures := s.captures.upsert call (.loaded uid source hasAttachments s.now) } := by
  unfold CaptureStore.loadSource at h
  split at h
  · next source hasAttachments hsource hflag =>
    split at h
    · cases h
    split at h
    · cases h
    split at h
    · exact .inl (Except.ok.inj h).symm
    · exact .inr ⟨source, hasAttachments, hsource, hflag, (Except.ok.inj h).symm⟩
  · cases h

theorem loadAttachments_nil {db : Database} {id : Int} (h : db.loadMessageAttachmentIds id = []) :
    loadAttachments db id = [] := by
  rw [loadAttachments, h]
  rfl

/-- The row that was just read is the committed one. -/
theorem readHolds_loaded {s : CaptureStore} {uid messageId : Int} {source : SourceMessage}
    {hasAttachments : Bool} (h : Good s) (hsource : s.source messageId = some source)
    (hflag : s.hasAttachments.row messageId = some hasAttachments) :
    ReadHolds s (.loaded uid source hasAttachments s.now) := by
  obtain ⟨rfl, hmatches⟩ := matches_source hsource
  refine ⟨Nat.le_refl _, hmatches, fun hnone => h.shown (Nat.le_refl _) ?_⟩
  rw [hnone] at hflag
  rw [hmatches.version, loadAttachments_nil (h.base.flags source.id hflag).2]
  rfl

/-- The second read of a call. -/
theorem capture_spec {s t : CaptureStore} {call : Nat} {savedAt : Int}
    (h : s.capture call savedAt = some t) :
    ∃ old write since, s.captures.row call = some old ∧
      t = { s with captures := s.captures.upsert call (.pending write since) } ∧
      ((∃ uid chatId body sources items, old = .selected uid chatId body sources since ∧
          write = .bundle uid chatId body items ∧
          captureForwardedBundleItems s.store.system.db s.store.forwardedBundles s.store.stickers
            sources body.allowPlaceholders = .ok items) ∨
        (∃ uid chatId body source, old = .locked uid chatId body source since ∧
          write = .copy uid chatId body source (loadAttachments s.store.system.db source.id)) ∨
        ∃ uid source hasAttachments row, old = .loaded uid source hasAttachments since ∧
          write = .saved uid source.id row ∧
          CaptureStore.buildNewSavedMessage s.store savedAt source hasAttachments = .ok row) := by
  unfold CaptureStore.capture at h
  dsimp only at h
  split at h
  · next uid chatId body sources since hrow =>
    split at h
    · cases h
    · next items hitems =>
      exact ⟨_, _, since, hrow, (Option.some.inj h).symm,
        .inl ⟨uid, chatId, body, sources, items, rfl, rfl, hitems⟩⟩
  · next uid chatId body source since hrow =>
    exact ⟨_, _, since, hrow, (Option.some.inj h).symm,
      .inr (.inl ⟨uid, chatId, body, source, rfl, rfl⟩)⟩
  · next uid source hasAttachments since hrow =>
    split at h
    · cases h
    · next row hbuilt =>
      exact ⟨_, _, since, hrow, (Option.some.inj h).symm,
        .inr (.inr ⟨uid, source, hasAttachments, row, rfl, rfl, hbuilt⟩)⟩
  · cases h

theorem Good.capture {s t : CaptureStore} {call : Nat} {savedAt : Int} (h : Good s)
    (hc : s.capture call savedAt = some t) : Good t := by
  obtain ⟨old, write, since, hrow, rfl, hcases⟩ := capture_spec hc
  refine h.starts call ?_
  obtain ⟨uid, chatId, body, sources, items, rfl, rfl, hitems⟩ |
    ⟨uid, chatId, body, source, rfl, rfl⟩ | ⟨uid, source, hasAttachments, row, rfl, rfl, hbuilt⟩ :=
    hcases
  · trivial
  · obtain ⟨hsince, hmatches⟩ := h.locks call _ hrow
    exact ⟨hmatches, h.shown hsince hmatches.version⟩
  · trivial

theorem Calmed.capture {s t : CaptureStore} {call : Nat} {savedAt : Int} (hg : Good s)
    (h : Calmed s) (hc : s.capture call savedAt = some t) : Calmed t := by
  obtain ⟨old, write, since, hrow, rfl, hcases⟩ := capture_spec hc
  refine h.starts call ?_
  obtain ⟨uid, chatId, body, sources, items, rfl, rfl, hitems⟩ |
    ⟨uid, chatId, body, source, rfl, rfl⟩ | ⟨uid, source, hasAttachments, row, rfl, rfl, hbuilt⟩ :=
    hcases
  · obtain ⟨hsince, hmatches⟩ := h.reads call _ hrow
    intro item hitem v hv
    obtain ⟨source, hsource, hid, rfl⟩ := itemVersion_capture hitems hitem hv
    rw [hid]
    exact hg.shown hsince (hmatches source hsource).version
  · trivial
  · obtain ⟨hsince, hmatches, hnone⟩ := h.reads call _ hrow
    change Shown (s.committed.drop since) source.id row.version
    rw [version_buildNewSavedMessage hbuilt]
    cases hasAttachments with
    | false => exact hnone rfl
    | true => exact hg.shown hsince hmatches.version

end Chahua.Captures

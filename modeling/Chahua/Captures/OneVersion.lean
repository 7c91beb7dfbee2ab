import Chahua.Captures.Reads

namespace Chahua.Captures

open Framework Messages CaptureStore

theorem cloneAttachments_row {table : Table Int Attachment} {uid : Int}
    {clones : List (Int × Int × Attachment)} (hnodup : (clones.map Prod.fst).Nodup)
    {clone : Int × Int × Attachment} (hmem : clone ∈ clones) :
    (cloneAttachments table uid clones).row clone.1 = some { clone.2.2 with
      messageId := none
      uploaderUid := some uid
      deletedAt := none } := by
  refine Table.foldl_upsert_row (fun other hother heq => ?_) (.inr ⟨clone, hmem, rfl⟩)
  rw [List.inj_on_of_nodup_map hnodup hother hmem heq]

theorem cloneAttachments_row_other {table : Table Int Attachment} {uid a : Int}
    {clones : List (Int × Int × Attachment)} (h : a ∉ clones.map Prod.fst) :
    (cloneAttachments table uid clones).row a = table.row a := by
  unfold cloneAttachments
  induction clones generalizing table with
  | nil => rfl
  | cons clone clones ih =>
    rw [List.map_cons, List.mem_cons, not_or] at h
    rw [List.foldl_cons, ih h.2, Table.upsert_row_ne _ _ h.1]

/-- Clones belong to no message yet. -/
theorem cloneAttachments_cases {table : Table Int Attachment} {uid a : Int}
    {clones : List (Int × Int × Attachment)} (hnodup : (clones.map Prod.fst).Nodup)
    {row : Attachment} (h : (cloneAttachments table uid clones).row a = some row) :
    (a ∈ clones.map Prod.fst ∧ row.messageId = none) ∨ table.row a = some row := by
  by_cases hmem : a ∈ clones.map Prod.fst
  · obtain ⟨clone, hclone, rfl⟩ := List.mem_map.mp hmem
    rw [cloneAttachments_row hnodup hclone] at h
    obtain rfl := Option.some.inj h
    exact .inl ⟨hmem, rfl⟩
  · rw [cloneAttachments_row_other hmem] at h
    exact .inr h

theorem loadMessageAttachmentIds_clones {s : MessageStore} {uid : Int}
    {clones : List (Int × Int × Attachment)} (hnodup : (clones.map Prod.fst).Nodup)
    (hfresh : ∀ a ∈ clones.map Prod.fst, s.system.db.attachments.row a = none) (id : Int) :
    (insertClones s uid clones).system.db.loadMessageAttachmentIds id =
      s.system.db.loadMessageAttachmentIds id := by
  refine Database.loadMessageAttachmentIds_congr fun a => ?_
  by_cases hmem : a ∈ clones.map Prod.fst
  · obtain ⟨clone, hclone, rfl⟩ := List.mem_map.mp hmem
    simp only [Database.livePosition, insertClones, cloneAttachments_row hnodup hclone,
      hfresh _ hmem]
    simp [Option.filter]
  · simp only [Database.livePosition, insertClones, cloneAttachments_row_other hmem]

theorem Base.insertClones {s : MessageStore} {committed : List MessageStore}
    {flags : Table Int Bool} (h : Base s committed flags) {uid : Int}
    {clones : List (Int × Int × Attachment)} (hnodup : (clones.map Prod.fst).Nodup)
    (hfresh : ∀ a ∈ clones.map Prod.fst, s.system.db.attachments.row a = none) :
    Base (CaptureStore.insertClones s uid clones) committed flags where
  constraints :=
    { unique := h.constraints.unique
      columns := h.constraints.columns
      attachments := by
        intro a row i hrow hi
        obtain ⟨-, hnone⟩ | hold := cloneAttachments_cases hnodup hrow
        · rw [hnone] at hi
          cases hi
        · exact h.constraints.attachments a row i hold hi }
  stickers := h.stickers
  plain := h.plain
  flags id hid := by
    obtain ⟨hsome, hnone⟩ := h.flags id hid
    exact ⟨hsome, (loadMessageAttachmentIds_clones hnodup hfresh id).trans hnone⟩
  origins id c origin hc hforward := by
    obtain ⟨m, hm, hattributed⟩ := h.origins id c origin hc hforward
    exact ⟨m, hm, hattributed.root, hattributed.said⟩

theorem media_loadAttachments (db : Database) (id : Int) : media (loadAttachments db id) =
    (db.loadMessageAttachmentIds id).filterMap fun a =>
      (db.attachments.row a).map attachmentMedia := by
  simp only [media, loadAttachments, List.map_filterMap, Option.map_map]
  rfl

/-- A message that claims clones has the attachments they are clones of. -/
theorem media_clones {s t : MessageStore} {uid id : Int} {p : SendRequest}
    {clones : List (Int × Int × Attachment)} (hnodup : (clones.map Prod.fst).Nodup)
    (hi : Inserted (CaptureStore.insertClones s uid clones) t id p)
    (hids : p.attachmentIds = clones.map Prod.fst) :
    media (loadAttachments t.system.db id) = media (clones.map Prod.snd) := by
  obtain ⟨m, -, hpayload⟩ := hi.stores.payload
  have hload : t.system.db.loadMessageAttachmentIds id = clones.map Prod.fst :=
    (congrArg MessagePayload.attachmentIds hpayload).trans hids
  rw [media_loadAttachments, hload, List.filterMap_map, media, List.map_map,
    ← List.filterMap_eq_map]
  refine List.filterMap_congr fun clone hclone => ?_
  simp only [Function.comp_apply, hi.media]
  change ((cloneAttachments s.system.db.attachments uid clones).row clone.1).map _ = _
  rw [cloneAttachments_row hnodup hclone]
  rfl

/-- The row of a copy says what its source said, with the same attachments. -/
theorem version_copy {s t : MessageStore} {committed : List MessageStore} {flags : Table Int Bool}
    (h : Base s committed flags) {uid chatId id : Int} {body : ForwardMessageBody}
    {source : SourceMessage} {clones : List (Int × Int × Attachment)} {cloneIds : List Int}
    (hnodup : (clones.map Prod.fst).Nodup) (hids : cloneIds = clones.map Prod.fst)
    (hmatches : Matches s source)
    (hi : Inserted (CaptureStore.insertClones s uid clones) t id
      (copyRequest uid chatId body source cloneIds)) :
    version t id = some (rowVersion s source.message source.columns
      (media (clones.map Prod.snd))) := by
  obtain ⟨m, hm, htype, htext⟩ := hi.row
  obtain ⟨row, hrow, hpayload⟩ := hmatches.row
  obtain ⟨row', hrow', hplain⟩ := h.plain _ _ hmatches.columns
  obtain rfl := Option.some.inj (hrow'.symm.trans hrow)
  have hstored : m.message = source.message.message := by
    rw [htext, SendRequest.storedMessage]
    split
    · next hsticker =>
      rw [← message_of_payload hpayload, hplain ((messageType_of_payload hpayload).trans hsticker)]
    · rfl
  have hcolumns : t.columns.row id = some (copyRequest uid chatId body source cloneIds).columns := by
    rw [hi.columns, Table.upsert_row_self]
  simp only [version, hm, hcolumns, rowVersion, hstored, htype, stickerOf, hi.stickers,
    media_clones hnodup hi hids]
  rfl

theorem attributed_originId {s : MessageStore} {committed : List MessageStore}
    {flags : Table Int Bool} (h : Base s committed flags) (hs : s ∈ committed)
    {source : SourceMessage} (hmatches : Matches s source) :
    Attributed s committed (originId source) source.message.messageType
      source.message.message := by
  obtain ⟨m, hm, hpayload⟩ := hmatches.row
  cases hforward : source.columns.forwardedFromMessageId with
  | none =>
    rw [originId, hforward, Option.getD_none]
    exact ⟨⟨source.columns, hmatches.columns, hforward⟩,
      fun _ => ⟨s, hs, m, hm, message_of_payload hpayload⟩⟩
  | some origin =>
    obtain ⟨m', hm', hattributed⟩ := h.origins _ _ origin hmatches.columns hforward
    obtain rfl := Option.some.inj (hm'.symm.trans hm)
    rw [originId, hforward, Option.getD_some, ← messageType_of_payload hpayload,
      ← message_of_payload hpayload]
    exact hattributed

theorem commitSend_spec {s t : CaptureStore} {call : Nat} {store : MessageStore} {now id : Int}
    {p : SendRequest} {items : MessageStore → List CapturedItem}
    (h : s.commitSend call store now id p items = some t) :
    ∃ sent result, store.sendPreparedMessage now id p = .ok (sent, .created result) ∧
      t = { s.commit sent with
        hasAttachments := s.hasAttachments.upsert id (decide (p.attachmentIds ≠ []))
        captures := s.captures.erase call
        captured := s.captured ++ items sent } := by
  unfold commitSend at h
  split at h
  · next sent result hsend => exact ⟨sent, result, hsend, (Option.some.inj h).symm⟩
  · cases h

theorem captures_erase {s : CaptureStore} {call k : Nat} {capture : Capture}
    (h : (s.captures.erase call).row k = some capture) : s.captures.row k = some capture :=
  (Table.row_of_erase h).2

/-- An item of a call that ends now: right if it is of a locked source, or in a calm run. -/
def NewItem (s : CaptureStore) (item : CapturedItem) : Prop :=
  item.ended = s.committed.length ∧ (item.copyId.isSome ∨ Calmed s →
    Shown (s.committed.drop item.since) item.source item.version)

/-- The end of a call. -/
structure Finished (s t : CaptureStore) : Prop where
  good : Good t
  moves : Moves s t none
  captures : ∀ k capture, t.captures.row k = some capture → s.captures.row k = some capture
  items : ∀ item ∈ t.captured, item ∈ s.captured ∨ NewItem s item

theorem Finished.calmed {s t : CaptureStore} (h : Finished s t) (hs : Calmed s) : Calmed t := by
  refine hs.of_moves h.moves ?_ (fun k capture hk => .inl (h.captures k capture hk)) ?_
  · intro k capture _ source _ heq
    cases heq
  · intro item hitem
    obtain hold | ⟨hended, hshown⟩ := h.items item hitem
    · exact .inl hold
    · exact .inr (faithful_of_shown h.moves hended (hshown (.inr hs)))

/-- The commit of a call that sends a message; `store` has what its send builds on. -/
theorem Good.commitSend {s t : CaptureStore} {call : Nat} {store : MessageStore} {now id : Int}
    {p : SendRequest} {items : MessageStore → List CapturedItem} (h : Good s)
    (hbase : Base store s.committed s.hasAttachments) (hadvance : Advance s.store store none)
    (horigin : ∀ origin, p.forwardedFromMessageId = some origin →
      Attributed store s.committed origin p.messageType p.storedMessage)
    (hitems : ∀ sent, Inserted store sent id p → ∀ item ∈ items sent, NewItem s item)
    (hc : s.commitSend call store now id p items = some t) : Finished s t := by
  obtain ⟨sent, result, hsend, rfl⟩ := commitSend_spec hc
  have hi := inserted_of_send hbase.constraints hsend
  have hlast := hi.advance hbase.constraints
  have hm : Moves s { s.commit sent with
      hasAttachments := s.hasAttachments.upsert id (decide (p.attachmentIds ≠ []))
      captures := s.captures.erase call
      captured := s.captured ++ items sent } none := by
    refine ⟨⟨fun k m hrow hne => ?_, fun k c hcol => hlast.columns k c (hadvance.columns k c hcol),
      hlast.stickers.trans hadvance.stickers⟩, [sent], rfl⟩
    obtain ⟨m', hm', hpayload⟩ := hadvance.content k m hrow hne
    obtain ⟨m'', hm'', hpayload'⟩ := hlast.content k m' hm' hne
    exact ⟨m'', hm'', hpayload'.trans hpayload⟩
  have hnew : ∀ item ∈ s.captured ++ items sent, item ∈ s.captured ∨ NewItem s item :=
    fun item hitem => (List.mem_append.mp hitem).imp_right (hitems sent hi item)
  refine ⟨?_, hm, fun k capture hk => captures_erase hk, hnew⟩
  refine h.of_moves hm (hbase.inserted hi horigin) ⟨s.committed, rfl⟩ ?_
    (fun k capture hk => .inl (captures_erase hk)) fun item hitem => ?_
  · intro k capture locked _ _ heq
    cases heq
  · obtain hold | ⟨hended, hshown⟩ := hnew item hitem
    · exact .inl hold
    · exact .inr fun hcopy => faithful_of_shown hm hended (hshown (.inl hcopy))

theorem Base.withBundles {s : MessageStore} {committed : List MessageStore}
    {flags : Table Int Bool} (h : Base s committed flags)
    (forwardedBundles : Table Int ForwardedBundle) :
    Base { s with forwardedBundles := forwardedBundles } committed flags where
  constraints := ⟨h.constraints.unique, h.constraints.columns, h.constraints.attachments⟩
  stickers := h.stickers
  plain := h.plain
  flags := h.flags
  origins id c origin hc hforward := by
    obtain ⟨m, hm, hattributed⟩ := h.origins id c origin hc hforward
    exact ⟨m, hm, hattributed.root, hattributed.said⟩

theorem Good.current_mem {s : CaptureStore} (h : Good s) : s.store ∈ s.committed := by
  obtain ⟨past, hpast⟩ := h.current
  rw [hpast]
  exact List.mem_append_right _ (List.mem_singleton.mpr rfl)

theorem Good.finishBundle {s t : CaptureStore} {call : Nat} {now id bundleId : Int}
    {uid chatId : Int} {body : ForwardMessagesBody} {items : List ForwardedBundlePayloadItem}
    {since : Nat} {preview : ForwardedMessagesPreviewSnapshot} {bundles : Table Int ForwardedBundle}
    (h : Good s) (hrow : s.captures.row call = some (.pending (.bundle uid chatId body items) since))
    (hf : s.commitSend call { s.store with forwardedBundles := bundles } now id
      (preparedForwardMessage chatId uid body bundleId preview).request
      (fun _ => items.filterMap fun item => (itemVersion item).map fun version =>
        ⟨item.originalMessageId, version, none, since, s.committed.length⟩) = some t) :
    Finished s t := by
  refine h.commitSend (h.base.withBundles bundles)
    ⟨fun k m hm _ => ⟨m, hm, rfl⟩, fun k c hc => hc, rfl⟩ (fun origin horigin => by cases horigin)
    (fun sent hi item hitem => ?_) hf
  obtain ⟨payload, hpayload, hversion⟩ := List.mem_filterMap.mp hitem
  obtain ⟨v, hv, rfl⟩ := Option.map_eq_some_iff.mp hversion
  refine ⟨rfl, fun hcalm => ?_⟩
  obtain hcopy | hcalm := hcalm
  · cases hcopy
  · exact hcalm.reads call _ hrow payload hpayload v hv

theorem Good.finishCopy {s t : CaptureStore} {call : Nat} {now id uid chatId : Int}
    {body : ForwardMessageBody} {source : SourceMessage} {attachments : List (Int × Attachment)}
    {since : Nat} {cloneIds : List Int} (h : Good s)
    (hrow : s.captures.row call =
      some (.pending (.copy uid chatId body source attachments) since))
    (hnodup : cloneIds.Nodup) (hlength : cloneIds.length = attachments.length)
    (hfresh : ∀ cloneId ∈ cloneIds, s.store.system.db.attachments.row cloneId = none)
    (hf : s.commitSend call (insertClones s.store uid (cloneIds.zip attachments)) now id
      (copyRequest uid chatId body source cloneIds)
      (fun sent => (version sent id).toList.map fun version =>
        ⟨source.id, version, some id, since, s.committed.length⟩) = some t) : Finished s t := by
  have hids : (cloneIds.zip attachments).map Prod.fst = cloneIds :=
    List.map_fst_zip (Nat.le_of_eq hlength)
  have hclones : (cloneIds.zip attachments).map Prod.snd = attachments :=
    List.map_snd_zip (Nat.le_of_eq hlength.symm)
  have hdistinct : ((cloneIds.zip attachments).map Prod.fst).Nodup := by
    rw [hids]
    exact hnodup
  obtain ⟨hmatches, hshown⟩ := h.locks call _ hrow
  refine h.commitSend (h.base.insertClones hdistinct (by rw [hids]; exact hfresh))
    ⟨fun k m hm _ => ⟨m, hm, rfl⟩, fun k c hc => hc, rfl⟩ (fun origin horigin => ?_)
    (fun sent hi item hitem => ?_) hf
  · obtain rfl : originId source = origin := Option.some.inj horigin
    obtain ⟨hroot, hsaid⟩ := attributed_originId h.base h.current_mem hmatches
    refine ⟨hroot, fun htype => ?_⟩
    obtain ⟨row, hsource, hpayload⟩ := hmatches.row
    obtain ⟨row', hrow', hplain⟩ := h.base.plain _ _ hmatches.columns
    obtain rfl := Option.some.inj (hrow'.symm.trans hsource)
    rw [SendRequest.storedMessage]
    split
    · next hsticker =>
      rw [← hplain ((messageType_of_payload hpayload).trans hsticker),
        message_of_payload hpayload]
      exact hsaid htype
    · exact hsaid htype
  · rw [version_copy h.base hdistinct hids.symm hmatches hi, hclones] at hitem
    obtain rfl := List.mem_singleton.mp hitem
    exact ⟨rfl, fun _ => hshown⟩

theorem Good.finish {s t : CaptureStore} {call : Nat} {now id bundleId : Int}
    {cloneIds : List Int} (h : Good s) (hf : s.finish call now id bundleId cloneIds = some t) :
    Finished s t := by
  have hstay : Advance s.store s.store none :=
    ⟨fun k m hm _ => ⟨m, hm, rfl⟩, fun k c hc => hc, rfl⟩
  unfold CaptureStore.finish at hf
  split at hf
  · next uid chatId body items since hrow =>
    split at hf
    · cases hf
    · exact h.finishBundle hrow hf
  · next uid chatId body source attachments since hrow =>
    split at hf
    · next hclones => exact h.finishCopy hrow hclones.1 hclones.2.1 hclones.2.2 hf
    · cases hf
  · next uid chatId body source reason since hrow =>
    refine h.commitSend h.base hstay (fun origin horigin => ?_)
      (fun sent hi item hitem => by cases hitem) hf
    obtain rfl : originId source = origin := Option.some.inj horigin
    have hmatches : Matches s.store source := h.locks call _ hrow
    exact ⟨(attributed_originId h.base h.current_mem hmatches).root,
      fun htype => absurd rfl htype⟩
  · next uid messageId row since hrow =>
    have herase : ∀ k capture, (s.captures.erase call).row k = some capture →
        s.captures.row k = some capture := fun k capture hk => captures_erase hk
    split at hf
    · obtain rfl := Option.some.inj hf
      exact ⟨h.of_captures rfl rfl rfl rfl fun k capture hk => .inl (herase k capture hk),
        .rfl_of_store rfl rfl, herase, fun item hitem => .inl hitem⟩
    · obtain rfl := Option.some.inj hf
      have hnew : ∀ item ∈ s.captured ++ [⟨messageId, row.version, none, since,
          s.committed.length⟩], item ∈ s.captured ∨ NewItem s item := by
        intro item hitem
        refine (List.mem_append.mp hitem).imp_right fun hlast => ?_
        obtain rfl := List.mem_singleton.mp hlast
        refine ⟨rfl, fun hcalm => ?_⟩
        obtain hcopy | hcalm := hcalm
        · cases hcopy
        · exact hcalm.reads call _ hrow
      have hm : Moves s { s with
          saved := s.saved.upsert (uid, messageId) row
          captures := s.captures.erase call
          captured := s.captured ++ [⟨messageId, row.version, none, since,
            s.committed.length⟩] } none := .rfl_of_store rfl rfl
      refine ⟨h.of_moves hm h.base h.current ?_
        (fun k capture hk => .inl (herase k capture hk)) ?_, hm, herase, hnew⟩
      · intro k capture locked _ _ heq
        cases heq
      · intro item hitem
        obtain hold | ⟨hended, hshown⟩ := hnew item hitem
        · exact .inl hold
        · exact .inr fun hcopy => faithful_of_shown hm hended (hshown (.inl hcopy))
  · cases hf

/-- No source of a call that has read its row, and not yet its attachments, gets another text. A
single forward holds the lock of its source and needs no such condition. -/
def Calm (s : CaptureStore) : CaptureEvent → Prop
  | .write e => ∀ call capture, s.captures.row call = some capture →
      ∀ source ∈ capture.sources, rewritten s.store e ≠ some source.id
  | _ => True

theorem exists_of_toOption {α : Type*} {x : Except AppError α} {a : α}
    (h : x.toOption = some a) : x = .ok a := by
  cases x with
  | error e => cases h
  | ok b => exact congrArg Except.ok (Option.some.inj h)

theorem Good.step {s t : CaptureStore} {e : CaptureEvent} (h : Good s)
    (hstep : s.step e = some t) : Good t := by
  cases e with
  | write e => exact h.write hstep
  | cleanupBatch now chatId targetUid scope => exact h.cleanupBatch hstep
  | selectSources call uid destinationChatId body =>
    simp only [CaptureStore.step] at hstep
    split at hstep
    · cases hstep
    · obtain rfl | ⟨canonical, rfl⟩ := selectSources_spec (exists_of_toOption hstep)
      · exact h
      · exact h.starts call trivial
  | lockSource call uid destinationChatId messageId body =>
    simp only [CaptureStore.step] at hstep
    split at hstep
    · cases hstep
    · obtain rfl | ⟨source, hmatches, ⟨reason, rfl⟩ | rfl⟩ :=
        lockSource_spec (exists_of_toOption hstep)
      · exact h
      · exact h.starts call hmatches
      · exact h.starts call ⟨Nat.le_refl _, hmatches⟩
  | loadSource call uid messageId =>
    simp only [CaptureStore.step] at hstep
    split at hstep
    · cases hstep
    · obtain rfl | ⟨source, flag, hsource, hflag, rfl⟩ :=
        loadSource_spec (exists_of_toOption hstep)
      · exact h
      · exact h.starts call trivial
  | capture call savedAt => exact h.capture hstep
  | finish call now id bundleId cloneIds => exact (h.finish hstep).good
  | abort call =>
    obtain rfl := Option.some.inj hstep
    exact h.of_captures rfl rfl rfl rfl fun k capture hk => .inl (captures_erase hk)

theorem Calmed.step {s t : CaptureStore} {e : CaptureEvent} (hg : Good s) (h : Calmed s)
    (hcalm : Calm s e) (hstep : s.step e = some t) : Calmed t := by
  cases e with
  | write e =>
    obtain ⟨he, -, store, hnext, rfl⟩ := write_spec hstep
    refine h.of_moves (moves_write hg he hnext _) ?_ (fun _ _ hrow => .inl hrow)
      fun _ hitem => .inl hitem
    intro call capture hrow source hsource heq
    exact hcalm call capture hrow source hsource heq.symm
  | cleanupBatch now chatId targetUid scope => exact Calmed.cleanupBatch hg h hstep
  | selectSources call uid destinationChatId body =>
    simp only [CaptureStore.step] at hstep
    split at hstep
    · cases hstep
    · obtain rfl | ⟨canonical, rfl⟩ := selectSources_spec (exists_of_toOption hstep)
      · exact h
      · exact h.starts call
          ⟨Nat.le_refl _, fun source hsource => matches_sourceMessages hsource⟩
  | lockSource call uid destinationChatId messageId body =>
    simp only [CaptureStore.step] at hstep
    split at hstep
    · cases hstep
    · obtain rfl | ⟨source, hmatches, ⟨reason, rfl⟩ | rfl⟩ :=
        lockSource_spec (exists_of_toOption hstep)
      · exact h
      · exact h.starts call trivial
      · exact h.starts call trivial
  | loadSource call uid messageId =>
    simp only [CaptureStore.step] at hstep
    split at hstep
    · cases hstep
    · obtain rfl | ⟨source, flag, hsource, hflag, rfl⟩ :=
        loadSource_spec (exists_of_toOption hstep)
      · exact h
      · exact h.starts call (readHolds_loaded hg hsource hflag)
  | capture call savedAt => exact Calmed.capture hg h hstep
  | finish call now id bundleId cloneIds => exact (hg.finish hstep).calmed h
  | abort call =>
    obtain rfl := Option.some.inj hstep
    exact h.of_captures rfl rfl rfl fun k capture hk => .inl (captures_erase hk)

/-- Tables whose forwards are attributed, and no call under way. -/
structure Fresh (s : CaptureStore) : Prop where
  base : Base s.store [s.store] s.hasAttachments
  committed : s.committed = [s.store]
  captures : ∀ call, s.captures.row call = none
  captured : s.captured = []

theorem Fresh.good {s : CaptureStore} (h : Fresh s) : Good s where
  base := h.committed ▸ h.base
  current := ⟨[], h.committed⟩
  locks call capture hrow := by
    rw [h.captures call] at hrow
    cases hrow
  copies item hitem := by
    rw [h.captured] at hitem
    cases hitem

theorem Fresh.calmed {s : CaptureStore} (h : Fresh s) : Calmed s where
  reads call capture hrow := by
    rw [h.captures call] at hrow
    cases hrow
  items item hitem := by
    rw [h.captured] at hitem
    cases hitem

theorem run_good {s t : CaptureStore} {es : List CaptureEvent} (hs : Fresh s)
    (h : run step s es = some t) : Good t :=
  run_invariant (fun _ _ _ hi ht => Good.step hi ht) hs.good h

theorem run_calmed {s t : CaptureStore} {es : List CaptureEvent} (hs : Fresh s)
    (hcalm : Along step Calm s es) (h : run step s es = some t) : Calmed t :=
  (run_invariant_along (I := fun s => Good s ∧ Calmed s)
    (fun _ _ _ hi hok ht => ⟨hi.1.step ht, hi.2.step hi.1 hok ht⟩) ⟨hs.good, hs.calmed⟩ hcalm h).2

/-- A single forward is one version of its source, in every run, and every forward is attributed
to a message that is none and has said its words; the items of bundles and the saved messages are
one version in every run where no source is given another text between the two reads. -/
theorem copies_are_one_version {s t : CaptureStore} {es : List CaptureEvent} (hs : Fresh s)
    (h : run step s es = some t) :
    (∀ item ∈ t.captured, item.copyId.isSome → Faithful t item) ∧
    (∀ id c origin, t.store.columns.row id = some c → c.forwardedFromMessageId = some origin →
      (∃ root, t.store.columns.row origin = some root ∧ root.forwardedFromMessageId = none) ∧
      ∀ m, t.store.system.db.messages.row id = some m → m.messageType ≠ .placeholder →
        Said t.committed origin m.message) ∧
    (Along step Calm s es → ∀ item ∈ t.captured, Faithful t item) := by
  have hgood := run_good hs h
  refine ⟨fun item hitem hcopy => (hgood.copies item hitem hcopy).1, ?_,
    fun hcalm item hitem => ((run_calmed hs hcalm h).items item hitem).1⟩
  intro id c origin hc hforward
  obtain ⟨row, hrow, hattributed⟩ := hgood.base.origins id c origin hc hforward
  refine ⟨hattributed.root, fun m hm htype => ?_⟩
  obtain rfl := Option.some.inj (hrow.symm.trans hm)
  exact hattributed.said htype

/-- A chat of one member, who has uploaded a picture. -/
def captureStart : CaptureStore :=
  .start
    { system := .start { Database.newGroup 1 [(7, .member)] with
        attachments := .ofList [(100,
          { messageId := none
            uploaderUid := some 7
            fileName := "cat.png"
            kind := "image/png"
            externalReference := "cat"
            size := 5
            width := none
            height := none
            order := 0
            deletedAt := none })] }
      columns := .empty
      forwardedBundles := .empty
      stickers := .empty } .empty

def textRequest (clientGeneratedId text : String) : SendRequest where
  systemKind := none
  forwardedFromMessageId := none
  chatId := 1
  senderUid := 7
  message := some text
  messageType := .text
  replyToId := none
  replyRootId := none
  attachmentIds := []
  publishImmediately := true
  clientGeneratedId := clientGeneratedId
  stickerId := none
  forwardedBundleId := none

theorem captureStart_fresh : Fresh captureStart where
  base :=
    { constraints :=
        { unique := fun i j ci cj hi => by cases hi
          columns := fun i c hi => by cases hi
          attachments := by
            intro a row i hrow hi
            have hmem := Table.mem_of_ofList_row hrow
            obtain ⟨-, rfl⟩ := Prod.mk.inj (List.mem_singleton.mp hmem)
            cases hi }
      stickers := fun past hpast => by rw [List.mem_singleton.mp hpast]
      plain := fun id c hc => by cases hc
      flags := fun id hid => by cases hid
      origins := fun id c origin hc => by cases hc }
  committed := rfl
  captures := fun _ => rfl
  captured := rfl

/-- A forward of a message that is then saved, with a send between the reads of the save. -/
def calmRun : List CaptureEvent :=
  [.write (.send 5 10 (textRequest "a" "hello")),
    .lockSource 0 7 1 10 ⟨1, "b", none, false⟩, .capture 0 6, .finish 0 6 11 0 [],
    .loadSource 1 7 11, .write (.send 7 12 (textRequest "c" "look")), .capture 1 7,
    .finish 1 7 0 0 []]

theorem copies_are_one_version_saved : ∃ t, run step captureStart calmRun = some t ∧
    t.captured.length = 2 ∧ ∀ item ∈ t.captured, Faithful t item := by
  have hcalm : Along step Calm captureStart calmRun := by
    refine .cons rfl ?_ (.cons rfl trivial (.cons rfl trivial (.cons rfl trivial
      (.cons rfl trivial (.cons rfl ?_ (.cons rfl trivial (.cons rfl trivial trivial)))))))
    · intro call capture hrow
      cases hrow
    · intro call capture hrow source hsource heq
      cases heq
  exact ⟨_, rfl, rfl, (copies_are_one_version captureStart_fresh rfl).2.2 hcalm⟩

/-- A bundle reads a row, the message is edited, and the bundle reads its new attachments. -/
def mixedRun : List CaptureEvent :=
  [.write (.send 5 10 (textRequest "a" "hello")), .write (.send 6 11 (textRequest "b" "bye")),
    .selectSources 0 7 1 ⟨1, [10, 11], "c", none, false⟩,
    .write (.edit 7 7 1 10 ⟨"look", [100]⟩), .capture 0 8, .finish 0 8 12 50 []]

theorem bundle_mixes_versions : ¬∀ (s t : CaptureStore) (es : List CaptureEvent), Fresh s →
    run step s es = some t → ∀ item ∈ t.captured, Faithful t item := by
  intro hclaim
  obtain ⟨t, ht, hitem, hstates⟩ : ∃ t, run step captureStart mixedRun = some t ∧
      (∃ item ∈ t.captured, item.source = 10 ∧
        ((t.committed.take item.ended).drop item.since).all (fun s =>
          decide (version s item.source ≠ some item.version)) = true) ∧ True :=
    ⟨_, rfl, ⟨_, List.mem_cons_self, rfl, rfl⟩, trivial⟩
  obtain ⟨item, hmem, -, hall⟩ := hitem
  obtain ⟨past, hpast, hversion⟩ := hclaim captureStart t mixedRun captureStart_fresh ht item hmem
  exact of_decide_eq_true (List.all_eq_true.mp hall past hpast) hversion

end Chahua.Captures

import Chahua.Messages.ExactlyOnce

namespace Chahua.Messages

open Framework

theorem pairwise_lt_of_hasEqualNeighbours {ids : List Int} (hsorted : ids.Pairwise (· ≤ ·))
    (h : hasEqualNeighbours ids = false) : ids.Pairwise (· < ·) := by
  induction ids with
  | nil => exact .nil
  | cons a ids ih =>
    obtain ⟨hle, hrest⟩ := List.pairwise_cons.mp hsorted
    cases ids with
    | nil => simp
    | cons b ids =>
      simp only [hasEqualNeighbours, Bool.or_eq_false_iff, decide_eq_false_iff_not] at h
      have htail := ih hrest h.2
      refine List.pairwise_cons.mpr ⟨fun c hc => ?_, htail⟩
      have hab : a < b := lt_of_le_of_ne (hle b (by simp)) h.1
      rcases List.mem_cons.mp hc with rfl | hc
      · exact hab
      · exact hab.trans ((List.pairwise_cons.mp htail).1 c hc)

theorem canonicalForwardMessageIds_spec {ids canonical : List Int}
    (h : canonicalForwardMessageIds ids = .ok canonical) :
    canonical.Pairwise (· < ·) ∧ canonical.Perm ids ∧ 2 ≤ canonical.length := by
  unfold canonicalForwardMessageIds at h
  split at h
  · cases h
  · next hlength =>
    split at h
    · cases h
    · simp only at h
      split at h
      · cases h
      · next hdistinct =>
        obtain rfl := Except.ok.inj h
        have hperm := List.perm_insertionSort (· ≤ ·) ids
        refine ⟨pairwise_lt_of_hasEqualNeighbours (List.pairwise_insertionSort _ ids)
          (by simpa using hdistinct), hperm, ?_⟩
        rw [hperm.length_eq]
        omega

theorem mem_dropRepeats {ids : List Int} {id : Int} : id ∈ dropRepeats ids ↔ id ∈ ids := by
  fun_induction dropRepeats ids with
  | case1 a ids ih => rw [ih]; simp
  | case2 a b ids hne ih => rw [List.mem_cons, ih, List.mem_cons (a := id) (b := a)]
  | case3 => rfl

theorem pairwise_dropRepeats {ids : List Int} (h : ids.Pairwise (· ≤ ·)) :
    (dropRepeats ids).Pairwise (· < ·) := by
  fun_induction dropRepeats ids with
  | case1 a ids ih => exact ih (List.pairwise_cons.mp h).2
  | case2 a b ids hne ih =>
    obtain ⟨hle, hrest⟩ := List.pairwise_cons.mp h
    refine List.pairwise_cons.mpr ⟨fun c hc => ?_, ih hrest⟩
    have hab : a < b := lt_of_le_of_ne (hle b (by simp)) hne
    rcases List.mem_cons.mp (mem_dropRepeats.mp hc) with rfl | hc
    · exact hab
    · exact hab.trans_le ((List.pairwise_cons.mp hrest).1 c hc)
  | case3 ids hshort =>
    match ids, hshort with
    | [], _ => exact .nil
    | [a], _ => simp
    | a :: b :: ids, hshort => exact absurd rfl (hshort a b ids)

/-- The children of a bundle: its references, each once, in order. -/
theorem directChildBundleIds_spec (items : List ForwardedBundlePayloadItem) :
    (directChildBundleIds items).Pairwise (· < ·) ∧ ∀ id, id ∈ directChildBundleIds items ↔
      ∃ item ∈ items, item.bundleReference = some id := by
  refine ⟨pairwise_dropRepeats (List.pairwise_insertionSort _ _), fun id => ?_⟩
  rw [directChildBundleIds, mem_dropRepeats, List.mem_insertionSort, List.mem_filterMap]

/-- What an item holds of its source. -/
structure Captured (forwardedBundles : Table Int ForwardedBundle) (selectedMessageIds : List Int)
    (source : SourceMessage) (item : ForwardedBundlePayloadItem) : Prop where
  messageId : item.originalMessageId = source.id
  chatId : item.originalChatId = source.message.chatId
  reply : item.reply = buildForwardedReplySnapshot source.message.replyToId selectedMessageIds
  flat : ∀ id, item.bundleReference = some id →
    ∃ child, forwardedBundles.row id = some child ∧ child.childBundleIds = []
  placeholder : ∀ snapshot, item = .messageSnapshot snapshot →
    snapshot.messageType = .placeholder → (∃ reason : ForwardPlaceholder,
      snapshot.message = some reason.asStr) ∧ snapshot.attachments = [] ∧
        snapshot.mentionUids = [] ∧ snapshot.sticker = none

theorem sourcePlaceholder_none {message : Message} {allowPlaceholders : Bool}
    (h : sourcePlaceholder message allowPlaceholders = .ok none) :
    message.messageType ≠ .placeholder := by
  intro htype
  unfold sourcePlaceholder at h
  split at h
  · cases h
  · split at h
    · cases h
    · split at h <;> cases h

theorem captureItem_spec {db : Database} {forwardedBundles : Table Int ForwardedBundle}
    {stickers : Table Int ForwardedStickerSnapshot} {sources : List SourceMessage}
    {selectedMessageIds : List Int} {source : SourceMessage} {reason : Option ForwardPlaceholder}
    {item : ForwardedBundlePayloadItem}
    (hplain : reason = none → source.message.messageType ≠ .placeholder)
    (hflat : reason = none → nestsForward forwardedBundles sources source = false)
    (h : captureItem db stickers (referencedBundlePreview forwardedBundles sources)
      selectedMessageIds source reason = .ok item) :
    Captured forwardedBundles selectedMessageIds source item := by
  unfold captureItem at h
  cases reason with
  | some reason =>
    obtain rfl := Except.ok.inj h
    refine ⟨rfl, rfl, rfl, by simp [ForwardedBundlePayloadItem.bundleReference], ?_⟩
    rintro snapshot hsnapshot -
    obtain rfl := ForwardedBundlePayloadItem.messageSnapshot.inj hsnapshot
    exact ⟨⟨reason, rfl⟩, rfl, rfl, rfl⟩
  | none =>
    simp only at h
    split at h
    · unfold buildForwardedBundleRefSnapshot at h
      split at h
      · cases h
      · next bundleId hbundle =>
        split at h
        · cases h
        · next preview hpreview =>
          obtain rfl := Except.ok.inj h
          refine ⟨rfl, rfl, rfl, ?_, by simp⟩
          rintro id hid
          obtain rfl := Option.some.inj hid
          have hnests := hflat rfl
          simp only [nestsForward, hbundle, Option.bind_some, hpreview, Option.any_some] at hnests
          unfold referencedBundlePreview at hpreview
          split at hpreview
          · obtain ⟨child, hchild, rfl⟩ := Option.map_eq_some_iff.mp hpreview
            refine ⟨child, hchild, ?_⟩
            simpa [ForwardedBundle.previewSnapshot] using hnests
          · cases hpreview
    · unfold buildForwardedMessageSnapshot at h
      have hsnapshot : ∀ sticker : Option ForwardedStickerSnapshot,
          Captured forwardedBundles selectedMessageIds source (.messageSnapshot
            { originalMessageId := source.id
              originalChatId := source.message.chatId
              message := source.message.message
              messageType := source.message.messageType
              senderUid := source.message.senderUid
              originalCreatedAt := source.message.createdAt
              sticker := sticker
              reply := buildForwardedReplySnapshot source.message.replyToId selectedMessageIds
              attachments := db.loadForwardedAttachmentSnapshots source.id
              mentionUids := source.message.message.elim [] extractMentionUids }) := by
        intro sticker
        refine ⟨rfl, rfl, rfl, by simp [ForwardedBundlePayloadItem.bundleReference], ?_⟩
        rintro snapshot hsnapshot htype
        obtain rfl := ForwardedBundlePayloadItem.messageSnapshot.inj hsnapshot
        exact absurd htype (hplain rfl)
      simp only at h
      split at h
      · obtain rfl := Except.ok.inj h
        exact hsnapshot none
      · split at h
        · next sticker _ =>
          obtain rfl := Except.ok.inj h
          exact hsnapshot (some sticker)
        · cases h

theorem capturePlaceholders_spec {forwardedBundles : Table Int ForwardedBundle}
    {sources : List SourceMessage} {allowPlaceholders : Bool}
    {marked : List (SourceMessage × Option ForwardPlaceholder)}
    (h : capturePlaceholders forwardedBundles sources allowPlaceholders = .ok marked) :
    List.Forall₂ (fun source entry => entry.1 = source ∧
      (entry.2 = none → source.message.messageType ≠ .placeholder ∧
        nestsForward forwardedBundles sources source = false)) sources marked := by
  unfold capturePlaceholders at h
  split at h
  · cases h
  · next first hfirst =>
    split at h
    · cases h
    split at h
    · cases h
    obtain rfl := Except.ok.inj h
    rw [List.forall₂_map_right_iff]
    refine (collect_eq_ok.mp hfirst).imp fun source entry hentry => ?_
    cases hreason : sourcePlaceholder source.message allowPlaceholders with
    | error e => simp [hreason, Except.map] at hentry
    | ok reason =>
      obtain rfl : (source, reason) = entry := by simpa [hreason, Except.map] using hentry
      refine ⟨rfl, fun hnone => ?_⟩
      dsimp only at hnone
      split at hnone
      · cases hnone
      · next hnests =>
        subst hnone
        exact ⟨sourcePlaceholder_none hreason, by simpa using hnests⟩

/-- Every item is captured from its source, in order. -/
theorem captureForwardedBundleItems_spec {db : Database}
    {forwardedBundles : Table Int ForwardedBundle}
    {stickers : Table Int ForwardedStickerSnapshot} {sources : List SourceMessage}
    {allowPlaceholders : Bool} {items : List ForwardedBundlePayloadItem}
    (h : captureForwardedBundleItems db forwardedBundles stickers sources allowPlaceholders =
      .ok items) :
    List.Forall₂ (Captured forwardedBundles (sources.map (·.id))) sources items := by
  unfold captureForwardedBundleItems at h
  split at h
  · cases h
  · next marked hmarked =>
    have hentries := capturePlaceholders_spec hmarked
    have hitems := collect_eq_ok.mp h
    clear h hmarked
    generalize hselected : sources.map (·.id) = selected at hitems ⊢
    clear hselected
    generalize hall : sources = all at hitems hentries
    have hpairs : ∀ rest : List SourceMessage, List.Forall₂ (fun source entry => entry.1 = source ∧
        (entry.2 = none → source.message.messageType ≠ .placeholder ∧
          nestsForward forwardedBundles all source = false)) rest marked →
        List.Forall₂ (Captured forwardedBundles selected) rest items := by
      intro rest hrest
      clear hentries
      induction hitems generalizing rest with
      | nil => cases hrest; exact .nil
      | cons hitem _ ih =>
        cases hrest with
        | cons hentry hrest =>
          obtain ⟨rfl, hnone⟩ := hentry
          exact .cons (captureItem_spec (fun hr => (hnone hr).1) (fun hr => (hnone hr).2) hitem)
            (ih _ hrest)
    exact hpairs all hentries

/-- An ascending list that is no shorter than one it is part of is all of it. -/
theorem eq_of_ascending_subset {xs ys : List Int} (hx : xs.Pairwise (· < ·))
    (hy : ys.Pairwise (· < ·)) (hsub : ∀ x ∈ xs, x ∈ ys) (hlength : xs.length = ys.length) :
    xs = ys := by
  have hperm : xs.Perm ys := (List.subperm_of_subset (hx.imp ne_of_lt) hsub).perm_of_length_le
    hlength.ge
  exact hperm.eq_of_pairwise (fun a b _ _ hab hba => absurd hba hab.not_gt) hx hy

namespace MessageStore

theorem mem_sourceMessages {s : MessageStore} {uid sourceChatId : Int} {messageIds : List Int}
    {source : SourceMessage} (h : source ∈ s.sourceMessages uid sourceChatId messageIds) :
    source.id ∈ messageIds ∧ source.message.chatId = sourceChatId ∧
      s.system.db.messages.row source.id = some source.message ∧
      s.columns.row source.id = some source.columns := by
  obtain ⟨id, hid, hsource⟩ := List.mem_filterMap.mp h
  obtain ⟨m, hm, hp⟩ := Table.mem_select.mp (mem_ascending.mp hid)
  simp only [Bool.and_eq_true, decide_eq_true_eq] at hp
  split at hsource
  · next m' c hm' hc =>
    obtain rfl := Option.some.inj hsource
    obtain rfl := Option.some.inj (hm.symm.trans hm')
    exact ⟨hp.1.1.2, hp.1.1.1, hm', hc⟩
  · cases hsource

theorem sourceMessages_ids (s : MessageStore) (uid sourceChatId : Int) (messageIds : List Int) :
    ((s.sourceMessages uid sourceChatId messageIds).map (·.id)).Pairwise (· < ·) := by
  unfold sourceMessages
  rw [List.map_filterMap]
  refine List.Pairwise.filterMap _ (fun a b hab id hid id' hid' => ?_) (pairwise_ascending _)
  obtain ⟨source, hsource, rfl⟩ := Option.map_eq_some_iff.mp hid
  obtain ⟨source', hsource', rfl⟩ := Option.map_eq_some_iff.mp hid'
  split at hsource
  · split at hsource'
    · cases hsource
      cases hsource'
      exact hab
    · cases hsource'
  · cases hsource

/-- A new forward stores one bundle: what it captured of the canonical selection. -/
theorem captureForward_spec {s t : MessageStore} {now bundleId uid destinationChatId : Int}
    {body : ForwardMessagesBody} {canonical : List Int} {prepared : PreparedForward}
    (hcanonical : canonical.Pairwise (· < ·))
    (h : s.captureForward now bundleId uid destinationChatId body canonical = .ok (t, prepared)) :
    ∃ sources items, sources = s.sourceMessages uid body.sourceChatId canonical ∧
      sources.map (·.id) = canonical ∧
      List.Forall₂ (Captured s.forwardedBundles canonical) sources items ∧
      s.forwardedBundles.row bundleId = none ∧
      t = { s with
        forwardedBundles := s.forwardedBundles.upsert bundleId (newBundle now uid items) } ∧
      ∃ preview, prepared = preparedForwardMessage destinationChatId uid body bundleId preview := by
  simp only [captureForward] at h
  split at h
  · cases h
  split at h
  · cases h
  · next hlength =>
    split at h
    · cases h
    · next items hitems =>
      split at h
      · cases h
      · next hfresh =>
        obtain ⟨rfl, rfl⟩ := Prod.mk.inj (Except.ok.inj h)
        have hids : (s.sourceMessages uid body.sourceChatId canonical).map (·.id) = canonical := by
          refine eq_of_ascending_subset (sourceMessages_ids _ _ _ _) hcanonical (fun id hid => ?_)
            (by simpa using hlength)
          obtain ⟨source, hsource, rfl⟩ := List.mem_map.mp hid
          exact (mem_sourceMessages hsource).1
        have hcaptured := captureForwardedBundleItems_spec hitems
        rw [hids] at hcaptured
        exact ⟨_, items, rfl, hids, hcaptured, by simpa using hfresh, rfl, _, rfl⟩

/-- What holds of every stored bundle. -/
structure Sound (s : MessageStore) (bundle : ForwardedBundle) : Prop where
  children : bundle.childBundleIds.Pairwise (· < ·) ∧ ∀ id, id ∈ bundle.childBundleIds ↔
    ∃ item ∈ bundle.payload, item.bundleReference = some id
  flat : ∀ id ∈ bundle.childBundleIds,
    ∃ child, s.forwardedBundles.row id = some child ∧ child.childBundleIds = []
  ascending : (bundle.payload.map (·.originalMessageId)).Pairwise (· < ·)
  reply : ∀ item ∈ bundle.payload, ∃ m, s.system.db.messages.row item.originalMessageId = some m ∧
    item.reply = buildForwardedReplySnapshot m.replyToId
      (bundle.payload.map (·.originalMessageId))
  placeholder : ∀ snapshot, .messageSnapshot snapshot ∈ bundle.payload →
    snapshot.messageType = .placeholder → (∃ reason : ForwardPlaceholder,
      snapshot.message = some reason.asStr) ∧ snapshot.attachments = [] ∧
        snapshot.mentionUids = [] ∧ snapshot.sticker = none

/-- The items are those of the sources, in their order. -/
theorem captured_ids {forwardedBundles : Table Int ForwardedBundle} {selected : List Int}
    {sources : List SourceMessage} {items : List ForwardedBundlePayloadItem}
    (h : List.Forall₂ (Captured forwardedBundles selected) sources items) :
    items.map (·.originalMessageId) = sources.map (·.id) := by
  induction h with
  | nil => rfl
  | cons hitem _ ih => rw [List.map_cons, List.map_cons, hitem.messageId, ih]

theorem captured_source {forwardedBundles : Table Int ForwardedBundle} {selected : List Int}
    {sources : List SourceMessage} {items : List ForwardedBundlePayloadItem}
    (h : List.Forall₂ (Captured forwardedBundles selected) sources items)
    {item : ForwardedBundlePayloadItem} (hitem : item ∈ items) :
    ∃ source ∈ sources, Captured forwardedBundles selected source item := by
  induction h with
  | nil => cases hitem
  | cons hhead _ ih =>
    rcases List.mem_cons.mp hitem with rfl | hitem
    · exact ⟨_, List.mem_cons_self, hhead⟩
    · obtain ⟨source, hsource, hcaptured⟩ := ih hitem
      exact ⟨source, List.mem_cons_of_mem _ hsource, hcaptured⟩

theorem newBundle_sound {s : MessageStore} {now uid sourceChatId : Int} {canonical : List Int}
    {items : List ForwardedBundlePayloadItem} (hcanonical : canonical.Pairwise (· < ·))
    (hids : (s.sourceMessages uid sourceChatId canonical).map (·.id) = canonical)
    (hitems : List.Forall₂ (Captured s.forwardedBundles canonical)
      (s.sourceMessages uid sourceChatId canonical) items) : s.Sound (newBundle now uid items) := by
  have hselected : items.map (·.originalMessageId) = canonical := (captured_ids hitems).trans hids
  have hchildren := directChildBundleIds_spec items
  refine ⟨hchildren, fun id hid => ?_, ?_, fun item hitem => ?_, fun snapshot hsnapshot htype => ?_⟩
  · obtain ⟨item, hitem, href⟩ := (hchildren.2 id).mp hid
    obtain ⟨source, -, hcaptured⟩ := captured_source hitems hitem
    exact hcaptured.flat id href
  · rw [newBundle, hselected]
    exact hcanonical
  · obtain ⟨source, hsource, hcaptured⟩ := captured_source hitems hitem
    obtain ⟨-, -, hrow, -⟩ := mem_sourceMessages hsource
    refine ⟨source.message, by rw [hcaptured.messageId, hrow], ?_⟩
    rw [newBundle, hselected]
    exact hcaptured.reply
  · obtain ⟨source, -, hcaptured⟩ := captured_source hitems hsnapshot
    exact hcaptured.placeholder snapshot rfl htype

/-- Rows keep what they reply to, bundles stay as they were stored. -/
theorem Sound.mono {s t : MessageStore} {bundle : ForwardedBundle} (h : s.Sound bundle)
    (hrows : ∀ id m, s.system.db.messages.row id = some m →
      ∃ m', t.system.db.messages.row id = some m' ∧ rowIdentity m' = rowIdentity m)
    (hbundles : ∀ id b, s.forwardedBundles.row id = some b → t.forwardedBundles.row id = some b) :
    t.Sound bundle where
  children := h.children
  flat := fun id hid => by
    obtain ⟨child, hchild, hempty⟩ := h.flat id hid
    exact ⟨child, hbundles id child hchild, hempty⟩
  ascending := h.ascending
  reply := fun item hitem => by
    obtain ⟨m, hm, hreply⟩ := h.reply item hitem
    obtain ⟨m', hm', heq⟩ := hrows _ m hm
    have hreplyTo : m'.replyToId = m.replyToId := congrArg MessagePayload.replyToId heq
    exact ⟨m', hm', by rw [hreplyTo, hreply]⟩
  placeholder := h.placeholder

theorem prepareForwardMessage_cases {s t : MessageStore}
    {now bundleId uid destinationChatId : Int} {body : ForwardMessagesBody}
    {prepared : PreparedForward}
    (h : s.prepareForwardMessage now bundleId uid destinationChatId body = .ok (t, prepared)) :
    ∃ canonical, canonicalForwardMessageIds body.messageIds = .ok canonical ∧
      ((∃ existing, s.existing body.clientGeneratedId = some existing ∧ t = s) ∨
        s.existing body.clientGeneratedId = none ∧
          s.captureForward now bundleId uid destinationChatId body canonical =
            .ok (t, prepared)) := by
  unfold prepareForwardMessage at h
  split at h
  · cases h
  · next canonical hcanonical =>
    refine ⟨canonical, hcanonical, ?_⟩
    split at h
    · next existing hexisting =>
      cases hr : s.repeatForward existing uid destinationChatId body canonical with
      | error e =>
        rw [hr] at h
        cases h
      | ok prepared' =>
        rw [hr] at h
        exact .inl ⟨existing, hexisting, (Prod.mk.inj (Except.ok.inj h)).1.symm⟩
    · next hnone => exact .inr ⟨hnone, h⟩

theorem sendPreparedMessage_bundles {s t : MessageStore} {now id : Int} {p : SendRequest}
    {outcome : SendMessageOutcome} (h : s.sendPreparedMessage now id p = .ok (t, outcome)) :
    t.forwardedBundles = s.forwardedBundles := by
  rcases sendPreparedMessage_cases h with ⟨rfl, -⟩ | ⟨-, -, hinsert⟩
  · rfl
  · obtain ⟨db, sent, -, -, rfl⟩ := insertSend_spec hinsert
    rfl

/-- A step stores no bundle, or one sound bundle under a new id. -/
theorem step_bundles {s t : MessageStore} {e : StoreEvent} (h : s.step e = some t) :
    t.forwardedBundles = s.forwardedBundles ∨ ∃ id bundle, s.forwardedBundles.row id = none ∧
      s.Sound bundle ∧ t.forwardedBundles = s.forwardedBundles.upsert id bundle := by
  cases e with
  | send now id p =>
    left
    cases hr : s.sendPreparedMessage now id p with
    | error e => simp [step, hr, Except.toOption] at h
    | ok r =>
      obtain rfl : r.1 = t := by simpa [step, hr, Except.toOption] using h
      exact sendPreparedMessage_bundles hr
  | forward now id bundleId uid destinationChatId hidden body =>
    cases hr : s.forwardMessages now id bundleId uid destinationChatId hidden body with
    | error e => simp [step, hr, Except.toOption] at h
    | ok r =>
      obtain rfl : r = t := by simpa [step, hr, Except.toOption] using h
      obtain ⟨captured, prepared, sent, outcome, hprepare, hsend, -, -, -, hbundles⟩ :=
        forwardMessages_spec hr
      rw [hbundles, sendPreparedMessage_bundles hsend]
      obtain ⟨canonical, hcanonical, ⟨existing, -, rfl⟩ | ⟨-, hcapture⟩⟩ :=
        prepareForwardMessage_cases hprepare
      · exact .inl rfl
      · have hsorted := (canonicalForwardMessageIds_spec hcanonical).1
        obtain ⟨sources, items, rfl, hids, hitems, hfresh, rfl, -⟩ :=
          captureForward_spec hsorted hcapture
        exact .inr ⟨bundleId, _, hfresh, newBundle_sound hsorted hids hitems, rfl⟩
  | edit now uid chatId messageId body =>
    left
    cases hr : s.system.db.patchMessage s.columns now uid chatId messageId body with
    | error e => simp [step, patchMessage, hr, Except.toOption, Except.map] at h
    | ok db =>
      obtain rfl : _ = t := by
        simpa [step, patchMessage, hr, Except.toOption, Except.map] using h
      rfl
  | system e =>
    left
    simp only [step] at h
    split at h
    · obtain ⟨system, -, rfl⟩ := Option.map_eq_some_iff.mp h
      rfl
    · cases h
  | leave chatId uid =>
    left
    rw [← Option.some.inj h]

theorem step_bundle_row {s t : MessageStore} {e : StoreEvent} (h : s.step e = some t) {id : Int}
    {b : ForwardedBundle} (hb : s.forwardedBundles.row id = some b) :
    t.forwardedBundles.row id = some b := by
  rcases step_bundles h with heq | ⟨fresh, bundle, hfresh, -, heq⟩
  · rw [heq, hb]
  · have hne : id ≠ fresh := fun heq => by
      rw [← heq, hb] at hfresh
      cases hfresh
    rw [heq, Table.upsert_row_ne _ _ hne, hb]

/-- The message a forward produced, as a repetition of the forward finds it. -/
structure Forwarded (s : MessageStore) (id bundleId uid destinationChatId : Int)
    (body : ForwardMessagesBody) (canonical : List Int) : Prop where
  columns : s.columns.row id = some
    { clientGeneratedId := body.clientGeneratedId
      stickerId := none
      forwardedFromMessageId := none
      forwardedBundleId := some bundleId }
  message : ∃ m, s.system.db.messages.row id = some m ∧ m.senderUid = uid ∧
    m.chatId = destinationChatId ∧ m.replyRootId = body.threadId ∧ m.messageType = .forwarded
  bundle : ∃ b, s.forwardedBundles.row bundleId = some b ∧
    b.payload.map (·.originalMessageId) = canonical ∧
    ∀ item ∈ b.payload, item.originalChatId = body.sourceChatId

theorem Forwarded.step {s t : MessageStore} {e : StoreEvent}
    {id bundleId uid destinationChatId : Int} {body : ForwardMessagesBody} {canonical : List Int}
    (hs : s.Constraints) (hf : s.Forwarded id bundleId uid destinationChatId body canonical)
    (h : s.step e = some t) : t.Forwarded id bundleId uid destinationChatId body canonical := by
  have heffect := step_effect hs h
  obtain ⟨m, hm, hsender, hchat, hroot, htype⟩ := hf.message
  obtain ⟨b, hb, hpayload⟩ := hf.bundle
  obtain ⟨m', hm', heq⟩ := heffect.identity id m hm
  refine ⟨heffect.columns_row hm hf.columns, ⟨m', hm', ?_, ?_, ?_, ?_⟩,
    b, step_bundle_row h hb, hpayload⟩
  · exact (congrArg MessagePayload.senderUid heq).trans hsender
  · exact (congrArg MessagePayload.chatId heq).trans hchat
  · exact (congrArg MessagePayload.replyRootId heq).trans hroot
  · exact (congrArg MessagePayload.messageType heq).trans htype

end MessageStore

end Chahua.Messages

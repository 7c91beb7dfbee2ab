import Chahua.Stickers.Packs

namespace Chahua.Stickers

open Framework

def packIds (order : List StickerPackOrderItem) : List String := order.map (·.stickerPackId)

theorem packIds_touch (packId : String) (time : Int) (order : List StickerPackOrderItem) :
    packIds (touch packId time order) = packIds order := by
  induction order with
  | nil => rfl
  | cons item order ih =>
    unfold touch
    split
    · rfl
    · simpa [packIds] using ih

theorem any_eq_true_iff_mem {order : List StickerPackOrderItem} {packId : String} :
    order.any (fun item => item.stickerPackId == packId) = true ↔ packId ∈ packIds order := by
  simp [packIds]

theorem mem_packIds_put {order : List StickerPackOrderItem} {packId other : String} {time : Int} :
    other ∈ packIds (put order packId time) ↔ other = packId ∨ other ∈ packIds order := by
  unfold put
  split
  · next h =>
    rw [packIds_touch]
    constructor
    · exact Or.inr
    · intro hor
      rcases hor with rfl | hmem
      · exact any_eq_true_iff_mem.mp h
      · exact hmem
  · simp [packIds, or_comm]

theorem nodup_packIds_put {order : List StickerPackOrderItem} {packId : String} {time : Int}
    (h : (packIds order).Nodup) : (packIds (put order packId time)).Nodup := by
  unfold put
  split
  · rwa [packIds_touch]
  · next hany =>
    have hnot : packId ∉ packIds order := fun hmem => hany (any_eq_true_iff_mem.mpr hmem)
    have happ : packIds (order ++ [⟨packId, time⟩]) = packIds order ++ [packId] := by
      simp [packIds]
    rw [happ, ← List.concat_eq_append]
    exact h.concat hnot

theorem mem_packIds_removeOrder {order : List StickerPackOrderItem} {packId : Int}
    {other : String} : other ∈ packIds (removeOrder order packId) ↔
      other ≠ toString packId ∧ other ∈ packIds order := by
  simp only [packIds, removeOrder, List.mem_map, List.mem_filter, decide_eq_true_eq]
  constructor
  · rintro ⟨item, ⟨hmem, hne⟩, rfl⟩
    exact ⟨hne, item, hmem, rfl⟩
  · rintro ⟨hne, item, hmem, rfl⟩
    exact ⟨item, ⟨hmem, hne⟩, rfl⟩

theorem nodup_packIds_filter {order : List StickerPackOrderItem}
    (p : StickerPackOrderItem → Bool) (h : (packIds order).Nodup) :
    (packIds (order.filter p)).Nodup :=
  h.sublist (List.filter_sublist.map _)

theorem toString_inj {a b : Int} (ha : inI64 a = true) (hb : inI64 b = true)
    (h : toString a = toString b) : a = b := by
  have hparse := parseI64_toString ha
  rw [h, parseI64_toString hb] at hparse
  exact (Option.some.inj hparse).symm

/-- A turn of the loop stores at most the requested pack. -/
theorem mergeItem_cases (accessible : Finset Int) (current sorted : List StickerPackOrderItem)
    (incoming : UpdateStickerPackOrderItem) :
    (mergeItem accessible current sorted incoming).1 = current ∨
      ∃ id ∈ accessible, (mergeItem accessible current sorted incoming).1 =
        put current (toString id) incoming.lastUsedOn := by
  unfold mergeItem
  dsimp only
  split
  · exact Or.inl rfl
  · next id _ =>
    by_cases hacc : id ∈ accessible
    · rw [if_neg (not_not.mpr hacc)]
      split
      · split
        · exact Or.inl rfl
        · split
          · exact Or.inl rfl
          · exact Or.inr ⟨id, hacc, rfl⟩
      · exact Or.inr ⟨id, hacc, rfl⟩
    · rw [if_pos hacc]
      exact Or.inl rfl

/-- Merging keeps every entry, adds accessible packs only, and repeats none. -/
theorem packIds_mergeOrder (accessible : Finset Int)
    (requested : List UpdateStickerPackOrderItem) {current : List StickerPackOrderItem}
    (h : (packIds current).Nodup) :
    (packIds (mergeOrder current requested accessible)).Nodup ∧
      (∀ packId ∈ packIds current, packId ∈ packIds (mergeOrder current requested accessible)) ∧
      ∀ packId ∈ packIds (mergeOrder current requested accessible),
        packId ∈ packIds current ∨ ∃ id ∈ accessible, packId = toString id := by
  unfold mergeOrder
  generalize sortByUse current = sorted
  induction requested generalizing current sorted with
  | nil => exact ⟨h, fun _ hmem => hmem, fun _ hmem => Or.inl hmem⟩
  | cons incoming requested ih =>
    rw [List.foldl_cons]
    have hturn := mergeItem_cases accessible current sorted incoming
    generalize mergeItem accessible current sorted incoming = turn at hturn
    obtain ⟨next, sorted'⟩ := turn
    rcases hturn with rfl | ⟨id, hid, rfl⟩
    · exact ih h _
    · obtain ⟨hnodup, hkept, hnew⟩ := ih (nodup_packIds_put h) sorted'
      refine ⟨hnodup, ?_, ?_⟩
      · intro packId hmem
        exact hkept packId (mem_packIds_put.mpr (Or.inr hmem))
      · intro packId hmem
        rcases hnew packId hmem with hput | hacc
        · rcases mem_packIds_put.mp hput with rfl | hold
          · exact Or.inr ⟨id, hid, rfl⟩
          · exact Or.inl hold
        · exact Or.inr hacc

theorem packIds_updateOrder (accessible : Finset Int)
    (requested : List UpdateStickerPackOrderItem) {current : List StickerPackOrderItem}
    (h : (packIds current).Nodup)
    (hcurrent : ∀ packId, packId ∈ packIds current ↔ ∃ id ∈ accessible, packId = toString id)
    (hrange : ∀ id ∈ accessible, inI64 id = true) :
    (packIds (updateOrder current requested accessible)).Nodup ∧
      ∀ packId, packId ∈ packIds (updateOrder current requested accessible) ↔
        packId ∈ packIds current := by
  have hall : (current.filter fun item =>
      (parseI64 item.stickerPackId).any fun id => decide (id ∈ accessible)) = current := by
    rw [List.filter_eq_self]
    intro item hitem
    obtain ⟨id, hid, htext⟩ := (hcurrent item.stickerPackId).mp (List.mem_map_of_mem hitem)
    rw [htext, parseI64_toString (hrange id hid)]
    simpa using hid
  unfold updateOrder
  rw [hall]
  obtain ⟨hnodup, hkept, hnew⟩ := packIds_mergeOrder accessible requested h
  refine ⟨hnodup, fun packId => ⟨fun hmem => ?_, hkept packId⟩⟩
  rcases hnew packId hmem with hold | hacc
  · exact hold
  · exact (hcurrent packId).mpr hacc

namespace PackTables

variable {db : PackTables}

@[simp] theorem save_packs (uid : Int) (order : List StickerPackOrderItem) :
    (db.save uid order).packs = db.packs := rfl

@[simp] theorem save_subscriptions (uid : Int) (order : List StickerPackOrderItem) :
    (db.save uid order).subscriptions = db.subscriptions := rfl

theorem lockUser_save (uid other : Int) (order : List StickerPackOrderItem) :
    (db.save uid order).lockUser other = if other = uid then order else db.lockUser other := by
  unfold lockUser save
  rw [Table.upsert_row]
  split <;> rfl

@[simp] theorem saveAll_packs (orders : List OrderUpdate) :
    (db.saveAll orders).packs = db.packs := by
  unfold saveAll
  induction orders generalizing db with
  | nil => rfl
  | cons update orders ih => rw [List.foldl_cons, ih, save_packs]

@[simp] theorem saveAll_subscriptions (orders : List OrderUpdate) :
    (db.saveAll orders).subscriptions = db.subscriptions := by
  unfold saveAll
  induction orders generalizing db with
  | nil => rfl
  | cons update orders ih => rw [List.foldl_cons, ih, save_subscriptions]

/-- The rows of the listed users are replaced, the others stay. -/
theorem userExtra_saveAll {uids : List Int} (h : uids.Nodup)
    (f : Int → List StickerPackOrderItem) (other : Int) :
    (db.saveAll (uids.map fun uid => ⟨uid, f uid⟩)).userExtra.row other =
      if other ∈ uids then some (f other) else db.userExtra.row other := by
  unfold saveAll
  induction uids generalizing db with
  | nil => rfl
  | cons uid uids ih =>
    obtain ⟨hnot, htail⟩ := List.nodup_cons.mp h
    rw [List.map_cons, List.foldl_cons, ih htail]
    by_cases hmem : other ∈ uids
    · simp [hmem]
    · by_cases heq : other = uid
      · simp [heq, hnot, save]
      · simp [hmem, heq, save, Table.upsert_row]

theorem lockUser_saveAll {uids : List Int} (h : uids.Nodup)
    (f : Int → List StickerPackOrderItem) (other : Int) :
    (db.saveAll (uids.map fun uid => ⟨uid, f uid⟩)).lockUser other =
      if other ∈ uids then f other else db.lockUser other := by
  unfold lockUser
  rw [userExtra_saveAll h]
  split <;> rfl

theorem mem_subscribers {packId uid : Int} :
    uid ∈ db.subscribers packId ↔ (db.subscriptions.row (uid, packId)).isSome = true := by
  simp only [subscribers, Table.mem_image, decide_eq_true_eq, Option.isSome_iff_exists]
  constructor
  · rintro ⟨⟨u, p⟩, v, hrow, rfl, rfl⟩
    exact ⟨v, hrow⟩
  · rintro ⟨v, hrow⟩
    exact ⟨(uid, packId), v, hrow, rfl, rfl⟩

theorem isSome_unsubscribe {uids : List Int} {packId : Int} (key : Int × Int) :
    ((db.unsubscribe uids packId).subscriptions.row key).isSome = true ↔
      (db.subscriptions.row key).isSome = true ∧ ¬(key.2 = packId ∧ key.1 ∈ uids) := by
  simp only [unsubscribe, Table.deleteWhere_row]
  cases db.subscriptions.row key with
  | none => simp
  | some time =>
    by_cases hpack : key.2 = packId <;> by_cases huser : key.1 ∈ uids <;>
      simp [Option.filter, hpack, huser]

theorem accessible_iff {uid packId : Int} : db.accessible uid packId = true ↔
    ∃ pack, db.packs.row packId = some pack ∧ (pack.ownerUid = uid ∨
      pack.visibility = .Public ∧ (db.subscriptions.row (uid, packId)).isSome = true) := by
  simp [accessible, Option.any_eq_true]

theorem mem_accessiblePackIds {uid id : Int} {ids : List Int} :
    id ∈ db.accessiblePackIds uid ids ↔ id ∈ ids ∧ db.accessible uid id = true := by
  simp [accessiblePackIds]

theorem nodup_revokedUids (db : PackTables) (pack : StickerPack) (includeOwner : Bool) :
    (db.revokedUids pack includeOwner).Nodup := nodup_ascending _

theorem mem_revokedUids {pack : StickerPack} {includeOwner : Bool} {uid : Int} :
    uid ∈ db.revokedUids pack includeOwner ↔
      (includeOwner = true ∧ uid = pack.ownerUid) ∨
        (includeOwner = true ∨ uid ≠ pack.ownerUid) ∧
          (db.subscriptions.row (uid, pack.id)).isSome = true := by
  unfold revokedUids
  rw [mem_ascending]
  cases includeOwner <;> simp [mem_subscribers]

/-- Every pack's owner is subscribed to it, a private pack has no other subscriber, and the
stored order of each user lists the packs that user can use, each once. -/
structure WellFormed (db : PackTables) : Prop where
  key : ∀ id pack, db.packs.row id = some pack → pack.id = id ∧ inI64 id = true
  subscribed : ∀ uid id, (db.subscriptions.row (uid, id)).isSome = true →
    ∃ pack, db.packs.row id = some pack ∧ (pack.visibility = .Private → uid = pack.ownerUid)
  owner : ∀ id pack, db.packs.row id = some pack →
    (db.subscriptions.row (pack.ownerUid, id)).isSome = true
  nodup : ∀ uid, (packIds (db.lockUser uid)).Nodup
  orders : ∀ uid packId, packId ∈ packIds (db.lockUser uid) ↔
    ∃ id, packId = toString id ∧ db.accessible uid id = true

def empty : PackTables := ⟨Table.empty, Table.empty, Table.empty⟩

theorem wellFormed_empty : WellFormed empty := by
  constructor <;> simp [empty, lockUser, packIds, accessible]

theorem WellFormed.range {uid id : Int} (h : db.WellFormed) (hacc : db.accessible uid id = true) :
    inI64 id = true := by
  obtain ⟨pack, hrow, -⟩ := accessible_iff.mp hacc
  exact (h.key id pack hrow).2

/-- In well-formed tables a user can use exactly the packs the user is subscribed to. -/
theorem WellFormed.accessible_iff_subscribed {uid id : Int} (h : db.WellFormed) :
    db.accessible uid id = true ↔ (db.subscriptions.row (uid, id)).isSome = true := by
  rw [accessible_iff]
  constructor
  · rintro ⟨pack, hrow, rfl | ⟨-, hsub⟩⟩
    · exact h.owner id pack hrow
    · exact hsub
  · intro hsub
    obtain ⟨pack, hrow, hprivate⟩ := h.subscribed uid id hsub
    refine ⟨pack, hrow, ?_⟩
    cases hvis : pack.visibility with
    | Public => exact Or.inr ⟨rfl, hsub⟩
    | Private => exact Or.inl (hprivate hvis).symm

/-- A transaction on one pack keeps the orders exact when it does at that pack and leaves the
other packs' subscriptions and entries alone. -/
theorem WellFormed.of_pack {db' : PackTables} {packId : Int} (h : db.WellFormed)
    (hrange : inI64 packId = true)
    (hpack : ∀ pack, db'.packs.row packId = some pack → pack.id = packId ∧
      (db'.subscriptions.row (pack.ownerUid, packId)).isSome = true)
    (hsub : ∀ uid, (db'.subscriptions.row (uid, packId)).isSome = true →
      ∃ pack, db'.packs.row packId = some pack ∧
        (pack.visibility = .Private → uid = pack.ownerUid))
    (hpacks : ∀ id, id ≠ packId → db'.packs.row id = db.packs.row id)
    (hsubs : ∀ uid id, id ≠ packId → ((db'.subscriptions.row (uid, id)).isSome = true ↔
      (db.subscriptions.row (uid, id)).isSome = true))
    (hnodup : ∀ uid, (packIds (db'.lockUser uid)).Nodup)
    (hother : ∀ uid text, text ≠ toString packId →
      (text ∈ packIds (db'.lockUser uid) ↔ text ∈ packIds (db.lockUser uid)))
    (hself : ∀ uid, toString packId ∈ packIds (db'.lockUser uid) ↔
      (db'.subscriptions.row (uid, packId)).isSome = true) : db'.WellFormed := by
  have hacc : ∀ uid, db'.accessible uid packId = true ↔
      (db'.subscriptions.row (uid, packId)).isSome = true := by
    intro uid
    rw [accessible_iff]
    constructor
    · rintro ⟨pack, hrow, rfl | ⟨-, hs⟩⟩
      · exact (hpack pack hrow).2
      · exact hs
    · intro hs
      obtain ⟨pack, hrow, hprivate⟩ := hsub uid hs
      refine ⟨pack, hrow, ?_⟩
      cases hvis : pack.visibility with
      | Public => exact Or.inr ⟨rfl, hs⟩
      | Private => exact Or.inl (hprivate hvis).symm
  have haccOther : ∀ uid id, id ≠ packId →
      (db'.accessible uid id = true ↔ db.accessible uid id = true) := by
    intro uid id hne
    rw [accessible_iff, accessible_iff, hpacks id hne, hsubs uid id hne]
  refine ⟨?_, ?_, ?_, hnodup, ?_⟩
  · intro id pack hrow
    by_cases hid : id = packId
    · subst hid
      exact ⟨(hpack pack hrow).1, hrange⟩
    · exact h.key id pack (hpacks id hid ▸ hrow)
  · intro uid id hs
    by_cases hid : id = packId
    · subst hid
      exact hsub uid hs
    · rw [hpacks id hid]
      exact h.subscribed uid id ((hsubs uid id hid).mp hs)
  · intro id pack hrow
    by_cases hid : id = packId
    · subst hid
      exact (hpack pack hrow).2
    · exact (hsubs _ id hid).mpr (h.owner id pack (hpacks id hid ▸ hrow))
  · intro uid text
    by_cases htext : text = toString packId
    · subst htext
      rw [hself, ← hacc]
      constructor
      · intro ha
        exact ⟨packId, rfl, ha⟩
      · rintro ⟨id, heq, ha⟩
        by_cases hid : id = packId
        · exact hid ▸ ha
        · exact absurd (toString_inj hrange (h.range ((haccOther uid id hid).mp ha)) heq).symm hid
    · rw [hother uid text htext, h.orders]
      constructor
      · rintro ⟨id, rfl, ha⟩
        have hid : id ≠ packId := fun heq => htext (by rw [heq])
        exact ⟨id, rfl, (haccOther uid id hid).mpr ha⟩
      · rintro ⟨id, rfl, ha⟩
        have hid : id ≠ packId := fun heq => htext (by rw [heq])
        exact ⟨id, rfl, (haccOther uid id hid).mp ha⟩

theorem isSome_subscribe (uid packId time : Int) (key : Int × Int) :
    ((db.subscribe uid packId time).subscriptions.row key).isSome = true ↔
      key = (uid, packId) ∨ (db.subscriptions.row key).isSome = true := by
  unfold subscribe
  rw [Table.upsert_row]
  split
  · next h => simp [h]
  · next h => simp [h]

theorem lockPack_eq_ok {packId : Int} {pack : StickerPack} :
    db.lockPack packId = .ok pack ↔ db.packs.row packId = some pack := by
  unfold lockPack
  split
  · next other h => rw [h]; simp
  · next h => rw [h]; simp

theorem WellFormed.create {newPack : StickerPack} {now : Int} {db' : PackTables}
    {change : PackChange} (h : db.WellFormed) (hrange : inI64 newPack.id = true)
    (hok : db.createPack newPack now = .ok (db', change)) : db'.WellFormed := by
  unfold createPack at hok
  split at hok
  · cases hok
  next hfree =>
  rw [not_or, Option.not_isSome_iff_eq_none] at hfree
  obtain ⟨hnone, -⟩ := hfree
  simp only [Except.ok.injEq, Prod.mk.injEq] at hok
  obtain ⟨rfl, -⟩ := hok
  have hnosub : ∀ uid, ¬(db.subscriptions.row (uid, newPack.id)).isSome = true := by
    intro uid hs
    obtain ⟨pack, hrow, -⟩ := h.subscribed uid _ hs
    rw [hnone] at hrow
    cases hrow
  have hnoentry : ∀ uid, toString newPack.id ∉ packIds (db.lockUser uid) := by
    intro uid hmem
    obtain ⟨id, heq, hacc⟩ := (h.orders uid _).mp hmem
    have hid := toString_inj hrange (h.range hacc) heq
    exact hnosub uid (hid ▸ h.accessible_iff_subscribed.mp hacc)
  have hsub : ∀ uid, ((({ db with packs := db.packs.upsert newPack.id newPack }.subscribe
      newPack.ownerUid newPack.id newPack.createdAt).subscriptions.row (uid, newPack.id)).isSome =
        true ↔ uid = newPack.ownerUid) := by
    intro uid
    rw [isSome_subscribe]
    constructor
    · rintro (heq | hs)
      · exact congrArg Prod.fst heq
      · exact absurd hs (hnosub uid)
    · rintro rfl
      exact Or.inl rfl
  refine h.of_pack hrange ?_ ?_ ?_ ?_ ?_ ?_ ?_
  · intro pack hrow
    have hpack : newPack = pack := by simpa [subscribe] using hrow
    subst hpack
    exact ⟨rfl, (hsub _).mpr rfl⟩
  · intro uid hs
    exact ⟨newPack, by simp [subscribe], fun _ => (hsub uid).mp hs⟩
  · intro id hid
    exact Table.upsert_row_ne _ _ hid
  · intro uid id hid
    rw [save_subscriptions, isSome_subscribe]
    simp [hid]
  · intro uid
    rw [lockUser_save]
    split
    · exact nodup_packIds_put (h.nodup _)
    · exact h.nodup uid
  · intro uid text htext
    rw [lockUser_save]
    split
    · next heq =>
      rw [heq]
      exact mem_packIds_put.trans (or_iff_right htext)
    · rfl
  · intro uid
    rw [lockUser_save, save_subscriptions, hsub]
    split
    · next heq => simp [addOrder, mem_packIds_put, heq]
    · next hne =>
      constructor
      · intro hmem
        exact absurd hmem (hnoentry uid)
      · intro heq
        exact absurd heq hne

/-- Revoking a pack drops the entries and the subscriptions of the revoked users, no others. -/
theorem revokeSubscriptions_spec (pack : StickerPack) (includeOwner : Bool) :
    (∀ uid text, text ∈ packIds ((db.revokeSubscriptions pack includeOwner).1.lockUser uid) ↔
      ¬(text = toString pack.id ∧ uid ∈ db.revokedUids pack includeOwner) ∧
        text ∈ packIds (db.lockUser uid)) ∧
    (∀ key, ((db.revokeSubscriptions pack includeOwner).1.subscriptions.row key).isSome = true ↔
      (db.subscriptions.row key).isSome = true ∧
        ¬(key.2 = pack.id ∧ key.1 ∈ db.revokedUids pack includeOwner)) ∧
    ((∀ uid, (packIds (db.lockUser uid)).Nodup) → ∀ uid,
      (packIds ((db.revokeSubscriptions pack includeOwner).1.lockUser uid)).Nodup) := by
  have hlock : ∀ uid, (db.revokeSubscriptions pack includeOwner).1.lockUser uid =
      if uid ∈ db.revokedUids pack includeOwner then removeOrder (db.lockUser uid) pack.id
      else db.lockUser uid :=
    fun uid => lockUser_saveAll (nodup_revokedUids db pack includeOwner) _ uid
  refine ⟨?_, ?_, ?_⟩
  · intro uid text
    rw [hlock]
    split
    · next hmem => simp [mem_packIds_removeOrder, hmem]
    · next hmem => simp [hmem]
  · intro key
    unfold revokeSubscriptions
    rw [isSome_unsubscribe, saveAll_subscriptions]
  · intro hnodup uid
    rw [hlock]
    split
    · exact nodup_packIds_filter _ (hnodup uid)
    · exact hnodup uid

theorem WellFormed.toString_mem {uid packId : Int} (h : db.WellFormed)
    (hrange : inI64 packId = true) : toString packId ∈ packIds (db.lockUser uid) ↔
      (db.subscriptions.row (uid, packId)).isSome = true := by
  rw [h.orders, ← h.accessible_iff_subscribed]
  constructor
  · rintro ⟨id, heq, hacc⟩
    exact toString_inj hrange (h.range hacc) heq ▸ hacc
  · intro hacc
    exact ⟨packId, rfl, hacc⟩

theorem checkOwner_eq_ok {pack : StickerPack} {uid : Int} :
    checkOwner pack uid = .ok () ↔ pack.ownerUid = uid := by
  unfold checkOwner
  split <;> simp_all

theorem updatePack_eq_ok {uid packId : Int} {changes : UpdateStickerPack} {db' : PackTables}
    {change : PackChange} (hok : db.updatePack uid packId changes = .ok (db', change)) :
    ∃ pack, db.packs.row packId = some pack ∧ pack.ownerUid = uid ∧
      (changes.visibility = some .Private →
        db' = { (db.revokeSubscriptions pack false).1 with
          packs := db.packs.upsert packId (changes.apply pack) }) ∧
      (changes.visibility ≠ some .Private →
        db' = { db with packs := db.packs.upsert packId (changes.apply pack) }) := by
  unfold updatePack at hok
  cases hlock : db.lockPack packId with
  | error e => rw [hlock] at hok; cases hok
  | ok pack =>
    rw [hlock] at hok
    cases howner : checkOwner pack uid with
    | error e => simp [bind, Except.bind, howner] at hok
    | ok u =>
      refine ⟨pack, lockPack_eq_ok.mp hlock, checkOwner_eq_ok.mp howner, ?_, ?_⟩
      · intro hvis
        simp [bind, Except.bind, howner, pure, Except.pure, hvis] at hok
        rw [← hok.1]
        simp [revokeSubscriptions, unsubscribe]
      · intro hvis
        simp [bind, Except.bind, howner, pure, Except.pure, hvis] at hok
        exact hok.1.symm

theorem WellFormed.update {uid packId : Int} {changes : UpdateStickerPack} {db' : PackTables}
    {change : PackChange} (h : db.WellFormed)
    (hok : db.updatePack uid packId changes = .ok (db', change)) : db'.WellFormed := by
  obtain ⟨pack, hrow, rfl, hprivate, hpublic⟩ := updatePack_eq_ok hok
  obtain ⟨hid, hrange⟩ := h.key packId pack hrow
  by_cases hvis : changes.visibility = some .Private
  · rw [hprivate hvis]
    obtain ⟨htext, hsub, hnodup⟩ := db.revokeSubscriptions_spec pack false
    have hown : ∀ u, (db.subscriptions.row (u, packId)).isSome = true →
        (u ∉ db.revokedUids pack false ↔ u = pack.ownerUid) := by
      intro u hs
      rw [mem_revokedUids, hid]
      simp [hs]
    refine h.of_pack hrange ?_ ?_ ?_ ?_ ?_ ?_ ?_
    · intro next hnext
      have hpack : changes.apply pack = next := by simpa using hnext
      subst hpack
      refine ⟨hid, (hsub _).mpr ⟨h.owner packId pack hrow, ?_⟩⟩
      simp [UpdateStickerPack.apply, mem_revokedUids]
    · intro u hs
      obtain ⟨hs, hnot⟩ := (hsub _).mp hs
      refine ⟨changes.apply pack, by simp, fun _ => ?_⟩
      exact (hown u hs).mp fun hmem => hnot ⟨hid.symm, hmem⟩
    · intro id hne
      exact Table.upsert_row_ne _ _ hne
    · intro u id hne
      refine (hsub _).trans ?_
      simp [hid, hne]
    · exact hnodup h.nodup
    · intro u text hne
      exact (htext u text).trans (and_iff_right fun hc => hne (hid ▸ hc.1))
    · intro u
      refine (htext u _).trans (Iff.trans ?_ (hsub _).symm)
      rw [h.toString_mem hrange, hid]
      simp [and_comm]
  · rw [hpublic hvis]
    refine h.of_pack hrange ?_ ?_ ?_ ?_ ?_ ?_ ?_
    · intro next hnext
      have hpack : changes.apply pack = next := by simpa using hnext
      subst hpack
      exact ⟨hid, h.owner packId pack hrow⟩
    · intro u hs
      obtain ⟨old, hold, hprivate⟩ := h.subscribed u packId hs
      obtain rfl := Option.some.inj (hrow.symm.trans hold)
      refine ⟨changes.apply pack, by simp, fun hnext => hprivate ?_⟩
      cases hv : changes.visibility with
      | none => simpa [UpdateStickerPack.apply, hv] using hnext
      | some v =>
        have hvp : v = .Private := by simpa [UpdateStickerPack.apply, hv] using hnext
        exact absurd (hvp ▸ hv) hvis
    · intro id hne
      exact Table.upsert_row_ne _ _ hne
    · intro u id _
      rfl
    · exact h.nodup
    · intro u text _
      rfl
    · intro u
      exact h.toString_mem hrange

theorem deletePack_eq_ok {uid packId : Int} {db' : PackTables} {change : PackChange}
    (hok : db.deletePack uid packId = .ok (db', change)) :
    ∃ pack, db.packs.row packId = some pack ∧ pack.ownerUid = uid ∧
      db' = { (db.revokeSubscriptions pack true).1 with packs := db.packs.erase packId } := by
  unfold deletePack at hok
  cases hlock : db.lockPack packId with
  | error e => rw [hlock] at hok; cases hok
  | ok pack =>
    rw [hlock] at hok
    cases howner : checkOwner pack uid with
    | error e => simp [bind, Except.bind, howner] at hok
    | ok u =>
      refine ⟨pack, lockPack_eq_ok.mp hlock, checkOwner_eq_ok.mp howner, ?_⟩
      simp [bind, Except.bind, howner, pure, Except.pure] at hok
      rw [← hok.1]
      simp [revokeSubscriptions, unsubscribe]

theorem WellFormed.delete {uid packId : Int} {db' : PackTables} {change : PackChange}
    (h : db.WellFormed) (hok : db.deletePack uid packId = .ok (db', change)) :
    db'.WellFormed := by
  obtain ⟨pack, hrow, rfl, rfl⟩ := deletePack_eq_ok hok
  obtain ⟨hid, hrange⟩ := h.key packId pack hrow
  obtain ⟨htext, hsub, hnodup⟩ := db.revokeSubscriptions_spec pack true
  have hall : ∀ u, (db.subscriptions.row (u, packId)).isSome = true →
      u ∈ db.revokedUids pack true := by
    intro u hs
    rw [mem_revokedUids, hid]
    simp [hs]
  refine h.of_pack hrange ?_ ?_ ?_ ?_ ?_ ?_ ?_
  · intro next hnext
    simp at hnext
  · intro u hs
    obtain ⟨hs, hnot⟩ := (hsub _).mp hs
    exact absurd ⟨hid.symm, hall u hs⟩ hnot
  · intro id hne
    exact Table.erase_row_ne _ hne
  · intro u id hne
    refine (hsub _).trans ?_
    simp [hid, hne]
  · exact hnodup h.nodup
  · intro u text hne
    exact (htext u text).trans (and_iff_right fun hc => hne (hid ▸ hc.1))
  · intro u
    refine (htext u _).trans (Iff.trans ?_ (hsub _).symm)
    rw [h.toString_mem hrange, hid]
    simp [and_comm]

theorem subscribePack_eq_ok {uid packId now : Int} {db' : PackTables} {change : PackChange}
    (hok : db.subscribePack uid packId now = .ok (db', change)) :
    ∃ pack, db.packs.row packId = some pack ∧
      (pack.visibility = .Private → pack.ownerUid = uid) ∧
      db' = (if (db.subscriptions.row (uid, packId)).isSome then db
        else db.subscribe uid packId now).save uid (addOrder (db.lockUser uid) packId now) := by
  unfold subscribePack at hok
  cases hlock : db.lockPack packId with
  | error e => rw [hlock] at hok; cases hok
  | ok pack =>
    rw [hlock] at hok
    refine ⟨pack, lockPack_eq_ok.mp hlock, ?_, ?_⟩
    · intro hvis
      by_contra hne
      simp [bind, Except.bind, hvis, hne, throw, throwThe, MonadExceptOf.throw] at hok
    · by_cases hdenied : pack.visibility = .Private ∧ pack.ownerUid ≠ uid
      · simp [bind, Except.bind, hdenied, throw, throwThe, MonadExceptOf.throw] at hok
      · simp only [bind, Except.bind, if_neg hdenied, pure, Except.pure, Except.ok.injEq,
          Prod.mk.injEq] at hok
        rw [← hok.1]
        split <;> rfl

theorem WellFormed.subscribePack {uid packId now : Int} {db' : PackTables}
    {change : PackChange} (h : db.WellFormed)
    (hok : db.subscribePack uid packId now = .ok (db', change)) : db'.WellFormed := by
  obtain ⟨pack, hrow, hprivate, rfl⟩ := subscribePack_eq_ok hok
  obtain ⟨hid, hrange⟩ := h.key packId pack hrow
  have hsub : ∀ key, (((if (db.subscriptions.row (uid, packId)).isSome then db
      else db.subscribe uid packId now).subscriptions.row key).isSome = true ↔
        key = (uid, packId) ∨ (db.subscriptions.row key).isSome = true) := by
    intro key
    split
    · next hs =>
      constructor
      · exact Or.inr
      · rintro (rfl | hk)
        · exact hs
        · exact hk
    · exact isSome_subscribe uid packId now key
  have hpacks : (if (db.subscriptions.row (uid, packId)).isSome then db
      else db.subscribe uid packId now).packs = db.packs := by
    split <;> rfl
  have hlockUser : ∀ u, (if (db.subscriptions.row (uid, packId)).isSome then db
      else db.subscribe uid packId now).lockUser u = db.lockUser u := by
    intro u
    split <;> rfl
  refine h.of_pack hrange ?_ ?_ ?_ ?_ ?_ ?_ ?_
  · intro next hnext
    rw [save_packs, hpacks, hrow] at hnext
    obtain rfl := Option.some.inj hnext
    exact ⟨hid, (hsub _).mpr (Or.inr (h.owner packId pack hrow))⟩
  · intro u hs
    rw [save_packs, hpacks]
    rcases (hsub _).mp hs with heq | hold
    · cases heq
      exact ⟨pack, hrow, fun hvis => (hprivate hvis).symm⟩
    · exact h.subscribed u packId hold
  · intro id _
    rw [save_packs, hpacks]
  · intro u id hne
    refine (hsub _).trans ?_
    simp [hne]
  · intro u
    rw [lockUser_save]
    split
    · exact nodup_packIds_put (h.nodup uid)
    · rw [hlockUser]
      exact h.nodup u
  · intro u text hne
    rw [lockUser_save]
    split
    · next heq =>
      rw [heq]
      exact mem_packIds_put.trans (or_iff_right hne)
    · rw [hlockUser]
  · intro u
    rw [lockUser_save, save_subscriptions, hsub]
    split
    · next heq => simp [addOrder, mem_packIds_put, heq]
    · next hne =>
      rw [hlockUser, h.toString_mem hrange]
      simp [hne]

theorem unsubscribePack_eq_ok {uid packId : Int} {db' : PackTables} {change : PackChange}
    (hok : db.unsubscribePack uid packId = .ok (db', change)) :
    ∃ pack, db.packs.row packId = some pack ∧ pack.ownerUid ≠ uid ∧
      db' = (db.unsubscribe [uid] packId).save uid (removeOrder (db.lockUser uid) packId) := by
  unfold unsubscribePack at hok
  cases hlock : db.lockPack packId with
  | error e => rw [hlock] at hok; cases hok
  | ok pack =>
    rw [hlock] at hok
    refine ⟨pack, lockPack_eq_ok.mp hlock, ?_⟩
    by_cases howner : pack.ownerUid = uid
    · simp [bind, Except.bind, howner, throw, throwThe, MonadExceptOf.throw] at hok
    · simp only [bind, Except.bind, if_neg howner, pure, Except.pure, Except.ok.injEq,
        Prod.mk.injEq] at hok
      exact ⟨howner, hok.1.symm⟩

theorem WellFormed.unsubscribePack {uid packId : Int} {db' : PackTables} {change : PackChange}
    (h : db.WellFormed) (hok : db.unsubscribePack uid packId = .ok (db', change)) :
    db'.WellFormed := by
  obtain ⟨pack, hrow, howner, rfl⟩ := unsubscribePack_eq_ok hok
  obtain ⟨hid, hrange⟩ := h.key packId pack hrow
  have hsub := @isSome_unsubscribe db [uid] packId
  refine h.of_pack hrange ?_ ?_ ?_ ?_ ?_ ?_ ?_
  · intro next hnext
    obtain rfl := Option.some.inj (hrow.symm.trans hnext)
    exact ⟨hid, (hsub _).mpr ⟨h.owner packId pack hrow, by simp [howner]⟩⟩
  · intro u hs
    exact h.subscribed u packId ((hsub _).mp hs).1
  · intro id _
    rfl
  · intro u id hne
    refine (hsub _).trans ?_
    simp [hne]
  · intro u
    rw [lockUser_save]
    split
    · exact nodup_packIds_filter _ (h.nodup uid)
    · exact h.nodup u
  · intro u text hne
    rw [lockUser_save]
    split
    · next heq =>
      rw [heq]
      exact mem_packIds_removeOrder.trans (and_iff_right hne)
    · rfl
  · intro u
    rw [lockUser_save, save_subscriptions, hsub]
    split
    · next heq => simp [mem_packIds_removeOrder, heq]
    · next hne =>
      have hlock : (db.unsubscribe [uid] packId).lockUser u = db.lockUser u := rfl
      rw [hlock, h.toString_mem hrange]
      simp [hne]

theorem mem_parseIds {order : List StickerPackOrderItem} {id : Int} (hrange : inI64 id = true)
    (h : toString id ∈ packIds order) : id ∈ parseIds (·.stickerPackId) order := by
  obtain ⟨item, hitem, htext⟩ := List.mem_map.mp h
  exact List.mem_filterMap.mpr
    ⟨item, hitem, (congrArg parseI64 htext).trans (parseI64_toString hrange)⟩

/-- The packs `update_order` looks up include all that the stored order lists. -/
theorem WellFormed.order_of_accessible {uid : Int} (h : db.WellFormed) (ids : List Int)
    (packId : String) : packId ∈ packIds (db.lockUser uid) → ∃ id ∈ db.accessiblePackIds uid
      (parseIds (·.stickerPackId) (db.lockUser uid) ++ ids), packId = toString id := by
  intro hmem
  obtain ⟨id, rfl, hacc⟩ := (h.orders uid packId).mp hmem
  refine ⟨id, mem_accessiblePackIds.mpr ⟨?_, hacc⟩, rfl⟩
  exact List.mem_append_left _ (mem_parseIds (h.range hacc) hmem)

theorem WellFormed.reorder {uid : Int} {requested : List UpdateStickerPackOrderItem}
    {db' : PackTables} {change : PackChange} (h : db.WellFormed)
    (hok : db.reorderPacks uid requested = .ok (db', change)) : db'.WellFormed := by
  simp only [reorderPacks, Except.ok.injEq, Prod.mk.injEq] at hok
  obtain ⟨rfl, -⟩ := hok
  obtain ⟨hnodup, hsame⟩ := packIds_updateOrder (db.accessiblePackIds uid
      (parseIds (·.stickerPackId) (db.lockUser uid) ++ parseIds (·.stickerPackId) requested))
    requested (h.nodup uid)
    (fun packId => ⟨h.order_of_accessible _ packId, by
      rintro ⟨id, hid, rfl⟩
      exact (h.orders uid _).mpr ⟨id, rfl, (mem_accessiblePackIds.mp hid).2⟩⟩)
    (fun id hid => h.range (mem_accessiblePackIds.mp hid).2)
  have hacc : ∀ order u id, (db.save uid order).accessible u id = db.accessible u id :=
    fun _ _ _ => rfl
  refine ⟨h.key, h.subscribed, h.owner, ?_, ?_⟩
  · intro u
    rw [lockUser_save]
    split
    · exact hnodup
    · exact h.nodup u
  · intro u packId
    simp only [hacc]
    rw [lockUser_save]
    split
    · next heq =>
      subst heq
      exact (hsame packId).trans (h.orders u packId)
    · exact h.orders u packId

/-- Every transaction keeps the tables well formed. -/
theorem WellFormed.serial {request : PackRequest} {db' : PackTables} {change : PackChange}
    (h : db.WellFormed) (htyped : request.Typed)
    (hok : db.serial request = .ok (db', change)) : db'.WellFormed := by
  cases request with
  | create newPack now => exact h.create htyped hok
  | update uid packId changes => exact h.update hok
  | delete uid packId => exact h.delete hok
  | subscribe uid packId now => exact h.subscribePack hok
  | unsubscribe uid packId => exact h.unsubscribePack hok
  | reorder uid requested => exact h.reorder hok

end PackTables

end Chahua.Stickers

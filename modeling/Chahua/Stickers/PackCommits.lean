import Chahua.Stickers.PackIsolation

namespace Chahua.Stickers

open Framework

namespace PackTables

variable {db : PackTables}

theorem openPack_lock {request : PackRequest} {pack : Option StickerPack} {packId : Int}
    (hreq : db.openPack request = (db.lockPack packId).map some)
    (h : db.openPack request = .ok pack) :
    ∃ found, pack = some found ∧ db.lockPack packId = .ok found := by
  rw [hreq] at h
  cases hrow : db.lockPack packId with
  | error e => rw [hrow] at h; cases h
  | ok found =>
    rw [hrow] at h
    exact ⟨found, by simpa [Except.map] using h.symm, rfl⟩

theorem lockPack_of_error {packId : Int} {e : PackError}
    (h : (db.lockPack packId).map some = .error e) : db.lockPack packId = .error e := by
  cases hrow : db.lockPack packId with
  | error e' =>
    rw [hrow] at h
    simpa [Except.map] using h
  | ok found => rw [hrow] at h; cases h

theorem serial_of_open_error {request : PackRequest} {e : PackError}
    (h : db.openPack request = .error e) : db.serial request = .error e := by
  cases request with
  | create newPack now =>
    simp only [PackTables.openPack] at h
    split at h
    · next htaken =>
      cases h
      exact if_pos htaken
    · cases h
  | reorder uid requested => cases h
  | update uid packId changes =>
    have hlock : db.lockPack packId = .error e := lockPack_of_error h
    simp [serial, updatePack, hlock, bind, Except.bind]
  | delete uid packId =>
    have hlock : db.lockPack packId = .error e := lockPack_of_error h
    simp [serial, deletePack, hlock, bind, Except.bind]
  | subscribe uid packId now =>
    have hlock : db.lockPack packId = .error e := lockPack_of_error h
    simp [serial, subscribePack, hlock, bind, Except.bind]
  | unsubscribe uid packId =>
    have hlock : db.lockPack packId = .error e := lockPack_of_error h
    simp [serial, unsubscribePack, hlock, bind, Except.bind]

theorem serial_of_plan_error {request : PackRequest} {pack : Option StickerPack} {e : PackError}
    (hopen : db.openPack request = .ok pack) (h : db.plan pack request = .error e) :
    db.serial request = .error e := by
  cases request with
  | create newPack now => cases h
  | reorder uid requested => cases h
  | update uid packId changes =>
    obtain ⟨found, rfl, hlock⟩ : ∃ found, pack = some found ∧ db.lockPack packId = .ok found :=
      openPack_lock rfl hopen
    cases howner : checkOwner found uid with
    | error e' =>
      simp only [plan, howner, bind, Except.bind, Except.error.injEq] at h
      simp [serial, updatePack, hlock, howner, h, bind, Except.bind]
    | ok u => simp [plan, howner, bind, Except.bind, pure, Except.pure] at h
  | delete uid packId =>
    obtain ⟨found, rfl, hlock⟩ : ∃ found, pack = some found ∧ db.lockPack packId = .ok found :=
      openPack_lock rfl hopen
    cases howner : checkOwner found uid with
    | error e' =>
      simp only [plan, howner, bind, Except.bind, Except.error.injEq] at h
      simp [serial, deletePack, hlock, howner, h, bind, Except.bind]
    | ok u => simp [plan, howner, bind, Except.bind, pure, Except.pure] at h
  | subscribe uid packId now =>
    obtain ⟨found, rfl, hlock⟩ : ∃ found, pack = some found ∧ db.lockPack packId = .ok found :=
      openPack_lock rfl hopen
    simp only [plan] at h
    split at h
    · next hdenied =>
      cases h
      simp [serial, subscribePack, hlock, hdenied, bind, Except.bind, throw, throwThe,
        MonadExceptOf.throw]
    · cases h
  | unsubscribe uid packId =>
    obtain ⟨found, rfl, hlock⟩ : ∃ found, pack = some found ∧ db.lockPack packId = .ok found :=
      openPack_lock rfl hopen
    simp only [plan] at h
    split at h
    · next howner =>
      cases h
      simp [serial, unsubscribePack, hlock, howner, bind, Except.bind, throw, throwThe,
        MonadExceptOf.throw]
    · cases h

theorem saveAll_mk (packs packs' : Table Int StickerPack) (subscriptions subscriptions' :
    Table (Int × Int) Int) (userExtra : Table Int (List StickerPackOrderItem))
    (orders : List OrderUpdate) :
    saveAll ⟨packs, subscriptions, userExtra⟩ orders =
      ⟨packs, subscriptions, (saveAll ⟨packs', subscriptions', userExtra⟩ orders).userExtra⟩ := by
  unfold saveAll
  induction orders generalizing userExtra with
  | nil => rfl
  | cons update orders ih => exact ih _

/-- A transaction whose reads are current commits what it would do alone. -/
theorem serial_of_current {tx : PackTx} (hdb : db.WellFormed) (hplan : db.Planned tx)
    (horders : tx.orders = tx.uids.map db.read)
    (haccessible : tx.accessible = db.readAccessible tx.orders tx.request) :
    db.serial tx.request =
      .ok ((tx.writePacks db).saveAll tx.newOrders, ⟨tx.returned, tx.newOrders⟩) := by
  obtain ⟨request, stage, held, pack, uids, inserted, orders, accessible⟩ := tx
  obtain ⟨-, hopen, hp⟩ := hplan
  dsimp only at horders haccessible hopen hp ⊢
  subst horders haccessible
  cases request with
  | create newPack now =>
    have huids : [newPack.ownerUid] = uids := by simpa [plan] using hp
    subst huids
    simp only [PackTables.openPack] at hopen
    split at hopen
    · cases hopen
    · next hfree => exact if_neg hfree
  | reorder uid requested =>
    have huids : [uid] = uids := by simpa [plan] using hp
    subst huids
    simp only [serial, reorderPacks, PackTx.writePacks, PackTx.newOrders, PackTx.newOrder,
          PackTx.returned,
      readAccessible, List.map_cons, List.map_nil, List.flatMap_cons, List.flatMap_nil,
      List.append_nil, saveAll, List.foldl_cons, List.foldl_nil, PackTables.read]
  | update uid packId changes =>
    obtain ⟨found, rfl, hlock⟩ : ∃ found, pack = some found ∧ db.lockPack packId = .ok found :=
      openPack_lock rfl hopen
    cases howner : checkOwner found uid with
    | error e => simp [plan, howner, bind, Except.bind] at hp
    | ok u =>
      have hid := (hdb.key packId found (lockPack_eq_ok.mp hlock)).1
      by_cases hvis : changes.visibility = some .Private
      · have huids : db.revokedUids found false = uids := by
          simpa [plan, howner, hvis, bind, Except.bind, pure, Except.pure] using hp
        subst huids
        simp [serial, updatePack, hlock, howner, hvis, bind, Except.bind, pure, Except.pure,
          PackTx.writePacks, PackTx.newOrders, PackTx.newOrder,
          PackTx.returned, revokeSubscriptions, removePack,
          hid, Function.comp_def, PackTables.read, unsubscribe]
        exact (saveAll_mk _ _ _ _ _ _).symm
      · have huids : [] = uids := by
          simpa [plan, howner, hvis, bind, Except.bind, pure, Except.pure] using hp
        subst huids
        simp [serial, updatePack, hlock, howner, hvis, bind, Except.bind, pure, Except.pure,
          PackTx.writePacks, PackTx.newOrders, PackTx.newOrder,
          PackTx.returned, saveAll]
  | delete uid packId =>
    obtain ⟨found, rfl, hlock⟩ : ∃ found, pack = some found ∧ db.lockPack packId = .ok found :=
      openPack_lock rfl hopen
    cases howner : checkOwner found uid with
    | error e => simp [plan, howner, bind, Except.bind] at hp
    | ok u =>
      have hid := (hdb.key packId found (lockPack_eq_ok.mp hlock)).1
      have huids : db.revokedUids found true = uids := by
        simpa [plan, howner, bind, Except.bind, pure, Except.pure] using hp
      subst huids
      simp [serial, deletePack, hlock, howner, bind, Except.bind, pure, Except.pure,
          PackTx.writePacks, PackTx.newOrders, PackTx.newOrder,
          PackTx.returned, revokeSubscriptions, removePack,
          hid, Function.comp_def, PackTables.read, unsubscribe]
      exact (saveAll_mk _ _ _ _ _ _).symm
  | subscribe uid packId now =>
    obtain ⟨found, rfl, hlock⟩ : ∃ found, pack = some found ∧ db.lockPack packId = .ok found :=
      openPack_lock rfl hopen
    simp only [plan] at hp
    split at hp
    · cases hp
    · next hallowed =>
      cases hp
      simp only [serial, subscribePack, hlock, bind, Except.bind, if_neg hallowed, pure,
        Except.pure, PackTx.writePacks, PackTx.newOrders, PackTx.newOrder,
          PackTx.returned, List.map_cons,
        List.map_nil, saveAll, List.foldl_cons, List.foldl_nil, PackTables.read]
      split <;> rfl
  | unsubscribe uid packId =>
    obtain ⟨found, rfl, hlock⟩ : ∃ found, pack = some found ∧ db.lockPack packId = .ok found :=
      openPack_lock rfl hopen
    simp only [plan] at hp
    split at hp
    · cases hp
    · next howner =>
      cases hp
      simp only [serial, unsubscribePack, hlock, bind, Except.bind, if_neg howner, pure,
        Except.pure, PackTx.writePacks, PackTx.newOrders, PackTx.newOrder,
          PackTx.returned, List.map_cons,
        List.map_nil, saveAll, List.foldl_cons, List.foldl_nil, PackTables.read]
      rfl

theorem plan_subscribe {uid packId now : Int} {pack : Option StickerPack} {uids : List Int}
    (h : db.plan pack (.subscribe uid packId now) = .ok uids) : uids = [uid] := by
  cases pack with
  | none => cases h
  | some found =>
    simp only [plan] at h
    split at h
    · cases h
    · cases h
      rfl

theorem plan_unsubscribe {uid packId : Int} {pack : Option StickerPack} {uids : List Int}
    (h : db.plan pack (.unsubscribe uid packId) = .ok uids) : uids = [uid] := by
  cases pack with
  | none => cases h
  | some found =>
    simp only [plan] at h
    split at h
    · cases h
    · cases h
      rfl

theorem pairwise_plan {request : PackRequest} {pack : Option StickerPack} {uids : List Int}
    (h : db.plan pack request = .ok uids) : uids.Pairwise (· < ·) := by
  cases request with
  | create newPack now => cases h; exact List.pairwise_singleton _ _
  | reorder uid requested => cases h; exact List.pairwise_singleton _ _
  | update uid packId changes =>
    cases pack with
    | none => cases h
    | some found =>
      simp only [plan, bind, Except.bind] at h
      split at h
      · cases h
      · cases h
        split
        · exact pairwise_ascending _
        · exact List.Pairwise.nil
  | delete uid packId =>
    cases pack with
    | none => cases h
    | some found =>
      simp only [plan, bind, Except.bind] at h
      split at h
      · cases h
      · cases h
        exact pairwise_ascending _
  | subscribe uid packId now =>
    rw [plan_subscribe h]
    exact List.pairwise_singleton _ _
  | unsubscribe uid packId =>
    rw [plan_unsubscribe h]
    exact List.pairwise_singleton _ _

theorem writePacks_userExtra (tx : PackTx) : (tx.writePacks db).userExtra = db.userExtra := by
  unfold PackTx.writePacks
  cases tx.request with
  | update uid packId changes =>
    cases tx.pack <;> dsimp only <;> split <;> rfl
  | subscribe uid packId now =>
    dsimp only
    split <;> rfl
  | _ => rfl

theorem writePacks_packs (tx : PackTx) {id : Int}
    (h : ¬(tx.request.exclusive = true ∧ id = tx.request.target)) :
    (tx.writePacks db).packs.row id = db.packs.row id := by
  unfold PackTx.writePacks
  cases hreq : tx.request with
  | reorder uid requested => rfl
  | create newPack now =>
    have hne : id ≠ newPack.id := fun heq => h (hreq ▸ ⟨rfl, heq⟩)
    exact Table.upsert_row_ne _ _ hne
  | update uid packId changes =>
    have hne : id ≠ packId := fun heq => h (hreq ▸ ⟨rfl, heq⟩)
    cases tx.pack with
    | none => dsimp only; split <;> rfl
    | some pack =>
      refine (Table.upsert_row_ne _ _ hne).trans ?_
      split <;> rfl
  | delete uid packId =>
    have hne : id ≠ packId := fun heq => h (hreq ▸ ⟨rfl, heq⟩)
    exact Table.erase_row_ne _ hne
  | subscribe uid packId now => dsimp only; split <;> rfl
  | unsubscribe uid packId => rfl

theorem unsubscribe_row_of_not {uids : List Int} {packId : Int} {key : Int × Int}
    (h : ¬(key.2 = packId ∧ key.1 ∈ uids)) :
    (db.unsubscribe uids packId).subscriptions.row key = db.subscriptions.row key := by
  simp only [unsubscribe, Table.deleteWhere_row]
  cases db.subscriptions.row key with
  | none => rfl
  | some time =>
    by_cases hpack : key.2 = packId
    · have huser : key.1 ∉ uids := fun hmem => h ⟨hpack, hmem⟩
      simp [Option.filter, huser]
    · simp [Option.filter, hpack]

/-- A commit changes the subscriptions of its users to its pack only. -/
theorem writePacks_subscriptions {tx : PackTx} (hplan : db.Planned tx) {uid id : Int}
    (h : ¬(tx.request.exclusive = true ∧ id = tx.request.target) ∨ uid ∉ tx.uids) :
    (tx.writePacks db).subscriptions.row (uid, id) = db.subscriptions.row (uid, id) := by
  have hp := hplan.plan
  unfold PackTx.writePacks
  cases hreq : tx.request with
  | reorder u requested => rfl
  | create newPack now =>
    rw [hreq] at hp h
    have huids : [newPack.ownerUid] = tx.uids := by simpa [plan] using hp
    refine Table.upsert_row_ne _ _ fun heq => ?_
    have hkey := Prod.mk.inj heq
    rcases h with hne | hnot
    · exact hne ⟨rfl, hkey.2⟩
    · exact hnot (huids ▸ hkey.1 ▸ List.mem_singleton_self _)
  | update u packId changes =>
    rw [hreq] at h
    have hrow : ((if changes.visibility = some .Private then db.unsubscribe tx.uids packId
        else db).subscriptions.row (uid, id)) = db.subscriptions.row (uid, id) := by
      split
      · refine unsubscribe_row_of_not ?_
        rintro ⟨hpack, hmem⟩
        rcases h with hne | hnot
        · exact hne ⟨rfl, hpack⟩
        · exact hnot hmem
      · rfl
    cases tx.pack with
    | none => exact hrow
    | some pack => exact hrow
  | delete u packId =>
    rw [hreq] at h
    refine unsubscribe_row_of_not ?_
    rintro ⟨hpack, hmem⟩
    rcases h with hne | hnot
    · exact hne ⟨rfl, hpack⟩
    · exact hnot hmem
  | subscribe u packId now =>
    rw [hreq] at h hp
    dsimp only
    split
    · rfl
    · refine Table.upsert_row_ne _ _ fun heq => ?_
      have hkey := Prod.mk.inj heq
      rcases h with hne | hnot
      · exact hne ⟨rfl, hkey.2⟩
      · have huids : tx.uids = [u] := plan_subscribe hp
        exact hnot (huids ▸ hkey.1 ▸ List.mem_singleton_self _)
  | unsubscribe u packId =>
    rw [hreq] at h hp
    refine unsubscribe_row_of_not ?_
    rintro ⟨hpack, hmem⟩
    rcases h with hne | hnot
    · exact hne ⟨rfl, hpack⟩
    · have huids : tx.uids = [u] := plan_unsubscribe hp
      exact hnot (huids ▸ hmem)

theorem newOrders_of_read {tx : PackTx} (h : tx.orders = tx.uids.map db.read) :
    tx.newOrders = tx.uids.map fun uid => ⟨uid, tx.newOrder (db.lockUser uid)⟩ := by
  rw [PackTx.newOrders, h, List.map_map]
  rfl

theorem frame_commit {tx : PackTx} (hplan : db.Planned tx)
    (horders : tx.orders = tx.uids.map db.read) :
    db.Frame ((tx.writePacks db).saveAll tx.newOrders)
      (fun id => tx.request.exclusive = true ∧ id = tx.request.target) (· ∈ tx.uids) := by
  have hnodup : tx.uids.Nodup := (pairwise_plan hplan.plan).imp fun hlt => hlt.ne
  have hextra := @userExtra_saveAll (tx.writePacks db) tx.uids hnodup
    fun uid => tx.newOrder (db.lockUser uid)
  rw [newOrders_of_read horders]
  refine ⟨?_, ?_, ?_, ?_, ?_⟩
  · intro id hid
    rw [saveAll_packs, writePacks_packs tx hid]
  · intro uid id hid
    rw [saveAll_subscriptions, writePacks_subscriptions hplan (Or.inl hid)]
  · intro uid id hu
    rw [saveAll_subscriptions, writePacks_subscriptions hplan (Or.inr hu)]
  · intro uid hu
    rw [hextra, if_neg hu, writePacks_userExtra]
  · intro uid hu
    rw [hextra, writePacks_userExtra]
    split
    · rfl
    · exact hu

end PackTables

end Chahua.Stickers

import Chahua.Stickers.PackInvariants
import Chahua.Stickers.PackTransactions

namespace Chahua.Stickers

open Framework

namespace PackTables

variable {db db' : PackTables}

/-- The locals of a transaction once its pack is locked and its users are known. -/
structure Planned (db : PackTables) (tx : PackTx) : Prop where
  held : tx.request.exclusive = true → tx.held = [tx.request.target]
  pack : db.openPack tx.request = .ok tx.pack
  plan : db.plan tx.pack tx.request = .ok tx.uids

/-- The row of the user is committed or inserted by the transaction itself. -/
def Present (db : PackTables) (tx : PackTx) (uid : Int) : Prop :=
  (db.userExtra.row uid).isSome = true ∨ uid ∈ tx.inserted

/-- What a transaction in flight has read is still so. -/
def Current (db : PackTables) (tx : PackTx) : Prop :=
  (∀ uid ∈ tx.inserted, db.userExtra.row uid = none) ∧
  match tx.stage with
  | .packs todo =>
      tx.inserted = [] ∧ tx.orders = [] ∧ (tx.request.exclusive = false → tx.pack = none) ∧
      (tx.request.exclusive = true → todo = [tx.request.target] ∧ tx.held = [] ∨
        todo = [] ∧ tx.held = [tx.request.target] ∧ db.openPack tx.request = .ok tx.pack)
  | .inserting todo =>
      db.Planned tx ∧ tx.orders = [] ∧ ∃ done, tx.uids = done ++ todo ∧
        (∀ uid ∈ tx.inserted, uid ∈ done) ∧ ∀ uid ∈ done, db.Present tx uid
  | .locking todo =>
      db.Planned tx ∧ (∀ uid ∈ tx.inserted, uid ∈ tx.uids) ∧
        (∀ uid ∈ tx.uids, db.Present tx uid) ∧
        ∃ done, tx.uids = done ++ todo ∧ tx.orders = done.map db.read
  | .reading =>
      db.Planned tx ∧ (∀ uid ∈ tx.uids, db.Present tx uid) ∧ tx.orders = tx.uids.map db.read
  | .ready =>
      db.Planned tx ∧ (∀ uid ∈ tx.uids, db.Present tx uid) ∧
        tx.orders = tx.uids.map db.read ∧ tx.accessible = db.readAccessible tx.orders tx.request

/-- What a commit leaves alone: the packs it has not locked and the rows of the other users. -/
structure Frame (db db' : PackTables) (locked touched : Int → Prop) : Prop where
  packs : ∀ id, ¬locked id → db'.packs.row id = db.packs.row id
  subscribers : ∀ uid id, ¬locked id →
    db'.subscriptions.row (uid, id) = db.subscriptions.row (uid, id)
  subscriptions : ∀ uid id, ¬touched uid →
    db'.subscriptions.row (uid, id) = db.subscriptions.row (uid, id)
  userExtra : ∀ uid, ¬touched uid → db'.userExtra.row uid = db.userExtra.row uid
  present : ∀ uid, (db.userExtra.row uid).isSome = true → (db'.userExtra.row uid).isSome = true

variable {locked touched : Int → Prop}

theorem Frame.read (h : db.Frame db' locked touched) {uid : Int} (hu : ¬touched uid) :
    db'.read uid = db.read uid := by
  simp [PackTables.read, lockUser, h.userExtra uid hu]

theorem Frame.accessible (h : db.Frame db' locked touched) (hdb : db.WellFormed)
    (hdb' : db'.WellFormed) {uid : Int} (hu : ¬touched uid) (id : Int) :
    db'.accessible uid id = db.accessible uid id := by
  rw [Bool.eq_iff_iff, hdb.accessible_iff_subscribed, hdb'.accessible_iff_subscribed,
    h.subscriptions uid id hu]

theorem Frame.revokedUids (h : db.Frame db' locked touched) {pack : StickerPack}
    (hp : ¬locked pack.id) (includeOwner : Bool) :
    db'.revokedUids pack includeOwner = db.revokedUids pack includeOwner := by
  have hsub : db'.subscribers pack.id = db.subscribers pack.id := by
    ext uid
    rw [mem_subscribers, mem_subscribers, h.subscribers uid _ hp]
  unfold PackTables.revokedUids
  rw [hsub]

theorem Frame.openPack (h : db.Frame db' locked touched) {request : PackRequest}
    (hp : request.exclusive = true → ¬locked request.target) :
    db'.openPack request = db.openPack request := by
  cases request with
  | reorder uid requested => rfl
  | create newPack now =>
    have hid : ¬locked newPack.id := hp rfl
    simp only [PackTables.openPack]
    rw [h.packs _ hid, h.subscribers _ _ hid]
  | _ => simp only [PackTables.openPack, lockPack, h.packs _ (hp rfl)]

theorem openPack_id {request : PackRequest} {pack : StickerPack} (hdb : db.WellFormed)
    (h : db.openPack request = .ok (some pack)) : pack.id = request.target := by
  have hlock : ∀ id, (db.lockPack id).map some = .ok (some pack) → pack.id = id := by
    intro id hid
    cases hrow : db.lockPack id with
    | error e => rw [hrow] at hid; cases hid
    | ok other =>
      rw [hrow] at hid
      have heq : other = pack := by simpa [Except.map] using hid
      exact (hdb.key id pack (heq ▸ lockPack_eq_ok.mp hrow)).1
  cases request with
  | reorder uid requested => simp [PackTables.openPack] at h
  | create newPack now =>
    simp only [PackTables.openPack] at h
    split at h
    · cases h
    · cases h
      rfl
  | update uid packId changes => exact hlock packId h
  | delete uid packId => exact hlock packId h
  | subscribe uid packId now => exact hlock packId h
  | unsubscribe uid packId => exact hlock packId h

theorem Frame.plan (h : db.Frame db' locked touched) {request : PackRequest}
    {pack : Option StickerPack} (hdb : db.WellFormed) (hopen : db.openPack request = .ok pack)
    (hp : request.exclusive = true → ¬locked request.target) :
    db'.plan pack request = db.plan pack request := by
  have hrevoked : ∀ p, pack = some p → request.exclusive = true → ∀ includeOwner,
      db'.revokedUids p includeOwner = db.revokedUids p includeOwner := by
    intro p hpack hex includeOwner
    subst hpack
    exact h.revokedUids (openPack_id hdb hopen ▸ hp hex) includeOwner
  cases request with
  | update uid packId changes =>
    cases pack with
    | none => rfl
    | some p => simp only [PackTables.plan, hrevoked p rfl rfl]
  | delete uid packId =>
    cases pack with
    | none => rfl
    | some p => simp only [PackTables.plan, hrevoked p rfl rfl]
  | _ => cases pack <;> rfl

theorem Frame.planned (h : db.Frame db' locked touched) (hdb : db.WellFormed) {tx : PackTx}
    (hheld : ∀ id ∈ tx.held, ¬locked id) (hp : db.Planned tx) : db'.Planned tx := by
  have htarget : tx.request.exclusive = true → ¬locked tx.request.target := by
    intro hex
    exact hheld _ (by rw [hp.held hex]; exact List.mem_singleton_self _)
  refine ⟨hp.held, ?_, ?_⟩
  · rw [h.openPack htarget, hp.pack]
  · rw [h.plan hdb hp.pack htarget, hp.plan]

theorem Frame.map_read (h : db.Frame db' locked touched) {done : List Int}
    (hdone : ∀ uid ∈ done, ¬touched uid) : done.map db'.read = done.map db.read := by
  apply List.map_congr_left
  intro uid hmem
  exact h.read (hdone uid hmem)

theorem map_uid_read (done : List Int) : (done.map db.read).map (·.uid) = done := by
  simp [PackTables.read, Function.comp_def]

/-- The users whose orders a transaction of `update_order` filters. -/
theorem Frame.readAccessible (h : db.Frame db' locked touched) (hdb : db.WellFormed)
    (hdb' : db'.WellFormed) {tx : PackTx} (hplan : db.Planned tx)
    (hu : ∀ uid ∈ tx.uids, ¬touched uid) :
    db'.readAccessible tx.orders tx.request = db.readAccessible tx.orders tx.request := by
  have hp := hplan.plan
  cases hreq : tx.request with
  | reorder uid requested =>
    rw [hreq] at hp
    have huids : [uid] = tx.uids := by simpa [PackTables.plan] using hp
    have hfree : ¬touched uid := hu uid (huids ▸ List.mem_singleton_self uid)
    simp only [PackTables.readAccessible, accessiblePackIds, h.accessible hdb hdb' hfree]
  | _ => rfl

theorem Frame.current (h : db.Frame db' locked touched) (hdb : db.WellFormed)
    (hdb' : db'.WellFormed) {tx : PackTx} (hheld : ∀ id ∈ tx.held, ¬locked id)
    (hrows : ∀ uid ∈ tx.rows, ¬touched uid)
    (hc : db.Current tx) : db'.Current tx := by
  obtain ⟨hinserted, hstage⟩ := hc
  have hins : ∀ uid ∈ tx.inserted, ¬touched uid := fun uid hmem =>
    hrows uid (List.mem_append_left _ hmem)
  have hord : ∀ done : List Int, tx.orders = done.map db.read → ∀ uid ∈ done, ¬touched uid := by
    intro done heq uid hmem
    refine hrows uid (List.mem_append_right _ ?_)
    rw [heq, map_uid_read]
    exact hmem
  have hpresent : ∀ uid, db.Present tx uid → db'.Present tx uid := by
    intro uid hu
    exact hu.imp (h.present uid) id
  refine ⟨fun uid hmem => (h.userExtra uid (hins uid hmem)).trans (hinserted uid hmem), ?_⟩
  cases hs : tx.stage with
  | packs todo =>
    rw [hs] at hstage
    obtain ⟨hi, ho, hnone, hex⟩ := hstage
    refine ⟨hi, ho, hnone, fun he => (hex he).imp_right ?_⟩
    rintro ⟨htodo, hh, hopen⟩
    refine ⟨htodo, hh, (h.openPack fun _ => ?_).trans hopen⟩
    exact hheld _ (by rw [hh]; exact List.mem_singleton_self _)
  | inserting todo =>
    rw [hs] at hstage
    obtain ⟨hplan, ho, done, huids, hi, hd⟩ := hstage
    refine ⟨h.planned hdb hheld hplan, ho, done, huids, hi, ?_⟩
    exact fun uid hmem => hpresent uid (hd uid hmem)
  | locking todo =>
    rw [hs] at hstage
    obtain ⟨hplan, hi, hd, done, huids, horders⟩ := hstage
    refine ⟨h.planned hdb hheld hplan, hi, ?_, done, huids, ?_⟩
    · exact fun uid hmem => hpresent uid (hd uid hmem)
    rw [h.map_read (hord done horders), horders]
  | reading =>
    rw [hs] at hstage
    obtain ⟨hplan, hd, horders⟩ := hstage
    refine ⟨h.planned hdb hheld hplan, fun uid hmem => hpresent uid (hd uid hmem), ?_⟩
    rw [h.map_read (hord _ horders), horders]
  | ready =>
    rw [hs] at hstage
    obtain ⟨hplan, hd, horders, haccessible⟩ := hstage
    refine ⟨h.planned hdb hheld hplan, fun uid hmem => hpresent uid (hd uid hmem), ?_, ?_⟩
    · rw [h.map_read (hord _ horders), horders]
    · rw [h.readAccessible hdb hdb' hplan (hord _ horders), haccessible]

end PackTables

end Chahua.Stickers

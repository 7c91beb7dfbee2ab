import Chahua.Framework.Collect
import Chahua.Framework.Progress
import Chahua.Invites.InviteList

namespace Chahua.Invites

open Framework Stickers

/-- The columns that no statement changes. -/
def Invite.Stays (old new : Invite) : Prop :=
  new.createdAt = old.createdAt ∧ new.chatId = old.chatId ∧ new.creatorUid = old.creatorUid

/-- What a statement may do to the row of one id. -/
inductive InviteChange (newId : Option Int) (id : Int) : Option Invite → Option Invite → Prop
  | same (row : Option Invite) : InviteChange newId id row row
  | edit {old new : Invite} (h : old.Stays new) : InviteChange newId id (some old) (some new)
  | insert (invite : Invite) (h : newId = some id) : InviteChange newId id none (some invite)

namespace InviteEvent

/-- The id that a new invite was given. -/
def newId : InviteEvent → Option Int
  | .post _ _ id _ _ => some id
  | .create _ id _ _ => some id
  | _ => none

/-- Ids are drawn as 64-bit integers. -/
def DrawsI64 (e : InviteEvent) : Prop := ∀ id, e.newId = some id → inI64 id = true

end InviteEvent

namespace InviteSystem

variable {s t : InviteSystem}

theorem settle_created {uid id now : Int} {input : NewInviteInput} {codes : List String} (j : Int) :
    InviteChange (some id) j (s.db.invites.row j)
      ((s.settle uid ((s.db.createInvite id now input codes).map Prod.fst)).db.invites.row j) := by
  cases hcreate : s.db.createInvite id now input codes with
  | error e => exact .same _
  | ok pair =>
    obtain ⟨db', invite⟩ := pair
    obtain ⟨hfree, hdb, -⟩ := InviteTables.createInvite_spec hcreate
    simp only [Except.map, settle, hdb, Table.upsert_row]
    split
    · next hj =>
      rw [hj, hfree]
      exact .insert _ rfl
    · exact .same _

theorem upsert_edited {newId : Option Int} {id : Int} {old new : Invite}
    (hrow : s.db.invites.row id = some old) (h : old.Stays new) (j : Int) :
    InviteChange newId j (s.db.invites.row j) ((s.db.invites.upsert id new).row j) := by
  rw [Table.upsert_row]
  split
  · next hj =>
    rw [hj, hrow]
    exact .edit h
  · exact .same _

theorem step_invites {e : InviteEvent} (h : s.step e = some t) (j : Int) :
    InviteChange e.newId j (s.db.invites.row j) (t.db.invites.row j) := by
  cases e with
  | group chatId kind =>
    simp only [step] at h
    split at h
    · cases h
    · cases h
      exact .same _
  | message chatId messageId =>
    obtain ⟨group, -, rfl⟩ := Option.map_eq_some_iff.mp h
    exact .same _
  | addMember chatId uid role now =>
    simp only [step] at h
    split at h
    · cases h
    · obtain ⟨u, hu, rfl⟩ := Option.map_eq_some_iff.mp h
      rw [← (now_of_tick hu).2.2]
      exact .same _
  | leave chatId uid =>
    cases h
    exact .same _
  | post uid body id now codes =>
    obtain ⟨u, hu, rfl⟩ := Option.map_eq_some_iff.mp h
    rw [← (now_of_tick hu).2.2]
    cases hpost : u.db.postInvite uid body id now codes with
    | error e => exact .same _
    | ok pair =>
      obtain ⟨input, hcreate⟩ := InviteTables.postInvite_spec hpost
      rw [← hcreate]
      exact settle_created j
  | create input id now codes =>
    obtain ⟨u, hu, rfl⟩ := Option.map_eq_some_iff.mp h
    rw [← (now_of_tick hu).2.2]
    exact settle_created j
  | patch uid inviteId expiresAt =>
    simp only [step] at h
    split at h
    · cases h
    · cases h
      cases hpatch : s.db.patchInvite uid inviteId expiresAt with
      | error e => exact .same _
      | ok db' =>
        obtain ⟨invite, next, hrow, rfl⟩ := InviteTables.patchInvite_spec hpatch
        refine upsert_edited hrow ?_ j
        exact ⟨rfl, rfl, rfl⟩
  | revoke uid inviteId now =>
    simp only [step] at h
    split at h
    · cases h
    · obtain ⟨u, hu, rfl⟩ := Option.map_eq_some_iff.mp h
      rw [← (now_of_tick hu).2.2]
      cases hdelete : u.db.deleteInvite uid inviteId now with
      | error e => exact .same _
      | ok db' =>
        obtain ⟨invite, hrow, rfl⟩ := InviteTables.deleteInvite_spec hdelete
        refine upsert_edited hrow ?_ j
        exact ⟨rfl, rfl, rfl⟩
  | redeem k uid code now =>
    simp only [step] at h
    split at h
    · cases h
    · obtain ⟨u, hu, rfl⟩ := Option.map_eq_some_iff.mp h
      rw [← (now_of_tick hu).2.2]
      unfold redeemInvite
      split
      · exact .same _
      · exact .same _
  | check k =>
    obtain ⟨r, -, hcheck⟩ := Option.bind_eq_some_iff.mp h
    split at hcheck
    · cases hcheck
      unfold checkRedemption
      split
      · exact .same _
      · exact .same _
    · cases hcheck
  | join k now =>
    obtain ⟨r, -, hjoin⟩ := Option.bind_eq_some_iff.mp h
    split at hjoin
    · obtain ⟨u, hu, hjoin⟩ := Option.bind_eq_some_iff.mp hjoin
      rw [← (now_of_tick hu).2.2]
      unfold joinGroup at hjoin
      split at hjoin
      · cases hjoin
        exact .same _
      · split at hjoin
        · cases hjoin
        · split at hjoin
          · cases hjoin
            exact .same _
          · cases hjoin
            exact .same _
    · cases hjoin
  | useInvite k =>
    obtain ⟨r, -, huse⟩ := Option.bind_eq_some_iff.mp h
    split at huse
    · unfold useTargeted at huse
      split at huse
      · cases huse
        exact .same _
      · split at huse
        · cases huse
        · split at huse
          · cases huse
            exact .same _
          · cases huse
            exact .same _
    · cases huse
  | commit k =>
    obtain ⟨r, -, hcommit⟩ := Option.bind_eq_some_iff.mp h
    split at hcommit
    · cases hcommit
      simp only [commitJoin, Table.updateWhere_row]
      cases hrow : s.db.invites.row j with
      | none => exact .same _
      | some invite =>
        refine .edit ?_
        split
        · exact ⟨rfl, rfl, rfl⟩
        · exact ⟨rfl, rfl, rfl⟩
    · cases hcommit
  | rollback k =>
    simp only [step] at h
    split at h
    · cases h
      exact .same _
    · cases h

end InviteSystem

namespace InviteTables

variable {db : InviteTables}

theorem mem_selectInvites {p : Invite → Bool} {invite : Invite} :
    invite ∈ db.selectInvites p ↔ ∃ id, db.invites.row id = some invite ∧ p invite = true := by
  simp only [selectInvites, List.mem_filterMap, mem_ascending, Table.mem_select]
  constructor
  · intro h
    obtain ⟨id, ⟨found, hfound, hp⟩, hrow⟩ := h
    obtain rfl := Option.some.inj (hfound.symm.trans hrow)
    exact ⟨id, hrow, hp⟩
  · intro h
    obtain ⟨id, hrow, hp⟩ := h
    exact ⟨id, ⟨invite, hrow, hp⟩, hrow⟩

/-- The id breaks every tie. -/
theorem selectInvites_ranks (hids : ∀ id invite, db.invites.row id = some invite → invite.id = id)
    (p : Invite → Bool) :
    ((db.selectInvites p).map fun invite => inviteRank invite.createdAt invite.id).Nodup := by
  rw [List.Nodup, List.pairwise_map, selectInvites, List.pairwise_filterMap]
  refine (nodup_ascending _).imp fun {a b} hab x hx y hy heq => hab ?_
  have hid : x.id = y.id := congrArg (fun k => (ofLex k).2) heq
  rw [← hids a x hx, ← hids b y hy, hid]

end InviteTables

theorem behindCursor_eq (createdAt id : Int) (invite : Invite) :
    behindCursor (createdAt, id) invite =
      decide (inviteRank invite.createdAt invite.id < inviteRank createdAt id) := by
  rw [Bool.eq_iff_iff, decide_eq_true_eq, inviteRank, inviteRank, Prod.Lex.toLex_lt_toLex]
  simp [behindCursor]

theorem inviteLimit_pos (limit : Option Int) : 0 < (inviteLimit limit).toNat := by
  have h : 1 ≤ inviteLimit limit := le_max_left _ _
  omega

namespace InviteLookups

variable {c : InviteLookups} {db : InviteTables} {r : Reader InviteResponse String}

def respond (c : InviteLookups) (invite : Invite) : InviteResponse :=
  c.withNames (inviteToResponse invite)

@[simp] theorem respond_rank (invite : Invite) :
    (c.respond invite).rank = inviteRank invite.createdAt invite.id := rfl

theorem respond_ranks (hids : ∀ id invite, db.invites.row id = some invite → invite.id = id)
    (p : Invite → Bool) : (((db.selectInvites p).map c.respond).map InviteResponse.rank).Nodup := by
  rw [List.map_map]
  exact InviteTables.selectInvites_ranks hids p

/-- The cursor of a reader's last row selects what stands behind it. -/
theorem behind_cursor (hc : c.RoundTrips) (hr : r.Descends InviteResponse.rank c.cursor)
    (hended : r.ended = false) (hrange : ∀ row ∈ r.rows, inI64 row.id = true) :
    c.afterFilter r.cursor =
      .ok fun invite => decide (r.Behind InviteResponse.rank (c.respond invite).rank) := by
  rw [hr.cursor hended]
  cases hlast : r.rows.getLast? with
  | none => simp [afterFilter, Reader.Behind, hlast]
  | some row =>
    have hid := hrange row (List.mem_of_getLast? hlast)
    simp only [Option.map_some, afterFilter, parseInviteCursor_cursor hc hid, Except.map,
      Except.ok.injEq]
    refine funext fun invite => ?_
    rw [behindCursor_eq]
    simp only [Reader.Behind, hlast, Option.mem_some_iff, forall_eq', respond_rank]
    rfl

end InviteLookups

namespace InviteTables

variable {c : InviteLookups} {db : InviteTables} {r : Reader InviteResponse String}

theorem getInvites_spec {uid now : Int} {query : ListInvitesQuery} {response : ListInvitesResponse}
    (h : db.getInvites c uid query now = .ok response) :
    ∃ behind, c.afterFilter query.after = .ok behind ∧
      (⟨response.invites, response.nextCursor⟩ : Chunk InviteResponse String) =
        chunk c.cursor (inviteLimit query.limit).toNat
          ((orderDesc (fun invite => inviteRank invite.createdAt invite.id)
            (db.selectInvites fun invite => query.selects uid now invite && behind invite)).map
              c.respond) := by
  have hn : (inviteLimit query.limit + 1).toNat = (inviteLimit query.limit).toNat + 1 := by
    have hpos := inviteLimit_pos query.limit
    omega
  unfold getInvites at h
  obtain ⟨-, -, h⟩ := bind_eq_ok.mp h
  obtain ⟨behind, hbehind, h⟩ := bind_eq_ok.mp h
  cases h
  refine ⟨behind, hbehind, ?_⟩
  rw [← chunk_take hn, ← List.map_take]
  simp only [chunk, ← List.map_take, List.length_map, List.getLast?_map, Option.map_map]
  rfl

/-- A page is cut from what is listed behind the reader's last row. -/
theorem getInvites_page (hc : c.RoundTrips)
    (hids : ∀ id invite, db.invites.row id = some invite → invite.id = id)
    (hr : r.Descends InviteResponse.rank c.cursor) (hended : r.ended = false)
    (hrange : ∀ row ∈ r.rows, inI64 row.id = true) {uid now : Int} {limit : Option Int}
    {query : ListInvitesQuery} {response : ListInvitesResponse}
    (h : db.getInvites c uid { query with limit := limit, after := r.cursor } now = .ok response) :
    (⟨response.invites, response.nextCursor⟩ : Chunk InviteResponse String) =
      chunk c.cursor (inviteLimit limit).toNat (r.listing InviteResponse.rank
        ((db.selectInvites (query.selects uid now)).map c.respond)) := by
  obtain ⟨behind, hbehind, hpage⟩ := getInvites_spec h
  rw [InviteLookups.behind_cursor hc hr hended hrange] at hbehind
  obtain rfl := Except.ok.inj hbehind
  rw [hpage]
  congr 1
  refine descending_ext InviteResponse.rank ?_ ?_ fun row => ?_
  · exact List.pairwise_map.mpr (orderDesc_strict (selectInvites_ranks hids _))
  · exact (orderDesc_strict (InviteLookups.respond_ranks hids _)).filter _
  · simp only [Reader.mem_listing, List.mem_map, mem_orderDesc, mem_selectInvites,
      Bool.and_eq_true, decide_eq_true_eq]
    constructor
    · intro hrow
      obtain ⟨invite, ⟨id, hid, hselect, hbehind⟩, rfl⟩ := hrow
      exact ⟨⟨invite, ⟨id, hid, hselect⟩, rfl⟩, hbehind⟩
    · intro hrow
      obtain ⟨⟨invite, ⟨id, hid, hselect⟩, rfl⟩, hbehind⟩ := hrow
      exact ⟨invite, ⟨id, hid, hselect, hbehind⟩, rfl⟩

end InviteTables

/-- One reader's listing of invites, while the system goes on. -/
structure InviteListing where
  system : InviteSystem
  reader : Reader InviteResponse String

inductive ListingEvent where
  | write (e : InviteEvent)
  | page (now : Int) (limit : Option Int)
  deriving DecidableEq, Repr

namespace InviteListing

/-- An error of a page leaves the reader where it is. -/
def readPage (c : InviteLookups) (uid : Int) (query : ListInvitesQuery) (now : Int)
    (limit : Option Int) (system : InviteSystem) (reader : Reader InviteResponse String) :
    Reader InviteResponse String :=
  match system.db.getInvites c uid { query with limit := limit, after := reader.cursor } now with
  | .ok response => reader.read ⟨response.invites, response.nextCursor⟩
  | .error _ => reader

def step (c : InviteLookups) (uid : Int) (query : ListInvitesQuery) (s : InviteListing) :
    ListingEvent → Option InviteListing
  | .write e => (s.system.step e).map fun system => { s with system := system }
  | .page now limit =>
      if s.reader.ended then none
      else (s.system.tick now).map fun system =>
        ⟨system, readPage c uid query now limit system s.reader⟩

def initial (groups : Table Int Group) (members : Table (Int × Int) GroupMembership) :
    InviteListing := ⟨.initial groups members, .start⟩

/-- The row was read from an invite that is still stored, under the same time. -/
def Shown (query : ListInvitesQuery) (uid : Int) (db : InviteTables) (row : InviteResponse) :
    Prop :=
  ∃ invite, db.invites.row row.id = some invite ∧ invite.createdAt = row.createdAt ∧
    query.scope uid invite = true

structure Steady (c : InviteLookups) (uid : Int) (query : ListInvitesQuery) (s : InviteListing) :
    Prop where
  sound : s.system.Sound
  ids : ∀ id, (s.system.db.invites.row id).isSome = true → inI64 id = true
  reader : s.reader.Descends InviteResponse.rank c.cursor
  shown : ∀ row ∈ s.reader.rows, Shown query uid s.system.db row

variable {c : InviteLookups} {uid : Int} {query : ListInvitesQuery} {s t : InviteListing}

theorem Shown.write {u : InviteSystem} {e : InviteEvent} {row : InviteResponse}
    (h : Shown query uid s.system.db row) (hstep : s.system.step e = some u) :
    Shown query uid u.db row := by
  obtain ⟨invite, hrow, hcreated, hscope⟩ := h
  have hchange := InviteSystem.step_invites hstep row.id
  rw [hrow] at hchange
  generalize hlater : u.db.invites.row row.id = later at hchange
  cases hchange with
  | same => exact ⟨invite, hlater, hcreated, hscope⟩
  | @edit _ new hstays =>
    refine ⟨new, hlater, hstays.1.trans hcreated, ?_⟩
    rw [← hscope]
    simp only [ListInvitesQuery.scope, hstays.2.1, hstays.2.2]

theorem ids_write {u : InviteSystem} {e : InviteEvent} (he : e.DrawsI64)
    (h : ∀ id, (s.system.db.invites.row id).isSome = true → inI64 id = true)
    (hstep : s.system.step e = some u) (id : Int) (hid : (u.db.invites.row id).isSome = true) :
    inI64 id = true := by
  have hchange := InviteSystem.step_invites hstep id
  specialize h id
  generalize s.system.db.invites.row id = old at hchange h
  generalize u.db.invites.row id = new at hchange hid
  cases hchange with
  | same => exact h hid
  | edit => exact h rfl
  | insert invite hnew => exact he id hnew

theorem Steady.inI64_of_shown (h : Steady c uid query s) :
    ∀ row ∈ s.reader.rows, inI64 row.id = true := by
  intro row hrow
  obtain ⟨invite, hinvite, -⟩ := h.shown row hrow
  exact h.ids row.id (by rw [hinvite]; rfl)

/-- What a page adds to a reader that has not ended. -/
theorem Steady.readPage_cases (hc : c.RoundTrips) (h : Steady c uid query s)
    (hended : s.reader.ended = false) (now : Int) (limit : Option Int) :
    readPage c uid query now limit s.system s.reader = s.reader ∨
    readPage c uid query now limit s.system s.reader =
      s.reader.read (chunk c.cursor (inviteLimit limit).toNat
        (s.reader.listing InviteResponse.rank
          ((s.system.db.selectInvites (query.selects uid now)).map c.respond))) := by
  unfold readPage
  split
  · next response hresponse =>
    right
    rw [InviteTables.getInvites_page hc h.sound.id h.reader hended h.inI64_of_shown hresponse]
  · exact Or.inl rfl

theorem Steady.tick {system : InviteSystem} {now : Int} (h : Steady c uid query s)
    (ht : s.system.tick now = some system) : Steady c uid query { s with system := system } := by
  have hdb := (InviteSystem.now_of_tick ht).2.2
  exact ⟨h.sound.tick ht, hdb.symm ▸ h.ids, h.reader, hdb.symm ▸ h.shown⟩

theorem Steady.readPage (hc : c.RoundTrips) (h : Steady c uid query s)
    (hended : s.reader.ended = false) {now : Int} {limit : Option Int} :
    Steady c uid query ⟨s.system, readPage c uid query now limit s.system s.reader⟩ := by
  obtain hsame | hread := h.readPage_cases hc hended now limit
  · rw [hsame]
    exact h
  · rw [hread]
    refine ⟨h.sound, h.ids, ?_, ?_⟩
    · exact Reader.read_descends (inviteLimit_pos limit) h.reader
        (InviteLookups.respond_ranks h.sound.id _)
    · intro row hrow
      obtain hrow | hrow := List.mem_append.mp hrow
      · exact h.shown row hrow
      · have hlisted := (Reader.mem_listing.mp (List.mem_of_mem_take hrow)).1
        obtain ⟨invite, hinvite, rfl⟩ := List.mem_map.mp hlisted
        obtain ⟨id, hid, hselects⟩ := InviteTables.mem_selectInvites.mp hinvite
        have hidrow : (c.respond invite).id = id := h.sound.id id invite hid
        refine ⟨invite, hidrow ▸ hid, rfl, ?_⟩
        exact (Bool.and_eq_true_iff.mp hselects).1

theorem steady_step (hc : c.RoundTrips) (s : InviteListing) (e : ListingEvent) (t : InviteListing)
    (h : Steady c uid query s) (he : ∀ w, e = .write w → w.DrawsI64)
    (hstep : step c uid query s e = some t) : Steady c uid query t := by
  cases e with
  | write e =>
    obtain ⟨system, hsystem, rfl⟩ := Option.map_eq_some_iff.mp hstep
    exact ⟨InviteSystem.sound_step _ _ _ h.sound hsystem, ids_write (he e rfl) h.ids hsystem,
      h.reader, fun row hrow => (h.shown row hrow).write hsystem⟩
  | page now limit =>
    simp only [step] at hstep
    split at hstep
    · cases hstep
    · next hended =>
      obtain ⟨system, hsystem, rfl⟩ := Option.map_eq_some_iff.mp hstep
      exact (h.tick hsystem).readPage hc (Bool.eq_false_iff.mpr hended)

theorem steady_initial (groups : Table Int Group)
    (members : Table (Int × Int) GroupMembership) :
    Steady c uid query (initial groups members) := by
  refine ⟨InviteSystem.sound_initial groups members, ?_, Reader.start_descends, ?_⟩
  · intro id hid
    simp [initial, InviteSystem.initial] at hid
  · intro row hrow
    cases hrow

/-- The invite is among those that a page of this time lists. -/
def Lists (query : ListInvitesQuery) (uid now id : Int) (db : InviteTables) : Prop :=
  ∃ invite, db.invites.row id = some invite ∧ query.selects uid now invite = true

/-- Nothing was read yet, or the invite was shown or is still to come. -/
def Tracks (id : Int) (s : InviteListing) : Prop :=
  s.reader = Reader.start ∨ ∃ invite, s.system.db.invites.row id = some invite ∧
    s.reader.Covers InviteResponse.rank (inviteRank invite.createdAt id)

theorem Tracks.write {u : InviteSystem} {e : InviteEvent} {id : Int} (h : s.Tracks id)
    (hstep : s.system.step e = some u) : Tracks id { s with system := u } := by
  obtain hstart | ⟨invite, hrow, hcovers⟩ := h
  · exact Or.inl hstart
  · have hchange := InviteSystem.step_invites hstep id
    rw [hrow] at hchange
    generalize hlater : u.db.invites.row id = later at hchange
    right
    cases hchange with
    | same => exact ⟨invite, hlater, hcovers⟩
    | @edit _ new hstays =>
      refine ⟨new, hlater, ?_⟩
      rw [hstays.1]
      exact hcovers

theorem Tracks.readPage (hc : c.RoundTrips) (hs : Steady c uid query s)
    (hended : s.reader.ended = false) {now id : Int} {limit : Option Int} (h : s.Tracks id)
    (hlists : Lists query uid now id s.system.db) :
    Tracks id ⟨s.system, InviteListing.readPage c uid query now limit s.system s.reader⟩ := by
  obtain ⟨invite, hrow, hselects⟩ := hlists
  have hcovers : s.reader.Covers InviteResponse.rank (inviteRank invite.createdAt id) := by
    obtain hstart | ⟨found, hfound, hcovers⟩ := h
    · rw [hstart]
      exact Reader.start_covers _
    · obtain rfl := Option.some.inj (hrow.symm.trans hfound)
      exact hcovers
  obtain hsame | hread := hs.readPage_cases hc hended now limit
  · rw [hsame]
    exact h
  · rw [hread]
    have hmem : c.respond invite ∈
        (s.system.db.selectInvites (query.selects uid now)).map c.respond :=
      List.mem_map_of_mem (InviteTables.mem_selectInvites.mpr ⟨id, hrow, hselects⟩)
    have hrank : (c.respond invite).rank = inviteRank invite.createdAt id := by
      rw [InviteLookups.respond_rank, hs.sound.id id invite hrow]
    refine Or.inr ⟨invite, hrow, ?_⟩
    rw [← hrank] at hcovers ⊢
    exact Reader.read_covers (inviteLimit_pos limit)
      (InviteLookups.respond_ranks hs.sound.id _) hmem hcovers

theorem tracks_step (hc : c.RoundTrips) {id : Int} (s : InviteListing) (e : ListingEvent)
    (t : InviteListing) (h : Steady c uid query s ∧ s.Tracks id)
    (he : (∀ w, e = .write w → w.DrawsI64) ∧
      ∀ now limit, e = .page now limit → Lists query uid now id s.system.db)
    (hstep : step c uid query s e = some t) : Steady c uid query t ∧ t.Tracks id := by
  refine ⟨steady_step hc s e t h.1 he.1 hstep, ?_⟩
  cases e with
  | write e =>
    obtain ⟨system, hsystem, rfl⟩ := Option.map_eq_some_iff.mp hstep
    exact h.2.write hsystem
  | page now limit =>
    have hlists := he.2 now limit rfl
    simp only [step] at hstep
    split at hstep
    · cases hstep
    · next hended =>
      obtain ⟨system, hsystem, rfl⟩ := Option.map_eq_some_iff.mp hstep
      have hdb := (InviteSystem.now_of_tick hsystem).2.2
      have htracks : Tracks id { s with system := system } := by
        simp only [Tracks, hdb]
        exact h.2
      exact htracks.readPage hc (h.1.tick hsystem) (Bool.eq_false_iff.mpr hended)
        (hdb.symm ▸ hlists)

end InviteListing

open InviteListing in
/-- A user pages through the invites of a group, or those they created, while invites are made,
edited, revoked and redeemed between the pages. No invite is shown twice, the newest come first,
and whatever was listed at every page's time has been shown when the pages end. -/
theorem invite_pages_stable {c : InviteLookups} (hc : c.RoundTrips) {uid : Int}
    {query : ListInvitesQuery} {groups : Table Int Group}
    {members : Table (Int × Int) GroupMembership} {events : List ListingEvent} {t : InviteListing}
    (hids : ∀ e, ListingEvent.write e ∈ events → e.DrawsI64)
    (hrun : run (step c uid query) (initial groups members) events = some t) :
    t.reader.rows.Pairwise (fun a b => b.rank < a.rank) ∧
    (t.reader.rows.map InviteResponse.id).Nodup ∧
    (∀ row ∈ t.reader.rows, Shown query uid t.system.db row) ∧
    (t.reader.ended = true → ∀ id, Along (step c uid query)
        (fun s e => ∀ now limit, e = .page now limit → Lists query uid now id s.system.db)
        (initial groups members) events → id ∈ t.reader.rows.map InviteResponse.id) := by
  have hdraws : Along (step c uid query) (fun _ e => ∀ w, e = .write w → w.DrawsI64)
      (initial groups members) events :=
    along_of_forall _ fun e he w hw => hids w (hw ▸ he)
  have hsteady := run_invariant_along (steady_step hc) (steady_initial groups members) hdraws hrun
  refine ⟨hsteady.reader.sorted, ?_, hsteady.shown, ?_⟩
  · refine List.pairwise_map.mpr (hsteady.reader.sorted.imp_of_mem ?_)
    intro a b ha hb hab hid
    obtain ⟨x, hx, hxa, -⟩ := hsteady.shown a ha
    obtain ⟨y, hy, hyb, -⟩ := hsteady.shown b hb
    obtain rfl := Option.some.inj (hx.symm.trans (hid ▸ hy))
    refine hab.ne ?_
    rw [InviteResponse.rank, InviteResponse.rank, ← hxa, ← hyb, hid]
  · intro hended id hlists
    have htracks := run_invariant_along (tracks_step hc)
      ⟨steady_initial groups members, Or.inl rfl⟩ (hdraws.and hlists) hrun
    obtain hstart | ⟨invite, -, hcovers⟩ := htracks.2
    · rw [hstart] at hended
      cases hended
    · obtain ⟨row, hrow, hrank⟩ := List.mem_map.mp (hcovers.shown hended)
      exact List.mem_map.mpr ⟨row, hrow, congrArg (fun k => (ofLex k).2) hrank⟩

/-- Times of one fixed second are written as such; the others stay numbers. -/
def secondStamp (t : Int) : String :=
  if t = 1000000 then "1970-01-01T00:00:01+00:00"
  else if t = 2000000 then "1970-01-01T00:00:02+00:00" else toString t

def parseStamp (text : String) : Option Int :=
  if text = "1970-01-01T00:00:01+00:00" then some 1000000
  else if text = "1970-01-01T00:00:02+00:00" then some 2000000 else text.toInt?

def plainLookups : InviteLookups := ⟨secondStamp, parseStamp, fun _ => none, fun _ => none⟩

theorem plainLookups_roundTrips : plainLookups.RoundTrips := by
  constructor
  · intro t
    have hstamp : ∀ text : String, 'T' ∈ text.toList → t.repr ≠ text := by
      intro text htext heq
      exact not_mem_toString (by decide) (by decide) t (heq ▸ htext)
    change parseStamp (secondStamp t) = some t
    unfold secondStamp
    split
    · next ht => rw [ht]; decide +kernel
    · split
      · next ht => rw [ht]; decide +kernel
      · change parseStamp t.repr = some t
        rw [parseStamp, if_neg (hstamp _ (by decide +kernel)),
          if_neg (hstamp _ (by decide +kernel)), Int.toInt?_repr]
  · intro t
    change '|' ∉ (secondStamp t).toList
    unfold secondStamp
    split
    · decide +kernel
    · split
      · decide +kernel
      · exact not_mem_toString (by decide) (by decide) t

/-- The id that an event draws. -/
def ListingEvent.drawn : ListingEvent → Option Int
  | .write e => e.newId
  | .page _ _ => none

/-- Two invites; the older is revoked and a third is made between their pages. -/
def pagedMeanwhile : List ListingEvent :=
  [.write (.group 10 .group), .write (.addMember 10 1 .admin 0),
    .write (.post 1 ⟨10, .generic, none, none, none⟩ 5 1000000 ["abcdefgh12"]),
    .write (.post 1 ⟨10, .generic, none, none, none⟩ 6 2000000 ["bbcdefgh12"]),
    .page 2000000 (some 1), .write (.revoke 1 5 2000000),
    .write (.post 1 ⟨10, .generic, none, none, none⟩ 7 3000000 ["cbcdefgh12"]),
    .page 3000000 (some 1)]

open InviteListing in
theorem pagedMeanwhile_stable : ∃ t : InviteListing,
    run (step plainLookups 1 ⟨some 10, none, none, none⟩) (initial Table.empty Table.empty)
      pagedMeanwhile = some t ∧
    t.reader.rows.map InviteResponse.id = [6, 5] ∧ t.reader.ended = true ∧
    (t.reader.rows.map InviteResponse.id).Nodup ∧
    ∀ id, Along (step plainLookups 1 ⟨some 10, none, none, none⟩)
      (fun s e => ∀ now limit, e = .page now limit →
        Lists ⟨some 10, none, none, none⟩ 1 now id s.system.db)
      (initial Table.empty Table.empty) pagedMeanwhile →
        id ∈ t.reader.rows.map InviteResponse.id := by
  have hend : ((run (step plainLookups 1 ⟨some 10, none, none, none⟩)
      (initial Table.empty Table.empty) pagedMeanwhile).map fun t =>
        (t.reader.rows.map InviteResponse.id, t.reader.ended)) = some ([6, 5], true) := by
    simp only [pagedMeanwhile, run, step, readPage, InviteTables.getInvites,
      orderDesc_eq_insertionSort]
    decide +kernel
  obtain ⟨t, hrun, heq⟩ := Option.map_eq_some_iff.mp hend
  have hboth := Prod.mk.inj heq
  have hids : ∀ e, ListingEvent.write e ∈ pagedMeanwhile → e.DrawsI64 := by
    intro e he id hid
    have hall : pagedMeanwhile.all (fun w => w.drawn.all inI64) = true := by decide +kernel
    have h := List.all_eq_true.mp hall _ he
    simpa [ListingEvent.drawn, hid] using h
  have h := invite_pages_stable plainLookups_roundTrips hids hrun
  exact ⟨t, hrun, hboth.1, hboth.2, h.2.1, h.2.2.2 hboth.2⟩

end Chahua.Invites

import Chahua.Invites.Redemptions

namespace Chahua.Invites

open Framework

namespace InviteTables

variable {db db' : InviteTables}

theorem byCode_eq_some {code : String} {invite : Invite} (h : db.byCode code = some invite) :
    ∃ id, db.invites.row id = some invite ∧ invite.code = code := by
  obtain ⟨id, hid, hrow⟩ := Option.bind_eq_some_iff.mp h
  obtain ⟨found, hfound, hcode⟩ := Table.mem_select.mp (Table.oldest_mem hid)
  obtain rfl := Option.some.inj (hrow.symm.trans hfound)
  exact ⟨id, hrow, of_decide_eq_true hcode⟩

/-- The new invite is stored under a free id, in a group that is no direct chat. -/
theorem insertInviteWithCodes_spec {id now : Int} {input : NewInviteInput} {codes : List String}
    {invite : Invite} (h : db.insertInviteWithCodes id now input codes = .ok (db', invite)) :
    db.invites.row id = none ∧ db' = { db with invites := db.invites.upsert id invite } ∧
      invite.id = id ∧ invite.chatId = input.chatId ∧ invite.revokedAt = none ∧
      invite.usedAt = none := by
  induction codes with
  | nil => cases h
  | cons code codes ih =>
    simp only [insertInviteWithCodes] at h
    split at h
    · exact ih h
    · split at h
      · next hfree =>
        cases h
        exact ⟨Option.isNone_iff_eq_none.mp hfree.2, rfl, rfl, rfl, rfl, rfl⟩
      · cases h

theorem createInvite_spec {id now : Int} {input : NewInviteInput} {codes : List String}
    {invite : Invite} (h : db.createInvite id now input codes = .ok (db', invite)) :
    db.invites.row id = none ∧ db' = { db with invites := db.invites.upsert id invite } ∧
      invite.id = id ∧ invite.revokedAt = none ∧ invite.usedAt = none ∧
      ∃ group, db.groups.row invite.chatId = some group ∧ group.kind ≠ .dm := by
  unfold createInvite at h
  split at h
  · cases h
  · next group hgroup =>
    split at h
    · cases h
    · next hkind =>
      obtain ⟨hrow, hdb, hid, hchat, hrevoked, hused⟩ := insertInviteWithCodes_spec h
      exact ⟨hrow, hdb, hid, hrevoked, hused, group, hchat ▸ hgroup, hkind⟩

theorem postInvite_spec {uid id now : Int} {body : CreateInviteBody} {codes : List String}
    {invite : Invite} (h : db.postInvite uid body id now codes = .ok (db', invite)) :
    ∃ input, db.createInvite id now input codes = .ok (db', invite) := by
  unfold postInvite at h
  cases hbody : validateCreateBody body with
  | error e => rw [hbody] at h; cases h
  | ok u =>
    cases hadmin : db.requireAdminRole body.chatId uid with
    | error e => simp [bind, Except.bind, hbody, hadmin] at h
    | ok u =>
      simp only [bind, Except.bind, hbody, hadmin] at h
      exact ⟨_, h⟩

theorem loadInviteById_eq_ok {inviteId : Int} {invite : Invite}
    (h : db.loadInviteById inviteId = .ok invite) : db.invites.row inviteId = some invite := by
  unfold loadInviteById at h
  split at h
  · next found hfound =>
    cases h
    exact hfound
  · cases h

theorem patchInvite_spec {uid inviteId : Int} {expiresAt : Option (Option Int)}
    (h : db.patchInvite uid inviteId expiresAt = .ok db') :
    ∃ invite next, db.invites.row inviteId = some invite ∧
      db' = { db with
        invites := db.invites.upsert inviteId { invite with expiresAt := next } } := by
  unfold patchInvite at h
  cases hload : db.loadInviteById inviteId with
  | error e => rw [hload] at h; cases h
  | ok invite =>
    cases hadmin : db.requireAdminRole invite.chatId uid with
    | error e => simp [bind, Except.bind, hload, hadmin] at h
    | ok u =>
      simp only [bind, Except.bind, hload, hadmin] at h
      split at h
      · cases h
      · next next =>
        cases h
        exact ⟨invite, next, loadInviteById_eq_ok hload, rfl⟩

theorem deleteInvite_spec {uid inviteId now : Int}
    (h : db.deleteInvite uid inviteId now = .ok db') :
    ∃ invite, db.invites.row inviteId = some invite ∧ db' = { db with
      invites := db.invites.upsert inviteId { invite with revokedAt := some now } } := by
  unfold deleteInvite at h
  cases hload : db.loadInviteById inviteId with
  | error e => rw [hload] at h; cases h
  | ok invite =>
    cases hadmin : db.requireAdminRole invite.chatId uid with
    | error e => simp [bind, Except.bind, hload, hadmin] at h
    | ok u =>
      simp only [bind, Except.bind, hload, hadmin, pure, Except.pure, Except.ok.injEq] at h
      exact ⟨invite, loadInviteById_eq_ok hload, h.symm⟩

theorem loadActiveInvite_spec {code : String} {now : Int} {invite : Invite}
    (h : db.loadActiveInvite code now = .ok invite) :
    ∃ id, db.invites.row id = some invite ∧ validateInviteIsActive invite now = true := by
  unfold loadActiveInvite at h
  split at h
  · cases h
  · split at h
    · cases h
    · next found hfound =>
      split at h
      · next hactive =>
        cases h
        obtain ⟨id, hrow, -⟩ := byCode_eq_some hfound
        exact ⟨id, hrow, hactive⟩
      · cases h

theorem checkEligibility_target {invite : Invite} {uid : Int}
    (h : db.checkEligibility invite uid = .ok ()) (ht : invite.inviteType = .targeted) :
    invite.targetUid = some uid := by
  unfold checkEligibility at h
  split at h
  · cases h
  · rw [ht] at h
    dsimp only at h
    split at h
    · cases h
    · next hne => exact not_not.mp hne

/-- An invite keeps what its redemptions rely on; it is revoked at `floor` or later. -/
def Keeps (floor : Int) (old new : Invite) : Prop :=
  new.id = old.id ∧ new.chatId = old.chatId ∧ new.inviteType = old.inviteType ∧
    new.targetUid = old.targetUid ∧ new.usedAt = old.usedAt ∧
    ∀ t, new.revokedAt = some t → floor ≤ t ∨ old.revokedAt = some t

theorem Keeps.refl (floor : Int) (invite : Invite) : Keeps floor invite invite :=
  ⟨rfl, rfl, rfl, rfl, rfl, fun _ h => Or.inr h⟩

end InviteTables

namespace InviteSystem

variable {s : InviteSystem}

def joinsBy (joins : List Join) (inviteId : Int) : List Join :=
  joins.filter fun join => decide (join.inviteId = inviteId)

/-- What holds between any two statements. -/
structure Sound (s : InviteSystem) : Prop where
  id : ∀ id invite, s.db.invites.row id = some invite → invite.id = id
  group : ∀ id invite, s.db.invites.row id = some invite →
    ∃ group, s.db.groups.row invite.chatId = some group ∧ group.kind ≠ .dm
  revoked : ∀ id invite t, s.db.invites.row id = some invite → invite.revokedAt = some t →
    t ≤ s.now
  joined : ∀ join ∈ s.joins, ∃ invite, s.db.invites.row join.inviteId = some invite ∧
    invite.chatId = join.chatId ∧
    (invite.inviteType = .targeted →
      invite.targetUid = some join.uid ∧ invite.usedAt = some join.joinedAt) ∧
    join.openedAt ≤ s.now ∧ ∀ t, invite.revokedAt = some t → join.openedAt ≤ t
  once : ∀ id invite, s.db.invites.row id = some invite → invite.inviteType = .targeted →
    (joinsBy s.joins id).length = if invite.usedAt.isSome then 1 else 0
  opened : ∀ k r, s.redemptions.row k = some r → r.openedAt ≤ s.now ∧
    ∃ invite, s.db.invites.row r.invite.id = some invite ∧ invite.chatId = r.invite.chatId ∧
      invite.inviteType = r.invite.inviteType ∧ invite.targetUid = r.invite.targetUid ∧
      (∀ t, invite.revokedAt = some t → r.openedAt ≤ t) ∧
      (r.holdsInvite = true → invite.usedAt = none)
  target : ∀ k r, s.redemptions.row k = some r → r.stage ≠ .opened →
    r.invite.inviteType = .targeted → r.invite.targetUid = some r.uid
  vacant : ∀ k r, s.redemptions.row k = some r → r.holdsMember = true →
    s.db.members.row r.key = none
  invites : ∀ j k a b, j ≠ k → s.redemptions.row j = some a → s.redemptions.row k = some b →
    a.holdsInvite = true → b.holdsInvite = true → a.invite.id ≠ b.invite.id
  members : ∀ j k a b, j ≠ k → s.redemptions.row j = some a → s.redemptions.row k = some b →
    a.holdsMember = true → b.holdsMember = true → a.key ≠ b.key

theorem Sound.errors (h : s.Sound) (errors : List (Int × InviteError)) :
    Sound { s with errors := errors } :=
  ⟨h.id, h.group, h.revoked, h.joined, h.once, h.opened, h.target, h.vacant, h.invites, h.members⟩

theorem Sound.erase (h : s.Sound) (k : Nat) :
    Sound { s with redemptions := s.redemptions.erase k } := by
  refine ⟨h.id, h.group, h.revoked, h.joined, h.once, ?_, ?_, ?_, ?_, ?_⟩
  · intro j r hr
    exact h.opened j r (Table.row_of_erase hr).2
  · intro j r hr
    exact h.target j r (Table.row_of_erase hr).2
  · intro j r hr
    exact h.vacant j r (Table.row_of_erase hr).2
  · intro i j a b hne ha hb
    exact h.invites i j a b hne (Table.row_of_erase ha).2 (Table.row_of_erase hb).2
  · intro i j a b hne ha hb
    exact h.members i j a b hne (Table.row_of_erase ha).2 (Table.row_of_erase hb).2

theorem Sound.fail (h : s.Sound) (k : Nat) (r : Redemption) (e : InviteError) :
    (s.fail k r e).Sound := (h.erase k).errors _

theorem Sound.tick {t : InviteSystem} {now : Int} (h : s.Sound) (ht : s.tick now = some t) :
    t.Sound := by
  unfold InviteSystem.tick at ht
  split at ht
  · next hle =>
    cases ht
    refine ⟨h.id, h.group, ?_, ?_, h.once, ?_, h.target, h.vacant, h.invites, h.members⟩
    · intro id invite t hrow hrevoked
      exact le_trans (h.revoked id invite t hrow hrevoked) hle
    · intro join hjoin
      obtain ⟨invite, hrow, hchat, htarget, hopened, hrevoked⟩ := h.joined join hjoin
      exact ⟨invite, hrow, hchat, htarget, le_trans hopened hle, hrevoked⟩
    · intro k r hr
      obtain ⟨hopened, hinvite⟩ := h.opened k r hr
      exact ⟨le_trans hopened hle, hinvite⟩
  · cases ht

/-- A redemption's next stage. -/
theorem Sound.advance {k : Nat} {r r' : Redemption} (h : s.Sound)
    (hrow : s.redemptions.row k = some r)
    (hinvite : r'.invite = r.invite) (huid : r'.uid = r.uid) (hopened : r'.openedAt = r.openedAt)
    (htarget : r.invite.inviteType = .targeted → r.invite.targetUid = some r.uid)
    (hvacant : r'.holdsMember = true → s.db.members.row r.key = none)
    (hunused : r'.holdsInvite = true → ∀ invite, s.db.invites.row r.invite.id = some invite →
      invite.usedAt = none)
    (hfreeInvite : r'.holdsInvite = true → ∀ j b, j ≠ k → s.redemptions.row j = some b →
      b.holdsInvite = true → b.invite.id ≠ r.invite.id)
    (hfreeMember : r'.holdsMember = true → ∀ j b, j ≠ k → s.redemptions.row j = some b →
      b.holdsMember = true → b.key ≠ r.key) :
    Sound { s with redemptions := s.redemptions.upsert k r' } := by
  have hkey : r'.key = r.key := by simp [Redemption.key, hinvite, huid]
  refine ⟨h.id, h.group, h.revoked, h.joined, h.once, ?_, ?_, ?_, ?_, ?_⟩
  · intro j b hb
    rw [Table.upsert_row] at hb
    split at hb
    · cases hb
      obtain ⟨hle, invite, hi, hchat, htype, htgt, hrevoked, -⟩ := h.opened k r hrow
      rw [hopened, hinvite]
      exact ⟨hle, invite, hi, hchat, htype, htgt, hrevoked, fun hheld => hunused hheld invite hi⟩
    · exact h.opened j b hb
  · intro j b hb
    rw [Table.upsert_row] at hb
    split at hb
    · cases hb
      rw [hinvite, huid]
      exact fun _ => htarget
    · exact h.target j b hb
  · intro j b hb
    rw [Table.upsert_row] at hb
    split at hb
    · cases hb
      rw [hkey]
      exact hvacant
    · exact h.vacant j b hb
  · intro i j a b hne ha hb hheldA hheldB
    rw [Table.upsert_row] at ha hb
    split at ha
    · next hi =>
      rw [if_neg fun hj => hne (hi.trans hj.symm)] at hb
      cases ha
      rw [hinvite]
      exact (hfreeInvite hheldA j b (fun hj => hne (hi.trans hj.symm)) hb hheldB).symm
    · next hi =>
      split at hb
      · cases hb
        rw [hinvite]
        exact hfreeInvite hheldB i a hi ha hheldA
      · exact h.invites i j a b hne ha hb hheldA hheldB
  · intro i j a b hne ha hb hheldA hheldB
    rw [Table.upsert_row] at ha hb
    split at ha
    · next hi =>
      rw [if_neg fun hj => hne (hi.trans hj.symm)] at hb
      cases ha
      rw [hkey]
      exact (hfreeMember hheldA j b (fun hj => hne (hi.trans hj.symm)) hb hheldB).symm
    · next hi =>
      split at hb
      · cases hb
        rw [hkey]
        exact hfreeMember hheldB i a hi ha hheldA
      · exact h.members i j a b hne ha hb hheldA hheldB

/-- New invites and changes of old ones that keep what the redemptions rely on. -/
theorem Sound.invitesChange {table : Table Int Invite} (h : s.Sound)
    (hold : ∀ id old, s.db.invites.row id = some old →
      ∃ new, table.row id = some new ∧ InviteTables.Keeps s.now old new ∧
        ∀ t, new.revokedAt = some t → t ≤ s.now)
    (hnew : ∀ id new, s.db.invites.row id = none → table.row id = some new →
      new.id = id ∧ new.revokedAt = none ∧ new.usedAt = none ∧
        ∃ group, s.db.groups.row new.chatId = some group ∧ group.kind ≠ .dm) :
    Sound { s with db := { s.db with invites := table } } := by
  refine ⟨?_, ?_, ?_, ?_, ?_, ?_, h.target, h.vacant, h.invites, h.members⟩
  · intro id invite hrow
    cases hprev : s.db.invites.row id with
    | none => exact (hnew id invite hprev hrow).1
    | some old =>
      obtain ⟨new, hnewRow, hkeeps, -⟩ := hold id old hprev
      obtain rfl := Option.some.inj (hnewRow.symm.trans hrow)
      exact hkeeps.1.trans (h.id id old hprev)
  · intro id invite hrow
    cases hprev : s.db.invites.row id with
    | none => exact (hnew id invite hprev hrow).2.2.2
    | some old =>
      obtain ⟨new, hnewRow, hkeeps, -⟩ := hold id old hprev
      obtain rfl := Option.some.inj (hnewRow.symm.trans hrow)
      rw [hkeeps.2.1]
      exact h.group id old hprev
  · intro id invite t hrow hrevoked
    cases hprev : s.db.invites.row id with
    | none =>
      rw [(hnew id invite hprev hrow).2.1] at hrevoked
      cases hrevoked
    | some old =>
      obtain ⟨new, hnewRow, -, hle⟩ := hold id old hprev
      obtain rfl := Option.some.inj (hnewRow.symm.trans hrow)
      exact hle t hrevoked
  · intro join hjoin
    obtain ⟨old, hrow, hchat, htarget, hopened, hrevoked⟩ := h.joined join hjoin
    obtain ⟨new, hnewRow, ⟨-, hc, ht, hu, hused, hr⟩, -⟩ := hold _ old hrow
    refine ⟨new, hnewRow, hc.trans hchat, ?_, hopened, ?_⟩
    · rw [ht, hu, hused]
      exact htarget
    · intro t hrt
      rcases hr t hrt with hle | hsame
      · exact le_trans hopened hle
      · exact hrevoked t hsame
  · intro id invite hrow htype
    cases hprev : s.db.invites.row id with
    | none =>
      rw [(hnew id invite hprev hrow).2.2.1]
      have hnone : joinsBy s.joins id = [] := by
        rw [joinsBy, List.filter_eq_nil_iff]
        intro join hjoin heq
        obtain ⟨old, hold, -⟩ := h.joined join hjoin
        rw [of_decide_eq_true heq, hprev] at hold
        cases hold
      rw [hnone]
      rfl
    | some old =>
      obtain ⟨new, hnewRow, ⟨-, -, ht, -, hused, -⟩, -⟩ := hold id old hprev
      obtain rfl := Option.some.inj (hnewRow.symm.trans hrow)
      rw [hused]
      exact h.once id old hprev (ht ▸ htype)
  · intro k r hr
    obtain ⟨hle, old, hrow, hchat, htype, htarget, hrevoked, hunused⟩ := h.opened k r hr
    obtain ⟨new, hnewRow, ⟨-, hc, ht, hu, hused, hrv⟩, -⟩ := hold _ old hrow
    refine ⟨hle, new, hnewRow, hc.trans hchat, ht.trans htype, hu.trans htarget, ?_, ?_⟩
    · intro t hrt
      rcases hrv t hrt with hfloor | hsame
      · exact le_trans hle hfloor
      · exact hrevoked t hsame
    · intro hheld
      rw [hused]
      exact hunused hheld

theorem Sound.settle_new {uid id now : Int} {input : NewInviteInput} {codes : List String}
    (h : s.Sound) :
    (s.settle uid ((s.db.createInvite id now input codes).map Prod.fst)).Sound := by
  cases hcreate : s.db.createInvite id now input codes with
  | error e => exact h.errors _
  | ok pair =>
    obtain ⟨db', invite⟩ := pair
    obtain ⟨hnone, rfl, hid, hrevoked, hused, hgroup⟩ := InviteTables.createInvite_spec hcreate
    refine h.invitesChange ?_ ?_
    · intro j old hold
      have hne : j ≠ id := by
        rintro rfl
        rw [hnone] at hold
        cases hold
      exact ⟨old, (Table.upsert_row_ne _ _ hne).trans hold, InviteTables.Keeps.refl _ _,
        fun t => h.revoked j old t hold⟩
    · intro j new hprev hrow
      rw [Table.upsert_row] at hrow
      split at hrow
      · next heq =>
        cases hrow
        exact ⟨hid.trans heq.symm, hrevoked, hused, hgroup⟩
      · rw [hprev] at hrow
        cases hrow

/-- A change of one stored invite that keeps what the redemptions rely on. -/
theorem Sound.inviteChange {inviteId : Int} {old new : Invite} (h : s.Sound)
    (hrow : s.db.invites.row inviteId = some old) (hkeeps : InviteTables.Keeps s.now old new)
    (hle : ∀ t, new.revokedAt = some t → t ≤ s.now) :
    Sound { s with db := { s.db with invites := s.db.invites.upsert inviteId new } } := by
  refine h.invitesChange ?_ ?_
  · intro j prev hprev
    by_cases heq : j = inviteId
    · subst heq
      obtain rfl := Option.some.inj (hrow.symm.trans hprev)
      exact ⟨new, Table.upsert_row_self _ _ _, hkeeps, hle⟩
    · exact ⟨prev, (Table.upsert_row_ne _ _ heq).trans hprev, InviteTables.Keeps.refl _ _,
        fun t => h.revoked j prev t hprev⟩
  · intro j next hprev hnext
    rw [Table.upsert_row] at hnext
    split at hnext
    · next heq =>
      rw [heq, hrow] at hprev
      cases hprev
    · rw [hprev] at hnext
      cases hnext

theorem Sound.membersChange {members : Table (Int × Int) GroupMembership} (h : s.Sound)
    (hvacant : ∀ k r, s.redemptions.row k = some r → r.holdsMember = true →
      members.row r.key = none) :
    Sound { s with db := { s.db with members := members } } :=
  ⟨h.id, h.group, h.revoked, h.joined, h.once, h.opened, h.target, hvacant, h.invites, h.members⟩

theorem Sound.groupsChange {groups : Table Int Group} (h : s.Sound)
    (hkind : ∀ id group, s.db.groups.row id = some group →
      ∃ group', groups.row id = some group' ∧ group'.kind = group.kind) :
    Sound { s with db := { s.db with groups := groups } } := by
  refine ⟨h.id, ?_, h.revoked, h.joined, h.once, h.opened, h.target, h.vacant, h.invites,
    h.members⟩
  intro id invite hrow
  obtain ⟨group, hgroup, hne⟩ := h.group id invite hrow
  obtain ⟨group', hgroup', hsame⟩ := hkind _ group hgroup
  exact ⟨group', hgroup', hsame ▸ hne⟩

theorem othersHold_eq_false {k : Nat} {p : Redemption → Bool} (h : ¬s.othersHold k p = true)
    {j : Nat} {b : Redemption} (hne : j ≠ k) (hrow : s.redemptions.row j = some b) :
    p b = false := by
  unfold othersHold at h
  rw [decide_eq_true_eq] at h
  by_contra hp
  exact h ⟨j, Table.mem_select.mpr ⟨b, hrow, by simp [hne, hp]⟩⟩

theorem Sound.redeemInvite {k : Nat} {uid now : Int} {code : String} (h : s.Sound)
    (hnow : now = s.now) :
    (s.redeemInvite k uid code now).Sound := by
  unfold InviteSystem.redeemInvite
  split
  · next invite hload =>
    obtain ⟨id, hrow, hactive⟩ := InviteTables.loadActiveInvite_spec hload
    have hid := h.id id invite hrow
    subst hid
    have hrevoked : invite.revokedAt = none := by
      simp only [validateInviteIsActive, Bool.and_eq_true, Option.isNone_iff_eq_none] at hactive
      exact hactive.1
    refine ⟨h.id, h.group, h.revoked, h.joined, h.once, ?_, ?_, ?_, ?_, ?_⟩
    · intro j r hr
      rw [Table.upsert_row] at hr
      split at hr
      · cases hr
        refine ⟨hnow.le, invite, hrow, rfl, rfl, rfl, ?_, ?_⟩
        · intro t ht
          rw [hrevoked] at ht
          cases ht
        · intro hheld
          cases hheld
      · exact h.opened j r hr
    · intro j r hr hstage
      rw [Table.upsert_row] at hr
      split at hr
      · cases hr
        exact absurd rfl hstage
      · exact h.target j r hr hstage
    · intro j r hr hheld
      rw [Table.upsert_row] at hr
      split at hr
      · cases hr
        cases hheld
      · exact h.vacant j r hr hheld
    · intro i j a b hne ha hb hheldA hheldB
      rw [Table.upsert_row] at ha hb
      split at ha
      · cases ha
        cases hheldA
      · split at hb
        · cases hb
          cases hheldB
        · exact h.invites i j a b hne ha hb hheldA hheldB
    · intro i j a b hne ha hb hheldA hheldB
      rw [Table.upsert_row] at ha hb
      split at ha
      · cases ha
        cases hheldA
      · split at hb
        · cases hb
          cases hheldB
        · exact h.members i j a b hne ha hb hheldA hheldB
  · exact h.errors _

theorem Sound.checkRedemption {k : Nat} {r : Redemption} (h : s.Sound)
    (hrow : s.redemptions.row k = some r) : (s.checkRedemption k r).Sound := by
  unfold InviteSystem.checkRedemption
  split
  · next hok =>
    refine h.advance hrow rfl rfl rfl (InviteTables.checkEligibility_target hok) ?_ ?_ ?_ ?_
    all_goals intro hheld; cases hheld
  · exact h.fail k r _

theorem Sound.joinGroup {k : Nat} {r : Redemption} {now : Int} {t : InviteSystem} (h : s.Sound)
    (hrow : s.redemptions.row k = some r) (hstage : r.stage = .eligible)
    (ht : s.joinGroup k r now = some t) : t.Sound := by
  unfold InviteSystem.joinGroup at ht
  split at ht
  · cases ht
    exact h.fail k r _
  · split at ht
    · cases ht
    · next hfree =>
      split at ht
      · cases ht
        exact h.fail k r _
      · next hnone =>
        cases ht
        refine h.advance hrow rfl rfl rfl ?_ ?_ ?_ ?_ ?_
        · exact h.target k r hrow (by rw [hstage]; exact RedeemStage.noConfusion)
        · intro _
          exact Option.not_isSome_iff_eq_none.mp hnone
        · intro hheld
          cases hheld
        · intro hheld
          cases hheld
        · intro _ j b hne hb hheld hkey
          have hlocked := othersHold_eq_false hfree hne hb
          simp [hheld, hkey] at hlocked

theorem Sound.useTargeted {k : Nat} {r : Redemption} {membership : GroupMembership}
    {t : InviteSystem} (h : s.Sound) (hrow : s.redemptions.row k = some r)
    (hstage : r.stage = .joined membership) (ht : s.useTargeted k r membership = some t) :
    t.Sound := by
  have hmember : r.holdsMember = true := by simp [Redemption.holdsMember, hstage]
  have htarget := h.target k r hrow (by rw [hstage]; exact RedeemStage.noConfusion)
  have hapart : ∀ j b, j ≠ k → s.redemptions.row j = some b → b.holdsMember = true →
      b.key ≠ r.key :=
    fun j b hne hb hheld => h.members j k b r hne hb hrow hheld hmember
  unfold InviteSystem.useTargeted at ht
  split at ht
  · next htype =>
    cases ht
    refine h.advance hrow rfl rfl rfl htarget (fun _ => h.vacant k r hrow hmember) ?_ ?_
      (fun _ => hapart)
    all_goals
      intro hheld
      simp [Redemption.holdsInvite, htype] at hheld
  · split at ht
    · cases ht
    · next hfree =>
      split at ht
      · next hunused =>
        cases ht
        refine h.advance hrow rfl rfl rfl htarget (fun _ => h.vacant k r hrow hmember) ?_ ?_
          (fun _ => hapart)
        · intro _ invite hinvite
          simpa [hinvite] using hunused
        · intro _ j b hne hb hheld hid
          have hlocked := othersHold_eq_false hfree hne hb
          simp [hheld, hid] at hlocked
      · cases ht
        exact h.fail k r _

theorem joinsBy_append (joins : List Join) (join : Join) (id : Int) :
    joinsBy (joins ++ [join]) id =
      joinsBy joins id ++ if join.inviteId = id then [join] else [] := by
  unfold joinsBy
  rw [List.filter_append]
  by_cases h : join.inviteId = id <;> simp [h]

theorem Sound.commitJoin {k : Nat} {r : Redemption} {membership : GroupMembership} (h : s.Sound)
    (hrow : s.redemptions.row k = some r) (hstage : r.stage = .used membership) :
    (s.commitJoin k r membership).Sound := by
  have hmember : r.holdsMember = true := by simp [Redemption.holdsMember, hstage]
  have htarget := h.target k r hrow (by rw [hstage]; exact RedeemStage.noConfusion)
  obtain ⟨hopened, found, hfound, hfoundChat, hfoundType, hfoundTarget, hfoundRevoked, hunused⟩ :=
    h.opened k r hrow
  have hnew : ∀ id old, s.db.invites.row id = some old → ∃ new,
      (s.commitJoin k r membership).db.invites.row id = some new ∧ new.id = old.id ∧
      new.chatId = old.chatId ∧ new.inviteType = old.inviteType ∧
      new.targetUid = old.targetUid ∧ new.revokedAt = old.revokedAt ∧
      new.usedAt = if id = r.invite.id ∧ r.invite.inviteType = .targeted then
        some membership.joinedAt else old.usedAt := by
    intro id old hold
    refine ⟨_, Table.updateWhere_row_some hold, ?_⟩
    by_cases hc : id = r.invite.id ∧ r.invite.inviteType = .targeted
    · simp [hc]
    · simp [hc]
  have hback : ∀ id new, (s.commitJoin k r membership).db.invites.row id = some new →
      ∃ old, s.db.invites.row id = some old := by
    intro id new hnewRow
    cases hold : s.db.invites.row id with
    | none =>
      rw [show (s.commitJoin k r membership).db.invites.row id = none by
        simp [InviteSystem.commitJoin, Table.updateWhere_row, hold]] at hnewRow
      cases hnewRow
    | some old => exact ⟨old, rfl⟩
  refine ⟨?_, ?_, ?_, ?_, ?_, ?_, ?_, ?_, ?_, ?_⟩
  · intro id invite hinvite
    obtain ⟨old, hold⟩ := hback id invite hinvite
    obtain ⟨new, hnewRow, hid, -⟩ := hnew id old hold
    obtain rfl := Option.some.inj (hnewRow.symm.trans hinvite)
    exact hid.trans (h.id id old hold)
  · intro id invite hinvite
    obtain ⟨old, hold⟩ := hback id invite hinvite
    obtain ⟨new, hnewRow, -, hchat, -⟩ := hnew id old hold
    obtain rfl := Option.some.inj (hnewRow.symm.trans hinvite)
    rw [hchat]
    exact h.group id old hold
  · intro id invite t hinvite hrevoked
    obtain ⟨old, hold⟩ := hback id invite hinvite
    obtain ⟨new, hnewRow, -, -, -, -, hsame, -⟩ := hnew id old hold
    obtain rfl := Option.some.inj (hnewRow.symm.trans hinvite)
    exact h.revoked id old t hold (hsame ▸ hrevoked)
  · intro join hjoin
    rcases List.mem_append.mp hjoin with hold | hlast
    · obtain ⟨old, holdRow, hchat, htgt, hle, hrevoked⟩ := h.joined join hold
      obtain ⟨new, hnewRow, -, hc, htype, htu, hrv, hused⟩ := hnew _ old holdRow
      refine ⟨new, hnewRow, hc.trans hchat, ?_, hle, by rw [hrv]; exact hrevoked⟩
      intro htargeted
      rw [htype] at htargeted
      obtain ⟨huid, husedAt⟩ := htgt htargeted
      refine ⟨htu.trans huid, ?_⟩
      rw [hused, if_neg]
      · exact husedAt
      · rintro ⟨heq, htyped⟩
        -- the invite is used already, so no redemption can hold its row
        have hfree := hunused (by simp [Redemption.holdsInvite, hstage, htyped])
        rw [heq, hfound] at holdRow
        obtain rfl := Option.some.inj holdRow
        rw [hfree] at husedAt
        cases husedAt
    · rw [List.mem_singleton] at hlast
      subst hlast
      obtain ⟨new, hnewRow, -, hc, htype, htu, hrv, hused⟩ := hnew _ found hfound
      refine ⟨new, hnewRow, hc.trans hfoundChat, ?_, hopened, by rw [hrv]; exact hfoundRevoked⟩
      intro htargeted
      rw [htype, hfoundType] at htargeted
      refine ⟨htu.trans (hfoundTarget.trans (htarget htargeted)), ?_⟩
      rw [hused, if_pos ⟨rfl, htargeted⟩]
  · intro id invite hinvite htype
    obtain ⟨old, hold⟩ := hback id invite hinvite
    obtain ⟨new, hnewRow, -, -, ht, -, -, hused⟩ := hnew id old hold
    obtain rfl := Option.some.inj (hnewRow.symm.trans hinvite)
    have honce := h.once id old hold (ht ▸ htype)
    have hjoins : joinsBy (s.commitJoin k r membership).joins id =
        joinsBy s.joins id ++ if r.invite.id = id then
          [⟨r.invite.id, r.invite.chatId, r.uid, r.openedAt, membership.joinedAt⟩] else [] :=
      joinsBy_append _ _ _
    rw [hjoins, hused]
    by_cases heq : id = r.invite.id
    · subst heq
      obtain rfl := Option.some.inj (hfound.symm.trans hold)
      have htyped : r.invite.inviteType = .targeted := hfoundType ▸ ht ▸ htype
      have hfree := hunused (by simp [Redemption.holdsInvite, hstage, htyped])
      rw [hfree] at honce
      simp only [Option.isSome_none, Bool.false_eq_true, if_false] at honce
      simp [htyped, honce]
    · have hne : ¬r.invite.id = id := fun hsymm => heq hsymm.symm
      simp [heq, hne, honce]
  · intro j b hb
    obtain ⟨hne, hb⟩ := Table.row_of_erase hb
    obtain ⟨hle, old, hold, hchat, htype, htu, hrevoked, hnone⟩ := h.opened j b hb
    obtain ⟨new, hnewRow, -, hc, ht, htu', hrv, hused⟩ := hnew _ old hold
    refine ⟨hle, new, hnewRow, hc.trans hchat, ht.trans htype, htu'.trans htu,
      by rw [hrv]; exact hrevoked, ?_⟩
    intro hheld
    rw [hused, if_neg]
    · exact hnone hheld
    · rintro ⟨heq, htyped⟩
      exact h.invites j k b r hne hb hrow hheld
        (by simp [Redemption.holdsInvite, hstage, htyped]) heq
  · intro j b hb
    exact h.target j b (Table.row_of_erase hb).2
  · intro j b hb hheld
    obtain ⟨hne, hb⟩ := Table.row_of_erase hb
    refine (Table.upsert_row_ne _ _ ?_).trans (h.vacant j b hb hheld)
    exact h.members j k b r hne hb hrow hheld hmember
  · intro i j a b hne ha hb
    exact h.invites i j a b hne (Table.row_of_erase ha).2 (Table.row_of_erase hb).2
  · intro i j a b hne ha hb
    exact h.members i j a b hne (Table.row_of_erase ha).2 (Table.row_of_erase hb).2

theorem now_of_tick {t : InviteSystem} {now : Int} (h : s.tick now = some t) :
    t.now = now ∧ t.redemptions = s.redemptions ∧ t.db = s.db := by
  unfold tick at h
  split at h
  · cases h
    exact ⟨rfl, rfl, rfl⟩
  · cases h

theorem sound_step (s : InviteSystem) (e : InviteEvent) (t : InviteSystem) (h : s.Sound)
    (hstep : s.step e = some t) : t.Sound := by
  cases e with
  | group chatId kind =>
    simp only [step] at hstep
    split at hstep
    · cases hstep
    · next hnone =>
      cases hstep
      refine h.groupsChange fun id group hgroup => ⟨group, ?_, rfl⟩
      have hne : id ≠ chatId := by
        rintro rfl
        exact hnone (by rw [hgroup]; rfl)
      exact (Table.upsert_row_ne _ _ hne).trans hgroup
  | message chatId messageId =>
    obtain ⟨group, hgroup, rfl⟩ := Option.map_eq_some_iff.mp hstep
    refine h.groupsChange fun id other hother => ?_
    by_cases heq : id = chatId
    · subst heq
      obtain rfl := Option.some.inj (hgroup.symm.trans hother)
      exact ⟨_, Table.upsert_row_self _ _ _, rfl⟩
    · exact ⟨other, (Table.upsert_row_ne _ _ heq).trans hother, rfl⟩
  | addMember chatId uid role now =>
    simp only [step] at hstep
    split at hstep
    · cases hstep
    · next hfree =>
      obtain ⟨u, hu, rfl⟩ := Option.map_eq_some_iff.mp hstep
      have hsound := h.tick hu
      obtain ⟨-, hredemptions, -⟩ := now_of_tick hu
      refine hsound.membersChange fun k r hr hheld => ?_
      refine (Table.upsert_row_ne _ _ fun hkey => hfree (Or.inr ?_)).trans
        (hsound.vacant k r hr hheld)
      rw [memberHeld, decide_eq_true_eq]
      exact ⟨k, Table.mem_select.mpr ⟨r, hredemptions ▸ hr, by simp [hheld, hkey]⟩⟩
  | leave chatId uid =>
    cases hstep
    refine h.membersChange fun k r hr hheld => ?_
    rw [Table.erase_row]
    split
    · rfl
    · exact h.vacant k r hr hheld
  | post uid body id now codes =>
    obtain ⟨u, hu, rfl⟩ := Option.map_eq_some_iff.mp hstep
    have hsound := h.tick hu
    cases hpost : u.db.postInvite uid body id now codes with
    | error e => exact hsound.errors _
    | ok pair =>
      obtain ⟨input, hcreate⟩ := InviteTables.postInvite_spec hpost
      rw [← hcreate]
      exact hsound.settle_new
  | create input id now codes =>
    obtain ⟨u, hu, rfl⟩ := Option.map_eq_some_iff.mp hstep
    exact (h.tick hu).settle_new
  | patch uid inviteId expiresAt =>
    simp only [step] at hstep
    split at hstep
    · cases hstep
    · cases hstep
      cases hpatch : s.db.patchInvite uid inviteId expiresAt with
      | error e => exact h.errors _
      | ok db' =>
        obtain ⟨invite, next, hrow, rfl⟩ := InviteTables.patchInvite_spec hpatch
        exact h.inviteChange hrow ⟨rfl, rfl, rfl, rfl, rfl, fun _ hr => Or.inr hr⟩
          fun t => h.revoked inviteId invite t hrow
  | revoke uid inviteId now =>
    simp only [step] at hstep
    split at hstep
    · cases hstep
    · obtain ⟨u, hu, rfl⟩ := Option.map_eq_some_iff.mp hstep
      have hsound := h.tick hu
      obtain ⟨hnow, -, -⟩ := now_of_tick hu
      cases hdelete : u.db.deleteInvite uid inviteId now with
      | error e => exact hsound.errors _
      | ok db' =>
        obtain ⟨invite, hrow, rfl⟩ := InviteTables.deleteInvite_spec hdelete
        refine hsound.inviteChange hrow ⟨rfl, rfl, rfl, rfl, rfl, ?_⟩ ?_
        · intro t ht
          cases ht
          exact Or.inl hnow.le
        · intro t ht
          cases ht
          exact hnow.ge
  | redeem k uid code now =>
    simp only [step] at hstep
    split at hstep
    · cases hstep
    · obtain ⟨u, hu, rfl⟩ := Option.map_eq_some_iff.mp hstep
      exact (h.tick hu).redeemInvite (now_of_tick hu).1.symm
  | check k =>
    obtain ⟨r, hr, hcheck⟩ := Option.bind_eq_some_iff.mp hstep
    split at hcheck
    · cases hcheck
      exact h.checkRedemption hr
    · cases hcheck
  | join k now =>
    obtain ⟨r, hr, hjoin⟩ := Option.bind_eq_some_iff.mp hstep
    split at hjoin
    · next hstage =>
      obtain ⟨u, hu, hjoin⟩ := Option.bind_eq_some_iff.mp hjoin
      obtain ⟨-, hredemptions, -⟩ := now_of_tick hu
      exact (h.tick hu).joinGroup (hredemptions ▸ hr) hstage hjoin
    · cases hjoin
  | useInvite k =>
    obtain ⟨r, hr, huse⟩ := Option.bind_eq_some_iff.mp hstep
    split at huse
    · next membership hstage => exact h.useTargeted hr hstage huse
    · cases huse
  | commit k =>
    obtain ⟨r, hr, hcommit⟩ := Option.bind_eq_some_iff.mp hstep
    split at hcommit
    · next membership hstage =>
      cases hcommit
      exact h.commitJoin hr hstage
    · cases hcommit
  | rollback k =>
    simp only [step] at hstep
    split at hstep
    · cases hstep
      exact h.erase k
    · cases hstep

theorem sound_initial (groups : Table Int Group) (members : Table (Int × Int) GroupMembership) :
    (initial groups members).Sound := by
  constructor <;> simp [initial]

end InviteSystem

/-- However redemptions, revocations, edits and membership changes interleave, every join by an
invite is into a group that is no direct chat, by a redemption opened before any revocation; a
targeted invite admits its target only, once, exactly when it is marked used; and no redemption
replaces a membership. -/
theorem invites_admit_once {groups : Table Int Group}
    {members : Table (Int × Int) GroupMembership} {s : InviteSystem} {es : List InviteEvent}
    (hrun : run InviteSystem.step (InviteSystem.initial groups members) es = some s) :
    (∀ join ∈ s.joins, ∃ invite group, s.db.invites.row join.inviteId = some invite ∧
      invite.chatId = join.chatId ∧ s.db.groups.row join.chatId = some group ∧
      group.kind ≠ .dm ∧ (∀ t, invite.revokedAt = some t → join.openedAt ≤ t) ∧
      (invite.inviteType = .targeted → invite.targetUid = some join.uid)) ∧
    (∀ id invite, s.db.invites.row id = some invite → invite.inviteType = .targeted →
      (s.joins.filter fun join => decide (join.inviteId = id)).length =
        if invite.usedAt.isSome then 1 else 0) ∧
    ∀ k r, s.redemptions.row k = some r → r.holdsMember = true →
      s.db.members.row r.key = none := by
  have h := run_invariant InviteSystem.sound_step (InviteSystem.sound_initial groups members) hrun
  refine ⟨?_, h.once, h.vacant⟩
  intro join hjoin
  obtain ⟨invite, hrow, hchat, htarget, -, hrevoked⟩ := h.joined join hjoin
  obtain ⟨group, hgroup, hkind⟩ := h.group _ invite hrow
  exact ⟨invite, group, hrow, hchat, hchat ▸ hgroup, hkind, hrevoked, fun ht => (htarget ht).1⟩

/-- Two sessions of the target redeem one targeted invite; the first leaves before the second
inserts its membership. -/
def redeemedTwice : List InviteEvent :=
  [.group 10 .group, .addMember 10 1 .admin 1,
    .post 1 ⟨10, .targeted, some 9, none, none⟩ 5 2 ["abcdefgh12"],
    .redeem 0 9 "abcdefgh12" 3, .redeem 1 9 "abcdefgh12" 3, .check 0, .check 1, .join 0 4,
    .useInvite 0, .commit 0, .leave 10 9, .join 1 5, .useInvite 1]

theorem redeemedTwice_admits_once : ∃ s : InviteSystem,
    run InviteSystem.step (InviteSystem.initial Table.empty Table.empty) redeemedTwice = some s ∧
    s.errors = [(9, .conflict "Invite already used")] ∧ s.joins.length = 1 ∧
    ∀ id invite, s.db.invites.row id = some invite → invite.inviteType = .targeted →
      (s.joins.filter fun join => decide (join.inviteId = id)).length =
        if invite.usedAt.isSome then 1 else 0 := by
  have hend : ((run InviteSystem.step (InviteSystem.initial Table.empty Table.empty)
      redeemedTwice).map fun s => (s.errors, s.joins.length)) =
        some ([(9, .conflict "Invite already used")], 1) := by decide +kernel
  obtain ⟨s, hrun, heq⟩ := Option.map_eq_some_iff.mp hend
  have hboth := Prod.mk.inj heq
  exact ⟨s, hrun, hboth.1, hboth.2, (invites_admit_once hrun).2.1⟩

end Chahua.Invites

import Chahua.Speaking.Moderation

namespace Chahua.Speaking

open Framework

namespace State

variable {s t : State} {id : Nat}

theorem quiet_of_phase {phase : Phase} (hphase : s.phase id = phase)
    (hquiet : ∀ announcement, ¬ phase.Announces announcement) :
    ∀ announcement, ¬ (s.phase id).Announces announcement := by
  intro announcement
  rw [hphase]
  exact hquiet announcement

theorem Inv.start (h : s.Inv) {request : Request} (hphase : s.phase id = .starting request)
    (ht : s.start id request = some t) : t.Inv := by
  have hquiet := quiet_of_phase hphase fun _ ha => ha
  have hshared : ∀ {phase : Phase}, s.lockShared id phase = some t →
      (id ∈ t.shared → t.PhaseOk id phase) → t.Inv := by
    intro phase hlock hok
    exact h.lockShared hlock hok fun announcement ha => absurd ha (hquiet announcement)
  have hexclusive : ∀ {other : Request}, s.lockExclusive id (.requiring other) = some t → t.Inv :=
    fun hlock => h.lockExclusive hlock hquiet
  cases request with
  | send uid action => exact hshared ht fun hmem => hmem
  | edit uid inThread => exact hshared ht fun hmem => hmem
  | updateGroupMode requester mode => exact hexclusive ht
  | updateMemberMode requester target mode => exact hexclusive ht
  | updateMemberRole requester target role => exact hexclusive ht
  | removeMember requester target => exact hexclusive ht
  | joinByInvite uid =>
    simp only [State.start] at ht
    split at ht
    · obtain rfl := Option.some.inj ht
      have hok := h.phases id
      rw [hphase] at hok
      exact h.goTo hok fun announcement ha => absurd ha (hquiet announcement)
    · next hrow => exact Option.some.inj ht ▸ h.join hphase hrow

theorem Inv.require (h : s.Inv) {request : Request} (hphase : s.phase id = .requiring request) :
    (s.require id request).Inv := by
  have hquiet := quiet_of_phase hphase fun _ ha => ha
  have hlock : s.exclusive = some id := by
    have hok := h.phases id
    rwa [hphase] at hok
  have habort : (s.abort id).Inv := h.abort fun announcement ha => absurd ha (hquiet announcement)
  have hgo : ∀ {phase : Phase}, s.PhaseOk id phase → (s.goTo id phase).Inv :=
    fun hok => h.goTo hok fun announcement ha => absurd ha (hquiet announcement)
  unfold State.require
  split
  · split
    · exact hgo ⟨hlock, trivial⟩
    · exact habort
  · split
    · exact hgo ⟨hlock, fun _ _ _ heq => by cases heq⟩
    · exact habort
  · split
    · next hrequired =>
      simp only [Bool.and_eq_true, decide_eq_true_eq] at hrequired
      refine hgo ⟨hlock, fun requester target role heq => ?_⟩
      cases heq
      exact hrequired
    · exact habort
  · split
    · exact hgo ⟨hlock, fun _ _ _ heq => by cases heq⟩
    · exact habort
  · exact habort

theorem Inv.target (h : s.Inv) {request : Request} (hphase : s.phase id = .targeting request) :
    (s.target id request).Inv := by
  have hquiet := quiet_of_phase hphase fun _ ha => ha
  have hok := h.phases id
  rw [hphase] at hok
  have habort : (s.abort id).Inv := h.abort fun announcement ha => absurd ha (hquiet announcement)
  have hgo : ∀ {phase : Phase}, s.PhaseOk id phase → (s.goTo id phase).Inv :=
    fun hok => h.goTo hok fun announcement ha => absurd ha (hquiet announcement)
  unfold State.target
  split
  · split
    · next m hm =>
      split
      · exact habort
      · next hrole => exact hgo ⟨hok.1, m, hm, hrole⟩
    · exact habort
  · split
    · next requester target role m hm =>
      obtain ⟨hadmin, hne⟩ := hok.2 _ _ _ rfl
      exact hgo ⟨hok.1, ⟨m, hm, rfl⟩, _, hne, hadmin⟩
    · exact habort
  · split
    · next m hm =>
      split
      · exact hgo hok.1
      · next hrole => exact hgo ⟨hok.1, .inl ⟨m, hm, hrole⟩⟩
    · exact habort
  · exact habort

/-- More than one admin: one is left when the target goes. -/
theorem Inv.count (h : s.Inv) {target : Int} (hphase : s.phase id = .counting target) :
    (if s.admins.card ≤ 1 then s.abort id else s.goTo id (.writing (.removal target))).Inv := by
  have hquiet := quiet_of_phase hphase fun _ ha => ha
  have hlock : s.exclusive = some id := by
    have hok := h.phases id
    rwa [hphase] at hok
  split
  · exact h.abort fun announcement ha => absurd ha (hquiet announcement)
  · next hmany =>
    obtain ⟨other, hother, hne⟩ := Finset.exists_mem_ne (Nat.lt_of_not_le hmany) target
    obtain ⟨m, hm, hrole⟩ := Table.mem_select.mp hother
    refine h.goTo ⟨hlock, .inr ⟨other, hne, ?_⟩⟩ fun announcement ha =>
      absurd ha (hquiet announcement)
    exact isAdmin_eq_true.mpr ⟨m, hm, by simpa using hrole⟩

theorem updateMember_row (s : State) (uid : Int) (f : Member → Member) (other : Int) :
    (s.updateMember uid f).members.row other =
      (s.members.row other).map fun m => if other = uid then f m else m := by
  simp [updateMember, Table.updateWhere_row]

theorem updateMember_row_ne (s : State) {uid other : Int} (f : Member → Member) (h : other ≠ uid) :
    (s.updateMember uid f).members.row other = s.members.row other := by
  rw [updateMember_row]
  cases s.members.row other <;> simp [h]

theorem updateMember_row_self (s : State) {uid : Int} (f : Member → Member) :
    (s.updateMember uid f).members.row uid = (s.members.row uid).map f := by
  simp [updateMember_row]

/-- A change of one member's row is announced; the other rows and the mode stay. -/
theorem Inv.commit_member (h : s.Inv) (hlock : s.exclusive = some id)
    (hquiet : ∀ announcement, ¬ (s.phase id).Announces announcement) (uid : Int)
    (f : Member → Member)
    (hf : ∀ m, s.members.row uid = some m → (f m).role = .admin → (f m).speakingMode = .unrestricted) :
    (((s.updateMember uid f).release id).goTo id (.announcing (.memberMode uid))).Inv := by
  refine h.commit hlock _ (s.updateMember uid f) rfl rfl rfl (.inr ⟨_, rfl⟩) hquiet ?_ ?_
  · intro other m hm hrole
    by_cases heq : other = uid
    · subst heq
      rw [updateMember_row_self] at hm
      obtain ⟨m', hm', rfl⟩ := Option.map_eq_some_iff.mp hm
      exact hf m' hm' hrole
    · rw [updateMember_row_ne _ _ heq] at hm
      exact h.unrestricted other m hm hrole
  · intro announcement
    cases announcement with
    | groupMode => exact .inr (.inr fun ha => ha)
    | memberMode other =>
      by_cases heq : other = uid
      · exact .inl (by rw [heq]; rfl)
      · refine .inr (.inr fun ha response hlast m hm => ha response hlast m ?_)
        rwa [updateMember_row_ne _ _ heq] at hm

theorem Inv.write (h : s.Inv) {write : Write} (hphase : s.phase id = .writing write) :
    (s.commit id write).Inv := by
  have hquiet := quiet_of_phase hphase fun _ ha => ha
  have hok := h.phases id
  rw [hphase] at hok
  cases write with
  | message uid action => exact h.abort fun announcement ha => absurd ha (hquiet announcement)
  | groupMode mode =>
    refine h.commit hok.1 _ { s with speakingMode := mode } rfl rfl rfl (.inr ⟨_, rfl⟩) hquiet
      h.unrestricted fun announcement => ?_
    cases announcement with
    | groupMode => exact .inl rfl
    | memberMode uid => exact .inr (.inr fun ha => ha)
  | memberMode target mode =>
    refine h.commit_member hok.1 hquiet target _ fun m hm hrole => ?_
    obtain ⟨m', hm', hne⟩ := hok.2
    cases hm.symm.trans hm'
    exact absurd hrole hne
  | memberRole target role mode =>
    refine h.commit_member hok.1 hquiet target _ fun m hm hrole => ?_
    obtain ⟨⟨m', -, hmode⟩, -⟩ := hok.2
    have hadmin : role = .admin := hrole
    rw [if_pos hadmin] at hmode
    exact hmode
  | removal target =>
    refine h.commit hok.1 _ { s with members := s.members.erase target } rfl rfl rfl (.inl rfl)
      hquiet ?_ ?_
    · intro uid m hm hrole
      exact h.unrestricted uid m (Table.row_of_erase hm).2 hrole
    · intro announcement
      cases announcement with
      | groupMode => exact .inr (.inr fun ha => ha)
      | memberMode uid =>
        refine .inr (.inr fun ha response hlast m hm => ?_)
        exact ha response hlast m (Table.row_of_erase hm).2

theorem Inv.read (h : s.Inv) {announcement : Announcement}
    (hphase : s.phase id = .reading announcement) : (s.read id announcement).Inv := by
  have hlock : id ∈ s.shared := by
    have hok := h.phases id
    rwa [hphase] at hok
  cases announcement with
  | groupMode =>
    refine h.goTo ⟨hlock, rfl⟩ fun other ha => .inl ?_
    rw [hphase] at ha
    exact congrArg some ha
  | memberMode uid =>
    simp only [State.read]
    split
    · next m hm =>
      refine h.goTo ⟨hlock, m, hm, rfl⟩ fun other ha => .inl ?_
      rw [hphase] at ha
      exact congrArg some ha
    · next hnone =>
      refine h.abort fun other ha => ?_
      rw [hphase] at ha
      obtain rfl : Announcement.memberMode uid = other := ha
      intro response hlast m hm
      rw [hnone] at hm
      cases hm

theorem Inv.step (h : s.Inv) {event : Event} (ht : step s event = some t) : t.Inv := by
  cases event with
  | call id request =>
    simp only [Speaking.step] at ht
    split at ht
    · next hidle =>
      have hok := h.phases id
      rw [hidle] at hok
      refine Option.some.inj ht ▸ h.goTo hok fun announcement ha => ?_
      rw [hidle] at ha
      exact ha.elim
    · cases ht
  | next id =>
    simp only [Speaking.step] at ht
    cases hphase : s.phase id with
    | idle =>
      rw [hphase] at ht
      cases ht
    | starting request =>
      rw [hphase] at ht
      exact h.start hphase ht
    | authorizing uid action =>
      rw [hphase] at ht
      obtain rfl := Option.some.inj ht
      have hok := h.phases id
      rw [hphase] at hok
      have hquiet := quiet_of_phase hphase fun _ ha => ha
      split
      · next hallowed =>
        exact h.goTo ⟨hok, hallowed⟩ fun announcement ha => absurd ha (hquiet announcement)
      · exact h.abort fun announcement ha => absurd ha (hquiet announcement)
    | requiring request =>
      rw [hphase] at ht
      exact Option.some.inj ht ▸ h.require hphase
    | targeting request =>
      rw [hphase] at ht
      exact Option.some.inj ht ▸ h.target hphase
    | counting target =>
      rw [hphase] at ht
      exact Option.some.inj ht ▸ h.count hphase
    | writing write =>
      rw [hphase] at ht
      exact Option.some.inj ht ▸ h.write hphase
    | announcing announcement =>
      rw [hphase] at ht
      refine h.lockShared ht (fun hmem => hmem) fun other ha => ?_
      rw [hphase] at ha
      exact ha
    | reading announcement =>
      rw [hphase] at ht
      exact Option.some.inj ht ▸ h.read hphase
    | enqueuing entry =>
      rw [hphase] at ht
      exact Option.some.inj ht ▸ h.enqueue hphase

/-- The rows a committed write leaves. -/
def written (s : State) : Write → Table Int Member
  | .message _ _ | .groupMode _ => s.members
  | .memberMode target mode =>
    (s.updateMember target fun m => { m with speakingMode := mode }).members
  | .memberRole target role mode => (s.updateMember target fun _ => ⟨role, mode⟩).members
  | .removal target => s.members.erase target

/-- Rows change by a commit or by a join of somebody who has none. -/
theorem step_members {event : Event} (ht : step s event = some t) :
    t.members = s.members ∨
    (∃ uid, s.members.row uid = none ∧
      t.members = s.members.upsert uid ⟨.member, .unrestricted⟩) ∨
    ∃ id write, event = .next id ∧ s.phase id = .writing write ∧ t.members = s.written write := by
  cases event with
  | call id request =>
    simp only [Speaking.step] at ht
    split at ht
    · exact .inl (Option.some.inj ht ▸ rfl)
    · cases ht
  | next id =>
    simp only [Speaking.step] at ht
    have hshared : ∀ {phase : Phase}, s.lockShared id phase = some t → t.members = s.members := by
      intro phase hlock
      unfold lockShared at hlock
      split at hlock
      · exact Option.some.inj hlock ▸ rfl
      · cases hlock
    have hexclusive : ∀ {phase : Phase}, s.lockExclusive id phase = some t →
        t.members = s.members := by
      intro phase hlock
      unfold lockExclusive at hlock
      split at hlock
      · exact Option.some.inj hlock ▸ rfl
      · cases hlock
    cases hphase : s.phase id with
    | idle =>
      rw [hphase] at ht
      cases ht
    | starting request =>
      rw [hphase] at ht
      cases request with
      | send uid action => exact .inl (hshared ht)
      | edit uid inThread => exact .inl (hshared ht)
      | updateGroupMode requester mode => exact .inl (hexclusive ht)
      | updateMemberMode requester target mode => exact .inl (hexclusive ht)
      | updateMemberRole requester target role => exact .inl (hexclusive ht)
      | removeMember requester target => exact .inl (hexclusive ht)
      | joinByInvite uid =>
        simp only [execute, State.start] at ht
        split at ht
        · exact .inl (Option.some.inj ht ▸ rfl)
        · next hrow => exact .inr (.inl ⟨uid, hrow, Option.some.inj ht ▸ rfl⟩)
    | authorizing uid action =>
      rw [hphase] at ht
      obtain rfl := Option.some.inj ht
      left
      split <;> rfl
    | requiring request =>
      rw [hphase] at ht
      obtain rfl := Option.some.inj ht
      left
      unfold State.require
      split <;> (try split) <;> rfl
    | targeting request =>
      rw [hphase] at ht
      obtain rfl := Option.some.inj ht
      left
      unfold State.target
      split <;> (try split) <;> (try split) <;> rfl
    | counting target =>
      rw [hphase] at ht
      obtain rfl := Option.some.inj ht
      left
      split <;> rfl
    | writing write =>
      rw [hphase] at ht
      obtain rfl := Option.some.inj ht
      refine .inr (.inr ⟨id, write, rfl, hphase, ?_⟩)
      cases write <;> rfl
    | announcing announcement =>
      rw [hphase] at ht
      exact .inl (hshared ht)
    | reading announcement =>
      rw [hphase] at ht
      obtain rfl := Option.some.inj ht
      left
      cases announcement with
      | groupMode => rfl
      | memberMode uid =>
        simp only [State.read]
        split <;> rfl
    | enqueuing entry =>
      rw [hphase] at ht
      exact .inl (Option.some.inj ht ▸ rfl)

def HasAdmin (s : State) : Prop := ∃ uid, s.isAdmin uid = true

theorem HasAdmin.of_row (uid : Int) (m : Member) (hm : t.members.row uid = some m)
    (hrole : m.role = .admin) : t.HasAdmin :=
  ⟨uid, isAdmin_eq_true.mpr ⟨m, hm, hrole⟩⟩

/-- A demotion leaves the requester and a removal of an admin another one. -/
theorem HasAdmin.written (hadmin : s.HasAdmin) {write : Write} (hchecked : s.Checked write)
    (hmembers : t.members = s.written write) : t.HasAdmin := by
  obtain ⟨uid, hadmin⟩ := hadmin
  obtain ⟨m, hm, hrole⟩ := isAdmin_eq_true.mp hadmin
  cases write with
  | message uid' action => exact HasAdmin.of_row uid m (by rw [hmembers]; exact hm) hrole
  | groupMode mode => exact HasAdmin.of_row uid m (by rw [hmembers]; exact hm) hrole
  | memberMode target mode =>
    obtain ⟨m', hm', hne⟩ := hchecked
    have hother : uid ≠ target := by
      intro heq
      subst heq
      cases hm.symm.trans hm'
      exact hne hrole
    refine HasAdmin.of_row uid m ?_ hrole
    rw [hmembers, State.written, updateMember_row_ne _ _ hother, hm]
  | memberRole target role mode =>
    obtain ⟨-, other, hne, hother⟩ := hchecked
    obtain ⟨m', hm', hrole'⟩ := isAdmin_eq_true.mp hother
    refine HasAdmin.of_row other m' ?_ hrole'
    rw [hmembers, State.written, updateMember_row_ne _ _ hne, hm']
  | removal target =>
    have hrow : ∀ {other : Int}, other ≠ target → ∀ m', s.members.row other = some m' →
        t.members.row other = some m' := by
      intro other hne m' hm'
      rw [hmembers, State.written, Table.erase_row_ne _ hne, hm']
    rcases hchecked with ⟨m', hm', hne⟩ | ⟨other, hne, hother⟩
    · have hother : uid ≠ target := by
        intro heq
        subst heq
        cases hm.symm.trans hm'
        exact hne hrole
      exact HasAdmin.of_row uid m (hrow hother m hm) hrole
    · obtain ⟨m', hm', hrole'⟩ := isAdmin_eq_true.mp hother
      exact HasAdmin.of_row other m' (hrow hne m' hm') hrole'

theorem checked_of_writing (h : s.Inv) {write : Write} (hphase : s.phase id = .writing write) :
    s.Checked write := by
  have hok := h.phases id
  rw [hphase] at hok
  cases write <;> exact hok.2

theorem current_of_enqueuing (h : s.Inv) {entry : Entry} (hphase : s.phase id = .enqueuing entry) :
    s.Current entry := by
  have hok := h.phases id
  rw [hphase] at hok
  exact hok.2

theorem HasAdmin.step (h : s.Inv) (hadmin : s.HasAdmin) {event : Event}
    (ht : step s event = some t) : t.HasAdmin := by
  rcases step_members ht with hsame | ⟨uid, hnone, hmembers⟩ | ⟨id, write, -, hphase, hmembers⟩
  · obtain ⟨uid, hadmin⟩ := hadmin
    obtain ⟨m, hm, hrole⟩ := isAdmin_eq_true.mp hadmin
    exact HasAdmin.of_row uid m (hsame ▸ hm) hrole
  · obtain ⟨other, hadmin⟩ := hadmin
    obtain ⟨m, hm, hrole⟩ := isAdmin_eq_true.mp hadmin
    have hne : other ≠ uid := by
      intro heq
      rw [heq, hnone] at hm
      cases hm
    refine HasAdmin.of_row other m ?_ hrole
    rw [hmembers, Table.upsert_row_ne _ _ hne, hm]
  · exact hadmin.written (checked_of_writing h hphase) hmembers

/-- A demotion yields `Unrestricted`, and only `update_member_mode` restricts a member. -/
theorem restricted_by_step (h : s.Inv) {event : Event} (ht : step s event = some t) {uid : Int}
    {m m' : Member} (hm : s.members.row uid = some m) (hm' : t.members.row uid = some m')
    (hchanged : m.role = .admin ∧ m'.role = .member ∨ m'.speakingMode ≠ m.speakingMode) :
    m'.speakingMode = .unrestricted ∨
      ∃ id, event = .next id ∧ s.phase id = .writing (.memberMode uid m'.speakingMode) := by
  have hsame : t.members.row uid ≠ s.members.row uid := by
    intro heq
    rw [hm, hm'] at heq
    cases heq
    rcases hchanged with ⟨hadmin, hmember⟩ | hne
    · rw [hadmin] at hmember
      cases hmember
    · exact hne rfl
  rcases step_members ht with heq | ⟨other, hnone, hmembers⟩ | ⟨id, write, rfl, hphase, hmembers⟩
  · exact absurd (by rw [heq]) hsame
  · have hne : uid ≠ other := by
      intro heq
      rw [heq, hnone] at hm
      cases hm
    exact absurd (by rw [hmembers, Table.upsert_row_ne _ _ hne]) hsame
  · have hchecked := checked_of_writing h hphase
    cases write with
    | message uid' action => exact absurd (by rw [hmembers]; rfl) hsame
    | groupMode mode => exact absurd (by rw [hmembers]; rfl) hsame
    | memberMode target mode =>
      by_cases heq : uid = target
      · subst heq
        rw [hmembers, written, updateMember_row_self, hm, Option.map_some] at hm'
        cases hm'
        exact .inr ⟨id, rfl, hphase⟩
      · exact absurd (by rw [hmembers, written, updateMember_row_ne _ _ heq]) hsame
    | memberRole target role mode =>
      by_cases heq : uid = target
      · subst heq
        obtain ⟨⟨before, hbefore, hmode⟩, -⟩ := hchecked
        cases hm.symm.trans hbefore
        rw [hmembers, written, updateMember_row_self, hm, Option.map_some] at hm'
        cases hm'
        left
        show mode = .unrestricted
        by_cases hrole : role = .admin
        · rw [hmode, if_pos hrole]
        · rw [if_neg hrole] at hmode
          rcases hchanged with ⟨hadmin, -⟩ | hne
          · rw [hmode]
            exact h.unrestricted uid m hm hadmin
          · exact absurd hmode hne
      · exact absurd (by rw [hmembers, written, updateMember_row_ne _ _ heq]) hsame
    | removal target =>
      have hrow := hm'
      rw [hmembers] at hrow
      exact absurd (by rw [hm', (Table.row_of_erase hrow).2]) hsame

/-- No call runs, no lock is held, admins are unrestricted and the last events are current. -/
structure Rested (s : State) : Prop where
  idle : ∀ id, s.phase id = .idle
  shared : s.shared = ∅
  exclusive : s.exclusive = none
  unrestricted : ∀ uid m, s.members.row uid = some m → m.role = .admin →
    m.speakingMode = .unrestricted
  agrees : ∀ announcement, s.Agrees announcement

theorem Rested.inv (h : s.Rested) : s.Inv where
  locked := fun _ => h.shared
  phases := by
    intro id
    rw [h.idle]
    exact ⟨by simp [h.shared], by simp [h.exclusive]⟩
  unrestricted := h.unrestricted
  announced := fun announcement => .inr (h.agrees announcement)

end State

/-- Whatever the interleaving: a message is committed while its author may send it, a group keeps
an admin, admins are unrestricted, only `update_member_mode` restricts a member, every event is
enqueued with the modes committed then, and at rest the last events say what is committed. -/
theorem moderation_linearized (s₀ s : State) (history : List Event) (hstart : s₀.Rested)
    (hrun : run step s₀ history = some s) :
    (∀ id uid action, s.phase id = .writing (.message uid action) →
      s.allowed uid action = true) ∧
    (s.HasAdmin → ∀ later t, run step s later = some t → t.HasAdmin) ∧
    (∀ uid m, s.members.row uid = some m → m.role = .admin → m.speakingMode = .unrestricted) ∧
    (∀ event t, step s event = some t → ∀ uid m m', s.members.row uid = some m →
      t.members.row uid = some m' →
      (m.role = .admin ∧ m'.role = .member ∨ m'.speakingMode ≠ m.speakingMode) →
      m'.speakingMode = .unrestricted ∨
        ∃ id, event = .next id ∧ s.phase id = .writing (.memberMode uid m'.speakingMode)) ∧
    (∀ id entry, s.phase id = .enqueuing entry → s.Current entry) ∧
    ((∀ id, s.phase id = .idle) → ∀ announcement, s.Agrees announcement) := by
  have hinv : s.Inv := run_invariant (fun s e t hs ht => State.Inv.step hs ht) hstart.inv hrun
  refine ⟨fun id uid action hphase => State.checked_of_writing hinv hphase, ?_, hinv.unrestricted,
    fun event t ht uid m m' hm hm' h => State.restricted_by_step hinv ht hm hm' h,
    fun id entry hphase => State.current_of_enqueuing hinv hphase, ?_⟩
  · intro hadmin later t hlater
    have hboth : t.Inv ∧ t.HasAdmin :=
      run_invariant (I := fun s => s.Inv ∧ s.HasAdmin)
        (fun s e t hs ht => ⟨hs.1.step ht, hs.2.step hs.1 ht⟩) ⟨hinv, hadmin⟩ hlater
    exact hboth.2
  · intro hidle announcement
    refine (hinv.announced announcement).resolve_left fun hsome => ?_
    obtain ⟨id, hannounces⟩ := hsome
    rw [hidle] at hannounces
    exact hannounces

/-- A group of admin 1 and member 2, at rest. -/
def twoMembers : State where
  speakingMode := .unrestricted
  members := .ofList [(1, ⟨.admin, .unrestricted⟩), (2, ⟨.member, .unrestricted⟩)]
  shared := ∅
  exclusive := none
  phase := fun _ => .idle
  events := []

theorem twoMembers_rested : twoMembers.Rested where
  idle := fun _ => rfl
  shared := rfl
  exclusive := rfl
  unrestricted := by
    intro uid m hm _
    have hmem := Table.mem_of_ofList_row hm
    simp only [List.mem_cons, Prod.mk.injEq, List.not_mem_nil, or_false] at hmem
    rcases hmem with ⟨-, rfl⟩ | ⟨-, rfl⟩ <;> rfl
  agrees := by
    intro announcement
    cases announcement with
    | groupMode =>
      intro mode hlast
      cases hlast
    | memberMode uid =>
      intro response hlast
      cases hlast

/-- A member is restricted while a message of that member is checked. -/
def restrictAndSend : List Event :=
  [.call 0 (.updateMemberMode 1 2 .threadsOnly), .next 0, .next 0, .next 0, .next 0, .next 0,
    .next 0, .call 1 (.send 2 .threadReply), .next 1, .next 1]

/-- Then the member is promoted. -/
def promote : List Event :=
  [.next 0, .next 1, .call 0 (.updateMemberRole 1 2 .admin), .next 0, .next 0, .next 0, .next 0,
    .next 0, .next 0, .next 0]

theorem moderation_linearized_send :
    ∃ s t, run step twoMembers restrictAndSend = some s ∧ s.allowed 2 .threadReply = true ∧
      s.Current (.memberSpeakingModeChanged (memberState 2 .member .unrestricted .threadsOnly)) ∧
      run step s promote = some t ∧ t.HasAdmin ∧ t.Agrees (.memberMode 2) := by
  obtain ⟨s, hs, hsphase⟩ : ∃ s, run step twoMembers restrictAndSend = some s ∧
      s.phase 1 = .writing (.message 2 .threadReply) ∧ s.phase 0 = .enqueuing
        (.memberSpeakingModeChanged (memberState 2 .member .unrestricted .threadsOnly)) ∧
      s.HasAdmin ∧ ∃ t, run step s promote = some t ∧ ∀ id, t.phase id = .idle := by
    refine ⟨_, rfl, rfl, rfl, ⟨1, rfl⟩, _, rfl, fun id => ?_⟩
    match id with
    | 0 => rfl
    | 1 => rfl
    | _ + 2 => rfl
  obtain ⟨hwriting, henqueuing, hadmin, t, ht, hidle⟩ := hsphase
  have hwhole : run step twoMembers (restrictAndSend ++ promote) = some t :=
    run_append.mpr ⟨s, hs, ht⟩
  obtain ⟨hallowed, hkept, -, -, hcurrent, -⟩ :=
    moderation_linearized twoMembers s restrictAndSend twoMembers_rested hs
  have hrest := (moderation_linearized twoMembers t _ twoMembers_rested hwhole).2.2.2.2.2
  exact ⟨s, t, hs, hallowed 1 2 .threadReply hwriting, hcurrent 0 _ henqueuing, ht,
    hkept hadmin _ t ht, hrest hidle _⟩

/-- A member who is restricted, removed and joins again is unrestricted, and no event says so. Nor
does one say that the group's mode has changed since a member's last event. -/
theorem rejoined_member_unannounced :
    (∃ s, run step twoMembers [.call 0 (.updateMemberMode 1 2 .readOnly), .next 0, .next 0, .next 0,
        .next 0, .next 0, .next 0, .next 0, .call 1 (.removeMember 1 2), .next 1, .next 1, .next 1,
        .next 1, .call 2 (.joinByInvite 2), .next 2] = some s ∧
      (∀ id, s.phase id = .idle) ∧
      s.events = [.joined 2, .memberSpeakingModeChanged
        (memberState 2 .member .unrestricted .readOnly)] ∧
      s.members.row 2 = some ⟨.member, .unrestricted⟩) ∧
    ∃ s, run step twoMembers [.call 0 (.updateMemberMode 1 2 .threadsOnly), .next 0, .next 0,
        .next 0, .next 0, .next 0, .next 0, .next 0, .call 1 (.updateGroupMode 1 .readOnly),
        .next 1, .next 1, .next 1, .next 1, .next 1, .next 1] = some s ∧
      (∀ id, s.phase id = .idle) ∧
      s.events = [.groupSpeakingModeChanged .readOnly, .memberSpeakingModeChanged
        (memberState 2 .member .unrestricted .threadsOnly)] ∧
      s.speakingMode = .readOnly ∧ s.members.row 2 = some ⟨.member, .threadsOnly⟩ := by
  refine ⟨⟨_, rfl, fun id => ?_, rfl, rfl⟩, _, rfl, fun id => ?_, rfl, rfl, rfl⟩
  · match id with
    | 0 => rfl
    | 1 => rfl
    | 2 => rfl
    | _ + 3 => rfl
  · match id with
    | 0 => rfl
    | 1 => rfl
    | _ + 2 => rfl

end Chahua.Speaking

import Chahua.Speaking.Modes

namespace Chahua.Speaking

open Framework

/-- The last group event. -/
def lastGroup : List Entry → Option SpeakingMode
  | [] => none
  | .groupSpeakingModeChanged mode :: _ => some mode
  | _ :: events => lastGroup events

/-- The last event of a member since the member last joined. -/
def lastMember (uid : Int) : List Entry → Option MemberSpeakingModeResponse
  | [] => none
  | .memberSpeakingModeChanged response :: events =>
    if response.uid = uid then some response else lastMember uid events
  | .joined other :: events => if other = uid then none else lastMember uid events
  | .groupSpeakingModeChanged _ :: events => lastMember uid events

def Entry.about : Entry → Option Announcement
  | .groupSpeakingModeChanged _ => some .groupMode
  | .memberSpeakingModeChanged response => some (.memberMode response.uid)
  | .joined _ => none

/-- A call in this phase will enqueue what it reads. -/
def Phase.Announces (announcement : Announcement) : Phase → Prop
  | .announcing other | .reading other => other = announcement
  | .enqueuing entry => entry.about = some announcement
  | _ => False

namespace State

/-- The event carries the committed modes. -/
def Current (s : State) : Entry → Prop
  | .groupSpeakingModeChanged mode => mode = s.speakingMode
  | .memberSpeakingModeChanged response => ∃ m, s.members.row response.uid = some m ∧
      response = memberState response.uid m.role s.speakingMode m.speakingMode
  | .joined _ => False

/-- What the last event of the kind says holds of the committed rows. A member's event is of the
committed row, with the group's mode it was enqueued with. -/
def Agrees (s : State) : Announcement → Prop
  | .groupMode => ∀ mode, lastGroup s.events = some mode → mode = s.speakingMode
  | .memberMode uid => ∀ response, lastMember uid s.events = some response →
      ∀ m, s.members.row uid = some m →
        response = memberState uid m.role response.groupSpeakingMode m.speakingMode

/-- What the checks of a transaction have established about its write. -/
def Checked (s : State) : Write → Prop
  | .message uid action => s.allowed uid action = true
  | .groupMode _ => True
  | .memberMode target _ => ∃ m, s.members.row target = some m ∧ m.role ≠ .admin
  | .memberRole target role mode =>
    (∃ m, s.members.row target = some m ∧
      mode = if role = .admin then .unrestricted else m.speakingMode) ∧
    ∃ other, other ≠ target ∧ s.isAdmin other = true
  | .removal target => (∃ m, s.members.row target = some m ∧ m.role ≠ .admin) ∨
      ∃ other, other ≠ target ∧ s.isAdmin other = true

def Unlocked (s : State) (id : Nat) : Prop := id ∉ s.shared ∧ s.exclusive ≠ some id

/-- The lock of a call in each phase, and what it has read under that lock. -/
def PhaseOk (s : State) (id : Nat) : Phase → Prop
  | .idle | .starting _ | .announcing _ => s.Unlocked id
  | .authorizing _ _ | .reading _ => id ∈ s.shared
  | .enqueuing entry => id ∈ s.shared ∧ s.Current entry
  | .requiring _ | .counting _ => s.exclusive = some id
  | .targeting request => s.exclusive = some id ∧
      ∀ requester target role, request = .updateMemberRole requester target role →
        s.isAdmin requester = true ∧ requester ≠ target
  | .writing (.message uid action) => id ∈ s.shared ∧ s.Checked (.message uid action)
  | .writing write => s.exclusive = some id ∧ s.Checked write

structure Inv (s : State) : Prop where
  locked : s.exclusive ≠ none → s.shared = ∅
  phases : ∀ id, s.PhaseOk id (s.phase id)
  unrestricted : ∀ uid m, s.members.row uid = some m → m.role = .admin →
    m.speakingMode = .unrestricted
  announced : ∀ announcement, (∃ id, (s.phase id).Announces announcement) ∨ s.Agrees announcement

variable {s t : State} {id : Nat}

theorem isAdmin_eq_true {uid : Int} :
    s.isAdmin uid = true ↔ ∃ m, s.members.row uid = some m ∧ m.role = .admin := by
  simp [isAdmin, Option.any_eq_true]

theorem isAdmin_mono (h : ∀ uid m, s.members.row uid = some m → t.members.row uid = some m)
    {uid : Int} (hadmin : s.isAdmin uid = true) : t.isAdmin uid = true := by
  obtain ⟨m, hm, hrole⟩ := isAdmin_eq_true.mp hadmin
  exact isAdmin_eq_true.mpr ⟨m, h uid m hm, hrole⟩

/-- A join adds a row and takes none away, so checks that have passed still hold. -/
theorem Checked.mono (h : ∀ uid m, s.members.row uid = some m → t.members.row uid = some m)
    (hmode : t.speakingMode = s.speakingMode) {write : Write} (hw : s.Checked write) :
    t.Checked write := by
  cases write with
  | message uid action =>
    obtain ⟨m, hm, hallows⟩ := (Option.any_eq_true _ _).mp hw
    refine (Option.any_eq_true _ _).mpr ⟨m, h uid m hm, ?_⟩
    rw [hmode]
    exact hallows
  | groupMode mode => trivial
  | memberMode target mode =>
    obtain ⟨m, hm, hrole⟩ := hw
    exact ⟨m, h target m hm, hrole⟩
  | memberRole target role mode =>
    obtain ⟨⟨m, hm, hmode⟩, other, hne, hadmin⟩ := hw
    exact ⟨⟨m, h target m hm, hmode⟩, other, hne, isAdmin_mono h hadmin⟩
  | removal target =>
    rcases hw with ⟨m, hm, hrole⟩ | ⟨other, hne, hadmin⟩
    · exact .inl ⟨m, h target m hm, hrole⟩
    · exact .inr ⟨other, hne, isAdmin_mono h hadmin⟩

theorem Current.mono (h : ∀ uid m, s.members.row uid = some m → t.members.row uid = some m)
    (hmode : t.speakingMode = s.speakingMode) {entry : Entry} (he : s.Current entry) :
    t.Current entry := by
  cases entry with
  | groupSpeakingModeChanged mode => exact he.trans hmode.symm
  | memberSpeakingModeChanged response =>
    obtain ⟨m, hm, heq⟩ := he
    exact ⟨m, h _ m hm, hmode ▸ heq⟩
  | joined uid => exact he

/-- A step of another call that changes neither its lock nor a row it may have read. -/
theorem PhaseOk.mono (h : ∀ uid m, s.members.row uid = some m → t.members.row uid = some m)
    (hmode : t.speakingMode = s.speakingMode) (hshared : id ∈ t.shared ↔ id ∈ s.shared)
    (hexclusive : t.exclusive = some id ↔ s.exclusive = some id) {phase : Phase}
    (hp : s.PhaseOk id phase) : t.PhaseOk id phase := by
  have hunlocked : s.Unlocked id → t.Unlocked id := by
    intro hu
    exact ⟨mt hshared.mp hu.1, mt hexclusive.mp hu.2⟩
  cases phase with
  | idle => exact hunlocked hp
  | starting request => exact hunlocked hp
  | announcing announcement => exact hunlocked hp
  | authorizing uid action => exact hshared.mpr hp
  | reading announcement => exact hshared.mpr hp
  | enqueuing entry => exact ⟨hshared.mpr hp.1, hp.2.mono h hmode⟩
  | requiring request => exact hexclusive.mpr hp
  | counting target => exact hexclusive.mpr hp
  | targeting request =>
    refine ⟨hexclusive.mpr hp.1, fun requester target role heq => ?_⟩
    obtain ⟨hadmin, hne⟩ := hp.2 requester target role heq
    exact ⟨isAdmin_mono h hadmin, hne⟩
  | writing write =>
    cases write with
    | message uid action => exact ⟨hshared.mpr hp.1, hp.2.mono h hmode⟩
    | groupMode mode => exact ⟨hexclusive.mpr hp.1, hp.2.mono h hmode⟩
    | memberMode target mode => exact ⟨hexclusive.mpr hp.1, hp.2.mono h hmode⟩
    | memberRole target role mode => exact ⟨hexclusive.mpr hp.1, hp.2.mono h hmode⟩
    | removal target => exact ⟨hexclusive.mpr hp.1, hp.2.mono h hmode⟩

/-- A call without a lock has read nothing yet: any later state will do. -/
theorem PhaseOk.unlocked {phase : Phase} (hp : s.PhaseOk id phase) (hu : s.Unlocked id)
    (ht : t.Unlocked id) : t.PhaseOk id phase := by
  cases phase with
  | idle => exact ht
  | starting request => exact ht
  | announcing announcement => exact ht
  | authorizing uid action => exact absurd hp hu.1
  | reading announcement => exact absurd hp hu.1
  | enqueuing entry => exact absurd hp.1 hu.1
  | requiring request => exact absurd hp hu.2
  | counting target => exact absurd hp hu.2
  | targeting request => exact absurd hp.1 hu.2
  | writing write =>
    cases write with
    | message uid action => exact absurd hp.1 hu.1
    | groupMode mode => exact absurd hp.1 hu.2
    | memberMode target mode => exact absurd hp.1 hu.2
    | memberRole target role mode => exact absurd hp.1 hu.2
    | removal target => exact absurd hp.1 hu.2

theorem announces_of_move (id : Nat) {announcement : Announcement}
    (hphase : ∀ other ≠ id, t.phase other = s.phase other)
    (hmove : (s.phase id).Announces announcement → (t.phase id).Announces announcement)
    (h : ∃ id, (s.phase id).Announces announcement) :
    ∃ id, (t.phase id).Announces announcement := by
  obtain ⟨other, hother⟩ := h
  by_cases heq : other = id
  · exact ⟨id, hmove (heq ▸ hother)⟩
  · exact ⟨other, (hphase other heq).symm ▸ hother⟩

/-- A step of one call that writes nothing and enqueues nothing. -/
theorem Inv.move (h : s.Inv) (id : Nat) (t : State) (hmode : t.speakingMode = s.speakingMode)
    (hmembers : t.members = s.members) (hevents : t.events = s.events)
    (hphase : ∀ other ≠ id, t.phase other = s.phase other)
    (hlocks : ∀ other ≠ id, (other ∈ t.shared ↔ other ∈ s.shared) ∧
      (t.exclusive = some other ↔ s.exclusive = some other))
    (hlocked : t.exclusive ≠ none → t.shared = ∅) (hok : t.PhaseOk id (t.phase id))
    (hannounces : ∀ announcement, (s.phase id).Announces announcement →
      (t.phase id).Announces announcement ∨ s.Agrees announcement) : t.Inv where
  locked := hlocked
  phases := by
    intro other
    by_cases heq : other = id
    · exact heq ▸ hok
    · rw [hphase other heq]
      exact (h.phases other).mono (fun uid m hm => hmembers ▸ hm) hmode (hlocks other heq).1
        (hlocks other heq).2
  unrestricted := by
    rw [hmembers]
    exact h.unrestricted
  announced := by
    intro announcement
    have hagrees : s.Agrees announcement → t.Agrees announcement := by
      intro ha
      cases announcement with
      | groupMode =>
        simpa only [Agrees, hevents, hmode] using ha
      | memberMode uid =>
        simpa only [Agrees, hevents, hmembers] using ha
    rcases h.announced announcement with hannounced | ha
    · by_cases hself : (s.phase id).Announces announcement
      · rcases hannounces announcement hself with hnext | ha
        · exact .inl ⟨id, hnext⟩
        · exact .inr (hagrees ha)
      · exact .inl (announces_of_move id hphase (fun hno => absurd hno hself) hannounced)
    · exact .inr (hagrees ha)

theorem goTo_phase (s : State) (id : Nat) (phase : Phase) (other : Nat) :
    (s.goTo id phase).phase other = if other = id then phase else s.phase other := rfl

@[simp] theorem goTo_self (s : State) (id : Nat) (phase : Phase) :
    (s.goTo id phase).phase id = phase := by simp [goTo_phase]

theorem goTo_ne (s : State) {id other : Nat} (phase : Phase) (h : other ≠ id) :
    (s.goTo id phase).phase other = s.phase other := by simp [goTo_phase, h]

theorem release_unlocked (s : State) (id : Nat) : (s.release id).Unlocked id := by
  refine ⟨Finset.notMem_erase _ _, ?_⟩
  simp only [release]
  split <;> simp_all

theorem release_other (s : State) {id other : Nat} (h : other ≠ id) :
    (other ∈ (s.release id).shared ↔ other ∈ s.shared) ∧
      ((s.release id).exclusive = some other ↔ s.exclusive = some other) := by
  refine ⟨by simp [release, h], ?_⟩
  simp only [release]
  split
  · next hself =>
    rw [hself]
    simp [Ne.symm h]
  · rfl

theorem release_locked (h : s.Inv) (id : Nat) :
    (s.release id).exclusive ≠ none → (s.release id).shared = ∅ := by
  intro hne
  have hold : s.exclusive ≠ none := by
    intro hnone
    simp [release, hnone] at hne
  simp [release, h.locked hold]

/-- A statement inside a transaction that keeps its lock. -/
theorem Inv.goTo (h : s.Inv) {phase : Phase} (hok : s.PhaseOk id phase)
    (hannounces : ∀ announcement, (s.phase id).Announces announcement →
      phase.Announces announcement ∨ s.Agrees announcement) : (s.goTo id phase).Inv := by
  refine h.move id (s.goTo id phase) rfl rfl rfl (fun other hne => goTo_ne s phase hne)
    (fun other _ => ⟨Iff.rfl, Iff.rfl⟩) h.locked ?_ ?_
  · rw [goTo_self]
    exact hok.mono (fun _ _ hm => hm) rfl Iff.rfl Iff.rfl
  · rw [goTo_self]
    exact hannounces

theorem Inv.abort (h : s.Inv)
    (hannounces : ∀ announcement, (s.phase id).Announces announcement → s.Agrees announcement) :
    (s.abort id).Inv := by
  refine h.move id (s.abort id) rfl rfl rfl (fun other hne => goTo_ne _ _ hne)
    (fun other hne => release_other s hne) (release_locked h id) ?_ ?_
  · rw [State.abort, goTo_self]
    exact release_unlocked s id
  · exact fun announcement ha => .inr (hannounces announcement ha)

theorem Inv.lockShared (h : s.Inv) {phase : Phase} (ht : s.lockShared id phase = some t)
    (hphase : id ∈ t.shared → t.PhaseOk id phase)
    (hannounces : ∀ announcement, (s.phase id).Announces announcement →
      phase.Announces announcement) : t.Inv := by
  unfold State.lockShared at ht
  split at ht
  · next hfree =>
    obtain rfl := Option.some.inj ht
    refine h.move id _ rfl rfl rfl (fun other hne => goTo_ne _ _ hne) ?_ ?_ ?_ ?_
    · intro other hne
      exact ⟨by simp [State.goTo, hne], Iff.rfl⟩
    · intro hne
      exact absurd hfree hne
    · rw [goTo_self]
      exact hphase (Finset.mem_insert_self _ _)
    · rw [goTo_self]
      exact fun announcement ha => .inl (hannounces announcement ha)
  · cases ht

theorem Inv.lockExclusive (h : s.Inv) {request : Request}
    (ht : s.lockExclusive id (.requiring request) = some t)
    (hannounces : ∀ announcement, ¬ (s.phase id).Announces announcement) : t.Inv := by
  unfold State.lockExclusive at ht
  split at ht
  · next hfree =>
    obtain rfl := Option.some.inj ht
    refine h.move id _ rfl rfl rfl (fun other hne => goTo_ne _ _ hne) ?_ ?_ ?_ ?_
    · intro other hne
      refine ⟨Iff.rfl, ?_⟩
      simp [State.goTo, hfree.1, Ne.symm hne]
    · exact fun _ => hfree.2
    · rw [goTo_self]
      rfl
    · exact fun announcement ha => absurd ha (hannounces announcement)
  · cases ht

/-- Under the exclusive lock no other call holds one, so whatever is written, none of them has
read it; what changes is announced or agrees with its last event. -/
theorem Inv.commit (h : s.Inv) (hlock : s.exclusive = some id) (phase : Phase) (t : State)
    (hshared : t.shared = s.shared) (hexclusive : t.exclusive = s.exclusive)
    (hothers : t.phase = s.phase) (hfree : phase = .idle ∨ ∃ a, phase = .announcing a)
    (hquiet : ∀ announcement, ¬ (s.phase id).Announces announcement)
    (hunrestricted : ∀ uid m, t.members.row uid = some m → m.role = .admin →
      m.speakingMode = .unrestricted)
    (hannounced : ∀ announcement, phase.Announces announcement ∨ t.Agrees announcement ∨
      (s.Agrees announcement → t.Agrees announcement)) : ((t.release id).goTo id phase).Inv := by
  have hnone : s.shared = ∅ := h.locked (by simp [hlock])
  have hempty : (t.release id).shared = ∅ := by simp [release, hshared, hnone]
  have hreleased : (t.release id).exclusive = none := by simp [release, hexclusive, hlock]
  have hunlocked : ∀ other, ((t.release id).goTo id phase).Unlocked other := by
    intro other
    refine ⟨?_, ?_⟩
    · show other ∉ (t.release id).shared
      simp [hempty]
    · show (t.release id).exclusive ≠ some other
      simp [hreleased]
  refine ⟨fun _ => hempty, fun other => ?_, hunrestricted, fun announcement => ?_⟩
  · by_cases heq : other = id
    · subst heq
      rw [goTo_self]
      rcases hfree with rfl | ⟨a, rfl⟩
      · exact hunlocked other
      · exact hunlocked other
    · rw [goTo_ne _ _ heq]
      have hphase : (t.release id).phase other = s.phase other := congrFun hothers other
      rw [hphase]
      have hother : s.Unlocked other := ⟨by simp [hnone], by simp [hlock, Ne.symm heq]⟩
      exact (h.phases other).unlocked hother (hunlocked other)
  · have hmove : (∃ other, (s.phase other).Announces announcement) →
        ∃ other, (((t.release id).goTo id phase).phase other).Announces announcement := by
      apply announces_of_move id
      · intro other hne
        rw [goTo_ne _ _ hne]
        exact congrFun hothers other
      · exact fun ha => absurd ha (hquiet announcement)
    rcases hannounced announcement with hself | hagrees | hkeeps
    · exact .inl ⟨id, by rwa [goTo_self]⟩
    · exact .inr hagrees
    · exact (h.announced announcement).imp hmove hkeeps

/-- A join adds the row of a plain member and no event counts for that member any more. -/
theorem Inv.join (h : s.Inv) {uid : Int} (hphase : s.phase id = .starting (.joinByInvite uid))
    (hrow : s.members.row uid = none) :
    ({ s with
      members := s.members.upsert uid ⟨.member, .unrestricted⟩
      events := .joined uid :: s.events }.goTo id .idle).Inv := by
  have hne : ∀ other m, s.members.row other = some m → other ≠ uid := by
    intro other m hm heq
    rw [heq, hrow] at hm
    cases hm
  have hunlocked : s.Unlocked id := by
    have hok := h.phases id
    rwa [hphase] at hok
  refine ⟨h.locked, fun other => ?_, fun other m hm hrole => ?_, fun announcement => ?_⟩
  · by_cases heq : other = id
    · subst heq
      rw [goTo_self]
      exact hunlocked
    · rw [goTo_ne _ _ heq]
      refine PhaseOk.mono ?_ ?_ ?_ ?_ (h.phases other)
      · exact fun uid' m hm => (Table.upsert_row_ne _ _ (hne uid' m hm)).trans hm
      · rfl
      · exact Iff.rfl
      · exact Iff.rfl
  · by_cases heq : other = uid
    · subst heq
      have hm' : (⟨.member, .unrestricted⟩ : Member) = m :=
        Option.some.inj ((Table.upsert_row_self _ _ _).symm.trans hm)
      rw [← hm']
    · exact h.unrestricted other m ((Table.upsert_row_ne _ _ heq).symm.trans hm) hrole
  · refine (h.announced announcement).imp (announces_of_move id (fun other hne => goTo_ne _ _ hne)
      fun ha => ?_) fun ha => ?_
    · rw [hphase] at ha
      exact ha.elim
    · cases announcement with
      | groupMode => exact ha
      | memberMode other =>
        intro response hlast m hm
        simp only [State.goTo, lastMember] at hlast
        split at hlast
        · cases hlast
        · next heq =>
          exact ha response hlast m ((Table.upsert_row_ne _ _ (Ne.symm heq)).symm.trans hm)

/-- The event of a kind that is enqueued last carries what was read under the lock. -/
theorem Inv.enqueue (h : s.Inv) {entry : Entry} (hphase : s.phase id = .enqueuing entry) :
    ({ s with events := entry :: s.events }.abort id).Inv := by
  have hok := h.phases id
  rw [hphase] at hok
  have hcurrent := hok.2
  refine ⟨release_locked h id, fun other => ?_, h.unrestricted, fun announcement => ?_⟩
  · by_cases heq : other = id
    · subst heq
      rw [State.abort, goTo_self]
      exact release_unlocked s other
    · rw [State.abort, goTo_ne _ _ heq]
      refine PhaseOk.mono ?_ ?_ ?_ ?_ (h.phases other)
      · exact fun _ _ hm => hm
      · rfl
      · exact (release_other s heq).1
      · exact (release_other s heq).2
  · by_cases habout : entry.about = some announcement
    · right
      cases entry with
      | joined uid => cases habout
      | groupSpeakingModeChanged mode =>
        cases habout
        intro last hlast
        exact Option.some.inj hlast ▸ hcurrent
      | memberSpeakingModeChanged response =>
        cases habout
        intro last hlast m hm
        obtain ⟨m', hm', heq⟩ := hcurrent
        have hlast' : response = last := by
          simpa [State.abort, State.release, State.goTo, lastMember] using hlast
        cases hm'.symm.trans hm
        rw [← hlast', heq]
        rfl
    · refine (h.announced announcement).imp (announces_of_move id (fun other hne => goTo_ne _ _ hne)
        fun ha => ?_) fun ha => ?_
      · have ha' : (s.phase id).Announces announcement := ha
        rw [hphase] at ha'
        exact absurd ha' habout
      · cases announcement with
        | groupMode =>
          cases entry with
          | groupSpeakingModeChanged mode => exact absurd rfl habout
          | memberSpeakingModeChanged response => exact ha
          | joined uid => exact ha
        | memberMode uid =>
          cases entry with
          | groupSpeakingModeChanged mode => exact ha
          | memberSpeakingModeChanged response =>
            intro last hlast m hm
            have hne : response.uid ≠ uid := fun heq => habout (by rw [Entry.about, heq])
            have hlast' : lastMember uid s.events = some last := by
              simpa [State.abort, State.release, State.goTo, lastMember, hne] using hlast
            exact ha last hlast' m hm
          | joined uid' => exact hcurrent.elim

end State

end Chahua.Speaking

import Chahua.Session.Isolation

namespace Chahua.Session

open Framework
open SessionStore

variable {page : Page}

/-- The failure of this promise ends the initialization. -/
def Await.rethrows : Await → Prop
  | .devOpen _ priorToken | .devSession _ priorToken => priorToken = none
  | .tokenOpen _ | .profile _ => False
  | _ => True

/-- A logout, an invalidation or a newer `initialize` runs in this step. -/
def Event.supersedes (s : SessionStore) : Event → Prop
  | .start | .restore _ _ | .logout | .switchDevUid _ | .sessionInvalidated => True
  | .sessionRejected error => error = .unauthorized ∧ s.transport.reconnect = some true
  | .resume e =>
    e = s.initializationEpoch ∧
      ∃ await, await.rethrows ∧ s.runs e = some ⟨await, some (.failed .unauthorized)⟩
  | _ => False

/-- A result, an event or a response with settings. -/
def Event.carriesData : Event → Bool
  | .updated _ | .orderUpdated _ | .writeSettings | .readSettings | .responded _ _
  | .accepted _ => true
  | _ => false

/-- The data the event changes the user with is data for the account. -/
def Event.isFor (s : SessionStore) (uid : Int) : Event → Prop
  | .updated data => ∃ profile, findOwnProfile uid data = some profile ∧ hasUid uid profile = true
  | .orderUpdated _ => s.transport.account = some uid
  | .accepted i => ∃ q, s.requests[i]? = some q ∧ q.account = uid
  | _ => False

/-- `initialize` takes the next epoch. -/
theorem initializeSession_epoch (s : SessionStore) :
    s.initializationEpoch < (s.initializeSession page).initializationEpoch :=
  lt_of_lt_of_le (Nat.lt_succ_self _) (extends_of_begun s).epoch

theorem resumeWith_rethrows {s : SessionStore} {await : Await} (h : await.rethrows) :
    s.resumeWith page s.initializationEpoch await (.failed .unauthorized) =
      (s.setRun s.initializationEpoch none).invalidate := by
  cases await with
  | devOpen uid priorToken | devSession uid priorToken =>
    obtain rfl : priorToken = none := h
    simp [resumeWith, devFailed, failWith]
  | tokenOpen token => exact h.elim
  | profile user => exact h.elim
  | bound | refresh | me => simp [resumeWith, failWith]

theorem epoch_of_supersedes {s t : SessionStore} {ev : Event} (hs : ev.supersedes s)
    (h : step page s ev = some t) : s.initializationEpoch < t.initializationEpoch := by
  cases ev with
  | start =>
    obtain rfl := Option.some.inj h
    exact initializeSession_epoch s
  | restore urlToken stored =>
    obtain ⟨-, rfl⟩ := when_eq_some.mp h
    exact lt_of_le_of_lt (extends_restoreToken s urlToken stored).epoch
      (initializeSession_epoch _)
  | logout | switchDevUid uid =>
    obtain rfl := Option.some.inj h
    exact Nat.lt_succ_self _
  | sessionInvalidated =>
    obtain ⟨-, rfl⟩ := when_eq_some.mp h
    exact Nat.lt_succ_self _
  | sessionRejected error =>
    obtain ⟨-, rfl⟩ := when_eq_some.mp h
    obtain ⟨rfl, hr⟩ := hs
    simp only [rejectSessionOpen, hr, decide_true, if_true]
    exact Nat.lt_succ_self _
  | resume e =>
    obtain ⟨rfl, await, hthrows, hrun⟩ := hs
    simp only [step, hrun] at h
    obtain rfl := Option.some.inj h
    rw [resumeWith_rethrows hthrows]
    exact Nat.lt_succ_self _
  | _ => exact hs.elim

theorem epoch_run {s t : SessionStore} {es : List Event} (hi : Isolated page s)
    (h : run (step page) s es = some t) : s.initializationEpoch ≤ t.initializationEpoch := by
  have hboth : Isolated page t ∧ s.initializationEpoch ≤ t.initializationEpoch := by
    refine run_invariant
      (I := fun u => Isolated page u ∧ s.initializationEpoch ≤ u.initializationEpoch)
      ?_ ⟨hi, le_rfl⟩ h
    intro u ev v hu hv
    exact ⟨isolated_step hu.1 hv, hu.2.trans (step_spec hu.1 hv).1.epoch⟩
  exact hboth.2

/-- What a step with data does to the user. -/
theorem user_step {s t : SessionStore} {ev : Event} (hi : Isolated page s)
    (hd : ev.carriesData = true) (h : step page s ev = some t) :
    t.user.map User.uid = s.user.map User.uid ∧
      (t.user = s.user ∨ ∃ u, s.user = some u ∧ ev.isFor s u.uid) := by
  cases ev with
  | updated data =>
    obtain rfl := Option.some.inj h
    obtain hs | ⟨u, p, hu, hp, hs⟩ := updateProfile_cases s data
    · rw [hs]
      exact ⟨rfl, .inl rfl⟩
    · rw [hs]
      exact ⟨by rw [hu]; rfl, .inr ⟨u, hu, p, hp, findOwnProfile_hasUid hp⟩⟩
  | orderUpdated order =>
    obtain ⟨ha, rfl⟩ := when_eq_some.mp h
    obtain ⟨a, ha⟩ := Option.isSome_iff_exists.mp ha
    refine ⟨by simp only [replaceStickerPackOrder, Option.map_map]; rfl, ?_⟩
    cases hu : s.user with
    | none => exact .inl (by simp [replaceStickerPackOrder, hu])
    | some u =>
      refine .inr ⟨u, rfl, ?_⟩
      rw [Event.isFor, ha, (hi.kept u hu).wire.account a ha]
  | writeSettings =>
    obtain rfl := Option.some.inj h
    obtain ⟨write, requests, hs⟩ := writeSettings_eq s
    rw [hs]
    exact ⟨rfl, .inl rfl⟩
  | readSettings =>
    obtain rfl := Option.some.inj h
    obtain ⟨requests, hs⟩ := readSettings_eq s
    rw [hs]
    exact ⟨rfl, .inl rfl⟩
  | responded i settings =>
    simp only [step] at h
    split at h
    · obtain rfl := Option.some.inj h
      exact ⟨rfl, .inl rfl⟩
    · cases h
  | accepted i =>
    simp only [step] at h
    split at h
    · next kind account settings hget =>
      obtain rfl := Option.some.inj h
      have hok := hi.requests _ (List.mem_of_getElem? hget)
      obtain hs | ⟨u, hu, hfor, hs⟩ :=
        acceptReply_cases { s with requests := s.requests.eraseIdx i } kind settings
      · rw [hs]
        exact ⟨rfl, .inl rfl⟩
      · rw [hs]
        have hu : s.user = some u := hu
        exact ⟨by rw [hu]; rfl, .inr ⟨u, hu, _, hget, hok.account hfor⟩⟩
    · cases h
  | _ => simp [Event.carriesData] at hd

/-- Switching sessions isolates accounts. Once a logout, an invalidation or a newer `initialize`
has run, a continuation of an initialization begun before writes nothing but where it stands. The
user is the one of the token, of the bound identity and of the transport's session. And results,
events and responses keep the uid and change the user only with data for it. -/
theorem accounts_isolated {es : List Event} {s : SessionStore}
    (h : run (step page) SessionStore.initial es = some s) :
    (∀ ev t, ev.supersedes s → step page s ev = some t →
      ∀ later u e v, run (step page) t later = some u → e ≤ s.initializationEpoch →
        step page u (.resume e) = some v → ∃ r, v = u.setRun e r) ∧
      (∀ u, s.user = some u →
        (∃ k, s.token = some k ∧ (page.tokenIdentity k).map Identity.uid = some u.uid) ∧
          (∃ b, s.boundIdentity = some b ∧ b.uid = u.uid) ∧
            ∀ a, s.transport.account = some a → a = u.uid) ∧
        ∀ ev t, ev.carriesData = true → step page s ev = some t →
          t.user.map User.uid = s.user.map User.uid ∧
            (t.user = s.user ∨ ∃ u, s.user = some u ∧ ev.isFor s u.uid) := by
  have hi := isolated_run h
  refine ⟨?_, ?_, fun ev t hd ht => user_step hi hd ht⟩
  · intro ev t hs ht later u e v hlater he hv
    have hlt : e < u.initializationEpoch :=
      lt_of_le_of_lt he
        (lt_of_lt_of_le (epoch_of_supersedes hs ht) (epoch_run (isolated_step hi ht) hlater))
    simp only [step] at hv
    split at hv
    · next await reply _ =>
      obtain rfl := Option.some.inj hv
      exact resumeWith_stale hlt.ne await reply
    · cases hv
  · intro u hu
    obtain ⟨⟨k, hk, hof⟩, hb, hw⟩ := hi.kept u hu
    exact ⟨⟨k, hk, by simpa [Page.ofAccount] using hof⟩, hb, hw.account⟩

/-- A token is of account `1` or `2`. -/
def pairPage : Page :=
  { decodePayload := fun segment =>
      some (.object [("uid", .number (if segment = "first" then 1 else 2)), ("gen", .number 0)])
    development := false }

def tokenOf (segment : String) : Token := ⟨["header", segment, "signature"]⟩

def secondUser : User :=
  { uid := 2
    username := .string "second"
    gender := .number 0
    avatarUrl := none
    userGroup := none
    showMembershipMessages := true
    stickerPackOrder := [] }

/-- The socket is opened for the first account, and its initialization goes on from there. -/
def firstOpened : List Event :=
  [.restore none (some (tokenOf "first")), .socketOpened, .sessionOpened true 1]

/-- What the first initialization still has to run runs beside the second, whose token is bound
and refreshed and its user read. -/
def signingIn : List Event :=
  [.restore none (some (tokenOf "second")), .resume 1, .resume 1, .socketOpened,
    .sessionOpened true 2, .resume 3, .resume 3, .refreshed 3 (tokenOf "second"), .resume 3,
    .meRead 3 secondUser, .resume 3, .searched 3 [], .resume 3]

/-- The first account is logged out under way and the second signs in. -/
theorem accounts_isolated_signed_in :
    (∃ s t u v, run (step pairPage) SessionStore.initial firstOpened = some s ∧
      step pairPage s .logout = some t ∧ run (step pairPage) t (signingIn.take 1) = some u ∧
      step pairPage u (.resume 1) = some v ∧ ∃ r, v = u.setRun 1 r) ∧
    ∃ w user,
      run (step pairPage) SessionStore.initial (firstOpened ++ .logout :: signingIn) = some w ∧
      w.user = some user ∧ user.uid = 2 ∧ ∃ b, w.boundIdentity = some b ∧ b.uid = user.uid := by
  refine ⟨?_, ?_⟩
  · obtain ⟨s, hs⟩ := Option.isSome_iff_exists.mp
      (by decide : (run (step pairPage) SessionStore.initial firstOpened).isSome = true)
    have hresumed : ((run (step pairPage) s (.logout :: signingIn.take 1)).bind fun u =>
        step pairPage u (.resume 1)).isSome = true := by
      obtain rfl := Option.some.inj hs
      decide
    have hepoch : 1 ≤ s.initializationEpoch := by
      obtain rfl := Option.some.inj hs
      decide
    obtain ⟨v, hv⟩ := Option.isSome_iff_exists.mp hresumed
    obtain ⟨u, hu, hv⟩ := Option.bind_eq_some_iff.mp hv
    obtain ⟨t, ht, hu⟩ := Option.bind_eq_some_iff.mp hu
    exact ⟨s, t, u, v, hs, ht, hu, hv,
      (accounts_isolated hs).1 .logout t (by trivial) ht _ u 1 v hu hepoch hv⟩
  · have hsome : (((run (step pairPage) SessionStore.initial
        (firstOpened ++ .logout :: signingIn)).bind SessionStore.user).filter
          fun user => decide (user.uid = 2)).isSome = true := by decide
    obtain ⟨user, huser⟩ := Option.isSome_iff_exists.mp hsome
    obtain ⟨huser, huid⟩ := Option.filter_eq_some_iff.mp huser
    obtain ⟨w, hw, huser⟩ := Option.bind_eq_some_iff.mp huser
    exact ⟨w, user, hw, huser, of_decide_eq_true huid, ((accounts_isolated hw).2.1 user huser).2.1⟩

end Chahua.Session

import Chahua.Session.Accounts

namespace Chahua.Session

open SessionStore

variable {page : Page}

/-- Later in the same session store: the epoch has not gone back, no run has appeared behind it,
and an added request is for the account of its socket. -/
structure Extends (s t : SessionStore) : Prop where
  epoch : s.initializationEpoch ≤ t.initializationEpoch
  runs : ∀ e, t.initializationEpoch < e → s.runs e = none → t.runs e = none
  requests : ∀ q ∈ t.requests, q ∈ s.requests ∨ q.Ok

theorem Extends.refl (s : SessionStore) : Extends s s :=
  ⟨le_rfl, fun _ _ h => h, fun _ h => .inl h⟩

theorem Extends.compose {s t u : SessionStore} (h : Extends s t) (h' : Extends t u) :
    Extends s u where
  epoch := h.epoch.trans h'.epoch
  runs := fun e he hs => h'.runs e he (h.runs e (lt_of_le_of_lt h'.epoch he) hs)
  requests := fun q hq => (h'.requests q hq).elim (h.requests q) .inr

theorem Extends.noLater {s t : SessionStore} (h : Extends s t) (hs : NoLater s) : NoLater t :=
  fun e he => h.runs e he (hs e (lt_of_le_of_lt h.epoch he))

/-- The same epoch, runs and requests at the start. -/
theorem Extends.after {s s' t : SessionStore} (h : Extends s' t)
    (he : s'.initializationEpoch = s.initializationEpoch) (hr : s'.runs = s.runs)
    (hq : s'.requests = s.requests) : Extends s t where
  epoch := he ▸ h.epoch
  runs := hr ▸ h.runs
  requests := hq ▸ h.requests

/-- The same epoch, runs and requests at the end. -/
theorem Extends.before {s t t' : SessionStore} (h : Extends s t)
    (he : t'.initializationEpoch = t.initializationEpoch) (hr : t'.runs = t.runs)
    (hq : t'.requests = t.requests) : Extends s t' where
  epoch := he ▸ h.epoch
  runs := by
    rw [he, hr]
    exact h.runs
  requests := hq ▸ h.requests

theorem extends_setRun (s : SessionStore) {e : Nat} (he : e ≤ s.initializationEpoch)
    (r : Option Run) : Extends s (s.setRun e r) where
  epoch := le_rfl
  runs := by
    intro e' he' hs
    have hne : e' ≠ e := by
      have : s.initializationEpoch < e' := he'
      omega
    simp only [setRun, Function.update_of_ne hne, hs]
  requests := fun _ h => .inl h

theorem extends_stopCurrent (s : SessionStore) (error : Failure) (reconnect : Bool) :
    Extends s (s.stopCurrent error reconnect) where
  epoch := le_rfl
  runs := fun e _ hs => by simp only [SessionStore.stopCurrent, hs, Option.map_none]
  requests := fun _ h => .inl (List.mem_of_mem_filter h)

theorem extends_close (s : SessionStore) : Extends s s.close := by
  unfold close
  exact (extends_stopCurrent _ .other false).after rfl rfl rfl

theorem extends_beginOpen (s : SessionStore) (token : Option Token) {e : Nat}
    (he : e ≤ s.initializationEpoch) (await : Await) :
    Extends s (s.beginOpen token e await) :=
  ((extends_stopCurrent s .other false).compose
    (extends_setRun _ (by exact he) (some ⟨await, none⟩))).before rfl rfl rfl

theorem extends_cancelOpening (s : SessionStore) (e : Nat) : Extends s (s.cancelOpening e) := by
  unfold cancelOpening
  split
  · exact (extends_stopCurrent _ .other false).after rfl rfl rfl
  · exact Extends.refl s

theorem extends_startCall (s : SessionStore) {e : Nat} (he : e ≤ s.initializationEpoch)
    (await : Await) (devSession : Bool) : Extends s (s.startCall e await devSession) := by
  unfold startCall
  split
  · exact extends_setRun s he _
  · exact extends_setRun s he _

theorem extends_createDevSession (s : SessionStore) {e : Nat} (he : e ≤ s.initializationEpoch)
    (uid : Int) (priorToken : Option Token) :
    Extends s (s.createDevSession e uid priorToken) := by
  unfold createDevSession
  split
  · exact (extends_startCall s he _ true).before rfl rfl rfl
  · exact extends_startCall s he _ true

theorem extends_clearAccountState (s : SessionStore) : Extends s s.clearAccountState := by
  have h := extends_close
    { s with chatSettingsWrite := s.chatSettingsWrite + 1, boundIdentity := none }
  exact Extends.after (t := s.clearAccountState) (h.before rfl rfl rfl) rfl rfl rfl

theorem extends_logout (s : SessionStore) : Extends s s.logout := by
  have hbump : Extends s
      { s with expired := false, initializationEpoch := s.initializationEpoch + 1 } :=
    ⟨Nat.le_succ _, fun _ _ h => h, fun _ h => .inl h⟩
  exact (hbump.compose (extends_clearAccountState _)).before rfl rfl rfl

theorem extends_failWith (s : SessionStore) {e : Nat} (he : e ≤ s.initializationEpoch)
    (error : Failure) : Extends s (s.failWith e error) := by
  unfold failWith
  dsimp only
  split
  · exact ((extends_setRun s he none).compose (extends_logout _)).before rfl rfl rfl
  · exact extends_setRun s he none

theorem extends_refreshSession (s : SessionStore) {e : Nat} (he : e ≤ s.initializationEpoch) :
    Extends s (s.refreshSession e) := by
  unfold refreshSession
  split
  · exact extends_startCall s he _ false
  · exact extends_setRun s he none

theorem extends_bindToken (s : SessionStore) {e : Nat} (he : e ≤ s.initializationEpoch)
    (token : Token) : Extends s (s.bindToken page e token) := by
  unfold bindToken
  split
  · exact extends_setRun s he _
  · dsimp only
    split
    · exact (extends_setRun _ (by exact he) _).after rfl rfl rfl
    · split
      · exact (extends_clearAccountState s).compose (extends_beginOpen _ _ (by exact he) _)
      · exact (extends_close s).compose (extends_beginOpen _ _ (by exact he) _)

theorem extends_devFailed (s : SessionStore) {e : Nat} (he : e ≤ s.initializationEpoch)
    (priorToken : Option Token) (error : Failure) :
    Extends s (s.devFailed page e priorToken error) := by
  unfold devFailed
  split
  · exact extends_failWith s he error
  · exact (extends_close s).compose (extends_bindToken _ (by exact he) _)

theorem extends_resumeWith (s : SessionStore) {e : Nat} (he : e ≤ s.initializationEpoch)
    (await : Await) (reply : Reply) : Extends s (s.resumeWith page e await reply) := by
  unfold resumeWith
  split
  · dsimp only
    split
    · exact (extends_setRun _ (by exact he) _).after rfl rfl rfl
    · exact extends_setRun s he _
  · exact extends_setRun s he _
  · split
    · exact extends_setRun s he none
    · split
      · exact extends_createDevSession s he _ _
      · exact (extends_refreshSession _ (by exact he)).after rfl rfl rfl
      · exact extends_devFailed s he _ _
      · exact extends_devFailed s he _ _
      · exact extends_refreshSession s he
      · exact (extends_startCall _ (by exact he) _ false).after rfl rfl rfl
      · exact extends_startCall s he _ false
      · exact (extends_setRun _ (by exact he) none).after rfl rfl rfl
      · exact (extends_setRun _ (by exact he) none).after rfl rfl rfl
      · exact extends_failWith s he _
      · exact Extends.refl s

theorem extends_settleRun (s : SessionStore) (e : Nat) (reply : Reply) :
    Extends s (s.settleRun e reply) where
  epoch := le_rfl
  runs := by
    intro e' _ hs
    by_cases hne : e' = e
    · subst hne
      simp [settleRun, setRun, hs]
    · simp only [settleRun, setRun, Function.update_of_ne hne, hs]
  requests := fun _ h => .inl h

theorem extends_acceptSessionOpen (s : SessionStore) (authenticated : Bool) (uid : Int) :
    Extends s (s.acceptSessionOpen authenticated uid) := by
  unfold acceptSessionOpen
  dsimp only
  split
  · exact (extends_settleRun _ _ _).after rfl rfl rfl
  · exact ⟨le_rfl, fun _ _ h => h, fun _ h => .inl h⟩

theorem extends_invalidateSession (s : SessionStore) : Extends s s.invalidateSession := by
  have h : Extends s (s.forget.stopCurrent .unauthorized false) :=
    (extends_stopCurrent s.forget .unauthorized false).after rfl rfl rfl
  exact (h.compose (extends_logout _)).before rfl rfl rfl

theorem extends_rejectSessionOpen (s : SessionStore) (error : Failure) :
    Extends s (s.rejectSessionOpen error) := by
  unfold rejectSessionOpen
  dsimp only
  split
  · split
    · exact extends_invalidateSession s
    · exact (extends_stopCurrent s.forget error false).after rfl rfl rfl
  · exact extends_stopCurrent s error _

theorem extends_stop (s : SessionStore) (reconnect : Bool) : Extends s (s.stop reconnect) := by
  unfold SessionStore.stop
  split
  · exact extends_stopCurrent s .other true
  · exact (extends_stopCurrent _ .other false).after rfl rfl rfl

theorem extends_reconnect (s : SessionStore) : Extends s s.reconnect := by
  unfold SessionStore.reconnect
  split
  · exact ⟨le_rfl, fun _ _ h => h, fun _ h => .inl h⟩
  · exact Extends.refl s

theorem extends_expire (s : SessionStore) (e : Nat) (await : Await) :
    Extends s (s.expire e await) := by
  unfold expire
  split
  · exact (extends_cancelOpening s e).compose (extends_settleRun _ _ _)
  · exact extends_settleRun s e _

end Chahua.Session

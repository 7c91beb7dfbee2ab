import Chahua.Session.Runs

namespace Chahua.Session

open SessionStore

variable {page : Page}

/-- The invariant without what the bookkeeping of the runs keeps. -/
def Good (page : Page) (s : SessionStore) : Prop := Kept page s ∧ Current page s

theorem frames_setRun (s : SessionStore) (e : Nat) (r : Option Run) :
    Frames page s (s.setRun e r) :=
  ⟨rfl, rfl, rfl, fun _ h => h⟩

theorem good_setRun {s : SessionStore} {e : Nat} {r : Option Run}
    (he : e = s.initializationEpoch) (hk : Kept page s) (hr : ∀ q, r = some q → RunOk page s q) :
    Good page (s.setRun e r) := by
  subst he
  refine ⟨(frames_setRun s _ r).kept hk, ?_⟩
  intro q hq
  simp only [setRun, Function.update_self] at hq
  exact (frames_setRun s _ r).runOk_same rfl (hr q hq)

theorem good_startCall {s : SessionStore} {e : Nat} {await : Await} {devSession : Bool}
    (he : e = s.initializationEpoch) (hk : Kept page s)
    (hsent : s.transport.canCall devSession = true → RunOk page s ⟨await, none⟩)
    (hfailed : RunOk page s ⟨await, some (.failed .other)⟩) :
    Good page (s.startCall e await devSession) := by
  unfold startCall
  split
  · next hcall =>
    refine good_setRun he hk ?_
    intro q hq
    obtain rfl := Option.some.inj hq
    exact hsent hcall
  · refine good_setRun he hk ?_
    intro q hq
    obtain rfl := Option.some.inj hq
    exact hfailed

theorem good_refreshSession {s : SessionStore} {e : Nat} (he : e = s.initializationEpoch)
    (hk : Kept page s) : Good page (s.refreshSession e) := by
  unfold refreshSession
  split
  · exact good_startCall he hk (fun _ _ h => nomatch h) (fun _ h => nomatch h)
  · exact good_setRun he hk fun _ h => nomatch h

theorem close_wire (s : SessionStore) (uid : Int) : s.close.transport.Of page uid :=
  Wire.stopCurrent_of false fun _ h => nomatch h

/-- What holds of the user before a token is bound. -/
def Linked (page : Page) (s : SessionStore) : Prop :=
  ∀ u, s.user = some u →
    (∃ b, s.boundIdentity = some b ∧ b.uid = u.uid) ∧ s.transport.Of page u.uid

theorem Kept.linked {s : SessionStore} (h : Kept page s) : Linked page s :=
  fun u hu => ⟨(h u hu).bound, (h u hu).wire⟩

theorem good_beginOpen {s : SessionStore} {e : Nat} {token : Option Token} {await : Await}
    (he : e = s.initializationEpoch)
    (htoken : ∀ u, s.user = some u →
      (∃ k, s.token = some k ∧ page.ofAccount k u.uid = true) ∧
        ∀ k, token = some k → page.ofAccount k u.uid = true)
    (hbound : ∀ u, s.user = some u → ∃ b, s.boundIdentity = some b ∧ b.uid = u.uid)
    (hrun : RunOk page (s.beginOpen token e await) ⟨await, none⟩) :
    Good page (s.beginOpen token e await) := by
  constructor
  · intro u hu
    have hwire : (s.beginOpen token e await).transport.Of page u.uid :=
      ⟨(htoken u hu).2, (fun _ _ h => nomatch h), (fun _ h => nomatch h), (fun _ _ h => nomatch h)⟩
    exact ⟨(htoken u hu).1, hbound u hu, hwire⟩
  · intro q hq
    have hruns : (s.beginOpen token e await).runs (s.beginOpen token e await).initializationEpoch =
        some ⟨await, none⟩ := by
      rw [he]
      exact Function.update_self ..
    rw [hruns] at hq
    obtain rfl := Option.some.inj hq
    exact hrun

/-- A user that is not foreign to the identity is of its account. -/
theorem uid_of_not_foreign {s : SessionStore} {identity : Option Identity} {u : User}
    (h : s.foreignUser identity = false) (hu : s.user = some u) :
    ∃ i, identity = some i ∧ i.uid = u.uid := by
  simp only [foreignUser, hu, Option.any_some] at h
  cases identity with
  | none => simp at h
  | some i =>
    simp only [Option.all_some, decide_eq_false_iff_not, ne_eq, not_not] at h
    exact ⟨i, rfl, h.symm⟩

theorem uid_of_reuses {s : SessionStore} {identity : Option Identity}
    (h : s.reuses identity = true) :
    ∃ b i, s.boundIdentity = some b ∧ identity = some i ∧ i.uid = b.uid := by
  unfold reuses at h
  cases hb : s.boundIdentity with
  | none => simp [hb] at h
  | some b =>
    cases identity with
    | none => simp [hb] at h
    | some i =>
      simp only [hb, Bool.and_eq_true, beq_iff_eq] at h
      exact ⟨b, i, rfl, rfl, h.2.1.symm⟩

theorem good_bindToken {s : SessionStore} {e : Nat} {token : Token}
    (he : e = s.initializationEpoch) (ht : s.token = some token) (hl : Linked page s) :
    Good page (s.bindToken page e token) := by
  unfold bindToken
  rw [if_neg (not_not.mpr he)]
  dsimp only
  split
  · next hreuse =>
    obtain ⟨b, i, hb, hi, hib⟩ := uid_of_reuses hreuse
    refine good_setRun he ?_ ?_
    · intro u hu
      obtain ⟨⟨b', hb', hbu⟩, hw⟩ := hl u hu
      obtain rfl : b' = b := Option.some.inj (hb'.symm.trans hb)
      have hof : page.ofAccount token u.uid = true :=
        Page.ofAccount_iff.mpr ⟨i, hi, hib.trans hbu⟩
      refine ⟨⟨token, ht, hof⟩, ⟨b', hb', hbu⟩, ?_, hw.handshake, hw.account, hw.devCalls⟩
      intro k hk
      rw [← Option.some.inj hk]
      exact hof
    · intro q hq
      obtain rfl := Option.some.inj hq
      trivial
  · split
    · -- The account changes: nobody is signed in.
      refine good_beginOpen he ?_ ?_ ?_
      · exact fun _ h => nomatch h
      · exact fun _ h => nomatch h
      · exact fun _ h => nomatch h
    · next hforeign =>
      have huser (u : User) (hu : s.user = some u) : page.ofAccount token u.uid = true :=
        Page.ofAccount_iff.mpr (uid_of_not_foreign (by simpa using hforeign) hu)
      refine good_beginOpen he ?_ ?_ ?_
      · intro u hu
        refine ⟨⟨token, ht, huser u hu⟩, ?_⟩
        intro k hk
        rw [← Option.some.inj hk]
        exact huser u hu
      · exact fun u hu => (hl u hu).1
      · exact huser

theorem good_logout {s : SessionStore} (hn : NoLater s) : Good page s.logout := by
  refine ⟨kept_of_none rfl, ?_⟩
  intro q hq
  have hrun : s.logout.runs s.logout.initializationEpoch =
      (s.runs (s.initializationEpoch + 1)).map (Run.settled (.failed .other)) := rfl
  rw [hrun, hn _ (Nat.lt_succ_self _)] at hq
  exact nomatch hq

theorem good_invalidate {s : SessionStore} (hn : NoLater s) : Good page s.invalidate := by
  obtain ⟨-, hc⟩ := good_logout hn
  have hframes : Frames page s.logout s.invalidate := ⟨rfl, rfl, rfl, fun _ h => h⟩
  exact ⟨kept_of_none rfl, fun q hq => hframes.runOk_same rfl (hc q hq)⟩

theorem good_failWith {s : SessionStore} {e : Nat} {error : Failure}
    (he : e = s.initializationEpoch) (hk : Kept page s) (hn : NoLater s) :
    Good page (s.failWith e error) := by
  unfold failWith
  dsimp only
  split
  · exact good_invalidate ((extends_setRun s he.le none).noLater hn)
  · exact good_setRun he hk fun _ h => nomatch h

theorem good_devFailed {s : SessionStore} {e : Nat} {priorToken : Option Token} {error : Failure}
    (he : e = s.initializationEpoch) (hk : Kept page s) (hn : NoLater s)
    (hp : priorToken = s.token.filter Token.truthy) :
    Good page (s.devFailed page e priorToken error) := by
  unfold devFailed
  split
  · exact good_failWith he hk hn
  · next token =>
    have htoken : s.close.token = some token := (Option.filter_eq_some_iff.mp hp.symm).1
    exact good_bindToken he htoken fun u hu => ⟨(hk u hu).bound, close_wire s u.uid⟩

theorem userIs_of_kept {s : SessionStore} {a : Int} (hk : Kept page s)
    (ha : s.transport.account = some a) : UserIs s a := by
  intro u hu
  exact ((hk u hu).wire.account a ha).symm

/-- The token of the refresh is of the account of the socket, and so is everything after it. -/
theorem good_refreshed {s : SessionStore} {e : Nat} {token : Token}
    (he : e = s.initializationEpoch) (hk : Kept page s)
    (hr : RunOk page s ⟨.refresh, some (.issued token)⟩) :
    Good page (s.resumeWith page e .refresh (.issued token)) := by
  obtain ⟨hstate, a, ha, hof⟩ := hr token rfl
  obtain ⟨i, hi, hia⟩ := Page.ofAccount_iff.mp hof
  simp only [resumeWith, he, ne_eq, not_true_eq_false, if_false]
  have hsigned : SignedIn page
      { (s.saveToken (some token)).setReconnectToken token with
        boundIdentity := (page.tokenIdentity token).or s.boundIdentity } a := by
    refine ⟨⟨token, rfl, hof⟩, ⟨i, by simp [hi], hia⟩, ?_, ?_, ?_, ?_⟩
    · intro k hk
      rw [← Option.some.inj hk]
      exact hof
    · exact fun h => absurd hstate h
    · exact fun b hb => Option.some.inj (hb.symm.trans ha)
    · intro hnone
      exact absurd (ha.symm.trans hnone) (by simp)
  refine good_startCall rfl ?_ ?_ ?_
  · intro u hu
    rw [userIs_of_kept hk ha u hu]
    exact hsigned
  · intro _
    exact ⟨a, hsigned, fun _ => ⟨hstate, ha⟩, fun _ h => nomatch h⟩
  · exact ⟨a, hsigned, (fun h => nomatch h), fun _ h => nomatch h⟩

theorem good_issued {s : SessionStore} {e : Nat} {uid : Int} {priorToken : Option Token}
    {token : Token} (he : e = s.initializationEpoch) (hk : Kept page s)
    (hr : RunOk page s ⟨.devSession uid priorToken, some (.issued token)⟩) :
    Good page (s.resumeWith page e (.devSession uid priorToken) (.issued token)) := by
  obtain ⟨huser, -, hof⟩ := hr
  have hof := hof token rfl
  obtain ⟨i, hi, hiu⟩ := Page.ofAccount_iff.mp hof
  simp only [resumeWith, he, ne_eq, not_true_eq_false, if_false]
  refine good_refreshSession rfl ?_
  intro u hu
  have huid : u.uid = uid := huser u hu
  have hw := (hk u hu).wire
  rw [huid] at hw ⊢
  refine ⟨⟨token, rfl, hof⟩, ⟨i, by simp [hi], hiu⟩, ?_, hw.handshake, hw.account, hw.devCalls⟩
  intro k hk
  rw [← Option.some.inj hk]
  exact hof

theorem good_createDevSession {s : SessionStore} {e : Nat} {uid : Int}
    {priorToken : Option Token} (he : e = s.initializationEpoch) (hk : Kept page s)
    (huser : UserIs s uid) (hp : priorToken = s.token.filter Token.truthy) :
    Good page (s.createDevSession e uid priorToken) := by
  unfold createDevSession
  dsimp only
  split
  · next hcan =>
    have hsent : s.startCall e (.devSession uid priorToken) true =
        s.setRun e (some ⟨.devSession uid priorToken, none⟩) := if_pos hcan
    rw [hsent]
    have hkept : Kept page
        { s with transport := { s.transport with devCalls := uid :: s.transport.devCalls } } := by
      intro u hu
      have h := hk u hu
      refine ⟨h.token, h.bound, h.wire.token, h.wire.handshake, h.wire.account, ?_⟩
      intro hnone d hd
      obtain rfl | hd := List.mem_cons.mp hd
      · exact (huser u hu).symm
      · exact h.wire.devCalls hnone d hd
    show Good page (SessionStore.setRun
      { s with transport := { s.transport with devCalls := uid :: s.transport.devCalls } } e
      (some ⟨.devSession uid priorToken, none⟩))
    refine good_setRun he hkept ?_
    intro q hq
    obtain rfl := Option.some.inj hq
    exact ⟨huser, hp, fun _ h => nomatch h⟩
  · exact good_startCall he hk (fun _ => ⟨huser, hp, fun _ h => nomatch h⟩)
      ⟨huser, hp, fun _ h => nomatch h⟩

/-- A continuation that is not of the current initialization only ends it. -/
theorem resumeWith_stale {s : SessionStore} {e : Nat} (he : e ≠ s.initializationEpoch)
    (await : Await) (reply : Reply) :
    ∃ r, s.resumeWith page e await reply = s.setRun e r := by
  unfold resumeWith
  split
  · exact ⟨some ⟨.bound, some .done⟩, by simp [he]⟩
  · exact ⟨_, rfl⟩
  · exact ⟨none, if_pos he⟩

theorem good_setRun_other {s : SessionStore} {e : Nat} (he : e ≠ s.initializationEpoch)
    (r : Option Run) (hg : Good page s) : Good page (s.setRun e r) := by
  refine ⟨(frames_setRun s e r).kept hg.1, ?_⟩
  intro q hq
  simp only [setRun, Function.update_of_ne he.symm] at hq
  exact (frames_setRun s e r).runOk_same rfl (hg.2 q hq)

theorem good_opened {s : SessionStore} {e : Nat} {token : Token} {authenticated : Bool} {uid : Int}
    (he : e = s.initializationEpoch) (hk : Kept page s)
    (hr : ∀ u, s.user = some u → page.ofAccount token u.uid = true) :
    Good page (s.resumeWith page e (.tokenOpen token) (.opened authenticated uid)) := by
  simp only [resumeWith]
  split
  · refine good_setRun he ?_ fun q hq => Option.some.inj hq ▸ trivial
    intro u hu
    obtain ⟨i, hi, hiu⟩ := Page.ofAccount_iff.mp (hr u hu)
    exact ⟨(hk u hu).token, ⟨i, by simp [hi], hiu⟩, (hk u hu).wire⟩
  · exact good_setRun he hk fun q hq => Option.some.inj hq ▸ trivial

/-- The end of an initialization signs in the account everything is of. -/
theorem good_profile {s : SessionStore} {e : Nat} {user : User} (he : e = s.initializationEpoch)
    (hs : SignedIn page s user.uid) (group : Option Data) :
    Good page (({ s with user := some { user with userGroup := group } } : SessionStore).setRun e
      none) := by
  refine good_setRun he ?_ fun _ h => nomatch h
  intro u hu
  obtain rfl := Option.some.inj hu
  exact ⟨hs.token, hs.bound, hs.wire⟩

theorem good_resumeWith {s : SessionStore} {e : Nat} {await : Await} {reply : Reply}
    (hg : Good page s) (hn : NoLater s) (hrun : s.runs e = some ⟨await, some reply⟩) :
    Good page (s.resumeWith page e await reply) := by
  by_cases he : e = s.initializationEpoch
  · have hr : RunOk page s ⟨await, some reply⟩ := hg.2 _ (he ▸ hrun)
    have hk := hg.1
    cases await with
    | tokenOpen token =>
      cases reply with
      | opened authenticated uid => exact good_opened he hk hr
      | _ => exact good_setRun he hk fun q hq => Option.some.inj hq ▸ trivial
    | devOpen uid priorToken =>
      cases reply with
      | opened authenticated opened =>
        simp only [resumeWith, he, ne_eq, not_true_eq_false, if_false]
        exact good_createDevSession rfl hk hr.1 hr.2
      | failed error =>
        simp only [resumeWith, he, ne_eq, not_true_eq_false, if_false]
        exact good_devFailed rfl hk hn hr.2
      | _ => simpa only [resumeWith, he, ne_eq, not_true_eq_false, if_false] using hg
    | devSession uid priorToken =>
      cases reply with
      | issued token => exact good_issued he hk hr
      | failed error =>
        simp only [resumeWith, he, ne_eq, not_true_eq_false, if_false]
        exact good_devFailed rfl hk hn hr.2.1
      | _ => simpa only [resumeWith, he, ne_eq, not_true_eq_false, if_false] using hg
    | bound =>
      cases reply with
      | done =>
        simp only [resumeWith, he, ne_eq, not_true_eq_false, if_false]
        exact good_refreshSession rfl hk
      | failed error =>
        simp only [resumeWith, he, ne_eq, not_true_eq_false, if_false]
        exact good_failWith rfl hk hn
      | _ => simpa only [resumeWith, he, ne_eq, not_true_eq_false, if_false] using hg
    | refresh =>
      cases reply with
      | issued token => exact good_refreshed he hk hr
      | failed error =>
        simp only [resumeWith, he, ne_eq, not_true_eq_false, if_false]
        exact good_failWith rfl hk hn
      | _ => simpa only [resumeWith, he, ne_eq, not_true_eq_false, if_false] using hg
    | me =>
      obtain ⟨x, hx, -, hme⟩ := hr
      cases reply with
      | me user =>
        obtain rfl := hme user rfl
        simp only [resumeWith, he, ne_eq, not_true_eq_false, if_false]
        exact good_startCall rfl hk (fun _ => hx) hx
      | failed error =>
        simp only [resumeWith, he, ne_eq, not_true_eq_false, if_false]
        exact good_failWith rfl hk hn
      | _ => simpa only [resumeWith, he, ne_eq, not_true_eq_false, if_false] using hg
    | profile user =>
      cases reply with
      | members members =>
        simp only [resumeWith, he, ne_eq, not_true_eq_false, if_false]
        exact good_profile rfl hr _
      | failed error =>
        simp only [resumeWith, he, ne_eq, not_true_eq_false, if_false]
        exact good_profile rfl hr _
      | _ => simpa only [resumeWith, he, ne_eq, not_true_eq_false, if_false] using hg
  · obtain ⟨r, hr⟩ := resumeWith_stale he await reply
    rw [hr]
    exact good_setRun_other he r hg

end Chahua.Session

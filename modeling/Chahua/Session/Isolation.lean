import Chahua.Session.Initialization

namespace Chahua.Session

open Framework
open SessionStore

variable {page : Page}

theorem extends_begun (s : SessionStore) :
    Extends s { s with initializationEpoch := s.initializationEpoch + 1 } :=
  ⟨Nat.le_succ _, fun _ _ h => h, fun _ h => .inl h⟩

theorem frames_begun (s : SessionStore) :
    Frames page s { s with initializationEpoch := s.initializationEpoch + 1 } :=
  ⟨rfl, rfl, rfl, fun _ h => h⟩

theorem extends_of_begun (s : SessionStore) :
    Extends { s with initializationEpoch := s.initializationEpoch + 1 }
      (s.initializeSession page) := by
  unfold initializeSession
  dsimp only
  split
  · split
    · exact extends_refreshSession _ le_rfl
    · unfold prepareDevConnection
      split
      · exact (extends_clearAccountState _).compose (extends_beginOpen _ _ le_rfl _)
      · exact (extends_close _).compose (extends_beginOpen _ _ le_rfl _)
  · split
    · exact extends_bindToken _ le_rfl _
    · exact Extends.refl _

theorem extends_initializeSession (s : SessionStore) : Extends s (s.initializeSession page) :=
  (extends_begun s).compose (extends_of_begun s)

/-- The user is the one of the uid, or there is none, after the development connection is
prepared. -/
theorem userIs_prepareDevConnection (s : SessionStore) (uid : Int) :
    UserIs (s.prepareDevConnection uid) uid := by
  unfold prepareDevConnection
  intro u hu
  split at hu
  · exact nomatch hu
  · next hsame =>
    have hu : s.user = some u := hu
    simpa [hu] using hsame

theorem prepareDevConnection_token (s : SessionStore) (uid : Int) :
    (s.prepareDevConnection uid).token = s.token := by
  unfold prepareDevConnection
  split <;> rfl

theorem kept_prepareDevConnection {s : SessionStore} (hk : Kept page s) (uid : Int) :
    Kept page (s.prepareDevConnection uid) := by
  unfold prepareDevConnection
  split
  · exact kept_of_none rfl
  · intro u hu
    exact ⟨(hk u hu).token, (hk u hu).bound, close_wire s u.uid⟩

theorem prepareDevConnection_epoch (s : SessionStore) (uid : Int) :
    (s.prepareDevConnection uid).initializationEpoch = s.initializationEpoch := by
  unfold prepareDevConnection
  split <;> rfl

/-- A development initialization reads only what the user is on; another one binds its token. -/
theorem good_initializeSession {s : SessionStore} (hn : NoLater s) (hl : Linked page s)
    (hk : Kept page s ∨
      ((page.development && !s.urlTokenAdopted) = false ∧ s.token.any Token.truthy = true)) :
    Good page (s.initializeSession page) := by
  have hbegun : s.runs (s.initializationEpoch + 1) = none := hn _ (Nat.lt_succ_self _)
  unfold initializeSession
  dsimp only
  split
  · next hdev =>
    have hk : Kept page s := by
      obtain hk | ⟨hd, -⟩ := hk
      · exact hk
      · exact absurd (hd.symm.trans hdev) (by simp)
    have hkb : Kept page { s with initializationEpoch := s.initializationEpoch + 1 } :=
      (frames_begun s).kept hk
    split
    · exact good_refreshSession rfl hkb
    · have hkp := kept_prepareDevConnection hkb s.developmentUid
      have huser := userIs_prepareDevConnection
        { s with initializationEpoch := s.initializationEpoch + 1 } s.developmentUid
      refine good_beginOpen (by rw [prepareDevConnection_epoch]) ?_ ?_ ?_
      · exact fun u hu => ⟨(hkp u hu).token, fun _ h => nomatch h⟩
      · exact fun u hu => (hkp u hu).bound
      · refine ⟨huser, ?_⟩
        exact congrArg (Option.filter Token.truthy) (prepareDevConnection_token
          { s with initializationEpoch := s.initializationEpoch + 1 } s.developmentUid).symm
  · split
    · next token htoken =>
      have ht : s.token = some token := (Option.filter_eq_some_iff.mp htoken).1
      exact good_bindToken rfl ht hl
    · next hnone =>
      have hk : Kept page s := by
        obtain hk | ⟨-, ht⟩ := hk
        · exact hk
        · cases hs : s.token with
          | none => simp [hs] at ht
          | some token =>
            simp only [hs, Option.any_some] at ht
            simp [hs, Option.filter, ht] at hnone
      refine ⟨(frames_begun s).kept hk, ?_⟩
      intro q hq
      exact nomatch hbegun.symm.trans hq

def adopted (s : SessionStore) (urlToken : Option Token) : SessionStore :=
  { s with urlTokenAdopted := s.urlTokenAdopted || urlToken.any Token.truthy }

theorem frames_adopted (s : SessionStore) (urlToken : Option Token) :
    Frames page s (adopted s urlToken) :=
  ⟨rfl, rfl, rfl, fun _ h => h⟩

/-- The token is saved if there is one. -/
theorem restoreToken_cases (page : Page) (s : SessionStore) (urlToken stored : Option Token) :
    s.restoreToken page urlToken stored = adopted s urlToken ∨
      ∃ token : Option Token, token.any Token.truthy = true ∧
        s.restoreToken page urlToken stored = (adopted s urlToken).saveToken token := by
  by_cases h : (if urlToken.any fun url => url.truthy && sameSession page url stored then stored
    else urlToken.or stored).any Token.truthy = true
  · exact .inr ⟨_, h, if_pos h⟩
  · exact .inl (if_neg h)

theorem good_restore {s : SessionStore} {urlToken stored : Option Token} (hi : Isolated page s)
    (hr : page.restores s urlToken stored = true) :
    Good page ((s.restoreToken page urlToken stored).initializeSession page) := by
  simp only [Page.restores, Bool.and_eq_true, Bool.or_eq_true, Bool.not_eq_true'] at hr
  obtain ⟨-, hmode⟩ := hr
  obtain hs | ⟨token, htoken, hs⟩ := restoreToken_cases page s urlToken stored
  · rw [hs]
    have hkept := (frames_adopted s urlToken).kept hi.kept
    exact good_initializeSession hi.noLater hkept.linked (.inl hkept)
  · rw [hs] at hmode ⊢
    refine good_initializeSession hi.noLater hi.kept.linked ?_
    obtain (hnone | hdev) | hadopted := hmode
    · exact .inl (kept_of_none (Option.isNone_iff_eq_none.mp hnone))
    · exact .inr ⟨by simp [hdev], htoken⟩
    · exact .inr ⟨by rw [hadopted]; simp, htoken⟩

/-! Events from the socket and the server. -/

theorem reply_of_quiet {s : SessionStore} {r : Run} (hq : s.quiet = true)
    (h : s.runs s.initializationEpoch = some r) : r.reply = none := by
  have hlast := List.all_eq_true.mp hq _ (List.mem_range.mpr (Nat.lt_succ_self _))
  simpa [h] using hlast

/-- The runs go on waiting while the socket of an authenticated session stays what it is. -/
theorem good_wire {s t : SessionStore} (hg : Good page s) (hq : s.quiet = true)
    (hf : Frames page s t) (hruns : t.runs = s.runs)
    (hepoch : t.initializationEpoch = s.initializationEpoch)
    (hw : ∀ x, s.transport.state = .authenticated → s.transport.account = some x →
      t.transport.state = .authenticated ∧ t.transport.account = some x) : Good page t := by
  refine ⟨hf.kept hg.1, ?_⟩
  intro r hr
  rw [hruns, hepoch] at hr
  exact hf.runOk_waiting (hg.2 r hr) (reply_of_quiet hq hr) hw

theorem good_same {s t : SessionStore} (hg : Good page s) (hf : Frames page s t)
    (hruns : t.runs = s.runs) (hepoch : t.initializationEpoch = s.initializationEpoch)
    (ht : t.transport = s.transport) : Good page t := by
  refine ⟨hf.kept hg.1, ?_⟩
  intro r hr
  rw [hruns, hepoch] at hr
  exact hf.runOk_same ht (hg.2 r hr)

theorem frames_stopCurrent (s : SessionStore) (error : Failure) (reconnect : Bool) :
    Frames page s (s.stopCurrent error reconnect) :=
  ⟨rfl, rfl, rfl, fun _ h => Wire.stopCurrent_of reconnect h.token⟩

theorem good_stopCurrent {s : SessionStore} (hg : Good page s) (hq : s.quiet = true)
    (error : Failure) (reconnect : Bool) : Good page (s.stopCurrent error reconnect) := by
  have hf : Frames page s _ := frames_stopCurrent s error reconnect
  refine ⟨hf.kept hg.1, ?_⟩
  intro q hq'
  obtain ⟨r, hr, rfl⟩ := Option.map_eq_some_iff.mp hq'
  have hnone := reply_of_quiet hq hr
  rw [Run.settled, hnone]
  exact hf.runOk_settled (hg.2 r hr) trivial

theorem frames_settleRun (s : SessionStore) (e : Nat) (reply : Reply) :
    Frames page s (s.settleRun e reply) :=
  ⟨rfl, rfl, rfl, fun _ h => h⟩

/-- A settled promise: the current run has to be ready for the reply. -/
theorem good_settleRun {s : SessionStore} {e : Nat} {reply : Reply} (hg : Good page s)
    (hrun : ∀ r, s.runs s.initializationEpoch = some r → e = s.initializationEpoch →
      r.reply = none → RunOk page s ⟨r.await, some reply⟩) :
    Good page (s.settleRun e reply) := by
  have hf : Frames page s _ := frames_settleRun s e reply
  refine ⟨hf.kept hg.1, ?_⟩
  intro q hq
  by_cases he : e = s.initializationEpoch
  · subst he
    simp only [settleRun, setRun, Function.update_self] at hq
    obtain ⟨r, hr, rfl⟩ := Option.map_eq_some_iff.mp hq
    refine hf.runOk_same rfl ?_
    cases hreply : r.reply with
    | none =>
      rw [Run.settled, hreply]
      exact hrun r hr rfl hreply
    | some old =>
      rw [Run.settled, hreply]
      exact hg.2 r hr
  · simp only [settleRun, setRun, Function.update_of_ne (Ne.symm he)] at hq
    exact hf.runOk_same rfl (hg.2 q hq)

theorem good_settleRun_plain {s : SessionStore} {e : Nat} {reply : Reply} (hg : Good page s)
    (hp : reply.plain) : Good page (s.settleRun e reply) := by
  refine good_settleRun hg ?_
  intro r hr _ _
  have hsame : Frames page s s := ⟨rfl, rfl, rfl, fun _ h => h⟩
  exact hsame.runOk_settled (hg.2 r hr) hp

theorem run_of_waiting {s : SessionStore} {e : Nat} {await : Await}
    (h : s.waiting e = some await) : s.runs e = some ⟨await, none⟩ := by
  unfold waiting at h
  obtain ⟨r, hr, rfl⟩ := Option.map_eq_some_iff.mp h
  obtain ⟨hr, hnone⟩ := Option.filter_eq_some_iff.mp hr
  obtain ⟨await, reply⟩ := r
  obtain rfl : reply = none := by simpa using hnone
  exact hr

theorem ofAccount_unique {token : Token} {a b : Int} (ha : page.ofAccount token a = true)
    (hb : page.ofAccount token b = true) : a = b := by
  simp only [Page.ofAccount, decide_eq_true_eq] at ha hb
  exact Option.some.inj (ha.symm.trans hb)

theorem state_of_opening {s : SessionStore} (h : s.opening = true) :
    s.transport.state ≠ .authenticated := by
  intro hstate
  simp [opening, hstate] at h

theorem good_acceptSessionOpen {s : SessionStore} (hg : Good page s) (hq : s.quiet = true)
    {authenticated : Bool} {uid : Int} {sent : Option Token} (ho : s.opening = true)
    (hsent : s.transport.handshake = some sent) (ha : authenticated = sent.isSome)
    (hof : ∀ token, sent = some token → page.ofAccount token uid = true) :
    Good page (s.acceptSessionOpen authenticated uid) := by
  have hstate := state_of_opening ho
  unfold acceptSessionOpen
  dsimp only
  have hopened : Good page { s with
      transport :=
        if authenticated then
          { s.transport with
            state := .authenticated
            hasAuthenticatedSession := true
            handshake := none
            account := some uid
            openSubscriber := none }
        else
          { s.transport with state := .anonymous, handshake := none, openSubscriber := none } } := by
    refine good_wire hg hq ⟨rfl, rfl, rfl, ?_⟩ rfl rfl fun x hx _ => absurd hx hstate
    intro x hx
    dsimp only
    split
    · next hauth =>
      obtain ⟨token, rfl⟩ := Option.isSome_iff_exists.mp (ha.symm.trans hauth)
      have huid : uid = x := ofAccount_unique (hof token rfl) (hx.handshake hstate token hsent)
      refine ⟨hx.token, fun h => absurd rfl h, ?_, fun h => nomatch h⟩
      intro a ha
      exact (Option.some.inj ha).symm.trans huid
    · exact ⟨hx.token, (fun _ _ h => nomatch h), hx.account, hx.devCalls⟩
  split
  · exact good_settleRun_plain hopened trivial
  · exact hopened

theorem good_forget {s : SessionStore} (hg : Good page s) (hq : s.quiet = true) :
    Good page s.forget := by
  refine good_wire hg hq ⟨rfl, rfl, rfl, ?_⟩ rfl rfl fun _ h h' => ⟨h, h'⟩
  exact fun x hx => ⟨(fun _ h => nomatch h), hx.handshake, hx.account, hx.devCalls⟩

theorem good_invalidateSession {s : SessionStore} (hn : NoLater s) :
    Good page s.invalidateSession := by
  have h : Extends s (s.forget.stopCurrent .unauthorized false) :=
    (extends_stopCurrent s.forget .unauthorized false).after rfl rfl rfl
  exact good_invalidate (h.noLater hn)

theorem good_rejectSessionOpen {s : SessionStore} (hg : Good page s) (hn : NoLater s)
    (hq : s.quiet = true) (error : Failure) : Good page (s.rejectSessionOpen error) := by
  unfold rejectSessionOpen
  dsimp only
  split
  · split
    · exact good_invalidateSession hn
    · exact good_stopCurrent (good_forget hg hq) hq error false
  · exact good_stopCurrent hg hq error _

/-- Changing what the transport may retry changes no credential. -/
theorem good_stop {s : SessionStore} (hg : Good page s) (hq : s.quiet = true) (reconnect : Bool) :
    Good page (s.stop reconnect) := by
  unfold SessionStore.stop
  split
  · exact good_stopCurrent hg hq .other true
  · have hstopped : Good page
        { s with transport := { s.transport with retryAllowed := false } } := by
      refine good_wire hg hq ⟨rfl, rfl, rfl, ?_⟩ rfl rfl fun _ h h' => ⟨h, h'⟩
      exact fun x hx => ⟨hx.token, hx.handshake, hx.account, hx.devCalls⟩
    exact good_stopCurrent hstopped hq .other false

theorem good_reconnect {s : SessionStore} (hg : Good page s) (hq : s.quiet = true)
    (hs : s.transport.state = .reconnecting) : Good page s.reconnect := by
  have hstate : s.transport.state ≠ .authenticated := by simp [hs]
  unfold SessionStore.reconnect
  split
  · refine good_wire hg hq ⟨rfl, rfl, rfl, ?_⟩ rfl rfl fun _ h => absurd h hstate
    exact fun x hx => Wire.createSocket_of true none hx hstate
  · exact hg

theorem good_expire {s : SessionStore} (hg : Good page s) (hq : s.quiet = true) (e : Nat)
    (await : Await) : Good page (s.expire e await) := by
  unfold expire
  refine good_settleRun_plain ?_ trivial
  split
  · unfold cancelOpening
    split
    · have hcancelled : Good page
          { s with
            transport := { s.transport with openSubscriber := none, retryAllowed := false } } := by
        refine good_wire hg hq ⟨rfl, rfl, rfl, ?_⟩ rfl rfl fun _ h h' => ⟨h, h'⟩
        exact fun x hx => ⟨hx.token, hx.handshake, hx.account, hx.devCalls⟩
      exact good_stopCurrent hcancelled hq .other false
    · exact hg
  · exact hg

/-! What the events may do to the user. -/

theorem good_user {s : SessionStore} {user : Option User} (hg : Good page s)
    (h : user.map User.uid = s.user.map User.uid) : Good page { s with user := user } :=
  good_same hg ⟨rfl, h, rfl, fun _ h => h⟩ rfl rfl rfl

theorem updateProfile_cases (s : SessionStore) (data : Data) :
    s.updateProfile data = s ∨
      ∃ u p, s.user = some u ∧ findOwnProfile u.uid data = some p ∧
        s.updateProfile data = { s with user := some (u.withProfile p) } := by
  unfold updateProfile
  split
  · exact .inl rfl
  · next u hu =>
    split
    · exact .inl rfl
    · next p hp => exact .inr ⟨u, p, hu, hp, rfl⟩

theorem acceptChatSettings_cases (s : SessionStore) (settings : Bool) (uid : Option Int) :
    s.acceptChatSettings settings uid = s ∨
      ∃ u, s.user = some u ∧ uid = some u.uid ∧
        s.acceptChatSettings settings uid =
          { s with user := some { u with showMembershipMessages := settings } } := by
  unfold acceptChatSettings
  split
  · exact .inl rfl
  · next u hu =>
    split
    · exact .inl rfl
    · next hsame =>
      obtain ⟨huid, -⟩ := not_or.mp hsame
      exact .inr ⟨u, hu, (not_not.mp huid).symm, rfl⟩

/-- The settings of a response go to the user they were asked for. -/
def RequestKind.isFor (kind : RequestKind) (uid : Int) : Prop :=
  match kind with
  | .write asked _ => asked = uid
  | .read requestedUser => ∃ u, requestedUser = some u ∧ u.uid = uid

theorem acceptReply_cases (s : SessionStore) (kind : RequestKind) (settings : Bool) :
    s.acceptReply kind settings = s ∨
      ∃ u, s.user = some u ∧ kind.isFor u.uid ∧
        s.acceptReply kind settings =
          { s with user := some { u with showMembershipMessages := settings } } := by
  have hnever : s.acceptChatSettings settings none = s := by
    obtain h | ⟨u, -, hu, -⟩ := acceptChatSettings_cases s settings none
    · exact h
    · exact nomatch hu
  cases kind with
  | write uid write =>
    unfold acceptReply
    dsimp only
    split
    · exact .inl rfl
    · obtain h | ⟨u, hu, huid, h⟩ := acceptChatSettings_cases s settings (some uid)
      · exact .inl h
      · exact .inr ⟨u, hu, Option.some.inj huid, h⟩
  | read requestedUser =>
    unfold acceptReply requireChatSettings
    dsimp only
    cases requestedUser with
    | none => exact .inl hnever
    | some requested =>
      dsimp only
      split
      · exact .inl rfl
      · split
        · exact .inl rfl
        · obtain h | ⟨u, hu, huid, h⟩ := acceptChatSettings_cases s settings (some requested.uid)
          · exact .inl h
          · exact .inr ⟨u, hu, ⟨requested, rfl, Option.some.inj huid⟩, h⟩

theorem Request.Ok.account {q : Request} (h : q.Ok) {uid : Int} (hk : q.kind.isFor uid) :
    q.account = uid := by
  obtain ⟨kind, account, reply⟩ := q
  cases kind with
  | write asked write => exact Eq.trans h hk
  | read requestedUser =>
    obtain ⟨u, hu, huid⟩ := hk
    exact (h u hu).trans huid

theorem requests_writeSettings {s : SessionStore} (hi : Isolated page s) :
    ∀ q ∈ s.writeSettings.requests, q.Ok := by
  unfold writeSettings
  split
  · exact hi.requests
  · next u hu =>
    dsimp only
    split
    · next account ha =>
      split
      · intro q hq
        obtain hq | hq := List.mem_append.mp hq
        · exact hi.requests q hq
        · obtain rfl := List.mem_singleton.mp hq
          exact (hi.kept u hu).wire.account account ha
      · exact hi.requests
    · exact hi.requests

theorem requests_readSettings {s : SessionStore} (hi : Isolated page s) :
    ∀ q ∈ s.readSettings.requests, q.Ok := by
  unfold readSettings
  split
  · next account ha =>
    split
    · intro q hq
      obtain hq | hq := List.mem_append.mp hq
      · exact hi.requests q hq
      · obtain rfl := List.mem_singleton.mp hq
        exact fun u hu => (hi.kept u hu).wire.account account ha
    · exact hi.requests
  · exact hi.requests

theorem writeSettings_eq (s : SessionStore) :
    ∃ write requests,
      s.writeSettings = { s with chatSettingsWrite := write, requests := requests } := by
  unfold writeSettings
  split
  · exact ⟨_, _, rfl⟩
  · dsimp only
    split
    · split
      · exact ⟨_, _, rfl⟩
      · exact ⟨_, _, rfl⟩
    · exact ⟨_, _, rfl⟩

theorem readSettings_eq (s : SessionStore) :
    ∃ requests, s.readSettings = { s with requests := requests } := by
  unfold readSettings
  split
  · split
    · exact ⟨_, rfl⟩
    · exact ⟨_, rfl⟩
  · exact ⟨_, rfl⟩

theorem Isolated.good {s : SessionStore} (hi : Isolated page s) : Good page s :=
  ⟨hi.kept, hi.current⟩

/-- Another value of the same user. -/
theorem user_spec {s : SessionStore} {user : Option User} (hi : Isolated page s)
    (h : user.map User.uid = s.user.map User.uid) :
    Extends s { s with user := user } ∧ Good page { s with user := user } :=
  ⟨(Extends.refl s).before rfl rfl rfl, good_user hi.good h⟩

theorem requests_spec {s : SessionStore} {write : Nat} {requests : List Request}
    (hi : Isolated page s) (hr : ∀ q ∈ requests, q.Ok) :
    Extends s { s with chatSettingsWrite := write, requests := requests } ∧
      Good page { s with chatSettingsWrite := write, requests := requests } :=
  ⟨⟨le_rfl, fun _ _ h => h, fun q hq => .inr (hr q hq)⟩,
    good_same hi.good ⟨rfl, rfl, rfl, fun _ h => h⟩ rfl rfl rfl⟩

theorem when_eq_some {condition : Bool} {next t : SessionStore} :
    when condition next = some t ↔ condition = true ∧ next = t := by
  unfold when
  split
  · next h => simp [h]
  · next h => simp [h]

theorem extends_restoreToken (s : SessionStore) (urlToken stored : Option Token) :
    Extends s (s.restoreToken page urlToken stored) := by
  obtain hs | ⟨token, -, hs⟩ := restoreToken_cases page s urlToken stored
  · rw [hs]
    exact (Extends.refl s).before rfl rfl rfl
  · rw [hs]
    exact (Extends.refl s).before rfl rfl rfl

theorem devSessionCreated_spec {s t : SessionStore} {owner : Option Nat} {uid : Int}
    {token : Token} (hi : Isolated page s)
    (h : step page s (.devSessionCreated owner uid token) = some t) :
    Extends s t ∧ Good page t := by
  simp only [step] at h
  split at h
  · next hguard =>
    simp only [Bool.and_eq_true, Option.isNone_iff_eq_none, List.contains_iff_mem] at hguard
    obtain ⟨⟨⟨hq, hnone⟩, hcall⟩, hof⟩ := hguard
    have hg := hi.good
    have hcreated : Good page
        { s with
          transport :=
            { s.transport with
              state := .authenticated
              hasAuthenticatedSession := true
              account := some uid } } := by
      refine good_wire hg hq ⟨rfl, rfl, rfl, ?_⟩ rfl rfl ?_
      · intro x hx
        refine ⟨hx.token, fun hs => absurd rfl hs, ?_, fun h => nomatch h⟩
        intro a ha
        exact (Option.some.inj ha).symm.trans (hx.devCalls hnone uid hcall)
      · intro x _ hx
        exact nomatch hnone.symm.trans hx
    cases owner with
    | none =>
      obtain rfl := Option.some.inj h
      exact And.intro ((Extends.refl s).before rfl rfl rfl) hcreated
    | some e =>
      dsimp only at h
      split at h
      · next waited priorToken hwait =>
        obtain ⟨hwaited, rfl⟩ := when_eq_some.mp h
        obtain rfl : waited = uid := by simpa using hwaited
        have hrun := run_of_waiting hwait
        refine And.intro ((extends_settleRun _ e _).after rfl rfl rfl)
          (good_settleRun hcreated ?_)
        intro r hr he _
        obtain rfl : r = ⟨.devSession waited priorToken, none⟩ := by
          subst he
          exact Option.some.inj (hr.symm.trans hrun)
        obtain ⟨huser, hp, -⟩ := hcreated.2 _ hr
        refine ⟨huser, hp, ?_⟩
        intro k hk
        obtain rfl : token = k := by simpa using hk
        exact hof
      · exact nomatch h
  · exact nomatch h

/-- What one step keeps: the epochs go up and everything stays on one account. -/
theorem step_spec {s t : SessionStore} {ev : Event} (hi : Isolated page s)
    (h : step page s ev = some t) : Extends s t ∧ Good page t := by
  have hg := hi.good
  cases ev with
  | start =>
    obtain rfl := Option.some.inj h
    exact And.intro (extends_initializeSession s)
      (good_initializeSession hi.noLater hi.kept.linked (.inl hi.kept))
  | restore urlToken stored =>
    obtain ⟨hr, rfl⟩ := when_eq_some.mp h
    exact And.intro
      ((extends_restoreToken s urlToken stored).compose (extends_initializeSession _))
      (good_restore hi hr)
  | logout =>
    obtain rfl := Option.some.inj h
    exact And.intro (extends_logout s) (good_logout hi.noLater)
  | switchDevUid uid =>
    obtain rfl := Option.some.inj h
    exact And.intro ((extends_logout _).after rfl rfl rfl) (good_logout hi.noLater)
  | resume e =>
    simp only [step] at h
    split at h
    · next await reply hrun =>
      obtain rfl := Option.some.inj h
      have he : e ≤ s.initializationEpoch := by
        by_contra hlt
        exact nomatch hrun.symm.trans (hi.noLater e (Nat.lt_of_not_le hlt))
      exact And.intro (extends_resumeWith s he await reply)
        (good_resumeWith hg hi.noLater hrun)
    · exact nomatch h
  | socketOpened =>
    obtain ⟨hguard, rfl⟩ := when_eq_some.mp h
    simp only [Bool.and_eq_true] at hguard
    obtain ⟨⟨⟨hq, ho⟩, -⟩, -⟩ := hguard
    refine And.intro ((Extends.refl s).before rfl rfl rfl)
      (good_wire hg hq ⟨rfl, rfl, rfl, ?_⟩ rfl rfl fun _ h h' => ⟨h, h'⟩)
    refine fun x hx => ⟨hx.token, fun _ k hk => hx.token k ?_, hx.account, hx.devCalls⟩
    exact Option.some.inj hk
  | sessionOpened authenticated uid =>
    simp only [step] at h
    split at h
    · next sent hsent =>
      obtain ⟨hguard, rfl⟩ := when_eq_some.mp h
      simp only [Bool.and_eq_true, beq_iff_eq, Option.all_eq_true] at hguard
      obtain ⟨⟨⟨hq, ho⟩, ha⟩, hof⟩ := hguard
      exact And.intro (extends_acceptSessionOpen s _ _)
        (good_acceptSessionOpen hg hq ho hsent ha hof)
    · exact nomatch h
  | sessionRejected error =>
    obtain ⟨hguard, rfl⟩ := when_eq_some.mp h
    exact And.intro (extends_rejectSessionOpen s error)
      (good_rejectSessionOpen hg hi.noLater (Bool.and_eq_true_iff.mp hguard).1 error)
  | socketClosing =>
    obtain ⟨hguard, rfl⟩ := when_eq_some.mp h
    refine And.intro ((Extends.refl s).before rfl rfl rfl)
      (good_wire hg (Bool.and_eq_true_iff.mp hguard).1 ⟨rfl, rfl, rfl, ?_⟩ rfl rfl
        fun _ h h' => ⟨h, h'⟩)
    exact fun x hx => ⟨hx.token, hx.handshake, hx.account, hx.devCalls⟩
  | socketStopped reconnect =>
    obtain ⟨hguard, rfl⟩ := when_eq_some.mp h
    exact And.intro (extends_stop s reconnect)
      (good_stop hg (Bool.and_eq_true_iff.mp hguard).1 reconnect)
  | reconnectDue =>
    obtain ⟨hguard, rfl⟩ := when_eq_some.mp h
    simp only [Bool.and_eq_true, decide_eq_true_eq] at hguard
    obtain ⟨⟨hq, hs⟩, -⟩ := hguard
    exact And.intro (extends_reconnect s) (good_reconnect hg hq hs)
  | sessionInvalidated =>
    obtain ⟨-, rfl⟩ := when_eq_some.mp h
    exact And.intro (extends_invalidateSession s)
      (good_invalidateSession hi.noLater)
  | devSessionCreated owner uid token => exact devSessionCreated_spec hi h
  | refreshed e token =>
    simp only [step] at h
    split at h
    · next account hwait ha =>
      obtain ⟨hguard, rfl⟩ := when_eq_some.mp h
      simp only [Bool.and_eq_true, decide_eq_true_eq] at hguard
      obtain ⟨⟨-, hstate⟩, hof⟩ := hguard
      refine And.intro (extends_settleRun s e _) (good_settleRun hg ?_)
      intro r hr he _
      obtain rfl : r = ⟨.refresh, none⟩ :=
        Option.some.inj (hr.symm.trans (he ▸ run_of_waiting hwait))
      intro k hk
      obtain rfl : token = k := by simpa using hk
      exact ⟨hstate, account, ha, hof⟩
    · exact nomatch h
  | meRead e user =>
    simp only [step] at h
    split at h
    · next account hwait ha =>
      obtain ⟨hguard, rfl⟩ := when_eq_some.mp h
      simp only [Bool.and_eq_true, beq_iff_eq] at hguard
      obtain ⟨-, huid⟩ := hguard
      refine And.intro (extends_settleRun s e _) (good_settleRun hg ?_)
      intro r hr he _
      obtain rfl : r = ⟨.me, none⟩ :=
        Option.some.inj (hr.symm.trans (he ▸ run_of_waiting hwait))
      obtain ⟨x, hx, hlive, -⟩ := hg.2 _ hr
      refine ⟨x, hx, (fun h => nomatch h), ?_⟩
      intro m hm
      obtain rfl : user = m := by simpa using hm
      exact huid.trans (Option.some.inj (ha.symm.trans (hlive rfl).2))
    · exact nomatch h
  | searched e members =>
    simp only [step] at h
    split at h
    · obtain ⟨-, rfl⟩ := when_eq_some.mp h
      exact And.intro (extends_settleRun s e _) (good_settleRun_plain hg trivial)
    · exact nomatch h
  | callFailed e error =>
    simp only [step] at h
    split at h
    · obtain ⟨-, rfl⟩ := when_eq_some.mp h
      exact And.intro (extends_settleRun s e _) (good_settleRun_plain hg trivial)
    · exact nomatch h
  | deadline e =>
    simp only [step] at h
    split at h
    · next await _ =>
      obtain ⟨hq, rfl⟩ := when_eq_some.mp h
      exact And.intro (extends_expire s e await) (good_expire hg hq e await)
    · exact nomatch h
  | updated data =>
    obtain rfl := Option.some.inj h
    obtain hs | ⟨u, p, hu, -, hs⟩ := updateProfile_cases s data
    · rw [hs]
      exact ⟨Extends.refl s, hg⟩
    · rw [hs]
      exact user_spec hi (by rw [hu]; rfl)
  | orderUpdated order =>
    obtain ⟨-, rfl⟩ := when_eq_some.mp h
    refine user_spec hi ?_
    rw [Option.map_map]
    rfl
  | writeSettings =>
    obtain rfl := Option.some.inj h
    have hr := requests_writeSettings hi
    obtain ⟨write, requests, hs⟩ := writeSettings_eq s
    rw [hs] at hr ⊢
    exact requests_spec hi hr
  | readSettings =>
    obtain rfl := Option.some.inj h
    have hr := requests_readSettings hi
    obtain ⟨requests, hs⟩ := readSettings_eq s
    rw [hs] at hr ⊢
    exact requests_spec hi hr
  | responded i settings =>
    simp only [step] at h
    split at h
    · next kind account hget =>
      obtain rfl := Option.some.inj h
      refine requests_spec hi ?_
      intro q hq
      obtain hq | rfl := List.mem_or_eq_of_mem_set hq
      · exact hi.requests q hq
      · exact hi.requests ⟨kind, account, none⟩ (List.mem_of_getElem? hget)
    · exact nomatch h
  | accepted i =>
    simp only [step] at h
    split at h
    · next kind account settings hget =>
      obtain rfl := Option.some.inj h
      have herased : Extends s { s with requests := s.requests.eraseIdx i } ∧
          Good page { s with requests := s.requests.eraseIdx i } :=
        requests_spec hi fun q hq => hi.requests q (List.mem_of_mem_eraseIdx hq)
      obtain hs | ⟨u, hu, -, hs⟩ :=
        acceptReply_cases { s with requests := s.requests.eraseIdx i } kind settings
      · rw [hs]
        exact herased
      · rw [hs]
        exact ⟨herased.1.before rfl rfl rfl, good_user herased.2 (by rw [hu]; rfl)⟩
    · exact nomatch h

theorem isolated_step {s t : SessionStore} {ev : Event} (hi : Isolated page s)
    (h : step page s ev = some t) : Isolated page t := by
  obtain ⟨he, hg⟩ := step_spec hi h
  exact ⟨hg.1, hg.2, he.noLater hi.noLater,
    fun q hq => (he.requests q hq).elim (hi.requests q) id⟩

theorem isolated_run {s : SessionStore} {es : List Event}
    (h : run (step page) SessionStore.initial es = some s) : Isolated page s :=
  run_invariant (fun _ _ _ hi ht => isolated_step hi ht) isolated_initial h

end Chahua.Session

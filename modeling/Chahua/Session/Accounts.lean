import Chahua.Session.Steps

namespace Chahua.Session

open Transport (RpcConnectionState)
open SessionStore

variable {page : Page}

theorem Page.ofAccount_iff {token : Token} {uid : Int} :
    page.ofAccount token uid = true ↔ ∃ i, page.tokenIdentity token = some i ∧ i.uid = uid := by
  simp [Page.ofAccount]

/-- Everything the wire is or may become authenticated with is of the account. -/
structure Wire.Of (page : Page) (w : Wire) (uid : Int) : Prop where
  token : ∀ k, w.reconnectToken = some k → page.ofAccount k uid = true
  handshake : w.state ≠ .authenticated →
    ∀ k, w.handshake = some (some k) → page.ofAccount k uid = true
  account : ∀ a, w.account = some a → a = uid
  devCalls : w.account = none → ∀ d ∈ w.devCalls, d = uid

@[simp] theorem Wire.scheduleReconnect_reconnectToken (w : Wire) :
    w.scheduleReconnect.reconnectToken = w.reconnectToken := by
  unfold Wire.scheduleReconnect
  split <;> rfl

@[simp] theorem Wire.scheduleReconnect_handshake (w : Wire) :
    w.scheduleReconnect.handshake = w.handshake := by
  unfold Wire.scheduleReconnect
  split <;> rfl

@[simp] theorem Wire.scheduleReconnect_account (w : Wire) :
    w.scheduleReconnect.account = w.account := by
  unfold Wire.scheduleReconnect
  split <;> rfl

@[simp] theorem Wire.scheduleReconnect_devCalls (w : Wire) :
    w.scheduleReconnect.devCalls = w.devCalls := by
  unfold Wire.scheduleReconnect
  split <;> rfl

/-- After a stop only the reconnect token is left. -/
theorem Wire.stopCurrent_of {w : Wire} {uid : Int} (reconnect : Bool)
    (h : ∀ k, w.reconnectToken = some k → page.ofAccount k uid = true) :
    (w.stopCurrent reconnect).Of page uid := by
  unfold Wire.stopCurrent
  split
  · exact ⟨by simpa using h, by simp, by simp, by simp⟩
  · exact ⟨h, by simp, by simp, by simp⟩

theorem Wire.createSocket_of {w : Wire} {uid : Int} (reconnect : Bool) (subscriber : Option Nat)
    (h : w.Of page uid) (hs : w.state ≠ .authenticated) :
    (w.createSocket reconnect subscriber).Of page uid :=
  ⟨h.token, fun _ => h.handshake hs, h.account, h.devCalls⟩

@[simp] theorem Wire.stopCurrent_state_false (w : Wire) :
    (w.stopCurrent false).state = .closed := rfl

/-- The store and its transport are on one account. -/
structure SignedIn (page : Page) (s : SessionStore) (uid : Int) : Prop where
  token : ∃ k, s.token = some k ∧ page.ofAccount k uid = true
  bound : ∃ b, s.boundIdentity = some b ∧ b.uid = uid
  wire : s.transport.Of page uid

def UserIs (s : SessionStore) (uid : Int) : Prop := ∀ u, s.user = some u → u.uid = uid

/-- The user is the one of the token, of the bound identity and of the transport. -/
def Kept (page : Page) (s : SessionStore) : Prop :=
  ∀ u, s.user = some u → SignedIn page s u.uid

/-- What the current initialization may rely on where it waits. -/
def RunOk (page : Page) (s : SessionStore) (r : Run) : Prop :=
  match r.await with
  | .devOpen uid priorToken => UserIs s uid ∧ priorToken = s.token.filter Token.truthy
  | .devSession uid priorToken =>
    UserIs s uid ∧ priorToken = s.token.filter Token.truthy ∧
      ∀ k, r.reply = some (.issued k) → page.ofAccount k uid = true
  | .tokenOpen token => ∀ u, s.user = some u → page.ofAccount token u.uid = true
  | .bound => True
  | .refresh =>
    ∀ k, r.reply = some (.issued k) →
      s.transport.state = .authenticated ∧
        ∃ a, s.transport.account = some a ∧ page.ofAccount k a = true
  | .me =>
    ∃ x, SignedIn page s x ∧
      (r.reply = none → s.transport.state = .authenticated ∧ s.transport.account = some x) ∧
      ∀ m, r.reply = some (.me m) → m.uid = x
  | .profile m => SignedIn page s m.uid

def Current (page : Page) (s : SessionStore) : Prop :=
  ∀ r, s.runs s.initializationEpoch = some r → RunOk page s r

def NoLater (s : SessionStore) : Prop := ∀ e, s.initializationEpoch < e → s.runs e = none

/-- A request that may still change settings is for the account of its socket. -/
def Request.Ok (q : Request) : Prop :=
  match q.kind with
  | .write uid _ => q.account = uid
  | .read requestedUser => ∀ u, requestedUser = some u → q.account = u.uid

structure Isolated (page : Page) (s : SessionStore) : Prop where
  kept : Kept page s
  current : Current page s
  noLater : NoLater s
  requests : ∀ q ∈ s.requests, q.Ok

theorem isolated_initial : Isolated page SessionStore.initial where
  kept := fun _ h => nomatch h
  current := fun _ h => nomatch h
  noLater := fun _ _ => rfl
  requests := fun _ h => nomatch h

theorem kept_of_none {s : SessionStore} (h : s.user = none) : Kept page s := by
  intro u hu
  rw [h] at hu
  exact nomatch hu

/-- The state is on the same accounts as before and the wire has no other credentials. -/
structure Frames (page : Page) (s t : SessionStore) : Prop where
  token : t.token = s.token
  user : t.user.map User.uid = s.user.map User.uid
  bound : t.boundIdentity = s.boundIdentity
  wire : ∀ uid, s.transport.Of page uid → t.transport.Of page uid

theorem Frames.uid {s t : SessionStore} (h : Frames page s t) {u : User}
    (hu : t.user = some u) : ∃ v, s.user = some v ∧ v.uid = u.uid := by
  have hm := h.user
  rw [hu, Option.map_some] at hm
  exact Option.map_eq_some_iff.mp hm.symm

theorem Frames.signedIn {s t : SessionStore} (h : Frames page s t) {uid : Int}
    (hs : SignedIn page s uid) : SignedIn page t uid :=
  ⟨h.token ▸ hs.token, h.bound ▸ hs.bound, h.wire uid hs.wire⟩

theorem Frames.userIs {s t : SessionStore} (h : Frames page s t) {uid : Int}
    (hs : UserIs s uid) : UserIs t uid := by
  intro u hu
  obtain ⟨v, hv, hvu⟩ := h.uid hu
  rw [← hvu]
  exact hs v hv

theorem Frames.kept {s t : SessionStore} (h : Frames page s t) (hs : Kept page s) :
    Kept page t := by
  intro u hu
  obtain ⟨v, hv, hvu⟩ := h.uid hu
  rw [← hvu]
  exact h.signedIn (hs v hv)

theorem Frames.compose {s t u : SessionStore} (h : Frames page s t) (h' : Frames page t u) :
    Frames page s u where
  token := h'.token.trans h.token
  user := h'.user.trans h.user
  bound := h'.bound.trans h.bound
  wire := fun uid hs => h'.wire uid (h.wire uid hs)

/-- A reply that carries neither a token nor a user. -/
def Reply.plain : Reply → Prop
  | .issued _ | .me _ => False
  | _ => True

theorem Frames.runOk_settled {s t : SessionStore} (h : Frames page s t) {r : Run}
    (hr : RunOk page s r) {reply : Reply} (hp : reply.plain) :
    RunOk page t ⟨r.await, some reply⟩ := by
  have hissued : ∀ k, some reply ≠ some (.issued k) := by
    intro k hk
    rw [Option.some.inj hk] at hp
    exact hp
  have hme : ∀ m, some reply ≠ some (.me m) := by
    intro m hm
    rw [Option.some.inj hm] at hp
    exact hp
  obtain ⟨await, old⟩ := r
  cases await with
  | devOpen uid priorToken => exact ⟨h.userIs hr.1, h.token ▸ hr.2⟩
  | devSession uid priorToken =>
    exact ⟨h.userIs hr.1, h.token ▸ hr.2.1, fun k hk => absurd hk (hissued k)⟩
  | tokenOpen token =>
    intro u hu
    obtain ⟨v, hv, hvu⟩ := h.uid hu
    rw [← hvu]
    exact hr v hv
  | bound => trivial
  | refresh => exact fun k hk => absurd hk (hissued k)
  | me =>
    obtain ⟨x, hx, -, -⟩ := hr
    exact ⟨x, h.signedIn hx, (fun hn => nomatch hn), fun m hm => absurd hm (hme m)⟩
  | profile m => exact h.signedIn hr

/-- A run that goes on waiting: one that waits for the user does so on the authenticated socket. -/
theorem Frames.runOk_waiting {s t : SessionStore} (h : Frames page s t) {r : Run}
    (hr : RunOk page s r) (hn : r.reply = none)
    (hw : ∀ x, s.transport.state = .authenticated → s.transport.account = some x →
      t.transport.state = .authenticated ∧ t.transport.account = some x) :
    RunOk page t r := by
  obtain ⟨await, old⟩ := r
  obtain rfl : old = none := hn
  cases await with
  | devOpen uid priorToken => exact ⟨h.userIs hr.1, h.token ▸ hr.2⟩
  | devSession uid priorToken =>
    exact ⟨h.userIs hr.1, h.token ▸ hr.2.1, fun k hk => nomatch hk⟩
  | tokenOpen token =>
    intro u hu
    obtain ⟨v, hv, hvu⟩ := h.uid hu
    rw [← hvu]
    exact hr v hv
  | bound => trivial
  | refresh => exact fun k hk => nomatch hk
  | me =>
    obtain ⟨x, hx, hlive, -⟩ := hr
    obtain ⟨hstate, haccount⟩ := hlive rfl
    exact ⟨x, h.signedIn hx, fun _ => hw x hstate haccount, fun m hm => nomatch hm⟩
  | profile m => exact h.signedIn hr

/-- A run of a state that differs in the data of the user at most. -/
theorem Frames.runOk_same {s t : SessionStore} (h : Frames page s t)
    (ht : t.transport = s.transport) {r : Run} (hr : RunOk page s r) : RunOk page t r := by
  obtain ⟨await, reply⟩ := r
  cases await with
  | devOpen uid priorToken => exact ⟨h.userIs hr.1, h.token ▸ hr.2⟩
  | devSession uid priorToken => exact ⟨h.userIs hr.1, h.token ▸ hr.2.1, hr.2.2⟩
  | tokenOpen token =>
    intro u hu
    obtain ⟨v, hv, hvu⟩ := h.uid hu
    rw [← hvu]
    exact hr v hv
  | bound => trivial
  | refresh =>
    simp only [RunOk] at hr ⊢
    rwa [ht]
  | me =>
    obtain ⟨x, hx, hlive, hme⟩ := hr
    exact ⟨x, h.signedIn hx, ht ▸ hlive, hme⟩
  | profile m => exact h.signedIn hr

end Chahua.Session

import Chahua.Session.Profiles
import Chahua.Transport.RpcTransport

namespace Chahua.Session

open Transport (RpcConnectionState)

/-- What a call or an opening fails with. -/
inductive Failure where
  | unauthorized | other
  deriving DecidableEq, Repr

/-- What a promise the store awaits settles with. -/
inductive Reply where
  | opened (authenticated : Bool) (uid : Int)
  | issued (token : Token)
  | me (user : User)
  | members (members : List (Int × Option Data))
  | done
  | failed (error : Failure)

/-- Where an `initialize` stands, with the locals its continuation reads. `bound` is the wait for
the promise of `bindToken`, `tokenOpen` the one inside it. -/
inductive Await where
  | devOpen (uid : Int) (priorToken : Option Token)
  | devSession (uid : Int) (priorToken : Option Token)
  | tokenOpen (token : Token)
  | bound
  | refresh
  | me
  | profile (user : User)

structure Run where
  await : Await
  reply : Option Reply

/-- What still waits for its promise has the reply. -/
def Run.settled (reply : Reply) (run : Run) : Run :=
  if run.reply.isNone then { run with reply := some reply } else run

/-- The part of the transport the store acts on, with the account the server has bound to the
socket. `ready` is `readyState === 1`, `handshake` what `session.open` was sent with while its
response is due, `devCalls` the uids of the `createDevSession` calls sent on the socket. The
reconnect timer is armed while the state is `reconnecting` and there is no socket. -/
structure Wire where
  state : RpcConnectionState
  socket : Bool
  ready : Bool
  reconnect : Option Bool
  reconnectToken : Option Token
  retryAllowed : Bool
  hasAuthenticatedSession : Bool
  openSubscriber : Option Nat
  handshake : Option (Option Token)
  account : Option Int
  devCalls : List Int

inductive RequestKind where
  | write (uid : Int) (write : Nat)
  | read (requestedUser : Option User)

/-- A call whose response carries chat settings, with the account of the socket it was sent on. -/
structure Request where
  kind : RequestKind
  account : Int
  reply : Option Bool

/-- The fields of the store, the initializations by their epoch, the calls with settings and the
uid kept in the session storage. -/
structure SessionStore where
  token : Option Token
  user : Option User
  expired : Bool
  urlTokenAdopted : Bool
  chatSettingsWrite : Nat
  initializationEpoch : Nat
  boundIdentity : Option Identity
  devUid : Option Rat
  transport : Wire
  runs : Nat → Option Run
  requests : List Request

/-- What a page is built and loaded with: `development` is
`isDevMode() && devBackendEnabled() && !developmentToken()`. -/
structure Page where
  decodePayload : String → Option Data
  development : Bool

def Page.tokenIdentity (page : Page) (token : Token) : Option Identity :=
  Session.tokenIdentity page.decodePayload token

def closedWire : Wire :=
  { state := .closed
    socket := false
    ready := false
    reconnect := none
    reconnectToken := none
    retryAllowed := false
    hasAuthenticatedSession := false
    openSubscriber := none
    handshake := none
    account := none
    devCalls := [] }

def SessionStore.initial : SessionStore :=
  { token := none
    user := none
    expired := false
    urlTokenAdopted := false
    chatSettingsWrite := 0
    initializationEpoch := 0
    boundIdentity := none
    devUid := none
    transport := closedWire
    runs := fun _ => none
    requests := [] }

namespace Wire

def canCall (w : Wire) (devSession : Bool) : Bool :=
  w.ready &&
    (decide (w.state = .authenticated) || (decide (w.state = .anonymous) && devSession))

def scheduleReconnect (w : Wire) : Wire :=
  if !w.hasAuthenticatedSession || !w.retryAllowed ||
      !(w.reconnectToken.any Token.truthy) || w.reconnect.isNone then
    { w with state := .closed }
  else { w with state := .reconnecting }

def stopCurrent (w : Wire) (reconnect : Bool) : Wire :=
  let stopped :=
    { w with
      socket := false
      ready := false
      openSubscriber := none
      handshake := none
      account := none
      devCalls := [] }
  if reconnect then stopped.scheduleReconnect
  else { stopped with reconnect := none, state := .closed }

def createSocket (w : Wire) (reconnect : Bool) (subscriber : Option Nat) : Wire :=
  { w with
    state := if reconnect then .reconnecting else .connecting
    socket := true
    ready := false
    reconnect := some reconnect
    openSubscriber := subscriber }

end Wire

namespace SessionStore

def setRun (s : SessionStore) (e : Nat) (run : Option Run) : SessionStore :=
  { s with runs := Function.update s.runs e run }

/-- Stopping the socket rejects the opening and every call under way. -/
def stopCurrent (s : SessionStore) (error : Failure) (reconnect : Bool) : SessionStore :=
  { s with
    transport := s.transport.stopCurrent reconnect
    runs := fun e => (s.runs e).map (Run.settled (.failed error))
    requests := s.requests.filter fun request => request.reply.isSome }

def close (s : SessionStore) : SessionStore :=
  stopCurrent
    { s with
      transport :=
        { s.transport with
          retryAllowed := false
          reconnectToken := none
          hasAuthenticatedSession := false } }
    .other false

/-- `transport.open`, awaited by the run as `await`. -/
def beginOpen (s : SessionStore) (token : Option Token) (e : Nat) (await : Await) :
    SessionStore :=
  let stopped := s.stopCurrent .other false
  { stopped with
    transport :=
      { stopped.transport with
        reconnectToken := token
        retryAllowed := true
        hasAuthenticatedSession := false }.createSocket false (some e)
    runs := Function.update stopped.runs e (some ⟨await, none⟩) }

def cancelOpening (s : SessionStore) (e : Nat) : SessionStore :=
  if s.transport.openSubscriber = some e then
    stopCurrent
      { s with
        transport := { s.transport with openSubscriber := none, retryAllowed := false } }
      .other false
  else s

def setReconnectToken (s : SessionStore) (token : Token) : SessionStore :=
  { s with transport := { s.transport with reconnectToken := some token } }

/-- A call of the run: where the transport admits none, the promise is rejected at once. -/
def startCall (s : SessionStore) (e : Nat) (await : Await) (devSession : Bool) : SessionStore :=
  if s.transport.canCall devSession then s.setRun e (some ⟨await, none⟩)
  else s.setRun e (some ⟨await, some (.failed .other)⟩)

def createDevSession (s : SessionStore) (e : Nat) (uid : Int) (priorToken : Option Token) :
    SessionStore :=
  let called := s.startCall e (.devSession uid priorToken) true
  if s.transport.canCall true then
    { called with
      transport := { called.transport with devCalls := uid :: called.transport.devCalls } }
  else called

def saveToken (s : SessionStore) (token : Option Token) : SessionStore :=
  { s with
    token := token
    expired := if token.any Token.truthy then false else s.expired }

def clearAccountState (s : SessionStore) : SessionStore :=
  { close { s with chatSettingsWrite := s.chatSettingsWrite + 1, boundIdentity := none } with
    user := none }

def logout (s : SessionStore) : SessionStore :=
  (clearAccountState
    { s with expired := false, initializationEpoch := s.initializationEpoch + 1 }).saveToken none

def invalidate (s : SessionStore) : SessionStore :=
  { s.logout with expired := true }

/-- `Number` of an absent entry is zero, and of a text that is no number NaN, here `none`. -/
def developmentUid (s : SessionStore) : Int :=
  match s.devUid with
  | some uid => if uid.den = 1 ∧ 0 < uid then uid.num else 1
  | none => 1

def switchDevUid (s : SessionStore) (uid : Option Rat) : SessionStore :=
  logout { s with devUid := uid }

/-- The end of the run with an error: `catch` invalidates on `Unauthorized`. -/
def failWith (s : SessionStore) (e : Nat) (error : Failure) : SessionStore :=
  let ended := s.setRun e none
  if e = s.initializationEpoch ∧ error = .unauthorized then ended.invalidate else ended

def prepareDevConnection (s : SessionStore) (uid : Int) : SessionStore :=
  if s.user.any fun user => user.uid ≠ uid then s.clearAccountState else s.close

/-- The bound identity is the one of the token, on an authenticated socket. -/
def reuses (s : SessionStore) (identity : Option Identity) : Bool :=
  decide (s.transport.state = .authenticated) &&
    match s.boundIdentity, identity with
    | some bound, some identity => bound.uid == identity.uid && bound.gen == identity.gen
    | _, _ => false

/-- `currentUser && (!identity || currentUser.uid !== identity.uid)`. -/
def foreignUser (s : SessionStore) (identity : Option Identity) : Bool :=
  s.user.any fun user => identity.all fun identity => user.uid ≠ identity.uid

def bindToken (page : Page) (s : SessionStore) (e : Nat) (token : Token) : SessionStore :=
  if e ≠ s.initializationEpoch then s.setRun e (some ⟨.bound, some .done⟩)
  else
    let identity := page.tokenIdentity token
    if s.reuses identity then
      (s.setReconnectToken token).setRun e (some ⟨.bound, some .done⟩)
    else
      let prepared := if s.foreignUser identity then s.clearAccountState else s.close
      prepared.beginOpen (some token) e (.tokenOpen token)

/-- What follows the two branches of `initialize`. -/
def refreshSession (s : SessionStore) (e : Nat) : SessionStore :=
  if s.token.any Token.truthy then s.startCall e .refresh false else s.setRun e none

def initializeSession (page : Page) (s : SessionStore) : SessionStore :=
  let e := s.initializationEpoch + 1
  let begun := { s with initializationEpoch := e }
  let priorToken := s.token.filter Token.truthy
  if page.development && !s.urlTokenAdopted then
    let uid := s.developmentUid
    if decide (s.transport.state = .authenticated) && s.user.any fun user => user.uid == uid then
      begun.refreshSession e
    else (begun.prepareDevConnection uid).beginOpen none e (.devOpen uid priorToken)
  else
    match priorToken with
    | some token => begun.bindToken page e token
    | none => begun

/-- The inner `catch` of the development branch. -/
def devFailed (page : Page) (s : SessionStore) (e : Nat) (priorToken : Option Token)
    (error : Failure) : SessionStore :=
  match priorToken with
  | none => s.failWith e error
  | some token => s.close.bindToken page e token

/-- The member of the search that is the user, if any, gives the group. -/
def groupOf (uid : Int) (members : List (Int × Option Data)) : Option Data :=
  (members.find? fun member => member.1 == uid).bind Prod.snd

/-- What the continuation of a run does with the reply it waited for. -/
def resumeWith (page : Page) (s : SessionStore) (e : Nat) : Await → Reply → SessionStore
  | .tokenOpen token, .opened authenticated uid =>
    let bound :=
      if e = s.initializationEpoch && authenticated then
        { s with boundIdentity := some ((page.tokenIdentity token).getD ⟨uid, 0⟩) }
      else s
    bound.setRun e (some ⟨.bound, some .done⟩)
  | .tokenOpen _, reply => s.setRun e (some ⟨.bound, some reply⟩)
  | await, reply =>
    if e ≠ s.initializationEpoch then s.setRun e none
    else
      match await, reply with
      | .devOpen uid priorToken, .opened _ _ => s.createDevSession e uid priorToken
      | .devSession uid _, .issued token =>
        refreshSession
          { (s.saveToken (some token)).setReconnectToken token with
            boundIdentity := some ((page.tokenIdentity token).getD ⟨uid, 0⟩) } e
      | .devOpen _ priorToken, .failed error | .devSession _ priorToken, .failed error =>
        s.devFailed page e priorToken error
      | .bound, .done => s.refreshSession e
      | .refresh, .issued token =>
        startCall
          { (s.saveToken (some token)).setReconnectToken token with
            boundIdentity := (page.tokenIdentity token).or s.boundIdentity } e .me false
      | .me, .me user => s.startCall e (.profile user) false
      | .profile user, .members members =>
        { s with user := some { user with userGroup := groupOf user.uid members } }.setRun e none
      | .profile user, .failed _ =>
        { s with
          user :=
            some
              { user with
                userGroup :=
                  (s.user.filter fun current : User => current.uid == user.uid).bind
                    User.userGroup } }.setRun e none
      | _, .failed error => s.failWith e error
      | _, _ => s

/-- The same session: both tokens have an identity and it is one. -/
def sameSession (page : Page) (first : Token) (second : Option Token) : Bool :=
  match page.tokenIdentity first, second.bind page.tokenIdentity with
  | some first, some second => first.uid == second.uid && first.gen == second.gen
  | _, _ => false

/-- `restoreToken` with the token of the address and the stored one. -/
def restoreToken (page : Page) (s : SessionStore) (urlToken stored : Option Token) :
    SessionStore :=
  let token :=
    if urlToken.any fun url => url.truthy && sameSession page url stored then stored
    else urlToken.or stored
  let adopted :=
    { s with urlTokenAdopted := s.urlTokenAdopted || urlToken.any Token.truthy }
  if token.any Token.truthy then adopted.saveToken token else adopted

/-- `updateProfile` of a result or an event. -/
def updateProfile (s : SessionStore) (data : Data) : SessionStore :=
  match s.user with
  | none => s
  | some current =>
    match findOwnProfile current.uid data with
    | none => s
    | some profile => { s with user := some (current.withProfile profile) }

def replaceStickerPackOrder (s : SessionStore) (order : List StickerPackOrderItem) :
    SessionStore :=
  { s with user := s.user.map fun current => { current with stickerPackOrder := mergedOrder order } }

def acceptChatSettings (s : SessionStore) (settings : Bool) (uid : Option Int) : SessionStore :=
  match s.user with
  | none => s
  | some user =>
    if some user.uid ≠ uid ∨ settings = user.showMembershipMessages then s
    else { s with user := some { user with showMembershipMessages := settings } }

/-- `requireChatSettings` up to what it throws: after the response was accepted nothing changes. -/
def requireChatSettings (s : SessionStore) (settings : Bool) (requestedUser : Option User) :
    SessionStore :=
  match requestedUser with
  | none => s.acceptChatSettings settings none
  | some requested =>
    if s.user.map User.uid ≠ some requested.uid then s
    else if s.user.map User.showMembershipMessages ≠ some requested.showMembershipMessages then s
    else s.acceptChatSettings settings (some requested.uid)

/-- What the response of a request does with the settings it carries. -/
def acceptReply (s : SessionStore) (kind : RequestKind) (settings : Bool) : SessionStore :=
  match kind with
  | .write uid write =>
    if write ≠ s.chatSettingsWrite ∨ s.user.map User.uid ≠ some uid then s
    else s.acceptChatSettings settings (some uid)
  | .read requestedUser => s.requireChatSettings settings requestedUser

end SessionStore

end Chahua.Session

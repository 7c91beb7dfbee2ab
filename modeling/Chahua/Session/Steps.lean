import Chahua.Session.SessionStore
import Chahua.Framework.Run

namespace Chahua.Session

open Transport (RpcConnectionState)

/-- What happens next. `resume` is the continuation of an initialization whose promise has
settled; the events from `socketOpened` to `deadline` come from the socket, the server and the
timers. `devSessionCreated` names the initialization that still waits for the call, if any.
`updated` is a result or an event, `orderUpdated` an event with the order or a read of it. -/
inductive Event where
  | start
  | restore (urlToken stored : Option Token)
  | logout
  | switchDevUid (uid : Option Rat)
  | resume (e : Nat)
  | socketOpened
  | sessionOpened (authenticated : Bool) (uid : Int)
  | sessionRejected (error : Failure)
  | socketClosing
  | socketStopped (reconnect : Bool)
  | reconnectDue
  | sessionInvalidated
  | devSessionCreated (owner : Option Nat) (uid : Int) (token : Token)
  | refreshed (e : Nat) (token : Token)
  | meRead (e : Nat) (user : User)
  | searched (e : Nat) (members : List (Int × Option Data))
  | callFailed (e : Nat) (error : Failure)
  | deadline (e : Nat)
  | updated (data : Data)
  | orderUpdated (order : List StickerPackOrderItem)
  | writeSettings
  | readSettings
  | responded (i : Nat) (settings : Bool)
  | accepted (i : Nat)

def Await.isOpening : Await → Bool
  | .devOpen _ _ | .tokenOpen _ => true
  | _ => false

/-- The token is one of the account. -/
def Page.ofAccount (page : Page) (token : Token) (uid : Int) : Bool :=
  decide ((page.tokenIdentity token).map Identity.uid = some uid)

def Page.decodable (page : Page) (token : Token) : Bool := (page.tokenIdentity token).isSome

namespace SessionStore

/-- No continuation of an initialization is due: these run before the next event from outside. -/
def quiet (s : SessionStore) : Bool :=
  (List.range (s.initializationEpoch + 1)).all fun e => ((s.runs e).bind Run.reply).isNone

def opening (s : SessionStore) : Bool :=
  s.transport.socket &&
    (decide (s.transport.state = .connecting) || decide (s.transport.state = .reconnecting))

def settleRun (s : SessionStore) (e : Nat) (reply : Reply) : SessionStore :=
  s.setRun e ((s.runs e).map (Run.settled reply))

/-- What the run waits for, while it waits. -/
def waiting (s : SessionStore) (e : Nat) : Option Await :=
  ((s.runs e).filter fun run => run.reply.isNone).map Run.await

/-- `acceptSessionOpen`. -/
def acceptSessionOpen (s : SessionStore) (authenticated : Bool) (uid : Int) : SessionStore :=
  let opened :=
    if authenticated then
      { s.transport with
        state := .authenticated
        hasAuthenticatedSession := true
        handshake := none
        account := some uid
        openSubscriber := none }
    else { s.transport with state := .anonymous, handshake := none, openSubscriber := none }
  match s.transport.openSubscriber with
  | some e => settleRun { s with transport := opened } e (.opened authenticated uid)
  | none => { s with transport := opened }

def forget (s : SessionStore) : SessionStore :=
  { s with transport := { s.transport with retryAllowed := false, reconnectToken := none } }

def invalidateSession (s : SessionStore) : SessionStore :=
  (s.forget.stopCurrent .unauthorized false).invalidate

def rejectSessionOpen (s : SessionStore) (error : Failure) : SessionStore :=
  let reconnect := decide (s.transport.reconnect = some true)
  if error = .unauthorized then
    if reconnect then s.invalidateSession else s.forget.stopCurrent error false
  else s.stopCurrent error reconnect

def stop (s : SessionStore) (reconnect : Bool) : SessionStore :=
  if reconnect then s.stopCurrent .other true
  else
    stopCurrent { s with transport := { s.transport with retryAllowed := false } } .other false

def reconnect (s : SessionStore) : SessionStore :=
  if s.transport.retryAllowed && s.transport.reconnectToken.any Token.truthy then
    { s with transport := s.transport.createSocket true none }
  else s

/-- The deadline of the request; giving up an opening cancels it. -/
def expire (s : SessionStore) (e : Nat) (await : Await) : SessionStore :=
  (if await.isOpening then s.cancelOpening e else s).settleRun e (.failed .other)

/-- `setShowMembershipMessages` up to its request. -/
def writeSettings (s : SessionStore) : SessionStore :=
  match s.user with
  | none => s
  | some user =>
    let write := s.chatSettingsWrite + 1
    let begun := { s with chatSettingsWrite := write }
    match s.transport.account with
    | some account =>
      if s.transport.canCall false then
        { begun with requests := s.requests ++ [⟨.write user.uid write, account, none⟩] }
      else begun
    | none => begun

/-- A read whose response carries chat settings, up to its request. -/
def readSettings (s : SessionStore) : SessionStore :=
  match s.transport.account with
  | some account =>
    if s.transport.canCall false then
      { s with requests := s.requests ++ [⟨.read s.user, account, none⟩] }
    else s
  | none => s

end SessionStore

open SessionStore

def when (condition : Bool) (next : SessionStore) : Option SessionStore :=
  if condition then some next else none

/-- Tokens are adopted where no user is signed in, or where the initialization that follows binds
them; the first is how the application starts. -/
def Page.restores (page : Page) (s : SessionStore) (urlToken stored : Option Token) : Bool :=
  urlToken.all page.decodable && stored.all page.decodable &&
    (s.user.isNone || !page.development || (s.restoreToken page urlToken stored).urlTokenAdopted)

/-- The server's answers are for the account it has bound to the socket: a socket is opened for the
account of its token, a development session is issued for its uid while none is bound, and a token
or a user read later is one of that account. -/
def step (page : Page) (s : SessionStore) : Event → Option SessionStore
  | .start => some (s.initializeSession page)
  | .restore urlToken stored =>
    when (page.restores s urlToken stored)
      ((s.restoreToken page urlToken stored).initializeSession page)
  | .logout => some s.logout
  | .switchDevUid uid => some (s.switchDevUid uid)
  | .resume e =>
    match s.runs e with
    | some ⟨await, some reply⟩ => some (s.resumeWith page e await reply)
    | _ => none
  | .socketOpened =>
    when (s.quiet && s.opening && !s.transport.ready && s.transport.handshake.isNone)
      { s with
        transport :=
          { s.transport with ready := true, handshake := some s.transport.reconnectToken } }
  | .sessionOpened authenticated uid =>
    match s.transport.handshake with
    | some sent =>
      when (s.quiet && s.opening && authenticated == sent.isSome &&
          sent.all fun token => page.ofAccount token uid)
        (s.acceptSessionOpen authenticated uid)
    | none => none
  | .sessionRejected error => when (s.quiet && s.opening) (s.rejectSessionOpen error)
  | .socketClosing =>
    when (s.quiet && s.transport.socket)
      { s with transport := { s.transport with ready := false } }
  | .socketStopped reconnect => when (s.quiet && s.transport.socket) (s.stop reconnect)
  | .reconnectDue =>
    when (s.quiet && decide (s.transport.state = .reconnecting) && !s.transport.socket) s.reconnect
  | .sessionInvalidated => when (s.quiet && s.transport.socket) s.invalidateSession
  | .devSessionCreated owner uid token =>
    let created :=
      { s with
        transport :=
          { s.transport with
            state := .authenticated
            hasAuthenticatedSession := true
            account := some uid } }
    if s.quiet && s.transport.account.isNone && s.transport.devCalls.contains uid &&
        page.ofAccount token uid then
      match owner with
      | none => some created
      | some e =>
        match s.waiting e with
        | some (.devSession waited _) =>
          when (waited == uid) (created.settleRun e (.issued token))
        | _ => none
    else none
  | .refreshed e token =>
    match s.waiting e, s.transport.account with
    | some .refresh, some account =>
      when (s.quiet && decide (s.transport.state = .authenticated) &&
          page.ofAccount token account)
        (s.settleRun e (.issued token))
    | _, _ => none
  | .meRead e user =>
    match s.waiting e, s.transport.account with
    | some .me, some account =>
      when (s.quiet && user.uid == account) (s.settleRun e (.me user))
    | _, _ => none
  | .searched e members =>
    match s.waiting e with
    | some (.profile _) => when s.quiet (s.settleRun e (.members members))
    | _ => none
  | .callFailed e error =>
    match s.waiting e with
    | some await => when (s.quiet && !await.isOpening) (s.settleRun e (.failed error))
    | none => none
  | .deadline e =>
    match s.waiting e with
    | some await => when s.quiet (s.expire e await)
    | none => none
  | .updated data => some (s.updateProfile data)
  | .orderUpdated order => when s.transport.account.isSome (s.replaceStickerPackOrder order)
  | .writeSettings => some s.writeSettings
  | .readSettings => some s.readSettings
  | .responded i settings =>
    match s.requests[i]? with
    | some ⟨kind, account, none⟩ =>
      some { s with requests := s.requests.set i ⟨kind, account, some settings⟩ }
    | _ => none
  | .accepted i =>
    match s.requests[i]? with
    | some ⟨kind, _, some settings⟩ =>
      some (acceptReply { s with requests := s.requests.eraseIdx i } kind settings)
    | _ => none

end Chahua.Session

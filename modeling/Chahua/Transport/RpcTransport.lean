import Chahua.Framework.Run

namespace Chahua.Transport

inductive RpcConnectionState where
  | closed | connecting | anonymous | authenticated | reconnecting
  deriving DecidableEq, Repr

inductive RpcLane where
  | ordinary | control
  deriving DecidableEq, Repr

inductive ErrorKind where
  | disconnected | timeout | overloaded | protocol
  deriving DecidableEq, Repr

/-- `RpcTransportError` and `RpcError`. -/
inductive CallError where
  | transport (kind : ErrorKind) (message : String)
  | rpc (code : Int)
  deriving DecidableEq, Repr

def unauthorizedCode : Int := 1001

def maxOrdinarySent : Int := 16
def maxOrdinaryQueued : Nat := 64
def maxControlPending : Nat := 8
def maxRequestBytes : Int := 64 * 1024 * 1024
def heartbeatStaleMs : Int := 90000
def foregroundStaleMs : Int := 30000

def replaceableControls : List String :=
  ["presence.watch", "conversations.watchStates", "conversations.watchUnread",
    "session.setAppState"]

/-- The methods of class `session` or `control`. -/
def controlMethods : List String :=
  ["session.open", "auth.createDevSession", "auth.refresh", "session.ping", "session.setAppState",
    "presence.watch", "conversations.watchUnread", "conversations.watchStates"]

def laneFor (method : String) : RpcLane :=
  if method ∈ controlMethods then .control else .ordinary

/-- Whose callbacks a call has. -/
inductive Owner where
  | subscriber | sessionOpen | ping | internal
  deriving DecidableEq, Repr

/-- A call; `id` is its request number. -/
structure PendingCall where
  id : Nat
  method : String
  epoch : Nat
  bytes : Nat
  lane : RpcLane
  owner : Owner
  sent : Bool
  active : Bool
  abandoned : Bool
  timer : Bool
  leaseTimer : Bool
  deriving DecidableEq, Repr

structure Attempt where
  epoch : Nat
  appVersion : String
  reconnect : Bool
  deriving DecidableEq, Repr

inductive ReadyState where
  | connecting | open | closed
  deriving DecidableEq, Repr

/-- A socket of the factory, with the epoch its handlers are bound to while they are attached. -/
structure Socket where
  epoch : Nat
  readyState : ReadyState
  attached : Bool
  deriving DecidableEq, Repr

/-- The fields of the transport, the sockets and calls there have been and the timers that are
armed. `closeRequested` and `invalidated` are not fields of it: they hold from `close` and from the
processing of an invalidation until the next `open`. -/
structure RpcTransport where
  state : RpcConnectionState
  sockets : List Socket
  socket : Option Nat
  attempt : Option Attempt
  epoch : Nat
  requestNumber : Nat
  reconnectToken : Option String
  reconnectTimer : Option Nat
  reconnects : List (Nat × String)
  handshakeTimer : Option Nat
  handshakes : List (Nat × Nat)
  nextTimer : Nat
  heartbeatTimer : Bool
  calls : List PendingCall
  pending : List Nat
  ordinaryQueue : List Nat
  controlQueue : List Nat
  ordinarySent : Int
  controlSent : Bool
  queuedBytes : Int
  retryAttempt : Nat
  retryAllowed : Bool
  hasAuthenticatedSession : Bool
  pingOutstanding : Bool
  lastHeartbeat : Int
  wasForeground : Bool
  openSubscriber : Option Nat
  closeRequested : Bool
  invalidated : Bool

/-- A decoded result. -/
inductive ResultValue where
  | sessionOpen (authenticated : Bool)
  | devSession
  | other
  deriving DecidableEq, Repr

inductive Body where
  | error (code : Int)
  | malformedError
  | result (value : ResultValue)
  deriving DecidableEq, Repr

/-- A frame after its checks: what fails them is one case. -/
inductive Frame where
  | invalid (message : String)
  | notification (method : String)
  | response (id : Nat) (body : Body)
  deriving DecidableEq, Repr

/-- What a function of the transport still has to do after it called observers or another
function. -/
inductive Task where
  | publish
  | beginOpen (token : Option String) (appVersion : String)
  | makeSocket (epoch : Nat)
  | armReconnect (appVersion : String)
  | finishOpenError (epoch : Nat) (error : CallError)
  | rejectPending (calls : List Nat) (error : CallError)
  | notifyInvalidated (stoppedEpoch : Nat)
  | rejectCall (call : Nat) (error : CallError)
  | admitCall (call : Nat)
  | send (call : Nat)
  | pump
  | supersede (call : Nat)
  | sendAppState
  | startHeartbeat
  | notifyOpen (epoch : Nat)
  | respond (call : Nat) (body : Body)
  | settle (call : Nat) (body : Body)
  deriving DecidableEq, Repr

/-- What happens outside: whether the factory or `send` succeeds, the clock and the size of the
frame of an internal call. -/
structure Outside where
  succeeds : Bool
  now : Int
  bytes : Nat
  deriving DecidableEq, Repr

namespace RpcTransport

variable (t : RpcTransport)

def modifyCall (call : Nat) (f : PendingCall → PendingCall) : RpcTransport :=
  { t with calls := t.calls.modify call f }

def modifySocket (socket : Nat) (f : Socket → Socket) : RpcTransport :=
  { t with sockets := t.sockets.modify socket f }

/-- `release` up to its `pump`; `none` when the call was not active. -/
def release (call : Nat) : Option RpcTransport :=
  match t.calls[call]? with
  | none => none
  | some c =>
    if c.active then
      some { t.modifyCall call fun c =>
          { c with active := false, timer := false, leaseTimer := false } with
        pending := t.pending.erase call
        queuedBytes := t.queuedBytes - c.bytes
        ordinarySent :=
          if c.sent ∧ c.lane = .ordinary then t.ordinarySent - 1 else t.ordinarySent
        controlSent := if c.sent ∧ c.lane = .control then false else t.controlSent
        ordinaryQueue :=
          if ¬c.sent ∧ c.lane = .ordinary then t.ordinaryQueue.erase call else t.ordinaryQueue
        controlQueue :=
          if ¬c.sent ∧ c.lane = .control then t.controlQueue.erase call else t.controlQueue }
    else none

def isAbandoned (call : Nat) : Bool := (t.calls[call]?).any (·.abandoned)

def isActive (call : Nat) : Bool := (t.calls[call]?).any (·.active)

def takePending : RpcTransport :=
  t.pending.foldl (fun t call => (t.release call).getD t) t

def clearReconnect : RpcTransport :=
  { t with
    reconnects := t.reconnects.filter fun timer => some timer.1 ≠ t.reconnectTimer
    reconnectTimer := none }

def clearHeartbeat : RpcTransport := { t with heartbeatTimer := false, pingOutstanding := false }

def clearHandshakeDeadline : RpcTransport :=
  { t with
    handshakes := t.handshakes.filter fun timer => some timer.1 ≠ t.handshakeTimer
    handshakeTimer := none }

/-- The owned socket loses its handlers and closes. -/
def closeSocket : RpcTransport :=
  match t.socket with
  | none => t
  | some socket =>
    { t.modifySocket socket fun s => { s with readyState := .closed, attached := false } with
      socket := none }

def transition (state : RpcConnectionState) : RpcTransport := { t with state }

/-- The state change is published before the timer is armed. -/
def scheduleReconnect : RpcTransport × List Task :=
  match t.reconnectToken, t.attempt with
  | some token, some attempt =>
    if t.hasAuthenticatedSession ∧ t.retryAllowed ∧ token ≠ "" ∧ attempt.appVersion ≠ "" then
      (({ t with retryAttempt := t.retryAttempt + 1 }).transition .reconnecting,
        [.publish, .armReconnect attempt.appVersion])
    else (t.transition .closed, [.publish])
  | _, _ => (t.transition .closed, [.publish])

/-- `stopCurrent` up to its callbacks. -/
def stopped (reconnect : Bool) : RpcTransport :=
  { t.clearReconnect.clearHeartbeat.clearHandshakeDeadline.takePending.closeSocket with
    attempt := if reconnect then t.attempt else none
    epoch := t.epoch + 1 }

def stopCurrent (error : CallError) (reconnect : Bool) : RpcTransport × List Task :=
  let published :=
    if reconnect then (t.stopped reconnect).scheduleReconnect
    else ((t.stopped reconnect).transition .closed, [.publish])
  (published.1, published.2 ++ [.finishOpenError t.epoch error,
    .rejectPending (t.pending.filter fun call => !t.isAbandoned call) error])

def createSocket (appVersion : String) (reconnect subscriber : Bool) : RpcTransport × List Task :=
  (({ t with
      epoch := t.epoch + 1
      requestNumber := 0
      attempt := some ⟨t.epoch + 1, appVersion, reconnect⟩
      openSubscriber := if subscriber then some (t.epoch + 1) else none }).transition
      (if reconnect then .reconnecting else .connecting),
    [.publish, .makeSocket (t.epoch + 1)])

def protocolFailure (message : String) : RpcTransport × List Task :=
  ({ t with retryAllowed := false }).stopCurrent (.transport .protocol message) false

def invalidateSession (error : CallError) : RpcTransport × List Task :=
  let stop := ({ t with retryAllowed := false, reconnectToken := none, invalidated := true }).stopCurrent
    error false
  (stop.1, stop.2 ++ [.notifyInvalidated (t.epoch + 1)])

def rejectSessionOpen (epoch : Nat) (error : CallError) : RpcTransport × List Task :=
  if epoch ≠ t.epoch then (t, [])
  else if error = .rpc unauthorizedCode then
    if t.attempt.any (·.reconnect) then t.invalidateSession error
    else ({ t with retryAllowed := false, reconnectToken := none }).stopCurrent error false
  else t.stopCurrent error (t.attempt.any (·.reconnect))

def acceptSessionOpen (epoch : Nat) (value : ResultValue) (now : Int) : RpcTransport × List Task :=
  match value with
  | .sessionOpen authenticated =>
    if epoch ≠ t.epoch then t.protocolFailure "Invalid session.open result"
    else if authenticated then
      (({ t.clearHandshakeDeadline with
          lastHeartbeat := now
          hasAuthenticatedSession := true
          retryAttempt := 0 }).transition .authenticated,
        [.publish, .sendAppState, .startHeartbeat, .notifyOpen epoch])
    else
      (({ t.clearHandshakeDeadline with lastHeartbeat := now }).transition .anonymous,
        [.publish, .notifyOpen epoch])
  | _ => t.protocolFailure "Invalid session.open result"

/-- The `reject` of a call. -/
def reject (owner : Owner) (epoch : Nat) (error : CallError) : RpcTransport × List Task :=
  match owner with
  | .subscriber => (t, [.publish])
  | .sessionOpen => t.rejectSessionOpen epoch error
  | .ping => ({ t with pingOutstanding := t.pingOutstanding && decide (epoch ≠ t.epoch) }, [])
  | .internal => (t, [])

/-- The `resolve` of a call. -/
def resolve (owner : Owner) (epoch : Nat) (value : ResultValue) (now : Int) :
    RpcTransport × List Task :=
  match owner with
  | .subscriber => (t, [.publish])
  | .sessionOpen => t.acceptSessionOpen epoch value now
  | .ping => ({ t with pingOutstanding := t.pingOutstanding && decide (epoch ≠ t.epoch) }, [])
  | .internal => (t, [])

def controlPendingCount : Nat := t.controlQueue.length + if t.controlSent then 1 else 0

/-- The queued call that a call of the method replaces. -/
def previous (method : String) : Option Nat :=
  if method ∈ replaceableControls then
    t.controlQueue.find? fun call => (t.calls[call]?).any (·.method = method)
  else none

def bytesOf (call : Option Nat) : Nat :=
  ((call.bind fun call => t.calls[call]?).map (·.bytes)).getD 0

def overloaded (method : String) (bytes : Nat) : Option String :=
  let previous := t.previous method
  if (bytes : Int) > maxRequestBytes ∨
      t.queuedBytes - t.bytesOf previous + bytes > maxRequestBytes then
    some "The RPC request queue is full"
  else if laneFor method = .control ∧ previous = none ∧
      (if method = "session.ping" then maxControlPending else maxControlPending - 1) ≤
        t.controlPendingCount then
    some "The RPC control queue is full"
  else if laneFor method = .ordinary ∧ maxOrdinarySent ≤ t.ordinarySent ∧
      maxOrdinaryQueued ≤ t.ordinaryQueue.length then
    some "The RPC request queue is full"
  else none

/-- `createPending` and the admission of what it returns. -/
def createPending (method : String) (bytes : Nat) (owner : Owner) : RpcTransport × List Task :=
  let numbered := { t with requestNumber := t.requestNumber + 1 }
  match t.overloaded method bytes with
  | some message => numbered.reject owner t.epoch (.transport .overloaded message)
  | none =>
    let created := { numbered with
      calls := t.calls ++ [⟨t.requestNumber + 1, method, t.epoch, bytes, laneFor method, owner, false,
        true, false, true, false⟩]
      pending := t.pending ++ [t.calls.length]
      queuedBytes := t.queuedBytes + bytes }
    match t.previous method with
    | some previous =>
      ((created.release previous).getD created,
        [.pump, .supersede previous, .admitCall t.calls.length])
    | none => (created, [.admitCall t.calls.length])

def isReady : Bool := (t.socket.bind fun socket => t.sockets[socket]?).any (·.readyState = .open)

def canCall (method : String) : Bool :=
  t.isReady && (decide (t.state = .authenticated) ||
    decide (t.state = .anonymous ∧ method = "auth.createDevSession"))

def admitCall (call : Nat) : RpcTransport × List Task :=
  match t.calls[call]? with
  | none => (t, [])
  | some c =>
    if ¬c.active then (t, [])
    else if c.lane = .ordinary then
      if maxOrdinarySent ≤ t.ordinarySent then
        ({ t with ordinaryQueue := t.ordinaryQueue ++ [call] }, [])
      else (t, [.send call])
    else if t.controlSent then ({ t with controlQueue := t.controlQueue ++ [call] }, [])
    else (t, [.send call])

def markSent (call : Nat) (lane : RpcLane) : RpcTransport :=
  { t.modifyCall call fun c => { c with sent := true, leaseTimer := decide (lane = .ordinary) } with
    ordinarySent := if lane = .ordinary then t.ordinarySent + 1 else t.ordinarySent
    controlSent := if lane = .control then true else t.controlSent }

def send (call : Nat) (outside : Outside) : RpcTransport × List Task :=
  match t.calls[call]? with
  | none => (t, [])
  | some c =>
    if ¬c.active ∨ ¬t.isReady then
      match t.release call with
      | some released =>
        (released, [.pump, .rejectCall call (.transport .disconnected "The RPC socket is closed")])
      | none => (t, [])
    else if outside.succeeds then (t.markSent call c.lane, [])
    else (t.markSent call c.lane).stopCurrent
      (.transport .disconnected "The RPC socket failed while sending") true

def pumpControl : RpcTransport × List Task :=
  match t.controlQueue with
  | next :: rest =>
    if t.controlSent then (t, [])
    else ({ t with controlQueue := rest }, if t.isActive next then [.send next] else [])
  | [] => (t, [])

/-- One round of the loop of `pump`, or what follows it. -/
def pump : RpcTransport × List Task :=
  match t.ordinaryQueue with
  | next :: rest =>
    if t.ordinarySent < maxOrdinarySent then
      ({ t with ordinaryQueue := rest },
        if t.isActive next then [.send next, .pump] else [.pump])
    else t.pumpControl
  | [] => t.pumpControl

def makeSocket (epoch : Nat) (outside : Outside) : RpcTransport × List Task :=
  if outside.succeeds then
    ({ t with
      sockets := t.sockets ++ [⟨epoch, .connecting, true⟩]
      socket := some t.sockets.length
      handshakes := t.handshakes ++ [(t.nextTimer, epoch)]
      handshakeTimer := some t.nextTimer
      nextTimer := t.nextTimer + 1 }, [])
  else (({ t with attempt := none }).transition .closed,
    [.publish, .finishOpenError epoch (.transport .disconnected "Unable to create the RPC socket")])

def armReconnect (appVersion : String) : RpcTransport :=
  { t with
    reconnects := t.reconnects ++ [(t.nextTimer, appVersion)]
    reconnectTimer := some t.nextTimer
    nextTimer := t.nextTimer + 1 }

def finishOpen (epoch : Nat) : RpcTransport × List Task :=
  if t.openSubscriber = some epoch then ({ t with openSubscriber := none }, [.publish]) else (t, [])

def rejectCall (call : Nat) (error : CallError) : RpcTransport × List Task :=
  match t.calls[call]? with
  | some c => t.reject c.owner c.epoch error
  | none => (t, [])

def rejectPending (calls : List Nat) (error : CallError) : RpcTransport × List Task :=
  match calls with
  | [] => (t, [])
  | call :: rest =>
    let rejected := t.rejectCall call error
    (rejected.1, rejected.2 ++ [.rejectPending rest error])

def beginOpen (token : Option String) (appVersion : String) : RpcTransport × List Task :=
  ({ t with
    reconnectToken := token
    retryAllowed := true
    hasAuthenticatedSession := false
    retryAttempt := 0 }).createSocket appVersion false true

def sendAppState (outside : Outside) : RpcTransport × List Task :=
  if t.state = .authenticated then t.createPending "session.setAppState" outside.bytes .internal
  else (t, [])

/-- The end of `handleMessage` for a response. -/
def respond (call : Nat) (body : Body) (outside : Outside) : RpcTransport × List Task :=
  let ping := (t.calls[call]?).any (·.method = "session.ping")
  let heard := match body with
    | .result _ => if ping then { t with lastHeartbeat := outside.now } else t
    | _ => t
  match heard.release call with
  | some released => (released, [.pump, .settle call body])
  | none => (heard, [.settle call body])

def settle (call : Nat) (body : Body) (outside : Outside) : RpcTransport × List Task :=
  match t.calls[call]? with
  | none => (t, [])
  | some c =>
    if c.abandoned then (t, [])
    else match body with
      | .error code => t.reject c.owner c.epoch (.rpc code)
      | .result value => t.resolve c.owner c.epoch value outside.now
      | .malformedError => (t, [])

def supersede (call : Nat) : List Task :=
  if (t.calls[call]?).any (·.owner = .subscriber) then [.publish] else []

def exec (outside : Outside) : Task → RpcTransport × List Task
  | .publish => (t, [])
  | .beginOpen token appVersion => t.beginOpen token appVersion
  | .makeSocket epoch => t.makeSocket epoch outside
  | .armReconnect appVersion => (t.armReconnect appVersion, [])
  | .finishOpenError epoch _ => t.finishOpen epoch
  | .rejectPending calls error => t.rejectPending calls error
  | .notifyInvalidated stoppedEpoch => (t, if t.epoch = stoppedEpoch then [.publish] else [])
  | .rejectCall call error => t.rejectCall call error
  | .admitCall call => t.admitCall call
  | .send call => t.send call outside
  | .pump => t.pump
  | .supersede call => (t, t.supersede call)
  | .sendAppState => t.sendAppState outside
  | .startHeartbeat => ({ t.clearHeartbeat with heartbeatTimer := true }, [])
  | .notifyOpen epoch => t.finishOpen epoch
  | .respond call body => t.respond call body outside
  | .settle call body => t.settle call body outside

/-- The response to a call that is pending, after the checks of `handleMessage`. -/
def handleResponse (call : Nat) (method : String) (body : Body) : RpcTransport × List Task :=
  match body with
  | .malformedError => t.protocolFailure "Malformed JSON-RPC error response"
  | .error _ => (t, [.respond call body])
  | .result value =>
    if method = "auth.createDevSession" then
      if value = .devSession then
        (({ t with hasAuthenticatedSession := true, retryAttempt := 0 }).transition .authenticated,
          [.publish, .sendAppState, .startHeartbeat, .respond call body])
      else t.protocolFailure "Malformed development session result"
    else (t, [.respond call body])

def handleNotification (method : String) : RpcTransport × List Task :=
  if method = "session.invalidated" then
    let invalidated := t.invalidateSession (.rpc unauthorizedCode)
    (invalidated.1, invalidated.2 ++ [.publish])
  else if method = "session.unavailable" then
    let stopped := t.stopCurrent
      (.transport .disconnected "Session authentication is unavailable") true
    (stopped.1, stopped.2 ++ [.publish])
  else (t, [.publish])

def handleMessage (bytes : Nat) (frame : Frame) : RpcTransport × List Task :=
  if (bytes : Int) + t.queuedBytes > maxRequestBytes then
    t.protocolFailure "The RPC frame exceeds the transport byte budget"
  else match frame with
    | .invalid message => t.protocolFailure message
    | .notification method => t.handleNotification method
    | .response id body =>
      match t.pending.find? fun call => (t.calls[call]?).any (·.id = id) with
      | none => (t, [])
      | some call =>
        t.handleResponse call (((t.calls[call]?).map (·.method)).getD "") body

/-- `isCurrent` for a socket whose handlers are attached. -/
def isCurrent (socket : Nat) : Bool :=
  decide (t.socket = some socket) &&
    (t.sockets[socket]?).any fun s => s.attached && decide (s.epoch = t.epoch)

end RpcTransport

/-- What callers do, also from within a callback. -/
inductive Operation where
  | «open» (token : Option String) (appVersion : String)
  | cancelOpening (epoch : Nat)
  | close
  | setReconnectToken (token : String)
  | call (method : String) (bytes : Nat)
  | unsubscribe (call : Nat)
  deriving DecidableEq, Repr

/-- What only happens between callbacks: socket events, timers and changes of the foreground. -/
inductive External where
  | socketOpen (socket bytes : Nat)
  | socketMessage (socket bytes : Nat) (frame : Frame)
  | socketClose (socket : Nat)
  | handshakeTimeout (timer : Nat)
  | reconnectTimeout (timer : Nat)
  | requestTimeout (call : Nat)
  | leaseTimeout (call : Nat)
  | heartbeat (now : Int) (bytes : Nat)
  | lifecycleChange (foreground : Bool) (now : Int) (bytes : Nat)
  deriving DecidableEq, Repr

namespace RpcTransport

variable (t : RpcTransport)

def operate : Operation → RpcTransport × List Task
  | .open token appVersion =>
    let stop := ({ t with closeRequested := false, invalidated := false }).stopCurrent
      (.transport .disconnected "A new RPC session was opened") false
    (stop.1, stop.2 ++ [.beginOpen token appVersion])
  | .cancelOpening epoch =>
    if t.openSubscriber = some epoch ∧ epoch = t.epoch then
      ({ t with openSubscriber := none, retryAllowed := false }).stopCurrent
        (.transport .disconnected "Opening the RPC session was cancelled") false
    else (t, [])
  | .close =>
    ({ t with
      closeRequested := true
      retryAllowed := false
      reconnectToken := none
      hasAuthenticatedSession := false }).stopCurrent
      (.transport .disconnected "The RPC transport was closed") false
  | .setReconnectToken token => ({ t with reconnectToken := some token }, [])
  | .call method bytes =>
    if t.canCall method then t.createPending method bytes .subscriber else (t, [.publish])
  | .unsubscribe call =>
    match t.calls[call]? with
    | none => (t, [])
    | some c =>
      if ¬c.active then (t, [])
      else if c.sent then
        (t.modifyCall call fun c =>
          { c with abandoned := true, timer := c.timer && decide (c.lane = .control) }, [])
      else match t.release call with
        | some released => (released, [.pump])
        | none => (t, [])

def requestTimeout (call : Nat) (c : PendingCall) : RpcTransport × List Task :=
  let error := CallError.transport .timeout s!"RPC request {c.method} timed out"
  if ¬c.active then (t, [])
  else if c.sent ∧ c.lane = .control then t.stopCurrent error true
  else if c.sent then
    (t.modifyCall call fun c => { c with abandoned := true, timer := false },
      [.rejectCall call error])
  else match t.release call with
    | some released => (released, [.pump, .rejectCall call error])
    | none => (t, [])

/-- An external event that cannot happen is none. -/
def happen : External → Option (RpcTransport × List Task)
  | .socketOpen socket bytes =>
    match t.sockets[socket]? with
    | some s =>
      if s.readyState = .connecting then
        let opened := t.modifySocket socket fun s => { s with readyState := .open }
        if t.isCurrent socket then
          some (opened.createPending "session.open" bytes .sessionOpen)
        else some (opened, [])
      else none
    | none => none
  | .socketMessage socket bytes frame =>
    match t.sockets[socket]? with
    | some s =>
      if s.readyState = .open then
        if t.isCurrent socket then some (t.handleMessage bytes frame) else some (t, [])
      else none
    | none => none
  | .socketClose socket =>
    match t.sockets[socket]? with
    | some s =>
      if s.readyState = .closed then none
      else
        let closed := t.modifySocket socket fun s => { s with readyState := .closed }
        if t.isCurrent socket then
          some (closed.stopCurrent (.transport .disconnected "The RPC socket closed") true)
        else some (closed, [])
    | none => none
  | .handshakeTimeout timer =>
    match t.handshakes.find? (·.1 = timer) with
    | some armed =>
      some (({ t with handshakes := t.handshakes.filter (·.1 ≠ timer) }).rejectSessionOpen armed.2
        (.transport .timeout "RPC session.open timed out"))
    | none => none
  | .reconnectTimeout timer =>
    match t.reconnects.find? (·.1 = timer) with
    | some armed =>
      let fired := { t with
        reconnects := t.reconnects.filter (·.1 ≠ timer), reconnectTimer := none }
      if t.retryAllowed ∧ t.reconnectToken.any (· ≠ "") then
        some (fired.createSocket armed.2 true false)
      else some (fired, [])
    | none => none
  | .requestTimeout call =>
    match t.calls[call]? with
    | some c =>
      if c.timer then
        some ((t.modifyCall call fun c => { c with timer := false }).requestTimeout call c)
      else none
    | none => none
  | .leaseTimeout call =>
    match t.calls[call]? with
    | some c =>
      if c.leaseTimer then
        if c.active then
          some (t.stopCurrent
            (.transport .timeout s!"RPC request {c.method} did not settle") true)
        else some (t.modifyCall call fun c => { c with leaseTimer := false }, [])
      else none
    | none => none
  | .heartbeat now bytes =>
    if ¬t.heartbeatTimer then none
    else if t.state ≠ .authenticated then some (t, [])
    else if now - t.lastHeartbeat > heartbeatStaleMs then
      some (t.stopCurrent (.transport .disconnected "The RPC heartbeat is stale") true)
    else if t.pingOutstanding then some (t, [])
    else some (({ t with pingOutstanding := true }).createPending "session.ping" bytes .ping)
  | .lifecycleChange foreground now bytes =>
    let resumed := foreground && !t.wasForeground
    let seen := { t with wasForeground := foreground }
    if t.state ≠ .authenticated then some (seen, [])
    else if foreground ∧ now - t.lastHeartbeat > foregroundStaleMs then
      some (seen.stopCurrent
        (.transport .disconnected "The RPC socket is stale after foregrounding") true)
    else if resumed then some (seen, [.publish, .sendAppState])
    else some (seen.createPending "session.setAppState" bytes .internal)

end RpcTransport

/-- The transport with what its running functions still have to do, the innermost first. -/
structure Machine where
  transport : RpcTransport
  stack : List Task

/-- Observers act while a publication is on top of the stack and end it with `done`. -/
inductive Event where
  | operate (operation : Operation)
  | happen (event : External)
  | run (outside : Outside)
  | done
  deriving DecidableEq, Repr

def step (s : Machine) (event : Event) : Option Machine :=
  match event, s.stack with
  | .operate operation, [] =>
    some ⟨(s.transport.operate operation).1, (s.transport.operate operation).2⟩
  | .operate operation, .publish :: rest =>
    some ⟨(s.transport.operate operation).1,
      (s.transport.operate operation).2 ++ .publish :: rest⟩
  | .happen event, [] => (s.transport.happen event).map fun result => ⟨result.1, result.2⟩
  | .done, .publish :: rest => some ⟨s.transport, rest⟩
  | .run _, .publish :: _ => none
  | .run outside, task :: rest =>
    some ⟨(s.transport.exec outside task).1, (s.transport.exec outside task).2 ++ rest⟩
  | _, _ => none

end Chahua.Transport

import Chahua.Rpc.Protocol
import Chahua.Framework.Table
import Chahua.Framework.Run

namespace Chahua.Rpc

open Framework

/-- The place of a call in the input: the number of its frame and its index there. -/
structure Origin where
  frame : Nat
  item : Nat
  deriving DecidableEq, Repr

/-- A response ready to be queued. `origin` is kept for the statements only. -/
structure PreparedResponse where
  origin : Origin
  response : RpcResponse
  deriving DecidableEq, Repr

namespace PreparedResponse

def success (r : PreparedResponse) : Bool := r.response.success

def lifecycle (r : PreparedResponse) : Option RpcLifecycleFailure := r.response.lifecycleFailure

end PreparedResponse

/-- A response over the frame limit is replaced by an error for the same id. -/
def prepareResponse (origin : Origin) (response : RpcResponse) (oversized : Bool) :
    PreparedResponse :=
  ⟨origin, if oversized then .error response.id (.new .payloadTooLarge) else response⟩

@[simp] theorem prepareResponse_origin (origin : Origin) (response : RpcResponse)
    (oversized : Bool) : (prepareResponse origin response oversized).origin = origin := rfl

@[simp] theorem prepareResponse_id (origin : Origin) (response : RpcResponse)
    (oversized : Bool) : (prepareResponse origin response oversized).response.id = response.id := by
  cases oversized <;> rfl

/-- A frame handed to the output queue. -/
inductive Frame where
  | response (r : PreparedResponse)
  | batch (frame : Nat) (responses : List PreparedResponse)
  | lifecycle (failure : RpcLifecycleFailure)
  deriving DecidableEq, Repr

/-- The frame answers input frame `n`. -/
def Frame.answers (n : Nat) : Frame → Bool
  | .response r => decide (r.origin.frame = n)
  | .batch frame _ => decide (frame = n)
  | .lifecycle _ => false

inductive ResultDestination where
  | single
  | batch (id : Nat)
  deriving DecidableEq, Repr

/-- What a worker sends back. `succeeded` is the outcome of its dispatch, which the source's
`WorkResult` only carries inside a response. -/
structure WorkResult where
  response : Option PreparedResponse
  succeeded : Bool
  deriving DecidableEq, Repr

/-- A supervised worker: `result = none` until its call has been dispatched. -/
structure Work where
  call : RpcCall
  destination : ResultDestination
  closeAfterError : Bool
  result : Option WorkResult
  deriving DecidableEq, Repr

namespace Work

def activateAfterSuccess (w : Work) : Bool := isHandshake w.call.method

def countsTowardBatch (w : Work) : Bool := w.call.id.isSome || w.activateAfterSuccess

end Work

/-- `frame` and `succeeded` (a handshake behind the activation succeeded) are kept for the
statements only. -/
structure BatchAssembly where
  frame : Nat
  pending : Nat
  responses : List PreparedResponse
  requestIds : List RpcId
  lifecycle : Option RpcLifecycleFailure
  closeAfterError : Bool
  activateAfterSuccess : Bool
  succeeded : Bool
  deriving DecidableEq, Repr

namespace BatchAssembly

def new (frame : Nat) : BatchAssembly := ⟨frame, 0, [], [], none, false, false, false⟩

def push (batch : BatchAssembly) (response : PreparedResponse) (closeAfterError : Bool) :
    BatchAssembly :=
  { batch with
    lifecycle := batch.lifecycle.or response.lifecycle
    closeAfterError := batch.closeAfterError || (closeAfterError && !response.success)
    responses := batch.responses ++ [response] }

/-- A call of the batch is about to be scheduled. -/
def expect (batch : BatchAssembly) (call : RpcCall) : BatchAssembly :=
  { batch with
    requestIds := batch.requestIds ++ call.id.toList
    pending := if call.id.isSome || isHandshake call.method then batch.pending + 1
      else batch.pending }

/-- The call was answered at once. -/
def settle (batch : BatchAssembly) (call : RpcCall) (response : Option PreparedResponse) :
    BatchAssembly :=
  if call.id.isSome || isHandshake call.method then
    match response with
    | some r => { batch with pending := batch.pending - 1 }.push r false
    | none => { batch with pending := batch.pending - 1 }
  else batch

end BatchAssembly

inductive Input where
  | malformed
  | message (m : RpcMessage)
  deriving DecidableEq, Repr

/-- An input frame, and whether the session accepted authorized work when it arrived. -/
structure Received where
  input : Input
  accepting : Bool
  deriving DecidableEq, Repr

namespace Received

def items (r : Received) : List RpcItem :=
  match r.input with
  | .malformed => []
  | .message (.single item) => [item]
  | .message (.batch items) => items

def isBatch (r : Received) : Bool :=
  match r.input with
  | .message (.batch _) => true
  | _ => false

end Received

/-- The results arm between `activate` and its look at `bound_identity`. -/
structure Spawning where
  succeeded : Bool
  closeAfterError : Bool
  deriving DecidableEq, Repr

/-- The state `serve_rpc_session` and its tasks share, and the locals of its loop. `ended`
says the loop was left; `guards` counts the spawned `generation_checks`, `activations` the
times the forwarders were started; `received` and `sent` log the two queues. -/
structure Session where
  opened : Bool
  accepting : Bool
  lifecycleNotified : Bool
  bound : Bool
  activated : Bool
  closed : Bool
  ended : Bool
  firstMessage : Bool
  handshakePending : Bool
  nextBatch : Nat
  batches : Table Nat BatchAssembly
  outstanding : Finset RpcId
  works : Table Origin Work
  spawning : Option Spawning
  guards : Nat
  activations : Nat
  received : List Received
  sent : List Frame

/-- What the environment decides while one call is scheduled: whether the permits of its class
are free, whether another task has closed the transport, whether budget is left for a
rejection, whether the rejection is over the frame limit. -/
structure Choice where
  admitted : Bool
  disconnected : Bool
  prepared : Bool
  oversized : Bool
  deriving DecidableEq, Repr

/-- The outcome of `dispatch_call`; `authenticated` says an opened session has a token. -/
structure DispatchOutcome where
  outcome : RpcOutcome
  authenticated : Bool
  oversized : Bool
  deriving DecidableEq, Repr

inductive ScheduledCall where
  | pending
  | immediate (response : Option PreparedResponse)
  | duplicate (response : Option PreparedResponse)

namespace Session

def init : Session where
  opened := false
  accepting := true
  lifecycleNotified := false
  bound := false
  activated := false
  closed := false
  ended := false
  firstMessage := true
  handshakePending := false
  nextBatch := 0
  batches := Table.empty
  outstanding := ∅
  works := Table.empty
  spawning := none
  guards := 0
  activations := 0
  received := []
  sent := []

def push (s : Session) (frame : Frame) : Session := { s with sent := s.sent ++ [frame] }

/-- `break`: after the loop the transport is closed and the registration removed. -/
def shut (s : Session) : Session := { s with closed := true, ended := true, bound := false }

/-- `sink.send_prepared` with its result ignored. A failed send closes the transport. -/
def offer (s : Session) (frame : Frame) (sendOk : Bool) : Session :=
  if s.closed || !sendOk then { s with closed := true } else s.push frame

/-- `sink.send_prepared`, leaving the loop when it fails. -/
def send (s : Session) (frame : Frame) (sendOk : Bool) : Session :=
  if s.closed || !sendOk then s.shut else s.push frame

def suspendAuthorizedWork (s : Session) : Session := { s with accepting := false }

def handleLifecycleFailure (s : Session) (failure : RpcLifecycleFailure) (notifyOk : Bool) :
    Session :=
  if s.lifecycleNotified then s
  else
    { ({ s with accepting := false, lifecycleNotified := true } : Session).offer
        (.lifecycle failure) notifyOk with closed := true }

def activate (s : Session) : Session :=
  if !s.accepting || s.activated || !s.bound then s
  else { s with activated := true, activations := s.activations + 1 }

/-- `outstanding.insert(id)` for a call that has an id. -/
def enter (s : Session) (id : Option RpcId) : Session :=
  match id with
  | some id => { s with outstanding := insert id s.outstanding }
  | none => s

def forget (s : Session) (id : Option RpcId) : Session :=
  match id with
  | some id => { s with outstanding := s.outstanding.erase id }
  | none => s

/-- Another task may have closed the transport meanwhile. -/
def disconnect (s : Session) (disconnected : Bool) : Session :=
  { s with closed := s.closed || disconnected }

/-- An error reply made in place of a dispatch. The id of a batch member stays outstanding. -/
def reject (s : Session) (call : RpcCall) (origin : Origin) (destination : ResultDestination)
    (error : RpcError) (choice : Choice) : Session × ScheduledCall :=
  let s := if destination = .single then s.forget call.id else s
  match call.id with
  | none => (s, .immediate none)
  | some id =>
      if choice.prepared then
        (s, .immediate (some (prepareResponse origin (.error id error) choice.oversized)))
      else ({ s with closed := true }, .immediate none)

def scheduleCall (s : Session) (call : RpcCall) (origin : Origin)
    (destination : ResultDestination) (closeAfterError : Bool) (choice : Choice) :
    Session × ScheduledCall :=
  if call.id.any (fun id => decide (id ∈ s.outstanding)) then
    (s, .duplicate
      (if choice.prepared then some (prepareResponse origin .invalidRequest choice.oversized)
        else none))
  else
    let s := s.enter call.id
    let class_ := methodClass call.method
    if (class_ = some .read ∨ class_ = some .mutation) ∧ choice.admitted = false then
      s.reject call origin destination (.new .overloaded) choice
    else if (class_ = some .session ∨ class_ = some .control) ∧ choice.admitted = false then
      ({ s with closed := true }, .immediate none)
    else
      let s := s.disconnect choice.disconnected
      -- `call_context` admits nothing once the session is closed or suspended
      if s.closed || !s.accepting then (s.forget call.id, .immediate none)
      else if class_ = none then
        s.reject call origin destination
          (if s.activated && s.bound then .new .methodNotFound
            else .withMessage .unauthorized "Authentication required") choice
      else
        ({ s with works := s.works.upsert origin ⟨call, destination, closeAfterError, none⟩ },
          .pending)

/-- The items of a batch in order. `inl` leaves the loop, with a last response to offer. -/
def scheduleItems (batchId frame : Nat) (choice : Nat → Choice) :
    Session → Nat → BatchAssembly → List RpcItem →
      Session × (Option PreparedResponse ⊕ BatchAssembly)
  | s, _, batch, [] => (s, .inr batch)
  | s, k, batch, .response :: items => scheduleItems batchId frame choice s (k + 1) batch items
  | s, k, batch, .invalid response :: items =>
      if (choice k).prepared then
        scheduleItems batchId frame choice s (k + 1)
          (batch.push (prepareResponse ⟨frame, k⟩ response (choice k).oversized) false) items
      else (s, .inl none)
  | s, k, batch, .call call :: items =>
      match s.scheduleCall call ⟨frame, k⟩ (.batch batchId) false (choice k) with
      | (s, .pending) =>
          scheduleItems batchId frame choice s (k + 1) (batch.expect call) items
      | (s, .immediate response) =>
          scheduleItems batchId frame choice s (k + 1) ((batch.expect call).settle call response)
            items
      | (s, .duplicate response) => (s, .inl response)

/-- `flush_batch`: an empty assembly sends nothing. `none` when the frame cannot be sent. -/
def flushBatch (s : Session) (batch : BatchAssembly) (sendOk : Bool) : Option Session :=
  if batch.responses.isEmpty then some s
  else if s.closed || !sendOk then none
  else some (s.push (.batch batch.frame batch.responses))

def release (s : Session) (batch : BatchAssembly) : Session :=
  { s with outstanding := s.outstanding \ batch.requestIds.toFinset }

/-- The end of the input arm for a batch that has no work pending. -/
def finishBatch (s : Session) (batch : BatchAssembly) (sendOk notifyOk : Bool) : Session :=
  match s.flushBatch batch sendOk with
  | none => s.shut
  | some s =>
      match batch.lifecycle with
      | some failure => ((s.release batch).handleLifecycleFailure failure notifyOk).shut
      | none => s.release batch

def validOpen : RpcMessage → Bool
  | .single (.call ⟨some (.string _), method⟩) => decide (method = "session.open")
  | .single (.call ⟨some (.number _), method⟩) => decide (method = "session.open")
  | _ => false

def offerLast (s : Session) (response : Option PreparedResponse) (sendOk : Bool) : Session :=
  match response with
  | some r => (s.offer (.response r) sendOk).shut
  | none => s.shut

def receiveItem (s : Session) (n : Nat) (opening : Bool) (choice : Choice) (sendOk : Bool) :
    RpcItem → Session
  | .response => s
  | .invalid response =>
      if choice.prepared then
        s.send (.response (prepareResponse ⟨n, 0⟩ response choice.oversized)) sendOk
      else s.shut
  | .call call =>
      match s.scheduleCall call ⟨n, 0⟩ .single opening choice with
      | (s, .pending) => s
      | (s, .immediate none) => s
      | (s, .immediate (some r)) => s.send (.response r) sendOk
      | (s, .duplicate response) => s.offerLast response sendOk

def receiveBatch (s : Session) (n : Nat) (choice : Nat → Choice) (sendOk notifyOk : Bool)
    (items : List RpcItem) : Session :=
  let batchId := s.nextBatch
  let s := { s with nextBatch := (s.nextBatch + 1) % 2 ^ 64 }
  match scheduleItems batchId n choice s 0 (.new n) items with
  | (s, .inl response) => s.offerLast response sendOk
  | (s, .inr batch) =>
      if batch.pending = 0 then s.finishBatch batch sendOk notifyOk
      else { s with batches := s.batches.upsert batchId batch }

def log (s : Session) (input : Input) : Session :=
  { s with received := s.received ++ [⟨input, s.accepting⟩] }

/-- The input arm for a parsed message. Only a `session.open` call may come first, and no
frame is admitted until it is settled. -/
def receive (s : Session) (message : RpcMessage) (choice : Nat → Choice)
    (sendOk notifyOk : Bool) : Session :=
  let n := s.received.length
  let opening := s.firstMessage
  let s := { s.log (.message message) with firstMessage := false }
  if opening && !validOpen message then
    s.offerLast
      (if (choice 0).prepared then some (prepareResponse ⟨n, 0⟩ .invalidRequest false) else none)
      sendOk
  else
    let s := { s with handshakePending := s.handshakePending || opening }
    match message with
    | .single item => s.receiveItem n opening (choice 0) sendOk item
    | .batch items => s.receiveBatch n choice sendOk notifyOk items

/-- The results arm goes on to look at `bound_identity` after `activate`. -/
def activateThen (s : Session) (spawning : Spawning) : Session :=
  { s.activate with spawning := some spawning }

/-- The end of the results arm. -/
def resume (s : Session) : Session := { s with handshakePending := false }

def deliverSingle (s : Session) (w : Work) (result : WorkResult) (sendOk notifyOk : Bool) :
    Session :=
  let s := s.forget w.call.id
  match result.response with
  | some r =>
      let s := if r.lifecycle.isSome then s.suspendAuthorizedWork else s
      if s.closed || !sendOk then s.shut
      else
        let s := s.push (.response r)
        if w.activateAfterSuccess && r.success then
          s.activateThen ⟨result.succeeded, false⟩
        else
          match r.lifecycle with
          | some failure => (s.handleLifecycleFailure failure notifyOk).shut
          | none =>
              if w.closeAfterError && !r.success then s.shut else s.resume
  | none =>
      if w.activateAfterSuccess then s.activateThen ⟨result.succeeded, false⟩ else s.resume

/-- A result entered into its batch. -/
def absorb (batch : BatchAssembly) (w : Work) (result : WorkResult) : BatchAssembly :=
  let activates := w.activateAfterSuccess &&
    (match result.response with
      | some r => r.success
      | none => true)
  let batch := { batch with
    activateAfterSuccess := batch.activateAfterSuccess || activates
    succeeded := batch.succeeded || (activates && result.succeeded)
    pending := if w.countsTowardBatch then batch.pending - 1 else batch.pending }
  match result.response with
  | some r => batch.push r w.closeAfterError
  | none => batch

/-- The results arm for a batch whose last pending member has finished. -/
def completeBatch (s : Session) (batch : BatchAssembly) (sendOk notifyOk : Bool) : Session :=
  match s.flushBatch batch sendOk with
  | none => s.shut
  | some s =>
      let s := s.release batch
      match batch.lifecycle with
      | some failure => (s.handleLifecycleFailure failure notifyOk).shut
      | none =>
          if batch.activateAfterSuccess then
            s.activateThen ⟨batch.succeeded, batch.closeAfterError⟩
          else if batch.closeAfterError then s.shut
          else s.resume

def deliverBatch (s : Session) (batchId : Nat) (w : Work) (result : WorkResult)
    (sendOk notifyOk : Bool) : Session :=
  let s := if (result.response.bind PreparedResponse.lifecycle).isSome then
      s.suspendAuthorizedWork
    else s
  match s.batches.row batchId with
  | none => s.resume
  | some batch =>
      let batch := absorb batch w result
      if batch.pending = 0 then
        { s with batches := s.batches.erase batchId }.completeBatch batch sendOk notifyOk
      else { s with batches := s.batches.upsert batchId batch }.resume

/-- The results arm. -/
def deliver (s : Session) (w : Work) (result : WorkResult) (sendOk notifyOk : Bool) : Session :=
  match w.destination with
  | .single => s.deliverSingle w result sendOk notifyOk
  | .batch batchId => s.deliverBatch batchId w result sendOk notifyOk

/-- The control lane's `Open` and `CreateDevSession`, with `bind` and `mark_anonymous`: a
success needs a session in the right state and changes it; a failure changes nothing. -/
def handshake (s : Session) (method : String) (succeeded authenticated : Bool) :
    Option Session :=
  if !succeeded then some s
  else if method = "session.open" then
    if s.opened || (authenticated && (!s.accepting || s.bound)) then none
    else some { s with opened := true, bound := s.bound || authenticated }
  else if method = "auth.createDevSession" then
    if !s.opened || s.bound || !s.accepting then none
    else some { s with bound := true }
  else some s

/-- The worker after `dispatch_call`, its response prepared. -/
def finish (w : Work) (origin : Origin) (outcome : DispatchOutcome) : Work :=
  let result : WorkResult :=
    { response := w.call.id.map fun id =>
        prepareResponse origin ⟨id, outcome.outcome⟩ outcome.oversized
      succeeded := decide (outcome.outcome = .success) }
  { w with result := some result }

/-- The session loop is at its `select!`. -/
def waiting (s : Session) : Bool := !s.ended && s.spawning.isNone

end Session

inductive SessionEvent where
  | input (message : RpcMessage) (choice : Nat → Choice) (sendOk notifyOk : Bool)
  | malformed (code : RpcErrorCode) (prepared sendOk : Bool)
  | oversized (id : Option RpcId) (prepared sendOk : Bool)
  | dispatch (origin : Origin) (outcome : DispatchOutcome)
  | abort (origin : Origin)
  | deliver (origin : Origin) (sendOk notifyOk : Bool)
  | spawn
  | guardFailure (failure : RpcLifecycleFailure) (notifyOk : Bool)
  | leave
  | close

namespace Session

/-- One step of the session, in any order the tasks may run in. A worker that panics or
cannot prepare its response closes the transport (`abort`); the loop is left when the input
ends, the anonymous deadline passes or the transport is closed (`leave`). -/
def step (s : Session) : SessionEvent → Option Session
  | .input message choice sendOk notifyOk =>
      if s.waiting && !s.handshakePending then some (s.receive message choice sendOk notifyOk)
      else none
  | .malformed code prepared sendOk =>
      if s.waiting && !s.handshakePending then
        let t := s.log .malformed
        some (if prepared then
          t.send (.response (prepareResponse ⟨s.received.length, 0⟩ (.error .null (.new code))
            false)) sendOk
        else t.shut)
      else none
  | .oversized id prepared sendOk =>
      if s.waiting && !s.handshakePending then
        some ((s.log .malformed).offerLast
          (if prepared then
            id.map fun id => prepareResponse ⟨s.received.length, 0⟩
              (.error id (.new .payloadTooLarge)) false
          else none) sendOk)
      else none
  | .dispatch origin outcome =>
      (s.works.row origin).bind fun w =>
        if w.result.isSome then none
        else (s.handshake w.call.method (decide (outcome.outcome = .success))
            outcome.authenticated).map fun t =>
          { t with works := t.works.upsert origin (finish w origin outcome) }
  | .abort origin =>
      (s.works.row origin).map fun _ =>
        { s with works := s.works.erase origin, closed := true }
  | .deliver origin sendOk notifyOk =>
      if s.waiting then
        (s.works.row origin).bind fun w => w.result.map fun result =>
          { s with works := s.works.erase origin }.deliver w result sendOk notifyOk
      else none
  | .spawn =>
      s.spawning.map fun spawning =>
        let t := { s with
          spawning := none
          guards := if s.bound then s.guards + 1 else s.guards }
        if spawning.closeAfterError then t.shut else t.resume
  | .guardFailure failure notifyOk =>
      if s.waiting then some (s.handleLifecycleFailure failure notifyOk).shut else none
  | .leave => if s.waiting then some s.shut else none
  | .close => some { s with closed := true }

/-- The call at a place of the input. -/
def callAt (s : Session) (origin : Origin) : Option RpcCall :=
  ((s.received[origin.frame]?).bind fun r => r.items[origin.item]?).bind RpcItem.call?

/-- The frames queued in answer to input frame `n`. -/
def answers (s : Session) (n : Nat) : List Frame := s.sent.filter (Frame.answers n)

/-- Nothing stands in the way of a call. -/
def free : Choice := ⟨true, false, true, false⟩

/-- The first message opens an authenticated session. -/
def opening : List SessionEvent :=
  [.input (.single (.call ⟨some (.string "o"), "session.open"⟩)) (fun _ => free) true true,
    .dispatch ⟨0, 0⟩ ⟨.success, true, false⟩, .deliver ⟨0, 0⟩ true true, .spawn]

end Session

end Chahua.Rpc

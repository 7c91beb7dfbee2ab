import Chahua.Rpc.Protocol
import Chahua.Framework.Run
import Mathlib

namespace Chahua.Rpc

open Framework

inductive WatchKind where
  | presence | unread | states
  deriving DecidableEq, Repr

/-- A watch as its subscription channel holds it. `serial` numbers the installation and is
kept for the statements only. -/
structure Watch where
  serial : Nat
  generation : Nat
  requestId : Nat
  deriving DecidableEq, Repr

/-- The tasks that take `event_gate`: the control lane, the session loop, the registry
forwarder and the publisher of each kind. -/
inductive Actor where
  | control | session | registry
  | publisher (kind : WatchKind)
  deriving DecidableEq, Repr

/-- A frame of the output queue; `ack` answers the replacement with that serial. -/
inductive OutputFrame where
  | response
  | ack (kind : WatchKind) (serial : Nat)
  | watch (kind : WatchKind) (event : Watch)
  | registry
  | lifecycle (failure : RpcLifecycleFailure)
  deriving DecidableEq, Repr

namespace OutputFrame

/-- Sent by a forwarder or a publisher. -/
def isEvent : OutputFrame → Bool
  | .watch _ _ => true
  | .registry => true
  | _ => false

/-- The sender holds `event_gate` until the frame is queued. -/
def gated : OutputFrame → Bool
  | .response => false
  | .ack _ _ => false
  | _ => true

/-- The sender also keeps the session state locked. -/
def locking : OutputFrame → Bool
  | .watch _ _ => true
  | _ => false

end OutputFrame

/-- The critical sections behind `event_gate`. -/
inductive GateTask where
  | replace (kind : WatchKind) (requestId : Option Nat)
  | publish (kind : WatchKind) (event : Watch)
  | forward
  | suspend
  | fail (failure : RpcLifecycleFailure)
  deriving DecidableEq, Repr

/-- Where a task is between two awaits: it waits for the gate, holds it and waits for the
state, waits for room in the output queue, or has room. -/
inductive Pc where
  | idle
  | gate (task : GateTask)
  | state (task : GateTask)
  | sending (frame : OutputFrame)
  | reserved (frame : OutputFrame)
  | closing
  | stopped
  deriving DecidableEq, Repr

namespace Pc

def holdsGate : Pc → Bool
  | .state _ => true
  | .sending frame => frame.gated
  | .reserved frame => frame.gated
  | .closing => true
  | _ => false

def holdsState : Pc → Bool
  | .sending frame => frame.locking
  | .reserved frame => frame.locking
  | _ => false

end Pc

/-- A queued frame and the subscriptions at that moment. -/
structure Queued where
  frame : OutputFrame
  subscriptions : WatchKind → Option Watch

/-- `SessionShared` and the tasks around it. `stateLock` only names holders that await with
the state locked. `installations`, `installed` and `suspendedAt` (how many frames were queued
when the session stopped accepting) are kept for the statements only. -/
structure SessionShared where
  eventGate : Option Actor
  stateLock : Option Actor
  accepting : Bool
  lifecycleNotified : Bool
  activated : Bool
  bound : Option (WatchKind → Option Watch)
  nextWatchGeneration : Nat
  closed : Bool
  pc : Actor → Pc
  replies : List (WatchKind × Nat)
  sent : List Queued
  installations : Nat
  installed : List (WatchKind × Watch)
  suspendedAt : Option Nat

/-- `wrapping_add(1)`, skipping zero. -/
def nextGeneration (generation : Nat) : Nat :=
  let next := (generation + 1) % 2 ^ 64
  if next = 0 then 1 else next

namespace SessionShared

def init : SessionShared where
  eventGate := none
  stateLock := none
  accepting := true
  lifecycleNotified := false
  activated := false
  bound := none
  nextWatchGeneration := 0
  closed := false
  pc := fun _ => .idle
  replies := []
  sent := []
  installations := 0
  installed := []
  suspendedAt := none

def subscription (s : SessionShared) (kind : WatchKind) : Option Watch :=
  s.bound.bind fun subscriptions => subscriptions kind

def currentWatchMatches (s : SessionShared) (kind : WatchKind) (event : Watch) : Bool :=
  (s.subscription kind).any fun watch =>
    decide (watch.generation = event.generation) && decide (watch.requestId = event.requestId)

def goto (s : SessionShared) (a : Actor) (pc : Pc) : SessionShared :=
  { s with pc := Function.update s.pc a pc }

/-- Both guards are dropped at the end of a critical section. -/
def release (s : SessionShared) (a : Actor) : SessionShared :=
  { s with
    eventGate := if s.eventGate = some a then none else s.eventGate
    stateLock := if s.stateLock = some a then none else s.stateLock }

/-- `accepting = false`. -/
def stopAccepting (s : SessionShared) : SessionShared :=
  { s with accepting := false, suspendedAt := some (s.suspendedAt.getD s.sent.length) }

/-- `replace_presence_watch` and its siblings, with both locks. The generation advances even
without a bound session. -/
def replaceWatch (s : SessionShared) (kind : WatchKind) (requestId : Option Nat) :
    SessionShared :=
  if !s.accepting then s
  else
    let generation := nextGeneration s.nextWatchGeneration
    let serial := s.installations + 1
    let s := { s with nextWatchGeneration := generation, installations := serial }
    match s.bound with
    | none => s
    | some subscriptions =>
        let watch := requestId.map fun requestId => (⟨serial, generation, requestId⟩ : Watch)
        { s with
          bound := some (Function.update subscriptions kind watch)
          replies := s.replies ++ [(kind, serial)]
          installed := s.installed ++ (watch.map fun watch => (kind, watch)).toList }

/-- A critical section from the moment it has the state lock up to its next await. -/
def execute (s : SessionShared) (a : Actor) : GateTask → SessionShared
  | .replace kind requestId => ((s.replaceWatch kind requestId).release a).goto a .idle
  | .publish kind event =>
      if s.closed || !s.accepting || !s.activated || !s.currentWatchMatches kind event then
        (s.release a).goto a .idle
      else ({ s with stateLock := some a } : SessionShared).goto a (.sending (.watch kind event))
  | .forward =>
      if s.closed || !s.accepting then (s.release a).goto a .idle
      else s.goto a (.sending .registry)
  | .suspend => (s.stopAccepting.release a).goto a .idle
  | .fail failure =>
      if s.lifecycleNotified then (s.release a).goto a .stopped
      else ({ s.stopAccepting with lifecycleNotified := true } : SessionShared).goto a
        (.sending (.lifecycle failure))

/-- Who may start what. A snapshot may have been computed for any earlier installation. -/
def allowed (s : SessionShared) : Actor → GateTask → Bool
  | .control, .replace _ _ => true
  | .publisher kind, .publish kind' event =>
      decide (kind' = kind) && s.activated && decide ((kind, event) ∈ s.installed)
  | .registry, .forward => s.activated
  | .session, .suspend => true
  | .session, .fail _ => true
  | _, _ => false

/-- The frame is queued; only the lifecycle notification keeps the gate. -/
def enqueue (s : SessionShared) (a : Actor) (frame : OutputFrame) : SessionShared :=
  let s : SessionShared := { s with sent := s.sent ++ [⟨frame, s.subscription⟩] }
  match frame with
  | .lifecycle _ => s.goto a .closing
  | _ => (s.release a).goto a .idle

/-- A failed send closes the transport and ends the task; the result of the lifecycle
notification is ignored. -/
def sendFailed (s : SessionShared) (a : Actor) (frame : OutputFrame) : SessionShared :=
  let s : SessionShared := { s with closed := true }
  match frame with
  | .lifecycle _ => s.goto a .closing
  | _ => (s.release a).goto a .stopped

end SessionShared

inductive GateEvent where
  | bind
  | activate
  | start (a : Actor) (task : GateTask)
  | lock (a : Actor)
  | run (a : Actor)
  | respond (ack : Option (WatchKind × Nat))
  | reserve (a : Actor)
  | enqueue (a : Actor)
  | sendFails (a : Actor)
  | finish
  | leave
  | deregister
  | close
  deriving DecidableEq, Repr

namespace SessionShared

/-- One step of one task between two awaits. -/
def step (s : SessionShared) : GateEvent → Option SessionShared
  | .bind =>
      if s.pc .control = .idle ∧ s.stateLock = none ∧ s.accepting = true ∧ s.bound = none then
        some { s with bound := some fun _ => none }
      else none
  | .activate =>
      if s.pc .session = .idle ∧ s.stateLock = none ∧ s.accepting = true ∧ s.bound.isSome then
        some { s with activated := true }
      else none
  | .start a task =>
      if s.pc a = .idle ∧ s.allowed a task = true then some (s.goto a (.gate task)) else none
  | .lock a =>
      match s.pc a with
      | .gate task =>
          if s.eventGate = none then
            some (({ s with eventGate := some a } : SessionShared).goto a (.state task))
          else none
      | _ => none
  | .run a =>
      match s.pc a with
      | .state task => if s.stateLock = none then some (s.execute a task) else none
      | _ => none
  | .respond ack =>
      if s.pc .session = .idle then
        match ack with
        | none => some (s.goto .session (.sending .response))
        | some reply =>
            if reply ∈ s.replies then
              some (({ s with replies := s.replies.erase reply } : SessionShared).goto .session
                (.sending (.ack reply.1 reply.2)))
            else none
      else none
  | .reserve a =>
      match s.pc a with
      | .sending frame => if s.closed then none else some (s.goto a (.reserved frame))
      | _ => none
  | .enqueue a =>
      match s.pc a with
      | .reserved frame => some (s.enqueue a frame)
      | _ => none
  | .sendFails a =>
      match s.pc a with
      | .sending frame => some (s.sendFailed a frame)
      | _ => none
  | .finish =>
      if s.pc .session = .closing then
        some ((({ s with closed := true } : SessionShared).release .session).goto .session .stopped)
      else none
  | .leave =>
      if s.pc .session = .idle then
        some (({ s with closed := true } : SessionShared).goto .session .stopped)
      else none
  | .deregister =>
      if s.pc .session = .stopped ∧ s.stateLock = none then some { s with bound := none }
      else none
  | .close => some { s with closed := true }

end SessionShared

end Chahua.Rpc

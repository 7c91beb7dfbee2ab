import Chahua.Framework.Layers
import Chahua.Framework.Run

namespace Chahua.Chats

open Framework Framework.Layers

inductive StateField
  | archived
  | mutedUntil
  | muteOverride
  deriving DecidableEq

def stateFields : List StateField := [.archived, .mutedUntil, .muteOverride]

theorem mem_stateFields (k : StateField) : k ∈ stateFields := by
  cases k <;> simp [stateFields]

/-- A value of the field; `none` is `undefined`. -/
def StateField.Value : StateField → Type
  | archived => Option Bool
  | mutedUntil => Option String
  | muteOverride => Option Bool

instance : (k : StateField) → DecidableEq k.Value
  | .archived => inferInstanceAs (DecidableEq (Option Bool))
  | .mutedUntil => inferInstanceAs (DecidableEq (Option String))
  | .muteOverride => inferInstanceAs (DecidableEq (Option Bool))

def StateField.undefined : (k : StateField) → k.Value
  | archived => (none : Option Bool)
  | mutedUntil => (none : Option String)
  | muteOverride => (none : Option Bool)

abbrev ChatValues := ∀ k : StateField, k.Value

/-- A partial state: `none` for a key it does not have. -/
abbrev ChatState := ∀ k : StateField, Option k.Value

/-- A running `changeChatState`: what it closes over, and what became of its request. -/
structure ChangeCall where
  state : ChatState
  previous : Option ChatValues
  version : Nat
  outcome : Outcome StateField.Value

def ChangeCall.shows (c : ChangeCall) (k : StateField) : Option k.Value := c.outcome.shows c.state k

def ChangeCall.left (c : ChangeCall) (k : StateField) : Option k.Value := c.outcome.left c.state k

/-- A list or detail read and its version, with the fields some write in flight set when it
started, and those of them without a pending mark. -/
structure ChatRead where
  version : Nat
  inFlight : StateField → Bool
  unmarked : StateField → Bool

/-- One chat in the store; `settled` is its state before the writes. -/
structure ChatCell where
  settled : ChatValues
  version : Nat
  value : ChatValues
  stateVersion : Nat
  stateVersions : StateField → Nat
  pendingStateWrites : StateField → Option Nat
  calls : List ChangeCall
  reads : List ChatRead

namespace ChatCell

def chatState (s : ChatCell) : Option ChatValues :=
  if s.stateVersion = 0 then none else some s.value

def accepts (s : ChatCell) (version : Nat) (fromRead : Bool) (k : StateField) : Bool :=
  !(fromRead && (s.pendingStateWrites k).isSome) && decide (s.stateVersions k ≤ version)

def applyChatStates (state : ChatState) (version : Nat) (fromRead : Bool) (s : ChatCell) :
    ChatCell :=
  { s with
    value := fun k => if s.accepts version fromRead k then (state k).getD (s.value k) else s.value k
    stateVersions := fun k =>
      if s.accepts version fromRead k ∧ (state k).isSome then version else s.stateVersions k
    stateVersion := max s.stateVersion version }

def snapshot (s : ChatCell) : ChatCell := { s with version := s.version + 1 }

/-- With the default version, a new snapshot. -/
def applyChatState (state : ChatState) (s : ChatCell) : ChatCell :=
  applyChatStates state (s.version + 1) false s.snapshot

/-- The call still owns the field: its pending mark and its version stand. -/
def owns (s : ChatCell) (c : ChangeCall) (k : StateField) : Bool :=
  (c.state k).isSome && decide (s.pendingStateWrites k = some c.version) &&
    decide (s.stateVersions k = c.version)

def applyCurrent (c : ChangeCall) (next : Option ChatValues) (s : ChatCell) : ChatCell :=
  applyChatState
    (fun k => if s.owns c k then some ((next.map fun values => values k).getD k.undefined) else none)
    s

def clearPending (c : ChangeCall) (s : ChatCell) : ChatCell :=
  { s with
    pendingStateWrites := fun k =>
      if s.pendingStateWrites k = some c.version then none else s.pendingStateWrites k }

/-- The part of `changeChatState` before its request. -/
def startChange (state : ChatState) (s : ChatCell) : ChatCell :=
  let version := s.version + 1
  let marked := { s.snapshot with
    pendingStateWrites := fun k =>
      if (state k).isSome then some version else s.pendingStateWrites k }
  let shown := applyChatStates state version false marked
  { shown with calls := s.calls ++ [⟨state, s.chatState, version, .pending⟩] }

/-- The part after it, with the values to apply where the call still owns the field. -/
def finishChange (i : Nat) (c : ChangeCall) (next : Option ChatValues)
    (outcome : Outcome StateField.Value) (s : ChatCell) : ChatCell :=
  let applied := clearPending c (applyCurrent c next s)
  { applied with calls := s.calls.set i { c with outcome } }

/-- What a write that succeeded set: the confirmed values, or its own after a 204. -/
def confirmedValues (c : ChangeCall) (confirmed : Option ChatValues) : ChatValues :=
  confirmed.getD fun k => (c.state k).getD k.undefined

inductive ChatEvent
  | start (state : ChatState)
  | succeed (call : Nat) (confirmed : Option ChatValues)
  | fail (call : Nat)
  | startRead
  | finishRead (read : Nat) (answer : ChatState)
  | tick

/-- What the calls that have not failed leave in the field, in the order they started. -/
def shown (s : ChatCell) : ChatValues := Layers.shown ChangeCall.shows s.settled s.calls

/-- A write of the field was in flight at some time between the read's start and now. -/
def overlaps (s : ChatCell) (r : ChatRead) (k : StateField) : Bool :=
  r.inFlight k || s.calls.any fun c => decide (r.version < c.version) && (c.state k).isSome

/-- Nobody else changes the chat: where no write overlaps the read, it finds what the writes
before it left. -/
def answers (s : ChatCell) (r : ChatRead) (answer : ChatState) : Bool :=
  stateFields.all fun k =>
    s.overlaps r k || decide (answer k = none) || decide (answer k = some (s.shown k))

def step (s : ChatCell) : ChatEvent → Option ChatCell
  | .start state => some (startChange state s)
  | .succeed i confirmed => do
    let c ← s.calls[i]?
    if c.outcome.isPending then
      let values := confirmedValues c confirmed
      some (finishChange i c (some values) (.succeeded values) s)
    else none
  | .fail i => do
    let c ← s.calls[i]?
    if c.outcome.isPending then some (finishChange i c c.previous .failed s) else none
  | .startRead =>
    let inFlight := fun k => s.calls.any fun c => c.outcome.isPending && (c.state k).isSome
    let unmarked := fun k => inFlight k && decide (s.pendingStateWrites k = none)
    some { s.snapshot with reads := s.reads ++ [⟨s.version + 1, inFlight, unmarked⟩] }
  | .finishRead j answer => do
    let r ← s.reads[j]?
    if s.answers r answer then some (applyChatStates answer r.version true s) else none
  | .tick => some s.snapshot

/-- No write is in flight. -/
def Quiet (s : ChatCell) : Prop := ∀ c ∈ s.calls, c.outcome.isPending = false

instance (s : ChatCell) : Decidable s.Quiet :=
  inferInstanceAs (Decidable (∀ c ∈ s.calls, c.outcome.isPending = false))

/-- A known state, before any write of the run. -/
structure Settled (s : ChatCell) : Prop where
  calls : s.calls = []
  reads : s.reads = []
  unmarked : ∀ k, s.pendingStateWrites k = none
  value : s.value = s.settled
  versions : ∀ k, s.stateVersions k ≤ s.version

/-- The value the earlier writes leave in the field. -/
def before (s : ChatCell) (i : Nat) : ChatValues :=
  Layers.shown ChangeCall.shows s.settled (s.calls.take i)

def Superseded (s : ChatCell) (i : Nat) (k : StateField) : Prop :=
  Covered ChangeCall.shows s.calls i k

/-- What the chat's events must meet. A write that fails has saved, for each field it still
owns, the value the earlier writes leave there now; for a field it no longer owns, a later
write that has not failed sets it, or it had set just that value. A write that succeeds still
owns the field, or a later write sets it, or its own value is confirmed. A read accepted for a
field that an unmarked write had in flight at its start finds what the writes leave. -/
def Traceless (s : ChatCell) : ChatEvent → Prop
  | .fail i => ∀ c, s.calls[i]? = some c → ∀ k v, c.state k = some v →
    if s.owns c k then (c.previous.map fun values => values k).getD k.undefined = s.before i k
    else s.Superseded i k ∨ v = s.before i k
  | .succeed i confirmed => ∀ c, s.calls[i]? = some c → ∀ k v, c.state k = some v →
    s.owns c k ∨ s.Superseded i k ∨ confirmedValues c confirmed k = v
  | .finishRead j answer => ∀ r, s.reads[j]? = some r → ∀ k v, answer k = some v →
    r.unmarked k → s.accepts r.version true k → v = s.shown k
  | _ => True

end ChatCell

end Chahua.Chats

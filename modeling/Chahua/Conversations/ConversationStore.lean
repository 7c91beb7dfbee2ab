import Chahua.Conversations.MessageMerge
import Chahua.Framework.Run

namespace Chahua.Conversations

universe u

structure MessageRange (M : Type u) where
  messages : List M
  olderCursor : Option Nat
  newerCursor : Option Nat

inductive MessagePageParams where
  | latest
  | around (id : Nat)
  | before (id : Nat)
  | after (id : Nat)
  deriving DecidableEq

def MessagePageParams.admits : MessagePageParams → Nat → Bool
  | .before cursor, x => decide (x < cursor)
  | .after cursor, x => decide (cursor < x)
  | _, _ => true

inductive PageDirection where
  | older
  | newer
  deriving DecidableEq

/-- A list response, with the ids the server had when it made it. -/
structure Answer (M : Type u) where
  range : MessageRange M
  seen : List Nat

/-- An `open` waiting for its response: the first one is kept while the second is fetched, and
`arrived` are the ids received since the call. -/
structure Opening (M : Type u) where
  around : Option Nat
  exact : Bool
  base : Option (Answer M)
  answer : Option (Answer M)
  arrived : List Nat

/-- A `load` waiting for its response. -/
structure Paging (M : Type u) where
  direction : PageDirection
  cursor : Nat
  answer : Option (Answer M)

/-- One context of the conversation store and the server it reads. `received` are the ids received
since the page's `open` was called, `deferred` those received while a later one is loading. -/
structure ConversationStore (M : Type u) where
  page : Option (MessageRange M)
  latestSeenId : Option Nat
  needsResync : Bool
  retryNewer : Bool
  opening : Option (Opening M)
  paging : Option (Paging M)
  visible : List Nat
  received : List Nat
  deferred : List Nat

inductive ConversationStore.Event (M : Type u) where
  | publish (id : Nat)
  | receive (message : M)
  | open (around : Option Nat) (exact : Bool)
  | serveOpen (range : MessageRange M)
  | answerOpen
  | failOpen
  | load (direction : PageDirection)
  | serveLoad (range : MessageRange M)
  | answerLoad
  | failLoad
  | reconnect

variable {M : Type u} [TimelineMessage M]

open TimelineMessage (messageId isVisible)

/-- The edge of a response that its parameters leave without a cursor. -/
def MessagePageParams.EdgeOf (range : MessageRange M) : MessagePageParams → Prop
  | .latest => range.newerCursor = none
  | .around _ => True
  | .before _ => range.newerCursor = none
  | .after _ => range.olderCursor = none

/-- An exact window of a server state, with a cursor at each edge that leaves something out. -/
structure Exact (seen : List Nat) (params : MessagePageParams) (range : MessageRange M) : Prop where
  ascending : Ascending range.messages
  sound : ∀ x ∈ ids range.messages, x ∈ seen ∧ params.admits x = true
  complete : ∀ x ∈ seen, params.admits x = true → (∀ o ∈ range.olderCursor, o ≤ x) →
    (∀ n ∈ range.newerCursor, x ≤ n) → x ∈ ids range.messages
  older : ∀ o ∈ range.olderCursor, (ids range.messages).head? = some o
  newer : ∀ n ∈ range.newerCursor, (ids range.messages).getLast? = some n
  edge : params.EdgeOf range

instance (messages : List M) : Decidable (Ascending messages) :=
  inferInstanceAs (Decidable (List.Pairwise _ _))

instance (range : MessageRange M) (params : MessagePageParams) : Decidable (params.EdgeOf range) :=
  match params with
  | .latest | .before _ => inferInstanceAs (Decidable (range.newerCursor = none))
  | .around _ => inferInstanceAs (Decidable True)
  | .after _ => inferInstanceAs (Decidable (range.olderCursor = none))

instance (seen : List Nat) (params : MessagePageParams) (range : MessageRange M) :
    Decidable (Exact seen params range) :=
  decidable_of_iff
    (Ascending range.messages ∧ (∀ x ∈ ids range.messages, x ∈ seen ∧ params.admits x = true) ∧
      (∀ x ∈ seen, params.admits x = true → (∀ o ∈ range.olderCursor, o ≤ x) →
        (∀ n ∈ range.newerCursor, x ≤ n) → x ∈ ids range.messages) ∧
      (∀ o ∈ range.olderCursor, (ids range.messages).head? = some o) ∧
      (∀ n ∈ range.newerCursor, (ids range.messages).getLast? = some n) ∧ params.EdgeOf range)
    ⟨fun ⟨h₁, h₂, h₃, h₄, h₅, h₆⟩ => ⟨h₁, h₂, h₃, h₄, h₅, h₆⟩,
      fun h => ⟨h.ascending, h.sound, h.complete, h.older, h.newer, h.edge⟩⟩

def MessageRange.lastId (range : MessageRange M) : Option Nat := (ids range.messages).getLast?

def MessageRange.cursor (range : MessageRange M) : PageDirection → Option Nat
  | .older => range.olderCursor
  | .newer => range.newerCursor

/-- `isVisibleMessage` holds of the target, and the range has it. -/
def MessageRange.shows (range : MessageRange M) (around : Option Nat) : Bool :=
  range.messages.any fun message => some (messageId message) == around && isVisible message

def Paging.params (paging : Paging M) : MessagePageParams :=
  match paging.direction with
  | .older => .before paging.cursor
  | .newer => .after paging.cursor

def Opening.params (opening : Opening M) : MessagePageParams :=
  match opening.base with
  | none => opening.around.elim .latest .around
  | some base => base.range.lastId.elim .latest .after

/-- The page an `open` ends with: a second response continues the first. -/
def Opening.result (opening : Opening M) (answer : Answer M) : Answer M :=
  match opening.base with
  | none => answer
  | some base =>
    match base.range.lastId with
    | none => answer
    | some lastId =>
      { range :=
          { messages := mergeMessages base.range.messages answer.range.messages
            olderCursor := base.range.olderCursor
            newerCursor := answer.range.newerCursor }
        seen := base.seen.filter (fun x => x ≤ lastId) ++ answer.seen.filter (fun x => lastId < x) }

def Opening.missing (opening : Opening M) (answer : Answer M) : Bool :=
  opening.exact && !(opening.result answer).range.shows opening.around

namespace ConversationStore

def loading (s : ConversationStore M) : Bool := s.opening.isSome

def atLatest (s : ConversationStore M) : Bool :=
  s.page.any (fun page => page.newerCursor.isNone) && !s.loading

def withLiveCursor (s : ConversationStore M) (page : MessageRange M) : MessageRange M :=
  match page.lastId with
  | none => page
  | some lastId =>
    if page.newerCursor.isNone && (s.needsResync || s.latestSeenId.any fun seen => lastId < seen) then
      { page with newerCursor := some lastId }
    else page

/-- The requests in flight end with the page they found. -/
def settle (s : ConversationStore M) : ConversationStore M :=
  { s with opening := none, received := s.received ++ s.deferred, deferred := [] }

/-- `open` returns at once on a page that already answers it. -/
def upToDate (s : ConversationStore M) (around : Option Nat) (exact : Bool) : Bool :=
  !s.needsResync && ((exact && s.page.any fun page => page.shows around) ||
    (around.isNone && s.page.any fun page => page.newerCursor.isNone))

def openAt (s : ConversationStore M) (around : Option Nat) (exact : Bool) : ConversationStore M :=
  let s := { s with retryNewer := false, paging := none }
  if s.upToDate around exact then s.settle
  else { s with needsResync := false, opening := some ⟨around, exact, none, none, []⟩ }

/-- A first response that missed a reconnect, or that is empty although messages were received,
is followed by a second request. -/
def refetches (s : ConversationStore M) (opening : Opening M) (answer : Answer M) : Bool :=
  opening.base.isNone && ((answer.range.newerCursor.isNone && s.needsResync) ||
    (answer.range.messages.isEmpty && s.latestSeenId.isSome))

def answerOpen (s : ConversationStore M) (opening : Opening M) (answer : Answer M) :
    ConversationStore M :=
  if s.refetches opening answer then
    { s with
      needsResync := false
      opening := some { opening with base := some answer, answer := none } }
  else if opening.missing answer then s.settle
  else
    { s with
      page := some (s.withLiveCursor (opening.result answer).range)
      opening := none
      received := opening.arrived
      deferred := [] }

def failOpen (s : ConversationStore M) : ConversationStore M :=
  { s.settle with needsResync := true }

def canLoad (s : ConversationStore M) (direction : PageDirection) : Bool :=
  s.page.any (fun page => (page.cursor direction).isSome) && !s.loading && s.paging.isNone

def load (s : ConversationStore M) (direction : PageDirection) : ConversationStore M :=
  if s.canLoad direction then
    match s.page.bind fun page => page.cursor direction with
    | none => s
    | some cursor =>
      { s with
        needsResync := s.needsResync && direction = .older
        paging := some ⟨direction, cursor, none⟩ }
  else s

def mergePage (s : ConversationStore M) (direction : PageDirection) (page range : MessageRange M) :
    MessageRange M :=
  let messages := mergeMessages page.messages range.messages
  match direction with
  | .older => { page with messages, olderCursor := range.olderCursor }
  | .newer => s.withLiveCursor { page with messages, newerCursor := range.newerCursor }

def answerLoad (s : ConversationStore M) (paging : Paging M) (answer : Answer M) :
    ConversationStore M :=
  { s with
    page := s.page.map fun page => s.mergePage paging.direction page answer.range
    retryNewer := s.retryNewer && paging.direction = .older
    paging := none }

def see (s : ConversationStore M) (message : M) : ConversationStore M :=
  { s with
    latestSeenId := some (s.latestSeenId.elim (messageId message) fun seen =>
      if messageId message > seen then messageId message else seen) }

/-- The message is passed to `receive`: a page at the latest edge takes it. -/
def receive (s : ConversationStore M) (message : M) : ConversationStore M :=
  let s := s.see message
  match s.opening with
  | some opening =>
    { s with
      opening := some { opening with arrived := opening.arrived ++ [messageId message] }
      deferred := s.deferred ++ [messageId message] }
  | none =>
    { s with
      page := if s.atLatest then
          s.page.map fun page => { page with messages := mergeMessages page.messages [message] }
        else s.page
      received := s.received ++ [messageId message] }

def reconnect (s : ConversationStore M) : ConversationStore M :=
  if s.retryNewer then load { s with needsResync := true } .newer
  else if s.atLatest then
    match s.page.bind fun page => page.lastId with
    | none => openAt { s with needsResync := true } none false
    | some lastId =>
      load
        { s with
          page := s.page.map fun page => { page with newerCursor := some lastId }
          needsResync := false
          retryNewer := true }
        .newer
  else { s with needsResync := true }

/-- A response is made from the messages visible at that moment; a message is received once
it is visible. -/
def step (s : ConversationStore M) : Event M → Option (ConversationStore M)
  | .publish id => some { s with visible := s.visible ++ [id] }
  | .receive message => if messageId message ∈ s.visible then some (s.receive message) else none
  | .open around exact => some (s.openAt around exact)
  | .serveOpen range =>
    s.opening.bind fun opening =>
      if opening.answer.isNone ∧ Exact s.visible opening.params range then
        some { s with opening := some { opening with answer := some ⟨range, s.visible⟩ } }
      else none
  | .answerOpen => s.opening.bind fun opening => opening.answer.map (s.answerOpen opening)
  | .failOpen => if s.loading then some s.failOpen else none
  | .load direction => some (s.load direction)
  | .serveLoad range =>
    s.paging.bind fun paging =>
      if paging.answer.isNone ∧ Exact s.visible paging.params range then
        some { s with paging := some { paging with answer := some ⟨range, s.visible⟩ } }
      else none
  | .answerLoad => s.paging.bind fun paging => paging.answer.map (s.answerLoad paging)
  | .failLoad => if s.paging.isSome then some { s with paging := none } else none
  | .reconnect => some s.reconnect

end ConversationStore

end Chahua.Conversations

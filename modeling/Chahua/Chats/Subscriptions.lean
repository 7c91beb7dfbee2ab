import Chahua.Framework.Layers
import Chahua.Framework.Run

namespace Chahua.Chats

open Framework Framework.Layers

inductive StatusField
  | subscribed
  | archived
  deriving DecidableEq

def statusFields : List StatusField := [.subscribed, .archived]

theorem mem_statusFields (f : StatusField) : f ∈ statusFields := by
  cases f <;> simp [statusFields]

abbrev ThreadSubscriptionStatus := StatusField → Bool

abbrev StatusChange := StatusField → Option Bool

structure Subscription where
  status : Option ThreadSubscriptionStatus
  dirty : Bool
  version : Nat

/-- A running `updateSubscription`. -/
structure UpdateCall where
  change : StatusChange
  previous : Option ThreadSubscriptionStatus
  version : Nat
  outcome : Outcome fun _ : StatusField => Bool

def UpdateCall.shows (c : UpdateCall) (f : StatusField) : Option Bool := c.outcome.shows c.change f

def UpdateCall.left (c : UpdateCall) (f : StatusField) : Option Bool := c.outcome.left c.change f

/-- A list or status read, with the fields some write in flight set when it started. -/
structure StatusRead where
  version : Nat
  inFlight : StatusField → Bool

/-- One thread in the store; `settled` is its status before the writes. -/
structure ThreadCell where
  settled : ThreadSubscriptionStatus
  subscriptionVersion : Nat
  entry : Subscription
  calls : List UpdateCall
  reads : List StatusRead

namespace ThreadCell

def subscriptionSnapshot (s : ThreadCell) : ThreadCell :=
  { s with subscriptionVersion := s.subscriptionVersion + 1 }

def setSubscription (status : Option ThreadSubscriptionStatus) (version : Nat) (s : ThreadCell) :
    ThreadCell :=
  { s with entry := ⟨status.or s.entry.status, status.isNone, version⟩ }

/-- With the default version, a new one. -/
def setNewSubscription (status : Option ThreadSubscriptionStatus) (s : ThreadCell) : ThreadCell :=
  setSubscription status (s.subscriptionVersion + 1) s.subscriptionSnapshot

/-- The part of `updateSubscription` before its request. -/
def startUpdate (change : StatusChange) (s : ThreadCell) : ThreadCell :=
  let previous := s.entry.status
  let shown := match previous with
    | some status => setNewSubscription (some fun f => (change f).getD (status f)) s
    | none => s
  { shown with calls := s.calls ++ [⟨change, previous, shown.entry.version, .pending⟩] }

/-- What the call set, as the values it leaves when it succeeds. -/
def changedValues (c : UpdateCall) : ThreadSubscriptionStatus := fun f => (c.change f).getD false

def succeedUpdate (i : Nat) (c : UpdateCall) (s : ThreadCell) : ThreadCell :=
  let next := if c.previous.isNone then setNewSubscription none s else s
  { next with calls := s.calls.set i { c with outcome := .succeeded (changedValues c) } }

/-- The row still has the version the call gave it. -/
def current (s : ThreadCell) (c : UpdateCall) : Bool := decide (s.entry.version = c.version)

def failUpdate (i : Nat) (c : UpdateCall) (s : ThreadCell) : ThreadCell :=
  let next := if c.previous.isSome && s.current c then setNewSubscription c.previous s else s
  { next with calls := s.calls.set i { c with outcome := .failed } }

/-- `acceptThreads` for a listed thread, and the check of `loadSubscription`. -/
def acceptStatus (status : ThreadSubscriptionStatus) (version : Nat) (s : ThreadCell) : ThreadCell :=
  if s.entry.version ≤ version then setSubscription (some status) version s else s

inductive ThreadEvent
  | start (change : StatusChange)
  | succeed (call : Nat)
  | fail (call : Nat)
  | startRead
  | finishRead (read : Nat) (answer : Option ThreadSubscriptionStatus)
  | tick

/-- What the calls that have not failed leave in the field, in the order they started. -/
def shown (s : ThreadCell) : ThreadSubscriptionStatus :=
  Layers.shown UpdateCall.shows s.settled s.calls

/-- A write of the field was in flight at some time between the read's start and now. -/
def overlaps (s : ThreadCell) (r : StatusRead) (f : StatusField) : Bool :=
  r.inFlight f || s.calls.any fun c => decide (r.version < c.version) && (c.change f).isSome

/-- Nobody else changes the thread: where no write overlaps the read, it finds what the writes
before it left. A list may leave the thread out. -/
def answers (s : ThreadCell) (r : StatusRead) (answer : Option ThreadSubscriptionStatus) : Bool :=
  answer.all fun status => statusFields.all fun f =>
    s.overlaps r f || decide (status f = s.shown f)

def step (s : ThreadCell) : ThreadEvent → Option ThreadCell
  | .start change => some (startUpdate change s)
  | .succeed i => do
    let c ← s.calls[i]?
    if c.outcome.isPending then some (succeedUpdate i c s) else none
  | .fail i => do
    let c ← s.calls[i]?
    if c.outcome.isPending then some (failUpdate i c s) else none
  | .startRead =>
    let inFlight := fun f => s.calls.any fun c => c.outcome.isPending && (c.change f).isSome
    some { s.subscriptionSnapshot with reads := s.reads ++ [⟨s.subscriptionVersion + 1, inFlight⟩] }
  | .finishRead j answer => do
    let r ← s.reads[j]?
    if s.answers r answer then
      some ((answer.map fun status => acceptStatus status r.version s).getD s)
    else none
  | .tick => some s.subscriptionSnapshot

/-- No write is in flight. -/
def Quiet (s : ThreadCell) : Prop := ∀ c ∈ s.calls, c.outcome.isPending = false

instance (s : ThreadCell) : Decidable s.Quiet :=
  inferInstanceAs (Decidable (∀ c ∈ s.calls, c.outcome.isPending = false))

/-- A known status, before any write of the run. -/
structure Settled (s : ThreadCell) : Prop where
  calls : s.calls = []
  reads : s.reads = []
  status : s.entry.status = some s.settled
  version : s.entry.version ≤ s.subscriptionVersion

/-- The value the earlier writes leave in the field. -/
def before (s : ThreadCell) (i : Nat) : ThreadSubscriptionStatus :=
  Layers.shown UpdateCall.shows s.settled (s.calls.take i)

def Superseded (s : ThreadCell) (i : Nat) (f : StatusField) : Prop :=
  Covered UpdateCall.shows s.calls i f

/-- What the thread's events must meet. A write that fails as the last one to touch the row has
saved what the other writes leave now; one that some write or read overtook set only fields
that a later write that has not failed sets, or set them to what the earlier writes leave. An
accepted read finds what the writes leave in the fields a write had in flight at its start. -/
def Traceless (s : ThreadCell) : ThreadEvent → Prop
  | .fail i => ∀ c, s.calls[i]? = some c →
    if s.current c then
      ∀ f, c.previous.map (fun status => status f) =
        some (if (c.change f).isSome then s.before i f else s.shown f)
    else ∀ f v, c.change f = some v → s.Superseded i f ∨ v = s.before i f
  | .finishRead j answer => ∀ r, s.reads[j]? = some r → ∀ status, answer = some status →
    s.entry.version ≤ r.version → ∀ f, r.inFlight f → status f = s.shown f
  | _ => True

variable {S : ThreadSubscriptionStatus} {s t : ThreadCell} {f : StatusField} {c : UpdateCall}
  {i j : Nat}

/-- The row shows what the writes that have not failed leave; its version is that of the last
write or read. -/
structure Tracked (S : ThreadSubscriptionStatus) (s : ThreadCell) : Prop where
  settled : s.settled = S
  status : s.entry.status = some s.shown
  known : ∀ c ∈ s.calls, c.previous.isSome
  ascending : s.calls.Pairwise (·.version < ·.version)
  calls_le : ∀ c ∈ s.calls, c.version ≤ s.entry.version
  entry_le : s.entry.version ≤ s.subscriptionVersion
  reads_le : ∀ r ∈ s.reads, r.version ≤ s.subscriptionVersion

theorem Settled.tracked (h : s.Settled) : Tracked s.settled s where
  settled := rfl
  status := by rw [h.status]; simp [shown, h.calls, funext_iff]
  known := by simp [h.calls]
  ascending := by simp [h.calls]
  calls_le := by simp [h.calls]
  entry_le := h.version
  reads_le := by simp [h.reads]

theorem shows_eq_none (h : c.change f = none) : c.shows f = none := Outcome.shows_eq_none _ h

theorem shows_of_pending (h : c.outcome.isPending = true) : c.shows f = c.change f := by
  cases ho : c.outcome <;> simp [ho, Outcome.isPending, UpdateCall.shows, Outcome.shows] at h ⊢

/-- The call whose version the row has is the last one. -/
theorem Tracked.not_superseded (h : Tracked S s) (hc : s.calls[i]? = some c)
    (hcur : s.current c) : ¬ s.Superseded i f := by
  obtain ⟨hi, rfl⟩ := List.getElem?_eq_some_iff.mp hc
  rintro ⟨d, hd, -⟩
  obtain ⟨j, hj, rfl⟩ := List.mem_iff_getElem.mp hd
  simp only [List.getElem_drop] at hd
  simp only [List.length_drop] at hj
  have hlt := List.pairwise_iff_getElem.mp h.ascending i (i + 1 + j) hi (by omega) (by omega)
  have hle := h.calls_le s.calls[i + 1 + j] (List.getElem_mem _)
  simp only [current, decide_eq_true_eq] at hcur
  omega

theorem startUpdate_shown (change : StatusChange) (f : StatusField) :
    (startUpdate change s).shown f = (change f).getD (s.shown f) := by
  have hcalls : (startUpdate change s).calls = s.calls ++
      [⟨change, s.entry.status, (startUpdate change s).entry.version, .pending⟩] := rfl
  have hsettled : (startUpdate change s).settled = s.settled := by
    simp only [startUpdate]
    cases s.entry.status <;> rfl
  simp only [shown, hcalls, shown_concat, hsettled]
  rfl

theorem Tracked.startUpdate (h : Tracked S s) (change : StatusChange) :
    Tracked S (startUpdate change s) := by
  have hshown : (ThreadCell.startUpdate change s).shown = fun f => (change f).getD (s.shown f) :=
    funext fun f => startUpdate_shown change f
  have heq : ThreadCell.startUpdate change s =
      { setNewSubscription (some fun f => (change f).getD (s.shown f)) s with
        calls := s.calls ++ [⟨change, some s.shown, s.subscriptionVersion + 1, .pending⟩] } := by
    simp only [ThreadCell.startUpdate, h.status]
    rfl
  have hcalls : (ThreadCell.startUpdate change s).calls =
      s.calls ++ [⟨change, some s.shown, s.subscriptionVersion + 1, .pending⟩] := by rw [heq]
  have hversion : (ThreadCell.startUpdate change s).entry.version = s.subscriptionVersion + 1 := by
    rw [heq]
    rfl
  have hclock : (ThreadCell.startUpdate change s).subscriptionVersion =
      s.subscriptionVersion + 1 := by
    rw [heq]
    rfl
  have hcall_le : ∀ d ∈ s.calls, d.version < s.subscriptionVersion + 1 := fun d hd =>
    Nat.lt_succ_of_le (Nat.le_trans (h.calls_le d hd) h.entry_le)
  refine ⟨?_, ?_, ?_, ?_, ?_, ?_, ?_⟩
  · rw [heq]
    exact h.settled
  · rw [hshown, heq]
    rfl
  · intro d hd
    rcases List.mem_append.mp (hcalls ▸ hd) with hd | hd
    · exact h.known d hd
    · rw [List.mem_singleton.mp hd]
      rfl
  · rw [hcalls, List.pairwise_append]
    refine ⟨h.ascending, List.pairwise_singleton _ _, fun d hd e he => ?_⟩
    rw [List.mem_singleton.mp he]
    exact hcall_le d hd
  · intro d hd
    rw [hversion]
    rcases List.mem_append.mp (hcalls ▸ hd) with hd | hd
    · exact Nat.le_of_lt (hcall_le d hd)
    · exact Nat.le_of_eq (by rw [List.mem_singleton.mp hd])
  · exact Nat.le_of_eq (by rw [hversion, hclock])
  · rw [hclock, heq]
    exact fun r hr => Nat.le_succ_of_le (h.reads_le r hr)

/-- A finished call, when the row after it shows what the calls then leave. -/
theorem Tracked.settle (h : Tracked S s) (hc : s.calls[i]? = some c)
    (outcome : Outcome fun _ : StatusField => Bool) {next : ThreadCell}
    (hnext : next = s ∨ next = setNewSubscription c.previous s)
    (hstatus : next.entry.status =
      some (Layers.shown UpdateCall.shows S (s.calls.set i { c with outcome }))) :
    Tracked S { next with calls := s.calls.set i { c with outcome } } := by
  have hmem : ∀ d ∈ s.calls.set i { c with outcome },
      ∃ e ∈ s.calls, e.version = d.version ∧ e.previous = d.previous := by
    intro d hd
    rcases List.mem_or_eq_of_mem_set hd with hd | rfl
    · exact ⟨d, hd, rfl, rfl⟩
    · exact ⟨c, List.mem_of_getElem? hc, rfl, rfl⟩
  have hsettled : next.settled = S := by
    rcases hnext with rfl | rfl <;> exact h.settled
  have hversion : s.entry.version ≤ next.entry.version ∧
      next.entry.version ≤ next.subscriptionVersion ∧
      s.subscriptionVersion ≤ next.subscriptionVersion ∧ next.reads = s.reads := by
    rcases hnext with rfl | rfl
    · exact ⟨Nat.le_refl _, h.entry_le, Nat.le_refl _, rfl⟩
    · exact ⟨Nat.le_succ_of_le h.entry_le, Nat.le_refl _, Nat.le_succ _, rfl⟩
  obtain ⟨hle, hentry, hclock, hreads⟩ := hversion
  refine ⟨hsettled, ?_, ?_, ?_, ?_, hentry, ?_⟩
  · rw [hstatus, shown, hsettled]
  · intro d hd
    obtain ⟨e, he, -, hprev⟩ := hmem d hd
    exact hprev ▸ h.known e he
  · have hsame : (s.calls.set i { c with outcome }).map (·.version) = s.calls.map (·.version) := by
      obtain ⟨hlt, rfl⟩ := List.getElem?_eq_some_iff.mp hc
      rw [List.map_set, ← List.map_set (f := (·.version)) (a := s.calls[i]), List.set_getElem_self]
    have := List.pairwise_map.mpr h.ascending
    exact List.pairwise_map.mp (hsame ▸ this)
  · intro d hd
    obtain ⟨e, he, hver, -⟩ := hmem d hd
    exact hver ▸ Nat.le_trans (h.calls_le e he) hle
  · exact fun r hr => Nat.le_trans (h.reads_le r (hreads ▸ hr)) hclock

theorem shown_of_pending (hc : s.calls[i]? = some c) (hp : c.outcome.isPending = true) {v : Bool}
    (hv : c.change f = some v) (hcov : ¬ s.Superseded i f) : s.shown f = v := by
  have hshown : s.shown f = (c.shows f).getD (s.before i f) := shown_of_not_covered hc hcov
  rw [hshown, shows_of_pending hp, hv]
  rfl

theorem Tracked.succeed (h : Tracked S s) (hc : s.calls[i]? = some c)
    (hp : c.outcome.isPending = true) : Tracked S (succeedUpdate i c s) := by
  have hprev := h.known c (List.mem_of_getElem? hc)
  have heq : succeedUpdate i c s =
      { s with calls := s.calls.set i { c with outcome := .succeeded (changedValues c) } } := by
    simp [succeedUpdate, Option.isNone_eq_false_iff.mpr hprev]
  rw [heq]
  refine h.settle hc _ (.inl rfl) ?_
  rw [h.status, shown, h.settled]
  refine congrArg some (funext fun f => (shown_set_of_effect hc ?_).symm)
  rw [shows_of_pending hp]
  cases hk : c.change f <;> simp [UpdateCall.shows, Outcome.shows, changedValues, hk]

theorem Tracked.fail (h : Tracked S s) (hc : s.calls[i]? = some c)
    (hp : c.outcome.isPending = true) (hok : s.Traceless (.fail i)) :
    Tracked S (failUpdate i c s) := by
  have hprev := h.known c (List.mem_of_getElem? hc)
  have hkept := hok c hc
  have hunset : ∀ f, c.change f = none →
      Layers.shown UpdateCall.shows S (s.calls.set i { c with outcome := .failed }) f =
        s.shown f := by
    intro f hf
    rw [shown, h.settled]
    refine shown_set_of_effect hc ?_
    rw [shows_eq_none hf]
    rfl
  have hset : ∀ f, ¬ s.Superseded i f →
      Layers.shown UpdateCall.shows S (s.calls.set i { c with outcome := .failed }) f =
        s.before i f := by
    intro f hcov
    rw [before, h.settled]
    exact shown_set_of_not_covered hc hcov
  by_cases hcur : s.current c
  · rw [if_pos hcur] at hkept
    have heq : failUpdate i c s = { setNewSubscription c.previous s with
        calls := s.calls.set i { c with outcome := .failed } } := by
      simp [failUpdate, hprev, hcur]
    rw [heq]
    refine h.settle hc _ (.inr rfl) ?_
    obtain ⟨status, hstatus⟩ := Option.isSome_iff_exists.mp hprev
    have hrow : (setNewSubscription c.previous s).entry.status = some status := by
      simp [setNewSubscription, setSubscription, hstatus]
    rw [hrow]
    refine congrArg some (funext fun f => ?_)
    have hf := hkept f
    simp only [hstatus, Option.map_some, Option.some.injEq] at hf
    rw [hf]
    cases hk : c.change f with
    | none => simpa using (hunset f hk).symm
    | some v => simpa using (hset f (h.not_superseded hc hcur)).symm
  · rw [if_neg hcur] at hkept
    have heq : failUpdate i c s =
        { s with calls := s.calls.set i { c with outcome := .failed } } := by
      simp [failUpdate, hcur]
    rw [heq]
    refine h.settle hc _ (.inl rfl) ?_
    rw [h.status]
    refine congrArg some (funext fun f => ?_)
    cases hk : c.change f with
    | none => exact (hunset f hk).symm
    | some v =>
      by_cases hcov : s.Superseded i f
      · rw [shown, h.settled]
        exact (shown_set_of_covered hc hcov).symm
      · rw [hset f hcov, shown_of_pending hc hp hk hcov]
        exact (hkept f v hk).resolve_left hcov

theorem Tracked.snapshot (h : Tracked S s) : Tracked S s.subscriptionSnapshot :=
  ⟨h.settled, h.status, h.known, h.ascending, h.calls_le, Nat.le_succ_of_le h.entry_le,
    fun r hr => Nat.le_succ_of_le (h.reads_le r hr)⟩

theorem Tracked.startRead (h : Tracked S s) (ht : s.step .startRead = some t) : Tracked S t := by
  obtain rfl := Option.some.inj ht
  have hs := h.snapshot
  refine ⟨hs.settled, hs.status, hs.known, hs.ascending, hs.calls_le, hs.entry_le, ?_⟩
  intro r hr
  rcases List.mem_append.mp hr with hr | hr
  · exact hs.reads_le r hr
  · exact Nat.le_of_eq (by rw [List.mem_singleton.mp hr]; rfl)

/-- An accepted answer finds the status the row has already. -/
theorem Tracked.answer_eq (h : Tracked S s) {r : StatusRead} {status : ThreadSubscriptionStatus}
    (hr : s.reads[j]? = some r) (hans : s.answers r (some status))
    (hok : s.Traceless (.finishRead j (some status))) (hacc : s.entry.version ≤ r.version) :
    status = s.shown := by
  funext f
  have hfield := List.all_eq_true.mp hans f (mem_statusFields f)
  simp only [Bool.or_eq_true, decide_eq_true_eq] at hfield
  rcases hfield with hover | heq
  · simp only [overlaps, Bool.or_eq_true, List.any_eq_true, Bool.and_eq_true,
      decide_eq_true_eq] at hover
    rcases hover with hopen | ⟨c, hc, hlt, -⟩
    · exact hok r hr status rfl hacc f hopen
    · have := h.calls_le c hc
      omega
  · exact heq

theorem Tracked.finishRead (h : Tracked S s) {answer : Option ThreadSubscriptionStatus}
    (hok : s.Traceless (.finishRead j answer)) (ht : s.step (.finishRead j answer) = some t) :
    Tracked S t ∧ t.entry.status = s.entry.status := by
  obtain ⟨r, hr, ht⟩ := Option.bind_eq_some_iff.mp ht
  split at ht
  · rename_i hans
    obtain rfl := Option.some.inj ht
    cases answer with
    | none => exact ⟨h, rfl⟩
    | some status =>
      change Tracked S (acceptStatus status r.version s) ∧
        (acceptStatus status r.version s).entry.status = _
      unfold acceptStatus
      split
      · rename_i hacc
        obtain rfl := h.answer_eq hr hans hok hacc
        exact ⟨⟨h.settled, rfl, h.known, h.ascending,
          fun c hc => Nat.le_trans (h.calls_le c hc) hacc, h.reads_le r (List.mem_of_getElem? hr),
          h.reads_le⟩, h.status.symm⟩
      · exact ⟨h, rfl⟩
  · simp at ht

theorem Tracked.step {e : ThreadEvent} (h : Tracked S s) (hok : s.Traceless e)
    (ht : s.step e = some t) : Tracked S t := by
  cases e with
  | start change =>
    obtain rfl := Option.some.inj ht
    exact h.startUpdate change
  | succeed i =>
    obtain ⟨c, hc, ht⟩ := Option.bind_eq_some_iff.mp ht
    split at ht
    · obtain rfl := Option.some.inj ht
      exact h.succeed hc ‹_›
    · simp at ht
  | fail i =>
    obtain ⟨c, hc, ht⟩ := Option.bind_eq_some_iff.mp ht
    split at ht
    · obtain rfl := Option.some.inj ht
      exact h.fail hc ‹_› hok
    · simp at ht
  | startRead => exact h.startRead ht
  | finishRead j answer => exact (h.finishRead hok ht).1
  | tick =>
    obtain rfl := Option.some.inj ht
    exact h.snapshot

/-- Once nothing is in flight, the last write that succeeded shows. -/
theorem Tracked.quiet (h : Tracked S s) (hq : s.Quiet) :
    s.entry.status = some (Layers.shown UpdateCall.left S s.calls) := by
  rw [h.status, shown, h.settled]
  exact congrArg some <| funext fun f =>
    shown_congr fun c hc => Outcome.shows_eq_left _ (hq c hc)

end ThreadCell

end Chahua.Chats

import Chahua.Framework.Run

namespace Chahua.Api

open Framework

/-- A loop of the query: before its first test, awaiting a request, or ended and not yet cleared. -/
inductive Loop where
  | starting
  | requesting (requestedVersion request : Nat)
  | finished
  deriving DecidableEq, Repr

/-- `pending` is whether a promise is kept, `loops` are the loops that run. Requests are numbered as
they start; `published` and `reported` are those the value and the error come from, `refreshedAt` and
`emptiedAt` how many had started by the last refresh and when consumers last became empty. -/
structure ActiveQuery (α : Type) where
  value : α
  loading : Bool
  error : Bool
  consumers : List Nat
  symbols : Nat
  dirty : Bool
  version : Nat
  pending : Bool
  destroyed : Bool
  loops : List Loop
  started : Nat
  published : Option Nat
  reported : Option Nat
  refreshedAt : Nat
  emptiedAt : Nat
  deriving DecidableEq

/-- What happens: calls of the functions, and continuations of the loop at an index. -/
inductive QueryEvent (α : Type) where
  | activate
  | release (consumer : Nat)
  | refresh
  | proceed (loop : Nat)
  | settle (loop : Nat) (next : Option α)
  | clear (loop : Nat)
  | destroy
  deriving DecidableEq

namespace ActiveQuery

variable {α : Type}

def init (initial : α) : ActiveQuery α where
  value := initial
  loading := false
  error := false
  consumers := []
  symbols := 0
  dirty := true
  version := 0
  pending := false
  destroyed := false
  loops := []
  started := 0
  published := none
  reported := none
  refreshedAt := 0
  emptiedAt := 0

def start (q : ActiveQuery α) : ActiveQuery α :=
  if q.destroyed ∨ q.consumers = [] ∨ ¬q.dirty then q
  else if q.pending then { q with loading := true }
  else { q with loading := true, pending := true, loops := q.loops ++ [.starting] }

/-- The test of the loop, and the start of the next request. -/
def test (q : ActiveQuery α) (loop : Nat) : ActiveQuery α :=
  if ¬q.destroyed ∧ q.consumers ≠ [] ∧ q.dirty then
    { q with
      error := false
      started := q.started + 1
      loops := q.loops.set loop (.requesting q.version q.started) }
  else { q with loops := q.loops.set loop .finished }

def activate (q : ActiveQuery α) : ActiveQuery α :=
  start { q with consumers := q.consumers ++ [q.symbols], symbols := q.symbols + 1 }

/-- What `activate` returns may be called more than once. -/
def release (q : ActiveQuery α) (consumer : Nat) : ActiveQuery α :=
  let consumers := q.consumers.filter (· ≠ consumer)
  if consumers = [] then
    { q with
      consumers
      version := q.version + 1
      loading := false
      error := false
      emptiedAt := q.started }
  else { q with consumers }

def refresh (q : ActiveQuery α) : ActiveQuery α :=
  start { q with dirty := true, version := q.version + 1, refreshedAt := q.started }

/-- The continuation of a request: `next` is its value, or none when it failed or was cancelled. -/
def settle (q : ActiveQuery α) (loop requestedVersion request : Nat) (next : Option α) :
    ActiveQuery α :=
  if requestedVersion ≠ q.version then q.test loop
  else match next with
    | some value => test { q with value, dirty := false, published := some request } loop
    | none =>
      { q with error := true, reported := some request, loops := q.loops.set loop .finished }

def clear (q : ActiveQuery α) (loop : Nat) : ActiveQuery α :=
  { q with pending := false, loading := false, loops := q.loops.eraseIdx loop }

def step (q : ActiveQuery α) : QueryEvent α → Option (ActiveQuery α)
  | .activate => some q.activate
  | .release consumer => if consumer < q.symbols then some (q.release consumer) else none
  | .refresh => some q.refresh
  | .proceed loop => if q.loops[loop]? = some .starting then some (q.test loop) else none
  | .settle loop next =>
    match q.loops[loop]? with
    | some (.requesting requestedVersion request) =>
      some (q.settle loop requestedVersion request next)
    | _ => none
  | .clear loop => if q.loops[loop]? = some .finished then some (q.clear loop) else none
  | .destroy =>
    if q.destroyed then none else some { q with destroyed := true, version := q.version + 1 }

/-- At most one loop runs, and its request is as new as its version says. -/
structure Single (q : ActiveQuery α) : Prop where
  loops : (q.pending = false ∧ q.loops = []) ∨ q.pending = true ∧ ∃ loop, q.loops = [loop]
  requested : ∀ v k, .requesting v k ∈ q.loops → v ≤ q.version ∧
    (v = q.version → q.refreshedAt ≤ k ∧ q.emptiedAt ≤ k)
  clean : q.dirty = false → ∃ k, q.published = some k ∧ q.refreshedAt ≤ k
  marks : q.refreshedAt ≤ q.started ∧ q.emptiedAt ≤ q.started

/-- The last request failed and nothing was refreshed or emptied since it started. -/
def Failed (q : ActiveQuery α) : Prop :=
  q.error = true ∧ ∃ k, q.reported = some k ∧ q.refreshedAt ≤ k ∧ q.emptiedAt ≤ k

/-- Once its loop has ended, a query that is active and dirty has failed. -/
def Settled (q : ActiveQuery α) : Prop :=
  (∀ loop ∈ q.loops, loop = .finished) → q.destroyed = false → q.consumers ≠ [] →
    q.dirty = true → q.Failed

/-- Between the last test of a loop and the clearing of its promise, nothing is refreshed for a
consumer and no first consumer activates a dirty query. -/
def Calm (q : ActiveQuery α) : QueryEvent α → Prop
  | .refresh => .finished ∈ q.loops → q.destroyed = true ∨ q.consumers = []
  | .activate => .finished ∈ q.loops → q.destroyed = true ∨ q.consumers ≠ [] ∨ q.dirty = false
  | _ => True

variable {q u : ActiveQuery α} {event : QueryEvent α}

theorem start_cases (q : ActiveQuery α) :
    ((q.destroyed = true ∨ q.consumers = [] ∨ q.dirty = false) ∧ q.start = q) ∨
    (q.pending = true ∧ q.start = { q with loading := true }) ∨
    (q.pending = false ∧
      q.start = { q with loading := true, pending := true, loops := q.loops ++ [.starting] }) := by
  unfold start
  split
  · next h => exact .inl ⟨by simpa using h, rfl⟩
  · split
    · next hpending => exact .inr (.inl ⟨hpending, rfl⟩)
    · next hpending => exact .inr (.inr ⟨by simpa using hpending, rfl⟩)

theorem test_cases (q : ActiveQuery α) (loop : Nat) :
    (q.test loop = { q with
      error := false
      started := q.started + 1
      loops := q.loops.set loop (.requesting q.version q.started) }) ∨
    ((q.destroyed = true ∨ q.consumers = [] ∨ q.dirty = false) ∧
      q.test loop = { q with loops := q.loops.set loop .finished }) := by
  unfold test
  split
  · exact .inl rfl
  · next h =>
    refine .inr ⟨?_, rfl⟩
    cases hdestroyed : q.destroyed with
    | true => exact .inl rfl
    | false =>
      by_cases hnil : q.consumers = []
      · exact .inr (.inl hnil)
      · cases hdirty : q.dirty with
        | false => exact .inr (.inr rfl)
        | true => exact absurd ⟨by simp [hdestroyed], hnil, hdirty⟩ h

theorem Single.start (h : q.Single) : q.start.Single := by
  obtain ⟨-, heq⟩ | ⟨hpending, heq⟩ | ⟨hpending, heq⟩ := q.start_cases
  · rwa [heq]
  · rw [heq]
    exact ⟨h.loops, h.requested, h.clean, h.marks⟩
  · have hnil : q.loops = [] := by
      rcases h.loops with ⟨-, hnil⟩ | ⟨htrue, -⟩
      · exact hnil
      · rw [hpending] at htrue
        cases htrue
    rw [heq, hnil]
    refine ⟨.inr ⟨rfl, .starting, rfl⟩, fun v k hmem => ?_, h.clean, h.marks⟩
    simp at hmem

/-- The only loop is the one an index finds. -/
theorem Single.loops_of_get (h : q.Single) {i : Nat} {loop : Loop} (hloop : q.loops[i]? = some loop) :
    i = 0 ∧ q.pending = true ∧ q.loops = [loop] := by
  rcases h.loops with ⟨-, hnil⟩ | ⟨hpending, other, hone⟩
  · rw [hnil] at hloop
    cases hloop
  · rw [hone] at hloop
    cases i with
    | zero =>
      obtain rfl := Option.some.inj hloop
      exact ⟨rfl, hpending, hone⟩
    | succ i => cases hloop

theorem Single.test (h : q.Single) {loop : Loop} (hone : q.loops = [loop]) : (q.test 0).Single := by
  have hpending : q.pending = true := by
    rcases h.loops with ⟨-, hnil⟩ | ⟨hpending, -⟩
    · rw [hone] at hnil
      cases hnil
    · exact hpending
  obtain heq | ⟨-, heq⟩ := q.test_cases 0
  · rw [heq, hone]
    refine ⟨.inr ⟨hpending, _, rfl⟩, fun v k hmem => ?_, h.clean, ?_⟩
    · obtain ⟨rfl, rfl⟩ : v = q.version ∧ k = q.started := by simpa using hmem
      exact ⟨Nat.le_refl _, fun _ => h.marks⟩
    · exact ⟨Nat.le_succ_of_le h.marks.1, Nat.le_succ_of_le h.marks.2⟩
  · rw [heq, hone]
    exact ⟨.inr ⟨hpending, _, rfl⟩, fun v k hmem => by simp at hmem, h.clean, h.marks⟩

/-- A version that is given up leaves every running request behind. -/
theorem Single.outdated (h : q.Single) {v k : Nat} (hmem : .requesting v k ∈ q.loops) :
    v ≤ q.version + 1 ∧ v ≠ q.version + 1 := by
  have hle := (h.requested v k hmem).1
  omega

theorem Single.release (h : q.Single) (consumer : Nat) : (q.release consumer).Single := by
  unfold ActiveQuery.release
  dsimp only
  split
  · refine ⟨h.loops, fun v k hmem => ?_, h.clean, ⟨h.marks.1, Nat.le_refl _⟩⟩
    obtain ⟨hle, hne⟩ := h.outdated hmem
    exact ⟨hle, fun heq => absurd heq hne⟩
  · exact ⟨h.loops, h.requested, h.clean, h.marks⟩

theorem Single.refresh (h : q.Single) : q.refresh.Single := by
  apply Single.start
  refine ⟨h.loops, fun v k hmem => ?_, fun hdirty => (by cases hdirty), ⟨Nat.le_refl _, h.marks.2⟩⟩
  obtain ⟨hle, hne⟩ := h.outdated hmem
  exact ⟨hle, fun heq => absurd heq hne⟩

theorem Single.settle (h : q.Single) {v k : Nat} (hone : q.loops = [.requesting v k])
    (next : Option α) : (q.settle 0 v k next).Single := by
  have hrequest : .requesting v k ∈ q.loops := by simp [hone]
  unfold ActiveQuery.settle
  split
  · exact h.test hone
  · next hcurrent =>
    have hmarks := (h.requested v k hrequest).2 (by simpa using hcurrent)
    cases next with
    | some value =>
      refine Single.test ?_ hone
      exact ⟨h.loops, h.requested, fun _ => ⟨k, rfl, hmarks.1⟩, h.marks⟩
    | none =>
      refine ⟨?_, fun v' k' hmem => ?_, h.clean, h.marks⟩
      · rcases h.loops with ⟨-, hnil⟩ | ⟨hpending, -⟩
        · rw [hone] at hnil
          cases hnil
        · exact .inr ⟨hpending, .finished, by simp [hone]⟩
      · simp [hone] at hmem

theorem Single.step (h : q.Single) (hstep : q.step event = some u) : u.Single := by
  cases event with
  | activate =>
    obtain rfl := Option.some.inj hstep
    exact Single.start ⟨h.loops, h.requested, h.clean, h.marks⟩
  | release consumer =>
    simp only [ActiveQuery.step] at hstep
    split at hstep
    · obtain rfl := Option.some.inj hstep
      exact h.release consumer
    · cases hstep
  | refresh =>
    obtain rfl := Option.some.inj hstep
    exact h.refresh
  | proceed loop =>
    simp only [ActiveQuery.step] at hstep
    split at hstep
    · next hloop =>
      obtain rfl := Option.some.inj hstep
      obtain ⟨rfl, -, hone⟩ := h.loops_of_get hloop
      exact h.test hone
    · cases hstep
  | settle loop next =>
    simp only [ActiveQuery.step] at hstep
    split at hstep
    · next v k hloop =>
      obtain rfl := Option.some.inj hstep
      obtain ⟨rfl, -, hone⟩ := h.loops_of_get hloop
      exact h.settle hone next
    · cases hstep
  | clear loop =>
    simp only [ActiveQuery.step] at hstep
    split at hstep
    · next hloop =>
      obtain rfl := Option.some.inj hstep
      obtain ⟨rfl, -, hone⟩ := h.loops_of_get hloop
      refine ⟨.inl ⟨rfl, by simp [clear, hone]⟩, fun v k hmem => ?_, h.clean, h.marks⟩
      simp [clear, hone] at hmem
    · cases hstep
  | destroy =>
    simp only [ActiveQuery.step] at hstep
    split at hstep
    · cases hstep
    · obtain rfl := Option.some.inj hstep
      refine ⟨h.loops, fun v k hmem => ?_, h.clean, h.marks⟩
      obtain ⟨hle, hne⟩ := h.outdated hmem
      exact ⟨hle, fun heq => absurd heq hne⟩

theorem single_init (initial : α) : (init initial).Single :=
  ⟨.inl ⟨rfl, rfl⟩, fun v k hmem => (by cases hmem), fun hdirty => (by cases hdirty),
    ⟨Nat.le_refl 0, Nat.le_refl 0⟩⟩

/-- A query starts a loop where none runs. -/
theorem settled_start (h : q.Single)
    (hloop : .finished ∈ q.loops → q.destroyed = false → q.consumers ≠ [] → q.dirty = true →
      q.Failed) : q.start.Settled := by
  intro hended hlive hconsumers hdirty
  obtain ⟨hnone, heq⟩ | ⟨hpending, heq⟩ | ⟨-, heq⟩ := q.start_cases
  · rw [heq] at hlive hconsumers hdirty
    rcases hnone with hdestroyed | hnil | hclean
    · rw [hlive] at hdestroyed
      cases hdestroyed
    · exact absurd hnil hconsumers
    · rw [hdirty] at hclean
      cases hclean
  · rw [heq] at hended hlive hconsumers hdirty ⊢
    rcases h.loops with ⟨hfalse, -⟩ | ⟨-, loop, hone⟩
    · rw [hpending] at hfalse
      cases hfalse
    · have hmem : loop ∈ q.loops := by simp [hone]
      exact hloop (hended loop hmem ▸ hmem) hlive hconsumers hdirty
  · rw [heq] at hended
    have hstarting := hended .starting (by simp)
    cases hstarting

/-- A loop only ends where the test fails. -/
theorem settled_test {loop : Loop} (hone : q.loops = [loop]) : (q.test 0).Settled := by
  intro hended hlive hconsumers hdirty
  obtain heq | ⟨hnone, heq⟩ := q.test_cases 0
  · rw [heq, hone] at hended
    have hrequesting := hended (.requesting q.version q.started) (by simp)
    cases hrequesting
  · rw [heq] at hlive hconsumers hdirty
    rcases hnone with hdestroyed | hnil | hclean
    · exact absurd (hlive.symm.trans hdestroyed) (by decide)
    · exact absurd hnil hconsumers
    · exact absurd (hdirty.symm.trans hclean) (by decide)

theorem Settled.settle (hsingle : q.Single) {v k : Nat} (hone : q.loops = [.requesting v k])
    (next : Option α) : (q.settle 0 v k next).Settled := by
  unfold ActiveQuery.settle
  split
  · exact settled_test hone
  · next hcurrent =>
    cases next with
    | some value => exact settled_test hone
    | none =>
      intro _ _ _ _
      have hmarks := (hsingle.requested v k (by simp [hone])).2 (by simpa using hcurrent)
      exact ⟨rfl, k, rfl, hmarks⟩

theorem Settled.step (hsingle : q.Single) (h : q.Settled) (hcalm : q.Calm event)
    (hstep : q.step event = some u) : u.Settled := by
  cases event with
  | activate =>
    obtain rfl := Option.some.inj hstep
    refine settled_start ⟨hsingle.loops, hsingle.requested, hsingle.clean, hsingle.marks⟩
      fun hfinished hlive _ hdirty => ?_
    have hended : ∀ loop ∈ q.loops, loop = .finished := by
      rcases hsingle.loops with ⟨-, hnil⟩ | ⟨-, loop, hone⟩
      · simp [hnil]
      · intro other hmem
        have hloop : loop = .finished := by simpa [hone, eq_comm] using hfinished
        simpa [hone, hloop] using hmem
    rcases hcalm hfinished with hdestroyed | hconsumers | hclean
    · exact absurd (hlive.symm.trans hdestroyed) (by decide)
    · exact h hended hlive hconsumers hdirty
    · exact absurd (hdirty.symm.trans hclean) (by decide)
  | release consumer =>
    simp only [ActiveQuery.step] at hstep
    split at hstep
    · obtain rfl := Option.some.inj hstep
      unfold ActiveQuery.release
      dsimp only
      split
      · next hnil => exact fun _ _ hconsumers => absurd hnil hconsumers
      · next hkept =>
        intro hended hlive _ hdirty
        refine h hended hlive (fun hnil => hkept ?_) hdirty
        rw [hnil, List.filter_nil]
    · cases hstep
  | refresh =>
    obtain rfl := Option.some.inj hstep
    refine settled_start ?_ fun hfinished hlive hconsumers _ => ?_
    · refine ⟨hsingle.loops, fun v k hmem => ?_, fun hdirty => (by cases hdirty),
        ⟨Nat.le_refl _, hsingle.marks.2⟩⟩
      obtain ⟨hle, hne⟩ := hsingle.outdated hmem
      exact ⟨hle, fun heq => absurd heq hne⟩
    · rcases hcalm hfinished with hdestroyed | hnil
      · exact absurd (hlive.symm.trans hdestroyed) (by decide)
      · exact absurd hnil hconsumers
  | proceed loop =>
    simp only [ActiveQuery.step] at hstep
    split at hstep
    · next hloop =>
      obtain rfl := Option.some.inj hstep
      obtain ⟨rfl, -, hone⟩ := hsingle.loops_of_get hloop
      exact settled_test hone
    · cases hstep
  | settle loop next =>
    simp only [ActiveQuery.step] at hstep
    split at hstep
    · next v k hloop =>
      obtain rfl := Option.some.inj hstep
      obtain ⟨rfl, -, hone⟩ := hsingle.loops_of_get hloop
      exact .settle hsingle hone next
    · cases hstep
  | clear loop =>
    simp only [ActiveQuery.step] at hstep
    split at hstep
    · next hloop =>
      obtain rfl := Option.some.inj hstep
      obtain ⟨-, -, hone⟩ := hsingle.loops_of_get hloop
      exact fun _ hlive hconsumers hdirty => h (by simp [hone]) hlive hconsumers hdirty
    · cases hstep
  | destroy =>
    simp only [ActiveQuery.step] at hstep
    split at hstep
    · cases hstep
    · obtain rfl := Option.some.inj hstep
      exact fun _ hlive => by cases hlive

theorem start_value (q : ActiveQuery α) :
    q.start.value = q.value ∧ q.start.published = q.published := by
  obtain ⟨-, heq⟩ | ⟨-, heq⟩ | ⟨-, heq⟩ := q.start_cases
  · rw [heq]
    exact ⟨rfl, rfl⟩
  · rw [heq]
    exact ⟨rfl, rfl⟩
  · rw [heq]
    exact ⟨rfl, rfl⟩

theorem test_value (q : ActiveQuery α) (loop : Nat) :
    (q.test loop).value = q.value ∧ (q.test loop).published = q.published := by
  obtain heq | ⟨-, heq⟩ := q.test_cases loop
  · rw [heq]
    exact ⟨rfl, rfl⟩
  · rw [heq]
    exact ⟨rfl, rfl⟩

/-- Only the continuation of a request of the current version publishes. -/
theorem publish_cases (hstep : q.step event = some u) :
    (u.value = q.value ∧ u.published = q.published) ∨
    ∃ loop k value, event = .settle loop (some value) ∧
      q.loops[loop]? = some (.requesting q.version k) ∧ u.value = value ∧ u.published = some k := by
  cases event with
  | activate =>
    obtain rfl := Option.some.inj hstep
    exact .inl (start_value _)
  | release consumer =>
    simp only [ActiveQuery.step] at hstep
    split at hstep
    · obtain rfl := Option.some.inj hstep
      unfold ActiveQuery.release
      dsimp only
      split
      · exact .inl ⟨rfl, rfl⟩
      · exact .inl ⟨rfl, rfl⟩
    · cases hstep
  | refresh =>
    obtain rfl := Option.some.inj hstep
    exact .inl (start_value _)
  | proceed loop =>
    simp only [ActiveQuery.step] at hstep
    split at hstep
    · obtain rfl := Option.some.inj hstep
      exact .inl (test_value q loop)
    · cases hstep
  | settle loop next =>
    simp only [ActiveQuery.step] at hstep
    split at hstep
    · next v k hloop =>
      obtain rfl := Option.some.inj hstep
      unfold ActiveQuery.settle
      split
      · exact .inl (test_value q loop)
      · next hcurrent =>
        obtain rfl : v = q.version := by simpa using hcurrent
        cases next with
        | some value =>
          obtain ⟨hvalue, hpublished⟩ :=
            test_value { q with value, dirty := false, published := some k } loop
          exact .inr ⟨loop, k, value, rfl, hloop, hvalue, hpublished⟩
        | none => exact .inl ⟨rfl, rfl⟩
    · cases hstep
  | clear loop =>
    simp only [ActiveQuery.step] at hstep
    split at hstep
    · obtain rfl := Option.some.inj hstep
      exact .inl ⟨rfl, rfl⟩
    · cases hstep
  | destroy =>
    simp only [ActiveQuery.step] at hstep
    split at hstep
    · cases hstep
    · obtain rfl := Option.some.inj hstep
      exact .inl ⟨rfl, rfl⟩

theorem single_run {initial : α} {history : List (QueryEvent α)}
    (h : run step (init initial) history = some q) : q.Single :=
  run_invariant (fun _ _ _ hsingle hstep => hsingle.step hstep) (single_init initial) h

theorem settled_run {initial : α} {history : List (QueryEvent α)}
    (hcalm : Along step Calm (init initial) history)
    (h : run step (init initial) history = some q) : q.Settled := by
  have hboth := run_invariant_along (I := fun q : ActiveQuery α => q.Single ∧ q.Settled)
    (fun _ _ _ hboth hcalm hstep => ⟨hboth.1.step hstep, .step hboth.1 hboth.2 hcalm hstep⟩)
    ⟨single_init initial, fun _ _ hconsumers => absurd rfl hconsumers⟩ hcalm h
  exact hboth.2

/-- Values come from requests of the current version, one loop runs at a time, and where none runs an
active query shows what was requested since its last refresh or has failed since. -/
theorem refresh_kept {initial : α} {history : List (QueryEvent α)}
    (h : run step (init initial) history = some q) :
    (∀ event u, q.step event = some u → (u.value = q.value ∧ u.published = q.published) ∨
      ∃ loop k value, event = .settle loop (some value) ∧
        q.loops[loop]? = some (.requesting q.version k) ∧ u.value = value ∧
        u.published = some k ∧ q.refreshedAt ≤ k ∧ q.emptiedAt ≤ k) ∧
    q.loops.length ≤ 1 ∧
    (Along step Calm (init initial) history → q.loops = [] → q.consumers ≠ [] →
      q.destroyed = false →
      (∃ k, q.published = some k ∧ q.refreshedAt ≤ k) ∨
        q.error = true ∧ ∃ k, q.reported = some k ∧ q.refreshedAt ≤ k ∧ q.emptiedAt ≤ k) := by
  have hsingle := single_run h
  refine ⟨fun event u hstep => ?_, ?_, fun hcalm hnone hconsumers hlive => ?_⟩
  · obtain hkept | ⟨loop, k, value, rfl, hloop, hvalue, hpublished⟩ := publish_cases hstep
    · exact .inl hkept
    · obtain ⟨hrefreshed, hemptied⟩ :=
        (hsingle.requested q.version k (List.mem_of_getElem? hloop)).2 rfl
      exact .inr ⟨loop, k, value, rfl, hloop, hvalue, hpublished, hrefreshed, hemptied⟩
  · rcases hsingle.loops with ⟨-, hnil⟩ | ⟨-, loop, hone⟩
    · simp [hnil]
    · simp [hone]
  · cases hdirty : q.dirty with
    | false => exact .inl (hsingle.clean hdirty)
    | true => exact .inr (settled_run hcalm h (by simp [hnone]) hlive hconsumers hdirty)

theorem refresh_kept_failure : ∃ q, run step (init 0)
    [.activate, .proceed 0, .settle 0 none, .clear 0] = some q ∧ q.published = none ∧
      q.error = true ∧ ∃ k, q.reported = some k ∧ q.refreshedAt ≤ k ∧ q.emptiedAt ≤ k := by
  obtain ⟨q, hrun, hpublished, hnone, hconsumers, hlive⟩ : ∃ q, run step (init 0)
      [.activate, .proceed 0, .settle 0 none, .clear 0] = some q ∧ q.published = none ∧
        q.loops = [] ∧ q.consumers ≠ [] ∧ q.destroyed = false :=
    ⟨_, rfl, rfl, rfl, by decide, rfl⟩
  have hcalm : Along step Calm (init 0) [.activate, .proceed 0, .settle 0 none, .clear 0] :=
    ⟨fun hfinished => (by cases hfinished), fun _ _ => ⟨trivial, fun _ _ => ⟨trivial, fun _ _ =>
      ⟨trivial, fun _ _ => trivial⟩⟩⟩⟩
  obtain ⟨-, -, hquiet⟩ := refresh_kept hrun
  rcases hquiet hcalm hnone hconsumers hlive with ⟨k, hk, -⟩ | hfailed
  · rw [hpublished] at hk
    cases hk
  · exact ⟨q, hrun, hpublished, hfailed⟩

/-- A value is kept when the consumers leave and come back, and a refresh between the last test of a
loop and the clearing of its promise starts no request. -/
theorem kept_and_lost :
    (∃ q, run step (init 0) [.activate, .proceed 0, .settle 0 (some 1), .clear 0, .release 0,
        .activate] = some q ∧ q.loops = [] ∧ q.consumers ≠ [] ∧ q.destroyed = false ∧
        q.error = false ∧ q.published = some 0 ∧ q.emptiedAt = 1) ∧
    ∃ q, run step (init 0) [.activate, .proceed 0, .settle 0 (some 1), .refresh, .clear 0] = some q ∧
      q.loops = [] ∧ q.consumers ≠ [] ∧ q.destroyed = false ∧ q.error = false ∧
      q.published = some 0 ∧ q.refreshedAt = 1 :=
  ⟨⟨_, rfl, rfl, by decide, rfl, rfl, rfl, rfl⟩, ⟨_, rfl, rfl, by decide, rfl, rfl, rfl, rfl⟩⟩

end ActiveQuery

end Chahua.Api

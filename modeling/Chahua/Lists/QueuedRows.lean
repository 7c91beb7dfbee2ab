import Chahua.Framework.Run
import Mathlib

namespace Chahua.Lists

open Framework

/-- Where the loop of a row stands between two continuations. -/
inductive RowLoop where
  /-- Before its first `await` is over. -/
  | starting
  /-- A response is awaited; the snapshots are those of when it was requested. -/
  | requesting (revision : Nat) (visibility : Bool) (policyGeneration requestedAt : Nat)
  /-- The loop has thrown and is not caught yet. -/
  | thrown
  /-- The loop is over, but `finally` has not cleared its request yet. -/
  | ended
  deriving DecidableEq, Repr

inductive ListKind where
  | chats | threads
  deriving DecidableEq, Repr

/-- An applied result: when it was requested, and when its row had last been queued. -/
structure Application where
  id : Int
  requestedAt : Nat
  queuedAt : Nat
  deriving DecidableEq, Repr

/-- One list query. The last four fields are what happened so far, not data of the store. -/
structure RowQuery where
  kind : ListKind
  consumers : Nat
  hidden : Bool
  destroyed : Bool
  dirty : Bool
  loading : Bool
  showMembershipMessages : Bool
  policyGeneration : Nat
  listError : Bool
  pendingRows : Int → Option Nat
  rowRequests : Int → Bool
  loops : Int → Option RowLoop
  clock : Nat
  queuedAt : Int → Nat
  applied : List Application
  failed : Bool

inductive RowEvent where
  | queueRow (id : Int)
  | activate
  | deactivate
  | setHidden (hidden : Bool)
  | invalidate
  | load
  | loaded
  | loadFailed (recent : Bool)
  | changeSettings (showMembershipMessages : Bool)
  | changePolicy
  | begin (id : Int)
  | respond (id : Int) (settingsChanged : Bool)
  | fail (id : Int)
  | catched (id : Int)
  | cleared (id : Int)
  | destroy
  deriving DecidableEq, Repr

namespace RowQuery

def initial (kind : ListKind) (hidden showMembershipMessages : Bool) : RowQuery where
  kind := kind
  consumers := 0
  hidden := hidden
  destroyed := false
  dirty := true
  loading := false
  showMembershipMessages := showMembershipMessages
  policyGeneration := 0
  listError := false
  pendingRows := fun _ => none
  rowRequests := fun _ => false
  loops := fun _ => none
  clock := 0
  queuedAt := fun _ => 0
  applied := []
  failed := false

def visible (q : RowQuery) : Bool := !q.hidden && decide (0 < q.consumers)

/-- A flush passes over a list that is not shown or is about to be read. -/
def flushing (q : RowQuery) : Bool := q.visible && !q.dirty

def flushRows (q : RowQuery) : RowQuery :=
  if q.flushing then
    { q with
      rowRequests := fun id => q.rowRequests id || (q.pendingRows id).isSome
      loops := fun id =>
        if (q.pendingRows id).isSome && !q.rowRequests id then some .starting else q.loops id }
  else q

def setLoop (q : RowQuery) (id : Int) (loop : RowLoop) : RowQuery :=
  { q with loops := Function.update q.loops id (some loop) }

/-- The condition of the loop, and the request of its next turn. -/
def turn (q : RowQuery) (id : Int) : RowQuery :=
  match q.pendingRows id with
  | some revision =>
      if !q.destroyed && q.visible then
        { q.setLoop id
            (.requesting revision q.showMembershipMessages q.policyGeneration (q.clock + 1)) with
          clock := q.clock + 1 }
      else q.setLoop id .ended
  | none => q.setLoop id .ended

def invalidate (q : RowQuery) : RowQuery :=
  { q with dirty := true, loading := q.visible && !q.destroyed }

/-- The result is accepted and its row is not pending any more. -/
def apply (q : RowQuery) (id : Int) (requestedAt : Nat) : RowQuery :=
  { q with
    pendingRows := Function.update q.pendingRows id none
    applied := q.applied ++ [⟨id, requestedAt, q.queuedAt id⟩] }

def respond (q : RowQuery) (id : Int) (settingsChanged : Bool) (revision : Nat)
    (visibility : Bool) (policyGeneration requestedAt : Nat) : RowQuery :=
  if q.kind = .chats ∧ settingsChanged = true then (q.invalidate).setLoop id .ended
  else if (q.kind = .chats ∧ policyGeneration ≠ q.policyGeneration) ∨
      q.pendingRows id ≠ some revision ∨ visibility ≠ q.showMembershipMessages then q.turn id
  else if q.dirty then q.setLoop id .ended
  else (q.apply id requestedAt).turn id

/-- Everything before the flush of an event that flushes. -/
def beforeFlush (q : RowQuery) : RowEvent → Option RowQuery
  | .queueRow id =>
      some { q with
        pendingRows := Function.update q.pendingRows id (some ((q.pendingRows id).getD 0 + 1))
        clock := q.clock + 1
        queuedAt := Function.update q.queuedAt id (q.clock + 1) }
  | .activate =>
      some { q with consumers := q.consumers + 1, loading := q.loading || q.dirty }
  | .setHidden hidden =>
      some { q with
        hidden := hidden
        loading := q.loading || (!hidden && decide (0 < q.consumers) && q.dirty) }
  | .loaded => if q.loading then some { q with dirty := false, loading := false } else none
  | _ => none

def step (q : RowQuery) : RowEvent → Option RowQuery
  | .deactivate =>
      if q.consumers = 0 then none
      else if q.consumers = 1 ∧ q.loading = true then
        some { q with
          consumers := 0, loading := false, dirty := q.dirty || decide (q.kind = .threads) }
      else some { q with consumers := q.consumers - 1 }
  | .invalidate => some q.invalidate
  | .load => some { q with loading := true }
  | .loadFailed recent =>
      if q.loading then
        some { q with loading := false, dirty := q.dirty || recent, listError := true }
      else none
  | .changeSettings show' => some { q with showMembershipMessages := show' }
  | .changePolicy => some { q with policyGeneration := q.policyGeneration + 1 }
  | .begin id =>
      match q.loops id with
      | some .starting => some (q.turn id)
      | _ => none
  | .respond id settingsChanged =>
      match q.loops id with
      | some (.requesting revision visibility policyGeneration requestedAt) =>
          some (q.respond id settingsChanged revision visibility policyGeneration requestedAt)
      | _ => none
  | .fail id =>
      match q.loops id with
      | some (.requesting ..) => some { q.setLoop id .thrown with failed := true }
      | _ => none
  | .catched id =>
      match q.loops id with
      | some .thrown => some { q.setLoop id .ended with listError := true }
      | _ => none
  | .cleared id =>
      match q.loops id with
      | some .ended =>
          some { q with
            rowRequests := Function.update q.rowRequests id false
            loops := Function.update q.loops id none }
      | _ => none
  | .destroy => some { q with destroyed := true }
  | e => (q.beforeFlush e).map flushRows

/-- The loop still looks at what is queued for its row. -/
def Live (loop : Option RowLoop) : Prop :=
  loop = some .starting ∨ ∃ r v p t, loop = some (.requesting r v p t)

/-- No flush meets a pending row whose loop is over while `rowRequests` still holds its id. -/
def NoGap (q : RowQuery) (e : RowEvent) : Prop :=
  ∀ r, q.beforeFlush e = some r → r.flushing = true → ∀ id, (r.pendingRows id).isSome = true →
    q.rowRequests id = true → Live (q.loops id)

/-- No request and no continuation of a row is left. -/
def Quiet (q : RowQuery) : Prop := ∀ id, q.loops id = none

/-- The result that was applied last for a row. -/
def lastApplied (q : RowQuery) (id : Int) : Option Application :=
  (q.applied.filter fun a => decide (a.id = id)).getLast?

/-- What is applied was requested after its row had last been queued; and once all is quiet in an
active, visible list that is up to date, nothing is pending and every queued row was last applied
from a request after its last queueing. -/
structure Reread (q : RowQuery) : Prop where
  fresh : ∀ a ∈ q.applied, a.queuedAt < a.requestedAt
  settled : q.Quiet → q.flushing = true → q.destroyed = false → q.failed = false →
    (∀ id, q.pendingRows id = none) ∧
      ∀ id, 0 < q.queuedAt id → ∃ a, q.lastApplied id = some a ∧ q.queuedAt id < a.requestedAt

/-- What every step keeps of the rows besides the one its loop is at. -/
structure RowsBut (q : RowQuery) (p : Int → Prop) : Prop where
  requests : ∀ id, q.rowRequests id = (q.loops id).isSome
  clock : ∀ id, q.queuedAt id ≤ q.clock
  current : ∀ id r v g t, ¬p id → q.loops id = some (.requesting r v g t) →
    ∃ r', q.pendingRows id = some r' ∧ r ≤ r' ∧ (r' = r → q.queuedAt id < t)
  fresh : ∀ a ∈ q.applied, a.queuedAt < a.requestedAt
  settled : ∀ id, 0 < q.queuedAt id → q.pendingRows id = none →
    ∃ a, q.lastApplied id = some a ∧ q.queuedAt id < a.requestedAt

/-- A snapshot that still equals the row's revision was taken after its last queueing; what is not
pending was applied since. -/
def Rows (q : RowQuery) : Prop := RowsBut q fun _ => False

/-- In a shown list that is up to date, the pending rows are being read. -/
def CoveredBut (q : RowQuery) (p : Int → Prop) : Prop :=
  q.flushing = true → q.destroyed = false → q.failed = false →
    ∀ id, ¬p id → (q.pendingRows id).isSome = true → Live (q.loops id)

def Covered (q : RowQuery) : Prop := CoveredBut q fun _ => False

variable {q : RowQuery} {id : Int}

theorem Rows.but (h : Rows q) (p : Int → Prop) : RowsBut q p :=
  { h with current := fun id r v g t _ hl => h.current id r v g t (fun h => h) hl }

theorem not_live_ended : ¬Live (some .ended) := by
  intro h
  obtain h | ⟨r, v, p, t, h⟩ := h <;> cases h

theorem rows_initial (kind : ListKind) (hidden show' : Bool) :
    Rows (initial kind hidden show') where
  requests _ := rfl
  clock _ := le_rfl
  current _ _ _ _ _ _ h := by cases h
  fresh _ h := by cases h
  settled _ h := absurd h (lt_irrefl 0)

/-- Leaving a loop in a state that is no request. -/
theorem RowsBut.setLoop {loop : RowLoop} (h : RowsBut q (· = id))
    (hs : (q.loops id).isSome = true) (hl : ∀ r v g t, loop ≠ .requesting r v g t) :
    Rows (q.setLoop id loop) where
  requests j := by
    by_cases hj : j = id
    · subst hj
      simp [RowQuery.setLoop, h.requests, hs]
    · simp [RowQuery.setLoop, hj, h.requests]
  clock := h.clock
  current j r v g t _ hreq := by
    by_cases hj : j = id
    · subst hj
      simp only [RowQuery.setLoop, Function.update_self, Option.some.injEq] at hreq
      exact absurd hreq (hl r v g t)
    · simp only [RowQuery.setLoop, Function.update_of_ne hj] at hreq
      exact h.current j r v g t hj hreq
  fresh := h.fresh
  settled := h.settled

theorem RowsBut.turn (h : RowsBut q (· = id)) (hs : (q.loops id).isSome = true) :
    Rows (q.turn id) := by
  unfold RowQuery.turn
  split
  · next revision hrev =>
    split
    · refine ⟨?_, ?_, ?_, h.fresh, h.settled⟩
      · intro j
        by_cases hj : j = id
        · subst hj
          simp [RowQuery.setLoop, h.requests, hs]
        · simp [RowQuery.setLoop, hj, h.requests]
      · intro j
        exact (h.clock j).trans (Nat.le_succ _)
      · intro j r v g t _ hreq
        by_cases hj : j = id
        · subst hj
          simp only [RowQuery.setLoop, Function.update_self, Option.some.injEq,
            RowLoop.requesting.injEq] at hreq
          obtain ⟨rfl, -, -, rfl⟩ := hreq
          exact ⟨_, hrev, le_rfl, fun _ => Nat.lt_succ_of_le (h.clock j)⟩
        · simp only [RowQuery.setLoop, Function.update_of_ne hj] at hreq
          exact h.current j r v g t hj hreq
    · exact h.setLoop hs (by simp)
  · exact h.setLoop hs (by simp)

theorem CoveredBut.turn (h : CoveredBut q (· = id)) : Covered (q.turn id) := by
  have hother : ∀ loop j, j ≠ id → (q.setLoop id loop).loops j = q.loops j := by
    intro loop j hj
    simp [RowQuery.setLoop, hj]
  unfold RowQuery.turn
  split
  · next revision hrev =>
    split
    · intro hf hd hfail j _ hp
      by_cases hj : j = id
      · subst hj
        exact .inr ⟨revision, _, _, _, Function.update_self ..⟩
      · exact (hother _ j hj).symm ▸ h hf hd hfail j hj hp
    · next hstop =>
      intro hf hd hfail
      refine absurd ?_ hstop
      have hv : q.visible = true := (Bool.and_eq_true_iff.mp hf).1
      have hd : q.destroyed = false := hd
      simp [hv, hd]
  · next hnone =>
    intro hf hd hfail j _ hp
    by_cases hj : j = id
    · subst hj
      rw [show (q.setLoop j .ended).pendingRows j = none from hnone] at hp
      cases hp
    · exact (hother _ j hj).symm ▸ h hf hd hfail j hj hp

theorem lastApplied_append {a : Application} {j : Int} :
    RowQuery.lastApplied { q with applied := q.applied ++ [a] } j =
      if a.id = j then some a else q.lastApplied j := by
  simp only [lastApplied, List.filter_append]
  split
  · next h => simp [h]
  · next h => simp [h]

/-- A result whose snapshot is still the row's revision is fresh. -/
theorem Rows.apply (h : Rows q) {r g t : Nat} {v : Bool}
    (hl : q.loops id = some (.requesting r v g t)) (hp : q.pendingRows id = some r) :
    RowsBut (q.apply id t) (· = id) := by
  obtain ⟨r', hr', -, hfresh⟩ := h.current id r v g t (fun h => h) hl
  have hlt := hfresh (Option.some.inj (hr'.symm.trans hp))
  refine ⟨h.requests, h.clock, ?_, ?_, ?_⟩
  · intro j r v g t hj hreq
    obtain ⟨r', hr', hle⟩ := h.current j r v g t (fun h => h) hreq
    exact ⟨r', by simpa [RowQuery.apply, Function.update_of_ne hj] using hr', hle⟩
  · intro a ha
    obtain ha | ha := List.mem_append.mp ha
    · exact h.fresh a ha
    · rw [List.mem_singleton.mp ha]
      exact hlt
  · intro j hq hnone
    have hlast : (q.apply id t).lastApplied j =
        if id = j then some ⟨id, t, q.queuedAt id⟩ else q.lastApplied j := lastApplied_append
    rw [hlast]
    split
    · next hj =>
      subst hj
      exact ⟨_, rfl, hlt⟩
    · next hj =>
      refine h.settled j hq ?_
      simpa [RowQuery.apply, Function.update_of_ne (Ne.symm hj)] using hnone

/-- Events that neither touch rows nor the loops. -/
theorem Rows.congr {r : RowQuery} (h : Rows q) (hp : r.pendingRows = q.pendingRows)
    (hr : r.rowRequests = q.rowRequests) (hl : r.loops = q.loops) (hc : r.clock = q.clock)
    (hq : r.queuedAt = q.queuedAt) (ha : r.applied = q.applied) : Rows r := by
  refine ⟨?_, ?_, ?_, ?_, ?_⟩
  · rw [hr, hl]
    exact h.requests
  · rw [hq, hc]
    exact h.clock
  · rw [hl, hp, hq]
    exact h.current
  · rw [ha]
    exact h.fresh
  · rw [hq, hp]
    unfold lastApplied
    rw [ha]
    exact h.settled

theorem Rows.flushRows (h : Rows q) : Rows q.flushRows := by
  unfold RowQuery.flushRows
  split
  · refine ⟨?_, h.clock, ?_, h.fresh, h.settled⟩
    · intro j
      have hj := h.requests j
      by_cases hn : (q.pendingRows j).isSome = true <;> by_cases hr : q.rowRequests j = true <;>
        simp_all
    · intro j r v g t _ hreq
      simp only at hreq
      split at hreq
      · cases hreq
      · exact h.current j r v g t (fun h => h) hreq
  · exact h

/-- A flush leaves no pending row unread, unless it meets a loop that is over. -/
theorem covered_flushRows (hgap : q.flushing = true → ∀ id, (q.pendingRows id).isSome = true →
    q.rowRequests id = true → Live (q.loops id)) : Covered q.flushRows := by
  unfold RowQuery.flushRows
  split
  · next hf =>
    intro _ _ _ j _ hp
    have hp : (q.pendingRows j).isSome = true := hp
    by_cases hr : q.rowRequests j = true
    · simpa [hr] using hgap hf j hp hr
    · exact .inl (by simp [hp, hr])
  · next hf =>
    intro hf'
    exact absurd hf' hf

theorem Rows.beforeFlush {r : RowQuery} {e : RowEvent} (h : Rows q)
    (he : q.beforeFlush e = some r) : Rows r := by
  cases e with
  | queueRow id =>
    obtain rfl := Option.some.inj he
    refine ⟨h.requests, ?_, ?_, h.fresh, ?_⟩
    · intro j
      by_cases hj : j = id
      · subst hj
        simp
      · simpa [hj] using (h.clock j).trans (Nat.le_succ _)
    · intro j r v g t _ hreq
      obtain ⟨r', hr', hle, hfresh⟩ := h.current j r v g t (fun h => h) hreq
      by_cases hj : j = id
      · subst hj
        refine ⟨r' + 1, by simp [hr'], by omega, fun heq => ?_⟩
        omega
      · exact ⟨r', by simpa [hj] using hr', hle, by simpa [hj] using hfresh⟩
    · intro j hq hnone
      by_cases hj : j = id
      · subst hj
        simp at hnone
      · have hs := h.settled j (by simpa [hj] using hq) (by simpa [hj] using hnone)
        simpa [hj, lastApplied] using hs
  | activate =>
    obtain rfl := Option.some.inj he
    exact h.congr rfl rfl rfl rfl rfl rfl
  | setHidden hidden =>
    obtain rfl := Option.some.inj he
    exact h.congr rfl rfl rfl rfl rfl rfl
  | loaded =>
    simp only [RowQuery.beforeFlush] at he
    split at he
    · obtain rfl := Option.some.inj he
      exact h.congr rfl rfl rfl rfl rfl rfl
    · cases he
  | _ => cases he

theorem Covered.but {p : Int → Prop} (h : Covered q) : CoveredBut q p :=
  fun hf hd hfail id _ hp => h hf hd hfail id (fun h => h) hp

theorem Rows.flushed {r : RowQuery} {e : RowEvent} (h : Rows q)
    (he : (q.beforeFlush e).map RowQuery.flushRows = some r) : Rows r := by
  obtain ⟨q', hq', rfl⟩ := Option.map_eq_some_iff.mp he
  exact (h.beforeFlush hq').flushRows

/-- Every step keeps the rows: a result is applied only from a current snapshot. -/
theorem rows_step {r : RowQuery} {e : RowEvent} (h : Rows q) (he : q.step e = some r) :
    Rows r := by
  cases e with
  | queueRow id => exact h.flushed (e := .queueRow id) he
  | activate => exact h.flushed (e := .activate) he
  | setHidden hidden => exact h.flushed (e := .setHidden hidden) he
  | loaded => exact h.flushed he
  | deactivate =>
    simp only [RowQuery.step] at he
    split at he
    · cases he
    · split at he <;> (obtain rfl := Option.some.inj he; exact h.congr rfl rfl rfl rfl rfl rfl)
  | loadFailed recent =>
    simp only [RowQuery.step] at he
    split at he
    · obtain rfl := Option.some.inj he
      exact h.congr rfl rfl rfl rfl rfl rfl
    · cases he
  | invalidate | load | changeSettings | changePolicy | destroy =>
    obtain rfl := Option.some.inj he
    exact h.congr rfl rfl rfl rfl rfl rfl
  | begin id =>
    simp only [RowQuery.step] at he
    split at he
    · next hl =>
      obtain rfl := Option.some.inj he
      exact (h.but _).turn (by simp [hl])
    · cases he
  | respond id settingsChanged =>
    simp only [RowQuery.step] at he
    split at he
    · next revision v g t hl =>
      obtain rfl := Option.some.inj he
      have hs : (q.loops id).isSome = true := by simp [hl]
      unfold RowQuery.respond
      split
      · have hi : Rows q.invalidate := h.congr rfl rfl rfl rfl rfl rfl
        exact (hi.but _).setLoop hs (by simp)
      · split
        · exact (h.but _).turn hs
        · next hsame =>
          split
          · exact (h.but _).setLoop hs (by simp)
          · have hp : q.pendingRows id = some revision := by
              by_contra hne
              exact hsame (.inr (.inl hne))
            exact (h.apply hl hp).turn hs
    · cases he
  | fail id =>
    simp only [RowQuery.step] at he
    split at he
    · next hl =>
      obtain rfl := Option.some.inj he
      have hr : Rows (q.setLoop id .thrown) := (h.but _).setLoop (by simp [hl]) (by simp)
      exact hr.congr rfl rfl rfl rfl rfl rfl
    · cases he
  | catched id =>
    simp only [RowQuery.step] at he
    split at he
    · next hl =>
      obtain rfl := Option.some.inj he
      have hr : Rows (q.setLoop id .ended) := (h.but _).setLoop (by simp [hl]) (by simp)
      exact hr.congr rfl rfl rfl rfl rfl rfl
    · cases he
  | cleared id =>
    simp only [RowQuery.step] at he
    split at he
    · obtain rfl := Option.some.inj he
      refine ⟨?_, h.clock, ?_, h.fresh, h.settled⟩
      · intro j
        by_cases hj : j = id
        · subst hj
          simp
        · simp [hj, h.requests]
      · intro j r v g t _ hreq
        by_cases hj : j = id
        · subst hj
          simp at hreq
        · simp only [Function.update_of_ne hj] at hreq
          exact h.current j r v g t (fun h => h) hreq
    · cases he

/-- A list that is shown less or less up to date after a step covers what it covered. -/
theorem Covered.congr {r : RowQuery} (h : Covered q) (hf : r.flushing = true → q.flushing = true)
    (hd : r.destroyed = false → q.destroyed = false) (hfail : r.failed = false → q.failed = false)
    (hp : r.pendingRows = q.pendingRows) (hl : r.loops = q.loops) : Covered r := by
  intro hf' hd' hfail' id hid hpend
  rw [hl]
  exact h (hf hf') (hd hd') (hfail hfail') id hid (hp ▸ hpend)

/-- A loop may end where its list is not shown or not up to date any more. -/
theorem covered_setLoop_of_not_flushing {loop : RowLoop} (h : q.flushing = false) :
    Covered (q.setLoop id loop) := by
  intro hf
  exact absurd ((show q.flushing = true from hf).symm.trans h) (by simp)

theorem beforeFlush_same {r : RowQuery} {e : RowEvent} (h : q.beforeFlush e = some r) :
    r.rowRequests = q.rowRequests ∧ r.loops = q.loops := by
  cases e with
  | loaded =>
    simp only [RowQuery.beforeFlush] at h
    split at h
    · obtain rfl := Option.some.inj h
      exact ⟨rfl, rfl⟩
    · cases h
  | queueRow | activate | setHidden =>
    obtain rfl := Option.some.inj h
    exact ⟨rfl, rfl⟩
  | _ => cases h

theorem covered_flushed {r : RowQuery} {e : RowEvent} (hgap : NoGap q e)
    (he : (q.beforeFlush e).map RowQuery.flushRows = some r) : Covered r := by
  obtain ⟨q', hq', rfl⟩ := Option.map_eq_some_iff.mp he
  obtain ⟨hreq, hloops⟩ := beforeFlush_same hq'
  refine covered_flushRows fun hf j hp hr => ?_
  rw [hloops]
  exact hgap q' hq' hf j hp (hreq ▸ hr)

theorem covered_step {r : RowQuery} {e : RowEvent} (h : Covered q) (hgap : NoGap q e)
    (he : q.step e = some r) : Covered r := by
  cases e with
  | queueRow id => exact covered_flushed hgap he
  | activate => exact covered_flushed hgap he
  | setHidden hidden => exact covered_flushed hgap he
  | loaded => exact covered_flushed hgap he
  | deactivate =>
    simp only [RowQuery.step] at he
    split at he
    · cases he
    · split at he
      · obtain rfl := Option.some.inj he
        intro hf
        simp [flushing, visible] at hf
      · obtain rfl := Option.some.inj he
        refine h.congr (fun hf => ?_) (fun h => h) (fun h => h) rfl rfl
        simp only [flushing, visible, Bool.and_eq_true, decide_eq_true_eq] at hf ⊢
        exact ⟨⟨hf.1.1, by omega⟩, hf.2⟩
  | loadFailed recent =>
    simp only [RowQuery.step] at he
    split at he
    · obtain rfl := Option.some.inj he
      refine h.congr (fun hf => ?_) (fun h => h) (fun h => h) rfl rfl
      simp only [flushing, visible, Bool.not_or, Bool.and_eq_true] at hf ⊢
      exact ⟨hf.1, hf.2.1⟩
    · cases he
  | invalidate =>
    obtain rfl := Option.some.inj he
    intro hf
    simp [flushing, RowQuery.invalidate] at hf
  | load =>
    obtain rfl := Option.some.inj he
    exact h.congr (fun h => h) (fun h => h) (fun h => h) rfl rfl
  | changeSettings show' =>
    obtain rfl := Option.some.inj he
    exact h.congr (fun h => h) (fun h => h) (fun h => h) rfl rfl
  | changePolicy =>
    obtain rfl := Option.some.inj he
    exact h.congr (fun h => h) (fun h => h) (fun h => h) rfl rfl
  | destroy =>
    obtain rfl := Option.some.inj he
    intro _ hd
    cases hd
  | begin id =>
    simp only [RowQuery.step] at he
    split at he
    · obtain rfl := Option.some.inj he
      exact CoveredBut.turn h.but
    · cases he
  | respond id settingsChanged =>
    simp only [RowQuery.step] at he
    split at he
    · next revision v g t hl =>
      obtain rfl := Option.some.inj he
      unfold RowQuery.respond
      split
      · exact covered_setLoop_of_not_flushing (by simp [flushing, RowQuery.invalidate])
      · split
        · exact CoveredBut.turn h.but
        · split
          · next hdirty => exact covered_setLoop_of_not_flushing (by simp [flushing, hdirty])
          · refine CoveredBut.turn fun hf hd hfail j hj hp => ?_
            refine h hf hd hfail j (fun h => h) ?_
            simpa [RowQuery.apply, Function.update_of_ne hj] using hp
    · cases he
  | fail id =>
    simp only [RowQuery.step] at he
    split at he
    · obtain rfl := Option.some.inj he
      intro _ _ hfail
      cases hfail
    · cases he
  | catched id =>
    simp only [RowQuery.step] at he
    split at he
    · next hl =>
      obtain rfl := Option.some.inj he
      intro hf hd hfail j hj hp
      have hlive := h hf hd hfail j hj hp
      by_cases hjd : j = id
      · subst hjd
        rw [hl] at hlive
        obtain hlive | ⟨_, _, _, _, hlive⟩ := hlive <;> cases hlive
      · simpa [RowQuery.setLoop, hjd] using hlive
    · cases he
  | cleared id =>
    simp only [RowQuery.step] at he
    split at he
    · next hl =>
      obtain rfl := Option.some.inj he
      intro hf hd hfail j hj hp
      have hlive := h hf hd hfail j hj hp
      by_cases hjd : j = id
      · subst hjd
        rw [hl] at hlive
        exact absurd hlive not_live_ended
      · simpa [hjd] using hlive
    · cases he

theorem covered_initial (kind : ListKind) (hidden show' : Bool) :
    Covered (initial kind hidden show') := by
  intro hf
  simp [flushing, visible, initial] at hf

/-- What is applied was always requested after its row had last been queued, and a queued row is
always read again in every run in which no flush meets a pending row between the end of its loop and
the continuation that clears its request. -/
theorem rows_reread {kind : ListKind} {hidden show' : Bool} {es : List RowEvent}
    (h : run step (initial kind hidden show') es = some q) :
    (∀ a ∈ q.applied, a.queuedAt < a.requestedAt) ∧
      (Along step NoGap (initial kind hidden show') es → Reread q) := by
  have hrows : Rows q :=
    run_invariant (fun _ _ _ hq he => rows_step hq he) (rows_initial kind hidden show') h
  refine ⟨hrows.fresh, fun hgap => ⟨hrows.fresh, fun hquiet hf hd hfail => ?_⟩⟩
  have hcovered : Covered q :=
    run_invariant_along (fun _ _ _ hq hno he => covered_step hq hno he)
      (covered_initial kind hidden show') hgap h
  have hnone : ∀ id, q.pendingRows id = none := by
    intro id
    by_contra hne
    have hlive := hcovered hf hd hfail id (fun h => h) (Option.isSome_iff_ne_none.mpr hne)
    rw [hquiet id] at hlive
    obtain hlive | ⟨_, _, _, _, hlive⟩ := hlive <;> cases hlive
  exact ⟨hnone, fun id hq => hrows.settled id hq (hnone id)⟩

/-- Reading one row of a shown list. -/
def readRow : List RowEvent :=
  [.activate, .loaded, .queueRow 1, .begin 1, .respond 1 false, .cleared 1]

theorem rows_reread_read_row : ∃ q, run step (initial .chats false true) readRow = some q ∧
    Reread q := by
  obtain ⟨q, hq⟩ := Option.isSome_iff_exists.mp
    (rfl : (run step (initial .chats false true) readRow).isSome = true)
  refine ⟨q, hq, (rows_reread hq).2 ?_⟩
  refine .cons rfl ?_ (.cons rfl ?_ (.cons rfl ?_ (.cons rfl ?_ (.cons rfl ?_ (.cons rfl ?_
    trivial)))))
  · intro r hr hf
    obtain rfl := Option.some.inj hr
    cases hf
  · intro r hr hf id hp hreq
    cases hreq
  · intro r hr hf id hp hreq
    cases hreq
  · intro r hr
    cases hr
  · intro r hr
    cases hr
  · intro r hr
    cases hr

/-- The row is queued again after its loop is over and before its request is cleared. -/
def gapRun : List RowEvent :=
  [.activate, .loaded, .queueRow 1, .begin 1, .respond 1 false, .queueRow 1, .cleared 1]

/-- No request follows: the list is quiet, shown and up to date with the row still pending. -/
theorem queued_row_lost : ¬ ∀ (kind : ListKind) (hidden show' : Bool) (es : List RowEvent)
    (q : RowQuery), run step (initial kind hidden show') es = some q → Reread q := by
  intro h
  obtain ⟨q, hq⟩ := Option.isSome_iff_exists.mp
    (rfl : (run step (initial .chats false true) gapRun).isSome = true)
  have hreread := h .chats false true gapRun q hq
  obtain rfl := Option.some.inj hq
  have hpending := (hreread.settled ?_ rfl rfl rfl).1 1
  · cases hpending
  · intro id
    by_cases hid : id = 1
    · subst hid
      rfl
    · simp [initial, flushRows, RowQuery.respond, apply, turn, setLoop, flushing, visible,
        Function.update, hid]

end RowQuery

end Chahua.Lists

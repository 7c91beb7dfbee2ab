import Chahua.Rpc.Batches

namespace Chahua.Rpc

open Framework

/-- What the activation of a session depends on. -/
structure Gate where
  opened : Bool
  bound : Bool
  activated : Bool
  ended : Bool
  firstMessage : Bool
  handshakePending : Bool
  batches : Table Nat BatchAssembly
  works : Table Origin Work
  spawning : Option Spawning
  guards : Nat
  activations : Nat
  received : List Received
  sent : List Frame

def Session.gate (s : Session) : Gate :=
  ⟨s.opened, s.bound, s.activated, s.ended, s.firstMessage, s.handshakePending, s.batches,
    s.works, s.spawning, s.guards, s.activations, s.received, s.sent⟩

/-- The responses a frame carries. -/
def Frame.responses : Frame → List PreparedResponse
  | .response r => [r]
  | .batch _ rs => rs
  | .lifecycle _ => []

/-- The call at a place of some received frames. -/
def callIn (received : List Received) (origin : Origin) : Option RpcCall :=
  ((received[origin.frame]?).bind fun r => r.items[origin.item]?).bind RpcItem.call?

theorem callIn_snoc {rs : List Received} {o : Origin} {call : RpcCall} (r : Received)
    (h : callIn rs o = some call) : callIn (rs ++ [r]) o = some call := by
  have hlt : o.frame < rs.length := by
    by_contra hge
    simp [callIn, List.getElem?_eq_none (Nat.le_of_not_lt hge)] at h
  simpa [callIn, List.getElem?_append_left hlt] using h

/-- A worker whose handshake succeeded and whose result is still to be delivered. -/
def Work.succeeded (w : Work) : Bool :=
  w.activateAfterSuccess && w.result.any WorkResult.succeeded

/-- The successes a delivered result brings. -/
def Work.carries (w : Work) (result : WorkResult) : Nat :=
  if w.activateAfterSuccess && result.succeeded then 1 else 0

theorem Work.one_le_carries {w : Work} {result : WorkResult}
    (hw : w.activateAfterSuccess = true) (hr : result.succeeded = true) :
    1 ≤ w.carries result := by
  simp [carries, hw, hr]

/-- A worker's result is about its call. -/
def Work.Reported (w : Work) (o : Origin) (result : WorkResult) : Prop :=
  result.response.isSome = w.call.id.isSome ∧
    ∀ p ∈ result.response, p.origin = o ∧ (p.success = true → result.succeeded = true)

namespace Gate

/-- A successful response to a handshake has been queued. -/
def Answered (g : Gate) : Prop :=
  ∃ f ∈ g.sent, ∃ r ∈ f.responses, r.success = true ∧
    ∃ call, callIn g.received r.origin = some call ∧ isHandshake call.method = true

/-- The worker of the first message. -/
def Opener (g : Gate) (o : Origin) (w : Work) : Prop :=
  w.destination = .single ∧ w.call.method = "session.open" ∧ w.call.id.isSome = true ∧
    w.closeAfterError = true ∧ callIn g.received o = some w.call

/-- Successful handshakes that have not reached `generation_checks` yet. -/
def tokens (g : Gate) : Nat :=
  (g.works.select fun _ w => w.succeeded).card +
    (g.batches.select fun _ b => b.succeeded).card +
    if g.spawning.any Spawning.succeeded then 1 else 0

/-- What `n` successful handshakes on their way to `generation_checks` mean. `good` says that
the run has kept the condition under which the guards are counted. -/
structure Counted (good : Prop) (opened bound handshakePending ended : Bool) (guards n : Nat) :
    Prop where
  known : 0 < n → opened = true
  pending : 0 < n → bound = true ∨ handshakePending = true ∨ ended = true
  one : good → guards ≤ 1 ∧ (ended = true ∨ guards + n ≤ 1)

/-- The invariant, with `k` successes in the hands of the results arm. -/
structure Guarded (good : Prop) (k : Nat) (g : Gate) : Prop where
  fresh : g.firstMessage = true →
    (∀ o, g.works.row o = none) ∧ (∀ b, g.batches.row b = none) ∧ g.handshakePending = false
  alone : g.handshakePending = true → (∀ b, g.batches.row b = none) ∧
    ∀ o w, g.works.row o = some w →
      g.spawning = none ∧ g.Opener o w ∧ ∀ o', o' ≠ o → g.works.row o' = none
  settled : g.firstMessage = true ∨ g.handshakePending = true ∨ g.ended = true ∨
    (g.Answered ∧ g.opened = true)
  spawned : g.spawning.isSome = true → g.ended = false ∧ g.Answered ∧ g.opened = true
  reported : ∀ o w result, g.works.row o = some w → w.result = some result →
    w.Reported o result
  once : g.activations ≤ 1
  activated : g.activated = false → g.activations = 0
  after : 0 < g.activations → g.Answered
  identified : g.bound = true → g.opened = true
  watched : 0 < g.guards → g.bound = true ∨ g.ended = true
  counted : Counted good g.opened g.bound g.handshakePending g.ended g.guards (g.tokens + k)

variable {good : Prop} {k j n m : Nat} {g : Gate}

theorem Counted.mono {opened bound handshakePending ended : Bool} {guards : Nat}
    (h : Counted good opened bound handshakePending ended guards n) (hm : m ≤ n) :
    Counted good opened bound handshakePending ended guards m where
  known hpos := h.known (by omega)
  pending hpos := h.pending (by omega)
  one hgood := ⟨(h.one hgood).1, (h.one hgood).2.imp_right fun hle => by omega⟩

theorem Answered.send {fs : List Frame} (h : g.Answered) :
    ({ g with sent := g.sent ++ fs } : Gate).Answered := by
  obtain ⟨f, hf, rest⟩ := h
  exact ⟨f, List.mem_append_left _ hf, rest⟩

theorem Answered.log {r : Received} (h : g.Answered) :
    ({ g with received := g.received ++ [r] } : Gate).Answered := by
  obtain ⟨f, hf, r, hr, hs, call, hcall, hhand⟩ := h
  exact ⟨f, hf, r, hr, hs, call, callIn_snoc _ hcall, hhand⟩

theorem Guarded.weaken (h : g.Guarded good k) (hj : j ≤ k) : g.Guarded good j :=
  { h with counted := h.counted.mono (by omega) }

theorem Guarded.send (h : g.Guarded good k) (fs : List Frame) :
    ({ g with sent := g.sent ++ fs } : Gate).Guarded good k :=
  { h with
    settled := h.settled.imp_right (Or.imp_right (Or.imp_right fun ha => ⟨ha.1.send, ha.2⟩))
    spawned := fun hs => ⟨(h.spawned hs).1, (h.spawned hs).2.1.send, (h.spawned hs).2.2⟩
    after := fun ha => (h.after ha).send }

/-- The loop is left. -/
theorem Guarded.shut (h : g.Guarded good k) (hs : g.spawning = none) :
    ({ g with ended := true, bound := false } : Gate).Guarded good k :=
  { h with
    settled := Or.inr (Or.inr (Or.inl rfl))
    spawned := fun hsome => by simp [hs] at hsome
    identified := by simp
    watched := fun _ => Or.inr rfl
    counted :=
      { h.counted with
        pending := fun _ => Or.inr (Or.inr rfl)
        one := fun hgood => ⟨(h.counted.one hgood).1, Or.inl rfl⟩ } }

/-- The first message did not open the session. -/
theorem Guarded.refuse (h : g.Guarded good k) (hs : g.spawning = none) :
    ({ g with firstMessage := false, ended := true, bound := false } : Gate).Guarded good k :=
  { h.shut hs with
    fresh := by simp
    settled := Or.inr (Or.inr (Or.inl rfl)) }

theorem Guarded.activate (h : g.Guarded good k) (ha : g.Answered) (hn : g.activated = false) :
    ({ g with activated := true, activations := g.activations + 1 } : Gate).Guarded good k :=
  { h with
    once := by simp [h.activated hn]
    activated := by simp
    after := fun _ => ha }

/-- The results arm has activated the session and holds the success of its handshake. -/
theorem Guarded.spawn {spawning : Spawning} (h : g.Guarded good k) (hs : g.spawning = none)
    (hempty : g.handshakePending = true → ∀ o, g.works.row o = none)
    (hg : g.ended = false ∧ g.Answered ∧ g.opened = true)
    (hk : spawning.succeeded = true → 1 ≤ k) :
    ({ g with spawning := some spawning } : Gate).Guarded good 0 := by
  have htokens : ({ g with spawning := some spawning } : Gate).tokens + 0 ≤ g.tokens + k := by
    by_cases hsucc : spawning.succeeded = true
    · have := hk hsucc
      simp only [tokens, hs, Option.any_some, Option.any_none, hsucc, if_true]
      simp
      omega
    · simp [tokens, hs, hsucc]
  exact
    { h with
      alone := fun hp => ⟨(h.alone hp).1, fun o w hw => by simp [hempty hp o] at hw⟩
      spawned := fun _ => hg
      counted := h.counted.mono (by omega) }

/-- Workers come and go without bringing a success. -/
theorem tokens_works_le {works : Table Origin Work}
    (h : ∀ o w, works.row o = some w → w.result = none ∨ g.works.row o = some w) :
    ({ g with works := works } : Gate).tokens ≤ g.tokens := by
  have : (works.select fun _ w => w.succeeded).card ≤
      (g.works.select fun _ w => w.succeeded).card := by
    refine Table.card_select_le fun o w hw hs => ?_
    rcases h o w hw with hr | hr
    · simp [Work.succeeded, hr] at hs
    · exact ⟨w, hr, hs⟩
  simp only [tokens]
  omega

theorem Guarded.works {works : Table Origin Work} (h : g.Guarded good k)
    (hw : ∀ o w, works.row o = some w → w.result = none ∨ g.works.row o = some w)
    (hf : g.firstMessage = false)
    (ha : g.handshakePending = true → ∀ o w, works.row o = some w →
      g.spawning = none ∧ g.Opener o w ∧ ∀ o', o' ≠ o → works.row o' = none) :
    ({ g with works := works } : Gate).Guarded good k := by
  have htokens := tokens_works_le hw
  exact
    { h with
      fresh := fun hfirst => by simp [hf] at hfirst
      alone := fun hp => ⟨(h.alone hp).1, ha hp⟩
      reported := fun o w result ho hr => by
        rcases hw o w ho with hnone | hold
        · rw [hnone] at hr
          cases hr
        · exact h.reported o w result hold hr
      counted := h.counted.mono (by omega) }

/-- A batch enters the table, over another one if its number is used again. -/
theorem Guarded.store {b : Nat} {batch : BatchAssembly} (h : g.Guarded good k)
    (hf : g.firstMessage = false) (hp : g.handshakePending = false)
    (hs : batch.succeeded = false) :
    ({ g with batches := g.batches.upsert b batch } : Gate).Guarded good k := by
  have htokens : ({ g with batches := g.batches.upsert b batch } : Gate).tokens ≤ g.tokens := by
    have : ((g.batches.upsert b batch).select fun _ b => b.succeeded).card ≤
        (g.batches.select fun _ b => b.succeeded).card := by
      refine Table.card_select_le fun b' v hv hsucc => ?_
      rw [Table.upsert_row] at hv
      split at hv
      · cases hv
        simp [hs] at hsucc
      · exact ⟨v, hv, hsucc⟩
    simp only [tokens]
    omega
  exact
    { h with
      fresh := fun hfirst => by simp [hf] at hfirst
      alone := fun hpend => by simp [hp] at hpend
      counted := h.counted.mono (by omega) }

theorem Guarded.log (h : g.Guarded good k) (hp : g.handshakePending = false) (r : Received) :
    ({ g with received := g.received ++ [r] } : Gate).Guarded good k :=
  { h with
    alone := fun hpend => by simp [hp] at hpend
    settled := h.settled.imp_right (Or.imp_right (Or.imp_right fun ha => ⟨ha.1.log, ha.2⟩))
    spawned := fun hs => ⟨(h.spawned hs).1, (h.spawned hs).2.1.log, (h.spawned hs).2.2⟩
    after := fun ha => (h.after ha).log }

/-- The first message leaves the handshake pending. -/
theorem Guarded.begin (h : g.Guarded good k) (hf : g.firstMessage = true) :
    ({ g with firstMessage := false, handshakePending := true } : Gate).Guarded good k :=
  { h with
    fresh := by simp
    alone := fun _ => ⟨(h.fresh hf).2.1, fun o w hw => by simp [(h.fresh hf).1 o] at hw⟩
    settled := Or.inr (Or.inl rfl)
    counted := { h.counted with pending := fun _ => Or.inr (Or.inl rfl) } }

/-- The worker whose result is delivered takes its success along. -/
theorem Guarded.take {o : Origin} {w : Work} {result : WorkResult} (h : g.Guarded good 0)
    (hw : g.works.row o = some w) (hr : w.result = some result) :
    ({ g with works := g.works.erase o } : Gate).Guarded good (w.carries result) := by
  have htokens : ({ g with works := g.works.erase o } : Gate).tokens + w.carries result =
      g.tokens + 0 := by
    have := @Table.card_select_erase _ _ _ g.works (fun _ w => w.succeeded) o w hw
    simp only [Work.succeeded, hr, Option.any_some] at this
    simp only [tokens, Work.succeeded, Work.carries]
    omega
  exact
    { h with
      fresh := fun hf => by simp [(h.fresh hf).1 o] at hw
      alone := fun hp => by
        refine ⟨(h.alone hp).1, fun o' w' hw' => ?_⟩
        obtain ⟨hne, hold⟩ := Table.row_of_erase hw'
        rw [((h.alone hp).2 o w hw).2.2 o' hne] at hold
        cases hold
      reported := fun o' w' result' hw' => h.reported o' w' result' (Table.row_of_erase hw').2
      counted := h.counted.mono (by omega) }

/-- A worker is gone without a result. -/
theorem Guarded.abort {o : Origin} {w : Work} (h : g.Guarded good k)
    (hw : g.works.row o = some w) :
    ({ g with works := g.works.erase o } : Gate).Guarded good k := by
  refine h.works (fun o' w' hw' => Or.inr (Table.row_of_erase hw').2) ?_ fun hp o' w' hw' => ?_
  · by_contra hf
    simp [(h.fresh (by simpa using hf)).1 o] at hw
  · obtain ⟨hne, hold⟩ := Table.row_of_erase hw'
    rw [((h.alone hp).2 o w hw).2.2 o' hne] at hold
    cases hold

/-- A delivered result enters its batch, its success with it. -/
theorem Guarded.absorb {b : Nat} {batch batch' : BatchAssembly} (h : g.Guarded good k)
    (hb : g.batches.row b = some batch)
    (hs : batch'.succeeded = true → batch.succeeded = true ∨ 1 ≤ k) :
    ({ g with batches := g.batches.upsert b batch' } : Gate).Guarded good 0 := by
  have htokens : ({ g with batches := g.batches.upsert b batch' } : Gate).tokens + 0 ≤
      g.tokens + k := by
    have := @Table.card_select_replace _ _ _ g.batches (fun _ b => b.succeeded) b batch batch' hb
    simp only [tokens]
    by_cases hsucc : batch'.succeeded = true
    · rcases hs hsucc with hold | hk
      · simp only [hsucc, hold, if_true] at this
        omega
      · simp only [hsucc, if_true] at this
        split at this <;> omega
    · simp only [hsucc, Bool.false_eq_true, if_false] at this
      split at this <;> omega
  exact
    { h with
      fresh := fun hf => by simp [(h.fresh hf).2.1 b] at hb
      alone := fun hp => by simp [(h.alone hp).1 b] at hb
      counted := h.counted.mono (by omega) }

/-- A finished batch leaves the table and gives its success back. -/
theorem Guarded.complete {b : Nat} {batch : BatchAssembly} (h : g.Guarded good k)
    (hb : g.batches.row b = some batch) :
    ({ g with batches := g.batches.erase b } : Gate).Guarded good
      (k + if batch.succeeded then 1 else 0) := by
  have htokens : ({ g with batches := g.batches.erase b } : Gate).tokens +
      (k + if batch.succeeded then 1 else 0) = g.tokens + k := by
    have := @Table.card_select_erase _ _ _ g.batches (fun _ b => b.succeeded) b batch hb
    simp only [tokens]
    omega
  exact
    { h with
      fresh := fun hf => by simp [(h.fresh hf).2.1 b] at hb
      alone := fun hp => by simp [(h.alone hp).1 b] at hb
      counted := h.counted.mono (by omega) }

/-- `generation_checks` is started when an identity is bound. -/
theorem Guarded.watch {spawning : Spawning} (h : g.Guarded good 0)
    (hs : g.spawning = some spawning)
    (hgood : good → g.bound = true → spawning.succeeded = true) :
    let t : Gate := { g with
      spawning := none
      guards := if g.bound then g.guards + 1 else g.guards }
    t.Guarded good 0 ∧ (0 < t.tokens → t.bound = true) ∧ t.Answered ∧ t.opened = true := by
  intro t
  obtain ⟨hended, hans, hop⟩ := h.spawned (by simp [hs])
  have htokens : t.tokens + (if spawning.succeeded then 1 else 0) = g.tokens := by
    simp [t, tokens, hs]
  have hidle : g.handshakePending = true → ∀ o, g.works.row o = none := by
    intro hp o
    by_contra hsome
    obtain ⟨w, hw⟩ := Option.ne_none_iff_exists'.mp hsome
    rw [((h.alone hp).2 o w hw).1] at hs
    cases hs
  have hbound : 0 < t.tokens → g.bound = true := by
    intro hpos
    rcases h.counted.pending (by omega) with hb | hp | he
    · exact hb
    · have hworks : t.works.select (fun _ w => w.succeeded) = ∅ := by
        refine Finset.eq_empty_of_forall_notMem fun o ho => ?_
        obtain ⟨w, hw, -⟩ := Table.mem_select.mp ho
        rw [show t.works.row o = none from hidle hp o] at hw
        cases hw
      have hbatches : t.batches.select (fun _ b => b.succeeded) = ∅ := by
        refine Finset.eq_empty_of_forall_notMem fun b hb => ?_
        obtain ⟨batch, hrow, -⟩ := Table.mem_select.mp hb
        rw [show t.batches.row b = none from (h.alone hp).1 b] at hrow
        cases hrow
      simp [tokens, hworks, hbatches, t] at hpos
    · rw [hended] at he
      cases he
  refine ⟨?_, hbound, hans, hop⟩
  exact
    { h with
      alone := fun hp => ⟨(h.alone hp).1, fun o w hw => by
        rw [show t.works.row o = none from hidle hp o] at hw
        cases hw⟩
      spawned := fun hsome => by simp [t] at hsome
      watched := fun hpos => by
        by_cases hb : g.bound = true
        · exact Or.inl hb
        · exact h.watched (by simpa [t, hb] using hpos)
      counted := by
        refine ⟨fun hpos => h.counted.known (by omega), fun hpos => Or.inl (hbound hpos),
          fun hg => ?_⟩
        have hone := (h.counted.one hg).2
        simp only [hended, Bool.false_eq_true, false_or] at hone ⊢
        by_cases hb : g.bound = true
        · have hsucc := hgood hg hb
          simp only [t, hb, hsucc, if_true] at htokens ⊢
          omega
        · simp only [t, hb, Bool.false_eq_true, if_false] at htokens ⊢
          omega }

theorem Guarded.resume (h : g.Guarded good k) (hb : 0 < g.tokens + k → g.bound = true)
    (ha : g.Answered ∧ g.opened = true) :
    ({ g with handshakePending := false } : Gate).Guarded good k :=
  { h with
    fresh := fun hf => ⟨(h.fresh hf).1, (h.fresh hf).2.1, rfl⟩
    alone := by simp
    settled := Or.inr (Or.inr (Or.inr ha))
    counted := { h.counted with pending := fun hpos => Or.inl (hb hpos) } }

/-- A dispatched call has a result. A success finds no other one before it. -/
theorem Guarded.report {o : Origin} {w : Work} {result : WorkResult} {opened bound : Bool}
    (h : g.Guarded good 0) (hw : g.works.row o = some w) (hn : w.result = none)
    (hr : w.Reported o result) (ho : g.opened = true → opened = true)
    (hb : g.bound = true → bound = true) (hi : bound = true → opened = true)
    (hs : (w.activateAfterSuccess && result.succeeded) = true → opened = true ∧
      (bound = true ∨ g.handshakePending = true ∨ g.ended = true) ∧
      (g.ended = true ∨ (g.guards = 0 ∧ g.tokens = 0))) :
    ({ g with
      opened := opened
      bound := bound
      works := g.works.upsert o { w with result := some result } } : Gate).Guarded good 0 := by
  have hrow : ∀ o' w', (g.works.upsert o { w with result := some result }).row o' = some w' →
      (o' = o ∧ w' = { w with result := some result }) ∨ (o' ≠ o ∧ g.works.row o' = some w') := by
    intro o' w' hw'
    rw [Table.upsert_row] at hw'
    split at hw'
    · next heq =>
      cases hw'
      exact Or.inl ⟨heq, rfl⟩
    · next hne => exact Or.inr ⟨hne, hw'⟩
  have hcard := @Table.card_select_replace _ _ _ g.works (fun _ w => w.succeeded) o w
    { w with result := some result } hw
  have hold : w.succeeded = false := by simp [Work.succeeded, hn]
  have hnew : ({ w with result := some result } : Work).succeeded =
      (w.activateAfterSuccess && result.succeeded) := rfl
  rw [hold, hnew] at hcard
  exact
    { h with
      fresh := fun hf => by simp [(h.fresh hf).1 o] at hw
      alone := fun hp => by
        refine ⟨(h.alone hp).1, fun o' w' hw' => ?_⟩
        obtain ⟨hidle, hopener, hlone⟩ := (h.alone hp).2 o w hw
        rcases hrow o' w' hw' with ⟨rfl, rfl⟩ | ⟨hne, hold⟩
        · exact ⟨hidle, hopener, fun o'' hne => by simp [Table.upsert_row, hne, hlone o'' hne]⟩
        · rw [hlone o' hne] at hold
          cases hold
      settled := h.settled.imp_right (Or.imp_right (Or.imp_right fun ha => ⟨ha.1, ho ha.2⟩))
      spawned := fun hsome => ⟨(h.spawned hsome).1, (h.spawned hsome).2.1,
        ho (h.spawned hsome).2.2⟩
      reported := fun o' w' result' hw' hr' => by
        rcases hrow o' w' hw' with ⟨rfl, rfl⟩ | ⟨-, hold⟩
        · cases hr'
          exact hr
        · exact h.reported o' w' result' hold hr'
      identified := hi
      watched := fun hpos => (h.watched hpos).imp_left hb
      counted := by
        by_cases hsucc : (w.activateAfterSuccess && result.succeeded) = true
        · obtain ⟨hop, hpend, hg⟩ := hs hsucc
          refine ⟨fun _ => hop, fun _ => hpend, fun hgood => ⟨(h.counted.one hgood).1, ?_⟩⟩
          rw [hsucc] at hcard
          simp only [tokens, Bool.false_eq_true, if_true, if_false] at hcard hg ⊢
          exact hg.imp_right fun hg => by omega
        · simp only [hsucc, Bool.false_eq_true, if_false] at hcard
          refine Counted.mono (n := g.tokens) ?_ ?_
          · exact ⟨fun hpos => ho (h.counted.known hpos),
              fun hpos => (h.counted.pending hpos).imp_left hb, h.counted.one⟩
          · simp only [tokens]
            omega }

end Gate
end Chahua.Rpc

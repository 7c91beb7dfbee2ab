import Chahua.Framework.Run
import Mathlib.Data.List.Chain
import Mathlib.Tactic.Common

namespace Chahua.Unread

open Framework

/-- What a watch loop sends on its output. -/
inductive WatchMessage (P : Type) where
  | payload (p : P)
  | error (requestId : Nat)

/-- `replaced` says that the subscription was replaced while the load behind the message was in
flight; it is kept for the statements only. -/
structure WatchEvent (P : Type) where
  generation : Nat
  message : WatchMessage P
  replaced : Bool

/-- A load that was not discarded: its subscription, its result, and what it had to send. -/
structure Answer (S P : Type) where
  subscription : Nat
  result : Option S
  message : Option (WatchMessage P)

inductive Phase (P : Type) where
  | selecting
  | loading (replaced : Bool)
  | sending (message : WatchMessage P) (replaced : Bool)
  | stopped

/-- Where the two copies of `run_with` differ: how the published state turns a snapshot into a
payload, what is reset after an error and after a publication, and when to load again. -/
structure Publisher (W S P σ : Type) where
  requestId : W → Nat
  generation : W → Nat
  fresh : σ
  update : σ → Nat → S → σ × Option P
  settle : σ → σ
  fail : σ → σ
  expiry : S → Option Nat

/-- The locals of `run_with`, its channels and its clock (in milliseconds). `subscription`
(how many were taken), `loaded` (the last successful load of the current one) and `answers`
are kept for the statements only. -/
structure Watcher (W S P σ : Type) where
  latest : Option W
  unseen : Bool
  dropped : Bool
  dirty : Bool
  now : Nat
  current : Option W
  publisher : σ
  deadline : Option Nat
  retry : Nat
  phase : Phase P
  output : List (WatchEvent P)
  subscription : Nat
  loaded : Option S
  answers : List (Answer S P)

/-- `changed`, `disconnected`, `due` and `dirty` are the arms of the `select!`. -/
inductive LoopEvent (W S : Type) where
  | replace (watch : Option W)
  | drop
  | notify
  | tick (elapsed : Nat)
  | changed
  | disconnected
  | due
  | dirty
  | loaded (result : Option S)
  | sent (ok : Bool)

def coalesce : Nat := 150

def firstRetry : Nat := 1000

def maxRetry : Nat := 30000

namespace Watcher

variable {W S P σ : Type} (p : Publisher W S P σ)

def init : Watcher W S P σ where
  latest := none
  unseen := false
  dropped := false
  dirty := false
  now := 0
  current := none
  publisher := p.fresh
  deadline := none
  retry := firstRetry
  phase := .selecting
  output := []
  subscription := 0
  loaded := none
  answers := []

/-- The load in flight is one of a replaced subscription. -/
def Phase.overtaken : Phase P → Phase P
  | .loading _ => .loading true
  | phase => phase

/-- The subscription has not changed: the result is used. -/
def answer (s : Watcher W S P σ) (watch : W) (replaced : Bool) : Option S → Watcher W S P σ
  | some snapshot =>
      let (publisher, payload) := p.update s.publisher (p.requestId watch) snapshot
      let s : Watcher W S P σ := { s with
        retry := firstRetry
        deadline := (p.expiry snapshot).map fun remaining => s.now + remaining
        loaded := some snapshot
        answers := s.answers ++
          [⟨s.subscription, some snapshot, payload.map WatchMessage.payload⟩] }
      match payload with
      | some payload =>
          { s with publisher := publisher, phase := .sending (.payload payload) replaced }
      | none => { s with publisher := p.settle publisher, phase := .selecting }
  | none =>
      { s with
        publisher := p.fail s.publisher
        deadline := some (s.now + s.retry)
        retry := min (s.retry * 2) maxRetry
        phase := .sending (.error (p.requestId watch)) replaced
        answers := s.answers ++
          [⟨s.subscription, none, some (.error (p.requestId watch))⟩] }

/-- The message is in the output. -/
def publish (s : Watcher W S P σ) (watch : W) (message : WatchMessage P) (replaced : Bool) :
    Watcher W S P σ :=
  { s with
    phase := .selecting
    output := s.output ++ [⟨p.generation watch, message, replaced⟩]
    publisher :=
      match message with
      | .payload _ => p.settle s.publisher
      | .error _ => s.publisher }

/-- One step of the loop or of its surroundings. `biased` takes the first arm that is ready;
here any ready arm may run, as a signal may arrive between two polls. -/
def step (s : Watcher W S P σ) : LoopEvent W S → Option (Watcher W S P σ)
  | .replace watch =>
      if s.dropped then none
      else some { s with latest := watch, unseen := true, phase := Phase.overtaken s.phase }
  | .drop => some { s with dropped := true }
  | .notify => some { s with dirty := true }
  | .tick elapsed => some { s with now := s.now + elapsed }
  | .changed =>
      match s.phase with
      | .selecting =>
          if s.unseen then
            some { s with
              unseen := false
              current := s.latest
              publisher := p.fresh
              retry := firstRetry
              deadline := s.latest.map fun _ => s.now
              subscription := s.subscription + 1
              loaded := none }
          else none
      | _ => none
  | .disconnected =>
      match s.phase with
      | .selecting => if !s.unseen && s.dropped then some { s with phase := .stopped } else none
      | _ => none
  | .due =>
      match s.phase, s.deadline with
      | .selecting, some deadline =>
          if s.now < deadline then none
          else if s.current.isSome then some { s with phase := .loading s.unseen }
          else some s
      | _, _ => none
  | .dirty =>
      match s.phase with
      | .selecting =>
          if s.dirty && s.current.isSome then
            let due := s.now + coalesce
            some { s with
              dirty := false
              deadline := some (s.deadline.elim due fun existing => min existing due) }
          else none
      | _ => none
  | .loaded result =>
      match s.phase, s.current with
      | .loading replaced, some watch =>
          if s.dropped then some { s with phase := .stopped }
          else if s.unseen then some { s with phase := .selecting }
          else some (s.answer p watch replaced result)
      | _, _ => none
  | .sent ok =>
      match s.phase, s.current with
      | .sending message replaced, some watch =>
          if ok then some (s.publish p watch message replaced)
          else some { s with phase := .stopped }
      | _, _ => none

end Watcher

/-- A client keeps a view for each request id. -/
structure Client (P V : Type) where
  requestId : P → Nat
  full : P → Bool
  empty : V
  apply : P → V → V

namespace Client

variable {P V : Type}

def receive (c : Client P V) (requestId : Nat) (view : V) : WatchMessage P → V
  | .payload p => if c.requestId p = requestId then c.apply p view else view
  | .error _ => view

/-- What the client holds under a request id after some output. -/
def view (c : Client P V) (output : List (WatchEvent P)) (requestId : Nat) : V :=
  output.foldl (fun view o => c.receive requestId view o.message) c.empty

theorem view_snoc (c : Client P V) (output : List (WatchEvent P)) (o : WatchEvent P)
    (requestId : Nat) :
    c.view (output ++ [o]) requestId = c.receive requestId (c.view output requestId) o.message := by
  simp [view]

end Client

/-- How the published state stands to the client: `Pending` when the next payload is full,
`Tracks` when it remembers the snapshot the client holds. -/
structure Faithful {W S P σ V : Type} (p : Publisher W S P σ) (c : Client P V)
    (valid : W → S → Prop) (content : S → V) (Pending : σ → Prop) (Tracks : σ → S → Prop) :
    Prop where
  fresh : Pending p.fresh
  fail : ∀ x, Pending (p.fail x)
  first : ∀ x w id new, Pending x → valid w new →
    Tracks (p.settle (p.update x id new).1) new ∧
      ∃ q, (p.update x id new).2 = some q ∧ c.full q = true ∧ c.requestId q = id ∧
        ∀ v, c.apply q v = content new
  next : ∀ x w id old new, Tracks x old → valid w old → valid w new →
    Tracks (p.settle (p.update x id new).1) new ∧
      ((p.update x id new).2 = none ∧ content old = content new ∨
        ∃ q, (p.update x id new).2 = some q ∧ c.requestId q = id ∧
          c.apply q (content old) = content new)

/-- After an error the next successful load is published in full. -/
def FullAfterError {S P V : Type} (c : Client P V) (a b : Answer S P) : Prop :=
  a.result = none → b.result.isSome = true → a.subscription = b.subscription →
    ∃ q, b.message = some (.payload q) ∧ c.full q = true

/-- What a watch loop promises its client. -/
structure Reconstructs {W S P σ V : Type} (p : Publisher W S P σ) (c : Client P V)
    (content : S → V) (s : Watcher W S P σ) : Prop where
  held : s.phase = .selecting ∨ (∃ replaced, s.phase = .loading replaced) →
    ∀ watch snapshot, s.current = some watch → s.loaded = some snapshot →
      c.view s.output (p.requestId watch) = content snapshot
  full : s.answers.IsChain (FullAfterError c)
  silent : ∀ o ∈ s.output, o.replaced = false

namespace Watcher

variable {W S P σ V : Type} {p : Publisher W S P σ} {c : Client P V} {valid : W → S → Prop}
  {content : S → V} {Pending : σ → Prop} {Tracks : σ → S → Prop} {s t : Watcher W S P σ}

/-- A load answers with a snapshot of the watch it was made for. -/
def Answers (valid : W → S → Prop) (s : Watcher W S P σ) : LoopEvent W S → Prop
  | .loaded (some snapshot) => ∀ watch ∈ s.current, valid watch snapshot
  | _ => True

/-- The published state and the client's view agree between two publications. -/
structure Settled (p : Publisher W S P σ) (c : Client P V) (content : S → V)
    (Pending : σ → Prop) (Tracks : σ → S → Prop) (publisher : σ) (current : Option W)
    (output : List (WatchEvent P)) (loaded : Option S) : Prop where
  known : Pending publisher ∨ ∃ snapshot, loaded = some snapshot ∧ Tracks publisher snapshot
  held : ∀ watch snapshot, current = some watch → loaded = some snapshot →
    c.view output (p.requestId watch) = content snapshot

/-- What holds at each place of the loop. -/
def At (p : Publisher W S P σ) (c : Client P V) (content : S → V) (Pending : σ → Prop)
    (Tracks : σ → S → Prop) (s : Watcher W S P σ) : Phase P → Prop
  | .selecting => Settled p c content Pending Tracks s.publisher s.current s.output s.loaded
  | .loading replaced => replaced = s.unseen ∧
      Settled p c content Pending Tracks s.publisher s.current s.output s.loaded
  | .sending (.payload q) replaced => replaced = false ∧
      (∀ a ∈ s.answers.getLast?, a.result.isSome = true) ∧
      ∃ watch snapshot, s.current = some watch ∧ s.loaded = some snapshot ∧
        Tracks (p.settle s.publisher) snapshot ∧ c.requestId q = p.requestId watch ∧
        c.apply q (c.view s.output (p.requestId watch)) = content snapshot
  | .sending (.error _) replaced => replaced = false ∧
      Settled p c content Pending Tracks s.publisher s.current s.output s.loaded
  | .stopped => True

structure Consistent (p : Publisher W S P σ) (c : Client P V) (valid : W → S → Prop)
    (content : S → V) (Pending : σ → Prop) (Tracks : σ → S → Prop) (s : Watcher W S P σ) :
    Prop where
  valid : ∀ watch snapshot, s.current = some watch → s.loaded = some snapshot →
    valid watch snapshot
  place : At p c content Pending Tracks s s.phase
  failed : ∀ a ∈ s.answers.getLast?, a.result = none → Pending s.publisher
  full : s.answers.IsChain (FullAfterError c)
  silent : ∀ o ∈ s.output, o.replaced = false

theorem init_consistent (hf : Faithful p c valid content Pending Tracks) :
    Consistent p c valid content Pending Tracks (init p) where
  valid _ _ h := by cases h
  place := ⟨Or.inl hf.fresh, fun _ _ h => by cases h⟩
  failed _ h := by cases h
  full := .nil
  silent _ h := by cases h

theorem isChain_snoc {α : Type} {R : α → α → Prop} {l : List α} {a : α} (h : l.IsChain R)
    (ha : ∀ b ∈ l.getLast?, R b a) : (l ++ [a]).IsChain R := by
  rw [List.isChain_append]
  exact ⟨h, .singleton a, fun b hb x hx => by
    obtain rfl : a = x := by simpa using hx
    exact ha b hb⟩

/-- The result of a load is used. -/
theorem answer_consistent (hf : Faithful p c valid content Pending Tracks)
    (h : Consistent p c valid content Pending Tracks s) {watch : W} {result : Option S}
    (hw : s.current = some watch)
    (hs : Settled p c content Pending Tracks s.publisher s.current s.output s.loaded)
    (hv : ∀ snapshot ∈ result, valid watch snapshot) :
    Consistent p c valid content Pending Tracks (s.answer p watch false result) := by
  cases result with
  | none =>
    exact
      { valid := h.valid
        place := ⟨rfl, Or.inl (hf.fail _), hs.held⟩
        failed := fun _ _ _ => hf.fail _
        full := isChain_snoc h.full fun _ _ _ hb => by simp at hb
        silent := h.silent }
  | some snapshot =>
    have hvalid := hv snapshot rfl
    have hfull : ∀ a ∈ s.answers.getLast?, a.result = none → ∃ q,
        (p.update s.publisher (p.requestId watch) snapshot).2 = some q ∧ c.full q = true := by
      intro a ha hnone
      obtain ⟨-, q, hq, hfull, -⟩ := hf.first _ watch (p.requestId watch) snapshot
        (h.failed a ha hnone) hvalid
      exact ⟨q, hq, hfull⟩
    obtain ⟨htracks, hcase⟩ :
        Tracks (p.settle (p.update s.publisher (p.requestId watch) snapshot).1) snapshot ∧
          ((p.update s.publisher (p.requestId watch) snapshot).2 = none ∧
              c.view s.output (p.requestId watch) = content snapshot ∨
            ∃ q, (p.update s.publisher (p.requestId watch) snapshot).2 = some q ∧
              c.requestId q = p.requestId watch ∧
              c.apply q (c.view s.output (p.requestId watch)) = content snapshot) := by
      rcases hs.known with hpending | ⟨old, hold, htracks⟩
      · obtain ⟨ht, q, hq, -, hid, happly⟩ := hf.first _ watch (p.requestId watch) snapshot
          hpending hvalid
        exact ⟨ht, Or.inr ⟨q, hq, hid, happly _⟩⟩
      · rw [hs.held watch old hw hold]
        exact hf.next _ watch (p.requestId watch) old snapshot htracks (h.valid watch old hw hold)
          hvalid
    rcases hu : p.update s.publisher (p.requestId watch) snapshot with ⟨publisher, payload⟩
    rw [hu] at hfull htracks hcase
    unfold answer
    simp only [hu]
    have hvalid' : ∀ watch' snapshot', s.current = some watch' → some snapshot = some snapshot' →
        valid watch' snapshot' := by
      rintro watch' _ hw' ⟨⟩
      obtain rfl : watch = watch' := Option.some.inj (hw.symm.trans hw')
      exact hvalid
    have hchain : (s.answers ++ [(⟨s.subscription, some snapshot,
        payload.map WatchMessage.payload⟩ : Answer S P)]).IsChain (FullAfterError c) := by
      refine isChain_snoc h.full fun a ha hnone _ _ => ?_
      obtain ⟨q, hq, hq'⟩ := hfull a ha hnone
      exact ⟨q, by simp [show payload = some q from hq], hq'⟩
    rcases hcase with ⟨hnone, hview⟩ | ⟨q, hq, hid, happly⟩
    · obtain rfl : payload = none := hnone
      exact
        { valid := hvalid'
          place := ⟨Or.inr ⟨snapshot, rfl, htracks⟩, by
            rintro watch' _ hw' ⟨⟩
            obtain rfl : watch = watch' := Option.some.inj (hw.symm.trans hw')
            exact hview⟩
          failed := fun a ha hnone => by simp at ha; simp [← ha] at hnone
          full := hchain
          silent := h.silent }
    · obtain rfl : payload = some q := hq
      exact
        { valid := hvalid'
          place := ⟨rfl, by simp, watch, snapshot, hw, rfl, htracks, hid, happly⟩
          failed := fun a ha hnone => by simp at ha; simp [← ha] at hnone
          full := hchain
          silent := h.silent }

/-- The message is sent. -/
theorem publish_consistent (h : Consistent p c valid content Pending Tracks s)
    {message : WatchMessage P} {replaced : Bool} {watch : W}
    (hp : s.phase = .sending message replaced) (hw : s.current = some watch) :
    Consistent p c valid content Pending Tracks (s.publish p watch message replaced) := by
  have hsilent : replaced = false → ∀ o ∈ s.output ++
      [(⟨p.generation watch, message, replaced⟩ : WatchEvent P)], o.replaced = false := by
    rintro rfl o ho
    rcases List.mem_append.mp ho with ho | ho
    · exact h.silent o ho
    · obtain rfl := List.mem_singleton.mp ho
      rfl
  have hplace := h.place
  rw [hp] at hplace
  cases message with
  | payload q =>
    obtain ⟨hr, hlast, watch', snapshot, hw', hl, htracks, hid, happly⟩ := hplace
    obtain rfl : watch = watch' := Option.some.inj (hw.symm.trans hw')
    have hview : c.view (s.output ++ [(⟨p.generation watch, .payload q, replaced⟩ : WatchEvent P)])
        (p.requestId watch) = content snapshot := by
      rw [Client.view_snoc, Client.receive, if_pos hid, happly]
    exact
      { h with
        place := ⟨Or.inr ⟨snapshot, hl, htracks⟩, fun watch' snapshot' hw' hl' => by
          obtain rfl : watch = watch' := Option.some.inj (hw.symm.trans hw')
          obtain rfl : snapshot = snapshot' := Option.some.inj (hl.symm.trans hl')
          exact hview⟩
        failed := fun a ha hnone => by simpa [hnone] using hlast a ha
        silent := hsilent hr }
  | error id =>
    obtain ⟨hr, hs⟩ := hplace
    exact
      { h with
        place := ⟨hs.known, fun watch' snapshot' hw' hl' => by
          rw [publish, Client.view_snoc]
          exact hs.held watch' snapshot' hw' hl'⟩
        silent := hsilent hr }

/-- Every step keeps client and publisher together. -/
theorem step_consistent (hf : Faithful p c valid content Pending Tracks) {e : LoopEvent W S}
    (h : Consistent p c valid content Pending Tracks s) (ha : Answers valid s e)
    (ht : step p s e = some t) : Consistent p c valid content Pending Tracks t := by
  have hplace := h.place
  cases e with
  | replace watch =>
    simp only [step] at ht
    split at ht
    · cases ht
    · cases ht
      refine { h with place := ?_ }
      cases hp : s.phase with
      | loading replaced =>
        rw [hp] at hplace
        exact ⟨rfl, hplace.2⟩
      | selecting =>
        rw [hp] at hplace
        exact hplace
      | sending message replaced =>
        rw [hp] at hplace
        cases message <;> exact hplace
      | stopped => trivial
  | drop =>
    cases ht
    exact { h with place := hplace }
  | notify =>
    cases ht
    exact { h with place := hplace }
  | tick elapsed =>
    cases ht
    exact { h with place := hplace }
  | changed =>
    simp only [step] at ht
    split at ht
    · next hp =>
      split at ht
      · cases ht
        exact
          { valid := fun _ _ _ hl => by cases hl
            place := by
              simp only [hp]
              exact ⟨Or.inl hf.fresh, fun _ _ _ hl => by cases hl⟩
            failed := fun _ _ _ => hf.fresh
            full := h.full
            silent := h.silent }
      · cases ht
    · cases ht
  | disconnected =>
    simp only [step] at ht
    split at ht
    · split at ht
      · cases ht
        exact { h with place := trivial }
      · cases ht
    · cases ht
  | due =>
    simp only [step] at ht
    split at ht
    · next deadline hp _ =>
      rw [hp] at hplace
      split at ht
      · cases ht
      split at ht
      · cases ht
        exact { h with place := ⟨rfl, hplace⟩ }
      · cases ht
        exact h
    · cases ht
  | dirty =>
    simp only [step] at ht
    split at ht
    · split at ht
      · cases ht
        exact { h with place := hplace }
      · cases ht
    · cases ht
  | loaded result =>
    simp only [step] at ht
    split at ht
    · next replaced watch hp hw =>
      rw [hp] at hplace
      split at ht
      · cases ht
        exact { h with place := trivial }
      split at ht
      · cases ht
        exact { h with place := hplace.2 }
      · next hunseen =>
        obtain rfl : replaced = false := hplace.1.trans (Bool.not_eq_true _ ▸ hunseen)
        cases ht
        refine answer_consistent hf h hw hplace.2 fun snapshot hs => ?_
        subst hs
        exact ha watch hw
    · cases ht
  | sent ok =>
    simp only [step] at ht
    split at ht
    · next message replaced watch hp hw =>
      split at ht
      · cases ht
        exact publish_consistent h hp hw
      · cases ht
        exact { h with place := trivial }
    · cases ht

/-- Whatever the loads and signals, the client ends up with the last load. -/
theorem run_reconstructs (hf : Faithful p c valid content Pending Tracks)
    {es : List (LoopEvent W S)} (h : run (step p) (init p) es = some s)
    (ha : Along (step p) (Answers valid) (init p) es) : Reconstructs p c content s := by
  have hs : Consistent p c valid content Pending Tracks s :=
    run_invariant_along (fun _ _ _ hi hok ht => step_consistent hf hi hok ht)
      (init_consistent hf) ha h
  refine ⟨fun hp => ?_, hs.full, hs.silent⟩
  have hplace := hs.place
  rcases hp with hp | ⟨replaced, hp⟩
  · rw [hp] at hplace
    exact hplace.held
  · rw [hp] at hplace
    exact hplace.2.held

end Watcher

end Chahua.Unread

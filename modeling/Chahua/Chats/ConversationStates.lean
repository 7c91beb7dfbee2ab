import Chahua.Framework.Run
import Mathlib.Data.List.Basic

namespace Chahua.Chats

universe u

/-- A `conversationStates` notification, as far as it concerns one scope. -/
structure StatePush (S : Type u) where
  requestId : Nat
  full : Bool
  state : S

/-- `conversationStates` for one scope, with the connection and the server behind it. `inScopes`
says whether `scopes()` has the scope, `requests` are the watch requests in flight with whether
they name it, `watching` is the request the server serves it for, and `last` the last state the
client has received under its current request. -/
structure StateWatch (S : Type u) where
  connected : Bool
  inScopes : Bool
  requestId : Nat
  fullRequestId : Nat
  selected : Bool
  server : S
  published : Option S
  requests : List (Nat × Bool)
  watching : Option Nat
  pushes : List (StatePush S)
  last : Option S

namespace StateWatch

variable {S : Type u}

def ready (w : StateWatch S) : Prop :=
  w.fullRequestId = w.requestId ∧ w.connected = true ∧ w.selected = true

instance (w : StateWatch S) : Decidable w.ready :=
  inferInstanceAs (Decidable (_ ∧ _ ∧ _))

def isSelected (w : StateWatch S) : Bool := w.connected && w.selected

/-- The notifications of the current request still to arrive. -/
def inFlight (w : StateWatch S) : List (StatePush S) :=
  w.pushes.filter fun p => p.requestId = w.requestId

/-- `refresh`, and the effect that follows the account, the connection and the scopes. -/
def publish (w : StateWatch S) : StateWatch S :=
  let id := w.requestId + 1
  let selected := w.connected && w.inScopes
  { w with
    requestId := id, fullRequestId := 0, selected, last := none
    requests := if w.connected then w.requests ++ [(id, selected)] else w.requests }

/-- The server takes the next watch request: one full snapshot of the scopes it names. -/
def serve (w : StateWatch S) : Option (StateWatch S) :=
  match w.requests with
  | [] => none
  | (id, true) :: requests =>
    some { w with
      requests, watching := some id, published := some w.server
      pushes := w.pushes ++ [⟨id, true, w.server⟩] }
  | (_, false) :: requests => some { w with requests, watching := none }

/-- The server's state of the scope changes, and a watched scope is pushed. -/
def change (next : S) (w : StateWatch S) : StateWatch S :=
  match w.watching with
  | some id =>
    { w with server := next, published := some next, pushes := w.pushes ++ [⟨id, false, next⟩] }
  | none => { w with server := next }

/-- The server confirms its state in the answer to another request. -/
def confirm (w : StateWatch S) : StateWatch S := { w with published := some w.server }

/-- The error callback of the watch request. -/
def fail (id : Nat) (w : StateWatch S) : StateWatch S :=
  if id = w.requestId then { w with fullRequestId := 0 } else w

/-- The server refuses the next watch request. -/
def reject (w : StateWatch S) : Option (StateWatch S) :=
  match w.requests with
  | [] => none
  | (id, _) :: requests => some (fail id { w with requests })

/-- The connection sends the failed watch again. -/
def retry (w : StateWatch S) : StateWatch S :=
  { w with
    requests := if w.connected then w.requests ++ [(w.requestId, w.selected)] else w.requests }

/-- The connection is lost, with all that it carried, and the effect runs. -/
def disconnect (w : StateWatch S) : StateWatch S :=
  publish { w with connected := false, requests := [], watching := none, pushes := [] }

def connect (w : StateWatch S) : StateWatch S := publish { w with connected := true }

def setInScopes (inScopes : Bool) (w : StateWatch S) : StateWatch S := { w with inScopes }

/-- The next notification arrives; with the state to hand to `accept`, if it is not ignored. -/
def receive (w : StateWatch S) : Option (StateWatch S × Option S) :=
  match w.pushes with
  | [] => none
  | p :: pushes =>
    let w := { w with pushes }
    if !w.connected || p.requestId ≠ w.requestId then some (w, none)
    else if !p.full && w.fullRequestId ≠ w.requestId then some (w, none)
    else
      let w := { w with fullRequestId := w.requestId }
      if w.selected then some ({ w with last := some p.state }, some p.state) else some (w, none)

/-- The destroyed service leaves the watch. -/
def destroy (w : StateWatch S) : StateWatch S :=
  if w.selected && w.connected then { w with requestId := w.requestId + 1 } else w

/-- Everything a watch does apart from handing states over. -/
inductive Event (S : Type u)
  | setInScopes (inScopes : Bool)
  | publish
  | serve
  | reject
  | timeout
  | retry
  | disconnect
  | connect
  | change (next : S)

def step (w : StateWatch S) : Event S → Option (StateWatch S)
  | .setInScopes inScopes => some (w.setInScopes inScopes)
  | .publish => some w.publish
  | .serve => w.serve
  | .reject => w.reject
  | .timeout => some (w.fail w.requestId)
  | .retry => some w.retry
  | .disconnect => some w.disconnect
  | .connect => some w.connect
  | .change next => some (w.change next)

/-- No watch of the scope has been sent yet. -/
structure Idle (w : StateWatch S) : Prop where
  selected : w.selected = false
  fullRequestId : w.fullRequestId = 0
  requests : w.requests = []
  watching : w.watching = none
  pushes : w.pushes = []

/-- What the current request's notifications lead to: the state the server has. -/
structure Sound (w : StateWatch S) : Prop where
  connected : w.connected = false → w.requests = [] ∧ w.watching = none
  requestId_pos : w.selected = true → 0 < w.requestId
  full_le : w.fullRequestId ≤ w.requestId
  requests_le : ∀ r ∈ w.requests, r.1 ≤ w.requestId ∧ (r.1 = w.requestId → r.2 = w.selected)
  requests_sorted : w.requests.Pairwise (·.1 ≤ ·.1)
  watching_le : ∀ id, w.watching = some id → id ≤ w.requestId ∧ ∀ r ∈ w.requests, id ≤ r.1
  pushes_le : ∀ p ∈ w.pushes, p.requestId ≤ w.requestId
  pushed : ∀ p ∈ w.pushes, p.requestId = w.requestId → w.watching = some w.requestId
  full : w.selected = true → w.fullRequestId = w.requestId → w.watching = some w.requestId
  selected : w.watching = some w.requestId → w.selected = true
  published : w.watching = some w.requestId → w.published = some w.server
  next : w.watching = some w.requestId → ∀ p, w.inFlight.getLast? = some p → p.state = w.server
  last : w.watching = some w.requestId → w.inFlight = [] → w.fullRequestId = w.requestId →
    w.last = some w.server

/-- Where the watch is ready and nothing of its request is in flight, what it said last of the
scope meets `P`. -/
def Said (w : StateWatch S) (P : Option S → Prop) : Prop :=
  w.ready → w.inFlight = [] → P w.last

variable {w w' : StateWatch S} {P : Option S → Prop}

theorem Idle.sound (h : w.Idle) : w.Sound where
  connected _ := ⟨h.requests, h.watching⟩
  requestId_pos := by simp [h.selected]
  full_le := by simp [h.fullRequestId]
  requests_le := by simp [h.requests]
  requests_sorted := by simp [h.requests]
  watching_le := by simp [h.watching]
  pushes_le := by simp [h.pushes]
  pushed := by simp [h.pushes]
  full := by simp [h.selected]
  selected := by simp [h.watching]
  published := by simp [h.watching]
  next := by simp [h.watching]
  last := by simp [h.watching]

/-- Once ready and quiet, the last received state is the server's, which it has published. -/
theorem Sound.current (h : w.Sound) (hr : w.ready) (hq : w.inFlight = []) :
    w.last = some w.server ∧ w.published = some w.server := by
  have hw := h.full hr.2.2 hr.1
  exact ⟨h.last hw hq hr.1, h.published hw⟩

theorem Sound.publish (h : w.Sound) : w.publish.Sound := by
  have hold : ∀ id, w.watching = some id → id ≠ w.requestId + 1 := by
    intro id hid heq
    have := (h.watching_le id hid).1
    omega
  have hnone : ¬ w.watching = some (w.requestId + 1) := fun hw => hold _ hw rfl
  have hrequests : ∀ r ∈ w.publish.requests, r ∈ w.requests ∨
      r = (w.requestId + 1, w.connected && w.inScopes) := by
    intro r hr
    simp only [StateWatch.publish] at hr
    split at hr
    · simpa using hr
    · exact .inl hr
  refine ⟨?_, fun _ => Nat.succ_pos _, Nat.zero_le _, ?_, ?_, ?_, ?_, ?_, ?_, ?_, ?_, ?_, ?_⟩
  · intro hc
    have hc : w.connected = false := hc
    obtain ⟨hr, hw⟩ := h.connected hc
    exact ⟨by simp [StateWatch.publish, hc, hr], hw⟩
  · intro r hr
    rcases hrequests r hr with hr | rfl
    · have := (h.requests_le r hr).1
      exact ⟨Nat.le_succ_of_le this, fun heq => absurd heq (by change r.1 ≠ w.requestId + 1; omega)⟩
    · exact ⟨Nat.le_refl _, fun _ => rfl⟩
  · simp only [StateWatch.publish]
    split
    · rw [List.pairwise_append]
      refine ⟨h.requests_sorted, List.pairwise_singleton _ _, fun r hr r' hr' => ?_⟩
      rw [List.mem_singleton.mp hr']
      exact Nat.le_succ_of_le (h.requests_le r hr).1
    · exact h.requests_sorted
  · intro id hid
    obtain ⟨hle, hall⟩ := h.watching_le id hid
    refine ⟨Nat.le_succ_of_le hle, fun r hr => ?_⟩
    rcases hrequests r hr with hr | rfl
    · exact hall r hr
    · exact Nat.le_succ_of_le hle
  · exact fun p hp => Nat.le_succ_of_le (h.pushes_le p hp)
  · intro p hp heq
    have hle := h.pushes_le p hp
    have heq : p.requestId = w.requestId + 1 := heq
    omega
  · intro _ heq
    have heq : 0 = w.requestId + 1 := heq
    omega
  all_goals exact fun hw => absurd hw hnone

theorem Sound.setInScopes (h : w.Sound) (inScopes : Bool) : (w.setInScopes inScopes).Sound :=
  ⟨h.connected, h.requestId_pos, h.full_le, h.requests_le, h.requests_sorted, h.watching_le, h.pushes_le, h.pushed, h.full,
    h.selected, h.published, h.next, h.last⟩

theorem Sound.confirm (h : w.Sound) : w.confirm.Sound :=
  ⟨h.connected, h.requestId_pos, h.full_le, h.requests_le, h.requests_sorted, h.watching_le, h.pushes_le, h.pushed, h.full,
    h.selected, fun _ => rfl, h.next, h.last⟩

/-- Losing a full snapshot only makes the watch wait for another one. -/
theorem Sound.withoutFull (h : w.Sound) : { w with fullRequestId := 0 }.Sound := by
  refine ⟨h.connected, h.requestId_pos, Nat.zero_le _, h.requests_le, h.requests_sorted, h.watching_le, h.pushes_le, h.pushed,
    ?_, h.selected, h.published, h.next, ?_⟩
  · intro hsel heq
    have := h.requestId_pos hsel
    have heq : 0 = w.requestId := heq
    omega
  · intro hw _ heq
    have := h.requestId_pos (h.selected hw)
    have heq : 0 = w.requestId := heq
    omega

theorem Sound.withRequests (h : w.Sound) {requests : List (Nat × Bool)}
    (hsub : requests.Sublist w.requests) : { w with requests }.Sound :=
  ⟨fun hc => ⟨List.sublist_nil.mp ((h.connected hc).1 ▸ hsub), (h.connected hc).2⟩,
    h.requestId_pos, h.full_le, fun r hr => h.requests_le r (hsub.subset hr),
    h.requests_sorted.sublist hsub,
    fun id hid => ⟨(h.watching_le id hid).1, fun r hr => (h.watching_le id hid).2 r (hsub.subset hr)⟩,
    h.pushes_le, h.pushed, h.full, h.selected, h.published, h.next, h.last⟩

theorem Sound.fail (h : w.Sound) (id : Nat) : (w.fail id).Sound := by
  unfold StateWatch.fail
  split
  · exact h.withoutFull
  · exact h

theorem Sound.reject (h : w.Sound) (hw : w.reject = some w') : w'.Sound := by
  unfold StateWatch.reject at hw
  split at hw
  · simp at hw
  · rename_i id selected requests heq
    obtain rfl := Option.some.inj hw
    exact (h.withRequests (heq ▸ List.sublist_cons_self _ _)).fail id

theorem Sound.retry (h : w.Sound) : w.retry.Sound := by
  unfold StateWatch.retry
  split
  · rename_i hcon
    refine ⟨fun hc => absurd (hcon.symm.trans hc) (by simp), h.requestId_pos, h.full_le, ?_, ?_, ?_,
      h.pushes_le, h.pushed, h.full, h.selected, h.published, h.next, h.last⟩
    · intro r hr
      rcases List.mem_append.mp hr with hr | hr
      · exact h.requests_le r hr
      · rw [List.mem_singleton.mp hr]
        exact ⟨Nat.le_refl _, fun _ => rfl⟩
    · rw [List.pairwise_append]
      refine ⟨h.requests_sorted, List.pairwise_singleton _ _, fun r hr r' hr' => ?_⟩
      rw [List.mem_singleton.mp hr']
      exact (h.requests_le r hr).1
    · intro id hid
      obtain ⟨hle, hall⟩ := h.watching_le id hid
      refine ⟨hle, fun r hr => ?_⟩
      rcases List.mem_append.mp hr with hr | hr
      · exact hall r hr
      · rw [List.mem_singleton.mp hr]
        exact hle
  · exact h

/-- A lost connection leaves nothing of the old watch. -/
theorem sound_cleared (w : StateWatch S) :
    { w with connected := false, requests := [], watching := none, pushes := [],
             selected := false, fullRequestId := 0 }.Sound where
  connected _ := ⟨rfl, rfl⟩
  requestId_pos := by simp
  full_le := Nat.zero_le _
  requests_le := by simp
  requests_sorted := List.Pairwise.nil
  watching_le := by simp
  pushes_le := by simp
  pushed := by simp
  full := by simp
  selected := by simp
  published := by simp
  next := by simp
  last := by simp

theorem sound_disconnect (w : StateWatch S) : w.disconnect.Sound := w.sound_cleared.publish

theorem Sound.destroy (h : w.Sound) : w.destroy.Sound := by
  unfold StateWatch.destroy
  split
  · have hgone : ¬ w.watching = some (w.requestId + 1) := by
      intro hw
      have := (h.watching_le _ hw).1
      omega
    refine ⟨h.connected, fun _ => Nat.succ_pos _, Nat.le_succ_of_le h.full_le, ?_,
      h.requests_sorted, ?_, fun p hp => Nat.le_succ_of_le (h.pushes_le p hp), ?_, ?_, ?_, ?_, ?_,
      ?_⟩
    · intro r hr
      have hle := (h.requests_le r hr).1
      exact ⟨Nat.le_succ_of_le hle, fun heq => absurd heq (by change r.1 ≠ w.requestId + 1; omega)⟩
    · exact fun id hid => ⟨Nat.le_succ_of_le (h.watching_le id hid).1, (h.watching_le id hid).2⟩
    · intro p hp heq
      have hle := h.pushes_le p hp
      have heq : p.requestId = w.requestId + 1 := heq
      omega
    · intro _ heq
      have hle := h.full_le
      have heq : w.fullRequestId = w.requestId + 1 := heq
      omega
    all_goals exact fun hw => absurd hw hgone
  · exact h

theorem Sound.connect (h : w.Sound) : w.connect.Sound := by
  have hc : { w with connected := true }.Sound :=
    ⟨by simp, h.requestId_pos, h.full_le, h.requests_le, h.requests_sorted, h.watching_le, h.pushes_le, h.pushed,
      h.full, h.selected, h.published, h.next, h.last⟩
  exact hc.publish

theorem inFlight_append (p : StatePush S) :
    { w with pushes := w.pushes ++ [p] }.inFlight =
      w.inFlight ++ if p.requestId = w.requestId then [p] else [] := by
  simp only [inFlight, List.filter_append, List.filter_cons, List.filter_nil, decide_eq_true_eq]

theorem Sound.serve (h : w.Sound) (hw : w.serve = some w') : w'.Sound := by
  unfold StateWatch.serve at hw
  split at hw
  · simp at hw
  · rename_i id requests heq
    obtain rfl := Option.some.inj hw
    obtain ⟨hle, hsel⟩ := h.requests_le (id, true) (heq ▸ List.mem_cons_self)
    have hsub : requests.Sublist w.requests := heq ▸ List.sublist_cons_self _ _
    have hsorted := List.pairwise_cons.mp (heq ▸ h.requests_sorted)
    have hcon : ¬ w.connected = false := fun hc => by simpa [heq] using (h.connected hc).1
    have hfresh : ∀ id', w.watching = some id' → id' ≤ id := fun id' hid =>
      (h.watching_le id' hid).2 (id, true) (heq ▸ List.mem_cons_self)
    have hcur : w.watching = some w.requestId → id = w.requestId := fun hw =>
      Nat.le_antisymm hle (hfresh _ hw)
    refine ⟨fun hc => absurd hc hcon, h.requestId_pos, h.full_le,
      fun r hr => h.requests_le r (hsub.subset hr), hsorted.2, ?_, ?_, ?_, ?_,
      ?_, fun _ => rfl, ?_, ?_⟩
    · rintro id' ⟨⟩
      exact ⟨hle, hsorted.1⟩
    · intro p hp
      rcases List.mem_append.mp hp with hp | hp
      · exact h.pushes_le p hp
      · rw [List.mem_singleton.mp hp]
        exact hle
    · intro p hp hpid
      rcases List.mem_append.mp hp with hp | hp
      · exact congrArg some (hcur (h.pushed p hp hpid))
      · rw [List.mem_singleton.mp hp] at hpid
        exact congrArg some hpid
    · exact fun hs hf => congrArg some (hcur (h.full hs hf))
    · intro hid
      exact (hsel (Option.some.inj hid)).symm
    · intro hid p hp
      have hid : id = w.requestId := Option.some.inj hid
      change (StateWatch.inFlight { w with pushes := w.pushes ++ [⟨id, true, w.server⟩] }).getLast? =
        some p at hp
      rw [inFlight_append, if_pos hid] at hp
      obtain rfl := by simpa using hp
      rfl
    · intro hid hq
      have hid : id = w.requestId := Option.some.inj hid
      change StateWatch.inFlight { w with pushes := w.pushes ++ [⟨id, true, w.server⟩] } = [] at hq
      rw [inFlight_append, if_pos hid] at hq
      simp at hq
  · rename_i id requests heq
    obtain rfl := Option.some.inj hw
    obtain ⟨hle, hsel⟩ := h.requests_le (id, false) (heq ▸ List.mem_cons_self)
    have hsub : requests.Sublist w.requests := heq ▸ List.sublist_cons_self _ _
    have hcon : ¬ w.connected = false := fun hc => by simpa [heq] using (h.connected hc).1
    have hgone : ¬ w.watching = some w.requestId := by
      intro hw
      have hge := (h.watching_le _ hw).2 (id, false) (heq ▸ List.mem_cons_self)
      have hfalse := hsel (Nat.le_antisymm hle hge)
      exact absurd (h.selected hw) (by simp [← hfalse])
    refine ⟨fun hc => absurd hc hcon, h.requestId_pos, h.full_le,
      fun r hr => h.requests_le r (hsub.subset hr),
      h.requests_sorted.sublist hsub, by simp, h.pushes_le, ?_, ?_, by simp, by simp, by simp,
      by simp⟩
    · exact fun p hp hpid => absurd (h.pushed p hp hpid) hgone
    · exact fun hs hf => absurd (h.full hs hf) hgone

theorem Sound.change (h : w.Sound) (next : S) : (w.change next).Sound := by
  unfold StateWatch.change
  split
  · rename_i id hid
    refine ⟨h.connected, h.requestId_pos, h.full_le, h.requests_le, h.requests_sorted, h.watching_le, ?_, ?_, h.full,
      h.selected, fun _ => rfl, ?_, ?_⟩
    · intro p hp
      rcases List.mem_append.mp hp with hp | hp
      · exact h.pushes_le p hp
      · rw [List.mem_singleton.mp hp]
        exact (h.watching_le id hid).1
    · intro p hp hpid
      rcases List.mem_append.mp hp with hp | hp
      · exact h.pushed p hp hpid
      · rw [List.mem_singleton.mp hp] at hpid
        exact hid.trans (congrArg some hpid)
    · intro hw p hp
      have hcur : id = w.requestId := Option.some.inj (hid.symm.trans hw)
      change (StateWatch.inFlight { w with pushes := w.pushes ++ [⟨id, false, next⟩] }).getLast? =
        some p at hp
      rw [inFlight_append, if_pos hcur] at hp
      obtain rfl := by simpa using hp
      rfl
    · intro hw hq
      have hcur : id = w.requestId := Option.some.inj (hid.symm.trans hw)
      change StateWatch.inFlight { w with pushes := w.pushes ++ [⟨id, false, next⟩] } = [] at hq
      rw [inFlight_append, if_pos hcur] at hq
      simp at hq
  · rename_i hid
    refine ⟨h.connected, h.requestId_pos, h.full_le, h.requests_le, h.requests_sorted, h.watching_le, h.pushes_le, h.pushed,
      h.full, h.selected, ?_, ?_, ?_⟩
    all_goals exact fun hw => absurd (hid.symm.trans hw) (by simp)

theorem Sound.step {e : Event S} (h : w.Sound) (hw : w.step e = some w') : w'.Sound := by
  cases e with
  | setInScopes inScopes =>
    obtain rfl := Option.some.inj hw
    exact h.setInScopes inScopes
  | publish =>
    obtain rfl := Option.some.inj hw
    exact h.publish
  | serve => exact h.serve hw
  | reject => exact h.reject hw
  | timeout =>
    obtain rfl := Option.some.inj hw
    exact h.fail _
  | retry =>
    obtain rfl := Option.some.inj hw
    exact h.retry
  | disconnect =>
    obtain rfl := Option.some.inj hw
    exact sound_disconnect w
  | connect =>
    obtain rfl := Option.some.inj hw
    exact h.connect
  | change next =>
    obtain rfl := Option.some.inj hw
    exact h.change next

/-- What arrives: a notification that is ignored, or one handed to `accept`. -/
theorem receive_cases {accepted : Option S} (hw : w.receive = some (w', accepted)) :
    ∃ p pushes, w.pushes = p :: pushes ∧
      ((accepted = none ∧ w' = { w with pushes } ∧ (w.ready → p.requestId ≠ w.requestId)) ∨
        (accepted = none ∧ w.selected = false ∧
          w' = { w with pushes, fullRequestId := w.requestId }) ∨
        (accepted = some p.state ∧ p.requestId = w.requestId ∧ w.selected = true ∧
          w' = { w with pushes, fullRequestId := w.requestId, last := some p.state })) := by
  unfold receive at hw
  split at hw
  · simp at hw
  · rename_i p pushes heq
    refine ⟨p, pushes, heq, ?_⟩
    simp only at hw
    split at hw
    · rename_i hignored
      obtain ⟨rfl, rfl⟩ := Prod.mk.inj (Option.some.inj hw)
      refine .inl ⟨rfl, rfl, fun hr hid => ?_⟩
      simp [hid, hr.2.1] at hignored
    · rename_i hmatch
      have hid : p.requestId = w.requestId := by
        by_contra hne
        simp [hne] at hmatch
      split at hw
      · rename_i hpartial
        obtain ⟨rfl, rfl⟩ := Prod.mk.inj (Option.some.inj hw)
        refine .inl ⟨rfl, rfl, fun hr _ => ?_⟩
        simp [hr.1] at hpartial
      · split at hw
        · rename_i hsel
          obtain ⟨rfl, rfl⟩ := Prod.mk.inj (Option.some.inj hw)
          exact .inr (.inr ⟨rfl, hid, hsel, rfl⟩)
        · rename_i hsel
          obtain ⟨rfl, rfl⟩ := Prod.mk.inj (Option.some.inj hw)
          exact .inr (.inl ⟨rfl, by simpa using hsel, rfl⟩)

theorem Sound.receive (h : w.Sound) {accepted : Option S}
    (hw : w.receive = some (w', accepted)) : w'.Sound := by
  obtain ⟨p, pushes, heq, hcase⟩ := receive_cases hw
  have hsub : pushes.Sublist w.pushes := heq ▸ List.sublist_cons_self _ _
  have hmem : ∀ q ∈ pushes, q ∈ w.pushes := fun q hq => hsub.subset hq
  have hflight : w.inFlight = (if p.requestId = w.requestId then [p] else []) ++
      pushes.filter fun q => q.requestId = w.requestId := by
    rw [inFlight, heq, List.filter_cons]
    split <;> simp_all
  have hpush : w.watching = some w.requestId →
      ∀ q, (pushes.filter fun q => q.requestId = w.requestId).getLast? = some q →
        q.state = w.server := by
    intro hw q hq
    refine h.next hw q ?_
    rw [hflight, List.getLast?_append, hq]
    rfl
  rcases hcase with ⟨-, rfl, hignored⟩ | ⟨-, hsel, rfl⟩ | ⟨-, hid, hsel, rfl⟩
  · refine ⟨h.connected, h.requestId_pos, h.full_le, h.requests_le, h.requests_sorted, h.watching_le,
      fun q hq => h.pushes_le q (hmem q hq), fun q hq => h.pushed q (hmem q hq), h.full, h.selected,
      h.published, hpush, ?_⟩
    intro hw hq hfull
    have hw : w.watching = some w.requestId := hw
    have hcon : w.connected = true := by
      by_contra hc
      simpa [hw] using (h.connected (by simpa using hc)).2
    have hne := hignored ⟨hfull, hcon, h.selected hw⟩
    refine h.last hw ?_ hfull
    rw [hflight, if_neg hne]
    exact hq
  · refine ⟨h.connected, h.requestId_pos, Nat.le_refl _, h.requests_le, h.requests_sorted, h.watching_le,
      fun q hq => h.pushes_le q (hmem q hq), fun q hq => h.pushed q (hmem q hq), ?_, h.selected,
      h.published, hpush, ?_⟩
    · exact fun hs => absurd hs (by simp [hsel])
    · exact fun hw => absurd (h.selected hw) (by simp [hsel])
  · have hw : w.watching = some w.requestId :=
      h.pushed p (heq ▸ List.mem_cons_self) hid
    refine ⟨h.connected, h.requestId_pos, Nat.le_refl _, h.requests_le, h.requests_sorted, h.watching_le,
      fun q hq => h.pushes_le q (hmem q hq), fun q hq => h.pushed q (hmem q hq), fun _ _ => hw,
      h.selected, h.published, hpush, ?_⟩
    intro _ hq _
    refine congrArg some (h.next hw p ?_)
    change (pushes.filter fun q => q.requestId = w.requestId) = [] at hq
    rw [hflight, hq, if_pos hid]
    rfl

/-! What the watch has said stays said, until something new is on its way. -/

theorem Said.of_not_ready (h : ¬ w.ready) : w.Said P := fun hr => absurd hr h

theorem not_ready_publish (w : StateWatch S) : ¬ w.publish.ready := by
  intro hr
  have hfull : 0 = w.requestId + 1 := hr.1
  omega

theorem not_ready_of_not_selected (h : w.isSelected = false) : ¬ w.ready := by
  rintro ⟨-, hc, hs⟩
  simp [isSelected, hc, hs] at h

theorem said_publish : w.publish.Said P := .of_not_ready w.not_ready_publish

/-- A destroyed watch is not ready. -/
theorem Sound.said_destroy (h : w.Sound) : w.destroy.Said P := by
  unfold StateWatch.destroy
  split
  · rename_i hsel
    intro hr
    have hle := h.full_le
    have heq : w.fullRequestId = w.requestId + 1 := hr.1
    omega
  · rename_i hsel
    intro hr
    simp [hr.2.1, hr.2.2] at hsel

theorem Said.setInScopes (h : w.Said P) (inScopes : Bool) :
    (w.setInScopes inScopes).Said P := h

theorem Said.confirm (h : w.Said P) : w.confirm.Said P := h

theorem Said.fail (h : w.Said P) (hs : w.Sound) (id : Nat) : (w.fail id).Said P := by
  unfold StateWatch.fail
  split
  · intro hr
    have hfull : 0 = w.requestId := hr.1
    have := hs.requestId_pos hr.2.2
    omega
  · exact h

theorem Said.reject (h : w.Said P) (hs : w.Sound) (hw : w.reject = some w') :
    w'.Said P := by
  unfold StateWatch.reject at hw
  split at hw
  · simp at hw
  · rename_i id selected requests heq
    obtain rfl := Option.some.inj hw
    have hkept : { w with requests }.Said P := h
    exact hkept.fail (hs.withRequests (heq ▸ List.sublist_cons_self _ _)) id

theorem Said.retry (h : w.Said P) : w.retry.Said P := h

theorem said_append (h : w.Said P) (p : StatePush S) {w' : StateWatch S}
    (hready : w'.ready → w.ready) (hlast : w'.last = w.last)
    (hflight : w'.inFlight = w.inFlight ++ if p.requestId = w.requestId then [p] else []) :
    w'.Said P := by
  intro hr hq
  rw [hflight, List.append_eq_nil_iff] at hq
  rw [hlast]
  exact h (hready hr) hq.1

theorem Said.serve (h : w.Said P) (hw : w.serve = some w') : w'.Said P := by
  unfold StateWatch.serve at hw
  split at hw
  · simp at hw
  · rename_i id requests heq
    obtain rfl := Option.some.inj hw
    exact said_append h ⟨id, true, w.server⟩ (fun hr => hr) rfl (inFlight_append _)
  · obtain rfl := Option.some.inj hw
    exact h

theorem Said.change (h : w.Said P) (next : S) : (w.change next).Said P := by
  unfold StateWatch.change
  split
  · exact said_append h ⟨_, false, next⟩ (fun hr => hr) rfl (inFlight_append _)
  · exact h

theorem Said.step {e : Event S} (h : w.Said P) (hs : w.Sound) (hw : w.step e = some w') :
    w'.Said P := by
  cases e with
  | setInScopes inScopes =>
    obtain rfl := Option.some.inj hw
    exact h
  | publish =>
    obtain rfl := Option.some.inj hw
    exact said_publish
  | serve => exact h.serve hw
  | reject => exact h.reject hs hw
  | timeout =>
    obtain rfl := Option.some.inj hw
    exact h.fail hs _
  | retry =>
    obtain rfl := Option.some.inj hw
    exact h
  | disconnect =>
    obtain rfl := Option.some.inj hw
    exact said_publish
  | connect =>
    obtain rfl := Option.some.inj hw
    exact said_publish
  | change next =>
    obtain rfl := Option.some.inj hw
    exact h.change next

/-- An ignored notification was none of the current request, or the watch is not ready. -/
theorem Said.receive_none (h : w.Said P) (hw : w.receive = some (w', none)) :
    w'.Said P := by
  obtain ⟨p, pushes, heq, hcase⟩ := receive_cases hw
  rcases hcase with ⟨-, rfl, hignored⟩ | ⟨-, hsel, rfl⟩ | ⟨hsome, -⟩
  · intro hr hq
    have hr : w.ready := hr
    refine h hr ?_
    rw [inFlight, heq, List.filter_cons, if_neg (by simpa using hignored hr)]
    exact hq
  · intro hr
    exact absurd hr.2.2 (by simp [hsel])
  · simp at hsome

/-- An accepted one is the last thing said. -/
theorem said_receive {accepted : S} (hw : w.receive = some (w', some accepted))
    (hP : P (some accepted)) : w'.Said P := by
  obtain ⟨p, pushes, -, hcase⟩ := receive_cases hw
  rcases hcase with ⟨hnone, -⟩ | ⟨hnone, -⟩ | ⟨hsome, -, -, rfl⟩
  · simp at hnone
  · simp at hnone
  · intro _ _
    exact hsome ▸ hP

end StateWatch

end Chahua.Chats

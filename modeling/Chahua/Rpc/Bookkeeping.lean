import Chahua.Rpc.Session

namespace Chahua.Rpc

open Framework

namespace Session

/-- A step of scheduling touches nothing but the outstanding ids, the workers and the
transport. -/
def Schedules (s t : Session) : Prop :=
  t = { s with outstanding := t.outstanding, works := t.works, closed := t.closed }

theorem Schedules.refl (s : Session) : s.Schedules s := rfl

theorem Schedules.trans {s t u : Session} (h : s.Schedules t) (h' : t.Schedules u) :
    s.Schedules u := by
  unfold Schedules at *
  rw [h', h]

theorem forget_schedules (s : Session) (id : Option RpcId) : s.Schedules (s.forget id) := by
  cases id <;> rfl

@[simp] theorem forget_works (s : Session) (id : Option RpcId) :
    (s.forget id).works = s.works := by
  cases id <;> rfl

@[simp] theorem forget_closed (s : Session) (id : Option RpcId) :
    (s.forget id).closed = s.closed := by
  cases id <;> rfl

@[simp] theorem forget_outstanding (s : Session) (id : Option RpcId) :
    (s.forget id).outstanding = s.outstanding \ id.toFinset := by
  cases id <;> simp [forget, Finset.sdiff_singleton_eq_erase]

theorem enter_schedules (s : Session) (id : Option RpcId) : s.Schedules (s.enter id) := by
  cases id <;> rfl

@[simp] theorem enter_works (s : Session) (id : Option RpcId) : (s.enter id).works = s.works := by
  cases id <;> rfl

@[simp] theorem enter_closed (s : Session) (id : Option RpcId) :
    (s.enter id).closed = s.closed := by
  cases id <;> rfl

@[simp] theorem enter_accepting (s : Session) (id : Option RpcId) :
    (s.enter id).accepting = s.accepting := by
  cases id <;> rfl

@[simp] theorem enter_outstanding (s : Session) (id : Option RpcId) :
    (s.enter id).outstanding = s.outstanding ∪ id.toFinset := by
  cases id with
  | none => simp [enter]
  | some id =>
    ext x
    simp [enter]

/-- Where a rejection leaves the id of its call. -/
theorem withdraw_cases (s : Session) (id : Option RpcId) (destination : ResultDestination) :
    let u := if destination = .single then s.forget id else s
    s.Schedules u ∧ u.works = s.works ∧ u.closed = s.closed ∧
      u.outstanding = if destination = .single then s.outstanding \ id.toFinset
        else s.outstanding := by
  by_cases hd : destination = .single
  · simp only [hd, if_true, forget_works, forget_closed, forget_outstanding, and_self, and_true]
    exact forget_schedules s id
  · simp only [hd, if_false, and_self, and_true]
    exact Schedules.refl s

/-- What a rejection does: it answers a call that has an id, and gives the id of a single
call back. -/
theorem reject_cases {s t : Session} {call : RpcCall} {origin : Origin}
    {destination : ResultDestination} {error : RpcError} {choice : Choice} {r : ScheduledCall}
    (h : s.reject call origin destination error choice = (t, r)) :
    s.Schedules t ∧ t.works = s.works ∧
      t.outstanding = (if destination = .single then s.outstanding \ call.id.toFinset
        else s.outstanding) ∧
      (t.closed = false → s.closed = false) ∧
      ∃ p, r = .immediate p ∧ (t.closed = false → (p = none ↔ call.id = none)) ∧
        ∀ x ∈ p, x.origin = origin ∧ call.id = some x.response.id := by
  obtain ⟨hs, hw, hc, ho⟩ := withdraw_cases s call.id destination
  simp only [reject] at h
  generalize (if destination = .single then s.forget call.id else s) = u at h hs hw hc ho
  cases hid : call.id with
  | none =>
    simp only [hid] at h ho
    cases h
    exact ⟨hs, hw, ho, fun h => hc ▸ h, none, rfl, by simp, by simp⟩
  | some id =>
    simp only [hid] at h ho
    split at h
    · cases h
      refine ⟨hs, hw, ho, fun h => hc ▸ h, _, rfl, by simp, ?_⟩
      rintro x ⟨⟩
      simp [RpcResponse.error]
    · cases h
      refine ⟨?_, hw, ho, by simp, none, rfl, by simp, by simp⟩
      exact hs.trans rfl

/-- A call that was neither dispatched nor a duplicate. -/
structure Refused (s t : Session) (call : RpcCall) (origin : Origin)
    (destination : ResultDestination) (p : Option PreparedResponse) : Prop where
  works : t.works = s.works
  response : ∀ x ∈ p, x.origin = origin ∧ call.id = some x.response.id
  silent : t.closed = false → p = none → call.id = none ∨ s.accepting = false
  outstanding : t.closed = false →
    (t.outstanding = s.outstanding ∧ (destination = .single ∨ s.accepting = false)) ∨
    (t.outstanding = s.outstanding ∪ call.id.toFinset ∧ destination ≠ .single)

theorem enter_sdiff {s : Session} {id : Option RpcId} (h : ∀ x ∈ id, x ∉ s.outstanding) :
    (s.outstanding ∪ id.toFinset) \ id.toFinset = s.outstanding := by
  apply Finset.union_sdiff_cancel_right
  rw [Finset.disjoint_right]
  exact fun x hx => h x (Option.mem_toFinset.mp hx)

theorem reject_refused {s t : Session} {call : RpcCall} {origin : Origin}
    {destination : ResultDestination} {error : RpcError} {choice : Choice} {r : ScheduledCall}
    (hid : ∀ id ∈ call.id, id ∉ s.outstanding) {u : Session} (hu : s.Schedules u)
    (hw : u.works = s.works) (ho : u.outstanding = s.outstanding ∪ call.id.toFinset)
    (h : u.reject call origin destination error choice = (t, r)) :
    s.Schedules t ∧ (t.closed = false → u.closed = false) ∧
      ∃ p, r = .immediate p ∧ s.Refused t call origin destination p := by
  obtain ⟨hs, hwt, hot, hc, p, rfl, hnone, hp⟩ := reject_cases h
  refine ⟨hu.trans hs, hc, p, rfl, hwt.trans hw, hp, ?_, ?_⟩
  · exact fun hcl hpn => Or.inl ((hnone hcl).mp hpn)
  · intro _
    by_cases hd : destination = .single
    · rw [if_pos hd, ho, enter_sdiff hid] at hot
      exact Or.inl ⟨hot, Or.inl hd⟩
    · rw [if_neg hd, ho] at hot
      exact Or.inr ⟨hot, hd⟩

/-- The three ways a call is scheduled. -/
theorem scheduleCall_cases {s t : Session} {call : RpcCall} {origin : Origin}
    {destination : ResultDestination} {close : Bool} {choice : Choice} {r : ScheduledCall}
    (h : s.scheduleCall call origin destination close choice = (t, r)) :
    s.Schedules t ∧ (t.closed = false → s.closed = false) ∧
    ((∃ p, r = .duplicate p ∧ t = s) ∨
      (∀ id ∈ call.id, id ∉ s.outstanding) ∧
        ((r = .pending ∧ s.accepting = true ∧
            t.works = s.works.upsert origin ⟨call, destination, close, none⟩ ∧
            t.outstanding = s.outstanding ∪ call.id.toFinset) ∨
          ∃ p, r = .immediate p ∧ s.Refused t call origin destination p)) := by
  simp only [scheduleCall] at h
  split at h
  · cases h
    exact ⟨Schedules.refl s, id, Or.inl ⟨_, rfl, rfl⟩⟩
  next hdup =>
  have hid : ∀ id ∈ call.id, id ∉ s.outstanding := by
    intro id hmem hin
    exact hdup (by simp [Option.mem_def.mp hmem, hin])
  suffices hrest : s.Schedules t ∧ (t.closed = false → s.closed = false) ∧
      ((r = .pending ∧ s.accepting = true ∧
          t.works = s.works.upsert origin ⟨call, destination, close, none⟩ ∧
          t.outstanding = s.outstanding ∪ call.id.toFinset) ∨
        ∃ p, r = .immediate p ∧ s.Refused t call origin destination p) from
    ⟨hrest.1, hrest.2.1, Or.inr ⟨hid, hrest.2.2⟩⟩
  have henter := enter_schedules s call.id
  split at h
  · obtain ⟨hs, hc, hp⟩ := reject_refused hid henter (by simp) (by simp) h
    exact ⟨hs, by simpa using hc, Or.inr hp⟩
  split at h
  · cases h
    exact ⟨henter.trans rfl, by simp, Or.inr ⟨none, rfl, by simp, by simp, by simp, by simp⟩⟩
  -- the context is taken from here on
  have hu : s.Schedules ((s.enter call.id).disconnect choice.disconnected) := henter.trans rfl
  have hw : ((s.enter call.id).disconnect choice.disconnected).works = s.works :=
    enter_works s call.id
  have ho := enter_outstanding s call.id
  have hac := enter_accepting s call.id
  have hcl : ((s.enter call.id).disconnect choice.disconnected).closed = false →
      s.closed = false := by
    intro hop
    simp only [disconnect, enter_closed, Bool.or_eq_false_iff] at hop
    exact hop.1
  change ((s.enter call.id).disconnect choice.disconnected).outstanding = _ at ho
  change ((s.enter call.id).disconnect choice.disconnected).accepting = _ at hac
  generalize (s.enter call.id).disconnect choice.disconnected = u at h hu hw ho hac hcl
  split at h
  · next hstop =>
    cases h
    refine ⟨hu.trans (forget_schedules u call.id), by simpa using hcl, Or.inr ⟨none, rfl, ?_⟩⟩
    refine ⟨by simpa using hw, by simp, fun hop _ => ?_, fun hop => ?_⟩
    · rw [forget_closed] at hop
      exact Or.inr (by simpa [hop, hac] using hstop)
    · rw [forget_closed] at hop
      refine Or.inl ⟨?_, Or.inr (by simpa [hop, hac] using hstop)⟩
      rw [forget_outstanding, ho, enter_sdiff hid]
  next hgo =>
  split at h
  · obtain ⟨hs, hc, hp⟩ := reject_refused hid hu hw ho h
    exact ⟨hs, fun hop => hcl (hc hop), Or.inr hp⟩
  · cases h
    simp only [Bool.or_eq_true, not_or, Bool.not_eq_true, Bool.not_eq_false'] at hgo
    exact ⟨hu.trans rfl, hcl, Or.inl ⟨rfl, hac ▸ hgo.2, by rw [hw], ho⟩⟩

end Session

end Chahua.Rpc

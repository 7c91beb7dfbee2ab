import Chahua.Chats.ChatStates

namespace Chahua.Chats.ChatCell

open Framework Framework.Layers

variable {S : ChatValues} {s t : ChatCell} {k : StateField} {c : ChangeCall} {i j : Nat}

/-- The call that owns a field is the last to set it and is still in flight. -/
structure Owner (s : ChatCell) (k : StateField) (v : Nat) (i : Nat) (c : ChangeCall) : Prop where
  call : s.calls[i]? = some c
  version : c.version = v
  pending : c.outcome.isPending = true
  sets : (c.state k).isSome
  last : ¬ Covered ChangeCall.state s.calls i k
  current : s.stateVersions k = v

/-- The field shows what the calls that have not failed leave there, and the versions guard it. -/
structure Tracked (S : ChatValues) (s : ChatCell) : Prop where
  settled : s.settled = S
  value : ∀ k, s.value k = s.shown k
  owner : ∀ k v, s.pendingStateWrites k = some v → ∃ i c, s.Owner k v i c
  written : ∀ c ∈ s.calls, ∀ k, (c.state k).isSome → c.version ≤ s.stateVersions k
  ascending : s.calls.Pairwise (·.version < ·.version)
  calls_le : ∀ c ∈ s.calls, c.version ≤ s.version
  versions_le : ∀ k, s.stateVersions k ≤ s.version
  reads_le : ∀ r ∈ s.reads, r.version ≤ s.version
  guarded : ∀ r ∈ s.reads, ∀ k, r.inFlight k → r.unmarked k ∨
    (s.pendingStateWrites k).isSome ∨ r.version < s.stateVersions k

theorem Settled.tracked (h : s.Settled) : Tracked s.settled s where
  settled := rfl
  value k := by simp [shown, h.calls, h.value]
  owner k v hv := by simp [h.unmarked] at hv
  written := by simp [h.calls]
  ascending := by simp [h.calls]
  calls_le := by simp [h.calls]
  versions_le := h.versions
  reads_le := by simp [h.reads]
  guarded := by simp [h.reads]

theorem shows_eq_none (h : c.state k = none) : c.shows k = none := Outcome.shows_eq_none _ h

theorem shows_of_pending (h : c.outcome.isPending = true) : c.shows k = c.state k := by
  cases ho : c.outcome <;> simp [ho, Outcome.isPending, ChangeCall.shows, Outcome.shows] at h ⊢

theorem Tracked.eq_of_version (h : Tracked S s) {d : ChangeCall} (hc : s.calls[i]? = some c)
    (hd : s.calls[j]? = some d) (hv : c.version = d.version) : i = j := by
  obtain ⟨hi, rfl⟩ := List.getElem?_eq_some_iff.mp hc
  obtain ⟨hj, rfl⟩ := List.getElem?_eq_some_iff.mp hd
  rcases Nat.lt_trichotomy i j with hij | hij | hij
  · exact absurd hv (Nat.ne_of_lt (List.pairwise_iff_getElem.mp h.ascending i j hi hj hij))
  · exact hij
  · exact absurd hv.symm (Nat.ne_of_lt (List.pairwise_iff_getElem.mp h.ascending j i hj hi hij))

/-- A call that still owns a field is not covered there by a later one. -/
theorem Tracked.owns_last (h : Tracked S s) (hc : s.calls[i]? = some c) (ho : s.owns c k) :
    ¬ s.Superseded i k := by
  simp only [owns, Bool.and_eq_true, decide_eq_true_eq] at ho
  obtain ⟨i', d, w⟩ := h.owner k _ ho.1.2
  obtain rfl := h.eq_of_version hc w.call w.version.symm
  rintro ⟨d, hd, hset⟩
  refine w.last ⟨d, hd, ?_⟩
  by_contra hnone
  simp [shows_eq_none (Option.not_isSome_iff_eq_none.mp hnone)] at hset

/-- A pending mark is the one of its owner: the mark of a call is kept only while it owns. -/
theorem Tracked.owns_of_marked (h : Tracked S s) (hc : s.calls[i]? = some c)
    (hm : s.pendingStateWrites k = some c.version) : s.owns c k := by
  obtain ⟨i', d, w⟩ := h.owner k _ hm
  obtain rfl := h.eq_of_version hc w.call w.version.symm
  obtain rfl := Option.some.inj (w.call.symm.trans hc)
  simp [owns, w.sets, hm, w.current]

/-! Starting a write. -/

theorem startChange_value (h : Tracked S s) (state : ChatState) (k : StateField) :
    (startChange state s).value k = (state k).getD (s.value k) := by
  have hle := h.versions_le k
  simp [startChange, applyChatStates, accepts, snapshot, Nat.le_succ_of_le hle]

theorem startChange_stateVersions (h : Tracked S s) (state : ChatState) (k : StateField) :
    (startChange state s).stateVersions k =
      if (state k).isSome then s.version + 1 else s.stateVersions k := by
  have hle := h.versions_le k
  simp [startChange, applyChatStates, accepts, snapshot, Nat.le_succ_of_le hle]

theorem Tracked.startChange (h : Tracked S s) (state : ChatState) :
    Tracked S (startChange state s) := by
  have hver := startChange_stateVersions h state
  have hmono : ∀ k, s.stateVersions k ≤ (ChatCell.startChange state s).stateVersions k := by
    intro k
    rw [hver]
    split <;> have := h.versions_le k <;> omega
  have hcalls : (ChatCell.startChange state s).calls =
      s.calls ++ [⟨state, s.chatState, s.version + 1, .pending⟩] := rfl
  refine ⟨h.settled, ?_, ?_, ?_, ?_, ?_, ?_, ?_, ?_⟩
  · intro k
    rw [startChange_value h, h.value]
    simp only [shown, hcalls, shown_concat]
    rfl
  · intro k v hv
    change (if (state k).isSome then _ else s.pendingStateWrites k) = _ at hv
    split at hv
    · rename_i hset
      obtain rfl := Option.some.inj hv
      refine ⟨s.calls.length, _, ⟨by rw [hcalls, List.getElem?_concat_length], rfl, rfl, hset, ?_,
        by rw [hver, if_pos hset]⟩⟩
      simp [hcalls, Covered]
    · rename_i hset
      obtain ⟨i', d, w⟩ := h.owner k v hv
      obtain ⟨hlt, -⟩ := List.getElem?_eq_some_iff.mp w.call
      refine ⟨i', d, ⟨by rw [hcalls, List.getElem?_append_left hlt, w.call], w.version, w.pending,
        w.sets, ?_, by rw [hver, if_neg hset, w.current]⟩⟩
      rintro ⟨e, he, hsome⟩
      rw [hcalls, List.drop_append_of_le_length hlt] at he
      rcases List.mem_append.mp he with he | he
      · exact w.last ⟨e, he, hsome⟩
      · exact hset (by simpa [List.mem_singleton.mp he] using hsome)
  · intro d hd k hset
    rcases List.mem_append.mp (hcalls ▸ hd) with hd | hd
    · exact Nat.le_trans (h.written d hd k hset) (hmono k)
    · obtain rfl := List.mem_singleton.mp hd
      exact Nat.le_of_eq (by rw [hver, if_pos hset])
  · rw [hcalls, List.pairwise_append]
    refine ⟨h.ascending, List.pairwise_singleton _ _, fun d hd e he => ?_⟩
    obtain rfl := List.mem_singleton.mp he
    exact Nat.lt_succ_of_le (h.calls_le d hd)
  · intro d hd
    change d.version ≤ s.version + 1
    rcases List.mem_append.mp (hcalls ▸ hd) with hd | hd
    · exact Nat.le_succ_of_le (h.calls_le d hd)
    · exact Nat.le_of_eq (by rw [List.mem_singleton.mp hd])
  · intro k
    change _ ≤ s.version + 1
    rw [hver]
    split
    · exact Nat.le_refl _
    · exact Nat.le_succ_of_le (h.versions_le k)
  · exact fun r hr => Nat.le_succ_of_le (h.reads_le r hr)
  · intro r hr k hopen
    rcases h.guarded r hr k hopen with hun | hpend | hlt
    · exact .inl hun
    · refine .inr (.inl ?_)
      change (if (state k).isSome then _ else s.pendingStateWrites k).isSome
      split <;> simp [hpend]
    · exact .inr (.inr (Nat.lt_of_lt_of_le hlt (hmono k)))

/-! Finishing one. -/

theorem finishChange_value (h : Tracked S s) (next : Option ChatValues)
    (outcome : Outcome StateField.Value) (k : StateField) :
    (finishChange i c next outcome s).value k =
      if s.owns c k then (next.map fun values => values k).getD k.undefined else s.value k := by
  have hle := h.versions_le k
  simp only [finishChange, clearPending, applyCurrent, applyChatState, applyChatStates, accepts,
    snapshot]
  by_cases ho : s.owns c k <;> simp [ho, Nat.le_succ_of_le hle]

theorem finishChange_stateVersions (h : Tracked S s) (next : Option ChatValues)
    (outcome : Outcome StateField.Value) (k : StateField) :
    (finishChange i c next outcome s).stateVersions k =
      if s.owns c k then s.version + 1 else s.stateVersions k := by
  have hle := h.versions_le k
  simp only [finishChange, clearPending, applyCurrent, applyChatState, applyChatStates, accepts,
    snapshot]
  by_cases ho : s.owns c k <;> simp [ho, Nat.le_succ_of_le hle]

/-- A finished write keeps everything but the values, which the caller accounts for. -/
theorem Tracked.finishChange (h : Tracked S s) (hc : s.calls[i]? = some c)
    (next : Option ChatValues) (outcome : Outcome StateField.Value)
    (hvalue : ∀ k, (finishChange i c next outcome s).value k =
      (finishChange i c next outcome s).shown k) :
    Tracked S (finishChange i c next outcome s) := by
  have hver := finishChange_stateVersions (i := i) h (c := c) next outcome
  have hmono : ∀ k, s.stateVersions k ≤
      (ChatCell.finishChange i c next outcome s).stateVersions k := by
    intro k
    rw [hver]
    split <;> have := h.versions_le k <;> omega
  have hmem : ∀ d ∈ s.calls.set i { c with outcome },
      ∃ e ∈ s.calls, e.version = d.version ∧ e.state = d.state := by
    intro d hd
    rcases List.mem_or_eq_of_mem_set hd with hd | rfl
    · exact ⟨d, hd, rfl, rfl⟩
    · exact ⟨c, List.mem_of_getElem? hc, rfl, rfl⟩
  refine ⟨h.settled, hvalue, ?_, ?_, ?_, ?_, ?_, ?_, ?_⟩
  · intro k v hv
    change (if s.pendingStateWrites k = some c.version then none else _) = _ at hv
    split at hv
    · simp at hv
    rename_i hother
    obtain ⟨i', d, w⟩ := h.owner k v hv
    have hne : i ≠ i' := by
      rintro rfl
      obtain rfl := Option.some.inj (w.call.symm.trans hc)
      exact hother (w.version ▸ hv)
    have hkept : ¬ s.owns c k := by
      intro ho
      simp only [owns, Bool.and_eq_true, decide_eq_true_eq] at ho
      exact hother ho.1.2
    refine ⟨i', d, ⟨(List.getElem?_set_ne hne).trans w.call, w.version, w.pending, w.sets, ?_,
      by rw [hver, if_neg hkept, w.current]⟩⟩
    intro hcov
    have hstate : ChangeCall.state { c with outcome } k = c.state k := rfl
    exact w.last ((covered_set_of_effect hc hstate i').mp hcov)
  · intro d hd k hset
    obtain ⟨e, he, hev, hes⟩ := hmem d hd
    exact hev ▸ Nat.le_trans (h.written e he k (hes ▸ hset)) (hmono k)
  · have hsame : (s.calls.set i { c with outcome }).map (·.version) = s.calls.map (·.version) := by
      obtain ⟨hlt, rfl⟩ := List.getElem?_eq_some_iff.mp hc
      rw [List.map_set, ← List.map_set (f := (·.version)) (a := s.calls[i]), List.set_getElem_self]
    have := List.pairwise_map.mpr h.ascending
    exact List.pairwise_map.mp (hsame ▸ this)
  · intro d hd
    obtain ⟨e, he, hev, -⟩ := hmem d hd
    exact hev ▸ Nat.le_succ_of_le (h.calls_le e he)
  · intro k
    change _ ≤ s.version + 1
    rw [hver]
    split
    · exact Nat.le_refl _
    · exact Nat.le_succ_of_le (h.versions_le k)
  · exact fun r hr => Nat.le_succ_of_le (h.reads_le r hr)
  · intro r hr k hopen
    rcases h.guarded r hr k hopen with hun | hpend | hlt
    · exact .inl hun
    · by_cases hm : s.pendingStateWrites k = some c.version
      · refine .inr (.inr ?_)
        rw [hver, if_pos (h.owns_of_marked hc hm)]
        exact Nat.lt_succ_of_le (h.reads_le r hr)
      · refine .inr (.inl ?_)
        change (if s.pendingStateWrites k = some c.version then none else _).isSome
        rwa [if_neg hm]
    · exact .inr (.inr (Nat.lt_of_lt_of_le hlt (hmono k)))

/-- The outcome of a write shows only where no later one sets the field. -/
theorem finishChange_shown (hc : s.calls[i]? = some c) (next : Option ChatValues)
    (outcome : Outcome StateField.Value) (k : StateField) (hcov : ¬ s.Superseded i k) :
    (finishChange i c next outcome s).shown k =
      ((outcome.shows c.state k).getD (s.before i k)) :=
  shown_set_of_not_covered hc hcov

theorem finishChange_shown_of_superseded (hc : s.calls[i]? = some c) (next : Option ChatValues)
    (outcome : Outcome StateField.Value) (k : StateField) (hcov : s.Superseded i k) :
    (finishChange i c next outcome s).shown k = s.shown k :=
  shown_set_of_covered hc hcov

theorem finishChange_shown_of_unset (hc : s.calls[i]? = some c) (next : Option ChatValues)
    (outcome : Outcome StateField.Value) (k : StateField) (hk : c.state k = none) :
    (finishChange i c next outcome s).shown k = s.shown k := by
  refine shown_set_of_effect hc ?_
  rw [shows_eq_none hk]
  exact Outcome.shows_eq_none _ hk

theorem not_owns_of_unset (hk : c.state k = none) : ¬ s.owns c k := by
  simp [owns, hk]

theorem shown_of_pending (hc : s.calls[i]? = some c) (hp : c.outcome.isPending = true)
    {v : k.Value} (hv : c.state k = some v) (hcov : ¬ s.Superseded i k) : s.shown k = v := by
  have hshown : s.shown k = (c.shows k).getD (s.before i k) := shown_of_not_covered hc hcov
  rw [hshown, shows_of_pending hp, hv]
  rfl

theorem Tracked.fail (h : Tracked S s) (hc : s.calls[i]? = some c)
    (hp : c.outcome.isPending = true) (hok : s.Traceless (.fail i)) :
    Tracked S (ChatCell.finishChange i c c.previous .failed s) := by
  refine h.finishChange hc _ _ fun k => ?_
  rw [finishChange_value h]
  cases hk : c.state k with
  | none =>
    rw [if_neg (not_owns_of_unset hk), finishChange_shown_of_unset hc _ _ _ hk, h.value]
  | some v =>
    have hkept := hok c hc k v hk
    by_cases ho : s.owns c k
    · rw [if_pos ho] at hkept ⊢
      rw [hkept, finishChange_shown hc _ _ _ (h.owns_last hc ho)]
      rfl
    · rw [if_neg ho] at hkept ⊢
      by_cases hcov : s.Superseded i k
      · rw [finishChange_shown_of_superseded hc _ _ _ hcov, h.value]
      · rw [finishChange_shown hc _ _ _ hcov, h.value, shown_of_pending hc hp hk hcov]
        exact hkept.resolve_left hcov

theorem Tracked.succeed (h : Tracked S s) (hc : s.calls[i]? = some c)
    (hp : c.outcome.isPending = true) {confirmed : Option ChatValues}
    (hok : s.Traceless (.succeed i confirmed)) :
    Tracked S (ChatCell.finishChange i c (some (confirmedValues c confirmed))
      (.succeeded (confirmedValues c confirmed)) s) := by
  refine h.finishChange hc _ _ fun k => ?_
  rw [finishChange_value h]
  cases hk : c.state k with
  | none =>
    rw [if_neg (not_owns_of_unset hk), finishChange_shown_of_unset hc _ _ _ hk, h.value]
  | some v =>
    by_cases ho : s.owns c k
    · rw [if_pos ho, finishChange_shown hc _ _ _ (h.owns_last hc ho)]
      simp [Outcome.shows, hk]
    · rw [if_neg ho]
      by_cases hcov : s.Superseded i k
      · rw [finishChange_shown_of_superseded hc _ _ _ hcov, h.value]
      · rw [finishChange_shown hc _ _ _ hcov, h.value, shown_of_pending hc hp hk hcov]
        have := ((hok c hc k v hk).resolve_left ho).resolve_left hcov
        simp [Outcome.shows, hk, this]

/-! Reads. -/

theorem Tracked.snapshot (h : Tracked S s) : Tracked S s.snapshot where
  settled := h.settled
  value := h.value
  owner k v hv := by
    obtain ⟨i, c, w⟩ := h.owner k v hv
    exact ⟨i, c, ⟨w.call, w.version, w.pending, w.sets, w.last, w.current⟩⟩
  written := h.written
  ascending := h.ascending
  calls_le c hc := Nat.le_succ_of_le (h.calls_le c hc)
  versions_le k := Nat.le_succ_of_le (h.versions_le k)
  reads_le r hr := Nat.le_succ_of_le (h.reads_le r hr)
  guarded := h.guarded

/-- An accepted answer finds what the field shows already. -/
theorem Tracked.answer_eq (h : Tracked S s) {r : ChatRead} {answer : ChatState}
    (hr : s.reads[j]? = some r) (hans : s.answers r answer)
    (hok : s.Traceless (.finishRead j answer)) (hacc : s.accepts r.version true k)
    {v : k.Value} (hv : answer k = some v) : v = s.value k := by
  rw [h.value]
  have hfield := List.all_eq_true.mp hans k (mem_stateFields k)
  simp only [hv, reduceCtorEq, decide_false, Bool.or_false, Option.some.injEq, Bool.or_eq_true,
    decide_eq_true_eq] at hfield
  rcases hfield with hover | heq
  · simp only [overlaps, Bool.or_eq_true, List.any_eq_true, Bool.and_eq_true,
      decide_eq_true_eq] at hover
    have hacc' := hacc
    simp only [accepts, Bool.true_and, Bool.and_eq_true, Bool.not_eq_true', decide_eq_true_eq] at hacc'
    rcases hover with hopen | ⟨c, hc, hlt, hset⟩
    · rcases h.guarded r (List.mem_of_getElem? hr) k hopen with hun | hpend | hlt
      · exact hok r hr k v hv hun hacc
      · simp [hpend] at hacc'
      · omega
    · have := h.written c hc k hset
      omega
  · exact heq

theorem finishRead_value (h : Tracked S s) {r : ChatRead} {answer : ChatState}
    (hr : s.reads[j]? = some r) (hans : s.answers r answer)
    (hok : s.Traceless (.finishRead j answer)) :
    (applyChatStates answer r.version true s).value = s.value := by
  funext k
  change (if s.accepts r.version true k then (answer k).getD (s.value k) else s.value k) = _
  split
  · rename_i hacc
    cases hv : answer k with
    | none => rfl
    | some v => exact h.answer_eq hr hans hok hacc hv
  · rfl

theorem Tracked.finishRead (h : Tracked S s) {r : ChatRead} {answer : ChatState}
    (hr : s.reads[j]? = some r) (hans : s.answers r answer)
    (hok : s.Traceless (.finishRead j answer)) :
    Tracked S (applyChatStates answer r.version true s) := by
  have hver : ∀ k, (applyChatStates answer r.version true s).stateVersions k =
      if s.accepts r.version true k ∧ (answer k).isSome then r.version else s.stateVersions k :=
    fun _ => rfl
  have hmono : ∀ k, s.stateVersions k ≤
      (applyChatStates answer r.version true s).stateVersions k := by
    intro k
    rw [hver]
    split
    · rename_i hacc
      simp only [accepts, Bool.and_eq_true, decide_eq_true_eq] at hacc
      exact hacc.1.2
    · exact Nat.le_refl _
  refine ⟨h.settled, ?_, ?_, ?_, h.ascending, h.calls_le, ?_, h.reads_le, ?_⟩
  · intro k
    rw [finishRead_value h hr hans hok]
    exact h.value k
  · intro k v hv
    obtain ⟨i', d, w⟩ := h.owner k v hv
    refine ⟨i', d, ⟨w.call, w.version, w.pending, w.sets, w.last, ?_⟩⟩
    have hrej : s.accepts r.version true k = false := by
      have hv : s.pendingStateWrites k = some v := hv
      simp [accepts, hv]
    rw [hver, hrej]
    simpa using w.current
  · exact fun c hc k hset => Nat.le_trans (h.written c hc k hset) (hmono k)
  · intro k
    rw [hver]
    split
    · exact h.reads_le r (List.mem_of_getElem? hr)
    · exact h.versions_le k
  · intro r' hr' k hopen
    rcases h.guarded r' hr' k hopen with hun | hpend | hlt
    · exact .inl hun
    · exact .inr (.inl hpend)
    · exact .inr (.inr (Nat.lt_of_lt_of_le hlt (hmono k)))

theorem Tracked.startRead (h : Tracked S s) (ht : s.step .startRead = some t) : Tracked S t := by
  obtain rfl := Option.some.inj ht
  have hs := h.snapshot
  refine ⟨hs.settled, hs.value, ?_, hs.written, hs.ascending, hs.calls_le, hs.versions_le, ?_, ?_⟩
  · intro k v hv
    obtain ⟨i, c, w⟩ := h.owner k v hv
    exact ⟨i, c, ⟨w.call, w.version, w.pending, w.sets, w.last, w.current⟩⟩
  · intro r hr
    rcases List.mem_append.mp hr with hr | hr
    · exact hs.reads_le r hr
    · exact Nat.le_of_eq (by rw [List.mem_singleton.mp hr]; rfl)
  · intro r hr k hopen
    rcases List.mem_append.mp hr with hr | hr
    · exact h.guarded r hr k hopen
    · obtain rfl := List.mem_singleton.mp hr
      by_cases hnone : s.pendingStateWrites k = none
      · exact .inl (by simpa [hnone] using hopen)
      · exact .inr (.inl (Option.isSome_iff_ne_none.mpr hnone))

theorem Tracked.step {e : ChatEvent} (h : Tracked S s) (hok : s.Traceless e)
    (ht : s.step e = some t) : Tracked S t := by
  cases e with
  | start state =>
    obtain rfl := Option.some.inj ht
    exact h.startChange state
  | succeed i confirmed =>
    obtain ⟨c, hc, ht⟩ := Option.bind_eq_some_iff.mp ht
    split at ht
    · obtain rfl := Option.some.inj ht
      exact h.succeed hc ‹_› hok
    · simp at ht
  | fail i =>
    obtain ⟨c, hc, ht⟩ := Option.bind_eq_some_iff.mp ht
    split at ht
    · obtain rfl := Option.some.inj ht
      exact h.fail hc ‹_› hok
    · simp at ht
  | startRead => exact h.startRead ht
  | finishRead j answer =>
    obtain ⟨r, hr, ht⟩ := Option.bind_eq_some_iff.mp ht
    split at ht
    · obtain rfl := Option.some.inj ht
      exact h.finishRead hr ‹_› hok
    · simp at ht
  | tick =>
    obtain rfl := Option.some.inj ht
    exact h.snapshot

/-- Once nothing is in flight, the last write that succeeded shows. -/
theorem Tracked.quiet (h : Tracked S s) (hq : s.Quiet) (k : StateField) :
    s.value k = Layers.shown ChangeCall.left S s.calls k := by
  rw [h.value, shown, h.settled]
  exact shown_congr fun c hc => Outcome.shows_eq_left _ (hq c hc)

end Chahua.Chats.ChatCell

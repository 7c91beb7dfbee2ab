import Chahua.ClientTracking.LastSeen

namespace Chahua.ClientTracking

open Framework

namespace LastSeen

/-- What holds between the rows a run started from and a state it reached. -/
structure Persisted (initial : Table Nat Int) (s : LastSeen) : Prop where
  rows : ∀ uid, (s.userExtra.row uid).isSome = (initial.row uid).isSome
  origin : ∀ uid first p, initial.row uid = some first → s.userExtra.row uid = some p →
    first ≤ p ∧ (p = first ∨ ∃ at', (uid, at') ∈ s.observed ∧ p = toTimestamp at')
  kept : ∀ uid at' p, (uid, at') ∈ s.observed → s.userExtra.row uid = some p →
    toTimestamp at' ≤ p ∨ ∃ v, s.pending.row (date at', uid) = some v ∧ at' ≤ v
  pendingSeen : ∀ day uid v, s.pending.row (day, uid) = some v →
    (uid, v) ∈ s.observed ∧ date v = day
  restSeen : ∀ day uid v, s.flush.rest.row (day, uid) = some v →
    (uid, v) ∈ s.observed ∧ date v = day
  committed : ∀ day rest, s.flush = .committed day rest → ∀ uid v p,
    rest.row (day, uid) = some v → s.userExtra.row uid = some p → toTimestamp v ≤ p
  alone : s.overlapped = false → s.flush ≠ .idle → s.pending = s.flush.rest
  clean : s.clean = true → s.pending.keys = ∅ ∧ s.flush = .idle

theorem candidate_eq_true {rest : Observations} {day previous : Int} {uid : Nat} :
    candidate rest day uid previous = true ↔
      ∃ v, rest.row (day, uid) = some v ∧ previous < toTimestamp v := by
  simp [candidate, Option.any_eq_true]

/-- `GREATEST` leaves rows that are as new as the observation of the batch. -/
theorem flushDay_row {s : LastSeen} {day p : Int} {rest : Observations} {uid : Nat}
    (h : s.userExtra.row uid = some p) :
    (s.flushDay day rest).userExtra.row uid =
      some ((rest.row (day, uid)).elim p fun v => max p (toTimestamp v)) := by
  change (s.userExtra.updateWhere _ _).row uid = _
  rw [Table.updateWhere_row_some h]
  cases hv : rest.row (day, uid) with
  | none => simp [candidate, hv]
  | some v =>
    by_cases hlt : p < toTimestamp v
    · simp [candidate, hv, hlt]
    · simp [candidate, hv, hlt, max_eq_left (not_lt.mp hlt)]

theorem flushDay_row_inv {s : LastSeen} {day q : Int} {rest : Observations} {uid : Nat}
    (h : (s.flushDay day rest).userExtra.row uid = some q) :
    ∃ p, s.userExtra.row uid = some p ∧ p ≤ q ∧
      (q = p ∨ ∃ v, rest.row (day, uid) = some v ∧ q = toTimestamp v) ∧
      ∀ v, rest.row (day, uid) = some v → toTimestamp v ≤ q := by
  cases hp : s.userExtra.row uid with
  | none =>
    change (s.userExtra.updateWhere _ _).row uid = _ at h
    simp [Table.updateWhere_row, hp] at h
  | some p =>
    rw [flushDay_row hp] at h
    refine ⟨p, rfl, ?_⟩
    cases hv : rest.row (day, uid) with
    | none =>
      rw [hv] at h
      exact ⟨(Option.some.inj h).le, .inl (Option.some.inj h).symm, by simp⟩
    | some v =>
      rw [hv] at h
      have hq : max p (toTimestamp v) = q := Option.some.inj h
      refine ⟨hq ▸ le_max_left _ _, ?_, ?_⟩
      · rcases max_choice p (toTimestamp v) with hmax | hmax
        · exact .inl (hq.symm.trans hmax)
        · exact .inr ⟨v, rfl, hq.symm.trans hmax⟩
      · intro w hw
        exact Option.some.inj hw ▸ hq ▸ le_max_right _ _

theorem acknowledge_row_inv {s : LastSeen} {day : Int} {rest : Observations} {key : Int × Nat}
    {v : Int} (h : (s.acknowledge day rest).pending.row key = some v) :
    s.pending.row key = some v ∧ (key.1 = day → ∀ w, rest.row key = some w → w < v) := by
  change (s.pending.deleteWhere _).row key = _ at h
  rw [Table.deleteWhere_row, Option.filter_eq_some_iff] at h
  refine ⟨h.1, fun hday w hw => ?_⟩
  have hkeep := h.2
  simp only [hday, hw, decide_true, Bool.true_and, Option.any_some, Bool.not_eq_true',
    decide_eq_false_iff_not, not_le] at hkeep
  exact hkeep

/-- A pending observation is only dropped for one of the batch that is as new. -/
theorem acknowledge_row {s : LastSeen} (day : Int) (rest : Observations) {key : Int × Nat}
    {v : Int} (h : s.pending.row key = some v) :
    (s.acknowledge day rest).pending.row key = some v ∨
      key.1 = day ∧ ∃ w, rest.row key = some w ∧ v ≤ w := by
  change (s.pending.deleteWhere _).row key = _ ∨ _
  rw [Table.deleteWhere_row, h]
  by_cases hday : key.1 = day
  · cases hw : rest.row key with
    | none => simp [Option.filter]
    | some w =>
      by_cases hle : v ≤ w
      · exact .inr ⟨hday, w, rfl, hle⟩
      · simp [Option.filter, hle]
  · simp [Option.filter, hday]

theorem acknowledge_rest_inv {s : LastSeen} {day : Int} {rest : Observations} {key : Int × Nat}
    {v : Int} (h : (s.acknowledge day rest).flush.rest.row key = some v) :
    rest.row key = some v ∧ key.1 ≠ day := by
  change (rest.deleteWhere _).row key = _ at h
  rw [Table.deleteWhere_row, Option.filter_eq_some_iff] at h
  exact ⟨h.1, by simpa using h.2⟩

theorem record_pending (s : LastSeen) (uid : Nat) (at' : Int) (key : Int × Nat) :
    (s.record uid at').pending.row key =
      if key = (date at', uid) then
        some ((s.pending.row (date at', uid)).elim at' fun known => max known at')
      else s.pending.row key := rfl

/-- The newest observation of a day stays pending. -/
theorem record_row {s : LastSeen} (uid : Nat) (at' : Int) {key : Int × Nat} {v : Int}
    (h : s.pending.row key = some v) :
    ∃ w, (s.record uid at').pending.row key = some w ∧ v ≤ w := by
  rw [record_pending]
  by_cases hkey : key = (date at', uid)
  · subst hkey
    exact ⟨max v at', by simp [h], le_max_left _ _⟩
  · exact ⟨v, by simp [hkey, h], le_rfl⟩

theorem record_row_self (s : LastSeen) (uid : Nat) (at' : Int) :
    ∃ w, (s.record uid at').pending.row (date at', uid) = some w ∧ at' ≤ w := by
  rw [record_pending, if_pos rfl]
  cases s.pending.row (date at', uid) with
  | none => exact ⟨at', rfl, le_rfl⟩
  | some known => exact ⟨max known at', rfl, le_max_right _ _⟩

theorem record_row_inv {s : LastSeen} {uid : Nat} {at' : Int} {key : Int × Nat} {v : Int}
    (h : (s.record uid at').pending.row key = some v) :
    s.pending.row key = some v ∨ key = (date at', uid) ∧ v = at' := by
  rw [record_pending] at h
  split at h
  · next hkey =>
    subst hkey
    cases hk : s.pending.row (date at', uid) with
    | none => exact .inr ⟨rfl, by simpa [hk] using h.symm⟩
    | some known =>
      have hv : max known at' = v := by simpa [hk] using h
      rcases max_choice known at' with hmax | hmax
      · exact .inl (hmax ▸ hv ▸ rfl)
      · exact .inr ⟨rfl, hv.symm.trans hmax⟩
  · exact .inl h

theorem init_persisted (userExtra : Table Nat Int) (activeUsers : Table Int Nat) :
    Persisted userExtra (init userExtra activeUsers) where
  rows := fun _ => rfl
  origin := fun uid first p h1 h2 => by
    have hp : first = p := Option.some.inj (h1.symm.trans h2)
    exact ⟨hp.le, .inl hp.symm⟩
  kept := fun uid at' p h => by simp [init] at h
  pendingSeen := fun day uid v h => by simp [init] at h
  restSeen := fun day uid v h => by simp [init, Flush.rest] at h
  committed := fun day rest h => by simp [init] at h
  alone := fun _ h => absurd rfl h
  clean := fun h => by simp [init] at h

variable {initial : Table Nat Int} {s t : LastSeen}

theorem Persisted.record (h : Persisted initial s) (uid : Nat) (at' : Int) :
    Persisted initial (s.record uid at') where
  rows := h.rows
  origin := fun u first p h1 h2 => by
    obtain ⟨hle, hp | ⟨o, ho, hp⟩⟩ := h.origin u first p h1 h2
    · exact ⟨hle, .inl hp⟩
    · exact ⟨hle, .inr ⟨o, List.mem_append_left _ ho, hp⟩⟩
  kept := fun u o p ho hp => by
    rcases List.mem_append.mp ho with ho | ho
    · rcases h.kept u o p ho hp with hle | ⟨v, hv, hle⟩
      · exact .inl hle
      · obtain ⟨w, hw, hvw⟩ := record_row uid at' hv
        exact .inr ⟨w, hw, hle.trans hvw⟩
    · obtain ⟨rfl, rfl⟩ : u = uid ∧ o = at' := by simpa using ho
      exact .inr (record_row_self s u o)
  pendingSeen := fun day u v hv => by
    rcases record_row_inv hv with hv | ⟨hkey, rfl⟩
    · exact ⟨List.mem_append_left _ (h.pendingSeen day u v hv).1, (h.pendingSeen day u v hv).2⟩
    · obtain ⟨rfl, rfl⟩ := Prod.mk.inj hkey
      exact ⟨List.mem_append_right _ (by simp), rfl⟩
  restSeen := fun day u v hv =>
    ⟨List.mem_append_left _ (h.restSeen day u v hv).1, (h.restSeen day u v hv).2⟩
  committed := h.committed
  alone := fun ho => by simp [LastSeen.record] at ho
  clean := fun hc => by simp [LastSeen.record] at hc

theorem Persisted.flushDay (h : Persisted initial s) {rest : Observations} {day : Int}
    (hrun : s.flush = .running rest) : Persisted initial (s.flushDay day rest) where
  rows := fun uid => by
    rw [← h.rows uid]
    cases hp : s.userExtra.row uid with
    | none =>
      change ((s.userExtra.updateWhere _ _).row uid).isSome = _
      simp [Table.updateWhere_row, hp]
    | some p => simp [flushDay_row hp]
  origin := fun uid first q h1 h2 => by
    obtain ⟨p, hp, hle, hq, -⟩ := flushDay_row_inv h2
    obtain ⟨hfirst, hor⟩ := h.origin uid first p h1 hp
    refine ⟨hfirst.trans hle, ?_⟩
    rcases hq with rfl | ⟨v, hv, rfl⟩
    · exact hor
    · exact .inr ⟨v, (h.restSeen day uid v (by simpa [hrun, Flush.rest] using hv)).1, rfl⟩
  kept := fun uid o q ho hq => by
    obtain ⟨p, hp, hle, -, -⟩ := flushDay_row_inv hq
    exact (h.kept uid o p ho hp).imp_left fun hop => hop.trans hle
  pendingSeen := h.pendingSeen
  restSeen := fun d uid v hv => h.restSeen d uid v (by rw [hrun]; exact hv)
  committed := fun d rest' hc uid v q hv hq => by
    obtain ⟨rfl, rfl⟩ := Flush.committed.inj hc
    obtain ⟨p, -, -, -, hall⟩ := flushDay_row_inv hq
    exact hall v hv
  alone := fun ho _ => by
    have heq := h.alone ho (by rw [hrun]; exact Flush.noConfusion)
    rw [hrun] at heq
    exact heq
  clean := fun hc => by
    have hidle := (h.clean hc).2
    rw [hrun] at hidle
    cases hidle

theorem Persisted.acknowledge (h : Persisted initial s) {rest : Observations} {day : Int}
    (hcom : s.flush = .committed day rest) : Persisted initial (s.acknowledge day rest) where
  rows := h.rows
  origin := h.origin
  kept := fun uid o p ho hp => by
    rcases h.kept uid o p ho hp with hle | ⟨v, hv, hle⟩
    · exact .inl hle
    rcases acknowledge_row day rest hv with hstay | ⟨hday, w, hw, hvw⟩
    · exact .inr ⟨v, hstay, hle⟩
    · have hwp := h.committed day rest hcom uid w p (hday ▸ hw) hp
      exact .inl ((toTimestamp_mono (hle.trans hvw)).trans hwp)
  pendingSeen := fun d uid v hv => h.pendingSeen d uid v (acknowledge_row_inv hv).1
  restSeen := fun d uid v hv => h.restSeen d uid v (by
    rw [hcom]
    exact (acknowledge_rest_inv hv).1)
  committed := fun _ _ hc => by simp [LastSeen.acknowledge] at hc
  alone := fun ho _ => by
    have heq : s.pending = rest := by
      rw [h.alone ho (by rw [hcom]; exact Flush.noConfusion), hcom]
      rfl
    ext1 key
    change (s.pending.deleteWhere _).row key = (rest.deleteWhere _).row key
    rw [Table.deleteWhere_row, Table.deleteWhere_row, heq]
    cases hk : rest.row key <;> simp [Option.filter]
  clean := fun hc => by
    have hidle := (h.clean hc).2
    rw [hcom] at hidle
    cases hidle

theorem Persisted.next (h : Persisted initial s) {e : LastSeenEvent} (hn : s.Next e t) : Persisted initial t := by
  cases hn with
  | record uid at' => exact h.record uid at'
  | nothing hidle hempty =>
    exact { h with clean := fun _ => ⟨hempty, hidle⟩ }
  | snapshot hidle =>
    exact { h with
      restSeen := h.pendingSeen
      committed := fun _ _ hc => by cases hc
      alone := fun _ _ => rfl
      clean := fun hc => by cases hc }
  | flushDay rest day hrun _ => exact h.flushDay hrun
  | acknowledge rest day hcom => exact h.acknowledge hcom
  | finish rest hrun hdone =>
    exact { h with
      restSeen := fun _ _ _ hv => by simp [Flush.rest] at hv
      committed := fun _ _ hc => by cases hc
      alone := fun _ hne => absurd rfl hne
      clean := fun hc => by
        have heq := h.alone (by simpa using hc) (by rw [hrun]; exact Flush.noConfusion)
        rw [hrun] at heq
        exact ⟨by rw [heq]; exact hdone, rfl⟩ }
  | fail rest hrun =>
    exact { h with
      restSeen := fun _ _ _ hv => by simp [Flush.rest] at hv
      committed := fun _ _ hc => by cases hc
      alone := fun _ hne => absurd rfl hne
      clean := fun hc => ⟨(h.clean hc).1, rfl⟩ }

theorem run_persisted {es : List LastSeenEvent} (h : Persisted initial s)
    (hrun : run step s es = some t) : Persisted initial t :=
  run_invariant (fun _ _ _ hi hst => hi.next (next_of_step hst)) h hrun

/-- Rows and observations of an earlier state. -/
structure Later (s t : LastSeen) : Prop where
  observed : ∀ o ∈ s.observed, o ∈ t.observed
  userExtra : ∀ uid q, t.userExtra.row uid = some q →
    ∃ p, s.userExtra.row uid = some p ∧ p ≤ q

theorem later_refl (s : LastSeen) : Later s s := ⟨fun _ h => h, fun _ q h => ⟨q, h, le_rfl⟩⟩

theorem Later.trans {r : LastSeen} (h : Later r s) (h' : Later s t) : Later r t where
  observed := fun o ho => h'.observed o (h.observed o ho)
  userExtra := fun uid q hq => by
    obtain ⟨p, hp, hpq⟩ := h'.userExtra uid q hq
    obtain ⟨o, ho, hop⟩ := h.userExtra uid p hp
    exact ⟨o, ho, hop.trans hpq⟩

theorem Next.later {e : LastSeenEvent} (h : s.Next e t) : Later s t := by
  cases h with
  | record uid at' => exact ⟨fun o ho => List.mem_append_left _ ho, (later_refl s).userExtra⟩
  | flushDay rest day =>
    refine ⟨fun o ho => ho, fun uid q hq => ?_⟩
    obtain ⟨p, hp, hle, -, -⟩ := flushDay_row_inv hq
    exact ⟨p, hp, hle⟩
  | _ => exact ⟨(later_refl s).observed, (later_refl s).userExtra⟩

theorem run_later {es : List LastSeenEvent} (hrun : run step s es = some t) : Later s t :=
  run_invariant (I := Later s)
    (fun _ _ _ hi hst => hi.trans (next_of_step hst).later) (later_refl s) hrun

theorem persisted_row {uid : Nat} {p : Int} (h : s.userExtra.row uid = some p) :
    s.persisted uid = some (fromTimestamp p) := by simp [persisted, h]

/-- A user with a row has a newest value: a pending one or the persisted one. -/
theorem latest_eq {uid : Nat} {p : Int} (h : s.userExtra.row uid = some p) :
    ∃ a : Int, s.latest uid (s.persisted uid) = a ∧
      ((∃ day, s.pending.row (day, uid) = some a) ∨ a = fromTimestamp p) := by
  rw [latest, persisted_row h]
  obtain ⟨a, ha⟩ := Finset.max_of_mem (Finset.mem_union_right
    (s.pending.image (fun key _ => decide (key.2 = uid)) fun _ known => known)
    (Option.mem_toFinset.mpr (Option.mem_some_self (fromTimestamp p))))
  refine ⟨a, ha, ?_⟩
  rcases Finset.mem_union.mp (Finset.mem_of_max ha) with hmem | hmem
  · obtain ⟨⟨day, u⟩, v, hv, hu, rfl⟩ := Table.mem_image.mp hmem
    obtain rfl : u = uid := by simpa using hu
    exact .inl ⟨day, hv⟩
  · exact .inr (by simpa using hmem)

theorem pending_le_latest {uid : Nat} {day v : Int} (persisted : Option Int)
    (h : s.pending.row (day, uid) = some v) : (v : WithBot Int) ≤ s.latest uid persisted :=
  Finset.le_max (Finset.mem_union_left _
    (Table.mem_image.mpr ⟨(day, uid), v, h, by simp, rfl⟩))

theorem persisted_le_latest {uid : Nat} {p : Int} (h : s.userExtra.row uid = some p) :
    (fromTimestamp p : WithBot Int) ≤ s.latest uid (s.persisted uid) := by
  rw [persisted_row h]
  exact Finset.le_max (Finset.mem_union_right _ (by simp))

/-- What a reader saw is still seen, up to what the database does not hold of it. -/
theorem latest_le_latest (h : Persisted initial s) (h' : Persisted initial t) (hst : Later s t)
    {uid : Nat} (hrow : (initial.row uid).isSome) :
    (s.latest uid (s.persisted uid)).map toTimestamp ≤
      (t.latest uid (t.persisted uid)).map toTimestamp := by
  obtain ⟨q, hq⟩ := Option.isSome_iff_exists.mp ((h'.rows uid).trans hrow)
  obtain ⟨p, hp, hpq⟩ := hst.userExtra uid q hq
  obtain ⟨a, ha, hor⟩ := latest_eq hp
  obtain ⟨b, hb, -⟩ := latest_eq hq
  have hqb : q ≤ toTimestamp b := by
    have hle := persisted_le_latest hq
    rw [hb, WithBot.coe_le_coe] at hle
    simpa using toTimestamp_mono hle
  rw [ha, hb, WithBot.map_coe, WithBot.map_coe, WithBot.coe_le_coe]
  rcases hor with ⟨day, hv⟩ | rfl
  · have hseen := hst.observed _ (h.pendingSeen day uid a hv).1
    rcases h'.kept uid a q hseen hq with hle | ⟨w, hw, haw⟩
    · exact hle.trans hqb
    · have hle := pending_le_latest (t.persisted uid) hw
      rw [hb, WithBot.coe_le_coe] at hle
      exact toTimestamp_mono (haw.trans hle)
  · rw [toTimestamp_fromTimestamp]
    exact hpq.trans hqb

/-- Nothing is pending: the row holds the newest of all values it could hold. -/
theorem persisted_isGreatest (h : Persisted initial s) (hclean : s.clean = true) {uid : Nat}
    {first p : Int} (hfirst : initial.row uid = some first) (hp : s.userExtra.row uid = some p) :
    IsGreatest ({first} ∪ {x | ∃ at', (uid, at') ∈ s.observed ∧ x = toTimestamp at'}) p := by
  obtain ⟨hle, hor⟩ := h.origin uid first p hfirst hp
  refine ⟨hor, ?_⟩
  rintro x (rfl | ⟨at', ho, rfl⟩)
  · exact hle
  · rcases h.kept uid at' p ho hp with hx | ⟨v, hv, -⟩
    · exact hx
    · have hkeys := (s.pending.mem_keys (date at', uid)).mpr (by simp [hv])
      simp [(h.clean hclean).1] at hkeys

end LastSeen

end Chahua.ClientTracking

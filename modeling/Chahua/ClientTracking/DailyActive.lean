import Chahua.ClientTracking.Persisted

namespace Chahua.ClientTracking

open Framework

namespace LastSeen

/-- Observations of a user come in order, and none lies before the epoch. -/
def Clock (s : LastSeen) : LastSeenEvent → Prop
  | .record uid at' => 0 ≤ at' ∧ ∀ o, (uid, o) ∈ s.observed → o ≤ at'
  | _ => True

theorem nextDay_le {rest : Observations} {day d v : Int} {uid : Nat}
    (h : nextDay rest = some day) (hv : rest.row (d, uid) = some v) : day ≤ d :=
  Finset.min_le_of_eq
    (Finset.mem_image_of_mem Prod.fst ((rest.mem_keys (d, uid)).mpr (by simp [hv]))) h

/-- The users whose row lies before a day and whose observations of it were committed. -/
def counted (initial : Table Nat Int) (committed : Finset (Int × Nat)) (d : Int) : Finset Nat :=
  initial.select fun uid first =>
    decide (timestampDate first < d) && decide ((d, uid) ∈ committed)

theorem mem_counted {initial : Table Nat Int} {committed : Finset (Int × Nat)} {d : Int}
    {uid : Nat} : uid ∈ counted initial committed d ↔
      (∃ first, initial.row uid = some first ∧ timestampDate first < d) ∧
        (d, uid) ∈ committed := by
  simp [counted, Table.mem_select, ← and_assoc]

/-- The rollup after the days and users in `done` were committed. -/
structure Rollup (initial : Table Nat Int) (before : Table Int Nat)
    (done : Finset (Int × Nat)) (s : LastSeen) : Prop where
  count : ∀ d, (s.activeUsers.row d).getD 0 =
    (before.row d).getD 0 + (counted initial done d).card
  epoch : ∀ uid at', (uid, at') ∈ s.observed → 0 ≤ at'
  seen : ∀ d uid, (d, uid) ∈ done → ∃ at', (uid, at') ∈ s.observed ∧ date at' = d
  reached : ∀ d uid p, (d, uid) ∈ done → s.userExtra.row uid = some p → d ≤ timestampDate p
  origin : ∀ uid first p, initial.row uid = some first → s.userExtra.row uid = some p →
    p = first ∨ (timestampDate p, uid) ∈ done
  ordered : ∀ d uid v, s.pending.row (d, uid) = some v ∨ s.flush.rest.row (d, uid) = some v →
    ∀ d', (d', uid) ∈ done → d' ≤ d
  fresh : ∀ d uid v, s.pending.row (d, uid) = some v → s.flush ≠ .idle →
    s.flush.rest.row (d, uid) = some v ∨
      ∀ d' w, s.flush.rest.row (d', uid) = some w → w ≤ v
  waiting : ∀ uid at', (uid, at') ∈ s.observed →
    (date at', uid) ∈ done ∨ ∃ v, s.pending.row (date at', uid) = some v
  committed : ∀ day rest, s.flush = .committed day rest → ∀ uid v,
    rest.row (day, uid) = some v → (day, uid) ∈ done

theorem init_rollup (userExtra : Table Nat Int) (activeUsers : Table Int Nat) :
    Rollup userExtra activeUsers ∅ (init userExtra activeUsers) where
  count := fun d => by simp [init, counted, Table.select]
  epoch := fun uid at' h => by simp [init] at h
  seen := fun d uid h => by simp at h
  reached := fun d uid p h => by simp at h
  origin := fun uid first p h1 h2 => .inl (Option.some.inj (h2.symm.trans h1))
  ordered := fun d uid v _ d' h => by simp at h
  fresh := fun d uid v h => by simp [init] at h
  waiting := fun uid at' h => by simp [init] at h
  committed := fun day rest h => by simp [init] at h

variable {initial : Table Nat Int} {before : Table Int Nat} {done : Finset (Int × Nat)}
  {s t : LastSeen}

theorem Rollup.record (h : Rollup initial before done s) (hp : Persisted initial s) {uid : Nat}
    {at' : Int} (hok : Clock s (.record uid at')) :
    Rollup initial before done (s.record uid at') where
  count := h.count
  epoch := fun u o ho => by
    rcases List.mem_append.mp ho with ho | ho
    · exact h.epoch u o ho
    · obtain ⟨rfl, rfl⟩ : u = uid ∧ o = at' := by simpa using ho
      exact hok.1
  seen := fun d u hd => by
    obtain ⟨o, ho, hday⟩ := h.seen d u hd
    exact ⟨o, List.mem_append_left _ ho, hday⟩
  reached := h.reached
  origin := h.origin
  ordered := fun d u v hv d' hd' => by
    rcases hv with hv | hv
    · rcases record_row_inv hv with hv | ⟨hkey, rfl⟩
      · exact h.ordered d u v (.inl hv) d' hd'
      · obtain ⟨rfl, rfl⟩ := Prod.mk.inj hkey
        obtain ⟨o, ho, rfl⟩ := h.seen d' u hd'
        exact date_mono (hok.2 o ho)
    · exact h.ordered d u v (.inr hv) d' hd'
  fresh := fun d u v hv hne => by
    rcases record_row_inv hv with hv | ⟨hkey, rfl⟩
    · exact h.fresh d u v hv hne
    · obtain ⟨rfl, rfl⟩ := Prod.mk.inj hkey
      exact .inr fun d' w hw => hok.2 w (hp.restSeen d' u w hw).1
  waiting := fun u o ho => by
    rcases List.mem_append.mp ho with ho | ho
    · rcases h.waiting u o ho with hd | ⟨v, hv⟩
      · exact .inl hd
      · obtain ⟨w, hw, -⟩ := record_row uid at' hv
        exact .inr ⟨w, hw⟩
    · obtain ⟨rfl, rfl⟩ : u = uid ∧ o = at' := by simpa using ho
      obtain ⟨w, hw, -⟩ := record_row_self s u o
      exact .inr ⟨w, hw⟩
  committed := h.committed

/-- The users of the batch that the statement of a day counts: their row lies before the day and
none of their observations of it was committed before. -/
theorem flushDay_counts (h : Rollup initial before done s) (hp : Persisted initial s)
    {rest : Observations} {day : Int} (hrun : s.flush = .running rest) (uid : Nat) :
    uid ∈ s.userExtra.select (fun u previous =>
        candidate rest day u previous && decide (timestampDate previous ≠ day)) ↔
      (∃ first, initial.row uid = some first ∧ timestampDate first < day) ∧
        (∃ v, rest.row (day, uid) = some v) ∧ (day, uid) ∉ done := by
  have hrest : s.flush.rest = rest := by rw [hrun]; rfl
  simp only [Table.mem_select, Bool.and_eq_true, candidate_eq_true, decide_eq_true_eq]
  constructor
  · rintro ⟨p, hrow, ⟨v, hv, hlt⟩, hne⟩
    obtain ⟨first, hfirst⟩ := Option.isSome_iff_exists.mp
      ((hp.rows uid).symm.trans (by simp [hrow]))
    obtain ⟨hseen, hday⟩ := hp.restSeen day uid v (hrest ▸ hv)
    have hpday : timestampDate p ≤ day := by
      have hle := timestampDate_mono hlt.le
      rwa [timestampDate_toTimestamp (h.epoch uid v hseen), hday] at hle
    have hfp := timestampDate_mono (hp.origin uid first p hfirst hrow).1
    refine ⟨⟨first, hfirst, by omega⟩, ⟨v, hv⟩, fun hdone => ?_⟩
    exact hne (le_antisymm hpday (h.reached day uid p hdone hrow))
  · rintro ⟨⟨first, hfirst, hlt⟩, ⟨v, hv⟩, hnot⟩
    obtain ⟨p, hrow⟩ := Option.isSome_iff_exists.mp ((hp.rows uid).trans (by simp [hfirst]))
    obtain ⟨hseen, hday⟩ := hp.restSeen day uid v (hrest ▸ hv)
    have hpday : timestampDate p < day := by
      rcases h.origin uid first p hfirst hrow with rfl | hdone
      · exact hlt
      · have hle := h.ordered day uid v (.inr (hrest ▸ hv)) _ hdone
        exact lt_of_le_of_ne hle fun heq => hnot (heq ▸ hdone)
    refine ⟨p, hrow, ⟨v, hv, ?_⟩, hpday.ne⟩
    by_contra hge
    have hle := timestampDate_mono (not_lt.mp hge)
    rw [timestampDate_toTimestamp (h.epoch uid v hseen), hday] at hle
    omega

/-- The keys of the batch of a day. -/
def batch (rest : Observations) (day : Int) : Finset (Int × Nat) :=
  rest.keys.filter fun key => key.1 = day

theorem mem_batch {rest : Observations} {day d : Int} {uid : Nat} :
    (d, uid) ∈ batch rest day ↔ d = day ∧ ∃ v, rest.row (day, uid) = some v := by
  rw [batch, Finset.mem_filter, rest.mem_keys, Option.isSome_iff_exists, and_comm]
  exact and_congr_right fun (hd : d = day) => by rw [hd]

/-- Each user of the batch that was not counted before is counted. -/
theorem flushDay_count (h : Rollup initial before done s) (hp : Persisted initial s)
    {rest : Observations} {day : Int} (hrun : s.flush = .running rest) (d : Int) :
    ((s.flushDay day rest).activeUsers.row d).getD 0 =
      (before.row d).getD 0 + (counted initial (done ∪ batch rest day) d).card := by
  have hcounts := @flushDay_counts _ _ _ _ h hp rest day hrun
  generalize hnew : s.userExtra.select (fun u previous =>
    candidate rest day u previous && decide (timestampDate previous ≠ day)) = new at hcounts
  have hcount : ((s.flushDay day rest).activeUsers.row d).getD 0 =
      (s.activeUsers.row d).getD 0 + if d = day then new.card else 0 := by
    simp only [LastSeen.flushDay, hnew]
    by_cases hzero : new.card = 0
    · simp [hzero]
    · by_cases hd : d = day
      · simp [hzero, hd]
      · simp [hzero, hd, Table.upsert_row]
  rw [hcount, h.count d, Nat.add_assoc]
  congr 1
  by_cases hd : d = day
  · subst hd
    have hdisjoint : Disjoint (counted initial done d) new := by
      rw [Finset.disjoint_left]
      intro uid hmem hmem'
      exact ((hcounts uid).mp hmem').2.2 (mem_counted.mp hmem).2
    rw [if_pos rfl, ← Finset.card_union_of_disjoint hdisjoint]
    congr 1
    ext uid
    simp only [Finset.mem_union, mem_counted, hcounts, mem_batch, true_and]
    rw [← and_or_left]
    refine and_congr_right fun _ => ?_
    by_cases hdone : (d, uid) ∈ done <;> simp [hdone]
  · rw [if_neg hd, Nat.add_zero]
    congr 1
    ext uid
    simp [mem_counted, mem_batch, hd]

theorem Rollup.flushDay (h : Rollup initial before done s) (hp : Persisted initial s)
    {rest : Observations} {day : Int} (hrun : s.flush = .running rest)
    (hfirst : nextDay rest = some day) :
    Rollup initial before (done ∪ batch rest day) (s.flushDay day rest) where
  count := flushDay_count h hp hrun
  epoch := h.epoch
  seen := fun d uid hd => by
    rcases Finset.mem_union.mp hd with hd | hd
    · exact h.seen d uid hd
    · obtain ⟨rfl, v, hv⟩ := mem_batch.mp hd
      exact ⟨v, hp.restSeen d uid v (by rw [hrun]; exact hv)⟩
  reached := fun d uid q hd hq => by
    obtain ⟨p, hrow, hle, -, hall⟩ := flushDay_row_inv hq
    rcases Finset.mem_union.mp hd with hd | hd
    · exact (h.reached d uid p hd hrow).trans (timestampDate_mono hle)
    · obtain ⟨rfl, v, hv⟩ := mem_batch.mp hd
      obtain ⟨hseen, hday⟩ := hp.restSeen d uid v (by rw [hrun]; exact hv)
      have hvq := timestampDate_mono (hall v hv)
      rwa [timestampDate_toTimestamp (h.epoch uid v hseen), hday] at hvq
  origin := fun uid first q h1 hq => by
    obtain ⟨p, hrow, -, hor, -⟩ := flushDay_row_inv hq
    rcases hor with rfl | ⟨v, hv, rfl⟩
    · exact (h.origin uid first q h1 hrow).imp_right (Finset.mem_union_left _)
    · obtain ⟨hseen, hday⟩ := hp.restSeen day uid v (by rw [hrun]; exact hv)
      rw [timestampDate_toTimestamp (h.epoch uid v hseen), hday]
      exact .inr (Finset.mem_union_right _ (mem_batch.mpr ⟨rfl, v, hv⟩))
  ordered := fun d uid v hv d' hd' => by
    have hrest : s.flush.rest = rest := by rw [hrun]; rfl
    have hv' : s.pending.row (d, uid) = some v ∨ s.flush.rest.row (d, uid) = some v :=
      hv.imp_right fun hx => hrest ▸ hx
    rcases Finset.mem_union.mp hd' with hd' | hd'
    · exact h.ordered d uid v hv' d' hd'
    obtain ⟨rfl, w, hw⟩ := mem_batch.mp hd'
    rcases hv with hv | hv
    · rcases h.fresh d uid v hv (by rw [hrun]; exact Flush.noConfusion) with hx | hx
      · exact nextDay_le hfirst (hrest ▸ hx)
      · have hle := date_mono (hx d' w (hrest ▸ hw))
        rwa [(hp.restSeen d' uid w (hrest ▸ hw)).2, (hp.pendingSeen d uid v hv).2] at hle
    · exact nextDay_le hfirst hv
  fresh := fun d uid v hv _ => by
    have hx := h.fresh d uid v hv (by rw [hrun]; exact Flush.noConfusion)
    rw [hrun] at hx
    exact hx
  waiting := fun uid o ho => (h.waiting uid o ho).imp_left (Finset.mem_union_left _)
  committed := fun d rest' hc uid v hv => by
    obtain ⟨rfl, rfl⟩ := Flush.committed.inj hc
    exact Finset.mem_union_right _ (mem_batch.mpr ⟨rfl, v, hv⟩)

theorem Rollup.acknowledge (h : Rollup initial before done s) {rest : Observations} {day : Int}
    (hcom : s.flush = .committed day rest) :
    Rollup initial before done (s.acknowledge day rest) where
  count := h.count
  epoch := h.epoch
  seen := h.seen
  reached := h.reached
  origin := h.origin
  ordered := fun d uid v hv => h.ordered d uid v (by
    rw [hcom]
    exact hv.imp (fun hx => (acknowledge_row_inv hx).1) fun hx => (acknowledge_rest_inv hx).1)
  fresh := fun d uid v hv _ => by
    obtain ⟨hpending, hnewer⟩ := acknowledge_row_inv hv
    have hx := h.fresh d uid v hpending (by rw [hcom]; exact Flush.noConfusion)
    rw [hcom] at hx
    rcases hx with hx | hx
    · refine .inl ?_
      change (rest.deleteWhere _).row (d, uid) = _
      rw [Table.deleteWhere_row, show rest.row (d, uid) = some v from hx]
      by_cases hd : d = day
      · exact absurd (hnewer hd v hx) (lt_irrefl v)
      · simp [Option.filter, hd]
    · exact .inr fun d' w hw => hx d' w (acknowledge_rest_inv hw).1
  waiting := fun uid o ho => by
    rcases h.waiting uid o ho with hd | ⟨v, hv⟩
    · exact .inl hd
    rcases acknowledge_row day rest hv with hstay | ⟨hday, w, hw, -⟩
    · exact .inr ⟨v, hstay⟩
    · simp only at hday
      rw [hday] at hw ⊢
      exact .inl (h.committed day rest hcom uid w hw)
  committed := fun _ _ hc => by simp [LastSeen.acknowledge] at hc

/-- The flush ends: nothing of its snapshot is left to be in order with. -/
theorem Rollup.ended (h : Rollup initial before done s) (clean : Bool) :
    Rollup initial before done { s with flush := .idle, clean := clean } :=
  { h with
    ordered := fun d uid v hv => h.ordered d uid v (.inl (hv.resolve_right (by simp [Flush.rest])))
    fresh := fun _ _ _ _ hne => absurd rfl hne
    committed := fun _ _ hc => by cases hc }

theorem Rollup.next (h : Rollup initial before done s) (hp : Persisted initial s)
    {e : LastSeenEvent} (hok : Clock s e) (hn : s.Next e t) :
    ∃ done', Rollup initial before done' t := by
  cases hn with
  | record uid at' => exact ⟨done, h.record hp hok⟩
  | nothing => exact ⟨done, { h with }⟩
  | snapshot =>
    exact ⟨done, { h with
      ordered := fun d uid v hv => h.ordered d uid v (.inl (hv.elim id id))
      fresh := fun d uid v hv _ => .inl hv
      committed := fun _ _ hc => by cases hc }⟩
  | flushDay rest day hrun hfirst => exact ⟨_, h.flushDay hp hrun hfirst⟩
  | acknowledge rest day hcom => exact ⟨done, h.acknowledge hcom⟩
  | finish => exact ⟨done, h.ended _⟩
  | fail => exact ⟨done, h.ended s.clean⟩

theorem run_rollup {es : List LastSeenEvent} (hp : Persisted initial s)
    (h : Rollup initial before done s) (hok : Along step Clock s es)
    (hrun : run step s es = some t) :
    ∃ done', Rollup initial before done' t :=
  (run_invariant_along
    (I := fun s => Persisted initial s ∧ ∃ done, Rollup initial before done s)
    (fun s e t hi hok hst => by
      obtain ⟨hp, done, h⟩ := hi
      exact ⟨hp.next (next_of_step hst), h.next hp hok (next_of_step hst)⟩)
    ⟨hp, done, h⟩ hok hrun).2

/-- The users with an observation of a day whose row lay before the day. -/
def activeOn (initial : Table Nat Int) (s : LastSeen) (d : Int) : Finset Nat :=
  initial.select fun uid first =>
    decide (timestampDate first < d) &&
      s.observed.any fun o => decide (o.1 = uid) && decide (date o.2 = d)

theorem mem_activeOn {d : Int} {uid : Nat} : uid ∈ activeOn initial s d ↔
    (∃ first, initial.row uid = some first ∧ timestampDate first < d) ∧
      ∃ at', (uid, at') ∈ s.observed ∧ date at' = d := by
  simp only [activeOn, Table.mem_select, Bool.and_eq_true, decide_eq_true_eq, List.any_eq_true]
  constructor
  · rintro ⟨first, hrow, hlt, ⟨u, o⟩, ho, rfl, hday⟩
    exact ⟨⟨first, hrow, hlt⟩, o, ho, hday⟩
  · rintro ⟨⟨first, hrow, hlt⟩, o, ho, hday⟩
    exact ⟨first, hrow, hlt, (uid, o), ho, rfl, hday⟩

theorem Rollup.counted_subset (h : Rollup initial before done s) (d : Int) :
    counted initial done d ⊆ activeOn initial s d := by
  intro uid hmem
  obtain ⟨hrow, hdone⟩ := mem_counted.mp hmem
  exact mem_activeOn.mpr ⟨hrow, h.seen d uid hdone⟩

theorem Rollup.counted_eq (h : Rollup initial before done s) {d : Int}
    (hpending : ∀ uid, s.pending.row (d, uid) = none) :
    counted initial done d = activeOn initial s d := by
  refine (h.counted_subset d).antisymm fun uid hmem => ?_
  obtain ⟨hrow, o, ho, rfl⟩ := mem_activeOn.mp hmem
  rcases h.waiting uid o ho with hdone | ⟨v, hv⟩
  · exact mem_counted.mpr ⟨hrow, hdone⟩
  · rw [hpending uid] at hv
    cases hv

/-- What is seen of a user stays seen, a successful flush persists all of it, and every day counts
its users once. -/
theorem last_seen_kept_and_counted_once :
    (∀ userExtra activeUsers before after s t,
      run step (init userExtra activeUsers) before = some s → run step s after = some t →
      ∀ uid, (userExtra.row uid).isSome → (s.latest uid (s.persisted uid)).map toTimestamp ≤
        (t.latest uid (t.persisted uid)).map toTimestamp) ∧
    (∀ userExtra activeUsers events s,
      run step (init userExtra activeUsers) events = some s → s.clean = true →
      ∀ uid first, userExtra.row uid = some first →
        ∃ p, s.userExtra.row uid = some p ∧
          IsGreatest ({first} ∪ {x | ∃ at', (uid, at') ∈ s.observed ∧ x = toTimestamp at'}) p) ∧
    ∀ userExtra activeUsers events s,
      run step (init userExtra activeUsers) events = some s →
      Along step Clock (init userExtra activeUsers) events → ∀ d,
        (s.activeUsers.row d).getD 0 ≤
            (activeUsers.row d).getD 0 + (activeOn userExtra s d).card ∧
          (s.clean = true ∨ (∀ uid, s.pending.row (d, uid) = none) →
            (s.activeUsers.row d).getD 0 =
              (activeUsers.row d).getD 0 + (activeOn userExtra s d).card) := by
  refine ⟨?_, ?_, ?_⟩
  · intro userExtra activeUsers before after s t hs ht uid hrow
    have h := run_persisted (init_persisted userExtra activeUsers) hs
    exact latest_le_latest h (run_persisted h ht) (run_later ht) hrow
  · intro userExtra activeUsers events s hs hclean uid first hfirst
    have h := run_persisted (init_persisted userExtra activeUsers) hs
    obtain ⟨p, hp⟩ := Option.isSome_iff_exists.mp ((h.rows uid).trans (by simp [hfirst]))
    exact ⟨p, hp, persisted_isGreatest h hclean hfirst hp⟩
  · intro userExtra activeUsers events s hs hok d
    have hp := init_persisted userExtra activeUsers
    obtain ⟨done, h⟩ := run_rollup hp (init_rollup userExtra activeUsers) hok hs
    refine ⟨?_, fun hpending => ?_⟩
    · rw [h.count d]
      exact Nat.add_le_add_left (Finset.card_le_card (h.counted_subset d)) _
    · rw [h.count d, h.counted_eq]
      rcases hpending with hclean | hpending
      · intro uid
        have hkeys := ((run_persisted hp hs).clean hclean).1
        simpa [hkeys] using s.pending.mem_keys (d, uid)
      · exact hpending

/-- Activity on both sides of midnight: the first flush fails after the first day, the next one
persists the rest. -/
theorem last_seen_kept_and_counted_once_across_midnight :
    ∃ s t, run step (init (Table.ofList [(201, -1)]) .empty)
        [.record 201 86399000000000, .record 201 86400000000000, .snapshot, .flushDay,
          .acknowledge, .fail] = some s ∧
      run step s [.snapshot, .flushDay, .acknowledge, .finish] = some t ∧
      (s.latest 201 (s.persisted 201)).map toTimestamp ≤
        (t.latest 201 (t.persisted 201)).map toTimestamp ∧
      (∃ p, t.userExtra.row 201 = some p ∧
        IsGreatest ({-1} ∪ {x | ∃ at', (201, at') ∈ t.observed ∧ x = toTimestamp at'}) p) ∧
      (t.activeUsers.row 0).getD 0 = (activeOn (Table.ofList [(201, -1)]) t 0).card ∧
      (t.activeUsers.row 1).getD 0 = (activeOn (Table.ofList [(201, -1)]) t 1).card := by
  refine ⟨_, _, rfl, rfl,
    last_seen_kept_and_counted_once.1 (Table.ofList [(201, -1)]) .empty
      [.record 201 86399000000000, .record 201 86400000000000, .snapshot, .flushDay,
        .acknowledge, .fail] [.snapshot, .flushDay, .acknowledge, .finish] _ _ rfl rfl 201 rfl,
    last_seen_kept_and_counted_once.2.1 (Table.ofList [(201, -1)]) .empty
      [.record 201 86399000000000, .record 201 86400000000000, .snapshot, .flushDay,
        .acknowledge, .fail, .snapshot, .flushDay, .acknowledge, .finish] _ rfl rfl 201 (-1) rfl,
    ?_⟩
  have h := last_seen_kept_and_counted_once.2.2 (Table.ofList [(201, -1)]) .empty
      [.record 201 86399000000000, .record 201 86400000000000, .snapshot, .flushDay,
        .acknowledge, .fail, .snapshot, .flushDay, .acknowledge, .finish] _ rfl
      (.cons rfl ⟨by decide, by simp [init]⟩ <| .cons rfl ⟨by decide, by simp [init, record]⟩ <|
        .cons rfl trivial <| .cons rfl trivial <| .cons rfl trivial <| .cons rfl trivial <|
        .cons rfl trivial <| .cons rfl trivial <| .cons rfl trivial <| .cons rfl trivial trivial)
  exact ⟨by simpa using (h 0).2 (.inl rfl), by simpa using (h 1).2 (.inl rfl)⟩

/-- A `TIMESTAMP` is coarser than a `NaiveDateTime`: what it drops is lost with the pending value,
and before the epoch it moves an observation to the next day. -/
theorem persisted_drops_nanoseconds :
    (∃ s t, run step (init (Table.ofList [(7, -1)]) .empty) [.record 7 1500] = some s ∧
      run step s [.snapshot, .flushDay, .acknowledge, .finish] = some t ∧
      s.latest 7 (s.persisted 7) = (1500 : Int) ∧ t.latest 7 (t.persisted 7) = (1000 : Int) ∧
      t.clean = true ∧ t.persisted 7 = some 1000) ∧
    ∃ s, run step (init (Table.ofList [(7, -86400000001)]) .empty)
        [.record 7 (-1), .record 7 0, .snapshot, .flushDay, .acknowledge, .flushDay,
          .acknowledge, .finish] = some s ∧
      s.clean = true ∧ date 0 = 0 ∧ (7, 0) ∈ s.observed ∧
      timestampDate (-86400000001) < 0 ∧ (s.activeUsers.row 0).getD 0 = 0 := by
  refine ⟨⟨_, _, rfl, rfl, by decide, by decide, by decide, by decide⟩,
    ⟨_, rfl, by decide, by decide, by decide, by decide, by decide⟩⟩

end LastSeen

end Chahua.ClientTracking

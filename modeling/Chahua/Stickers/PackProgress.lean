import Mathlib.Data.Prod.Lex
import Mathlib.Algebra.BigOperators.Group.Finset.Basic
import Chahua.Stickers.PackSerializable

namespace Chahua.Stickers

open Framework

namespace PackTx

/-- The packs are locked in ascending order. -/
def Ascending (tx : PackTx) : Prop :=
  ∀ todo, tx.stage = .packs todo → (tx.held ++ todo).Pairwise (· < ·)

theorem ascending_opening (db : PackTables) (request : PackRequest) :
    (opening db request).Ascending := by
  intro todo htodo
  cases htodo
  cases request with
  | reorder uid requested => exact pairwise_ascending _
  | _ => exact List.pairwise_singleton _ _

end PackTx

namespace PackSystem

variable {s : PackSystem} {k : Nat} {tx : PackTx}

theorem ascending_next {tx' : PackTx} (h : tx.Ascending) (ho : s.outcome k tx = .next tx') :
    tx'.Ascending := by
  intro todo' htodo'
  unfold outcome at ho
  cases hstage : tx.stage with
  | packs todo =>
    rw [hstage] at ho
    cases todo with
    | nil =>
      simp only [planNext] at ho
      split at ho
      · cases ho
        cases htodo'
      · cases ho
    | cons id todo =>
      have hall := h (id :: todo) hstage
      simp only [lockNext] at ho
      split at ho
      · cases ho
      · split at ho
        · split at ho
          · cases ho
            cases htodo'
            exact (List.pairwise_append.mp hall).2.1
          · cases ho
        · split at ho
          · cases ho
            cases htodo'
            dsimp only
            rwa [List.append_assoc]
          · cases ho
            cases htodo'
            exact hall.sublist ((List.sublist_cons_self id _).append_left tx.held)
  | inserting todo =>
    rw [hstage] at ho
    cases todo with
    | nil => cases ho; cases htodo'
    | cons uid todo =>
      simp only [insertNext] at ho
      split at ho
      · cases ho
        cases htodo'
      · split at ho
        · cases ho
        · cases ho
          cases htodo'
  | locking todo =>
    rw [hstage] at ho
    cases todo with
    | nil => cases ho; cases htodo'
    | cons uid todo =>
      simp only [readNext] at ho
      split at ho
      · cases ho
      · cases ho
        cases htodo'
  | reading => rw [hstage] at ho; cases ho; cases htodo'
  | ready => rw [hstage] at ho; cases ho

def AllAscending (s : PackSystem) : Prop := ∀ k tx, s.txs.row k = some tx → tx.Ascending

theorem allAscending_step (s : PackSystem) (e : PackEvent) (t : PackSystem)
    (h : s.AllAscending) (hstep : s.step e = some t) : t.AllAscending := by
  intro j b hb
  cases e with
  | start k request =>
    simp only [step] at hstep
    split at hstep
    · cases hstep
    · cases hstep
      rw [Table.upsert_row] at hb
      split at hb
      · exact Option.some.inj hb ▸ PackTx.ascending_opening s.db request
      · exact h j b hb
  | advance k =>
    obtain ⟨tx, hrow, hafter⟩ := Option.bind_eq_some_iff.mp hstep
    cases ho : s.outcome k tx with
    | blocked => rw [ho] at hafter; cases hafter
    | next tx' =>
      rw [ho] at hafter
      cases hafter
      rw [Table.upsert_row] at hb
      split at hb
      · exact Option.some.inj hb ▸ ascending_next (h k tx hrow) ho
      · exact h j b hb
    | finish db result =>
      rw [ho] at hafter
      cases hafter
      exact h j b (Table.row_of_erase hb).2
  | rollback k =>
    simp only [step] at hstep
    split at hstep
    · cases hstep
      exact h j b (Table.row_of_erase hb).2
    · cases hstep

/-- Rows in the order every transaction takes them: packs, then the user rows it inserts, then
the user rows that were committed. -/
def Holds (s : PackSystem) (k : Nat) (row : ℕ ×ₗ ℤ) : Prop :=
  ∃ tx, s.txs.row k = some tx ∧
    ((∃ id ∈ tx.held, row = toLex (0, id)) ∨ (∃ uid ∈ tx.inserted, row = toLex (1, uid)) ∨
      ∃ uid ∈ tx.orders.map (·.uid), uid ∉ tx.inserted ∧ row = toLex (2, uid))

def Waits (s : PackSystem) (k : Nat) (row : ℕ ×ₗ ℤ) : Prop :=
  ∃ tx, s.txs.row k = some tx ∧
    ((∃ id todo, tx.stage = .packs (id :: todo) ∧ s.packBlocked k tx id = true ∧
        row = toLex (0, id)) ∨
      (∃ uid todo, tx.stage = .inserting (uid :: todo) ∧ s.db.userExtra.row uid = none ∧
        s.rowBlocked k uid = true ∧ row = toLex (1, uid)) ∨
      ∃ uid todo, tx.stage = .locking (uid :: todo) ∧ s.rowBlocked k uid = true ∧
        row = toLex (2, uid))

theorem exists_of_others {p : PackTx → Bool} (h : s.others k p = true) :
    ∃ j b, j ≠ k ∧ s.txs.row j = some b ∧ p b = true := by
  unfold others at h
  rw [decide_eq_true_eq] at h
  obtain ⟨j, hj⟩ := h
  obtain ⟨b, hb, hp⟩ := Table.mem_select.mp hj
  rw [Bool.and_eq_true, decide_eq_true_eq] at hp
  exact ⟨j, b, hp.1, hb, hp.2⟩

theorem exists_of_rowBlocked {uid : Int} (h : s.rowBlocked k uid = true) :
    ∃ j b, j ≠ k ∧ s.txs.row j = some b ∧ uid ∈ b.rows := by
  obtain ⟨j, b, hne, hb, hp⟩ := exists_of_others h
  exact ⟨j, b, hne, hb, of_decide_eq_true hp⟩

/-- A row that was read is committed or the transaction's own. -/
theorem present_of_orders (hc : s.db.Current tx) {uid : Int}
    (hmem : uid ∈ tx.orders.map (·.uid)) : s.db.Present tx uid := by
  obtain ⟨-, hstage⟩ := hc
  have hof : ∀ done : List Int, tx.orders = done.map s.db.read → uid ∈ done := by
    intro done horders
    rwa [horders, PackTables.map_uid_read] at hmem
  cases hs : tx.stage with
  | packs todo =>
    rw [hs] at hstage
    rw [hstage.2.1] at hmem
    cases hmem
  | inserting todo =>
    rw [hs] at hstage
    rw [hstage.2.1] at hmem
    cases hmem
  | locking todo =>
    rw [hs] at hstage
    obtain ⟨-, -, hpresent, done, huids, horders⟩ := hstage
    exact hpresent uid (huids ▸ List.mem_append_left _ (hof done horders))
  | reading =>
    rw [hs] at hstage
    obtain ⟨-, hpresent, horders⟩ := hstage
    exact hpresent uid (hof _ horders)
  | ready =>
    rw [hs] at hstage
    obtain ⟨-, hpresent, horders, -⟩ := hstage
    exact hpresent uid (hof _ horders)

/-- Whoever waits for a row waits for a transaction that holds it. -/
theorem holds_of_waits (h : s.Isolated) {row : ℕ ×ₗ ℤ} (hw : s.Waits k row) :
    ∃ j ∈ s.txs.keys, s.Holds j row := by
  have hkeys : ∀ j b, s.txs.row j = some b → j ∈ s.txs.keys := fun j b hb =>
    (s.txs.mem_keys j).mpr (by simp [hb])
  obtain ⟨tx, hrow, hwaits⟩ := hw
  rcases hwaits with ⟨id, todo, -, hblocked, rfl⟩ | ⟨uid, todo, -, hnone, hblocked, rfl⟩ |
    ⟨uid, todo, hstage, hblocked, rfl⟩
  · obtain ⟨j, b, -, hb, hp⟩ := exists_of_others hblocked
    rw [Bool.and_eq_true, decide_eq_true_eq] at hp
    exact ⟨j, hkeys j b hb, b, hb, Or.inl ⟨id, hp.1, rfl⟩⟩
  · obtain ⟨j, b, -, hb, hmem⟩ := exists_of_rowBlocked hblocked
    have hins : uid ∈ b.inserted := by
      rcases List.mem_append.mp hmem with hins | hord
      · exact hins
      · rcases present_of_orders (h.current j b hb) hord with hsome | hins
        · rw [hnone] at hsome
          cases hsome
        · exact hins
    exact ⟨j, hkeys j b hb, b, hb, Or.inr (Or.inl ⟨uid, hins, rfl⟩)⟩
  · obtain ⟨j, b, hne, hb, hmem⟩ := exists_of_rowBlocked hblocked
    have hcurrent := h.current k tx hrow
    simp only [PackTables.Current, hstage] at hcurrent
    obtain ⟨-, -, -, hpresent, done, huids, -⟩ := hcurrent
    have hcommitted : (s.db.userExtra.row uid).isSome = true := by
      rcases hpresent uid (huids ▸ List.mem_append_right _ List.mem_cons_self) with hsome | hins
      · exact hsome
      · exact absurd hmem ((h.apart k j tx b hne.symm hrow hb).2 uid
          (List.mem_append_left _ hins))
    have hnot : uid ∉ b.inserted := by
      intro hins
      rw [(h.current j b hb).1 uid hins] at hcommitted
      cases hcommitted
    have hord := (List.mem_append.mp hmem).resolve_left hnot
    exact ⟨j, hkeys j b hb, b, hb, Or.inr (Or.inr ⟨uid, hord, hnot, rfl⟩)⟩

theorem lt_of_pairwise {done todo : List Int} {u uid : Int}
    (h : (done ++ uid :: todo).Pairwise (· < ·)) (hu : u ∈ done) : u < uid :=
  (List.pairwise_append.mp h).2.2 u hu uid List.mem_cons_self

/-- A transaction waits for a row after all that it holds. -/
theorem lt_of_holds_waits (h : s.Isolated) (hascending : s.AllAscending) {a b : ℕ ×ₗ ℤ}
    (hh : s.Holds k a) (hw : s.Waits k b) : a < b := by
  obtain ⟨tx, hrow, hwaits⟩ := hw
  obtain ⟨tx', hrow', hholds⟩ := hh
  obtain rfl := Option.some.inj (hrow.symm.trans hrow')
  have hcurrent := h.current k tx hrow
  rcases hwaits with ⟨id, todo, hstage, -, rfl⟩ | ⟨uid, todo, hstage, -, -, rfl⟩ |
    ⟨uid, todo, hstage, -, rfl⟩
  · simp only [PackTables.Current, hstage] at hcurrent
    obtain ⟨-, hins, hord, -, -⟩ := hcurrent
    rcases hholds with ⟨p, hp, rfl⟩ | ⟨u, hu, rfl⟩ | ⟨u, hu, -, rfl⟩
    · exact Prod.Lex.toLex_lt_toLex.mpr
        (Or.inr ⟨rfl, lt_of_pairwise (hascending k tx hrow _ hstage) hp⟩)
    · rw [hins] at hu
      cases hu
    · rw [hord] at hu
      cases hu
  · simp only [PackTables.Current, hstage] at hcurrent
    obtain ⟨-, hplan, hord, done, huids, hdone, -⟩ := hcurrent
    rcases hholds with ⟨p, hp, rfl⟩ | ⟨u, hu, rfl⟩ | ⟨u, hu, -, rfl⟩
    · exact Prod.Lex.toLex_lt_toLex.mpr (Or.inl Nat.zero_lt_one)
    · exact Prod.Lex.toLex_lt_toLex.mpr (Or.inr ⟨rfl, lt_of_pairwise
        (huids ▸ PackTables.pairwise_plan hplan.plan) (hdone u hu)⟩)
    · rw [hord] at hu
      cases hu
  · simp only [PackTables.Current, hstage] at hcurrent
    obtain ⟨-, hplan, -, -, done, huids, hord⟩ := hcurrent
    rcases hholds with ⟨p, hp, rfl⟩ | ⟨u, hu, rfl⟩ | ⟨u, hu, -, rfl⟩
    · exact Prod.Lex.toLex_lt_toLex.mpr (Or.inl Nat.zero_lt_two)
    · exact Prod.Lex.toLex_lt_toLex.mpr (Or.inl Nat.one_lt_two)
    · rw [hord, PackTables.map_uid_read] at hu
      exact Prod.Lex.toLex_lt_toLex.mpr (Or.inr ⟨rfl, lt_of_pairwise
        (huids ▸ PackTables.pairwise_plan hplan.plan) hu⟩)

/-- A transaction that waits for no row can run its next statement. -/
theorem outcome_ne_blocked (hrow : s.txs.row k = some tx) (h : ∀ row, ¬s.Waits k row) :
    s.outcome k tx ≠ .blocked := by
  intro ho
  unfold outcome at ho
  cases hstage : tx.stage with
  | packs todo =>
    rw [hstage] at ho
    cases todo with
    | nil =>
      simp only [planNext] at ho
      split at ho <;> cases ho
    | cons id todo =>
      simp only [lockNext] at ho
      split at ho
      · next hblocked =>
        exact h _ ⟨tx, hrow, Or.inl ⟨id, todo, hstage, hblocked, rfl⟩⟩
      · split at ho
        · split at ho <;> cases ho
        · split at ho <;> cases ho
  | inserting todo =>
    rw [hstage] at ho
    cases todo with
    | nil => cases ho
    | cons uid todo =>
      simp only [insertNext] at ho
      split at ho
      · cases ho
      · next hnone =>
        split at ho
        · next hblocked =>
          rw [Option.not_isSome_iff_eq_none] at hnone
          exact h _ ⟨tx, hrow, Or.inr (Or.inl ⟨uid, todo, hstage, hnone, hblocked, rfl⟩)⟩
        · cases ho
  | locking todo =>
    rw [hstage] at ho
    cases todo with
    | nil => cases ho
    | cons uid todo =>
      simp only [readNext] at ho
      split at ho
      · next hblocked =>
        exact h _ ⟨tx, hrow, Or.inr (Or.inr ⟨uid, todo, hstage, hblocked, rfl⟩)⟩
      · cases ho
  | reading => rw [hstage] at ho; cases ho
  | ready => rw [hstage] at ho; cases ho

theorem exists_ready (h : s.Isolated) (hascending : s.AllAscending)
    (hne : s.txs.keys.Nonempty) :
    ∃ k tx, s.txs.row k = some tx ∧ s.outcome k tx ≠ .blocked := by
  obtain ⟨k, hk, hfree⟩ := @exists_not_waiting _ _ _ s.txs.keys hne s.Holds s.Waits
    (fun i _ a b hh hw => lt_of_holds_waits h hascending hh hw)
    (fun i _ a hw => holds_of_waits h hw)
  obtain ⟨tx, hrow⟩ := Option.isSome_iff_exists.mp ((s.txs.mem_keys k).mp hk)
  exact ⟨k, tx, hrow, outcome_ne_blocked hrow hfree⟩

end PackSystem

/-- The statements a transaction has left before and after its users are known. -/
def PackTx.toPlan (tx : PackTx) : Nat :=
  match tx.stage with
  | .packs todo => todo.length + 1
  | _ => 0

def PackTx.toRun (tx : PackTx) : Nat :=
  match tx.stage with
  | .packs _ => 0
  | .inserting todo => todo.length + tx.uids.length + 4
  | .locking todo => todo.length + 3
  | .reading => 2
  | .ready => 1

def total (txs : Table Nat PackTx) (f : PackTx → Nat) : Nat :=
  ∑ k ∈ txs.keys, (txs.row k).elim 0 f

theorem total_erase (txs : Table Nat PackTx) (f : PackTx → Nat) {k : Nat} {tx : PackTx}
    (h : txs.row k = some tx) : total (txs.erase k) f + f tx = total txs f := by
  have hmem : k ∈ txs.keys := (txs.mem_keys k).mpr (by simp [h])
  have hrest : total (txs.erase k) f = ∑ j ∈ txs.keys.erase k, (txs.row j).elim 0 f := by
    refine Finset.sum_congr rfl fun j hj => ?_
    rw [Table.erase_row_ne txs (Finset.ne_of_mem_erase hj)]
  have hself : (txs.row k).elim 0 f = f tx := by rw [h]; rfl
  rw [hrest, ← hself]
  exact Finset.sum_erase_add _ _ hmem

theorem total_upsert (txs : Table Nat PackTx) (f : PackTx → Nat) {k : Nat} {tx tx' : PackTx}
    (h : txs.row k = some tx) : total (txs.upsert k tx') f + f tx = total txs f + f tx' := by
  have hback : (txs.upsert k tx').erase k = txs.erase k := by
    ext1 j
    by_cases hj : j = k
    · simp [hj]
    · simp [Table.erase_row, Table.upsert_row, hj]
  rw [← total_erase (txs.upsert k tx') f (Table.upsert_row_self txs k tx'), hback,
    ← total_erase txs f h]
  omega

namespace PackSystem

variable {s : PackSystem} {k : Nat} {tx : PackTx}

def remaining (s : PackSystem) : ℕ ×ₗ ℕ :=
  toLex (total s.txs PackTx.toPlan, total s.txs PackTx.toRun)

/-- A statement leaves fewer: of those before the users are known, or of those after. -/
theorem next_lt {tx' : PackTx} (ho : s.outcome k tx = .next tx') :
    tx'.toPlan < tx.toPlan ∨ tx'.toPlan = tx.toPlan ∧ tx'.toRun < tx.toRun := by
  unfold outcome at ho
  cases hstage : tx.stage with
  | packs todo =>
    rw [hstage] at ho
    refine Or.inl ?_
    cases todo with
    | nil =>
      simp only [planNext] at ho
      split at ho
      · cases ho
        simp [PackTx.toPlan, hstage]
      · cases ho
    | cons id todo =>
      simp only [lockNext] at ho
      split at ho
      · cases ho
      · split at ho
        · split at ho
          · cases ho
            simp [PackTx.toPlan, hstage]
          · cases ho
        · split at ho
          · cases ho
            simp [PackTx.toPlan, hstage]
          · cases ho
            simp [PackTx.toPlan, hstage]
  | inserting todo =>
    rw [hstage] at ho
    refine Or.inr ?_
    cases todo with
    | nil =>
      cases ho
      simp [PackTx.toPlan, PackTx.toRun, hstage]
    | cons uid todo =>
      simp only [insertNext] at ho
      split at ho
      · cases ho
        simp [PackTx.toPlan, PackTx.toRun, hstage]
      · split at ho
        · cases ho
        · cases ho
          simp [PackTx.toPlan, PackTx.toRun, hstage]
  | locking todo =>
    rw [hstage] at ho
    refine Or.inr ?_
    cases todo with
    | nil =>
      cases ho
      simp [PackTx.toPlan, PackTx.toRun, hstage]
    | cons uid todo =>
      simp only [readNext] at ho
      split at ho
      · cases ho
      · cases ho
        simp [PackTx.toPlan, PackTx.toRun, hstage]
  | reading =>
    rw [hstage] at ho
    cases ho
    simp [PackTx.toPlan, PackTx.toRun, hstage]
  | ready => rw [hstage] at ho; cases ho

theorem pos_remaining (tx : PackTx) : 0 < tx.toPlan ∨ 0 < tx.toRun := by
  unfold PackTx.toPlan PackTx.toRun
  cases tx.stage <;> simp

theorem exists_advance (hi : s.Isolated) (hascending : s.AllAscending)
    (hne : s.txs.keys.Nonempty) :
    ∃ k t, s.step (.advance k) = some t ∧ t.remaining < s.remaining := by
  obtain ⟨k, tx, hrow, hfree⟩ := exists_ready hi hascending hne
  cases ho : s.outcome k tx with
  | blocked => exact absurd ho hfree
  | next tx' =>
    refine ⟨k, { s with txs := s.txs.upsert k tx' }, by simp [step, hrow, ho, afterOutcome], ?_⟩
    have hplan := @total_upsert s.txs PackTx.toPlan k tx tx' hrow
    have hrun := @total_upsert s.txs PackTx.toRun k tx tx' hrow
    rw [remaining, remaining, Prod.Lex.toLex_lt_toLex]
    dsimp only
    rcases next_lt ho with hlt | ⟨heq, hlt⟩
    · exact Or.inl (by omega)
    · exact Or.inr ⟨by omega, by omega⟩
  | finish db result =>
    refine ⟨k, ⟨db, s.txs.erase k, s.log ++ [(tx.request, result)]⟩,
      by simp [step, hrow, ho, afterOutcome], ?_⟩
    have hplan := total_erase s.txs PackTx.toPlan hrow
    have hrun := total_erase s.txs PackTx.toRun hrow
    rw [remaining, remaining, Prod.Lex.toLex_lt_toLex]
    dsimp only
    rcases pos_remaining tx with hpos | hpos
    · exact Or.inl (by omega)
    · by_cases hzero : tx.toPlan = 0
      · exact Or.inr ⟨by omega, by omega⟩
      · exact Or.inl (by omega)

end PackSystem

/-- The locks never deadlock: from every state of every interleaving the transactions in flight
can all run to their ends with no further one started or rolled back. -/
theorem sticker_transactions_finish {db : PackTables} {s : PackSystem} {es : List PackEvent}
    (h : db.WellFormed) (htyped : ∀ e ∈ es, e.Typed)
    (hrun : run PackSystem.step (PackSystem.initial db) es = some s) :
    ∃ more u, (∀ e ∈ more, ∃ k, e = PackEvent.advance k) ∧
      run PackSystem.step s more = some u ∧ ∀ k, u.txs.row k = none := by
  have hserialized := PackSystem.run_serialized h htyped hrun
  have hascending : s.AllAscending := run_invariant PackSystem.allAscending_step
    (fun k tx hrow => by cases hrow) hrun
  refine @exists_run_of_progress _ _ _ _ _ PackSystem.step
    (fun t => PackSystem.Serialized db t ∧ t.AllAscending) _ _ PackSystem.remaining ?_ s
    ⟨hserialized, hascending⟩
  intro t ht hunfinished
  have hne : t.txs.keys.Nonempty := by
    by_contra hempty
    refine hunfinished fun k => ?_
    cases hrow : t.txs.row k with
    | none => rfl
    | some tx => exact absurd ⟨k, (t.txs.mem_keys k).mpr (by simp [hrow])⟩ hempty
  obtain ⟨k, u, hstep, hlt⟩ := PackSystem.exists_advance ht.1.1 ht.2 hne
  exact ⟨.advance k, u, ⟨k, rfl⟩, hstep,
    ⟨PackSystem.serialized_step t (.advance k) u ht.1 trivial hstep,
      PackSystem.allAscending_step t _ u ht.2 hstep⟩, hlt⟩

/-- Two transactions at one new pack, each after its first statement is tried. -/
def contended : List PackEvent :=
  [.start 0 (.create ⟨7, 1, "cats", none, 0, 0, .Public⟩ 0), .start 1 (.subscribe 2 7 5),
    .advance 0]

theorem contended_finish : ∃ s more u, run PackSystem.step
    (PackSystem.initial PackTables.empty) contended = some s ∧ s.txs.keys.card = 2 ∧
      run PackSystem.step s more = some u ∧ ∀ k, u.txs.row k = none := by
  have hkeys : ((run PackSystem.step (PackSystem.initial PackTables.empty) contended).map
      fun s => s.txs.keys.card) = some 2 := by decide +kernel
  obtain ⟨s, hrun, hcard⟩ := Option.map_eq_some_iff.mp hkeys
  have htyped : ∀ e ∈ contended, e.Typed := by
    intro e he
    simp only [contended, List.mem_cons, List.not_mem_nil, or_false] at he
    rcases he with rfl | rfl | rfl
    · exact rfl
    all_goals trivial
  obtain ⟨more, u, -, hmore, hdone⟩ :=
    sticker_transactions_finish PackTables.wellFormed_empty htyped hrun
  exact ⟨s, more, u, hrun, hcard, hmore, hdone⟩

end Chahua.Stickers

import Chahua.Framework.Progress
import Chahua.Stickers.PackCommits

namespace Chahua.Stickers

open Framework

/-- Two transactions share a pack only for reading, and never a user row. -/
def PackTx.Apart (a b : PackTx) : Prop :=
  (∀ id ∈ a.held, id ∈ b.held → a.request.exclusive = false ∧ b.request.exclusive = false) ∧
    ∀ uid ∈ a.rows, uid ∉ b.rows

theorem PackTx.Apart.symm {a b : PackTx} (h : a.Apart b) : b.Apart a :=
  ⟨fun id hb ha => (h.1 id ha hb).symm, fun uid hb ha => h.2 uid ha hb⟩

theorem PackTx.opening_apart (db : PackTables) (request : PackRequest) (b : PackTx) :
    (PackTx.opening db request).Apart b := by
  constructor
  · intro id hid
    cases hid
  · intro uid huid
    cases huid

theorem PackTables.current_opening (db : PackTables) (request : PackRequest) :
    db.Current (PackTx.opening db request) := by
  refine ⟨?_, rfl, rfl, fun _ => rfl, fun hex => Or.inl ⟨?_, rfl⟩⟩
  · intro uid huid
    cases huid
  · cases request with
    | reorder uid requested => cases hex
    | _ => rfl

/-- What holds between any two statements: the tables are well formed, every transaction in
flight has read what is still so, and no two are at one row. -/
structure PackSystem.Isolated (s : PackSystem) : Prop where
  wellFormed : s.db.WellFormed
  typed : ∀ k tx, s.txs.row k = some tx → tx.request.Typed
  current : ∀ k tx, s.txs.row k = some tx → s.db.Current tx
  apart : ∀ j k a b, j ≠ k → s.txs.row j = some a → s.txs.row k = some b → a.Apart b

namespace PackSystem

variable {s : PackSystem} {k : Nat} {tx : PackTx}

theorem others_eq_false {p : PackTx → Bool} (h : s.others k p = false) {j : Nat} {b : PackTx}
    (hne : j ≠ k) (hrow : s.txs.row j = some b) : p b = false := by
  unfold others at h
  rw [decide_eq_false_iff_not] at h
  by_contra hp
  exact h ⟨j, Table.mem_select.mpr ⟨b, hrow, by simp [hne, hp]⟩⟩

theorem packBlocked_eq_false {id : Int} (h : s.packBlocked k tx id = false) {j : Nat}
    {b : PackTx} (hne : j ≠ k) (hrow : s.txs.row j = some b) (hid : id ∈ b.held) :
    tx.request.exclusive = false ∧ b.request.exclusive = false := by
  have hfree := others_eq_false h hne hrow
  simpa [hid] using hfree

theorem rowBlocked_eq_false {uid : Int} (h : s.rowBlocked k uid = false) {j : Nat} {b : PackTx}
    (hne : j ≠ k) (hrow : s.txs.row j = some b) : uid ∉ b.rows := by
  have hfree := others_eq_false h hne hrow
  simpa using hfree

/-- A statement that goes on keeps the transaction's reads current and its rows its own. -/
def Continues (s : PackSystem) (k : Nat) (tx tx' : PackTx) : Prop :=
  tx'.request = tx.request ∧ s.db.Current tx' ∧
    ∀ j b, j ≠ k → s.txs.row j = some b → tx'.Apart b

theorem lockNext_continues {id : Int} {todo : List Int} {tx' : PackTx} (h : s.Isolated)
    (hrow : s.txs.row k = some tx) (hstage : tx.stage = .packs (id :: todo))
    (ho : s.lockNext k tx id todo = .next tx') : s.Continues k tx tx' := by
  have hcurrent := h.current k tx hrow
  simp only [PackTables.Current, hstage] at hcurrent
  obtain ⟨hins, hi, hord, hnone, hex⟩ := hcurrent
  unfold lockNext at ho
  split at ho
  · cases ho
  next hfree =>
  rw [Bool.not_eq_true] at hfree
  split at ho
  · next hexcl =>
    have htarget : id = tx.request.target ∧ todo = [] := by
      rcases hex hexcl with ⟨heq, -⟩ | ⟨heq, -⟩
      · exact List.cons.inj heq
      · cases heq
    split at ho
    · next pack hopen =>
      cases ho
      refine ⟨rfl, ⟨hins, hi, hord, ?_, ?_⟩, ?_⟩
      · intro hshared
        exact absurd (hexcl.symm.trans hshared) Bool.noConfusion
      · intro _
        exact Or.inr ⟨htarget.2, by rw [htarget.1], hopen⟩
      · intro j b hne hb
        refine ⟨?_, (h.apart k j tx b hne.symm hrow hb).2⟩
        intro p hp hheld
        rw [List.mem_singleton.mp hp] at hheld
        exact packBlocked_eq_false hfree hne hb hheld
    · cases ho
  · next hexcl =>
    have hshared : tx.request.exclusive = false := Bool.not_eq_true _ ▸ hexcl
    split at ho
    · cases ho
      refine ⟨rfl, ⟨hins, hi, hord, hnone, fun he => absurd he hexcl⟩, ?_⟩
      intro j b hne hb
      obtain ⟨hpacks, hrows⟩ := h.apart k j tx b hne.symm hrow hb
      refine ⟨?_, hrows⟩
      intro p hp hheld
      rcases List.mem_append.mp hp with hold | hnew
      · exact hpacks p hold hheld
      · rw [List.mem_singleton.mp hnew] at hheld
        exact packBlocked_eq_false hfree hne hb hheld
    · cases ho
      exact ⟨rfl, ⟨hins, hi, hord, hnone, fun he => absurd he hexcl⟩,
        fun j b hne hb => h.apart k j tx b hne.symm hrow hb⟩

theorem openPack_of_current (hcurrent : s.db.Current tx) (hstage : tx.stage = .packs []) :
    (tx.request.exclusive = true → tx.held = [tx.request.target]) ∧
      s.db.openPack tx.request = .ok tx.pack := by
  simp only [PackTables.Current, hstage] at hcurrent
  obtain ⟨-, -, -, hnone, hex⟩ := hcurrent
  cases hexcl : tx.request.exclusive with
  | true =>
    rcases hex hexcl with ⟨heq, -⟩ | ⟨-, hheld, hopen⟩
    · cases heq
    · exact ⟨fun _ => hheld, hopen⟩
  | false =>
    refine ⟨fun hfalse => Bool.noConfusion hfalse, ?_⟩
    rw [hnone hexcl]
    cases hreq : tx.request with
    | reorder uid requested => rfl
    | _ => rw [hreq] at hexcl; cases hexcl

theorem planNext_continues {tx' : PackTx} (h : s.Isolated) (hrow : s.txs.row k = some tx)
    (hstage : tx.stage = .packs []) (ho : s.planNext tx = .next tx') : s.Continues k tx tx' := by
  have hcurrent := h.current k tx hrow
  obtain ⟨hheld, hopen⟩ := openPack_of_current hcurrent hstage
  simp only [PackTables.Current, hstage] at hcurrent
  obtain ⟨hins, hi, hord, -, -⟩ := hcurrent
  unfold planNext at ho
  split at ho
  · next uids hplan =>
    cases ho
    refine ⟨rfl, ⟨hins, ⟨hheld, hopen, hplan⟩, hord, [], rfl, ?_, ?_⟩,
      fun j b hne hb => h.apart k j tx b hne.symm hrow hb⟩
    · intro uid huid
      dsimp only at huid
      rw [hi] at huid
      cases huid
    · intro uid huid
      cases huid
  · cases ho

theorem insertNext_continues {uid : Int} {todo : List Int} {tx' : PackTx} (h : s.Isolated)
    (hrow : s.txs.row k = some tx) (hstage : tx.stage = .inserting (uid :: todo))
    (ho : s.insertNext k tx uid todo = .next tx') : s.Continues k tx tx' := by
  have hcurrent := h.current k tx hrow
  simp only [PackTables.Current, hstage] at hcurrent
  obtain ⟨hins, hplan, hord, done, huids, hdone, hpresent⟩ := hcurrent
  have hsplit : tx.uids = (done ++ [uid]) ++ todo := by rw [huids, List.append_assoc]; rfl
  unfold insertNext at ho
  split at ho
  · next hsome =>
    cases ho
    refine ⟨rfl, ⟨hins, ⟨hplan.held, hplan.pack, hplan.plan⟩, hord, done ++ [uid], hsplit, ?_, ?_⟩,
      fun j b hne hb => h.apart k j tx b hne.symm hrow hb⟩
    · intro u hu
      exact List.mem_append_left _ (hdone u hu)
    · intro u hu
      rcases List.mem_append.mp hu with hold | hnew
      · exact hpresent u hold
      · exact Or.inl (List.mem_singleton.mp hnew ▸ hsome)
  next hsome =>
  rw [Option.not_isSome_iff_eq_none] at hsome
  split at ho
  · cases ho
  next hfree =>
  rw [Bool.not_eq_true] at hfree
  cases ho
  refine ⟨rfl, ⟨?_, ⟨hplan.held, hplan.pack, hplan.plan⟩, hord, done ++ [uid], hsplit, ?_, ?_⟩, ?_⟩
  · intro u hu
    rcases List.mem_append.mp hu with hold | hnew
    · exact hins u hold
    · exact List.mem_singleton.mp hnew ▸ hsome
  · intro u hu
    rcases List.mem_append.mp hu with hold | hnew
    · exact List.mem_append_left _ (hdone u hold)
    · exact List.mem_append_right _ hnew
  · intro u hu
    rcases List.mem_append.mp hu with hold | hnew
    · exact (hpresent u hold).imp_right (List.mem_append_left _)
    · exact Or.inr (List.mem_append_right _ hnew)
  · intro j b hne hb
    obtain ⟨hpacks, hrows⟩ := h.apart k j tx b hne.symm hrow hb
    refine ⟨hpacks, ?_⟩
    intro u hu
    simp only [PackTx.rows, List.append_assoc, List.mem_append, List.mem_singleton] at hu
    rcases hu with hold | rfl | hread
    · exact hrows u (List.mem_append_left _ hold)
    · exact rowBlocked_eq_false hfree hne hb
    · exact hrows u (List.mem_append_right _ hread)

theorem readNext_continues {uid : Int} {todo : List Int} {tx' : PackTx} (h : s.Isolated)
    (hrow : s.txs.row k = some tx) (hstage : tx.stage = .locking (uid :: todo))
    (ho : s.readNext k tx uid todo = .next tx') : s.Continues k tx tx' := by
  have hcurrent := h.current k tx hrow
  simp only [PackTables.Current, hstage] at hcurrent
  obtain ⟨hins, hplan, hi, hpresent, done, huids, hord⟩ := hcurrent
  unfold readNext at ho
  split at ho
  · cases ho
  next hfree =>
  rw [Bool.not_eq_true] at hfree
  cases ho
  refine ⟨rfl, ⟨hins, ⟨hplan.held, hplan.pack, hplan.plan⟩, hi, hpresent, done ++ [uid],
    ?_, ?_⟩, ?_⟩
  · dsimp only
    rw [huids, List.append_assoc]
    rfl
  · dsimp only
    rw [hord, List.map_append]
    rfl
  · intro j b hne hb
    obtain ⟨hpacks, hrows⟩ := h.apart k j tx b hne.symm hrow hb
    refine ⟨hpacks, ?_⟩
    intro u hu
    simp only [PackTx.rows, List.map_append, List.map_cons, List.map_nil, List.mem_append,
      List.mem_singleton] at hu
    rcases hu with hold | hread | rfl
    · exact hrows u (List.mem_append_left _ hold)
    · exact hrows u (List.mem_append_right _ hread)
    · exact rowBlocked_eq_false hfree hne hb

theorem outcome_continues {tx' : PackTx} (h : s.Isolated) (hrow : s.txs.row k = some tx)
    (ho : s.outcome k tx = .next tx') : s.Continues k tx tx' := by
  have hcurrent := h.current k tx hrow
  have hapart : ∀ j b, j ≠ k → s.txs.row j = some b → tx.Apart b :=
    fun j b hne hb => h.apart k j tx b hne.symm hrow hb
  unfold outcome at ho
  cases hstage : tx.stage with
  | packs todo =>
    rw [hstage] at ho
    cases todo with
    | nil => exact planNext_continues h hrow hstage ho
    | cons id todo => exact lockNext_continues h hrow hstage ho
  | inserting todo =>
    rw [hstage] at ho
    cases todo with
    | nil =>
      cases ho
      simp only [PackTables.Current, hstage, List.append_nil] at hcurrent
      obtain ⟨hins, hplan, hord, done, huids, hdone, hpresent⟩ := hcurrent
      subst huids
      exact ⟨rfl, ⟨hins, ⟨hplan.held, hplan.pack, hplan.plan⟩, hdone, hpresent, [], rfl, hord⟩,
        hapart⟩
    | cons uid todo => exact insertNext_continues h hrow hstage ho
  | locking todo =>
    rw [hstage] at ho
    cases todo with
    | nil =>
      cases ho
      simp only [PackTables.Current, hstage, List.append_nil] at hcurrent
      obtain ⟨hins, hplan, -, hpresent, done, huids, hord⟩ := hcurrent
      subst huids
      exact ⟨rfl, ⟨hins, ⟨hplan.held, hplan.pack, hplan.plan⟩, hpresent, hord⟩, hapart⟩
    | cons uid todo => exact readNext_continues h hrow hstage ho
  | reading =>
    rw [hstage] at ho
    cases ho
    simp only [PackTables.Current, hstage] at hcurrent
    obtain ⟨hins, hplan, hi, hord⟩ := hcurrent
    exact ⟨rfl, ⟨hins, ⟨hplan.held, hplan.pack, hplan.plan⟩, hi, hord, rfl⟩, hapart⟩
  | ready => rw [hstage] at ho; cases ho

/-- A transaction ends as it would alone on the tables it ends at. -/
def EndsAlone (s : PackSystem) (tx : PackTx) (db : PackTables)
    (result : Except PackError PackChange) : Prop :=
  (∃ e, db = s.db ∧ result = .error e ∧ s.db.serial tx.request = .error e) ∨
    ∃ change, result = .ok change ∧ s.db.serial tx.request = .ok (db, change) ∧
      s.db.Frame db (fun id => tx.request.exclusive = true ∧ id = tx.request.target)
        (· ∈ tx.uids) ∧ tx.orders = tx.uids.map s.db.read ∧ s.db.Planned tx

theorem outcome_finish {db : PackTables} {result : Except PackError PackChange} (h : s.Isolated)
    (hrow : s.txs.row k = some tx) (ho : s.outcome k tx = .finish db result) :
    s.EndsAlone tx db result := by
  have hcurrent := h.current k tx hrow
  unfold outcome at ho
  cases hstage : tx.stage with
  | packs todo =>
    rw [hstage] at ho
    cases todo with
    | nil =>
      obtain ⟨-, hopen⟩ := openPack_of_current hcurrent hstage
      simp only [planNext] at ho
      split at ho
      · cases ho
      · next e hplan =>
        cases ho
        exact Or.inl ⟨e, rfl, rfl, PackTables.serial_of_plan_error hopen hplan⟩
    | cons id todo =>
      simp only [lockNext] at ho
      split at ho
      · cases ho
      · split at ho
        · split at ho
          · cases ho
          · next e hopen =>
            cases ho
            exact Or.inl ⟨e, rfl, rfl, PackTables.serial_of_open_error hopen⟩
        · split at ho <;> cases ho
  | inserting todo =>
    rw [hstage] at ho
    cases todo with
    | nil => cases ho
    | cons uid todo =>
      simp only [insertNext] at ho
      split at ho
      · cases ho
      · split at ho <;> cases ho
  | locking todo =>
    rw [hstage] at ho
    cases todo with
    | nil => cases ho
    | cons uid todo =>
      simp only [readNext] at ho
      split at ho <;> cases ho
  | reading => rw [hstage] at ho; cases ho
  | ready =>
    rw [hstage] at ho
    cases ho
    simp only [PackTables.Current, hstage] at hcurrent
    obtain ⟨-, hplan, -, hord, hacc⟩ := hcurrent
    exact Or.inr ⟨_, rfl, PackTables.serial_of_current h.wellFormed hplan hord hacc,
      PackTables.frame_commit hplan hord, hord, hplan⟩

theorem Isolated.erase (h : s.Isolated) (k : Nat) :
    Isolated { s with txs := s.txs.erase k } := by
  refine ⟨h.wellFormed, ?_, ?_, ?_⟩
  · intro j b hb
    exact h.typed j b (Table.row_of_erase hb).2
  · intro j b hb
    exact h.current j b (Table.row_of_erase hb).2
  · intro i j a b hne ha hb
    exact h.apart i j a b hne (Table.row_of_erase ha).2 (Table.row_of_erase hb).2

theorem Isolated.upsert (h : s.Isolated) {tx' : PackTx} (htyped : tx'.request.Typed)
    (hcurrent : s.db.Current tx') (hapart : ∀ j b, j ≠ k → s.txs.row j = some b → tx'.Apart b) :
    Isolated { s with txs := s.txs.upsert k tx' } := by
  refine ⟨h.wellFormed, ?_, ?_, ?_⟩
  · intro j b hb
    rw [Table.upsert_row] at hb
    split at hb
    · exact Option.some.inj hb ▸ htyped
    · exact h.typed j b hb
  · intro j b hb
    rw [Table.upsert_row] at hb
    split at hb
    · exact Option.some.inj hb ▸ hcurrent
    · exact h.current j b hb
  · intro i j a b hne ha hb
    rw [Table.upsert_row] at ha hb
    split at ha
    · next hi =>
      rw [if_neg fun hj => hne (hi.trans hj.symm)] at hb
      exact Option.some.inj ha ▸ hapart j b (fun hj => hne (hi.trans hj.symm)) hb
    · next hi =>
      split at hb
      · exact Option.some.inj hb ▸ (hapart i a hi ha).symm
      · exact h.apart i j a b hne ha hb

theorem Isolated.finish {db : PackTables} {result : Except PackError PackChange}
    (h : s.Isolated) (hrow : s.txs.row k = some tx) (hend : s.EndsAlone tx db result) :
    Isolated ⟨db, s.txs.erase k, s.log ++ [(tx.request, result)]⟩ := by
  have hrest := h.erase k
  rcases hend with ⟨e, rfl, -, -⟩ | ⟨change, -, hserial, hframe, hord, hplan⟩
  · exact ⟨hrest.wellFormed, hrest.typed, hrest.current, hrest.apart⟩
  have hwf : db.WellFormed := h.wellFormed.serial (h.typed k tx hrow) hserial
  refine ⟨hwf, hrest.typed, ?_, hrest.apart⟩
  intro j b hb
  obtain ⟨hne, hb⟩ := Table.row_of_erase hb
  obtain ⟨hpacks, hrows⟩ := h.apart j k b tx hne hb hrow
  refine hframe.current h.wellFormed hwf ?_ ?_ (h.current j b hb)
  · rintro id hid ⟨hex, rfl⟩
    have hshared := hpacks _ hid (by rw [hplan.held hex]; exact List.mem_singleton_self _)
    exact absurd (hex.symm.trans hshared.2) Bool.noConfusion
  · intro uid huid hmem
    refine hrows uid huid (List.mem_append_right _ ?_)
    rw [hord, PackTables.map_uid_read]
    exact hmem

theorem replay_of_endsAlone {db : PackTables} {result : Except PackError PackChange}
    (hend : s.EndsAlone tx db result) : s.db.replay (tx.request, result) = some db := by
  unfold PackTables.replay
  rcases hend with ⟨e, rfl, rfl, hserial⟩ | ⟨change, rfl, hserial, -⟩
  · simp [hserial]
  · simp [hserial]

/-- The tables are those of the finished transactions run one after another. -/
def Serialized (db : PackTables) (s : PackSystem) : Prop :=
  s.Isolated ∧ run PackTables.replay db s.log = some s.db

theorem serialized_step {db : PackTables} (s : PackSystem) (e : PackEvent) (t : PackSystem)
    (h : Serialized db s) (htyped : e.Typed) (hstep : s.step e = some t) : Serialized db t := by
  obtain ⟨hi, hlog⟩ := h
  cases e with
  | start k request =>
    simp only [step] at hstep
    split at hstep
    · cases hstep
    · cases hstep
      exact ⟨hi.upsert htyped (s.db.current_opening request)
        fun j b _ _ => PackTx.opening_apart s.db request b, hlog⟩
  | advance k =>
    obtain ⟨tx, hrow, hafter⟩ := Option.bind_eq_some_iff.mp hstep
    cases ho : s.outcome k tx with
    | blocked => rw [ho] at hafter; cases hafter
    | next tx' =>
      rw [ho] at hafter
      cases hafter
      obtain ⟨hreq, hcurrent, hapart⟩ := outcome_continues hi hrow ho
      exact ⟨hi.upsert (hreq ▸ hi.typed k tx hrow) hcurrent hapart, hlog⟩
    | finish db' result =>
      rw [ho] at hafter
      cases hafter
      have hend := outcome_finish hi hrow ho
      refine ⟨hi.finish hrow hend, run_append.mpr ⟨s.db, hlog, ?_⟩⟩
      exact run_single.mpr (replay_of_endsAlone hend)
  | rollback k =>
    simp only [step] at hstep
    split at hstep
    · cases hstep
      exact ⟨hi.erase k, hlog⟩
    · cases hstep

theorem serialized_initial {db : PackTables} (h : db.WellFormed) :
    Serialized db (initial db) := by
  refine ⟨⟨h, ?_, ?_, ?_⟩, rfl⟩
  · intro k tx hrow
    cases hrow
  · intro k tx hrow
    cases hrow
  · intro j k a b _ ha
    cases ha

theorem run_serialized {db : PackTables} {es : List PackEvent} (h : db.WellFormed)
    (htyped : ∀ e ∈ es, e.Typed) (hrun : run step (initial db) es = some s) :
    Serialized db s := by
  exact run_invariant_along serialized_step (serialized_initial h)
    (along_of_forall (initial db) htyped) hrun

end PackSystem

/-- A subscription that waits for the pack's creation to commit. -/
def sharedPack : List PackEvent :=
  [.start 0 (.create ⟨7, 1, "cats", none, 0, 0, .Public⟩ 0), .start 1 (.subscribe 2 7 5)] ++
    List.replicate 8 (.advance 0) ++ List.replicate 8 (.advance 1)

theorem sharedPack_typed : ∀ e ∈ sharedPack, e.Typed := by
  intro e he
  simp only [sharedPack, List.mem_append, List.mem_cons, List.mem_replicate, List.not_mem_nil,
    or_false] at he
  rcases he with ((rfl | rfl) | ⟨-, rfl⟩) | ⟨-, rfl⟩
  · exact rfl
  all_goals trivial

theorem sharedPack_runs : ∃ s, run PackSystem.step (PackSystem.initial PackTables.empty)
    sharedPack = some s ∧ s.log.length = 2 := by
  have hlog : ((run PackSystem.step (PackSystem.initial PackTables.empty) sharedPack).map
      fun s => s.log.length) = some 2 := by decide +kernel
  obtain ⟨s, hrun, hlen⟩ := Option.map_eq_some_iff.mp hlog
  exact ⟨s, hrun, hlen⟩

/-- However the transactions on sticker packs interleave, wait and roll back, the committed
tables and every result are those of the finished ones run one after another. -/
theorem sticker_transactions_serializable {db : PackTables} {s : PackSystem} {es : List PackEvent}
    (h : db.WellFormed) (htyped : ∀ e ∈ es, e.Typed)
    (hrun : run PackSystem.step (PackSystem.initial db) es = some s) :
    run PackTables.replay db s.log = some s.db :=
  (PackSystem.run_serialized h htyped hrun).2

theorem sharedPack_serializable : ∃ s : PackSystem, s.log.length = 2 ∧
    run PackTables.replay PackTables.empty s.log = some s.db := by
  obtain ⟨s, hrun, hlen⟩ := sharedPack_runs
  exact ⟨s, hlen, sticker_transactions_serializable PackTables.wellFormed_empty
    sharedPack_typed hrun⟩

/-- In every state of every interleaving a user's stored order lists exactly the packs the user
can use, each once, every owner is subscribed, and a private pack has no other subscriber. -/
theorem sticker_orders_exact {db : PackTables} {s : PackSystem} {es : List PackEvent}
    (h : db.WellFormed) (htyped : ∀ e ∈ es, e.Typed)
    (hrun : run PackSystem.step (PackSystem.initial db) es = some s) :
    (∀ uid, (packIds (s.db.lockUser uid)).Nodup ∧ ∀ packId, packId ∈ packIds (s.db.lockUser uid) ↔
      ∃ id, packId = toString id ∧ s.db.accessible uid id = true) ∧
    ∀ id pack, s.db.packs.row id = some pack →
      (s.db.subscriptions.row (pack.ownerUid, id)).isSome = true ∧
      ∀ uid, pack.visibility = .Private → (s.db.subscriptions.row (uid, id)).isSome = true →
        uid = pack.ownerUid := by
  have hwf := (PackSystem.run_serialized h htyped hrun).1.wellFormed
  refine ⟨fun uid => ⟨hwf.nodup uid, hwf.orders uid⟩, fun id pack hrow => ?_⟩
  refine ⟨hwf.owner id pack hrow, ?_⟩
  intro uid hvis hsub
  obtain ⟨found, hfound, hprivate⟩ := hwf.subscribed uid id hsub
  obtain rfl := Option.some.inj (hrow.symm.trans hfound)
  exact hprivate hvis

theorem sharedPack_orders : ∃ s : PackSystem, s.log.length = 2 ∧
    (∀ uid, (packIds (s.db.lockUser uid)).Nodup ∧ ∀ packId, packId ∈ packIds (s.db.lockUser uid) ↔
      ∃ id, packId = toString id ∧ s.db.accessible uid id = true) ∧
    ∀ id pack, s.db.packs.row id = some pack →
      (s.db.subscriptions.row (pack.ownerUid, id)).isSome = true ∧
      ∀ uid, pack.visibility = .Private → (s.db.subscriptions.row (uid, id)).isSome = true →
        uid = pack.ownerUid := by
  obtain ⟨s, hrun, hlen⟩ := sharedPack_runs
  exact ⟨s, hlen, sticker_orders_exact PackTables.wellFormed_empty sharedPack_typed hrun⟩

end Chahua.Stickers

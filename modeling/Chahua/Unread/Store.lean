import Chahua.Unread.Revisions
import Chahua.Framework.Run

namespace Chahua.Unread

open Framework

/-- One committed state of `messages` and `chat_unread_revisions`. -/
structure Snapshot where
  messages : Table Int Message
  revisions : Table Int Nat

/-- A writer transaction in flight: the row versions it wrote, the revisions its triggers
set. It holds the row lock of every key in both tables until it ends. -/
structure Transaction where
  writes : Table Int (Option Message)
  revisions : Table Int Nat

def Transaction.start : Transaction := ⟨Table.empty, Table.empty⟩

/-- The committed states so far, the values `nextval` has returned, the open transactions. -/
structure Store where
  history : Nat → Snapshot
  now : Nat
  drawn : Finset Nat
  transactions : Table Nat Transaction

inductive StoreEvent where
  | start (tx : Nat)
  | execute (tx : Nat) (statement : Statement) (nextval : Int → Nat)
  | commit (tx : Nat)
  | rollback (tx : Nat)

namespace Store

def committed (s : Store) : Snapshot := s.history s.now

/-- The row a statement of the transaction sees: its own version over the committed one. -/
def view (s : Store) (t : Transaction) (id : Int) : Option Message :=
  (t.writes.row id).getD (s.committed.messages.row id)

/-- No other open transaction holds a lock on the rows and revisions about to be written. -/
def unlocked (s : Store) (tx : Nat) (ids chats : Finset Int) : Prop :=
  ∀ other ∈ s.transactions.keys, other ≠ tx → ∀ t ∈ s.transactions.row other,
    Disjoint t.writes.keys ids ∧ Disjoint t.revisions.keys chats

instance (s : Store) (tx : Nat) (ids chats : Finset Int) : Decidable (s.unlocked tx ids chats) :=
  inferInstanceAs (Decidable (∀ other ∈ s.transactions.keys, other ≠ tx →
    ∀ t ∈ s.transactions.row other, Disjoint t.writes.keys ids ∧ Disjoint t.revisions.keys chats))

/-- The sequence returns values it never returned before, one for each chat. -/
def fresh (s : Store) (chats : Finset Int) (nextval : Int → Nat) : Prop :=
  ∀ c ∈ chats, nextval c ∉ s.drawn ∧ ∀ d ∈ chats, nextval c = nextval d → c = d

instance (s : Store) (chats : Finset Int) (nextval : Int → Nat) :
    Decidable (s.fresh chats nextval) :=
  inferInstanceAs (Decidable (∀ c ∈ chats, nextval c ∉ s.drawn ∧
    ∀ d ∈ chats, nextval c = nextval d → c = d))

/-- A statement and the `AFTER … FOR EACH STATEMENT` trigger it fires. -/
def execute (s : Store) (tx : Nat) (t : Transaction) (statement : Statement)
    (nextval : Int → Nat) : Store :=
  let chats := affectedChatIds (s.view t) statement
  { s with
    drawn := s.drawn ∪ chats.image nextval
    transactions := s.transactions.upsert tx
      { writes := t.writes.union statement.writes
        revisions := t.revisions.union (Table.tabulate chats nextval) } }

def applied (s : Store) (t : Transaction) : Snapshot where
  messages := s.committed.messages.overlay t.writes
  revisions := s.committed.revisions.union t.revisions

def commit (s : Store) (tx : Nat) (t : Transaction) : Store :=
  { s with
    history := fun i => if i = s.now + 1 then s.applied t else s.history i
    now := s.now + 1
    transactions := s.transactions.erase tx }

/-- One step of the writers. A rollback drops the transaction but returns no sequence value. -/
def step (s : Store) : StoreEvent → Option Store
  | .start tx =>
      if tx ∈ s.transactions.keys then none
      else some { s with transactions := s.transactions.upsert tx Transaction.start }
  | .execute tx statement nextval =>
      (s.transactions.row tx).bind fun t =>
        if statement.valid (s.view t) = true ∧
            s.unlocked tx statement.writes.keys (affectedChatIds (s.view t) statement) ∧
            s.fresh (affectedChatIds (s.view t) statement) nextval then
          some (s.execute tx t statement nextval)
        else none
  | .commit tx => (s.transactions.row tx).map (s.commit tx)
  | .rollback tx =>
      (s.transactions.row tx).map fun _ => { s with transactions := s.transactions.erase tx }

/-- A store before any writer, at some committed state; its revisions were drawn before. -/
def init (snapshot : Snapshot) : Store where
  history := fun _ => snapshot
  now := 0
  drawn := snapshot.revisions.image (fun _ _ => true) fun _ r => r
  transactions := Table.empty

/-- What every reachable store satisfies. `separated` is the reason the cache is sound: one
revision of a chat never stands for two different contents of its counts. -/
structure Inv (s : Store) : Prop where
  unbumped : ∀ tx t, s.transactions.row tx = some t → ∀ c, t.revisions.row c = none →
    ∀ id, counted c (s.view t id) = counted c (s.committed.messages.row id)
  rowLocks : ∀ tx t tx' t', s.transactions.row tx = some t → s.transactions.row tx' = some t' →
    tx ≠ tx' → ∀ id, t.writes.row id = none ∨ t'.writes.row id = none
  revisionLocks : ∀ tx t tx' t', s.transactions.row tx = some t →
    s.transactions.row tx' = some t' → tx ≠ tx' →
    ∀ c, t.revisions.row c = none ∨ t'.revisions.row c = none
  pendingDrawn : ∀ tx t, s.transactions.row tx = some t → ∀ c r, t.revisions.row c = some r →
    r ∈ s.drawn
  pendingNew : ∀ tx t, s.transactions.row tx = some t → ∀ c r, t.revisions.row c = some r →
    ∀ i ≤ s.now, (s.history i).revisions.row c ≠ some r
  committedDrawn : ∀ i ≤ s.now, ∀ c r, (s.history i).revisions.row c = some r → r ∈ s.drawn
  separated : ∀ i ≤ s.now, ∀ j ≤ s.now, ∀ c r, (s.history i).revisions.row c = some r →
    (s.history j).revisions.row c = some r →
    ∀ id, counted c ((s.history i).messages.row id) = counted c ((s.history j).messages.row id)

theorem init_inv (snapshot : Snapshot) : (init snapshot).Inv where
  unbumped := by simp [init]
  rowLocks := by simp [init]
  revisionLocks := by simp [init]
  pendingDrawn := by simp [init]
  pendingNew := by simp [init]
  committedDrawn := by
    intro i _ c r hr
    exact Table.mem_image.mpr ⟨c, r, hr, rfl, rfl⟩
  separated := by
    intro i _ j _ c r _ _ id
    rfl

section Steps

variable {s : Store} {tx : Nat} {t : Transaction}

theorem start_inv (hi : s.Inv) :
    ({ s with transactions := s.transactions.upsert tx Transaction.start } : Store).Inv := by
  have hrow : ∀ {tx' t'}, (s.transactions.upsert tx Transaction.start).row tx' = some t' →
      t' = Transaction.start ∨ s.transactions.row tx' = some t' := by
    intro tx' t' h
    rw [Table.upsert_row] at h
    split at h
    · exact Or.inl (Option.some.inj h).symm
    · exact Or.inr h
  constructor
  · intro tx' t' h c hc id
    rcases hrow h with rfl | h'
    · rfl
    · exact hi.unbumped tx' t' h' c hc id
  · intro a ta b tb ha hb hne id
    rcases hrow ha with rfl | ha'
    · exact Or.inl rfl
    rcases hrow hb with rfl | hb'
    · exact Or.inr rfl
    exact hi.rowLocks a ta b tb ha' hb' hne id
  · intro a ta b tb ha hb hne c
    rcases hrow ha with rfl | ha'
    · exact Or.inl rfl
    rcases hrow hb with rfl | hb'
    · exact Or.inr rfl
    exact hi.revisionLocks a ta b tb ha' hb' hne c
  · intro tx' t' h c r hr
    rcases hrow h with rfl | h'
    · cases hr
    · exact hi.pendingDrawn tx' t' h' c r hr
  · intro tx' t' h c r hr
    rcases hrow h with rfl | h'
    · cases hr
    · exact hi.pendingNew tx' t' h' c r hr
  · exact hi.committedDrawn
  · exact hi.separated

theorem rollback_inv (hi : s.Inv) :
    ({ s with transactions := s.transactions.erase tx } : Store).Inv := by
  have hrow : ∀ {tx' t'}, (s.transactions.erase tx).row tx' = some t' →
      s.transactions.row tx' = some t' := by
    intro tx' t' h
    rw [Table.erase_row] at h
    split at h
    · cases h
    · exact h
  exact
    { unbumped := fun a ta h => hi.unbumped a ta (hrow h)
      rowLocks := fun a ta b tb ha hb => hi.rowLocks a ta b tb (hrow ha) (hrow hb)
      revisionLocks := fun a ta b tb ha hb => hi.revisionLocks a ta b tb (hrow ha) (hrow hb)
      pendingDrawn := fun a ta h => hi.pendingDrawn a ta (hrow h)
      pendingNew := fun a ta h => hi.pendingNew a ta (hrow h)
      committedDrawn := hi.committedDrawn
      separated := hi.separated }

/-- What the transaction sees after the statement: its new versions over its old view. -/
theorem view_after (statement : Statement) (revisions : Table Int Nat) (id : Int) :
    s.view ⟨t.writes.union statement.writes, revisions⟩ id =
      (statement.writes.row id).getD (s.view t id) := by
  simp only [view, Table.union_row]
  cases statement.writes.row id <;> simp

theorem unlocked_rows {ids chats : Finset Int} (hu : s.unlocked tx ids chats) {other : Nat}
    {u : Transaction} (ho : s.transactions.row other = some u) (hne : other ≠ tx) :
    (∀ id ∈ ids, u.writes.row id = none) ∧ ∀ c ∈ chats, u.revisions.row c = none := by
  have hmem : other ∈ s.transactions.keys := by simp [Table.mem_keys, ho]
  have hd := hu other hmem hne u (by simp [ho])
  constructor
  · intro id hid
    have hnot := Finset.disjoint_right.mp hd.1 hid
    simpa [Table.mem_keys] using hnot
  · intro c hc
    have hnot := Finset.disjoint_right.mp hd.2 hc
    simpa [Table.mem_keys] using hnot

/-- The statement's trigger sees every change of what the counts read, so a chat the
transaction has not bumped still reads as committed. -/
theorem execute_inv {statement : Statement} {nextval : Int → Nat} (hi : s.Inv)
    (ht : s.transactions.row tx = some t) (hv : statement.valid (s.view t) = true)
    (hu : s.unlocked tx statement.writes.keys (affectedChatIds (s.view t) statement))
    (hf : s.fresh (affectedChatIds (s.view t) statement) nextval) :
    (s.execute tx t statement nextval).Inv := by
  have hrow : ∀ {tx' t'}, (s.execute tx t statement nextval).transactions.row tx' = some t' →
      (tx' = tx ∧ t' = ⟨t.writes.union statement.writes,
        t.revisions.union (Table.tabulate (affectedChatIds (s.view t) statement) nextval)⟩) ∨
      (tx' ≠ tx ∧ s.transactions.row tx' = some t') := by
    intro tx' t' h
    simp only [execute, Table.upsert_row] at h
    split at h
    · exact Or.inl ⟨by assumption, (Option.some.inj h).symm⟩
    · exact Or.inr ⟨by assumption, h⟩
  have hwrites : ∀ {other u}, s.transactions.row other = some u → other ≠ tx → ∀ id,
      u.writes.row id = none ∨ (t.writes.union statement.writes).row id = none := by
    intro other u ho hne id
    rcases hi.rowLocks other u tx t ho ht hne id with h | h
    · exact Or.inl h
    · by_cases hid : id ∈ statement.writes.keys
      · exact Or.inl ((unlocked_rows hu ho hne).1 id hid)
      · right
        rw [Table.mem_keys] at hid
        simp only [Table.union_row, h, Option.or_none]
        simpa using hid
  have hrevs : ∀ {other u}, s.transactions.row other = some u → other ≠ tx → ∀ c,
      u.revisions.row c = none ∨ (t.revisions.union
        (Table.tabulate (affectedChatIds (s.view t) statement) nextval)).row c = none := by
    intro other u ho hne c
    rcases hi.revisionLocks other u tx t ho ht hne c with h | h
    · exact Or.inl h
    · by_cases hc : c ∈ affectedChatIds (s.view t) statement
      · exact Or.inl ((unlocked_rows hu ho hne).2 c hc)
      · right
        simp [Table.union_row, Table.tabulate_row, h, hc]
  have hbump : ∀ {c r}, (t.revisions.union (Table.tabulate (affectedChatIds (s.view t) statement)
      nextval)).row c = some r → (c ∈ affectedChatIds (s.view t) statement ∧ nextval c = r) ∨
        t.revisions.row c = some r := by
    intro c r hr
    by_cases hc : c ∈ affectedChatIds (s.view t) statement
    · simp only [Table.union_row, Table.tabulate_row, hc, if_true, Option.some_or,
        Option.some.injEq] at hr
      exact Or.inl ⟨hc, hr⟩
    · simp only [Table.union_row, Table.tabulate_row, hc, if_false, Option.none_or] at hr
      exact Or.inr hr
  constructor
  · intro tx' t' h c hc id
    rcases hrow h with ⟨rfl, rfl⟩ | ⟨-, h'⟩
    · have hcs : c ∉ affectedChatIds (s.view t) statement := by
        intro hmem
        simp [Table.union_row, Table.tabulate_row, hmem] at hc
      have hct : t.revisions.row c = none := by
        simpa [Table.union_row, Table.tabulate_row, hcs] using hc
      calc counted c ((s.execute tx' t statement nextval).view _ id)
          = counted c ((statement.writes.row id).getD (s.view t id)) :=
            congrArg (counted c) (view_after statement _ id)
        _ = counted c (s.view t id) := (Statement.counted_eq hv hcs id).symm
        _ = counted c (s.committed.messages.row id) := hi.unbumped tx' t ht c hct id
    · exact hi.unbumped tx' t' h' c hc id
  · intro a ta b tb ha hb hne id
    rcases hrow ha with ⟨rfl, rfl⟩ | ⟨hna, ha'⟩ <;> rcases hrow hb with ⟨rfl, rfl⟩ | ⟨hnb, hb'⟩
    · exact absurd rfl hne
    · exact (hwrites hb' hnb id).symm
    · exact hwrites ha' hna id
    · exact hi.rowLocks a ta b tb ha' hb' hne id
  · intro a ta b tb ha hb hne c
    rcases hrow ha with ⟨rfl, rfl⟩ | ⟨hna, ha'⟩ <;> rcases hrow hb with ⟨rfl, rfl⟩ | ⟨hnb, hb'⟩
    · exact absurd rfl hne
    · exact (hrevs hb' hnb c).symm
    · exact hrevs ha' hna c
    · exact hi.revisionLocks a ta b tb ha' hb' hne c
  · intro tx' t' h c r hr
    simp only [execute, Finset.mem_union, Finset.mem_image]
    rcases hrow h with ⟨rfl, rfl⟩ | ⟨-, h'⟩
    · rcases hbump hr with ⟨hc, rfl⟩ | hr'
      · exact Or.inr ⟨c, hc, rfl⟩
      · exact Or.inl (hi.pendingDrawn tx' t ht c r hr')
    · exact Or.inl (hi.pendingDrawn tx' t' h' c r hr)
  · intro tx' t' h c r hr i hle hcom
    rcases hrow h with ⟨rfl, rfl⟩ | ⟨-, h'⟩
    · rcases hbump hr with ⟨hc, rfl⟩ | hr'
      · exact (hf c hc).1 (hi.committedDrawn i hle c _ hcom)
      · exact hi.pendingNew tx' t ht c r hr' i hle hcom
    · exact hi.pendingNew tx' t' h' c r hr i hle hcom
  · intro i hle c r hr
    exact Finset.mem_union_left _ (hi.committedDrawn i hle c r hr)
  · exact hi.separated

theorem commit_history_of_le {i : Nat} (h : i ≤ s.now) :
    (s.commit tx t).history i = s.history i := by
  have hne : i ≠ s.now + 1 := by omega
  simp [commit, hne]

theorem commit_history_now : (s.commit tx t).history (s.now + 1) = s.applied t := by
  simp [commit]

/-- A commit either keeps a chat's revision and what its counts read, or sets a revision no
committed state has had. -/
theorem applied_cases (hi : s.Inv) (ht : s.transactions.row tx = some t) (c : Int) :
    ((s.applied t).revisions.row c = s.committed.revisions.row c ∧
      ∀ id, counted c ((s.applied t).messages.row id) =
        counted c (s.committed.messages.row id)) ∨
    ∃ r, (s.applied t).revisions.row c = some r ∧ t.revisions.row c = some r := by
  cases hr : t.revisions.row c with
  | none =>
    left
    refine ⟨by simp [applied, Table.union_row, hr], ?_⟩
    exact hi.unbumped tx t ht c hr
  | some r => exact Or.inr ⟨r, by simp [applied, Table.union_row, hr], rfl⟩

theorem commit_inv (hi : s.Inv) (ht : s.transactions.row tx = some t) :
    (s.commit tx t).Inv := by
  have hrow : ∀ {tx' t'}, (s.commit tx t).transactions.row tx' = some t' →
      tx' ≠ tx ∧ s.transactions.row tx' = some t' := by
    intro tx' t' h
    simp only [commit, Table.erase_row] at h
    split at h
    · cases h
    · exact ⟨by assumption, h⟩
  have hcases : ∀ i ≤ s.now + 1, i ≤ s.now ∨ i = s.now + 1 := by omega
  have happlied : ∀ {j c r}, j ≤ s.now → (s.applied t).revisions.row c = some r →
      (s.history j).revisions.row c = some r → ∀ id,
      counted c ((s.applied t).messages.row id) = counted c ((s.history j).messages.row id) := by
    intro j c r hj hr hrj id
    rcases applied_cases hi ht c with ⟨hrev, hcnt⟩ | ⟨r', hr', htr⟩
    · rw [hcnt id]
      exact hi.separated s.now (le_refl _) j hj c r (hrev ▸ hr) hrj id
    · rw [hr] at hr'
      exact absurd ((Option.some.inj hr').symm ▸ hrj) (hi.pendingNew tx t ht c r' htr j hj)
  constructor
  · intro a ta h c hc id
    obtain ⟨hne, h'⟩ := hrow h
    have hnow : (s.commit tx t).committed = s.applied t := commit_history_now
    rcases hi.rowLocks a ta tx t h' ht hne id with hw | hw
    · simp [view, hw]
    · have hsame : (s.applied t).messages.row id = s.committed.messages.row id := by
        simp [applied, Table.overlay_row, hw]
      have hview := hi.unbumped a ta h' c hc id
      simp only [view, hnow, hsame] at hview ⊢
      exact hview
  · intro a ta b tb ha hb
    exact hi.rowLocks a ta b tb (hrow ha).2 (hrow hb).2
  · intro a ta b tb ha hb
    exact hi.revisionLocks a ta b tb (hrow ha).2 (hrow hb).2
  · intro a ta h
    exact hi.pendingDrawn a ta (hrow h).2
  · intro a ta h c r hr i hle hcom
    obtain ⟨hne, h'⟩ := hrow h
    rcases hcases i hle with hlt | rfl
    · rw [commit_history_of_le hlt] at hcom
      exact hi.pendingNew a ta h' c r hr i hlt hcom
    · rw [commit_history_now] at hcom
      have hnone := (hi.revisionLocks a ta tx t h' ht hne c).resolve_left (by simp [hr])
      rcases applied_cases hi ht c with ⟨hrev, -⟩ | ⟨r', -, htr⟩
      · exact hi.pendingNew a ta h' c r hr s.now (le_refl _) (hrev ▸ hcom)
      · rw [hnone] at htr
        cases htr
  · intro i hle c r hr
    rcases hcases i hle with hlt | rfl
    · rw [commit_history_of_le hlt] at hr
      exact hi.committedDrawn i hlt c r hr
    · rw [commit_history_now] at hr
      rcases applied_cases hi ht c with ⟨hrev, -⟩ | ⟨r', hr', htr⟩
      · exact hi.committedDrawn s.now (le_refl _) c r (hrev ▸ hr)
      · rw [hr] at hr'
        exact hi.pendingDrawn tx t ht c r ((Option.some.inj hr').symm ▸ htr)
  · intro i hli j hlj c r hri hrj id
    rcases hcases i hli with hi' | rfl <;> rcases hcases j hlj with hj' | rfl
    · rw [commit_history_of_le hi'] at hri ⊢
      rw [commit_history_of_le hj'] at hrj ⊢
      exact hi.separated i hi' j hj' c r hri hrj id
    · rw [commit_history_of_le hi'] at hri ⊢
      rw [commit_history_now] at hrj ⊢
      exact (happlied hi' hrj hri id).symm
    · rw [commit_history_now] at hri ⊢
      rw [commit_history_of_le hj'] at hrj ⊢
      exact happlied hj' hri hrj id
    · rfl

theorem step_inv {e : StoreEvent} {s' : Store} (hi : s.Inv) (h : s.step e = some s') :
    s'.Inv := by
  cases e with
  | start tx =>
    simp only [step] at h
    split at h
    · cases h
    · exact Option.some.inj h ▸ start_inv hi
  | execute tx statement nextval =>
    obtain ⟨t, ht, h⟩ := Option.bind_eq_some_iff.mp h
    split at h
    · next hc => exact Option.some.inj h ▸ execute_inv hi ht hc.1 hc.2.1 hc.2.2
    · cases h
  | commit tx =>
    obtain ⟨t, ht, rfl⟩ := Option.map_eq_some_iff.mp h
    exact commit_inv hi ht
  | rollback tx =>
    obtain ⟨t, -, rfl⟩ := Option.map_eq_some_iff.mp h
    exact rollback_inv hi

/-- Committed states are never rewritten: a step keeps them or adds one. -/
theorem step_history {e : StoreEvent} {s' : Store} (h : s.step e = some s') :
    s.now ≤ s'.now ∧ ∀ i ≤ s.now, s'.history i = s.history i := by
  cases e with
  | start tx =>
    simp only [step] at h
    split at h
    · cases h
    · cases h
      exact ⟨le_refl _, fun _ _ => rfl⟩
  | execute tx statement nextval =>
    obtain ⟨t, -, h⟩ := Option.bind_eq_some_iff.mp h
    split at h
    · cases h
      exact ⟨le_refl _, fun _ _ => rfl⟩
    · cases h
  | commit tx =>
    obtain ⟨t, -, rfl⟩ := Option.map_eq_some_iff.mp h
    exact ⟨Nat.le_succ _, fun i hle => commit_history_of_le hle⟩
  | rollback tx =>
    obtain ⟨t, -, rfl⟩ := Option.map_eq_some_iff.mp h
    exact ⟨le_refl _, fun _ _ => rfl⟩

end Steps

end Store

end Chahua.Unread

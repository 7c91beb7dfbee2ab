import Chahua.Unread.Counts
import Chahua.Unread.Store

namespace Chahua.Unread

open Framework

structure ChatUnreadCountRow where
  unreadCount : Nat
  revision : Option Nat
  deriving DecidableEq, Repr

inductive CallPhase where
  | revisions | lookup | hidden | shown
  deriving DecidableEq, Repr

/-- One execution of `count_chat_unread_cursors`. `todo` are the cursors not looked up yet,
`rows` the rows of the last counting statement still to be published and collected. -/
structure CountCall where
  requested : Finset ChatUnreadCursor
  transaction : Option Nat
  start : Nat
  phase : CallPhase
  revisions : Table Int Nat
  todo : Finset ChatUnreadCursor
  misses : Finset ChatUnreadCursor
  rows : Table ChatUnreadCursor ChatUnreadCountRow
  counts : Table ChatUnreadCursor Nat

namespace CountCall

def begin (requested : Finset ChatUnreadCursor) (transaction : Option Nat) (now : Nat) :
    CountCall where
  requested := requested
  transaction := transaction
  start := now
  phase := .revisions
  revisions := Table.empty
  todo := requested
  misses := ∅
  rows := Table.empty
  counts := Table.empty

/-- The revision statement; inside a transaction no revision is read. -/
def readRevisions (call : CountCall) (snapshot : Snapshot) : Option CountCall :=
  if call.phase = .revisions then
    some { call with
      phase := .lookup
      revisions := if call.transaction.isSome then Table.empty else snapshot.revisions }
  else none

def lookup (call : CountCall) (cache : Table (ChatUnreadCursor × Nat) Nat)
    (c : ChatUnreadCursor) : Option CountCall :=
  if call.phase = .lookup ∧ c ∈ call.todo then
    match (call.revisions.row c.chatId).bind fun revision => cache.row (c, revision) with
    | some count =>
        some { call with todo := call.todo.erase c, counts := call.counts.upsert c count }
    | none => some { call with todo := call.todo.erase c, misses := insert c call.misses }
  else none

/-- `count_chat_unread_cursors_with_filter`: the counts of the misses of one visibility,
each with the revision its chat has in the same snapshot. -/
def countRows (call : CountCall) (snapshot : Snapshot) (hideMembershipMessages : Bool) :
    Table ChatUnreadCursor ChatUnreadCountRow :=
  Table.tabulate
    (call.misses.filter fun c => c.hideMembershipMessages = hideMembershipMessages)
    fun c => ⟨unreadCount snapshot.messages c, snapshot.revisions.row c.chatId⟩

def countHidden (call : CountCall) (snapshot : Snapshot) : Option CountCall :=
  if call.phase = .lookup ∧ call.todo = ∅ then
    some { call with
      phase := .hidden
      rows := call.countRows snapshot true
      misses := call.misses.filter fun c => c.hideMembershipMessages = false }
  else none

def countShown (call : CountCall) (snapshot : Snapshot) : Option CountCall :=
  if call.phase = .hidden ∧ call.rows.keys = ∅ then
    some { call with
      phase := .shown
      rows := call.countRows snapshot false
      misses := call.misses.filter fun c => c.hideMembershipMessages = true }
  else none

/-- Move one row of the last counting statement to the result. -/
def collect (call : CountCall) (c : ChatUnreadCursor) (row : ChatUnreadCountRow) : CountCall :=
  { call with rows := call.rows.erase c, counts := call.counts.upsert c row.unreadCount }

end CountCall

/-- A finished call: `counts` is what it returned, `start` and `stop` the numbers of the
newest committed state when it started and when it returned. -/
structure ReturnedCall where
  requested : Finset ChatUnreadCursor
  transaction : Option Nat
  counts : Table ChatUnreadCursor Nat
  start : Nat
  stop : Nat

/-- The database, the process-wide cache, the calls in progress and those that returned. -/
structure UnreadState where
  store : Store
  counts : Table (ChatUnreadCursor × Nat) Nat
  calls : Table Nat CountCall
  returned : List ReturnedCall

/-- A label of the system. A call that fails at a statement is abandoned; Moka may evict
any entry at any time. -/
inductive UnreadEvent where
  | writer (event : StoreEvent)
  | begin (id : Nat) (requested : Finset ChatUnreadCursor) (transaction : Option Nat)
  | readRevisions (id : Nat)
  | lookup (id : Nat) (c : ChatUnreadCursor)
  | countHidden (id : Nat)
  | countShown (id : Nat)
  | publish (id : Nat) (c : ChatUnreadCursor)
  | finish (id : Nat)
  | abandon (id : Nat)
  | evict (key : ChatUnreadCursor × Nat)

namespace UnreadState

/-- What a statement of the call sees: its transaction's rows, or the newest committed state. -/
def snapshot (s : UnreadState) (call : CountCall) : Option Snapshot :=
  match call.transaction with
  | none => some s.store.committed
  | some tx => (s.store.transactions.row tx).map s.store.applied

def advance (s : UnreadState) (id : Nat) (f : CountCall → Option CountCall) :
    Option UnreadState :=
  (s.calls.row id).bind fun call =>
    (f call).map fun next => { s with calls := s.calls.upsert id next }

/-- `self.counts.insert((cursor, revision), row.unread_count)` under `publish`. -/
def publishRow (s : UnreadState) (call : CountCall) (c : ChatUnreadCursor)
    (row : ChatUnreadCountRow) : Table (ChatUnreadCursor × Nat) Nat :=
  match call.transaction, row.revision with
  | none, some revision => s.counts.upsert (c, revision) row.unreadCount
  | _, _ => s.counts

def step (s : UnreadState) : UnreadEvent → Option UnreadState
  | .writer event => (s.store.step event).map fun store => { s with store := store }
  | .begin id requested transaction =>
      if id ∈ s.calls.keys then none
      else some { s with
        calls := s.calls.upsert id (CountCall.begin requested transaction s.store.now) }
  | .readRevisions id => s.advance id fun call => call.readRevisions s.store.committed
  | .lookup id c => s.advance id fun call => call.lookup s.counts c
  | .countHidden id => s.advance id fun call => (s.snapshot call).bind call.countHidden
  | .countShown id => s.advance id fun call => (s.snapshot call).bind call.countShown
  | .publish id c =>
      (s.calls.row id).bind fun call => (call.rows.row c).map fun row =>
        { s with
          counts := s.publishRow call c row
          calls := s.calls.upsert id (call.collect c row) }
  | .finish id =>
      (s.calls.row id).bind fun call =>
        if call.phase = .shown ∧ call.rows.keys = ∅ then
          some { s with
            calls := s.calls.erase id
            returned := ⟨call.requested, call.transaction, call.counts, call.start,
              s.store.now⟩ :: s.returned }
        else none
  | .abandon id => (s.calls.row id).map fun _ => { s with calls := s.calls.erase id }
  | .evict key => some { s with counts := s.counts.erase key }

def init (snapshot : Snapshot) : UnreadState where
  store := Store.init snapshot
  counts := Table.empty
  calls := Table.empty
  returned := []

end UnreadState

namespace Store

/-- Some committed state from number `start` on has the revision for the chat. -/
def Had (s : Store) (start : Nat) (chatId : Int) (revision : Nat) : Prop :=
  ∃ i, start ≤ i ∧ i ≤ s.now ∧ (s.history i).revisions.row chatId = some revision

/-- The count is that of some committed state from number `start` on. -/
def Counted (s : Store) (start : Nat) (c : ChatUnreadCursor) (count : Nat) : Prop :=
  ∃ i, start ≤ i ∧ i ≤ s.now ∧ count = unreadCount (s.history i).messages c

/-- The row is that of one committed state from number `start` on, count and revision. -/
def CountedRow (s : Store) (start : Nat) (c : ChatUnreadCursor) (row : ChatUnreadCountRow) :
    Prop :=
  ∃ i, start ≤ i ∧ i ≤ s.now ∧ row.unreadCount = unreadCount (s.history i).messages c ∧
    row.revision = (s.history i).revisions.row c.chatId

/-- A committed state with the revision exists, and its count is the given one. -/
def Cached (s : Store) (c : ChatUnreadCursor) (revision count : Nat) : Prop :=
  ∃ i ≤ s.now, (s.history i).revisions.row c.chatId = some revision ∧
    count = unreadCount (s.history i).messages c

/-- `t` keeps every committed state of `s`. -/
def Extends (s t : Store) : Prop := s.now ≤ t.now ∧ ∀ i ≤ s.now, t.history i = s.history i

variable {s t : Store} {start : Nat} {c : ChatUnreadCursor}

theorem Extends.refl (s : Store) : s.Extends s := ⟨le_refl _, fun _ _ => rfl⟩

theorem Had.extend {chatId : Int} {revision : Nat} (he : s.Extends t)
    (h : s.Had start chatId revision) : t.Had start chatId revision := by
  obtain ⟨i, hs, hn, hr⟩ := h
  exact ⟨i, hs, hn.trans he.1, by rw [he.2 i hn, hr]⟩

theorem Counted.extend {count : Nat} (he : s.Extends t) (h : s.Counted start c count) :
    t.Counted start c count := by
  obtain ⟨i, hs, hn, hc⟩ := h
  exact ⟨i, hs, hn.trans he.1, by rw [he.2 i hn, hc]⟩

theorem CountedRow.extend {row : ChatUnreadCountRow} (he : s.Extends t)
    (h : s.CountedRow start c row) : t.CountedRow start c row := by
  obtain ⟨i, hs, hn, hc, hr⟩ := h
  exact ⟨i, hs, hn.trans he.1, by rw [he.2 i hn, hc], by rw [he.2 i hn, hr]⟩

theorem Cached.extend {revision count : Nat} (he : s.Extends t) (h : s.Cached c revision count) :
    t.Cached c revision count := by
  obtain ⟨i, hn, hr, hc⟩ := h
  exact ⟨i, hn.trans he.1, by rw [he.2 i hn, hr], by rw [he.2 i hn, hc]⟩

theorem CountedRow.counted {row : ChatUnreadCountRow} (h : s.CountedRow start c row) :
    s.Counted start c row.unreadCount := by
  obtain ⟨i, hs, hn, hc, -⟩ := h
  exact ⟨i, hs, hn, hc⟩

theorem CountedRow.cached {row : ChatUnreadCountRow} {revision : Nat}
    (h : s.CountedRow start c row) (hr : row.revision = some revision) :
    s.Cached c revision row.unreadCount := by
  obtain ⟨i, -, hn, hc, hrev⟩ := h
  exact ⟨i, hn, hrev ▸ hr, hc⟩

/-- The revision tells one content of the counts: whichever committed state has it, the
cached count is that state's. -/
theorem Cached.eq_unreadCount {revision count : Nat} (hi : s.Inv)
    (h : s.Cached c revision count) {i : Nat} (hn : i ≤ s.now)
    (hr : (s.history i).revisions.row c.chatId = some revision) :
    count = unreadCount (s.history i).messages c := by
  obtain ⟨j, hj, hrj, hc⟩ := h
  rw [hc]
  exact unreadCount_congr (hi.separated j hj i hn c.chatId revision hrj hr)

/-- A hit on a revision the caller read from a committed state is that state's count. -/
theorem Cached.counted {revision count : Nat} (hi : s.Inv) (h : s.Cached c revision count)
    (hr : s.Had start c.chatId revision) : s.Counted start c count := by
  obtain ⟨i, hs, hn, hri⟩ := hr
  exact ⟨i, hs, hn, h.eq_unreadCount hi hn hri⟩

end Store

/-- What holds of a call outside transactions between two of its steps. -/
structure CountCall.Inv (store : Store) (call : CountCall) : Prop where
  start : call.start ≤ store.now
  revisions : ∀ chatId r, call.revisions.row chatId = some r → store.Had call.start chatId r
  rows : ∀ c row, call.rows.row c = some row → store.CountedRow call.start c row
  counts : ∀ c n, call.counts.row c = some n → store.Counted call.start c n
  covered : ∀ c ∈ call.requested,
    c ∈ call.todo ∨ c ∈ call.misses ∨ c ∈ call.rows.keys ∨ c ∈ call.counts.keys
  reading : call.phase = .revisions ∨ call.phase = .lookup → call.rows.keys = ∅
  counting : call.phase = .hidden ∨ call.phase = .shown → call.todo = ∅
  hidden : call.phase = .hidden → ∀ c ∈ call.misses, c.hideMembershipMessages = false
  shown : call.phase = .shown → call.misses = ∅

namespace CountCall.Inv

variable {store : Store} {call next : CountCall}

theorem extend {later : Store} (he : store.Extends later) (h : call.Inv store) :
    call.Inv later :=
  { h with
    start := h.start.trans he.1
    revisions := fun chatId r hr => (h.revisions chatId r hr).extend he
    rows := fun c row hr => (h.rows c row hr).extend he
    counts := fun c n hc => (h.counts c n hc).extend he }

theorem begin (requested : Finset ChatUnreadCursor) :
    (CountCall.begin requested none store.now).Inv store where
  start := le_refl _
  revisions := by simp [CountCall.begin]
  rows := by simp [CountCall.begin]
  counts := by simp [CountCall.begin]
  covered := fun c hc => Or.inl hc
  reading := fun _ => rfl
  counting := by simp [CountCall.begin]
  hidden := by simp [CountCall.begin]
  shown := by simp [CountCall.begin]

theorem readRevisions (h : call.Inv store) (ht : call.transaction = none)
    (hn : call.readRevisions store.committed = some next) : next.Inv store := by
  simp only [CountCall.readRevisions] at hn
  split at hn
  · next hp =>
    cases hn
    refine { h with
      revisions := ?_
      reading := fun _ => h.reading (Or.inl hp)
      counting := by simp
      hidden := by simp
      shown := by simp }
    intro chatId r hr
    simp only [ht, Option.isSome_none, Bool.false_eq_true, if_false] at hr
    exact ⟨store.now, h.start, le_refl _, hr⟩
  · cases hn

theorem lookup {cache : Table (ChatUnreadCursor × Nat) Nat} {c : ChatUnreadCursor}
    (h : call.Inv store) (hs : store.Inv)
    (hcache : ∀ c r n, cache.row (c, r) = some n → store.Cached c r n)
    (hn : call.lookup cache c = some next) : next.Inv store := by
  simp only [CountCall.lookup] at hn
  split at hn
  · next hp =>
    have hcov : ∀ {d : ChatUnreadCursor}, d ∈ call.todo → d ≠ c → d ∈ call.todo.erase c :=
      fun hd hne => Finset.mem_erase.mpr ⟨hne, hd⟩
    split at hn
    · next count hit =>
      cases hn
      obtain ⟨r, hr, hrc⟩ := Option.bind_eq_some_iff.mp hit
      refine { h with
        counts := ?_
        covered := ?_
        counting := by simp [hp.1] }
      · intro d n hd
        rw [Table.upsert_row] at hd
        split at hd
        · next he =>
          cases hd
          rw [he]
          exact (hcache c r count hrc).counted hs (h.revisions _ r hr)
        · exact h.counts d n hd
      · intro d hd
        by_cases hdc : d = c
        · simp [hdc, Table.mem_keys]
        · rcases h.covered d hd with h1 | h1 | h1 | h1
          · exact Or.inl (hcov h1 hdc)
          · exact Or.inr (Or.inl h1)
          · exact Or.inr (Or.inr (Or.inl h1))
          · exact Or.inr (Or.inr (Or.inr (Finset.mem_insert_of_mem h1)))
    · cases hn
      refine { h with
        covered := ?_
        counting := by simp [hp.1]
        hidden := by simp [hp.1]
        shown := by simp [hp.1] }
      intro d hd
      by_cases hdc : d = c
      · simp [hdc]
      · rcases h.covered d hd with h1 | h1 | h1
        · exact Or.inl (hcov h1 hdc)
        · exact Or.inr (Or.inl (Finset.mem_insert_of_mem h1))
        · exact Or.inr (Or.inr h1)
  · cases hn

/-- The rows of a counting statement are those of the state it ran on. -/
theorem countRows (h : call.Inv store) {hide : Bool} {c : ChatUnreadCursor}
    {row : ChatUnreadCountRow}
    (hr : (call.countRows store.committed hide).row c = some row) :
    store.CountedRow call.start c row := by
  simp only [CountCall.countRows, Table.tabulate_row] at hr
  split at hr
  · cases hr
    exact ⟨store.now, h.start, le_refl _, rfl, rfl⟩
  · cases hr

theorem covered_count (h : call.Inv store) (htodo : call.todo = ∅)
    (hrows : call.rows.keys = ∅) {snapshot : Snapshot} (hide : Bool) {c : ChatUnreadCursor}
    (hc : c ∈ call.requested) :
    c ∈ call.misses.filter (fun c => c.hideMembershipMessages = !hide) ∨
      c ∈ (call.countRows snapshot hide).keys ∨ c ∈ call.counts.keys := by
  rcases h.covered c hc with h1 | h1 | h1 | h1
  · simp [htodo] at h1
  · by_cases hh : c.hideMembershipMessages = hide
    · exact Or.inr (Or.inl (Finset.mem_filter.mpr ⟨h1, hh⟩))
    · exact Or.inl (Finset.mem_filter.mpr ⟨h1, Bool.eq_not_of_ne hh⟩)
  · simp [hrows] at h1
  · exact Or.inr (Or.inr h1)

theorem countHidden (h : call.Inv store) (hn : call.countHidden store.committed = some next) :
    next.Inv store := by
  simp only [CountCall.countHidden] at hn
  split at hn
  · next hp =>
    cases hn
    exact { h with
      rows := fun c row hr => h.countRows hr
      covered := fun c hc => Or.inr (h.covered_count hp.2 (h.reading (Or.inr hp.1)) true hc)
      reading := by simp
      counting := fun _ => hp.2
      hidden := fun _ c hc => (Finset.mem_filter.mp hc).2
      shown := by simp }
  · cases hn

theorem countShown (h : call.Inv store) (hn : call.countShown store.committed = some next) :
    next.Inv store := by
  simp only [CountCall.countShown] at hn
  split at hn
  · next hp =>
    cases hn
    have htodo := h.counting (Or.inl hp.1)
    refine { h with
      rows := fun c row hr => h.countRows hr
      covered := fun c hc => Or.inr (h.covered_count htodo hp.2 false hc)
      reading := by simp
      counting := fun _ => htodo
      hidden := by simp
      shown := ?_ }
    intro _
    apply Finset.filter_eq_empty_iff.mpr
    intro c hc
    simp [h.hidden hp.1 c hc]
  · cases hn

theorem collect {c : ChatUnreadCursor} {row : ChatUnreadCountRow} (h : call.Inv store)
    (hr : call.rows.row c = some row) : (call.collect c row).Inv store := by
  refine { h with
    rows := ?_
    counts := ?_
    covered := ?_
    reading := ?_ }
  · intro d row' hd
    simp only [CountCall.collect, Table.erase_row] at hd
    split at hd
    · cases hd
    · exact h.rows d row' hd
  · intro d n hd
    simp only [CountCall.collect, Table.upsert_row] at hd
    split at hd
    · next he =>
      cases hd
      exact he ▸ (h.rows c row hr).counted
    · exact h.counts d n hd
  · intro d hd
    by_cases hdc : d = c
    · simp [hdc, CountCall.collect, Table.mem_keys]
    · rcases h.covered d hd with h1 | h1 | h1 | h1
      · exact Or.inl h1
      · exact Or.inr (Or.inl h1)
      · exact Or.inr (Or.inr (Or.inl (Finset.mem_erase.mpr ⟨hdc, h1⟩)))
      · exact Or.inr (Or.inr (Or.inr (Finset.mem_insert_of_mem h1)))
  · intro hp
    simp only [CountCall.collect, Table.erase, h.reading hp, Finset.erase_empty]

/-- When the call returns, every requested cursor has a count. -/
theorem finished (h : call.Inv store) (hp : call.phase = .shown) (hr : call.rows.keys = ∅)
    {c : ChatUnreadCursor} (hc : c ∈ call.requested) : c ∈ call.counts.keys := by
  rcases h.covered c hc with h1 | h1 | h1 | h1
  · simp [h.counting (Or.inr hp)] at h1
  · simp [h.shown hp] at h1
  · simp [hr] at h1
  · exact h1

end CountCall.Inv

/-- Each count a returned call reports is that of a committed state of its duration. -/
def ReturnedCall.Sound (store : Store) (call : ReturnedCall) : Prop :=
  call.stop ≤ store.now ∧ ∀ c ∈ call.requested, ∃ i, call.start ≤ i ∧ i ≤ call.stop ∧
    call.counts.row c = some (unreadCount (store.history i).messages c)

theorem ReturnedCall.Sound.extend {store later : Store} {call : ReturnedCall}
    (he : store.Extends later) (h : call.Sound store) : call.Sound later := by
  refine ⟨h.1.trans he.1, fun c hc => ?_⟩
  obtain ⟨i, hs, hn, hrow⟩ := h.2 c hc
  exact ⟨i, hs, hn, by rw [he.2 i (hn.trans h.1), hrow]⟩

namespace UnreadState

structure Inv (s : UnreadState) : Prop where
  store : s.store.Inv
  counts : ∀ c r n, s.counts.row (c, r) = some n → s.store.Cached c r n
  calls : ∀ id call, s.calls.row id = some call → call.transaction = none → call.Inv s.store
  returned : ∀ call ∈ s.returned, call.transaction = none → call.Sound s.store

theorem init_inv (snapshot : Snapshot) : (init snapshot).Inv where
  store := Store.init_inv snapshot
  counts := by simp [init]
  calls := by simp [init]
  returned := by simp [init]

variable {s s' : UnreadState} {id : Nat}

theorem upsert_calls (hi : s.Inv) {next : CountCall}
    (hn : next.transaction = none → next.Inv s.store) :
    ∀ id' call, (s.calls.upsert id next).row id' = some call → call.transaction = none →
      call.Inv s.store := by
  intro id' call h ht
  rw [Table.upsert_row] at h
  split at h
  · cases h
    exact hn ht
  · exact hi.calls id' call h ht

theorem erase_calls (hi : s.Inv) :
    ∀ id' call, (s.calls.erase id).row id' = some call → call.transaction = none →
      call.Inv s.store := by
  intro id' call h ht
  rw [Table.erase_row] at h
  split at h
  · cases h
  · exact hi.calls id' call h ht

/-- A step of one call that keeps its transaction and the call's invariant. -/
theorem advance_inv {f : CountCall → Option CountCall} (hi : s.Inv)
    (hf : ∀ call next, f call = some next → next.transaction = call.transaction ∧
      (call.transaction = none → call.Inv s.store → next.Inv s.store))
    (h : s.advance id f = some s') : s'.Inv := by
  obtain ⟨call, hcall, h⟩ := Option.bind_eq_some_iff.mp h
  obtain ⟨next, hnext, rfl⟩ := Option.map_eq_some_iff.mp h
  obtain ⟨htr, hinv⟩ := hf call next hnext
  exact { hi with
    calls := upsert_calls hi fun ht => hinv (htr ▸ ht) (hi.calls id call hcall (htr ▸ ht)) }

theorem snapshot_committed {call : CountCall} (ht : call.transaction = none) :
    s.snapshot call = some s.store.committed := by
  simp [snapshot, ht]

theorem publishRow_cached (hi : s.Inv) {call : CountCall} {c : ChatUnreadCursor}
    {row : ChatUnreadCountRow} (hc : call.transaction = none → call.Inv s.store)
    (hr : call.rows.row c = some row) :
    ∀ d r n, (s.publishRow call c row).row (d, r) = some n → s.store.Cached d r n := by
  intro d r n h
  simp only [publishRow] at h
  split at h
  · next revision ht hrev =>
    rw [Table.upsert_row] at h
    split at h
    · next he =>
      cases h
      obtain ⟨rfl, rfl⟩ := Prod.mk.inj he
      exact ((hc ht).rows d row hr).cached hrev
    · exact hi.counts d r n h
  · exact hi.counts d r n h

theorem readRevisions_transaction {call next : CountCall} {snapshot : Snapshot}
    (h : call.readRevisions snapshot = some next) : next.transaction = call.transaction := by
  simp only [CountCall.readRevisions] at h
  split at h
  · cases h; rfl
  · cases h

theorem lookup_transaction {call next : CountCall} {cache : Table (ChatUnreadCursor × Nat) Nat}
    {c : ChatUnreadCursor} (h : call.lookup cache c = some next) :
    next.transaction = call.transaction := by
  simp only [CountCall.lookup] at h
  split at h
  · split at h <;> cases h <;> rfl
  · cases h

theorem countHidden_transaction {call next : CountCall} {snapshot : Snapshot}
    (h : call.countHidden snapshot = some next) : next.transaction = call.transaction := by
  simp only [CountCall.countHidden] at h
  split at h
  · cases h; rfl
  · cases h

theorem countShown_transaction {call next : CountCall} {snapshot : Snapshot}
    (h : call.countShown snapshot = some next) : next.transaction = call.transaction := by
  simp only [CountCall.countShown] at h
  split at h
  · cases h; rfl
  · cases h

theorem finish_sound {call : CountCall} (hc : call.Inv s.store) (hp : call.phase = .shown)
    (hr : call.rows.keys = ∅) :
    (⟨call.requested, call.transaction, call.counts, call.start, s.store.now⟩ :
      ReturnedCall).Sound s.store := by
  refine ⟨le_refl _, fun c hcr => ?_⟩
  have hkey := hc.finished hp hr hcr
  rw [Table.mem_keys] at hkey
  obtain ⟨n, hn⟩ := Option.isSome_iff_exists.mp hkey
  obtain ⟨i, hs, hi, hcount⟩ := hc.counts c n hn
  exact ⟨i, hs, hi, hcount ▸ hn⟩

theorem step_inv {e : UnreadEvent} (hi : s.Inv) (h : s.step e = some s') : s'.Inv := by
  cases e with
  | writer event =>
    obtain ⟨store, hstore, rfl⟩ := Option.map_eq_some_iff.mp h
    have he : s.store.Extends store := Store.step_history hstore
    exact
      { store := Store.step_inv hi.store hstore
        counts := fun c r n hc => (hi.counts c r n hc).extend he
        calls := fun id call hc ht => (hi.calls id call hc ht).extend he
        returned := fun call hc ht => (hi.returned call hc ht).extend he }
  | begin id requested transaction =>
    simp only [step] at h
    split at h
    · cases h
    · cases h
      refine { hi with calls := upsert_calls hi fun ht => ?_ }
      obtain rfl : transaction = none := ht
      exact CountCall.Inv.begin requested
  | readRevisions id =>
    refine advance_inv hi (fun call next hn => ⟨readRevisions_transaction hn, fun ht hc => ?_⟩) h
    exact hc.readRevisions ht hn
  | lookup id c =>
    refine advance_inv hi (fun call next hn => ⟨lookup_transaction hn, fun _ hc => ?_⟩) h
    exact hc.lookup hi.store hi.counts hn
  | countHidden id =>
    refine advance_inv hi (fun call next hn => ?_) h
    obtain ⟨snapshot, hs, hn⟩ := Option.bind_eq_some_iff.mp hn
    refine ⟨countHidden_transaction hn, fun ht hc => ?_⟩
    rw [snapshot_committed ht] at hs
    exact hc.countHidden (Option.some.inj hs ▸ hn)
  | countShown id =>
    refine advance_inv hi (fun call next hn => ?_) h
    obtain ⟨snapshot, hs, hn⟩ := Option.bind_eq_some_iff.mp hn
    refine ⟨countShown_transaction hn, fun ht hc => ?_⟩
    rw [snapshot_committed ht] at hs
    exact hc.countShown (Option.some.inj hs ▸ hn)
  | publish id c =>
    obtain ⟨call, hcall, h⟩ := Option.bind_eq_some_iff.mp h
    obtain ⟨row, hrow, rfl⟩ := Option.map_eq_some_iff.mp h
    exact { hi with
      counts := publishRow_cached hi (hi.calls id call hcall) hrow
      calls := upsert_calls hi fun ht => (hi.calls id call hcall ht).collect hrow }
  | finish id =>
    obtain ⟨call, hcall, h⟩ := Option.bind_eq_some_iff.mp h
    split at h
    · next hp =>
      cases h
      refine { hi with calls := erase_calls hi, returned := ?_ }
      intro r hr ht
      rcases List.mem_cons.mp hr with rfl | hr
      · exact finish_sound (hi.calls id call hcall ht) hp.1 hp.2
      · exact hi.returned r hr ht
    · cases h
  | abandon id =>
    obtain ⟨call, -, rfl⟩ := Option.map_eq_some_iff.mp h
    exact { hi with calls := erase_calls hi }
  | evict key =>
    cases h
    refine { hi with counts := fun c r n hc => ?_ }
    rw [Table.erase_row] at hc
    split at hc
    · cases hc
    · exact hi.counts c r n hc

theorem run_inv (snapshot : Snapshot) {es : List UnreadEvent}
    (h : run step (init snapshot) es = some s) : s.Inv :=
  run_invariant (fun _ _ _ hi ht => step_inv hi ht) (init_inv snapshot) h

/-- What the cache promises: a call outside transactions reports, for each requested cursor,
the count of a committed state of its duration, and what the cache holds under a revision is
the count of every committed state with it. -/
structure Transparent (s : UnreadState) : Prop where
  returned : ∀ call ∈ s.returned, call.transaction = none → call.stop ≤ s.store.now ∧
    ∀ c ∈ call.requested, ∃ i, call.start ≤ i ∧ i ≤ call.stop ∧
      call.counts.row c = some (min 1000 (unreadIds (s.store.history i).messages c).card)
  cached : ∀ c r n, s.counts.row (c, r) = some n →
    (∃ i ≤ s.store.now, (s.store.history i).revisions.row c.chatId = some r) ∧
    ∀ i ≤ s.store.now, (s.store.history i).revisions.row c.chatId = some r →
      n = min 1000 (unreadIds (s.store.history i).messages c).card

/-- Every interleaving of writers and counting calls leaves the cache transparent. -/
theorem count_chat_unread_cursors_transparent (snapshot : Snapshot) {es : List UnreadEvent}
    (h : run step (init snapshot) es = some s) : s.Transparent := by
  have hi := run_inv snapshot h
  constructor
  · intro call hc ht
    obtain ⟨hstop, hcounts⟩ := hi.returned call hc ht
    refine ⟨hstop, fun c hreq => ?_⟩
    obtain ⟨i, hs, hn, hrow⟩ := hcounts c hreq
    exact ⟨i, hs, hn, unreadCount_eq _ c ▸ hrow⟩
  · intro c r n hrow
    have hcached := hi.counts c r n hrow
    constructor
    · obtain ⟨i, hn, hr, -⟩ := hcached
      exact ⟨i, hn, hr⟩
    · intro i hn hr
      rw [← unreadCount_eq]
      exact hcached.eq_unreadCount hi.store hn hr

/-- A message commits between the revision and the counting statement of a call. -/
theorem count_chat_unread_cursors_transparent_late_reader :
    let cursor : ChatUnreadCursor := ⟨false, 1, 0⟩
    let sent : Message := ⟨some "hi", .text, none, none, 7, 1, 0, none, false, true, .none, none⟩
    let before : Snapshot := ⟨Table.empty, Table.ofList [(1, 0)]⟩
    let events : List UnreadEvent := [.begin 0 {cursor} none, .readRevisions 0, .lookup 0 cursor,
      .writer (.start 0), .writer (.execute 0 (.insert [(5, sent)]) fun _ => 1),
      .writer (.commit 0), .countHidden 0, .countShown 0, .publish 0 cursor, .finish 0]
    ∃ s, run step (init before) events = some s ∧ s.counts.row (cursor, 1) = some 1 ∧
      s.Transparent := by
  intro cursor sent before events
  have h : run step (init before) events = some _ := rfl
  exact ⟨_, h, by decide, count_chat_unread_cursors_transparent before h⟩

end UnreadState

end Chahua.Unread

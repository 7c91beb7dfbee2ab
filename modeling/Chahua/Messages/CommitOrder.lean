import Chahua.Messages.LastMessage
import Chahua.Messages.Steps

namespace Chahua.Messages

open Framework

/-- When a message is visible in the main channel of a chat: its time. -/
def channelEntry (chatId : Int) (m : Message) : Option Int :=
  if m.chatId = chatId ∧ m.isLive = true ∧ m.isTopLevel = true then some m.createdAt else none

def Database.entry (db : Database) (chatId id : Int) : Option Int :=
  (db.messages.row id).bind (channelEntry chatId)

/-- The largest id and its time, or null when there is none. -/
def IsNewest (entry : Int → Option Int) (last : LastMessage) : Prop :=
  (∃ id at', last = (some id, some at') ∧ entry id = some at' ∧ ∀ k t, entry k = some t → k ≤ id) ∨
    last = (none, none) ∧ ∀ k, entry k = none

theorem entry_eq_some {db : Database} {chatId id at' : Int} : db.entry chatId id = some at' ↔
    ∃ m, db.messages.row id = some m ∧
      (decide (m.chatId = chatId) && m.isLive && m.isTopLevel) = true ∧ m.createdAt = at' := by
  simp only [Database.entry, Option.bind_eq_some_iff, channelEntry, Bool.and_eq_true,
    decide_eq_true_eq, and_assoc]
  refine exists_congr fun m => and_congr_right fun _ => ?_
  split
  · next h => simp [h]
  · next h =>
    refine iff_of_false (by simp) ?_
    rintro ⟨h1, h2, h3, -⟩
    exact h ⟨h1, h2, h3⟩

theorem newestMessage_isNewest (db : Database) (chatId : Int) :
    IsNewest (db.entry chatId) (db.newestMessage chatId) := by
  unfold Database.newestMessage
  dsimp only
  cases h : db.messages.newest fun _ m => decide (m.chatId = chatId) && m.isLive && m.isTopLevel with
  | none =>
    refine .inr ⟨rfl, fun k => ?_⟩
    by_contra hne
    obtain ⟨at', hat⟩ := Option.ne_none_iff_exists'.mp hne
    obtain ⟨m, hm, hp, -⟩ := entry_eq_some.mp hat
    have hmem : k ∈ db.messages.select fun _ m =>
        decide (m.chatId = chatId) && m.isLive && m.isTopLevel := Table.mem_select.mpr ⟨m, hm, hp⟩
    rw [Table.newest_eq_none.mp h] at hmem
    exact Finset.notMem_empty k hmem
  | some id =>
    obtain ⟨hmem, hle⟩ := Table.newest_eq_some.mp h
    obtain ⟨m, hm, hp⟩ := Table.mem_select.mp hmem
    refine .inl ⟨id, m.createdAt, ?_, entry_eq_some.mpr ⟨m, hm, hp, rfl⟩, fun k t hk => ?_⟩
    · simp [hm]
    · obtain ⟨mk, hmk, hpk, -⟩ := entry_eq_some.mp hk
      exact hle k (Table.mem_select.mpr ⟨mk, hmk, hpk⟩)

theorem IsNewest.congr {entry entry' : Int → Option Int} {last : LastMessage}
    (h : IsNewest entry last) (heq : ∀ k, entry' k = entry k) : IsNewest entry' last := by
  obtain rfl : entry' = entry := funext heq
  exact h

/-- The newest message stays the newest while it stays and others only go. -/
theorem IsNewest.remove {entry entry' : Int → Option Int} {last : LastMessage}
    (h : IsNewest entry last) (hless : ∀ k, entry' k = none ∨ entry' k = entry k)
    (hkept : ∀ id, last.1 = some id → entry' id = entry id) : IsNewest entry' last := by
  have hback : ∀ k t, entry' k = some t → entry k = some t := by
    intro k t hk
    rcases hless k with hnone | heq
    · rw [hnone] at hk
      cases hk
    · exact heq ▸ hk
  rcases h with ⟨id, at', rfl, hid, hle⟩ | ⟨rfl, hnone⟩
  · exact .inl ⟨id, at', rfl, (hkept id rfl).trans hid, fun k t hk => hle k t (hback k t hk)⟩
  · refine .inr ⟨rfl, fun k => ?_⟩
    rcases hless k with hk | hk
    · exact hk
    · exact hk.trans (hnone k)

namespace Concurrent

variable {chatId : Int} {s : Concurrent}

theorem view_entry (s : Concurrent) (t : Transaction) (id : Int) :
    (s.view t).entry chatId id = match t.writes.row id with
      | some m => channelEntry chatId m
      | none => s.db.entry chatId id := by
  simp only [Database.entry, view, Table.union_row]
  cases t.writes.row id <;> rfl

/-- What a transaction has read of the last message still holds. -/
def ReadCurrent (chatId : Int) (s : Concurrent) (t : Transaction) : Prop :=
  match t.phase with
  | .unmatched ids => ∀ id ∈ ids, (s.db.lastMessage chatId).1 ≠ some id
  | .selected last | .recalculated last => IsNewest ((s.view t).entry chatId) last
  | _ => True

/-- A commit comes in order: a send commits with an id above all visible ones, and no commit
changes what another transaction under way has read. -/
def InOrder (chatId : Int) (s : Concurrent) : TransactionEvent → Prop
  | .commit tx => ∀ t, s.transactions.row tx = some t →
      (∀ id at', t.phase = .assigned (some id, at') →
        ∀ k time, s.db.entry chatId k = some time → k < id) ∧
      ∀ tx' t', tx' ≠ tx → s.transactions.row tx' = some t' → ReadCurrent chatId s t' →
        ReadCurrent chatId (s.committed chatId tx t) t'
  | _ => True

/-- What the rows of a transaction mean for the last message, by what it still has to do. -/
structure Accounted (chatId : Int) (s : Concurrent) (t : Transaction) : Prop where
  published : ∀ id m m', t.writes.row id = some m' → s.db.messages.row id = some m →
    m.isPublished = true → m'.isPublished = true
  nothing : t.phase = .todo .nothing → (∀ k, t.cleanup ≠ .reconciled k) ∧
    ((∀ id m, t.writes.row id = some m → channelEntry chatId m = s.db.entry chatId id) ∨
      ∃ k ids, t.cleanup = .batch k ids ∧
        ∀ id m, t.writes.row id = some m → id ∈ ids ∧ channelEntry chatId m = none)
  assign : ∀ last, t.phase = .todo (.assign last) ∨ t.phase = .assigned last →
    ∃ id m, last = (some id, some m.createdAt) ∧ channelEntry chatId m = some m.createdAt ∧
      t.writes = Table.empty.upsert id m
  reconcile : ∀ ids, t.phase = .todo (.reconcile ids) ∨ t.phase = .unmatched ids →
    (∀ id m, t.writes.row id = some m → id ∈ ids ∧ channelEntry chatId m = none) ∧
      ∀ k, t.cleanup = .reconciled k → s.cleanups.row k = some ids

/-- The last message is the newest one or waits for a cleanup to reconcile it. -/
structure Ordered (chatId : Int) (s : Concurrent) : Prop where
  group : (s.db.groups.row chatId).isSome = true
  last : IsNewest (s.db.entry chatId) (s.db.lastMessage chatId) ∨
    ∃ k ids id, s.cleanups.row k = some ids ∧ (s.db.lastMessage chatId).1 = some id ∧ id ∈ ids
  current : ∀ tx t, s.transactions.row tx = some t → ReadCurrent chatId s t
  accounted : ∀ tx t, s.transactions.row tx = some t → Accounted chatId s t
  disjoint : ∀ tx tx' t t', tx ≠ tx' → s.transactions.row tx = some t →
    s.transactions.row tx' = some t' → Disjoint t.writes.keys t'.writes.keys
  cleanups : ∀ tx tx' t t', tx ≠ tx' → s.transactions.row tx = some t →
    s.transactions.row tx' = some t' → ∀ k, t.cleanup.of k = true → t'.cleanup.of k = false
  loaded : ∀ job id, s.jobs.row job = some (id, true) →
    ∃ m, s.db.messages.row id = some m ∧ m.isPublished = true

theorem opened_spec {t : Transaction} {tx : Nat} {s' : Concurrent}
    (h : s.opened tx t = some s') :
    s.transactions.row tx = none ∧ s.RowsFree t.writes.keys ∧
      s' = { s with transactions := s.transactions.upsert tx t } := by
  unfold opened at h
  split at h
  · next hfree =>
    exact ⟨by simpa using hfree.1, hfree.2, (Option.some.inj h).symm⟩
  · cases h

theorem RowsFree.disjoint {ids : Finset Int} (h : s.RowsFree ids) {tx : Nat} {t : Transaction}
    (ht : s.transactions.row tx = some t) : Disjoint t.writes.keys ids := by
  by_contra hnot
  have hmem : tx ∈ s.transactions.select fun _ t => decide (¬Disjoint t.writes.keys ids) :=
    Table.mem_select.mpr ⟨t, ht, by simpa using hnot⟩
  rw [h] at hmem
  exact Finset.notMem_empty tx hmem

theorem CleanupFree.of_eq_false {k : Nat} (h : s.CleanupFree k) {tx : Nat} {t : Transaction}
    (ht : s.transactions.row tx = some t) : t.cleanup.of k = false := by
  by_contra hnot
  have hmem : tx ∈ s.transactions.select fun _ t => t.cleanup.of k :=
    Table.mem_select.mpr ⟨t, ht, by simpa using hnot⟩
  rw [h] at hmem
  exact Finset.notMem_empty tx hmem

/-- A transaction that starts with its rows accounted for. -/
theorem Ordered.opened (hs : Ordered chatId s) {tx : Nat} {t : Transaction} {s' : Concurrent}
    (h : s.opened tx t = some s') {b : Bookkeeping} (hphase : t.phase = .todo b)
    (haccounted : Accounted chatId s t)
    (hcleanup : ∀ k, t.cleanup.of k = true → s.CleanupFree k) : Ordered chatId s' := by
  obtain ⟨hnone, hfree, rfl⟩ := opened_spec h
  have hrow : ∀ tx' t', (s.transactions.upsert tx t).row tx' = some t' →
      tx' = tx ∧ t' = t ∨ tx' ≠ tx ∧ s.transactions.row tx' = some t' := by
    intro tx' t' ht'
    rw [Table.upsert_row] at ht'
    split at ht'
    · next heq => exact .inl ⟨heq, (Option.some.inj ht').symm⟩
    · next hne => exact .inr ⟨hne, ht'⟩
  refine ⟨hs.group, hs.last, ?_, ?_, ?_, ?_, hs.loaded⟩
  · intro tx' t' ht'
    rcases hrow tx' t' ht' with ⟨-, rfl⟩ | ⟨-, hold⟩
    · simp [ReadCurrent, hphase]
    · exact hs.current tx' t' hold
  · intro tx' t' ht'
    rcases hrow tx' t' ht' with ⟨-, rfl⟩ | ⟨-, hold⟩
    · exact ⟨haccounted.published, haccounted.nothing, haccounted.assign, haccounted.reconcile⟩
    · have hold' := hs.accounted tx' t' hold
      exact ⟨hold'.published, hold'.nothing, hold'.assign, hold'.reconcile⟩
  · intro tx₁ tx₂ t₁ t₂ hne h₁ h₂
    rcases hrow tx₁ t₁ h₁ with ⟨rfl, rfl⟩ | ⟨-, hold₁⟩ <;>
      rcases hrow tx₂ t₂ h₂ with ⟨rfl, rfl⟩ | ⟨-, hold₂⟩
    · exact absurd rfl hne
    · exact (hfree.disjoint hold₂).symm
    · exact hfree.disjoint hold₁
    · exact hs.disjoint tx₁ tx₂ t₁ t₂ hne hold₁ hold₂
  · intro tx₁ tx₂ t₁ t₂ hne h₁ h₂ k hk
    rcases hrow tx₁ t₁ h₁ with ⟨rfl, rfl⟩ | ⟨-, hold₁⟩ <;>
      rcases hrow tx₂ t₂ h₂ with ⟨rfl, rfl⟩ | ⟨-, hold₂⟩
    · exact absurd rfl hne
    · exact (hcleanup k hk).of_eq_false hold₂
    · by_contra hnot
      rw [(hcleanup k (by simpa using hnot)).of_eq_false hold₁] at hk
      cases hk
    · exact hs.cleanups tx₁ tx₂ t₁ t₂ hne hold₁ hold₂ k hk

/-- A transaction that goes on without touching further rows. -/
theorem Ordered.setPhase (hs : Ordered chatId s) {tx : Nat} {t : Transaction} {phase : Phase}
    (ht : s.transactions.row tx = some t)
    (hcurrent : ReadCurrent chatId s { t with phase := phase })
    (haccounted : Accounted chatId s { t with phase := phase }) :
    Ordered chatId (s.setPhase tx t phase) := by
  have hrow : ∀ tx' t', (s.transactions.upsert tx { t with phase := phase }).row tx' = some t' →
      tx' = tx ∧ t' = { t with phase := phase } ∨ s.transactions.row tx' = some t' := by
    intro tx' t' ht'
    rw [Table.upsert_row] at ht'
    split at ht'
    · next heq => exact .inl ⟨heq, (Option.some.inj ht').symm⟩
    · exact .inr ht'
  refine ⟨hs.group, hs.last, ?_, ?_, ?_, ?_, hs.loaded⟩
  · intro tx' t' ht'
    rcases hrow tx' t' ht' with ⟨-, rfl⟩ | hold
    · exact hcurrent
    · exact hs.current tx' t' hold
  · intro tx' t' ht'
    rcases hrow tx' t' ht' with ⟨-, rfl⟩ | hold
    · exact ⟨haccounted.published, haccounted.nothing, haccounted.assign, haccounted.reconcile⟩
    · have hold' := hs.accounted tx' t' hold
      exact ⟨hold'.published, hold'.nothing, hold'.assign, hold'.reconcile⟩
  · intro tx₁ tx₂ t₁ t₂ hne h₁ h₂
    rcases hrow tx₁ t₁ h₁ with ⟨rfl, rfl⟩ | hold₁ <;> rcases hrow tx₂ t₂ h₂ with ⟨rfl, rfl⟩ | hold₂
    · exact absurd rfl hne
    · exact hs.disjoint tx₁ tx₂ t t₂ hne ht hold₂
    · exact hs.disjoint tx₁ tx₂ t₁ t hne hold₁ ht
    · exact hs.disjoint tx₁ tx₂ t₁ t₂ hne hold₁ hold₂
  · intro tx₁ tx₂ t₁ t₂ hne h₁ h₂ k hk
    rcases hrow tx₁ t₁ h₁ with ⟨rfl, rfl⟩ | hold₁ <;> rcases hrow tx₂ t₂ h₂ with ⟨rfl, rfl⟩ | hold₂
    · exact absurd rfl hne
    · exact hs.cleanups tx₁ tx₂ t t₂ hne ht hold₂ k hk
    · exact hs.cleanups tx₁ tx₂ t₁ t hne hold₁ ht k hk
    · exact hs.cleanups tx₁ tx₂ t₁ t₂ hne hold₁ hold₂ k hk

theorem setLastMessage_lastMessage {db : Database} (hgroup : (db.groups.row chatId).isSome = true)
    (last : LastMessage) : (db.setLastMessage chatId last).lastMessage chatId = last := by
  obtain ⟨g, hg⟩ := Option.isSome_iff_exists.mp hgroup
  have hrow : (db.setLastMessage chatId last).groups.row chatId =
      some { g with lastMessageId := last.1, lastMessageAt := last.2 } := by
    change (db.groups.updateWhere _ _).row chatId = _
    simp [Table.updateWhere_row, hg]
  simp [Database.lastMessage, hrow]

/-- The tables and the last message right after a commit. -/
theorem committed_entry (s : Concurrent) (tx : Nat) (t : Transaction) (id : Int) :
    (s.committed chatId tx t).db.entry chatId id = (s.view t).entry chatId id := by
  unfold committed
  dsimp only
  split <;> rfl

theorem committed_messages (s : Concurrent) (tx : Nat) (t : Transaction) :
    (s.committed chatId tx t).db.messages = s.db.messages.union t.writes := by
  unfold committed
  dsimp only
  split <;> rfl

theorem committed_groups (s : Concurrent) (tx : Nat) (t : Transaction) :
    ((s.committed chatId tx t).db.groups.row chatId).isSome = (s.db.groups.row chatId).isSome := by
  unfold committed
  dsimp only
  split
  · change ((s.db.groups.updateWhere _ _).row chatId).isSome = _
    simp [Table.updateWhere_row]
  · change ((s.db.groups.updateWhere _ _).row chatId).isSome = _
    simp [Table.updateWhere_row]
  · rfl

/-- A deletion that does not take the newest message. -/
theorem view_remove {t : Transaction} {last : LastMessage} {ids : List Int}
    (hnewest : IsNewest (s.db.entry chatId) last)
    (hwrites : ∀ id m, t.writes.row id = some m → id ∈ ids ∧ channelEntry chatId m = none)
    (hlast : ∀ id ∈ ids, last.1 ≠ some id) : IsNewest ((s.view t).entry chatId) last := by
  refine hnewest.remove (fun k => ?_) fun id hid => ?_
  · rw [view_entry]
    cases hk : t.writes.row k with
    | none => exact .inr rfl
    | some m => exact .inl (hwrites k m hk).2
  · rw [view_entry]
    cases hk : t.writes.row id with
    | none => rfl
    | some m => exact absurd hid (hlast id (hwrites id m hk).1)

/-- Cleanups that wait for their reconciliation keep waiting. -/
theorem pending_kept {t : Transaction} {tx : Nat} {last : Option Int}
    (h : ∃ k ids id, s.cleanups.row k = some ids ∧ last = some id ∧ id ∈ ids)
    (hreconciled : ∀ k ids, t.cleanup = .reconciled k → s.cleanups.row k = some ids →
      ∀ id ∈ ids, last ≠ some id) :
    ∃ k ids id, (s.committed chatId tx t).cleanups.row k = some ids ∧ last = some id ∧ id ∈ ids := by
  obtain ⟨k, ids, id, hk, hlast, hid⟩ := h
  unfold committed
  dsimp only
  split
  · exact ⟨k, ids, id, hk, hlast, hid⟩
  · next k' ids' _ =>
    by_cases hkk : k = k'
    · subst hkk
      exact ⟨k, ids ++ ids', id, by simp [hk], hlast, List.mem_append_left _ hid⟩
    · exact ⟨k, ids, id, by rw [Table.upsert_row_ne _ _ hkk, hk], hlast, hid⟩
  · next k' hcleanup =>
    by_cases hkk : k = k'
    · subst hkk
      exact absurd hlast (hreconciled k ids hcleanup hk id hid)
    · exact ⟨k, ids, id, by rw [Table.erase_row_ne _ hkk, hk], hlast, hid⟩

/-- The last message after a commit that comes in order. -/
theorem Ordered.committed_last (hs : Ordered chatId s) {tx : Nat} {t : Transaction}
    (ht : s.transactions.row tx = some t) (hdone : s.commit chatId tx = some (s.committed chatId tx t))
    (horder : ∀ id at', t.phase = .assigned (some id, at') →
      ∀ k time, s.db.entry chatId k = some time → k < id) :
    IsNewest ((s.committed chatId tx t).db.entry chatId)
        ((s.committed chatId tx t).db.lastMessage chatId) ∨
      ∃ k ids id, (s.committed chatId tx t).cleanups.row k = some ids ∧
        ((s.committed chatId tx t).db.lastMessage chatId).1 = some id ∧ id ∈ ids := by
  have haccounted := hs.accounted tx t ht
  have hcurrent := hs.current tx t ht
  simp only [commit, ht, Option.bind_some] at hdone
  cases hphase : t.phase with
  | todo b =>
    cases b with
    | nothing =>
      have hdb : (s.committed chatId tx t).db = s.view t := by simp [committed, hphase]
      have hlast : (s.view t).lastMessage chatId = s.db.lastMessage chatId := rfl
      rw [hdb, hlast]
      obtain ⟨hnot, hsame | ⟨k, ids, hbatch, hwrites⟩⟩ := haccounted.nothing hphase
      · rcases hs.last with hnewest | hpending
        · refine .inl (hnewest.congr fun id => ?_)
          rw [view_entry]
          cases hid : t.writes.row id with
          | none => rfl
          | some m => exact hsame id m hid
        · exact .inr (pending_kept hpending fun k _ hk => absurd hk (hnot k))
      · rcases hs.last with hnewest | hpending
        · by_cases hid : ∃ id ∈ ids, (s.db.lastMessage chatId).1 = some id
          · obtain ⟨id, hid, hlastId⟩ := hid
            refine .inr ⟨k, ((s.cleanups.row k).getD []) ++ ids, id, ?_, hlastId,
              List.mem_append_right _ hid⟩
            simp [committed, hbatch]
          · refine .inl (view_remove hnewest hwrites fun id hmem heq => hid ⟨id, hmem, heq⟩)
        · exact .inr (pending_kept hpending fun k _ hk => absurd hk (hnot k))
    | assign last => simp [hphase] at hdone
    | recalculate => simp [hphase] at hdone
    | reconcile ids => simp [hphase] at hdone
  | unmatched ids =>
    have hdb : (s.committed chatId tx t).db = s.view t := by simp [committed, hphase]
    have hlast : (s.view t).lastMessage chatId = s.db.lastMessage chatId := rfl
    rw [hdb, hlast]
    obtain ⟨hwrites, hcleanup⟩ := haccounted.reconcile ids (.inr hphase)
    simp only [ReadCurrent, hphase] at hcurrent
    rcases hs.last with hnewest | hpending
    · exact .inl (view_remove hnewest hwrites hcurrent)
    · refine .inr (pending_kept hpending fun k ids' hk hids' id hid => ?_)
      obtain rfl := Option.some.inj ((hcleanup k hk).symm.trans hids')
      exact hcurrent id hid
  | selected last => simp [hphase] at hdone
  | assigned last =>
    have hdb : (s.committed chatId tx t).db = (s.view t).setLastMessage chatId last := by
      simp [committed, hphase]
    have hgroup : ((s.view t).groups.row chatId).isSome = true := hs.group
    obtain ⟨id, m, rfl, hchannel, hwrites⟩ := haccounted.assign last (.inr hphase)
    rw [hdb, setLastMessage_lastMessage hgroup]
    have hentry : ∀ k, ((s.view t).setLastMessage chatId (some id, some m.createdAt)).entry chatId k =
        if k = id then some m.createdAt else s.db.entry chatId k := by
      intro k
      change (s.view t).entry chatId k = _
      rw [view_entry, hwrites, Table.upsert_row]
      by_cases hk : k = id <;> simp [hk, hchannel]
    refine .inl (.inl ⟨id, m.createdAt, rfl, by rw [hentry, if_pos rfl], fun k time hk => ?_⟩)
    rw [hentry] at hk
    split at hk
    · next heq => exact heq.le
    · exact (horder id m.createdAt hphase k time hk).le
  | recalculated last =>
    have hdb : (s.committed chatId tx t).db = (s.view t).setLastMessage chatId last := by
      simp [committed, hphase]
    have hgroup : ((s.view t).groups.row chatId).isSome = true := hs.group
    rw [hdb, setLastMessage_lastMessage hgroup]
    simp only [ReadCurrent, hphase] at hcurrent
    exact .inl hcurrent

/-- The other transactions after a commit. -/
theorem Ordered.accounted_committed (hs : Ordered chatId s) {tx tx' : Nat} {t t' : Transaction}
    (hne : tx' ≠ tx) (ht : s.transactions.row tx = some t) (ht' : s.transactions.row tx' = some t') :
    Accounted chatId (s.committed chatId tx t) t' := by
  have hold := hs.accounted tx' t' ht'
  have hdisjoint := hs.disjoint tx tx' t t' hne.symm ht ht'
  have hrow : ∀ id m, t'.writes.row id = some m → t.writes.row id = none := by
    intro id m hm
    have hmem : id ∈ t'.writes.keys := (t'.writes.mem_keys id).mpr (by simp [hm])
    have hnot : id ∉ t.writes.keys := Finset.disjoint_right.mp hdisjoint hmem
    rw [t.writes.mem_keys, Option.not_isSome_iff_eq_none] at hnot
    exact hnot
  constructor
  · intro id m m' hm' hm
    rw [committed_messages, Table.union_row, hrow id m' hm', Option.none_or] at hm
    exact hold.published id m m' hm' hm
  · intro hphase
    refine ⟨(hold.nothing hphase).1, (hold.nothing hphase).2.imp_left fun hsame id m hm => ?_⟩
    rw [committed_entry, view_entry, hrow id m hm]
    exact hsame id m hm
  · exact hold.assign
  · intro ids hphase
    refine ⟨(hold.reconcile ids hphase).1, fun k hk => ?_⟩
    have hfree := hs.cleanups tx' tx t' t hne ht' ht k (by simp [hk, CleanupStep.of])
    have hids := (hold.reconcile ids hphase).2 k hk
    unfold committed
    dsimp only
    split
    · exact hids
    · next k' ids' hcleanup =>
      have hkk : k ≠ k' := by
        rintro rfl
        simp [hcleanup, CleanupStep.of] at hfree
      rw [Table.upsert_row_ne _ _ hkk, hids]
    · next k' hcleanup =>
      have hkk : k ≠ k' := by
        rintro rfl
        simp [hcleanup, CleanupStep.of] at hfree
      rw [Table.erase_row_ne _ hkk, hids]

theorem commit_spec {tx : Nat} {s' : Concurrent} (h : s.commit chatId tx = some s') :
    ∃ t, s.transactions.row tx = some t ∧ s' = s.committed chatId tx t := by
  obtain ⟨t, ht, h⟩ := Option.bind_eq_some_iff.mp h
  refine ⟨t, ht, ?_⟩
  split at h <;> first | exact (Option.some.inj h).symm | cases h

theorem Ordered.commit (hs : Ordered chatId s) {tx : Nat} {s' : Concurrent}
    (horder : InOrder chatId s (.commit tx)) (h : s.commit chatId tx = some s') :
    Ordered chatId s' := by
  obtain ⟨t, ht, rfl⟩ := commit_spec h
  obtain ⟨hid, hothers⟩ := horder t ht
  have hrow : ∀ tx' t', (s.committed chatId tx t).transactions.row tx' = some t' →
      tx' ≠ tx ∧ s.transactions.row tx' = some t' := fun tx' t' ht' => Table.row_of_erase ht'
  refine ⟨(committed_groups s tx t).trans hs.group, hs.committed_last ht h hid, ?_, ?_, ?_, ?_, ?_⟩
  · intro tx' t' ht'
    obtain ⟨hne, hold⟩ := hrow tx' t' ht'
    exact hothers tx' t' hne hold (hs.current tx' t' hold)
  · intro tx' t' ht'
    obtain ⟨hne, hold⟩ := hrow tx' t' ht'
    exact hs.accounted_committed hne ht hold
  · intro tx₁ tx₂ t₁ t₂ hne h₁ h₂
    exact hs.disjoint tx₁ tx₂ t₁ t₂ hne (hrow tx₁ t₁ h₁).2 (hrow tx₂ t₂ h₂).2
  · intro tx₁ tx₂ t₁ t₂ hne h₁ h₂
    exact hs.cleanups tx₁ tx₂ t₁ t₂ hne (hrow tx₁ t₁ h₁).2 (hrow tx₂ t₂ h₂).2
  · intro job id hjob
    obtain ⟨m, hm, hp⟩ := hs.loaded job id hjob
    rw [committed_messages, Table.union_row]
    cases hw : t.writes.row id with
    | none => exact ⟨m, hm, hp⟩
    | some m' => exact ⟨m', rfl, (hs.accounted tx t ht).published id m m' hw hm hp⟩

theorem Ordered.rollback (hs : Ordered chatId s) (tx : Nat) :
    Ordered chatId { s with transactions := s.transactions.erase tx } := by
  have hrow : ∀ tx' t', (s.transactions.erase tx).row tx' = some t' →
      s.transactions.row tx' = some t' := fun tx' t' ht' => (Table.row_of_erase ht').2
  refine ⟨hs.group, hs.last, ?_, ?_, ?_, ?_, hs.loaded⟩
  · exact fun tx' t' ht' => hs.current tx' t' (hrow tx' t' ht')
  · intro tx' t' ht'
    have hold := hs.accounted tx' t' (hrow tx' t' ht')
    exact ⟨hold.published, hold.nothing, hold.assign, hold.reconcile⟩
  · exact fun tx₁ tx₂ t₁ t₂ hne h₁ h₂ =>
      hs.disjoint tx₁ tx₂ t₁ t₂ hne (hrow tx₁ t₁ h₁) (hrow tx₂ t₂ h₂)
  · exact fun tx₁ tx₂ t₁ t₂ hne h₁ h₂ =>
      hs.cleanups tx₁ tx₂ t₁ t₂ hne (hrow tx₁ t₁ h₁) (hrow tx₂ t₂ h₂)

theorem channelEntry_deleted {m : Message} (h : m.deletedAt.isSome = true) :
    channelEntry chatId m = none := by
  have hlive : m.isLive = false := by simp [Message.isLive, Option.isSome_iff_ne_none.mp h]
  simp [channelEntry, hlive]

theorem Ordered.send (hs : Ordered chatId s) {tx : Nat} {now id : Int} {p : PreparedMessageSend}
    {s' : Concurrent} (h : s.send chatId tx now id p = some s') : Ordered chatId s' := by
  unfold Concurrent.send at h
  split at h
  · next hguard =>
    have hfresh : s.db.messages.row id = none := by simpa using hguard.2
    have hrow : ∀ k m, (Table.empty.upsert id (p.newMessage now)).row k = some m →
        k = id ∧ m = p.newMessage now := by
      intro k m hk
      rw [Table.upsert_row] at hk
      split at hk
      · next heq => exact ⟨heq, (Option.some.inj hk).symm⟩
      · cases hk
    refine hs.opened h rfl ⟨?_, ?_, ?_, ?_⟩ fun k hk => nomatch hk
    · intro k m m' hm' hm
      rw [(hrow k m' hm').1, hfresh] at hm
      cases hm
    · intro hphase
      refine ⟨fun k hk => (nomatch hk), .inl fun k m hm => ?_⟩
      obtain ⟨rfl, rfl⟩ := hrow k m hm
      have hhidden : ¬(p.publishImmediately = true ∧ p.replyRootId.isNone = true) := by
        intro hand
        simp [hand.1, hand.2] at hphase
      have hentry : s.db.entry chatId k = none := by simp [Database.entry, hfresh]
      rw [hentry, channelEntry, if_neg]
      rintro ⟨-, hlive, htop⟩
      exact hhidden ⟨by simpa [Message.isLive, PreparedMessageSend.newMessage] using hlive, htop⟩
    · intro last hphase
      have hassign : (p.publishImmediately && p.replyRootId.isNone) = true ∧
          last = (some id, some now) := by
        rcases hphase with hphase | hphase
        · dsimp only at hphase
          split at hphase
          · next hpublish => exact ⟨hpublish, by cases hphase; rfl⟩
          · cases hphase
        · cases hphase
      rw [Bool.and_eq_true] at hassign
      refine ⟨id, p.newMessage now, hassign.2, ?_, rfl⟩
      rw [channelEntry, if_pos]
      refine ⟨hguard.1, ?_, hassign.1.2⟩
      simp [Message.isLive, PreparedMessageSend.newMessage, hassign.1.1]
    · intro ids hphase
      rcases hphase with hphase | hphase
      · dsimp only at hphase
        split at hphase <;> cases hphase
      · cases hphase
  · cases h

theorem Ordered.publish (hs : Ordered chatId s) {tx job : Nat} {outcome : AudioPublishOutcome}
    {s' : Concurrent} (h : s.publish chatId tx job outcome = some s') : Ordered chatId s' := by
  obtain ⟨⟨messageId, wasPublished⟩, hjob, h⟩ := Option.bind_eq_some_iff.mp h
  obtain ⟨m, hm, h⟩ := Option.bind_eq_some_iff.mp h
  obtain ⟨hrow, -⟩ := Option.filter_eq_some_iff.mp hm
  have hwrites : ∀ k m', ((((s.db.swapAttachment outcome).setPublished messageId
      outcome).messages).restrict {messageId}).row k = some m' →
        k = messageId ∧ m' = publishedRow outcome m := by
    intro k m' hk
    rw [Table.restrict_row] at hk
    split at hk
    · next hmem =>
      obtain rfl := Finset.mem_singleton.mp hmem
      rw [setPublished_row, hrow, Option.map_some, if_pos rfl] at hk
      exact ⟨rfl, (Option.some.inj hk).symm⟩
    · cases hk
  refine hs.opened h rfl ⟨?_, ?_, ?_, ?_⟩ fun k hk => nomatch hk
  · intro k m₀ m' hm' _ _
    rw [(hwrites k m' hm').2]
    rfl
  · intro hphase
    refine ⟨fun k hk => (nomatch hk), .inl fun k m' hm' => ?_⟩
    obtain ⟨rfl, rfl⟩ := hwrites k m' hm'
    have hentry : s.db.entry chatId k = channelEntry chatId m := by simp [Database.entry, hrow]
    rw [hentry]
    cases hpublished : wasPublished with
    | true =>
      obtain ⟨m₀, hm₀, hp⟩ := hs.loaded job k (hpublished ▸ hjob)
      obtain rfl := Option.some.inj (hrow.symm.trans hm₀)
      simp [channelEntry, publishedRow, Message.isLive, Message.isTopLevel, hp]
    | false =>
      have hreply : m.isTopLevel = false := by
        by_contra htop
        simp only [Bool.not_eq_false, Message.isTopLevel] at htop
        simp [hpublished, htop] at hphase
      have hreply' : (publishedRow outcome m).isTopLevel = false := hreply
      simp [channelEntry, hreply, hreply']
  · intro last hphase
    rcases hphase with hphase | hphase
    · dsimp only at hphase
      split at hphase <;> cases hphase
    · cases hphase
  · intro ids hphase
    rcases hphase with hphase | hphase
    · dsimp only at hphase
      split at hphase <;> cases hphase
    · cases hphase

/-- Rows that a transaction deletes. -/
theorem accounted_deletion {t : Transaction} {ids : List Int}
    (hwrites : ∀ id m', t.writes.row id = some m' → id ∈ ids ∧ m'.deletedAt.isSome = true ∧
      ∀ m, s.db.messages.row id = some m → m.isPublished = true → m'.isPublished = true)
    (hphase : t.phase = .todo (.reconcile ids) ∧ t.cleanup = .none ∨
      t.phase = .todo .nothing ∧ ∃ k, t.cleanup = .batch k ids) : Accounted chatId s t := by
  refine ⟨fun id m m' hm' => (hwrites id m' hm').2.2 m, ?_, ?_, ?_⟩
  · intro hnothing
    rcases hphase with ⟨hphase, -⟩ | ⟨-, k, hk⟩
    · rw [hphase] at hnothing
      cases hnothing
    · refine ⟨fun k' hk' => ?_, .inr ⟨k, ids, hk, fun id m hm =>
        ⟨(hwrites id m hm).1, channelEntry_deleted (hwrites id m hm).2.1⟩⟩⟩
      rw [hk] at hk'
      cases hk'
  · intro last hlast
    rcases hphase with ⟨hphase, -⟩ | ⟨hphase, -⟩ <;> rw [hphase] at hlast <;>
      rcases hlast with hlast | hlast <;> cases hlast
  · intro ids' hids
    rcases hphase with ⟨hphase, hcleanup⟩ | ⟨hphase, -⟩ <;> rw [hphase] at hids <;>
      rcases hids with hids | hids <;> cases hids
    exact ⟨fun id m hm => ⟨(hwrites id m hm).1, channelEntry_deleted (hwrites id m hm).2.1⟩,
      fun k hk => by rw [hcleanup] at hk; cases hk⟩

theorem softDeleted_writes {marked : Database} {ids : List Int} (h : SoftDeleted s.db marked ids)
    {id : Int} {m' : Message} (hm' : (marked.messages.restrict ids.toFinset).row id = some m') :
    id ∈ ids ∧ m'.deletedAt.isSome = true ∧
      ∀ m, s.db.messages.row id = some m → m.isPublished = true → m'.isPublished = true := by
  rw [Table.restrict_row] at hm'
  split at hm'
  · next hmem =>
    rw [List.mem_toFinset] at hmem
    obtain ⟨time, ht⟩ := h.messages
    have hrow := ht id
    rw [hm'] at hrow
    obtain ⟨m, hm, -⟩ := Option.map_eq_some_iff.mp hrow.symm
    obtain ⟨deletedAt, hmarked, hdeleted⟩ := h.row hm
    obtain rfl := Option.some.inj (hmarked.symm.trans hm')
    refine ⟨hmem, hdeleted.mpr (.inl hmem), fun m₀ hm₀ hp => ?_⟩
    obtain rfl := Option.some.inj (hm.symm.trans hm₀)
    exact hp
  · cases hm'

theorem Ordered.deleteMessage (hs : Ordered chatId s) {tx : Nat} {now messageId : Int}
    {s' : Concurrent} (h : s.deleteMessage chatId tx now messageId = some s') :
    Ordered chatId s' := by
  unfold Concurrent.deleteMessage at h
  split at h
  · next hguard =>
    obtain ⟨m, hm, -⟩ := (Option.any_eq_true _ _).mp hguard
    refine hs.opened h rfl (accounted_deletion (fun id m' hm' => ?_) (.inl ⟨rfl, rfl⟩))
      fun k hk => nomatch hk
    rw [Table.restrict_row] at hm'
    split at hm'
    · next hmem =>
      obtain rfl := Finset.mem_singleton.mp hmem
      rw [markDeleted_row now hm] at hm'
      obtain rfl := Option.some.inj hm'
      refine ⟨List.mem_singleton_self id, rfl, fun m₀ hm₀ hp => ?_⟩
      obtain rfl := Option.some.inj (hm.symm.trans hm₀)
      exact hp
    · cases hm'
  · cases h

theorem Ordered.deleteSelection (hs : Ordered chatId s) {tx : Nat} {now uid : Int} {isAdmin : Bool}
    {ids : List Int} {s' : Concurrent}
    (h : s.deleteSelection chatId tx now uid isAdmin ids = some s') : Ordered chatId s' := by
  unfold Concurrent.deleteSelection at h
  split at h
  · next marked impact hcheck hbatch =>
    obtain ⟨hsoft, hdescribes⟩ := softDeleteBatch_spec hbatch
    rw [← hdescribes.messageIds] at hsoft
    exact hs.opened h rfl (accounted_deletion (fun id m' hm' => softDeleted_writes hsoft hm')
      (.inl ⟨rfl, rfl⟩)) fun k hk => nomatch hk
  · cases h

theorem Ordered.cleanupBatch (hs : Ordered chatId s) {tx cleanup : Nat} {now targetUid : Int}
    {scope : DeleteScope} {s' : Concurrent}
    (h : s.cleanupBatch chatId tx cleanup now targetUid scope = some s') : Ordered chatId s' := by
  unfold Concurrent.cleanupBatch at h
  split at h
  · next marked batch hbatch =>
    split at h
    · next hfree =>
      obtain ⟨targets, -, hsoft, hdescribes⟩ := bulkDeleteBatch_spec hbatch
      rw [← hdescribes.messageIds] at hsoft
      refine hs.opened h rfl (accounted_deletion (fun id m' hm' => softDeleted_writes hsoft hm')
        (.inr ⟨rfl, cleanup, rfl⟩)) fun k hk => ?_
      obtain rfl : cleanup = k := by simpa [CleanupStep.of] using hk
      exact hfree
    · cases h
  · cases h

theorem Ordered.cleanupReconcile (hs : Ordered chatId s) {tx cleanup : Nat} {s' : Concurrent}
    (h : s.cleanupReconcile tx cleanup = some s') : Ordered chatId s' := by
  obtain ⟨ids, hids, h⟩ := Option.bind_eq_some_iff.mp h
  split at h
  · next hfree =>
    refine hs.opened h rfl ⟨fun id m m' hm' => (nomatch hm'), fun hphase => (nomatch hphase),
      fun last hphase => ?_, fun ids' hphase => ⟨fun id m hm => (nomatch hm), fun k hk => ?_⟩⟩
      fun k hk => ?_
    · rcases hphase with hphase | hphase <;> cases hphase
    · obtain rfl := CleanupStep.reconciled.inj hk
      rcases hphase with hphase | hphase <;> cases hphase
      exact hids
    · obtain rfl : cleanup = k := by simpa [CleanupStep.of] using hk
      exact hfree
  · cases h

theorem Ordered.check (hs : Ordered chatId s) {tx : Nat} {s' : Concurrent}
    (h : s.check chatId tx = some s') : Ordered chatId s' := by
  obtain ⟨t, ht, h⟩ := Option.bind_eq_some_iff.mp h
  have haccounted := hs.accounted tx t ht
  split at h
  · next ids hphase =>
    obtain rfl := Option.some.inj h
    obtain ⟨hwrites, hcleanup⟩ := haccounted.reconcile ids (.inl hphase)
    split
    · refine hs.setPhase ht trivial ⟨haccounted.published, fun hp => (nomatch hp), ?_, ?_⟩
      · rintro last (hp | hp) <;> cases hp
      · rintro ids' (hp | hp) <;> cases hp
    · next hmatch =>
      refine hs.setPhase ht (fun id hid heq => hmatch ?_) ⟨haccounted.published,
        fun hp => (nomatch hp), ?_, ?_⟩
      · simp [heq, hid]
      · rintro last (hp | hp) <;> cases hp
      · rintro ids' (hp | hp) <;> cases hp
        exact ⟨hwrites, hcleanup⟩
  · cases h

theorem Ordered.select (hs : Ordered chatId s) {tx : Nat} {s' : Concurrent}
    (h : s.select chatId tx = some s') : Ordered chatId s' := by
  obtain ⟨t, ht, h⟩ := Option.bind_eq_some_iff.mp h
  have haccounted := hs.accounted tx t ht
  split at h
  · obtain rfl := Option.some.inj h
    refine hs.setPhase ht (newestMessage_isNewest (s.view t) chatId) ⟨haccounted.published,
      fun hp => (nomatch hp), ?_, ?_⟩
    · rintro last (hp | hp) <;> cases hp
    · rintro ids' (hp | hp) <;> cases hp
  · cases h

theorem Ordered.update (hs : Ordered chatId s) {tx : Nat} {s' : Concurrent}
    (h : s.update tx = some s') : Ordered chatId s' := by
  obtain ⟨t, ht, h⟩ := Option.bind_eq_some_iff.mp h
  have haccounted := hs.accounted tx t ht
  have hcurrent := hs.current tx t ht
  split at h
  · split at h
    · next last hphase =>
      obtain rfl := Option.some.inj h
      refine hs.setPhase ht trivial ⟨haccounted.published, fun hp => (nomatch hp), ?_, ?_⟩
      · rintro last' (hp | hp) <;> cases hp
        exact haccounted.assign last (.inl hphase)
      · rintro ids' (hp | hp) <;> cases hp
    · next last hphase =>
      obtain rfl := Option.some.inj h
      simp only [ReadCurrent, hphase] at hcurrent
      refine hs.setPhase ht hcurrent ⟨haccounted.published, fun hp => (nomatch hp), ?_, ?_⟩
      · rintro last' (hp | hp) <;> cases hp
      · rintro ids' (hp | hp) <;> cases hp
    · cases h
  · cases h

theorem Ordered.next (hs : Ordered chatId s) {e : TransactionEvent} {s' : Concurrent}
    (horder : InOrder chatId s e) (h : s.step chatId e = some s') : Ordered chatId s' := by
  cases e with
  | send tx now id p => exact hs.send h
  | load job messageId =>
    obtain ⟨m, hm, rfl⟩ := Option.map_eq_some_iff.mp h
    have haccounted : ∀ tx t, s.transactions.row tx = some t →
        Accounted chatId { s with jobs := s.jobs.upsert job (messageId, m.isPublished) } t :=
      fun tx t ht =>
        have hold := hs.accounted tx t ht
        ⟨hold.published, hold.nothing, hold.assign, hold.reconcile⟩
    refine ⟨hs.group, hs.last, hs.current, haccounted, hs.disjoint, hs.cleanups,
      fun job' id hjob => ?_⟩
    rw [Table.upsert_row] at hjob
    split at hjob
    · obtain ⟨rfl, hp⟩ := Prod.mk.inj (Option.some.inj hjob)
      exact ⟨m, hm, hp⟩
    · exact hs.loaded job' id hjob
  | publish tx job outcome => exact hs.publish h
  | deleteMessage tx now messageId => exact hs.deleteMessage h
  | deleteSelection tx now uid isAdmin ids => exact hs.deleteSelection h
  | cleanupBatch tx cleanup now targetUid scope => exact hs.cleanupBatch h
  | cleanupReconcile tx cleanup => exact hs.cleanupReconcile h
  | check tx => exact hs.check h
  | select tx => exact hs.select h
  | update tx => exact hs.update h
  | commit tx => exact hs.commit horder h
  | rollback tx =>
    obtain ⟨t, -, rfl⟩ := Option.map_eq_some_iff.mp h
    exact hs.rollback tx

theorem ordered_start {db : Database} (hgroup : (db.groups.row chatId).isSome = true)
    (hlast : IsNewest (db.entry chatId) (db.lastMessage chatId)) : Ordered chatId (start db) := by
  refine ⟨hgroup, .inl hlast, ?_, ?_, ?_, ?_, ?_⟩
  · rintro tx t ⟨⟩
  · rintro tx t ⟨⟩
  · rintro tx tx' t t' - ⟨⟩
  · rintro tx tx' t t' - ⟨⟩
  · rintro job id ⟨⟩

/-- As long as commits come in order, a chat at rest names its newest message. -/
theorem last_message_is_newest {db : Database} {es : List TransactionEvent} {t : Concurrent}
    (hgroup : (db.groups.row chatId).isSome = true)
    (hlast : IsNewest (db.entry chatId) (db.lastMessage chatId))
    (horder : Along (step chatId) (InOrder chatId) (start db) es)
    (h : run (step chatId) (start db) es = some t) (hquiescent : Quiescent t) :
    IsNewest (t.db.entry chatId) (t.db.lastMessage chatId) := by
  have hordered : Ordered chatId t := run_invariant_along
    (fun _ _ _ hs hok hstep => hs.next hok hstep) (ordered_start hgroup hlast) horder h
  refine hordered.last.resolve_right ?_
  rintro ⟨k, ids, id, hk, -⟩
  rw [hquiescent.2] at hk
  cases hk

def textSend (chatId senderUid : Int) (text : String) : PreparedMessageSend where
  systemKind := none
  forwardedFromMessageId := none
  chatId := chatId
  senderUid := senderUid
  message := some text
  messageType := .text
  replyToId := none
  replyRootId := none
  attachmentIds := []
  publishImmediately := true

theorem newGroup_isNewest (chatId : Int) (members : List (Int × GroupRole)) :
    IsNewest ((Database.newGroup chatId members).entry chatId)
      ((Database.newGroup chatId members).lastMessage chatId) := by
  refine .inr ⟨?_, fun k => rfl⟩
  simp [Database.lastMessage, Database.newGroup, Table.ofList_cons_row]

/-- Both rows are inserted before the first send commits. -/
def twoSends : List TransactionEvent :=
  [.send 0 100 10 (textSend 1 7 "a"), .send 1 200 11 (textSend 1 7 "b"), .update 0, .commit 0,
    .update 1, .commit 1]

theorem last_message_is_newest_after_send :
    ∃ t, run (step 1) (start (.newGroup 1 [(7, .admin)])) twoSends = some t ∧
      t.db.lastMessage 1 = (some 11, some 200) ∧
      IsNewest (t.db.entry 1) (t.db.lastMessage 1) := by
  refine ⟨_, rfl, rfl, ?_⟩
  refine @last_message_is_newest 1 (.newGroup 1 [(7, .admin)]) twoSends _ rfl
    (newGroup_isNewest 1 _) ?_ rfl ?_
  · refine .cons rfl trivial (.cons rfl trivial (.cons rfl trivial (.cons rfl ?_
      (.cons rfl trivial (.cons rfl ?_ trivial)))))
    · refine fun t ht => ⟨fun id at' _ k time hk => (nomatch hk), fun tx' t' hne ht' _ => ?_⟩
      by_cases htx : tx' = 1
      · subst htx
        obtain rfl := Option.some.inj ht'
        exact trivial
      · have hnone : Option.isNone (some t') = true := by
          rw [← ht']
          simp [Concurrent.setPhase, start, Table.upsert_row, hne, htx]
        cases hnone
    · refine fun t ht => ⟨fun id at' hphase k time hk => ?_, fun tx' t' hne ht' _ => ?_⟩
      · obtain rfl := Option.some.inj ht
        cases hphase
        by_cases hk10 : k = 10
        · omega
        · have hk : ((Table.union .empty (Table.empty.upsert 10
              ((textSend 1 7 "a").newMessage 100))).row k).bind (channelEntry 1) = some time := hk
          rw [Table.union_row, Table.upsert_row_ne _ _ hk10] at hk
          cases hk
      · have hnone : Option.isNone (some t') = true := by
          rw [← ht']
          by_cases htx : tx' = 0 <;>
            simp [Concurrent.committed, Concurrent.setPhase, start, Table.erase_row,
              Table.upsert_row, hne, htx]
        cases hnone
  · refine ⟨Table.ext fun tx => ?_, rfl⟩
    by_cases htx : tx = 0 <;> by_cases htx' : tx = 1 <;>
      simp [Concurrent.committed, Concurrent.setPhase, start, Table.erase_row, Table.upsert_row,
        htx, htx']

/-- Two sends that commit in the other order than their ids were drawn. -/
theorem older_send_commits_last :
    ∃ t, run (step 1) (start (.newGroup 1 [(7, .admin)]))
        [.send 0 100 10 (textSend 1 7 "a"), .send 1 200 11 (textSend 1 7 "b"), .update 1, .commit 1,
          .update 0, .commit 0] = some t ∧
      t.transactions.keys = ∅ ∧ t.cleanups.keys = ∅ ∧ t.db.lastMessage 1 = (some 10, some 100) ∧
      t.db.entry 1 11 = some 200 ∧ ¬IsNewest (t.db.entry 1) (t.db.lastMessage 1) := by
  have hnewest : ∀ entry : Int → Option Int, entry 11 = some 200 →
      ¬IsNewest entry (some 10, some 100) := by
    rintro entry h11 (⟨id, at', heq, -, hle⟩ | ⟨heq, -⟩)
    · have hid : id = 10 := (Option.some.inj (Prod.mk.inj heq).1).symm
      have hlt := hle 11 200 h11
      omega
    · cases heq
  refine ⟨_, rfl, by decide, by decide, by decide, by decide, ?_⟩
  exact hnewest _ (by decide)

end Concurrent

end Chahua.Messages

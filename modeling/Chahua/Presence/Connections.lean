import Chahua.Framework.Run
import Chahua.Presence.Snapshots
import Mathlib.Tactic

namespace Chahua.Presence

open Framework

def AppPresenceState.toU8 : AppPresenceState → Nat
  | .active => 1
  | .inactive => 2

def AppPresenceState.fromU8 (value : Nat) : AppPresenceState :=
  if value = AppPresenceState.inactive.toU8 then .inactive else .active

/-- The state in the low byte of a 64 bit word, the time above it. -/
def packState (state : AppPresenceState) (transitionAt : Nat) : Nat :=
  (transitionAt <<< 8) % 2 ^ 64 ||| state.toU8

def unpackState (value : Nat) : AppPresenceState × Nat :=
  (.fromU8 (value % 2 ^ 8), value >>> 8)

structure ConnectionEntry where
  connId : Nat
  isClosed : Bool
  lastPingAt : Nat
  stateAndLastTransitionAt : Nat
  deriving DecidableEq, Repr

/-- The word a report wants to write over the one it has read. -/
def nextWord (current : Nat) (state : AppPresenceState) (now : Nat) : Nat :=
  let previousState := (unpackState current).1
  let transitionAt :=
    if previousState = .active ∧ state = .inactive then now
    else if state = .active then 0
    else (unpackState current).2
  packState state transitionAt

/-- `compare_exchange_weak` may fail on an unchanged word; the loop then reads it again. -/
def updateWord (word : Nat) (state : AppPresenceState) (now : Nat) : Nat → Nat
  | 0 => nextWord word state now
  | failures + 1 => updateWord word state now failures

def ConnectionEntry.updateAppStateAt (entry : ConnectionEntry) (state : AppPresenceState)
    (now failures : Nat) : ConnectionEntry :=
  { entry with
    lastPingAt := now
    stateAndLastTransitionAt := updateWord entry.stateAndLastTransitionAt state now failures }

structure ConnectionRegistry where
  inner : Table Int (List ConnectionEntry)
  nextConnId : Nat

/-- What happens to the connections of the users. -/
inductive ConnectionEvent where
  | register (uid : Int) (now : Nat)
  | report (uid : Int) (connId : Nat) (state : AppPresenceState) (now failures : Nat)
  | close (uid : Int) (connId : Nat)
  | remove (uid : Int) (connId : Nat)
  deriving DecidableEq, Repr

namespace ConnectionRegistry

def empty : ConnectionRegistry := ⟨Table.empty, 0⟩

def entries (r : ConnectionRegistry) (uid : Int) : List ConnectionEntry :=
  (r.inner.row uid).getD []

def register (r : ConnectionRegistry) (uid : Int) (now : Nat) : ConnectionRegistry where
  inner := r.inner.upsert uid (r.entries uid ++
    [{ connId := r.nextConnId
       isClosed := false
       lastPingAt := now
       stateAndLastTransitionAt := packState .inactive 0 }])
  nextConnId := r.nextConnId + 1

/-- The last connection of a user takes the user away. -/
def removeConnection (r : ConnectionRegistry) (uid : Int) (connId : Nat) : ConnectionRegistry :=
  match r.inner.row uid with
  | none => r
  | some entries =>
      let kept := entries.filter fun connection => decide (connection.connId ≠ connId)
      { r with
        inner :=
          if kept = [] then r.inner.deleteWhere fun key _ => decide (key = uid)
          else r.inner.upsert uid kept }

/-- A change of one open connection. -/
def modify (r : ConnectionRegistry) (uid : Int) (connId : Nat)
    (f : ConnectionEntry → ConnectionEntry) : Option ConnectionRegistry :=
  if (r.entries uid).any (·.connId = connId) then
    some { r with
      inner := r.inner.upsert uid ((r.entries uid).map fun entry =>
        if entry.connId = connId then f entry else entry) }
  else none

def step (r : ConnectionRegistry) : ConnectionEvent → Option ConnectionRegistry
  | .register uid now => some (r.register uid now)
  | .report uid connId state now failures =>
      r.modify uid connId (·.updateAppStateAt state now failures)
  | .close uid connId => r.modify uid connId fun entry => { entry with isClosed := true }
  | .remove uid connId => some (r.removeConnection uid connId)

/-- The loop of `personal_presence_at` over the fresh entries. -/
def presenceLoop (now : Nat) : Bool → List ConnectionEntry → Option AppPresenceState
  | away, [] => if away then some .inactive else none
  | away, entry :: entries =>
      let (state, transitionAt) := unpackState entry.stateAndLastTransitionAt
      if state = .active then some .active
      else presenceLoop now
        (away || decide (transitionAt ≠ 0) && decide (now - transitionAt < awayTimeoutSecs)) entries

def isFresh (now : Nat) (entry : ConnectionEntry) : Bool :=
  !entry.isClosed && decide (now - entry.lastPingAt ≤ staleConnectionTimeoutSecs)

def personalPresenceAt (r : ConnectionRegistry) (uid : Int) (now : Nat) :
    Option AppPresenceState :=
  (r.inner.row uid).bind fun entries => presenceLoop now false (entries.filter (isFresh now))

end ConnectionRegistry

/-- The reports of one connection, oldest first. -/
def reports (events : List ConnectionEvent) (uid : Int) (connId : Nat) :
    List (AppPresenceState × Nat) :=
  events.filterMap fun
    | .report u c state now _ => if u = uid ∧ c = connId then some (state, now) else none
    | _ => none

/-- The times at which an inactive report follows an active one. -/
def transitions : List (AppPresenceState × Nat) → List Nat
  | first :: second :: rest =>
      (if first.1 = .active ∧ second.1 = .inactive then [second.2] else []) ++
        transitions (second :: rest)
  | _ => []

def lastState (reports : List (AppPresenceState × Nat)) : Option AppPresenceState :=
  reports.getLast?.map (·.1)

def lastTransition (reports : List (AppPresenceState × Nat)) : Option Nat :=
  (transitions reports).getLast?

/-- Not closed, and the last report is recent. -/
def Fresh (events : List ConnectionEvent) (uid : Int) (now : Nat) (entry : ConnectionEntry) :
    Prop :=
  entry.isClosed = false ∧ ∃ report, (reports events uid entry.connId).getLast? = some report ∧
    now ≤ report.2 + staleConnectionTimeoutSecs

section words

theorem fromU8_toU8 (state : AppPresenceState) : .fromU8 state.toU8 = state := by
  cases state <;> rfl

/-- Below 2^56 the time survives the packing. -/
theorem unpackState_packState (state : AppPresenceState) {t : Nat} (ht : t < 2 ^ 56) :
    unpackState (packState state t) = (state, t) := by
  have hstate : state.toU8 < 2 ^ 8 := by cases state <;> decide
  have hmod : (t <<< 8) % 2 ^ 64 = t <<< 8 := by
    rw [Nat.shiftLeft_eq]
    exact Nat.mod_eq_of_lt (by omega)
  unfold unpackState packState
  rw [hmod, ← Nat.shiftLeft_add_eq_or_of_lt hstate, Nat.shiftLeft_eq, Nat.shiftRight_eq_div_pow]
  have hlow : (t * 2 ^ 8 + state.toU8) % 2 ^ 8 = state.toU8 := by omega
  have hhigh : (t * 2 ^ 8 + state.toU8) / 2 ^ 8 = t := by omega
  rw [hlow, hhigh, fromU8_toU8]

theorem updateWord_eq (word : Nat) (state : AppPresenceState) (now failures : Nat) :
    updateWord word state now failures = nextWord word state now := by
  induction failures with
  | zero => rfl
  | succ failures ih => exact ih

end words

section histories

theorem transitions_append (reports : List (AppPresenceState × Nat))
    (report : AppPresenceState × Nat) :
    transitions (reports ++ [report]) = transitions reports ++
      if lastState reports = some .active ∧ report.1 = .inactive then [report.2] else [] := by
  induction reports with
  | nil => simp [transitions, lastState]
  | cons first rest ih =>
    cases rest with
    | nil => simp [transitions, lastState]
    | cons second rest =>
      simp only [List.cons_append, transitions] at ih ⊢
      have hlast : lastState (first :: second :: rest) = lastState (second :: rest) := by
        unfold lastState
        rw [List.getLast?_cons_cons]
      rw [ih, hlast, List.append_assoc]

theorem lastState_append (reports : List (AppPresenceState × Nat))
    (report : AppPresenceState × Nat) : lastState (reports ++ [report]) = some report.1 := by
  simp [lastState]

/-- Only an inactive report after an active one is a transition. -/
theorem lastTransition_append (reports : List (AppPresenceState × Nat))
    (report : AppPresenceState × Nat) :
    lastTransition (reports ++ [report]) =
      if lastState reports = some .active ∧ report.1 = .inactive then some report.2
      else lastTransition reports := by
  unfold lastTransition
  rw [transitions_append]
  split <;> simp

theorem lastTransition_mem {reports : List (AppPresenceState × Nat)} {t : Nat}
    (h : lastTransition reports = some t) : ∃ report ∈ reports, report.2 = t := by
  induction reports using List.reverseRecOn with
  | nil => cases h
  | append_singleton reports report ih =>
    rw [lastTransition_append] at h
    split at h
    · exact ⟨report, by simp, Option.some.inj h⟩
    · obtain ⟨earlier, hmem, ht⟩ := ih h
      exact ⟨earlier, by simp [hmem], ht⟩

end histories

/-- The word of a connection after its reports. -/
def reportedWord (reports : List (AppPresenceState × Nat)) : Nat :=
  packState ((lastState reports).getD .inactive)
    (if lastState reports = some .active then 0 else (lastTransition reports).getD 0)

theorem unpackState_reportedWord {reports : List (AppPresenceState × Nat)}
    (htimes : ∀ report ∈ reports, report.2 < 2 ^ 56) :
    unpackState (reportedWord reports) = ((lastState reports).getD .inactive,
      if lastState reports = some .active then 0 else (lastTransition reports).getD 0) := by
  refine unpackState_packState _ ?_
  split
  · decide
  · cases h : lastTransition reports with
    | none => decide
    | some t =>
      obtain ⟨report, hmem, rfl⟩ := lastTransition_mem h
      exact htimes report hmem

/-- A report moves the word along its history. -/
theorem nextWord_reportedWord {reports : List (AppPresenceState × Nat)}
    (htimes : ∀ report ∈ reports, report.2 < 2 ^ 56) (state : AppPresenceState) (now : Nat) :
    nextWord (reportedWord reports) state now = reportedWord (reports ++ [(state, now)]) := by
  unfold nextWord
  rw [unpackState_reportedWord htimes]
  unfold reportedWord
  rw [lastState_append, lastTransition_append]
  cases state with
  | active => simp
  | inactive =>
    cases h : lastState reports with
    | none => simp
    | some previous => cases previous <;> simp

/-- What the entry of a connection holds, given its reports. -/
structure ConnectionEntry.Reported (entry : ConnectionEntry)
    (reports : List (AppPresenceState × Nat)) : Prop where
  word : entry.stateAndLastTransitionAt = reportedWord reports
  lastPing : ∀ report, reports.getLast? = some report → entry.lastPingAt = report.2

theorem ConnectionEntry.Reported.report {entry : ConnectionEntry}
    {reports : List (AppPresenceState × Nat)} (h : entry.Reported reports)
    (htimes : ∀ report ∈ reports, report.2 < 2 ^ 56) (state : AppPresenceState)
    (now failures : Nat) :
    (entry.updateAppStateAt state now failures).Reported (reports ++ [(state, now)]) where
  word := by
    unfold ConnectionEntry.updateAppStateAt
    rw [updateWord_eq, h.word]
    exact nextWord_reportedWord htimes state now
  lastPing := by simp [ConnectionEntry.updateAppStateAt]

/-- The invariant of the registry: every entry holds what its reports say, and the ids to come have
no reports. -/
structure RegistryInv (events : List ConnectionEvent) (r : ConnectionRegistry) : Prop where
  entry : ∀ uid, ∀ entry ∈ r.entries uid, entry.Reported (reports events uid entry.connId)
  used : ∀ uid, ∀ entry ∈ r.entries uid, entry.connId < r.nextConnId
  unused : ∀ uid connId, r.nextConnId ≤ connId → reports events uid connId = []

section run

variable {events : List ConnectionEvent} {r r' : ConnectionRegistry}

theorem reports_append (events : List ConnectionEvent) (event : ConnectionEvent) (uid : Int)
    (connId : Nat) : reports (events ++ [event]) uid connId =
      reports events uid connId ++ reports [event] uid connId := by
  unfold reports
  rw [List.filterMap_append]

theorem reports_report (uid u : Int) (connId c : Nat) (state : AppPresenceState)
    (now failures : Nat) : reports [.report u c state now failures] uid connId =
      if u = uid ∧ c = connId then [(state, now)] else [] := by
  unfold reports
  by_cases h : u = uid ∧ c = connId <;> simp [h]

theorem modify_spec {uid : Int} {connId : Nat} {f : ConnectionEntry → ConnectionEntry}
    (h : r.modify uid connId f = some r') :
    r'.nextConnId = r.nextConnId ∧ (∃ entry ∈ r.entries uid, entry.connId = connId) ∧
      ∀ u, r'.entries u = (r.entries u).map fun entry =>
        if u = uid ∧ entry.connId = connId then f entry else entry := by
  unfold ConnectionRegistry.modify at h
  split at h
  · next hany =>
    obtain ⟨entry, hmem, hid⟩ := List.any_eq_true.mp hany
    refine ⟨by rw [← Option.some.inj h], ⟨entry, hmem, by simpa using hid⟩, fun u => ?_⟩
    rw [← Option.some.inj h]
    unfold ConnectionRegistry.entries
    by_cases heq : u = uid
    · subst heq
      simp
    · simp [Table.upsert_row_ne _ _ heq, heq]
  · cases h

theorem removeConnection_entries (r : ConnectionRegistry) (uid : Int) (connId : Nat) (u : Int) :
    (r.removeConnection uid connId).entries u ⊆ r.entries u := by
  unfold ConnectionRegistry.removeConnection
  split
  · exact fun _ h => h
  · next entries hrow =>
    unfold ConnectionRegistry.entries
    dsimp only
    by_cases heq : u = uid
    · subst heq
      split
      · simp [Table.deleteWhere_row, hrow]
      · simp [hrow]
    · split
      · cases h : r.inner.row u <;> simp [Table.deleteWhere_row, heq, h, Option.filter]
      · simp [Table.upsert_row_ne _ _ heq]

theorem registryInv_empty : RegistryInv [] .empty where
  entry := by simp [ConnectionRegistry.entries, ConnectionRegistry.empty]
  used := by simp [ConnectionRegistry.entries, ConnectionRegistry.empty]
  unused := fun _ _ _ => rfl

/-- An event that reports nothing: the entries keep their words, and a new one starts over. -/
theorem RegistryInv.quiet (h : RegistryInv events r) {event : ConnectionEvent}
    (hquiet : ∀ u c, reports [event] u c = []) (hnext : r.nextConnId ≤ r'.nextConnId)
    (hentries : ∀ u, ∀ entry ∈ r'.entries u,
      (∃ old ∈ r.entries u, entry.connId = old.connId ∧
        entry.stateAndLastTransitionAt = old.stateAndLastTransitionAt ∧
        entry.lastPingAt = old.lastPingAt) ∨
      (entry.connId = r.nextConnId ∧ r.nextConnId < r'.nextConnId ∧
        entry.stateAndLastTransitionAt = packState .inactive 0)) :
    RegistryInv (events ++ [event]) r' := by
  have hsame : ∀ u c, reports (events ++ [event]) u c = reports events u c := by
    intro u c
    rw [reports_append, hquiet, List.append_nil]
  refine ⟨fun u entry hmem => ?_, fun u entry hmem => ?_, fun u c hle => ?_⟩
  · rw [hsame]
    obtain ⟨old, hold, hid, hword, hping⟩ | ⟨hid, -, hword⟩ := hentries u entry hmem
    · have hreported := h.entry u old hold
      rw [hid]
      refine ⟨hword.trans hreported.word, fun report hlast => ?_⟩
      rw [hping]
      exact hreported.lastPing report hlast
    · rw [hid, h.unused u _ le_rfl]
      exact ⟨hword, by simp⟩
  · obtain ⟨old, hold, hid, -⟩ | ⟨hid, hlt, -⟩ := hentries u entry hmem
    · rw [hid]
      exact (h.used u old hold).trans_le hnext
    · rw [hid]
      exact hlt
  · rw [hsame]
    exact h.unused u c (hnext.trans hle)

theorem RegistryInv.register (h : RegistryInv events r) (uid : Int) (now : Nat) :
    RegistryInv (events ++ [.register uid now]) (r.register uid now) := by
  refine h.quiet (fun _ _ => rfl) (Nat.le_succ _) fun u entry hmem => ?_
  unfold ConnectionRegistry.register ConnectionRegistry.entries at hmem
  by_cases heq : u = uid
  · subst heq
    rw [Table.upsert_row_self, Option.getD_some] at hmem
    obtain hold | hnew := List.mem_append.mp hmem
    · exact .inl ⟨entry, hold, rfl, rfl, rfl⟩
    · obtain rfl := List.mem_singleton.mp hnew
      exact .inr ⟨rfl, Nat.lt_succ_self _, rfl⟩
  · rw [Table.upsert_row_ne _ _ heq] at hmem
    exact .inl ⟨entry, hmem, rfl, rfl, rfl⟩

theorem RegistryInv.report (h : RegistryInv events r) {uid : Int} {connId : Nat}
    {state : AppPresenceState} {now failures : Nat}
    (htimes : ∀ u c, ∀ report ∈ reports events u c, report.2 < 2 ^ 56)
    (hstep : r.modify uid connId (·.updateAppStateAt state now failures) = some r') :
    RegistryInv (events ++ [.report uid connId state now failures]) r' := by
  obtain ⟨hnext, ⟨known, hknown, hid⟩, hentries⟩ := modify_spec hstep
  refine ⟨fun u entry hmem => ?_, fun u entry hmem => ?_, fun u c hle => ?_⟩
  · rw [hentries] at hmem
    obtain ⟨old, hold, rfl⟩ := List.mem_map.mp hmem
    have hreported := h.entry u old hold
    rw [reports_append, reports_report]
    by_cases heq : u = uid ∧ old.connId = connId
    · rw [if_pos heq]
      have hsame : uid = u ∧ connId = (old.updateAppStateAt state now failures).connId :=
        ⟨heq.1.symm, heq.2.symm⟩
      rw [if_pos hsame]
      exact hreported.report (htimes _ _) state now failures
    · rw [if_neg heq]
      have hother : ¬(uid = u ∧ connId = old.connId) := fun hsame =>
        heq ⟨hsame.1.symm, hsame.2.symm⟩
      rw [if_neg hother, List.append_nil]
      exact hreported
  · rw [hentries] at hmem
    obtain ⟨old, hold, rfl⟩ := List.mem_map.mp hmem
    rw [hnext]
    split <;> exact h.used u old hold
  · rw [hnext] at hle
    rw [reports_append, reports_report, h.unused u c hle, if_neg]
    · rfl
    · intro hsame
      have hused := h.used uid known hknown
      omega

theorem RegistryInv.close (h : RegistryInv events r) {uid : Int} {connId : Nat}
    (hstep : r.modify uid connId (fun entry => { entry with isClosed := true }) = some r') :
    RegistryInv (events ++ [.close uid connId]) r' := by
  obtain ⟨hnext, -, hentries⟩ := modify_spec hstep
  refine h.quiet (fun _ _ => rfl) hnext.ge fun u entry hmem => .inl ?_
  rw [hentries] at hmem
  obtain ⟨old, hold, rfl⟩ := List.mem_map.mp hmem
  refine ⟨old, hold, ?_⟩
  split <;> exact ⟨rfl, rfl, rfl⟩

theorem RegistryInv.remove (h : RegistryInv events r) (uid : Int) (connId : Nat) :
    RegistryInv (events ++ [.remove uid connId]) (r.removeConnection uid connId) := by
  have hnext : (r.removeConnection uid connId).nextConnId = r.nextConnId := by
    unfold ConnectionRegistry.removeConnection
    split <;> rfl
  refine h.quiet (fun _ _ => rfl) hnext.ge fun u entry hmem => .inl ?_
  exact ⟨entry, removeConnection_entries r uid connId u hmem, rfl, rfl, rfl⟩

end run

/-- Every report carries a positive time below 2^56. -/
def TimesInRange (events : List ConnectionEvent) : Prop :=
  ∀ uid connId state t failures, .report uid connId state t failures ∈ events →
    0 < t ∧ t < 2 ^ 56

theorem TimesInRange.reports {events : List ConnectionEvent} (h : TimesInRange events) (uid : Int)
    (connId : Nat) : ∀ report ∈ reports events uid connId, 0 < report.2 ∧ report.2 < 2 ^ 56 := by
  intro report hmem
  obtain ⟨event, hevent, hreport⟩ := List.mem_filterMap.mp hmem
  split at hreport
  · next u c state t failures =>
    split at hreport
    · rw [← Option.some.inj hreport]
      exact h u c state t failures hevent
    · cases hreport
  · cases hreport

theorem registryInv_run {events : List ConnectionEvent} {r : ConnectionRegistry}
    (htimes : TimesInRange events) (hrun : run ConnectionRegistry.step .empty events = some r) :
    RegistryInv events r := by
  induction events using List.reverseRecOn generalizing r with
  | nil => exact Option.some.inj hrun ▸ registryInv_empty
  | append_singleton events event ih =>
    obtain ⟨s, hs, hevent⟩ := run_append.mp hrun
    rw [run_single] at hevent
    have htimes' : TimesInRange events := fun uid connId state t failures hmem =>
      htimes uid connId state t failures (List.mem_append_left _ hmem)
    have hinv := ih htimes' hs
    cases event with
    | register uid now => exact Option.some.inj hevent ▸ hinv.register uid now
    | report uid connId state now failures =>
      exact hinv.report (fun u c report hmem => (htimes'.reports u c report hmem).2) hevent
    | close uid connId => exact hinv.close hevent
    | remove uid connId => exact Option.some.inj hevent ▸ hinv.remove uid connId

section presence

/-- An entry as the snapshots read it. -/
def ConnectionEntry.toConnection (entry : ConnectionEntry) : Connection where
  isClosed := entry.isClosed
  lastPingAt := entry.lastPingAt
  state := (unpackState entry.stateAndLastTransitionAt).1
  lastTransitionAt := (unpackState entry.stateAndLastTransitionAt).2

/-- The connection counts as away at some time. -/
def Connection.isAway (now : Nat) (connection : Connection) : Bool :=
  decide (connection.lastTransitionAt ≠ 0) &&
    decide (now - connection.lastTransitionAt < awayTimeoutSecs)

theorem presenceLoop_eq (now : Nat) (away : Bool) (entries : List ConnectionEntry) :
    ConnectionRegistry.presenceLoop now away entries =
      if entries.any (fun entry => entry.toConnection.state = .active) then some .active
      else if away || entries.any (fun entry => entry.toConnection.isAway now) then some .inactive
      else none := by
  induction entries generalizing away with
  | nil => cases away <;> rfl
  | cons entry entries ih =>
    unfold ConnectionRegistry.presenceLoop
    dsimp only
    split
    · next hactive =>
      have hstate : entry.toConnection.state = .active := hactive
      simp [hstate]
    · next hactive =>
      have hstate : ¬entry.toConnection.state = .active := hactive
      rw [ih, List.any_cons, List.any_cons, decide_eq_false hstate, Bool.false_or, Bool.or_assoc]
      rfl

/-- The loop over the packed words is the presence the snapshots use. -/
theorem personalPresenceAt_connections (r : ConnectionRegistry) (uid : Int) (now : Nat) :
    r.personalPresenceAt uid now =
      personalPresenceAt ((r.entries uid).map ConnectionEntry.toConnection) now := by
  unfold ConnectionRegistry.personalPresenceAt ConnectionRegistry.entries personalPresenceAt
  cases r.inner.row uid with
  | none => rfl
  | some entries =>
    rw [Option.bind_some, presenceLoop_eq, Option.getD_some, List.filter_map]
    dsimp only
    rw [List.any_map, List.any_map, Bool.false_or]
    rfl

/-- A fresh connection that is active, or that counts as away. -/
def FreshWith (now : Nat) (p : Connection → Prop) (entries : List Connection) : Prop :=
  ∃ c ∈ entries, (c.isClosed = false ∧ now - c.lastPingAt ≤ staleConnectionTimeoutSecs) ∧ p c

theorem freshWith_map (now : Nat) (p : Connection → Prop) (entries : List ConnectionEntry) :
    FreshWith now p (entries.map ConnectionEntry.toConnection) ↔
      ∃ entry ∈ entries, (entry.toConnection.isClosed = false ∧
        now - entry.toConnection.lastPingAt ≤ staleConnectionTimeoutSecs) ∧
          p entry.toConnection := by
  unfold FreshWith
  simp only [List.mem_map, exists_exists_and_eq_and]

theorem personalPresenceAt_cases (entries : List Connection) (now : Nat) :
    personalPresenceAt entries now = some .active ∧ FreshWith now (·.state = .active) entries ∨
      personalPresenceAt entries now = some .inactive ∧
        ¬FreshWith now (·.state = .active) entries ∧ FreshWith now (·.isAway now) entries ∨
      personalPresenceAt entries now = none ∧
        ¬FreshWith now (·.state = .active) entries ∧ ¬FreshWith now (·.isAway now) entries := by
  have hany : ∀ p : Connection → Bool,
      (entries.filter fun entry => !entry.isClosed &&
        decide (now - entry.lastPingAt ≤ staleConnectionTimeoutSecs)).any p = true ↔
          FreshWith now (p · = true) entries := by
    intro p
    unfold FreshWith
    simp only [List.any_eq_true, List.mem_filter, Bool.and_eq_true, Bool.not_eq_true',
      decide_eq_true_eq, and_assoc]
  have hactive := hany fun c => decide (c.state = .active)
  have haway := hany (Connection.isAway now)
  simp only [decide_eq_true_eq] at hactive
  unfold personalPresenceAt
  dsimp only
  split
  · next h => exact .inl ⟨rfl, hactive.mp h⟩
  · next h =>
    have hnone : ¬FreshWith now (·.state = .active) entries := fun h' => h (hactive.mpr h')
    split
    · next h' => exact .inr (.inl ⟨rfl, hnone, haway.mp h'⟩)
    · next h' => exact .inr (.inr ⟨rfl, hnone, fun h'' => h' (haway.mpr h'')⟩)

variable {events : List ConnectionEvent} {r : ConnectionRegistry}

/-- The packed word of an entry against the history of its connection. -/
theorem RegistryInv.toConnection (h : RegistryInv events r) (htimes : TimesInRange events)
    {uid : Int} {entry : ConnectionEntry} (hmem : entry ∈ r.entries uid) :
    (entry.toConnection.state = .active ↔
        lastState (reports events uid entry.connId) = some .active) ∧
      (lastState (reports events uid entry.connId) ≠ some .active → ∀ now,
        (entry.toConnection.isAway now = true ↔
          ∃ t, lastTransition (reports events uid entry.connId) = some t ∧
            now < t + awayTimeoutSecs)) := by
  have hrange := htimes.reports uid entry.connId
  have hword : unpackState entry.stateAndLastTransitionAt = _ :=
    (congrArg unpackState (h.entry uid entry hmem).word).trans
      (unpackState_reportedWord fun report hreport => (hrange report hreport).2)
  unfold Connection.isAway ConnectionEntry.toConnection
  rw [hword]
  dsimp only
  constructor
  · cases lastState (reports events uid entry.connId) with
    | none => simp
    | some state => simp
  · intro hlast now
    rw [if_neg hlast]
    cases htransition : lastTransition (reports events uid entry.connId) with
    | none => simp
    | some t =>
      obtain ⟨report, hreport, rfl⟩ := lastTransition_mem htransition
      have hpos := (hrange report hreport).1
      simp only [Option.getD_some, Bool.and_eq_true, decide_eq_true_eq, Option.some.injEq,
        exists_eq_left']
      unfold awayTimeoutSecs
      omega

/-- A connection without reports is neither active nor away. -/
theorem reports_ne_nil {uid : Int} {entry : ConnectionEntry}
    (h : lastState (reports events uid entry.connId) = some .active ∨
      ∃ t, lastTransition (reports events uid entry.connId) = some t) :
    ∃ report, (reports events uid entry.connId).getLast? = some report := by
  rw [← Option.isSome_iff_exists, List.getLast?_isSome]
  intro hnil
  rw [hnil] at h
  obtain h | ⟨t, h⟩ := h
  · cases h
  · cases h

theorem RegistryInv.fresh (h : RegistryInv events r) {uid : Int} {entry : ConnectionEntry}
    (hmem : entry ∈ r.entries uid)
    (hreports : ∃ report, (reports events uid entry.connId).getLast? = some report) (now : Nat) :
    (entry.toConnection.isClosed = false ∧
        now - entry.toConnection.lastPingAt ≤ staleConnectionTimeoutSecs) ↔
      Fresh events uid now entry := by
  obtain ⟨report, hreport⟩ := hreports
  have hping := (h.entry uid entry hmem).lastPing report hreport
  unfold Fresh ConnectionEntry.toConnection
  dsimp only
  rw [hreport, hping]
  simp only [Option.some.injEq, exists_eq_left', staleConnectionTimeoutSecs]
  refine and_congr_right fun _ => ?_
  omega

/-- Presence read off the reports of the connections that are open. -/
theorem personalPresenceAt_reports (htimes : TimesInRange events)
    (hrun : run ConnectionRegistry.step .empty events = some r) (uid : Int) (now : Nat) :
    let Active := ∃ entry ∈ r.entries uid, Fresh events uid now entry ∧
      lastState (reports events uid entry.connId) = some .active
    let Away := ∃ entry ∈ r.entries uid, Fresh events uid now entry ∧
      ∃ t, lastTransition (reports events uid entry.connId) = some t ∧ now < t + awayTimeoutSecs
    (r.personalPresenceAt uid now = some .active ↔ Active) ∧
      (r.personalPresenceAt uid now = some .inactive ↔ ¬Active ∧ Away) ∧
      (r.personalPresenceAt uid now = none ↔ ¬Active ∧ ¬Away) := by
  intro Active Away
  have hinv := registryInv_run htimes hrun
  have hactive : FreshWith now (·.state = .active)
      ((r.entries uid).map ConnectionEntry.toConnection) ↔ Active := by
    rw [freshWith_map]
    refine exists_congr fun entry => and_congr_right fun hmem => ?_
    rw [(hinv.toConnection htimes hmem).1]
    exact and_congr_left fun hstate => hinv.fresh hmem (reports_ne_nil (.inl hstate)) now
  have haway : ¬Active → (FreshWith now (·.isAway now)
      ((r.entries uid).map ConnectionEntry.toConnection) ↔ Away) := by
    intro hna
    rw [freshWith_map]
    refine exists_congr fun entry => and_congr_right fun hmem => ?_
    by_cases hstate : lastState (reports events uid entry.connId) = some .active
    · have hfresh := hinv.fresh hmem (reports_ne_nil (.inl hstate)) now
      have hstale : ¬Fresh events uid now entry := fun h => hna ⟨entry, hmem, h, hstate⟩
      rw [hfresh]
      simp [hstale]
    · rw [(hinv.toConnection htimes hmem).2 hstate now]
      refine and_congr_left fun ⟨t, ht, _⟩ => ?_
      exact hinv.fresh hmem (reports_ne_nil (.inr ⟨t, ht⟩)) now
  rw [personalPresenceAt_connections]
  obtain ⟨h, ha⟩ | ⟨h, hna, hw⟩ | ⟨h, hna, hnw⟩ :=
    personalPresenceAt_cases ((r.entries uid).map ConnectionEntry.toConnection) now
  · rw [h]
    simp [hactive.mp ha]
  · rw [hactive] at hna
    rw [h]
    simp [hna, (haway hna).mp hw]
  · rw [hactive] at hna
    rw [haway hna] at hnw
    rw [h]
    simp [hna, hnw]

/-- Away until five minutes after the change, whatever is reported in between. -/
theorem personalPresenceAt_reports_away :
    ∃ r, run ConnectionRegistry.step .empty
        [.register 7 1, .report 7 0 .active 1000 1, .report 7 0 .inactive 1100 0,
          .report 7 0 .inactive 1200 0] = some r ∧
      r.personalPresenceAt 7 1399 = some .inactive ∧ r.personalPresenceAt 7 1400 = none ∧
      ∃ entry ∈ r.entries 7, ∃ t, lastTransition (reports
        [.register 7 1, .report 7 0 .active 1000 1, .report 7 0 .inactive 1100 0,
          .report 7 0 .inactive 1200 0] 7 entry.connId) = some t ∧ 1399 < t + awayTimeoutSecs := by
  have htimes : TimesInRange [.register 7 1, .report 7 0 .active 1000 1,
      .report 7 0 .inactive 1100 0, .report 7 0 .inactive 1200 0] := by
    intro uid connId state t failures hmem
    simp only [List.mem_cons, List.not_mem_nil, or_false, reduceCtorEq, false_or,
      ConnectionEvent.report.injEq] at hmem
    omega
  refine ⟨_, rfl, by decide, by decide, ?_⟩
  obtain ⟨entry, hmem, -, htransition⟩ :=
    ((personalPresenceAt_reports htimes rfl 7 1399).2.1.mp (by decide)).2
  exact ⟨entry, hmem, htransition⟩

end presence

end Chahua.Presence

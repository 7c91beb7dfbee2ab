import Chahua.Framework.Table
import Chahua.Framework.Run
import Mathlib

namespace Chahua.ClientTracking

open Framework

/-- The UTC day of a `NaiveDateTime`, which counts nanoseconds from 2000-01-01. -/
def date (at' : Int) : Int := at' / 86400000000000

/-- A `TIMESTAMP` counts microseconds; the conversion drops the rest towards zero. -/
def toTimestamp (at' : Int) : Int := at'.tdiv 1000

def fromTimestamp (timestamp : Int) : Int := timestamp * 1000

/-- `timestamp::DATE`. -/
def timestampDate (timestamp : Int) : Int := timestamp / 86400000000

/-- Observations under their day and user. -/
abbrev Observations := Table (Int × Nat) Int

/-- A flush between two accesses to shared state; `rest` is what is left of its snapshot. -/
inductive Flush where
  | idle
  | running (rest : Observations)
  | committed (day : Int) (rest : Observations)

/-- What the flush still holds of its snapshot. -/
def Flush.rest : Flush → Observations
  | .idle => .empty
  | .running rest => rest
  | .committed _ rest => rest

/-- The buffer with the rows it is flushed to. `pending` holds no day without observations.
`observed`, `overlapped` (by a record, since the last snapshot) and `clean` (the last flush
succeeded and no record overlapped or followed it) are kept for the statements only. -/
structure LastSeen where
  pending : Observations
  flush : Flush
  userExtra : Table Nat Int
  activeUsers : Table Int Nat
  observed : List (Nat × Int)
  overlapped : Bool
  clean : Bool

namespace LastSeen

def init (userExtra : Table Nat Int) (activeUsers : Table Int Nat) : LastSeen where
  pending := .empty
  flush := .idle
  userExtra := userExtra
  activeUsers := activeUsers
  observed := []
  overlapped := false
  clean := false

def record (s : LastSeen) (uid : Nat) (at' : Int) : LastSeen :=
  { s with
    pending := s.pending.upsert (date at', uid)
      ((s.pending.row (date at', uid)).elim at' fun known => max known at')
    observed := s.observed ++ [(uid, at')]
    overlapped := true
    clean := false }

/-- The newest pending observation of a user, or what was read from storage. -/
def latest (s : LastSeen) (uid : Nat) (persisted : Option Int) : WithBot Int :=
  (s.pending.image (fun key _ => decide (key.2 = uid)) (fun _ known => known) ∪
    persisted.toFinset).max

/-- The database value as it is read. -/
def persisted (s : LastSeen) (uid : Nat) : Option Int := (s.userExtra.row uid).map fromTimestamp

/-- The days of a snapshot are flushed in ascending order. -/
def nextDay (rest : Observations) : Option Int := (rest.keys.image Prod.fst).min

/-- `ue.last_seen_at < incoming.last_seen_at`. -/
def candidate (rest : Observations) (day : Int) (uid : Nat) (previous : Int) : Bool :=
  (rest.row (day, uid)).any fun incoming => decide (previous < toTimestamp incoming)

/-- The statement of `flush_day` and the rollup of its count. -/
def flushDay (s : LastSeen) (day : Int) (rest : Observations) : LastSeen :=
  let activeUsers := (s.userExtra.select fun uid previous =>
    candidate rest day uid previous && decide (timestampDate previous ≠ day)).card
  { s with
    userExtra := s.userExtra.updateWhere (candidate rest day) fun uid previous =>
      (rest.row (day, uid)).elim previous fun incoming => max previous (toTimestamp incoming)
    activeUsers :=
      if activeUsers = 0 then s.activeUsers
      else s.activeUsers.upsert day ((s.activeUsers.row day).getD 0 + activeUsers)
    flush := .committed day rest }

/-- A newer observation stays pending. -/
def acknowledge (s : LastSeen) (day : Int) (rest : Observations) : LastSeen :=
  { s with
    pending := s.pending.deleteWhere fun key current =>
      decide (key.1 = day) && (rest.row key).any fun persistedAt => decide (current ≤ persistedAt)
    flush := .running (rest.deleteWhere fun key _ => decide (key.1 = day)) }

end LastSeen

inductive LastSeenEvent where
  | record (uid : Nat) (at' : Int)
  | snapshot
  | flushDay
  | acknowledge
  | finish
  | fail
  deriving DecidableEq, Repr

namespace LastSeen

/-- `flush_lock` admits one flush at a time; records run between any two of its steps. -/
def step (s : LastSeen) : LastSeenEvent → Option LastSeen
  | .record uid at' => some (s.record uid at')
  | .snapshot =>
      match s.flush with
      | .idle =>
          if s.pending.keys = ∅ then some { s with clean := true }
          else some { s with flush := .running s.pending, overlapped := false, clean := false }
      | _ => none
  | .flushDay =>
      match s.flush with
      | .running rest => (nextDay rest).map fun day => s.flushDay day rest
      | _ => none
  | .acknowledge =>
      match s.flush with
      | .committed day rest => some (s.acknowledge day rest)
      | _ => none
  | .finish =>
      match s.flush with
      | .running rest =>
          if rest.keys = ∅ then some { s with flush := .idle, clean := !s.overlapped } else none
      | _ => none
  | .fail =>
      match s.flush with
      | .running _ => some { s with flush := .idle }
      | _ => none

/-- What a step can do. -/
inductive Next (s : LastSeen) : LastSeenEvent → LastSeen → Prop where
  | record (uid : Nat) (at' : Int) : Next s (.record uid at') (s.record uid at')
  | nothing (idle : s.flush = .idle) (empty : s.pending.keys = ∅) :
      Next s .snapshot { s with clean := true }
  | snapshot (idle : s.flush = .idle) :
      Next s .snapshot { s with flush := .running s.pending, overlapped := false, clean := false }
  | flushDay (rest : Observations) (day : Int) (running : s.flush = .running rest)
      (first : nextDay rest = some day) : Next s .flushDay (s.flushDay day rest)
  | acknowledge (rest : Observations) (day : Int) (committed : s.flush = .committed day rest) :
      Next s .acknowledge (s.acknowledge day rest)
  | finish (rest : Observations) (running : s.flush = .running rest) (done : rest.keys = ∅) :
      Next s .finish { s with flush := .idle, clean := !s.overlapped }
  | fail (rest : Observations) (running : s.flush = .running rest) :
      Next s .fail { s with flush := .idle }

theorem next_of_step {s t : LastSeen} {e : LastSeenEvent} (h : s.step e = some t) : s.Next e t := by
  cases e with
  | record uid at' => exact Option.some.inj h ▸ .record uid at'
  | snapshot =>
    simp only [step] at h
    split at h
    · next hidle =>
      split at h
      · next hempty => exact Option.some.inj h ▸ .nothing hidle hempty
      · exact Option.some.inj h ▸ .snapshot hidle
    · cases h
  | flushDay =>
    simp only [step] at h
    split at h
    · next rest hrun =>
      obtain ⟨day, hday, rfl⟩ := Option.map_eq_some_iff.mp h
      exact .flushDay rest day hrun hday
    · cases h
  | acknowledge =>
    simp only [step] at h
    split at h
    · next day rest hcom => exact Option.some.inj h ▸ .acknowledge rest day hcom
    · cases h
  | finish =>
    simp only [step] at h
    split at h
    · next rest hrun =>
      split at h
      · next hdone => exact Option.some.inj h ▸ .finish rest hrun hdone
      · cases h
    · cases h
  | fail =>
    simp only [step] at h
    split at h
    · next rest hrun => exact Option.some.inj h ▸ .fail rest hrun
    · cases h

end LastSeen

theorem toTimestamp_mono {a b : Int} (h : a ≤ b) : toTimestamp a ≤ toTimestamp b :=
  Int.tdiv_le_tdiv (by decide) h

theorem date_mono {a b : Int} (h : a ≤ b) : date a ≤ date b := Int.ediv_le_ediv (by decide) h

theorem timestampDate_mono {a b : Int} (h : a ≤ b) : timestampDate a ≤ timestampDate b :=
  Int.ediv_le_ediv (by decide) h

@[simp] theorem toTimestamp_fromTimestamp (timestamp : Int) :
    toTimestamp (fromTimestamp timestamp) = timestamp :=
  Int.mul_tdiv_cancel timestamp (by decide)

/-- From the epoch on the dropped part does not change the day. -/
theorem timestampDate_toTimestamp {at' : Int} (h : 0 ≤ at') :
    timestampDate (toTimestamp at') = date at' := by
  rw [timestampDate, toTimestamp, date, Int.tdiv_eq_ediv_of_nonneg h,
    Int.ediv_ediv_of_nonneg (by decide)]
  rfl

end Chahua.ClientTracking

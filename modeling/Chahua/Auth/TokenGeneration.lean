import Chahua.Framework.ReadThrough
import Chahua.Framework.Run

namespace Chahua.Auth

open Framework

/-- Milliseconds. -/
def CACHE_TTL : Nat := 30 * 1000

def PRUNE_THRESHOLD : Nat := 4096

def PRUNE_MAX_AGE : Nat := 15 * 60 * 1000

/-- The largest value of the column. -/
def MAX_TOKEN_GEN : Int := 2 ^ 31 - 1

inductive SessionGenerationFailure where
  | Revoked
  | LookupUnavailable
  deriving DecidableEq, Repr

/-- A generation that the database has returned and the instance has not cached yet. -/
structure GenerationRead where
  server : Nat
  uid : Int
  generation : Int
  startedAt : Nat
  deriving DecidableEq, Repr

/-- The generations in `user_extra`, when each last changed, and the cache of every server. -/
structure Generations where
  now : Nat
  tokenGen : Table Int Int
  changedAt : Int → Nat
  cache : Table (Nat × Int) (CacheEntry Int)
  reads : Table Nat GenerationRead

inductive GenerationEvent where
  | tick (elapsed : Nat)
  | load (n server : Nat) (uid : Int)
  | bump (n server : Nat) (uid : Int)
  | store (n : Nat)
  deriving DecidableEq, Repr

namespace Generations

variable (s : Generations)

def load (uid : Int) : Int := (s.tokenGen.row uid).getD 0

/-- What `required_for` answers from the cache. -/
def cached (server : Nat) (uid : Int) : Option Int :=
  match s.cache.row (server, uid) with
  | some entry => if s.now - entry.storedAt < CACHE_TTL then some entry.value else none
  | none => none

def pruneStale (server : Nat) (cache : Table (Nat × Int) (CacheEntry Int)) :
    Table (Nat × Int) (CacheEntry Int) :=
  if (cache.select fun key _ => decide (key.1 = server)).card < PRUNE_THRESHOLD then cache
  else cache.deleteWhere fun key entry =>
    decide (key.1 = server) && decide (PRUNE_MAX_AGE < s.now - entry.storedAt)

def store (read : GenerationRead) : Table (Nat × Int) (CacheEntry Int) :=
  s.pruneStale read.server
    (s.cache.upsert (read.server, read.uid) ⟨read.generation, read.startedAt, s.now⟩)

/-- The upsert of `bump`; a generation at the limit of the column fails. -/
def bumpRow (n server : Nat) (uid : Int) : Option Generations :=
  if s.load uid < MAX_TOKEN_GEN then
    let generation := match s.tokenGen.row uid with
      | some old => old + 1
      | none => 1
    some { s with
      tokenGen := s.tokenGen.upsert uid generation
      changedAt := Function.update s.changedAt uid s.now
      reads := s.reads.upsert n ⟨server, uid, generation, s.now⟩ }
  else none

/-- A query and the caching of its answer are two steps, between which anything may happen. -/
def step (s : Generations) : GenerationEvent → Option Generations
  | .tick elapsed => some { s with now := s.now + elapsed }
  | .load n server uid =>
      if (s.reads.row n).isSome then none
      else some { s with reads := s.reads.upsert n ⟨server, uid, s.load uid, s.now⟩ }
  | .bump n server uid => if (s.reads.row n).isSome then none else s.bumpRow n server uid
  | .store n => (s.reads.row n).map fun read =>
      { s with cache := s.store read, reads := s.reads.erase n }

def initial (tokenGen : Table Int Int) : Generations :=
  ⟨0, tokenGen, fun _ => 0, Table.empty, Table.empty⟩

end Generations

/-- `check_session_generation_cause`, once the required generation is known. -/
def checkSessionGeneration (generation required : Int) : Except SessionGenerationFailure Unit :=
  if generation ≠ required then .error .Revoked else .ok ()

/-- A required generation as a check sees it: cached, or read within the latency. -/
def Generations.Requires (s : Generations) (latency server : Nat) (uid required : Int) : Prop :=
  s.cached server uid = some required ∨
    ∃ n read, s.reads.row n = some read ∧ read.server = server ∧ read.uid = uid ∧
      read.generation = required ∧ s.now ≤ read.startedAt + latency

/-- Every answer of the database is cached within the latency. -/
def Timely (latency : Nat) (s : Generations) : GenerationEvent → Prop
  | .store n => ∀ read, s.reads.row n = some read → s.now ≤ read.startedAt + latency
  | _ => True

namespace Generations

variable {latency : Nat} {s : Generations}

/-- The caches and the answers in flight are right unless the generation changed since, and never
ahead of it. -/
structure Sound (latency : Nat) (s : Generations) : Prop where
  cache : CacheEntry.Valid latency Prod.snd s.now s.load s.changedAt s.cache
  started : ∀ k e, s.cache.row k = some e → e.startedAt ≤ s.now ∧ e.value ≤ s.load k.2
  reads : ∀ n read, s.reads.row n = some read → read.startedAt ≤ s.now ∧
    CacheEntry.Reads s.load s.changedAt read.uid read.startedAt read.generation ∧
    read.generation ≤ s.load read.uid

theorem load_upsert (uid other generation : Int) (tokenGen : Table Int Int) :
    ((tokenGen.upsert uid generation).row other).getD 0 =
      if other = uid then generation else (tokenGen.row other).getD 0 := by
  rw [Table.upsert_row]
  split <;> rfl

theorem Sound.bumpRow {t : Generations} {n server : Nat} {uid : Int} (h : s.Sound latency)
    (ht : s.bumpRow n server uid = some t) : t.Sound latency := by
  unfold Generations.bumpRow at ht
  split at ht
  · obtain ⟨generation, hgeneration, hup⟩ : ∃ generation : Int, generation =
        (match s.tokenGen.row uid with | some old => old + 1 | none => 1) ∧
          s.load uid ≤ generation := by
      refine ⟨_, rfl, ?_⟩
      unfold Generations.load
      cases s.tokenGen.row uid <;> simp
    rw [← hgeneration] at ht
    cases ht
    have hload : ∀ other,
        s.load other ≤ ((s.tokenGen.upsert uid generation).row other).getD 0 := by
      intro other
      rw [load_upsert]
      split
      · next heq => exact heq ▸ hup
      · exact le_rfl
    have hwrite : ∀ other, ((s.tokenGen.upsert uid generation).row other).getD 0 = s.load other ∧
        Function.update s.changedAt uid s.now other = s.changedAt other ∨
          s.now ≤ Function.update s.changedAt uid s.now other := by
      intro other
      by_cases heq : other = uid
      · subst heq
        exact Or.inr (by simp)
      · exact Or.inl ⟨by rw [load_upsert, if_neg heq]; rfl, by simp [heq]⟩
    refine ⟨h.cache.write (fun k e he => (h.started k e he).1) hwrite, ?_, ?_⟩
    · intro k e he
      obtain ⟨hstarted, hle⟩ := h.started k e he
      exact ⟨hstarted, le_trans hle (hload _)⟩
    · intro m read hread
      rw [Table.upsert_row] at hread
      split at hread
      · cases hread
        refine ⟨le_rfl, ?_, ?_⟩
        · intro hlt
          simp at hlt
        · simp [Generations.load]
      · obtain ⟨hstarted, hreads, hle⟩ := h.reads m read hread
        exact ⟨hstarted, hreads.write hstarted (hwrite _), le_trans hle (hload _)⟩
  · cases ht

theorem Sound.store {read : GenerationRead} {n : Nat} (h : s.Sound latency)
    (hread : s.reads.row n = some read) (htimely : s.now ≤ read.startedAt + latency) :
    Sound latency { s with cache := s.store read, reads := s.reads.erase n } := by
  obtain ⟨hstarted, hreads, hle⟩ := h.reads n read hread
  have hnew := @CacheEntry.Valid.store _ _ _ _ _ _ _ _ _ _ h.cache (read.server, read.uid)
    read.generation read.startedAt htimely hreads
  have hentries : ∀ k e, (s.cache.upsert (read.server, read.uid)
      ⟨read.generation, read.startedAt, s.now⟩).row k = some e →
        e.startedAt ≤ s.now ∧ e.value ≤ s.load k.2 := by
    intro k e he
    rw [Table.upsert_row] at he
    split at he
    · next hk =>
      cases he
      exact ⟨hstarted, hk ▸ hle⟩
    · exact h.started k e he
  refine ⟨?_, ?_, fun m r hr => h.reads m r (Table.row_of_erase hr).2⟩
  · unfold Generations.store pruneStale
    split
    · exact hnew
    · exact hnew.evict _
  · intro k e he
    simp only [Generations.store, pruneStale] at he
    split at he
    · exact hentries k e he
    · rw [Table.deleteWhere_row, Option.filter_eq_some_iff] at he
      exact hentries k e he.1

theorem sound_step (s : Generations) (e : GenerationEvent) (t : Generations)
    (h : s.Sound latency) (htimely : Timely latency s e) (hstep : s.step e = some t) :
    t.Sound latency := by
  cases e with
  | tick elapsed =>
    cases hstep
    refine ⟨h.cache.tick elapsed, ?_, ?_⟩
    · intro k e he
      obtain ⟨hstarted, hle⟩ := h.started k e he
      exact ⟨Nat.le_add_right_of_le hstarted, hle⟩
    · intro n read hread
      obtain ⟨hstarted, hrest⟩ := h.reads n read hread
      exact ⟨Nat.le_add_right_of_le hstarted, hrest⟩
  | load n server uid =>
    simp only [step] at hstep
    split at hstep
    · cases hstep
    · cases hstep
      refine ⟨h.cache, h.started, ?_⟩
      intro m read hread
      rw [Table.upsert_row] at hread
      split at hread
      · cases hread
        exact ⟨le_rfl, fun _ => rfl, le_rfl⟩
      · exact h.reads m read hread
  | bump n server uid =>
    simp only [step] at hstep
    split at hstep
    · cases hstep
    · exact h.bumpRow hstep
  | store n =>
    obtain ⟨read, hread, rfl⟩ := Option.map_eq_some_iff.mp hstep
    exact h.store hread (htimely read hread)

theorem sound_initial (tokenGen : Table Int Int) : (initial tokenGen).Sound latency := by
  refine ⟨CacheEntry.valid_empty, ?_, ?_⟩
  · intro k e he
    cases he
  · intro n read hread
    cases hread

theorem cached_eq_some {server : Nat} {uid required : Int}
    (h : s.cached server uid = some required) :
    ∃ entry, s.cache.row (server, uid) = some entry ∧ entry.value = required ∧
      s.now - entry.storedAt < CACHE_TTL := by
  unfold cached at h
  split at h
  · next entry hentry =>
    split at h
    · next hfresh => exact ⟨entry, hentry, Option.some.inj h, hfresh⟩
    · cases h
  · cases h

end Generations

/-- A bump is honoured by every server once the cache time and the latency of a query have passed:
from then on a check passes exactly for the stored generation. At no time does a check pass for
a generation that has not been stored. -/
theorem revocation_lag {latency : Nat} {tokenGen : Table Int Int} {s : Generations}
    {es : List GenerationEvent}
    (htimely : Along Generations.step (Timely latency) (Generations.initial tokenGen) es)
    (hrun : run Generations.step (Generations.initial tokenGen) es = some s)
    {server : Nat} {uid required generation : Int} (h : s.Requires latency server uid required) :
    (s.changedAt uid + CACHE_TTL + latency < s.now →
      (checkSessionGeneration generation required = .ok () ↔ generation = s.load uid)) ∧
    (checkSessionGeneration generation required = .ok () → generation ≤ s.load uid) := by
  have hsound := run_invariant_along Generations.sound_step
    (@Generations.sound_initial latency tokenGen) htimely hrun
  have hpass : checkSessionGeneration generation required = .ok () ↔ generation = required := by
    unfold checkSessionGeneration
    split <;> simp_all
  rw [hpass]
  rcases h with hcached | ⟨n, read, hread, -, rfl, rfl, hlatency⟩
  · obtain ⟨entry, hentry, rfl, hfresh⟩ := Generations.cached_eq_some hcached
    have hstored := (hsound.cache.stored _ entry hentry).1
    refine ⟨fun hlag => ?_, fun heq => heq ▸ (hsound.started _ entry hentry).2⟩
    rw [hsound.cache.value_eq hentry (show s.changedAt uid + latency < entry.storedAt by omega)]
  · obtain ⟨-, hreads, hle⟩ := hsound.reads n read hread
    refine ⟨fun hlag => ?_, fun heq => heq ▸ hle⟩
    rw [hreads (by omega)]

/-- One server revokes the sessions of a user; another answers from its cache much later. -/
def revokedElsewhere : List GenerationEvent :=
  [.load 0 1 7, .store 0, .bump 1 2 7, .store 1, .tick 40000, .load 2 1 7, .store 2]

theorem revokedElsewhere_lag : ∃ s, run Generations.step (Generations.initial Table.empty)
    revokedElsewhere = some s ∧ s.load 7 = 1 ∧ checkSessionGeneration 1 1 = .ok () ∧
      ¬checkSessionGeneration 0 1 = .ok () := by
  have hrun : ((run Generations.step (Generations.initial Table.empty) revokedElsewhere).map
      fun s => (s.cached 1 7, s.changedAt 7, s.now, s.load 7)) = some (some 1, 0, 40000, 1) := by
    decide +kernel
  have htimely : Along Generations.step (Timely 5) (Generations.initial Table.empty)
      revokedElsewhere := by
    refine Along.cons rfl trivial (Along.cons rfl ?_ (Along.cons rfl trivial (Along.cons rfl ?_
      (Along.cons rfl trivial (Along.cons rfl trivial (Along.cons rfl ?_ trivial))))))
    all_goals
      intro read hread
      cases hread
      decide
  obtain ⟨s, hs, heq⟩ := Option.map_eq_some_iff.mp hrun
  simp only [Prod.mk.injEq] at heq
  obtain ⟨hcached, hchanged, hnow, hload⟩ := heq
  have hlag : s.changedAt 7 + CACHE_TTL + 5 < s.now := by
    rw [hchanged, hnow]
    decide
  refine ⟨s, hs, hload, ?_, ?_⟩
  · exact ((revocation_lag htimely hs (Or.inl hcached)).1 hlag).mpr hload.symm
  · intro hpass
    have hzero := ((revocation_lag htimely hs (Or.inl hcached)).1 hlag).mp hpass
    rw [hload] at hzero
    cases hzero

end Chahua.Auth

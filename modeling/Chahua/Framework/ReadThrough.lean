import Chahua.Framework.Table

namespace Framework

/-- A cached value, with the times its read started and it was stored. -/
structure CacheEntry (V : Type*) where
  value : V
  startedAt : Nat
  storedAt : Nat

namespace CacheEntry

variable {J K V : Type*} {latency now : Nat} {origin : K → J} {source source' : J → V}
  {changedAt changedAt' : J → Nat} {cache : Table K (CacheEntry V)}

/-- A read is current when its source has not changed since the read started. -/
def Reads (source : J → V) (changedAt : J → Nat) (j : J) (startedAt : Nat) (value : V) : Prop :=
  changedAt j < startedAt → value = source j

/-- The entries of a read-through cache: each was stored within the latency of its read, and is
right unless its source changed after the read started. -/
structure Valid (latency : Nat) (origin : K → J) (now : Nat) (source : J → V)
    (changedAt : J → Nat) (cache : Table K (CacheEntry V)) : Prop where
  stored : ∀ k e, cache.row k = some e → e.storedAt ≤ now ∧ e.storedAt ≤ e.startedAt + latency
  reads : ∀ k e, cache.row k = some e → Reads source changedAt (origin k) e.startedAt e.value

theorem Reads.write {j : J} {startedAt : Nat} {value : V}
    (h : Reads source changedAt j startedAt value) (hstarted : startedAt ≤ now)
    (hwrite : source' j = source j ∧ changedAt' j = changedAt j ∨ now ≤ changedAt' j) :
    Reads source' changedAt' j startedAt value := by
  intro hlt
  rcases hwrite with ⟨hsource, hchanged⟩ | hnow
  · rw [hsource]
    exact h (hchanged ▸ hlt)
  · omega

theorem valid_empty : Valid latency origin now source changedAt Table.empty := by
  constructor <;> intro k e he <;> cases he

theorem Valid.tick (h : Valid latency origin now source changedAt cache) (d : Nat) :
    Valid latency origin (now + d) source changedAt cache := by
  refine ⟨fun k e he => ?_, h.reads⟩
  obtain ⟨hnow, hlatency⟩ := h.stored k e he
  exact ⟨by omega, hlatency⟩

/-- A write to the source leaves the entries of the other keys right, and dates its own. -/
theorem Valid.write (h : Valid latency origin now source changedAt cache)
    (hstarted : ∀ k e, cache.row k = some e → e.startedAt ≤ now)
    (hwrite : ∀ j, source' j = source j ∧ changedAt' j = changedAt j ∨ now ≤ changedAt' j) :
    Valid latency origin now source' changedAt' cache :=
  ⟨h.stored, fun k e he => (h.reads k e he).write (hstarted k e he) (hwrite _)⟩

theorem Valid.store [DecidableEq K] (h : Valid latency origin now source changedAt cache) {k : K}
    {value : V} {startedAt : Nat}
    (hlatency : now ≤ startedAt + latency)
    (hreads : Reads source changedAt (origin k) startedAt value) :
    Valid latency origin now source changedAt (cache.upsert k ⟨value, startedAt, now⟩) := by
  constructor
  · intro j e he
    rw [Table.upsert_row] at he
    split at he
    · cases he
      exact ⟨le_rfl, hlatency⟩
    · exact h.stored j e he
  · intro j e he
    rw [Table.upsert_row] at he
    split at he
    · next hj =>
      cases he
      rw [hj]
      exact hreads
    · exact h.reads j e he

theorem Valid.evict (h : Valid latency origin now source changedAt cache)
    (p : K → CacheEntry V → Bool) :
    Valid latency origin now source changedAt (cache.deleteWhere p) := by
  have hof : ∀ k e, (cache.deleteWhere p).row k = some e → cache.row k = some e := by
    intro k e he
    rw [Table.deleteWhere_row, Option.filter_eq_some_iff] at he
    exact he.1
  exact ⟨fun k e he => h.stored k e (hof k e he), fun k e he => h.reads k e (hof k e he)⟩

/-- An entry stored later than the latency after the last change is what the source holds. -/
theorem Valid.value_eq (h : Valid latency origin now source changedAt cache) {k : K}
    {e : CacheEntry V} (he : cache.row k = some e)
    (hlate : changedAt (origin k) + latency < e.storedAt) : e.value = source (origin k) := by
  obtain ⟨-, hlatency⟩ := h.stored k e he
  exact h.reads k e he (by omega)

end CacheEntry

end Framework

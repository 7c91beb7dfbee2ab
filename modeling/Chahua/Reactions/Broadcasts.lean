import Chahua.Framework.Run
import Chahua.Framework.Table

namespace Chahua.Reactions

open Framework

/-- What a call that passed its checks still has to do; the insert transaction is one statement. -/
inductive Statement where
  | insert (uid : Int) (emoji : String)
  | delete (uid : Int) (emoji : String)
  | countRemaining
  | clearFlag
  | readCounts
  | broadcast
  deriving DecidableEq, Repr

/-- One live message, its reactions and the calls on it. -/
structure State where
  reactions : Finset (Int × String)
  hasReactions : Bool
  calls : Nat → Option Statement
  /-- What calls have read and not sent yet, in the order of the reads. -/
  unsent : List (Nat × Table String Nat)
  /-- `ReactionUpdated` payloads, the last one first. -/
  broadcasts : List (Table String Nat)

/-- `GROUP BY emoji` with `COUNT(*)`. -/
def counts (reactions : Finset (Int × String)) : Table String Nat :=
  .tabulate (reactions.image Prod.snd) fun emoji => (reactions.filter (·.2 = emoji)).card

theorem counts_empty : counts ∅ = .empty := rfl

inductive Event where
  | putReaction (call : Nat) (uid : Int) (emoji : String)
  | deleteReaction (call : Nat) (uid : Int) (emoji : String)
  | next (call : Nat) (fails : Bool)

namespace State

def goTo (s : State) (call : Nat) (statement : Option Statement) : State :=
  { s with calls := fun other => if other = call then statement else s.calls other }

@[simp] theorem goTo_reactions (s : State) (call : Nat) (statement : Option Statement) :
    (s.goTo call statement).reactions = s.reactions := rfl

@[simp] theorem goTo_hasReactions (s : State) (call : Nat) (statement : Option Statement) :
    (s.goTo call statement).hasReactions = s.hasReactions := rfl

@[simp] theorem goTo_unsent (s : State) (call : Nat) (statement : Option Statement) :
    (s.goTo call statement).unsent = s.unsent := rfl

@[simp] theorem goTo_broadcasts (s : State) (call : Nat) (statement : Option Statement) :
    (s.goTo call statement).broadcasts = s.broadcasts := rfl

theorem goTo_calls (s : State) (call : Nat) (statement : Option Statement) (other : Nat) :
    (s.goTo call statement).calls other = if other = call then statement else s.calls other := rfl

def begin (s : State) (call : Nat) (statement : Statement) : Option State :=
  match s.calls call with
  | none => some (s.goTo call (some statement))
  | some _ => none

/-- `insert_reaction`: the flag and the row commit together; a second put keeps the row. -/
def insertReaction (s : State) (uid : Int) (emoji : String) : State :=
  { s with hasReactions := true, reactions := insert (uid, emoji) s.reactions }

@[simp] theorem insertReaction_calls (s : State) (uid : Int) (emoji : String) :
    (s.insertReaction uid emoji).calls = s.calls := rfl

/-- One statement of a call. A count that fails is taken for zero and counts that fail for none, an
announcement whose members cannot be read goes to nobody, and any other failure ends the call. -/
def execute (s : State) (call : Nat) (fails : Bool) : Statement → Option State
  | .insert uid emoji =>
    some (if fails then s.goTo call none
      else (s.insertReaction uid emoji).goTo call (some .readCounts))
  | .delete uid emoji =>
    if fails then some (s.goTo call none)
    else if (uid, emoji) ∈ s.reactions then
      some ({ s with reactions := s.reactions.erase (uid, emoji) }.goTo call (some .countRemaining))
    else some (s.goTo call none)
  | .countRemaining =>
    let remaining := if fails then 0 else s.reactions.card
    some (s.goTo call (some (if remaining = 0 then .clearFlag else .readCounts)))
  | .clearFlag =>
    some (if fails then s.goTo call none
      else { s with hasReactions := false }.goTo call (some .readCounts))
  | .readCounts =>
    let read := if fails then .empty else counts s.reactions
    some ({ s with unsent := s.unsent ++ [(call, read)] }.goTo call (some .broadcast))
  | .broadcast =>
    (s.unsent.find? (·.1 == call)).map fun read =>
      { s with
        unsent := s.unsent.eraseP (·.1 == call)
        broadcasts := if fails then s.broadcasts else read.2 :: s.broadcasts }.goTo call none

end State

def step (s : State) : Event → Option State
  | .putReaction call uid emoji => s.begin call (.insert uid emoji)
  | .deleteReaction call uid emoji => s.begin call (.delete uid emoji)
  | .next call fails => (s.calls call).bind (s.execute call fails)

namespace State

def Quiescent (s : State) : Prop := ∀ call, s.calls call = none

/-- No call runs, the flag tells whether there is a row and the last broadcast is current. -/
def Settled (s : State) : Prop :=
  (s.hasReactions = true ↔ s.reactions.Nonempty) ∧
    ∀ last, s.broadcasts.head? = some last → last = counts s.reactions

/-- A flag is only cleared of a message without rows and no clear fails, counts are read unless
there is no row, and broadcasts reach the members in the order in which their counts were read. -/
def Unraced (s : State) : Event → Prop
  | .next call fails =>
    (s.calls call = some .clearFlag → fails = false ∧ s.reactions = ∅) ∧
      (s.calls call = some .readCounts → fails = true → s.reactions = ∅) ∧
      (s.calls call = some .broadcast →
        fails = false ∧ s.unsent.head?.map Prod.fst = some call)
  | _ => True

instance (s : State) (event : Event) : Decidable (s.Unraced event) :=
  match event with
  | .putReaction .. | .deleteReaction .. => inferInstanceAs (Decidable True)
  | .next .. => inferInstanceAs (Decidable ((_ → _ ∧ _) ∧ (_ → _ → _) ∧ (_ → _ ∧ _)))

/-- A call that will read the counts again. -/
def Rereads (s : State) : Prop :=
  ∃ call, s.calls call = some .countRemaining ∨ s.calls call = some .clearFlag ∨
    s.calls call = some .readCounts

def Clears (s : State) : Prop :=
  ∃ call, s.calls call = some .countRemaining ∨ s.calls call = some .clearFlag

/-- The counts read last, sent or not. -/
def lastRead (s : State) : Option (Table String Nat) :=
  match s.unsent.getLast? with
  | some read => some read.2
  | none => s.broadcasts.head?

structure Inv (s : State) : Prop where
  flagged : s.reactions.Nonempty → s.hasReactions = true
  cleared : s.reactions = ∅ → s.hasReactions = false ∨ s.Clears
  current : s.Rereads ∨ ∀ last, s.lastRead = some last → last = counts s.reactions
  waiting : ∀ read ∈ s.unsent, s.calls read.1 = some .broadcast
  once : (s.unsent.map Prod.fst).Nodup

variable {s t : State} {call : Nat}

theorem goTo_self (s : State) (call : Nat) (statement : Option Statement) :
    (s.goTo call statement).calls call = statement := by
  simp [goTo_calls]

theorem Clears.goTo (h : s.Clears) (call : Nat) (statement : Option Statement)
    (hcount : s.calls call ≠ some .countRemaining) (hclear : s.calls call ≠ some .clearFlag) :
    (s.goTo call statement).Clears := by
  obtain ⟨other, hother⟩ := h
  have hne : other ≠ call := by
    intro heq
    subst heq
    exact hother.elim hcount hclear
  exact ⟨other, by rwa [goTo_calls, if_neg hne]⟩

theorem Rereads.goTo (h : s.Rereads) (call : Nat) (statement : Option Statement)
    (hcount : s.calls call ≠ some .countRemaining) (hclear : s.calls call ≠ some .clearFlag)
    (hread : s.calls call ≠ some .readCounts) : (s.goTo call statement).Rereads := by
  obtain ⟨other, hother⟩ := h
  have hne : other ≠ call := by
    intro heq
    subst heq
    exact hother.elim hcount fun h => h.elim hclear hread
  exact ⟨other, by rwa [goTo_calls, if_neg hne]⟩

theorem waiting_goTo (h : s.Inv) (call : Nat) (statement : Option Statement)
    (hcall : s.calls call ≠ some .broadcast) :
    ∀ read ∈ s.unsent, (s.goTo call statement).calls read.1 = some .broadcast := by
  intro read hread
  have hwait := h.waiting read hread
  have hne : read.1 ≠ call := by
    intro heq
    exact hcall (heq ▸ hwait)
  rw [goTo_calls, if_neg hne, hwait]

/-- A call that neither clears nor rereads moves on without a write. -/
theorem Inv.goTo (h : s.Inv) {statement : Option Statement}
    (hcount : s.calls call ≠ some .countRemaining) (hclear : s.calls call ≠ some .clearFlag)
    (hread : s.calls call ≠ some .readCounts) (hcall : s.calls call ≠ some .broadcast) :
    (s.goTo call statement).Inv where
  flagged := h.flagged
  cleared := fun hempty => (h.cleared hempty).imp id fun hc => hc.goTo call statement hcount hclear
  current := h.current.imp (fun hr => hr.goTo call statement hcount hclear hread) id
  waiting := waiting_goTo h call statement hcall
  once := h.once

theorem Inv.begin (h : s.Inv) {statement : Statement} (ht : s.begin call statement = some t) :
    t.Inv := by
  unfold State.begin at ht
  split at ht
  · next hidle =>
    cases ht
    apply h.goTo <;> simp [hidle]
  · cases ht

theorem Inv.insert (h : s.Inv) {uid : Int} {emoji : String}
    (hcall : s.calls call = some (.insert uid emoji)) :
    ((s.insertReaction uid emoji).goTo call (some .readCounts)).Inv where
  flagged := fun _ => rfl
  cleared := fun hempty => absurd hempty (Finset.insert_ne_empty _ _)
  current := .inl ⟨call, .inr (.inr (goTo_self _ _ _))⟩
  waiting := by
    have hmoved := waiting_goTo h call (some .readCounts) (by simp [hcall])
    exact hmoved
  once := h.once

theorem Inv.delete (h : s.Inv) {uid : Int} {emoji : String}
    (hcall : s.calls call = some (.delete uid emoji)) :
    ({ s with reactions := s.reactions.erase (uid, emoji) }.goTo call (some .countRemaining)).Inv where
  flagged := fun hrest => h.flagged (hrest.mono (Finset.erase_subset _ _))
  cleared := fun _ => .inr ⟨call, .inl (goTo_self _ _ _)⟩
  current := .inl ⟨call, .inl (goTo_self _ _ _)⟩
  waiting := by
    have hmoved := waiting_goTo h call (some .countRemaining) (by simp [hcall])
    exact hmoved
  once := h.once

/-- The count of the remaining rows decides whether the flag is to be cleared. -/
theorem Inv.countRemaining (h : s.Inv) (hcall : s.calls call = some .countRemaining)
    {remaining : Nat} (hnone : s.reactions = ∅ → remaining = 0) :
    (s.goTo call (some (if remaining = 0 then .clearFlag else .readCounts))).Inv where
  flagged := h.flagged
  cleared := by
    intro hempty
    exact .inr ⟨call, .inr (by rw [goTo_self, if_pos (hnone hempty)])⟩
  current := by
    refine .inl ⟨call, .inr ?_⟩
    rw [goTo_self]
    split
    · exact .inl rfl
    · exact .inr rfl
  waiting := waiting_goTo h call _ (by simp [hcall])
  once := h.once

theorem Inv.clearFlag (h : s.Inv) (hcall : s.calls call = some .clearFlag)
    (hempty : s.reactions = ∅) :
    ({ s with hasReactions := false }.goTo call (some .readCounts)).Inv where
  flagged := fun hrow => absurd hempty hrow.ne_empty
  cleared := fun _ => .inl rfl
  current := .inl ⟨call, .inr (.inr (goTo_self _ _ _))⟩
  waiting := by
    have hmoved := waiting_goTo h call (some .readCounts) (by simp [hcall])
    exact hmoved
  once := h.once

theorem Inv.readCounts (h : s.Inv) (hcall : s.calls call = some .readCounts)
    {read : Table String Nat} (hread : read = counts s.reactions) :
    ({ s with unsent := s.unsent ++ [(call, read)] }.goTo call (some .broadcast)).Inv where
  flagged := h.flagged
  cleared := by
    intro hempty
    refine (h.cleared hempty).imp id fun hc => ?_
    have hmoved := hc.goTo call (some .broadcast) (by simp [hcall])
      (by simp [hcall])
    exact hmoved
  current := by
    refine .inr fun last hlast => ?_
    simp only [lastRead, goTo_unsent, List.getLast?_concat, Option.some.injEq] at hlast
    exact hlast.symm.trans hread
  waiting := by
    intro read hread
    rcases List.mem_append.mp hread with hold | hnew
    · have hmoved := waiting_goTo h call (some .broadcast) (by simp [hcall])
      exact hmoved read hold
    · obtain rfl := List.mem_singleton.mp hnew
      exact goTo_self _ _ _
  once := by
    rw [goTo_unsent, List.map_append, List.nodup_append]
    refine ⟨h.once, List.nodup_singleton _, ?_⟩
    intro a ha b hb heq
    obtain ⟨read, hread, rfl⟩ := List.mem_map.mp ha
    obtain rfl := List.mem_singleton.mp hb
    have hwait := h.waiting read hread
    rw [heq, hcall] at hwait
    cases hwait

/-- A broadcast in turn leaves the counts read last as they were. -/
theorem Inv.broadcast (h : s.Inv) (hcall : s.calls call = some .broadcast)
    (hturn : s.unsent.head?.map Prod.fst = some call) (ht : s.execute call false .broadcast = some t) :
    t.Inv := by
  obtain ⟨read, hhead, rfl⟩ := Option.map_eq_some_iff.mp hturn
  obtain ⟨rest, hunsent⟩ := List.head?_eq_some_iff.mp hhead
  have hstep :
      t = { s with unsent := rest, broadcasts := read.2 :: s.broadcasts }.goTo read.1 none := by
    simpa [execute, hunsent] using ht.symm
  have honce := h.once
  rw [hunsent, List.map_cons, List.nodup_cons] at honce
  subst hstep
  refine ⟨h.flagged, fun hempty => ?_, ?_, fun other hother => ?_, honce.2⟩
  · refine (h.cleared hempty).imp id fun hc => ?_
    have hmoved := hc.goTo read.1 none (by simp [hcall]) (by simp [hcall])
    exact hmoved
  · refine h.current.imp (fun hr => ?_) fun hcurrent last hlast => hcurrent last ?_
    · have hmoved := hr.goTo read.1 none (by simp [hcall])
        (by simp [hcall]) (by simp [hcall])
      exact hmoved
    · rw [lastRead, hunsent, List.getLast?_cons]
      rw [lastRead, goTo_unsent, goTo_broadcasts] at hlast
      cases hrest : rest.getLast? with
      | none => simpa [hrest] using hlast
      | some other => simpa [hrest] using hlast
  · have hwait := h.waiting other (by rw [hunsent]; exact List.mem_cons_of_mem _ hother)
    have hne : other.1 ≠ read.1 := by
      intro heq
      exact honce.1 (heq ▸ List.mem_map_of_mem hother)
    rw [goTo_calls, if_neg hne]
    exact hwait

theorem Inv.step (h : s.Inv) {event : Event} (hok : s.Unraced event)
    (ht : step s event = some t) : t.Inv := by
  cases event with
  | putReaction call uid emoji => exact h.begin ht
  | deleteReaction call uid emoji => exact h.begin ht
  | next call fails =>
    obtain ⟨statement, hcall, ht⟩ := Option.bind_eq_some_iff.mp ht
    obtain ⟨hclear, hcounts, hturn⟩ := hok
    cases statement with
    | insert uid emoji =>
      simp only [execute] at ht
      split at ht
      · apply Option.some.inj ht ▸ h.goTo <;> simp [hcall]
      · exact Option.some.inj ht ▸ h.insert hcall
    | delete uid emoji =>
      simp only [execute] at ht
      split at ht
      · apply Option.some.inj ht ▸ h.goTo <;> simp [hcall]
      split at ht
      · exact Option.some.inj ht ▸ h.delete hcall
      · apply Option.some.inj ht ▸ h.goTo <;> simp [hcall]
    | countRemaining =>
      refine Option.some.inj ht ▸ h.countRemaining hcall fun hempty => ?_
      simp [hempty]
    | clearFlag =>
      obtain ⟨rfl, hempty⟩ := hclear hcall
      exact Option.some.inj ht ▸ h.clearFlag hcall hempty
    | readCounts =>
      refine Option.some.inj ht ▸ h.readCounts hcall ?_
      split
      · next hfails => rw [hcounts hcall hfails, counts_empty]
      · rfl
    | broadcast =>
      obtain ⟨rfl, hhead⟩ := hturn hcall
      exact h.broadcast hcall hhead ht

theorem Inv.of_settled (hsettled : s.Settled) (hunsent : s.unsent = []) : s.Inv where
  flagged := hsettled.1.mpr
  cleared := by
    intro hempty
    refine .inl (Bool.eq_false_iff.mpr fun hflag => ?_)
    exact (hsettled.1.mp hflag).ne_empty hempty
  current := .inr (by simpa [lastRead, hunsent] using hsettled.2)
  waiting := by simp [hunsent]
  once := by simp [hunsent]

theorem Inv.settled (h : s.Inv) (hquiet : s.Quiescent) : s.Settled := by
  have hunsent : s.unsent = [] := by
    apply List.eq_nil_iff_forall_not_mem.mpr
    intro read hread
    have hwait := h.waiting read hread
    rw [hquiet] at hwait
    cases hwait
  refine ⟨⟨fun hflag => ?_, h.flagged⟩, ?_⟩
  · rw [Finset.nonempty_iff_ne_empty]
    intro hempty
    rcases h.cleared hempty with hfalse | ⟨call, hcall⟩
    · rw [hflag] at hfalse
      cases hfalse
    · simp [hquiet call] at hcall
  · rcases h.current with ⟨call, hcall⟩ | hcurrent
    · simp [hquiet call] at hcall
    · simpa [lastRead, hunsent] using hcurrent

end State

/-- After any run of puts and deletes, failing statements among theirs, in which no clear fails or
races an insert, no counts are lost and no broadcast overtakes one of an earlier read, the flag and
the last broadcast agree with the rows. -/
theorem settled_after_run (s t : State) (events : List Event) (hsettled : s.Settled)
    (hunsent : s.unsent = []) (hok : Along step State.Unraced s events)
    (hrun : run step s events = some t) (hend : t.Quiescent) : t.Settled := by
  have hinv : t.Inv := run_invariant_along (fun s e t hs hok ht => State.Inv.step hs hok ht)
    (State.Inv.of_settled hsettled hunsent) hok hrun
  exact hinv.settled hend

/-- A message that user 1 has reacted to, at rest. -/
def oneReaction : State where
  reactions := {(1, "👍")}
  hasReactions := true
  calls := fun _ => none
  unsent := []
  broadcasts := []

theorem oneReaction_settled : oneReaction.Settled := by
  refine ⟨by simp [oneReaction], ?_⟩
  simp [oneReaction]

/-- A put that fails, and a delete that begins while another put has still to broadcast. -/
def putsAndDelete : List Event :=
  [.putReaction 0 2 "👍", .next 0 false, .putReaction 1 3 "👍", .next 1 true,
    .deleteReaction 2 1 "👍", .next 2 false, .next 0 false, .next 2 false, .next 0 false,
    .next 2 false, .next 2 false]

theorem settled_after_run_put : ∃ t, run step oneReaction putsAndDelete = some t ∧ t.Settled := by
  refine ⟨_, rfl, ?_⟩
  apply settled_after_run oneReaction _ putsAndDelete oneReaction_settled rfl ?_ rfl
  · intro call
    by_cases h : call = 0 <;> by_cases h1 : call = 1 <;> by_cases h2 : call = 2 <;>
      simp [State.goTo_calls, oneReaction, h, h1, h2]
  · apply Along.cons rfl trivial
    apply Along.cons rfl (by decide)
    apply Along.cons rfl trivial
    apply Along.cons rfl (by decide)
    apply Along.cons rfl trivial
    apply Along.cons rfl (by decide)
    apply Along.cons rfl (by decide)
    apply Along.cons rfl (by decide)
    apply Along.cons rfl (by decide)
    apply Along.cons rfl (by decide)
    exact Along.cons rfl (by decide) trivial

/-- A put between the count and the clear of a delete loses the flag; a put between the read and
the broadcast of another is missing from the last broadcast; counts that cannot be read are
announced as none. -/
theorem reaction_writes_race :
    (∃ t, run step oneReaction [.deleteReaction 0 1 "👍", .next 0 false, .next 0 false,
          .putReaction 1 2 "👍", .next 1 false, .next 0 false, .next 0 false, .next 0 false,
          .next 1 false, .next 1 false] = some t ∧
        t.Quiescent ∧ t.hasReactions = false ∧ (2, "👍") ∈ t.reactions) ∧
      (∃ t, run step oneReaction [.putReaction 0 2 "👍", .putReaction 1 3 "👍", .next 0 false,
          .next 0 false, .next 1 false, .next 1 false, .next 1 false, .next 0 false] = some t ∧
        t.Quiescent ∧ (t.broadcasts.head?.bind (·.row "👍")) = some 2 ∧
          (counts t.reactions).row "👍" = some 3) ∧
      ∃ t, run step oneReaction [.putReaction 0 2 "👍", .next 0 false, .next 0 true,
          .next 0 false] = some t ∧
        t.Quiescent ∧ (t.broadcasts.head?.map (·.row "👍")) = some none ∧
          (counts t.reactions).row "👍" = some 2 := by
  refine ⟨⟨_, rfl, ?_, rfl, by decide⟩, ⟨_, rfl, ?_, by decide, by decide⟩, _, rfl, ?_, by decide,
    by decide⟩
  · intro call
    by_cases h : call = 0 <;> by_cases h1 : call = 1 <;> simp [State.goTo_calls, oneReaction, h, h1]
  · intro call
    by_cases h : call = 0 <;> by_cases h1 : call = 1 <;> simp [State.goTo_calls, oneReaction, h, h1]
  · intro call
    by_cases h : call = 0 <;> simp [State.goTo_calls, oneReaction, h]

end Chahua.Reactions

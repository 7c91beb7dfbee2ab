import Chahua.Mentions.MentionText
import Mathlib

namespace Chahua.Mentions

/-- The length of the longest common prefix. -/
def sharedPrefix : List Char → List Char → Nat
  | a :: as, b :: bs => if a = b then sharedPrefix as bs + 1 else 0
  | _, _ => 0

/-- The occurrences of a text in another from some index on, in order. -/
def occurrences (haystack needle : List Char) (start : Nat) : List Nat :=
  (List.range (haystack.length + 1)).filter fun i =>
    decide (start ≤ i) && needle.isPrefixOf (haystack.drop i)

def distance (a b : Nat) : Nat := (a - b) + (b - a)

/-- The first of the occurrences closest to the hint. -/
def indexOfClosestSubstring (haystack needle : List Char) (hint start : Nat) : Option Nat :=
  (occurrences haystack needle start).foldl (fun best i =>
    match best with
    | none => some i
    | some b => if distance i hint < distance b hint then some i else some b) none

/-- The loop over the mentions, with where the next search in the new middle starts. -/
def relocate (previousText nextText changedNew : List Char) (changeStart changeEnd : Nat) :
    List MentionSpan → Nat → List MentionSpan
  | [], _ => []
  | entry :: entries, searchStart =>
      let later := relocate previousText nextText changedNew changeStart changeEnd entries
      if entry.stop ≤ changeStart then entry :: later searchStart
      else if changeEnd ≤ entry.start then
        { entry with
          start := entry.start + nextText.length - previousText.length
          stop := entry.stop + nextText.length - previousText.length } :: later searchStart
      else if changeStart ≤ entry.start ∧ entry.stop ≤ changeEnd then
        let raw := slice previousText entry.start entry.stop
        match indexOfClosestSubstring changedNew raw (entry.start - changeStart) searchStart with
        | some found =>
            { entry with
              start := changeStart + found
              stop := changeStart + found + raw.length } :: later (found + raw.length)
        | none => later searchStart
      else later searchStart

/-- Shared characters must not split a mention. -/
def changeStart (previous : EditableText) (nextText : List Char) : Nat :=
  let shared := sharedPrefix previous.text nextText
  match previous.mentions.find? fun entry =>
      decide (entry.start < shared) && decide (shared < entry.stop) with
  | some splitMention => splitMention.start
  | none => shared

/-- What is shared at the end, besides the shared start. -/
def sharedSuffix (previousText nextText : List Char) (start : Nat) : Nat :=
  min (min previousText.length nextText.length - start)
    (sharedPrefix previousText.reverse nextText.reverse)

def relocateMentions (previous : EditableText) (nextText : List Char) : List MentionSpan :=
  if previous.mentions = [] ∨ previous.text = nextText then previous.mentions
  else
    let start := changeStart previous nextText
    let suffix := sharedSuffix previous.text nextText start
    relocate previous.text nextText (slice nextText start (nextText.length - suffix)) start
      (previous.text.length - suffix) previous.mentions 0

def editText (previous : EditableText) (text : List Char) : EditableText :=
  ⟨text, relocateMentions previous text⟩

/-- Mentions in bounds, none empty, in order and disjoint. -/
structure WellPlaced (value : EditableText) : Prop where
  nonempty : ∀ m ∈ value.mentions, m.start < m.stop
  bounds : ∀ m ∈ value.mentions, m.stop ≤ value.text.length
  disjoint : value.mentions.Pairwise fun m m' => m.stop ≤ m'.start

/-- Every mention is kept, in order, over the characters it was over. -/
def Kept (previous : EditableText) (nextText : List Char) : Prop :=
  List.Forall₂ (fun m r : MentionSpan => r.uid = m.uid ∧
    slice nextText r.start r.stop = slice previous.text m.start m.stop)
    previous.mentions (editText previous nextText).mentions

section sharedPrefix

variable {as bs : List Char}

theorem sharedPrefix_le_right (as bs : List Char) : sharedPrefix as bs ≤ bs.length := by
  induction as generalizing bs with
  | nil => simp [sharedPrefix]
  | cons a as ih =>
    cases bs with
    | nil => simp [sharedPrefix]
    | cons b bs =>
      simp only [sharedPrefix, List.length_cons]
      split
      · exact Nat.succ_le_succ (ih bs)
      · exact Nat.zero_le _

theorem take_sharedPrefix {n : Nat} (hn : n ≤ sharedPrefix as bs) : as.take n = bs.take n := by
  induction as generalizing bs n with
  | nil =>
    obtain rfl : n = 0 := by simpa [sharedPrefix] using hn
    simp
  | cons a as ih =>
    cases bs with
    | nil =>
      obtain rfl : n = 0 := by simpa [sharedPrefix] using hn
      simp
    | cons b bs =>
      cases n with
      | zero => simp
      | succ n =>
        simp only [sharedPrefix] at hn
        split at hn
        · next hab =>
          have htail := ih (Nat.le_of_succ_le_succ hn)
          rw [List.take_succ_cons, List.take_succ_cons, hab, htail]
        · omega

theorem length_le_sharedPrefix (p as bs : List Char) :
    p.length ≤ sharedPrefix (p ++ as) (p ++ bs) := by
  induction p with
  | nil => simp
  | cons c p ih => simpa [sharedPrefix] using ih

end sharedPrefix

theorem drop_sharedSuffix {previousText nextText : List Char} {n : Nat}
    (hn : n ≤ sharedPrefix previousText.reverse nextText.reverse) :
    previousText.drop (previousText.length - n) = nextText.drop (nextText.length - n) := by
  have h := congrArg List.reverse (take_sharedPrefix hn)
  simpa [List.take_reverse] using h

theorem length_slice {text : List Char} {start stop : Nat} (h : stop ≤ text.length) :
    (slice text start stop).length = stop - start := by
  simp [slice, Nat.min_eq_left h]

section relocate

variable {previousText nextText changedNew : List Char} {start stop : Nat}

/-- Where a mention outside of the changed range goes. -/
def moved (previousText nextText : List Char) (start : Nat) (m : MentionSpan) : MentionSpan :=
  if m.stop ≤ start then m
  else
    { m with
      start := m.start + nextText.length - previousText.length
      stop := m.stop + nextText.length - previousText.length }

theorem relocate_outside {entries : List MentionSpan}
    (h : ∀ m ∈ entries, m.stop ≤ start ∨ stop ≤ m.start) (search : Nat) :
    relocate previousText nextText changedNew start stop entries search =
      entries.map (moved previousText nextText start) := by
  induction entries generalizing search with
  | nil => rfl
  | cons m entries ih =>
    have htail := ih (fun m hm => h m (List.mem_cons_of_mem _ hm))
    simp only [relocate, List.map_cons, moved]
    split
    · rw [htail]
    · next hstart =>
      have hstop := (h m List.mem_cons_self).resolve_left hstart
      rw [if_pos hstop, htail]

theorem length_relocate_le (entries : List MentionSpan) (search : Nat) :
    (relocate previousText nextText changedNew start stop entries search).length ≤
      entries.length := by
  induction entries generalizing search with
  | nil => exact le_rfl
  | cons m entries ih =>
    simp only [relocate, List.length_cons]
    split
    · exact Nat.succ_le_succ (ih _)
    · split
      · exact Nat.succ_le_succ (ih _)
      · split
        · split
          · exact Nat.succ_le_succ (ih _)
          · exact (ih _).trans (Nat.le_succ _)
        · exact (ih _).trans (Nat.le_succ _)

/-- Nothing is found in an empty middle. -/
theorem indexOfClosestSubstring_nil {needle : List Char} (h : needle ≠ []) (hint search : Nat) :
    indexOfClosestSubstring [] needle hint search = none := by
  cases needle with
  | nil => exact absurd rfl h
  | cons c needle => simp [indexOfClosestSubstring, occurrences]

/-- A mention that overlaps the changed range is dropped where the new middle is empty. -/
theorem length_relocate_lt {entries : List MentionSpan} {m : MentionSpan} (hm : m ∈ entries)
    (hlt : m.start < m.stop) (hlen : m.stop ≤ previousText.length) (hstart : start < m.stop)
    (hstop : m.start < stop) (search : Nat) :
    (relocate previousText nextText [] start stop entries search).length < entries.length := by
  induction entries generalizing search with
  | nil => cases hm
  | cons e entries ih =>
    obtain rfl | hm := List.mem_cons.mp hm
    · have hraw : slice previousText m.start m.stop ≠ [] := by
        intro hnil
        have hl := @length_slice previousText m.start m.stop hlen
        rw [hnil, List.length_nil] at hl
        omega
      simp only [relocate, List.length_cons, if_neg (Nat.not_le.mpr hstart),
        if_neg (Nat.not_le.mpr hstop), indexOfClosestSubstring_nil hraw, ite_self]
      exact Nat.lt_succ_of_le (length_relocate_le _ _)
    · simp only [relocate, List.length_cons]
      split
      · exact Nat.succ_lt_succ (ih hm _)
      · split
        · exact Nat.succ_lt_succ (ih hm _)
        · split
          · split
            · exact Nat.succ_lt_succ (ih hm _)
            · exact (ih hm _).trans (Nat.lt_succ_self _)
          · exact (ih hm _).trans (Nat.lt_succ_self _)

end relocate

section changeStart

variable {previous : EditableText} {nextText : List Char}

theorem changeStart_le : changeStart previous nextText ≤ sharedPrefix previous.text nextText := by
  simp only [changeStart]
  split
  · next m hm =>
    have h := List.find?_some hm
    simp only [Bool.and_eq_true, decide_eq_true_eq] at h
    exact h.1.le
  · exact le_rfl

/-- The changed range starts where the shared part ends, or at the mention that part ends in. -/
theorem changeStart_cases : changeStart previous nextText = sharedPrefix previous.text nextText ∧
      (∀ m ∈ previous.mentions, ¬(m.start < sharedPrefix previous.text nextText ∧
        sharedPrefix previous.text nextText < m.stop)) ∨
    ∃ m ∈ previous.mentions, changeStart previous nextText = m.start ∧
      m.start < sharedPrefix previous.text nextText ∧
      sharedPrefix previous.text nextText < m.stop := by
  simp only [changeStart]
  split
  · next m hm =>
    have h := List.find?_some hm
    simp only [Bool.and_eq_true, decide_eq_true_eq] at h
    exact .inr ⟨m, List.mem_of_find?_eq_some hm, rfl, h⟩
  · next hnone =>
    refine .inl ⟨rfl, fun m hm h => ?_⟩
    have hno := List.find?_eq_none.mp hnone m hm
    simp [h.1, h.2] at hno

/-- Disjoint mentions are ordered. -/
theorem WellPlaced.apart (h : WellPlaced previous) {m m' : MentionSpan}
    (hm : m ∈ previous.mentions) (hm' : m' ∈ previous.mentions) :
    m = m' ∨ m.stop ≤ m'.start ∨ m'.stop ≤ m.start := by
  obtain ⟨i, hi, rfl⟩ := List.mem_iff_getElem.mp hm
  obtain ⟨j, hj, rfl⟩ := List.mem_iff_getElem.mp hm'
  obtain hlt | heq | hlt := Nat.lt_trichotomy i j
  · exact .inr (.inl (List.pairwise_iff_getElem.mp h.disjoint i j hi hj hlt))
  · subst heq
    exact .inl rfl
  · exact .inr (.inr (List.pairwise_iff_getElem.mp h.disjoint j i hj hi hlt))

/-- No mention is split by the start of the changed range. -/
theorem WellPlaced.not_split (h : WellPlaced previous) {m : MentionSpan}
    (hm : m ∈ previous.mentions) :
    m.stop ≤ changeStart previous nextText ∨ changeStart previous nextText ≤ m.start := by
  obtain ⟨hc, hno⟩ | ⟨m', hm', hc, hlt, hlt'⟩ := @changeStart_cases previous nextText
  · have hsplit := hno m hm
    rw [hc]
    omega
  · have hne := h.nonempty m hm
    obtain rfl | ha | ha := h.apart hm hm' <;> omega

end changeStart

/-- Characters keep their place behind a change. -/
theorem slice_shift {previousText nextText : List Char} {u v start stop : Nat}
    (h : previousText.drop u = nextText.drop v) (hu : u ≤ start) :
    slice nextText (start - u + v) (stop - u + v) = slice previousText start stop := by
  have hslice : ∀ (text : List Char) (i j : Nat), slice text i j = (text.drop i).take (j - i) := by
    intro text i j
    rw [slice, List.drop_take]
  have hprev : previousText.drop start = (previousText.drop u).drop (start - u) := by
    rw [List.drop_drop, Nat.add_sub_cancel' hu]
  have hnext : nextText.drop (start - u + v) = (nextText.drop v).drop (start - u) := by
    rw [List.drop_drop, Nat.add_comm]
  have hlen : stop - u + v - (start - u + v) = stop - u - (start - u) := by omega
  by_cases hstop : u ≤ stop
  · rw [hslice, hslice, hprev, hnext, h, hlen]
    congr 1
    omega
  · rw [hslice, hslice, hlen]
    have h1 : stop - u - (start - u) = 0 := by omega
    have h2 : stop - start = 0 := by omega
    simp [h1, h2]

/-- Mentions outside of the changed range are kept. -/
theorem kept_of_outside {previous : EditableText} {nextText : List Char}
    (hp : WellPlaced previous)
    (h : ∀ m ∈ previous.mentions, m.stop ≤ changeStart previous nextText ∨
      previous.text.length - sharedSuffix previous.text nextText
        (changeStart previous nextText) ≤ m.start) : Kept previous nextText := by
  unfold Kept editText relocateMentions
  split
  · next heq =>
    refine List.forall₂_same.mpr fun m hm => ⟨rfl, ?_⟩
    obtain hnil | heq := heq
    · rw [hnil] at hm
      cases hm
    · rw [heq]
  · simp only [relocate_outside h]
    refine List.forall₂_map_right_iff.mpr (List.forall₂_same.mpr fun m hm => ?_)
    unfold moved
    split
    · next hstop =>
      refine ⟨rfl, ?_⟩
      rw [slice, slice, take_sharedPrefix (hstop.trans changeStart_le)]
    · next hstop =>
      refine ⟨rfl, ?_⟩
      have hstart := (h m hm).resolve_left hstop
      generalize hs : sharedSuffix previous.text nextText (changeStart previous nextText) = suffix
        at hstart
      have hle : suffix ≤ min previous.text.length nextText.length := by
        rw [← hs, sharedSuffix]
        exact (min_le_left _ _).trans (Nat.sub_le _ _)
      obtain ⟨hle, hle'⟩ := le_min_iff.mp hle
      have hlt := hp.nonempty m hm
      have hshared : suffix ≤ sharedPrefix previous.text.reverse nextText.reverse := by
        rw [← hs]
        exact min_le_right _ _
      have hshift : slice nextText
          (m.start - (previous.text.length - suffix) + (nextText.length - suffix))
          (m.stop - (previous.text.length - suffix) + (nextText.length - suffix)) =
          slice previous.text m.start m.stop := slice_shift (drop_sharedSuffix hshared) hstart
      have hfrom : m.start + nextText.length - previous.text.length =
          m.start - (previous.text.length - suffix) + (nextText.length - suffix) := by omega
      have hto : m.stop + nextText.length - previous.text.length =
          m.stop - (previous.text.length - suffix) + (nextText.length - suffix) := by omega
      rw [← hshift, ← hfrom, ← hto]

/-- A mention that overlaps what was removed is lost when nothing stands in its place. -/
theorem not_kept_of_overlap {previous : EditableText} {nextText : List Char} {m : MentionSpan}
    (hp : WellPlaced previous) (hne : previous.text ≠ nextText) (hm : m ∈ previous.mentions)
    (hstart : changeStart previous nextText < m.stop)
    (hstop : m.start < previous.text.length - sharedSuffix previous.text nextText
      (changeStart previous nextText))
    (hempty : nextText.length - sharedSuffix previous.text nextText
      (changeStart previous nextText) = changeStart previous nextText) :
    ¬Kept previous nextText := by
  intro hk
  have hlen := hk.length_eq
  have hmid : slice nextText (changeStart previous nextText)
      (changeStart previous nextText) = [] := by
    simp [slice]
  have hmentions : previous.mentions ≠ [] := List.ne_nil_of_mem hm
  simp only [editText, relocateMentions, hmentions, hne, or_self, if_false, hempty, hmid] at hlen
  have hlt := @length_relocate_lt previous.text nextText _ _ _ _ hm (hp.nonempty m hm)
    (hp.bounds m hm) hstart hstop 0
  omega

section edit

variable {P M N S : List Char} {mentions : List MentionSpan}

/-- The mentions that the edit is beside of. -/
def Beside (P M : List Char) (mentions : List MentionSpan) : Prop :=
  ∀ m ∈ mentions, m.stop ≤ P.length ∨ P.length + M.length ≤ m.start

/-- The edit shortens the text, the texts agree beyond what it wrote, and a mention overlaps the
characters that seem to be removed behind that. -/
def Misread (P M N S : List Char) (mentions : List MentionSpan) : Prop :=
  N.length < M.length ∧ P.length + N.length < sharedPrefix (P ++ M ++ S) (P ++ N ++ S) ∧
    ∃ m ∈ mentions, sharedPrefix (P ++ M ++ S) (P ++ N ++ S) < m.stop ∧
      m.start < sharedPrefix (P ++ M ++ S) (P ++ N ++ S) + (M.length - N.length)

theorem le_sharedPrefix (P M N S : List Char) :
    P.length ≤ sharedPrefix (P ++ M ++ S) (P ++ N ++ S) := by
  rw [List.append_assoc, List.append_assoc]
  exact length_le_sharedPrefix P _ _

theorem le_sharedPrefix_reverse (P M N S : List Char) :
    S.length ≤ sharedPrefix (P ++ M ++ S).reverse (P ++ N ++ S).reverse := by
  rw [List.reverse_append, @List.reverse_append _ (P ++ N), ← @List.length_reverse _ S]
  exact length_le_sharedPrefix _ _ _

/-- The changed range starts behind the text before the edit. -/
theorem le_changeStart (hb : Beside P M mentions) :
    P.length ≤ changeStart ⟨P ++ M ++ S, mentions⟩ (P ++ N ++ S) := by
  have hc := le_sharedPrefix P M N S
  obtain ⟨heq, -⟩ | ⟨m, hm, heq, hlt, hlt'⟩ :=
    @changeStart_cases ⟨P ++ M ++ S, mentions⟩ (P ++ N ++ S)
  · rw [heq]
    exact hc
  · have h := hb m hm
    dsimp only at hlt hlt'
    rw [heq]
    omega

theorem outside_of_not_misread (hp : WellPlaced ⟨P ++ M ++ S, mentions⟩)
    (hb : Beside P M mentions) (h : ¬Misread P M N S mentions) :
    ∀ m ∈ mentions, m.stop ≤ changeStart ⟨P ++ M ++ S, mentions⟩ (P ++ N ++ S) ∨
      (P ++ M ++ S).length - sharedSuffix (P ++ M ++ S) (P ++ N ++ S)
        (changeStart ⟨P ++ M ++ S, mentions⟩ (P ++ N ++ S)) ≤ m.start := by
  intro m hm
  have hstart := le_changeStart (N := N) (S := S) hb
  have hsplit : m.stop ≤ changeStart ⟨P ++ M ++ S, mentions⟩ (P ++ N ++ S) ∨
      changeStart ⟨P ++ M ++ S, mentions⟩ (P ++ N ++ S) ≤ m.start := hp.not_split hm
  have hsuffix := le_sharedPrefix_reverse P M N S
  have hlens : (P ++ M ++ S).length = P.length + M.length + S.length := by simp; omega
  have hlens' : (P ++ N ++ S).length = P.length + N.length + S.length := by simp; omega
  have hc : changeStart ⟨P ++ M ++ S, mentions⟩ (P ++ N ++ S) ≤
      sharedPrefix (P ++ M ++ S) (P ++ N ++ S) := changeStart_le
  have hover : N.length < M.length →
      P.length + N.length < changeStart ⟨P ++ M ++ S, mentions⟩ (P ++ N ++ S) →
      changeStart ⟨P ++ M ++ S, mentions⟩ (P ++ N ++ S) ≤ m.start →
      m.start < m.stop →
      changeStart ⟨P ++ M ++ S, mentions⟩ (P ++ N ++ S) + (M.length - N.length) ≤ m.start := by
    intro hnm hpn hle hne
    by_contra hlt
    obtain ⟨heq, -⟩ | ⟨m', hm', heq, hlt', hlt''⟩ :=
      @changeStart_cases ⟨P ++ M ++ S, mentions⟩ (P ++ N ++ S)
    · rw [heq] at hle hlt hpn
      exact h ⟨hnm, hpn, m, hm, lt_of_le_of_lt hle hne, not_le.mp hlt⟩
    · exact h ⟨hnm, lt_of_lt_of_le hpn hc, m', hm', hlt'', hlt'.trans_le (Nat.le_add_right _ _)⟩
  have hne := hp.nonempty m hm
  rw [sharedSuffix, hlens, hlens']
  obtain hbe | hbe := hb m hm
  · exact .inl (hbe.trans hstart)
  · obtain hs | hs := hsplit
    · exact .inl hs
    · refine .inr ?_
      by_cases hnm : N.length < M.length
      · by_cases hpn : P.length + N.length < changeStart ⟨P ++ M ++ S, mentions⟩ (P ++ N ++ S)
        · have ho := hover hnm hpn hs hne
          omega
        · omega
      · omega

theorem not_kept_of_misread (hp : WellPlaced ⟨P ++ M ++ S, mentions⟩) (hb : Beside P M mentions)
    (h : Misread P M N S mentions) : ¬Kept ⟨P ++ M ++ S, mentions⟩ (P ++ N ++ S) := by
  obtain ⟨hnm, hpn, m, hm, hlast, hfirst⟩ := h
  have hsuffix := le_sharedPrefix_reverse P M N S
  have hlens : (P ++ M ++ S).length = P.length + M.length + S.length := by simp; omega
  have hlens' : (P ++ N ++ S).length = P.length + N.length + S.length := by simp; omega
  have hshared := sharedPrefix_le_right (P ++ M ++ S) (P ++ N ++ S)
  have hne : (P ++ M ++ S) ≠ P ++ N ++ S := by
    intro heq
    have hlen := congrArg List.length heq
    omega
  -- the mention that the changed range runs into, and where that range starts
  obtain ⟨m', hm', hbehind, hover, hrun⟩ : ∃ m' ∈ mentions,
      P.length + N.length < changeStart ⟨P ++ M ++ S, mentions⟩ (P ++ N ++ S) ∧
      changeStart ⟨P ++ M ++ S, mentions⟩ (P ++ N ++ S) < m'.stop ∧
      m'.start < changeStart ⟨P ++ M ++ S, mentions⟩ (P ++ N ++ S) + (M.length - N.length) := by
    obtain ⟨heq, -⟩ | ⟨m', hm', heq, hlt, hlt'⟩ :=
      @changeStart_cases ⟨P ++ M ++ S, mentions⟩ (P ++ N ++ S)
    · rw [heq]
      exact ⟨m, hm, hpn, hlast, hfirst⟩
    · have hbeside := hb m' hm'
      have hnonempty := hp.nonempty m' hm'
      dsimp only at hlt hlt'
      rw [heq]
      refine ⟨m', hm', ?_, hnonempty, by omega⟩
      omega
  have hc : changeStart ⟨P ++ M ++ S, mentions⟩ (P ++ N ++ S) ≤
      sharedPrefix (P ++ M ++ S) (P ++ N ++ S) := changeStart_le
  refine not_kept_of_overlap hp hne hm' hover ?_ ?_
  · dsimp only
    rw [sharedSuffix, hlens, hlens']
    omega
  · dsimp only
    rw [sharedSuffix, hlens, hlens']
    omega

/-- An edit beside every mention keeps them all, unless it shortens the text, what follows agrees
with what was removed, and the characters then taken for removed overlap a mention. -/
theorem edit_keeps_mentions_iff (hp : WellPlaced ⟨P ++ M ++ S, mentions⟩)
    (hb : Beside P M mentions) :
    Kept ⟨P ++ M ++ S, mentions⟩ (P ++ N ++ S) ↔ ¬Misread P M N S mentions :=
  ⟨fun hk h => not_kept_of_misread hp hb h hk,
    fun h => kept_of_outside hp (outside_of_not_misread hp hb h)⟩

end edit

def bob : List Char := ['@', 'b', 'o', 'b']

def secondBob : List MentionSpan := [⟨4, 8, 7⟩]

theorem secondBob_wellPlaced : WellPlaced ⟨[] ++ bob ++ bob, secondBob⟩ := by
  refine ⟨?_, ?_, ?_⟩ <;> simp [secondBob, bob]

theorem secondBob_beside : Beside [] bob secondBob := by
  simp [Beside, secondBob, bob]

theorem edit_keeps_mentions_iff_second_bob :
    Kept ⟨[] ++ bob ++ bob, secondBob⟩ ([] ++ [] ++ bob) ↔
      ¬Misread [] bob [] bob secondBob :=
  edit_keeps_mentions_iff secondBob_wellPlaced secondBob_beside

/-- A plain name before a mention of the same name is deleted: the mention is lost. -/
theorem repeated_name_loses_mention : ¬ ∀ (P M N S : List Char) (mentions : List MentionSpan),
    WellPlaced ⟨P ++ M ++ S, mentions⟩ → Beside P M mentions →
      Kept ⟨P ++ M ++ S, mentions⟩ (P ++ N ++ S) := by
  intro h
  have hkept := h [] bob [] bob secondBob secondBob_wellPlaced secondBob_beside
  have hlost : (editText ⟨[] ++ bob ++ bob, secondBob⟩ ([] ++ [] ++ bob)).mentions =
      [] := by decide
  unfold Kept at hkept
  rw [hlost] at hkept
  cases hkept

end Chahua.Mentions

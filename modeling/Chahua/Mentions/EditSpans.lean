import Chahua.Mentions.EditText
import Mathlib

namespace Chahua.Mentions

/-- A span over the same characters, of the same member. -/
def SameSpan (previousText nextText : List Char) (m r : MentionSpan) : Prop :=
  r.uid = m.uid ∧ slice nextText r.start r.stop = slice previousText m.start m.stop

theorem slice_eq_take (text : List Char) (start stop : Nat) :
    slice text start stop = (text.drop start).take (stop - start) := by
  rw [slice, List.drop_take]

theorem sharedPrefix_le_left (as bs : List Char) : sharedPrefix as bs ≤ as.length := by
  induction as generalizing bs with
  | nil => simp [sharedPrefix]
  | cons a as ih =>
    cases bs with
    | nil => simp [sharedPrefix]
    | cons b bs =>
      simp only [sharedPrefix, List.length_cons]
      split
      · exact Nat.succ_le_succ (ih bs)
      · exact Nat.zero_le _

section occurrences

variable {haystack needle : List Char} {hint start found : Nat}

theorem mem_occurrences (h : found ∈ occurrences haystack needle start) :
    start ≤ found ∧ needle <+: haystack.drop found := by
  unfold occurrences at h
  simpa using (List.mem_filter.mp h).2

/-- A fold that keeps its value or takes the next one ends with one of them. -/
theorem foldl_choice {f : Option Nat → Nat → Option Nat}
    (hf : ∀ best i, f best i = some i ∨ f best i = best) {candidates : List Nat}
    {best : Option Nat} (h : candidates.foldl f best = some found) :
    found ∈ candidates ∨ best = some found := by
  induction candidates generalizing best with
  | nil => exact .inr h
  | cons candidate candidates ih =>
    obtain hmem | hbest := ih h
    · exact .inl (List.mem_cons_of_mem _ hmem)
    · obtain htaken | hkept := hf best candidate
      · rw [htaken] at hbest
        exact .inl (Option.some.inj hbest ▸ List.mem_cons_self)
      · exact .inr (hkept ▸ hbest)

/-- What is found is an occurrence, not before the start of the search. -/
theorem indexOfClosestSubstring_spec
    (h : indexOfClosestSubstring haystack needle hint start = some found) :
    start ≤ found ∧ needle <+: haystack.drop found := by
  unfold indexOfClosestSubstring at h
  refine mem_occurrences ((foldl_choice (fun best i => ?_) h).resolve_right nofun)
  cases best with
  | none => exact .inl rfl
  | some b =>
    dsimp only
    split
    · exact .inl rfl
    · exact .inr rfl

end occurrences

section relocate

/-- The texts agree before the changed range and behind it, and its new characters are known. -/
structure Changed (previousText nextText changedNew : List Char) (first last : Nat) : Prop where
  before : ∀ n ≤ first, previousText.take n = nextText.take n
  behind : previousText.drop last = nextText.drop (first + changedNew.length)
  middle : slice nextText first (first + changedNew.length) = changedNew
  within : first ≤ last
  bound : last ≤ previousText.length
  total : first + changedNew.length ≤ nextText.length

/-- Where a mention may go: it stays before the changed range, is found in it, or moves behind
it. -/
def Relocated (previousText nextText changedNew : List Char) (first last search : Nat)
    (m r : MentionSpan) : Prop :=
  m.stop ≤ first ∧ r = m ∨
    (first ≤ m.start ∧ m.stop ≤ last ∧ ∃ found, search ≤ found ∧
      slice previousText m.start m.stop <+: changedNew.drop found ∧
      r = { m with
        start := first + found
        stop := first + found + (slice previousText m.start m.stop).length }) ∨
    last ≤ m.start ∧ r = { m with
      start := m.start + nextText.length - previousText.length
      stop := m.stop + nextText.length - previousText.length }

variable {previousText nextText changedNew : List Char} {first last search : Nat}

theorem Relocated.mono {search' : Nat} (hle : search ≤ search') {m r : MentionSpan}
    (h : Relocated previousText nextText changedNew first last search' m r) :
    Relocated previousText nextText changedNew first last search m r := by
  obtain h | ⟨hfirst, hlast, found, hfound, h⟩ | h := h
  · exact .inl h
  · exact .inr (.inl ⟨hfirst, hlast, found, hle.trans hfound, h⟩)
  · exact .inr (.inr h)

/-- One mention: it is dropped, or kept, and then the search goes on behind it. -/
theorem relocate_cons (m : MentionSpan) (entries : List MentionSpan) (search : Nat) :
    relocate previousText nextText changedNew first last (m :: entries) search =
        relocate previousText nextText changedNew first last entries search ∨
      ∃ r search', search ≤ search' ∧
        Relocated previousText nextText changedNew first last search m r ∧
        (m.stop ≤ first ∨ last ≤ m.start ∨ r.stop ≤ first + search') ∧
        relocate previousText nextText changedNew first last (m :: entries) search =
          r :: relocate previousText nextText changedNew first last entries search' := by
  simp only [relocate]
  split
  · next hstop => exact .inr ⟨m, search, le_rfl, .inl ⟨hstop, rfl⟩, .inl hstop, rfl⟩
  · split
    · next hstart =>
      exact .inr ⟨_, search, le_rfl, .inr (.inr ⟨hstart, rfl⟩), .inr (.inl hstart), rfl⟩
    · split
      · next hinside =>
        split
        · next found hfound =>
          obtain ⟨hle, hprefix⟩ := indexOfClosestSubstring_spec hfound
          exact .inr ⟨_, _, hle.trans (Nat.le_add_right _ _),
            .inr (.inl ⟨hinside.1, hinside.2, found, hle, hprefix, rfl⟩),
            .inr (.inr (Nat.add_assoc _ _ _).le), rfl⟩
        · exact .inl rfl
      · exact .inl rfl

theorem mem_relocate {entries : List MentionSpan} {r : MentionSpan}
    (h : r ∈ relocate previousText nextText changedNew first last entries search) :
    ∃ m ∈ entries, Relocated previousText nextText changedNew first last search m r := by
  induction entries generalizing search with
  | nil => cases h
  | cons m entries ih =>
    obtain hdropped | ⟨r', search', hle, hrelocated, -, hkept⟩ :=
      @relocate_cons previousText nextText changedNew first last m entries search
    · rw [hdropped] at h
      obtain ⟨m', hm', h'⟩ := ih h
      exact ⟨m', List.mem_cons_of_mem _ hm', h'⟩
    · rw [hkept] at h
      obtain rfl | h := List.mem_cons.mp h
      · exact ⟨m, List.mem_cons_self, hrelocated⟩
      · obtain ⟨m', hm', h'⟩ := ih h
        exact ⟨m', List.mem_cons_of_mem _ hm', h'.mono hle⟩

/-- The characters behind the range are as many as before. -/
theorem Changed.length_eq (h : Changed previousText nextText changedNew first last) :
    previousText.length - last = nextText.length - (first + changedNew.length) := by
  have hlen := congrArg List.length h.behind
  simpa using hlen

theorem Relocated.found_le {m : MentionSpan} {found : Nat} (hne : m.start < m.stop)
    (hbound : m.stop ≤ previousText.length)
    (h : slice previousText m.start m.stop <+: changedNew.drop found) :
    found + (m.stop - m.start) ≤ changedNew.length := by
  have hlen := h.length_le
  rw [length_slice hbound, List.length_drop] at hlen
  omega

/-- A kept mention stays in bounds, and over its characters. -/
theorem Relocated.sound (h : Changed previousText nextText changedNew first last)
    {m r : MentionSpan} (hne : m.start < m.stop) (hbound : m.stop ≤ previousText.length)
    (hr : Relocated previousText nextText changedNew first last search m r) :
    r.start < r.stop ∧ r.stop ≤ nextText.length ∧ SameSpan previousText nextText m r := by
  have hlen := h.length_eq
  have htotal := h.total
  have hlast := h.bound
  obtain ⟨hstop, rfl⟩ | ⟨hfirst, hstop, found, -, hprefix, rfl⟩ | ⟨hstart, rfl⟩ := hr
  · refine ⟨hne, by omega, rfl, ?_⟩
    rw [slice, slice, h.before _ hstop]
  · have hfound := found_le hne hbound hprefix
    have hraw : (slice previousText m.start m.stop).length = m.stop - m.start :=
      length_slice hbound
    dsimp only
    rw [hraw]
    refine ⟨by omega, by omega, rfl, ?_⟩
    have hmiddle : changedNew.drop found = slice nextText (first + found)
        (first + changedNew.length) := by
      conv_lhs => rw [← h.middle]
      rw [slice, slice, List.drop_drop]
    have htake := List.prefix_iff_eq_take.mp hprefix
    rw [hraw, hmiddle] at htake
    rw [htake, slice_eq_take, slice_eq_take, List.take_take]
    congr 1
    dsimp only
    omega
  · have hshift : slice nextText (m.start - last + (first + changedNew.length))
        (m.stop - last + (first + changedNew.length)) = slice previousText m.start m.stop :=
      slice_shift h.behind hstart
    have hfrom : m.start + nextText.length - previousText.length =
        m.start - last + (first + changedNew.length) := by omega
    have hto : m.stop + nextText.length - previousText.length =
        m.stop - last + (first + changedNew.length) := by omega
    dsimp only
    refine ⟨by omega, by omega, rfl, ?_⟩
    rw [← hshift, ← hfrom, ← hto]

/-- Two mentions keep their order. -/
theorem Relocated.apart (h : Changed previousText nextText changedNew first last)
    {m m' r r' : MentionSpan} {search' : Nat} (hne : m.start < m.stop) (hne' : m'.start < m'.stop)
    (hbound : m.stop ≤ previousText.length) (happart : m.stop ≤ m'.start)
    (hr : Relocated previousText nextText changedNew first last search m r)
    (hsearch : m.stop ≤ first ∨ last ≤ m.start ∨ r.stop ≤ first + search')
    (hr' : Relocated previousText nextText changedNew first last search' m' r') :
    r.stop ≤ r'.start := by
  have hlen := h.length_eq
  have htotal := h.total
  have hlast := h.bound
  have hwithin := h.within
  obtain ⟨hstop, rfl⟩ | ⟨hfirst, hstop, found, -, hprefix, rfl⟩ | ⟨hstart, rfl⟩ := hr
  · obtain ⟨-, rfl⟩ | ⟨-, -, found', -, -, rfl⟩ | ⟨hstart', rfl⟩ := hr'
    · exact happart
    · dsimp only
      omega
    · dsimp only
      omega
  · have hfound := found_le hne hbound hprefix
    have hraw : (slice previousText m.start m.stop).length = m.stop - m.start :=
      length_slice hbound
    obtain ⟨hstop', rfl⟩ | ⟨-, -, found', hle, -, rfl⟩ | ⟨hstart', rfl⟩ := hr'
    · omega
    · dsimp only at hsearch ⊢
      omega
    · dsimp only
      omega
  · obtain ⟨hstop', rfl⟩ | ⟨-, hstop', found', hle, -, rfl⟩ | ⟨hstart', rfl⟩ := hr'
    · omega
    · omega
    · dsimp only
      omega

/-- The mentions kept, in order: which they are, where they go, and that they stay apart. -/
theorem relocate_spec (h : Changed previousText nextText changedNew first last)
    {entries : List MentionSpan} (hne : ∀ m ∈ entries, m.start < m.stop)
    (hbound : ∀ m ∈ entries, m.stop ≤ previousText.length)
    (hdisjoint : entries.Pairwise fun m m' => m.stop ≤ m'.start) (search : Nat) :
    (relocate previousText nextText changedNew first last entries search).Pairwise
        (fun r r' => r.stop ≤ r'.start) ∧
      ∃ kept, kept.Sublist entries ∧ List.Forall₂ (SameSpan previousText nextText) kept
        (relocate previousText nextText changedNew first last entries search) := by
  induction entries generalizing search with
  | nil => exact ⟨List.Pairwise.nil, [], List.Sublist.slnil, .nil⟩
  | cons m entries ih =>
    obtain ⟨happart, hdisjoint⟩ := List.pairwise_cons.mp hdisjoint
    have hmem : ∀ m' ∈ entries, m' ∈ m :: entries := fun _ => List.mem_cons_of_mem _
    have hrest := ih (fun m' hm' => hne m' (hmem m' hm')) (fun m' hm' => hbound m' (hmem m' hm'))
      hdisjoint
    have hnem := hne m List.mem_cons_self
    have hboundm := hbound m List.mem_cons_self
    obtain hdropped | ⟨r, search', -, hrelocated, hsearch, hkept⟩ :=
      @relocate_cons previousText nextText changedNew first last m entries search
    · rw [hdropped]
      obtain ⟨hpairwise, kept, hsub, hsame⟩ := hrest search
      exact ⟨hpairwise, kept, hsub.cons _, hsame⟩
    · rw [hkept]
      obtain ⟨hpairwise, kept, hsub, hsame⟩ := hrest search'
      refine ⟨List.pairwise_cons.mpr ⟨fun r' hr' => ?_, hpairwise⟩, m :: kept, hsub.cons_cons m,
        .cons (hrelocated.sound h hnem hboundm).2.2 hsame⟩
      obtain ⟨m', hm', hrelocated'⟩ := mem_relocate hr'
      exact hrelocated.apart h hnem (hne m' (hmem m' hm')) hboundm (happart m' hm') hsearch
        hrelocated'

end relocate

section editText

variable {previous : EditableText} {nextText : List Char}

/-- What `relocateMentions` takes for changed. -/
theorem changed_sharedSuffix (previous : EditableText) (nextText : List Char) :
    let first := changeStart previous nextText
    let suffix := sharedSuffix previous.text nextText first
    Changed previous.text nextText (slice nextText first (nextText.length - suffix)) first
      (previous.text.length - suffix) := by
  intro first suffix
  have hshared : first ≤ sharedPrefix previous.text nextText := changeStart_le
  have hright := sharedPrefix_le_right previous.text nextText
  have hleft := sharedPrefix_le_left previous.text nextText
  have hsuffix : suffix ≤ min previous.text.length nextText.length - first := min_le_left _ _
  have hreverse : suffix ≤ sharedPrefix previous.text.reverse nextText.reverse := min_le_right _ _
  have hlen : (slice nextText first (nextText.length - suffix)).length =
      nextText.length - suffix - first := length_slice (Nat.sub_le _ _)
  have hlast : first + (slice nextText first (nextText.length - suffix)).length =
      nextText.length - suffix := by omega
  refine ⟨fun n hn => take_sharedPrefix (hn.trans hshared), ?_, ?_, by omega, Nat.sub_le _ _,
    by omega⟩
  · rw [hlast]
    exact drop_sharedSuffix hreverse
  · rw [hlast]

/-- An edit keeps the spans well placed, each over its characters, and the members in order. -/
theorem editText_spec (h : WellPlaced previous) (nextText : List Char) :
    WellPlaced (editText previous nextText) ∧
      ∃ kept, kept.Sublist previous.mentions ∧
        List.Forall₂ (SameSpan previous.text nextText) kept
          (editText previous nextText).mentions := by
  unfold editText relocateMentions
  split
  · next hsame =>
    obtain hnil | rfl := hsame
    · rw [hnil]
      exact ⟨⟨nofun, nofun, .nil⟩, [], List.Sublist.slnil, .nil⟩
    · exact ⟨h, _, List.Sublist.refl _, List.forall₂_same.mpr fun m _ => ⟨rfl, rfl⟩⟩
  · have hchanged := changed_sharedSuffix previous nextText
    obtain ⟨hpairwise, hkept⟩ :=
      relocate_spec hchanged h.nonempty h.bounds h.disjoint 0
    refine ⟨⟨fun r hr => ?_, fun r hr => ?_, hpairwise⟩, hkept⟩
    · obtain ⟨m, hm, hrelocated⟩ := mem_relocate hr
      exact (hrelocated.sound hchanged (h.nonempty m hm) (h.bounds m hm)).1
    · obtain ⟨m, hm, hrelocated⟩ := mem_relocate hr
      exact (hrelocated.sound hchanged (h.nonempty m hm) (h.bounds m hm)).2.1

end editText

end Chahua.Mentions

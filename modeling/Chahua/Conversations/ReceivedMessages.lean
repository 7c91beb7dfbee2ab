import Chahua.Conversations.ConversationStore

namespace Chahua.Conversations

open Framework

universe u
variable {M : Type u} [TimelineMessage M]

open TimelineMessage (messageId)

/-- The id is past the first message of the page, and before its last one or the page is at
the latest edge. -/
def MessageRange.Spans (page : MessageRange M) (x : Nat) : Prop :=
  (∃ first ∈ (ids page.messages).head?, first < x) ∧
    (page.newerCursor = none ∨ ∃ last ∈ (ids page.messages).getLast?, x < last)

def Between (messages : List M) (x : Nat) : Prop :=
  (∃ y ∈ ids messages, y < x) ∧ ∃ y ∈ ids messages, x < y

/-- A page with its cursors at its edges that has every received message it spans. -/
structure MessageRange.Kept (page : MessageRange M) (received : List Nat) : Prop where
  ascending : Ascending page.messages
  older : ∀ o ∈ page.olderCursor, o ∈ ids page.messages
  newer : ∀ n ∈ page.newerCursor, n ∈ (ids page.messages).getLast?
  complete : ∀ x ∈ received, page.Spans x → x ∈ ids page.messages

theorem MessageRange.spans_iff {page : MessageRange M} (h : Ascending page.messages) {x : Nat} :
    page.Spans x ↔ (∃ y ∈ ids page.messages, y < x) ∧
      (page.newerCursor = none ∨ ∃ y ∈ ids page.messages, x < y) := by
  unfold MessageRange.Spans
  apply and_congr
  · constructor
    · rintro ⟨first, hfirst, hx⟩
      exact ⟨first, (h.mem_head?.mp hfirst).1, hx⟩
    · rintro ⟨y, hy, hyx⟩
      cases hfirst : (ids page.messages).head? with
      | none =>
        rw [List.head?_eq_none_iff] at hfirst
        rw [hfirst] at hy
        cases hy
      | some first =>
        refine ⟨first, rfl, ?_⟩
        have hle := (h.mem_head?.mp hfirst).2 y hy
        omega
  · apply or_congr Iff.rfl
    constructor
    · rintro ⟨last, hlast, hx⟩
      exact ⟨last, (h.mem_getLast?.mp hlast).1, hx⟩
    · rintro ⟨y, hy, hxy⟩
      cases hlast : (ids page.messages).getLast? with
      | none =>
        rw [List.getLast?_eq_none_iff] at hlast
        rw [hlast] at hy
        cases hy
      | some last =>
        refine ⟨last, rfl, ?_⟩
        have hle := (h.mem_getLast?.mp hlast).2 y hy
        omega

namespace Exact

variable {seen : List Nat} {params : MessagePageParams} {range : MessageRange M}

theorem older_le (h : Exact seen params range) {o : Nat} (ho : o ∈ range.olderCursor) :
    o ∈ ids range.messages ∧ ∀ y ∈ ids range.messages, o ≤ y :=
  h.ascending.mem_head?.mp (h.older o ho)

theorem le_newer (h : Exact seen params range) {n : Nat} (hn : n ∈ range.newerCursor) :
    n ∈ ids range.messages ∧ ∀ y ∈ ids range.messages, y ≤ n :=
  h.ascending.mem_getLast?.mp (h.newer n hn)

/-- A message of the server state inside the window, or past an edge that has no cursor. -/
theorem mem (h : Exact seen params range) {x : Nat} (hx : x ∈ seen)
    (hadmits : params.admits x = true)
    (hlower : range.olderCursor = none ∨ ∃ y ∈ ids range.messages, y < x)
    (hupper : range.newerCursor = none ∨ ∃ y ∈ ids range.messages, x < y) :
    x ∈ ids range.messages := by
  apply h.complete x hx hadmits
  · intro o ho
    obtain hnone | ⟨y, hy, hyx⟩ := hlower
    · rw [hnone] at ho
      cases ho
    · have hle := (h.older_le ho).2 y hy
      omega
  · intro n hn
    obtain hnone | ⟨y, hy, hxy⟩ := hupper
    · rw [hnone] at hn
      cases hn
    · have hle := (h.le_newer hn).2 y hy
      omega

end Exact

theorem admits_around (around : Option Nat) (x : Nat) :
    (around.elim MessagePageParams.latest .around).admits x = true := by
  cases around <;> rfl

/-- What a page opened from the response has of the server states behind it. -/
structure Answer.Covers (answer : Answer M) : Prop where
  ascending : Ascending answer.range.messages
  older : ∀ o ∈ answer.range.olderCursor, o ∈ ids answer.range.messages
  newer : ∀ n ∈ answer.range.newerCursor, n ∈ (ids answer.range.messages).getLast?
  complete : ∀ x ∈ answer.seen, (∃ y ∈ ids answer.range.messages, y < x) →
    (answer.range.newerCursor = none ∨ ∃ y ∈ ids answer.range.messages, x < y) →
    x ∈ ids answer.range.messages

theorem Exact.covers {answer : Answer M} {params : MessagePageParams}
    (h : Exact answer.seen params answer.range) (hparams : ∀ x, params.admits x = true) :
    answer.Covers where
  ascending := h.ascending
  older := fun _ ho => (h.older_le ho).1
  newer := h.newer
  complete := fun x hx hlower hupper => h.mem hx (hparams x) (.inr hlower) hupper

/-- The responses of an `open` are exact, and the first one is followed by another only at the
latest edge. -/
structure Opening.Sound (opening : Opening M) : Prop where
  base : ∀ b ∈ opening.base, Exact b.seen (opening.around.elim .latest .around) b.range ∧
    b.range.newerCursor = none
  answer : ∀ a ∈ opening.answer, Exact a.seen opening.params a.range

/-- The second response continues the first one without a gap. -/
theorem Opening.Sound.result {opening : Opening M} (h : opening.Sound) {answer : Answer M}
    (ha : answer ∈ opening.answer) : (opening.result answer).Covers := by
  have hexact := h.answer answer ha
  unfold Opening.params at hexact
  unfold Opening.result
  cases hb : opening.base with
  | none =>
    rw [hb] at hexact
    exact hexact.covers (admits_around _)
  | some b =>
    obtain ⟨hbase, hbnewer⟩ := h.base b hb
    rw [hb] at hexact
    cases hlast : b.range.lastId with
    | none =>
      simp only [hlast] at hexact ⊢
      exact hexact.covers fun _ => rfl
    | some lastId =>
      simp only [hlast, Option.elim_some] at hexact ⊢
      obtain ⟨hlastMem, hlastLe⟩ := hbase.ascending.mem_getLast?.mp hlast
      obtain ⟨hascending, hmem⟩ := mergeMessages_spec hbase.ascending answer.range.messages
      have habove : ∀ y ∈ ids answer.range.messages, lastId < y := by
        intro y hy
        simpa [MessagePageParams.admits] using (hexact.sound y hy).2
      have hupTo : ∀ y ∈ ids (mergeMessages b.range.messages answer.range.messages),
          y ≤ lastId → y ∈ ids b.range.messages := by
        intro y hy hle
        obtain hy | hy := (hmem y).mp hy
        · exact hy
        · have := habove y hy
          omega
      refine ⟨hascending, fun o ho => (hmem o).mpr (.inl (hbase.older_le ho).1), ?_, ?_⟩
      · intro n hn
        obtain ⟨hn₁, hn₂⟩ := hexact.le_newer hn
        refine hascending.mem_getLast?.mpr ⟨(hmem n).mpr (.inr hn₁), fun y hy => ?_⟩
        obtain hy | hy := (hmem y).mp hy
        · have := hlastLe y hy
          have := habove n hn₁
          omega
        · exact hn₂ y hy
      · intro x hx hlower hupper
        simp only [List.mem_append, List.mem_filter, decide_eq_true_eq] at hx
        rw [hmem]
        obtain ⟨hx, hle⟩ | ⟨hx, hlt⟩ := hx
        · left
          obtain ⟨y, hy, hyx⟩ := hlower
          exact hbase.mem hx (admits_around _ x) (.inr ⟨y, hupTo y hy (by omega), hyx⟩)
            (.inl hbnewer)
        · right
          refine hexact.mem hx (by simpa [MessagePageParams.admits] using hlt)
            (.inl hexact.edge) ?_
          obtain hnone | ⟨y, hy, hxy⟩ := hupper
          · exact .inl hnone
          · obtain hy | hy := (hmem y).mp hy
            · have := hlastLe y hy
              omega
            · exact .inr ⟨y, hy, hxy⟩

namespace ConversationStore

variable {s t : ConversationStore M}

@[simp] theorem withLiveCursor_messages (page : MessageRange M) :
    (s.withLiveCursor page).messages = page.messages := by
  unfold withLiveCursor
  split
  · rfl
  · split <;> rfl

@[simp] theorem withLiveCursor_olderCursor (page : MessageRange M) :
    (s.withLiveCursor page).olderCursor = page.olderCursor := by
  unfold withLiveCursor
  split
  · rfl
  · split <;> rfl

theorem withLiveCursor_newerCursor {page : MessageRange M} {n : Nat}
    (hn : n ∈ (s.withLiveCursor page).newerCursor) :
    n ∈ page.newerCursor ∨ n ∈ (ids page.messages).getLast? := by
  unfold withLiveCursor at hn
  split at hn
  · exact .inl hn
  · split at hn
    · obtain rfl := Option.some.inj hn
      exact .inr ‹_›
    · exact .inl hn

theorem newerCursor_of_withLiveCursor {page : MessageRange M}
    (h : (s.withLiveCursor page).newerCursor = none) : page.newerCursor = none := by
  unfold withLiveCursor at h
  split at h
  · exact h
  · split at h
    · cases h
    · exact h

/-- No id received so far lies past the last message of a page left without a cursor. -/
theorem le_of_withLiveCursor {page : MessageRange M} (hpage : Ascending page.messages)
    (h : (s.withLiveCursor page).newerCursor = none) (hne : ids page.messages ≠ []) {x : Nat}
    (hx : ∃ seen ∈ s.latestSeenId, x ≤ seen) : ∃ y ∈ ids page.messages, x ≤ y := by
  have hnewer := newerCursor_of_withLiveCursor h
  unfold withLiveCursor at h
  cases hlast : page.lastId with
  | none => exact absurd (by simpa [MessageRange.lastId] using hlast) hne
  | some lastId =>
    obtain ⟨seen, hseen, hle⟩ := hx
    have hseen : s.latestSeenId = some seen := hseen
    rw [hlast] at h
    simp only [hnewer, hseen, Option.isNone_none, Bool.true_and, Option.any_some] at h
    split at h
    · cases h
    · have hnot : ¬ lastId < seen := fun hlt => ‹¬ _› (by simp [hlt])
      exact ⟨lastId, (hpage.mem_getLast?.mp hlast).1, by omega⟩

/-- A newer cursor that `withLiveCursor` adds or keeps is the last id. -/
theorem withLiveCursor_newer {page : MessageRange M}
    (h : ∀ n ∈ page.newerCursor, n ∈ (ids page.messages).getLast?) :
    ∀ n ∈ (s.withLiveCursor page).newerCursor, n ∈ (ids (s.withLiveCursor page).messages).getLast? := by
  intro n hn
  rw [withLiveCursor_messages]
  obtain hn | hn := withLiveCursor_newerCursor hn
  · exact h n hn
  · exact hn

/-- Received ids that a page with a live cursor spans lie between its messages, or are in it. -/
theorem between_of_withLiveCursor {page : MessageRange M} (hpage : Ascending page.messages)
    {x : Nat} (hx : ∃ seen ∈ s.latestSeenId, x ≤ seen)
    (hspans : (s.withLiveCursor page).Spans x) (hmem : x ∉ ids page.messages) :
    Between page.messages x := by
  rw [MessageRange.spans_iff (by simpa using hpage), withLiveCursor_messages] at hspans
  obtain ⟨hlower, hupper⟩ := hspans
  refine ⟨hlower, ?_⟩
  obtain hnone | hupper := hupper
  · have hne : ids page.messages ≠ [] := by
      obtain ⟨y, hy, -⟩ := hlower
      exact List.ne_nil_of_mem hy
    obtain ⟨y, hy, hle⟩ := le_of_withLiveCursor hpage hnone hne hx
    have hxy : x ≠ y := fun h => hmem (h ▸ hy)
    exact ⟨y, hy, by omega⟩
  · exact hupper

theorem withLiveCursor_kept {answer : Answer M} (h : answer.Covers) {arrived : List Nat}
    (hseen : ∀ x ∈ arrived, ∃ seen ∈ s.latestSeenId, x ≤ seen)
    (hclear : ∀ x ∈ arrived, x ∉ answer.seen → ¬ Between answer.range.messages x) :
    (s.withLiveCursor answer.range).Kept arrived where
  ascending := by simpa using h.ascending
  older := by simpa using h.older
  newer := withLiveCursor_newer h.newer
  complete := by
    intro x hx hspans
    rw [withLiveCursor_messages]
    by_contra hmem
    have hbetween := between_of_withLiveCursor h.ascending (hseen x hx) hspans hmem
    apply hclear x hx ?_ hbetween
    intro hserver
    exact hmem (h.complete x hserver hbetween.1 (.inr hbetween.2))

theorem mergePage_newer_kept {page range : MessageRange M} {received seen : List Nat} {c : Nat}
    (h : page.Kept received) (hc : page.newerCursor = some c)
    (hrange : Exact seen (.after c) range)
    (hseen : ∀ x ∈ received, ∃ seen ∈ s.latestSeenId, x ≤ seen)
    (hclear : ∀ x ∈ received, x ∉ seen → x ∉ ids page.messages →
      ¬ Between (page.messages ++ range.messages) x) :
    (s.mergePage .newer page range).Kept received := by
  obtain ⟨hascending, hmem⟩ := mergeMessages_spec h.ascending range.messages
  obtain ⟨hcMem, hcLe⟩ := h.ascending.mem_getLast?.mp (h.newer c hc)
  have hpast : ∀ y ∈ ids range.messages, c < y := by
    intro y hy
    simpa [MessagePageParams.admits] using (hrange.sound y hy).2
  unfold mergePage
  refine ⟨by simpa using hascending, ?_, withLiveCursor_newer ?_, ?_⟩
  · intro o ho
    rw [withLiveCursor_messages]
    exact (hmem o).mpr (.inl (h.older o (by simpa using ho)))
  · intro n hn
    obtain ⟨hn₁, hn₂⟩ := hrange.le_newer hn
    refine hascending.mem_getLast?.mpr ⟨(hmem n).mpr (.inr hn₁), fun y hy => ?_⟩
    obtain hy | hy := (hmem y).mp hy
    · have := hcLe y hy
      have := hpast n hn₁
      omega
    · exact hn₂ y hy
  · intro x hx hspans
    rw [withLiveCursor_messages]
    by_contra hnot
    have hbetween := between_of_withLiveCursor hascending (hseen x hx) hspans hnot
    have hout : x ∉ ids page.messages ∧ x ∉ ids range.messages := by
      rwa [hmem, not_or] at hnot
    simp only [Between, hmem] at hbetween
    have hserver : x ∈ seen := by
      by_contra hserver
      exact hclear x hx hserver hout.1 (by simpa [Between] using hbetween)
    obtain ⟨⟨y, hy, hyx⟩, z, hz, hxz⟩ := hbetween
    have hxc : x ≠ c := fun hxc => hout.1 (hxc ▸ hcMem)
    by_cases hlt : c < x
    · apply hout.2
      refine hrange.mem hserver (by simpa [MessagePageParams.admits] using hlt)
        (.inl hrange.edge) (.inr ⟨z, ?_, hxz⟩)
      obtain hz | hz := hz
      · have := hcLe z hz
        omega
      · exact hz
    · apply hout.1
      refine h.complete x hx ((MessageRange.spans_iff h.ascending).mpr
        ⟨⟨y, ?_, hyx⟩, .inr ⟨c, hcMem, by omega⟩⟩)
      obtain hy | hy := hy
      · exact hy
      · have := hpast y hy
        omega

theorem mergePage_older_kept {page range : MessageRange M} {received seen : List Nat} {c : Nat}
    (h : page.Kept received) (hc : page.olderCursor = some c)
    (hrange : Exact seen (.before c) range)
    (hclear : ∀ x ∈ received, x ∉ seen → x ∉ ids page.messages →
      ¬ Between (page.messages ++ range.messages) x) :
    (s.mergePage .older page range).Kept received := by
  obtain ⟨hascending, hmem⟩ := mergeMessages_spec h.ascending range.messages
  have hcMem := h.older c hc
  have hshort : ∀ y ∈ ids range.messages, y < c := by
    intro y hy
    simpa [MessagePageParams.admits] using (hrange.sound y hy).2
  unfold mergePage
  refine ⟨hascending, fun o ho => (hmem o).mpr (.inr (hrange.older_le ho).1), ?_, ?_⟩
  · intro n hn
    obtain ⟨hn₁, hn₂⟩ := h.ascending.mem_getLast?.mp (h.newer n hn)
    refine hascending.mem_getLast?.mpr ⟨(hmem n).mpr (.inl hn₁), fun y hy => ?_⟩
    obtain hy | hy := (hmem y).mp hy
    · exact hn₂ y hy
    · have := hn₂ c hcMem
      have := hshort y hy
      omega
  · intro x hx hspans
    by_contra hnot
    have hout : x ∉ ids page.messages ∧ x ∉ ids range.messages := by
      rwa [hmem, not_or] at hnot
    rw [MessageRange.spans_iff hascending] at hspans
    simp only [hmem] at hspans
    -- Below the page: a message past its first one is spanned by the page already.
    have hbelow : ∀ y ∈ ids page.messages, x < y := by
      intro y hy
      by_contra hle
      have hxy : x ≠ y := fun hxy => hout.1 (hxy ▸ hy)
      apply hout.1
      refine h.complete x hx ((MessageRange.spans_iff h.ascending).mpr
        ⟨⟨y, hy, by omega⟩, ?_⟩)
      obtain hnone | ⟨z, hz | hz, hxz⟩ := hspans.2
      · exact .inl hnone
      · exact .inr ⟨z, hz, hxz⟩
      · have := hshort z hz
        exact .inr ⟨c, hcMem, by omega⟩
    have hlower : ∃ y ∈ ids range.messages, y < x := by
      obtain ⟨y, hy | hy, hyx⟩ := hspans.1
      · have := hbelow y hy
        omega
      · exact ⟨y, hy, hyx⟩
    have hserver : x ∈ seen := by
      by_contra hserver
      refine hclear x hx hserver hout.1 ⟨?_, c, by simp [hcMem], hbelow c hcMem⟩
      obtain ⟨y, hy, hyx⟩ := hlower
      exact ⟨y, by simp [hy], hyx⟩
    exact hout.2 (hrange.mem hserver (by simpa [MessagePageParams.admits] using hbelow c hcMem)
      (.inr hlower) (.inl hrange.edge))

/-- A page at the latest edge takes an arrival: nothing it now spans was left out before, unless
the arrival is older than its first message. -/
theorem merge_arrival_kept {page : MessageRange M} {received : List Nat} {m : M}
    (h : page.Kept received) (hlatest : page.newerCursor = none)
    (hclear : ∀ x ∈ received, messageId m < x → ∃ y ∈ ids page.messages, y ≤ x) :
    ({ page with messages := mergeMessages page.messages [m] } : MessageRange M).Kept
      (received ++ [messageId m]) := by
  obtain ⟨hascending, hmem⟩ := mergeMessages_spec h.ascending [m]
  simp only [ids_cons, ids_nil, List.mem_singleton] at hmem
  refine ⟨hascending, fun o ho => (hmem o).mpr (.inl (h.older o ho)), ?_, ?_⟩
  · intro n hn
    rw [hlatest] at hn
    cases hn
  · intro x hx hspans
    rw [List.mem_append, List.mem_singleton] at hx
    refine (hmem x).mpr ?_
    obtain hx | rfl := hx
    · rw [MessageRange.spans_iff hascending] at hspans
      simp only [hmem] at hspans
      obtain ⟨y, hy, hyx⟩ : ∃ y ∈ ids page.messages, y ≤ x := by
        obtain ⟨y, hy | rfl, hyx⟩ := hspans.1
        · exact ⟨y, hy, Nat.le_of_lt hyx⟩
        · exact hclear x hx hyx
      left
      by_cases hxy : y = x
      · exact hxy ▸ hy
      · exact h.complete x hx ((MessageRange.spans_iff h.ascending).mpr
          ⟨⟨y, hy, by omega⟩, .inl hlatest⟩)
    · exact .inr rfl

end ConversationStore

end Chahua.Conversations

import Chahua.Conversations.ReceivedMessages

namespace Chahua.Conversations

open Framework

universe u
variable {M : Type u} [TimelineMessage M]

open TimelineMessage (messageId)

namespace ConversationStore

variable {s t : ConversationStore M}

/-- No message that arrived while the page was being replaced lies in what stays loaded. -/
def Caught (s : ConversationStore M) : Prop :=
  ∀ page ∈ s.page, ∀ x ∈ s.deferred, page.Spans x → x ∈ ids page.messages

/-- The step leaves out no message inside the loaded range: an arrival there finds the page at the
latest edge with nothing received between it and the first message, the response of a request
was made after every arrival it spans, and an `open` that keeps the page left none out. -/
def Undisturbed (s : ConversationStore M) : Event M → Prop
  | .receive message => s.loading = false → ∀ page ∈ s.page,
      if page.newerCursor.isNone then
        ∀ x ∈ s.received, messageId message < x → ∃ y ∈ ids page.messages, y ≤ x
      else page.Spans (messageId message) → messageId message ∈ ids page.messages
  | .open around exact => s.upToDate around exact = true → s.Caught
  | .answerOpen => ∀ opening ∈ s.opening, ∀ answer ∈ opening.answer,
      s.refetches opening answer = false →
      if opening.missing answer then s.Caught
      else ∀ x ∈ opening.arrived, x ∉ (opening.result answer).seen →
        ¬ Between (opening.result answer).range.messages x
  | .failOpen => s.Caught
  | .answerLoad => ∀ paging ∈ s.paging, ∀ answer ∈ paging.answer, ∀ page ∈ s.page,
      ∀ x ∈ s.received, x ∉ answer.seen → x ∉ ids page.messages →
        ¬ Between (page.messages ++ answer.range.messages) x
  | _ => True

structure Kept (s : ConversationStore M) : Prop where
  page : ∀ page ∈ s.page, page.Kept s.received
  opening : ∀ opening ∈ s.opening, opening.Sound ∧ ∀ x ∈ opening.arrived, x ∈ s.deferred
  paging : ∀ paging ∈ s.paging, s.opening = none ∧ ∃ page ∈ s.page,
    page.cursor paging.direction = some paging.cursor ∧
      ∀ answer ∈ paging.answer, Exact answer.seen paging.params answer.range
  deferred : s.opening = none → s.deferred = []
  seen : ∀ x, x ∈ s.received ∨ x ∈ s.deferred → ∃ seen ∈ s.latestSeenId, x ≤ seen

/-- A store before its first `open`. -/
structure Fresh (s : ConversationStore M) : Prop where
  page : s.page = none
  opening : s.opening = none
  paging : s.paging = none
  received : s.received = []
  deferred : s.deferred = []

theorem Fresh.kept (h : s.Fresh) : s.Kept where
  page := by simp [h.page]
  opening := by simp [h.opening]
  paging := by simp [h.paging]
  deferred := fun _ => h.deferred
  seen := by simp [h.received, h.deferred]

namespace Kept

theorem publish (h : s.Kept) (id : Nat) :
    ({ s with visible := s.visible ++ [id] } : ConversationStore M).Kept :=
  ⟨h.page, h.opening, h.paging, h.deferred, h.seen⟩

/-- The ids received before and the message stay within `latestSeenId`. -/
theorem see (h : s.Kept) (message : M) {x : Nat}
    (hx : (x ∈ s.received ∨ x ∈ s.deferred) ∨ x = messageId message) :
    ∃ seen ∈ (s.see message).latestSeenId, x ≤ seen := by
  unfold ConversationStore.see
  cases hs : s.latestSeenId with
  | none =>
    obtain hx | rfl := hx
    · obtain ⟨seen, hseen, -⟩ := h.seen x hx
      rw [hs] at hseen
      cases hseen
    · exact ⟨_, rfl, Nat.le_refl _⟩
  | some last =>
    refine ⟨_, rfl, ?_⟩
    have hlast : x ∈ s.received ∨ x ∈ s.deferred → x ≤ last := by
      intro hx
      obtain ⟨seen, hseen, hle⟩ := h.seen x hx
      obtain rfl : last = seen := Option.some.inj (hs.symm.trans hseen)
      exact hle
    simp only [Option.elim_some]
    split
    · obtain hx | rfl := hx
      · have := hlast hx
        omega
      · exact Nat.le_refl _
    · obtain hx | rfl := hx
      · exact hlast hx
      · omega

theorem receive (h : s.Kept) {message : M} (hok : s.Undisturbed (.receive message)) :
    (s.receive message).Kept := by
  cases ho : s.opening with
  | some opening =>
    obtain ⟨hsound, harrived⟩ := h.opening opening ho
    have hreceive : s.receive message =
        { s.see message with
          opening := some { opening with arrived := opening.arrived ++ [messageId message] }
          deferred := s.deferred ++ [messageId message] } := by
      simp [ConversationStore.receive, ConversationStore.see, ho]
    rw [hreceive]
    refine ⟨h.page, ?_, ?_, (by rintro ⟨⟩), ?_⟩
    · rintro _ ⟨⟩
      refine ⟨⟨hsound.base, hsound.answer⟩, fun x hx => ?_⟩
      simp only [List.mem_append] at hx ⊢
      exact hx.imp_left (harrived x)
    · intro paging hp
      obtain ⟨hnone, -⟩ := h.paging paging hp
      rw [ho] at hnone
      cases hnone
    · intro x hx
      have hx : x ∈ s.received ∨ x ∈ s.deferred ++ [messageId message] := hx
      apply h.see
      simpa [or_assoc] using hx
  | none =>
    have hdeferred := h.deferred ho
    have hreceive : s.receive message =
        { s.see message with
          page := if (s.see message).atLatest then
              s.page.map fun page =>
                { page with messages := mergeMessages page.messages [message] }
            else s.page
          received := s.received ++ [messageId message] } := by
      simp [ConversationStore.receive, ConversationStore.see, ho]
    have hloading : s.loading = false := by simp [loading, ho]
    have hat : (s.see message).atLatest = s.page.any fun page => page.newerCursor.isNone := by
      simp [atLatest, loading, ConversationStore.see, ho]
    rw [hreceive, hat]
    refine ⟨?_, ?_, ?_, fun _ => hdeferred, ?_⟩
    · intro page hp
      cases hpage : s.page with
      | none => simp [hpage] at hp
      | some old =>
        have hok := hok hloading old hpage
        simp only [hpage, Option.any_some, Option.map_some] at hp
        by_cases hnewer : old.newerCursor.isNone = true
        · rw [if_pos hnewer] at hp hok
          obtain rfl := Option.some.inj hp
          exact merge_arrival_kept (h.page old hpage) (by simpa using hnewer) hok
        · rw [if_neg hnewer] at hp hok
          obtain rfl := Option.some.inj hp
          have hold := h.page old hpage
          refine ⟨hold.ascending, hold.older, hold.newer, fun x hx hspans => ?_⟩
          rw [List.mem_append, List.mem_singleton] at hx
          obtain hx | rfl := hx
          · exact hold.complete x hx hspans
          · exact hok hspans
    · intro opening hopening
      have hopening : s.opening = some opening := hopening
      rw [ho] at hopening
      cases hopening
    · intro paging hp
      obtain ⟨hnone, page, hpage, hcursor, hanswer⟩ := h.paging paging hp
      refine ⟨hnone, ?_⟩
      have hpage : s.page = some page := hpage
      simp only [hpage, Option.any_some, Option.map_some]
      split
      · refine ⟨_, rfl, ?_, hanswer⟩
        rw [← hcursor]
        cases paging.direction <;> rfl
      · exact ⟨page, rfl, hcursor, hanswer⟩
    · intro x hx
      apply h.see
      simp only [List.mem_append, List.mem_singleton] at hx
      obtain (hx | rfl) | hx := hx
      · exact .inl (.inl hx)
      · exact .inr rfl
      · exact .inl (.inr hx)

/-- The page stays: what arrived meanwhile counts as received since its `open`. -/
theorem settle (h : s.Kept) (hcaught : s.Caught) (hp : s.paging = none) : s.settle.Kept where
  page := by
    intro page hpage
    have hold := h.page page hpage
    refine ⟨hold.ascending, hold.older, hold.newer, fun x hx hspans => ?_⟩
    obtain hx | hx := List.mem_append.mp hx
    · exact hold.complete x hx hspans
    · exact hcaught page hpage x hx hspans
  opening := by rintro _ ⟨⟩
  paging := by
    intro paging hpaging
    have hpaging : s.paging = some paging := hpaging
    rw [hp] at hpaging
    cases hpaging
  deferred := fun _ => rfl
  seen := by
    intro x hx
    apply h.seen
    simpa [ConversationStore.settle] using hx

theorem paging_of_opening (h : s.Kept) {opening : Opening M} (ho : s.opening = some opening) :
    s.paging = none := by
  cases hp : s.paging with
  | none => rfl
  | some paging =>
    obtain ⟨hnone, -⟩ := h.paging paging hp
    rw [ho] at hnone
    cases hnone

/-- Fields that neither the page nor a request reads may change. -/
theorem congr_flags (h : s.Kept) (needsResync retryNewer : Bool) :
    ({ s with needsResync, retryNewer } : ConversationStore M).Kept :=
  ⟨h.page, h.opening, h.paging, h.deferred, h.seen⟩

theorem cancelPaging (h : s.Kept) : ({ s with paging := none } : ConversationStore M).Kept where
  page := h.page
  opening := h.opening
  paging := by rintro _ ⟨⟩
  deferred := h.deferred
  seen := h.seen

theorem openAt (h : s.Kept) {around : Option Nat} {exact : Bool}
    (hok : s.upToDate around exact = true → s.Caught) : (s.openAt around exact).Kept := by
  have hcancel := (h.congr_flags s.needsResync false).cancelPaging
  unfold ConversationStore.openAt
  simp only
  split
  · exact hcancel.settle (hok ‹_›) rfl
  · refine ⟨h.page, ?_, by rintro _ ⟨⟩, (by rintro ⟨⟩), h.seen⟩
    rintro _ ⟨⟩
    exact ⟨⟨by rintro _ ⟨⟩, by rintro _ ⟨⟩⟩, by rintro _ ⟨⟩⟩

theorem load (h : s.Kept) (direction : PageDirection) : (s.load direction).Kept := by
  unfold ConversationStore.load
  split
  · split
    · exact h
    · obtain ⟨page, hpage, hcursor⟩ := Option.bind_eq_some_iff.mp ‹_›
      have hopening : s.opening = none := by
        have hcan := ‹s.canLoad direction = true›
        simp [canLoad, loading] at hcan
        exact hcan.1.2
      refine ⟨h.page, h.opening, ?_, h.deferred, h.seen⟩
      rintro _ ⟨⟩
      exact ⟨hopening, page, hpage, hcursor, by rintro _ ⟨⟩⟩
  · exact h

theorem serveOpen (h : s.Kept) {opening : Opening M} (ho : s.opening = some opening)
    {range : MessageRange M} (hexact : Exact s.visible opening.params range) :
    ({ s with opening := some { opening with answer := some ⟨range, s.visible⟩ } } :
      ConversationStore M).Kept := by
  obtain ⟨hsound, harrived⟩ := h.opening opening ho
  refine ⟨h.page, ?_, ?_, (by rintro ⟨⟩), h.seen⟩
  · rintro _ ⟨⟩
    refine ⟨⟨hsound.base, ?_⟩, harrived⟩
    rintro _ ⟨⟩
    exact hexact
  · intro paging hp
    have hp : s.paging = some paging := hp
    rw [h.paging_of_opening ho] at hp
    cases hp

theorem answerOpen (h : s.Kept) {opening : Opening M} (ho : s.opening = some opening)
    {answer : Answer M} (ha : opening.answer = some answer) (hok : s.Undisturbed .answerOpen) :
    (s.answerOpen opening answer).Kept := by
  obtain ⟨hsound, harrived⟩ := h.opening opening ho
  have hpaging := h.paging_of_opening ho
  have hok := hok opening ho answer ha
  unfold ConversationStore.answerOpen
  split
  · rename_i hagain
    have hexact := hsound.answer answer ha
    have hbase : opening.base = none := by
      cases hb : opening.base with
      | none => rfl
      | some b => simp [refetches, hb] at hagain
    have hparams : opening.params = opening.around.elim .latest .around := by
      simp [Opening.params, hbase]
    rw [hparams] at hexact
    refine ⟨h.page, ?_, ?_, (by rintro ⟨⟩), h.seen⟩
    · rintro _ ⟨⟩
      refine ⟨⟨?_, by rintro _ ⟨⟩⟩, harrived⟩
      rintro _ ⟨⟩
      refine ⟨hexact, ?_⟩
      cases hn : answer.range.newerCursor with
      | none => rfl
      | some n =>
        have hlast := hexact.newer n hn
        simp only [refetches, hn, Option.isNone_some, Bool.false_and, Bool.false_or,
          Bool.and_eq_true, List.isEmpty_iff] at hagain
        rw [hagain.2.1] at hlast
        cases hlast
    · intro paging hp
      have hp : s.paging = some paging := hp
      rw [hpaging] at hp
      cases hp
  · rename_i hlast
    have hlast : s.refetches opening answer = false := by simpa using hlast
    have hok := hok hlast
    split
    · rw [if_pos ‹_›] at hok
      exact h.settle hok hpaging
    · rw [if_neg ‹_›] at hok
      refine ⟨?_, by rintro _ ⟨⟩, ?_, fun _ => rfl, ?_⟩
      · rintro _ ⟨⟩
        apply withLiveCursor_kept (hsound.result ha)
        · exact fun x hx => h.seen x (.inr (harrived x hx))
        · exact hok
      · intro paging hp
        have hp : s.paging = some paging := hp
        rw [hpaging] at hp
        cases hp
      · rintro x (hx | hx)
        · exact h.seen x (.inr (harrived x hx))
        · cases hx

theorem failOpen (h : s.Kept) {opening : Opening M} (ho : s.opening = some opening)
    (hok : s.Caught) : s.failOpen.Kept :=
  (h.settle hok (h.paging_of_opening ho)).congr_flags true s.retryNewer

theorem serveLoad (h : s.Kept) {paging : Paging M} (hp : s.paging = some paging)
    {range : MessageRange M} (hexact : Exact s.visible paging.params range) :
    ({ s with paging := some { paging with answer := some ⟨range, s.visible⟩ } } :
      ConversationStore M).Kept := by
  obtain ⟨hnone, page, hpage, hcursor, -⟩ := h.paging paging hp
  refine ⟨h.page, h.opening, ?_, h.deferred, h.seen⟩
  rintro _ ⟨⟩
  refine ⟨hnone, page, hpage, hcursor, ?_⟩
  rintro _ ⟨⟩
  exact hexact

theorem answerLoad (h : s.Kept) {paging : Paging M} (hp : s.paging = some paging)
    {answer : Answer M} (ha : paging.answer = some answer) (hok : s.Undisturbed .answerLoad) :
    (s.answerLoad paging answer).Kept := by
  obtain ⟨hnone, page, hpage, hcursor, hanswer⟩ := h.paging paging hp
  have hexact := hanswer answer ha
  have hpage : s.page = some page := hpage
  have hclear := hok paging hp answer ha page hpage
  refine ⟨?_, h.opening, by rintro _ ⟨⟩, h.deferred, h.seen⟩
  intro merged hmerged
  simp only [ConversationStore.answerLoad, hpage, Option.map_some, Option.mem_def,
    Option.some.injEq] at hmerged
  obtain rfl := hmerged
  have hold := h.page page hpage
  unfold Paging.params at hexact
  cases hd : paging.direction with
  | older =>
    rw [hd] at hexact hcursor
    exact mergePage_older_kept hold hcursor hexact hclear
  | newer =>
    rw [hd] at hexact hcursor
    exact mergePage_newer_kept hold hcursor hexact (fun x hx => h.seen x (.inl hx)) hclear

/-- The page is taken to end at its last message. -/
theorem endPage (h : s.Kept) {last : Nat}
    (hlatest : ∀ page ∈ s.page, page.newerCursor = none ∧ page.lastId = some last) :
    ({ s with page := s.page.map fun page => { page with newerCursor := some last } } :
      ConversationStore M).Kept where
  page := by
    intro page hp
    cases hpage : s.page with
    | none => simp [hpage] at hp
    | some old =>
      simp only [hpage, Option.map_some, Option.mem_def, Option.some.injEq] at hp
      obtain rfl := hp
      obtain ⟨hnewer, hlast⟩ := hlatest old hpage
      have hold := h.page old hpage
      refine ⟨hold.ascending, hold.older, ?_, fun x hx hspans => ?_⟩
      · rintro _ ⟨⟩
        exact hlast
      · exact hold.complete x hx ⟨hspans.1, .inl hnewer⟩
  opening := h.opening
  paging := by
    intro paging hp
    obtain ⟨hnone, page, hpage, hcursor, hanswer⟩ := h.paging paging hp
    have hpage : s.page = some page := hpage
    refine ⟨hnone, { page with newerCursor := some last }, by simp [hpage], ?_, hanswer⟩
    cases hd : paging.direction with
    | older =>
      rw [hd] at hcursor
      exact hcursor
    | newer =>
      rw [hd] at hcursor
      exact absurd (hcursor.symm.trans (hlatest page hpage).1) (by rintro ⟨⟩)
  deferred := h.deferred
  seen := h.seen

theorem reconnect (h : s.Kept) : s.reconnect.Kept := by
  unfold ConversationStore.reconnect
  split
  · exact (h.congr_flags true s.retryNewer).load .newer
  · split
    · rename_i hat
      split
      · refine (h.congr_flags true s.retryNewer).openAt fun hup => ?_
        simp [upToDate] at hup
      · rename_i last hlast
        obtain ⟨page, hpage, hlastId⟩ := Option.bind_eq_some_iff.mp hlast
        refine Kept.load (Kept.congr_flags (h.endPage ?_) false true) .newer
        intro other hother
        obtain rfl : page = other := Option.some.inj (hpage.symm.trans hother)
        simp [atLatest, hpage] at hat
        exact ⟨hat.1, hlastId⟩
    · exact h.congr_flags true s.retryNewer

theorem step (h : s.Kept) {e : Event M} (hok : s.Undisturbed e)
    (ht : ConversationStore.step s e = some t) : t.Kept := by
  cases e with
  | publish id =>
    obtain rfl := Option.some.inj ht
    exact h.publish id
  | receive message =>
    simp only [ConversationStore.step, Option.ite_none_right_eq_some, Option.some.injEq] at ht
    obtain ⟨-, rfl⟩ := ht
    exact h.receive hok
  | «open» around exact =>
    obtain rfl := Option.some.inj ht
    exact h.openAt hok
  | serveOpen range =>
    obtain ⟨opening, ho, ht⟩ := Option.bind_eq_some_iff.mp ht
    simp only [Option.ite_none_right_eq_some, Option.some.injEq] at ht
    obtain ⟨⟨-, hexact⟩, rfl⟩ := ht
    exact h.serveOpen ho hexact
  | answerOpen =>
    obtain ⟨opening, ho, ht⟩ := Option.bind_eq_some_iff.mp ht
    obtain ⟨answer, ha, rfl⟩ := Option.map_eq_some_iff.mp ht
    exact h.answerOpen ho ha hok
  | failOpen =>
    simp only [ConversationStore.step, Option.ite_none_right_eq_some, Option.some.injEq] at ht
    obtain ⟨hloading, rfl⟩ := ht
    obtain ⟨opening, ho⟩ := Option.isSome_iff_exists.mp hloading
    exact h.failOpen ho hok
  | load direction =>
    obtain rfl := Option.some.inj ht
    exact h.load direction
  | serveLoad range =>
    obtain ⟨paging, hp, ht⟩ := Option.bind_eq_some_iff.mp ht
    simp only [Option.ite_none_right_eq_some, Option.some.injEq] at ht
    obtain ⟨⟨-, hexact⟩, rfl⟩ := ht
    exact h.serveLoad hp hexact
  | answerLoad =>
    obtain ⟨paging, hp, ht⟩ := Option.bind_eq_some_iff.mp ht
    obtain ⟨answer, ha, rfl⟩ := Option.map_eq_some_iff.mp ht
    exact h.answerLoad hp ha hok
  | failLoad =>
    simp only [ConversationStore.step, Option.ite_none_right_eq_some, Option.some.injEq] at ht
    obtain ⟨-, rfl⟩ := ht
    exact h.cancelPaging
  | reconnect =>
    obtain rfl := Option.some.inj ht
    exact h.reconnect

end Kept

theorem run_kept {es : List (Event M)} (hs : s.Fresh)
    (ht : run ConversationStore.step s es = some t)
    (hok : Along ConversationStore.step Undisturbed s es) : t.Kept :=
  run_invariant_along (fun _ _ _ h hok ht => h.step hok ht) hs.kept hok ht

end ConversationStore

/-- After an undisturbed run, a page with no request in flight is ascending and has every message
received since its `open` in the loaded range. -/
theorem received_messages_kept (s t : ConversationStore M) (es : List (ConversationStore.Event M)) :
    s.Fresh → run ConversationStore.step s es = some t →
    Along ConversationStore.step ConversationStore.Undisturbed s es →
    ∀ page, t.page = some page → t.opening = none → t.paging = none →
      Ascending page.messages ∧ ∀ x ∈ t.received, page.Spans x → x ∈ ids page.messages := by
  intro hs ht hok page hpage _ _
  have h := (ConversationStore.run_kept hs ht hok).page page hpage
  exact ⟨h.ascending, h.complete⟩

/-- A store before its first `open`, reading a server with the given messages. -/
def ConversationStore.initial (M : Type u) (visible : List Nat) : ConversationStore M where
  page := none
  latestSeenId := none
  needsResync := false
  retryNewer := false
  opening := none
  paging := none
  visible := visible
  received := []
  deferred := []

omit [TimelineMessage M] in
theorem ConversationStore.fresh_initial (visible : List Nat) : (initial M visible).Fresh :=
  ⟨rfl, rfl, rfl, rfl, rfl⟩

/-- A message of which only the id matters. -/
structure PlainMessage where
  id : Nat
  deriving DecidableEq

instance : TimelineMessage PlainMessage := ⟨PlainMessage.id, fun _ => true⟩

/-- A live message and an older page both join the newest window. -/
theorem received_messages_kept_loaded :
    ∃ t, run ConversationStore.step (.initial PlainMessage [1, 2, 3])
        [.open none false, .serveOpen ⟨[⟨2⟩, ⟨3⟩], some 2, none⟩, .answerOpen, .load .older,
          .publish 4, .receive ⟨4⟩, .serveLoad ⟨[⟨1⟩], none, none⟩, .answerLoad] = some t ∧
      ∃ page, t.page = some page ∧ ids page.messages = [1, 2, 3, 4] ∧
        ∀ x ∈ t.received, page.Spans x → x ∈ ids page.messages := by
  have h := fun t => received_messages_kept (.initial PlainMessage [1, 2, 3]) t
    [.open none false, .serveOpen ⟨[⟨2⟩, ⟨3⟩], some 2, none⟩, .answerOpen, .load .older,
      .publish 4, .receive ⟨4⟩, .serveLoad ⟨[⟨1⟩], none, none⟩, .answerLoad]
    (ConversationStore.fresh_initial _)
  refine ⟨_, rfl, _, rfl, rfl, (h _ rfl ?_ _ rfl rfl rfl).2⟩
  refine .cons rfl (by rintro ⟨⟩) <| .cons rfl trivial <| .cons rfl ?_ <| .cons rfl trivial <|
    .cons rfl trivial <| .cons rfl ?_ <| .cons rfl trivial <| .cons rfl ?_ trivial
  · rintro _ ⟨⟩ _ ⟨⟩ _ x ⟨⟩
  · rintro _ _ ⟨⟩ x ⟨⟩
  · rintro _ ⟨⟩ _ ⟨⟩ _ ⟨⟩ x hx hserver hmem
    exact absurd hx (by decide +revert)

/-- A page at the latest edge is kept by an `open` that ends a jump, although a message arrived
while the jump was loading. -/
theorem cancelled_jump_loses_message :
    ∃ t, run ConversationStore.step (.initial PlainMessage [1])
        [.open none false, .serveOpen ⟨[⟨1⟩], none, none⟩, .answerOpen, .open (some 1) false,
          .publish 2, .receive ⟨2⟩, .open none false] = some t ∧
      ∃ page, t.page = some page ∧ t.opening = none ∧ t.paging = none ∧ 2 ∈ t.received ∧
        page.Spans 2 ∧ 2 ∉ ids page.messages :=
  ⟨_, rfl, _, rfl, rfl, rfl, by decide, ⟨⟨1, rfl, by decide⟩, .inl rfl⟩, by decide⟩

end Chahua.Conversations

import Chahua.Mentions.CodeRegions

namespace Chahua.Mentions

open Chahua.Messages

/-- The mentions that are not left as they are shown. -/
def keptMentions (value : EditableText) : List MentionSpan :=
  value.mentions.filter fun mention => !inCode value.text mention.start

/-- The macros that are written, each with the text before it, and the text after the last. -/
def writtenMatches (text : List Char) : Nat → List MentionSpan → List MacroMatch × List Char
  | last, [] => ([], text.drop last)
  | last, mention :: mentions =>
      if inCode text mention.start then writtenMatches text last mentions
      else
        let later := writtenMatches text mention.stop mentions
        (⟨slice text last mention.start, Nat.toDigits 10 mention.uid⟩ :: later.1, later.2)

/-- No macro starts in a piece, and the digits of each match are digits. -/
structure Separated (ms : List MacroMatch) (tail : List Char) : Prop where
  before : ∀ m ∈ ms, ¬macroPrefix <:+: m.before
  digits : ∀ m ∈ ms, m.digits ≠ [] ∧ ∀ c ∈ m.digits, c.isDigit = true
  tail : ¬macroPrefix <:+: tail

theorem Separated.of_cons {m : MacroMatch} {ms : List MacroMatch} {tail : List Char}
    (h : Separated (m :: ms) tail) : Separated ms tail where
  before other hmem := h.before other (List.mem_cons_of_mem _ hmem)
  digits other hmem := h.digits other (List.mem_cons_of_mem _ hmem)
  tail := h.tail

/-- A text where a macro can only start with the first character. -/
def Resumes (rest : List Char) : Prop := rest = [] ∨ ∃ next, rest = '@' :: next

theorem resumes_raw (m : MacroMatch) (rest : List Char) : Resumes (m.raw ++ rest) := by
  refine Or.inr ⟨['[', 'u', 'i', 'd', ':'] ++ m.digits ++ [']'] ++ rest, ?_⟩
  simp [MacroMatch.raw, macroPrefix]

/-- A macro does not start in a piece and end behind it: it has one at sign. -/
theorem not_starts_in_piece {piece rest : List Char} (hpiece : piece ≠ [])
    (hfree : ¬macroPrefix <:+: piece) (hrest : Resumes rest) : ¬macroPrefix <+: piece ++ rest := by
  intro hstarts
  obtain ⟨last, heq⟩ := hstarts
  obtain ⟨more, hmore, -⟩ | ⟨more, hmore, hsplit⟩ := List.append_eq_append_iff.mp heq
  · exact hfree (hmore ▸ (List.prefix_append ..).isInfix)
  · cases more with
    | nil =>
      rw [List.append_nil] at hmore
      exact hfree (hmore ▸ List.infix_refl _)
    | cons c more =>
      obtain rfl | ⟨next, rfl⟩ := hrest
      · cases hsplit
      · obtain ⟨rfl, -⟩ := List.cons.inj hsplit
        cases piece with
        | nil => exact hpiece rfl
        | cons d piece =>
          have htail : ['[', 'u', 'i', 'd', ':'] = piece ++ '@' :: more := (List.cons.inj hmore).2
          have hmem : '@' ∈ piece ++ '@' :: more := by simp
          rw [← htail] at hmem
          exact absurd hmem (by decide)

theorem not_within_of_cons {c : Char} {piece : List Char} (h : ¬macroPrefix <:+: c :: piece) :
    ¬macroPrefix <:+: piece :=
  fun hwithin => h (hwithin.trans (List.suffix_cons c piece).isInfix)

theorem matchMacro_raw {m : MacroMatch} (hne : m.digits ≠ [])
    (hdigits : ∀ c ∈ m.digits, c.isDigit = true) (rest : List Char) :
    matchMacro (m.raw ++ rest) = some (m.digits, rest) := by
  have htake : (m.digits ++ ']' :: rest).takeWhile Char.isDigit = m.digits := by
    rw [List.takeWhile_append_of_pos hdigits]
    simp
  have hdrop : (m.digits ++ ']' :: rest).dropWhile Char.isDigit = ']' :: rest := by
    rw [List.dropWhile_append_of_pos hdigits]
    simp
  have hraw : m.raw ++ rest = '@' :: '[' :: 'u' :: 'i' :: 'd' :: ':' :: (m.digits ++ ']' :: rest) := by
    simp [MacroMatch.raw, macroPrefix]
  rw [hraw]
  simp only [matchMacro, hdrop, htake, if_neg hne]

theorem scanMacros_piece {piece rest : List Char} (hfree : ¬macroPrefix <:+: piece)
    (hrest : Resumes rest) (fuel : Nat) (before : List Char) :
    scanMacros (piece.length + fuel) before (piece ++ rest) =
      scanMacros fuel (before ++ piece) rest := by
  induction piece generalizing before with
  | nil => simp
  | cons c piece ih =>
    have hnone : matchMacro (c :: (piece ++ rest)) = none := by
      by_contra hsome
      exact not_starts_in_piece (List.cons_ne_nil c piece) hfree hrest
        (starts_of_matchMacro (Option.isSome_iff_ne_none.mpr hsome))
    rw [List.length_cons, Nat.add_right_comm, List.cons_append, scanMacros, hnone]
    dsimp only
    rw [ih (not_within_of_cons hfree), List.append_assoc]
    rfl

/-- What the fuel of a scan is spent on up to the first match, and what it leaves. -/
theorem fuel_joinMatches {m : MacroMatch} {ms : List MacroMatch} {tail : List Char} {fuel : Nat}
    (hfuel : (joinMatches (m :: ms) tail).length ≤ fuel) :
    ∃ c text more, m.raw ++ joinMatches ms tail = c :: text ∧
      fuel = m.before.length + (more + 1) ∧ (joinMatches ms tail).length ≤ more := by
  rw [joinMatches_cons, List.length_append] at hfuel
  have hlength : (m.raw ++ joinMatches ms tail).length =
      m.raw.length + (joinMatches ms tail).length := List.length_append
  have hraw : 0 < m.raw.length := by simp [MacroMatch.raw, macroPrefix]
  obtain ⟨c, text, htext⟩ := List.exists_cons_of_length_pos
    (show 0 < (m.raw ++ joinMatches ms tail).length by omega)
  exact ⟨c, text, fuel - m.before.length - 1, htext, by omega, by omega⟩

/-- Separated matches are found again. -/
theorem scanMacros_joinMatches {ms : List MacroMatch} {tail : List Char} (h : Separated ms tail)
    {fuel : Nat} (hfuel : (joinMatches ms tail).length ≤ fuel) :
    scanMacros fuel [] (joinMatches ms tail) = (ms, tail) := by
  induction ms generalizing fuel with
  | nil =>
    obtain ⟨more, rfl⟩ := Nat.exists_eq_add_of_le hfuel
    have hpiece := scanMacros_piece h.tail (Or.inl rfl) more []
    rw [List.append_nil] at hpiece
    change scanMacros (tail.length + more) [] tail = _
    rw [hpiece]
    cases more <;> simp [scanMacros]
  | cons m ms ih =>
    obtain ⟨c, text, more, htext, rfl, hmore⟩ := fuel_joinMatches hfuel
    obtain ⟨hne, hdigits⟩ := h.digits m List.mem_cons_self
    have hmatch := matchMacro_raw hne hdigits (joinMatches ms tail)
    rw [joinMatches_cons, scanMacros_piece (h.before m List.mem_cons_self) (resumes_raw m _)]
    rw [htext] at hmatch ⊢
    simp only [scanMacros, hmatch, List.nil_append]
    rw [ih h.of_cons hmore]

theorem matchAll_joinMatches {ms : List MacroMatch} {tail : List Char} (h : Separated ms tail) :
    matchAll (joinMatches ms tail) = (ms, tail) :=
  scanMacros_joinMatches h (Nat.le_refl _)

theorem starts_of_parseMentionToken {text : List Char} (h : parseMentionToken text ≠ none) :
    macroPrefix <+: text := by
  unfold parseMentionToken at h
  split at h
  · next rest =>
    split at h
    · split at h
      · next uid hinner =>
        have hrest := List.takeWhile_append_dropWhile (p := fun c => decide (c ≠ ']')) (l := rest)
        rw [hinner] at hrest
        refine ⟨uid ++ rest.dropWhile (fun c => decide (c ≠ ']')), ?_⟩
        simp only [macroPrefix, List.cons_append, List.nil_append] at hrest ⊢
        rw [hrest]
      · exact absurd rfl h
    · exact absurd rfl h
  · exact absurd rfl h

theorem foldl_digits (digits : List Char) (n : Nat) :
    digits.foldl (fun (n : Int) c => n * 10 + (c.toNat - '0'.toNat : Nat)) (n : Int) =
      (Nat.ofDigitChars 10 digits n : Nat) := by
  induction digits generalizing n with
  | nil => rfl
  | cons c digits ih =>
    rw [List.foldl_cons, Nat.ofDigitChars_cons, ← ih]
    congr 1
    push_cast
    omega

theorem parseI32_digits {digits : List Char} (hne : digits ≠ [])
    (hdigits : ∀ c ∈ digits, c.isDigit = true)
    (hrange : Nat.ofDigitChars 10 digits 0 ≤ 2147483647) :
    parseI32 digits = some (Nat.ofDigitChars 10 digits 0 : Int) := by
  have hany : digits.any (fun c => !c.isDigit) = false := by
    rw [List.any_eq_false]
    intro c hmem
    simp [hdigits c hmem]
  have hfold : digits.foldl (fun (n : Int) c => n * 10 + (c.toNat - '0'.toNat : Nat)) 0 =
      (Nat.ofDigitChars 10 digits 0 : Nat) := foldl_digits digits 0
  have hfirst : digits.head? ≠ some '-' ∧ digits.head? ≠ some '+' := by
    cases digits with
    | nil => exact absurd rfl hne
    | cons c digits =>
      have hdigit := hdigits c List.mem_cons_self
      constructor <;>
      · intro hc
        rw [List.head?_cons, Option.some.injEq] at hc
        rw [hc] at hdigit
        exact absurd hdigit (by decide)
  unfold parseI32
  split
  next negative rest hsign =>
  split at hsign
  · exact absurd rfl hfirst.1
  · exact absurd rfl hfirst.2
  · obtain ⟨rfl, rfl⟩ := Prod.mk.inj hsign
    rw [if_neg (by simp [hne, hany])]
    simp only [Bool.false_eq_true, if_false, hfold]
    rw [if_pos (by omega)]

theorem canonical_digits (uid : Nat) :
    Nat.toDigits 10 uid ≠ [] ∧ ∀ c ∈ Nat.toDigits 10 uid, c.isDigit = true :=
  ⟨Nat.toDigits_ne_nil,
    fun _ hmem => Nat.isDigit_of_mem_toDigits (by decide) (by decide) hmem⟩

theorem parseMentionToken_raw {m : MacroMatch} (hne : m.digits ≠ [])
    (hdigits : ∀ c ∈ m.digits, c.isDigit = true) (hrange : m.uid ≤ 2147483647) (rest : List Char) :
    parseMentionToken (m.raw ++ rest) = some ((m.uid : Int), rest) := by
  have hname : ∀ c ∈ ['u', 'i', 'd', ':'], decide (c ≠ ']') = true := by simp
  have hinner : ∀ c ∈ ['u', 'i', 'd', ':'] ++ m.digits, decide (c ≠ ']') = true := by
    intro c hmem
    obtain hmem | hmem := List.mem_append.mp hmem
    · exact hname c hmem
    · refine decide_eq_true ?_
      intro hc
      have hdigit := hdigits c hmem
      rw [hc] at hdigit
      exact absurd hdigit (by decide)
  have hraw : m.raw ++ rest = '@' :: '[' :: (['u', 'i', 'd', ':'] ++ m.digits ++ ']' :: rest) := by
    simp [MacroMatch.raw, macroPrefix]
  have hclose : ']' ∈ ['u', 'i', 'd', ':'] ++ m.digits ++ ']' :: rest := by simp
  have htake : (['u', 'i', 'd', ':'] ++ m.digits ++ ']' :: rest).takeWhile (· ≠ ']') =
      'u' :: 'i' :: 'd' :: ':' :: m.digits := by
    rw [List.takeWhile_append_of_pos hinner]
    simp
  have hdrop : (['u', 'i', 'd', ':'] ++ m.digits ++ ']' :: rest).dropWhile (· ≠ ']') =
      ']' :: rest := by
    rw [List.dropWhile_append_of_pos hinner]
    simp
  rw [hraw]
  simp only [parseMentionToken, if_pos hclose, htake, hdrop, List.drop_succ_cons, List.drop_zero]
  rw [parseI32_digits hne hdigits hrange]
  rfl

theorem scanMentionUids_piece {piece rest : List Char} (hfree : ¬macroPrefix <:+: piece)
    (hrest : Resumes rest) (fuel : Nat) (uids : List Int) :
    scanMentionUids (piece.length + fuel) (piece ++ rest) uids = scanMentionUids fuel rest uids := by
  induction piece with
  | nil => simp
  | cons c piece ih =>
    have hnone : parseMentionToken (c :: (piece ++ rest)) = none := by
      by_contra hsome
      exact not_starts_in_piece (List.cons_ne_nil c piece) hfree hrest
        (starts_of_parseMentionToken hsome)
    rw [List.length_cons, Nat.add_right_comm, List.cons_append, scanMentionUids, hnone]
    exact ih (not_within_of_cons hfree)

/-- The uids of separated matches are collected, each when it is first met. -/
theorem scanMentionUids_joinMatches {ms : List MacroMatch} {tail : List Char}
    (h : Separated ms tail) (hrange : ∀ m ∈ ms, m.uid ≤ 2147483647) {fuel : Nat}
    (hfuel : (joinMatches ms tail).length ≤ fuel) (uids : List Int) :
    scanMentionUids fuel (joinMatches ms tail) uids =
      (ms.map fun m => (m.uid : Int)).foldl
        (fun uids uid => if uid ∈ uids then uids else uids ++ [uid]) uids := by
  induction ms generalizing fuel uids with
  | nil =>
    obtain ⟨more, rfl⟩ := Nat.exists_eq_add_of_le hfuel
    have hpiece := scanMentionUids_piece h.tail (Or.inl rfl) more uids
    rw [List.append_nil] at hpiece
    change scanMentionUids (tail.length + more) tail uids = _
    rw [hpiece]
    cases more <;> rfl
  | cons m ms ih =>
    obtain ⟨c, text, more, htext, rfl, hmore⟩ := fuel_joinMatches hfuel
    obtain ⟨hne, hdigits⟩ := h.digits m List.mem_cons_self
    have htoken := parseMentionToken_raw hne hdigits (hrange m List.mem_cons_self)
      (joinMatches ms tail)
    rw [joinMatches_cons, scanMentionUids_piece (h.before m List.mem_cons_self) (resumes_raw m _)]
    rw [htext] at htoken ⊢
    simp only [scanMentionUids, htoken, List.map_cons, List.foldl_cons]
    exact ih h.of_cons (fun other hmem => hrange other (List.mem_cons_of_mem _ hmem)) hmore _

theorem foldl_eraseDups (uids found : List Int) :
    uids.foldl (fun uids uid => if uid ∈ uids then uids else uids ++ [uid]) found =
      found ++ (uids.filter (fun uid => decide (uid ∉ found))).eraseDups := by
  induction uids generalizing found with
  | nil => simp
  | cons uid uids ih =>
    rw [List.foldl_cons, ih]
    by_cases hmem : uid ∈ found
    · simp [hmem]
    · have hfilter : uids.filter (fun other => decide (other ∉ found ++ [uid])) =
          (uids.filter (fun other => decide (other ∉ found))).filter (fun other => !other == uid) := by
        rw [List.filter_filter]
        refine List.filter_congr ?_
        intro other _
        by_cases hother : other = uid
        · simp [hother]
        · simp [hother]
      rw [if_neg hmem, hfilter, List.filter_cons_of_pos (by simpa using hmem),
        List.eraseDups_cons, List.append_assoc]
      rfl

/-- What is read from separated matches. -/
theorem extractMentionUids_joinMatches {ms : List MacroMatch} {tail : List Char}
    (h : Separated ms tail) (hrange : ∀ m ∈ ms, m.uid ≤ 2147483647) :
    extractMentionUids (String.ofList (joinMatches ms tail)) =
      (ms.map fun m => (m.uid : Int)).eraseDups := by
  unfold extractMentionUids
  rw [String.toList_ofList, String.length_ofList,
    scanMentionUids_joinMatches h hrange (Nat.le_refl _), foldl_eraseDups]
  simp

theorem foldl_wireStep (text : List Char) (mentions : List MentionSpan) (state : List Char × Nat) :
    (mentions.foldl (wireStep text) state).1 ++
        text.drop (mentions.foldl (wireStep text) state).2 =
      state.1 ++ joinMatches (writtenMatches text state.2 mentions).1
        (writtenMatches text state.2 mentions).2 := by
  induction mentions generalizing state with
  | nil => rfl
  | cons mention mentions ih =>
    rw [List.foldl_cons, ih, wireStep, writtenMatches]
    split
    · rfl
    · dsimp only
      rw [joinMatches_cons]
      simp only [List.append_assoc]
      rfl

/-- What is sent, piece by piece. -/
theorem wireText_eq (value : EditableText) : wireText value =
    joinMatches (writtenMatches value.text 0 value.mentions).1
      (writtenMatches value.text 0 value.mentions).2 := by
  unfold wireText
  split
  · next hnone =>
    rw [hnone]
    rfl
  · exact foldl_wireStep value.text value.mentions ([], 0)

theorem slice_within (text : List Char) (start stop : Nat) : slice text start stop <:+: text :=
  (List.drop_suffix ..).isInfix.trans (List.take_prefix ..).isInfix

theorem separated_writtenMatches {text : List Char} (hfree : ¬macroPrefix <:+: text) (last : Nat)
    (mentions : List MentionSpan) :
    Separated (writtenMatches text last mentions).1 (writtenMatches text last mentions).2 := by
  induction mentions generalizing last with
  | nil =>
    refine ⟨?_, ?_, fun htail => hfree (htail.trans (List.drop_suffix ..).isInfix)⟩
    · intro m hmem
      cases hmem
    · intro m hmem
      cases hmem
  | cons mention mentions ih =>
    rw [writtenMatches]
    split
    · exact ih last
    · refine ⟨?_, ?_, (ih mention.stop).tail⟩
      · intro m hmem
        obtain rfl | hmem := List.mem_cons.mp hmem
        · exact fun hslice => hfree (hslice.trans (slice_within ..))
        · exact (ih mention.stop).before m hmem
      · intro m hmem
        obtain rfl | hmem := List.mem_cons.mp hmem
        · exact canonical_digits mention.uid
        · exact (ih mention.stop).digits m hmem

theorem map_uid_writtenMatches (text : List Char) (last : Nat) (mentions : List MentionSpan) :
    (writtenMatches text last mentions).1.map MacroMatch.uid =
      (mentions.filter fun mention => !inCode text mention.start).map MentionSpan.uid := by
  induction mentions generalizing last with
  | nil => rfl
  | cons mention mentions ih =>
    rw [writtenMatches]
    by_cases hcode : inCode text mention.start = true
    · simp only [hcode, if_true, Bool.not_true, Bool.false_eq_true, not_false_eq_true,
        List.filter_cons_of_neg, ih]
    · simp only [Bool.not_eq_true] at hcode
      simp only [hcode, Bool.false_eq_true, if_false, Bool.not_false, List.filter_cons_of_pos,
        List.map_cons, ih, MacroMatch.uid, Nat.ofDigitChars_ten_toDigits]

theorem length_foldl_widgetStep (message : List Char) (ms : List MacroMatch)
    (state : Nat × List Nat) :
    (ms.foldl (widgetStep message) state).2.length ≤ state.2.length + ms.length := by
  induction ms generalizing state with
  | nil => exact Nat.le_refl _
  | cons m ms ih =>
    rw [List.foldl_cons]
    refine Nat.le_trans (ih _) ?_
    rw [widgetStep]
    dsimp only
    split
    · rw [List.length_cons]
      omega
    · rw [List.length_append, List.length_singleton, List.length_cons]
      omega

/-- Every macro becomes a widget when none starts in code, and only then. -/
theorem foldl_widgetStep (message : List Char) (ms : List MacroMatch) (state : Nat × List Nat) :
    (ms.foldl (widgetStep message) state).2 = state.2 ++ ms.map MacroMatch.uid ↔
      ∀ start ∈ macroStarts state.1 ms, inCode message start = false := by
  induction ms generalizing state with
  | nil => simp [macroStarts]
  | cons m ms ih =>
    rw [List.foldl_cons, macroStarts]
    by_cases hcode : inCode message (state.1 + m.before.length) = true
    · constructor
      · intro hall
        have hlength := length_foldl_widgetStep message ms (widgetStep message state m)
        rw [hall, widgetStep] at hlength
        simp only [hcode, if_true, List.length_append, List.length_map, List.length_cons] at hlength
        omega
      · intro hnone
        rw [hnone _ List.mem_cons_self] at hcode
        cases hcode
    · have hstep : widgetStep message state m =
          (state.1 + m.before.length + m.raw.length, state.2 ++ [m.uid]) := by
        rw [widgetStep, if_neg hcode]
      rw [hstep, List.map_cons, List.append_cons state.2 m.uid (ms.map MacroMatch.uid), ih,
        List.forall_mem_cons]
      simp [hcode]

theorem extractMentionWidgets_iff (message : List Char) :
    extractMentionWidgets message = (matchAll message).1.map MacroMatch.uid ↔
      ∀ start ∈ macroStarts 0 (matchAll message).1, inCode message start = false :=
  foldl_widgetStep message (matchAll message).1 (0, [])

theorem plain_of_digits {digits : List Char} (h : ∀ c ∈ digits, c.isDigit = true) :
    Plain digits := by
  intro c hmem
  have hdigit := h c hmem
  constructor <;>
  · intro hc
    rw [hc] at hdigit
    revert hdigit
    decide

theorem Plain.append {text rest : List Char} (h : Plain text) (h' : Plain rest) :
    Plain (text ++ rest) :=
  fun c hmem => (List.mem_append.mp hmem).elim (h c) (h' c)

theorem plain_opening : Plain macroPrefix := by decide

theorem plain_macro {digits : List Char} (h : ∀ c ∈ digits, c.isDigit = true) :
    Plain (macroPrefix ++ digits ++ [']']) := by
  have hend : Plain [']'] := by decide
  exact (plain_opening.append (plain_of_digits h)).append hend

/-- What stands for a match, with the text before it. -/
def rawPieces (ms : List MacroMatch) : List (List Char × List Char) :=
  ms.map fun m => (m.before, m.raw)

theorem nameStarts_rawPieces (pos : Nat) (ms : List MacroMatch) :
    nameStarts pos (rawPieces ms) = macroStarts pos ms := by
  induction ms generalizing pos with
  | nil => rfl
  | cons m ms ih => exact congrArg _ (ih _)

theorem joinPieces_rawPieces (ms : List MacroMatch) (tail : List Char) :
    joinPieces (rawPieces ms) tail = joinMatches ms tail := by
  simp [joinPieces, rawPieces, joinMatches, List.flatMap_map]

theorem named_rawPieces {ms : List MacroMatch}
    (h : ∀ m ∈ ms, ∀ c ∈ m.digits, c.isDigit = true) :
    ∀ piece ∈ rawPieces ms, piece.2 ≠ [] ∧ Plain piece.2 := by
  intro piece hmem
  obtain ⟨m, hm, rfl⟩ := List.mem_map.mp hmem
  exact ⟨by simp [MacroMatch.raw], plain_macro (h m hm)⟩

def shownPieces (names : Nat → Option (List Char)) (ms : List MacroMatch) :
    List (List Char × List Char) :=
  ms.map fun m => (m.before, '@' :: displayName names m.uid)

theorem nameStarts_shownPieces (names : Nat → Option (List Char)) (pos : Nat)
    (ms : List MacroMatch) : nameStarts pos (shownPieces names ms) =
      (shownSpans names pos ms).map MentionSpan.start := by
  induction ms generalizing pos with
  | nil => rfl
  | cons m ms ih => exact congrArg _ (ih _)

/-- Names without a backtick or a backslash put no mention into code, and take none out. -/
theorem inCode_displayText {wire : List Char} {names : Nat → Option (List Char)}
    (hdigits : ∀ m ∈ (matchAll wire).1, ∀ c ∈ m.digits, c.isDigit = true)
    (hplain : ∀ m ∈ (matchAll wire).1, Plain (displayName names m.uid)) :
    (displayText wire names).mentions.map (fun mention =>
        inCode (displayText wire names).text mention.start) =
      (macroStarts 0 (matchAll wire).1).map (inCode wire) := by
  have hshown : ∀ piece ∈ shownPieces names (matchAll wire).1, piece.2 ≠ [] ∧ Plain piece.2 := by
    intro piece hmem
    obtain ⟨m, hm, rfl⟩ := List.mem_map.mp hmem
    refine ⟨List.cons_ne_nil _ _, ?_⟩
    have hat : Plain ['@'] := by decide
    exact hat.append (hplain m hm)
  have hflags := @inCode_pieces (shownPieces names (matchAll wire).1)
    (rawPieces (matchAll wire).1) (matchAll wire).2 (by simp [shownPieces, rawPieces]) hshown
    (named_rawPieces hdigits)
  have htext : joinPieces (shownPieces names (matchAll wire).1) (matchAll wire).2 =
      (displayText wire names).text := by
    rw [displayText_eq]
    simp [joinPieces, shownPieces, shownText, List.flatMap_map]
  have hspans : (displayText wire names).mentions = shownSpans names 0 (matchAll wire).1 := by
    rw [displayText_eq]
  rw [nameStarts_shownPieces, nameStarts_rawPieces, htext, joinPieces_rawPieces,
    joinMatches_matchAll, ← hspans, List.map_map] at hflags
  exact hflags

/-- The mentions that are written, as they are shown. -/
def keptPieces (text : List Char) : Nat → List MentionSpan → List (List Char × List Char)
  | _, [] => []
  | last, mention :: mentions =>
      if inCode text mention.start then keptPieces text last mentions
      else (slice text last mention.start, slice text mention.start mention.stop) ::
        keptPieces text mention.stop mentions

theorem slice_length {text : List Char} {start stop : Nat} (h : stop ≤ text.length) :
    (slice text start stop).length = stop - start := by
  rw [slice, List.length_drop, List.length_take, Nat.min_eq_left h]

theorem slice_append_drop {text : List Char} {start stop : Nat} (hle : start ≤ stop)
    (hstop : stop ≤ text.length) : slice text start stop ++ text.drop stop = text.drop start := by
  have hsplit : text.drop start = (text.take stop ++ text.drop stop).drop start := by
    rw [List.take_append_drop]
  rw [hsplit, List.drop_append_of_le_length (by rw [List.length_take]; omega), slice]

/-- Spans that follow one another, each with something in it. -/
def InOrder (text : List Char) : Nat → List MentionSpan → Prop
  | _, [] => True
  | last, mention :: mentions => last ≤ mention.start ∧ mention.start < mention.stop ∧
      mention.stop ≤ text.length ∧ InOrder text mention.stop mentions

theorem InOrder.earlier {text : List Char} {last first : Nat} {mentions : List MentionSpan}
    (h : InOrder text last mentions) (hle : first ≤ last) : InOrder text first mentions := by
  cases mentions with
  | nil => trivial
  | cons mention mentions => exact ⟨Nat.le_trans hle h.1, h.2⟩

theorem inOrder_of_sorted {text : List Char} {last : Nat} {mentions : List MentionSpan}
    (hsorted : mentions.Pairwise fun m m' => m.stop ≤ m'.start)
    (hbounds : ∀ mention ∈ mentions, mention.start < mention.stop ∧ mention.stop ≤ text.length)
    (hlast : ∀ mention ∈ mentions, last ≤ mention.start) : InOrder text last mentions := by
  induction mentions generalizing last with
  | nil => trivial
  | cons mention mentions ih =>
    obtain ⟨hfirst, hrest⟩ := List.pairwise_cons.mp hsorted
    obtain ⟨hlt, hstop⟩ := hbounds mention List.mem_cons_self
    exact ⟨hlast mention List.mem_cons_self, hlt, hstop,
      ih hrest (fun m hmem => hbounds m (List.mem_cons_of_mem _ hmem)) hfirst⟩

/-- The text is its written mentions and what is between them. -/
theorem joinPieces_keptPieces {text : List Char} {last : Nat} {mentions : List MentionSpan}
    (h : InOrder text last mentions) :
    joinPieces (keptPieces text last mentions) (writtenMatches text last mentions).2 =
      text.drop last := by
  induction mentions generalizing last with
  | nil => rfl
  | cons mention mentions ih =>
    obtain ⟨hstart, hlt, hstop, hrest⟩ := h
    rw [keptPieces, writtenMatches]
    split
    · exact ih (hrest.earlier (by omega))
    · have hjoin := ih hrest
      have hshown := slice_append_drop hlt.le hstop
      have hbefore := slice_append_drop hstart (Nat.le_trans hlt.le hstop)
      dsimp only
      rw [← hbefore, ← hshown, ← hjoin]
      simp [joinPieces]

theorem nameStarts_keptPieces {text : List Char} {last : Nat} {mentions : List MentionSpan}
    (h : InOrder text last mentions) : ∀ start ∈ nameStarts last (keptPieces text last mentions),
      inCode text start = false := by
  induction mentions generalizing last with
  | nil => intro start hmem; cases hmem
  | cons mention mentions ih =>
    obtain ⟨hstart, hlt, hstop, hrest⟩ := h
    rw [keptPieces]
    split
    · exact ih (hrest.earlier (by omega))
    · next hcode =>
      have hbefore : last + (slice text last mention.start).length = mention.start := by
        rw [slice_length (by omega)]
        omega
      have hshown : mention.start + (slice text mention.start mention.stop).length =
          mention.stop := by
        rw [slice_length hstop]
        omega
      intro start hmem
      rw [nameStarts, hbefore, hshown] at hmem
      obtain rfl | hmem := List.mem_cons.mp hmem
      · exact Bool.not_eq_true _ ▸ hcode
      · exact ih hrest start hmem

theorem keptPieces_before (text : List Char) (last : Nat) (mentions : List MentionSpan) :
    (keptPieces text last mentions).map Prod.fst =
      (rawPieces (writtenMatches text last mentions).1).map Prod.fst := by
  induction mentions generalizing last with
  | nil => rfl
  | cons mention mentions ih =>
    rw [keptPieces, writtenMatches]
    split
    · exact ih last
    · exact congrArg (slice text last mention.start :: ·) (ih mention.stop)

theorem named_keptPieces {text : List Char} {last : Nat} {mentions : List MentionSpan}
    (h : InOrder text last mentions)
    (hplain : ∀ mention ∈ mentions, inCode text mention.start = false →
      Plain (slice text mention.start mention.stop)) :
    ∀ piece ∈ keptPieces text last mentions, piece.2 ≠ [] ∧ Plain piece.2 := by
  induction mentions generalizing last with
  | nil => intro piece hmem; cases hmem
  | cons mention mentions ih =>
    obtain ⟨hstart, hlt, hstop, hrest⟩ := h
    have hlater : ∀ m ∈ mentions, inCode text m.start = false →
        Plain (slice text m.start m.stop) :=
      fun m hmem => hplain m (List.mem_cons_of_mem _ hmem)
    rw [keptPieces]
    split
    · exact ih (hrest.earlier (by omega)) hlater
    · next hcode =>
      intro piece hmem
      obtain rfl | hmem := List.mem_cons.mp hmem
      · refine ⟨List.ne_nil_of_length_pos ?_,
          hplain mention List.mem_cons_self (Bool.not_eq_true _ ▸ hcode)⟩
        dsimp only
        rw [slice_length hstop]
        omega
      · exact ih hrest hlater piece hmem

/-- No macro of the sent text starts in code where no written mention shows a backtick or a
backslash. -/
theorem macroStarts_wireText {value : EditableText} (h : InOrder value.text 0 value.mentions)
    (hfree : ¬macroPrefix <:+: value.text)
    (hplain : ∀ mention ∈ keptMentions value,
      Plain (slice value.text mention.start mention.stop)) :
    ∀ start ∈ macroStarts 0 (matchAll (wireText value)).1,
      inCode (wireText value) start = false := by
  have hseparated := separated_writtenMatches hfree 0 value.mentions
  have hkept : ∀ mention ∈ value.mentions, inCode value.text mention.start = false →
      Plain (slice value.text mention.start mention.stop) := by
    intro mention hmem hcode
    exact hplain mention (List.mem_filter.mpr ⟨hmem, by simp [hcode]⟩)
  have hflags := inCode_pieces (writtenMatches value.text 0 value.mentions).2
    (keptPieces_before value.text 0 value.mentions) (named_keptPieces h hkept)
    (named_rawPieces fun m hmem => (hseparated.digits m hmem).2)
  rw [joinPieces_keptPieces h, List.drop_zero, nameStarts_rawPieces, joinPieces_rawPieces,
    ← wireText_eq] at hflags
  have hmatches : (matchAll (wireText value)).1 =
      (writtenMatches value.text 0 value.mentions).1 := by
    rw [wireText_eq, matchAll_joinMatches hseparated]
  rw [hmatches]
  intro start hmem
  have hflag := List.mem_map_of_mem (f := inCode (wireText value)) hmem
  rw [← hflags] at hflag
  obtain ⟨shown, hshown, heq⟩ := List.mem_map.mp hflag
  rw [← heq]
  exact nameStarts_keptPieces h shown hshown

/-- A message comes back where its mentions are outside of code and no name that is shown for them
has a backtick or a backslash. What is sent notifies the mentions that are kept, and these are all
shown where no kept mention covers a backtick or a backslash, and in general when none of the macros
that are sent starts in code. -/
theorem mentions_agree (wire : List Char) (names : Nat → Option (List Char))
    (value : EditableText) :
    ((∀ m ∈ (matchAll wire).1, m.digits = Nat.toDigits 10 m.uid ∧ m.uid ≤ 9007199254740991) →
      (∀ start ∈ macroStarts 0 (matchAll wire).1, inCode wire start = false) →
      (∀ m ∈ (matchAll wire).1, Plain (displayName names m.uid)) →
      wireText (displayText wire names) = wire) ∧
    (¬macroPrefix <:+: value.text →
      (∀ mention ∈ value.mentions, mention.uid ≤ 2147483647) →
      extractMentionUids (String.ofList (wireText value)) =
        ((keptMentions value).map fun mention => (mention.uid : Int)).eraseDups ∧
      (value.mentions.Pairwise (fun m m' => m.stop ≤ m'.start) →
        (∀ mention ∈ value.mentions, mention.start < mention.stop ∧
          mention.stop ≤ value.text.length) →
        (∀ mention ∈ keptMentions value, Plain (slice value.text mention.start mention.stop)) →
        extractMentionWidgets (wireText value) = (keptMentions value).map MentionSpan.uid) ∧
      (extractMentionWidgets (wireText value) = (keptMentions value).map MentionSpan.uid ↔
        ∀ start ∈ macroStarts 0 (matchAll (wireText value)).1,
          inCode (wireText value) start = false)) := by
  refine ⟨fun hcanonical hcode hplain => ?_, fun hfree hrange => ?_⟩
  · have hdigits : ∀ m ∈ (matchAll wire).1, ∀ c ∈ m.digits, c.isDigit = true := by
      intro m hmem
      rw [(hcanonical m hmem).1]
      exact (canonical_digits m.uid).2
    have hflags := inCode_displayText hdigits hplain
    refine wireText_displayText wire names (fun m hmem => (hcanonical m hmem).1)
      fun mention hmem => ?_
    have hflag := List.mem_map_of_mem
      (f := fun mention : MentionSpan => inCode (displayText wire names).text mention.start) hmem
    rw [hflags] at hflag
    obtain ⟨start, hstart, heq⟩ := List.mem_map.mp hflag
    exact heq.symm.trans (hcode start hstart)
  have hseparated := separated_writtenMatches hfree 0 value.mentions
  have huids := map_uid_writtenMatches value.text 0 value.mentions
  have hshown : extractMentionWidgets (wireText value) = (keptMentions value).map MentionSpan.uid ↔
      ∀ start ∈ macroStarts 0 (matchAll (wireText value)).1,
        inCode (wireText value) start = false := by
    rw [← extractMentionWidgets_iff]
    have hmatches : (matchAll (wireText value)).1.map MacroMatch.uid =
        (keptMentions value).map MentionSpan.uid := by
      rw [wireText_eq, matchAll_joinMatches hseparated]
      exact huids
    rw [hmatches]
  refine ⟨?_, fun hsorted hbounds hplain => ?_, hshown⟩
  · have hbound : ∀ m ∈ (writtenMatches value.text 0 value.mentions).1, m.uid ≤ 2147483647 := by
      intro m hmem
      have hmapped := List.mem_map_of_mem (f := MacroMatch.uid) hmem
      rw [huids] at hmapped
      obtain ⟨mention, hkept, heq⟩ := List.mem_map.mp hmapped
      rw [← heq]
      exact hrange mention (List.mem_of_mem_filter hkept)
    have hmap := congrArg (List.map fun uid : Nat => (uid : Int)) huids
    rw [List.map_map, List.map_map] at hmap
    rw [wireText_eq, extractMentionUids_joinMatches hseparated hbound]
    exact congrArg List.eraseDups hmap
  · have horder := @inOrder_of_sorted value.text 0 value.mentions hsorted hbounds
      fun _ _ => Nat.zero_le _
    exact hshown.mpr (macroStarts_wireText horder hfree hplain)

/-- Mentions and code beside them: both parts at a concrete message. -/
theorem mentions_agree_plain :
    wireText (displayText ("hi @[uid:1] and ".toList ++ [backtick, 'x', backtick] ++
        " @[uid:2]".toList) (fun uid => if uid = 1 then some "ann".toList else none)) =
      "hi @[uid:1] and ".toList ++ [backtick, 'x', backtick] ++ " @[uid:2]".toList ∧
    extractMentionUids (String.ofList (wireText
      ⟨"@ann ".toList ++ [backtick] ++ "@bob".toList ++ [backtick] ++ " @ann".toList,
        [⟨0, 4, 1⟩, ⟨6, 10, 2⟩, ⟨12, 16, 1⟩]⟩)) = [1] ∧
    extractMentionWidgets (wireText
      ⟨"@ann ".toList ++ [backtick] ++ "@bob".toList ++ [backtick] ++ " @ann".toList,
        [⟨0, 4, 1⟩, ⟨6, 10, 2⟩, ⟨12, 16, 1⟩]⟩) = [1, 1] := by
  have hagree := mentions_agree
    ("hi @[uid:1] and ".toList ++ [backtick, 'x', backtick] ++ " @[uid:2]".toList)
    (fun uid => if uid = 1 then some "ann".toList else none)
    ⟨"@ann ".toList ++ [backtick] ++ "@bob".toList ++ [backtick] ++ " @ann".toList,
      [⟨0, 4, 1⟩, ⟨6, 10, 2⟩, ⟨12, 16, 1⟩]⟩
  have hread := hagree.2 (by decide +kernel) (by decide +kernel)
  exact ⟨hagree.1 (by decide +kernel) (by decide +kernel) (by decide +kernel),
    hread.1.trans (by decide +kernel),
    (hread.2.1 (by decide +kernel) (by decide +kernel) (by decide +kernel)).trans
      (by decide +kernel)⟩

/-- A name with a backtick closes a code region before a mention, and the message that was
edited without a change no longer mentions it; a name that closed a region is gone from the
text that is sent, and the region it leaves open hides a mention that was notified. -/
theorem name_opens_code :
    (¬∀ (wire : List Char) (names : Nat → Option (List Char)),
      (∀ m ∈ (matchAll wire).1, m.digits = Nat.toDigits 10 m.uid) →
      (∀ start ∈ macroStarts 0 (matchAll wire).1, inCode wire start = false) →
      wireText (displayText wire names) = wire) ∧
    ¬∀ value : EditableText, value.mentions.Pairwise (fun m m' => m.stop ≤ m'.start) →
      (∀ mention ∈ value.mentions, mention.start < mention.stop ∧
        mention.stop ≤ value.text.length ∧ mention.uid ≤ 2147483647) →
      ¬macroPrefix <:+: value.text →
      extractMentionWidgets (wireText value) = (keptMentions value).map MentionSpan.uid := by
  constructor
  · intro hedit
    have hback := hedit "@[uid:1] and @[uid:2] x".toList
      (fun uid => if uid = 1 then some ['a', backtick, 'b'] else some ['c', backtick])
      (by decide) (by decide)
    exact absurd hback (by decide)
  · intro hshown
    have hall := hshown ⟨['@', 'a', backtick, 'b', ' ', backtick, 'x', ' ', '@', 'c', ' ', backtick],
      [⟨0, 4, 1⟩, ⟨8, 10, 2⟩]⟩ (by decide) (by decide) (by decide)
    exact absurd hall (by decide)

end Chahua.Mentions

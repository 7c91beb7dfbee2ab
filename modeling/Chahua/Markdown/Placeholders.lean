import Chahua.Markdown.Normalize
import Chahua.Mentions.MentionText
import Mathlib

namespace Chahua.Markdown

open Mentions (MacroMatch matchAll joinMatches slice)

def placeholderOpen : Char := Char.ofNat 0xfff0
def placeholderClose : Char := Char.ofNat 0xfff1

structure PlaceholderSpan where
  index : Nat
  start : Nat
  stop : Nat
  deriving DecidableEq, Repr

/-- Indices come from the length of a list, so they are safe integers. -/
def buildPlaceholder (index : Nat) : List Char :=
  placeholderOpen :: Nat.toDigits 10 index ++ [placeholderClose]

def containsPlaceholder (text : List Char) : Bool := text.contains placeholderOpen

/-- The loop of `findPlaceholders` from a position on. -/
def placeholdersFrom (pos : Nat) : List Char → List PlaceholderSpan
  | [] => []
  | c :: text =>
      if c ≠ placeholderOpen then placeholdersFrom (pos + 1) text
      else
        let digits := text.takeWhile Char.isDigit
        let rest := text.dropWhile Char.isDigit
        if digits ≠ [] ∧ rest.head? = some placeholderClose then
          ⟨Nat.ofDigitChars 10 digits 0, pos, pos + 1 + digits.length + 1⟩ ::
            placeholdersFrom (pos + 1 + digits.length + 1) rest.tail
        else placeholdersFrom (pos + 1 + digits.length) rest
  termination_by text => text.length
  decreasing_by
    all_goals
      have hrest := List.length_dropWhile_le Char.isDigit text
      simp only [List.length_cons, List.length_tail]
      omega

def findPlaceholders (text : List Char) : List PlaceholderSpan := placeholdersFrom 0 text

/-- A part of a text: a chunk, or a placeholder with its index. -/
inductive Part where
  | text (chunk : List Char)
  | placeholder (index : Nat)
  deriving DecidableEq, Repr

def chunkOf (chunk : List Char) : List Part := if chunk = [] then [] else [.text chunk]

/-- The chunks between the spans, and the one after the last. -/
def partsFrom (text : List Char) (last : Nat) : List PlaceholderSpan → List Part
  | [] => chunkOf (text.drop last)
  | span :: spans =>
      chunkOf (slice text last span.start) ++
        .placeholder span.index :: partsFrom text span.stop spans

def splitByPlaceholders (text : List Char) : List Part :=
  partsFrom text 0 (findPlaceholders text)

/-- The text to parse and the widgets, from a match on. -/
def carve (regions : List TextRegion) (pos next : Nat) :
    List MacroMatch → List Char → List Char × List MacroMatch
  | [], tail => (tail, [])
  | m :: ms, tail =>
      let index := pos + m.before.length
      if inRegions regions index then
        let later := carve regions (index + m.raw.length) next ms tail
        (m.before ++ m.raw ++ later.1, later.2)
      else
        let later := carve regions (index + m.raw.length) (next + 1) ms tail
        (m.before ++ buildPlaceholder next ++ later.1, m :: later.2)

/-- `regions` are the code regions of the message. -/
def extractMentionWidgets (regions : List TextRegion) (message : List Char) :
    List Char × List Nat :=
  let carved := carve regions 0 0 (matchAll message).1 (matchAll message).2
  (carved.1, carved.2.map MacroMatch.uid)

/-- The parts with a text in the place of each placeholder. -/
def fill (macros : List (List Char)) (parts : List Part) : List Char :=
  parts.flatMap fun
    | .text chunk => chunk
    | .placeholder index => macros.getD index []

def indices (parts : List Part) : List Nat :=
  parts.filterMap fun
    | .text _ => none
    | .placeholder index => some index

/-- No placeholder is typed in the text. -/
def Unmarked (text : List Char) : Prop :=
  ∀ digits : List Char, digits ≠ [] → (∀ d ∈ digits, d.isDigit = true) →
    ¬(placeholderOpen :: digits ++ [placeholderClose]) <:+: text

theorem Unmarked.of_piece {text piece : List Char} (h : Unmarked text) (hpiece : piece <:+: text) :
    Unmarked piece :=
  fun digits hne hdigits hinside => h digits hne hdigits (hinside.trans hpiece)

theorem takeWhile_append_open (text rest : List Char) :
    (text ++ placeholderOpen :: rest).takeWhile Char.isDigit = text.takeWhile Char.isDigit := by
  induction text with
  | nil => rfl
  | cons c text ih =>
    rw [List.cons_append, List.takeWhile_cons, List.takeWhile_cons, ih]

theorem dropWhile_append_open (text rest : List Char) :
    (text ++ placeholderOpen :: rest).dropWhile Char.isDigit =
      text.dropWhile Char.isDigit ++ placeholderOpen :: rest := by
  induction text with
  | nil => rfl
  | cons c text ih =>
    rw [List.cons_append, List.dropWhile_cons, List.dropWhile_cons, ih]
    split <;> rfl

theorem length_takeWhile_dropWhile (text : List Char) :
    (text.takeWhile Char.isDigit).length + (text.dropWhile Char.isDigit).length = text.length := by
  rw [← List.length_append, List.takeWhile_append_dropWhile]

/-- Where the digits after an opening character end, no placeholder ends. -/
theorem Unmarked.not_closed {text : List Char} (h : Unmarked (placeholderOpen :: text)) :
    ¬(text.takeWhile Char.isDigit ≠ [] ∧
      (text.dropWhile Char.isDigit).head? = some placeholderClose) := by
  intro hclosed
  obtain ⟨hne, hhead⟩ := hclosed
  obtain ⟨rest, hrest⟩ := List.head?_eq_some_iff.mp hhead
  refine h (text.takeWhile Char.isDigit) hne (fun d hd => List.mem_takeWhile_imp hd) ?_
  refine (List.IsPrefix.isInfix ⟨rest, ?_⟩)
  have htext := List.takeWhile_append_dropWhile (p := Char.isDigit) (l := text)
  rw [hrest] at htext
  simp only [List.cons_append, List.append_assoc, List.nil_append]
  rw [htext]

theorem unmarked_dropWhile {text : List Char} (h : Unmarked (placeholderOpen :: text)) :
    Unmarked (text.dropWhile Char.isDigit) :=
  h.of_piece ((List.dropWhile_suffix _).isInfix.trans (List.suffix_cons _ _).isInfix)

theorem placeholdersFrom_unmarked (pos : Nat) (text : List Char) (h : Unmarked text) :
    placeholdersFrom pos text = [] := by
  induction pos, text using placeholdersFrom.induct with
  | case1 pos => rw [placeholdersFrom]
  | case2 pos c text hc ih =>
    rw [placeholdersFrom, if_pos hc]
    exact ih (h.of_piece (List.suffix_cons _ _).isInfix)
  | case3 pos c text hc digits rest hclosed ih =>
    obtain rfl := not_not.mp hc
    exact absurd hclosed h.not_closed
  | case4 pos c text hc digits rest hclosed ih =>
    obtain rfl := not_not.mp hc
    rw [placeholdersFrom, if_neg hc]
    dsimp only
    rw [if_neg hclosed]
    exact ih (unmarked_dropWhile h)

/-- A placeholder is found as it was built. -/
theorem placeholdersFrom_buildPlaceholder (pos index : Nat) (rest : List Char) :
    placeholdersFrom pos (buildPlaceholder index ++ rest) =
      ⟨index, pos, pos + (buildPlaceholder index).length⟩ ::
        placeholdersFrom (pos + (buildPlaceholder index).length) rest := by
  have hdigits : ∀ d ∈ Nat.toDigits 10 index, d.isDigit = true := fun d hd =>
    Nat.isDigit_of_mem_toDigits (by decide) (by decide) hd
  have htake : (Nat.toDigits 10 index ++ placeholderClose :: rest).takeWhile Char.isDigit =
      Nat.toDigits 10 index := by
    rw [List.takeWhile_append_of_pos hdigits]
    simp [placeholderClose, Char.isDigit]
  have hdrop : (Nat.toDigits 10 index ++ placeholderClose :: rest).dropWhile Char.isDigit =
      placeholderClose :: rest := by
    rw [List.dropWhile_append_of_pos hdigits]
    rfl
  have hbuild : buildPlaceholder index ++ rest =
      placeholderOpen :: (Nat.toDigits 10 index ++ placeholderClose :: rest) := by
    simp [buildPlaceholder]
  have hlength : pos + (buildPlaceholder index).length =
      pos + 1 + (Nat.toDigits 10 index).length + 1 := by
    simp only [buildPlaceholder, List.length_cons, List.length_append, List.length_nil]
    omega
  rw [hbuild, placeholdersFrom, if_neg (not_not.mpr rfl)]
  dsimp only
  rw [htake, hdrop, if_pos ⟨Nat.toDigits_ne_nil, rfl⟩, Nat.ofDigitChars_ten_toDigits, ← hlength]
  rfl

/-- The scan finds nothing before a placeholder that was built. -/
theorem placeholdersFrom_append (index : Nat) (rest : List Char) (pos : Nat) (text : List Char)
    (h : Unmarked text) : placeholdersFrom pos (text ++ (buildPlaceholder index ++ rest)) =
      placeholdersFrom (pos + text.length) (buildPlaceholder index ++ rest) := by
  induction pos, text using placeholdersFrom.induct with
  | case1 pos => rfl
  | case2 pos c text hc ih =>
    rw [List.cons_append, placeholdersFrom, if_pos hc,
      ih (h.of_piece (List.suffix_cons _ _).isInfix), List.length_cons]
    congr 1
    omega
  | case3 pos c text hc digits rest' hclosed ih =>
    obtain rfl := not_not.mp hc
    exact absurd hclosed h.not_closed
  | case4 pos c text hc digits rest' hclosed ih =>
    obtain rfl := not_not.mp hc
    have hopen : buildPlaceholder index ++ rest =
        placeholderOpen :: (Nat.toDigits 10 index ++ [placeholderClose] ++ rest) := rfl
    have hnot : ¬(text.takeWhile Char.isDigit ≠ [] ∧ (text.dropWhile Char.isDigit ++
        (buildPlaceholder index ++ rest)).head? = some placeholderClose) := by
      intro hclosed'
      obtain ⟨hne, hhead⟩ := hclosed'
      cases hdrop : text.dropWhile Char.isDigit with
      | nil =>
        rw [hdrop, hopen] at hhead
        exact absurd (Option.some.inj hhead) (by decide)
      | cons c rest'' =>
        rw [hdrop] at hhead
        exact hclosed ⟨hne, by rw [show rest' = c :: rest'' from hdrop]; exact hhead⟩
    rw [List.cons_append, placeholdersFrom, if_neg hc]
    dsimp only
    rw [hopen, takeWhile_append_open, dropWhile_append_open, ← hopen, if_neg hnot,
      ih (unmarked_dropWhile h)]
    congr 1
    have hlength := length_takeWhile_dropWhile text
    rw [List.length_cons]
    simp only [digits, rest'] at *
    omega

theorem fill_chunkOf (macros : List (List Char)) (chunk : List Char) (parts : List Part) :
    fill macros (chunkOf chunk ++ parts) = chunk ++ fill macros parts := by
  unfold chunkOf fill
  split
  · next hnil => simp [hnil]
  · simp

theorem indices_chunkOf (chunk : List Char) (parts : List Part) :
    indices (chunkOf chunk ++ parts) = indices parts := by
  unfold chunkOf indices
  split <;> simp

theorem drop_eq_cons {α : Type*} {xs ys : List (List α)} {n : Nat} {y : List α}
    (h : xs.drop n = y :: ys) : xs.getD n [] = y ∧ xs.drop (n + 1) = ys := by
  constructor
  · rw [List.getD_eq_getElem?_getD, ← List.head?_drop, h]
    rfl
  · rw [← List.tail_drop, h]
    rfl

/-- The parts of what was carved, once the text before `pending` is behind. -/
theorem partsFrom_carve {regions : List TextRegion} {macros : List (List Char)}
    {ms : List MacroMatch} {tail : List Char} (behind : List Char) {pending : List Char}
    {pos next : Nat} (hunmarked : Unmarked (pending ++ joinMatches ms tail))
    (hmacros : macros.drop next = (carve regions pos next ms tail).2.map MacroMatch.raw) :
    indices (partsFrom (behind ++ pending ++ (carve regions pos next ms tail).1) behind.length
        (placeholdersFrom behind.length (pending ++ (carve regions pos next ms tail).1))) =
      List.range' next (carve regions pos next ms tail).2.length ∧
    fill macros (partsFrom (behind ++ pending ++ (carve regions pos next ms tail).1) behind.length
        (placeholdersFrom behind.length (pending ++ (carve regions pos next ms tail).1))) =
      pending ++ joinMatches ms tail := by
  induction ms generalizing behind pending pos next with
  | nil =>
    have htail : joinMatches [] tail = tail := rfl
    rw [htail] at hunmarked ⊢
    simp only [carve, placeholdersFrom_unmarked _ _ hunmarked, partsFrom, List.append_assoc,
      List.drop_left]
    have hfill := fill_chunkOf macros (pending ++ tail) []
    have hindices := indices_chunkOf (pending ++ tail) []
    rw [List.append_nil] at hfill hindices
    rw [hfill, hindices]
    exact ⟨rfl, List.append_nil _⟩
  | cons m ms ih =>
    rw [Mentions.joinMatches_cons] at hunmarked ⊢
    simp only [carve] at hmacros ⊢
    split at hmacros
    · next hcode =>
      simp only [hcode, if_true] at hmacros ⊢
      have hpieces : pending ++ (m.before ++ (m.raw ++ joinMatches ms tail)) =
          pending ++ (m.before ++ m.raw) ++ joinMatches ms tail := by
        simp only [List.append_assoc]
      rw [hpieces] at hunmarked ⊢
      have hlater := ih behind hunmarked hmacros
      simpa only [List.append_assoc] using hlater
    · next hcode =>
      simp only [hcode, Bool.false_eq_true, if_false] at hmacros ⊢
      have hbefore : Unmarked (pending ++ m.before) :=
        hunmarked.of_piece ⟨[], m.raw ++ joinMatches ms tail, by simp⟩
      have hafter : Unmarked ([] ++ joinMatches ms tail) :=
        hunmarked.of_piece ⟨pending ++ (m.before ++ m.raw), [], by simp⟩
      obtain ⟨hhead, hrest⟩ := drop_eq_cons hmacros
      have hlater := ih (behind ++ (pending ++ m.before) ++ buildPlaceholder next) hafter hrest
      generalize carve regions (pos + m.before.length + m.raw.length) (next + 1) ms tail = later
        at hlater hrest hmacros ⊢
      have htext : behind ++ pending ++ (m.before ++ buildPlaceholder next ++ later.1) =
          behind ++ (pending ++ m.before) ++ buildPlaceholder next ++ [] ++ later.1 := by
        simp only [List.append_assoc, List.append_nil]
      have hscan : placeholdersFrom behind.length
          (pending ++ (m.before ++ buildPlaceholder next ++ later.1)) =
          ⟨next, behind.length + (pending ++ m.before).length,
            (behind ++ (pending ++ m.before) ++ buildPlaceholder next).length⟩ ::
          placeholdersFrom (behind ++ (pending ++ m.before) ++ buildPlaceholder next).length
            ([] ++ later.1) := by
        have hpieces : pending ++ (m.before ++ buildPlaceholder next ++ later.1) =
            (pending ++ m.before) ++ (buildPlaceholder next ++ later.1) := by
          simp only [List.append_assoc]
        rw [hpieces, placeholdersFrom_append _ _ _ _ hbefore, placeholdersFrom_buildPlaceholder]
        simp only [List.length_append, List.nil_append, Nat.add_assoc]
      have hslice : slice (behind ++ (pending ++ m.before) ++ buildPlaceholder next ++ [] ++
          later.1) behind.length (behind.length + (pending ++ m.before).length) =
          pending ++ m.before := by
        have hpieces : behind ++ (pending ++ m.before) ++ buildPlaceholder next ++ [] ++ later.1 =
            behind ++ ((pending ++ m.before) ++ (buildPlaceholder next ++ later.1)) := by
          simp only [List.append_assoc, List.nil_append]
        rw [hpieces]
        exact Mentions.slice_append rfl rfl
      rw [htext, hscan]
      simp only [partsFrom]
      rw [hslice, indices_chunkOf, fill_chunkOf]
      have hindices : ∀ parts, indices (.placeholder next :: parts) = next :: indices parts :=
        fun _ => rfl
      have hfill : ∀ parts, fill macros (.placeholder next :: parts) =
          macros.getD next [] ++ fill macros parts := fun _ => rfl
      rw [hindices, hfill, hlater.1, hlater.2, hhead]
      refine ⟨rfl, ?_⟩
      simp only [List.append_assoc, List.nil_append]

theorem carve_sublist (regions : List TextRegion) (pos next : Nat) (ms : List MacroMatch)
    (tail : List Char) : (carve regions pos next ms tail).2.Sublist ms := by
  induction ms generalizing pos next with
  | nil => exact List.nil_sublist _
  | cons m ms ih =>
    simp only [carve]
    split
    · exact (ih _ _).cons m
    · exact (ih _ _).cons_cons m

/-- The parts of a body give a message back, one macro for each placeholder. -/
structure Restores (macros : List (List Char)) (body message : List Char) : Prop where
  text : fill macros (splitByPlaceholders body) = message
  once : ∀ k < macros.length, (indices (splitByPlaceholders body)).count k = 1
  known : ∀ k ∈ indices (splitByPlaceholders body), k < macros.length

/-- A message that types no placeholder is given back by the macros that were carved. -/
theorem restores_carve (regions : List TextRegion) {message : List Char} (h : Unmarked message) :
    Restores ((carve regions 0 0 (matchAll message).1 (matchAll message).2).2.map MacroMatch.raw)
      (extractMentionWidgets regions message).1 message := by
  have hjoin := Mentions.joinMatches_matchAll message
  have hunmarked : Unmarked ([] ++ joinMatches (matchAll message).1 (matchAll message).2) := by
    rw [hjoin]
    exact h
  obtain ⟨hindices, hfill⟩ := @partsFrom_carve regions _ _ _ [] _ 0 0 hunmarked rfl
  rw [hjoin] at hfill
  have hrange : indices (splitByPlaceholders (extractMentionWidgets regions message).1) =
      List.range' 0 (carve regions 0 0 (matchAll message).1 (matchAll message).2).2.length :=
    hindices
  refine ⟨hfill, fun k hk => ?_, fun k hk => ?_⟩
  · rw [List.length_map] at hk
    rw [hrange]
    refine List.count_eq_one_of_mem List.nodup_range' (List.mem_range'_1.mpr ⟨Nat.zero_le _, ?_⟩)
    omega
  · rw [hrange] at hk
    have hlt := (List.mem_range'_1.mp hk).2
    rw [List.length_map]
    omega

theorem unmarked_of_plain {text : List Char} (h : containsPlaceholder text = false) :
    Unmarked text := by
  intro digits hne hdigits hinside
  have hmem : placeholderOpen ∈ text := hinside.subset (by simp)
  rw [containsPlaceholder, List.contains_iff_mem.mpr hmem] at h
  cases h

/-- A text and its parts, each placeholder as it is written. -/
inductive Spells : List Part → List Char → Prop where
  | nil : Spells [] []
  | text {chunk text : List Char} {parts : List Part} (hne : chunk ≠ []) (h : Spells parts text) :
      Spells (.text chunk :: parts) (chunk ++ text)
  | placeholder {digits text : List Char} {parts : List Part} (hne : digits ≠ [])
      (hdigits : ∀ d ∈ digits, d.isDigit = true) (h : Spells parts text) :
      Spells (.placeholder (Nat.ofDigitChars 10 digits 0) :: parts)
        (placeholderOpen :: digits ++ placeholderClose :: text)

theorem Spells.chunk {text : List Char} {parts : List Part} (chunk : List Char)
    (h : Spells parts text) : Spells (chunkOf chunk ++ parts) (chunk ++ text) := by
  unfold chunkOf
  split
  · next hnil =>
    rw [hnil]
    exact h
  · next hne => exact .text hne h

theorem spells_partsFrom (behind pending rest : List Char) (pos : Nat)
    (hpos : pos = behind.length + pending.length) :
    Spells (partsFrom (behind ++ pending ++ rest) behind.length (placeholdersFrom pos rest))
      (pending ++ rest) := by
  induction pos, rest using placeholdersFrom.induct generalizing behind pending with
  | case1 pos =>
    rw [placeholdersFrom, partsFrom, List.append_assoc, List.drop_left]
    have hchunk := Spells.nil.chunk (pending ++ [])
    simp only [List.append_nil] at hchunk ⊢
    exact hchunk
  | case2 pos c text hc ih =>
    rw [placeholdersFrom, if_pos hc]
    have hlater := ih behind (pending ++ [c]) (by simp; omega)
    simpa only [List.append_assoc, List.cons_append, List.nil_append] using hlater
  | case3 pos c text hc digits rest hclosed ih =>
    obtain rfl := not_not.mp hc
    obtain ⟨hne, hhead⟩ := id hclosed
    obtain ⟨after, hafter⟩ := List.head?_eq_some_iff.mp hhead
    have htext : text = digits ++ placeholderClose :: after := by
      have hall := List.takeWhile_append_dropWhile (p := Char.isDigit) (l := text)
      exact hall.symm.trans (congrArg (digits ++ ·) hafter)
    have hdigits : ∀ d ∈ digits, d.isDigit = true := fun d hd => List.mem_takeWhile_imp hd
    have hall : behind ++ pending ++ placeholderOpen :: text =
        behind ++ pending ++ placeholderOpen :: digits ++ [placeholderClose] ++ [] ++ after := by
      rw [htext]
      simp
    have hslice : Mentions.slice (behind ++ pending ++ placeholderOpen :: text) behind.length pos =
        pending := by
      rw [List.append_assoc]
      exact Mentions.slice_append rfl hpos
    have hlater := ih (behind ++ pending ++ placeholderOpen :: digits ++ [placeholderClose]) []
      (by simp only [List.length_append, List.length_cons, List.length_nil]; omega)
    have hlength : (behind ++ pending ++ placeholderOpen :: digits ++ [placeholderClose]).length =
        pos + 1 + digits.length + 1 := by
      simp only [List.length_append, List.length_cons, List.length_nil]
      omega
    have htail : rest.tail = after := by rw [hafter, List.tail_cons]
    rw [htail, hlength, ← hall] at hlater
    rw [placeholdersFrom, if_neg hc]
    dsimp only
    rw [if_pos hclosed, partsFrom, hslice]
    refine Spells.chunk pending ?_
    have hspelled := Spells.placeholder hne hdigits hlater
    rw [List.nil_append, List.cons_append, ← htext] at hspelled
    have htail' : (text.dropWhile Char.isDigit).tail = after := htail
    rw [htail']
    exact hspelled
  | case4 pos c text hc digits rest hclosed ih =>
    obtain rfl := not_not.mp hc
    rw [placeholdersFrom, if_neg hc]
    dsimp only
    rw [if_neg hclosed]
    have htext : text = digits ++ rest :=
      (List.takeWhile_append_dropWhile (p := Char.isDigit) (l := text)).symm
    have hlater := ih behind (pending ++ placeholderOpen :: digits)
      (by simp only [List.length_append, List.length_cons]; omega)
    have hpieces : pending ++ placeholderOpen :: text =
        pending ++ placeholderOpen :: digits ++ rest := by
      simp only [List.append_assoc, List.cons_append, ← htext]
    have hall : behind ++ pending ++ placeholderOpen :: text =
        behind ++ (pending ++ placeholderOpen :: digits) ++ rest := by
      rw [List.append_assoc, hpieces, ← List.append_assoc]
    rw [hall, hpieces]
    exact hlater

theorem spells_splitByPlaceholders (text : List Char) : Spells (splitByPlaceholders text) text :=
  spells_partsFrom [] [] text 0 rfl

theorem nonempty_of_spells {parts : List Part} {text : List Char} (h : Spells parts text) :
    .text [] ∉ parts := by
  induction h with
  | nil => simp
  | text hne h ih => simpa [Ne.symm hne] using ih
  | placeholder hne hdigits h ih => simpa using ih

theorem splitByPlaceholders_plain {text : List Char} (h : containsPlaceholder text = false) :
    splitByPlaceholders text = chunkOf text := by
  rw [splitByPlaceholders, findPlaceholders,
    placeholdersFrom_unmarked 0 text (unmarked_of_plain h)]
  rfl

/-- A typed placeholder refers to no widget. -/
theorem typed_placeholder_unknown : ¬ ∀ (regions : List TextRegion) (message : List Char),
    Restores ((extractMentionWidgets regions message).2.map Mentions.macroText)
      (extractMentionWidgets regions message).1 message := by
  intro h
  have hbody : extractMentionWidgets [] (buildPlaceholder 0) = (buildPlaceholder 0, []) := by
    decide +kernel
  have hknown := (h [] (buildPlaceholder 0)).known
  rw [hbody] at hknown
  have hspans : findPlaceholders (buildPlaceholder 0 ++ []) = [⟨0, 0, 3⟩] := by
    rw [findPlaceholders, placeholdersFrom_buildPlaceholder, placeholdersFrom]
    decide +kernel
  have hparts : splitByPlaceholders (buildPlaceholder 0) = [.placeholder 0] := by
    rw [List.append_nil] at hspans
    rw [splitByPlaceholders, hspans]
    decide +kernel
  rw [hparts] at hknown
  exact absurd (hknown 0 (by decide)) (by decide)

end Chahua.Markdown

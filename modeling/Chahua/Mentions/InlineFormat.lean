import Chahua.Mentions.EditSpans
import Mathlib

namespace Chahua.Mentions

inductive InlineFormatKind where
  | bold | italic
  deriving DecidableEq, Repr

/-- A selection; a bound that is not a finite number is missing. -/
structure TextSelection where
  start : Option Int
  stop : Option Int
  deriving DecidableEq, Repr

structure TextFormatResult extends EditableText where
  selectionStart : Nat
  selectionEnd : Nat

def wrapMarkers : InlineFormatKind → List Char
  | .bold => ['*', '*']
  | .italic => ['_', '_']

def clampSelection (text : List Char) (selection : TextSelection) : Nat × Nat :=
  let length : Int := text.length
  let rawStart := selection.start.getD 0
  let rawEnd := selection.stop.getD rawStart
  let start := max 0 (min rawStart length)
  let stop := max start (min (max rawEnd rawStart) length)
  (start.toNat, stop.toNat)

/-- `\s`. -/
def isSpace (c : Char) : Bool :=
  (9 ≤ c.toNat && c.toNat ≤ 13) || (0x2000 ≤ c.toNat && c.toNat ≤ 0x200A) ||
    c.toNat ∈ [0x20, 0xA0, 0x1680, 0x2028, 0x2029, 0x202F, 0x205F, 0x3000, 0xFEFF]

/-- `\r?\n` at the start of a text, and what follows. -/
def lineBreak : List Char → Option (List Char × List Char)
  | '\n' :: rest => some (['\n'], rest)
  | '\r' :: '\n' :: rest => some (['\r', '\n'], rest)
  | _ => none

/-- `[ \t]*\r?\n`. -/
def blankLine (text : List Char) : Option (List Char × List Char) :=
  let blanks := text.takeWhile fun c => decide (c = ' ') || decide (c = '\t')
  (lineBreak (text.drop blanks.length)).map fun (line, rest) => (blanks ++ line, rest)

/-- All blank lines at the start of a text. -/
def blankLines : Nat → List Char → List Char × List Char
  | 0, text => ([], text)
  | fuel + 1, text =>
      match blankLine text with
      | none => ([], text)
      | some (line, rest) =>
          let (lines, rest) := blankLines fuel rest
          (line ++ lines, rest)

/-- What separates two paragraphs: a line break and at least one blank line. -/
def separator (text : List Char) : Option (List Char × List Char) :=
  match lineBreak text with
  | none => none
  | some (line, rest) =>
      let (lines, rest) := blankLines rest.length rest
      if lines = [] then none else some (line ++ lines, rest)

/-- `split` by the separators, which stand between the paragraphs; `part` is the one so far. -/
def splitParts : Nat → List Char → List Char → List (List Char)
  | 0, part, text => [part ++ text]
  | _ + 1, part, [] => [part]
  | fuel + 1, part, c :: text =>
      match separator (c :: text) with
      | some (separated, rest) => part :: separated :: splitParts fuel [] rest
      | none => splitParts fuel (part ++ [c]) text

/-- A paragraph with markers around what is left of it without the whitespace at its ends. -/
def formatPart (marker : List Char) (offset : Nat) (part : List Char) : List Char × List Nat :=
  let lead := part.takeWhile isSpace
  let rest := part.dropWhile isSpace
  let body := rest.rdropWhile isSpace
  let trail := rest.rtakeWhile isSpace
  if body = [] then (part, [])
  else (lead ++ marker ++ body ++ marker ++ trail,
    [offset + lead.length, offset + part.length - trail.length])

/-- The parts from an offset on, paragraphs and separators in turn, and where markers stand. -/
def formatParts (marker : List Char) : Bool → Nat → List (List Char) → List Char × List Nat
  | _, _, [] => ([], [])
  | isParagraph, offset, part :: parts =>
      let (formatted, insertions) :=
        if isParagraph then formatPart marker offset part else (part, [])
      let (rest, more) := formatParts marker (!isParagraph) (offset + part.length) parts
      (formatted ++ rest, insertions ++ more)

def formatSelected (text : List Char) (start stop : Nat) (kind : InlineFormatKind) :
    List Char × List Nat :=
  let selected := slice text start stop
  formatParts (wrapMarkers kind) true start (splitParts selected.length [] selected)

/-- A mention that no marker is inserted in. -/
def untouched (insertions : List Nat) (m : MentionSpan) : Bool :=
  !insertions.any fun i => decide (m.start < i) && decide (i < m.stop)

def shifted (insertions : List Nat) (width : Nat) (m : MentionSpan) : MentionSpan :=
  { m with
    start := m.start + (insertions.filter (· ≤ m.start)).length * width
    stop := m.stop + (insertions.filter (· < m.stop)).length * width }

def wrapInlineFormat (text : List Char) (selection : TextSelection) (kind : InlineFormatKind)
    (mentions : List MentionSpan) : Option TextFormatResult :=
  let (start, stop) := clampSelection text selection
  if start = stop then none
  else
    let (inserted, insertions) := formatSelected text start stop kind
    let cursor := start + inserted.length
    some
      { text := text.take start ++ inserted ++ text.drop stop
        mentions := (mentions.filter (untouched insertions)).map
          (shifted insertions (wrapMarkers kind).length)
        selectionStart := cursor
        selectionEnd := cursor }

/-- The offsets at which markers are inserted. -/
def formatInsertions (text : List Char) (selection : TextSelection) (kind : InlineFormatKind) :
    List Nat :=
  let (start, stop) := clampSelection text selection
  (formatSelected text start stop kind).2

/-- A text that starts at some offset, with a marker at each of the offsets. -/
def insertMarkers (marker : List Char) : Nat → List Nat → List Char → List Char
  | _, [], text => text
  | offset, i :: insertions, text =>
      text.take (i - offset) ++ marker ++ insertMarkers marker i insertions (text.drop (i - offset))

/-- The same text without the markers. -/
def deleteMarkers (width : Nat) : Nat → List Nat → List Char → List Char
  | _, [], text => text
  | offset, i :: insertions, text =>
      text.take (i - offset) ++
        deleteMarkers width i insertions (text.drop (i - offset + width))

/-- The offsets come in pairs, each around characters that are not whitespace at either end. -/
def Around (text : List Char) (insertions : List Nat) : Prop :=
  ∃ pairs : List (Nat × Nat), insertions = pairs.flatMap (fun pair => [pair.1, pair.2]) ∧
    ∀ pair ∈ pairs, pair.1 < pair.2 ∧
      (∃ c, text[pair.1]? = some c ∧ isSpace c = false) ∧
      ∃ c, text[pair.2 - 1]? = some c ∧ isSpace c = false

/-- The offsets lie in a range, in order. -/
structure InRange (first last : Nat) (insertions : List Nat) : Prop where
  ordered : insertions.Pairwise (· ≤ ·)
  first_le : ∀ i ∈ insertions, first ≤ i
  le_last : ∀ i ∈ insertions, i ≤ last

section split

theorem lineBreak_append {text line rest : List Char} (h : lineBreak text = some (line, rest)) :
    line ++ rest = text ∧ line ≠ [] := by
  unfold lineBreak at h
  split at h
  · obtain ⟨rfl, rfl⟩ := Prod.mk.inj (Option.some.inj h)
    exact ⟨rfl, nofun⟩
  · obtain ⟨rfl, rfl⟩ := Prod.mk.inj (Option.some.inj h)
    exact ⟨rfl, nofun⟩
  · cases h

theorem blankLine_append {text line rest : List Char} (h : blankLine text = some (line, rest)) :
    line ++ rest = text := by
  unfold blankLine at h
  obtain ⟨⟨line', rest'⟩, hbreak, heq⟩ := Option.map_eq_some_iff.mp h
  obtain ⟨rfl, rfl⟩ := Prod.mk.inj heq
  rw [List.append_assoc, (lineBreak_append hbreak).1]
  have htake := List.prefix_iff_eq_take.mp
    (List.takeWhile_prefix (fun c => decide (c = ' ') || decide (c = '\t')) (l := text))
  conv_lhs => rw [htake]
  rw [List.length_take_of_le (by
    exact (List.takeWhile_prefix _).length_le)]
  exact List.take_append_drop _ _

theorem blankLines_append (fuel : Nat) (text : List Char) :
    (blankLines fuel text).1 ++ (blankLines fuel text).2 = text := by
  induction fuel generalizing text with
  | zero => rfl
  | succ fuel ih =>
    unfold blankLines
    split
    · rfl
    · next line rest hline =>
      dsimp only
      rw [List.append_assoc, ih, blankLine_append hline]

theorem separator_append {text separated rest : List Char}
    (h : separator text = some (separated, rest)) : separated ++ rest = text := by
  unfold separator at h
  split at h
  · cases h
  · next line rest' hline =>
    dsimp only at h
    split at h
    · cases h
    · obtain ⟨rfl, rfl⟩ := Prod.mk.inj (Option.some.inj h)
      rw [List.append_assoc, blankLines_append, (lineBreak_append hline).1]

/-- The parts are all of the text. -/
theorem splitParts_flatten (fuel : Nat) (part text : List Char) :
    (splitParts fuel part text).flatten = part ++ text := by
  induction fuel generalizing part text with
  | zero => simp [splitParts]
  | succ fuel ih =>
    cases text with
    | nil => simp [splitParts]
    | cons c text =>
      unfold splitParts
      split
      · next separated rest hseparator =>
        rw [List.flatten_cons, List.flatten_cons, ih, List.nil_append,
          separator_append hseparator]
      · rw [ih, List.append_assoc]
        rfl

end split

section markers

variable {marker : List Char} {offset first last : Nat} {insertions : List Nat}

/-- Behind the first offset, the rest of the text with the rest of the offsets. -/
theorem InRange.rest {i : Nat} {text : List Char}
    (h : InRange offset (offset + text.length) (i :: insertions)) :
    offset ≤ i ∧ i - offset ≤ text.length ∧
      i + (text.drop (i - offset)).length = offset + text.length ∧
      InRange i (i + (text.drop (i - offset)).length) insertions := by
  have hfirst := h.first_le i List.mem_cons_self
  have hlast := h.le_last i List.mem_cons_self
  have hlen : (text.drop (i - offset)).length = text.length - (i - offset) := List.length_drop
  have hend : i + (text.drop (i - offset)).length = offset + text.length := by omega
  refine ⟨hfirst, by omega, hend, (List.pairwise_cons.mp h.ordered).2,
    (List.pairwise_cons.mp h.ordered).1, fun j hj => ?_⟩
  rw [hend]
  exact h.le_last j (List.mem_cons_of_mem _ hj)

theorem InRange.append {middle : Nat} {more : List Nat} (h : InRange first middle insertions)
    (h' : InRange middle last more) (hle : first ≤ middle) (hle' : middle ≤ last) :
    InRange first last (insertions ++ more) where
  ordered := List.pairwise_append.mpr ⟨h.ordered, h'.ordered, fun i hi j hj =>
    (h.le_last i hi).trans (h'.first_le j hj)⟩
  first_le := by
    intro i hi
    obtain hi | hi := List.mem_append.mp hi
    · exact h.first_le i hi
    · exact hle.trans (h'.first_le i hi)
  le_last := by
    intro i hi
    obtain hi | hi := List.mem_append.mp hi
    · exact (h.le_last i hi).trans hle'
    · exact h'.le_last i hi

theorem length_insertMarkers {text : List Char}
    (h : InRange offset (offset + text.length) insertions) :
    (insertMarkers marker offset insertions text).length =
      text.length + insertions.length * marker.length := by
  induction insertions generalizing offset text with
  | nil => simp [insertMarkers]
  | cons i insertions ih =>
    obtain ⟨hfirst, hlen, hend, htail⟩ := h.rest
    rw [insertMarkers, List.length_append, List.length_append, ih htail,
      List.length_take_of_le hlen, List.length_cons, Nat.succ_mul]
    omega

/-- Without the markers the text is as before. -/
theorem deleteMarkers_insertMarkers {text : List Char}
    (h : InRange offset (offset + text.length) insertions) :
    deleteMarkers marker.length offset insertions
      (insertMarkers marker offset insertions text) = text := by
  induction insertions generalizing offset text with
  | nil => rfl
  | cons i insertions ih =>
    obtain ⟨hfirst, hlen, hend, htail⟩ := h.rest
    have htake : (text.take (i - offset)).length = i - offset := List.length_take_of_le hlen
    have hbefore : ((text.take (i - offset) ++ marker) ++ insertMarkers marker i insertions
        (text.drop (i - offset))).drop (i - offset + marker.length) =
          insertMarkers marker i insertions (text.drop (i - offset)) := by
      rw [← htake, ← List.length_append, htake]
      exact List.drop_left
    rw [insertMarkers, deleteMarkers, hbefore, ih htail, List.append_assoc,
      List.take_append_of_le_length htake.ge, List.take_of_length_le htake.le,
      List.take_append_drop]

/-- Two stretches of a text get their markers one after the other. -/
theorem insertMarkers_append {before after : List Char} {more : List Nat}
    (h : InRange offset (offset + before.length) insertions)
    (h' : ∀ i ∈ more, offset + before.length ≤ i) :
    insertMarkers marker offset (insertions ++ more) (before ++ after) =
      insertMarkers marker offset insertions before ++
        insertMarkers marker (offset + before.length) more after := by
  induction insertions generalizing offset before with
  | nil =>
    cases more with
    | nil => rfl
    | cons i more =>
      have hle := h' i List.mem_cons_self
      have htake : (before ++ after).take (i - offset) =
          before ++ after.take (i - (offset + before.length)) := by
        rw [List.take_append, List.take_of_length_le (by omega)]
        congr 2
        omega
      have hdrop : (before ++ after).drop (i - offset) =
          after.drop (i - (offset + before.length)) := by
        rw [List.drop_append, List.drop_of_length_le (by omega), List.nil_append]
        congr 1
        omega
      rw [List.nil_append, insertMarkers, insertMarkers, insertMarkers, htake, hdrop]
      simp only [List.append_assoc]
  | cons i insertions ih =>
    obtain ⟨-, hlen, hend, htail⟩ := h.rest
    have hrest := @ih i (before.drop (i - offset)) htail (hend.symm ▸ h')
    rw [List.cons_append, insertMarkers, insertMarkers, List.take_append_of_le_length hlen,
      List.drop_append_of_le_length hlen, hrest, hend]
    simp only [List.append_assoc]

end markers

section parts

variable {marker text : List Char} {offset : Nat}

theorem Around.append {insertions more : List Nat} (h : Around text insertions)
    (h' : Around text more) : Around text (insertions ++ more) := by
  obtain ⟨pairs, rfl, hpairs⟩ := h
  obtain ⟨pairs', rfl, hpairs'⟩ := h'
  refine ⟨pairs ++ pairs', List.flatMap_append.symm, fun pair hmem => ?_⟩
  obtain hmem | hmem := List.mem_append.mp hmem
  · exact hpairs pair hmem
  · exact hpairs' pair hmem

/-- What is around a body that has no whitespace at either end. -/
theorem around_body {lead body trail : List Char} (hne : body ≠ [])
    (hfirst : isSpace (body.head hne) = false) (hlast : isSpace (body.getLast hne) = false)
    (htext : lead ++ (body ++ trail) <+: text.drop offset) :
    Around text [offset + lead.length, offset + (lead ++ body).length] := by
  obtain ⟨after, hafter⟩ := htext
  have hpos := List.length_pos_iff.mpr hne
  have hread : ∀ k, k < body.length →
      text[offset + (lead.length + k)]? = body[k]? := by
    intro k hk
    rw [← List.getElem?_drop, ← hafter, List.append_assoc, List.append_assoc,
      List.getElem?_append_right (Nat.le_add_right _ _), Nat.add_sub_cancel_left,
      List.getElem?_append_left hk]
  refine ⟨[(offset + lead.length, offset + (lead ++ body).length)], by simp, ?_⟩
  intro pair hmem
  obtain rfl := List.mem_singleton.mp hmem
  rw [List.length_append]
  refine ⟨by omega, ⟨body.head hne, ?_, hfirst⟩, body.getLast hne, ?_, hlast⟩
  · have h := hread 0 hpos
    rw [Nat.add_zero] at h
    rw [h, ← List.head?_eq_getElem?, List.head?_eq_some_head hne]
  · have h := hread (body.length - 1) (by omega)
    have hindex : offset + (lead.length + body.length) - 1 =
        offset + (lead.length + (body.length - 1)) := by omega
    dsimp only
    rw [hindex, h, ← List.getLast?_eq_getElem?, List.getLast?_eq_some_getLast hne]

theorem formatPart_spec {part : List Char} (marker : List Char)
    (htext : part <+: text.drop offset) :
    InRange offset (offset + part.length) (formatPart marker offset part).2 ∧
      (formatPart marker offset part).1 =
        insertMarkers marker offset (formatPart marker offset part).2 part ∧
      Around text (formatPart marker offset part).2 := by
  unfold formatPart
  dsimp only
  generalize hlead : part.takeWhile isSpace = lead
  generalize hrest : part.dropWhile isSpace = rest
  generalize hbody : rest.rdropWhile isSpace = body
  generalize htrail : rest.rtakeWhile isSpace = trail
  have hpart : lead ++ rest = part := by
    rw [← hlead, ← hrest]
    exact List.takeWhile_append_dropWhile
  have hsplit : body ++ trail = rest := by
    rw [← hbody, ← htrail]
    exact List.rdropWhile_append_rtakeWhile
  split
  · exact ⟨⟨.nil, nofun, nofun⟩, rfl, [], rfl, nofun⟩
  · next hne =>
    have hend : offset + part.length - trail.length = offset + (lead ++ body).length := by
      rw [← hpart, ← hsplit]
      simp only [List.length_append]
      omega
    have hfirst : isSpace (body.head hne) = false := by
      have hhead : rest.head? = some (body.head hne) := by
        rw [← hsplit, List.head?_append, List.head?_eq_some_head hne]
        rfl
      have hnot := List.head?_dropWhile_not isSpace part
      rw [hrest, hhead] at hnot
      exact hnot
    have hlast : isSpace (body.getLast hne) = false := by
      subst hbody
      simpa using List.rdropWhile_last_not isSpace rest hne
    rw [hend]
    rw [← hsplit] at hpart
    subst hpart
    refine ⟨⟨?_, ?_, ?_⟩, ?_, around_body hne hfirst hlast htext⟩
    · simp
    · simp
    · simp
    · simp only [insertMarkers, Nat.add_sub_cancel_left, List.take_left, List.drop_left,
        List.length_append, ← Nat.add_assoc, List.append_assoc]

theorem formatParts_spec (marker : List Char) (isParagraph : Bool) {parts : List (List Char)}
    (htext : parts.flatten <+: text.drop offset) :
    InRange offset (offset + parts.flatten.length)
        (formatParts marker isParagraph offset parts).2 ∧
      (formatParts marker isParagraph offset parts).1 =
        insertMarkers marker offset (formatParts marker isParagraph offset parts).2
          parts.flatten ∧
      Around text (formatParts marker isParagraph offset parts).2 := by
  induction parts generalizing isParagraph offset with
  | nil => exact ⟨⟨.nil, nofun, nofun⟩, rfl, [], rfl, nofun⟩
  | cons part parts ih =>
    rw [List.flatten_cons] at htext ⊢
    have hpart : part <+: text.drop offset := (List.prefix_append _ _).trans htext
    have hparts : parts.flatten <+: text.drop (offset + part.length) := by
      obtain ⟨after, hafter⟩ := htext
      rw [← List.drop_drop, ← hafter, List.append_assoc, List.drop_left]
      exact List.prefix_append _ _
    have hformatted : ∃ formatted insertions,
        (if isParagraph then formatPart marker offset part else (part, [])) =
          (formatted, insertions) ∧
        InRange offset (offset + part.length) insertions ∧
        formatted = insertMarkers marker offset insertions part ∧ Around text insertions := by
      cases isParagraph with
      | true => exact ⟨_, _, rfl, formatPart_spec marker hpart⟩
      | false => exact ⟨part, [], rfl, ⟨.nil, nofun, nofun⟩, rfl, [], rfl, nofun⟩
    obtain ⟨formatted, insertions, hpair, hrange, hinserted, haround⟩ := hformatted
    obtain ⟨hrange', hinserted', haround'⟩ := ih (!isParagraph) hparts
    unfold formatParts
    rw [hpair]
    dsimp only
    rw [List.length_append, ← Nat.add_assoc]
    refine ⟨hrange.append hrange' (Nat.le_add_right _ _) (Nat.le_add_right _ _), ?_,
      haround.append haround'⟩
    rw [hinserted, hinserted', insertMarkers_append hrange hrange'.first_le]

end parts

section wrap

variable {text : List Char} {selection : TextSelection} {start stop : Nat}

theorem clampSelection_le (h : clampSelection text selection = (start, stop)) :
    start ≤ stop ∧ stop ≤ text.length := by
  unfold clampSelection at h
  dsimp only at h
  obtain ⟨rfl, rfl⟩ := Prod.mk.inj h
  omega

theorem formatSelected_spec (hle : start ≤ stop) (hlen : stop ≤ text.length)
    (kind : InlineFormatKind) :
    InRange start stop (formatSelected text start stop kind).2 ∧
      text.take start ++ (formatSelected text start stop kind).1 ++ text.drop stop =
        insertMarkers (wrapMarkers kind) 0 (formatSelected text start stop kind).2 text ∧
      Around text (formatSelected text start stop kind).2 := by
  have hselected : (slice text start stop).length = stop - start := length_slice hlen
  have hflatten : (splitParts (slice text start stop).length [] (slice text start stop)).flatten =
      slice text start stop := splitParts_flatten _ _ _
  have htext : (splitParts (slice text start stop).length [] (slice text start stop)).flatten <+:
      text.drop start := by
    rw [hflatten, slice_eq_take]
    exact List.take_prefix _ _
  obtain ⟨hrange, hinserted, haround⟩ := formatParts_spec (wrapMarkers kind) true htext
  rw [hflatten] at hrange hinserted
  have hstop : start + (slice text start stop).length = stop := by omega
  rw [hstop] at hrange
  refine ⟨hrange, ?_, haround⟩
  unfold formatSelected
  dsimp only
  rw [hinserted]
  generalize (formatParts (wrapMarkers kind) true start
    (splitParts (slice text start stop).length [] (slice text start stop))).2 = insertions
    at hrange ⊢
  have hparts : text = text.take start ++ (slice text start stop ++ text.drop stop) := by
    have hprefix : text.take start ++ slice text start stop = text.take stop := by
      have h := List.take_append_drop start (text.take stop)
      rwa [List.take_take, Nat.min_eq_left hle] at h
    rw [← List.append_assoc, hprefix, List.take_append_drop]
  have htake : (text.take start).length = start := List.length_take_of_le (hle.trans hlen)
  have hbefore := @insertMarkers_append (wrapMarkers kind) 0 [] (text.take start)
    (slice text start stop ++ text.drop stop) insertions ⟨.nil, nofun, nofun⟩ (by
      rw [htake, Nat.zero_add]
      exact hrange.first_le)
  have hbehind := @insertMarkers_append (wrapMarkers kind) start insertions (slice text start stop)
    (text.drop stop) [] (hstop.symm ▸ hrange) nofun
  rw [List.nil_append, ← hparts, htake, Nat.zero_add] at hbefore
  rw [List.append_nil] at hbehind
  rw [hbefore, hbehind, List.append_assoc]
  rfl

end wrap

section mentions

variable {marker text : List Char} {insertions : List Nat} {offset : Nat} {m : MentionSpan}

theorem untouched_iff :
    untouched insertions m = true ↔ ∀ i ∈ insertions, ¬(m.start < i ∧ i < m.stop) := by
  simp [untouched]

/-- Both ends of an untouched mention move by the same markers. -/
theorem filter_untouched (hne : m.start < m.stop) (h : untouched insertions m = true) :
    insertions.filter (· < m.stop) = insertions.filter (· ≤ m.start) := by
  refine List.filter_congr fun i hi => ?_
  have hno := untouched_iff.mp h i hi
  rw [decide_eq_decide]
  omega

theorem slice_append_add (before after : List Char) (a b : Nat) :
    slice (before ++ after) (before.length + a) (before.length + b) = slice after a b := by
  rw [slice_eq_take, slice_eq_take, List.drop_append, List.drop_of_length_le (by omega),
    List.nil_append, Nat.add_sub_cancel_left]
  congr 1
  omega

theorem slice_drop (text : List Char) (n a b : Nat) :
    slice (text.drop n) a b = slice text (n + a) (n + b) := by
  rw [slice_eq_take, slice_eq_take, List.drop_drop]
  congr 1
  omega

/-- The characters of an untouched mention stand together behind the markers before them. -/
theorem slice_insertMarkers {first last : Nat}
    (h : InRange offset (offset + text.length) insertions) (hle : offset ≤ first)
    (hlt : first < last) (hlast : last ≤ offset + text.length)
    (hno : ∀ i ∈ insertions, ¬(first < i ∧ i < last)) :
    slice (insertMarkers marker offset insertions text)
        (first - offset + (insertions.filter (· ≤ first)).length * marker.length)
        (last - offset + (insertions.filter (· ≤ first)).length * marker.length) =
      slice text (first - offset) (last - offset) := by
  induction insertions generalizing offset text with
  | nil => simp [insertMarkers]
  | cons i insertions ih =>
    obtain ⟨hfirst, hlen, hend, htail⟩ := h.rest
    by_cases hi : i ≤ first
    · have hrest := ih htail hi (hend.symm ▸ hlast)
        fun j hj => hno j (List.mem_cons_of_mem _ hj)
      have hbefore : (text.take (i - offset) ++ marker).length = i - offset + marker.length := by
        rw [List.length_append, List.length_take_of_le hlen]
      have hmove : ∀ n, i ≤ n →
          n - offset + ((insertions.filter (· ≤ first)).length + 1) * marker.length =
            (text.take (i - offset) ++ marker).length +
              (n - i + (insertions.filter (· ≤ first)).length * marker.length) := by
        intro n hn
        rw [hbefore, Nat.succ_mul]
        omega
      rw [List.filter_cons_of_pos (by simpa using hi), List.length_cons, insertMarkers,
        hmove first hi, hmove last (by omega), slice_append_add, hrest, slice_drop]
      congr 1
      · omega
      · omega
    · have hnot := hno i List.mem_cons_self
      have hlater := (List.pairwise_cons.mp h.ordered).1
      have hnone : (i :: insertions).filter (· ≤ first) = [] := by
        refine List.filter_eq_nil_iff.mpr fun j hj => ?_
        rw [decide_eq_true_eq]
        obtain rfl | hj := List.mem_cons.mp hj
        · exact hi
        · have := hlater j hj
          omega
      have htake : (text.take (i - offset)).length = i - offset := List.length_take_of_le hlen
      rw [hnone, insertMarkers, List.length_nil, Nat.zero_mul, Nat.add_zero, Nat.add_zero, slice,
        slice, List.append_assoc, List.take_append_of_le_length (by omega), List.take_take,
        Nat.min_eq_left (by omega)]

/-- A marker before the end of a mention is before the start of the next one. -/
theorem length_filter_le {a b : Nat} (insertions : List Nat) (h : a ≤ b) :
    (insertions.filter (· < a)).length ≤ (insertions.filter (· ≤ b)).length := by
  refine (List.monotone_filter_right insertions fun i hi => ?_).length_le
  rw [decide_eq_true_eq] at hi ⊢
  omega

theorem shifted_wellPlaced {mentions : List MentionSpan} (h : WellPlaced ⟨text, mentions⟩)
    (hrange : InRange 0 text.length insertions) (marker : List Char) :
    WellPlaced ⟨insertMarkers marker 0 insertions text,
      (mentions.filter (untouched insertions)).map (shifted insertions marker.length)⟩ ∧
    List.Forall₂ (SameSpan text (insertMarkers marker 0 insertions text))
      (mentions.filter (untouched insertions))
      ((mentions.filter (untouched insertions)).map (shifted insertions marker.length)) := by
  have hrange' : InRange 0 (0 + text.length) insertions := (Nat.zero_add text.length).symm ▸ hrange
  have hsame : ∀ m ∈ mentions.filter (untouched insertions), m.start < m.stop ∧
      m.stop ≤ text.length ∧ insertions.filter (· < m.stop) = insertions.filter (· ≤ m.start) ∧
      SameSpan text (insertMarkers marker 0 insertions text) m
        (shifted insertions marker.length m) := by
    intro m hm
    obtain ⟨hm, huntouched⟩ := List.mem_filter.mp hm
    have hne := h.nonempty m hm
    have hbound : m.stop ≤ text.length := h.bounds m hm
    have heq := filter_untouched hne huntouched
    have hslice := @slice_insertMarkers marker text insertions 0 m.start m.stop hrange'
      (Nat.zero_le _) hne (by omega) (untouched_iff.mp huntouched)
    refine ⟨hne, hbound, heq, rfl, ?_⟩
    unfold shifted
    rw [heq]
    exact hslice
  refine ⟨⟨fun r hr => ?_, fun r hr => ?_, ?_⟩, ?_⟩
  · obtain ⟨m, hm, rfl⟩ := List.mem_map.mp hr
    obtain ⟨hne, -, heq, -⟩ := hsame m hm
    unfold shifted
    rw [heq]
    exact Nat.add_lt_add_right hne _
  · obtain ⟨m, hm, rfl⟩ := List.mem_map.mp hr
    obtain ⟨-, hbound, -, -⟩ := hsame m hm
    have hcount : (insertions.filter (· < m.stop)).length ≤ insertions.length :=
      List.length_filter_le _ _
    rw [length_insertMarkers hrange']
    exact Nat.add_le_add hbound (Nat.mul_le_mul_right _ hcount)
  · rw [List.pairwise_map]
    refine (h.disjoint.filter _).imp fun {m m'} happart => ?_
    exact Nat.add_le_add happart (Nat.mul_le_mul_right _ (length_filter_le insertions happart))
  · rw [List.forall₂_map_right_iff, List.forall₂_same]
    exact fun m hm => (hsame m hm).2.2.2

end mentions

/-- Edits and the format shortcuts keep the mentions well placed and over their characters. -/
theorem mention_spans_kept {value : EditableText} (h : WellPlaced value) :
    (∀ nextText, WellPlaced (editText value nextText) ∧
      ∃ kept, kept.Sublist value.mentions ∧
        List.Forall₂ (SameSpan value.text nextText) kept (editText value nextText).mentions) ∧
    ∀ selection kind result,
      wrapInlineFormat value.text selection kind value.mentions = some result →
        result.text = insertMarkers (wrapMarkers kind) 0
          (formatInsertions value.text selection kind) value.text ∧
        deleteMarkers (wrapMarkers kind).length 0
          (formatInsertions value.text selection kind) result.text = value.text ∧
        Around value.text (formatInsertions value.text selection kind) ∧
        WellPlaced result.toEditableText ∧
        List.Forall₂ (SameSpan value.text result.text)
          (value.mentions.filter (untouched (formatInsertions value.text selection kind)))
          result.mentions := by
  refine ⟨editText_spec h, fun selection kind result hresult => ?_⟩
  unfold wrapInlineFormat at hresult
  unfold formatInsertions
  generalize hclamp : clampSelection value.text selection = range at hresult ⊢
  obtain ⟨start, stop⟩ := range
  obtain ⟨hle, hlen⟩ := clampSelection_le hclamp
  obtain ⟨hrange, htext, haround⟩ := formatSelected_spec hle hlen kind
  dsimp only at hresult ⊢
  split at hresult
  · cases hresult
  · obtain rfl := Option.some.inj hresult
    dsimp only
    have hall : InRange 0 value.text.length (formatSelected value.text start stop kind).2 :=
      ⟨hrange.ordered, fun _ _ => Nat.zero_le _, fun i hi => (hrange.le_last i hi).trans hlen⟩
    obtain ⟨hplaced, hsame⟩ := shifted_wellPlaced h hall (wrapMarkers kind)
    rw [htext]
    refine ⟨rfl, deleteMarkers_insertMarkers ?_, haround, hplaced, hsame⟩
    rwa [Nat.zero_add]

/-- A mention of bob, set in bold. -/
theorem mention_spans_kept_bob :
    WellPlaced (editText ⟨"hi @bob".toList, [⟨3, 7, 1⟩]⟩ "hi __@bob__".toList) ∧
      ∃ result, wrapInlineFormat "hi @bob".toList ⟨some 0, some 7⟩ .bold [⟨3, 7, 1⟩] =
        some result ∧ result.text = "**hi @bob**".toList ∧ WellPlaced result.toEditableText := by
  have hplaced : WellPlaced ⟨"hi @bob".toList, [⟨3, 7, 1⟩]⟩ := by
    refine ⟨?_, ?_, ?_⟩ <;> simp
  obtain ⟨hedit, hwrap⟩ := mention_spans_kept hplaced
  obtain ⟨result, hresult⟩ : ∃ result,
      wrapInlineFormat "hi @bob".toList ⟨some 0, some 7⟩ .bold [⟨3, 7, 1⟩] = some result :=
    Option.isSome_iff_exists.mp (by decide)
  obtain ⟨htext, -, -, hplaced', -⟩ := hwrap _ _ result hresult
  refine ⟨(hedit _).1, result, hresult, ?_, hplaced'⟩
  rw [htext]
  decide

example : (wrapInlineFormat "a\n\n b c".toList ⟨some 0, some 9⟩ .italic []).map (·.text) =
    some "__a__\n\n __b c__".toList := by decide

end Chahua.Mentions

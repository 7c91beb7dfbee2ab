import Chahua.Messages.Mentions
import Mathlib.Data.List.Basic

namespace Chahua.Mentions

structure MentionSpan where
  start : Nat
  stop : Nat
  uid : Nat
  deriving DecidableEq, Repr

structure EditableText where
  text : List Char
  mentions : List MentionSpan
  deriving DecidableEq, Repr

/-- A region of the source from `start` up to `stop`. -/
structure TextRegion where
  start : Nat
  stop : Nat
  deriving DecidableEq, Repr

def backtick : Char := Char.ofNat 96
def backslash : Char := Char.ofNat 92

def backtickRun (source : List Char) : Nat := (source.takeWhile (· = backtick)).length

/-- The end of the next run of backticks of a length. -/
def closeRun (length : Nat) : Nat → Nat → List Char → Option Nat
  | 0, _, _ => none
  | _ + 1, _, [] => none
  | fuel + 1, scan, c :: source =>
      if c ≠ backtick then closeRun length fuel (scan + 1) source
      else
        let run := backtickRun (c :: source)
        if run = length then some (scan + run)
        else closeRun length fuel (scan + run) ((c :: source).drop run)

def scanRegions : Nat → Nat → List Char → List TextRegion
  | 0, _, _ => []
  | _ + 1, _, [] => []
  | fuel + 1, pos, c :: source =>
      if c = backslash then scanRegions fuel (pos + 2) (source.drop 1)
      else if c ≠ backtick then scanRegions fuel (pos + 1) source
      else
        let length := backtickRun (c :: source)
        match closeRun length (source.length + 1) (pos + length) ((c :: source).drop length) with
        | some closeEnd =>
            ⟨pos, closeEnd⟩ :: scanRegions fuel closeEnd ((c :: source).drop (closeEnd - pos))
        | none => scanRegions fuel (pos + length) ((c :: source).drop length)

/-- `findCodeRegions` of a text that is one inline block. -/
def findCodeRegions (source : List Char) : List TextRegion := scanRegions source.length 0 source

def inCode (source : List Char) (pos : Nat) : Bool :=
  (findCodeRegions source).any fun region =>
    decide (region.start ≤ pos) && decide (pos < region.stop)

def macroPrefix : List Char := ['@', '[', 'u', 'i', 'd', ':']

def macroText (uid : Nat) : List Char := macroPrefix ++ Nat.toDigits 10 uid ++ [']']

/-- A match of the macro pattern at the start of a text: its digits, and what follows it. -/
def matchMacro : List Char → Option (List Char × List Char)
  | '@' :: '[' :: 'u' :: 'i' :: 'd' :: ':' :: rest =>
      match rest.dropWhile Char.isDigit with
      | ']' :: next =>
          if rest.takeWhile Char.isDigit = [] then none
          else some (rest.takeWhile Char.isDigit, next)
      | _ => none
  | _ => none

/-- A match with the text between it and the match before. -/
structure MacroMatch where
  before : List Char
  digits : List Char
  deriving DecidableEq, Repr

/-- The number of the digits, which `Number` gives exactly up to 2^53 - 1. -/
def MacroMatch.uid (m : MacroMatch) : Nat := Nat.ofDigitChars 10 m.digits 0

def MacroMatch.raw (m : MacroMatch) : List Char := macroPrefix ++ m.digits ++ [']']

/-- The matches of the pattern, and the text after the last. -/
def scanMacros : Nat → List Char → List Char → List MacroMatch × List Char
  | 0, before, text => ([], before ++ text)
  | _ + 1, before, [] => ([], before)
  | fuel + 1, before, c :: text =>
      match matchMacro (c :: text) with
      | some (digits, next) =>
          let later := scanMacros fuel [] next
          (⟨before, digits⟩ :: later.1, later.2)
      | none => scanMacros fuel (before ++ [c]) text

def matchAll (text : List Char) : List MacroMatch × List Char := scanMacros text.length [] text

/-- An empty name counts as none. -/
def displayName (names : Nat → Option (List Char)) (uid : Nat) : List Char :=
  match names uid with
  | some (c :: name) => c :: name
  | _ => ['U', 's', 'e', 'r', ' '] ++ Nat.toDigits 10 uid

def displayStep (names : Nat → Option (List Char)) (value : EditableText) (m : MacroMatch) :
    EditableText :=
  let text := value.text ++ m.before
  let shown := text ++ '@' :: displayName names m.uid
  ⟨shown, value.mentions ++ [⟨text.length, shown.length, m.uid⟩]⟩

def displayText (wire : List Char) (names : Nat → Option (List Char)) : EditableText :=
  let value := (matchAll wire).1.foldl (displayStep names) ⟨[], []⟩
  { value with text := value.text ++ (matchAll wire).2 }

def slice (text : List Char) (start stop : Nat) : List Char := (text.take stop).drop start

/-- One mention of the loop over what was written and where the rest of the text starts. -/
def wireStep (text : List Char) (state : List Char × Nat) (mention : MentionSpan) :
    List Char × Nat :=
  if inCode text mention.start then state
  else (state.1 ++ slice text state.2 mention.start ++ macroText mention.uid, mention.stop)

def wireText (value : EditableText) : List Char :=
  if value.mentions = [] then value.text
  else
    let state := value.mentions.foldl (wireStep value.text) ([], 0)
    state.1 ++ value.text.drop state.2

def widgetStep (message : List Char) (state : Nat × List Nat) (m : MacroMatch) : Nat × List Nat :=
  let index := state.1 + m.before.length
  (index + m.raw.length, if inCode message index then state.2 else state.2 ++ [m.uid])

/-- The uids of the widgets. -/
def extractMentionWidgets (message : List Char) : List Nat :=
  ((matchAll message).1.foldl (widgetStep message) (0, [])).2

/-- Where the macros of a text start. -/
def macroStarts : Nat → List MacroMatch → List Nat
  | _, [] => []
  | pos, m :: ms => (pos + m.before.length) :: macroStarts (pos + m.before.length + m.raw.length) ms

/-- Matches and a last text, put together again. -/
def joinMatches (ms : List MacroMatch) (tail : List Char) : List Char :=
  ms.flatMap (fun m => m.before ++ m.raw) ++ tail

theorem matchMacro_eq {text digits next : List Char} (h : matchMacro text = some (digits, next)) :
    text = macroPrefix ++ digits ++ ']' :: next := by
  unfold matchMacro at h
  split at h
  · next rest =>
    split at h
    · next next' hdrop =>
      split at h
      · cases h
      · obtain ⟨rfl, rfl⟩ := Prod.mk.inj (Option.some.inj h)
        have hrest := List.takeWhile_append_dropWhile (p := Char.isDigit) (l := rest)
        rw [hdrop] at hrest
        simp only [macroPrefix, List.cons_append, List.nil_append]
        rw [hrest]
    · cases h
  · cases h

theorem starts_of_matchMacro {text : List Char} (h : (matchMacro text).isSome = true) :
    macroPrefix <+: text := by
  obtain ⟨⟨digits, next⟩, heq⟩ := Option.isSome_iff_exists.mp h
  rw [matchMacro_eq heq, List.append_assoc]
  exact List.prefix_append ..

theorem joinMatches_cons (m : MacroMatch) (ms : List MacroMatch) (tail : List Char) :
    joinMatches (m :: ms) tail = m.before ++ (m.raw ++ joinMatches ms tail) := by
  simp only [joinMatches, List.flatMap_cons, List.append_assoc]

/-- The scan loses nothing of the text. -/
theorem joinMatches_scanMacros {fuel : Nat} {before text : List Char} (h : text.length ≤ fuel) :
    joinMatches (scanMacros fuel before text).1 (scanMacros fuel before text).2 = before ++ text := by
  induction fuel generalizing before text with
  | zero =>
    obtain rfl : text = [] := List.length_eq_zero_iff.mp (Nat.le_zero.mp h)
    simp [scanMacros, joinMatches]
  | succ fuel ih =>
    cases text with
    | nil => simp [scanMacros, joinMatches]
    | cons c text =>
      rw [List.length_cons] at h
      simp only [scanMacros]
      split
      · next digits next hmatch =>
        have heq := matchMacro_eq hmatch
        have hlength : next.length ≤ fuel := by
          have hsame := congrArg List.length heq
          simp only [List.length_cons, List.length_append, macroPrefix] at hsame
          omega
        dsimp only
        rw [joinMatches_cons, ih hlength, MacroMatch.raw, heq]
        simp only [List.append_assoc, List.nil_append, List.cons_append]
      · rw [ih (by omega), List.append_assoc]
        rfl

theorem joinMatches_matchAll (text : List Char) :
    joinMatches (matchAll text).1 (matchAll text).2 = text :=
  joinMatches_scanMacros (Nat.le_refl _)

/-- The text of matches as it is shown. -/
def shownText (names : Nat → Option (List Char)) (ms : List MacroMatch) : List Char :=
  ms.flatMap fun m => m.before ++ '@' :: displayName names m.uid

/-- The spans of matches that are shown from a position on. -/
def shownSpans (names : Nat → Option (List Char)) : Nat → List MacroMatch → List MentionSpan
  | _, [] => []
  | pos, m :: ms =>
      let start := pos + m.before.length
      let stop := start + (displayName names m.uid).length + 1
      ⟨start, stop, m.uid⟩ :: shownSpans names stop ms

theorem foldl_displayStep (names : Nat → Option (List Char)) (ms : List MacroMatch)
    (value : EditableText) : ms.foldl (displayStep names) value =
      ⟨value.text ++ shownText names ms,
        value.mentions ++ shownSpans names value.text.length ms⟩ := by
  induction ms generalizing value with
  | nil => simp [shownText, shownSpans]
  | cons m ms ih =>
    rw [List.foldl_cons, ih]
    simp [displayStep, shownText, shownSpans, Nat.add_assoc]

theorem displayText_eq (wire : List Char) (names : Nat → Option (List Char)) :
    displayText wire names =
      ⟨shownText names (matchAll wire).1 ++ (matchAll wire).2,
        shownSpans names 0 (matchAll wire).1⟩ := by
  unfold displayText
  rw [foldl_displayStep]
  simp

theorem slice_append {front middle rest : List Char} {start stop : Nat} (hstart : start = front.length)
    (hstop : stop = front.length + middle.length) :
    slice (front ++ (middle ++ rest)) start stop = middle := by
  subst hstart hstop
  rw [slice, ← List.append_assoc, ← List.length_append, List.take_left, List.drop_left]

/-- The loop writes back what was shown, where no mention is in code. -/
theorem foldl_wireStep_shown (names : Nat → Option (List Char)) {ms : List MacroMatch}
    {text front tail : List Char} (htext : text = front ++ (shownText names ms ++ tail))
    (hcanonical : ∀ m ∈ ms, m.digits = Nat.toDigits 10 m.uid)
    (hcode : ∀ mention ∈ shownSpans names front.length ms, inCode text mention.start = false)
    (written : List Char) :
    (shownSpans names front.length ms).foldl (wireStep text) (written, front.length) =
      (written ++ ms.flatMap (fun m => m.before ++ m.raw),
        front.length + (shownText names ms).length) := by
  induction ms generalizing front written with
  | nil => simp [shownSpans, shownText]
  | cons m ms ih =>
    have hraw : m.raw = macroText m.uid := by
      rw [MacroMatch.raw, macroText, hcanonical m List.mem_cons_self]
    have hshown : shownText names (m :: ms) =
        m.before ++ '@' :: displayName names m.uid ++ shownText names ms := rfl
    have hslice : slice text front.length (front.length + m.before.length) = m.before := by
      rw [htext, hshown, List.append_assoc, List.append_assoc]
      exact slice_append rfl rfl
    have hfirst : inCode text (front.length + m.before.length) = false :=
      hcode _ List.mem_cons_self
    have hnext : text = (front ++ (m.before ++ '@' :: displayName names m.uid)) ++
        (shownText names ms ++ tail) := by
      rw [htext, hshown]
      simp only [List.append_assoc]
    have hlength : (front ++ (m.before ++ '@' :: displayName names m.uid)).length =
        front.length + m.before.length + (displayName names m.uid).length + 1 := by
      simp only [List.length_append, List.length_cons]
      omega
    have hrest := ih hnext (fun other hmem => hcanonical other (List.mem_cons_of_mem _ hmem))
      (fun mention hmem => hcode mention (by
        rw [hlength] at hmem
        exact List.mem_cons_of_mem _ hmem))
      (written ++ m.before ++ m.raw)
    rw [hlength] at hrest
    simp only [shownSpans, List.foldl_cons, wireStep, hfirst, Bool.false_eq_true, if_false, hslice,
      ← hraw]
    rw [hrest]
    refine Prod.ext ?_ ?_
    · simp only [List.flatMap_cons, List.append_assoc]
    · rw [hshown, List.length_append, List.length_append, List.length_cons]
      dsimp only
      omega

/-- Macros of canonical uids come back where no shown mention starts in code. -/
theorem wireText_displayText (wire : List Char) (names : Nat → Option (List Char))
    (hcanonical : ∀ m ∈ (matchAll wire).1, m.digits = Nat.toDigits 10 m.uid)
    (hcode : ∀ mention ∈ (displayText wire names).mentions,
      inCode (displayText wire names).text mention.start = false) :
    wireText (displayText wire names) = wire := by
  have hjoin := joinMatches_matchAll wire
  rw [displayText_eq] at hcode ⊢
  generalize (matchAll wire).1 = ms at *
  generalize (matchAll wire).2 = tail at *
  unfold wireText
  split
  · next hnone =>
    cases ms with
    | nil => exact hjoin
    | cons m ms => cases hnone
  · have hloop := @foldl_wireStep_shown names ms _ [] tail rfl hcanonical hcode []
    simp only [List.length_nil, List.nil_append, Nat.zero_add] at hloop
    dsimp only
    rw [hloop]
    dsimp only
    rw [List.drop_left]
    exact hjoin

end Chahua.Mentions

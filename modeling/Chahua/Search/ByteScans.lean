import Chahua.Framework.Utf8
import Chahua.Search.MessageSearch
import Mathlib.Tactic

namespace Chahua.Search

open Framework Messages

/-- The two scans over the bytes of a text. No result means a slice off a character boundary. -/
def parseMentionTokenAt (text : List Char) (start : Nat) : Option (Option (Int × Nat)) :=
  let bytes := strBytes text
  if bytes[start]? ≠ some '@'.toNat ∨ bytes[start + 1]? ≠ some '['.toNat then some none
  else
    match sliceFrom text (start + 2) with
    | none => some none
    | some rest =>
        match findChar ']' rest with
        | none => some none
        | some close => (slice rest 0 close).map fun inner =>
            match inner with
            | 'u' :: 'i' :: 'd' :: ':' :: uid =>
                (parseI32 uid).map fun uid => (uid, start + 2 + close + 1)
            | _ => none

def parseMentionTokenEndAt (text : List Char) (start : Nat) : Option (Option Nat) :=
  (parseMentionTokenAt text start).map fun token => token.map (·.2)

/-- The loop of `extract_mention_uids`, which moves on by a byte; the ranges of the tokens are kept
beside the uids. -/
def extractLoop (text : List Char) : Nat → Nat → List Int → List (Nat × Nat) →
    Option (List Int × List (Nat × Nat))
  | fuel, i, uids, found =>
    if i < (strBytes text).length then
      match fuel with
      | 0 => none
      | fuel + 1 =>
          (parseMentionTokenAt text i).bind fun token =>
            match token with
            | some (uid, next) =>
                extractLoop text fuel next (if uid ∈ uids then uids else uids ++ [uid])
                  (found ++ [(i, next)])
            | none => extractLoop text fuel (i + 1) uids found
    else some (uids, found)

def utf8CharWidth (byte : Nat) : Nat :=
  if byte < 0x80 then 1
  else if byte < 0xE0 then 2
  else if byte < 0xF0 then 3
  else 4

/-- The loop of `normalize_search_text`, which moves on by a character; the ranges of the tokens are
kept beside the output. -/
def normalizeLoop (text : List Char) : Nat → Nat → Nat → List Char × Bool → List (Nat × Nat) →
    Option ((List Char × Bool) × List (Nat × Nat))
  | fuel, i, copiedSinceToken, output, removed =>
    if i < (strBytes text).length then
      match fuel with
      | 0 => none
      | fuel + 1 =>
          (parseMentionTokenEndAt text i).bind fun token =>
            match token with
            | some next =>
                (slice text copiedSinceToken i).bind fun segment =>
                  normalizeLoop text fuel next next (appendNormalizedSegment segment output)
                    (removed ++ [(i, next)])
            | none =>
                (strBytes text)[i]?.bind fun byte =>
                  normalizeLoop text fuel (i + utf8CharWidth byte) copiedSinceToken output removed
    else
      (sliceFrom text copiedSinceToken).map fun segment =>
        (appendNormalizedSegment segment output, removed)

def extractMentionUidsBytes (input : String) : Option (List Int × List (Nat × Nat)) :=
  extractLoop input.toList (strBytes input.toList).length 0 [] []

def normalizeSearchTextBytes (input : String) : Option (Option String × List (Nat × Nat)) :=
  (normalizeLoop input.toList (strBytes input.toList).length 0 0 ([], true) []).map
    fun (output, removed) =>
      let result := if output.1.getLast? = some ' ' then output.1.dropLast else output.1
      (if result = [] then none else some (String.ofList result), removed)

/-- The ranges of the tokens of a text that starts at some byte. -/
def tokenRanges : Nat → Nat → List Char → List (Nat × Nat)
  | 0, _, _ => []
  | _ + 1, _, [] => []
  | fuel + 1, start, c :: text =>
      match parseMentionToken (c :: text) with
      | some (_, next) =>
          let last := start + (byteLen (c :: text) - byteLen next)
          (start, last) :: tokenRanges fuel last next
      | none => tokenRanges fuel (start + c.utf8Size) text

section tokens

/-- What stands before the first bracket that closes, and after it. -/
theorem takeWhile_close {text : List Char} (h : ']' ∈ text) :
    text.takeWhile (· ≠ ']') ++ ']' :: (text.dropWhile (· ≠ ']')).drop 1 = text := by
  induction text with
  | nil => cases h
  | cons c text ih =>
    by_cases heq : c = ']'
    · subst heq
      simp
    · have hmem : ']' ∈ text := (List.mem_cons.mp h).resolve_left fun h => heq h.symm
      have hrest := ih hmem
      simp only [ne_eq, heq, not_false_eq_true, decide_true, List.takeWhile_cons_of_pos,
        List.dropWhile_cons_of_pos, List.cons_append]
      rw [hrest]

/-- A token is a piece of the text, and not an empty one. -/
theorem parseMentionToken_append {text next : List Char} {uid : Int}
    (h : parseMentionToken text = some (uid, next)) :
    ∃ token, text = token ++ next ∧ byteLen text = byteLen token + byteLen next ∧
      0 < byteLen token := by
  unfold parseMentionToken at h
  split at h
  · next rest =>
    split at h
    · next hmem =>
      split at h
      · obtain ⟨n, -, hn⟩ := Option.map_eq_some_iff.mp h
        obtain ⟨-, rfl⟩ := Prod.mk.inj hn
        have hsplit : '@' :: '[' :: rest =
            ('@' :: '[' :: (rest.takeWhile (· ≠ ']') ++ [']'])) ++
              (rest.dropWhile (· ≠ ']')).drop 1 := by
          simp only [List.cons_append, List.append_assoc, List.nil_append]
          rw [takeWhile_close hmem]
        refine ⟨_, hsplit, ?_, Nat.add_pos_left (Char.utf8Size_pos _) _⟩
        rw [← byteLen_append, ← hsplit]
      · cases h
    · cases h
  · cases h

theorem parseMentionToken_open (rest : List Char) :
    parseMentionToken ('@' :: '[' :: rest) =
      if ']' ∈ rest then
        match rest.takeWhile (· ≠ ']') with
        | 'u' :: 'i' :: 'd' :: ':' :: uid =>
            (parseI32 uid).map fun uid => (uid, (rest.dropWhile (· ≠ ']')).drop 1)
        | _ => none
      else none := rfl

/-- At a character the two parsers agree. -/
theorem parseMentionTokenAt_append (before text : List Char) :
    parseMentionTokenAt (before ++ text) (byteLen before) =
      some ((parseMentionToken text).map fun token =>
        (token.1, byteLen before + (byteLen text - byteLen token.2))) := by
  unfold parseMentionTokenAt
  dsimp only
  by_cases hopen : ∃ rest, text = '@' :: '[' :: rest
  · obtain ⟨rest, rfl⟩ := hopen
    have hfirst : (strBytes (before ++ '@' :: '[' :: rest))[byteLen before]? = some '@'.toNat := by
      rw [← Nat.add_zero (byteLen before), strBytes_getElem? _ _ _ (Char.utf8Size_pos _)]
      rfl
    have hsecond : (strBytes (before ++ '@' :: '[' :: rest))[byteLen before + 1]? =
        some '['.toNat := by
      have hstep : byteLen before + 1 = byteLen (before ++ ['@']) + 0 := by
        rw [byteLen_append]
        rfl
      have hassoc : before ++ '@' :: '[' :: rest = (before ++ ['@']) ++ '[' :: rest := by simp
      rw [hstep, hassoc, strBytes_getElem? _ _ _ (Char.utf8Size_pos _)]
      rfl
    have hrest : sliceFrom (before ++ '@' :: '[' :: rest) (byteLen before + 2) = some rest := by
      have hstep : byteLen before + 2 = byteLen (before ++ ['@', '[']) := by
        rw [byteLen_append]
        rfl
      have hassoc : before ++ '@' :: '[' :: rest = (before ++ ['@', '[']) ++ rest := by simp
      rw [hstep, hassoc, sliceFrom_append]
    rw [if_neg (by simp [hfirst, hsecond]), hrest]
    dsimp only
    rw [findChar_eq]
    by_cases hmem : ']' ∈ rest
    · have hclose := takeWhile_close hmem
      have hinner : slice rest 0 (byteLen (rest.takeWhile (· ≠ ']'))) =
          some (rest.takeWhile (· ≠ ']')) := by
        have h := slice_append [] (rest.takeWhile (· ≠ ']'))
          (']' :: (rest.dropWhile (· ≠ ']')).drop 1)
        rw [hclose] at h
        exact h
      have hlen : byteLen rest = byteLen (rest.takeWhile (· ≠ ']')) +
          (1 + byteLen ((rest.dropWhile (· ≠ ']')).drop 1)) := by
        conv_lhs => rw [← hclose]
        rw [byteLen_append]
        rfl
      have hlast : byteLen before + 2 + byteLen (rest.takeWhile (· ≠ ']')) + 1 =
          byteLen before + (byteLen ('@' :: '[' :: rest) -
            byteLen ((rest.dropWhile (· ≠ ']')).drop 1)) := by
        have hopened : byteLen ('@' :: '[' :: rest) = 1 + (1 + byteLen rest) := rfl
        omega
      rw [if_pos hmem]
      dsimp only
      rw [hinner, Option.map_some, hlast, parseMentionToken_open, if_pos hmem]
      congr 1
      split
      · next uid _ => cases parseI32 uid <;> rfl
      · rfl
    · rw [if_neg hmem, parseMentionToken_open, if_neg hmem]
      rfl
  · have hnone : parseMentionToken text = none := by
      unfold parseMentionToken
      split
      · next rest => exact absurd ⟨rest, rfl⟩ hopen
      · rfl
    rw [hnone, Option.map_none, if_pos]
    cases text with
    | nil =>
      left
      rw [List.append_nil, ← length_strBytes, List.getElem?_eq_none le_rfl]
      exact nofun
    | cons c text =>
      by_cases hat : c = '@'
      · right
        subst hat
        cases text with
        | nil =>
          have hlen : byteLen before + 1 = (strBytes (before ++ ['@'])).length := by
            rw [length_strBytes, byteLen_append]
            rfl
          rw [hlen, List.getElem?_eq_none le_rfl]
          exact nofun
        | cons c text =>
          have hstep : byteLen before + 1 = byteLen (before ++ ['@']) + 0 := by
            rw [byteLen_append]
            rfl
          have hassoc : before ++ '@' :: c :: text = (before ++ ['@']) ++ c :: text := by simp
          rw [hstep, hassoc, strBytes_getElem? _ _ _ c.utf8Size_pos]
          intro hbyte
          obtain rfl := (charBytes_head_eq_some (by decide)).mp hbyte
          exact hopen ⟨text, rfl⟩
      · left
        intro hbyte
        rw [← Nat.add_zero (byteLen before), strBytes_getElem? _ _ _ c.utf8Size_pos] at hbyte
        exact hat ((charBytes_head_eq_some (by decide)).mp hbyte)

/-- Within a character there is no token. -/
theorem parseMentionTokenAt_within (before : List Char) (c : Char) (after : List Char) {k : Nat}
    (hpos : 0 < k) (hk : k < c.utf8Size) :
    parseMentionTokenAt (before ++ c :: after) (byteLen before + k) = some none := by
  unfold parseMentionTokenAt
  dsimp only
  rw [if_pos]
  left
  rw [strBytes_getElem? _ _ _ hk]
  obtain ⟨hone, -⟩ | ⟨-, habove, -⟩ := charBytes_cases c
  · omega
  · intro hbyte
    have hat := habove _ (List.mem_of_getElem? hbyte)
    revert hat
    decide

end tokens

section extract

/-- Within a character the scan by bytes only moves on. -/
theorem extractLoop_within (before : List Char) (c : Char) (after : List Char) {left k : Nat}
    (hleft : k + left = c.utf8Size) (hpos : 0 < k) (fuel : Nat) (uids : List Int)
    (found : List (Nat × Nat)) :
    extractLoop (before ++ c :: after) (fuel + left) (byteLen before + k) uids found =
      extractLoop (before ++ c :: after) fuel (byteLen (before ++ [c])) uids found := by
  induction left generalizing k with
  | zero =>
    have hend : byteLen before + k = byteLen (before ++ [c]) := by
      rw [byteLen_append, byteLen, byteLen]
      omega
    rw [hend, Nat.add_zero]
  | succ left ih =>
    have hlt : byteLen before + k < (strBytes (before ++ c :: after)).length := by
      rw [length_strBytes, byteLen_append, byteLen]
      omega
    have hparse := parseMentionTokenAt_within before c after hpos (by omega)
    rw [← Nat.add_assoc, extractLoop, if_pos hlt, hparse]
    exact ih (show k + 1 + left = c.utf8Size by omega) (Nat.succ_pos k)

/-- The scan by bytes reads the text as the scan by characters does. -/
theorem extractLoop_eq {n : Nat} (before text : List Char) (hn : text.length ≤ n) {fuel : Nat}
    (hfuel : byteLen text ≤ fuel) (uids : List Int) (found : List (Nat × Nat)) :
    extractLoop (before ++ text) fuel (byteLen before) uids found =
      some (scanMentionUids n text uids, found ++ tokenRanges n (byteLen before) text) := by
  induction n generalizing before text fuel uids found with
  | zero =>
    obtain rfl : text = [] := List.length_eq_zero_iff.mp (Nat.le_zero.mp hn)
    unfold extractLoop
    rw [List.append_nil, length_strBytes, if_neg (lt_irrefl _)]
    simp [scanMentionUids, tokenRanges]
  | succ n ih =>
    cases text with
    | nil =>
      unfold extractLoop
      rw [List.append_nil, length_strBytes, if_neg (lt_irrefl _)]
      simp [scanMentionUids, tokenRanges]
    | cons c text =>
      have hpos := c.utf8Size_pos
      obtain ⟨fuel, rfl⟩ : ∃ f, fuel = f + c.utf8Size :=
        ⟨fuel - c.utf8Size, by rw [byteLen] at hfuel; omega⟩
      have hlt : byteLen before < (strBytes (before ++ c :: text)).length := by
        rw [length_strBytes, byteLen_append, byteLen]
        omega
      have hparse := parseMentionTokenAt_append before (c :: text)
      obtain ⟨left, hleft⟩ : ∃ left, c.utf8Size = 1 + left := ⟨c.utf8Size - 1, by omega⟩
      rw [scanMentionUids, tokenRanges]
      cases htoken : parseMentionToken (c :: text) with
      | none =>
        rw [htoken] at hparse
        have hwithin := extractLoop_within before c text hleft.symm Nat.one_pos fuel uids found
        have hmore : fuel + c.utf8Size = fuel + left + 1 := by omega
        have hassoc : before ++ c :: text = (before ++ [c]) ++ text := by simp
        have hend : byteLen (before ++ [c]) = byteLen before + c.utf8Size := by
          rw [byteLen_append]
          rfl
        have hrest := ih (before ++ [c]) text (by simpa using hn)
          (show byteLen text ≤ fuel by rw [byteLen] at hfuel; omega) uids found
        rw [hmore, extractLoop, if_pos hlt, hparse]
        refine hwithin.trans ?_
        rw [hassoc, hrest, hend]
      | some token =>
        obtain ⟨uid, next⟩ := token
        rw [htoken] at hparse
        obtain ⟨token, htext, hlen, hpos'⟩ := parseMentionToken_append htoken
        have hlast : byteLen before + (byteLen (c :: text) - byteLen next) =
            byteLen (before ++ token) := by
          rw [byteLen_append]
          omega
        have hnext := parseMentionToken_length htoken
        simp only [List.length_cons] at hn hnext
        have hmore : fuel + c.utf8Size = fuel + left + 1 := by omega
        have hrest := ih (before ++ token) next (by omega)
          (show byteLen next ≤ fuel + left by omega)
          (if uid ∈ uids then uids else uids ++ [uid])
          (found ++ [(byteLen before, byteLen (before ++ token))])
        rw [List.append_assoc, ← htext] at hrest
        rw [hmore, extractLoop, if_pos hlt, hparse]
        dsimp only [Option.map_some, Option.bind_some]
        rw [hlast, hrest, List.append_assoc]
        rfl

end extract

section normalize

/-- The first byte of a character tells its width. -/
theorem utf8CharWidth_head (c : Char) :
    ∃ byte, (charBytes c)[0]? = some byte ∧ utf8CharWidth byte = c.utf8Size := by
  unfold utf8CharWidth
  obtain ⟨hsize, hbytes, hlt⟩ | ⟨hsize, habove, byte, rest, hbytes, hwidth⟩ := charBytes_cases c
  · exact ⟨c.toNat, by rw [hbytes]; rfl, by rw [if_pos hlt, hsize]⟩
  · have hbyte := habove byte (by rw [hbytes]; exact List.mem_cons_self)
    refine ⟨byte, by rw [hbytes]; rfl, ?_⟩
    rw [if_neg (by omega)]
    obtain ⟨hsize, hlt⟩ | ⟨hsize, hle, hlt⟩ | ⟨hsize, hle⟩ := hwidth
    · rw [if_pos hlt, hsize]
    · rw [if_neg (by omega), if_pos hlt, hsize]
    · rw [if_neg (by omega), if_neg (by omega), hsize]

theorem normalizeLoop_end (before segment : List Char) (fuel : Nat) (output : List Char × Bool)
    (removed : List (Nat × Nat)) :
    normalizeLoop (before ++ segment) fuel (byteLen (before ++ segment)) (byteLen before) output
      removed = some (appendNormalizedSegment segment output, removed) := by
  unfold normalizeLoop
  rw [length_strBytes, if_neg (lt_irrefl _), sliceFrom_append]
  rfl

/-- The scan over bytes slices at characters only, and reads the text as the scan by characters
does. -/
theorem normalizeLoop_eq {n : Nat} (before segment text : List Char) (hn : text.length ≤ n)
    {fuel : Nat} (hfuel : byteLen text ≤ fuel) (output : List Char × Bool)
    (removed : List (Nat × Nat)) :
    normalizeLoop (before ++ (segment ++ text)) fuel (byteLen (before ++ segment)) (byteLen before)
      output removed = some (normalizeScan n text segment output,
        removed ++ tokenRanges n (byteLen (before ++ segment)) text) := by
  induction n generalizing before segment text fuel output removed with
  | zero =>
    obtain rfl : text = [] := List.length_eq_zero_iff.mp (Nat.le_zero.mp hn)
    rw [List.append_nil, normalizeLoop_end]
    simp [normalizeScan, tokenRanges]
  | succ n ih =>
    cases text with
    | nil =>
      rw [List.append_nil, normalizeLoop_end]
      simp [normalizeScan, tokenRanges]
    | cons c text =>
      have hpos := c.utf8Size_pos
      obtain ⟨fuel, rfl⟩ : ∃ f, fuel = f + 1 := ⟨fuel - 1, by rw [byteLen] at hfuel; omega⟩
      have hlt : byteLen (before ++ segment) <
          (strBytes (before ++ (segment ++ c :: text))).length := by
        rw [length_strBytes, byteLen_append, byteLen_append, byteLen_append, byteLen]
        omega
      have hassoc : before ++ (segment ++ c :: text) = (before ++ segment) ++ c :: text :=
        (List.append_assoc _ _ _).symm
      have hparse := parseMentionTokenAt_append (before ++ segment) (c :: text)
      rw [← hassoc] at hparse
      rw [normalizeScan, tokenRanges]
      unfold parseMentionTokenEnd
      rw [normalizeLoop, if_pos hlt]
      unfold parseMentionTokenEndAt
      rw [hparse]
      cases htoken : parseMentionToken (c :: text) with
      | none =>
        obtain ⟨byte, hbyte, hwidth⟩ := utf8CharWidth_head c
        have hread := strBytes_getElem? (before ++ segment) c text hpos
        rw [← hassoc, Nat.add_zero, hbyte] at hread
        have hrest := ih before (segment ++ [c]) text (by simpa using hn)
          (show byteLen text ≤ fuel by rw [byteLen] at hfuel; omega) output removed
        have hend : byteLen (before ++ (segment ++ [c])) =
            byteLen (before ++ segment) + c.utf8Size := by
          rw [← List.append_assoc, byteLen_append]
          rfl
        have hsame : before ++ (segment ++ [c] ++ text) = before ++ (segment ++ c :: text) := by
          simp
        rw [hend, hsame] at hrest
        simp only [Option.map_none, Option.map_some, Option.bind_some, hread, hwidth]
        exact hrest
      | some token =>
        obtain ⟨uid, next⟩ := token
        obtain ⟨token, htext, hlen, hpos'⟩ := parseMentionToken_append htoken
        have hlast : byteLen (before ++ segment) + (byteLen (c :: text) - byteLen next) =
            byteLen (before ++ segment ++ token) := by
          rw [byteLen_append (before ++ segment)]
          omega
        have hnext := parseMentionToken_length htoken
        simp only [List.length_cons] at hn hnext
        have hrest := ih (before ++ segment ++ token) [] next (by omega)
          (show byteLen next ≤ fuel by omega) (appendNormalizedSegment segment output)
          (removed ++ [(byteLen (before ++ segment), byteLen (before ++ segment ++ token))])
        rw [List.nil_append, List.append_nil, List.append_assoc (before ++ segment), ← htext,
          ← hassoc] at hrest
        have hsegment := slice_append before segment (c :: text)
        simp only [Option.map_some, Option.bind_some, hsegment, hlast]
        rw [hrest, List.append_assoc]
        rfl

end normalize

section outside

/-- The characters of a text outside some ranges of bytes. -/
def outsideRanges (ranges : List (Nat × Nat)) : Nat → List Char → List Char
  | _, [] => []
  | start, c :: text =>
      if ∃ range ∈ ranges, range.1 ≤ start ∧ start < range.2 then
        outsideRanges ranges (start + c.utf8Size) text
      else c :: outsideRanges ranges (start + c.utf8Size) text

/-- The characters outside the tokens. -/
def outsideTokens : Nat → List Char → List Char
  | 0, text => text
  | _ + 1, [] => []
  | n + 1, c :: text =>
      match parseMentionToken (c :: text) with
      | some (_, next) => outsideTokens n next
      | none => c :: outsideTokens n text

theorem appendNormalizedSegment_append (a b : List Char) (output : List Char × Bool) :
    appendNormalizedSegment (a ++ b) output =
      appendNormalizedSegment b (appendNormalizedSegment a output) := List.foldl_append

/-- What the segments between the tokens leave is what the characters outside them leave. -/
theorem normalizeScan_outside {n : Nat} (text segment : List Char) (hn : text.length ≤ n)
    (output : List Char × Bool) :
    normalizeScan n text segment output =
      appendNormalizedSegment (segment ++ outsideTokens n text) output := by
  induction n generalizing text segment output with
  | zero =>
    obtain rfl : text = [] := List.length_eq_zero_iff.mp (Nat.le_zero.mp hn)
    simp [normalizeScan, outsideTokens]
  | succ n ih =>
    cases text with
    | nil => simp [normalizeScan, outsideTokens]
    | cons c text =>
      rw [normalizeScan, outsideTokens]
      unfold parseMentionTokenEnd
      cases htoken : parseMentionToken (c :: text) with
      | none =>
        refine (ih text (segment ++ [c]) (by simpa using hn) output).trans ?_
        rw [List.append_assoc]
        rfl
      | some token =>
        obtain ⟨uid, next⟩ := token
        have hlt := parseMentionToken_length htoken
        simp only [List.length_cons] at hlt hn
        refine (ih next [] (by omega) _).trans ?_
        rw [List.nil_append, ← appendNormalizedSegment_append]

theorem tokenRanges_le {n : Nat} (start : Nat) (text : List Char) :
    ∀ range ∈ tokenRanges n start text, start ≤ range.1 := by
  induction n generalizing start text with
  | zero => simp [tokenRanges]
  | succ n ih =>
    cases text with
    | nil => simp [tokenRanges]
    | cons c text =>
      rw [tokenRanges]
      split
      · next uid next htoken =>
        intro range hmem
        obtain rfl | hmem := List.mem_cons.mp hmem
        · exact le_rfl
        · exact (Nat.le_add_right _ _).trans (ih _ _ range hmem)
      · exact fun range hmem => (Nat.le_add_right _ _).trans (ih _ _ range hmem)

/-- Ranges that end before the text do not matter. -/
theorem outsideRanges_cons {range : Nat × Nat} {ranges : List (Nat × Nat)} {start : Nat}
    (h : range.2 ≤ start) (text : List Char) :
    outsideRanges (range :: ranges) start text = outsideRanges ranges start text := by
  induction text generalizing start with
  | nil => rfl
  | cons c text ih =>
    have hno : ¬(range.1 ≤ start ∧ start < range.2) := by omega
    unfold outsideRanges
    rw [ih (h.trans (Nat.le_add_right _ _))]
    simp only [List.mem_cons, exists_eq_or_imp, hno, false_or]

theorem outsideRanges_token {range : Nat × Nat} {ranges : List (Nat × Nat)} {start : Nat}
    (token text : List Char) (hfirst : range.1 ≤ start)
    (hlast : start + byteLen token = range.2) :
    outsideRanges (range :: ranges) start (token ++ text) = outsideRanges ranges range.2 text := by
  induction token generalizing start with
  | nil =>
    rw [← hlast, byteLen, Nat.add_zero, List.nil_append]
    exact outsideRanges_cons (by rw [← hlast, byteLen, Nat.add_zero]) text
  | cons c token ih =>
    have hpos := c.utf8Size_pos
    rw [byteLen] at hlast
    rw [List.cons_append, outsideRanges,
      if_pos ⟨range, List.mem_cons_self, hfirst, by omega⟩]
    exact ih (by omega) (by omega)

theorem outsideRanges_tokenRanges {n : Nat} (start : Nat) (text : List Char)
    (hn : text.length ≤ n) :
    outsideRanges (tokenRanges n start text) start text = outsideTokens n text := by
  induction n generalizing start text with
  | zero =>
    obtain rfl : text = [] := List.length_eq_zero_iff.mp (Nat.le_zero.mp hn)
    rfl
  | succ n ih =>
    cases text with
    | nil => rfl
    | cons c text =>
      rw [tokenRanges, outsideTokens]
      cases htoken : parseMentionToken (c :: text) with
      | none =>
        have hno : ¬∃ range ∈ tokenRanges n (start + c.utf8Size) text,
            range.1 ≤ start ∧ start < range.2 := by
          intro ⟨range, hmem, hle, _⟩
          have hstart := tokenRanges_le _ _ range hmem
          have hpos := c.utf8Size_pos
          omega
        dsimp only
        rw [outsideRanges, if_neg hno, ih _ text (by simpa using hn)]
      | some token =>
        obtain ⟨uid, next⟩ := token
        obtain ⟨token, htext, hlen, -⟩ := parseMentionToken_append htoken
        have hnext := parseMentionToken_length htoken
        simp only [List.length_cons] at hn hnext
        dsimp only
        rw [hlen, Nat.add_sub_cancel, htext]
        exact (outsideRanges_token _ _ le_rfl rfl).trans (ih _ next (by omega))

end outside

section words

/-- The words of a text, between its whitespace. -/
def words (text : List Char) : List (List Char) :=
  (text.splitOnP isWhitespace).filter (· ≠ [])

/-- Without the space at the end. -/
def trimmed (output : List Char) : List Char :=
  if output.getLast? = some ' ' then output.dropLast else output

theorem words_whitespace {c : Char} (h : isWhitespace c = true) (text : List Char) :
    words (c :: text) = words text := by
  unfold words
  rw [List.splitOnP_cons_eq_if_modifyHead, if_pos h]
  simp

theorem words_eq_nil {text : List Char} :
    words text = [] ↔ ∀ c ∈ text, isWhitespace c = true := by
  induction text with
  | nil => simp [words]
  | cons c text ih =>
    by_cases hspace : isWhitespace c = true
    · rw [words_whitespace hspace, ih]
      simp [hspace]
    · unfold words
      rw [List.splitOnP_cons_eq_if_modifyHead, if_neg hspace]
      cases hsplit : text.splitOnP isWhitespace with
      | nil => exact absurd hsplit (List.splitOnP_ne_nil _ _)
      | cons word rest => simp [hspace]

theorem intercalate_append_left (out word : List Char) (rest : List (List Char)) :
    [' '].intercalate ((out ++ word) :: rest) = out ++ [' '].intercalate (word :: rest) := by
  induction out with
  | nil => rfl
  | cons c out ih => rw [List.cons_append, List.intercalate_cons_cons_left, ih, List.cons_append]

/-- From a state without an open word, and from one within a word. -/
theorem appendNormalizedSegment_words (text : List Char) :
    (∀ out : List Char, out = [] ∨ out.getLast? = some ' ' →
      trimmed (appendNormalizedSegment text (out, true)).1 =
        if words text = [] then trimmed out else out ++ [' '].intercalate (words text)) ∧
    (∀ out : List Char, out ≠ [] → out.getLast? ≠ some ' ' → ∀ word rest,
      text.splitOnP isWhitespace = word :: rest →
      trimmed (appendNormalizedSegment text (out, false)).1 =
        [' '].intercalate ((out ++ word) :: rest.filter (· ≠ []))) := by
  induction text with
  | nil =>
    refine ⟨fun out _ => rfl, fun out _ hlast word rest hsplit => ?_⟩
    obtain ⟨rfl, rfl⟩ := List.cons.inj (List.splitOnP_nil.symm.trans hsplit)
    have htrimmed : trimmed out = out := if_neg hlast
    simpa [appendNormalizedSegment] using htrimmed
  | cons c text ih =>
    obtain ⟨hclosed, hopen⟩ := ih
    have hsplit := List.splitOnP_cons_eq_if_modifyHead c text (p := isWhitespace)
    by_cases hspace : isWhitespace c = true
    · rw [if_pos hspace] at hsplit
      constructor
      · intro out hout
        rw [words_whitespace hspace, ← hclosed out hout]
        simp [appendNormalizedSegment, hspace]
      · intro out hne hlast word rest hwords
        obtain ⟨rfl, rfl⟩ := List.cons.inj (hsplit.symm.trans hwords)
        have hstep : appendNormalizedSegment (c :: text) (out, false) =
            appendNormalizedSegment text (out ++ [' '], true) := by
          simp [appendNormalizedSegment, hspace]
        rw [hstep, hclosed (out ++ [' ']) (.inr (by simp)), List.append_nil]
        change _ = [' '].intercalate (out :: words text)
        cases hnext : words text with
        | nil => simp [trimmed]
        | cons first others => simp
    · rw [if_neg hspace] at hsplit
      have hne : c ≠ ' ' := by
        rintro rfl
        exact hspace rfl
      obtain ⟨word, rest, hrest⟩ :=
        List.exists_cons_of_ne_nil (List.splitOnP_ne_nil isWhitespace text)
      have hwords : words (c :: text) = (c :: word) :: rest.filter (· ≠ []) := by
        unfold words
        rw [hsplit, hrest]
        simp
      have hstep : ∀ out last, appendNormalizedSegment (c :: text) (out, last) =
          appendNormalizedSegment text (out ++ [c], false) := by
        intro out last
        simp [appendNormalizedSegment, hspace]
      have hnext : ∀ out last, trimmed (appendNormalizedSegment (c :: text) (out, last)).1 =
          [' '].intercalate ((out ++ c :: word) :: rest.filter (· ≠ [])) := by
        intro out last
        rw [hstep, hopen (out ++ [c]) (by simp) (by simpa using hne) word rest hrest]
        simp
      refine ⟨fun out _ => ?_, fun out _ _ first others hfirst => ?_⟩
      · rw [hnext, hwords, if_neg (List.cons_ne_nil _ _), intercalate_append_left]
      · rw [hrest] at hsplit
        obtain ⟨rfl, rfl⟩ := List.cons.inj (hsplit.symm.trans hfirst)
        exact hnext out false

theorem intercalate_words_ne_nil {text : List Char} (h : words text ≠ []) :
    [' '].intercalate (words text) ≠ [] := by
  obtain ⟨word, rest, hwords⟩ := List.exists_cons_of_ne_nil h
  have hne : word ≠ [] := by
    have hmem : word ∈ words text := by
      rw [hwords]
      exact List.mem_cons_self
    simpa using (List.mem_filter.mp hmem).2
  obtain ⟨c, word, rfl⟩ := List.exists_cons_of_ne_nil hne
  rw [hwords, List.intercalate_cons_cons_left]
  exact List.cons_ne_nil _ _

end words

theorem tokenRanges_succ {n : Nat} (start : Nat) (text : List Char) (hn : text.length ≤ n) :
    tokenRanges (n + 1) start text = tokenRanges n start text := by
  induction n generalizing start text with
  | zero =>
    obtain rfl : text = [] := List.length_eq_zero_iff.mp (Nat.le_zero.mp hn)
    rfl
  | succ n ih =>
    cases text with
    | nil => rfl
    | cons c text =>
      rw [tokenRanges, tokenRanges]
      split
      · next uid next htoken =>
        have hlt := parseMentionToken_length htoken
        simp only [List.length_cons] at hlt hn
        dsimp only
        rw [ih _ next (by omega)]
      · exact ih _ text (by simpa using hn)

theorem extractMentionUidsBytes_eq (input : String) :
    extractMentionUidsBytes input = some (extractMentionUids input,
      tokenRanges input.toList.length 0 input.toList) := by
  have hloop := extractLoop_eq [] input.toList le_rfl
    (show byteLen input.toList ≤ (strBytes input.toList).length by rw [length_strBytes]) [] []
  unfold extractMentionUids
  rw [← String.length_toList]
  exact hloop

theorem normalizeSearchTextBytes_eq (input : String) :
    normalizeSearchTextBytes input = some (normalizeSearchText input,
      tokenRanges input.toList.length 0 input.toList) := by
  have hloop := normalizeLoop_eq [] [] input.toList (Nat.le_succ _)
    (show byteLen input.toList ≤ (strBytes input.toList).length by rw [length_strBytes])
    ([], true) []
  rw [tokenRanges_succ _ _ le_rfl] at hloop
  have hloop' : normalizeLoop input.toList (strBytes input.toList).length 0 0 ([], true) [] = _ :=
    hloop
  unfold normalizeSearchTextBytes normalizeSearchText
  rw [hloop', ← String.length_toList]
  rfl

theorem normalizeSearchText_eq (input : String) :
    normalizeSearchText input =
      let text := words (outsideTokens (input.toList.length + 1) input.toList)
      if text = [] then none else some (String.ofList ([' '].intercalate text)) := by
  have hscan := normalizeScan_outside input.toList [] (Nat.le_succ input.toList.length) ([], true)
  have htrimmed := (appendNormalizedSegment_words
    (outsideTokens (input.toList.length + 1) input.toList)).1 [] (.inl rfl)
  unfold normalizeSearchText
  rw [← String.length_toList]
  change (if trimmed (normalizeScan (input.toList.length + 1) input.toList [] ([], true)).1 = []
    then none else some (String.ofList
      (trimmed (normalizeScan (input.toList.length + 1) input.toList [] ([], true)).1))) = _
  rw [hscan, List.nil_append, htrimmed]
  dsimp only
  split
  · rfl
  · next h =>
    rw [List.nil_append, if_neg (intercalate_words_ne_nil h)]

/-- The two scanners over the bytes of a text, against each other and against the characters. -/
theorem scans_agree (input : String) :
    ∃ ranges, extractMentionUidsBytes input = some (extractMentionUids input, ranges) ∧
      ∃ result, normalizeSearchTextBytes input = some (result, ranges) ∧
        result = normalizeSearchText input ∧
        (result = none ↔ ∀ c ∈ outsideRanges ranges 0 input.toList, isWhitespace c = true) ∧
        ∀ text, result = some text →
          text.toList = [' '].intercalate (words (outsideRanges ranges 0 input.toList)) := by
  refine ⟨_, extractMentionUidsBytes_eq input, _, normalizeSearchTextBytes_eq input, rfl, ?_⟩
  rw [normalizeSearchText_eq, ← tokenRanges_succ _ _ le_rfl,
    outsideRanges_tokenRanges 0 input.toList (Nat.le_succ _), ← words_eq_nil]
  dsimp only
  split
  · next h => exact ⟨by simp [h], nofun⟩
  · next h =>
    refine ⟨by simp [h], fun text htext => ?_⟩
    rw [← Option.some.inj htext, String.toList_ofList]

end Chahua.Search
